import ShapeBindings.Dictionary

/-!
# Looking names up in a dictionary

The value that a name has after `insert` and `erase` (`get?_insert`, `get?_erase`), and the names that have one
(`mem_names_iff`).
-/

namespace ShapeBindings

section Lookup

variable {κ α : Type} [BEq κ] [LawfulBEq κ] [DecidableEq κ]

theorem lookup_cons_eq_ite (key other : κ) (value : α) (es : List (κ × α)) :
    ((key, value) :: es).lookup other = if other = key then some value else es.lookup other := by
  rw [List.lookup_cons]
  by_cases h : other = key
  · rw [if_pos h, beq_iff_eq.2 h]
  · rw [if_neg h, beq_eq_false_iff_ne.2 h]

theorem lookup_filter_ne (key other : κ) (es : List (κ × α)) :
    (es.filter (·.1 != key)).lookup other = if other = key then none else es.lookup other := by
  induction es with
  | nil => simp
  | cons e es ih =>
    obtain ⟨k, v⟩ := e
    rw [lookup_cons_eq_ite]
    by_cases hk : k = key
    · rw [List.filter_cons_of_neg (by simp [hk]), ih, hk]
      split <;> rfl
    · rw [List.filter_cons_of_pos (by simp [hk]), lookup_cons_eq_ite, ih]
      by_cases h : other = k
      · rw [if_pos h, if_pos h, if_neg fun ho => hk (h.symm.trans ho)]
      · rw [if_neg h, if_neg h]

end Lookup

variable {α : Type}

theorem lookup_insertEntry (name other : String) (value : α) (es : List (String × α)) :
    (insertEntry name value es).lookup other = if other = name then some value else es.lookup other := by
  fun_induction insertEntry name value es with
  | case1 => rw [lookup_cons_eq_ite]
  | case2 n v rest hlt => rw [lookup_cons_eq_ite]
  | case3 v rest hlt =>
    rw [lookup_cons_eq_ite, lookup_cons_eq_ite]
    split <;> rfl
  | case4 n v rest hlt hne ih =>
    rw [lookup_cons_eq_ite, lookup_cons_eq_ite, ih]
    by_cases h : other = n
    · rw [if_pos h, if_pos h, if_neg fun hn => hne (hn.symm.trans h)]
    · rw [if_neg h, if_neg h]

namespace Dictionary

@[simp] theorem get?_empty (name : String) : ({} : Dictionary α).get? name = none := rfl

theorem get?_insert (d : Dictionary α) (name other : String) (value : α) :
    (d.insert name value).get? other = if other = name then some value else d.get? other :=
  lookup_insertEntry name other value d.entries

theorem get?_erase (d : Dictionary α) (name other : String) :
    (d.erase name).get? other = if other = name then none else d.get? other :=
  lookup_filter_ne name other d.entries

theorem contains_insert (d : Dictionary α) (name other : String) (value : α) :
    (d.insert name value).contains other = (other == name || d.contains other) := by
  rw [contains, get?_insert]
  by_cases h : other = name <;> simp [h, contains]

/-! ### The names -/

theorem mem_names_iff {d : Dictionary α} {name : String} : name ∈ d.names ↔ (d.get? name).isSome = true := by
  rw [names, get?, List.mem_map, Option.isSome_iff_ne_none, Ne, List.lookup_eq_none_iff]
  constructor
  · rintro ⟨e, he, rfl⟩ hall
    simpa using hall e he
  · intro h
    refine Classical.byContradiction fun hnone => h fun e he => ?_
    rw [bne_iff_ne]
    rintro rfl
    exact hnone ⟨e, he, rfl⟩

theorem pairwise_names (d : Dictionary α) : d.names.Pairwise (· < ·) := List.pairwise_map.2 d.increasing

end Dictionary

end ShapeBindings
