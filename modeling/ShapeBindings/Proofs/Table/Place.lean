import ShapeBindings.Proofs.Table.History

/-!
# Places in a table

A function stands at a place: in the module of a name, behind some other functions.

* `Table.function?`: the function at a place;
* `Table.nextPlace`: the place behind the last function of a module, where `push` puts one more (`function?_push`);
* `Table.modify`: a table with another function at a place.  It does not matter whether functions are added before or
  after the change (`modify_push_of_isSome`, `modify_push_self`, `modify_ensure`).
-/

namespace ShapeBindings

/-- Where a function stands in a table. -/
structure Table.Place where
  /-- The name of its module. -/
  moduleName : String
  /-- The number of functions before it in the module. -/
  index : Nat
  deriving DecidableEq

/-- Changes the first module of a name. -/
def Module.alter (name : String) (f : Module → Module) : List Module → List Module
  | [] => []
  | m :: ms => if m.name = name then f m :: ms else m :: alter name f ms

/-- Changes the function at an index. -/
def Module.modify (i : Nat) (f : Descriptor → Descriptor) (m : Module) : Module :=
  { m with functions := m.functions.modify i f }

namespace Table

/-- The function at a place. -/
def function? (t : Table) (q : Place) : Option Descriptor :=
  (t.module? q.moduleName).bind (·.functions[q.index]?)

/-- The place behind the last function of a module. -/
def nextPlace (t : Table) (name : String) : Place := ⟨name, (t.module? name).elim 0 Module.size⟩

/-- Changes the function at a place. -/
def modify (t : Table) (q : Place) (f : Descriptor → Descriptor) : Table :=
  ⟨Module.alter q.moduleName (Module.modify q.index f) t.modules⟩

variable {t : Table} {q : Place} {d : Descriptor} {f : Descriptor → Descriptor}

/-! ### Looking a function up -/

theorem module?_modify (t : Table) (q : Place) (f : Descriptor → Descriptor) (name : String) :
    (t.modify q f).module? name =
      if name = q.moduleName then (t.module? name).map (Module.modify q.index f) else t.module? name := by
  obtain ⟨ms⟩ := t
  unfold modify module?
  dsimp only
  induction ms with
  | nil => simp [Module.alter]
  | cons m ms ih =>
    rw [Module.alter]
    by_cases hm : m.name = q.moduleName
    · by_cases hname : name = q.moduleName
      · simp [hm, hname, Module.modify]
      · simp [hm, hname, Ne.symm hname, Module.modify]
    · by_cases hname : m.name = name
      · subst hname
        simp [hm]
      · simp [hm, hname, ih]

theorem function?_modify (t : Table) (q : Place) (f : Descriptor → Descriptor) (q' : Place) :
    (t.modify q f).function? q' = if q' = q then (t.function? q').map f else t.function? q' := by
  obtain ⟨name, i⟩ := q
  obtain ⟨name', j⟩ := q'
  unfold function?
  rw [module?_modify]
  by_cases hname : name' = name
  · subst hname
    cases t.module? name' with
    | none => simp
    | some m =>
      by_cases hi : i = j
      · subst hi
        simp [Module.modify]
      · simp [Module.modify, hi, Ne.symm hi]
  · simp [hname]

theorem function?_push (t : Table) (d : Descriptor) (q : Place) :
    (t.push d).function? q = if q = t.nextPlace d.moduleName then some d else t.function? q := by
  obtain ⟨name, i⟩ := q
  unfold function? nextPlace
  rw [module?_push]
  by_cases hname : name = d.moduleName
  · subst hname
    cases t.module? d.moduleName with
    | none => cases i <;> simp
    | some m =>
      have hlast : (m.functions ++ [d])[i]? = if i = m.functions.length then some d else m.functions[i]? := by
        rcases Nat.lt_trichotomy i m.functions.length with h | h | h
        · rw [List.getElem?_append_left h, if_neg (by omega)]
        · rw [if_pos h, h, List.getElem?_concat_length]
        · rw [List.getElem?_eq_none (by simp; omega), if_neg (by omega), List.getElem?_eq_none (by omega)]
      simpa [Module.size] using hlast
  · simp [hname]

theorem function?_ensure (t : Table) (name : String) (q : Place) : (t.ensure name).function? q = t.function? q := by
  unfold function?
  rw [module?_ensure]
  by_cases hname : q.moduleName = name
  · rw [if_pos hname]
    cases t.module? q.moduleName <;> simp
  · rw [if_neg hname]

/-- Nothing stands behind the last function. -/
theorem function?_nextPlace (t : Table) (name : String) : t.function? (t.nextPlace name) = none := by
  unfold function? nextPlace
  dsimp only
  cases t.module? name with
  | none => rfl
  | some m => simp [Module.size]

/-- A function keeps its place. -/
theorem function?_push_of_eq_some {e : Descriptor} (h : t.function? q = some e) (d : Descriptor) :
    (t.push d).function? q = some e := by
  have hne : q ≠ t.nextPlace d.moduleName := by
    rintro rfl
    rw [function?_nextPlace] at h
    cases h
  rw [function?_push, if_neg hne, h]

/-! ### Changing a function -/

theorem modify_concat {α : Type} {xs : List α} {i : Nat} (hi : i < xs.length) (f : α → α) (x : α) :
    (xs ++ [x]).modify i f = xs.modify i f ++ [x] := by
  refine List.ext_getElem? fun j => ?_
  rw [List.getElem?_modify]
  by_cases hj : j < xs.length
  · rw [List.getElem?_append_left hj, List.getElem?_append_left (by simpa using hj), List.getElem?_modify]
  · have hij : i ≠ j := by omega
    rw [List.getElem?_append_right (by omega), List.getElem?_append_right (by simpa using hj), List.length_modify]
    simp [hij]

theorem modify_concat_length {α : Type} (xs : List α) (f : α → α) (x : α) :
    (xs ++ [x]).modify xs.length f = xs ++ [f x] := by
  induction xs with
  | nil => rfl
  | cons y xs ih => rw [List.cons_append, List.length_cons, List.modify_succ_cons, ih, List.cons_append]

theorem modify_push_of_isSome (h : (t.function? q).isSome) (d : Descriptor) (f : Descriptor → Descriptor) :
    (t.push d).modify q f = (t.modify q f).push d := by
  obtain ⟨ms⟩ := t
  unfold function? module? at h
  unfold push modify
  dsimp only at h ⊢
  congr 1
  induction ms with
  | nil => cases h
  | cons m ms ih =>
    by_cases hq : m.name = q.moduleName
    · rw [List.find?_cons_of_pos (by simpa using hq), Option.bind_some] at h
      have hi : q.index < m.functions.length := by simpa using h
      by_cases hd : m.name = d.moduleName
      · simp [Module.insert, Module.alter, hd, hq ▸ hd, Module.modify, modify_concat hi]
      · simp [Module.insert, Module.alter, hq, hq ▸ hd, Module.modify]
    · rw [List.find?_cons_of_neg (by simpa using hq)] at h
      by_cases hd : m.name = d.moduleName
      · simp [Module.insert, Module.alter, hd, hd ▸ hq]
      · simp [Module.insert, Module.alter, hd, hq, ih h]

/-- A function can be changed before it is added. -/
theorem modify_push_self (hf : (f d).moduleName = d.moduleName) :
    (t.push d).modify (t.nextPlace d.moduleName) f = t.push (f d) := by
  obtain ⟨ms⟩ := t
  unfold push modify nextPlace module?
  dsimp only
  congr 1
  induction ms with
  | nil => simp [Module.insert, Module.alter, Module.modify, hf]
  | cons m ms ih =>
    by_cases hd : m.name = d.moduleName
    · simp [Module.insert, Module.alter, hd, hf, Module.modify, Module.size, modify_concat_length]
    · simp [Module.insert, Module.alter, hd, hf, ih]

theorem modify_ensure (t : Table) (q : Place) (f : Descriptor → Descriptor) (name : String) :
    (t.ensure name).modify q f = (t.modify q f).ensure name := by
  have hsome : ((t.modify q f).module? name).isSome = (t.module? name).isSome := by
    rw [module?_modify]
    split <;> simp
  have happend : ∀ ms : List Module, Module.alter q.moduleName (Module.modify q.index f) (ms ++ [⟨name, []⟩]) =
      Module.alter q.moduleName (Module.modify q.index f) ms ++ [⟨name, []⟩] := by
    intro ms
    induction ms with
    | nil => simp [Module.alter, Module.modify]
    | cons m ms ih =>
      rw [List.cons_append, Module.alter, Module.alter]
      split
      · rfl
      · rw [ih, List.cons_append]
  unfold ensure
  rw [hsome]
  split
  · rfl
  · exact congrArg Table.mk (happend t.modules)

end Table

end ShapeBindings
