/-!
# Dictionaries

A dictionary holds one value per name. Its entries stand in increasing order of the names, by code
points, so that whatever walks through it does so in that order.
-/

namespace ShapeBindings

/-- Sets the value of a name in a list of entries in increasing order. -/
def insertEntry {α : Type} (name : String) (value : α) :
    List (String × α) → List (String × α)
  | [] => [(name, value)]
  | (n, v) :: rest =>
    if name < n then (name, value) :: (n, v) :: rest
    else if name = n then (name, value) :: rest
    else (n, v) :: insertEntry name value rest

theorem fst_mem_insertEntry {α : Type} {name : String} {value : α} {es : List (String × α)}
    {e : String × α} (h : e ∈ insertEntry name value es) : e.1 = name ∨ e ∈ es := by
  fun_induction insertEntry name value es with
  | case1 => simp_all
  | case2 n v rest hlt =>
    rcases List.mem_cons.1 h with rfl | h
    · exact .inl rfl
    · exact .inr h
  | case3 v rest hlt =>
    rcases List.mem_cons.1 h with rfl | h
    · exact .inl rfl
    · exact .inr (List.mem_cons_of_mem _ h)
  | case4 n v rest hlt hne ih =>
    rcases List.mem_cons.1 h with rfl | h
    · exact .inr List.mem_cons_self
    · exact (ih h).imp_right (List.mem_cons_of_mem _)

theorem pairwise_insertEntry {α : Type} {name : String} {value : α} {es : List (String × α)}
    (h : es.Pairwise (·.1 < ·.1)) : (insertEntry name value es).Pairwise (·.1 < ·.1) := by
  fun_induction insertEntry name value es with
  | case1 => simp
  | case2 n v rest hlt =>
    refine List.pairwise_cons.2 ⟨fun e he => ?_, h⟩
    rcases List.mem_cons.1 he with rfl | he
    · exact hlt
    · exact String.lt_trans hlt ((List.pairwise_cons.1 h).1 e he)
  | case3 v rest hlt => exact List.pairwise_cons.2 (List.pairwise_cons.1 h)
  | case4 n v rest hlt hne ih =>
    obtain ⟨hn, hrest⟩ := List.pairwise_cons.1 h
    refine List.pairwise_cons.2 ⟨fun e he => ?_, ih hrest⟩
    rcases fst_mem_insertEntry he with he | he
    · rw [he]
      exact Std.lt_of_le_of_ne (String.not_lt.1 hlt) (Ne.symm hne)
    · exact hn e he

theorem pairwise_noEntries {α : Type} : ([] : List (String × α)).Pairwise (·.1 < ·.1) := .nil

/-- One value per name, in increasing order of the names. -/
structure Dictionary (α : Type) where
  /-- The names with their values. -/
  entries : List (String × α) := []
  increasing : entries.Pairwise (·.1 < ·.1) := by exact pairwise_noEntries
  deriving DecidableEq

namespace Dictionary

variable {α : Type}

def insert (d : Dictionary α) (name : String) (value : α) : Dictionary α :=
  ⟨insertEntry name value d.entries, pairwise_insertEntry d.increasing⟩

def erase (d : Dictionary α) (name : String) : Dictionary α :=
  ⟨d.entries.filter (·.1 != name), d.increasing.filter _⟩

def get? (d : Dictionary α) (name : String) : Option α := d.entries.lookup name

def contains (d : Dictionary α) (name : String) : Bool := (d.get? name).isSome

def names (d : Dictionary α) : List String := d.entries.map (·.1)

/-- The dictionary of a list of names with their values; a later value of a name replaces an
earlier one. -/
def ofList (es : List (String × α)) : Dictionary α :=
  es.foldl (fun d e => d.insert e.1 e.2) {}

end Dictionary

end ShapeBindings
