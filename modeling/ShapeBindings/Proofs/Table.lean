import ShapeBindings.Table

/-!
# The functions and the modules of a table

A function more is counted after each `push` (`functionCount_push`), and none after `ensure` (`functionCount_ensure`).
Both add a module at the end if the table has none of its name (`names_push`, `names_ensure`), so no table that can be
built has two modules of one name (`Built.nodup_names`), and each function is in the module that it names
(`Built.moduleName_eq`).
-/

namespace ShapeBindings

theorem Module.functionCount_insert (d : Descriptor) (ms : List Module) :
    (⟨Module.insert d ms⟩ : Table).functionCount = (⟨ms⟩ : Table).functionCount + 1 := by
  unfold Table.functionCount
  induction ms with
  | nil => rfl
  | cons m ms ih =>
    rw [Module.insert]
    split
    · simp only [List.foldr_cons, Module.size, List.length_append, List.length_singleton]
      omega
    · simp only [List.foldr_cons] at ih ⊢
      omega

namespace Table

@[simp] theorem functionCount_push (t : Table) (d : Descriptor) :
    (t.push d).functionCount = t.functionCount + 1 :=
  Module.functionCount_insert d t.modules

@[simp] theorem functionCount_ensure (t : Table) (name : String) : (t.ensure name).functionCount = t.functionCount := by
  unfold ensure
  split
  · rfl
  · simp [functionCount, Module.size]

/-! ### The functions -/

/-- The functions of all modules, in order. -/
def functions (t : Table) : List Descriptor := t.modules.flatMap (·.functions)

theorem mem_functions {t : Table} {d : Descriptor} : d ∈ t.functions ↔ ∃ m ∈ t.modules, d ∈ m.functions :=
  List.mem_flatMap

theorem mem_insert_functions {ms : List Module} {d e : Descriptor} {m : Module} (hm : m ∈ Module.insert d ms)
    (he : e ∈ m.functions) : e = d ∧ m.name = d.moduleName ∨ ∃ m' ∈ ms, m'.name = m.name ∧ e ∈ m'.functions := by
  induction ms with
  | nil =>
    obtain rfl := List.mem_singleton.1 hm
    exact .inl ⟨List.mem_singleton.1 he, rfl⟩
  | cons n ms ih =>
    rw [Module.insert] at hm
    split at hm
    · next hname =>
      rcases List.mem_cons.1 hm with rfl | hm
      · rcases List.mem_append.1 he with he | he
        · exact .inr ⟨n, List.mem_cons_self, rfl, he⟩
        · exact .inl ⟨List.mem_singleton.1 he, hname⟩
      · exact .inr ⟨m, List.mem_cons_of_mem n hm, rfl, he⟩
    · rcases List.mem_cons.1 hm with rfl | hm
      · exact .inr ⟨m, List.mem_cons_self, rfl, he⟩
      · refine (ih hm).imp_right ?_
        rintro ⟨m', hm', h⟩
        exact ⟨m', List.mem_cons_of_mem n hm', h⟩

theorem mem_functions_of_push {t : Table} {d e : Descriptor} (h : e ∈ (t.push d).functions) :
    e = d ∨ e ∈ t.functions := by
  obtain ⟨m, hm, he⟩ := mem_functions.1 h
  rcases mem_insert_functions hm he with ⟨rfl, -⟩ | ⟨m', hm', -, he⟩
  · exact .inl rfl
  · exact .inr (mem_functions.2 ⟨m', hm', he⟩)

theorem mem_of_mem_functions_ofList {ds : List Descriptor} {d : Descriptor} (h : d ∈ (ofList ds).functions) :
    d ∈ ds := by
  have hfold : ∀ t : Table, d ∈ (ds.foldl push t).functions → d ∈ t.functions ∨ d ∈ ds := by
    clear h
    induction ds with
    | nil => exact fun t h => .inl h
    | cons e ds ih =>
      intro t h
      rcases ih (t.push e) h with h | h
      · rcases mem_functions_of_push h with rfl | h
        · exact .inr List.mem_cons_self
        · exact .inl h
      · exact .inr (List.mem_cons_of_mem e h)
  exact (hfold {} h).resolve_left (by simp [functions])

theorem modules_ensure (t : Table) (name : String) :
    (t.ensure name).modules = t.modules ∨ (t.ensure name).modules = t.modules ++ [⟨name, []⟩] := by
  unfold ensure
  split
  · exact .inl rfl
  · exact .inr rfl

theorem functions_ensure (t : Table) (name : String) : (t.ensure name).functions = t.functions := by
  unfold functions
  rcases modules_ensure t name with h | h <;> simp [h]

/-! ### The names of the modules -/

/-- The names of the modules, in order. -/
def names (t : Table) : List String := t.modules.map (·.name)

theorem isSome_module?_iff {t : Table} {name : String} : (t.module? name).isSome ↔ name ∈ t.names := by
  simp [module?, names, List.find?_isSome]

theorem module?_eq_none_iff {t : Table} {name : String} : t.module? name = none ↔ name ∉ t.names := by
  rw [← isSome_module?_iff, Option.not_isSome_iff_eq_none]

theorem names_push (t : Table) (d : Descriptor) :
    (t.push d).names = if d.moduleName ∈ t.names then t.names else t.names ++ [d.moduleName] := by
  obtain ⟨ms⟩ := t
  unfold push names
  induction ms with
  | nil => rfl
  | cons m ms ih =>
    simp only [Module.insert] at ih ⊢
    by_cases hm : m.name = d.moduleName
    · simp [hm]
    · rw [if_neg hm, List.map_cons, ih, List.map_cons]
      by_cases h : d.moduleName ∈ ms.map (·.name)
      · rw [if_pos h, if_pos (List.mem_cons_of_mem _ h)]
      · rw [if_neg h, if_neg (by simpa [List.mem_cons, Ne.symm hm] using h)]
        rfl

theorem names_ensure (t : Table) (name : String) :
    (t.ensure name).names = if name ∈ t.names then t.names else t.names ++ [name] := by
  unfold ensure
  by_cases h : name ∈ t.names
  · rw [if_pos (isSome_module?_iff.2 h), if_pos h]
  · rw [if_neg (mt isSome_module?_iff.1 h), if_neg h]
    simp [names]

/-- The tables that can be built: the empty one, and what `push` and `ensure` make of another. -/
inductive Built : Table → Prop
  | empty : Built {}
  | push {t : Table} (h : Built t) (d : Descriptor) : Built (t.push d)
  | ensure {t : Table} (h : Built t) (name : String) : Built (t.ensure name)

theorem nodup_append_of_not_mem {names : List String} {name : String} (h : names.Nodup) :
    (if name ∈ names then names else names ++ [name]).Nodup := by
  split
  · exact h
  · next hn => simpa [List.nodup_append] using ⟨h, fun a ha => fun he => hn (he ▸ ha)⟩

theorem Built.nodup_names {t : Table} (h : t.Built) : t.names.Nodup := by
  induction h with
  | empty => exact List.nodup_nil
  | push _ d ih =>
    rw [names_push]
    exact nodup_append_of_not_mem ih
  | ensure _ name ih =>
    rw [names_ensure]
    exact nodup_append_of_not_mem ih

theorem Built.moduleName_eq {t : Table} (h : t.Built) : ∀ m ∈ t.modules, ∀ d ∈ m.functions, d.moduleName = m.name := by
  induction h with
  | empty => simp
  | push _ d ih =>
    intro m hm e he
    rcases mem_insert_functions hm he with ⟨rfl, hname⟩ | ⟨m', hm', hname, he⟩
    · exact hname.symm
    · exact (ih m' hm' e he).trans hname
  | ensure _ name ih =>
    intro m hm e he
    rcases modules_ensure _ name with heq | heq <;> rw [heq] at hm
    · exact ih m hm e he
    · rcases List.mem_append.1 hm with hm | hm
      · exact ih m hm e he
      · obtain rfl := List.mem_singleton.1 hm
        simp at he

theorem built_ofList (ds : List Descriptor) : (ofList ds).Built := by
  unfold ofList
  have h : ∀ t : Table, t.Built → (ds.foldl push t).Built := by
    induction ds with
    | nil => exact fun t ht => ht
    | cons d ds ih => exact fun t ht => ih _ (ht.push d)
  exact h {} .empty

end Table

end ShapeBindings
