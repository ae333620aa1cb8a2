import ShapeBindings.Proofs.Table.History

/-!
# Merging tables

`t.merge u` adds the modules of `u`, one after the other and each with its functions, to those of `t`.  What is added to
`u` could as well be added to the merged table: `merge_push` and `merge_ensure`.
-/

namespace ShapeBindings

namespace Table

/-- Gives a module its place and adds its functions. -/
def addModule (t : Table) (m : Module) : Table := m.functions.foldl push (t.ensure m.name)

/-- Adds all modules of another table. -/
def merge (t u : Table) : Table := u.modules.foldl addModule t

variable {t u : Table} {d : Descriptor} {name : String}

@[simp] theorem merge_empty (t : Table) : t.merge {} = t := rfl

/-! ### Modules that are there -/

theorem ensure_of_mem (h : name ∈ t.names) : t.ensure name = t := if_pos (isSome_module?_iff.2 h)

theorem ensure_of_not_mem (h : name ∉ t.names) : t.ensure name = ⟨t.modules ++ [⟨name, []⟩]⟩ :=
  if_neg (mt isSome_module?_iff.1 h)

theorem mem_names_push (h : name ∈ t.names) (d : Descriptor) : name ∈ (t.push d).names := by
  rw [names_push]
  split
  · exact h
  · exact List.mem_append_left _ h

theorem mem_names_ensure (h : name ∈ t.names) (n : String) : name ∈ (t.ensure n).names := by
  rw [names_ensure]
  split
  · exact h
  · exact List.mem_append_left _ h

theorem self_mem_names_ensure (t : Table) (name : String) : name ∈ (t.ensure name).names := by
  rw [names_ensure]
  split
  · assumption
  · simp

theorem mem_names_foldl_push (h : name ∈ t.names) (ds : List Descriptor) : name ∈ (ds.foldl push t).names := by
  induction ds generalizing t with
  | nil => exact h
  | cons d ds ih => exact ih (mem_names_push h d)

theorem mem_names_addModule (h : name ∈ t.names) (m : Module) : name ∈ (t.addModule m).names :=
  mem_names_foldl_push (mem_names_ensure h m.name) m.functions

theorem self_mem_names_addModule (t : Table) (m : Module) : m.name ∈ (t.addModule m).names :=
  mem_names_foldl_push (self_mem_names_ensure t m.name) m.functions

theorem mem_names_foldl_addModule (h : name ∈ t.names) (ms : List Module) : name ∈ (ms.foldl addModule t).names := by
  induction ms generalizing t with
  | nil => exact h
  | cons m ms ih => exact ih (mem_names_addModule h m)

theorem mem_names_merge (t : Table) (h : name ∈ u.names) : name ∈ (t.merge u).names := by
  obtain ⟨m, hm, rfl⟩ := List.mem_map.1 h
  obtain ⟨before, after, hms⟩ := List.append_of_mem hm
  rw [merge, hms, List.foldl_append, List.foldl_cons]
  exact mem_names_foldl_addModule (self_mem_names_addModule _ m) after

/-! ### A function of a module that is there can be added earlier -/

theorem Module.insert_new {ms : List Module} (h : d.moduleName ∉ ms.map (·.name)) :
    Module.insert d (ms ++ [⟨d.moduleName, []⟩]) = Module.insert d ms := by
  induction ms with
  | nil => simp [Module.insert]
  | cons m ms ih =>
    rw [List.map_cons, List.mem_cons, not_or] at h
    rw [List.cons_append, Module.insert, Module.insert, if_neg (Ne.symm h.1), if_neg (Ne.symm h.1), ih h.2]

theorem push_ensure (t : Table) (d : Descriptor) : (t.ensure d.moduleName).push d = t.push d := by
  by_cases h : d.moduleName ∈ t.names
  · rw [ensure_of_mem h]
  · rw [ensure_of_not_mem h]
    exact congrArg Table.mk (Module.insert_new h)

theorem Module.insert_append {ms : List Module} (h : d.moduleName ∈ ms.map (·.name)) (ns : List Module) :
    Module.insert d (ms ++ ns) = Module.insert d ms ++ ns := by
  induction ms with
  | nil => cases h
  | cons m ms ih =>
    by_cases hm : m.name = d.moduleName
    · simp [Module.insert, hm]
    · have hrest : d.moduleName ∈ ms.map (·.name) := by simpa [Ne.symm hm] using h
      simp [Module.insert, hm, ih hrest]

theorem ensure_push_comm (h : d.moduleName ∈ t.names) (n : String) : (t.push d).ensure n = (t.ensure n).push d := by
  by_cases hn : n ∈ t.names
  · rw [ensure_of_mem hn, ensure_of_mem (mem_names_push hn d)]
  · have hpush : n ∉ (t.push d).names := by rwa [names_push, if_pos h]
    rw [ensure_of_not_mem hn, ensure_of_not_mem hpush]
    exact congrArg Table.mk (Module.insert_append h _).symm

theorem foldl_push_comm {es : List Descriptor} (hes : ∀ e ∈ es, e.moduleName ≠ d.moduleName)
    (h : d.moduleName ∈ t.names) : es.foldl push (t.push d) = (es.foldl push t).push d := by
  induction es generalizing t with
  | nil => rfl
  | cons e es ih =>
    obtain ⟨he, hes⟩ := List.forall_mem_cons.1 hes
    rw [List.foldl_cons, List.foldl_cons, push_push_comm (Ne.symm he) (.inl h), ih hes (mem_names_push h e)]

theorem addModule_push_comm {m : Module} (hm : ∀ e ∈ m.functions, e.moduleName ≠ d.moduleName)
    (h : d.moduleName ∈ t.names) : (t.push d).addModule m = (t.addModule m).push d := by
  rw [addModule, ensure_push_comm h, foldl_push_comm hm (mem_names_ensure h m.name)]
  rfl

theorem foldl_addModule_push_comm {ms : List Module} (hms : ∀ m ∈ ms, ∀ e ∈ m.functions, e.moduleName ≠ d.moduleName)
    (h : d.moduleName ∈ t.names) : ms.foldl addModule (t.push d) = (ms.foldl addModule t).push d := by
  induction ms generalizing t with
  | nil => rfl
  | cons m ms ih =>
    obtain ⟨hm, hms⟩ := List.forall_mem_cons.1 hms
    rw [List.foldl_cons, List.foldl_cons, addModule_push_comm hm h, ih hms (mem_names_addModule h m)]

/-! ### What is added to the second table -/

theorem foldl_addModule_insert {ms : List Module} (hnames : (ms.map (·.name)).Nodup)
    (hfunctions : ∀ m ∈ ms, ∀ e ∈ m.functions, e.moduleName = m.name) (t : Table) (d : Descriptor) :
    (Module.insert d ms).foldl addModule t = (ms.foldl addModule t).push d := by
  induction ms generalizing t with
  | nil => exact push_ensure t d
  | cons m ms ih =>
    rw [List.map_cons, List.nodup_cons] at hnames
    obtain ⟨-, hrest⟩ := List.forall_mem_cons.1 hfunctions
    rw [Module.insert]
    by_cases hm : m.name = d.moduleName
    · -- the functions of the other modules are of other modules
      have hothers : ∀ n ∈ ms, ∀ e ∈ n.functions, e.moduleName ≠ d.moduleName := by
        intro n hn e he hname
        rw [hrest n hn e he, ← hm] at hname
        exact hnames.1 (hname ▸ List.mem_map_of_mem hn)
      have hlast : t.addModule ⟨m.name, m.functions ++ [d]⟩ = (t.addModule m).push d := List.foldl_concat ..
      rw [if_pos hm, List.foldl_cons, List.foldl_cons, hlast]
      exact foldl_addModule_push_comm hothers (hm ▸ self_mem_names_addModule t m)
    · rw [if_neg hm, List.foldl_cons, List.foldl_cons, ih hnames.2 hrest]

theorem merge_push (hu : u.Built) (t : Table) (d : Descriptor) : t.merge (u.push d) = (t.merge u).push d :=
  foldl_addModule_insert hu.nodup_names hu.moduleName_eq t d

theorem merge_ensure (t u : Table) (name : String) : t.merge (u.ensure name) = (t.merge u).ensure name := by
  by_cases h : name ∈ u.names
  · rw [ensure_of_mem h, ensure_of_mem (mem_names_merge t h)]
  · rw [ensure_of_not_mem h, merge, List.foldl_append]
    rfl

end Table

end ShapeBindings
