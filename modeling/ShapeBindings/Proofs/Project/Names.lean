import ShapeBindings.Proofs.Files.Location
import ShapeBindings.Proofs.Identifier
import ShapeBindings.Proofs.Project.Sources
import ShapeBindings.Proofs.Project.Units

/-!
# The names of units

A run that succeeds makes the units of the planned modules that are selected, in the order of the plan
(`names_of_units`).  So no two units have one name, and each name is that of a file (`isFileName_of_isIdentifier`).
-/

namespace ShapeBindings

namespace Config

variable {c : Config} {t : Table} {selected : List String} {provenance : Provenance} {us : List SourceUnit}

/-! ### What a run that succeeds takes -/

theorem wanted_of_selectionPlan {p : Plan} (h : c.selectionPlan t selected = .ok p) :
    ∀ name ∈ c.wanted selected, name ∈ t.names ∧ (c.conventionOf name).isSome := by
  unfold selectionPlan at h
  split at h
  · cases h
  · next hfind =>
    have hplan := exists_planFor_iff.1 ⟨p, exists_of_mapError_eq_ok h⟩
    intro name hname
    have hthere := List.find?_eq_none.1 hfind name hname
    rw [Option.isNone_iff_eq_none, Table.module?_eq_none_iff, not_not] at hthere
    exact ⟨hthere, hplan name hname⟩

theorem wanted_of_units (h : c.units t selected provenance = .ok us) :
    ∀ name ∈ c.wanted selected, name ∈ t.names ∧ (c.conventionOf name).isSome := by
  unfold units at h
  obtain ⟨tableUnits, htable, -⟩ := exists_of_bind_eq_ok h
  unfold Config.tableUnits at htable
  split at htable
  · next hempty =>
    rw [List.isEmpty_iff] at hempty
    simp [hempty, wanted]
  · obtain ⟨p, hp, -⟩ := exists_of_bind_eq_ok htable
    exact wanted_of_selectionPlan hp

theorem units_eq_of_ok (hn : c.naming.validate = .ok ()) (h : c.units t selected provenance = .ok us) :
    (∀ m ∈ t.modules.filter (c.takes selected), ∃ u, c.attempt provenance m = .ok u) ∧
      us = (t.modules.filter (c.takes selected)).filterMap (c.unitOf? provenance) ++
        if c.makesTextUnit selected then [textUnit (c.unitOptions provenance)] else [] := by
  rw [units_eq hn (wanted_of_units h)] at h
  rcases forall_ok_or_first_error (c.attempt provenance) (t.modules.filter (c.takes selected)) with
    hall | ⟨before, m, after, e, hms, hm, hb⟩
  · rw [unitsOf_eq_ok hall] at h
    exact ⟨hall, (Except.ok.inj h).symm⟩
  · rw [hms, unitsOf_eq_error hb hm] at h
    cases h

/-! ### What a full run makes -/

/-- The modules of a table that a full run makes units of, each with its convention. -/
def planned (c : Config) (t : Table) : List (Module × Convention) :=
  t.modules.filterMap fun m => (c.plan.convention? m.name).map (m, ·)

theorem mem_planned {q : Module × Convention} :
    q ∈ c.planned t ↔ q.1 ∈ t.modules ∧ c.plan.convention? q.1.name = some q.2 := by
  rw [planned, List.mem_filterMap]
  constructor
  · rintro ⟨m, hm, hq⟩
    obtain ⟨convention, hconvention, rfl⟩ := Option.map_eq_some_iff.1 hq
    exact ⟨hm, hconvention⟩
  · rintro ⟨hm, hconvention⟩
    exact ⟨q.1, hm, by rw [hconvention, Option.map_some]⟩

theorem plannedModules_eq (c : Config) (t : Table) :
    c.plannedModules t = (c.planned t).map (·.1.name) ++ if c.output.text then [textModuleName] else [] := by
  rw [plannedModules, planned]
  congr 1
  induction t.modules with
  | nil => rfl
  | cons m ms ih =>
    rw [List.map_cons]
    cases hc : c.plan.convention? m.name with
    | none => rw [List.filter_cons_of_neg (by simp [hc]), List.filterMap_cons_none (by rw [hc]; rfl), ih]
    | some convention =>
      rw [List.filter_cons_of_pos (by simp [hc]), List.filterMap_cons_some (by rw [hc, Option.map_some]), ih,
        List.map_cons]

theorem forall₂_planned {ms : List Module} (h : ∀ m ∈ ms, ∃ u, c.attempt provenance m = .ok u) :
    List.Forall₂ (fun q u => q.1.unit q.2 (c.unitOptions provenance) = .ok u)
      (ms.filterMap fun m => (c.plan.convention? m.name).map (m, ·)) (ms.filterMap (c.unitOf? provenance)) := by
  induction ms with
  | nil => exact .nil
  | cons m ms ih =>
    have htail := ih fun m' hm' => h m' (List.mem_cons_of_mem m hm')
    obtain ⟨made, hmade⟩ := h m List.mem_cons_self
    cases hc : c.plan.convention? m.name with
    | none =>
      have hnone : c.unitOf? provenance m = none := by
        rw [unitOf?, attempt_of_unplanned (by rw [hc]; rfl)]
      rwa [List.filterMap_cons_none (by rw [hc]; rfl), List.filterMap_cons_none hnone]
    | some convention =>
      rw [attempt_of_planned hc] at hmade
      obtain ⟨u, hu, rfl⟩ := exists_of_map_eq_ok hmade
      have hsome : c.unitOf? provenance m = some u := unitOf?_eq_some_iff.2 ⟨convention, hc, hu⟩
      rw [List.filterMap_cons_some (by rw [hc, Option.map_some]), List.filterMap_cons_some hsome]
      exact .cons hu htail

/-- A full run makes the units of the planned modules, in their order, and the one that is written by hand. -/
theorem exists_units_planned (hn : c.naming.validate = .ok ()) (h : c.units t [] provenance = .ok us) :
    ∃ made, List.Forall₂ (fun q u => q.1.unit q.2 (c.unitOptions provenance) = .ok u) (c.planned t) made ∧
      us = made ++ if c.output.text then [textUnit (c.unitOptions provenance)] else [] := by
  obtain ⟨hall, rfl⟩ := units_eq_of_ok hn h
  have hmodules : t.modules.filter (c.takes []) = t.modules := List.filter_eq_self.2 fun _ _ => rfl
  rw [hmodules] at hall ⊢
  have htext : c.makesTextUnit [] = c.output.text := Bool.and_true _
  exact ⟨_, forall₂_planned hall, by rw [htext]⟩

/-! ### The names -/

theorem isSome_unitOf? {m : Module} (h : ∃ u, c.attempt provenance m = .ok u) :
    (c.unitOf? provenance m).isSome = (c.plan.convention? m.name).isSome := by
  obtain ⟨made, hmade⟩ := h
  rw [unitOf?, hmade]
  cases hc : c.plan.convention? m.name with
  | none =>
    rw [attempt_of_unplanned (by rw [hc]; rfl)] at hmade
    cases hmade
    rfl
  | some convention =>
    rw [attempt_of_planned hc] at hmade
    obtain ⟨u, -, rfl⟩ := exists_of_map_eq_ok hmade
    rfl

/-- The units of some modules are named after those that are planned. -/
theorem names_filterMap_unitOf? {ms : List Module} (h : ∀ m ∈ ms, ∃ u, c.attempt provenance m = .ok u) :
    (ms.filterMap (c.unitOf? provenance)).map (·.moduleName) =
      (ms.map (·.name)).filter fun name => (c.plan.convention? name).isSome := by
  induction ms with
  | nil => rfl
  | cons m ms ih =>
    have htail := ih fun m' hm' => h m' (List.mem_cons_of_mem m hm')
    have hsome := isSome_unitOf? (h m List.mem_cons_self)
    rw [List.map_cons]
    cases hu : c.unitOf? provenance m with
    | none =>
      rw [hu] at hsome
      rw [List.filterMap_cons_none hu, htail, List.filter_cons_of_neg (by simp [← hsome])]
    | some u =>
      rw [hu] at hsome
      rw [List.filterMap_cons_some hu, List.map_cons, htail, moduleName_of_unitOf? hu,
        List.filter_cons_of_pos (by simp [← hsome])]

theorem planned_takes {name : String} (hp : (c.plan.convention? name).isSome) :
    name ∈ c.wanted selected ↔ name ∈ selected := by
  rw [mem_wanted, and_iff_left (conventionOf_of_planned hp).2]

theorem names_of_units (hn : c.naming.validate = .ok ()) (h : c.units t selected provenance = .ok us) :
    us.map (·.moduleName) = (c.plannedModules t).filter fun name => selected.isEmpty || decide (name ∈ selected) := by
  obtain ⟨hall, rfl⟩ := units_eq_of_ok hn h
  have htable : ((t.modules.filter (c.takes selected)).map (·.name)).filter (fun name => (c.plan.convention? name).isSome) =
      (t.names.filter fun name => (c.plan.convention? name).isSome).filter
        fun name => selected.isEmpty || decide (name ∈ selected) := by
    have hmap : (t.modules.filter (c.takes selected)).map (·.name) =
        t.names.filter fun name => selected.isEmpty || decide (name ∈ c.wanted selected) := by
      rw [Table.names, List.filter_map]
      rfl
    rw [hmap, List.filter_filter, List.filter_filter]
    refine List.filter_congr fun name _ => ?_
    cases hp : (c.plan.convention? name).isSome with
    | false => simp
    | true => simp [planned_takes hp]
  have htext : (if c.makesTextUnit selected then [textUnit (c.unitOptions provenance)] else []).map (·.moduleName) =
      (if c.output.text then [textModuleName] else []).filter fun name => selected.isEmpty || decide (name ∈ selected) := by
    unfold makesTextUnit
    cases c.output.text with
    | false => rfl
    | true => cases hs : selected.isEmpty || decide (textModuleName ∈ selected) <;> simp_all [textUnit]
  rw [List.map_append, names_filterMap_unitOf? hall, htable, htext, plannedModules, List.filter_append]
  rfl

theorem nodup_plannedModules (ht : t.names.Nodup) (c : Config) : (c.plannedModules t).Nodup := by
  unfold plannedModules
  refine List.nodup_append.2 ⟨ht.filter _, by split <;> simp, fun name hname other hother => ?_⟩
  rintro rfl
  -- the module that is written by hand is not planned in the table
  have hp := (conventionOf_of_planned (List.mem_filter.1 hname).2).2
  split at hother
  · next htext => exact hp ⟨htext, List.mem_singleton.1 hother⟩
  · simp at hother

theorem isIdentifier_of_mem_plannedModules (ht : t.WellNamed) {name : String} (h : name ∈ c.plannedModules t) :
    isIdentifier name = true := by
  rcases List.mem_append.1 h with h | h
  · exact ht.isIdentifier name (List.mem_filter.1 h).1
  · split at h
    · rw [List.mem_singleton.1 h]
      decide
    · simp at h

end Config

/-! ### The names of files -/

theorem isFileName_of_isIdentifier {name : String} (h : isIdentifier name = true) : IsFileName (name ++ ".rs") := by
  have hslash : '/' ∉ name.toList := not_mem_of_isIdentifier h (by decide)
  have hlen : 3 < (name ++ ".rs").toList.length := by
    have hpos := List.length_pos_of_ne_nil (toList_ne_nil_of_isIdentifier h)
    rw [String.toList_append, List.length_append]
    have hrs : (".rs".toList).length = 3 := rfl
    omega
  refine ⟨?_, ?_, ?_, ?_⟩
  · rw [String.toList_append, List.mem_append, not_or]
    exact ⟨hslash, by decide⟩
  all_goals
    intro heq
    rw [heq] at hlen
    revert hlen
    decide

end ShapeBindings
