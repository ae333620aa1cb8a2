import ShapeBindings.Project.Units
import ShapeBindings.Proofs.Plan
import ShapeBindings.Proofs.Steps
import ShapeBindings.Proofs.Table

/-!
# Full runs and selections

A run for selected modules and a run for all planned ones take different ways to their units.  `units_eq` brings both
to one form: the modules that the run takes (`takes`) go through the plan of the full run, in the order of the table,
until one fails.  `units_selected_agree` is what follows for the two kinds of run: a full run succeeds just when the
runs for its single modules do, a selection of its units gives those units, and its failure is that of the first module
that fails alone.
-/

namespace ShapeBindings

namespace Config

variable {c : Config} {t : Table} {selected : List String} {provenance : Provenance}

/-! ### The modules that a run takes -/

/-- Whether a run takes a module of the table. -/
def takes (c : Config) (selected : List String) (m : Module) : Bool :=
  selected.isEmpty || decide (m.name ∈ c.wanted selected)

theorem mem_wanted {name : String} :
    name ∈ c.wanted selected ↔ name ∈ selected ∧ ¬ (c.output.text = true ∧ name = textModuleName) := by
  rw [wanted, List.mem_filter]
  cases c.output.text <;> simp

/-- What a full run does with a module, whatever it does with the others. -/
def attempt (c : Config) (provenance : Provenance) (m : Module) : Except WrapperError (Option SourceUnit) :=
  c.plan.unit? (c.unitOptions provenance) m

/-- The units that a run makes of the modules that it takes, and the one that is written by hand. -/
def unitsOf (c : Config) (ms : List Module) (selected : List String) (provenance : Provenance) :
    Except Failure (List SourceUnit) :=
  ((ms.mapM (c.attempt provenance)).mapError .wrapper).map fun us =>
    us.reduceOption ++ if c.makesTextUnit selected then [textUnit (c.unitOptions provenance)] else []

theorem takes_of_ne_nil (h : selected ≠ []) (m : Module) :
    c.takes selected m = decide (m.name ∈ c.wanted selected) := by
  rw [takes, List.isEmpty_eq_false_iff.2 h, Bool.false_or]

/-- The plan of a selection does with a selected module what the plan of a full run does with it. -/
theorem unit?_of_planFor {p : Plan} (hp : c.planFor (c.wanted selected) = .ok p) {m : Module}
    (hm : m.name ∈ c.wanted selected) : p.unit? (c.unitOptions provenance) m = c.attempt provenance m := by
  have htext : (c.output.text && m.name == textModuleName) = false := by
    rw [← Bool.not_eq_true, Bool.and_eq_true, beq_iff_eq]
    exact (mem_wanted.1 hm).2
  have hconv : p.convention? m.name = c.plan.convention? m.name := by
    rw [convention?_of_planFor hp, convention?_plan, if_pos hm, htext]
    rfl
  unfold attempt Plan.unit?
  rw [hconv]

theorem selectionPlan_eq_ok (hs : ∀ name ∈ c.wanted selected, name ∈ t.names ∧ (c.conventionOf name).isSome) :
    ∃ p, c.planFor (c.wanted selected) = .ok p ∧ c.selectionPlan t selected = .ok p := by
  have hfind : (c.wanted selected).find? (fun name => (t.module? name).isNone) = none := by
    rw [List.find?_eq_none]
    intro name hname
    rw [Option.isNone_iff_eq_none, Table.module?_eq_none_iff, not_not]
    exact (hs name hname).1
  obtain ⟨p, hp⟩ := exists_planFor_iff.2 fun name hname => (hs name hname).2
  refine ⟨p, hp, ?_⟩
  unfold selectionPlan
  rw [hfind, hp]
  rfl

theorem tableUnits_nil (hn : c.naming.validate = .ok ()) :
    c.tableUnits t [] (c.unitOptions provenance) =
      ((t.modules.mapM (c.attempt provenance)).mapError .wrapper).map List.reduceOption := by
  have hnaming : (c.unitOptions provenance).naming.validate = .ok () := hn
  have htable : c.tableUnits t [] (c.unitOptions provenance) =
      (c.plan.units t (c.unitOptions provenance)).mapError .wrapper := rfl
  rw [htable, Plan.units, hnaming]
  show (t.modules.mapM (c.attempt provenance) >>= fun us => pure us.reduceOption).mapError Failure.wrapper = _
  cases t.modules.mapM (c.attempt provenance) <;> rfl

theorem tableUnits_of_ne_nil (h : selected ≠ [])
    (hs : ∀ name ∈ c.wanted selected, name ∈ t.names ∧ (c.conventionOf name).isSome) :
    c.tableUnits t selected (c.unitOptions provenance) =
      (((c.selectedModules t selected).mapM (c.attempt provenance)).mapError .wrapper).map List.reduceOption := by
  obtain ⟨p, hp, hplan⟩ := selectionPlan_eq_ok hs
  have hmap : (c.selectedModules t selected).mapM (p.unit? (c.unitOptions provenance)) =
      (c.selectedModules t selected).mapM (c.attempt provenance) := by
    refine mapM_congr_of_mem fun m hm => ?_
    exact unit?_of_planFor hp (of_decide_eq_true (List.mem_filter.1 hm).2)
  unfold tableUnits
  rw [if_neg (by simpa using h), hplan]
  show ((c.selectedModules t selected).mapM (p.unit? (c.unitOptions provenance))).mapError Failure.wrapper >>=
    (fun us => pure us.reduceOption) = _
  rw [hmap]
  cases (c.selectedModules t selected).mapM (c.attempt provenance) <;> rfl

/-- Both kinds of run do with each module that they take what a full run does with it. -/
theorem units_eq (hn : c.naming.validate = .ok ())
    (hs : ∀ name ∈ c.wanted selected, name ∈ t.names ∧ (c.conventionOf name).isSome) :
    c.units t selected provenance =
      c.unitsOf (t.modules.filter (c.takes selected)) selected provenance := by
  have htable : c.tableUnits t selected (c.unitOptions provenance) =
      (((t.modules.filter (c.takes selected)).mapM (c.attempt provenance)).mapError .wrapper).map
        List.reduceOption := by
    by_cases h : selected = []
    · have htakes : t.modules.filter (c.takes selected) = t.modules := by
        rw [h]
        exact List.filter_eq_self.2 fun m _ => rfl
      rw [htakes, h, tableUnits_nil hn]
    · have htakes : t.modules.filter (c.takes selected) = c.selectedModules t selected :=
        List.filter_congr fun m _ => takes_of_ne_nil h m
      rw [htakes, tableUnits_of_ne_nil h hs]
  unfold units unitsOf
  dsimp only
  rw [htable]
  cases (t.modules.filter (c.takes selected)).mapM (c.attempt provenance) <;> rfl

/-! ### What a run gives -/

/-- The unit that a full run makes of a module, if it makes one. -/
def unitOf? (c : Config) (provenance : Provenance) (m : Module) : Option SourceUnit :=
  match c.attempt provenance m with
  | .ok u => u
  | .error _ => none

theorem unitsOf_eq_ok {ms : List Module} (h : ∀ m ∈ ms, ∃ u, c.attempt provenance m = .ok u) :
    c.unitsOf ms selected provenance =
      .ok (ms.filterMap (c.unitOf? provenance) ++
        if c.makesTextUnit selected then [textUnit (c.unitOptions provenance)] else []) := by
  have hmap : ms.mapM (c.attempt provenance) = .ok (ms.map (c.unitOf? provenance)) := by
    refine mapM_eq_ok_map fun m hm => ?_
    obtain ⟨u, hu⟩ := h m hm
    rw [unitOf?, hu]
  have hreduce : (ms.map (c.unitOf? provenance)).reduceOption = ms.filterMap (c.unitOf? provenance) :=
    List.filterMap_map
  rw [unitsOf, hmap, ← hreduce]
  rfl

theorem unitsOf_eq_error {before after : List Module} {m : Module} {e : WrapperError}
    (hb : ∀ m ∈ before, ∃ u, c.attempt provenance m = .ok u) (hm : c.attempt provenance m = .error e) :
    c.unitsOf (before ++ m :: after) selected provenance = .error (.wrapper e) := by
  rw [unitsOf, mapM_eq_error hb hm]
  rfl

theorem attempt_of_unplanned {m : Module} (h : (c.plan.convention? m.name).isSome = false) :
    c.attempt provenance m = .ok none := by
  unfold attempt Plan.unit?
  rw [Option.isSome_eq_false_iff, Option.isNone_iff_eq_none] at h
  rw [h]

theorem attempt_of_planned {m : Module} {convention : Convention} (h : c.plan.convention? m.name = some convention) :
    c.attempt provenance m = (m.unit convention (c.unitOptions provenance)).map some := by
  unfold attempt Plan.unit?
  rw [h]

theorem unitOf?_eq_some_iff {m : Module} {u : SourceUnit} :
    c.unitOf? provenance m = some u ↔ ∃ convention, c.plan.convention? m.name = some convention ∧
      m.unit convention (c.unitOptions provenance) = .ok u := by
  unfold unitOf?
  cases hc : c.plan.convention? m.name with
  | none =>
    rw [attempt_of_unplanned (by rw [hc]; rfl)]
    simp
  | some convention =>
    rw [attempt_of_planned hc]
    cases hu : m.unit convention (c.unitOptions provenance) <;> simp [Except.map, hu]

theorem moduleName_of_unitOf? {m : Module} {u : SourceUnit} (h : c.unitOf? provenance m = some u) :
    u.moduleName = m.name := by
  obtain ⟨convention, -, hu⟩ := unitOf?_eq_some_iff.1 h
  obtain ⟨source, -, rfl⟩ := exists_of_map_eq_ok hu
  rfl

theorem planned_of_unitOf? {m : Module} {u : SourceUnit} (h : c.unitOf? provenance m = some u) :
    (c.plan.convention? m.name).isSome := by
  obtain ⟨convention, hc, -⟩ := unitOf?_eq_some_iff.1 h
  rw [hc]
  rfl

/-! ### Modules that a full run makes units of -/

theorem conventionOf_of_planned {name : String} (h : (c.plan.convention? name).isSome) :
    (c.conventionOf name).isSome ∧ ¬ (c.output.text = true ∧ name = textModuleName) := by
  rw [convention?_plan] at h
  split at h
  · cases h
  · next htext => exact ⟨h, by simpa using htext⟩

theorem filter_name_eq {ms : List Module} (h : (ms.map (·.name)).Nodup) {m : Module} (hm : m ∈ ms) :
    ms.filter (fun m' => decide (m'.name = m.name)) = [m] := by
  induction ms with
  | nil => simp at hm
  | cons m' ms ih =>
    rw [List.map_cons, List.nodup_cons] at h
    rcases List.mem_cons.1 hm with rfl | hm
    · have hnone : ms.filter (fun m' => decide (m'.name = m.name)) = [] := by
        rw [List.filter_eq_nil_iff]
        intro m' hm' hname
        exact h.1 (of_decide_eq_true hname ▸ List.mem_map_of_mem hm')
      rw [List.filter_cons_of_pos (by simp), hnone]
    · have hne : m'.name ≠ m.name := fun hname => h.1 (hname ▸ List.mem_map_of_mem hm)
      rw [List.filter_cons_of_neg (by simpa using hne), ih h.2 hm]

theorem units_single (hn : c.naming.validate = .ok ()) (ht : t.names.Nodup) {m : Module} (hm : m ∈ t.modules)
    (hp : (c.plan.convention? m.name).isSome) :
    c.units t [m.name] provenance = c.unitsOf [m] [m.name] provenance := by
  obtain ⟨hconv, htext⟩ := conventionOf_of_planned hp
  have hwanted : c.wanted [m.name] = [m.name] := by
    rw [wanted, List.filter_eq_self]
    intro name hname
    obtain rfl := List.mem_singleton.1 hname
    rw [Bool.not_eq_true', ← Bool.not_eq_true, Bool.and_eq_true, beq_iff_eq]
    exact htext
  have hs : ∀ name ∈ c.wanted [m.name], name ∈ t.names ∧ (c.conventionOf name).isSome := by
    rw [hwanted]
    intro name hname
    obtain rfl := List.mem_singleton.1 hname
    exact ⟨List.mem_map_of_mem hm, hconv⟩
  have hfilter : t.modules.filter (c.takes [m.name]) = [m] := by
    rw [← filter_name_eq ht hm]
    refine List.filter_congr fun m' _ => ?_
    rw [takes_of_ne_nil (List.cons_ne_nil _ _), hwanted]
    simp
  rw [units_eq hn hs, hfilter]

theorem units_single_ok (hn : c.naming.validate = .ok ()) (ht : t.names.Nodup) {m : Module} (hm : m ∈ t.modules)
    (hp : (c.plan.convention? m.name).isSome) (h : ∃ u, c.attempt provenance m = .ok u) :
    ∃ us, c.units t [m.name] provenance = .ok us := by
  have hall : ∀ m' ∈ [m], ∃ u, c.attempt provenance m' = .ok u := by simpa using h
  exact ⟨_, (units_single hn ht hm hp).trans (unitsOf_eq_ok hall)⟩

theorem units_single_error (hn : c.naming.validate = .ok ()) (ht : t.names.Nodup) {m : Module} (hm : m ∈ t.modules)
    (hp : (c.plan.convention? m.name).isSome) {e : WrapperError} (h : c.attempt provenance m = .error e) :
    c.units t [m.name] provenance = .error (.wrapper e) := by
  rw [units_single hn ht hm hp]
  have hnone : ∀ m' ∈ ([] : List Module), ∃ u, c.attempt provenance m' = .ok u := by simp
  exact unitsOf_eq_error hnone h

theorem planned_of_attempt_eq_error {m : Module} {e : WrapperError} (h : c.attempt provenance m = .error e) :
    (c.plan.convention? m.name).isSome := by
  cases hp : (c.plan.convention? m.name).isSome with
  | true => rfl
  | false =>
    rw [attempt_of_unplanned hp] at h
    cases h

/-! ### Full runs -/

theorem units_nil (hn : c.naming.validate = .ok ()) : c.units t [] provenance = c.unitsOf t.modules [] provenance := by
  have htakes : t.modules.filter (c.takes []) = t.modules := List.filter_eq_self.2 fun m _ => rfl
  rw [units_eq hn (by simp [wanted]), htakes]

theorem makesTextUnit_nil : c.makesTextUnit [] = c.output.text := by simp [makesTextUnit]

theorem units_nil_eq_ok (hn : c.naming.validate = .ok ()) (hall : ∀ m ∈ t.modules, ∃ u, c.attempt provenance m = .ok u) :
    c.units t [] provenance = .ok (t.modules.filterMap (c.unitOf? provenance) ++
      if c.output.text then [textUnit (c.unitOptions provenance)] else []) := by
  rw [units_nil hn, unitsOf_eq_ok hall, makesTextUnit_nil]

theorem exists_planned_of_mem {u : SourceUnit} (hu : u ∈ t.modules.filterMap (c.unitOf? provenance)) :
    u.moduleName ∈ t.names ∧ (c.plan.convention? u.moduleName).isSome := by
  obtain ⟨m, hm, hmu⟩ := List.mem_filterMap.1 hu
  rw [moduleName_of_unitOf? hmu]
  exact ⟨List.mem_map_of_mem hm, planned_of_unitOf? hmu⟩

/-- Selecting among the units of some modules is taking the selected modules. -/
theorem filter_filterMap_unitOf? (hne : selected ≠ []) (ms : List Module) :
    (ms.filterMap (c.unitOf? provenance)).filter (fun u => u.moduleName ∈ selected) =
      (ms.filter (c.takes selected)).filterMap (c.unitOf? provenance) := by
  rw [List.filter_filterMap, List.filterMap_filter]
  refine List.filterMap_congr fun m _ => ?_
  cases hu : c.unitOf? provenance m with
  | none => simp
  | some u =>
    obtain ⟨-, htext⟩ := conventionOf_of_planned (planned_of_unitOf? hu)
    have htakes : c.takes selected m = decide (u.moduleName ∈ selected) := by
      rw [takes_of_ne_nil hne, moduleName_of_unitOf? hu, decide_eq_decide, mem_wanted, and_iff_left htext]
    rw [htakes]
    by_cases h : u.moduleName ∈ selected <;> simp [h]

theorem units_of_selected (hn : c.naming.validate = .ok ()) (hall : ∀ m ∈ t.modules, ∃ u, c.attempt provenance m = .ok u)
    {us : List SourceUnit} (hus : c.units t [] provenance = .ok us) (hne : selected ≠ [])
    (hsel : ∀ name ∈ selected, name ∈ us.map (·.moduleName)) :
    c.units t selected provenance = .ok (us.filter fun u => u.moduleName ∈ selected) := by
  rw [units_nil_eq_ok hn hall] at hus
  obtain rfl := Except.ok.inj hus
  have hs : ∀ name ∈ c.wanted selected, name ∈ t.names ∧ (c.conventionOf name).isSome := by
    intro name hname
    obtain ⟨hmem, htext⟩ := mem_wanted.1 hname
    obtain ⟨u, hu, rfl⟩ := List.mem_map.1 (hsel name hmem)
    rcases List.mem_append.1 hu with hu | hu
    · obtain ⟨ht, hp⟩ := exists_planned_of_mem hu
      exact ⟨ht, (conventionOf_of_planned hp).1⟩
    · -- the unit that is written by hand is not wanted from the table
      split at hu
      · next hon =>
        obtain rfl := List.mem_singleton.1 hu
        exact absurd ⟨hon, rfl⟩ htext
      · cases hu
  have hsome : ∀ m ∈ t.modules.filter (c.takes selected), ∃ u, c.attempt provenance m = .ok u :=
    fun m hm => hall m (List.mem_filter.1 hm).1
  have htext : (if c.output.text then [textUnit (c.unitOptions provenance)] else []).filter
      (fun u => u.moduleName ∈ selected) =
        if c.makesTextUnit selected then [textUnit (c.unitOptions provenance)] else [] := by
    rw [makesTextUnit, List.isEmpty_eq_false_iff.2 hne]
    cases c.output.text <;> by_cases h : textModuleName ∈ selected <;> simp [textUnit, h]
  rw [units_eq hn hs, unitsOf_eq_ok hsome, List.filter_append, filter_filterMap_unitOf? hne, htext]

/-- A full run that fails stops at the first planned module that fails alone. -/
theorem units_nil_eq_error (hn : c.naming.validate = .ok ()) (ht : t.names.Nodup) {before after : List Module}
    {m : Module} {e : WrapperError} (hms : t.modules = before ++ m :: after) (hm : c.attempt provenance m = .error e)
    (hb : ∀ m' ∈ before, ∃ u, c.attempt provenance m' = .ok u) :
    c.units t [] provenance = .error (.wrapper e) ∧ c.units t [m.name] provenance = .error (.wrapper e) ∧
      ∀ m' ∈ before, (c.plan.convention? m'.name).isSome → ∃ us, c.units t [m'.name] provenance = .ok us := by
  have hmem : m ∈ t.modules := by simp [hms]
  refine ⟨?_, units_single_error hn ht hmem (planned_of_attempt_eq_error hm) hm, fun m' hm' hp => ?_⟩
  · rw [units_nil hn, hms]
    exact unitsOf_eq_error hb hm
  · exact units_single_ok hn ht (by simp [hms, hm']) hp (hb m' hm')

theorem validate_of_parse {text : String} (h : parse text = .ok c) : c.naming.validate = .ok () := by
  unfold parse at h
  split at h
  · next stated _ =>
    unfold ofStated at h
    cases hs : stated.source.source with
    | error e =>
      rw [hs] at h
      cases h
    | ok source =>
      cases hv : stated.naming.validate with
      | error e =>
        rw [hs, hv] at h
        cases h
      | ok _ =>
        rw [hs, hv] at h
        cases h
        exact hv
  · cases h

/-- **Selected runs agree with the full run.** A full run succeeds just when the run for each planned module does. If it
succeeds, a selection of its units, whatever its order and repetitions, gives just these units in the order of the full
run. If it fails, its failure is that of the first planned module that fails alone. -/
theorem units_selected_agree {text : String} (hc : parse text = .ok c) (ht : t.Built) (provenance : Provenance) :
    ((∃ us, c.units t [] provenance = .ok us) ↔
        ∀ m ∈ t.modules, (c.plan.convention? m.name).isSome → ∃ us, c.units t [m.name] provenance = .ok us) ∧
      (∀ us, c.units t [] provenance = .ok us →
        ∀ selected, selected ≠ [] → (∀ name ∈ selected, name ∈ us.map (·.moduleName)) →
          c.units t selected provenance = .ok (us.filter fun u => u.moduleName ∈ selected)) ∧
      ∀ e, c.units t [] provenance = .error e →
        ∃ before m after, t.modules = before ++ m :: after ∧ (c.plan.convention? m.name).isSome ∧
          c.units t [m.name] provenance = .error e ∧
          ∀ m' ∈ before, (c.plan.convention? m'.name).isSome → ∃ us, c.units t [m'.name] provenance = .ok us := by
  have hn := validate_of_parse hc
  have hnames := ht.nodup_names
  rcases forall_ok_or_first_error (c.attempt provenance) t.modules with hall | ⟨before, m, after, e, hms, hm, hb⟩
  · refine ⟨⟨fun _ m hm hp => units_single_ok hn hnames hm hp (hall m hm), fun _ => ⟨_, units_nil_eq_ok hn hall⟩⟩, ?_, ?_⟩
    · intro us hus selected hne hsel
      exact units_of_selected hn hall hus hne hsel
    · intro e he
      rw [units_nil_eq_ok hn hall] at he
      cases he
  · obtain ⟨hfull, hsingle, hbefore⟩ := units_nil_eq_error hn hnames hms hm hb
    refine ⟨⟨?_, fun h => ?_⟩, ?_, ?_⟩
    · rintro ⟨us, hus⟩
      rw [hfull] at hus
      cases hus
    · obtain ⟨us, hus⟩ := h m (by simp [hms]) (planned_of_attempt_eq_error hm)
      rw [hsingle] at hus
      cases hus
    · intro us hus
      rw [hfull] at hus
      cases hus
    · intro e' he'
      rw [hfull] at he'
      cases he'
      exact ⟨before, m, after, hms, planned_of_attempt_eq_error hm, hsingle, hbefore⟩

/-- Two modules, and between them a section in whose place the unit that is written by hand is made. -/
def drawingTable : Table :=
  .ofList [
    ({ publicName := "circle", rawName := "p_circle", moduleName := "shapes" } : Descriptor).arg "r" "tfloat",
    ({ publicName := "text", rawName := "p_text", moduleName := "text" } : Descriptor).arg "s" "char*",
    ({ publicName := "union", rawName := "p_union", moduleName := "csg" } : Descriptor).arg "a" "libfive_tree"]

def drawingText : String := "[source]\nheader=\"f\"\n[modules]\ncsg=\"receiver\"\nshapes=\"free\"\n"

def drawingConfig : Config where
  source := .header "f"
  modules := ⟨[("csg", .receiver), ("shapes", .free)], by decide⟩

theorem parse_drawingText : parse drawingText = .ok drawingConfig := by decide +kernel

/-- A selection in another order than the table's, with a repetition and the unit that is written by hand. -/
theorem units_selected_agree_drawing :
    parse drawingText = .ok drawingConfig ∧ drawingTable.Built ∧
      ∃ us, drawingConfig.units drawingTable [] ⟨"now", "me"⟩ = .ok us ∧
        us.map (·.moduleName) = ["shapes", "csg", "text"] ∧
        drawingConfig.units drawingTable ["text", "csg", "text"] ⟨"now", "me"⟩ =
          .ok (us.filter fun u => u.moduleName ∈ ["text", "csg", "text"]) := by
  have hparse := parse_drawingText
  have hbuilt : drawingTable.Built := Table.built_ofList _
  have hmap : (drawingConfig.units drawingTable [] ⟨"now", "me"⟩).toOption.map (·.map (·.moduleName)) =
      some ["shapes", "csg", "text"] := by decide +kernel
  cases hus : drawingConfig.units drawingTable [] ⟨"now", "me"⟩ with
  | error e =>
    rw [hus] at hmap
    cases hmap
  | ok us =>
    rw [hus] at hmap
    have hnames : us.map (·.moduleName) = ["shapes", "csg", "text"] := Option.some.inj hmap
    refine ⟨hparse, hbuilt, us, rfl, hnames, ?_⟩
    refine (units_selected_agree hparse hbuilt ⟨"now", "me"⟩).2.1 us hus _ (List.cons_ne_nil _ _) ?_
    rw [hnames]
    decide

end Config

end ShapeBindings
