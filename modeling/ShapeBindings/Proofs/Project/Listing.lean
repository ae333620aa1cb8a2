import ShapeBindings.Proofs.Project.Index

/-!
# The listing and the full run

A listing goes through the table on its own, a full run through the plan, and the index takes the planned modules.  They
tell the same (`listing_agrees`): the entries with a convention and the one that is written by hand are those of the
units (`filter_isGenerated_listing`), the others are the modules that no unit is made of (`filter_skipped_listing`), and
no name comes twice.
-/

namespace ShapeBindings

/-! ### Entries -/

/-- Whether an entry tells of a unit. -/
def ListEntry.isGenerated (e : ListEntry) : Bool := e.convention.isSome || e.handWritten

/-- The entry that tells of a unit. -/
def SourceUnit.listEntry (u : SourceUnit) : ListEntry :=
  ⟨u.moduleName, u.functionCount, u.convention, u.convention.isNone⟩

/-- The entry of a module that is skipped. -/
def Module.skippedEntry (m : Module) : ListEntry := ⟨m.name, m.size, none, false⟩

theorem ListEntry.conventionText_eq_skipped_iff (e : ListEntry) :
    e.conventionText = "skipped" ↔ e.isGenerated = false := by
  obtain ⟨name, functions, convention, handWritten⟩ := e
  cases handWritten with
  | true => simp [conventionText, isGenerated]
  | false =>
    cases convention with
    | none => simp [conventionText, isGenerated]
    | some convention => cases convention <;> simp [conventionText, isGenerated, Convention.name]

namespace Config

variable {c : Config} {t : Table} {provenance : Provenance} {us : List SourceUnit}

/-- The entry of a module in the table. -/
def moduleEntry (c : Config) (m : Module) : ListEntry := ⟨m.name, m.size, c.plan.convention? m.name, false⟩

theorem listing_eq (c : Config) (t : Table) :
    c.listing t = (t.modules.filter fun m => !c.plan.isExcluded m.name).map c.moduleEntry ++
      if c.output.text then [⟨textModuleName, 1, none, true⟩] else [] := rfl

theorem filter_isGenerated_modules (ms : List Module) :
    ((ms.filter fun m => !c.plan.isExcluded m.name).map c.moduleEntry).filter (·.isGenerated) =
      (ms.filterMap fun m => (c.plan.convention? m.name).map (m, ·)).map
        fun q => ⟨q.1.name, q.1.size, some q.2, false⟩ := by
  induction ms with
  | nil => rfl
  | cons m ms ih =>
    cases hc : c.plan.convention? m.name with
    | none =>
      have hskipped : (c.moduleEntry m).isGenerated = false := by simp [moduleEntry, ListEntry.isGenerated, hc]
      rw [List.filterMap_cons_none (by simp [hc]), ← ih]
      cases he : c.plan.isExcluded m.name <;> simp [hskipped, he]
    | some convention =>
      have hkept : c.plan.isExcluded m.name = false := by
        rw [← Bool.not_eq_true]
        intro hexcluded
        simp [Plan.convention?_of_isExcluded hexcluded] at hc
      have hentry : c.moduleEntry m = ⟨m.name, m.size, some convention, false⟩ := by rw [moduleEntry, hc]
      rw [List.filterMap_cons_some (by rw [hc, Option.map_some]), List.map_cons, ← ih]
      simp [hkept, hentry, ListEntry.isGenerated]

theorem filter_skipped_modules (ms : List Module) :
    ((ms.filter fun m => !c.plan.isExcluded m.name).map c.moduleEntry).filter (!·.isGenerated) =
      (ms.filter fun m => (c.plan.convention? m.name).isNone && !c.plan.isExcluded m.name).map Module.skippedEntry := by
  rw [List.filter_map, List.filter_filter]
  have hfilter : (ms.filter fun m => ((!·.isGenerated) ∘ c.moduleEntry) m && !c.plan.isExcluded m.name) =
      ms.filter fun m => (c.plan.convention? m.name).isNone && !c.plan.isExcluded m.name := by
    refine List.filter_congr fun m _ => ?_
    simp [moduleEntry, ListEntry.isGenerated]
  rw [hfilter]
  refine List.map_congr_left fun m hm => ?_
  have hnone : c.plan.convention? m.name = none := by
    simpa using (Bool.and_eq_true_iff.1 (List.mem_filter.1 hm).2).1
  rw [moduleEntry, hnone, Module.skippedEntry]

/-! ### Runs -/

theorem map_moduleName_units (hn : c.naming.validate = .ok ()) (h : c.units t [] provenance = .ok us) :
    us.map (·.moduleName) = c.plannedModules t := by
  rw [names_of_units hn h]
  exact List.filter_eq_self.2 fun _ _ => rfl

/-- The entries that tell of units are those of the units of a full run. -/
theorem filter_isGenerated_listing (hn : c.naming.validate = .ok ()) (h : c.units t [] provenance = .ok us) :
    (c.listing t).filter (·.isGenerated) = us.map (·.listEntry) := by
  obtain ⟨made, hmade, rfl⟩ := exists_units_planned hn h
  have htable : made.map (·.listEntry) = (c.planned t).map fun q => ⟨q.1.name, q.1.size, some q.2, false⟩ := by
    rw [← List.forall₂_eq_eq_eq, List.forall₂_map_left_iff, List.forall₂_map_right_iff]
    refine hmade.flip.imp ?_
    intro u q hu
    obtain ⟨source, -, rfl⟩ := exists_of_map_eq_ok hu
    rfl
  have htext : (if c.output.text then [(⟨textModuleName, 1, none, true⟩ : ListEntry)] else []).filter (·.isGenerated) =
      (if c.output.text then [textUnit (c.unitOptions provenance)] else []).map (·.listEntry) := by
    cases c.output.text <;> rfl
  rw [listing_eq, List.filter_append, filter_isGenerated_modules, List.map_append, htext, htable]
  rfl

/-- The other entries are those of the modules that no unit is made of and none takes the place of. -/
theorem filter_skipped_listing (c : Config) (t : Table) :
    (c.listing t).filter (!·.isGenerated) =
      (t.modules.filter fun m => m.name ∉ c.plannedModules t ∧ ¬ (c.output.text = true ∧ m.name = textModuleName)).map
        Module.skippedEntry := by
  have htext : (if c.output.text then [(⟨textModuleName, 1, none, true⟩ : ListEntry)] else []).filter
      (!·.isGenerated) = [] := by
    cases c.output.text <;> rfl
  rw [listing_eq, List.filter_append, filter_skipped_modules, htext, List.append_nil]
  congr 1
  refine List.filter_congr fun m hm => ?_
  have hthere : m.name ∈ t.modules.map (·.name) := List.mem_map_of_mem hm
  rw [isExcluded_plan, Bool.eq_iff_iff, decide_eq_true_eq]
  by_cases hsuperseded : c.output.text = true ∧ m.name = textModuleName
  · simp [hsuperseded]
  · have hnot : m.name ∉ (if c.output.text then [textModuleName] else []) := by
      intro hmem
      split at hmem
      · next hon => exact hsuperseded ⟨hon, List.mem_singleton.1 hmem⟩
      · simp at hmem
    have hplanned : m.name ∈ c.plannedModules t ↔ (c.plan.convention? m.name).isSome = true := by
      rw [plannedModules, List.mem_append, or_iff_left hnot, List.mem_filter, and_iff_right hthere]
    have hexcluded : (c.output.text && m.name == textModuleName) = false := by simpa using hsuperseded
    rw [hplanned, hexcluded]
    simp [hsuperseded]

theorem nodup_listing (ht : t.names.Nodup) (c : Config) : ((c.listing t).map (·.name)).Nodup := by
  have hmodules : ((t.modules.filter fun m => !c.plan.isExcluded m.name).map (·.name)).Nodup :=
    ht.sublist (List.filter_sublist.map _)
  rw [listing_eq, List.map_append, List.map_map]
  refine List.nodup_append.2 ⟨hmodules, by split <;> simp, ?_⟩
  intro name hname other hother
  rintro rfl
  -- the module that is written by hand is left out of the table
  obtain ⟨m, hm, rfl⟩ := List.mem_map.1 hname
  have hkept := (List.mem_filter.1 hm).2
  rw [isExcluded_plan] at hkept
  split at hother
  · next htext =>
    have heq : m.name = textModuleName := by simpa [moduleEntry] using hother
    simp [htext, heq] at hkept
  · simp at hother

/-- **The listing, the units and the index agree.**  Where a full run succeeds, the planned modules are those of its
units; the entries of the listing with a convention, or written by hand, are the entries of the units; the others, which
are shown as skipped, are the modules of the table that get no unit and that the unit written by hand does not take the
place of.  No name comes twice in the listing, in the units or among the planned modules, and if names are identifiers
the index declares the modules of the units. -/
theorem listing_agrees {text : String} (hc : parse text = .ok c) (ht : t.Built)
    (h : c.units t [] provenance = .ok us) :
    c.plannedModules t = us.map (·.moduleName) ∧
      (c.listing t).filter (·.isGenerated) = us.map (·.listEntry) ∧
      (c.listing t).filter (!·.isGenerated) =
        (t.modules.filter fun m =>
          m.name ∉ us.map (·.moduleName) ∧ ¬ (c.output.text = true ∧ m.name = textModuleName)).map
            Module.skippedEntry ∧
      (∀ e ∈ c.listing t, e.conventionText = "skipped" ↔ e.isGenerated = false) ∧
      ((c.listing t).map (·.name)).Nodup ∧ (us.map (·.moduleName)).Nodup ∧ (c.plannedModules t).Nodup ∧
      ((∀ name ∈ t.names, isIdentifier name = true) →
        declaredModules (renderIndex (c.plannedModules t)) = us.map (·.moduleName)) := by
  have hn := validate_of_parse hc
  have hnames := map_moduleName_units hn h
  have hnodup := nodup_plannedModules ht.nodup_names c
  rw [hnames]
  refine ⟨rfl, filter_isGenerated_listing hn h, filter_skipped_listing c t, fun e _ => e.conventionText_eq_skipped_iff,
    nodup_listing ht.nodup_names c, hnodup, hnodup, fun hidentifier => ?_⟩
  exact declaredModules_renderIndex fun name => isIdentifier_of_mem_plannedModules ⟨ht, hidentifier⟩

/-- A section that is skipped, one in whose place the unit that is written by hand is made, and two with a
convention. -/
def skippingTable : Table :=
  .ofList [
    ⟨"circle", "p_circle", "shapes", [], none⟩,
    ⟨"text", "p_text", "text", [], none⟩,
    ⟨"array", "p_array", "generators", [], none⟩,
    ⟨"union", "p_union", "csg", [⟨"a", "libfive_tree", 0⟩], none⟩]

theorem listing_agrees_skipping :
    parse drawingText = .ok drawingConfig ∧ skippingTable.Built ∧
      ∃ us, drawingConfig.units skippingTable [] ⟨"now", "me"⟩ = .ok us ∧
        us.map (·.listEntry) =
          [⟨"shapes", 1, some .free, false⟩, ⟨"csg", 1, some .receiver, false⟩, ⟨"text", 1, none, true⟩] ∧
        (drawingConfig.listing skippingTable).filter (!·.isGenerated) = [⟨"generators", 1, none, false⟩] ∧
        declaredModules (renderIndex (drawingConfig.plannedModules skippingTable)) = ["shapes", "csg", "text"] := by
  have hparse := parse_drawingText
  have hbuilt : skippingTable.Built := Table.built_ofList _
  have hok : (drawingConfig.units skippingTable [] ⟨"now", "me"⟩).toOption.isSome = true := by decide +kernel
  obtain ⟨us, hus⟩ := exists_of_isSome_toOption hok
  obtain ⟨hplanned, hgenerated, -, -, -, -, -, hindex⟩ := listing_agrees hparse hbuilt hus
  refine ⟨hparse, hbuilt, us, hus, hgenerated.symm.trans (by decide +kernel), by decide +kernel, ?_⟩
  rw [hindex (by decide +kernel), ← hplanned]
  decide +kernel

end Config

end ShapeBindings
