import Mathlib.Data.List.Nodup
import ShapeBindings.Proofs.Project.Names
import ShapeBindings.Proofs.Project.Outputs
import ShapeBindings.Proofs.Text.Writing

/-!
# Outputs that share a file

No two units of a run share a file, but the index has the file that the unit of a module named `mod` would have, and is
written after it.  `units_in_place_iff` is what a run that succeeds leaves in the files: the index, and each unit that
the index does not replace.
-/

namespace ShapeBindings

open FileTree Machine Text

/-! ### What is found in a file -/

namespace Output

variable {dir : Path} {workingDir : Location} {o o' : Output} {os : List Output}

theorem target_eq (h : IsFileName o.name) : o.target dir workingDir = dir.location workingDir ++ [o.name] :=
  Path.location_join h workingDir dir

theorem target_eq_target_iff (h : IsFileName o.name) (h' : IsFileName o'.name) :
    o.target dir workingDir = o'.target dir workingDir ↔ o.name = o'.name := by
  rw [target_eq h, target_eq h', List.append_right_inj, List.singleton_inj]

/-- Outputs of different names do not replace each other. -/
theorem lastAt?_of_nodup (hn : (os.map (·.name)).Nodup) (hf : ∀ o ∈ os, IsFileName o.name) (ho : o ∈ os) :
    lastAt? dir workingDir os (o.target dir workingDir) = some o := by
  cases hlast : lastAt? dir workingDir os (o.target dir workingDir) with
  | none => simpa using List.find?_eq_none.1 hlast o (List.mem_reverse.2 ho)
  | some o' =>
    have ho' : o' ∈ os := List.mem_reverse.1 (List.mem_of_find?_eq_some hlast)
    have htarget : o'.target dir workingDir = o.target dir workingDir := by simpa using List.find?_some hlast
    have hname := (target_eq_target_iff (hf o' ho') (hf o ho)).1 htarget
    rw [List.inj_on_of_nodup_map hn ho' ho hname]

end Output

theorem Wrote.read_eq {dir : Path} {os : List Output} {m m' : Machine} {o o' : Output} (h : Wrote dir os m m')
    (ho : o ∈ os) (hlast : Output.lastAt? dir m.workingDir os (o.target dir m.workingDir) = some o') :
    m'.read (dir.join o.name) = .ok (encode o'.text) := by
  have hat := h.at? (o.target dir m.workingDir)
  rw [hlast, ← h.workingDir] at hat
  unfold Machine.read
  rw [h.resolve o ho]
  dsimp only [bind, Except.bind]
  rw [hat]
  rfl

/-! ### Units and the index -/

theorem SourceUnit.fileName_eq_indexFileName_iff {u : SourceUnit} : u.fileName = indexFileName ↔ u.moduleName = "mod" := by
  have hindex : indexFileName = "mod" ++ ".rs" := rfl
  rw [hindex]
  exact String.append_left_inj ".rs"

theorem isFileName_indexFileName : IsFileName indexFileName := by
  refine ⟨?_, ?_, ?_, ?_⟩ <;> decide

/-- A text that starts with the banner of a module is no index. -/
theorem banner_ne_renderIndex (name : String) (origin : Origin) (provenance : Provenance) (ls modules : List String) :
    unlines (bannerLines name origin provenance ++ ls) ≠ renderIndex modules := by
  intro h
  -- the second line of a banner starts with another letter than that of an index
  have hbanner : "//\n// R".toList <+: (unlines (bannerLines name origin provenance ++ ls)).toList := by
    rw [bannerLines, List.cons_append, List.cons_append, toList_unlines_cons, toList_unlines_cons,
      String.toList_append, String.toList_append]
    exact ⟨_, rfl⟩
  have hindex : "//\n// M".toList <+: (renderIndex modules).toList := by
    rw [renderIndex, List.cons_append, List.cons_append, toList_unlines_cons, toList_unlines_cons]
    exact ⟨_, rfl⟩
  rw [h] at hbanner
  exact absurd ((List.prefix_of_prefix_length_le hbanner hindex (by decide)).eq_of_length (by decide)) (by decide)

theorem Module.unitLines_eq (m : Module) (convention : Convention) (options : UnitOptions)
    (wrappers : List (List String)) :
    m.unitLines convention options wrappers =
      bannerLines m.name (.table options.source) options.provenance ++
        (importLines options.importRoot (m.imports convention) ++
          (["", headingLine m.name, s!"impl {treeType} \x7b"] ++ (wrappers.flatMap ("" :: ·) ++ ["\x7d"]))) := by
  rw [unitLines, List.append_assoc, List.append_assoc, List.append_assoc]

theorem Module.source_of_unit {m : Module} {convention : Convention} {options : UnitOptions} {u : SourceUnit}
    (h : m.unit convention options = .ok u) :
    ∃ ls, u.source = unlines (bannerLines m.name (.table options.source) options.provenance ++ ls) := by
  obtain ⟨source, hsource, rfl⟩ := exists_of_map_eq_ok h
  unfold assemble at hsource
  obtain ⟨wrappers, -, hsource⟩ := exists_of_bind_eq_ok hsource
  cases hsource
  dsimp only
  rw [unitLines_eq]
  exact ⟨_, rfl⟩

theorem source_textUnit (options : UnitOptions) :
    ∃ ls, (textUnit options).source = unlines (bannerLines textModuleName .template options.provenance ++ ls) := by
  refine ⟨importLines options.importRoot ["sys", treeType, "TreeVec2"] ++ "" :: textModuleLines, ?_⟩
  rw [textUnit, ← List.append_assoc]

namespace Config

variable {c : Config} {base : Path} {r : GenerateRequest} {t : Table} {selected : List String}
  {provenance : Provenance} {us : List SourceUnit} {u : SourceUnit} {m : Machine}

theorem source_ne_renderIndex (hn : c.naming.validate = .ok ()) (h : c.units t selected provenance = .ok us) (hu : u ∈ us)
    (modules : List String) : u.source ≠ renderIndex modules := by
  obtain ⟨-, rfl⟩ := units_eq_of_ok hn h
  rcases List.mem_append.1 hu with hu | hu
  · obtain ⟨mod, -, hmod⟩ := List.mem_filterMap.1 hu
    obtain ⟨convention, -, hunit⟩ := unitOf?_eq_some_iff.1 hmod
    obtain ⟨ls, hsource⟩ := Module.source_of_unit hunit
    rw [hsource]
    exact banner_ne_renderIndex _ _ _ ls modules
  · split at hu
    · obtain rfl := List.mem_singleton.1 hu
      obtain ⟨ls, hsource⟩ := source_textUnit (c.unitOptions provenance)
      rw [hsource]
      exact banner_ne_renderIndex _ _ _ ls modules
    · simp at hu

theorem nodup_fileName (hn : c.naming.validate = .ok ()) (ht : t.WellNamed) (h : c.units t selected provenance = .ok us) :
    (us.map (·.fileName)).Nodup := by
  have hnames : (us.map (·.moduleName)).Nodup := by
    rw [names_of_units hn h]
    exact (nodup_plannedModules ht.built.nodup_names c).filter _
  have hmap : us.map (·.fileName) = (us.map (·.moduleName)).map (· ++ ".rs") := by
    rw [List.map_map]
    rfl
  rw [hmap]
  exact List.Nodup.map (fun name other => (String.append_left_inj ".rs").1) hnames

theorem isFileName_fileName (hn : c.naming.validate = .ok ()) (ht : t.WellNamed)
    (h : c.units t selected provenance = .ok us) (hu : u ∈ us) : IsFileName u.fileName := by
  have hname : u.moduleName ∈ us.map (·.moduleName) := List.mem_map_of_mem hu
  rw [names_of_units hn h] at hname
  exact isFileName_of_isIdentifier (isIdentifier_of_mem_plannedModules ht (List.mem_filter.1 hname).1)

section

variable {dir : Path} {workingDir : Location} {m' : Machine} (hn : c.naming.validate = .ok ()) (ht : t.WellNamed)
  (hus : c.units t selected provenance = .ok us)
include hn ht hus

/-- The file of a unit is last written by the unit, unless it is the file of the index. -/
theorem lastAt?_outputs (hu : u ∈ us) :
    Output.lastAt? dir workingDir (c.outputs t us) (u.output.target dir workingDir) =
      some (if c.output.index = true ∧ u.moduleName = "mod" then c.indexOutput t else u.output) := by
  have hunit : Output.lastAt? dir workingDir (us.map (·.output)) (u.output.target dir workingDir) = some u.output := by
    refine Output.lastAt?_of_nodup ?_ (fun o ho => ?_) (List.mem_map_of_mem hu)
    · rw [List.map_map]
      exact nodup_fileName hn ht hus
    · obtain ⟨u', hu', rfl⟩ := List.mem_map.1 ho
      exact isFileName_fileName hn ht hus hu'
  have hplace : u.output.target dir workingDir = (c.indexOutput t).target dir workingDir ↔ u.moduleName = "mod" := by
    have hname : IsFileName u.output.name := isFileName_fileName hn ht hus hu
    have hindex : IsFileName (c.indexOutput t).name := isFileName_indexFileName
    rw [Output.target_eq_target_iff hname hindex]
    exact SourceUnit.fileName_eq_indexFileName_iff
  rw [outputs, Output.lastAt?_append, hunit]
  -- the index is written after the units, so it is the last in its place
  cases c.output.index with
  | false => simp [Output.lastAt?]
  | true =>
    simp only [if_true, true_and, Output.lastAt?_singleton, hplace]
    split <;> rfl

theorem read_unit (h : Wrote dir (c.outputs t us) m m') (hu : u ∈ us) :
    m'.read (dir.join u.fileName) = .ok (encode
      (if c.output.index = true ∧ u.moduleName = "mod" then renderIndex (c.plannedModules t) else u.source)) := by
  have hmem : u.output ∈ c.outputs t us := List.mem_append_left _ (List.mem_map_of_mem hu)
  have hread := h.read_eq hmem (lastAt?_outputs hn ht hus hu)
  rw [apply_ite Output.text] at hread
  exact hread

theorem read_unit_iff (h : Wrote dir (c.outputs t us) m m') (hu : u ∈ us) :
    m'.read (dir.join u.fileName) = .ok (encode u.source) ↔ ¬ (c.output.index = true ∧ u.moduleName = "mod") := by
  rw [read_unit hn ht hus h hu]
  split
  · next hmod =>
    simp only [hmod, and_self, not_true, iff_false]
    intro heq
    exact source_ne_renderIndex hn hus hu _ (encode_injective (Except.ok.inj heq)).symm
  · next hmod => simp [hmod]

end

theorem read_index {dir : Path} {m' : Machine} (hindex : c.output.index = true) (h : Wrote dir (c.outputs t us) m m') :
    m'.read (dir.join indexFileName) = .ok (encode (renderIndex (c.plannedModules t))) := by
  have houtputs : c.outputs t us = us.map (·.output) ++ [c.indexOutput t] := by rw [outputs, if_pos hindex]
  rw [houtputs] at h
  have hlast : Output.lastAt? dir m.workingDir (us.map (·.output) ++ [c.indexOutput t])
      ((c.indexOutput t).target dir m.workingDir) = some (c.indexOutput t) := by
    rw [Output.lastAt?_append, Output.lastAt?_singleton, if_pos rfl]
    rfl
  have hread := h.read_eq (List.mem_append_right _ (List.mem_singleton_self _)) hlast
  exact hread

/-- **The units and the index of a run are in place, but for a unit whose file is the index.** After a run that succeeds
and has something to write, the files of the units differ, the index is in its file if it is wanted, and a unit is in
its file unless the index is wanted and the unit's module is named `mod`. -/
theorem units_in_place_iff {text : String} (hc : parse text = .ok c) (ht : ((c.loadTable base).outcome m).1 = .ok t)
    (hus : c.units t r.selected provenance = .ok us) (hne : us ≠ []) (hdry : r.dryRun = false)
    (h : ((generate c base r provenance).outcome m).1 = .ok ()) :
    let dir := c.outputDir base r.output
    let m' := ((generate c base r provenance).outcome m).2
    (us.map (·.fileName)).Nodup ∧
      (c.output.index = true → m'.read (dir.join indexFileName) = .ok (encode (renderIndex (c.plannedModules t)))) ∧
      ∀ u ∈ us, m'.read (dir.join u.fileName) = .ok (encode u.source) ↔
        ¬ (c.output.index = true ∧ u.moduleName = "mod") := by
  intro dir m'
  have hn := validate_of_parse hc
  have hwell : t.WellNamed := wellNamed_of_loadTable (ht ▸ Job.ends_outcome (c.loadTable base) m)
  obtain ⟨m₁, -, hwrote⟩ := wrote_outputs ht hus hne hdry h
  exact ⟨nodup_fileName hn hwell hus, fun hindex => read_index hindex hwrote,
    fun u hu => read_unit_iff hn hwell hus hwrote hu⟩

def indexedText : String := "[source]\nheader=\"h\"\n[output]\nindex=true\ndefault-convention=\"free\"\n"

def indexedConfig : Config where
  source := .header "h"
  output := { index := true, defaultConvention := some .free }

/-- A machine with a header that has a section named as the index. -/
def modMachine : Machine where
  tree := ⟨[(["h"], .file (encode "LIBFIVE_SECTION(mod)\nLIBFIVE_STDLIB f();\n"))]⟩

def modTable : Table := ⟨[⟨"mod", [⟨"f", "libfivestd_f", "mod", [], none⟩]⟩]⟩

theorem parse_indexedText : parse indexedText = .ok indexedConfig := by decide +kernel

theorem loadTable_modMachine : ((indexedConfig.loadTable ⟨"/"⟩).outcome modMachine).1 = .ok modTable := by
  decide +kernel

theorem generate_modMachine : ((generate indexedConfig ⟨"/"⟩ {} ⟨"now", "me"⟩).outcome modMachine).1 = .ok () := by
  decide +kernel

theorem exists_units_modTable :
    ∃ us, indexedConfig.units modTable [] ⟨"now", "me"⟩ = .ok us ∧ us.map (·.moduleName) = ["mod", "text"] := by
  have hmap : (indexedConfig.units modTable [] ⟨"now", "me"⟩).toOption.map (·.map (·.moduleName)) =
      some ["mod", "text"] := by decide +kernel
  exact exists_of_toOption_map_eq_some hmap

theorem units_in_place_iff_mod :
    ∃ us : List SourceUnit, us.map (·.moduleName) = ["mod", "text"] ∧
      let m' := ((generate indexedConfig ⟨"/"⟩ {} ⟨"now", "me"⟩).outcome modMachine).2
      ∀ u ∈ us, m'.read (Path.join ⟨"/generated"⟩ u.fileName) = .ok (encode u.source) ↔ ¬ u.moduleName = "mod" := by
  obtain ⟨us, hus, hnames⟩ := exists_units_modTable
  have hne : us ≠ [] := by
    rintro rfl
    cases hnames
  have hplace := (units_in_place_iff parse_indexedText loadTable_modMachine hus hne rfl generate_modMachine).2.2
  refine ⟨us, hnames, fun u hu => (hplace u hu).trans ?_⟩
  simp [indexedConfig]

/-- The unit of a module named `mod` is lost in a run that succeeds with an index. -/
theorem unit_named_mod_is_lost :
    parse indexedText = .ok indexedConfig ∧ ((indexedConfig.loadTable ⟨"/"⟩).outcome modMachine).1 = .ok modTable ∧
      ((generate indexedConfig ⟨"/"⟩ {} ⟨"now", "me"⟩).outcome modMachine).1 = .ok () ∧
      ∃ us, indexedConfig.units modTable [] ⟨"now", "me"⟩ = .ok us ∧
        ∃ u ∈ us, (((generate indexedConfig ⟨"/"⟩ {} ⟨"now", "me"⟩).outcome modMachine).2).read
          (Path.join ⟨"/generated"⟩ u.fileName) ≠ .ok (encode u.source) := by
  refine ⟨parse_indexedText, loadTable_modMachine, generate_modMachine, ?_⟩
  obtain ⟨us, hus, hnames⟩ := exists_units_modTable
  obtain ⟨u, us', rfl⟩ : ∃ u us', us = u :: us' := List.exists_cons_of_ne_nil (by rintro rfl; cases hnames)
  have hmod : u.moduleName = "mod" := (List.cons.inj hnames).1
  refine ⟨_, hus, u, List.mem_cons_self, fun hread => ?_⟩
  have hwell : modTable.WellNamed := wellNamed_of_loadTable (loadTable_modMachine ▸ Job.ends_outcome _ _)
  obtain ⟨m₁, -, hwrote⟩ := wrote_outputs loadTable_modMachine hus (List.cons_ne_nil _ _) rfl generate_modMachine
  exact (read_unit_iff (validate_of_parse parse_indexedText) hwell hus hwrote List.mem_cons_self).1 hread ⟨rfl, hmod⟩

end Config

end ShapeBindings
