import ShapeBindings.Proofs.Project.Overwriting

/-!
# The index and the directory

The index declares the modules of the plan, whatever a run is for (`declaredModules_renderIndex`), while a run writes the
files of the modules that it is for.  After any runs for one table the index and the files are therefore as
`index_of_runs` has it: a file is there for each module that is declared and that some run was for.
-/

namespace ShapeBindings

open FileTree Machine Text

/-! ### What an index declares -/

/-- The module that a line of an index declares, if it declares one. -/
def declaredModule? (line : List Char) : Option String :=
  (after? "pub mod ".toList line).bind fun rest =>
    if rest.getLast? = some ';' then some (String.ofList rest.dropLast) else none

/-- The modules that an index declares, in order. -/
def declaredModules (index : String) : List String := (lines index.toList).filterMap declaredModule?

theorem toList_declaration (name : String) :
    (s!"pub mod {name};").toList = "pub mod ".toList ++ (name.toList ++ [';']) := by
  simp [toString]

theorem declaredModule?_declaration (name : String) : declaredModule? (s!"pub mod {name};").toList = some name := by
  rw [declaredModule?, toList_declaration, after?_append, Option.bind_some, List.getLast?_concat, if_pos rfl,
    List.dropLast_concat, String.ofList_toList]

theorem declaration_isLine {name : String} (h : isIdentifier name = true) :
    '\n' ∉ (s!"pub mod {name};").toList ∧ (s!"pub mod {name};").toList.getLast? ≠ some '\r' := by
  have hname : '\n' ∉ name.toList := not_mem_of_isIdentifier h (by decide)
  rw [toList_declaration, List.mem_append, List.mem_append, ← List.append_assoc, List.getLast?_concat]
  exact ⟨by simp [hname], by decide⟩

/-- The lines above the declarations of an index. -/
def indexHeading : List String :=
  ["//", "// Module index for the generated libfive stdlib bindings.", "//", "// DO NOT EDIT BY HAND!", "//", ""]

theorem renderIndex_eq (modules : List String) :
    renderIndex modules = unlines (indexHeading ++ modules.map fun name => s!"pub mod {name};") := rfl

theorem declaredModules_renderIndex {modules : List String} (h : ∀ name ∈ modules, isIdentifier name = true) :
    declaredModules (renderIndex modules) = modules := by
  have hlines : ∀ l ∈ indexHeading ++ modules.map (fun name => s!"pub mod {name};"),
      '\n' ∉ l.toList ∧ l.toList.getLast? ≠ some '\r' := by
    intro l hl
    rcases List.mem_append.1 hl with hl | hl
    · have hheading : ∀ l ∈ indexHeading, '\n' ∉ l.toList ∧ l.toList.getLast? ≠ some '\r' := by decide
      exact hheading l hl
    · obtain ⟨name, hname, rfl⟩ := List.mem_map.1 hl
      exact declaration_isLine (h name hname)
  have hheading : (indexHeading.map String.toList).filterMap declaredModule? = [] := by decide
  rw [declaredModules, renderIndex_eq, lines_unlines hlines, List.map_append, List.filterMap_append, hheading,
    List.nil_append, List.map_map, List.filterMap_map]
  refine (List.filterMap_congr fun name _ => ?_).trans List.filterMap_some
  exact declaredModule?_declaration name

/-! ### One run -/

def Machine.HoldsFile (m : Machine) (l : Location) : Prop := ∃ content, m.tree.at? l = some (.file content)

/-- The files in a directory after outputs are written to it: those that were there, and the outputs. -/
theorem Wrote.holdsFile_iff {dir : Path} {ps : List Path} {os : List Output} {m m₁ m' : Machine}
    (hgrown : GrownBy ps m m₁) (h : Wrote dir os m₁ m') (hf : ∀ o ∈ os, IsFileName o.name) (name : String) :
    m'.HoldsFile (dir.location m.workingDir ++ [name]) ↔
      m.HoldsFile (dir.location m.workingDir ++ [name]) ∨ ∃ o ∈ os, o.name = name := by
  generalize hl : dir.location m.workingDir ++ [name] = l
  have hplace : ∀ o ∈ os, o.target dir m.workingDir = l ↔ o.name = name := by
    intro o ho
    rw [Output.target_eq (hf o ho), ← hl, List.append_right_inj, List.singleton_inj]
  have hat := h.at? l
  rw [hgrown.workingDir] at hat
  cases hlast : Output.lastAt? dir m.workingDir os l with
  | none =>
    have hnone : ¬ ∃ o ∈ os, o.name = name := by
      rintro ⟨o, ho, hname⟩
      simpa [(hplace o ho).2 hname] using List.find?_eq_none.1 hlast o (List.mem_reverse.2 ho)
    rw [hlast, Option.map_none, Option.none_or] at hat
    rw [or_iff_left hnone, HoldsFile, HoldsFile, hat]
    -- a directory that was made for the outputs is no file
    rcases hgrown.at? l with hsame | ⟨hnew, hdir, -⟩
    · rw [hsame]
    · simp [hnew, hdir]
  | some o =>
    have ho : o ∈ os := List.mem_reverse.1 (List.mem_of_find?_eq_some hlast)
    have hname : o.name = name := (hplace o ho).1 (by simpa using List.find?_some hlast)
    rw [hlast] at hat
    exact iff_of_true ⟨_, hat⟩ (.inr ⟨o, ho, hname⟩)

namespace Config

variable {c : Config} {base : Path} {output : Option Path} {t : Table} {m m' : Machine}
  {selections : List (List String)}

section

variable {selected : List String} {provenance : Provenance} {us : List SourceUnit} (hn : c.naming.validate = .ok ())
  (hus : c.units t selected provenance = .ok us)
include hn hus

theorem isFileName_outputs (ht : t.WellNamed) {o : Output} (ho : o ∈ c.outputs t us) : IsFileName o.name := by
  rcases List.mem_append.1 ho with ho | ho
  · obtain ⟨u, hu, rfl⟩ := List.mem_map.1 ho
    exact isFileName_fileName hn ht hus hu
  · split at ho
    · rw [List.mem_singleton.1 ho]
      exact isFileName_indexFileName
    · simp at ho

theorem exists_output_iff {name : String} (hmod : name ≠ "mod") :
    (∃ o ∈ c.outputs t us, o.name = name ++ ".rs") ↔ name ∈ c.plannedModules t ∧ (selected = [] ∨ name ∈ selected) := by
  have hname : name ∈ c.plannedModules t ∧ (selected = [] ∨ name ∈ selected) ↔ ∃ u ∈ us, u.moduleName = name := by
    rw [← List.mem_map, names_of_units hn hus, List.mem_filter, Bool.or_eq_true, List.isEmpty_iff, decide_eq_true_eq]
  rw [hname]
  constructor
  · rintro ⟨o, ho, heq⟩
    rcases List.mem_append.1 ho with ho | ho
    · obtain ⟨u, hu, rfl⟩ := List.mem_map.1 ho
      exact ⟨u, hu, (String.append_left_inj ".rs").1 heq⟩
    · -- the index has the file of no other module
      split at ho
      · rw [List.mem_singleton.1 ho] at heq
        replace heq : "mod" ++ ".rs" = name ++ ".rs" := heq
        exact absurd ((String.append_left_inj ".rs").1 heq).symm hmod
      · simp at ho
  · rintro ⟨u, hu, rfl⟩
    exact ⟨u.output, List.mem_append_left _ (List.mem_map_of_mem hu), rfl⟩

end

/-- Runs one after the other for some selections, which load the same table, succeed and write something. -/
inductive Runs (c : Config) (base : Path) (output : Option Path) (t : Table) (m : Machine) :
    List (List String) → Machine → Prop
  | start : Runs c base output t m [] m
  | run {selections : List (List String)} {m₁ : Machine} {selected : List String} {provenance : Provenance}
      {us : List SourceUnit} (h : Runs c base output t m selections m₁)
      (ht : ((c.loadTable base).outcome m₁).1 = .ok t) (hus : c.units t selected provenance = .ok us) (hne : us ≠ [])
      (hok : ((generate c base { output, selected } provenance).outcome m₁).1 = .ok ()) :
      Runs c base output t m (selections ++ [selected]) ((generate c base { output, selected } provenance).outcome m₁).2

theorem Runs.workingDir_eq (h : Runs c base output t m selections m') : m'.workingDir = m.workingDir := by
  induction h with
  | start => rfl
  | run h ht hus hne hok ih =>
    obtain ⟨m₂, hgrown, hwrote⟩ := wrote_outputs ht hus hne rfl hok
    rw [hwrote.workingDir, hgrown.workingDir, ih]

/-- The files of modules after some runs: those that were there, and those of the planned modules that a run was for. -/
theorem Runs.holdsFile_iff (hn : c.naming.validate = .ok ()) (h : Runs c base output t m selections m') {name : String}
    (hmod : name ≠ "mod") :
    m'.HoldsFile ((c.outputDir base output).location m.workingDir ++ [name ++ ".rs"]) ↔
      m.HoldsFile ((c.outputDir base output).location m.workingDir ++ [name ++ ".rs"]) ∨
        name ∈ c.plannedModules t ∧ ∃ selected ∈ selections, selected = [] ∨ name ∈ selected := by
  induction h with
  | start => simp
  | @run selections m₁ selected provenance us h ht hus hne hok ih =>
    have hwell : t.WellNamed := wellNamed_of_loadTable (ht ▸ Job.ends_outcome (c.loadTable base) m₁)
    obtain ⟨m₂, hgrown, hwrote⟩ := wrote_outputs ht hus hne rfl hok
    have hrun := hwrote.holdsFile_iff hgrown (fun o => isFileName_outputs hn hus hwell) (name ++ ".rs")
    rw [h.workingDir_eq, exists_output_iff hn hus hmod] at hrun
    -- the files of this run's selection are added to those of the runs before
    rw [hrun, ih]
    simp only [List.mem_append, List.mem_singleton]
    grind

theorem Runs.wellNamed (h : Runs c base output t m selections m') (hruns : selections ≠ []) : t.WellNamed := by
  cases h with
  | start => exact absurd rfl hruns
  | @run _ m₁ _ _ _ _ ht => exact wellNamed_of_loadTable (ht ▸ Job.ends_outcome (c.loadTable base) m₁)

theorem Runs.read_index (hindex : c.output.index = true) (h : Runs c base output t m selections m')
    (hruns : selections ≠ []) :
    m'.read ((c.outputDir base output).join indexFileName) = .ok (encode (renderIndex (c.plannedModules t))) := by
  cases h with
  | start => exact absurd rfl hruns
  | run _ ht hus hne hok =>
    obtain ⟨m₂, -, hwrote⟩ := wrote_outputs ht hus hne rfl hok
    exact Config.read_index hindex hwrote

/-- **The index and the directory after some runs.** Let the directory be empty before some runs for one table, all with
an index.  Then the index declares no module twice, and of the modules that do not share its own file it declares those
that are planned, while the directory has the files of those that are declared and that a run was for, either by name
or as a run for all modules. -/
theorem index_of_runs {text : String} (hc : parse text = .ok c) (hindex : c.output.index = true)
    (hempty : ∀ name, m.tree.at? ((c.outputDir base output).location m.workingDir ++ [name]) = none)
    (hruns : selections ≠ []) (h : Runs c base output t m selections m') :
    ∃ index : String, m'.read ((c.outputDir base output).join indexFileName) = .ok (encode index) ∧
      (declaredModules index).Nodup ∧
      ∀ name, name ≠ "mod" →
        (name ∈ declaredModules index ↔ name ∈ c.plannedModules t) ∧
        (m'.HoldsFile ((c.outputDir base output).location m.workingDir ++ [name ++ ".rs"]) ↔
          name ∈ declaredModules index ∧ ∃ selected ∈ selections, selected = [] ∨ name ∈ selected) := by
  have hwell := h.wellNamed hruns
  have hdeclared : declaredModules (renderIndex (c.plannedModules t)) = c.plannedModules t :=
    declaredModules_renderIndex fun name => isIdentifier_of_mem_plannedModules hwell
  refine ⟨renderIndex (c.plannedModules t), h.read_index hindex hruns, ?_, fun name hmod => ?_⟩
  · rw [hdeclared]
    exact nodup_plannedModules hwell.built.nodup_names c
  · have hnone : ¬ m.HoldsFile ((c.outputDir base output).location m.workingDir ++ [name ++ ".rs"]) := by
      rintro ⟨content, hfile⟩
      rw [hempty] at hfile
      cases hfile
    rw [hdeclared, h.holdsFile_iff (validate_of_parse hc) hmod, or_iff_right hnone]
    exact ⟨Iff.rfl, Iff.rfl⟩

/-- A machine with a header that has two sections. -/
def sectionsMachine : Machine where
  tree := ⟨[(["h"], .file (encode "LIBFIVE_SECTION(a)\nLIBFIVE_SECTION(b)\n"))]⟩

def sectionsTable : Table := ⟨[⟨"a", []⟩, ⟨"b", []⟩]⟩

/-- A machine after a run for one module. -/
def runFor (name : String) (m : Machine) : Machine :=
  ((generate indexedConfig ⟨"/"⟩ { selected := [name] } ⟨"now", "me"⟩).outcome m).2

theorem Runs.runFor {selections : List (List String)} {m : Machine} (name : String)
    (h : Runs indexedConfig ⟨"/"⟩ none sectionsTable sectionsMachine selections m)
    (ht : ((indexedConfig.loadTable ⟨"/"⟩).outcome m).1 = .ok sectionsTable)
    (hus : (indexedConfig.units sectionsTable [name] ⟨"now", "me"⟩).toOption.map (·.map (·.moduleName)) = some [name])
    (hok : ((generate indexedConfig ⟨"/"⟩ { selected := [name] } ⟨"now", "me"⟩).outcome m).1 = .ok ()) :
    Runs indexedConfig ⟨"/"⟩ none sectionsTable sectionsMachine (selections ++ [[name]]) (Config.runFor name m) := by
  cases hunits : indexedConfig.units sectionsTable [name] ⟨"now", "me"⟩ with
  | error e =>
    rw [hunits] at hus
    cases hus
  | ok us =>
    rw [hunits] at hus
    refine h.run ht hunits ?_ hok
    rintro rfl
    cases hus

theorem runs_a : Runs indexedConfig ⟨"/"⟩ none sectionsTable sectionsMachine [["a"]] (runFor "a" sectionsMachine) :=
  Runs.start.runFor "a" (by decide +kernel) (by decide +kernel) (by decide +kernel)

theorem sectionsMachine_empty (name : String) :
    sectionsMachine.tree.at? ((indexedConfig.outputDir ⟨"/"⟩ none).location sectionsMachine.workingDir ++ [name]) =
      none := by
  have hloc : (indexedConfig.outputDir ⟨"/"⟩ none).location sectionsMachine.workingDir = ["generated"] := by decide
  rw [hloc]
  simp [FileTree.at?, sectionsMachine]

/-- Two runs, each for one module. -/
theorem index_of_runs_a_b :
    ∃ m' index, Runs indexedConfig ⟨"/"⟩ none sectionsTable sectionsMachine [["a"], ["b"]] m' ∧
      m'.read ((indexedConfig.outputDir ⟨"/"⟩ none).join indexFileName) = .ok (encode index) ∧
      (∀ name ∈ ["a", "b", "text"], name ∈ declaredModules index) ∧ m'.HoldsFile ["generated", "a.rs"] ∧
      m'.HoldsFile ["generated", "b.rs"] ∧ ¬ m'.HoldsFile ["generated", "text.rs"] := by
  have hruns := runs_a.runFor "b" (by decide +kernel) (by decide +kernel) (by decide +kernel)
  obtain ⟨index, hread, -, hfiles⟩ :=
    index_of_runs parse_indexedText rfl sectionsMachine_empty (List.cons_ne_nil _ _) hruns
  have hplanned : indexedConfig.plannedModules sectionsTable = ["a", "b", "text"] := by decide +kernel
  rw [hplanned] at hfiles
  obtain ⟨ha, hafile⟩ := hfiles "a" (by decide)
  obtain ⟨hb, hbfile⟩ := hfiles "b" (by decide)
  obtain ⟨htext, htextfile⟩ := hfiles "text" (by decide)
  have hdeclared : ∀ name ∈ ["a", "b", "text"], name ∈ declaredModules index := by
    simpa using ⟨ha.2 (by decide), hb.2 (by decide), htext.2 (by decide)⟩
  refine ⟨_, index, hruns, hread, hdeclared, ?_, ?_, fun h => ?_⟩
  · exact hafile.2 ⟨hdeclared "a" (by decide), by decide⟩
  · exact hbfile.2 ⟨hdeclared "b" (by decide), by decide⟩
  · exact absurd (htextfile.1 h).2 (by decide)

/-- After a run for one module the index declares a module that has no file. -/
theorem index_declares_missing :
    ∃ m' index, parse indexedText = .ok indexedConfig ∧
      (∀ name, sectionsMachine.tree.at?
        ((indexedConfig.outputDir ⟨"/"⟩ none).location sectionsMachine.workingDir ++ [name]) = none) ∧
      Runs indexedConfig ⟨"/"⟩ none sectionsTable sectionsMachine [["a"]] m' ∧
      m'.read ((indexedConfig.outputDir ⟨"/"⟩ none).join indexFileName) = .ok (encode index) ∧
      "b" ∈ declaredModules index ∧ ¬ m'.HoldsFile ["generated", "b.rs"] := by
  have hn := validate_of_parse parse_indexedText
  have hplanned : indexedConfig.plannedModules sectionsTable = ["a", "b", "text"] := by decide +kernel
  have hread := runs_a.read_index rfl (List.cons_ne_nil _ _)
  rw [hplanned] at hread
  refine ⟨_, _, parse_indexedText, sectionsMachine_empty, runs_a, hread, ?_, fun hfile => ?_⟩
  · rw [declaredModules_renderIndex (by decide)]
    decide
  · have hb : "b" ≠ "mod" := by decide
    rcases (runs_a.holdsFile_iff hn hb).1 hfile with ⟨content, hbefore⟩ | ⟨-, hselected⟩
    · rw [sectionsMachine_empty ("b" ++ ".rs")] at hbefore
      cases hbefore
    · exact absurd hselected (by decide)

end Config

end ShapeBindings
