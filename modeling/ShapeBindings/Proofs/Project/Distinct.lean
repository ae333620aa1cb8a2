import Mathlib.Data.List.Nodup
import ShapeBindings.Proofs.Project.Loaded
import ShapeBindings.Proofs.Unit.Declared

/-!
# Names that stay apart

Escaping keeps two identifiers apart, unless one of them is a keyword without a raw form and the other one is what it is
escaped to (`escapeKeyword_eq_iff`).  Renames make any two names one.  `distinct_names_iff` tells when the names of the
wrappers of a full run are distinct, and when those of the parameters of each wrapper are.
-/

namespace ShapeBindings

/-! ### Escaping -/

/-- Different names that are escaped to one: a keyword without a raw form, and the same with an underscore. -/
def Clash (a b : String) : Prop := a ∈ pathKeywords ∧ b = a ++ "_" ∨ b ∈ pathKeywords ∧ a = b ++ "_"

instance (a b : String) : Decidable (Clash a b) := inferInstanceAs (Decidable (_ ∨ _))

/-- A keyword without a raw form and the identifier it is escaped to are different and escaped alike. -/
theorem pathKeywords_checked : ∀ k ∈ pathKeywords,
    k ≠ k ++ "_" ∧ escapeKeyword k = escapeKeyword (k ++ "_") ∧ isIdentifier (k ++ "_") = true := by
  decide

theorem Clash.ne {a b : String} (h : Clash a b) : a ≠ b := by
  rcases h with ⟨ha, rfl⟩ | ⟨hb, rfl⟩
  · exact (pathKeywords_checked a ha).1
  · exact (pathKeywords_checked b hb).1.symm

theorem escapeKeyword_cases (name : String) :
    name ∈ pathKeywords ∧ escapeKeyword name = name ++ "_" ∨ escapeKeyword name = "r#" ++ name ∨
      escapeKeyword name = name := by
  unfold escapeKeyword
  split
  · next hpath => exact .inl ⟨hpath, rfl⟩
  · split
    · exact .inr (.inl rfl)
    · exact .inr (.inr rfl)

theorem raw_ne_identifier {name : String} (h : isIdentifier name = true) (other : String) : "r#" ++ other ≠ name := by
  rintro rfl
  exact not_mem_of_isIdentifier h (by decide : isIdentifierPart '#' = false) (by simp)

theorem escapeKeyword_of_clash {a b : String} (h : Clash a b) : escapeKeyword a = escapeKeyword b := by
  rcases h with ⟨ha, rfl⟩ | ⟨hb, rfl⟩
  · exact (pathKeywords_checked a ha).2.1
  · exact (pathKeywords_checked b hb).2.1.symm

theorem escapeKeyword_eq_iff {a b : String} (ha : isIdentifier a = true) (hb : isIdentifier b = true) :
    escapeKeyword a = escapeKeyword b ↔ a = b ∨ Clash a b := by
  have hpath : ∀ k ∈ pathKeywords, isIdentifier (k ++ "_") = true := fun k hk => (pathKeywords_checked k hk).2.2
  constructor
  · intro h
    rcases escapeKeyword_cases a with ⟨hpa, hea⟩ | hea | hea <;>
      rcases escapeKeyword_cases b with ⟨hpb, heb⟩ | heb | heb <;> rw [hea, heb] at h
    · exact .inl ((String.append_left_inj "_").1 h)
    · exact absurd h.symm (raw_ne_identifier (hpath a hpa) b)
    · exact .inr (.inl ⟨hpa, h.symm⟩)
    · exact absurd h (raw_ne_identifier (hpath b hpb) a)
    · exact .inl ((String.append_right_inj "r#").1 h)
    · exact absurd h (raw_ne_identifier hb a)
    · exact .inr (.inr ⟨hpb, h⟩)
    · exact absurd h.symm (raw_ne_identifier ha b)
    · exact .inl h
  · rintro (rfl | h)
    · rfl
    · exact escapeKeyword_of_clash h

theorem nodup_map_escapeKeyword_iff {names : List String} (hn : names.Nodup)
    (hidentifier : ∀ name ∈ names, isIdentifier name = true) :
    (names.map escapeKeyword).Nodup ↔ ∀ a ∈ names, ∀ b ∈ names, ¬ Clash a b := by
  rw [List.nodup_map_iff_inj_on hn]
  refine forall₂_congr fun a ha => forall₂_congr fun b hb => ?_
  rw [escapeKeyword_eq_iff (hidentifier a ha) (hidentifier b hb)]
  constructor
  · intro h hclash
    exact hclash.ne (h (.inr hclash))
  · intro h hor
    exact hor.resolve_right h

/-! ### Wrappers -/

theorem functionName_eq_iff {naming : NamingPolicy} (hn : naming.validate = .ok ()) {a b : String}
    (ha : isIdentifier a = true) (hb : isIdentifier b = true) :
    naming.functionName a = naming.functionName b ↔
      naming.renamed a = naming.renamed b ∨ Clash (naming.renamed a) (naming.renamed b) :=
  escapeKeyword_eq_iff (NamingPolicy.isIdentifier_renamed hn ha) (NamingPolicy.isIdentifier_renamed hn hb)

theorem nodup_map_functionName_iff {naming : NamingPolicy} (hn : naming.validate = .ok ()) {names : List String}
    (hnodup : names.Nodup) (hidentifier : ∀ name ∈ names, isIdentifier name = true) :
    (names.map naming.functionName).Nodup ↔ ∀ a ∈ names, ∀ b ∈ names, a ≠ b →
      naming.renamed a ≠ naming.renamed b ∧ ¬ Clash (naming.renamed a) (naming.renamed b) := by
  rw [List.nodup_map_iff_inj_on hnodup]
  refine forall₂_congr fun a ha => forall₂_congr fun b hb => ?_
  rw [functionName_eq_iff hn (hidentifier a ha) (hidentifier b hb), ← not_or, not_imp_not]

namespace Descriptor

/-- The names of the parameters of a function's wrapper. -/
def paramNames (d : Descriptor) (convention : Convention) : List String :=
  (d.explicitArgs convention).map fun a => escapeKeyword a.name

variable {d : Descriptor}

theorem self_not_mem_paramNames (hd : d.WellFormed) (convention : Convention) : "self" ∉ d.paramNames convention := by
  intro hself
  obtain ⟨a, ha, hname⟩ := List.mem_map.1 hself
  exact (isName_escapeKeyword (hd.argName a (List.mem_of_mem_drop ha))).ne_self hname

theorem nodup_paramNames_iff (hd : d.WellFormed) (hnodup : (d.args.map (·.name)).Nodup) (convention : Convention) :
    (d.paramNames convention).Nodup ↔
      ∀ a ∈ d.explicitArgs convention, ∀ b ∈ d.explicitArgs convention, ¬ Clash a.name b.name := by
  have hmap : d.paramNames convention = ((d.explicitArgs convention).map (·.name)).map escapeKeyword := by
    rw [List.map_map]
    rfl
  have hdrop : ((d.explicitArgs convention).map (·.name)).Nodup := by
    rw [explicitArgs, List.map_drop]
    exact hnodup.sublist (List.drop_sublist _ _)
  have hidentifier : ∀ name ∈ (d.explicitArgs convention).map (·.name), isIdentifier name = true := by
    rw [List.forall_mem_map]
    exact fun a ha => hd.argName a (List.mem_of_mem_drop ha)
  rw [hmap, nodup_map_escapeKeyword_iff hdrop hidentifier]
  simp only [List.forall_mem_map]

end Descriptor

/-! ### Runs -/

namespace Config

variable {c : Config} {t : Table} {provenance : Provenance} {us : List SourceUnit}

/-- The functions that a full run makes wrappers for, each with its convention. -/
def plannedFunctions (c : Config) (t : Table) : List (Descriptor × Convention) :=
  (c.planned t).flatMap fun q => q.1.functions.map (·, q.2)

theorem sublist_plannedFunctions (c : Config) (t : Table) :
    ((c.plannedFunctions t).map (·.1)).Sublist t.functions := by
  rw [plannedFunctions, planned, Table.functions]
  induction t.modules with
  | nil => exact List.Sublist.slnil
  | cons m ms ih =>
    rw [List.flatMap_cons]
    cases hc : c.plan.convention? m.name with
    | none =>
      rw [List.filterMap_cons_none (by rw [hc]; rfl)]
      exact ih.trans (List.sublist_append_right _ _)
    | some convention =>
      have hfunctions : (m.functions.map (·, convention)).map (·.1) = m.functions := by
        rw [List.map_map]
        exact List.map_id _
      rw [List.filterMap_cons_some (by rw [hc, Option.map_some]), List.flatMap_cons, List.map_append, hfunctions]
      exact (List.Sublist.refl _).append ih

theorem wellFormed_of_mem_plannedFunctions (ht : t.WellFormed) {q : Descriptor × Convention}
    (hq : q ∈ c.plannedFunctions t) : q.1 ∈ t.functions ∧ q.1.WellFormed := by
  have hmem := (sublist_plannedFunctions c t).subset (List.mem_map_of_mem hq)
  obtain ⟨m, hm, hd⟩ := Table.mem_functions.1 hmem
  exact ⟨hmem, (ht.modules m hm).functions q.1 hd⟩

/-- The wrappers that the units of a table declare, without those that are written by hand. -/
def tableWrappers (us : List SourceUnit) : List (String × List String) :=
  (us.filter (·.convention.isSome)).flatMap fun u => declaredWrappers u.source

theorem tableWrappers_of_units (hn : c.naming.validate = .ok ()) (ht : t.WellFormed)
    (h : c.units t [] provenance = .ok us) :
    tableWrappers us =
      (c.plannedFunctions t).map fun (d, convention) =>
        (c.naming.functionName d.publicName, d.paramNames convention) := by
  obtain ⟨made, hmade, rfl⟩ := exists_units_planned hn h
  have hconvention : ∀ u ∈ made, u.convention.isSome = true := by
    intro u hu
    obtain ⟨q, -, hunit⟩ := exists_of_mem_of_forall₂ hmade hu
    obtain ⟨source, -, rfl⟩ := exists_of_map_eq_ok hunit
    rfl
  have htext :
      (if c.output.text then [textUnit (c.unitOptions provenance)] else []).filter (·.convention.isSome) = [] := by
    split <;> rfl
  rw [tableWrappers, List.filter_append, htext, List.append_nil, List.filter_eq_self.2 hconvention, plannedFunctions,
    List.map_flatMap]
  refine flatMap_eq_of_forall₂ hmade fun q hq u hu => ?_
  obtain ⟨source, hsource, rfl⟩ := exists_of_map_eq_ok hu
  refine (Module.declaredWrappers_of_assemble (ht.modules _ (mem_planned.1 hq).1) hn hsource).trans ?_
  rw [List.map_map]
  rfl

/-- **When the names of a full run are distinct.**  If the functions of a table have distinct names, and so have the
arguments of each function, then the wrappers of the table's units have distinct names unless a rename or the escape of
a keyword makes two of them one.  Parameters are never named `self`, and those of a wrapper have distinct names unless
the escape of a keyword makes two of them one. -/
theorem distinct_names_iff {text : String} (hc : parse text = .ok c) (ht : t.OfSource)
    (hfunctions : (t.functions.map (·.publicName)).Nodup) (hargs : ∀ d ∈ t.functions, (d.args.map (·.name)).Nodup)
    (h : c.units t [] provenance = .ok us) :
    tableWrappers us = (c.plannedFunctions t).map (fun (d, convention) =>
        (c.naming.functionName d.publicName, d.paramNames convention)) ∧
      (((tableWrappers us).map (·.1)).Nodup ↔
        ∀ q ∈ c.plannedFunctions t, ∀ q' ∈ c.plannedFunctions t, q.1.publicName ≠ q'.1.publicName →
          c.naming.renamed q.1.publicName ≠ c.naming.renamed q'.1.publicName ∧
            ¬ Clash (c.naming.renamed q.1.publicName) (c.naming.renamed q'.1.publicName)) ∧
      List.Forall₂ (fun q w => "self" ∉ w.2 ∧
          (w.2.Nodup ↔ ∀ a ∈ q.1.explicitArgs q.2, ∀ b ∈ q.1.explicitArgs q.2, ¬ Clash a.name b.name))
        (c.plannedFunctions t) (tableWrappers us) := by
  have hn := validate_of_parse hc
  have hwell := ht.wellFormed
  have hwrappers := tableWrappers_of_units hn hwell h
  have hnames : (tableWrappers us).map (·.1) =
      (c.plannedFunctions t).map fun q => c.naming.functionName q.1.publicName := by
    rw [hwrappers, List.map_map]
    rfl
  refine ⟨hwrappers, ?_, ?_⟩
  · have hmap : (c.plannedFunctions t).map (fun q => c.naming.functionName q.1.publicName) =
        ((c.plannedFunctions t).map (·.1.publicName)).map c.naming.functionName := by
      rw [List.map_map]
      rfl
    have hpublic : ((c.plannedFunctions t).map (·.1.publicName)).Nodup := by
      have hsub := (sublist_plannedFunctions c t).map (·.publicName)
      rw [List.map_map] at hsub
      exact hfunctions.sublist hsub
    have hidentifier : ∀ name ∈ (c.plannedFunctions t).map (·.1.publicName), isIdentifier name = true := by
      rw [List.forall_mem_map]
      exact fun q hq => (wellFormed_of_mem_plannedFunctions hwell hq).2.publicName
    rw [hnames, hmap, nodup_map_functionName_iff hn hpublic hidentifier]
    simp only [List.forall_mem_map]
  · rw [hwrappers, List.forall₂_map_right_iff, List.forall₂_same]
    intro q hq
    obtain ⟨hmem, hd⟩ := wellFormed_of_mem_plannedFunctions hwell hq
    exact ⟨Descriptor.self_not_mem_paramNames hd q.2, Descriptor.nodup_paramNames_iff hd (hargs q.1 hmem) q.2⟩

/-- Functions and parameters that are named as keywords, one of which is renamed. -/
def crateText : String :=
  "LIBFIVE_SECTION(shapes)\nLIBFIVE_STDLIB crate(tfloat self, tfloat in);\n" ++
    "LIBFIVE_SECTION(csg)\nLIBFIVE_STDLIB move(libfive_tree t, tvec2 crate);\n"

def crateTable : Table := ⟨[
  ⟨"shapes", [⟨"crate", "p_crate", "shapes", [⟨"self", "tfloat", 0⟩, ⟨"in", "tfloat", 1⟩], none⟩]⟩,
  ⟨"csg", [⟨"move", "p_move", "csg", [⟨"t", "libfive_tree", 0⟩, ⟨"crate", "tvec2", 1⟩], none⟩]⟩]⟩

theorem distinct_names_iff_crate :
    parse drawingText = .ok drawingConfig ∧ crateTable.OfSource ∧
      ∃ us, drawingConfig.units crateTable [] ⟨"now", "me"⟩ = .ok us ∧
        tableWrappers us = [("crate_", ["self_", "r#in"]), ("moveit", ["crate_"])] ∧
        ((tableWrappers us).map (·.1)).Nodup ∧ ["self_", "r#in"].Nodup := by
  have hparse := parse_drawingText
  have hheader : Header.parse "p_" crateText = .ok crateTable := by decide +kernel
  have hsource := Table.OfSource.header hheader
  have hok : (drawingConfig.units crateTable [] ⟨"now", "me"⟩).toOption.isSome = true := by decide +kernel
  obtain ⟨us, hus⟩ := exists_of_isSome_toOption hok
  obtain ⟨hwrappers, hnames, hparams⟩ :=
    distinct_names_iff hparse hsource (by decide +kernel) (by decide +kernel) hus
  have hwrappers : tableWrappers us = [("crate_", ["self_", "r#in"]), ("moveit", ["crate_"])] :=
    hwrappers.trans (by decide +kernel)
  rw [hwrappers] at hparams
  have hplanned : drawingConfig.plannedFunctions crateTable = [
      (⟨"crate", "p_crate", "shapes", [⟨"self", "tfloat", 0⟩, ⟨"in", "tfloat", 1⟩], none⟩, .free),
      (⟨"move", "p_move", "csg", [⟨"t", "libfive_tree", 0⟩, ⟨"crate", "tvec2", 1⟩], none⟩, .receiver)] := by
    decide +kernel
  rw [hplanned, List.forall₂_cons] at hparams
  exact ⟨hparse, hsource, us, hus, hwrappers, hnames.2 (by decide +kernel), hparams.1.2.2 (by decide +kernel)⟩

/-- A function with the name that another one is given, and parameters of which one has the name of the other's
escape. -/
def moveText : String :=
  "LIBFIVE_SECTION(shapes)\nLIBFIVE_STDLIB move(tfloat self, tfloat self_);\nLIBFIVE_STDLIB moveit();\n"

def moveTable : Table := ⟨[⟨"shapes", [
  ⟨"move", "libfivestd_move", "shapes", [⟨"self", "tfloat", 0⟩, ⟨"self_", "tfloat", 1⟩], none⟩,
  ⟨"moveit", "libfivestd_moveit", "shapes", [], none⟩]⟩]⟩

/-- Distinct functions and arguments whose wrappers and parameters have one name, in a run that succeeds. -/
theorem distinct_names_become_one :
    parse drawingText = .ok drawingConfig ∧ Header.parse drawingConfig.symbolPrefix moveText = .ok moveTable ∧
      (moveTable.functions.map (·.publicName)).Nodup ∧ (∀ d ∈ moveTable.functions, (d.args.map (·.name)).Nodup) ∧
      ∃ us, drawingConfig.units moveTable [] ⟨"now", "me"⟩ = .ok us ∧
        tableWrappers us = [("moveit", ["self_", "self_"]), ("moveit", [])] ∧
        ¬ ((tableWrappers us).map (·.1)).Nodup ∧ ¬ ∀ w ∈ tableWrappers us, w.2.Nodup := by
  have hparse := parse_drawingText
  have hheader : Header.parse drawingConfig.symbolPrefix moveText = .ok moveTable := by decide +kernel
  have hok : (drawingConfig.units moveTable [] ⟨"now", "me"⟩).toOption.isSome = true := by decide +kernel
  obtain ⟨us, hus⟩ := exists_of_isSome_toOption hok
  have hwrappers : tableWrappers us = [("moveit", ["self_", "self_"]), ("moveit", [])] := by
    rw [tableWrappers_of_units (validate_of_parse hparse) (Header.wellFormed_of_parse hheader) hus]
    decide +kernel
  refine ⟨hparse, hheader, by decide +kernel, by decide +kernel, us, hus, hwrappers, ?_, ?_⟩ <;> rw [hwrappers]
  · decide +kernel
  · decide +kernel

end Config

end ShapeBindings
