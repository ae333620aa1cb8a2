import ShapeBindings.Proofs.Project.Index
import ShapeBindings.Proofs.Project.Loaded
import ShapeBindings.Proofs.Unit.Declared

/-!
# Names that the generated language allows

Names of wrappers and of parameters are escaped, which makes every identifier but the underscore legal
(`isLegalName_escapeKeyword`).  Symbols and names of modules are written as they are, so they are legal just when they
are not reserved (`isLegalName_iff`): `legal_names_iff` says so of all that a full run writes.
-/

namespace ShapeBindings

/-! ### Legal names -/

/-- The identifiers that are no names by themselves. -/
def reservedNames : List String := "_" :: keywords

/-- A name that can stand for a function or a module: an identifier that is not reserved, or the raw form of a
keyword. -/
def IsLegalName (name : String) : Prop :=
  isIdentifier name = true ∧ name ∉ reservedNames ∨ ∃ k ∈ keywords, k ∉ pathKeywords ∧ name = "r#" ++ k

theorem isLegalName_iff {name : String} (h : isIdentifier name = true) : IsLegalName name ↔ name ∉ reservedNames := by
  refine ⟨?_, fun hname => .inl ⟨h, hname⟩⟩
  rintro (⟨-, hname⟩ | ⟨k, -, -, rfl⟩)
  · exact hname
  · -- a raw form is no identifier
    exact absurd (by simp : '#' ∈ ("r#" ++ k).toList) (not_mem_of_isIdentifier h (by decide))

theorem isLegalName_escapeKeyword {name : String} (h : isIdentifier name = true) (hname : name ≠ "_") :
    IsLegalName (escapeKeyword name) := by
  unfold escapeKeyword
  split
  · next hpath =>
    have hall : ∀ k ∈ pathKeywords, isIdentifier (k ++ "_") = true ∧ k ++ "_" ∉ reservedNames := by decide
    exact .inl (hall name hpath)
  · next hpath =>
    split
    · next hkeyword => exact .inr ⟨name, hkeyword, hpath, rfl⟩
    · next hkeyword => exact .inl ⟨h, by simp [reservedNames, hname, hkeyword]⟩

namespace Config

variable {c : Config} {t : Table} {provenance : Provenance} {us : List SourceUnit}

/-! ### The symbols of a run -/

theorem calledSymbols_of_unit {m : Module} {convention : Convention} {options : UnitOptions} {u : SourceUnit}
    (hm : m.WellFormed) (hn : options.naming.validate = .ok ()) (h : m.unit convention options = .ok u) :
    calledSymbols u.source = m.functions.map (·.rawName) := by
  obtain ⟨source, hsource, rfl⟩ := exists_of_map_eq_ok h
  exact Module.calledSymbols_of_assemble hm hn hsource

theorem flatMap_calledSymbols (hn : c.naming.validate = .ok ()) (ht : t.WellFormed)
    (h : c.units t [] provenance = .ok us) :
    us.flatMap (fun u => calledSymbols u.source) =
      ((c.planned t).flatMap fun q => q.1.functions.map (·.rawName)) ++
        if c.output.text then ["libfivestd_text"] else [] := by
  obtain ⟨made, hmade, rfl⟩ := exists_units_planned hn h
  have hread : made.flatMap (fun u => calledSymbols u.source) =
      (c.planned t).flatMap fun q => q.1.functions.map (·.rawName) :=
    flatMap_eq_of_forall₂ hmade fun q hq u hu => calledSymbols_of_unit (ht.modules _ (mem_planned.1 hq).1) hn hu
  rw [List.flatMap_append, hread]
  congr 1
  split
  · rw [List.flatMap_cons, List.flatMap_nil, List.append_nil, calledSymbols_textUnit]
  · rfl

theorem isLegalName_calledSymbols_iff (hn : c.naming.validate = .ok ()) (ht : t.WellFormed)
    (h : c.units t [] provenance = .ok us) :
    (∀ u ∈ us, ∀ symbol ∈ calledSymbols u.source, IsLegalName symbol) ↔
      ∀ q ∈ c.planned t, ∀ d ∈ q.1.functions, d.rawName ∉ reservedNames := by
  have htext : IsLegalName "libfivestd_text" := .inl (by decide)
  have hall : (∀ u ∈ us, ∀ symbol ∈ calledSymbols u.source, IsLegalName symbol) ↔
      ∀ symbol ∈ us.flatMap (fun u => calledSymbols u.source), IsLegalName symbol := by
    simp only [List.forall_mem_flatMap]
  rw [hall, flatMap_calledSymbols hn ht h, List.forall_mem_append, and_iff_left (by split <;> simp [htext]),
    List.forall_mem_flatMap]
  refine forall₂_congr fun q hq => ?_
  rw [List.forall_mem_map]
  exact forall₂_congr fun d hd => isLegalName_iff ((ht.modules _ (mem_planned.1 hq).1).functions d hd).rawName

/-! ### The index of a run -/

theorem declaredModules_indexOutput (ht : t.WellFormed) :
    declaredModules (c.indexOutput t).text =
      (c.planned t).map (·.1.name) ++ if c.output.text then [textModuleName] else [] := by
  have hnames : ∀ name ∈ c.plannedModules t, isIdentifier name = true := by
    have htext : isIdentifier textModuleName = true := by decide
    rw [plannedModules_eq, List.forall_mem_append, List.forall_mem_map]
    exact ⟨fun q hq => (ht.modules _ (mem_planned.1 hq).1).name, by split <;> simp [htext]⟩
  rw [indexOutput, declaredModules_renderIndex hnames, plannedModules_eq]

theorem isLegalName_declaredModules_iff (ht : t.WellFormed) :
    (∀ name ∈ declaredModules (c.indexOutput t).text, IsLegalName name) ↔
      ∀ q ∈ c.planned t, q.1.name ∉ reservedNames := by
  have htext : IsLegalName textModuleName := .inl (by decide)
  rw [declaredModules_indexOutput ht, List.forall_mem_append, and_iff_left (by split <;> simp [htext]),
    List.forall_mem_map]
  exact forall₂_congr fun q hq => isLegalName_iff (ht.modules _ (mem_planned.1 hq).1).name

/-! ### All names of a run -/

/-- **Symbols and modules are named as in the table.**  The units of a full run call the symbols of the functions in its
modules, and its index declares the modules, in the order of the table and by the names that these have there.  So the
symbols are legal just when no function has a reserved symbol, and the modules are when none has a reserved name. -/
theorem legal_names_iff {text : String} (hc : parse text = .ok c) (ht : t.OfSource)
    (h : c.units t [] provenance = .ok us) :
    us.flatMap (fun u => calledSymbols u.source) =
        ((c.planned t).flatMap fun q => q.1.functions.map (·.rawName)) ++
          (if c.output.text then ["libfivestd_text"] else []) ∧
      declaredModules (c.indexOutput t).text =
        (c.planned t).map (·.1.name) ++ (if c.output.text then [textModuleName] else []) ∧
      ((∀ u ∈ us, ∀ symbol ∈ calledSymbols u.source, IsLegalName symbol) ↔
        ∀ q ∈ c.planned t, ∀ d ∈ q.1.functions, d.rawName ∉ reservedNames) ∧
      ((∀ name ∈ declaredModules (c.indexOutput t).text, IsLegalName name) ↔
        ∀ q ∈ c.planned t, q.1.name ∉ reservedNames) := by
  have hn := validate_of_parse hc
  exact ⟨flatMap_calledSymbols hn ht.wellFormed h, declaredModules_indexOutput ht.wellFormed,
    isLegalName_calledSymbols_iff hn ht.wellFormed h, isLegalName_declaredModules_iff ht.wellFormed⟩

theorem legal_names_iff_circle :
    parse drawingText = .ok drawingConfig ∧ circleTable.OfSource ∧
      ∃ us, drawingConfig.units circleTable [] ⟨"now", "me"⟩ = .ok us ∧
        us.flatMap (fun u => calledSymbols u.source) = ["p_circle", "libfivestd_text"] ∧
        declaredModules (drawingConfig.indexOutput circleTable).text = ["shapes", "text"] ∧
        (∀ u ∈ us, ∀ symbol ∈ calledSymbols u.source, IsLegalName symbol) ∧
        ∀ name ∈ declaredModules (drawingConfig.indexOutput circleTable).text, IsLegalName name := by
  have hparse := parse_drawingText
  have hsource := Table.OfSource.header parse_circleText
  have hok : (drawingConfig.units circleTable [] ⟨"now", "me"⟩).toOption.isSome = true := by decide +kernel
  obtain ⟨us, hus⟩ := exists_of_isSome_toOption hok
  obtain ⟨hsymbols, hmodules, hsymbols', hmodules'⟩ := legal_names_iff hparse hsource hus
  exact ⟨hparse, hsource, us, hus, hsymbols.trans (by decide +kernel), hmodules.trans (by decide +kernel),
    hsymbols'.2 (by decide +kernel), hmodules'.2 (by decide +kernel)⟩

/-- A function and a section that are named as keywords, and a project without a prefix for symbols. -/
def keywordHeader : String := "LIBFIVE_SECTION(fn)\nLIBFIVE_STDLIB type();\n"

def keywordTable : Table := ⟨[⟨"fn", [⟨"type", "type", "fn", [], none⟩]⟩]⟩

def keywordText : String :=
  "[source]\nheader=\"h\"\nsymbol-prefix=\"\"\n[output]\nindex=true\ntext=false\n" ++
    "default-convention=\"free\"\n"

def keywordConfig : Config where
  source := .header "h"
  symbolPrefix := ""
  output := { index := true, text := false, defaultConvention := some .free }

theorem keywords_are_not_escaped :
    parse keywordText = .ok keywordConfig ∧ Header.parse keywordConfig.symbolPrefix keywordHeader = .ok keywordTable ∧
      ∃ us, keywordConfig.units keywordTable [] ⟨"now", "me"⟩ = .ok us ∧
        (∃ u ∈ us, "type" ∈ calledSymbols u.source) ∧ ¬ IsLegalName "type" ∧
        "fn" ∈ declaredModules (keywordConfig.indexOutput keywordTable).text ∧ ¬ IsLegalName "fn" := by
  have hparse : parse keywordText = .ok keywordConfig := by decide +kernel
  have hheader : Header.parse keywordConfig.symbolPrefix keywordHeader = .ok keywordTable := by decide +kernel
  have hwell := Header.wellFormed_of_parse hheader
  have hok : (keywordConfig.units keywordTable [] ⟨"now", "me"⟩).toOption.isSome = true := by decide +kernel
  obtain ⟨us, hus⟩ := exists_of_isSome_toOption hok
  have hcalled : "type" ∈ us.flatMap fun u => calledSymbols u.source := by
    rw [flatMap_calledSymbols (validate_of_parse hparse) hwell hus]
    decide +kernel
  have hdeclared : "fn" ∈ declaredModules (keywordConfig.indexOutput keywordTable).text := by
    rw [declaredModules_indexOutput hwell]
    decide +kernel
  have hreserved : ∀ name ∈ ["type", "fn"], ¬ IsLegalName name := by
    intro name hname
    have hall : ∀ name ∈ ["type", "fn"], isIdentifier name = true ∧ name ∈ reservedNames := by decide +kernel
    rw [isLegalName_iff (hall name hname).1, not_not]
    exact (hall name hname).2
  exact ⟨hparse, hheader, us, hus, List.mem_flatMap.1 hcalled, hreserved _ (by decide), hdeclared,
    hreserved _ (by decide)⟩

end Config

end ShapeBindings
