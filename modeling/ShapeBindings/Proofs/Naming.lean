import ShapeBindings.Proofs.Project.Distinct
import ShapeBindings.Proofs.Project.Legal

/-!
# Escaped names

`IsBindable` is what the grammar of the generated language allows as the name of a function or of a parameter, with its
keywords as the grammar lists them: those that it uses and those that it keeps for later.  The keywords that names are
escaped for are these (`mem_keywords_iff`), so what is escaped is legal (`isBindable_functionName_iff`), unless it is the
underscore, which is an identifier to the readers and stays as it is.
-/

namespace ShapeBindings

/-! ### The grammar of names -/

/-- The keywords with a meaning. -/
def strictKeywords : List String :=
  ["as", "async", "await", "break", "const", "continue", "crate", "dyn", "else", "enum", "extern", "false", "fn", "for",
    "if", "impl", "in", "let", "loop", "match", "mod", "move", "mut", "pub", "ref", "return", "self", "Self", "static",
    "struct", "super", "trait", "true", "type", "unsafe", "use", "where", "while"]

/-- The keywords without a meaning so far. -/
def futureKeywords : List String :=
  ["abstract", "become", "box", "do", "final", "macro", "override", "priv", "try", "typeof", "unsized", "virtual",
    "yield"]

/-- The names of functions and parameters: words that are neither keywords nor the underscore, and raw keywords, except
for those that stand for places. -/
inductive IsBindable : String → Prop
  | word {name : String} (identifier : isIdentifier name = true) (notKeyword : name ∉ strictKeywords ++ futureKeywords)
      (notUnderscore : name ≠ "_") : IsBindable name
  | raw {k : String} (keyword : k ∈ strictKeywords ++ futureKeywords) (notPlace : k ∉ ["crate", "self", "Self", "super"]) :
      IsBindable ("r#" ++ k)

theorem mem_keywords_iff {k : String} : k ∈ keywords ↔ k ∈ strictKeywords ++ futureKeywords := by
  have hsub : ∀ k ∈ keywords, k ∈ strictKeywords ++ futureKeywords := by decide +kernel
  have hsup : ∀ k ∈ strictKeywords ++ futureKeywords, k ∈ keywords := by decide +kernel
  exact ⟨hsub k, hsup k⟩

theorem isBindable_iff {name : String} : IsBindable name ↔ IsLegalName name := by
  constructor
  · rintro (⟨hidentifier, hkeyword, hunderscore⟩ | ⟨hkeyword, hplace⟩)
    · exact .inl ⟨hidentifier, by simp [reservedNames, hunderscore, mem_keywords_iff, hkeyword]⟩
    · exact .inr ⟨_, mem_keywords_iff.2 hkeyword, hplace, rfl⟩
  · rintro (⟨hidentifier, hreserved⟩ | ⟨k, hkeyword, hplace, rfl⟩)
    · rw [reservedNames, List.mem_cons, not_or, mem_keywords_iff] at hreserved
      exact .word hidentifier hreserved.2 hreserved.1
    · exact .raw (mem_keywords_iff.1 hkeyword) hplace

/-! ### Escapes -/

section Escapes

variable {name : String} (h : isIdentifier name = true)
include h

theorem isBindable_escapeKeyword_iff : IsBindable (escapeKeyword name) ↔ name ≠ "_" := by
  rw [isBindable_iff]
  refine ⟨?_, isLegalName_escapeKeyword h⟩
  rintro hlegal rfl
  have hkeep : escapeKeyword "_" = "_" := by decide
  rw [hkeep, isLegalName_iff (by decide)] at hlegal
  exact hlegal (by decide)

theorem escapeKeyword_of_isBindable (hname : IsBindable name) : escapeKeyword name = name := by
  have hplaces : ∀ k ∈ pathKeywords, k ∈ keywords := by decide
  rw [isBindable_iff, isLegalName_iff h, reservedNames, List.mem_cons, not_or] at hname
  rw [escapeKeyword, if_neg fun hplace => hname.2 (hplaces name hplace), if_neg hname.2]

end Escapes

/-- **Escaped names are legal, but for the underscore.**  Under renames that were accepted, the name of the wrapper for
an identifier is legal just when the renames do not leave the underscore, and it is the renamed identifier whenever that
was legal already.  So it is with the escapes of parameters, which are not renamed. -/
theorem NamingPolicy.isBindable_functionName_iff {p : NamingPolicy} (hp : p.validate = .ok ()) {name : String}
    (h : isIdentifier name = true) :
    (IsBindable (p.functionName name) ↔ p.renamed name ≠ "_") ∧
      (IsBindable (p.renamed name) → p.functionName name = p.renamed name) ∧
      (IsBindable (escapeKeyword name) ↔ name ≠ "_") ∧ (IsBindable name → escapeKeyword name = name) :=
  have hrenamed := isIdentifier_renamed hp h
  ⟨isBindable_escapeKeyword_iff hrenamed, escapeKeyword_of_isBindable hrenamed, isBindable_escapeKeyword_iff h,
    escapeKeyword_of_isBindable h⟩

theorem NamingPolicy.isBindable_functionName_iff_move :
    standard.validate = .ok () ∧ isIdentifier "move" = true ∧ IsBindable (standard.functionName "move") ∧
      standard.functionName "move" = "moveit" ∧ IsBindable (escapeKeyword "move") ∧ escapeKeyword "move" = "r#move" := by
  have hvalidate : standard.validate = .ok () := by decide +kernel
  have hmove : isIdentifier "move" = true := by decide
  have hrenamed : standard.renamed "move" = "moveit" := by decide +kernel
  obtain ⟨hfunction, hkeep, hescape, -⟩ := isBindable_functionName_iff hvalidate hmove
  rw [hrenamed] at hfunction hkeep
  have hmoveit : IsBindable "moveit" := .word (by decide) (by decide +kernel) (by decide)
  exact ⟨hvalidate, hmove, hfunction.2 (by decide), hkeep hmoveit, hescape.2 (by decide), by decide +kernel⟩

/-- The underscore is read as a name and written as one. -/
theorem NamingPolicy.underscore_is_not_escaped :
    standard.validate = .ok () ∧ isIdentifier "_" = true ∧ ¬ IsBindable (standard.functionName "_") ∧
      ¬ IsBindable (escapeKeyword "_") := by
  have hfunction : standard.functionName "_" = "_" := by decide +kernel
  have hescape : escapeKeyword "_" = "_" := by decide
  have hunderscore : ¬ IsBindable "_" := by
    rw [isBindable_iff, isLegalName_iff (by decide)]
    decide
  rw [hfunction, hescape]
  exact ⟨by decide +kernel, by decide, hunderscore, hunderscore⟩

end ShapeBindings
