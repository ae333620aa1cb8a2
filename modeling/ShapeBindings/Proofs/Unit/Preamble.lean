import ShapeBindings.Proofs.Text.Letter
import ShapeBindings.Proofs.Unit.Imports

/-!
# The preambles of units

The lines above the block of a unit are comments and an import (`startsComment_of_mem_bannerLines`,
`exists_importLine`), and have no line feeds if the labels have none (`Module.oneLine_of_mem_preambleLines`).
-/

namespace ShapeBindings

open Text

/-! ### Comments and imports -/

/-- A line that starts with two slashes. -/
def StartsComment (line : String) : Prop := ∃ text, line.toList = "//".toList ++ text

theorem StartsComment.append {line : String} (h : StartsComment line) (rest : String) :
    StartsComment (line ++ rest) := by
  obtain ⟨text, htext⟩ := h
  exact ⟨text ++ rest.toList, by rw [String.toList_append, htext, List.append_assoc]⟩

theorem startsComment_of_mem_bannerLines {name : String} {origin : Origin} {provenance : Provenance} {l : String}
    (hl : l ∈ bannerLines name origin provenance) : StartsComment l := by
  have horigin : StartsComment origin.line := by
    cases origin with
    | table source => exact .append (.append ⟨_, rfl⟩ source) _
    | template => exact ⟨_, rfl⟩
  have hprovenance : StartsComment provenance.line :=
    .append (.append (.append (.append (.append (.append ⟨_, rfl⟩ _) _) _) _) _) _
  simp only [bannerLines, List.mem_cons, List.not_mem_nil, or_false] at hl
  rcases hl with rfl | rfl | rfl | rfl | rfl | rfl | rfl | rfl
  · exact ⟨_, rfl⟩
  · exact .append (.append ⟨_, rfl⟩ name) _
  · exact ⟨_, rfl⟩
  · exact ⟨_, rfl⟩
  · exact horigin
  · exact ⟨_, rfl⟩
  · exact hprovenance
  · exact ⟨_, rfl⟩

theorem exists_importLine (root : String) (names : List String) :
    ∃ text, (importLine root names).toList = "use ".toList ++ text := by
  unfold importLine
  split
  · exact ⟨_, by simp only [String.toList_append, List.append_assoc]; rfl⟩
  · exact ⟨_, by simp only [String.toList_append, List.append_assoc]; rfl⟩

/-! ### Lines without line feeds -/

theorem oneLine_bannerLines {name source : String} {provenance : Provenance} (hname : OneLine name)
    (hsource : OneLine source) (htime : OneLine provenance.generatedAt) (huser : OneLine provenance.user) :
    ∀ l ∈ bannerLines name (.table source) provenance, OneLine l := by
  have hmodule : OneLine (s!"// Rust API for the libfive standard library's '{name}' module.") :=
    oneLine_append.2 ⟨oneLine_append.2 ⟨by decide, hname⟩, by decide⟩
  have horigin : OneLine (Origin.table source).line :=
    oneLine_append.2 ⟨oneLine_append.2 ⟨by decide, hsource⟩, by decide⟩
  have hprovenance : OneLine provenance.line := by
    have hline : provenance.line = "// " ++ provenanceMarker ++ " " ++ provenance.generatedAt ++ " by user " ++
      provenance.user ++ "." := rfl
    simp only [hline, oneLine_append, htime, huser, and_true]
    decide
  intro l hl
  simp only [bannerLines, List.mem_cons, List.not_mem_nil, or_false] at hl
  rcases hl with rfl | rfl | rfl | rfl | rfl | rfl | rfl | rfl
  · decide
  · exact hmodule
  · decide
  · decide
  · exact horigin
  · decide
  · exact hprovenance
  · decide

theorem oneLine_importLine {root : String} (h : OneLine root) {names : List String}
    (hnames : ∀ name ∈ names, OneLine name) : OneLine (importLine root names) := by
  unfold importLine
  split
  · next name =>
    exact oneLine_append.2 ⟨oneLine_append.2 ⟨oneLine_append.2 ⟨oneLine_append.2 ⟨by decide, h⟩, by decide⟩,
      hnames name List.mem_cons_self⟩, by decide⟩
  · have hlist : OneLine (", ".intercalate names) := oneLine_intercalate (by decide) hnames
    exact oneLine_append.2 ⟨oneLine_append.2 ⟨oneLine_append.2 ⟨oneLine_append.2 ⟨by decide, h⟩, by decide⟩, hlist⟩,
      by decide⟩

namespace Module

variable {m : Module} {convention : Convention} {options : UnitOptions}

theorem startsComment_headingLine (name : String) : StartsComment (headingLine name) :=
  .append (.append (.append (.append ⟨_, rfl⟩ _) _) _) _

theorem oneLine_headingLine {name : String} (h : OneLine name) : OneLine (headingLine name) := by
  have hline : headingLine name = "/// # " ++ titleCase name ++ " <a name=\"" ++ name ++ "\"></a>" := rfl
  simp only [hline, oneLine_append, oneLine_titleCase h, h, and_true]
  decide

theorem oneLine_of_mem_imports {name : String} (h : name ∈ m.imports convention) : OneLine name := by
  have hall : ∀ name ∈ "sys" :: allTypes, OneLine name := by decide
  exact hall name (mem_of_mem_imports h)

/-! ### Preambles -/

theorem forall_mem_preambleLines {P : String → Prop}
    (hbanner : ∀ l ∈ bannerLines m.name (.table options.source) options.provenance, P l) (hblank : P "")
    (himport : ∀ root ∈ options.importRoot, P (importLine root (m.imports convention)))
    (hheading : P (headingLine m.name)) : ∀ l ∈ m.preambleLines convention options, P l := by
  intro l hl
  rw [preambleLines, List.mem_append, List.mem_append] at hl
  rcases hl with hl | hl | hl
  · exact hbanner l hl
  · unfold importLines at hl
    split at hl
    · next root hroot =>
      simp only [List.mem_cons, List.not_mem_nil, or_false] at hl
      rcases hl with rfl | rfl
      · exact hblank
      · exact himport root hroot
    · cases hl
  · simp only [List.mem_cons, List.not_mem_nil, or_false] at hl
    rcases hl with rfl | rfl
    · exact hblank
    · exact hheading

theorem oneLine_of_mem_preambleLines (hm : OneLine m.name) (hsource : OneLine options.source)
    (htime : OneLine options.provenance.generatedAt) (huser : OneLine options.provenance.user)
    (hroot : ∀ root ∈ options.importRoot, OneLine root) : ∀ l ∈ m.preambleLines convention options, OneLine l := by
  refine forall_mem_preambleLines (oneLine_bannerLines hm hsource htime huser) (by decide) (fun root hsome => ?_)
    (oneLine_headingLine hm)
  exact oneLine_importLine (hroot root hsome) fun _ => oneLine_of_mem_imports

end Module

end ShapeBindings
