import ShapeBindings.Proofs.Unit.Preamble

/-!
# The structure of units

* `codeLines s`: the lines of a text that are neither blank nor comments;
* `docRuns above ls`: the runs of documentation lines directly above the declarations among the lines `ls`, if the run
  `above` stands above these;
* `structure_of_assemble`: what these are for the unit of a module.
-/

namespace ShapeBindings

open Text

/-! ### Code -/

/-- Whether a line is neither blank nor a comment. -/
def isCodeLine (line : String) : Bool :=
  let text := trimStart line.toList
  !text.isEmpty && (after? "//".toList text).isNone

/-- The lines of a text that are neither blank nor comments. -/
def codeLines (source : String) : List String := (splitLines source).filter isCodeLine

theorem isCodeLine_of_comment {line : String} {b text : List Char} (hb : Blanks b)
    (h : line.toList = b ++ ("//".toList ++ text)) : isCodeLine line = false := by
  have htrim : trimStart line.toList = "//".toList ++ text := by
    rw [h, trimStart_blanks_append hb]
    exact trimStart_cons_of_not_blank (by decide) _
  rw [isCodeLine, htrim, after?_append]
  exact Bool.and_false _

theorem isCodeLine_of_head {line : String} {b text : List Char} {c : Char} (hb : Blanks b)
    (h : line.toList = b ++ c :: text) (hc : isBlank c = false) (hslash : c ≠ '/') : isCodeLine line = true := by
  have htrim : trimStart line.toList = c :: text := by
    rw [h, trimStart_blanks_append hb, trimStart_cons_of_not_blank hc]
  have hafter : after? "//".toList (c :: text) = none := after?_cons_of_ne hslash.symm _ _
  rw [isCodeLine, htrim, hafter]
  rfl

/-! ### Documentation -/

/-- Whether a line is a comment that documents what follows it. -/
def isDocLine (line : String) : Bool := (after? "///".toList (trimStart line.toList)).isSome

/-- Whether a line declares a wrapper. -/
def isDeclaration (line : String) : Bool := (after? "    pub fn ".toList line.toList).isSome

/-- The runs of documentation lines directly above the declarations among some lines, above which such a run stands. -/
def docRuns (above : List String) : List String → List (List String)
  | [] => []
  | line :: rest =>
    if isDeclaration line then above :: docRuns [] rest
    else docRuns (if isDocLine line then above ++ [line] else []) rest

theorem docRuns_cons {line : String} (hdecl : isDeclaration line = false) (hdoc : isDocLine line = false)
    (above rest : List String) : docRuns above (line :: rest) = docRuns [] rest := by
  rw [docRuns, hdecl, hdoc]
  rfl

/-- Lines without a declaration, and a line that documents nothing below them. -/
theorem docRuns_skip {ls : List String} (hls : ∀ l ∈ ls, isDeclaration l = false) {line : String}
    (hdecl : isDeclaration line = false) (hdoc : isDocLine line = false) (above rest : List String) :
    docRuns above (ls ++ line :: rest) = docRuns [] rest := by
  induction ls generalizing above with
  | nil => exact docRuns_cons hdecl hdoc above rest
  | cons l ls ih =>
    rw [List.cons_append, docRuns, hls l List.mem_cons_self]
    exact ih (fun l' hl' => hls l' (List.mem_cons_of_mem l hl')) _

/-- Documentation, and the declaration below it. -/
theorem docRuns_docs {docs : List String} (hdocs : ∀ l ∈ docs, isDeclaration l = false ∧ isDocLine l = true)
    {line : String} (hdecl : isDeclaration line = true) (above rest : List String) :
    docRuns above (docs ++ line :: rest) = (above ++ docs) :: docRuns [] rest := by
  induction docs generalizing above with
  | nil =>
    rw [List.nil_append, docRuns, hdecl, List.append_nil]
    rfl
  | cons l docs ih =>
    obtain ⟨h1, h2⟩ := hdocs l List.mem_cons_self
    rw [List.cons_append, docRuns, h1, h2]
    refine (ih (fun l' hl' => hdocs l' (List.mem_cons_of_mem l hl')) _).trans ?_
    rw [if_pos rfl, List.append_assoc]
    rfl

/-! ### Lines that declare and document nothing -/

theorem isDeclaration_of_head {line : String} {text : List Char} {c : Char} (h : line.toList = c :: text)
    (hc : c ≠ ' ') : isDeclaration line = false := by
  have hafter : after? "    pub fn ".toList (c :: text) = none := after?_cons_of_ne hc.symm _ _
  rw [isDeclaration, h, hafter]
  rfl

theorem isDeclaration_declarationLine (s : Signature) : isDeclaration s.declarationLine = true := by
  obtain ⟨text, htext⟩ := s.exists_declarationLine
  rw [isDeclaration, htext, after?_append]
  rfl

theorem isCodeLine_declarationLine (s : Signature) : isCodeLine s.declarationLine = true := by
  obtain ⟨text, htext⟩ := s.exists_declarationLine
  exact isCodeLine_of_head (b := "    ".toList) (c := 'p') (by decide) htext (by decide) (by decide)

theorem isDeclaration_docLine (line : String) : isDeclaration (docLine line) = false := by
  obtain ⟨text, htext⟩ := exists_docLine line
  rw [isDeclaration, htext]
  rfl

theorem isDocLine_docLine (line : String) : isDocLine (docLine line) = true := by
  obtain ⟨text, htext⟩ := exists_docLine line
  rw [isDocLine, htext]
  rfl

theorem isCodeLine_docLine (line : String) : isCodeLine (docLine line) = false := by
  obtain ⟨text, htext⟩ := exists_docLine line
  have hcomment : (docLine line).toList = "    ".toList ++ ("//".toList ++ '/' :: text) := htext
  exact isCodeLine_of_comment (by decide) hcomment

namespace Descriptor

theorem isDeclaration_callLine (d : Descriptor) (s : Signature) : isDeclaration (d.callLine s) = false := by
  obtain ⟨text, htext⟩ := d.exists_callLine s
  rw [isDeclaration, htext]
  rfl

theorem isDocLine_callLine (d : Descriptor) (s : Signature) : isDocLine (d.callLine s) = false := by
  obtain ⟨text, htext⟩ := d.exists_callLine s
  rw [isDocLine, htext]
  rfl

theorem isCodeLine_callLine (d : Descriptor) (s : Signature) : isCodeLine (d.callLine s) = true := by
  obtain ⟨text, htext⟩ := d.exists_callLine s
  exact isCodeLine_of_head (by decide) htext (by decide) (by decide)

end Descriptor

/-! ### Blocks -/

theorem filter_blockLines {wrapped : List (Descriptor × Signature)} (hd : ∀ q ∈ wrapped, q.1.WellFormed) :
    (blockLines wrapped).filter isCodeLine =
      wrapped.flatMap (fun (d, s) => [s.declarationLine, d.callLine s, "    \x7d"]) ++ ["\x7d"] := by
  have hblank : isCodeLine "" = false := by decide
  have hend : isCodeLine "    \x7d" = true := by decide
  have hclose : isCodeLine "\x7d" = true := by decide
  rw [← List.filterMap_eq_filter, filterMap_blockLines hd (by simp [hblank]) (by simp [isCodeLine_docLine])]
  simp [isCodeLine_declarationLine, Descriptor.isCodeLine_callLine, hend, hclose]

theorem docRuns_blockLines {wrapped : List (Descriptor × Signature)} (hd : ∀ q ∈ wrapped, q.1.WellFormed)
    (above : List String) :
    docRuns above (blockLines wrapped ++ [""]) = wrapped.map fun (d, _) => d.docText.map docLine := by
  induction wrapped generalizing above with
  | nil =>
    have hclose : isDeclaration "\x7d" = false ∧ isDocLine "\x7d" = false := by decide
    exact docRuns_cons hclose.1 hclose.2 above [""]
  | cons q wrapped ih =>
    obtain ⟨d, s⟩ := q
    have hblank : isDeclaration "" = false ∧ isDocLine "" = false := by decide
    have hend : isDeclaration "    \x7d" = false ∧ isDocLine "    \x7d" = false := by decide
    have hdocs : ∀ l ∈ d.docText.map docLine, isDeclaration l = false ∧ isDocLine l = true := by
      intro l hl
      obtain ⟨line, -, rfl⟩ := List.mem_map.1 hl
      exact ⟨isDeclaration_docLine line, isDocLine_docLine line⟩
    have hlines : blockLines ((d, s) :: wrapped) ++ [""] = "" :: (d.docText.map docLine ++
        s.declarationLine :: d.callLine s :: "    \x7d" :: (blockLines wrapped ++ [""])) := by
      simp only [blockLines, List.flatMap_cons, Descriptor.wrapperLines_eq (hd _ List.mem_cons_self), List.append_assoc,
        List.cons_append, List.nil_append]
    rw [hlines, docRuns_cons hblank.1 hblank.2, docRuns_docs hdocs (isDeclaration_declarationLine s),
      docRuns_cons (d.isDeclaration_callLine s) (d.isDocLine_callLine s), docRuns_cons hend.1 hend.2,
      ih (fun q hq => hd q (List.mem_cons_of_mem _ hq)), List.map_cons, List.nil_append]

/-! ### Preambles -/

theorem StartsComment.isCodeLine_eq {line : String} (h : StartsComment line) : isCodeLine line = false := by
  obtain ⟨text, htext⟩ := h
  exact isCodeLine_of_comment (b := []) (by decide) htext

theorem StartsComment.isDeclaration_eq {line : String} (h : StartsComment line) : isDeclaration line = false := by
  obtain ⟨text, htext⟩ := h
  exact isDeclaration_of_head (c := '/') htext (by decide)

namespace Module

variable {m : Module} {convention : Convention} {options : UnitOptions} {source : String}

theorem isDeclaration_of_mem_preambleLines : ∀ l ∈ m.preambleLines convention options, isDeclaration l = false := by
  refine forall_mem_preambleLines (fun l hl => (startsComment_of_mem_bannerLines hl).isDeclaration_eq) (by decide)
    (fun root _ => ?_) (startsComment_headingLine m.name).isDeclaration_eq
  obtain ⟨text, htext⟩ := exists_importLine root (m.imports convention)
  exact isDeclaration_of_head htext (by decide)

theorem filter_preambleLines (m : Module) (convention : Convention) (options : UnitOptions) :
    (m.preambleLines convention options).filter isCodeLine =
      (options.importRoot.map fun root => importLine root (m.imports convention)).toList := by
  have hbanner : (bannerLines m.name (.table options.source) options.provenance).filter isCodeLine = [] := by
    rw [List.filter_eq_nil_iff]
    intro l hl
    simp [(startsComment_of_mem_bannerLines hl).isCodeLine_eq]
  have hblank : isCodeLine "" = false := by decide
  have hheading := (startsComment_headingLine m.name).isCodeLine_eq
  rw [preambleLines, List.filter_append, List.filter_append, hbanner, List.nil_append]
  cases hroot : options.importRoot with
  | none => simp [importLines, hblank, hheading]
  | some root =>
    have himport : isCodeLine (importLine root (m.imports convention)) = true := by
      obtain ⟨text, htext⟩ := exists_importLine root (m.imports convention)
      exact isCodeLine_of_head (b := []) (by decide) htext (by decide) (by decide)
    simp [importLines, hblank, hheading, himport]

/-! ### Units -/

/-- **The structure of units.**  The code of a unit is the import, if there is a root to import from, and one block,
with the three lines of a wrapper for each function of the module in its order.  Directly above the declaration of a
wrapper stand the lines of the documentation of its function, each as a comment, and no others. -/
theorem structure_of_assemble (hm : m.WellFormed) (hn : options.naming.validate = .ok ())
    (hsource : OneLine options.source) (htime : OneLine options.provenance.generatedAt)
    (huser : OneLine options.provenance.user) (hroot : ∀ root ∈ options.importRoot, OneLine root)
    (h : m.assemble convention options = .ok source) :
    ∃ ss, m.functions.mapM (·.signature convention options.naming) = .ok ss ∧
      codeLines source =
        (options.importRoot.map fun root => importLine root (m.imports convention)).toList ++ "impl Tree \x7b" ::
          ((m.functions.zip ss).flatMap fun (d, s) =>
            [s!"    pub fn {options.naming.functionName d.publicName}({s.paramList}) -> Self \x7b",
             s!"        Self(unsafe \x7b sys::{d.rawName}({s.callList}) \x7d)",
             "    \x7d"]) ++ ["\x7d"] ∧
      docRuns [] (splitLines source) = m.functions.map fun d => d.docText.map docLine := by
  obtain ⟨ss, hss, rfl⟩ := exists_of_assemble h
  have hd : ∀ q ∈ m.functions.zip ss, q.1.WellFormed := fun _ => hm.of_mem_zip
  have hlines :
      ∀ l ∈ m.preambleLines convention options ++ openingLine :: blockLines (m.functions.zip ss), OneLine l := by
    simp only [List.forall_mem_append, List.forall_mem_cons]
    exact ⟨oneLine_of_mem_preambleLines (oneLine_of_isIdentifier hm.name) hsource htime huser hroot, by decide,
      oneLine_of_mem_blockLines hss hm hn⟩
  refine ⟨ss, hss, ?_, ?_⟩
  · have hopening : isCodeLine openingLine = true := by decide
    have hlast : [""].filter isCodeLine = [] := by decide
    have hwrapped : (m.functions.zip ss).flatMap (fun (d, s) => [s.declarationLine, d.callLine s, "    \x7d"]) =
        (m.functions.zip ss).flatMap fun (d, s) =>
          [s!"    pub fn {options.naming.functionName d.publicName}({s.paramList}) -> Self \x7b",
           s!"        Self(unsafe \x7b sys::{d.rawName}({s.callList}) \x7d)",
           "    \x7d"] := by
      refine List.flatMap_congr fun (d, s) hq => ?_
      dsimp only
      rw [← name_of_signature (signature_of_mem_zip hss hq)]
      rfl
    rw [codeLines, splitLines_unlines, flatMap_splitLines hlines, List.filter_append, List.filter_append,
      filter_preambleLines, List.filter_cons_of_pos hopening, filter_blockLines hd, hlast, List.append_nil, hwrapped,
      List.append_assoc, List.cons_append]
    rfl
  · have hopening : isDeclaration openingLine = false ∧ isDocLine openingLine = false := by decide
    rw [splitLines_unlines, flatMap_splitLines hlines, List.append_assoc, List.cons_append,
      docRuns_skip isDeclaration_of_mem_preambleLines hopening.1 hopening.2, docRuns_blockLines hd]
    exact map_functions_zip hss fun d => d.docText.map docLine

/-- A function with documentation that holds a blank line and code, and one without documentation. -/
def coneModule : Module where
  name := "shapes"
  functions := [
    ⟨"cone", "p_cone", "shapes", [⟨"r", "tfloat", 0⟩], some "A cone. \r\n\nimpl Tree \x7b\n*/ pub fn f();"⟩,
    ⟨"move", "p_move", "shapes", [⟨"t", "libfive_tree", 0⟩, ⟨"in", "tvec2", 1⟩], none⟩]

/-- The signatures of their wrappers, the second under another name. -/
def coneSignatures : List Signature := [
  ⟨"cone", [⟨"r", .float⟩], [.handle (.param "r")], false⟩,
  ⟨"moveit", [⟨"t", .handle⟩, ⟨"r#in", .vec2⟩],
    [.handle (.param "t"), .vec2 (.component (.param "r#in") "x") (.component (.param "r#in") "y")], false⟩]

def coneOptions : UnitOptions where
  source := "cones.h"
  importRoot := some "crate"
  provenance := ⟨"now", "me"⟩

theorem wellFormed_coneModule : coneModule.WellFormed where
  name := by decide
  moduleName := by decide
  functions := by
    simp only [coneModule, List.forall_mem_cons]
    refine ⟨⟨by decide, by decide, by decide, by decide, by decide, ?_⟩,
      ⟨by decide, by decide, by decide, by decide, by decide, ?_⟩, by simp⟩
    · decide
    · decide

theorem structure_of_assemble_cone :
    ∃ source, coneModule.assemble .free coneOptions = .ok source ∧
      codeLines source = [
        "use crate::\x7bsys, Tree, TreeFloat, TreeVec2\x7d;",
        "impl Tree \x7b",
        "    pub fn cone(r: TreeFloat) -> Self \x7b",
        "        Self(unsafe \x7b sys::p_cone(r.0) \x7d)",
        "    \x7d",
        "    pub fn moveit(t: Tree, r#in: TreeVec2) -> Self \x7b",
        "        Self(unsafe \x7b sys::p_move(t.0, sys::tvec2 \x7b x: r#in.x.0, y: r#in.y.0 \x7d) \x7d)",
        "    \x7d",
        "\x7d"] ∧
      docRuns [] (splitLines source) =
        [["    /// A cone.", "    ///", "    /// impl Tree \x7b", "    /// */ pub fn f();"], []] := by
  have hok : (coneModule.assemble .free coneOptions).toOption.isSome = true := by decide +kernel
  obtain ⟨source, hsource⟩ := exists_of_isSome_toOption hok
  have hsignatures : coneModule.functions.mapM (·.signature .free coneOptions.naming) = .ok coneSignatures := by
    decide +kernel
  obtain ⟨ss, hss, hcode, hdocs⟩ := structure_of_assemble wellFormed_coneModule (by decide) (by decide) (by decide)
    (by decide) (by decide) hsource
  obtain rfl : coneSignatures = ss := Except.ok.inj (hsignatures.symm.trans hss)
  refine ⟨source, hsource, hcode.trans ?_, hdocs.trans ?_⟩ <;> decide +kernel

end Module

end ShapeBindings
