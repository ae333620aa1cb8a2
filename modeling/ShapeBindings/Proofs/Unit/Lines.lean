import ShapeBindings.Proofs.Marshal.Soundness
import ShapeBindings.Proofs.Text.Splitting
import ShapeBindings.Proofs.Unit.Types
import ShapeBindings.Proofs.WellFormed

/-!
# The lines of units

A unit has the lines of its preamble, the line that opens its block, and the lines of the block: those of the wrappers,
one for each function of the module in its order, and the closing line (`Module.exists_of_assemble`).  The lines of the
block have no line feeds (`Module.oneLine_of_mem_blockLines`); those of the preamble hold labels, which may have some.
-/

namespace ShapeBindings

open Text

/-! ### Names -/

theorem oneLine_of_isIdentifier {s : String} (h : isIdentifier s = true) : OneLine s :=
  not_mem_of_isIdentifier h (by decide)

theorem IsName.oneLine {s : String} (h : IsName s) : OneLine s := h.not_mem (by decide)

theorem isNameChar_of_isBlank {c : Char} (h : isBlank c = true) : isNameChar c = false := by
  rw [isNameChar, isIdentifierPart_of_isBlank h, Bool.false_or, beq_eq_false_iff_ne]
  exact isBlank_ne h (by decide)

theorem IsName.trimStart_append {s : String} (h : IsName s) (rest : List Char) :
    trimStart (s.toList ++ rest) = s.toList ++ rest := by
  obtain ⟨c, cs, hs⟩ := List.exists_cons_of_ne_nil h.ne_nil
  have hc : isBlank c = false := by
    rw [← Bool.not_eq_true]
    intro hblank
    exact h.not_mem (isNameChar_of_isBlank hblank) (by simp [hs])
  rw [hs, List.cons_append, trimStart_cons_of_not_blank hc]

namespace NamingPolicy

variable {p : NamingPolicy}

/-- The name of a function after the renames, before it is escaped. -/
def renamed (p : NamingPolicy) (publicName : String) : String := (p.renames.get? publicName).getD publicName

theorem isIdentifier_renamed (hp : p.validate = .ok ()) {publicName : String} (h : isIdentifier publicName = true) :
    isIdentifier (p.renamed publicName) = true := by
  have htargets : ∀ e ∈ p.renames.entries, isIdentifier e.2 = true := by
    unfold validate at hp
    split at hp
    · cases hp
    · next hfind => simpa using List.find?_eq_none.1 hfind
  unfold renamed
  cases hget : p.renames.get? publicName with
  | none => exact h
  | some target =>
    obtain ⟨before, after, hentries, -⟩ := List.lookup_eq_some_iff.1 hget
    exact htargets (publicName, target) (by simp [hentries])

theorem isName_functionName (hp : p.validate = .ok ()) {publicName : String} (h : isIdentifier publicName = true) :
    IsName (p.functionName publicName) :=
  isName_escapeKeyword (isIdentifier_renamed hp h)

end NamingPolicy

/-! ### Signatures -/

section Signature

variable {d : Descriptor} {c : Convention} {naming : NamingPolicy} {s : Signature}

theorem exists_of_signature (h : d.signature c naming = .ok s) :
    ∃ ms, d.args.mapM (·.marshal c d.publicName) = .ok ms ∧
      s = ⟨naming.functionName d.publicName, ms.filterMap (·.param), ms.map (·.call), c.usesReceiver⟩ := by
  rw [Descriptor.signature_eq] at h
  obtain ⟨-, -, h⟩ := exists_of_bind_eq_ok h
  obtain ⟨ms, hms, rfl⟩ := exists_of_map_eq_ok h
  exact ⟨ms, hms, rfl⟩

theorem name_of_signature (h : d.signature c naming = .ok s) : s.name = naming.functionName d.publicName := by
  obtain ⟨ms, -, rfl⟩ := exists_of_signature h
  rfl

theorem isName_of_mem_params (hd : d.WellFormed) (h : d.signature c naming = .ok s) {p : Param} (hp : p ∈ s.params) :
    IsName p.name := by
  obtain ⟨ms, hms, rfl⟩ := exists_of_signature h
  obtain ⟨m, hm, hparam⟩ := List.mem_filterMap.1 hp
  obtain ⟨a, ha, hmarshal⟩ := exists_of_mem_of_mapM_eq_ok hms hm
  obtain ⟨k, -, rfl⟩ := marshal_eq_ok hmarshal
  split at hparam
  · cases hparam
  · obtain rfl : ⟨escapeKeyword a.name, k⟩ = p := Option.some.inj hparam
    exact isName_escapeKeyword (hd.argName a ha)

theorem toList_param (p : Param) : p.render.toList = p.name.toList ++ (": ".toList ++ p.kind.paramType.toList) := by
  have hr : p.render = p.name ++ ": " ++ p.kind.paramType := rfl
  rw [hr, String.toList_append, String.toList_append, List.append_assoc]

theorem not_mem_param {p : Param} (h : IsName p.name) {c : Char} (hc : isNameChar c = false) (hsep : c ∉ ": ".toList)
    (htype : ∀ k : ArgKind, c ∉ k.paramType.toList) : c ∉ p.render.toList := by
  rw [toList_param, List.mem_append, List.mem_append, not_or, not_or]
  exact ⟨h.not_mem hc, hsep, htype p.kind⟩

theorem oneLine_expression {param complaint : String} (hp : OneLine param) (hc : OneLine complaint) (k : ArgKind) :
    OneLine (k.expression param complaint).render := by
  have hplace : OneLine (Place.param param).render := hp
  cases k with
  | handle => exact oneLine_append.2 ⟨hplace, by decide⟩
  | float => exact oneLine_append.2 ⟨hplace, by decide⟩
  | vec2 =>
    rw [ArgKind.expression, NativeExpr.render_vec2]
    simp only [NativeExpr.render_component, oneLine_append, hplace, true_and]
    decide
  | vec3 =>
    rw [ArgKind.expression, NativeExpr.render_vec3]
    simp only [NativeExpr.render_component, oneLine_append, hplace, true_and]
    decide
  | uint =>
    rw [ArgKind.expression, NativeExpr.render_int]
    simp only [oneLine_append, hplace, hc, true_and, and_true]
    decide
  | str => exact oneLine_append.2 ⟨hplace, by decide⟩

theorem oneLine_countComplaint {function argument : String} (hf : OneLine function) (ha : OneLine argument) :
    OneLine (countComplaint function argument) := by
  have hr : countComplaint function argument = function ++ ": `" ++ argument ++ "` does not fit the native int" := rfl
  simp only [hr, oneLine_append, hf, ha, true_and, and_true]
  decide

/-- What is written between the parentheses of a declaration. -/
def Signature.paramTexts (s : Signature) : List String :=
  (if s.receiver then ["self"] else []) ++ s.params.map Param.render

theorem forall_mem_paramTexts {P : String → Prop} (hself : P "self") (hparam : ∀ p ∈ s.params, P p.render) :
    ∀ text ∈ s.paramTexts, P text := by
  intro text htext
  rcases List.mem_append.1 htext with htext | htext
  · split at htext
    · rwa [List.mem_singleton.1 htext]
    · simp at htext
  · obtain ⟨p, hp, rfl⟩ := List.mem_map.1 htext
    exact hparam p hp

theorem not_mem_paramList (hd : d.WellFormed) (h : d.signature c naming = .ok s) {x : Char} (hx : isNameChar x = false)
    (hself : x ∉ "self".toList) (hsep : x ∉ ": ".toList) (hlist : x ∉ ", ".toList)
    (htype : ∀ k : ArgKind, x ∉ k.paramType.toList) : x ∉ s.paramList.toList :=
  not_mem_intercalate hlist <| forall_mem_paramTexts hself fun _ hp =>
    not_mem_param (isName_of_mem_params hd h hp) hx hsep htype

theorem oneLine_paramList (hd : d.WellFormed) (h : d.signature c naming = .ok s) : OneLine s.paramList :=
  not_mem_paramList hd h (by decide) (by decide) (by decide) (by decide) fun k => by cases k <;> decide

theorem oneLine_callList (hd : d.WellFormed) (h : d.signature c naming = .ok s) : OneLine s.callList := by
  obtain ⟨ms, hms, rfl⟩ := exists_of_signature h
  refine oneLine_intercalate (by decide) fun text htext => ?_
  obtain ⟨e, he, rfl⟩ := List.mem_map.1 htext
  obtain ⟨m, hm, rfl⟩ := List.mem_map.1 he
  obtain ⟨a, ha, hmarshal⟩ := exists_of_mem_of_mapM_eq_ok hms hm
  obtain ⟨k, -, rfl⟩ := marshal_eq_ok hmarshal
  split
  · decide
  · have hname := hd.argName a ha
    exact oneLine_expression (isName_escapeKeyword hname).oneLine
      (oneLine_countComplaint (oneLine_of_isIdentifier hd.publicName) (oneLine_of_isIdentifier hname)) k

end Signature

/-! ### Documentation -/

/-- The comment for a line of documentation, of which the blanks at the end are lost. -/
def docLine (line : String) : String :=
  let text := String.ofList (trimEnd line.toList)
  if text.isEmpty then "    ///" else "    /// " ++ text

theorem oneLine_docLine {line : String} (h : OneLine line) : OneLine (docLine line) := by
  have htext : OneLine (String.ofList (trimEnd line.toList)) := by
    obtain ⟨b, -, hb⟩ := exists_trimEnd line.toList
    rw [oneLine_ofList]
    intro hmem
    exact h (hb ▸ List.mem_append_left b hmem)
  unfold docLine
  dsimp only
  split
  · decide
  · exact oneLine_append.2 ⟨by decide, htext⟩

theorem exists_docLine (line : String) : ∃ text, (docLine line).toList = "    ///".toList ++ text := by
  unfold docLine
  dsimp only
  split
  · exact ⟨[], by rw [List.append_nil]⟩
  · exact ⟨' ' :: (String.ofList (trimEnd line.toList)).toList, String.toList_append⟩

namespace Descriptor

variable {d : Descriptor}

/-- The lines of a function's documentation. -/
def docText (d : Descriptor) : List String := (d.doc.map splitLines).getD []

theorem oneLine_of_mem_docText {line : String} (h : line ∈ d.docText) : OneLine line := by
  unfold docText at h
  cases hdoc : d.doc with
  | none => simp [hdoc] at h
  | some doc =>
    rw [hdoc] at h
    exact oneLine_of_mem_splitLines h

theorem docLines_eq (h : d.WellFormed) : d.docLines = d.docText.map docLine := by
  unfold docLines docText
  cases hdoc : d.doc with
  | none => rfl
  | some doc =>
    obtain ⟨hne, htrim⟩ := h.doc doc hdoc
    have hne : doc.toList ≠ [] := by rwa [Ne, String.toList_eq_nil_iff]
    have hlast : doc.toList.getLast? ≠ some '\n' := by
      intro hlast
      have hblank := (trim_eq_self_iff.1 htrim).2 '\n' hlast
      revert hblank
      decide
    -- both are the comments for the lines without the blanks at their ends
    have hlines := congrArg (List.map fun (line : List Char) =>
      if (String.ofList line).isEmpty then "    ///" else "    /// " ++ String.ofList line)
      (map_trimEnd_lines hne hlast)
    simpa only [splitLines, List.map_map, Option.map_some, Option.getD_some, Function.comp_def, docLine,
      String.toList_ofList] using hlines

end Descriptor

/-! ### Wrappers -/

namespace Signature

/-- The line that declares a wrapper. -/
def declarationLine (s : Signature) : String := s!"    pub fn {s.name}({s.paramList}) -> Self \x7b"

theorem declarationLine_eq (s : Signature) :
    s.declarationLine = "    pub fn " ++ s.name ++ "(" ++ s.paramList ++ ") -> Self \x7b" := rfl

theorem exists_declarationLine (s : Signature) : ∃ text, s.declarationLine.toList = "    pub fn ".toList ++ text := by
  simp only [declarationLine_eq, String.toList_append, List.append_assoc]
  exact ⟨_, rfl⟩

end Signature

namespace Descriptor

variable {d : Descriptor} {c : Convention} {naming : NamingPolicy} {s : Signature}

/-- The line of a wrapper that calls the native function. -/
def callLine (d : Descriptor) (s : Signature) : String :=
  s!"        Self(unsafe \x7b sys::{d.rawName}({s.callList}) \x7d)"

theorem callLine_eq (d : Descriptor) (s : Signature) :
    d.callLine s = "        Self(unsafe \x7b sys::" ++ d.rawName ++ "(" ++ s.callList ++ ") \x7d)" := rfl

theorem exists_callLine (d : Descriptor) (s : Signature) :
    ∃ text, (d.callLine s).toList = List.replicate 8 ' ' ++ 'S' :: text := by
  simp only [callLine_eq, String.toList_append, List.append_assoc]
  exact ⟨_, rfl⟩

theorem wrapperLines_eq (h : d.WellFormed) (s : Signature) :
    d.wrapperLines s = d.docText.map docLine ++ [s.declarationLine, d.callLine s, "    \x7d"] := by
  rw [wrapperLines, docLines_eq h]
  rfl

theorem oneLine_declarationLine (hd : d.WellFormed) (hn : naming.validate = .ok ()) (h : d.signature c naming = .ok s) :
    OneLine s.declarationLine := by
  have hname := (NamingPolicy.isName_functionName hn hd.publicName).oneLine
  rw [← name_of_signature h] at hname
  simp only [Signature.declarationLine_eq, oneLine_append, hname, oneLine_paramList hd h, and_true]
  decide

theorem oneLine_callLine (hd : d.WellFormed) (h : d.signature c naming = .ok s) : OneLine (d.callLine s) := by
  simp only [callLine_eq, oneLine_append, oneLine_of_isIdentifier hd.rawName, oneLine_callList hd h, and_true]
  decide

end Descriptor

/-! ### Blocks -/

/-- The line that opens a block of wrappers. -/
def openingLine : String := s!"impl {treeType} \x7b"

/-- The lines of a block, below the one that opens it, for some functions with the signatures of their wrappers. -/
def blockLines (wrapped : List (Descriptor × Signature)) : List String :=
  wrapped.flatMap (fun (d, s) => "" :: d.wrapperLines s) ++ ["\x7d"]

section Blocks

variable {wrapped : List (Descriptor × Signature)} (hd : ∀ q ∈ wrapped, q.1.WellFormed)

include hd

theorem forall_mem_blockLines {P : String → Prop} (hblank : P "") (hdoc : ∀ line, OneLine line → P (docLine line))
    (hdeclaration : ∀ q ∈ wrapped, P q.2.declarationLine) (hcall : ∀ q ∈ wrapped, P (q.1.callLine q.2))
    (hend : P "    \x7d") (hclose : P "\x7d") : ∀ l ∈ blockLines wrapped, P l := by
  intro l hl
  rcases List.mem_append.1 hl with hl | hl
  · obtain ⟨⟨d, s⟩, hq, hl⟩ := List.mem_flatMap.1 hl
    rcases List.mem_cons.1 hl with rfl | hl
    · exact hblank
    · rw [Descriptor.wrapperLines_eq (hd _ hq), List.mem_append] at hl
      rcases hl with hl | hl
      · obtain ⟨line, hline, rfl⟩ := List.mem_map.1 hl
        exact hdoc line (Descriptor.oneLine_of_mem_docText hline)
      · simp only [List.mem_cons, List.not_mem_nil, or_false] at hl
        rcases hl with rfl | rfl | rfl
        · exact hdeclaration (d, s) hq
        · exact hcall (d, s) hq
        · exact hend
  · rw [List.mem_singleton.1 hl]
    exact hclose

/-- What is read of the lines of a block, if nothing is read of documentation. -/
theorem filterMap_blockLines {β : Type} {read : String → Option β} (hblank : read "" = none)
    (hdoc : ∀ line, read (docLine line) = none) :
    (blockLines wrapped).filterMap read =
      (wrapped.flatMap fun (d, s) => [s.declarationLine, d.callLine s, "    \x7d"].filterMap read) ++
        ["\x7d"].filterMap read := by
  rw [blockLines, List.filterMap_append, List.filterMap_flatMap]
  congr 1
  refine List.flatMap_congr fun (d, s) hq => ?_
  have hdocs : (d.docText.map docLine).filterMap read = [] := by
    rw [List.filterMap_eq_nil_iff]
    intro l hl
    obtain ⟨line, -, rfl⟩ := List.mem_map.1 hl
    exact hdoc line
  dsimp only
  rw [Descriptor.wrapperLines_eq (hd _ hq), List.filterMap_cons_none hblank, List.filterMap_append, hdocs,
    List.nil_append]

end Blocks

/-! ### Units -/

namespace Module

/-- The lines of a module's unit that stand above its block. -/
def preambleLines (m : Module) (convention : Convention) (options : UnitOptions) : List String :=
  bannerLines m.name (.table options.source) options.provenance ++
    (importLines options.importRoot (m.imports convention) ++ ["", headingLine m.name])

variable {m : Module} {convention : Convention} {options : UnitOptions} {source : String}

/-- A unit is made of the signatures of the wrappers for the functions of its module. -/
theorem exists_of_assemble (h : m.assemble convention options = .ok source) :
    ∃ ss, m.functions.mapM (·.signature convention options.naming) = .ok ss ∧
      source = unlines (m.preambleLines convention options ++ openingLine :: blockLines (m.functions.zip ss)) := by
  unfold assemble at h
  obtain ⟨wrappers, hwrappers, h⟩ := exists_of_bind_eq_ok h
  obtain ⟨ss, hss, rfl⟩ := exists_of_mapM_map_eq_ok hwrappers
  refine ⟨ss, hss, ?_⟩
  rw [← Except.ok.inj h, unitLines, preambleLines, blockLines, List.flatMap_map]
  simp only [List.append_assoc, List.cons_append, List.nil_append]
  rfl

theorem WellFormed.of_mem_zip (hm : m.WellFormed) {ss : List Signature} {q : Descriptor × Signature}
    (hq : q ∈ m.functions.zip ss) : q.1.WellFormed :=
  hm.functions _ (List.of_mem_zip hq).1

section Signatures

variable {ss : List Signature} (hss : m.functions.mapM (·.signature convention options.naming) = .ok ss)

include hss

theorem signature_of_mem_zip {q : Descriptor × Signature} (hq : q ∈ m.functions.zip ss) :
    q.1.signature convention options.naming = .ok q.2 :=
  (List.forall₂_iff_zip.1 (forall₂_of_mapM_eq_ok hss)).2 hq

theorem map_functions_zip {β : Type} (f : Descriptor → β) :
    (m.functions.zip ss).map (fun q => f q.1) = m.functions.map f := by
  have hlength := (forall₂_of_mapM_eq_ok hss).length_eq
  conv_rhs => rw [← List.map_fst_zip hlength.le, List.map_map]
  rfl

theorem oneLine_of_mem_blockLines (hm : m.WellFormed) (hn : options.naming.validate = .ok ()) :
    ∀ l ∈ blockLines (m.functions.zip ss), OneLine l := by
  have hd : ∀ q ∈ m.functions.zip ss, q.1.WellFormed := fun _ => hm.of_mem_zip
  refine forall_mem_blockLines hd (by decide) (fun _ => oneLine_docLine) (fun q hq => ?_) (fun q hq => ?_) (by decide)
    (by decide)
  · exact Descriptor.oneLine_declarationLine (hd q hq) hn (signature_of_mem_zip hss hq)
  · exact Descriptor.oneLine_callLine (hd q hq) (signature_of_mem_zip hss hq)

end Signatures

end Module

end ShapeBindings
