import ShapeBindings.Proofs.Unit.Lines

/-!
# What units declare and call

* `blockOf s`: the lines of a text below the last one that opens a block;
* `calledSymbols s`: the symbols that are called on these lines;
* `declaredWrappers s`: the names of the wrappers that are declared there, each with those of its parameters.

What is read of a unit is read whatever the labels in its preamble are, which may have lines of their own.
-/

namespace ShapeBindings

open Text

/-! ### Readers -/

/-- The lines of a text below the last one that opens a block. -/
def blockOf (source : String) : List String :=
  ((splitLines source).reverse.takeWhile (· ≠ openingLine)).reverse

/-- The symbol that a line calls, if it calls one. -/
def calledSymbol? (line : String) : Option String :=
  ((after? "        Self(unsafe \x7b sys::".toList line.toList).or
      (after? "        Ok(Self(unsafe \x7b sys::".toList line.toList)).map fun rest =>
    String.ofList (rest.takeWhile (· ≠ '('))

/-- The symbols that a unit calls. -/
def calledSymbols (source : String) : List String := (blockOf source).filterMap calledSymbol?

/-- The name that stands before a colon. -/
def nameBefore? (text : List Char) : Option String := (cutAt [':'] text).map (String.ofList ·.1)

/-- The name of the wrapper that a line declares, if it declares one, and the names of its parameters. -/
def declaredWrapper? (line : String) : Option (String × List String) := do
  let rest ← after? "    pub fn ".toList line.toList
  let (name, rest) ← cutAt ['('] rest
  let (params, _) ← cutAt [')'] rest
  return (String.ofList name, ((params.splitOn ',').map trimStart).filterMap nameBefore?)

/-- The names of the wrappers that a unit declares, each with those of its parameters. -/
def declaredWrappers (source : String) : List (String × List String) := (blockOf source).filterMap declaredWrapper?

/-! ### Blocks -/

theorem blockOf_unlines {above block : List String} (hblock : ∀ l ∈ block, OneLine l) (hopening : openingLine ∉ block) :
    blockOf (unlines (above ++ openingLine :: block)) = block ++ [""] := by
  have hsplit : splitLines openingLine = [openingLine] := splitLines_of_oneLine (by decide)
  have hkept : ∀ l ∈ (block ++ [""]).reverse, decide (l ≠ openingLine) = true := by
    intro l hl
    rw [decide_eq_true_eq]
    rintro rfl
    rw [List.mem_reverse, List.mem_append] at hl
    rcases hl with hl | hl
    · exact hopening hl
    · revert hl
      decide
  rw [blockOf, splitLines_unlines, List.flatMap_append, List.flatMap_cons, hsplit, flatMap_splitLines hblock,
    List.append_assoc, List.append_assoc, List.singleton_append, List.reverse_append, List.reverse_cons,
    List.append_assoc, List.takeWhile_append_of_pos hkept, List.singleton_append,
    List.takeWhile_cons_of_neg (by simp), List.append_nil, List.reverse_reverse]

section Blocks

variable {wrapped : List (Descriptor × Signature)} (hd : ∀ q ∈ wrapped, q.1.WellFormed)

include hd

theorem openingLine_not_mem_blockLines : openingLine ∉ blockLines wrapped := by
  have hhead : ∀ l ∈ blockLines wrapped, l.toList.head? ≠ some 'i' := by
    refine forall_mem_blockLines hd (by decide) (fun line _ => ?_) (fun q _ => ?_) (fun q _ => ?_) (by decide)
      (by decide)
    · obtain ⟨text, htext⟩ := exists_docLine line
      rw [htext]
      simp
    · obtain ⟨text, htext⟩ := q.2.exists_declarationLine
      rw [htext]
      simp
    · obtain ⟨text, htext⟩ := q.1.exists_callLine q.2
      rw [htext]
      simp
  intro hmem
  exact hhead _ hmem (by decide)

/-- What is read of a block, if one value is read of the two lines of each wrapper that hold names. -/
theorem filterMap_block {β : Type} {read : String → Option β} {value : Descriptor × Signature → β}
    (hblank : read "" = none) (hend : read "    \x7d" = none) (hclose : read "\x7d" = none)
    (hdoc : ∀ line, read (docLine line) = none)
    (hvalue : ∀ q ∈ wrapped, [q.2.declarationLine, q.1.callLine q.2].filterMap read = [value q]) :
    (blockLines wrapped ++ [""]).filterMap read = wrapped.map value := by
  have hwrapper : ∀ q ∈ wrapped, [q.2.declarationLine, q.1.callLine q.2, "    \x7d"].filterMap read = [value q] := by
    intro q hq
    have hlines : [q.2.declarationLine, q.1.callLine q.2, "    \x7d"] =
        [q.2.declarationLine, q.1.callLine q.2] ++ ["    \x7d"] := rfl
    rw [hlines, List.filterMap_append, hvalue q hq, List.filterMap_cons_none hend]
    rfl
  rw [List.filterMap_append, filterMap_blockLines hd hblank hdoc, List.filterMap_cons_none hclose,
    List.filterMap_cons_none hblank, List.map_eq_flatMap]
  simpa using List.flatMap_congr hwrapper

end Blocks

/-! ### Calls -/

theorem calledSymbol?_docLine (line : String) : calledSymbol? (docLine line) = none := by
  obtain ⟨text, htext⟩ := exists_docLine line
  rw [calledSymbol?, htext]
  rfl

theorem calledSymbol?_declarationLine (s : Signature) : calledSymbol? s.declarationLine = none := by
  obtain ⟨text, htext⟩ := s.exists_declarationLine
  rw [calledSymbol?, htext]
  rfl

theorem calledSymbol?_callLine {d : Descriptor} (hd : d.WellFormed) (s : Signature) :
    calledSymbol? (d.callLine s) = some d.rawName := by
  have hname : ∀ c ∈ d.rawName.toList, decide (c ≠ '(') = true := by
    intro c hc
    rw [decide_eq_true_eq]
    rintro rfl
    exact not_mem_of_isIdentifier hd.rawName (by decide) hc
  have htext : (d.callLine s).toList = "        Self(unsafe \x7b sys::".toList ++
      (d.rawName.toList ++ '(' :: (s.callList.toList ++ ") \x7d)".toList)) := by
    simp only [Descriptor.callLine_eq, String.toList_append, List.append_assoc]
    rfl
  rw [calledSymbol?, htext, after?_append, Option.some_or, Option.map_some, List.takeWhile_append_of_pos hname,
    List.takeWhile_cons_of_neg (by decide), List.append_nil, String.ofList_toList]

/-! ### Declarations -/

theorem declaredWrapper?_docLine (line : String) : declaredWrapper? (docLine line) = none := by
  obtain ⟨text, htext⟩ := exists_docLine line
  rw [declaredWrapper?, htext]
  rfl

/-- The names of parameters, of which the receiver is none. -/
theorem filterMap_nameBefore? {d : Descriptor} (hd : d.WellFormed) {c : Convention} {naming : NamingPolicy}
    {s : Signature} (h : d.signature c naming = .ok s) :
    ((s.paramList.toList.splitOn ',').map trimStart).filterMap nameBefore? = s.params.map Param.name := by
  have hname : ∀ p ∈ s.params, IsName p.name := fun _ => isName_of_mem_params hd h
  have hcomma : ∀ text ∈ s.paramTexts, ',' ∉ text.toList :=
    forall_mem_paramTexts (by decide) fun p hp =>
      not_mem_param (hname p hp) (by decide) (by decide) fun k => by cases k <;> decide
  have hstart : ∀ text ∈ s.paramTexts, trimStart text.toList = text.toList :=
    forall_mem_paramTexts (by decide) fun p hp => by rw [toList_param, (hname p hp).trimStart_append]
  have hself : nameBefore? "self".toList = none := by decide
  have hparam : ∀ p ∈ s.params, nameBefore? p.render.toList = some p.name := by
    intro p hp
    have hcut : cutAt [':'] (p.name.toList ++ (": ".toList ++ p.kind.paramType.toList)) =
        some (p.name.toList, ' ' :: p.kind.paramType.toList) := cutAt_append ((hname p hp).not_mem (by decide)) [] _
    rw [nameBefore?, toList_param, hcut, Option.map_some, String.ofList_toList]
  by_cases hne : s.paramTexts = []
  · have hparams : s.params = [] := List.map_eq_nil_iff.1 (List.append_eq_nil_iff.1 hne).2
    have hlist : s.paramList = "" := by rw [Signature.paramList, ← Signature.paramTexts, hne, String.intercalate_nil]
    rw [hlist, hparams]
    rfl
  · have htexts : (s.paramList.toList.splitOn ',').map trimStart = s.paramTexts.map String.toList :=
      map_trimStart_splitOn hne hcomma hstart
    have hreceiver : ((if s.receiver then ["self"] else []).map String.toList).filterMap nameBefore? = [] := by
      split
      · exact List.filterMap_cons_none hself
      · rfl
    rw [htexts, Signature.paramTexts, List.map_append, List.filterMap_append, hreceiver, List.nil_append, List.map_map,
      List.filterMap_map, ← List.filterMap_eq_map]
    exact List.filterMap_congr hparam

theorem declaredWrapper?_declarationLine {d : Descriptor} (hd : d.WellFormed) {c : Convention} {naming : NamingPolicy}
    {s : Signature} (hn : naming.validate = .ok ()) (h : d.signature c naming = .ok s) :
    declaredWrapper? s.declarationLine = some (s.name, s.params.map Param.name) := by
  have hname : '(' ∉ s.name.toList := by
    rw [name_of_signature h]
    exact (NamingPolicy.isName_functionName hn hd.publicName).not_mem (by decide)
  have hparams : ')' ∉ s.paramList.toList :=
    not_mem_paramList hd h (by decide) (by decide) (by decide) (by decide) fun k => by cases k <;> decide
  have htext : s.declarationLine.toList = "    pub fn ".toList ++
      (s.name.toList ++ (['('] ++ (s.paramList.toList ++ ([')'] ++ " -> Self \x7b".toList)))) := by
    simp only [Signature.declarationLine_eq, String.toList_append, List.append_assoc]
    rfl
  rw [declaredWrapper?, htext, after?_append]
  simp only [Option.bind_eq_bind, Option.bind_some, cutAt_append hname, cutAt_append hparams]
  rw [filterMap_nameBefore? hd h, String.ofList_toList]
  rfl

theorem declaredWrapper?_callLine (d : Descriptor) (s : Signature) : declaredWrapper? (d.callLine s) = none := by
  obtain ⟨text, htext⟩ := d.exists_callLine s
  rw [declaredWrapper?, htext]
  rfl

/-! ### Units -/

/-- The arguments that a wrapper has parameters for: all but the receiver. -/
def Descriptor.explicitArgs (d : Descriptor) (convention : Convention) : List Argument :=
  d.args.drop (if convention.usesReceiver then 1 else 0)

namespace Module

variable {m : Module} {convention : Convention} {options : UnitOptions} {source : String}

theorem exists_blockOf (hm : m.WellFormed) (hn : options.naming.validate = .ok ())
    (h : m.assemble convention options = .ok source) :
    ∃ ss, m.functions.mapM (·.signature convention options.naming) = .ok ss ∧
      blockOf source = blockLines (m.functions.zip ss) ++ [""] := by
  obtain ⟨ss, hss, rfl⟩ := exists_of_assemble h
  exact ⟨ss, hss, blockOf_unlines (oneLine_of_mem_blockLines hss hm hn)
    (openingLine_not_mem_blockLines fun _ => hm.of_mem_zip)⟩

theorem calledSymbols_of_assemble (hm : m.WellFormed) (hn : options.naming.validate = .ok ())
    (h : m.assemble convention options = .ok source) : calledSymbols source = m.functions.map (·.rawName) := by
  obtain ⟨ss, hss, hblock⟩ := exists_blockOf hm hn h
  have hd : ∀ q ∈ m.functions.zip ss, q.1.WellFormed := fun _ => hm.of_mem_zip
  rw [calledSymbols, hblock, ← map_functions_zip hss]
  refine filterMap_block hd (by decide) (by decide) (by decide) calledSymbol?_docLine fun q hq => ?_
  rw [List.filterMap_cons_none (calledSymbol?_declarationLine q.2),
    List.filterMap_cons_some (calledSymbol?_callLine (hd q hq) q.2)]
  rfl

theorem declaredWrappers_of_assemble (hm : m.WellFormed) (hn : options.naming.validate = .ok ())
    (h : m.assemble convention options = .ok source) :
    declaredWrappers source = m.functions.map fun d =>
      (options.naming.functionName d.publicName, (d.explicitArgs convention).map fun a => escapeKeyword a.name) := by
  obtain ⟨ss, hss, hblock⟩ := exists_blockOf hm hn h
  have hd : ∀ q ∈ m.functions.zip ss, q.1.WellFormed := fun _ => hm.of_mem_zip
  rw [declaredWrappers, hblock, ← map_functions_zip hss]
  refine filterMap_block hd (by decide) (by decide) (by decide) declaredWrapper?_docLine fun q hq => ?_
  have hs := signature_of_mem_zip hss hq
  have hread := declaredWrapper?_declarationLine (hd q hq) hn hs
  rw [name_of_signature hs, map_name_signature (hd q hq).index_eq hs] at hread
  rw [List.filterMap_cons_some hread, List.filterMap_cons_none (declaredWrapper?_callLine q.1 q.2)]
  rfl

end Module

/-! ### The unit that is written by hand -/

theorem calledSymbol?_ofList (s : List Char) :
    calledSymbol? (String.ofList s) =
      ((after? "        Self(unsafe \x7b sys::".toList s).or (after? "        Ok(Self(unsafe \x7b sys::".toList s)).map
        fun rest => String.ofList (rest.takeWhile (· ≠ '(')) := by
  rw [calledSymbol?, String.toList_ofList (l := s)]

theorem filterMap_textModuleLines : (textModuleLines.drop 2 ++ [""]).filterMap calledSymbol? = ["libfivestd_text"] := by
  have hbefore : ∀ l ∈ (textModuleLines.drop 2).take 9, calledSymbol? l = none := by
    simp only [textModuleLines, List.drop, List.take, List.forall_mem_cons]
    refine ⟨?_, ?_, ?_, ?_, ?_, ?_, ?_, ?_, ?_, by simp⟩ <;> exact (calledSymbol?_ofList _).trans rfl
  have hlines : textModuleLines.drop 2 ++ [""] = (textModuleLines.drop 2).take 9 ++
      ["        Ok(Self(unsafe \x7b sys::libfivestd_text(txt.as_ptr(), pos) \x7d))", "    \x7d", "\x7d", ""] := rfl
  rw [hlines, List.filterMap_append, List.filterMap_eq_nil_iff.2 hbefore, List.nil_append]
  decide +kernel

theorem calledSymbols_textUnit (options : UnitOptions) :
    calledSymbols (textUnit options).source = ["libfivestd_text"] := by
  have hopening : openingLine = "impl Tree \x7b" := by decide
  have hlines : textModuleLines = textModuleLines.take 1 ++ openingLine :: textModuleLines.drop 2 := by
    rw [hopening]
    rfl
  have hsource : (textUnit options).source =
      unlines ((bannerLines textModuleName .template options.provenance ++
        (importLines options.importRoot ["sys", treeType, "TreeVec2"] ++ "" :: textModuleLines.take 1)) ++
          openingLine :: textModuleLines.drop 2) := by
    conv_lhs => rw [textUnit, hlines]
    simp only [List.append_assoc, List.cons_append]
  have honeLine : ∀ l ∈ textModuleLines.drop 2, OneLine l := by
    simp only [textModuleLines, List.drop, List.forall_mem_cons]
    refine ⟨?_, ?_, ?_, ?_, ?_, ?_, ?_, ?_, ?_, ?_, ?_, ?_, by simp⟩ <;> exact oneLine_ofList.2 (by decide)
  have hblock : openingLine ∉ textModuleLines.drop 2 := by decide +kernel
  rw [calledSymbols, hsource, blockOf_unlines honeLine hblock]
  exact filterMap_textModuleLines

end ShapeBindings
