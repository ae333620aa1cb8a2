import ShapeBindings.Proofs.Header.Declarations
import ShapeBindings.Proofs.Header.Visible
import ShapeBindings.Proofs.Text.Words

/-!
# Lines with the same words

Headers whose lines have the same words, remarks and semicolons, but other blanks, are read alike.

* `Reader.Alike key r r'`: the two readers know the same, but for the blanks in a declaration that has not ended; their
  lines are looked at through `key` only, which may keep or forget the numbers;
* `sameOutcome_readRest`: the step, from the rest of a line to the reader after it;
* `sameOutcome_readLines`: the run, from some lines to the reader after them.
-/

namespace ShapeBindings.Header

open Text Reader

/-! ### Readers that know the same -/

section Definitions

variable {κ : Type} (key : Nat → κ)

/-- The same remarks and the same words, and lines that look the same. -/
structure OpenDeclaration.Alike (d d' : OpenDeclaration) : Prop where
  line : key d.line = key d'.line
  text : words d.text = words d'.text
  remarks : d.remarks = d'.remarks

/-- The same table and section, and declarations that are alike. -/
structure Reader.Alike (r r' : Reader) : Prop where
  table : r.table = r'.table
  current : r.current.map Prod.fst = r'.current.map Prod.fst
  pending : Option.Rel (OpenDeclaration.Alike key) r.pending r'.pending

/-- Lines with the same words and the same remark, and numbers that look the same. -/
structure Line.Alike (l l' : Line) : Prop where
  number : key l.number = key l'.number
  code : words l.code = words l'.code
  remark : l.remark = l'.remark

/-- Errors on lines that look the same, or results that are related. -/
inductive SameOutcome {α β : Type} (R : α → β → Prop) : Except HeaderError α → Except HeaderError β → Prop
  | error {e e' : HeaderError} (h : key e.line = key e'.line) : SameOutcome R (.error e) (.error e')
  | ok {a : α} {b : β} (h : R a b) : SameOutcome R (.ok a) (.ok b)

end Definitions

variable {κ : Type} {key : Nat → κ} {p : String} {n n' : Nat} {r r' : Reader} {d d' : OpenDeclaration}
  {s s' a a' t t' : List Char} {remark : Option (List Char)} {trimmed trimmed' : Bool}

namespace SameOutcome

variable {α β γ δ : Type} {R : α → β → Prop} {S : γ → δ → Prop}

theorem bind {x : Except HeaderError α} {y : Except HeaderError β} (h : SameOutcome key R x y)
    {f : α → Except HeaderError γ} {g : β → Except HeaderError δ} (hfg : ∀ a b, R a b → SameOutcome key S (f a) (g b)) :
    SameOutcome key S (x.bind f) (y.bind g) := by
  cases h with
  | error h => exact .error h
  | ok h => exact hfg _ _ h

theorem mapError_eq {x y : Except HeaderError α} (h : SameOutcome key Eq x y) :
    x.mapError (key ·.line) = y.mapError (key ·.line) := by
  cases h with
  | error h => exact congrArg Except.error h
  | ok h => exact congrArg Except.ok h

end SameOutcome

theorem OpenDeclaration.Alike.refl (key : Nat → κ) (d : OpenDeclaration) : d.Alike key d := ⟨rfl, rfl, rfl⟩

theorem Reader.Alike.refl (key : Nat → κ) (r : Reader) : r.Alike key r := by
  refine ⟨rfl, rfl, ?_⟩
  cases r.pending with
  | none => exact .none
  | some d => exact .some (.refl key d)

theorem OpenDeclaration.Alike.extend (h : d.Alike key d') (hpiece : words a = words a')
    (remark : Option (List Char)) : (d.extend a remark).Alike key (d'.extend a' remark) where
  line := h.line
  text := by
    have hblank : isBlank ' ' = true := by decide
    rw [OpenDeclaration.extend, OpenDeclaration.extend, words_append_blank hblank, words_append_blank hblank, h.text,
      hpiece]
  remarks := congrArg (· ++ remark.toList) h.remarks

theorem Reader.Alike.setPending (h : r.Alike key r') (hd : d.Alike key d') :
    Reader.Alike key { r with pending := some d } { r' with pending := some d' } :=
  ⟨h.table, h.current, .some hd⟩

theorem Reader.Alike.exists_pending (h : r.Alike key r') (hp : r.pending = some d) :
    ∃ d', r'.pending = some d' ∧ d.Alike key d' := by
  have hpending := h.pending
  rw [hp] at hpending
  cases hr' : r'.pending with
  | none =>
    rw [hr'] at hpending
    cases hpending
  | some d' =>
    rw [hr'] at hpending
    cases hpending with
    | some hd => exact ⟨d', rfl, hd⟩

theorem Reader.Alike.pending_eq_none (h : r.Alike key r') (hp : r.pending = none) : r'.pending = none := by
  have hpending := h.pending
  rw [hp] at hpending
  cases hr' : r'.pending with
  | none => rfl
  | some d' =>
    rw [hr'] at hpending
    cases hpending

/-! ### What only depends on words -/

theorem declaration_words (m doc : String) (h : words s = words t) :
    (declaration p m doc s).toOption = (declaration p m doc t).toOption := by
  have htrim : ∀ s, declaration p m doc (trim s) = declaration p m doc s := fun s => by
    rw [declaration_eq, trim_trim, ← declaration_eq]
  rw [← htrim s, ← htrim t, ← declaration_squeeze p m doc false, words_eq_iff.1 h, declaration_squeeze]

theorem opensDeclaration_squeeze (s : List Char) : opensDeclaration (squeeze false s) = opensDeclaration s := by
  unfold opensDeclaration
  rw [after?_squeeze (forall_mem_of_all (by decide))]
  cases after? declarationMarker.toList s with
  | none => rfl
  | some rest =>
    cases rest with
    | nil => rfl
    | cons c rest =>
      rw [Option.map_some]
      by_cases hc : isBlank c
      · rw [squeeze_false_cons_of_blank hc]
        simp only [hc]
        decide
      · rw [squeeze_cons_of_not_blank (by simpa using hc)]

theorem opensDeclaration_words (h : words s = words t) : opensDeclaration (trim s) = opensDeclaration (trim t) := by
  rw [← opensDeclaration_squeeze, words_eq_iff.1 h, opensDeclaration_squeeze]

theorem isEmpty_trim_words (h : words s = words t) : (trim s).isEmpty = (trim t).isEmpty := by
  rw [Bool.eq_iff_iff, List.isEmpty_iff, List.isEmpty_iff, trim_eq_nil_iff, trim_eq_nil_iff, ← words_eq_nil_iff, h,
    words_eq_nil_iff]

theorem eq_of_isIdentifier_squeeze (hs : isIdentifier (String.ofList s) = true) (ht : isIdentifier (String.ofList t) = true)
    (h : squeeze false s = squeeze false t) : s = t := by
  -- an identifier has no blanks to squeeze
  have hkeep : ∀ u, isIdentifier (String.ofList u) = true → squeeze false u = u := fun u hu =>
    squeeze_eq_self (fun c hc => isBlank_of_isIdentifierPart (isIdentifierPart_of_mem hu (by simpa using hc))) false
  rwa [hkeep s hs, hkeep t ht] at h

/-- What stands between the parentheses of a section marker. -/
theorem cutAt_parentheses_squeeze (h : squeeze false t = squeeze false t') :
    ((after? ['('] (trim t)).bind (cutAt [')'])).map (fun q => squeeze false q.1) =
      ((after? ['('] (trim t')).bind (cutAt [')'])).map fun q => squeeze false q.1 := by
  have hsqueeze : ∀ t, ((after? ['('] (trim t)).bind (cutAt [')'])).map (fun q => squeeze false q.1) =
      ((after? ['('] (trim (squeeze false t))).bind (cutAt [')'])).map Prod.fst := by
    intro t
    rw [trim_squeeze false false, after?_squeeze (forall_mem_of_all (by decide))]
    cases after? ['('] (trim t) with
    | none => rfl
    | some rest => simp [cutAt_squeeze (x := ')') (by decide) false rest, Function.comp_def]
  rw [hsqueeze, hsqueeze, h]

theorem sameOutcome_openSection (hr : r.Alike key r') (hn : key n = key n') (h : squeeze false t = squeeze false t') :
    SameOutcome key (Reader.Alike key) (r.openSection n t) (r'.openSection n' t') := by
  have hinner := cutAt_parentheses_squeeze h
  unfold openSection
  dsimp only
  cases hs : (after? ['('] (trim t)).bind (cutAt [')']) with
  | none =>
    rw [hs, Option.map_none] at hinner
    rw [Option.map_eq_none_iff.1 hinner.symm]
    exact .error hn
  | some q =>
    rw [hs, Option.map_some] at hinner
    obtain ⟨q', hq', hq⟩ := Option.map_eq_some_iff.1 hinner.symm
    rw [hq']
    obtain ⟨inner, rest⟩ := q
    obtain ⟨inner', rest'⟩ := q'
    have htrim : squeeze false (trim inner) = squeeze false (trim inner') := by
      rw [← trim_squeeze false, ← trim_squeeze false, show squeeze false inner = squeeze false inner' from hq.symm]
    have hidentifier : isIdentifier (String.ofList (trim inner)) = isIdentifier (String.ofList (trim inner')) := by
      rw [← isIdentifier_squeeze, htrim, isIdentifier_squeeze]
    dsimp only
    rw [hidentifier]
    cases hname : isIdentifier (String.ofList (trim inner')) with
    | false => exact .error hn
    | true =>
      have hsame : trim inner = trim inner' := eq_of_isIdentifier_squeeze (hidentifier.trans hname) hname htrim
      refine .ok ⟨?_, ?_, hr.pending⟩
      · dsimp only
        rw [hsame, hr.table]
      · dsimp only
        rw [hsame]
        rfl

theorem sameOutcome_close (hr : r.Alike key r') (hd : d.Alike key d') :
    SameOutcome key (Reader.Alike key) (r.close p d) (r'.close p d') := by
  have hcurrent := hr.current
  unfold close
  cases hc : r.current with
  | none =>
    rw [hc, Option.map_none] at hcurrent
    rw [Option.map_eq_none_iff.1 hcurrent.symm]
    exact .error hd.line
  | some q =>
    rw [hc, Option.map_some] at hcurrent
    obtain ⟨q', hc', hq⟩ := Option.map_eq_some_iff.1 hcurrent.symm
    obtain ⟨name, line⟩ := q
    obtain ⟨name', line'⟩ := q'
    obtain rfl : name' = name := hq
    have hdoc : d.doc = d'.doc := by rw [OpenDeclaration.doc, OpenDeclaration.doc, hd.remarks]
    have hsame := declaration_words (p := p) name' d'.doc hd.text
    rw [hc']
    dsimp only
    rw [hdoc]
    cases hdecl : declaration p name' d'.doc d.text with
    | error fault =>
      cases hdecl' : declaration p name' d'.doc d'.text with
      | error fault' => exact .error hd.line
      | ok descriptor =>
        rw [hdecl, hdecl'] at hsame
        cases hsame
    | ok descriptor =>
      rw [hdecl] at hsame
      rw [toOption_eq_some_iff.1 hsame.symm]
      refine .ok ⟨?_, rfl, .none⟩
      dsimp only
      rw [hr.table]

/-! ### One line -/

/-- What a text starts with stands before what it lacks. -/
theorem isPrefix_of_not_mem {w : List Char} {x : Char} (h : w <+: a ++ t) (ht : ∀ c ∈ t.head?, c = x) (hx : x ∉ w) :
    w <+: a := by
  rcases List.prefix_or_prefix_of_prefix h (List.prefix_append a t) with h' | ⟨z, rfl⟩
  · exact h'
  · cases z with
    | nil => exact ⟨[], by simp⟩
    | cons e z =>
      obtain ⟨v, hv⟩ := h
      rw [List.append_assoc, List.append_cancel_left_eq] at hv
      obtain rfl : e = x := ht e (by simp [← hv])
      exact absurd (List.mem_append_right a List.mem_cons_self) hx

/-- The blank behind a marker stands in the piece of the line that the marker stands in. -/
theorem words_piece (ho : opensDeclaration (trim (a ++ t)) = true) (ht : ∀ c ∈ t.head?, c = ';') :
    words ((trimStart a).drop declarationMarker.length) = (words a).tail := by
  obtain ⟨g, c, u, hg, hc, -, hsplit⟩ := exists_opening ho
  have hmarker : ';' ∉ g ++ (declarationMarker.toList ++ [c]) := by
    have hblank : ';' ≠ c := (isBlank_ne hc (by decide)).symm
    have hblanks : ';' ∉ g := hg.not_mem (by decide)
    simp [hblank, hblanks, declarationMarker]
  have hopening : g ++ (declarationMarker.toList ++ [c]) <+: a ++ t := ⟨u, by rw [hsplit]; simp⟩
  obtain ⟨v, rfl⟩ := isPrefix_of_not_mem hopening ht hmarker
  have hrun : IsRun declarationMarker.toList := ⟨by decide, forall_mem_of_all (by decide)⟩
  have htext : g ++ (declarationMarker.toList ++ [c]) ++ v = g ++ (declarationMarker.toList ++ c :: v) := by simp
  have hstart : trimStart (declarationMarker.toList ++ c :: v) = declarationMarker.toList ++ c :: v := rfl
  rw [htext, trimStart_blanks_append hg, hstart, words_blanks_append hg, words_run_append hrun (by simpa using hc)]
  rfl

/-- Readers that are alike go on with declarations that are alike, by pieces with the same words. -/
theorem exists_continuation (hr : r.Alike key r') (hn : key n = key n') (ha : words a = words a')
    (h : words (a ++ t) = words (a' ++ t')) (ht : ∀ c ∈ t.head?, c = ';') (ht' : ∀ c ∈ t'.head?, c = ';')
    (hgo : ¬ (r.pending = none ∧ opensDeclaration (trim (a ++ t)) = false)) (trimmed trimmed' : Bool) :
    ∃ c c', r.continuation n trimmed a (trim (a ++ t)) = some c ∧
      r'.continuation n' trimmed' a' (trim (a' ++ t')) = some c' ∧ c.declaration.Alike key c'.declaration ∧
      words c.piece = words c'.piece := by
  cases hp : r.pending with
  | some d =>
    obtain ⟨d', hp', hd⟩ := hr.exists_pending hp
    exact ⟨_, _, continuation_pending hp _ _, continuation_pending hp' _ _, hd, ha⟩
  | none =>
    have hp' := hr.pending_eq_none hp
    have ho : opensDeclaration (trim (a ++ t)) = true := by
      rw [← Bool.not_eq_false]
      exact fun ho => hgo ⟨hp, ho⟩
    have ho' := opensDeclaration_words h ▸ ho
    refine ⟨_, _, continuation_opening hp ho _, continuation_opening hp' ho' _, ⟨hn, rfl, rfl⟩, ?_⟩
    dsimp only
    rw [words_piece ho ht, words_piece ho' ht', ha]

/-- What a declaration that goes on gets from its line. -/
theorem words_lastPiece (c : Continuation) : words (if c.trimmed then trimEnd c.piece else c.piece) = words c.piece := by
  split
  · exact words_trimEnd _
  · rfl

theorem sameOutcome_readRest_none (hr : r.Alike key r') (hn : key n = key n') (h : words s = words s')
    (hp : r.pending = none) (ho : opensDeclaration (trim s) = false) (remark remark' : Option (List Char))
    (ended trimmed trimmed' : Bool) :
    SameOutcome key (Reader.Alike key) (readRest p n s r remark ended trimmed)
      (readRest p n' s' r' remark' ended trimmed') := by
  have hmarker : (after? sectionMarker.toList (trim s)).map (squeeze false) =
      (after? sectionMarker.toList (trim s')).map (squeeze false) := by
    have hblank : ∀ c ∈ sectionMarker.toList, isBlank c = false := forall_mem_of_all (by decide)
    rw [← after?_squeeze hblank, words_eq_iff.1 h, after?_squeeze hblank]
  rw [readRest_none hp ho, readRest_none (hr.pending_eq_none hp) (opensDeclaration_words h ▸ ho),
    ← isEmpty_trim_words h]
  cases hs : after? sectionMarker.toList (trim s) with
  | some text =>
    rw [hs, Option.map_some] at hmarker
    obtain ⟨text', hs', htext⟩ := Option.map_eq_some_iff.1 hmarker.symm
    rw [hs']
    exact sameOutcome_openSection hr hn htext.symm
  | none =>
    rw [hs, Option.map_none] at hmarker
    rw [Option.map_eq_none_iff.1 hmarker.symm]
    dsimp only
    split
    · exact .error hn
    · exact .ok hr

/-- The rest of a line is read alike if its words are the same. -/
theorem sameOutcome_readRest (hr : r.Alike key r') (hn : key n = key n') (h : words s = words s')
    (remark : Option (List Char)) (ended trimmed trimmed' : Bool) :
    SameOutcome key (Reader.Alike key) (readRest p n s r remark ended trimmed)
      (readRest p n' s' r' remark ended trimmed') := by
  induction hl : s.length using Nat.strong_induction_on generalizing s s' r r' remark ended trimmed trimmed' with
  | _ l ih =>
    by_cases hnone : r.pending = none ∧ opensDeclaration (trim s) = false
    · exact sameOutcome_readRest_none hr hn h hnone.1 hnone.2 _ _ _ _ _
    by_cases hsemi : ';' ∈ s
    · obtain ⟨a, b, rfl, ha⟩ := List.eq_append_cons_of_mem hsemi
      obtain ⟨a', b', rfl, ha', hwords, hrest⟩ := exists_cut_of_words (by decide) ha h
      obtain ⟨c, c', hc, hc', hd, hpiece⟩ :=
        exists_continuation hr hn hwords h (by simp) (by simp) hnone trimmed trimmed'
      rw [readRest_close ha hc, readRest_close ha' hc']
      refine (sameOutcome_close hr (hd.extend hpiece remark)).bind fun r r' hr => ?_
      have hb : b.length < l := by rw [← hl, List.length_append, List.length_cons]; omega
      exact ih b.length hb hr hrest none true c.trimmed c'.trimmed rfl
    · have hsemi' : ';' ∉ s' := by
        intro hmem
        obtain ⟨u, v, rfl, hu⟩ := List.eq_append_cons_of_mem hmem
        obtain ⟨a, b, rfl, -⟩ := exists_cut_of_words (by decide) hu h.symm
        exact hsemi (by simp)
      have hnil : words (s ++ []) = words (s' ++ []) := by simpa using h
      rw [← List.append_nil s] at hnone
      obtain ⟨c, c', hc, hc', hd, hpiece⟩ :=
        exists_continuation hr hn h hnil (by simp) (by simp) hnone trimmed trimmed'
      rw [List.append_nil] at hc hc'
      rw [readRest_last hsemi hc, readRest_last hsemi' hc']
      refine .ok (hr.setPending (hd.extend ?_ remark))
      rw [words_lastPiece, words_lastPiece, hpiece]

theorem sameOutcome_readLine {l l' : Line} (hr : r.Alike key r') (hl : l.Alike key l') :
    SameOutcome key (Reader.Alike key) (r.readLine p l) (r'.readLine p l') := by
  rw [readLine_eq, readLine_eq, hl.remark]
  exact sameOutcome_readRest hr hl.number hl.code _ _ _ _

/-! ### All lines -/

theorem sameOutcome_readLines {ls ls' : List Line} (hl : List.Forall₂ (Line.Alike key) ls ls') (hr : r.Alike key r') :
    SameOutcome key (Reader.Alike key) (ls.foldlM (readLine p) r) (ls'.foldlM (readLine p) r') := by
  induction hl generalizing r r' with
  | nil => exact .ok hr
  | cons h _ ih =>
    rw [List.foldlM_cons, List.foldlM_cons]
    exact (sameOutcome_readLine hr h).bind fun r r' hr => ih hr

theorem remark_ofText (n n' : Nat) (y : List Char) : (Line.ofText n y).remark = (Line.ofText n' y).remark := by
  unfold Line.ofText
  split <;> rfl

/-- The same lines, counted from places that look the same. -/
theorem forall₂_numbered (h : ∀ i, key (n + i) = key (n' + i)) (ls : List (List Char)) :
    List.Forall₂ (Line.Alike key) (numbered n ls) (numbered n' ls) := by
  induction ls generalizing n n' with
  | nil => exact .nil
  | cons l ls ih =>
    have hnext : ∀ i, key (n + 1 + i) = key (n' + 1 + i) := fun i => by
      rw [Nat.add_right_comm, Nat.add_right_comm n', Nat.add_assoc, Nat.add_assoc n', h]
    have hcode : (Line.ofText (n + 1) l).code = (Line.ofText (n' + 1) l).code := by rw [code_ofText, code_ofText]
    rw [numbered_cons, numbered_cons]
    exact .cons ⟨by rw [Line.number_ofText, Line.number_ofText, h], by rw [hcode], remark_ofText _ _ l⟩ (ih hnext)

theorem sameOutcome_readFrom (h : ∀ i, key (n + i) = key (n' + i)) (hr : r.Alike key r') (s : List Char) :
    SameOutcome key (Reader.Alike key) (readFrom p n r s) (readFrom p n' r' s) :=
  sameOutcome_readLines (forall₂_numbered h (lines s)) hr

theorem sameOutcome_finish (h : r.Alike key r') : SameOutcome key Eq r.finish r'.finish := by
  unfold finish
  cases hp : r.pending with
  | none =>
    rw [h.pending_eq_none hp]
    exact .ok h.table
  | some d =>
    obtain ⟨d', hp', hd⟩ := h.exists_pending hp
    rw [hp']
    exact .error hd.line

end ShapeBindings.Header
