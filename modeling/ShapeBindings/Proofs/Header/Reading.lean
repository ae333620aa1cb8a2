import ShapeBindings.Header.Reader
import ShapeBindings.Proofs.Header.Comments
import ShapeBindings.Proofs.Steps
import ShapeBindings.Proofs.Text.Search

/-!
# Reading a header, line by line

* `readRest_last`, `readRest_close`, `readRest_skip`, `readRest_section`: what reading the rest of a line does;
* `Reader.Kept`: a property that every step keeps, and so the reading of a header (`Reader.Kept.parse`);
* `readFrom n r s`: the reader after the lines of `s`, when `r` is the one after the `n` lines before.  Its equations
  (`readFrom_line`, `readFrom_append`) follow the text, and `parse_eq` says that `parse` is such a run.
-/

namespace ShapeBindings.Header

open Text

theorem ok_bind {ε α β : Type} (a : α) (f : α → Except ε β) : (Except.ok a).bind f = f a := rfl

theorem error_bind {ε α β : Type} (e : ε) (f : α → Except ε β) : (Except.error e).bind f = .error e := rfl

namespace Reader

variable {p : String} {n : Nat} {r : Reader} {s a b : List Char} {remark : Option (List Char)}
  {ended trimmed : Bool}

/-! ### What opens a declaration -/

theorem opensDeclaration_iff {s : List Char} :
    opensDeclaration s = true ↔
      ∃ c t, isBlank c = true ∧ s = declarationMarker.toList ++ c :: t := by
  unfold opensDeclaration
  split
  · next c t h =>
    rw [after?_eq_some_iff] at h
    simp [h]
  · next h =>
    simp only [Bool.false_eq_true, false_iff, not_exists, not_and]
    rintro c t - rfl
    exact h c t (after?_append _ _)

/-- A declaration opens where its marker stands before a blank and anything else. -/
theorem opensDeclaration_trim {c : Char} {u : List Char} (ha : Blanks a) (hc : isBlank c = true) (hu : ¬ Blanks u) :
    opensDeclaration (trim (a ++ (declarationMarker.toList ++ c :: u))) = true := by
  have hstart : trimStart (declarationMarker.toList ++ c :: u) = declarationMarker.toList ++ c :: u := rfl
  rw [trim_blanks_append ha, trim, hstart, trimEnd_append_of_not_blanks _ fun hb => hu (blanks_cons.1 hb).2,
    trimEnd_cons_of_not_blanks hu]
  exact opensDeclaration_iff.2 ⟨c, trimEnd u, hc, rfl⟩

theorem exists_opening (h : opensDeclaration (trim s) = true) :
    ∃ a c u, Blanks a ∧ isBlank c = true ∧ ¬ Blanks u ∧ s = a ++ (declarationMarker.toList ++ c :: u) := by
  obtain ⟨c, u, hc, hs⟩ := opensDeclaration_iff.1 h
  obtain ⟨a, b, ha, hb, htrim⟩ := exists_trim s
  rw [hs] at htrim
  refine ⟨a, c, u ++ b, ha, hc, fun hub => ?_, by rw [htrim]; simp⟩
  -- the trimmed text does not end with a blank
  have hcu : Blanks (c :: u) := blanks_cons.2 ⟨hc, (blanks_append.1 hub).1⟩
  obtain ⟨x, d, hx⟩ : ∃ x d, c :: u = x ++ [d] :=
    ⟨_, _, (List.dropLast_concat_getLast (List.cons_ne_nil c u)).symm⟩
  rw [hx, ← List.append_assoc] at hs
  have hd := isBlank_last_of_trimEnd hs
  rw [hcu d (by simp [hx])] at hd
  cases hd

theorem opensDeclaration_eq_false {s : List Char} (h : s.head? ≠ some 'L') :
    opensDeclaration s = false := by
  rw [← Bool.not_eq_true, opensDeclaration_iff]
  rintro ⟨c, t, -, rfl⟩
  exact h rfl

theorem after?_sectionMarker_eq_none {s : List Char} (h : s.head? ≠ some 'L') :
    after? sectionMarker.toList s = none := by
  rw [Option.eq_none_iff_forall_ne_some]
  intro t ht
  rw [after?_eq_some_iff.1 ht] at h
  exact h rfl

/-- The two markers differ. -/
theorem after?_sectionMarker_of_opensDeclaration (h : opensDeclaration s = true) :
    after? sectionMarker.toList s = none := by
  obtain ⟨c, t, -, rfl⟩ := opensDeclaration_iff.1 h
  rfl

theorem continuation_eq_none_iff {piece code : List Char} :
    r.continuation n trimmed piece code = none ↔ r.pending = none ∧ opensDeclaration code = false := by
  unfold continuation
  split
  · next d h => simp [h]
  · next h =>
    by_cases ho : opensDeclaration code <;> simp [h, ho]

theorem continuation_pending {d : OpenDeclaration} (h : r.pending = some d) (piece code : List Char) :
    r.continuation n trimmed piece code = some ⟨d, piece, trimmed⟩ := by
  simp [continuation, h]

theorem continuation_opening {code : List Char} (h : r.pending = none) (ho : opensDeclaration code = true)
    (piece : List Char) :
    r.continuation n trimmed piece code =
      some ⟨{ line := n }, (trimStart piece).drop declarationMarker.length, true⟩ := by
  simp [continuation, h, ho]

theorem opensDeclaration_of_continuation {piece code : List Char} {c : Continuation} (hp : r.pending = none)
    (h : r.continuation n trimmed piece code = some c) : opensDeclaration code = true := by
  rw [← Bool.not_eq_false]
  intro ho
  rw [continuation_eq_none_iff.2 ⟨hp, ho⟩] at h
  cases h

/-! ### The rest of a line -/

/-- Reads the rest of a line. -/
def readRest (p : String) (n : Nat) (s : List Char) (r : Reader) (remark : Option (List Char))
    (ended trimmed : Bool) : Except HeaderError Reader :=
  readPieces p n (s.splitOn ';') r remark ended trimmed

theorem readLine_eq (p : String) (r : Reader) (l : Line) :
    readLine p r l = readRest p l.number l.code r l.remark false false := rfl

/-- A declaration goes on after the line. -/
theorem readRest_last {c : Continuation} (hs : ';' ∉ s)
    (hc : r.continuation n trimmed s (trim s) = some c) :
    readRest p n s r remark ended trimmed =
      .ok { r with pending := some (c.declaration.extend
        (if c.trimmed then trimEnd c.piece else c.piece) remark) } := by
  unfold readRest
  rw [List.splitOn_eq_singleton hs, readPieces]
  simp only [List.intercalate_singleton, hc]
  rfl

/-- A declaration ends at the first semicolon. -/
theorem readRest_close {c : Continuation} (ha : ';' ∉ a)
    (hc : r.continuation n trimmed a (trim (a ++ ';' :: b)) = some c) :
    readRest p n (a ++ ';' :: b) r remark ended trimmed =
      (r.close p (c.declaration.extend c.piece remark)).bind fun r =>
        readRest p n b r none true c.trimmed := by
  have he : (b.splitOn ';').isEmpty = false := by
    rw [List.isEmpty_eq_false_iff]
    exact List.splitOn_ne_nil _ _
  have hi : [';'].intercalate (a :: b.splitOn ';') = a ++ ';' :: b := by
    rw [← List.splitOn_append_cons_self_of_not_mem ha, List.intercalate_splitOn]
  unfold readRest
  rw [List.splitOn_append_cons_self_of_not_mem ha, readPieces]
  simp only [hi, hc, he, Bool.false_eq_true, if_false]
  rfl

theorem readRest_none (hp : r.pending = none) (ho : opensDeclaration (trim s) = false) :
    readRest p n s r remark ended trimmed =
      match after? sectionMarker.toList (trim s) with
      | some text => r.openSection n text
      | none =>
        if ended && !(trim s).isEmpty then .error ⟨n, .trailingText (String.ofList (trim s))⟩
        else .ok r := by
  unfold readRest
  obtain ⟨piece, later, h⟩ := List.exists_cons_of_ne_nil (List.splitOn_ne_nil ';' s)
  have hi : [';'].intercalate (piece :: later) = s := by rw [← h, List.intercalate_splitOn]
  rw [h, readPieces]
  simp only [hi, continuation_eq_none_iff.2 ⟨hp, ho⟩]
  cases after? sectionMarker.toList (trim s) with
  | some text => rfl
  | none =>
    simp only
    split <;> rfl

/-- A text that is no marker takes up the rest of its line, unless a declaration ends before it. -/
theorem readRest_skip (hp : r.pending = none) (ho : opensDeclaration (trim s) = false)
    (hs : after? sectionMarker.toList (trim s) = none) (he : ended = false ∨ Blanks s) :
    readRest p n s r remark ended trimmed = .ok r := by
  rw [readRest_none hp ho, hs]
  obtain rfl | hb := he
  · rfl
  · simp [trim_eq_nil_iff.2 hb]

theorem readRest_section {text : List Char} (hp : r.pending = none)
    (hs : after? sectionMarker.toList (trim s) = some text) :
    readRest p n s r remark ended trimmed = r.openSection n text := by
  have ho : opensDeclaration (trim s) = false := by
    rw [← Bool.not_eq_true]
    intro h
    rw [after?_sectionMarker_of_opensDeclaration h] at hs
    cases hs
  rw [readRest_none hp ho, hs]

theorem readRest_blanks (hp : r.pending = none) (hs : Blanks s) :
    readRest p n s r remark ended trimmed = .ok r := by
  have h := trim_eq_nil_iff.2 hs
  refine readRest_skip hp ?_ ?_ (.inr hs) <;> rw [h] <;> rfl

/-! ### Sections and ends of declarations -/

theorem exists_of_openSection {r' : Reader} {text : List Char} (h : r.openSection n text = .ok r') :
    ∃ name, isIdentifier name = true ∧ r' = { r with table := r.table.ensure name, current := some (name, n) } := by
  unfold openSection at h
  dsimp only at h
  split at h
  · cases h
  · next inner _ _ =>
    cases hi : isIdentifier (String.ofList (trim inner)) with
    | false => simp [hi, throw, throwThe, MonadExceptOf.throw, bind, Except.bind] at h
    | true =>
      simp only [hi, Bool.not_true, Bool.false_eq_true, if_false] at h
      cases h
      exact ⟨_, hi, rfl⟩

theorem exists_of_close {r' : Reader} {d : OpenDeclaration} (h : r.close p d = .ok r') :
    ∃ name line descriptor, r.current = some (name, line) ∧ declaration p name d.doc d.text = .ok descriptor ∧
      r' = { r with table := r.table.push descriptor, pending := none } := by
  unfold close at h
  split at h
  · cases h
  · next name line hcurrent =>
    split at h
    · next descriptor hd =>
      cases h
      exact ⟨name, line, descriptor, hcurrent, hd, rfl⟩
    · cases h

/-! ### What every step keeps -/

/-- A property that is kept where a declaration goes on, where a section opens and where a declaration ends. -/
structure Kept (p : String) (P : Reader → Prop) : Prop where
  goOn : ∀ r d, P r → P { r with pending := d }
  openSection : ∀ r name n, P r → isIdentifier name = true →
    P { r with table := r.table.ensure name, current := some (name, n) }
  close : ∀ r name n d descriptor, P r → r.current = some (name, n) →
    declaration p name (OpenDeclaration.doc d) d.text = .ok descriptor →
      P { r with table := r.table.push descriptor, pending := none }

theorem Kept.readPieces {P : Reader → Prop} (hP : Kept p P) {pieces : List (List Char)} {r' : Reader} (hr : P r)
    (h : readPieces p n pieces r remark ended trimmed = .ok r') : P r' := by
  induction pieces generalizing r remark ended trimmed with
  | nil =>
    cases h
    exact hr
  | cons piece later ih =>
    rw [Reader.readPieces] at h
    dsimp only at h
    split at h
    · split at h
      · cases h
        exact hP.goOn r _ hr
      · obtain ⟨r₁, hclose, h⟩ := exists_of_bind_eq_ok h
        obtain ⟨name, line, descriptor, hcurrent, hd, rfl⟩ := exists_of_close hclose
        exact ih (hP.close r name line _ descriptor hr hcurrent hd) h
    · split at h
      · obtain ⟨name, hname, rfl⟩ := exists_of_openSection h
        exact hP.openSection r name n hr hname
      · split at h
        · cases h
        · cases h
          exact hr

theorem Kept.parse {P : Reader → Prop} (hP : Kept p P) (hstart : P {}) {text : String} {t : Table}
    (h : parse p text = .ok t) : ∃ r, P r ∧ r.table = t := by
  unfold Header.parse at h
  obtain ⟨r, hr, h⟩ := exists_of_bind_eq_ok h
  refine ⟨r, foldlM_invariant (fun _ line _ => hP.readPieces (n := line.number)) hstart hr, ?_⟩
  unfold finish at h
  split at h
  · cases h
  · cases h
    rfl

/-! ### Lines -/

end Reader

theorem Line.ofText_of_slash_not_mem {s : List Char} (h : '/' ∉ s) (n : Nat) :
    Line.ofText n s = ⟨n, s, none⟩ := by
  simp [Line.ofText, cutAt_eq_none h]

theorem Line.ofText_remark {a : List Char} (h : '/' ∉ a) (n : Nat) (x : List Char) :
    Line.ofText n (a ++ '/' :: '/' :: x) =
      ⟨n, a, if (trim x).isEmpty then none else some (trim x)⟩ := by
  have : cutAt ['/', '/'] (a ++ '/' :: '/' :: x) = some (a, x) := cutAt_append h ['/'] x
  simp [Line.ofText, this]

theorem Line.number_ofText (n : Nat) (text : List Char) : (Line.ofText n text).number = n := by
  unfold Line.ofText
  split <;> rfl

/-- The lines of a text, numbered on from `n`. -/
def numbered (n : Nat) (ls : List (List Char)) : List Line :=
  (ls.zipIdx n).map fun (line, i) => .ofText (i + 1) line

theorem numbered_append (n : Nat) (ls ms : List (List Char)) :
    numbered n (ls ++ ms) = numbered n ls ++ numbered (n + ls.length) ms := by
  simp [numbered, List.zipIdx_append]

theorem numbered_cons (n : Nat) (l : List Char) (ls : List (List Char)) :
    numbered n (l :: ls) = .ofText (n + 1) l :: numbered (n + 1) ls := rfl

section Run

variable {p : String}

/-- Reads the lines of a text in which block comments are blank, after `n` lines before it. -/
def readFrom (p : String) (n : Nat) (r : Reader) (s : List Char) : Except HeaderError Reader :=
  (numbered n (lines s)).foldlM (Reader.readLine p) r

theorem parse_eq (p : String) (s : List Char) :
    parse p (String.ofList s) = (readFrom p 0 {} (blankComments false s)).bind Reader.finish := by
  simp only [parse, linesOf, String.toList_ofList]
  rfl

theorem Reader.Kept.readFrom {P : Reader → Prop} (hP : Kept p P) {n : Nat} {r r' : Reader} (hr : P r) {s : List Char}
    (h : readFrom p n r s = .ok r') : P r' :=
  foldlM_invariant (fun _ line _ => hP.readPieces (n := line.number)) hr h

theorem readFrom_nil (n : Nat) (r : Reader) : readFrom p n r [] = .ok r := rfl

theorem readFrom_line {a : List Char} (ha : '\n' ∉ a) (n : Nat) (r : Reader) (b : List Char) :
    readFrom p n r (a ++ '\n' :: b) =
      (r.readLine p (.ofText (n + 1) (chomp a))).bind fun r => readFrom p (n + 1) r b := by
  rw [readFrom, lines_append_newline ha, numbered_cons, List.foldlM_cons]
  rfl

theorem readFrom_last {a : List Char} (ha : '\n' ∉ a) (hne : a ≠ []) (n : Nat) (r : Reader) :
    readFrom p n r a = r.readLine p (.ofText (n + 1) a) := by
  rw [readFrom, lines_eq_singleton ha hne, numbered_cons, List.foldlM_cons]
  cases r.readLine p (.ofText (n + 1) a) <;> rfl

theorem readFrom_append {u : List Char} (hu : Ended u) (n : Nat) (r : Reader) (v : List Char) :
    readFrom p n r (u ++ v) =
      (readFrom p n r u).bind fun r => readFrom p (n + (lines u).length) r v := by
  rw [readFrom, lines_append hu, numbered_append, List.foldlM_append]
  rfl

end Run

end ShapeBindings.Header
