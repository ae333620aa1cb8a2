import ShapeBindings.Proofs.Header.ErrorLines
import ShapeBindings.Proofs.Header.Gaps
import ShapeBindings.Proofs.Header.Multiline

/-!
# Line breaks in declarations

Whether a gap in a declaration holds a line break does not matter to the table, with two exceptions: a declaration opens
only if something follows its marker on the line, and the remark of a line goes to the first declaration on it.

* `answer_blanks_append`: blank lines change nothing;
* `answer_broken_gap`: what follows a gap with line feeds is read as if it stood on the next line;
* `sameOutcome_broken_line`: inside a declaration, what follows a gap is read on the next line as on the same one;
* `undone_of_lastLine`: a text that ends inside a declaration, behind some text after its marker, is rejected alone;
* `parse_respaced`: behind such a text the table does not depend on the gap, which may hold line breaks or not.
-/

namespace ShapeBindings.Header

open Text Reader

variable {p : String} {n n' : Nat} {r r₁ : Reader} {d : OpenDeclaration} {a b e s t u v w x y : List Char} {c : Char}
  {remark : Option (List Char)} {ended trimmed : Bool}

/-- Forgets the number of a line. -/
def anyLine : Nat → Unit := fun _ => ()

theorem anyLine_eq (m n : Nat) : anyLine m = anyLine n := rfl

/-! ### Line feeds in gaps -/

/-- A blank line is left out. -/
theorem answer_blank_row (hb : Blanks b) (hn : '\n' ∉ b) (n : Nat) (r : Reader) (v : List Char) :
    answer anyLine (readFrom p n r (b ++ '\n' :: v)) = answer anyLine (readFrom p (n + 1) r v) := by
  have hline : Line.ofText (n + 1) b = ⟨n + 1, b, none⟩ := Line.ofText_of_slash_not_mem (hb.not_mem (by decide)) _
  have hblank : SameOutcome anyLine (Reader.Alike anyLine) (r.readLine p (.ofText (n + 1) b)) (.ok r) := by
    rw [hline]
    exact sameOutcome_blank hb rfl
  rw [answer_row hn (.newline v)]
  exact answer_congr (hblank.bind fun _ _ hr => sameOutcome_readFrom (fun _ => anyLine_eq _ _) hr v)

/-- Blanks at the start of a line do not matter. -/
theorem alike_blanks_append (hb : Blanks b) (n n' : Nat) (y : List Char) :
    Line.Alike anyLine (.ofText n (b ++ y)) (.ofText n' y) := by
  by_cases hne : b = []
  · rw [hne, List.nil_append]
    exact ⟨rfl, by rw [code_ofText, code_ofText], remark_ofText n n' y⟩
  · have hgap := ofText_gap (n := n) (x := []) (by decide) hb hne y
    rw [List.nil_append] at hgap
    rw [hgap]
    refine ⟨rfl, ?_, remark_ofText n n' y⟩
    dsimp only
    rw [List.nil_append, words_blanks_append hb, code_ofText, code_ofText]

theorem answer_blanks_append (hb : Blanks b) (n n' : Nat) (r : Reader) (v : List Char) :
    answer anyLine (readFrom p n r (b ++ v)) = answer anyLine (readFrom p n' r v) := by
  induction hl : b.length using Nat.strong_induction_on generalizing b n with
  | _ l ih =>
    by_cases hn : '\n' ∈ b
    · obtain ⟨g, h, hg, rfl⟩ := exists_newline_split hn
      obtain ⟨hbg, hbh⟩ := blanks_append.1 hb
      have hlength : h.length < l := by rw [← hl, List.length_append, List.length_cons]; omega
      rw [List.append_assoc, List.cons_append, answer_blank_row hbg hg]
      exact ih _ hlength (blanks_cons.1 hbh).2 (n + 1) rfl
    · obtain ⟨y, e, s, rfl, hy, he⟩ := exists_lineEnd v
      have hline : '\n' ∉ b ++ y := by simp [hn, hy]
      rw [← List.append_assoc, answer_row hline he, answer_row hy he]
      exact answer_readLine_bind (.refl anyLine r) (alike_blanks_append hb _ _ y) (fun _ => anyLine_eq _ _) s

/-- What follows a gap with line feeds stands on the next line. -/
theorem answer_broken_gap (hx : '\n' ∉ x) (ha : Blanks a) (hn : '\n' ∈ a) (n : Nat) (r : Reader) (v : List Char) :
    answer anyLine (readFrom p n r (x ++ (a ++ v))) =
      answer anyLine ((r.readLine p (.ofText (n + 1) x)).bind fun r => readFrom p (n + 1) r v) := by
  obtain ⟨g, h, hg, rfl⟩ := exists_newline_split hn
  obtain ⟨hbg, hbh⟩ := blanks_append.1 ha
  have hrow : x ++ (g ++ '\n' :: h ++ v) = (x ++ g) ++ '\n' :: (h ++ v) := by simp
  have hline : '\n' ∉ x ++ g := by simp [hx, hg]
  rw [hrow, answer_row hline (.newline _),
    answer_readLine_bind (.refl anyLine r) (alike_append_blanks hbg rfl x) fun _ => rfl]
  exact answer_bind_congr fun r' _ => answer_blanks_append (blanks_cons.1 hbh).2 _ _ r' v

/-! ### One line or two -/

theorem opensDeclaration_trim_append (h : opensDeclaration (trim s) = true) (t : List Char) :
    opensDeclaration (trim (s ++ t)) = true := by
  obtain ⟨a, c, u, ha, hc, hu, rfl⟩ := exists_opening h
  have htext : a ++ (declarationMarker.toList ++ c :: u) ++ t = a ++ (declarationMarker.toList ++ c :: (u ++ t)) := by
    simp
  rw [htext]
  exact opensDeclaration_trim ha hc fun hb => hu (blanks_append.1 hb).1

/-- More text behind a piece does not change what it continues. -/
theorem continuation_append {x : Continuation} (h : r.continuation n trimmed a (trim s) = some x) (t : List Char) :
    r.continuation n trimmed a (trim (s ++ t)) = some x := by
  cases hp : r.pending with
  | some d => rwa [continuation_pending hp] at h ⊢
  | none =>
    have ho := opensDeclaration_of_continuation hp h
    rw [continuation_opening hp ho] at h
    rw [continuation_opening hp (opensDeclaration_trim_append ho t), h]

/-- More text in a piece is more text of what it continues. -/
theorem continuation_grow {q : Continuation} (h : r.continuation n trimmed x (trim x) = some q) (z t : List Char) :
    r.continuation n trimmed (x ++ z) (trim (x ++ z ++ t)) = some ⟨q.declaration, q.piece ++ z, q.trimmed⟩ := by
  cases hp : r.pending with
  | some d =>
    rw [continuation_pending hp] at h ⊢
    obtain rfl := Option.some.inj h
    rfl
  | none =>
    have ho := opensDeclaration_of_continuation hp h
    have ho' := opensDeclaration_trim_append ho (z ++ t)
    rw [← List.append_assoc] at ho'
    rw [continuation_opening hp ho] at h
    obtain rfl := Option.some.inj h
    obtain ⟨g, c, u, hg, hc, -, rfl⟩ := exists_opening ho
    have htext : g ++ (declarationMarker.toList ++ c :: u) ++ z = g ++ (declarationMarker.toList ++ c :: (u ++ z)) := by
      simp
    rw [continuation_opening hp ho', htext, trimStart_blanks_append hg, trimStart_blanks_append hg]
    rfl

/-- A line that leaves a declaration open goes on with one or opens one. -/
theorem exists_continuation_of_pending (h : readRest p n x r remark ended trimmed = .ok r₁) (hp : r₁.pending = some d)
    {a : List Char} : ∃ q, r.continuation n trimmed a (trim x) = some q := by
  cases hq : r.continuation n trimmed a (trim x) with
  | some q => exact ⟨q, rfl⟩
  | none =>
    obtain ⟨hr, ho⟩ := continuation_eq_none_iff.1 hq
    have hsame : r₁.pending = r.pending := by
      rw [readRest_none hr ho] at h
      split at h
      · obtain ⟨name, -, rfl⟩ := exists_of_openSection h
        rfl
      · split at h
        · cases h
        · cases h
          rfl
    rw [hsame, hr] at hp
    cases hp

theorem alike_extend_extend (d : OpenDeclaration) {q : List Char} (h : words q = words a ++ words b)
    (remark : Option (List Char)) :
    (d.extend q remark).Alike anyLine ((d.extend a none).extend b remark) where
  line := rfl
  text := by
    have hblank : isBlank ' ' = true := by decide
    change words (d.text ++ ' ' :: q) = words ((d.text ++ ' ' :: a) ++ ' ' :: b)
    rw [words_append_blank hblank, words_append_blank hblank, words_append_blank hblank, h, List.append_assoc]
  remarks := by
    simp [OpenDeclaration.extend]

/-- What follows a blank may stand on the next line, where no declaration ends before the blank. -/
theorem sameOutcome_broken_last {q : Continuation} (hx : ';' ∉ x)
    (hq : r.continuation n trimmed x (trim x) = some q) (hc : isBlank c = true) (y : List Char) :
    SameOutcome anyLine (Reader.Alike anyLine) (readRest p n (x ++ c :: y) r remark ended trimmed)
      (readRest p n' y
        { r with pending := some (q.declaration.extend (if q.trimmed then trimEnd q.piece else q.piece) none) }
        remark false false) := by
  have hcx : ';' ≠ c := (isBlank_ne hc (by decide)).symm
  by_cases hy : ';' ∈ y
  · obtain ⟨a, b, rfl, ha⟩ := List.eq_append_cons_of_mem hy
    have hgrow := continuation_grow hq (c :: a) (';' :: b)
    have htext : x ++ c :: (a ++ ';' :: b) = x ++ c :: a ++ ';' :: b := by simp
    have hpiece : ';' ∉ x ++ c :: a := by simp [hx, hcx, ha]
    rw [htext, readRest_close hpiece hgrow, readRest_close ha (continuation_pending rfl _ _), close_pending]
    refine (sameOutcome_close (.refl anyLine r) (alike_extend_extend _ ?_ remark)).bind fun _ _ hr =>
      sameOutcome_readRest hr (anyLine_eq _ _) rfl _ _ _ _
    dsimp only
    rw [words_append_blank hc, words_lastPiece]
  · have hgrow := continuation_grow hq (c :: y) []
    rw [List.append_nil] at hgrow
    have hpiece : ';' ∉ x ++ c :: y := by simp [hx, hcx, hy]
    rw [readRest_last hpiece hgrow, readRest_last hy (continuation_pending rfl _ _)]
    refine .ok ⟨rfl, rfl, .some (alike_extend_extend _ ?_ remark)⟩
    rw [words_lastPiece]
    dsimp only
    rw [words_append_blank hc, words_lastPiece]
    rfl

/-- Inside a declaration, what follows a blank may stand on the next line, unless another declaration has a part of this
line and would lose the remark. -/
theorem sameOutcome_broken_line (h : readRest p n x r none ended trimmed = .ok r₁) (hp : r₁.pending = some d)
    (hc : isBlank c = true) (hremark : ';' ∈ x → remark = none) (y : List Char) :
    SameOutcome anyLine (Reader.Alike anyLine) (readRest p n (x ++ c :: y) r remark ended trimmed)
      (readRest p n' y r₁ remark false false) := by
  induction hl : x.length using Nat.strong_induction_on generalizing x r ended trimmed with
  | _ l ih =>
    by_cases hx : ';' ∈ x
    · -- a declaration ends before the blank
      obtain ⟨a, b, rfl, ha⟩ := List.eq_append_cons_of_mem hx
      obtain ⟨q, hq⟩ := exists_continuation_of_pending (a := a) h hp
      have hmore := continuation_append hq (c :: y)
      have htext : a ++ ';' :: b ++ c :: y = a ++ ';' :: (b ++ c :: y) := by simp
      rw [htext] at hmore ⊢
      obtain rfl := hremark hx
      rw [readRest_close ha hq] at h
      rw [readRest_close ha hmore]
      obtain ⟨r₂, hclose, h⟩ := exists_of_bind_eq_ok h
      have hb : b.length < l := by rw [← hl, List.length_append, List.length_cons]; omega
      rw [hclose, ok_bind]
      exact ih b.length hb h (fun _ => rfl) rfl
    · obtain ⟨q, hq⟩ := exists_continuation_of_pending (a := x) h hp
      rw [readRest_last hx hq] at h
      cases h
      exact sameOutcome_broken_last hx hq hc y

/-- The remark on the first line of a text. -/
def firstRemark (s : List Char) : Option (List Char) := (linesOf s).head?.bind Line.remark

theorem firstRemark_eq {v : List Char} (h : blankComments false v = y ++ e) (hy : '\n' ∉ y) (he : LineEnd e s) :
    firstRemark v = (Line.ofText 1 y).remark := by
  have hlines : linesOf v = numbered 0 (lines (y ++ e)) := by rw [← h]; rfl
  unfold firstRemark
  rw [hlines]
  cases he with
  | newline s =>
    obtain ⟨b, hb, hchomp⟩ := exists_chomp y
    rw [lines_append_newline hy, numbered_cons, List.head?_cons, Option.bind_some]
    have halike : Line.Alike anyLine (.ofText 1 (chomp y ++ b)) (.ofText 1 (chomp y)) := alike_append_blanks hb rfl _
    conv_rhs => rw [hchomp]
    exact halike.remark.symm
  | last =>
    rw [List.append_nil]
    by_cases hne : y = []
    · rw [hne]
      rfl
    · rw [lines_eq_singleton hy hne]
      rfl

/-- What follows a gap without line feeds stands on the line of the gap. -/
theorem answer_joined_gap (hx : '\n' ∉ x) (hcode : ¬ slashes <:+: x) (ha : Blanks a) (hne : a ≠ []) (hline : '\n' ∉ a)
    (hv : blankComments false v = y ++ e) (hy : '\n' ∉ y) (he : LineEnd e s) (n : Nat) (r : Reader) :
    answer anyLine (readFrom p n r (x ++ (a ++ blankComments false v))) =
      answer anyLine ((readRest p (n + 1) (x ++ ' ' :: codeOf y) r (firstRemark v) false false).bind fun r =>
        readFrom p (n + 1) r s) := by
  have hrow : '\n' ∉ x ++ ([' '] ++ y) := by simp [hx, hy]
  have htext : x ++ ([' '] ++ (y ++ e)) = x ++ ([' '] ++ y) ++ e := by simp
  rw [answer_gap hx hcode ha hne hline (b := [' ']) (by decide) (by decide) (by decide), hv, htext, answer_row hrow he,
    ofText_gap hcode (by decide) (by decide), readLine_eq, code_ofText, remark_ofText (n + 1) 1, ← firstRemark_eq hv hy he]
  rfl

/-- A gap without line feeds, inside a declaration, is like one with some. -/
theorem answer_open_gap (hx : '\n' ∉ x) (hcode : ¬ slashes <:+: x) (ha : Blanks a) (hne : a ≠ []) (hline : '\n' ∉ a)
    (h : r.readLine p (.ofText (n + 1) x) = .ok r₁) (hp : r₁.pending = some d)
    (hremark : ';' ∉ x ∨ firstRemark v = none) :
    answer anyLine (readFrom p n r (x ++ (a ++ blankComments false v))) =
      answer anyLine (readFrom p (n + 1) r₁ (blankComments false v)) := by
  obtain ⟨y, e, s, hv, hy, he⟩ := exists_lineEnd (blankComments false v)
  rw [ofText_of_not_slashes hcode, readLine_eq] at h
  rw [answer_joined_gap hx hcode ha hne hline hv hy he, hv, answer_row hy he, readLine_eq, code_ofText,
    remark_ofText _ 1, ← firstRemark_eq hv hy he]
  refine answer_congr (SameOutcome.bind ?_ fun _ _ hr => sameOutcome_readFrom (fun _ => anyLine_eq _ _) hr s)
  exact sameOutcome_broken_line h hp (by decide) (fun hsemi => hremark.resolve_left (not_not_intro hsemi)) _

/-! ### Texts that end in a declaration -/

/-- The faults of what stands on a line outside declarations. -/
def HeaderFault.ofLine : HeaderFault → Bool
  | malformedSection | sectionName _ | trailingText _ => true
  | _ => false

theorem fault_of_parameter {f : HeaderFault} (h : parameter s = .error f) : f.ofLine = false := by
  unfold parameter at h
  dsimp only at h
  split at h
  · split at h
    · cases h
      rfl
    · cases h
  · cases h
    rfl

theorem fault_of_declaration {m doc : String} {f : HeaderFault} (h : declaration p m doc s = .error f) :
    f.ofLine = false := by
  rw [declaration_eq] at h
  split at h
  · cases h
    rfl
  · dsimp only at h
    split at h
    · cases h
      rfl
    · split at h
      · cases h
        rfl
      · split at h
        · cases h
          rfl
        · rw [map_eq_error_iff] at h
          unfold parameters at h
          dsimp only at h
          split at h
          · cases h
          · obtain ⟨_, text, _, -, -, htext⟩ := mapM_eq_error_iff.1 h
            exact fault_of_parameter htext

theorem fault_of_close {e : HeaderError} (h : r.close p d = .error e) : e.fault.ofLine = false := by
  unfold close at h
  split at h
  · cases h
    rfl
  · split at h
    · cases h
    · next fault hfault =>
      cases h
      exact fault_of_declaration hfault

theorem fault_of_openSection {e : HeaderError} (h : r.openSection n t = .error e) :
    e.fault.ofLine = true ∧ e.line = n := by
  unfold openSection at h
  dsimp only at h
  split at h
  · cases h
    exact ⟨rfl, rfl⟩
  · split at h
    · cases h
      exact ⟨rfl, rfl⟩
    · cases h

/-- A fault of what stands on a line is blamed on this line. -/
theorem line_of_readPieces {pieces : List (List Char)} {e : HeaderError}
    (h : readPieces p n pieces r remark ended trimmed = .error e) (hfault : e.fault.ofLine = true) : e.line = n := by
  induction pieces generalizing r remark ended trimmed with
  | nil => cases h
  | cons piece later ih =>
    rw [readPieces] at h
    dsimp only at h
    split at h
    · split at h
      · cases h
      · rcases bind_eq_error_iff.1 h with hclose | ⟨r', -, h⟩
        · rw [fault_of_close hclose] at hfault
          cases hfault
        · exact ih h
    · split at h
      · exact (fault_of_openSection h).2
      · split at h
        · cases h
          rfl
        · cases h

/-- A declaration that is wrong on a line goes on there or is opened there. -/
theorem goesOn_of_error {e : HeaderError} (h : readRest p n x r remark ended trimmed = .error e)
    (hfault : e.fault.ofLine = false) : ¬ (r.pending = none ∧ opensDeclaration (trim x) = false) := by
  rintro ⟨hnone, hclosed⟩
  rw [readRest_none hnone hclosed] at h
  split at h
  · have hline := (fault_of_openSection h).1
    rw [hfault] at hline
    cases hline
  · split at h
    · cases h
      cases hfault
    · cases h

/-- A declaration that is wrong on a line is so whatever follows on the line. -/
theorem readRest_error_append {e : HeaderError} (h : readRest p n x r none ended trimmed = .error e)
    (hfault : e.fault.ofLine = false) (hremark : ';' ∈ x → remark = none) (y : List Char) :
    readRest p n (x ++ y) r remark ended trimmed = .error e := by
  induction hl : x.length using Nat.strong_induction_on generalizing x r ended trimmed with
  | _ l ih =>
    have hnone := goesOn_of_error h hfault
    by_cases hx : ';' ∈ x
    · obtain ⟨a, b, rfl, ha⟩ := List.eq_append_cons_of_mem hx
      cases hq : r.continuation n trimmed a (trim (a ++ ';' :: b)) with
      | none => exact absurd (continuation_eq_none_iff.1 hq) hnone
      | some q =>
        have hmore := continuation_append hq y
        obtain rfl := hremark hx
        rw [readRest_close ha hq] at h
        rw [List.append_assoc, List.cons_append] at hmore ⊢
        rw [readRest_close ha hmore]
        rcases bind_eq_error_iff.1 h with hclose | ⟨r₂, hclose, h⟩
        · rw [hclose, error_bind]
        · have hb : b.length < l := by rw [← hl, List.length_append, List.length_cons]; omega
          rw [hclose, ok_bind]
          exact ih b.length hb h (fun _ => rfl) rfl
    · cases hq : r.continuation n trimmed x (trim x) with
      | none => exact absurd (continuation_eq_none_iff.1 hq) hnone
      | some q =>
        rw [readRest_last hx hq] at h
        cases h

/-- The last line of a text that leaves a declaration open leaves it open by itself. -/
theorem exists_readLine_of_pending (hx : '\n' ∉ x) (h : readFrom p n r x = .ok r₁) (hp : r₁.pending = some d) :
    ∃ r₂ d₂, r.readLine p (.ofText (n + 1) x) = .ok r₂ ∧ r₂.pending = some d₂ := by
  by_cases hne : x = []
  · subst hne
    cases h
    have hblank : SameOutcome anyLine (Reader.Alike anyLine) (r.readLine p (.ofText (n + 1) [])) (.ok r) :=
      sameOutcome_blank blanks_nil rfl
    generalize r.readLine p (.ofText (n + 1) []) = next at hblank
    cases hblank with
    | @ok r₂ _ hr =>
      cases hp₂ : r₂.pending with
      | some d₂ => exact ⟨r₂, d₂, rfl, hp₂⟩
      | none =>
        rw [hr.pending_eq_none hp₂] at hp
        cases hp
  · rw [readFrom_last hx hne] at h
    exact ⟨r₁, d, h, hp⟩

/-- A text that is rejected alone, and not for what stands on its last line outside declarations: a declaration in it is
wrong or lacks its end, or a line before the last one is wrong. -/
def Undone (p u : String) : Prop :=
  ∃ e, parse p u = .error e ∧ (e.fault.ofLine = true → e.line ≤ u.toList.count '\n')

theorem length_lines_before_last {u : List Char} (hwx : blankComments false u = w ++ x) (hw : Ended w) (hx : '\n' ∉ x) :
    (lines w).length = u.count '\n' := by
  rw [length_lines hw, ← count_newline_blankComments false u, hwx, List.count_append, List.count_eq_zero.2 hx, Nat.add_zero]

/-- A text is undone if its last line opens a declaration, or goes on with one, and does not end it. -/
theorem undone_of_lastLine {u : String} (hwx : blankComments false u.toList = w ++ x) (hw : Ended w) (hx : '\n' ∉ x)
    (hcode : ¬ slashes <:+: x) (hsemi : ';' ∉ x)
    (hopen : ∀ r, readFrom p 0 {} w = .ok r → r.pending = none → opensDeclaration (trim x) = true) : Undone p u := by
  have hparse : parse p u = ((readFrom p 0 {} w).bind fun r => readFrom p (lines w).length r x).bind finish := by
    rw [← String.ofList_toList (s := u), parse_eq, hwx, readFrom_append hw, Nat.zero_add]
  cases hr : readFrom p 0 {} w with
  | error e =>
    -- a line before the last one is wrong
    have hwithin : WithinLines (0 + (lines w).length) (readFrom p 0 {} w) :=
      withinLines_readLines (fun d hd => absurd hd (by simp)) _
    rw [hr, Nat.zero_add, length_lines_before_last hwx hw hx] at hwithin
    rw [hr] at hparse
    exact ⟨e, hparse, fun _ => hwithin.2⟩
  | ok r =>
    have hpending : ∃ r₁ d, readFrom p (lines w).length r x = .ok r₁ ∧ r₁.pending = some d := by
      by_cases hne : x = []
      · subst hne
        cases hd : r.pending with
        | some d => exact ⟨r, d, rfl, hd⟩
        | none => cases hopen r hr hd
      · cases hq : r.continuation ((lines w).length + 1) false x (trim x) with
        | none =>
          obtain ⟨hnone, hclosed⟩ := continuation_eq_none_iff.1 hq
          rw [hopen r hr hnone] at hclosed
          cases hclosed
        | some q =>
          rw [readFrom_last hx hne, ofText_of_not_slashes hcode, readLine_eq, readRest_last hsemi hq]
          exact ⟨_, _, rfl, rfl⟩
    obtain ⟨r₁, d, hlast, hd⟩ := hpending
    rw [hr, ok_bind, hlast, ok_bind, finish, hd] at hparse
    exact ⟨_, hparse, fun h => by cases h⟩

/-- The last line of such a text is wrong or leaves a declaration open. -/
theorem Undone.exists_lastLine {u : String} (h : Undone p u) {w : List Char} (hwx : blankComments false u.toList = w ++ x)
    (hw : Ended w) (hx : '\n' ∉ x) {r : Reader} (hr : readFrom p 0 {} w = .ok r) :
    (∃ e, r.readLine p (.ofText ((lines w).length + 1) x) = .error e ∧ e.fault.ofLine = false) ∨
      ∃ r₂ d₂, r.readLine p (.ofText ((lines w).length + 1) x) = .ok r₂ ∧ r₂.pending = some d₂ := by
  obtain ⟨e, he, hline⟩ := h
  rw [← String.ofList_toList (s := u), parse_eq, hwx, readFrom_append hw, hr, ok_bind, Nat.zero_add] at he
  have hcount := length_lines_before_last hwx hw hx
  rcases bind_eq_error_iff.1 he with he | ⟨r₁, hr₁, he⟩
  · have hne : x ≠ [] := by
      rintro rfl
      cases he
    rw [readFrom_last hx hne] at he
    refine .inl ⟨e, he, ?_⟩
    rw [← Bool.not_eq_true]
    intro hfault
    have hle := hline hfault
    rw [line_of_readPieces he hfault, Line.number_ofText] at hle
    omega
  · refine .inr ?_
    unfold finish at he
    split at he
    · next d hd => exact exists_readLine_of_pending hx hr₁ hd
    · cases he

/-- A declaration ends on the last line of a text: there is a semicolon, and a declaration that goes on there or is
opened there. -/
def EndsDeclaration (p : String) (u : List Char) : Prop :=
  ∃ r, readFrom p 0 {} (firstLines (blankComments false u)) = .ok r ∧
    (r.pending = none → opensDeclaration (trim (lastLine (blankComments false u))) = true) ∧
      ';' ∈ lastLine (blankComments false u)

/-- All semicolons on the last line of such a text end declarations. -/
theorem Undone.semicolon_not_mem {u : String} (h : Undone p u) (hends : ¬ EndsDeclaration p u.toList)
    (hwx : blankComments false u.toList = w ++ x) (hw : Ended w) (hx : '\n' ∉ x) (hcode : ¬ slashes <:+: x) {r : Reader}
    (hr : readFrom p 0 {} w = .ok r) : ';' ∉ x := by
  have hgoesOn : ¬ (r.pending = none ∧ opensDeclaration (trim x) = false) := by
    rcases h.exists_lastLine hwx hw hx hr with ⟨e, hlast, hfault⟩ | ⟨r₂, d₂, hlast, hp₂⟩
    · rw [ofText_of_not_slashes hcode, readLine_eq] at hlast
      exact goesOn_of_error hlast hfault
    · rw [ofText_of_not_slashes hcode, readLine_eq] at hlast
      obtain ⟨q, hq⟩ := exists_continuation_of_pending (a := x) hlast hp₂
      intro hnone
      rw [continuation_eq_none_iff.2 hnone] at hq
      cases hq
  intro hsemi
  refine hends ⟨r, ?_, fun hnone => ?_, ?_⟩
  · rwa [hwx, firstLines_append hw hx]
  · rw [hwx, lastLine_append hw hx, ← Bool.not_eq_false]
    exact fun hclosed => hgoesOn ⟨hnone, hclosed⟩
  · rwa [hwx, lastLine_append hw hx]

/-! ### Gaps in declarations -/

section Respaced

variable {u v : String} (hu : commentOpen false u.toList = false)
  (hslashes : ¬ slashes <:+: lastLine (blankComments false u.toList))
include hu hslashes

/-- The text before a gap ends with the line `x`. -/
theorem exists_gap_line :
    ∃ w x, blankComments false u.toList = w ++ x ∧ Ended w ∧ '\n' ∉ x ∧ ¬ slashes <:+: x ∧
      ∀ (p : String) (a v : String), Blanks a.toList → a ≠ "" → (parse p (u ++ a ++ v)).toOption =
        (answer anyLine (readFrom p 0 {} (w ++ (x ++ (a.toList ++ blankComments false v.toList))))).toOption := by
  obtain ⟨w, x, hw, hx, hwx⟩ := exists_ended_append (blankComments false u.toList)
  rw [hwx, lastLine_append hw hx] at hslashes
  refine ⟨w, x, hwx, hw, hx, hslashes, fun p a v ha hne => ?_⟩
  have htext : u ++ a ++ v = String.ofList (u.toList ++ (a.toList ++ v.toList)) := by
    rw [← String.toList_inj]
    simp
  have hhead : (a.toList ++ v.toList).head? ≠ some '*' := by
    obtain ⟨c, t, hct⟩ := List.exists_cons_of_ne_nil (mt String.toList_eq_nil_iff.1 hne)
    rw [hct, List.cons_append, List.head?_cons, Ne, Option.some.injEq]
    exact isBlank_ne (ha c (by simp [hct])) (by decide)
  have hblank : blankComments false (a.toList ++ v.toList) = a.toList ++ blankComments false v.toList :=
    transparent_of_slash_not_mem (ha.not_mem (by decide)) v.toList
  have hoption : ∀ {α : Type} (y : Except HeaderError α), y.toOption = (y.mapError (anyLine ·.line)).toOption := by
    rintro α (_ | _) <;> rfl
  rw [htext, hoption, mapError_parse, blankComments_append_of_closed hu fun _ => hhead, hblank, hwx, List.append_assoc]

/-- A gap with line feeds can be exchanged for one without. -/
theorem parse_broken_gap {a b : String} (hinside : Undone p u)
    (hremark : ¬ EndsDeclaration p u.toList ∨ firstRemark v.toList = none) (ha : Blanks a.toList)
    (hn : '\n' ∈ a.toList) (hb : Blanks b.toList) (hne : b ≠ "") (hline : '\n' ∉ b.toList) :
    (parse p (u ++ a ++ v)).toOption = (parse p (u ++ b ++ v)).toOption := by
  obtain ⟨w, x, hwx, hw, hx, hcode, hparse⟩ := exists_gap_line hu hslashes
  have hne' : a ≠ "" := by
    rintro rfl
    cases hn
  have hnil : b.toList ≠ [] := mt String.toList_eq_nil_iff.1 hne
  rw [hparse p a v ha hne', hparse p b v hb hne]
  congr 1
  refine answer_append_congr hw fun r hr => ?_
  replace hremark : ';' ∉ x ∨ firstRemark v.toList = none :=
    hremark.imp_left fun hends => hinside.semicolon_not_mem hends hwx hw hx hcode hr
  rw [Nat.zero_add, answer_broken_gap hx ha hn]
  rcases hinside.exists_lastLine hwx hw hx hr with ⟨e, hlast, hfault⟩ | ⟨r₂, d₂, hlast, hp₂⟩
  · -- both fail with the declaration that ends before the gap
    obtain ⟨y, rest, s, hv, hy, he⟩ := exists_lineEnd (blankComments false v.toList)
    rw [hlast, answer_joined_gap hx hcode hb hnil hline hv hy he]
    rw [ofText_of_not_slashes hcode, readLine_eq] at hlast
    have hmore := readRest_error_append hlast hfault (fun hsemi => hremark.resolve_left (not_not_intro hsemi))
      (' ' :: codeOf y)
    dsimp only at hmore
    rw [hmore, error_bind, error_bind]
  · rw [answer_open_gap hx hcode hb hnil hline hlast hp₂ hremark, hlast]
    rfl

/-- **The table does not depend on the blanks in a declaration**, where a gap between two parts of a header keeps its
line breaks or its lack of them, anywhere outside comments, and also where a gap gets or loses line breaks inside a
declaration, behind some text after its marker, if no declaration ends on the line before the gap or no remark stands
behind the gap on the line where it ends. -/
theorem parse_respaced (p : String) {a b : String} (ha : Blanks a.toList) (hne : a ≠ "") (hb : Blanks b.toList)
    (hne' : b ≠ "")
    (h : ('\n' ∈ a.toList ↔ '\n' ∈ b.toList) ∨ Undone p u ∧
      (¬ EndsDeclaration p u.toList ∨ firstRemark v.toList = none)) :
    (parse p (u ++ a ++ v)).toOption = (parse p (u ++ b ++ v)).toOption := by
  by_cases hna : '\n' ∈ a.toList <;> by_cases hnb : '\n' ∈ b.toList
  · obtain ⟨w, x, -, hw, hx, -, hparse⟩ := exists_gap_line hu hslashes
    rw [hparse p a v ha hne, hparse p b v hb hne']
    congr 1
    refine answer_append_congr hw fun r _ => ?_
    rw [answer_broken_gap hx ha hna, answer_broken_gap hx hb hnb]
  · obtain ⟨hinside, hremark⟩ := h.resolve_left fun h => hnb (h.1 hna)
    exact parse_broken_gap hu hslashes hinside hremark ha hna hb hne' hnb
  · obtain ⟨hinside, hremark⟩ := h.resolve_left fun h => hna (h.2 hnb)
    exact (parse_broken_gap hu hslashes hinside hremark hb hnb ha hne hna).symm
  · obtain ⟨w, x, -, hw, hx, hcode, hparse⟩ := exists_gap_line hu hslashes
    rw [hparse p a v ha hne, hparse p b v hb hne']
    congr 1
    refine answer_append_congr hw fun r _ => ?_
    exact answer_gap hx hcode ha (mt String.toList_eq_nil_iff.1 hne) hna hb (mt String.toList_eq_nil_iff.1 hne') hnb _ r _

end Respaced

/-- A declaration that goes on behind its opening parenthesis. -/
def openDeclaration : String := "LIBFIVE_SECTION(m)\nLIBFIVE_STDLIB f("

theorem parse_respaced_openDeclaration :
    commentOpen false openDeclaration.toList = false ∧
      ¬ slashes <:+: lastLine (blankComments false openDeclaration.toList) ∧
      ∀ v, (parse "p_" (openDeclaration ++ "\n\t\n" ++ v)).toOption = (parse "p_" (openDeclaration ++ "  " ++ v)).toOption := by
  have hslash : '/' ∉ openDeclaration.toList := by simp [openDeclaration]
  have hu := (outside_of_slash_not_mem hslash).1
  have hlines : openDeclaration.toList = "LIBFIVE_SECTION(m)\n".toList ++ "LIBFIVE_STDLIB f(".toList := by
    simp [openDeclaration]
  have hended : Ended "LIBFIVE_SECTION(m)\n".toList := .inr ⟨"LIBFIVE_SECTION(m)".toList, by simp⟩
  have hline : '\n' ∉ "LIBFIVE_STDLIB f(".toList := by simp
  have hsemi : ';' ∉ "LIBFIVE_STDLIB f(".toList := by simp
  have hblank : blankComments false openDeclaration.toList =
      "LIBFIVE_SECTION(m)\n".toList ++ "LIBFIVE_STDLIB f(".toList := by
    rw [← hlines]
    simpa using transparent_of_slash_not_mem hslash []
  have hcode : ¬ slashes <:+: "LIBFIVE_STDLIB f(".toList := fun h =>
    hslash (by rw [hlines]; exact List.mem_append_right _ (h.subset List.mem_cons_self))
  have hinside : Undone "p_" openDeclaration :=
    undone_of_lastLine hblank hended hline hcode hsemi fun _ _ _ => by decide
  have hlast : lastLine (blankComments false openDeclaration.toList) = "LIBFIVE_STDLIB f(".toList := by
    rw [hblank, lastLine_append hended hline]
  have hslashes : ¬ slashes <:+: lastLine (blankComments false openDeclaration.toList) := by rwa [hlast]
  have hremark : ¬ EndsDeclaration "p_" openDeclaration.toList := by
    rintro ⟨_, -, -, hmem⟩
    rw [hlast] at hmem
    exact hsemi hmem
  exact ⟨hu, hslashes, fun v =>
    parse_respaced hu hslashes "p_" (by decide) (by decide) (by decide) (by decide) (.inr ⟨hinside, .inl hremark⟩)⟩

/-- A line break behind the marker loses a declaration, and a line break on the line where another declaration ends
moves a remark. -/
theorem line_break_changes_table :
    parse "p_" ("LIBFIVE_SECTION(m)\nLIBFIVE_STDLIB" ++ " " ++ "f();\n") =
        .ok ⟨[⟨"m", [⟨"f", "p_f", "m", [], none⟩]⟩]⟩ ∧
      parse "p_" ("LIBFIVE_SECTION(m)\nLIBFIVE_STDLIB" ++ "\n" ++ "f();\n") = .ok ⟨[⟨"m", []⟩]⟩ ∧
      parse "p_" ("LIBFIVE_SECTION(m)\nLIBFIVE_STDLIB f(\n); LIBFIVE_STDLIB g(" ++ " " ++ "); // A cube.\n") =
        .ok ⟨[⟨"m", [⟨"f", "p_f", "m", [], some "A cube."⟩, ⟨"g", "p_g", "m", [], none⟩]⟩]⟩ ∧
      parse "p_" ("LIBFIVE_SECTION(m)\nLIBFIVE_STDLIB f(\n); LIBFIVE_STDLIB g(" ++ "\n" ++ "); // A cube.\n") =
        .ok ⟨[⟨"m", [⟨"f", "p_f", "m", [], none⟩, ⟨"g", "p_g", "m", [], some "A cube."⟩]⟩]⟩ := by
  decide +kernel

end ShapeBindings.Header
