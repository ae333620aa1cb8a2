import ShapeBindings.Proofs.Header.Remarks

/-!
# The text of a declaration that goes on

Behind a text that ends in a declaration, what follows is put behind the declaration's text, on the same line without
anything between them and on other lines with a blank.

* `openText p u`: the text so far of the declaration that the text `u` ends in;
* `Reader.Within p n y r q t`: behind the part `y` of its line the reader stands in a declaration with the text `t`, which
  will state the function at the place `q`;
* `exists_within_append`: code without semicolons is put behind the text;
* `exists_declaration_of_semicolon`, `exists_declaration_of_within`: the function is what the text, with the code that
  follows up to the next semicolon, declares.
-/

namespace ShapeBindings.Header

open Text Reader

variable {p : String} {n : Nat} {r r₁ r' : Reader} {d : OpenDeclaration} {q : Table.Place}
  {a b l s t x y z : List Char} {remark : Option (List Char)} {ended trimmed : Bool}

/-! ### One line -/

/-- The text of the declaration that a line leaves open, by the pieces of the line and by what the declaration has before
the line, if it opens before it. -/
def textBehind : Option (List Char) → List (List Char) → List Char
  | some text, [piece] => text ++ ' ' :: piece
  | none, [piece] => ' ' :: (trimStart piece).drop declarationMarker.length
  | _, _ :: later => textBehind none later
  | _, [] => []

theorem textBehind_cons (text? : Option (List Char)) (piece : List Char) {pieces : List (List Char)} (h : pieces ≠ []) :
    textBehind text? (piece :: pieces) = textBehind none pieces := by
  obtain ⟨v, vs, rfl⟩ := List.exists_cons_of_ne_nil h
  cases text? <;> rfl

/-- What follows the part `y` of a line goes on with the declaration that `y` leaves open, behind the text `t`. -/
structure Reader.GoesOn (p : String) (n : Nat) (y : List Char) (r : Reader) (remark : Option (List Char))
    (ended trimmed : Bool) (r₁ : Reader) (d : OpenDeclaration) (t : List Char) : Prop where
  more : ∀ l, ';' ∉ l → ∃ text b, Blanks b ∧ text ++ b = t ++ l ∧
    readRest p n (y ++ l) r remark ended trimmed = .ok { r₁ with pending := some { d with text } }
  close : ∀ a b, ';' ∉ a → ∃ trimmed', readRest p n (y ++ (a ++ ';' :: b)) r remark ended trimmed =
    (r₁.close p { d with text := t ++ a }).bind fun r => readRest p n b r none true trimmed'

theorem Reader.GoesOn.append (h : r.GoesOn p n y remark ended trimmed r₁ d t) (ha : ';' ∉ a) :
    r.GoesOn p n (y ++ a) remark ended trimmed r₁ d (t ++ a) where
  more l hl := by
    have hmore := h.more (a ++ l) (by simp [ha, hl])
    rwa [← List.append_assoc, ← List.append_assoc] at hmore
  close u v hu := by
    have hclose := h.close (a ++ u) v (by simp [ha, hu])
    rw [List.append_assoc a, ← List.append_assoc y, ← List.append_assoc t] at hclose
    exact hclose

/-- The text that a line without semicolons puts behind what a declaration has. -/
theorem text_continuation {c : Continuation} (hy : ';' ∉ y) (hc : r.continuation n trimmed y (trim y) = some c) :
    c.declaration.text ++ ' ' :: c.piece = textBehind (r.pending.map (·.text)) (y.splitOn ';') := by
  rw [List.splitOn_eq_singleton hy]
  cases hr : r.pending with
  | some e =>
    rw [continuation_pending hr] at hc
    obtain rfl := Option.some.inj hc
    rfl
  | none =>
    rw [continuation_opening hr (opensDeclaration_of_continuation hr hc)] at hc
    obtain rfl := Option.some.inj hc
    rfl

theorem goesOn_of_last {c : Continuation} (hy : ';' ∉ y) (hc : r.continuation n trimmed y (trim y) = some c)
    (h : readRest p n y r remark ended trimmed = .ok r₁) (hp : r₁.pending = some d) :
    r.GoesOn p n y remark ended trimmed r₁ d (c.declaration.text ++ ' ' :: c.piece) := by
  rw [readRest_last hy hc] at h
  obtain rfl := Except.ok.inj h
  obtain rfl := Option.some.inj hp
  refine ⟨fun l hl => ?_, fun u v hu => ?_⟩
  · have hgrow := continuation_grow hc l []
    rw [List.append_nil] at hgrow
    have hread : readRest p n (y ++ l) r remark ended trimmed = _ := readRest_last (by simp [hy, hl]) hgrow
    obtain ⟨g, hg, hsplit⟩ : ∃ g, Blanks g ∧
        c.piece ++ l = (if c.trimmed then trimEnd (c.piece ++ l) else c.piece ++ l) ++ g := by
      split
      · exact exists_trimEnd _
      · exact ⟨[], blanks_nil, (List.append_nil _).symm⟩
    refine ⟨_, g, hg, ?_, hread⟩
    rw [List.append_assoc, List.cons_append, ← hsplit, List.append_assoc, List.cons_append]
  · have hgrow := continuation_grow hc u (';' :: v)
    have hpiece : ';' ∉ y ++ u := by simp [hy, hu]
    have happend : c.declaration.text ++ ' ' :: (c.piece ++ u) = c.declaration.text ++ ' ' :: c.piece ++ u := by simp
    refine ⟨c.trimmed, ?_⟩
    rw [← List.append_assoc, readRest_close hpiece hgrow, close_pending]
    unfold OpenDeclaration.extend
    dsimp only
    rw [happend]
    rfl

/-- A declaration that ends on a line changes nothing about the declaration that the line leaves open. -/
theorem goesOn_of_close {r₂ : Reader} {c : Continuation} (ha : ';' ∉ a)
    (hc : r.continuation n trimmed a (trim (a ++ ';' :: b)) = some c)
    (hclose : r.close p (c.declaration.extend c.piece remark) = .ok r₂)
    (h : r₂.GoesOn p n b none true c.trimmed r₁ d t) : r.GoesOn p n (a ++ ';' :: b) remark ended trimmed r₁ d t := by
  have hread : ∀ l, readRest p n (a ++ ';' :: b ++ l) r remark ended trimmed =
      readRest p n (b ++ l) r₂ none true c.trimmed := by
    intro l
    have hmore := continuation_append hc l
    rw [List.append_assoc, List.cons_append] at hmore ⊢
    rw [readRest_close ha hmore, hclose]
    rfl
  exact ⟨fun l hl => by rw [hread]; exact h.more l hl, fun u v hu => by rw [hread]; exact h.close u v hu⟩

/-- A line that leaves a declaration open goes on with it. -/
theorem goesOn_of_pending (h : readRest p n y r remark ended trimmed = .ok r₁) (hp : r₁.pending = some d) :
    r.GoesOn p n y remark ended trimmed r₁ d (textBehind (r.pending.map (·.text)) (y.splitOn ';')) := by
  induction hl : y.length using Nat.strong_induction_on generalizing y r remark ended trimmed with
  | _ k ih =>
    by_cases hy : ';' ∈ y
    · obtain ⟨a, b, rfl, ha⟩ := List.eq_append_cons_of_mem hy
      obtain ⟨c, hc⟩ := exists_continuation_of_pending (a := a) h hp
      rw [readRest_close ha hc] at h
      obtain ⟨r₂, hclose, h⟩ := exists_of_bind_eq_ok h
      have hb : b.length < k := by rw [← hl, List.length_append, List.length_cons]; omega
      have hrest := ih b.length hb h rfl
      rw [pending_close hclose, Option.map_none] at hrest
      rw [List.splitOn_append_cons_self_of_not_mem ha, textBehind_cons _ _ (List.splitOn_ne_nil _ _)]
      exact goesOn_of_close ha hc hclose hrest
    · obtain ⟨c, hc⟩ := exists_continuation_of_pending (a := y) h hp
      rw [← text_continuation hy hc]
      exact goesOn_of_last hy hc h hp

/-! ### Inside a declaration -/

theorem nextPlace_modify (u : Table) (q : Table.Place) (f : Descriptor → Descriptor) (name : String) :
    (u.modify q f).nextPlace name = u.nextPlace name := by
  unfold Table.nextPlace
  rw [Table.module?_modify]
  split
  · cases u.module? name with
    | none => rfl
    | some m => simp [Module.modify, Module.size]
  · rfl

/-- Readers that differ by a remark are at the same place. -/
theorem place_of_remarked {before : List (List Char)} (h : Reader.Remarked q before x r r') : r'.place = r.place := by
  cases h with
  | within => rfl
  | ended => exact nextPlace_modify _ _ _ _

theorem exists_pending_of_remarked {q : Table.Place} {before : List (List Char)} (h : Reader.Remarked q before x r r')
    (hp : r.pending = some d) : ∃ d', r'.pending = some d' := by
  cases h with
  | within => exact ⟨_, rfl⟩
  | ended => exact ⟨d, hp⟩

/-- Behind the part `y` of its line the reader stands in a declaration with the text `t`, which will state the function
at the place `q`, whatever the remark of the line. -/
def Reader.Within (p : String) (n : Nat) (y : List Char) (r : Reader) (q : Table.Place) (t : List Char) : Prop :=
  ∀ remark, (∀ x ∈ remark, IsRemark x) → ∃ r₁ d, r₁.place = q ∧ r.GoesOn p n y remark false false r₁ d t

theorem Reader.Within.append (h : r.Within p n y q t) (ha : ';' ∉ a) : r.Within p n (y ++ a) q (t ++ a) := by
  intro remark hremark
  obtain ⟨r₁, d, hplace, hgoes⟩ := h remark hremark
  exact ⟨r₁, d, hplace, hgoes.append ha⟩

theorem within_of_pending (hr : r.HoldsRemarks) (h : readRest p n y r none false false = .ok r₁)
    (hp : r₁.pending = some d) : ∃ b, Blanks b ∧ r.Within p n y r₁.place (d.text ++ b) := by
  have hgoes := goesOn_of_pending h hp
  obtain ⟨text, b, hb, htext, hread⟩ := hgoes.more [] (by simp)
  rw [List.append_nil, h] at hread
  have hd : d.text = text := by
    have hpending := congrArg Reader.pending (Except.ok.inj hread)
    rw [hp] at hpending
    exact congrArg OpenDeclaration.text (Option.some.inj hpending)
  rw [List.append_nil] at htext
  rw [← htext, ← hd] at hgoes
  refine ⟨b, hb, fun remark hremark => ?_⟩
  cases remark with
  | none => exact ⟨r₁, d, rfl, hgoes⟩
  | some x =>
    -- a remark on the line changes nothing but documentation
    have hs : ¬ (r.pending = none ∧ opensDeclaration (trim y) = false) := by
      intro hs
      obtain ⟨c, hc⟩ := exists_continuation_of_pending h hp (a := [])
      rw [continuation_eq_none_iff.2 hs] at hc
      cases hc
    have halike := alike_readRest_remark (p := p) (n := n) hr (hremark x rfl) hs
    rw [h] at halike
    generalize hread' : readRest p n y r (some x) false false = next at halike
    cases halike with
    | @ok _ r₁' hremarked =>
      obtain ⟨d', hp'⟩ := exists_pending_of_remarked hremarked hp
      have hgoes' := goesOn_of_pending hread' hp'
      rw [hd, htext]
      exact ⟨r₁', d', place_of_remarked hremarked, hgoes'⟩

theorem within_of_next_line (hr : r.HoldsRemarks) (hp : r.pending = some d) (n : Nat) :
    ∃ b, Blanks b ∧ b ≠ [] ∧ r.Within p n [] r.place (d.text ++ b) := by
  have hread : readRest p n [] r none false false = _ := readRest_last (by simp) (continuation_pending hp _ _)
  obtain ⟨b, hb, hwithin⟩ := within_of_pending hr hread rfl
  refine ⟨' ' :: b, blanks_cons.2 ⟨by decide, hb⟩, List.cons_ne_nil _ _, ?_⟩
  have htext : d.text ++ ' ' :: b = (d.extend [] none).text ++ b := by simp [OpenDeclaration.extend]
  rw [htext]
  exact hwithin

/-! ### Code that follows -/

/-- What follows on a line of code. -/
theorem ofText_append (hy : NoSlashes y) (n : Nat) (l : List Char) :
    Line.ofText n (y ++ l) = ⟨n, y ++ codeOf l, (Line.ofText n l).remark⟩ := by
  unfold codeOf Line.ofText
  rw [cutAt_slashes_append hy.no_slashes hy.getLast?]
  cases cutAt slashes l with
  | none => rfl
  | some q => rfl

/-- The end of a line, and the reader on the next one. -/
theorem exists_next_line (hr : r.HoldsRemarks) (h : r.Within p (n + 1) y q t) (hy : '\n' ∉ y) (hcode : NoSlashes y) :
    ∃ r₁ t₁, r₁.HoldsRemarks ∧ r₁.Within p (n + 2) [] q t₁ ∧ (∀ z, words (t₁ ++ z) = words (t ++ '\n' :: z)) ∧
      ∀ z, answer anyLine (readFrom p n r (y ++ '\n' :: z)) = answer anyLine (readFrom p (n + 1) r₁ z) := by
  obtain ⟨r₁, d, rfl, hgoes⟩ := h none (by simp)
  obtain ⟨text, b, hb, htext, hread⟩ := hgoes.more [] (by simp)
  rw [List.append_nil] at htext hread
  have hholds := holdsRemarks_readPieces hr (by simp) hread
  obtain ⟨g, hg, hne, hwithin⟩ := within_of_next_line (p := p) hholds rfl (n + 2)
  refine ⟨_, _, hholds, hwithin, fun z => ?_, fun z => ?_⟩
  · dsimp only
    rw [List.append_assoc, words_append_blanks_append hg hne, words_append_blank (by decide), ← htext,
      words_append_blanks _ hb]
  · rw [answer_row hy (.newline z), ofText_of_not_slashes hcode.no_slashes, readLine_eq, hread, ok_bind]

/-- Code without semicolons is put behind the text of the declaration. -/
theorem exists_within_append (hr : r.HoldsRemarks) (h : r.Within p (n + 1) y q t) (hy : '\n' ∉ y) (hcode : NoSlashes y)
    (ha : ';' ∉ a) (hslash : '/' ∉ a) :
    ∃ n' r' y' t', r'.HoldsRemarks ∧ r'.Within p (n' + 1) y' q t' ∧ '\n' ∉ y' ∧ NoSlashes y' ∧
      (∀ z, words (t' ++ z) = words (t ++ (a ++ z))) ∧
      ∀ z, answer anyLine (readFrom p n r (y ++ (a ++ z))) = answer anyLine (readFrom p n' r' (y' ++ z)) := by
  induction hl : a.length using Nat.strong_induction_on generalizing n r y t a with
  | _ k ih =>
    by_cases hn : '\n' ∈ a
    · obtain ⟨g, b, hg, rfl⟩ := exists_newline_split hn
      simp only [List.mem_append, List.mem_cons, not_or] at ha hslash
      obtain ⟨r₁, t₁, hr₁, h₁, hwords, hread⟩ := exists_next_line hr (h.append ha.1) (by simp [hy, hg])
        (hcode.append hslash.1)
      have hb : b.length < k := by rw [← hl, List.length_append, List.length_cons]; omega
      obtain ⟨n', r', y', t', hr', h', hy', hcode', hwords', hread'⟩ := ih b.length hb hr₁ h₁ (by simp) (by decide) ha.2.2
        hslash.2.2 rfl
      refine ⟨n', r', y', t', hr', h', hy', hcode', fun z => ?_, fun z => ?_⟩
      · rw [hwords', hwords]
        simp
      · have htext : y ++ (g ++ '\n' :: b ++ z) = y ++ g ++ '\n' :: (b ++ z) := by simp
        rw [htext, hread, ← hread', List.nil_append]
    · refine ⟨n, r, y ++ a, t ++ a, hr, h.append ha, by simp [hy, hn], hcode.append hslash, fun z => ?_, fun z => ?_⟩
      · rw [List.append_assoc]
      · rw [List.append_assoc]

/-! ### The end of the declaration -/

/-- A reader in a declaration with the text `t` and some more, or one with the function that such a declaration states. -/
inductive Reader.States (p : String) (q : Table.Place) (t : List Char) : Reader → Prop
  | within {r : Reader} {d : OpenDeclaration} {x : List Char} (hplace : r.place = q) (hp : r.pending = some d)
      (htext : words d.text = words (t ++ x)) : States p q t r
  | ended {r : Reader} {D : Descriptor} {m doc : String} {s x : List Char} (hD : r.table.function? q = some D)
      (hs : declaration p m doc s = .ok D) (htext : words s = words (t ++ x)) : States p q t r

theorem states_readPieces (h : r.States p q t) {pieces : List (List Char)}
    (hread : readPieces p n pieces r remark ended trimmed = .ok r') : r'.States p q t := by
  cases h with
  | ended hD hs htext => exact .ended ((kept_function p q _).readPieces hD hread) hs htext
  | @within d x hplace hp htext =>
    have hblank : isBlank ' ' = true := by decide
    have hmore : ∀ piece, words (d.extend piece remark).text = words (t ++ (x ++ ' ' :: piece)) := fun piece => by
      rw [OpenDeclaration.extend, words_append_blank hblank, htext, ← List.append_assoc, words_append_blank hblank]
    cases pieces with
    | nil =>
      cases hread
      exact .within hplace hp htext
    | cons piece later =>
      rw [readPieces] at hread
      dsimp only at hread
      rw [continuation_pending hp] at hread
      dsimp only at hread
      split at hread
      · cases hread
        exact .within hplace rfl (hmore _)
      · obtain ⟨r₁, hclose, hread⟩ := exists_of_bind_eq_ok hread
        obtain ⟨D, m, doc, hD, hs⟩ := exists_function_of_close hclose
        rw [hplace] at hD
        exact .ended ((kept_function p q D).readPieces hD hread) hs (hmore piece)

theorem states_readFrom (h : r.States p q t) {s : List Char} (hread : readFrom p n r s = .ok r') : r'.States p q t := by
  refine foldlM_invariant (fun r line r' h hline => ?_) h hread
  unfold readLine at hline
  exact states_readPieces h hline

theorem exists_finish_of_answer {u : Table} {next : Except HeaderError Reader} (h : answer anyLine next = .ok u) :
    ∃ r, next = .ok r ∧ r.pending = none ∧ r.table = u := by
  obtain ⟨r, hr, hfinish⟩ := exists_of_bind_eq_ok (exists_of_mapError_eq_ok h)
  refine ⟨r, hr, ?_⟩
  unfold finish at hfinish
  split at hfinish
  · cases hfinish
  · next hp =>
    cases hfinish
    exact ⟨hp, rfl⟩

/-- The text is the whole declaration if a semicolon follows. -/
theorem exists_declaration_of_semicolon (h : r.Within p (n + 1) y q t) (hy : '\n' ∉ y) (hcode : NoSlashes y) {u : Table}
    (hread : answer anyLine (readFrom p n r (y ++ ';' :: z)) = .ok u) :
    ∃ D m doc, u.function? q = some D ∧ declaration p m doc t = .ok D := by
  obtain ⟨l, e, s, rfl, hl, he⟩ := exists_lineEnd z
  have htext : y ++ ';' :: (l ++ e) = y ++ ';' :: l ++ e := by simp
  rw [htext, answer_row (by simp [hy, hl]) he, ofText_append hcode, codeOf_cons (by simp), readLine_eq] at hread
  obtain ⟨r₁, d, rfl, hgoes⟩ := h (Line.ofText (n + 1) (';' :: l)).remark (isRemark_of_ofText (by simp [hl]))
  obtain ⟨trimmed', hclose⟩ := hgoes.close [] (codeOf l) (by simp)
  rw [List.nil_append, List.append_nil] at hclose
  dsimp only at hread
  rw [hclose] at hread
  obtain ⟨r₄, hrun, -, rfl⟩ := exists_finish_of_answer hread
  obtain ⟨r₃, hread, hrest⟩ := exists_of_bind_eq_ok hrun
  obtain ⟨r₂, hclosed, hread⟩ := exists_of_bind_eq_ok hread
  obtain ⟨D, m, doc, hD, hs⟩ := exists_function_of_close hclosed
  have hkept := kept_function p r₁.place D
  exact ⟨D, m, doc, hkept.readFrom (hkept.readPieces hD hread) hrest, hs⟩

/-- The text, and some more, is a declaration. -/
theorem exists_declaration_of_within (h : r.Within p (n + 1) y q t) (hy : '\n' ∉ y) (hcode : NoSlashes y) {u : Table}
    (hread : answer anyLine (readFrom p n r (y ++ z)) = .ok u) :
    ∃ D m doc s x, u.function? q = some D ∧ declaration p m doc s = .ok D ∧ words s = words (t ++ x) := by
  obtain ⟨l, e, s, rfl, hl, he⟩ := exists_lineEnd z
  rw [← List.append_assoc, answer_row (by simp [hy, hl]) he, ofText_append hcode, readLine_eq] at hread
  obtain ⟨r₁, d, rfl, hgoes⟩ := h (Line.ofText (n + 1) l).remark (isRemark_of_ofText hl)
  dsimp only at hread
  obtain ⟨r₃, hrun, hp, rfl⟩ := exists_finish_of_answer hread
  obtain ⟨r₂, hline, hrest⟩ := exists_of_bind_eq_ok hrun
  have hstates : r₂.States p r₁.place t := by
    by_cases hsemi : ';' ∈ codeOf l
    · obtain ⟨a, b, hcut, ha⟩ := List.eq_append_cons_of_mem hsemi
      obtain ⟨trimmed', hclose⟩ := hgoes.close a b ha
      rw [hcut, hclose] at hline
      obtain ⟨r₄, hclosed, hline⟩ := exists_of_bind_eq_ok hline
      obtain ⟨D, m, doc, hD, hs⟩ := exists_function_of_close hclosed
      exact .ended ((kept_function p _ D).readPieces hD hline) hs (x := a) rfl
    · obtain ⟨text, b, hb, htext, hmore⟩ := hgoes.more _ hsemi
      rw [hmore] at hline
      cases hline
      refine .within rfl rfl (x := codeOf l) ?_
      rw [← htext, words_append_blanks _ hb]
  cases states_readFrom hstates hrest with
  | within _ hpending =>
    rw [hp] at hpending
    cases hpending
  | @ended D m doc s x hD hs htext => exact ⟨D, m, doc, s, x, hD, hs, htext⟩

end ShapeBindings.Header
