import Mathlib.Data.List.DropRight
import ShapeBindings.Proofs.Header.Markers
import ShapeBindings.Proofs.Header.Outline
import ShapeBindings.Proofs.Header.SameWords

/-!
# Gaps on a line

A gap is a run of blanks between two parts of a header, the first of which ends outside comments.

* `lastLine`, `firstLines`: what stands behind the last line feed of a text, and what before;
* `answer key x`: the table that a reader ends with, or the line of its error as `key` shows it;
* `answer_row`: the first line of a text is read before the others, without a look at how it ends;
* `answer_gap`: gaps without line feeds can be exchanged, also for an answer with the line of an error.
-/

namespace ShapeBindings.Header

open Text Reader

variable {κ : Type} {key : Nat → κ} {p : String} {n n' : Nat} {r : Reader} {a b e s t u v x y : List Char}

/-- What stands behind the last line feed of a text. -/
def lastLine (s : List Char) : List Char := s.rtakeWhile (· ≠ '\n')

/-- A text without its last line. -/
def firstLines (s : List Char) : List Char := s.rdropWhile (· ≠ '\n')

/-- The two characters that open a line comment. -/
abbrev slashes : List Char := ['/', '/']

theorem lastLine_append (hu : Ended u) (hx : '\n' ∉ x) : lastLine (u ++ x) = x := by
  have hall : ∀ c ∈ x, (decide (c ≠ '\n')) = true := fun c hc => by
    rw [decide_eq_true_eq]
    rintro rfl
    exact hx hc
  unfold lastLine List.rtakeWhile
  rw [List.reverse_append, List.takeWhile_append_of_pos fun c hc => hall c (List.mem_reverse.1 hc)]
  obtain rfl | ⟨w, rfl⟩ := hu
  · simp
  · simp

theorem firstLines_append (hu : Ended u) (hx : '\n' ∉ x) : firstLines (u ++ x) = u := by
  have hall : ∀ c ∈ x, (decide (c ≠ '\n')) = true := fun c hc => by
    rw [decide_eq_true_eq]
    rintro rfl
    exact hx hc
  unfold firstLines List.rdropWhile
  rw [List.reverse_append, List.dropWhile_append_of_pos fun c hc => hall c (List.mem_reverse.1 hc)]
  obtain rfl | ⟨w, rfl⟩ := hu
  · simp
  · simp

/-- A text without slashes ends outside comments. -/
theorem outside_of_slash_not_mem (h : '/' ∉ s) : commentOpen false s = false ∧ ¬ slashes <:+: lastLine s := by
  constructor
  · induction s with
    | nil => rfl
    | cons c s ih =>
      rw [List.mem_cons, not_or] at h
      rw [commentOpen_cons_of_closed fun t hc _ => h.1 hc.symm, ih h.2]
  · intro hslashes
    exact h ((List.rtakeWhile_suffix _ s).subset (hslashes.subset List.mem_cons_self))

/-! ### Line comments -/

/-- What a block comment leaves behind starts no line comment. -/
theorem slashes_infix_of_blankComments {b : Bool} (h : slashes <:+: blankComments b s) : slashes <:+: s := by
  have hcons : ∀ {c : Char} {s : List Char}, slashes <:+: s → slashes <:+: c :: s := fun h =>
    h.trans (List.infix_cons (List.infix_refl _))
  induction b, s using blankComments.induct with
  | case1 s ih => exact hcons (hcons (ih h))
  | case2 s ih => exact hcons (hcons (ih h))
  | case3 c s hc ih =>
    rw [blankComments_cons_of_closed hc, List.infix_cons_iff] at h
    rcases h with ⟨rest, hrest⟩ | h
    · obtain ⟨rfl, hs⟩ := List.cons.inj hrest
      have hhead : s.head? = some '/' := by
        by_contra hne
        exact head?_blankComments hne (by rw [← hs]; rfl)
      obtain ⟨t, rfl⟩ := List.head?_eq_some_iff.1 hhead
      exact ⟨[], t, rfl⟩
    · exact hcons (ih h)
  | case4 c s hc ih =>
    rw [blankComments_cons_of_open hc, List.infix_cons_iff] at h
    rcases h with ⟨rest, hrest⟩ | h
    · have hhead := (List.cons.inj hrest).1
      split at hhead <;> exact absurd hhead (by decide)
    · exact hcons (ih h)
  | case5 b =>
    rw [blankComments_nil] at h
    exact h

/-- A text up to its last line, and the code and blanks of the last line. -/
theorem exists_blankComments_lastLine (hu : ¬ slashes <:+: lastLine u) :
    ∃ w x, blankComments false u = w ++ x ∧ Ended w ∧ '\n' ∉ x ∧ ¬ slashes <:+: x := by
  obtain ⟨w, x, hw, hx, rfl⟩ := exists_ended_append u
  rw [lastLine_append hw hx] at hu
  exact ⟨_, _, blankComments_append hw false x, ended_blankComments hw false, mt newline_mem_blankComments.1 hx,
    mt slashes_infix_of_blankComments hu⟩

theorem cutAt_slashes_append (hs : ¬ slashes <:+: s) (hlast : s.getLast? ≠ some '/') (t : List Char) :
    cutAt slashes (s ++ t) = (cutAt slashes t).map fun (u, v) => (s ++ u, v) := by
  induction s with
  | nil => cases h : cutAt slashes t <;> simp [h]
  | cons c s ih =>
    have hafter : after? slashes (c :: (s ++ t)) = none := by
      rw [Option.eq_none_iff_forall_ne_some]
      intro rest hrest
      obtain ⟨rfl, htail⟩ := List.cons.inj (after?_eq_some_iff.1 hrest)
      cases s with
      | nil => exact hlast rfl
      | cons d s =>
        obtain ⟨rfl, -⟩ := List.cons.inj htail
        exact hs ⟨[], s, rfl⟩
    have hs' : ¬ slashes <:+: s := fun h => hs (h.trans (List.infix_cons (List.infix_refl _)))
    have hlast' : s.getLast? ≠ some '/' := by
      cases s with
      | nil => simp
      | cons d s => rwa [List.getLast?_cons_cons] at hlast
    rw [List.cons_append, cutAt, hafter, ih hs' hlast', Option.map_map]
    rfl

theorem ofText_of_not_slashes (hs : ¬ slashes <:+: s) (n : Nat) : Line.ofText n s = ⟨n, s, none⟩ := by
  have hcut : cutAt slashes s = none := by
    rw [Option.eq_none_iff_forall_ne_some]
    rintro ⟨u, v⟩ hcut
    exact hs ⟨u, v, by rw [List.append_assoc]; exact (eq_of_cutAt hcut).symm⟩
  unfold Line.ofText
  rw [hcut]

/-- Blanks at the end of a line do not matter. -/
theorem alike_append_blanks (hb : Blanks b) (hn : key n = key n') (s : List Char) :
    Line.Alike key (.ofText n (s ++ b)) (.ofText n' s) := by
  unfold Line.ofText
  rw [cutAt_append_blanks (forall_mem_of_all (by decide)) hb]
  cases cutAt slashes s with
  | none => exact ⟨hn, words_append_blanks s hb, rfl⟩
  | some q =>
    obtain ⟨u, v⟩ := q
    rw [Option.map_some]
    dsimp only
    rw [trim_append_blanks v hb]
    exact ⟨hn, rfl, rfl⟩

/-- A line with a gap: the part before the gap is code, and the words behind it are those of a line of its own. -/
theorem ofText_gap (hx : ¬ slashes <:+: x) (ha : Blanks a) (hne : a ≠ []) (y : List Char) :
    Line.ofText n (x ++ (a ++ y)) =
      ⟨n, x ++ (a ++ (Line.ofText n y).code), (Line.ofText n y).remark⟩ := by
  have hgap : ¬ slashes <:+: x ++ a := by
    intro h
    rcases List.infix_append_iff.1 h with h | h | ⟨l₁, l₂, hsplit, hend, hstart⟩
    · exact hx h
    · exact ha.not_mem (show isBlank '/' = false by decide) (h.subset (by decide))
    · -- a slash would stand among the blanks
      cases l₂ with
      | nil =>
        rw [List.append_nil] at hsplit
        exact hx (hsplit ▸ hend.isInfix)
      | cons d l₂ =>
        have hd : d = '/' := by
          have hmem : d ∈ slashes := hsplit ▸ List.mem_append_right l₁ List.mem_cons_self
          simpa [slashes] using hmem
        exact ha.not_mem (show isBlank '/' = false by decide) (hstart.subset (hd ▸ List.mem_cons_self))
  have hlast : (x ++ a).getLast? ≠ some '/' := by
    rw [List.getLast?_append_of_ne_nil _ hne]
    intro h
    exact ha.not_mem (by decide) (List.mem_of_getLast? h)
  unfold Line.ofText
  rw [← List.append_assoc, cutAt_slashes_append hgap hlast]
  cases cutAt slashes y with
  | none => rw [← List.append_assoc]; rfl
  | some q => simp

theorem alike_gap (hx : ¬ slashes <:+: x) (ha : Blanks a) (hne : a ≠ []) (hb : Blanks b) (hne' : b ≠ []) (n : Nat)
    (y : List Char) : Line.Alike key (.ofText n (x ++ (a ++ y))) (.ofText n (x ++ (b ++ y))) := by
  rw [ofText_gap hx ha hne, ofText_gap hx hb hne']
  refine ⟨rfl, ?_, rfl⟩
  dsimp only
  rw [words_append_blanks_append ha hne, words_append_blanks_append hb hne']

/-! ### Answers -/

/-- The table that a reader ends with, or the line of its error. -/
def answer (key : Nat → κ) (x : Except HeaderError Reader) : Except κ Table := (x.bind finish).mapError (key ·.line)

theorem answer_congr {x y : Except HeaderError Reader} (h : SameOutcome key (Reader.Alike key) x y) :
    answer key x = answer key y :=
  (h.bind fun _ _ h => sameOutcome_finish h).mapError_eq

theorem answer_bind_congr {x : Except HeaderError Reader} {f g : Reader → Except HeaderError Reader}
    (h : ∀ r, x = .ok r → answer key (f r) = answer key (g r)) : answer key (x.bind f) = answer key (x.bind g) := by
  cases x with
  | error e => rfl
  | ok r => exact h r rfl

theorem mapError_parse (key : Nat → κ) (p : String) (s : List Char) :
    (parse p (String.ofList s)).mapError (key ·.line) = answer key (readFrom p 0 {} (blankComments false s)) := by
  rw [parse_eq]
  rfl

/-- What follows some lines. -/
theorem answer_append_congr (hu : Ended u) {n : Nat} {r : Reader}
    (h : ∀ r', readFrom p n r u = .ok r' → answer key (readFrom p (n + (lines u).length) r' s) =
      answer key (readFrom p (n + (lines u).length) r' t)) :
    answer key (readFrom p n r (u ++ s)) = answer key (readFrom p n r (u ++ t)) := by
  rw [readFrom_append hu, readFrom_append hu]
  exact answer_bind_congr h

/-- What follows two lines that are alike. -/
theorem answer_readLine_bind {r r' : Reader} (hr : r.Alike key r') {l l' : Line} (h : l.Alike key l')
    (hn : ∀ i, key (n + i) = key (n' + i)) (s : List Char) :
    answer key ((r.readLine p l).bind fun r => readFrom p n r s) =
      answer key ((r'.readLine p l').bind fun r => readFrom p n' r s) :=
  answer_congr ((sameOutcome_readLine hr h).bind fun _ _ hr => sameOutcome_readFrom hn hr s)

/-- A line without words and remarks changes nothing. -/
theorem sameOutcome_blank {l : Line} (hcode : Blanks l.code) (hremark : l.remark = none) :
    SameOutcome key (Reader.Alike key) (r.readLine p l) (.ok r) := by
  rw [readLine_eq, hremark]
  cases hp : r.pending with
  | none =>
    rw [readRest_blanks hp hcode]
    exact .ok (.refl key r)
  | some d =>
    rw [readRest_last (hcode.not_mem (by decide)) (continuation_pending hp _ _)]
    refine .ok ⟨rfl, rfl, ?_⟩
    rw [hp]
    refine .some ⟨rfl, ?_, List.append_nil _⟩
    have hblank : isBlank ' ' = true := by decide
    have hpiece : words (if false = true then trimEnd l.code else l.code) = [] := words_of_blanks hcode
    rw [OpenDeclaration.extend, words_append_blank hblank, hpiece, List.append_nil]

theorem exists_lineEnd (v : List Char) : ∃ y e s, v = y ++ e ∧ '\n' ∉ y ∧ LineEnd e s := by
  by_cases hv : '\n' ∈ v
  · obtain ⟨y, s, hy, rfl⟩ := exists_newline_split hv
    exact ⟨y, _, s, rfl, hy, .newline s⟩
  · exact ⟨v, [], [], (List.append_nil v).symm, hv, .last⟩

/-- The first line of a text is read before the others. -/
theorem answer_row (hx : '\n' ∉ x) (he : LineEnd e s) (n : Nat) (r : Reader) :
    answer key (readFrom p n r (x ++ e)) =
      answer key ((r.readLine p (.ofText (n + 1) x)).bind fun r => readFrom p (n + 1) r s) := by
  cases he with
  | newline s =>
    obtain ⟨b, hb, hchomp⟩ := exists_chomp x
    rw [readFrom_line hx]
    refine (answer_readLine_bind (.refl key r) ?_ (fun _ => rfl) _).symm
    conv_lhs => rw [hchomp]
    exact alike_append_blanks hb rfl _
  | last =>
    rw [List.append_nil]
    by_cases hne : x = []
    · subst hne
      have hblank : SameOutcome key (Reader.Alike key) (r.readLine p (.ofText (n + 1) [])) (.ok r) :=
        sameOutcome_blank blanks_nil rfl
      exact (answer_congr (hblank.bind fun _ _ hr => .ok hr)).symm
    · rw [readFrom_last hx hne]
      cases r.readLine p (.ofText (n + 1) x) <;> rfl

/-- Gaps on a line can be exchanged. -/
theorem answer_gap (hx : '\n' ∉ x) (hcode : ¬ slashes <:+: x) (ha : Blanks a) (hne : a ≠ []) (hline : '\n' ∉ a)
    (hb : Blanks b) (hne' : b ≠ []) (hline' : '\n' ∉ b) (n : Nat) (r : Reader) (v : List Char) :
    answer key (readFrom p n r (x ++ (a ++ v))) = answer key (readFrom p n r (x ++ (b ++ v))) := by
  obtain ⟨y, e, s, rfl, hy, he⟩ := exists_lineEnd v
  have hrow : ∀ g : List Char, '\n' ∉ g → '\n' ∉ x ++ (g ++ y) ∧ x ++ (g ++ (y ++ e)) = x ++ (g ++ y) ++ e := by
    intro g hg
    simp [hx, hg, hy]
  rw [(hrow a hline).2, (hrow b hline').2, answer_row (hrow a hline).1 he, answer_row (hrow b hline').1 he]
  exact answer_readLine_bind (.refl key r) (alike_gap hcode ha hne hb hne' _ _) (fun _ => rfl) _

end ShapeBindings.Header
