import ShapeBindings.Proofs.Header.Comments
import ShapeBindings.Proofs.Header.Reading

/-!
# The text outside comments

* `visible`: a header without its comments, when line comments and block comments are looked for together, from left to
  right;
* `plainComments`: to take out the block comments first and the line comments then comes to the same;
* `Widens`: a line with more blanks, but only where they part no word;
* `widens_visible`: in a header with such comments only, the code of the lines is what is visible of them, up to blanks.
-/

namespace ShapeBindings.Header

open Text

/-- Where a character stands. -/
inductive Lex where
  | code
  | line
  | block
  deriving DecidableEq

/-- The text outside comments.  What a block comment holds counts as blanks, and line feeds are kept. -/
def visible : Lex → List Char → List Char
  | .code, '/' :: '/' :: s => visible .line s
  | .code, '/' :: '*' :: '*' :: '/' :: s => ' ' :: visible .code s
  | .code, '/' :: '*' :: s => visible .block s
  | .code, c :: s => c :: visible .code s
  | .line, '\n' :: s => '\n' :: visible .code s
  | .line, _ :: s => visible .line s
  | .block, '*' :: '/' :: s => visible .code s
  | .block, c :: s => (if c = '\n' then '\n' else ' ') :: visible .block s
  | _, [] => []

/-- What stands before two slashes. -/
def codeOf (s : List Char) : List Char := (Line.ofText 0 s).code

/-- The first line of a text. -/
def firstRow (s : List Char) : List Char := s.takeWhile (· ≠ '\n')

/-- A line does not go on with a character that is no blank. -/
def breaksOff (s : List Char) : Bool := s.head?.all isBlank

/-- A line comment does not go on with a star, nor does it leave a block comment open; and an empty block comment joins
no two words.  The flag `glued` tells that the last character outside comments is no blank. -/
def plainComments : Lex → Bool → List Char → Bool
  | .code, glued, '/' :: '/' :: s =>
    s.head? ≠ some '*' && !commentOpen false (firstRow s) && plainComments .line glued s
  | .code, glued, '/' :: '*' :: '*' :: '/' :: s =>
    (!glued || breaksOff (codeOf (firstRow (blankComments false s)))) && plainComments .code glued s
  | .code, glued, '/' :: '*' :: s => plainComments .block glued s
  | .code, _, c :: s => plainComments .code (!isBlank c) s
  | .line, _, '\n' :: s => plainComments .code false s
  | .line, glued, _ :: s => plainComments .line glued s
  | .block, glued, '*' :: '/' :: s => plainComments .code glued s
  | .block, _, _ :: s => plainComments .block false s
  | _, _, [] => true

variable {c : Char} {s x : List Char} {xs : List (List Char)}

theorem code_ofText (n : Nat) (s : List Char) : (Line.ofText n s).code = codeOf s := by
  unfold codeOf Line.ofText
  split <;> rfl

theorem codeOf_slashes (s : List Char) : codeOf ('/' :: '/' :: s) = [] :=
  congrArg Line.code (Line.ofText_remark (a := []) (by simp) 0 s)

theorem codeOf_cons (h : c = '/' → s.head? ≠ some '/') : codeOf (c :: s) = c :: codeOf s := by
  have hafter : after? ['/', '/'] (c :: s) = none := by
    rw [Option.eq_none_iff_forall_ne_some]
    intro r hr
    obtain ⟨hc, hs⟩ := List.cons.inj (after?_eq_some_iff.1 hr)
    exact h hc (by rw [hs]; rfl)
  unfold codeOf Line.ofText
  rw [cutAt, hafter]
  cases cutAt ['/', '/'] s <;> rfl

theorem head?_blankComments (h : s.head? ≠ some '/') : (blankComments false s).head? ≠ some '/' := by
  cases s with
  | nil => simp [blankComments]
  | cons d s =>
    have hd : d ≠ '/' := by simpa using h
    rw [blankComments_cons_of_ne hd]
    exact h

/-- The first line of a text starts like the text. -/
theorem head?_of_splitOn (hs : s.splitOn '\n' = x :: xs) (h : s.head? ≠ some c) : x.head? ≠ some c := by
  cases s with
  | nil =>
    rw [List.splitOn_nil] at hs
    obtain ⟨rfl, -⟩ := List.cons.inj hs
    simp
  | cons d s =>
    rw [List.splitOn_cons_eq_if_modifyHead] at hs
    obtain ⟨v, vs, hv⟩ := List.exists_cons_of_ne_nil (List.splitOn_ne_nil '\n' s)
    rw [hv] at hs
    split at hs
    · obtain ⟨rfl, -⟩ := List.cons.inj hs
      simp
    · obtain ⟨rfl, -⟩ := List.cons.inj hs
      exact h

theorem splitOn_newline (s : List Char) : ('\n' :: s).splitOn '\n' = [] :: s.splitOn '\n' := by
  rw [List.splitOn_cons_eq_if_modifyHead]
  simp

theorem splitOn_cons_of_ne (hc : c ≠ '\n') (hs : s.splitOn '\n' = x :: xs) :
    (c :: s).splitOn '\n' = (c :: x) :: xs := by
  rw [List.splitOn_cons_eq_if_modifyHead, hs]
  simp [hc]

/-- Whether a block comment is open. -/
def Lex.isOpen : Lex → Bool
  | .block => true
  | _ => false

/-- What is left of a text: a line comment goes on to the end of its line. -/
def Lex.left : Lex → List Char → List Char
  | .line, s => s.dropWhile (· ≠ '\n')
  | _, s => s

/-! ### More blanks -/

/-- The line `y` is the line `x` with more blanks, but only where there is a blank or an end already.  The flag `glued`
tells that a character stands before both that is no blank. -/
inductive Widens : Bool → List Char → List Char → Prop
  | nil {glued : Bool} : Widens glued [] []
  | cons {glued : Bool} {c : Char} {x y : List Char} (h : Widens (!isBlank c) x y) : Widens glued (c :: x) (c :: y)
  | blank {glued : Bool} {c : Char} {x y : List Char} (hc : isBlank c = true) (hx : glued = true → breaksOff x = true)
      (h : Widens glued x y) : Widens glued x (c :: y)

/-- Line by line, `v` is the code of the text `b` with more blanks. -/
def Agree (glued : Bool) (b v : List Char) : Prop :=
  ∃ x xs y ys, b.splitOn '\n' = x :: xs ∧ v.splitOn '\n' = y :: ys ∧ Widens glued (codeOf x) y ∧
    List.Forall₂ (fun x y => Widens false (codeOf x) y) xs ys

variable {glued : Bool} {b v : List Char}

theorem firstRow_of_splitOn (h : s.splitOn '\n' = x :: xs) : firstRow s = x := by
  induction s generalizing x xs with
  | nil =>
    rw [List.splitOn_nil] at h
    exact (List.cons.inj h).1
  | cons c s ih =>
    obtain ⟨y, ys, hy⟩ := List.exists_cons_of_ne_nil (List.splitOn_ne_nil '\n' s)
    by_cases hc : c = '\n'
    · rw [hc, splitOn_newline] at h
      rw [← (List.cons.inj h).1, hc]
      rfl
    · rw [splitOn_cons_of_ne hc hy] at h
      have hrow : firstRow (c :: s) = c :: firstRow s := List.takeWhile_cons_of_pos (decide_eq_true hc)
      rw [hrow, ih hy]
      exact (List.cons.inj h).1

theorem agree_nil (glued : Bool) : Agree glued [] [] :=
  ⟨[], [], [], [], List.splitOn_nil .., List.splitOn_nil .., .nil, .nil⟩

theorem agree_newline (h : Agree false b v) (glued : Bool) : Agree glued ('\n' :: b) ('\n' :: v) := by
  obtain ⟨x, xs, y, ys, hx, hy, hxy, hrows⟩ := h
  exact ⟨[], x :: xs, [], y :: ys, by rw [splitOn_newline, hx], by rw [splitOn_newline, hy], .nil, .cons hxy hrows⟩

/-- A character is copied, unless it starts a line comment. -/
theorem agree_copy (hslash : c = '/' → b.head? ≠ some '/') (h : Agree (!isBlank c) b v) :
    Agree glued (c :: b) (c :: v) := by
  by_cases hc : c = '\n'
  · subst hc
    exact agree_newline h glued
  obtain ⟨x, xs, y, ys, hx, hy, hxy, hrows⟩ := h
  refine ⟨c :: x, xs, c :: y, ys, splitOn_cons_of_ne hc hx, splitOn_cons_of_ne hc hy, ?_, hrows⟩
  rw [codeOf_cons fun h => head?_of_splitOn hx (hslash h)]
  exact .cons hxy

/-- A blank is visible where an empty comment parts no word. -/
theorem agree_blank (hb : glued = true → breaksOff (codeOf (firstRow b)) = true) (h : Agree glued b v) :
    Agree glued b (' ' :: v) := by
  obtain ⟨x, xs, y, ys, hx, hy, hxy, hrows⟩ := h
  rw [firstRow_of_splitOn hx] at hb
  exact ⟨x, xs, ' ' :: y, ys, hx, splitOn_cons_of_ne (by decide) hy, .blank (by decide) hb hxy, hrows⟩

/-- What stands behind two slashes is hidden up to the end of the line. -/
theorem agree_hide {a : List Char} (ha : '\n' ∉ a) (hb : b = [] ∨ ∃ t, b = '\n' :: t) (h : Agree glued b v) :
    Agree glued ('/' :: '/' :: (a ++ b)) v := by
  obtain ⟨x, xs, y, ys, hx, hy, hxy, hrows⟩ := h
  have hnil : x = [] := by
    rcases hb with rfl | ⟨t, rfl⟩
    · rw [List.splitOn_nil] at hx
      exact (List.cons.inj hx).1.symm
    · rw [splitOn_newline] at hx
      exact (List.cons.inj hx).1.symm
  have hrow : (a ++ b).splitOn '\n' = a :: xs := by
    induction a with
    | nil => rwa [List.nil_append, ← hnil]
    | cons d a ih =>
      rw [List.mem_cons, not_or] at ha
      exact splitOn_cons_of_ne (Ne.symm ha.1) (ih ha.2)
  refine ⟨'/' :: '/' :: a, xs, y, ys, splitOn_cons_of_ne (by decide) (splitOn_cons_of_ne (by decide) hrow), hy, ?_, hrows⟩
  rw [hnil] at hxy
  rwa [codeOf_slashes]

/-! ### Line comments -/

/-- A line comment that opens no block comment beyond its line is still a line comment when block comments are taken
out. -/
theorem blankComments_lineComment (hs : s.head? ≠ some '*') (hclosed : commentOpen false (firstRow s) = false) :
    ∃ a, '\n' ∉ a ∧ blankComments false ('/' :: '/' :: s) =
      '/' :: '/' :: (a ++ blankComments false (s.dropWhile (· ≠ '\n'))) := by
  have hrow : '\n' ∉ firstRow s := fun h => by simpa using List.mem_takeWhile_imp h
  have htail : (s.dropWhile (· ≠ '\n')).head? ≠ some '*' := by
    intro hstar
    have hhead := List.head?_dropWhile_not (· ≠ '\n') s
    rw [hstar] at hhead
    simp at hhead
  have hsplit : firstRow s ++ s.dropWhile (· ≠ '\n') = s := List.takeWhile_append_dropWhile
  have hcode : blankComments false s =
      blankComments false (firstRow s) ++ blankComments false (s.dropWhile (· ≠ '\n')) := by
    conv_lhs => rw [← hsplit]
    exact blankComments_append_of_closed hclosed fun _ => htail
  refine ⟨blankComments false (firstRow s), mt newline_mem_blankComments.1 hrow, ?_⟩
  rw [blankComments_cons_of_closed (by simp), blankComments_cons_of_closed, hcode]
  rintro t - rfl
  exact hs rfl

theorem blankComments_dropWhile (s : List Char) :
    blankComments false (s.dropWhile (· ≠ '\n')) = [] ∨
      ∃ t, blankComments false (s.dropWhile (· ≠ '\n')) = '\n' :: t := by
  cases h : s.dropWhile (· ≠ '\n') with
  | nil => exact .inl (blankComments_nil false)
  | cons c t =>
    have hhead := List.head?_dropWhile_not (· ≠ '\n') s
    rw [h] at hhead
    obtain rfl : c = '\n' := by simpa using hhead
    exact .inr ⟨_, blankComments_newline false t⟩

/-! ### All lines -/

/-- Line by line, what is visible is the code, up to blanks. -/
theorem agree_visible {lex : Lex} {s : List Char} (h : plainComments lex glued s = true) :
    Agree glued (blankComments lex.isOpen (lex.left s)) (visible lex s) := by
  induction lex, s using visible.induct generalizing glued with
  | case1 s ih =>
    rw [plainComments.eq_1, Bool.and_eq_true, Bool.and_eq_true, decide_eq_true_eq, Bool.not_eq_true'] at h
    obtain ⟨a, ha, hblank⟩ := blankComments_lineComment h.1.1 h.1.2
    rw [visible.eq_1]
    change Agree glued (blankComments false ('/' :: '/' :: s)) _
    rw [hblank]
    exact agree_hide ha (blankComments_dropWhile s) (ih h.2)
  | case2 s ih =>
    rw [plainComments.eq_2, Bool.and_eq_true, Bool.or_eq_true, Bool.not_eq_true'] at h
    rw [visible.eq_2]
    refine agree_blank (fun hglued => h.1.resolve_left ?_) (ih h.2)
    simp [hglued]
  | case3 s hs ih =>
    rw [plainComments.eq_3 _ s hs] at h
    rw [visible.eq_3 s hs]
    exact ih h
  | case4 c s h1 h2 h3 ih =>
    rw [plainComments.eq_4 _ c s h1 h2 h3] at h
    rw [visible.eq_4 c s h1 h2 h3]
    change Agree glued (blankComments false (c :: s)) _
    rw [blankComments_cons_of_closed h3]
    refine agree_copy (fun hc => head?_blankComments fun hs => ?_) (ih h)
    -- a slash before another one has been read as a line comment
    obtain ⟨t, rfl⟩ := List.head?_eq_some_iff.1 hs
    exact h1 t hc rfl
  | case5 s ih =>
    rw [plainComments.eq_5] at h
    rw [visible.eq_5]
    change Agree glued (blankComments false ('\n' :: s)) _
    rw [blankComments_newline]
    exact agree_newline (ih h) glued
  | case6 c s hc ih =>
    rw [plainComments.eq_6 _ c s hc] at h
    have hleft : Lex.line.left (c :: s) = Lex.line.left s := by
      simp only [Lex.left]
      exact List.dropWhile_cons_of_pos (decide_eq_true hc)
    rw [visible.eq_6 c s hc, hleft]
    exact ih h
  | case7 s ih =>
    rw [plainComments.eq_7] at h
    exact ih h
  | case8 c s hc ih =>
    rw [plainComments.eq_8 _ c s hc] at h
    rw [visible.eq_8 c s hc]
    change Agree glued (blankComments true (c :: s)) _
    rw [blankComments_cons_of_open hc]
    refine agree_copy (fun hslash => ?_) ?_
    · split at hslash <;> cases hslash
    · have hblank : isBlank (if c = '\n' then '\n' else ' ') = true := by split <;> decide
      rw [hblank]
      exact ih h
  | case9 lex =>
    rw [visible.eq_9]
    cases lex <;> exact agree_nil glued

/-- The lines of a header hold the code that is visible, up to blanks. -/
theorem widens_visible {s : List Char} (h : plainComments .code false s = true) :
    List.Forall₂ (Widens false) (((blankComments false s).splitOn '\n').map codeOf) ((visible .code s).splitOn '\n') := by
  obtain ⟨x, xs, y, ys, hx, hy, hxy, hrows⟩ := agree_visible h
  change (blankComments false s).splitOn '\n' = x :: xs at hx
  rw [hx, hy, List.map_cons]
  exact .cons hxy (List.forall₂_map_left_iff.2 hrows)

end ShapeBindings.Header
