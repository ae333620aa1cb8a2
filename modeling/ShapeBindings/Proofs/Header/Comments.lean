import ShapeBindings.Header.Comment
import ShapeBindings.Proofs.Text.Lines

/-!
# Blanking block comments, piece by piece

* `commentOpen b u`: whether a block comment is open after `u`, when `b` says whether one is before it;
* `blankComments_append`: a text that ends with a line feed is blanked apart from what follows it;
* `Transparent s`: `s` is copied when it stands outside comments.  Texts without a slash are transparent, and so are
  texts that do not contain the two characters that open a block comment.
-/

namespace ShapeBindings.Header

open Text

/-- Whether a block comment is open after a text. -/
def commentOpen : Bool → List Char → Bool
  | false, '/' :: '*' :: s => commentOpen true s
  | true, '*' :: '/' :: s => commentOpen false s
  | b, _ :: s => commentOpen b s
  | b, [] => b

/-! ### Steps -/

@[simp] theorem blankComments_nil (b : Bool) : blankComments b [] = [] := by cases b <;> rfl

@[simp] theorem commentOpen_nil (b : Bool) : commentOpen b [] = b := by cases b <;> rfl

@[simp] theorem blankComments_slash_star (s : List Char) :
    blankComments false ('/' :: '*' :: s) = blankComments true s := rfl

@[simp] theorem commentOpen_slash_star (s : List Char) : commentOpen false ('/' :: '*' :: s) = commentOpen true s := rfl

@[simp] theorem blankComments_star_slash (s : List Char) :
    blankComments true ('*' :: '/' :: s) = blankComments false s := rfl

@[simp] theorem commentOpen_star_slash (s : List Char) : commentOpen true ('*' :: '/' :: s) = commentOpen false s := rfl

theorem blankComments_cons_of_closed {c : Char} {s : List Char} (h : ∀ t, c = '/' → s = '*' :: t → False) :
    blankComments false (c :: s) = c :: blankComments false s :=
  blankComments.eq_3 c s h

theorem blankComments_cons_of_open {c : Char} {s : List Char} (h : ∀ t, c = '*' → s = '/' :: t → False) :
    blankComments true (c :: s) = (if c = '\n' then '\n' else ' ') :: blankComments true s :=
  blankComments.eq_4 c s h

theorem blankComments_cons_of_ne {c : Char} (hc : c ≠ '/') (s : List Char) :
    blankComments false (c :: s) = c :: blankComments false s :=
  blankComments_cons_of_closed fun _ h => absurd h hc

theorem commentOpen_cons_of_closed {c : Char} {s : List Char}
    (h : ∀ t, c = '/' → s = '*' :: t → False) : commentOpen false (c :: s) = commentOpen false s :=
  commentOpen.eq_3 false c s (fun t _ => h t) (by simp)

theorem commentOpen_cons_of_open {c : Char} {s : List Char}
    (h : ∀ t, c = '*' → s = '/' :: t → False) : commentOpen true (c :: s) = commentOpen true s :=
  commentOpen.eq_3 true c s (by simp) (fun t _ => h t)

theorem blankComments_newline (b : Bool) (s : List Char) :
    blankComments b ('\n' :: s) = '\n' :: blankComments b s := by
  cases b
  · exact blankComments_cons_of_ne (by decide) s
  · exact blankComments_cons_of_open (by simp)

/-- A pair of characters that does not start a text does not start it with a line feed after it either. -/
theorem not_pair_append {x y c : Char} {s v : List Char} (hy : y ≠ '\n')
    (h : ∀ t, c = x → s = y :: t → False) : ∀ t, c = x → s ++ '\n' :: v = y :: t → False := by
  intro t h1 h2
  cases s with
  | nil => exact hy (List.cons.inj h2).1.symm
  | cons d s => exact h s h1 (by rw [(List.cons.inj h2).1])

theorem blankComments_append_newline (b : Bool) (u v : List Char) :
    blankComments b (u ++ '\n' :: v) =
      blankComments b u ++ '\n' :: blankComments (commentOpen b u) v := by
  induction b, u using blankComments.induct with
  | case1 s ih => simpa using ih
  | case2 s ih => simpa using ih
  | case3 c s hc ih =>
    have hc' := not_pair_append (v := v) (by decide) hc
    rw [List.cons_append, blankComments_cons_of_closed hc', blankComments_cons_of_closed hc, ih,
      commentOpen_cons_of_closed hc, List.cons_append]
  | case4 c s hc ih =>
    have hc' := not_pair_append (v := v) (by decide) hc
    rw [List.cons_append, blankComments_cons_of_open hc', blankComments_cons_of_open hc, ih,
      commentOpen_cons_of_open hc, List.cons_append]
  | case5 b => simpa using blankComments_newline b v

theorem commentOpen_append_newline (b : Bool) (u v : List Char) :
    commentOpen b (u ++ '\n' :: v) = commentOpen (commentOpen b u) v := by
  induction b, u using blankComments.induct with
  | case1 s ih => simpa using ih
  | case2 s ih => simpa using ih
  | case3 c s hc ih =>
    have hc' := not_pair_append (v := v) (by decide) hc
    rw [List.cons_append, commentOpen_cons_of_closed hc', commentOpen_cons_of_closed hc, ih]
  | case4 c s hc ih =>
    have hc' := not_pair_append (v := v) (by decide) hc
    rw [List.cons_append, commentOpen_cons_of_open hc', commentOpen_cons_of_open hc, ih]
  | case5 b =>
    cases b
    · exact commentOpen_cons_of_closed (by simp)
    · exact commentOpen_cons_of_open (by simp)

theorem blankComments_append {u : List Char} (hu : Ended u) (b : Bool) (v : List Char) :
    blankComments b (u ++ v) = blankComments b u ++ blankComments (commentOpen b u) v := by
  obtain rfl | ⟨w, rfl⟩ := hu
  · simp
  · rw [List.append_assoc, List.singleton_append, blankComments_append_newline,
      blankComments_append_newline, commentOpen_append_newline]
    simp

/-- No comment is open behind `u`, so what follows is read anew, unless a slash and a star meet. -/
theorem blankComments_append_of_closed {b : Bool} {u v : List Char} (hu : commentOpen b u = false)
    (hv : (blankComments b u).getLast? = some '/' → v.head? ≠ some '*') :
    blankComments b (u ++ v) = blankComments b u ++ blankComments false v := by
  have hlast : ∀ {c : Char} {x : List Char}, x.getLast? = some '/' → (c :: x).getLast? = some '/' := fun h => by
    rw [List.getLast?_cons, h]
    rfl
  induction b, u using blankComments.induct with
  | case1 s ih => simpa using ih hu hv
  | case2 s ih => simpa using ih hu hv
  | case3 c s hc ih =>
    rw [blankComments_cons_of_closed hc] at hv
    have hc' : ∀ t, c = '/' → s ++ v = '*' :: t → False := by
      rintro t rfl h2
      cases s with
      | nil =>
        rw [List.nil_append] at h2
        exact hv rfl (by rw [h2]; rfl)
      | cons d s => exact hc s rfl (by rw [(List.cons.inj h2).1])
    rw [commentOpen_cons_of_closed hc] at hu
    rw [List.cons_append, blankComments_cons_of_closed hc', blankComments_cons_of_closed hc,
      ih hu fun h => hv (hlast h), List.cons_append]
  | case4 c s hc ih =>
    rw [commentOpen_cons_of_open hc] at hu
    rw [blankComments_cons_of_open hc] at hv
    have hc' : ∀ t, c = '*' → s ++ v = '/' :: t → False := by
      intro t h1 h2
      cases s with
      | nil => cases hu
      | cons d s => exact hc s h1 (by rw [(List.cons.inj h2).1])
    rw [List.cons_append, blankComments_cons_of_open hc', blankComments_cons_of_open hc,
      ih hu fun h => hv (hlast h), List.cons_append]
  | case5 b =>
    rw [commentOpen_nil] at hu
    rw [hu, blankComments_nil]
    rfl

theorem ended_blankComments {u : List Char} (hu : Ended u) (b : Bool) : Ended (blankComments b u) := by
  obtain rfl | ⟨w, rfl⟩ := hu
  · left
    simp
  · right
    rw [blankComments_append_newline, blankComments_nil]
    exact ⟨_, rfl⟩

/-! ### Numbers of lines -/

theorem count_newline_blankComments (b : Bool) (s : List Char) : (blankComments b s).count '\n' = s.count '\n' := by
  induction b, s using blankComments.induct with
  | case1 s ih => simpa using ih
  | case2 s ih => simpa using ih
  | case3 c s hc ih => rw [blankComments_cons_of_closed hc, List.count_cons, List.count_cons, ih]
  | case4 c s hc ih =>
    rw [blankComments_cons_of_open hc, List.count_cons, List.count_cons, ih]
    by_cases h : c = '\n' <;> simp [h]
  | case5 b => simp

theorem newline_mem_blankComments {b : Bool} {u : List Char} : '\n' ∈ blankComments b u ↔ '\n' ∈ u := by
  rw [← List.count_pos_iff, count_newline_blankComments, List.count_pos_iff]

theorem length_lines_blankComments {u : List Char} (hu : Ended u) (b : Bool) :
    (lines (blankComments b u)).length = (lines u).length := by
  rw [length_lines (ended_blankComments hu b), length_lines hu, count_newline_blankComments]

/-- Comments can only hide a last line that has no line feed. -/
theorem length_lines_blankComments_le (s : List Char) :
    (lines (blankComments false s)).length ≤ (lines s).length := by
  obtain ⟨u, v, hu, hv, rfl⟩ := exists_ended_append s
  rw [blankComments_append hu, lines_append hu, lines_append (ended_blankComments hu false), List.length_append,
    List.length_append, length_lines_blankComments hu]
  refine Nat.add_le_add_left ?_ _
  generalize commentOpen false u = b
  have hblank : '\n' ∉ blankComments b v := mt newline_mem_blankComments.1 hv
  by_cases hne : v = []
  · rw [hne, blankComments_nil]
  · rw [lines_eq_singleton hv hne]
    by_cases hempty : blankComments b v = []
    · rw [hempty]
      exact Nat.zero_le _
    · rw [lines_eq_singleton hblank hempty]
      exact le_rfl

/-! ### Texts that are copied -/

/-- The text `s` is copied when it stands outside comments, whatever follows it. -/
def Transparent (s : List Char) : Prop :=
  ∀ t, blankComments false (s ++ t) = s ++ blankComments false t

theorem transparent_nil : Transparent [] := fun _ => rfl

theorem Transparent.append {s t : List Char} (hs : Transparent s) (ht : Transparent t) :
    Transparent (s ++ t) := by
  intro u
  rw [List.append_assoc, hs, ht, List.append_assoc]

theorem transparent_of_slash_not_mem {s : List Char} (h : '/' ∉ s) : Transparent s := by
  intro t
  induction s with
  | nil => rfl
  | cons c s ih =>
    have hc : c ≠ '/' := by rintro rfl; simp at h
    rw [List.cons_append, blankComments_cons_of_ne hc, ih fun hm => h (List.mem_cons_of_mem _ hm),
      List.cons_append]

theorem Transparent.cons {c : Char} (hc : c ≠ '/') {s : List Char} (hs : Transparent s) : Transparent (c :: s) := by
  intro t
  rw [List.cons_append, blankComments_cons_of_ne hc, hs, List.cons_append]

/-- No block comment opens in `s`, nor between `s` and what follows it. -/
theorem Transparent.append_of_no_opening {s u : List Char} (hu : Transparent u) (h : ¬ ['/', '*'] <:+: s)
    (hne : u ≠ []) (hhead : u.head? ≠ some '*') : Transparent (s ++ u) := by
  intro t
  induction s with
  | nil => exact hu t
  | cons c s ih =>
    have hs : ¬ ['/', '*'] <:+: s := fun hi => h (hi.trans (List.infix_cons (List.infix_refl _)))
    have hc : ∀ r, c = '/' → s ++ u ++ t = '*' :: r → False := by
      rintro r rfl hr
      cases s with
      | nil =>
        obtain ⟨d, v, rfl⟩ := List.exists_cons_of_ne_nil hne
        rw [List.nil_append, List.cons_append, List.cons.injEq] at hr
        exact hhead (by rw [hr.1]; rfl)
      | cons d s =>
        have hd : d = '*' := (List.cons.inj hr).1
        subst hd
        exact h ⟨[], s, by simp⟩
    rw [List.cons_append, List.cons_append, blankComments_cons_of_closed hc, ih hs]
    rfl

end ShapeBindings.Header
