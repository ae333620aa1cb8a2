import ShapeBindings.Proofs.Header.Gaps

/-!
# Line endings

* `crlf text`: the text with a carriage return before every line feed;
* `blankComments_concat`: a character that ends no delimiter is blanked, or copied, by itself;
* `sameOutcome_withReturns`: the step from line to line, inside and outside block comments.  The carriage return at the
  end of a line is taken off with the line feed, or it is a blank that a block comment leaves there;
* `parse_crlf`: a header is read alike with either ending.
-/

namespace ShapeBindings.Header

open Text Reader

variable {p : String} {n : Nat} {r r' : Reader} {b : Bool} {a s t : List Char} {c : Char}

/-- A carriage return before every line feed. -/
def withReturns (s : List Char) : List Char := s.flatMap fun c => if c = '\n' then ['\r', '\n'] else [c]

/-- A text whose lines end with a carriage return and a line feed. -/
def crlf (text : String) : String := String.ofList (withReturns text.toList)

theorem withReturns_of_not_mem (hs : '\n' ∉ s) : withReturns s = s := by
  induction s with
  | nil => rfl
  | cons c s ih =>
    rw [List.mem_cons, not_or] at hs
    have hrest := ih hs.2
    rw [withReturns] at hrest ⊢
    rw [List.flatMap_cons, if_neg (Ne.symm hs.1), hrest, List.singleton_append]

theorem withReturns_newline (ha : '\n' ∉ a) (t : List Char) :
    withReturns (a ++ '\n' :: t) = (a ++ ['\r']) ++ '\n' :: withReturns t := by
  have hline := withReturns_of_not_mem ha
  rw [withReturns] at hline ⊢
  rw [List.flatMap_append, hline, List.flatMap_cons, if_pos rfl, List.append_assoc]
  rfl

/-! ### The end of a line in a block comment -/

/-- No delimiter ends with a character that is neither a star nor a slash. -/
theorem not_pair_concat {x y d : Char} (hy : c ≠ y) (h : ∀ t, d = x → s = y :: t → False) :
    ∀ t, d = x → s ++ [c] = y :: t → False := by
  intro t hd ht
  cases s with
  | nil => exact hy (List.cons.inj ht).1
  | cons e s => exact h s hd (by rw [(List.cons.inj ht).1])

theorem blankComments_concat (hstar : c ≠ '*') (hslash : c ≠ '/') (b : Bool) (s : List Char) :
    blankComments b (s ++ [c]) = blankComments b s ++ blankComments (commentOpen b s) [c] ∧
      commentOpen b (s ++ [c]) = commentOpen b s := by
  induction b, s using blankComments.induct with
  | case1 s ih => simpa using ih
  | case2 s ih => simpa using ih
  | case3 d s hd ih =>
    have hd' := not_pair_concat hstar hd
    rw [List.cons_append, blankComments_cons_of_closed hd', blankComments_cons_of_closed hd, ih.1,
      commentOpen_cons_of_closed hd', commentOpen_cons_of_closed hd, ih.2]
    exact ⟨rfl, rfl⟩
  | case4 d s hd ih =>
    have hd' := not_pair_concat hslash hd
    rw [List.cons_append, blankComments_cons_of_open hd', blankComments_cons_of_open hd, ih.1,
      commentOpen_cons_of_open hd', commentOpen_cons_of_open hd, ih.2]
    exact ⟨rfl, rfl⟩
  | case5 b =>
    rw [commentOpen_nil, blankComments_nil]
    refine ⟨rfl, ?_⟩
    cases b with
    | false => exact commentOpen_cons_of_closed (by simp)
    | true => exact commentOpen_cons_of_open (by simp)

/-- A blank is a blank or becomes one. -/
theorem blanks_blankComments_singleton (hc : isBlank c = true) (b : Bool) : Blanks (blankComments b [c]) := by
  cases b with
  | false =>
    rw [blankComments_cons_of_closed (by simp), blankComments_nil]
    simpa using hc
  | true =>
    rw [blankComments_cons_of_open (by simp), blankComments_nil]
    split <;> decide

/-! ### Lines -/

theorem Line.Alike.trans {κ : Type} {key : Nat → κ} {l₁ l₂ l₃ : Line} (h : l₁.Alike key l₂) (h' : l₂.Alike key l₃) :
    l₁.Alike key l₃ :=
  ⟨h.number.trans h'.number, h.code.trans h'.code, h.remark.trans h'.remark⟩

theorem Line.Alike.symm {κ : Type} {key : Nat → κ} {l₁ l₂ : Line} (h : l₁.Alike key l₂) : l₂.Alike key l₁ :=
  ⟨h.number.symm, h.code.symm, h.remark.symm⟩

theorem alike_chomp (n : Nat) (x : List Char) : Line.Alike id (.ofText n x) (.ofText n (chomp x)) := by
  obtain ⟨e, he, hx⟩ := exists_chomp x
  have h : Line.Alike id (.ofText n (chomp x ++ e)) (.ofText n (chomp x)) := alike_append_blanks he rfl (chomp x)
  rwa [← hx] at h

/-- Blanks at the end of a line do not matter, whatever the line feed takes of them. -/
theorem alike_chomp_append_blanks {e : List Char} (he : Blanks e) (n : Nat) (x : List Char) :
    Line.Alike id (.ofText n (chomp (x ++ e))) (.ofText n (chomp x)) :=
  (alike_chomp n (x ++ e)).symm.trans ((alike_append_blanks he rfl x).trans (alike_chomp n x))

/-- From readers that know the same, a text is read alike with either line ending. -/
theorem sameOutcome_withReturns (hr : r.Alike id r') (b : Bool) (s : List Char) :
    SameOutcome id (Reader.Alike id) (readFrom p n r (blankComments b (withReturns s)))
      (readFrom p n r' (blankComments b s)) := by
  induction hl : s.length using Nat.strong_induction_on generalizing s n r r' b with
  | _ l ih =>
    by_cases hs : '\n' ∈ s
    · obtain ⟨a, t, ha, rfl⟩ := exists_newline_split hs
      have ht : t.length < l := by rw [← hl, List.length_append, List.length_cons]; omega
      -- the carriage return leaves a blank behind and does not change what is open
      obtain ⟨hblank, hopen⟩ := blankComments_concat (c := '\r') (by decide) (by decide) b a
      have hreturn : Blanks (blankComments (commentOpen b a) ['\r']) := blanks_blankComments_singleton (by decide) _
      generalize blankComments (commentOpen b a) ['\r'] = e at hblank hreturn
      have hx : '\n' ∉ blankComments b a := mt newline_mem_blankComments.1 ha
      have hxe : '\n' ∉ blankComments b a ++ e := by
        rw [← hblank, newline_mem_blankComments]
        simp [ha]
      rw [withReturns_newline ha, blankComments_append_newline, blankComments_append_newline, hblank, hopen,
        readFrom_line hxe, readFrom_line hx]
      have hline := sameOutcome_readLine (p := p) hr (alike_chomp_append_blanks hreturn (n + 1) (blankComments b a))
      exact hline.bind fun r₁ r₁' hr₁ => ih t.length ht hr₁ _ t rfl
    · rw [withReturns_of_not_mem hs]
      exact sameOutcome_readFrom (fun _ => rfl) hr _

/-- **Line endings do not matter.**  With a carriage return before every line feed a header has the same table, or an
error on the same line; also if it has carriage returns of its own. -/
theorem parse_crlf (p text : String) :
    (parse p (crlf text)).mapError HeaderError.line = (parse p text).mapError HeaderError.line := by
  have hread := sameOutcome_withReturns (p := p) (n := 0) (.refl id {}) false text.toList
  have hanswer := mapError_parse id p
  calc (parse p (crlf text)).mapError HeaderError.line
      = answer id (readFrom p 0 {} (blankComments false (withReturns text.toList))) := hanswer _
    _ = answer id (readFrom p 0 {} (blankComments false text.toList)) := answer_congr hread
    _ = (parse p (String.ofList text.toList)).mapError HeaderError.line := (hanswer _).symm
    _ = (parse p text).mapError HeaderError.line := by rw [String.ofList_toList]

/-- A line break in a block comment and one in a declaration. -/
example : parse "p_" (crlf "/* a\n*/LIBFIVE_SECTION(m)\nLIBFIVE_STDLIB f(int /* b\n*/ n);//c\n") =
    .ok ⟨[⟨"m", [⟨"f", "p_f", "m", [⟨"n", "int", 0⟩], some "c"⟩]⟩]⟩ := by decide +kernel

end ShapeBindings.Header
