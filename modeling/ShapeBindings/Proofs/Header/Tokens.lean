import ShapeBindings.Header.Declaration
import ShapeBindings.Proofs.Identifier
import ShapeBindings.Proofs.NativeType
import ShapeBindings.Proofs.Text.Splitting
import ShapeBindings.Proofs.Text.Squeeze

/-!
# The tokens of a parameter list

* `tokens` reads a word up to the next blank or star (`tokens_word_append`, `tokens_append`), gives no empty words
  (`isRun_of_mem_tokens`), and neither the kind nor the number of
  blanks matters to it (`tokens_squeeze`, `tokens_append_blanks`);
* `map_tokens_splitOn_trim`: blanks at the two ends of a parameter list do not matter to the tokens of its parameters.
-/

namespace ShapeBindings.Header

open Text

variable {c : Char} {s : List Char}

/-! ### Steps -/

theorem tokens_singleton (c : Char) :
    tokens [c] = if isBlank c then [] else if c = '*' then [['*']] else [[c]] := by rfl

theorem tokens_cons_cons (c d : Char) (s : List Char) :
    tokens (c :: d :: s) =
      if isBlank c then tokens (d :: s)
      else if c = '*' then ['*'] :: tokens (d :: s)
      else if isBlank d || d = '*' then [c] :: tokens (d :: s)
      else
        match tokens (d :: s) with
        | [] => [[c]]
        | w :: ws => (c :: w) :: ws := by rfl

theorem tokens_cons_blank (hc : isBlank c = true) (s : List Char) : tokens (c :: s) = tokens s := by
  cases s with
  | nil => exact if_pos hc
  | cons d s => exact if_pos hc

theorem tokens_star (s : List Char) : tokens ('*' :: s) = ['*'] :: tokens s := by
  cases s with
  | nil => rfl
  | cons d s => exact if_neg (by decide)

theorem tokens_blanks_append {a : List Char} (ha : Blanks a) (s : List Char) : tokens (a ++ s) = tokens s := by
  induction a with
  | nil => rfl
  | cons c a ih =>
    rw [blanks_cons] at ha
    rw [List.cons_append, tokens_cons_blank ha.1, ih ha.2]

theorem tokens_blanks (hs : Blanks s) : tokens s = [] := by
  rw [← List.append_nil s, tokens_blanks_append hs]
  rfl

/-- A character of a word. -/
def isWordChar (c : Char) : Bool := !isBlank c && c != '*'

theorem isWordChar_iff : isWordChar c = true ↔ isBlank c = false ∧ c ≠ '*' := by
  simp [isWordChar]

/-- Whether a word goes on at the start of a text. -/
def startsWord : List Char → Bool
  | [] => false
  | c :: _ => isWordChar c

theorem startsWord_eq_true {s : List Char} (h : startsWord s = true) : ∃ d t, s = d :: t ∧ isWordChar d = true := by
  cases s with
  | nil => cases h
  | cons d t => exact ⟨d, t, rfl, h⟩

/-- The last character of a word. -/
theorem tokens_cons_of_boundary (hc : isWordChar c = true) (hs : startsWord s = false) :
    tokens (c :: s) = [c] :: tokens s := by
  rw [isWordChar_iff] at hc
  cases s with
  | nil =>
    rw [tokens_singleton]
    simp only [hc, Bool.false_eq_true, if_false]
    rfl
  | cons d s =>
    simp only [startsWord, isWordChar, Bool.and_eq_false_iff, Bool.not_eq_false', bne_eq_false_iff_eq] at hs
    rw [tokens_cons_cons]
    simp [hc, hs]

/-- A word is not empty and goes on up to a blank or a star. -/
theorem tokens_cons_of_word {d : Char} (hc : isWordChar c = true) (hd : isWordChar d = true) (s : List Char) :
    ∃ w ws, tokens (d :: s) = w :: ws ∧ tokens (c :: d :: s) = (c :: w) :: ws := by
  have hne : tokens (d :: s) ≠ [] := by
    rw [isWordChar_iff] at hd
    cases s with
    | nil => simp [tokens_singleton, hd]
    | cons e s =>
      rw [tokens_cons_cons]
      simp only [hd, Bool.false_eq_true, if_false]
      split
      · simp
      · split <;> simp
  obtain ⟨w, ws, h⟩ := List.exists_cons_of_ne_nil hne
  rw [isWordChar_iff] at hc hd
  refine ⟨w, ws, h, ?_⟩
  rw [tokens_cons_cons, h]
  simp [hc, hd]

theorem tokens_word_append {w : List Char} (hw : ∀ c ∈ w, isWordChar c = true) (hne : w ≠ [])
    (hs : startsWord s = false) : tokens (w ++ s) = w :: tokens s := by
  induction w with
  | nil => exact absurd rfl hne
  | cons c w ih =>
    have hc := hw c (by simp)
    cases w with
    | nil => exact tokens_cons_of_boundary hc hs
    | cons d w =>
      have h := ih (fun c hc => hw c (List.mem_cons_of_mem _ hc)) (by simp)
      obtain ⟨v, vs, h1, h2⟩ := tokens_cons_of_word hc (hw d (by simp)) (w ++ s)
      rw [List.cons_append] at h
      rw [List.cons_append, List.cons_append, h2]
      rw [h1, List.cons.injEq] at h
      rw [h.1, h.2]

/-- No token goes on over a place behind which no word goes on. -/
theorem tokens_append (s : List Char) {t : List Char} (ht : startsWord t = false) :
    tokens (s ++ t) = tokens s ++ tokens t := by
  induction s with
  | nil => rfl
  | cons c s ih =>
    rw [List.cons_append]
    by_cases hb : isBlank c
    · rw [tokens_cons_blank hb, tokens_cons_blank hb, ih]
    by_cases hc : c = '*'
    · rw [hc, tokens_star, tokens_star, ih, List.cons_append]
    have hc : isWordChar c = true := isWordChar_iff.2 ⟨by simpa using hb, hc⟩
    cases hs : startsWord s with
    | true =>
      obtain ⟨d, s, rfl, hd⟩ := startsWord_eq_true hs
      obtain ⟨v, vs, h1, h2⟩ := tokens_cons_of_word hc hd (s ++ t)
      obtain ⟨w, ws, h3, h4⟩ := tokens_cons_of_word hc hd s
      rw [List.cons_append, h1, h3, List.cons_append, List.cons.injEq] at ih
      rw [List.cons_append, h2, h4, ih.1, ih.2, List.cons_append]
    | false =>
      have hst : startsWord (s ++ t) = false := by
        cases s with
        | nil => exact ht
        | cons d s => exact hs
      rw [tokens_cons_of_boundary hc hst, tokens_cons_of_boundary hc hs, ih, List.cons_append]

/-- Tokens are not empty and have no blanks. -/
theorem isRun_of_mem_tokens {s w : List Char} (h : w ∈ tokens s) : IsRun w := by
  fun_induction tokens s generalizing w with
  | case1 => simp at h
  | case2 c s hc ih => exact ih h
  | case3 s hc ih =>
    rcases List.mem_cons.1 h with rfl | h
    · exact isRun_singleton (by decide)
    · exact ih h
  | case4 c hc hstar =>
    obtain rfl := List.mem_singleton.1 h
    exact isRun_singleton (by simpa using hc)
  | case5 c hc hstar d s hd ih =>
    rcases List.mem_cons.1 h with rfl | h
    · exact isRun_singleton (by simpa using hc)
    · exact ih h
  | case6 c hc hstar d s hd hw ih =>
    rw [hw] at h
    obtain rfl := List.mem_singleton.1 h
    exact isRun_singleton (by simpa using hc)
  | case7 c hc hstar d s hd v vs hw ih =>
    rw [hw] at h
    rcases List.mem_cons.1 h with rfl | h
    · exact isRun_cons (by simpa using hc) (ih (hw ▸ List.mem_cons_self))
    · exact ih (hw ▸ List.mem_cons_of_mem v h)

theorem exists_tokens_cons {d : Char} (hd : isBlank d = false) (s : List Char) :
    ∃ w ws, tokens (d :: s) = w :: ws ∧ w.head? = some d := by
  by_cases hstar : d = '*'
  · subst hstar
    exact ⟨_, _, tokens_star s, rfl⟩
  have hd : isWordChar d = true := isWordChar_iff.2 ⟨hd, hstar⟩
  cases hs : startsWord s with
  | true =>
    obtain ⟨e, s, rfl, he⟩ := startsWord_eq_true hs
    obtain ⟨v, vs, -, h⟩ := tokens_cons_of_word hd he s
    exact ⟨_, _, h, rfl⟩
  | false => exact ⟨_, _, tokens_cons_of_boundary hd hs, rfl⟩

theorem tokens_eq_nil_iff : tokens s = [] ↔ Blanks s := by
  refine ⟨fun h => ?_, tokens_blanks⟩
  induction s with
  | nil => exact blanks_nil
  | cons c s ih =>
    cases hc : isBlank c with
    | true =>
      rw [tokens_cons_blank hc] at h
      exact blanks_cons.2 ⟨hc, ih h⟩
    | false =>
      obtain ⟨w, ws, hw, -⟩ := exists_tokens_cons hc s
      rw [hw] at h
      cases h

/-- A token is a star or a word. -/
theorem tokens_of_mem_tokens {s w : List Char} (h : w ∈ tokens s) : tokens w = [w] := by
  have hstar : tokens ['*'] = [['*']] := by decide
  induction s generalizing w with
  | nil => cases h
  | cons c s ih =>
    by_cases hb : isBlank c
    · rw [tokens_cons_blank hb] at h
      exact ih h
    by_cases hc : c = '*'
    · rw [hc, tokens_star] at h
      rcases List.mem_cons.1 h with rfl | h
      · exact hstar
      · exact ih h
    have hc : isWordChar c = true := isWordChar_iff.2 ⟨by simpa using hb, hc⟩
    cases hs : startsWord s with
    | true =>
      obtain ⟨d, s, rfl, hd⟩ := startsWord_eq_true hs
      obtain ⟨v, vs, h1, h2⟩ := tokens_cons_of_word hc hd s
      rw [h2] at h
      rw [h1] at ih
      rcases List.mem_cons.1 h with rfl | h
      · obtain ⟨v', vs', h3, hhead⟩ := exists_tokens_cons (isWordChar_iff.1 hd).1 s
        rw [h1] at h3
        obtain ⟨rfl, rfl⟩ := List.cons.inj h3
        obtain ⟨v, rfl⟩ := List.head?_eq_some_iff.1 hhead
        obtain ⟨w, ws, h4, h5⟩ := tokens_cons_of_word hc hd v
        rw [ih List.mem_cons_self] at h4
        obtain ⟨rfl, rfl⟩ := List.cons.inj h4
        exact h5
      · exact ih (List.mem_cons_of_mem v h)
    | false =>
      rw [tokens_cons_of_boundary hc hs] at h
      rcases List.mem_cons.1 h with rfl | h
      · exact tokens_cons_of_boundary hc rfl
      · exact ih h

/-- Tokens with blanks between them are read back. -/
theorem tokens_intercalate {ts : List (List Char)} (h : ∀ t ∈ ts, tokens t = [t]) : tokens ([' '].intercalate ts) = ts := by
  induction ts with
  | nil => rfl
  | cons t ts ih =>
    obtain ⟨ht, hts⟩ := List.forall_mem_cons.1 h
    by_cases hne : ts = []
    · rw [hne, List.intercalate_singleton, ht]
    · rw [List.intercalate_cons_of_ne_nil hne, List.append_assoc, tokens_append _ rfl, List.singleton_append,
        tokens_cons_blank (by decide), ht, ih hts]
      rfl

/-! ### Blanks -/

/-- What follows a character of a word decides how `tokens` reads it only by its first character and its tokens. -/
theorem tokens_cons_congr {s t : List Char} (h : tokens s = tokens t)
    (hh : startsWord s = startsWord t) (c : Char) : tokens (c :: s) = tokens (c :: t) := by
  by_cases hb : isBlank c
  · rw [tokens_cons_blank hb, tokens_cons_blank hb, h]
  by_cases hc : c = '*'
  · subst hc
    rw [tokens_star, tokens_star, h]
  have hc : isWordChar c = true := isWordChar_iff.2 ⟨by simpa using hb, hc⟩
  cases hs : startsWord s with
  | true =>
    obtain ⟨d, s, rfl, hd⟩ := startsWord_eq_true hs
    obtain ⟨e, t, rfl, he⟩ := startsWord_eq_true (hh ▸ hs)
    obtain ⟨v, vs, h1, h2⟩ := tokens_cons_of_word hc hd s
    obtain ⟨w, ws, h3, h4⟩ := tokens_cons_of_word hc he t
    rw [h1, h3, List.cons.injEq] at h
    rw [h2, h4, h.1, h.2]
  | false => rw [tokens_cons_of_boundary hc hs, tokens_cons_of_boundary hc (hh ▸ hs), h]

theorem startsWord_squeeze (s : List Char) : startsWord (squeeze false s) = startsWord s := by
  cases s with
  | nil => rfl
  | cons c s =>
    by_cases hc : isBlank c
    · rw [squeeze_false_cons_of_blank hc, startsWord, startsWord, isWordChar, isWordChar, hc]
      rfl
    · rw [squeeze_cons_of_not_blank (by simpa using hc)]
      rfl

theorem tokens_squeeze (b : Bool) (s : List Char) : tokens (squeeze b s) = tokens s := by
  induction s generalizing b with
  | nil => rfl
  | cons c s ih =>
    by_cases hc : isBlank c
    · rw [tokens_cons_blank hc]
      cases b with
      | true => rw [squeeze_true_cons_of_blank hc, ih]
      | false => rw [squeeze_false_cons_of_blank hc, tokens_cons_blank (by decide), ih]
    · rw [squeeze_cons_of_not_blank (by simpa using hc)]
      exact tokens_cons_congr (ih false) (startsWord_squeeze s) c

theorem tokens_append_blanks (s : List Char) {a : List Char} (ha : Blanks a) : tokens (s ++ a) = tokens s := by
  induction s with
  | nil => exact tokens_blanks ha
  | cons c s ih =>
    refine tokens_cons_congr ih ?_ c
    cases s with
    | nil =>
      cases a with
      | nil => rfl
      | cons d a =>
        rw [blanks_cons] at ha
        simp [startsWord, isWordChar, ha.1]
    | cons d s => rfl

/-! ### Pieces -/

theorem map_tokens_splitOn_trim {x : Char} (hx : isBlank x = false) (s : List Char) :
    ((trim s).splitOn x).map tokens = (s.splitOn x).map tokens := by
  obtain ⟨a, b, ha, hb, h⟩ := exists_trim s
  obtain ⟨u, us, h1, h2⟩ := splitOn_append_of_not_mem (ha.not_mem hx) (trim s)
  obtain ⟨vs, v, h3, h4⟩ := splitOn_append_right (hb.not_mem hx) (a ++ trim s)
  have hs : s.splitOn x = vs ++ [v ++ b] := by
    rw [← h4, ← h]
  rw [hs, List.map_append, List.map_singleton, tokens_append_blanks v hb, ← List.map_singleton,
    ← List.map_append, ← h3, h2, h1, List.map_cons, List.map_cons, tokens_blanks_append ha]

end ShapeBindings.Header
