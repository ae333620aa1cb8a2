import Mathlib.Data.List.Chain
import ShapeBindings.Proofs.Header.Tokens
import ShapeBindings.Proofs.Unit.Types

/-!
# Kinds and tokens

A type's normal spelling glues its stars to the word before them, but not a word to the star before it, so two types with
the same tokens may have two normal spellings (`char*const` and `char* const`).  No supported type has a word behind a
star, and therefore the tokens of a type decide on its kind.

* `tokens_normalizeType`: a type and its normal spelling have the same tokens;
* `flatMap_glue_tokens`: where no word stands behind a star, the tokens of a type make up its normal spelling;
* `classify_eq_some_iff`: the kind of a type by its tokens.
-/

namespace ShapeBindings

open Text Header

variable {c d : Char} {s t v w : List Char} {ws : List (List Char)}

/-! ### Words of a type -/

theorem exists_words_cons (hd : isBlank d = false) (s : List Char) :
    ∃ v vs, words (d :: s) = v :: vs ∧ v.head? = some d := by
  cases s with
  | nil => exact ⟨[d], [], by rw [words_singleton, if_neg (by simp [hd])], rfl⟩
  | cons e s =>
    rw [words_cons_cons, if_neg (by simp [hd])]
    split
    · exact ⟨[d], _, rfl, rfl⟩
    · cases words (e :: s) with
      | nil => exact ⟨[d], [], rfl, rfl⟩
      | cons v vs => exact ⟨d :: v, vs, rfl, rfl⟩

/-- The last character of a word. -/
theorem words_cons_of_boundary (hc : isBlank c = false) (hs : ∀ d ∈ s.head?, isBlank d = true) :
    words (c :: s) = [c] :: words s :=
  words_run_append (w := [c]) (isRun_singleton hc) hs

/-- A character of a word that is not the last one. -/
theorem words_cons_of_word (hc : isBlank c = false) (hd : isBlank d = false) {v : List Char} {vs : List (List Char)}
    (h : words (d :: s) = v :: vs) : words (c :: d :: s) = (c :: v) :: vs := by
  rw [words_cons_cons, if_neg (by simp [hc]), if_neg (by simp [hd]), h]

/-! ### The normal spelling -/

/-- A word of a type with what separates it from the word before it. -/
def glue (v : List Char) : List Char := if v.head? = some '*' then v else ' ' :: v

theorem glue_of_star (h : v.head? = some '*') : glue v = v := if_pos h

theorem glue_of_word (h : v.head? ≠ some '*') : glue v = ' ' :: v := if_neg h

/-- Words are separated, but for the first one. -/
theorem flatMap_glue (w : List Char) (ws : List (List Char)) :
    (w :: ws).flatMap glue = if w.head? = some '*' then joinTypeWords (w :: ws) else ' ' :: joinTypeWords (w :: ws) := by
  have hjoin : joinTypeWords (w :: ws) = w ++ ws.flatMap glue := rfl
  rw [List.flatMap_cons, hjoin]
  by_cases h : w.head? = some '*'
  · rw [glue_of_star h, if_pos h]
  · rw [glue_of_word h, if_neg h, List.cons_append]

theorem trimStart_flatMap_glue (h : ∀ w ∈ ws, IsRun w) : trimStart (ws.flatMap glue) = joinTypeWords ws := by
  cases ws with
  | nil => rfl
  | cons w ws =>
    obtain ⟨c, r, rfl⟩ := List.exists_cons_of_ne_nil (h w List.mem_cons_self).1
    have hc : isBlank c = false := (h _ List.mem_cons_self).2 c List.mem_cons_self
    have hstart : trimStart (joinTypeWords ((c :: r) :: ws)) = joinTypeWords ((c :: r) :: ws) :=
      trimStart_cons_of_not_blank hc _
    rw [flatMap_glue]
    split
    · exact hstart
    · rw [← List.singleton_append, trimStart_blanks_append (by decide), hstart]

theorem tokens_joinTypeWords (ws : List (List Char)) : tokens (joinTypeWords ws) = tokens (ws.flatMap glue) := by
  cases ws with
  | nil => rfl
  | cons w ws =>
    rw [flatMap_glue]
    split
    · rfl
    · rw [tokens_cons_blank (by decide)]

/-- What separates a word from the one before it is no token. -/
theorem tokens_glue_append (w x : List Char) : tokens (glue w ++ x) = tokens (w ++ x) := by
  by_cases h : w.head? = some '*'
  · rw [glue_of_star h]
  · rw [glue_of_word h, List.cons_append, tokens_cons_blank (by decide)]

theorem startsWord_eq_false (hs : ∀ d ∈ s.head?, isBlank d = true) : startsWord s = false := by
  cases s with
  | nil => rfl
  | cons d s => simp [startsWord, isWordChar, hs d rfl]

/-- The separated words of a type have the tokens of the type. -/
theorem tokens_flatMap_glue_words (s : List Char) : tokens ((words s).flatMap glue) = tokens s := by
  induction s with
  | nil => rfl
  | cons c s ih =>
    by_cases hc : isBlank c
    · rw [words_cons_of_blank hc, tokens_cons_blank hc, ih]
    have hc : isBlank c = false := by simpa using hc
    by_cases hs : ∀ d ∈ s.head?, isBlank d = true
    · rw [words_cons_of_boundary hc hs, List.flatMap_cons, tokens_glue_append]
      refine tokens_cons_congr ih ?_ c
      rw [startsWord_eq_false hs]
      cases words s with
      | nil => rfl
      | cons w ws =>
        rw [flatMap_glue]
        split
        · next hstar =>
          obtain ⟨w', rfl⟩ := List.head?_eq_some_iff.1 hstar
          rfl
        · rfl
    · push Not at hs
      obtain ⟨d, hd, hblank⟩ := hs
      obtain ⟨s, rfl⟩ := List.head?_eq_some_iff.1 hd
      have hd : isBlank d = false := by simpa using hblank
      obtain ⟨v, vs, hwords, hhead⟩ := exists_words_cons hd s
      obtain ⟨v, rfl⟩ := List.head?_eq_some_iff.1 hhead
      rw [words_cons_of_word hc hd hwords, List.flatMap_cons, tokens_glue_append]
      rw [hwords, List.flatMap_cons, tokens_glue_append] at ih
      exact tokens_cons_congr ih rfl c

theorem tokens_normalizeType (type : String) : tokens (normalizeType type).toList = tokens type.toList := by
  rw [normalizeType, String.toList_ofList, tokens_joinTypeWords, tokens_flatMap_glue_words]

/-! ### Types without words behind stars -/

/-- No word stands behind a star. -/
def StarsLast (ts : List (List Char)) : Prop := ts.IsChain fun u v => u = ['*'] → v = ['*']

instance (ts : List (List Char)) : Decidable (StarsLast ts) := by unfold StarsLast; infer_instance

theorem tokens_cons_of_not_startsWord (hc : isBlank c = false) (hs : startsWord s = false) :
    tokens (c :: s) = [c] :: tokens s := by
  by_cases hstar : c = '*'
  · rw [hstar, tokens_star]
  · exact tokens_cons_of_boundary (isWordChar_iff.2 ⟨hc, hstar⟩) hs

/-- In front of a star a character may belong to another word or not: its word is glued to the star anyway. -/
theorem flatMap_glue_words_star (hc : isBlank c = false) (s : List Char) :
    (words (c :: '*' :: s)).flatMap glue = glue [c] ++ (words ('*' :: s)).flatMap glue := by
  obtain ⟨v, vs, hwords, hhead⟩ := exists_words_cons (d := '*') (by decide) s
  have hglue : glue (c :: v) = glue [c] ++ v := by
    unfold glue
    rw [List.head?_cons, List.head?_cons]
    split <;> rfl
  rw [words_cons_of_word hc (by decide) hwords, hwords, List.flatMap_cons, List.flatMap_cons, glue_of_star hhead, hglue,
    List.append_assoc]

theorem flatMap_glue_cons (hc : c ≠ '*') (hv : v.head? ≠ some '*') (ws : List (List Char)) :
    ((c :: v) :: ws).flatMap glue = ' ' :: c :: ((v :: ws).flatMap glue).tail := by
  rw [List.flatMap_cons, List.flatMap_cons, glue_of_word hv, glue_of_word (by simpa using hc)]
  rfl

/-- Where no word stands behind a star, the separated tokens are the separated words. -/
theorem flatMap_glue_tokens (h : StarsLast (tokens s)) : (tokens s).flatMap glue = (words s).flatMap glue := by
  induction s with
  | nil => rfl
  | cons c s ih =>
    by_cases hc : isBlank c
    · rw [tokens_cons_blank hc] at h ⊢
      rw [words_cons_of_blank hc, ih h]
    have hc : isBlank c = false := by simpa using hc
    by_cases hs : ∀ d ∈ s.head?, isBlank d = true
    · rw [tokens_cons_of_not_startsWord hc (startsWord_eq_false hs)] at h ⊢
      rw [words_cons_of_boundary hc hs, List.flatMap_cons, List.flatMap_cons, ih h.of_cons]
    push Not at hs
    obtain ⟨d, hd, hblank⟩ := hs
    obtain ⟨s, rfl⟩ := List.head?_eq_some_iff.1 hd
    have hd : isBlank d = false := by simpa using hblank
    by_cases hdstar : d = '*'
    · subst hdstar
      rw [tokens_cons_of_not_startsWord hc rfl] at h ⊢
      rw [List.flatMap_cons, ih h.of_cons, flatMap_glue_words_star hc]
    obtain ⟨v, vs, hwords, hhead⟩ := exists_words_cons hd s
    obtain ⟨w, ws, htokens, hfirst⟩ := exists_tokens_cons hd s
    have hv : v.head? ≠ some '*' := by simpa [hhead] using hdstar
    have hw : w.head? ≠ some '*' := by simpa [hfirst] using hdstar
    by_cases hstar : c = '*'
    · -- behind a star stands another one
      rw [hstar, tokens_star, htokens] at h
      exact absurd (by rw [(List.isChain_cons_cons.1 h).1 rfl]; rfl) hw
    obtain ⟨w', ws', h1, h2⟩ := tokens_cons_of_word (isWordChar_iff.2 ⟨hc, hstar⟩) (isWordChar_iff.2 ⟨hd, hdstar⟩) s
    obtain ⟨rfl, rfl⟩ := List.cons.inj (htokens.symm.trans h1)
    have hrest : StarsLast (w :: ws) := by
      rw [h2] at h
      exact List.isChain_cons.2 ⟨fun u _ hu => absurd (by rw [hu]; rfl) hw, h.of_cons⟩
    rw [hwords, htokens] at ih
    rw [words_cons_of_word hc hd hwords, h2, flatMap_glue_cons hstar hw, flatMap_glue_cons hstar hv, ih hrest]

/-! ### Kinds -/

theorem classify_eq_some_iff_normalizeType {type : String} {k : ArgKind} :
    ArgKind.classify type = some k ↔ normalizeType type = k.typeName := by
  constructor
  · intro h
    unfold ArgKind.classify at h
    have hk := List.find?_some h
    exact (beq_iff_eq.1 hk).symm
  · intro h
    rw [← k.classify_typeName, ArgKind.classify, ArgKind.classify, ← h, normalizeType_normalizeType]

theorem starsLast_typeName (k : ArgKind) : StarsLast (tokens k.typeName.toList) := by cases k <;> decide

/-- A type has a kind if it has the tokens of the kind's type. -/
theorem classify_eq_some_iff {type : String} {k : ArgKind} :
    ArgKind.classify type = some k ↔ tokens type.toList = tokens k.typeName.toList := by
  rw [classify_eq_some_iff_normalizeType]
  constructor
  · intro h
    rw [← h, tokens_normalizeType]
  · intro h
    have hname : normalizeType k.typeName = k.typeName := by cases k <;> decide
    have hglue := flatMap_glue_tokens (s := type.toList) (h ▸ starsLast_typeName k)
    rw [h, flatMap_glue_tokens (starsLast_typeName k)] at hglue
    have hjoin := congrArg trimStart hglue
    rw [trimStart_flatMap_glue fun _ => isRun_of_mem_words, trimStart_flatMap_glue fun _ => isRun_of_mem_words] at hjoin
    conv_rhs => rw [← hname]
    rw [normalizeType, normalizeType, hjoin]

/-- Types with the same tokens are of the same kind. -/
theorem classify_congr {s t : String} (h : tokens s.toList = tokens t.toList) :
    ArgKind.classify s = ArgKind.classify t := by
  refine Option.ext fun k => ?_
  rw [classify_eq_some_iff, classify_eq_some_iff, h]

theorem classify_normalizeType (type : String) : ArgKind.classify (normalizeType type) = ArgKind.classify type :=
  classify_congr (tokens_normalizeType type)

end ShapeBindings
