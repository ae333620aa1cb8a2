import Mathlib.Data.List.Infix
import ShapeBindings.Toml.Quoted

/-!
# What quotes hold

* `basicBody_append_quote`: plain text is read as itself;
* `exists_of_basicBody`, `exists_of_multilineBasicBody`: what is read of a text ends with a delimiter, and a character that
  is read stands for at least one that was written;
* `isPlain_of_quotedString`: text without escaping comes back from between quotes only if it is plain.
-/

namespace ShapeBindings.Toml

variable {a s t w x r : List Char} {st : QuotedState} {folding : Bool}

/-! ### Plain text -/

/-- Text that stands for itself between quotes: without quotes, backslashes and control characters other than the tab. -/
def IsPlain (text : List Char) : Prop := ∀ c ∈ text, isPrintable c = true ∧ c ≠ '"' ∧ c ≠ '\\'

instance (text : List Char) : Decidable (IsPlain text) :=
  decidable_of_iff (text.all fun c => isPrintable c && (c != '"' && c != '\\')) (by simp [IsPlain])

theorem isPlain_cons {c : Char} : IsPlain (c :: a) ↔ (isPrintable c = true ∧ c ≠ '"' ∧ c ≠ '\\') ∧ IsPlain a :=
  List.forall_mem_cons

theorem basicBody_text_cons {c : Char} (hc : isPrintable c = true ∧ c ≠ '"' ∧ c ≠ '\\') (s : List Char) :
    basicBody (.text folding) (c :: s) = emit c (basicBody (.text false) s) := by
  obtain ⟨hprint, hquote, hslash⟩ := hc
  rw [basicBody, if_neg hquote, if_neg hslash, if_pos hprint]

theorem basicBody_append_quote (h : IsPlain a) (s : List Char) :
    basicBody (.text folding) (a ++ '"' :: s) = some (a, s) := by
  induction a generalizing folding with
  | nil => rw [List.nil_append, basicBody, if_pos rfl]
  | cons c a ih =>
    obtain ⟨hc, ha⟩ := isPlain_cons.1 h
    rw [List.cons_append, basicBody_text_cons hc, ih ha]
    rfl

/-! ### What a scan takes -/

theorem ne_newline_of_isPrintable {c : Char} (h : isPrintable c = true) : c ≠ '\n' := by
  rintro rfl
  exact absurd h (by decide)

theorem ne_newline_of_escaped {c : Char} (h : (escaped c).isSome = true) : c ≠ '\n' := by
  rintro rfl
  exact absurd h (by decide)

theorem ne_newline_of_codeDigit {owed value : Nat} {c : Char} (h : (codeDigit owed value c).isSome = true) :
    c ≠ '\n' := by
  rintro rfl
  exact absurd h Bool.false_ne_true

theorem emit_eq_some {c : Char} {scanned : Option (List Char × List Char)} (h : emit c scanned = some (x, r)) :
    ∃ y, scanned = some (y, r) ∧ x = c :: y := by
  obtain ⟨⟨y, r'⟩, hy, heq⟩ := Option.map_eq_some_iff.1 h
  cases heq
  exact ⟨y, hy, rfl⟩

/-- A scan takes a text of some characters with a delimiter at its end off the front of another text, and reads at most
one character for each of them. -/
def Takes (allowed : Char → Prop) (delimiter s x r : List Char) : Prop :=
  ∃ w, s = w ++ r ∧ (∀ c ∈ w, allowed c) ∧ delimiter <:+ w ∧ x.length + delimiter.length ≤ w.length

section

variable {allowed : Char → Prop} {delimiter : List Char} {c d : Char}

theorem Takes.step {y : List Char} (hc : allowed c) (hxy : x.length ≤ y.length + 1) (h : Takes allowed delimiter s y r) :
    Takes allowed delimiter (c :: s) x r := by
  obtain ⟨w, rfl, hw, hend, hlen⟩ := h
  refine ⟨c :: w, rfl, List.forall_mem_cons.2 ⟨hc, hw⟩, hend.trans (List.suffix_cons c w), ?_⟩
  rw [List.length_cons]
  omega

theorem Takes.skip (hc : allowed c) (h : Takes allowed delimiter s x r) : Takes allowed delimiter (c :: s) x r :=
  h.step hc (Nat.le_succ _)

theorem Takes.emit {scanned : Option (List Char × List Char)} (hc : allowed c) (h : Toml.emit d scanned = some (x, r))
    (ih : ∀ y, scanned = some (y, r) → Takes allowed delimiter s y r) : Takes allowed delimiter (c :: s) x r := by
  obtain ⟨y, hy, rfl⟩ := emit_eq_some h
  exact (ih y hy).step hc le_rfl

end

/-- What is read between quotes stands on one line. -/
theorem takes_of_basicBody (h : basicBody st s = some (x, r)) : Takes (· ≠ '\n') ['"'] s x r := by
  fun_induction basicBody st s generalizing x with
  | case2 => -- the closing quote
    cases h
    exact ⟨['"'], rfl, by simp, List.suffix_rfl, le_rfl⟩
  | case3 folding s hne ih => exact (ih h).skip (by decide)
  | case4 folding c s hquote hslash hprint ih => exact .emit (ne_newline_of_isPrintable hprint) h fun _ => ih
  | case6 c s d hd ih => exact .emit (ne_newline_of_escaped (by rw [hd]; rfl)) h fun _ => ih
  | case7 c s state hd ih => exact (ih h).skip (ne_newline_of_escaped (by rw [hd]; rfl))
  | case9 owed value c s d hd ih => exact .emit (ne_newline_of_codeDigit (by rw [hd]; rfl)) h fun _ => ih
  | case10 owed value c s state hd ih => exact (ih h).skip (ne_newline_of_codeDigit (by rw [hd]; rfl))
  | case1 | case5 | case8 | case11 | case12 => cases h

theorem exists_replicate_of_closingQuotes {quote : Char} (h : closingQuotes quote s = (x, r)) :
    ∃ n, x = List.replicate n quote ∧ s = x ++ r := by
  unfold closingQuotes at h
  split at h
  · split at h
    · split at h
      · next c d s hc hd =>
        cases h
        exact ⟨2, by rw [hc, hd]; rfl, rfl⟩
      · next c d s hc _ =>
        cases h
        exact ⟨1, by rw [hc]; rfl, rfl⟩
    · cases h
      exact ⟨0, rfl, rfl⟩
  · split at h
    · next c hc =>
      cases h
      exact ⟨1, by rw [hc]; rfl, rfl⟩
    · cases h
      exact ⟨0, rfl, rfl⟩
  · cases h
    exact ⟨0, rfl, rfl⟩

theorem takes_of_multilineBasicBody (h : multilineBasicBody st s = some (x, r)) :
    Takes (fun _ => True) ['"', '"', '"'] s x r := by
  fun_induction multilineBasicBody st s generalizing x with
  | case6 folding s => -- the closing quotes, behind those that belong to the text
    obtain ⟨n, rfl, rfl⟩ := exists_replicate_of_closingQuotes (Option.some.inj h)
    have hall : List.replicate n '"' ++ List.replicate 3 '"' = List.replicate (n + 3) '"' :=
      List.replicate_append_replicate
    exact ⟨List.replicate (n + 3) '"', rfl, fun _ _ => trivial, ⟨List.replicate n '"', hall⟩, by simp⟩
  | case2 _ ih | case3 _ ih | case4 _ ih | case9 _ _ ih | case12 _ ih | case21 _ ih => exact (ih h).skip trivial
  | case14 _ _ _ _ _ ih | case23 _ _ _ _ _ ih => exact (ih h).skip trivial
  | case16 _ _ _ _ _ _ _ ih | case19 _ _ _ _ _ _ ih => exact (ih h).skip trivial
  | case5 _ ih | case13 _ ih | case22 _ ih => exact ((ih h).skip trivial).skip trivial
  | case7 _ _ _ ih | case10 _ _ _ _ _ _ _ _ _ _ _ _ ih => exact .emit trivial h fun _ => ih
  | case15 _ _ _ _ _ _ _ ih | case18 _ _ _ _ _ _ ih => exact .emit trivial h fun _ => ih
  | case8 _ _ _ ih =>
    refine .skip trivial (.emit trivial h fun _ => ih)
  | case1 | case11 | case17 | case20 | case24 => cases h

/-- What is written before a line break is as long as what is read, unless the scan takes the line break and finds its
delimiter behind it. -/
theorem Takes.length_le {allowed : Char → Prop} {delimiter b t : List Char}
    (h : Takes allowed delimiter (b ++ '\n' :: t) x r) (hdelimiter : '\n' ∉ delimiter)
    (ht : ¬ allowed '\n' ∨ ¬ delimiter <:+: t) : x.length + delimiter.length ≤ b.length := by
  obtain ⟨w, hw, hallowed, hend, hlen⟩ := h
  rcases List.append_eq_append_iff.1 hw with ⟨w', rfl, hw'⟩ | ⟨b', rfl, -⟩
  · cases w' with
    | nil =>
      rw [List.append_nil] at hlen
      exact hlen
    | cons c w' =>
      obtain ⟨rfl, rfl⟩ := List.cons_eq_cons.1 hw'
      exfalso
      refine ht.elim (fun h => h (hallowed _ (by simp))) fun h => h ?_
      rcases List.suffix_or_suffix_of_suffix hend (List.suffix_append b _) with hsuffix | hsuffix
      · rcases List.suffix_cons_iff.1 hsuffix with rfl | hsuffix
        · exact absurd List.mem_cons_self hdelimiter
        · exact hsuffix.isInfix.trans (List.prefix_append w' r).isInfix
      · exact absurd (hsuffix.subset List.mem_cons_self) hdelimiter
  · rw [List.length_append]
    omega

/-! ### From quote to quote -/

theorem quotedString_quote (h : IsPlain a) (hs : s.head? ≠ some '"') :
    quotedString ('"' :: (a ++ '"' :: s)) = some (String.ofList a, s) := by
  have hline : lineString ('"' :: (a ++ '"' :: s)) = some (String.ofList a, s) := by
    rw [lineString]
    dsimp only
    rw [basicBody_append_quote h]
    rfl
  generalize htext : '"' :: (a ++ '"' :: s) = text at hline ⊢
  unfold quotedString
  split
  · -- plain text has no quotes, and none follow
    obtain ⟨-, hrest⟩ := List.cons_eq_cons.1 htext
    cases a with
    | nil => exact absurd (congrArg List.head? (List.cons_eq_cons.1 hrest).2) hs
    | cons c a => exact absurd (List.cons_eq_cons.1 hrest).1 (isPlain_cons.1 h).1.2.1
  · cases htext
  · exact hline

section

variable {t : List Char}

theorem length_le_of_basicBody (h : basicBody st (a ++ '"' :: '\n' :: t) = some (x, r)) : x.length ≤ a.length := by
  have htext : a ++ '"' :: '\n' :: t = (a ++ ['"']) ++ '\n' :: t := by simp
  have htakes := takes_of_basicBody h
  rw [htext] at htakes
  simpa using htakes.length_le (by decide) (.inl (by simp))

theorem isPlain_of_basicBody (h : basicBody (.text folding) (a ++ '"' :: '\n' :: t) = some (a, r)) : IsPlain a := by
  induction a generalizing folding with
  | nil => exact List.forall_mem_nil _
  | cons c a ih =>
    rw [List.cons_append, basicBody] at h
    split at h
    · cases h
    next hquote =>
    split at h
    · -- an escape reads less than it takes
      exact absurd (length_le_of_basicBody h) (Nat.not_succ_le_self _)
    next hslash =>
    split at h
    · next hprint =>
      obtain ⟨y, hy, heq⟩ := emit_eq_some h
      obtain ⟨-, rfl⟩ := List.cons_eq_cons.1 heq
      exact isPlain_cons.2 ⟨⟨hprint, hquote, hslash⟩, ih hy⟩
    · cases h

theorem Takes.of_dropNewline {delimiter : List Char} (h : Takes (fun _ => True) delimiter (dropNewline s) x r) :
    Takes (fun _ => True) delimiter s x r := by
  unfold dropNewline at h
  split at h
  · exact h.skip trivial
  · exact (h.skip trivial).skip trivial
  · exact h

/-- Text that is put between quotes as it is comes back only if it is plain. -/
theorem isPlain_of_quotedString (ht : ¬ ['"', '"', '"'] <:+: t)
    (h : quotedString ('"' :: (a ++ '"' :: '\n' :: t)) = some (String.ofList a, r)) : IsPlain a := by
  generalize htext : '"' :: (a ++ '"' :: '\n' :: t) = text at h
  unfold quotedString at h
  split at h
  · next rest =>
    obtain ⟨⟨x, r'⟩, hx, heq⟩ := Option.map_eq_some_iff.1 h
    obtain rfl : x = a := String.ofList_injective (congrArg Prod.fst heq)
    -- five or more quotes are too many for what is read
    have htakes : Takes (fun _ => True) ['"', '"', '"'] ('"' :: '"' :: '"' :: rest) x r' :=
      (((takes_of_multilineBasicBody hx).of_dropNewline.skip trivial).skip trivial).skip trivial
    have hsplit : '"' :: '"' :: '"' :: rest = ('"' :: (x ++ ['"'])) ++ '\n' :: t := by simp [← htext]
    rw [hsplit] at htakes
    exact absurd (htakes.length_le (by decide) (.inr ht)) (by simp)
  · cases htext
  · subst htext
    obtain ⟨⟨x, r'⟩, hx, heq⟩ := Option.map_eq_some_iff.1 h
    obtain rfl : x = a := String.ofList_injective (congrArg Prod.fst heq)
    exact isPlain_of_basicBody hx

end

end ShapeBindings.Toml
