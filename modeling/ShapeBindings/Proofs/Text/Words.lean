import ShapeBindings.Proofs.NativeType
import ShapeBindings.Proofs.Text.Squeeze

/-!
# Texts with the same words

What blanks stand between the words of a text, and at its ends, does not matter to what is read of it.

* `words_induction`: a text is blank, or it is a run of other characters with blanks before it and a text behind it;
* `words_append_blank`: a blank separates words;
* `squeeze_trim`: a trimmed text with its blanks squeezed is made of the words, so texts with the same words are squeezed
  to one text (`words_eq_iff`);
* `exists_cut_of_words`, `after?_squeeze`: such texts are cut alike and start alike.
-/

namespace ShapeBindings.Text

variable {a b s t : List Char} {c x : Char}

/-! ### Words and blanks -/

/-- A text is blank, or has a first word. -/
theorem words_induction {P : List Char → Prop} (blank : ∀ s, Blanks s → P s)
    (run : ∀ a w t, Blanks a → IsRun w → (∀ c ∈ t.head?, isBlank c = true) → P t → P (a ++ (w ++ t)))
    (s : List Char) : P s := by
  induction hn : s.length using Nat.strong_induction_on generalizing s with
  | _ n ih =>
    subst hn
    by_cases hs : Blanks s
    · exact blank s hs
    · obtain ⟨a, ha, hsplit⟩ := exists_trimStart s
      obtain ⟨c, u, hu⟩ := List.exists_cons_of_ne_nil (mt trimStart_eq_nil_iff.1 hs)
      have hc : isBlank c = false := isBlank_of_trimStart hu
      have hhead : ∀ d ∈ (u.dropWhile fun d => !isBlank d).head?, isBlank d = true := by
        intro d hd
        have hnot := List.head?_dropWhile_not (fun d => !isBlank d) u
        rw [hd] at hnot
        simpa using hnot
      have hword : IsRun (c :: u.takeWhile fun d => !isBlank d) := by
        refine ⟨List.cons_ne_nil _ _, List.forall_mem_cons.2 ⟨hc, fun d hd => ?_⟩⟩
        simpa using List.mem_takeWhile_imp hd
      have hlength : (u.dropWhile fun d => !isBlank d).length < s.length := by
        have hlength := congrArg List.length hsplit
        have hsuffix := (List.dropWhile_suffix (l := u) fun d => !isBlank d).length_le
        rw [hu, List.length_append, List.length_cons] at hlength
        omega
      rw [hsplit, hu, ← List.takeWhile_append_dropWhile (p := fun d => !isBlank d) (l := u), ← List.cons_append]
      exact run a _ _ ha hword hhead (ih _ hlength _ rfl)

theorem words_blanks_append (ha : Blanks a) (s : List Char) : words (a ++ s) = words s := by
  induction a with
  | nil => rfl
  | cons c a ih =>
    obtain ⟨hc, ha⟩ := blanks_cons.1 ha
    rw [List.cons_append, words_cons_of_blank hc, ih ha]

theorem words_of_blanks (hs : Blanks s) : words s = [] := by
  rw [← List.append_nil s, words_blanks_append hs]
  rfl

/-- A blank separates the words before it from those behind it. -/
theorem words_append_blank (hc : isBlank c = true) (s t : List Char) : words (s ++ c :: t) = words s ++ words t := by
  induction s using words_induction with
  | blank s hs => rw [words_blanks_append hs, words_cons_of_blank hc, words_of_blanks hs, List.nil_append]
  | run a w u ha hw hu ih =>
    have hhead : ∀ d ∈ (u ++ c :: t).head?, isBlank d = true := by
      cases u with
      | nil => simpa using hc
      | cons d u => exact hu
    rw [List.append_assoc, words_blanks_append ha, List.append_assoc, words_run_append hw hhead, ih,
      words_blanks_append ha, words_run_append hw hu, List.cons_append]

theorem words_append_blanks (s : List Char) (hb : Blanks b) : words (s ++ b) = words s := by
  cases b with
  | nil => rw [List.append_nil]
  | cons c b =>
    obtain ⟨hc, hb⟩ := blanks_cons.1 hb
    rw [words_append_blank hc, words_of_blanks hb, List.append_nil]

/-- Any blanks separate words as one does. -/
theorem words_append_blanks_append (hb : Blanks b) (hne : b ≠ []) (s t : List Char) :
    words (s ++ (b ++ t)) = words s ++ words t := by
  obtain ⟨c, b, rfl⟩ := List.exists_cons_of_ne_nil hne
  obtain ⟨hc, hb⟩ := blanks_cons.1 hb
  rw [List.cons_append, words_append_blank hc, words_blanks_append hb]

theorem words_trimEnd (s : List Char) : words (trimEnd s) = words s := by
  obtain ⟨b, hb, h⟩ := exists_trimEnd s
  conv_rhs => rw [h, words_append_blanks _ hb]

/-! ### Squeezed texts -/

theorem squeeze_run_append {w : List Char} (hw : ∀ c ∈ w, isBlank c = false) (s : List Char) :
    squeeze false (w ++ s) = w ++ squeeze false s := by
  induction w with
  | nil => rfl
  | cons c w ih =>
    obtain ⟨hc, hw⟩ := List.forall_mem_cons.1 hw
    rw [List.cons_append, squeeze_cons_of_not_blank hc, ih hw, List.cons_append]

/-- Blanks before a word are squeezed to a space. -/
theorem squeeze_trimEnd (hs : ¬ Blanks s) (hhead : ∀ c ∈ s.head?, isBlank c = true) :
    squeeze false (trimEnd s) = ' ' :: squeeze false (trim s) := by
  obtain ⟨c, t, rfl⟩ := List.exists_cons_of_ne_nil (l := s) (by rintro rfl; exact hs blanks_nil)
  have hc : isBlank c = true := hhead c rfl
  have ht : ¬ Blanks t := fun h => hs (blanks_cons.2 ⟨hc, h⟩)
  have htrim : trim (c :: t) = trim t := trim_blanks_append (b := [c]) (by simpa using hc) t
  rw [trimEnd_cons_of_not_blanks ht, squeeze_false_cons_of_blank hc, htrim, ← trimEnd_squeeze, ← trim_squeeze true,
    trim]
  congr 1
  -- a text that is squeezed behind a blank starts with no blank
  have hstart : trimStart (squeeze true t) = squeeze true t := by
    obtain ⟨a, ha, hsplit⟩ := exists_trimStart t
    rw [trimStart_squeeze true true]
    conv_rhs => rw [hsplit, squeeze_true_of_blanks_append ha]
  rw [hstart]

theorem squeeze_trim (s : List Char) : squeeze false (trim s) = [' '].intercalate (words s) := by
  induction s using words_induction with
  | blank s hs =>
    rw [trim_eq_nil_iff.2 hs, words_of_blanks hs]
    rfl
  | run a w t ha hw ht ih =>
    obtain ⟨d, w', hdw⟩ := List.exists_cons_of_ne_nil hw.1
    have hd : isBlank d = false := hw.2 d (by simp [hdw])
    have hstart : trimStart (w ++ t) = w ++ t := by
      rw [hdw, List.cons_append, trimStart_cons_of_not_blank hd]
    rw [trim_blanks_append ha, words_blanks_append ha, words_run_append hw ht, trim, hstart]
    by_cases hblank : Blanks t
    · have hself : trimEnd w = w := trimEnd_eq_self fun c hc => hw.2 c (List.mem_of_mem_getLast? hc)
      rw [trimEnd_append_blanks _ hblank, hself, words_of_blanks hblank, List.intercalate_singleton,
        squeeze_eq_self hw.2]
    · have hne : words t ≠ [] := by
        intro hnil
        rw [hnil] at ih
        exact hblank (trim_eq_nil_iff.1 (squeeze_false_eq_nil_iff.1 ih))
      rw [trimEnd_append_of_not_blanks _ hblank, squeeze_run_append hw.2, squeeze_trimEnd hblank ht, ih,
        List.intercalate_cons_of_ne_nil hne, List.append_assoc]
      rfl

theorem words_eq_iff : words s = words t ↔ squeeze false (trim s) = squeeze false (trim t) := by
  constructor
  · intro h
    rw [squeeze_trim, squeeze_trim, h]
  · intro h
    rw [squeeze_trim, squeeze_trim] at h
    have hread := congrArg words h
    rwa [words_intercalate fun _ => isRun_of_mem_words, words_intercalate fun _ => isRun_of_mem_words] at hread

theorem words_eq_of_squeeze {b₁ b₂ : Bool} (h : squeeze b₁ s = squeeze b₂ t) : words s = words t := by
  rw [words_eq_iff, ← trim_squeeze b₁ false, h, trim_squeeze b₂ false]

theorem words_eq_nil_iff : words s = [] ↔ Blanks s := by
  refine ⟨fun h => ?_, words_of_blanks⟩
  have hnil : words s = words [] := h
  rw [words_eq_iff] at hnil
  exact trim_eq_nil_iff.1 (squeeze_false_eq_nil_iff.1 hnil)

/-! ### Cuts -/

theorem after?_squeeze {p : List Char} (hp : ∀ c ∈ p, isBlank c = false) (s : List Char) :
    after? p (squeeze false s) = (after? p s).map (squeeze false) := by
  induction p generalizing s with
  | nil => rfl
  | cons d p ih =>
    obtain ⟨hd, hp⟩ := List.forall_mem_cons.1 hp
    cases s with
    | nil => rfl
    | cons c s =>
      by_cases hc : isBlank c
      · have hdc : d ≠ c := (isBlank_ne hc hd).symm
        have hds : d ≠ ' ' := (isBlank_ne (by decide) hd).symm
        rw [squeeze_false_cons_of_blank hc, after?_cons_of_ne hds, after?_cons_of_ne hdc]
        rfl
      · rw [squeeze_cons_of_not_blank (by simpa using hc)]
        by_cases hdc : d = c
        · subst hdc
          rw [after?_cons_self, after?_cons_self, ih hp]
        · rw [after?_cons_of_ne hdc, after?_cons_of_ne hdc]
          rfl

theorem after?_append_blanks {p : List Char} (hp : ∀ c ∈ p, isBlank c = false) (hb : Blanks b) (s : List Char) :
    after? p (s ++ b) = (after? p s).map (· ++ b) := by
  induction p generalizing s with
  | nil => rfl
  | cons d p ih =>
    obtain ⟨hd, hp⟩ := List.forall_mem_cons.1 hp
    cases s with
    | nil =>
      cases b with
      | nil => rfl
      | cons e b => exact after?_cons_of_ne (isBlank_ne (hb e List.mem_cons_self) hd).symm _ _
    | cons c s =>
      rw [List.cons_append]
      by_cases hdc : d = c
      · subst hdc
        rw [after?_cons_self, after?_cons_self, ih hp]
      · rw [after?_cons_of_ne hdc, after?_cons_of_ne hdc]
        rfl

/-- Blanks at the end of a text do not move the place where it is cut. -/
theorem cutAt_append_blanks {p : List Char} (hp : ∀ c ∈ x :: p, isBlank c = false) (hb : Blanks b) (s : List Char) :
    cutAt (x :: p) (s ++ b) = (cutAt (x :: p) s).map fun (u, v) => (u, v ++ b) := by
  induction s with
  | nil => exact cutAt_eq_none (hb.not_mem (hp x List.mem_cons_self)) p
  | cons c s ih =>
    have hafter := after?_append_blanks hp hb (c :: s)
    rw [List.cons_append] at hafter ⊢
    rw [cutAt, cutAt, hafter]
    cases after? (x :: p) (c :: s) with
    | some rest => rfl
    | none =>
      simp only [Option.map_none]
      rw [ih, Option.map_map, Option.map_map]
      rfl

theorem eq_of_append_cons_eq {u v : List Char} (ha : x ∉ a) (hu : x ∉ u) (h : a ++ x :: b = u ++ x :: v) :
    a = u ∧ b = v := by
  have hcut := cutAt_append ha [] b
  have h' : a ++ ([x] ++ b) = u ++ ([x] ++ v) := h
  rw [h', cutAt_append hu [] v, Option.some.injEq, Prod.mk.injEq] at hcut
  exact ⟨hcut.1.symm, hcut.2.symm⟩

/-- A text is cut at the place where it is cut when it is trimmed. -/
theorem exists_cut_of_trim (hx : isBlank x = false) (hs : x ∈ s) :
    ∃ u v u' v', s = u ++ x :: v ∧ x ∉ u ∧ cutAt [x] (trim s) = some (u', v') ∧ words u' = words u ∧
      words v' = words v := by
  obtain ⟨p, q, hp, hq, hsplit⟩ := exists_trim s
  have hmem : x ∈ trim s := by
    rw [hsplit, List.mem_append, List.mem_append] at hs
    exact (hs.resolve_right (hq.not_mem hx)).resolve_left (hp.not_mem hx)
  obtain ⟨u', v', htrim, hu'⟩ := List.eq_append_cons_of_mem hmem
  refine ⟨p ++ u', v' ++ q, u', v', ?_, ?_, ?_, ?_, ?_⟩
  · rw [hsplit, htrim]
    simp
  · rw [List.mem_append, not_or]
    exact ⟨hp.not_mem hx, hu'⟩
  · rw [htrim]
    exact cutAt_append hu' [] v'
  · rw [words_blanks_append hp]
  · rw [words_append_blanks _ hq]

/-- Texts with the same words have the same words before and behind the first place of a character. -/
theorem exists_cut_of_words (hx : isBlank x = false) (ha : x ∉ a) (h : words (a ++ x :: b) = words t) :
    ∃ u v, t = u ++ x :: v ∧ x ∉ u ∧ words a = words u ∧ words b = words v := by
  obtain ⟨a', b', u₁, v₁, hab, ha', hcut₁, hu₁, hv₁⟩ := exists_cut_of_trim (s := a ++ x :: b) hx (by simp)
  obtain ⟨rfl, rfl⟩ := eq_of_append_cons_eq ha ha' hab
  -- trimmed and squeezed, the two texts are the same
  have hsqueeze := congrArg (cutAt [x]) (words_eq_iff.1 h)
  rw [cutAt_squeeze hx, cutAt_squeeze hx, hcut₁, Option.map_some] at hsqueeze
  obtain ⟨⟨u₂, v₂⟩, hcut₂, hpair⟩ := Option.map_eq_some_iff.1 hsqueeze.symm
  obtain ⟨hu, hv⟩ := Prod.mk.inj hpair
  have hmem : x ∈ t := by
    obtain ⟨p, q, -, -, hsplit⟩ := exists_trim t
    rw [hsplit, eq_of_cutAt hcut₂]
    simp
  obtain ⟨u, v, u₃, v₃, ht, hnot, hcut₃, hu₃, hv₃⟩ := exists_cut_of_trim hx hmem
  rw [hcut₂, Option.some.injEq, Prod.mk.injEq] at hcut₃
  obtain ⟨rfl, rfl⟩ := hcut₃
  refine ⟨u, v, ht, hnot, ?_, ?_⟩
  · rw [← hu₁, ← hu₃, words_eq_of_squeeze hu]
  · rw [← hv₁, ← hv₃, words_eq_of_squeeze hv]

end ShapeBindings.Text
