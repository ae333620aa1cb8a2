import ShapeBindings.Proofs.Text.Search
import ShapeBindings.Proofs.Text.Trim

/-!
# Texts up to their blanks

* `squeeze b s` writes every run of blanks in `s` as one space (`b` says that a blank stands before `s`);
* `Respaced s t`: `s` and `t` differ in the lengths and the characters of their runs of blanks only.  The relation is
  kept by what is written in front (`Respaced.append_left`), and exchanges any two runs (`respaced_blanks`);
* cutting, splitting and trimming commute with `squeeze`.
-/

namespace ShapeBindings.Text

/-- Every run of blanks as one space.  The flag says whether a blank stands before the text. -/
def squeeze : Bool → List Char → List Char
  | _, [] => []
  | b, c :: s =>
    if isBlank c then (if b then squeeze true s else ' ' :: squeeze true s) else c :: squeeze false s

/-- Texts with blanks at the same places. -/
def Respaced (s t : List Char) : Prop := ∀ b, squeeze b s = squeeze b t

variable {b : Bool} {c x : Char} {s t : List Char}

@[simp] theorem squeeze_nil (b : Bool) : squeeze b [] = [] := rfl

theorem squeeze_cons (b : Bool) (c : Char) (s : List Char) : squeeze b (c :: s) =
    if isBlank c then (if b then squeeze true s else ' ' :: squeeze true s) else c :: squeeze false s := rfl

theorem squeeze_cons_of_not_blank (hc : isBlank c = false) (b : Bool) (s : List Char) :
    squeeze b (c :: s) = c :: squeeze false s := by
  simp [squeeze_cons, hc]

theorem squeeze_true_cons_of_blank (hc : isBlank c = true) (s : List Char) :
    squeeze true (c :: s) = squeeze true s := by
  simp [squeeze_cons, hc]

theorem squeeze_false_cons_of_blank (hc : isBlank c = true) (s : List Char) :
    squeeze false (c :: s) = ' ' :: squeeze true s := by
  simp [squeeze_cons, hc]

theorem squeeze_true_of_blanks_append {a : List Char} (ha : Blanks a) (s : List Char) :
    squeeze true (a ++ s) = squeeze true s := by
  induction a with
  | nil => rfl
  | cons c a ih =>
    rw [blanks_cons] at ha
    rw [List.cons_append, squeeze_true_cons_of_blank ha.1, ih ha.2]

theorem Respaced.trans {u : List Char} (h₁ : Respaced s t) (h₂ : Respaced t u) : Respaced s u :=
  fun b => (h₁ b).trans (h₂ b)

theorem Respaced.append_left (h : Respaced s t) (a : List Char) : Respaced (a ++ s) (a ++ t) := by
  intro b
  induction a generalizing b with
  | nil => exact h b
  | cons c a ih =>
    by_cases hc : isBlank c
    · cases b <;> simp [squeeze_cons, hc, ih]
    · simp [squeeze_cons, hc, ih]

/-- Runs of blanks can be exchanged. -/
theorem respaced_blanks {a a' : List Char} (ha : Blanks a) (ha' : Blanks a') (hn : a ≠ []) (hn' : a' ≠ [])
    (s : List Char) : Respaced (a ++ s) (a' ++ s) := by
  have key : ∀ {a : List Char}, Blanks a → a ≠ [] →
      squeeze false (a ++ s) = ' ' :: squeeze true s := by
    intro a ha hn
    obtain ⟨c, r, rfl⟩ := List.exists_cons_of_ne_nil hn
    rw [blanks_cons] at ha
    rw [List.cons_append, squeeze_false_cons_of_blank ha.1, squeeze_true_of_blanks_append ha.2]
  intro b
  cases b with
  | true => rw [squeeze_true_of_blanks_append ha, squeeze_true_of_blanks_append ha']
  | false => rw [key ha hn, key ha' hn']

/-! ### The ends -/

theorem blanks_squeeze : Blanks (squeeze b s) ↔ Blanks s := by
  induction s generalizing b with
  | nil => simp
  | cons c s ih =>
    by_cases hc : isBlank c
    · cases b
      · have : isBlank ' ' = true := by decide
        simp [squeeze_cons, hc, ih, this]
      · simp [squeeze_cons, hc, ih]
    · simp [squeeze_cons, hc]

theorem squeeze_concat (hc : isBlank c = false) (b : Bool) (s : List Char) :
    squeeze b (s ++ [c]) = squeeze b s ++ [c] := by
  induction s generalizing b with
  | nil => simp [squeeze_cons, hc]
  | cons d s ih =>
    by_cases hd : isBlank d
    · cases b <;> simp [squeeze_cons, hd, ih]
    · simp [squeeze_cons, hd, ih]

theorem trimStart_squeeze (b b' : Bool) (s : List Char) :
    trimStart (squeeze b s) = squeeze b' (trimStart s) := by
  induction s generalizing b with
  | nil => rfl
  | cons c s ih =>
    by_cases hc : isBlank c
    · have hr : trimStart (c :: s) = trimStart s := trimStart_blanks_append (b := [c]) (by simp [hc]) s
      rw [hr]
      cases b with
      | true => rw [squeeze_true_cons_of_blank hc, ih]
      | false =>
        rw [squeeze_false_cons_of_blank hc, ← ih true]
        exact trimStart_blanks_append (b := [' ']) (by decide) _
    · have hc : isBlank c = false := by simpa using hc
      rw [squeeze_cons_of_not_blank hc, trimStart_cons_of_not_blank hc, trimStart_cons_of_not_blank hc,
        squeeze_cons_of_not_blank hc]

theorem trimEnd_squeeze (b : Bool) (s : List Char) : trimEnd (squeeze b s) = squeeze b (trimEnd s) := by
  induction s generalizing b with
  | nil => rfl
  | cons c s ih =>
    by_cases hs : Blanks s
    · have he : trimEnd s = [] := trimEnd_eq_nil_iff.2 hs
      by_cases hc : isBlank c
      · have h : Blanks (c :: s) := by simp [hc, hs]
        rw [trimEnd_eq_nil_iff.2 h, trimEnd_eq_nil_iff.2 (blanks_squeeze.2 h)]
        rfl
      · have hc : isBlank c = false := by simpa using hc
        rw [squeeze_cons_of_not_blank hc, trimEnd_cons_of_not_blank hc, trimEnd_cons_of_not_blank hc,
          squeeze_cons_of_not_blank hc, ih]
    · have hs' : ∀ b, ¬ Blanks (squeeze b s) := fun b => by rwa [blanks_squeeze]
      rw [trimEnd_cons_of_not_blanks hs]
      by_cases hc : isBlank c
      · cases b with
        | true => rw [squeeze_true_cons_of_blank hc, squeeze_true_cons_of_blank hc, ih]
        | false =>
          rw [squeeze_false_cons_of_blank hc, squeeze_false_cons_of_blank hc,
            trimEnd_cons_of_not_blanks (hs' true), ih]
      · have hc : isBlank c = false := by simpa using hc
        rw [squeeze_cons_of_not_blank hc, squeeze_cons_of_not_blank hc,
          trimEnd_cons_of_not_blanks (hs' false), ih]

theorem trim_squeeze (b b' : Bool) (s : List Char) : trim (squeeze b s) = squeeze b' (trim s) := by
  rw [trim, trimStart_squeeze b b', trimEnd_squeeze, trim]

theorem squeeze_false_eq_nil_iff : squeeze false s = [] ↔ s = [] := by
  cases s with
  | nil => simp
  | cons c s => by_cases hc : isBlank c <;> simp [squeeze_cons, hc]

theorem getLast?_squeeze_trim (b : Bool) (s : List Char) : (squeeze b (trim s)).getLast? = (trim s).getLast? := by
  rcases List.eq_nil_or_concat (trim s) with h | ⟨x, c, h⟩
  · rw [h]
    rfl
  · rw [List.concat_eq_append] at h
    rw [h, squeeze_concat (isBlank_last_of_trimEnd h), List.getLast?_concat, List.getLast?_concat]

/-! ### Cuts -/

theorem cutAt_squeeze (hx : isBlank x = false) (b : Bool) (s : List Char) :
    cutAt [x] (squeeze b s) = (cutAt [x] s).map fun (u, v) => (squeeze b u, squeeze false v) := by
  induction s generalizing b with
  | nil => rfl
  | cons c s ih =>
    by_cases hc : isBlank c
    · rw [cutAt_cons_of_ne (isBlank_ne hc hx).symm, Option.map_map]
      cases b with
      | true =>
        rw [squeeze_true_cons_of_blank hc, ih]
        simp [Function.comp_def, squeeze_true_cons_of_blank hc]
      | false =>
        have hs : x ≠ ' ' := (isBlank_ne (by decide) hx).symm
        rw [squeeze_false_cons_of_blank hc, cutAt_cons_of_ne hs, ih, Option.map_map]
        simp [Function.comp_def, squeeze_false_cons_of_blank hc]
    · have hc : isBlank c = false := by simpa using hc
      rw [squeeze_cons_of_not_blank hc]
      by_cases hxc : x = c
      · subst hxc
        rw [cutAt_cons_self, cutAt_cons_self]
        rfl
      · rw [cutAt_cons_of_ne hxc, cutAt_cons_of_ne hxc, ih, Option.map_map, Option.map_map]
        simp [Function.comp_def, squeeze_cons_of_not_blank hc]

/-- The first piece takes over what stands before the text, the others start anew. -/
theorem splitOn_squeeze (hx : isBlank x = false) (b : Bool) (s : List Char) :
    ∃ u us, s.splitOn x = u :: us ∧ (squeeze b s).splitOn x = squeeze b u :: us.map (squeeze false) := by
  induction s generalizing b with
  | nil => exact ⟨[], [], by simp, by simp⟩
  | cons c s ih =>
    rw [List.splitOn_cons_eq_if_modifyHead]
    by_cases hc : isBlank c
    · have hcx : (c == x) = false := by simpa using isBlank_ne hc hx
      have hsx : (' ' == x) = false := by simpa using isBlank_ne (by decide) hx
      obtain ⟨u, us, h1, h2⟩ := ih true
      refine ⟨c :: u, us, by simp [hcx, h1], ?_⟩
      cases b with
      | true => rw [squeeze_true_cons_of_blank hc, h2, squeeze_true_cons_of_blank hc]
      | false =>
        rw [squeeze_false_cons_of_blank hc, List.splitOn_cons_eq_if_modifyHead, h2,
          squeeze_false_cons_of_blank hc]
        simp [hsx]
    · have hc : isBlank c = false := by simpa using hc
      obtain ⟨u, us, h1, h2⟩ := ih false
      rw [squeeze_cons_of_not_blank hc, List.splitOn_cons_eq_if_modifyHead, h1, h2]
      by_cases hcx : c == x
      · exact ⟨[], u :: us, by simp [hcx], by simp [hcx]⟩
      · exact ⟨c :: u, us, by simp [hcx], by simp [hcx, squeeze_cons_of_not_blank hc]⟩

theorem eq_of_squeeze_eq {v : List Char} (hv : ∀ c ∈ v, isBlank c = false) (h : squeeze false s = v) :
    s = v := by
  induction s generalizing v with
  | nil => exact h
  | cons c s ih =>
    by_cases hc : isBlank c
    · rw [squeeze_false_cons_of_blank hc] at h
      subst h
      exact absurd (hv ' ' (by simp)) (by decide)
    · rw [squeeze_cons_of_not_blank (by simpa using hc)] at h
      subst h
      exact congrArg (c :: ·) (ih (fun d hd => hv d (List.mem_cons_of_mem _ hd)) rfl)

theorem squeeze_eq_self {v : List Char} (hv : ∀ c ∈ v, isBlank c = false) (b : Bool) : squeeze b v = v := by
  induction v generalizing b with
  | nil => rfl
  | cons c v ih =>
    rw [squeeze_cons_of_not_blank (hv c (by simp)), ih fun d hd => hv d (List.mem_cons_of_mem _ hd)]

end ShapeBindings.Text
