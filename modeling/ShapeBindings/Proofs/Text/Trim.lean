import Mathlib.Data.List.TakeWhile
import Mathlib.Tactic.Conv
import ShapeBindings.Text.Blank

/-!
# Blank texts and trimming

* `Blanks s`: every character of `s` is blank;
* `trim` forgets blanks at both ends (`trim_blanks_append`, `trim_append_blanks`), gives nothing just for blank texts
  (`trim_eq_nil_iff`), and keeps a text whose two ends are not blank (`trim_eq_self`), as what it gives (`trim_trim`).
-/

namespace ShapeBindings.Text

/-- A text that consists of blanks. -/
def Blanks (s : List Char) : Prop := ∀ c ∈ s, isBlank c = true

instance (s : List Char) : Decidable (Blanks s) := decidable_of_iff (s.all isBlank = true) List.all_eq_true

/-- A property of all elements of a list, in a form that is decided by going through the list. -/
theorem forall_mem_of_all {α : Type} {f : α → Bool} {b : Bool} {s : List α} (h : s.all (f · == b) = true) :
    ∀ x ∈ s, f x = b := by
  simpa using h

@[simp] theorem blanks_nil : Blanks [] := by simp [Blanks]

@[simp] theorem blanks_cons {c : Char} {s : List Char} :
    Blanks (c :: s) ↔ isBlank c = true ∧ Blanks s := by
  simp [Blanks]

@[simp] theorem blanks_append {s t : List Char} : Blanks (s ++ t) ↔ Blanks s ∧ Blanks t := by
  simp only [Blanks, List.mem_append]
  exact ⟨fun h => ⟨fun c hc => h c (.inl hc), fun c hc => h c (.inr hc)⟩,
    fun h c hc => hc.elim (h.1 c) (h.2 c)⟩

theorem isBlank_ne {c d : Char} (hc : isBlank c = true) (hd : isBlank d = false) : c ≠ d := by
  rintro rfl
  simp [hc] at hd

theorem Blanks.not_mem {s : List Char} {d : Char} (h : Blanks s) (hd : isBlank d = false) :
    d ∉ s :=
  fun hm => isBlank_ne (h d hm) hd rfl

/-! ### The start -/

theorem trimStart_blanks_append {b : List Char} (hb : Blanks b) (s : List Char) :
    trimStart (b ++ s) = trimStart s :=
  List.dropWhile_append_of_pos hb

theorem trimStart_cons_of_blank {c : Char} (hc : isBlank c = true) (s : List Char) :
    trimStart (c :: s) = trimStart s :=
  List.dropWhile_cons_of_pos hc

theorem trimStart_cons_of_not_blank {c : Char} (hc : isBlank c = false) (s : List Char) :
    trimStart (c :: s) = c :: s := by
  simp [trimStart, hc]

theorem trimStart_eq_nil_iff {s : List Char} : trimStart s = [] ↔ Blanks s :=
  List.dropWhile_eq_nil_iff

theorem exists_trimStart (s : List Char) : ∃ b, Blanks b ∧ s = b ++ trimStart s :=
  ⟨s.takeWhile isBlank, fun _ hc => List.mem_takeWhile_imp hc, (List.takeWhile_append_dropWhile).symm⟩

theorem isBlank_of_trimStart {s t : List Char} {c : Char} (h : trimStart s = c :: t) : isBlank c = false := by
  have := List.head?_dropWhile_not isBlank s
  rw [show s.dropWhile isBlank = c :: t from h] at this
  simpa using this

/-! ### The end -/

@[simp] theorem trimEnd_nil : trimEnd [] = [] := rfl

theorem trimEnd_cons (c : Char) (s : List Char) : trimEnd (c :: s) =
    match trimEnd s with
    | [] => if isBlank c then [] else [c]
    | d :: t => c :: d :: t := rfl

theorem trimEnd_eq_nil_iff {s : List Char} : trimEnd s = [] ↔ Blanks s := by
  induction s with
  | nil => simp
  | cons c s ih =>
    rw [trimEnd_cons]
    split
    · next h =>
      rw [blanks_cons, ← ih]
      by_cases hc : isBlank c <;> simp [hc, h]
    · next d t h =>
      have : ¬ Blanks s := by rw [← ih, h]; simp
      simp [this]

theorem trimEnd_cons_of_not_blanks {s : List Char} (hs : ¬ Blanks s) (c : Char) :
    trimEnd (c :: s) = c :: trimEnd s := by
  rw [← trimEnd_eq_nil_iff] at hs
  rw [trimEnd_cons]
  split
  · next h => exact absurd h hs
  · next d t h => rw [h]

theorem trimEnd_cons_of_not_blank {c : Char} (hc : isBlank c = false) (s : List Char) :
    trimEnd (c :: s) = c :: trimEnd s := by
  by_cases hs : Blanks s
  · have h := trimEnd_eq_nil_iff.2 hs
    simp [trimEnd_cons, h, hc]
  · exact trimEnd_cons_of_not_blanks hs c

theorem trimEnd_append_of_not_blanks (s : List Char) {t : List Char} (ht : ¬ Blanks t) :
    trimEnd (s ++ t) = s ++ trimEnd t := by
  induction s with
  | nil => rfl
  | cons c s ih =>
    have : ¬ Blanks (s ++ t) := by simp [ht]
    rw [List.cons_append, trimEnd_cons_of_not_blanks this, ih, List.cons_append]

theorem trimEnd_append_blanks (s : List Char) {b : List Char} (hb : Blanks b) :
    trimEnd (s ++ b) = trimEnd s := by
  induction s with
  | nil => exact trimEnd_eq_nil_iff.2 hb
  | cons c s ih =>
    rw [List.cons_append, trimEnd_cons, trimEnd_cons, ih]

theorem exists_trimEnd (s : List Char) : ∃ b, Blanks b ∧ s = trimEnd s ++ b := by
  induction s with
  | nil => exact ⟨[], by simp, rfl⟩
  | cons c s ih =>
    by_cases hs : Blanks s
    · by_cases hc : isBlank c = true
      · exact ⟨c :: s, by simp [hc, hs], by rw [trimEnd_eq_nil_iff.2 (by simp [hc, hs])]; rfl⟩
      · refine ⟨s, hs, ?_⟩
        rw [trimEnd_cons_of_not_blank (by simpa using hc), trimEnd_eq_nil_iff.2 hs]
        rfl
    · obtain ⟨b, hb, h⟩ := ih
      refine ⟨b, hb, ?_⟩
      rw [trimEnd_cons_of_not_blanks hs, List.cons_append, ← h]

theorem trimEnd_eq_self {s : List Char} (h : ∀ c ∈ s.getLast?, isBlank c = false) :
    trimEnd s = s := by
  induction s with
  | nil => rfl
  | cons c s ih =>
    cases s with
    | nil =>
      rw [trimEnd_cons_of_not_blank (h c (by simp))]
      rfl
    | cons d t =>
      have hs : trimEnd (d :: t) = d :: t := ih (by simpa using h)
      rw [trimEnd_cons_of_not_blanks, hs]
      rw [← trimEnd_eq_nil_iff, hs]
      simp

theorem isBlank_last_of_trimEnd {s x : List Char} {c : Char} (h : trimEnd s = x ++ [c]) : isBlank c = false := by
  induction s generalizing x with
  | nil => simp at h
  | cons d s ih =>
    by_cases hs : Blanks s
    · by_cases hd : isBlank d
      · rw [trimEnd_eq_nil_iff.2 (by simp [hd, hs])] at h
        simp at h
      · have hd : isBlank d = false := by simpa using hd
        rw [trimEnd_cons_of_not_blank hd, trimEnd_eq_nil_iff.2 hs] at h
        obtain ⟨-, h⟩ := List.append_inj' (show [] ++ [d] = x ++ [c] from h) rfl
        rwa [← (List.cons.inj h).1]
    · rw [trimEnd_cons_of_not_blanks hs] at h
      cases x with
      | nil =>
        rw [← trimEnd_eq_nil_iff] at hs
        exact absurd (List.cons.inj h).2 hs
      | cons e x => exact ih (List.cons.inj h).2

/-! ### Both ends -/

theorem trim_blanks_append {b : List Char} (hb : Blanks b) (s : List Char) :
    trim (b ++ s) = trim s := by
  unfold trim
  rw [trimStart_blanks_append hb]

theorem trim_append_blanks (s : List Char) {b : List Char} (hb : Blanks b) :
    trim (s ++ b) = trim s := by
  unfold trim
  by_cases hs : Blanks s
  · rw [trimStart_eq_nil_iff.2 hs, trimStart_eq_nil_iff.2 (by simp [hs, hb])]
  · obtain ⟨a, ha, h⟩ := exists_trimStart s
    have hne : trimStart s ≠ [] := by rwa [Ne, trimStart_eq_nil_iff]
    have : trimStart (s ++ b) = trimStart s ++ b := by
      conv_lhs => rw [h, List.append_assoc, trimStart_blanks_append ha]
      obtain ⟨c, t, hct⟩ := List.exists_cons_of_ne_nil hne
      rw [hct, List.cons_append, trimStart_cons_of_not_blank (isBlank_of_trimStart hct)]
    rw [this, trimEnd_append_blanks _ hb]

theorem trim_eq_nil_iff {s : List Char} : trim s = [] ↔ Blanks s := by
  constructor
  · intro h
    obtain ⟨b, hb, h1⟩ := exists_trimStart s
    rw [h1, blanks_append]
    exact ⟨hb, trimEnd_eq_nil_iff.1 h⟩
  · intro h
    rw [trim, trimStart_eq_nil_iff.2 h]
    rfl

/-- A text is its trimmed part between blanks. -/
theorem exists_trim (s : List Char) : ∃ a b, Blanks a ∧ Blanks b ∧ s = a ++ trim s ++ b := by
  obtain ⟨a, ha, h1⟩ := exists_trimStart s
  obtain ⟨b, hb, h2⟩ := exists_trimEnd (trimStart s)
  refine ⟨a, b, ha, hb, ?_⟩
  rw [trim, List.append_assoc, ← h2, ← h1]

theorem length_trim_le (s : List Char) : (trim s).length ≤ s.length := by
  obtain ⟨a, b, -, -, h⟩ := exists_trim s
  have := congrArg List.length h
  simp only [List.length_append] at this
  omega

theorem trim_eq_self {s : List Char} (h1 : ∀ c ∈ s.head?, isBlank c = false)
    (h2 : ∀ c ∈ s.getLast?, isBlank c = false) : trim s = s := by
  cases s with
  | nil => rfl
  | cons c s => rw [trim, trimStart_cons_of_not_blank (h1 c (by simp)), trimEnd_eq_self h2]

/-- A text is trimmed if no blank stands at its ends. -/
theorem trim_eq_self_iff {s : List Char} :
    trim s = s ↔ (∀ c ∈ s.head?, isBlank c = false) ∧ ∀ c ∈ s.getLast?, isBlank c = false := by
  refine ⟨fun h => ⟨fun c hc => ?_, fun c hc => ?_⟩, fun h => trim_eq_self h.1 h.2⟩
  · obtain ⟨t, rfl⟩ := List.head?_eq_some_iff.1 hc
    rw [← Bool.not_eq_true]
    intro hb
    have ht : trim (c :: t) = trim t := trim_blanks_append (b := [c]) (by simpa using hb) t
    have := length_trim_le t
    rw [← ht, h, List.length_cons] at this
    omega
  · obtain ⟨t, rfl⟩ := List.getLast?_eq_some_iff.1 hc
    rw [← Bool.not_eq_true]
    intro hb
    have ht : trim (t ++ [c]) = trim t := trim_append_blanks t (by simpa using hb)
    have := length_trim_le t
    rw [← ht, h, List.length_append, List.length_singleton] at this
    omega

theorem trim_trim (s : List Char) : trim (trim s) = trim s := by
  refine trim_eq_self (fun c hc => ?_) fun c hc => ?_
  · obtain ⟨t, ht⟩ := List.head?_eq_some_iff.1 hc
    cases hs : trimStart s with
    | nil => simp [trim, hs] at ht
    | cons d r =>
      have hd := isBlank_of_trimStart hs
      rw [trim, hs, trimEnd_cons_of_not_blank hd] at ht
      rwa [← (List.cons.inj ht).1]
  · obtain ⟨t, ht⟩ := List.getLast?_eq_some_iff.1 hc
    exact isBlank_last_of_trimEnd ht

end ShapeBindings.Text
