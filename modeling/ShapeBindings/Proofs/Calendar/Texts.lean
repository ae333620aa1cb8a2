import Mathlib
import ShapeBindings.Proofs.Calendar.Words
import ShapeBindings.Proofs.Text.Search

/-!
# Texts of dates and times

* `read?_render`: the text of a date and time is read back, whatever its numbers are;
* `ofDigitChars_lt_iff`: digits of one number of places are in the order of their values;
* `render_lt_render_iff`: while the numbers fit into their places, so are the texts;
* `render_ofSeconds`: the text of a number of seconds says its moment, and texts are in the order of time.
-/

namespace ShapeBindings.CivilTime

open Gregorian Text

/-! ### Reading -/

/-- The number that decimal digits stand for. -/
def decimal? (s : List Char) : Option ℕ :=
  if s ≠ [] ∧ ∀ c ∈ s, c.isDigit then some (Nat.ofDigitChars 10 s 0) else none

/-- The numbers between separators. -/
def numbers? : List Char → List Char → Option (List ℕ)
  | [], s => (decimal? s).map ([·])
  | sep :: seps, s => do
    let (number, rest) ← cutAt [sep] s
    return (← decimal? number) :: (← numbers? seps rest)

/-- The date and time of a text such as `2000-02-29 12:00:00`. -/
def read? (text : String) : Option CivilTime :=
  match numbers? ['-', '-', ' ', ':', ':'] text.toList with
  | some [year, month, day, hour, minute, second] => some ⟨year, month, day, hour, minute, second⟩
  | _ => none

/-! ### Digits -/

theorem toList_padded (width n : ℕ) :
    (padded width n).toList = List.replicate (width - (Nat.toDigits 10 n).length) '0' ++ Nat.toDigits 10 n := by
  rw [padded, String.toList_ofList, Nat.toString_eq_repr, Nat.toList_repr]

theorem isDigit_of_mem_padded {width n : ℕ} {c : Char} (h : c ∈ (padded width n).toList) : c.isDigit := by
  rw [toList_padded, List.mem_append] at h
  rcases h with h | h
  · rw [List.eq_of_mem_replicate h]
    rfl
  · exact Nat.isDigit_of_mem_toDigits (by decide) le_rfl h

theorem ofDigitChars_padded (width n : ℕ) : Nat.ofDigitChars 10 (padded width n).toList 0 = n := by
  rw [toList_padded, Nat.ofDigitChars_append, Nat.ofDigitChars_replicate_zero, mul_zero, Nat.ofDigitChars_ten_toDigits]

theorem decimal?_padded (width n : ℕ) : decimal? (padded width n).toList = some n := by
  have hne : (padded width n).toList ≠ [] := by
    rw [toList_padded]
    exact List.append_ne_nil_of_right_ne_nil _ Nat.toDigits_ne_nil
  rw [decimal?, if_pos ⟨hne, fun c hc => isDigit_of_mem_padded hc⟩, ofDigitChars_padded]

theorem length_padded {width n : ℕ} (hwidth : 0 < width) (h : n < 10 ^ width) :
    (padded width n).toList.length = width := by
  have := (Nat.length_toDigits_le_iff (by decide) hwidth).2 h
  rw [toList_padded, List.length_append, List.length_replicate]
  omega

theorem numbers?_padded {sep : Char} (hsep : ¬ sep.isDigit) (seps : List Char) (width n : ℕ) (s : List Char) :
    numbers? (sep :: seps) ((padded width n).toList ++ sep :: s) = (numbers? seps s).map (n :: ·) := by
  have hcut : cutAt [sep] ((padded width n).toList ++ sep :: s) = some ((padded width n).toList, s) :=
    cutAt_append (fun h => hsep (isDigit_of_mem_padded h)) [] s
  simp only [numbers?, hcut, decimal?_padded, Option.bind_eq_bind, Option.bind_some, Option.pure_def]
  rw [Option.map_eq_bind]
  rfl

theorem toList_render (t : CivilTime) :
    t.render.toList =
      (padded 4 t.year).toList ++ '-' :: ((padded 2 t.month).toList ++ '-' :: ((padded 2 t.day).toList ++ ' ' ::
        ((padded 2 t.hour).toList ++ ':' :: ((padded 2 t.minute).toList ++ ':' :: (padded 2 t.second).toList)))) := by
  have htoString : ∀ s : String, toString s = s := fun _ => rfl
  have hline : "-".toList = ['-'] ∧ " ".toList = [' '] ∧ ":".toList = [':'] := by decide
  simp only [render, htoString, String.toList_append, hline, List.append_assoc, List.cons_append,
    List.nil_append]

theorem read?_render (t : CivilTime) : read? t.render = some t := by
  have hlast : numbers? [] (padded 2 t.second).toList = some [t.second] := by
    rw [numbers?, decimal?_padded]
    rfl
  rw [read?, toList_render, numbers?_padded (by decide), numbers?_padded (by decide), numbers?_padded (by decide),
    numbers?_padded (by decide), numbers?_padded (by decide), hlast]
  rfl

/-! ### Order -/

/-- Digits of one number of places are in the order of their values, after whatever stands before them. -/
theorem ofDigitChars_lt_iff {a b : List Char} (hlength : a.length = b.length) (ha : ∀ c ∈ a, c.isDigit)
    (hb : ∀ c ∈ b, c.isDigit) (p q : ℕ) :
    Nat.ofDigitChars 10 a p < Nat.ofDigitChars 10 b q ↔ p < q ∨ p = q ∧ a < b := by
  induction a generalizing b p q with
  | nil =>
    obtain rfl := List.length_eq_zero_iff.1 hlength.symm
    simp [Nat.ofDigitChars]
  | cons c a ih =>
    obtain ⟨d, b, rfl⟩ := List.exists_cons_of_length_eq_add_one hlength.symm
    rw [List.forall_mem_cons] at ha hb
    have hc := Char.isDigit_iff_toNat.1 ha.1
    have hd := Char.isDigit_iff_toNat.1 hb.1
    have hlt : c < d ↔ c.toNat < d.toNat := Iff.rfl
    have heq : c = d ↔ c.toNat = d.toNat := Char.toNat_inj.symm
    have hzero : '0'.toNat = 48 := rfl
    have hnine : '9'.toNat = 57 := rfl
    have hfirst : 10 * p + (c.toNat - '0'.toNat) < 10 * q + (d.toNat - '0'.toNat) ↔ p < q ∨ p = q ∧ c < d := by
      rw [hlt]
      omega
    have hsame : 10 * p + (c.toNat - '0'.toNat) = 10 * q + (d.toNat - '0'.toNat) ↔ p = q ∧ c = d := by
      rw [heq]
      omega
    rw [Nat.ofDigitChars_cons, Nat.ofDigitChars_cons, ih (by simpa using hlength) ha.2 hb.2, List.cons_lt_cons_iff,
      hfirst, hsame, or_assoc, and_assoc, ← and_or_left]

theorem append_lt_append_iff {a b s t : List Char} (hlength : a.length = b.length) :
    a ++ s < b ++ t ↔ a < b ∨ a = b ∧ s < t := by
  induction a generalizing b with
  | nil =>
    obtain rfl := List.length_eq_zero_iff.1 hlength.symm
    simp
  | cons c a ih =>
    obtain ⟨d, b, rfl⟩ := List.exists_cons_of_length_eq_add_one hlength.symm
    rw [List.cons_append, List.cons_append, List.cons_lt_cons_iff, List.cons_lt_cons_iff, ih (by simpa using hlength),
      List.cons.injEq, or_assoc, and_assoc, ← and_or_left]

section Fields

variable {width m n : ℕ} (hwidth : 0 < width) (hm : m < 10 ^ width) (hn : n < 10 ^ width)

include hwidth hm hn

theorem padded_lt_padded_iff : (padded width m).toList < (padded width n).toList ↔ m < n := by
  have h := ofDigitChars_lt_iff ((length_padded hwidth hm).trans (length_padded hwidth hn).symm)
    (fun c hc => isDigit_of_mem_padded hc) (fun c hc => isDigit_of_mem_padded hc) 0 0
  rw [ofDigitChars_padded, ofDigitChars_padded] at h
  simpa using h.symm

theorem padded_append_lt_iff {s t : List Char} :
    (padded width m).toList ++ s < (padded width n).toList ++ t ↔ m < n ∨ m = n ∧ s < t := by
  have heq : (padded width m).toList = (padded width n).toList ↔ m = n := by
    constructor
    · intro h
      rw [← ofDigitChars_padded width m, h, ofDigitChars_padded]
    · rintro rfl
      rfl
  rw [append_lt_append_iff ((length_padded hwidth hm).trans (length_padded hwidth hn).symm),
    padded_lt_padded_iff hwidth hm hn, heq]

end Fields

/-- A time of day and a day of a month have two digits, and the year has four. -/
structure Fits (t : CivilTime) : Prop where
  year_lt : t.year < 10 ^ 4
  month_lt : t.month < 10 ^ 2
  day_lt : t.day < 10 ^ 2
  hour_lt : t.hour < 10 ^ 2
  minute_lt : t.minute < 10 ^ 2
  second_lt : t.second < 10 ^ 2

/-- Texts are in the order of the numbers in them. -/
theorem render_lt_render_iff {t u : CivilTime} (ht : t.Fits) (hu : u.Fits) :
    t.render < u.render ↔ t.fields < u.fields := by
  have hsep : ∀ (c : Char) (s s' : List Char), c :: s < c :: s' ↔ s < s' := by simp
  rw [String.lt_iff_toList_lt, toList_render, toList_render,
    padded_append_lt_iff (by decide) ht.year_lt hu.year_lt, hsep,
    padded_append_lt_iff (by decide) ht.month_lt hu.month_lt, hsep,
    padded_append_lt_iff (by decide) ht.day_lt hu.day_lt, hsep,
    padded_append_lt_iff (by decide) ht.hour_lt hu.hour_lt, hsep,
    padded_append_lt_iff (by decide) ht.minute_lt hu.minute_lt, hsep,
    padded_lt_padded_iff (by decide) ht.second_lt hu.second_lt]
  simp [fields, List.cons_lt_cons_iff]

/-! ### The clock -/

theorem render_injective : Function.Injective render := by
  intro t u h
  have ht := read?_render t
  rw [h, read?_render u] at ht
  exact (Option.some.inj ht).symm

theorem ofSeconds_injective : Function.Injective ofSeconds := by
  intro a b h
  exact strictMono_fields.injective (congrArg fields h)

theorem fits_ofSeconds {secs : ℕ} (h : (ofSeconds secs).year ≤ 9999) : (ofSeconds secs).Fits := by
  have hmoment := isMoment_ofSeconds secs
  have hmonth := hmoment.isDate.month_le
  have hday := hmoment.isDate.day_le.trans (monthLength_le _ _)
  have hhour := hmoment.hour_lt
  have hminute := hmoment.minute_lt
  have hsecond := hmoment.second_lt
  constructor <;> omega

/-- The text of a number of seconds says the only moment of the calendar with that number, and is found without leaving
the words; it determines the seconds, and up to the year 9999 later texts are larger. -/
theorem render_ofSeconds (secs : UInt64) :
    (∃ t, read? (ofSeconds secs.toNat).render = some t ∧
      ∀ year month day hour minute second, IsMoment secs.toNat year month day hour minute second ↔
        year = t.year ∧ month = t.month ∧ day = t.day ∧ hour = t.hour ∧ minute = t.minute ∧ second = t.second) ∧
    fieldsInWords secs.toNat = some ((ofSeconds secs.toNat).fields.map Nat.cast) ∧
    ∀ other : UInt64,
      ((ofSeconds other.toNat).render = (ofSeconds secs.toNat).render → other = secs) ∧
      ((ofSeconds other.toNat).year ≤ 9999 → (ofSeconds secs.toNat).year ≤ 9999 →
        ((ofSeconds other.toNat).render < (ofSeconds secs.toNat).render ↔ other < secs)) := by
  refine ⟨⟨_, read?_render _, fun _ _ _ _ _ _ => isMoment_iff⟩, fieldsInWords_natCast secs.toNat_lt,
    fun other => ⟨?_, ?_⟩⟩
  · intro h
    exact UInt64.toNat_inj.1 (ofSeconds_injective (render_injective h))
  · intro hother hsecs
    rw [render_lt_render_iff (fits_ofSeconds hother) (fits_ofSeconds hsecs), UInt64.lt_iff_toNat_lt]
    exact strictMono_fields.lt_iff_lt

theorem render_ofSeconds_leapDay :
    IsMoment 951782400 2000 2 29 0 0 0 ∧ (ofSeconds 951782399).render < (ofSeconds 951782400).render := by
  obtain ⟨⟨t, ht, hmoment⟩, -, horder⟩ := render_ofSeconds 951782400
  rw [read?_render] at ht
  obtain rfl := Option.some.inj ht
  exact ⟨(hmoment 2000 2 29 0 0 0).2 (by decide), ((horder 951782399).2 (by decide) (by decide)).2 (by decide)⟩

end ShapeBindings.CivilTime
