import ShapeBindings.Identifier
import ShapeBindings.Proofs.Text.Trim

/-!
# The characters of identifiers

Identifiers are not empty, and none of their characters is blank or of a meaning to the readers of texts.
-/

namespace ShapeBindings

open Text

theorem range_of_isIdentifierPart {c : Char} (h : isIdentifierPart c = true) :
    (48 ≤ c.toNat ∧ c.toNat ≤ 57) ∨ (65 ≤ c.toNat ∧ c.toNat ≤ 90) ∨ c.toNat = 95 ∨
      (97 ≤ c.toNat ∧ c.toNat ≤ 122) := by
  have hupper : c.isUpper = decide (65 ≤ c.val ∧ c.val ≤ 90) := rfl
  have hlower : c.isLower = (decide (97 ≤ c.val) && decide (c.val ≤ 122)) := rfl
  have halpha : c.isAlpha = (c.isUpper || c.isLower) := rfl
  simp only [isIdentifierPart, Char.isAlphanum, halpha, hupper, hlower, Char.isDigit, Bool.or_eq_true, Bool.and_eq_true,
    decide_eq_true_eq, ge_iff_le, UInt32.le_iff_toNat_le, beq_iff_eq] at h
  rcases h with ((h | h) | h) | rfl
  · exact .inr (.inl h)
  · exact .inr (.inr (.inr h))
  · exact .inl h
  · exact .inr (.inr (.inl rfl))

theorem isBlank_of_isIdentifierPart {c : Char} (h : isIdentifierPart c = true) : isBlank c = false := by
  have := range_of_isIdentifierPart h
  rw [← Bool.not_eq_true]
  intro hb
  simp [isBlank] at hb
  omega

theorem isIdentifierPart_of_isBlank {c : Char} (h : isBlank c = true) : isIdentifierPart c = false := by
  rw [← Bool.not_eq_true]
  intro hp
  rw [isBlank_of_isIdentifierPart hp] at h
  cases h

theorem isIdentifierPart_of_start {c : Char} (h : isIdentifierStart c = true) : isIdentifierPart c = true := by
  simp only [isIdentifierStart, isIdentifierPart, Char.isAlphanum, Bool.or_eq_true] at h ⊢
  exact h.elim (fun h => .inl (.inl h)) .inr

theorem isIdentifier_iff {s : String} :
    isIdentifier s = true ↔
      ∃ c cs, s.toList = c :: cs ∧ isIdentifierStart c = true ∧ ∀ d ∈ cs, isIdentifierPart d = true := by
  unfold isIdentifier
  split
  · next h => simp [h]
  · next c cs h =>
    rw [Bool.and_eq_true, List.all_eq_true]
    constructor
    · rintro ⟨h1, h2⟩
      exact ⟨c, cs, h, h1, h2⟩
    · rintro ⟨d, ds, hd, h1, h2⟩
      obtain ⟨rfl, rfl⟩ := List.cons.inj (h.symm.trans hd)
      exact ⟨h1, h2⟩

theorem isIdentifierPart_of_mem {s : String} (h : isIdentifier s = true) {c : Char} (hc : c ∈ s.toList) :
    isIdentifierPart c = true := by
  obtain ⟨d, ds, hs, hd, hds⟩ := isIdentifier_iff.1 h
  rw [hs, List.mem_cons] at hc
  rcases hc with rfl | hc
  · exact isIdentifierPart_of_start hd
  · exact hds c hc

theorem toList_ne_nil_of_isIdentifier {s : String} (h : isIdentifier s = true) : s.toList ≠ [] := by
  obtain ⟨c, cs, hs, -, -⟩ := isIdentifier_iff.1 h
  simp [hs]

/-- A character that cannot stand in an identifier does not stand in one. -/
theorem not_mem_of_isIdentifier {s : String} (h : isIdentifier s = true) {c : Char}
    (hc : isIdentifierPart c = false) : c ∉ s.toList := by
  intro hm
  rw [isIdentifierPart_of_mem h hm] at hc
  cases hc

theorem trim_identifier {s : String} (h : isIdentifier s = true) : trim s.toList = s.toList := by
  have hc : ∀ c ∈ s.toList, isBlank c = false := fun c hc =>
    isBlank_of_isIdentifierPart (isIdentifierPart_of_mem h hc)
  exact trim_eq_self (fun c h => hc c (List.mem_of_mem_head? h)) fun c h => hc c (List.mem_of_mem_getLast? h)

end ShapeBindings
