import Mathlib.Data.String.Basic
import ShapeBindings.Proofs.Text.Utf8

/-!
# The order of texts

Texts are in the order of their code points, and so are their octets (`encode_lt_encode_iff`): the octets of the smaller
of two characters are smaller, whatever follows them (`utf8EncodeChar_append_lt`).
-/

namespace ShapeBindings.Text

section

variable {m n : Nat} {s t : List UInt8}

theorem octet_cons_lt_of_lt (hn : n < 256) (h : m < n) : UInt8.ofNat m :: s < UInt8.ofNat n :: t := by
  rw [List.cons_lt_cons_iff, UInt8.lt_iff_toNat_lt, toNat_octet (h.trans hn), toNat_octet hn]
  exact .inl h

/-- Octets are compared by the first of them, and by the others if it is the same. -/
theorem octet_cons_lt (hn : n < 256) (hle : m ≤ n) (hrest : m = n → s < t) :
    UInt8.ofNat m :: s < UInt8.ofNat n :: t := by
  rcases Nat.lt_or_eq_of_le hle with hlt | rfl
  · exact octet_cons_lt_of_lt hn hlt
  · exact List.cons_lt_cons_iff.2 (.inr ⟨rfl, hrest rfl⟩)

end

theorem utf8EncodeChar_append_lt {c d : Char} (h : c < d) (s t : List UInt8) :
    String.utf8EncodeChar c ++ s < String.utf8EncodeChar d ++ t := by
  obtain ⟨v, hv⟩ : ∃ v, v = c.val.toNat := ⟨_, rfl⟩
  obtain ⟨w, hw⟩ : ∃ w, w = d.val.toNat := ⟨_, rfl⟩
  have hlt : v < w := hv ▸ hw ▸ h
  have hvalid : w < 0x110000 := hw ▸ d.valid.elim (fun hd => Nat.lt_trans hd (by decide)) And.right
  clear h
  unfold String.utf8EncodeChar
  rw [← hv, ← hw]
  dsimp only
  clear hv hw
  -- one case for each number of octets; of two numbers the greater one is that of the greater character
  split
  · split
    · exact octet_cons_lt_of_lt (by omega) (by omega)
    split
    · exact octet_cons_lt_of_lt (by omega) (by omega)
    split
    · exact octet_cons_lt_of_lt (by omega) (by omega)
    · exact octet_cons_lt_of_lt (by omega) (by omega)
  split
  · rw [if_neg (by omega)]
    split
    · exact octet_cons_lt (by omega) (by omega) fun _ => octet_cons_lt_of_lt (by omega) (by omega)
    split
    · exact octet_cons_lt_of_lt (by omega) (by omega)
    · exact octet_cons_lt_of_lt (by omega) (by omega)
  split
  · rw [if_neg (by omega), if_neg (by omega)]
    split
    · exact octet_cons_lt (by omega) (by omega) fun _ => octet_cons_lt (by omega) (by omega) fun _ =>
        octet_cons_lt_of_lt (by omega) (by omega)
    · exact octet_cons_lt_of_lt (by omega) (by omega)
  · rw [if_neg (by omega), if_neg (by omega), if_neg (by omega)]
    exact octet_cons_lt (by omega) (by omega) fun _ => octet_cons_lt (by omega) (by omega) fun _ =>
      octet_cons_lt (by omega) (by omega) fun _ => octet_cons_lt_of_lt (by omega) (by omega)

theorem flatMap_utf8EncodeChar_lt {cs ds : List Char} (h : cs < ds) :
    cs.flatMap String.utf8EncodeChar < ds.flatMap String.utf8EncodeChar := by
  induction h with
  | @nil d ds =>
    obtain ⟨b, bs, hb⟩ := List.exists_cons_of_ne_nil (String.utf8EncodeChar_ne_nil (c := d))
    rw [List.flatMap_nil, List.flatMap_cons, hb]
    exact List.nil_lt_cons b _
  | rel h =>
    rw [List.flatMap_cons, List.flatMap_cons]
    exact utf8EncodeChar_append_lt h _ _
  | cons _ ih =>
    rw [List.flatMap_cons, List.flatMap_cons]
    exact List.append_left_lt ih

/-- The order of the octets is the order of the code points. -/
theorem encode_lt_encode_iff {s t : String} : encode s < encode t ↔ s < t := by
  have hmono : ∀ {s t : String}, s < t → encode s < encode t := fun h => by
    rw [encode_eq_flatMap, encode_eq_flatMap]
    exact flatMap_utf8EncodeChar_lt (String.lt_iff_toList_lt.1 h)
  refine ⟨fun h => ?_, hmono⟩
  by_contra hlt
  rcases eq_or_ne s t with rfl | hne
  · exact List.lt_irrefl _ h
  · have hgt : t < s := Std.lt_of_le_of_ne (String.not_lt.1 hlt) hne.symm
    exact List.lt_asymm h (hmono hgt)

end ShapeBindings.Text
