import Mathlib.Tactic.IntervalCases
import ShapeBindings.Proofs.Text.Writing

/-!
# Reading what was written

* `decodeFrom_start`, `decodeFrom_next`, `decodeFrom_last`: what the octets of one character do;
* `PartialChar.Opened`: what the first of them opens, which the second one must fit;
* `decodeFrom_utf8EncodeChar`: the octets of a character are read as the character;
* `decodeLossy_encode`: the octets of a text are read as the text.
-/

namespace ShapeBindings.Text

variable {p : PartialChar} {rest : List UInt8} {n x : Nat}

/-! ### Octets of one character -/

theorem toNat_octet (hn : n < 256) : (UInt8.ofNat n).toNat = n := UInt8.toNat_ofNat_of_lt' hn

theorem decodeFrom_ascii (hn : n < 0x80) :
    decodeFrom none (UInt8.ofNat n :: rest) = some (Char.ofNat n) :: decodeFrom none rest := by
  rw [decodeFrom, toNat_octet (by omega), decodeStart, if_pos hn]
  rfl

/-- The first octet of a character of several. -/
theorem decodeFrom_start (hl : 0x80 ≤ n) (hg : n < 256) (hp : PartialChar.start? n = some p) :
    decodeFrom none (UInt8.ofNat n :: rest) = decodeFrom (some p) rest := by
  rw [decodeFrom, toNat_octet hg, decodeStart, if_neg (by omega), hp]
  rfl

/-- An octet after which more are owed. -/
theorem decodeFrom_next (hx : x < 64) (hl : p.least ≤ x + 0x80) (hg : x + 0x80 ≤ p.greatest) (ho : 1 < p.owed) :
    decodeFrom (some p) (UInt8.ofNat (x + 0x80) :: rest) =
      decodeFrom (some ⟨p.owed - 1, 0x80, 0xBF, p.bits * 64 + x⟩) rest := by
  have hnext : p.next (x + 0x80) = ([], some ⟨p.owed - 1, 0x80, 0xBF, p.bits * 64 + x⟩) := by
    simp [PartialChar.next, hl, hg, Nat.not_le.2 ho]
  rw [decodeFrom, toNat_octet (by omega), hnext]
  rfl

/-- The last octet of a character. -/
theorem decodeFrom_last (hx : x < 64) (hl : p.least ≤ x + 0x80) (hg : x + 0x80 ≤ p.greatest) (ho : p.owed = 1) :
    decodeFrom (some p) (UInt8.ofNat (x + 0x80) :: rest) =
      some (Char.ofNat (p.bits * 64 + x)) :: decodeFrom none rest := by
  have hnext : p.next (x + 0x80) = ([some (Char.ofNat (p.bits * 64 + x))], none) := by
    simp [PartialChar.next, hl, hg, ho]
  rw [decodeFrom, toNat_octet (by omega), hnext]
  rfl

/-! ### First octets -/

/-- The octet `b` opens the character `p` of which `owed` octets are to come, with `bits` as its leading bits, and an
octet with the bits `x` may follow. -/
structure PartialChar.Opened (p : PartialChar) (b owed bits x : Nat) : Prop where
  octet : 0x80 ≤ b ∧ b < 256
  start?_eq : PartialChar.start? b = some p
  owed_eq : p.owed = owed
  bits_eq : p.bits = bits
  least_le : p.least ≤ x + 0x80
  le_greatest : x + 0x80 ≤ p.greatest

theorem exists_opened_two (hx : x < 64) (hl : 2 ≤ n) (hg : n < 32) : ∃ p, PartialChar.Opened p (n + 0xC0) 1 n x := by
  have hstart : PartialChar.start? (n + 0xC0) = some ⟨1, 0x80, 0xBF, n⟩ := by
    unfold PartialChar.start?
    rw [if_pos (by simp; omega), Nat.add_sub_cancel]
  exact ⟨_, by omega, hstart, rfl, rfl, by simp, by simp; omega⟩

/-- The bounds on the second of three octets leave out overlong forms and surrogates. -/
theorem exists_opened_three (hx : x < 64) (hg : n < 16) (hl : n = 0 → 32 ≤ x) (hs : n = 13 → x < 32) :
    ∃ p, PartialChar.Opened p (n + 0xE0) 2 n x := by
  have hstart : PartialChar.start? (n + 0xE0) =
      some ⟨2, if n = 0 then 0xA0 else 0x80, if n = 13 then 0x9F else 0xBF, n⟩ := by
    interval_cases n <;> rfl
  refine ⟨_, by omega, hstart, rfl, rfl, ?_, ?_⟩
  · dsimp only
    split <;> omega
  · dsimp only
    split <;> omega

/-- The bounds on the second of four octets leave out overlong forms and values past the last code point. -/
theorem exists_opened_four (hx : x < 64) (hg : n < 5) (hl : n = 0 → 16 ≤ x) (hs : n = 4 → x < 16) :
    ∃ p, PartialChar.Opened p (n + 0xF0) 3 n x := by
  have hstart : PartialChar.start? (n + 0xF0) =
      some ⟨3, if n = 0 then 0x90 else 0x80, if n = 4 then 0x8F else 0xBF, n⟩ := by
    interval_cases n <;> rfl
  refine ⟨_, by omega, hstart, rfl, rfl, ?_, ?_⟩
  · dsimp only
    split <;> omega
  · dsimp only
    split <;> omega

/-! ### Characters -/

section Opened

variable {b m y z : Nat}

theorem PartialChar.Opened.two (h : p.Opened b 1 m x) (hx : x < 64) :
    decodeFrom none (.ofNat b :: .ofNat (x + 0x80) :: rest) =
      some (Char.ofNat (m * 64 + x)) :: decodeFrom none rest := by
  rw [decodeFrom_start h.octet.1 h.octet.2 h.start?_eq, decodeFrom_last hx h.least_le h.le_greatest h.owed_eq,
    h.bits_eq]

theorem decodeFrom_tail (hy : y < 64) :
    decodeFrom (some ⟨1, 0x80, 0xBF, m⟩) (.ofNat (y + 0x80) :: rest) =
      some (Char.ofNat (m * 64 + y)) :: decodeFrom none rest :=
  decodeFrom_last hy (by simp) (by simp; omega) rfl

theorem PartialChar.Opened.three (h : p.Opened b 2 m x) (hx : x < 64) (hy : y < 64) :
    decodeFrom none (.ofNat b :: .ofNat (x + 0x80) :: .ofNat (y + 0x80) :: rest) =
      some (Char.ofNat ((m * 64 + x) * 64 + y)) :: decodeFrom none rest := by
  have ho : 1 < p.owed := by rw [h.owed_eq]; decide
  rw [decodeFrom_start h.octet.1 h.octet.2 h.start?_eq, decodeFrom_next hx h.least_le h.le_greatest ho, h.owed_eq,
    h.bits_eq, decodeFrom_tail hy]

theorem PartialChar.Opened.four (h : p.Opened b 3 m x) (hx : x < 64) (hy : y < 64) (hz : z < 64) :
    decodeFrom none (.ofNat b :: .ofNat (x + 0x80) :: .ofNat (y + 0x80) :: .ofNat (z + 0x80) :: rest) =
      some (Char.ofNat (((m * 64 + x) * 64 + y) * 64 + z)) :: decodeFrom none rest := by
  have ho : 1 < p.owed := by rw [h.owed_eq]; decide
  rw [decodeFrom_start h.octet.1 h.octet.2 h.start?_eq, decodeFrom_next hx h.least_le h.le_greatest ho, h.owed_eq,
    h.bits_eq, decodeFrom_next hy (by simp) (by simp; omega) (by simp)]
  exact decodeFrom_tail hz

end Opened

/-- The octets of a character are read as the character. -/
theorem decodeFrom_utf8EncodeChar (c : Char) (rest : List UInt8) :
    decodeFrom none (String.utf8EncodeChar c ++ rest) = some c :: decodeFrom none rest := by
  obtain ⟨v, hv⟩ : ∃ v, v = c.val.toNat := ⟨_, rfl⟩
  have hvalid : v < 0xD800 ∨ 0xDFFF < v ∧ v < 0x110000 := hv ▸ c.valid
  have hc : Char.ofNat v = c := hv ▸ Char.ofNat_toNat c
  unfold String.utf8EncodeChar
  rw [← hv]
  dsimp only
  -- one case for each number of octets
  split
  · rw [List.singleton_append, decodeFrom_ascii (by omega), hc]
  split
  · obtain ⟨p, hp⟩ := exists_opened_two (n := v / 64 % 32) (x := v % 64) (by omega) (by omega) (by omega)
    have hbits : v / 64 % 32 * 64 + v % 64 = v := by omega
    refine (hp.two (by omega)).trans ?_
    rw [hbits, hc]
    rfl
  split
  · obtain ⟨p, hp⟩ :=
      exists_opened_three (n := v / 4096 % 16) (x := v / 64 % 64) (by omega) (by omega) (by omega) (by omega)
    have hbits : (v / 4096 % 16 * 64 + v / 64 % 64) * 64 + v % 64 = v := by omega
    refine (hp.three (by omega) (by omega)).trans ?_
    rw [hbits, hc]
    rfl
  · obtain ⟨p, hp⟩ :=
      exists_opened_four (n := v / 262144 % 8) (x := v / 4096 % 64) (by omega) (by omega) (by omega) (by omega)
    have hbits : ((v / 262144 % 8 * 64 + v / 4096 % 64) * 64 + v / 64 % 64) * 64 + v % 64 = v := by omega
    refine (hp.four (by omega) (by omega) (by omega)).trans ?_
    rw [hbits, hc]
    rfl

/-! ### Texts -/

theorem encode_eq_flatMap (s : String) : encode s = s.toList.flatMap String.utf8EncodeChar := by
  rw [encode_eq_data, ← String.utf8Encode_toList, List.utf8Encode, List.data_toByteArray]

theorem decode_encode (s : String) : decode (encode s) = s.toList.map some := by
  rw [encode_eq_flatMap, decode]
  induction s.toList with
  | nil => rfl
  | cons c cs ih => rw [List.flatMap_cons, decodeFrom_utf8EncodeChar, ih, List.map_cons]

theorem decode?_encode (s : String) : decode? (encode s) = some s.toList := by
  rw [decode?, decode_encode]
  induction s.toList with
  | nil => rfl
  | cons c cs ih =>
    rw [List.map_cons, List.mapM_cons, ih]
    rfl

/-- **The octets of a text are read as the text.** -/
theorem decodeLossy_encode (s : String) : decodeLossy (encode s) = s.toList := by
  rw [decodeLossy, decode_encode, List.map_map]
  exact List.map_id s.toList

end ShapeBindings.Text
