import Bulletin.Text.Utf8
import Mathlib.Tactic.SplitIfs

/-! # Texts and their bytes

The bytes of a text are read as that text again (`decodeAll_encode`), so two texts with the same
bytes are the same (`encode_injective`). A character is read by the number of bytes that its first
byte announces. -/

namespace Bulletin.Text

theorem toNat_toUInt8 {n : Nat} (h : n < 256) : n.toUInt8.toNat = n := by
  simp [Nat.mod_eq_of_lt h]

/-! ### First bytes -/

section Lead
variable {n : Nat}

theorem leadByte_one (h : n < 0x80) : leadByte n = some (0, 0x80, 0xBF, n) := by
  rw [leadByte, if_pos h]

theorem leadByte_two (h : 0x80 ≤ n) (h' : n < 0x800) :
    leadByte (0xC0 + n / 0x40) = some (1, 0x80, 0xBF, n / 0x40) := by
  rw [leadByte, if_neg (by omega), if_neg (by omega), if_pos (by omega), Nat.add_sub_cancel_left]

/-- The first of three bytes, with bounds that the second one keeps. -/
theorem leadByte_three (h : 0x800 ≤ n) (h' : n < 0x10000) (hs : n < 0xD800 ∨ 0xDFFF < n) :
    ∃ lo hi, leadByte (0xE0 + n / 0x1000) = some (2, lo, hi, n / 0x1000) ∧
      lo ≤ 0x80 + n / 0x40 % 0x40 ∧ 0x80 + n / 0x40 % 0x40 ≤ hi := by
  unfold leadByte
  simp only [beq_iff_eq]
  rw [if_neg (by omega), if_neg (by omega), if_neg (by omega)]
  split_ifs
  · exact ⟨_, _, by rw [show n / 0x1000 = 0 by omega], by omega, by omega⟩
  · exact ⟨_, _, by rw [show n / 0x1000 = 13 by omega], by omega, by omega⟩
  · exact ⟨_, _, by rw [Nat.add_sub_cancel_left], by omega, by omega⟩
  all_goals omega

theorem leadByte_four (h : 0x10000 ≤ n) (h' : n < 0x110000) :
    ∃ lo hi, leadByte (0xF0 + n / 0x40000) = some (3, lo, hi, n / 0x40000) ∧
      lo ≤ 0x80 + n / 0x1000 % 0x40 ∧ 0x80 + n / 0x1000 % 0x40 ≤ hi := by
  unfold leadByte
  simp only [beq_iff_eq]
  rw [if_neg (by omega), if_neg (by omega), if_neg (by omega), if_neg (by omega), if_neg (by omega),
    if_neg (by omega)]
  split_ifs
  · exact ⟨_, _, by rw [show n / 0x40000 = 0 by omega], by omega, by omega⟩
  · exact ⟨_, _, by rw [show n / 0x40000 = 4 by omega], by omega, by omega⟩
  · exact ⟨_, _, by rw [Nat.add_sub_cancel_left], by omega, by omega⟩
  all_goals omega

end Lead

/-! ### Characters and texts -/

section Decode
variable {r : List UInt8} {b : UInt8}

theorem decodeFrom_lead {k lo hi n : Nat} (h : leadByte b.toNat = some (k + 1, lo, hi, n)) :
    decodeFrom 0 0 0 0 0 (b :: r) = decodeFrom 1 (k + 1) lo hi n r := by
  rw [decodeFrom, if_pos rfl, h]

theorem decodeFrom_last {begun lo hi acc : Nat} (h : lo ≤ b.toNat) (h' : b.toNat ≤ hi) :
    decodeFrom begun 1 lo hi acc (b :: r) =
      (decodeFrom 0 0 0 0 0 r).map (Char.ofNat (acc * 0x40 + b.toNat % 0x40) :: ·) := by
  rw [decodeFrom, if_neg (by omega), if_pos (by simp [h, h']), if_pos rfl]

theorem decodeFrom_next {begun k lo hi acc : Nat} (h : lo ≤ b.toNat) (h' : b.toNat ≤ hi) :
    decodeFrom begun (k + 2) lo hi acc (b :: r) =
      decodeFrom (begun + 1) (k + 1) 0x80 0xBF (acc * 0x40 + b.toNat % 0x40) r := by
  rw [decodeFrom, if_neg (by omega), if_pos (by simp [h, h']), if_neg (by omega)]
  rfl

theorem decodeFrom_encodeChar (c : Char) (r : List UInt8) :
    decodeFrom 0 0 0 0 0 (encodeChar c ++ r) = (decodeFrom 0 0 0 0 0 r).map (c :: ·) := by
  have hvalid : c.toNat < 0xD800 ∨ 0xDFFF < c.toNat ∧ c.toNat < 0x110000 := c.valid
  have hc : Char.ofNat c.toNat = c := Char.ofNat_toNat c
  unfold encodeChar
  generalize c.toNat = n at hvalid hc
  subst hc
  dsimp only
  have htail : ∀ m, (0x80 + m % 0x40).toUInt8.toNat = 0x80 + m % 0x40 := fun m =>
    toNat_toUInt8 (by omega)
  have hbits : ∀ m, (0x80 + m % 0x40) % 0x40 = m % 0x40 := fun m => by omega
  split_ifs with h1 h2 h3
  · rw [List.singleton_append, decodeFrom, if_pos rfl, toNat_toUInt8 (by omega), leadByte_one h1]
  · have hb : (0xC0 + n / 0x40).toUInt8.toNat = 0xC0 + n / 0x40 := toNat_toUInt8 (by omega)
    rw [List.cons_append, List.singleton_append,
      decodeFrom_lead (by rw [hb]; exact leadByte_two (by omega) h2),
      decodeFrom_last (by rw [htail]; omega) (by rw [htail]; omega), htail, hbits,
      show n / 0x40 * 0x40 + n % 0x40 = n by omega]
  · have hb : (0xE0 + n / 0x1000).toUInt8.toNat = 0xE0 + n / 0x1000 := toNat_toUInt8 (by omega)
    obtain ⟨lo, hi, hlead, hlo, hhi⟩ := leadByte_three (n := n) (by omega) h3 (by omega)
    rw [List.cons_append, List.cons_append, List.singleton_append,
      decodeFrom_lead (by rw [hb]; exact hlead),
      decodeFrom_next (by rw [htail]; exact hlo) (by rw [htail]; exact hhi),
      decodeFrom_last (by rw [htail]; omega) (by rw [htail]; omega), htail, htail, hbits, hbits,
      show (n / 0x1000 * 0x40 + n / 0x40 % 0x40) * 0x40 + n % 0x40 = n by omega]
  · have hb : (0xF0 + n / 0x40000).toUInt8.toNat = 0xF0 + n / 0x40000 := toNat_toUInt8 (by omega)
    obtain ⟨lo, hi, hlead, hlo, hhi⟩ := leadByte_four (n := n) (by omega) (by omega)
    rw [List.cons_append, List.cons_append, List.cons_append, List.singleton_append,
      decodeFrom_lead (by rw [hb]; exact hlead),
      decodeFrom_next (by rw [htail]; exact hlo) (by rw [htail]; exact hhi),
      decodeFrom_next (by rw [htail]; omega) (by rw [htail]; omega),
      decodeFrom_last (by rw [htail]; omega) (by rw [htail]; omega), htail, htail, htail, hbits,
      hbits, hbits,
      show ((n / 0x40000 * 0x40 + n / 0x1000 % 0x40) * 0x40 + n / 0x40 % 0x40) * 0x40 + n % 0x40 = n
        by omega]

/-- **The bytes of a text are read as that text.** -/
theorem decodeAll_encode : ∀ s : List Char, decodeAll (encode s) = .ok s
  | [] => rfl
  | c :: s => by
    have ih := decodeAll_encode s
    rw [decodeAll] at ih ⊢
    rw [encode, List.flatMap_cons, decodeFrom_encodeChar, ← encode, ih]
    rfl

theorem decode_encode (s : List Char) : decode (encode s) = .ok (dropMark s) := by
  rw [decode, decodeAll_encode]
  rfl

theorem encode_injective {s t : List Char} (h : encode s = encode t) : s = t := by
  have hs := decodeAll_encode s
  rw [h, decodeAll_encode] at hs
  exact (Except.ok.inj hs).symm

end Decode

end Bulletin.Text
