import Bulletin.Value.Json
import Mathlib.Data.List.TakeDrop
import Mathlib.Tactic.SplitIfs

/-! # JSON scalars are read as they are written

The text of a string is read back character by character: what `writeChar` writes is one step of
`readChars`. The text of a whole number is a sign and digits, of which the first is no zero unless
it is the only one, and `number?` stops at whatever can follow a value (`Follows`), if the digits are
not too many. -/

namespace Bulletin.Proofs.Json.Scalar

open Bulletin.Json

/-! ### Strings -/

theorem map_hexValue?_hexDigits : ∀ n < 0x20,
    (Text.hexDigits 4 n).map Text.hexValue? = [some 0, some 0, some (n / 16), some (n % 16)] := by
  decide

theorem fourDigits?_hexDigits {n : Nat} (h : n < 0x20) (e : Char) (r : List Char) :
    fourDigits? (Text.hexDigits 4 n ++ e :: r) = some (n, e :: r) := by
  obtain ⟨a, s, hs, ha, h₁⟩ := List.map_eq_cons_iff.1 (map_hexValue?_hexDigits n h)
  obtain ⟨b, s, rfl, hb, h₂⟩ := List.map_eq_cons_iff.1 h₁
  obtain ⟨c, s, rfl, hc, h₃⟩ := List.map_eq_cons_iff.1 h₂
  obtain ⟨d, s, rfl, hd, h₄⟩ := List.map_eq_cons_iff.1 h₃
  obtain rfl := List.map_eq_nil_iff.1 h₄
  have hn : ((0 * 16 + 0) * 16 + n / 16) * 16 + n % 16 = n := by omega
  simp only [hs, List.cons_append, List.nil_append, fourDigits?, ha, hb, hc, hd, hn]

/-- **A written character is one step of reading a string.** -/
theorem readChars_writeChar (start : List Char) (fuel : Nat) (c e : Char) (r : List Char) :
    readChars start (fuel + 1) (writeChar c ++ e :: r) =
      (readChars start fuel (e :: r)).map fun (cs, k) => (c :: cs, k) := by
  unfold writeChar
  split_ifs with h₁ h₂ h₃ h₄ h₅ h₆ h₇ h₈
  case pos => subst h₁; simp [readChars, escaped?]
  case pos => subst h₂; simp [readChars, escaped?]
  case pos => subst h₃; simp [readChars, escaped?]
  case pos => subst h₄; simp [readChars, escaped?]
  case pos => subst h₅; simp [readChars, escaped?]
  case pos => subst h₆; simp [readChars, escaped?]
  case pos => subst h₇; simp [readChars, escaped?]
  case pos =>
    have hs : ¬ (0xD800 ≤ c.toNat ∧ c.toNat ≤ 0xDBFF) := by omega
    have hl : ¬ (0xDC00 ≤ c.toNat ∧ c.toNat ≤ 0xDFFF) := by omega
    simp [readChars, fourDigits?_hexDigits h₈, hs, hl]
  case neg => simp [readChars, h₁, h₂, h₈]

theorem readChars_flatMap (start r : List Char) : ∀ (cs : List Char) (fuel : Nat), cs.length < fuel →
    readChars start fuel (cs.flatMap writeChar ++ '"' :: r) = .ok (cs, r)
  | [], fuel + 1, _ => by simp [readChars]
  | c :: cs, fuel + 1, h => by
    have ih := readChars_flatMap start r cs fuel (Nat.lt_of_succ_lt_succ h)
    obtain ⟨e, k, hk⟩ : ∃ e k, cs.flatMap writeChar ++ '"' :: r = e :: k :=
      List.exists_cons_of_ne_nil (by simp)
    rw [List.flatMap_cons, List.append_assoc, hk, readChars_writeChar, ← hk, ih]
    rfl

theorem length_le_length_flatMap : ∀ cs : List Char, cs.length ≤ (cs.flatMap writeChar).length
  | [] => Nat.le_refl _
  | c :: cs => by
    have hc : 1 ≤ (writeChar c).length := by
      unfold writeChar; split_ifs <;> simp
    have := length_le_length_flatMap cs
    rw [List.flatMap_cons, List.length_append, List.length_cons]
    omega

/-- **A written string is read back.** -/
theorem readString_writeString (s : String) (r : List Char) :
    readString ((writeString s).toList ++ r) = .ok (s, r) := by
  have hs : (writeString s).toList ++ r = '"' :: (s.toList.flatMap writeChar ++ '"' :: r) := by
    simp [writeString]
  have hfuel : s.toList.length < (s.toList.flatMap writeChar ++ '"' :: r).length + 1 := by
    have := length_le_length_flatMap s.toList
    simp only [List.length_append, List.length_cons]
    omega
  rw [hs, readString, readChars_flatMap _ r s.toList _ hfuel]
  simp [Except.map]

/-! ### Whole numbers -/

/-- What can stand after a value in a written text. -/
def Follows : List Char → Prop
  | [] => True
  | c :: _ => c = ',' ∨ c = ']' ∨ c = '}' ∨ c = '\n'

theorem ofDigits_eq_ofDigitChars : ∀ (ds : List Char) (n : Nat), (∀ c ∈ ds, c.isDigit) →
    ds.foldl (fun n c => 10 * n + (Text.hexValue? c).getD 0) n = Nat.ofDigitChars 10 ds n
  | [], _, _ => rfl
  | c :: ds, n, h => by
    have hc : c.isDigit := h c List.mem_cons_self
    have hd : '0' ≤ c ∧ c ≤ '9' := by simpa [Char.isDigit, Char.le_def] using hc
    rw [List.foldl_cons, Nat.ofDigitChars_cons,
      ofDigits_eq_ofDigitChars ds _ fun d hd => h d (List.mem_cons_of_mem _ hd)]
    simp [Text.hexValue?, hd]

theorem ofDigits_toDigits (n : Nat) : Text.ofDigits 10 (Nat.toDigits 10 n) = n := by
  have hd : ∀ c ∈ Nat.toDigits 10 n, c.isDigit := fun c hc =>
    Nat.isDigit_of_mem_toDigits (by decide) (by decide) hc
  exact (ofDigits_eq_ofDigitChars _ 0 hd).trans Nat.ofDigitChars_ten_toDigits

theorem isDigit_of_mem_toDigits {n : Nat} {c : Char} (hc : c ∈ Nat.toDigits 10 n) : c.isDigit :=
  Nat.isDigit_of_mem_toDigits (by decide) (by decide) hc

/-- The first digit of a number is a zero only for zero itself. -/
theorem toDigits_eq_cons (n : Nat) : ∃ c ds, Nat.toDigits 10 n = c :: ds ∧ (c = '0' → n = 0) := by
  induction n using Nat.strongRecOn with
  | ind n ih =>
    have hdigit : ∀ n < 10, n.digitChar = '0' → n = 0 := by decide
    by_cases h : n < 10
    · exact ⟨n.digitChar, [], Nat.toDigits_of_lt_base h, hdigit n h⟩
    · obtain ⟨c, ds, hc, h0⟩ := ih (n / 10) (by omega)
      refine ⟨c, ds ++ [(n % 10).digitChar], ?_, fun h => ?_⟩
      · rw [Nat.toDigits_of_base_le (by decide) (by omega), hc, List.cons_append]
      · have := h0 h
        omega

theorem digits_toDigits (n : Nat) {r : List Char} (hr : Follows r) :
    digits (Nat.toDigits 10 n ++ r) = (Nat.toDigits 10 n, r) := by
  have hd : ∀ c ∈ Nat.toDigits 10 n, c.isDigit := fun _ => isDigit_of_mem_toDigits
  rw [digits, List.span_eq_takeWhile_dropWhile, List.takeWhile_append_of_pos hd,
    List.dropWhile_append_of_pos hd]
  cases r with
  | nil => simp
  | cons c k =>
    have hc : c.isDigit = false := by rcases hr with rfl | rfl | rfl | rfl <;> rfl
    simp [hc]

theorem fraction_of_follows {r : List Char} (hr : Follows r) : fraction r = ([], r) := by
  cases r with
  | nil => rfl
  | cons c k => rcases hr with rfl | rfl | rfl | rfl <;> rfl

theorem exponent?_of_follows {r : List Char} (hr : Follows r) : exponent? r = none := by
  cases r with
  | nil => rfl
  | cons c k => rcases hr with rfl | rfl | rfl | rfl <;> rfl

/-- What digits are read as if they are the digits of a whole number. -/
def readDigits (negative : Bool) (n : Nat) (r : List Char) : Read Value :=
  let count := (Nat.toDigits 10 n).length
  if Value.digitLimit < count then .error ⟨.excess count, Nat.toDigits 10 n ++ r⟩
  else .ok (.int (if negative then -n else n), r)

/-- **The digits of a whole number are read back**, unless they are too many. -/
theorem number?_toDigits (negative : Bool) (n : Nat) {r : List Char} (hr : Follows r) :
    number? negative (Nat.toDigits 10 n ++ r) = some (readDigits negative n r) := by
  obtain ⟨c, ds, hc, h0⟩ := toDigits_eq_cons n
  by_cases hz : c = '0'
  · obtain rfl := h0 hz
    simp [number?, readDigits, wholeDigits?, Nat.toDigits_zero, fraction_of_follows hr,
      exponent?_of_follows hr, Text.ofDigits, Text.hexValue?]
  · have hd := digits_toDigits n hr
    have ho := ofDigits_toDigits n
    unfold readDigits
    rw [hc] at hd ho ⊢
    rw [List.cons_append] at hd ⊢
    simp [number?, wholeDigits?, hz, hd, ho, fraction_of_follows hr, exponent?_of_follows hr]

theorem toList_toString (n : Int) :
    (toString n).toList = (if 0 ≤ n then [] else ['-']) ++ Nat.toDigits 10 n.natAbs := by
  rw [Int.toString_eq_repr, Int.repr_eq_if]
  split_ifs with h
  · have hn : n.toNat = n.natAbs := by omega
    rw [Nat.toList_repr, hn, List.nil_append]
  · have hn : (-n).toNat = n.natAbs := by omega
    rw [String.toList_append, Nat.toList_repr, hn]; rfl

theorem toString_eq_cons (n : Int) :
    ∃ c r, (toString n).toList = c :: r ∧ (c.isDigit ∨ c = '-') := by
  obtain ⟨c, ds, hc, -⟩ := toDigits_eq_cons n.natAbs
  have hd : c.isDigit := isDigit_of_mem_toDigits (hc ▸ List.mem_cons_self)
  rw [toList_toString, hc]
  split_ifs
  · exact ⟨c, ds, rfl, .inl hd⟩
  · exact ⟨'-', c :: ds, rfl, .inr rfl⟩

theorem readScalar_eq (n : Int) {r : List Char} (hr : Follows r) :
    readScalar ((toString n).toList ++ r) = readDigits (decide (n < 0)) n.natAbs r := by
  obtain ⟨c, ds, hc, -⟩ := toDigits_eq_cons n.natAbs
  have hd : c.isDigit := isDigit_of_mem_toDigits (hc ▸ List.mem_cons_self)
  have hne : 'n' ≠ c ∧ 't' ≠ c ∧ 'f' ≠ c ∧ 'N' ≠ c ∧ 'I' ≠ c ∧ '-' ≠ c := by
    refine ⟨?_, ?_, ?_, ?_, ?_, ?_⟩ <;> rintro rfl <;> cases hd
  have hnum := number?_toDigits (decide (n < 0)) n.natAbs hr
  rw [hc, List.cons_append] at hnum
  rw [toList_toString]
  by_cases h : 0 ≤ n
  · rw [decide_eq_false (Int.not_lt.2 h)] at hnum ⊢
    simp [h, hc, readScalar, literals, List.findSome?, Text.after?, hne, hne.2.2.2.2.2.symm, hnum]
  · rw [decide_eq_true (Int.not_le.1 h)] at hnum ⊢
    simp [h, hc, readScalar, literals, Text.after?, hne, hnum]

/-- **A whole number is read back.** -/
theorem readScalar_toString {n : Int} (hn : (Nat.toDigits 10 n.natAbs).length ≤ Value.digitLimit)
    {r : List Char} (hr : Follows r) : readScalar ((toString n).toList ++ r) = .ok (.int n, r) := by
  rw [readScalar_eq n hr, readDigits, if_neg (Nat.not_lt.2 hn)]
  by_cases h : n < 0
  · have hneg : -(n.natAbs : Int) = n := by omega
    rw [decide_eq_true h, if_pos rfl, hneg]
  · have hpos : (n.natAbs : Int) = n := by omega
    rw [decide_eq_false h, if_neg Bool.false_ne_true, hpos]

/-- **A whole number of too many digits is not read.** -/
theorem readScalar_of_excess {n : Int} (hn : Value.digitLimit < (Nat.toDigits 10 n.natAbs).length)
    {r : List Char} (hr : Follows r) : readScalar ((toString n).toList ++ r) =
      .error ⟨.excess (Nat.toDigits 10 n.natAbs).length, Nat.toDigits 10 n.natAbs ++ r⟩ := by
  rw [readScalar_eq n hr, readDigits]
  exact if_pos hn

end Bulletin.Proofs.Json.Scalar
