import Bulletin.Options
import Bulletin.Proofs.Json.Scalar
import Mathlib.Tactic.SplitIfs

/-! # The characters of written numbers

A number is written with digits, a point, signs and letters, whatever it is (`numeric_toText`). So
the size of headings, which the check of the options holds between two numbers, is written without
white space and brackets (`numeric_headingSize`). -/

namespace Bulletin.Proofs.Number.Written

open Bulletin.Number (Binary64)

/-- A letter, a digit, a point or a sign. -/
def numeric (c : Char) : Bool := c.isAlphanum || c == '.' || c == '-' || c == '+'

/-- A text of such characters. -/
def Numeric (s : List Char) : Prop := ∀ c ∈ s, numeric c = true

theorem Numeric.append {s t : List Char} (hs : Numeric s) (ht : Numeric t) : Numeric (s ++ t) :=
  List.forall_mem_append.2 ⟨hs, ht⟩

theorem Numeric.cons {c : Char} {s : List Char} (hc : numeric c = true) (hs : Numeric s) :
    Numeric (c :: s) :=
  List.forall_mem_cons.2 ⟨hc, hs⟩

theorem Numeric.sublist {s t : List Char} (ht : Numeric t) (h : s.Sublist t) : Numeric s :=
  fun c hc => ht c (h.subset hc)

theorem numeric_of_all {s : List Char} (h : s.all numeric = true) : Numeric s := List.all_eq_true.1 h

theorem numeric_nil : Numeric [] := fun _ hc => by cases hc

theorem numeric_toDigits (n : Nat) : Numeric (Nat.toDigits 10 n) := by
  intro c hc
  have hd : c.isDigit := Nat.isDigit_of_mem_toDigits (by decide) (by decide) hc
  simp [numeric, Char.isAlphanum, hd]

theorem numeric_zeros (n : Nat) : Numeric (List.replicate n '0') := by
  intro c hc
  rw [List.eq_of_mem_replicate hc]
  decide

theorem numeric_decimalText (digits : Nat) (k : Int) :
    Numeric (Binary64.decimalText digits k).toList := by
  unfold Binary64.decimalText
  generalize Binary64.dropZeros digits k 20 = p
  obtain ⟨m, k⟩ := p
  have hm := numeric_toDigits m
  have htake : ∀ n, Numeric ((Nat.toDigits 10 m).take n) := fun n => hm.sublist (List.take_sublist n _)
  have hdrop : ∀ n, Numeric ((Nat.toDigits 10 m).drop n) := fun n => hm.sublist (List.drop_sublist n _)
  have hpoint : numeric '.' = true := by decide
  have hzero : numeric '0' = true := by decide
  dsimp only
  split
  · split
    · -- a whole number
      rw [String.toList_ofList]
      exact (hm.append (numeric_zeros _)).append (.cons hpoint (.cons hzero numeric_nil))
    · split
      · -- digits to both sides of the point
        rw [String.toList_ofList]
        exact (htake _).append (.cons hpoint (hdrop _))
      · -- a fraction below one
        rw [String.toList_ofList]
        exact .cons hzero (.cons hpoint ((numeric_zeros _).append hm))
  · -- one digit before the point, and an exponent
    rw [String.toList_ofList]
    refine ((htake 1).append ?_).append (.cons (by decide) (.cons ?_ ?_))
    · split_ifs
      · exact .cons hpoint (hdrop 1)
      · exact numeric_nil
    · split_ifs <;> decide
    · split_ifs
      · exact .cons hzero (numeric_toDigits _)
      · exact numeric_toDigits _

theorem numeric_sign {p : Prop} [Decidable p] : Numeric (if p then "-" else "").toList := by
  split_ifs
  · exact numeric_of_all (by decide)
  · exact numeric_nil

/-- **Every number is written so.** -/
theorem numeric_toText (x : Binary64) : Numeric (x.toText "inf" "nan").toList := by
  cases x with
  | nan => exact numeric_of_all (by decide)
  | infinite negative =>
    rw [Binary64.toText, String.toList_append]
    exact numeric_sign.append (numeric_of_all (by decide))
  | finite negative m e =>
    rw [Binary64.toText, String.toList_append]
    refine numeric_sign.append ?_
    generalize Binary64.shortest m e = p
    obtain ⟨digits, k⟩ := p
    split_ifs
    · exact numeric_of_all (by decide)
    · exact numeric_decimalText digits k

/-- **The size of headings is written so**, if the options pass their check. -/
theorem numeric_headingSize {o : PageOptions} (h : o.check = .ok ()) :
    Numeric o.headingSize.display.toList := by
  obtain ⟨b, hb⟩ : ∃ b, Mdast.between 1 7 o.headingSize = .ok b := by
    cases hb : Mdast.between 1 7 o.headingSize with
    | ok b => exact ⟨b, rfl⟩
    | error t =>
      rw [PageOptions.check, hb] at h
      cases h
  cases hv : o.headingSize with
  | bool b => cases b <;> exact numeric_of_all (by decide)
  | int n =>
    show Numeric (toString n).toList
    rw [Json.Scalar.toList_toString]
    refine Numeric.append ?_ (numeric_toDigits _)
    split_ifs
    · exact numeric_nil
    · exact numeric_of_all (by decide)
  | float x => exact numeric_toText x
  | _ => rw [hv] at hb; cases hb

end Bulletin.Proofs.Number.Written
