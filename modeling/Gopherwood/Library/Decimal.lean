/-
# Decimal numerals side by side

Two numerals written without a separator are the numeral of one number. What the first
number was is lost, unless it was zero: no numeral but that of zero begins with a zero.
-/

import Mathlib.Algebra.Group.Nat.Defs
import Mathlib.Data.List.Basic

namespace Library

/-- The number whose numeral is that of `n` followed by that of `m`. -/
def joined (n m : Nat) : Nat := 10 ^ (Nat.toDigits 10 m).length * n + m

theorem ofDigitChars_append_toDigits (n m : Nat) :
    Nat.ofDigitChars 10 (Nat.toDigits 10 n ++ Nat.toDigits 10 m) 0 = joined n m := by
  rw [Nat.ofDigitChars_append, Nat.ofDigitChars_ten_toDigits,
    Nat.ofDigitChars_eq_ofDigitChars_zero, Nat.ofDigitChars_ten_toDigits]
  rfl

theorem toDigits_injective {n m : Nat} (h : Nat.toDigits 10 n = Nat.toDigits 10 m) : n = m := by
  have hvalue := congrArg (fun digits => Nat.ofDigitChars 10 digits 0) h
  simpa only [Nat.ofDigitChars_ten_toDigits] using hvalue

/-- The numeral of a positive number and any other numeral are one numeral. -/
theorem toDigits_append {n : Nat} (hn : 0 < n) (m : Nat) :
    Nat.toDigits 10 n ++ Nat.toDigits 10 m = Nat.toDigits 10 (joined n m) := by
  unfold joined
  -- along the digits of the second number, the last one first
  induction m using Nat.base_induction 10 (by decide) with
  | single m hm =>
      rw [Nat.toDigits_append_toDigits (by decide) hn hm, Nat.toDigits_of_lt_base hm]
      simp
  | digit m k hk hm ih =>
      have hlength : (Nat.toDigits 10 (10 * m + k)).length = (Nat.toDigits 10 m).length + 1 := by
        rw [← Nat.toDigits_append_toDigits (by decide) hm hk, Nat.toDigits_of_lt_base hk]
        simp
      have hpos : 0 < 10 ^ (Nat.toDigits 10 m).length * n + m := by omega
      rw [hlength, ← Nat.toDigits_append_toDigits (by decide) hm hk, ← List.append_assoc, ih,
        Nat.toDigits_append_toDigits (by decide) hpos hk]
      congr 1
      rw [Nat.pow_succ, Nat.mul_comm _ 10, Nat.mul_assoc, Nat.mul_add, Nat.add_assoc]

/-- A numeral that begins with a zero is not that of a positive number. -/
theorem toDigits_zero_append_ne {n : Nat} (hn : 0 < n) (m k : Nat) :
    Nat.toDigits 10 0 ++ Nat.toDigits 10 k ≠ Nat.toDigits 10 n ++ Nat.toDigits 10 m := by
  intro heq
  have hvalue : k = joined n m := by
    have h := congrArg (fun digits => Nat.ofDigitChars 10 digits 0) heq
    simp only [ofDigitChars_append_toDigits] at h
    rw [← h, joined, Nat.mul_zero, Nat.zero_add]
  have hlength := congrArg List.length heq
  rw [toDigits_append hn, ← hvalue, List.length_append, Nat.toDigits_zero, List.length_singleton]
    at hlength
  omega

/-- Two pairs of numbers are written in the same way exactly when they are equal, or when
both first numbers are positive and the joined numbers are equal. -/
theorem toDigits_append_eq_iff (n m n' m' : Nat) :
    Nat.toDigits 10 n ++ Nat.toDigits 10 m = Nat.toDigits 10 n' ++ Nat.toDigits 10 m' ↔
      (n = n' ∧ m = m') ∨ (n ≠ 0 ∧ n' ≠ 0 ∧ joined n m = joined n' m') := by
  constructor
  · intro heq
    rcases Nat.eq_zero_or_pos n with rfl | hn
    · rcases Nat.eq_zero_or_pos n' with rfl | hn'
      · exact Or.inl ⟨rfl, toDigits_injective (List.append_cancel_left heq)⟩
      · exact absurd heq (toDigits_zero_append_ne hn' m' m)
    · rcases Nat.eq_zero_or_pos n' with rfl | hn'
      · exact absurd heq.symm (toDigits_zero_append_ne hn m m')
      · have hvalue := congrArg (fun digits => Nat.ofDigitChars 10 digits 0) heq
        simp only [ofDigitChars_append_toDigits] at hvalue
        exact Or.inr ⟨Nat.ne_of_gt hn, Nat.ne_of_gt hn', hvalue⟩
  · rintro (⟨rfl, rfl⟩ | ⟨hn, hn', hvalue⟩)
    · rfl
    · rw [toDigits_append (Nat.pos_of_ne_zero hn), toDigits_append (Nat.pos_of_ne_zero hn'), hvalue]

/-- A character that is no digit is in no numeral. -/
theorem notMem_toDigits {c : Char} (hc : c.isDigit = false) (n : Nat) :
    c ∉ Nat.toDigits 10 n := by
  intro hmem
  rw [Nat.isDigit_of_mem_toDigits (by decide) (by decide) hmem] at hc
  cases hc

end Library
