/-
# Little endian words

Machine words laid out as bytes, the low byte first, and read back one after the
other from the front of a buffer.
-/

import Mathlib.Algebra.Group.Nat.Defs
import Mathlib.Data.List.Basic

namespace Library

/-- The low `w` bytes of a number, the lowest first. -/
def leBytes : Nat → Nat → List UInt8
  | 0, _ => []
  | w + 1, n => UInt8.ofNat n :: leBytes w (n / 256)

/-- The number whose bytes are given, the lowest first. -/
def leNat : List UInt8 → Nat
  | [] => 0
  | b :: rest => b.toNat + 256 * leNat rest

@[simp]
theorem length_leBytes (w n : Nat) : (leBytes w n).length = w := by
  induction w generalizing n with
  | zero => rfl
  | succ w ih => simp [leBytes, ih]

theorem leNat_leBytes (w n : Nat) : leNat (leBytes w n) = n % 256 ^ w := by
  induction w generalizing n with
  | zero => simp [leBytes, leNat, Nat.mod_one]
  | succ w ih =>
      have hlow : (UInt8.ofNat n).toNat = n % 256 := by simp
      rw [leBytes, leNat, ih, hlow, Nat.pow_succ, Nat.mul_comm (256 ^ w) 256, Nat.mod_mul]

theorem leNat_lt (bytes : List UInt8) : leNat bytes < 256 ^ bytes.length := by
  induction bytes with
  | nil => exact Nat.one_pos
  | cons b rest ih =>
      have hb := b.toNat_lt
      rw [leNat, List.length_cons, Nat.pow_succ]
      omega

theorem leBytes_leNat (bytes : List UInt8) : leBytes bytes.length (leNat bytes) = bytes := by
  induction bytes with
  | nil => rfl
  | cons b rest ih =>
      have hb := b.toNat_lt
      have hlow : UInt8.ofNat (b.toNat + 256 * leNat rest) = b := by
        apply UInt8.toNat_inj.mp
        rw [UInt8.toNat_ofNat']
        omega
      have hhigh : (b.toNat + 256 * leNat rest) / 256 = leNat rest := by omega
      rw [List.length_cons, leNat, leBytes, hlow, hhigh, ih]

/-- The word at the front of a buffer, and what follows it. -/
def takeWord (w : Nat) (buffer : List UInt8) : Nat × List UInt8 :=
  (leNat (buffer.take w), buffer.drop w)

theorem takeWord_append {w n : Nat} (hn : n < 256 ^ w) (rest : List UInt8) :
    takeWord w (leBytes w n ++ rest) = (n, rest) := by
  have htake : (leBytes w n ++ rest).take w = leBytes w n := by
    simp
  have hdrop : (leBytes w n ++ rest).drop w = rest := by
    simp
  rw [takeWord, htake, hdrop, leNat_leBytes, Nat.mod_eq_of_lt hn]

/-- A machine word is read back as it was written. -/
theorem takeWord_bits {w v : Nat} (x : BitVec v) (hv : 2 ^ v ≤ 256 ^ w) (rest : List UInt8) :
    takeWord w (leBytes w x.toNat ++ rest) = (x.toNat, rest) :=
  takeWord_append (Nat.lt_of_lt_of_le x.isLt hv) rest

/-- A machine word that was read stands in the buffer byte by byte. -/
theorem leBytes_takeWord {w v : Nat} (hv : 2 ^ v = 256 ^ w) {buffer : List UInt8}
    (hw : w ≤ buffer.length) :
    leBytes w (BitVec.ofNat v (takeWord w buffer).1).toNat ++ (takeWord w buffer).2 = buffer := by
  have hlength : (buffer.take w).length = w := List.length_take_of_le hw
  have hbound := leNat_lt (buffer.take w)
  have hbytes := leBytes_leNat (buffer.take w)
  rw [hlength] at hbytes
  rw [hlength, ← hv] at hbound
  rw [takeWord, BitVec.toNat_ofNat, Nat.mod_eq_of_lt hbound, hbytes, List.take_append_drop]

end Library
