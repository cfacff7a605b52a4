/-
# A hand on a ring

A hand moves over the positions `0, …, n - 1` one after the other and starts
again from the first. How far a position is ahead of the hand, and how often the
hand passes it, only depend on where the hand stands.
-/

import Mathlib.Data.Prod.Lex
import Mathlib.Logic.Function.Iterate
import Mathlib.Order.Basic

namespace Library.Ring

/-- The position after `hand`. -/
def next (n hand : Nat) : Nat := if hand + 1 ≥ n then 0 else hand + 1

/-- How many moves the hand is away from position `i`. -/
def distance (n hand i : Nat) : Nat := if hand ≤ i then i - hand else i + n - hand

/-- How often position `i` is left behind in the next `t` moves of the hand. -/
def passes (n hand t i : Nat) : Nat := (t + n - 1 - distance n hand i) / n

variable {n hand i t : Nat}

theorem next_lt (hhand : hand < n) : next n hand < n := by
  unfold next
  split
  · omega
  · omega

theorem distance_lt (hhand : hand < n) (hi : i < n) : distance n hand i < n := by
  unfold distance
  split
  · omega
  · omega

@[simp]
theorem distance_self (n hand : Nat) : distance n hand hand = 0 := by
  simp [distance]

theorem distance_pos (hhand : hand < n) (hne : i ≠ hand) : 0 < distance n hand i := by
  unfold distance
  split
  · omega
  · omega

/-- A move of the hand brings every other position nearer. -/
theorem distance_next (hhand : hand < n) (hi : i < n) (hne : i ≠ hand) :
    distance n (next n hand) i + 1 = distance n hand i := by
  unfold distance next
  split
  · split
    · split
      · omega
      · omega
    · omega
  · split
    · split
      · omega
      · omega
    · split
      · omega
      · omega

/-- The position that the hand leaves is the last one it comes to. -/
theorem distance_next_self (hhand : hand < n) : distance n (next n hand) hand = n - 1 := by
  unfold distance next
  split
  · split
    · omega
    · omega
  · split
    · omega
    · omega

@[simp]
theorem passes_zero (hhand : hand < n) (i : Nat) : passes n hand 0 i = 0 := by
  unfold passes
  exact Nat.div_eq_of_lt (by omega)

/-- Other positions are not left behind by the first move. -/
theorem passes_succ (hhand : hand < n) (hi : i < n) (hne : i ≠ hand) :
    passes n hand (t + 1) i = passes n (next n hand) t i := by
  have hnear := distance_next hhand hi hne
  have hfar := distance_lt hhand hi
  unfold passes
  congr 1
  omega

/-- The first move leaves the position of the hand behind. -/
theorem passes_succ_self (hhand : hand < n) :
    passes n hand (t + 1) hand = passes n (next n hand) t hand + 1 := by
  have hpos : 0 < n := Nat.zero_lt_of_lt hhand
  have hmore : t + 1 + n - 1 - 0 = t + n := by omega
  have hless : t + n - 1 - (n - 1) = t := by omega
  rw [passes, passes, distance_self, distance_next_self hhand, hmore, hless,
    Nat.add_div_right t hpos]

/-- Turns come before moves. -/
theorem turns_le_iff {d e u v : Nat} (hd : d < n) (he : e < n) :
    u * n + d ≤ v * n + e ↔ toLex (u, d) ≤ toLex (v, e) := by
  rw [Prod.Lex.toLex_le_toLex]
  constructor
  · intro h
    rcases Nat.lt_trichotomy u v with hlt | heq | hgt
    · exact Or.inl hlt
    · subst heq
      exact Or.inr ⟨rfl, by omega⟩
    · have hmore : (v + 1) * n ≤ u * n := Nat.mul_le_mul_right n hgt
      rw [Nat.succ_mul] at hmore
      omega
  · rintro (hlt | ⟨heq, hle⟩)
    · have hmore : (u + 1) * n ≤ v * n := Nat.mul_le_mul_right n hlt
      rw [Nat.succ_mul] at hmore
      omega
    · dsimp only at heq hle
      subst heq
      omega

theorem next_iterate (hhand : hand < n) (t : Nat) : (next n)^[t] hand = (hand + t) % n := by
  induction t generalizing hand with
  | zero => exact (Nat.mod_eq_of_lt hhand).symm
  | succ t ih =>
      rw [Function.iterate_succ_apply, ih (next_lt hhand)]
      unfold next
      split
      · next hlast =>
          obtain rfl : n = hand + 1 := by omega
          rw [Nat.zero_add, show hand + (t + 1) = t + (hand + 1) by omega, Nat.add_mod_right]
      · rw [show hand + 1 + t = hand + (t + 1) by omega]

/-- A whole turn brings the hand back. -/
theorem next_iterate_turn (hhand : hand < n) : (next n)^[n] hand = hand := by
  rw [next_iterate hhand, Nat.add_mod_right, Nat.mod_eq_of_lt hhand]

end Library.Ring
