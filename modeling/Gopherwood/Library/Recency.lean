/-
# Keys in the order of their last use

An observer of a store of keys writes down when a key was last used, and how often it has
left the store since it was last brought in. `Tracks` says that a list holds the keys of
the store, the one used last first, and that the count of a key tells whether it is in.
-/

import Mathlib.Data.List.Nodup
import Mathlib.Logic.Function.Basic

namespace Library

/-- What the observer knows: the present time, when a key was last used, and how often it
left since it was last brought in, `none` for a key that never was. -/
structure Recency (κ : Type) where
  time : Nat
  touched : κ → Nat
  left : κ → Option Nat

namespace Recency

variable {κ : Type} [DecidableEq κ] {h : Recency κ} {keys : List κ} {key : κ}

/-- Nothing has been brought in. -/
def start : Recency κ := ⟨0, fun _ => 0, fun _ => none⟩

/-- A key is used. -/
def touch (h : Recency κ) (key : κ) : Recency κ :=
  ⟨h.time + 1, Function.update h.touched key h.time, h.left⟩

/-- A key is brought in, which is a use. -/
def insert (h : Recency κ) (key : κ) : Recency κ :=
  { h.touch key with left := Function.update h.left key (some 0) }

/-- A key leaves. -/
def leave (h : Recency κ) (key : κ) : Recency κ :=
  { h with left := Function.update h.left key ((h.left key).map (· + 1)) }

theorem left_insert_of_ne {k : κ} (hne : k ≠ key) : (h.insert key).left k = h.left k :=
  Function.update_of_ne hne _ _

theorem left_leave_of_ne {k : κ} (hne : k ≠ key) : (h.leave key).left k = h.left k :=
  Function.update_of_ne hne _ _

/-- The list holds the keys that are in, the latest used one first. -/
structure Tracks (keys : List κ) (h : Recency κ) : Prop where
  ordered : keys.Pairwise fun recent old => h.touched old < h.touched recent
  past : ∀ key ∈ keys, h.touched key < h.time
  present : ∀ key ∈ keys, h.left key = some 0
  absent : ∀ key, key ∉ keys → h.left key = none ∨ h.left key = some 1

namespace Tracks

omit [DecidableEq κ] in
theorem start : Tracks [] (start : Recency κ) where
  ordered := List.Pairwise.nil
  past := by simp
  present := by simp
  absent := by
    intro key _
    exact Or.inl rfl

omit [DecidableEq κ] in
/-- Keys used at different times are different. -/
theorem nodup (ht : Tracks keys h) : keys.Nodup := by
  apply ht.ordered.imp
  rintro recent old hlt rfl
  exact Nat.lt_irrefl _ hlt

/-- A key that is used stands before the others. -/
theorem ordered_front (ht : Tracks keys h) (key : κ) :
    (key :: keys.filter fun k => k ≠ key).Pairwise
      fun recent old => (h.touch key).touched old < (h.touch key).touched recent := by
  have hother : ∀ k ∈ keys.filter fun k => k ≠ key, k ∈ keys ∧ k ≠ key := by
    intro k hk
    obtain ⟨hmem, hne⟩ := List.mem_filter.mp hk
    exact ⟨hmem, of_decide_eq_true hne⟩
  rw [List.pairwise_cons]
  constructor
  · intro k hk
    obtain ⟨hmem, hne⟩ := hother k hk
    simpa [touch, Function.update_of_ne hne] using ht.past k hmem
  · apply (ht.ordered.sublist List.filter_sublist).imp_of_mem
    intro recent old hrecent hold hlt
    simpa [touch, Function.update_of_ne (hother _ hrecent).2,
      Function.update_of_ne (hother _ hold).2] using hlt

theorem past_front (ht : Tracks keys h) (key : κ) :
    ∀ k ∈ key :: keys.filter fun k => k ≠ key, (h.touch key).touched k < (h.touch key).time := by
  intro k hk
  by_cases hkey : k = key
  · subst hkey
    simp [touch]
  · have hmem : k ∈ keys := by
      rcases List.mem_cons.mp hk with heq | hk
      · exact absurd heq hkey
      · exact (List.mem_filter.mp hk).1
    have hpast := ht.past k hmem
    simp only [touch, Function.update_of_ne hkey]
    exact Nat.lt_succ_of_lt hpast

theorem mem_front {k : κ} (hk : k ≠ key) :
    k ∈ key :: keys.filter (fun k => k ≠ key) ↔ k ∈ keys := by
  simp [hk]

/-- A key that is in is used. -/
theorem touch (ht : Tracks keys h) (hkey : key ∈ keys) :
    Tracks (key :: keys.filter fun k => k ≠ key) (h.touch key) where
  ordered := ht.ordered_front key
  past := ht.past_front key
  present := by
    intro k hk
    by_cases hne : k = key
    · exact hne ▸ ht.present key hkey
    · exact ht.present k ((mem_front hne).mp hk)
  absent := by
    intro k hk
    have hne : k ≠ key := by
      rintro rfl
      exact hk List.mem_cons_self
    exact ht.absent k fun hmem => hk ((mem_front hne).mpr hmem)

/-- A key is brought in, again or for the first time. -/
theorem insert (ht : Tracks keys h) (key : κ) :
    Tracks (key :: keys.filter fun k => k ≠ key) (h.insert key) where
  ordered := ht.ordered_front key
  past := ht.past_front key
  present := by
    intro k hk
    by_cases hne : k = key
    · simp [Recency.insert, hne]
    · rw [left_insert_of_ne hne]
      exact ht.present k ((mem_front hne).mp hk)
  absent := by
    intro k hk
    have hne : k ≠ key := by
      rintro rfl
      exact hk List.mem_cons_self
    rw [left_insert_of_ne hne]
    exact ht.absent k fun hmem => hk ((mem_front hne).mpr hmem)

/-- A key that is in leaves, and the others stay where they are. -/
theorem leave {rest : List κ} (ht : Tracks keys h) (hkey : key ∈ keys)
    (hrest : rest.Sublist keys) (hmem : ∀ k, k ∈ rest ↔ k ∈ keys ∧ k ≠ key) :
    Tracks rest (h.leave key) where
  ordered := ht.ordered.sublist hrest
  past := by
    intro k hk
    exact ht.past k (hrest.mem hk)
  present := by
    intro k hk
    obtain ⟨hkeys, hne⟩ := (hmem k).mp hk
    rw [left_leave_of_ne hne]
    exact ht.present k hkeys
  absent := by
    intro k hk
    by_cases hne : k = key
    · right
      simp [Recency.leave, hne, ht.present key hkey]
    · rw [left_leave_of_ne hne]
      exact ht.absent k fun hkeys => hk ((hmem k).mpr ⟨hkeys, hne⟩)

theorem leave_filter (ht : Tracks keys h) (hkey : key ∈ keys) :
    Tracks (keys.filter fun k => k ≠ key) (h.leave key) := by
  apply ht.leave hkey List.filter_sublist
  intro k
  simp [List.mem_filter]

/-- Keys that leave from the end of the list, the last one first. -/
theorem leave_all {removed : List κ} :
    ∀ {h : Recency κ}, Tracks (keys ++ removed.reverse) h →
      Tracks keys (removed.foldl Recency.leave h) := by
  induction removed with
  | nil =>
      intro h ht
      simpa using ht
  | cons key removed ih =>
      intro h ht
      rw [List.reverse_cons, ← List.append_assoc] at ht
      have hnew : key ∉ keys ++ removed.reverse := by
        have hnodup := List.nodup_append.mp ht.nodup
        intro hmem
        exact hnodup.2.2 key hmem key List.mem_cons_self rfl
      apply ih
      apply ht.leave (List.mem_append_right _ List.mem_cons_self) (List.sublist_append_left _ _)
      intro k
      constructor
      · intro hk
        exact ⟨List.mem_append_left _ hk, fun heq => hnew (heq ▸ hk)⟩
      · rintro ⟨hk, hne⟩
        rcases List.mem_append.mp hk with hk | hk
        · exact hk
        · exact absurd (List.mem_singleton.mp hk) hne

end Tracks

end Recency

end Library
