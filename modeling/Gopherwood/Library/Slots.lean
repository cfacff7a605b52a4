/-
# Fixed tables of optional entries

A table with a fixed number of places, each free or holding an entry. The first
free place is filled and the first place holding a matching entry is cleared,
which is all that a bounded array of marks supports.
-/

import Mathlib.Data.List.Basic

namespace Library

variable {α : Type}

/-- Put `x` into the first free place; `none` when the table is full. -/
def fillFirst (x : α) : List (Option α) → Option (List (Option α))
  | [] => none
  | none :: rest => some (some x :: rest)
  | some y :: rest => (fillFirst x rest).map (some y :: ·)

/-- Clear the first place whose entry satisfies `p`; `none` when there is none. -/
def clearFirst (p : α → Bool) : List (Option α) → Option (List (Option α))
  | [] => none
  | none :: rest => (clearFirst p rest).map (none :: ·)
  | some y :: rest =>
      if p y then some (none :: rest) else (clearFirst p rest).map (some y :: ·)

/-- Some place holds an entry satisfying `p`. -/
def holds (p : α → Bool) (table : List (Option α)) : Bool :=
  table.any fun entry => entry.any p

/-- No place holds an entry. -/
def vacant (table : List (Option α)) : Bool := table.all Option.isNone

/-- The entries of a table, in order. -/
def entries (table : List (Option α)) : List α := table.filterMap id

/-- Clearing a place only removes an entry that satisfies the test. -/
theorem mem_entries_clearFirst {p : α → Bool} {table cleared : List (Option α)}
    (h : clearFirst p table = some cleared) {y : α} (hy : p y = false) :
    y ∈ entries cleared ↔ y ∈ entries table := by
  induction table generalizing cleared with
  | nil => simp [clearFirst] at h
  | cons entry rest ih =>
      cases entry with
      | none =>
          simp only [clearFirst, Option.map_eq_some_iff] at h
          obtain ⟨tail, htail, rfl⟩ := h
          simpa [entries] using ih htail
      | some z =>
          simp only [clearFirst] at h
          by_cases hz : p z = true
          · rw [if_pos hz, Option.some.injEq] at h
            subst h
            have hne : y ≠ z := by
              rintro rfl
              rw [hz] at hy
              cases hy
            simp [entries, hne]
          · rw [if_neg hz, Option.map_eq_some_iff] at h
            obtain ⟨tail, htail, rfl⟩ := h
            have := ih htail
            simp only [entries, List.filterMap_cons, id, List.mem_cons] at this ⊢
            rw [this]

theorem holds_iff {p : α → Bool} {table : List (Option α)} :
    holds p table = true ↔ ∃ y ∈ entries table, p y = true := by
  simp only [holds, List.any_eq_true, Option.any_eq_true, entries, List.mem_filterMap, id]
  constructor
  · rintro ⟨entry, hmem, y, rfl, hy⟩
    exact ⟨y, ⟨_, hmem, rfl⟩, hy⟩
  · rintro ⟨y, ⟨entry, hmem, rfl⟩, hy⟩
    exact ⟨_, hmem, y, rfl, hy⟩

theorem vacant_iff {table : List (Option α)} : vacant table = true ↔ entries table = [] := by
  simp [vacant, entries, List.filterMap_eq_nil_iff, List.all_eq_true]

theorem length_fillFirst {x : α} {table filled : List (Option α)}
    (h : fillFirst x table = some filled) : filled.length = table.length := by
  induction table generalizing filled with
  | nil => simp [fillFirst] at h
  | cons entry rest ih =>
      cases entry with
      | none =>
          simp only [fillFirst, Option.some.injEq] at h
          subst h
          rfl
      | some z =>
          simp only [fillFirst, Option.map_eq_some_iff] at h
          obtain ⟨tail, htail, rfl⟩ := h
          simp [ih htail]

theorem length_clearFirst {p : α → Bool} {table cleared : List (Option α)}
    (h : clearFirst p table = some cleared) : cleared.length = table.length := by
  induction table generalizing cleared with
  | nil => simp [clearFirst] at h
  | cons entry rest ih =>
      cases entry with
      | none =>
          simp only [clearFirst, Option.map_eq_some_iff] at h
          obtain ⟨tail, htail, rfl⟩ := h
          simp [ih htail]
      | some z =>
          simp only [clearFirst] at h
          split at h
          · cases h
            rfl
          · obtain ⟨tail, htail, rfl⟩ := Option.map_eq_some_iff.mp h
            simp [ih htail]

/-- A vacant table with a place can be filled. -/
theorem fillFirst_of_vacant {table : List (Option α)} (h : vacant table = true)
    (hpos : 0 < table.length) (x : α) : ∃ filled, fillFirst x table = some filled := by
  cases table with
  | nil => simp at hpos
  | cons entry rest =>
      cases entry with
      | none => exact ⟨some x :: rest, rfl⟩
      | some z => simp [vacant] at h

/-- Filling a place adds the entry. -/
theorem entries_fillFirst_perm {x : α} {table filled : List (Option α)}
    (h : fillFirst x table = some filled) : (entries filled).Perm (x :: entries table) := by
  induction table generalizing filled with
  | nil => simp [fillFirst] at h
  | cons entry rest ih =>
      cases entry with
      | none =>
          simp only [fillFirst, Option.some.injEq] at h
          subst h
          exact List.Perm.refl _
      | some z =>
          simp only [fillFirst, Option.map_eq_some_iff] at h
          obtain ⟨tail, htail, rfl⟩ := h
          exact ((ih htail).cons z).trans (List.Perm.swap x z _)

/-- Clearing a place removes one entry that satisfies the test. -/
theorem entries_clearFirst_perm {p : α → Bool} {table cleared : List (Option α)}
    (h : clearFirst p table = some cleared) :
    ∃ y, p y = true ∧ (entries table).Perm (y :: entries cleared) := by
  induction table generalizing cleared with
  | nil => simp [clearFirst] at h
  | cons entry rest ih =>
      cases entry with
      | none =>
          simp only [clearFirst, Option.map_eq_some_iff] at h
          obtain ⟨tail, htail, rfl⟩ := h
          obtain ⟨y, hy, hperm⟩ := ih htail
          exact ⟨y, hy, by simpa [entries] using hperm⟩
      | some z =>
          simp only [clearFirst] at h
          by_cases hz : p z = true
          · rw [if_pos hz, Option.some.injEq] at h
            subst h
            exact ⟨z, hz, List.Perm.refl _⟩
          · rw [if_neg hz, Option.map_eq_some_iff] at h
            obtain ⟨tail, htail, rfl⟩ := h
            obtain ⟨y, hy, hperm⟩ := ih htail
            exact ⟨y, hy, (hperm.cons z).trans (List.Perm.swap y z _)⟩

@[simp]
theorem entries_replicate_none (n : Nat) : entries (List.replicate n (none : Option α)) = [] := by
  simp [entries]

end Library
