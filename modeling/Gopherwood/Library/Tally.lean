/-
# Tables with classified entries

How many entries of a table belong to a class, and what replacing one entry does
to these numbers.
-/

import Mathlib.Data.List.Nodup
import Mathlib.Data.List.Perm.Basic

namespace Library

variable {α κ : Type} [DecidableEq κ]

/-- The number of entries of class `k`. -/
def tally (key : α → κ) (k : κ) (table : List α) : Nat := table.countP fun x => key x = k

variable {key : α → κ} {table : List α} {i : Nat} {x : α}

/-- An entry of a table with one entry replaced is the new one or an old one. -/
theorem mem_modify {f : α → α} {y : α} (hx : table[i]? = some x) (hy : y ∈ table.modify i f) :
    y = f x ∨ y ∈ table := by
  obtain ⟨j, hj⟩ := List.mem_iff_getElem?.mp hy
  by_cases hij : i = j
  · subst hij
    left
    simpa [hx] using hj.symm
  · right
    exact List.mem_of_getElem? (by simpa [hij] using hj)

theorem tally_le_length (k : κ) : tally key k table ≤ table.length := List.countP_le_length

/-- A class that has an entry is not empty. -/
theorem tally_pos (hx : table[i]? = some x) : 0 < tally key (key x) table :=
  List.countP_pos_iff.mpr ⟨x, List.mem_of_getElem? hx, by simp⟩

/-- Replacing an entry takes it from its class and adds it to another. -/
theorem tally_modify (hx : table[i]? = some x) (f : α → α) (k : κ) :
    tally key k (table.modify i f) + (if key x = k then 1 else 0) =
      tally key k table + if key (f x) = k then 1 else 0 := by
  induction table generalizing i with
  | nil => simp at hx
  | cons y rest ih =>
      cases i with
      | zero =>
          simp only [List.getElem?_cons_zero, Option.some.injEq] at hx
          subst hx
          simp only [tally, List.modify_zero_cons, List.countP_cons, decide_eq_true_eq]
          omega
      | succ i =>
          have := ih (i := i) (by simpa using hx)
          simp only [tally, List.modify_succ_cons, List.countP_cons] at this ⊢
          omega

/-- Replacing an entry inside its class changes no number. -/
theorem tally_modify_same {f : α → α} (hf : ∀ y, table[i]? = some y → key (f y) = key y) (k : κ) :
    tally key k (table.modify i f) = tally key k table := by
  cases hx : table[i]? with
  | none => rw [List.modify_eq_self (List.getElem?_eq_none_iff.mp hx)]
  | some x =>
      have := @tally_modify _ _ _ key _ _ _ hx f k
      rw [hf x hx] at this
      omega

/-- Replacing an entry takes what it yields out of the collected items and adds
what the new entry yields. -/
theorem filterMap_modify_perm {β : Type} {g : α → Option β} (hx : table[i]? = some x)
    (f : α → α) :
    ((g x).toList ++ (table.modify i f).filterMap g).Perm
      ((g (f x)).toList ++ table.filterMap g) := by
  induction table generalizing i with
  | nil => simp at hx
  | cons y rest ih =>
      cases i with
      | zero =>
          simp only [List.getElem?_cons_zero, Option.some.injEq] at hx
          subst hx
          simp only [List.modify_zero_cons, List.filterMap_cons]
          cases g y with
          | none => cases g (f y) <;> simp
          | some a =>
              cases g (f y) with
              | none => simp
              | some b => exact List.Perm.swap b a _
      | succ i =>
          have hrest := ih (i := i) (by simpa using hx)
          simp only [List.modify_succ_cons, List.filterMap_cons]
          cases g y with
          | none => exact hrest
          | some a =>
              exact List.perm_middle.trans ((hrest.cons a).trans List.perm_middle.symm)

/-- Replacing an entry by one that yields the same leaves the collected items. -/
theorem filterMap_set_same {β : Type} {g : α → Option β} (hx : table[i]? = some x) {y : α}
    (hy : g y = g x) : (table.set i y).filterMap g = table.filterMap g := by
  induction table generalizing i with
  | nil => rfl
  | cons z rest ih =>
      cases i with
      | zero =>
          simp only [List.getElem?_cons_zero, Option.some.injEq] at hx
          subst hx
          simp only [List.set_cons_zero, List.filterMap_cons, hy]
      | succ i =>
          simp only [List.set_cons_succ, List.filterMap_cons]
          rw [ih (by simpa using hx)]

/-- The entries are counted by their indices. -/
theorem countP_range (p : α → Bool) (table : List α) :
    (List.range table.length).countP (fun i => table[i]?.any p) = table.countP p := by
  induction table with
  | nil => rfl
  | cons x rest ih =>
      rw [List.length_cons, List.range_succ_eq_map, List.countP_cons, List.countP_map,
        List.countP_cons, ← ih]
      rfl

/-- A table has as many entries with a property as there are indices of such entries. -/
theorem countP_eq_length {table : List α} {p : α → Bool} {ids : List Nat} (hnodup : ids.Nodup)
    (hids : ∀ i, i ∈ ids ↔ ∃ x, table[i]? = some x ∧ p x = true) : table.countP p = ids.length := by
  rw [← countP_range p table, List.countP_eq_length_filter]
  refine List.Perm.length_eq ((List.perm_ext_iff_of_nodup (List.nodup_range.filter _) hnodup).mpr
    fun i => ?_)
  rw [List.mem_filter, List.mem_range, hids]
  constructor
  · rintro ⟨hi, hp⟩
    exact ⟨table[i], List.getElem?_eq_getElem hi, by simpa [List.getElem?_eq_getElem hi] using hp⟩
  · rintro ⟨x, hx, hp⟩
    refine ⟨(List.getElem?_eq_some_iff.mp hx).1, ?_⟩
    rw [hx]
    exact hp

end Library
