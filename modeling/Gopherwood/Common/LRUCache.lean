/-
# The cache of active blocks

`LRUCache` keeps its keys in a list, most recently put first, next to a map from
keys to list nodes. The map only speeds the search up, so the list is the model:
a key is present when it is in the list.
-/

import Mathlib.Data.List.Nodup

namespace Gopherwood

/-- `LRUCache<key_t, value_t>`, most recent entry first. -/
structure LRUCache (κ ν : Type) where
  items : List (κ × ν)
  maxSize : Nat

namespace LRUCache

variable {κ ν : Type}

def empty (maxSize : Nat) : LRUCache κ ν := ⟨[], maxSize⟩

def size (c : LRUCache κ ν) : Nat := c.items.length

/-- The keys, most recent first. -/
def keys (c : LRUCache κ ν) : List κ := c.items.map Prod.fst

def contains [DecidableEq κ] (c : LRUCache κ ν) (key : κ) : Bool := c.keys.contains key

/-- `removeNumOfKeys`: drop the `num` oldest entries and return their keys,
oldest first. -/
def removeNumOfKeys (c : LRUCache κ ν) (num : Nat) : LRUCache κ ν × List κ :=
  let keep := c.items.length - num
  ({ c with items := c.items.take keep }, ((c.items.drop keep).map Prod.fst).reverse)

/-- `adjustSize`: set the capacity and return the keys that no longer fit. -/
def adjustSize (c : LRUCache κ ν) (newSize : Nat) : LRUCache κ ν × List κ :=
  let (c, removed) := c.removeNumOfKeys (c.size - newSize)
  ({ c with maxSize := newSize }, removed)

/-- `put`: insert at the front; an overfull cache drops its oldest key, which is
returned. -/
def put [DecidableEq κ] (c : LRUCache κ ν) (key : κ) (value : ν) : LRUCache κ ν × List κ :=
  let c := { c with items := (key, value) :: c.items.filter fun item => item.1 ≠ key }
  if c.size > c.maxSize then c.removeNumOfKeys 1 else (c, [])

/-- `deleteObject`. -/
def deleteObject [DecidableEq κ] (c : LRUCache κ ν) (key : κ) : LRUCache κ ν :=
  { c with items := c.items.filter fun item => item.1 ≠ key }

/-- `get`: a key that is found becomes the most recent one. -/
def get [DecidableEq κ] (c : LRUCache κ ν) (key : κ) : LRUCache κ ν × Bool :=
  match c.items.find? fun item => item.1 = key with
  | some item => ({ c with items := item :: c.items.filter fun item => item.1 ≠ key }, true)
  | none => (c, false)

@[simp]
theorem size_empty (maxSize : Nat) : (empty maxSize : LRUCache κ ν).size = 0 := rfl

@[simp]
theorem maxSize_empty (maxSize : Nat) : (empty maxSize : LRUCache κ ν).maxSize = maxSize := rfl

@[simp]
theorem size_removeNumOfKeys (c : LRUCache κ ν) (num : Nat) :
    (c.removeNumOfKeys num).1.size = c.size - num := by
  simp [removeNumOfKeys, size]

@[simp]
theorem maxSize_removeNumOfKeys (c : LRUCache κ ν) (num : Nat) :
    (c.removeNumOfKeys num).1.maxSize = c.maxSize := rfl

@[simp]
theorem maxSize_adjustSize (c : LRUCache κ ν) (newSize : Nat) :
    (c.adjustSize newSize).1.maxSize = newSize := rfl

theorem size_adjustSize_le (c : LRUCache κ ν) (newSize : Nat) :
    (c.adjustSize newSize).1.size ≤ c.size := by
  change (c.removeNumOfKeys (c.size - newSize)).1.size ≤ c.size
  rw [size_removeNumOfKeys]
  exact Nat.sub_le _ _

/-- A cache that fits its new capacity loses no key. -/
theorem adjustSize_of_le {c : LRUCache κ ν} {newSize : Nat} (h : c.size ≤ newSize) :
    (c.adjustSize newSize).2 = [] := by
  have hnone : c.size - newSize = 0 := Nat.sub_eq_zero_of_le h
  simp [adjustSize, removeNumOfKeys, hnone]

section Put

variable [DecidableEq κ]

/-- The entries after `put`, before the oldest one is dropped. -/
theorem length_insert_le (c : LRUCache κ ν) (key : κ) (value : ν) :
    ((key, value) :: c.items.filter fun item => item.1 ≠ key).length ≤ c.size + 1 := by
  rw [List.length_cons]
  exact Nat.succ_le_succ (List.length_filter_le _ _)

/-- A cache with room drops no key. -/
theorem put_of_lt {c : LRUCache κ ν} (h : c.size < c.maxSize) (key : κ) (value : ν) :
    (c.put key value).2 = [] := by
  have hlength := c.length_insert_le key value
  unfold put
  dsimp only
  split
  · next hfull =>
      have hfull : ((key, value) :: c.items.filter fun item => item.1 ≠ key).length > c.maxSize :=
        hfull
      omega
  · rfl

theorem size_put_le (c : LRUCache κ ν) (key : κ) (value : ν) :
    (c.put key value).1.size ≤ c.size + 1 := by
  have hlength := c.length_insert_le key value
  simp only [put]
  split
  · rw [size_removeNumOfKeys]
    exact Nat.le_trans (Nat.sub_le _ _) hlength
  · exact hlength

/-- `put` keeps a cache within its capacity. -/
theorem size_put_le_maxSize {c : LRUCache κ ν} (h : c.size ≤ c.maxSize) (key : κ) (value : ν) :
    (c.put key value).1.size ≤ c.maxSize := by
  have hlength := c.length_insert_le key value
  simp only [put]
  split
  · rw [size_removeNumOfKeys]
    exact Nat.le_trans (Nat.sub_le_of_le_add hlength) h
  · next hfits => exact Nat.le_of_not_lt hfits

@[simp]
theorem maxSize_put (c : LRUCache κ ν) (key : κ) (value : ν) :
    (c.put key value).1.maxSize = c.maxSize := by
  simp only [put]
  split
  · rfl
  · rfl

end Put

section Entries

variable {c : LRUCache κ ν} {num : Nat}

/-- The entries that are kept, and those that are removed with their keys. -/
theorem items_removeNumOfKeys (c : LRUCache κ ν) (num : Nat) :
    ∃ removed, c.items = (c.removeNumOfKeys num).1.items ++ removed ∧
      (c.removeNumOfKeys num).2 = (removed.map Prod.fst).reverse :=
  ⟨c.items.drop (c.items.length - num), (List.take_append_drop _ _).symm, rfl⟩

theorem mem_of_mem_removeNumOfKeys {item : κ × ν} (h : item ∈ (c.removeNumOfKeys num).1.items) :
    item ∈ c.items :=
  List.mem_of_mem_take h

/-- Different keys stay different, and no removed key is kept. -/
theorem nodup_removeNumOfKeys (h : c.keys.Nodup) (num : Nat) :
    (c.removeNumOfKeys num).1.keys.Nodup ∧ (c.removeNumOfKeys num).2.Nodup ∧
      ∀ key ∈ (c.removeNumOfKeys num).2, key ∉ (c.removeNumOfKeys num).1.keys := by
  obtain ⟨removed, hitems, hkeys⟩ := c.items_removeNumOfKeys num
  rw [keys, hitems, List.map_append] at h
  obtain ⟨hkept, hremoved, hdisjoint⟩ := List.nodup_append.mp h
  refine ⟨hkept, by rw [hkeys]; exact List.nodup_reverse.mpr hremoved, fun key hkey hmem => ?_⟩
  rw [hkeys, List.mem_reverse] at hkey
  exact hdisjoint key hmem key hkey rfl

variable [DecidableEq κ] {key : κ} {value : ν}

theorem contains_iff {i : κ} : c.contains i = true ↔ ∃ v, (i, v) ∈ c.items := by
  simp [contains, keys]

/-- A cache of some capacity has the key that was put last. -/
theorem contains_put (h : 1 ≤ c.maxSize) : (c.put key value).1.contains key = true := by
  rw [contains_iff]
  refine ⟨value, ?_⟩
  simp only [put]
  split
  · next hfull =>
      have hlength : ((key, value) :: c.items.filter fun item => item.1 ≠ key).length > c.maxSize :=
        hfull
      show (key, value) ∈ List.take _ _
      rw [List.length_cons] at hlength ⊢
      rw [show (c.items.filter fun item => item.1 ≠ key).length + 1 - 1 =
        (c.items.filter fun item => item.1 ≠ key).length - 1 + 1 by omega, List.take_succ_cons]
      exact List.mem_cons_self
  · exact List.mem_cons_self

end Entries

end LRUCache

end Gopherwood
