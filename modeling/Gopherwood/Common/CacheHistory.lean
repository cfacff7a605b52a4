/-
# Calls of the cache, one after the other

An observer writes down every call of the cache: when a key was last put or found by `get`,
and how often it was handed back or deleted since it was last put. After any calls on an
empty cache the list has the keys in the order of these times, the map is in step with the
list, and the counts tell which keys the cache has.
-/

import Gopherwood.Common.CacheNodes
import Gopherwood.Library.Recency

namespace Gopherwood

open Library

/-- The calls that change a cache. -/
inductive CacheCall (κ ν : Type)
  | put (key : κ) (value : ν)
  | get (key : κ)
  | deleteObject (key : κ)
  | removeNumOfKeys (num : Nat)
  | adjustSize (newSize : Nat)

variable {κ ν : Type} [DecidableEq κ]

namespace LRUCache

/-- A call, with the keys it hands back. -/
def call (c : LRUCache κ ν) : CacheCall κ ν → LRUCache κ ν × List κ
  | .put key value => c.put key value
  | .get key => ((c.get key).1, [])
  | .deleteObject key => (c.deleteObject key, [])
  | .removeNumOfKeys num => c.removeNumOfKeys num
  | .adjustSize newSize => c.adjustSize newSize

variable {c : LRUCache κ ν} {key : κ}

omit [DecidableEq κ] in
/-- The keys handed back were the last ones, the oldest first. -/
theorem keys_removeNumOfKeys (c : LRUCache κ ν) (num : Nat) :
    c.keys = (c.removeNumOfKeys num).1.keys ++ (c.removeNumOfKeys num).2.reverse := by
  obtain ⟨removed, hitems, hkeys⟩ := c.items_removeNumOfKeys num
  rw [hkeys, List.reverse_reverse, keys, hitems, List.map_append]
  rfl

theorem keys_put (c : LRUCache κ ν) (key : κ) (value : ν) :
    key :: c.keys.filter (fun k => k ≠ key) =
      (c.put key value).1.keys ++ (c.put key value).2.reverse := by
  have hinsert : key :: c.keys.filter (fun k => k ≠ key) =
      ({ c with items := (key, value) :: c.items.filter fun item => item.1 ≠ key } :
        LRUCache κ ν).keys := by
    simp [keys, List.filter_map, Function.comp_def]
  rw [hinsert]
  unfold put
  dsimp only
  split
  · exact keys_removeNumOfKeys _ 1
  · simp

/-- A key just put is the first one, where the cache may have a key at all. -/
theorem head_put (hroom : 0 < c.maxSize) (key : κ) (value : ν) :
    (c.put key value).1.keys.head? = some key := by
  unfold put
  dsimp only
  split
  · next hfull =>
      have htwo : 2 ≤ ((key, value) :: c.items.filter fun item => item.1 ≠ key).length := by
        change 0 < c.maxSize at hroom
        simp only [size] at hfull
        omega
      obtain ⟨n, hn⟩ : ∃ n, ((key, value) :: c.items.filter fun item => item.1 ≠ key).length - 1 =
          n + 1 := ⟨_, (Nat.sub_add_cancel (by omega)).symm⟩
      simp only [removeNumOfKeys, keys, hn, List.take_succ_cons, List.map_cons, List.head?_cons]
  · rfl

theorem keys_deleteObject (c : LRUCache κ ν) (key : κ) :
    (c.deleteObject key).keys = c.keys.filter fun k => k ≠ key := by
  simp [keys, deleteObject, List.filter_map, Function.comp_def]

theorem get_of_mem (h : key ∈ c.keys) :
    (c.get key).1.keys = key :: c.keys.filter (fun k => k ≠ key) ∧ (c.get key).2 = true := by
  obtain ⟨item, hitem, rfl⟩ := List.mem_map.mp h
  have hfind : (c.items.find? fun i => i.1 = item.1).isSome := by
    rw [List.find?_isSome]
    exact ⟨item, hitem, by simp⟩
  obtain ⟨found, hfound⟩ := Option.isSome_iff_exists.mp hfind
  have hkey : found.1 = item.1 := by simpa using List.find?_some hfound
  simp [get, hfound, keys, hkey, List.filter_map, Function.comp_def]

theorem get_of_notMem (h : key ∉ c.keys) : c.get key = (c, false) := by
  have hfind : c.items.find? (fun i => i.1 = key) = none := by
    rw [List.find?_eq_none]
    intro item hitem heq
    exact h (of_decide_eq_true heq ▸ List.mem_map_of_mem hitem)
  simp [get, hfind]

end LRUCache

namespace CacheNodes

/-- A call, with the keys it hands back. -/
def call (c : CacheNodes κ ν) : CacheCall κ ν → CacheNodes κ ν × List κ
  | .put key value => c.put key value
  | .get key => ((c.get key).1, [])
  | .deleteObject key => (c.deleteObject key, [])
  | .removeNumOfKeys num => c.removeNumOfKeys num
  | .adjustSize newSize => c.adjustSize newSize

/-- What the observer writes down of a call before the keys that it hands back. -/
def note (c : CacheNodes κ ν) (h : Recency κ) : CacheCall κ ν → Recency κ
  | .put key _ => h.insert key
  | .get key => if (c.get key).2 then h.touch key else h
  | .deleteObject key => if c.contains key then h.leave key else h
  | .removeNumOfKeys _ => h
  | .adjustSize _ => h

/-- What the observer has written down after a call. -/
def observe (c : CacheNodes κ ν) (h : Recency κ) (call : CacheCall κ ν) : Recency κ :=
  (c.call call).2.foldl Recency.leave (c.note h call)

/-- The calls in their order. -/
def run : List (CacheCall κ ν) → CacheNodes κ ν → Recency κ → CacheNodes κ ν × Recency κ
  | [], c, h => (c, h)
  | call :: calls, c, h => run calls (c.call call).1 (c.observe h call)

variable {c : CacheNodes κ ν} {h : Recency κ}

/-- The list and the map do together what the list does alone. -/
theorem InStep.call (hin : c.InStep) (call : CacheCall κ ν) :
    (c.call call).1.InStep ∧
      (c.call call).1.toLRUCache = (c.toLRUCache.call call).1 ∧
      (c.call call).2 = (c.toLRUCache.call call).2 := by
  cases call with
  | put key value => exact hin.put key value
  | get key =>
      obtain ⟨hget, hcache, -⟩ := hin.get key
      exact ⟨hget, hcache, rfl⟩
  | deleteObject key => exact ⟨hin.deleteObject key, hin.toLRUCache_deleteObject key, rfl⟩
  | removeNumOfKeys num => exact hin.removeNumOfKeys num
  | adjustSize newSize => exact hin.adjustSize newSize

theorem InStep.contains_iff (hin : c.InStep) {key : κ} :
    c.contains key = true ↔ key ∈ c.toLRUCache.keys := by
  rw [keys_toLRUCache, ← hin.mem_map_iff, contains, AList.lookup_isSome]

/-- The observer keeps up with a call. -/
theorem InStep.tracks_call (hin : c.InStep) (ht : Recency.Tracks c.toLRUCache.keys h)
    (call : CacheCall κ ν) :
    Recency.Tracks (c.toLRUCache.call call).1.keys (c.observe h call) := by
  unfold observe
  rw [(hin.call call).2.2]
  cases call with
  | put key value =>
      apply Recency.Tracks.leave_all
      change Recency.Tracks ((c.toLRUCache.put key value).1.keys ++
        (c.toLRUCache.put key value).2.reverse) (h.insert key)
      rw [← LRUCache.keys_put]
      exact ht.insert key
  | get key =>
      change Recency.Tracks (c.toLRUCache.get key).1.keys
        (if (c.get key).2 then h.touch key else h)
      rw [(hin.get key).2.2]
      by_cases hkey : key ∈ c.toLRUCache.keys
      · obtain ⟨hkeys, hfound⟩ := LRUCache.get_of_mem hkey
        rw [hkeys, if_pos hfound]
        exact ht.touch hkey
      · rw [LRUCache.get_of_notMem hkey, if_neg Bool.false_ne_true]
        exact ht
  | deleteObject key =>
      change Recency.Tracks (c.toLRUCache.deleteObject key).keys
        (if c.contains key then h.leave key else h)
      rw [LRUCache.keys_deleteObject]
      by_cases hkey : key ∈ c.toLRUCache.keys
      · rw [if_pos (hin.contains_iff.mpr hkey)]
        exact ht.leave_filter hkey
      · rw [if_neg (fun hcontains => hkey (hin.contains_iff.mp hcontains)),
          List.filter_eq_self.mpr]
        · exact ht
        · intro k hk
          exact decide_eq_true fun heq => hkey (heq ▸ hk)
  | removeNumOfKeys num =>
      apply Recency.Tracks.leave_all
      change Recency.Tracks ((c.toLRUCache.removeNumOfKeys num).1.keys ++
        (c.toLRUCache.removeNumOfKeys num).2.reverse) h
      rw [← LRUCache.keys_removeNumOfKeys]
      exact ht
  | adjustSize newSize =>
      apply Recency.Tracks.leave_all
      change Recency.Tracks ((c.toLRUCache.removeNumOfKeys (c.toLRUCache.size - newSize)).1.keys ++
        (c.toLRUCache.removeNumOfKeys (c.toLRUCache.size - newSize)).2.reverse) h
      rw [← LRUCache.keys_removeNumOfKeys]
      exact ht

theorem InStep.size_toLRUCache (hin : c.InStep) : c.toLRUCache.size = c.size := by
  rw [hin.size_eq]
  exact List.length_map ..

/-- A cache that fits its capacity still does after a call. -/
theorem InStep.size_call_le (hin : c.InStep) (hsize : c.size ≤ c.maxSize)
    (call : CacheCall κ ν) : (c.call call).1.size ≤ (c.call call).1.maxSize := by
  obtain ⟨hin', hcache, -⟩ := hin.call call
  have hbefore : c.toLRUCache.size ≤ c.toLRUCache.maxSize := by
    rw [hin.size_toLRUCache]
    exact hsize
  have hmaxSize : (c.call call).1.maxSize = (c.toLRUCache.call call).1.maxSize := by
    rw [← hcache]
    rfl
  rw [← hin'.size_toLRUCache, hcache, hmaxSize]
  cases call with
  | put key value =>
      change (c.toLRUCache.put key value).1.size ≤ (c.toLRUCache.put key value).1.maxSize
      rw [LRUCache.maxSize_put]
      exact LRUCache.size_put_le_maxSize hbefore key value
  | get key =>
      rw [← hcache, hin'.size_toLRUCache]
      change (c.get key).1.size ≤ (c.get key).1.maxSize
      unfold CacheNodes.get
      split
      · exact hsize
      · exact hsize
  | deleteObject key => exact Nat.le_trans (List.length_filter_le _ _) hbefore
  | removeNumOfKeys num =>
      change (c.toLRUCache.removeNumOfKeys num).1.size ≤ c.toLRUCache.maxSize
      rw [LRUCache.size_removeNumOfKeys]
      exact Nat.le_trans (Nat.sub_le _ _) hbefore
  | adjustSize newSize =>
      change (c.toLRUCache.removeNumOfKeys (c.toLRUCache.size - newSize)).1.size ≤ newSize
      rw [LRUCache.size_removeNumOfKeys]
      omega

/-! ## Every sequence of calls -/

/-- What holds between calls. -/
structure Kept (c : CacheNodes κ ν) (h : Recency κ) : Prop where
  inStep : c.InStep
  tracks : Recency.Tracks c.toLRUCache.keys h
  bounded : c.size ≤ c.maxSize

theorem Kept.call (hkept : Kept c h) (call : CacheCall κ ν) :
    Kept (c.call call).1 (c.observe h call) := by
  obtain ⟨hin, hcache, -⟩ := hkept.inStep.call call
  refine ⟨hin, ?_, hkept.inStep.size_call_le hkept.bounded call⟩
  rw [hcache]
  exact hkept.inStep.tracks_call hkept.tracks call

theorem Kept.run (calls : List (CacheCall κ ν)) :
    ∀ {c : CacheNodes κ ν} {h : Recency κ}, Kept c h →
      Kept (run calls c h).1 (run calls c h).2 := by
  induction calls with
  | nil =>
      intro c h hkept
      exact hkept
  | cons call calls ih =>
      intro c h hkept
      exact ih (hkept.call call)

/-- The cache over a list alone does the same calls. -/
theorem InStep.toLRUCache_run (calls : List (CacheCall κ ν)) :
    ∀ {c : CacheNodes κ ν} {h : Recency κ}, c.InStep →
      (CacheNodes.run calls c h).1.toLRUCache =
        calls.foldl (fun c call => (c.call call).1) c.toLRUCache := by
  induction calls with
  | nil =>
      intro c h _
      rfl
  | cons call calls ih =>
      intro c h hin
      obtain ⟨hin', hcache, -⟩ := hin.call call
      rw [List.foldl_cons, ← hcache]
      exact ih hin'

theorem isSome_leave_all {key : κ} (removed : List κ) :
    ∀ {h : Recency κ}, (h.left key).isSome →
      ((removed.foldl Recency.leave h).left key).isSome := by
  induction removed with
  | nil =>
      intro h hsome
      exact hsome
  | cons other removed ih =>
      intro h hsome
      apply ih
      by_cases hkey : key = other
      · subst hkey
        simpa [Recency.leave] using hsome
      · rwa [Recency.left_leave_of_ne hkey]

/-- A key that was put once has a count from then on. -/
theorem isSome_observe {key : κ} (c : CacheNodes κ ν) {call : CacheCall κ ν}
    (hput : (h.left key).isSome ∨ ∃ value, call = .put key value) :
    ((c.observe h call).left key).isSome := by
  apply isSome_leave_all
  rcases hput with hsome | ⟨value, rfl⟩
  · cases call with
    | put other value =>
        by_cases hkey : key = other
        · simp [note, Recency.insert, hkey]
        · change ((h.insert other).left key).isSome
          rwa [Recency.left_insert_of_ne hkey]
    | get other =>
        simp only [note]
        split
        · exact hsome
        · exact hsome
    | deleteObject other =>
        simp only [note]
        split
        · exact isSome_leave_all [other] hsome
        · exact hsome
    | removeNumOfKeys num => exact hsome
    | adjustSize newSize => exact hsome
  · simp [note, Recency.insert]

theorem isSome_run {key : κ} (calls : List (CacheCall κ ν)) :
    ∀ {c : CacheNodes κ ν} {h : Recency κ},
      ((h.left key).isSome ∨ ∃ value, CacheCall.put key value ∈ calls) →
      ((run calls c h).2.left key).isSome := by
  induction calls with
  | nil =>
      intro c h hput
      rcases hput with hsome | ⟨value, hmem⟩
      · exact hsome
      · cases hmem
  | cons call calls ih =>
      intro c h hput
      apply ih
      rcases hput with hsome | ⟨value, hmem⟩
      · exact Or.inl (isSome_observe c (Or.inl hsome))
      · rcases List.mem_cons.mp hmem with heq | hmem
        · exact Or.inl (isSome_observe c (Or.inr ⟨value, heq.symm⟩))
        · exact Or.inr ⟨value, hmem⟩

/-- The capacity after a call. -/
def capacityAfter (maxSize : Nat) : CacheCall κ ν → Nat
  | .adjustSize newSize => newSize
  | _ => maxSize

theorem maxSize_call (c : CacheNodes κ ν) (hin : c.InStep) (call : CacheCall κ ν) :
    (c.call call).1.maxSize = capacityAfter c.maxSize call := by
  have hcache := congrArg LRUCache.maxSize (hin.call call).2.1
  refine hcache.trans ?_
  cases call with
  | put key value => exact LRUCache.maxSize_put _ key value
  | get key =>
      simp only [LRUCache.call, LRUCache.get]
      split
      · rfl
      · rfl
  | deleteObject key => rfl
  | removeNumOfKeys num => rfl
  | adjustSize newSize => rfl

theorem maxSize_run (calls : List (CacheCall κ ν)) : ∀ {c : CacheNodes κ ν} {h : Recency κ},
    c.InStep → (run calls c h).1.maxSize = calls.foldl capacityAfter c.maxSize := by
  induction calls with
  | nil =>
      intro c h _
      rfl
  | cons call calls ih =>
      intro c h hin
      rw [List.foldl_cons, ← maxSize_call c hin call]
      exact ih (hin.call call).1

/-- What a cache of capacity `maxSize` promises after some calls. -/
structure Represents (maxSize : Nat) (c : CacheNodes κ ν) (h : Recency κ)
    (calls : List (CacheCall κ ν)) : Prop where
  -- the cache over the list alone does the same calls
  model : c.toLRUCache = calls.foldl (fun c call => (c.call call).1) (.empty maxSize)
  capacity : c.maxSize = calls.foldl capacityAfter maxSize
  latest : ∀ before key value, calls = before ++ [.put key value] → 0 < c.maxSize →
    c.getAllKeyObject.head? = some key
  keys : c.map.keys.Perm c.getAllKeyObject
  once : c.getAllKeyObject.Nodup
  -- no other node has the address that the map has for a key
  own : ∀ node ∈ c.list, c.map.lookup node.key = some node.address ∧
    ∀ other ∈ c.list, other.address = node.address → other = node
  bounded : c.size ≤ c.maxSize
  ordered : c.getAllKeyObject.Pairwise fun recent old => h.touched old < h.touched recent
  oldest : ∀ num, (c.removeNumOfKeys num).2.length = min num c.size ∧
    c.getAllKeyObject =
      (c.removeNumOfKeys num).1.getAllKeyObject ++ (c.removeNumOfKeys num).2.reverse
  accounted : ∀ key value, CacheCall.put key value ∈ calls →
    key ∈ c.getAllKeyObject ∧ h.left key = some 0 ∨
      key ∉ c.getAllKeyObject ∧ h.left key = some 1

theorem InStep.oldest (hin : c.InStep) (num : Nat) :
    (c.removeNumOfKeys num).2.length = min num c.size ∧
      c.getAllKeyObject =
        (c.removeNumOfKeys num).1.getAllKeyObject ++ (c.removeNumOfKeys num).2.reverse := by
  obtain ⟨-, hcache, hkeys⟩ := hin.removeNumOfKeys num
  have hsplit := c.toLRUCache.keys_removeNumOfKeys num
  rw [← hcache, ← hkeys, keys_toLRUCache, keys_toLRUCache] at hsplit
  refine ⟨?_, hsplit⟩
  rw [hkeys, LRUCache.removeNumOfKeys, List.length_reverse, List.length_map, List.length_drop,
    ← hin.size_toLRUCache]
  change c.toLRUCache.size - (c.toLRUCache.size - num) = min num c.toLRUCache.size
  omega

/-- After any calls on an empty cache the map is in step with the list, the list is in the
order of use, and every key that was put is in the cache or has left it once. -/
theorem represents_run (maxSize : Nat) (calls : List (CacheCall κ ν)) :
    Represents maxSize (run calls (empty maxSize) Recency.start).1
      (run calls (empty maxSize) Recency.start).2 calls := by
  have hempty : Kept (empty maxSize : CacheNodes κ ν) Recency.start :=
    ⟨InStep.empty maxSize, Recency.Tracks.start, Nat.zero_le _⟩
  obtain ⟨hin, htracks, hbounded⟩ := Kept.run calls hempty
  rw [keys_toLRUCache] at htracks
  have hmodel := InStep.toLRUCache_run calls (h := Recency.start)
    (InStep.empty maxSize : (empty maxSize : CacheNodes κ ν).InStep)
  have hcapacity := maxSize_run calls (h := Recency.start)
    (InStep.empty maxSize : (empty maxSize : CacheNodes κ ν).InStep)
  refine ⟨hmodel, hcapacity, ?_, hin.perm, hin.keys, ?_, hbounded, htracks.ordered, hin.oldest, ?_⟩
  · intro before key value hcalls hroom
    change ((run calls (empty maxSize) Recency.start).1.list.map CacheNode.key).head? = _
    rw [← keys_toLRUCache, hmodel, hcalls, List.foldl_append]
    refine LRUCache.head_put ?_ key value
    -- the put leaves the capacity as the calls before it have set it
    have hcache := InStep.toLRUCache_run before (h := Recency.start) (InStep.empty maxSize)
    have hbefore := maxSize_run before (h := Recency.start) (InStep.empty maxSize)
    rw [← hcache]
    change 0 < (run before (empty maxSize) Recency.start).1.maxSize
    rw [hbefore]
    rw [hcapacity, hcalls, List.foldl_append] at hroom
    exact hroom
  · intro node hnode
    refine ⟨(hin.points _ _).mpr ⟨node, hnode, rfl, rfl⟩, ?_⟩
    intro other hother haddress
    exact List.inj_on_of_nodup_map hin.addresses hother hnode haddress
  · intro key value hput
    by_cases hkey : key ∈ (run calls (empty maxSize) Recency.start).1.getAllKeyObject
    · exact Or.inl ⟨hkey, htracks.present key hkey⟩
    · have hcount := isSome_run calls (c := empty maxSize) (h := Recency.start)
        (Or.inr ⟨value, hput⟩)
      rcases htracks.absent key hkey with hnone | hone
      · rw [hnone] at hcount
        cases hcount
      · exact Or.inr ⟨hkey, hone⟩

/-- A full cache hands the oldest key back, and `get` made another one the oldest. -/
example : (run [.put 1 (), .put 2 (), .get 1, .put 3 ()] (empty 2 : CacheNodes Nat Unit)
    Recency.start).1.getAllKeyObject = [3, 1] := by decide

end CacheNodes

end Gopherwood
