/-
# The list and the map of the cache

`LRUCache` keeps a list of nodes and a map from keys to iterators into the list. The
operations here change both as the source does. A node is known by its address, and an
iterator is the address of a node. The source reads the key of the last node through an
iterator after it has taken the node off the list; the key is still what the node had.

The map never disagrees with the list, so the cache behaves as the list alone, which is
what `Gopherwood.Common.LRUCache` keeps.
-/

import Gopherwood.Common.LRUCache
import Mathlib.Data.List.AList
import Mathlib.Data.List.Perm.Lattice

namespace Gopherwood

/-- A node of `_cache_items_list`. -/
structure CacheNode (κ ν : Type) where
  address : Nat
  key : κ
  value : ν

/-- `LRUCache<key_t, value_t>` with both its containers; `next` is an address that no
node has had. -/
structure CacheNodes (κ ν : Type) where
  list : List (CacheNode κ ν)
  map : AList fun _ : κ => Nat
  maxSize : Nat
  next : Nat

namespace CacheNodes

variable {κ ν : Type} [DecidableEq κ]

def empty (maxSize : Nat) : CacheNodes κ ν := ⟨[], ∅, maxSize, 0⟩

/-- `size` asks the map. -/
def size (c : CacheNodes κ ν) : Nat := c.map.keys.length

/-- `exists`. -/
def contains (c : CacheNodes κ ν) (key : κ) : Bool := (c.map.lookup key).isSome

/-- `getAllKeyObject`. -/
def getAllKeyObject (c : CacheNodes κ ν) : List κ := c.list.map CacheNode.key

/-- `deleteObject`. -/
def deleteObject (c : CacheNodes κ ν) (key : κ) : CacheNodes κ ν :=
  match c.map.lookup key with
  | some it => { c with
      list := c.list.filter fun node => node.address ≠ it
      map := c.map.erase key }
  | none => c

/-- The body of the loop of `removeNumOfKeys`. -/
def removeLast (c : CacheNodes κ ν) : CacheNodes κ ν × List κ :=
  match c.list.getLast? with
  | some last => ({ c with map := c.map.erase last.key, list := c.list.dropLast }, [last.key])
  | none => (c, [])

def removeNumOfKeys.loop : Nat → CacheNodes κ ν → CacheNodes κ ν × List κ
  | 0, c => (c, [])
  | removeNum + 1, c =>
      let (c, key) := c.removeLast
      let (c, keys) := removeNumOfKeys.loop removeNum c
      (c, key ++ keys)

/-- `removeNumOfKeys`. -/
def removeNumOfKeys (c : CacheNodes κ ν) (num : Nat) : CacheNodes κ ν × List κ :=
  removeNumOfKeys.loop (if num > c.size then c.size else num) c

/-- `adjustSize`. -/
def adjustSize (c : CacheNodes κ ν) (newSize : Nat) : CacheNodes κ ν × List κ :=
  let (c, removed) := if newSize < c.size then c.removeNumOfKeys (c.size - newSize) else (c, [])
  ({ c with maxSize := newSize }, removed)

/-- `push_front` of a new node, with its iterator in the map. -/
def pushFront (c : CacheNodes κ ν) (key : κ) (value : ν) : CacheNodes κ ν where
  list := ⟨c.next, key, value⟩ :: c.list
  map := c.map.insert key c.next
  maxSize := c.maxSize
  next := c.next + 1

/-- `put`. It begins as `deleteObject` does. -/
def put (c : CacheNodes κ ν) (key : κ) (value : ν) : CacheNodes κ ν × List κ :=
  let c := (c.deleteObject key).pushFront key value
  if c.size > c.maxSize then c.removeLast else (c, [])

/-- `splice` of one node to the front. -/
def splice (list : List (CacheNode κ ν)) (it : Nat) : List (CacheNode κ ν) :=
  list.filter (fun node => node.address = it) ++ list.filter fun node => node.address ≠ it

/-- `get`. -/
def get (c : CacheNodes κ ν) (key : κ) : CacheNodes κ ν × Bool :=
  match c.map.lookup key with
  | some it => ({ c with list := splice c.list it }, true)
  | none => (c, false)

/-! ## The map and the list in step -/

/-- The map has for every node of the list an iterator to it, and nothing else. -/
structure InStep (c : CacheNodes κ ν) : Prop where
  addresses : (c.list.map CacheNode.address).Nodup
  fresh : ∀ node ∈ c.list, node.address < c.next
  keys : (c.list.map CacheNode.key).Nodup
  points : ∀ key it, c.map.lookup key = some it ↔
    ∃ node ∈ c.list, node.key = key ∧ node.address = it

/-- What the cache is for: the list, without addresses and without the map. -/
def toLRUCache (c : CacheNodes κ ν) : LRUCache κ ν :=
  ⟨c.list.map fun node => (node.key, node.value), c.maxSize⟩

omit [DecidableEq κ] in
theorem keys_toLRUCache (c : CacheNodes κ ν) : c.toLRUCache.keys = c.list.map CacheNode.key := by
  simp [LRUCache.keys, toLRUCache]

namespace InStep

variable {c : CacheNodes κ ν} {key : κ} {it : Nat}

theorem empty (maxSize : Nat) : (CacheNodes.empty maxSize : CacheNodes κ ν).InStep where
  addresses := List.nodup_nil
  fresh := by
    intro node hnode
    cases hnode
  keys := List.nodup_nil
  points := by
    intro key it
    simp [CacheNodes.empty]

/-- The keys of the map are those of the list. -/
theorem mem_map_iff (h : c.InStep) : key ∈ c.map ↔ key ∈ c.list.map CacheNode.key := by
  rw [← AList.lookup_isSome, Option.isSome_iff_exists, List.mem_map]
  constructor
  · rintro ⟨it, hit⟩
    obtain ⟨node, hnode, hkey, -⟩ := (h.points key it).mp hit
    exact ⟨node, hnode, hkey⟩
  · rintro ⟨node, hnode, hkey⟩
    exact ⟨node.address, (h.points key node.address).mpr ⟨node, hnode, hkey, rfl⟩⟩

theorem perm (h : c.InStep) : c.map.keys.Perm (c.list.map CacheNode.key) := by
  rw [List.perm_ext_iff_of_nodup c.map.keys_nodup h.keys]
  intro key
  rw [← AList.mem_keys]
  exact h.mem_map_iff

theorem size_eq (h : c.InStep) : c.size = c.list.length := by
  rw [size, h.perm.length_eq, List.length_map]

/-- The node of an iterator is the node of its key. -/
theorem address_iff (h : c.InStep) (hit : c.map.lookup key = some it) {node : CacheNode κ ν}
    (hnode : node ∈ c.list) : node.address = it ↔ node.key = key := by
  obtain ⟨own, hown, hkey, haddress⟩ := (h.points key it).mp hit
  constructor
  · intro heq
    rw [List.inj_on_of_nodup_map h.addresses hnode hown (heq.trans haddress.symm)]
    exact hkey
  · intro heq
    rw [List.inj_on_of_nodup_map h.keys hnode hown (heq.trans hkey.symm)]
    exact haddress

/-- A key without an iterator has no node. -/
theorem notMem_of_lookup (h : c.InStep) (hnone : c.map.lookup key = none) {node : CacheNode κ ν}
    (hnode : node ∈ c.list) : node.key ≠ key := by
  rintro rfl
  rw [AList.lookup_eq_none, h.mem_map_iff] at hnone
  exact hnone (List.mem_map_of_mem hnode)

/-- What is left of the list without the node of a key. -/
theorem list_deleteObject (h : c.InStep) (key : κ) :
    (c.deleteObject key).list = c.list.filter fun node => node.key ≠ key := by
  unfold deleteObject
  cases hit : c.map.lookup key with
  | some it =>
      apply List.filter_congr
      intro node hnode
      simp only [ne_eq, h.address_iff hit hnode]
  | none =>
      symm
      rw [List.filter_eq_self]
      intro node hnode
      exact decide_eq_true (h.notMem_of_lookup hit hnode)

theorem lookup_deleteObject (c : CacheNodes κ ν) (key : κ) :
    (c.deleteObject key).map.lookup key = none := by
  unfold deleteObject
  cases hit : c.map.lookup key with
  | some it => exact AList.lookup_erase key c.map
  | none => exact hit

theorem lookup_deleteObject_ne {other : κ} (hne : other ≠ key) :
    (c.deleteObject key).map.lookup other = c.map.lookup other := by
  unfold deleteObject
  cases c.map.lookup key with
  | some it => exact AList.lookup_erase_ne hne
  | none => rfl

theorem next_deleteObject : (c.deleteObject key).next = c.next := by
  unfold deleteObject
  split
  · rfl
  · rfl

theorem maxSize_deleteObject : (c.deleteObject key).maxSize = c.maxSize := by
  unfold deleteObject
  split
  · rfl
  · rfl

/-- A cache whose list has lost the nodes of a key and whose map has lost the key. -/
theorem of_filter {c' : CacheNodes κ ν} (h : c.InStep) (hnext : c'.next = c.next)
    (hlist : c'.list = c.list.filter fun node => node.key ≠ key)
    (hnone : c'.map.lookup key = none)
    (hsome : ∀ other, other ≠ key → c'.map.lookup other = c.map.lookup other) : c'.InStep where
  addresses := by
    rw [hlist]
    exact h.addresses.sublist (List.filter_sublist.map _)
  fresh := by
    intro node hnode
    rw [hlist] at hnode
    rw [hnext]
    exact h.fresh node (List.mem_filter.mp hnode).1
  keys := by
    rw [hlist]
    exact h.keys.sublist (List.filter_sublist.map _)
  points := by
    intro other it
    by_cases hother : other = key
    · subst hother
      rw [hnone, hlist]
      constructor
      · intro hfalse
        cases hfalse
      · rintro ⟨node, hnode, hkey, -⟩
        exact absurd hkey (of_decide_eq_true (List.mem_filter.mp hnode).2)
    · rw [hsome other hother, h.points other it, hlist]
      constructor
      · rintro ⟨node, hnode, hkey, haddress⟩
        exact ⟨node, List.mem_filter.mpr ⟨hnode, decide_eq_true (hkey ▸ hother)⟩, hkey, haddress⟩
      · rintro ⟨node, hnode, hkey, haddress⟩
        exact ⟨node, (List.mem_filter.mp hnode).1, hkey, haddress⟩

theorem deleteObject (h : c.InStep) (key : κ) : (c.deleteObject key).InStep :=
  h.of_filter next_deleteObject (h.list_deleteObject key) (lookup_deleteObject c key)
    fun _ hne => lookup_deleteObject_ne hne

/-- A new node with a key that the cache does not have. -/
theorem pushFront (h : c.InStep) (hnone : c.map.lookup key = none) (value : ν) :
    (c.pushFront key value).InStep where
  addresses := by
    refine List.nodup_cons.mpr ⟨fun hmem => ?_, h.addresses⟩
    obtain ⟨node, hnode, haddress⟩ := List.mem_map.mp hmem
    exact Nat.ne_of_lt (h.fresh node hnode) haddress
  fresh := by
    intro node hnode
    rcases List.mem_cons.mp hnode with rfl | hnode
    · exact Nat.lt_succ_self _
    · exact Nat.lt_succ_of_lt (h.fresh node hnode)
  keys := by
    refine List.nodup_cons.mpr ⟨fun hmem => ?_, h.keys⟩
    obtain ⟨node, hnode, hkey⟩ := List.mem_map.mp hmem
    exact h.notMem_of_lookup hnone hnode hkey
  points := by
    intro other it
    change (c.map.insert key c.next).lookup other = some it ↔
      ∃ node ∈ ⟨c.next, key, value⟩ :: c.list, node.key = other ∧ node.address = it
    by_cases hother : other = key
    · subst hother
      rw [AList.lookup_insert, Option.some.injEq]
      constructor
      · intro heq
        exact ⟨_, List.mem_cons_self, rfl, heq⟩
      · rintro ⟨node, hnode, hkey, haddress⟩
        rcases List.mem_cons.mp hnode with rfl | hnode
        · exact haddress
        · exact absurd hkey (h.notMem_of_lookup hnone hnode)
    · rw [AList.lookup_insert_ne hother, h.points other it]
      constructor
      · rintro ⟨node, hnode, hnode'⟩
        exact ⟨node, List.mem_cons_of_mem _ hnode, hnode'⟩
      · rintro ⟨node, hnode, hkey, haddress⟩
        rcases List.mem_cons.mp hnode with rfl | hnode
        · exact absurd hkey.symm hother
        · exact ⟨node, hnode, hkey, haddress⟩

/-- The last node goes, and its key. -/
theorem removeLast {front : List (CacheNode κ ν)} {last : CacheNode κ ν} (h : c.InStep)
    (hlist : c.list = front ++ [last]) :
    c.removeLast = ({ c with map := c.map.erase last.key, list := front }, [last.key]) ∧
      c.removeLast.1.InStep := by
  have hrun : c.removeLast = ({ c with map := c.map.erase last.key, list := front },
      [last.key]) := by
    simp [CacheNodes.removeLast, hlist]
  have hothers : ∀ node ∈ front, node.key ≠ last.key := by
    intro node hnode heq
    have hkeys := h.keys
    rw [hlist, List.map_append, List.map_singleton, List.nodup_append] at hkeys
    exact hkeys.2.2 node.key (List.mem_map_of_mem hnode) last.key List.mem_cons_self heq
  have hfilter : front = c.list.filter fun node => node.key ≠ last.key := by
    rw [hlist, List.filter_append, List.filter_singleton, List.filter_eq_self.mpr]
    · simp
    · intro node hnode
      exact decide_eq_true (hothers node hnode)
  refine ⟨hrun, ?_⟩
  rw [hrun]
  exact h.of_filter rfl hfilter (AList.lookup_erase _ _) fun _ hne => AList.lookup_erase_ne hne

/-- The loop of `removeNumOfKeys` takes the last nodes, one after the other. -/
theorem removeLoop {num : Nat} :
    ∀ {c : CacheNodes κ ν}, c.InStep → num ≤ c.list.length →
      (removeNumOfKeys.loop num c).1.InStep ∧
      (removeNumOfKeys.loop num c).1.list = c.list.take (c.list.length - num) ∧
      (removeNumOfKeys.loop num c).1.maxSize = c.maxSize ∧
      (removeNumOfKeys.loop num c).2 =
        ((c.list.drop (c.list.length - num)).map CacheNode.key).reverse := by
  induction num with
  | zero =>
      intro c h hnum
      simp [removeNumOfKeys.loop, h]
  | succ num ih =>
      intro c h hnum
      rcases List.eq_nil_or_concat c.list with hnil | ⟨front, last, hlist⟩
      · rw [hnil] at hnum
        cases hnum
      rw [List.concat_eq_append] at hlist
      obtain ⟨hrun, hstep⟩ := h.removeLast hlist
      have hlength : c.list.length = front.length + 1 := by simp [hlist]
      rw [hrun] at hstep
      obtain ⟨hin, hkept, hmax, hremoved⟩ := ih hstep (show num ≤ front.length by omega)
      have hleft : c.list.length - (num + 1) = front.length - num := by omega
      simp only [removeNumOfKeys.loop, hrun]
      refine ⟨hin, ?_, hmax, ?_⟩
      · rw [hkept, hleft, hlist, List.take_append_of_le_length (Nat.sub_le _ _)]
      · rw [hremoved, hleft, hlist, List.drop_append_of_le_length (Nat.sub_le _ _)]
        simp

/-- `removeNumOfKeys` takes the oldest entries of the list. -/
theorem removeNumOfKeys (h : c.InStep) (num : Nat) :
    (c.removeNumOfKeys num).1.InStep ∧
      (c.removeNumOfKeys num).1.toLRUCache = (c.toLRUCache.removeNumOfKeys num).1 ∧
      (c.removeNumOfKeys num).2 = (c.toLRUCache.removeNumOfKeys num).2 := by
  have hbound : (if num > c.size then c.size else num) ≤ c.list.length := by
    rw [h.size_eq]
    split
    · exact Nat.le_refl _
    · omega
  have hleft : c.list.length - (if num > c.size then c.size else num) = c.list.length - num := by
    rw [h.size_eq]
    split
    · omega
    · rfl
  obtain ⟨hin, hkept, hmax, hremoved⟩ := removeLoop h hbound
  rw [hleft] at hkept hremoved
  refine ⟨hin, ?_, ?_⟩
  · unfold CacheNodes.removeNumOfKeys
    simp only [toLRUCache, LRUCache.removeNumOfKeys, hkept, hmax, List.length_map, List.map_take]
  · unfold CacheNodes.removeNumOfKeys
    simp only [hremoved, LRUCache.removeNumOfKeys, toLRUCache, List.length_map, ← List.map_drop,
      List.map_map]
    rfl

/-- `adjustSize` takes what does not fit. -/
theorem adjustSize (h : c.InStep) (newSize : Nat) :
    (c.adjustSize newSize).1.InStep ∧
      (c.adjustSize newSize).1.toLRUCache = (c.toLRUCache.adjustSize newSize).1 ∧
      (c.adjustSize newSize).2 = (c.toLRUCache.adjustSize newSize).2 := by
  have hsize : c.toLRUCache.size = c.size := by
    rw [h.size_eq]
    exact List.length_map ..
  obtain ⟨hin, hcache, hkeys⟩ := h.removeNumOfKeys (c.size - newSize)
  have hset : ∀ {c' : CacheNodes κ ν}, c'.InStep → ({ c' with maxSize := newSize } :
      CacheNodes κ ν).InStep := fun h => ⟨h.addresses, h.fresh, h.keys, h.points⟩
  have hright : c.toLRUCache.adjustSize newSize =
      ({ (c.toLRUCache.removeNumOfKeys (c.size - newSize)).1 with maxSize := newSize },
        (c.toLRUCache.removeNumOfKeys (c.size - newSize)).2) := by
    rw [← hsize]
    rfl
  by_cases hfits : newSize < c.size
  · have hleft : c.adjustSize newSize =
        ({ (c.removeNumOfKeys (c.size - newSize)).1 with maxSize := newSize },
          (c.removeNumOfKeys (c.size - newSize)).2) := by
      unfold CacheNodes.adjustSize
      rw [if_pos hfits]
    rw [hleft, hright, ← hcache]
    exact ⟨hset hin, rfl, hkeys⟩
  · have hleft : c.adjustSize newSize = ({ c with maxSize := newSize }, []) := by
      unfold CacheNodes.adjustSize
      rw [if_neg hfits]
    rw [hleft, hright, Nat.sub_eq_zero_of_le (Nat.le_of_not_lt hfits)]
    refine ⟨hset h, ?_, ?_⟩
    · simp [LRUCache.removeNumOfKeys, toLRUCache]
    · simp [LRUCache.removeNumOfKeys]

/-- `deleteObject` takes the entry of the key. -/
theorem toLRUCache_deleteObject (h : c.InStep) (key : κ) :
    (c.deleteObject key).toLRUCache = c.toLRUCache.deleteObject key := by
  simp only [toLRUCache, LRUCache.deleteObject, h.list_deleteObject, maxSize_deleteObject,
    List.filter_map, Function.comp_def]

theorem toLRUCache_pushFront (c : CacheNodes κ ν) (key : κ) (value : ν) :
    (c.pushFront key value).toLRUCache =
      { c.toLRUCache with items := (key, value) :: c.toLRUCache.items } := rfl

/-- `put` makes the key the most recent one. -/
theorem put (h : c.InStep) (key : κ) (value : ν) :
    (c.put key value).1.InStep ∧
      (c.put key value).1.toLRUCache = (c.toLRUCache.put key value).1 ∧
      (c.put key value).2 = (c.toLRUCache.put key value).2 := by
  have hfront := (h.deleteObject key).pushFront (lookup_deleteObject c key) value
  have hleft : c.put key value =
      if ((c.deleteObject key).pushFront key value).size >
          ((c.deleteObject key).pushFront key value).maxSize
      then ((c.deleteObject key).pushFront key value).removeLast
      else ((c.deleteObject key).pushFront key value, []) := rfl
  have hright : c.toLRUCache.put key value =
      if ((c.deleteObject key).pushFront key value).toLRUCache.size >
          ((c.deleteObject key).pushFront key value).toLRUCache.maxSize
      then ((c.deleteObject key).pushFront key value).toLRUCache.removeNumOfKeys 1
      else (((c.deleteObject key).pushFront key value).toLRUCache, []) := by
    rw [toLRUCache_pushFront, h.toLRUCache_deleteObject]
    rfl
  generalize (c.deleteObject key).pushFront key value = pushed at *
  have hsize : pushed.toLRUCache.size = pushed.size := by
    rw [hfront.size_eq]
    exact List.length_map ..
  rw [hleft, hright, hsize]
  by_cases hfull : pushed.size > pushed.maxSize
  · rw [if_pos hfull, if_pos (show pushed.size > pushed.toLRUCache.maxSize from hfull)]
    -- one key too many is what `removeNumOfKeys` removes
    have hpos : ¬ 1 > pushed.size := by omega
    have hone : pushed.removeLast = pushed.removeNumOfKeys 1 := by
      rw [CacheNodes.removeNumOfKeys, if_neg hpos]
      simp [removeNumOfKeys.loop]
    rw [hone]
    exact hfront.removeNumOfKeys 1
  · rw [if_neg hfull, if_neg (show ¬ pushed.size > pushed.toLRUCache.maxSize from hfull)]
    exact ⟨hfront, rfl, rfl⟩

end InStep

omit [DecidableEq κ] in
/-- Where no two nodes share a label, one node alone has the label it has. -/
theorem filter_label {β : Type} [DecidableEq β] {list : List (CacheNode κ ν)}
    {label : CacheNode κ ν → β} {node : CacheNode κ ν} (hlabels : (list.map label).Nodup)
    (hnode : node ∈ list) : list.filter (fun n => label n = label node) = [node] := by
  induction list with
  | nil => cases hnode
  | cons first rest ih =>
      rw [List.map_cons, List.nodup_cons] at hlabels
      rcases List.mem_cons.mp hnode with rfl | hrest
      · rw [List.filter_cons_of_pos (by simp), List.filter_eq_nil_iff.mpr]
        intro n hn heq
        exact hlabels.1 (of_decide_eq_true heq ▸ List.mem_map_of_mem hn)
      · rw [List.filter_cons_of_neg, ih hlabels.2 hrest]
        intro heq
        exact hlabels.1 (of_decide_eq_true heq ▸ List.mem_map_of_mem hrest)

namespace InStep

variable {c : CacheNodes κ ν} {key : κ} {it : Nat}

omit [DecidableEq κ] in
/-- A node that is spliced stands before those it stood among. -/
theorem splice_perm (c : CacheNodes κ ν) (it : Nat) : (splice c.list it).Perm c.list := by
  unfold splice
  simp only [ne_eq, decide_not]
  exact List.filter_append_perm _ _

theorem splice_list (h : c.InStep) {node : CacheNode κ ν} (hnode : node ∈ c.list) :
    splice c.list node.address = node :: c.list.filter fun n => n.key ≠ node.key := by
  have hit : c.map.lookup node.key = some node.address :=
    (h.points _ _).mpr ⟨node, hnode, rfl, rfl⟩
  unfold splice
  rw [filter_label h.addresses hnode, List.singleton_append, List.cons_inj_right]
  apply List.filter_congr
  intro n hn
  simp only [ne_eq, h.address_iff hit hn]

/-- `get` makes a key that it finds the most recent one. -/
theorem get (h : c.InStep) (key : κ) :
    (c.get key).1.InStep ∧
      (c.get key).1.toLRUCache = (c.toLRUCache.get key).1 ∧
      (c.get key).2 = (c.toLRUCache.get key).2 := by
  have hfind : c.toLRUCache.items.find? (fun item => item.1 = key) =
      (c.list.filter fun node => node.key = key).head?.map fun node => (node.key, node.value) := by
    rw [List.head?_filter, toLRUCache, List.find?_map]
    rfl
  unfold CacheNodes.get LRUCache.get
  rw [hfind]
  cases hit : c.map.lookup key with
  | none =>
      rw [List.filter_eq_nil_iff.mpr]
      · exact ⟨h, rfl, rfl⟩
      · intro node hnode heq
        exact h.notMem_of_lookup hit hnode (of_decide_eq_true heq)
  | some it =>
      obtain ⟨node, hnode, rfl, rfl⟩ := (h.points key it).mp hit
      have hperm := splice_perm c node.address
      rw [filter_label h.keys hnode]
      refine ⟨⟨?_, ?_, ?_, ?_⟩, ?_, rfl⟩
      · exact (hperm.map _).nodup_iff.mpr h.addresses
      · intro n hn
        exact h.fresh n (hperm.mem_iff.mp hn)
      · exact (hperm.map _).nodup_iff.mpr h.keys
      · intro other it
        rw [h.points other it]
        constructor
        · rintro ⟨n, hn, hlabels⟩
          exact ⟨n, hperm.mem_iff.mpr hn, hlabels⟩
        · rintro ⟨n, hn, hlabels⟩
          exact ⟨n, hperm.mem_iff.mp hn, hlabels⟩
      · simp only [toLRUCache, h.splice_list hnode, List.map_cons, List.filter_map]
        rfl

end InStep

end CacheNodes

end Gopherwood
