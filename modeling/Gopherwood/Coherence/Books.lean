/-
# The lists of a handle

A handle keeps the buckets it holds in three lists. Each list has exactly the
buckets that the handle holds for its purpose, each once, so a bucket that the
handle holds is in one place of one list.
-/

import Gopherwood.Core.FileActiveStatus
import Gopherwood.Segment.Roles

namespace Gopherwood

def Hold.file : Hold → FileId
  | .spare f => f
  | .loading f _ => f
  | .cached f _ => f

/-- A block as it is kept in the preallocated and in the loading list. -/
def Block.IsHeld (y : Block) : Prop := y.isLocal = true ∧ y.state = .active

/-- The preallocated list holds the spare buckets. -/
structure Spares (hold : Nat → Option Hold) (f : FileId) (blocks : List Block) (ids : List Nat) :
    Prop where
  listed : blocks.map Block.bucketId = ids.map some
  nodup : ids.Nodup
  mem : ∀ b, b ∈ ids ↔ hold b = some (.spare f)
  held : ∀ y ∈ blocks, y.IsHeld

/-- The loading list holds the buckets that are loaded into, with their blocks. -/
structure Loads (hold : Nat → Option Hold) (f : FileId) (blocks : List Block)
    (entries : List (Nat × Nat)) : Prop where
  listed : (blocks.map fun y => (y.bucketId, y.blockId)) =
    entries.map fun e => (some e.1, some e.2)
  nodup : (entries.map Prod.snd).Nodup
  mem : ∀ b i, (b, i) ∈ entries ↔ hold b = some (.loading f i)
  held : ∀ y ∈ blocks, y.IsHeld

/-- The cache has the active blocks, with their buckets. It is the list from which the
oldest blocks are given up. -/
structure Caches (hold : Nat → Option Hold) (f : FileId) (cache : LRUCache Nat (Option Nat)) :
    Prop where
  nodup : cache.keys.Nodup
  mem : ∀ i v, (i, v) ∈ cache.items ↔ ∃ b, v = some b ∧ hold b = some (.cached f i)

/-- What a handle of file `f` holds is in its lists: a bucket that the segment keeps for the
handle is in one of the three. A handle that forgot one could not give it back when it
closes. -/
structure Books (hold : Nat → Option Hold) (f : FileId) (h : FileActiveStatus) : Prop where
  spares : ∃ ids, Spares hold f h.preAllocatedBuckets ids
  loads : ∃ entries, Loads hold f h.loadingBuckets entries
  caches : Caches hold f h.lruCache
  file : ∀ b x, hold b = some x → x.file = f

/-- Only the lists matter. -/
theorem Books.congr {hold : Nat → Option Hold} {f : FileId} {h h' : FileActiveStatus}
    (hh : Books hold f h) (hspares : h'.preAllocatedBuckets = h.preAllocatedBuckets)
    (hloads : h'.loadingBuckets = h.loadingBuckets) (hcache : h'.lruCache = h.lruCache) :
    Books hold f h' :=
  ⟨hspares ▸ hh.spares, hloads ▸ hh.loads, hcache ▸ hh.caches, hh.file⟩

section

variable {hold hold' : Nat → Option Hold} {f : FileId} {blocks : List Block} {b i : Nat} {y : Block}
variable {cache : LRUCache Nat (Option Nat)}

namespace Spares

variable {ids : List Nat}

theorem congr (h : Spares hold f blocks ids)
    (hhold : ∀ b, hold' b = some (.spare f) ↔ hold b = some (.spare f)) :
    Spares hold' f blocks ids :=
  ⟨h.listed, h.nodup, fun b => (h.mem b).trans (hhold b).symm, h.held⟩

/-- More buckets are acquired. -/
theorem append {new : List Nat} (h : Spares hold f blocks ids) (hnew : new.Nodup)
    (hold₀ : ∀ b ∈ new, hold b = none)
    (hhold : ∀ b, hold' b = if b ∈ new then some (.spare f) else hold b) :
    Spares hold' f (blocks ++ new.map fun b => FileActiveStatus.newBlock (some b)) (ids ++
    new) := by
  refine ⟨?_, ?_, fun b => ?_, fun y hy => ?_⟩
  · rw [List.map_append, List.map_append, h.listed, List.map_map]
    rfl
  · refine List.nodup_append.mpr ⟨h.nodup, hnew, ?_⟩
    rintro b hb c hc rfl
    have := (h.mem b).mp hb
    rw [hold₀ b hc] at this
    cases this
  · rw [List.mem_append, hhold]
    by_cases hb : b ∈ new
    · simp [hb]
    · rw [if_neg hb, ← h.mem b]
      simp [hb]
  · rcases List.mem_append.mp hy with hy | hy
    · exact h.held y hy
    · obtain ⟨b, -, rfl⟩ := List.mem_map.mp hy
      exact ⟨rfl, rfl⟩

/-- The first bucket is used. -/
theorem tail {front : Block} {rest : List Block} (h : Spares hold f (front :: rest) ids) :
    ∃ b ids', front.bucketId = some b ∧ ids = b :: ids' ∧ hold b = some (.spare f) ∧
      ∀ hold', (∀ c, hold' c = some (.spare f) ↔ c ≠ b ∧ hold c = some (.spare f)) →
        Spares hold' f rest ids' := by
  cases ids with
  | nil => cases h.listed
  | cons b ids' =>
      have hids := h.listed
      simp only [List.map_cons, List.cons.injEq] at hids
      obtain ⟨hb, hnodup⟩ := List.nodup_cons.mp h.nodup
      refine ⟨b, ids', hids.1, rfl, (h.mem b).mp List.mem_cons_self, fun hold' hhold => ?_⟩
      refine ⟨hids.2, hnodup, fun c => ?_, fun y hy => h.held y (List.mem_cons_of_mem _ hy)⟩
      rw [hhold c, ← h.mem c, List.mem_cons]
      constructor
      · intro hc
        exact ⟨fun heq => hb (heq ▸ hc), Or.inr hc⟩
      · rintro ⟨hne, rfl | hc⟩
        · exact absurd rfl hne
        · exact hc

/-- The last bucket is given back. -/
theorem dropLast {last : Block} (h : Spares hold f blocks ids) (hlast :
    blocks.getLast? = some last) :
    ∃ b ids', last.bucketId = some b ∧ hold b = some (.spare f) ∧
      ∀ hold', (∀ c, hold' c = some (.spare f) ↔ c ≠ b ∧ hold c = some (.spare f)) →
        Spares hold' f blocks.dropLast ids' := by
  obtain ⟨front, rfl⟩ : ∃ front, blocks = front ++ [last] := by
    refine ⟨blocks.dropLast, ?_⟩
    have hne : blocks ≠ [] := by
      rintro rfl
      cases hlast
    rw [List.getLast?_eq_some_getLast hne] at hlast
    cases hlast
    exact (List.dropLast_append_getLast hne).symm
  have hids := h.listed
  rw [List.map_append, List.map_singleton] at hids
  obtain ⟨ids', tail, rfl, hfront, htail⟩ := List.map_eq_append_iff.mp hids.symm
  obtain ⟨b, rfl, hb⟩ : ∃ b, tail = [b] ∧ last.bucketId = some b := by
    cases tail with
    | nil => cases htail
    | cons b rest =>
        simp only [List.map_cons, List.cons.injEq, List.map_eq_nil_iff] at htail
        exact ⟨b, by rw [htail.2], htail.1.symm⟩
  have hnodup := List.nodup_append.mp h.nodup
  refine ⟨b, ids', hb, (h.mem b).mp (by simp), fun hold' hhold => ?_⟩
  rw [List.dropLast_concat]
  refine ⟨hfront.symm, hnodup.1, fun c => ?_, fun y hy => h.held y (by simp [hy])⟩
  rw [hhold c, ← h.mem c, List.mem_append, List.mem_singleton]
  constructor
  · intro hc
    exact ⟨hnodup.2.2 c hc b (by simp), Or.inl hc⟩
  · rintro ⟨hne, hc | rfl⟩
    · exact hc
    · exact absurd rfl hne

/-- A bucket comes back to the front. -/
theorem cons (h : Spares hold f blocks ids) (hb : y.bucketId = some b) (hy : y.IsHeld)
    (hhold : ∀ c, hold' c = some (.spare f) ↔ c = b ∨ hold c = some (.spare f))
    (hnot : hold b ≠ some (.spare f)) : Spares hold' f (y :: blocks) (b :: ids) := by
  refine ⟨by rw [List.map_cons, List.map_cons, hb, h.listed], ?_, fun c => ?_, fun z hz => ?_⟩
  · exact List.nodup_cons.mpr ⟨fun hmem => hnot ((h.mem b).mp hmem), h.nodup⟩
  · rw [hhold c, ← h.mem c, List.mem_cons]
  · rcases List.mem_cons.mp hz with rfl | hz
    · exact hy
    · exact h.held z hz

end Spares

namespace Loads

variable {entries : List (Nat × Nat)}

theorem congr (h : Loads hold f blocks entries)
    (hhold : ∀ b i, hold' b = some (.loading f i) ↔ hold b = some (.loading f i)) :
    Loads hold' f blocks entries :=
  ⟨h.listed, h.nodup, fun b i => (h.mem b i).trans (hhold b i).symm, h.held⟩

theorem entry (h : Loads hold f blocks entries) (hy : y ∈ blocks) :
    ∃ b i, y.bucketId = some b ∧ y.blockId = some i ∧ (b, i) ∈ entries := by
  have hmem : (y.bucketId, y.blockId) ∈ blocks.map fun y => (y.bucketId, y.blockId) :=
    List.mem_map_of_mem hy
  rw [h.listed] at hmem
  obtain ⟨e, he, heq⟩ := List.mem_map.mp hmem
  simp only [Prod.mk.injEq] at heq
  exact ⟨e.1, e.2, heq.1.symm, heq.2.symm, he⟩

/-- A load of a new block starts. -/
theorem append (h : Loads hold f blocks entries) (hb : y.bucketId = some b)
    (hi : y.blockId = some i)
    (hy : y.IsHeld) (hnew : i ∉ entries.map Prod.snd)
    (hhold : ∀ c j, hold' c = some (.loading f j) ↔ (c = b ∧ j = i) ∨
    hold c = some (.loading f j)) :
    Loads hold' f (blocks ++ [y]) (entries ++ [(b, i)]) := by
  refine ⟨?_, ?_, fun c j => ?_, fun z hz => ?_⟩
  · rw [List.map_append, List.map_append, h.listed, List.map_singleton, List.map_singleton, hb, hi]
  · rw [List.map_append, List.map_singleton]
    refine List.nodup_append.mpr ⟨h.nodup, by simp, ?_⟩
    rintro j hj k hk rfl
    have hji : j = i := List.mem_singleton.mp hk
    exact hnew (hji ▸ hj)
  · rw [hhold c j, ← h.mem c j, List.mem_append, List.mem_singleton, Prod.mk.injEq]
    exact or_comm
  · rcases List.mem_append.mp hz with hz | hz
    · exact h.held z hz
    · rw [List.mem_singleton.mp hz]
      exact hy

/-- A load ends. -/
theorem erase (h : Loads hold f blocks entries)
    (hfind : (blocks.find? fun z => z.blockId = some i) = some y) :
    ∃ b, y.bucketId = some b ∧ y.blockId = some i ∧ y.IsHeld ∧ hold b = some (.loading f i) ∧
      ∀ hold', (∀ c j, hold' c = some (.loading f j) ↔ c ≠ b ∧ hold c = some (.loading f j)) →
        ∃ entries', Loads hold' f (blocks.eraseP fun z => z.blockId = some i) entries' := by
  have hid : y.blockId = some i := by simpa using List.find?_some hfind
  have hmem := List.mem_of_find?_eq_some hfind
  obtain ⟨b, j, hb, hj, he⟩ := h.entry hmem
  obtain rfl : i = j := Option.some.inj (hid.symm.trans hj)
  refine ⟨b, hb, hid, h.held y hmem, (h.mem b i).mp he, fun hold' hhold => ?_⟩
  -- the entry of the block goes, and it was the only one with its bucket or its number
  refine ⟨entries.eraseP fun e => e.2 = i, ?_, ?_, fun c k => ?_, fun z hz => ?_⟩
  · have hgen : ∀ (blocks : List Block) (entries : List (Nat × Nat)),
        (blocks.map fun y => (y.bucketId, y.blockId)) =
        entries.map (fun e => (some e.1, some e.2)) →
        ((blocks.eraseP fun z => z.blockId = some i).map fun y => (y.bucketId, y.blockId)) =
          (entries.eraseP fun e => e.2 = i).map fun e => (some e.1, some e.2) := by
      intro blocks
      induction blocks with
      | nil =>
          intro entries heq
          obtain rfl : entries = [] := by simpa using heq.symm
          rfl
      | cons z rest ih =>
          intro entries heq
          cases entries with
          | nil => cases heq
          | cons e es =>
              simp only [List.map_cons, List.cons.injEq, Prod.mk.injEq] at heq
              by_cases hei : e.2 = i
              · rw [List.eraseP_cons_of_pos (by simp [heq.1.2, hei]),
                  List.eraseP_cons_of_pos (by simp [hei])]
                exact heq.2
              · rw [List.eraseP_cons_of_neg (by simp [heq.1.2, hei]),
                  List.eraseP_cons_of_neg (by simp [hei]), List.map_cons, List.map_cons,
                  ih es heq.2, heq.1.1, heq.1.2]
    exact hgen blocks entries h.listed
  · exact h.nodup.sublist (List.eraseP_sublist.map _)
  · rw [hhold c k, ← h.mem c k]
    have honly : ∀ c k, (c, k) ∈ entries → (c = b ↔ k = i) := by
      intro c k hck
      constructor
      · rintro rfl
        have hhold := (h.mem c k).mp hck
        rw [(h.mem c i).mp he] at hhold
        cases hhold
        rfl
      · rintro rfl
        have := List.inj_on_of_nodup_map h.nodup hck he rfl
        exact congrArg Prod.fst this
    constructor
    · intro hck
      have hck' := List.mem_of_mem_eraseP hck
      refine ⟨fun hcb => ?_, hck'⟩
      have hki := (honly c k hck').mp hcb
      -- the number occurs once, and its occurrence was erased
      have hnodup : ((entries.eraseP fun e => e.2 = i).map Prod.snd).Nodup :=
        h.nodup.sublist (List.eraseP_sublist.map _)
      have hnot : ∀ e ∈ entries.eraseP fun e => e.2 = i, e.2 ≠ i := by
        obtain ⟨e₀, l₁, l₂, hl₁, he₀, hentries, herased⟩ :=
          List.exists_of_eraseP (p := fun e => decide (e.2 = i)) he (decide_eq_true rfl)
        intro e hmem heq
        rw [herased] at hmem
        rcases List.mem_append.mp hmem with hmem | hmem
        · exact hl₁ e hmem (by simpa using heq)
        · have hnd := h.nodup
          rw [hentries, List.map_append, List.map_cons] at hnd
          have hlast := (List.nodup_append.mp hnd).2.1
          have he₀ : e₀.2 = i := by simpa using he₀
          exact (List.nodup_cons.mp hlast).1 (List.mem_map.mpr ⟨e, hmem, heq.trans he₀.symm⟩)
      exact hnot _ hck hki
    · rintro ⟨hcb, hck⟩
      have hki : k ≠ i := fun hki => hcb ((honly c k hck).mpr hki)
      exact (List.mem_eraseP_of_neg (by simpa using hki)).mpr hck
  · exact h.held z (List.mem_of_mem_eraseP hz)

/-- The block that is loaded into a bucket is found in the list. -/
theorem find (h : Loads hold f blocks entries) (hb : hold b = some (.loading f i)) :
    ∃ y, (blocks.find? fun z => z.blockId = some i) = some y ∧ y.bucketId = some b ∧
      y.blockId = some i ∧ y.IsHeld := by
  have hmem : (some b, some i) ∈ entries.map fun e => (some e.1, some e.2) :=
    List.mem_map.mpr ⟨(b, i), (h.mem b i).mpr hb, rfl⟩
  rw [← h.listed] at hmem
  obtain ⟨z, hz, heq⟩ := List.mem_map.mp hmem
  simp only [Prod.mk.injEq] at heq
  have hsome : (blocks.find? fun z => z.blockId = some i).isSome = true :=
    List.find?_isSome.mpr ⟨z, hz, by simpa using heq.2⟩
  obtain ⟨y, hy⟩ := Option.isSome_iff_exists.mp hsome
  have hid : y.blockId = some i := by simpa using List.find?_some hy
  obtain ⟨b', j, hb', hj, he⟩ := h.entry (List.mem_of_find?_eq_some hy)
  obtain rfl : i = j := Option.some.inj (hid.symm.trans hj)
  -- the number is listed once
  have hsame := List.inj_on_of_nodup_map h.nodup he ((h.mem b i).mpr hb) rfl
  obtain rfl : b' = b := congrArg Prod.fst hsame
  exact ⟨y, hy, hb', hid, h.held y (List.mem_of_find?_eq_some hy)⟩

/-- No block is listed twice. -/
theorem nodup_blockId (h : Loads hold f blocks entries) : (blocks.map Block.blockId).Nodup := by
  have hids : blocks.map Block.blockId = entries.map fun e => some e.2 := by
    simpa only [List.map_map, Function.comp_def] using congrArg (List.map Prod.snd) h.listed
  rw [hids, show (fun e : Nat × Nat => some e.2) = some ∘ Prod.snd from rfl, ← List.map_map]
  exact h.nodup.map (Option.some_injective Nat)

theorem isLoading_iff (h : Loads hold f blocks entries) :
    (blocks.any fun y => y.blockId = some i) = true ↔ i ∈ entries.map Prod.snd := by
  rw [List.any_eq_true]
  constructor
  · rintro ⟨y, hy, hid⟩
    obtain ⟨b, j, -, hj, he⟩ := h.entry hy
    have hid : y.blockId = some i := by simpa using hid
    obtain rfl : i = j := Option.some.inj (hid.symm.trans hj)
    exact List.mem_map.mpr ⟨_, he, rfl⟩
  · intro hi
    obtain ⟨e, he, rfl⟩ := List.mem_map.mp hi
    have hmem : (some e.1, some e.2) ∈ entries.map fun e => (some e.1, some e.2) :=
      List.mem_map.mpr ⟨e, he, rfl⟩
    rw [← h.listed] at hmem
    obtain ⟨y, hy, heq⟩ := List.mem_map.mp hmem
    simp only [Prod.mk.injEq] at heq
    exact ⟨y, hy, by simpa using heq.2⟩

end Loads

namespace Caches

theorem congr (h : Caches hold f cache)
    (hhold : ∀ b i, hold' b = some (.cached f i) ↔ hold b = some (.cached f i)) :
    Caches hold' f cache :=
  ⟨h.nodup, fun i v => (h.mem i v).trans (by simp [hhold])⟩

/-- A new block is put. -/
theorem put (h : Caches hold f cache) (hroom : cache.size < cache.maxSize) (hnew : i ∉ cache.keys)
    (hhold : ∀ c j, hold' c = some (.cached f j) ↔ (c = b ∧ j = i) ∨ hold c = some (.cached f j)) :
    Caches hold' f (cache.put i (some b)).1 := by
  have hfilter : (cache.items.filter fun item => item.1 ≠ i) = cache.items := by
    rw [List.filter_eq_self]
    intro item hitem
    have hne : item.1 ≠ i := fun heq => hnew (heq ▸ List.mem_map_of_mem hitem)
    simpa using hne
  have hput : (cache.put i (some b)).1.items = (i, some b) :: cache.items := by
    have hfit : ¬ cache.items.length + 1 > cache.maxSize := by
      unfold LRUCache.size at hroom
      omega
    simp only [LRUCache.put, LRUCache.size, hfilter, List.length_cons, hfit, if_false]
  refine ⟨?_, fun j v => ?_⟩
  · rw [LRUCache.keys, hput, List.map_cons]
    exact List.nodup_cons.mpr ⟨hnew, h.nodup⟩
  · rw [hput, List.mem_cons, h.mem j v, Prod.mk.injEq]
    constructor
    · rintro (⟨rfl, rfl⟩ | ⟨c, rfl, hc⟩)
      · exact ⟨b, rfl, (hhold b j).mpr (Or.inl ⟨rfl, rfl⟩)⟩
      · exact ⟨c, rfl, (hhold c j).mpr (Or.inr hc)⟩
    · rintro ⟨c, rfl, hc⟩
      rcases (hhold c j).mp hc with ⟨rfl, rfl⟩ | hc
      · exact Or.inl ⟨rfl, rfl⟩
      · exact Or.inr ⟨c, rfl, hc⟩

/-- The oldest blocks are taken out. -/
theorem removeNumOfKeys (h : Caches hold f cache) (num : Nat) :
    (cache.removeNumOfKeys num).2.Nodup ∧
      (∀ k ∈ (cache.removeNumOfKeys num).2, ∃ b, hold b = some (.cached f k)) ∧
      ∀ hold', (∀ c j, hold' c = some (.cached f j) ↔
          hold c = some (.cached f j) ∧ j ∉ (cache.removeNumOfKeys num).2) →
        Caches hold' f (cache.removeNumOfKeys num).1 := by
  unfold LRUCache.removeNumOfKeys
  generalize cache.items.length - num = keep
  dsimp only
  have hsplit := List.take_append_drop keep cache.items
  have hnodup := h.nodup
  rw [LRUCache.keys, ← hsplit, List.map_append] at hnodup
  obtain ⟨hfirst, hrest, hdisjoint⟩ := List.nodup_append.mp hnodup
  refine ⟨List.nodup_reverse.mpr hrest, fun k hk => ?_, fun hold' hhold => ⟨hfirst, fun j v => ?_⟩⟩
  · obtain ⟨⟨j, v⟩, hitem, rfl⟩ := List.mem_map.mp (List.mem_reverse.mp hk)
    obtain ⟨b, -, hb⟩ := (h.mem j v).mp (List.mem_of_mem_drop hitem)
    exact ⟨b, hb⟩
  · constructor
    · intro hitem
      obtain ⟨b, rfl, hb⟩ := (h.mem j v).mp (List.mem_of_mem_take hitem)
      refine ⟨b, rfl, (hhold b j).mpr ⟨hb, fun hin => ?_⟩⟩
      exact hdisjoint j (List.mem_map_of_mem hitem) j (List.mem_reverse.mp hin) rfl
    · rintro ⟨b, rfl, hb⟩
      obtain ⟨hb, hout⟩ := (hhold b j).mp hb
      have hitem := (h.mem j (some b)).mpr ⟨b, rfl, hb⟩
      rw [← hsplit, List.mem_append] at hitem
      refine hitem.resolve_right fun hdrop => hout ?_
      exact List.mem_reverse.mpr (List.mem_map_of_mem hdrop)

theorem mem_keys (h : Caches hold f cache) : i ∈ cache.keys ↔ ∃ b, hold b = some (.cached f i) := by
  rw [LRUCache.keys, List.mem_map]
  constructor
  · rintro ⟨⟨j, v⟩, hmem, rfl⟩
    obtain ⟨b, -, hb⟩ := (h.mem j v).mp hmem
    exact ⟨b, hb⟩
  · rintro ⟨b, hb⟩
    exact ⟨(i, some b), (h.mem i _).mpr ⟨b, rfl, hb⟩, rfl⟩

end Caches

end

/-- The spare bucket is preallocated. -/
theorem Books.gain {hold hold' : Nat → Option Hold} {f : FileId} {b : Nat} {h h' : FileActiveStatus}
    (hbooks : Books hold f h) (hnone : hold b = none) (hself : hold' b = some (.spare f))
    (hother : ∀ c, c ≠ b → hold' c = hold c)
    (hspares : h'.preAllocatedBuckets = h.preAllocatedBuckets ++
      [FileActiveStatus.newBlock (some b)]) (hloads : h'.loadingBuckets = h.loadingBuckets)
    (hcache : h'.lruCache = h.lruCache) :
    Books hold' f h' := by
  obtain ⟨⟨spares, hs⟩, ⟨loads, hl⟩, hc, hfile⟩ := hbooks
  have hlisted : ∀ c x, (∀ g, x ≠ .spare g) → (hold' c = some x ↔ hold c = some x) := by
    intro c x hx
    by_cases hcb : c = b
    · subst hcb
      rw [hself, hnone]
      simp [Ne.symm (hx f)]
    · rw [hother c hcb]
  refine ⟨⟨spares ++ [b], ?_⟩, ⟨loads, ?_⟩, ?_, fun c x hx => ?_⟩
  · rw [hspares]
    refine hs.append (List.nodup_singleton b) (fun c hc => ?_) fun c => ?_
    · rw [List.mem_singleton.mp hc]
      exact hnone
    · by_cases hcb : c = b
      · subst hcb
        simp [hself]
      · rw [hother c hcb]
        simp [hcb]
  · rw [hloads]
    exact hl.congr fun c i => hlisted c _ (by simp)
  · rw [hcache]
    exact hc.congr fun c i => hlisted c _ (by simp)
  · by_cases hcb : c = b
    · subst hcb
      rw [hself] at hx
      cases hx
      rfl
    · rw [hother c hcb] at hx
      exact hfile c x hx

/-- One bucket is held for something else: the holds of other purposes stay. -/
theorem holds_other {hold hold' : Nat → Option Hold} {b : Nat} {x y : Hold}
    (hold₀ : hold b = some x ∨ hold b = none) (hself : hold' b = some y)
    (hother : ∀ c, c ≠ b → hold' c = hold c) {z : Hold} (hx : z ≠ x) (hy : z ≠ y) (c : Nat) :
    hold' c = some z ↔ hold c = some z := by
  by_cases hcb : c = b
  · subst hcb
    rw [hself]
    rcases hold₀ with hold₀ | hold₀
    · rw [hold₀, Option.some.injEq, Option.some.injEq]
      exact ⟨fun h => absurd h.symm hy, fun h => absurd h.symm hx⟩
    · rw [hold₀, Option.some.injEq]
      exact ⟨fun h => absurd h.symm hy, fun h => by cases h⟩
  · rw [hother c hcb]

section

variable {hold hold' : Nat → Option Hold} {f : FileId} {b i : Nat} {h h' : FileActiveStatus}
variable {front y : Block} {rest : List Block}

/-- The bucket of the file of another purpose. -/
theorem Books.file_of_update {z : Hold} (hbooks : Books hold f h) (hself : hold' b = some z)
    (hz : z.file = f) (hother : ∀ c, c ≠ b → hold' c = hold c) :
    ∀ c x, hold' c = some x → x.file = f := by
  intro c x hx
  by_cases hcb : c = b
  · subst hcb
    rw [hself] at hx
    cases hx
    exact hz
  · rw [hother c hcb] at hx
    exact hbooks.file c x hx

/-- What else than the bucket `b` is held for a purpose that only `b` changes from. -/
theorem holds_left {hold hold' : Nat → Option Hold} {b : Nat} {y : Hold} (hself : hold' b = some y)
    (hother : ∀ c, c ≠ b → hold' c = hold c) {z : Hold} (hy : z ≠ y) (c : Nat) :
    hold' c = some z ↔ c ≠ b ∧ hold c = some z := by
  by_cases hcb : c = b
  · subst hcb
    rw [hself, Option.some.injEq]
    exact ⟨fun h => absurd h.symm hy, fun h => absurd rfl h.1⟩
  · rw [hother c hcb]
    exact ⟨fun h => ⟨hcb, h⟩, fun h => h.2⟩

/-- What is held for a purpose that only `b` changes to. -/
theorem holds_more {hold hold' : Nat → Option Hold} {b : Nat} {x y : Hold}
    (hold₀ : hold b = some x ∨ hold b = none) (hself : hold' b = some y)
    (hother : ∀ c, c ≠ b → hold' c = hold c) {z : Hold} (hx : z ≠ x) (c : Nat) :
    hold' c = some z ↔ (c = b ∧ z = y) ∨ hold c = some z := by
  by_cases hcb : c = b
  · subst hcb
    rw [hself, Option.some.injEq]
    constructor
    · exact fun h => Or.inl ⟨rfl, h.symm⟩
    · rintro (⟨-, rfl⟩ | h)
      · rfl
      · rcases hold₀ with hold₀ | hold₀
        · rw [hold₀, Option.some.injEq] at h
          exact absurd h.symm hx
        · rw [hold₀] at h
          cases h
  · rw [hother c hcb]
    simp [hcb]

/-- The first preallocated bucket gets a block, which is cached. -/
theorem Books.cacheFront (hbooks : Books hold f h) (hpre : h.preAllocatedBuckets = front :: rest)
    (hb : front.bucketId = some b) (hself : hold' b = some (.cached f i))
    (hother : ∀ c, c ≠ b → hold' c = hold c) (hroom : h.lruCache.size < h.lruCache.maxSize)
    (hnew : i ∉ h.lruCache.keys) (hspares : h'.preAllocatedBuckets = rest)
    (hloads : h'.loadingBuckets = h.loadingBuckets)
    (hcache : h'.lruCache = (h.lruCache.put i (some b)).1) :
    hold b = some (.spare f) ∧ Books hold' f h' := by
  obtain ⟨⟨spares, hs⟩, ⟨loads, hl⟩, hc, -⟩ := id hbooks
  rw [hpre] at hs
  obtain ⟨b', ids, hb', -, hspare, hrest⟩ := hs.tail
  obtain rfl : b = b' := Option.some.inj (hb.symm.trans hb')
  refine ⟨hspare, ⟨ids, ?_⟩, ⟨loads, ?_⟩, ?_, hbooks.file_of_update hself rfl hother⟩
  · rw [hspares]
    exact hrest hold' fun c => holds_left hself hother (by simp) c
  · rw [hloads]
    exact hl.congr fun c j => holds_other (Or.inl hspare) hself hother (by simp) (by simp) c
  · rw [hcache]
    refine hc.put hroom hnew fun c j =>
      (holds_more (Or.inl hspare) hself hother (by simp) c).trans ?_
    simp

/-- The first preallocated bucket is loaded into. -/
theorem Books.loadFront (hbooks : Books hold f h) (hpre : h.preAllocatedBuckets = front :: rest)
    (hb : front.bucketId = some b) (hself : hold' b = some (.loading f i))
    (hother : ∀ c, c ≠ b → hold' c = hold c) (hnew : h.isBlockLoading i = false)
    (hspares : h'.preAllocatedBuckets = rest)
    (hloads : h'.loadingBuckets = h.loadingBuckets ++ [{ front with blockId := some i }])
    (hcache : h'.lruCache = h.lruCache) : hold b = some (.spare f) ∧ Books hold' f h' := by
  obtain ⟨⟨spares, hs⟩, ⟨loads, hl⟩, hc, -⟩ := id hbooks
  rw [hpre] at hs
  have hheld : front.IsHeld := hs.held front List.mem_cons_self
  obtain ⟨b', ids, hb', -, hspare, hrest⟩ := hs.tail
  obtain rfl : b = b' := Option.some.inj (hb.symm.trans hb')
  have hnot : i ∉ loads.map Prod.snd := by
    rw [← hl.isLoading_iff]
    unfold FileActiveStatus.isBlockLoading at hnew
    simp [hnew]
  refine ⟨hspare, ⟨ids, ?_⟩, ⟨loads ++ [(b, i)], ?_⟩, ?_, hbooks.file_of_update hself rfl hother⟩
  · rw [hspares]
    exact hrest hold' fun c => holds_left hself hother (by simp) c
  · rw [hloads]
    refine hl.append hb rfl hheld hnot fun c j =>
      (holds_more (Or.inl hspare) hself hother (by simp) c).trans ?_
    simp
  · rw [hcache]
    exact hc.congr fun c j => holds_other (Or.inl hspare) hself hother (by simp) (by simp) c

/-- A loaded block is cached. -/
theorem Books.cacheLoaded (hbooks : Books hold f h)
    (hfind : (h.loadingBuckets.find? fun z => z.blockId = some i) = some y)
    (hb : y.bucketId = some b) (hself : hold' b = some (.cached f i))
    (hother : ∀ c, c ≠ b → hold' c = hold c) (hroom : h.lruCache.size < h.lruCache.maxSize)
    (hnew : i ∉ h.lruCache.keys) (hspares : h'.preAllocatedBuckets = h.preAllocatedBuckets)
    (hloads : h'.loadingBuckets = h.loadingBuckets.eraseP fun z => z.blockId = some i)
    (hcache : h'.lruCache = (h.lruCache.put i (some b)).1) : Books hold' f h' := by
  obtain ⟨⟨spares, hs⟩, ⟨loads, hl⟩, hc, -⟩ := id hbooks
  obtain ⟨b', hb', -, -, hloading, hrest⟩ := hl.erase hfind
  obtain rfl : b = b' := Option.some.inj (hb.symm.trans hb')
  refine ⟨⟨spares, ?_⟩, ?_, ?_, hbooks.file_of_update hself rfl hother⟩
  · rw [hspares]
    exact hs.congr fun c => holds_other (Or.inl hloading) hself hother (by simp) (by simp) c
  · rw [hloads]
    exact hrest hold' fun c j => holds_left hself hother (by simp) c
  · rw [hcache]
    refine hc.put hroom hnew fun c j =>
      (holds_more (Or.inl hloading) hself hother (by simp) c).trans ?_
    simp

/-- The bucket of a load that failed is spare again. -/
theorem Books.loadBack (hbooks : Books hold f h)
    (hfind : (h.loadingBuckets.find? fun z => z.blockId = some i) = some y)
    (hb : y.bucketId = some b) (hself : hold' b = some (.spare f))
    (hother : ∀ c, c ≠ b → hold' c = hold c)
    (hspares : h'.preAllocatedBuckets = { y with blockId := none } :: h.preAllocatedBuckets)
    (hloads : h'.loadingBuckets = h.loadingBuckets.eraseP fun z => z.blockId = some i)
    (hcache : h'.lruCache = h.lruCache) : Books hold' f h' := by
  obtain ⟨⟨spares, hs⟩, ⟨loads, hl⟩, hc, -⟩ := id hbooks
  obtain ⟨b', hb', -, hheld, hloading, hrest⟩ := hl.erase hfind
  obtain rfl : b = b' := Option.some.inj (hb.symm.trans hb')
  refine ⟨⟨b :: spares, ?_⟩, ?_, ?_, hbooks.file_of_update hself rfl hother⟩
  · rw [hspares]
    refine hs.cons hb hheld (fun c => ?_) (by rw [hloading]; simp)
    refine (holds_more (Or.inl hloading) hself hother (by simp) c).trans ?_
    simp
  · rw [hloads]
    exact hrest hold' fun c j => holds_left hself hother (by simp) c
  · rw [hcache]
    exact hc.congr fun c j => holds_other (Or.inl hloading) hself hother (by simp) (by simp) c

/-- A block that is already in a bucket is cached. -/
theorem Books.cacheStored (hbooks : Books hold f h) (hnone : hold b = none)
    (hself : hold' b = some (.cached f i)) (hother : ∀ c, c ≠ b → hold' c = hold c)
    (hroom : h.lruCache.size < h.lruCache.maxSize) (hnew : i ∉ h.lruCache.keys)
    (hspares : h'.preAllocatedBuckets = h.preAllocatedBuckets)
    (hloads : h'.loadingBuckets = h.loadingBuckets)
    (hcache : h'.lruCache = (h.lruCache.put i (some b)).1) : Books hold' f h' := by
  obtain ⟨⟨spares, hs⟩, ⟨loads, hl⟩, hc, -⟩ := id hbooks
  have hsame : ∀ z, z ≠ .cached f i → ∀ c, hold' c = some z ↔ hold c = some z := fun z hz =>
    holds_other (x := .cached f i) (Or.inr hnone) hself hother hz hz
  refine ⟨⟨spares, ?_⟩, ⟨loads, ?_⟩, ?_, hbooks.file_of_update hself rfl hother⟩
  · rw [hspares]
    exact hs.congr fun c => hsame _ (by simp) c
  · rw [hloads]
    exact hl.congr fun c j => hsame _ (by simp) c
  · rw [hcache]
    refine hc.put hroom hnew fun c j => ?_
    refine (holds_more (x := .spare f) (Or.inr hnone) hself hother (by simp) c).trans ?_
    simp

end

end Gopherwood
