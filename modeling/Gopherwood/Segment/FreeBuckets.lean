/-
# Taking and giving back free buckets

`acquireFreeBucket` takes the free buckets with the lowest ids and `releaseBuckets` gives
them back. The loop compares its count with zero only after it has taken a bucket, so it
stops where it should for a count between one and the number of free buckets. For any other
count it takes every free bucket there is, and throws.
-/

import Gopherwood.Segment.Accounting
import Mathlib.Logic.Function.Iterate

namespace Gopherwood

open Library

namespace SharedMem

/-- The free bucket of an id. -/
def isFreeAt (s : SharedMem) (i : Nat) : Bool := s.buckets[i]?.any ShareMemBucket.isFreeBucket

/-- The ids of the free buckets, the lowest first. -/
def freeIds (s : SharedMem) : List Nat := (List.range s.buckets.length).filter s.isFreeAt

/-- The counters match, and a free bucket is as `reset` leaves it. -/
structure Pristine (s : SharedMem) : Prop where
  accounted : s.Accounted
  size : s.buckets.length = s.header.numBuckets
  bound : s.header.numBuckets < 2 ^ 32
  blank : ∀ x ∈ s.buckets, x.type = .free → x = .blank

theorem Pristine.getElem_of_free {s : SharedMem} {i : Nat} (hs : s.Pristine)
    (hfree : s.isFreeAt i = true) : s.buckets[i]? = some .blank := by
  obtain ⟨x, hx, hisFree⟩ := (Option.any_eq_true _ _).mp hfree
  rw [hx, hs.blank x (List.mem_of_getElem? hx) (of_decide_eq_true hisFree)]

end SharedMem

namespace SharedMemoryContext

/-- The buckets of some ids become `y`, and a counter moves with each of them. -/
def replace (ids : List Nat) (y : ShareMemBucket) (k : ShareMemHeader → ShareMemHeader)
    (s : SharedMem) : SharedMem :=
  ids.foldl (fun s i => (s.updBucket i fun _ => y).updHeader k) s

section Replace

variable {s : SharedMem} {y : ShareMemBucket} {k : ShareMemHeader → ShareMemHeader}

theorem replace_getElem? (ids : List Nat) (j : Nat) :
    ∀ s : SharedMem, (replace ids y k s).buckets[j]? =
      if j ∈ ids then s.buckets[j]?.map fun _ => y else s.buckets[j]? := by
  induction ids with
  | nil =>
      intro s
      simp [replace]
  | cons i ids ih =>
      intro s
      change (replace ids y k _).buckets[j]? = _
      rw [ih, SharedMem.updHeader_buckets, SharedMem.updBucket_getElem?]
      by_cases hij : i = j
      · subst hij
        simp [Function.comp_def]
      · have hmem : j ∈ i :: ids ↔ j ∈ ids := by simp [Ne.symm hij]
        simp only [hij, if_false, hmem]

theorem replace_header (ids : List Nat) :
    ∀ s : SharedMem, (replace ids y k s).header = k^[ids.length] s.header := by
  induction ids with
  | nil =>
      intro s
      rfl
  | cons i ids ih =>
      intro s
      exact ih _

theorem replace_activeStatus (ids : List Nat) :
    ∀ s : SharedMem, (replace ids y k s).activeStatus = s.activeStatus := by
  induction ids with
  | nil =>
      intro s
      rfl
  | cons i ids ih =>
      intro s
      exact ih _

end Replace

/-- A taken bucket moves from the free to the active ones. -/
def countTaken (h : ShareMemHeader) : ShareMemHeader :=
  { h with numFreeBuckets := dec32 h.numFreeBuckets, numActiveBuckets := inc32 h.numActiveBuckets }

/-- A released bucket moves back. -/
def countReleased (h : ShareMemHeader) : ShareMemHeader :=
  { h with numActiveBuckets := dec32 h.numActiveBuckets, numFreeBuckets := inc32 h.numFreeBuckets }

theorem countTaken_iterate (n : Nat) :
    ∀ h : ShareMemHeader, n ≤ h.numFreeBuckets → h.numActiveBuckets + n < 2 ^ 32 →
      countTaken^[n] h = { h with
        numFreeBuckets := h.numFreeBuckets - n, numActiveBuckets := h.numActiveBuckets + n } := by
  induction n with
  | zero =>
      intro h _ _
      rfl
  | succ n ih =>
      intro h hfree hactive
      have hdec : dec32 h.numFreeBuckets = h.numFreeBuckets - 1 := if_neg (by omega)
      have hinc : inc32 h.numActiveBuckets = h.numActiveBuckets + 1 := Nat.mod_eq_of_lt (by omega)
      rw [Function.iterate_succ_apply, countTaken, hdec, hinc,
        ih _ (by simp only; omega) (by simp only; omega)]
      simp only [ShareMemHeader.mk.injEq, true_and, and_true]
      omega

theorem countReleased_iterate (n : Nat) :
    ∀ h : ShareMemHeader, n ≤ h.numActiveBuckets → h.numFreeBuckets + n < 2 ^ 32 →
      countReleased^[n] h = { h with
        numFreeBuckets := h.numFreeBuckets + n, numActiveBuckets := h.numActiveBuckets - n } := by
  induction n with
  | zero =>
      intro h _ _
      rfl
  | succ n ih =>
      intro h hactive hfree
      have hdec : dec32 h.numActiveBuckets = h.numActiveBuckets - 1 := if_neg (by omega)
      have hinc : inc32 h.numFreeBuckets = h.numFreeBuckets + 1 := Nat.mod_eq_of_lt (by omega)
      rw [Function.iterate_succ_apply, countReleased, hdec, hinc,
        ih _ (by simp only; omega) (by simp only; omega)]
      simp only [ShareMemHeader.mk.injEq, true_and, and_true]
      omega

section Loop

variable {s : SharedMem} {a : Nat} {f : FileId} {w : Bool}

/-- A round that finds a blank bucket. -/
theorem acquireOne_blank {i : Nat} (hx : s.buckets[i]? = some .blank) :
    acquireOne a f w i s =
      .ok () ((s.updBucket i fun _ => .taken w a f).updHeader countTaken) := by
  have hx₁ : (s.updBucket i fun b => { b.setBucketActive with fileId := f }).buckets[i]? =
      some { ShareMemBucket.blank.setBucketActive with fileId := f } := by
    rw [SharedMem.updBucket_same, hx]
    rfl
  have hfill : fillFirst (⟨w, a⟩ : BucketActiveInfo) ShareMemBucket.blank.activeInfos =
      some (some ⟨w, a⟩ :: List.replicate (maxConcurrentOpen - 1) none) := rfl
  simp only [acquireOne, run_bind, run_modifyBucket, markBucket_some hx₁ hfill, run_modifyHeader,
    SharedMem.updBucket_updBucket]
  rw [SharedMem.updBucket_congr (fun _ => .taken w a f) hx rfl]
  rfl

/-- What the loop takes of the free buckets that it meets. -/
def picked (count : Int) (free : List Nat) : List Nat :=
  if 1 ≤ count ∧ count ≤ free.length then free.take count.toNat else free

theorem picked_cons (count : Int) (i : Nat) (free : List Nat) :
    picked count (i :: free) = i :: if count - 1 = 0 then [] else picked (count - 1) free := by
  unfold picked
  by_cases hone : count - 1 = 0
  · have hcount : count = 1 := by omega
    subst hcount
    rw [if_pos ⟨Int.le_refl 1, by rw [List.length_cons]; omega⟩, if_pos hone]
    rfl
  · rw [if_neg hone]
    by_cases hrange : 1 ≤ count ∧ count ≤ (i :: free).length
    · have hrest : 1 ≤ count - 1 ∧ count - 1 ≤ free.length := by
        have hlength : (i :: free).length = free.length + 1 := List.length_cons
        omega
      have hnat : count.toNat = (count - 1).toNat + 1 := by omega
      rw [if_pos hrange, if_pos hrest, hnat, List.take_succ_cons]
    · have hrest : ¬ (1 ≤ count - 1 ∧ count - 1 ≤ free.length) := by
        have hlength : (i :: free).length = free.length + 1 := List.length_cons
        omega
      rw [if_neg hrange, if_neg hrest]

/-- The loop takes the first free buckets that it meets. -/
theorem acquireLoop_eq (a : Nat) (f : FileId) (w : Bool) (is : List Nat) :
    ∀ (count : Int) (s : SharedMem), is.Nodup →
      (∀ i ∈ is, ∃ x, s.buckets[i]? = some x ∧ (x.type = .free → x = .blank)) →
      acquireFreeBucket.loop a f w is count s =
        .ok (picked count (is.filter s.isFreeAt),
            count - (picked count (is.filter s.isFreeAt)).length)
          (replace (picked count (is.filter s.isFreeAt)) (.taken w a f) countTaken s) := by
  induction is with
  | nil =>
      intro count s _ _
      simp [acquireFreeBucket.loop, picked, replace]
  | cons i is ih =>
      intro count s hnodup hblank
      obtain ⟨hnew, hnodup⟩ := List.nodup_cons.mp hnodup
      obtain ⟨x, hx, hreset⟩ := hblank i List.mem_cons_self
      have hblank : ∀ j ∈ is, ∃ x, s.buckets[j]? = some x ∧ (x.type = .free → x = .blank) :=
        fun j hj => hblank j (List.mem_cons_of_mem _ hj)
      by_cases hfree : x.isFreeBucket = true
      · have hxblank : x = .blank := hreset (of_decide_eq_true hfree)
        subst hxblank
        have hat : s.isFreeAt i = true := by simp [SharedMem.isFreeAt, hx, hfree]
        -- the later ids look at buckets that this round leaves alone
        have hother : ∀ j ∈ is, ((s.updBucket i fun _ => .taken w a f).updHeader
            countTaken).buckets[j]? = s.buckets[j]? := by
          intro j hj
          rw [SharedMem.updHeader_buckets]
          exact SharedMem.updBucket_other s _ fun heq => hnew (heq ▸ hj)
        have hfilter : is.filter ((s.updBucket i fun _ => .taken w a f).updHeader
            countTaken).isFreeAt = is.filter s.isFreeAt := by
          apply List.filter_congr
          intro j hj
          rw [SharedMem.isFreeAt, hother j hj]
          rfl
        have hrest := ih (count - 1) _ hnodup fun j hj => by
          rw [hother j hj]
          exact hblank j hj
        rw [hfilter] at hrest
        rw [List.filter_cons_of_pos hat, picked_cons]
        simp only [acquireFreeBucket.loop, run_bind, run_bucketAt_some hx, hfree, if_true,
          acquireOne_blank hx]
        by_cases hone : count - 1 = 0
        · simp only [if_pos hone, run_pure]
          rw [hone]
          simp [replace, hone]
        · simp only [if_neg hone, run_bind, hrest, run_pure]
          refine congrArg₂ EStateM.Result.ok (Prod.ext rfl ?_) rfl
          simp only [List.length_cons]
          omega
      · have hat : ¬ s.isFreeAt i = true := by simp [SharedMem.isFreeAt, hx, hfree]
        rw [List.filter_cons_of_neg hat]
        simp only [acquireFreeBucket.loop, run_bind, run_bucketAt_some hx, hfree]
        exact ih count s hnodup hblank

end Loop

/-- `releaseBuckets` on active buckets of different ids. -/
theorem releaseBuckets_eq (blocks : List Block) :
    ∀ (ids : List Nat) (s : SharedMem), blocks.map Block.bucketId = ids.map some → ids.Nodup →
      (∀ i ∈ ids, ∃ x, s.buckets[i]? = some x ∧ x.type = .active) →
      releaseBuckets blocks s = .ok () (replace ids .blank countReleased s) := by
  induction blocks with
  | nil =>
      intro ids s hids _ _
      rw [List.map_nil] at hids
      rw [List.map_eq_nil_iff.mp hids.symm]
      rfl
  | cons block blocks ih =>
      intro ids s hids hnodup hactive
      cases ids with
      | nil => cases hids
      | cons i ids =>
          rw [List.map_cons, List.map_cons, List.cons.injEq] at hids
          obtain ⟨hnew, hnodup⟩ := List.nodup_cons.mp hnodup
          obtain ⟨x, hx, htype⟩ := hactive i List.mem_cons_self
          have hone : releaseOne i s =
              .ok () ((s.updBucket i fun _ => .blank).updHeader countReleased) := by
            have hisActive : x.isActiveBucket = true := decide_eq_true htype
            simp only [releaseOne, run_bind, run_bucketAt_some hx, hisActive, if_true,
              run_modifyBucket, run_modifyHeader]
            rfl
          simp only [releaseBuckets, hids.1, run_bind, run_inRange_some, hone]
          apply ih ids _ hids.2 hnodup
          intro j hj
          obtain ⟨y, hy, hytype⟩ := hactive j (List.mem_cons_of_mem _ hj)
          have hne : i ≠ j := fun heq => hnew (heq ▸ hj)
          refine ⟨y, ?_, hytype⟩
          rw [SharedMem.updHeader_buckets, SharedMem.updBucket_other s _ hne]
          exact hy

section Inverse

variable {s : SharedMem} {ids : List Nat}

theorem length_freeIds (s : SharedMem) : s.freeIds.length = s.count .free := by
  have hmap : (List.range s.buckets.length).map (fun i => s.buckets[i]?) = s.buckets.map some := by
    apply List.ext_getElem?
    intro i
    by_cases hi : i < s.buckets.length
    · simp [hi]
    · simp [Nat.not_lt.mp hi]
  have hclass : ∀ x : ShareMemBucket, x.isFreeBucket = decide (x.bucketClass = .free) := by
    intro x
    unfold ShareMemBucket.isFreeBucket ShareMemBucket.bucketClass
    cases x.type with
    | free => rfl
    | active => cases x.loading <;> rfl
    | used => cases x.evicting <;> rfl
  have hcount : (s.buckets.map some).countP (fun o => o.any ShareMemBucket.isFreeBucket) =
      s.count .free := by
    rw [List.countP_map, SharedMem.count, tally]
    apply List.countP_congr
    intro x _
    simp [hclass]
  rw [SharedMem.freeIds, ← List.countP_eq_length_filter, ← hcount, ← hmap, List.countP_map]
  rfl

/-- `acquireFreeBucket` on a table whose free buckets are blank. -/
theorem acquireFreeBucket_eq (hs : s.Pristine) (a : Nat) (num : Int) (f : FileId) (w : Bool) :
    acquireFreeBucket a num f w s =
      if num - (picked num s.freeIds).length ≠ 0 then
        .error (.sharedMem "[SharedMemoryContext::acquireBlock] did not acquire enough buckets")
          (replace (picked num s.freeIds) (.taken w a f) countTaken s)
      else .ok (picked num s.freeIds) (replace (picked num s.freeIds) (.taken w a f) countTaken
        s) := by
  have hloop := acquireLoop_eq a f w (List.range s.header.numBuckets) num s List.nodup_range
    fun i hi => by
      rw [List.mem_range, ← hs.size] at hi
      exact ⟨s.buckets[i], List.getElem?_eq_getElem hi, hs.blank _ (List.getElem_mem hi)⟩
  rw [← hs.size] at hloop
  change _ = EStateM.Result.ok (picked num s.freeIds, num - (picked num s.freeIds).length)
    (replace (picked num s.freeIds) (.taken w a f) countTaken s) at hloop
  simp only [acquireFreeBucket, run_bind, run_get, ← hs.size, hloop]
  split
  · rfl
  · rfl

/-! ## Exact inverses -/

/-- `num` buckets were taken, the lowest free ones, and releasing them undoes it. -/
structure Acquires (s s' : SharedMem) (ids : List Nat) (num a : Nat) (f : FileId) (w : Bool) :
    Prop where
  length : ids.length = num
  nodup : ids.Nodup
  free : ∀ i ∈ ids, s.isFreeAt i = true
  lowest : ∀ i ∈ ids, ∀ j, s.isFreeAt j = true → j ∉ ids → i < j
  taken : ∀ i ∈ ids, s'.buckets[i]? = some (.taken w a f)
  others : ∀ i, i ∉ ids → s'.buckets[i]? = s.buckets[i]?
  header : s'.header = { s.header with
    numFreeBuckets := s.header.numFreeBuckets - num
    numActiveBuckets := s.header.numActiveBuckets + num }
  slots : s'.activeStatus = s.activeStatus
  release : ∀ blocks, blocks.map Block.bucketId = ids.map some →
    releaseBuckets blocks s' = .ok () s

/-- `acquireFreeBucket` takes the buckets it is asked for, or throws and takes none. -/
structure AcquiresExactly (s : SharedMem) (a num : Nat) (f : FileId) (w : Bool) : Prop where
  enough : num ≤ s.count .free →
    ∃ ids s', acquireFreeBucket a num f w s = .ok ids s' ∧ Acquires s s' ids num a f w
  short : s.count .free < num → ∃ e, acquireFreeBucket a num f w s = .error e s

theorem mem_freeIds {i : Nat} : i ∈ s.freeIds ↔ s.isFreeAt i = true := by
  rw [SharedMem.freeIds, List.mem_filter, List.mem_range]
  constructor
  · exact fun h => h.2
  · intro h
    refine ⟨?_, h⟩
    by_contra hlong
    rw [SharedMem.isFreeAt, List.getElem?_eq_none (Nat.le_of_not_lt hlong)] at h
    cases h

/-- Taking some free buckets and releasing them again. -/
theorem release_taken {f : FileId} {w : Bool} {a : Nat} (hs : s.Pristine) (hnodup : ids.Nodup)
    (hfree : ∀ i ∈ ids, s.isFreeAt i = true) (hlength : ids.length ≤ s.header.numFreeBuckets)
    {blocks : List Block} (hblocks : blocks.map Block.bucketId = ids.map some) :
    releaseBuckets blocks (replace ids (.taken w a f) countTaken s) = .ok () s := by
  have htotal := hs.accounted.total
  have hbound := hs.bound
  have hactive : ∀ i ∈ ids, ∃ x, (replace ids (.taken w a f) countTaken s).buckets[i]? = some x ∧
      x.type = .active := by
    intro i hi
    refine ⟨.taken w a f, ?_, rfl⟩
    rw [replace_getElem?, if_pos hi, hs.getElem_of_free (hfree i hi)]
    rfl
  have hheader : (replace ids .blank countReleased
      (replace ids (.taken w a f) countTaken s)).header = s.header := by
    rw [replace_header, replace_header, countTaken_iterate _ _ hlength (by omega),
      countReleased_iterate _ _ (by simp only; omega) (by simp only; omega)]
    have hfreeBack : s.header.numFreeBuckets - ids.length + ids.length = s.header.numFreeBuckets :=
      Nat.sub_add_cancel hlength
    have hactiveBack : s.header.numActiveBuckets + ids.length - ids.length =
      s.header.numActiveBuckets := Nat.add_sub_cancel ..
    simp only [hfreeBack, hactiveBack]
  have hbuckets : (replace ids .blank countReleased
      (replace ids (.taken w a f) countTaken s)).buckets = s.buckets := by
    apply List.ext_getElem?
    intro i
    rw [replace_getElem?, replace_getElem?]
    by_cases hi : i ∈ ids
    · rw [if_pos hi, if_pos hi, hs.getElem_of_free (hfree i hi)]
      rfl
    · rw [if_neg hi, if_neg hi]
  have hslots : (replace ids .blank countReleased
      (replace ids (.taken w a f) countTaken s)).activeStatus = s.activeStatus := by
    rw [replace_activeStatus, replace_activeStatus]
  rw [releaseBuckets_eq blocks ids _ hblocks hnodup hactive]
  generalize replace ids .blank countReleased (replace ids (.taken w a f) countTaken s) = s' at *
  cases s
  cases s'
  simp_all

theorem acquires_take {num : Nat} (hs : s.Pristine) (hnum : num ≤ s.count .free) (a : Nat)
    (f : FileId) (w : Bool) :
    Acquires s (replace (s.freeIds.take num) (.taken w a f) countTaken s) (s.freeIds.take num)
      num a f w := by
  have htotal := hs.accounted.total
  have hbound := hs.bound
  have hcounter := hs.accounted.free
  have hlength : (s.freeIds.take num).length = num := by
    rw [List.length_take, length_freeIds]
    exact Nat.min_eq_left hnum
  have hsorted : s.freeIds.Pairwise (· < ·) := List.pairwise_lt_range.filter _
  have hnodup : (s.freeIds.take num).Nodup :=
    (List.nodup_range.filter _).sublist (List.take_sublist _ _)
  have hfree : ∀ i ∈ s.freeIds.take num, s.isFreeAt i = true :=
    fun i hi => mem_freeIds.mp (List.mem_of_mem_take hi)
  have htaken : ∀ i ∈ s.freeIds.take num, (replace (s.freeIds.take num) (.taken w a f) countTaken
      s).buckets[i]? = some (.taken w a f) := by
    intro i hi
    rw [replace_getElem?, if_pos hi, hs.getElem_of_free (hfree i hi)]
    rfl
  refine ⟨hlength, hnodup, hfree, ?_, htaken, ?_, ?_, replace_activeStatus _ s, ?_⟩
  · intro i hi j hj hout
    have hmem : j ∈ s.freeIds.take num ++ s.freeIds.drop num := by
      rw [List.take_append_drop]
      exact mem_freeIds.mpr hj
    have hdrop := (List.mem_append.mp hmem).resolve_left hout
    rw [← List.take_append_drop num s.freeIds, List.pairwise_append] at hsorted
    exact hsorted.2.2 i hi j hdrop
  · intro i hi
    rw [replace_getElem?, if_neg hi]
  · rw [replace_header, hlength]
    exact countTaken_iterate _ _ (by omega) (by omega)
  · intro blocks hblocks
    exact release_taken hs hnodup hfree (by omega) hblocks

/-- Acquire and release are inverses exactly when no bucket is free, or the number asked for
is at least one and at most the number of free buckets. -/
theorem acquiresExactly_iff (hs : s.Pristine) (a num : Nat) (f : FileId) (w : Bool) :
    AcquiresExactly s a num f w ↔ s.count .free = 0 ∨ 1 ≤ num ∧ num ≤ s.count .free := by
  have hlength := length_freeIds s
  have hrun := acquireFreeBucket_eq hs a num f w
  constructor
  · intro hexact
    by_contra hbad
    rw [not_or, not_and_or] at hbad
    -- the loop has taken all the free buckets
    have hall : picked num s.freeIds = s.freeIds := by
      rw [picked, if_neg]
      omega
    have hleft : (num : Int) - s.freeIds.length ≠ 0 := by omega
    rw [hall, if_pos hleft] at hrun
    by_cases henough : num ≤ s.count .free
    · obtain ⟨ids, s', hok, -⟩ := hexact.enough henough
      rw [hrun] at hok
      cases hok
    · obtain ⟨e, herror⟩ := hexact.short (Nat.lt_of_not_le henough)
      rw [hrun] at herror
      obtain ⟨i, hi⟩ := List.exists_mem_of_length_pos (l := s.freeIds) (by omega)
      have hblank := hs.getElem_of_free (mem_freeIds.mp hi)
      have hsame : replace s.freeIds (.taken w a f) countTaken s = s :=
        (EStateM.Result.error.inj herror).2
      have hbucket := replace_getElem? (y := .taken w a f) (k := countTaken) s.freeIds i s
      rw [hsame, if_pos hi, hblank] at hbucket
      cases hbucket
  · intro hgood
    rcases hgood with hnone | ⟨hone, henough⟩
    · have hnil : s.freeIds = [] := List.length_eq_zero_iff.mp (hlength.trans hnone)
      have hpicked : picked num s.freeIds = [] := by
        rw [hnil, picked]
        simp
      rw [hpicked] at hrun
      constructor
      · intro henough
        have hzero : num = 0 := by omega
        subst hzero
        refine ⟨s.freeIds.take 0, _, ?_, acquires_take hs henough a f w⟩
        rw [hrun, if_neg (by simp)]
        rfl
      · intro hshort
        have hleft : (num : Int) - ([] : List Nat).length ≠ 0 := by
          rw [List.length_nil]
          omega
        rw [if_pos hleft] at hrun
        exact ⟨_, hrun⟩
    · have hpicked : picked num s.freeIds = s.freeIds.take num := by
        rw [picked, if_pos ⟨by omega, by omega⟩, Int.toNat_natCast]
      constructor
      · intro _
        refine ⟨s.freeIds.take num, _, ?_, acquires_take hs henough a f w⟩
        rw [hrun, hpicked, (acquires_take hs henough a f w).length, if_neg (by simp)]
      · intro hshort
        omega

end Inverse

theorem pristine_reset {cfg : Config} (hfit : cfg.numberOfBlocks < 2 ^ 32) :
    (SharedMem.reset cfg).Pristine := by
  have hbalanced := SharedMem.balanced_reset hfit
  refine ⟨hbalanced.accounted, hbalanced.size, hbalanced.bound, ?_⟩
  intro x hx _
  exact List.eq_of_mem_replicate hx

/-- One of two free buckets is taken. -/
theorem acquiresExactly_one :
    (SharedMem.reset (.intact 2 1 1 1)).Pristine ∧
      AcquiresExactly (SharedMem.reset (.intact 2 1 1 1)) 0 1 ⟨7, 0⟩ true := by
  have hs : (SharedMem.reset (.intact 2 1 1 1)).Pristine := pristine_reset (by decide)
  exact ⟨hs, (acquiresExactly_iff hs 0 1 ⟨7, 0⟩ true).mpr (Or.inr (by decide))⟩

/-- Asked for no bucket, and asked for two when one is free, it takes the one and throws. -/
theorem not_acquiresExactly :
    (SharedMem.reset (.intact 1 1 1 1)).Pristine ∧
      ¬ AcquiresExactly (SharedMem.reset (.intact 1 1 1 1)) 0 0 ⟨7, 0⟩ true ∧
      ¬ AcquiresExactly (SharedMem.reset (.intact 1 1 1 1)) 0 2 ⟨7, 0⟩ true := by
  refine ⟨pristine_reset (by decide), ?_, ?_⟩
  · intro hexact
    obtain ⟨ids, s', hok, -⟩ := hexact.enough (Nat.zero_le _)
    cases hok
  · intro hexact
    obtain ⟨e, herror⟩ := hexact.short (by decide)
    cases herror

end SharedMemoryContext

end Gopherwood
