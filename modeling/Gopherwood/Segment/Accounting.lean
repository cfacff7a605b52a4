/-
# Bucket accounting

The header counts the buckets of each class. A move takes one bucket from one
class to another and adjusts two counters; the counters stay right as long as
the bucket was in the class that the operation believes it to be in.
-/

import Gopherwood.Library.Execution
import Gopherwood.Library.Tally
import Gopherwood.Segment.Registration

namespace Gopherwood

open Library (Keeps Spec Run execute anyStep)

/-- What the header counts. -/
inductive BucketClass
  | free
  | active
  | loading
  | used
  | evicting
  deriving DecidableEq

/-- The class of a bucket: its type, with bit 29 for an active and bit 31 for a
used bucket. -/
def ShareMemBucket.bucketClass (x : ShareMemBucket) : BucketClass :=
  match x.type with
  | .free => .free
  | .active => if x.loading then .loading else .active
  | .used => if x.evicting then .evicting else .used

/-- The counter of a class. -/
def ShareMemHeader.counter (h : ShareMemHeader) : BucketClass → Nat
  | .free => h.numFreeBuckets
  | .active => h.numActiveBuckets
  | .loading => h.numLoadingBuckets
  | .used => h.numUsedBuckets
  | .evicting => h.numEvictingBuckets

/-- A bucket that is not active is not loading and carries no mark. -/
structure ShareMemBucket.Tidy (x : ShareMemBucket) : Prop where
  table : x.activeInfos.length = maxConcurrentOpen
  loading : x.type ≠ .active → x.loading = false
  vacant : x.type ≠ .active → Library.vacant x.activeInfos = true

namespace SharedMem

/-- The number of buckets of a class. -/
def count (s : SharedMem) (k : BucketClass) : Nat :=
  Library.tally ShareMemBucket.bucketClass k s.buckets

/-- The counters are the numbers of buckets, and add up to all of them. -/
structure Accounted (s : SharedMem) : Prop where
  free : s.header.numFreeBuckets = s.count .free
  active : s.header.numActiveBuckets = s.count .active
  used : s.header.numUsedBuckets = s.count .used
  evicting : s.header.numEvictingBuckets = s.count .evicting
  loading : s.header.numLoadingBuckets = s.count .loading
  total : s.header.numFreeBuckets + s.header.numActiveBuckets + s.header.numUsedBuckets +
    s.header.numEvictingBuckets + s.header.numLoadingBuckets = s.header.numBuckets

/-- What keeps the counters right: besides the counters, that buckets are tidy
and that their number fits a counter. -/
structure Balanced (s : SharedMem) : Prop where
  counters : ∀ k, s.header.counter k = s.count k
  size : s.buckets.length = s.header.numBuckets
  bound : s.header.numBuckets < 2 ^ 32
  tidy : ∀ (b : Nat) (x : ShareMemBucket), s.buckets[b]? = some x → x.Tidy

/-- Every bucket is in one class. -/
theorem count_total (s : SharedMem) :
    s.count .free + s.count .active + s.count .used + s.count .evicting + s.count .loading =
      s.buckets.length := by
  unfold count
  induction s.buckets with
  | nil => rfl
  | cons x rest ih =>
      simp only [Library.tally, List.countP_cons, List.length_cons] at ih ⊢
      cases x.bucketClass <;> simp <;> omega

theorem Balanced.accounted {s : SharedMem} (hs : s.Balanced) : s.Accounted := by
  have hfree := hs.counters .free
  have hactive := hs.counters .active
  have hused := hs.counters .used
  have hevicting := hs.counters .evicting
  have hloading := hs.counters .loading
  refine ⟨hfree, hactive, hused, hevicting, hloading, ?_⟩
  have := s.count_total
  simp only [ShareMemHeader.counter] at hfree hactive hused hevicting hloading
  rw [hfree, hactive, hused, hevicting, hloading, this, hs.size]

theorem tidy_blank : ShareMemBucket.blank.Tidy := by
  refine ⟨by simp [ShareMemBucket.blank], fun _ => rfl, fun _ => ?_⟩
  simp [ShareMemBucket.blank, Library.vacant]

theorem balanced_reset {cfg : Config} (hfit : cfg.numberOfBlocks < 2 ^ 32) :
    (reset cfg).Balanced := by
  refine ⟨fun k => ?_, by simp [reset], hfit, fun b x hx => ?_⟩
  · simp only [reset, count, Library.tally, List.countP_replicate]
    cases k <;> simp [ShareMemHeader.counter, ShareMemBucket.bucketClass, ShareMemBucket.blank]
  · have := List.mem_of_getElem? hx
    simp only [reset, List.mem_replicate] at this
    rw [this.2]
    exact tidy_blank

/-! ## Moves -/

variable {s s' : SharedMem} {b : Nat} {x : ShareMemBucket} {f : ShareMemBucket → ShareMemBucket}

theorem Balanced.tidy_modify (hs : s.Balanced) (hbuckets : s'.buckets = s.buckets.modify b f)
    (hf : ∀ y, s.buckets[b]? = some y → (f y).Tidy) (i : Nat) (y : ShareMemBucket)
    (hy : s'.buckets[i]? = some y) : y.Tidy := by
  rw [hbuckets, List.getElem?_modify] at hy
  split at hy
  · next hi =>
      subst hi
      obtain ⟨z, hz, rfl⟩ := Option.map_eq_some_iff.mp hy
      exact hf z hz
  · obtain ⟨z, hz, rfl⟩ := Option.map_eq_some_iff.mp hy
    exact hs.tidy i z hz

/-- A change inside a class. -/
theorem Balanced.stay (hs : s.Balanced) (hbuckets : s'.buckets = s.buckets.modify b f)
    (hcounter : s'.header.counter = s.header.counter)
    (hnum : s'.header.numBuckets = s.header.numBuckets)
    (hf : ∀ y, s.buckets[b]? = some y → (f y).bucketClass = y.bucketClass ∧ (f y).Tidy) :
    s'.Balanced := by
  refine ⟨fun k => ?_, ?_, hnum ▸ hs.bound, hs.tidy_modify hbuckets fun y hy => (hf y hy).2⟩
  · rw [hcounter, hs.counters, count, count, hbuckets]
    exact (Library.tally_modify_same (fun y hy => (hf y hy).1) k).symm
  · rw [hbuckets, List.length_modify, hnum]
    exact hs.size

/-- A change of no bucket. -/
theorem Balanced.same (hs : s.Balanced) (hbuckets : s'.buckets = s.buckets)
    (hcounter : s'.header.counter = s.header.counter)
    (hnum : s'.header.numBuckets = s.header.numBuckets) : s'.Balanced := by
  refine ⟨fun k => ?_, by rw [hbuckets, hnum]; exact hs.size, hnum ▸ hs.bound,
    fun b x hx => hs.tidy b x (hbuckets ▸ hx)⟩
  rw [hcounter, hs.counters, count, count, hbuckets]

/-- A bucket goes from its class to another, and the two counters follow. -/
theorem Balanced.shift (hs : s.Balanced) (hx : s.buckets[b]? = some x) (k k' : BucketClass)
    (hk : x.bucketClass = k) (hk' : (f x).bucketClass = k') (hne : k ≠ k')
    (htidy : (f x).Tidy) (hbuckets : s'.buckets = s.buckets.modify b f)
    (hnum : s'.header.numBuckets = s.header.numBuckets)
    (hfrom : s'.header.counter k = dec32 (s.header.counter k))
    (hto : s'.header.counter k' = inc32 (s.header.counter k'))
    (hrest : ∀ j, j ≠ k → j ≠ k' → s'.header.counter j = s.header.counter j) : s'.Balanced := by
  have hlength : s'.buckets.length = s.buckets.length := by rw [hbuckets, List.length_modify]
  refine ⟨fun j => ?_, by rw [hlength, hs.size, hnum], hnum ▸ hs.bound,
    hs.tidy_modify hbuckets fun y hy => ?_⟩
  · have htally := @Library.tally_modify _ _ _ ShareMemBucket.bucketClass _ _ _ hx f j
    rw [← hbuckets, hk, hk'] at htally
    change s'.count j + _ = s.count j + _ at htally
    by_cases hj : j = k
    · -- the class the bucket leaves has at least this bucket
      subst hj
      have hpos : 0 < s.count j := hk ▸ Library.tally_pos hx
      rw [if_pos rfl, if_neg (Ne.symm hne)] at htally
      rw [hfrom, hs.counters, dec32, if_neg (by omega)]
      omega
    · by_cases hj' : j = k'
      · -- the class it enters has no more buckets than there are
        subst hj'
        have hle : s'.count j ≤ s'.buckets.length := Library.tally_le_length _
        have := hs.bound
        rw [if_neg hne, if_pos rfl] at htally
        rw [hto, hs.counters, inc32, Nat.mod_eq_of_lt]
        · omega
        · rw [hlength, hs.size] at hle
          omega
      · rw [if_neg (Ne.symm hj), if_neg (Ne.symm hj')] at htally
        rw [hrest j hj hj', hs.counters]
        omega
  · obtain rfl : x = y := Option.some.inj (hx.symm.trans hy)
    exact htidy

end SharedMem

/-- The bucket of the move is in the class that the move takes it from. -/
def Move.Orderly (s : SharedMem) : Move → Prop
  | .endTake _ b => ∀ x, s.buckets[b]? = some x → x.bucketClass = .evicting
  | .endFree _ b => ∀ x, s.buckets[b]? = some x → x.bucketClass = .evicting
  | .load _ b => ∃ x, s.buckets[b]? = some x ∧ x.bucketClass = .active
  | .loaded _ b => ∃ x, s.buckets[b]? = some x ∧ x.bucketClass = .loading
  | .release b => ∀ x, s.buckets[b]? = some x → x.bucketClass ≠ .loading
  | .activateFailed _ => False
  | .retire _ b => ∀ x, s.buckets[b]? = some x → x.loading = false ∧ x.evicting = false
  | .reset f b => ∀ x, s.buckets[b]? = some x → x.fileId = f → x.bucketClass ≠ .evicting
  | _ => True

namespace SharedMem

/-- An orderly move keeps the counters right. -/
theorem Moves.balanced {m : Move} {s s' : SharedMem} (hmove : Moves m s s') (hm : m.Orderly s)
    (hs : s.Balanced) : s'.Balanced := by
  cases hmove with
  | take hx htype hinfos =>
      have htidy := hs.tidy _ _ hx
      have hloading := htidy.loading (by simp [htype])
      refine hs.shift hx .free .active ?_ ?_ (by decide) ?_ rfl rfl rfl rfl ?_
      · simp [ShareMemBucket.bucketClass, htype]
      · simp [ShareMemBucket.bucketClass, hloading]
      · exact ⟨(Library.length_fillFirst hinfos).trans htidy.table, fun h => absurd rfl h,
          fun h => absurd rfl h⟩
      · intro j hj hj'
        cases j <;> first | rfl | contradiction
  | takeFailed hx htype hinfos =>
      -- the mark table of a free bucket is vacant
      have htidy := hs.tidy _ _ hx
      obtain ⟨filled, hfilled⟩ := Library.fillFirst_of_vacant (htidy.vacant (by simp [htype]))
        (by rw [htidy.table]; decide) _
      rw [hinfos] at hfilled
      cases hfilled
  | hand => exact hs.same rfl rfl rfl
  | age hx htype hevicting =>
      refine hs.stay rfl rfl rfl fun y hy => ⟨rfl, ?_⟩
      obtain ⟨htable, hloading, hvacant⟩ := hs.tidy _ _ hy
      exact ⟨htable, hloading, hvacant⟩
  | evict hx htype hevicting =>
      obtain ⟨htable, hloading, hvacant⟩ := hs.tidy _ _ hx
      refine hs.shift hx .used .evicting ?_ ?_ (by decide) ⟨htable, hloading, hvacant⟩ rfl rfl rfl
        rfl ?_
      · simp [ShareMemBucket.bucketClass, htype, hevicting]
      · simp [ShareMemBucket.bucketClass, htype]
      · intro j hj hj'
        cases j <;> first | rfl | contradiction
  | endStolen => exact hs.same rfl rfl rfl
  | endFailed => exact hs.same rfl rfl rfl
  | endTake w fileId hslot hstolen hx =>
      refine hs.shift hx .evicting .active (hm _ hx) rfl (by decide) ?_ rfl rfl rfl rfl ?_
      · exact ⟨by simp [ShareMemBucket.taken, maxConcurrentOpen], fun h => absurd rfl h,
          fun h => absurd rfl h⟩
      · intro j hj hj'
        cases j <;> first | rfl | contradiction
  | endFree hslot hstolen hx =>
      refine hs.shift hx .evicting .free (hm _ hx) rfl (by decide) tidy_blank rfl rfl rfl rfl ?_
      intro j hj hj'
      cases j <;> first | rfl | contradiction
  | load hfree =>
      obtain ⟨x, hx, hclass⟩ := hm
      obtain ⟨htable, hloading, hvacant⟩ := hs.tidy _ _ hx
      have htype : x.type = .active := by
        cases htype : x.type <;> simp [ShareMemBucket.bucketClass, htype] at hclass ⊢
        split at hclass <;> cases hclass
      refine hs.shift hx .active .loading hclass ?_ (by decide) ?_ rfl rfl rfl rfl ?_
      · simp [ShareMemBucket.bucketClass, htype]
      · exact ⟨htable, fun h => absurd htype h, hvacant⟩
      · intro j hj hj'
        cases j <;> first | rfl | contradiction
  | loaded =>
      obtain ⟨x, hx, hclass⟩ := hm
      obtain ⟨htable, hloading, hvacant⟩ := hs.tidy _ _ hx
      have htype : x.type = .active := by
        cases htype : x.type <;> simp [ShareMemBucket.bucketClass, htype] at hclass ⊢
        split at hclass <;> cases hclass
      refine hs.shift hx .loading .active hclass ?_ (by decide) ⟨htable, fun _ => rfl, hvacant⟩ rfl
        rfl rfl rfl ?_
      · simp [ShareMemBucket.bucketClass, htype]
      · intro j hj hj'
        cases j <;> first | rfl | contradiction
  | release hx htype =>
      have hloading := by simpa [ShareMemBucket.bucketClass, htype] using hm _ hx
      refine hs.shift hx .active .free ?_ rfl (by decide) tidy_blank rfl rfl rfl rfl ?_
      · simp [ShareMemBucket.bucketClass, htype, hloading]
      · intro j hj hj'
        cases j <;> first | rfl | contradiction
  | activate hx htype hevicting hinfos =>
      have htidy := hs.tidy _ _ hx
      have hloading := htidy.loading (by simp [htype])
      refine hs.shift hx .used .active ?_ ?_ (by decide) ?_ rfl rfl rfl rfl ?_
      · simp [ShareMemBucket.bucketClass, htype, hevicting]
      · simp [ShareMemBucket.bucketClass, hloading]
      · exact ⟨(Library.length_fillFirst hinfos).trans htidy.table, fun h => absurd rfl h,
          fun h => absurd rfl h⟩
      · intro j hj hj'
        cases j <;> first | rfl | contradiction
  | steal hx htype hevicting hinfos he hslot hfile hindex =>
      have htidy := hs.tidy _ _ hx
      have hloading := htidy.loading (by simp [htype])
      refine hs.shift hx .evicting .active ?_ ?_ (by decide) ?_ rfl rfl rfl rfl ?_
      · simp [ShareMemBucket.bucketClass, htype, hevicting]
      · simp [ShareMemBucket.bucketClass, hloading]
      · exact ⟨(Library.length_fillFirst hinfos).trans htidy.table, fun h => absurd rfl h,
          fun h => absurd rfl h⟩
      · intro j hj hj'
        cases j <;> first | rfl | contradiction
  | activateFailed => exact hm.elim
  | join hx htype hinfos =>
      refine hs.stay rfl rfl rfl fun y hy => ⟨rfl, ?_⟩
      obtain rfl := Option.some.inj (hx.symm.trans hy)
      obtain ⟨htable, hloading, hvacant⟩ := hs.tidy _ _ hx
      exact ⟨(Library.length_fillFirst hinfos).trans htable, hloading, fun h => absurd htype h⟩
  | leave hx htype hinfos hvacant =>
      refine hs.stay rfl rfl rfl fun y hy => ⟨rfl, ?_⟩
      obtain rfl := Option.some.inj (hx.symm.trans hy)
      obtain ⟨htable, hloading, -⟩ := hs.tidy _ _ hx
      exact ⟨(Library.length_clearFirst hinfos).trans htable, hloading, fun h => absurd htype h⟩
  | retire hx htype hinfos hvacant =>
      obtain ⟨hloading, hevicting⟩ := hm _ hx
      have htidy := hs.tidy _ _ hx
      refine hs.shift hx .active .used ?_ ?_ (by decide) ?_ rfl rfl rfl rfl ?_
      · simp [ShareMemBucket.bucketClass, htype, hloading]
      · simp [ShareMemBucket.bucketClass, hevicting]
      · exact ⟨(Library.length_clearFirst hinfos).trans htidy.table, fun _ => hloading,
          fun _ => hvacant⟩
      · intro j hj hj'
        cases j <;> first | rfl | contradiction
  | leaveFailed hx htype hinfos =>
      refine hs.stay rfl rfl rfl fun y hy => ⟨rfl, ?_⟩
      obtain ⟨htable, hloading, hvacant⟩ := hs.tidy _ _ hy
      exact ⟨htable, hloading, hvacant⟩
  | index hx =>
      refine hs.stay rfl rfl rfl fun y hy => ⟨rfl, ?_⟩
      obtain ⟨htable, hloading, hvacant⟩ := hs.tidy _ _ hy
      exact ⟨htable, hloading, hvacant⟩
  | reset hx htype =>
      have hevicting := by simpa [ShareMemBucket.bucketClass, htype] using hm _ hx rfl
      refine hs.shift hx .used .free ?_ rfl (by decide) tidy_blank rfl rfl rfl rfl ?_
      · simp [ShareMemBucket.bucketClass, htype, hevicting]
      · intro j hj hj'
        cases j <;> first | rfl | contradiction
  | flag hx htype hevicting =>
      refine hs.stay rfl rfl rfl fun y hy => ⟨rfl, ?_⟩
      obtain ⟨htable, hloading, hvacant⟩ := hs.tidy _ _ hy
      exact ⟨htable, hloading, hvacant⟩
  | resize hx htype hmine hsize =>
      refine hs.stay rfl rfl rfl fun y hy => ⟨rfl, ?_⟩
      obtain ⟨htable, hloading, hvacant⟩ := hs.tidy _ _ hy
      exact ⟨htable, hloading, hvacant⟩

end SharedMem

/-! ## Operations -/

/-- A call of an operation on the segment. -/
inductive ShmOp
  | registFile (pid : Nat) (fileId : FileId) (isDelete : Bool)
  | registAdmin (pid : Nat)
  | unregistFile (activeId pid : Nat)
  | unregistAdmin (activeId pid : Nat)
  | isFileOpening (fileId : FileId)
  | acquireFreeBucket (activeId : Nat) (num : Int) (fileId : FileId) (isWrite : Bool)
  | markBucketEvicting (activeId : Nat)
  | evictBucketFinishAndTryAcquire (bucketId : Option Nat) (activeId : Nat) (fileId : FileId)
      (isWrite : Bool)
  | evictBucketFinishAndTryFree (bucketId : Option Nat) (activeId : Nat)
  | markBucketLoading (bucketId blockId activeId : Nat) (fileId : FileId)
  | markLoadFinish (bucketId activeId : Nat)
  | releaseBuckets (blocks : List Block)
  | activateBucket (fileId : FileId) (block : Block) (activeId : Nat) (isWrite : Bool)
  | inactivateBuckets (fileId : FileId) (activeId : Nat) (blocks : List Block)
  | updateActiveFileInfo (block : Block) (fileId : FileId)
  | deleteBlocks (fileId : FileId) (blocks : List Block)
  | updateBucketDataSize (bucketId : Option Nat) (size : Int) (fileId : FileId) (activeId : Nat)
  | getBucketDataSize (bucketId : Option Nat) (fileId : FileId) (blockId : Nat)

namespace ShmOp

open Library (after)

/-- The segment after an operation, whether it returned or threw. -/
def run (cfg : Config) (s : SharedMem) : ShmOp → SharedMem
  | .registFile pid fileId isDelete =>
      after (SharedMemoryContext.registFile pid fileId isDelete) s
  | .registAdmin pid => after (SharedMemoryContext.registAdmin pid) s
  | .unregistFile a pid => after (SharedMemoryContext.unregistFile a pid) s
  | .unregistAdmin a pid => after (SharedMemoryContext.unregistAdmin a pid) s
  | .isFileOpening fileId => after (SharedMemoryContext.isFileOpening fileId) s
  | .acquireFreeBucket a num fileId isWrite =>
      after (SharedMemoryContext.acquireFreeBucket a num fileId isWrite) s
  | .markBucketEvicting a => after (SharedMemoryContext.markBucketEvicting a) s
  | .evictBucketFinishAndTryAcquire b a fileId isWrite =>
      after (SharedMemoryContext.evictBucketFinishAndTryAcquire b a fileId isWrite) s
  | .evictBucketFinishAndTryFree b a =>
      after (SharedMemoryContext.evictBucketFinishAndTryFree b a) s
  | .markBucketLoading b i a fileId => after (SharedMemoryContext.markBucketLoading b i a fileId) s
  | .markLoadFinish b a => after (SharedMemoryContext.markLoadFinish b a) s
  | .releaseBuckets blocks => after (SharedMemoryContext.releaseBuckets blocks) s
  | .activateBucket fileId block a isWrite =>
      after (SharedMemoryContext.activateBucket fileId block a isWrite) s
  | .inactivateBuckets fileId a blocks =>
      after (SharedMemoryContext.inactivateBuckets fileId a blocks) s
  | .updateActiveFileInfo block fileId =>
      after (SharedMemoryContext.updateActiveFileInfo block fileId) s
  | .deleteBlocks fileId blocks => after (SharedMemoryContext.deleteBlocks fileId blocks) s
  | .updateBucketDataSize b size fileId a =>
      after (SharedMemoryContext.updateBucketDataSize cfg b size fileId a) s
  | .getBucketDataSize b fileId i =>
      after (SharedMemoryContext.getBucketDataSize cfg b fileId i) s

/-- Every operation can be called in every state. -/
def step (cfg : Config) (s : SharedMem) (op : ShmOp) : Option SharedMem := some (op.run cfg s)

/-- The slot that a bucket names as its evictor records the bucket's block. -/
def recorded (s : SharedMem) (x : ShareMemBucket) : Bool :=
  (x.evictLoadActiveId.bind (s.activeStatus[·]?)).any fun slot =>
    slot.evictFileId = x.fileId && slot.fileBlockIndex = x.fileBlockIndex

/-- Every bucket that the blocks name satisfies `p`. -/
def Named (s : SharedMem) (blocks : List Block) (p : ShareMemBucket → Prop) : Prop :=
  ∀ block ∈ blocks, ∀ b ∈ block.bucketId, ∀ x ∈ s.buckets[b]?, p x

/-- The bucket whose eviction the handle ends is in evicting state, unless it was
stolen. -/
def Holds (s : SharedMem) (bucketId : Option Nat) (a : Nat) : Prop :=
  ∀ slot ∈ s.activeStatus[a]?, slot.stolen = false →
    ∀ b ∈ bucketId, ∀ x ∈ s.buckets[b]?, x.bucketClass = .evicting

/-- The inactivation of a bucket by `a` may leave it in used state. -/
def Inactivable (a : Nat) (x : ShareMemBucket) : Prop :=
  x.loading = false ∧ x.evicting = false ∨
    ∃ info ∈ Library.entries x.activeInfos, info.activeId ≠ a

/-- When an operation keeps the counters right: every bucket that it moves is in
the class it is moved from. -/
def Safe (s : SharedMem) : ShmOp → Prop
  | .evictBucketFinishAndTryAcquire bucketId a _ _ => Holds s bucketId a
  | .evictBucketFinishAndTryFree bucketId a => Holds s bucketId a
  | .markBucketLoading b i _ fileId =>
      s.activeStatus.any (SharedMemoryContext.slotLoads fileId i) = true ∨
        s.buckets[b]?.map ShareMemBucket.bucketClass = some .active
  | .markLoadFinish b _ => s.buckets[b]?.map ShareMemBucket.bucketClass = some .loading
  | .releaseBuckets blocks => Named s blocks fun x => x.bucketClass ≠ .loading
  | .activateBucket fileId block _ _ => Named s [block] fun x => x.fileId = fileId →
      x.fileBlockIndex = block.blockId → x.bucketClass = .evicting → recorded s x = true
  | .inactivateBuckets _ a blocks => Named s blocks fun x => x.type = .active → Inactivable a x
  | .deleteBlocks fileId blocks => Named s blocks fun x => x.fileId = fileId →
      x.bucketClass ≠ .evicting
  | _ => True

instance (s : SharedMem) (blocks : List Block) (p : ShareMemBucket → Prop) [DecidablePred p] :
    Decidable (Named s blocks p) :=
  inferInstanceAs (Decidable (∀ block ∈ blocks, ∀ b ∈ block.bucketId, ∀ x ∈ s.buckets[b]?, p x))

instance (s : SharedMem) (bucketId : Option Nat) (a : Nat) : Decidable (Holds s bucketId a) :=
  inferInstanceAs (Decidable (∀ slot ∈ s.activeStatus[a]?, slot.stolen = false →
    ∀ b ∈ bucketId, ∀ x ∈ s.buckets[b]?, x.bucketClass = .evicting))

instance (a : Nat) (x : ShareMemBucket) : Decidable (Inactivable a x) :=
  inferInstanceAs (Decidable (_ ∨ ∃ info ∈ Library.entries x.activeInfos, info.activeId ≠ a))

instance (s : SharedMem) : (op : ShmOp) → Decidable (op.Safe s)
  | .evictBucketFinishAndTryAcquire bucketId a _ _ =>
      inferInstanceAs (Decidable (Holds s bucketId a))
  | .evictBucketFinishAndTryFree bucketId a => inferInstanceAs (Decidable (Holds s bucketId a))
  | .markBucketLoading b _ _ _ => inferInstanceAs (Decidable (_ = true ∨
      s.buckets[b]?.map ShareMemBucket.bucketClass = some .active))
  | .markLoadFinish b _ => inferInstanceAs (Decidable
      (s.buckets[b]?.map ShareMemBucket.bucketClass = some .loading))
  | .releaseBuckets blocks => inferInstanceAs (Decidable (Named s blocks _))
  | .activateBucket _ block _ _ => inferInstanceAs (Decidable (Named s [block] _))
  | .inactivateBuckets _ _ blocks => inferInstanceAs (Decidable (Named s blocks _))
  | .deleteBlocks _ blocks => inferInstanceAs (Decidable (Named s blocks _))
  | .registFile _ _ _ => isTrue trivial
  | .registAdmin _ => isTrue trivial
  | .unregistFile _ _ => isTrue trivial
  | .unregistAdmin _ _ => isTrue trivial
  | .isFileOpening _ => isTrue trivial
  | .acquireFreeBucket _ _ _ _ => isTrue trivial
  | .markBucketEvicting _ => isTrue trivial
  | .updateActiveFileInfo _ _ => isTrue trivial
  | .updateBucketDataSize _ _ _ _ => isTrue trivial
  | .getBucketDataSize _ _ _ => isTrue trivial

variable {s s' : SharedMem}

/-- What the named buckets satisfy survives a change of a bucket that keeps it. -/
theorem Named.modify {blocks : List Block} {p : ShareMemBucket → Prop} {b : Nat}
    {f : ShareMemBucket → ShareMemBucket} (h : Named s blocks p)
    (hbuckets : s'.buckets = s.buckets.modify b f)
    (hf : ∀ y, s.buckets[b]? = some y → p y → p (f y)) : Named s' blocks p := by
  intro block hblock i hi x hx
  rw [hbuckets, Option.mem_def, List.getElem?_modify] at hx
  obtain ⟨y, hy, rfl⟩ := Option.map_eq_some_iff.mp hx
  have hold := h block hblock i hi y hy
  split
  · next hbi =>
      subst hbi
      exact hf y hy hold
  · exact hold

/-- Registration moves no bucket. -/
theorem balanced_of_sameBuckets (hs : s.Balanced) (h : s.SameBuckets s') : s'.Balanced := by
  obtain ⟨numFile, numAdmin, hheader⟩ := h.header
  refine hs.same h.buckets ?_ (by rw [hheader])
  rw [hheader]
  funext k
  cases k <;> rfl

theorem registration_balanced {α : Type} {prog : ShmM α}
    (h : ∀ s, ∃ a s', prog s = .ok a s' ∧ (s' = s ∨ s.SameBuckets s')) :
    Keeps SharedMem.Balanced prog := by
  intro s hs
  obtain ⟨a, s', hrun, rfl | hsame⟩ := h s
  · rw [hrun]
    exact hs
  · rw [hrun]
    exact balanced_of_sameBuckets hs hsame

theorem registFile_balanced (pid : Nat) (fileId : FileId) (isDelete : Bool) :
    Keeps SharedMem.Balanced (SharedMemoryContext.registFile pid fileId isDelete) := by
  apply registration_balanced
  intro s
  obtain ⟨s', hsame, ⟨hrun, -⟩ | ⟨a, f, -, hrun, -⟩⟩ :=
    SharedMemoryContext.registFile_cases pid fileId isDelete s
  · exact ⟨none, s', hrun, Or.inr hsame⟩
  · exact ⟨some a, s', hrun, Or.inr hsame⟩

theorem registAdmin_balanced (pid : Nat) :
    Keeps SharedMem.Balanced (SharedMemoryContext.registAdmin pid) := by
  apply registration_balanced
  intro s
  obtain ⟨s', hsame, ⟨hrun, -⟩ | ⟨a, f, -, hrun, -⟩⟩ := SharedMemoryContext.registAdmin_cases pid s
  · exact ⟨none, s', hrun, Or.inr hsame⟩
  · exact ⟨some a, s', hrun, Or.inr hsame⟩

theorem unregistFile_balanced (a pid : Nat) :
    Keeps SharedMem.Balanced (SharedMemoryContext.unregistFile a pid) := by
  apply registration_balanced
  intro s
  rcases SharedMemoryContext.unregistFile_cases a pid s with
    hrun | ⟨s', f, destroy, hsame, -, hrun, -⟩
  · exact ⟨none, s, hrun, Or.inl rfl⟩
  · exact ⟨some destroy, s', hrun, Or.inr hsame⟩

theorem unregistAdmin_balanced (a pid : Nat) :
    Keeps SharedMem.Balanced (SharedMemoryContext.unregistAdmin a pid) := by
  apply registration_balanced
  intro s
  rcases SharedMemoryContext.unregistAdmin_cases a pid s with hrun | ⟨s', f, hsame, -, hrun, -⟩
  · exact ⟨false, s, hrun, Or.inl rfl⟩
  · exact ⟨true, s', hrun, Or.inr hsame⟩

/-- A move that asks nothing of its bucket. -/
theorem leads_balanced {m : Move} (h : ∀ s, m.Orderly s) :
    SharedMem.Leads SharedMem.Balanced m SharedMem.Balanced :=
  fun s _ hmove hs => hmove.balanced (h s) hs

/-- Blocks are inactivated one after the other; the others' marks, and the flags
of a bucket that stays active, are left alone. -/
theorem inactivateBuckets_balanced {a : Nat} {blocks : List Block} (fileId : FileId) :
    Keeps (fun s => s.Balanced ∧ Named s blocks fun x => x.type = .active → Inactivable a x)
      (SharedMemoryContext.inactivateBuckets fileId a blocks) := by
  refine SharedMemoryContext.inactivateBuckets_keeps ?_ ?_ ?_ fileId
  · rintro block hblock b hb s s' hmove ⟨hs, hnamed⟩
    refine ⟨hmove.balanced trivial hs, ?_⟩
    cases hmove with
    | leave hx htype hinfos hvacant =>
        refine hnamed.modify rfl fun y hy hold hactive => ?_
        obtain rfl := Option.some.inj (hx.symm.trans hy)
        rcases hold htype with hflags | ⟨info, hinfo, hne⟩
        · exact Or.inl hflags
        · exact Or.inr ⟨info,
            (Library.mem_entries_clearFirst hinfos (by simpa using hne)).mpr hinfo, hne⟩
  · rintro block hblock b hb s s' hmove ⟨hs, hnamed⟩
    cases hmove with
    | retire hx htype hinfos hvacant =>
        have horderly : Move.Orderly s (.retire a b) := by
          intro x hx'
          obtain rfl := Option.some.inj (hx.symm.trans hx')
          rcases hnamed block hblock b hb _ hx htype with hflags | ⟨info, hinfo, hne⟩
          · exact hflags
          · -- another mark would have kept the bucket active
            have := (Library.mem_entries_clearFirst hinfos (by simpa using hne)).mpr hinfo
            rw [Library.vacant_iff.mp hvacant] at this
            simp at this
        refine ⟨SharedMem.Moves.balanced (.retire hx htype hinfos hvacant) horderly hs, ?_⟩
        exact hnamed.modify rfl fun y hy hold hactive => by simp at hactive
  · rintro block hblock b hb s s' hmove ⟨hs, hnamed⟩
    refine ⟨hmove.balanced trivial hs, ?_⟩
    cases hmove with
    | leaveFailed hx htype hinfos =>
        exact hnamed.modify rfl fun y hy hold hactive => hold hactive

theorem releaseBuckets_balanced {blocks : List Block} :
    Keeps (fun s => s.Balanced ∧ Named s blocks fun x => x.bucketClass ≠ .loading)
      (SharedMemoryContext.releaseBuckets blocks) := by
  refine SharedMemoryContext.releaseBuckets_keeps ?_
  rintro block hblock b hb s s' hmove ⟨hs, hnamed⟩
  refine ⟨hmove.balanced (fun x hx => hnamed block hblock b hb x hx) hs, ?_⟩
  cases hmove with
  | release hx htype => exact hnamed.modify rfl fun y hy hold h => by cases h

theorem deleteBlocks_balanced {fileId : FileId} {blocks : List Block} :
    Keeps (fun s => s.Balanced ∧ Named s blocks fun x => x.fileId = fileId →
      x.bucketClass ≠ .evicting) (SharedMemoryContext.deleteBlocks fileId blocks) := by
  refine SharedMemoryContext.deleteBlocks_keeps ?_ ?_
  · rintro block hblock b hb s s' hmove ⟨hs, hnamed⟩
    refine ⟨hmove.balanced (fun x hx hfile => hnamed block hblock b hb x hx hfile) hs, ?_⟩
    cases hmove with
    | reset hx htype => exact hnamed.modify rfl fun y hy hold hfile h => by cases h
  · rintro block hblock b hb s s' hmove ⟨hs, hnamed⟩
    refine ⟨hmove.balanced trivial hs, ?_⟩
    cases hmove with
    | flag hx htype hevicting => exact hnamed.modify rfl fun y hy hold hfile => hold hfile

/-- The end of an eviction moves the bucket that the handle holds. -/
theorem Holds.leads {bucketId : Option Nat} {a b : Nat} (hb : bucketId = some b) :
    SharedMem.Leads (fun s => s.Balanced ∧ Holds s bucketId a) (.endTake a b) SharedMem.Balanced ∧
    SharedMem.Leads (fun s => s.Balanced ∧ Holds s bucketId a) (.endFree a b)
      SharedMem.Balanced := by
  constructor
  · rintro s s' hmove ⟨hs, hholds⟩
    refine hmove.balanced (fun x hx => ?_) hs
    cases hmove with
    | endTake w fileId hslot hstolen _ => exact hholds _ hslot hstolen b hb x hx
  · rintro s s' hmove ⟨hs, hholds⟩
    refine hmove.balanced (fun x hx => ?_) hs
    cases hmove with
    | endFree hslot hstolen _ => exact hholds _ hslot hstolen b hb x hx

/-- The activation of a used bucket fails only on a bucket that is in evicting
state without a record. -/
theorem recorded_eq_false {b : Nat} {x : ShareMemBucket} (hs : s.Balanced)
    (hmove : SharedMem.Moves (.activateFailed b) s s') (hx : s.buckets[b]? = some x) :
    x.bucketClass = .evicting ∧ recorded s x = false := by
  cases hmove with
  | activateFailed hx' htype hfailed =>
      obtain rfl := Option.some.inj (hx.symm.trans hx')
      have htidy := hs.tidy _ _ hx
      rcases hfailed with ⟨hfull, -⟩ | ⟨-, hevicting, hrecord⟩
      · obtain ⟨filled, hfilled⟩ := Library.fillFirst_of_vacant (htidy.vacant (by simp [htype]))
          (by rw [htidy.table]; decide) _
        rw [hfull] at hfilled
        cases hfilled
      · refine ⟨by simp [ShareMemBucket.bucketClass, htype, hevicting], ?_⟩
        cases he : x.evictLoadActiveId with
        | none => simp [recorded, he]
        | some e =>
            cases hslot : s.activeStatus[e]? with
            | none => simp [recorded, he, hslot]
            | some slot => simpa [recorded, he, hslot] using hrecord e slot he hslot

/-- A safe operation keeps the counters right. -/
theorem run_balanced {cfg : Config} {op : ShmOp} (hs : s.Balanced) (hsafe : op.Safe s) :
    (op.run cfg s).Balanced := by
  -- from the operation's own invariant to the counters
  have hfrom : ∀ {α : Type} {prog : ShmM α} {p : SharedMem → Prop},
      Keeps (fun t => t.Balanced ∧ p t) prog → p s → (Library.after prog s).Balanced :=
    fun hkeep hp => (hkeep.after ⟨hs, hp⟩).1
  cases op with
  | registFile pid fileId isDelete => exact (registFile_balanced pid fileId isDelete).after hs
  | registAdmin pid => exact (registAdmin_balanced pid).after hs
  | unregistFile a pid => exact (unregistFile_balanced a pid).after hs
  | unregistAdmin a pid => exact (unregistAdmin_balanced a pid).after hs
  | isFileOpening fileId => exact hs
  | acquireFreeBucket a num fileId isWrite =>
      exact (SharedMemoryContext.acquireFreeBucket_keeps (fun _ => leads_balanced fun _ => trivial)
        (fun _ => leads_balanced fun _ => trivial) num fileId isWrite).after hs
  | markBucketEvicting a =>
      have hkeep : Keeps SharedMem.Balanced (SharedMemoryContext.markBucketEvicting a) :=
        SharedMemoryContext.markBucketEvicting_spec (leads_balanced fun _ => trivial)
          (fun _ => leads_balanced fun _ => trivial)
          fun t t' b x ht _ hmove => hmove.balanced trivial ht
      exact hkeep.after hs
  | evictBucketFinishAndTryAcquire bucketId a fileId isWrite =>
      have hfinish : Spec (fun t => t.Balanced ∧ Holds t bucketId a)
          (SharedMemoryContext.evictBucketFinishAndTryAcquire bucketId a fileId isWrite)
          (fun _ => SharedMem.Balanced) (fun _ => SharedMem.Balanced) :=
        SharedMemoryContext.evictBucketFinishAndTryAcquire_spec
          (fun t _ hmove ht => hmove.balanced trivial ht.1)
          (fun t _ hmove ht => hmove.balanced trivial ht.1)
          (fun b hb t t' x _ hmove ht => (Holds.leads hb).1 t t' hmove ht) fileId isWrite
      exact Spec.after hfinish ⟨hs, hsafe⟩
  | evictBucketFinishAndTryFree bucketId a =>
      have hfinish : Spec (fun t => t.Balanced ∧ Holds t bucketId a)
          (SharedMemoryContext.evictBucketFinishAndTryFree bucketId a)
          (fun _ => SharedMem.Balanced) (fun _ => SharedMem.Balanced) :=
        SharedMemoryContext.evictBucketFinishAndTryFree_spec
          (fun t _ hmove ht => hmove.balanced trivial ht.1)
          (fun t _ hmove ht => hmove.balanced trivial ht.1)
          fun b hb => (Holds.leads hb).2
      exact Spec.after hfinish ⟨hs, hsafe⟩
  | markBucketLoading b i a fileId =>
      rcases SharedMemoryContext.markBucketLoading_cases b i a fileId s with
        ⟨-, hrun⟩ | ⟨hnone, s', hrun, hmove⟩
      · simpa [run, Library.after, hrun] using hs
      · rcases hsafe with hany | hactive
        · rw [hnone] at hany
          cases hany
        · simpa [run, Library.after, hrun] using
            hmove.balanced (Option.map_eq_some_iff.mp hactive) hs
  | markLoadFinish b a =>
      obtain ⟨s', hrun, hmove⟩ := SharedMemoryContext.markLoadFinish_move b a s
      simpa [run, Library.after, hrun] using hmove.balanced (Option.map_eq_some_iff.mp hsafe) hs
  | releaseBuckets blocks => exact hfrom releaseBuckets_balanced hsafe
  | activateBucket fileId block a isWrite =>
      rcases SharedMemoryContext.activateBucket_cases fileId block a isWrite s with
        ⟨e, hrun⟩ | ⟨b, x, hb, hx, hfile, hindex, hcases⟩
      · simpa [run, Library.after, hrun] using hs
      · rcases hcases with ⟨s', hrun, hmove | ⟨e, hmove⟩⟩ | ⟨s', hrun, hmove⟩ | ⟨e, s', hrun, hmove⟩
        · simpa [run, Library.after, hrun] using hmove.balanced trivial hs
        · simpa [run, Library.after, hrun] using hmove.balanced trivial hs
        · simpa [run, Library.after, hrun] using hmove.balanced trivial hs
        · obtain ⟨hclass, hnot⟩ := recorded_eq_false hs hmove hx
          have := hsafe block List.mem_cons_self b hb x hx hfile hindex hclass
          rw [hnot] at this
          cases this
  | inactivateBuckets fileId a blocks => exact hfrom (inactivateBuckets_balanced fileId) hsafe
  | updateActiveFileInfo block fileId =>
      have hkeep : Keeps SharedMem.Balanced
          (SharedMemoryContext.updateActiveFileInfo block fileId) :=
        SharedMemoryContext.updateActiveFileInfo_spec
          (fun _ _ => leads_balanced fun _ => trivial) (fun _ => id) fileId
      exact hkeep.after hs
  | deleteBlocks fileId blocks => exact hfrom deleteBlocks_balanced hsafe
  | updateBucketDataSize b size fileId a =>
      exact (SharedMemoryContext.updateBucketDataSize_keeps
        (fun _ => leads_balanced fun _ => trivial) b size fileId).after hs
  | getBucketDataSize b fileId i =>
      exact (SharedMemoryContext.getBucketDataSize_keeps cfg b fileId i).after hs

end ShmOp

/-- In every state that safe operations reach from a reset segment, whoever calls
them and whether they return or throw, the counters are the numbers of buckets. -/
theorem SharedMem.accounted_of_run (cfg : Config) (hfit : cfg.numberOfBlocks < 2 ^ 31)
    (s : SharedMem)
    (hrun : Run (ShmOp.step cfg) (fun s op => op.Safe s) (SharedMem.reset cfg) s) :
    s.Accounted := by
  have hbalanced : s.Balanced := by
    refine hrun.induct (balanced_reset (by omega)) fun s op s' hs hsafe hstep => ?_
    obtain rfl := Option.some.inj hstep
    exact ShmOp.run_balanced hs hsafe
  exact hbalanced.accounted

namespace ShmOp

/-- A block of the file `7` in the first bucket. -/
def firstBlock : Block := ⟨some 0, some 0, true, .active, 0⟩

/-- A handle fills a bucket and lets it go, and another handle evicts it. -/
def evicting : List ShmOp :=
  [.registFile 1 ⟨7, 0⟩ false, .registFile 2 ⟨8, 0⟩ false,
    .acquireFreeBucket 0 1 ⟨7, 0⟩ true, .updateActiveFileInfo firstBlock ⟨7, 0⟩,
    .inactivateBuckets ⟨7, 0⟩ 0 [firstBlock], .markBucketEvicting 1]

/-- The eviction ends with the bucket in the hands of the evictor. -/
theorem accounted_evicting :
    ∃ s, execute (step (.intact 2 1 4 1)) (fun s op => op.Safe s)
    (SharedMem.reset (.intact 2 1 4 1))
        (evicting ++ [.evictBucketFinishAndTryAcquire (some 0) 1 ⟨8, 0⟩ true]) = some s ∧
      s.Accounted := by
  have hsome :
      (execute (step (.intact 2 1 4 1)) (fun s op => op.Safe s) (SharedMem.reset (.intact 2 1 4 1))
      (evicting ++ [.evictBucketFinishAndTryAcquire (some 0) 1 ⟨8, 0⟩ true])).isSome = true := by
    decide +kernel
  obtain ⟨s, hs⟩ := Option.isSome_iff_exists.mp hsome
  exact ⟨s, hs, SharedMem.accounted_of_run _ (by decide) s (Run.of_execute hs)⟩

/-- The first handle takes the bucket back during the eviction and lets it go
again. -/
def stealing : List ShmOp :=
  evicting ++ [.activateBucket ⟨7, 0⟩ firstBlock 0 true, .inactivateBuckets ⟨7, 0⟩ 0 [firstBlock]]

/-- The bucket is of used type and keeps its evicting bit, but is counted as
used. -/
theorem miscounted_stealing :
    ¬ ∀ (cfg : Config) (s : SharedMem), cfg.numberOfBlocks < 2 ^ 31 →
      Run (step cfg) anyStep (SharedMem.reset cfg) s → s.Accounted := by
  intro hclaim
  have hwrong :
      ((execute (step (.intact 2 1 4 1)) anyStep (SharedMem.reset (.intact 2 1 4 1)) stealing).any
      fun s => s.header.numEvictingBuckets = 0 && s.count .evicting = 1) = true := by
    decide +kernel
  obtain ⟨s, hs, hwrong⟩ := (Option.any_eq_true _ _).mp hwrong
  have hcounter := (hclaim (.intact 2 1 4 1) s (by decide) (Run.of_execute hs)).evicting
  simp only [Bool.and_eq_true, decide_eq_true_eq] at hwrong
  rw [hwrong.1, hwrong.2] at hcounter
  cases hcounter

end ShmOp

end Gopherwood
