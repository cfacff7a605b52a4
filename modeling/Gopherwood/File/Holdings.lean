/-
# The holdings of a handle

A handle holds buckets in three lists: the blocks of its cache, the preallocated
buckets, and the buckets it is loading into. The module says when they fit the
capacity of the cache, and that most of what a handle does leaves them alone and
reports no broken quota.
-/

import Gopherwood.File.QuotaPolicy

namespace Gopherwood

open Library (Keeps Spec)

namespace SharedMemoryContext

open FileActiveStatus (Tame)
open Library (Confines)

/-- No operation on the segment reports a broken quota. -/
def IsTame {α : Type} (op : ShmM α) : Prop := Confines (fun _ => True) Tame op

theorem isTame_modify (f : SharedMem → SharedMem) : IsTame (modify f : ShmM Unit) :=
  Confines.modify fun _ _ => trivial

theorem bucketAt_isTame (b : Nat) : IsTame (bucketAt b) := by
  refine Confines.bind Confines.get fun s => ?_
  cases s.buckets[b]? with
  | some bucket => exact Confines.pure
  | none => exact Confines.throw (by decide)

theorem slotAt_isTame (a : Nat) : IsTame (slotAt a) := by
  refine Confines.bind Confines.get fun s => ?_
  cases s.activeStatus[a]? with
  | some slot => exact Confines.pure
  | none => exact Confines.throw (by decide)

theorem inRange_isTame (index : Option Nat) : IsTame (inRange index) := by
  cases index with
  | some i => exact Confines.pure
  | none => exact Confines.throw (by decide)

theorem markBucket_isTame (b : Nat) (isWrite : Bool) (a : Nat) :
    IsTame (markBucket b isWrite a) := by
  refine Confines.bind (bucketAt_isTame b) fun bucket => ?_
  cases if isWrite then bucket.markWrite a else bucket.markRead a with
  | some marked => exact isTame_modify _
  | none => exact Confines.throw (by decide)

theorem unmarkBucket_isTame (b a : Nat) : IsTame (unmarkBucket b a) := by
  refine Confines.bind (bucketAt_isTame b) fun bucket => ?_
  cases bucket.unmark a with
  | some unmarked => exact isTame_modify _
  | none => exact Confines.throw (by decide)

theorem acquireLoop_isTame (a : Nat) (fileId : FileId) (isWrite : Bool) (ids : List Nat)
    (count : Int) : IsTame (acquireFreeBucket.loop a fileId isWrite ids count) := by
  induction ids generalizing count with
  | nil => exact Confines.pure
  | cons i rest ih =>
      refine Confines.bind (bucketAt_isTame i) fun bucket => Confines.ite ?_ (ih count)
      have hacquire : IsTame (acquireOne a fileId isWrite i) :=
        Confines.bind (isTame_modify _) fun _ => Confines.bind (markBucket_isTame i isWrite a)
          fun _ => isTame_modify _
      refine Confines.bind hacquire fun _ => Confines.ite Confines.pure ?_
      exact Confines.bind (ih (count - 1)) fun _ => Confines.pure

theorem acquireFreeBucket_isTame (a : Nat) (num : Int) (fileId : FileId) (isWrite : Bool) :
    IsTame (acquireFreeBucket a num fileId isWrite) := by
  refine Confines.bind Confines.get fun s => Confines.bind
    (acquireLoop_isTame a fileId isWrite _ num)
    fun result => ?_
  exact Confines.ite (Confines.bind (Confines.throw (by decide)) fun _ => Confines.pure)
    Confines.pure

theorem sweep_isTame (a fuel tries : Nat) : IsTame (sweep a fuel tries) := by
  induction fuel generalizing tries with
  | zero => exact Confines.throw (by decide)
  | succ fuel ih =>
      refine Confines.bind Confines.get fun s => Confines.bind (bucketAt_isTame _) fun bucket =>
        Confines.bind (isTame_modify _) fun _ => Confines.ite (Confines.ite ?_ ?_)
          (Confines.ite (Confines.throw (by decide)) (ih _))
      · exact Confines.bind (isTame_modify _) fun _ => ih _
      · exact Confines.bind (isTame_modify _) fun _ => Confines.bind (isTame_modify _) fun _ =>
          Confines.bind (isTame_modify _) fun _ => Confines.pure

theorem markBucketEvicting_isTame (a : Nat) : IsTame (markBucketEvicting a) :=
  Confines.bind Confines.get fun _ => sweep_isTame a _ _

theorem markBucketLoading_isTame (b blockId a : Nat) (fileId : FileId) :
    IsTame (markBucketLoading b blockId a fileId) := by
  refine Confines.bind Confines.get fun s => Confines.ite Confines.pure ?_
  exact Confines.bind (isTame_modify _) fun _ => Confines.bind (isTame_modify _) fun _ =>
    Confines.bind (isTame_modify _) fun _ => Confines.pure

theorem releaseBuckets_isTame (blocks : List Block) : IsTame (releaseBuckets blocks) := by
  induction blocks with
  | nil => exact Confines.pure
  | cons block rest ih =>
      refine Confines.bind (inRange_isTame _) fun b => Confines.bind ?_ fun _ => ih
      refine Confines.bind (bucketAt_isTame b) fun bucket => Confines.ite ?_
        (Confines.throw (by decide))
      exact Confines.bind (isTame_modify _) fun _ => isTame_modify _

theorem stealBucket_isTame (b : Nat) : IsTame (stealBucket b) := by
  refine Confines.bind (bucketAt_isTame b) fun bucket => Confines.bind (inRange_isTame _) fun e =>
    Confines.bind (slotAt_isTame e) fun slot => ?_
  exact Confines.ite (Confines.bind (isTame_modify _) fun _ => isTame_modify _)
    (Confines.bind (Confines.throw (by decide)) fun _ => isTame_modify _)

theorem activateBucket_isTame (fileId : FileId) (block : Block) (a : Nat) (isWrite : Bool) :
    IsTame (activateBucket fileId block a isWrite) := by
  refine Confines.bind (inRange_isTame _) fun b => Confines.bind (bucketAt_isTame b)
    fun bucket => ?_
  have hrest : IsTame (do
      if bucket.isUsedBucket then
        modifyBucket b ShareMemBucket.setBucketActive
        markBucket b isWrite a
        if bucket.evicting then
          stealBucket b
        else
          modifyHeader fun h => { h with
            numUsedBuckets := dec32 h.numUsedBuckets, numActiveBuckets := inc32 h.numActiveBuckets }
        return true
      else if bucket.isActiveBucket then
        markBucket b isWrite a
        return false
      else
        throw (.sharedMem "[SharedMemoryContext::activateBlock] Dead Zone, get out!")) := by
    refine Confines.ite ?_ (Confines.ite ?_ (Confines.throw (by decide)))
    · refine Confines.bind (isTame_modify _) fun _ => Confines.bind (markBucket_isTame b isWrite a)
        fun _ => ?_
      exact Confines.ite (Confines.bind (stealBucket_isTame b) fun _ => Confines.pure)
        (Confines.bind (isTame_modify _) fun _ => Confines.pure)
    · exact Confines.bind (markBucket_isTame b isWrite a) fun _ => Confines.pure
  exact Confines.ite (Confines.bind (Confines.throw (by decide)) fun _ => hrest) hrest

theorem inactivateOne_isTame (block : Block) (fileId : FileId) (a : Nat) :
    IsTame (inactivateOne block fileId a) := by
  refine Confines.bind (inRange_isTame _) fun b => Confines.bind (bucketAt_isTame b) fun bucket =>
    Confines.ite ?_ (Confines.throw (by decide))
  refine Confines.bind (isTame_modify _) fun _ => Confines.bind (unmarkBucket_isTame b a) fun _ =>
    Confines.bind (bucketAt_isTame b) fun bucket => Confines.ite ?_ Confines.pure
  exact Confines.bind (isTame_modify _) fun _ => Confines.bind (isTame_modify _) fun _ =>
    Confines.pure

theorem inactivateBuckets_isTame (fileId : FileId) (a : Nat) (blocks : List Block) :
    IsTame (inactivateBuckets fileId a blocks) := by
  induction blocks with
  | nil => exact Confines.pure
  | cons block rest ih =>
      exact Confines.bind (inactivateOne_isTame block fileId a) fun _ => Confines.bind ih fun _ =>
        Confines.pure

theorem getBucketDataSize_isTame (cfg : Config) (bucketId : Option Nat) (fileId : FileId)
    (blockId : Nat) : IsTame (getBucketDataSize cfg bucketId fileId blockId) := by
  cases bucketId with
  | none => exact Confines.throw (by decide)
  | some b =>
      let mismatch : GwError := .sharedMem "[SharedMemoryContext] Bucket status mismatch!"
      have hmismatch : Tame mismatch := by decide
      have hrest : IsTame (do
          let bucket ← bucketAt b
          if bucket.fileId ≠ fileId ∨ bucket.fileBlockIndex ≠ some blockId then
            throw mismatch
          return bucket.dataSize) := by
        refine Confines.bind (bucketAt_isTame b) fun bucket => ?_
        exact Confines.ite (Confines.bind (Confines.throw hmismatch) fun _ => Confines.pure)
          Confines.pure
      exact Confines.ite (Confines.bind (Confines.throw hmismatch) fun _ => hrest) hrest

end SharedMemoryContext

/-- The buckets that a handle holds. -/
structure Holdings where
  lruCache : LRUCache Nat (Option Nat)
  preAllocated : List Block
  loading : List Block

namespace Holdings

def total (x : Holdings) : Nat := x.lruCache.size + x.preAllocated.length + x.loading.length

/-- The holdings and `coming` more buckets fit the capacity of the cache, which is
a `uint32_t`. -/
def Fits (x : Holdings) (coming : Nat) : Prop :=
  x.total + coming ≤ x.lruCache.maxSize ∧ x.lruCache.maxSize < 2 ^ 32

/-- The `num` oldest blocks leave the cache. -/
def inactivate (x : Holdings) (num : Nat) : Holdings :=
  { x with lruCache := (x.lruCache.removeNumOfKeys num).1 }

/-- More buckets are preallocated. -/
def acquire (x : Holdings) (blocks : List Block) : Holdings :=
  { x with preAllocated := x.preAllocated ++ blocks }

theorem inactivate_zero (x : Holdings) : x.inactivate 0 = x := by
  simp [inactivate, LRUCache.removeNumOfKeys]

theorem Fits.inactivate {x : Holdings} {coming : Nat} (h : x.Fits coming) (num : Nat) :
    (x.inactivate num).Fits coming := by
  simp only [Fits, total, Holdings.inactivate, LRUCache.size_removeNumOfKeys,
    LRUCache.maxSize_removeNumOfKeys] at h ⊢
  omega

theorem Fits.acquire {x : Holdings} {coming left : Nat} {blocks : List Block} (h : x.Fits coming)
    (hlength : left + blocks.length ≤ coming) : (x.acquire blocks).Fits left := by
  simp only [Fits, total, Holdings.acquire, List.length_append] at h ⊢
  omega

theorem Fits.mono {x : Holdings} {coming left : Nat} (h : x.Fits coming) (hle : left ≤ coming) :
    x.Fits left := by
  simp only [Fits] at h ⊢
  omega

/-- `y` holds no more than `x`, under the same capacity, and has preallocated
buckets if `x` has. -/
structure Covers (x y : Holdings) : Prop where
  total : y.total ≤ x.total
  maxSize : y.lruCache.maxSize = x.lruCache.maxSize
  preAllocated : x.preAllocated ≠ [] → y.preAllocated ≠ []

theorem Covers.refl (x : Holdings) : x.Covers x := ⟨Nat.le_refl _, rfl, id⟩

theorem Covers.trans {x y z : Holdings} (h : x.Covers y) (h' : y.Covers z) : x.Covers z :=
  ⟨Nat.le_trans h'.total h.total, h'.maxSize.trans h.maxSize,
  fun hne => h'.preAllocated (h.preAllocated hne)⟩

theorem Covers.fits {x y : Holdings} (h : x.Covers y) {coming : Nat}
    (hx : x.Fits coming) : y.Fits coming := by
  have := h.total
  simp only [Fits, h.maxSize] at hx ⊢
  omega

end Holdings

namespace FileActiveStatus

open Library (Confines)
open SharedMemoryContext (IsTame)

def holdings (h : FileActiveStatus) : Holdings :=
  ⟨h.lruCache, h.preAllocatedBuckets, h.loadingBuckets⟩

/-- The handle holds `x` and its thread stands at `pc`. -/
def Holds (x : Holdings) (pc : Pc) (c : Ctx) : Prop := c.self.holdings = x ∧ c.self.pc = pc

/-- The program leaves the holdings alone and reports no broken quota. -/
def Frames {α : Type} (x : Holdings) (pc : Pc) (prog : StatusM α) : Prop :=
  Confines (Holds x pc) Tame prog

variable {x : Holdings} {pc : Pc}

theorem onShm_frames {α : Type} {op : ShmM α} (hop : IsTame op) : Frames x pc (onShm op) :=
  Confines.zoom hop fun _ _ h => h

/-- Whatever an operation on the segment throws, the handle keeps what it holds. -/
theorem onShm_holds {α : Type} (op : ShmM α) : Keeps (Holds x pc) (onShm op) :=
  Spec.zoom fun c hc => fun s _ => by
    cases op s with
    | ok a t => exact hc
    | error e t => exact hc

theorem modifySelf_frames {f : FileActiveStatus → FileActiveStatus}
    (hf : ∀ h, (f h).holdings = h.holdings ∧ (f h).pc = h.pc) : Frames x pc (modifySelf f) :=
  Confines.modify fun c hc => ⟨(hf c.self).1.trans hc.1, (hf c.self).2.trans hc.2⟩

theorem myActiveId_frames : Frames x pc myActiveId := by
  refine Confines.bind Confines.get fun c => ?_
  cases c.self.activeId with
  | some a => exact Confines.pure
  | none => exact Confines.throw (by decide)

theorem blockAt_frames (i : Nat) : Frames x pc (blockAt i) := by
  refine Confines.bind Confines.get fun c => ?_
  cases c.self.blockArray[i]? with
  | some block => exact Confines.pure
  | none => exact Confines.throw (by decide)

theorem logRecord_frames (type : RecordType) (eof : Nat) (blocks : List Block) :
    Frames x pc (logRecord type eof blocks) := by
  intro c hc
  cases hfd : c.self.fd with
  | none =>
      simp only [logRecord, Library.run_bind, Library.run_get, hfd, Library.run_throw]
      exact ⟨hc, by decide⟩
  | some fd =>
      simp only [logRecord, Library.run_bind, Library.run_get, hfd, Library.run_set]
      exact hc

/-- No replayed record reports a broken quota. -/
theorem replayRecord_tame {view : View} {r : Record} {e : GwError}
    (h : replayRecord view r = .error e) : Tame e := by
  have hfold : ∀ (state : BucketType) (ids : List (Option Nat)) (blocks : List Block) (e : GwError),
      ids.foldlM (setBlockState state) blocks = .error e → Tame e := by
    intro state ids
    induction ids with
    | nil => intro blocks e h; cases h
    | cons i rest ih =>
        intro blocks e h
        rw [List.foldlM_cons] at h
        cases hset : setBlockState state blocks i with
        | error e' =>
            rw [hset] at h
            obtain rfl := Except.error.inj h
            unfold setBlockState at hset
            split at hset
            · split at hset
              · cases hset
              · obtain rfl := Except.error.inj hset
                decide
            · obtain rfl := Except.error.inj hset
              decide
        | ok blocks' =>
            rw [hset] at h
            exact ih blocks' e h
  have hreplace : ∀ (test : Block → Bool) (error e : GwError), Tame error →
      replaceBlock test error view r.blocks = .error e → Tame e := by
    intro test error e herror h
    unfold replaceBlock at h
    split at h
    · obtain rfl := Except.error.inj h
      decide
    · split at h
      · obtain rfl := Except.error.inj h
        decide
      · split at h
        · obtain rfl := Except.error.inj h
          decide
        · split at h
          · cases h
          · obtain rfl := Except.error.inj h
            exact herror
  unfold replayRecord at h
  split at h
  · cases hrun : (r.blocks.map Block.blockId).foldlM (setBlockState .active) view.blockArray with
    | error e' =>
        rw [hrun] at h
        obtain rfl := Except.error.inj h
        exact hfold _ _ _ _ hrun
    | ok blocks =>
        rw [hrun] at h
        cases h
  · cases hrun : (r.blocks.map Block.blockId).foldlM (setBlockState .used) view.blockArray with
    | error e' =>
        rw [hrun] at h
        obtain rfl := Except.error.inj h
        exact hfold _ _ _ _ hrun
    | ok blocks =>
        rw [hrun] at h
        cases h
  · cases h
  · cases h
  · split at h
    · obtain rfl := Except.error.inj h
      decide
    · cases h
  · exact hreplace _ _ _ (by decide) h
  · exact hreplace _ _ _ (by decide) h
  · cases h
  · cases h

theorem fetchOneLogRecord_tame {bytes : LogFile} {fd : Descriptor} {e : GwError}
    (h : (fetchOneLogRecord bytes fd).1 = .error e) : Tame e := by
  unfold fetchOneLogRecord at h
  split at h
  · cases h
  · obtain rfl := Except.error.inj h
    decide
  · split at h
    · obtain rfl := Except.error.inj h
      decide
    · cases h

theorem catchUp_loop_frames (fuel : Nat) : Frames x pc (catchUpManifestLogs.loop fuel) := by
  induction fuel with
  | zero => exact Confines.pure
  | succ fuel ih =>
      refine Confines.bind Confines.get fun c => ?_
      cases c.self.fd with
      | none => exact Confines.throw (by decide)
      | some fd =>
          dsimp only
          have htame : ∀ e, (fetchOneLogRecord (c.folder.content fd.file) fd).1 = .error e →
              Tame e :=
            fun e => fetchOneLogRecord_tame
          generalize fetchOneLogRecord (c.folder.content fd.file) fd = result at htame
          obtain ⟨fetched, fd'⟩ := result
          refine Confines.bind (modifySelf_frames fun _ => ⟨rfl, rfl⟩) fun _ => ?_
          cases fetched with
          | error e => exact Confines.throw (htame e rfl)
          | ok found =>
              cases found with
              | none => exact Confines.pure
              | some entry =>
                  refine Confines.bind (modifySelf_frames fun _ => ⟨rfl, rfl⟩) fun _ => ?_
                  cases hreplay : replayRecord c.self.view entry.record with
                  | error e => exact Confines.throw (replayRecord_tame hreplay)
                  | ok v =>
                      exact Confines.bind (modifySelf_frames fun _ => ⟨rfl, rfl⟩) fun _ => ih

theorem catchUp_frames : Frames x pc catchUpManifestLogs := by
  refine Confines.bind Confines.get fun c => ?_
  cases c.self.fd with
  | none => exact Confines.throw (by decide)
  | some fd => exact catchUp_loop_frames _

theorem flushEof_frames (cfg : Config) : Frames x pc (flushEof cfg) := by
  refine Confines.bind ?_ fun _ => Confines.bind Confines.get fun c => logRecord_frames _ _ _
  refine Confines.bind Confines.get fun c => Confines.bind (blockAt_frames _) fun last => ?_
  refine Confines.bind (onShm_frames (SharedMemoryContext.getBucketDataSize_isTame _ _ _ _))
    fun size => ?_
  exact Confines.ite (modifySelf_frames fun _ => ⟨rfl, rfl⟩) Confines.pure

theorem updateInactivated_frames (cfg : Config) (blocks : List Block) :
    Frames x pc (updateInactivated cfg blocks) := by
  induction blocks with
  | nil => exact Confines.pure
  | cons b rest ih =>
      unfold updateInactivated
      cases b.blockId with
      | none => exact Confines.throw (by decide)
      | some i =>
          refine Confines.bind (blockAt_frames i) fun _ => Confines.bind
            (modifySelf_frames fun _ => ⟨rfl, rfl⟩) fun _ => Confines.bind Confines.get fun c => ?_
          exact Confines.ite (Confines.bind (flushEof_frames cfg) fun _ => ih) ih

theorem blocksOf_frames (keys : List Nat) : Frames x pc (blocksOf keys) := by
  induction keys with
  | nil => exact Confines.pure
  | cons key rest ih =>
      exact Confines.bind (blockAt_frames key) fun _ => Confines.bind ih fun _ => Confines.pure

end FileActiveStatus

end Gopherwood
