/-
# Usage counts in the critical sections

An inactivation adds the count of a block to that of its bucket. As long as these
sums fit in sixteen bits, a critical section brings no negative count into the
handle, the segment or the manifests.
-/

import Gopherwood.File.BlockCounts

namespace Gopherwood

open Library (Keeps Spec)

namespace FileActiveStatus

theorem getSharedMemEof_counted (cfg : Config) : Keeps Ctx.Counted (getSharedMemEof cfg) := by
  refine Keeps.bind Keeps.get fun c => Keeps.bind (blockAt_counted _) fun last => ?_
  refine Keeps.bind (onShm_counted (SharedMemoryContext.getBucketDataSize_keeps _ _ _ _))
    fun size => ?_
  exact Keeps.ite (modifyOther_counted fun _ => ⟨rfl, rfl, rfl⟩) Keeps.pure

theorem flushEof_counted (cfg : Config) : Keeps Ctx.Counted (flushEof cfg) :=
  Keeps.bind (getSharedMemEof_counted cfg) fun _ =>
    Keeps.bind Keeps.get fun _ => logRecord_counted _ _ _

theorem updateInactivated_counted (cfg : Config) (blocks : List Block) :
    Keeps Ctx.Counted (updateInactivated cfg blocks) := by
  induction blocks with
  | nil => exact Keeps.pure
  | cons b rest ih =>
      unfold updateInactivated
      cases b.blockId with
      | none => exact Keeps.throw
      | some i =>
          refine Keeps.bind (blockAt_counted i) fun _ => ?_
          refine Keeps.bind (modifySelf_counted fun h hh => ⟨?_, hh.preAllocated, hh.loading⟩)
            fun _ => ?_
          · apply hh.blocks.modify
            intro block hblock
            exact hh.blocks block (List.mem_of_getElem? hblock)
          · refine Keeps.bind Keeps.get fun c => Keeps.ite ?_ ih
            exact Keeps.bind (flushEof_counted cfg) fun _ => ih

/-- The blocks of some keys. -/
def blocksAt (h : FileActiveStatus) (keys : List Nat) : List Block :=
  keys.filterMap fun key => h.blockArray[key]?

theorem tallied_blocksAt {h : FileActiveStatus} (hh : h.Counted) (keys : List Nat) :
    Tallied (h.blocksAt keys) := by
  intro block hblock
  obtain ⟨key, -, hkey⟩ := List.mem_filterMap.mp hblock
  exact hh.blocks block (List.mem_of_getElem? hkey)

theorem blocksOf_eq (keys : List Nat) (c : Ctx) :
    blocksOf keys c = .ok (c.self.blocksAt keys) c ∨ ∃ e, blocksOf keys c = .error e c := by
  induction keys with
  | nil => exact Or.inl rfl
  | cons key rest ih =>
      cases hblock : c.self.blockArray[key]? with
      | none =>
          right
          exact ⟨.undefined, by simp [blocksOf, blockAt, hblock]⟩
      | some block =>
          rcases ih with hrest | ⟨e, hrest⟩
          · left
            simp [blocksOf, blockAt, hblock, hrest, blocksAt]
          · right
            exact ⟨e, by simp [blocksOf, blockAt, hblock, hrest]⟩

/-- The inactivation of blocks of the handle for which there is room. -/
theorem onShm_inactivate_counted {blocks : List Block} (hblocks : Tallied blocks) (fileId : FileId)
    (a : Nat) :
    Spec (fun c => c.Counted ∧ c.shm.Roomy blocks)
      (onShm (SharedMemoryContext.inactivateBuckets fileId a blocks))
      (fun _ => Ctx.Counted) (fun _ => Ctx.Counted) := by
  apply Spec.zoom
  rintro c ⟨hc, hroom⟩ s rfl
  have hs := SharedMemoryContext.inactivateBuckets_counted fileId a hblocks c.shm ⟨hc.shm, hroom⟩
  revert hs
  cases SharedMemoryContext.inactivateBuckets fileId a blocks c.shm with
  | ok turned s => exact fun hs => ⟨hs, hc.folder, hc.self⟩
  | error e s => exact fun hs => ⟨hs, hc.folder, hc.self⟩

theorem onShm_release_counted (released blocks : List Block) :
    Spec (fun c => c.Counted ∧ c.shm.Roomy blocks)
      (onShm (SharedMemoryContext.releaseBuckets released))
      (fun _ c => c.Counted ∧ c.shm.Roomy blocks) (fun _ => Ctx.Counted) := by
  apply Spec.zoom
  rintro c ⟨hc, hroom⟩ s rfl
  have hs := SharedMemoryContext.releaseBuckets_roomy released blocks c.shm ⟨hc.shm, hroom⟩
  revert hs
  cases SharedMemoryContext.releaseBuckets released c.shm with
  | ok u s => exact fun hs => ⟨⟨hs.1, hc.folder, hc.self⟩, hs.2⟩
  | error e s => exact fun hs => ⟨hs.1, hc.folder, hc.self⟩

/-- A record leaves the segment. -/
theorem logRecord_roomy (type : RecordType) (eof : Nat) (logged blocks : List Block) :
    Spec (fun c => c.Counted ∧ c.shm.Roomy blocks) (logRecord type eof logged)
      (fun _ c => c.Counted ∧ c.shm.Roomy blocks) (fun _ => Ctx.Counted) := by
  rintro c ⟨hc, hroom⟩
  have hcounted := logRecord_counted type eof logged c hc
  have hshm : Keeps (fun c' => c'.shm = c.shm) (logRecord type eof logged) := by
    intro c' hc'
    cases hfd : c'.self.fd with
    | none => simpa [logRecord, hfd] using hc'
    | some fd => simpa [logRecord, hfd] using hc'
  have hsame := hshm c rfl
  revert hcounted hsame
  cases logRecord type eof logged c with
  | ok u c' => exact fun hcounted hsame => ⟨hcounted, hsame ▸ hroom⟩
  | error e c' => exact fun hcounted _ => hcounted

/-- The counts of their buckets leave room for the blocks of the keys. -/
def Fits (c : Ctx) (keys : List Nat) : Prop := c.shm.Roomy (c.self.blocksAt keys)

instance (c : Ctx) (keys : List Nat) : Decidable (Fits c keys) :=
  inferInstanceAs (Decidable (c.shm.Roomy (c.self.blocksAt keys)))

theorem inactivateOldest_counted (cfg : Config) (num : Nat) :
    Spec (fun c => c.Counted ∧ Fits c (c.self.lruCache.removeNumOfKeys num).2)
      (inactivateOldest cfg num) (fun _ => Ctx.Counted) (fun _ => Ctx.Counted) := by
  rintro c ⟨hc, hfits⟩
  let keys := (c.self.lruCache.removeNumOfKeys num).2
  let c₁ : Ctx := { c with
    self := { c.self with lruCache := (c.self.lruCache.removeNumOfKeys num).1 } }
  have hc₁ : c₁.Counted :=
    ⟨hc.shm, hc.folder, ⟨hc.self.blocks, hc.self.preAllocated, hc.self.loading⟩⟩
  have hremove : removeNumOfKeys num c = .ok keys c₁ := rfl
  unfold inactivateOldest
  rw [Library.run_bind, hremove]
  dsimp only
  rw [Library.run_bind]
  rcases blocksOf_eq keys c₁ with hrun | ⟨e, hrun⟩
  · rw [hrun]
    dsimp only
    have hrest : Spec (fun c' => c'.Counted ∧ c'.shm.Roomy (c₁.self.blocksAt keys)) (do
        let a ← myActiveId
        let turned ← onShm (SharedMemoryContext.inactivateBuckets c₁.self.fileId a
          (c₁.self.blocksAt keys))
        updateInactivated cfg turned
        logInactivateBucket turned) (fun _ => Ctx.Counted) (fun _ => Ctx.Counted) := by
      have hmyActiveId : Spec (fun c' => c'.Counted ∧ c'.shm.Roomy (c₁.self.blocksAt keys))
          myActiveId (fun _ c' => c'.Counted ∧ c'.shm.Roomy (c₁.self.blocksAt keys))
          (fun _ => Ctx.Counted) := by
        refine Spec.get_keep fun c' hc' => ?_
        cases c'.self.activeId with
        | some a => exact Spec.pure fun _ => id
        | none => exact Spec.throw fun _ h => h.1
      refine Spec.bind hmyActiveId fun a => ?_
      refine Spec.bind (onShm_inactivate_counted (tallied_blocksAt hc₁.self keys) _ a)
        fun turned => ?_
      exact Keeps.bind (updateInactivated_counted cfg turned) fun _ => logRecord_counted _ _ _
    exact hrest c₁ ⟨hc₁, hfits⟩
  · rw [hrun]
    exact hc₁

/-! ## acquireNewBlocks -/

theorem tallied_newBlock (bucketId : Option Nat) : Tallied [newBlock bucketId] := by
  intro block hblock
  rw [List.mem_singleton.mp hblock]
  exact Int.le_refl 0

theorem acquireFree_counted (num : Nat) : Keeps Ctx.Counted (acquireFree num) := by
  refine Keeps.bind Keeps.get fun c => Keeps.bind myActiveId_counted fun a => ?_
  refine Keeps.bind (onShm_counted (SharedMemoryContext.acquireFreeBucket_counted a num _ _))
    fun ids => ?_
  have hnew : Tallied (ids.map fun id => newBlock (some id)) := by
    intro block hblock
    obtain ⟨id, -, rfl⟩ := List.mem_map.mp hblock
    exact Int.le_refl 0
  exact Keeps.bind (modifySelf_counted fun h hh =>
    ⟨hh.blocks, hh.preAllocated.append hnew, hh.loading⟩) fun _ => Keeps.pure

theorem startEvict_counted (loop : EvictLoop) : Keeps Ctx.Counted (startEvict loop) := by
  refine Keeps.ite ?_ Keeps.pure
  exact Keeps.bind myActiveId_counted fun a => Keeps.bind
    (onShm_counted (SharedMemoryContext.markBucketEvicting_counted a)) fun _ => Keeps.pure

theorem adjustSize_counted (newQuota : Nat) : Keeps Ctx.Counted (adjustSize newQuota) := by
  refine Keeps.bind Keeps.get fun c => ?_
  refine Keeps.bind (modifyOther_counted fun _ => ⟨rfl, rfl, rfl⟩) fun _ => ?_
  exact Keeps.ite Keeps.throw Keeps.pure

/-- The keys that the first critical section of `acquireNewBlocks` inactivates. -/
def keysToInactivate (cfg : Config) (c : Ctx) : List Nat :=
  match acquirePolicy
      (if c.self.isSequence then min cfg.curQuotaSize preAllocateBucketNum else cfg.curQuotaSize)
      c.self.numAcquiredBuckets c.shm.header.numFreeBuckets c.shm.header.numUsedBuckets
      c.self.lruCache.size with
  | .error _ => []
  | .ok (numToInactivate, _) => (c.self.lruCache.removeNumOfKeys numToInactivate).2

theorem acquireFirst_counted (cfg : Config) :
    Spec (fun c => c.Counted ∧ Fits (Library.after catchUpManifestLogs c)
        (keysToInactivate cfg (Library.after catchUpManifestLogs c)))
      (acquireFirst cfg) (fun _ => Ctx.Counted) (fun _ => Ctx.Counted) := by
  refine section_counted (F := fun c => Fits c (keysToInactivate cfg c)) ?_
  apply Spec.get_bind
  rintro c ⟨hc, hfits⟩
  dsimp only
  unfold keysToInactivate at hfits
  cases hpolicy : acquirePolicy (if c.self.isSequence then min cfg.curQuotaSize preAllocateBucketNum
      else cfg.curQuotaSize) c.self.numAcquiredBuckets c.shm.header.numFreeBuckets
      c.shm.header.numUsedBuckets c.self.lruCache.size with
  | error e => exact Spec.throw fun _ heq => heq ▸ hc
  | ok policy =>
      rw [hpolicy] at hfits
      have hrest := fun num => Keeps.bind (adjustSize_counted num) fun _ =>
        Keeps.bind (acquireFree_counted (min policy.2 c.shm.header.numFreeBuckets)) fun blocks =>
          Keeps.bind (logRecord_counted .acquireNewBlock 0 blocks) fun _ =>
            startEvict_counted ⟨policy.2 - min policy.2 c.shm.header.numFreeBuckets, false,
            .invalid⟩
      apply Spec.ite
      · intro _
        refine Spec.bind (Spec.weaken_pre (inactivateOldest_counted cfg policy.1) ?_)
          fun _ => hrest _
        intro _ heq
        exact heq ▸ ⟨hc, hfits⟩
      · intro _
        exact Spec.weaken_pre (hrest _) fun _ heq => heq ▸ hc

theorem logEvictBlock_counted (info : BlockInfo) : Keeps Ctx.Counted (logEvictBlock info) := by
  refine Spec.get_bind fun c hc => Spec.ite (fun _ => ?_) fun _ => ?_
  · refine Spec.weaken_pre ?_ fun c' hc' => hc' ▸ hc
    refine Keeps.bind (logRecord_counted _ _ _) fun _ => ?_
    cases info.blockId with
    | none => exact Keeps.throw
    | some i =>
        refine Keeps.bind (blockAt_counted i) fun _ => modifySelf_counted fun h hh => ?_
        exact ⟨hh.blocks.set (Int.le_refl 0), hh.preAllocated, hh.loading⟩
  · cases c.folder.links info.fileId with
    | none => exact Spec.throw fun c' hc' => hc' ▸ hc
    | some file =>
        intro c' _
        refine ⟨hc.shm, hc.folder.mfWrite _ ?_, hc.self⟩
        intro block hblock
        obtain rfl := List.mem_singleton.mp hblock
        exact Int.le_refl 0

theorem finishEvict_counted (loop : EvictLoop) : Keeps Ctx.Counted (finishEvict loop) := by
  refine Keeps.bind Keeps.get fun c => Keeps.bind myActiveId_counted fun a => ?_
  refine Keeps.bind
    (onShm_counted (SharedMemoryContext.evictBucketFinishAndTryAcquire_counted _ a _ _))
      fun rc => ?_
  have hgained : ∀ rc : SharedMemoryContext.EvictResult, Keeps Ctx.Counted (do
      let gained := newBlock loop.evictBlockInfo.bucketId
      modifySelf fun h => { h with preAllocatedBuckets := h.preAllocatedBuckets ++ [gained] }
      if rc = .finished then
        logEvictBlock loop.evictBlockInfo
      else
        modify fun c => { c with
          oss := c.oss.delete loop.evictBlockInfo.fileId loop.evictBlockInfo.blockId }
      return ({ loop with evicting := false, numToAcquire := dec32 loop.numToAcquire },
        [gained])) := by
    intro rc
    refine Keeps.bind (modifySelf_counted fun h hh => ?_) fun _ => Keeps.ite ?_ ?_
    · exact ⟨hh.blocks, hh.preAllocated.append (tallied_newBlock _), hh.loading⟩
    · exact Keeps.bind (logEvictBlock_counted _) fun _ => Keeps.pure
    · exact Keeps.bind modifyOss_counted fun _ => Keeps.pure
  cases rc with
  | stolen => exact Keeps.bind modifyOss_counted fun _ => Keeps.pure
  | finished => exact hgained .finished
  | deleted => exact hgained .deleted

theorem refill_counted (loop : EvictLoop) (gained : List Block) :
    Keeps Ctx.Counted (refill loop gained) := by
  refine Keeps.bind Keeps.get fun c => ?_
  have hlog : ∀ (blocks : List Block) (next : EvictLoop), Keeps Ctx.Counted (do
      logAcquireNewBlock (gained ++ blocks)
      startEvict next) :=
    fun blocks next => Keeps.bind (logRecord_counted _ _ _) fun _ => startEvict_counted next
  exact Keeps.ite (Keeps.bind (acquireFree_counted _) fun _ => hlog _ _) (hlog _ _)

theorem acquireNext_counted (loop : EvictLoop) : Keeps Ctx.Counted (acquireNext loop) := by
  rw [acquireNext_eq]
  refine Keeps.bind catchUp_counted fun _ => ?_
  exact Keeps.bind (Keeps.ite (finishEvict_counted loop) Keeps.pure) fun found =>
    refill_counted found.1 found.2

theorem afterEvictRound_counted (caller : Caller) (loop : EvictLoop) :
    Keeps Ctx.Counted (afterEvictRound caller loop) := by
  refine Keeps.ite (modifyOther_counted fun _ => ⟨rfl, rfl, rfl⟩) (Keeps.bind Keeps.get fun c => ?_)
  exact Keeps.ite Keeps.throw (modifyOther_counted fun _ => ⟨rfl, rfl, rfl⟩)

/-! ## extendOneBlock, activateBlock and loadBlock -/

theorem putActive_counted (blockId bucketId : Option Nat) :
    Keeps Ctx.Counted (putActive blockId bucketId) := by
  cases blockId with
  | none => exact Keeps.throw
  | some i =>
      show Keeps Ctx.Counted
        (modifySelf fun h => { h with lruCache := (h.lruCache.put i bucketId).1 })
      exact modifyOther_counted fun _ => ⟨rfl, rfl, rfl⟩

theorem extendOneBlock_counted : Keeps Ctx.Counted extendOneBlock := by
  refine Spec.get_keep fun c hc => ?_
  dsimp only
  cases hpre : c.self.preAllocatedBuckets with
  | nil => exact Keeps.throw
  | cons front rest =>
      have hfront : 0 ≤ front.usageCount := hc.self.preAllocated front (hpre ▸ List.mem_cons_self)
      have hrest : Tallied rest := fun block hblock =>
        hc.self.preAllocated block (hpre ▸ List.mem_cons_of_mem _ hblock)
      refine Keeps.bind (modifySelf_counted fun h hh => ⟨?_, hrest, hh.loading⟩) fun _ => ?_
      · apply hh.blocks.append
        intro block hblock
        rw [List.mem_singleton.mp hblock]
        exact hfront
      · refine Keeps.bind (putActive_counted _ _) fun _ => Keeps.bind catchUp_counted fun _ => ?_
        refine Keeps.bind (onShm_counted (SharedMemoryContext.updateActiveFileInfo_counted _ _))
          fun _ => ?_
        exact Keeps.bind Keeps.get fun _ => logRecord_counted _ _ _

/-- The keys that `activateBlock` inactivates to make room for a local block. -/
def keysToLeave (c : Ctx) (blockId : Nat) : List Nat :=
  if (c.self.blockArray[blockId]?).any Block.isLocal ∧
      c.self.numAcquiredBuckets = c.self.lruCache.maxSize then
    (c.self.lruCache.removeNumOfKeys 1).2
  else []

theorem makeRoom_counted (cfg : Config) :
    Spec (fun c => c.Counted ∧ (c.self.numAcquiredBuckets = c.self.lruCache.maxSize →
        Fits c (c.self.lruCache.removeNumOfKeys 1).2))
      (makeRoom cfg) (fun _ => Ctx.Counted) (fun _ => Ctx.Counted) := by
  apply Spec.get_bind
  rintro c ⟨hc, hfits⟩
  dsimp only
  apply Spec.ite
  · intro hfull
    apply Spec.ite
    · intro _
      apply Spec.weaken_pre (inactivateOldest_counted cfg 1)
      intro _ heq
      exact heq ▸ ⟨hc, hfits hfull⟩
    · intro _
      refine Spec.weaken_pre (?_ : Keeps Ctx.Counted _) fun _ heq => heq ▸ hc
      cases c.self.preAllocatedBuckets.getLast? with
      | none => exact Keeps.throw
      | some block =>
          refine Keeps.bind (modifySelf_counted fun h hh => ⟨hh.blocks, ?_, hh.loading⟩)
            fun _ => ?_
          · intro block hblock
            exact hh.preAllocated block (List.dropLast_subset _ hblock)
          · exact Keeps.bind (onShm_counted (SharedMemoryContext.releaseBuckets_counted _))
              fun _ => logRecord_counted _ _ _
  · intro _
    exact Spec.weaken_pre (Keeps.ite Keeps.throw Keeps.pure) fun _ heq => heq ▸ hc

theorem startLoading_counted {cfg : Config} (hfreed : cfg.FreedIntact) (blockId : Nat) :
    Keeps Ctx.Counted (startLoading cfg blockId) := by
  refine Spec.get_keep fun c hc => ?_
  simp only [hfreed.freed]
  cases hpre : c.self.preAllocatedBuckets with
  | nil => exact Keeps.throw
  | cons front rest =>
      have hfront : 0 ≤ front.usageCount := hc.self.preAllocated front (hpre ▸ List.mem_cons_self)
      have hrest : Tallied rest := fun block hblock =>
        hc.self.preAllocated block (hpre ▸ List.mem_cons_of_mem _ hblock)
      refine Keeps.bind (onShm_counted (SharedMemoryContext.inRange_keeps _)) fun b => ?_
      refine Keeps.bind myActiveId_counted fun a => ?_
      refine Keeps.bind (onShm_counted (SharedMemoryContext.markBucketLoading_counted b _ a _))
        fun marked => Keeps.ite ?_ Keeps.pure
      refine Keeps.bind (modifySelf_counted fun h hh => ⟨hh.blocks, hrest, ?_⟩)
        fun _ => Keeps.pure
      apply hh.loading.append
      intro block hblock
      rw [List.mem_singleton.mp hblock]
      exact hfront

theorem activateLocal_counted (cfg : Config) (blockId : Nat) :
    Spec (fun c => c.Counted ∧ (c.self.numAcquiredBuckets = c.self.lruCache.maxSize →
        Fits c (c.self.lruCache.removeNumOfKeys 1).2))
      (activateLocal cfg blockId) (fun _ => Ctx.Counted) (fun _ => Ctx.Counted) := by
  refine Spec.bind (makeRoom_counted cfg) fun _ => ?_
  refine Keeps.bind Keeps.get fun c => Keeps.bind (blockAt_counted blockId) fun block => ?_
  refine Keeps.bind myActiveId_counted fun a => ?_
  refine Keeps.bind (onShm_counted (SharedMemoryContext.activateBucket_counted _ block a _))
    fun byMe => ?_
  have hput : Keeps Ctx.Counted (do
      putActive block.blockId block.bucketId
      return ActivateResult.activated) :=
    Keeps.bind (putActive_counted _ _) fun _ => Keeps.pure
  exact Keeps.ite (Keeps.bind (logRecord_counted _ _ _) fun _ => hput) hput

theorem activateBlock_counted {cfg : Config} (hfreed : cfg.FreedIntact) (blockId : Nat) :
    Spec (fun c => c.Counted ∧ Fits (Library.after catchUpManifestLogs c)
        (keysToLeave (Library.after catchUpManifestLogs c) blockId))
      (activateBlock cfg blockId) (fun _ => Ctx.Counted) (fun _ => Ctx.Counted) := by
  refine section_counted (F := fun c => Fits c (keysToLeave c blockId)) ?_
  rintro c ⟨hc, hfits⟩
  unfold keysToLeave at hfits
  rw [Library.run_bind]
  cases hblock : c.self.blockArray[blockId]? with
  | none =>
      have hrun : blockAt blockId c = .error .undefined c := by simp [blockAt, hblock]
      rw [hrun]
      exact hc
  | some block =>
      have hrun : blockAt blockId c = .ok block c := by simp [blockAt, hblock]
      rw [hblock] at hfits
      rw [hrun]
      dsimp only
      cases hlocal : block.isLocal with
      | false => exact startLoading_counted hfreed blockId c hc
      | true =>
          have hroom : c.self.numAcquiredBuckets = c.self.lruCache.maxSize →
              Fits c (c.self.lruCache.removeNumOfKeys 1).2 := by
            intro hfull
            rwa [if_pos ⟨by simp [hlocal], hfull⟩] at hfits
          by_cases hstate : block.state = .used ∨ block.state = .active
          · simp only [Bool.not_true, Bool.false_eq_true, if_false, if_pos hstate]
            exact activateLocal_counted cfg blockId c ⟨hc, hroom⟩
          · simp only [Bool.not_true, Bool.false_eq_true, if_false, if_neg hstate]
            exact hc

theorem loadSucceeded_counted (cfg : Config) (info : BlockInfo) (blockSize : Nat) :
    Keeps Ctx.Counted (loadSucceeded cfg info blockSize) := by
  refine Keeps.bind Keeps.get fun c => eachLoading_spec (fun i theBlock => ?_) _ _
  refine Spec.of_pointwise fun c hc => ?_
  obtain ⟨hc, hat⟩ := hc
  refine Spec.weaken_pre ?_ fun c' hc' => hc' ▸ hc
  have hblock : 0 ≤ theBlock.usageCount := hc.self.loading theBlock (List.mem_of_getElem? hat)
  refine Keeps.bind Keeps.get fun c => Keeps.bind myActiveId_counted fun a => ?_
  refine Keeps.bind (onShm_counted (SharedMemoryContext.inRange_keeps _)) fun b => ?_
  refine Keeps.bind (onShm_counted (SharedMemoryContext.markLoadFinish_counted b a)) fun _ => ?_
  refine Keeps.bind (onShm_counted (SharedMemoryContext.updateBucketDataSize_counted _ _ _ _ a))
    fun _ => ?_
  refine Keeps.bind (modifySelf_counted fun h hh => ⟨hh.blocks, hh.preAllocated, ?_⟩)
    fun _ => Keeps.bind (putActive_counted _ _) fun _ => ?_
  · intro block hmem
    exact hh.loading block (List.mem_of_mem_eraseIdx hmem)
  · cases theBlock.blockId with
    | none => exact Keeps.bind Keeps.throw fun _ => logRecord_counted _ _ _
    | some j =>
        refine Keeps.bind (blockAt_counted j) fun _ => ?_
        exact Keeps.bind (modifySelf_counted fun h hh =>
          ⟨hh.blocks.set hblock, hh.preAllocated, hh.loading⟩) fun _ => logRecord_counted _ _ _

theorem loadFailed_counted (info : BlockInfo) : Keeps Ctx.Counted (loadFailed info) := by
  refine Keeps.bind Keeps.get fun c => eachLoading_spec (fun i theBlock => ?_) _ _
  refine Spec.of_pointwise fun c hc => ?_
  obtain ⟨hc, hat⟩ := hc
  refine Spec.weaken_pre ?_ fun c' hc' => hc' ▸ hc
  have hblock : 0 ≤ theBlock.usageCount := hc.self.loading theBlock (List.mem_of_getElem? hat)
  refine Keeps.bind myActiveId_counted fun a => ?_
  refine Keeps.bind (onShm_counted (SharedMemoryContext.inRange_keeps _)) fun b => ?_
  refine Keeps.bind (onShm_counted (SharedMemoryContext.markLoadFinish_counted b a)) fun _ => ?_
  refine modifySelf_counted fun h hh => ⟨hh.blocks, ?_, ?_⟩
  · intro block hmem
    rcases List.mem_cons.mp hmem with rfl | hmem
    · exact hblock
    · exact hh.preAllocated block hmem
  · intro block hmem
    exact hh.loading block (List.mem_of_mem_eraseIdx hmem)

/-! ## Positions, flush and close -/

theorem updateCurBlockSize_counted (cfg : Config) : Keeps Ctx.Counted (updateCurBlockSize cfg) := by
  refine Keeps.bind Keeps.get fun c => Keeps.bind catchUp_counted fun _ =>
    Keeps.bind Keeps.get fun c' => Keeps.ite ?_ (Keeps.ite Keeps.throw Keeps.pure)
  refine Keeps.bind (blockAt_counted _) fun last => Keeps.bind myActiveId_counted fun a => ?_
  exact onShm_counted (SharedMemoryContext.updateBucketDataSize_counted _ _ _ _ a)

theorem setPosition_counted (cfg : Config) (pos : Nat) :
    Keeps Ctx.Counted (setPosition cfg pos) := by
  refine Keeps.bind (modifyOther_counted fun _ => ⟨rfl, rfl, rfl⟩) fun _ =>
    Keeps.bind Keeps.get fun c => Keeps.ite ?_ Keeps.pure
  exact Keeps.bind (modifyOther_counted fun _ => ⟨rfl, rfl, rfl⟩) fun _ =>
    updateCurBlockSize_counted cfg

theorem advance_counted (cfg : Config) (count : Nat) : Keeps Ctx.Counted (advance cfg count) := by
  refine Keeps.bind (modifyOther_counted fun _ => ⟨rfl, rfl, rfl⟩) fun _ =>
    Keeps.bind Keeps.get fun c => Keeps.bind (setPosition_counted cfg _) fun _ => ?_
  exact modifyOther_counted fun _ => ⟨rfl, rfl, rfl⟩

theorem flush_counted (cfg : Config) : Keeps Ctx.Counted (flush cfg) := by
  refine Keeps.bind Keeps.get fun c => Keeps.bind catchUp_counted fun _ =>
    Keeps.bind Keeps.get fun c' => Keeps.ite ?_ Keeps.throw
  cases c'.self.blockArray.getLast? with
  | none => exact Keeps.throw
  | some last => exact Keeps.ite (flushEof_counted cfg) Keeps.pure

/-- The count of the current block leaves room for one more access. -/
theorem getCurBlockInfo_counted (cfg : Config) :
    Spec (fun c => c.Counted ∧ ∀ block ∈ c.self.blockArray[c.self.stream.curBlockId]?,
        block.usageCount + 1 < 2 ^ 15)
      (getCurBlockInfo cfg) (fun _ => Ctx.Counted) (fun _ => Ctx.Counted) := by
  rintro c ⟨hc, hroom⟩
  cases hblock : c.self.blockArray[c.self.stream.curBlockId]? with
  | none => simpa [getCurBlockInfo, blockAt, hblock] using hc
  | some block =>
      have hcount : 0 ≤ block.usageCount := hc.self.blocks block (List.mem_of_getElem? hblock)
      have hlt : block.usageCount + 1 < 2 ^ 15 := hroom block hblock
      simp only [getCurBlockInfo, blockAt, modifySelf, Library.run_bind, Library.run_get, hblock,
        Library.run_pure, Library.run_modify]
      refine ⟨hc.shm, hc.folder, ⟨?_, hc.self.preAllocated, hc.self.loading⟩⟩
      apply hc.self.blocks.modify
      intro y hy
      obtain rfl : block = y := Option.some.inj (hblock.symm.trans hy)
      show 0 ≤ wrap16 (block.usageCount + 1)
      rw [wrap16_of_lt (by omega) hlt]
      omega

theorem registInSharedMem_counted : Keeps Ctx.Counted registInSharedMem := by
  refine Keeps.bind catchUp_counted fun _ => Keeps.bind Keeps.get fun c => ?_
  refine Keeps.bind (onShm_counted (SharedMemoryContext.registFile_counted _ _ _)) fun joined => ?_
  cases joined with
  | none => exact Keeps.throw
  | some a => exact modifyOther_counted fun _ => ⟨rfl, rfl, rfl⟩

theorem unregistInSharedMem_counted (isCancel : Bool) :
    Keeps Ctx.Counted (unregistInSharedMem isCancel) := by
  refine Keeps.bind Keeps.get fun c => Keeps.bind myActiveId_counted fun a => ?_
  refine Keeps.bind (onShm_counted (SharedMemoryContext.unregistFile_counted a _)) fun left => ?_
  cases left with
  | none => exact Keeps.throw
  | some destroy => exact modifyOther_counted fun _ => ⟨rfl, rfl, rfl⟩

theorem closeFile_counted : Keeps Ctx.Counted closeFile := by
  refine Keeps.bind Keeps.get fun c => ?_
  refine Keeps.bind (onShm_counted (SharedMemoryContext.isFileOpening_keeps _)) fun opening => ?_
  refine Keeps.ite ?_ (Keeps.ite ?_ ?_)
  · exact Keeps.bind (modifyOther_counted fun _ => ⟨rfl, rfl, rfl⟩) fun _ => Keeps.pure
  · cases blocksToDestroy c.self.blockArray with
    | error e => exact Keeps.throw
    | ok blocks =>
        refine Keeps.bind (onShm_counted (SharedMemoryContext.deleteBlocks_counted _ _)) fun _ => ?_
        refine Keeps.bind (Keeps.modify fun c hc => ?_) fun _ => Keeps.pure
        exact ⟨hc.shm, hc.folder, ⟨hc.self.blocks, hc.self.preAllocated, hc.self.loading⟩⟩
  · exact Keeps.bind (logFullStatus_counted _ _) fun _ => Keeps.pure

theorem close_counted (cfg : Config) (isCancel : Bool) :
    Spec (fun c => c.Counted ∧ Fits (Library.after catchUpManifestLogs c)
        ((Library.after catchUpManifestLogs c).self.lruCache.removeNumOfKeys
          (Library.after catchUpManifestLogs c).self.lruCache.size).2)
      (close cfg isCancel) (fun _ => Ctx.Counted) (fun _ => Ctx.Counted) := by
  refine section_counted
    (F := fun c => Fits c (c.self.lruCache.removeNumOfKeys c.self.lruCache.size).2) ?_
  rintro c ⟨hc, hfits⟩
  have hleave : Keeps Ctx.Counted (do
      unregistInSharedMem isCancel
      let remoteBlocks ← closeFile
      modifySelf fun h => { h with blockArray := [], lruCache := .empty h.lruCache.maxSize }
      return remoteBlocks) := by
    refine Keeps.bind (unregistInSharedMem_counted isCancel) fun _ => ?_
    refine Keeps.bind closeFile_counted fun remote => ?_
    exact Keeps.bind (modifySelf_counted fun h hh =>
      ⟨tallied_nil, hh.preAllocated, hh.loading⟩) fun _ => Keeps.pure
  -- the counts of the preallocated buckets are cleared before the blocks are inactivated
  have hinactivate : ∀ (a : Nat) (blocks : List Block), Tallied blocks →
      Spec (fun c' => c'.Counted ∧ c'.shm.Roomy blocks) (do
        let turned ← onShm (SharedMemoryContext.inactivateBuckets c.self.fileId a blocks)
        updateInactivated cfg turned
        if turned ≠ [] then
          logInactivateBucket turned
        unregistInSharedMem isCancel
        let remoteBlocks ← closeFile
        modifySelf fun h => { h with blockArray := [], lruCache := .empty h.lruCache.maxSize }
        return remoteBlocks) (fun _ => Ctx.Counted) (fun _ => Ctx.Counted) := by
    intro a blocks hblocks
    refine Spec.bind (onShm_inactivate_counted hblocks _ a) fun turned => ?_
    refine Keeps.bind (updateInactivated_counted cfg turned) fun _ => ?_
    exact Keeps.ite (Keeps.bind (logRecord_counted _ _ _) fun _ => hleave) hleave
  let keys := (c.self.lruCache.removeNumOfKeys c.self.lruCache.size).2
  let c₁ : Ctx := { c with
    self := { c.self with
      lruCache := (c.self.lruCache.removeNumOfKeys c.self.lruCache.size).1 } }
  have hc₁ : c₁.Counted :=
    ⟨hc.shm, hc.folder, ⟨hc.self.blocks, hc.self.preAllocated, hc.self.loading⟩⟩
  have hremove : removeNumOfKeys c.self.lruCache.size c = .ok keys c₁ := rfl
  rw [Library.run_bind, Library.run_get]
  dsimp only
  rw [Library.run_bind]
  cases ha : c.self.activeId with
  | none =>
      have hrun : myActiveId c = .error .undefined c := by simp [myActiveId, ha]
      rw [hrun]
      exact hc
  | some a =>
      have hrun : myActiveId c = .ok a c := by simp [myActiveId, ha]
      rw [hrun]
      dsimp only
      rw [Library.run_bind, hremove]
      dsimp only
      rw [Library.run_bind]
      rcases blocksOf_eq keys c₁ with hblocks | ⟨e, hblocks⟩
      · rw [hblocks]
        dsimp only
        have htallied := tallied_blocksAt hc₁.self keys
        refine Spec.ite (fun _ => ?_) (fun _ => hinactivate a _ htallied) c₁ ⟨hc₁, hfits⟩
        refine Spec.bind (onShm_release_counted _ _) fun _ => ?_
        refine Spec.bind (logRecord_roomy _ _ _ _) fun _ => hinactivate a _ htallied
      · rw [hblocks]
        exact hc₁

/-- The keys whose blocks the next step of the handle inactivates, once the log is replayed. -/
def leavingKeys (cfg : Config) (h : FileActiveStatus) (c : Ctx) : List Nat :=
  match h.pc with
  | .acquire _ => keysToInactivate cfg c
  | .activate (.preActivate counter _) => keysToLeave c (h.stream.curBlockId + counter)
  | .activate _ => keysToLeave c h.stream.curBlockId
  | .close _ => (c.self.lruCache.removeNumOfKeys c.self.lruCache.size).2
  | _ => []

/-- The handle is about to access a block whose count is still below the largest one. -/
def CanCount (h : FileActiveStatus) : Prop :=
  h.pc = .ready → ∀ block ∈ h.blockArray[h.stream.curBlockId]?, block.usageCount + 1 < 2 ^ 15

instance (h : FileActiveStatus) : Decidable h.CanCount :=
  inferInstanceAs (Decidable (h.pc = .ready →
    ∀ block ∈ h.blockArray[h.stream.curBlockId]?, block.usageCount + 1 < 2 ^ 15))

theorem Counted.of_local {h h' : FileActiveStatus} (hh : h.Counted) (hlocal : h.Local h') :
    h'.Counted := by
  obtain ⟨pc, loadMutex, stream, pos, -, rfl⟩ := hlocal
  exact ⟨hh.blocks, hh.preAllocated, hh.loading⟩

end FileActiveStatus

end Gopherwood
