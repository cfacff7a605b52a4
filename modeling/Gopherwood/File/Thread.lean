/-
# What a critical section leaves to the calling thread

The body of a critical section works on the blocks, the lists and the descriptor of
its handle. The program counter, the load mutex, the stream and the position belong
to the calling thread: no body touches them, whether it returns or throws.
-/

import Gopherwood.File.System

namespace Gopherwood

open Library (Keeps Spec)

/-- The part of a handle that its calling thread keeps for itself, with what is fixed
when the handle is constructed. -/
structure Thread where
  client : Client
  fileId : FileId
  pid : Nat
  isWrite : Bool
  isDelete : Bool
  isSequence : Bool
  pos : Nat
  loadMutex : Bool
  pc : Pc
  stream : Stream

namespace FileActiveStatus

def thread (h : FileActiveStatus) : Thread where
  client := h.client
  fileId := h.fileId
  pid := h.pid
  isWrite := h.isWrite
  isDelete := h.isDelete
  isSequence := h.isSequence
  pos := h.pos
  loadMutex := h.loadMutex
  pc := h.pc
  stream := h.stream

/-- The thread of the handle is `t`. -/
def OnThread (t : Thread) (c : Ctx) : Prop := c.self.thread = t

variable {t : Thread}

/-- What a program keeps of the thread as a whole, it keeps of every part. -/
theorem keeps_of_thread {α : Type} {prog : StatusM α} (h : ∀ t, Keeps (OnThread t) prog)
    (p : Thread → Prop) : Keeps (fun c => p c.self.thread) prog := by
  refine Spec.of_pointwise fun c hc => ?_
  refine Spec.conseq (h c.self.thread) (fun c' hc' => hc' ▸ rfl) ?_ ?_
  · intro a c' hc'
    exact (show c'.self.thread = c.self.thread from hc') ▸ hc
  · intro e c' hc'
    exact (show c'.self.thread = c.self.thread from hc') ▸ hc

theorem onShm_thread {α : Type} (op : ShmM α) : Keeps (OnThread t) (onShm op) := by
  apply Spec.zoom
  intro c hc s _
  cases op s with
  | ok a s' => exact hc
  | error e s' => exact hc

theorem modifySelf_thread {f : FileActiveStatus → FileActiveStatus}
    (hf : ∀ h, (f h).thread = h.thread) : Keeps (OnThread t) (modifySelf f) :=
  Keeps.modify fun c hc => (hf c.self).trans hc

theorem myActiveId_thread : Keeps (OnThread t) myActiveId := by
  refine Keeps.bind Keeps.get fun c => ?_
  cases c.self.activeId with
  | some a => exact Keeps.pure
  | none => exact Keeps.throw

theorem blockAt_thread (i : Nat) : Keeps (OnThread t) (blockAt i) := by
  refine Keeps.bind Keeps.get fun c => ?_
  cases c.self.blockArray[i]? with
  | some block => exact Keeps.pure
  | none => exact Keeps.throw

theorem logRecord_thread (type : RecordType) (eof : Nat) (blocks : List Block) :
    Keeps (OnThread t) (logRecord type eof blocks) := by
  intro c hc
  cases hfd : c.self.fd with
  | none =>
      simp only [logRecord, Library.run_bind, Library.run_get, hfd, Library.run_throw]
      exact hc
  | some fd =>
      simp only [logRecord, Library.run_bind, Library.run_get, hfd, Library.run_set]
      exact hc

theorem catchUp_loop_thread (fuel : Nat) : Keeps (OnThread t) (catchUpManifestLogs.loop fuel) := by
  induction fuel with
  | zero => exact Keeps.pure
  | succ fuel ih =>
      refine Keeps.bind Keeps.get fun c => ?_
      cases c.self.fd with
      | none => exact Keeps.throw
      | some fd =>
          dsimp only
          generalize fetchOneLogRecord (c.folder.content fd.file) fd = result
          obtain ⟨fetched, fd'⟩ := result
          refine Keeps.bind (modifySelf_thread fun _ => rfl) fun _ => ?_
          cases fetched with
          | error e => exact Keeps.throw
          | ok found =>
              cases found with
              | none => exact Keeps.pure
              | some entry =>
                  refine Keeps.bind (modifySelf_thread fun _ => rfl) fun _ => ?_
                  cases replayRecord c.self.view entry.record with
                  | error e => exact Keeps.throw
                  | ok v => exact Keeps.bind (modifySelf_thread fun _ => rfl) fun _ => ih

theorem catchUp_thread : Keeps (OnThread t) catchUpManifestLogs := by
  refine Keeps.bind Keeps.get fun c => ?_
  cases c.self.fd with
  | none => exact Keeps.throw
  | some fd => exact catchUp_loop_thread _

theorem getSharedMemEof_thread (cfg : Config) : Keeps (OnThread t) (getSharedMemEof cfg) := by
  refine Keeps.bind Keeps.get fun c => Keeps.bind (blockAt_thread _) fun last =>
    Keeps.bind (onShm_thread _) fun size => ?_
  exact Keeps.ite (modifySelf_thread fun _ => rfl) Keeps.pure

theorem flushEof_thread (cfg : Config) : Keeps (OnThread t) (flushEof cfg) :=
  Keeps.bind (getSharedMemEof_thread cfg) fun _ => Keeps.bind Keeps.get fun _ =>
  logRecord_thread _ _ _

theorem updateInactivated_thread (cfg : Config) (blocks : List Block) :
    Keeps (OnThread t) (updateInactivated cfg blocks) := by
  induction blocks with
  | nil => exact Keeps.pure
  | cons b rest ih =>
      unfold updateInactivated
      cases b.blockId with
      | none => exact Keeps.throw
      | some i =>
          refine Keeps.bind (blockAt_thread i) fun _ => Keeps.bind (modifySelf_thread fun _ => rfl)
            fun _ => Keeps.bind Keeps.get fun c => ?_
          exact Keeps.ite (Keeps.bind (flushEof_thread cfg) fun _ => ih) ih

theorem blocksOf_thread (keys : List Nat) : Keeps (OnThread t) (blocksOf keys) := by
  induction keys with
  | nil => exact Keeps.pure
  | cons key rest ih =>
      exact Keeps.bind (blockAt_thread key) fun _ => Keeps.bind ih fun _ => Keeps.pure

theorem removeNumOfKeys_thread (num : Nat) : Keeps (OnThread t) (removeNumOfKeys num) :=
  Keeps.bind Keeps.get fun _ => Keeps.bind (modifySelf_thread fun _ => rfl) fun _ => Keeps.pure

theorem inactivateOldest_thread (cfg : Config) (num : Nat) :
    Keeps (OnThread t) (inactivateOldest cfg num) := by
  refine Keeps.bind (removeNumOfKeys_thread num) fun keys => Keeps.bind (blocksOf_thread keys)
    fun blocks => Keeps.bind Keeps.get fun c => Keeps.bind myActiveId_thread fun a => ?_
  exact Keeps.bind (onShm_thread _) fun turned => Keeps.bind (updateInactivated_thread cfg turned)
    fun _ => logRecord_thread _ _ _

theorem acquireFree_thread (num : Nat) : Keeps (OnThread t) (acquireFree num) := by
  refine Keeps.bind Keeps.get fun c => Keeps.bind myActiveId_thread fun a =>
    Keeps.bind (onShm_thread _) fun ids => ?_
  exact Keeps.bind (modifySelf_thread fun _ => rfl) fun _ => Keeps.pure

theorem startEvict_thread (loop : EvictLoop) : Keeps (OnThread t) (startEvict loop) := by
  refine Keeps.ite ?_ Keeps.pure
  exact Keeps.bind myActiveId_thread fun a => Keeps.bind (onShm_thread _) fun _ => Keeps.pure

theorem adjustSize_thread (newQuota : Nat) : Keeps (OnThread t) (adjustSize newQuota) := by
  refine Keeps.bind Keeps.get fun c => Keeps.bind (modifySelf_thread fun _ => rfl) fun _ => ?_
  exact Keeps.ite Keeps.throw Keeps.pure

theorem acquireFirst_thread (cfg : Config) : Keeps (OnThread t) (acquireFirst cfg) := by
  refine Keeps.bind catchUp_thread fun _ => Keeps.bind Keeps.get fun c => ?_
  dsimp only
  cases acquirePolicy (if c.self.isSequence then min cfg.curQuotaSize preAllocateBucketNum
      else cfg.curQuotaSize) c.self.numAcquiredBuckets c.shm.header.numFreeBuckets
      c.shm.header.numUsedBuckets c.self.lruCache.size with
  | error e => exact Keeps.throw
  | ok policy =>
      have hrest := fun num => Keeps.bind (adjustSize_thread (t := t) num) fun _ =>
        Keeps.bind (acquireFree_thread (min policy.2 c.shm.header.numFreeBuckets)) fun blocks =>
          Keeps.bind (logRecord_thread .acquireNewBlock 0 blocks) fun _ =>
            startEvict_thread ⟨policy.2 - min policy.2 c.shm.header.numFreeBuckets, false, .invalid⟩
      exact Keeps.ite (Keeps.bind (inactivateOldest_thread cfg policy.1) fun _ => hrest _) (hrest _)

theorem logEvictBlock_thread (info : BlockInfo) : Keeps (OnThread t) (logEvictBlock info) := by
  refine Spec.get_bind fun c hc => Spec.ite (fun _ => ?_) fun _ => ?_
  · refine Spec.weaken_pre ?_ fun c' hc' => hc' ▸ hc
    refine Keeps.bind (logRecord_thread _ _ _) fun _ => ?_
    cases info.blockId with
    | none => exact Keeps.throw
    | some i => exact Keeps.bind (blockAt_thread i) fun _ => modifySelf_thread fun _ => rfl
  · cases c.folder.links info.fileId with
    | none => exact Spec.throw fun c' hc' => hc' ▸ hc
    | some file => exact fun c' hc' => hc

theorem finishEvict_thread (loop : EvictLoop) : Keeps (OnThread t) (finishEvict loop) := by
  refine Keeps.bind Keeps.get fun c => Keeps.bind myActiveId_thread fun a =>
    Keeps.bind (onShm_thread _) fun rc => ?_
  have hgained : ∀ rc : SharedMemoryContext.EvictResult, Keeps (OnThread t) (do
      let gained := newBlock loop.evictBlockInfo.bucketId
      modifySelf fun h => { h with preAllocatedBuckets := h.preAllocatedBuckets ++ [gained] }
      if rc = .finished then
        logEvictBlock loop.evictBlockInfo
      else
        modify fun c => { c with
          oss := c.oss.delete loop.evictBlockInfo.fileId loop.evictBlockInfo.blockId }
      return ({ loop with evicting := false, numToAcquire := dec32 loop.numToAcquire },
        [gained])) := by
    intro rc
    refine Keeps.bind (modifySelf_thread fun _ => rfl) fun _ => Keeps.ite ?_ ?_
    · exact Keeps.bind (logEvictBlock_thread _) fun _ => Keeps.pure
    · exact Keeps.bind (Keeps.modify fun _ hc => hc) fun _ => Keeps.pure
  cases rc with
  | stolen => exact Keeps.bind (Keeps.modify fun _ hc => hc) fun _ => Keeps.pure
  | finished => exact hgained .finished
  | deleted => exact hgained .deleted

/-- What a round of `acquireNewBlocks` does once the eviction before it has ended. -/
def refill (loop : EvictLoop) (gained : List Block) : StatusM EvictLoop := do
  let numAcqurieFree := min loop.numToAcquire (← get).shm.header.numFreeBuckets
  let blocks ← if numAcqurieFree > 0 then acquireFree numAcqurieFree else pure []
  logAcquireNewBlock (gained ++ blocks)
  startEvict { loop with numToAcquire := loop.numToAcquire - numAcqurieFree }

theorem acquireNext_eq (loop : EvictLoop) : acquireNext loop = (catchUpManifestLogs >>= fun _ =>
    (if loop.evicting then finishEvict loop else pure (loop, [])) >>= fun found =>
      refill found.1 found.2) := by
  unfold acquireNext
  cases loop.evicting with
  | true => rfl
  | false => rfl

theorem refill_thread (loop : EvictLoop) (gained : List Block) :
    Keeps (OnThread t) (refill loop gained) := by
  refine Keeps.bind Keeps.get fun c => ?_
  have hlog : ∀ (blocks : List Block) (next : EvictLoop), Keeps (OnThread t) (do
      logAcquireNewBlock (gained ++ blocks)
      startEvict next) :=
    fun blocks next => Keeps.bind (logRecord_thread _ _ _) fun _ => startEvict_thread next
  exact Keeps.ite (Keeps.bind (acquireFree_thread _) fun _ => hlog _ _) (hlog _ _)

theorem acquireNext_thread (loop : EvictLoop) : Keeps (OnThread t) (acquireNext loop) := by
  rw [acquireNext_eq]
  refine Keeps.bind catchUp_thread fun _ => ?_
  exact Keeps.bind (Keeps.ite (finishEvict_thread loop) Keeps.pure) fun found =>
    refill_thread found.1 found.2

theorem putActive_thread (blockId bucketId : Option Nat) :
    Keeps (OnThread t) (putActive blockId bucketId) := by
  cases blockId with
  | none => exact Keeps.throw
  | some i => exact modifySelf_thread fun _ => rfl

theorem extendOneBlock_thread : Keeps (OnThread t) extendOneBlock := by
  refine Keeps.bind Keeps.get fun c => ?_
  dsimp only
  cases c.self.preAllocatedBuckets with
  | nil => exact Keeps.throw
  | cons front rest =>
      refine Keeps.bind (modifySelf_thread fun _ => rfl) fun _ => Keeps.bind (putActive_thread _ _)
        fun _ => Keeps.bind catchUp_thread fun _ => Keeps.bind (onShm_thread _) fun _ => ?_
      exact Keeps.bind Keeps.get fun _ => logRecord_thread _ _ _

theorem makeRoom_thread (cfg : Config) : Keeps (OnThread t) (makeRoom cfg) := by
  refine Keeps.bind Keeps.get fun c => Keeps.ite (Keeps.ite ?_ ?_)
    (Keeps.ite Keeps.throw Keeps.pure)
  · exact inactivateOldest_thread cfg 1
  · cases c.self.preAllocatedBuckets.getLast? with
    | none => exact Keeps.throw
    | some block =>
        exact Keeps.bind (modifySelf_thread fun _ => rfl) fun _ => Keeps.bind (onShm_thread _)
          fun _ => logRecord_thread _ _ _

theorem startLoading_thread (cfg : Config) (blockId : Nat) :
    Keeps (OnThread t) (startLoading cfg blockId) := by
  refine Keeps.bind Keeps.get fun c => ?_
  dsimp only
  cases c.self.preAllocatedBuckets with
  | nil => exact Keeps.throw
  | cons front rest =>
      refine Keeps.bind (onShm_thread _) fun b => Keeps.bind myActiveId_thread fun a =>
        Keeps.bind (onShm_thread _) fun marked => Keeps.ite ?_ Keeps.pure
      exact Keeps.bind (modifySelf_thread fun _ => rfl) fun _ => Keeps.pure

theorem activateBlock_thread (cfg : Config) (blockId : Nat) :
    Keeps (OnThread t) (activateBlock cfg blockId) := by
  refine Keeps.bind catchUp_thread fun _ => Keeps.bind (blockAt_thread blockId) fun block => ?_
  refine Keeps.ite (startLoading_thread cfg blockId) (Keeps.ite ?_ Keeps.throw)
  refine Keeps.bind (makeRoom_thread cfg) fun _ => Keeps.bind Keeps.get fun c =>
    Keeps.bind (blockAt_thread blockId) fun block => Keeps.bind myActiveId_thread fun a =>
      Keeps.bind (onShm_thread _) fun byMe => ?_
  have hput : Keeps (OnThread t) (do
      putActive block.blockId block.bucketId
      return ActivateResult.activated) :=
    Keeps.bind (putActive_thread _ _) fun _ => Keeps.pure
  exact Keeps.ite (Keeps.bind (logRecord_thread _ _ _) fun _ => hput) hput

theorem loadSucceeded_thread (cfg : Config) (info : BlockInfo) (blockSize : Nat) :
    Keeps (OnThread t) (loadSucceeded cfg info blockSize) := by
  refine Keeps.bind Keeps.get fun c => eachLoading_keeps (fun i theBlock => ?_) _ _
  refine Keeps.bind Keeps.get fun c => Keeps.bind myActiveId_thread fun a =>
    Keeps.bind (onShm_thread _) fun b => Keeps.bind (onShm_thread _) fun _ =>
      Keeps.bind (onShm_thread _) fun _ => Keeps.bind (modifySelf_thread fun _ => rfl) fun _ =>
        Keeps.bind (putActive_thread _ _) fun _ => ?_
  cases theBlock.blockId with
  | none => exact Keeps.bind Keeps.throw fun _ => logRecord_thread _ _ _
  | some j =>
      exact Keeps.bind (blockAt_thread j) fun _ => Keeps.bind (modifySelf_thread fun _ => rfl)
        fun _ => logRecord_thread _ _ _

theorem loadFailed_thread (info : BlockInfo) : Keeps (OnThread t) (loadFailed info) := by
  refine Keeps.bind Keeps.get fun c => eachLoading_keeps (fun i theBlock => ?_) _ _
  exact Keeps.bind myActiveId_thread fun a => Keeps.bind (onShm_thread _) fun b =>
    Keeps.bind (onShm_thread _) fun _ => modifySelf_thread fun _ => rfl

theorem updateCurBlockSize_thread (cfg : Config) : Keeps (OnThread t) (updateCurBlockSize cfg) := by
  refine Keeps.bind Keeps.get fun _ => Keeps.bind catchUp_thread fun _ => Keeps.bind Keeps.get
    fun c => Keeps.ite ?_ (Keeps.ite Keeps.throw Keeps.pure)
  exact Keeps.bind (blockAt_thread _) fun _ => Keeps.bind myActiveId_thread fun _ => onShm_thread _

variable {c c' : Ctx}

theorem onShm_ok {α : Type} {op : ShmM α} {x : α} (h : onShm op c = .ok x c') :
    ∃ s, op c.shm = .ok x s ∧ c' = { c with shm := s } := by
  rw [onShm, Library.run_zoom] at h
  cases hop : op c.shm with
  | ok y s =>
      rw [hop] at h
      cases h
      exact ⟨s, rfl, rfl⟩
  | error e s =>
      rw [hop] at h
      cases h

theorem modifySelf_ok {f : FileActiveStatus → FileActiveStatus} {u : Unit}
    (h : modifySelf f c = .ok u c') : c' = { c with self := f c.self } := by
  cases h
  rfl

theorem myActiveId_ok {a : Nat} (h : myActiveId c = .ok a c') :
    c = c' ∧ c.self.activeId = some a := by
  simp only [myActiveId, Library.run_bind, Library.run_get] at h
  cases hid : c.self.activeId with
  | none =>
      rw [hid] at h
      cases h
  | some a' =>
      rw [hid] at h
      cases h
      exact ⟨rfl, rfl⟩

theorem blockAt_ok {i : Nat} {y : Block} (h : blockAt i c = .ok y c') :
    c = c' ∧ c.self.blockArray[i]? = some y := by
  simp only [blockAt, Library.run_bind, Library.run_get] at h
  cases hy : c.self.blockArray[i]? with
  | none =>
      rw [hy] at h
      cases h
  | some y' =>
      rw [hy] at h
      cases h
      exact ⟨rfl, rfl⟩

/-- The blocks of a list of keys are the entries with these keys. -/
theorem blocksOf_ok {keys : List Nat} : ∀ {c c' : Ctx} {blocks : List Block},
    blocksOf keys c = .ok blocks c' →
      c = c' ∧ List.Forall₂ (fun i block => c.self.blockArray[i]? = some block) keys blocks := by
  induction keys with
  | nil =>
      intro c c' blocks hrun
      cases hrun
      exact ⟨rfl, .nil⟩
  | cons key rest ih =>
      intro c c' blocks hrun
      obtain ⟨block, c₁, hblock, hrun⟩ := Library.bind_ok hrun
      obtain ⟨rfl, hentry⟩ := blockAt_ok hblock
      obtain ⟨others, c₂, hrest, hrun⟩ := Library.bind_ok hrun
      obtain ⟨rfl, hothers⟩ := ih hrest
      cases hrun
      exact ⟨rfl, .cons hentry hothers⟩

theorem putActive_ok {blockId bucketId : Option Nat} {u : Unit}
    (h : putActive blockId bucketId c = .ok u c') : ∃ i, blockId = some i ∧
      c' = { c with self := { c.self with lruCache := (c.self.lruCache.put i bucketId).1 } } := by
  cases blockId with
  | none => cases h
  | some i =>
      cases h
      exact ⟨i, rfl, rfl⟩

/-- What the first critical section of `acquireNewBlocks` does with its decision, once
blocks were inactivated. -/
def acquireDecided (newQuota numToAcquire numAcqurieFree : Nat) : StatusM EvictLoop := do
  adjustSize newQuota
  let blocks ← acquireFree numAcqurieFree
  logAcquireNewBlock blocks
  startEvict ⟨numToAcquire - numAcqurieFree, false, .invalid⟩

/-- The steps of the first critical section, if it returns. -/
theorem acquireFirst_returns {cfg : Config} {loop : EvictLoop}
    (h : acquireFirst cfg c = .ok loop c') :
    ∃ c₁ c₂ newQuota numToInactivate numToAcquire, catchUpManifestLogs c = .ok () c₁ ∧
      newQuota = (if c₁.self.isSequence then min cfg.curQuotaSize preAllocateBucketNum
        else cfg.curQuotaSize) ∧
      acquirePolicy newQuota c₁.self.numAcquiredBuckets c₁.shm.header.numFreeBuckets
        c₁.shm.header.numUsedBuckets c₁.self.lruCache.size = .ok (numToInactivate, numToAcquire) ∧
      (numToInactivate = 0 ∧ c₂ = c₁ ∨ inactivateOldest cfg numToInactivate c₁ = .ok () c₂) ∧
      acquireDecided newQuota numToAcquire (min numToAcquire c₁.shm.header.numFreeBuckets) c₂ =
        .ok loop c' := by
  obtain ⟨⟨⟩, c₁, hcatch, h⟩ := Library.bind_ok h
  obtain ⟨c₂, c₃, hget, h⟩ := Library.bind_ok h
  cases hget
  dsimp only at h
  cases hpolicy :
    acquirePolicy (if c₁.self.isSequence then min cfg.curQuotaSize preAllocateBucketNum
      else cfg.curQuotaSize) c₁.self.numAcquiredBuckets c₁.shm.header.numFreeBuckets
      c₁.shm.header.numUsedBuckets c₁.self.lruCache.size with
  | error e =>
      rw [hpolicy] at h
      cases h
  | ok policy =>
      obtain ⟨numToInactivate, numToAcquire⟩ := policy
      rw [hpolicy] at h
      dsimp only at h
      split at h
      · obtain ⟨⟨⟩, c₂, hinactivate, h⟩ := Library.bind_ok h
        exact ⟨c₁, c₂, _, _, _, hcatch, rfl, hpolicy, Or.inr hinactivate, h⟩
      · next hnone =>
          exact ⟨c₁, c₁, _, _, _, hcatch, rfl, hpolicy, Or.inl ⟨by omega, rfl⟩, h⟩

end FileActiveStatus

end Gopherwood
