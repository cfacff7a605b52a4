/-
# Acquiring exactly what was decided

`acquireNewBlocks` as one call: its first critical section decides how many buckets to
acquire, and every round of its loop uploads a victim, locks again and finds the
segment, the folder and the object store as other processes have left them. A round
whose victim was stolen leaves `evicting` set and relies on the next victim to replace
the stolen one; when free buckets cover all that is missing there is no next victim,
and the round that follows uploads and finishes the stolen one again.
-/

import Gopherwood.File.Opening
import Gopherwood.File.Quota
import Gopherwood.Library.Pairing

namespace Gopherwood

open Library (Keeps Spec bind_ok)
open Library.Pairing (Event Paired outstanding)
open SharedMemoryContext (EvictResult)

/-- What a thread of a handle finds when it locks the segment: the work of other
processes, and how the upload before it ended. -/
structure Surroundings where
  shm : SharedMem
  folder : ManifestFolder
  oss : ObjectStore
  upload : Except GwError Unit

def Surroundings.ctx (s : Surroundings) (h : FileActiveStatus) : Ctx := ⟨s.shm, s.folder, s.oss, h⟩

/-- How far a call of `acquireNewBlocks` has come. -/
inductive Acquiring
  | running (loop : EvictLoop) (h : FileActiveStatus)
  | returned (h : FileActiveStatus)
  | threw (e : GwError)

namespace FileActiveStatus

/-- The loop condition after a critical section, and what follows the loop. -/
def leaveSection : EStateM.Result GwError Ctx EvictLoop → Acquiring
  | .error e _ => .threw e
  | .ok loop c =>
      if loop.numToAcquire > 0 ∨ loop.evicting then .running loop c.self
      else if c.self.preAllocatedBuckets = [] then
        .threw (.gopherwood "Did not acquire any block!")
      else .returned c.self

/-- One round of the loop. -/
def nextRound (s : Surroundings) : Acquiring → Acquiring
  | .running loop h =>
      if loop.evicting then
        match s.upload with
        | .error e => .threw e
        | .ok _ => leaveSection (acquireNext loop (s.ctx h))
      else leaveSection (acquireNext loop (s.ctx h))
  | .returned h => .returned h
  | .threw e => .threw e

/-- `acquireNewBlocks` after its first section and `k` rounds. -/
def acquireNewBlocks (cfg : Config) (env : Nat → Surroundings) (h : FileActiveStatus) :
    Nat → Acquiring
  | 0 => leaveSection (acquireFirst cfg ((env 0).ctx h))
  | k + 1 => nextRound (env (k + 1)) (acquireNewBlocks cfg env h k)

/-- A section that leaves buckets missing ends with `markBucketEvicting`. -/
def marks : EStateM.Result GwError Ctx EvictLoop → List (Event BlockInfo)
  | .error _ _ => []
  | .ok loop _ => if loop.numToAcquire > 0 then [.start loop.evictBlockInfo] else []

/-- The upload and the end of an eviction in one round, and the next victim. The log is
replayed between the lock and the end of the eviction. -/
def roundEvents (s : Surroundings) : Acquiring → List (Event BlockInfo)
  | .running loop h =>
      if loop.evicting then
        .use loop.evictBlockInfo ::
          match s.upload with
          | .error _ => []
          | .ok _ => (if readsLog (s.ctx h) then [.finish loop.evictBlockInfo] else []) ++
              marks (acquireNext loop (s.ctx h))
      else marks (acquireNext loop (s.ctx h))
  | .returned _ => []
  | .threw _ => []

/-- The victims that the call marks, uploads and finishes in `k` rounds. -/
def victimEvents (cfg : Config) (env : Nat → Surroundings) (h : FileActiveStatus) :
    Nat → List (Event BlockInfo)
  | 0 => marks (acquireFirst cfg ((env 0).ctx h))
  | k + 1 => victimEvents cfg env h k ++ roundEvents (env (k + 1)) (acquireNewBlocks cfg env h k)

/-- The answer of `evictBucketFinishAndTryAcquire` in a round. -/
def endOfVictim (loop : EvictLoop) (c : Ctx) : Option EvictResult :=
  match (do
      catchUpManifestLogs
      let h := (← get).self
      onShm (SharedMemoryContext.evictBucketFinishAndTryAcquire loop.evictBlockInfo.bucketId
        (← myActiveId) h.fileId h.isWrite) : StatusM EvictResult) c with
  | .ok rc _ => some rc
  | .error _ _ => none

/-- What `acquireNewBlocks` decides in its Step 1. -/
def decided (cfg : Config) (c : Ctx) : Option Nat :=
  match catchUpManifestLogs c with
  | .error _ _ => none
  | .ok _ c =>
      let newQuota :=
        if c.self.isSequence then min cfg.curQuotaSize preAllocateBucketNum else cfg.curQuotaSize
      match acquirePolicy newQuota c.self.numAcquiredBuckets c.shm.header.numFreeBuckets
          c.shm.header.numUsedBuckets c.self.lruCache.size with
      | .error _ => none
      | .ok (_, numToAcquire) => some numToAcquire

/-- `acquireNewBlocks` keeps its decision: it returns with as many buckets as it decided
on, its counter never goes below zero, and it uploads and finishes only victims that it
has marked and not yet finished. -/
structure KeepsDecision (cfg : Config) (env : Nat → Surroundings) (h : FileActiveStatus) :
    Prop where
  acquired : ∀ k h', acquireNewBlocks cfg env h k = .returned h' →
    ∃ n, decided cfg ((env 0).ctx h) = some n ∧
      h'.preAllocatedBuckets.length = h.preAllocatedBuckets.length + n
  counter : ∀ k loop h' rc, acquireNewBlocks cfg env h k = .running loop h' → loop.evicting = true →
    endOfVictim loop ((env (k + 1)).ctx h') = some rc → rc ≠ .stolen → 0 < loop.numToAcquire
  paired : ∀ k, Paired (victimEvents cfg env h k)

/-- The round finds its victim stolen and free buckets for all that is missing, and
nothing throws. -/
structure StolenAndCovered (loop : EvictLoop) (h : FileActiveStatus) (s : Surroundings) : Prop where
  evicting : loop.evicting = true
  uploaded : s.upload = .ok ()
  replayed : readsLog (s.ctx h) = true
  stolen : ∃ a, h.activeId = some a ∧ IsStolen s.shm a
  covered : loop.numToAcquire ≤ s.shm.header.numFreeBuckets
  granted : 0 < loop.numToAcquire → ∀ a, h.activeId = some a →
    ∃ ids s', SharedMemoryContext.acquireFreeBucket a loop.numToAcquire h.fileId h.isWrite s.shm =
      .ok ids s'

end FileActiveStatus

namespace SharedMemoryContext

/-- The program works without the slots. -/
def IgnoresSlots {α : Type} (prog : ShmM α) : Prop :=
  ∀ s slots, prog { s with activeStatus := slots } = match prog s with
    | .ok x s' => .ok x { s' with activeStatus := slots }
    | .error e s' => .error e { s' with activeStatus := slots }

namespace IgnoresSlots

variable {α β : Type}

theorem bind {prog : ShmM α} {rest : α → ShmM β} (first : IgnoresSlots prog)
    (second : ∀ x, IgnoresSlots (rest x)) : IgnoresSlots (prog >>= rest) := by
  intro s slots
  rw [Library.run_bind, Library.run_bind, first s slots]
  cases prog s with
  | ok x s' => exact second x s' slots
  | error e s' => rfl

theorem pure (x : α) : IgnoresSlots (Pure.pure x : ShmM α) := fun _ _ => rfl

theorem throw (e : GwError) : IgnoresSlots (MonadExcept.throw e : ShmM α) := fun _ _ => rfl

theorem ite {p : Prop} [Decidable p] {thenProg elseProg : ShmM α} (hthen : IgnoresSlots thenProg)
    (helse : IgnoresSlots elseProg) : IgnoresSlots (if p then thenProg else elseProg) := by
  split
  · exact hthen
  · exact helse

theorem bucketAt (b : Nat) : IgnoresSlots (bucketAt b) := by
  intro s slots
  unfold SharedMemoryContext.bucketAt
  simp only [Library.run_bind, Library.run_get]
  cases s.buckets[b]? with
  | some x => rfl
  | none => rfl

theorem modifyBucket (b : Nat) (f : ShareMemBucket → ShareMemBucket) :
    IgnoresSlots (modifyBucket b f) := fun _ _ => rfl

theorem modifyHeader (f : ShareMemHeader → ShareMemHeader) : IgnoresSlots (modifyHeader f) :=
  fun _ _ => rfl

theorem markBucket (b : Nat) (isWrite : Bool) (a : Nat) :
    IgnoresSlots (markBucket b isWrite a) := by
  refine bind (bucketAt b) fun bucket => ?_
  cases if isWrite then bucket.markWrite a else bucket.markRead a with
  | some marked => exact modifyBucket b _
  | none => exact throw _

theorem acquireOne (a : Nat) (fileId : FileId) (isWrite : Bool) (b : Nat) :
    IgnoresSlots (acquireOne a fileId isWrite b) :=
  bind (modifyBucket b _) fun _ => bind (markBucket b isWrite a) fun _ => modifyHeader _

theorem loop (a : Nat) (fileId : FileId) (isWrite : Bool) (ids : List Nat) (count : Int) :
    IgnoresSlots (acquireFreeBucket.loop a fileId isWrite ids count) := by
  induction ids generalizing count with
  | nil => exact pure _
  | cons i rest ih =>
      refine bind (bucketAt i) fun bucket => ite ?_ (ih count)
      refine bind (acquireOne a fileId isWrite i) fun _ => ite (pure _) ?_
      exact bind (ih (count - 1)) fun _ => pure _

end IgnoresSlots

/-- Free buckets are granted whatever the slots are. -/
theorem acquireFreeBucket_of_slots {a : Nat} {num : Int} {fileId : FileId} {isWrite : Bool}
    {s s' : SharedMem} {ids : List Nat} (slots : List ShareMemActiveStatus)
    (h : acquireFreeBucket a num fileId isWrite s = .ok ids s') :
    ∃ s'', acquireFreeBucket a num fileId isWrite { s with activeStatus := slots } =
    .ok ids s'' := by
  have hignores : IgnoresSlots (do
      let found ← acquireFreeBucket.loop a fileId isWrite (List.range s.header.numBuckets) num
      if found.2 ≠ 0 then
        throw (.sharedMem "[SharedMemoryContext::acquireBlock] did not acquire enough buckets")
      return found.1) :=
    .bind (.loop a fileId isWrite _ num) fun found =>
      .ite (.bind (.throw _) fun _ => .pure _) (.pure _)
  have hrun := hignores s slots
  rw [show (do
      let found ← acquireFreeBucket.loop a fileId isWrite (List.range s.header.numBuckets) num
      if found.2 ≠ 0 then
        throw (.sharedMem "[SharedMemoryContext::acquireBlock] did not acquire enough buckets")
      return found.1 : ShmM (List Nat)) s = .ok ids s' from h] at hrun
  exact ⟨_, hrun⟩

end SharedMemoryContext

namespace FileActiveStatus

/-! ## The sections -/

variable {cfg : Config} {c c' : Ctx} {loop loop' : EvictLoop} {h h' : FileActiveStatus}

/-- What a program that frames the lists of the handle leaves of them. -/
theorem holdings_of_keeps {α : Type} {prog : StatusM α} {x : α}
    (hprog : ∀ y pc, Keeps (Holds y pc) prog) (hrun : prog c = .ok x c') :
    c'.self.holdings = c.self.holdings :=
  ((hprog c.self.holdings c.self.pc).ok ⟨rfl, rfl⟩ hrun).1

/-- The preallocated buckets are `blocks`. -/
def Preallocates (blocks : List Block) (c : Ctx) : Prop := c.self.preAllocatedBuckets = blocks

theorem preallocates_of_keeps {α : Type} {prog : StatusM α} {blocks : List Block}
    (hprog : ∀ y pc, Keeps (Holds y pc) prog) : Keeps (Preallocates blocks) prog := by
  intro c hc
  have hkeep := hprog c.self.holdings c.self.pc c ⟨rfl, rfl⟩
  revert hkeep
  cases prog c with
  | ok x c' => exact fun h => (congrArg Holdings.preAllocated h.1).trans hc
  | error e c' => exact fun h => (congrArg Holdings.preAllocated h.1).trans hc

theorem preAllocated_of_keeps {α : Type} {prog : StatusM α} {x : α}
    (hprog : ∀ y pc, Keeps (Holds y pc) prog) (hrun : prog c = .ok x c') :
    c'.self.preAllocatedBuckets = c.self.preAllocatedBuckets :=
  (preallocates_of_keeps hprog).ok rfl hrun

theorem inactivateOldest_preallocates (cfg : Config) (num : Nat) (blocks : List Block) :
    Keeps (Preallocates blocks) (inactivateOldest cfg num) := by
  have hremove : Keeps (Preallocates blocks) (removeNumOfKeys num) :=
    Keeps.bind Keeps.get fun c => Keeps.bind (Keeps.modify fun _ hc => hc) fun _ => Keeps.pure
  refine Keeps.bind hremove fun keys =>
    Keeps.bind (preallocates_of_keeps fun _ _ => (blocksOf_frames keys).keeps) fun blocks =>
      Keeps.bind Keeps.get fun c =>
        Keeps.bind (preallocates_of_keeps fun _ _ => myActiveId_frames.keeps) fun a => ?_
  refine Keeps.bind (preallocates_of_keeps fun _ _ => onShm_holds _) fun turned => ?_
  exact Keeps.bind (preallocates_of_keeps fun _ _ => (updateInactivated_frames cfg turned).keeps)
    fun _ => preallocates_of_keeps fun _ _ => (logRecord_frames _ _ _).keeps

theorem adjustSize_preallocates (newQuota : Nat) (blocks : List Block) :
    Keeps (Preallocates blocks) (adjustSize newQuota) :=
  Keeps.bind Keeps.get fun _ => Keeps.bind (Keeps.modify fun _ hc => hc) fun _ =>
    Keeps.ite Keeps.throw Keeps.pure

theorem catchUp_ok {u : Unit} (hrun : catchUpManifestLogs c = .ok u c') :
    c'.shm = c.shm ∧ c'.self.activeId = c.self.activeId ∧ c'.self.thread = c.self.thread ∧
      c'.self.holdings = c.self.holdings := by
  have hquiet := (catchUpManifestLogs_quiet c).ok ⟨.refl _, rfl, rfl, rfl⟩ hrun
  exact ⟨hquiet.2.2.1, hquiet.1.activeId, catchUp_thread.ok rfl hrun,
    holdings_of_keeps (fun _ _ => catchUp_frames.keeps) hrun⟩

/-- The next victim is chosen exactly when buckets are missing. -/
theorem startEvict_ok (hrun : startEvict loop c = .ok loop' c') :
    loop'.numToAcquire = loop.numToAcquire ∧
      c'.self.preAllocatedBuckets = c.self.preAllocatedBuckets ∧
      (0 < loop.numToAcquire → loop'.evicting = true) ∧
      (loop.numToAcquire = 0 → loop' = loop) := by
  unfold startEvict at hrun
  split at hrun
  · next hmissing =>
      obtain ⟨a, c₁, hid, hrun⟩ := bind_ok hrun
      obtain ⟨rfl, ha⟩ := myActiveId_ok hid
      obtain ⟨info, c₂, hmark, hrun⟩ := bind_ok hrun
      obtain ⟨s, -, rfl⟩ := onShm_ok hmark
      cases hrun
      exact ⟨rfl, rfl, fun _ => rfl, fun hnone => by omega⟩
  · next hnone =>
      cases hrun
      exact ⟨rfl, rfl, fun hmissing => absurd hmissing hnone, fun _ => rfl⟩

/-- As many buckets are acquired as were asked for. -/
theorem acquireFree_ok {num : Nat} {blocks : List Block} (hrun :
    acquireFree num c = .ok blocks c') :
    c'.self.preAllocatedBuckets.length = c.self.preAllocatedBuckets.length + num ∧
      ∃ a ids s, c.self.activeId = some a ∧ SharedMemoryContext.acquireFreeBucket a num
        c.self.fileId c.self.isWrite c.shm = .ok ids s := by
  obtain ⟨c₀, c₁, hget, hrun⟩ := bind_ok hrun
  cases hget
  obtain ⟨a, c₁, hid, hrun⟩ := bind_ok hrun
  obtain ⟨rfl, ha⟩ := myActiveId_ok hid
  obtain ⟨ids, c₁, hacquire, hrun⟩ := bind_ok hrun
  obtain ⟨s, hids, rfl⟩ := onShm_ok hacquire
  obtain ⟨u, c₁, hself, hrun⟩ := bind_ok hrun
  obtain rfl := modifySelf_ok hself
  cases hrun
  have hlength := length_acquireFreeBucket _ _ _ _ hids
  refine ⟨?_, a, ids, s, ha, hids⟩
  simp [hlength]

/-- A round after the eviction before it: free buckets first, then the next victim. -/
theorem refill_ok {gained : List Block} (hrun : refill loop gained c = .ok loop' c') :
    c'.self.preAllocatedBuckets.length + loop'.numToAcquire =
        c.self.preAllocatedBuckets.length + loop.numToAcquire ∧
      loop'.numToAcquire = loop.numToAcquire - c.shm.header.numFreeBuckets ∧
      (0 < loop'.numToAcquire → loop'.evicting = true) ∧
      (loop'.numToAcquire = 0 → loop'.evicting = loop.evicting) ∧
      (loop'.numToAcquire = 0 → 0 < loop.numToAcquire →
        ∃ a ids s, c.self.activeId = some a ∧ SharedMemoryContext.acquireFreeBucket a
          loop.numToAcquire c.self.fileId c.self.isWrite c.shm = .ok ids s) := by
  obtain ⟨c₀, c₁, hget, hrun⟩ := bind_ok hrun
  cases hget
  dsimp only at hrun
  generalize hnum : min loop.numToAcquire c.shm.header.numFreeBuckets = num at hrun
  -- the log and the next victim
  have hlast : ∀ {blocks : List Block} {c₁ : Ctx}, (do
      logAcquireNewBlock (gained ++ blocks)
      startEvict { loop with numToAcquire := loop.numToAcquire - num }) c₁ = .ok loop' c' →
      c'.self.preAllocatedBuckets = c₁.self.preAllocatedBuckets ∧
        loop'.numToAcquire = loop.numToAcquire - num ∧
        (0 < loop'.numToAcquire → loop'.evicting = true) ∧
        (loop'.numToAcquire = 0 → loop'.evicting = loop.evicting) := by
    intro blocks c₁ hrun
    obtain ⟨u, c₂, hlog, hrun⟩ := bind_ok hrun
    have hpre := preAllocated_of_keeps (fun _ _ => (logRecord_frames _ _ _).keeps) hlog
    obtain ⟨hleft, hpre', hsome, hnone⟩ := startEvict_ok hrun
    refine ⟨hpre'.trans hpre, hleft, fun h => hsome (hleft ▸ h), fun h => ?_⟩
    rw [hnone (hleft ▸ h)]
  split at hrun
  · next hpos =>
      obtain ⟨blocks, c₁, hfree, hrun⟩ := bind_ok hrun
      obtain ⟨hlength, a, ids, s, ha, hids⟩ := acquireFree_ok hfree
      obtain ⟨hpre, hleft, hsome, hnone⟩ := hlast hrun
      refine ⟨?_, by omega, hsome, hnone, fun hzero _ => ⟨a, ids, s, ha, ?_⟩⟩
      · rw [hpre, hlength, hleft]
        omega
      · have hall : num = loop.numToAcquire := by omega
        rw [← hall]
        exact hids
  · next hzero =>
      obtain ⟨hpre, hleft, hsome, hnone⟩ := hlast hrun
      refine ⟨?_, by omega, hsome, hnone, fun _ _ => by omega⟩
      rw [hpre, hleft]
      omega

/-- The end of an eviction either brings a bucket or finds it stolen. -/
theorem finishEvict_ok {gained : List Block} (hrun : finishEvict loop c = .ok (loop', gained) c') :
    (loop' = loop ∧ c'.self = c.self ∧ (∃ slots, c'.shm = { c.shm with activeStatus := slots }) ∧
      ∃ a, c.self.activeId = some a ∧ IsStolen c.shm a) ∨
    (loop' = { loop with evicting := false, numToAcquire := dec32 loop.numToAcquire } ∧
      c'.self.preAllocatedBuckets.length = c.self.preAllocatedBuckets.length + 1 ∧
      ∀ a, c.self.activeId = some a → ¬ IsStolen c.shm a) := by
  obtain ⟨c₀, c₁, hget, hrun⟩ := bind_ok hrun
  cases hget
  obtain ⟨a, c₁, hid, hrun⟩ := bind_ok hrun
  obtain ⟨rfl, ha⟩ := myActiveId_ok hid
  obtain ⟨rc, c₁, hend, hrun⟩ := bind_ok hrun
  obtain ⟨s, hrc, rfl⟩ := onShm_ok hend
  have hiff := evict_stolen_iff c.shm a loop.evictBlockInfo.bucketId c.self.fileId c.self.isWrite
  -- both other answers give the bucket to the handle
  have hgained : rc ≠ .stolen → (do
      let gained := newBlock loop.evictBlockInfo.bucketId
      modifySelf fun h => { h with preAllocatedBuckets := h.preAllocatedBuckets ++ [gained] }
      if rc = .finished then
        logEvictBlock loop.evictBlockInfo
      else
        modify fun c => { c with
          oss := c.oss.delete loop.evictBlockInfo.fileId loop.evictBlockInfo.blockId }
      return ({ loop with evicting := false, numToAcquire := dec32 loop.numToAcquire },
        [gained]) : StatusM (EvictLoop × List Block)) { c with shm := s } = .ok (loop', gained) c' →
      loop' = { loop with evicting := false, numToAcquire := dec32 loop.numToAcquire } ∧
        c'.self.preAllocatedBuckets.length = c.self.preAllocatedBuckets.length + 1 ∧
        ∀ a, c.self.activeId = some a → ¬ IsStolen c.shm a := by
    intro hnot hrun
    obtain ⟨u, c₁, hself, hrun⟩ := bind_ok hrun
    obtain rfl := modifySelf_ok hself
    have hspared : ∀ a', c.self.activeId = some a' → ¬ IsStolen c.shm a' := by
      intro a' ha' hstolen
      obtain rfl := Option.some.inj (ha.symm.trans ha')
      obtain ⟨s', hs'⟩ := hiff.mpr hstolen
      rw [hrc, EStateM.Result.ok.injEq] at hs'
      exact hnot hs'.1
    split at hrun
    · obtain ⟨u, c₁, hlog, hrun⟩ := bind_ok hrun
      have hpre := preAllocated_of_keeps (fun _ _ => logEvictBlock_holds _) hlog
      cases hrun
      exact ⟨rfl, by rw [hpre]; simp, hspared⟩
    · obtain ⟨u, c₁, hdelete, hrun⟩ := bind_ok hrun
      cases hdelete
      cases hrun
      exact ⟨rfl, by simp, hspared⟩
  cases rc with
  | stolen =>
      obtain ⟨u, c₁, hdelete, hrun⟩ := bind_ok hrun
      cases hdelete
      cases hrun
      refine Or.inl ⟨rfl, rfl, ?_, a, ha, hiff.mp ⟨s, hrc⟩⟩
      rcases SharedMemoryContext.evictBucketFinishAndTryAcquire_cases loop.evictBlockInfo.bucketId a
        c.self.fileId c.self.isWrite c.shm with ⟨s', hs', hmove⟩ | ⟨e, s', hs', -⟩ | ⟨i, x, s', -,
          -, hs', -⟩
      · rw [hrc, EStateM.Result.ok.injEq] at hs'
        obtain ⟨-, rfl⟩ := hs'
        cases hmove with
        | endStolen hslot hstolen => exact ⟨_, rfl⟩
      · rw [hrc] at hs'
        cases hs'
      · rw [hrc, EStateM.Result.ok.injEq] at hs'
        have hanswer := hs'.1
        split at hanswer
        · cases hanswer
        · cases hanswer
  | finished => exact Or.inr (hgained nofun hrun)
  | deleted => exact Or.inr (hgained nofun hrun)

/-- A section of the loop that returns: what is missing and what is there add up to the
same, and it leaves a victim without missing a bucket only when the victim before was
stolen and free buckets were there for all. -/
theorem acquireNext_ok (hevicting : loop.evicting = true) (hmissing : 0 < loop.numToAcquire)
    (hrun : acquireNext loop c = .ok loop' c') :
    readsLog c = true ∧ c'.self.preAllocatedBuckets.length + loop'.numToAcquire =
        c.self.preAllocatedBuckets.length + loop.numToAcquire ∧
      (0 < loop'.numToAcquire → loop'.evicting = true) ∧
      (loop'.numToAcquire = 0 → loop'.evicting = true →
        loop.numToAcquire ≤ c.shm.header.numFreeBuckets ∧ ∃ a slots ids s,
          c.self.activeId = some a ∧ IsStolen c.shm a ∧
          SharedMemoryContext.acquireFreeBucket a loop.numToAcquire c.self.fileId c.self.isWrite
            { c.shm with activeStatus := slots } = .ok ids s) := by
  rw [acquireNext_eq] at hrun
  obtain ⟨u, c₁, hcatch, hrun⟩ := bind_ok hrun
  have hreads : readsLog c = true := by
    unfold readsLog
    rw [hcatch]
  obtain ⟨hshm, hactive, hthread, hholdings⟩ := catchUp_ok hcatch
  have hpre : c₁.self.preAllocatedBuckets = c.self.preAllocatedBuckets :=
    congrArg Holdings.preAllocated hholdings
  rw [if_pos hevicting] at hrun
  obtain ⟨⟨next, gained⟩, c₂, hfinish, hrun⟩ := bind_ok hrun
  obtain ⟨htotal, hleft, hsome, hnone, hgrants⟩ := refill_ok hrun
  dsimp only at htotal hleft hnone hgrants
  rcases finishEvict_ok hfinish with ⟨rfl, hself, ⟨slots, hslots⟩, a, ha, hstolen⟩ | ⟨rfl,
    hlength, -⟩
  · have hfree : c₂.shm.header.numFreeBuckets = c.shm.header.numFreeBuckets := by
      rw [hslots, hshm]
    rw [hself, hpre] at htotal
    refine ⟨hreads, htotal, hsome, fun hzero _ => ⟨by omega, ?_⟩⟩
    obtain ⟨a', ids, s, ha', hids⟩ := hgrants hzero hmissing
    rw [hself] at ha' hids
    obtain rfl := Option.some.inj (ha.symm.trans ha')
    rw [hslots, hshm, show c₁.self.fileId = c.self.fileId from congrArg Thread.fileId hthread,
      show c₁.self.isWrite = c.self.isWrite from congrArg Thread.isWrite hthread] at hids
    exact ⟨a, slots, ids, s, hactive ▸ ha, hshm ▸ hstolen, hids⟩
  · have hdec : dec32 loop.numToAcquire = loop.numToAcquire - 1 := if_neg (by omega)
    dsimp only at htotal hleft hnone
    rw [hlength, hpre, hdec] at htotal
    rw [hdec] at hleft
    refine ⟨hreads, by omega, hsome, fun hzero hevicting' => ?_⟩
    rw [hnone hzero] at hevicting'
    cases hevicting'

/-- The first section. -/
theorem acquireFirst_ok (hrun : acquireFirst cfg c = .ok loop c') :
    ∃ n, decided cfg c = some n ∧ c'.self.preAllocatedBuckets.length + loop.numToAcquire =
        c.self.preAllocatedBuckets.length + n ∧
      (0 < loop.numToAcquire → loop.evicting = true) ∧
      (loop.numToAcquire = 0 → loop.evicting = false) := by
  obtain ⟨c₁, c₂, newQuota, numToInactivate, numToAcquire, hcatch, hquota, hpolicy, hinactivate,
    hrun⟩ := acquireFirst_returns hrun
  have hdecided : decided cfg c = some numToAcquire := by
    unfold decided
    rw [hcatch]
    dsimp only
    rw [← hquota, hpolicy]
  have hpre₁ : c₁.self.preAllocatedBuckets = c.self.preAllocatedBuckets :=
    congrArg Holdings.preAllocated (catchUp_ok hcatch).2.2.2
  have hpre₂ : c₂.self.preAllocatedBuckets = c₁.self.preAllocatedBuckets := by
    rcases hinactivate with ⟨-, rfl⟩ | hinactivate
    · rfl
    · exact (inactivateOldest_preallocates cfg _ _).ok rfl hinactivate
  obtain ⟨u, c₃, hadjust, hrun⟩ := bind_ok hrun
  have hpre₃ : c₃.self.preAllocatedBuckets = c₂.self.preAllocatedBuckets :=
    (adjustSize_preallocates _ _).ok rfl hadjust
  obtain ⟨blocks, c₄, hfree, hrun⟩ := bind_ok hrun
  obtain ⟨hlength, -⟩ := acquireFree_ok hfree
  obtain ⟨u, c₅, hlog, hrun⟩ := bind_ok hrun
  have hpre₅ := preAllocated_of_keeps (fun _ _ => (logRecord_frames _ _ _).keeps) hlog
  obtain ⟨hleft, hpre₆, hsome, hnone⟩ := startEvict_ok hrun
  dsimp only at hleft hsome hnone
  refine ⟨numToAcquire, hdecided, ?_, fun h => hsome (hleft ▸ h), fun h => ?_⟩
  · rw [hpre₆, hpre₅, hlength, hpre₃, hpre₂, hpre₁, hleft]
    omega
  · rw [hnone (hleft ▸ h)]

/-- A handle that has replayed its log has it open. -/
theorem catchUp_fd {u : Unit} (hrun : catchUpManifestLogs c = .ok u c') :
    ∃ fd, c'.self.fd = some fd := by
  have hfile : c'.self.logFile = c.self.logFile :=
    ((catchUpManifestLogs_quiet c).ok ⟨.refl _, rfl, rfl, rfl⟩ hrun).2.1
  cases hfd : c.self.fd with
  | none =>
      simp only [catchUpManifestLogs, Library.run_bind, Library.run_get, hfd] at hrun
      cases hrun
  | some fd =>
      rw [logFile, logFile, hfd, Option.map_some] at hfile
      obtain ⟨fd', hfd', -⟩ := Option.map_eq_some_iff.mp hfile
      exact ⟨fd', hfd'⟩

theorem logRecord_run (type : RecordType) (eof : Nat) (blocks : List Block) {fd : Descriptor}
    (hfd : c.self.fd = some fd) : ∃ c', logRecord type eof blocks c = .ok () c' := by
  simp only [logRecord, Library.run_bind, Library.run_get, hfd, Library.run_set]
  exact ⟨_, rfl⟩

/-- A stolen victim is given up. -/
theorem finishEvict_run (loop : EvictLoop) {a : Nat} (ha : c.self.activeId = some a)
    (hstolen : IsStolen c.shm a) :
    ∃ s oss, finishEvict loop c = .ok (loop, []) { c with shm := s, oss := oss } ∧
      ∃ slots, s = { c.shm with activeStatus := slots } := by
  obtain ⟨s, hs⟩ := (evict_stolen_iff c.shm a loop.evictBlockInfo.bucketId c.self.fileId
    c.self.isWrite).mpr hstolen
  have hid : myActiveId c = .ok a c := by simp [myActiveId, ha]
  have hrun : finishEvict loop c = .ok (loop, []) { c with
      shm := s, oss := c.oss.delete loop.evictBlockInfo.fileId loop.evictBlockInfo.blockId } := by
    simp only [finishEvict, Library.run_bind, Library.run_get, hid, run_onShm_ok hs,
      Library.run_modify, Library.run_pure]
  refine ⟨s, _, hrun, ?_⟩
  rcases finishEvict_ok hrun with ⟨-, -, hslots, -⟩ | ⟨-, -, hspared⟩
  · exact hslots
  · exact absurd hstolen (hspared a ha)

theorem acquireFree_run {a num : Nat} {ids : List Nat} {s : SharedMem}
    (ha : c.self.activeId = some a) (hids : SharedMemoryContext.acquireFreeBucket a num
      c.self.fileId c.self.isWrite c.shm = .ok ids s) :
    ∃ blocks c', acquireFree num c = .ok blocks c' ∧ c'.self.fd = c.self.fd := by
  have hid : myActiveId c = .ok a c := by simp [myActiveId, ha]
  simp only [acquireFree, Library.run_bind, Library.run_get, hid, run_onShm_ok hids, modifySelf,
    Library.run_modify, Library.run_pure]
  exact ⟨_, _, rfl, rfl⟩

/-- Free buckets cover all that is missing. -/
theorem refill_run {a : Nat} {fd : Descriptor} (ha : c.self.activeId = some a)
    (hfd : c.self.fd = some fd) (hcovered : loop.numToAcquire ≤ c.shm.header.numFreeBuckets)
    (hgranted : 0 < loop.numToAcquire → ∃ ids s, SharedMemoryContext.acquireFreeBucket a
      loop.numToAcquire c.self.fileId c.self.isWrite c.shm = .ok ids s) :
    ∃ c', refill loop [] c = .ok { loop with numToAcquire := 0 } c' := by
  have hmin : min loop.numToAcquire c.shm.header.numFreeBuckets = loop.numToAcquire :=
    Nat.min_eq_left hcovered
  -- the log is written, and nothing is missing
  have hlast : ∀ {blocks : List Block} {c₁ : Ctx}, c₁.self.fd = some fd → ∃ c', (do
      logAcquireNewBlock ([] ++ blocks)
      startEvict { loop with numToAcquire := 0 }) c₁ = .ok { loop with numToAcquire := 0 } c' := by
    intro blocks c₁ hfd
    obtain ⟨c', hlog⟩ := logRecord_run .acquireNewBlock 0 ([] ++ blocks) hfd
    refine ⟨c', ?_⟩
    rw [Library.run_bind, logAcquireNewBlock, hlog]
    rfl
  simp only [refill, Library.run_bind, Library.run_get, hmin, Nat.sub_self]
  split
  · next hmissing =>
      obtain ⟨ids, s, hids⟩ := hgranted hmissing
      obtain ⟨blocks, c₁, hfree, hfd₁⟩ := acquireFree_run ha hids
      rw [Library.run_bind, hfree]
      exact hlast (hfd₁.trans hfd)
  · exact hlast hfd

/-- The round gives up the stolen victim, and the next one begins with it. -/
theorem StolenAndCovered.acquireNext {s : Surroundings} (hs : StolenAndCovered loop h s) :
    ∃ c', FileActiveStatus.acquireNext loop (s.ctx h) = .ok { loop with numToAcquire := 0 } c' := by
  obtain ⟨a, ha, hstolen⟩ := hs.stolen
  have hreads := hs.replayed
  unfold readsLog at hreads
  split at hreads
  · next u c₁ hcatch =>
      obtain ⟨hshm, hactive, hthread, -⟩ := catchUp_ok hcatch
      obtain ⟨fd, hfd⟩ := catchUp_fd hcatch
      have ha₁ : c₁.self.activeId = some a := hactive.trans ha
      obtain ⟨s', oss, hfinish, slots, hslots⟩ := finishEvict_run loop ha₁
        (hshm.symm ▸ hstolen)
      have hgranted : 0 < loop.numToAcquire → ∃ ids s'', SharedMemoryContext.acquireFreeBucket a
          loop.numToAcquire c₁.self.fileId c₁.self.isWrite s' = .ok ids s'' := by
        intro hmissing
        obtain ⟨ids, t, hids⟩ := hs.granted hmissing a ha
        obtain ⟨t', ht'⟩ := SharedMemoryContext.acquireFreeBucket_of_slots slots hids
        rw [hslots, hshm, show c₁.self.fileId = h.fileId from congrArg Thread.fileId hthread,
          show c₁.self.isWrite = h.isWrite from congrArg Thread.isWrite hthread]
        exact ⟨ids, t', ht'⟩
      have hcovered : loop.numToAcquire ≤ s'.header.numFreeBuckets := by
        rw [hslots, hshm]
        exact hs.covered
      obtain ⟨c', hrefill⟩ := refill_run (c := { c₁ with shm := s', oss := oss }) ha₁ hfd hcovered
        hgranted
      refine ⟨c', ?_⟩
      rw [acquireNext_eq, Library.run_bind, hcatch]
      dsimp only
      rw [Library.run_bind, if_pos hs.evicting, hfinish]
      exact hrefill
  · cases hreads

/-! ## Whole calls -/

variable {env : Nat → Surroundings} {events : List (Event BlockInfo)} {k : Nat}

/-- What holds between the rounds: a running call misses buckets and has one victim
outstanding, which is the one it is about to upload. -/
def InStep (cfg : Config) (c : Ctx) (events : List (Event BlockInfo)) : Acquiring → Prop
  | .running loop h => 0 < loop.numToAcquire ∧ loop.evicting = true ∧
      outstanding events = some [loop.evictBlockInfo] ∧
      ∃ n, decided cfg c = some n ∧
        h.preAllocatedBuckets.length + loop.numToAcquire = c.self.preAllocatedBuckets.length + n
  | .returned h => Paired events ∧ ∃ n, decided cfg c = some n ∧
      h.preAllocatedBuckets.length = c.self.preAllocatedBuckets.length + n
  | .threw _ => Paired events

theorem InStep.paired {status : Acquiring} (h : InStep cfg c events status) : Paired events := by
  cases status with
  | running loop h' => exact ⟨_, h.2.2.1⟩
  | returned h' => exact h.1
  | threw e => exact h

/-- The end of a section, with no victim outstanding before the next is marked. -/
theorem inStep_of_section {result : EStateM.Result GwError Ctx EvictLoop}
    (hout : outstanding events = some [])
    (hsection : ∀ loop c', result = .ok loop c' →
      (∃ n, decided cfg c = some n ∧ c'.self.preAllocatedBuckets.length + loop.numToAcquire =
        c.self.preAllocatedBuckets.length + n) ∧
      (0 < loop.numToAcquire → loop.evicting = true) ∧
      (loop.numToAcquire = 0 → loop.evicting = false)) :
    InStep cfg c (events ++ marks result) (leaveSection result) := by
  cases result with
  | error e c' =>
      rw [show marks (.error e c') = [] from rfl, List.append_nil]
      exact ⟨[], hout⟩
  | ok loop c' =>
      obtain ⟨⟨n, hn, htotal⟩, hsome, hnone⟩ := hsection loop c' rfl
      by_cases hmissing : 0 < loop.numToAcquire
      · have hmarks : marks (.ok loop c') = [.start loop.evictBlockInfo] := if_pos hmissing
        have hleave : leaveSection (.ok loop c') = .running loop c'.self :=
          if_pos (Or.inl hmissing)
        rw [hmarks, hleave]
        refine ⟨hmissing, hsome hmissing, ?_, n, hn, htotal⟩
        rw [Library.Pairing.outstanding_append hout]
        rfl
      · have hzero : loop.numToAcquire = 0 := Nat.eq_zero_of_not_pos hmissing
        have hmarks : marks (.ok loop c') = [] := if_neg hmissing
        rw [hmarks, List.append_nil]
        unfold leaveSection
        dsimp only
        rw [if_neg (by simp [hzero, hnone hzero])]
        split
        · exact ⟨[], hout⟩
        · exact ⟨⟨[], hout⟩, n, hn, by omega⟩

theorem inStep_first (cfg : Config) (env : Nat → Surroundings) (h : FileActiveStatus) :
    InStep cfg ((env 0).ctx h) (victimEvents cfg env h 0) (acquireNewBlocks cfg env h 0) := by
  have hout : outstanding ([] : List (Event BlockInfo)) = some [] := rfl
  refine inStep_of_section hout fun loop c' hrun => ?_
  obtain ⟨n, hn, htotal, hsome, hnone⟩ := acquireFirst_ok hrun
  exact ⟨⟨n, hn, htotal⟩, hsome, hnone⟩

/-- A round keeps in step unless it finds its victim stolen and all that is missing
free. -/
theorem InStep.next {s : Surroundings} {status : Acquiring} (hstep : InStep cfg c events status)
    (hnot : ∀ loop h, status = .running loop h → ¬ StolenAndCovered loop h s) :
    InStep cfg c (events ++ roundEvents s status) (nextRound s status) := by
  cases status with
  | returned h' =>
      rw [show roundEvents s (.returned h') = [] from rfl, List.append_nil]
      exact hstep
  | threw e =>
      rw [show roundEvents s (.threw e) = [] from rfl, List.append_nil]
      exact hstep
  | running loop h' =>
      obtain ⟨hmissing, hevicting, hout, n, hn, htotal⟩ := hstep
      simp only [roundEvents, nextRound, if_pos hevicting]
      have huse : outstanding (events ++ [.use loop.evictBlockInfo]) =
          some [loop.evictBlockInfo] := by
        rw [Library.Pairing.outstanding_append hout]
        simp [Event.next]
      have hfinish :
          outstanding (events ++ [.use loop.evictBlockInfo, .finish loop.evictBlockInfo]) =
          some [] := by
        rw [Library.Pairing.outstanding_append hout]
        simp [Event.next]
      cases hupload : s.upload with
      | error e => exact ⟨_, huse⟩
      | ok u =>
          dsimp only
          cases hreads : readsLog (s.ctx h') with
          | false =>
              cases hrun : FileActiveStatus.acquireNext loop (s.ctx h') with
              | ok loop' c' =>
                  rw [(acquireNext_ok hevicting hmissing hrun).1] at hreads
                  cases hreads
              | error e c' => exact ⟨_, huse⟩
          | true =>
              have hlist : events ++ .use loop.evictBlockInfo ::
                  ((if true = true then [.finish loop.evictBlockInfo] else []) ++
                    marks (FileActiveStatus.acquireNext loop (s.ctx h'))) =
                  (events ++ [.use loop.evictBlockInfo, .finish loop.evictBlockInfo]) ++
                    marks (FileActiveStatus.acquireNext loop (s.ctx h')) := by
                simp
              rw [hlist]
              refine inStep_of_section hfinish fun loop' c' hrun => ?_
              obtain ⟨-, hsum, hsome, hstolen⟩ := acquireNext_ok hevicting hmissing hrun
              refine ⟨⟨n, hn, hsum.trans htotal⟩, hsome, fun hzero => ?_⟩
              by_contra hstill
              rw [Bool.not_eq_false] at hstill
              obtain ⟨hcovered, a, slots, ids, t, ha, hisStolen, hids⟩ := hstolen hzero hstill
              refine hnot loop h' rfl ⟨hevicting, hupload, hreads, ⟨a, ha, hisStolen⟩, hcovered, ?_⟩
              intro _ a' ha'
              obtain rfl := Option.some.inj (ha.symm.trans ha')
              obtain ⟨t', ht'⟩ :=
                SharedMemoryContext.acquireFreeBucket_of_slots s.shm.activeStatus hids
              exact ⟨ids, t', ht'⟩

/-- The round after one that found its victim stolen and all that is missing free uploads
the stolen victim again. -/
theorem not_paired_of_stolen {loop : EvictLoop} {h' : FileActiveStatus}
    (hstep : InStep cfg ((env 0).ctx h) (victimEvents cfg env h k) (acquireNewBlocks cfg env h k))
    (hrunning : acquireNewBlocks cfg env h k = .running loop h')
    (hstolen : StolenAndCovered loop h' (env (k + 1))) :
    ¬ Paired (victimEvents cfg env h (k + 2)) := by
  rw [hrunning] at hstep
  obtain ⟨-, hevicting, hout, -⟩ := hstep
  obtain ⟨c', hrun⟩ := hstolen.acquireNext
  have hnext : acquireNewBlocks cfg env h (k + 1) =
      .running { loop with numToAcquire := 0 } c'.self := by
    simp only [acquireNewBlocks, hrunning, nextRound, if_pos hevicting, hstolen.uploaded, hrun,
      leaveSection]
    exact if_pos (Or.inr hevicting)
  have hevents : outstanding (victimEvents cfg env h (k + 1)) = some [] := by
    simp only [victimEvents, hrunning, roundEvents, if_pos hevicting, hstolen.uploaded, hrun,
      hstolen.replayed]
    rw [Library.Pairing.outstanding_append hout]
    simp [Event.next, marks]
  have huse : ∃ more, roundEvents (env (k + 2)) (acquireNewBlocks cfg env h (k + 1)) =
      .use loop.evictBlockInfo :: more := by
    rw [hnext]
    exact ⟨_, if_pos hevicting⟩
  obtain ⟨more, hmore⟩ := huse
  change ¬ Paired (victimEvents cfg env h (k + 1) ++
    roundEvents (env (k + 2)) (acquireNewBlocks cfg env h (k + 1)))
  rw [hmore]
  exact Library.Pairing.not_paired_use hevents

/-- The rounds of a call that keeps in step as long as it can. -/
theorem inStep_run (hnot : ∀ k, InStep cfg ((env 0).ctx h) (victimEvents cfg env h k)
      (acquireNewBlocks cfg env h k) → ∀ loop h', acquireNewBlocks cfg env h k = .running loop h' →
      ¬ StolenAndCovered loop h' (env (k + 1))) (k : Nat) :
    InStep cfg ((env 0).ctx h) (victimEvents cfg env h k) (acquireNewBlocks cfg env h k) := by
  induction k with
  | zero => exact inStep_first cfg env h
  | succ k ih => exact ih.next (hnot k ih)

/-- `acquireNewBlocks` keeps its decision exactly when no round finds its victim stolen
while free buckets cover all that is missing. -/
theorem keepsDecision_iff (cfg : Config) (env : Nat → Surroundings) (h : FileActiveStatus) :
    KeepsDecision cfg env h ↔ ∀ k loop h', acquireNewBlocks cfg env h k = .running loop h' →
      ¬ StolenAndCovered loop h' (env (k + 1)) := by
  constructor
  · intro hkeeps k loop h' hrunning hstolen
    have hstep : InStep cfg ((env 0).ctx h) (victimEvents cfg env h k)
        (acquireNewBlocks cfg env h k) := by
      refine inStep_run (fun k hstep _ _ hrunning hstolen => ?_) k
      exact not_paired_of_stolen hstep hrunning hstolen (hkeeps.paired (k + 2))
    exact not_paired_of_stolen hstep hrunning hstolen (hkeeps.paired (k + 2))
  · intro hnot
    have hstep := inStep_run fun k _ => hnot k
    refine ⟨fun k h' hreturned => ?_, fun k loop h' rc hrunning _ _ _ => ?_,
      fun k => (hstep k).paired⟩
    · have hk := hstep k
      rw [hreturned] at hk
      exact hk.2
    · have hk := hstep k
      rw [hrunning] at hk
      exact hk.1

end FileActiveStatus

/-! ## The steps of the system -/

namespace World

variable {cfg : Config} {w w' : World} {n : Nat} {h : FileActiveStatus}

/-- The handle after a section of `acquireNewBlocks`, as the system goes on with it. -/
def Continues (w w' : World) (n : Nat) (h : FileActiveStatus) (caller : Caller) : Acquiring → Prop
  | .running loop x => w'.files = w.files.set n { x with
      pc := if loop.evicting then .evictRead caller loop else .evictFinish caller loop }
  | .returned x => w'.files = w.files.set n (x.afterAcquire caller)
  | .threw e => w'.history = w.history ++ [⟨n, some h.stream.call, .threw e⟩]

theorem runFile_continues (caller : Caller) (prog : StatusM EvictLoop) :
    Continues w (w.runFile n h (some h.stream.call)
      (do FileActiveStatus.afterEvictRound caller (← prog)) fun _ w => w) n h caller
      (FileActiveStatus.leaveSection (prog (w.ctx h))) := by
  unfold runFile
  rw [show (⟨w.shm, w.folder, w.oss, h⟩ : Ctx) = w.ctx h from rfl, Library.run_bind]
  cases prog (w.ctx h) with
  | error e c => rfl
  | ok loop c =>
      dsimp only
      unfold FileActiveStatus.afterEvictRound FileActiveStatus.leaveSection
      by_cases hgo : loop.numToAcquire > 0 ∨ loop.evicting = true
      · simp only [if_pos hgo]
        rfl
      · by_cases hnone : c.self.preAllocatedBuckets = []
        · simp only [if_neg hgo, Library.run_bind, Library.run_get, if_pos hnone]
          rfl
        · simp only [if_neg hgo, Library.run_bind, Library.run_get, if_neg hnone]
          rfl

/-- The critical sections of `acquireNewBlocks` in the system are its rounds. -/
theorem stepFile_continues {caller : Caller} (hstep : w.stepFile cfg n h = some w') :
    (h.pc = .acquire caller → Continues w w' n h caller
      (FileActiveStatus.leaveSection (FileActiveStatus.acquireFirst cfg (w.ctx h)))) ∧
    ∀ loop, h.pc = .evictFinish caller loop → Continues w w' n h caller
      (FileActiveStatus.leaveSection (FileActiveStatus.acquireNext loop (w.ctx h))) := by
  unfold stepFile at hstep
  constructor
  · intro hpc
    simp only [hpc, Option.some.injEq] at hstep
    subst hstep
    exact runFile_continues caller _
  · intro loop hpc
    simp only [hpc, Option.some.injEq] at hstep
    subst hstep
    exact runFile_continues caller _

open Library (execute anyStep)

/-- Three buckets of one byte, and a quota of one. -/
def threeBuckets : Config := .intact 3 1 8 1

/-- A handle writes a file of one byte. -/
def writeByte (hashcode n pid : Nat) : List Action :=
  [.openFile hashcode true false .writeFile pid, .file n, .file n, .call n (.write [1])] ++
    List.replicate 6 (.file n)

/-- All buckets are taken, one of them by a closed file, and the fourth writer needs one. -/
def fourthWriter : List Action :=
  writeByte 7 0 1 ++ [.call 0 (.close false), .file 0, .file 0] ++ writeByte 9 1 2 ++
    writeByte 10 2 3 ++ [.openFile 8 true false .writeFile 4, .file 3, .file 3,
    .call 3 (.write [1]), .file 3]

/-- The third writer gives up its file, and a reader takes the victim back. -/
def victimTakenBack : List Action :=
  [.call 2 (.close true), .file 2, .file 2, .openFile 7 false false .readFile 5, .file 4, .file 4,
    .call 4 (.read 1), .file 4, .file 4, .file 4]

/-- The segment as the fourth writer finds it at its three locks. -/
def threeLocks : Option (World × World × World) := do
  let first ← execute (step threeBuckets) anyStep (init threeBuckets) fourthWriter
  let marked ← step threeBuckets first (.file 3)
  let second ← execute (step threeBuckets) anyStep marked (victimTakenBack ++ [.file 3, .file 3])
  let covered ← step threeBuckets second (.file 3)
  let third ← execute (step threeBuckets) anyStep covered [.file 3, .file 3]
  return (first, second, third)

/-- What a handle finds when it locks the segment in these states. -/
def surroundings (first second third : World) : Nat → Surroundings
  | 0 => ⟨first.shm, first.folder, first.oss, .ok ()⟩
  | 1 => ⟨second.shm, second.folder, second.oss, .ok ()⟩
  | _ => ⟨third.shm, third.folder, third.oss, .ok ()⟩

/-- The third lock finishes the eviction of a bucket that is not being evicted. -/
theorem threeLocks_unpaired : ¬ ∀ (cfg : Config) (env : Nat → Surroundings) (h : FileActiveStatus),
    FileActiveStatus.KeepsDecision cfg env h := by
  intro hclaim
  have hcheck : (threeLocks.any fun (first, second, third) => first.files[3]?.any fun h =>
      decide (¬ Paired (FileActiveStatus.victimEvents threeBuckets (surroundings first second third)
        h 2))) = true := by
    decide +kernel
  obtain ⟨⟨first, second, third⟩, -, hfacts⟩ := (Option.any_eq_true _ _).mp hcheck
  obtain ⟨h, -, hunpaired⟩ := (Option.any_eq_true _ _).mp hfacts
  exact of_decide_eq_true hunpaired ((hclaim _ _ h).paired 2)

end World

end Gopherwood
