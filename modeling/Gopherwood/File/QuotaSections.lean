/-
# Acquiring within the quota

The sections of `acquireNewBlocks` give up blocks and preallocate buckets. Whatever
the segment answers and whatever they throw, the holdings fit: a section that asks
for more buckets has made room for them before. The one assumption is that no
eviction of the handle ends stolen.
-/

import Gopherwood.File.Holdings

namespace Gopherwood

open Library (Keeps Spec)

namespace FileActiveStatus

open Library (Confines)
open SharedMemoryContext (IsTame)

variable {x : Holdings} {pc : Pc}

/-- An exception leaves holdings that fit and is none of the quota's. -/
def Within (e : GwError) (c : Ctx) : Prop := c.self.holdings.Fits 0 ∧ Tame e

theorem Frames.within {α : Type} {prog : StatusM α} (h : Frames x pc prog) (hx : x.Fits 0) :
    Spec (Holds x pc) prog (fun _ => Holds x pc) Within :=
  Spec.conseq h (fun _ => id) (fun _ _ => id) fun _ _ he => ⟨he.1.1 ▸ hx, he.2⟩

theorem inactivateOldest_within (cfg : Config) (num : Nat) (hx : x.Fits 0) :
    Spec (Holds x pc) (inactivateOldest cfg num) (fun _ => Holds (x.inactivate num) pc) Within := by
  have hremoved : Spec (Holds x pc) (removeNumOfKeys num) (fun _ => Holds (x.inactivate num) pc)
      Within := by
    refine Spec.get_bind fun c hc => ?_
    rintro _ rfl
    obtain ⟨rfl, rfl⟩ := hc
    exact ⟨rfl, rfl⟩
  have hrest : ∀ keys, Frames (x.inactivate num) pc (do
      let blocks ← blocksOf keys
      let h := (← get).self
      let turned ← onShm (SharedMemoryContext.inactivateBuckets h.fileId (← myActiveId) blocks)
      updateInactivated cfg turned
      logInactivateBucket turned) := by
    intro keys
    refine Confines.bind (blocksOf_frames keys) fun blocks => Confines.bind Confines.get fun c =>
      Confines.bind myActiveId_frames fun a => ?_
    refine Confines.bind (onShm_frames (SharedMemoryContext.inactivateBuckets_isTame _ _ _))
      fun turned => ?_
    exact Confines.bind (updateInactivated_frames cfg turned) fun _ => logRecord_frames _ _ _
  exact Spec.bind hremoved fun keys => (hrest keys).within (hx.inactivate num)

/-- `acquireFreeBucket` returns as many buckets as it was asked for. -/
theorem length_acquireFreeBucket (a : Nat) (num : Nat) (fileId : FileId) (isWrite : Bool)
    {s s' : SharedMem} {ids : List Nat}
    (hrun : SharedMemoryContext.acquireFreeBucket a num fileId isWrite s = .ok ids s') :
    ids.length = num := by
  have hloop : ∀ (bs : List Nat) (count : Int) (s s' : SharedMem) (ids : List Nat) (left : Int),
      SharedMemoryContext.acquireFreeBucket.loop a fileId isWrite bs count s = .ok (ids, left) s' →
      left = count - ids.length := by
    intro bs
    induction bs with
    | nil =>
        intro count s s' ids left h
        cases h
        simp
    | cons b rest ih =>
        intro count s s' ids left h
        simp only [SharedMemoryContext.acquireFreeBucket.loop, Library.run_bind] at h
        split at h
        · split at h
          · rw [Library.run_bind] at h
            split at h
            · split at h
              · cases h
                simp
              · rw [Library.run_bind] at h
                split at h
                · next hrest =>
                    cases h
                    have := ih _ _ _ _ _ hrest
                    simp only [List.length_cons]
                    omega
                · cases h
            · cases h
          · exact ih _ _ _ _ _ h
        · cases h
  simp only [SharedMemoryContext.acquireFreeBucket, Library.run_bind, Library.run_get] at hrun
  split at hrun
  · next result s'' hrest =>
      split at hrun
      · cases hrun
      · next hleft =>
          cases hrun
          have := hloop _ _ _ _ _ _ hrest
          simp only [ne_eq, not_not] at hleft
          omega
  · cases hrun

theorem acquireFree_within (num : Nat) (hx : x.Fits 0) :
    Spec (Holds x pc) (acquireFree num)
      (fun blocks c => blocks.length = num ∧ Holds (x.acquire blocks) pc c) Within := by
  refine Spec.get_bind fun c hc => Spec.weaken_pre ?_ fun c' hc' => hc' ▸ hc
  refine Spec.bind (myActiveId_frames.within hx) fun a => ?_
  have hacquire : Spec (Holds x pc)
      (onShm (SharedMemoryContext.acquireFreeBucket a num c.self.fileId c.self.isWrite))
      (fun ids c => ids.length = num ∧ Holds x pc c) Within := by
    intro c₀ hc₀
    cases hrun : SharedMemoryContext.acquireFreeBucket a num c.self.fileId c.self.isWrite
      c₀.shm with
    | ok ids s =>
        rw [run_onShm_ok hrun]
        exact ⟨length_acquireFreeBucket _ _ _ _ hrun, hc₀⟩
    | error e s =>
        have htame := SharedMemoryContext.acquireFreeBucket_isTame a num c.self.fileId
          c.self.isWrite c₀.shm trivial
        rw [hrun] at htame
        rw [run_onShm_error hrun]
        exact ⟨hc₀.1 ▸ hx, htame.2⟩
  refine Spec.bind hacquire fun ids => ?_
  rintro c₁ ⟨hlength, rfl, rfl⟩
  exact ⟨by simp [hlength], rfl, rfl⟩

/-- An eviction is started exactly when buckets are still missing. -/
theorem startEvict_within (loop : EvictLoop) (hx : x.Fits 0) :
    Spec (Holds x pc) (startEvict loop)
      (fun loop' c => Holds x pc c ∧ loop'.numToAcquire = loop.numToAcquire ∧
        (loop'.evicting = true → loop.evicting = true ∨ 0 < loop.numToAcquire)) Within := by
  refine Spec.ite (fun hmissing => ?_) fun _ => Spec.pure fun c hc => ⟨hc, rfl, Or.inl⟩
  refine Spec.bind (myActiveId_frames.within hx) fun a => ?_
  refine Spec.bind ((onShm_frames (SharedMemoryContext.markBucketEvicting_isTame a)).within hx)
    fun info => ?_
  exact Spec.pure fun c hc => ⟨hc, rfl, fun _ => Or.inr hmissing⟩

theorem adjustSize_within {newQuota : Nat} (hfits : x.lruCache.size ≤ newQuota) :
    Spec (Holds x pc) (adjustSize newQuota)
      (fun _ => Holds { x with lruCache := (x.lruCache.adjustSize newQuota).1 } pc) Within := by
  rintro c ⟨rfl, rfl⟩
  have hnone : (c.self.lruCache.adjustSize newQuota).2 = [] := LRUCache.adjustSize_of_le hfits
  have hrun : adjustSize newQuota c = .ok () { c with
      self := { c.self with lruCache := (c.self.lruCache.adjustSize newQuota).1 } } := by
    simp [adjustSize, modifySelf, hnone]
  rw [hrun]
  exact ⟨rfl, rfl⟩

/-- The first critical section of `acquireNewBlocks`: what is held and what is
still to come fit the new quota. -/
theorem acquireFirst_within {cfg : Config} (hquota : IsQuota cfg.curQuotaSize) (hx : x.Fits 0) :
    Spec (Holds x pc) (acquireFirst cfg)
      (fun loop c => c.self.holdings.Fits loop.numToAcquire ∧ c.self.pc = pc ∧
        (loop.evicting = true → 0 < loop.numToAcquire)) Within := by
  refine Spec.bind (catchUp_frames.within hx) fun _ => Spec.get_bind fun c hc => ?_
  refine Spec.weaken_pre ?_ fun c' hc' => hc' ▸ hc
  dsimp only
  have hnew : IsQuota (if c.self.isSequence = true then min cfg.curQuotaSize preAllocateBucketNum
      else cfg.curQuotaSize) := by
    have : preAllocateBucketNum = 4 := rfl
    unfold IsQuota at hquota ⊢
    split
    · omega
    · exact hquota
  generalize (if c.self.isSequence = true then min cfg.curQuotaSize preAllocateBucketNum
      else cfg.curQuotaSize) = newQuota at hnew ⊢
  have htotal : c.self.numAcquiredBuckets = x.total := by rw [← hc.1]; rfl
  have hsize : c.self.lruCache.size = x.lruCache.size := by rw [← hc.1]; rfl
  rw [htotal, hsize]
  cases hpolicy : acquirePolicy newQuota x.total c.shm.header.numFreeBuckets
      c.shm.header.numUsedBuckets x.lruCache.size with
  | error e =>
      refine Spec.throw fun c' hc' => ⟨hc'.1 ▸ hx, ?_⟩
      rw [acquirePolicy_error hpolicy]
      decide
  | ok policy =>
      obtain ⟨numToInactivate, numToAcquire⟩ := policy
      have hle : x.lruCache.size ≤ x.total := by
        unfold Holdings.total
        omega
      obtain ⟨hinactivate, hacquire, hbound, hcache⟩ := acquirePolicy_bounds hnew.1 hle hpolicy
      let y := x.inactivate numToInactivate
      have hy : y.Fits 0 := hx.inactivate _
      have hysize : y.lruCache.size = x.lruCache.size - numToInactivate :=
        LRUCache.size_removeNumOfKeys _ _
      have hrest : Spec (Holds y pc) (do
          adjustSize newQuota
          let numAcqurieFree := min numToAcquire c.shm.header.numFreeBuckets
          let blocks ← acquireFree numAcqurieFree
          logAcquireNewBlock blocks
          startEvict ⟨numToAcquire - numAcqurieFree, false, .invalid⟩)
          (fun loop c => c.self.holdings.Fits loop.numToAcquire ∧ c.self.pc = pc ∧
            (loop.evicting = true → 0 < loop.numToAcquire)) Within := by
        refine Spec.bind (adjustSize_within (by omega)) fun _ => ?_
        -- the quota is set: what is held fits it with all that is asked for
        have hz : ({ y with lruCache := (y.lruCache.adjustSize newQuota).1 } : Holdings).Fits
            numToAcquire := by
          have := LRUCache.size_adjustSize_le y.lruCache newQuota
          have hpre : y.preAllocated = x.preAllocated := rfl
          have hloading : y.loading = x.loading := rfl
          simp only [Holdings.Fits, Holdings.total, LRUCache.maxSize_adjustSize, hpre, hloading]
          simp only [Holdings.total] at hbound
          have := hnew.2
          omega
        generalize ({ y with lruCache := (y.lruCache.adjustSize newQuota).1 } : Holdings) = z at hz
        refine Spec.bind (acquireFree_within _ (hz.mono (Nat.zero_le _))) fun blocks => ?_
        refine Spec.of_pointwise fun c₁ hc₁ => Spec.weaken_pre ?_ fun c₂ hc₂ => hc₂ ▸ hc₁.2
        have hlength := hc₁.1
        have hfits : (z.acquire blocks).Fits
            (numToAcquire - min numToAcquire c.shm.header.numFreeBuckets) :=
          hz.acquire (by omega)
        have hfits₀ := hfits.mono (Nat.zero_le _)
        refine Spec.bind ((logRecord_frames _ _ _).within hfits₀) fun _ => ?_
        refine Spec.weaken_post (startEvict_within _ hfits₀) fun loop c₃ hc₃ => ?_
        obtain ⟨hholds, hnum, hevicting⟩ := hc₃
        refine ⟨?_, hholds.2, fun h => ?_⟩
        · rw [hholds.1, hnum]
          exact hfits
        · rw [hnum]
          rcases hevicting h with h | h
          · cases h
          · exact h
      refine Spec.ite (fun _ => ?_) fun hnone => ?_
      · exact Spec.bind (inactivateOldest_within cfg _ hx) fun _ => hrest
      · have hzero : numToInactivate = 0 := by omega
        have hsame : y = x := by
          simp only [y, hzero]
          exact x.inactivate_zero
        rw [hsame] at hrest
        exact hrest

/-- What the handle holds fits. -/
def Contained (c : Ctx) : Prop := c.self.holdings.Fits 0

theorem Holds.contained {c : Ctx} (hc : Holds x pc c) (hx : x.Fits 0) : Contained c :=
  show c.self.holdings.Fits 0 from hc.1 ▸ hx

theorem contained_of_keeps {α : Type} {prog : StatusM α} (h : Keeps (Holds x pc) prog)
    (hx : x.Fits 0) : Spec (Holds x pc) prog (fun _ => Holds x pc) (fun _ => Contained) :=
  Spec.conseq h (fun _ => id) (fun _ _ => id) fun _ _ he => he.contained hx

theorem Frames.contained {α : Type} {prog : StatusM α} (h : Frames x pc prog) (hx : x.Fits 0) :
    Spec (Holds x pc) prog (fun _ => Holds x pc) (fun _ => Contained) :=
  contained_of_keeps h.keeps hx

/-- The handle's slot says that the bucket it is evicting was stolen. -/
def IsStolen (s : SharedMem) (a : Nat) : Prop :=
  ∃ slot, s.activeStatus[a]? = some slot ∧ slot.stolen = true

/-- The end of an eviction returns `2` exactly when the slot says that the bucket
was stolen. -/
theorem evict_stolen_iff (s : SharedMem) (a : Nat) (bucketId : Option Nat) (fileId : FileId)
    (isWrite : Bool) :
    (∃ s', SharedMemoryContext.evictBucketFinishAndTryAcquire bucketId a fileId isWrite s =
      .ok .stolen s') ↔ IsStolen s a := by
  constructor
  · rintro ⟨s', hrun⟩
    rcases SharedMemoryContext.evictBucketFinishAndTryAcquire_cases bucketId a fileId isWrite s with
      ⟨s'', -, hmove⟩ | ⟨e, s'', herror, -⟩ | ⟨i, b, s'', -, -, hok, -⟩
    · cases hmove with
      | endStolen hslot hstolen => exact ⟨_, hslot, hstolen⟩
    · rw [hrun] at herror
      cases herror
    · rw [hrun, EStateM.Result.ok.injEq] at hok
      have hanswer := hok.1
      split at hanswer
      · cases hanswer
      · cases hanswer
  · rintro ⟨slot, hslot, hstolen⟩
    let s₁ := s.updSlot a SharedMem.endEviction
    have hslot₁ : s₁.activeStatus[a]? = some (SharedMem.endEviction slot) := by
      simp [s₁, hslot]
    have hfirst : SharedMemoryContext.modifySlot a (fun slot => { slot with
        evictFileId := FileId.invalid, fileBlockIndex := none, evicting := false }) s =
        .ok () s₁ := rfl
    refine ⟨s₁.updSlot a fun slot => { slot with stolen := false }, ?_⟩
    simp only [SharedMemoryContext.evictBucketFinishAndTryAcquire,
      SharedMemoryContext.evictBucketFinish, Library.run_bind, hfirst,
      SharedMemoryContext.run_slotAt_some hslot₁, SharedMem.endEviction, hstolen, if_true,
      SharedMemoryContext.run_modifySlot, Library.run_pure]

/-- No eviction of the handle was answered by a theft. -/
def Spared (c : Ctx) : Prop := ∀ a, c.self.activeId = some a → ¬ IsStolen c.shm a

theorem catchUp_spared (hx : x.Fits 0) :
    Spec (fun c => Holds x pc c ∧ Spared c) catchUpManifestLogs
      (fun _ c => Holds x pc c ∧ Spared c) (fun _ => Contained) := by
  rintro c ⟨hc, hspared⟩
  have hframes := (catchUp_frames.contained hx) c hc
  have hquiet := catchUpManifestLogs_quiet c c ⟨.refl _, rfl, rfl, rfl⟩
  cases hrun : catchUpManifestLogs c with
  | ok u c' =>
      rw [hrun] at hframes hquiet
      obtain ⟨hid, -, hshm, -⟩ := hquiet
      refine ⟨hframes, fun a ha => ?_⟩
      rw [hshm]
      exact hspared a (hid.activeId ▸ ha)
  | error e c' =>
      rw [hrun] at hframes
      exact hframes

theorem logEvictBlock_holds (info : BlockInfo) : Keeps (Holds x pc) (logEvictBlock info) := by
  refine Spec.get_bind fun c hc => Spec.ite (fun _ => ?_) fun _ => ?_
  · refine Spec.weaken_pre ?_ fun c' hc' => hc' ▸ hc
    refine Keeps.bind (logRecord_frames _ _ _).keeps fun _ => ?_
    cases info.blockId with
    | none => exact Keeps.throw
    | some i =>
        exact Keeps.bind (blockAt_frames i).keeps fun _ =>
          (modifySelf_frames fun _ => ⟨rfl, rfl⟩).keeps
  · cases c.folder.links info.fileId with
    | none => exact Spec.throw fun c' hc' => hc' ▸ hc
    | some file => exact fun c' hc' => hc

/-- An eviction that ends without a theft brings one bucket. -/
theorem finishEvict_contained {loop : EvictLoop} (hx : x.Fits loop.numToAcquire)
    (hmissing : 0 < loop.numToAcquire) :
    Spec (fun c => Holds x pc c ∧ Spared c) (finishEvict loop)
      (fun result c => result.1.numToAcquire + 1 = loop.numToAcquire ∧ result.1.evicting = false ∧
        result.2.length = 1 ∧ Holds (x.acquire result.2) pc c) (fun _ => Contained) := by
  have hx₀ := hx.mono (Nat.zero_le _)
  refine Spec.get_bind fun c hc => ?_
  have hactive : Spec (· = c) myActiveId (fun a c' => c' = c ∧ c.self.activeId = some a)
      (fun _ => Contained) := by
    rintro c' rfl
    cases ha : c'.self.activeId with
    | none =>
        simp only [myActiveId, Library.run_bind, Library.run_get, ha, Library.run_throw]
        exact hc.1.contained hx₀
    | some a =>
        simp only [myActiveId, Library.run_bind, Library.run_get, ha, Library.run_pure]
        trivial
  refine Spec.bind hactive fun a => ?_
  have hend : Spec (fun c' => c' = c ∧ c.self.activeId = some a)
      (onShm (SharedMemoryContext.evictBucketFinishAndTryAcquire loop.evictBlockInfo.bucketId a
        c.self.fileId c.self.isWrite))
      (fun rc c' => rc ≠ .stolen ∧ Holds x pc c') (fun _ => Contained) := by
    rintro c' ⟨hc', ha⟩
    have hholds : Holds x pc c' := hc' ▸ hc.1
    have hnot := mt (evict_stolen_iff c.shm a loop.evictBlockInfo.bucketId c.self.fileId
      c.self.isWrite).mp (hc.2 a ha)
    rw [← hc'] at hnot ⊢
    cases hrun : SharedMemoryContext.evictBucketFinishAndTryAcquire loop.evictBlockInfo.bucketId a
        c'.self.fileId c'.self.isWrite c'.shm with
    | ok rc s =>
        rw [run_onShm_ok hrun]
        refine ⟨?_, hholds⟩
        rintro rfl
        exact hnot ⟨s, hrun⟩
    | error e s =>
        rw [run_onShm_error hrun]
        exact hholds.contained hx₀
  refine Spec.bind hend fun rc => ?_
  -- the bucket joins the preallocated ones, whatever became of its old block
  have hgained : ∀ rest : StatusM Unit, (∀ y : Holdings, y.Fits 0 → Spec (Holds y pc) rest
      (fun _ => Holds y pc) (fun _ => Contained)) →
      Spec (Holds x pc) (do
        modifySelf fun h => { h with
          preAllocatedBuckets := h.preAllocatedBuckets ++ [newBlock loop.evictBlockInfo.bucketId] }
        rest
        return ({ loop with evicting := false, numToAcquire := dec32 loop.numToAcquire },
          [newBlock loop.evictBlockInfo.bucketId]))
        (fun result c => result.1.numToAcquire + 1 = loop.numToAcquire ∧
          result.1.evicting = false ∧ result.2.length = 1 ∧ Holds (x.acquire result.2) pc c)
        (fun _ => Contained) := by
    intro rest hrest
    have hy : (x.acquire [newBlock loop.evictBlockInfo.bucketId]).Fits 0 := hx.acquire hmissing
    have hadd : Spec (Holds x pc) (modifySelf fun h => { h with
        preAllocatedBuckets := h.preAllocatedBuckets ++ [newBlock loop.evictBlockInfo.bucketId] })
        (fun _ => Holds (x.acquire [newBlock loop.evictBlockInfo.bucketId]) pc)
        (fun _ => Contained) := by
      apply Spec.modify
      rintro c' ⟨rfl, rfl⟩
      exact ⟨rfl, rfl⟩
    refine Spec.bind hadd fun _ => Spec.bind (hrest _ hy) fun _ => Spec.pure fun c' hc' => ?_
    refine ⟨?_, rfl, rfl, hc'⟩
    change dec32 loop.numToAcquire + 1 = loop.numToAcquire
    rw [dec32, if_neg (by omega)]
    omega
  have hdelete : ∀ y : Holdings, y.Fits 0 → Spec (Holds y pc)
      (modify fun c => { c with
        oss := c.oss.delete loop.evictBlockInfo.fileId loop.evictBlockInfo.blockId } : StatusM Unit)
      (fun _ => Holds y pc) (fun _ => Contained) :=
    fun y _ => Spec.modify fun _ hc => hc
  have hlog : ∀ y : Holdings, y.Fits 0 → Spec (Holds y pc) (logEvictBlock loop.evictBlockInfo)
      (fun _ => Holds y pc) (fun _ => Contained) :=
    fun y hy => contained_of_keeps (logEvictBlock_holds _) hy
  cases rc with
  | stolen => exact fun c' hc' => absurd rfl hc'.1
  | finished => exact Spec.weaken_pre (hgained _ hlog) fun c' hc' => hc'.2
  | deleted => exact Spec.weaken_pre (hgained _ hdelete) fun c' hc' => hc'.2

/-- The critical section of the loop of `acquireNewBlocks`: every bucket that
comes is one fewer to come. -/
theorem acquireNext_contained {loop : EvictLoop} (hx : x.Fits loop.numToAcquire)
    (hloop : loop.evicting = true → 0 < loop.numToAcquire) :
    Spec (fun c => Holds x pc c ∧ (loop.evicting = true → Spared c)) (acquireNext loop)
      (fun loop' c => c.self.holdings.Fits loop'.numToAcquire ∧ c.self.pc = pc ∧
        (loop'.evicting = true → 0 < loop'.numToAcquire)) (fun _ => Contained) := by
  have hx₀ := hx.mono (Nat.zero_le _)
  -- what follows once the eviction of the previous round has ended
  have hrest : ∀ (y : Holdings) (next : EvictLoop) (gained : List Block),
      y.Fits next.numToAcquire → next.evicting = false → Spec (Holds y pc) (do
        let numAcqurieFree := min next.numToAcquire (← get).shm.header.numFreeBuckets
        let blocks ← if numAcqurieFree > 0 then acquireFree numAcqurieFree else pure []
        logAcquireNewBlock (gained ++ blocks)
        startEvict { next with numToAcquire := next.numToAcquire - numAcqurieFree })
      (fun loop' c => c.self.holdings.Fits loop'.numToAcquire ∧ c.self.pc = pc ∧
        (loop'.evicting = true → 0 < loop'.numToAcquire)) (fun _ => Contained) := by
    intro y next gained hy hidle
    have hy₀ := hy.mono (Nat.zero_le _)
    refine Spec.get_bind fun c hc => ?_
    refine Spec.weaken_pre ?_ fun c' hc' => hc' ▸ hc
    dsimp only
    generalize hfree : min next.numToAcquire c.shm.header.numFreeBuckets = num
    -- the records are logged and the next eviction is started
    have hlast : ∀ blocks : List Block, Spec
        (fun c => blocks.length = num ∧ Holds (y.acquire blocks) pc c) (do
          logAcquireNewBlock (gained ++ blocks)
          startEvict { next with numToAcquire := next.numToAcquire - num })
        (fun loop' c => c.self.holdings.Fits loop'.numToAcquire ∧ c.self.pc = pc ∧
          (loop'.evicting = true → 0 < loop'.numToAcquire)) (fun _ => Contained) := by
      intro blocks
      refine Spec.of_pointwise fun c₁ hc₁ => Spec.weaken_pre ?_ fun c₂ hc₂ => hc₂ ▸ hc₁.2
      have hlength := hc₁.1
      have hfits : (y.acquire blocks).Fits (next.numToAcquire - num) := hy.acquire (by omega)
      have hfits₀ := hfits.mono (Nat.zero_le _)
      refine Spec.bind ((logRecord_frames _ _ _).contained hfits₀) fun _ => ?_
      refine Spec.conseq (startEvict_within _ hfits₀) (fun _ => id) (fun loop' c₃ hc₃ => ?_)
        fun _ _ he => he.1
      obtain ⟨hholds, hnum, hevicting⟩ := hc₃
      refine ⟨?_, hholds.2, fun h => ?_⟩
      · rw [hholds.1, hnum]
        exact hfits
      · rw [hnum]
        rcases hevicting h with h | h
        · rw [show next.evicting = true from h] at hidle
          cases hidle
        · exact h
    refine Spec.ite (fun _ => ?_) fun hnone => ?_
    · exact Spec.bind (Spec.conseq (acquireFree_within num hy₀) (fun _ => id) (fun _ _ => id)
        fun _ _ he => he.1) hlast
    · refine Spec.bind (Spec.pure fun c' hc' => ?_) hlast
      refine ⟨?_, ?_, hc'.2⟩
      · rw [List.length_nil]
        omega
      · rw [hc'.1]
        simp [Holdings.acquire]
  cases hevicting : loop.evicting with
  | true =>
      refine Spec.weaken_pre (Spec.bind (catchUp_spared hx₀) fun _ => ?_) fun c hc =>
        ⟨hc.1, hc.2 rfl⟩
      rw [if_pos hevicting]
      refine Spec.bind (finishEvict_contained hx (hloop hevicting)) fun result => ?_
      obtain ⟨next, gained⟩ := result
      refine Spec.of_pointwise fun c hc => Spec.weaken_pre ?_ fun c' hc' => hc' ▸ hc.2.2.2
      have hnum : next.numToAcquire + 1 = loop.numToAcquire := hc.1
      have hlength : gained.length = 1 := hc.2.2.1
      exact hrest _ next gained (hx.acquire (by omega)) hc.2.1
  | false =>
      refine Spec.weaken_pre (Spec.bind (catchUp_frames.contained hx₀) fun _ => ?_) fun c hc => hc.1
      rw [if_neg (by rw [hevicting]; exact Bool.false_ne_true)]
      exact hrest x loop [] hx hevicting

end FileActiveStatus

end Gopherwood
