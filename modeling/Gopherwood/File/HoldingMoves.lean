/-
# Moving buckets between the lists

`extendOneBlock`, `activateBlock` and the loads move buckets from one list of a
handle to another, and the other sections let buckets go. So none of them makes the
holdings grow.
-/

import Gopherwood.File.QuotaSections

namespace Gopherwood

open Library (Keeps Spec)

namespace FileActiveStatus

open Library (Confines)
open SharedMemoryContext (IsTame)

variable {x : Holdings} {pc : Pc}

/-- What leaves all holdings alone leaves them contained. -/
theorem contained_rest {α : Type} {prog : StatusM α} (h : ∀ y, Keeps (Holds y pc) prog) :
    Spec (fun c => Contained c ∧ c.self.pc = pc) prog (fun _ c => Contained c ∧ c.self.pc = pc)
      (fun _ => Contained) := by
  refine Spec.of_pointwise fun c hc => ?_
  refine Spec.conseq (h c.self.holdings) (fun c' hc' => ?_) (fun _ c' hc' => ?_) fun _ c' hc' => ?_
  · rw [hc']
    exact ⟨rfl, hc.2⟩
  · exact ⟨hc'.contained hc.1, hc'.2⟩
  · exact hc'.contained hc.1

/-- A block enters the cache; a cache with room for it drops nothing. -/
theorem putActive_contained (blockId bucketId : Option Nat) (hx : x.Fits 1) :
    Spec (Holds x pc) (putActive blockId bucketId)
      (fun _ c => Contained c ∧ c.self.pc = pc) Within := by
  cases blockId with
  | none => exact Spec.throw fun c hc => ⟨hc.1 ▸ hx.mono (Nat.zero_le _), by decide⟩
  | some i =>
      apply Spec.modify
      rintro c ⟨rfl, rfl⟩
      refine ⟨?_, rfl⟩
      have hsize := LRUCache.size_put_le c.self.lruCache i bucketId
      have hmax := LRUCache.maxSize_put c.self.lruCache i bucketId
      simp only [Holdings.Fits, Holdings.total, holdings] at hx
      simp only [Contained, Holdings.Fits, Holdings.total, holdings, hmax]
      omega

/-- Room is made without leaving the quota, and there is always something to give
up. -/
theorem makeRoom_within (cfg : Config) (hx : x.Fits 0) (hpre : x.preAllocated ≠ []) :
    Spec (Holds x pc) (makeRoom cfg) (fun _ c => ∃ y : Holdings, y.Fits 1 ∧ Holds y pc c)
    Within := by
  refine Spec.get_bind fun c hc => Spec.weaken_pre ?_ fun c' hc' => hc' ▸ hc
  have htotal : c.self.numAcquiredBuckets = x.total := by rw [← hc.1]; rfl
  have hmax : c.self.lruCache.maxSize = x.lruCache.maxSize := by rw [← hc.1]; rfl
  have hsize : c.self.lruCache.size = x.lruCache.size := by rw [← hc.1]; rfl
  have hlist : c.self.preAllocatedBuckets = x.preAllocated := by rw [← hc.1]; rfl
  simp only [htotal, hmax, hsize, hlist]
  have hbound : x.total ≤ x.lruCache.maxSize := hx.1
  have hmachine := hx.2
  refine Spec.ite (fun hfull => Spec.ite (fun hcached => ?_) fun hempty => ?_) fun hroom =>
    Spec.ite (fun hover => absurd hbound (by omega)) fun _ => Spec.pure fun c' hc' => ?_
  · refine Spec.weaken_post (inactivateOldest_within cfg 1 hx) fun _ c' hc' => ⟨_, ?_, hc'⟩
    simp only [Holdings.total] at hfull
    simp only [Holdings.Fits, Holdings.total, Holdings.inactivate, LRUCache.size_removeNumOfKeys,
      LRUCache.maxSize_removeNumOfKeys]
    omega
  · cases hlast : x.preAllocated.getLast? with
    | none => exact absurd (List.getLast?_eq_none_iff.mp hlast) hpre
    | some block =>
        let y : Holdings := { x with preAllocated := x.preAllocated.dropLast }
        have hlength : x.preAllocated.length ≠ 0 := fun h => hpre (List.length_eq_zero_iff.mp h)
        have hy : y.Fits 1 := by
          simp only [Holdings.total] at hfull
          simp only [y, Holdings.Fits, Holdings.total, List.length_dropLast]
          omega
        have hdrop : Spec (Holds x pc) (modifySelf fun h => { h with
            preAllocatedBuckets :=
              h.preAllocatedBuckets.dropLast }) (fun _ => Holds y pc) Within := by
          apply Spec.modify
          rintro c' ⟨rfl, rfl⟩
          exact ⟨rfl, rfl⟩
        have hy₀ := hy.mono (Nat.zero_le _)
        refine Spec.bind hdrop fun _ => Spec.bind
          ((onShm_frames (SharedMemoryContext.releaseBuckets_isTame _)).within hy₀) fun _ => ?_
        exact Spec.weaken_post ((logRecord_frames _ _ _).within hy₀) fun _ c' hc' => ⟨y, hy, hc'⟩
  · refine ⟨x, ?_, hc'⟩
    simp only [Holdings.Fits]
    omega

/-- A preallocated bucket becomes a loading one. -/
theorem startLoading_within (cfg : Config) (blockId : Nat) (hx : x.Fits 0) :
    Spec (Holds x pc) (startLoading cfg blockId) (fun _ c => Contained c ∧ c.self.pc = pc)
    Within := by
  refine Spec.get_bind fun c hc => Spec.weaken_pre ?_ fun c' hc' => hc' ▸ hc
  have hlist : c.self.preAllocatedBuckets = x.preAllocated := by rw [← hc.1]; rfl
  simp only [hlist]
  cases hpre : x.preAllocated with
  | nil => exact Spec.throw fun c' hc' => ⟨hc'.1 ▸ hx, by decide⟩
  | cons front rest =>
      refine Spec.bind ((onShm_frames (SharedMemoryContext.inRange_isTame _)).within hx) fun b => ?_
      refine Spec.bind (myActiveId_frames.within hx) fun a => ?_
      refine Spec.bind ((onShm_frames
        (SharedMemoryContext.markBucketLoading_isTame _ _ _ _)).within hx) fun marked => ?_
      refine Spec.ite (fun _ => ?_) fun _ => Spec.pure fun c' hc' => ⟨hc'.contained hx, hc'.2⟩
      -- whatever is read from the freed node, one block is listed
      have hmove : ∀ copied : Block, Spec (Holds x pc) (modifySelf fun h => { h with
          preAllocatedBuckets := rest
          loadingBuckets := h.loadingBuckets ++ [copied]
          freedReads := h.freedReads + 2 })
          (fun _ c => Contained c ∧ c.self.pc = pc) Within := by
        intro copied
        apply Spec.modify
        rintro c' ⟨hholds, rfl⟩
        refine ⟨?_, rfl⟩
        have hloading : c'.self.loadingBuckets = x.loading := by rw [← hholds]; rfl
        have hcache : c'.self.lruCache = x.lruCache := by rw [← hholds]; rfl
        simp only [Holdings.Fits, Holdings.total, hpre, List.length_cons] at hx
        simp only [Contained, Holdings.Fits, Holdings.total, holdings, hloading, hcache,
          List.length_append, List.length_singleton]
        omega
      exact Spec.bind (hmove _) fun _ => Spec.pure fun _ hc => hc

/-- `activateBlock` with a preallocated bucket never leaves the quota. -/
theorem activateBlock_within (cfg : Config) (blockId : Nat) (hx : x.Fits 0)
    (hpre : x.preAllocated ≠ []) :
    Spec (Holds x pc) (activateBlock cfg blockId) (fun _ c => Contained c ∧ c.self.pc = pc)
      Within := by
  refine Spec.bind (catchUp_frames.within hx) fun _ => Spec.bind ((blockAt_frames _).within hx)
    fun block => ?_
  refine Spec.ite (fun _ => startLoading_within cfg blockId hx) fun _ => Spec.ite (fun _ => ?_)
    fun _ => Spec.throw fun c hc => ⟨hc.1 ▸ hx, by decide⟩
  refine Spec.bind (makeRoom_within cfg hx hpre) fun _ => ?_
  refine Spec.of_pointwise fun c hc => ?_
  obtain ⟨y, hy, hholds⟩ := hc
  refine Spec.weaken_pre ?_ fun c' hc' => hc' ▸ hholds
  have hy₀ := hy.mono (Nat.zero_le _)
  refine Spec.bind (Frames.within Confines.get hy₀) fun c₁ => ?_
  refine Spec.bind ((blockAt_frames _).within hy₀) fun block => Spec.bind
    (myActiveId_frames.within hy₀) fun a => Spec.bind ((onShm_frames
      (SharedMemoryContext.activateBucket_isTame _ _ _ _)).within hy₀) fun byMe => ?_
  have hput : Spec (Holds y pc) (do
      putActive block.blockId block.bucketId
      return ActivateResult.activated) (fun _ c => Contained c ∧ c.self.pc = pc) Within :=
    Spec.bind (putActive_contained _ _ hy) fun _ => Spec.pure fun _ hc => hc
  exact Spec.ite (fun _ => Spec.bind ((logRecord_frames _ _ _).within hy₀) fun _ => hput)
    fun _ => hput

/-- `extendOneBlock` moves a preallocated bucket into the cache. -/
theorem extendOneBlock_contained (hx : x.Fits 0) :
    Spec (Holds x pc) extendOneBlock (fun _ c => Contained c ∧ c.self.pc = pc)
      (fun _ => Contained) := by
  refine Spec.get_bind fun c hc => Spec.weaken_pre ?_ fun c' hc' => hc' ▸ hc
  have hlist : c.self.preAllocatedBuckets = x.preAllocated := by rw [← hc.1]; rfl
  simp only [hlist]
  cases hpre : x.preAllocated with
  | nil => exact Spec.throw fun c' hc' => hc'.contained hx
  | cons front rest =>
      let y : Holdings := { x with preAllocated := rest }
      have hy : y.Fits 1 := by
        simp only [Holdings.Fits, Holdings.total, hpre, List.length_cons] at hx
        simp only [y, Holdings.Fits, Holdings.total]
        omega
      have htake : Spec (Holds x pc) (modifySelf fun h => { h with
          preAllocatedBuckets := rest
          blockArray := h.blockArray ++ [{ front with blockId := some c.self.blockArray.length }] })
          (fun _ => Holds y pc) (fun _ => Contained) := by
        apply Spec.modify
        rintro c' ⟨rfl, rfl⟩
        exact ⟨rfl, rfl⟩
      refine Spec.bind htake fun _ => Spec.bind (Spec.conseq (putActive_contained _ _ hy)
        (fun _ => id) (fun _ _ => id) fun _ _ he => he.1) fun _ => ?_
      refine contained_rest fun z => Keeps.bind catchUp_frames.keeps fun _ => ?_
      exact Keeps.bind (onShm_holds _) fun _ => Keeps.bind Keeps.get fun c₁ =>
        (logRecord_frames _ _ _).keeps

/-- The handle holds no more than `x`, and its thread stands at `pc`. -/
def Covered (x : Holdings) (pc : Pc) (c : Ctx) : Prop := x.Covers c.self.holdings ∧ c.self.pc = pc

theorem Holds.covered {c : Ctx} {y : Holdings} (hc : Holds y pc c) (hy : x.Covers y) :
    Covered x pc c :=
  ⟨hc.1.symm ▸ hy, hc.2⟩

theorem covered_rest {α : Type} {prog : StatusM α} (h : ∀ y, Keeps (Holds y pc) prog) :
    Keeps (Covered x pc) prog := by
  refine Spec.of_pointwise fun c hc => ?_
  refine Spec.conseq (h c.self.holdings) (fun c' hc' => ?_) (fun _ c' hc' => hc'.covered hc.1)
    fun _ c' hc' => hc'.covered hc.1
  rw [hc']
  exact ⟨rfl, hc.2⟩

/-- The loop over the loading blocks, from one round. -/
theorem eachLoading_covered {blockId : Option Nat} {found : Nat → Block → StatusM Unit}
    (hfound : ∀ (y : Holdings) (i : Nat) (theBlock : Block), y.loading[i]? = some theBlock →
      Spec (Holds y pc) (found i theBlock) (fun _ => Covered y pc) (fun _ => Covered y pc))
    (fuel i : Nat) :
    Spec (Holds x pc) (eachLoading blockId found fuel i) (fun _ => Covered x pc)
      (fun _ => Covered x pc) := by
  refine Spec.weaken_pre (eachLoading_spec (P := Covered x pc) (fun k theBlock => ?_) fuel i)
    fun c hc => hc.covered (.refl x)
  refine Spec.of_pointwise fun c hc => ?_
  have hround := hfound c.self.holdings k theBlock hc.2
  refine Spec.conseq hround (fun c' hc' => ?_) (fun _ c' hc' => ?_) fun _ c' hc' => ?_
  · rw [hc']
    exact ⟨rfl, hc.1.2⟩
  · exact ⟨hc.1.1.trans hc'.1, hc'.2⟩
  · exact ⟨hc.1.1.trans hc'.1, hc'.2⟩

/-- A block that was loaded moves its bucket into the cache. -/
theorem finishLoading_covered (cfg : Config) (info : BlockInfo) (size : Nat) {k : Nat}
    {theBlock : Block} (hk : x.loading[k]? = some theBlock) :
    Spec (Holds x pc) (finishLoading cfg info size k theBlock) (fun _ => Covered x pc)
      (fun _ => Covered x pc) := by
  have hexit : ∀ {α : Type} {prog : StatusM α}, Keeps (Holds x pc) prog →
      Spec (Holds x pc) prog (fun _ => Holds x pc) (fun _ => Covered x pc) :=
    fun h => h.conseq (fun _ => id) (fun _ _ => id) fun _ _ hc => hc.covered (.refl x)
  refine Spec.bind (hexit Keeps.get) fun c => Spec.bind (hexit myActiveId_frames.keeps) fun a => ?_
  refine Spec.bind (hexit (onShm_holds _)) fun b => Spec.bind (hexit (onShm_holds _)) fun _ =>
    Spec.bind (hexit (onShm_holds _)) fun _ => ?_
  let y : Holdings := { x with loading := x.loading.eraseIdx k }
  have hlt : k < x.loading.length := (List.getElem?_eq_some_iff.mp hk).1
  have hlength : y.loading.length + 1 = x.loading.length := by
    simp only [y, List.length_eraseIdx_of_lt hlt]
    omega
  have hy : x.Covers y := by
    refine ⟨?_, rfl, id⟩
    simp only [Holdings.total, y] at hlength ⊢
    omega
  have herase : Spec (Holds x pc) (modifySelf fun h => { h with
      loadingBuckets := h.loadingBuckets.eraseIdx k })
      (fun _ => Holds y pc) (fun _ => Covered x pc) := by
    apply Spec.modify
    rintro c' ⟨rfl, rfl⟩
    exact ⟨rfl, rfl⟩
  have hput : Spec (Holds y pc) (putActive theBlock.blockId theBlock.bucketId)
      (fun _ => Covered x pc) (fun _ => Covered x pc) := by
    cases theBlock.blockId with
    | none => exact Spec.throw fun c' hc' => hc'.covered hy
    | some i =>
        apply Spec.modify
        rintro c' ⟨hholds, rfl⟩
        have hcache : c'.self.lruCache = x.lruCache := congrArg Holdings.lruCache hholds
        have hpre : c'.self.preAllocatedBuckets = x.preAllocated :=
          congrArg Holdings.preAllocated hholds
        have hloading : c'.self.loadingBuckets = y.loading := congrArg Holdings.loading hholds
        refine ⟨⟨?_, ?_, fun hne => ?_⟩, rfl⟩
        · have hsize := LRUCache.size_put_le x.lruCache i theBlock.bucketId
          simp only [Holdings.total, holdings, hcache, hpre, hloading]
          omega
        · simp only [holdings, hcache, LRUCache.maxSize_put]
        · simp only [holdings, hpre]
          exact hne
  refine Spec.bind herase fun _ => Spec.bind hput fun _ => ?_
  refine covered_rest fun z => ?_
  cases theBlock.blockId with
  | none => exact Keeps.bind Keeps.throw fun _ => (logRecord_frames _ _ _).keeps
  | some i =>
      exact Keeps.bind (blockAt_frames i).keeps fun _ => Keeps.bind
        (modifySelf_frames fun _ => ⟨rfl, rfl⟩).keeps fun _ => (logRecord_frames _ _ _).keeps

theorem loadSucceeded_covered (cfg : Config) (info : BlockInfo) (size : Nat) :
    Spec (Holds x pc) (loadSucceeded cfg info size) (fun _ => Covered x pc)
      (fun _ => Covered x pc) :=
  Spec.get_keep fun _ _ => eachLoading_covered
    (fun _ _ _ hk => finishLoading_covered cfg info size hk) _ _

/-- A block that was not loaded returns its bucket to the preallocated ones. -/
theorem abandonLoading_covered (info : BlockInfo) {k : Nat} {theBlock : Block}
    (hk : x.loading[k]? = some theBlock) :
    Spec (Holds x pc) (abandonLoading info k theBlock) (fun _ => Covered x pc)
      (fun _ => Covered x pc) := by
  have hexit : ∀ {α : Type} {prog : StatusM α}, Keeps (Holds x pc) prog →
      Spec (Holds x pc) prog (fun _ => Holds x pc) (fun _ => Covered x pc) :=
    fun h => h.conseq (fun _ => id) (fun _ _ => id) fun _ _ hc => hc.covered (.refl x)
  refine Spec.bind (hexit myActiveId_frames.keeps) fun a => ?_
  refine Spec.bind (hexit (onShm_holds _)) fun b => Spec.bind (hexit (onShm_holds _)) fun _ => ?_
  apply Spec.modify
  rintro c' ⟨rfl, rfl⟩
  have hlt : k < c'.self.loadingBuckets.length := (List.getElem?_eq_some_iff.mp hk).1
  refine ⟨⟨?_, rfl, fun _ => List.cons_ne_nil _ _⟩, rfl⟩
  simp only [Holdings.total, holdings, List.length_cons, List.length_eraseIdx_of_lt hlt]
  omega

theorem loadFailed_covered (info : BlockInfo) :
    Spec (Holds x pc) (loadFailed info) (fun _ => Covered x pc) (fun _ => Covered x pc) :=
  Spec.get_keep fun _ _ => eachLoading_covered (fun _ _ _ hk => abandonLoading_covered info hk) _ _

/-! ## The remaining critical sections -/

theorem keeps_contained {α : Type} {prog : StatusM α}
    (h : ∀ y pc, Keeps (Holds y pc) prog) : Keeps Contained prog := by
  refine Spec.of_pointwise fun c hc => ?_
  refine Spec.conseq (h c.self.holdings c.self.pc) (fun c' hc' => ?_)
    (fun _ c' hc' => hc'.contained hc) fun _ c' hc' => hc'.contained hc
  rw [hc']
  exact ⟨rfl, rfl⟩

theorem registInSharedMem_holds : Keeps (Holds x pc) registInSharedMem := by
  refine Keeps.bind catchUp_frames.keeps fun _ => Keeps.bind Keeps.get fun c =>
    Keeps.bind (onShm_holds _) fun assigned => ?_
  cases assigned with
  | none => exact Keeps.throw
  | some a => exact (modifySelf_frames fun _ => ⟨rfl, rfl⟩).keeps

theorem updateCurBlockSize_holds (cfg : Config) : Keeps (Holds x pc) (updateCurBlockSize cfg) := by
  refine Keeps.bind Keeps.get fun c => Keeps.bind catchUp_frames.keeps fun _ =>
    Keeps.bind Keeps.get fun c' => Keeps.ite ?_ (Keeps.ite Keeps.throw Keeps.pure)
  exact Keeps.bind (blockAt_frames _).keeps fun last => Keeps.bind myActiveId_frames.keeps fun a =>
    onShm_holds _

theorem setPosition_holds (cfg : Config) (pos : Nat) :
    Keeps (Holds x pc) (setPosition cfg pos) := by
  refine Keeps.bind (modifySelf_frames fun _ => ⟨rfl, rfl⟩).keeps fun _ => Keeps.bind Keeps.get
    fun c => Keeps.ite ?_ Keeps.pure
  exact Keeps.bind (modifySelf_frames fun _ => ⟨rfl, rfl⟩).keeps fun _ =>
    updateCurBlockSize_holds cfg

theorem flush_holds (cfg : Config) : Keeps (Holds x pc) (flush cfg) := by
  refine Keeps.bind Keeps.get fun c => Keeps.bind catchUp_frames.keeps fun _ =>
    Keeps.bind Keeps.get fun c' => Keeps.ite ?_ Keeps.throw
  cases c'.self.blockArray.getLast? with
  | none => exact Keeps.throw
  | some last => exact Keeps.ite (flushEof_frames cfg).keeps Keeps.pure

theorem closeFile_holds : Keeps (Holds x pc) closeFile := by
  refine Keeps.bind Keeps.get fun c => Keeps.bind (onShm_holds _) fun opening => Keeps.ite ?_
    (Keeps.ite ?_ ?_)
  · exact Keeps.bind (modifySelf_frames fun _ => ⟨rfl, rfl⟩).keeps fun _ => Keeps.pure
  · cases blocksToDestroy c.self.blockArray with
    | error e => exact Keeps.throw
    | ok blocks =>
        refine Keeps.bind (onShm_holds _) fun _ => Keeps.bind ?_ fun _ => Keeps.pure
        exact Keeps.modify fun c hc => hc
  · refine Keeps.bind (Spec.get_bind fun c' hc' => ?_) fun _ => Keeps.pure
    cases c'.self.fd with
    | none => exact Spec.throw fun c'' hc'' => hc'' ▸ hc'
    | some fd =>
        refine Spec.weaken_pre ?_ fun c'' hc'' => hc'' ▸ hc'
        exact Keeps.bind (fun _ _ => hc') fun _ => (logRecord_frames _ _ _).keeps

theorem close_contained (cfg : Config) (isCancel : Bool) :
    Keeps Contained (close cfg isCancel) := by
  have hremove : ∀ num, Keeps Contained (removeNumOfKeys num) := by
    intro num
    refine Spec.get_bind fun c hc => ?_
    rintro _ rfl
    exact Holdings.Fits.inactivate hc num
  have hunregist : Keeps Contained (unregistInSharedMem isCancel) := by
    refine keeps_contained fun y pc => Keeps.bind Keeps.get fun c =>
      Keeps.bind myActiveId_frames.keeps fun a => Keeps.bind (onShm_holds _) fun left => ?_
    cases left with
    | none => exact Keeps.throw
    | some destroy => exact (modifySelf_frames fun _ => ⟨rfl, rfl⟩).keeps
  have hleave : Keeps Contained (do
      unregistInSharedMem isCancel
      let remoteBlocks ← closeFile
      modifySelf fun h => { h with blockArray := [], lruCache := .empty h.lruCache.maxSize }
      return remoteBlocks) := by
    refine Keeps.bind hunregist fun _ => Keeps.bind (keeps_contained fun _ _ => closeFile_holds)
      fun remote => Keeps.bind (Keeps.modify fun c hc => ?_) fun _ => Keeps.pure
    simp only [Contained, Holdings.Fits, Holdings.total, holdings] at hc ⊢
    simp only [LRUCache.size_empty, LRUCache.maxSize_empty]
    omega
  have hinactivate : ∀ (fileId : FileId) (a : Nat) (blocks : List Block), Keeps Contained (do
      let turned ← onShm (SharedMemoryContext.inactivateBuckets fileId a blocks)
      updateInactivated cfg turned
      if turned ≠ [] then
        logInactivateBucket turned
      unregistInSharedMem isCancel
      let remoteBlocks ← closeFile
      modifySelf fun h => { h with blockArray := [], lruCache := .empty h.lruCache.maxSize }
      return remoteBlocks) := by
    intro fileId a blocks
    refine Keeps.bind (keeps_contained fun _ _ => onShm_holds _) fun turned => Keeps.bind
      (keeps_contained fun _ _ => (updateInactivated_frames cfg turned).keeps) fun _ => ?_
    exact Keeps.ite (Keeps.bind (keeps_contained fun _ _ => (logRecord_frames _ _ _).keeps)
      fun _ => hleave) hleave
  refine Keeps.bind (keeps_contained fun _ _ => catchUp_frames.keeps) fun _ => Keeps.bind Keeps.get
    fun c => Keeps.bind (keeps_contained fun _ _ => myActiveId_frames.keeps) fun a =>
      Keeps.bind (hremove _) fun keys => Keeps.bind
        (keeps_contained fun _ _ => (blocksOf_frames keys).keeps) fun blocks => ?_
  refine Keeps.ite ?_ (hinactivate _ _ _)
  exact Keeps.bind (keeps_contained fun _ _ => onShm_holds _) fun _ => Keeps.bind
    (keeps_contained fun _ _ => (logRecord_frames _ _ _).keeps) fun _ => hinactivate _ _ _

end FileActiveStatus

end Gopherwood
