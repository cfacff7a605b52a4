/-
# The quota of a handle

`acquireNewBlocks` decides how many blocks to give up and how many buckets to ask
for; the other operations only move buckets between the three lists of a handle.
Together the lists never outgrow the capacity of the cache, so the cache never drops
a key on its own. The module follows one handle over its turns, while everything
around it changes in any way.
-/

import Gopherwood.File.HoldingMoves

namespace Gopherwood

open Library (Keeps Spec Run execute)

/-- What the next step of the thread relies on. -/
def Pc.Staged (x : Holdings) : Pc → Prop
  | .evictRead _ loop =>
      x.Fits loop.numToAcquire ∧ (loop.evicting = true → 0 < loop.numToAcquire)
  | .evictPut _ loop _ =>
      x.Fits loop.numToAcquire ∧ (loop.evicting = true → 0 < loop.numToAcquire)
  | .evictFinish _ loop =>
      x.Fits loop.numToAcquire ∧ (loop.evicting = true → 0 < loop.numToAcquire)
  | .extend => x.preAllocated ≠ []
  | .activate _ => x.preAllocated ≠ []
  | _ => True

theorem Pc.Staged.of_covers {x y : Holdings} (h : x.Covers y) {pc : Pc} (hpc : pc.Staged x) :
    pc.Staged y := by
  cases pc with
  | evictRead caller loop => exact ⟨h.fits hpc.1, hpc.2⟩
  | evictPut caller loop buffer => exact ⟨h.fits hpc.1, hpc.2⟩
  | evictFinish caller loop => exact ⟨h.fits hpc.1, hpc.2⟩
  | extend => exact h.preAllocated hpc
  | activate caller => exact h.preAllocated hpc
  | _ => trivial

namespace FileActiveStatus

/-- The holdings fit, and the thread finds what its next step relies on. -/
structure Metered (h : FileActiveStatus) : Prop where
  fits : h.holdings.Fits 0
  staged : h.pc.Staged h.holdings

variable {h : FileActiveStatus}

theorem leaveAdjust_metered (hfits : h.holdings.Fits 0) : h.leaveAdjust.Metered := by
  refine ⟨hfits, ?_⟩
  unfold leaveAdjust
  dsimp only
  split
  · trivial
  · trivial

theorem enter_metered (caller : Caller) (hfits : h.holdings.Fits 0) : (h.enter caller).Metered := by
  refine ⟨hfits, ?_⟩
  unfold enter
  dsimp only
  split
  · trivial
  · next hpre =>
      cases caller with
      | extend => exact hpre
      | preActivate counter num => exact hpre
      | wait => exact hpre

theorem preActivate_metered (num fuel counter : Nat) (hfits : h.holdings.Fits 0) :
    (preActivate num fuel counter h).Metered := by
  induction fuel generalizing counter with
  | zero => exact leaveAdjust_metered hfits
  | succ fuel ih =>
      unfold preActivate
      dsimp only
      split
      · exact leaveAdjust_metered hfits
      · split
        · exact enter_metered _ hfits
        · exact ih _

theorem adjustActiveBlock_metered (cfg : Config) (hfits : h.holdings.Fits 0) :
    (h.adjustActiveBlock cfg).Metered := by
  unfold adjustActiveBlock
  dsimp only
  split
  · exact enter_metered _ hfits
  · exact preActivate_metered _ _ _ hfits

theorem waitActive_metered (hmetered : h.Metered) : h.waitActive.Metered := by
  unfold waitActive
  split
  · exact ⟨hmetered.fits, trivial⟩
  · split
    · exact enter_metered _ hmetered.fits
    · exact hmetered

theorem afterActivate_metered (caller : Caller) (activated : Bool) (hfits : h.holdings.Fits 0) :
    (h.afterActivate caller activated).Metered := by
  cases caller with
  | extend => exact leaveAdjust_metered hfits
  | preActivate counter num => exact preActivate_metered _ _ _ hfits
  | wait =>
      refine ⟨hfits, ?_⟩
      unfold afterActivate
      dsimp only
      split
      · trivial
      · trivial

theorem streamPc_staged (x : Holdings) (h : FileActiveStatus) : h.streamPc.Staged x := by
  unfold streamPc
  split
  · trivial
  · split
    · trivial
    · trivial

/-- After a round of the loop of `acquireNewBlocks`. -/
theorem afterEvictRound_metered (caller : Caller) (loop : EvictLoop) :
    Spec (fun c => c.self.holdings.Fits loop.numToAcquire ∧
        (loop.evicting = true → 0 < loop.numToAcquire)) (afterEvictRound caller loop)
      (fun _ c => c.self.Metered) (fun _ => Contained) := by
  refine Spec.ite (fun _ => ?_) fun _ => ?_
  · apply Spec.modify
    intro c hc
    refine ⟨hc.1.mono (Nat.zero_le _), ?_⟩
    dsimp only
    split
    · exact hc
    · exact hc
  · refine Spec.get_bind fun c hc => Spec.ite (fun _ => ?_) fun hpre => ?_
    · exact Spec.throw fun c' hc' => hc' ▸ hc.1.mono (Nat.zero_le _)
    · apply Spec.modify
      rintro c' rfl
      refine ⟨hc.1.mono (Nat.zero_le _), ?_⟩
      cases caller with
      | extend => exact hpre
      | preActivate counter num => exact hpre
      | wait => exact hpre

theorem transferChunk_metered {cfg : Config} {space space' : List UInt8} {h' : FileActiveStatus}
    (hfits : h.holdings.Fits 0) (hrun : h.transferChunk cfg space = .ok (h', space')) :
    h'.Metered := by
  unfold transferChunk at hrun
  dsimp only at hrun
  split at hrun
  · cases hrun
    exact ⟨hfits, trivial⟩
  · split at hrun
    · split at hrun
      · cases hrun
      · cases hrun
        exact ⟨hfits, trivial⟩
    · cases hrun
  · split at hrun
    · cases hrun
      exact ⟨hfits, trivial⟩
    · cases hrun

theorem getCurBlockInfo_metered (cfg : Config) :
    Spec Contained (getCurBlockInfo cfg) (fun _ c => c.self.Metered) (fun _ => Contained) := by
  refine Spec.bind Keeps.get fun c => Spec.bind
    (keeps_contained fun _ _ => (blockAt_frames _).keeps) fun block => ?_
  exact Spec.modify fun c' hc' => ⟨hc', trivial⟩

theorem advance_metered (cfg : Config) (count : Nat) :
    Spec Contained (advance cfg count) (fun _ c => c.self.Metered) (fun _ => Contained) := by
  refine Spec.bind (keeps_contained fun _ _ => (modifySelf_frames fun _ => ⟨rfl, rfl⟩).keeps)
    fun _ => Spec.bind Keeps.get fun c => Spec.bind
      (keeps_contained fun _ _ => setPosition_holds cfg _) fun _ => ?_
  exact Spec.modify fun c' hc' => ⟨hc', streamPc_staged _ _⟩

end FileActiveStatus

/-! ## One handle among others -/

namespace World

open FileActiveStatus (Contained Metered)

variable {w w' : World} {n : Nat} {h : FileActiveStatus} {cfg : Config}

/-- A critical section of handle `n`, and what follows it. -/
theorem runFile_metered {α : Type} {prog : StatusM α} {call : Option Call}
    {next : α → World → World} {post : α → Ctx → Prop}
    (hprog : Spec (· = ⟨w.shm, w.folder, w.oss, h⟩) prog post (fun _ => Contained))
    (hnext : ∀ a c w₁, w₁.files = w.files.set n c.self → post a c →
      ∃ h', (next a w₁).files = w.files.set n h' ∧ h'.Metered) :
    ∃ h', (w.runFile n h call prog next).files = w.files.set n h' ∧ h'.Metered := by
  have hpost := hprog _ rfl
  unfold runFile
  cases hrun : prog ⟨w.shm, w.folder, w.oss, h⟩ with
  | ok a c =>
      rw [hrun] at hpost
      exact hnext a c _ rfl hpost
  | error e c =>
      rw [hrun] at hpost
      exact ⟨{ c.self with pc := .idle }, rfl, hpost, trivial⟩

/-- The handle's next step ends its eviction with the return code `2`. -/
def endsStolen (w : World) (h : FileActiveStatus) : Bool :=
  match h.pc, h.activeId with
  | .evictFinish _ loop, some a =>
      loop.evicting &&
        match SharedMemoryContext.evictBucketFinishAndTryAcquire loop.evictBlockInfo.bucketId a
            h.fileId h.isWrite w.shm with
        | .ok .stolen _ => true
        | _ => false
  | _, _ => false

theorem spared_of_endsStolen {caller : Caller} {loop : EvictLoop}
    (hpc : h.pc = .evictFinish caller loop) (hevicting : loop.evicting = true)
    (hstolen : w.endsStolen h = false) :
    FileActiveStatus.Spared ⟨w.shm, w.folder, w.oss, h⟩ := by
  intro a ha hisStolen
  obtain ⟨s, hs⟩ := (FileActiveStatus.evict_stolen_iff w.shm a loop.evictBlockInfo.bucketId
    h.fileId h.isWrite).mpr hisStolen
  have ha : h.activeId = some a := ha
  simp [endsStolen, hpc, ha, hevicting, hs] at hstolen

theorem stepFile_metered
    (hquota : ∀ caller, h.pc = .acquire caller → FileActiveStatus.IsQuota cfg.curQuotaSize)
    (hstolen : w.endsStolen h = false) (hmetered : h.Metered)
    (hstep : w.stepFile cfg n h = some w') :
    ∃ h', w'.files = w.files.set n h' ∧ h'.Metered := by
  have hfits := hmetered.fits
  have hset : ∀ h' : FileActiveStatus, (w.setFile n h').files = w.files.set n h' := fun _ => rfl
  have hmap : ∀ {w₁ : World} {x : FileActiveStatus} (f : FileActiveStatus → FileActiveStatus),
      w₁.files = w.files.set n x → (w₁.mapFile n f).files = w.files.set n (f x) := by
    intro w₁ x f hx
    show w₁.files.modify n f = _
    rw [hx, modify_set_files]
  have hraise : ∀ call e, ∃ h', (w.raise n h call e).files = w.files.set n h' ∧ h'.Metered :=
    fun call e => ⟨{ h with pc := .idle }, hset _, hfits, trivial⟩
  -- a critical section that keeps the holdings contained
  have hcontained : ∀ {α : Type} {prog : StatusM α} {post : α → Ctx → Prop},
      Spec Contained prog post (fun _ => Contained) →
      Spec (· = ⟨w.shm, w.folder, w.oss, h⟩) prog post (fun _ => Contained) := by
    intro α prog post hprog
    refine Spec.weaken_pre hprog fun c hc => ?_
    rw [hc]
    exact hfits
  have hholds : ∀ {α : Type} {prog : StatusM α} {post : α → Ctx → Prop},
      Spec (FileActiveStatus.Holds h.holdings h.pc) prog post (fun _ => Contained) →
      Spec (· = ⟨w.shm, w.folder, w.oss, h⟩) prog post (fun _ => Contained) := by
    intro α prog post hprog
    refine Spec.weaken_pre hprog fun c hc => ?_
    rw [hc]
    exact ⟨rfl, rfl⟩
  unfold stepFile at hstep
  cases hpc : h.pc with
  | openManifest =>
      simp only [hpc, Option.some.injEq] at hstep
      subst hstep
      exact ⟨_, hset _, hfits, trivial⟩
  | regist =>
      simp only [hpc, Option.some.injEq] at hstep
      subst hstep
      have hregist := hcontained (FileActiveStatus.keeps_contained fun _ _ =>
        FileActiveStatus.registInSharedMem_holds) _ rfl
      cases hrun : FileActiveStatus.registInSharedMem ⟨w.shm, w.folder, w.oss, h⟩ with
      | ok u c =>
          rw [hrun] at hregist
          dsimp only
          split
          · exact ⟨{ c.self with pc := .close false }, rfl, hregist, trivial⟩
          · exact ⟨{ c.self with pc := .idle }, rfl, hregist, trivial⟩
      | error e c =>
          rw [hrun] at hregist
          exact ⟨{ c.self with pc := .closed }, rfl, hregist, trivial⟩
  | idle =>
      rw [hpc] at hstep
      cases hstep
  | closed =>
      rw [hpc] at hstep
      cases hstep
  | adjust =>
      simp only [hpc] at hstep
      split at hstep
      · cases hstep
      · cases hstep
        exact ⟨_, hset _, FileActiveStatus.adjustActiveBlock_metered cfg hfits⟩
  | acquire caller =>
      simp only [hpc, Option.some.injEq] at hstep
      subst hstep
      refine runFile_metered (hholds ?_) fun _ c w₁ hw₁ hc => ⟨c.self, hw₁, hc⟩
      refine Spec.bind (Spec.conseq (FileActiveStatus.acquireFirst_within (hquota caller hpc) hfits)
        (fun _ => id) (fun _ _ => id) fun _ _ he => he.1) fun loop => ?_
      exact Spec.weaken_pre (FileActiveStatus.afterEvictRound_metered caller loop)
        fun c hc => ⟨hc.1, hc.2.2⟩
  | evictRead caller loop =>
      simp only [hpc, Option.some.injEq] at hstep
      subst hstep
      have hstaged := hmetered.staged
      rw [hpc] at hstaged
      cases w.evictRead cfg loop.evictBlockInfo with
      | ok buffer => exact ⟨_, hset _, hfits, hstaged⟩
      | error e => exact hraise _ e
  | evictPut caller loop buffer =>
      simp only [hpc, Option.some.injEq] at hstep
      subst hstep
      have hstaged := hmetered.staged
      rw [hpc] at hstaged
      exact ⟨_, hset _, hfits, hstaged⟩
  | evictFinish caller loop =>
      simp only [hpc, Option.some.injEq] at hstep
      subst hstep
      have hstaged := hmetered.staged
      rw [hpc] at hstaged
      refine runFile_metered ?_ fun _ c w₁ hw₁ hc => ⟨c.self, hw₁, hc⟩
      refine Spec.bind (Spec.weaken_pre (@FileActiveStatus.acquireNext_contained h.holdings h.pc
        loop hstaged.1 hstaged.2) fun c hc => ?_) fun loop => ?_
      · subst hc
        exact ⟨⟨rfl, rfl⟩, fun hevicting => spared_of_endsStolen hpc hevicting hstolen⟩
      · exact Spec.weaken_pre (FileActiveStatus.afterEvictRound_metered caller loop)
          fun c hc => ⟨hc.1, hc.2.2⟩
  | extend =>
      simp only [hpc, Option.some.injEq] at hstep
      subst hstep
      refine runFile_metered (hholds (FileActiveStatus.extendOneBlock_contained hfits))
        fun _ c w₁ hw₁ hc => ⟨_, hmap _ hw₁, FileActiveStatus.leaveAdjust_metered hc.1⟩
  | activate caller =>
      simp only [hpc, Option.some.injEq] at hstep
      subst hstep
      have hstaged := hmetered.staged
      rw [hpc] at hstaged
      refine runFile_metered (hholds (Spec.conseq
        (FileActiveStatus.activateBlock_within cfg _ hfits hstaged) (fun _ => id) (fun _ _ => id)
          fun _ _ he => he.1)) fun result c w₁ hw₁ hc => ?_
      refine ⟨_, ?_, FileActiveStatus.afterActivate_metered caller (isActivated result) hc.1⟩
      cases result with
      | startLoad info => exact hmap _ hw₁
      | activated => exact hmap _ hw₁
      | loadingByOthers => exact hmap _ hw₁
  | wait =>
      simp only [hpc] at hstep
      split at hstep
      · cases hstep
      · cases hstep
        exact ⟨_, hset _, FileActiveStatus.waitActive_metered hmetered⟩
  | ready =>
      simp only [hpc, Option.some.injEq] at hstep
      subst hstep
      exact runFile_metered (hcontained (FileActiveStatus.getCurBlockInfo_metered cfg))
        fun _ c w₁ hw₁ hc => ⟨c.self, hw₁, hc⟩
  | transfer =>
      simp only [hpc, Option.some.injEq] at hstep
      subst hstep
      cases hrun : h.transferChunk cfg w.space with
      | ok result => exact ⟨_, hset _, FileActiveStatus.transferChunk_metered hfits hrun⟩
      | error e => exact hraise _ e
  | advance count =>
      simp only [hpc, Option.some.injEq] at hstep
      subst hstep
      refine runFile_metered (hcontained (FileActiveStatus.advance_metered cfg count))
        fun _ c w₁ hw₁ hc => ⟨c.self, (settle_files w₁ n).trans hw₁, hc⟩
  | flush =>
      simp only [hpc, Option.some.injEq] at hstep
      subst hstep
      exact runFile_metered (hcontained (FileActiveStatus.keeps_contained fun _ _ =>
        FileActiveStatus.flush_holds cfg)) fun _ c w₁ hw₁ hc => ⟨_, hmap _ hw₁, hc, trivial⟩
  | close isCancel =>
      simp only [hpc, Option.some.injEq] at hstep
      subst hstep
      exact runFile_metered (hcontained (FileActiveStatus.close_contained cfg isCancel))
        fun _ c w₁ hw₁ hc => ⟨_, hmap _ hw₁, hc, trivial⟩
  | deleteRemote isCancel blocks =>
      simp only [hpc, Option.some.injEq] at hstep
      subst hstep
      cases blocks with
      | nil => exact ⟨{ h with pc := .closed }, rfl, hfits, trivial⟩
      | cons block rest => exact ⟨_, hset _, hfits, trivial⟩

theorem startCall_metered (hfits : h.holdings.Fits 0) (hidle : h.pc = .idle) (call : Call) :
    ∃ h', (w.startCall n h call).files = w.files.set n h' ∧ h'.Metered := by
  have hset : ∀ h' : FileActiveStatus, (w.setFile n h').files = w.files.set n h' := fun _ => rfl
  have hraise : ∀ call e, ∃ h', (w.raise n h call e).files = w.files.set n h' ∧ h'.Metered :=
    fun call e => ⟨{ h with pc := .idle }, hset _, hfits, trivial⟩
  have hstream : ∀ (x : FileActiveStatus) (stream : Stream), x.holdings.Fits 0 →
      ∃ h', (w.startStream n x stream).files = w.files.set n h' ∧ h'.Metered := by
    intro x stream hx
    refine ⟨_, (settle_files _ _).trans (hset _), hx, ?_⟩
    exact FileActiveStatus.streamPc_staged _ _
  have hseek : ∀ call target, ∃ h', (w.startSeek n h call target).files = w.files.set n h' ∧
      h'.Metered := by
    intro call target
    unfold startSeek
    split
    · refine ⟨{ h with pos := target.toNat }, rfl, hfits, ?_⟩
      show h.pc.Staged _
      rw [hidle]
      trivial
    · split
      · split
        · exact hstream _ _ hfits
        · exact hraise _ _
      · exact hraise _ _
  cases call with
  | read length => exact hstream _ _ hfits
  | write buffer =>
      unfold startCall
      dsimp only
      split
      · exact hstream _ _ hfits
      · exact hraise _ _
  | seekSet pos => exact hseek _ _
  | seekCur pos => exact hseek _ _
  | seekEnd pos => exact hseek _ _
  | flush =>
      unfold startCall
      dsimp only
      split
      · exact ⟨_, hset _, hfits, trivial⟩
      · exact hraise _ _
  | close isCancel => exact ⟨_, hset _, hfits, trivial⟩

/-- The end of a load frees at most what it held. -/
theorem finishLoad_metered {prog : StatusM Unit} {i : Nat} (hmetered : h.Metered)
    (hprog : Spec (FileActiveStatus.Holds h.holdings h.pc) prog
      (fun _ => FileActiveStatus.Covered h.holdings h.pc)
      (fun _ => FileActiveStatus.Covered h.holdings h.pc)) :
    ∃ h', (w.finishLoad i n h prog).files = w.files.set n h' ∧ h'.Metered := by
  have hpost := hprog ⟨w.shm, w.folder, w.oss, h⟩ ⟨rfl, rfl⟩
  -- the thread stands where it stood, and what it relies on is still there
  have hcovered : ∀ x : FileActiveStatus, h.holdings.Covers x.holdings → x.pc = h.pc →
      x.Metered := by
    intro x hx hpc
    refine ⟨hx.fits hmetered.fits, ?_⟩
    rw [hpc]
    exact hmetered.staged.of_covers hx
  unfold finishLoad
  dsimp only
  cases hrun : prog ⟨w.shm, w.folder, w.oss, h⟩ with
  | ok u c =>
      rw [hrun] at hpost
      exact ⟨c.self, rfl, hcovered _ hpost.1 hpost.2⟩
  | error e c =>
      rw [hrun] at hpost
      exact ⟨{ c.self with loadMutex := true }, rfl,
        hcovered _ hpost.1 hpost.2⟩

theorem stepLoad_metered {i : Nat} {task : LoadTask}
    (hmetered : ∀ h, w.files[task.owner]? = some h → h.Metered)
    (hstep : w.stepLoad cfg i task = some w') :
    w'.files = w.files ∨ ∃ h', w'.files = w.files.set task.owner h' ∧ h'.Metered := by
  unfold stepLoad at hstep
  dsimp only at hstep
  split at hstep
  · split at hstep
    · cases hstep
      exact Or.inl rfl
    · cases hstep
      exact Or.inl rfl
  · split at hstep
    · cases hstep
      exact Or.inl rfl
    · cases hstep
      exact Or.inl rfl
  · cases hstep
    exact Or.inl rfl
  · split at hstep
    · cases hstep
    · next h hn =>
        split at hstep
        · cases hstep
        · cases hstep
          exact Or.inr (finishLoad_metered (hmetered h hn)
            (FileActiveStatus.loadSucceeded_covered cfg _ _))
  · split at hstep
    · cases hstep
    · next h hn =>
        split at hstep
        · cases hstep
        · cases hstep
          exact Or.inr (finishLoad_metered (hmetered h hn) (FileActiveStatus.loadFailed_covered _))

/-- Every handle respects its quota. -/
def AllMetered (w : World) :
    Prop := ∀ (n : Nat) (h : FileActiveStatus), w.files[n]? = some h → h.Metered

theorem AllMetered.of_set (hw : w.AllMetered) {h' : FileActiveStatus}
    (hfiles : w'.files = w.files.set n h') (hh' : h'.Metered) : w'.AllMetered := by
  intro m x hm
  rcases files_set_cases hfiles hm with ⟨-, rfl⟩ | ⟨-, hm⟩
  · exact hh'
  · exact hw m x hm

/-- A handle starts with nothing. -/
theorem metered_of_openFile {fileId : FileId} {isCreate isSequence : Bool}
    {type : ActiveStatusType} {pid : Nat} (hquota : cfg.curQuotaSize < 2 ^ 32)
    (hopen : (w.openFile cfg fileId isCreate isSequence type pid).files = w.files ++ [h]) :
    h.Metered := by
  have hempty : ∀ {x : FileActiveStatus} {maxSize : Nat}, x.holdings = ⟨.empty maxSize, [], []⟩ →
      maxSize < 2 ^ 32 → x.pc = .openManifest ∨ x.pc = .closed → x.Metered := by
    intro x maxSize hx hmax hpc
    refine ⟨?_, ?_⟩
    · rw [hx]
      exact ⟨Nat.zero_le _, hmax⟩
    · rcases hpc with hpc | hpc
      · rw [hpc]
        trivial
      · rw [hpc]
        trivial
  have hmax : (if isSequence = true then min cfg.curQuotaSize preAllocateBucketNum
      else cfg.curQuotaSize) < 2 ^ 32 := by
    split
    · exact Nat.lt_of_le_of_lt (Nat.min_le_left _ _) hquota
    · exact hquota
  unfold openFile at hopen
  dsimp only at hopen
  split at hopen
  · obtain rfl := List.singleton_inj.mp (List.append_cancel_left hopen)
    exact hempty rfl hmax (Or.inl rfl)
  · obtain rfl := List.singleton_inj.mp (List.append_cancel_left hopen)
    exact hempty rfl hmax (Or.inr rfl)

/-- A step replaces one handle by a metered one, or constructs a handle. -/
theorem step_metered {act : Action} (hw : w.AllMetered)
    (hquota : ∀ n h caller, act = .file n → w.files[n]? = some h → h.pc = .acquire caller →
      FileActiveStatus.IsQuota cfg.curQuotaSize)
    (hstolen : ∀ n h, act = .file n → w.files[n]? = some h → w.endsStolen h = false)
    (hstep : step cfg w act = some w') :
    (∃ n h', w'.files = w.files.set n h' ∧ h'.Metered) ∨ w'.files = w.files ∨
      ∃ x, w'.files = w.files ++ [x] ∧ (cfg.curQuotaSize < 2 ^ 32 → x.Metered) := by
  have hsame : w'.files = w.files → (∃ n h', w'.files = w.files.set n h' ∧ h'.Metered) ∨
      w'.files = w.files ∨ ∃ x, w'.files = w.files ++ [x] ∧
      (cfg.curQuotaSize < 2 ^ 32 → x.Metered) :=
    fun heq => Or.inr (Or.inl heq)
  cases act with
  | openFile hashcode isCreate isSequence type pid =>
      cases hstep
      obtain ⟨x, hnew, -⟩ := w.openFile_isNew cfg (makeFileId hashcode) isCreate isSequence type pid
      exact Or.inr (Or.inr ⟨x, hnew.files, fun hquota => metered_of_openFile hquota hnew.files⟩)
  | call n call =>
      simp only [step] at hstep
      split at hstep
      · next x hn =>
          split at hstep
          · next hpc _ =>
              cases hstep
              exact Or.inl ⟨n, startCall_metered (hw n x hn).fits hpc call⟩
          · cases hstep
      · cases hstep
  | file n =>
      simp only [step] at hstep
      split at hstep
      · next x hn =>
          exact Or.inl ⟨n, stepFile_metered (fun caller hpc => hquota n x caller rfl hn hpc)
            (hstolen n x rfl hn) (hw n x hn) hstep⟩
      · cases hstep
  | failUpload n =>
      simp only [step] at hstep
      split at hstep
      · next x hn =>
          split at hstep
          · cases hstep
            exact Or.inl ⟨n, { x with pc := .idle }, rfl, (hw n x hn).fits, trivial⟩
          · cases hstep
      · cases hstep
  | load i =>
      simp only [step] at hstep
      split at hstep
      · next task _ =>
          rcases stepLoad_metered (hw task.owner) hstep with heq | hset
          · exact hsame heq
          · exact Or.inl ⟨task.owner, hset⟩
      · cases hstep
  | failLoad i =>
      simp only [step] at hstep
      split at hstep
      · unfold failLoad at hstep
        split at hstep
        · cases hstep
          exact hsame rfl
        · cases hstep
          exact hsame rfl
        · cases hstep
      · cases hstep
  | openAdmin pid =>
      cases hstep
      exact hsame rfl
  | admin n =>
      simp only [step] at hstep
      split at hstep
      · exact hsame (stepAdmin_step hstep).files
      · cases hstep
  | evictBlocks n | closeAdmin n | failAdminUpload n =>
      simp only [step] at hstep
      split at hstep
      · split at hstep
        · cases hstep
          exact hsame rfl
        · cases hstep
      · cases hstep

theorem AllMetered.step {act : Action} (hw : w.AllMetered)
    (hquota : FileActiveStatus.IsQuota cfg.curQuotaSize)
    (hstolen : ∀ n h, act = .file n → w.files[n]? = some h → w.endsStolen h = false)
    (hstep : World.step cfg w act = some w') : w'.AllMetered := by
  rcases step_metered hw (fun _ _ _ _ _ _ => hquota) hstolen hstep with
    ⟨n, h', hfiles, hh'⟩ | heq | ⟨x, hfiles, hx⟩
  · exact hw.of_set hfiles hh'
  · intro m y hm
    exact hw m y (heq ▸ hm)
  · intro m y hm
    rw [hfiles, List.getElem?_append] at hm
    split at hm
    · exact hw m y hm
    · rw [List.mem_singleton.mp (List.mem_of_getElem? hm)]
      exact hx hquota.2

end World

/-! ## Runs of one handle -/

/-- The next step of the thread is the first section of `acquireNewBlocks`. -/
def FileActiveStatus.isAcquiring (h : FileActiveStatus) : Bool :=
  match h.pc with
  | .acquire _ => true
  | _ => false

/-- One turn of a handle in surroundings of any kind: the configuration, the shared
memory with its counters, the manifests, the object store and the loader threads
may have changed in any way since the last turn. -/
structure Turn where
  cfg : Config
  around : World
  act : World.Action

namespace Turn

/-- The surroundings with `h` as the only handle. -/
def world (t : Turn) (h : FileActiveStatus) : World := { t.around with files := [h] }

/-- The handle after the turn. -/
def step (h : FileActiveStatus) (t : Turn) : Option FileActiveStatus :=
  (World.step t.cfg (t.world h) t.act).bind fun w => w.files[0]?

/-- The handle's own thread takes the turn. -/
def isOwn (t : Turn) : Bool :=
  match t.act with
  | .file 0 => true
  | _ => false

/-- `acquireNewBlocks` finds a quota of at least one, and no eviction of the handle
ends stolen. -/
structure Fair (h : FileActiveStatus) (t : Turn) : Prop where
  quota : h.isAcquiring = true → FileActiveStatus.IsQuota t.cfg.curQuotaSize
  notStolen : t.isOwn = true → (t.world h).endsStolen h = false

instance (h : FileActiveStatus) (t : Turn) : Decidable (t.Fair h) :=
  decidable_of_iff ((h.isAcquiring = true → FileActiveStatus.IsQuota t.cfg.curQuotaSize) ∧
      (t.isOwn = true → (t.world h).endsStolen h = false))
    ⟨fun ⟨hquota, hstolen⟩ => ⟨hquota, hstolen⟩, fun ⟨hquota, hstolen⟩ => ⟨hquota, hstolen⟩⟩

end Turn

namespace FileActiveStatus

variable {h h' : FileActiveStatus}

/-- A turn keeps the handle metered. -/
theorem Metered.turn {t : Turn} (hmetered : h.Metered) (hfair : t.Fair h)
    (hstep : Turn.step h t = some h') : h'.Metered := by
  have honly : ∀ n x, (t.world h).files[n]? = some x → n = 0 ∧ x = h := by
    intro n x hn
    cases n with
    | zero => exact ⟨rfl, (Option.some.inj hn).symm⟩
    | succ n => cases hn
  have hw : (t.world h).AllMetered := by
    intro n x hn
    rw [(honly n x hn).2]
    exact hmetered
  obtain ⟨w', hw', hh'⟩ := Option.bind_eq_some_iff.mp hstep
  have hstepped := World.step_metered hw (fun n x caller _ hn hpc => by
      rw [(honly n x hn).2] at hpc
      exact hfair.quota (by simp [isAcquiring, hpc]))
    (fun n x hact hn => by
      obtain ⟨rfl, rfl⟩ := honly n x hn
      exact hfair.notStolen (by simp [Turn.isOwn, hact])) hw'
  rcases hstepped with ⟨n, x, hfiles, hx⟩ | heq | ⟨x, hfiles, -⟩
  · rcases World.files_set_cases hfiles hh' with ⟨-, rfl⟩ | ⟨-, hsame⟩
    · exact hx
    · exact hw 0 h' hsame
  · rw [heq] at hh'
    exact hw 0 h' hh'
  · rw [hfiles] at hh'
    cases hh'
    exact hmetered

/-- The quota as it stands between two steps of a handle. -/
structure QuotaBound (h : FileActiveStatus) : Prop where
  /-- The three lists fit the capacity of the cache. -/
  bound : h.lruCache.size + h.preAllocatedBuckets.length + h.loadingBuckets.length ≤
    h.lruCache.maxSize
  /-- Whatever the new quota and the counters of the segment, the policy wraps
  nowhere, gives up blocks the cache has, asks for a bucket, and leaves a cache that
  fits the new quota. -/
  policy : ∀ newQuota numFree numUsed : UInt32, 1 ≤ newQuota.toNat →
    policyValues (acquirePolicy32 newQuota (.ofNat h.numAcquiredBuckets) numFree numUsed
        (.ofNat h.lruCache.size)) =
      acquirePolicy newQuota.toNat h.numAcquiredBuckets numFree.toNat numUsed.toNat
        h.lruCache.size ∧
    ∀ numToInactivate numToAcquire, acquirePolicy newQuota.toNat h.numAcquiredBuckets
        numFree.toNat numUsed.toNat h.lruCache.size = .ok (numToInactivate, numToAcquire) →
      numToInactivate ≤ h.lruCache.size ∧ 1 ≤ numToAcquire ∧
        ((h.lruCache.removeNumOfKeys numToInactivate).1.adjustSize newQuota.toNat).2 = []
  /-- An eviction ends only while a bucket is missing, so the count of missing
  buckets is never decremented below zero. -/
  loop : ∀ caller loop, h.pc = .evictFinish caller loop → loop.evicting = true →
    0 < loop.numToAcquire
  /-- The check after `adjustSize` passes. -/
  adjusted : ∀ cfg c, IsQuota cfg.curQuotaSize → c.self = h →
    ∀ c', acquireFirst cfg c ≠ .error overflowError c'
  /-- `put` in `extendOneBlock` drops no key. -/
  extended : h.pc = .extend → ∀ key value, (h.lruCache.put key value).2 = []
  /-- `put` in `loadBlock` drops no key. -/
  loaded : ∀ info b, (h.loadingBuckets.find? fun b => b.blockId = info) = some b →
    ∀ key value, (h.lruCache.put key value).2 = []
  /-- `put` in `activateBlock` drops no key. -/
  activated : ∀ caller, h.pc = .activate caller → ∀ cfg i c block c₁ c₂, c.self = h →
    (do catchUpManifestLogs; blockAt i : StatusM Block) c = .ok block c₁ →
    makeRoom cfg c₁ = .ok () c₂ → ∀ key value, (c₂.self.lruCache.put key value).2 = []
  /-- `activateBlock` finds a bucket to give up and a quota that was respected. -/
  activates : ∀ caller, h.pc = .activate caller → ∀ cfg i c, c.self = h →
    ∀ c', activateBlock cfg i c ≠ .error noPreAllocated c' ∧
      activateBlock cfg i c ≠ .error exceedsQuota c'

theorem toNat_ofNat_of_lt {n : Nat} (h : n < 2 ^ 32) : (UInt32.ofNat n).toNat = n :=
  UInt32.toNat_ofNat_of_lt' h

/-- A metered handle respects its quota. -/
theorem Metered.quotaBound (hmetered : h.Metered) : h.QuotaBound := by
  have hfits := hmetered.fits
  have hbound : h.lruCache.size + h.preAllocatedBuckets.length + h.loadingBuckets.length ≤
      h.lruCache.maxSize := hfits.1
  have hmachine : h.lruCache.maxSize < 2 ^ 32 := hfits.2
  have hacquired : h.numAcquiredBuckets =
      h.lruCache.size + h.preAllocatedBuckets.length + h.loadingBuckets.length := rfl
  refine ⟨hbound, fun newQuota numFree numUsed hquota => ⟨?_, fun i q hpolicy => ?_⟩, ?_, ?_,
    ?_, ?_, ?_, ?_⟩
  · have htotal : (UInt32.ofNat h.numAcquiredBuckets).toNat = h.numAcquiredBuckets :=
      toNat_ofNat_of_lt (by omega)
    have hsize : (UInt32.ofNat h.lruCache.size).toNat = h.lruCache.size :=
      toNat_ofNat_of_lt (by omega)
    rw [policyValues_acquirePolicy32 hquota, htotal, hsize]
  · obtain ⟨hinactivate, hacquire, -, hcache⟩ := acquirePolicy_bounds hquota (by omega) hpolicy
    refine ⟨hinactivate, hacquire, LRUCache.adjustSize_of_le ?_⟩
    rw [LRUCache.size_removeNumOfKeys]
    omega
  · intro caller loop hpc
    have hstaged := hmetered.staged
    rw [hpc] at hstaged
    exact hstaged.2
  · rintro cfg c hquota rfl c' hrun
    have hwithin := acquireFirst_within hquota hfits c ⟨rfl, rfl⟩
    rw [hrun] at hwithin
    exact hwithin.2.1 rfl
  · intro hpc key value
    have hstaged := hmetered.staged
    rw [hpc] at hstaged
    have hpos : 0 < h.preAllocatedBuckets.length := List.length_pos_iff.mpr hstaged
    exact LRUCache.put_of_lt (by omega) key value
  · intro info b hfind key value
    have hpos : 0 < h.loadingBuckets.length :=
      List.length_pos_of_mem (List.mem_of_find?_eq_some hfind)
    exact LRUCache.put_of_lt (by omega) key value
  · rintro caller hpc cfg i c block c₁ c₂ rfl hfirst hroom key value
    have hstaged := hmetered.staged
    rw [hpc] at hstaged
    have hholds : Holds c.self.holdings c.self.pc c₁ :=
      Spec.of_ok (Spec.bind (catchUp_frames.within hfits) fun _ => (blockAt_frames i).within hfits)
        ⟨rfl, rfl⟩ hfirst
    obtain ⟨y, hy, hheld⟩ := Spec.of_ok (makeRoom_within cfg hfits hstaged) hholds hroom
    have hroom : c₂.self.holdings.Fits 1 := hheld.1 ▸ hy
    have hone : c₂.self.lruCache.size + c₂.self.preAllocatedBuckets.length +
        c₂.self.loadingBuckets.length + 1 ≤ c₂.self.lruCache.maxSize := hroom.1
    exact LRUCache.put_of_lt (by omega) key value
  · rintro caller hpc cfg i c rfl c'
    have hstaged := hmetered.staged
    rw [hpc] at hstaged
    have hwithin := activateBlock_within cfg i hfits hstaged c ⟨rfl, rfl⟩
    constructor
    · intro hrun
      rw [hrun] at hwithin
      exact hwithin.2.2.1 rfl
    · intro hrun
      rw [hrun] at hwithin
      exact hwithin.2.2.2 rfl

/-- Quota bound. Over every run of a handle, from its construction on, in
surroundings of any kind, the quota stands as `QuotaBound` says. -/
theorem quota_bound {cfg : Config} {around : World} {fileId : FileId} {isCreate isSequence : Bool}
    {type : ActiveStatusType} {pid : Nat} {h₀ : FileActiveStatus}
    (hquota : cfg.curQuotaSize < 2 ^ 32)
    (hopen : (around.openFile cfg fileId isCreate isSequence type pid).files = around.files ++ [h₀])
    (hrun : Run Turn.step (fun h t => t.Fair h) h₀ h) : h.QuotaBound := by
  have hmetered : h.Metered := hrun.induct (World.metered_of_openFile hquota hopen)
    fun _ _ _ hm hfair hstep => hm.turn hfair hstep
  exact hmetered.quotaBound

/-- The turns that a list of actions gives the only handle of a world. -/
def turnsAlong (cfg : Config) : World → List World.Action → List Turn
  | _, [] => []
  | w, act :: rest => ⟨cfg, w, act⟩ ::
      match World.step cfg w act with
      | some w' => turnsAlong cfg w' rest
      | none => []

/-- A writer that has to evict its own blocks to stay within its quota. -/
theorem quota_bound_filling :
    ∃ h₀ h, ((World.init World.tightConfig).openFile World.tightConfig (World.makeFileId 7) true
        false .writeFile 1).files = (World.init World.tightConfig).files ++ [h₀] ∧
      Run Turn.step (fun h t => t.Fair h) h₀ h ∧ h.lruCache.size = 1 ∧ h.QuotaBound := by
  let w₀ := (World.init World.tightConfig).openFile World.tightConfig (World.makeFileId 7) true
    false .writeFile 1
  have hrun : (w₀.files.head?.any fun h₀ =>
      (execute Turn.step (fun h t => t.Fair h) h₀ (turnsAlong World.tightConfig w₀
        World.fillingThree.tail)).any fun h => decide (h.lruCache.size = 1)) = true := by
    decide +kernel
  obtain ⟨h₀, hh₀, hrun⟩ := (Option.any_eq_true _ _).mp hrun
  obtain ⟨h, hh, hsize⟩ := (Option.any_eq_true _ _).mp hrun
  have hopen : w₀.files = (World.init World.tightConfig).files ++ [h₀] := by
    cases hh₀
    rfl
  have hreached := Run.of_execute hh
  exact ⟨h₀, h, hopen, hreached, of_decide_eq_true hsize,
    quota_bound (by decide) hopen hreached⟩

end FileActiveStatus

end Gopherwood
