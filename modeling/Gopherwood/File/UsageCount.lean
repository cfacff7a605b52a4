/-
# Usage counts

`getCurBlockInfo` counts the accesses to a block, and an inactivation adds the count of the
block to that of its bucket. Both are `int16_t`. In a run in which no addition passes the
largest one, no count of a block or of a bucket is ever negative. Nothing bounds the number
of accesses, so a run of reads makes a count negative.
-/

import Gopherwood.File.CountSections

namespace Gopherwood

open Library (Keeps Spec Run execute anyStep)

namespace World

/-- No count of the world is negative, nor one that is written in a manifest. -/
structure Counted (w : World) : Prop where
  shm : w.shm.Counted
  folder : w.folder.Counted
  files : w.Every FileActiveStatus.Counted

/-- No addition of the step passes the largest `int16_t`: neither the access of a handle to
its current block, nor the inactivation of blocks. -/
def CountsFit (cfg : Config) (w : World) : Action → Prop
  | .file n => ∀ h ∈ w.files[n]?, h.CanCount ∧
      FileActiveStatus.Fits (Library.after FileActiveStatus.catchUpManifestLogs (w.ctx h))
        (h.leavingKeys cfg (Library.after FileActiveStatus.catchUpManifestLogs (w.ctx h)))
  | _ => True

instance (cfg : Config) (w : World) (act : Action) : Decidable (CountsFit cfg w act) :=
  match act with
  | .file n => inferInstanceAs (Decidable (∀ h ∈ w.files[n]?, h.CanCount ∧
      FileActiveStatus.Fits (Library.after FileActiveStatus.catchUpManifestLogs (w.ctx h))
        (h.leavingKeys cfg (Library.after FileActiveStatus.catchUpManifestLogs (w.ctx h)))))
  | .openFile _ _ _ _ _ | .call _ _ | .failUpload _ | .load _ | .failLoad _ | .openAdmin _
  | .evictBlocks _ | .closeAdmin _ | .admin _ | .failAdminUpload _ => isTrue trivial

variable {cfg : Config} {w w' : World} {n : Nat} {h : FileActiveStatus} {c : Ctx} {act : Action}

theorem counted_init (cfg : Config) : (init cfg).Counted := by
  refine ⟨SharedMem.counted_reset cfg, ?_, ?_⟩
  · intro bytes hbytes
    cases hbytes
  · intro n h hn
    cases hn

theorem Counted.ctx (hw : w.Counted) (hn : w.files[n]? = some h) : (w.ctx h).Counted :=
  ⟨hw.shm, hw.folder, hw.files n h hn⟩

theorem Counted.of_reflects (hw : w.Counted) (hc : c.Counted) (hr : Reflects n w w' c) :
    w'.Counted := by
  obtain ⟨h', hlocal, hfiles⟩ := hr.files
  exact ⟨hr.shm ▸ hc.shm, hr.folder ▸ hc.folder, hw.files.of_set hfiles (hc.self.of_local hlocal)⟩

theorem Counted.of_local (hw : w.Counted) (hn : w.files[n]? = some h) (hlocal : Local n w w') :
    w'.Counted :=
  hw.of_reflects (hw.ctx hn) (reflects_of_local hn hlocal)

/-- A step that runs a critical section. -/
theorem Counted.runFile {α : Type} {prog : StatusM α} {call : Option Call}
    {next : α → World → World} {pre : Ctx → Prop} (hw : w.Counted) (hn : w.files[n]? = some h)
    (hprog : Spec pre prog (fun _ => Ctx.Counted) (fun _ => Ctx.Counted)) (hpre : pre (w.ctx h))
    (hnext : ∀ a w₁, Local n w₁ (next a w₁)) : (w.runFile n h call prog next).Counted := by
  obtain ⟨c, hc, hr⟩ : ∃ c : Ctx, c.Counted ∧ Reflects n w (w.runFile n h call prog next) c :=
    runFile_reflects hn (Spec.weaken_pre hprog fun _ hs => hs ▸ hpre) hnext
  exact hw.of_reflects hc hr

/-- A step of a handle. -/
theorem Counted.stepFile (hfreed : cfg.FreedIntact) (hw : w.Counted) (hn : w.files[n]? = some h)
    (hfit : CountsFit cfg w (.file n)) (hstep : w.stepFile cfg n h = some w') : w'.Counted := by
  obtain ⟨hcan, hfits⟩ := hfit h hn
  have hctx := hw.ctx hn
  unfold World.stepFile at hstep
  unfold FileActiveStatus.leavingKeys at hfits
  unfold FileActiveStatus.CanCount at hcan
  cases hpc : h.pc with
  | idle => rw [hpc] at hstep; cases hstep
  | closed => rw [hpc] at hstep; cases hstep
  | openManifest =>
      simp only [hpc, Option.some.injEq] at hstep
      subst hstep
      refine ⟨hw.shm, hw.folder.mfOpen _, hw.files.of_set rfl ?_⟩
      exact ⟨hctx.self.blocks, hctx.self.preAllocated, hctx.self.loading⟩
  | regist =>
      simp only [hpc, Option.some.injEq] at hstep
      subst hstep
      have hregist := FileActiveStatus.registInSharedMem_counted (w.ctx h) hctx
      rw [show (⟨w.shm, w.folder, w.oss, h⟩ : Ctx) = w.ctx h from rfl]
      revert hregist
      cases FileActiveStatus.registInSharedMem (w.ctx h) with
      | ok u c =>
          intro hc
          have hself : ∀ pc, FileActiveStatus.Counted { c.self with pc := pc } := fun _ =>
            ⟨hc.self.blocks, hc.self.preAllocated, hc.self.loading⟩
          dsimp only
          split
          · exact ⟨hc.shm, hc.folder, hw.files.of_set rfl (hself _)⟩
          · exact ⟨hc.shm, hc.folder, hw.files.of_set rfl (hself _)⟩
      | error e c =>
          intro hc
          exact ⟨hc.shm, hc.folder, hw.files.of_set rfl
            ⟨hc.self.blocks, hc.self.preAllocated, hc.self.loading⟩⟩
  | adjust =>
      simp only [hpc] at hstep
      split at hstep
      · cases hstep
      · cases hstep
        exact hw.of_local hn (setFile_local hn (FileActiveStatus.adjustActiveBlock_local cfg h))
  | acquire caller =>
      simp only [hpc, Option.some.injEq] at hstep hfits
      subst hstep
      refine hw.runFile hn (Spec.bind (FileActiveStatus.acquireFirst_counted cfg) fun loop =>
        FileActiveStatus.afterEvictRound_counted caller loop) ⟨hctx, hfits⟩ fun _ w₁ => .refl n w₁
  | evictRead caller loop =>
      simp only [hpc, Option.some.injEq] at hstep
      subst hstep
      cases w.evictRead cfg loop.evictBlockInfo with
      | ok buffer => exact hw.of_local hn (setFile_local hn (.of_pc rfl))
      | error e => exact hw.of_local hn (raise_local hn _ e)
  | evictPut caller loop buffer =>
      simp only [hpc, Option.some.injEq] at hstep
      subst hstep
      exact hw.of_reflects hctx ⟨rfl, rfl, rfl, _, .of_pc rfl, rfl⟩
  | evictFinish caller loop =>
      simp only [hpc, Option.some.injEq] at hstep
      subst hstep
      exact hw.runFile hn (Keeps.bind (FileActiveStatus.acquireNext_counted loop) fun loop =>
        FileActiveStatus.afterEvictRound_counted caller loop) hctx fun _ w₁ => .refl n w₁
  | extend =>
      simp only [hpc, Option.some.injEq] at hstep
      subst hstep
      exact hw.runFile hn FileActiveStatus.extendOneBlock_counted hctx
        fun _ _ => mapFile_local FileActiveStatus.leaveAdjust_local
  | activate caller =>
      simp only [hpc, Option.some.injEq] at hstep
      subst hstep
      refine hw.runFile hn (FileActiveStatus.activateBlock_counted hfreed _) ⟨hctx, ?_⟩
        fun result w₁ => ?_
      · rw [hpc] at hfits
        cases caller with
        | extend => exact hfits
        | preActivate counter numPreActivate => exact hfits
        | wait => exact hfits
      · exact Local.trans (mapFile_local fun x => FileActiveStatus.afterActivate_local caller _ x)
          (enqueue_local n n _ result)
  | wait =>
      simp only [hpc] at hstep
      split at hstep
      · cases hstep
      · cases hstep
        exact hw.of_local hn (setFile_local hn (FileActiveStatus.waitActive_local h))
  | ready =>
      simp only [hpc, Option.some.injEq] at hstep
      subst hstep
      exact hw.runFile hn (FileActiveStatus.getCurBlockInfo_counted cfg) ⟨hctx, hcan hpc⟩
        fun _ w₁ => .refl n w₁
  | transfer =>
      simp only [hpc, Option.some.injEq] at hstep
      subst hstep
      cases hrun : h.transferChunk cfg w.space with
      | ok result =>
          exact hw.of_reflects hctx
            ⟨rfl, rfl, rfl, result.1, FileActiveStatus.transferChunk_local hrun, rfl⟩
      | error e => exact hw.of_local hn (raise_local hn _ e)
  | advance count =>
      simp only [hpc, Option.some.injEq] at hstep
      subst hstep
      exact hw.runFile hn (FileActiveStatus.advance_counted cfg count) hctx
        fun _ w₁ => settle_local n n w₁
  | flush =>
      simp only [hpc, Option.some.injEq] at hstep
      subst hstep
      refine hw.runFile hn (FileActiveStatus.flush_counted cfg) hctx fun _ w₁ => ?_
      exact Local.trans (mapFile_local fun x => .of_pc rfl) (local_of_same rfl rfl rfl rfl rfl rfl)
  | close isCancel =>
      simp only [hpc, Option.some.injEq] at hstep hfits
      subst hstep
      exact hw.runFile hn (FileActiveStatus.close_counted cfg isCancel) ⟨hctx, hfits⟩
        fun _ _ => mapFile_local fun _ => .of_pc rfl
  | deleteRemote isCancel blocks =>
      simp only [hpc, Option.some.injEq] at hstep
      subst hstep
      cases blocks with
      | nil =>
          exact hw.of_local hn ((setFile_local hn (.of_pc rfl)).trans
            (local_of_same rfl rfl rfl rfl rfl rfl))
      | cons block rest => exact hw.of_reflects hctx ⟨rfl, rfl, rfl, _, .of_pc rfl, rfl⟩

/-- A step of a loader thread. -/
theorem Counted.stepLoad {i : Nat} {task : LoadTask} (hw : w.Counted)
    (hstep : w.stepLoad cfg i task = some w') : w'.Counted := by
  -- the report to the handle that started the load
  have hfinish : ∀ {h : FileActiveStatus} {prog : StatusM Unit}, w.files[task.owner]? = some h →
      Keeps Ctx.Counted prog → (w.finishLoad i task.owner h prog).Counted := by
    intro h prog hn hprog
    obtain ⟨c, h', hc, hlocal, -, hfiles, -, hshm, hfolder⟩ :=
      finishLoad_cases (w := w) (n := task.owner) (h := h) (i := i)
        (Spec.weaken_pre hprog fun _ hs => hs ▸ hw.ctx hn)
    exact ⟨hshm ▸ hc.shm, hfolder ▸ hc.folder, hw.files.of_set hfiles (hc.self.of_local hlocal)⟩
  unfold World.stepLoad at hstep
  dsimp only at hstep
  split at hstep
  · cases hstep
    split
    · exact ⟨hw.shm, hw.folder, hw.files⟩
    · exact ⟨hw.shm, hw.folder, hw.files⟩
  · split at hstep
    · cases hstep
      exact ⟨hw.shm, hw.folder, hw.files⟩
    · cases hstep
      exact ⟨hw.shm, hw.folder, hw.files⟩
  · cases hstep
    exact ⟨hw.shm, hw.folder, hw.files⟩
  · split at hstep
    · cases hstep
    · next h hn =>
        split at hstep
        · cases hstep
        · cases hstep
          exact hfinish hn (FileActiveStatus.loadSucceeded_counted cfg _ _)
  · split at hstep
    · cases hstep
    · next h hn =>
        split at hstep
        · cases hstep
        · cases hstep
          exact hfinish hn (FileActiveStatus.loadFailed_counted _)

/-- A step of an admin handle. -/
theorem Counted.stepAdmin {a : AdminActiveStatus} (hw : w.Counted)
    (hstep : w.stepAdmin cfg n a = some w') : w'.Counted := by
  -- an operation on the segment, with whatever the handle does next
  have hshm : ∀ {s : SharedMem} {w₁ : World}, s.Counted → w₁.shm = s → w₁.folder = w.folder →
      w₁.files = w.files → w₁.Counted := by
    intro s w₁ hs hshm hfolder hfiles
    exact ⟨hshm ▸ hs, hfolder ▸ hw.folder, hw.files.of_same hfiles⟩
  have hlog : ∀ {w₁ : World} (info : BlockInfo), w₁.Counted →
      (w₁.adminLogEvict n info).Counted := by
    intro w₁ info hw₁
    unfold adminLogEvict
    split
    · exact hw₁
    · refine ⟨hw₁.shm, hw₁.folder.mfWrite _ ?_, hw₁.files⟩
      intro block hblock
      obtain rfl := List.mem_singleton.mp hblock
      exact Int.le_refl 0
  unfold World.stepAdmin at hstep
  split at hstep
  · cases hstep
    have hregist := SharedMemoryContext.registAdmin_counted a.pid w.shm hw.shm
    split
    · next heq => rw [heq] at hregist; exact hshm hregist rfl rfl rfl
    · next heq => rw [heq] at hregist; exact hshm hregist rfl rfl rfl
    · next heq => rw [heq] at hregist; exact hshm hregist rfl rfl rfl
  · next activeId _ _ =>
      cases hstep
      split
      · have hmark := SharedMemoryContext.markBucketEvicting_counted activeId w.shm hw.shm
        split
        · next heq => rw [heq] at hmark; exact hshm hmark rfl rfl rfl
        · next heq => rw [heq] at hmark; exact hshm hmark rfl rfl rfl
      · split
        · exact hshm hw.shm rfl rfl rfl
        · exact hshm hw.shm rfl rfl rfl
  · cases hstep
    split
    · exact hshm hw.shm rfl rfl rfl
    · exact hshm hw.shm rfl rfl rfl
  · cases hstep
    exact hshm hw.shm rfl rfl rfl
  · next found info activeId _ _ =>
      cases hstep
      have hfree := SharedMemoryContext.evictBucketFinishAndTryFree_counted
        (info.bind BlockInfo.bucketId) activeId w.shm hw.shm
      unfold adminFinish
      dsimp only
      split
      · next heq => rw [heq] at hfree; exact hshm hfree rfl rfl rfl
      · next heq =>
          rw [heq] at hfree
          split
          · exact hshm hfree rfl rfl rfl
          · split
            · split
              · exact hlog _ (hshm hfree rfl rfl rfl)
              · exact hshm hfree rfl rfl rfl
            · exact hshm hfree rfl rfl rfl
  · next activeId _ _ =>
      cases hstep
      have hunregist := SharedMemoryContext.unregistAdmin_counted activeId a.pid w.shm hw.shm
      split
      · next heq => rw [heq] at hunregist; exact hshm hunregist rfl rfl rfl
      · next heq => rw [heq] at hunregist; exact hshm hunregist rfl rfl rfl
      · next heq => rw [heq] at hunregist; exact hshm hunregist rfl rfl rfl
  · cases hstep

/-- What one step keeps. -/
theorem Counted.step (hfreed : cfg.FreedIntact) (hw : w.Counted) (hfit : CountsFit cfg w act)
    (hstep : World.step cfg w act = some w') : w'.Counted := by
  cases act with
  | openFile hashcode isCreate isSequence type pid =>
      cases hstep
      have hnew : ∀ {x : FileActiveStatus}, x.blockArray = [] → x.preAllocatedBuckets = [] →
          x.loadingBuckets = [] → Every FileActiveStatus.Counted
          { w with files := w.files ++ [x] } := by
        intro x hblocks hpre hloading m y hm
        rcases List.mem_append.mp (List.mem_of_getElem? hm) with hy | hy
        · obtain ⟨k, hk⟩ := List.mem_iff_getElem?.mp hy
          exact hw.files k y hk
        · rw [List.mem_singleton.mp hy]
          exact ⟨hblocks ▸ tallied_nil, hpre ▸ tallied_nil, hloading ▸ tallied_nil⟩
      unfold World.openFile
      dsimp only
      split
      · exact ⟨hw.shm, hw.folder, hnew rfl rfl rfl⟩
      · exact ⟨hw.shm, hw.folder, hnew rfl rfl rfl⟩
  | call n call =>
      simp only [World.step] at hstep
      split at hstep
      · next h hn =>
          split at hstep
          · cases hstep
            exact hw.of_local hn (startCall_local hn call)
          · cases hstep
      · cases hstep
  | file n =>
      simp only [World.step] at hstep
      split at hstep
      · next h hn => exact hw.stepFile hfreed hn hfit hstep
      · cases hstep
  | failUpload n =>
      simp only [World.step] at hstep
      split at hstep
      · next h hn =>
          split at hstep
          · cases hstep
            exact hw.of_local hn (raise_local hn _ _)
          · cases hstep
      · cases hstep
  | load i =>
      simp only [World.step] at hstep
      split at hstep
      · exact hw.stepLoad hstep
      · cases hstep
  | failLoad i =>
      simp only [World.step] at hstep
      split at hstep
      · unfold World.failLoad at hstep
        split at hstep
        · cases hstep
          exact ⟨hw.shm, hw.folder, hw.files⟩
        · cases hstep
          exact ⟨hw.shm, hw.folder, hw.files⟩
        · cases hstep
      · cases hstep
  | openAdmin pid =>
      cases hstep
      exact ⟨hw.shm, hw.folder, hw.files⟩
  | evictBlocks n =>
      simp only [World.step] at hstep
      split at hstep
      · split at hstep
        · cases hstep
          exact ⟨hw.shm, hw.folder, hw.files⟩
        · cases hstep
      · cases hstep
  | closeAdmin n =>
      simp only [World.step] at hstep
      split at hstep
      · split at hstep
        · cases hstep
          exact ⟨hw.shm, hw.folder, hw.files⟩
        · cases hstep
      · cases hstep
  | admin n =>
      simp only [World.step] at hstep
      split at hstep
      · exact hw.stepAdmin hstep
      · cases hstep
  | failAdminUpload n =>
      simp only [World.step] at hstep
      split at hstep
      · split at hstep
        · cases hstep
          exact ⟨hw.shm, hw.folder, hw.files⟩
        · cases hstep
      · cases hstep

/-- No usage count is negative, of a block or of a bucket. -/
structure CountsNonneg (w : World) : Prop where
  buckets : ∀ bucket ∈ w.shm.buckets, 0 ≤ bucket.usageCount
  blocks : ∀ h ∈ w.files, ∀ block ∈ h.blockArray ++ h.preAllocatedBuckets ++ h.loadingBuckets,
    0 ≤ block.usageCount

theorem Counted.countsNonneg (hw : w.Counted) : w.CountsNonneg := by
  constructor
  · intro bucket hbucket
    exact hw.shm bucket.usageCount (List.mem_map_of_mem hbucket)
  · intro h hh block hblock
    obtain ⟨n, hn⟩ := List.mem_iff_getElem?.mp hh
    have hcounted := hw.files n h hn
    exact (hcounted.blocks.append hcounted.preAllocated).append hcounted.loading block hblock

/-- As long as no addition passes the largest `int16_t`, no count is negative, whatever the
handles, evictors and loader threads do. -/
theorem usageCounts_nonneg (cfg : Config) (w : World) (hfreed : cfg.FreedIntact)
    (hrun : Run (World.step cfg) (CountsFit cfg) (init cfg) w) : w.CountsNonneg := by
  have hcounted : w.Counted :=
    hrun.induct (counted_init cfg) fun _ _ _ hw hfit hstep => hw.step hfreed hfit hstep
  exact hcounted.countsNonneg

/-! ## Reading on and on -/

/-- A writer fills its only block and goes back to its start. -/
def onlyBlock : List Action :=
  [.openFile 7 true false .writeFile 1, .file 0, .file 0, .call 0 (.write [1])] ++
  List.replicate 6 (.file 0) ++ [.call 0 (.seekSet 0)]

/-- The only handle is at the start of its only block. -/
structure AtStart (w : World) (h : FileActiveStatus) (block : Block) : Prop where
  files : w.files = [h]
  blocks : h.blockArray = [block]
  pc : h.pc = .idle
  activeId : h.activeId = some 0
  pos : h.pos = 0
  eof : h.eof = 1
  loadMutex : h.loadMutex = false
  active : h.lruCache.contains 0 = true
  maxSize : h.lruCache.maxSize = 1
  isLocal : block.isLocal = true
  bucketId : block.bucketId = some 0
  space : w.space.length = 1

/-- The handle is about to read the byte: its access has been counted. -/
def reading (w : World) (h : FileActiveStatus) (block : Block) : World :=
  { w with files := [{ h with
    blockArray := [{ block with usageCount := wrap16 (block.usageCount + 1) }]
    stream := ⟨.read 1, .read, 1, [], [], 1, false, 0, 0,
      ⟨h.fileId, block.blockId, some 0, 0, 0, true⟩⟩
    pc := .transfer }] }

theorem AtStart.access {block : Block} (hw : w.AtStart h block) :
    execute (World.step tightConfig) anyStep w [.call 0 (.read 1), .file 0, .file 0] =
      some (w.reading h block) := by
  simp [execute, anyStep, World.step, tightConfig, Config.intact, hw.files, hw.blocks, hw.pc,
    hw.activeId, hw.pos, hw.eof, hw.loadMutex, hw.active, hw.maxSize, hw.isLocal, hw.bucketId,
    startCall, startStream, settle, setFile, World.stepFile, World.runFile, preActivateBlockNum,
    FileActiveStatus.streamPc, FileActiveStatus.adjustActiveBlock, FileActiveStatus.preActivate,
    FileActiveStatus.isMyActiveBlock, FileActiveStatus.leaveAdjust,
    FileActiveStatus.getCurBlockInfo, FileActiveStatus.blockAt, FileActiveStatus.modifySelf,
    reading]

theorem AtStart.transfer {block : Block} (hw : w.AtStart h block) : ∃ stream history,
    execute (World.step tightConfig) anyStep (w.reading h block)
        [.file 0, .file 0, .call 0 (.seekSet 0)] = some { w with
      files := [{ h with
        blockArray := [{ block with usageCount := wrap16 (block.usageCount + 1) }]
        stream := stream }]
      history := history } := by
  obtain ⟨byte, hbyte⟩ := List.length_eq_one_iff.mp hw.space
  simp [execute, anyStep, World.step, tightConfig, Config.intact, hw.activeId, hw.pc, hw.pos,
    hw.eof, hbyte, startCall, startSeek, settle, finish, setFile, World.stepFile, World.runFile, readLocal,
    FileActiveStatus.streamPc, FileActiveStatus.transferChunk, FileActiveStatus.chunk,
    FileActiveStatus.remaining, FileActiveStatus.localSpaceOffset, FileActiveStatus.advance,
    FileActiveStatus.setPosition, FileActiveStatus.modifySelf, reading]

/-- Reading the byte once more counts one access, and needs no critical section. -/
theorem AtStart.readAgain {block : Block} (hw : w.AtStart h block) :
    ∃ w' h', Run (World.step tightConfig) anyStep w w' ∧
      w'.AtStart h' { block with usageCount := wrap16 (block.usageCount + 1) } := by
  obtain ⟨stream, history, htransfer⟩ := hw.transfer
  exact ⟨_, _, (Run.of_execute hw.access).trans (Run.of_execute htransfer),
    ⟨rfl, rfl, hw.pc, hw.activeId, hw.pos, hw.eof, hw.loadMutex, hw.active, hw.maxSize, hw.isLocal,
      hw.bucketId, hw.space⟩⟩

/-- As long as the count fits, it is the number of accesses. -/
theorem AtStart.readOn {block : Block} (hw : w.AtStart h block) (hcount : 0 ≤ block.usageCount)
    (n : Nat) (hfits : block.usageCount + n < 2 ^ 15) :
    ∃ w' h', Run (World.step tightConfig) anyStep w w' ∧
      w'.AtStart h' { block with usageCount := block.usageCount + n } := by
  induction n with
  | zero =>
      refine ⟨w, h, .start, ?_⟩
      rw [Int.natCast_zero, Int.add_zero]
      exact hw
  | succ n ih =>
      obtain ⟨w₁, h₁, hrun₁, hw₁⟩ := ih (by omega)
      obtain ⟨w₂, h₂, hrun₂, hw₂⟩ := hw₁.readAgain
      refine ⟨w₂, h₂, hrun₁.trans hrun₂, ?_⟩
      have hwrap : wrap16 (block.usageCount + n + 1) = block.usageCount + (n + 1 : Nat) := by
        rw [wrap16_of_lt (by omega) (by omega)]
        omega
      exact hwrap ▸ hw₂

theorem atStart_onlyBlock : ∃ w h block, Run (World.step tightConfig) anyStep (init tightConfig) w ∧
    w.AtStart h block ∧ block.usageCount = 1 := by
  have hcheck : ((execute (World.step tightConfig) anyStep (init tightConfig) onlyBlock).any
      fun w =>
      decide (w.files.length = 1) && decide (w.space.length = 1) && w.files.all fun h =>
        decide (h.blockArray.length = 1) && decide (h.pc = .idle) && decide (h.activeId = some 0) &&
        decide (h.pos = 0) && decide (h.eof = 1) && decide (h.loadMutex = false) &&
        h.lruCache.contains 0 && decide (h.lruCache.maxSize = 1) && h.blockArray.all fun block =>
          block.isLocal && decide (block.bucketId = some 0) && decide (block.usageCount = 1)) =
      true := by
    decide +kernel
  obtain ⟨w, hw, hfacts⟩ := (Option.any_eq_true _ _).mp hcheck
  simp only [Bool.and_eq_true, decide_eq_true_eq] at hfacts
  obtain ⟨⟨hfiles, hspace⟩, hfacts⟩ := hfacts
  obtain ⟨h, hh⟩ := List.length_eq_one_iff.mp hfiles
  simp only [hh, List.all_cons, List.all_nil, Bool.and_true, Bool.and_eq_true,
    decide_eq_true_eq] at hfacts
  obtain ⟨⟨⟨⟨⟨⟨⟨⟨hblocks, hpc⟩, ha⟩, hpos⟩, heof⟩, hmutex⟩, hactive⟩, hmax⟩, hfacts⟩ := hfacts
  obtain ⟨block, hblock⟩ := List.length_eq_one_iff.mp hblocks
  simp only [hblock, List.all_cons, List.all_nil, Bool.and_true, Bool.and_eq_true,
    decide_eq_true_eq] at hfacts
  obtain ⟨⟨hlocal, hbucket⟩, hcount⟩ := hfacts
  exact ⟨w, h, block, Run.of_execute hw, ⟨hh, hblock, hpc, ha, hpos, heof, hmutex, hactive, hmax,
    hlocal, hbucket, hspace⟩, hcount⟩

end World

end Gopherwood
