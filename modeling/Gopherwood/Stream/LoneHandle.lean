/-
# Handles opened one at a time

While no handle is opened before the others are closed, the only open handle is
inside its file: in every run, whatever admins and the loader threads of closed
handles do next to it.
-/

import Gopherwood.Coherence.Turns
import Gopherwood.Journal.Writers
import Gopherwood.Stream.EndOfFile

namespace Gopherwood

open Library (Keeps Spec Run)

namespace FileActiveStatus

variable {h : FileActiveStatus}

/-! ## The thread inside getCurBlockInfo -/

theorem leaveAdjust_looks (h : FileActiveStatus) : h.leaveAdjust.pc.inGetCurBlockInfo = true := by
  unfold leaveAdjust
  dsimp only
  split
  · rfl
  · rfl

theorem enter_looks (caller : Caller) (h : FileActiveStatus) :
    (h.enter caller).pc.inGetCurBlockInfo = true := by
  unfold enter
  dsimp only
  split
  · rfl
  · cases caller with
    | extend => rfl
    | preActivate counter num => rfl
    | wait => rfl

theorem preActivate_looks (num fuel counter : Nat) (h : FileActiveStatus) :
    (h.preActivate num fuel counter).pc.inGetCurBlockInfo = true := by
  rcases World.preActivate_cases num fuel counter h with heq | ⟨next, -, heq⟩
  · rw [heq]
    exact leaveAdjust_looks h
  · rw [heq]
    exact enter_looks _ h

theorem afterActivate_looks (caller : Caller) (activated : Bool) (h : FileActiveStatus) :
    (afterActivate caller activated h).pc.inGetCurBlockInfo = true := by
  cases caller with
  | extend => exact leaveAdjust_looks h
  | preActivate counter num => exact preActivate_looks _ _ _ h
  | wait =>
      cases activated with
      | true => rfl
      | false => rfl

/-- The thread looks for the block of its position: only the number of that block in the
stream, the mutex and the program counter change. -/
structure LooksOn (h h' : FileActiveStatus) : Prop where
  self : h' = { h with
    loadMutex := h'.loadMutex
    pc := h'.pc
    stream := { h.stream with curBlockId := h'.stream.curBlockId } }
  pc : h'.pc.inGetCurBlockInfo = true

namespace LooksOn

variable {h' : FileActiveStatus} (hlooks : h.LooksOn h')

include hlooks

theorem pos : h'.pos = h.pos := by rw [hlooks.self]

theorem stream : h'.stream = { h.stream with curBlockId := h'.stream.curBlockId } := by
  rw [hlooks.self]

theorem inFile {d : ManifestFolder} (hh : h.InFile d) : h'.InFile d :=
  hh.of_same (by rw [hlooks.self]) hlooks.pos (by rw [hlooks.self]) (by rw [hlooks.self])

end LooksOn

theorem adjustActiveBlock_looksOn (cfg : Config) (h : FileActiveStatus) :
    h.LooksOn (h.adjustActiveBlock cfg) := by
  unfold adjustActiveBlock
  dsimp only
  split
  · exact ⟨rfl, enter_looks _ _⟩
  · refine ⟨?_, preActivate_looks _ _ _ _⟩
    rw [(World.preActivate_self _ _ _ _).1]

theorem waitActive_looksOn (hpc : h.pc = .wait) : h.LooksOn h.waitActive := by
  unfold waitActive
  split
  · exact ⟨rfl, rfl⟩
  · split
    · exact ⟨rfl, enter_looks _ _⟩
    · refine ⟨rfl, ?_⟩
      rw [hpc]
      rfl

theorem leaveAdjust_looksOn (h : FileActiveStatus) : h.LooksOn h.leaveAdjust :=
  ⟨rfl, leaveAdjust_looks h⟩

theorem afterActivate_looksOn (caller : Caller) (activated : Bool) (h : FileActiveStatus) :
    h.LooksOn (afterActivate caller activated h) := by
  refine ⟨?_, afterActivate_looks _ _ _⟩
  rw [(World.afterActivate_self caller activated h).1]

end FileActiveStatus

namespace World

variable {cfg : Config} {w w' : World} {n : Nat} {h h' : FileActiveStatus} {act : Action}

/-- A step of the thread inside `getCurBlockInfo`. -/
inductive LooksUp (cfg : Config) (n : Nat) (w : World) (h : FileActiveStatus) (w' : World)
    (h' : FileActiveStatus) : Prop
  | goesOn (hhistory : w'.history = w.history) (hpos : h'.pos = h.pos)
      (hstream : h'.stream = { h.stream with curBlockId := h'.stream.curBlockId })
      (hpc : h'.pc.inGetCurBlockInfo = true)
  | found (info : BlockInfo) (hhistory : w'.history = w.history) (hpos : h'.pos = h.pos)
      (hoffset : info.offset = (h.pos % cfg.localBucketSize : Nat))
      (hstream : h'.stream = { h.stream with needUpdate := false, pos := h.pos, blockInfo := info })
      (hpc : h'.pc = .transfer)
  | throws (e : GwError) (hpc : h'.pc = .idle)
      (hhistory : w'.history = w.history ++ [⟨n, some h.stream.call, .threw e⟩])

/-- The handle after the step is inside its file. -/
def LooksInside (cfg : Config) (n : Nat) (w : World) (h : FileActiveStatus) (w' : World) : Prop :=
  ∃ h', w'.files = w.files.set n h' ∧ h'.InFile w'.folder ∧ LooksUp cfg n w h w' h'

/-- Thread-local work. -/
theorem LooksInside.of_looksOn (hin : h.InFile w.folder) (hlooks : h.LooksOn h') :
    LooksInside cfg n w h (w.setFile n h') :=
  ⟨h', rfl, hlooks.inFile hin, .goesOn rfl hlooks.pos hlooks.stream hlooks.pc⟩

/-- A critical section, after which the thread looks on. -/
theorem LooksInside.of_section {α : Type} {prog : StatusM α} {next : α → World → World}
    (hin : h.InFile w.folder) (hinside : Keeps Ctx.Inside prog)
    (hself : ∀ a c, prog (w.ctx h) = .ok a c → c.self.pos = h.pos ∧ c.self.stream = h.stream)
    (hnext : ∀ (a : α) (c : Ctx) (w₁ : World), prog (w.ctx h) = .ok a c →
      w₁.files = w.files.set n c.self → ∃ h', (next a w₁).files = w.files.set n h' ∧
        (next a w₁).folder = w₁.folder ∧ (next a w₁).history = w₁.history ∧ c.self.LooksOn h') :
    LooksInside cfg n w h (w.runFile n h (some h.stream.call) prog next) := by
  rcases w.runFile_cases n h (some h.stream.call) prog next with
    ⟨a, c, hrun, heq⟩ | ⟨e, c, hrun, heq⟩
  · rw [heq]
    let w₁ : World := { w.setFile n c.self with shm := c.shm, folder := c.folder, oss := c.oss }
    have hc : c.self.InFile c.folder := hinside.ok (s := w.ctx h) hin hrun
    obtain ⟨hpos, hstream⟩ := hself a c hrun
    obtain ⟨h', hfiles, hfolder, hhistory, hlooks⟩ := hnext a c w₁ hrun rfl
    refine ⟨h', hfiles, ?_, .goesOn hhistory (hlooks.pos.trans hpos) ?_ hlooks.pc⟩
    · rw [show (next a w₁).folder = c.folder from hfolder]
      exact hlooks.inFile hc
    · rw [← hstream]
      exact hlooks.stream
  · rw [heq]
    have hc : c.self.InFile c.folder := hinside.error (s := w.ctx h) hin hrun
    exact ⟨_, rfl, hc.of_same rfl rfl rfl rfl, .throws e rfl rfl⟩

/-- The sections of `acquireNewBlocks`. -/
theorem LooksInside.of_round {caller : Caller} {prog : StatusM EvictLoop}
    (hin : h.InFile w.folder) (hinside : Keeps Ctx.Inside prog)
    (hthread : ∀ t, Keeps (FileActiveStatus.OnThread t) prog) :
    LooksInside cfg n w h (w.runFile n h (some h.stream.call)
      (do FileActiveStatus.afterEvictRound caller (← prog)) fun _ w => w) := by
  have hround : ∀ {u : Unit} {c : Ctx},
      (do FileActiveStatus.afterEvictRound caller (← prog) : StatusM Unit) (w.ctx h) = .ok u c →
      c.self.pos = h.pos ∧ c.self.stream = h.stream ∧ c.self.pc.inGetCurBlockInfo = true := by
    intro u c hrun
    obtain ⟨loop, c₁, hprog, hrun⟩ := Library.bind_ok hrun
    obtain ⟨heq, hpc⟩ := afterEvictRound_ok hrun
    have ht : c₁.self.thread = h.thread := (hthread h.thread).ok (s := w.ctx h) rfl hprog
    refine ⟨?_, ?_, ?_⟩
    · rw [heq]
      exact congrArg Thread.pos ht
    · rw [heq]
      exact congrArg Thread.stream ht
    · rcases hpc with ⟨-, hpc⟩ | ⟨-, hpc | hpc⟩
      · rw [hpc]
        rfl
      · rw [hpc]
        rfl
      · rw [hpc]
        cases caller with
        | extend => rfl
        | preActivate counter num => rfl
        | wait => rfl
  refine .of_section hin (Keeps.bind hinside fun loop =>
    FileActiveStatus.afterEvictRound_inside caller loop) (fun u c hrun => ?_)
    fun u c w₁ hrun hfiles => ⟨c.self, hfiles, rfl, rfl, rfl, (hround hrun).2.2⟩
  exact ⟨(hround hrun).1, (hround hrun).2.1⟩

/-- Every step of the thread inside `getCurBlockInfo`. -/
theorem stepFile_looks (hin : h.InFile w.folder) (hpc : h.pc.inGetCurBlockInfo = true)
    (hstep : w.stepFile cfg n h = some w') : LooksInside cfg n w h w' := by
  have hsame : ∀ {α : Type} {prog : StatusM α},
      (∀ t, Keeps (FileActiveStatus.OnThread t) prog) →
      ∀ a c, prog (w.ctx h) = .ok a c → c.self.pos = h.pos ∧ c.self.stream = h.stream := by
    intro α prog hthread a c hrun
    have ht : c.self.thread = h.thread := (hthread h.thread).ok (s := w.ctx h) rfl hrun
    exact ⟨congrArg Thread.pos ht, congrArg Thread.stream ht⟩
  unfold stepFile at hstep
  cases hat : h.pc with
  | adjust =>
      simp only [hat] at hstep
      split at hstep
      · cases hstep
      · cases hstep
        exact .of_looksOn hin (FileActiveStatus.adjustActiveBlock_looksOn cfg h)
  | acquire caller =>
      simp only [hat, Option.some.injEq] at hstep
      subst hstep
      exact .of_round hin (FileActiveStatus.acquireFirst_inside cfg) fun _ =>
        FileActiveStatus.acquireFirst_thread cfg
  | evictRead caller loop =>
      simp only [hat, Option.some.injEq] at hstep
      subst hstep
      split
      · exact .of_looksOn hin ⟨rfl, rfl⟩
      · exact ⟨_, rfl, hin.of_same rfl rfl rfl rfl, .throws _ rfl rfl⟩
  | evictPut caller loop buffer =>
      simp only [hat, Option.some.injEq] at hstep
      subst hstep
      exact ⟨_, rfl, hin.of_same rfl rfl rfl rfl, .goesOn rfl rfl rfl rfl⟩
  | evictFinish caller loop =>
      simp only [hat, Option.some.injEq] at hstep
      subst hstep
      exact .of_round hin (FileActiveStatus.acquireNext_inside loop) fun _ =>
        FileActiveStatus.acquireNext_thread loop
  | extend =>
      simp only [hat, Option.some.injEq] at hstep
      subst hstep
      refine .of_section hin FileActiveStatus.extendOneBlock_inside
        (hsame fun _ => FileActiveStatus.extendOneBlock_thread) fun u c w₁ _ hfiles => ?_
      refine ⟨_, ?_, rfl, rfl, FileActiveStatus.leaveAdjust_looksOn c.self⟩
      exact (congrArg (List.modify · n _) hfiles).trans (modify_set_files _ _ _ _)
  | activate caller =>
      simp only [hat, Option.some.injEq] at hstep
      subst hstep
      refine .of_section hin (FileActiveStatus.activateBlock_inside cfg _)
        (hsame fun _ => FileActiveStatus.activateBlock_thread cfg _) fun result c w₁ _ hfiles => ?_
      have hlocal := enqueue_local n n
        (w₁.mapFile n (FileActiveStatus.afterActivate caller (isActivated result))) result
      refine ⟨_, ?_, hlocal.folder, ?_, FileActiveStatus.afterActivate_looksOn caller
        (isActivated result) c.self⟩
      · rw [enqueue_files]
        exact (congrArg (List.modify · n _) hfiles).trans (modify_set_files _ _ _ _)
      · cases result with
        | _ => rfl
  | wait =>
      simp only [hat] at hstep
      split at hstep
      · cases hstep
      · cases hstep
        exact .of_looksOn hin (FileActiveStatus.waitActive_looksOn hat)
  | ready =>
      simp only [hat, Option.some.injEq] at hstep
      subst hstep
      rcases w.runFile_cases n h (some h.stream.call) (FileActiveStatus.getCurBlockInfo cfg)
        fun _ w => w with ⟨a, c, hrun, heq⟩ | ⟨e, c, hrun, heq⟩
      · rw [heq]
        have hc : c.self.InFile c.folder :=
          (FileActiveStatus.getCurBlockInfo_inside cfg).ok (s := w.ctx h) hin hrun
        refine ⟨c.self, rfl, hc, ?_⟩
        obtain ⟨c₀, c₁, hget, hrun⟩ := Library.bind_ok hrun
        cases hget
        obtain ⟨block, c₁, hblock, hrun⟩ := Library.bind_ok hrun
        obtain ⟨rfl, -⟩ := FileActiveStatus.blockAt_ok hblock
        obtain rfl := FileActiveStatus.modifySelf_ok hrun
        exact .found _ rfl rfl rfl rfl rfl
      · rw [heq]
        have hc : c.self.InFile c.folder :=
          (FileActiveStatus.getCurBlockInfo_inside cfg).error (s := w.ctx h) hin hrun
        exact ⟨_, rfl, hc.of_same rfl rfl rfl rfl, .throws e rfl rfl⟩
  | _ =>
      rw [hat] at hpc
      cases hpc

/-! ## The open handle -/

/-- A handle that is opening its file has no slot yet, and is at position 0. -/
structure SoundAt (d : ManifestFolder) (h : FileActiveStatus) : Prop where
  inFile : h.InFile d
  opening : h.pc.isOpening = true → h.activeId = none ∧ h.pos = 0

theorem SoundAt.of_pc {d : ManifestFolder} (hin : h.InFile d) (hpc : h.pc.isOpening = false) :
    SoundAt d h :=
  ⟨hin, fun hopening => (Bool.false_ne_true (hpc.symm.trans hopening)).elim⟩

theorem looks_isOpening {pc : Pc} (hpc : pc.inGetCurBlockInfo = true) : pc.isOpening = false := by
  cases pc with
  | openManifest => cases hpc
  | regist => cases hpc
  | _ => rfl

/-- A transfer moves the stream only. -/
theorem transferChunk_self {space space' : List UInt8}
    (hrun : h.transferChunk cfg space = .ok (h', space')) :
    h' = { h with stream := h'.stream, pc := h'.pc } := by
  unfold FileActiveStatus.transferChunk at hrun
  dsimp only at hrun
  split at hrun
  · cases hrun
    rfl
  · split at hrun
    · split at hrun
      · cases hrun
      · cases hrun
        rfl
    · cases hrun
  · split at hrun
    · cases hrun
      rfl
    · cases hrun

/-- A critical section of a handle, and the update in place that follows it. -/
theorem soundAt_of_section {α : Type} {prog : StatusM α} {call : Option Call}
    {next : α → World → World} (hin : h.InFile w.folder) (hinside : Keeps Ctx.Inside prog)
    (hnext : ∀ (a : α) (c : Ctx) (w₁ : World), prog (w.ctx h) = .ok a c →
      w₁.files = w.files.set n c.self → c.self.InFile w₁.folder →
        ∃ h', (next a w₁).files = w.files.set n h' ∧ SoundAt (next a w₁).folder h') :
    ∃ h', (w.runFile n h call prog next).files = w.files.set n h' ∧
      SoundAt (w.runFile n h call prog next).folder h' := by
  rcases w.runFile_cases n h call prog next with ⟨a, c, hrun, heq⟩ | ⟨e, c, hrun, heq⟩
  · rw [heq]
    exact hnext a c _ hrun rfl (hinside.ok (s := w.ctx h) hin hrun)
  · rw [heq]
    have hc : c.self.InFile c.folder := hinside.error (s := w.ctx h) hin hrun
    exact ⟨_, rfl, .of_pc (hc.of_same rfl rfl rfl rfl) rfl⟩

theorem advance_pc {count : Nat} {c c' : Ctx} {u : Unit}
    (hrun : FileActiveStatus.advance cfg count c = .ok u c') : c'.self.pc = c'.self.streamPc := by
  obtain ⟨_, c₁, _, hrun⟩ := Library.bind_ok hrun
  obtain ⟨_, c₂, _, hrun⟩ := Library.bind_ok hrun
  obtain ⟨_, c₃, _, hrun⟩ := Library.bind_ok hrun
  cases hrun
  rfl

/-- Every step of the thread. -/
theorem stepFile_soundAt (hsound : SoundAt w.folder h) (hstep : w.stepFile cfg n h = some w') :
    ∃ h', w'.files = w.files.set n h' ∧ SoundAt w'.folder h' := by
  by_cases hlooks : h.pc.inGetCurBlockInfo = true
  · obtain ⟨h', hfiles, hin, hstep⟩ := stepFile_looks hsound.inFile hlooks hstep
    refine ⟨h', hfiles, .of_pc hin ?_⟩
    cases hstep with
    | goesOn _ _ _ hpc => exact looks_isOpening hpc
    | found _ _ _ _ _ hpc =>
        rw [hpc]
        rfl
    | throws _ hpc _ =>
        rw [hpc]
        rfl
  have hin := hsound.inFile
  unfold stepFile at hstep
  cases hat : h.pc with
  | openManifest =>
      obtain ⟨hnone, hpos⟩ := hsound.opening (by rw [hat]; rfl)
      simp only [hat, Option.some.injEq] at hstep
      subst hstep
      exact ⟨_, rfl, fun hactive => absurd hnone hactive, fun _ => ⟨hnone, hpos⟩⟩
  | regist =>
      obtain ⟨hnone, hpos⟩ := hsound.opening (by rw [hat]; rfl)
      have hspec := FileActiveStatus.registInSharedMem_inside (c := w.ctx h) hnone hpos
      simp only [hat, Option.some.injEq] at hstep
      subst hstep
      rw [show (⟨w.shm, w.folder, w.oss, h⟩ : Ctx) = w.ctx h from rfl]
      cases hrun : FileActiveStatus.registInSharedMem (w.ctx h) with
      | ok u c =>
          have hc : c.self.InFile c.folder := hspec.of_ok rfl hrun
          dsimp only
          split
          · exact ⟨_, rfl, .of_pc (hc.of_same rfl rfl rfl rfl) rfl⟩
          · exact ⟨_, rfl, .of_pc (hc.of_same rfl rfl rfl rfl) rfl⟩
      | error e c =>
          have hc : c.self.InFile c.folder := hspec.of_error rfl hrun
          exact ⟨_, rfl, .of_pc (hc.of_same rfl rfl rfl rfl) rfl⟩
  | transfer =>
      simp only [hat, Option.some.injEq] at hstep
      subst hstep
      split
      · next x space hrun =>
          obtain ⟨count, hpc⟩ := FileActiveStatus.transferChunk_pc hrun
          have hself := transferChunk_self hrun
          refine ⟨x, rfl, .of_pc (hin.of_same ?_ ?_ ?_ ?_) (by rw [hpc]; rfl)⟩
          all_goals rw [hself]
      · exact ⟨_, rfl, .of_pc (hin.of_same rfl rfl rfl rfl) rfl⟩
  | advance count =>
      simp only [hat, Option.some.injEq] at hstep
      subst hstep
      refine soundAt_of_section hin (FileActiveStatus.advance_inside cfg count)
        fun u c w₁ hrun hfiles hc => ⟨c.self, (settle_files _ _).trans hfiles, ?_⟩
      rw [(settle_local n n w₁).folder]
      refine .of_pc hc ?_
      rw [advance_pc hrun]
      exact FileActiveStatus.streamPc_isOpening _
  | flush =>
      simp only [hat, Option.some.injEq] at hstep
      subst hstep
      refine soundAt_of_section hin (FileActiveStatus.flush_inside cfg)
        fun u c w₁ _ hfiles hc => ⟨{ c.self with pc := .idle }, ?_, ?_⟩
      · exact (congrArg (List.modify · n _) hfiles).trans (modify_set_files _ _ _ _)
      · exact .of_pc (hc.of_same rfl rfl rfl rfl) rfl
  | close isCancel =>
      simp only [hat, Option.some.injEq] at hstep
      subst hstep
      refine soundAt_of_section hin (FileActiveStatus.close_inside cfg isCancel)
        fun remote c w₁ _ hfiles hc => ⟨{ c.self with pc := .deleteRemote isCancel remote }, ?_, ?_⟩
      · exact (congrArg (List.modify · n _) hfiles).trans (modify_set_files _ _ _ _)
      · exact .of_pc (hc.of_same rfl rfl rfl rfl) rfl
  | deleteRemote isCancel blocks =>
      simp only [hat, Option.some.injEq] at hstep
      subst hstep
      cases blocks with
      | nil => exact ⟨_, rfl, .of_pc (hin.of_same rfl rfl rfl rfl) rfl⟩
      | cons block rest => exact ⟨_, rfl, .of_pc (hin.of_same rfl rfl rfl rfl) rfl⟩
  | idle =>
      rw [hat] at hstep
      cases hstep
  | closed =>
      rw [hat] at hstep
      cases hstep
  | _ => exact absurd (by rw [hat]; rfl) hlooks

/-- A handle goes to a position within its file. -/
theorem inFile_moveTo {d : ManifestFolder} {pos : Nat} (hin : h.InFile d) (hpos : pos ≤ h.eof) :
    FileActiveStatus.InFile { h with pos := pos } d :=
  fun hactive => ⟨hpos, (hin hactive).silent⟩

/-- A call is started. -/
theorem startCall_soundAt (hin : h.InFile w.folder) (hpc : h.pc = .idle) (call : Call) :
    ∃ h', (w.startCall n h call).files = w.files.set n h' ∧ SoundAt w.folder h' := by
  have hraise : ∀ call e, ∃ h', (w.raise n h call e).files = w.files.set n h' ∧
      SoundAt w.folder h' := fun call e => ⟨_, rfl, .of_pc (hin.of_same rfl rfl rfl rfl) rfl⟩
  have hstream : ∀ (x : FileActiveStatus) (stream : Stream), x.InFile w.folder →
      ∃ h', (w.startStream n x stream).files = w.files.set n h' ∧ SoundAt w.folder h' := by
    intro x stream hx
    refine ⟨_, settle_files _ _, .of_pc (hx.of_same rfl rfl rfl rfl) ?_⟩
    exact FileActiveStatus.streamPc_isOpening _
  have hseek : ∀ target, ∃ h', (w.startSeek n h call target).files = w.files.set n h' ∧
      SoundAt w.folder h' := by
    intro target
    unfold startSeek
    split
    · next hwithin =>
        refine ⟨{ h with pos := target.toNat }, rfl, .of_pc (inFile_moveTo hin (by omega)) ?_⟩
        change h.pc.isOpening = false
        rw [hpc]
        rfl
    · split
      · split
        · exact hstream _ _ (inFile_moveTo hin (Nat.le_refl _))
        · exact hraise _ _
      · exact hraise _ _
  cases call with
  | read length => exact hstream _ _ hin
  | write buffer =>
      unfold startCall
      dsimp only
      split
      · exact hstream _ _ hin
      · exact hraise _ _
  | seekSet pos => exact hseek _
  | seekCur pos => exact hseek _
  | seekEnd pos => exact hseek _
  | flush =>
      unfold startCall
      dsimp only
      split
      · exact ⟨_, rfl, .of_pc (hin.of_same rfl rfl rfl rfl) rfl⟩
      · exact hraise _ _
  | close isCancel => exact ⟨_, rfl, .of_pc (hin.of_same rfl rfl rfl rfl) rfl⟩

/-! ## Runs -/

/-- Every handle but handle `n` is away, and handle `n` is inside its file. -/
structure Lone (n : Nat) (w : World) : Prop where
  others : ∀ (m : Nat) (x : FileActiveStatus), w.files[m]? = some x → m ≠ n → x.Away
  own : ∀ h, w.files[n]? = some h → SoundAt w.folder h

/-- The handle that is not away after a step: a new one, or the one before. -/
def working (w : World) (n : Nat) : Action → Nat
  | .openFile _ _ _ _ _ => w.files.length
  | _ => n

/-- A file is opened only while every handle is closed. -/
def OneAtATime (w : World) : Action → Prop
  | .openFile _ _ _ _ _ => ∀ h ∈ w.files, h.Away
  | _ => True

instance (w : World) : (act : Action) → Decidable (w.OneAtATime act)
  | .openFile _ _ _ _ _ => inferInstanceAs (Decidable (∀ h ∈ w.files, h.Away))
  | .call _ _ | .file _ | .failUpload _ | .load _ | .failLoad _ | .openAdmin _ | .evictBlocks _
  | .closeAdmin _ | .admin _ | .failAdminUpload _ => isTrue trivial

/-- A new handle is at position 0, and has no slot. -/
theorem openFile_new (w : World) (cfg : Config) (fileId : FileId) (isCreate isSequence : Bool)
    (type : ActiveStatusType) (pid : Nat) :
    ∃ h, (w.openFile cfg fileId isCreate isSequence type pid).files = w.files ++ [h] ∧
      h.activeId = none ∧ h.pos = 0 := by
  unfold openFile
  dsimp only
  split
  · exact ⟨_, rfl, rfl, rfl⟩
  · exact ⟨_, rfl, rfl, rfl⟩

theorem lone_init (cfg : Config) : (init cfg).Lone 0 :=
  ⟨fun m x hm => (by cases hm), fun h hn => (by cases hn)⟩

namespace Lone

/-- The lone handle takes a step. -/
theorem steps (hw : w.Lone n) (hfiles : w'.files = w.files.set n h')
    (hown : SoundAt w'.folder h') : w'.Lone n := by
  refine ⟨fun m x hm hmn => ?_, fun x hx => ?_⟩
  · rcases files_set_cases hfiles hm with ⟨rfl, -⟩ | ⟨-, hm⟩
    · exact absurd rfl hmn
    · exact hw.others m x hm hmn
  · rcases files_set_cases hfiles hx with ⟨-, rfl⟩ | ⟨hne, -⟩
    · exact hown
    · exact absurd rfl hne

/-- No handle takes a step. -/
theorem elsewhere (hw : w.Lone n) (hfiles : w'.files = w.files) (hfolder : ∀ file offset,
    (w.folder.content file).Silent offset → (w'.folder.content file).Silent offset) :
    w'.Lone n := by
  refine ⟨fun m x hm => hw.others m x (hfiles ▸ hm), fun x hx => ?_⟩
  obtain ⟨hin, hopening⟩ := hw.own x (hfiles ▸ hx)
  exact ⟨fun hactive => (hin hactive).of_same rfl (Nat.le_refl _) rfl hfolder, hopening⟩

theorem of_same (hw : w.Lone n) (hfiles : w'.files = w.files) (hfolder : w'.folder = w.folder) :
    w'.Lone n :=
  hw.elsewhere hfiles fun _ _ hsilent => hfolder ▸ hsilent

/-- A registered handle is the lone one. -/
theorem eq_of_active (hw : w.Lone n) {m : Nat} (hm : w.files[m]? = some h)
    (hactive : h.activeId ≠ none) : m = n := by
  by_contra hmn
  exact hactive (hw.others m h hm hmn).2

/-- The thread of another handle does nothing. -/
theorem stepFile_other (hw : w.Lone n) {m : Nat} (hm : w.files[m]? = some h) (hmn : m ≠ n) :
    w.stepFile cfg m h = none := by
  unfold stepFile
  rcases (hw.others m h hm hmn).1 with hpc | hpc
  · rw [hpc]
  · rw [hpc]

/-- Another handle uploads no victim. -/
theorem no_upload (hw : w.Lone n) {m : Nat} (hm : w.files[m]? = some h) (hmn : m ≠ n)
    (caller : Caller) (loop : EvictLoop) (buffer : List UInt8) :
    h.pc ≠ .evictPut caller loop buffer := by
  rcases (hw.others m h hm hmn).1 with hpc | hpc
  · rw [hpc]
    exact nofun
  · rw [hpc]
    exact nofun

/-- A handle without a slot is left as it is, but for the mutex. -/
theorem left (hw : w.Lone n) {m : Nat} (hm : w.files[m]? = some h)
    (hfiles : w'.files = w.files.set m h') (hfolder : w'.folder = w.folder)
    (hself : h' = { h with loadMutex := h'.loadMutex }) : w'.Lone n := by
  by_cases hmn : m = n
  · subst hmn
    obtain ⟨hin, hopening⟩ := hw.own h hm
    refine hw.steps hfiles ⟨?_, ?_⟩
    · rw [hfolder]
      exact hin.of_same (by rw [hself]) (by rw [hself]) (by rw [hself]) (by rw [hself])
    · rw [hself]
      exact hopening
  · refine ⟨fun k x hk hkn => ?_, fun x hx => ?_⟩
    · rcases files_set_cases hfiles hk with ⟨rfl, rfl⟩ | ⟨-, hk⟩
      · rw [hself]
        exact hw.others k h hm hmn
      · exact hw.others k x hk hkn
    · rcases files_set_cases hfiles hx with ⟨rfl, -⟩ | ⟨-, hx⟩
      · exact absurd rfl hmn
      · rw [hfolder]
        exact hw.own x hx

/-- A load ends. Loads of a handle that has been closed change nothing. -/
theorem finishLoad (hw : w.Lone n) {i m : Nat} {prog : StatusM Unit} (hprog : IsLoadEnd cfg prog)
    (hm : w.files[m]? = some h) : (w.finishLoad i m h prog).Lone n := by
  have hinside : Keeps Ctx.Inside prog := by
    rcases hprog with ⟨info, size, rfl⟩ | ⟨info, rfl⟩
    · exact FileActiveStatus.loadSucceeded_inside cfg info size
    · exact FileActiveStatus.loadFailed_inside info
  unfold World.finishLoad
  dsimp only
  rw [show (⟨w.shm, w.folder, w.oss, h⟩ : Ctx) = w.ctx h from rfl]
  by_cases hactive : h.activeId = none
  · have hkeeps : Keeps (· = w.ctx h) prog := by
      rcases hprog with ⟨info, size, rfl⟩ | ⟨info, rfl⟩
      · exact loadSucceeded_detached hactive cfg info size
      · exact loadFailed_detached hactive info
    cases hrun : prog (w.ctx h) with
    | ok u c =>
        obtain rfl : w.ctx h = c := (hkeeps.ok rfl hrun).symm
        exact hw.left hm rfl rfl rfl
    | error e c =>
        obtain rfl : w.ctx h = c := (hkeeps.error rfl hrun).symm
        exact hw.left hm rfl rfl rfl
  · obtain rfl := hw.eq_of_active hm hactive
    obtain ⟨hin, hopening⟩ := hw.own h hm
    have hpc : ∀ {c : Ctx}, c.self.thread = h.thread → c.self.pc.isOpening = false := by
      intro c ht
      rw [show c.self.pc = h.pc from congrArg Thread.pc ht]
      by_contra hopen
      exact hactive (hopening (by simpa using hopen)).1
    cases hrun : prog (w.ctx h) with
    | ok u c =>
        have ht : c.self.thread = h.thread := (hprog.thread h.thread).ok (s := w.ctx h) rfl hrun
        exact hw.steps rfl (.of_pc (hinside.ok (s := w.ctx h) hin hrun) (hpc ht))
    | error e c =>
        have ht : c.self.thread = h.thread := (hprog.thread h.thread).error (s := w.ctx h) rfl hrun
        have hc : c.self.InFile c.folder := hinside.error (s := w.ctx h) hin hrun
        exact hw.steps rfl (.of_pc (hc.of_same rfl rfl rfl rfl) (hpc ht))

/-- A step of a loader thread. -/
theorem stepLoad (hw : w.Lone n) {i : Nat} {task : LoadTask}
    (hstep : w.stepLoad cfg i task = some w') : w'.Lone n := by
  rcases stepLoad_cases hstep with ⟨hfiles, hfolder, -⟩ | ⟨h, prog, hprog, hm, -, rfl⟩
  · exact hw.of_same hfiles hfolder
  · exact hw.finishLoad hprog hm

/-- An admin writes records of evictions only. -/
theorem stepAdmin (hw : w.Lone n) {m : Nat} {a : AdminActiveStatus}
    (hstep : w.stepAdmin cfg m a = some w') : w'.Lone n := by
  refine hw.elsewhere (stepAdmin_step hstep).files fun file offset hsilent => ?_
  rcases stepAdmin_folder hstep with hfolder | ⟨info, hfolder⟩
  · rw [hfolder]
    exact hsilent
  · rw [hfolder]
    unfold adminLogEvict
    cases w.folder.links info.fileId with
    | none => exact hsilent
    | some k => exact ManifestFolder.silent_append hsilent k rfl

end Lone

/-- What one step keeps. -/
theorem Lone.step (hw : w.Lone n) (hcond : w.OneAtATime act)
    (hstep : World.step cfg w act = some w') : w'.Lone (w.working n act) := by
  cases act with
  | openFile hashcode isCreate isSequence type pid =>
      cases hstep
      obtain ⟨h, hfiles, hnone, hpos⟩ := w.openFile_new cfg (makeFileId hashcode) isCreate
        isSequence type pid
      refine ⟨fun m x hm hmn => ?_, fun x hx => ?_⟩
      · have hlast : m ≠ w.files.length := hmn
        rw [hfiles] at hm
        have hlt := (List.getElem?_eq_some_iff.mp hm).1
        rw [List.length_append, List.length_singleton] at hlt
        rw [List.getElem?_append_left (by omega)] at hm
        exact hcond x (List.mem_of_getElem? hm)
      · rw [hfiles, show w.working n _ = w.files.length from rfl, List.getElem?_concat_length] at hx
        obtain rfl := Option.some.inj hx
        exact ⟨fun hactive => absurd hnone hactive, fun _ => ⟨hnone, hpos⟩⟩
  | call m call =>
      simp only [World.step] at hstep
      split at hstep
      · next h hm =>
          split at hstep
          · next a hpc ha =>
              cases hstep
              obtain rfl := hw.eq_of_active hm (by rw [ha]; exact Option.some_ne_none a)
              obtain ⟨h', hfiles, hown⟩ := startCall_soundAt (hw.own h hm).inFile hpc call
              refine hw.steps hfiles ?_
              rw [(startCall_local hm call).folder]
              exact hown
          · cases hstep
      · cases hstep
  | file m =>
      simp only [World.step] at hstep
      split at hstep
      · next h hm =>
          by_cases hmn : m = n
          · subst hmn
            obtain ⟨h', hfiles, hown⟩ := stepFile_soundAt (hw.own h hm) hstep
            exact hw.steps hfiles hown
          · rw [hw.stepFile_other hm hmn] at hstep
            cases hstep
      · cases hstep
  | failUpload m =>
      simp only [World.step] at hstep
      split at hstep
      · next h hm =>
          split at hstep
          · next hpc =>
              cases hstep
              by_cases hmn : m = n
              · subst hmn
                exact hw.steps rfl (.of_pc ((hw.own h hm).inFile.of_same rfl rfl rfl rfl) rfl)
              · exact absurd hpc (hw.no_upload hm hmn _ _ _)
          · cases hstep
      · cases hstep
  | load i =>
      simp only [World.step] at hstep
      split at hstep
      · exact hw.stepLoad hstep
      · cases hstep
  | failLoad i =>
      simp only [World.step] at hstep
      split at hstep
      · unfold failLoad at hstep
        split at hstep
        · cases hstep
          exact hw.of_same rfl rfl
        · cases hstep
          exact hw.of_same rfl rfl
        · cases hstep
      · cases hstep
  | openAdmin pid =>
      cases hstep
      exact hw.of_same rfl rfl
  | admin m =>
      simp only [World.step] at hstep
      split at hstep
      · exact hw.stepAdmin hstep
      · cases hstep
  | evictBlocks m | closeAdmin m | failAdminUpload m =>
      simp only [World.step] at hstep
      split at hstep
      · split at hstep
        · cases hstep
          exact hw.of_same rfl rfl
        · cases hstep
      · cases hstep

/-- In every run in which the handles are open one at a time, the open one is inside its file. -/
theorem lone_of_run (hrun : Run (World.step cfg) OneAtATime (init cfg) w) : ∃ n, w.Lone n := by
  refine @Run.induct _ _ _ _ _ _ (fun w => ∃ n, w.Lone n) hrun ⟨0, lone_init cfg⟩ ?_
  rintro w act w' ⟨n, hw⟩ hcond hstep
  exact ⟨_, hw.step hcond hstep⟩

end World

end Gopherwood
