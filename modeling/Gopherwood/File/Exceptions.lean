/-
# Exceptions out of adjustActiveBlock

The load mutex is locked and unlocked by hand. The handlers of the critical sections
give the shared memory lock back, but none of them unlocks the mutex: every exception
that leaves `getCurBlockInfo` leaves the mutex of the handle locked behind it.
-/

import Gopherwood.File.Handles

namespace Gopherwood

open Library (Keeps Run execute anyStep)

/-- The thread is between the `lock` and the `unlock` of `adjustActiveBlock`. -/
def Pc.holdsMutex : Pc → Bool
  | .acquire _ => true
  | .evictRead _ _ => true
  | .evictPut _ _ _ => true
  | .evictFinish _ _ => true
  | .extend => true
  | .activate _ => true
  | _ => false

/-- The thread is inside `getCurBlockInfo`. -/
def Pc.inGetCurBlockInfo : Pc → Bool
  | .adjust => true
  | .wait => true
  | .ready => true
  | pc => pc.holdsMutex

namespace FileActiveStatus

/-- The mutex is locked where the thread relies on it. -/
def Locked (h : FileActiveStatus) : Prop := h.pc.holdsMutex = true → h.loadMutex = true

variable {h : FileActiveStatus} {cfg : Config}

theorem Locked.of_pc (hpc : h.pc.holdsMutex = false) : h.Locked := by
  intro hholds
  rw [hpc] at hholds
  cases hholds

theorem Locked.of_mutex (hmutex : h.loadMutex = true) : h.Locked := fun _ => hmutex

theorem streamPc_holdsMutex (h : FileActiveStatus) : h.streamPc.holdsMutex = false := by
  unfold streamPc
  split
  · rfl
  · split
    · rfl
    · rfl

theorem leaveAdjust_locked (h : FileActiveStatus) : h.leaveAdjust.Locked := by
  apply Locked.of_pc
  unfold leaveAdjust
  dsimp only
  split
  · rfl
  · rfl

theorem preActivate_locked (hmutex : h.loadMutex = true) (numPreActivate fuel counter : Nat) :
    (preActivate numPreActivate fuel counter h).Locked := by
  induction fuel generalizing counter with
  | zero => exact leaveAdjust_locked h
  | succ fuel ih =>
      unfold preActivate
      dsimp only
      split
      · exact leaveAdjust_locked h
      · split
        · exact Locked.of_mutex hmutex
        · exact ih _

theorem adjustActiveBlock_locked (cfg : Config) (h : FileActiveStatus) :
    (h.adjustActiveBlock cfg).Locked := by
  unfold adjustActiveBlock
  dsimp only
  split
  · exact Locked.of_mutex rfl
  · exact preActivate_locked rfl _ _ _

theorem waitActive_locked (hpc : h.pc = .wait) : h.waitActive.Locked := by
  unfold waitActive
  split
  · exact Locked.of_pc rfl
  · split
    · exact Locked.of_mutex rfl
    · apply Locked.of_pc
      rw [hpc]
      rfl

theorem afterActivate_locked (hmutex : h.loadMutex = true) (caller : Caller) (activated : Bool) :
    (h.afterActivate caller activated).Locked := by
  cases caller with
  | extend => exact leaveAdjust_locked h
  | preActivate counter numPreActivate => exact preActivate_locked hmutex _ _ _
  | wait =>
      apply Locked.of_pc
      unfold afterActivate
      dsimp only
      split
      · rfl
      · rfl

/-- A section leaves the mutex as it found it. -/
theorem keeps_mutex {α : Type} {prog : StatusM α} (hprog : ∀ t, Keeps (OnThread t) prog)
    (mutex : Bool) : Keeps (fun c : Ctx => c.self.loadMutex = mutex) prog :=
  keeps_of_thread hprog fun t => t.loadMutex = mutex

theorem afterEvictRound_mutex (caller : Caller) (loop : EvictLoop) (mutex : Bool) :
    Keeps (fun c : Ctx => c.self.loadMutex = mutex) (afterEvictRound caller loop) := by
  refine Keeps.ite (Keeps.modify fun c hc => hc) ?_
  refine Keeps.bind Keeps.get fun c => Keeps.ite Keeps.throw ?_
  exact Keeps.modify fun c hc => hc

/-- Both kinds of rounds of `acquireNewBlocks`, with what follows them. -/
theorem acquireFirst_mutex (cfg : Config) (caller : Caller) (mutex : Bool) :
    Keeps (fun c : Ctx => c.self.loadMutex = mutex)
      (do afterEvictRound caller (← acquireFirst cfg)) :=
  Keeps.bind (keeps_mutex (fun _ => acquireFirst_thread cfg) mutex) fun loop =>
    afterEvictRound_mutex caller loop mutex

theorem acquireNext_mutex (caller : Caller) (loop : EvictLoop) (mutex : Bool) :
    Keeps (fun c : Ctx => c.self.loadMutex = mutex)
      (do afterEvictRound caller (← acquireNext loop)) :=
  Keeps.bind (keeps_mutex (fun _ => acquireNext_thread loop) mutex) fun loop =>
    afterEvictRound_mutex caller loop mutex

/-- After the block is active, only an index out of range is left to fail. -/
theorem getCurBlockInfo_error {c c' : Ctx} {e : GwError}
    (hrun : getCurBlockInfo cfg c = .error e c') :
    e = .undefined := by
  simp only [getCurBlockInfo, blockAt, Library.run_bind, Library.run_get] at hrun
  cases hblock : c.self.blockArray[c.self.stream.curBlockId]? with
  | none =>
      rw [hblock] at hrun
      cases hrun
      rfl
  | some block =>
      rw [hblock] at hrun
      cases hrun

/-- A transfer is followed by the update of the position. -/
theorem transferChunk_pc {h' : FileActiveStatus} {space space' : List UInt8}
    (hrun : h.transferChunk cfg space = .ok (h', space')) : ∃ count, h'.pc = .advance count := by
  unfold transferChunk at hrun
  dsimp only at hrun
  split at hrun
  · cases hrun
    exact ⟨_, rfl⟩
  · split at hrun
    · split at hrun
      · cases hrun
      · cases hrun
        exact ⟨_, rfl⟩
    · cases hrun
  · split at hrun
    · cases hrun
      exact ⟨_, rfl⟩
    · cases hrun

/-- A list of the handle names the bucket. -/
def Lists (h : FileActiveStatus) (b : Nat) : Prop :=
  (∃ key, (key, some b) ∈ h.lruCache.items) ∨ some b ∈ h.preAllocatedBuckets.map Block.bucketId ∨
    some b ∈ h.loadingBuckets.map Block.bucketId

end FileActiveStatus

namespace World

variable {cfg : Config} {w w' : World} {n : Nat} {h : FileActiveStatus}

theorem startCall_locked (hpc : h.pc = .idle) (call : Call) :
    ∃ h', (w.startCall n h call).files = w.files.set n h' ∧ h'.Locked := by
  have hset : ∀ {h' : FileActiveStatus}, h'.pc.holdsMutex = false →
      ∃ x, (w.setFile n h').files = w.files.set n x ∧ x.Locked :=
    fun hpc => ⟨_, rfl, .of_pc hpc⟩
  have hraise : ∀ call e, ∃ h', (w.raise n h call e).files = w.files.set n h' ∧ h'.Locked :=
    fun call e => ⟨{ h with pc := .idle }, rfl, .of_pc rfl⟩
  have hstream : ∀ (x : FileActiveStatus) (stream : Stream),
      ∃ h', (w.startStream n x stream).files = w.files.set n h' ∧ h'.Locked := by
    intro x stream
    exact ⟨_, settle_files _ _, .of_pc (FileActiveStatus.streamPc_holdsMutex _)⟩
  have hseek : ∀ target, ∃ h', (w.startSeek n h call target).files = w.files.set n h' ∧
      h'.Locked := by
    intro target
    unfold startSeek
    split
    · refine ⟨{ h with pos := target.toNat }, rfl, .of_pc ?_⟩
      change h.pc.holdsMutex = false
      rw [hpc]
      rfl
    · split
      · split
        · exact hstream _ _
        · exact hraise _ _
      · exact hraise _ _
  cases call with
  | read length => exact hstream _ _
  | write buffer =>
      unfold startCall
      dsimp only
      split
      · exact hstream _ _
      · exact hraise _ _
  | seekSet pos => exact hseek _
  | seekCur pos => exact hseek _
  | seekEnd pos => exact hseek _
  | flush =>
      unfold startCall
      dsimp only
      split
      · exact hset rfl
      · exact hraise _ _
  | close isCancel => exact hset rfl

theorem enqueue_files (w : World) (n : Nat) (result : FileActiveStatus.ActivateResult) :
    (w.enqueue n result).files = w.files := by
  cases result with
  | startLoad info => rfl
  | activated => rfl
  | loadingByOthers => rfl

/-- A step of the thread keeps the mutex, or goes where it is not needed. -/
theorem stepFile_locked (hlocked : h.Locked) (hstep : w.stepFile cfg n h = some w') :
    ∃ h', w'.files = w.files.set n h' ∧ h'.Locked := by
  have hidle : ∀ x : FileActiveStatus, ({ x with pc := .idle } : FileActiveStatus).Locked :=
    fun x => .of_pc rfl
  have hset : ∀ {x : FileActiveStatus}, x.Locked →
      ∃ h', (w.setFile n x).files = w.files.set n h' ∧ h'.Locked := fun hx => ⟨_, rfl, hx⟩
  unfold stepFile at hstep
  cases hpc : h.pc with
  | openManifest =>
      simp only [hpc, Option.some.injEq] at hstep
      subst hstep
      exact ⟨_, rfl, .of_pc rfl⟩
  | regist =>
      simp only [hpc, Option.some.injEq] at hstep
      subst hstep
      split
      · split
        · exact ⟨_, rfl, .of_pc rfl⟩
        · exact ⟨_, rfl, .of_pc rfl⟩
      · exact ⟨_, rfl, .of_pc rfl⟩
  | idle =>
      rw [hpc] at hstep
      cases hstep
  | closed =>
      rw [hpc] at hstep
      cases hstep
  | adjust =>
      simp only [hpc] at hstep
      split at hstep
      · cases hstep
      · cases hstep
        exact hset (FileActiveStatus.adjustActiveBlock_locked cfg h)
  | acquire caller =>
      simp only [hpc, Option.some.injEq] at hstep
      subst hstep
      have hmutex : h.loadMutex = true := hlocked (by rw [hpc]; rfl)
      refine runFile_handle (fun _ _ _ => hidle _) fun a c w₁ hrun hfiles =>
        ⟨c.self, hfiles, .of_mutex ?_⟩
      exact (FileActiveStatus.acquireFirst_mutex cfg caller true).ok hmutex hrun
  | evictRead caller loop =>
      simp only [hpc, Option.some.injEq] at hstep
      subst hstep
      split
      · exact hset (.of_mutex (hlocked (by rw [hpc]; rfl)))
      · exact ⟨_, rfl, hidle _⟩
  | evictPut caller loop buffer =>
      simp only [hpc, Option.some.injEq] at hstep
      subst hstep
      exact ⟨_, rfl, .of_mutex (hlocked (by rw [hpc]; rfl))⟩
  | evictFinish caller loop =>
      simp only [hpc, Option.some.injEq] at hstep
      subst hstep
      have hmutex : h.loadMutex = true := hlocked (by rw [hpc]; rfl)
      refine runFile_handle (fun _ _ _ => hidle _) fun a c w₁ hrun hfiles =>
        ⟨c.self, hfiles, .of_mutex ?_⟩
      exact (FileActiveStatus.acquireNext_mutex caller loop true).ok hmutex hrun
  | extend =>
      simp only [hpc, Option.some.injEq] at hstep
      subst hstep
      exact runFile_handle (fun _ _ _ => hidle _) fun a c w₁ _ hfiles =>
        mapFile_handle hfiles (FileActiveStatus.leaveAdjust_locked c.self)
  | activate caller =>
      simp only [hpc, Option.some.injEq] at hstep
      subst hstep
      have hmutex : h.loadMutex = true := hlocked (by rw [hpc]; rfl)
      refine runFile_handle (fun _ _ _ => hidle _) fun a c w₁ hrun hfiles => ?_
      rw [enqueue_files]
      apply mapFile_handle hfiles
      apply FileActiveStatus.afterActivate_locked
      exact (FileActiveStatus.keeps_mutex (fun _ => FileActiveStatus.activateBlock_thread cfg _)
        true).ok
        hmutex hrun
  | wait =>
      simp only [hpc] at hstep
      split at hstep
      · cases hstep
      · cases hstep
        exact hset (FileActiveStatus.waitActive_locked hpc)
  | ready =>
      simp only [hpc, Option.some.injEq] at hstep
      subst hstep
      refine runFile_handle (fun _ _ _ => hidle _) fun a c w₁ hrun hfiles =>
        ⟨c.self, hfiles, .of_pc ?_⟩
      obtain ⟨x, c₁, hget, hrun⟩ := Library.bind_ok hrun
      obtain ⟨block, c₂, hblock, hrun⟩ := Library.bind_ok hrun
      cases hrun
      rfl
  | transfer =>
      simp only [hpc, Option.some.injEq] at hstep
      subst hstep
      split
      · next x space hrun =>
          obtain ⟨count, hcount⟩ := FileActiveStatus.transferChunk_pc hrun
          refine ⟨x, rfl, .of_pc ?_⟩
          rw [hcount]
          rfl
      · exact ⟨_, rfl, hidle _⟩
  | advance count =>
      simp only [hpc, Option.some.injEq] at hstep
      subst hstep
      refine runFile_handle (fun _ _ _ => hidle _) fun a c w₁ hrun hfiles => ?_
      rw [settle_files]
      refine ⟨c.self, hfiles, .of_pc ?_⟩
      obtain ⟨_, c₁, _, hrun⟩ := Library.bind_ok hrun
      obtain ⟨_, c₂, _, hrun⟩ := Library.bind_ok hrun
      obtain ⟨_, c₃, _, hrun⟩ := Library.bind_ok hrun
      cases hrun
      exact FileActiveStatus.streamPc_holdsMutex _
  | flush =>
      simp only [hpc, Option.some.injEq] at hstep
      subst hstep
      exact runFile_handle (fun _ _ _ => hidle _) fun a c w₁ _ hfiles =>
        mapFile_handle hfiles (hidle _)
  | close isCancel =>
      simp only [hpc, Option.some.injEq] at hstep
      subst hstep
      exact runFile_handle (fun _ _ _ => hidle _) fun a c w₁ _ hfiles =>
        mapFile_handle hfiles (.of_pc rfl)
  | deleteRemote isCancel blocks =>
      simp only [hpc, Option.some.injEq] at hstep
      subst hstep
      split
      · exact ⟨_, rfl, .of_pc rfl⟩
      · exact ⟨_, rfl, .of_pc rfl⟩

theorem locked_handlewise (cfg : Config) : Handlewise cfg anyStep FileActiveStatus.Locked where
  opened := by
    intro w fileId isCreate isSequence type pid h hfiles
    obtain ⟨x, hnew, -⟩ := w.openFile_isNew cfg fileId isCreate isSequence type pid
    obtain rfl := List.singleton_inj.mp (List.append_cancel_left (hnew.files.symm.trans hfiles))
    apply FileActiveStatus.Locked.of_pc
    rcases hnew.pc with hpc | hpc
    · rw [hpc]
      rfl
    · rw [hpc]
      rfl
  called _ hpc := startCall_locked hpc _
  stepped _ _ hlocked hstep := stepFile_locked hlocked hstep
  raised _ _ := .of_pc rfl
  loaded := by
    intro w h prog hprog hlocked hmutex
    have hthread := hprog.thread h.thread
    have hstart : FileActiveStatus.OnThread h.thread (w.ctx h) := rfl
    cases hrun : prog (w.ctx h) with
    | ok u c =>
        have hc := hthread.ok hstart hrun
        intro hholds
        have hpc : c.self.pc = h.pc := congrArg Thread.pc hc
        rw [hpc] at hholds
        exact (congrArg Thread.loadMutex hc).trans (hlocked hholds)
    | error e c => exact .of_mutex rfl

/-! ## Exceptions -/

/-- An exception leaves `getCurBlockInfo` of handle `n` and reaches the caller. -/
structure Throws (cfg : Config) (w : World) (act : Action) (n : Nat) (e : GwError) (w' : World) :
    Prop where
  step : step cfg w act = some w'
  thread : act = .file n ∨ act = .failUpload n
  caught : ∃ h, w.files[n]? = some h ∧ h.pc.inGetCurBlockInfo = true ∧
    w'.history = w.history ++ [⟨n, some h.stream.call, .threw e⟩]
  exception : e ≠ .undefined

/-- The handle can be used and closed: the mutex is free, and every bucket that the handle
has marked is in one of its lists. The flag byte of the header is no part of the state here:
a section that was begun on clean memory leaves it clear also when its body throws
(`Mapped.guarded_flags`). -/
structure Usable (w : World) (n : Nat) : Prop where
  mutex : ∀ h, w.files[n]? = some h → h.loadMutex = false
  marks : ∀ (h : FileActiveStatus) (a b : Nat) (x : ShareMemBucket), w.files[n]? = some h →
    h.activeId = some a → w.shm.buckets[b]? = some x → x.hasActiveId a = true → h.Lists b

/-- The handle that an exception leaves behind. -/
theorem Throws.mutex {act : Action} {e : GwError} (hthrows : w.Throws cfg act n e w')
    (hlocked : w.Every FileActiveStatus.Locked) :
    ∃ h, w'.files[n]? = some h ∧ h.loadMutex = true := by
  obtain ⟨h, hn, hinside, hhistory⟩ := hthrows.caught
  have hstep := hthrows.step
  have hquiet : w'.history ≠ w.history := by
    rw [hhistory]
    simp
  -- an exception that a section threw with the mutex locked
  have hraise : ∀ {x : FileActiveStatus} {call : Option Call} {e : GwError} {w₁ : World},
      x.loadMutex = true → w₁.files = w.files →
      ∃ h', (w₁.raise n x call e).files[n]? = some h' ∧ h'.loadMutex = true := by
    intro x call e w₁ hx hfiles
    refine ⟨{ x with pc := .idle }, ?_, hx⟩
    change (w₁.files.set n _)[n]? = _
    rw [hfiles]
    exact getElem?_set_files hn
  have hsection : ∀ {α : Type} {prog : StatusM α} {call : Option Call} {next : α → World → World},
      Keeps (fun c : Ctx => c.self.loadMutex = true) prog → h.loadMutex = true →
      (∀ a w₁, (next a w₁).history = w₁.history) → w' = w.runFile n h call prog next →
      ∃ h', w'.files[n]? = some h' ∧ h'.loadMutex = true := by
    intro α prog call next hprog hmutex hnext heq
    rcases w.runFile_cases n h call prog next with ⟨a, c, -, hok⟩ | ⟨e, c, hrun, herror⟩
    · rw [heq, hok, hnext] at hquiet
      exact absurd rfl hquiet
    · rw [heq, herror]
      exact hraise (hprog.error hmutex hrun) rfl
  have hmine : h.pc.holdsMutex = true → h.loadMutex = true := hlocked n h hn
  rcases hthrows.thread with rfl | rfl
  · simp only [World.step, hn] at hstep
    unfold stepFile at hstep
    cases hpc : h.pc with
    | adjust =>
        simp only [hpc] at hstep
        split at hstep
        · cases hstep
        · cases hstep
          exact absurd rfl hquiet
    | acquire caller =>
        simp only [hpc, Option.some.injEq] at hstep
        exact hsection (FileActiveStatus.acquireFirst_mutex cfg caller true)
          (hmine (by rw [hpc]; rfl))
          (fun _ _ => rfl) hstep.symm
    | evictRead caller loop =>
        simp only [hpc, Option.some.injEq] at hstep
        split at hstep
        · subst hstep
          exact absurd rfl hquiet
        · subst hstep
          exact hraise (hmine (by rw [hpc]; rfl)) rfl
    | evictPut caller loop buffer =>
        simp only [hpc, Option.some.injEq] at hstep
        subst hstep
        exact absurd rfl hquiet
    | evictFinish caller loop =>
        simp only [hpc, Option.some.injEq] at hstep
        exact hsection (FileActiveStatus.acquireNext_mutex caller loop true)
          (hmine (by rw [hpc]; rfl))
          (fun _ _ => rfl) hstep.symm
    | extend =>
        simp only [hpc, Option.some.injEq] at hstep
        refine hsection (FileActiveStatus.keeps_mutex
          (fun _ => FileActiveStatus.extendOneBlock_thread) true)
          (hmine (by rw [hpc]; rfl)) (fun _ _ => ?_) hstep.symm
        rfl
    | activate caller =>
        simp only [hpc, Option.some.injEq] at hstep
        refine hsection (FileActiveStatus.keeps_mutex
          (fun _ => FileActiveStatus.activateBlock_thread cfg _) true) (hmine (by rw [hpc]; rfl))
          (fun result w₁ => ?_) hstep.symm
        cases result with
        | startLoad info => rfl
        | activated => rfl
        | loadingByOthers => rfl
    | wait =>
        simp only [hpc] at hstep
        split at hstep
        · cases hstep
        · cases hstep
          exact absurd rfl hquiet
    | ready =>
        simp only [hpc, Option.some.injEq] at hstep
        rcases w.runFile_cases n h (some h.stream.call) (FileActiveStatus.getCurBlockInfo cfg)
          fun _ w => w with ⟨a, c, -, hok⟩ | ⟨e', c, hrun, herror⟩
        · rw [← hstep, hok] at hquiet
          exact absurd rfl hquiet
        · rw [← hstep, herror] at hhistory
          have hrecord := List.append_cancel_left hhistory
          have hundefined := FileActiveStatus.getCurBlockInfo_error hrun
          have hexception := hthrows.exception
          simp_all
    | _ => simp [hpc, Pc.inGetCurBlockInfo, Pc.holdsMutex] at hinside
  · simp only [World.step, hn] at hstep
    split at hstep
    · next hpc =>
        cases hstep
        exact hraise (hmine (by rw [hpc]; rfl)) rfl
    · cases hstep

/-- Every exception that leaves `getCurBlockInfo` leaves a handle that cannot be used. -/
theorem throws_unusable (cfg : Config) (w w' : World) (act : Action) (n : Nat) (e : GwError)
    (hrun : Run (step cfg) anyStep (init cfg) w) (hthrows : w.Throws cfg act n e w') :
    ¬ w'.Usable n := by
  intro husable
  obtain ⟨h, hn, hmutex⟩ := hthrows.mutex ((locked_handlewise cfg).run (every_init cfg _) hrun)
  have hfree := husable.mutex h hn
  rw [hmutex] at hfree
  cases hfree

/-- One bucket of one byte. -/
def soleBucket : Config := .intact 1 1 4 1

/-- A writer keeps the only bucket active, and a second one needs a bucket. -/
def starved : List Action :=
  [.openFile 7 true false .writeFile 1, .file 0, .file 0, .call 0 (.write [1])] ++
  List.replicate 6 (.file 0) ++ [.openFile 8 true false .writeFile 2, .file 1, .file 1,
    .call 1 (.write [2]), .file 1]

/-- The second writer is told that all buckets are used for loading. -/
theorem starved_throws :
    ∃ w w', execute (step soleBucket) anyStep (init soleBucket) starved = some w ∧
    w.Throws soleBucket (.file 1) 1 FileActiveStatus.allLoading w' := by
  have hthrows : ((execute (step soleBucket) anyStep (init soleBucket) starved).any fun w =>
      (step soleBucket w (.file 1)).any fun w' => (w.files[1]?).any fun h =>
        h.pc.inGetCurBlockInfo && decide (w'.history =
          w.history ++ [⟨1, some h.stream.call, .threw FileActiveStatus.allLoading⟩])) = true := by
    decide +kernel
  obtain ⟨w, hw, hthrows⟩ := (Option.any_eq_true _ _).mp hthrows
  obtain ⟨w', hw', hthrows⟩ := (Option.any_eq_true _ _).mp hthrows
  obtain ⟨h, hn, hthrows⟩ := (Option.any_eq_true _ _).mp hthrows
  rw [Bool.and_eq_true, decide_eq_true_eq] at hthrows
  exact ⟨w, w', hw, hw', Or.inl rfl, ⟨h, hn, hthrows.1, hthrows.2⟩, nofun⟩

theorem throws_unusable_starved : ∃ w w',
    execute (step soleBucket) anyStep (init soleBucket) starved = some w ∧
    w.Throws soleBucket (.file 1) 1 FileActiveStatus.allLoading w' ∧ ¬ w'.Usable 1 := by
  obtain ⟨w, w', hw, hthrows⟩ := starved_throws
  exact ⟨w, w', hw, hthrows, throws_unusable soleBucket w w' _ _ _ (Run.of_execute hw) hthrows⟩

/-- The mutex of the second writer stays locked after its exception. -/
theorem exception_keeps_mutex :
    ¬ ∀ w w' act n e, Run (step soleBucket) anyStep (init soleBucket) w →
      w.Throws soleBucket act n e w' → w'.Usable n := by
  intro hclaim
  obtain ⟨w, w', hw, hthrows⟩ := starved_throws
  have husable := hclaim w w' _ _ _ (Run.of_execute hw) hthrows
  have hlocked : ((execute (step soleBucket) anyStep (init soleBucket) starved).any fun w =>
      (step soleBucket w (.file 1)).any fun w' => (w'.files[1]?).any FileActiveStatus.loadMutex) =
      true := by
    decide +kernel
  rw [hw] at hlocked
  simp only [Option.any_some, hthrows.step] at hlocked
  obtain ⟨h, hn, hmutex⟩ := (Option.any_eq_true _ _).mp hlocked
  rw [husable.mutex h hn] at hmutex
  cases hmutex

end World

end Gopherwood
