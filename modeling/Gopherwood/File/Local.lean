/-
# Thread-local work

Between two critical sections a handle's thread only moves its program counter,
its stream, its position and the load mutex.
-/

import Gopherwood.File.System

namespace Gopherwood

/-- The handle is not registered yet. -/
def Pc.isOpening : Pc → Bool
  | .openManifest => true
  | .regist => true
  | _ => false

namespace FileActiveStatus

/-- The handles differ only in what the calling thread keeps for itself; no
handle goes back to opening its file. -/
def Local (h h' : FileActiveStatus) : Prop :=
  ∃ pc loadMutex stream pos, (pc.isOpening = true → h.pc.isOpening = true) ∧
    h' = { h with pc := pc, loadMutex := loadMutex, stream := stream, pos := pos }

variable {h h' h'' : FileActiveStatus}

theorem Local.refl (h : FileActiveStatus) : h.Local h :=
  ⟨h.pc, h.loadMutex, h.stream, h.pos, id, rfl⟩

theorem Local.trans (first : h.Local h') (second : h'.Local h'') : h.Local h'' := by
  obtain ⟨pc, loadMutex, stream, pos, hpc, rfl⟩ := first
  obtain ⟨pc', loadMutex', stream', pos', hpc', rfl⟩ := second
  exact ⟨pc', loadMutex', stream', pos', hpc ∘ hpc', rfl⟩

/-- A thread-local update to a program counter that is not opening. -/
theorem Local.of_pc {pc : Pc} {loadMutex : Bool} {stream : Stream} {pos : Nat}
    (hpc : pc.isOpening = false) :
    h.Local { h with pc := pc, loadMutex := loadMutex, stream := stream, pos := pos } :=
  ⟨pc, loadMutex, stream, pos, fun hopen => (Bool.false_ne_true (hpc.symm.trans hopen)).elim, rfl⟩

theorem streamPc_isOpening (h : FileActiveStatus) : h.streamPc.isOpening = false := by
  unfold streamPc
  split
  · rfl
  · split <;> rfl

theorem leaveAdjust_local (h : FileActiveStatus) : h.Local h.leaveAdjust :=
  Local.of_pc (by split <;> rfl)

theorem enter_local (caller : Caller) (h : FileActiveStatus) : h.Local (h.enter caller) :=
  Local.of_pc (by
    split
    · rfl
    · cases caller <;> rfl)

theorem preActivate_local (numPreActivate fuel counter : Nat) (h : FileActiveStatus) :
    h.Local (preActivate numPreActivate fuel counter h) := by
  induction fuel generalizing counter with
  | zero => exact leaveAdjust_local h
  | succ fuel ih =>
      unfold preActivate
      dsimp only
      split
      · exact leaveAdjust_local h
      · split
        · exact enter_local _ h
        · exact ih _

theorem adjustActiveBlock_local (cfg : Config) (h : FileActiveStatus) :
    h.Local (h.adjustActiveBlock cfg) := by
  have hstart : h.Local { h with
      loadMutex := true
      stream := { h.stream with curBlockId := h.pos / cfg.localBucketSize } } :=
    ⟨h.pc, true, _, h.pos, id, rfl⟩
  unfold adjustActiveBlock
  dsimp only
  split
  · exact hstart.trans (enter_local _ _)
  · exact hstart.trans (preActivate_local _ _ _ _)

theorem waitActive_local (h : FileActiveStatus) : h.Local h.waitActive := by
  unfold waitActive
  split
  · exact Local.of_pc rfl
  · split
    · have hstart : h.Local { h with loadMutex := true } := ⟨h.pc, true, h.stream, h.pos, id, rfl⟩
      exact hstart.trans (enter_local _ _)
    · exact .refl h

theorem afterActivate_local (caller : Caller) (activated : Bool) (h : FileActiveStatus) :
    h.Local (h.afterActivate caller activated) := by
  cases caller with
  | extend => exact leaveAdjust_local h
  | preActivate counter numPreActivate => exact preActivate_local _ _ _ _
  | wait => exact Local.of_pc (by split <;> rfl)

theorem transferChunk_local {cfg : Config} {space space' : List UInt8}
    (hrun : h.transferChunk cfg space = .ok (h', space')) : h.Local h' := by
  unfold transferChunk at hrun
  dsimp only at hrun
  split at hrun
  · cases hrun
    exact Local.of_pc rfl
  · split at hrun
    · split at hrun
      · cases hrun
      · cases hrun
        exact Local.of_pc rfl
    · cases hrun
  · split at hrun
    · cases hrun
      exact Local.of_pc rfl
    · cases hrun

end FileActiveStatus

namespace World

/-- The worlds agree but for thread-local work of handle `n`, queued loads and
finished calls. -/
structure Local (n : Nat) (w w' : World) : Prop where
  shm : w'.shm = w.shm
  folder : w'.folder = w.folder
  oss : w'.oss = w.oss
  space : w'.space = w.space
  admins : w'.admins = w.admins
  files : ∀ h : FileActiveStatus, w.files[n]? = some h →
    ∃ h', h.Local h' ∧ w'.files = w.files.set n h'

variable {n : Nat} {w w' w'' : World}

theorem getElem?_set_files {h h' : FileActiveStatus} (hn : w.files[n]? = some h) :
    (w.files.set n h')[n]? = some h' := by
  obtain ⟨hlt, -⟩ := List.getElem?_eq_some_iff.mp hn
  simp [hlt]

theorem set_files_self {h : FileActiveStatus} (hn : w.files[n]? = some h) :
    w.files.set n h = w.files := by
  obtain ⟨hlt, rfl⟩ := List.getElem?_eq_some_iff.mp hn
  exact List.set_getElem_self hlt

theorem Local.refl (n : Nat) (w : World) : Local n w w :=
  ⟨rfl, rfl, rfl, rfl, rfl, fun h hn => ⟨h, .refl h, (set_files_self hn).symm⟩⟩

theorem Local.trans (first : Local n w w') (second : Local n w' w'') : Local n w w'' := by
  refine ⟨second.shm.trans first.shm, second.folder.trans first.folder,
    second.oss.trans first.oss, second.space.trans first.space, second.admins.trans first.admins,
    fun h hn => ?_⟩
  obtain ⟨h', hlocal, hfiles⟩ := first.files h hn
  obtain ⟨h'', hlocal', hfiles'⟩ := second.files h' (by rw [hfiles]; exact getElem?_set_files hn)
  exact ⟨h'', hlocal.trans hlocal', by rw [hfiles', hfiles, List.set_set]⟩

theorem mapFile_local {f : FileActiveStatus → FileActiveStatus}
    (hf : ∀ h, FileActiveStatus.Local h (f h)) : Local n w (w.mapFile n f) := by
  refine ⟨rfl, rfl, rfl, rfl, rfl, fun h hn => ⟨f h, hf h, ?_⟩⟩
  refine List.ext_getElem? fun i => ?_
  by_cases hi : n = i
  · subst hi
    rw [getElem?_set_files hn]
    simp [mapFile, hn]
  · simp [mapFile, hi]

/-- A world that differs only in its queued loads and finished calls. -/
theorem local_of_same (hshm : w'.shm = w.shm) (hfolder : w'.folder = w.folder)
    (hoss : w'.oss = w.oss) (hspace : w'.space = w.space) (hadmins : w'.admins = w.admins)
    (hfiles : w'.files = w.files) : Local n w w' :=
  ⟨hshm, hfolder, hoss, hspace, hadmins, fun h hn =>
    ⟨h, .refl h, hfiles.trans (set_files_self hn).symm⟩⟩

theorem settle_local (n m : Nat) (w : World) : Local n w (w.settle m) := by
  unfold settle
  split
  · split
    · exact local_of_same rfl rfl rfl rfl rfl rfl
    · exact .refl n w
  · exact .refl n w

theorem enqueue_local (n m : Nat) (w : World) (result : FileActiveStatus.ActivateResult) :
    Local n w (w.enqueue m result) := by
  cases result with
  | startLoad info => exact local_of_same rfl rfl rfl rfl rfl rfl
  | activated => exact .refl n w
  | loadingByOthers => exact .refl n w

theorem setFile_local {h h' : FileActiveStatus} (hn : w.files[n]? = some h)
    (hlocal : h.Local h') : Local n w (w.setFile n h') := by
  refine ⟨rfl, rfl, rfl, rfl, rfl, fun x hx => ⟨h', ?_, rfl⟩⟩
  obtain rfl : h = x := Option.some.inj (hn.symm.trans hx)
  exact hlocal

theorem raise_local {h : FileActiveStatus} (hn : w.files[n]? = some h) (call : Option Call)
    (e : GwError) : Local n w (w.raise n h call e) :=
  (setFile_local hn (.of_pc rfl)).trans (local_of_same rfl rfl rfl rfl rfl rfl)

/-- Starting a call is thread-local work. -/
theorem startCall_local {h : FileActiveStatus} (hn : w.files[n]? = some h) (call : Call) :
    Local n w (w.startCall n h call) := by
  have hstream : ∀ (h' : FileActiveStatus) (stream : Stream), h.Local h' →
      Local n w (w.startStream n h' stream) := by
    intro h' stream hlocal
    refine Local.trans (setFile_local hn (hlocal.trans ?_)) (settle_local _ _ _)
    exact FileActiveStatus.Local.of_pc (FileActiveStatus.streamPc_isOpening _)
  have hseek : ∀ target : Int, Local n w (w.startSeek n h call target) := by
    intro target
    unfold startSeek
    split
    · exact (setFile_local hn ⟨h.pc, h.loadMutex, h.stream, _, id, rfl⟩).trans
        (local_of_same rfl rfl rfl rfl rfl rfl)
    · split
      · split
        · exact hstream _ _ ⟨h.pc, h.loadMutex, h.stream, _, id, rfl⟩
        · exact raise_local hn _ _
      · exact raise_local hn _ _
  cases call with
  | read length => exact hstream _ _ (.refl h)
  | write buffer =>
      simp only [startCall]
      split
      · exact hstream _ _ (.refl h)
      · exact raise_local hn _ _
  | seekSet pos => exact hseek _
  | seekCur pos => exact hseek _
  | seekEnd pos => exact hseek _
  | flush =>
      simp only [startCall]
      split
      · exact setFile_local hn (.of_pc rfl)
      · exact raise_local hn _ _
  | close isCancel => exact setFile_local hn (.of_pc rfl)

end World

end Gopherwood
