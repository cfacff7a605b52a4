/-
# Invariants of single handles

A step of the system replaces at most one handle, or constructs one. A property that
every handle is constructed with, and that its own thread, its calls and its loads
keep, therefore holds of every handle in every run, whatever the others do.
-/

import Gopherwood.File.Thread
import Gopherwood.Journal.AppendOnly

namespace Gopherwood

open Library (Keeps Run)

namespace World

/-- The program that a loader thread ends with. -/
def IsLoadEnd (cfg : Config) (prog : StatusM Unit) : Prop :=
  (∃ info size, prog = FileActiveStatus.loadSucceeded cfg info size) ∨
    ∃ info, prog = FileActiveStatus.loadFailed info

/-- The property is kept by everything that happens to a handle, as long as the steps of
its thread meet the condition. -/
structure Handlewise (cfg : Config) (cond : World → Action → Prop) (I : FileActiveStatus → Prop) :
    Prop where
  opened : ∀ {w : World} {fileId : FileId} {isCreate isSequence : Bool} {type : ActiveStatusType}
    {pid : Nat} {h : FileActiveStatus},
    (w.openFile cfg fileId isCreate isSequence type pid).files = w.files ++ [h] → I h
  called : ∀ {w : World} {n : Nat} {h : FileActiveStatus} {call : Call}, I h → h.pc = .idle →
    ∃ h', (w.startCall n h call).files = w.files.set n h' ∧ I h'
  stepped : ∀ {w w' : World} {n : Nat} {h : FileActiveStatus}, cond w (.file n) →
    w.files[n]? = some h → I h → w.stepFile cfg n h = some w' →
    ∃ h', w'.files = w.files.set n h' ∧ I h'
  raised : ∀ {h : FileActiveStatus} {caller : Caller} {loop : EvictLoop} {buffer : List UInt8},
    I h → h.pc = .evictPut caller loop buffer → I { h with pc := .idle }
  loaded : ∀ {w : World} {h : FileActiveStatus} {prog : StatusM Unit}, IsLoadEnd cfg prog → I h →
    h.loadMutex = false → match prog (w.ctx h) with
      | .ok _ c => I c.self
      | .error _ c => I { c.self with loadMutex := true }

variable {cfg : Config} {cond : World → Action → Prop} {I : FileActiveStatus → Prop} {w w' : World}
  {act : Action}

/-- Every handle has the property. -/
def Every (I : FileActiveStatus → Prop) (w : World) : Prop :=
  ∀ (n : Nat) (h : FileActiveStatus), w.files[n]? = some h → I h

theorem Every.of_set (hw : w.Every I) {n : Nat} {h' : FileActiveStatus}
    (hfiles : w'.files = w.files.set n h') (hh' : I h') : w'.Every I := by
  intro m x hm
  rcases files_set_cases hfiles hm with ⟨-, rfl⟩ | ⟨-, hm⟩
  · exact hh'
  · exact hw m x hm

theorem Every.of_same (hw : w.Every I) (hfiles : w'.files = w.files) : w'.Every I := by
  intro m x hm
  exact hw m x (hfiles ▸ hm)

/-- A loader thread works by itself, or reports to the handle that started it. -/
theorem stepLoad_cases {i : Nat} {task : LoadTask} (hstep : w.stepLoad cfg i task = some w') :
    (w'.files = w.files ∧ w'.folder = w.folder ∧ w'.history = w.history) ∨
      ∃ h prog, IsLoadEnd cfg prog ∧ w.files[task.owner]? = some h ∧ h.loadMutex = false ∧
        w' = w.finishLoad i task.owner h prog := by
  unfold stepLoad at hstep
  dsimp only at hstep
  split at hstep
  · cases hstep
    split
    · exact Or.inl ⟨rfl, rfl, rfl⟩
    · exact Or.inl ⟨rfl, rfl, rfl⟩
  · split at hstep
    · cases hstep
      exact Or.inl ⟨rfl, rfl, rfl⟩
    · cases hstep
      exact Or.inl ⟨rfl, rfl, rfl⟩
  · cases hstep
    exact Or.inl ⟨rfl, rfl, rfl⟩
  · split at hstep
    · cases hstep
    · next h hn =>
        split at hstep
        · cases hstep
        · next hmutex =>
            cases hstep
            exact Or.inr ⟨h, _, Or.inl ⟨_, _, rfl⟩, hn, Bool.not_eq_true _ ▸ hmutex, rfl⟩
  · split at hstep
    · cases hstep
    · next h hn =>
        split at hstep
        · cases hstep
        · next hmutex =>
            cases hstep
            exact Or.inr ⟨h, _, Or.inr ⟨_, rfl⟩, hn, Bool.not_eq_true _ ▸ hmutex, rfl⟩

theorem IsLoadEnd.thread {prog : StatusM Unit} (hprog : IsLoadEnd cfg prog) (t : Thread) :
    Keeps (FileActiveStatus.OnThread t) prog := by
  rcases hprog with ⟨info, size, rfl⟩ | ⟨info, rfl⟩
  · exact FileActiveStatus.loadSucceeded_thread cfg info size
  · exact FileActiveStatus.loadFailed_thread info

/-- A loader thread. -/
theorem Handlewise.load (hI : Handlewise cfg cond I) (hw : w.Every I) {i : Nat} {task : LoadTask}
    (hstep : w.stepLoad cfg i task = some w') : w'.Every I := by
  rcases stepLoad_cases hstep with ⟨hfiles, -, -⟩ | ⟨h, prog, hprog, hn, hmutex, rfl⟩
  · exact hw.of_same hfiles
  · -- the end of the load in the handle that started it
    have hend := hI.loaded (w := w) hprog (hw task.owner h hn) hmutex
    unfold finishLoad
    dsimp only
    rw [show (⟨w.shm, w.folder, w.oss, h⟩ : Ctx) = w.ctx h from rfl]
    cases hrun : prog (w.ctx h) with
    | ok u c =>
        rw [hrun] at hend
        exact hw.of_set rfl hend
    | error e c =>
        rw [hrun] at hend
        exact hw.of_set rfl hend

/-- What one step keeps. -/
theorem Handlewise.step (hI : Handlewise cfg cond I) (hw : w.Every I) (hcond : cond w act)
    (hstep : World.step cfg w act = some w') : w'.Every I := by
  cases act with
  | openFile hashcode isCreate isSequence type pid =>
      cases hstep
      obtain ⟨h, hnew, -⟩ := w.openFile_isNew cfg (makeFileId hashcode) isCreate isSequence type pid
      intro m x hm
      rw [hnew.files, List.getElem?_append] at hm
      split at hm
      · exact hw m x hm
      · rw [List.mem_singleton.mp (List.mem_of_getElem? hm)]
        exact hI.opened hnew.files
  | call n call =>
      simp only [World.step] at hstep
      split at hstep
      · next h hn =>
          split at hstep
          · next hpc _ =>
              cases hstep
              obtain ⟨h', hfiles, hh'⟩ := @hI.called w n h call (hw n h hn) hpc
              exact hw.of_set hfiles hh'
          · cases hstep
      · cases hstep
  | file n =>
      simp only [World.step] at hstep
      split at hstep
      · next h hn =>
          obtain ⟨h', hfiles, hh'⟩ := hI.stepped hcond hn (hw n h hn) hstep
          exact hw.of_set hfiles hh'
      · cases hstep
  | failUpload n =>
      simp only [World.step] at hstep
      split at hstep
      · next h hn =>
          split at hstep
          · next hpc =>
              cases hstep
              exact hw.of_set rfl (hI.raised (hw n h hn) hpc)
          · cases hstep
      · cases hstep
  | load i =>
      simp only [World.step] at hstep
      split at hstep
      · exact hI.load hw hstep
      · cases hstep
  | failLoad i =>
      simp only [World.step] at hstep
      split at hstep
      · unfold failLoad at hstep
        split at hstep
        · cases hstep
          exact hw.of_same rfl
        · cases hstep
          exact hw.of_same rfl
        · cases hstep
      · cases hstep
  | openAdmin pid =>
      cases hstep
      exact hw.of_same rfl
  | admin n =>
      simp only [World.step] at hstep
      split at hstep
      · exact hw.of_same (stepAdmin_step hstep).files
      · cases hstep
  | evictBlocks n | closeAdmin n | failAdminUpload n =>
      simp only [World.step] at hstep
      split at hstep
      · split at hstep
        · cases hstep
          exact hw.of_same rfl
        · cases hstep
      · cases hstep

/-- What every run keeps. -/
theorem Handlewise.run (hI : Handlewise cfg cond I) {w₀ : World} (hw : w₀.Every I)
    (hrun : Run (World.step cfg) cond w₀ w) : w.Every I :=
  hrun.induct hw fun _ _ _ hs hcond hstep => hI.step hs hcond hstep

theorem every_init (cfg : Config) (I : FileActiveStatus → Prop) : (init cfg).Every I := by
  intro n h hn
  cases hn

theorem modify_set_files (hs : List FileActiveStatus) (n : Nat) (x : FileActiveStatus)
    (f : FileActiveStatus → FileActiveStatus) : (hs.set n x).modify n f = hs.set n (f x) := by
  refine List.ext_getElem? fun i => ?_
  simp only [List.getElem?_modify, List.getElem?_set]
  by_cases hni : n = i
  · simp only [hni, if_true]
    split
    · rfl
    · rfl
  · simp [hni]

theorem settle_files (w : World) (n : Nat) : (w.settle n).files = w.files := by
  unfold settle
  split
  · split
    · rfl
    · rfl
  · rfl

/-- A critical section of handle `n` that returns or throws. -/
theorem runFile_cases {α : Type} (w : World) (n : Nat) (h : FileActiveStatus) (call : Option Call)
    (prog : StatusM α) (next : α → World → World) :
    (∃ a c, prog (w.ctx h) = .ok a c ∧ w.runFile n h call prog next =
      next a { w.setFile n c.self with shm := c.shm, folder := c.folder, oss := c.oss }) ∨
    ∃ e c, prog (w.ctx h) = .error e c ∧ w.runFile n h call prog next =
      { w with shm := c.shm, folder := c.folder, oss := c.oss }.raise n c.self call e := by
  unfold runFile
  rw [show (⟨w.shm, w.folder, w.oss, h⟩ : Ctx) = w.ctx h from rfl]
  cases prog (w.ctx h) with
  | ok a c => exact Or.inl ⟨a, c, rfl, rfl⟩
  | error e c => exact Or.inr ⟨e, c, rfl, rfl⟩

/-- The handle after a critical section and what follows it. -/
theorem runFile_handle {α : Type} {prog : StatusM α} {call : Option Call} {next : α → World → World}
    {n : Nat} {h : FileActiveStatus}
    (hraise : ∀ e c, prog (w.ctx h) = .error e c → I { c.self with pc := .idle })
    (hnext : ∀ a (c : Ctx) (w₁ : World), prog (w.ctx h) = .ok a c →
      w₁.files = w.files.set n c.self → ∃ h', (next a w₁).files = w.files.set n h' ∧ I h') :
    ∃ h', (w.runFile n h call prog next).files = w.files.set n h' ∧ I h' := by
  rcases w.runFile_cases n h call prog next with ⟨a, c, hrun, heq⟩ | ⟨e, c, hrun, heq⟩
  · rw [heq]
    exact hnext a c _ hrun rfl
  · rw [heq]
    exact ⟨_, rfl, hraise e c hrun⟩

/-- The handle after an update in place. -/
theorem mapFile_handle {w₁ : World} {n : Nat} {x : FileActiveStatus}
    {f : FileActiveStatus → FileActiveStatus} (hfiles : w₁.files = w.files.set n x) (hf : I (f x)) :
    ∃ h', (w₁.mapFile n f).files = w.files.set n h' ∧ I h' :=
  ⟨f x, (congrArg (List.modify · n f) hfiles).trans (modify_set_files _ _ _ _), hf⟩

end World

end Gopherwood
