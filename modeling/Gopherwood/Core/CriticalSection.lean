/-
# Critical sections

Every operation on the shared memory runs between `SHARED_MEM_BEGIN` and
`SHARED_MEM_END`. The lock sets a flag in the header and the unlock clears it, so
a flag that is found set tells that a process died inside its section. The lock
is taken inside the `try` of the macro, so the handler of the macro unlocks also
when it was the lock that threw.
-/

import Gopherwood.Core.SharedMemoryContext
import Gopherwood.Library.Computation

namespace Gopherwood

/-- The flag byte of the header, and what the bodies of the sections work on. -/
structure Mapped (σ : Type) where
  flags : UInt8
  data : σ

/-- Computations of one process on the mapped memory. -/
abbrev MappedM (σ : Type) := EStateM GwError (Mapped σ)

namespace Mapped

variable {σ : Type}

def enterError : GwError := .sharedMem "[ShareMemHeader::enter] Shared Memory Dirty"

def exitError : GwError := .sharedMem "[ShareMemHeader::exit] Shared Memory Dirty"

/-- `ShareMemHeader::enter`. -/
def enter : MappedM σ Unit := do
  if (← get).flags ≠ 0x00 then
    throw enterError
  modify fun m => { m with flags := m.flags ||| 0x01 }

/-- `ShareMemHeader::exit`. -/
def exit : MappedM σ Unit := do
  modify fun m => { m with flags := m.flags &&& 0xFE }
  if (← get).flags ≠ 0x00 then
    throw exitError

/-- `SharedMemoryContext::lock`. The record lock on the lock file keeps other
processes out and is given back when its owner dies. -/
def lock : MappedM σ Unit := enter

/-- `SharedMemoryContext::unlock`. -/
def unlock : MappedM σ Unit := exit

/-- `SHARED_MEM_BEGIN`, a body and `SHARED_MEM_END`. -/
def guarded (body : MappedM σ Unit) : MappedM σ Unit :=
  tryCatch (do lock; body; unlock) fun e => do unlock; throw e

/-- An attempt to run a critical section. -/
inductive Attempt (σ : Type)
  /-- A file handle, which catches up with its manifest before the body. -/
  | file (catchUp body : MappedM σ Unit)
  /-- An admin handle. -/
  | admin (body : MappedM σ Unit)
  /-- A process that dies inside its section, after a part of the body. -/
  | dying (part : MappedM σ Unit)

/-- What becomes of an attempt. -/
inductive Outcome
  | returned
  | threw (e : GwError)
  | died
  deriving DecidableEq

def Outcome.of {α : Type} : EStateM.Result GwError (Mapped σ) α → Outcome
  | .ok _ _ => .returned
  | .error e _ => .threw e

namespace Attempt

/-- The outcome of an attempt and the memory that it leaves. -/
def run (m : Mapped σ) : Attempt σ → Outcome × Mapped σ
  | .file catchUp body =>
      let prog := guarded (do catchUp; body)
      (Outcome.of (prog m), Library.after prog m)
  | .admin body => (Outcome.of (guarded body m), Library.after (guarded body) m)
  | .dying part =>
      match lock m with
      | .ok _ m' => (.died, Library.after part m')
      -- the handler of the macro runs, since the lock threw before the death
      | .error e m' => (Outcome.of ((do unlock; throw e : MappedM σ Unit) m'),
          Library.after (do unlock; throw e : MappedM σ Unit) m')

/-- The body of a section is begun exactly when its lock returns. -/
def begins (m : Mapped σ) : Bool :=
  match lock m with
  | .ok _ _ => true
  | .error _ _ => false

end Attempt

/-- Every attempt of the sequence is refused: no body is begun, the exception says
that the memory is dirty, and the data stay as they are. -/
def Refused : List (Attempt σ) → Mapped σ → Prop
  | [], _ => True
  | a :: rest, m => Attempt.begins m = false ∧ (a.run m).1 = .threw enterError ∧
      (a.run m).2.data = m.data ∧ Refused rest (a.run m).2

section Laws

variable {m : Mapped σ}

theorem lock_clean (h : m.flags = 0) : lock m = .ok () { m with flags := 1 } := by
  simp [lock, enter, h]

theorem lock_dirty (h : m.flags = 1) : lock m = .error enterError m := by
  simp [lock, enter, h]

theorem unlock_held (h : m.flags = 1) : unlock m = .ok () { m with flags := 0 } := by
  have hbits : (1 : UInt8) &&& 0xFE = 0 := by decide
  simp [unlock, exit, h, hbits]

theorem begins_clean (h : m.flags = 0) : Attempt.begins m = true := by
  simp [Attempt.begins, lock_clean h]

theorem begins_dirty (h : m.flags = 1) : Attempt.begins m = false := by
  simp [Attempt.begins, lock_dirty h]

/-- The handler of a refused section clears the flag it was refused for. -/
theorem guarded_dirty (h : m.flags = 1) (body : MappedM σ Unit) :
    guarded body m = .error enterError { m with flags := 0 } := by
  have hprog : (do lock; body; unlock : MappedM σ Unit) m = .error enterError m := by
    simp [lock_dirty h]
  change EStateM.tryCatch _ _ m = _
  simp only [EStateM.tryCatch, hprog]
  change ((do unlock; throw enterError : MappedM σ Unit) m) = _
  simp [unlock_held h]

/-- A section on clean memory leaves the flag clear, whether its body returns or throws. -/
theorem guarded_flags (h : m.flags = 0) {body : MappedM σ Unit}
    (hbody : ∀ m', m'.flags = 1 → (Library.after body m').flags = 1) :
    (Library.after (guarded body) m).flags = 0 := by
  have hlock := lock_clean h
  have hinside : (Library.after body { m with flags := 1 }).flags = 1 := hbody _ rfl
  cases hrun : body { m with flags := 1 } with
  | ok a m' =>
      have hheld : m'.flags = 1 := by simpa [Library.after, hrun] using hinside
      have hprog : (do lock; body; unlock : MappedM σ Unit) m = .ok () { m' with flags := 0 } := by
        simp [hlock, hrun, unlock_held hheld]
      change (Library.after (EStateM.tryCatch _ _) m).flags = 0
      simp only [Library.after, EStateM.tryCatch, hprog]
  | error e m' =>
      have hheld : m'.flags = 1 := by simpa [Library.after, hrun] using hinside
      have hprog : (do lock; body; unlock : MappedM σ Unit) m = .error e m' := by
        simp [hlock, hrun]
      have hhandler : (do unlock; throw e : MappedM σ Unit) m' =
          .error e { m' with flags := 0 } := by
        simp [unlock_held hheld]
      change (Library.after (EStateM.tryCatch _ _) m).flags = 0
      simp only [Library.after, EStateM.tryCatch, hprog]
      -- what the body has stored stays when its exception is caught
      have hkept : EStateM.Backtrackable.restore m' (EStateM.Backtrackable.save m) = m' := rfl
      rw [hkept, hhandler]

/-- An attempt on dirty memory is refused and leaves clean memory. -/
theorem run_dirty (h : m.flags = 1) (a : Attempt σ) :
    a.run m = (.threw enterError, { m with flags := 0 }) := by
  cases a with
  | file catchUp body => simp [Attempt.run, guarded_dirty h, Outcome.of, Library.after]
  | admin body => simp [Attempt.run, guarded_dirty h, Outcome.of, Library.after]
  | dying part =>
      simp [Attempt.run, lock_dirty h, unlock_held h, Outcome.of, Library.after]

/-- A process that dies inside its section leaves the flag set, unless it had
unlocked before. -/
theorem run_dying (h : m.flags = 0) (part : MappedM σ Unit)
    (hpart : ∀ m', m'.flags = 1 → (Library.after part m').flags = 1) :
    ((Attempt.dying part).run m).2.flags = 1 := by
  simp only [Attempt.run, lock_clean h]
  exact hpart _ rfl

/-- After a process has died inside its section, the attempts of the others are
all refused exactly when there is at most one of them: the refused section clears
the flag, and the next one begins on what the dead process left. -/
theorem refused_iff (h : m.flags = 1) (attempts : List (Attempt σ)) :
    Refused attempts m ↔ attempts.length ≤ 1 := by
  cases attempts with
  | nil => simp [Refused]
  | cons first rest =>
      have hfirst := run_dirty h first
      cases rest with
      | nil => simp [Refused, begins_dirty h, hfirst]
      | cons second rest =>
          have hsecond : Attempt.begins (first.run m).2 = true := by
            rw [hfirst]
            exact begins_clean rfl
          simp [Refused, hsecond]

end Laws

/-- Work on the segment inside a section. -/
def onSegment {α : Type} (prog : ShmM α) : MappedM SharedMem Unit :=
  Library.zoom Mapped.data (fun s m => { m with data := s }) (discard prog)

/-- The process dies after the first store of `acquireOne`: the bucket is active,
but it has no mark and is still counted as free. -/
def diesAcquiring : Attempt SharedMem :=
  .dying (onSegment (SharedMemoryContext.modifyBucket 0 fun b =>
    { b.setBucketActive with fileId := ⟨7, 0⟩ }))

/-- What the dead process leaves of a reset segment with one bucket. -/
def deserted : Mapped SharedMem := (diesAcquiring.run ⟨0, SharedMem.reset (.intact 1 1 4 1)⟩).2

def registers : Attempt SharedMem := .admin (onSegment (SharedMemoryContext.registAdmin 2))

theorem refused_iff_deserted : deserted.flags = 1 ∧ Refused [registers] deserted := by
  have hflags : deserted.flags = 1 := by
    apply run_dying rfl
    intro m' h
    exact h
  exact ⟨hflags, (refused_iff hflags [registers]).mpr (by decide)⟩

/-- The second attempt after the death registers its handle on the half-updated
tables. -/
theorem deserted_entered : deserted.flags = 1 ∧
    ¬ Refused [registers, registers] deserted ∧
    (registers.run (registers.run deserted).2).1 = .returned ∧
    (registers.run (registers.run deserted).2).2.data.header.numAdminActiveStatus = 1 ∧
    deserted.data.header.numFreeBuckets = 1 ∧
    deserted.data.buckets.map ShareMemBucket.type = [.active] := by
  have hsecond : Attempt.begins (registers.run deserted).2 = true := by decide +kernel
  refine ⟨by decide +kernel, ?_, by decide +kernel, by decide +kernel, by decide +kernel,
    by decide +kernel⟩
  intro h
  rw [h.2.2.2.1] at hsecond
  cases hsecond

end Mapped

end Gopherwood
