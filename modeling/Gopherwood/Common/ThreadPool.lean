/-
# The thread pool

A fixed number of workers take tasks from a queue. The queue, its mutex and its
condition variable are those of the standard library: a worker that finds
nothing to do goes to sleep in `wait`, and is woken by `notify_one`, by
`notify_all` or spuriously. A critical section of the queue mutex is one step;
between the push of `enqueue` and its `notify_one` other threads may run.

No task is lost or run twice, tasks are taken in the order in which they were
accepted, and no wakeup is lost: as long as there is work, some thread of the
pool can go on.
-/

import Gopherwood.Library.Execution
import Gopherwood.Library.Tally

namespace Gopherwood

/-- Where a worker is in its loop. -/
inductive Worker (τ : Type)
  /-- About to lock the mutex and to test the predicate of `wait`. -/
  | ready
  /-- Asleep in `wait`. -/
  | waiting
  /-- Outside the lock, with a task that it took. -/
  | running (task : τ)
  /-- Returned from its loop. -/
  | exited
  deriving DecidableEq

/-- What a worker does, without its task. -/
inductive Stage
  | ready
  | waiting
  | running
  | exited
  deriving DecidableEq

/-- How far `~ThreadPool` has come. -/
inductive Teardown
  | alive
  /-- `stop` is set, `notify_all` is still to come. -/
  | stopped
  /-- The first `joined` workers are joined. -/
  | joining (joined : Nat)
  deriving DecidableEq

/-- The members of `ThreadPool`, the threads inside its operations, and the
history of its tasks. -/
structure ThreadPool (τ : Type) where
  workers : List (Worker τ)
  tasks : List τ
  stop : Bool
  teardown : Teardown
  /-- The calls of `enqueue` that have pushed but not notified yet. -/
  notifications : Nat
  accepted : List τ
  started : List τ
  finished : List τ
  refused : List τ
  deriving DecidableEq

namespace Worker

variable {τ : Type}

def stage : Worker τ → Stage
  | ready => .ready
  | waiting => .waiting
  | running _ => .running
  | exited => .exited

@[simp] theorem stage_ready : (ready : Worker τ).stage = .ready := rfl
@[simp] theorem stage_waiting : (waiting : Worker τ).stage = .waiting := rfl
@[simp] theorem stage_running (task : τ) : (running task).stage = .running := rfl
@[simp] theorem stage_exited : (exited : Worker τ).stage = .exited := rfl

def task : Worker τ → Option τ
  | running task => some task
  | _ => none

/-- Woken from `wait`. -/
def wake : Worker τ → Worker τ
  | waiting => ready
  | worker => worker

end Worker

namespace ThreadPool

variable {τ : Type}

/-- `ThreadPool(threads)`. -/
def create (threads : Nat) : ThreadPool τ where
  workers := List.replicate threads .ready
  tasks := []
  stop := false
  teardown := .alive
  notifications := 0
  accepted := []
  started := []
  finished := []
  refused := []

/-- Worker `i` goes on as `worker`. -/
def setWorker (p : ThreadPool τ) (i : Nat) (worker : Worker τ) : ThreadPool τ :=
  { p with workers := p.workers.modify i fun _ => worker }

/-- The locked part of `enqueue`. A stopped pool throws. -/
def enqueue (p : ThreadPool τ) (task : τ) : ThreadPool τ :=
  if p.stop then { p with refused := p.refused ++ [task] }
  else { p with
    tasks := p.tasks ++ [task]
    notifications := p.notifications + 1
    accepted := p.accepted ++ [task] }

/-- The locked part of a worker's loop: sleep, return, or take the first task. -/
def fetch (p : ThreadPool τ) (i : Nat) : ThreadPool τ :=
  match p.tasks, p.stop with
  | [], false => p.setWorker i .waiting
  | [], true => p.setWorker i .exited
  | task :: rest, _ =>
      { p.setWorker i (.running task) with tasks := rest, started := p.started ++ [task] }

/-- One step of worker `i`. A task that throws leaves its exception in its
future, so the worker goes on. -/
def work (p : ThreadPool τ) (i : Nat) : Option (ThreadPool τ) :=
  match p.workers[i]? with
  | some .ready => some (p.fetch i)
  | some (.running task) => some { p.setWorker i .ready with finished := p.finished ++ [task] }
  | _ => none

/-- `notify_one`: some sleeping worker wakes up, if there is one. -/
def notifyOne (p : ThreadPool τ) : Option Nat → Option (ThreadPool τ)
  | some i =>
      if 0 < p.notifications ∧ (p.workers[i]?).map Worker.stage = some .waiting then
        some { p.setWorker i .ready with notifications := p.notifications - 1 }
      else none
  | none =>
      if 0 < p.notifications ∧ ∀ worker ∈ p.workers, worker.stage ≠ .waiting then
        some { p with notifications := p.notifications - 1 }
      else none

/-- The next step of the destructor after it has set `stop`. -/
def tearDown (p : ThreadPool τ) : Option (ThreadPool τ) :=
  match p.teardown with
  | .alive => none
  | .stopped => some { p with workers := p.workers.map Worker.wake, teardown := .joining 0 }
  | .joining joined =>
      if (p.workers[joined]?).map Worker.stage = some .exited then
        some { p with teardown := .joining (joined + 1) }
      else none

inductive Action (τ : Type)
  | enqueue (task : τ)
  | work (worker : Nat)
  | notifyOne (worker : Option Nat)
  /-- A sleeping worker wakes up for no reason. -/
  | spurious (worker : Nat)
  /-- The destructor sets `stop`. -/
  | destroy
  | tearDown

def step (p : ThreadPool τ) : Action τ → Option (ThreadPool τ)
  | .enqueue task => some (p.enqueue task)
  | .work i => p.work i
  | .notifyOne i => p.notifyOne i
  | .spurious i =>
      if (p.workers[i]?).map Worker.stage = some .waiting then some (p.setWorker i .ready) else none
  | .destroy =>
      if p.teardown = .alive then some { p with stop := true, teardown := .stopped } else none
  | .tearDown => p.tearDown

/-- The steps that the pool and its callers owe once a call has begun: not new
calls, and no wakeup without a reason. -/
def Action.isOwed : Action τ → Bool
  | .work _ | .notifyOne _ | .tearDown => true
  | _ => false

/-- The ways in which an action changes the pool. -/
inductive Shift (p : ThreadPool τ) : Action τ → ThreadPool τ → Prop
  | accept (task : τ) (hstop : p.stop = false) : Shift p (.enqueue task) { p with
      tasks := p.tasks ++ [task], notifications := p.notifications + 1
      accepted := p.accepted ++ [task] }
  | refuse (task : τ) (hstop : p.stop = true) : Shift p (.enqueue task)
      { p with refused := p.refused ++ [task] }
  | sleep (i : Nat) (hi : p.workers[i]? = some .ready) (htasks : p.tasks = [])
      (hstop : p.stop = false) : Shift p (.work i) (p.setWorker i .waiting)
  | exit (i : Nat) (hi : p.workers[i]? = some .ready) (htasks : p.tasks = [])
      (hstop : p.stop = true) : Shift p (.work i) (p.setWorker i .exited)
  | take (i : Nat) (task : τ) (rest : List τ) (hi : p.workers[i]? = some .ready)
      (htasks : p.tasks = task :: rest) : Shift p (.work i)
      { p.setWorker i (.running task) with tasks := rest, started := p.started ++ [task] }
  | finish (i : Nat) (task : τ) (hi : p.workers[i]? = some (.running task)) : Shift p (.work i)
      { p.setWorker i .ready with finished := p.finished ++ [task] }
  | notified (i : Nat) (worker : Worker τ) (hi : p.workers[i]? = some worker)
      (hstage : worker.stage = .waiting) (hdue : 0 < p.notifications) :
      Shift p (.notifyOne (some i))
        { p.setWorker i .ready with notifications := p.notifications - 1 }
  | unheard (hnone : ∀ worker ∈ p.workers, worker.stage ≠ .waiting) (hdue : 0 < p.notifications) :
      Shift p (.notifyOne none) { p with notifications := p.notifications - 1 }
  | spurious (i : Nat) (worker : Worker τ) (hi : p.workers[i]? = some worker)
      (hstage : worker.stage = .waiting) : Shift p (.spurious i) (p.setWorker i .ready)
  | destroy (halive : p.teardown = .alive) : Shift p .destroy
      { p with stop := true, teardown := .stopped }
  | rouse (hstopped : p.teardown = .stopped) : Shift p .tearDown
      { p with workers := p.workers.map Worker.wake, teardown := .joining 0 }
  | join (joined : Nat) (worker : Worker τ) (hjoining : p.teardown = .joining joined)
      (hworker : p.workers[joined]? = some worker) : Shift p .tearDown
      { p with teardown := .joining (joined + 1) }

theorem exists_of_stage {p : ThreadPool τ} {i : Nat} {stage : Stage}
    (h : p.workers[i]?.map Worker.stage = some stage) :
    ∃ worker : Worker τ, p.workers[i]? = some worker ∧ worker.stage = stage := by
  simpa using h

theorem step_cases {p p' : ThreadPool τ} {act : Action τ} (h : p.step act = some p') :
    Shift p act p' := by
  cases act with
  | enqueue task =>
      simp only [step, enqueue, Option.some.injEq] at h
      split at h
      · next hstop => exact h ▸ .refuse task hstop
      · next hstop => exact h ▸ .accept task (by simpa using hstop)
  | work i =>
      simp only [step, work] at h
      split at h
      · next hi =>
          simp only [fetch, Option.some.injEq] at h
          split at h
          · next htasks hstop => exact h ▸ .sleep i hi htasks hstop
          · next htasks hstop => exact h ▸ .exit i hi htasks hstop
          · next task rest htasks => exact h ▸ .take i task rest hi htasks
      · next task hi =>
          cases h
          exact .finish i task hi
      · cases h
  | notifyOne i =>
      cases i with
      | none =>
          simp only [step, notifyOne] at h
          split at h
          · next hnone =>
              cases h
              exact .unheard hnone.2 hnone.1
          · cases h
      | some i =>
          simp only [step, notifyOne] at h
          split at h
          · next hsleeps =>
              cases h
              obtain ⟨worker, hi, hstage⟩ := exists_of_stage hsleeps.2
              exact .notified i worker hi hstage hsleeps.1
          · cases h
  | spurious i =>
      simp only [step] at h
      split at h
      · next hsleeps =>
          cases h
          obtain ⟨worker, hi, hstage⟩ := exists_of_stage hsleeps
          exact .spurious i worker hi hstage
      · cases h
  | destroy =>
      simp only [step] at h
      split at h
      · next halive =>
          cases h
          exact .destroy halive
      · cases h
  | tearDown =>
      simp only [step, tearDown] at h
      split at h
      · cases h
      · next hstopped =>
          cases h
          exact .rouse hstopped
      · next joined hjoining =>
          split at h
          · next hexited =>
              cases h
              obtain ⟨worker, hworker, -⟩ := exists_of_stage hexited
              exact .join joined worker hjoining hworker
          · cases h

/-- The number of workers at a stage. -/
def staff (p : ThreadPool τ) (stage : Stage) : Nat := Library.tally Worker.stage stage p.workers

/-- The tasks that workers hold. -/
def inHand (p : ThreadPool τ) : List τ := p.workers.filterMap Worker.task

/-- What holds between any two steps of a pool with `threads` workers. -/
structure Sound (threads : Nat) (p : ThreadPool τ) : Prop where
  staffed : p.workers.length = threads
  queued : p.accepted = p.started ++ p.tasks
  executed : (p.finished ++ p.inHand).Perm p.started
  /-- No wakeup is lost: for each queued task somebody is awake or about to be woken. -/
  woken : 0 < p.staff .waiting →
    p.tasks.length ≤ p.staff .ready + p.staff .running + p.notifications
  stopped : p.stop = true ↔ p.teardown ≠ .alive
  exited : 0 < p.staff .exited → p.stop = true ∧ p.tasks = []
  roused : ∀ joined, p.teardown = .joining joined → p.staff .waiting = 0
  joined : ∀ joined, p.teardown = .joining joined → joined ≤ p.workers.length

theorem staff_setWorker {p : ThreadPool τ} {i : Nat} {worker : Worker τ}
    (hi : p.workers[i]? = some worker) (worker' : Worker τ) (stage : Stage) :
    (p.setWorker i worker').staff stage + (if worker.stage = stage then 1 else 0) =
      p.staff stage + if worker'.stage = stage then 1 else 0 :=
  Library.tally_modify hi (fun _ => worker') stage

theorem inHand_setWorker {p : ThreadPool τ} {i : Nat} {worker : Worker τ}
    (hi : p.workers[i]? = some worker) (worker' : Worker τ) :
    (worker.task.toList ++ (p.setWorker i worker').inHand).Perm
      (worker'.task.toList ++ p.inHand) :=
  Library.filterMap_modify_perm hi fun _ => worker'

theorem length_setWorker (p : ThreadPool τ) (i : Nat) (worker : Worker τ) :
    (p.setWorker i worker).workers.length = p.workers.length := List.length_modify ..

theorem staff_pos {p : ThreadPool τ} {i : Nat} {worker : Worker τ}
    (hi : p.workers[i]? = some worker) : 0 < p.staff worker.stage := Library.tally_pos hi

/-- A staffed stage has a worker. -/
theorem exists_of_staff_pos {p : ThreadPool τ} {stage : Stage} (h : 0 < p.staff stage) :
    ∃ (i : Nat) (worker : Worker τ), p.workers[i]? = some worker ∧ worker.stage = stage := by
  obtain ⟨worker, hmem, hstage⟩ := List.countP_pos_iff.mp h
  obtain ⟨i, hi⟩ := List.mem_iff_getElem?.mp hmem
  exact ⟨i, worker, hi, by simpa using hstage⟩

theorem task_of_waiting {worker : Worker τ} (h : worker.stage = .waiting) : worker.task = none := by
  cases worker <;> first | rfl | cases h

/-- Waking everybody moves the sleepers to the ready workers. -/
theorem staff_wake (workers : List (Worker τ)) :
    Library.tally Worker.stage .waiting (workers.map Worker.wake) = 0 ∧
      Library.tally Worker.stage .ready (workers.map Worker.wake) =
        Library.tally Worker.stage .ready workers + Library.tally Worker.stage .waiting workers ∧
      Library.tally Worker.stage .running (workers.map Worker.wake) =
        Library.tally Worker.stage .running workers ∧
      Library.tally Worker.stage .exited (workers.map Worker.wake) =
        Library.tally Worker.stage .exited workers := by
  induction workers with
  | nil => exact ⟨rfl, rfl, rfl, rfl⟩
  | cons worker rest ih =>
      obtain ⟨hwaiting, hready, hrunning, hexited⟩ := ih
      simp only [Library.tally] at hwaiting hready hrunning hexited ⊢
      cases worker <;> simp [Worker.wake, hwaiting, hready, hrunning, hexited,
        -List.countP_map, -List.countP_eq_zero] <;> omega

theorem inHand_wake (workers : List (Worker τ)) :
    (workers.map Worker.wake).filterMap Worker.task = workers.filterMap Worker.task := by
  rw [List.filterMap_map]
  congr 1
  funext worker
  cases worker <;> rfl

theorem sound_create (threads : Nat) : (create threads : ThreadPool τ).Sound threads where
  staffed := List.length_replicate ..
  queued := rfl
  executed := by
    simp [create, inHand, List.filterMap_replicate, Worker.task]
  woken _ := Nat.zero_le _
  stopped := by simp [create]
  exited h := by
    simp [create, staff, Library.tally, List.countP_replicate, Worker.stage] at h
  roused _ h := by simp [create] at h
  joined _ h := by simp [create] at h

/-- Sleeping, and waking a sleeper, leave the tasks alone. -/
theorem inHand_restage {p : ThreadPool τ} {i : Nat}
    {worker worker' : Worker τ} (hi : p.workers[i]? = some worker)
    (hhand : worker.task = none) (hhand' : worker'.task = none) :
    ((p.setWorker i worker').inHand).Perm p.inHand := by
  simpa [hhand, hhand'] using inHand_setWorker hi worker'

theorem Sound.accept {threads : Nat} {p : ThreadPool τ} (hp : p.Sound threads) (task : τ)
    (hstop : p.stop = false) :
    ({ p with tasks := p.tasks ++ [task], notifications := p.notifications + 1
              accepted := p.accepted ++ [task] } : ThreadPool τ).Sound threads := by
  refine ⟨hp.staffed, by simp [hp.queued], hp.executed, fun h => ?_, hp.stopped, fun h => ?_,
    hp.roused, hp.joined⟩
  · have hwoken := hp.woken h
    change (p.tasks ++ [task]).length ≤ p.staff .ready + p.staff .running + (p.notifications + 1)
    simp only [List.length_append, List.length_singleton]
    omega
  · rw [(hp.exited h).1] at hstop
    cases hstop

/-- With nothing to do a worker goes to sleep, or returns from a stopped pool. -/
theorem Sound.rest {threads : Nat} {p : ThreadPool τ} (hp : p.Sound threads) {i : Nat}
    {worker : Worker τ} (hi : p.workers[i]? = some .ready) (htasks : p.tasks = [])
    (hrest : p.stop = false ∧ worker = .waiting ∨ p.stop = true ∧ worker = .exited) :
    (p.setWorker i worker).Sound threads := by
  have hlength := length_setWorker p i worker
  have hone := staff_setWorker hi worker
  have hhand : worker.task = none := by
    obtain ⟨-, rfl⟩ | ⟨-, rfl⟩ := hrest <;> rfl
  refine ⟨hlength.trans hp.staffed, hp.queued, ?_, fun _ => ?_, hp.stopped, fun h => ?_,
    fun joined h => ?_, fun joined h => hlength ▸ hp.joined joined h⟩
  · exact ((inHand_restage hi rfl hhand).append_left _).trans hp.executed
  · change p.tasks.length ≤ _
    simp [htasks]
  · obtain ⟨-, rfl⟩ | ⟨hstop, -⟩ := hrest
    · have hexited := hone .exited
      simp only [Worker.stage_ready, Worker.stage_waiting, reduceCtorEq, if_false,
        Nat.add_zero] at hexited
      exact hp.exited (hexited ▸ h)
    · exact ⟨hstop, htasks⟩
  · have hset : p.stop = true := hp.stopped.mpr (by rw [show p.teardown = _ from h]; simp)
    obtain ⟨hstop, -⟩ | ⟨-, rfl⟩ := hrest
    · rw [hstop] at hset
      cases hset
    · have hwaiting := hone .waiting
      simp only [Worker.stage_ready, Worker.stage_exited, reduceCtorEq, if_false,
        Nat.add_zero] at hwaiting
      exact hwaiting.trans (hp.roused joined h)

theorem Sound.take {threads : Nat} {p : ThreadPool τ} (hp : p.Sound threads) {i : Nat} {task : τ}
    {rest : List τ} (hi : p.workers[i]? = some .ready) (htasks : p.tasks = task :: rest) :
    ({ p.setWorker i (.running task) with
        tasks := rest, started := p.started ++ [task] } : ThreadPool τ).Sound threads := by
  have hlength := length_setWorker p i (.running task)
  have hone := staff_setWorker hi (.running task)
  have hwaiting := hone .waiting
  have hready := hone .ready
  have hrunning := hone .running
  have hexited := hone .exited
  simp only [Worker.stage_ready, Worker.stage_running, reduceCtorEq, if_false, if_true,
    Nat.add_zero] at hwaiting hready hrunning hexited
  refine ⟨hlength.trans hp.staffed, ?_, ?_, fun h => ?_, hp.stopped, fun h => ?_,
    fun joined h => hwaiting.trans (hp.roused joined h), fun joined h =>
    hlength ▸ hp.joined joined h⟩
  · change p.accepted = (p.started ++ [task]) ++ rest
    simp [hp.queued, htasks]
  · have hhand : (p.setWorker i (.running task)).inHand.Perm (task :: p.inHand) := by
      simpa [Worker.task] using inHand_setWorker hi (.running task)
    have hall : (p.finished ++ (p.setWorker i (.running task)).inHand).Perm
        (task :: (p.finished ++ p.inHand)) := (hhand.append_left _).trans List.perm_middle
    exact hall.trans ((hp.executed.cons task).trans (List.perm_append_singleton task _).symm)
  · have hwoken := hp.woken (hwaiting ▸ h)
    rw [htasks, List.length_cons] at hwoken
    change rest.length ≤ (p.setWorker i (.running task)).staff .ready +
      (p.setWorker i (.running task)).staff .running + p.notifications
    omega
  · have hnone := (hp.exited (hexited ▸ h)).2
    rw [htasks] at hnone
    cases hnone

/-- A task is done; its worker goes back to the queue. -/
theorem Sound.finish {threads : Nat} {p : ThreadPool τ} (hp : p.Sound threads) {i : Nat} {task : τ}
    (hi : p.workers[i]? = some (.running task)) :
    ({ p.setWorker i .ready with finished := p.finished ++ [task] } : ThreadPool τ).Sound
    threads := by
  have hlength := length_setWorker p i .ready
  have hone := staff_setWorker hi .ready
  have hwaiting := hone .waiting
  have hready := hone .ready
  have hrunning := hone .running
  have hexited := hone .exited
  simp only [Worker.stage_ready, Worker.stage_running, reduceCtorEq, if_false, if_true,
    Nat.add_zero] at hwaiting hready hrunning hexited
  refine ⟨hlength.trans hp.staffed, hp.queued, ?_, fun h => ?_, hp.stopped, fun h => ?_,
    fun joined h => ?_, fun joined h => ?_⟩
  · have hhand : (task :: (p.setWorker i .ready).inHand).Perm p.inHand := by
      simpa [Worker.task] using inHand_setWorker hi .ready
    have hall : (p.finished ++ [task] ++ (p.setWorker i .ready).inHand).Perm
        (p.finished ++ p.inHand) := by
      rw [List.append_assoc]
      exact hhand.append_left _
    exact hall.trans hp.executed
  · have hwoken := hp.woken (hwaiting ▸ h)
    change p.tasks.length ≤ (p.setWorker i .ready).staff .ready +
      (p.setWorker i .ready).staff .running + p.notifications
    omega
  · exact hp.exited (hexited ▸ h)
  · exact hwaiting.trans (hp.roused joined h)
  · exact hlength ▸ hp.joined joined h

/-- A sleeper wakes up; at most one outstanding notification is used up by it. -/
theorem Sound.wake {threads : Nat} {p : ThreadPool τ} (hp : p.Sound threads) {i : Nat}
    {worker : Worker τ} (hi : p.workers[i]? = some worker) (hstage : worker.stage = .waiting)
    {notifications : Nat} (hless : p.notifications ≤ notifications + 1) :
    ({ p.setWorker i .ready with notifications := notifications } : ThreadPool τ).Sound
    threads := by
  have hlength := length_setWorker p i .ready
  have hone := staff_setWorker hi .ready
  have hwaiting := hone .waiting
  have hready := hone .ready
  have hrunning := hone .running
  have hexited := hone .exited
  simp only [Worker.stage_ready, hstage, reduceCtorEq, if_false, if_true,
    Nat.add_zero] at hwaiting hready hrunning hexited
  have hsome : 0 < p.staff .waiting := hstage ▸ staff_pos hi
  refine ⟨hlength.trans hp.staffed, hp.queued, ?_, fun _ => ?_, hp.stopped, fun h => ?_,
    fun joined h => ?_, fun joined h => ?_⟩
  · exact ((inHand_restage hi (task_of_waiting hstage) rfl).append_left _).trans hp.executed
  · have hwoken := hp.woken hsome
    change p.tasks.length ≤ (p.setWorker i .ready).staff .ready +
      (p.setWorker i .ready).staff .running + notifications
    omega
  · exact hp.exited (hexited ▸ h)
  · have hnone := hp.roused joined h
    omega
  · exact hlength ▸ hp.joined joined h

/-- Nobody sleeps, so a notification can be dropped. -/
theorem Sound.notifyNobody {threads : Nat} {p : ThreadPool τ} (hp : p.Sound threads)
    (hnone : ∀ worker ∈ p.workers, worker.stage ≠ .waiting) (notifications : Nat) :
    ({ p with notifications := notifications } : ThreadPool τ).Sound threads := by
  refine ⟨hp.staffed, hp.queued, hp.executed, fun h => ?_, hp.stopped, hp.exited, hp.roused,
    hp.joined⟩
  obtain ⟨i, worker, hi, hstage⟩ := exists_of_staff_pos h
  exact absurd hstage (hnone worker (List.mem_of_getElem? hi))

theorem Sound.destroy {threads : Nat} {p : ThreadPool τ} (hp : p.Sound threads) :
    ({ p with stop := true, teardown := .stopped } : ThreadPool τ).Sound threads where
  staffed := hp.staffed
  queued := hp.queued
  executed := hp.executed
  woken := hp.woken
  stopped := by simp
  exited h := ⟨rfl, (hp.exited h).2⟩
  roused _ h := by cases h
  joined _ h := by cases h

theorem Sound.rouse {threads : Nat} {p : ThreadPool τ} (hp : p.Sound threads)
    (hstopped : p.teardown = .stopped) :
    ({ p with workers := p.workers.map Worker.wake, teardown := .joining 0 } :
      ThreadPool τ).Sound threads := by
  obtain ⟨hwaiting, -, -, hexited⟩ := staff_wake p.workers
  refine ⟨by simpa using hp.staffed, hp.queued, ?_, fun h => ?_, ?_, fun h => ?_,
    fun _ _ => hwaiting, fun joined h => ?_⟩
  · change (p.finished ++ (p.workers.map Worker.wake).filterMap Worker.task).Perm p.started
    rw [inHand_wake]
    exact hp.executed
  · change 0 < Library.tally _ _ (p.workers.map Worker.wake) at h
    omega
  · have hstop := hp.stopped.mpr (by simp [hstopped])
    simp [hstop]
  · change 0 < Library.tally _ _ (p.workers.map Worker.wake) at h
    exact hp.exited (show 0 < Library.tally _ _ p.workers from hexited ▸ h)
  · cases h
    exact Nat.zero_le _

theorem Sound.join {threads : Nat} {p : ThreadPool τ} (hp : p.Sound threads) {joined : Nat}
    {worker : Worker τ} (hjoining : p.teardown = .joining joined)
    (hworker : p.workers[joined]? = some worker) :
    ({ p with teardown := .joining (joined + 1) } : ThreadPool τ).Sound threads := by
  have hstop := hp.stopped.mpr (by simp [hjoining])
  refine ⟨hp.staffed, hp.queued, hp.executed, hp.woken, by simp [hstop], hp.exited,
    fun _ _ => hp.roused joined hjoining, fun joined' h => ?_⟩
  cases h
  exact (List.getElem?_eq_some_iff.mp hworker).1

/-- Every step keeps the invariant. -/
theorem Sound.step {threads : Nat} {p p' : ThreadPool τ} (hp : p.Sound threads) {act : Action τ}
    (h : p.step act = some p') : p'.Sound threads := by
  cases step_cases h with
  | accept task hstop => exact hp.accept task hstop
  | refuse task _ =>
      exact ⟨hp.staffed, hp.queued, hp.executed, hp.woken, hp.stopped, hp.exited, hp.roused,
        hp.joined⟩
  | sleep i hi htasks hstop => exact hp.rest hi htasks (.inl ⟨hstop, rfl⟩)
  | exit i hi htasks hstop => exact hp.rest hi htasks (.inr ⟨hstop, rfl⟩)
  | take i task rest hi htasks => exact hp.take hi htasks
  | finish i task hi => exact hp.finish hi
  | notified i worker hi hstage hdue => exact hp.wake hi hstage (by omega)
  | unheard hnone _ => exact hp.notifyNobody hnone _
  | spurious i worker hi hstage => exact hp.wake hi hstage (Nat.le_succ _)
  | destroy _ => exact hp.destroy
  | rouse hstopped => exact hp.rouse hstopped
  | join joined worker hjoining hworker => exact hp.join hjoining hworker

/-- The invariant in every run of a new pool. -/
theorem sound_of_run {threads : Nat} {p : ThreadPool τ}
    (hrun : Library.Run step Library.anyStep (create threads) p) : p.Sound threads :=
  hrun.induct (sound_create threads) fun _ _ _ hp _ hs => hp.step hs

/-! ## Every accepted task runs once -/

/-- Nothing is accepted after `stop` is set. -/
theorem accepted_of_stop {p p' : ThreadPool τ} (hstop : p.stop = true) {act : Action τ}
    (h : p.step act = some p') : p'.stop = true ∧ p'.accepted = p.accepted := by
  cases step_cases h with
  | accept task hgoing =>
      rw [hstop] at hgoing
      cases hgoing
  | destroy _ => exact ⟨rfl, rfl⟩
  | _ => exact ⟨hstop, rfl⟩

/-- Accepted tasks are taken in the order of their acceptance; each one that was
taken has finished or is held by one worker; a stopped pool accepts nothing. -/
theorem runs_each_once {threads : Nat} {p : ThreadPool τ}
    (hrun : Library.Run step Library.anyStep (create threads) p) :
    p.accepted = p.started ++ p.tasks ∧ (p.finished ++ p.inHand).Perm p.started ∧
      (p.stop = true → ∀ p', Library.Run step Library.anyStep p p' → p'.accepted = p.accepted) := by
  have hp := sound_of_run hrun
  refine ⟨hp.queued, hp.executed, fun hstop p' hlater => ?_⟩
  have hboth : p'.stop = true ∧ p'.accepted = p.accepted := by
    clear hrun hp
    induction hlater with
    | start => exact ⟨hstop, rfl⟩
    | step act _ _ hs ih =>
        obtain ⟨hstop', hsame⟩ := accepted_of_stop ih.1 hs
        exact ⟨hstop', hsame.trans ih.2⟩
  exact hboth.2

/-- Two workers: one runs the first task, the other sleeps while the second task
is queued and the pool is being destroyed. -/
def halfway : ThreadPool Nat where
  workers := [.waiting, .running 1]
  tasks := [2]
  stop := true
  teardown := .stopped
  notifications := 2
  accepted := [1, 2]
  started := [1]
  finished := []
  refused := [3]

theorem execute_halfway : Library.execute step Library.anyStep (create 2)
    [.enqueue 1, .work 1, .work 0, .enqueue 2, .destroy, .enqueue 3] = some halfway := by
  decide

theorem runs_each_once_halfway :
    halfway.accepted = halfway.started ++ halfway.tasks ∧
      (halfway.finished ++ halfway.inHand).Perm halfway.started ∧
      (halfway.stop = true →
        ∀ p', Library.Run step Library.anyStep halfway p' → p'.accepted = [1, 2]) :=
  runs_each_once (.of_execute execute_halfway)

/-! ## The pool drains -/

/-- The steps owed in every state. -/
def owed (_ : ThreadPool τ) (act : Action τ) : Prop := act.isOwed = true

instance (p : ThreadPool τ) (act : Action τ) : Decidable (p.owed act) :=
  inferInstanceAs (Decidable (_ = _))

/-- What is left of a destructor. -/
def Teardown.left (threads : Nat) : Teardown → Nat
  | .alive => 0
  | .stopped => 2 * threads + 1
  | .joining joined => threads - joined

/-- A bound on the number of owed steps. -/
def debt (p : ThreadPool τ) : Nat :=
  2 * p.tasks.length + 2 * p.notifications + p.staff .ready + 2 * p.staff .running +
    Teardown.left p.workers.length p.teardown

/-- All that was accepted has finished, and a stopped pool is joined. -/
structure Drained (p : ThreadPool τ) : Prop where
  tasks : p.tasks = []
  finished : p.finished.Perm p.accepted
  joined : p.stop = true →
    p.teardown = .joining p.workers.length ∧ ∀ worker ∈ p.workers, worker = .exited

/-- An owed step pays off some of the debt. -/
theorem debt_lt {p p' : ThreadPool τ} {act : Action τ} (howed : p.owed act)
    (h : p.step act = some p') : p'.debt < p.debt := by
  have hworker {i : Nat} {worker : Worker τ} (hi : p.workers[i]? = some worker)
      (worker' : Worker τ) :
      (p.setWorker i worker').workers.length = p.workers.length ∧
        (p.setWorker i worker').staff .ready + (if worker.stage = .ready then 1 else 0) =
          p.staff .ready + (if worker'.stage = .ready then 1 else 0) ∧
        (p.setWorker i worker').staff .running + (if worker.stage = .running then 1 else 0) =
          p.staff .running + (if worker'.stage = .running then 1 else 0) :=
    ⟨length_setWorker p i worker', staff_setWorker hi worker' .ready,
      staff_setWorker hi worker' .running⟩
  cases step_cases h with
  | accept task _ => cases howed
  | refuse task _ => cases howed
  | spurious i worker _ _ => cases howed
  | destroy _ => cases howed
  | sleep i hi htasks hstop =>
      obtain ⟨hlength, hready, hrunning⟩ := hworker hi .waiting
      simp only [Worker.stage_ready, Worker.stage_waiting, reduceCtorEq, if_true, if_false,
        Nat.add_zero] at hready hrunning
      change 2 * p.tasks.length + 2 * p.notifications + (p.setWorker i .waiting).staff .ready +
        2 * (p.setWorker i .waiting).staff .running +
        Teardown.left (p.setWorker i .waiting).workers.length p.teardown < p.debt
      rw [hlength, hrunning, debt]
      omega
  | exit i hi htasks hstop =>
      obtain ⟨hlength, hready, hrunning⟩ := hworker hi .exited
      simp only [Worker.stage_ready, Worker.stage_exited, reduceCtorEq, if_true, if_false,
        Nat.add_zero] at hready hrunning
      change 2 * p.tasks.length + 2 * p.notifications + (p.setWorker i .exited).staff .ready +
        2 * (p.setWorker i .exited).staff .running +
        Teardown.left (p.setWorker i .exited).workers.length p.teardown < p.debt
      rw [hlength, hrunning, debt]
      omega
  | take i task rest hi htasks =>
      obtain ⟨hlength, hready, hrunning⟩ := hworker hi (.running task)
      simp only [Worker.stage_ready, Worker.stage_running, reduceCtorEq, if_true, if_false,
        Nat.add_zero] at hready hrunning
      change 2 * rest.length + 2 * p.notifications + (p.setWorker i (.running task)).staff .ready +
        2 * (p.setWorker i (.running task)).staff .running +
        Teardown.left (p.setWorker i (.running task)).workers.length p.teardown < p.debt
      rw [hlength, hrunning, debt, htasks, List.length_cons]
      omega
  | finish i task hi =>
      obtain ⟨hlength, hready, hrunning⟩ := hworker hi .ready
      simp only [Worker.stage_ready, Worker.stage_running, reduceCtorEq, if_true, if_false,
        Nat.add_zero] at hready hrunning
      change 2 * p.tasks.length + 2 * p.notifications + (p.setWorker i .ready).staff .ready +
        2 * (p.setWorker i .ready).staff .running +
        Teardown.left (p.setWorker i .ready).workers.length p.teardown < p.debt
      rw [hlength, hready, debt]
      omega
  | notified i worker hi hstage hdue =>
      obtain ⟨hlength, hready, hrunning⟩ := hworker hi .ready
      simp only [Worker.stage_ready, hstage, reduceCtorEq, if_true, if_false,
        Nat.add_zero] at hready hrunning
      change 2 * p.tasks.length + 2 * (p.notifications - 1) + (p.setWorker i .ready).staff .ready +
        2 * (p.setWorker i .ready).staff .running +
        Teardown.left (p.setWorker i .ready).workers.length p.teardown < p.debt
      rw [hlength, hready, hrunning, debt]
      omega
  | unheard _ hdue =>
      simp only [debt, staff]
      omega
  | rouse hstopped =>
      obtain ⟨-, hready, hrunning, -⟩ := staff_wake p.workers
      have hfew : Library.tally Worker.stage .waiting p.workers ≤ p.workers.length :=
        Library.tally_le_length _
      simp only [debt, staff, hready, hrunning, hstopped, Teardown.left, List.length_map]
      omega
  | join joined worker hjoining hworker =>
      have hless := (List.getElem?_eq_some_iff.mp hworker).1
      simp only [debt, staff, hjoining, Teardown.left]
      omega

/-- Without an owed step there is nothing left to do. -/
theorem Sound.drained {threads : Nat} (hthreads : 0 < threads) {p : ThreadPool τ}
    (hp : p.Sound threads) (hstuck : ∀ act, p.owed act → p.step act = none) : p.Drained := by
  have hidle : ∀ {i : Nat} {worker : Worker τ}, p.workers[i]? = some worker →
      worker.stage = .waiting ∨ worker.stage = .exited := by
    intro i worker hi
    have hwork := hstuck (.work i) rfl
    cases worker with
    | ready => simp [ThreadPool.step, work, hi] at hwork
    | running task => simp [ThreadPool.step, work, hi] at hwork
    | waiting => exact .inl rfl
    | exited => exact .inr rfl
  have hready : p.staff .ready = 0 := by
    by_contra hsome
    obtain ⟨i, worker, hi, hstage⟩ := exists_of_staff_pos (Nat.pos_of_ne_zero hsome)
    obtain h | h := hidle hi <;> rw [hstage] at h <;> cases h
  have hrunning : p.staff .running = 0 := by
    by_contra hsome
    obtain ⟨i, worker, hi, hstage⟩ := exists_of_staff_pos (Nat.pos_of_ne_zero hsome)
    obtain h | h := hidle hi <;> rw [hstage] at h <;> cases h
  have hdue : p.notifications = 0 := by
    by_contra hsome
    by_cases hasleep : 0 < p.staff .waiting
    · obtain ⟨i, worker, hi, hstage⟩ := exists_of_staff_pos hasleep
      have hnotify := hstuck (.notifyOne (some i)) rfl
      simp [ThreadPool.step, notifyOne, hi, hstage, Nat.pos_of_ne_zero hsome] at hnotify
    · have hnotify := hstuck (.notifyOne none) rfl
      have hnone : ∀ worker ∈ p.workers, worker.stage ≠ .waiting := by
        intro worker hmem hstage
        obtain ⟨i, hi⟩ := List.mem_iff_getElem?.mp hmem
        exact hasleep (hstage ▸ staff_pos hi)
      simp only [ThreadPool.step, notifyOne] at hnotify
      rw [if_pos ⟨Nat.pos_of_ne_zero hsome, hnone⟩] at hnotify
      cases hnotify
  have htasks : p.tasks = [] := by
    obtain ⟨i, hi⟩ : ∃ worker, p.workers[0]? = some worker :=
      ⟨_, List.getElem?_eq_getElem (by rw [hp.staffed]; exact hthreads)⟩
    obtain hstage | hstage := hidle hi
    · have hwoken := hp.woken (hstage ▸ staff_pos hi)
      exact List.length_eq_zero_iff.mp (by omega)
    · exact (hp.exited (hstage ▸ staff_pos hi)).2
  refine ⟨htasks, ?_, fun hstop => ?_⟩
  · have hhand : p.inHand = [] := by
      refine List.filterMap_eq_nil_iff.mpr fun worker hmem => ?_
      obtain ⟨i, hi⟩ := List.mem_iff_getElem?.mp hmem
      have hstage := hidle hi
      cases worker <;> first | rfl | simp at hstage
    have hexecuted := hp.executed
    rw [hhand, List.append_nil] at hexecuted
    rw [hp.queued, htasks, List.append_nil]
    exact hexecuted
  · cases hteardown : p.teardown with
    | alive => exact absurd hteardown (hp.stopped.mp hstop)
    | stopped =>
        have htear := hstuck .tearDown rfl
        simp [ThreadPool.step, tearDown, hteardown] at htear
    | joining joined =>
        have hgone : ∀ worker ∈ p.workers, worker = .exited := by
          intro worker hmem
          obtain ⟨i, hi⟩ := List.mem_iff_getElem?.mp hmem
          have hasleep := hp.roused joined hteardown
          obtain hstage | hstage := hidle hi
          · have hsome := staff_pos hi
            rw [hstage] at hsome
            omega
          · cases worker <;> first | rfl | cases hstage
        refine ⟨?_, hgone⟩
        have hless := hp.joined joined hteardown
        by_contra hshort
        have hnext : joined < p.workers.length := by
          refine Nat.lt_of_le_of_ne hless fun hall => hshort ?_
          rw [hall]
        have htear := hstuck .tearDown rfl
        simp [ThreadPool.step, tearDown, hteardown, List.getElem?_eq_getElem hnext,
          hgone _ (List.getElem_mem hnext)] at htear

/-- From any state of a pool that has a worker, the owed steps come to an end,
and they end with every accepted task finished. -/
theorem drains {threads : Nat} (hthreads : 0 < threads) {p p' : ThreadPool τ}
    (hrun : Library.Run step Library.anyStep (create threads) p) {acts : List (Action τ)}
    (hexec : Library.execute step owed p acts = some p') :
    acts.length ≤ p.debt ∧ ((∀ act, p'.owed act → p'.step act = none) → p'.Drained) := by
  have hp := sound_of_run hrun
  have hbound := Library.length_le_of_execute (Sound threads) debt
    (fun _ _ _ hs _ hstep => hs.step hstep) (fun _ _ _ _ howed hstep => debt_lt howed hstep)
    hp hexec
  have hp' : p'.Sound threads :=
    (Library.Run.of_execute hexec).induct hp fun _ _ _ hs _ hstep => hs.step hstep
  exact ⟨by omega, hp'.drained hthreads⟩

/-- The pool of `halfway` after its destructor. -/
def dismantled : ThreadPool Nat where
  workers := [.exited, .exited]
  tasks := []
  stop := true
  teardown := .joining 2
  notifications := 0
  accepted := [1, 2]
  started := [1, 2]
  finished := [1, 2]
  refused := [3]

theorem drains_halfway :
    10 ≤ halfway.debt ∧
      ((∀ act, dismantled.owed act → dismantled.step act = none) → dismantled.Drained) := by
  have hexec : Library.execute step owed halfway
      [.notifyOne (some 0), .notifyOne none, .work 0, .work 1, .work 0, .work 0, .tearDown, .work 1,
        .tearDown, .tearDown] = some dismantled := by
    decide
  exact drains (by decide : 0 < 2) (.of_execute execute_halfway) hexec

end ThreadPool

end Gopherwood
