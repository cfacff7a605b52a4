/-
# Evicting on demand

`AdminActiveStatus::evictNumOfBlocks` as one call. Its loop neither counts off what is
left to evict nor counts what it has evicted, and it finishes an eviction in every round,
also when it has marked no bucket. It leaves the loop only by an exception.
-/

import Gopherwood.File.Deletion
import Gopherwood.Library.Pairing

namespace Gopherwood

open Library (Run execute anyStep)
open Library.Pairing (Event Paired)
open SharedMemoryContext (EvictResult)

/-- What an admin finds at the two locks of a round. -/
structure AdminSurroundings where
  marking : SharedMem
  finishing : SharedMem
  folder : ManifestFolder

/-- How far a call of `evictNumOfBlocks` has come. -/
inductive EvictingCall
  | running (numToEvict numEvicted : Int) (found : Bool) (info : BlockInfo)
  | returned (value : Int)
  | threw (e : GwError)

namespace AdminActiveStatus

/-- The loop condition. -/
def loopHead (numToEvict numEvicted : Int) (found : Bool) (info : BlockInfo) : EvictingCall :=
  if numToEvict > 0 then .running numToEvict numEvicted found info else .returned numEvicted

/-- The first critical section of a round. `getUsedBucketNum` returns an `int32_t`. -/
def markSection (activeId : Nat) (found : Bool) (info : BlockInfo) : ShmM (Bool × BlockInfo) := do
  let s ← get
  if 0 < s.header.numUsedBuckets ∧ s.header.numUsedBuckets < 2 ^ 31 then
    let info ← SharedMemoryContext.markBucketEvicting activeId
    return (true, info)
  else
    return (found, info)

/-- The second critical section of a round, with `logEvictBlock`. -/
def finishSection (activeId : Nat) (folder : ManifestFolder) (info : BlockInfo) :
    ShmM EvictResult := do
  let rc ← SharedMemoryContext.evictBucketFinishAndTryFree info.bucketId activeId
  if rc = .finished ∧ folder.isLinked info.fileId = false then
    throw (.invalidParm "[ActiveStatus::ActiveStatus] File does not exist")
  return rc

/-- One round of the loop, with requests to the object store that succeed. -/
def nextRound (activeId : Nat) (s : AdminSurroundings) : EvictingCall → EvictingCall
  | .running numToEvict numEvicted found info =>
      match markSection activeId found info s.marking with
      | .error e _ => .threw e
      | .ok (found, info) _ =>
          match finishSection activeId s.folder info s.finishing with
          | .error e _ => .threw e
          | .ok _ _ => loopHead numToEvict numEvicted found info
  | .returned value => .returned value
  | .threw e => .threw e

/-- `evictNumOfBlocks` after `k` rounds. -/
def evictNumOfBlocks (activeId : Nat) (env : Nat → AdminSurroundings) (num : Int) :
    Nat → EvictingCall
  | 0 => loopHead num 0 false .invalid
  | k + 1 => nextRound activeId (env k) (evictNumOfBlocks activeId env num k)

/-- The victims that a round marks, uploads and finishes. -/
def roundEvents (activeId : Nat) (s : AdminSurroundings) : EvictingCall → List (Event BlockInfo)
  | .running _ _ found info =>
      match markSection activeId found info s.marking with
      | .error _ _ => []
      | .ok (found, info) _ =>
          (if 0 < s.marking.header.numUsedBuckets ∧ s.marking.header.numUsedBuckets < 2 ^ 31 then
            [.start info] else []) ++ (if found then [.use info] else []) ++ [.finish info]
  | .returned _ => []
  | .threw _ => []

def victimEvents (activeId : Nat) (env : Nat → AdminSurroundings) (num : Int) :
    Nat → List (Event BlockInfo)
  | 0 => []
  | k + 1 => victimEvents activeId env num k ++
      roundEvents activeId (env k) (evictNumOfBlocks activeId env num k)

/-- The answer of `evictBucketFinishAndTryFree` in a round. -/
def endOfRound (activeId : Nat) (s : AdminSurroundings) : EvictingCall → Option EvictResult
  | .running _ _ found info =>
      match markSection activeId found info s.marking with
      | .error _ _ => none
      | .ok (_, info) _ =>
          match SharedMemoryContext.evictBucketFinishAndTryFree info.bucketId activeId
            s.finishing with
          | .error _ _ => none
          | .ok rc _ => some rc
  | .returned _ => none
  | .threw _ => none

/-- How often an answer was given in `k` rounds. -/
def answers (activeId : Nat) (env : Nat → AdminSurroundings) (num : Int) (p : EvictResult → Bool) :
    Nat → Nat
  | 0 => 0
  | k + 1 => answers activeId env num p k +
      if (endOfRound activeId (env k) (evictNumOfBlocks activeId env num k)).any p then 1 else 0

/-- The segment after the first section of a round. -/
def afterMark (activeId : Nat) (s : SharedMem) : EvictingCall → SharedMem
  | .running _ _ found info => Library.after (markSection activeId found info) s
  | _ => s

/-- The segment after the second section of a round. -/
def afterFinish (activeId : Nat) (s : AdminSurroundings) : EvictingCall → SharedMem
  | .running _ _ found info =>
      match markSection activeId found info s.marking with
      | .error _ _ => s.finishing
      | .ok (_, info) _ => Library.after
          (SharedMemoryContext.evictBucketFinishAndTryFree info.bucketId activeId) s.finishing
  | _ => s.finishing

/-- Nobody else touches the segment during the call. -/
def Undisturbed (activeId : Nat) (env : Nat → AdminSurroundings) (num : Int) : Prop :=
  ∀ k, (env k).finishing = afterMark activeId (env k).marking
    (evictNumOfBlocks activeId env num k) ∧ (env (k + 1)).marking = afterFinish activeId (env k)
      (evictNumOfBlocks activeId env num k)

/-- The number of buckets that can be evicted. -/
def candidates (s : SharedMem) : Nat :=
  s.buckets.countP fun x => x.isUsedBucket && !x.evicting

/-- What `gwEvictBlocks` promises: it returns the number of blocks that it has evicted,
has freed no more buckets than it was asked for, and finishes only evictions of buckets
that it has marked and not yet finished. -/
structure EvictsAsAsked (activeId : Nat) (env : Nat → AdminSurroundings) (num : Int) : Prop where
  returns : ∃ k value, evictNumOfBlocks activeId env num k = .returned value ∧
    value = answers activeId env num (· = .finished) k ∧
    answers activeId env num (· ≠ .stolen) k ≤ num ∧
    (Undisturbed activeId env num → value = min num (candidates (env 0).marking))
  paired : ∀ k, Paired (victimEvents activeId env num k)

variable {activeId : Nat} {env : Nat → AdminSurroundings} {num : Int}

/-- Every round leaves the two counters as they were. -/
theorem nextRound_running {s : AdminSurroundings} {numToEvict numEvicted : Int} {found : Bool}
    {info : BlockInfo} (hmore : 0 < numToEvict) :
    (∃ e, nextRound activeId s (.running numToEvict numEvicted found info) = .threw e) ∨
      ∃ found' info', nextRound activeId s (.running numToEvict numEvicted found info) =
        .running numToEvict numEvicted found' info' := by
  unfold nextRound
  dsimp only
  split
  · exact Or.inl ⟨_, rfl⟩
  · split
    · exact Or.inl ⟨_, rfl⟩
    · exact Or.inr ⟨_, _, if_pos hmore⟩

/-- After any number of rounds the call is still in the loop, or has thrown. -/
theorem evictNumOfBlocks_loops (env : Nat → AdminSurroundings) (hnum : 0 < num) (k : Nat) :
    (∃ e, evictNumOfBlocks activeId env num k = .threw e) ∨
      ∃ found info, evictNumOfBlocks activeId env num k = .running num 0 found info := by
  induction k with
  | zero => exact Or.inr ⟨_, _, if_pos hnum⟩
  | succ k ih =>
      unfold evictNumOfBlocks
      rcases ih with ⟨e, he⟩ | ⟨found, info, hrunning⟩
      · rw [he]
        exact Or.inl ⟨e, rfl⟩
      · rw [hrunning]
        exact nextRound_running hnum

/-- No call that is asked for blocks does what it is asked. -/
theorem not_evictsAsAsked (activeId : Nat) (env : Nat → AdminSurroundings) (num : Int)
    (hnum : 0 < num) : ¬ EvictsAsAsked activeId env num := by
  intro hasked
  obtain ⟨k, value, hreturned, -⟩ := hasked.returns
  rcases evictNumOfBlocks_loops env hnum k with ⟨e, he⟩ | ⟨found, info, hrunning⟩
  · rw [hreturned] at he
    cases he
  · rw [hreturned] at hrunning
    cases hrunning

end AdminActiveStatus

namespace World

variable {cfg : Config} {w w' : World} {n a : Nat} {x : AdminActiveStatus} {found : Bool}
  {info : Option BlockInfo}

/-- The first critical section of a round in the system. -/
theorem stepAdmin_mark (hpc : x.pc = .mark found info) (hid : x.activeId = some a)
    (hfound : found = true → ∃ victim, info = some victim) (hstep : w.stepAdmin cfg n x = some w') :
    w'.admins = w.admins.set n { x with
      pc := match AdminActiveStatus.markSection a found (info.getD .invalid) w.shm with
        | .error _ _ => .idle
        | .ok (true, victim) _ => .evictRead victim
        | .ok (false, _) _ => .finish found info } := by
  obtain ⟨pid, activeId, pc⟩ := x
  obtain rfl : pc = .mark found info := hpc
  obtain rfl : activeId = some a := hid
  simp only [stepAdmin, Option.some.injEq] at hstep
  subst hstep
  simp only [AdminActiveStatus.markSection, Library.run_bind, Library.run_get]
  by_cases hused : 0 < w.shm.header.numUsedBuckets ∧ w.shm.header.numUsedBuckets < 2 ^ 31
  · simp only [if_pos hused, Library.run_bind]
    cases SharedMemoryContext.markBucketEvicting a w.shm with
    | ok victim s => rfl
    | error e s => rfl
  · simp only [if_neg hused, Library.run_pure]
    cases found with
    | true =>
        obtain ⟨victim, rfl⟩ := hfound rfl
        rfl
    | false => rfl

/-- The second critical section of a round in the system. -/
theorem stepAdmin_finish (hpc : x.pc = .finish found info) (hid : x.activeId = some a)
    (hstep : w.stepAdmin cfg n x = some w') :
    w'.admins = w.admins.set n { x with
      pc := match AdminActiveStatus.finishSection a w.folder (info.getD .invalid) w.shm with
        | .error _ _ => .idle
        | .ok _ _ => .mark found info } := by
  obtain ⟨pid, activeId, pc⟩ := x
  obtain rfl : pc = .finish found info := hpc
  obtain rfl : activeId = some a := hid
  simp only [stepAdmin, Option.some.injEq] at hstep
  subst hstep
  have hbucket : (info.getD .invalid).bucketId = info.bind BlockInfo.bucketId := by
    cases info with
    | none => rfl
    | some victim => rfl
  simp only [adminFinish, AdminActiveStatus.finishSection, Library.run_bind, hbucket]
  cases hrun : SharedMemoryContext.evictBucketFinishAndTryFree (info.bind BlockInfo.bucketId) a
      w.shm with
  | error e s => rfl
  | ok rc s =>
      cases info with
      | none =>
          have hstolen : rc = .stolen := by
            rcases SharedMemoryContext.evictBucketFinishAndTryFree_cases none a w.shm with
              ⟨s', hs', -⟩ | ⟨e, s', hs', -⟩ | ⟨i, y, s', hi, -⟩
            · rw [show (none : Option BlockInfo).bind BlockInfo.bucketId = none from rfl, hs',
                EStateM.Result.ok.injEq] at hrun
              exact hrun.1.symm
            · rw [show (none : Option BlockInfo).bind BlockInfo.bucketId = none from rfl,
                hs'] at hrun
              cases hrun
            · cases hi
          subst hstolen
          rfl
      | some victim =>
          dsimp only [Option.getD_some]
          by_cases hfinished : rc = .finished
          · subst hfinished
            by_cases hlinked : w.folder.isLinked victim.fileId = true
            · have hlogs : ¬ (EvictResult.finished = .finished ∧
                  w.folder.isLinked victim.fileId = false) := by simp [hlinked]
              rw [if_neg hlogs, if_pos rfl, if_pos hlinked, adminLogEvict]
              split
              · rfl
              · rfl
            · have hthrows : EvictResult.finished = .finished ∧
                  w.folder.isLinked victim.fileId = false := ⟨rfl, Bool.not_eq_true _ ▸ hlinked⟩
              rw [if_pos hthrows, if_pos rfl, if_neg hlinked]
              rfl
          · have hreturns : ¬ (rc = .finished ∧ w.folder.isLinked victim.fileId = false) :=
              fun h => hfinished h.1
            simp only [if_neg hfinished, if_neg hreturns]
            rfl

/-- The segment before a round of an admin whom nobody disturbs, and its call. -/
def alone (activeId : Nat) (folder : ManifestFolder) (num : Int) (s : SharedMem) :
    Nat → SharedMem × EvictingCall
  | 0 => (s, AdminActiveStatus.loopHead num 0 false .invalid)
  | k + 1 =>
      let (s, call) := alone activeId folder num s k
      let found : AdminSurroundings := ⟨s, AdminActiveStatus.afterMark activeId s call, folder⟩
      (AdminActiveStatus.afterFinish activeId found call,
        AdminActiveStatus.nextRound activeId found call)

/-- What such an admin finds at its locks. -/
def foundAlone (activeId : Nat) (folder : ManifestFolder) (num : Int) (s : SharedMem) (k : Nat) :
    AdminSurroundings :=
  let (s, call) := alone activeId folder num s k
  ⟨s, AdminActiveStatus.afterMark activeId s call, folder⟩

theorem evictNumOfBlocks_alone (activeId : Nat) (folder : ManifestFolder) (num : Int)
    (s : SharedMem) (k : Nat) :
    AdminActiveStatus.evictNumOfBlocks activeId (foundAlone activeId folder num s) num k =
      (alone activeId folder num s k).2 := by
  induction k with
  | zero => rfl
  | succ k ih =>
      unfold AdminActiveStatus.evictNumOfBlocks
      rw [ih]
      rfl

/-- Two buckets of one byte. -/
def twoBuckets : Config := .intact 2 1 4 1

/-- A file of one block is written and closed, and an admin registers. -/
def usedBucket : List Action :=
  [.openFile 7 true false .writeFile 1, .file 0, .file 0, .call 0 (.write [1])] ++
  List.replicate 6 (.file 0) ++ [.call 0 (.close false), .file 0, .file 0, .openAdmin 2, .admin 0]

/-- Asked for one block where one of two buckets is used, the admin evicts it and then
finishes the eviction again. -/
theorem usedBucket_unpaired : ¬ ∀ (activeId : Nat) (env : Nat → AdminSurroundings) (num : Int),
    0 < num → AdminActiveStatus.EvictsAsAsked activeId env num := by
  intro hclaim
  have hcheck : ((execute (step twoBuckets) anyStep (init twoBuckets) usedBucket).any fun w =>
      decide (¬ Paired (AdminActiveStatus.victimEvents 0 (foundAlone 0 w.folder 1 w.shm) 1 2))) =
      true := by
    decide +kernel
  obtain ⟨w, -, hunpaired⟩ := (Option.any_eq_true _ _).mp hcheck
  exact of_decide_eq_true hunpaired ((hclaim _ _ 1 (by decide)).paired 2)

/-- The admin does not return from the call. -/
theorem not_evictsAsAsked_usedBucket :
    ∃ w, Run (step twoBuckets) anyStep (init twoBuckets) w ∧
      w.admins[0]?.bind AdminActiveStatus.activeId = some 0 ∧
      ¬ AdminActiveStatus.EvictsAsAsked 0 (foundAlone 0 w.folder 1 w.shm) 1 := by
  have hcheck : ((execute (step twoBuckets) anyStep (init twoBuckets) usedBucket).any fun w =>
      decide (w.admins[0]?.bind AdminActiveStatus.activeId = some 0)) = true := by
    decide +kernel
  obtain ⟨w, hrun, hid⟩ := (Option.any_eq_true _ _).mp hcheck
  exact ⟨w, Run.of_execute hrun, of_decide_eq_true hid,
    AdminActiveStatus.not_evictsAsAsked _ _ _ (by decide)⟩

end World

end Gopherwood
