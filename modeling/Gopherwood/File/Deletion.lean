/-
# Deleting a file during an eviction

A handle that ends an eviction is told that the block was deleted in the
meantime by a flag of the bucket. The destruction of a file resets the bucket
instead, because a bucket that is being evicted is of used type; the flag is
never set, and no interleaving gives the evictor the answer it should get.
-/

import Gopherwood.File.Segment
import Gopherwood.Library.Execution
import Gopherwood.Segment.Accounting

namespace Gopherwood

open Library (Run execute anyStep)
open SharedMem (Leads)
open SharedMemoryContext (EvictResult)

namespace SharedMem

/-- The bucket `b`, if there is one, satisfies `p`. -/
def At (b : Nat) (p : ShareMemBucket → Prop) (s : SharedMem) : Prop :=
  ∀ x, s.buckets[b]? = some x → p x

variable {s s' : SharedMem} {b i : Nat} {p : ShareMemBucket → Prop}

theorem At.modify {f : ShareMemBucket → ShareMemBucket} (h : At b p s)
    (hbuckets : s'.buckets = s.buckets.modify i f)
    (hf : ∀ y, s.buckets[i]? = some y → p y → p (f y)) : At b p s' := by
  intro x hx
  rw [hbuckets, List.getElem?_modify] at hx
  obtain ⟨y, hy, rfl⟩ := Option.map_eq_some_iff.mp hx
  split
  · next hib =>
      subst hib
      exact hf y hy (h y hy)
  · exact h y hy

/-- The bucket is not flagged. -/
def Undeleted (b : Nat) : SharedMem → Prop := At b fun x => x.deleted = false

/-- The bucket is not flagged and cannot be, since it is used or not evicting. -/
def Unflagged (b : Nat) : SharedMem → Prop :=
  At b fun x => x.deleted = false ∧ (x.type = .used ∨ x.evicting = false)

/-- Only the destruction of a file flags a bucket. -/
theorem leads_undeleted {m : Move} (hm : m.isDelete = false) :
    Leads (Undeleted b) m (Undeleted b) := by
  intro s s' hmove hs
  cases hmove with
  | take hx htype hinfos => exact hs.modify rfl fun _ _ hy => hy
  | takeFailed hx htype hinfos => exact hs.modify rfl fun _ _ hy => hy
  | hand => exact hs
  | age hx htype hevicting => exact hs.modify rfl fun _ _ hy => hy
  | evict hx htype hevicting => exact hs.modify rfl fun _ _ hy => hy
  | endStolen => exact hs
  | endFailed => exact hs
  | endTake w fileId hslot hstolen hx => exact hs.modify rfl fun _ _ _ => rfl
  | endFree hslot hstolen hx => exact hs.modify rfl fun _ _ _ => rfl
  | load hfree => exact hs.modify rfl fun _ _ hy => hy
  | loaded => exact hs.modify rfl fun _ _ hy => hy
  | release hx htype => exact hs.modify rfl fun _ _ _ => rfl
  | activate hx htype hevicting hinfos => exact hs.modify rfl fun _ _ hy => hy
  | steal hx htype hevicting hinfos he hslot hfile hindex => exact hs.modify rfl fun _ _ hy => hy
  | activateFailed hx htype hfailed => exact hs.modify rfl fun _ _ hy => hy
  | join hx htype hinfos => exact hs.modify rfl fun _ _ hy => hy
  | leave hx htype hinfos hvacant => exact hs.modify rfl fun _ _ hy => hy
  | retire hx htype hinfos hvacant => exact hs.modify rfl fun _ _ hy => hy
  | leaveFailed hx htype hinfos => exact hs.modify rfl fun _ _ hy => hy
  | index hx => exact hs.modify rfl fun _ _ hy => hy
  | reset hx htype => cases hm
  | flag hx htype hevicting => cases hm
  | resize hx htype hmine hsize => exact hs.modify rfl fun _ _ hy => hy

/-- A closing handle resets a used bucket before it would flag it. -/
theorem leads_unflagged {m : Move} (hm : m.isClosing = true) :
    Leads (Unflagged b) m (Unflagged b) := by
  intro s s' hmove hs
  cases hmove with
  | take hx htype hinfos =>
      refine hs.modify rfl fun y hy hold => ⟨hold.1, Or.inr (hold.2.resolve_left fun hused => ?_)⟩
      obtain rfl := Option.some.inj (hx.symm.trans hy)
      simp [htype] at hused
  | takeFailed hx htype hinfos =>
      refine hs.modify rfl fun y hy hold => ⟨hold.1, Or.inr (hold.2.resolve_left fun hused => ?_)⟩
      obtain rfl := Option.some.inj (hx.symm.trans hy)
      simp [htype] at hused
  | hand => exact hs
  | age hx htype hevicting => exact hs.modify rfl fun _ _ hold => hold
  | release hx htype => exact hs.modify rfl fun _ _ _ => ⟨rfl, Or.inr rfl⟩
  | leave hx htype hinfos hvacant => exact hs.modify rfl fun _ _ hold => hold
  | retire hx htype hinfos hvacant => exact hs.modify rfl fun _ _ hold => ⟨hold.1, Or.inl rfl⟩
  | leaveFailed hx htype hinfos => exact hs.modify rfl fun _ _ hold => hold
  | reset hx htype => exact hs.modify rfl fun _ _ _ => ⟨rfl, Or.inr rfl⟩
  | flag hx htype hevicting =>
      refine hs.modify rfl fun y hy hold => ?_
      obtain rfl := Option.some.inj (hx.symm.trans hy)
      rcases hold.2 with hused | hnot
      · exact absurd hused htype
      · rw [hevicting] at hnot
        cases hnot
  | _ => cases hm

end SharedMem

namespace World

/-- The slot and the victim of the eviction that a handle is in. -/
def evictionOf (w : World) : Client → Option (Nat × BlockInfo)
  | .file n =>
      match w.files[n]? with
      | none => none
      | some h =>
          match h.pc, h.activeId with
          | .evictRead _ loop, some a => some (a, loop.evictBlockInfo)
          | .evictPut _ loop _, some a => some (a, loop.evictBlockInfo)
          | .evictFinish _ loop, some a =>
              if loop.evicting then some (a, loop.evictBlockInfo) else none
          | _, _ => none
  | .admin n =>
      match w.admins[n]? with
      | none => none
      | some admin =>
          match admin.pc, admin.activeId with
          | .evictRead info, some a => some (a, info)
          | .evictPut info _, some a => some (a, info)
          | .finish _ (some info), some a => some (a, info)
          | _, _ => none

/-- What the end of the eviction of bucket `b` answers to a handle that has
uploaded the block. -/
def endOfEviction (w : World) (b : Nat) :
    Client → Option (EStateM.Result GwError SharedMem EvictResult)
  | .file n =>
      match w.files[n]? with
      | none => none
      | some h =>
          match h.pc, h.activeId with
          | .evictFinish _ loop, some a =>
              if loop.evicting ∧ loop.evictBlockInfo.bucketId = some b then
                some (SharedMemoryContext.evictBucketFinishAndTryAcquire (some b) a h.fileId
                  h.isWrite w.shm)
              else none
          | _, _ => none
  | .admin n =>
      match w.admins[n]? with
      | none => none
      | some admin =>
          match admin.pc, admin.activeId with
          | .finish _ (some info), some a =>
              if info.bucketId = some b then
                some (SharedMemoryContext.evictBucketFinishAndTryFree (some b) a w.shm)
              else none
          | _, _ => none

/-- The next step of a handle. -/
def nextStep : Client → Action
  | .file n => .file n
  | .admin n => .admin n

/-- The handle `evictor` is evicting the bucket `b` of the file, which was neither
taken back nor deleted. -/
def Evicts (w : World) (evictor : Client) (fileId : FileId) (b : Nat) : Prop :=
  ∃ eviction ∈ w.evictionOf evictor, eviction.2.bucketId = some b ∧
    ∃ x ∈ w.shm.buckets[b]?, x.type = .used ∧ x.evicting = true ∧ x.deleted = false ∧
      x.fileId = fileId ∧ x.evictLoadActiveId = some eviction.1

/-- Handle `n` closes the file and destroys it between `w` and `w'`. -/
def Destroys (w : World) (n : Nat) (fileId : FileId) (w' : World) : Prop :=
  w.Closes (.file n) ∧ (∃ h ∈ w.files[n]?, h.fileId = fileId) ∧
    w.folder.isLinked fileId = true ∧ w'.folder.isLinked fileId = false

/-- No handle closes while the bucket was taken back from another eviction. -/
def SparesStolen (b : Nat) (w : World) (act : Action) : Prop :=
  w.Closes act → ∀ x ∈ w.shm.buckets[b]?, x.type = .used ∨ x.evicting = false

/-- A file is destroyed by handle `n` while `evictor` is evicting its bucket `b`;
other handles go on. The eviction ends with `answer` in state `ended`, and in
state `final` the destruction has ended too. -/
structure DeleteDuringEviction (cfg : Config) (fileId : FileId) (b : Nat) (evictor : Client)
    (n : Nat) (ended final : World) (answer : EStateM.Result GwError SharedMem EvictResult) :
    Prop where
  run : ∃ begun destroyed next, Run (step cfg) anyStep (init cfg) begun ∧
    begun.Evicts evictor fileId b ∧ step cfg begun (.file n) = some destroyed ∧
    begun.Destroys n fileId destroyed ∧
    Run (step cfg) (SparesStolen b) destroyed ended ∧
    step cfg ended (nextStep evictor) = some next ∧ Run (step cfg) anyStep next final
  answer : ended.endOfEviction b evictor = some answer
  closed : ∀ h ∈ final.files[n]?, h.pc = .closed

/-- What should hold once both have ended. -/
structure CleanDelete (fileId : FileId) (b : Nat) (evictor : Client) (ended final : World)
    (answer : EStateM.Result GwError SharedMem EvictResult) : Prop where
  deleted : ∃ s, answer = .ok .deleted s
  held : ∀ x, final.shm.buckets[b]? = some x →
    match evictor with
    | .file _ => (Library.entries x.activeInfos).length = 1
    | .admin _ => x.type = .free
  spared : ∀ (i : Nat) (x : ShareMemBucket) (mark : BucketActiveInfo) (a : Nat) (info : BlockInfo),
    ended.shm.buckets[i]? = some x → mark ∈ Library.entries x.activeInfos →
    ended.evictionOf evictor = some (a, info) → mark.activeId ≠ a →
    ∀ s, answer = .ok .deleted s → ∃ x', s.buckets[i]? = some x' ∧
      mark ∈ Library.entries x'.activeInfos
  remote : ∀ i, final.oss fileId i = none
  counters : final.shm.Accounted

variable {w w' : World} {b : Nat} {act : Action} {cfg : Config}

/-- A step that spares the bucket does not flag it. -/
theorem undeleted_step (hspares : SparesStolen b w act) (hw : w.shm.Undeleted b)
    (hstep : step cfg w act = some w') : w'.shm.Undeleted b := by
  by_cases hclose : w.Closes act
  · have hsurvives : w.Survives act (SharedMem.Unflagged b) :=
      ⟨fun s s' hsame hs x hx => hs x (hsame.buckets ▸ hx), fun hopen => absurd hclose hopen,
        fun _ m hm => SharedMem.leads_unflagged hm⟩
    exact fun x hx =>
      (hsurvives.permits.step (fun y hy => ⟨hw y hy, hspares hclose y hy⟩) hstep x hx).1
  · have hsurvives : w.Survives act (SharedMem.Undeleted b) :=
      ⟨fun s s' hsame hs x hx => hs x (hsame.buckets ▸ hx), fun _ m hm =>
        SharedMem.leads_undeleted hm, fun hcloses => absurd hcloses hclose⟩
    exact hsurvives.permits.step hw hstep

/-- The end of an eviction answers that the block was deleted only if the bucket
is flagged. -/
theorem endOfEviction_undeleted {evictor : Client} (hw : w.shm.Undeleted b)
    {answer : EStateM.Result GwError SharedMem EvictResult}
    (hanswer : w.endOfEviction b evictor = some answer) (s : SharedMem) :
    answer ≠ .ok .deleted s := by
  have hresult : ∀ x, w.shm.buckets[b]? = some x →
      (if x.deleted then EvictResult.deleted else .finished) ≠ .deleted := by
    intro x hx
    rw [hw x hx]
    decide
  have hacquire : ∀ a fileId isWrite, SharedMemoryContext.evictBucketFinishAndTryAcquire (some b) a
      fileId isWrite w.shm ≠ .ok .deleted s := by
    intro a fileId isWrite hrun
    rcases SharedMemoryContext.evictBucketFinishAndTryAcquire_cases (some b) a fileId isWrite w.shm
      with ⟨s', h, -⟩ | ⟨e, s', h, -⟩ | ⟨i, x, s', hi, hx, h, -⟩
    · rw [h] at hrun
      cases hrun
    · rw [h] at hrun
      cases hrun
    · obtain rfl := Option.some.inj hi
      rw [h, EStateM.Result.ok.injEq] at hrun
      exact hresult x hx hrun.1
  have hfree : ∀ a, SharedMemoryContext.evictBucketFinishAndTryFree (some b) a w.shm ≠
      .ok .deleted s := by
    intro a hrun
    rcases SharedMemoryContext.evictBucketFinishAndTryFree_cases (some b) a w.shm
      with ⟨s', h, -⟩ | ⟨e, s', h, -⟩ | ⟨i, x, s', hi, hx, h, -⟩
    · rw [h] at hrun
      cases hrun
    · rw [h] at hrun
      cases hrun
    · obtain rfl := Option.some.inj hi
      rw [h, EStateM.Result.ok.injEq] at hrun
      exact hresult x hx hrun.1
  unfold endOfEviction at hanswer
  split at hanswer
  · split at hanswer
    · cases hanswer
    · split at hanswer
      · split at hanswer
        · obtain rfl := Option.some.inj hanswer
          exact hacquire _ _ _
        · cases hanswer
      · cases hanswer
  · split at hanswer
    · cases hanswer
    · split at hanswer
      · split at hanswer
        · obtain rfl := Option.some.inj hanswer
          exact hfree _
        · cases hanswer
      · cases hanswer

/-- No file is deleted cleanly during an eviction. -/
theorem not_cleanDelete (cfg : Config) (fileId : FileId) (b : Nat) (evictor : Client) (n : Nat)
    (ended final : World) (answer : EStateM.Result GwError SharedMem EvictResult)
    (hinterleaving : DeleteDuringEviction cfg fileId b evictor n ended final answer) :
    ¬ CleanDelete fileId b evictor ended final answer := by
  intro hclean
  obtain ⟨begun, destroyed, next, -, hevicts, hstep, -, hbetween, -, -⟩ := hinterleaving.run
  obtain ⟨eviction, -, -, x, hx, htype, -, hdeleted, -⟩ := hevicts
  have hmine : ∀ y, begun.shm.buckets[b]? = some y → y = x :=
    fun y hy => Option.some.inj (hy.symm.trans hx)
  have hdestroyed : destroyed.shm.Undeleted b :=
    undeleted_step (fun _ y hy => Or.inl (hmine y hy ▸ htype)) (fun y hy => hmine y hy ▸ hdeleted)
      hstep
  have hended : ended.shm.Undeleted b :=
    hbetween.induct hdestroyed fun _ _ _ hw hspares hstep => undeleted_step hspares hw hstep
  obtain ⟨s, hs⟩ := hclean.deleted
  exact endOfEviction_undeleted hended hinterleaving.answer s hs

instance (w : World) (evictor : Client) (fileId : FileId) (b : Nat) :
    Decidable (w.Evicts evictor fileId b) :=
  inferInstanceAs (Decidable (∃ eviction ∈ w.evictionOf evictor, eviction.2.bucketId = some b ∧
    ∃ x ∈ w.shm.buckets[b]?, x.type = .used ∧ x.evicting = true ∧ x.deleted = false ∧
      x.fileId = fileId ∧ x.evictLoadActiveId = some eviction.1))

instance (w : World) (n : Nat) (fileId : FileId) (w' : World) :
    Decidable (w.Destroys n fileId w') :=
  inferInstanceAs (Decidable (w.Closes (.file n) ∧ (∃ h ∈ w.files[n]?, h.fileId = fileId) ∧
    w.folder.isLinked fileId = true ∧ w'.folder.isLinked fileId = false))

instance (b : Nat) (w : World) (act : Action) : Decidable (SparesStolen b w act) :=
  inferInstanceAs (Decidable (w.Closes act →
    ∀ x ∈ w.shm.buckets[b]?, x.type = .used ∨ x.evicting = false))

/-- One bucket of one byte. -/
def oneBucket : Config := .intact 1 1 4 1

/-- A file of one block is written and closed. A writer of a second file evicts
the block, and a third handle is about to delete the first file. -/
def evictedFile : List Action :=
  [.openFile 7 true false .writeFile 1, .file 0, .file 0, .call 0 (.write [1])] ++
  List.replicate 6 (.file 0) ++ [.call 0 (.close false), .file 0, .file 0,
    .openFile 8 true false .writeFile 2, .file 1, .file 1, .call 1 (.write [2]), .file 1, .file 1,
    .openFile 7 false false .deleteFile 3, .file 2, .file 2]

/-- The file is deleted before the evictor has uploaded the block. -/
def deletedFirst : Option (World × World × World × World × World) := do
  let begun ← execute (step oneBucket) anyStep (init oneBucket) evictedFile
  let destroyed ← step oneBucket begun (.file 2)
  let ended ← execute (step oneBucket) (SparesStolen 0) destroyed [.file 1, .file 1]
  let next ← step oneBucket ended (.file 1)
  let final ← execute (step oneBucket) anyStep next [.file 2]
  return (begun, destroyed, ended, next, final)

/-- The answer is that the eviction finished. -/
def answersFinished : EStateM.Result GwError SharedMem EvictResult → Bool
  | .ok .finished _ => true
  | _ => false

theorem exists_deletedFirst : ∃ ended final s,
    DeleteDuringEviction oneBucket ⟨7, 0⟩ 0 (.file 1) 2 ended final (.ok .finished s) := by
  have hcheck : (deletedFirst.any fun (begun, destroyed, ended, _, final) =>
      decide (begun.Evicts (.file 1) ⟨7, 0⟩ 0) && decide (begun.Destroys 2 ⟨7, 0⟩ destroyed) &&
      (ended.endOfEviction 0 (.file 1)).any answersFinished &&
      decide (∀ h ∈ final.files[2]?, h.pc = .closed)) = true := by
    decide +kernel
  obtain ⟨⟨begun, destroyed, ended, next, final⟩, hrun, hfacts⟩ :=
    (Option.any_eq_true _ _).mp hcheck
  simp only [Bool.and_eq_true, decide_eq_true_eq] at hfacts
  obtain ⟨⟨⟨hevicts, hdestroys⟩, hanswer⟩, hclosed⟩ := hfacts
  simp only [deletedFirst, Option.bind_eq_bind, Option.bind_eq_some_iff, Option.pure_def,
    Option.some.injEq, Prod.mk.injEq] at hrun
  obtain ⟨begun', hbegun, destroyed', hdestroyed, ended', hended, next', hnext, final', hfinal,
    rfl, rfl, rfl, rfl, rfl⟩ := hrun
  obtain ⟨answer, hsome, hfinished⟩ := (Option.any_eq_true _ _).mp hanswer
  cases answer with
  | error e s => cases hfinished
  | ok result s =>
      cases result with
      | finished =>
          exact ⟨ended', final', s, ⟨begun', destroyed', next', Run.of_execute hbegun, hevicts,
            hdestroyed, hdestroys, Run.of_execute hended, hnext, Run.of_execute hfinal⟩, hsome,
            hclosed⟩
      | deleted => cases hfinished
      | stolen => cases hfinished

/-- The evictor of the deleted block is not told of the deletion. -/
theorem not_cleanDelete_deletedFirst : ∃ ended final answer,
    DeleteDuringEviction oneBucket ⟨7, 0⟩ 0 (.file 1) 2 ended final answer ∧
      ¬ CleanDelete ⟨7, 0⟩ 0 (.file 1) ended final answer := by
  obtain ⟨ended, final, s, h⟩ := exists_deletedFirst
  exact ⟨ended, final, _, h, not_cleanDelete _ _ _ _ _ _ _ _ h⟩

/-- The evictor is told that the eviction finished. -/
theorem deletedFirst_finished :
    ¬ ∀ (cfg : Config) (fileId : FileId) (b : Nat) (evictor : Client) (n : Nat)
      (ended final : World) (answer : EStateM.Result GwError SharedMem EvictResult),
      DeleteDuringEviction cfg fileId b evictor n ended final answer →
        CleanDelete fileId b evictor ended final answer := by
  intro hclaim
  obtain ⟨ended, final, s, h⟩ := exists_deletedFirst
  obtain ⟨s', hs'⟩ := (hclaim _ _ _ _ _ _ _ _ h).deleted
  cases hs'

end World

end Gopherwood
