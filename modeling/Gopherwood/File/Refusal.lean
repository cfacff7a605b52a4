/-
# Refused registrations

`registFile` marks the slots of the file in the scan that looks for a free slot, so a
delete that is refused has already marked them. The handle that closes next destroys the
file, though the caller of the delete was told that it failed.
-/

import Gopherwood.Segment.DeferredDelete
import Gopherwood.Segment.Registration

namespace Gopherwood

open Library

namespace SharedMemoryContext

/-- No slot of the table is free. -/
def IsFull (s : SharedMem) : Prop := ∀ slot ∈ s.activeStatus, slot.pid ≠ none

instance (s : SharedMem) : Decidable (IsFull s) :=
  inferInstanceAs (Decidable (∀ slot ∈ s.activeStatus, slot.pid ≠ none))

variable {s s' : SharedMem} {pid : Nat} {fileId : FileId} {isDelete : Bool}

/-- Without a free slot the scan only marks. -/
theorem scan_full (pid : Nat) (fileId : FileId) (isDelete : Bool) :
    ∀ (slots : List ShareMemActiveStatus) (i : Nat) (destroy : Bool),
      (∀ slot ∈ slots, slot.pid ≠ none) →
      registFile.scan pid fileId isDelete i slots none destroy =
        (slots.map (deleteMark fileId isDelete), none, destroy || destroyed fileId slots) := by
  intro slots
  induction slots with
  | nil =>
      intro i destroy _
      simp [registFile.scan, destroyed]
  | cons slot rest ih =>
      intro i destroy hfull
      have hrest := ih (i + 1) (destroy || (decide (slot.fileId = fileId) && slot.shouldDestroy))
        fun slot hslot => hfull slot (List.mem_cons_of_mem _ hslot)
      rw [scan_cons]
      simp [hfull slot List.mem_cons_self, hrest, destroyed, Bool.or_assoc]

/-- `registFile` on a full table. -/
theorem registFile_full (pid : Nat) (fileId : FileId) (isDelete : Bool) (hfull : IsFull s) :
    registFile pid fileId isDelete s = .ok none { s with
      activeStatus := s.activeStatus.map (deleteMark fileId isDelete) } := by
  simp only [registFile, run_bind, run_get, scan_full pid fileId isDelete s.activeStatus 0
    isDelete hfull, run_set, run_pure]

/-- Only a full table refuses a file. -/
theorem isFull_of_registFile (hrun : registFile pid fileId isDelete s = .ok none s') :
    IsFull s := by
  intro slot hslot hpid
  exact registFile_of_free ⟨slot, hslot, hpid⟩ pid fileId isDelete s' hrun

theorem registAdmin_refused (hrun : registAdmin pid s = .ok none s') : s' = s := by
  simp only [registAdmin, run_bind, run_get] at hrun
  cases hfind : s.activeStatus.findIdx? fun slot => slot.pid = none with
  | none =>
      rw [hfind] at hrun
      cases hrun
      rfl
  | some a =>
      rw [hfind] at hrun
      cases hrun

/-- A refused registration changes nothing, and no later close reports a destruction that
it would not have reported before. -/
structure RefusesCleanly (s : SharedMem) (pid : Nat) (fileId : FileId) (isDelete : Bool) :
    Prop where
  file : ∀ s', registFile pid fileId isDelete s = .ok none s' → s' = s
  admin : ∀ s', registAdmin pid s = .ok none s' → s' = s
  close : ∀ s', registFile pid fileId isDelete s = .ok none s' → ∀ a owner closed closed',
    unregistFile a owner s = .ok (some false) closed →
      unregistFile a owner s' ≠ .ok (some true) closed'

/-- The marks of a delete are there before it. -/
theorem map_deleteMark_eq_iff (fileId : FileId) (isDelete : Bool)
    (slots : List ShareMemActiveStatus) :
    slots.map (deleteMark fileId isDelete) = slots ↔
      (isDelete = true → ∀ slot ∈ slots, slot.fileId = fileId → slot.shouldDestroy = true) := by
  have hself : slots.map (deleteMark fileId isDelete) = slots ↔
      ∀ slot ∈ slots, deleteMark fileId isDelete slot = slot := by
    simpa using List.map_inj_left (f := deleteMark fileId isDelete) (g := id) (l := slots)
  rw [hself]
  constructor
  · intro hsame hdelete slot hslot hfile
    have hmark := deleteMark_shouldDestroy isDelete hfile
    rw [hsame slot hslot, hdelete, Bool.or_true] at hmark
    exact hmark
  · intro hmarked slot hslot
    by_cases hfile : slot.fileId = fileId ∧ isDelete = true
    · have hdestroy := hmarked hfile.2 slot hslot hfile.1
      have hmark : (decide (slot.fileId = fileId) && isDelete) = true := by simpa using hfile
      rw [deleteMark, if_pos hmark, ← hdestroy]
    · have hskip : ¬ (decide (slot.fileId = fileId) && isDelete) = true := by
        simpa using hfile
      rw [deleteMark, if_neg hskip]

theorem RefusesCleanly.marked (hclean : RefusesCleanly s pid fileId isDelete) (hfull : IsFull s)
    (hdelete : isDelete = true) :
    ∀ slot ∈ s.activeStatus, slot.fileId = fileId → slot.shouldDestroy = true := by
  have hsame := hclean.file _ (registFile_full pid fileId isDelete hfull)
  exact (map_deleteMark_eq_iff fileId isDelete s.activeStatus).mp
    (congrArg SharedMem.activeStatus hsame) hdelete

/-- A refusal changes nothing exactly when it is not that of a delete, or all slots of the
file are marked already. -/
theorem refusesCleanly_iff (s : SharedMem) (pid : Nat) (fileId : FileId) (isDelete : Bool) :
    RefusesCleanly s pid fileId isDelete ↔
      (IsFull s → isDelete = true →
        ∀ slot ∈ s.activeStatus, slot.fileId = fileId → slot.shouldDestroy = true) := by
  constructor
  · exact RefusesCleanly.marked
  · intro hmarked
    have hfile : ∀ s', registFile pid fileId isDelete s = .ok none s' → s' = s := by
      intro s' hrun
      have hfull := isFull_of_registFile hrun
      have hmap := (map_deleteMark_eq_iff fileId isDelete s.activeStatus).mpr (hmarked hfull)
      rw [registFile_full pid fileId isDelete hfull, hmap] at hrun
      cases hrun
      rfl
    refine ⟨hfile, fun s' => registAdmin_refused, ?_⟩
    intro s' hrun a owner closed closed' hkept hdestroyed
    rw [hfile s' hrun, hkept] at hdestroyed
    cases hdestroyed

end SharedMemoryContext

namespace World

/-- One bucket, and three connections. -/
def threeSlots : Config := .intact 1 1 3 1

/-- Two processes have their admin slots, one of them has a file open, and the delete of
this file by the other one comes to its registration. -/
def refusedDelete : List Action :=
  [.openAdmin 1, .admin 0, .openFile 7 true false .writeFile 1, .file 0, .file 0,
    .openAdmin 2, .admin 1, .openFile 7 false false .deleteFile 2, .file 1]

/-- The refused delete, and then the close of the open handle. -/
def refusedThenClosed : Option (World × World × World) := do
  let opened ← execute (step threeSlots) anyStep (init threeSlots) refusedDelete
  let refused ← step threeSlots opened (.file 1)
  let closed ← execute (step threeSlots) anyStep refused
    [.call 0 (.close false), .file 0, .file 0]
  return (opened, refused, closed)

open SharedMemoryContext in
/-- The file of a refused delete is destroyed when its open handle closes. -/
theorem refusedDelete_destroys : ∃ opened refused closed : World,
    Run (step threeSlots) anyStep (init threeSlots) opened ∧
      step threeSlots opened (.file 1) = some refused ∧
      (⟨1, none, .threw (.sharedMem
        "[ActiveStatus::registInSharedMem] Exceed max connection limitation")⟩ : CallRecord) ∈
          refused.history ∧
      Run (step threeSlots) anyStep refused closed ∧
      opened.folder.isLinked ⟨7, 0⟩ = true ∧ closed.folder.isLinked ⟨7, 0⟩ = false ∧
      ¬ RefusesCleanly opened.shm 2 ⟨7, 0⟩ true := by
  have hcheck : (refusedThenClosed.any fun (opened, refused, closed) =>
      decide ((⟨1, none, .threw (.sharedMem
        "[ActiveStatus::registInSharedMem] Exceed max connection limitation")⟩ : CallRecord) ∈
          refused.history) &&
      opened.folder.isLinked ⟨7, 0⟩ && !closed.folder.isLinked ⟨7, 0⟩ &&
      decide (IsFull opened.shm) &&
      opened.shm.activeStatus.any fun slot =>
        slot.fileId = ⟨7, 0⟩ && !slot.shouldDestroy) = true := by
    decide +kernel
  obtain ⟨⟨opened, refused, closed⟩, hrun, hfacts⟩ := (Option.any_eq_true _ _).mp hcheck
  simp only [Bool.and_eq_true, decide_eq_true_eq, Bool.not_eq_true', List.any_eq_true] at hfacts
  obtain ⟨⟨⟨⟨hthrown, hlinked⟩, hgone⟩, hfull⟩, slot, hslot, hfile, hunmarked⟩ := hfacts
  simp only [refusedThenClosed, Option.bind_eq_bind, Option.bind_eq_some_iff, Option.pure_def,
    Option.some.injEq, Prod.mk.injEq] at hrun
  obtain ⟨opened', hopened, refused', hrefused, closed', hclosed, rfl, rfl, rfl⟩ := hrun
  refine ⟨opened', refused', closed', Run.of_execute hopened, hrefused, hthrown,
    Run.of_execute hclosed, hlinked, hgone, ?_⟩
  intro hclean
  have hmarked := hclean.marked hfull rfl slot hslot hfile
  rw [hunmarked] at hmarked
  cases hmarked

end World

end Gopherwood
