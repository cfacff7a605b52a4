/-
# Registration

Registering fills a slot that belonged to no process, and unregistering blanks a
slot of the calling process. Neither touches a bucket.
-/

import Gopherwood.Segment.Roster

namespace Gopherwood

/-- The bucket table and all that the header says about it. -/
structure SharedMem.SameBuckets (s s' : SharedMem) : Prop where
  buckets : s'.buckets = s.buckets
  header : ∃ numFile numAdmin, s'.header = { s.header with
    numFileActiveStatus := numFile, numAdminActiveStatus := numAdmin }

namespace SharedMemoryContext

/-- The roster entry of a blank slot. -/
def noHandle : Option Nat × FileId := (none, FileId.invalid)

/-- A scan that has already assigned a slot changes no process and no file. -/
theorem scan_assigned (pid : Nat) (fileId : FileId) (isDelete : Bool) (a : Nat) :
    ∀ (slots : List ShareMemActiveStatus) (i : Nat) (destroy : Bool),
      (registFile.scan pid fileId isDelete i slots (some a) destroy).2.1 = some a ∧
      (registFile.scan pid fileId isDelete i slots (some a) destroy).1.map
        (fun slot => (slot.pid, slot.fileId)) = slots.map fun slot => (slot.pid, slot.fileId) := by
  intro slots
  induction slots with
  | nil => intro i destroy; exact ⟨rfl, rfl⟩
  | cons slot rest ih =>
      intro i destroy
      obtain ⟨hid, hmap⟩ := ih (i + 1) (destroy || (slot.fileId = fileId && slot.shouldDestroy))
      simp only [registFile.scan, reduceCtorEq, false_and, if_false, List.map_cons]
      refine ⟨hid, ?_⟩
      rw [hmap]
      split <;> rfl

/-- The scan assigns the first slot of no process, if there is one. -/
theorem scan_cases (pid : Nat) (fileId : FileId) (isDelete : Bool) :
    ∀ (slots : List ShareMemActiveStatus) (i : Nat) (destroy : Bool),
      ((registFile.scan pid fileId isDelete i slots none destroy).2.1 = none ∧
        (registFile.scan pid fileId isDelete i slots none destroy).1.map
          (fun slot => (slot.pid, slot.fileId)) =
            slots.map fun slot => (slot.pid, slot.fileId)) ∨
      (∃ k slot, slots[k]? = some slot ∧ slot.pid = none ∧
        (registFile.scan pid fileId isDelete i slots none destroy).2.1 = some (i + k) ∧
        (registFile.scan pid fileId isDelete i slots none destroy).1.map
          (fun slot => (slot.pid, slot.fileId)) =
            (slots.map fun slot => (slot.pid, slot.fileId)).set k (some pid, fileId)) := by
  intro slots
  induction slots with
  | nil => intro i destroy; exact Or.inl ⟨rfl, rfl⟩
  | cons slot rest ih =>
      intro i destroy
      have hpid : (if (decide (slot.fileId = fileId) && isDelete) = true then
          { slot with shouldDestroy := true } else slot).pid = slot.pid := by
        split <;> rfl
      by_cases hfree : slot.pid = none
      · right
        obtain ⟨hid, hmap⟩ := scan_assigned pid fileId isDelete i rest (i + 1)
          (destroy || (decide (slot.fileId = fileId) && slot.shouldDestroy))
        have hnone := hpid.trans hfree
        refine ⟨0, slot, rfl, hfree, ?_, ?_⟩
        · simp only [registFile.scan, hnone, and_self, if_true]
          exact hid
        · simp only [registFile.scan, hnone, and_self, if_true, List.map_cons, hmap,
            List.set_cons_zero]
      · have hkeep : (if (decide (slot.fileId = fileId) && isDelete) = true then
            { slot with shouldDestroy := true } else slot).fileId = slot.fileId := by
          split <;> rfl
        rcases ih (i + 1) (destroy || (decide (slot.fileId = fileId) && slot.shouldDestroy)) with
          ⟨hid, hmap⟩ | ⟨k, found, hk, hnone, hid, hmap⟩
        · left
          simp only [registFile.scan, hpid, hfree, and_false, if_false, List.map_cons, hmap, hkeep]
          exact ⟨hid, trivial⟩
        · refine Or.inr ⟨k + 1, found, hk, hnone, ?_, ?_⟩
          · simp only [registFile.scan, hpid, hfree, and_false, if_false, hid]
            congr 1
            omega
          · simp only [registFile.scan, hpid, hfree, and_false, if_false, List.map_cons, hmap,
              hkeep, List.set_cons_succ]

/-- A scan that assigns no slot has seen none that is free. -/
theorem scan_none (pid : Nat) (fileId : FileId) (isDelete : Bool) :
    ∀ (slots : List ShareMemActiveStatus) (i : Nat) (destroy : Bool),
      (registFile.scan pid fileId isDelete i slots none destroy).2.1 = none →
      ∀ slot ∈ slots, slot.pid ≠ none := by
  intro slots
  induction slots with
  | nil =>
      intro i destroy _ slot hslot
      cases hslot
  | cons first rest ih =>
      intro i destroy hnone
      have hpid : (if (decide (first.fileId = fileId) && isDelete) = true then
          { first with shouldDestroy := true } else first).pid = first.pid := by
        split <;> rfl
      by_cases hfree : first.pid = none
      · have hassigned := (scan_assigned pid fileId isDelete i rest (i + 1)
          (destroy || (decide (first.fileId = fileId) && first.shouldDestroy))).1
        simp only [registFile.scan, hpid.trans hfree, and_self, if_true] at hnone
        rw [hassigned] at hnone
        cases hnone
      · simp only [registFile.scan, hpid, hfree, and_false, if_false] at hnone
        intro slot hslot
        rcases List.mem_cons.mp hslot with rfl | hslot
        · exact hfree
        · exact ih _ _ hnone slot hslot

/-- `registFile` never throws. It fills a slot of no process, or finds none and
leaves the roster. -/
theorem registFile_cases (pid : Nat) (fileId : FileId) (isDelete : Bool) (s : SharedMem) :
    ∃ s', s.SameBuckets s' ∧
      ((registFile pid fileId isDelete s = .ok none s' ∧ s'.roster = s.roster) ∨
      ∃ a f, s.roster[a]? = some (none, f) ∧ registFile pid fileId isDelete s = .ok (some a) s' ∧
        s'.roster = s.roster.set a (some pid, fileId)) := by
  let scanned := registFile.scan pid fileId isDelete 0 s.activeStatus none isDelete
  let s₁ : SharedMem := { s with activeStatus := scanned.1 }
  let s₂ : SharedMem := s₁.updHeader fun h => { h with
    numFileActiveStatus := inc32 h.numFileActiveStatus }
  have hroster₁ : s₁.roster = scanned.1.map fun slot => (slot.pid, slot.fileId) := rfl
  rcases scan_cases pid fileId isDelete s.activeStatus 0 isDelete with
    ⟨hid, hmap⟩ | ⟨k, slot, hk, hpid, hid, hmap⟩
  · refine ⟨s₁, ⟨rfl, _, _, rfl⟩, Or.inl ⟨?_, hroster₁.trans hmap⟩⟩
    simp [registFile, hid, s₁, scanned]
  · rw [Nat.zero_add] at hid
    have hslot : s.roster[k]? = some (none, slot.fileId) := by
      simp [SharedMem.roster, hk, hpid]
    have hroster₂ : s₂.roster = s.roster.set k (some pid, fileId) := hroster₁.trans hmap
    by_cases hdestroy : scanned.2.2 = true
    · refine ⟨s₂.updSlot k fun slot => { slot with shouldDestroy := true }, ⟨rfl, _, _, rfl⟩,
        Or.inr ⟨k, slot.fileId, hslot, ?_, ?_⟩⟩
      · simp only [registFile, Library.run_bind, Library.run_get, hid, Library.run_set,
          run_modifyHeader, if_pos hdestroy, run_modifySlot, Library.run_pure, s₂, s₁, scanned]
      · refine Eq.trans (SharedMem.roster_updSlot ?_) hroster₂
        exact fun _ => ⟨rfl, rfl⟩
    · refine ⟨s₂, ⟨rfl, _, _, rfl⟩, Or.inr ⟨k, slot.fileId, hslot, ?_, hroster₂⟩⟩
      simp only [registFile, Library.run_bind, Library.run_get, hid, Library.run_set,
        run_modifyHeader, if_neg hdestroy, Library.run_pure, s₂, s₁, scanned]

section

variable {β : Type} {p : ShareMemActiveStatus → β}
  (hflag : ∀ slot : ShareMemActiveStatus, p { slot with shouldDestroy := true } = p slot)
  (hassign :
    ∀ (slot : ShareMemActiveStatus) (pid : Option Nat) (fileId : FileId) (forDelete : Bool),
    p { slot with pid := pid, fileId := fileId, fileBlockIndex := none, forDelete := forDelete } =
      p slot)
include hflag hassign

/-- The scan writes who has a slot and whether its file is destroyed, and nothing else. -/
theorem scan_map (pid : Nat) (fileId : FileId) (isDelete : Bool) :
    ∀ (slots : List ShareMemActiveStatus) (i : Nat) (assigned : Option Nat) (destroy : Bool),
      (registFile.scan pid fileId isDelete i slots assigned destroy).1.map p = slots.map p := by
  intro slots
  induction slots with
  | nil => intro i assigned destroy; rfl
  | cons slot rest ih =>
      intro i assigned destroy
      have hsame : p (if (decide (slot.fileId = fileId) && isDelete) = true then
          { slot with shouldDestroy := true } else slot) = p slot := by
        split
        · exact hflag slot
        · rfl
      unfold registFile.scan
      dsimp only
      generalize (if (decide (slot.fileId = fileId) && isDelete) = true then
        { slot with shouldDestroy := true } else slot) = flagged at hsame ⊢
      split
      · rw [List.map_cons, List.map_cons, ih, hassign, hsame]
      · rw [List.map_cons, List.map_cons, ih, hsame]

/-- What a registration leaves alone in every slot. -/
theorem registFile_map {pid : Nat} {fileId : FileId} {isDelete : Bool} {s s' : SharedMem}
    {assigned : Option Nat} (hrun : registFile pid fileId isDelete s = .ok assigned s') :
    s'.activeStatus.map p = s.activeStatus.map p := by
  have hscan := scan_map hflag hassign pid fileId isDelete s.activeStatus 0 none isDelete
  simp only [registFile, Library.run_bind, Library.run_get, Library.run_set] at hrun
  generalize registFile.scan pid fileId isDelete 0 s.activeStatus none isDelete =
    scanned at hscan hrun
  obtain ⟨slots, id, destroy⟩ := scanned
  cases id with
  | none =>
      cases hrun
      exact hscan
  | some a =>
      cases destroy with
      | false =>
          cases hrun
          exact hscan
      | true =>
          cases hrun
          exact (SharedMem.map_updSlot _ a hflag).trans hscan

end

/-- With a free slot `registFile` registers. -/
theorem registFile_of_free {s : SharedMem} (hfree : ∃ slot ∈ s.activeStatus, slot.pid = none)
    (pid : Nat) (fileId : FileId) (isDelete : Bool) (s' : SharedMem) :
    registFile pid fileId isDelete s ≠ .ok none s' := by
  intro hrun
  obtain ⟨slot, hslot, hpid⟩ := hfree
  cases hid : (registFile.scan pid fileId isDelete 0 s.activeStatus none isDelete).2.1 with
  | none => exact scan_none _ _ _ _ _ _ hid slot hslot hpid
  | some a =>
      simp only [registFile, Library.run_bind, Library.run_get, Library.run_set, hid,
        run_modifyHeader] at hrun
      split at hrun
      · simp at hrun
      · simp at hrun

/-- `registAdmin` never throws and registers in the same way. -/
theorem registAdmin_cases (pid : Nat) (s : SharedMem) :
    ∃ s', s.SameBuckets s' ∧
      ((registAdmin pid s = .ok none s' ∧ s'.roster = s.roster) ∨
      ∃ a f, s.roster[a]? = some (none, f) ∧ registAdmin pid s = .ok (some a) s' ∧
        s'.roster = s.roster.set a (some pid, f)) := by
  cases hfind : s.activeStatus.findIdx? fun slot => slot.pid = none with
  | none =>
      refine ⟨s, ⟨rfl, _, _, rfl⟩, Or.inl ⟨?_, rfl⟩⟩
      simp only [registAdmin, Library.run_bind, Library.run_get, hfind, Library.run_pure]
  | some a =>
      obtain ⟨hlt, hpid, -⟩ := List.findIdx?_eq_some_iff_getElem.mp hfind
      have hslot : s.activeStatus[a]? = some s.activeStatus[a] := List.getElem?_eq_getElem hlt
      refine ⟨(s.updSlot a fun slot => { slot with pid := some pid, isAdmin := true }).updHeader
        fun h => { h with numAdminActiveStatus := inc32 h.numAdminActiveStatus },
        ⟨rfl, _, _, rfl⟩, Or.inr ⟨a, s.activeStatus[a].fileId, ?_, ?_, ?_⟩⟩
      · simp [SharedMem.roster, hslot, by simpa using hpid]
      · simp only [registAdmin, Library.run_bind, Library.run_get, hfind, Library.run_pure,
          run_modifySlot, run_modifyHeader]
      · rw [SharedMem.roster_updHeader]
        refine List.ext_getElem? fun i => ?_
        simp only [SharedMem.roster, List.getElem?_map, SharedMem.updSlot_getElem?,
          List.getElem?_set]
        by_cases hai : a = i
        · subst hai
          simp [hlt]
        · simp [hai]

/-- `unregistFile` never throws: it blanks a slot of the process, or changes
nothing. -/
theorem unregistFile_cases (a pid : Nat) (s : SharedMem) :
    (unregistFile a pid s = .ok none s) ∨
    ∃ s' f destroy, s.SameBuckets s' ∧ s.roster[a]? = some (some pid, f) ∧
      unregistFile a pid s = .ok (some destroy) s' ∧ s'.roster = s.roster.set a noHandle := by
  cases hslot : s.activeStatus[a]? with
  | none =>
      left
      simp [unregistFile, hslot]
  | some slot =>
      by_cases hpid : slot.pid = some pid
      · right
        refine ⟨(s.updSlot a fun _ => .blank).updHeader fun h => { h with
          numFileActiveStatus := dec32 h.numFileActiveStatus }, slot.fileId, slot.shouldDestroy,
          ⟨rfl, _, _, rfl⟩, by simp [SharedMem.roster, hslot, hpid], ?_, ?_⟩
        · simp [unregistFile, hslot, hpid]
        · rw [SharedMem.roster_updHeader, SharedMem.roster_updSlot_const, noHandle,
            ShareMemActiveStatus.blank]
      · left
        simp [unregistFile, hslot, hpid]

theorem unregistAdmin_cases (a pid : Nat) (s : SharedMem) :
    (unregistAdmin a pid s = .ok false s) ∨
    ∃ s' f, s.SameBuckets s' ∧ s.roster[a]? = some (some pid, f) ∧
      unregistAdmin a pid s = .ok true s' ∧ s'.roster = s.roster.set a noHandle := by
  cases hslot : s.activeStatus[a]? with
  | none =>
      left
      simp [unregistAdmin, hslot]
  | some slot =>
      by_cases hpid : slot.pid = some pid ∧ slot.isAdmin = true
      · right
        refine ⟨(s.updSlot a fun _ => .blank).updHeader fun h => { h with
          numAdminActiveStatus := dec32 h.numAdminActiveStatus }, slot.fileId,
          ⟨rfl, _, _, rfl⟩, by simp [SharedMem.roster, hslot, hpid], ?_, ?_⟩
        · simp [unregistAdmin, hslot, hpid]
        · rw [SharedMem.roster_updHeader, SharedMem.roster_updSlot_const, noHandle,
            ShareMemActiveStatus.blank]
      · left
        simp [unregistAdmin, hslot, hpid]

end SharedMemoryContext

end Gopherwood
