/-
# Deferred deletion

A delete of a file that is still open is deferred to the last close. The table of
registered handles carries it: the slots of a file all hold the destroy flag, a
new slot inherits it, and the last slot to leave reports it. The module follows
arbitrary histories of registrations.
-/

import Gopherwood.File.System
import Gopherwood.Library.Execution
import Gopherwood.Library.Tally
import Gopherwood.Segment.Update

namespace Gopherwood

/-- The slot is registered for a file. -/
def ShareMemActiveStatus.isFileSlot (slot : ShareMemActiveStatus) : Bool :=
  slot.pid.isSome && !slot.isAdmin

namespace SharedMemoryContext

/-- What a registration does to the slots that are already there. -/
def deleteMark (fileId : FileId) (isDelete : Bool) (slot : ShareMemActiveStatus) :
    ShareMemActiveStatus :=
  if slot.fileId = fileId && isDelete then { slot with shouldDestroy := true } else slot

/-- What a registration does to the slot that it takes. -/
def takeSlot (pid : Nat) (fileId : FileId) (isDelete : Bool) (slot : ShareMemActiveStatus) :
    ShareMemActiveStatus :=
  { slot with
    pid := some pid, fileId := fileId, fileBlockIndex := none
    forDelete := slot.forDelete || isDelete }

/-- Some slot of the file has its destroy flag set. -/
def destroyed (fileId : FileId) (slots : List ShareMemActiveStatus) : Bool :=
  slots.any fun slot => slot.fileId = fileId && slot.shouldDestroy

section Marks

variable (fileId : FileId) (isDelete : Bool) (slot : ShareMemActiveStatus)

@[simp]
theorem deleteMark_pid : (deleteMark fileId isDelete slot).pid = slot.pid := by
  unfold deleteMark
  split <;> rfl

@[simp]
theorem deleteMark_fileId : (deleteMark fileId isDelete slot).fileId = slot.fileId := by
  unfold deleteMark
  split <;> rfl

@[simp]
theorem deleteMark_isAdmin : (deleteMark fileId isDelete slot).isAdmin = slot.isAdmin := by
  unfold deleteMark
  split <;> rfl

@[simp]
theorem deleteMark_isFileSlot :
    (deleteMark fileId isDelete slot).isFileSlot = slot.isFileSlot := by
  simp [ShareMemActiveStatus.isFileSlot]

variable {fileId slot} in
theorem deleteMark_other (h : slot.fileId ≠ fileId) : deleteMark fileId isDelete slot = slot := by
  simp [deleteMark, h]

variable {fileId slot} in
theorem deleteMark_shouldDestroy (h : slot.fileId = fileId) :
    (deleteMark fileId isDelete slot).shouldDestroy = (slot.shouldDestroy || isDelete) := by
  cases isDelete <;> simp [deleteMark, h]

end Marks

/-- One round of the scan, in terms of the two changes of a slot. -/
theorem scan_cons (pid : Nat) (fileId : FileId) (isDelete : Bool) (i : Nat)
    (slot : ShareMemActiveStatus) (rest : List ShareMemActiveStatus) (activeId : Option Nat)
    (destroy : Bool) :
    registFile.scan pid fileId isDelete i (slot :: rest) activeId destroy =
      let destroy := destroy || (slot.fileId = fileId && slot.shouldDestroy)
      if activeId = none ∧ slot.pid = none then
        let r := registFile.scan pid fileId isDelete (i + 1) rest (some i) destroy
        (takeSlot pid fileId isDelete (deleteMark fileId isDelete slot) :: r.1, r.2)
      else
        let r := registFile.scan pid fileId isDelete (i + 1) rest activeId destroy
        (deleteMark fileId isDelete slot :: r.1, r.2) := by
  rw [← deleteMark_pid fileId isDelete slot]
  rfl

/-- After the slot has been assigned, the scan only marks. -/
theorem scan_marks (pid : Nat) (fileId : FileId) (isDelete : Bool) (a : Nat) :
    ∀ (slots : List ShareMemActiveStatus) (i : Nat) (destroy : Bool),
      registFile.scan pid fileId isDelete i slots (some a) destroy =
        (slots.map (deleteMark fileId isDelete), some a, destroy || destroyed fileId slots) := by
  intro slots
  induction slots with
  | nil =>
      intro i destroy
      simp [registFile.scan, destroyed]
  | cons slot rest ih =>
      intro i destroy
      rw [scan_cons]
      simp [ih, destroyed, Bool.or_assoc]

/-- The scan takes the first free slot and marks the others. -/
theorem scan_takes (pid : Nat) (fileId : FileId) (isDelete : Bool) :
    ∀ (slots : List ShareMemActiveStatus) (i : Nat) (destroy : Bool),
      (slots.any fun slot => slot.pid = none) = true →
      ∃ k slot, slots[k]? = some slot ∧ slot.pid = none ∧
        registFile.scan pid fileId isDelete i slots none destroy =
          ((slots.map (deleteMark fileId isDelete)).modify k (takeSlot pid fileId isDelete),
            some (i + k), destroy || destroyed fileId slots) := by
  intro slots
  induction slots with
  | nil =>
      intro i destroy h
      simp at h
  | cons slot rest ih =>
      intro i destroy h
      rw [scan_cons]
      by_cases hfree : slot.pid = none
      · refine ⟨0, slot, rfl, hfree, ?_⟩
        simp [hfree, scan_marks, destroyed, Bool.or_assoc]
      · have hrest : (rest.any fun slot => slot.pid = none) = true := by
          simpa [hfree] using h
        obtain ⟨k, found, hk, hnone, hscan⟩ := ih (i + 1)
          (destroy || (decide (slot.fileId = fileId) && slot.shouldDestroy)) hrest
        refine ⟨k + 1, found, hk, hnone, ?_⟩
        simp only [hfree, and_false, if_false, hscan]
        simp [destroyed, Bool.or_assoc, Nat.add_assoc, Nat.add_comm 1 k]

/-- The slot that a registration assigns, with the destroy flag it inherits. -/
def assign (pid : Nat) (fileId : FileId) (isDelete destroy : Bool) (slot : ShareMemActiveStatus) :
    ShareMemActiveStatus :=
  { takeSlot pid fileId isDelete slot with shouldDestroy := slot.shouldDestroy || destroy }

theorem assign_false (pid : Nat) (fileId : FileId) (isDelete : Bool) :
    assign pid fileId isDelete false = takeSlot pid fileId isDelete := by
  funext slot
  simp [assign, takeSlot]

/-- `registFile` on a table with a free slot. -/
theorem registFile_takes (pid : Nat) (fileId : FileId) (isDelete : Bool) {s : SharedMem}
    (hfree : (s.activeStatus.any fun slot => slot.pid = none) = true) :
    ∃ a slot, s.activeStatus[a]? = some slot ∧ slot.pid = none ∧
      registFile pid fileId isDelete s = .ok (some a) { s with
        activeStatus := (s.activeStatus.map (deleteMark fileId isDelete)).modify a
          (assign pid fileId isDelete (isDelete || destroyed fileId s.activeStatus))
        header := { s.header with
          numFileActiveStatus := inc32 s.header.numFileActiveStatus } } := by
  obtain ⟨a, slot, hslot, hnone, hscan⟩ :=
    scan_takes pid fileId isDelete s.activeStatus 0 isDelete hfree
  rw [Nat.zero_add] at hscan
  refine ⟨a, slot, hslot, hnone, ?_⟩
  simp only [registFile, Library.run_bind, Library.run_get, hscan, Library.run_set,
    run_modifyHeader]
  cases hd : isDelete || destroyed fileId s.activeStatus with
  | true =>
      simp only [if_true, Library.run_bind, run_modifySlot, Library.run_pure, SharedMem.updSlot,
        SharedMem.updHeader, List.modify_modify_eq]
      congr 3
      funext slot
      simp [assign]
  | false =>
      rw [assign_false]
      rfl

end SharedMemoryContext

/-! ## Histories of registrations -/

/-- The calls that register and unregister handles. A file is given by the hash
of its path. -/
inductive RegistCall
  | registFile (pid hashcode : Nat) (isDelete : Bool)
  | unregistFile (activeId pid : Nat)
  | registAdmin (pid : Nat)
  | unregistAdmin (activeId pid : Nat)

/-- The file has a registered slot. -/
def SharedMem.HasSlot (s : SharedMem) (fileId : FileId) : Prop :=
  ∃ slot ∈ s.activeStatus, slot.isFileSlot = true ∧ slot.fileId = fileId

namespace RegistCall

open SharedMemoryContext World

/-- The segment after the call. -/
def run (s : SharedMem) : RegistCall → SharedMem
  | .registFile pid hashcode isDelete =>
      Library.after (SharedMemoryContext.registFile pid (makeFileId hashcode) isDelete) s
  | .unregistFile a pid => Library.after (SharedMemoryContext.unregistFile a pid) s
  | .registAdmin pid => Library.after (SharedMemoryContext.registAdmin pid) s
  | .unregistAdmin a pid => Library.after (SharedMemoryContext.unregistAdmin a pid) s

/-- A registration finds a free slot; a slot is unregistered by its owner. -/
def Allowed (s : SharedMem) : RegistCall → Prop
  | .registFile _ _ _ => (s.activeStatus.any fun slot => slot.pid = none) = true
  | .registAdmin _ => (s.activeStatus.any fun slot => slot.pid = none) = true
  | .unregistFile a pid =>
      (s.activeStatus[a]?.any fun slot => slot.pid = some pid && !slot.isAdmin) = true
  | .unregistAdmin a pid =>
      (s.activeStatus[a]?.any fun slot => slot.pid = some pid && slot.isAdmin) = true

instance (s : SharedMem) : (c : RegistCall) → Decidable (c.Allowed s)
  | .registFile _ _ _ => inferInstanceAs (Decidable (_ = true))
  | .registAdmin _ => inferInstanceAs (Decidable (_ = true))
  | .unregistFile _ _ => inferInstanceAs (Decidable (_ = true))
  | .unregistAdmin _ _ => inferInstanceAs (Decidable (_ = true))

/-- The file that a call is about. -/
def file (s : SharedMem) : RegistCall → Option FileId
  | .registFile _ hashcode _ => some (makeFileId hashcode)
  | .unregistFile a _ => s.activeStatus[a]?.map ShareMemActiveStatus.fileId
  | .registAdmin _ => none
  | .unregistAdmin _ _ => none

/-- The call registers a delete of the file. -/
def IsDeleteOf (fileId : FileId) : RegistCall → Prop
  | .registFile _ hashcode isDelete => makeFileId hashcode = fileId ∧ isDelete = true
  | _ => False

end RegistCall

/-- The segment, and the calls made so far with the segment each left behind,
the last one first. -/
structure RegistHistory where
  shm : SharedMem
  past : List (RegistCall × SharedMem)

namespace RegistHistory

open SharedMemoryContext World

def start (cfg : Config) : RegistHistory := ⟨SharedMem.reset cfg, []⟩

def step (t : RegistHistory) (c : RegistCall) : Option RegistHistory :=
  some ⟨c.run t.shm, (c, c.run t.shm) :: t.past⟩

/-- A delete of the file was registered, and the file has had a slot ever since. -/
def DeletedSince (fileId : FileId) : List (RegistCall × SharedMem) → Prop
  | [] => False
  | (c, s) :: earlier => s.HasSlot fileId ∧ (c.IsDeleteOf fileId ∨ DeletedSince fileId earlier)

/-- The laws of deferred deletion in one state of a history. -/
structure Deferred (t : RegistHistory) : Prop where
  /-- The slots of a file have the same flag. -/
  agree : ∀ x ∈ t.shm.activeStatus, ∀ y ∈ t.shm.activeStatus, x.isFileSlot = true →
    y.isFileSlot = true → x.fileId = y.fileId → x.shouldDestroy = y.shouldDestroy
  /-- The flag is set exactly when a delete has been registered since the file
  last had no slot. -/
  flag : ∀ x ∈ t.shm.activeStatus, x.isFileSlot = true →
    (x.shouldDestroy = true ↔ DeletedSince x.fileId t.past)
  /-- The handle that leaves, the last one of its file among them, is told so. -/
  reports : ∀ (a pid : Nat) (x : ShareMemActiveStatus), t.shm.activeStatus[a]? = some x →
    x.pid = some pid →
    x.isAdmin = false → ∃ destroy s', unregistFile a pid t.shm = .ok (some destroy) s' ∧
      (destroy = true ↔ DeletedSince x.fileId t.past)
  /-- A handle opened after the delete inherits the flag. -/
  inherits : ∀ pid hashcode isDelete,
    (RegistCall.registFile pid hashcode isDelete).Allowed t.shm →
    DeletedSince (makeFileId hashcode) t.past →
    ∃ a s' x, SharedMemoryContext.registFile pid (makeFileId hashcode) isDelete t.shm =
        .ok (some a) s' ∧
      s'.activeStatus[a]? = some x ∧ x.fileId = makeFileId hashcode ∧ x.shouldDestroy = true
  /-- A call about one file leaves the slots of the others. -/
  others : ∀ (c : RegistCall) (i : Nat) (x : ShareMemActiveStatus), c.Allowed t.shm →
    t.shm.activeStatus[i]? = some x → x.isFileSlot = true → c.file t.shm ≠ some x.fileId →
    (c.run t.shm).activeStatus[i]? = some x
  /-- `isFileOpening` finds exactly the files that have a slot. -/
  opening : ∀ hashcode, ∃ found,
    isFileOpening (makeFileId hashcode) t.shm = .ok found t.shm ∧
      (found = true ↔ t.shm.HasSlot (makeFileId hashcode))
  /-- The counter of the header is the number of slots registered for files. -/
  counted : t.shm.header.numFileActiveStatus =
    t.shm.activeStatus.countP ShareMemActiveStatus.isFileSlot

/-! ## The invariant -/

/-- What every history keeps. A slot names a file exactly when it is registered
for one. -/
structure Lawful (cfg : Config) (t : RegistHistory) : Prop where
  length : t.shm.activeStatus.length = cfg.maxConnection
  free : ∀ x ∈ t.shm.activeStatus, x.pid = none → x = .blank
  named : ∀ x ∈ t.shm.activeStatus, (x.isFileSlot = true ↔ x.fileId ≠ FileId.invalid)
  flag : ∀ x ∈ t.shm.activeStatus, x.isFileSlot = true →
    (x.shouldDestroy = true ↔ DeletedSince x.fileId t.past)
  since : ∀ fileId, DeletedSince fileId t.past → t.shm.HasSlot fileId
  counted : t.shm.header.numFileActiveStatus =
    Library.tally ShareMemActiveStatus.isFileSlot true t.shm.activeStatus

variable {cfg : Config} {t : RegistHistory}

theorem makeFileId_ne_invalid (hashcode : Nat) : makeFileId hashcode ≠ FileId.invalid := by
  intro h
  cases congrArg FileId.collisionId h

theorem lawful_start (cfg : Config) : Lawful cfg (start cfg) where
  length := List.length_replicate
  free x hx _ := List.eq_of_mem_replicate hx
  named x hx := by
    rw [List.eq_of_mem_replicate hx]
    decide
  flag x hx hfile := by
    rw [List.eq_of_mem_replicate hx] at hfile
    cases hfile
  since _ h := h.elim
  counted := by
    symm
    refine List.countP_eq_zero.mpr fun x hx => ?_
    rw [List.eq_of_mem_replicate hx]
    decide

/-- A delete counts for a file from the call that registers it on. -/
theorem deletedSince_cons {fileId : FileId} {c : RegistCall} {s : SharedMem}
    {past : List (RegistCall × SharedMem)} (hslot : s.HasSlot fileId) :
    DeletedSince fileId ((c, s) :: past) ↔ c.IsDeleteOf fileId ∨ DeletedSince fileId past :=
  and_iff_right hslot

/-- A call that leaves a slot which is registered for no file keeps the laws. -/
theorem Lawful.vacate (h : Lawful cfg t) {a : Nat} {x : ShareMemActiveStatus}
    {f : ShareMemActiveStatus → ShareMemActiveStatus} {c : RegistCall} {s' : SharedMem}
    (hx : t.shm.activeStatus[a]? = some x) (hfile : (f x).isFileSlot = false)
    (hinvalid : (f x).fileId = FileId.invalid) (hblank : (f x).pid = none → f x = .blank)
    (hc : ∀ fileId, ¬ c.IsDeleteOf fileId)
    (hslots : s'.activeStatus = t.shm.activeStatus.modify a f)
    (hnum : s'.header.numFileActiveStatus =
      if x.isFileSlot then dec32 t.shm.header.numFileActiveStatus
      else t.shm.header.numFileActiveStatus) :
    Lawful cfg ⟨s', (c, s') :: t.past⟩ := by
  -- every slot that is left was there before, but the one that was vacated
  have hmem : ∀ y ∈ s'.activeStatus, y = f x ∨ y ∈ t.shm.activeStatus := by
    intro y hy
    rw [hslots] at hy
    exact Library.mem_modify hx hy
  have hold : ∀ y ∈ s'.activeStatus, y.isFileSlot = true → y ∈ t.shm.activeStatus := by
    intro y hy hyfile
    rcases hmem y hy with rfl | hy
    · rw [hfile] at hyfile
      cases hyfile
    · exact hy
  refine ⟨?_, ?_, ?_, ?_, ?_, ?_⟩
  · simp [hslots, h.length]
  · intro y hy hpid
    rcases hmem y hy with rfl | hy
    · exact hblank hpid
    · exact h.free y hy hpid
  · intro y hy
    rcases hmem y hy with rfl | hy
    · simp [hfile, hinvalid]
    · exact h.named y hy
  · intro y hy hyfile
    have hslot : s'.HasSlot y.fileId := ⟨y, hy, hyfile, rfl⟩
    rw [deletedSince_cons hslot, h.flag y (hold y hy hyfile) hyfile]
    simp [hc]
  · intro fileId hsince
    exact hsince.1
  · have hcount := @Library.tally_modify _ _ _ ShareMemActiveStatus.isFileSlot _ _ _ hx f true
    rw [hslots, hnum, h.counted]
    cases hxfile : x.isFileSlot with
    | true =>
        have hpos := @Library.tally_pos _ _ _ ShareMemActiveStatus.isFileSlot _ _ _ hx
        simp only [hxfile, hfile, reduceCtorEq, if_true, if_false] at hcount hpos ⊢
        rw [dec32, if_neg (by omega)]
        omega
    | false =>
        simp only [hxfile, hfile, reduceCtorEq, if_false] at hcount ⊢
        omega

/-- The table after a registration: one new slot, and the old ones marked. -/
structure Registers (t : RegistHistory) (fileId : FileId) (isDelete : Bool) (s' : SharedMem)
    (x : ShareMemActiveStatus) : Prop where
  fresh : x ∈ s'.activeStatus
  isFile : x.isFileSlot = true
  file : x.fileId = fileId
  inherited : x.shouldDestroy = (isDelete || destroyed fileId t.shm.activeStatus)
  from_old : ∀ y ∈ s'.activeStatus, y = x ∨
    ∃ z ∈ t.shm.activeStatus, y = deleteMark fileId isDelete z
  keeps : ∀ (i : Nat) (z : ShareMemActiveStatus), t.shm.activeStatus[i]? = some z →
    z.isFileSlot = true → s'.activeStatus[i]? = some (deleteMark fileId isDelete z)
  counted : Library.tally ShareMemActiveStatus.isFileSlot true s'.activeStatus =
    Library.tally ShareMemActiveStatus.isFileSlot true t.shm.activeStatus + 1
  length : s'.activeStatus.length = t.shm.activeStatus.length
  num : s'.header.numFileActiveStatus = inc32 t.shm.header.numFileActiveStatus

/-- `registFile` gives the handle a slot of its own. -/
theorem Lawful.registers (h : Lawful cfg t) (pid hashcode : Nat) (isDelete : Bool)
    (hfree : (RegistCall.registFile pid hashcode isDelete).Allowed t.shm) :
    ∃ a s' x, registFile pid (makeFileId hashcode) isDelete t.shm = .ok (some a) s' ∧
      s'.activeStatus[a]? = some x ∧ Registers t (makeFileId hashcode) isDelete s' x := by
  obtain ⟨a, slot, hslot, hnone, hrun⟩ := registFile_takes pid (makeFileId hashcode) isDelete hfree
  have hblank := h.free slot (List.mem_of_getElem? hslot) hnone
  have hmark : (t.shm.activeStatus.map (deleteMark (makeFileId hashcode) isDelete))[a]? =
      some .blank := by
    rw [List.getElem?_map, hslot, hblank, Option.map_some,
      deleteMark_other _ (makeFileId_ne_invalid hashcode).symm]
  let new := assign pid (makeFileId hashcode) isDelete
    (isDelete || destroyed (makeFileId hashcode) t.shm.activeStatus) .blank
  have hnew : ((t.shm.activeStatus.map (deleteMark (makeFileId hashcode) isDelete)).modify a
      (assign pid (makeFileId hashcode) isDelete
        (isDelete || destroyed (makeFileId hashcode) t.shm.activeStatus)))[a]? = some new := by
    simp [hmark, new]
  refine ⟨a, _, new, hrun, hnew, ?_⟩
  refine ⟨List.mem_of_getElem? hnew, rfl, rfl, Bool.false_or _, ?_, ?_, ?_, ?_, rfl⟩
  · intro y hy
    rcases Library.mem_modify hmark hy with rfl | hy
    · exact Or.inl rfl
    · obtain ⟨z, hz, rfl⟩ := List.mem_map.mp hy
      exact Or.inr ⟨z, hz, rfl⟩
  · intro i z hz hzfile
    have hai : a ≠ i := by
      rintro rfl
      rw [hslot, Option.some.injEq] at hz
      rw [← hz, hblank] at hzfile
      cases hzfile
    simp [hai, hz]
  · have hcount := @Library.tally_modify _ _ _ ShareMemActiveStatus.isFileSlot _ _ _ hmark
      (assign pid (makeFileId hashcode) isDelete
        (isDelete || destroyed (makeFileId hashcode) t.shm.activeStatus)) true
    have hmarked : Library.tally ShareMemActiveStatus.isFileSlot true
        (t.shm.activeStatus.map (deleteMark (makeFileId hashcode) isDelete)) =
          Library.tally ShareMemActiveStatus.isFileSlot true t.shm.activeStatus := by
      simp [Library.tally, List.countP_map, Function.comp_def]
    rw [hmarked] at hcount
    exact hcount
  · simp

/-- A file has a slot with the flag exactly when a delete is pending for it. -/
theorem Lawful.destroyed_iff (h : Lawful cfg t) (hashcode : Nat) :
    destroyed (makeFileId hashcode) t.shm.activeStatus = true ↔
      DeletedSince (makeFileId hashcode) t.past := by
  unfold destroyed
  rw [List.any_eq_true]
  constructor
  · rintro ⟨x, hx, hflag⟩
    rw [Bool.and_eq_true, decide_eq_true_eq] at hflag
    obtain ⟨hfile, hdestroy⟩ := hflag
    have hslot : x.isFileSlot = true := by
      rw [h.named x hx, hfile]
      exact makeFileId_ne_invalid hashcode
    rw [← hfile]
    exact (h.flag x hx hslot).mp hdestroy
  · intro hsince
    obtain ⟨x, hx, hslot, hfile⟩ := h.since _ hsince
    refine ⟨x, hx, ?_⟩
    rw [Bool.and_eq_true, decide_eq_true_eq]
    exact ⟨hfile, (h.flag x hx hslot).mpr (hfile ▸ hsince)⟩

/-- Registering a file keeps the laws. -/
theorem Lawful.regist (h : Lawful cfg t) (hmax : cfg.maxConnection < 2 ^ 15) {pid hashcode : Nat}
    {isDelete : Bool} {s' : SharedMem} {x : ShareMemActiveStatus}
    (hreg : Registers t (makeFileId hashcode) isDelete s' x) :
    Lawful cfg ⟨s', (.registFile pid hashcode isDelete, s') :: t.past⟩ := by
  have hslots : ∀ y ∈ s'.activeStatus, y.isFileSlot = true →
      (DeletedSince y.fileId ((.registFile pid hashcode isDelete, s') :: t.past) ↔
        (makeFileId hashcode = y.fileId ∧ isDelete = true) ∨ DeletedSince y.fileId t.past) :=
    fun y hy hyfile => deletedSince_cons ⟨y, hy, hyfile, rfl⟩
  refine ⟨?_, ?_, ?_, ?_, ?_, ?_⟩
  · exact hreg.length.trans h.length
  · intro y hy hpid
    rcases hreg.from_old y hy with rfl | ⟨z, hz, rfl⟩
    · have := hreg.isFile
      simp [ShareMemActiveStatus.isFileSlot, hpid] at this
    · rw [deleteMark_pid] at hpid
      rw [h.free z hz hpid]
      exact deleteMark_other _ (makeFileId_ne_invalid hashcode).symm
  · intro y hy
    rcases hreg.from_old y hy with rfl | ⟨z, hz, rfl⟩
    · simp [hreg.isFile, hreg.file, makeFileId_ne_invalid]
    · rw [deleteMark_isFileSlot, deleteMark_fileId]
      exact h.named z hz
  · intro y hy hyfile
    rw [hslots y hy hyfile]
    rcases hreg.from_old y hy with rfl | ⟨z, hz, rfl⟩
    · rw [hreg.inherited, hreg.file, Bool.or_eq_true, h.destroyed_iff]
      simp
    · rw [deleteMark_isFileSlot] at hyfile
      rw [deleteMark_fileId, ← h.flag z hz hyfile]
      by_cases hfile : z.fileId = makeFileId hashcode
      · rw [deleteMark_shouldDestroy isDelete hfile, Bool.or_eq_true, hfile]
        tauto
      · rw [deleteMark_other isDelete hfile]
        simp [Ne.symm hfile]
  · intro fileId hsince
    exact hsince.1
  · have hle := @Library.tally_le_length _ _ _ ShareMemActiveStatus.isFileSlot s'.activeStatus true
    rw [hreg.length, h.length, hreg.counted] at hle
    rw [hreg.num, h.counted, hreg.counted, inc32, Nat.mod_eq_of_lt (by omega)]

/-- The segment after `unregistFile` by the owner of the slot. -/
theorem unregistFile_run {s : SharedMem} {a pid : Nat} {x : ShareMemActiveStatus}
    (hx : s.activeStatus[a]? = some x) (hpid : x.pid = some pid) :
    unregistFile a pid s = .ok (some x.shouldDestroy)
      ((s.updSlot a fun _ => .blank).updHeader fun h => { h with
        numFileActiveStatus := dec32 h.numFileActiveStatus }) := by
  simp [unregistFile, hx, hpid]

theorem registAdmin_run {s : SharedMem} (pid : Nat)
    (hfree : (s.activeStatus.any fun slot => slot.pid = none) = true) :
    ∃ a x, s.activeStatus[a]? = some x ∧ x.pid = none ∧
      registAdmin pid s = .ok (some a)
        ((s.updSlot a fun slot => { slot with pid := some pid, isAdmin := true }).updHeader
          fun h => { h with numAdminActiveStatus := inc32 h.numAdminActiveStatus }) := by
  cases hfind : s.activeStatus.findIdx? fun slot => slot.pid = none with
  | none =>
      simp only [List.findIdx?_eq_none_iff, decide_eq_false_iff_not] at hfind
      simp only [List.any_eq_true, decide_eq_true_eq] at hfree
      obtain ⟨x, hx, hnone⟩ := hfree
      exact absurd hnone (hfind x hx)
  | some a =>
      obtain ⟨hlt, hnone, _⟩ := List.findIdx?_eq_some_iff_getElem.mp hfind
      refine ⟨a, s.activeStatus[a], List.getElem?_eq_getElem hlt, by simpa using hnone, ?_⟩
      simp [registAdmin, hfind]

theorem unregistAdmin_run {s : SharedMem} {a pid : Nat} {x : ShareMemActiveStatus}
    (hx : s.activeStatus[a]? = some x) (hpid : x.pid = some pid) (hadmin : x.isAdmin = true) :
    unregistAdmin a pid s = .ok true
      ((s.updSlot a fun _ => .blank).updHeader fun h => { h with
        numAdminActiveStatus := dec32 h.numAdminActiveStatus }) := by
  simp [unregistAdmin, hx, hpid, hadmin]

/-- The owner's slot that a call on it names. -/
theorem exists_owned {s : SharedMem} {a : Nat} {p : ShareMemActiveStatus → Bool}
    (h : (s.activeStatus[a]?.any p) = true) :
    ∃ x, s.activeStatus[a]? = some x ∧ p x = true :=
  (Option.any_eq_true p _).mp h

/-- Every allowed call keeps the laws. -/
theorem lawful_step (hmax : cfg.maxConnection < 2 ^ 15) {t t' : RegistHistory} (c : RegistCall)
    (h : Lawful cfg t) (hc : c.Allowed t.shm) (hstep : t.step c = some t') : Lawful cfg t' := by
  cases hstep
  cases c with
  | registFile pid hashcode isDelete =>
      obtain ⟨a, s', x, hrun, _, hreg⟩ := h.registers pid hashcode isDelete hc
      have hs' : RegistCall.run t.shm (.registFile pid hashcode isDelete) = s' := by
        simp [RegistCall.run, Library.after, hrun]
      rw [hs']
      exact h.regist hmax hreg
  | unregistFile a pid =>
      obtain ⟨x, hx, howner⟩ := exists_owned hc
      simp only [Bool.and_eq_true, decide_eq_true_eq, Bool.not_eq_true'] at howner
      have hfile : x.isFileSlot = true := by simp [ShareMemActiveStatus.isFileSlot, howner]
      simp only [RegistCall.run, Library.after, unregistFile_run hx howner.1]
      apply h.vacate hx rfl rfl (fun _ => rfl) (fun _ => id) rfl
      rw [if_pos hfile]
      rfl
  | registAdmin pid =>
      obtain ⟨a, x, hx, hnone, hrun⟩ := registAdmin_run pid hc
      have hblank := h.free x (List.mem_of_getElem? hx) hnone
      simp only [RegistCall.run, Library.after, hrun]
      apply h.vacate hx rfl (by rw [hblank]; rfl) (fun hpid => by cases hpid) (fun _ => id) rfl
      rw [hblank]
      rfl
  | unregistAdmin a pid =>
      obtain ⟨x, hx, howner⟩ := exists_owned hc
      simp only [Bool.and_eq_true, decide_eq_true_eq] at howner
      have hfile : x.isFileSlot = false := by simp [ShareMemActiveStatus.isFileSlot, howner]
      simp only [RegistCall.run, Library.after, unregistAdmin_run hx howner.1 howner.2]
      apply h.vacate hx rfl rfl (fun _ => rfl) (fun _ => id) rfl
      rw [hfile]
      rfl

/-- A call about one file leaves every slot of another. -/
theorem Lawful.others (h : Lawful cfg t) (c : RegistCall) {i : Nat} {x : ShareMemActiveStatus}
    (hc : c.Allowed t.shm) (hx : t.shm.activeStatus[i]? = some x) (hfile : x.isFileSlot = true)
    (hother : c.file t.shm ≠ some x.fileId) : (c.run t.shm).activeStatus[i]? = some x := by
  cases c with
  | registFile pid hashcode isDelete =>
      obtain ⟨a, s', y, hrun, _, hreg⟩ := h.registers pid hashcode isDelete hc
      have hne : x.fileId ≠ makeFileId hashcode := fun heq => hother (by rw [heq]; rfl)
      simp only [RegistCall.run, Library.after, hrun]
      rw [hreg.keeps i x hx hfile, deleteMark_other _ hne]
  | unregistFile a pid =>
      obtain ⟨y, hy, howner⟩ := exists_owned hc
      simp only [Bool.and_eq_true, decide_eq_true_eq] at howner
      have hai : a ≠ i := by
        rintro rfl
        apply hother
        rw [RegistCall.file, hx]
        rfl
      simp [RegistCall.run, Library.after, unregistFile_run hy howner.1, SharedMem.updSlot_other,
        hai, hx]
  | registAdmin pid =>
      obtain ⟨a, y, hy, hnone, hrun⟩ := registAdmin_run pid hc
      have hai : a ≠ i := by
        rintro rfl
        rw [hx, Option.some.injEq] at hy
        simp [ShareMemActiveStatus.isFileSlot, hy, hnone] at hfile
      simp [RegistCall.run, Library.after, hrun, SharedMem.updSlot_other, hai, hx]
  | unregistAdmin a pid =>
      obtain ⟨y, hy, howner⟩ := exists_owned hc
      simp only [Bool.and_eq_true, decide_eq_true_eq] at howner
      have hai : a ≠ i := by
        rintro rfl
        rw [hx, Option.some.injEq] at hy
        simp [ShareMemActiveStatus.isFileSlot, hy, howner] at hfile
      simp [RegistCall.run, Library.after, unregistAdmin_run hy howner.1 howner.2,
        SharedMem.updSlot_other, hai, hx]

theorem Lawful.opening (h : Lawful cfg t) (hashcode : Nat) :
    ∃ found, isFileOpening (makeFileId hashcode) t.shm = .ok found t.shm ∧
      (found = true ↔ t.shm.HasSlot (makeFileId hashcode)) := by
  refine ⟨t.shm.activeStatus.any fun slot => slot.fileId = makeFileId hashcode, rfl, ?_⟩
  simp only [List.any_eq_true, decide_eq_true_eq]
  constructor
  · rintro ⟨x, hx, hfile⟩
    refine ⟨x, hx, ?_, hfile⟩
    rw [h.named x hx, hfile]
    exact makeFileId_ne_invalid hashcode
  · rintro ⟨x, hx, _, hfile⟩
    exact ⟨x, hx, hfile⟩

/-- In every history of registrations in which each registration finds a free slot
and each slot is unregistered by its owner, the laws of deferred deletion hold. The
header keeps the size of the table in an `int16_t`. -/
theorem deferred_delete {cfg : Config} (hmax : cfg.maxConnection < 2 ^ 15) {t : RegistHistory}
    (hrun : Library.Run step (fun t c => c.Allowed t.shm) (start cfg) t) : Deferred t := by
  have h : Lawful cfg t := by
    apply hrun.induct (lawful_start cfg)
    intro t c t' h hc hstep
    exact lawful_step hmax c h hc hstep
  refine ⟨?_, h.flag, ?_, ?_, ?_, h.opening, ?_⟩
  · intro x hx y hy hxfile hyfile heq
    rw [Bool.eq_iff_iff, h.flag x hx hxfile, h.flag y hy hyfile, heq]
  · intro a pid x hx hpid hadmin
    have hfile : x.isFileSlot = true := by
      simp [ShareMemActiveStatus.isFileSlot, hpid, hadmin]
    exact ⟨x.shouldDestroy, _, unregistFile_run hx hpid, h.flag x (List.mem_of_getElem? hx) hfile⟩
  · intro pid hashcode isDelete hc hsince
    obtain ⟨a, s', x, hrun, hx, hreg⟩ := h.registers pid hashcode isDelete hc
    refine ⟨a, s', x, hrun, hx, hreg.file, ?_⟩
    rw [hreg.inherited, (h.destroyed_iff hashcode).mpr hsince, Bool.or_true]
  · intro c i x hc hx hfile hother
    exact h.others c hc hx hfile hother
  · rw [h.counted]
    simp [Library.tally]

/-- A handle is open when the file is deleted, a second one opens afterwards, and
the first one leaves. -/
def reopened : List RegistCall :=
  [.registFile 1 7 false, .registFile 2 7 true, .registFile 3 7 false, .registFile 3 8 false,
    .unregistFile 0 1]

theorem deferred_delete_reopened : ∃ t,
    Library.execute step (fun t c => c.Allowed t.shm) (start (.intact 0 0 4 1)) reopened = some t ∧
      t.shm.activeStatus.map ShareMemActiveStatus.shouldDestroy = [false, true, true, false] ∧
      Deferred t := by
  have hflags : (Library.execute step (fun t c => c.Allowed t.shm) (start (.intact 0 0 4 1))
      reopened).map (fun t => t.shm.activeStatus.map ShareMemActiveStatus.shouldDestroy) =
        some [false, true, true, false] := by
    decide +kernel
  obtain ⟨t, ht, hflags⟩ := Option.map_eq_some_iff.mp hflags
  have hmax : (Config.intact 0 0 4 1).maxConnection < 2 ^ 15 := by decide
  exact ⟨t, ht, hflags, deferred_delete hmax (Library.Run.of_execute ht)⟩

end RegistHistory

end Gopherwood
