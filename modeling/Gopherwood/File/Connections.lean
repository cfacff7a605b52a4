/-
# Connections

A handle of either kind takes a slot when it registers and gives it back when it
closes. Whatever the interleaving, and whether calls return or throw, the slots
in use are those of the registered handles, one slot a handle, and the two
counters of the header count them. So a registration is refused only when as
many handles are registered as the segment has slots.
-/

import Gopherwood.File.Opening
import Gopherwood.Library.Tally
import Mathlib.Data.List.Nodup

namespace Gopherwood

open Library (Run Spec Keeps anyStep execute)
open SharedMem (Moves Leads)

/-- The process and the file of every slot, and the two counters. -/
structure Connections where
  roster : List (Option Nat × FileId)
  numFile : Nat
  numAdmin : Nat

namespace Connections

/-- A file handle takes slot `a`. -/
def join (c : Connections) (a : Nat) (entry : Option Nat × FileId) : Connections :=
  { c with roster := c.roster.set a entry, numFile := inc32 c.numFile }

/-- A file handle gives slot `a` back. -/
def leave (c : Connections) (a : Nat) : Connections :=
  { c with roster := c.roster.set a SharedMemoryContext.noHandle, numFile := dec32 c.numFile }

/-- An admin handle takes slot `a`. -/
def joinAdmin (c : Connections) (a : Nat) (entry : Option Nat × FileId) : Connections :=
  { c with roster := c.roster.set a entry, numAdmin := inc32 c.numAdmin }

/-- An admin handle gives slot `a` back. -/
def leaveAdmin (c : Connections) (a : Nat) : Connections :=
  { c with roster := c.roster.set a SharedMemoryContext.noHandle, numAdmin := dec32 c.numAdmin }

/-- The slots that belong to a process. -/
def taken (c : Connections) : List Nat :=
  (List.range c.roster.length).filter fun a => c.roster[a]?.any fun entry => entry.1.isSome

theorem mem_taken {c : Connections} {a : Nat} :
    a ∈ c.taken ↔ ∃ pid f, c.roster[a]? = some (some pid, f) := by
  simp only [taken, List.mem_filter, List.mem_range, Option.any_eq_true]
  constructor
  · rintro ⟨-, ⟨pid, f⟩, ha, hsome⟩
    obtain ⟨pid, rfl⟩ := Option.isSome_iff_exists.mp hsome
    exact ⟨pid, f, ha⟩
  · rintro ⟨pid, f, ha⟩
    exact ⟨(List.getElem?_eq_some_iff.mp ha).1, _, ha, rfl⟩

theorem nodup_taken (c : Connections) : c.taken.Nodup := List.nodup_range.filter _

theorem length_taken_le (c : Connections) : c.taken.length ≤ c.roster.length :=
  List.length_range (n := c.roster.length) ▸ List.length_filter_le ..

/-- All slots are taken when none is free. -/
theorem length_taken_eq {c : Connections} :
    c.taken.length = c.roster.length ↔ ∀ entry ∈ c.roster, entry.1 ≠ none := by
  have hlength : (List.range c.roster.length).length = c.roster.length := List.length_range
  constructor
  · intro hall entry hmem hnone
    obtain ⟨a, ha⟩ := List.mem_iff_getElem?.mp hmem
    have hevery := List.length_filter_eq_length_iff.mp (hall.trans hlength.symm) a
      (List.mem_range.mpr (List.getElem?_eq_some_iff.mp ha).1)
    simp [ha, hnone] at hevery
  · intro hall
    refine (List.length_filter_eq_length_iff.mpr fun a ha => ?_).trans hlength
    have hlt := List.mem_range.mp ha
    have hsome := hall _ (List.getElem_mem hlt)
    simpa [List.getElem?_eq_getElem hlt, Option.isSome_iff_ne_none] using hsome

variable {c c' : Connections} {a : Nat} {f g : FileId} {pid : Nat}

/-- A free slot that is taken. -/
theorem taken_set (hfree : c.roster[a]? = some (none, f))
    (hroster : c'.roster = c.roster.set a (some pid, g)) : c'.taken.Perm (a :: c.taken) := by
  have hlt := (List.getElem?_eq_some_iff.mp hfree).1
  have hnot : a ∉ c.taken := by
    rw [mem_taken]
    rintro ⟨p, h, hsome⟩
    rw [hfree] at hsome
    simp at hsome
  refine (List.perm_ext_iff_of_nodup (nodup_taken _)
    (List.nodup_cons.mpr ⟨hnot, nodup_taken _⟩)).mpr
    fun b => ?_
  rw [List.mem_cons, mem_taken, mem_taken, hroster]
  by_cases hab : a = b
  · subst hab
    simp [hlt]
  · simp [List.getElem?_set_ne hab, Ne.symm hab]

/-- A slot that is given back. -/
theorem taken_blank (htaken : c.roster[a]? = some (some pid, f))
    (hroster : c'.roster = c.roster.set a SharedMemoryContext.noHandle) :
    (a :: c'.taken).Perm c.taken := by
  have hlt := (List.getElem?_eq_some_iff.mp htaken).1
  have hnot : a ∉ c'.taken := by
    rw [mem_taken, hroster]
    simp [hlt, SharedMemoryContext.noHandle]
  refine (List.perm_ext_iff_of_nodup (List.nodup_cons.mpr ⟨hnot, nodup_taken _⟩)
    (nodup_taken _)).mpr
    fun b => ?_
  rw [List.mem_cons, mem_taken, mem_taken, hroster]
  by_cases hab : a = b
  · subst hab
    simp [htaken]
  · simp [List.getElem?_set_ne hab, Ne.symm hab]

end Connections

def SharedMem.connections (s : SharedMem) : Connections :=
  ⟨s.roster, s.header.numFileActiveStatus, s.header.numAdminActiveStatus⟩

/-- No move changes a connection. -/
theorem SharedMem.Moves.connections {m : Move} {s s' : SharedMem} (h : Moves m s s') :
    s'.connections = s.connections := by
  have hheader : s'.header.numFileActiveStatus = s.header.numFileActiveStatus ∧
      s'.header.numAdminActiveStatus = s.header.numAdminActiveStatus := by
    cases h <;> exact ⟨rfl, rfl⟩
  simp only [SharedMem.connections, h.roster, hheader]

namespace SharedMemoryContext

/-- `registFile` counts the slot it assigns. -/
theorem registFile_header {pid : Nat} {fileId : FileId} {isDelete : Bool} {s s' : SharedMem}
    {assigned : Option Nat} (hrun : registFile pid fileId isDelete s = .ok assigned s') :
    s'.header = match assigned with
      | none => s.header
      | some _ => { s.header with numFileActiveStatus := inc32 s.header.numFileActiveStatus } := by
  obtain ⟨⟨slots, activeId, destroy⟩, hscan⟩ :
      ∃ scanned, registFile.scan pid fileId isDelete 0 s.activeStatus none isDelete = scanned :=
    ⟨_, rfl⟩
  simp only [registFile, Library.run_bind, Library.run_get, hscan, Library.run_set] at hrun
  cases activeId with
  | none =>
      simp only [Library.run_pure, EStateM.Result.ok.injEq] at hrun
      obtain ⟨rfl, rfl⟩ := hrun
      rfl
  | some a =>
      cases destroy with
      | false =>
          simp only [Library.run_bind, run_modifyHeader, Bool.false_eq_true, if_false,
            Library.run_pure, EStateM.Result.ok.injEq] at hrun
          obtain ⟨rfl, rfl⟩ := hrun
          rfl
      | true =>
          simp only [Library.run_bind, run_modifyHeader, run_modifySlot, if_true,
            Library.run_pure, EStateM.Result.ok.injEq] at hrun
          obtain ⟨rfl, rfl⟩ := hrun
          rfl

theorem registAdmin_header {pid : Nat} {s s' : SharedMem} {assigned : Option Nat}
    (hrun : registAdmin pid s = .ok assigned s') :
    s'.header = match assigned with
      | none => s.header
      | some _ =>
          { s.header with numAdminActiveStatus := inc32 s.header.numAdminActiveStatus } := by
  cases hfind : s.activeStatus.findIdx? fun slot => slot.pid = none with
  | none =>
      simp only [registAdmin, Library.run_bind, Library.run_get, hfind, Library.run_pure,
        EStateM.Result.ok.injEq] at hrun
      obtain ⟨rfl, rfl⟩ := hrun
      rfl
  | some a =>
      simp only [registAdmin, Library.run_bind, Library.run_get, hfind, run_modifyHeader,
        run_modifySlot, Library.run_pure, EStateM.Result.ok.injEq] at hrun
      obtain ⟨rfl, rfl⟩ := hrun
      rfl

theorem unregistFile_header {a pid : Nat} {s s' : SharedMem} {left : Option Bool}
    (hrun : unregistFile a pid s = .ok left s') :
    s'.header = match left with
      | none => s.header
      | some _ => { s.header with numFileActiveStatus := dec32 s.header.numFileActiveStatus } := by
  cases hslot : s.activeStatus[a]? with
  | none =>
      simp only [unregistFile, Library.run_bind, Library.run_get, hslot, Library.run_pure,
        EStateM.Result.ok.injEq] at hrun
      obtain ⟨rfl, rfl⟩ := hrun
      rfl
  | some slot =>
      by_cases hmine : slot.pid = some pid
      · simp only [unregistFile, Library.run_bind, Library.run_get, hslot, if_pos hmine,
          run_modifyHeader, run_modifySlot, Library.run_pure, EStateM.Result.ok.injEq] at hrun
        obtain ⟨rfl, rfl⟩ := hrun
        rfl
      · simp only [unregistFile, Library.run_bind, Library.run_get, hslot, if_neg hmine,
          Library.run_pure, EStateM.Result.ok.injEq] at hrun
        obtain ⟨rfl, rfl⟩ := hrun
        rfl

theorem unregistAdmin_header {a pid : Nat} {s s' : SharedMem} {left : Bool}
    (hrun : unregistAdmin a pid s = .ok left s') :
    s'.header = if left then
      { s.header with numAdminActiveStatus := dec32 s.header.numAdminActiveStatus }
      else s.header := by
  cases hslot : s.activeStatus[a]? with
  | none =>
      simp only [unregistAdmin, Library.run_bind, Library.run_get, hslot, Library.run_pure,
        EStateM.Result.ok.injEq] at hrun
      obtain ⟨rfl, rfl⟩ := hrun
      rfl
  | some slot =>
      by_cases hmine : slot.pid = some pid ∧ slot.isAdmin = true
      · simp only [unregistAdmin, Library.run_bind, Library.run_get, hslot, if_pos hmine,
          run_modifyHeader, run_modifySlot, Library.run_pure, EStateM.Result.ok.injEq] at hrun
        obtain ⟨rfl, rfl⟩ := hrun
        rfl
      · simp only [unregistAdmin, Library.run_bind, Library.run_get, hslot, if_neg hmine,
          Library.run_pure, EStateM.Result.ok.injEq] at hrun
        obtain ⟨rfl, rfl⟩ := hrun
        rfl

end SharedMemoryContext

namespace World

variable {cfg : Config} {w w' : World} {act : Action} {n : Nat} {h h' : FileActiveStatus}

/-! ## What a step does to the connections -/

/-- The connections are those of `w`. -/
def SameConnections (w : World) (s : SharedMem) : Prop := s.connections = w.shm.connections

/-- Handle `h` has given its slot back. -/
def ConnectionLeft (w : World) (h : FileActiveStatus) (s : SharedMem) : Prop :=
  ∃ a, h.activeId = some a ∧ (∃ f, w.shm.roster[a]? = some (some h.pid, f)) ∧
    s.connections = w.shm.connections.leave a

/-- Handle `h` has taken the free slot `a`. -/
def ConnectionTaken (w : World) (h : FileActiveStatus) (a : Nat) (s : SharedMem) : Prop :=
  (∃ f, w.shm.roster[a]? = some (none, f)) ∧
    s.connections = w.shm.connections.join a (some h.pid, h.fileId)

theorem leads_sameConnections (w : World) (m : Move) :
    Leads w.SameConnections m w.SameConnections :=
  fun _ _ hmove hs => hmove.connections.trans hs

theorem leads_connectionLeft (w : World) (h : FileActiveStatus) (m : Move) :
    Leads (w.ConnectionLeft h) m (w.ConnectionLeft h) := by
  rintro s s' hmove ⟨a, ha, hmine, hs⟩
  exact ⟨a, ha, hmine, hmove.connections.trans hs⟩

theorem unregistFile_connections {a : Nat} (ha : h.activeId = some a) :
    Spec w.SameConnections (SharedMemoryContext.unregistFile a h.pid)
      (fun left => if left = none then w.SameConnections else w.ConnectionLeft h)
      (fun _ => w.SameConnections) := by
  intro s hs
  have hroster : s.roster = w.shm.roster := congrArg Connections.roster hs
  have hcounts : s.header.numFileActiveStatus = w.shm.header.numFileActiveStatus ∧
      s.header.numAdminActiveStatus = w.shm.header.numAdminActiveStatus :=
    ⟨congrArg Connections.numFile hs, congrArg Connections.numAdmin hs⟩
  rcases SharedMemoryContext.unregistFile_cases a h.pid s with
    hrun | ⟨s', f, destroy, -, hmine, hrun, hroster'⟩
  · rw [hrun]
    exact hs
  · have hheader := SharedMemoryContext.unregistFile_header hrun
    rw [hrun]
    refine ⟨a, ha, ⟨f, hroster ▸ hmine⟩, ?_⟩
    simp only [SharedMem.connections, Connections.leave, hroster', hroster, hheader, hcounts]

theorem registFile_connections (isDelete : Bool) :
    Spec w.SameConnections (SharedMemoryContext.registFile h.pid h.fileId isDelete)
      (fun assigned s => match assigned with
        | none => w.SameConnections s
        | some a => w.ConnectionTaken h a s) (fun _ => w.SameConnections) := by
  intro s hs
  have hroster : s.roster = w.shm.roster := congrArg Connections.roster hs
  have hcounts : s.header.numFileActiveStatus = w.shm.header.numFileActiveStatus ∧
      s.header.numAdminActiveStatus = w.shm.header.numAdminActiveStatus :=
    ⟨congrArg Connections.numFile hs, congrArg Connections.numAdmin hs⟩
  obtain ⟨s', -, ⟨hrun, hroster'⟩ | ⟨a, f, hfree, hrun, hroster'⟩⟩ :=
    SharedMemoryContext.registFile_cases h.pid h.fileId isDelete s
  · have hheader := SharedMemoryContext.registFile_header hrun
    rw [hrun]
    change s'.connections = w.shm.connections
    simp only [SharedMem.connections, hroster', hroster, hheader, hcounts]
  · have hheader := SharedMemoryContext.registFile_header hrun
    rw [hrun]
    refine ⟨⟨f, hroster ▸ hfree⟩, ?_⟩
    simp only [SharedMem.connections, Connections.join, hroster', hroster, hheader, hcounts]

/-- The slots of the registered file handles. -/
def fileSlots (w : World) : List Nat := w.files.filterMap FileActiveStatus.activeId

/-- The slots of the registered admin handles. -/
def adminSlots (w : World) : List Nat := w.admins.filterMap AdminActiveStatus.activeId

/-- The slot of an admin handle, and the connections, after its step. -/
inductive AdminSeat (w w' : World) (a a' : AdminActiveStatus) : Prop
  | stays (hid : a'.activeId = a.activeId) (hshm : w'.shm.connections = w.shm.connections)
  | joins (hpc : a.pc = .regist) (id : Nat) (f : FileId)
      (hfree : w.shm.roster[id]? = some (none, f)) (hid : a'.activeId = some id)
      (hshm : w'.shm.connections = w.shm.connections.joinAdmin id (some a.pid, f))
  | leaves (id : Nat) (f : FileId) (hmine : w.shm.roster[id]? = some (some a.pid, f))
      (hid : a.activeId = some id) (hnone : a'.activeId = none)
      (hshm : w'.shm.connections = w.shm.connections.leaveAdmin id)

/-- Every step does one of these to the handles' slots and to the connections. -/
inductive Reseats (w w' : World) : Prop
  | stays (hfiles : w'.fileSlots = w.fileSlots) (hadmins : w'.admins = w.admins)
      (hshm : w'.shm.connections = w.shm.connections)
  | joins (a : Nat) (pid : Nat) (f g : FileId) (hfree : w.shm.roster[a]? = some (none, f))
      (hfiles : w'.fileSlots.Perm (a :: w.fileSlots)) (hadmins : w'.admins = w.admins)
      (hshm : w'.shm.connections = w.shm.connections.join a (some pid, g))
  | leaves (a : Nat) (pid : Nat) (f : FileId) (hmine : w.shm.roster[a]? = some (some pid, f))
      (hfiles : (a :: w'.fileSlots).Perm w.fileSlots) (hadmins : w'.admins = w.admins)
      (hshm : w'.shm.connections = w.shm.connections.leave a)
  /-- An admin handle is constructed. -/
  | opensAdmin (pid : Nat) (hfiles : w'.fileSlots = w.fileSlots)
      (hadmins : w'.admins = w.admins ++ [⟨pid, none, .regist⟩])
      (hshm : w'.shm.connections = w.shm.connections)
  /-- An admin handle works; it does not register again. -/
  | admin (n : Nat) (a a' : AdminActiveStatus) (hn : w.admins[n]? = some a)
      (hfiles : w'.fileSlots = w.fileSlots) (hadmins : w'.admins = w.admins.set n a')
      (hpc : a'.pc ≠ .regist) (hseat : w.AdminSeat w' a a')

theorem fileSlots_set (hn : w.files[n]? = some h) (hfiles : w'.files = w.files.set n h')
    (hid : h'.activeId = h.activeId) : w'.fileSlots = w.fileSlots := by
  rw [fileSlots, hfiles]
  exact Library.filterMap_set_same hn hid

theorem fileSlots_perm (hn : w.files[n]? = some h) (hfiles : w'.files = w.files.set n h') :
    (h.activeId.toList ++ w'.fileSlots).Perm (h'.activeId.toList ++ w.fileSlots) := by
  rw [fileSlots, hfiles, List.set_eq_modify]
  exact Library.filterMap_modify_perm hn fun _ => h'

theorem reseats_of_same (hfiles : w'.files = w.files) (hadmins : w'.admins = w.admins)
    (hshm : w'.shm = w.shm) : w.Reseats w' :=
  .stays (by rw [fileSlots, hfiles]; rfl) hadmins (by rw [hshm])

theorem reseats_of_local (hn : w.files[n]? = some h) (hlocal : Local n w w') : w.Reseats w' := by
  obtain ⟨h', hl, hfiles⟩ := hlocal.files h hn
  exact .stays (fileSlots_set hn hfiles hl.sameIdentity.activeId) hlocal.admins (by rw [hlocal.shm])

theorem reseats_of_session {c : Ctx} (hn : w.files[n]? = some h)
    (hc : Session (w.untracked h) w.SameConnections False c) (hreflects : Reflects n w w' c) :
    w.Reseats w' := by
  obtain ⟨h', hlocal, hfiles⟩ := hreflects.files
  exact .stays (fileSlots_set hn hfiles
      (hlocal.sameIdentity.activeId.trans hc.identity.activeId))
    hreflects.admins (hreflects.shm ▸ hc.segment)

/-- The step that closes a handle. -/
theorem reseats_of_close {isCancel : Bool} (hn : w.files[n]? = some h)
    (hpc : h.pc = .close isCancel) (hstep : w.stepFile cfg n h = some w') : w.Reseats w' := by
  have hbenign :=
    (Scope.passes_of_moves (S := w.untracked h) w.leads_sameConnections cfg h.pc).benign
  obtain ⟨c, hc, hreflects⟩ := stepFile_close hbenign (fun a ha => unregistFile_connections ha)
    (fun _ => w.leads_connectionLeft h _) (fun _ => w.leads_connectionLeft h _) hn
    (session_untracked rfl) hpc hstep
  rcases hc with hc | hc
  · exact reseats_of_session hn hc hreflects
  · obtain ⟨h', hlocal, hfiles⟩ := hreflects.files
    obtain ⟨a, ha, ⟨f, hmine⟩, hleft⟩ := hc.segment
    have hnone : h'.activeId = none := hlocal.sameIdentity.activeId.trans hc.activeId
    have hperm := fileSlots_perm hn hfiles
    rw [show h.activeId = some a from ha, hnone] at hperm
    exact .leaves a h.pid f hmine hperm hreflects.admins (hreflects.shm ▸ hleft)

/-- The step that registers a handle. -/
theorem reseats_of_regist (hn : w.files[n]? = some h) (hnone : h.activeId = none)
    (hpc : h.pc = .regist) (hstep : w.stepFile cfg n h = some w') : w.Reseats w' := by
  have hspec := FileActiveStatus.registInSharedMem_spec (S := w.untracked h)
    (fun isDelete => registFile_connections isDelete) (w.ctx h) (session_untracked rfl)
  have hrun := stepFile_regist hpc hstep
  cases hreg : FileActiveStatus.registInSharedMem (w.ctx h) with
  | ok u c =>
      rw [hreg] at hspec hrun
      obtain ⟨a, hc⟩ := hspec
      obtain ⟨pc, hopening, hfiles, hadmins, hshm, hfolder⟩ := hrun
      obtain ⟨⟨f, hfree⟩, htaken⟩ := hc.segment
      have hperm := fileSlots_perm hn hfiles
      rw [hnone, show ({ c.self with pc := pc } : FileActiveStatus).activeId = some a from
        hc.identity.activeId] at hperm
      exact .joins a h.pid f h.fileId hfree hperm hadmins (hshm ▸ htaken)
  | error e c =>
      rw [hreg] at hspec hrun
      obtain ⟨hfiles, hadmins, hshm, hfolder⟩ := hrun
      exact .stays (fileSlots_set hn hfiles hspec.identity.activeId) hadmins (hshm ▸ hspec.segment)

/-- A step of a handle's thread. -/
theorem reseats_of_file (hw : w.Enrolled) (hn : w.files[n]? = some h)
    (hstep : w.stepFile cfg n h = some w') : w.Reseats w' := by
  by_cases hclose : ∃ isCancel, h.pc = .close isCancel
  · obtain ⟨isCancel, hpc⟩ := hclose
    exact reseats_of_close hn hpc hstep
  · cases hopening : h.pc.isOpening with
    | false =>
        obtain ⟨c, hc, hreflects⟩ := stepFile_session
          (Scope.passes_of_moves w.leads_sameConnections cfg h.pc) hn (session_untracked rfl)
          hopening (fun isCancel hpc => hclose ⟨isCancel, hpc⟩) hstep
        exact reseats_of_session hn hc hreflects
    | true =>
        have hnone := hw.opening n h hn hopening
        cases hpc : h.pc with
        | regist => exact reseats_of_regist hn hnone hpc hstep
        | openManifest =>
            unfold stepFile at hstep
            simp only [hpc, Option.some.injEq] at hstep
            subst hstep
            exact .stays (@fileSlots_set w (w.setFile n _) n h _ hn rfl rfl) rfl rfl
        | _ => simp [hpc, Pc.isOpening] at hopening

/-- The end of a load. -/
theorem reseats_of_finishLoad {i : Nat} {prog : StatusM Unit} (hn : w.files[n]? = some h)
    (hprog : Keeps (Session (w.untracked h) w.SameConnections False) prog) :
    w.Reseats (w.finishLoad i n h prog) := by
  obtain ⟨c, h', hc, hlocal, -, hfiles, hadmins, hshm, hfolder⟩ := finishLoad_cases (i := i)
    (n := n) (Spec.weaken_pre hprog fun _ hs => hs ▸ session_untracked rfl)
  exact reseats_of_session hn hc ⟨hshm, hfolder, hadmins, h', hlocal, hfiles⟩

theorem reseats_of_load {i : Nat} {task : LoadTask} (hstep : w.stepLoad cfg i task = some w') :
    w.Reseats w' := by
  unfold stepLoad at hstep
  cases hphase : task.phase with
  | start =>
      simp only [hphase, Option.some.injEq] at hstep
      subst hstep
      split
      · exact reseats_of_same rfl rfl rfl
      · exact reseats_of_same rfl rfl rfl
  | fetched data =>
      simp only [hphase] at hstep
      split at hstep
      · cases hstep
        exact reseats_of_same rfl rfl rfl
      · cases hstep
        exact reseats_of_same rfl rfl rfl
  | stored size =>
      simp only [hphase] at hstep
      cases hstep
      exact reseats_of_same rfl rfl rfl
  | removed size =>
      simp only [hphase] at hstep
      split at hstep
      · cases hstep
      · next h hn =>
          split at hstep
          · cases hstep
          · cases hstep
            exact reseats_of_finishLoad hn (untracked_loadSucceeded
              (fun _ _ _ => w.leads_sameConnections _) (fun _ _ _ => w.leads_sameConnections _)
              task.info size)
  | failed =>
      simp only [hphase] at hstep
      split at hstep
      · cases hstep
      · next h hn =>
          split at hstep
          · cases hstep
          · cases hstep
            exact reseats_of_finishLoad hn (FileActiveStatus.loadFailed_session
              (fun _ _ _ => w.leads_sameConnections _) task.info)

variable {a a' : AdminActiveStatus}

/-- A step of an admin handle that keeps its slot. -/
theorem reseats_of_admin {pc : AdminPc} (hn : w.admins[n]? = some a) (hfiles : w'.files = w.files)
    (hadmins : w'.admins = w.admins.set n { a with pc := pc }) (hpc : pc ≠ .regist)
    (hshm : w.SameConnections w'.shm) : w.Reseats w' :=
  .admin n a _ hn (by rw [fileSlots, hfiles]; rfl) hadmins hpc (.stays rfl hshm)

theorem reseats_of_adminFinish (hn : w.admins[n]? = some a) (activeId : Nat) (found : Bool)
    (info : Option BlockInfo) : w.Reseats (w.adminFinish n a activeId found info) := by
  have hkeep : Keeps w.SameConnections (SharedMemoryContext.evictBucketFinishAndTryFree
      (info.bind BlockInfo.bucketId) activeId) :=
    SharedMemoryContext.evictBucketFinishAndTryFree_spec (w.leads_sameConnections _)
      (w.leads_sameConnections _) fun _ _ => w.leads_sameConnections _
  have hback : ∀ {w₁ : World} {pc : AdminPc}, w₁.files = w.files →
      w₁.admins = w.admins.set n { a with pc := pc } → pc ≠ .regist →
      w.SameConnections w₁.shm → w.Reseats w₁ :=
    fun hfiles hadmins hpc hshm => reseats_of_admin hn hfiles hadmins hpc hshm
  unfold adminFinish
  cases hrun : SharedMemoryContext.evictBucketFinishAndTryFree (info.bind BlockInfo.bucketId)
      activeId w.shm with
  | error e shm => exact hback rfl rfl (by simp) (hkeep.error rfl hrun)
  | ok rc shm =>
      have hshm := hkeep.ok rfl hrun
      cases info with
      | none => exact hback rfl rfl (by simp) hshm
      | some info =>
          simp only
          split
          · split
            · unfold adminLogEvict
              split
              · exact hback rfl rfl (by simp) hshm
              · exact hback rfl rfl (by simp) hshm
            · exact hback rfl rfl (by simp) hshm
          · exact hback rfl rfl (by simp) hshm

theorem reseats_of_stepAdmin (hn : w.admins[n]? = some a)
    (hstep : w.stepAdmin cfg n a = some w') :
    w.Reseats w' := by
  have hback : ∀ {w₁ : World} {pc : AdminPc}, w₁.files = w.files →
      w₁.admins = w.admins.set n { a with pc := pc } → pc ≠ .regist →
      w.SameConnections w₁.shm → w.Reseats w₁ :=
    fun hfiles hadmins hpc hshm => reseats_of_admin hn hfiles hadmins hpc hshm
  unfold stepAdmin at hstep
  split at hstep
  · next hpc =>
      simp only [Option.some.injEq] at hstep
      subst hstep
      obtain ⟨s', -, ⟨hrun, hroster⟩ | ⟨id, f, hfree, hrun, hroster⟩⟩ :=
        SharedMemoryContext.registAdmin_cases a.pid w.shm
      · have hheader := SharedMemoryContext.registAdmin_header hrun
        rw [hrun]
        refine hback rfl rfl (by simp) ?_
        change s'.connections = w.shm.connections
        simp only [SharedMem.connections, hroster, hheader]
      · have hheader := SharedMemoryContext.registAdmin_header hrun
        rw [hrun]
        refine .admin n a _ hn rfl rfl (by simp) (.joins hpc id f hfree rfl ?_)
        change s'.connections = _
        simp only [SharedMem.connections, Connections.joinAdmin, hroster, hheader]
  · simp only [Option.some.injEq] at hstep
    subst hstep
    next found info activeId _ _ =>
      have hkeep : Keeps w.SameConnections (SharedMemoryContext.markBucketEvicting activeId) :=
        SharedMemoryContext.markBucketEvicting_spec (w.leads_sameConnections _)
          (fun _ => w.leads_sameConnections _)
          fun s s' _ _ hs _ hmove => w.leads_sameConnections _ s s' hmove hs
      split
      · cases hrun : SharedMemoryContext.markBucketEvicting activeId w.shm with
        | ok info shm => exact hback rfl rfl (by simp) (hkeep.ok rfl hrun)
        | error e shm => exact hback rfl rfl (by simp) (hkeep.error rfl hrun)
      · split
        · exact hback rfl rfl (by simp) rfl
        · exact hback rfl rfl (by simp) rfl
  · simp only [Option.some.injEq] at hstep
    subst hstep
    split
    · exact hback rfl rfl (by simp) rfl
    · exact hback rfl rfl (by simp) rfl
  · simp only [Option.some.injEq] at hstep
    subst hstep
    exact hback rfl rfl (by simp) rfl
  · simp only [Option.some.injEq] at hstep
    subst hstep
    exact reseats_of_adminFinish hn _ _ _
  · simp only [Option.some.injEq] at hstep
    subst hstep
    next activeId _ hid =>
      rcases SharedMemoryContext.unregistAdmin_cases activeId a.pid w.shm with
        hrun | ⟨s', f, -, hmine, hrun, hroster⟩
      · rw [hrun]
        exact hback rfl rfl (by simp) rfl
      · have hheader := SharedMemoryContext.unregistAdmin_header hrun
        rw [hrun]
        refine .admin n a _ hn rfl rfl (by simp) (.leaves activeId f hmine hid rfl ?_)
        change s'.connections = _
        simp only [if_true] at hheader
        simp only [SharedMem.connections, Connections.leaveAdmin, hroster, hheader]
  · cases hstep

/-- Every step of the system. -/
theorem reseats_of_step (hw : w.Enrolled) (hstep : step cfg w act = some w') : w.Reseats w' := by
  have hadminPc : ∀ {n : Nat} {a : AdminActiveStatus} {pc : AdminPc}, w.admins[n]? = some a →
      pc ≠ .regist → w.Reseats (w.setAdmin n { a with pc := pc }) :=
    fun hn hpc => reseats_of_admin hn rfl rfl hpc rfl
  cases act with
  | openFile hashcode isCreate isSequence type pid =>
      simp only [step, Option.some.injEq] at hstep
      subst hstep
      obtain ⟨h, hnew, -⟩ := w.openFile_isNew cfg (makeFileId hashcode) isCreate isSequence type pid
      refine .stays ?_ hnew.admins (by rw [hnew.shm])
      rw [fileSlots, hnew.files, List.filterMap_append, List.filterMap_cons, hnew.activeId]
      simp [fileSlots]
  | call n call =>
      simp only [step] at hstep
      split at hstep
      · next h hn =>
          split at hstep
          · cases hstep
            exact reseats_of_local hn (startCall_local hn call)
          · cases hstep
      · cases hstep
  | file n =>
      simp only [step] at hstep
      split at hstep
      · next h hn => exact reseats_of_file hw hn hstep
      · cases hstep
  | failUpload n =>
      simp only [step] at hstep
      split at hstep
      · next h hn =>
          split at hstep
          · cases hstep
            exact reseats_of_local hn (raise_local hn _ _)
          · cases hstep
      · cases hstep
  | load i =>
      simp only [step] at hstep
      split at hstep
      · exact reseats_of_load hstep
      · cases hstep
  | failLoad i =>
      simp only [step, failLoad] at hstep
      split at hstep
      · split at hstep
        · cases hstep
          exact reseats_of_same rfl rfl rfl
        · cases hstep
          exact reseats_of_same rfl rfl rfl
        · cases hstep
      · cases hstep
  | openAdmin pid =>
      simp only [step, Option.some.injEq] at hstep
      subst hstep
      exact .opensAdmin pid rfl rfl rfl
  | evictBlocks n =>
      simp only [step] at hstep
      split at hstep
      · next hn =>
          split at hstep
          · cases hstep
            exact hadminPc hn (by simp)
          · cases hstep
      · cases hstep
  | closeAdmin n =>
      simp only [step] at hstep
      split at hstep
      · next hn =>
          split at hstep
          · cases hstep
            exact hadminPc hn (by simp)
          · cases hstep
      · cases hstep
  | admin n =>
      simp only [step] at hstep
      split at hstep
      · next a hn => exact reseats_of_stepAdmin hn hstep
      · cases hstep
  | failAdminUpload n =>
      simp only [step] at hstep
      split at hstep
      · next hn =>
          split at hstep
          · cases hstep
            exact hadminPc hn (by simp)
          · cases hstep
      · cases hstep

/-! ## The invariant -/

/-- The slots in use are those of the registered handles, and the counters count
them. -/
structure Connected (cfg : Config) (w : World) : Prop where
  enrolled : w.Enrolled
  unborn : ∀ (n : Nat) (a : AdminActiveStatus), w.admins[n]? = some a → a.pc = .regist →
    a.activeId = none
  length : w.shm.roster.length = cfg.maxConnection
  taken : (w.fileSlots ++ w.adminSlots).Perm w.shm.connections.taken
  numFile : w.shm.header.numFileActiveStatus = w.fileSlots.length
  numAdmin : w.shm.header.numAdminActiveStatus = w.adminSlots.length

theorem connected_init (cfg : Config) : (init cfg).Connected cfg where
  enrolled := enrolled_init cfg
  unborn n a hn := by simp [init] at hn
  length := by simp [init, SharedMem.reset, SharedMem.roster]
  taken := by
    have hnone : (init cfg).shm.connections.taken = [] := by
      refine List.eq_nil_iff_forall_not_mem.mpr fun a ha => ?_
      obtain ⟨pid, f, hsome⟩ := Connections.mem_taken.mp ha
      have hmem := List.mem_of_getElem? hsome
      simp [init, SharedMem.reset, SharedMem.connections, SharedMem.roster,
        ShareMemActiveStatus.blank] at hmem
    rw [hnone]
    exact .refl _
  numFile := rfl
  numAdmin := rfl

variable (hw : w.Connected cfg)
include hw

theorem Connected.few : w.fileSlots.length + w.adminSlots.length ≤ cfg.maxConnection := by
  have hlength := hw.taken.length_eq
  have hle := Connections.length_taken_le w.shm.connections
  have hroster : w.shm.connections.roster.length = cfg.maxConnection := hw.length
  rw [List.length_append] at hlength
  omega

/-- The registration of a file handle. -/
theorem Connected.join (hmax : cfg.maxConnection < 2 ^ 32) (henrolled : w'.Enrolled) {a pid : Nat}
    {f g : FileId} (hfree : w.shm.roster[a]? = some (none, f))
    (hfiles : w'.fileSlots.Perm (a :: w.fileSlots)) (hadmins : w'.admins = w.admins)
    (hshm : w'.shm.connections = w.shm.connections.join a (some pid, g)) : w'.Connected cfg := by
  have hroster : w'.shm.roster = w.shm.roster.set a (some pid, g) :=
    congrArg Connections.roster hshm
  have htaken : w'.shm.connections.taken.Perm (a :: w.shm.connections.taken) :=
    Connections.taken_set hfree hroster
  have hslots : w'.adminSlots = w.adminSlots := by rw [adminSlots, hadmins]; rfl
  have hall : (w'.fileSlots ++ w'.adminSlots).Perm w'.shm.connections.taken := by
    rw [hslots]
    exact (hfiles.append_right _).trans ((hw.taken.cons a).trans htaken.symm)
  have hlength' : w'.shm.roster.length = cfg.maxConnection := by
    rw [hroster, List.length_set, hw.length]
  have hmany : w'.fileSlots.length = w.fileSlots.length + 1 := by
    simpa using hfiles.length_eq
  refine ⟨henrolled, hadmins ▸ hw.unborn, hlength', hall, ?_, ?_⟩
  · have hfew : w'.fileSlots.length ≤ cfg.maxConnection := by
      have hlength := hall.length_eq
      have hle := Connections.length_taken_le w'.shm.connections
      have hsame : w'.shm.connections.roster.length = cfg.maxConnection := hlength'
      rw [List.length_append] at hlength
      omega
    have hnum : w'.shm.header.numFileActiveStatus = inc32 w.shm.header.numFileActiveStatus :=
      congrArg Connections.numFile hshm
    rw [hnum, hw.numFile, inc32, Nat.mod_eq_of_lt (by omega), hmany]
  · have hnum : w'.shm.header.numAdminActiveStatus = w.shm.header.numAdminActiveStatus :=
      congrArg Connections.numAdmin hshm
    rw [hnum, hw.numAdmin, hslots]

/-- A file handle gives its slot back. -/
theorem Connected.leave (henrolled : w'.Enrolled) {a pid : Nat} {f : FileId}
    (hmine : w.shm.roster[a]? = some (some pid, f)) (hfiles : (a :: w'.fileSlots).Perm w.fileSlots)
    (hadmins : w'.admins = w.admins) (hshm : w'.shm.connections = w.shm.connections.leave a) :
    w'.Connected cfg := by
  have hroster : w'.shm.roster = w.shm.roster.set a SharedMemoryContext.noHandle :=
    congrArg Connections.roster hshm
  have htaken : (a :: w'.shm.connections.taken).Perm w.shm.connections.taken :=
    Connections.taken_blank hmine hroster
  have hslots : w'.adminSlots = w.adminSlots := by rw [adminSlots, hadmins]; rfl
  have hmany : w'.fileSlots.length + 1 = w.fileSlots.length := by
    simpa using hfiles.length_eq
  refine ⟨henrolled, hadmins ▸ hw.unborn, ?_, ?_, ?_, ?_⟩
  · rw [hroster, List.length_set, hw.length]
  · rw [hslots]
    exact ((hfiles.append_right w.adminSlots).trans (hw.taken.trans htaken.symm)).cons_inv
  · have hnum : w'.shm.header.numFileActiveStatus = dec32 w.shm.header.numFileActiveStatus :=
      congrArg Connections.numFile hshm
    rw [hnum, hw.numFile, dec32, if_neg (by omega)]
    omega
  · have hnum : w'.shm.header.numAdminActiveStatus = w.shm.header.numAdminActiveStatus :=
      congrArg Connections.numAdmin hshm
    rw [hnum, hw.numAdmin, hslots]

/-- A step of an admin handle. -/
theorem Connected.admin (hmax : cfg.maxConnection < 2 ^ 32) (henrolled : w'.Enrolled)
    {a a' : AdminActiveStatus} (hn : w.admins[n]? = some a) (hfiles : w'.fileSlots = w.fileSlots)
    (hadmins : w'.admins = w.admins.set n a') (hpc : a'.pc ≠ .regist)
    (hseat : w.AdminSeat w' a a') : w'.Connected cfg := by
  have hunborn : ∀ (m : Nat) (x : AdminActiveStatus), w'.admins[m]? = some x → x.pc = .regist →
      x.activeId = none := by
    intro m x hm hx
    rcases admins_set_cases hadmins hm with ⟨-, rfl⟩ | ⟨-, hm⟩
    · exact absurd hx hpc
    · exact hw.unborn m x hm hx
  have hperm : (a.activeId.toList ++ w'.adminSlots).Perm (a'.activeId.toList ++ w.adminSlots) := by
    rw [adminSlots, hadmins, List.set_eq_modify]
    exact Library.filterMap_modify_perm hn fun _ => a'
  cases hseat with
  | stays hid hshm =>
      have hslots : w'.adminSlots = w.adminSlots := by
        rw [adminSlots, hadmins]
        exact Library.filterMap_set_same hn hid
      have hroster : w'.shm.roster = w.shm.roster := congrArg Connections.roster hshm
      have hfile : w'.shm.header.numFileActiveStatus = _ := congrArg Connections.numFile hshm
      have hadmin : w'.shm.header.numAdminActiveStatus = _ := congrArg Connections.numAdmin hshm
      refine ⟨henrolled, hunborn, hroster ▸ hw.length, ?_, ?_, ?_⟩
      · rw [hfiles, hslots, hshm]
        exact hw.taken
      · rw [hfile, hfiles]
        exact hw.numFile
      · rw [hadmin, hslots]
        exact hw.numAdmin
  | joins hregist id f hfree hid hshm =>
      have hroster : w'.shm.roster = w.shm.roster.set id (some a.pid, f) :=
        congrArg Connections.roster hshm
      have htaken : w'.shm.connections.taken.Perm (id :: w.shm.connections.taken) :=
        Connections.taken_set hfree hroster
      rw [hw.unborn n a hn hregist, hid] at hperm
      have hall : (w'.fileSlots ++ w'.adminSlots).Perm w'.shm.connections.taken := by
        rw [hfiles]
        exact (List.Perm.append_left w.fileSlots hperm).trans
          (List.perm_middle.trans ((hw.taken.cons id).trans htaken.symm))
      have hlength' : w'.shm.roster.length = cfg.maxConnection := by
        rw [hroster, List.length_set, hw.length]
      have hmany : w'.adminSlots.length = w.adminSlots.length + 1 := by
        simpa using hperm.length_eq
      have hfile : w'.shm.header.numFileActiveStatus = _ := congrArg Connections.numFile hshm
      have hadmin : w'.shm.header.numAdminActiveStatus = inc32 w.shm.header.numAdminActiveStatus :=
        congrArg Connections.numAdmin hshm
      refine ⟨henrolled, hunborn, hlength', hall, ?_, ?_⟩
      · rw [hfile, hfiles]
        exact hw.numFile
      · have hfew : w'.adminSlots.length ≤ cfg.maxConnection := by
          have hlength := hall.length_eq
          have hle := Connections.length_taken_le w'.shm.connections
          have hsame : w'.shm.connections.roster.length = cfg.maxConnection := hlength'
          rw [List.length_append] at hlength
          omega
        rw [hadmin, hw.numAdmin, inc32, Nat.mod_eq_of_lt (by omega), hmany]
  | leaves id f hmine hid hnone hshm =>
      have hroster : w'.shm.roster = w.shm.roster.set id SharedMemoryContext.noHandle :=
        congrArg Connections.roster hshm
      have htaken : (id :: w'.shm.connections.taken).Perm w.shm.connections.taken :=
        Connections.taken_blank hmine hroster
      rw [hid, hnone] at hperm
      have hmany : w'.adminSlots.length + 1 = w.adminSlots.length := by
        simpa using hperm.length_eq
      have hfile : w'.shm.header.numFileActiveStatus = _ := congrArg Connections.numFile hshm
      have hadmin : w'.shm.header.numAdminActiveStatus = dec32 w.shm.header.numAdminActiveStatus :=
        congrArg Connections.numAdmin hshm
      refine ⟨henrolled, hunborn, ?_, ?_, ?_, ?_⟩
      · rw [hroster, List.length_set, hw.length]
      · rw [hfiles]
        have hmiddle : (id :: (w.fileSlots ++ w'.adminSlots)).Perm (w.fileSlots ++ w.adminSlots) :=
          List.perm_middle.symm.trans (List.Perm.append_left w.fileSlots hperm)
        exact (hmiddle.trans (hw.taken.trans htaken.symm)).cons_inv
      · rw [hfile, hfiles]
        exact hw.numFile
      · rw [hadmin, hw.numAdmin, dec32, if_neg (by omega)]
        omega

theorem Connected.step (hmax : cfg.maxConnection < 2 ^ 32) (hstep :
    World.step cfg w act = some w') :
    w'.Connected cfg := by
  have henrolled := hw.enrolled.step hstep
  cases reseats_of_step hw.enrolled hstep with
  | stays hfiles hadmins hshm =>
      have hslots : w'.adminSlots = w.adminSlots := by rw [adminSlots, hadmins]; rfl
      have hroster : w'.shm.roster = w.shm.roster := congrArg Connections.roster hshm
      have hfile : w'.shm.header.numFileActiveStatus = _ := congrArg Connections.numFile hshm
      have hadmin : w'.shm.header.numAdminActiveStatus = _ := congrArg Connections.numAdmin hshm
      refine ⟨henrolled, hadmins ▸ hw.unborn, hroster ▸ hw.length, ?_, ?_, ?_⟩
      · rw [hfiles, hslots, hshm]
        exact hw.taken
      · rw [hfile, hfiles]
        exact hw.numFile
      · rw [hadmin, hslots]
        exact hw.numAdmin
  | joins a pid f g hfree hfiles hadmins hshm =>
      exact hw.join hmax henrolled hfree hfiles hadmins hshm
  | leaves a pid f hmine hfiles hadmins hshm => exact hw.leave henrolled hmine hfiles hadmins hshm
  | opensAdmin pid hfiles hadmins hshm =>
      have hslots : w'.adminSlots = w.adminSlots := by
        simp [adminSlots, hadmins, List.filterMap_append]
      have hroster : w'.shm.roster = w.shm.roster := congrArg Connections.roster hshm
      have hfile : w'.shm.header.numFileActiveStatus = _ := congrArg Connections.numFile hshm
      have hadmin : w'.shm.header.numAdminActiveStatus = _ := congrArg Connections.numAdmin hshm
      refine ⟨henrolled, fun m x hm hx => ?_, hroster ▸ hw.length, ?_, ?_, ?_⟩
      · rw [hadmins, List.getElem?_append] at hm
        split at hm
        · exact hw.unborn m x hm hx
        · have hnew := List.mem_of_getElem? hm
          rw [List.mem_singleton] at hnew
          rw [hnew]
      · rw [hfiles, hslots, hshm]
        exact hw.taken
      · rw [hfile, hfiles]
        exact hw.numFile
      · rw [hadmin, hslots]
        exact hw.numAdmin
  | admin n a a' hn hfiles hadmins hpc hseat =>
      exact hw.admin hmax henrolled hn hfiles hadmins hpc hseat

omit hw

/-- In every run the slots in use are exactly those of the registered handles, each
of its own, the header counts them, and the table is full exactly when as many
handles are registered as it has slots. -/
theorem connections_of_run (hmax : cfg.maxConnection < 2 ^ 32)
    (hrun : Run (step cfg) anyStep (init cfg) w) :
    (w.fileSlots ++ w.adminSlots).Perm w.shm.connections.taken ∧
      (w.fileSlots ++ w.adminSlots).Nodup ∧
      w.shm.header.numFileActiveStatus = w.fileSlots.length ∧
      w.shm.header.numAdminActiveStatus = w.adminSlots.length ∧
      w.fileSlots.length + w.adminSlots.length ≤ cfg.maxConnection ∧
      ((∀ slot ∈ w.shm.activeStatus, slot.pid ≠ none) ↔
        w.fileSlots.length + w.adminSlots.length = cfg.maxConnection) := by
  have hw : w.Connected cfg :=
    hrun.induct (connected_init cfg) fun _ _ _ hs _ hstep => hs.step hmax hstep
  refine ⟨hw.taken, hw.taken.nodup_iff.mpr (Connections.nodup_taken _), hw.numFile, hw.numAdmin,
    hw.few, ?_⟩
  have hlength := hw.taken.length_eq
  rw [List.length_append] at hlength
  rw [hlength, ← hw.length]
  refine Iff.trans ?_ Connections.length_taken_eq.symm
  simp [SharedMem.connections, SharedMem.roster]

/-- One bucket, and three connections. -/
def threeConnections : Config := .intact 1 1 3 1

/-- Two files and an admin are open; the first file is closed, and its slot goes to
the next handle. -/
def reconnecting : List Action :=
  [.openFile 7 true false .writeFile 1, .file 0, .file 0, .openAdmin 2, .admin 0,
    .openFile 8 true false .writeFile 3, .file 1, .file 1, .call 0 (.close false), .file 0, .file 0,
    .openFile 9 true false .readFile 4, .file 2, .file 2]

theorem connections_of_run_reconnecting :
    ∃ w, execute (step threeConnections) anyStep (init threeConnections) reconnecting = some w ∧
      w.fileSlots = [2, 0] ∧ w.adminSlots = [1] ∧
      (w.fileSlots ++ w.adminSlots).Perm w.shm.connections.taken ∧
      w.shm.header.numFileActiveStatus = 2 ∧ ∀ slot ∈ w.shm.activeStatus, slot.pid ≠ none := by
  have hcheck : ((execute (step threeConnections) anyStep (init threeConnections)
      reconnecting).any fun w => decide (w.fileSlots = [2, 0]) && decide (w.adminSlots = [1])) =
      true := by
    decide +kernel
  obtain ⟨w, hexec, hfacts⟩ := (Option.any_eq_true _ _).mp hcheck
  simp only [Bool.and_eq_true, decide_eq_true_eq] at hfacts
  obtain ⟨hfile, hadmin⟩ := hfacts
  obtain ⟨htaken, -, hnum, -, -, hfull⟩ :=
    connections_of_run (by decide : threeConnections.maxConnection < 2 ^ 32) (Run.of_execute hexec)
  rw [hfile, hadmin] at hfull
  rw [hfile] at hnum
  exact ⟨w, hexec, hfile, hadmin, htaken, hnum, hfull.mpr rfl⟩

end World

end Gopherwood
