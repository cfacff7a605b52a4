/-
# The manifest as an append-only log

Over every interleaving of critical sections and loader threads in which a load
is only completed by a handle that has read its log to the end, a manifest is
always a sequence of whole records, records stay where they are until the last
handle of the file compacts the log, and every handle reads each record of the
others once and none of its own.
-/

import Gopherwood.Journal.Logged
import Gopherwood.Library.Execution

namespace Gopherwood

open Library (Keeps Spec Run execute anyStep)

/-- The block is back in its bucket and the handle is about to be told. -/
def LoadTask.isRemoved (task : LoadTask) : Bool :=
  match task.phase with
  | .removed _ => true
  | _ => false

namespace World

variable {w w' : World} {n m : Nat} {h h' : FileActiveStatus} {a a' : AdminActiveStatus}

theorem admins_set_cases {x : AdminActiveStatus} (hadmins : w'.admins = w.admins.set n a')
    (hm : w'.admins[m]? = some x) : (m = n ∧ x = a') ∨ (m ≠ n ∧ w.admins[m]? = some x) := by
  rw [hadmins, List.getElem?_set] at hm
  by_cases hmn : n = m
  · rw [if_pos hmn] at hm
    split at hm
    · exact Or.inl ⟨hmn.symm, (Option.some.inj hm).symm⟩
    · cases hm
  · rw [if_neg hmn] at hm
    exact Or.inr ⟨Ne.symm hmn, hm⟩

/-- The slot of a handle after admin `n` was replaced. -/
theorem activeIdOf_replacedAdmin (hn : w.admins[n]? = some a) (hfiles : w'.files = w.files)
    (hadmins : w'.admins = w.admins.set n a') (c : Client) :
    w'.activeIdOf c = if c = .admin n then a'.activeId else w.activeIdOf c := by
  cases c with
  | file m => simp [activeIdOf, hfiles]
  | admin m =>
      obtain ⟨hlt, -⟩ := List.getElem?_eq_some_iff.mp hn
      by_cases hmn : m = n
      · subst hmn
        simp [activeIdOf, hadmins, hlt]
      · simp [activeIdOf, hadmins, hmn, Ne.symm hmn]

/-- A step in which every registered admin was one before. -/
theorem Registered.of_admins (hw : w.Registered) (hfiles : w'.files = w.files)
    (hroster : w'.shm.roster = w.shm.roster)
    (hadmins : ∀ (m : Nat) (x : AdminActiveStatus), w'.admins[m]? = some x → x.activeId ≠ none →
      ∃ y : AdminActiveStatus, w.admins[m]? = some y ∧ y.activeId = x.activeId ∧ y.pid = x.pid) :
    w'.Registered := by
  have hold : ∀ c a, w'.activeIdOf c = some a → w.activeIdOf c = some a := by
    intro c a hc
    cases c with
    | file m => simpa [activeIdOf, hfiles] using hc
    | admin m =>
        obtain ⟨x, hm, hx⟩ := Option.bind_eq_some_iff.mp hc
        obtain ⟨y, hy, hid, -⟩ := hadmins m x hm (by rw [hx]; simp)
        simp [activeIdOf, hy, hid, hx]
  refine ⟨fun m x b hm hx => ?_, fun m x b hm hx => ?_, fun c c' b hc hc' =>
    hw.distinct c c' b (hold c b hc) (hold c' b hc')⟩
  · rw [hroster]
    exact hw.file m x b (hfiles ▸ hm) hx
  · rw [hroster]
    obtain ⟨y, hy, hid, hpid⟩ := hadmins m x hm (by rw [hx]; simp)
    rw [← hpid]
    exact hw.admin m y b hy (hid.trans hx)

/-- An admin takes a free slot. -/
theorem Registered.joinAdmin (hw : w.Registered) (hn : w.admins[n]? = some a)
    (hfiles : w'.files = w.files) (hadmins : w'.admins = w.admins.set n a') {id : Nat} {f : FileId}
    (hfree : w.shm.roster[id]? = some (none, f)) (hid : a'.activeId = some id)
    (hroster : w'.shm.roster = w.shm.roster.set id (some a'.pid, f)) : w'.Registered := by
  have hlt : id < w.shm.roster.length := (List.getElem?_eq_some_iff.mp hfree).1
  have hkeep : ∀ (c : Client) (b : Nat), w.activeIdOf c = some b →
      w'.shm.roster[b]? = w.shm.roster[b]? := by
    intro c b hc
    rw [hroster, List.getElem?_set_ne (hw.ne_of_free hfree hc)]
  refine ⟨fun m x b hm hx => ?_, fun m x b hm hx => ?_, fun c c' b hc hc' => ?_⟩
  · rw [hfiles] at hm
    rw [hkeep (.file m) b (by simp [activeIdOf, hm, hx])]
    exact hw.file m x b hm hx
  · rcases admins_set_cases hadmins hm with ⟨rfl, rfl⟩ | ⟨-, hm⟩
    · obtain rfl : id = b := Option.some.inj (hid.symm.trans hx)
      exact ⟨f, by rw [hroster, List.getElem?_set_self hlt]⟩
    · rw [hkeep (.admin m) b (by simp [activeIdOf, hm, hx])]
      exact hw.admin m x b hm hx
  · rw [activeIdOf_replacedAdmin hn hfiles hadmins] at hc hc'
    split at hc
    · split at hc'
      · next h1 h2 => rw [h1, h2]
      · obtain rfl : id = b := Option.some.inj (hid.symm.trans hc)
        exact absurd rfl (hw.ne_of_free hfree hc')
    · split at hc'
      · obtain rfl : id = b := Option.some.inj (hid.symm.trans hc')
        exact absurd rfl (hw.ne_of_free hfree hc)
      · exact hw.distinct c c' b hc hc'

/-- An admin gives its slot back. -/
theorem Registered.leaveAdmin (hw : w.Registered) (hn : w.admins[n]? = some a)
    (hfiles : w'.files = w.files) (hadmins : w'.admins = w.admins.set n a') {id : Nat}
    (hid : a.activeId = some id) (hnone : a'.activeId = none) {entry : Option Nat × FileId}
    (hroster : w'.shm.roster = w.shm.roster.set id entry) : w'.Registered := by
  have hmine : w.activeIdOf (.admin n) = some id := by simp [activeIdOf, hn, hid]
  have hkeep : ∀ (c : Client) (b : Nat), c ≠ .admin n → w.activeIdOf c = some b →
      w'.shm.roster[b]? = w.shm.roster[b]? := by
    intro c b hne hc
    have hab : id ≠ b := by
      rintro rfl
      exact hne (hw.distinct c (.admin n) id hc hmine)
    rw [hroster, List.getElem?_set_ne hab]
  refine ⟨fun m x b hm hx => ?_, fun m x b hm hx => ?_, fun c c' b hc hc' => ?_⟩
  · rw [hfiles] at hm
    rw [hkeep (.file m) b (fun heq => by cases heq) (by simp [activeIdOf, hm, hx])]
    exact hw.file m x b hm hx
  · rcases admins_set_cases hadmins hm with ⟨rfl, rfl⟩ | ⟨hne, hm⟩
    · rw [hnone] at hx
      cases hx
    · rw [hkeep (.admin m) b (fun heq => hne (Client.admin.inj heq))
        (by simp [activeIdOf, hm, hx])]
      exact hw.admin m x b hm hx
  · rw [activeIdOf_replacedAdmin hn hfiles hadmins, hnone] at hc hc'
    split at hc
    · cases hc
    · split at hc'
      · cases hc'
      · exact hw.distinct c c' b hc hc'

/-- What a step of admin `n` does to slots, handles and manifests. -/
structure AdminStep (n : Nat) (a : AdminActiveStatus) (w w' : World) : Prop where
  files : w'.files = w.files
  links : w'.folder.links = w.folder.links
  grown : (∀ f k, w.folder.links f = some k → k < w.folder.files.length) →
    w.folder.Grown (.admin n) w'.folder
  slot : ∃ a' : AdminActiveStatus, w'.admins = w.admins.set n a' ∧ a'.pid = a.pid ∧
    ((a'.activeId = a.activeId ∧ w'.shm.roster = w.shm.roster) ∨
      (∃ id f, w.shm.roster[id]? = some (none, f) ∧ a'.activeId = some id ∧
        w'.shm.roster = w.shm.roster.set id (some a.pid, f)) ∨
      ∃ id, a.activeId = some id ∧ a'.activeId = none ∧
        w'.shm.roster = w.shm.roster.set id SharedMemoryContext.noHandle)

/-- A step of an admin that keeps its slot. -/
theorem AdminStep.of_roster (pc : AdminPc) (hfiles : w'.files = w.files)
    (hadmins : w'.admins = w.admins.set n { a with pc := pc })
    (hroster : w'.shm.roster = w.shm.roster) (hfolder : w'.folder = w.folder) :
    AdminStep n a w w' :=
  ⟨hfiles, by rw [hfolder], fun _ => hfolder ▸ .refl _ _, { a with pc := pc }, hadmins, rfl,
    Or.inl ⟨rfl, hroster⟩⟩

theorem adminLogEvict_grown (hlinks : ∀ f k, w.folder.links f = some k → k < w.folder.files.length)
    (info : BlockInfo) : w.folder.Grown (.admin n) (w.adminLogEvict n info).folder := by
  unfold adminLogEvict
  cases hlink : w.folder.links info.fileId with
  | none => exact .refl _ _
  | some file =>
      exact ManifestFolder.Grown.mfWrite ⟨file, (w.folder.content file).length⟩ ⟨.admin n, _⟩
        (hlinks _ _ hlink) rfl

/-- Neither end of an eviction changes the roster. -/
theorem adminFinish_step (activeId : Nat) (found : Bool) (info : Option BlockInfo) :
    AdminStep n a w (w.adminFinish n a activeId found info) := by
  have hkeep : Keeps w.SameRoster (SharedMemoryContext.evictBucketFinishAndTryFree
      (info.bind BlockInfo.bucketId) activeId) :=
    SharedMemoryContext.evictBucketFinishAndTryFree_spec (w.leads_sameRoster _)
      (w.leads_sameRoster _) fun _ _ => w.leads_sameRoster _
  unfold adminFinish
  cases hrun : SharedMemoryContext.evictBucketFinishAndTryFree (info.bind BlockInfo.bucketId)
      activeId w.shm with
  | error e shm =>
      exact .of_roster .idle rfl rfl (hkeep.error rfl hrun) rfl
  | ok rc shm =>
      have hroster := hkeep.ok rfl hrun
      cases info with
      | none => exact .of_roster (.mark found none) rfl rfl hroster rfl
      | some info =>
          simp only
          split
          · split
            · -- the record goes to the manifest of the evicted file
              let next := { w.setAdmin n { a with pc := .mark found (some info) } with shm := shm }
              have hsame : (next.adminLogEvict n info).files = w.files ∧
                  (next.adminLogEvict n info).admins = next.admins ∧
                  (next.adminLogEvict n info).shm = shm ∧
                  (next.adminLogEvict n info).folder.links = w.folder.links := by
                unfold adminLogEvict
                cases next.folder.links info.fileId with
                | none => exact ⟨rfl, rfl, rfl, rfl⟩
                | some file => exact ⟨rfl, rfl, rfl, rfl⟩
              refine ⟨hsame.1, hsame.2.2.2, fun hlinks => adminLogEvict_grown (w := next)
                hlinks info, _, hsame.2.1, rfl, Or.inl ⟨rfl, ?_⟩⟩
              rw [hsame.2.2.1]
              exact hroster
            · exact .of_roster .idle rfl rfl hroster rfl
          · exact .of_roster (.mark found (some info)) rfl rfl hroster rfl

theorem stepAdmin_step {cfg : Config} (hstep : w.stepAdmin cfg n a = some w') :
    AdminStep n a w w' := by
  have hpc : ∀ (pc : AdminPc) (w₁ : World), w₁.files = w.files →
      w₁.admins = w.admins.set n { a with pc := pc } → w₁.shm.roster = w.shm.roster →
      w₁.folder = w.folder → AdminStep n a w w₁ :=
    fun pc w₁ hfiles hadmins hroster hfolder => .of_roster pc hfiles hadmins hroster hfolder
  unfold stepAdmin at hstep
  split at hstep
  · -- registration
    simp only [Option.some.injEq] at hstep
    subst hstep
    obtain ⟨s', -, ⟨hrun, hroster⟩ | ⟨id, f, hfree, hrun, hroster⟩⟩ :=
      SharedMemoryContext.registAdmin_cases a.pid w.shm
    · rw [hrun]
      exact hpc .closed _ rfl rfl hroster rfl
    · rw [hrun]
      exact ⟨rfl, rfl, fun _ => .refl _ _, _, rfl, rfl,
        Or.inr (Or.inl ⟨id, f, hfree, rfl, hroster⟩)⟩
  · -- marking a victim
    simp only [Option.some.injEq] at hstep
    subst hstep
    next found info activeId _ _ =>
      have hkeep : Keeps w.SameRoster (SharedMemoryContext.markBucketEvicting activeId) :=
        SharedMemoryContext.markBucketEvicting_spec (w.leads_sameRoster _)
          (fun _ => w.leads_sameRoster _) fun s s' _ _ hs _ hmove =>
            w.leads_sameRoster _ s s' hmove hs
      split
      · cases hrun : SharedMemoryContext.markBucketEvicting activeId w.shm with
        | ok info shm => exact hpc (.evictRead info) _ rfl rfl (hkeep.ok rfl hrun) rfl
        | error e shm => exact hpc .idle _ rfl rfl (hkeep.error rfl hrun) rfl
      · split
        · exact hpc _ _ rfl rfl rfl rfl
        · exact hpc _ _ rfl rfl rfl rfl
  · simp only [Option.some.injEq] at hstep
    subst hstep
    split
    · exact hpc _ _ rfl rfl rfl rfl
    · exact hpc _ _ rfl rfl rfl rfl
  · simp only [Option.some.injEq] at hstep
    subst hstep
    exact hpc _ _ rfl rfl rfl rfl
  · simp only [Option.some.injEq] at hstep
    subst hstep
    exact adminFinish_step _ _ _
  · -- the destructor
    simp only [Option.some.injEq] at hstep
    subst hstep
    next activeId _ hid =>
      rcases SharedMemoryContext.unregistAdmin_cases activeId a.pid w.shm with
        hrun | ⟨s', f, -, -, hrun, hroster⟩
      · rw [hrun]
        exact hpc _ _ rfl rfl rfl rfl
      · rw [hrun]
        exact ⟨rfl, rfl, fun _ => .refl _ _, _, rfl, rfl,
          Or.inr (Or.inr ⟨activeId, hid, rfl, hroster⟩)⟩
  · cases hstep

/-- A step of an admin handle keeps the registrations. -/
theorem AdminStep.registered (hw : w.Registered) (hn : w.admins[n]? = some a)
    (hstep : AdminStep n a w w') : w'.Registered := by
  obtain ⟨a', hadmins, hpid, ⟨hid, hroster⟩ | ⟨id, f, hfree, hid, hroster⟩ | ⟨id, hid, hnone,
    hroster⟩⟩ :=
    hstep.slot
  · refine hw.of_admins hstep.files hroster fun m x hm _ => ?_
    rcases admins_set_cases hadmins hm with ⟨rfl, rfl⟩ | ⟨-, hm⟩
    · exact ⟨a, hn, hid.symm, hpid.symm⟩
    · exact ⟨x, hm, rfl, rfl⟩
  · exact hw.joinAdmin hn hstep.files hadmins hfree hid (by rw [hroster, hpid])
  · exact hw.leaveAdmin hn hstep.files hadmins hid hnone hroster

/-- A handle without a slot ignores the end of its loads. -/
theorem loadSucceeded_detached {c : Ctx} (hnone : c.self.activeId = none) (cfg : Config)
    (info : BlockInfo) (size : Nat) :
    Keeps (· = c) (FileActiveStatus.loadSucceeded cfg info size) := by
  refine Keeps.bind Keeps.get fun _ => FileActiveStatus.eachLoading_keeps (fun i theBlock => ?_) _ _
  rintro _ rfl
  simp [FileActiveStatus.finishLoading, FileActiveStatus.myActiveId, hnone]

theorem loadFailed_detached {c : Ctx} (hnone : c.self.activeId = none) (info : BlockInfo) :
    Keeps (· = c) (FileActiveStatus.loadFailed info) := by
  refine Keeps.bind Keeps.get fun _ => FileActiveStatus.eachLoading_keeps (fun i theBlock => ?_) _ _
  rintro _ rfl
  simp [FileActiveStatus.abandonLoading, FileActiveStatus.myActiveId, hnone]

/-! ## The condition on steps -/

/-- The load that a step reports to its handle. The completion appends a record without
catching up first, which every other writer does. -/
def completing (w : World) : Action → Option LoadTask
  | .load i => w.tasks[i]?.filter LoadTask.isRemoved
  | _ => none

/-- A load that is about to be completed belongs to a handle that has read its
log to the end. -/
def LoadsCaughtUp (w : World) (act : Action) : Prop :=
  ∀ task ∈ w.completing act, ∀ h ∈ w.files[task.owner]?, ∀ fd ∈ h.fd,
    fd.offset = (w.folder.content fd.file).length

/-- The steps that keep the manifest a log: no record is longer than the buffer it is read
into, and loads are completed only where the record that they append belongs at the end. -/
def AppendSafe (w : World) (act : Action) : Prop := w.RecordsFit ∧ w.LoadsCaughtUp act

instance (w : World) : Decidable w.RecordsFit :=
  decidable_of_iff (∀ bytes ∈ w.folder.files, ∀ cell ∈ (bytes : List (Library.Cell LogEntry)),
      cell.1.recordLength ≤ manifestBufferSize) <| by
    unfold RecordsFit ManifestFolder.content
    constructor
    · intro h k e j he
      cases hk : w.folder.files[k]? with
      | none => simp [List.getD_eq_getElem?_getD, hk] at he
      | some bytes =>
          rw [List.getD_eq_getElem?_getD, hk] at he
          exact h bytes (List.mem_of_getElem? hk) (e, j) he
    · intro h bytes hbytes cell hcell
      obtain ⟨k, hk⟩ := List.getElem?_of_mem hbytes
      exact h k cell.1 cell.2 (by rw [List.getD_eq_getElem?_getD, hk]; exact hcell)

instance (w : World) (act : Action) : Decidable (w.AppendSafe act) :=
  inferInstanceAs (Decidable (w.RecordsFit ∧ ∀ task ∈ w.completing act,
    ∀ h ∈ w.files[task.owner]?, ∀ fd ∈ h.fd, fd.offset = (w.folder.content fd.file).length))

/-- Every record stays where it is, unless the step closes the last handle of
its file and replaces the log by one record of the full status. -/
def RecordsStay (w : World) (act : Action) (w' : World) : Prop :=
  ∀ k, w.folder.content k <+: w'.folder.content k ∨
    ∃ (n : Nat) (h : FileActiveStatus) (isCancel : Bool) (fd : Descriptor) (e : LogEntry),
      act = .file n ∧ w.files[n]? = some h ∧ h.pc = .close isCancel ∧ h.fd = some fd ∧
      fd.file = k ∧ e.record.type = .fullStatus ∧ w'.folder.content k = logBytes [e]

theorem recordsStay_of_grown {act : Action} (author : Client)
    (hgrown : w.folder.Grown author w'.folder) : w.RecordsStay act w' := by
  intro k
  obtain ⟨new, hnew, -⟩ := hgrown.content k
  exact Or.inl ⟨logBytes new, hnew.symm⟩

/-! ## Preservation by every step -/

/-- A step that changes neither handles nor the segment nor the folder. -/
theorem Logged.of_idle {act : Action} (hw : w.Logged) (hfiles : w'.files = w.files)
    (hadmins : w'.admins = w.admins) (hshm : w'.shm = w.shm) (hfolder : w'.folder = w.folder) :
    w'.Logged ∧ w.RecordsStay act w' := by
  have hgrown : w.folder.Grown (.admin 0) w'.folder := hfolder ▸ .refl _ _
  refine ⟨hw.of_admin hfiles hgrown (hw.registered.of_admins hfiles (hshm ▸ rfl) ?_),
    recordsStay_of_grown _ hgrown⟩
  intro m x hm _
  exact ⟨x, hadmins ▸ hm, rfl, rfl⟩

/-- Thread-local work of a registered handle. -/
theorem Logged.of_worldLocal {act : Action} (hw : w.Logged) (hn : w.files[n]? = some h)
    (hactive : h.activeId ≠ none) (hlocal : Local n w w') : w'.Logged ∧ w.RecordsStay act w' := by
  obtain ⟨h', hl, hfiles⟩ := hlocal.files h hn
  refine ⟨hw.of_local hn hl (fun hnone => absurd hnone hactive) (fun hopen => ?_) hfiles
    hlocal.admins hlocal.shm hlocal.folder,
    recordsStay_of_grown h.client (hlocal.folder ▸ .refl _ _)⟩
  exact absurd (hw.opening n h hn (hl.sameIdentity.opening hopen)).1 hactive

/-- The end of a load in a handle that has left. -/
theorem Logged.of_detachedLoad {act : Action} (hw : w.Logged) (hn : w.files[n]? = some h)
    {i : Nat} {prog : StatusM Unit}
    (hprog : Spec (· = w.ctx h) prog (fun _ => (· = w.ctx h)) (fun _ => (· = w.ctx h))) :
    (w.finishLoad i n h prog).Logged ∧ w.RecordsStay act (w.finishLoad i n h prog) := by
  obtain ⟨_, h', rfl, hlocal, hpc, hfiles, hadmins, hshm, hfolder⟩ :=
    finishLoad_cases (i := i) (n := n) hprog
  exact ⟨hw.of_local hn hlocal (fun hnone => hpc ▸ hw.quiet n h hn hnone) (fun _ => hpc) hfiles
    hadmins hshm hfolder, recordsStay_of_grown h.client (hfolder ▸ .refl _ _)⟩

/-- The end of a load in a registered handle. -/
theorem Logged.of_attachedLoad {act : Action} (hw : w.Logged) (hn : w.files[n]? = some h)
    (hactive : h.activeId ≠ none) {own i : Nat} {caught : Prop} {prog : StatusM Unit}
    (hpos : h.Position (fun _ => True) False own w.folder)
    (hstart : Session (w.scope h own) w.SameRoster caught (w.ctx h))
    (hprog : Keeps (Session (w.scope h own) w.SameRoster caught) prog) :
    (w.finishLoad i n h prog).Logged ∧ w.RecordsStay act (w.finishLoad i n h prog) := by
  obtain ⟨c, h', hc, hlocal, -, hfiles, hadmins, hshm, hfolder⟩ :=
    finishLoad_cases (i := i) (n := n) (Spec.weaken_pre hprog fun _ hs => hs ▸ hstart)
  have hc' : Session (w.scope h own) w.SameRoster False c :=
    FileActiveStatus.session_of_caught hc
  exact ⟨hw.of_session hn hactive hpos hc' ⟨hshm, hfolder, hadmins, h', hlocal, hfiles⟩,
    recordsStay_of_grown h.client (hfolder ▸ (hc.journal trivial).grown)⟩

/-- A descriptor at the end of its file has nothing pending. -/
theorem Logged.start_caught (hw : w.Logged) (hfit : w.RecordsFit) (hn : w.files[n]? = some h)
    (hactive : h.activeId ≠ none) {own : Nat} (hpos : h.Position (fun _ => True) False own w.folder)
    (hend : ∀ fd, h.fd = some fd → fd.offset = (w.folder.content fd.file).length) :
    Session (w.scope h own) w.SameRoster True (w.ctx h) := by
  have hstart := hw.start hfit hn (Or.inl hactive) hpos
  refine ⟨hstart.identity, hstart.links, hstart.logFile, hstart.segment, fun ht => ?_⟩
  obtain ⟨hgrown, hown, done, pending, hfd, hcontent, -, hrest⟩ := hstart.journal ht
  refine ⟨hgrown, hown, done, pending, hfd, hcontent, fun _ => ?_, hrest⟩
  have hlength : (logBytes done).length = (w.folder.content own).length := hend _ hfd
  rw [show w.folder.content own = logBytes (done ++ pending) from hcontent, logBytes_append,
    List.length_append] at hlength
  have := length_le_logBytes pending
  exact List.length_eq_zero_iff.mp (by omega)

/-- A step of a loader thread. -/
theorem Logged.of_load {cfg : Config} {i : Nat} {task : LoadTask} (hw : w.Logged)
    (hsafe : w.AppendSafe (.load i)) (hi : w.tasks[i]? = some task)
    (hstep : w.stepLoad cfg i task = some w') : w'.Logged ∧ w.RecordsStay (.load i) w' := by
  unfold stepLoad at hstep
  cases hphase : task.phase with
  | start =>
      simp only [hphase, Option.some.injEq] at hstep
      subst hstep
      split
      · exact hw.of_idle rfl rfl rfl rfl
      · exact hw.of_idle rfl rfl rfl rfl
  | fetched data =>
      simp only [hphase] at hstep
      split at hstep
      · cases hstep
        exact hw.of_idle rfl rfl rfl rfl
      · cases hstep
        exact hw.of_idle rfl rfl rfl rfl
  | stored size =>
      simp only [hphase] at hstep
      cases hstep
      exact hw.of_idle rfl rfl rfl rfl
  | removed size =>
      simp only [hphase] at hstep
      split at hstep
      · cases hstep
      · next h hn =>
          split at hstep
          · cases hstep
          · cases hstep
            by_cases hactive : h.activeId = none
            · exact hw.of_detachedLoad hn (loadSucceeded_detached hactive cfg _ _)
            · obtain ⟨own, hpos⟩ := hw.position _ h hn hactive
              have hend := hsafe.2 task
                (by simp [completing, hi, LoadTask.isRemoved, hphase]) h hn
              exact hw.of_attachedLoad hn hactive hpos
                (hw.start_caught hsafe.1 hn hactive hpos hend)
                (FileActiveStatus.loadSucceeded_session
                  (fun _ _ _ => w.leads_sameRoster _) (fun _ _ _ => w.leads_sameRoster _) _ _)
  | failed =>
      simp only [hphase] at hstep
      split at hstep
      · cases hstep
      · next h hn =>
          split at hstep
          · cases hstep
          · cases hstep
            by_cases hactive : h.activeId = none
            · exact hw.of_detachedLoad hn (loadFailed_detached hactive _)
            · obtain ⟨own, hpos⟩ := hw.position _ h hn hactive
              exact hw.of_attachedLoad hn hactive hpos
                (hw.start hsafe.1 hn (Or.inl hactive) hpos)
                (FileActiveStatus.loadFailed_session
                  (fun _ _ _ => w.leads_sameRoster _) _)

/-- After the step that closes a handle, the handle has nothing left to do but
to delete remote blocks. -/
theorem stepFile_close_quiet {cfg : Config} {isCancel : Bool} (hn : w.files[n]? = some h)
    (hpc : h.pc = .close isCancel) (hstep : w.stepFile cfg n h = some w')
    (hn' : w'.files[n]? = some h') : h'.pc.isOpening = false ∧ h'.pc.isQuiet = true := by
  obtain ⟨hlt, -⟩ := List.getElem?_eq_some_iff.mp hn
  unfold stepFile at hstep
  simp only [hpc, Option.some.injEq] at hstep
  subst hstep
  unfold runFile at hn'
  cases hrun : FileActiveStatus.close cfg isCancel ⟨w.shm, w.folder, w.oss, h⟩ with
  | ok remote c =>
      simp only [hrun, mapFile, setFile, List.getElem?_modify, List.getElem?_set_self hlt,
        Option.map_eq_map, Option.map_some, if_pos, Option.some.injEq] at hn'
      subst hn'
      exact ⟨rfl, rfl⟩
  | error e c =>
      simp only [hrun, raise, setFile, List.getElem?_set_self hlt, Option.some.injEq] at hn'
      subst hn'
      exact ⟨rfl, rfl⟩

/-- A step of a handle's thread. -/
theorem Logged.of_file {cfg : Config} (hw : w.Logged) (hfit : w.RecordsFit)
    (hn : w.files[n]? = some h) (hstep : w.stepFile cfg n h = some w') :
    w'.Logged ∧ w.RecordsStay (.file n) w' := by
  by_cases hactive : h.activeId = none
  · -- a handle without a slot opens its manifest, registers or deletes remote blocks
    have hquiet := hw.quiet n h hn hactive
    cases hpc : h.pc with
    | openManifest =>
        refine ⟨hw.of_openManifest hn hpc hstep, fun k => Or.inl ?_⟩
        unfold stepFile at hstep
        simp only [hpc, Option.some.injEq] at hstep
        subst hstep
        have hcontent := (w.folder.mfOpen_spec h.fileId hw.links).1 k
        exact hcontent.symm ▸ List.prefix_refl _
    | regist =>
        obtain ⟨hlogged, hgrown⟩ := hw.of_regist hfit hn hpc hstep
        exact ⟨hlogged, recordsStay_of_grown _ hgrown⟩
    | deleteRemote isCancel blocks =>
        have hlocal : ∀ pc : Pc, pc.isOpening = false → pc.isQuiet = true →
            w'.files = w.files.set n { h with pc := pc } → w'.admins = w.admins →
            w'.shm = w.shm → w'.folder = w.folder → w'.Logged ∧ w.RecordsStay (.file n) w' := by
          intro pc hopening hq hfiles hadmins hshm hfolder
          refine ⟨hw.of_local hn (.of_pc hopening) (fun _ => hq) (fun hopen => ?_) hfiles hadmins
            hshm hfolder, recordsStay_of_grown h.client (hfolder ▸ .refl _ _)⟩
          exact absurd (hopening.symm.trans hopen) Bool.false_ne_true
        unfold stepFile at hstep
        simp only [hpc, Option.some.injEq] at hstep
        subst hstep
        cases blocks with
        | nil => exact hlocal .closed rfl rfl rfl rfl rfl rfl
        | cons block rest => exact hlocal (.deleteRemote isCancel rest) rfl rfl rfl rfl rfl rfl
    | idle => simp [stepFile, hpc] at hstep
    | closed => simp [stepFile, hpc] at hstep
    | _ => simp [hpc, Pc.isQuiet] at hquiet
  · obtain ⟨own, hpos⟩ := hw.position n h hn hactive
    have hstart := hw.start hfit hn (Or.inl hactive) hpos
    have hopening : h.pc.isOpening = false := by
      cases hopen : h.pc.isOpening with
      | false => rfl
      | true => exact absurd (hw.opening n h hn hopen).1 hactive
    by_cases hclose : ∃ isCancel, h.pc = .close isCancel
    · obtain ⟨isCancel, hpc⟩ := hclose
      have hbenign :=
        (Scope.passes_of_moves (S := w.scope h own) w.leads_sameRoster cfg h.pc).benign
      obtain ⟨c, hc, hreflects⟩ := stepFile_close hbenign (fun a ha => unregistFile_roster ha)
        (fun _ => w.leads_slotLeft h _) (fun _ => w.leads_slotLeft h _) hn hstart hpc hstep
      rcases hc with hc | hc
      · exact ⟨hw.of_session hn hactive hpos hc hreflects,
          recordsStay_of_grown _ (hreflects.folder ▸ (hc.journal trivial).grown)⟩
      · obtain ⟨h', hlocal, hfiles⟩ := hreflects.files
        obtain ⟨hopening', hquiet⟩ := stepFile_close_quiet hn hpc hstep
          (by rw [hfiles]; exact getElem?_set_files hn)
        refine ⟨hw.of_departed hn hpos hc hlocal hfiles hreflects.admins hreflects.shm
          hreflects.folder hopening' hquiet, fun k => ?_⟩
        rw [hreflects.folder]
        obtain ⟨done, pending, hfd, -⟩ := hpos
        rcases (hc.folder trivial).content k with ⟨new, hnew, -⟩ | ⟨hk, -, e, hcontent, -, htype⟩
        · exact Or.inl ⟨logBytes new, hnew.symm⟩
        · exact Or.inr ⟨n, h, isCancel, _, e, rfl, hn, hpc, hfd, hk.symm, htype, hcontent⟩
    · obtain ⟨c, hc, hreflects⟩ :=
        stepFile_session (Scope.passes_of_moves w.leads_sameRoster cfg h.pc)
        hn hstart hopening (fun isCancel hpc => hclose ⟨isCancel, hpc⟩) hstep
      exact ⟨hw.of_session hn hactive hpos hc hreflects,
        recordsStay_of_grown _ (hreflects.folder ▸ (hc.journal trivial).grown)⟩

/-- Work of an admin between critical sections. -/
theorem Logged.of_adminPc {act : Action} {pc : AdminPc} (hw : w.Logged)
    (hn : w.admins[n]? = some a) : (w.setAdmin n { a with pc := pc }).Logged ∧
      w.RecordsStay act (w.setAdmin n { a with pc := pc }) := by
  have hstep : AdminStep n a w (w.setAdmin n { a with pc := pc }) :=
    .of_roster pc rfl rfl rfl rfl
  have hgrown := hstep.grown hw.links
  exact ⟨hw.of_admin hstep.files hgrown (hstep.registered hw.registered hn),
    recordsStay_of_grown _ hgrown⟩

/-- Every safe step keeps the invariant and the records. -/
theorem logged_step {cfg : Config} {act : Action} (hw : w.Logged) (hsafe : w.AppendSafe act)
    (hstep : step cfg w act = some w') : w'.Logged ∧ w.RecordsStay act w' := by
  cases act with
  | openFile hashcode isCreate isSequence type pid =>
      simp only [step, Option.some.injEq] at hstep
      subst hstep
      refine ⟨hw.of_openFile cfg _ isCreate isSequence type pid,
        recordsStay_of_grown (.admin 0) ?_⟩
      unfold openFile
      dsimp only
      split
      · exact .refl _ _
      · exact .refl _ _
  | call n call =>
      simp only [step] at hstep
      split at hstep
      · next h hn =>
          split at hstep
          · next hpc hid =>
              cases hstep
              exact hw.of_worldLocal hn (by rw [hid]; simp) (startCall_local hn call)
          · cases hstep
      · cases hstep
  | file n =>
      simp only [step] at hstep
      split at hstep
      · next h hn => exact hw.of_file hsafe.1 hn hstep
      · cases hstep
  | failUpload n =>
      simp only [step] at hstep
      split at hstep
      · next h hn =>
          split at hstep
          · next hpc =>
              cases hstep
              refine hw.of_worldLocal hn (fun hnone => ?_) (raise_local hn _ _)
              have := hw.quiet n h hn hnone
              rw [hpc] at this
              cases this
          · cases hstep
      · cases hstep
  | load i =>
      simp only [step] at hstep
      split at hstep
      · next task hi => exact hw.of_load hsafe hi hstep
      · cases hstep
  | failLoad i =>
      simp only [step, failLoad] at hstep
      split at hstep
      · split at hstep
        · cases hstep
          exact hw.of_idle rfl rfl rfl rfl
        · cases hstep
          exact hw.of_idle rfl rfl rfl rfl
        · cases hstep
      · cases hstep
  | openAdmin pid =>
      simp only [step, Option.some.injEq] at hstep
      subst hstep
      refine ⟨hw.of_admin (k := 0) rfl (.refl _ _) (hw.registered.of_admins rfl rfl ?_),
        recordsStay_of_grown (.admin 0) (.refl _ _)⟩
      intro m x hm hx
      rw [List.getElem?_append] at hm
      split at hm
      · exact ⟨x, hm, rfl, rfl⟩
      · have := List.mem_of_getElem? hm
        rw [List.mem_singleton] at this
        rw [this] at hx
        exact absurd rfl hx
  | evictBlocks n =>
      simp only [step] at hstep
      split at hstep
      · next hn =>
          split at hstep
          · cases hstep
            exact hw.of_adminPc hn
          · cases hstep
      · cases hstep
  | closeAdmin n =>
      simp only [step] at hstep
      split at hstep
      · next hn =>
          split at hstep
          · cases hstep
            exact hw.of_adminPc hn
          · cases hstep
      · cases hstep
  | admin n =>
      simp only [step] at hstep
      split at hstep
      · next a hn =>
          have hadmin := stepAdmin_step hstep
          have hgrown := hadmin.grown hw.links
          exact ⟨hw.of_admin hadmin.files hgrown (hadmin.registered hw.registered hn),
            recordsStay_of_grown _ hgrown⟩
      · cases hstep
  | failAdminUpload n =>
      simp only [step] at hstep
      split at hstep
      · next hn =>
          split at hstep
          · cases hstep
            exact hw.of_adminPc hn
          · cases hstep
      · cases hstep

/-- Every state of a safe run. -/
theorem logged_run {cfg : Config} (hrun : Run (step cfg) AppendSafe (init cfg) w) : w.Logged :=
  hrun.induct (logged_init cfg) fun _ _ _ hw hsafe hstep => (logged_step hw hsafe hstep).1

/-- The handle has read, once and in order, the records of others that its
descriptor has passed, and none of its own; catching up reads the rest. -/
def ReadsOthersOnce (w : World) (h : FileActiveStatus) : Prop :=
  ∃ (fd : Descriptor) (passed pending : List LogEntry), h.fd = some fd ∧
    w.folder.content fd.file = logBytes (passed ++ pending) ∧
    fd.offset = (logBytes passed).length ∧
    h.readEntries = passed.filter (fun e => e.author ≠ h.client) ∧
    (∀ c, w.RecordsFit → FileActiveStatus.catchUpManifestLogs (w.ctx h) = .ok () c →
      c.self.readEntries = (passed ++ pending).filter fun e => e.author ≠ h.client)

/-- Manifests are append-only logs, as far as steps that meet `cond` go on: they are whole
records, each handle has read those of others once, and no record moves but when the last
handle of its file closes. -/
structure AppendOnly (cond : World → Action → Prop) (cfg : Config) (w : World) : Prop where
  whole : ∀ k, ∃ entries, w.folder.content k = logBytes entries
  reads : ∀ (n : Nat) (h : FileActiveStatus), w.files[n]? = some h → h.activeId ≠ none →
    w.ReadsOthersOnce h
  stays : ∀ act w', cond w act → step cfg w act = some w' → w.RecordsStay act w'

theorem Logged.readsOthersOnce (hw : w.Logged) (hn : w.files[n]? = some h)
    (hactive : h.activeId ≠ none) : w.ReadsOthersOnce h := by
  obtain ⟨own, hpos⟩ := hw.position n h hn hactive
  have hstart := fun hfit => hw.start hfit hn (Or.inl hactive) hpos
  obtain ⟨done, pending, hfd, hcontent, -, -, hread⟩ := hpos
  refine ⟨_, done, pending, hfd, hcontent, rfl, hread, fun c hfit hrun => ?_⟩
  have hsession := Spec.of_ok FileActiveStatus.catchUp_session (hstart hfit) hrun
  obtain ⟨-, -, done', pending', hfd', hcontent', hcaught, -, hread'⟩ := hsession.journal trivial
  obtain rfl := hcaught trivial
  have hquiet := (FileActiveStatus.catchUpManifestLogs_quiet (w.ctx h)).ok
    (s := w.ctx h) ⟨.refl _, rfl, rfl, rfl⟩ hrun
  have hall : logBytes (done' ++ []) = logBytes (done ++ pending) := by
    rw [← hcontent', ← hcontent, hquiet.2.2.2]
    rfl
  rw [List.append_nil] at hall
  rw [hread', logBytes_injective hall, hquiet.1.client]
  rfl

/-- Whatever the handles, evictors and loader threads do, if every record fits
the buffer and loads are only completed by handles that have read their log to
the end, the manifests are append-only logs. -/
theorem manifest_append_only (cfg : Config) (w : World)
    (hrun : Run (step cfg) AppendSafe (init cfg) w) : w.AppendOnly AppendSafe cfg := by
  have hw := logged_run hrun
  refine ⟨hw.whole, fun n h hn hactive => hw.readsOthersOnce hn hactive,
    fun act w' hsafe hstep => ?_⟩
  exact (logged_step hw hsafe hstep).2

/-- Two buckets of one byte, and a quota of one bucket for every handle. -/
def tightConfig : Config := .intact 2 1 4 1

/-- A writer fills three blocks, the first two of which it evicts. -/
def fillingThree : List Action :=
  [.openFile 7 true false .writeFile 1, .file 0, .file 0, .call 0 (.write [1, 2, 3])] ++
  List.replicate 21 (.file 0)

/-- A second handle opens the file, reads its log to the end and closes. -/
def joining : List Action :=
  fillingThree ++ [.openFile 7 false false .readFile 2, .file 1, .file 1, .call 1 (.close false),
    .file 1, .file 1]

theorem manifest_append_only_joining :
    ∃ w, execute (step tightConfig) AppendSafe (init tightConfig) joining = some w ∧
      w.AppendOnly AppendSafe tightConfig := by
  have hsome : (execute (step tightConfig) AppendSafe (init tightConfig) joining).isSome =
      true := by
    decide +kernel
  obtain ⟨w, hw⟩ := Option.isSome_iff_exists.mp hsome
  exact ⟨w, hw, manifest_append_only tightConfig w (Run.of_execute hw)⟩

/-- The writer reads the first block back, and the load is started. -/
def reloading : List Action :=
  fillingThree ++ [.call 0 (.seekSet 0), .call 0 (.read 1)] ++ List.replicate 6 (.file 0) ++
    List.replicate 3 (.load 0)

/-- A second handle appends a record while the load is in flight. -/
def overtaking : List Action :=
  reloading ++ [.openFile 7 false false .readFile 2, .file 1, .file 1, .call 1 (.read 1),
    .file 1, .file 1]

/-- Where the loader finds the freed list node intact, the record of the second handle is
overwritten when the load completes. -/
theorem manifest_overwritten :
    ¬ ∀ w, Run (step tightConfig) anyStep (init tightConfig) w →
      w.AppendOnly anyStep tightConfig := by
  intro hclaim
  have hlost : ((execute (step tightConfig) anyStep (init tightConfig) overtaking).any fun w =>
      (step tightConfig w (.load 0)).any fun w' =>
        decide (¬ w.folder.content 0 <+: w'.folder.content 0)) = true := by
    decide +kernel
  obtain ⟨w, hw, hlost⟩ := (Option.any_eq_true _ _).mp hlost
  obtain ⟨w', hw', hlost⟩ := (Option.any_eq_true _ _).mp hlost
  rcases (hclaim w (Run.of_execute hw)).stays (.load 0) w' trivial hw' 0 with
    hprefix | ⟨n, h, isCancel, fd, e, hact, -⟩
  · exact of_decide_eq_true hlost hprefix
  · cases hact

end World

end Gopherwood
