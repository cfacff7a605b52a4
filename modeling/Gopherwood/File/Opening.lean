/-
# Opening a file while it is destroyed

An open looks for the manifest, opens it with `O_CREAT` and registers, in three
steps. Only the last one holds the lock under which a delete or a last close
unlinks the manifest. A handle that registers in time defers the destruction;
an open whose manifest is unlinked between its steps creates the manifest anew
or registers on an unlinked one.
-/

import Gopherwood.File.Segment
import Gopherwood.Journal.AppendOnly

namespace Gopherwood

open Library (Keeps Spec Run execute anyStep)

/-- The log of the handle can be replayed to its end. -/
def FileActiveStatus.readsLog (c : Ctx) : Bool :=
  match catchUpManifestLogs c with
  | .ok _ _ => true
  | .error _ _ => false

/-- The manifest that the handle is about to open exists, and the one that it has
open is still linked when it registers and while it is registered. -/
def FileActiveStatus.OnLog (h : FileActiveStatus) (d : ManifestFolder) : Prop :=
  (h.pc = .openManifest → ∃ k, d.links h.fileId = some k) ∧
    (h.pc = .regist ∨ h.activeId ≠ none → ∃ k, h.logFile = some k ∧ d.links h.fileId = some k)

namespace World

variable {cfg : Config} {w w' : World} {act : Action} {n : Nat} {h h' : FileActiveStatus}

/-- The handle can register: a slot is free and its log can be replayed. -/
def Admits (w : World) (h : FileActiveStatus) : Prop :=
  (∃ slot ∈ w.shm.activeStatus, slot.pid = none) ∧ FileActiveStatus.readsLog (w.ctx h) = true

/-- An admitted handle is registered. -/
theorem Admits.registers (hadmits : w.Admits h) (e : GwError) (c : Ctx) :
    FileActiveStatus.registInSharedMem (w.ctx h) ≠ .error e c := by
  intro hrun
  obtain ⟨hfree, hreads⟩ := hadmits
  cases hcatch : FileActiveStatus.catchUpManifestLogs (w.ctx h) with
  | error e' c' => simp [FileActiveStatus.readsLog, hcatch] at hreads
  | ok u c' =>
      have hquiet := (FileActiveStatus.catchUpManifestLogs_quiet (w.ctx h)).ok
        (s := w.ctx h) ⟨.refl _, rfl, rfl, rfl⟩ hcatch
      have hshm : c'.shm = w.shm := hquiet.2.2.1
      obtain ⟨s', -, ⟨hregist, -⟩ | ⟨a, f, -, hregist, -⟩⟩ :=
        SharedMemoryContext.registFile_cases c'.self.pid c'.self.fileId c'.self.isDelete c'.shm
      · exact SharedMemoryContext.registFile_of_free (hshm ▸ hfree) _ _ _ _ hregist
      · have hzoom := FileActiveStatus.run_onShm_ok hregist
        simp [FileActiveStatus.registInSharedMem, hcatch, hzoom,
          FileActiveStatus.modifySelf] at hrun

/-! ## What a step does to slots and links -/

/-- Every step does one of these to the handles, their slots and the links of the
manifests. -/
inductive Shift (cfg : Config) (w : World) (act : Action) (w' : World) : Prop
  /-- A handle is constructed. -/
  | opens (h : FileActiveStatus) (hnew : w.IsNew h w')
  /-- A handle opens its manifest, which may create it. -/
  | links (n : Nat) (h : FileActiveStatus) (hact : act = .file n) (hn : w.files[n]? = some h)
      (hpc : h.pc = .openManifest)
      (hfiles : w'.files = w.files.set n
        { h with fd := some ⟨(w.folder.mfOpen h.fileId).2, 0⟩, pc := .regist })
      (hadmins : w'.admins = w.admins) (hshm : w'.shm = w.shm)
      (hfolder : w'.folder = (w.folder.mfOpen h.fileId).1)
  /-- A handle takes a slot. -/
  | joins (n : Nat) (h h' : FileActiveStatus) (a : Nat) (hact : act = .file n)
      (hn : w.files[n]? = some h) (hpc : h.pc = .regist) (hfiles : w'.files = w.files.set n h')
      (hadmins : w'.admins = w.admins) (hpid : h'.pid = h.pid) (hfileId : h'.fileId = h.fileId)
      (hactive : h'.activeId = some a) (hlog : h'.logFile = h.logFile)
      (hopening : h'.pc.isOpening = false) (hslot : w.SlotTaken h a w'.shm)
      (hlinks : w'.folder.links = w.folder.links)
  /-- A handle is refused. -/
  | refuses (n : Nat) (h h' : FileActiveStatus) (hact : act = .file n)
      (hn : w.files[n]? = some h) (hpc : h.pc = .regist) (hrefused : ¬ w.Admits h)
      (hfiles : w'.files = w.files.set n h') (hadmins : w'.admins = w.admins)
      (hid : h.SameIdentity h') (hroster : w'.shm.roster = w.shm.roster)
      (hlinks : w'.folder.links = w.folder.links)
  /-- A handle goes on as what it was. -/
  | keeps (n : Nat) (h h' : FileActiveStatus) (hn : w.files[n]? = some h)
      (hfiles : w'.files = w.files.set n h') (hadmins : w'.admins = w.admins)
      (hid : h.SameIdentity h') (hlog : h'.logFile = h.logFile)
      (hpc : h.pc.isOpening = true → h'.pc = h.pc) (hroster : w'.shm.roster = w.shm.roster)
      (hlinks : w'.folder.links = w.folder.links)
  /-- A handle gives its slot back and unlinks its file if nobody else has it. -/
  | leaves (n : Nat) (h h' : FileActiveStatus) (a : Nat) (hact : act = .file n)
      (hn : w.files[n]? = some h) (hfiles : w'.files = w.files.set n h')
      (hadmins : w'.admins = w.admins) (hfileId : h'.fileId = h.fileId)
      (hopening : h.pc.isOpening = false) (hopening' : h'.pc.isOpening = false)
      (hactive : h.activeId = some a) (hnone : h'.activeId = none)
      (hroster : w'.shm.roster = w.shm.roster.set a SharedMemoryContext.noHandle)
      (hlinks : w'.folder.links = w.folder.links ∨
        (∀ slot ∈ w.shm.roster.set a SharedMemoryContext.noHandle, slot.2 ≠ h.fileId) ∧
          w'.folder.links = (w.folder.mfRemove h.fileId).links)
  /-- An admin or a loader thread works. -/
  | elsewhere (hfiles : w'.files = w.files) (hlinks : w'.folder.links = w.folder.links)
      (hregistered : w.Registered → w'.Registered)

/-- The segment, the folder and the handles stay. -/
theorem shift_of_same (hfiles : w'.files = w.files) (hadmins : w'.admins = w.admins)
    (hshm : w'.shm = w.shm) (hfolder : w'.folder = w.folder) : Shift cfg w act w' := by
  refine .elsewhere hfiles (by rw [hfolder]) fun hw => hw.of_admins hfiles (by rw [hshm]) ?_
  intro m x hm _
  exact ⟨x, hadmins ▸ hm, rfl, rfl⟩

theorem shift_of_local (hn : w.files[n]? = some h) (hlocal : Local n w w')
    (hopening : h.pc.isOpening = false) : Shift cfg w act w' := by
  obtain ⟨h', hl, hfiles⟩ := hlocal.files h hn
  have hlog : h'.logFile = h.logFile := by
    rw [FileActiveStatus.logFile, hl.fd]
    rfl
  refine .keeps n h h' hn hfiles hlocal.admins hl.sameIdentity hlog (fun hopen => ?_)
    (by rw [hlocal.shm]) (by rw [hlocal.folder])
  rw [hopening] at hopen
  cases hopen

/-- A critical section that keeps the roster. -/
theorem shift_of_session {c : Ctx} (hn : w.files[n]? = some h)
    (hc : Session (w.untracked h) w.SameRoster False c) (hreflects : Reflects n w w' c)
    (hopening : h.pc.isOpening = false) : Shift cfg w act w' := by
  obtain ⟨h', hlocal, hfiles⟩ := hreflects.files
  have hlog : h'.logFile = h.logFile := by
    rw [FileActiveStatus.logFile, hlocal.fd]
    exact hc.logFile
  refine .keeps n h h' hn hfiles hreflects.admins (hc.identity.trans hlocal.sameIdentity) hlog
    (fun hopen => ?_) (hreflects.shm ▸ hc.segment) (hreflects.folder ▸ hc.links)
  rw [hopening] at hopen
  cases hopen

/-- The step that closes a handle. -/
theorem shift_of_close {isCancel : Bool} (hn : w.files[n]? = some h)
    (hpc : h.pc = .close isCancel) (hstep : w.stepFile cfg n h = some w') :
    Shift cfg w (.file n) w' := by
  have hopening : h.pc.isOpening = false := by rw [hpc]; rfl
  have hbenign := (Scope.passes_of_moves (S := w.untracked h) w.leads_sameRoster cfg h.pc).benign
  obtain ⟨c, hc, hreflects⟩ := stepFile_close hbenign (fun a ha => unregistFile_roster ha)
    (fun _ => w.leads_slotLeft h _) (fun _ => w.leads_slotLeft h _) hn (session_untracked rfl) hpc
    hstep
  rcases hc with hc | hc
  · exact shift_of_session hn hc hreflects hopening
  · obtain ⟨h', hlocal, hfiles⟩ := hreflects.files
    obtain ⟨a, ha, hroster⟩ := hc.segment
    have hid := hlocal.sameIdentity
    have hopening' := (stepFile_close_quiet hn hpc hstep
      (by rw [hfiles]; exact getElem?_set_files hn)).1
    refine .leaves n h h' a rfl hn hfiles hreflects.admins (hid.fileId.trans hc.fileId) hopening
      hopening' ha (hid.activeId.trans hc.activeId) (hreflects.shm ▸ hroster) ?_
    rw [hreflects.folder]
    refine hc.links.imp id fun hremoved => ?_
    obtain ⟨⟨s, ⟨a', ha', hs⟩, hvacant⟩, hlinks⟩ := hremoved
    obtain rfl : a = a' := Option.some.inj (ha.symm.trans ha')
    exact ⟨hs ▸ hvacant, hlinks⟩

/-- The step that registers a handle. -/
theorem shift_of_regist (hn : w.files[n]? = some h) (hpc : h.pc = .regist)
    (hstep : w.stepFile cfg n h = some w') : Shift cfg w (.file n) w' := by
  have hspec := FileActiveStatus.registInSharedMem_spec (S := w.untracked h)
    (fun isDelete => registFile_roster isDelete) (w.ctx h) (session_untracked rfl)
  have hrun := stepFile_regist hpc hstep
  cases hreg : FileActiveStatus.registInSharedMem (w.ctx h) with
  | ok u c =>
      rw [hreg] at hspec hrun
      obtain ⟨a, hc⟩ := hspec
      obtain ⟨pc, hopening, hfiles, hadmins, hshm, hfolder⟩ := hrun
      exact .joins n h _ a rfl hn hpc hfiles hadmins hc.identity.pid hc.identity.fileId
        hc.identity.activeId hc.logFile hopening (hshm ▸ hc.segment) (hfolder ▸ hc.links)
  | error e c =>
      rw [hreg] at hspec hrun
      obtain ⟨hfiles, hadmins, hshm, hfolder⟩ := hrun
      have hid := hspec.identity
      refine .refuses n h _ rfl hn hpc (fun hadmits => hadmits.registers e c hreg) hfiles hadmins
        ⟨hid.client, hid.fileId, hid.pid, hid.activeId, fun h => by cases h⟩
        (hshm ▸ hspec.segment) (hfolder ▸ hspec.links)

/-- A step of a handle's thread. -/
theorem shift_of_file (hn : w.files[n]? = some h) (hstep : w.stepFile cfg n h = some w') :
    Shift cfg w (.file n) w' := by
  by_cases hclose : ∃ isCancel, h.pc = .close isCancel
  · obtain ⟨isCancel, hpc⟩ := hclose
    exact shift_of_close hn hpc hstep
  · cases hopening : h.pc.isOpening with
    | false =>
        obtain ⟨c, hc, hreflects⟩ := stepFile_session
          (Scope.passes_of_moves w.leads_sameRoster cfg h.pc) hn (session_untracked rfl)
          hopening (fun isCancel hpc => hclose ⟨isCancel, hpc⟩) hstep
        exact shift_of_session hn hc hreflects hopening
    | true =>
        cases hpc : h.pc with
        | regist => exact shift_of_regist hn hpc hstep
        | openManifest =>
            unfold stepFile at hstep
            simp only [hpc, Option.some.injEq] at hstep
            subst hstep
            exact .links n h rfl hn hpc rfl rfl rfl rfl
        | _ => simp [hpc, Pc.isOpening] at hopening

/-- Every registered handle has its slot, and no handle has one before it
registers. -/
structure Enrolled (w : World) : Prop where
  registered : w.Registered
  opening : ∀ (n : Nat) (h : FileActiveStatus), w.files[n]? = some h → h.pc.isOpening = true →
    h.activeId = none

/-- The end of a load of a registered handle keeps the roster; other handles
ignore it. -/
theorem Enrolled.shift_of_finishLoad (hw : w.Enrolled) {i : Nat} {prog : StatusM Unit}
    (hn : w.files[n]? = some h)
    (hprog : Keeps (Session (w.untracked h) w.SameRoster False) prog)
    (hdetached : h.activeId = none →
      Spec (· = w.ctx h) prog (fun _ => (· = w.ctx h)) (fun _ => (· = w.ctx h))) :
    Shift cfg w act (w.finishLoad i n h prog) := by
  cases hopening : h.pc.isOpening with
  | true =>
      obtain ⟨_, h', rfl, hlocal, hpc, hfiles, hadmins, hshm, hfolder⟩ :=
        finishLoad_cases (i := i) (n := n) (hdetached (hw.opening n h hn hopening))
      refine .keeps n h h' hn hfiles hadmins hlocal.sameIdentity ?_ (fun _ => hpc)
        (by rw [hshm]; rfl)
        (by rw [hfolder]; rfl)
      rw [FileActiveStatus.logFile, hlocal.fd]
      rfl
  | false =>
      obtain ⟨c, h', hc, hlocal, -, hfiles, hadmins, hshm, hfolder⟩ := finishLoad_cases (i := i)
        (n := n) (Spec.weaken_pre hprog fun _ hs => hs ▸ session_untracked rfl)
      exact shift_of_session hn hc ⟨hshm, hfolder, hadmins, h', hlocal, hfiles⟩ hopening

/-- A step of a loader thread. -/
theorem Enrolled.shift_of_load (hw : w.Enrolled) {i : Nat} {task : LoadTask}
    (hstep : w.stepLoad cfg i task = some w') : Shift cfg w act w' := by
  unfold stepLoad at hstep
  cases hphase : task.phase with
  | start =>
      simp only [hphase, Option.some.injEq] at hstep
      subst hstep
      split
      · exact shift_of_same rfl rfl rfl rfl
      · exact shift_of_same rfl rfl rfl rfl
  | fetched data =>
      simp only [hphase] at hstep
      split at hstep
      · cases hstep
        exact shift_of_same rfl rfl rfl rfl
      · cases hstep
        exact shift_of_same rfl rfl rfl rfl
  | stored size =>
      simp only [hphase] at hstep
      cases hstep
      exact shift_of_same rfl rfl rfl rfl
  | removed size =>
      simp only [hphase] at hstep
      split at hstep
      · cases hstep
      · next h hn =>
          split at hstep
          · cases hstep
          · cases hstep
            refine hw.shift_of_finishLoad hn ?_ fun hnone => loadSucceeded_detached hnone cfg _ _
            exact untracked_loadSucceeded (fun _ _ _ => w.leads_sameRoster _)
              (fun _ _ _ => w.leads_sameRoster _) task.info size
  | failed =>
      simp only [hphase] at hstep
      split at hstep
      · cases hstep
      · next h hn =>
          split at hstep
          · cases hstep
          · cases hstep
            exact hw.shift_of_finishLoad hn (FileActiveStatus.loadFailed_session
              (fun _ _ _ => w.leads_sameRoster _) task.info) fun hnone =>
                loadFailed_detached hnone _

/-- Work of an admin. -/
theorem shift_of_admin {a : AdminActiveStatus} (hn : w.admins[n]? = some a)
    (hadmin : AdminStep n a w w') : Shift cfg w act w' :=
  .elsewhere hadmin.files hadmin.links fun hw => hadmin.registered hw hn

/-- Every step of the system. -/
theorem Enrolled.shift (hw : w.Enrolled) (hstep : step cfg w act = some w') :
    Shift cfg w act w' := by
  have hadminPc : ∀ {n : Nat} {a : AdminActiveStatus} (pc : AdminPc), w.admins[n]? = some a →
      Shift cfg w act (w.setAdmin n { a with pc := pc }) :=
    fun pc hn => shift_of_admin hn (.of_roster pc rfl rfl rfl rfl)
  cases act with
  | openFile hashcode isCreate isSequence type pid =>
      simp only [step, Option.some.injEq] at hstep
      subst hstep
      obtain ⟨h, hnew, -⟩ := w.openFile_isNew cfg (makeFileId hashcode) isCreate isSequence type pid
      exact .opens h hnew
  | call n call =>
      simp only [step] at hstep
      split at hstep
      · next h hn =>
          split at hstep
          · next hpc hid =>
              cases hstep
              exact shift_of_local hn (startCall_local hn call) (by rw [hpc]; rfl)
          · cases hstep
      · cases hstep
  | file n =>
      simp only [step] at hstep
      split at hstep
      · next h hn => exact shift_of_file hn hstep
      · cases hstep
  | failUpload n =>
      simp only [step] at hstep
      split at hstep
      · next h hn =>
          split at hstep
          · next hpc =>
              cases hstep
              exact shift_of_local hn (raise_local hn _ _) (by rw [hpc]; rfl)
          · cases hstep
      · cases hstep
  | load i =>
      simp only [step] at hstep
      split at hstep
      · exact hw.shift_of_load hstep
      · cases hstep
  | failLoad i =>
      simp only [step, failLoad] at hstep
      split at hstep
      · split at hstep
        · cases hstep
          exact shift_of_same rfl rfl rfl rfl
        · cases hstep
          exact shift_of_same rfl rfl rfl rfl
        · cases hstep
      · cases hstep
  | openAdmin pid =>
      simp only [step, Option.some.injEq] at hstep
      subst hstep
      refine .elsewhere rfl rfl fun hregistered => hregistered.of_admins rfl rfl ?_
      intro m x hm hx
      rw [List.getElem?_append] at hm
      split at hm
      · exact ⟨x, hm, rfl, rfl⟩
      · have := List.mem_of_getElem? hm
        rw [List.mem_singleton] at this
        rw [this] at hx
        exact absurd rfl hx
  | evictBlocks n =>
      simp only [step] at hstep
      split at hstep
      · next hn =>
          split at hstep
          · cases hstep
            exact hadminPc _ hn
          · cases hstep
      · cases hstep
  | closeAdmin n =>
      simp only [step] at hstep
      split at hstep
      · next hn =>
          split at hstep
          · cases hstep
            exact hadminPc _ hn
          · cases hstep
      · cases hstep
  | admin n =>
      simp only [step] at hstep
      split at hstep
      · next a hn => exact shift_of_admin hn (stepAdmin_step hstep)
      · cases hstep
  | failAdminUpload n =>
      simp only [step] at hstep
      split at hstep
      · next hn =>
          split at hstep
          · cases hstep
            exact hadminPc _ hn
          · cases hstep
      · cases hstep

theorem enrolled_init (cfg : Config) : (init cfg).Enrolled :=
  ⟨(logged_init cfg).registered, (fun n h hn => by simp [init] at hn)⟩

/-- No step loses a registration. -/
theorem Enrolled.step (hw : w.Enrolled) (hstep : World.step cfg w act = some w') : w'.Enrolled := by
  have hset : ∀ {n : Nat} {h' : FileActiveStatus}, w'.files = w.files.set n h' →
      (h'.pc.isOpening = true → h'.activeId = none) →
      ∀ (m : Nat) (x : FileActiveStatus), w'.files[m]? = some x → x.pc.isOpening = true →
        x.activeId = none := by
    intro n h' hfiles hopening m x hm hx
    rcases files_set_cases hfiles hm with ⟨-, rfl⟩ | ⟨-, hm⟩
    · exact hopening hx
    · exact hw.opening m x hm hx
  cases hw.shift hstep with
  | opens h hnew =>
      refine ⟨hw.registered.of_new hnew, fun m x hm hx => ?_⟩
      rcases hnew.cases hm with hm | ⟨-, rfl⟩
      · exact hw.opening m x hm hx
      · exact hnew.activeId
  | links n h hact hn hpc hfiles hadmins hshm hfolder =>
      have hopening : h.pc.isOpening = true := by rw [hpc]; rfl
      exact ⟨hw.registered.of_same hn hfiles hadmins ⟨rfl, rfl, rfl, rfl, fun _ => hopening⟩
        (by rw [hshm]), hset hfiles fun _ => hw.opening n h hn hopening⟩
  | joins n h h' a hact hn hpc hfiles hadmins hpid hfileId hactive hlog hopening hslot hlinks =>
      obtain ⟨⟨f, hfree⟩, hroster⟩ := hslot
      refine ⟨hw.registered.join hn hfiles hadmins hfree hactive
        (by rw [hpid, hfileId]; exact hroster), hset hfiles fun hopen => ?_⟩
      rw [hopening] at hopen
      cases hopen
  | refuses n h h' hact hn hpc hrefused hfiles hadmins hid hroster hlinks =>
      exact ⟨hw.registered.of_same hn hfiles hadmins hid hroster, hset hfiles fun hopen =>
        hid.activeId.trans (hw.opening n h hn (hid.opening hopen))⟩
  | keeps n h h' hn hfiles hadmins hid hlog hpc hroster hlinks =>
      exact ⟨hw.registered.of_same hn hfiles hadmins hid hroster, hset hfiles fun hopen =>
        hid.activeId.trans (hw.opening n h hn (hid.opening hopen))⟩
  | leaves n h h' a hact hn hfiles hadmins hfileId hopening hopening' hactive hnone hroster
      hlinks =>
      exact ⟨hw.registered.leave hn hfiles hadmins hactive hnone hroster,
        hset hfiles fun _ => hnone⟩
  | elsewhere hfiles hlinks hregistered =>
      exact ⟨hregistered hw.registered, by rw [hfiles]; exact hw.opening⟩

theorem enrolled_run {cond : World → Action → Prop} {w₀ : World} (hw : w₀.Enrolled)
    (hrun : Run (step cfg) cond w₀ w) : w.Enrolled :=
  hrun.induct hw fun _ _ _ hw _ hstep => hw.step hstep

/-! ## One open and every destruction -/

/-- While handle `n` is opening `fileId`, the step does not unlink the file; the
handle registers where a slot is free and the log can be replayed. -/
def Undisturbed (cfg : Config) (fileId : FileId) (n : Nat) (w : World) (act : Action) : Prop :=
  ∀ h ∈ w.files[n]?, h.pc.isOpening = true →
    (∀ w' ∈ step cfg w act, w.folder.isLinked fileId = true → w'.folder.isLinked fileId = true) ∧
      (act = .file n → h.pc = .regist → w.Admits h)

/-- The handle is registered. -/
def IsRegistered (w : World) (n : Nat) : Prop := ∃ h ∈ w.files[n]?, h.activeId ≠ none

/-- Handle `n` of `fileId` stands on a linked manifest. -/
structure Anchored (fileId : FileId) (n : Nat) (w : World) : Prop where
  enrolled : w.Enrolled
  handle : ∃ h, w.files[n]? = some h ∧ h.fileId = fileId ∧ h.OnLog w.folder

variable {fileId : FileId}

theorem onLog_of_links {d d' : ManifestFolder} (hlog : h.OnLog d)
    (hlinks : h.pc.isOpening = true ∨ h.activeId ≠ none →
      ∀ k, d.links h.fileId = some k → d'.links h.fileId = some k) : h.OnLog d' := by
  refine ⟨fun hpc => ?_, fun hpc => ?_⟩
  · obtain ⟨k, hk⟩ := hlog.1 hpc
    exact ⟨k, hlinks (Or.inl (by rw [hpc]; rfl)) k hk⟩
  · obtain ⟨k, hfile, hk⟩ := hlog.2 hpc
    refine ⟨k, hfile, hlinks ?_ k hk⟩
    rcases hpc with hpc | hactive
    · exact Or.inl (by rw [hpc]; rfl)
    · exact Or.inr hactive

/-- A file with a registered handle is not vacant when another handle leaves. -/
theorem Registered.not_vacant (hw : w.Registered) {m : Nat} {x : FileActiveStatus} {a : Nat}
    (hn : w.files[n]? = some h) (hm : w.files[m]? = some x) (hne : n ≠ m)
    (hactive : h.activeId ≠ none) (ha : x.activeId = some a) :
    ∃ slot ∈ w.shm.roster.set a SharedMemoryContext.noHandle, slot.2 = h.fileId := by
  obtain ⟨b, hb⟩ := Option.ne_none_iff_exists'.mp hactive
  have hslot := hw.file n h b hn hb
  have hab : a ≠ b := by
    rintro rfl
    have := hw.distinct (.file n) (.file m) a (by simp [activeIdOf, hn, hb])
      (by simp [activeIdOf, hm, ha])
    exact hne (Client.file.inj this)
  refine ⟨(some h.pid, h.fileId), List.mem_of_getElem? (i := b) ?_, rfl⟩
  rw [List.getElem?_set_ne hab]
  exact hslot

/-- A link stays as long as a registered handle needs it, whatever the others do. -/
theorem Enrolled.links_stay (hw : w.Enrolled) (hn : w.files[n]? = some h)
    (hstep : World.step cfg w act = some w') (hact : act ≠ .file n)
    (hneeds : h.activeId ≠ none ∨ w'.folder.isLinked h.fileId = true) {k : Nat}
    (hk : w.folder.links h.fileId = some k) : w'.folder.links h.fileId = some k := by
  cases hw.shift hstep with
  | opens x hnew => rw [hnew.folder]; exact hk
  | links m x hact' hm hpc hfiles hadmins hshm hfolder =>
      rw [hfolder]
      rcases w.folder.mfOpen_cases x.fileId with ⟨file, hlink, hopen⟩ | ⟨hlink, -, -, -, hlinks⟩
      · rw [hopen]
        exact hk
      · rw [hlinks, if_neg]
        · exact hk
        · intro heq
          rw [heq, hlink] at hk
          cases hk
  | joins m x x' a hact' hm hpc hfiles hadmins hpid hfileId hactive hlog hopening hslot hlinks =>
      rw [hlinks]
      exact hk
  | refuses m x x' hact' hm hpc hrefused hfiles hadmins hid hroster hlinks =>
      rw [hlinks]
      exact hk
  | keeps m x x' hm hfiles hadmins hid hlog hpc hroster hlinks =>
      rw [hlinks]
      exact hk
  | leaves m x x' a hact' hm hfiles hadmins hfileId hopening hopening' hactive hnone hroster
      hlinks =>
      have hne : n ≠ m := fun heq => hact (heq ▸ hact')
      rcases hlinks with hlinks | ⟨hvacant, hlinks⟩
      · rw [hlinks]
        exact hk
      · have hremoved : w'.folder.links h.fileId =
            if h.fileId = x.fileId then none else w.folder.links h.fileId := by
          rw [hlinks]
          rfl
        by_cases heq : h.fileId = x.fileId
        · rw [if_pos heq] at hremoved
          rcases hneeds with hreg | hlinked
          · obtain ⟨slot, hslot, hid⟩ := hw.registered.not_vacant hn hm hne hreg hactive
            exact absurd (hid.trans heq) (hvacant slot hslot)
          · simp [ManifestFolder.isLinked, hremoved] at hlinked
        · rw [hremoved, if_neg heq]
          exact hk
  | elsewhere hfiles hlinks hregistered =>
      rw [hlinks]
      exact hk

/-- An undisturbed step leaves the handle on a linked manifest, and an open that
ends with it ends registered. -/
theorem Anchored.step (hw : w.Anchored fileId n) (hcond : Undisturbed cfg fileId n w act)
    (hstep : World.step cfg w act = some w') :
    w'.Anchored fileId n ∧ ((∃ h ∈ w.files[n]?, h.pc.isOpening = true) →
      (∃ h ∈ w'.files[n]?, h.pc.isOpening = true) ∨ w'.IsRegistered n) := by
  obtain ⟨h, hn, rfl, hlog⟩ := hw.handle
  have hmine : ∀ {x : FileActiveStatus}, w.files[n]? = some x → x = h :=
    fun hx => Option.some.inj (hx.symm.trans hn)
  have hset : ∀ {h' : FileActiveStatus}, (w.files.set n h')[n]? = some h' :=
    getElem?_set_files hn
  have hneeds : (∃ x ∈ w.files[n]?, x.pc.isOpening = true) → h.pc.isOpening = true := by
    rintro ⟨x, hx, hopening⟩
    exact hmine hx ▸ hopening
  -- a step that is not the handle's own
  have hother : w'.files[n]? = some h → act ≠ .file n → w'.Anchored h.fileId n ∧
      ((∃ h ∈ w.files[n]?, h.pc.isOpening = true) →
        (∃ h ∈ w'.files[n]?, h.pc.isOpening = true) ∨ w'.IsRegistered n) := by
    intro hn' hact
    refine ⟨⟨hw.enrolled.step hstep, h, hn', rfl, onLog_of_links hlog fun hneeds k hk => ?_⟩,
      fun hopening => Or.inl ⟨h, hn', hneeds hopening⟩⟩
    refine hw.enrolled.links_stay hn hstep hact ?_ hk
    rcases hneeds with hopening | hactive
    · exact Or.inr ((hcond h hn hopening).1 w' hstep (by simp [ManifestFolder.isLinked, hk]))
    · exact Or.inl hactive
  -- a step of another handle
  have hset_other : ∀ {m : Nat} {x : FileActiveStatus}, m ≠ n → w'.files = w.files.set m x →
      w'.files[n]? = some h := by
    intro m x hne hfiles
    rw [hfiles, List.getElem?_set_ne hne]
    exact hn
  -- the handle after a step of its own
  have hresult : ∀ {h' : FileActiveStatus}, w'.files = w.files.set n h' →
      h'.fileId = h.fileId → h'.OnLog w'.folder →
      (h.pc.isOpening = true → h'.pc.isOpening = true ∨ h'.activeId ≠ none) →
      w'.Anchored h.fileId n ∧ ((∃ h ∈ w.files[n]?, h.pc.isOpening = true) →
        (∃ h ∈ w'.files[n]?, h.pc.isOpening = true) ∨ w'.IsRegistered n) := by
    intro h' hfiles hid hlog' hends
    have hn' : w'.files[n]? = some h' := by
      rw [hfiles]
      exact hset
    refine ⟨⟨hw.enrolled.step hstep, h', hn', hid, hlog'⟩, fun hopening => ?_⟩
    exact (hends (hneeds hopening)).imp (fun h => ⟨h', hn', h⟩) fun h => ⟨h', hn', h⟩
  cases hw.enrolled.shift hstep with
  | opens x hnew =>
      have hlt := (List.getElem?_eq_some_iff.mp hn).1
      have hn' : w'.files[n]? = some h := by
        rw [hnew.files, List.getElem?_append_left hlt]
        exact hn
      exact ⟨⟨hw.enrolled.step hstep, h, hn', rfl, hnew.folder ▸ hlog⟩,
        fun hopening => Or.inl ⟨h, hn', hneeds hopening⟩⟩
  | links m x hact hm hpc hfiles hadmins hshm hfolder =>
      by_cases hmn : m = n
      · subst hmn
        obtain rfl := hmine hm
        obtain ⟨k, hk⟩ := hlog.1 hpc
        have hopen : w.folder.mfOpen x.fileId = (w.folder, k) := by
          simp [ManifestFolder.mfOpen, hk]
        refine hresult hfiles rfl ⟨(fun h => by cases h), fun _ => ⟨k, ?_, ?_⟩⟩ fun _ => Or.inl rfl
        · rw [hopen]
          rfl
        · rw [hfolder, hopen]
          exact hk
      · exact hother (hset_other hmn hfiles) fun h => hmn (Action.file.inj (hact.symm.trans h))
  | joins m x x' a hact hm hpc hfiles hadmins hpid hfileId hactive hlog' hopening hslot hlinks =>
      by_cases hmn : m = n
      · subst hmn
        obtain rfl := hmine hm
        obtain ⟨k, hfile, hk⟩ := hlog.2 (Or.inl hpc)
        have hregistered : x'.activeId ≠ none := by
          rw [hactive]
          simp
        refine hresult hfiles hfileId ⟨fun hpc' => ?_, fun _ => ⟨k, hlog'.trans hfile, ?_⟩⟩
          fun _ => Or.inr hregistered
        · rw [hpc'] at hopening
          cases hopening
        · rw [hfileId, hlinks]
          exact hk
      · exact hother (hset_other hmn hfiles) fun h => hmn (Action.file.inj (hact.symm.trans h))
  | refuses m x x' hact hm hpc hrefused hfiles hadmins hid hroster hlinks =>
      by_cases hmn : m = n
      · subst hmn
        obtain rfl := hmine hm
        exact absurd ((hcond x hn (by rw [hpc]; rfl)).2 hact hpc) hrefused
      · exact hother (hset_other hmn hfiles) fun h => hmn (Action.file.inj (hact.symm.trans h))
  | keeps m x x' hm hfiles hadmins hid hlog' hpc hroster hlinks =>
      by_cases hmn : m = n
      · subst hmn
        obtain rfl := hmine hm
        have hpc' : ∀ {pc : Pc}, pc.isOpening = true → x'.pc = pc → x.pc = pc := by
          intro pc hopening heq
          have hopening' : x.pc.isOpening = true := hid.opening (by rw [heq]; exact hopening)
          exact (hpc hopening').symm.trans heq
        refine hresult hfiles hid.fileId ⟨fun hopen => ?_, fun hneeds => ?_⟩ fun hopening => ?_
        · rw [hid.fileId, hlinks]
          exact hlog.1 (hpc' rfl hopen)
        · rw [hid.fileId, hlinks, hlog']
          exact hlog.2 (hneeds.imp (hpc' rfl) fun hactive => hid.activeId ▸ hactive)
        · exact Or.inl (by rw [hpc hopening]; exact hopening)
      · have hn' := hset_other hmn hfiles
        exact ⟨⟨hw.enrolled.step hstep, h, hn', rfl,
          onLog_of_links hlog fun _ k hk => by rw [hlinks]; exact hk⟩,
          fun hopening => Or.inl ⟨h, hn', hneeds hopening⟩⟩
  | leaves m x x' a hact hm hfiles hadmins hfileId hopening hopening' hactive hnone hroster
      hlinks =>
      by_cases hmn : m = n
      · subst hmn
        obtain rfl := hmine hm
        refine hresult hfiles hfileId ⟨fun hpc => ?_, fun hneeds => ?_⟩ fun hopen => ?_
        · rw [hpc] at hopening'
          cases hopening'
        · rcases hneeds with hpc | hsome
          · rw [hpc] at hopening'
            cases hopening'
          · exact absurd hnone hsome
        · rw [hopening] at hopen
          cases hopen
      · exact hother (hset_other hmn hfiles) fun h => hmn (Action.file.inj (hact.symm.trans h))
  | elsewhere hfiles hlinks hregistered =>
      have hn' : w'.files[n]? = some h := by
        rw [hfiles]
        exact hn
      exact ⟨⟨hw.enrolled.step hstep, h, hn', rfl,
        onLog_of_links hlog fun _ k hk => by rw [hlinks]; exact hk⟩,
        fun hopening => Or.inl ⟨h, hn', hneeds hopening⟩⟩

/-- `File does not exist`. -/
def notExist : GwError := .invalidParm "[ActiveStatus::ActiveStatus] File does not exist"

/-- A non-creating open of `fileId` by handle `n`, started in `w₀` with the
existence check that led to `w₁`, seen in the state `w`. -/
structure OpenVersusDelete (cfg : Config) (cond : World → Action → Prop) (fileId : FileId) (n : Nat)
    (w₀ w₁ w : World) : Prop where
  /-- An open that has ended has failed for want of the file, or was registered at
  some moment. -/
  ended : ∀ h ∈ w.files[n]?, h.pc.isOpening = false →
    (w₀.folder.isLinked fileId = false ∧ h.activeId = none ∧
      ⟨n, none, .threw notExist⟩ ∈ w₁.history) ∨
    ∃ v, Run (step cfg) cond w₁ v ∧ v.IsRegistered n ∧ Run (step cfg) cond v w
  /-- The log that a handle replays when it registers, and works on afterwards, is
  linked. -/
  linked : ∀ h ∈ w.files[n]?, h.pc = .regist ∨ h.activeId ≠ none →
    ∃ k, h.logFile = some k ∧ w.folder.links fileId = some k
  /-- No step of the open creates a manifest. -/
  creates : ∀ h ∈ w.files[n]?, h.pc.isOpening = true →
    ∀ w', step cfg w (.file n) = some w' → w'.folder.links = w.folder.links
  /-- The file is not unlinked before a registered handle has left. -/
  defers : w.IsRegistered n → ∀ act w', step cfg w act = some w' →
    w'.folder.isLinked fileId = true ∨ ¬ w'.IsRegistered n

/-- An anchored handle's file is linked until the handle leaves. -/
theorem Anchored.defers (hw : w.Anchored fileId n) (hregistered : w.IsRegistered n)
    (hstep : World.step cfg w act = some w') :
    w'.folder.isLinked fileId = true ∨ ¬ w'.IsRegistered n := by
  by_cases hregistered' : w'.IsRegistered n
  · obtain ⟨h, hn, hactive⟩ := hregistered
    have hopening : h.pc.isOpening ≠ true := fun hopen => hactive (hw.enrolled.opening n h hn hopen)
    have hcond : Undisturbed cfg fileId n w act := by
      intro x hx hopen
      obtain rfl := Option.some.inj (hx.symm.trans hn)
      exact absurd hopen hopening
    obtain ⟨h', hn', hactive'⟩ := hregistered'
    obtain ⟨x, hx, hid, hlog⟩ := ((hw.step hcond hstep).1).handle
    obtain rfl := Option.some.inj (hx.symm.trans hn')
    obtain ⟨k, -, hk⟩ := hlog.2 (Or.inr hactive')
    exact Or.inl (by rw [ManifestFolder.isLinked, ← hid, hk]; rfl)
  · exact Or.inr hregistered'

/-- A handle on a linked manifest opens it without creating it. -/
theorem Anchored.creates (hw : w.Anchored fileId n) (hn : w.files[n]? = some h)
    (hopening : h.pc.isOpening = true) (hstep : World.step cfg w (.file n) = some w') :
    w'.folder.links = w.folder.links := by
  obtain ⟨x, hx, hid, hlog⟩ := hw.handle
  obtain rfl := Option.some.inj (hx.symm.trans hn)
  cases hw.enrolled.shift hstep with
  | opens y hnew => rw [hnew.folder]
  | links m y hact hm hpc hfiles hadmins hshm hfolder =>
      obtain rfl := Action.file.inj hact
      obtain rfl := Option.some.inj (hm.symm.trans hn)
      obtain ⟨k, hk⟩ := hlog.1 hpc
      rw [hfolder, ManifestFolder.mfOpen, hk]
  | joins m y y' a hact hm hpc hfiles hadmins hpid hfileId hactive hlog' hopening' hslot hlinks =>
      exact hlinks
  | refuses m y y' hact hm hpc hrefused hfiles hadmins hid hroster hlinks => exact hlinks
  | keeps m y y' hm hfiles hadmins hid hlog' hpc hroster hlinks => exact hlinks
  | leaves m y y' a hact hm hfiles hadmins hfileId hclosing hopening' hactive hnone hroster
      hlinks =>
      obtain rfl := Action.file.inj hact
      obtain rfl := Option.some.inj (hm.symm.trans hn)
      rw [hclosing] at hopening
      cases hopening
  | elsewhere hfiles hlinks hregistered => exact hlinks

/-- In a run of undisturbed steps an open is on its way or has been registered. -/
theorem anchored_run {w₁ : World} (hw : w₁.Anchored fileId n)
    (hopening : ∃ h ∈ w₁.files[n]?, h.pc.isOpening = true)
    (hrun : Run (step cfg) (Undisturbed cfg fileId n) w₁ w) :
    w.Anchored fileId n ∧ ((∃ h ∈ w.files[n]?, h.pc.isOpening = true) ∨
      ∃ v, Run (step cfg) (Undisturbed cfg fileId n) w₁ v ∧ v.IsRegistered n ∧
        Run (step cfg) (Undisturbed cfg fileId n) v w) := by
  induction hrun with
  | start => exact ⟨hw, Or.inl hopening⟩
  | step act hrun hcond hstep ih =>
      obtain ⟨hanchored, hwhere⟩ := ih
      obtain ⟨hanchored', hends⟩ := hanchored.step hcond hstep
      refine ⟨hanchored', ?_⟩
      rcases hwhere with hopening | ⟨v, hv, hregistered, hrest⟩
      · refine (hends hopening).imp id fun hregistered => ?_
        exact ⟨_, .step act hrun hcond hstep, hregistered, .start⟩
      · exact Or.inr ⟨v, hv, hregistered, .step act hrest hcond hstep⟩

/-- The handle has no slot and will not register. -/
def Dormant (w : World) (n : Nat) : Prop :=
  ∃ h, w.files[n]? = some h ∧ h.pc.isOpening = false ∧ h.activeId = none

theorem Enrolled.dormant (hw : w.Enrolled) (hdormant : w.Dormant n)
    (hstep : World.step cfg w act = some w') : w'.Dormant n := by
  obtain ⟨h, hn, hopening, hnone⟩ := hdormant
  have hmine : ∀ {x : FileActiveStatus}, w.files[n]? = some x → x = h :=
    fun hx => Option.some.inj (hx.symm.trans hn)
  have hstay : w'.files[n]? = some h → w'.Dormant n := fun hn' => ⟨h, hn', hopening, hnone⟩
  -- a step of one handle; the dormant one takes only steps that keep its identity
  have hset : ∀ {m : Nat} {x x' : FileActiveStatus}, w.files[m]? = some x →
      w'.files = w.files.set m x' → (m = n → h.SameIdentity x') → w'.Dormant n := by
    intro m x x' hm hfiles hid
    by_cases hmn : m = n
    · replace hid := hid hmn
      subst hmn
      refine ⟨x', by rw [hfiles]; exact getElem?_set_files hn, ?_, hid.activeId.trans hnone⟩
      cases hopen : x'.pc.isOpening with
      | false => rfl
      | true => exact (hid.opening hopen).symm.trans hopening
    · refine hstay ?_
      rw [hfiles, List.getElem?_set_ne hmn]
      exact hn
  have habsurd : ∀ {m : Nat} {x : FileActiveStatus} {p : Prop}, w.files[m]? = some x →
      x.pc.isOpening = true → m = n → p := by
    rintro m x p hm hopen rfl
    rw [hmine hm, hopening] at hopen
    cases hopen
  cases hw.shift hstep with
  | opens x hnew =>
      refine hstay ?_
      rw [hnew.files, List.getElem?_append_left (List.getElem?_eq_some_iff.mp hn).1]
      exact hn
  | links m x hact hm hpc hfiles hadmins hshm hfolder =>
      exact hset hm hfiles (habsurd hm (by rw [hpc]; rfl))
  | joins m x x' a hact hm hpc hfiles hadmins hpid hfileId hactive hlog hopening' hslot hlinks =>
      exact hset hm hfiles (habsurd hm (by rw [hpc]; rfl))
  | refuses m x x' hact hm hpc hrefused hfiles hadmins hid hroster hlinks =>
      exact hset hm hfiles (habsurd hm (by rw [hpc]; rfl))
  | keeps m x x' hm hfiles hadmins hid hlog hpc hroster hlinks =>
      refine hset hm hfiles fun hmn => ?_
      subst hmn
      exact hmine hm ▸ hid
  | leaves m x x' a hact hm hfiles hadmins hfileId hclosing hopening' hactive hnone' hroster
      hlinks =>
      refine hset hm hfiles fun hmn => ?_
      subst hmn
      rw [hmine hm, hnone] at hactive
      cases hactive
  | elsewhere hfiles hlinks hregistered =>
      refine hstay ?_
      rw [hfiles]
      exact hn

theorem dormant_run {cond : World → Action → Prop} {w₁ : World} (hw : w₁.Enrolled)
    (hdormant : w₁.Dormant n) (hrun : Run (step cfg) cond w₁ w) : w.Dormant n := by
  induction hrun with
  | start => exact hdormant
  | step act hrun hcond hstep ih => exact (enrolled_run hw hrun).dormant ih hstep

/-- An open whose manifest is not unlinked between its existence check and its
registration fails because there is no file, or registers on the linked manifest
and defers the destruction. -/
theorem open_versus_delete (cfg : Config) (hashcode : Nat) (isSequence : Bool)
    (type : ActiveStatusType) (pid : Nat) (w₀ w₁ w : World)
    (hbefore : Run (step cfg) anyStep (init cfg) w₀)
    (hopen : step cfg w₀ (.openFile hashcode false isSequence type pid) = some w₁)
    (hafter : Run (step cfg) (Undisturbed cfg (makeFileId hashcode) w₀.files.length) w₁ w) :
    OpenVersusDelete cfg (Undisturbed cfg (makeFileId hashcode) w₀.files.length)
      (makeFileId hashcode) w₀.files.length w₀ w₁ w := by
  have henrolled₀ := enrolled_run (enrolled_init cfg) hbefore
  have henrolled₁ := henrolled₀.step hopen
  have henrolled := enrolled_run henrolled₁ hafter
  simp only [step, Option.some.injEq] at hopen
  subst hopen
  obtain ⟨h, hnew, hid, hfound⟩ :=
    w₀.openFile_isNew cfg (makeFileId hashcode) false isSequence type pid
  generalize w₀.openFile cfg (makeFileId hashcode) false isSequence type pid = w₁ at *
  have hn : w₁.files[w₀.files.length]? = some h := by
    rw [hnew.files]
    simp
  cases hlinked : w₀.folder.isLinked (makeFileId hashcode) with
  | true =>
      rw [hlinked, Bool.false_or, if_pos rfl] at hfound
      obtain ⟨k, hk⟩ := Option.isSome_iff_exists.mp hlinked
      have hlog : h.OnLog w₁.folder := by
        refine ⟨fun _ => ⟨k, by rw [hnew.folder, hid]; exact hk⟩, fun hneeds => ?_⟩
        rcases hneeds with hpc | hactive
        · rw [hfound] at hpc
          cases hpc
        · exact absurd hnew.activeId hactive
      obtain ⟨hanchored, hwhere⟩ := anchored_run ⟨henrolled₁, h, hn, hid, hlog⟩
        ⟨h, hn, by rw [hfound]; rfl⟩ hafter
      refine ⟨fun x hx hclosed => Or.inr ?_, fun x hx hneeds => ?_,
        fun x hx hopening w' hstep => hanchored.creates hx hopening hstep,
        fun hregistered act w' hstep => hanchored.defers hregistered hstep⟩
      · rcases hwhere with ⟨y, hy, hopening⟩ | hwhere
        · rw [Option.some.inj (hx.symm.trans hy), hopening] at hclosed
          cases hclosed
        · exact hwhere
      · obtain ⟨y, hy, hfile, hlog⟩ := hanchored.handle
        obtain rfl := Option.some.inj (hx.symm.trans hy)
        exact hfile ▸ hlog.2 hneeds
  | false =>
      rw [hlinked, Bool.false_or, if_neg Bool.false_ne_true] at hfound
      obtain ⟨x, hx, hclosed, hnone⟩ := dormant_run henrolled₁
        ⟨h, hn, by rw [hfound.1]; rfl, hnew.activeId⟩ hafter
      have hmine : ∀ y ∈ w.files[w₀.files.length]?, y = x :=
        fun y hy => Option.some.inj (Eq.trans (Eq.symm hy) hx)
      refine ⟨fun y hy _ => Or.inl ⟨hlinked, hmine y hy ▸ hnone, ?_⟩, fun y hy hneeds => ?_,
        fun y hy hopening => ?_, fun hregistered => ?_⟩
      · rw [hfound.2]
        simp [notExist]
      · rw [hmine y hy] at hneeds
        rcases hneeds with hpc | hactive
        · rw [hpc] at hclosed
          cases hclosed
        · exact absurd hnone hactive
      · rw [hmine y hy, hclosed] at hopening
        cases hopening
      · obtain ⟨y, hy, hactive⟩ := hregistered
        exact absurd (hmine y hy ▸ hnone) hactive

instance (act : Action) (n : Nat) : Decidable (act = .file n) :=
  match act with
  | .file m => decidable_of_iff (m = n) ⟨congrArg _, Action.file.inj⟩
  | .openFile _ _ _ _ _ | .call _ _ | .failUpload _ | .load _ | .failLoad _ | .openAdmin _
  | .evictBlocks _ | .closeAdmin _ | .admin _ | .failAdminUpload _ => isFalse nofun

instance (w : World) (h : FileActiveStatus) : Decidable (w.Admits h) :=
  inferInstanceAs (Decidable ((∃ slot ∈ w.shm.activeStatus, slot.pid = none) ∧
    FileActiveStatus.readsLog (w.ctx h) = true))

instance (cfg : Config) (fileId : FileId) (n : Nat) (w : World) (act : Action) :
    Decidable (Undisturbed cfg fileId n w act) :=
  inferInstanceAs (Decidable (∀ h ∈ w.files[n]?, h.pc.isOpening = true →
    (∀ w' ∈ step cfg w act, w.folder.isLinked fileId = true → w'.folder.isLinked fileId = true) ∧
      (act = .file n → h.pc = .regist → w.Admits h)))

/-- A file is created, and its writer stays. -/
def createdFile : List Action := [.openFile 7 true false .writeFile 1, .file 0, .file 0]

/-- The steps of a reader that opens the file, and of the writer that cancels it. -/
def readerFirst : List Action := [.file 1, .file 1, .call 0 (.close true), .file 0, .file 0]

/-- A reader that is registered before the writer cancels the file keeps it. -/
theorem open_versus_delete_readerFirst : ∃ w₀ w₁ w,
    Run (step tightConfig) anyStep (init tightConfig) w₀ ∧
      step tightConfig w₀ (.openFile 7 false false .readFile 2) = some w₁ ∧
      Run (step tightConfig) (Undisturbed tightConfig ⟨7, 0⟩ w₀.files.length) w₁ w ∧
      w.folder.isLinked ⟨7, 0⟩ = true ∧
      OpenVersusDelete tightConfig (Undisturbed tightConfig ⟨7, 0⟩ w₀.files.length) ⟨7, 0⟩
        w₀.files.length w₀ w₁ w := by
  have hcheck : ((execute (step tightConfig) anyStep (init tightConfig) createdFile).any fun w₀ =>
      (step tightConfig w₀ (.openFile 7 false false .readFile 2)).any fun w₁ =>
        (execute (step tightConfig) (Undisturbed tightConfig ⟨7, 0⟩ w₀.files.length) w₁
          readerFirst).any fun w => w.folder.isLinked ⟨7, 0⟩) = true := by
    decide +kernel
  obtain ⟨w₀, hbefore, hcheck⟩ := (Option.any_eq_true _ _).mp hcheck
  obtain ⟨w₁, hopen, hcheck⟩ := (Option.any_eq_true _ _).mp hcheck
  obtain ⟨w, hafter, hlinked⟩ := (Option.any_eq_true _ _).mp hcheck
  exact ⟨w₀, w₁, w, Run.of_execute hbefore, hopen, Run.of_execute hafter, hlinked,
    open_versus_delete tightConfig 7 false .readFile 2 w₀ w₁ w (Run.of_execute hbefore) hopen
      (Run.of_execute hafter)⟩

/-- The writer cancels the file between the reader's `open` of the manifest and
its registration. -/
def cancelledBetween : List Action := [.file 1, .call 0 (.close true), .file 0, .file 1]

/-- The reader is then registered on an unlinked manifest. -/
theorem cancelledBetween_registered :
    ¬ ∀ (cfg : Config) (hashcode : Nat) (isSequence : Bool) (type : ActiveStatusType) (pid : Nat)
      (w₀ w₁ w : World), Run (step cfg) anyStep (init cfg) w₀ →
      step cfg w₀ (.openFile hashcode false isSequence type pid) = some w₁ →
      Run (step cfg) anyStep w₁ w →
      OpenVersusDelete cfg anyStep (makeFileId hashcode) w₀.files.length w₀ w₁ w := by
  intro hclaim
  have hcheck : ((execute (step tightConfig) anyStep (init tightConfig) createdFile).any fun w₀ =>
      (step tightConfig w₀ (.openFile 7 false false .readFile 2)).any fun w₁ =>
        (execute (step tightConfig) anyStep w₁ cancelledBetween).any fun w =>
          w.files[w₀.files.length]?.any (fun h => h.activeId.isSome) &&
            !w.folder.isLinked ⟨7, 0⟩) = true := by
    decide +kernel
  obtain ⟨w₀, hbefore, hcheck⟩ := (Option.any_eq_true _ _).mp hcheck
  obtain ⟨w₁, hopen, hcheck⟩ := (Option.any_eq_true _ _).mp hcheck
  obtain ⟨w, hafter, hfacts⟩ := (Option.any_eq_true _ _).mp hcheck
  simp only [Bool.and_eq_true, Bool.not_eq_true'] at hfacts
  obtain ⟨hregistered, hunlinked⟩ := hfacts
  obtain ⟨h, hn, hactive⟩ := (Option.any_eq_true _ _).mp hregistered
  obtain ⟨k, -, hk⟩ := (hclaim _ _ _ _ _ w₀ w₁ w (Run.of_execute hbefore) hopen
    (Run.of_execute hafter)).linked h hn (Or.inr (Option.isSome_iff_ne_none.mp hactive))
  rw [ManifestFolder.isLinked, show w.folder.links ⟨7, 0⟩ = some k from hk] at hunlinked
  cases hunlinked

end World

end Gopherwood
