/-
# The segment under the steps of the system

Whatever handles, loader threads and admins do, the segment changes by
registrations and by moves. A property of the segment that survives both holds
from then on; buckets of files that are destroyed are reset or flagged only by
the step that closes the last handle.
-/

import Gopherwood.Journal.Steps

namespace Gopherwood

open Library (Keeps Spec)
open SharedMem (Leads)

/-- The moves by which a file is destroyed. -/
def Move.isDelete : Move → Bool
  | .reset _ _ => true
  | .flag _ _ => true
  | _ => false

/-- The moves that a closing handle may make. -/
def Move.isClosing : Move → Bool
  | .take _ _ => true
  | .takeFailed _ => true
  | .leave _ _ => true
  | .retire _ _ => true
  | .leaveFailed _ _ => true
  | .release _ => true
  | .hand => true
  | .age _ => true
  | .reset _ _ => true
  | .flag _ _ => true
  | _ => false

/-- The handle that makes the move. -/
def Move.actor : Move → Option Nat
  | .take a _ => some a
  | .evict a _ => some a
  | .endStolen a => some a
  | .endFailed a => some a
  | .endTake a _ => some a
  | .endFree a _ => some a
  | .load a _ => some a
  | .loaded a _ => some a
  | .activate a _ => some a
  | .steal a _ _ => some a
  | .join a _ => some a
  | .leave a _ => some a
  | .retire a _ => some a
  | .leaveFailed a _ => some a
  | .resize a _ _ => some a
  | .takeFailed _ | .hand | .age _ | .release _ | .activateFailed _ | .index _ | .reset _ _
  | .flag _ _ => none

namespace World

/-- The action closes a handle. -/
def Closes (w : World) (act : Action) : Prop :=
  ∃ n h isCancel, act = .file n ∧ w.files[n]? = some h ∧ h.pc = .close isCancel

instance (w : World) (act : Action) : Decidable (w.Closes act) :=
  match act with
  | .file n => decidable_of_iff (∃ h ∈ w.files[n]?, ∃ isCancel : Bool, h.pc = .close isCancel) <| by
      constructor
      · rintro ⟨h, hn, isCancel, hpc⟩
        exact ⟨n, h, isCancel, rfl, hn, hpc⟩
      · rintro ⟨m, h, isCancel, hm, hn, hpc⟩
        obtain rfl := Action.file.inj hm
        exact ⟨h, hn, isCancel, hpc⟩
  | .openFile _ _ _ _ _ | .call _ _ | .failUpload _ | .load _ | .failLoad _ | .openAdmin _
  | .evictBlocks _ | .closeAdmin _ | .admin _ | .failAdminUpload _ =>
      isFalse fun ⟨_, _, _, hact, _⟩ => by cases hact

/-- The slot of the handle whose thread acts. -/
def Acts (w : World) : Action → Nat → Prop
  | .file n, a => ∃ h, w.files[n]? = some h ∧ h.activeId = some a
  | .admin n, a => ∃ x, w.admins[n]? = some x ∧ x.activeId = some a
  | _, _ => False

/-- The property is kept by everything that the step can do to the segment. -/
structure Permits (w : World) (act : Action) (P : SharedMem → Prop) : Prop where
  regist : ∀ pid fileId isDelete, Keeps P (SharedMemoryContext.registFile pid fileId isDelete)
  registAdmin : ∀ pid, Keeps P (SharedMemoryContext.registAdmin pid)
  unregist : ∀ a pid, w.Acts act a → Keeps P (SharedMemoryContext.unregistFile a pid)
  unregistAdmin : ∀ a pid, w.Acts act a → Keeps P (SharedMemoryContext.unregistAdmin a pid)
  move : ¬ w.Closes act → ∀ m : Move, m.isDelete = false →
    (∀ a, m.actor = some a → w.Acts act a) → Leads P m P
  close : w.Closes act → ∀ m : Move, m.isClosing = true →
    (∀ a, m.actor = some a → w.Acts act a) → Leads P m P
  loaded : ¬ w.Closes act → ∀ a b, Leads P (.loaded a b) P
  resize : ¬ w.Closes act → ∀ a b bound, Leads P (.resize a b bound) P

/-- The property survives registrations and the moves that a step can make. -/
structure Survives (w : World) (act : Action) (P : SharedMem → Prop) : Prop where
  registration : ∀ s s' : SharedMem, s.SameBuckets s' → P s → P s'
  move : ¬ w.Closes act → ∀ m : Move, m.isDelete = false → Leads P m P
  close : w.Closes act → ∀ m : Move, m.isClosing = true → Leads P m P

variable {w w' : World} {n : Nat} {h : FileActiveStatus} {cfg : Config} {act : Action}
  {P : SharedMem → Prop}

/-- A handle observed without its log. -/
def untracked (w : World) (h : FileActiveStatus) : Scope := ⟨w.folder, h, 0, False⟩

theorem session_untracked (hP : P w.shm) : Session (w.untracked h) P False (w.ctx h) :=
  ⟨.refl h, rfl, rfl, hP, fun ht => ht.elim⟩

/-- The end of a load, in a handle observed without its log. -/
theorem untracked_loadSucceeded
    (hloaded : ∀ a b, h.activeId = some a → Leads P (.loaded a b) P)
    (hresize : ∀ a b, h.activeId = some a → Leads P (.resize a b cfg.localBucketSize) P)
    (info : BlockInfo) (size : Nat) :
    Keeps (Session (w.untracked h) P False) (FileActiveStatus.loadSucceeded cfg info size) := by
  refine Spec.conseq (FileActiveStatus.loadSucceeded_session (S := w.untracked h) hloaded
    hresize info size) (fun c hc => ?_) (fun _ _ => FileActiveStatus.session_of_caught)
    fun _ _ => FileActiveStatus.session_of_caught
  exact ⟨hc.identity, hc.links, hc.logFile, hc.segment, fun ht => ht.elim⟩

section

variable (hpermits : w.Permits act P)
include hpermits

theorem Permits.passes (hopen : ¬ w.Closes act) {S : Scope}
    (hS : ∀ a, S.handle.activeId = some a → w.Acts act a) (cfg : Config) (pc : Pc) :
    S.Passes cfg pc P P P := by
  have hmine : ∀ {m : Move}, m.isDelete = false →
      (∀ a, m.actor = some a → S.handle.activeId = some a) → Leads P m P :=
    fun hm hactor => hpermits.move hopen _ hm fun a ha => hS a (hactor a ha)
  -- a move of the handle itself
  have hown : ∀ {m : Move} {a : Nat}, m.isDelete = false → m.actor = some a →
      S.handle.activeId = some a → Leads P m P :=
    fun hm hactor ha => hmine hm fun b hb => Option.some.inj (hactor.symm.trans hb) ▸ ha
  exact {
    first := fun _ => id
    last := fun _ => id
    benign := ⟨fun _ _ => hown rfl rfl, fun _ => hmine rfl nofun, fun _ _ => hown rfl rfl,
      fun _ _ => hown rfl rfl, fun _ _ => hown rfl rfl, fun _ => hmine rfl nofun,
      hmine rfl nofun, fun _ => hmine rfl nofun⟩
    ends := fun _ _ _ _ => ⟨fun _ => hown rfl rfl, fun _ => hown rfl rfl,
      fun _ _ ha _ => hown rfl rfl ha⟩
    evict := fun _ _ => hown rfl rfl
    index := fun _ _ => hmine rfl nofun
    activates := fun _ _ => ⟨fun _ _ => hown rfl rfl, fun _ _ _ => hown rfl rfl,
      fun _ _ => hown rfl rfl, fun _ => hmine rfl nofun⟩
    load := fun _ _ _ _ => hown rfl rfl
    resize := fun _ _ _ _ => hown rfl rfl }

theorem Permits.benign (hclose : w.Closes act) {S : Scope}
    (hS : ∀ a, S.handle.activeId = some a → w.Acts act a) : S.Benign P := by
  have hown : ∀ {m : Move} {a : Nat}, m.isClosing = true → m.actor = some a →
      S.handle.activeId = some a → Leads P m P :=
    fun hm hactor ha => hpermits.close hclose _ hm fun b hb =>
      hS b (Option.some.inj (hactor.symm.trans hb) ▸ ha)
  exact ⟨fun _ _ => hown rfl rfl, fun _ => hpermits.close hclose _ rfl nofun,
    fun _ _ => hown rfl rfl, fun _ _ => hown rfl rfl, fun _ _ => hown rfl rfl, fun _ =>
    hpermits.close hclose _ rfl nofun, hpermits.close hclose _ rfl nofun, fun _ =>
    hpermits.close hclose _ rfl nofun⟩

/-- A step of a handle's thread. -/
theorem Permits.file (hact : act = .file n) (hn : w.files[n]? = some h) (hP : P w.shm)
    (hstep : w.stepFile cfg n h = some w') : P w'.shm := by
  have hstart : Session (w.untracked h) P False (w.ctx h) := session_untracked hP
  have hS : ∀ a, h.activeId = some a → w.Acts act a := fun a ha => hact ▸ ⟨h, hn, ha⟩
  by_cases hclose : ∃ isCancel, h.pc = .close isCancel
  · obtain ⟨isCancel, hpc⟩ := hclose
    have hcloses : w.Closes act := ⟨n, h, isCancel, hact, hn, hpc⟩
    have hunregist : ∀ a, h.activeId = some a → Spec P (SharedMemoryContext.unregistFile a h.pid)
        (fun left => if left = none then P else P) (fun _ => P) := by
      intro a ha
      refine Spec.weaken_post (hpermits.unregist a h.pid (hS a ha)) fun left s hs => ?_
      split
      · exact hs
      · exact hs
    obtain ⟨c, hc, hreflects⟩ := stepFile_close (hpermits.benign hcloses hS) hunregist
      (fun b => hpermits.close hcloses _ rfl nofun) (fun b => hpermits.close hcloses _ rfl nofun)
      hn hstart hpc hstep
    rw [hreflects.shm]
    rcases hc with hc | hc
    · exact hc.segment
    · exact hc.segment
  · cases hopening : h.pc.isOpening with
    | false =>
        have hopen : ¬ w.Closes act := by
          rintro ⟨m, x, isCancel, hm, hx, hpc⟩
          obtain rfl := Action.file.inj (hact.symm.trans hm)
          obtain rfl := Option.some.inj (hn.symm.trans hx)
          exact hclose ⟨isCancel, hpc⟩
        obtain ⟨c, hc, hreflects⟩ := stepFile_session (hpermits.passes hopen hS cfg h.pc) hn hstart
          hopening (fun isCancel hpc => hclose ⟨isCancel, hpc⟩) hstep
        rw [hreflects.shm]
        exact hc.segment
    | true =>
        unfold stepFile at hstep
        cases hpc : h.pc with
        | openManifest =>
            simp only [hpc, Option.some.injEq] at hstep
            subst hstep
            exact hP
        | regist =>
            simp only [hpc, Option.some.injEq] at hstep
            subst hstep
            have hregist := FileActiveStatus.registInSharedMem_spec (S := w.untracked h)
              (Q := fun _ => P)
              (fun isDelete => Spec.weaken_post (hpermits.regist h.pid h.fileId isDelete)
                fun assigned => by
                cases assigned with
                | none => exact fun s hs => hs
                | some a => exact fun s hs => hs) (w.ctx h) hstart
            rw [show (⟨w.shm, w.folder, w.oss, h⟩ : Ctx) = w.ctx h from rfl]
            cases hrun : FileActiveStatus.registInSharedMem (w.ctx h) with
            | ok u c =>
                rw [hrun] at hregist
                obtain ⟨a, hc⟩ := hregist
                dsimp only
                split
                · exact hc.segment
                · exact hc.segment
            | error e c =>
                rw [hrun] at hregist
                exact hregist.segment
        | _ => simp [hpc, Pc.isOpening] at hopening

/-- A step of a loader thread. -/
theorem Permits.load {i : Nat} {task : LoadTask} (hact : act = .load i) (hP : P w.shm)
    (hstep : w.stepLoad cfg i task = some w') : P w'.shm := by
  have hopen : ¬ w.Closes act := by
    rintro ⟨m, x, isCancel, hm, -⟩
    rw [hact] at hm
    cases hm
  -- the end of a load in its handle
  have hfinish : ∀ (h : FileActiveStatus) (prog : StatusM Unit),
      Keeps (Session (w.untracked h) P False) prog →
      P (w.finishLoad i task.owner h prog).shm := by
    intro h prog hprog
    obtain ⟨c, h', hc, -, -, -, -, hshm, -⟩ := finishLoad_cases (i := i) (n := task.owner)
      (Spec.weaken_pre hprog fun c hc => hc ▸ session_untracked hP)
    rw [hshm]
    exact hc.segment
  unfold stepLoad at hstep
  cases hphase : task.phase with
  | start =>
      simp only [hphase, Option.some.injEq] at hstep
      subst hstep
      split
      · exact hP
      · exact hP
  | fetched data =>
      simp only [hphase] at hstep
      split at hstep
      · cases hstep
        exact hP
      · cases hstep
        exact hP
  | stored size =>
      simp only [hphase] at hstep
      cases hstep
      exact hP
  | removed size =>
      simp only [hphase] at hstep
      split at hstep
      · cases hstep
      · next h hn =>
          split at hstep
          · cases hstep
          · cases hstep
            exact hfinish h _ (untracked_loadSucceeded
              (fun a b _ => hpermits.loaded hopen a b) (fun a b _ => hpermits.resize hopen a b _)
                task.info size)
  | failed =>
      simp only [hphase] at hstep
      split at hstep
      · cases hstep
      · next h hn =>
          split at hstep
          · cases hstep
          · cases hstep
            exact hfinish h _ (FileActiveStatus.loadFailed_session
              (fun a b _ => hpermits.loaded hopen a b) task.info)

/-- A step of an admin handle. -/
theorem Permits.admin {a : AdminActiveStatus} (hact : act = .admin n) (hn : w.admins[n]? = some a)
    (hP : P w.shm) (hstep : w.stepAdmin cfg n a = some w') : P w'.shm := by
  have hopen : ¬ w.Closes act := by
    rintro ⟨m, x, isCancel, hm, -⟩
    rw [hact] at hm
    cases hm
  have hfree : ∀ {m : Move}, m.isDelete = false → m.actor = none → Leads P m P := by
    intro m hm hnone
    refine hpermits.move hopen _ hm fun id hid => ?_
    rw [hnone] at hid
    cases hid
  -- a move of the admin itself
  have hown : ∀ {m : Move} {id : Nat}, m.isDelete = false → m.actor = some id →
      a.activeId = some id → Leads P m P := by
    intro m id hm hactor hid
    refine hpermits.move hopen _ hm fun id' hid' => hact ▸ ⟨a, hn, ?_⟩
    exact hid.trans (hactor.symm.trans hid')
  unfold stepAdmin at hstep
  split at hstep
  · simp only [Option.some.injEq] at hstep
    subst hstep
    have hkeep := hpermits.registAdmin a.pid
    cases hrun : SharedMemoryContext.registAdmin a.pid w.shm with
    | ok assigned shm =>
        have hshm := hkeep.ok hP hrun
        cases assigned with
        | none => exact hshm
        | some id => exact hshm
    | error e shm => exact hkeep.error hP hrun
  · simp only [Option.some.injEq] at hstep
    subst hstep
    next found info activeId _ hid =>
      have hkeep : Keeps P (SharedMemoryContext.markBucketEvicting activeId) :=
        SharedMemoryContext.markBucketEvicting_spec (hfree rfl rfl) (fun _ => hfree rfl rfl)
          fun s s' _ _ hs _ hm => hown rfl rfl hid s s' hm hs
      split
      · cases hrun : SharedMemoryContext.markBucketEvicting activeId w.shm with
        | ok info shm => exact hkeep.ok hP hrun
        | error e shm => exact hkeep.error hP hrun
      · split
        · exact hP
        · exact hP
  · simp only [Option.some.injEq] at hstep
    subst hstep
    split
    · exact hP
    · exact hP
  · simp only [Option.some.injEq] at hstep
    subst hstep
    exact hP
  · simp only [Option.some.injEq] at hstep
    subst hstep
    next found info activeId _ hid =>
      have hkeep : Keeps P (SharedMemoryContext.evictBucketFinishAndTryFree
          (info.bind BlockInfo.bucketId) activeId) :=
        SharedMemoryContext.evictBucketFinishAndTryFree_spec (hown rfl rfl hid) (hown rfl rfl hid)
          fun _ _ => hown rfl rfl hid
      unfold adminFinish
      cases hrun : SharedMemoryContext.evictBucketFinishAndTryFree (info.bind BlockInfo.bucketId)
          activeId w.shm with
      | error e shm => exact hkeep.error hP hrun
      | ok rc shm =>
          have hshm := hkeep.ok hP hrun
          cases info with
          | none => exact hshm
          | some info =>
              simp only
              split
              · split
                · unfold adminLogEvict
                  split
                  · exact hshm
                  · exact hshm
                · exact hshm
              · exact hshm
  · simp only [Option.some.injEq] at hstep
    subst hstep
    next activeId _ hid =>
      have hkeep := hpermits.unregistAdmin activeId a.pid (hact ▸ ⟨a, hn, hid⟩)
      cases hrun : SharedMemoryContext.unregistAdmin activeId a.pid w.shm with
      | ok left shm =>
          have hshm := hkeep.ok hP hrun
          cases left with
          | true => exact hshm
          | false => exact hshm
      | error e shm => exact hkeep.error hP hrun
  · cases hstep

/-- A permitted property holds after the step. -/
theorem Permits.step (hP : P w.shm) (hstep : World.step cfg w act = some w') : P w'.shm := by
  cases act with
  | openFile hashcode isCreate isSequence type pid =>
      simp only [World.step, Option.some.injEq] at hstep
      subst hstep
      unfold openFile
      dsimp only
      split
      · exact hP
      · exact hP
  | call m call =>
      simp only [World.step] at hstep
      split at hstep
      · next h hm =>
          split at hstep
          · cases hstep
            rw [(startCall_local hm call).shm]
            exact hP
          · cases hstep
      · cases hstep
  | file m =>
      simp only [World.step] at hstep
      split at hstep
      · next h hm => exact hpermits.file rfl hm hP hstep
      · cases hstep
  | failUpload m =>
      simp only [World.step] at hstep
      split at hstep
      · split at hstep
        · cases hstep
          exact hP
        · cases hstep
      · cases hstep
  | load i =>
      simp only [World.step] at hstep
      split at hstep
      · exact hpermits.load rfl hP hstep
      · cases hstep
  | failLoad i =>
      simp only [World.step, World.failLoad] at hstep
      split at hstep
      · split at hstep
        · cases hstep
          exact hP
        · cases hstep
          exact hP
        · cases hstep
      · cases hstep
  | openAdmin pid =>
      simp only [World.step, Option.some.injEq] at hstep
      subst hstep
      exact hP
  | evictBlocks m =>
      simp only [World.step] at hstep
      split at hstep
      · split at hstep
        · cases hstep
          exact hP
        · cases hstep
      · cases hstep
  | closeAdmin m =>
      simp only [World.step] at hstep
      split at hstep
      · split at hstep
        · cases hstep
          exact hP
        · cases hstep
      · cases hstep
  | admin m =>
      simp only [World.step] at hstep
      split at hstep
      · next a hm => exact hpermits.admin rfl hm hP hstep
      · cases hstep
  | failAdminUpload m =>
      simp only [World.step] at hstep
      split at hstep
      · split at hstep
        · cases hstep
          exact hP
        · cases hstep
      · cases hstep

end

/-- Where a move does not matter, neither does who makes it. -/
theorem Survives.permits (hsurvives : w.Survives act P) : w.Permits act P where
  regist pid fileId isDelete := by
    intro s hs
    obtain ⟨s', hsame, ⟨hrun, -⟩ | ⟨a, f, -, hrun, -⟩⟩ :=
      SharedMemoryContext.registFile_cases pid fileId isDelete s
    · rw [hrun]
      exact hsurvives.registration s s' hsame hs
    · rw [hrun]
      exact hsurvives.registration s s' hsame hs
  registAdmin pid := by
    intro s hs
    obtain ⟨s', hsame, ⟨hrun, -⟩ | ⟨id, f, -, hrun, -⟩⟩ :=
      SharedMemoryContext.registAdmin_cases pid s
    · rw [hrun]
      exact hsurvives.registration s s' hsame hs
    · rw [hrun]
      exact hsurvives.registration s s' hsame hs
  unregist a pid _ := by
    intro s hs
    rcases SharedMemoryContext.unregistFile_cases a pid s with
      hrun | ⟨s', f, destroy, hsame, -, hrun, -⟩
    · rw [hrun]
      exact hs
    · rw [hrun]
      exact hsurvives.registration s s' hsame hs
  unregistAdmin a pid _ := by
    intro s hs
    rcases SharedMemoryContext.unregistAdmin_cases a pid s with hrun | ⟨s', f, hsame, -, hrun, -⟩
    · rw [hrun]
      exact hs
    · rw [hrun]
      exact hsurvives.registration s s' hsame hs
  move hopen m hm _ := hsurvives.move hopen m hm
  close hclose m hm _ := hsurvives.close hclose m hm
  loaded hopen _ _ := hsurvives.move hopen _ rfl
  resize hopen _ _ _ := hsurvives.move hopen _ rfl

end World

end Gopherwood
