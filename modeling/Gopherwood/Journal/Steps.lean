/-
# Steps of the system seen from the segment and the manifests

Every step of a handle's thread is a critical section followed by thread-local
work, or thread-local work alone. A step of a loader thread reports to its
handle or touches neither the segment nor a manifest.
-/

import Gopherwood.Journal.Closing

namespace Gopherwood

open Library (Keeps Spec)
open SharedMem (Leads)

namespace FileActiveStatus

theorem Local.sameIdentity {h h' : FileActiveStatus} (hlocal : h.Local h') :
    h.SameIdentity h' := by
  obtain ⟨pc, loadMutex, stream, pos, hpc, rfl⟩ := hlocal
  exact ⟨rfl, rfl, rfl, rfl, hpc⟩

theorem Local.fd {h h' : FileActiveStatus} (hlocal : h.Local h') : h'.fd = h.fd := by
  obtain ⟨pc, loadMutex, stream, pos, hpc, rfl⟩ := hlocal
  rfl

theorem Local.readEntries {h h' : FileActiveStatus} (hlocal : h.Local h') :
    h'.readEntries = h.readEntries := by
  obtain ⟨pc, loadMutex, stream, pos, hpc, rfl⟩ := hlocal
  rfl

end FileActiveStatus

namespace World

/-- What the critical sections of a handle work on. -/
def ctx (w : World) (h : FileActiveStatus) : Ctx := ⟨w.shm, w.folder, w.oss, h⟩

/-- The world `w'` is `w` after a critical section of handle `n` that ended in
`c`, up to thread-local work of the handle. -/
structure Reflects (n : Nat) (w w' : World) (c : Ctx) : Prop where
  shm : w'.shm = c.shm
  folder : w'.folder = c.folder
  admins : w'.admins = w.admins
  files : ∃ h', c.self.Local h' ∧ w'.files = w.files.set n h'

variable {n : Nat} {w w' w'' : World} {h : FileActiveStatus} {c : Ctx}

theorem Reflects.trans_local (hn : w.files[n]? = some h) (first : Reflects n w w' c)
    (second : Local n w' w'') : Reflects n w w'' c := by
  obtain ⟨h', hlocal, hfiles⟩ := first.files
  obtain ⟨h'', hlocal', hfiles'⟩ := second.files h' (by rw [hfiles]; exact getElem?_set_files hn)
  exact ⟨second.shm.trans first.shm, second.folder.trans first.folder,
    second.admins.trans first.admins, h'', hlocal.trans hlocal', by
      rw [hfiles', hfiles, List.set_set]⟩

theorem reflects_of_local (hn : w.files[n]? = some h) (hlocal : Local n w w') :
    Reflects n w w' (w.ctx h) := by
  obtain ⟨h', hl, hfiles⟩ := hlocal.files h hn
  exact ⟨hlocal.shm, hlocal.folder, hlocal.admins, h', hl, hfiles⟩

/-- A critical section, and the step that runs it. -/
theorem runFile_reflects {α : Type} {prog : StatusM α} {call : Option Call}
    {next : α → World → World} {post : Ctx → Prop} (hn : w.files[n]? = some h)
    (hprog : Spec (· = w.ctx h) prog (fun _ => post) (fun _ => post))
    (hnext : ∀ a w₁, Local n w₁ (next a w₁)) :
    ∃ c, post c ∧ Reflects n w (w.runFile n h call prog next) c := by
  have hpost := hprog (w.ctx h) rfl
  unfold runFile
  rw [show (⟨w.shm, w.folder, w.oss, h⟩ : Ctx) = w.ctx h from rfl]
  cases hrun : prog (w.ctx h) with
  | ok a c =>
      rw [hrun] at hpost
      refine ⟨c, hpost, Reflects.trans_local hn ?_ (hnext a _)⟩
      exact ⟨rfl, rfl, rfl, c.self, .refl _, rfl⟩
  | error e c =>
      rw [hrun] at hpost
      exact ⟨c, hpost, rfl, rfl, rfl, _, .of_pc rfl, rfl⟩

/-- A critical section that leads through a session, and the step that runs it. -/
theorem runFile_session {α : Type} {prog : StatusM α} {call : Option Call}
    {next : α → World → World} {S : Scope} {P R : SharedMem → Prop} (hn : w.files[n]? = some h)
    (hstart : Session S P False (w.ctx h))
    (hprog : Spec (Session S P False) prog (fun _ => Session S R False)
      (fun _ => Session S R False))
    (hnext : ∀ a w₁, Local n w₁ (next a w₁)) :
    ∃ c, Session S R False c ∧ Reflects n w (w.runFile n h call prog next) c :=
  runFile_reflects hn (Spec.weaken_pre hprog fun _ hs => hs ▸ hstart) hnext

end World

/-- The moves of a step at `pc` lead from `P` over `Q` to `R`: an eviction ends,
then buckets are acquired, inactivated and released, and then one bucket is
chosen as victim, activated, loaded or filled. -/
structure Scope.Passes (S : Scope) (cfg : Config) (pc : Pc) (P Q R : SharedMem → Prop) : Prop where
  first : ∀ s, P s → Q s
  last : ∀ s, Q s → R s
  benign : S.Benign Q
  ends : ∀ caller loop, pc = .evictFinish caller loop → loop.evicting = true →
    S.Ends P loop.evictBlockInfo Q
  evict : ∀ a b, S.handle.activeId = some a → Leads Q (.evict a b) R
  index : pc = .extend → ∀ b, Leads Q (.index b) R
  activates : ∀ caller, pc = .activate caller → S.Activates Q R
  load : ∀ caller, pc = .activate caller → ∀ a b, S.handle.activeId = some a →
    Leads Q (.load a b) R
  resize : ∀ count, pc = .advance count → ∀ a b, S.handle.activeId = some a →
    Leads Q (.resize a b cfg.localBucketSize) Q

/-- Whatever every move keeps, every step keeps. -/
theorem Scope.passes_of_moves {S : Scope} {P : SharedMem → Prop} (hmove : ∀ m, Leads P m P)
    (cfg : Config) (pc : Pc) : S.Passes cfg pc P P P where
  first _ := id
  last _ := id
  benign := ⟨fun _ _ _ => hmove _, fun _ => hmove _, fun _ _ _ => hmove _, fun _ _ _ => hmove _,
    fun _ _ _ => hmove _, fun _ => hmove _, hmove _, fun _ => hmove _⟩
  ends _ _ _ _ := ⟨fun _ _ => hmove _, fun _ _ => hmove _, fun _ _ _ _ => hmove _⟩
  evict _ _ _ := hmove _
  index _ _ := hmove _
  activates _ _ := ⟨fun _ _ _ => hmove _, fun _ _ _ _ => hmove _, fun _ _ _ => hmove _,
    fun _ => hmove _⟩
  load _ _ _ _ _ := hmove _
  resize _ _ _ _ _ := hmove _

namespace World

variable {n : Nat} {w w' : World} {h : FileActiveStatus} {S : Scope} {cfg : Config}
  {P Q R : SharedMem → Prop}

/-- A step of a registered handle that is not closing is a session. -/
theorem stepFile_session (hpass : S.Passes cfg h.pc P Q R) (hn : w.files[n]? = some h)
    (hstart : Session S P False (w.ctx h)) (hopening : h.pc.isOpening = false)
    (hclose : ∀ isCancel, h.pc ≠ .close isCancel) (hstep : w.stepFile cfg n h = some w') :
    ∃ c, Session S R False c ∧ Reflects n w w' c := by
  have hQ : Session S Q False (w.ctx h) := hstart.mono hpass.first
  have hR : Session S R False (w.ctx h) := hQ.mono hpass.last
  have hlocal : ∀ {w₁ : World}, Local n w w₁ → ∃ c, Session S R False c ∧ Reflects n w w₁ c :=
    fun hl => ⟨w.ctx h, hR, reflects_of_local hn hl⟩
  have hraise : ∀ call e, Local n w (w.raise n h call e) := fun call e => raise_local hn call e
  unfold stepFile at hstep
  cases hpc : h.pc with
  | openManifest => rw [hpc] at hopening; cases hopening
  | regist => rw [hpc] at hopening; cases hopening
  | close isCancel => exact absurd hpc (hclose isCancel)
  | idle => rw [hpc] at hstep; cases hstep
  | closed => rw [hpc] at hstep; cases hstep
  | adjust =>
      simp only [hpc] at hstep
      split at hstep
      · cases hstep
      · cases hstep
        exact hlocal (setFile_local hn (FileActiveStatus.adjustActiveBlock_local cfg h))
  | acquire caller =>
      simp only [hpc, Option.some.injEq] at hstep
      subst hstep
      refine runFile_session hn hQ ?_ fun _ w₁ => .refl n w₁
      exact Spec.bind (FileActiveStatus.acquireFirst_session hpass.benign hpass.evict
        hpass.last cfg)
        fun loop => FileActiveStatus.afterEvictRound_session caller loop
  | evictRead caller loop =>
      simp only [hpc, Option.some.injEq] at hstep
      subst hstep
      cases w.evictRead cfg loop.evictBlockInfo with
      | ok buffer => exact hlocal (setFile_local hn (.of_pc rfl))
      | error e => exact hlocal (hraise _ e)
  | evictPut caller loop buffer =>
      simp only [hpc, Option.some.injEq] at hstep
      subst hstep
      exact ⟨w.ctx h, hR, rfl, rfl, rfl, _, .of_pc rfl, rfl⟩
  | evictFinish caller loop =>
      simp only [hpc, Option.some.injEq] at hstep
      subst hstep
      refine runFile_session hn hstart ?_ fun _ w₁ => .refl n w₁
      exact Spec.bind (FileActiveStatus.acquireNext_session hpass.benign
        (hpass.ends caller loop hpc)
        hpass.first hpass.evict hpass.last) fun loop =>
          FileActiveStatus.afterEvictRound_session caller loop
  | extend =>
      simp only [hpc, Option.some.injEq] at hstep
      subst hstep
      exact runFile_session hn hQ (FileActiveStatus.extendOneBlock_session hpass.last
        (hpass.index hpc))
        fun _ _ => mapFile_local FileActiveStatus.leaveAdjust_local
  | activate caller =>
      simp only [hpc, Option.some.injEq] at hstep
      subst hstep
      refine runFile_session hn hQ (FileActiveStatus.activateBlock_session hpass.benign hpass.last
        (hpass.activates caller hpc) (hpass.load caller hpc) cfg _) fun result w₁ => ?_
      exact Local.trans (mapFile_local fun x => FileActiveStatus.afterActivate_local caller _ x)
        (enqueue_local n n _ result)
  | wait =>
      simp only [hpc] at hstep
      split at hstep
      · cases hstep
      · cases hstep
        exact hlocal (setFile_local hn (FileActiveStatus.waitActive_local h))
  | ready =>
      simp only [hpc, Option.some.injEq] at hstep
      subst hstep
      exact runFile_session hn hR (FileActiveStatus.getCurBlockInfo_session cfg)
        fun _ w₁ => .refl n w₁
  | transfer =>
      simp only [hpc, Option.some.injEq] at hstep
      subst hstep
      cases hrun : h.transferChunk cfg w.space with
      | ok result =>
          exact ⟨w.ctx h, hR, rfl, rfl, rfl, result.1,
            FileActiveStatus.transferChunk_local hrun, rfl⟩
      | error e => exact hlocal (hraise _ e)
  | advance count =>
      simp only [hpc, Option.some.injEq] at hstep
      subst hstep
      have hadvance := FileActiveStatus.advance_session (hpass.resize count hpc) count
      exact runFile_session hn hQ (hadvance.conseq (fun _ => id) (fun _ _ hc => hc.mono hpass.last)
        fun _ _ hc => hc.mono hpass.last) fun _ w₁ => settle_local n n w₁
  | flush =>
      simp only [hpc, Option.some.injEq] at hstep
      subst hstep
      refine runFile_session hn hR (FileActiveStatus.flush_session cfg) fun _ w₁ => ?_
      exact Local.trans (mapFile_local fun x => .of_pc rfl) (local_of_same rfl rfl rfl rfl rfl rfl)
  | deleteRemote isCancel blocks =>
      simp only [hpc, Option.some.injEq] at hstep
      subst hstep
      cases blocks with
      | nil =>
          exact hlocal ((setFile_local hn (.of_pc rfl)).trans
            (local_of_same rfl rfl rfl rfl rfl rfl))
      | cons block rest => exact ⟨w.ctx h, hR, rfl, rfl, rfl, _, .of_pc rfl, rfl⟩

/-- The step that closes a handle. -/
theorem stepFile_close (hbenign : S.Benign P)
    (hunregist : ∀ a, S.handle.activeId = some a →
      Spec P (SharedMemoryContext.unregistFile a S.handle.pid)
        (fun left => if left = none then P else Q) (fun _ => P))
    (hreset : ∀ b, Leads Q (.reset S.handle.fileId b) Q)
    (hflag : ∀ b, Leads Q (.flag S.handle.fileId b) Q)
    (hn : w.files[n]? = some h) (hstart : Session S P False (w.ctx h)) {isCancel : Bool}
    (hpc : h.pc = .close isCancel) (hstep : w.stepFile cfg n h = some w') :
    ∃ c, S.Closing P Q c ∧ Reflects n w w' c := by
  unfold stepFile at hstep
  simp only [hpc, Option.some.injEq] at hstep
  subst hstep
  refine runFile_reflects hn ?_ fun _ _ => mapFile_local fun _ => .of_pc rfl
  exact (FileActiveStatus.close_spec hbenign hunregist hreset hflag cfg isCancel).conseq
    (fun _ hs => hs ▸ hstart) (fun _ _ hc => Or.inr hc) fun _ _ hc => hc

/-- The step that reports the end of a load to its handle. -/
theorem finishLoad_cases {i : Nat} {prog : StatusM Unit} {post : Ctx → Prop}
    (hprog : Spec (· = w.ctx h) prog (fun _ => post) (fun _ => post)) :
    ∃ c h', post c ∧ c.self.Local h' ∧ h'.pc = c.self.pc ∧
      (w.finishLoad i n h prog).files = w.files.set n h' ∧
      (w.finishLoad i n h prog).admins = w.admins ∧ (w.finishLoad i n h prog).shm = c.shm ∧
      (w.finishLoad i n h prog).folder = c.folder := by
  have hpost := hprog (w.ctx h) rfl
  unfold finishLoad
  dsimp only
  rw [show (⟨w.shm, w.folder, w.oss, h⟩ : Ctx) = w.ctx h from rfl]
  cases hrun : prog (w.ctx h) with
  | ok u c =>
      rw [hrun] at hpost
      exact ⟨c, c.self, hpost, .refl _, rfl, rfl, rfl, rfl, rfl⟩
  | error e c =>
      rw [hrun] at hpost
      exact ⟨c, { c.self with loadMutex := true }, hpost,
        ⟨c.self.pc, true, c.self.stream, c.self.pos, id, rfl⟩, rfl, rfl, rfl, rfl, rfl⟩

end World

end Gopherwood
