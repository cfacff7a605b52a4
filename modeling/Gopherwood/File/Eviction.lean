/-
# Evictions whose upload fails

The victim is marked in one critical section and finished in another, and the upload
runs between them. An exception of the upload leaves through code without a handler:
nobody but the evictor takes the eviction record out of its slot, so the record is
still there when the exception has reached the caller.
-/

import Gopherwood.File.Deletion
import Gopherwood.File.Handles
import Gopherwood.File.Opening
import Gopherwood.Segment.Accounting

namespace Gopherwood

open Library (Keeps Run Spec execute anyStep bind_ok)
open SharedMem (Leads Moves)

/-- The slot in which the move ends an eviction. -/
def Move.ends : Move → Option Nat
  | .endStolen a => some a
  | .endFailed a => some a
  | .endTake a _ => some a
  | .endFree a _ => some a
  | _ => none

theorem Move.actor_of_ends {m : Move} {a : Nat} (h : m.ends = some a) : m.actor = some a := by
  cases m with
  | endStolen e => exact h
  | endFailed e => exact h
  | endTake e b => exact h
  | endFree e b => exact h
  | _ => cases h

namespace SharedMem

/-- The slot has an eviction record. -/
def Evicting (a : Nat) (s : SharedMem) : Prop :=
  ∃ slot, s.activeStatus[a]? = some slot ∧ slot.evicting = true

variable {a b e : Nat} {s s' : SharedMem}

theorem Evicting.of_slots (h : s.Evicting a) (hslots : s'.activeStatus = s.activeStatus) :
    s'.Evicting a := by
  obtain ⟨slot, hslot, hevicting⟩ := h
  exact ⟨slot, hslots ▸ hslot, hevicting⟩

theorem Evicting.updSlot (h : s.Evicting a) {g : ShareMemActiveStatus → ShareMemActiveStatus}
    (hslots : s'.activeStatus = s.activeStatus.modify e g)
    (hg : e = a → ∀ slot, slot.evicting = true → (g slot).evicting = true) : s'.Evicting a := by
  obtain ⟨slot, hslot, hevicting⟩ := h
  by_cases he : e = a
  · refine ⟨g slot, ?_, hg he slot hevicting⟩
    simp [hslots, hslot, he]
  · refine ⟨slot, ?_, hevicting⟩
    simp [hslots, hslot, he]

/-- Only the end of an eviction of the slot takes the record out. -/
theorem leads_evicting {m : Move} (hm : m.ends ≠ some a) : Leads (Evicting a) m (Evicting a) := by
  have hother : ∀ {e : Nat}, m.ends = some e → e = a → False :=
    fun he heq => hm (heq ▸ he)
  intro s s' hmove hs
  cases hmove with
  | evict hx htype hevicting => exact hs.updSlot rfl fun _ _ _ => rfl
  | endStolen hslot hstolen => exact hs.updSlot rfl fun heq => (hother rfl heq).elim
  | endFailed => exact hs.updSlot rfl fun heq => (hother rfl heq).elim
  | endTake w fileId hslot hstolen hx => exact hs.updSlot rfl fun heq => (hother rfl heq).elim
  | endFree hslot hstolen hx => exact hs.updSlot rfl fun heq => (hother rfl heq).elim
  | load hfree => exact hs.updSlot rfl fun _ _ h => h
  | loaded => exact hs.updSlot rfl fun _ _ h => h
  | steal hx htype hevicting hinfos he hslot hfile hindex => exact hs.updSlot rfl fun _ _ h => h
  | _ => exact hs.of_slots rfl

/-- A victim puts the record into the slot. -/
theorem Moves.evicting (h : Moves (.evict a b) s s') (hslot : a < s'.activeStatus.length) :
    s'.Evicting a := by
  cases h with
  | evict hx htype hevicting =>
      refine ⟨_, List.getElem?_eq_getElem hslot, ?_⟩
      simp [updHeader, updSlot]

end SharedMem

namespace SharedMemoryContext

open SharedMem

variable {a : Nat}

theorem Evicting.of_map {s s' : SharedMem} (h : s.Evicting a)
    (hmap : s'.activeStatus.map ShareMemActiveStatus.evicting =
      s.activeStatus.map ShareMemActiveStatus.evicting) : s'.Evicting a := by
  obtain ⟨slot, hslot, hevicting⟩ := h
  have hget := congrArg (·[a]?) hmap
  simp only [List.getElem?_map, hslot, Option.map_some] at hget
  obtain ⟨slot', hslot', heq⟩ := Option.map_eq_some_iff.mp hget
  exact ⟨slot', hslot', heq.trans hevicting⟩

theorem registFile_evicting (pid : Nat) (fileId : FileId) (isDelete : Bool) :
    Keeps (Evicting a) (registFile pid fileId isDelete) := by
  intro s hs
  have hkept : ∀ {assigned s'}, registFile pid fileId isDelete s = .ok assigned s' →
      s'.Evicting a :=
    fun hrun => Evicting.of_map hs (registFile_map (p := ShareMemActiveStatus.evicting)
      (fun _ => rfl) (fun _ _ _ _ => rfl) hrun)
  obtain ⟨s', -, ⟨hrun, -⟩ | ⟨id, f, -, hrun, -⟩⟩ := registFile_cases pid fileId isDelete s
  · rw [hrun]
    exact hkept hrun
  · rw [hrun]
    exact hkept hrun

theorem registAdmin_evicting (pid : Nat) : Keeps (Evicting a) (registAdmin pid) := by
  refine Library.Spec.get_bind fun s hs => ?_
  cases s.activeStatus.findIdx? fun slot => slot.pid = none with
  | none =>
      rintro _ rfl
      exact hs
  | some id =>
      rintro _ rfl
      exact hs.updSlot rfl fun _ _ h => h

/-- A handle gives up its own slot. -/
theorem unregistFile_evicting {e : Nat} (he : e ≠ a) (pid : Nat) :
    Keeps (Evicting a) (unregistFile e pid) := by
  refine Library.Spec.get_bind fun s hs => ?_
  cases s.activeStatus[e]? with
  | none =>
      rintro _ rfl
      exact hs
  | some slot =>
      refine Library.Spec.ite (fun _ => ?_) fun _ => ?_
      · rintro _ rfl
        exact hs.updSlot rfl fun heq => absurd heq he
      · rintro _ rfl
        exact hs

theorem unregistAdmin_evicting {e : Nat} (he : e ≠ a) (pid : Nat) :
    Keeps (Evicting a) (unregistAdmin e pid) := by
  refine Library.Spec.get_bind fun s hs => ?_
  cases s.activeStatus[e]? with
  | none =>
      rintro _ rfl
      exact hs
  | some slot =>
      refine Library.Spec.ite (fun _ => ?_) fun _ => ?_
      · rintro _ rfl
        exact hs.updSlot rfl fun heq => absurd heq he
      · rintro _ rfl
        exact hs

end SharedMemoryContext

namespace World

variable {cfg : Config} {w w' : World} {act : Action} {client : Client} {a : Nat} {info : BlockInfo}

/-- The slot and the victim of a handle inside `writeBlock`. -/
def uploading (w : World) : Client → Option (Nat × BlockInfo)
  | .file n =>
      match w.files[n]? with
      | none => none
      | some h =>
          match h.pc, h.activeId with
          | .evictRead _ loop, some a => some (a, loop.evictBlockInfo)
          | .evictPut _ loop _, some a => some (a, loop.evictBlockInfo)
          | _, _ => none
  | .admin n =>
      match w.admins[n]? with
      | none => none
      | some x =>
          match x.pc, x.activeId with
          | .evictRead info, some a => some (a, info)
          | .evictPut info _, some a => some (a, info)
          | _, _ => none

/-- Where the thread of the handle is. -/
theorem uploading_cases (h : w.uploading client = some (a, info)) :
    (∃ (n : Nat) (x : FileActiveStatus) (caller : Caller) (loop : EvictLoop), client = .file n ∧
      w.files[n]? = some x ∧ x.activeId = some a ∧ loop.evictBlockInfo = info ∧
      (x.pc = .evictRead caller loop ∨ ∃ buffer, x.pc = .evictPut caller loop buffer)) ∨
    ∃ (n : Nat) (x : AdminActiveStatus), client = .admin n ∧ w.admins[n]? = some x ∧
      x.activeId = some a ∧ (x.pc = .evictRead info ∨ ∃ buffer, x.pc = .evictPut info buffer) := by
  unfold uploading at h
  split at h
  · next n =>
      split at h
      · cases h
      · next x hx =>
          split at h
          · next caller loop a' hpc hid =>
              cases h
              exact Or.inl ⟨n, x, caller, loop, rfl, hx, hid, rfl, Or.inl hpc⟩
          · next caller loop buffer a' hpc hid =>
              cases h
              exact Or.inl ⟨n, x, caller, loop, rfl, hx, hid, rfl, Or.inr ⟨buffer, hpc⟩⟩
          · cases h
  · next n =>
      split at h
      · cases h
      · next x hx =>
          split at h
          · next info' a' hpc hid =>
              cases h
              exact Or.inr ⟨n, x, rfl, hx, hid, Or.inl hpc⟩
          · next info' buffer a' hpc hid =>
              cases h
              exact Or.inr ⟨n, x, rfl, hx, hid, Or.inr ⟨buffer, hpc⟩⟩
          · cases h

theorem activeIdOf_of_uploading (h : w.uploading client = some (a, info)) :
    w.activeIdOf client = some a := by
  rcases uploading_cases h with ⟨n, x, caller, loop, rfl, hx, hid, -⟩ | ⟨n, x, rfl, hx, hid, -⟩
  · simp [activeIdOf, hx, hid]
  · simp [activeIdOf, hx, hid]

/-- The upload itself does not touch the segment. -/
theorem uploading_shm (h : w.uploading client = some (a, info))
    (hstep : step cfg w (nextStep client) = some w') : w'.shm = w.shm := by
  rcases uploading_cases h with ⟨n, x, caller, loop, rfl, hx, hid, -, hpc⟩ | ⟨n, x, rfl, hx,
    hid, hpc⟩
  · simp only [nextStep, step, hx] at hstep
    unfold stepFile at hstep
    rcases hpc with hpc | ⟨buffer, hpc⟩
    · simp only [hpc, Option.some.injEq] at hstep
      subst hstep
      split
      · rfl
      · rfl
    · simp only [hpc, Option.some.injEq] at hstep
      subst hstep
      rfl
  · simp only [nextStep, step, hx] at hstep
    unfold stepAdmin at hstep
    rcases hpc with hpc | ⟨buffer, hpc⟩
    · simp only [hpc, Option.some.injEq] at hstep
      subst hstep
      split
      · rfl
      · rfl
    · simp only [hpc, Option.some.injEq] at hstep
      subst hstep
      rfl

/-- The thread that acts in a slot is the one of its handle. -/
theorem Registered.acts (hw : w.Registered) (hid : w.activeIdOf client = some a)
    (hacts : w.Acts act a) : act = nextStep client := by
  cases act with
  | file m =>
      obtain ⟨x, hm, hx⟩ := hacts
      obtain rfl := hw.distinct (.file m) client a (by simp [activeIdOf, hm, hx]) hid
      rfl
  | admin m =>
      obtain ⟨x, hm, hx⟩ := hacts
      obtain rfl := hw.distinct (.admin m) client a (by simp [activeIdOf, hm, hx]) hid
      rfl
  | _ => exact hacts.elim

/-- Others do not take the record out of the slot. -/
theorem Registered.permits_evicting (hw : w.Registered) (hid : w.activeIdOf client = some a)
    (hother : act ≠ nextStep client) : w.Permits act (SharedMem.Evicting a) := by
  have hne : ∀ e, w.Acts act e → e ≠ a := by
    rintro e hacts rfl
    exact hother (hw.acts hid hacts)
  have hmove : ∀ m : Move, (∀ e, m.actor = some e → w.Acts act e) →
      Leads (SharedMem.Evicting a) m (SharedMem.Evicting a) := by
    intro m hactor
    refine SharedMem.leads_evicting fun hends => ?_
    exact hne a (hactor a (Move.actor_of_ends hends)) rfl
  exact {
    regist := fun pid fileId isDelete => SharedMemoryContext.registFile_evicting pid fileId isDelete
    registAdmin := fun pid => SharedMemoryContext.registAdmin_evicting pid
    unregist := fun e pid hacts => SharedMemoryContext.unregistFile_evicting (hne e hacts) pid
    unregistAdmin := fun e pid hacts => SharedMemoryContext.unregistAdmin_evicting (hne e hacts) pid
    move := fun _ m _ hactor => hmove m hactor
    close := fun _ m _ hactor => hmove m hactor
    loaded := fun _ e b => SharedMem.leads_evicting nofun
    resize := fun _ e b bound => SharedMem.leads_evicting nofun }

/-- The handles are in order, and the slot has its record. -/
structure Recorded (a : Nat) (w : World) : Prop where
  enrolled : w.Enrolled
  evicting : w.shm.Evicting a

/-- The record stays in the slot as long as the upload takes, and when it throws. -/
theorem Recorded.step (hw : w.Recorded a) (hup : w.uploading client = some (a, info))
    (hstep : World.step cfg w act = some w') : w'.Recorded a := by
  refine ⟨hw.enrolled.step hstep, ?_⟩
  by_cases hown : act = nextStep client
  · subst hown
    rw [uploading_shm hup hstep]
    exact hw.evicting
  · have hpermits := hw.enrolled.registered.permits_evicting (activeIdOf_of_uploading hup) hown
    exact hpermits.step hw.evicting hstep

/-! ## The beginning of an eviction -/

end World

namespace FileActiveStatus

variable {cfg : Config}

/-- A round that still misses buckets has marked a victim for the slot of the handle. -/
def Marked (loop : EvictLoop) (c : Ctx) : Prop :=
  0 < loop.numToAcquire → ∃ a, c.self.activeId = some a ∧
    (a < c.shm.activeStatus.length → c.shm.Evicting a)

theorem markBucketEvicting_evicting (a : Nat) :
    Spec (fun _ => True) (SharedMemoryContext.markBucketEvicting a)
      (fun _ s => a < s.activeStatus.length → s.Evicting a) (fun _ _ => True) :=
  SharedMemoryContext.markBucketEvicting_spec (fun _ _ _ => id) (fun _ _ _ _ => id)
    fun _ _ _ _ _ _ hmove hslot => hmove.evicting hslot

theorem startEvict_marked (loop : EvictLoop) :
    Spec (fun _ => True) (startEvict loop) Marked (fun _ _ => True) := by
  intro c _
  cases hrun : startEvict loop c with
  | error e c' => trivial
  | ok loop' c' =>
      unfold startEvict at hrun
      split at hrun
      · obtain ⟨a, c₁, hid, hrun⟩ := bind_ok hrun
        obtain ⟨rfl, ha⟩ := myActiveId_ok hid
        obtain ⟨info, c₂, hmark, hrun⟩ := bind_ok hrun
        obtain ⟨s, hsweep, rfl⟩ := onShm_ok hmark
        cases hrun
        intro _
        exact ⟨a, ha, Spec.of_ok (markBucketEvicting_evicting a) trivial hsweep⟩
      · next hnone =>
          cases hrun
          exact fun hsome => absurd hsome hnone

/-- Whatever comes before, the section ends with the choice of a victim. -/
theorem marked_of_last {α : Type} {prog : StatusM α} {next : α → StatusM EvictLoop}
    (hnext : ∀ x, Spec (fun _ => True) (next x) Marked (fun _ _ => True)) :
    Spec (fun _ => True) (prog >>= next) Marked (fun _ _ => True) :=
  Spec.bind (Keeps.of_forall fun _ => trivial) hnext

theorem acquireFirst_marked (cfg : Config) :
    Spec (fun _ => True) (acquireFirst cfg) Marked (fun _ _ => True) := by
  refine marked_of_last fun _ => marked_of_last fun c => ?_
  dsimp only
  cases acquirePolicy _ _ _ _ _ with
  | error e => exact Spec.throw fun _ _ => trivial
  | ok policy =>
      dsimp only
      split
      · exact marked_of_last fun _ => marked_of_last fun _ => marked_of_last fun _ =>
          marked_of_last fun _ => startEvict_marked _
      · exact marked_of_last fun _ => marked_of_last fun _ => marked_of_last fun _ =>
          startEvict_marked _

theorem acquireNext_marked (loop : EvictLoop) :
    Spec (fun _ => True) (acquireNext loop) Marked (fun _ _ => True) := by
  rw [acquireNext_eq]
  refine marked_of_last fun _ => marked_of_last fun found => marked_of_last fun c => ?_
  dsimp only
  split
  · exact marked_of_last fun _ => marked_of_last fun _ => startEvict_marked _
  · exact marked_of_last fun _ => marked_of_last fun _ => startEvict_marked _

/-- After a round the handle uploads the victim of the round. -/
theorem afterEvictRound_marked {prog : StatusM EvictLoop}
    (hprog : Spec (fun _ => True) prog Marked (fun _ _ => True)) {caller caller' : Caller}
    {loop : EvictLoop} {c c' : Ctx} {u : Unit}
    (hrun : (do afterEvictRound caller (← prog) : StatusM Unit) c = .ok u c')
    (hpc : c'.self.pc = .evictRead caller' loop) : Marked loop c' := by
  obtain ⟨loop', c₁, hround, hrun⟩ := bind_ok hrun
  have hmarked := Spec.of_ok hprog trivial hround
  unfold afterEvictRound at hrun
  split at hrun
  · obtain rfl := modifySelf_ok hrun
    dsimp only at hpc
    split at hpc
    · cases hpc
      exact hmarked
    · cases hpc
  · obtain ⟨c₂, c₃, hget, hrun⟩ := bind_ok hrun
    cases hget
    split at hrun
    · cases hrun
    · obtain rfl := modifySelf_ok hrun
      dsimp only [afterAcquire] at hpc
      split at hpc
      · cases hpc
      · cases hpc

end FileActiveStatus

namespace World

variable {cfg : Config} {w w' : World} {act : Action} {client : Client} {a : Nat} {info : BlockInfo}

/-- The next step is a critical section of `acquireNewBlocks`. -/
def choosesVictim : Pc → Bool
  | .acquire _ => true
  | .evictFinish _ _ => true
  | _ => false

/-- Buckets are missing, and the next step uploads a victim. -/
def hasVictim : Pc → Bool
  | .evictRead _ loop => 0 < loop.numToAcquire
  | _ => false

/-- The step marks a victim: a handle that misses buckets comes out of a critical section
of `acquireNewBlocks` with one to upload, or an admin finds used buckets. -/
inductive MarksVictim (cfg : Config) (w : World) : Client → World → Prop
  | file {w' : World} {n : Nat} {h h' : FileActiveStatus} (hn : w.files[n]? = some h)
      (hsection : choosesVictim h.pc = true) (hstep : step cfg w (.file n) = some w')
      (hn' : w'.files[n]? = some h') (hvictim : hasVictim h'.pc = true) :
      MarksVictim cfg w (.file n) w'
  | admin {w' : World} {n : Nat} {x x' : AdminActiveStatus} {found : Bool} {last : Option BlockInfo}
      {info : BlockInfo} (hn : w.admins[n]? = some x) (hmark : x.pc = .mark found last)
      (hused : 0 < w.shm.header.numUsedBuckets ∧ w.shm.header.numUsedBuckets < 2 ^ 31)
      (hstep : step cfg w (.admin n) = some w') (hn' : w'.admins[n]? = some x')
      (hpc : x'.pc = .evictRead info) : MarksVictim cfg w (.admin n) w'

theorem MarksVictim.step (h : MarksVictim cfg w client w') :
    World.step cfg w (nextStep client) = some w' := by
  cases h with
  | file hn hsection hstep hn' hvictim => exact hstep
  | admin hn hmark hused hstep hn' hpc => exact hstep

/-- A critical section of `acquireNewBlocks` that comes out with a victim. -/
theorem evicting_of_round {n : Nat} {h h' : FileActiveStatus} {caller : Caller}
    {prog : StatusM EvictLoop} {call : Option Call}
    (hprog : Spec (fun _ => True) prog FileActiveStatus.Marked (fun _ _ => True))
    (hn : w.files[n]? = some h)
    (hw' : w' = w.runFile n h call (do FileActiveStatus.afterEvictRound caller (← prog))
      fun _ w => w) (hn' : w'.files[n]? = some h') (hvictim : hasVictim h'.pc = true)
    (hid : h'.activeId = some a) (hslot : a < w'.shm.activeStatus.length) : w'.shm.Evicting a := by
  obtain ⟨caller', loop, hpc, hmissing⟩ :
      ∃ caller' loop, h'.pc = .evictRead caller' loop ∧ 0 < loop.numToAcquire := by
    cases hpc : h'.pc with
    | evictRead caller' loop => exact ⟨caller', loop, rfl, by simpa [hpc, hasVictim] using hvictim⟩
    | _ => simp [hpc, hasVictim] at hvictim
  rcases w.runFile_cases n h call (do FileActiveStatus.afterEvictRound caller (← prog)) fun _ w => w
    with ⟨u, c, hrun, heq⟩ | ⟨e, c, hrun, heq⟩
  · obtain rfl := hw'.trans heq
    obtain rfl := Option.some.inj ((getElem?_set_files hn).symm.trans hn')
    obtain ⟨a', hid', hevicting⟩ := FileActiveStatus.afterEvictRound_marked hprog hrun hpc hmissing
    obtain rfl := Option.some.inj (hid'.symm.trans hid)
    exact hevicting hslot
  · obtain rfl := hw'.trans heq
    obtain rfl := Option.some.inj ((getElem?_set_files hn).symm.trans hn')
    cases hpc

/-- The record of the victim is in the slot of the evictor. -/
theorem MarksVictim.evicting (h : MarksVictim cfg w client w') (hw' : w'.Registered)
    (hup : w'.uploading client = some (a, info)) : w'.shm.Evicting a := by
  have hlength : w'.shm.roster.length = w'.shm.activeStatus.length := List.length_map ..
  cases h with
  | file hn hsection hstep hn' hvictim =>
      next n h h' =>
        have hid : h'.activeId = some a := by
          simpa [activeIdOf, hn'] using activeIdOf_of_uploading hup
        have hslot : a < w'.shm.activeStatus.length :=
          hlength ▸ (List.getElem?_eq_some_iff.mp (hw'.file n h' a hn' hid)).1
        simp only [World.step, hn] at hstep
        unfold stepFile at hstep
        cases hpc : h.pc with
        | acquire caller =>
            simp only [hpc, Option.some.injEq] at hstep
            exact evicting_of_round (FileActiveStatus.acquireFirst_marked cfg) hn hstep.symm hn'
              hvictim hid hslot
        | evictFinish caller loop =>
            simp only [hpc, Option.some.injEq] at hstep
            exact evicting_of_round (FileActiveStatus.acquireNext_marked loop) hn hstep.symm hn'
              hvictim hid hslot
        | _ => simp [hpc, choosesVictim] at hsection
  | admin hn hmark hused hstep hn' hpc =>
      next n x x' found last info' =>
        have hid' : x'.activeId = some a := by
          simpa [activeIdOf, hn'] using activeIdOf_of_uploading hup
        obtain ⟨f, hroster⟩ := hw'.admin n x' a hn' hid'
        have hslot : a < w'.shm.activeStatus.length :=
          hlength ▸ (List.getElem?_eq_some_iff.mp hroster).1
        simp only [World.step, hn] at hstep
        unfold stepAdmin at hstep
        rw [hmark] at hstep
        have hset : ∀ y, (w.admins.set n y)[n]? = some y :=
          fun y => List.getElem?_set_self (List.getElem?_eq_some_iff.mp hn).1
        cases hid : x.activeId with
        | none => simp [hid] at hstep
        | some e =>
            simp only [hid, if_pos hused, Option.some.injEq] at hstep
            cases hrun : SharedMemoryContext.markBucketEvicting e w.shm with
            | error err s =>
                rw [hrun] at hstep
                subst hstep
                obtain rfl := Option.some.inj ((hset _).symm.trans hn')
                cases hpc
            | ok victim s =>
                rw [hrun] at hstep
                subst hstep
                obtain rfl := Option.some.inj ((hset _).symm.trans hn')
                obtain rfl := Option.some.inj hid'
                exact Spec.of_ok (FileActiveStatus.markBucketEvicting_evicting e) trivial hrun hslot

/-! ## Failed uploads -/

/-- The thread of the handle is back at its caller. -/
def isBack (w : World) : Client → Bool
  | .file n =>
      match w.files[n]? with
      | some h => match h.pc with
          | .idle => true
          | _ => false
      | none => false
  | .admin n =>
      match w.admins[n]? with
      | some x => match x.pc with
          | .idle => true
          | _ => false
      | none => false

/-- In every state on the way the handle is inside `writeBlock` for this victim. -/
def Uploads (client : Client) (a : Nat) (info : BlockInfo) (w : World) (_ : Action) : Prop :=
  w.uploading client = some (a, info)

/-- A victim is marked, and after steps of any handles the upload of it throws: the handle
goes from `writeBlock` back to its caller. -/
def FailedEviction (cfg : Config) (client : Client) (a : Nat) (info : BlockInfo) (final : World) :
    Prop :=
  ∃ w begun failing act, Run (step cfg) anyStep (init cfg) w ∧ MarksVictim cfg w client begun ∧
    Run (step cfg) (Uploads client a info) begun failing ∧
    begun.uploading client = some (a, info) ∧ failing.uploading client = some (a, info) ∧
    step cfg failing act = some final ∧ final.isBack client = true

/-- The eviction is undone: the victim is a used bucket of its file again, the slot has no
record, the counters are right, and the owner and evictors can have the bucket. -/
structure Undone (a : Nat) (info : BlockInfo) (s : SharedMem) : Prop where
  victim : ∃ b x, info.bucketId = some b ∧ s.buckets[b]? = some x ∧ x.type = .used ∧
    x.evicting = false ∧ x.fileId = info.fileId ∧ x.fileBlockIndex = info.blockId
  slot : ∀ slot, s.activeStatus[a]? = some slot →
    slot.evicting = false ∧ slot.evictFileId = FileId.invalid
  accounted : s.Accounted
  activates : ∀ e isWrite, ∃ s', SharedMemoryContext.activateBucket info.fileId
    ⟨info.bucketId, info.blockId, true, .used, 0⟩ e isWrite s = .ok true s'
  evicts : ∀ e, ∃ victim s', SharedMemoryContext.markBucketEvicting e s = .ok victim s'

/-- No failed eviction is undone. -/
theorem not_undone (cfg : Config) (client : Client) (a : Nat) (info : BlockInfo) (final : World)
    (hfailed : FailedEviction cfg client a info final) : ¬ Undone a info final.shm := by
  intro hundone
  obtain ⟨w, begun, failing, act, hrun, hmarks, huploads, hbegun, hfailing, hstep, -⟩ := hfailed
  have hw : w.Enrolled := enrolled_run (enrolled_init cfg) hrun
  have henrolled : begun.Enrolled := hw.step hmarks.step
  have hstart : begun.Recorded a := ⟨henrolled, hmarks.evicting henrolled.registered hbegun⟩
  -- the record survives every step that finds the handle inside `writeBlock`
  have hend : failing.Recorded a :=
    huploads.induct hstart fun _ _ _ hw hup hstep => hw.step hup hstep
  obtain ⟨slot, hslot, hevicting⟩ := (hend.step hfailing hstep).evicting
  rw [(hundone.slot slot hslot).1] at hevicting
  cases hevicting

instance (client : Client) (a : Nat) (info : BlockInfo) (w : World) (act : Action) :
    Decidable (Uploads client a info w act) :=
  inferInstanceAs (Decidable (w.uploading client = some (a, info)))

/-- A file of one block is written and closed, and a writer of a second file needs its
bucket. -/
def secondWriter : List Action :=
  [.openFile 7 true false .writeFile 1, .file 0, .file 0, .call 0 (.write [1])] ++
  List.replicate 6 (.file 0) ++ [.call 0 (.close false), .file 0, .file 0,
    .openFile 8 true false .writeFile 2, .file 1, .file 1, .call 1 (.write [2]), .file 1]

/-- The block of the first file. -/
def firstVictim : BlockInfo := ⟨⟨7, 0⟩, some 0, some 0, invalidBlockOffset, 1, true⟩

/-- The second writer marks the bucket, reads it, and the object store refuses the object. -/
def refusedUpload : Option (World × World × World × World) := do
  let w ← execute (step oneBucket) anyStep (init oneBucket) secondWriter
  let begun ← step oneBucket w (.file 1)
  let failing ← execute (step oneBucket) (Uploads (.file 1) 0 firstVictim) begun [.file 1]
  let final ← step oneBucket failing (.failUpload 1)
  return (w, begun, failing, final)

theorem exists_refusedUpload : ∃ final, FailedEviction oneBucket (.file 1) 0 firstVictim final ∧
    ∃ slot ∈ final.shm.activeStatus[0]?, slot.evicting = true := by
  have hcheck : (refusedUpload.any fun (w, begun, failing, final) =>
      w.files[1]?.any (fun h => choosesVictim h.pc) &&
      begun.files[1]?.any (fun h => hasVictim h.pc) &&
      decide (begun.uploading (.file 1) = some (0, firstVictim)) &&
      decide (failing.uploading (.file 1) = some (0, firstVictim)) &&
      final.isBack (.file 1) && final.shm.activeStatus[0]?.any (·.evicting)) = true := by
    decide +kernel
  obtain ⟨⟨w, begun, failing, final⟩, hrun, hfacts⟩ := (Option.any_eq_true _ _).mp hcheck
  simp only [Bool.and_eq_true, decide_eq_true_eq, Option.any_eq_true] at hfacts
  obtain ⟨⟨⟨⟨⟨⟨h, hn, hsection⟩, h', hn', hvictim⟩, hbegun⟩, hfailing⟩, hback⟩, slot, hslot,
    hevicting⟩ := hfacts
  simp only [refusedUpload, Option.bind_eq_bind, Option.bind_eq_some_iff, Option.pure_def,
    Option.some.injEq, Prod.mk.injEq] at hrun
  obtain ⟨w', hw, begun', hbegins, failing', hfails, final', hfinal, rfl, rfl, rfl, rfl⟩ := hrun
  refine ⟨final', ⟨w', begun', failing', .failUpload 1, Run.of_execute hw, ?_,
    Run.of_execute hfails, hbegun, hfailing, hfinal, hback⟩, slot, hslot, hevicting⟩
  exact .file hn hsection hbegins hn' hvictim

/-- The refused upload leaves the bucket and the slot as they were during the eviction. -/
theorem not_undone_refusedUpload : ∃ final,
    FailedEviction oneBucket (.file 1) 0 firstVictim final ∧ ¬ Undone 0 firstVictim final.shm := by
  obtain ⟨final, hfailed, -⟩ := exists_refusedUpload
  exact ⟨final, hfailed, not_undone _ _ _ _ _ hfailed⟩

/-- The slot of the evictor has the record of the eviction. -/
theorem refusedUpload_evicting :
    ¬ ∀ (cfg : Config) (client : Client) (a : Nat) (info : BlockInfo) (final : World),
      FailedEviction cfg client a info final → Undone a info final.shm := by
  intro hclaim
  obtain ⟨final, hfailed, slot, hslot, hevicting⟩ := exists_refusedUpload
  rw [((hclaim _ _ _ _ _ hfailed).slot slot hslot).1] at hevicting
  cases hevicting

end World

end Gopherwood
