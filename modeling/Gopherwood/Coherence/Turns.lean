/-
# The thread of a stream call

Every step of a handle that reads or writes keeps all parts of the system agreed, and
leads to the next stage of the call.
-/

import Gopherwood.Coherence.Stages
import Gopherwood.File.Quota

namespace Gopherwood

open Library (page slice overwrite)

namespace World

variable {cfg : Config} {G G' : Account} {V V' : Option Victim} {D D' : Option Draft} {w w' : World}
variable {n a k start : Nat} {h h' : FileActiveStatus} {before : FileId → List UInt8}
variable {done pending : List LogEntry} {R : View}

theorem Coherent.touched (hw : Coherent cfg G D V n w) (hn : w.files[n]? = some h)
    (hfiles : w'.files = w.files.set n h') (hshm : w'.shm = w.shm) (hfolder : w'.folder = w.folder)
    (hspace : w'.space = w.space) (huploaded : Uploaded cfg G D w') (htasks : w'.tasks = w.tasks)
    (ht : h.Touches h') (hpos : h'.pos ≤ h'.eof) : Coherent cfg G D V n w' := by
  refine ⟨hw.agrees.touched hn hfiles hshm hfolder (fun hne => htasks ▸ hne) ht hpos,
    hw.kept.congr (fun _ _ _ hspot => hspot) rfl hspace, huploaded, ?_⟩
  refine hw.ledger.congr htasks (fun x hx => ?_) ⟨fun _ _ _ _ => Iff.rfl, fun _ => Nat.le_refl _,
    fun _ _ _ _ hspot => hspot, fun _ _ _ _ _ => rfl, fun _ _ _ _ _ hslice => hspace ▸ hslice⟩
  obtain rfl : h = x := Option.some.inj (hn.symm.trans hx)
  refine ⟨h', ?_, by rw [ht.self], by rw [ht.self]⟩
  rw [hfiles, List.getElem?_set_self (List.getElem?_eq_some_iff.mp hn).1]

/-- The objects stay. -/
theorem Uploaded.same (hw : Uploaded cfg G D w) (hfolder : w'.folder = w.folder)
    (hoss : w'.oss = w.oss) (htasks : w'.tasks = w.tasks) : Uploaded cfg G D w' :=
  hw.congr (fun _ _ hk => hfolder ▸ hk) (fun _ _ _ => rfl) (fun _ _ _ hspot => hspot) rfl hoss
    fun task htask _ _ hremoved => ⟨task, htasks ▸ htask, hremoved⟩

theorem Streaming.attends (hs : Streaming cfg G D V n a before start h w) :
    ∃ k done pending R, Attends G w h a k done pending R ∧ (w.tasks ≠ [] → pending = []) := by
  obtain ⟨k, done, pending, R, hh, hcaught⟩ := hs.coherent.agrees.attends n h a hs.handle hs.active
  exact ⟨k, done, pending, R, hh, hcaught rfl⟩

theorem Streaming.pos_le (hs : Streaming cfg G D V n a before start h w) : h.pos ≤ h.eof := by
  obtain ⟨k, done, pending, R, hh, -⟩ := hs.attends
  exact hh.pos

/-- The call of handle `n` goes on: the invariant of its stream loop holds again, for the
same start and the same content before. -/
structure GoesOn (cfg : Config) (n a : Nat) (before : FileId → List UInt8) (start : Nat)
    (f : FileId) (w w' : World) : Prop where
  history : w'.history = w.history
  streams : ∃ G D V h, w'.files = w.files.set n h ∧ h.fileId = f ∧
    Streaming cfg G D V n a before start h w'

/-- The thread goes on by itself, to a stage that it is ready for. -/
theorem Streaming.turns (hs : Streaming cfg G D V n a before start h w) (hself : h' = { h with
      loadMutex :=
        h'.loadMutex, pc := h'.pc, stream := { h.stream with curBlockId := h'.stream.curBlockId } })
    (hahead : h'.pc.ahead = h.pc.ahead) (hstage :
    Stage cfg G D V (w.setFile n h') h' a start h'.pc) :
    GoesOn cfg n a before start h.fileId w (w.setFile n h') := by
  have hpos : h'.pos = h.pos := by rw [hself]
  have heof : h'.eof = h.eof := by rw [hself]
  have hfile : h'.fileId = h.fileId := by rw [hself]
  have hactive : h'.activeId = h.activeId := by rw [hself]
  have hdelete : h'.isDelete = h.isDelete := by rw [hself]
  have htouches : h.Touches h' := by
    refine ⟨by rw [hself], ?_⟩
    rw [show h'.blockArray = h.blockArray by rw [hself]]
    exact .refl _ _
  refine ⟨rfl, G, D, V, h', rfl, hfile, hs.coherent.touched hs.handle rfl rfl rfl rfl
    (hs.coherent.uploaded.same rfl rfl rfl) rfl htouches ?_, ?_, hactive.trans hs.active,
      hdelete.trans hs.spares, ?_, ?_, hstage⟩
  · rw [hpos, heof]
    exact hs.pos_le
  · exact List.getElem?_set_self (List.getElem?_eq_some_iff.mp hs.handle).1
  · rw [hfile]
    exact hs.others
  · rw [hfile, hahead]
    refine hs.progress.congr hpos (by rw [hself]) (by rw [hself]) (by rw [hself]) (by rw [hself])
      (by rw [hself]) (by rw [hself]) (by rw [hself]) ?_
    rw [hpos, show h'.stream.pos = h.stream.pos by rw [hself]]
    exact hs.progress.pos

theorem mem_keys_of_isMyActiveBlock {i : Nat} (hi : h.isMyActiveBlock i = true) :
    i ∈ h.lruCache.keys :=
  List.contains_iff_mem.mp hi

theorem notMem_keys_of_isMyActiveBlock {i : Nat} (hi : (!h.isMyActiveBlock i) = true) :
    i ∉ h.lruCache.keys := by
  intro hmem
  have hyes : h.isMyActiveBlock i = true := List.contains_iff_mem.mpr hmem
  rw [hyes] at hi
  cases hi

/-- A block of the cache is in a bucket of the handle. -/
theorem atBlock_of_key (hbooks : Books (fun b => (G.own b).holdOf a) h.fileId h)
    (hcur : h.stream.curBlockId = h.pos / cfg.localBucketSize)
    (hkey : h.stream.curBlockId ∈ h.lruCache.keys) :
    ∃ b, AtBlock cfg G h a b := by
  obtain ⟨b, hb⟩ := hbooks.caches.mem_keys.mp hkey
  exact ⟨b, hcur, hb⟩

/-- `adjustActiveBlock` is left. -/
theorem stage_leaveAdjust (hbooks : Books (fun b => (G.own b).holdOf a) h.fileId h)
    (hleft : 0 < h.stream.bytesLeft) (hcur : h.stream.curBlockId = h.pos / cfg.localBucketSize) :
    Stage cfg G none none w h.leaveAdjust a start h.leaveAdjust.pc := by
  by_cases hkey : h.isMyActiveBlock h.stream.curBlockId = true
  · have hpc : h.leaveAdjust.pc = .ready := by
      simp [FileActiveStatus.leaveAdjust, hkey]
    rw [hpc]
    obtain ⟨b, hb⟩ := atBlock_of_key hbooks hcur (mem_keys_of_isMyActiveBlock hkey)
    exact ⟨rfl, rfl, hleft, b, hb.current, hb.held⟩
  · have hpc : h.leaveAdjust.pc = .wait := by
      simp [FileActiveStatus.leaveAdjust, hkey]
    rw [hpc]
    exact ⟨rfl, rfl, hleft, hcur⟩

/-- `extendOneBlock` or `activateBlock` is entered. -/
theorem stage_enter {caller : Caller} (hleft : 0 < h.stream.bytesLeft) (hmutex : h.loadMutex = true)
    (hcur : h.stream.curBlockId = h.pos / cfg.localBucketSize) (htarget : Target cfg h caller) :
    Stage cfg G none none w (h.enter caller) a start (h.enter caller).pc := by
  have htarget' : ∀ pc, Target cfg { h with pc := pc } caller :=
    fun pc => htarget.congr (fun _ hk => hk) rfl rfl rfl rfl rfl
  unfold FileActiveStatus.enter
  dsimp only
  split
  · exact ⟨rfl, rfl, hleft, hmutex, hcur, htarget' _⟩
  · cases caller with
    | extend => exact ⟨rfl, rfl, hleft, hmutex, hcur, htarget' _⟩
    | preActivate counter num => exact ⟨rfl, rfl, hleft, hmutex, hcur, by simp, htarget' _⟩
    | wait => exact ⟨rfl, rfl, hleft, hmutex, hcur, by simp, htarget' _⟩

/-- What the pre-activation loop comes to. -/
theorem preActivate_cases (num fuel counter : Nat) (h : FileActiveStatus) :
    h.preActivate num fuel counter = h.leaveAdjust ∨
      ∃ next, Missing h (h.stream.curBlockId + next) ∧
        h.preActivate num fuel counter = h.enter (.preActivate next num) := by
  induction fuel generalizing counter with
  | zero => exact Or.inl rfl
  | succ fuel ih =>
      unfold FileActiveStatus.preActivate
      dsimp only
      split
      · exact Or.inl rfl
      · split
        · next hmissing =>
            rw [Bool.and_eq_true] at hmissing
            refine Or.inr ⟨counter, ⟨notMem_keys_of_isMyActiveBlock hmissing.1, ?_⟩, rfl⟩
            simpa using hmissing.2
        · exact ih (counter + 1)

theorem stage_preActivate {num fuel counter : Nat}
    (hbooks : Books (fun b => (G.own b).holdOf a) h.fileId h) (hleft : 0 < h.stream.bytesLeft)
    (hmutex : h.loadMutex = true) (hcur : h.stream.curBlockId = h.pos / cfg.localBucketSize) :
    Stage cfg G none none w (h.preActivate num fuel counter) a start
    (h.preActivate num fuel counter).pc := by
  rcases preActivate_cases num fuel counter h with heq | ⟨next, hmissing, heq⟩
  · rw [heq]
    exact stage_leaveAdjust hbooks hleft hcur
  · rw [heq]
    exact stage_enter hleft hmutex hcur hmissing

/-- What these steps do to the handle. -/
theorem leaveAdjust_self (h : FileActiveStatus) : h.leaveAdjust = { h with
    loadMutex := h.leaveAdjust.loadMutex, pc := h.leaveAdjust.pc } := rfl

theorem leaveAdjust_ahead (h : FileActiveStatus) : h.leaveAdjust.pc.ahead = 0 := by
  unfold FileActiveStatus.leaveAdjust
  dsimp only
  split
  · rfl
  · rfl

theorem enter_ahead (caller : Caller) (h : FileActiveStatus) : (h.enter caller).pc.ahead = 0 := by
  unfold FileActiveStatus.enter
  dsimp only
  split
  · rfl
  · cases caller with
    | extend => rfl
    | preActivate counter num => rfl
    | wait => rfl

theorem preActivate_self (num fuel counter : Nat) (h : FileActiveStatus) :
    h.preActivate num fuel counter = { h with
      loadMutex := (h.preActivate num fuel counter).loadMutex
      pc :=
        (h.preActivate num fuel counter).pc } ∧ (h.preActivate num fuel counter).pc.ahead = 0 := by
  rcases preActivate_cases num fuel counter h with heq | ⟨next, -, heq⟩
  · rw [heq]
    exact ⟨rfl, leaveAdjust_ahead h⟩
  · rw [heq]
    exact ⟨rfl, enter_ahead _ h⟩

/-- The blocks that the handle knows reach to the end of file. -/
theorem Attends.upper (hw : Agrees cfg G V n w) (hh : Attends G w h a k done pending R) :
    h.eof ≤ h.blockArray.length * cfg.localBucketSize := by
  rw [hh.follows.length hh.quiet, hw.length hh.linked hh.follows.content hh.follows.replayed,
    hh.eof]
  exact (hw.level h.fileId).upper

/-- Only a writer gets behind the last block. -/
theorem Streaming.target_extend (hs : Streaming cfg G D V n a before start h w)
    (hleft : 0 < h.stream.bytesLeft)
    (hbehind : h.blockArray.length < h.pos / cfg.localBucketSize + 1) :
    h.isWrite = true ∧ h.blockArray.length * cfg.localBucketSize ≤ h.eof := by
  obtain ⟨k, done, pending, R, hh, -⟩ := hs.attends
  have hupper := hh.upper hs.coherent.agrees
  have hbelow : h.blockArray.length * cfg.localBucketSize ≤ h.pos :=
    Nat.le_trans (Nat.mul_le_mul_right _ (Nat.le_of_lt_succ hbehind)) (Nat.div_mul_le_self _ _)
  refine ⟨?_, Nat.le_trans hbelow hh.pos⟩
  rcases hs.progress.kind with ⟨length, hr⟩ | ⟨buffer, hwrites⟩
  · -- a reader stays before the end of file
    have hend := hr.left
    have hinside := hs.progress.inside
    have heof := hh.eof
    rw [hr.content] at heof
    omega
  · exact hwrites.writable

theorem Streaming.adjust (hs : Streaming cfg G D V n a before start h w) (hpc : h.pc = .adjust)
    (hstep : w.stepFile cfg n h = some w') :
    GoesOn cfg n a before start h.fileId w w' := by
  obtain ⟨k, done, pending, R, hh, -⟩ := hs.attends
  have hstage := hs.stage
  rw [hpc] at hstage
  obtain ⟨rfl, rfl, hleft⟩ := hstage
  simp only [stepFile, hpc] at hstep
  split at hstep
  · cases hstep
  · cases hstep
    let h₁ : FileActiveStatus := { h with
      loadMutex := true, stream := { h.stream with curBlockId := h.pos / cfg.localBucketSize } }
    have hbooks : Books (fun b => (G.own b).holdOf a) h₁.fileId h₁ := hh.books.congr rfl rfl rfl
    unfold FileActiveStatus.adjustActiveBlock
    dsimp only
    split
    · next hbehind =>
        refine hs.turns rfl ?_ ?_
        · rw [hpc]
          unfold FileActiveStatus.enter
          dsimp only
          split
          · rfl
          · rfl
        · exact stage_enter (h := h₁) hleft rfl rfl (hs.target_extend hleft hbehind)
    · obtain ⟨hself, hahead⟩ := preActivate_self (min h.lruCache.maxSize preActivateBlockNum)
        (min h.lruCache.maxSize preActivateBlockNum + 1) 0 h₁
      refine hs.turns ?_ ?_ ?_
      · rw [hself]
      · refine Eq.trans hahead ?_
        rw [hpc]
        rfl
      · exact stage_preActivate (h := h₁) hbooks hleft rfl rfl

/-- One round of waiting for the block of the position. -/
theorem Streaming.wait (hs : Streaming cfg G D V n a before start h w) (hpc : h.pc = .wait)
    (hstep : w.stepFile cfg n h = some w') :
    GoesOn cfg n a before start h.fileId w w' := by
  obtain ⟨k, done, pending, R, hh, -⟩ := hs.attends
  have hstage := hs.stage
  rw [hpc] at hstage
  obtain ⟨rfl, rfl, hleft, hcur⟩ := hstage
  simp only [stepFile, hpc] at hstep
  split at hstep
  · cases hstep
  · cases hstep
    unfold FileActiveStatus.waitActive
    split
    · next hkey =>
        obtain ⟨b, hb⟩ := atBlock_of_key hh.books hcur (mem_keys_of_isMyActiveBlock hkey)
        exact hs.turns rfl (by rw [hpc]; rfl)
          ⟨rfl, rfl, hleft, b, hb.current, hb.held⟩
    · next hkey =>
        split
        · next hloading =>
            have hmissing : Missing h h.stream.curBlockId :=
              ⟨fun hmem => hkey (List.contains_iff_mem.mpr hmem), by simpa using hloading⟩
            have hmissing' : Missing { h with loadMutex := true } h.stream.curBlockId :=
              hmissing.congr (fun _ hk => hk) rfl
            refine hs.turns rfl ?_ ?_
            · rw [hpc]
              unfold FileActiveStatus.enter
              dsimp only
              split
              · rfl
              · rfl
            · exact stage_enter (h := { h with loadMutex := true }) hleft rfl hcur hmissing'
        · have hstage : Stage cfg G none none (w.setFile n h) h a start h.pc := by
            rw [hpc]
            exact ⟨rfl, rfl, hleft, hcur⟩
          exact hs.turns rfl rfl hstage

/-- No call has thrown. -/
def Calm (w : World) : Prop := ∀ r ∈ w.history, ∃ value data, r.outcome = .returned value data

instance (outcome : Outcome) : Decidable (∃ value data, outcome = .returned value data) :=
  match outcome with
  | .returned value data => .isTrue ⟨value, data, rfl⟩
  | .threw error => .isFalse fun h => by simp at h

instance (w : World) : Decidable (Calm w) :=
  inferInstanceAs (Decidable (∀ r ∈ w.history, ∃ value data, r.outcome = .returned value data))

/-- A critical section of a call that has not thrown returned. -/
theorem runFile_returns {α : Type} {call : Option Call} {prog : StatusM α}
    {next : α → World → World} (hcalm : Calm (w.runFile n h call prog next)) :
    ∃ x c, prog (w.ctx h) = .ok x c ∧
      w.runFile n h call prog next =
        next x { w.setFile n c.self with shm := c.shm, folder := c.folder, oss := c.oss } := by
  unfold runFile at hcalm ⊢
  rw [show (⟨w.shm, w.folder, w.oss, h⟩ : Ctx) = w.ctx h from rfl] at hcalm ⊢
  cases hrun : prog (w.ctx h) with
  | ok x c => exact ⟨x, c, rfl, rfl⟩
  | error e c =>
      rw [hrun] at hcalm
      obtain ⟨value, data, hout⟩ := hcalm ⟨n, call, .threw e⟩
        (List.mem_append_right _ (List.mem_singleton_self _))
      cases hout

/-- Where a round of `acquireNewBlocks` leads. -/
theorem afterEvictRound_ok {caller : Caller} {loop : EvictLoop} {c c' : Ctx} {u : Unit}
    (hrun : FileActiveStatus.afterEvictRound caller loop c = .ok u c') :
    c' = { c with self := { c.self with pc := c'.self.pc } } ∧
      (loop.evicting = true ∧ c'.self.pc = .evictRead caller loop ∨
        loop.evicting = false ∧ (c'.self.pc = .evictFinish caller loop ∨
          c'.self.pc = (FileActiveStatus.afterAcquire caller c.self).pc)) := by
  simp only [FileActiveStatus.afterEvictRound] at hrun
  split at hrun
  · obtain rfl := FileActiveStatus.modifySelf_ok hrun
    refine ⟨rfl, ?_⟩
    cases hevicting : loop.evicting with
    | true => exact Or.inl ⟨rfl, by simp⟩
    | false => exact Or.inr ⟨rfl, Or.inl (by simp)⟩
  · next hdone =>
      obtain ⟨c₀, c₁, hget, hrun⟩ := Library.bind_ok hrun
      cases hget
      have hidle : loop.evicting = false := by
        cases hevicting : loop.evicting with
        | true => exact absurd (Or.inr hevicting) hdone
        | false => rfl
      split at hrun
      · cases hrun
      · obtain rfl := FileActiveStatus.modifySelf_ok hrun
        exact ⟨rfl, Or.inr ⟨hidle, Or.inr rfl⟩⟩

theorem thread_of_pc {x : FileActiveStatus}
    (hself : h' = { x with loadMutex := h'.loadMutex, pc := h'.pc }) :
    h' = { x with pos := h'.pos, loadMutex := h'.loadMutex, pc := h'.pc, stream := h'.stream } := by
  rw [hself]

/-- A call goes on after a critical section in which nothing was transferred. -/
theorem Streaming.goes {x : FileActiveStatus} (hs : Streaming cfg G D V n a before start h w)
    (hcoherent : Coherent cfg G' D' V' n w') (hfiles : w'.files = w.files.set n h')
    (hhistory : w'.history = w.history) (hcontent : G'.content = G.content) (hsteady : h.Steady x)
    (hself : h' = { x with loadMutex := h'.loadMutex, pc := h'.pc })
    (hahead : h'.pc.ahead = h.pc.ahead) (hstage : Stage cfg G' D' V' w' h' a start h'.pc) :
    GoesOn cfg n a before start h.fileId w w' := by
  have hfile : h'.fileId = h.fileId := by
    rw [hself]
    exact hsteady.fileId
  have hstream : h'.stream = h.stream := by
    rw [hself]
    exact hsteady.stream
  have hpos : h'.pos = h.pos := by
    rw [hself]
    exact hsteady.pos
  have hwrite : h'.isWrite = h.isWrite := by
    rw [hself]
    exact hsteady.isWrite
  refine ⟨hhistory, G', D', V', h', hfiles, hfile, hcoherent, ?_, ?_, ?_, ?_, ?_, hstage⟩
  · rw [hfiles]
    exact List.getElem?_set_self (List.getElem?_eq_some_iff.mp hs.handle).1
  · rw [hself]
    exact hsteady.activeId.trans hs.active
  · rw [hself]
    exact hsteady.isDelete.trans hs.spares
  · rw [hfile, hcontent]
    exact hs.others
  · rw [hfile, hcontent, hahead]
    refine hs.progress.congr hpos hwrite (by rw [hstream]) (by rw [hstream]) (by rw [hstream])
      (by rw [hstream]) (by rw [hstream]) (by rw [hstream]) ?_
    rw [hstream, hpos]
    exact hs.progress.pos

/-! ## acquireNewBlocks -/

theorem afterAcquire_pc (caller : Caller) (h : FileActiveStatus) :
    (FileActiveStatus.afterAcquire caller h).pc = .extend ∧ caller = .extend ∨
      (FileActiveStatus.afterAcquire caller h).pc = .activate caller ∧ caller ≠ .extend := by
  cases caller with
  | extend => exact Or.inl ⟨rfl, rfl⟩
  | preActivate counter num => exact Or.inr ⟨rfl, by simp⟩
  | wait => exact Or.inr ⟨rfl, by simp⟩

/-- After a critical section of `acquireNewBlocks` the call goes on, with the next round or with
the block that it was made for. -/
theorem Streaming.round {caller : Caller} {loop : EvictLoop} {own' : Nat → Role}
    {es : List LogEntry}
    {R' : View} {c₁ c₂ : Ctx} {gone : Option Victim} {u : Unit}
    (hs : Streaming cfg G none V n a before start h w) (hreg : w.Registered)
    (hh : Attends G w h a k done pending R)
    (hd : (w.site cfg G h a k hs.active hh.linked hs.coherent.agrees.linked).Desk
      (G.sizes cfg.localBucketSize) V' own' es R' c₁)
    (hstays : Stays (Site.withoutVictim G.own gone) own' R R') (heased : Site.Eased h c₁.self)
    (hevicts : Site.Evicts (G.sizes cfg.localBucketSize) V' loop)
    (hgone : ∀ v, gone = some v → (G.own v.bucket).spot = some (v.file, v.index) ∧
      w.oss v.file (some v.index) = some (G.image cfg.localBucketSize none v.file v.index))
    (hleft : 0 < h.stream.bytesLeft) (hmutex : h.loadMutex = true)
    (hcur : h.stream.curBlockId = h.pos / cfg.localBucketSize) (htarget : Target cfg h caller)
    (hround : FileActiveStatus.afterEvictRound caller loop c₁ = .ok u c₂) (hahead :
    h.pc.ahead = 0) :
    GoesOn cfg n a before start h.fileId w
      { w.setFile n c₂.self with shm := c₂.shm, folder := c₂.folder, oss := c₂.oss } := by
  obtain ⟨hc₂, hpc⟩ := afterEvictRound_ok hround
  obtain ⟨pc', rfl⟩ : ∃ pc', c₂ = { c₁ with self := { c₁.self with pc := pc' } } := ⟨_, hc₂⟩
  have hsteady : h.Steady c₁.self := hd.sight.steady
  let h' : FileActiveStatus := { c₁.self with pc := pc' }
  have hlength : h'.blockArray.length = h.blockArray.length := by
    change c₁.self.blockArray.length = h.blockArray.length
    rw [hd.sight.shadows.length, hstays.length, hh.follows.length hh.quiet]
  have heof : h'.eof = h.eof := eof_of_desk hs.coherent.agrees.linked hs.active hh.linked hd
  have hstream : h'.stream = h.stream := hsteady.stream
  have hpos : h'.pos = h.pos := hsteady.pos
  have hmutex' : h'.loadMutex = true := hsteady.loadMutex.trans hmutex
  have hleft' : 0 < h'.stream.bytesLeft := by rw [hstream]; exact hleft
  have hcur' : h'.stream.curBlockId = h'.pos / cfg.localBucketSize := by
      rw [hstream, hpos]; exact hcur
  have htarget' : Target cfg h' caller :=
    htarget.congr heased.keys heased.loading hsteady.isWrite hlength heof (by rw [hstream])
  let w' : World := { w.setFile n h' with shm := c₁.shm, folder := c₁.folder, oss := c₁.oss }
  have hworked : Worked n c₁ h' w w' := ⟨rfl, rfl, rfl, rfl⟩
  have hcoherent :=
    hs.coherent.stays hreg hs.handle hs.active hh hd hstays hgone heased.loading hworked hpos
    rfl hd.store rfl
  have hnone : loop.evicting = false → V' = none := by
    intro hidle
    rcases hevicts with ⟨-, hv⟩ | ⟨hevicting, -⟩
    · exact hv
    · rw [hidle] at hevicting
      cases hevicting
  have hstage : Stage cfg { G with own := own' } none V' { w.setFile n h' with
      shm := c₁.shm, folder := c₁.folder, oss := c₁.oss } h' a start h'.pc ∧ h'.pc.ahead = 0 := by
    change Stage cfg { G with own := own' } none V' _ h' a start pc' ∧ pc'.ahead = 0
    have hpc : loop.evicting = true ∧ pc' = .evictRead caller loop ∨
        loop.evicting = false ∧ (pc' = .evictFinish caller loop ∨
          pc' = (FileActiveStatus.afterAcquire caller c₁.self).pc) := hpc
    rcases hpc with ⟨hevicting, hpc⟩ | ⟨hidle, hpc | hpc⟩
    · rw [hpc]
      exact ⟨⟨rfl, hleft', hmutex', hcur', htarget', hevicting, hevicts⟩, rfl⟩
    · rw [hpc]
      refine ⟨⟨rfl, hleft', hmutex', hcur', htarget', hevicts, fun v hv => ?_⟩, rfl⟩
      rw [hnone hidle] at hv
      cases hv
    · rw [hpc]
      rcases afterAcquire_pc caller c₁.self with ⟨heq, rfl⟩ | ⟨heq, hne⟩
      · rw [heq]
        exact ⟨⟨rfl, hnone hidle, hleft', hmutex', hcur', htarget'⟩, rfl⟩
      · rw [heq]
        exact ⟨⟨rfl, hnone hidle, hleft', hmutex', hcur', hne, htarget'⟩, rfl⟩
  exact hs.goes hcoherent rfl rfl rfl hsteady rfl (hstage.2.trans hahead.symm) hstage.1

/-- The first critical section of `acquireNewBlocks`. -/
theorem Streaming.acquire {caller : Caller} (hs : Streaming cfg G D V n a before start h w)
    (hreg : w.Registered) (hpc : h.pc = .acquire caller) (hstep : w.stepFile cfg n h = some w')
    (hcalm : Calm w') : GoesOn cfg n a before start h.fileId w w' := by
  obtain ⟨k, done, pending, R, hh, -⟩ := hs.attends
  have hstage := hs.stage
  rw [hpc] at hstage
  obtain ⟨rfl, rfl, hleft, hmutex, hcur, htarget⟩ := hstage
  simp only [stepFile, hpc, Option.some.injEq] at hstep
  rw [← hstep] at hcalm
  obtain ⟨u, c₂, hrun, heq⟩ := runFile_returns hcalm
  rw [← hstep, heq]
  obtain ⟨loop, c₁, hacquire, hround⟩ := Library.bind_ok hrun
  have hseat := hs.coherent.agrees.seat hs.handle hs.active hh
  obtain ⟨own', es, R', V', hd, hstays, heased, hevicts⟩ := hseat.acquireFirst hacquire
  have hkeeps : Stays (Site.withoutVictim G.own none) own' R R' := hstays
  exact hs.round hreg hh hd hkeeps heased hevicts (fun v hv => by cases hv) hleft hmutex hcur
    htarget hround (by rw [hpc]; rfl)

/-- The victim stores its block. -/
theorem Streaming.victim {v : Victim} (hs : Streaming cfg G D (some v) n a before start h w) :
    (G.own v.bucket).spot = some (v.file, v.index) := by
  have hvictim : G.own v.bucket = .victim v.file v.index a :=
    (hs.coherent.agrees.victims _ _ _ _).mpr ⟨rfl, h, hs.handle, hs.active⟩
  rw [hvictim]
  rfl

theorem evicting_victim {sizes : Sizes} {loop : EvictLoop} (hevicts : Site.Evicts sizes V loop)
    (hevicting : loop.evicting = true) : ∃ v, V = some v ∧ Site.VictimOf sizes loop v := by
  rcases hevicts with ⟨hidle, -⟩ | ⟨-, hv⟩
  · rw [hidle] at hevicting
    cases hevicting
  · exact hv

/-- The victim is read from the local space. -/
theorem Streaming.evictRead {caller : Caller} {loop : EvictLoop}
    (hs : Streaming cfg G D V n a before start h w) (hpc : h.pc = .evictRead caller loop)
    (hstep : w.stepFile cfg n h = some w') (hcalm : Calm w') :
    GoesOn cfg n a before start h.fileId w w' := by
  have hstage := hs.stage
  rw [hpc] at hstage
  obtain ⟨rfl, hleft, hmutex, hcur, htarget, hevicting, hevicts⟩ := hstage
  obtain ⟨v, rfl, hv⟩ := evicting_victim hevicts hevicting
  simp only [stepFile, hpc, Option.some.injEq] at hstep
  cases hread : w.evictRead cfg loop.evictBlockInfo with
  | error e =>
      rw [hread] at hstep
      subst hstep
      obtain ⟨value, data, hout⟩ := hcalm _ (List.mem_append_right _ (List.mem_singleton_self _))
      cases hout
  | ok buffer =>
      rw [hread] at hstep
      subst hstep
      have hbuffer : buffer = G.image cfg.localBucketSize none v.file v.index := by
        simp only [World.evictRead, hv.bucket] at hread
        split at hread
        · cases hread
          rw [hv.size]
          exact hs.coherent.kept _ _ _ hs.victim
        · cases hread
      exact hs.turns rfl (by rw [hpc]; rfl)
        ⟨rfl, hleft, hmutex, hcur, htarget.congr (fun _ hk => hk) rfl rfl rfl rfl rfl, hevicting,
          hevicts, fun v' hv' => by cases hv'; exact hbuffer⟩

/-- An object is stored: blocks that are in no bucket stay where they are. -/
theorem Uploaded.put {f : FileId} {i b : Nat} {data : List UInt8} (hw : Uploaded cfg G D w)
    (hspot : (G.own b).spot = some (f, i)) (hfolder : w'.folder = w.folder)
    (htasks : w'.tasks = w.tasks) (hoss : w'.oss = w.oss.put f (some i) data) :
    Uploaded cfg G D w' := by
  intro g k hk j hj hnowhere
  rw [hfolder] at hk
  have hne : ¬ (g = f ∧ some j = some i) := by
    rintro ⟨rfl, hji⟩
    obtain rfl := Option.some.inj hji
    exact hnowhere b hspot
  rw [hoss, htasks, ObjectStore.put, if_neg hne]
  exact hw g k hk j hj hnowhere

/-- The victim is stored as an object. -/
theorem Streaming.evictPut {caller : Caller} {loop : EvictLoop} {buffer : List UInt8}
    (hs : Streaming cfg G D V n a before start h w)
    (hpc : h.pc = .evictPut caller loop buffer) (hstep : w.stepFile cfg n h = some w') :
    GoesOn cfg n a before start h.fileId w w' := by
  have hstage := hs.stage
  rw [hpc] at hstage
  obtain ⟨rfl, hleft, hmutex, hcur, htarget, hevicting, hevicts, hbuffer⟩ := hstage
  obtain ⟨v, rfl, hv⟩ := evicting_victim hevicts hevicting
  simp only [stepFile, hpc, Option.some.injEq] at hstep
  subst hstep
  let h' : FileActiveStatus := { h with pc := .evictFinish caller loop }
  let w' : World := { w.setFile n h' with
    oss := w.oss.put loop.evictBlockInfo.fileId loop.evictBlockInfo.blockId buffer }
  have hput : w'.oss = w.oss.put v.file (some v.index) buffer := by
    change w.oss.put _ _ buffer = _
    rw [hv.file, hv.index]
  have hstored : w'.oss v.file (some v.index) =
      some (G.image cfg.localBucketSize none v.file v.index) := by
    rw [hput, ← hbuffer v rfl]
    simp [ObjectStore.put]
  have hcoherent : Coherent cfg G none (some v) n w' :=
    hs.coherent.touched hs.handle rfl rfl rfl rfl
    (hs.coherent.uploaded.put hs.victim rfl rfl hput) rfl
      (.of_thread rfl) hs.pos_le
  refine ⟨rfl, G, none, some v, h', rfl, rfl, hcoherent, ?_, hs.active, hs.spares, hs.others,
    ?_, ?_⟩
  · exact List.getElem?_set_self (List.getElem?_eq_some_iff.mp hs.handle).1
  · have hprogress := hs.progress
    rw [hpc] at hprogress
    exact hprogress.congr rfl rfl rfl rfl rfl rfl rfl rfl hs.progress.pos
  · refine ⟨rfl, hleft, hmutex, hcur, htarget.congr (fun _ hk => hk) rfl rfl rfl rfl rfl,
      hevicts, ?_⟩
    intro v' hv'
    cases hv'
    exact hstored

/-- The victim becomes a bucket of the handle, and the next round begins. -/
theorem Streaming.evictFinish {caller : Caller} {loop : EvictLoop}
    (hs : Streaming cfg G D V n a before start h w) (hreg : w.Registered)
    (hpc : h.pc = .evictFinish caller loop)
    (hstep : w.stepFile cfg n h = some w') (hcalm : Calm w') :
    GoesOn cfg n a before start h.fileId w w' := by
  obtain ⟨k, done, pending, R, hh, -⟩ := hs.attends
  have hstage := hs.stage
  rw [hpc] at hstage
  obtain ⟨rfl, hleft, hmutex, hcur, htarget, hevicts, hstored⟩ := hstage
  simp only [stepFile, hpc, Option.some.injEq] at hstep
  rw [← hstep] at hcalm
  obtain ⟨u, c₂, hrun, heq⟩ := runFile_returns hcalm
  rw [← hstep, heq]
  obtain ⟨loop', c₁, hacquire, hround⟩ := Library.bind_ok hrun
  have hseat := hs.coherent.agrees.seat hs.handle hs.active hh
  obtain ⟨own', es, R', V', hd, hstays, heased, hevicts'⟩ := hseat.acquireNext hevicts hacquire
  refine hs.round hreg hh hd hstays heased hevicts' ?_ hleft hmutex hcur htarget hround
    (by rw [hpc]; rfl)
  rintro v rfl
  exact ⟨hs.victim, hstored v rfl⟩

/-! ## extendOneBlock, activateBlock and getCurBlockInfo -/

/-- A handle with a preallocated bucket has room in its cache. -/
theorem room_of_metered (hmetered : h.Metered) (hpre : h.preAllocatedBuckets ≠ []) :
    h.lruCache.size < h.lruCache.maxSize := by
  have hbound : h.lruCache.size + h.preAllocatedBuckets.length + h.loadingBuckets.length ≤
      h.lruCache.maxSize := hmetered.fits.1
  have hpos : 0 < h.preAllocatedBuckets.length := List.length_pos_iff.mpr hpre
  omega

/-- All parts agree after a block was added to the file. -/
theorem Coherent.extended {b : Nat} {es : List LogEntry} {R' : View} {c' : Ctx}
    (hw : Coherent cfg G none V n w) (hreg : w.Registered) (hn : w.files[n]? = some h)
    (ha : h.activeId = some a) (hh : Attends G w h a k done pending R)
    (he : (w.site cfg G h a k ha hh.linked hw.agrees.linked).Extended (G.sizes cfg.localBucketSize)
      V G.own R (w.ctx h) c' b es R') (hworked : Worked n c' h' w w') (hpos : h'.pos = h.pos)
    (hspace : w'.space = w.space) (hoss : w'.oss = w.oss) (htasks : w'.tasks = w.tasks) :
    Coherent cfg (G.extend h.fileId a b) none V n w' := by
  have hspare : G.own b = .spare a h.fileId := he.spare
  have hcount : R.blockArray.length = G.blocks h.fileId :=
    hw.agrees.length hh.linked hh.follows.content hh.follows.replayed
  have hd := he.desk
  rw [hcount] at hd
  have heof : h'.eof = h.eof := by
    rw [hworked.self]
    exact eof_of_desk hw.agrees.linked ha hh.linked hd
  have hlevel := hw.agrees.level h.fileId
  have hempty : page cfg.localBucketSize (G.content h.fileId) (G.blocks h.fileId) = [] :=
    List.eq_nil_of_length_eq_zero hlevel.behind
  -- the new block is the only one that is stored elsewhere than before
  have hspots : ∀ c f i, ((G.extend h.fileId a b).own c).spot = some (f, i) ↔
      c = b ∧ f = h.fileId ∧ i = G.blocks h.fileId ∨ (G.own c).spot = some (f, i) := by
    intro c f i
    change (Function.update G.own b _ c).spot = some (f, i) ↔ _
    rw [Role.spot_update]
    constructor
    · rintro (⟨rfl, hspot⟩ | ⟨-, hspot⟩)
      · simp only [Role.spot, Role.place, Option.map_some, Option.some.injEq,
          Prod.mk.injEq] at hspot
        exact Or.inl ⟨rfl, hspot.1.symm, hspot.2.symm⟩
      · exact Or.inr hspot
    · rintro (⟨rfl, rfl, rfl⟩ | hspot)
      · exact Or.inl ⟨rfl, rfl⟩
      · refine Or.inr ⟨?_, hspot⟩
        rintro rfl
        rw [hspare] at hspot
        cases hspot
  have hblocks : ∀ f, G.blocks f ≤ (G.extend h.fileId a b).blocks f := by
    intro f
    by_cases hf : f = h.fileId
    · subst hf
      simp [Account.extend]
    · simp [Account.extend, hf]
  refine ⟨hw.agrees.worked hreg hn ha hh.linked hd hworked.files
    hworked.shm hworked.folder hworked.self ?_ ⟨fun _ _ => rfl, fun g hg => ?_⟩ ?_ ?_, ?_, ?_, ?_⟩
  · rw [hpos, heof]
    exact hh.pos
  · exact Function.update_of_ne hg _ _
  · exact heof.trans hh.eof
  · rw [he.length, hcount]
    exact Function.update_self _ _ _
  · intro c f i hspot
    rw [hspace]
    rcases (hspots c f i).mp hspot with ⟨rfl, rfl, rfl⟩ | hspot
    · change slice w.space _ (page _ (G.content _) _).length = page _ (G.content _) _
      rw [hempty]
      rfl
    · exact hw.kept c f i hspot
  · intro f k' hk' i hi hnowhere
    have hbefore : ∀ c, (G.own c).spot ≠ some (f, i) :=
      fun c hspot => hnowhere c ((hspots c f i).mpr (Or.inr hspot))
    have hlt : i < G.blocks f := by
      by_cases hf : f = h.fileId
      · subst hf
        have hle : i < G.blocks h.fileId + 1 := by simpa [Account.extend] using hi
        refine Nat.lt_of_le_of_ne (Nat.le_of_lt_succ hle) ?_
        rintro rfl
        exact hnowhere b ((hspots b _ _).mpr (Or.inl ⟨rfl, rfl, rfl⟩))
      · simpa [Account.extend, hf] using hi
    rw [hworked.folder, hd.log.grown.links] at hk'
    rw [hoss, htasks]
    exact hw.uploaded f k' hk' i hlt hbefore
  · refine hw.ledger.congr htasks (fun x hx => ?_) ⟨fun c e f i => ?_, hblocks,
      fun c f i hi hspot => ?_, fun _ _ _ _ _ => rfl, fun _ _ _ _ _ hslice => hspace ▸ hslice⟩
    · obtain rfl : h = x := Option.some.inj (hn.symm.trans hx)
      refine ⟨h', ?_, ?_, ?_⟩
      · rw [hworked.files, List.getElem?_set_self (List.getElem?_eq_some_iff.mp hn).1]
      · rw [hworked.self]
        exact hd.sight.steady.fileId
      · rw [hworked.self]
        exact hd.sight.steady.activeId
    · by_cases hc : c = b
      · subst hc
        simp [Account.extend, hspare]
      · simp [Account.extend, hc]
    · rcases (hspots c f i).mp hspot with ⟨rfl, rfl, rfl⟩ | hspot
      · exact absurd hi (Nat.lt_irrefl _)
      · exact hspot

theorem mapFile_set {x : FileActiveStatus} {g : FileActiveStatus → FileActiveStatus}
    (hn : w.files[n]? = some h) (hfiles : w'.files = w.files.set n x) :
    (w'.mapFile n g).files = w.files.set n (g x) := by
  change w'.files.modify n g = _
  rw [hfiles]
  apply List.ext_getElem?
  intro j
  rw [List.getElem?_modify, List.getElem?_set, List.getElem?_set]
  have hlt := (List.getElem?_eq_some_iff.mp hn).1
  by_cases hj : n = j
  · subst hj
    simp [hlt]
  · simp [hj]

/-- A block is added to the file. -/
theorem Streaming.extend (hs : Streaming cfg G D V n a before start h w) (hreg : w.Registered)
    (hmetered : h.Metered) (hpc : h.pc = .extend) (hstep : w.stepFile cfg n h = some w')
    (hcalm : Calm w') : GoesOn cfg n a before start h.fileId w w' := by
  obtain ⟨k, done, pending, R, hh, -⟩ := hs.attends
  have hstage := hs.stage
  rw [hpc] at hstage
  obtain ⟨rfl, rfl, hleft, hmutex, hcur, hwrite, hbehind⟩ := hstage
  simp only [stepFile, hpc, Option.some.injEq] at hstep
  rw [← hstep] at hcalm
  obtain ⟨u, c', hrun, heq⟩ := runFile_returns hcalm
  rw [← hstep, heq]
  have hpre : h.preAllocatedBuckets ≠ [] := by
    have hstaged := hmetered.staged
    rw [hpc] at hstaged
    exact hstaged
  have hlength := hh.follows.length hh.quiet
  have hseat := hs.coherent.agrees.seat hs.handle hs.active hh
  have hlevel := (hseat.level trivial).2
  obtain ⟨b, es, R', he⟩ := hseat.extendOneBlock (fun _ => hwrite) hlength hlevel.behind
    (fun _ => hlength ▸ hbehind) (room_of_metered hmetered hpre) hrun
  have hsteady : h.Steady c'.self := he.desk.sight.steady
  let h' : FileActiveStatus := c'.self.leaveAdjust
  let w₁ : World := { w.setFile n c'.self with shm := c'.shm, folder := c'.folder, oss := c'.oss }
  have hfiles : (w₁.mapFile n FileActiveStatus.leaveAdjust).files = w.files.set n h' :=
    mapFile_set hs.handle rfl
  have hcoherent := hs.coherent.extended hreg
    hs.handle hs.active hh he ⟨hfiles, rfl, rfl, rfl⟩ hsteady.pos rfl he.desk.store rfl
  refine hs.goes hcoherent hfiles rfl rfl hsteady (leaveAdjust_self _) ?_ ?_
  · rw [hpc]
    exact leaveAdjust_ahead _
  · refine stage_leaveAdjust ?_ ?_ ?_
    · have hbooks := he.desk.books
      rw [hs.coherent.agrees.length hh.linked hh.follows.content hh.follows.replayed] at hbooks
      rw [hsteady.fileId]
      exact hbooks
    · rw [hsteady.stream]
      exact hleft
    · rw [hsteady.stream, hsteady.pos]
      exact hcur

/-- All parts agree after a load was started. -/
theorem Coherent.startsLoad {b i : Nat} {es : List LogEntry} {R' : View} {c' : Ctx}
    (hw : Coherent cfg G D V n w) (hreg : w.Registered) (hn : w.files[n]? = some h)
    (ha : h.activeId = some a) (hh : Attends G w h a k done pending R)
    (hspare : G.own b = .spare a h.fileId)
    (hd : (w.site cfg G h a k ha hh.linked hw.agrees.linked).Desk (G.sizes cfg.localBucketSize) V
      (Function.update G.own b (.loading a h.fileId i)) es R' c')
    (hlength : R'.blockArray.length = R.blockArray.length)
    (hremote : i < G.blocks h.fileId ∧ ∀ c, (G.own c).spot ≠ some (h.fileId, i))
    (hworked : Worked n c' h' w w') (hpos : h'.pos = h.pos) (hspace : w'.space = w.space)
    (hoss : w'.oss = w.oss)
    (htasks : w'.tasks = w.tasks ++
      [⟨n, ⟨h.fileId, some i, some b, invalidBlockOffset, 0, false⟩, .start⟩]) :
    Coherent cfg { G with own := Function.update G.own b (.loading a h.fileId i) } D V n w' := by
  let G' : Account := { G with own := Function.update G.own b (.loading a h.fileId i) }
  have heof : h'.eof = h.eof := by
    rw [hworked.self]
    exact eof_of_desk hw.agrees.linked ha hh.linked hd
  have hactive : h'.activeId = some a := by
    rw [hworked.self]
    exact hd.sight.steady.activeId.trans ha
  have hfile : h'.fileId = h.fileId := by
    rw [hworked.self]
    exact hd.sight.steady.fileId
  have hnew : w'.files[n]? = some h' := by
    rw [hworked.files, List.getElem?_set_self (List.getElem?_eq_some_iff.mp hn).1]
  have hspots : ∀ c, (G'.own c).spot = (G.own c).spot := by
    intro c
    by_cases hc : c = b
    · subst hc
      simp [G', hspare, Role.spot, Role.place]
    · simp [G', hc]
  have hroles : ∀ c e f j, G'.own c = .loading e f j ↔
      c = b ∧ e = a ∧ f = h.fileId ∧ j = i ∨ G.own c = .loading e f j := by
    intro c e f j
    by_cases hc : c = b
    · subst hc
      simp only [G', Function.update_self, hspare, Role.loading.injEq, true_and, reduceCtorEq,
        or_false]
      constructor
      · rintro ⟨rfl, rfl, rfl⟩
        exact ⟨rfl, rfl, rfl⟩
      · rintro ⟨rfl, rfl, rfl⟩
        exact ⟨rfl, rfl, rfl⟩
    · simp [G', hc]
  refine ⟨hw.agrees.worked hreg hn ha hh.linked hd hworked.files hworked.shm
    hworked.folder hworked.self ?_ (.of_same rfl rfl) ?_ ?_, ?_, ?_, ?_⟩
  · rw [hpos, heof]
    exact hh.pos
  · exact heof.trans hh.eof
  · rw [hlength]
    exact (hw.agrees.length hh.linked hh.follows.content hh.follows.replayed).symm
  · exact hw.kept.congr (fun c f j hspot => (hspots c).symm.trans hspot) rfl hspace
  · refine hw.uploaded.congr (fun f k' hk' => ?_) (fun _ _ _ => rfl)
      (fun c f j hspot => (hspots c).trans hspot)
      rfl hoss fun task htask f j hremoved => ⟨task, ?_, hremoved⟩
    · rw [hworked.folder, hd.log.grown.links] at hk'
      exact hk'
    · rw [htasks]
      exact List.mem_append_left _ htask
  · have hgoes : LoadsGoOn cfg G { G' with own := G.own } D D w w' :=
      ⟨fun _ _ _ _ => Iff.rfl, fun _ => Nat.le_refl _, fun _ _ _ _ hspot => hspot,
        fun _ _ _ _ _ => rfl, fun _ _ _ _ _ hslice => hspace ▸ hslice⟩
    refine ⟨fun task htask => ?_, ?_, fun c e f j hown => ?_⟩
    · rw [htasks, List.mem_append, List.mem_singleton] at htask
      rcases htask with htask | rfl
      · obtain ⟨x, e, c, j, hcarries⟩ := hw.ledger.task task htask
        obtain rfl : h = x := Option.some.inj (hn.symm.trans hcarries.handle)
        refine ⟨h', e, c, j, hcarries.owner, hnew, ?_, ?_, ?_, ?_, ?_⟩
        · rw [hactive, ← ha]
          exact hcarries.active
        · rw [hfile]
          exact hcarries.info
        · rw [hfile]
          exact (hroles _ _ _ _).mpr (Or.inr hcarries.role)
        · rw [hfile]
          exact ⟨hcarries.remote.1, fun d hspot => hcarries.remote.2 d
            ((hspots d).symm.trans hspot)⟩
        · rw [hfile]
          have hphase := hcarries.phase.congr hcarries.role hgoes
          exact hphase
      · refine ⟨h', a, b, i, rfl, hnew, hactive, ?_, ?_, ?_, trivial⟩
        · rw [hfile]
        · rw [hfile]
          exact (hroles _ _ _ _).mpr (Or.inl ⟨rfl, rfl, rfl, rfl⟩)
        · rw [hfile]
          exact ⟨hremote.1, fun d hspot => hremote.2 d ((hspots d).symm.trans hspot)⟩
    · rw [htasks, List.map_append, List.map_singleton]
      refine List.nodup_append.mpr ⟨hw.ledger.nodup, List.nodup_singleton _, ?_⟩
      rintro x hx y hy rfl
      obtain rfl := List.mem_singleton.mp hy
      obtain ⟨task, htask, hbucket⟩ := List.mem_map.mp hx
      obtain ⟨x, e, c, j, hcarries⟩ := hw.ledger.task task htask
      rw [hcarries.info] at hbucket
      obtain rfl := Option.some.inj hbucket
      have hrole := hcarries.role
      rw [hspare] at hrole
      cases hrole
    · rw [htasks]
      rcases (hroles c e f j).mp hown with ⟨rfl, -, -, -⟩ | hown
      · exact ⟨_, List.mem_append_right _ (List.mem_singleton_self _), rfl⟩
      · obtain ⟨task, htask, hbucket⟩ := hw.ledger.listed c e f j hown
        exact ⟨task, List.mem_append_left _ htask, hbucket⟩

/-- Back in `adjustActiveBlock`, after the block that `activateBlock` was called for. -/
theorem afterActivate_self (caller : Caller) (activated : Bool) (h : FileActiveStatus) :
    FileActiveStatus.afterActivate caller activated h = { h with
      loadMutex := (FileActiveStatus.afterActivate caller activated h).loadMutex
      pc := (FileActiveStatus.afterActivate caller activated h).pc } ∧
    (FileActiveStatus.afterActivate caller activated h).pc.ahead = 0 := by
  cases caller with
  | extend => exact ⟨rfl, leaveAdjust_ahead h⟩
  | preActivate counter num => exact preActivate_self _ _ _ _
  | wait =>
      refine ⟨rfl, ?_⟩
      cases activated with
      | true => rfl
      | false => rfl

theorem stage_afterActivate {caller : Caller} {activated : Bool}
    (hbooks : Books (fun b => (G.own b).holdOf a) h.fileId h) (hleft : 0 < h.stream.bytesLeft)
    (hmutex : h.loadMutex = true) (hcur : h.stream.curBlockId = h.pos / cfg.localBucketSize)
    (hready : caller = .wait → activated = true → h.stream.curBlockId ∈ h.lruCache.keys) :
    Stage cfg G none none w (FileActiveStatus.afterActivate caller activated h) a start
      (FileActiveStatus.afterActivate caller activated h).pc := by
  cases caller with
  | extend => exact stage_leaveAdjust hbooks hleft hcur
  | preActivate counter num => exact stage_preActivate hbooks hleft hmutex hcur
  | wait =>
      cases activated with
      | false => exact ⟨rfl, rfl, hleft, hcur⟩
      | true =>
          obtain ⟨b, hb⟩ := atBlock_of_key hbooks hcur (hready rfl rfl)
          exact ⟨rfl, rfl, hleft, b, hb.current, hb.held⟩

/-- The block that `activateBlock` is called for. -/
def activated (h : FileActiveStatus) : Caller → Nat
  | .preActivate counter _ => h.stream.curBlockId + counter
  | _ => h.stream.curBlockId

theorem Target.missing {caller : Caller} (ht : Target cfg h caller) (hcaller : caller ≠ .extend) :
    Missing h (activated h caller) := by
  cases caller with
  | extend => exact absurd rfl hcaller
  | preActivate counter num => exact ht
  | wait => exact ht

/-- Nobody evicts while no victim is known. -/
theorem Agrees.calm (hw : Agrees cfg G none n w) (b : Nat) (f : FileId) (i e : Nat) :
    G.own b ≠ .victim f i e := by
  intro hvictim
  obtain ⟨hnone, -⟩ := (hw.victims b f i e).mp hvictim
  cases hnone

/-- A block that is not local is known to the file, and in no bucket. -/
theorem remote_of_log {i : Nat} {y : Block} (hw : Agrees cfg G V n w)
    (hh : Attends G w h a k done pending R) (ha : h.activeId = some a)
    (hy : R.blockArray[i]? = some y) (hlocal : y.isLocal = false) :
    i < G.blocks h.fileId ∧ ∀ c, (G.own c).spot ≠ some (h.fileId, i) := by
  constructor
  · rw [← hw.length hh.linked hh.follows.content hh.follows.replayed]
    exact (List.getElem?_eq_some_iff.mp hy).1
  · intro c hspot
    obtain ⟨state, hplace⟩ := Role.spot_eq_some.mp hspot
    have hatlas := hw.atlas ha hh.linked hh.follows.content hh.follows.replayed
    refine hatlas.mirrors.nowhere (i := i) (fun z hz => ?_) c state hplace
    obtain rfl : y = z := Option.some.inj (hy.symm.trans hz)
    exact hlocal

/-- A block is activated, or its load is started. -/
theorem Streaming.activate {caller : Caller} (hfreed : cfg.FreedIntact)
    (hs : Streaming cfg G D V n a before start h w) (hreg : w.Registered)
    (hpc : h.pc = .activate caller) (hstep : w.stepFile cfg n h = some w') (hcalm : Calm w') :
    GoesOn cfg n a before start h.fileId w w' := by
  obtain ⟨k, done, pending, R, hh, -⟩ := hs.attends
  have hstage := hs.stage
  rw [hpc] at hstage
  obtain ⟨rfl, rfl, hleft, hmutex, hcur, hcaller, htarget⟩ := hstage
  have hmissing := htarget.missing hcaller
  simp only [stepFile, hpc, Option.some.injEq] at hstep
  have hstep : w.runFile n h (some h.stream.call)
      (FileActiveStatus.activateBlock cfg (activated h caller))
      (fun result w => (w.mapFile n
        (FileActiveStatus.afterActivate caller (isActivated result))).enqueue n result) =
          w' := hstep
  rw [← hstep] at hcalm
  obtain ⟨result, c', hrun, heq⟩ := runFile_returns hcalm
  rw [← hstep, heq]
  have hseat := hs.coherent.agrees.seat hs.handle hs.active hh
  obtain ⟨own', es, R', h₁, hd, heased, hactivates⟩ := hseat.activateBlock hfreed
    hs.coherent.agrees.calm hmissing.key hmissing.loading (Or.inl trivial) hrun
  have hsteady : h.Steady c'.self := hd.sight.steady
  let w₁ : World := { w.setFile n c'.self with shm := c'.shm, folder := c'.folder, oss := c'.oss }
  let g := FileActiveStatus.afterActivate caller (isActivated result)
  have hfiles : (w₁.mapFile n g).files = w.files.set n (g c'.self) := mapFile_set hs.handle rfl
  obtain ⟨hself, hahead⟩ := afterActivate_self caller (isActivated result) c'.self
  have hpos : (g c'.self).pos = h.pos := by
    refine Eq.trans ?_ hsteady.pos
    change (FileActiveStatus.afterActivate caller (isActivated result) c'.self).pos = _
    rw [hself]
  have hstage : ∀ (w₂ : World), (caller = .wait → isActivated result = true →
      h.stream.curBlockId ∈ c'.self.lruCache.keys) →
      Stage cfg { G with own := own' } none none w₂ (g c'.self) a start (g c'.self).pc := by
    intro w₂ hready
    refine stage_afterActivate (G := { G with own := own' }) ?_ ?_ ?_ ?_ ?_
    · rw [hsteady.fileId]
      exact hd.books
    · rw [hsteady.stream]
      exact hleft
    · exact hsteady.loadMutex.trans hmutex
    · rw [hsteady.stream, hsteady.pos]
      exact hcur
    · rw [hsteady.stream]
      exact hready
  have hgoes : ∀ {w₂ : World}, Coherent cfg { G with own := own' } none none n w₂ →
      w₂.files = w.files.set n (g c'.self) → w₂.history = w.history →
      (caller = .wait → isActivated result = true → h.stream.curBlockId ∈ c'.self.lruCache.keys) →
      GoesOn cfg n a before start h.fileId w w₂ := by
    intro w₂ hcoherent hfiles hhistory hready
    refine hs.goes hcoherent hfiles hhistory rfl hsteady hself ?_ (hstage w₂ hready)
    rw [hpc]
    exact hahead
  cases hactivates with
  | activated hstays hkeys hkey hloading =>
      refine hgoes ?_ hfiles rfl ?_
      · have hkeeps : Stays (Site.withoutVictim G.own none) own' R R' := hstays
        exact hs.coherent.stays hreg hs.handle hs.active hh hd hkeeps (fun v hv => by cases hv)
          (hloading.trans heased.loading) ⟨hfiles, rfl, rfl, thread_of_pc hself⟩ hpos rfl
            hd.store rfl
      · rintro rfl -
        exact hkey
  | starts hsame hy hstarts =>
      obtain ⟨y, hy, hlocal⟩ := hy
      cases hstarts with
      | startLoad hspare hown hcache =>
          subst hown
          have hremote := remote_of_log hs.coherent.agrees hh hs.active hy hlocal
          refine hgoes (hs.coherent.startsLoad hreg hs.handle hs.active hh hspare hd (by rw [hsame])
            hremote
            ⟨hfiles, rfl, rfl, thread_of_pc hself⟩ hpos rfl hd.store rfl) hfiles rfl ?_
          rintro - hactivated
          cases hactivated
      | loadingByOthers hown hhandle =>
          subst hown
          refine hgoes ?_ hfiles rfl ?_
          · have hkeeps : Stays (Site.withoutVictim G.own none) G.own R R' :=
              ⟨.refl _, by rw [hsame]⟩
            refine hs.coherent.stays hreg hs.handle hs.active hh hd hkeeps (fun v hv => by cases hv)
              ?_ ⟨hfiles, rfl, rfl, thread_of_pc hself⟩ hpos rfl hd.store rfl
            rw [hhandle]
            exact heased.loading
          · rintro - hactivated
            cases hactivated

/-- The block of the position is looked up. -/
theorem Streaming.ready (hs : Streaming cfg G D V n a before start h w) (hpc : h.pc = .ready)
    (hstep : w.stepFile cfg n h = some w') (hcalm : Calm w') :
    GoesOn cfg n a before start h.fileId w w' := by
  obtain ⟨k, done, pending, R, hh, -⟩ := hs.attends
  have hstage := hs.stage
  rw [hpc] at hstage
  obtain ⟨rfl, rfl, hleft, b, hb⟩ := hstage
  simp only [stepFile, hpc, Option.some.injEq] at hstep
  rw [← hstep] at hcalm
  obtain ⟨u, c', hrun, heq⟩ := runFile_returns hcalm
  rw [← hstep, heq]
  obtain ⟨y, hy, hbucket, hid, hlocal⟩ := hh.anchored b _ hb.held
  simp only [FileActiveStatus.getCurBlockInfo] at hrun
  obtain ⟨c₀, c₁, hget, hrun⟩ := Library.bind_ok hrun
  cases hget
  obtain ⟨z, c₁, hblock, hrun⟩ := Library.bind_ok hrun
  obtain ⟨rfl, hz⟩ := FileActiveStatus.blockAt_ok hblock
  obtain rfl : y = z := Option.some.inj (hy.symm.trans hz)
  obtain rfl := FileActiveStatus.modifySelf_ok hrun
  let h' : FileActiveStatus := { h with
    blockArray := h.blockArray.modify h.stream.curBlockId fun b =>
      { b with usageCount := wrap16 (b.usageCount + 1) }
    stream := { h.stream with
      needUpdate := false
      pos := h.pos
      blockInfo :=
        ⟨h.fileId, y.blockId, y.bucketId, (h.pos % cfg.localBucketSize : Nat), 0, y.isLocal⟩ }
    pc := .transfer }
  have htouches : h.Touches h' := by
    refine ⟨rfl, ?_⟩
    exact (Shadows.refl False h.blockArray).modify_left _ fun x z hxz =>
      ⟨hxz.bucketId, hxz.blockId, hxz.isLocal, hxz.state⟩
  have hcoherent : Coherent cfg G none none n (w.setFile n h') :=
    hs.coherent.touched hs.handle rfl rfl rfl rfl (hs.coherent.uploaded.same rfl rfl rfl) rfl
    htouches hh.pos
  refine ⟨rfl, G, none, none, h', rfl, rfl, hcoherent, ?_, hs.active, hs.spares, hs.others, ?_, ?_⟩
  · exact List.getElem?_set_self (List.getElem?_eq_some_iff.mp hs.handle).1
  · have hprogress := hs.progress
    rw [hpc] at hprogress
    exact hprogress.congr rfl rfl rfl rfl rfl rfl rfl rfl rfl
  · refine ⟨rfl, rfl, hleft, b, ⟨hb.current, hb.held⟩, ?_⟩
    change BlockInfo.mk h.fileId y.blockId y.bucketId _ 0 y.isLocal = _
    rw [hbucket, hid, hlocal]

end World

end Gopherwood
