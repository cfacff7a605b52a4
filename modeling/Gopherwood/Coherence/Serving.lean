/-
# A call is served

While one handle works and the others rest, every step of the system either leads
the call on or answers it, and then the answer is that of the flat files.
-/

import Gopherwood.Coherence.FlatFiles

namespace Gopherwood

open Library (page slice overwrite)

/-- Where a seek goes. -/
def Call.target (h : FileActiveStatus) : Call → Option Int
  | .seekSet pos => some pos
  | .seekCur pos => some (h.pos + pos)
  | .seekEnd pos => some (h.eof + pos)
  | _ => none

namespace World

variable {cfg : Config} {F : FlatFiles} {w w' : World} {n m : Nat} {h h' : FileActiveStatus}
variable {holder : Holder} {content : FileId → List UInt8} {f : FileId}

/-- The files of the system have the given content: an account with that content is coherent
with the state, with nothing drafted and nothing being evicted. -/
def Stores (cfg : Config) (content : FileId → List UInt8) (n : Nat) (w : World) : Prop :=
  ∃ G : Account, Coherent cfg G none none n w ∧ G.content = content

/-- No registered handle is of file `f`. -/
def Vacant (w : World) (f : FileId) : Prop :=
  ∀ (m : Nat) (x : FileActiveStatus) (e : Nat), w.files[m]? = some x → x.activeId = some e →
  x.fileId ≠ f

/-- Handle `m` rests where the calls have left it: its position is the cursor that the flat
files have for it. -/
structure AtRest (F : FlatFiles) (m : Nat) (x : FileActiveStatus) : Prop where
  pc : x.pc = .idle ∨ x.pc = .closed
  cursor : ∀ e, x.activeId = some e → x.pos = F.cursor m
  spares : ∀ e, x.activeId = some e → x.isDelete = false
  gone : x.pc = .closed → x.activeId = none

/-- What handle `n` is doing since `F` were the files. The files change for the
specification when the call answers, and until then the state is explained by those before
the call. -/
inductive Doing (cfg : Config) (F : FlatFiles) (n : Nat) (w : World) (h : FileActiveStatus) : Prop
  /-- The manifest is to be opened. -/
  | opens (hpc : h.pc = .openManifest) (hstores : Stores cfg F.content n w) (htasks : w.tasks = [])
      (hfresh : h.Fresh) (hvacant : w.Vacant h.fileId)
  /-- The handle is to be registered. -/
  | regists (k : Nat) (hpc : h.pc = .regist) (hstores : Stores cfg F.content n w) (htasks :
      w.tasks = [])
      (hfresh : h.Fresh) (hvacant : w.Vacant h.fileId) (hfd : h.fd = some ⟨k, 0⟩)
      (hlinked : w.folder.links h.fileId = some k)
  /-- Bytes are transferred. -/
  | streams (G : Account) (D : Option Draft) (V : Option Victim) (a : Nat)
      (hstreams : Streaming cfg G D V n a F.content (F.cursor n) h w)
  /-- The log is to be flushed. -/
  | flushes (a : Nat) (hpc : h.pc = .flush) (hstores : Stores cfg F.content n w) (hactive :
      h.activeId = some a)
      (hcursor : h.pos = F.cursor n) (hspares : h.isDelete = false)
  /-- The file is to be left. -/
  | closes (a : Nat) (isCancel : Bool) (hpc : h.pc = .close isCancel) (hstores :
      Stores cfg F.content n w)
      (htasks : w.tasks = []) (hactive : h.activeId = some a)
  /-- The objects of the file are to be deleted, if it is gone. -/
  | leaves (isCancel : Bool) (blocks : List Block) (hpc : h.pc = .deleteRemote isCancel blocks)
      (hstores : Stores cfg (F.answer n ⟨h.fileId, h.isDelete⟩ (some (.close isCancel))).2.content n
      w)
      (htasks : w.tasks = []) (hleft : h.activeId = none)
      (hremote : blocks = [] ∨ w.folder.links h.fileId = none)

/-- A step of handle `n` leads its call on, or answers it as the files `F` do. This is one
step of the simulation: most steps are silent, and the last one of a call serves it. -/
inductive Outcomes (cfg : Config) (F : FlatFiles) (n : Nat) (holder : Holder)
    (h' : FileActiveStatus) (w w' : World) : Prop
  | goes (hhistory : w'.history = w.history) (hdoing : Doing cfg F n w' h')
  | answers (call : Option Call) (outcome : Outcome) (F' : FlatFiles)
      (hhistory : w'.history = w.history ++ [⟨n, call, outcome⟩])
      (hanswer : F.answer n holder call = (outcome, F')) (hstores : Stores cfg F'.content n w')
      (hrest : AtRest F' n h')

/-- What a step of handle `n` does. -/
structure Serves (cfg : Config) (F : FlatFiles) (n : Nat) (h : FileActiveStatus) (w w' : World) :
    Prop where
  tagged : w'.Tagged
  next : ∃ h' : FileActiveStatus, w'.files = w.files.set n h' ∧ h'.fileId = h.fileId ∧
    h'.isDelete = h.isDelete ∧ Outcomes cfg F n ⟨h.fileId, h.isDelete⟩ h' w w'

theorem Stores.aside (hw : Stores cfg content n w) (htasks : w.tasks = [])
    (hsame : SameRegistered w w') (hshm : w'.shm = w.shm) (hfolder : w'.folder = w.folder)
    (hspace : w'.space = w.space) (hoss : w'.oss = w.oss) (htasks' : w'.tasks = []) :
    Stores cfg content m w' := by
  obtain ⟨G, hc, rfl⟩ := hw
  exact ⟨G, hc.aside htasks hsame hshm hfolder hspace htasks'
    (hc.uploaded.same hfolder hoss (htasks'.trans htasks.symm)), rfl⟩

theorem Vacant.of_same (hw : w.Vacant f) (hsame : SameRegistered w w') : w'.Vacant f :=
  fun m x e hm he => hw m x e (hsame.back m x e hm he) he

theorem links_mfOpen (d : ManifestFolder) (f : FileId) :
    (d.mfOpen f).1.links f = some (d.mfOpen f).2 := by
  unfold ManifestFolder.mfOpen
  split
  · next file hlink => exact hlink
  · exact if_pos rfl

/-- The manifest is opened. -/
theorem serves_openManifest (htagged : w.Tagged) (hn : w.files[n]? = some h)
    (hpc : h.pc = .openManifest) (hstores : Stores cfg F.content n w) (htasks : w.tasks = [])
    (hfresh : h.Fresh) (hvacant : w.Vacant h.fileId) (hstep : w.stepFile cfg n h = some w') :
    Serves cfg F n h w w' := by
  simp only [stepFile, hpc, Option.some.injEq] at hstep
  subst hstep
  obtain ⟨G, hc, hcontent⟩ := hstores
  let h' : FileActiveStatus :=
    { h with fd := some ⟨(w.folder.mfOpen h.fileId).2, 0⟩, pc := .regist }
  let w₁ : World := { w with folder := (w.folder.mfOpen h.fileId).1 }
  have hsame : SameRegistered w₁ { w.setFile n h' with folder := (w.folder.mfOpen h.fileId).1 } :=
    .of_set (w := w₁) hn rfl hfresh.activeId hfresh.activeId
  have hstores₁ : Stores cfg F.content n w₁ := ⟨G, hc.opened h.fileId, hcontent⟩
  refine ⟨htagged.stays hn rfl rfl rfl rfl rfl, h', rfl, rfl, rfl, .goes rfl (.regists
    (w.folder.mfOpen h.fileId).2 rfl (hstores₁.aside htasks hsame rfl rfl rfl rfl htasks) htasks
    ⟨hfresh.activeId, hfresh.shouldDestroy, hfresh.pos, hfresh.view, hfresh.preAllocated,
      hfresh.loading, hfresh.cache⟩ (Vacant.of_same (w := w₁) hvacant hsame) rfl (links_mfOpen
      w.folder h.fileId))⟩

/-- The handle is registered; if it is to destroy the file, it goes on to close it. -/
theorem serves_regist {k : Nat} (hreg : w.Registered) (htagged : w.Tagged)
    (hn : w.files[n]? = some h) (hpc : h.pc = .regist) (hstores : Stores cfg F.content n w)
    (htasks : w.tasks = []) (hfresh : h.Fresh) (hvacant : w.Vacant h.fileId)
    (hfd : h.fd = some ⟨k, 0⟩) (hlinked : w.folder.links h.fileId = some k)
    (hstep : w.stepFile cfg n h = some w') (hcalm : Calm w') : Serves cfg F n h w w' := by
  simp only [stepFile, hpc, Option.some.injEq] at hstep
  obtain ⟨G, hc, hcontent⟩ := hstores
  cases hrun : FileActiveStatus.registInSharedMem (w.ctx h) with
  | error e c =>
      rw [show (⟨w.shm, w.folder, w.oss, h⟩ : Ctx) = w.ctx h from rfl, hrun] at hstep
      subst hstep
      obtain ⟨value, data, hout⟩ := hcalm ⟨n, none, .threw e⟩
        (List.mem_append_right _ (List.mem_singleton.mpr rfl))
      cases hout
  | ok u c =>
      rw [show (⟨w.shm, w.folder, w.oss, h⟩ : Ctx) = w.ctx h from rfl, hrun] at hstep
      dsimp only at hstep
      cases hdelete : h.isDelete with
      | true =>
          rw [hdelete, if_pos rfl] at hstep
          have hfiles : w'.files = w.files.set n { c.self with pc := .close false } := by
            rw [← hstep]
            rfl
          have hworld : w'.shm = c.shm ∧ w'.folder = c.folder ∧ w'.oss = c.oss ∧
              w'.space = w.space ∧ w'.tasks = w.tasks ∧ w'.history = w.history := by
            rw [← hstep]
            exact ⟨rfl, rfl, rfl, rfl, rfl, rfl⟩
          obtain ⟨hshm, hfolder, hoss, hspace, htasks', hhistory⟩ := hworld
          rw [htasks] at htasks'
          obtain ⟨a, hactive, hfile, hsame, -, htags, hcoherent⟩ :=
            hc.registers htasks hreg htagged hn hfresh
            hfd hlinked hvacant hrun hfiles rfl hshm hfolder hoss hspace htasks'
          refine ⟨htagged.joins hn hfresh.activeId hfiles hfile hactive ?_, _, hfiles, hfile, hsame,
            .goes hhistory (.closes a false rfl ⟨G, hcoherent, hcontent⟩ htasks' hactive)⟩
          rw [hsame]
          exact htags
      | false =>
          rw [hdelete, if_neg Bool.false_ne_true] at hstep
          have hfiles : w'.files = w.files.set n { c.self with pc := .idle } := by
            rw [← hstep]
            rfl
          have hworld : w'.shm = c.shm ∧ w'.folder = c.folder ∧ w'.oss = c.oss ∧
              w'.space = w.space ∧ w'.tasks = w.tasks ∧ w'.history = w.history ++
              [⟨n, none, .returned 0 []⟩] := by
            rw [← hstep]
            exact ⟨rfl, rfl, rfl, rfl, rfl, rfl⟩
          obtain ⟨hshm, hfolder, hoss, hspace, htasks', hhistory⟩ := hworld
          rw [htasks] at htasks'
          obtain ⟨a, hactive, hfile, hsame, hpos, htags, hcoherent⟩ :=
            hc.registers htasks hreg htagged hn hfresh
            hfd hlinked hvacant hrun hfiles rfl hshm hfolder hoss hspace htasks'
          refine ⟨htagged.joins hn hfresh.activeId hfiles hfile hactive ?_, _, hfiles, hfile, hsame,
            .answers none (.returned 0 []) (F.move n 0) hhistory rfl ⟨G, hcoherent, hcontent⟩
              ⟨Or.inl rfl, fun e he => ?_, fun e he => ?_, Pc.noConfusion⟩⟩
          · rw [hsame]
            exact htags
          · rw [hpos]
            exact (Function.update_self n 0 F.cursor).symm
          · rw [hsame]
            exact hdelete

/-- What a reader has received in the end. -/
theorem Reads.received_all {before content : List UInt8} {start length : Nat}
    (hr : Reads before content start 0 h length) (hleft : h.stream.bytesLeft = 0) :
    h.stream.received = slice before start length ∧
      h.pos = start + (slice before start length).length ∧
      h.stream.result = ((slice before start length).length : Int) := by
  have hpos := hr.left
  rw [hleft, Nat.add_zero] at hpos
  have hlength : (slice before start length).length = min length (before.length - start) :=
    Library.length_slice _ _ _
  refine ⟨?_, hpos.trans (by rw [hlength]), by rw [hlength]; exact hr.result⟩
  rw [hr.received, hpos, Nat.add_zero, Nat.add_sub_cancel_left, slice, slice]
  rcases Nat.le_total length (before.length - start) with hle | hle
  · rw [Nat.min_eq_left hle]
  · rw [Nat.min_eq_right hle, List.take_of_length_le (List.length_drop ▸ Nat.le_refl _),
      List.take_of_length_le (List.length_drop ▸ hle)]

/-- Only the file of the call has changed. -/
theorem content_fill {before after : FileId → List UInt8} {data : List UInt8}
    (hothers : ∀ g, g ≠ f → after g = before g) (hf : after f = data) :
    after = Function.update before f data := by
  funext g
  by_cases hg : g = f
  · subst hg
    rw [Function.update_self]
    exact hf
  · rw [Function.update_of_ne hg]
    exact hothers g hg

/-- A call that read or wrote answers as the flat files do. -/
theorem Finishes.outcome {a : Nat} (hf : Finishes cfg n a F.content (F.cursor n) f w w')
    (hholder : holder.file = f) :
    ∃ h' : FileActiveStatus, w'.files = w.files.set n h' ∧ h'.fileId = f ∧ h'.activeId = some a ∧
      h'.isDelete = false ∧ Outcomes cfg F n holder h' w w' := by
  obtain ⟨G, h', hfiles, hfile, hactive, hspares, hpc, hc, hothers, hprogress, hleft, hhistory⟩ :=
    hf.ends
  refine ⟨h', hfiles, hfile, hactive, hspares, ?_⟩
  subst hholder
  rcases hprogress.kind with ⟨length, hr⟩ | ⟨buffer, hwr⟩
  · obtain ⟨hreceived, hpos, hresult⟩ := hr.received_all hleft
    rw [hr.call, hreceived, hresult] at hhistory
    refine .answers _ _ _ hhistory rfl ⟨G, hc, ?_⟩ ⟨Or.inl hpc, fun _ _ => ?_, fun _ _ => hspares,
      fun hclosed => by rw [hpc] at hclosed; cases hclosed⟩
    · rw [content_fill hothers hr.content]
      exact Function.update_eq_self _ _
    · rw [hpos]
      exact (Function.update_self n _ F.cursor).symm
  · have hall := hwr.left
    rw [hleft, Nat.add_zero] at hall
    have hcontent := hwr.content
    rw [hall, List.take_length] at hcontent
    rw [hwr.call, hwr.received, hwr.result] at hhistory
    refine .answers _ _ _ hhistory rfl ⟨G, hc, ?_⟩ ⟨Or.inl hpc, fun _ _ => ?_, fun _ _ => hspares,
      fun hclosed => by rw [hpc] at hclosed; cases hclosed⟩
    · exact content_fill hothers hcontent
    · have hbegun := hprogress.begun
      have hpos : h'.pos = F.cursor n + buffer.length := by omega
      rw [hpos]
      exact (Function.update_self n _ F.cursor).symm

/-- A call that reads or writes goes on. -/
theorem GoesOn.outcome {a : Nat} (hg : GoesOn cfg n a F.content (F.cursor n) f w w') :
    ∃ h' : FileActiveStatus, w'.files = w.files.set n h' ∧ h'.fileId = f ∧ h'.activeId = some a ∧
      h'.isDelete = false ∧ Outcomes cfg F n holder h' w w' := by
  obtain ⟨G, D, V, h', hfiles, hfile, hs⟩ := hg.streams
  exact ⟨h', hfiles, hfile, hs.active, hs.spares, .goes hg.history (.streams G D V a hs)⟩

/-- A step of the stream loop. -/
theorem serves_stream {G : Account} {D : Option Draft} {V : Option Victim} {a : Nat}
    (hfreed : cfg.FreedIntact) (hreg : w.Registered) (htagged : w.Tagged) (hmetered : h.Metered)
    (hs : Streaming cfg G D V n a F.content (F.cursor n) h w) (hstep : w.stepFile cfg n h = some w')
    (hcalm : Calm w') : Serves cfg F n h w w' := by
  have houtcome : ∃ h' : FileActiveStatus, w'.files = w.files.set n h' ∧ h'.fileId = h.fileId ∧
      h'.activeId = some a ∧ h'.isDelete = false ∧
      Outcomes cfg F n ⟨h.fileId, h.isDelete⟩ h' w w' :=
    (hs.step hfreed hreg hmetered hstep hcalm).elim GoesOn.outcome fun hf => hf.outcome rfl
  obtain ⟨h', hfiles, hfile, hactive, hspares, hnext⟩ := houtcome
  have htags : w'.shm.tags = w.shm.tags := by
    refine tags_of_file hs.handle ?_ ?_ hstep
    · have hstage := hs.stage
      cases hpc : h.pc with
      | openManifest =>
          rw [hpc] at hstage
          exact hstage.elim
      | regist =>
          rw [hpc] at hstage
          exact hstage.elim
      | _ => rfl
    · intro isCancel hpc
      have hstage := hs.stage
      rw [hpc] at hstage
      exact hstage
  exact ⟨htagged.stays hs.handle hfiles htags hfile (hactive.trans hs.active.symm)
    (hspares.trans hs.spares.symm), h', hfiles, hfile, hspares.trans hs.spares.symm, hnext⟩

/-- The log is flushed. -/
theorem serves_flush {a : Nat} (hreg : w.Registered) (htagged : w.Tagged)
    (hn : w.files[n]? = some h) (hpc : h.pc = .flush) (hstores : Stores cfg F.content n w)
    (ha : h.activeId = some a) (hcursor : h.pos = F.cursor n) (hspares : h.isDelete = false)
    (hstep : w.stepFile cfg n h = some w') (hcalm : Calm w') : Serves cfg F n h w w' := by
  have htags : w'.shm.tags = w.shm.tags :=
    tags_of_file hn (by rw [hpc]; rfl) (fun isCancel hclose => by rw [hpc] at hclose; cases hclose)
    hstep
  obtain ⟨G, hc, hcontent⟩ := hstores
  simp only [stepFile, hpc, Option.some.injEq] at hstep
  subst hstep
  obtain ⟨u, c, hrun, heq⟩ := runFile_returns hcalm
  rw [heq] at htags ⊢
  obtain ⟨k, done, pending, R, hh, -⟩ := hc.agrees.attends n h a hn ha
  obtain ⟨es, R', hdesk, hblocks, hself⟩ := (hc.agrees.seat hn ha hh).flush hrun
  let h' : FileActiveStatus := { c.self with pc := .idle }
  let w₁ : World := { w.setFile n c.self with shm := c.shm, folder := c.folder, oss := c.oss }
  have hfiles : (w₁.mapFile n fun x => { x with pc := .idle }).files = w.files.set n h' :=
    mapFile_set hn rfl
  have hstays : Stays (Site.withoutVictim G.own none) G.own R R' := ⟨.refl _, by rw [hblocks]⟩
  have hfile : h'.fileId = h.fileId := hdesk.sight.steady.fileId
  have hactive : h'.activeId = h.activeId := hdesk.sight.steady.activeId
  have hdelete : h'.isDelete = h.isDelete := hdesk.sight.steady.isDelete
  have hpos : h'.pos = h.pos := hdesk.sight.steady.pos
  have hworked : Worked n c h' w ((w₁.mapFile n fun x => { x with pc := .idle }).finish n
      (some .flush) 0 []) :=
    ⟨hfiles, rfl, rfl, rfl⟩
  have hloading : c.self.loadingBuckets = h.loadingBuckets := by
    rw [hself]
    rfl
  have hcoherent :=
    hc.stays hreg hn ha hh hdesk hstays (fun v hv => by cases hv) hloading hworked hpos rfl
    hdesk.store rfl
  refine ⟨htagged.stays hn hfiles htags hfile hactive hdelete, h', hfiles, hfile, hdelete,
    .answers (some .flush) (.returned 0 []) F rfl rfl ⟨_, hcoherent, hcontent⟩
      ⟨Or.inl rfl, fun _ _ => hpos.trans hcursor, fun _ _ => hdelete.trans hspares,
        Pc.noConfusion⟩⟩

/-- The handle leaves its file. -/
theorem serves_close {a : Nat} {isCancel : Bool} (hreg : w.Registered) (htagged : w.Tagged)
    (hn : w.files[n]? = some h) (hpc : h.pc = .close isCancel) (hstores : Stores cfg F.content n w)
    (htasks : w.tasks = []) (ha : h.activeId = some a) (hstep : w.stepFile cfg n h = some w')
    (hcalm : Calm w') :
    Serves cfg F n h w w' := by
  obtain ⟨G, hc, hcontent⟩ := hstores
  simp only [stepFile, hpc, Option.some.injEq] at hstep
  subst hstep
  obtain ⟨remote, c, hrun, heq⟩ := runFile_returns hcalm
  rw [heq]
  let h' : FileActiveStatus := { c.self with pc := .deleteRemote isCancel remote }
  let w₁ : World := { w.setFile n c.self with shm := c.shm, folder := c.folder, oss := c.oss }
  let w₂ : World := w₁.mapFile n fun x => { x with pc := .deleteRemote isCancel remote }
  change Serves cfg F n h w w₂
  have hfiles : w₂.files = w.files.set n h' := mapFile_set hn rfl
  have hshm : w₂.shm = c.shm := rfl
  have hfolder : w₂.folder = c.folder := rfl
  have hoss : w₂.oss = c.oss := rfl
  have hspace : w₂.space = w.space := rfl
  obtain ⟨own, hnone, hfile, hdelete, htags, hkeeps, hgone, hcoherent⟩ :=
    hc.leaves htasks hreg htagged hn ha hrun hfiles rfl hshm hfolder hoss hspace htasks
  refine ⟨htagged.leaves hn ha hfiles hfile htags, h', hfiles, hfile, hdelete, .goes rfl
    (.leaves isCancel remote rfl ⟨_, hcoherent, ?_⟩ htasks hnone ?_)⟩
  · rw [FlatFiles.content_close, hfile, hdelete, ← hcontent]
    rfl
  · cases hd : h.isDelete || isCancel with
    | false => exact Or.inl (hkeeps hd)
    | true =>
        rw [hfile]
        exact Or.inr (hgone hd)

/-- The objects of a file that is gone are deleted, and the call returns. -/
theorem serves_deleteRemote {isCancel : Bool} {blocks : List Block} (htagged : w.Tagged)
    (hn : w.files[n]? = some h) (hpc : h.pc = .deleteRemote isCancel blocks)
    (hstores : Stores cfg (F.answer n ⟨h.fileId, h.isDelete⟩ (some (.close isCancel))).2.content n
    w)
    (htasks : w.tasks = []) (hleft : h.activeId = none)
    (hremote : blocks = [] ∨ w.folder.links h.fileId = none) (hstep :
    w.stepFile cfg n h = some w') :
    Serves cfg F n h w w' := by
  simp only [stepFile, hpc, Option.some.injEq] at hstep
  cases blocks with
  | nil =>
      dsimp only at hstep
      subst hstep
      let h' : FileActiveStatus := { h with pc := .closed }
      let w' : World := (w.setFile n h').finish n (some (.close isCancel)) 0 []
      change Serves cfg F n h w w'
      have hfiles : w'.files = w.files.set n h' := rfl
      have hsame : SameRegistered w w' := .of_set hn hfiles hleft hleft
      refine ⟨htagged.stays hn hfiles rfl rfl rfl rfl, h', hfiles, rfl, rfl,
        .answers (some (.close isCancel)) (.returned 0 []) _ rfl rfl
          (hstores.aside htasks hsame rfl rfl rfl rfl htasks) ⟨Or.inr rfl, fun e he => ?_,
            fun e he => ?_, fun _ => hleft⟩⟩
      · rw [show h'.activeId = none from hleft] at he
        cases he
      · rw [show h'.activeId = none from hleft] at he
        cases he
  | cons block rest =>
      dsimp only at hstep
      subst hstep
      let h' : FileActiveStatus := { h with pc := .deleteRemote isCancel rest }
      let w' : World := { w.setFile n h' with oss := w.oss.delete h.fileId block.blockId }
      change Serves cfg F n h w w'
      have hgone : w.folder.links h.fileId = none := hremote.resolve_left (List.cons_ne_nil _ _)
      have hfiles : w'.files = w.files.set n h' := rfl
      have hsame : SameRegistered w w' := .of_set hn hfiles hleft hleft
      obtain ⟨G, hc, hcontent⟩ := hstores
      have huploaded : Uploaded cfg G none w' := by
        intro f k hk i hi hnowhere
        have hf : f ≠ h.fileId := by
          rintro rfl
          rw [show w'.folder.links h.fileId = none from hgone] at hk
          cases hk
        have hkept : w'.oss f (some i) = w.oss f (some i) := if_neg fun hboth => hf hboth.1
        rw [hkept]
        exact hc.uploaded f k hk i hi hnowhere
      refine ⟨htagged.stays hn hfiles rfl rfl rfl rfl, h', hfiles, rfl, rfl, .goes rfl
        (.leaves isCancel rest rfl ⟨G, hc.aside htasks hsame rfl rfl rfl htasks huploaded, hcontent⟩
          htasks hleft
          (Or.inr hgone))⟩

/-- A step of the handle that works. -/
theorem Doing.step (hfreed : cfg.FreedIntact) (hd : Doing cfg F n w h) (hreg : w.Registered)
    (htagged : w.Tagged) (hmetered : h.Metered) (hn : w.files[n]? = some h)
    (hstep : w.stepFile cfg n h = some w') (hcalm : Calm w') :
    Serves cfg F n h w w' := by
  cases hd with
  | opens hpc hstores htasks hfresh hvacant =>
      exact serves_openManifest htagged hn hpc hstores htasks hfresh hvacant hstep
  | regists k hpc hstores htasks hfresh hvacant hfd hlinked =>
      exact serves_regist hreg htagged hn hpc hstores htasks hfresh hvacant hfd hlinked hstep hcalm
  | streams G D V a hs => exact serves_stream hfreed hreg htagged hmetered hs hstep hcalm
  | flushes a hpc hstores ha hcursor hspares =>
      exact serves_flush hreg htagged hn hpc hstores ha hcursor hspares hstep hcalm
  | closes a isCancel hpc hstores htasks ha =>
      exact serves_close hreg htagged hn hpc hstores htasks ha hstep hcalm
  | leaves isCancel blocks hpc hstores htasks hleft hremote =>
      exact serves_deleteRemote htagged hn hpc hstores htasks hleft hremote hstep

theorem not_calm_raise {call : Option Call} {e : GwError} : ¬ Calm (w.raise n h call e) := by
  intro hcalm
  obtain ⟨value, data, hout⟩ :=
    hcalm ⟨n, call, .threw e⟩ (List.mem_append_right _ (List.mem_singleton.mpr rfl))
  cases hout

theorem settle_shm (w : World) (n : Nat) : (w.settle n).shm = w.shm := by
  unfold settle
  split
  · split
    · rfl
    · rfl
  · rfl

/-- A stream loop is begun. -/
theorem serves_startStream {a : Nat} {stream : Stream} (htagged : w.Tagged)
    (hn : w.files[n]? = some h) (hstores : Stores cfg F.content n w) (hrest : AtRest F n h)
    (ha : h.activeId = some a) (hneed : stream.needUpdate = true)
    (hprogress : ∀ content : List UInt8, content = F.content h.fileId → h.eof = content.length →
      h.pos ≤ content.length → Progress content content h.pos 0
      { h with stream := stream, pc := { h with stream := stream }.streamPc }) :
    Serves cfg F n h w (w.startStream n h stream) := by
  obtain ⟨G, hc, hcontent⟩ := hstores
  obtain ⟨k, done, pending, R, hh, -⟩ := hc.agrees.attends n h a hn ha
  let h' : FileActiveStatus :=
    { h with stream := stream, pc := { h with stream := stream }.streamPc }
  let w₁ : World := w.setFile n h'
  have hcoherent : Coherent cfg G none none n w₁ :=
    hc.touched hn rfl rfl rfl rfl (hc.uploaded.same rfl rfl rfl) rfl (.of_thread rfl) hh.pos
  have hspares := hrest.spares a ha
  have hcursor := hrest.cursor a ha
  have hbegins : Progress (F.content h'.fileId) (G.content h'.fileId) (F.cursor n) 0 h' := by
    have heof := hh.eof
    have hinside := hh.pos
    rw [hcontent] at heof ⊢
    rw [← hcursor]
    exact hprogress _ rfl heof (heof ▸ hinside)
  have hsettles : GoesOn cfg n a F.content (F.cursor n) h.fileId w (w₁.settle n) ∨
      Finishes cfg n a F.content (F.cursor n) h.fileId w (w₁.settle n) :=
    hcoherent.settle (List.getElem?_eq_some_iff.mp hn).1 rfl rfl rfl ha hspares
      (fun g _ => congrFun hcontent g) hbegins rfl fun _ => hneed
  have houtcome : ∃ h' : FileActiveStatus, (w₁.settle n).files = w.files.set n h' ∧
      h'.fileId = h.fileId ∧ h'.activeId = some a ∧ h'.isDelete = false ∧
        Outcomes cfg F n ⟨h.fileId, h.isDelete⟩ h' w (w₁.settle n) :=
    hsettles.elim GoesOn.outcome fun hf => hf.outcome rfl
  obtain ⟨h'', hfiles, hfile, hactive, hspares', hnext⟩ := houtcome
  have htags : (w₁.settle n).shm.tags = w.shm.tags := by
    rw [settle_shm]
    rfl
  exact ⟨htagged.stays hn hfiles htags hfile (hactive.trans ha.symm) (hspares'.trans hspares.symm),
    h'', hfiles, hfile, hspares'.trans hspares.symm, hnext⟩

/-- The position is moved within the file. -/
theorem serves_startSeek {a : Nat} {call : Call} {target : Int} (htagged : w.Tagged)
    (hn : w.files[n]? = some h) (hstores : Stores cfg F.content n w) (hrest : AtRest F n h)
    (ha : h.activeId = some a) (hinside : target ≤ h.eof)
    (hanswer : h.eof = (F.content h.fileId).length → F.answer n ⟨h.fileId, h.isDelete⟩ (some call) =
      F.seek n target) (hcalm : Calm (w.startSeek n h call target)) :
    Serves cfg F n h w (w.startSeek n h call target) := by
  unfold startSeek at hcalm ⊢
  by_cases hbegin : 0 ≤ target
  · rw [if_pos ⟨hbegin, hinside⟩]
    obtain ⟨G, hc, hcontent⟩ := hstores
    obtain ⟨k, done, pending, R, hh, -⟩ := hc.agrees.attends n h a hn ha
    let h' : FileActiveStatus := { h with pos := target.toNat }
    let w' : World := (w.setFile n h').finish n (some call) target []
    change Serves cfg F n h w w'
    have hfiles : w'.files = w.files.set n h' := rfl
    have hpos : h'.pos ≤ h'.eof := Int.toNat_le.mpr hinside
    have hcoherent : Coherent cfg G none none n w' :=
      hc.touched hn hfiles rfl rfl rfl (hc.uploaded.same rfl rfl rfl) rfl (.of_thread rfl) hpos
    have heof := hh.eof
    rw [hcontent] at heof
    refine ⟨htagged.stays hn hfiles rfl rfl rfl rfl, h', hfiles, rfl, rfl, .answers (some call)
      (.returned target []) (F.move n target.toNat) rfl (hanswer heof) ⟨G, hcoherent, hcontent⟩
      ⟨hrest.pc, fun e he => ?_, hrest.spares, hrest.gone⟩⟩
    exact (Function.update_self n _ F.cursor).symm
  · rw [if_neg fun hboth => hbegin hboth.1, if_neg (Int.not_lt.mpr hinside)] at hcalm
    exact absurd hcalm not_calm_raise

/-- A call on a handle that rests. -/
theorem serves_startCall {a : Nat} {call : Call} (htagged : w.Tagged) (hn : w.files[n]? = some h)
    (hstores : Stores cfg F.content n w) (hrest : AtRest F n h) (ha : h.activeId = some a)
    (hclose : ∀ isCancel, call = .close isCancel → w.tasks = [])
    (hinside : ∀ target, call.target h = some target → target ≤ h.eof)
    (hcalm : Calm (w.startCall n h call)) : Serves cfg F n h w (w.startCall n h call) := by
  have hcursor := hrest.cursor a ha
  cases call with
  | read length =>
      refine serves_startStream htagged hn hstores hrest ha rfl fun content _ heof hpos =>
        ⟨hpos, Nat.le_refl _, rfl, Or.inl ⟨length, rfl, rfl, ?_, rfl, ?_, ?_⟩⟩
      · change min (length : Int) (h.eof - h.pos) = _
        rw [heof]
        omega
      · change [] = slice content h.pos (h.pos - h.pos + 0)
        rw [Nat.sub_self, slice, List.take_zero]
      · change h.pos + (min (length : Int) (h.eof - h.pos)).toNat = _
        rw [heof]
        omega
  | write buffer =>
      unfold startCall at hcalm ⊢
      dsimp only at hcalm ⊢
      by_cases hwrite : h.isWrite = true
      · rw [if_pos hwrite]
        refine serves_startStream htagged hn hstores hrest ha rfl fun content _ heof hpos =>
          ⟨hpos, Nat.le_refl _, rfl, Or.inr ⟨buffer, rfl, rfl, rfl, rfl, hwrite, ?_, ?_, ?_⟩⟩
        · change content = overwrite 0 content h.pos (buffer.take (h.pos - h.pos))
          rw [Nat.sub_self, List.take_zero, Library.overwrite_nil _ hpos]
        · change buffer = buffer.drop (h.pos - h.pos + 0)
          rw [Nat.sub_self, List.drop_zero]
        · change h.pos - h.pos + buffer.length = buffer.length
          rw [Nat.sub_self, Nat.zero_add]
      · rw [if_neg hwrite] at hcalm
        exact absurd hcalm not_calm_raise
  | seekSet pos =>
      exact serves_startSeek htagged hn hstores hrest ha (hinside _ rfl) (fun _ => rfl) hcalm
  | seekCur pos =>
      refine serves_startSeek htagged hn hstores hrest ha (hinside _ rfl) (fun _ => ?_) hcalm
      rw [hcursor]
      rfl
  | seekEnd pos =>
      refine serves_startSeek htagged hn hstores hrest ha (hinside _ rfl) (fun heof => ?_) hcalm
      rw [heof]
      rfl
  | flush =>
      unfold startCall at hcalm ⊢
      dsimp only at hcalm ⊢
      by_cases hwrite : h.isWrite = true
      · rw [if_pos hwrite]
        obtain ⟨G, hc, hcontent⟩ := hstores
        obtain ⟨k, done, pending, R, hh, -⟩ := hc.agrees.attends n h a hn ha
        have hcoherent : Coherent cfg G none none n (w.setFile n { h with pc := .flush }) :=
          hc.touched hn rfl rfl rfl rfl (hc.uploaded.same rfl rfl rfl) rfl (.of_thread rfl) hh.pos
        exact ⟨htagged.stays hn rfl rfl rfl rfl rfl, _, rfl, rfl, rfl, .goes rfl
          (.flushes a rfl ⟨G, hcoherent, hcontent⟩ ha hcursor (hrest.spares a ha))⟩
      · rw [if_neg hwrite] at hcalm
        exact absurd hcalm not_calm_raise
  | close isCancel =>
      change Serves cfg F n h w (w.setFile n { h with pc := .close isCancel })
      obtain ⟨G, hc, hcontent⟩ := hstores
      obtain ⟨k, done, pending, R, hh, -⟩ := hc.agrees.attends n h a hn ha
      have hcoherent : Coherent cfg G none none n (w.setFile n { h with pc := .close isCancel }) :=
        hc.touched hn rfl rfl rfl rfl (hc.uploaded.same rfl rfl rfl) rfl (.of_thread rfl) hh.pos
      exact ⟨htagged.stays hn rfl rfl rfl rfl rfl, _, rfl, rfl, rfl, .goes rfl
        (.closes a isCancel rfl ⟨G, hcoherent, hcontent⟩ (hclose isCancel rfl) ha)⟩

end World

end Gopherwood
