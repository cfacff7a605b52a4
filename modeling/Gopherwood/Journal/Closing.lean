/-
# Opening and closing a handle

The two critical sections that change the roster. Registration replays the log
and takes a slot. Closing gives the slot back; the last handle of a file then
removes the manifest or compacts it into one record.
-/

import Gopherwood.File.System
import Gopherwood.Journal.Session
import Gopherwood.Segment.Registration

namespace Gopherwood

open Library (Keeps Spec)
open SharedMem (Leads)

namespace FileActiveStatus

variable {S : Scope} {P Q : SharedMem → Prop} {caught : Prop}

theorem afterEvictRound_session (caller : Caller) (loop : EvictLoop) :
    Keeps (Session S P caught) (afterEvictRound caller loop) := by
  refine Keeps.ite ?_ (Keeps.bind Keeps.get fun c => Keeps.ite Keeps.throw ?_)
  · refine modifyLocal_session fun x => ⟨⟨rfl, rfl, rfl, rfl, ?_⟩, rfl, rfl⟩
    cases loop.evicting <;> simp [Pc.isOpening]
  · refine modifyLocal_session fun x => ⟨⟨rfl, rfl, rfl, rfl, ?_⟩, rfl, rfl⟩
    cases caller <;> simp [Pc.isOpening, afterAcquire]

theorem getCurBlockInfo_session (cfg : Config) :
    Keeps (Session S P caught) (getCurBlockInfo cfg) := by
  refine Keeps.bind Keeps.get fun c => Keeps.bind (blockAt_session _) fun block => ?_
  exact modifyLocal_session fun x => ⟨⟨rfl, rfl, rfl, rfl, by simp [Pc.isOpening]⟩, rfl, rfl⟩

theorem advance_session {cfg : Config}
    (hresize : ∀ a b, S.handle.activeId = some a →
      Leads P (.resize a b cfg.localBucketSize) P) (count : Nat) :
    Keeps (Session S P False) (advance cfg count) := by
  refine Keeps.bind (modifyLocal_session fun x => ⟨⟨rfl, rfl, rfl, rfl, id⟩, rfl, rfl⟩)
    fun _ => Keeps.bind Keeps.get fun c => Keeps.bind (setPosition_session hresize _) fun _ => ?_
  refine modifyLocal_session fun x => ⟨⟨rfl, rfl, rfl, rfl, ?_⟩, rfl, rfl⟩
  intro h
  rw [streamPc_isOpening x] at h
  cases h

end FileActiveStatus

/-! ## Closing -/

/-- The folder after the handle of `S` has left: its file was left alone,
unlinked, or replaced by one record when no slot of `roster` belongs to it. -/
structure Scope.Left (S : Scope) (roster : List (Option Nat × FileId)) (d : ManifestFolder) :
    Prop where
  files : d.files.length = S.folder.files.length
  links : ∀ f, d.links f = S.folder.links f ∨ f = S.handle.fileId ∧ d.links f = none
  content : ∀ k, (∃ new : List LogEntry, d.content k = S.folder.content k ++ logBytes new ∧
      ∀ e ∈ new, e.author = S.handle.client) ∨
    k = S.own ∧ (∀ slot ∈ roster, slot.2 ≠ S.handle.fileId) ∧
      ∃ e : LogEntry, d.content k = logBytes [e] ∧ e.author = S.handle.client ∧
        e.record.type = .fullStatus

theorem Scope.left_of_grown {S : Scope} {roster : List (Option Nat × FileId)}
    {d : ManifestFolder} (h : S.folder.Grown S.handle.client d) : S.Left roster d :=
  ⟨h.files, fun f => Or.inl (congrFun h.links f), fun k => Or.inl (h.content k)⟩

/-- The handle has given its slot back. -/
structure Scope.Unregistered (S : Scope) (Q : SharedMem → Prop) (c : Ctx) : Prop where
  client : c.self.client = S.handle.client
  fileId : c.self.fileId = S.handle.fileId
  activeId : c.self.activeId = none
  opening : c.self.pc.isOpening = true → S.handle.pc.isOpening = true
  segment : Q c.shm

/-- The handle has given its slot back and not yet touched its file. -/
structure Scope.Leaving (S : Scope) (Q : SharedMem → Prop) (c : Ctx) : Prop
    extends S.Unregistered Q c where
  links : c.folder.links = S.folder.links
  journal : S.tracked → S.Journal True c

/-- The handle's file is unlinked, at a moment at which no slot belonged to it. -/
def Scope.Removed (S : Scope) (Q : SharedMem → Prop) (c : Ctx) : Prop :=
  (∃ s, Q s ∧ ∀ slot ∈ s.roster, slot.2 ≠ S.handle.fileId) ∧
    c.folder.links = (S.folder.mfRemove S.handle.fileId).links

/-- The handle has left the segment and its file. -/
structure Scope.Departed (S : Scope) (Q : SharedMem → Prop) (c : Ctx) : Prop
    extends S.Unregistered Q c where
  links : c.folder.links = S.folder.links ∨ S.Removed Q c
  folder : S.tracked → S.Left c.shm.roster c.folder

/-- The scope of a handle that has taken the slot `a`. -/
def Scope.joined (S : Scope) (a : Nat) : Scope :=
  { S with handle := { S.handle with activeId := some a } }

/-- A closing handle is still in its critical section or has departed. -/
def Scope.Closing (S : Scope) (P Q : SharedMem → Prop) (c : Ctx) : Prop :=
  Session S P False c ∨ S.Departed Q c

namespace FileActiveStatus

variable {S : Scope} {P Q : SharedMem → Prop}

/-- The slot is given back, or the exception leaves it. -/
theorem unregistInSharedMem_spec
    (hunregist : ∀ a, S.handle.activeId = some a →
      Spec P (SharedMemoryContext.unregistFile a S.handle.pid)
        (fun left => if left = none then P else Q) (fun _ => P)) (isCancel : Bool) :
    Spec (Session S P True) (unregistInSharedMem isCancel) (fun _ => S.Leaving Q)
      (fun _ => Session S P True) := by
  refine Spec.get_bind fun c hc => ?_
  have hpid := hc.identity.pid
  refine Spec.weaken_pre (myActiveId_bind (fun a ha => ?_) fun _ _ => id) fun c' hc' => hc' ▸ hc
  rw [hpid]
  refine Spec.bind (onShm_session (hunregist a ha)) fun left => ?_
  cases left with
  | none => exact Spec.throw fun _ hc => hc
  | some destroy =>
      apply Spec.modify
      intro c' hc'
      refine ⟨⟨hc'.identity.client, hc'.identity.fileId, rfl, hc'.identity.opening, hc'.segment⟩,
        hc'.links, fun ht => ?_⟩
      obtain ⟨hgrown, hown, hpos⟩ := hc'.journal ht
      exact ⟨hgrown, hown, hpos⟩

section

variable {c : Ctx} (hc : S.Leaving Q c)
include hc

/-- The handle may be updated outside its identity. -/
theorem departed_of_leaving {h : FileActiveStatus} (hid : c.self.SameIdentity h) :
    S.Departed Q { c with self := h } :=
  ⟨⟨hid.client.trans hc.client, hid.fileId.trans hc.fileId, hid.activeId.trans hc.activeId,
    hc.opening ∘ hid.opening, hc.segment⟩, Or.inl hc.links,
    fun ht => Scope.left_of_grown (hc.journal ht).grown⟩

variable (hclosed : (c.shm.activeStatus.any fun slot => slot.fileId = c.self.fileId) = false)
include hclosed

theorem closeFile_destroy (hreset : ∀ b, Leads Q (.reset S.handle.fileId b) Q)
    (hflag : ∀ b, Leads Q (.flag S.handle.fileId b) Q)
    (hdestroy : c.self.shouldDestroy = true)
    (hvacant : ∀ slot ∈ c.shm.roster, slot.2 ≠ S.handle.fileId) :
    Spec (· = c) closeFile (fun _ => S.Departed Q) (fun _ => S.Departed Q) := by
  intro c' hc'
  rw [hc']
  have hopen : onShm (SharedMemoryContext.isFileOpening c.self.fileId) c = .ok false c := by
    rw [← hclosed]
    rfl
  cases hblocks : blocksToDestroy c.self.blockArray with
  | error e =>
      have : closeFile c = .error e c := by
        simp [closeFile, hopen, hdestroy, hblocks]
      rw [this]
      exact departed_of_leaving hc (.refl _)
  | ok blocks =>
      obtain ⟨localBlocks, remoteBlocks⟩ := blocks
      have hkeep := SharedMemoryContext.deleteBlocks_keeps
        (fun (y : Block) (_ : y ∈ localBlocks) b _ => hc.fileId ▸ hreset b)
        (fun _ _ b _ => hc.fileId ▸ hflag b)
      have hshm : ∀ s' : SharedMem, Q s' → ∀ d : ManifestFolder,
          ∀ h : FileActiveStatus, c.self.SameIdentity h →
          (d.links = S.folder.links ∨ d.links = (S.folder.mfRemove S.handle.fileId).links) →
          (S.tracked → S.Left s'.roster d) →
          S.Departed Q { c with shm := s', folder := d, self := h } := by
        intro s' hs' d h hid hlinks hleft
        exact ⟨⟨hid.client.trans hc.client, hid.fileId.trans hc.fileId,
          hid.activeId.trans hc.activeId, hc.opening ∘ hid.opening, hs'⟩,
          hlinks.imp id fun hremoved => ⟨⟨c.shm, hc.segment, hvacant⟩, hremoved⟩, hleft⟩
      cases hrun : SharedMemoryContext.deleteBlocks c.self.fileId localBlocks c.shm with
      | error e s' =>
          have : closeFile c = .error e { c with shm := s' } := by
            simp [closeFile, hopen, hdestroy, hblocks, run_onShm_error hrun]
          rw [this]
          exact hshm s' (hkeep.error hc.segment hrun) c.folder c.self (.refl _)
            (Or.inl hc.links) fun ht => Scope.left_of_grown (hc.journal ht).grown
      | ok _ s' =>
          have : closeFile c = .ok remoteBlocks { c with
              shm := s', folder := c.folder.mfRemove c.self.fileId
              self := { c.self with fd := none } } := by
            simp [closeFile, hopen, hdestroy, hblocks, run_onShm_ok hrun, destroyManifest]
          rw [this]
          refine hshm s' (hkeep.ok hc.segment hrun) _ { c.self with fd := none }
            ⟨rfl, rfl, rfl, rfl, id⟩ (Or.inr ?_) fun ht => ?_
          · funext f
            simp [ManifestFolder.mfRemove, hc.links, hc.fileId]
          have hgrown := (hc.journal ht).grown
          refine ⟨hgrown.files, fun f => ?_, fun k => Or.inl (hgrown.content k)⟩
          by_cases hf : f = c.self.fileId
          · exact Or.inr ⟨hf.trans hc.fileId, by simp [ManifestFolder.mfRemove, hf]⟩
          · exact Or.inl (by simp [ManifestFolder.mfRemove, hf, hgrown.links])

theorem closeFile_compact (hdestroy : ¬ c.self.shouldDestroy = true)
    (hvacant : ∀ slot ∈ c.shm.roster, slot.2 ≠ S.handle.fileId) :
    Spec (· = c) closeFile (fun _ => S.Departed Q) (fun _ => S.Departed Q) := by
  intro c' hc'
  rw [hc']
  have hopen : onShm (SharedMemoryContext.isFileOpening c.self.fileId) c = .ok false c := by
    rw [← hclosed]
    rfl
  cases hfd : c.self.fd with
  | none =>
      have : closeFile c = .error (.io "[Manifest::mfWrite] write failed") c := by
        simp [closeFile, hopen, hdestroy, logFullStatus, hfd]
      rw [this]
      exact departed_of_leaving hc (.refl _)
  | some fd =>
      let entry : LogEntry := ⟨c.self.client, ⟨.fullStatus, c.self.eof,
        c.self.blockArray.map fun b => { b with usageCount := 0 }⟩⟩
      let d := ((c.folder.mfTruncate fd).1.mfWrite ⟨fd.file, 0⟩ entry).1
      have : closeFile c = .ok [] { c with
          folder := d
          self := { c.self with
            fd := some ((c.folder.mfTruncate fd).1.mfWrite ⟨fd.file, 0⟩ entry).2 } } := by
        simp [closeFile, hopen, hdestroy, logFullStatus, hfd, logRecord, d, entry,
          ManifestFolder.mfTruncate]
      rw [this]
      refine ⟨⟨hc.client, hc.fileId, hc.activeId, hc.opening, hc.segment⟩, Or.inl hc.links,
        fun ht => ?_⟩
      obtain ⟨hgrown, hown, done, pending, hfd', hcontent, hcaught, _, hread⟩ := hc.journal ht
      obtain rfl : fd = ⟨S.own, (logBytes done).length⟩ := Option.some.inj (hfd.symm.trans hfd')
      refine ⟨?_, fun f => Or.inl (congrFun hgrown.links f), fun k => ?_⟩
      · exact (ManifestFolder.length_files_mfWrite.trans
          ManifestFolder.length_files_mfTruncate).trans hgrown.files
      by_cases hk : k = S.own
      · subst hk
        refine Or.inr ⟨rfl, hvacant, entry, ?_, hc.client, rfl⟩
        have hbound :
            S.own < (c.folder.mfTruncate ⟨S.own, (logBytes done).length⟩).1.files.length := by
          rw [ManifestFolder.length_files_mfTruncate, hgrown.files]
          exact hown.bound
        have hempty := ManifestFolder.content_mfTruncate c.folder ⟨S.own, (logBytes done).length⟩
        have hwrite := ManifestFolder.content_mfWrite_end ⟨S.own, 0⟩ entry hbound
          (by rw [hempty]; rfl)
        rw [hempty, List.nil_append] at hwrite
        exact hwrite
      · left
        obtain ⟨new, hnew, hauthor⟩ := hgrown.content k
        refine ⟨new, ?_, hauthor⟩
        rw [← hnew]
        exact (ManifestFolder.content_mfWrite_other ⟨S.own, 0⟩ entry hk).trans
          (ManifestFolder.content_mfTruncate_other ⟨S.own, (logBytes done).length⟩ hk)

end

/-- The file of a closed handle is left alone, destroyed or compacted. -/
theorem closeFile_spec (hreset : ∀ b, Leads Q (.reset S.handle.fileId b) Q)
    (hflag : ∀ b, Leads Q (.flag S.handle.fileId b) Q) :
    Spec (S.Leaving Q) closeFile (fun _ => S.Departed Q) (fun _ => S.Departed Q) := by
  intro c hc
  have hopen : onShm (SharedMemoryContext.isFileOpening c.self.fileId) c =
      .ok (c.shm.activeStatus.any fun slot => slot.fileId = c.self.fileId) c := rfl
  cases hany : c.shm.activeStatus.any fun slot => slot.fileId = c.self.fileId with
  | true =>
      have : closeFile c = .ok [] { c with self := { c.self with shouldDestroy := false } } := by
        simp [closeFile, hopen, hany, modifySelf]
      rw [this]
      exact departed_of_leaving hc ⟨rfl, rfl, rfl, rfl, id⟩
  | false =>
      have hvacant : ∀ slot ∈ c.shm.roster, slot.2 ≠ S.handle.fileId := by
        intro slot hslot
        obtain ⟨s, hs, rfl⟩ := List.mem_map.mp hslot
        rw [← hc.fileId]
        simpa using List.any_eq_false.mp hany s hs
      by_cases hdestroy : c.self.shouldDestroy = true
      · exact closeFile_destroy hc hany hreset hflag hdestroy hvacant c rfl
      · exact closeFile_compact hc hany hdestroy hvacant c rfl

/-- The critical section of `close`. -/
theorem close_spec (hbenign : S.Benign P)
    (hunregist : ∀ a, S.handle.activeId = some a →
      Spec P (SharedMemoryContext.unregistFile a S.handle.pid)
        (fun left => if left = none then P else Q) (fun _ => P))
    (hreset : ∀ b, Leads Q (.reset S.handle.fileId b) Q)
    (hflag : ∀ b, Leads Q (.flag S.handle.fileId b) Q)
    (cfg : Config) (isCancel : Bool) :
    Spec (Session S P False) (close cfg isCancel) (fun _ => S.Departed Q)
      (fun _ => S.Closing P Q) := by
  have hexit : ∀ {α : Type} {prog : StatusM α}, Keeps (Session S P True) prog →
      Spec (Session S P True) prog (fun _ => Session S P True) (fun _ => S.Closing P Q) :=
    fun h => h.conseq (fun _ => id) (fun _ _ => id) fun _ _ hc => Or.inl (session_of_caught hc)
  -- what follows the inactivation: the slot is given back and the file is left
  have hleave : Spec (Session S P True) (do
      unregistInSharedMem isCancel
      let remoteBlocks ← closeFile
      modifySelf fun h => { h with blockArray := [], lruCache := .empty h.lruCache.maxSize }
      return remoteBlocks) (fun _ => S.Departed Q) (fun _ => S.Closing P Q) := by
    refine Spec.bind ((unregistInSharedMem_spec hunregist isCancel).conseq (fun _ => id)
      (fun _ _ => id) fun _ _ hc => Or.inl (session_of_caught hc)) fun _ => ?_
    refine Spec.bind ((closeFile_spec hreset hflag).conseq (fun _ => id) (fun _ _ => id)
      fun _ _ hc => Or.inr hc) fun remote => ?_
    have hclear : Keeps (S.Departed Q) (modifySelf fun h =>
        { h with blockArray := [], lruCache := .empty h.lruCache.maxSize }) :=
      Keeps.modify fun c hc =>
        ⟨⟨hc.client, hc.fileId, hc.activeId, hc.opening, hc.segment⟩, hc.links, hc.folder⟩
    exact Spec.bind (hclear.conseq (fun _ => id) (fun _ _ => id) fun _ _ hc => Or.inr hc)
      fun _ => Spec.pure fun _ => id
  have hinactivate : ∀ (fileId : FileId) (a : Nat) (blocks : List Block),
      S.handle.activeId = some a → Spec (Session S P True) (do
        let turned ← onShm (SharedMemoryContext.inactivateBuckets fileId a blocks)
        updateInactivated cfg turned
        if turned ≠ [] then
          logInactivateBucket turned
        unregistInSharedMem isCancel
        let remoteBlocks ← closeFile
        modifySelf fun h => { h with blockArray := [], lruCache := .empty h.lruCache.maxSize }
        return remoteBlocks) (fun _ => S.Departed Q) (fun _ => S.Closing P Q) := by
    intro fileId a blocks ha
    have hkeeps := SharedMemoryContext.inactivateBuckets_keeps
      (fun (y : Block) (_ : y ∈ blocks) b _ => hbenign.leave a b ha)
      (fun _ _ b _ => hbenign.retire a b ha) (fun _ _ b _ => hbenign.leaveFailed a b ha) fileId
    refine Spec.bind (hexit (onShm_session hkeeps)) fun turned => ?_
    refine Spec.bind (hexit (updateInactivated_session cfg turned)) fun _ => ?_
    exact Spec.ite (fun _ => Spec.bind (hexit (logRecord_session _ _ _)) fun _ => hleave)
      fun _ => hleave
  refine Spec.bind (catchUp_session.conseq (fun _ => id) (fun _ _ => id) fun _ _ => Or.inl)
    fun _ => ?_
  refine Spec.bind (hexit Keeps.get) fun c => ?_
  refine myActiveId_bind (fun a ha => ?_) fun _ _ hc => Or.inl (session_of_caught hc)
  refine Spec.bind (hexit (removeNumOfKeys_session _)) fun keys => ?_
  refine Spec.bind (hexit (blocksOf_session keys)) fun blocks => ?_
  refine Spec.ite (fun _ => ?_) fun _ => hinactivate _ _ _ ha
  have hrelease := SharedMemoryContext.releaseBuckets_keeps
    fun (y : Block) (_ : y ∈ c.self.preAllocatedBuckets) b _ => hbenign.release b
  refine Spec.bind (hexit (onShm_session hrelease)) fun _ => ?_
  exact Spec.bind (hexit (logRecord_session _ _ _)) fun _ => hinactivate _ _ _ ha

/-- Registration takes a free slot for the handle, or throws. -/
theorem registInSharedMem_spec {Q : Nat → SharedMem → Prop}
    (hregist : ∀ isDelete, Spec P
      (SharedMemoryContext.registFile S.handle.pid S.handle.fileId isDelete)
      (fun assigned s => match assigned with
        | none => P s
        | some a => Q a s) (fun _ => P)) :
    Spec (Session S P False) registInSharedMem (fun _ c => ∃ a, Session (S.joined a) (Q a) True c)
      (fun _ => Session S P False) := by
  refine Spec.bind catchUp_session fun _ => Spec.get_bind fun c hc => ?_
  have hpid := hc.identity.pid
  have hfileId := hc.identity.fileId
  dsimp only
  rw [hpid, hfileId]
  refine Spec.bind (Spec.weaken_pre ((onShm_session (hregist c.self.isDelete)).conseq
    (fun _ => id) (fun _ _ => id) fun _ _ => session_of_caught) fun c' hc' => hc' ▸ hc)
    fun assigned => ?_
  cases assigned with
  | none => exact Spec.throw fun _ => session_of_caught
  | some a =>
      apply Spec.modify
      intro c' hc'
      refine ⟨a, ⟨hc'.identity.client, hc'.identity.fileId, hc'.identity.pid, rfl,
        hc'.identity.opening⟩, hc'.links, hc'.logFile, hc'.segment, fun ht => ?_⟩
      obtain ⟨hgrown, hown, hpos⟩ := hc'.journal ht
      exact ⟨hgrown, hown, hpos⟩

end FileActiveStatus

end Gopherwood
