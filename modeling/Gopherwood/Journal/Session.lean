/-
# The manifest inside a critical section

Once a handle has caught up, its descriptor stands at the end of its manifest,
and every record it writes keeps it there. A critical section appends whole
records to manifests and changes nothing else in the folder; it reads nothing
more and keeps the identity of the handle and the roster of the segment.
-/

import Gopherwood.File.Local
import Gopherwood.Journal.CatchUp
import Gopherwood.Segment.Moves

namespace Gopherwood

open Library (Keeps Spec)
open SharedMem (Leads)

/-- The folder `d'` has the links and files of `d`, and every file grew by whole
records of `author`. -/
structure ManifestFolder.Grown (author : Client) (d d' : ManifestFolder) : Prop where
  links : d'.links = d.links
  files : d'.files.length = d.files.length
  content : ∀ k, ∃ new : List LogEntry,
    d'.content k = d.content k ++ logBytes new ∧ ∀ e ∈ new, e.author = author

namespace ManifestFolder.Grown

variable {author : Client} {d d' d'' : ManifestFolder}

theorem refl (author : Client) (d : ManifestFolder) : Grown author d d :=
  ⟨rfl, rfl, fun _ => ⟨[], by simp, by simp⟩⟩

theorem trans (first : Grown author d d') (second : Grown author d' d'') : Grown author d d'' := by
  refine ⟨second.links.trans first.links, second.files.trans first.files, fun k => ?_⟩
  obtain ⟨new, hnew, hauthor⟩ := first.content k
  obtain ⟨new', hnew', hauthor'⟩ := second.content k
  refine ⟨new ++ new', by rw [hnew', hnew, logBytes_append, List.append_assoc], ?_⟩
  intro e he
  rcases List.mem_append.mp he with he | he
  · exact hauthor e he
  · exact hauthor' e he

/-- A write at the end of a file. -/
theorem mfWrite (fd : Descriptor) (entry : LogEntry) (hfile : fd.file < d.files.length)
    (hoffset : fd.offset = (d.content fd.file).length) :
    Grown entry.author d (d.mfWrite fd entry).1 := by
  refine ⟨rfl, length_files_mfWrite, fun k => ?_⟩
  by_cases hk : k = fd.file
  · subst hk
    exact ⟨[entry], content_mfWrite_end fd entry hfile hoffset, by simp⟩
  · exact ⟨[], by rw [content_mfWrite_other fd entry hk]; simp, by simp⟩

end ManifestFolder.Grown

/-! ## The invariant of a critical section -/

/-- What a critical section leaves alone of a handle; no handle goes back to
opening its file. -/
structure FileActiveStatus.SameIdentity (h h' : FileActiveStatus) : Prop where
  client : h'.client = h.client
  fileId : h'.fileId = h.fileId
  pid : h'.pid = h.pid
  activeId : h'.activeId = h.activeId
  opening : h'.pc.isOpening = true → h.pc.isOpening = true

theorem FileActiveStatus.SameIdentity.refl (h : FileActiveStatus) : h.SameIdentity h :=
  ⟨rfl, rfl, rfl, rfl, id⟩

theorem FileActiveStatus.SameIdentity.trans {h h' h'' : FileActiveStatus}
    (first : h.SameIdentity h') (second : h'.SameIdentity h'') : h.SameIdentity h'' :=
  ⟨second.client.trans first.client, second.fileId.trans first.fileId,
    second.pid.trans first.pid, second.activeId.trans first.activeId,
    first.opening ∘ second.opening⟩

/-- The links of a folder lead to files of the folder, and no link but that of
`fileId` leads to `own`. -/
structure ManifestFolder.OwnFile (d : ManifestFolder) (fileId : FileId) (own : Nat) : Prop where
  bound : own < d.files.length
  links : ∀ f k, d.links f = some k → k < d.files.length
  owner : ∀ f, d.links f = some own → f = fileId

/-- The handle's descriptor on the file `own` has passed some records of the
file, of which the handle has read those of other authors. What is pending was
written by others and satisfies `p`; if `caught`, nothing is pending. -/
def FileActiveStatus.Position (p : LogEntry → Prop) (caught : Prop) (own : Nat)
    (d : ManifestFolder) (h : FileActiveStatus) : Prop :=
  ∃ done pending, h.fd = some ⟨own, (logBytes done).length⟩ ∧
    d.content own = logBytes (done ++ pending) ∧ (caught → pending = []) ∧
    (∀ e ∈ pending, p e ∧ e.author ≠ h.client) ∧
    h.readEntries = done.filter fun e => e.author ≠ h.client

/-- What a critical section is observed against: the folder and the handle it
started with, and the handle's log file. The log is followed only if `tracked`. -/
structure Scope where
  folder : ManifestFolder
  handle : FileActiveStatus
  own : Nat
  tracked : Prop

/-- The log during a critical section; the handle has caught up if `caught`. A critical
section catches up before it writes. -/
structure Scope.Journal (S : Scope) (caught : Prop) (c : Ctx) : Prop where
  grown : S.folder.Grown S.handle.client c.folder
  ownFile : S.folder.OwnFile S.handle.fileId S.own
  position : c.self.Position LogEntry.Fits caught S.own c.folder

/-- The log file that the handle has open. -/
def FileActiveStatus.logFile (h : FileActiveStatus) : Option Nat := h.fd.map Descriptor.file

/-- The state during a critical section, with a property of the segment. The links
of the folder and the handle's log file stay as they were. -/
structure Session (S : Scope) (P : SharedMem → Prop) (caught : Prop) (c : Ctx) : Prop where
  identity : S.handle.SameIdentity c.self
  links : c.folder.links = S.folder.links
  logFile : c.self.logFile = S.handle.logFile
  segment : P c.shm
  journal : S.tracked → S.Journal caught c

/-- The property is kept by the moves of the handle that acquire, inactivate and
release buckets and search for a victim. -/
structure Scope.Benign (S : Scope) (P : SharedMem → Prop) : Prop where
  take : ∀ a b, S.handle.activeId = some a → Leads P (.take a b) P
  takeFailed : ∀ b, Leads P (.takeFailed b) P
  leave : ∀ a b, S.handle.activeId = some a → Leads P (.leave a b) P
  retire : ∀ a b, S.handle.activeId = some a → Leads P (.retire a b) P
  leaveFailed : ∀ a b, S.handle.activeId = some a → Leads P (.leaveFailed a b) P
  release : ∀ b, Leads P (.release b) P
  hand : Leads P .hand P
  age : ∀ b, Leads P (.age b) P

/-- The end of an eviction leads from `P` to `Q`. -/
structure Scope.Ends (S : Scope) (P : SharedMem → Prop) (info : BlockInfo)
    (Q : SharedMem → Prop) : Prop where
  stolen : ∀ a, S.handle.activeId = some a → Leads P (.endStolen a) Q
  failed : ∀ a, S.handle.activeId = some a → Leads P (.endFailed a) Q
  take : ∀ a b, S.handle.activeId = some a → info.bucketId = some b → Leads P (.endTake a b) Q

/-- Every way in which an activation can change the segment leads from `P` to
`Q`. -/
structure Scope.Activates (S : Scope) (P Q : SharedMem → Prop) : Prop where
  activate : ∀ a b, S.handle.activeId = some a → Leads P (.activate a b) Q
  steal : ∀ a b e, S.handle.activeId = some a → Leads P (.steal a b e) Q
  join : ∀ a b, S.handle.activeId = some a → Leads P (.join a b) Q
  failed : ∀ b, Leads P (.activateFailed b) Q

theorem Session.mono {S : Scope} {P Q : SharedMem → Prop} {caught : Prop} {c : Ctx}
    (hPQ : ∀ s, P s → Q s) (hc : Session S P caught c) : Session S Q caught c :=
  ⟨hc.identity, hc.links, hc.logFile, hPQ _ hc.segment, hc.journal⟩

namespace FileActiveStatus

variable {S : Scope} {P Q R : SharedMem → Prop} {caught : Prop}

/-- An update of the handle that touches only fields no other handle relies
on. -/
theorem modifyLocal_session {f : FileActiveStatus → FileActiveStatus}
    (hf : ∀ x : FileActiveStatus, x.SameIdentity (f x) ∧ (f x).fd = x.fd ∧
      (f x).readEntries = x.readEntries) :
    Keeps (Session S P caught) (modifySelf f) := by
  refine Keeps.modify fun c hc => ?_
  obtain ⟨hid, hfd, hread⟩ := hf c.self
  refine ⟨hc.identity.trans hid, hc.links, ?_, hc.segment, fun ht => ?_⟩
  · unfold logFile
    rw [hfd]
    exact hc.logFile
  obtain ⟨hgrown, hown, done, pending, hpos⟩ := hc.journal ht
  refine ⟨hgrown, hown, done, pending, ?_⟩
  rw [hfd, hread, hid.client]
  exact hpos

theorem onShm_session {α : Type} {op : ShmM α} {Q : α → SharedMem → Prop}
    (hop : Spec P op Q (fun _ => R)) :
    Spec (Session S P caught) (onShm op) (fun a => Session S (Q a) caught)
      (fun _ => Session S R caught) := by
  refine Spec.zoom fun c hc => ?_
  have hjournal : ∀ s, S.tracked → S.Journal caught { c with shm := s } :=
    fun _ ht => ⟨(hc.journal ht).1, (hc.journal ht).2, (hc.journal ht).3⟩
  rintro s rfl
  have := hop c.shm hc.segment
  revert this
  cases op c.shm with
  | ok a s => exact fun hs => ⟨hc.identity, hc.links, hc.logFile, hs, hjournal s⟩
  | error e s => exact fun hs => ⟨hc.identity, hc.links, hc.logFile, hs, hjournal s⟩

theorem run_onShm_ok {α : Type} {op : ShmM α} {c : Ctx} {a : α} {s : SharedMem}
    (h : op c.shm = .ok a s) : onShm op c = .ok a { c with shm := s } := by
  simp [onShm, h]

theorem run_onShm_error {α : Type} {op : ShmM α} {c : Ctx} {e : GwError} {s : SharedMem}
    (h : op c.shm = .error e s) : onShm op c = .error e { c with shm := s } := by
  simp [onShm, h]

theorem modifyOss_session {f : Ctx → ObjectStore} :
    Keeps (Session S P caught) (modify fun c => { c with oss := f c } : StatusM Unit) :=
  Keeps.modify fun _ hc =>
    ⟨hc.identity, hc.links, hc.logFile, hc.segment,
      fun ht => ⟨(hc.journal ht).1, (hc.journal ht).2, (hc.journal ht).3⟩⟩

/-- The slot of the handle is that of the scope. -/
theorem myActiveId_bind {α : Type} {rest : Nat → StatusM α} {post : α → Ctx → Prop}
    {exn : GwError → Ctx → Prop}
    (hrest : ∀ a, S.handle.activeId = some a → Spec (Session S P caught) (rest a) post exn)
    (hexn : ∀ e c, Session S P caught c → exn e c) :
    Spec (Session S P caught) (myActiveId >>= rest) post exn := by
  intro c hc
  cases ha : c.self.activeId with
  | none => simpa [myActiveId, ha] using hexn .undefined c hc
  | some a =>
      have hgo : (myActiveId >>= rest) c = rest a c := by simp [myActiveId, ha]
      rw [hgo]
      exact hrest a (hc.identity.activeId ▸ ha) c hc

theorem blockAt_session (i : Nat) : Keeps (Session S P caught) (blockAt i) := by
  refine Keeps.bind Keeps.get fun c => ?_
  cases c.self.blockArray[i]? with
  | none => exact Keeps.throw
  | some block => exact Keeps.pure

/-- A write at the end of the handle's own log file keeps the descriptor at the
end. -/
theorem journal_logRecord {c : Ctx} (hid : S.handle.SameIdentity c.self)
    (hc : S.Journal True c) {fd : Descriptor} (hfd : c.self.fd = some fd) (record : Record) :
    S.Journal True { c with
      folder := (c.folder.mfWrite fd ⟨c.self.client, record⟩).1
      self := { c.self with fd := some (c.folder.mfWrite fd ⟨c.self.client, record⟩).2 } } := by
  obtain ⟨done, pending, hfd', hcontent, hcaught, _, hread⟩ := hc.position
  obtain rfl := hcaught trivial
  obtain rfl : fd = ⟨S.own, (logBytes done).length⟩ := Option.some.inj (hfd.symm.trans hfd')
  rw [List.append_nil] at hcontent
  have hbound : S.own < c.folder.files.length := by
    rw [hc.grown.files]
    exact hc.ownFile.bound
  have hoffset : (logBytes done).length = (c.folder.content S.own).length := by rw [hcontent]
  refine ⟨hc.grown.trans ?_, hc.ownFile, done ++ [⟨c.self.client, record⟩], [], ?_, ?_,
    fun _ => rfl, by simp, ?_⟩
  · rw [← hid.client]
    exact ManifestFolder.Grown.mfWrite ⟨S.own, (logBytes done).length⟩ ⟨c.self.client, record⟩
      hbound hoffset
  · simp only [ManifestFolder.offset_mfWrite, logBytes_append, List.length_append]
  · have := ManifestFolder.content_mfWrite_end ⟨S.own, (logBytes done).length⟩
      ⟨c.self.client, record⟩ hbound hoffset
    rw [List.append_nil, logBytes_append]
    exact this.trans (by rw [hcontent])
  · simp [List.filter_append, hread]

/-- A record is appended, and the descriptor stays at the end. -/
theorem logRecord_session (type : RecordType) (eof : Nat) (blocks : List Block) :
    Keeps (Session S P True) (logRecord type eof blocks) := by
  intro c hc
  cases hfd : c.self.fd with
  | none => simpa [logRecord, hfd] using hc
  | some fd =>
      let record : Record := ⟨type, eof, blocks.map fun b => { b with usageCount := 0 }⟩
      have hrun : logRecord type eof blocks c = .ok () { c with
          folder := (c.folder.mfWrite fd ⟨c.self.client, record⟩).1
          self := { c.self with
            fd := some (c.folder.mfWrite fd ⟨c.self.client, record⟩).2 } } := by
        simp [logRecord, hfd, record]
      rw [hrun]
      refine ⟨hc.identity.trans ⟨rfl, rfl, rfl, rfl, id⟩, hc.links, ?_, hc.segment,
        fun ht => journal_logRecord hc.identity (hc.journal ht) hfd record⟩
      rw [← hc.logFile, logFile, logFile, hfd]
      rfl

/-- What catching up leaves alone: the segment, the folder, and of the handle its
identity and its log file. -/
def Quiet (c c' : Ctx) : Prop :=
  c.self.SameIdentity c'.self ∧ c'.self.logFile = c.self.logFile ∧ c'.shm = c.shm ∧
    c'.folder = c.folder

/-- Whatever the log holds, catching up changes only what the handle knows of
it. -/
theorem catchUp_quiet (fuel : Nat) (start : Ctx) :
    Keeps (Quiet start) (catchUpManifestLogs.loop fuel) := by
  induction fuel with
  | zero => exact Keeps.pure
  | succ fuel ih =>
      have hself : ∀ f : FileActiveStatus → FileActiveStatus,
          (∀ x : FileActiveStatus, x.SameIdentity (f x) ∧ (f x).logFile = x.logFile) →
          Keeps (Quiet start) (modifySelf f) :=
        fun f hf => Keeps.modify fun c hc =>
          ⟨hc.1.trans (hf c.self).1, (hf c.self).2.trans hc.2.1, hc.2.2⟩
      refine Spec.get_bind fun c hc => ?_
      cases hfd : c.self.fd with
      | none => exact Spec.throw fun c' hc' => hc' ▸ hc
      | some fd =>
          dsimp only
          have hfile := fetchOneLogRecord_file (c.folder.content fd.file) fd
          generalize fetchOneLogRecord (c.folder.content fd.file) fd = result at hfile
          obtain ⟨fetched, fd'⟩ := result
          have hmoved : Spec (· = c) (modifySelf fun h => { h with fd := some fd' })
              (fun _ => Quiet start) (fun _ => Quiet start) := by
            apply Spec.modify
            rintro c' rfl
            refine ⟨hc.1.trans ⟨rfl, rfl, rfl, rfl, id⟩, ?_, hc.2.2⟩
            rw [← hc.2.1, logFile, logFile, hfd]
            exact congrArg some hfile
          refine Spec.bind hmoved fun _ => ?_
          cases fetched with
          | error e => exact Keeps.throw
          | ok found =>
              cases found with
              | none => exact Keeps.pure
              | some entry =>
                  refine Keeps.bind (hself _ fun x => ⟨⟨rfl, rfl, rfl, rfl, id⟩, rfl⟩) fun _ => ?_
                  cases replayRecord c.self.view entry.record with
                  | error e => exact Keeps.throw
                  | ok v =>
                      exact Keeps.bind (hself _ fun x => ⟨⟨rfl, rfl, rfl, rfl, id⟩, rfl⟩)
                        fun _ => ih

theorem catchUpManifestLogs_quiet (start : Ctx) : Keeps (Quiet start) catchUpManifestLogs := by
  refine Keeps.bind Keeps.get fun c => ?_
  cases c.self.fd with
  | none => exact Keeps.throw
  | some fd => exact catchUp_quiet _ start

/-- On a log of whole records, catching up reads what others wrote and moves to
the end of the file; if a record cannot be replayed, it stops behind that
record. -/
theorem journal_catchUp {c : Ctx} (hc : S.Journal False c) :
    match catchUpManifestLogs c with
    | .ok _ c' => S.Journal True c'
    | .error _ c' => S.Journal False c' := by
  obtain ⟨done, pending, hfd, hcontent, -, hpending, hread⟩ := hc.position
  -- everything that is read was written by others
  have hread' : ∀ read rest, pending = read ++ rest →
      c.self.readEntries ++ read = (done ++ read).filter fun e => e.author ≠ c.self.client := by
    intro read rest hsplit
    have hall : read.filter (fun e => e.author ≠ c.self.client) = read := by
      refine List.filter_eq_self.mpr fun e he => ?_
      have := (hpending e (by rw [hsplit]; exact List.mem_append_left _ he)).2
      simpa using this
    rw [List.filter_append, hread, hall]
  rcases catchUp_cases hfd ⟨hcontent, rfl⟩ fun e he => (hpending e he).1 with
    ⟨v, -, hrun⟩ | ⟨err, v, before, last, rest, hsplit, -, -, hrun⟩
  · rw [hrun]
    refine ⟨hc.grown, hc.ownFile, done ++ pending, [], rfl, ?_, fun _ => rfl, by simp, ?_⟩
    · rw [List.append_nil]
      exact hcontent
    · exact hread' pending [] (by simp)
  · rw [hrun]
    refine ⟨hc.grown, hc.ownFile, done ++ (before ++ [last]), rest, rfl, ?_, fun h => h.elim,
      ?_, ?_⟩
    · rw [List.append_assoc, ← hsplit]
      exact hcontent
    · intro e he
      exact hpending e (by rw [hsplit]; exact List.mem_append_right _ he)
    · exact hread' (before ++ [last]) rest hsplit

theorem catchUp_session : Spec (Session S P False) catchUpManifestLogs
    (fun _ => Session S P True) (fun _ => Session S P False) := by
  intro c hc
  have hquiet := catchUpManifestLogs_quiet c
  have hjournal := fun ht => journal_catchUp (hc.journal ht)
  cases hrun : catchUpManifestLogs c with
  | ok a c' =>
      obtain ⟨hid, hfile, hshm, hfolder⟩ := hquiet.ok ⟨.refl _, rfl, rfl, rfl⟩ hrun
      rw [hrun] at hjournal
      exact ⟨hc.identity.trans hid, hfolder ▸ hc.links, hfile.trans hc.logFile,
        hshm ▸ hc.segment, hjournal⟩
  | error e c' =>
      obtain ⟨hid, hfile, hshm, hfolder⟩ := hquiet.error ⟨.refl _, rfl, rfl, rfl⟩ hrun
      rw [hrun] at hjournal
      exact ⟨hc.identity.trans hid, hfolder ▸ hc.links, hfile.trans hc.logFile,
        hshm ▸ hc.segment, hjournal⟩

theorem session_of_caught {c : Ctx} (hc : Session S P caught c) : Session S P False c := by
  refine ⟨hc.identity, hc.links, hc.logFile, hc.segment, fun ht => ?_⟩
  obtain ⟨hgrown, hown, done, pending, hfd, hcontent, -, hpos⟩ := hc.journal ht
  exact ⟨hgrown, hown, done, pending, hfd, hcontent, fun h => h.elim, hpos⟩

/-- A critical section catches up first. -/
theorem section_session {α : Type} {body : StatusM α} (hPQ : ∀ s, P s → Q s)
    (hbody : Spec (Session S P True) body (fun _ => Session S Q True)
      (fun _ => Session S Q True)) :
    Spec (Session S P False) (catchUpManifestLogs >>= fun _ => body)
      (fun _ => Session S Q False) (fun _ => Session S Q False) := by
  apply Spec.bind
  · exact catchUp_session.conseq (fun _ => id) (fun _ _ => id) fun _ _ hc => hc.mono hPQ
  · intro _
    exact hbody.conseq (fun _ => id) (fun _ _ => session_of_caught) fun _ _ => session_of_caught

theorem getSharedMemEof_session (cfg : Config) :
    Keeps (Session S P caught) (getSharedMemEof cfg) := by
  refine Keeps.bind Keeps.get fun c => Keeps.bind (blockAt_session _) fun last => ?_
  refine Keeps.bind (onShm_session (SharedMemoryContext.getBucketDataSize_keeps _ _ _ _))
    fun size => ?_
  refine Keeps.ite (modifyLocal_session fun x => ⟨⟨rfl, rfl, rfl, rfl, id⟩, rfl, rfl⟩) Keeps.pure

theorem flushEof_session (cfg : Config) : Keeps (Session S P True) (flushEof cfg) :=
  Keeps.bind (getSharedMemEof_session cfg) fun _ =>
    Keeps.bind Keeps.get fun _ => logRecord_session _ _ _

theorem updateInactivated_session (cfg : Config) (blocks : List Block) :
    Keeps (Session S P True) (updateInactivated cfg blocks) := by
  induction blocks with
  | nil => exact Keeps.pure
  | cons b rest ih =>
      unfold updateInactivated
      cases b.blockId with
      | none => exact Keeps.throw
      | some i =>
          refine Keeps.bind (blockAt_session i) fun _ => ?_
          refine Keeps.bind (modifyLocal_session fun x => ⟨⟨rfl, rfl, rfl, rfl, id⟩, rfl, rfl⟩)
            fun _ => ?_
          refine Keeps.bind Keeps.get fun c => Keeps.ite ?_ ih
          exact Keeps.bind (flushEof_session cfg) fun _ => ih

theorem blocksOf_session (keys : List Nat) : Keeps (Session S P caught) (blocksOf keys) := by
  induction keys with
  | nil => exact Keeps.pure
  | cons key rest ih =>
      exact Keeps.bind (blockAt_session key) fun _ => Keeps.bind ih fun _ => Keeps.pure

theorem removeNumOfKeys_session (num : Nat) :
    Keeps (Session S P caught) (removeNumOfKeys num) :=
  Keeps.bind Keeps.get fun _ =>
    Keeps.bind (modifyLocal_session fun _ => ⟨⟨rfl, rfl, rfl, rfl, id⟩, rfl, rfl⟩)
      fun _ => Keeps.pure

section

variable (hbenign : S.Benign P)
include hbenign

theorem inactivateOldest_session (cfg : Config) (num : Nat) :
    Keeps (Session S P True) (inactivateOldest cfg num) := by
  refine Keeps.bind (removeNumOfKeys_session num) fun keys => ?_
  refine Keeps.bind (blocksOf_session keys) fun blocks => Keeps.bind Keeps.get fun c => ?_
  refine myActiveId_bind (fun a ha => ?_) fun _ _ => id
  have hinactivate := SharedMemoryContext.inactivateBuckets_keeps
    (fun (y : Block) (_ : y ∈ blocks) b _ => hbenign.leave a b ha)
    (fun _ _ b _ => hbenign.retire a b ha) (fun _ _ b _ => hbenign.leaveFailed a b ha) c.self.fileId
  refine Keeps.bind (onShm_session hinactivate) fun turned => ?_
  exact Keeps.bind (updateInactivated_session cfg turned) fun _ => logRecord_session _ _ _

theorem acquireFree_session (num : Nat) : Keeps (Session S P caught) (acquireFree num) := by
  refine Keeps.bind Keeps.get fun c => myActiveId_bind (fun a ha => ?_) fun _ _ => id
  have hacquire := SharedMemoryContext.acquireFreeBucket_keeps (fun b => hbenign.take a b ha)
    hbenign.takeFailed num c.self.fileId c.self.isWrite
  refine Keeps.bind (onShm_session hacquire) fun ids => ?_
  exact Keeps.bind (modifyLocal_session fun x => ⟨⟨rfl, rfl, rfl, rfl, id⟩, rfl, rfl⟩)
    fun _ => Keeps.pure

theorem startEvict_session
    (hevict : ∀ a b, S.handle.activeId = some a → Leads P (.evict a b) Q)
    (hPQ : ∀ s, P s → Q s) (loop : EvictLoop) :
    Spec (Session S P caught) (startEvict loop) (fun _ => Session S Q caught)
      (fun _ => Session S Q caught) := by
  apply Spec.ite
  · intro _
    refine myActiveId_bind (fun a ha => ?_) fun _ _ hc => hc.mono hPQ
    have hmark : Spec P (SharedMemoryContext.markBucketEvicting a) (fun _ => Q) (fun _ => P) :=
      SharedMemoryContext.markBucketEvicting_spec hbenign.hand hbenign.age
        fun s s' b _ hs _ hmove => hevict a b ha s s' hmove hs
    refine Spec.bind ((onShm_session hmark).conseq (fun _ => id) (fun _ _ => id)
      fun _ _ hc => hc.mono hPQ) fun info => ?_
    exact Spec.pure fun _ => id
  · intro _
    exact Spec.pure fun _ hc => hc.mono hPQ

omit hbenign in
theorem adjustSize_session (newQuota : Nat) :
    Keeps (Session S P caught) (adjustSize newQuota) := by
  refine Keeps.bind Keeps.get fun c => ?_
  refine Keeps.bind (modifyLocal_session fun x => ⟨⟨rfl, rfl, rfl, rfl, id⟩, rfl, rfl⟩)
    fun _ => ?_
  exact Keeps.ite Keeps.throw Keeps.pure

theorem acquireFirst_session
    (hevict : ∀ a b, S.handle.activeId = some a → Leads P (.evict a b) Q)
    (hPQ : ∀ s, P s → Q s) (cfg : Config) :
    Spec (Session S P False) (acquireFirst cfg) (fun _ => Session S Q False)
      (fun _ => Session S Q False) := by
  have hexit : ∀ {α : Type} {prog : StatusM α}, Keeps (Session S P True) prog →
      Spec (Session S P True) prog (fun _ => Session S P True) (fun _ => Session S Q True) :=
    fun h => h.conseq (fun _ => id) (fun _ _ => id) fun _ _ hc => hc.mono hPQ
  apply section_session hPQ
  refine Spec.bind (hexit Keeps.get) fun c => ?_
  dsimp only
  cases acquirePolicy _ _ _ _ _ with
  | error e => exact Spec.throw fun _ hc => hc.mono hPQ
  | ok policy =>
      obtain ⟨numToInactivate, numToAcquire⟩ := policy
      have hrest : Spec (Session S P True) (do
          adjustSize (if c.self.isSequence then min cfg.curQuotaSize preAllocateBucketNum
            else cfg.curQuotaSize)
          let blocks ← acquireFree (min numToAcquire c.shm.header.numFreeBuckets)
          logAcquireNewBlock blocks
          startEvict ⟨numToAcquire - min numToAcquire c.shm.header.numFreeBuckets, false,
            .invalid⟩) (fun _ => Session S Q True) (fun _ => Session S Q True) := by
        refine Spec.bind (hexit (adjustSize_session _)) fun _ => ?_
        refine Spec.bind (hexit (acquireFree_session hbenign _)) fun blocks => ?_
        exact Spec.bind (hexit (logRecord_session _ _ _))
          fun _ => startEvict_session hbenign hevict hPQ _
      apply Spec.ite
      · intro _
        exact Spec.bind (hexit (inactivateOldest_session hbenign cfg _)) fun _ => hrest
      · intro _
        exact hrest

end

/-- A record of an eviction goes to the end of the manifest of the evicted
file, which is another file unless the handle evicts a block of its own. -/
theorem logEvictBlock_session (info : BlockInfo) :
    Keeps (Session S P True) (logEvictBlock info) := by
  refine Spec.get_bind fun c hc => Spec.ite (fun _ => ?_) fun hown => ?_
  · have hkeep : Keeps (Session S P True) (logEvcitBlock ⟨none, info.blockId, false, .free, 0⟩) :=
      logRecord_session _ _ _
    refine Spec.weaken_pre (Keeps.bind hkeep fun _ => ?_) (fun s hs => hs ▸ hc)
    cases info.blockId with
    | none => exact Keeps.throw
    | some i =>
        exact Keeps.bind (blockAt_session i) fun _ =>
          modifyLocal_session fun x => ⟨⟨rfl, rfl, rfl, rfl, id⟩, rfl, rfl⟩
  · intro s hs
    obtain rfl : c = s := hs.symm
    cases hlink : c.folder.links info.fileId with
    | none => exact hc
    | some file =>
        refine ⟨hc.identity, hc.links, hc.logFile, hc.segment, fun ht => ?_⟩
        obtain ⟨hgrown, hown', done, pending, hfd, hcontent, hpos⟩ := hc.journal ht
        have hlink' : S.folder.links info.fileId = some file := by rw [← hgrown.links, hlink]
        have hne : file ≠ S.own := by
          rintro rfl
          exact hown ((hc.identity.fileId).trans (hown'.owner _ hlink').symm)
        have hbound : file < c.folder.files.length := by
          rw [hgrown.files]
          exact hown'.links _ _ hlink'
        refine ⟨hgrown.trans ?_, hown', done, pending, hfd, ?_, hpos⟩
        · rw [← hc.identity.client]
          exact ManifestFolder.Grown.mfWrite ⟨file, (c.folder.content file).length⟩
            ⟨c.self.client, _⟩ hbound rfl
        · rw [← hcontent]
          exact ManifestFolder.content_mfWrite_other _ _ (Ne.symm hne)

theorem finishEvict_session {loop : EvictLoop} (hends : S.Ends P loop.evictBlockInfo Q)
    (hPQ : ∀ s, P s → Q s) :
    Spec (Session S P True) (finishEvict loop) (fun _ => Session S Q True)
      (fun _ => Session S Q True) := by
  refine Spec.bind (Keeps.get.conseq (fun _ => id) (fun _ _ => id) fun _ _ hc => hc.mono hPQ)
    fun c => ?_
  refine myActiveId_bind (fun a ha => ?_) fun _ _ hc => hc.mono hPQ
  have hfinish : Spec P (SharedMemoryContext.evictBucketFinishAndTryAcquire
      loop.evictBlockInfo.bucketId a c.self.fileId c.self.isWrite) (fun _ => Q) (fun _ => Q) :=
    SharedMemoryContext.evictBucketFinishAndTryAcquire_spec (hends.stolen a ha) (hends.failed a ha)
      (fun i hi s s' _ _ hmove hs => hends.take a i ha hi s s' hmove hs) _ _
  refine Spec.bind (onShm_session hfinish) fun rc => ?_
  have hpush : Keeps (Session S Q True) (modifySelf fun h => { h with
      preAllocatedBuckets := h.preAllocatedBuckets ++ [newBlock loop.evictBlockInfo.bucketId] }) :=
    modifyLocal_session fun x => ⟨⟨rfl, rfl, rfl, rfl, id⟩, rfl, rfl⟩
  cases rc with
  | stolen => exact Keeps.bind modifyOss_session fun _ => Keeps.pure
  | finished =>
      exact Keeps.bind hpush fun _ =>
        Keeps.bind (logEvictBlock_session _) fun _ => Keeps.pure
  | deleted =>
      exact Keeps.bind hpush fun _ => Keeps.bind modifyOss_session fun _ => Keeps.pure

/-- A round of the evict loop ends one eviction, acquires free buckets and starts
the next eviction. -/
theorem acquireNext_session {loop : EvictLoop} (hbenign : S.Benign Q)
    (hends : loop.evicting = true → S.Ends P loop.evictBlockInfo Q) (hPQ : ∀ s, P s → Q s)
    (hevict : ∀ a b, S.handle.activeId = some a → Leads Q (.evict a b) R)
    (hQR : ∀ s, Q s → R s) :
    Spec (Session S P False) (acquireNext loop) (fun _ => Session S R False)
      (fun _ => Session S R False) := by
  have hexit : ∀ {α : Type} {prog : StatusM α}, Keeps (Session S Q True) prog →
      Spec (Session S Q True) prog (fun _ => Session S Q True) (fun _ => Session S R True) :=
    fun h => h.conseq (fun _ => id) (fun _ _ => id) fun _ _ hc => hc.mono hQR
  have hlog : ∀ (loop : EvictLoop) (blocks : List Block),
      Spec (Session S Q True) (logAcquireNewBlock blocks >>= fun _ => startEvict loop)
        (fun _ => Session S R True) (fun _ => Session S R True) :=
    fun loop blocks => Spec.bind (hexit (logRecord_session _ _ _))
      fun _ => startEvict_session hbenign hevict hQR loop
  have hrest : ∀ result : EvictLoop × List Block, Spec (Session S Q True) (do
      let c ← get
      let numAcqurieFree := min result.1.numToAcquire c.shm.header.numFreeBuckets
      let blocks ← if numAcqurieFree > 0 then acquireFree numAcqurieFree else pure []
      logAcquireNewBlock (result.2 ++ blocks)
      startEvict { result.1 with numToAcquire := result.1.numToAcquire - numAcqurieFree })
        (fun _ => Session S R True) (fun _ => Session S R True) := by
    intro result
    refine Spec.bind (hexit Keeps.get) fun c => Spec.ite (fun _ => ?_) fun _ => ?_
    · exact Spec.bind (hexit (acquireFree_session hbenign _)) fun blocks => hlog _ _
    · exact Spec.bind (hexit Keeps.pure) fun blocks => hlog _ _
  apply section_session fun s hs => hQR s (hPQ s hs)
  refine Spec.ite (fun hevicting => ?_) fun _ => ?_
  · exact Spec.bind ((finishEvict_session (hends hevicting) hPQ).conseq (fun _ => id)
      (fun _ _ => id) fun _ _ hc => hc.mono hQR) fun result => hrest result
  · exact Spec.bind (Spec.pure fun _ hc => hc.mono hPQ) fun result => hrest result

theorem putActive_session (blockId bucketId : Option Nat) :
    Keeps (Session S P caught) (putActive blockId bucketId) := by
  cases blockId with
  | none => exact Keeps.throw
  | some i =>
      unfold putActive
      exact modifyLocal_session fun x => ⟨⟨rfl, rfl, rfl, rfl, id⟩, rfl, rfl⟩

theorem makeRoom_session (hbenign : S.Benign P) (cfg : Config) :
    Keeps (Session S P True) (makeRoom cfg) := by
  refine Keeps.bind Keeps.get fun c => Keeps.ite (Keeps.ite ?_ ?_) (Keeps.ite ?_ ?_)
  · exact inactivateOldest_session hbenign cfg 1
  · cases c.self.preAllocatedBuckets.getLast? with
    | none => exact Keeps.throw
    | some block =>
        refine Keeps.bind (modifyLocal_session fun x => ⟨⟨rfl, rfl, rfl, rfl, id⟩, rfl, rfl⟩)
          fun _ => ?_
        have hrelease := SharedMemoryContext.releaseBuckets_keeps
          fun (y : Block) (_ : y ∈ [block]) b _ => hbenign.release b
        refine Keeps.bind (onShm_session hrelease) fun _ => ?_
        exact logRecord_session _ _ _
  · exact Keeps.throw
  · exact Keeps.pure

theorem startLoading_session (hPQ : ∀ s, P s → Q s)
    (hload : ∀ a b, S.handle.activeId = some a → Leads P (.load a b) Q) (cfg : Config)
    (blockId : Nat) :
    Spec (Session S P caught) (startLoading cfg blockId) (fun _ => Session S Q caught)
      (fun _ => Session S Q caught) := by
  have hexit : ∀ {α : Type} {prog : StatusM α}, Keeps (Session S P caught) prog →
      Spec (Session S P caught) prog (fun _ => Session S P caught) (fun _ => Session S Q caught) :=
    fun h => h.conseq (fun _ => id) (fun _ _ => id) fun _ _ hc => hc.mono hPQ
  refine Spec.bind (hexit Keeps.get) fun c => ?_
  dsimp only
  cases c.self.preAllocatedBuckets with
  | nil => exact Spec.throw fun _ hc => hc.mono hPQ
  | cons front rest =>
      refine Spec.bind (hexit (onShm_session (SharedMemoryContext.inRange_keeps _))) fun b => ?_
      refine myActiveId_bind (fun a ha => ?_) fun _ _ hc => hc.mono hPQ
      have hmark : Spec P (SharedMemoryContext.markBucketLoading b blockId a c.self.fileId)
          (fun _ => Q) (fun _ => Q) := by
        intro s hs
        rcases SharedMemoryContext.markBucketLoading_cases b blockId a c.self.fileId s with
          ⟨-, hrun⟩ | ⟨-, s', hrun, hmove⟩
        · rw [hrun]
          exact hPQ s hs
        · rw [hrun]
          exact hload a b ha s s' hmove hs
      refine Spec.bind (onShm_session hmark) fun marked => Keeps.ite ?_ Keeps.pure
      exact Keeps.bind (modifyLocal_session fun x => ⟨⟨rfl, rfl, rfl, rfl, id⟩, rfl, rfl⟩)
        fun _ => Keeps.pure

section

variable (hbenign : S.Benign P) (hPQ : ∀ s, P s → Q s)
include hbenign hPQ

/-- The local branch, by what the activation does to a bucket of the file. -/
theorem activateLocal_bucket (hactivate : ∀ a block w, S.handle.activeId = some a →
      Spec P (SharedMemoryContext.activateBucket S.handle.fileId block a w) (fun _ => Q) fun _ => Q)
    (cfg : Config) (blockId : Nat) :
    Spec (Session S P True) (activateLocal cfg blockId) (fun _ => Session S Q True)
      (fun _ => Session S Q True) := by
  have hexit : ∀ {α : Type} {prog : StatusM α}, Keeps (Session S P True) prog →
      Spec (Session S P True) prog (fun _ => Session S P True) (fun _ => Session S Q True) :=
    fun h => h.conseq (fun _ => id) (fun _ _ => id) fun _ _ hc => hc.mono hPQ
  refine Spec.bind (hexit (makeRoom_session hbenign cfg)) fun _ => Spec.get_bind fun c hc => ?_
  refine Spec.weaken_pre (Spec.bind (hexit (blockAt_session blockId)) fun block => ?_)
    fun c' hc' => hc' ▸ hc
  refine myActiveId_bind (fun a ha => ?_) fun _ _ hc => hc.mono hPQ
  rw [hc.identity.fileId]
  refine Spec.bind (onShm_session (hactivate a block _ ha)) fun byMe => Keeps.ite ?_ ?_
  · refine Keeps.bind (logRecord_session _ _ _) fun _ => ?_
    exact Keeps.bind (putActive_session _ _) fun _ => Keeps.pure
  · exact Keeps.bind (putActive_session _ _) fun _ => Keeps.pure

theorem activateBlock_bucket (hactivate : ∀ a block w, S.handle.activeId = some a →
      Spec P (SharedMemoryContext.activateBucket S.handle.fileId block a w) (fun _ => Q) fun _ => Q)
    (hload : ∀ a b, S.handle.activeId = some a → Leads P (.load a b) Q)
    (cfg : Config) (blockId : Nat) :
    Spec (Session S P False) (activateBlock cfg blockId) (fun _ => Session S Q False)
      (fun _ => Session S Q False) := by
  apply section_session hPQ
  refine Spec.bind ((blockAt_session blockId).conseq (fun _ => id) (fun _ _ => id)
    fun _ _ hc => hc.mono hPQ) fun block => Spec.ite (fun _ => ?_) fun _ => ?_
  · exact startLoading_session hPQ hload cfg blockId
  · refine Spec.ite (fun _ => ?_) fun _ => Spec.throw fun _ hc => hc.mono hPQ
    exact activateLocal_bucket hbenign hPQ hactivate cfg blockId

theorem activateBlock_session (hactivates : S.Activates P Q)
    (hload : ∀ a b, S.handle.activeId = some a → Leads P (.load a b) Q)
    (cfg : Config) (blockId : Nat) :
    Spec (Session S P False) (activateBlock cfg blockId) (fun _ => Session S Q False)
      (fun _ => Session S Q False) := by
  refine activateBlock_bucket hbenign hPQ (fun a block w ha => ?_) hload cfg blockId
  exact SharedMemoryContext.activateBucket_spec
    (fun b (_ : block.bucketId = some b) => hactivates.activate a b ha)
    (fun b e _ => hactivates.steal a b e ha) (fun b _ => hactivates.join a b ha)
    (fun b _ => hactivates.failed b) hPQ S.handle.fileId w

end

theorem extendOneBlock_session (hPQ : ∀ s, P s → Q s) (hindex : ∀ b, Leads P (.index b) Q) :
    Spec (Session S P False) extendOneBlock (fun _ => Session S Q False)
      (fun _ => Session S Q False) := by
  have hexit : ∀ {α : Type} {prog : StatusM α}, Keeps (Session S P False) prog →
      Spec (Session S P False) prog (fun _ => Session S P False) (fun _ => Session S Q False) :=
    fun h => h.conseq (fun _ => id) (fun _ _ => id) fun _ _ hc => hc.mono hPQ
  refine Spec.bind (hexit Keeps.get) fun c => ?_
  dsimp only
  cases c.self.preAllocatedBuckets with
  | nil => exact Spec.throw fun _ hc => hc.mono hPQ
  | cons front rest =>
      refine Spec.bind (hexit (modifyLocal_session
        fun x => ⟨⟨rfl, rfl, rfl, rfl, id⟩, rfl, rfl⟩)) fun _ => ?_
      refine Spec.bind (hexit (putActive_session _ _)) fun _ => section_session hPQ ?_
      refine Spec.bind (onShm_session (SharedMemoryContext.updateActiveFileInfo_spec
        (fun b _ => hindex b) hPQ _)) fun _ => ?_
      exact Keeps.bind Keeps.get fun _ => logRecord_session _ _ _

section Sizes

variable {cfg : Config}

theorem onShm_markLoadFinish_session {a : Nat} (ha : S.handle.activeId = some a)
    (hloaded : ∀ a b, S.handle.activeId = some a → Leads P (.loaded a b) P) (b : Nat) :
    Keeps (Session S P caught) (onShm (SharedMemoryContext.markLoadFinish b a)) := by
  apply onShm_session
  intro s hs
  obtain ⟨s', hrun, hmove⟩ := SharedMemoryContext.markLoadFinish_move b a s
  rw [hrun]
  exact hloaded a b ha s s' hmove hs

theorem loadSucceeded_session
    (hloaded : ∀ a b, S.handle.activeId = some a → Leads P (.loaded a b) P)
    (hresize : ∀ a b, S.handle.activeId = some a → Leads P (.resize a b cfg.localBucketSize) P)
    (info : BlockInfo) (blockSize : Nat) :
    Keeps (Session S P True) (loadSucceeded cfg info blockSize) := by
  refine Keeps.bind Keeps.get fun c => eachLoading_keeps (fun i theBlock => ?_) _ _
  refine Keeps.bind Keeps.get fun c => myActiveId_bind (fun a ha => ?_) fun _ _ => id
  refine Keeps.bind (onShm_session (SharedMemoryContext.inRange_keeps _)) fun b => ?_
  refine Keeps.bind (onShm_markLoadFinish_session ha hloaded b) fun _ => ?_
  refine Keeps.bind (onShm_session (SharedMemoryContext.updateBucketDataSize_keeps
    (fun b => hresize a b ha) _ _ _)) fun _ => ?_
  refine Keeps.bind (modifyLocal_session fun x => ⟨⟨rfl, rfl, rfl, rfl, id⟩, rfl, rfl⟩)
    fun _ => ?_
  refine Keeps.bind (putActive_session _ _) fun _ => ?_
  cases theBlock.blockId with
  | none => exact Keeps.bind Keeps.throw fun _ => logRecord_session _ _ _
  | some j =>
      refine Keeps.bind (blockAt_session j) fun _ => ?_
      refine Keeps.bind (modifyLocal_session fun x => ⟨⟨rfl, rfl, rfl, rfl, id⟩, rfl, rfl⟩)
        fun _ => ?_
      exact logRecord_session _ _ _

theorem loadFailed_session
    (hloaded : ∀ a b, S.handle.activeId = some a → Leads P (.loaded a b) P) (info : BlockInfo) :
    Keeps (Session S P caught) (loadFailed info) := by
  refine Keeps.bind Keeps.get fun c => eachLoading_keeps (fun i theBlock => ?_) _ _
  refine myActiveId_bind (fun a ha => ?_) fun _ _ => id
  refine Keeps.bind (onShm_session (SharedMemoryContext.inRange_keeps _)) fun b => ?_
  refine Keeps.bind (onShm_markLoadFinish_session ha hloaded b) fun _ => ?_
  exact modifyLocal_session fun x => ⟨⟨rfl, rfl, rfl, rfl, id⟩, rfl, rfl⟩

variable (hresize : ∀ a b, S.handle.activeId = some a →
  Leads P (.resize a b cfg.localBucketSize) P)
include hresize

theorem updateCurBlockSize_session : Keeps (Session S P False) (updateCurBlockSize cfg) := by
  refine Keeps.bind Keeps.get fun c => section_session (fun _ => id) (Keeps.bind Keeps.get
    fun c' => ?_)
  refine Keeps.ite ?_ (Keeps.ite Keeps.throw Keeps.pure)
  refine Keeps.bind (blockAt_session _) fun last => myActiveId_bind (fun a ha => ?_) fun _ _ => id
  exact onShm_session (SharedMemoryContext.updateBucketDataSize_keeps (fun b => hresize a b ha)
    _ _ _)

theorem setPosition_session (pos : Nat) :
    Keeps (Session S P False) (setPosition cfg pos) := by
  refine Keeps.bind (modifyLocal_session fun x => ⟨⟨rfl, rfl, rfl, rfl, id⟩, rfl, rfl⟩)
    fun _ => Keeps.bind Keeps.get fun c => Keeps.ite ?_ Keeps.pure
  exact Keeps.bind (modifyLocal_session fun x => ⟨⟨rfl, rfl, rfl, rfl, id⟩, rfl, rfl⟩)
    fun _ => updateCurBlockSize_session hresize

end Sizes

theorem flush_session (cfg : Config) : Keeps (Session S P False) (flush cfg) := by
  refine Keeps.bind Keeps.get fun c => section_session (fun _ => id) (Keeps.bind Keeps.get
    fun c' => ?_)
  refine Keeps.ite ?_ Keeps.throw
  cases c'.self.blockArray.getLast? with
  | none => exact Keeps.throw
  | some last => exact Keeps.ite (flushEof_session cfg) Keeps.pure

end FileActiveStatus

end Gopherwood
