/-
# Reading and appending to a manifest

What the descriptor operations do on a manifest that is a sequence of whole
records. A descriptor stands behind the records it has passed; fetching reads
the next one, catching up replays all that are left, and a write through a
descriptor at the end appends.
-/

import Gopherwood.Core.FileActiveStatus

namespace Gopherwood

theorem LogEntry.recordLength_pos (e : LogEntry) : 0 < e.recordLength := by
  unfold LogEntry.recordLength
  omega

/-- The bytes of a sequence of log entries. -/
def logBytes (entries : List LogEntry) : LogFile := Library.frames LogEntry.recordLength entries

@[simp]
theorem logBytes_nil : logBytes [] = [] := rfl

@[simp]
theorem logBytes_append (first second : List LogEntry) :
    logBytes (first ++ second) = logBytes first ++ logBytes second :=
  Library.frames_append _ _ _

theorem logBytes_injective {first second : List LogEntry}
    (h : logBytes first = logBytes second) : first = second :=
  Library.frames_injective LogEntry.recordLength_pos h

theorem length_logBytes_singleton (e : LogEntry) : (logBytes [e]).length = e.recordLength := by
  rw [logBytes, Library.frames_singleton, Library.length_frame]

theorem length_le_logBytes (entries : List LogEntry) :
    entries.length ≤ (logBytes entries).length := by
  induction entries with
  | nil => exact Nat.le_refl 0
  | cons e rest ih =>
      rw [← List.singleton_append, logBytes_append, List.length_append, List.length_append,
        length_logBytes_singleton]
      have := e.recordLength_pos
      simp only [List.length_cons, List.length_nil]
      omega

theorem mem_logBytes {entries : List LogEntry} {e : LogEntry} :
    e ∈ entries ↔ ∃ k, (e, k) ∈ logBytes entries := by
  simp only [logBytes, Library.frames, Library.frame, List.mem_flatMap, List.mem_map,
    List.mem_range, Prod.mk.injEq]
  constructor
  · intro he
    exact ⟨0, e, he, 0, e.recordLength_pos, rfl, rfl⟩
  · rintro ⟨_, _, he, _, _, rfl, _⟩
    exact he

/-- Fetching a record moves the descriptor in its file. -/
theorem fetchOneLogRecord_file (bytes : LogFile) (fd : Descriptor) :
    (fetchOneLogRecord bytes fd).2.file = fd.file := by
  unfold fetchOneLogRecord
  split
  · rfl
  · rfl
  · split <;> rfl

/-- The record fits the buffer that records are read into. Nothing in the code bounds the
records that are written. -/
def LogEntry.Fits (e : LogEntry) : Prop := e.recordLength ≤ manifestBufferSize

/-- The descriptor has passed the records `done` of a manifest that holds `done` and then
`pending`. So catching up is replaying `pending`, and appending is safe when there is none.
-/
structure Descriptor.At (d : ManifestFolder) (fd : Descriptor)
    (done pending : List LogEntry) : Prop where
  content : d.content fd.file = logBytes (done ++ pending)
  offset : fd.offset = (logBytes done).length

theorem fetchOneLogRecord_end {bytes : LogFile} {fd : Descriptor} {done : List LogEntry}
    (hbytes : bytes = logBytes done) (hoffset : fd.offset = (logBytes done).length) :
    fetchOneLogRecord bytes fd = (.ok none, fd) := by
  subst hbytes
  unfold fetchOneLogRecord
  rw [hoffset, logBytes, Library.fetch_end]

theorem fetchOneLogRecord_next {bytes : LogFile} {fd : Descriptor} {done rest : List LogEntry}
    {e : LogEntry} (hbytes : bytes = logBytes (done ++ e :: rest))
    (hoffset : fd.offset = (logBytes done).length) (hfits : e.Fits) :
    fetchOneLogRecord bytes fd =
      (.ok (some e), { fd with offset := (logBytes (done ++ [e])).length }) := by
  subst hbytes
  unfold fetchOneLogRecord
  rw [hoffset, logBytes, logBytes, Library.fetch_next LogEntry.recordLength_pos]
  simp only [gt_iff_lt, Nat.not_lt.mpr hfits, if_false, logBytes_append, List.length_append,
    length_logBytes_singleton]
  rfl

/-- The handle after it fetched `read` and replayed it to `v`. -/
def FileActiveStatus.advanceTo (h : FileActiveStatus) (fd : Descriptor) (read : List LogEntry)
    (v : View) : FileActiveStatus :=
  { h with
    fd := some fd, readEntries := h.readEntries ++ read
    blockArray := v.blockArray, eof := v.eof }

/-- The context after its handle fetched and replayed `read`. -/
def Ctx.caughtUp (c : Ctx) (fd : Descriptor) (read : List LogEntry) (v : View) : Ctx :=
  { c with self := c.self.advanceTo fd read v }

theorem replay_cons_ok {view mid v : View} {r : Record} {rest : List Record}
    (hr : replayRecord view r = .ok mid) (h : replay mid rest = .ok v) :
    replay view (r :: rest) = .ok v := by
  simp only [replay, List.foldlM_cons]
  rw [hr]
  exact h

/-- The records of a log that is replayed are replayed one after the other. -/
theorem replay_cons_cases (view : View) (r : Record) (rest : List Record) :
    (∃ e, replayRecord view r = .error e ∧ replay view (r :: rest) = .error e) ∨
      ∃ mid, replayRecord view r = .ok mid ∧ replay view (r :: rest) = replay mid rest := by
  simp only [replay, List.foldlM_cons]
  cases hr : replayRecord view r with
  | error e => exact Or.inl ⟨e, rfl, rfl⟩
  | ok mid => exact Or.inr ⟨mid, rfl, rfl⟩

theorem replay_append (view : View) (first second : List Record) :
    replay view (first ++ second) = (replay view first).bind (replay · second) := by
  simp only [replay, List.foldlM_append]
  rfl

namespace FileActiveStatus

/-- The loop replays the pending records, and stops at the first that cannot be
replayed, which counts as read. -/
theorem catchUp_loop {pending : List LogEntry} :
    ∀ {fuel : Nat} {c : Ctx} {fd : Descriptor} {done : List LogEntry},
      c.self.fd = some fd → fd.At c.folder done pending → pending.length < fuel →
      (∀ e ∈ pending, e.Fits) →
      (∃ v, replay c.self.view (pending.map LogEntry.record) = .ok v ∧
        catchUpManifestLogs.loop fuel c = .ok () (c.caughtUp
          ⟨fd.file, (logBytes (done ++ pending)).length⟩ pending v)) ∨
      (∃ e v read last rest, pending = read ++ [last] ++ rest ∧
        replay c.self.view (read.map LogEntry.record) = .ok v ∧
        replayRecord v last.record = .error e ∧
        catchUpManifestLogs.loop fuel c = .error e (c.caughtUp
          ⟨fd.file, (logBytes (done ++ (read ++ [last]))).length⟩ (read ++ [last]) v)) := by
  induction pending with
  | nil =>
      intro fuel c fd done hfd hat hfuel _
      obtain ⟨fuel, rfl⟩ : ∃ n, fuel = n + 1 := ⟨fuel - 1, by omega⟩
      have hfetch : fetchOneLogRecord (c.folder.content fd.file) fd = (.ok none, fd) :=
        fetchOneLogRecord_end (by simpa using hat.content) hat.offset
      refine Or.inl ⟨c.self.view, rfl, ?_⟩
      have hoffset : (logBytes done).length = fd.offset := hat.offset.symm
      simp [catchUpManifestLogs.loop, modifySelf, hfd, hfetch, Ctx.caughtUp, advanceTo, view,
        hoffset]
  | cons e rest ih =>
      intro fuel c fd done hfd hat hfuel hfits
      obtain ⟨fuel, rfl⟩ : ∃ n, fuel = n + 1 := ⟨fuel - 1, by omega⟩
      let fd' : Descriptor := ⟨fd.file, (logBytes (done ++ [e])).length⟩
      have hfetch : fetchOneLogRecord (c.folder.content fd.file) fd = (.ok (some e), fd') :=
        fetchOneLogRecord_next hat.content hat.offset (hfits e (List.mem_cons_self ..))
      rw [List.map_cons]
      rcases replay_cons_cases c.self.view e.record (rest.map LogEntry.record) with
        ⟨err, hstep, -⟩ | ⟨mid, hstep, hreplay⟩
      · -- the record is fetched but cannot be replayed
        refine Or.inr ⟨err, c.self.view, [], e, rest, rfl, rfl, hstep, ?_⟩
        have hloop : catchUpManifestLogs.loop (fuel + 1) c =
            .error err (c.caughtUp fd' [e] c.self.view) := by
          simp only [catchUpManifestLogs.loop, modifySelf, Library.run_bind, Library.run_get, hfd,
            hfetch, Library.run_modify, hstep, Library.run_throw]
          rfl
        exact hloop
      · let c' : Ctx := c.caughtUp fd' [e] mid
        have hloop : catchUpManifestLogs.loop (fuel + 1) c = catchUpManifestLogs.loop fuel c' := by
          simp [catchUpManifestLogs.loop, modifySelf, hfd, hfetch, hstep, Ctx.caughtUp,
            advanceTo, c']
        have hat' : fd'.At c'.folder (done ++ [e]) rest :=
          ⟨by simpa [c', fd', Ctx.caughtUp, List.append_assoc] using hat.content, rfl⟩
        have hlength : rest.length < fuel := by
          simp only [List.length_cons] at hfuel
          omega
        have hrest := ih (c := c') rfl hat' hlength
          (fun x hx => hfits x (List.mem_cons_of_mem _ hx))
        rw [hloop, hreplay]
        rcases hrest with ⟨v, hv, hrun⟩ | ⟨err, v, read, last, left, hsplit, hv, herror, hrun⟩
        · refine Or.inl ⟨v, hv, ?_⟩
          rw [hrun]
          simp [c', Ctx.caughtUp, advanceTo, fd', List.append_assoc]
        · refine Or.inr ⟨err, v, e :: read, last, left, by rw [hsplit]; rfl,
            replay_cons_ok hstep hv, herror, ?_⟩
          rw [hrun]
          simp [c', Ctx.caughtUp, advanceTo, fd', List.append_assoc]

/-- Catching up replays every pending record, or throws behind the first one
that cannot be replayed. -/
theorem catchUp_cases {c : Ctx} {fd : Descriptor} {done pending : List LogEntry}
    (hfd : c.self.fd = some fd) (hat : fd.At c.folder done pending)
    (hfits : ∀ e ∈ pending, e.Fits) :
    (∃ v, replay c.self.view (pending.map LogEntry.record) = .ok v ∧
      catchUpManifestLogs c = .ok () (c.caughtUp
        ⟨fd.file, (logBytes (done ++ pending)).length⟩ pending v)) ∨
    (∃ e v read last rest, pending = read ++ [last] ++ rest ∧
      replay c.self.view (read.map LogEntry.record) = .ok v ∧
      replayRecord v last.record = .error e ∧
      catchUpManifestLogs c = .error e (c.caughtUp
        ⟨fd.file, (logBytes (done ++ (read ++ [last]))).length⟩ (read ++ [last]) v)) := by
  have hfuel : pending.length < (c.folder.content fd.file).length + 1 := by
    have := length_le_logBytes (done ++ pending)
    rw [hat.content]
    simp only [List.length_append] at this ⊢
    omega
  have hunfold : catchUpManifestLogs c =
      catchUpManifestLogs.loop ((c.folder.content fd.file).length + 1) c := by
    simp [catchUpManifestLogs, hfd]
  rw [hunfold]
  exact catchUp_loop hfd hat hfuel hfits

/-- Without a descriptor nothing is read. -/
theorem catchUp_closed {c : Ctx} (hfd : c.self.fd = none) :
    catchUpManifestLogs c =
      .error (.gopherwood "[Manifest::fetchOneLogRecord] read log error") c := by
  simp [catchUpManifestLogs, hfd]

end FileActiveStatus

namespace ManifestFolder

variable {d : ManifestFolder} {fd : Descriptor} {entry : LogEntry} {file : Nat}

theorem content_mfWrite_other (fd : Descriptor) (entry : LogEntry) (hne : file ≠ fd.file) :
    (d.mfWrite fd entry).1.content file = d.content file := by
  simp [mfWrite, content, List.getD_eq_getElem?_getD, Ne.symm hne]

/-- A write at the end of a manifest appends the record. -/
theorem content_mfWrite_end (fd : Descriptor) (entry : LogEntry) (hfile : fd.file < d.files.length)
    (hoffset : fd.offset = (d.content fd.file).length) :
    (d.mfWrite fd entry).1.content fd.file = d.content fd.file ++ logBytes [entry] := by
  have hwrite : (d.mfWrite fd entry).1.content fd.file =
      Library.overwrite LogFile.hole (d.content fd.file) fd.offset
        (Library.frame LogEntry.recordLength entry) := by
    simp [mfWrite, content, List.getD_eq_getElem?_getD, List.getElem?_eq_getElem hfile]
  rw [hwrite, hoffset, Library.overwrite_length, logBytes, Library.frames_singleton]

theorem offset_mfWrite :
    (d.mfWrite fd entry).2 = ⟨fd.file, fd.offset + (logBytes [entry]).length⟩ := by
  simp [mfWrite, logBytes, Library.frames_singleton]

@[simp]
theorem links_mfWrite : (d.mfWrite fd entry).1.links = d.links := rfl

@[simp]
theorem length_files_mfWrite : (d.mfWrite fd entry).1.files.length = d.files.length := by
  simp [mfWrite]

theorem content_mfTruncate_other (fd : Descriptor) (hne : file ≠ fd.file) :
    (d.mfTruncate fd).1.content file = d.content file := by
  simp [mfTruncate, content, List.getD_eq_getElem?_getD, Ne.symm hne]

theorem content_mfTruncate (d : ManifestFolder) (fd : Descriptor) :
    (d.mfTruncate fd).1.content fd.file = [] := by
  by_cases hfile : fd.file < d.files.length
  · simp [mfTruncate, content, List.getD_eq_getElem?_getD, List.getElem?_eq_getElem hfile]
  · simp [mfTruncate, content, List.getD_eq_getElem?_getD,
      List.getElem?_eq_none (Nat.le_of_not_lt hfile)]

@[simp]
theorem links_mfTruncate : (d.mfTruncate fd).1.links = d.links := rfl

@[simp]
theorem length_files_mfTruncate : (d.mfTruncate fd).1.files.length = d.files.length := by
  simp [mfTruncate]

end ManifestFolder

end Gopherwood
