/-
# The bytes behind a manifest

The rest of the development reads and writes manifests record by record. Here
`catchUpManifestLogs` runs on the bytes of the file, through the buffer of the
reader, and the two are shown to agree: on the bytes of any sequence of records,
from any boundary between two of them, both end with the same view and at the
same offset, or throw the same exception.
-/

import Gopherwood.Core.ManifestSafety
import Gopherwood.Journal.CatchUp

namespace Gopherwood

namespace Codec

open Library

/-- An id as an `int32_t`; no id is -1. -/
def idCode : Option Nat → BitVec 32
  | none => -1
  | some id => .ofNat 32 id

/-- The id that an `int32_t` stands for; a negative one indexes nothing. -/
def idOf (code : BitVec 32) : Option Nat := if code.toInt < 0 then none else some code.toNat

/-- `BUCKET_FREE`, `BUCKET_ACTIVE` and `BUCKET_USED`. -/
def stateCode : BucketType → BitVec 8
  | .free => 0
  | .active => 1
  | .used => 2

def stateOf (code : BitVec 8) : BucketType :=
  if code = 0 then .free else if code = 1 then .active else .used

def encodeBlock (b : Gopherwood.Block) : Block :=
  ⟨idCode b.bucketId, idCode b.blockId, b.isLocal, stateCode b.state, .ofInt 16 b.usageCount⟩

def decodeBlock (b : Block) : Gopherwood.Block where
  bucketId := idOf b.bucketId
  blockId := idOf b.blockId
  isLocal := b.isLocal
  state := stateOf b.state
  usageCount := b.usageCount.toInt

/-- The record type of a number, if it is one. -/
def typeOf (code : BitVec 8) : Option RecordType :=
  [.acquireNewBlock, .inactiveBlock, .activeBlock, .releaseBlock, .loadBlock, .extendBlock,
    .evictBlock, .fullStatus, .updateEof].find? fun type => typeCode type = code

/-- What `serializeManifestLog` is called with for a record. -/
def encodeRecord (garbage : Nat → BitVec 16) (r : Record) : LogRecord :=
  ⟨r.type, .ofNat 64 r.eof, r.blocks.map encodeBlock, garbage⟩

/-- The loop of `catchUpManifestLogs`, on the bytes. -/
def catchUpBytes : Nat → View → ReaderM View
  | 0, view => pure view
  | fuel + 1, view => do
      match ← fetchOneLogRecord with
      | none => pure view
      | some header =>
          match typeOf header.type with
          | none =>
              throw (.notImpl "[ActiveStatus] Log type not implemented when catching up logs.")
          | some type =>
              let blocks := (← get).blocks.map decodeBlock
              match replayRecord view ⟨type, header.opaqueWord.toNat, blocks⟩ with
              | .error e => throw e
              | .ok view =>
                  modify Reader.cleared
                  catchUpBytes fuel view

/-- The ids of a block are non-negative `int32_t` numbers, and it has not been
accessed since it was logged. -/
structure Encodable (b : Gopherwood.Block) : Prop where
  bucketId : ∀ id ∈ b.bucketId, id < 2 ^ 31
  blockId : ∀ id ∈ b.blockId, id < 2 ^ 31
  usageCount : b.usageCount = 0

/-- The record has encodable blocks, not more than a length can count, and an end of file
that is a 64-bit number. -/
structure EncodableRecord (r : Record) : Prop where
  blocks : ∀ b ∈ r.blocks, Encodable b
  eof : r.eof < 2 ^ 63
  length : r.blocks.length < 2 ^ 32

instance (b : Gopherwood.Block) : Decidable (Encodable b) :=
  decidable_of_iff ((∀ id ∈ b.bucketId, id < 2 ^ 31) ∧ (∀ id ∈ b.blockId, id < 2 ^ 31) ∧
      b.usageCount = 0)
    ⟨fun h => ⟨h.1, h.2.1, h.2.2⟩, fun h => ⟨h.bucketId, h.blockId, h.usageCount⟩⟩

instance (r : Record) : Decidable (EncodableRecord r) :=
  decidable_of_iff ((∀ b ∈ r.blocks, Encodable b) ∧ r.eof < 2 ^ 63 ∧ r.blocks.length < 2 ^ 32)
    ⟨fun h => ⟨h.1, h.2.1, h.2.2⟩, fun h => ⟨h.blocks, h.eof, h.length⟩⟩

theorem idOf_idCode {id : Option Nat} (h : ∀ n ∈ id, n < 2 ^ 31) : idOf (idCode id) = id := by
  cases id with
  | none => rfl
  | some n =>
      have hn : n < 2 ^ 31 := h n rfl
      have hint : (BitVec.ofNat 32 n).toInt = n := by
        rw [BitVec.toInt_eq_toNat_of_lt] <;> simp only [BitVec.toNat_ofNat] <;> omega
      rw [idCode, idOf, hint, if_neg (by omega), BitVec.toNat_ofNat, Nat.mod_eq_of_lt (by omega)]

@[simp]
theorem stateOf_stateCode (state : BucketType) : stateOf (stateCode state) = state := by
  cases state <;> rfl

theorem known_encodeBlock (b : Gopherwood.Block) : (encodeBlock b).Known := by
  obtain ⟨_, _, _, state, _⟩ := b
  cases state
  · exact .inl rfl
  · exact .inr (.inl rfl)
  · exact .inr (.inr rfl)

theorem known_encodeBlocks (blocks : List Gopherwood.Block) :
    ∀ b ∈ blocks.map encodeBlock, b.Known := by
  intro b hb
  obtain ⟨b', -, rfl⟩ := List.mem_map.mp hb
  exact known_encodeBlock b'

@[simp]
theorem typeOf_typeCode (type : RecordType) : typeOf (typeCode type) = some type := by
  cases type <;> rfl

/-- What is read back is the block that was written. -/
theorem decodeBlock_stored {b : Gopherwood.Block} (h : Encodable b) :
    decodeBlock (encodeBlock b).stored = b := by
  obtain ⟨bucketId, blockId, isLocal, state, usageCount⟩ := b
  have husage : usageCount = 0 := h.usageCount
  subst husage
  simp only [decodeBlock, encodeBlock, Block.stored, idOf_idCode h.bucketId, idOf_idCode h.blockId,
    stateOf_stateCode]
  rfl

theorem decodeBlocks_stored {blocks : List Gopherwood.Block} (h : ∀ b ∈ blocks, Encodable b) :
    ((blocks.map encodeBlock).map Block.stored).map decodeBlock = blocks := by
  rw [List.map_map, List.map_map]
  refine (List.map_congr_left fun b hb => ?_).trans blocks.map_id
  exact decodeBlock_stored (h b hb)

/-- The bytes are those of the entries, one after the other. What a record leaves
uninitialised may have any value. -/
inductive Stores : List LogEntry → List UInt8 → Prop
  | nil : Stores [] []
  | cons {e : LogEntry} {rest : List LogEntry} {bytes others : List UInt8}
      (garbage : Nat → BitVec 16) (hfirst : (encodeRecord garbage e.record).serialize = .ok bytes)
      (hrest : Stores rest others) : Stores (e :: rest) (bytes ++ others)

namespace Stores

variable {e : LogEntry} {es fs : List LogEntry} {bytes others : List UInt8}

/-- The bytes that a record is serialized to are those of its header and its entries. -/
theorem laid {r : Record} {garbage : Nat → BitVec 16}
    (hbytes : (encodeRecord garbage r).serialize = .ok bytes) :
    ∃ entries, (encodeRecord garbage r).Laid entries ∧
      bytes = (recordHeader r.type (.ofNat 64 r.eof) (r.blocks.map encodeBlock)).bytes ++
      entries := by
  have hknown : ∀ b ∈ (encodeRecord garbage r).blocks, b.Known := known_encodeBlocks r.blocks
  rcases (encodeRecord garbage r).laid_or_fails hknown with ⟨entries, hlaid⟩ | ⟨-, error, hfails⟩
  · have hsame := hlaid.serialized.symm.trans hbytes
    exact ⟨entries, hlaid, (Except.ok.inj hsame).symm⟩
  · rw [hfails] at hbytes
    cases hbytes

theorem length_serialized {garbage : Nat → BitVec 16}
    (hbytes : (encodeRecord garbage e.record).serialize = .ok bytes) :
    bytes.length = e.recordLength := by
  obtain ⟨entries, hlaid, rfl⟩ := laid hbytes
  have hentries : entries.length = e.record.blocks.length * 12 := by
    rw [hlaid.length, encodeRecord, List.length_map]
    rfl
  rw [List.length_append, RecordHeader.length_bytes, hentries, LogEntry.recordLength,
    Nat.mul_comm]
  rfl

/-- Record for record, the bytes take up what the manifest of the model does. -/
theorem length (h : Stores es bytes) : bytes.length = (logBytes es).length := by
  induction h with
  | nil => rfl
  | @cons e rest bytes others garbage hfirst _ ih =>
      rw [List.length_append, length_serialized hfirst, ih, ← List.singleton_append,
        logBytes_append, List.length_append, length_logBytes_singleton]

/-- Behind the records that a reader has passed stand those that are left. -/
theorem drop (h : Stores (es ++ fs) bytes) : Stores fs (bytes.drop (logBytes es).length) := by
  induction es generalizing bytes with
  | nil => exact h
  | cons e es ih =>
      cases h with
      | @cons _ _ first rest garbage hfirst hrest =>
          rw [← List.singleton_append, logBytes_append, List.length_append,
            length_logBytes_singleton, ← length_serialized hfirst, ← List.drop_drop, List.drop_left]
          exact ih hrest

/-- A record is written unless it has more blocks than its header can count. -/
theorem exists_serialized {r : LogRecord} (hknown : ∀ b ∈ r.blocks, b.Known)
    (hcount : r.blocks.length < 2 ^ 32) : ∃ bytes, r.serialize = .ok bytes := by
  obtain ⟨entries, hformats, hlength, -⟩ := logFormats_known r.blocks hknown r.garbage
  have hfull : ((recordHeader r.type r.opaqueWord r.blocks).bytes ++ entries).length =
      (recordHeader r.type r.opaqueWord r.blocks).recordLength.toNat := by
    rw [List.length_append, RecordHeader.length_bytes, hlength]
    simp only [recordHeader, BitVec.toNat_ofNat, recordHeaderSize, blockRecordSize]
    omega
  refine ⟨(recordHeader r.type r.opaqueWord r.blocks).bytes ++ entries, ?_⟩
  simp only [LogRecord.serialize, serializeManifestLog, hformats]
  change (if _ then _ else _) = _
  rw [if_neg (not_not.mpr hfull)]
  rfl

theorem exists_of_encodable (garbage : Nat → BitVec 16) (es : List LogEntry)
    (h : ∀ e ∈ es, EncodableRecord e.record) : ∃ bytes, Stores es bytes := by
  induction es with
  | nil => exact ⟨[], .nil⟩
  | cons e es ih =>
      have hfirst := h e List.mem_cons_self
      obtain ⟨first, hfirst⟩ := @exists_serialized (encodeRecord garbage e.record)
        (known_encodeBlocks e.record.blocks) (by simpa [encodeRecord] using hfirst.length)
      obtain ⟨others, hothers⟩ := ih fun x hx => h x (List.mem_cons_of_mem _ hx)
      exact ⟨first ++ others, .cons garbage hfirst hothers⟩

end Stores

section Fetch

variable {r : Reader} {e : LogEntry} {rest : List LogEntry}

theorem fits_encoded (e : LogEntry) : Fits (e.record.blocks.map encodeBlock) ↔ e.Fits := by
  simp only [Fits, LogEntry.Fits, LogEntry.recordLength, List.length_map, recordHeaderSize,
    blockRecordSize, Nat.mul_comm]

/-- A record that fits the buffer is fetched as it was logged. -/
theorem fetch_stored (hencodable : EncodableRecord e.record) (hstores : Stores (e :: rest) r.ahead)
    (hempty : r.blocks = []) (hfits : e.Fits) : ∃ header blocks buffer,
      fetchOneLogRecord r =
        .ok (some header) ⟨r.content, r.offset + e.recordLength, buffer, blocks⟩ ∧
      typeOf header.type = some e.record.type ∧
      Record.mk e.record.type header.opaqueWord.toNat (blocks.map decodeBlock) = e.record := by
  generalize hahead : r.ahead = ahead at hstores
  cases hstores with
  | @cons _ _ bytes others garbage hfirst _ =>
      obtain ⟨entries, hlaid, rfl⟩ := Stores.laid hfirst
      obtain ⟨buffer, hfetch⟩ := fetch_fits e.record.type (.ofNat 64 e.record.eof)
        ((fits_encoded e).mpr hfits) hlaid.length hlaid.read hahead
      have hlength : recordHeaderSize + (e.record.blocks.map encodeBlock).length * blockRecordSize =
          e.recordLength := by
        rw [List.length_map, LogEntry.recordLength, Nat.mul_comm]
        rfl
      rw [hlength, hempty, List.nil_append] at hfetch
      have heof : (BitVec.ofNat 64 e.record.eof).toNat = e.record.eof := by
        rw [BitVec.toNat_ofNat, Nat.mod_eq_of_lt (Nat.lt_trans hencodable.eof (by decide))]
      refine ⟨_, _, buffer, hfetch, typeOf_typeCode _, ?_⟩
      rw [decodeBlocks_stored hencodable.blocks]
      simp only [recordHeader, heof]

/-- A record that does not fit is refused behind its first ten bytes. -/
theorem fetch_oversized (hlength : e.record.blocks.length < 2 ^ 32)
    (hstores : Stores (e :: rest) r.ahead) (hexceeds : ¬ e.Fits) : ∃ buffer,
      fetchOneLogRecord r =
        .error (.gopherwood
            "[Manifest::fetchOneLogRecord] recLength should not exceed buffer size.")
          ⟨r.content, r.offset + 10, buffer, r.blocks⟩ := by
  generalize hahead : r.ahead = ahead at hstores
  cases hstores with
  | @cons _ _ bytes others garbage hfirst _ =>
      obtain ⟨entries, hlaid, rfl⟩ := Stores.laid hfirst
      have hsplit : r.content.drop r.offset =
          (recordHeader e.record.type (.ofNat 64 e.record.eof)
            (e.record.blocks.map encodeBlock)).bytes.take 10 ++
          ((recordHeader e.record.type (.ofNat 64 e.record.eof)
            (e.record.blocks.map encodeBlock)).bytes.drop 10 ++ (entries ++ others)) := by
        rw [← List.append_assoc, List.take_append_drop, ← List.append_assoc]
        exact hahead
      have hint : (recordHeader e.record.type (.ofNat 64 e.record.eof)
          (e.record.blocks.map encodeBlock)).recordLength.toInt =
          (24 + e.record.blocks.length * 12 : Nat) := by
        rw [recordHeader, List.length_map]
        exact toInt_recordLength (n := 24 + e.record.blocks.length * 12) (by omega)
      have hlong : (recordHeader e.record.type (.ofNat 64 e.record.eof)
          (e.record.blocks.map encodeBlock)).recordLength.toInt > manifestBufferSize := by
        rw [hint]
        unfold LogEntry.Fits LogEntry.recordLength at hexceeds
        omega
      obtain ⟨content, offset, buffer, blocks⟩ := r
      rw [fetch_front _ rfl hsplit, if_pos hlong]
      exact ⟨_, rfl⟩

/-- At the end of the file there is no record, and the reader stays. -/
theorem fetch_exhausted (hend : r.ahead = []) : ∃ buffer,
    fetchOneLogRecord r = .ok none ⟨r.content, r.offset, buffer, r.blocks⟩ := by
  refine ⟨overwrite 0 r.buffer 0 [], ?_⟩
  simp only [fetchOneLogRecord, run_bind, mfRead_run, hend, List.take_nil, List.length_nil,
    Nat.add_zero, if_true]
  rfl

end Fetch

/-! ## Catching up on the bytes -/

/-- Both loops stop in the same way and at the same offset: with the same view, or with the
same exception. -/
def Agrees : EStateM.Result GwError Ctx Unit → EStateM.Result GwError Reader View → Prop
  | .ok _ c, .ok view r => c.self.view = view ∧ c.self.fd.map Descriptor.offset = some r.offset
  | .error e c, .error e' r => e = e' ∧ c.self.fd.map Descriptor.offset = some r.offset
  | _, _ => False

section Round

variable {fuel : Nat} {c : Ctx} {fd fd' : Descriptor} {e : LogEntry}

theorem loop_ended (hfd : c.self.fd = some fd)
    (hfetch : Gopherwood.fetchOneLogRecord (c.folder.content fd.file) fd = (.ok none, fd')) :
    FileActiveStatus.catchUpManifestLogs.loop (fuel + 1) c =
      .ok () { c with self := { c.self with fd := some fd' } } := by
  simp [FileActiveStatus.catchUpManifestLogs.loop, FileActiveStatus.modifySelf, hfd, hfetch]

theorem loop_refused {error : GwError} (hfd : c.self.fd = some fd)
    (hfetch : Gopherwood.fetchOneLogRecord (c.folder.content fd.file) fd = (.error error, fd')) :
    FileActiveStatus.catchUpManifestLogs.loop (fuel + 1) c =
      .error error { c with self := { c.self with fd := some fd' } } := by
  simp [FileActiveStatus.catchUpManifestLogs.loop, FileActiveStatus.modifySelf, hfd, hfetch]

/-- A record that cannot be replayed counts as read. -/
theorem loop_stopped {error : GwError} (hfd : c.self.fd = some fd)
    (hfetch : Gopherwood.fetchOneLogRecord (c.folder.content fd.file) fd = (.ok (some e), fd'))
    (hreplay : replayRecord c.self.view e.record = .error error) :
    FileActiveStatus.catchUpManifestLogs.loop (fuel + 1) c =
      .error error (c.caughtUp fd' [e] c.self.view) := by
  simp only [FileActiveStatus.catchUpManifestLogs.loop, FileActiveStatus.modifySelf, run_bind,
    run_get, hfd, hfetch, run_modify, hreplay, run_throw]
  rfl

theorem loop_replayed {v : View} (hfd : c.self.fd = some fd)
    (hfetch : Gopherwood.fetchOneLogRecord (c.folder.content fd.file) fd = (.ok (some e), fd'))
    (hreplay : replayRecord c.self.view e.record = .ok v) :
    FileActiveStatus.catchUpManifestLogs.loop (fuel + 1) c =
      FileActiveStatus.catchUpManifestLogs.loop fuel (c.caughtUp fd' [e] v) := by
  simp [FileActiveStatus.catchUpManifestLogs.loop, FileActiveStatus.modifySelf, hfd, hfetch,
    hreplay, Ctx.caughtUp, FileActiveStatus.advanceTo]

variable {view : View} {r r' : Reader} {header : RecordHeader} {record : Record}

theorem catchUpBytes_stopped {error : GwError}
    (hfetch : fetchOneLogRecord r = .ok (some header) r')
    (htype : typeOf header.type = some record.type)
    (hrecord : Record.mk record.type header.opaqueWord.toNat (r'.blocks.map decodeBlock) = record)
    (hreplay : replayRecord view record = .error error) :
    catchUpBytes (fuel + 1) view r = .error error r' := by
  simp only [catchUpBytes, run_bind, hfetch, htype, run_get, hrecord, hreplay]
  rfl

theorem catchUpBytes_replayed {v : View}
    (hfetch : fetchOneLogRecord r = .ok (some header) r')
    (htype : typeOf header.type = some record.type)
    (hrecord : Record.mk record.type header.opaqueWord.toNat (r'.blocks.map decodeBlock) = record)
    (hreplay : replayRecord view record = .ok v) :
    catchUpBytes (fuel + 1) view r = catchUpBytes fuel v r'.cleared := by
  simp only [catchUpBytes, run_bind, hfetch, htype, run_get, hrecord, hreplay, run_modify]

end Round

/-- The loop that reads the manifest record by record and the one that reads its bytes agree,
however many rounds they are given. -/
theorem catchUp_loop_agrees {pending : List LogEntry} :
    ∀ {fuel : Nat} {c : Ctx} {fd : Descriptor} {done : List LogEntry} {r : Reader},
      c.self.fd = some fd → fd.At c.folder done pending →
      (∀ e ∈ pending, EncodableRecord e.record) → Stores pending r.ahead → r.offset = fd.offset →
      r.blocks = [] →
      Agrees (FileActiveStatus.catchUpManifestLogs.loop fuel c)
        (catchUpBytes fuel c.self.view r) := by
  induction pending with
  | nil =>
      intro fuel c fd done r hfd hat _ hstores hoffset _
      cases fuel with
      | zero => exact ⟨rfl, by rw [hfd, hoffset]; rfl⟩
      | succ fuel =>
          have hfetch : Gopherwood.fetchOneLogRecord (c.folder.content fd.file) fd =
              (.ok none, fd) :=
            fetchOneLogRecord_end (by simpa using hat.content) hat.offset
          obtain ⟨buffer, hbytes⟩ := fetch_exhausted (List.length_eq_zero_iff.mp hstores.length)
          have hloop : catchUpBytes (fuel + 1) c.self.view r =
              .ok c.self.view ⟨r.content, r.offset, buffer, r.blocks⟩ := by
            simp only [catchUpBytes, run_bind, hbytes]
            rfl
          rw [loop_ended hfd hfetch, hloop]
          exact ⟨rfl, by rw [hoffset]; rfl⟩
  | cons e rest ih =>
      intro fuel c fd done r hfd hat hencodable hstores hoffset hempty
      have hrecord := hencodable e List.mem_cons_self
      cases fuel with
      | zero => exact ⟨rfl, by rw [hfd, hoffset]; rfl⟩
      | succ fuel =>
          by_cases hfits : e.Fits
          · let fd' : Descriptor := ⟨fd.file, (logBytes (done ++ [e])).length⟩
            have hfetch : Gopherwood.fetchOneLogRecord (c.folder.content fd.file) fd =
                (.ok (some e), fd') :=
              fetchOneLogRecord_next hat.content hat.offset hfits
            obtain ⟨header, blocks, buffer, hbytes, htype, hdecoded⟩ :=
              fetch_stored hrecord hstores hempty hfits
            have hnext : r.offset + e.recordLength = fd'.offset := by
              rw [hoffset, hat.offset, ← length_logBytes_singleton, ← List.length_append,
                ← logBytes_append]
            cases hreplay : replayRecord c.self.view e.record with
            | error error =>
                rw [loop_stopped hfd hfetch hreplay,
                  catchUpBytes_stopped hbytes htype hdecoded hreplay]
                exact ⟨rfl, congrArg some hnext.symm⟩
            | ok v =>
                have hahead : Reader.ahead ⟨r.content, r.offset + e.recordLength, buffer, []⟩ =
                    r.ahead.drop (logBytes [e]).length := by
                  rw [length_logBytes_singleton]
                  exact List.drop_drop.symm
                have hleft : Stores rest
                    (Reader.ahead ⟨r.content, r.offset + e.recordLength, buffer, []⟩) := by
                  rw [hahead]
                  exact @Stores.drop [e] rest r.ahead hstores
                have hat' : fd'.At (c.caughtUp fd' [e] v).folder (done ++ [e]) rest :=
                  ⟨by simpa [Ctx.caughtUp, fd', List.append_assoc] using hat.content, rfl⟩
                rw [loop_replayed hfd hfetch hreplay,
                  catchUpBytes_replayed hbytes htype hdecoded hreplay]
                exact ih (c := c.caughtUp fd' [e] v) rfl hat'
                  (fun x hx => hencodable x (List.mem_cons_of_mem _ hx)) hleft hnext rfl
          · -- neither reads a record that does not fit
            have hfetch : Gopherwood.fetchOneLogRecord (c.folder.content fd.file) fd =
                (.error (.gopherwood
                  "[Manifest::fetchOneLogRecord] recLength should not exceed buffer size."),
                  { fd with offset := fd.offset + 10 }) := by
              rw [hat.content, Gopherwood.fetchOneLogRecord, hat.offset, logBytes, logBytes,
                fetch_next LogEntry.recordLength_pos]
              simp only [gt_iff_lt, Nat.not_le.mp hfits, if_true]
            obtain ⟨buffer, hbytes⟩ := fetch_oversized hrecord.length hstores hfits
            have hloop : catchUpBytes (fuel + 1) c.self.view r = .error
                (.gopherwood
                  "[Manifest::fetchOneLogRecord] recLength should not exceed buffer size.")
                ⟨r.content, r.offset + 10, buffer, r.blocks⟩ := by
              simp only [catchUpBytes, run_bind, hbytes]
            rw [loop_refused hfd hfetch, hloop]
            exact ⟨rfl, by rw [hoffset]; rfl⟩

/-- `catchUpManifestLogs` on a manifest of whole records is what it is on the bytes of the
file: whatever the handle knows and wherever between two records it stands, both end with
the same view at the same offset, or throw the same exception there. -/
theorem catchUpManifestLogs_bytes {c : Ctx} {fd : Descriptor} {done pending : List LogEntry}
    {bytes buffer : List UInt8} (hfd : c.self.fd = some fd) (hat : fd.At c.folder done pending)
    (hencodable : ∀ e ∈ pending, EncodableRecord e.record)
    (hstores : Stores (done ++ pending) bytes) :
    Agrees (FileActiveStatus.catchUpManifestLogs c)
      (catchUpBytes (bytes.length + 1) c.self.view ⟨bytes, fd.offset, buffer, []⟩) := by
  have hahead : Stores pending (Reader.ahead ⟨bytes, fd.offset, buffer, []⟩) := by
    rw [Reader.ahead, hat.offset]
    exact hstores.drop
  have hrounds : (c.folder.content fd.file).length + 1 = bytes.length + 1 := by
    rw [hat.content, hstores.length]
  have hunfold : FileActiveStatus.catchUpManifestLogs c =
      FileActiveStatus.catchUpManifestLogs.loop ((c.folder.content fd.file).length + 1) c := by
    simp [FileActiveStatus.catchUpManifestLogs, hfd]
  rw [hunfold, hrounds]
  exact catchUp_loop_agrees hfd hat hencodable hahead rfl rfl

/-- A reader has passed the state that a closed file left behind, two blocks; the writer has
added a third block since. -/
def behindOneRecord : Ctx where
  shm := .reset (.intact 1 1 1 1)
  folder := ⟨fun _ => some 0, [logBytes (passed ++ added)]⟩
  oss := fun _ _ => none
  self :=
    { client := .file 1, fileId := ⟨7, 0⟩, pid := 2, activeId := some 1
      isWrite := false, isDelete := false, isSequence := true, shouldDestroy := false
      pos := 0, eof := 8192, blockArray := blocks
      preAllocatedBuckets := [], loadingBuckets := [], lruCache := .empty 1
      fd := some ⟨0, 48⟩, readEntries := passed, loadMutex := false, pc := .idle, stream := .none }
where
  blocks : List Gopherwood.Block :=
    [⟨some 4, some 0, true, .used, 0⟩, ⟨none, some 1, false, .used, 0⟩]
  passed : List LogEntry := [⟨.file 0, ⟨.fullStatus, 8192, blocks⟩⟩]
  added : List LogEntry :=
    [⟨.file 0, ⟨.extendBlock, 8192, [⟨some 9, some 2, true, .active, 0⟩]⟩⟩,
      ⟨.file 0, ⟨.updateEof, 9000, []⟩⟩]

theorem catchUpManifestLogs_bytes_behind : ∃ bytes r',
    Stores (behindOneRecord.passed ++ behindOneRecord.added) bytes ∧
      catchUpBytes (bytes.length + 1) behindOneRecord.self.view ⟨bytes, 48, [], []⟩ =
        .ok ⟨behindOneRecord.blocks ++ [⟨some 9, some 2, true, .active, 0⟩], 9000⟩ r' ∧
      r'.offset = 108 := by
  have hencodable : ∀ e ∈ behindOneRecord.passed ++ behindOneRecord.added,
      EncodableRecord e.record := by
    decide
  obtain ⟨bytes, hstores⟩ := Stores.exists_of_encodable (fun _ => 0xBEEF) _ hencodable
  have hagrees := @catchUpManifestLogs_bytes behindOneRecord ⟨0, 48⟩ behindOneRecord.passed
    behindOneRecord.added bytes [] rfl ⟨rfl, by decide⟩
    (fun e he => hencodable e (List.mem_append_right _ he)) hstores
  obtain ⟨c, hrun, hview, hfd⟩ : ∃ c, FileActiveStatus.catchUpManifestLogs behindOneRecord =
      .ok () c ∧ c.self.view = ⟨behindOneRecord.blocks ++ [⟨some 9, some 2, true, .active, 0⟩],
      9000⟩ ∧ c.self.fd.map Descriptor.offset = some 108 := ⟨_, rfl, rfl, rfl⟩
  rw [hrun] at hagrees
  cases hbytes : catchUpBytes (bytes.length + 1) behindOneRecord.self.view ⟨bytes, 48, [], []⟩ with
  | error e r' =>
      rw [hbytes] at hagrees
      exact hagrees.elim
  | ok view r' =>
      rw [hbytes] at hagrees
      obtain ⟨hsame, hoffset⟩ := hagrees
      refine ⟨bytes, r', hstores, ?_, ?_⟩
      · rw [← hview, hsame, hbytes]
      · rw [hfd] at hoffset
        exact (Option.some.inj hoffset).symm

end Codec

end Gopherwood
