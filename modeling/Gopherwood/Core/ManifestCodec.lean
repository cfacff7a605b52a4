/-
# The bytes of a manifest record

`serializeManifestLog` lays a record out as a header and one packed entry for
every block; `fetchOneLogRecord` reads it back through a buffer of fixed size.
The integers are the fixed-width ones of the source, stored with the low byte
first, and the padding of a block entry is left as the stack had it.
-/

import Gopherwood.Core.Manifest
import Gopherwood.Library.Computation
import Gopherwood.Library.LittleEndian

namespace Gopherwood

namespace Codec

open Library

/-- `struct Block`, with the integers of the source. -/
structure Block where
  bucketId : BitVec 32
  blockId : BitVec 32
  isLocal : Bool
  state : BitVec 8
  usageCount : BitVec 16
  deriving DecidableEq

/-- `struct BlockRecord`. -/
structure BlockRecord where
  rFlags : BitVec 16
  rPadding : BitVec 16
  rBucketId : BitVec 32
  rBlockId : BitVec 32
  deriving DecidableEq

/-- `BLOCK_RECORD_REMOTE` and `BLOCK_RECORD_TYPE_MASK`. -/
def blockRecordRemote : BitVec 16 := 0x8000#16
def blockRecordTypeMask : BitVec 16 := 0x0003#16

/-- `sizeof(BlockRecord)` and `sizeof(RecordHeader)`. -/
def blockRecordSize : Nat := 12
def recordHeaderSize : Nat := 24

def BlockRecord.bytes (r : BlockRecord) : List UInt8 :=
  leBytes 2 r.rFlags.toNat ++ (leBytes 2 r.rPadding.toNat ++
    (leBytes 4 r.rBucketId.toNat ++ leBytes 4 r.rBlockId.toNat))

/-- A `BlockRecord` at the front of the buffer, and what follows it. -/
def BlockRecord.overlay (buffer : List UInt8) : BlockRecord × List UInt8 :=
  let (rFlags, buffer) := takeWord 2 buffer
  let (rPadding, buffer) := takeWord 2 buffer
  let (rBucketId, buffer) := takeWord 4 buffer
  let (rBlockId, buffer) := takeWord 4 buffer
  (⟨.ofNat 16 rFlags, .ofNat 16 rPadding, .ofNat 32 rBucketId, .ofNat 32 rBlockId⟩, buffer)

/-- `Block::toLogFormat`; `garbage` is the padding, which is never set. -/
def Block.toLogFormat (garbage : BitVec 16) (b : Block) : Except GwError (List UInt8) := do
  let rFlags : BitVec 16 := if b.isLocal then 0 else blockRecordRemote
  let type : BitVec 16 ←
    if b.state = 0 then pure 0x0000#16
    else if b.state = 1 then pure 0x0001#16
    else if b.state = 2 then pure 0x0002#16
    else throw (.gopherwood "[Block::toLogFormat] Unrecognized BlockState")
  return (BlockRecord.mk (rFlags ||| type) garbage b.bucketId b.blockId).bytes

/-- `BlockRecord::toBlockFormat`. -/
def BlockRecord.toBlockFormat (r : BlockRecord) : Except GwError Block := do
  let isLocal := r.rFlags &&& blockRecordRemote = 0
  let type := r.rFlags &&& blockRecordTypeMask
  let state : BitVec 8 ←
    if type = 0x0000#16 then pure 0
    else if type = 0x0001#16 then pure 1
    else if type = 0x0002#16 then pure 2
    else throw (.gopherwood "[Block::toBlockFormat] Unrecognized BlockRecordState")
  return ⟨r.rBucketId, r.rBlockId, isLocal, state, 0⟩

/-- The number of a record type. -/
def typeCode : RecordType → BitVec 8
  | .acquireNewBlock => 0
  | .inactiveBlock => 1
  | .activeBlock => 2
  | .releaseBlock => 3
  | .loadBlock => 4
  | .extendBlock => 5
  | .evictBlock => 6
  | .fullStatus => 7
  | .updateEof => 8

/-- `MANIFEST_RECORD_EYECATCHER`. -/
def manifestRecordEyecatcher : BitVec 16 := 0xCAED#16

/-- `struct RecordHeader`. -/
structure RecordHeader where
  recordLength : BitVec 64
  eyecatcher : BitVec 16
  type : BitVec 8
  flags : BitVec 8
  numBlocks : BitVec 32
  opaqueWord : BitVec 64
  deriving DecidableEq

def RecordHeader.bytes (h : RecordHeader) : List UInt8 :=
  leBytes 8 h.recordLength.toNat ++ (leBytes 2 h.eyecatcher.toNat ++ (leBytes 1 h.type.toNat ++
    (leBytes 1 h.flags.toNat ++ (leBytes 4 h.numBlocks.toNat ++ leBytes 8 h.opaqueWord.toNat))))

/-- A `RecordHeader` at the front of the buffer, and what follows it. -/
def RecordHeader.overlay (buffer : List UInt8) : RecordHeader × List UInt8 :=
  let (recordLength, buffer) := takeWord 8 buffer
  let (eyecatcher, buffer) := takeWord 2 buffer
  let (type, buffer) := takeWord 1 buffer
  let (flags, buffer) := takeWord 1 buffer
  let (numBlocks, buffer) := takeWord 4 buffer
  let (opaqueWord, buffer) := takeWord 8 buffer
  (⟨.ofNat 64 recordLength, .ofNat 16 eyecatcher, .ofNat 8 type, .ofNat 8 flags,
    .ofNat 32 numBlocks, .ofNat 64 opaqueWord⟩, buffer)

/-- The entries of the blocks, one after the other. -/
def logFormats (garbage : Nat → BitVec 16) : List Block → Except GwError (List UInt8)
  | [] => pure []
  | b :: rest => do
      let first ← b.toLogFormat (garbage 0)
      let others ← logFormats (fun i => garbage (i + 1)) rest
      return first ++ others

/-- The header that `serializeManifestLog` builds. -/
def recordHeader (type : RecordType) (opaqueWord : BitVec 64) (blocks : List Block) :
    RecordHeader where
  recordLength := .ofNat 64 (recordHeaderSize + blocks.length * blockRecordSize)
  eyecatcher := manifestRecordEyecatcher
  type := typeCode type
  flags := 0
  numBlocks := .ofNat 32 blocks.length
  opaqueWord := opaqueWord

/-- `Manifest::serializeManifestLog`. -/
def serializeManifestLog (garbage : Nat → BitVec 16) (blocks : List Block) (type : RecordType)
    (opaqueWord : BitVec 64) : Except GwError (List UInt8) := do
  let header := recordHeader type opaqueWord blocks
  let entries ← logFormats garbage blocks
  let logRecord := header.bytes ++ entries
  if logRecord.length ≠ header.recordLength.toNat then
    throw (.io "[Manifest::serializeManifestLog] Broken log record")
  return logRecord

/-! ## Reading -/

/-- A descriptor of a manifest file, the buffer of its reader and the vector that
`fetchOneLogRecord` decodes into, which keeps what was pushed before a throw. -/
structure Reader where
  content : List UInt8
  offset : Nat
  buffer : List UInt8
  blocks : List Block

abbrev ReaderM := EStateM GwError Reader

/-- `mfRead` into the buffer at `place`: the number of bytes read. -/
def mfRead (place size : Nat) : ReaderM Nat := do
  let r ← get
  let data := (r.content.drop r.offset).take size
  set { r with
    offset := r.offset + data.length
    buffer := overwrite 0 r.buffer place data }
  return data.length

/-- `blocks.push_back(block)`. -/
def Reader.push (r : Reader) (block : Block) : Reader :=
  { r with blocks := r.blocks ++ [block] }

/-- `blocks.clear()`. -/
def Reader.cleared (r : Reader) : Reader := { r with blocks := [] }

/-- The loop over the block entries in the buffer. -/
def readBlocks : Nat → List UInt8 → ReaderM Unit
  | 0, _ => pure ()
  | n + 1, buffer => do
      -- an entry past the end of the buffer is not there to be read
      if buffer.length < blockRecordSize then
        throw .undefined
      let (record, buffer) := BlockRecord.overlay buffer
      match record.toBlockFormat with
      | .error e => throw e
      | .ok block =>
          modify fun r => r.push block
          readBlocks n buffer

/-- The read of the rest of a record. `read` refuses a negative size and returns -1. -/
def readRest (recLength : Int) : ReaderM Int := do
  if recLength < 10 then
    return -1
  else
    let bytesRead ← mfRead 10 (recLength - 10).toNat
    return bytesRead

/-- The second half of `fetchOneLogRecord`: read the record to its end and take it
apart. -/
def fetchWhole (recLength : Int) : ReaderM (Option RecordHeader) := do
  -- the difference is an `int64_t`
  if recLength - 10 < -2 ^ 63 then
    throw .undefined
  let bytesRead ← readRest recLength
  if bytesRead ≠ recLength - 10 then
    throw (.gopherwood "[Manifest::fetchOneLogRecord] read log error.")
  let (header, entries) := RecordHeader.overlay (← get).buffer
  readBlocks header.numBlocks.toNat entries
  return some header

/-- `Manifest::fetchOneLogRecord`; `none` is `invalidLog`, the end of the file. -/
def fetchOneLogRecord : ReaderM (Option RecordHeader) := do
  let bytesRead ← mfRead 0 10
  if bytesRead = 0 then
    return none
  let buffer := (← get).buffer
  let recLength : Int := (BitVec.ofNat 64 (takeWord 8 buffer).1).toInt
  let eyecatcher := BitVec.ofNat 16 (takeWord 2 (buffer.drop 8)).1
  if recLength > manifestBufferSize then
    throw (.gopherwood "[Manifest::fetchOneLogRecord] recLength should not exceed buffer size.")
  if bytesRead ≠ 10 ∨ eyecatcher ≠ manifestRecordEyecatcher then
    throw (.gopherwood "[Manifest::fetchOneLogRecord] read log error")
  fetchWhole recLength

/-! ## Round trips -/

/-- What is left of a block after it was written and read: the usage count is not
stored. -/
def Block.stored (b : Block) : Block := { b with usageCount := 0 }

@[simp]
theorem BlockRecord.length_bytes (r : BlockRecord) : r.bytes.length = blockRecordSize := by
  simp [BlockRecord.bytes, blockRecordSize]

@[simp]
theorem RecordHeader.length_bytes (h : RecordHeader) : h.bytes.length = recordHeaderSize := by
  simp [RecordHeader.bytes, recordHeaderSize]

/-- A block entry is read back field by field. -/
theorem BlockRecord.overlay_bytes (r : BlockRecord) (rest : List UInt8) :
    BlockRecord.overlay (r.bytes ++ rest) = (r, rest) := by
  simp only [BlockRecord.overlay, BlockRecord.bytes, List.append_assoc]
  rw [takeWord_bits r.rFlags (by decide)]
  simp only
  rw [takeWord_bits r.rPadding (by decide)]
  simp only
  rw [takeWord_bits r.rBucketId (by decide)]
  simp only
  rw [takeWord_bits r.rBlockId (by decide)]
  simp

/-- A header is read back field by field. -/
theorem RecordHeader.overlay_bytes (h : RecordHeader) (rest : List UInt8) :
    RecordHeader.overlay (h.bytes ++ rest) = (h, rest) := by
  simp only [RecordHeader.overlay, RecordHeader.bytes, List.append_assoc]
  rw [takeWord_bits h.recordLength (by decide)]
  simp only
  rw [takeWord_bits h.eyecatcher (by decide)]
  simp only
  rw [takeWord_bits h.type (by decide)]
  simp only
  rw [takeWord_bits h.flags (by decide)]
  simp only
  rw [takeWord_bits h.numBlocks (by decide)]
  simp only
  rw [takeWord_bits h.opaqueWord (by decide)]
  simp

/-- The state is one of `BUCKET_FREE`, `BUCKET_ACTIVE` and `BUCKET_USED`. -/
def Block.Known (b : Block) : Prop := b.state = 0 ∨ b.state = 1 ∨ b.state = 2

instance (b : Block) : Decidable b.Known :=
  inferInstanceAs (Decidable (_ ∨ _ ∨ _))

/-- A block in one of the three states is written as one entry, and the entry is
read back as the block. -/
theorem Block.toLogFormat_known (garbage : BitVec 16) {b : Block} (hstate : b.Known) :
    ∃ r : BlockRecord, b.toLogFormat garbage = .ok r.bytes ∧ r.toBlockFormat = .ok b.stored := by
  obtain ⟨bucketId, blockId, isLocal, state, usageCount⟩ := b
  rcases hstate with hstate | hstate | hstate
  all_goals
    simp only at hstate
    subst hstate
    refine ⟨⟨_, garbage, bucketId, blockId⟩, rfl, ?_⟩
    cases isLocal <;>
      simp [BlockRecord.toBlockFormat, blockRecordRemote, blockRecordTypeMask, Block.stored] <;> rfl

/-- The entries of blocks in known states, and what the loop reads from them. -/
theorem logFormats_known (blocks : List Block) (hstates : ∀ b ∈ blocks, b.Known) :
    ∀ garbage : Nat → BitVec 16, ∃ entries, logFormats garbage blocks = .ok entries ∧
      entries.length = blocks.length * blockRecordSize ∧
      ∀ rest r, readBlocks blocks.length (entries ++ rest) r =
        .ok () { r with blocks := r.blocks ++ blocks.map Block.stored } := by
  induction blocks with
  | nil => exact fun _ => ⟨[], rfl, rfl, fun _ r => by simp [readBlocks]⟩
  | cons b blocks ih =>
      intro garbage
      obtain ⟨record, hformat, hblock⟩ := Block.toLogFormat_known (garbage 0)
        (hstates b List.mem_cons_self)
      obtain ⟨others, hothers, hlength, hread⟩ :=
        ih (fun b hb => hstates b (List.mem_cons_of_mem _ hb)) fun i => garbage (i + 1)
      refine ⟨record.bytes ++ others, ?_, ?_, ?_⟩
      · simp only [logFormats, hformat, hothers]
        rfl
      · rw [List.length_append, record.length_bytes, hlength, List.length_cons, Nat.succ_mul,
          Nat.add_comm]
      · intro rest r
        have hlong : ¬ (record.bytes ++ (others ++ rest)).length < blockRecordSize := by
          rw [List.length_append, record.length_bytes]
          omega
        rw [List.append_assoc, List.length_cons, readBlocks, if_neg hlong,
          BlockRecord.overlay_bytes]
        simp only [hblock, run_bind, run_modify, hread]
        simp [Reader.push]

/-- The bytes of a record fit the buffer of the reader. -/
def Fits (blocks : List Block) : Prop :=
  recordHeaderSize + blocks.length * blockRecordSize ≤ manifestBufferSize

instance (blocks : List Block) : Decidable (Fits blocks) :=
  inferInstanceAs (Decidable (_ ≤ _))

/-- A first read of at least ten bytes fills the front of the buffer. -/
theorem mfRead_front {content buffer front rest : List UInt8} {offset : Nat}
    {blocks : List Block} (hcontent : content.drop offset = front ++ rest)
    (hfront : front.length = 10) :
    mfRead 0 10 ⟨content, offset, buffer, blocks⟩ =
      .ok 10 ⟨content, offset + 10, front ++ buffer.drop 10, blocks⟩ := by
  have htake : (front ++ rest).take 10 = front := by
    rw [← hfront, List.take_left]
  have hbuffer : overwrite 0 buffer 0 front = front ++ buffer.drop 10 := by
    simp [overwrite, hfront]
  simp only [mfRead, run_bind, run_get, run_set, run_pure, hcontent, htake, hfront, hbuffer]

/-- A second read fills the buffer behind the first ten bytes. -/
theorem mfRead_behind {content buffer front back rest : List UInt8} {offset size : Nat}
    {blocks : List Block} (hcontent : content.drop offset = back ++ rest)
    (hback : back.length = size) (hfront : front.length = 10) :
    mfRead 10 size ⟨content, offset, front ++ buffer, blocks⟩ =
      .ok size ⟨content, offset + size, front ++ back ++ buffer.drop size, blocks⟩ := by
  have htake : (back ++ rest).take size = back := by
    rw [← hback, List.take_left]
  have hdrop : (front ++ buffer).drop (10 + size) = buffer.drop size := by
    rw [List.drop_append, hfront]
    simp [hfront]
  have hbuffer : overwrite 0 (front ++ buffer) 10 back = front ++ back ++ buffer.drop size := by
    simp [overwrite, hfront, hback, hdrop]
  simp only [mfRead, run_bind, run_get, run_set, run_pure, hcontent, htake, hback, hbuffer]

/-- The length and the eyecatcher stand in the first ten bytes of a record. -/
theorem RecordHeader.front (h : RecordHeader) (rest : List UInt8) :
    (BitVec.ofNat 64 (takeWord 8 (h.bytes.take 10 ++ rest)).1 = h.recordLength) ∧
      BitVec.ofNat 16 (takeWord 2 ((h.bytes.take 10 ++ rest).drop 8)).1 = h.eyecatcher := by
  have htake : h.bytes.take 10 = leBytes 8 h.recordLength.toNat ++
      leBytes 2 h.eyecatcher.toNat := by
    have hlength : (leBytes 8 h.recordLength.toNat ++ leBytes 2 h.eyecatcher.toNat).length =
        10 := by
      simp
    rw [RecordHeader.bytes, ← List.append_assoc, ← hlength, List.take_left]
  have hdrop : (leBytes 8 h.recordLength.toNat ++ (leBytes 2 h.eyecatcher.toNat ++ rest)).drop 8 =
      leBytes 2 h.eyecatcher.toNat ++ rest := by
    simp
  constructor
  · rw [htake, List.append_assoc, takeWord_bits h.recordLength (by decide)]
    simp
  · rw [htake, List.append_assoc, hdrop, takeWord_bits h.eyecatcher (by decide)]
    simp

/-- The length of a record, as the signed number that the reader takes it for. -/
theorem toInt_recordLength {n : Nat} (h : n < 2 ^ 63) : (BitVec.ofNat 64 n).toInt = n := by
  rw [BitVec.toInt_eq_toNat_of_lt]
  · simp only [BitVec.toNat_ofNat]
    omega
  · simp only [BitVec.toNat_ofNat]
    omega

/-- The reader at the start of a record looks at its length first. -/
theorem fetch_front {content buffer rest : List UInt8} {offset : Nat} {blocks : List Block}
    (h : RecordHeader) (heye : h.eyecatcher = manifestRecordEyecatcher)
    (hcontent : content.drop offset = h.bytes.take 10 ++ rest) :
    fetchOneLogRecord ⟨content, offset, buffer, blocks⟩ =
      if h.recordLength.toInt > manifestBufferSize then
        .error (.gopherwood
            "[Manifest::fetchOneLogRecord] recLength should not exceed buffer size.")
          ⟨content, offset + 10, h.bytes.take 10 ++ buffer.drop 10, blocks⟩
      else fetchWhole h.recordLength.toInt
        ⟨content, offset + 10, h.bytes.take 10 ++ buffer.drop 10, blocks⟩ := by
  have hfront : (h.bytes.take 10).length = 10 := by
    simp [recordHeaderSize]
  obtain ⟨hlength, heyecatcher⟩ := h.front (buffer.drop 10)
  simp only [fetchOneLogRecord, run_bind, mfRead_front hcontent hfront]
  rw [if_neg (by decide)]
  simp only [run_bind, run_get, hlength, heyecatcher]
  by_cases hlong : h.recordLength.toInt > manifestBufferSize
  · simp [hlong]
  · simp [hlong, heye]

/-- A size that `read` refuses ends the reading, but for the one of -1. -/
theorem fetchWhole_negative {recLength : Int} (hshort : recLength < 10) (hnine : recLength ≠ 9)
    (r : Reader) : fetchWhole recLength r =
      .error (if recLength - 10 < -2 ^ 63 then .undefined
        else .gopherwood "[Manifest::fetchOneLogRecord] read log error.") r := by
  by_cases hoverflow : recLength - 10 < -2 ^ 63
  · rw [fetchWhole, if_pos hoverflow, if_pos hoverflow]
    rfl
  · have hread : readRest recLength r = .ok (-1) r := by
      rw [readRest, if_pos hshort]
      rfl
    rw [fetchWhole, if_neg hoverflow, if_neg hoverflow]
    simp only [run_bind, hread]
    rw [if_pos (by omega)]
    rfl

/-- A record that fits the buffer is read whole. -/
theorem fetch_fits {r : Reader} {blocks : List Block} {entries rest : List UInt8}
    (type : RecordType) (opaqueWord : BitVec 64) (hfits : Fits blocks)
    (hlength : entries.length = blocks.length * blockRecordSize)
    (hread : ∀ rest r, readBlocks blocks.length (entries ++ rest) r =
      .ok () { r with blocks := r.blocks ++ blocks.map Block.stored })
    (hcontent : r.content.drop r.offset =
      (recordHeader type opaqueWord blocks).bytes ++ entries ++ rest) :
    ∃ buffer, fetchOneLogRecord r = .ok (some (recordHeader type opaqueWord blocks))
      ⟨r.content, r.offset + (recordHeaderSize + blocks.length * blockRecordSize), buffer,
        r.blocks ++ blocks.map Block.stored⟩ := by
  obtain ⟨content, offset, buffer, decoded⟩ := r
  have hbound : 24 + blocks.length * 12 ≤ 4096 := hfits
  generalize hh : recordHeader type opaqueWord blocks = h at *
  have hint : h.recordLength.toInt = (24 + blocks.length * 12 : Nat) := by
    rw [← hh]
    exact toInt_recordLength (n := 24 + blocks.length * 12) (by omega)
  have hnum : h.numBlocks.toNat = blocks.length := by
    rw [← hh]
    simp only [recordHeader, BitVec.toNat_ofNat]
    exact Nat.mod_eq_of_lt (by omega)
  have hfront : (h.bytes.take 10).length = 10 := by
    simp [recordHeaderSize]
  have hsplit : content.drop offset = h.bytes.take 10 ++ (h.bytes.drop 10 ++ entries ++ rest) := by
    rw [← List.append_assoc, ← List.append_assoc, List.take_append_drop]
    exact hcontent
  have hbehind : content.drop (offset + 10) = (h.bytes.drop 10 ++ entries) ++ rest := by
    rw [← List.drop_drop, hsplit, List.drop_append, hfront]
    simp
  have hback : (h.bytes.drop 10 ++ entries).length =
      (h.recordLength.toInt - 10).toNat := by
    rw [List.length_append, List.length_drop, h.length_bytes, hlength, hint]
    simp only [recordHeaderSize, blockRecordSize]
    omega
  have hwhole : h.bytes.take 10 ++ (h.bytes.drop 10 ++ entries) = h.bytes ++ entries := by
    rw [← List.append_assoc, List.take_append_drop]
  have hshort : ¬ h.recordLength.toInt > manifestBufferSize := by
    rw [hint, manifestBufferSize]
    omega
  have hoffset : offset + 10 + (h.recordLength.toInt - 10).toNat =
      offset + (recordHeaderSize + blocks.length * blockRecordSize) := by
    rw [hint]
    simp only [recordHeaderSize, blockRecordSize]
    omega
  have hrest : readRest h.recordLength.toInt
      ⟨content, offset + 10, h.bytes.take 10 ++ buffer.drop 10, decoded⟩ =
      .ok (h.recordLength.toInt - 10) ⟨content, offset + 10 + (h.recordLength.toInt - 10).toNat,
        h.bytes ++ entries ++ (buffer.drop 10).drop (h.recordLength.toInt - 10).toNat,
        decoded⟩ := by
    rw [readRest, if_neg (by omega)]
    simp only [run_bind, mfRead_behind hbehind hback hfront, hwhole, run_pure]
    rw [Int.toNat_of_nonneg (by omega)]
  rw [fetch_front h (by rw [← hh]; rfl) hsplit, if_neg hshort, fetchWhole, if_neg (by omega)]
  simp only [run_bind, hrest]
  rw [if_neg (by simp)]
  simp only [run_bind, run_get, List.append_assoc, RecordHeader.overlay_bytes, hnum, hread,
    run_pure]
  rw [hoffset]
  exact ⟨_, rfl⟩

/-- A record that does not fit the buffer is never read. -/
theorem fetch_exceeds {r : Reader} {blocks : List Block} {rest : List UInt8} (type : RecordType)
    (opaqueWord : BitVec 64) (hexceeds : ¬ Fits blocks)
    (hlength : (recordHeader type opaqueWord blocks).recordLength.toNat =
      recordHeaderSize + blocks.length * blockRecordSize)
    (hcontent : r.content.drop r.offset =
      (recordHeader type opaqueWord blocks).bytes ++ rest) :
    ∃ e r', fetchOneLogRecord r = .error e r' := by
  obtain ⟨content, offset, buffer, decoded⟩ := r
  have hbound : ¬ 24 + blocks.length * 12 ≤ 4096 := hexceeds
  generalize hh : recordHeader type opaqueWord blocks = h at *
  have hsplit : content.drop offset = h.bytes.take 10 ++ (h.bytes.drop 10 ++ rest) := by
    rw [← List.append_assoc, List.take_append_drop]
    exact hcontent
  rw [fetch_front h (by rw [← hh]; rfl) hsplit]
  by_cases hlong : h.recordLength.toInt > manifestBufferSize
  · rw [if_pos hlong]
    exact ⟨_, _, rfl⟩
  · -- the length is so large that it is negative as a signed number
    have hnegative : h.recordLength.toInt < 0 := by
      simp only [recordHeaderSize, blockRecordSize, manifestBufferSize] at hlength hlong
      rw [BitVec.toInt_eq_toNat_cond] at hlong ⊢
      split at hlong <;> omega
    rw [if_neg hlong, fetchWhole_negative (by omega) (by omega)]
    exact ⟨_, _, rfl⟩

/-- What a record is serialized from; `garbage` is the padding of its entries. -/
structure LogRecord where
  type : RecordType
  opaqueWord : BitVec 64
  blocks : List Block
  garbage : Nat → BitVec 16

namespace LogRecord

def serialize (r : LogRecord) : Except GwError (List UInt8) :=
  serializeManifestLog r.garbage r.blocks r.type r.opaqueWord

/-- The reader returns the record as it was written. -/
def ReadAs (r : LogRecord) (header : RecordHeader) (blocks : List Block) : Prop :=
  header.type = typeCode r.type ∧ header.opaqueWord = r.opaqueWord ∧
    header.numBlocks.toNat = r.blocks.length ∧ blocks = r.blocks.map Block.stored

/-- The header of a record in front of the bytes of its entries. -/
structure Laid (r : LogRecord) (entries : List UInt8) : Prop where
  serialized : r.serialize = .ok ((recordHeader r.type r.opaqueWord r.blocks).bytes ++ entries)
  recordLength : (recordHeader r.type r.opaqueWord r.blocks).recordLength.toNat =
    recordHeaderSize + r.blocks.length * blockRecordSize
  length : entries.length = r.blocks.length * blockRecordSize
  read : ∀ rest reader, readBlocks r.blocks.length (entries ++ rest) reader =
    .ok () { reader with blocks := reader.blocks ++ r.blocks.map Block.stored }

/-- A record is serialized, unless its length is no 64-bit number. -/
theorem laid_or_fails (r : LogRecord) (hstates : ∀ b ∈ r.blocks, b.Known) :
    (∃ entries, r.Laid entries) ∨ ¬ Fits r.blocks ∧ ∃ e, r.serialize = .error e := by
  obtain ⟨entries, hformats, hlength, hread⟩ := logFormats_known r.blocks hstates r.garbage
  have hbytes : ((recordHeader r.type r.opaqueWord r.blocks).bytes ++ entries).length =
      recordHeaderSize + r.blocks.length * blockRecordSize := by
    rw [List.length_append, RecordHeader.length_bytes, hlength]
  by_cases hlen : (recordHeader r.type r.opaqueWord r.blocks).recordLength.toNat =
      recordHeaderSize + r.blocks.length * blockRecordSize
  · left
    refine ⟨entries, ⟨?_, hlen, hlength, hread⟩⟩
    simp only [serialize, serializeManifestLog, hformats]
    change (if _ then _ else _) = _
    rw [if_neg (by rw [hbytes, hlen]; simp)]
    rfl
  · right
    constructor
    · intro hfits
      have hbound : 24 + r.blocks.length * 12 ≤ 4096 := hfits
      apply hlen
      simp only [recordHeader, BitVec.toNat_ofNat, recordHeaderSize, blockRecordSize]
      omega
    · refine ⟨.io "[Manifest::serializeManifestLog] Broken log record", ?_⟩
      simp only [serialize, serializeManifestLog, hformats]
      change (if _ then _ else _) = _
      rw [if_pos (by rw [hbytes]; exact Ne.symm hlen)]
      rfl

end LogRecord

/-- The concatenation of serialized records. -/
def serializeAll : List LogRecord → Except GwError (List UInt8)
  | [] => pure []
  | r :: rest => do
      let first ← r.serialize
      let others ← serializeAll rest
      return first ++ others

/-- Fetching returns the records one after the other, each fetch into an empty vector
and consuming the bytes of its record, and then `invalidLog`. -/
def DecodesTo : List LogRecord → Reader → Prop
  | [], r => ∃ r', fetchOneLogRecord r.cleared = .ok none r' ∧ r'.blocks = []
  | record :: rest, r => ∃ header r',
      fetchOneLogRecord r.cleared = .ok (some header) r' ∧ record.ReadAs header r'.blocks ∧
        r'.content = r.content ∧
        (∀ bytes, record.serialize = .ok bytes → r'.offset = r.offset + bytes.length) ∧
        DecodesTo rest r'

/-- The records are written to a file, and are what is read from it. -/
def RoundTrip (records : List LogRecord) : Prop :=
  ∃ bytes, serializeAll records = .ok bytes ∧ ∀ buffer blocks,
  DecodesTo records ⟨bytes, 0, buffer, blocks⟩

/-- A reader in front of a record that fits takes it and stands in front of the
rest. -/
theorem decodesTo_cons {record : LogRecord} {rest : List LogRecord} {entries others : List UInt8}
    {r : Reader} (hlaid : record.Laid entries) (hfits : Fits record.blocks)
    (hcontent : r.content.drop r.offset =
      (recordHeader record.type record.opaqueWord record.blocks).bytes ++ entries ++ others) :
    ∃ r' : Reader, r'.content.drop r'.offset = others ∧
      (DecodesTo (record :: rest) r ↔ DecodesTo rest r') := by
  obtain ⟨buffer, hfetch⟩ := @fetch_fits r.cleared _ _ _ record.type record.opaqueWord hfits
    hlaid.length hlaid.read hcontent
  have hbytes : ((recordHeader record.type record.opaqueWord record.blocks).bytes ++
      entries).length = recordHeaderSize + record.blocks.length * blockRecordSize := by
    rw [List.length_append, RecordHeader.length_bytes, hlaid.length]
  have hbound : 24 + record.blocks.length * 12 ≤ 4096 := hfits
  refine ⟨⟨r.content, r.offset + (recordHeaderSize + record.blocks.length * blockRecordSize),
    buffer, record.blocks.map Block.stored⟩, ?_, ?_, ?_⟩
  · rw [← List.drop_drop, hcontent, ← hbytes, List.drop_left]
  · rintro ⟨header, r', hr', _, _, _, hrest⟩
    rw [hfetch] at hr'
    cases hr'
    exact hrest
  · intro hrest
    refine ⟨_, _, hfetch, ⟨rfl, rfl, ?_, rfl⟩, rfl, ?_, hrest⟩
    · simp only [recordHeader, BitVec.toNat_ofNat]
      exact Nat.mod_eq_of_lt (by omega)
    · intro bytes hserialize
      rw [hlaid.serialized] at hserialize
      cases hserialize
      rw [hbytes]
      rfl

/-- Records are read back from the bytes that they were serialized to exactly when
each of them fits the buffer. -/
theorem decodesTo_iff (records : List LogRecord)
    (hstates : ∀ r ∈ records, ∀ b ∈ r.blocks, b.Known) :
    ∀ bytes r, serializeAll records = .ok bytes → r.content.drop r.offset = bytes →
      (DecodesTo records r ↔ ∀ record ∈ records, Fits record.blocks) := by
  induction records with
  | nil =>
      intro bytes r hbytes hcontent
      cases hbytes
      have hread : mfRead 0 10 r.cleared =
          .ok 0 { r.cleared with buffer := overwrite 0 r.buffer 0 [] } := by
        simp only [mfRead, Reader.cleared, run_bind, run_get, run_set, run_pure, hcontent,
          List.take_nil, List.length_nil, Nat.add_zero]
      simp only [List.not_mem_nil, false_implies, implies_true, iff_true]
      refine ⟨{ r.cleared with buffer := overwrite 0 r.buffer 0 [] }, ?_, rfl⟩
      simp only [fetchOneLogRecord, run_bind, hread, if_true]
      rfl
  | cons record records ih =>
      intro bytes r hbytes hcontent
      rcases record.laid_or_fails (hstates record List.mem_cons_self) with
        ⟨entries, hlaid⟩ | ⟨_, e, hfails⟩
      · cases hothers : serializeAll records with
        | error e =>
            rw [serializeAll, hlaid.serialized, hothers] at hbytes
            cases hbytes
        | ok others =>
            rw [serializeAll, hlaid.serialized, hothers] at hbytes
            cases hbytes
            by_cases hfits : Fits record.blocks
            · obtain ⟨r', hr', hiff⟩ := @decodesTo_cons record records entries others r hlaid hfits
                hcontent
              rw [hiff, ih (fun r hr => hstates r (List.mem_cons_of_mem _ hr)) others r'
                hothers hr']
              simp [hfits]
            · rw [List.append_assoc] at hcontent
              obtain ⟨e, r', hfetch⟩ := @fetch_exceeds r.cleared _ _ record.type
                record.opaqueWord hfits hlaid.recordLength hcontent
              constructor
              · rintro ⟨header, r'', hr'', _⟩
                rw [hfetch] at hr''
                cases hr''
              · intro hall
                exact absurd (hall record List.mem_cons_self) hfits
      · rw [serializeAll, hfails] at hbytes
        cases hbytes

/-- Records that all fit are serialized. -/
theorem serializeAll_fits (records : List LogRecord)
    (hstates : ∀ r ∈ records, ∀ b ∈ r.blocks, b.Known)
    (hfits : ∀ r ∈ records, Fits r.blocks) : ∃ bytes, serializeAll records = .ok bytes := by
  induction records with
  | nil => exact ⟨[], rfl⟩
  | cons record records ih =>
      rcases record.laid_or_fails (hstates record List.mem_cons_self) with
        ⟨entries, hlaid⟩ | ⟨hexceeds, _⟩
      · obtain ⟨others, hothers⟩ := ih (fun r hr => hstates r (List.mem_cons_of_mem _ hr))
          fun r hr => hfits r (List.mem_cons_of_mem _ hr)
        rw [serializeAll, hlaid.serialized, hothers]
        exact ⟨_, rfl⟩
      · exact absurd (hfits record List.mem_cons_self) hexceeds

/-- A sequence of records in known states survives the round trip through a
manifest file exactly when every record fits the buffer of the reader. The writer
does not know of that bound. -/
theorem roundTrip_iff (records : List LogRecord)
    (hstates : ∀ r ∈ records, ∀ b ∈ r.blocks, b.Known) :
    RoundTrip records ↔ ∀ record ∈ records, Fits record.blocks := by
  constructor
  · rintro ⟨bytes, hbytes, hdecodes⟩
    exact (decodesTo_iff records hstates bytes ⟨bytes, 0, [], []⟩ hbytes rfl).mp
      (hdecodes [] [])
  · intro hfits
    obtain ⟨bytes, hbytes⟩ := serializeAll_fits records hstates hfits
    refine ⟨bytes, hbytes, fun buffer blocks => ?_⟩
    exact (decodesTo_iff records hstates bytes ⟨bytes, 0, buffer, blocks⟩ hbytes rfl).mpr hfits

/-- The record that `close` writes for a file of `n` used local blocks. -/
def closedFile (n : Nat) : LogRecord where
  type := .fullStatus
  opaqueWord := 4096
  blocks := (List.range n).map fun i => ⟨.ofNat 32 i, .ofNat 32 i, true, 2, 0⟩
  garbage := fun _ => 0xBEEF

theorem roundTrip_closedFile : RoundTrip [closedFile 2, closedFile 3] := by
  apply (roundTrip_iff _ ?_).mpr
  · decide
  · decide

/-- The record of a file of 340 blocks is written, and no reader takes it. -/
theorem closedFile_unreadable : (∀ b ∈ (closedFile 340).blocks, b.Known) ∧
    (∃ bytes, serializeAll [closedFile 340] = .ok bytes) ∧ ¬ RoundTrip [closedFile 340] := by
  have hknown : ∀ b ∈ (closedFile 340).blocks, b.Known := by
    decide +kernel
  have hstates : ∀ r ∈ [closedFile 340], ∀ b ∈ r.blocks, b.Known := by
    intro r hr
    rw [List.mem_singleton.mp hr]
    exact hknown
  refine ⟨hknown, ?_, ?_⟩
  · have hok : (serializeAll [closedFile 340]).isOk = true := by
      decide +kernel
    cases hserialized : serializeAll [closedFile 340] with
    | error e =>
        rw [hserialized] at hok
        cases hok
    | ok bytes => exact ⟨bytes, rfl⟩
  · rintro ⟨bytes, hbytes, hdecodes⟩
    have hfits := (decodesTo_iff _ hstates bytes ⟨bytes, 0, [], []⟩ hbytes rfl).mp
      (hdecodes [] [])
    have := hfits _ List.mem_cons_self
    simp [Fits, closedFile, recordHeaderSize, blockRecordSize, manifestBufferSize] at this

end Codec

end Gopherwood
