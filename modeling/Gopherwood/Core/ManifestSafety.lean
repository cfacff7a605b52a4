/-
# Reading a manifest of arbitrary bytes

`fetchOneLogRecord` trusts the fields of a record after it has checked the length
against the buffer and the eyecatcher: the length is not compared with the number of
blocks, and a length of nine passes because the error value of the second read is
what is left of it. The reader is safe exactly on the bytes on which this does no
harm. Harm is done by an exception too: the blocks that were decoded before it stay
in the caller's vector.
-/

import Gopherwood.Core.ManifestCodec

namespace Gopherwood

namespace Codec

open Library

@[simp]
theorem length_takeWord_snd (w : Nat) (buffer : List UInt8) :
    (takeWord w buffer).2.length = buffer.length - w :=
  List.length_drop

/-- The entry at the front of a buffer stands there byte by byte. -/
theorem BlockRecord.bytes_overlay {buffer : List UInt8} (hlong : blockRecordSize ≤ buffer.length) :
    (BlockRecord.overlay buffer).1.bytes ++ (BlockRecord.overlay buffer).2 = buffer := by
  have hlong' : 12 ≤ buffer.length := hlong
  simp only [BlockRecord.overlay, BlockRecord.bytes, List.append_assoc]
  rw [leBytes_takeWord (by decide) (by simp only [length_takeWord_snd]; omega)]
  rw [leBytes_takeWord (by decide) (by simp only [length_takeWord_snd]; omega)]
  rw [leBytes_takeWord (by decide) (by simp only [length_takeWord_snd]; omega)]
  rw [leBytes_takeWord (by decide) (by omega)]

/-- The header at the front of a buffer stands there byte by byte. -/
theorem RecordHeader.bytes_overlay {buffer : List UInt8} (hlong :
    recordHeaderSize ≤ buffer.length) :
    (RecordHeader.overlay buffer).1.bytes ++ (RecordHeader.overlay buffer).2 = buffer := by
  have hlong' : 24 ≤ buffer.length := hlong
  simp only [RecordHeader.overlay, RecordHeader.bytes, List.append_assoc]
  rw [leBytes_takeWord (by decide) (by simp only [length_takeWord_snd]; omega)]
  rw [leBytes_takeWord (by decide) (by simp only [length_takeWord_snd]; omega)]
  rw [leBytes_takeWord (by decide) (by simp only [length_takeWord_snd]; omega)]
  rw [leBytes_takeWord (by decide) (by simp only [length_takeWord_snd]; omega)]
  rw [leBytes_takeWord (by decide) (by simp only [length_takeWord_snd]; omega)]
  rw [leBytes_takeWord (by decide) (by omega)]

theorem BlockRecord.overlay_snd (buffer : List UInt8) :
    (BlockRecord.overlay buffer).2 = buffer.drop blockRecordSize := by
  simp [BlockRecord.overlay, takeWord, blockRecordSize]

theorem RecordHeader.overlay_snd (buffer : List UInt8) :
    (RecordHeader.overlay buffer).2 = buffer.drop recordHeaderSize := by
  simp [RecordHeader.overlay, takeWord, recordHeaderSize]

/-- The entry with the given number in the buffer. -/
def entryAt (entries : List UInt8) (i : Nat) : BlockRecord :=
  (BlockRecord.overlay (entries.drop (i * blockRecordSize))).1

/-- The entry is in no known state. -/
def Unrecognized (entries : List UInt8) (i : Nat) : Prop :=
  (entryAt entries i).toBlockFormat.isOk = false

/-- What `toBlockFormat` throws on such an entry. -/
def unrecognizedState : GwError :=
  .gopherwood "[Block::toBlockFormat] Unrecognized BlockRecordState"

theorem length_flatMap_bytes (records : List BlockRecord) :
    (records.flatMap BlockRecord.bytes).length = records.length * blockRecordSize := by
  induction records with
  | nil => rfl
  | cons record records ih =>
      rw [List.flatMap_cons, List.length_append, BlockRecord.length_bytes, ih, List.length_cons,
        Nat.succ_mul, Nat.add_comm]

/-- The entries are those of the given blocks. -/
structure Lists (entries : List UInt8) (records : List BlockRecord) (blocks : List Block) :
    Prop where
  bytes : records.flatMap BlockRecord.bytes <+: entries
  blocks : records.map BlockRecord.toBlockFormat = blocks.map Except.ok

theorem BlockRecord.toBlockFormat_error {r : BlockRecord} {e : GwError}
    (h : r.toBlockFormat = .error e) : e = unrecognizedState := by
  unfold BlockRecord.toBlockFormat at h
  dsimp only at h
  split at h
  · cases h
  · split at h
    · cases h
    · split at h
      · cases h
      · cases h
        rfl

@[simp]
theorem entryAt_zero (entries : List UInt8) :
    entryAt entries 0 = (BlockRecord.overlay entries).1 := by
  rw [entryAt, Nat.zero_mul, List.drop_zero]

/-- The entries behind the first one. -/
theorem entryAt_drop (entries : List UInt8) (i : Nat) :
    entryAt (entries.drop blockRecordSize) i = entryAt entries (i + 1) := by
  rw [entryAt, entryAt, List.drop_drop, Nat.succ_mul, Nat.add_comm]

/-- The loop stops behind the given number of entries, which are those of the given
blocks. -/
structure StopsBehind (entries : List UInt8) (k : Nat) (blocks : List Block) : Prop where
  lists : ∃ records, records.length = k ∧ Lists entries records blocks
  known : ∀ i < k, ¬ Unrecognized entries i

theorem StopsBehind.nil (entries : List UInt8) : StopsBehind entries 0 [] where
  lists := ⟨[], rfl, ⟨List.nil_prefix, rfl⟩⟩
  known := fun i hi => absurd hi (Nat.not_lt_zero i)

theorem StopsBehind.length {entries : List UInt8} {k : Nat} {blocks : List Block}
    (h : StopsBehind entries k blocks) : blocks.length = k := by
  obtain ⟨records, hlength, hlists⟩ := h.lists
  have hmap := congrArg List.length hlists.blocks
  rw [List.length_map, List.length_map] at hmap
  exact hmap.symm.trans hlength

/-- One more entry in front. -/
theorem StopsBehind.cons {entries : List UInt8} {k : Nat} {block : Block} {blocks : List Block}
    (hlong : blockRecordSize ≤ entries.length)
    (hblock : (BlockRecord.overlay entries).1.toBlockFormat = .ok block)
    (h : StopsBehind (entries.drop blockRecordSize) k blocks) :
    StopsBehind entries (k + 1) (block :: blocks) := by
  obtain ⟨records, hlength, hlists⟩ := h.lists
  constructor
  · refine ⟨(BlockRecord.overlay entries).1 :: records, by rw [List.length_cons, hlength], ?_, ?_⟩
    · conv_rhs => rw [← BlockRecord.bytes_overlay hlong, BlockRecord.overlay_snd]
      exact (List.prefix_append_right_inj _).mpr hlists.bytes
    · rw [List.map_cons, List.map_cons, hblock, hlists.blocks]
  · intro i hi
    cases i with
    | zero => simp [Unrecognized, hblock, Except.isOk, Except.toBool]
    | succ i =>
        rw [Unrecognized, ← entryAt_drop]
        exact h.known i (Nat.lt_of_succ_lt_succ hi)

/-- The loop stops at an entry that is refused. -/
theorem readBlocks_refused {n : Nat} {entries : List UInt8} {r : Reader} {e : GwError}
    (hlong : blockRecordSize ≤ entries.length)
    (hblock : (BlockRecord.overlay entries).1.toBlockFormat = .error e) :
    readBlocks (n + 1) entries r = .error e r := by
  rw [readBlocks, if_neg (Nat.not_lt.mpr hlong)]
  simp only [hblock]
  rfl

/-- The loop goes on behind an entry that is decoded. -/
theorem readBlocks_decoded {n : Nat} {entries : List UInt8} {r : Reader} {block : Block}
    (hlong : blockRecordSize ≤ entries.length)
    (hblock : (BlockRecord.overlay entries).1.toBlockFormat = .ok block) :
    readBlocks (n + 1) entries r =
      readBlocks n (entries.drop blockRecordSize) (r.push block) := by
  rw [readBlocks, if_neg (Nat.not_lt.mpr hlong), ← BlockRecord.overlay_snd]
  simp only [hblock, run_bind, run_modify]

/-- What comes of the loop over the entries: all of them are decoded, or those in front
of the first one in an unknown state, or those that the buffer holds. -/
theorem readBlocks_cases (n : Nat) (entries : List UInt8) (r : Reader) :
    ∃ k blocks, StopsBehind entries k blocks ∧
      (readBlocks n entries r = .ok () { r with blocks := r.blocks ++ blocks } ∧ k = n ∨
        readBlocks n entries r =
            .error unrecognizedState { r with blocks := r.blocks ++ blocks } ∧
          k < n ∧ (k + 1) * blockRecordSize ≤ entries.length ∧ Unrecognized entries k ∨
        readBlocks n entries r = .error .undefined { r with blocks := r.blocks ++ blocks } ∧
          k < n ∧ entries.length < (k + 1) * blockRecordSize) := by
  induction n generalizing entries r with
  | zero => exact ⟨0, [], .nil entries, Or.inl ⟨by simp [readBlocks], rfl⟩⟩
  | succ n ih =>
      by_cases hshort : entries.length < blockRecordSize
      · refine ⟨0, [], .nil entries, Or.inr (Or.inr ⟨?_, Nat.succ_pos n, by omega⟩)⟩
        rw [readBlocks, if_pos hshort, List.append_nil]
        rfl
      · have hlong : blockRecordSize ≤ entries.length := Nat.le_of_not_lt hshort
        cases hblock : (BlockRecord.overlay entries).1.toBlockFormat with
        | error e =>
            refine ⟨0, [], .nil entries, Or.inr (Or.inl ⟨?_, Nat.succ_pos n, by omega, ?_⟩)⟩
            · rw [readBlocks_refused hlong hblock, BlockRecord.toBlockFormat_error hblock,
                List.append_nil]
            · simp [Unrecognized, hblock, Except.isOk, Except.toBool]
        | ok block =>
            obtain ⟨k, blocks, hstops, hcases⟩ :=
              ih (entries.drop blockRecordSize) (r.push block)
            have hpush : { r.push block with blocks := (r.push block).blocks ++ blocks } =
                { r with blocks := r.blocks ++ block :: blocks } := by
              simp [Reader.push]
            have hmore : (k + 1 + 1) * blockRecordSize =
                (k + 1) * blockRecordSize + blockRecordSize := Nat.succ_mul _ _
            rw [hpush, List.length_drop, Unrecognized, entryAt_drop,
              ← readBlocks_decoded hlong hblock] at hcases
            refine ⟨k + 1, block :: blocks, hstops.cons hlong hblock, ?_⟩
            rcases hcases with ⟨hread, hk⟩ | ⟨hread, hk, hfits, hbad⟩ | ⟨hread, hk, hover⟩
            · exact Or.inl ⟨hread, by omega⟩
            · exact Or.inr (Or.inl ⟨hread, by omega, by omega, hbad⟩)
            · exact Or.inr (Or.inr ⟨hread, by omega, by omega⟩)

/-! ## Records on arbitrary bytes -/

/-- The signed length and the eyecatcher that the first ten bytes hold. -/
def lengthField (bytes : List UInt8) : Int := (BitVec.ofNat 64 (takeWord 8 bytes).1).toInt
def eyecatcherField (bytes : List UInt8) :
    BitVec 16 := BitVec.ofNat 16 (takeWord 2 (bytes.drop 8)).1

namespace Reader

/-- The bytes from the position of the descriptor on. -/
def ahead (r : Reader) : List UInt8 := r.content.drop r.offset

/-- The reader goes on behind the first ten bytes. -/
structure Begins (r : Reader) : Prop where
  long : 10 ≤ r.ahead.length
  eyecatcher : eyecatcherField r.ahead = manifestRecordEyecatcher
  length : lengthField r.ahead ≤ manifestBufferSize

/-- The second read passes for complete: the bytes are there, or its error value is what
is left of the length. -/
def Complete (r : Reader) : Prop :=
  lengthField r.ahead = 9 ∨ 10 ≤ lengthField r.ahead ∧ lengthField r.ahead ≤ r.ahead.length

/-- The buffer when the record is taken apart. What was not read is from an earlier
record. -/
def filled (r : Reader) : List UInt8 :=
  let n := max 10 (lengthField r.ahead).toNat
  r.ahead.take n ++ r.buffer.drop n

/-- The number of blocks that the reader finds in the buffer. -/
def blocksFound (r : Reader) : Nat := (RecordHeader.overlay r.filled).1.numBlocks.toNat

/-- The first `n` entries lie inside the record, as its length says. -/
def Inside (r : Reader) (n : Nat) : Prop :=
  recordHeaderSize + n * blockRecordSize ≤ lengthField r.ahead

/-- The reader stumbles over an entry inside the record. -/
def Stumbles (r : Reader) : Prop :=
  ∃ i < r.blocksFound, r.Inside (i + 1) ∧ Unrecognized (r.filled.drop recordHeaderSize) i

/-- The record that the reader takes is what its length says, unless the reader stumbles
over an entry before it leaves the record. -/
structure Sound (r : Reader) : Prop where
  difference : r.Begins → -2 ^ 63 ≤ lengthField r.ahead - 10
  agrees : r.Begins → r.Complete →
    lengthField r.ahead = recordHeaderSize + r.blocksFound * blockRecordSize ∨ r.Stumbles

end Reader

/-- A well-formed record at the front of the bytes. -/
structure IsRecord (bytes : List UInt8) (header : RecordHeader) (blocks : List Block) : Prop where
  eyecatcher : header.eyecatcher = manifestRecordEyecatcher
  length : header.recordLength.toNat = recordHeaderSize + header.numBlocks.toNat * blockRecordSize
  fits : header.recordLength.toNat ≤ manifestBufferSize
  laid : ∃ records : List BlockRecord, records.length = header.numBlocks.toNat ∧
    header.bytes ++ records.flatMap BlockRecord.bytes <+: bytes ∧
    records.map BlockRecord.toBlockFormat = blocks.map Except.ok

/-- The blocks are decoded from the bytes of the record: they are its first entries. -/
structure Reader.DecodedInside (r : Reader) (blocks : List Block) : Prop where
  inside : r.Inside blocks.length
  laid : ∃ header : RecordHeader, ∃ records : List BlockRecord,
    header.bytes ++ records.flatMap BlockRecord.bytes <+: r.ahead ∧
      records.map BlockRecord.toBlockFormat = blocks.map Except.ok

/-- A fetch reports the end of the file there, throws, or returns a well-formed record
and stands behind it. What it has pushed by then was decoded from the record, also when
it throws, and an entry that makes it throw lies in the record as well. -/
def Reader.Safe (r : Reader) : Prop :=
  match fetchOneLogRecord r with
  | .ok none r' => r.ahead = [] ∧ r'.blocks = r.blocks
  | .ok (some header) r' => ∃ blocks, r'.blocks = r.blocks ++ blocks ∧
      IsRecord r.ahead header blocks ∧ r'.content = r.content ∧
        r'.offset = r.offset + header.recordLength.toNat
  | .error e r' => e ≠ .undefined ∧ ∃ blocks, r'.blocks = r.blocks ++ blocks ∧
      (blocks = [] ∨ r.DecodedInside blocks) ∧
        (e = unrecognizedState → r.Inside (blocks.length + 1))

variable {r : Reader}

theorem mfRead_run (place size : Nat) (r : Reader) :
    mfRead place size r = .ok (r.ahead.take size).length { r with
      offset := r.offset + (r.ahead.take size).length
      buffer := overwrite 0 r.buffer place (r.ahead.take size) } := rfl

/-- The reader throws before it has decoded anything. -/
structure Refuses (prog : ReaderM (Option RecordHeader)) (r : Reader) (e : GwError) (r' : Reader) :
    Prop where
  run : prog r = .error e r'
  blocks : r'.blocks = r.blocks
  state : e ≠ unrecognizedState

theorem Refuses.safe {e : GwError} {r' : Reader} (h : Refuses fetchOneLogRecord r e r')
    (hdefined : e ≠ .undefined) : r.Safe := by
  unfold Reader.Safe
  rw [h.run]
  exact ⟨hdefined, [], by rw [h.blocks, List.append_nil], Or.inl rfl, fun he => absurd he h.state⟩

theorem fetch_end (hend : r.ahead = []) :
    ∃ r', fetchOneLogRecord r = .ok none r' ∧ r'.blocks = r.blocks := by
  refine ⟨{ r with buffer := overwrite 0 r.buffer 0 [] }, ?_, rfl⟩
  simp only [fetchOneLogRecord, run_bind, mfRead_run, hend, List.take_nil, List.length_nil,
    Nat.add_zero, if_true]
  rfl

/-- Less than the first ten bytes. -/
theorem fetch_short (hsome : r.ahead ≠ []) (hshort : r.ahead.length < 10) :
    ∃ e r', Refuses fetchOneLogRecord r e r' ∧ e ≠ .undefined := by
  have htake : r.ahead.take 10 = r.ahead := List.take_of_length_le (by omega)
  have hzero : ¬ r.ahead.length = 0 := mt List.length_eq_zero_iff.mp hsome
  have hten : ¬ r.ahead.length = 10 := by omega
  have hrun : ∃ message r', fetchOneLogRecord r = .error (.gopherwood message) r' ∧
      r'.blocks = r.blocks ∧ .gopherwood message ≠ unrecognizedState := by
    simp only [fetchOneLogRecord, run_bind, mfRead_run, htake]
    rw [if_neg hzero]
    simp only [run_bind, run_get]
    split
    · exact ⟨_, _, rfl, rfl, by decide⟩
    · rw [if_pos (Or.inl hten)]
      exact ⟨_, _, rfl, rfl, by decide⟩
  obtain ⟨message, r', hrun, hblocks, hstate⟩ := hrun
  exact ⟨_, r', ⟨hrun, hblocks, hstate⟩, (fun h => by cases h)⟩

/-- The reader behind the first ten bytes. -/
def Reader.begun (r : Reader) : Reader where
  content := r.content
  offset := r.offset + 10
  buffer := r.ahead.take 10 ++ r.buffer.drop 10
  blocks := r.blocks

/-- The length and the eyecatcher are taken from the bytes that were just read. -/
theorem fields_front {bytes rest : List UInt8} (hlong : 10 ≤ bytes.length) :
    lengthField (bytes.take 10 ++ rest) = lengthField bytes ∧
      eyecatcherField (bytes.take 10 ++ rest) = eyecatcherField bytes := by
  have hten : (bytes.take 10).length = 10 := List.length_take_of_le hlong
  constructor
  · unfold lengthField takeWord
    rw [List.take_append_of_le_length (by omega), List.take_take]
    rfl
  · unfold eyecatcherField takeWord
    rw [List.drop_append_of_le_length (by omega), List.take_append_of_le_length (by simp; omega),
      List.drop_take, List.take_take]
    rfl

/-- A record begins with ten bytes; the reader goes on behind them, or throws. -/
theorem fetch_long (hlong : 10 ≤ r.ahead.length) :
    (r.Begins → fetchOneLogRecord r = fetchWhole (lengthField r.ahead) r.begun) ∧
      (¬ r.Begins → ∃ e r', Refuses fetchOneLogRecord r e r' ∧ e ≠ .undefined) := by
  have hten : (r.ahead.take 10).length = 10 := List.length_take_of_le hlong
  have hbuffer : overwrite 0 r.buffer 0 (r.ahead.take 10) = r.begun.buffer := by
    simp [overwrite, Reader.begun, hten]
  have hfields := @fields_front r.ahead (r.buffer.drop 10) hlong
  have hlength : (BitVec.ofNat 64 (takeWord 8 r.begun.buffer).1).toInt = lengthField r.ahead :=
    hfields.1
  have heyecatcher : BitVec.ofNat 16 (takeWord 2 (r.begun.buffer.drop 8)).1 =
      eyecatcherField r.ahead := hfields.2
  have hrun : fetchOneLogRecord r =
      if lengthField r.ahead > manifestBufferSize then
        .error (.gopherwood
          "[Manifest::fetchOneLogRecord] recLength should not exceed buffer size.") r.begun
      else if eyecatcherField r.ahead ≠ manifestRecordEyecatcher then
        .error (.gopherwood "[Manifest::fetchOneLogRecord] read log error") r.begun
      else fetchWhole (lengthField r.ahead) r.begun := by
    simp only [fetchOneLogRecord, run_bind, mfRead_run, hten, hbuffer]
    rw [if_neg (by decide)]
    simp only [run_bind, run_get, hlength, heyecatcher]
    by_cases hexceeds : lengthField r.ahead > manifestBufferSize
    · rw [if_pos hexceeds, if_pos hexceeds]
      rfl
    · rw [if_neg hexceeds, if_neg hexceeds]
      by_cases heye : eyecatcherField r.ahead ≠ manifestRecordEyecatcher
      · rw [if_pos heye, if_pos (Or.inr heye)]
        rfl
      · rw [if_neg heye, if_neg (by simpa using heye)]
        rfl
  constructor
  · intro hbegins
    rw [hrun, if_neg (Int.not_lt.mpr hbegins.length), if_neg (not_not.mpr hbegins.eyecatcher)]
  · intro hnot
    by_cases hexceeds : lengthField r.ahead > manifestBufferSize
    · rw [if_pos hexceeds] at hrun
      exact ⟨_, _, ⟨hrun, rfl, by decide⟩, (fun h => by cases h)⟩
    · by_cases heye : eyecatcherField r.ahead ≠ manifestRecordEyecatcher
      · rw [if_neg hexceeds, if_pos heye] at hrun
        exact ⟨_, _, ⟨hrun, rfl, by decide⟩, (fun h => by cases h)⟩
      · exact absurd ⟨hlong, not_not.mp heye, Int.not_lt.mp hexceeds⟩ hnot

/-- The reader behind a record that it takes for complete. -/
def Reader.behind (r : Reader) : Reader where
  content := r.content
  offset := r.offset + max 10 (lengthField r.ahead).toNat
  buffer := r.filled
  blocks := r.blocks

theorem readRest_complete (hlong : 10 ≤ r.ahead.length) (hcomplete : r.Complete) :
    readRest (lengthField r.ahead) r.begun = .ok (lengthField r.ahead - 10) r.behind := by
  rcases hcomplete with hnine | ⟨hten, hthere⟩
  · rw [readRest, if_pos (by omega), hnine]
    unfold Reader.behind Reader.filled
    rw [hnine]
    rfl
  · have hfront : (r.ahead.take 10).length = 10 := List.length_take_of_le hlong
    have hmax : max 10 (lengthField r.ahead).toNat = 10 + (lengthField r.ahead - 10).toNat := by
        omega
    generalize hsize : (lengthField r.ahead - 10).toNat = size at hmax
    have hback : ((r.ahead.drop 10).take size).length = size := by
      rw [List.length_take, List.length_drop]
      omega
    have hcontent : r.content.drop (r.offset + 10) =
        (r.ahead.drop 10).take size ++ (r.ahead.drop 10).drop size := by
      rw [List.take_append_drop]
      exact List.drop_drop.symm
    have hread := @mfRead_behind _ (r.buffer.drop 10) _ _ _ _ _ r.blocks hcontent hback hfront
    have hvalue : lengthField r.ahead - 10 = size := by omega
    rw [readRest, if_neg (by omega), hsize, run_bind, Reader.begun, hread]
    rw [Reader.behind, Reader.filled, hmax, List.take_add, ← Nat.add_assoc, ← List.drop_drop,
      hvalue]
    rfl

/-- A complete record is taken apart. -/
theorem fetchWhole_complete (hlong : 10 ≤ r.ahead.length) (hcomplete : r.Complete) :
    fetchWhole (lengthField r.ahead) r.begun =
      (do
        readBlocks r.blocksFound (r.filled.drop recordHeaderSize)
        return some (RecordHeader.overlay r.filled).1 : ReaderM _) r.behind := by
  have hnine : 9 ≤ lengthField r.ahead := by
    rcases hcomplete with hnine | ⟨hten, _⟩
    · omega
    · omega
  rw [fetchWhole, if_neg (by omega)]
  simp only [run_bind, readRest_complete hlong hcomplete]
  rw [if_neg (by simp), ← RecordHeader.overlay_snd]
  rfl

/-- A record with bytes missing is refused. -/
theorem fetchWhole_incomplete (hlong : 10 ≤ r.ahead.length) (hincomplete : ¬ r.Complete) :
    ∃ e r', Refuses (fetchWhole (lengthField r.ahead)) r.begun e r' ∧
      (e = .undefined ↔ lengthField r.ahead - 10 < -2 ^ 63) := by
  unfold Reader.Complete at hincomplete
  by_cases hshort : lengthField r.ahead < 10
  · refine ⟨_, _, ⟨fetchWhole_negative hshort (by omega) r.begun, rfl, ?_⟩, ?_⟩
    · split <;> decide
    · by_cases hoverflow : lengthField r.ahead - 10 < -2 ^ 63
      · rw [if_pos hoverflow]
        exact ⟨fun _ => hoverflow, fun _ => rfl⟩
      · rw [if_neg hoverflow]
        exact ⟨(fun h => by cases h), fun h => absurd h hoverflow⟩
  · have hahead : r.begun.ahead = r.ahead.drop 10 := List.drop_drop.symm
    have hread : ∃ n r', readRest (lengthField r.ahead) r.begun = .ok n r' ∧
        r'.blocks = r.begun.blocks ∧ n ≠ lengthField r.ahead - 10 := by
      simp only [readRest, if_neg hshort, run_bind, mfRead_run, run_pure]
      refine ⟨_, _, rfl, rfl, ?_⟩
      rw [hahead, List.length_take, List.length_drop]
      omega
    obtain ⟨n, r', hread, hblocks, hn⟩ := hread
    refine ⟨.gopherwood "[Manifest::fetchOneLogRecord] read log error.", r',
      ⟨?_, hblocks, by decide⟩, (fun h => by cases h), fun h => by omega⟩
    rw [fetchWhole, if_neg (by omega)]
    simp only [run_bind, hread]
    rw [if_pos hn]
    rfl

theorem length_filled (hbuffer : r.buffer.length = manifestBufferSize) (hbegins : r.Begins)
    (hcomplete : r.Complete) : r.filled.length = manifestBufferSize := by
  have hlong := hbegins.long
  have hlength := hbegins.length
  unfold Reader.Complete at hcomplete
  unfold manifestBufferSize at *
  rw [Reader.filled, List.length_append, List.length_take, List.length_drop]
  omega

/-- The header in the buffer has the length and the eyecatcher of the bytes just read. -/
theorem header_filled (hlong : 10 ≤ r.ahead.length) :
    (RecordHeader.overlay r.filled).1.recordLength.toInt = lengthField r.ahead ∧
      (RecordHeader.overlay r.filled).1.eyecatcher = eyecatcherField r.ahead := by
  have hsplit : r.filled = r.ahead.take 10 ++ r.filled.drop 10 := by
    have htake : r.filled.take 10 = r.ahead.take 10 := by
      rw [Reader.filled, List.take_append_of_le_length (by rw [List.length_take]; omega),
        List.take_take, Nat.min_eq_left (by omega)]
    rw [← htake, List.take_append_drop]
  have hfields := @fields_front r.ahead (r.filled.drop 10) hlong
  rw [← hsplit] at hfields
  exact hfields

/-- A header in the buffer that is a record's says the length of the bytes. -/
theorem IsRecord.lengthField_eq {bytes : List UInt8} {blocks : List Block}
    (h : IsRecord bytes (RecordHeader.overlay r.filled).1 blocks) (hlong : 10 ≤ r.ahead.length) :
    lengthField r.ahead = recordHeaderSize + r.blocksFound * blockRecordSize := by
  have hlength := h.length
  have hfits := h.fits
  rw [← (header_filled hlong).1, BitVec.toInt_eq_toNat_of_lt
    (by unfold manifestBufferSize at hfits; omega), hlength]
  rfl

/-- Entries that lie inside the record are among the bytes that the reader has just
read. -/
theorem laid_inside (hbuffer : r.buffer.length = manifestBufferSize) (hbegins : r.Begins)
    (hcomplete : r.Complete) {records : List BlockRecord} (hinside : r.Inside records.length)
    (hbytes : records.flatMap BlockRecord.bytes <+: r.filled.drop recordHeaderSize) :
    (RecordHeader.overlay r.filled).1.bytes ++ records.flatMap BlockRecord.bytes <+:
      r.ahead := by
  have hfilled := length_filled hbuffer hbegins hcomplete
  have hheader := @RecordHeader.bytes_overlay r.filled (by rw [hfilled]; decide)
  have hlaid : (RecordHeader.overlay r.filled).1.bytes ++ records.flatMap BlockRecord.bytes <+:
      r.filled := by
    conv_rhs => rw [← hheader, RecordHeader.overlay_snd]
    exact (List.prefix_append_right_inj _).mpr hbytes
  have hread : r.ahead.take (max 10 (lengthField r.ahead).toNat) <+: r.filled :=
    List.prefix_append _ _
  apply (List.prefix_of_prefix_length_le hlaid hread ?_).trans (List.take_prefix _ _)
  rw [List.length_append, RecordHeader.length_bytes, length_flatMap_bytes, List.length_take]
  unfold Reader.Complete at hcomplete
  unfold Reader.Inside recordHeaderSize at *
  omega

/-- When the length agrees, everything that the reader decodes lies in the bytes that it
has just read. -/
theorem isRecord_of_agrees (hbuffer : r.buffer.length = manifestBufferSize) (hbegins : r.Begins)
    (hcomplete : r.Complete)
    (hagrees : lengthField r.ahead = recordHeaderSize + r.blocksFound * blockRecordSize)
    {blocks : List Block}
    (hstops : StopsBehind (r.filled.drop recordHeaderSize) r.blocksFound blocks) :
    IsRecord r.ahead (RecordHeader.overlay r.filled).1 blocks ∧
      r.behind.offset = r.offset + (RecordHeader.overlay r.filled).1.recordLength.toNat := by
  obtain ⟨records, hlength, hlists⟩ := hstops.lists
  have hfits := hbegins.length
  obtain ⟨hsigned, heyecatcher⟩ := header_filled hbegins.long
  have hint : (RecordHeader.overlay r.filled).1.recordLength.toNat =
      recordHeaderSize + r.blocksFound * blockRecordSize := by
    have hcond := BitVec.toInt_eq_toNat_cond (RecordHeader.overlay r.filled).1.recordLength
    rw [hsigned, hagrees] at hcond
    split at hcond
    · omega
    · have := (RecordHeader.overlay r.filled).1.recordLength.isLt
      omega
  have hmax : max 10 (lengthField r.ahead).toNat =
      recordHeaderSize + r.blocksFound * blockRecordSize := by
    unfold recordHeaderSize at *
    omega
  have hinside : r.Inside records.length := by
    rw [hlength]
    exact Int.le_of_eq hagrees.symm
  refine ⟨⟨heyecatcher.trans hbegins.eyecatcher, hint, by omega, records, hlength, ?_,
    hlists.blocks⟩, ?_⟩
  · exact laid_inside hbuffer hbegins hcomplete hinside hlists.bytes
  · rw [hint, ← hmax]
    rfl

/-- What was decoded before the reader left the record lies in the record. -/
theorem decodedInside (hbuffer : r.buffer.length = manifestBufferSize) (hbegins : r.Begins)
    (hcomplete : r.Complete) {k : Nat} {blocks : List Block} (hinside : r.Inside k)
    (hstops : StopsBehind (r.filled.drop recordHeaderSize) k blocks) : r.DecodedInside blocks := by
  obtain ⟨records, hlength, hlists⟩ := hstops.lists
  have hlaid := laid_inside hbuffer hbegins hcomplete (hlength.symm ▸ hinside) hlists.bytes
  exact ⟨hstops.length.symm ▸ hinside, _, records, hlaid, hlists.blocks⟩

theorem Reader.Inside.mono {m n : Nat} (h : r.Inside n) (hle : m ≤ n) : r.Inside m := by
  unfold Reader.Inside blockRecordSize at *
  omega

/-- The reader does not leave the record before it has decoded the given entries. -/
theorem Reader.Sound.inside (hsound : r.Sound) (hbegins : r.Begins) (hcomplete : r.Complete)
    {k : Nat} {blocks : List Block} (hmore : k < r.blocksFound)
    (hstops : StopsBehind (r.filled.drop recordHeaderSize) k blocks) : r.Inside (k + 1) := by
  rcases hsound.agrees hbegins hcomplete with hagrees | ⟨i, _, hinside, hbad⟩
  · have hall : r.Inside r.blocksFound := Int.le_of_eq hagrees.symm
    exact hall.mono hmore
  · have hpast : k ≤ i := by
      by_contra hbefore
      exact hstops.known i (Nat.lt_of_not_le hbefore) hbad
    exact hinside.mono (Nat.succ_le_succ hpast)

/-- A record with all its bytes: the reader is safe when it is what its length says, or
stumbles inside. -/
theorem safe_iff_of_complete (hbuffer : r.buffer.length = manifestBufferSize)
    (hbegins : r.Begins) (hcomplete : r.Complete) : r.Safe ↔ r.Sound := by
  have hlong := hbegins.long
  have hfetch := (fetch_long hlong).1 hbegins
  rw [fetchWhole_complete hlong hcomplete, run_bind] at hfetch
  have hdifference : r.Begins → -2 ^ 63 ≤ lengthField r.ahead - 10 := by
    intro _
    rcases hcomplete with hnine | ⟨hten, _⟩
    · omega
    · omega
  obtain ⟨k, blocks, hstops, hcases⟩ :=
    readBlocks_cases r.blocksFound (r.filled.drop recordHeaderSize) r.behind
  unfold Reader.Safe
  rcases hcases with ⟨hread, rfl⟩ | ⟨hread, hk, _, hbad⟩ | ⟨hread, hk, hover⟩
  · -- every entry was decoded
    rw [hfetch, hread]
    constructor
    · rintro ⟨_, _, hrecord, _⟩
      exact ⟨hdifference, fun _ _ => Or.inl (hrecord.lengthField_eq hlong)⟩
    · intro hsound
      have hagrees : lengthField r.ahead = recordHeaderSize + r.blocksFound * blockRecordSize := by
        refine (hsound.agrees hbegins hcomplete).resolve_right ?_
        rintro ⟨i, hi, _, hbad⟩
        exact hstops.known i hi hbad
      obtain ⟨hrecord, hoffset⟩ := isRecord_of_agrees hbuffer hbegins hcomplete hagrees hstops
      exact ⟨blocks, rfl, hrecord, rfl, hoffset⟩
  · -- the reader stumbled over the next entry
    rw [hfetch, hread]
    constructor
    · rintro ⟨_, decoded, hdecoded, _, hinside⟩
      have hsame : decoded = blocks := (List.append_cancel_left hdecoded).symm
      rw [hsame, hstops.length] at hinside
      exact ⟨hdifference, fun _ _ => Or.inr ⟨k, hk, hinside rfl, hbad⟩⟩
    · intro hsound
      have hinside := hsound.inside hbegins hcomplete hk hstops
      refine ⟨by decide, blocks, rfl, Or.inr ?_, fun _ => hstops.length.symm ▸ hinside⟩
      exact decodedInside hbuffer hbegins hcomplete (hinside.mono (Nat.le_succ k)) hstops
  · -- the reader ran past the buffer
    rw [hfetch, hread]
    constructor
    · rintro ⟨hdefined, _⟩
      exact absurd rfl hdefined
    · intro hsound
      have hinside := hsound.inside hbegins hcomplete hk hstops
      have hfits := hbegins.length
      have hfilled := length_filled hbuffer hbegins hcomplete
      rw [List.length_drop] at hover
      unfold Reader.Inside at hinside
      omega

/-- The reader is safe on exactly those bytes on which the length of the record that it
takes agrees with the number of blocks found in the buffer, or on which it stumbles over
an entry in an unknown state before it leaves the record. -/
theorem fetchOneLogRecord_safe_iff (r : Reader) (hbuffer : r.buffer.length = manifestBufferSize) :
    r.Safe ↔ r.Sound := by
  by_cases hlong : 10 ≤ r.ahead.length
  · by_cases hbegins : r.Begins
    · by_cases hcomplete : r.Complete
      · exact safe_iff_of_complete hbuffer hbegins hcomplete
      · obtain ⟨e, r', hrefuses, he⟩ := fetchWhole_incomplete hlong hcomplete
        have hfetch : Refuses fetchOneLogRecord r e r' :=
          ⟨((fetch_long hlong).1 hbegins).trans hrefuses.run, hrefuses.blocks, hrefuses.state⟩
        constructor
        · intro hsafe
          unfold Reader.Safe at hsafe
          rw [hfetch.run] at hsafe
          exact ⟨fun _ => Int.not_lt.mp (mt he.mpr hsafe.1), fun _ h => absurd h hcomplete⟩
        · intro hsound
          exact hfetch.safe (mt he.mp (Int.not_lt.mpr (hsound.difference hbegins)))
    · obtain ⟨e, r', hrefuses, he⟩ := (fetch_long hlong).2 hbegins
      exact ⟨fun _ => ⟨fun h => absurd h hbegins, fun h => absurd h hbegins⟩,
        fun _ => hrefuses.safe he⟩
  · have hsound : r.Sound := ⟨fun h => absurd h.long hlong, fun h => absurd h.long hlong⟩
    by_cases hend : r.ahead = []
    · obtain ⟨r', hok, hblocks⟩ := fetch_end hend
      unfold Reader.Safe
      rw [hok]
      exact ⟨fun _ => hsound, fun _ => ⟨hend, hblocks⟩⟩
    · obtain ⟨e, r', hrefuses, he⟩ := fetch_short hend (by omega)
      exact ⟨fun _ => hsound, fun _ => hrefuses.safe he⟩

/-- A fresh reader in front of one header that announces the given length and number of
blocks. -/
def announcing (recordLength : BitVec 64) (numBlocks : BitVec 32) : Reader where
  content := (RecordHeader.mk recordLength manifestRecordEyecatcher (typeCode .fullStatus) 0
    numBlocks 0).bytes
  offset := 0
  buffer := List.replicate manifestBufferSize 0
  blocks := []

/-- The record of an empty file. -/
theorem fetchOneLogRecord_emptyFile :
    (announcing 24 0).buffer.length = manifestBufferSize ∧ (announcing 24 0).Safe := by
  have hbuffer : (announcing 24 0).buffer.length = manifestBufferSize := List.length_replicate
  refine ⟨hbuffer, (fetchOneLogRecord_safe_iff _ hbuffer).mpr ⟨fun _ => ?_, fun _ _ => Or.inl ?_⟩⟩
  · decide +kernel
  · decide +kernel

/-- A header that announces a block behind its length is taken, and a block is decoded
from what the buffer held before. -/
theorem fetchOneLogRecord_unsafe :
    ¬ ∀ r : Reader, r.buffer.length = manifestBufferSize → r.Safe := by
  intro hclaim
  have hbuffer : (announcing 24 1).buffer.length = manifestBufferSize := List.length_replicate
  have htaken : (match fetchOneLogRecord (announcing 24 1) with
      | .ok (some header) _ => decide (header.recordLength = 24 ∧ header.numBlocks = 1)
      | _ => false) = true := by
    decide +kernel
  generalize announcing 24 1 = r at hbuffer htaken
  have hsafe := hclaim r hbuffer
  unfold Reader.Safe at hsafe
  split at hsafe
  · next hfetch => simp [hfetch] at htaken
  · next hfetch =>
      obtain ⟨blocks, _, hrecord, _⟩ := hsafe
      simp only [hfetch, decide_eq_true_eq] at htaken
      have hlength := hrecord.length
      rw [htaken.1, htaken.2] at hlength
      exact absurd hlength (by decide)
  · next hfetch => simp [hfetch] at htaken

end Codec

end Gopherwood
