/-
# The manifest log

Every file has a manifest: a log of block records, replayed by each handle of
the file. A directory maps file ids to the log files that are linked, and a
handle reads and writes through a descriptor that names a log file and has its
own offset, so a handle can keep a log file open that was unlinked meanwhile.
-/

import Gopherwood.Core.BlockStatus
import Gopherwood.Library.Journal

namespace Gopherwood

/-- `enum RecordType`. -/
inductive RecordType
  | acquireNewBlock
  | inactiveBlock
  | activeBlock
  | releaseBlock
  | loadBlock
  | extendBlock
  | evictBlock
  | fullStatus
  | updateEof
  deriving DecidableEq

/-- A log record: its type, the opaque word (the end of file where the type has
one, otherwise zero) and its blocks. A decoded block has usage count zero. -/
structure Record where
  type : RecordType
  eof : Nat
  blocks : List Block
  deriving DecidableEq

/-- A record in a log file. The author is not stored in the file; it is kept to
state who reads which record. -/
structure LogEntry where
  author : Client
  record : Record
  deriving DecidableEq

/-- `recordLength`: a header of 24 bytes and 12 bytes for every block. -/
def LogEntry.recordLength (e : LogEntry) : Nat := 24 + 12 * e.record.blocks.length

/-- `Manifest::BUFFER_SIZE`. -/
def manifestBufferSize : Nat := 4 * 1024

/-- The bytes of a log file. -/
abbrev LogFile := List (Library.Cell LogEntry)

/-- A byte of a hole left by a write past the end of a log file; it belongs to
no record, since its index lies outside the frame of its record. -/
def LogFile.hole : Library.Cell LogEntry :=
  let entry : LogEntry := ⟨.admin 0, ⟨.updateEof, 0, []⟩⟩
  (entry, entry.recordLength)

/-- The manifest folder. `links` is the directory, `files` are the log files. -/
structure ManifestFolder where
  links : FileId → Option Nat
  files : List LogFile

/-- A manifest descriptor: the open log file and the offset. -/
structure Descriptor where
  file : Nat
  offset : Nat
  deriving DecidableEq

namespace ManifestFolder

def empty : ManifestFolder := ⟨fun _ => none, []⟩

/-- `access` on the manifest path. -/
def isLinked (d : ManifestFolder) (fileId : FileId) : Bool := (d.links fileId).isSome

/-- `mfOpen`: open the manifest of a file, creating an empty one if needed. -/
def mfOpen (d : ManifestFolder) (fileId : FileId) : ManifestFolder × Nat :=
  match d.links fileId with
  | some file => (d, file)
  | none =>
      let file := d.files.length
      ({ links := fun f => if f = fileId then some file else d.links f
         files := d.files ++ [[]] }, file)

/-- `mfRemove`. -/
def mfRemove (d : ManifestFolder) (fileId : FileId) : ManifestFolder :=
  { d with links := fun f => if f = fileId then none else d.links f }

/-- The bytes of a log file. -/
def content (d : ManifestFolder) (file : Nat) : LogFile := d.files.getD file []

/-- `mfWrite` through a descriptor: the bytes at its offset are replaced. -/
def mfWrite (d : ManifestFolder) (fd : Descriptor) (entry : LogEntry) :
    ManifestFolder × Descriptor :=
  let data := Library.frame LogEntry.recordLength entry
  ({ d with files := d.files.modify fd.file fun bytes =>
      Library.overwrite LogFile.hole bytes fd.offset data },
   { fd with offset := fd.offset + data.length })

/-- `mfTruncate`. -/
def mfTruncate (d : ManifestFolder) (fd : Descriptor) : ManifestFolder × Descriptor :=
  ({ d with files := d.files.modify fd.file fun _ => [] }, { fd with offset := 0 })

end ManifestFolder

/-- What `fetchOneLogRecord` finds at a descriptor, and the descriptor after it.
A record longer than the buffer, or bytes that are not a whole record, raise an
exception after the ten bytes of the length and the eyecatcher were read. -/
def fetchOneLogRecord (bytes : LogFile) (fd : Descriptor) :
    Except GwError (Option LogEntry) × Descriptor :=
  match Library.fetch LogEntry.recordLength bytes fd.offset with
  | .endOfFile => (.ok none, fd)
  | .torn =>
      (.error (.gopherwood "[Manifest::fetchOneLogRecord] read log error"),
       { fd with offset := min (fd.offset + 10) bytes.length })
  | .record entry =>
      if entry.recordLength > manifestBufferSize then
        (.error
          (.gopherwood "[Manifest::fetchOneLogRecord] recLength should not exceed buffer size."),
         { fd with offset := fd.offset + 10 })
      else
        (.ok (some entry), { fd with offset := fd.offset + entry.recordLength })

/-- What a handle rebuilds from the log: its block array and end of file. -/
structure View where
  blockArray : List Block
  eof : Nat
  deriving DecidableEq

/-- `mBlockArray[blockId].state = state`. -/
def setBlockState (state : BucketType) (blocks : List Block) (blockId : Option Nat) :
    Except GwError (List Block) :=
  match blockId with
  | some i => if i < blocks.length then
      .ok (blocks.modify i fun b => { b with state := state }) else .error .undefined
  | none => .error .undefined

/-- The two cases of the replay that replace one block, after a test on it. -/
def replaceBlock (test : Block → Bool) (error : GwError) (view : View) (blocks : List Block) :
    Except GwError View :=
  match blocks with
  | [] => .error .undefined
  | block :: _ =>
      match block.blockId with
      | none => .error .undefined
      | some i =>
          match view.blockArray[i]? with
          | none => .error .undefined
          | some old =>
              if test old then .ok { view with blockArray := view.blockArray.set i block }
              else .error error

/-- One round of the switch in `catchUpManifestLogs`. -/
def replayRecord (view : View) (record : Record) : Except GwError View :=
  match record.type with
  | .activeBlock => do
      let blocks ← (record.blocks.map Block.blockId).foldlM (setBlockState .active) view.blockArray
      return { view with blockArray := blocks }
  | .inactiveBlock => do
      let blocks ← (record.blocks.map Block.blockId).foldlM (setBlockState .used) view.blockArray
      return { view with blockArray := blocks }
  | .acquireNewBlock => .ok view
  | .releaseBlock => .ok view
  | .extendBlock =>
      match record.blocks with
      | [] => .error .undefined
      | block :: _ => .ok ⟨view.blockArray ++ [block], record.eof⟩
  | .evictBlock =>
      replaceBlock (fun old => old.isLocal && old.state = .used)
        (.gopherwood
          "[ActiveStatus] The block status is not BUCKET_USED when replaying the evictBlock log")
        view record.blocks
  | .loadBlock =>
      replaceBlock (fun old => !old.isLocal)
        (.gopherwood "[ActiveStatus] The block is not remote when replaying the loadBlock log")
        view record.blocks
  | .fullStatus => .ok ⟨view.blockArray ++ record.blocks, record.eof⟩
  | .updateEof => .ok { view with eof := record.eof }

/-- The view before any record was replayed. -/
def View.empty : View := ⟨[], 0⟩

/-- Replay a sequence of records from a view. -/
def replay (view : View) (records : List Record) : Except GwError View :=
  records.foldlM replayRecord view

end Gopherwood
