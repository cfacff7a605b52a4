/-
# The whole system as a transition system

Any number of file handles and admin handles share the segment, the manifest
folder, the object store and the local space file. One step is one critical
section, one transfer on the local space file, one request to the object store,
or thread-local work next to one of these. Loader threads have steps of their
own, so every interleaving of the handles and of their loads is a sequence of
actions.
-/

import Gopherwood.Core.FileActiveStatus

namespace Gopherwood

/-- How far a loader thread has come with `loadBlock`. -/
inductive LoadPhase
  | start
  | fetched (data : List UInt8)
  | stored (size : Nat)
  | removed (size : Nat)
  | failed

/-- A queued or running `loadBlock` of a handle. -/
structure LoadTask where
  owner : Nat
  info : BlockInfo
  phase : LoadPhase

/-- The next step of an admin handle inside `evictNumOfBlocks`. -/
inductive AdminPc
  | regist
  | idle
  | mark (found : Bool) (info : Option BlockInfo)
  | evictRead (info : BlockInfo)
  | evictPut (info : BlockInfo) (buffer : List UInt8)
  | finish (found : Bool) (info : Option BlockInfo)
  | unregist
  | closed

/-- `AdminActiveStatus`. -/
structure AdminActiveStatus where
  pid : Nat
  activeId : Option Nat
  pc : AdminPc

/-- How a call of the API ended. -/
inductive Outcome
  | returned (value : Int) (data : List UInt8)
  | threw (error : GwError)
  deriving DecidableEq

/-- A finished call on a handle; `none` is the call that opened the handle. -/
structure CallRecord where
  handle : Nat
  call : Option Call
  outcome : Outcome
  deriving DecidableEq

structure World where
  shm : SharedMem
  folder : ManifestFolder
  oss : ObjectStore
  space : List UInt8
  files : List FileActiveStatus
  admins : List AdminActiveStatus
  tasks : List LoadTask
  history : List CallRecord

/-- A formatted work directory, a reset segment and an empty object store. -/
def World.init (cfg : Config) : World where
  shm := SharedMem.reset cfg
  folder := .empty
  oss := fun _ _ => none
  space := []
  files := []
  admins := []
  tasks := []
  history := []

/-! ## Streams -/

/-- Read from the local space file; a read at or past its end is short. -/
def readLocal (space : List UInt8) (offset length : Nat) : List UInt8 :=
  (space.drop offset).take length

/-- Write to the local space file. -/
def writeLocal (space : List UInt8) (offset : Nat) (data : List UInt8) : List UInt8 :=
  Library.overwrite 0 space offset data

namespace FileActiveStatus

/-- `getLocalSpaceOffset`. -/
def localSpaceOffset (cfg : Config) (bucketId : Nat) (offset : Int) : Int :=
  bucketId * cfg.localBucketSize + offset

/-- The head of the stream loops: whether the block stream must be updated
before the next transfer. `idle` means that the loop has ended. -/
def streamPc (h : FileActiveStatus) : Pc :=
  if h.stream.bytesLeft = 0 then .idle
  else if h.stream.needUpdate then .adjust
  else .transfer

/-- The end of `adjustActiveBlock`'s locked part: wait if the block is not
active. The mutex is released. -/
def leaveAdjust (h : FileActiveStatus) : FileActiveStatus :=
  { h with
    loadMutex := false
    pc := if h.isMyActiveBlock h.stream.curBlockId then .ready else .wait }

/-- Go to `extendOneBlock` or `activateBlock`, through `acquireNewBlocks` when
nothing is preallocated. -/
def enter (caller : Caller) (h : FileActiveStatus) : FileActiveStatus :=
  { h with
    pc := if h.preAllocatedBuckets = [] then .acquire caller
      else match caller with
        | .extend => .extend
        | _ => .activate caller }

/-- The pre-activation loop from `counter` on, up to the next block that has to
be activated. -/
def preActivate (numPreActivate : Nat) : Nat → Nat → FileActiveStatus → FileActiveStatus
  | 0, _, h => h.leaveAdjust
  | fuel + 1, counter, h =>
      let blockId := h.stream.curBlockId + counter
      if counter ≥ numPreActivate ∨ blockId + 1 > h.blockArray.length then h.leaveAdjust
      else if !h.isMyActiveBlock blockId && !h.isBlockLoading blockId then
        h.enter (.preActivate counter numPreActivate)
      else preActivate numPreActivate fuel (counter + 1) h

/-- The locked first part of `adjustActiveBlock`. -/
def adjustActiveBlock (cfg : Config) (h : FileActiveStatus) : FileActiveStatus :=
  let curBlockId := h.pos / cfg.localBucketSize
  let h := { h with loadMutex := true, stream := { h.stream with curBlockId := curBlockId } }
  if curBlockId + 1 > h.blockArray.length then h.enter .extend
  else
    let numPreActivate := min h.lruCache.maxSize preActivateBlockNum
    preActivate numPreActivate (numPreActivate + 1) 0 h

/-- One round of the waiting loop of `adjustActiveBlock`. -/
def waitActive (h : FileActiveStatus) : FileActiveStatus :=
  if h.isMyActiveBlock h.stream.curBlockId then { h with pc := .ready }
  else if !h.isBlockLoading h.stream.curBlockId then { h with loadMutex := true }.enter .wait
  else h

/-- Back in the caller after `acquireNewBlocks`. -/
def afterAcquire (caller : Caller) (h : FileActiveStatus) : FileActiveStatus :=
  { h with pc := match caller with
    | .extend => .extend
    | _ => .activate caller }

/-- Back in `adjustActiveBlock` after `activateBlock`. -/
def afterActivate (caller : Caller) (activated : Bool) (h : FileActiveStatus) :
    FileActiveStatus :=
  match caller with
  | .extend => h.leaveAdjust
  | .preActivate counter numPreActivate =>
      preActivate numPreActivate (numPreActivate + 1) (counter + 1) h
  | .wait => { h with loadMutex := false, pc := if activated then .ready else .wait }

/-- The loop condition of `acquireNewBlocks` and what follows the loop. -/
def afterEvictRound (caller : Caller) (loop : EvictLoop) : StatusM Unit := do
  if loop.numToAcquire > 0 ∨ loop.evicting then
    modifySelf fun h => { h with
      pc := if loop.evicting then .evictRead caller loop else .evictFinish caller loop }
  else if (← get).self.preAllocatedBuckets = [] then
    throw (.gopherwood "Did not acquire any block!")
  else
    modifySelf (afterAcquire caller)

/-- The rest of `getCurBlockInfo` and of `updateBlockStream`. -/
def getCurBlockInfo (cfg : Config) : StatusM Unit := do
  let h := (← get).self
  let cur := h.stream.curBlockId
  let block ← blockAt cur
  modifySelf fun h => { h with
    blockArray := h.blockArray.modify cur fun b =>
      { b with usageCount := wrap16 (b.usageCount + 1) }
    stream := { h.stream with
      needUpdate := false
      pos := h.pos
      blockInfo := ⟨h.fileId, block.blockId, block.bucketId,
        (h.pos % cfg.localBucketSize : Nat), 0, block.isLocal⟩ }
    pc := .transfer }

/-- `remaining` of the block streams. -/
def remaining (cfg : Config) (h : FileActiveStatus) : Int :=
  cfg.localBucketSize - h.stream.blockInfo.offset

/-- The length of the next transfer. -/
def chunk (cfg : Config) (h : FileActiveStatus) : Nat :=
  (min (h.stream.bytesLeft : Int) (h.remaining cfg)).toNat

/-- One transfer of the stream loops. The handle and the local space after it. -/
def transferChunk (cfg : Config) (h : FileActiveStatus) (space : List UInt8) :
    Except GwError (FileActiveStatus × List UInt8) :=
  let st := h.stream
  let length := h.chunk cfg
  let needUpdate : Bool := st.bytesLeft > h.remaining cfg
  match st.transfer with
  | .skip => .ok ({ h with
      stream := { st with needUpdate := needUpdate }, pc := .advance length }, space)
  | .write =>
      if st.blockInfo.isLocal then
        match st.blockInfo.bucketId with
        | none => .error .undefined
        | some b => .ok ({ h with
            stream := { st with
              needUpdate := needUpdate
              pending := st.pending.drop length
              blockInfo := { st.blockInfo with offset := st.blockInfo.offset + length } }
            pc := .advance length },
          writeLocal space (localSpaceOffset cfg b st.blockInfo.offset).toNat
          (st.pending.take length))
      else .error (.gopherwood "[OutputStream::write] write error!")
  | .read =>
      match st.blockInfo.isLocal, st.blockInfo.bucketId with
      | true, some b =>
          let data := readLocal space (localSpaceOffset cfg b st.blockInfo.offset).toNat length
          .ok ({ h with
            stream := { st with
              needUpdate := needUpdate
              received := st.received ++ data
              blockInfo := { st.blockInfo with offset := st.blockInfo.offset + data.length } }
            pc := .advance data.length }, space)
      | _, _ => .error .undefined

section Inside

variable {cfg : Config} {h : FileActiveStatus} {offset : Nat}

/-- The streams stay inside their block, where `remaining` is a length. -/
theorem remaining_eq (hoffset : h.stream.blockInfo.offset = offset)
    (hin : offset ≤ cfg.localBucketSize) :
    h.remaining cfg = (cfg.localBucketSize - offset : Nat) := by
  rw [remaining, hoffset]
  omega

theorem chunk_eq (hoffset : h.stream.blockInfo.offset = offset)
    (hin : offset ≤ cfg.localBucketSize) :
    h.chunk cfg = min h.stream.bytesLeft (cfg.localBucketSize - offset) := by
  rw [chunk, remaining_eq hoffset hin]
  omega

theorem gt_remaining_iff (hoffset : h.stream.blockInfo.offset = offset)
    (hin : offset ≤ cfg.localBucketSize) :
    (h.stream.bytesLeft : Int) > h.remaining cfg ↔
      h.stream.bytesLeft > cfg.localBucketSize - offset := by
  rw [remaining_eq hoffset hin]
  omega

end Inside

/-- Update the statistics of the stream loops and the position. -/
def advance (cfg : Config) (count : Nat) : StatusM Unit := do
  modifySelf fun h => { h with stream := { h.stream with
    bytesLeft := h.stream.bytesLeft - count, pos := h.stream.pos + count } }
  setPosition cfg (← get).self.stream.pos
  modifySelf fun h => { h with pc := h.streamPc }

end FileActiveStatus

/-! ## Steps of file handles -/

namespace World

/-- Store a handle back. -/
def setFile (w : World) (n : Nat) (h : FileActiveStatus) : World :=
  { w with files := w.files.set n h }

/-- An exception leaves a call: the thread is back at the caller of the API. The
load mutex is released by no handler. -/
def raise (w : World) (n : Nat) (h : FileActiveStatus) (call : Option Call) (e : GwError) : World :=
  { w.setFile n { h with pc := .idle } with history := w.history ++ [⟨n, call, .threw e⟩] }

/-- A call returns. -/
def finish (w : World) (n : Nat) (call : Option Call) (value : Int) (data : List UInt8) : World :=
  { w with history := w.history ++ [⟨n, call, .returned value data⟩] }

/-- Run a computation of handle `n`, then continue with its result. -/
def runFile {α : Type} (w : World) (n : Nat) (h : FileActiveStatus) (call : Option Call)
    (prog : StatusM α) (next : α → World → World) : World :=
  match prog ⟨w.shm, w.folder, w.oss, h⟩ with
  | .ok a c => next a { w.setFile n c.self with shm := c.shm, folder := c.folder, oss := c.oss }
  | .error e c =>
      { w with shm := c.shm, folder := c.folder, oss := c.oss }.raise n c.self call e

/-- Update handle `n` in place. -/
def mapFile (w : World) (n : Nat) (f : FileActiveStatus → FileActiveStatus) : World :=
  { w with files := w.files.modify n f }

/-- A stream call that has nothing left to transfer returns. -/
def settle (w : World) (n : Nat) : World :=
  match w.files[n]? with
  | some h =>
      match h.pc with
      | .idle => w.finish n (some h.stream.call) h.stream.result h.stream.received
      | _ => w
  | none => w

/-- `OssBlockWorker::writeBlock`, first half: read the victim from the local
space. -/
def evictRead (cfg : Config) (w : World) (info : BlockInfo) : Except GwError (List UInt8) :=
  match info.bucketId with
  | none => .error (.io "[OssBlockWorker] Local file space seek error!")
  | some b =>
      let data := readLocal w.space (b * cfg.localBucketSize) info.dataSize
      if data.length = info.dataSize then .ok data
      else .error (.io "[OssBlockWorker] Local file space read error!")

/-- Start the loader task of an activation. -/
def enqueue (w : World) (n : Nat) : FileActiveStatus.ActivateResult → World
  | .startLoad info => { w with tasks := w.tasks ++ [⟨n, info, .start⟩] }
  | _ => w

def isActivated : FileActiveStatus.ActivateResult → Bool
  | .activated => true
  | _ => false

/-- One step of the calling thread of handle `n`; `none` when it has nothing to
do or waits for the load mutex that an earlier exception left locked. -/
def stepFile (cfg : Config) (w : World) (n : Nat) (h : FileActiveStatus) : Option World :=
  let call := some h.stream.call
  match h.pc with
  | .openManifest =>
      let (folder, file) := w.folder.mfOpen h.fileId
      some { w.setFile n { h with fd := some ⟨file, 0⟩, pc := .regist } with folder := folder }
  | .regist => some <|
      match FileActiveStatus.registInSharedMem ⟨w.shm, w.folder, w.oss, h⟩ with
      | .ok _ c =>
          let w := { w with shm := c.shm, folder := c.folder, oss := c.oss }
          -- a delete closes the handle right after it was registered
          if h.isDelete then w.setFile n { c.self with pc := .close false }
          else (w.setFile n { c.self with pc := .idle }).finish n none 0 []
      | .error e c =>
          let w := { w with shm := c.shm, folder := c.folder, oss := c.oss }
          { w.setFile n { c.self with pc := .closed } with
            history := w.history ++ [⟨n, none, .threw e⟩] }
  | .idle => none
  | .adjust => if h.loadMutex then none else some (w.setFile n (h.adjustActiveBlock cfg))
  | .acquire caller => some <| w.runFile n h call
      (do FileActiveStatus.afterEvictRound caller (← FileActiveStatus.acquireFirst cfg))
      fun _ w => w
  | .evictRead caller loop => some <|
      match w.evictRead cfg loop.evictBlockInfo with
      | .ok buffer => w.setFile n { h with pc := .evictPut caller loop buffer }
      | .error e => w.raise n h call e
  | .evictPut caller loop buffer =>
      let info := loop.evictBlockInfo
      some { w.setFile n { h with pc := .evictFinish caller loop } with
        oss := w.oss.put info.fileId info.blockId buffer }
  | .evictFinish caller loop => some <| w.runFile n h call
      (do FileActiveStatus.afterEvictRound caller (← FileActiveStatus.acquireNext loop))
      fun _ w => w
  | .extend => some <| w.runFile n h call FileActiveStatus.extendOneBlock
      fun _ w => w.mapFile n FileActiveStatus.leaveAdjust
  | .activate caller => some <|
      let blockId := match caller with
        | .preActivate counter _ => h.stream.curBlockId + counter
        | _ => h.stream.curBlockId
      w.runFile n h call (FileActiveStatus.activateBlock cfg blockId) fun result w =>
        (w.mapFile n (FileActiveStatus.afterActivate caller (isActivated result))).enqueue n result
  | .wait => if h.loadMutex then none else some (w.setFile n h.waitActive)
  | .ready => some <| w.runFile n h call (FileActiveStatus.getCurBlockInfo cfg) fun _ w => w
  | .transfer => some <|
      match h.transferChunk cfg w.space with
      | .ok (h, space) => { w.setFile n h with space := space }
      | .error e => w.raise n h call e
  | .advance count => some <| w.runFile n h call (FileActiveStatus.advance cfg count)
      fun _ w => w.settle n
  | .flush => some <| w.runFile n h (some .flush) (FileActiveStatus.flush cfg)
      fun _ w => (w.mapFile n fun h => { h with pc := .idle }).finish n (some .flush) 0 []
  | .close isCancel => some <| w.runFile n h (some (.close isCancel))
      (FileActiveStatus.close cfg isCancel)
      fun remote w => w.mapFile n fun h => { h with pc := .deleteRemote isCancel remote }
  | .deleteRemote isCancel blocks => some <|
      match blocks with
      | [] => (w.setFile n { h with pc := .closed }).finish n (some (.close isCancel)) 0 []
      | block :: rest =>
          { w.setFile n { h with pc := .deleteRemote isCancel rest } with
            oss := w.oss.delete h.fileId block.blockId }
  | .closed => none

/-- Start a stream loop. -/
def startStream (w : World) (n : Nat) (h : FileActiveStatus) (stream : Stream) : World :=
  let h := { h with stream := stream }
  (w.setFile n { h with pc := h.streamPc }).settle n

/-- `File::seek` with the target already computed. -/
def startSeek (w : World) (n : Nat) (h : FileActiveStatus) (call : Call) (target : Int) : World :=
  if 0 ≤ target ∧ target ≤ h.eof then
    (w.setFile n { h with pos := target.toNat }).finish n (some call) target []
  else if target > h.eof then
    if h.isWrite then
      w.startStream n { h with pos := h.eof }
        ⟨call, .skip, target, [], [], (target - h.eof).toNat, true, h.eof, 0, .invalid⟩
    else
      w.raise n h (some call) (.invalidParm "[File::seek] Read only file seek position exceed EOF")
  else
    w.raise n h (some call) (.invalidParm "[File::seek] invalid seek offset")

/-- A call of the API on an idle handle. -/
def startCall (w : World) (n : Nat) (h : FileActiveStatus) (call : Call) : World :=
  match call with
  | .read length =>
      let bytesToRead := min (length : Int) (h.eof - h.pos)
      w.startStream n h
        ⟨call, .read, bytesToRead, [], [], bytesToRead.toNat, true, h.pos, 0, .invalid⟩
  | .write buffer =>
      if h.isWrite then
        w.startStream n h
          ⟨call, .write, buffer.length, buffer, [], buffer.length, true, h.pos, 0, .invalid⟩
      else w.raise n h (some call) .undefined
  | .seekSet pos => w.startSeek n h call pos
  | .seekCur pos => w.startSeek n h call (h.pos + pos)
  | .seekEnd pos => w.startSeek n h call (h.eof + pos)
  | .flush =>
      if h.isWrite then w.setFile n { h with pc := .flush }
      else w.raise n h (some call) (.invalidParm "[File] Can not flush a read only file.")
  | .close isCancel => w.setFile n { h with pc := .close isCancel }

/-- `FileSystem::makeFileId` on the hash of a path. -/
def makeFileId (hashcode : Nat) : FileId := ⟨hashcode, 0⟩

/-- The constructor of `FileActiveStatus` up to the opening of the manifest. -/
def openFile (cfg : Config) (w : World) (fileId : FileId) (isCreate isSequence : Bool)
    (type : ActiveStatusType) (pid : Nat) : World :=
  let n := w.files.length
  let quotaSize := if isSequence then min cfg.curQuotaSize preAllocateBucketNum
    else cfg.curQuotaSize
  let exists_ := isCreate || w.folder.isLinked fileId
  let h : FileActiveStatus :=
    { client := .file n, fileId, pid, activeId := none
      isWrite := type = .writeFile, isDelete := type = .deleteFile, isSequence
      shouldDestroy := false, pos := 0, eof := 0
      blockArray := [], preAllocatedBuckets := [], loadingBuckets := []
      lruCache := .empty quotaSize, fd := none, readEntries := [], loadMutex := false
      pc := if exists_ then .openManifest else .closed
      stream := .none }
  let w := { w with files := w.files ++ [h] }
  if exists_ then w
  else { w with history := w.history ++
    [⟨n, none, .threw (.invalidParm "[ActiveStatus::ActiveStatus] File does not exist")⟩] }

/-! ## Loader threads and admin handles -/

def setTask (w : World) (i : Nat) (task : LoadTask) : World :=
  { w with tasks := w.tasks.set i task }

/-- The end of a load in the handle that started it. The mutex is free again
unless the handle throws. The source holds only this mutex and not the lock of the
segment here, so it could also fall inside a critical section of another handle; in the
model it is one step, before or after the section. -/
def finishLoad (w : World) (i : Nat) (owner : Nat) (h : FileActiveStatus)
    (prog : StatusM Unit) : World :=
  let w := { w with tasks := w.tasks.eraseIdx i }
  match prog ⟨w.shm, w.folder, w.oss, h⟩ with
  | .ok _ c => { w.setFile owner c.self with shm := c.shm, folder := c.folder, oss := c.oss }
  | .error _ c =>
      { w.setFile owner { c.self with loadMutex := true } with
        shm := c.shm, folder := c.folder, oss := c.oss }

/-- One step of the loader thread of a task: fetch the object, write it into the
bucket, delete the object, and report to the handle. -/
def stepLoad (cfg : Config) (w : World) (i : Nat) (task : LoadTask) : Option World :=
  let info := task.info
  match task.phase with
  | .start => some <|
      match w.oss info.fileId info.blockId with
      | some data => w.setTask i { task with phase := .fetched data }
      | none => w.setTask i { task with phase := .failed }
  | .fetched data =>
      match info.bucketId with
      | none => some (w.setTask i { task with phase := .failed })
      | some b => some
          { w.setTask i { task with phase := .stored data.length } with
            space := writeLocal w.space (b * cfg.localBucketSize) data }
  | .stored size => some
      { w.setTask i { task with phase := .removed size } with
        oss := w.oss.delete info.fileId info.blockId }
  | .removed size =>
      match w.files[task.owner]? with
      | none => none
      | some h => if h.loadMutex then none
          else some (w.finishLoad i task.owner h (FileActiveStatus.loadSucceeded cfg info size))
  | .failed =>
      match w.files[task.owner]? with
      | none => none
      | some h => if h.loadMutex then none
          else some (w.finishLoad i task.owner h (FileActiveStatus.loadFailed info))

/-- A request of a loader thread to the object store fails. -/
def failLoad (w : World) (i : Nat) (task : LoadTask) : Option World :=
  match task.phase with
  | .start => some (w.setTask i { task with phase := .failed })
  | .stored _ => some (w.setTask i { task with phase := .failed })
  | _ => none

def setAdmin (w : World) (n : Nat) (a : AdminActiveStatus) : World :=
  { w with admins := w.admins.set n a }

/-- `AdminActiveStatus::logEvictBlock`. -/
def adminLogEvict (w : World) (n : Nat) (info : BlockInfo) : World :=
  match w.folder.links info.fileId with
  | none => w
  | some file =>
      let fd : Descriptor := ⟨file, (w.folder.content file).length⟩
      let block : Block := ⟨none, info.blockId, false, .free, 0⟩
      { w with folder := (w.folder.mfWrite fd ⟨.admin n, ⟨.evictBlock, 0, [block]⟩⟩).1 }

/-- The second critical section of a round of `evictNumOfBlocks`. It runs also
when no bucket was found in this round. -/
def adminFinish (w : World) (n : Nat) (a : AdminActiveStatus) (activeId : Nat) (found : Bool)
    (info : Option BlockInfo) : World :=
  let back := w.setAdmin n { a with pc := .idle }
  match SharedMemoryContext.evictBucketFinishAndTryFree (info.bind BlockInfo.bucketId) activeId
      w.shm with
  | .error _ shm => { back with shm := shm }
  | .ok rc shm =>
      let next := { w.setAdmin n { a with pc := .mark found info } with shm := shm }
      match info with
      | none => next
      | some info =>
          if rc = .finished then
            if w.folder.isLinked info.fileId then next.adminLogEvict n info
            else { back with shm := shm }
          else { next with oss := w.oss.delete info.fileId info.blockId }

/-- One step of an admin handle. The number of blocks left to evict is never
decremented, so the loop of `evictNumOfBlocks` has no exit but an exception. -/
def stepAdmin (cfg : Config) (w : World) (n : Nat) (a : AdminActiveStatus) : Option World :=
  match a.pc, a.activeId with
  | .regist, _ => some <|
      match SharedMemoryContext.registAdmin a.pid w.shm with
      | .ok (some activeId) shm =>
          { w.setAdmin n { a with activeId := some activeId, pc := .idle } with shm := shm }
      | .ok none shm => { w.setAdmin n { a with pc := .closed } with shm := shm }
      | .error _ shm => { w.setAdmin n { a with pc := .closed } with shm := shm }
  | .mark found info, some activeId => some <|
      -- `getUsedBucketNum` returns the counter as an `int32_t`
      if 0 < w.shm.header.numUsedBuckets ∧ w.shm.header.numUsedBuckets < 2 ^ 31 then
        match SharedMemoryContext.markBucketEvicting activeId w.shm with
        | .ok info shm => { w.setAdmin n { a with pc := .evictRead info } with shm := shm }
        | .error _ shm => { w.setAdmin n { a with pc := .idle } with shm := shm }
      else
        match found, info with
        | true, some info => w.setAdmin n { a with pc := .evictRead info }
        | _, _ => w.setAdmin n { a with pc := .finish found info }
  | .evictRead info, _ => some <|
      match w.evictRead cfg info with
      | .ok buffer => w.setAdmin n { a with pc := .evictPut info buffer }
      | .error _ => w.setAdmin n { a with pc := .idle }
  | .evictPut info buffer, _ => some
      { w.setAdmin n { a with pc := .finish true (some info) } with
        oss := w.oss.put info.fileId info.blockId buffer }
  | .finish found info, some activeId => some (w.adminFinish n a activeId found info)
  | .unregist, some activeId => some <|
      match SharedMemoryContext.unregistAdmin activeId a.pid w.shm with
      | .ok true shm =>
          { w.setAdmin n { a with activeId := none, pc := .closed } with shm := shm }
      | .ok false shm => { w.setAdmin n { a with pc := .idle } with shm := shm }
      | .error _ shm => { w.setAdmin n { a with pc := .idle } with shm := shm }
  | _, _ => none

inductive Action
  /-- Open, create or delete a file; the new handle gets the next index. -/
  | openFile (hashcode : Nat) (isCreate isSequence : Bool) (type : ActiveStatusType) (pid : Nat)
  /-- Call the API on an idle handle. -/
  | call (handle : Nat) (call : Call)
  /-- The next step of a handle's calling thread. -/
  | file (handle : Nat)
  /-- The upload of a handle's victim fails. -/
  | failUpload (handle : Nat)
  /-- The next step of a loader thread. -/
  | load (task : Nat)
  /-- The object store fails a loader thread. -/
  | failLoad (task : Nat)
  /-- Construct an admin handle. -/
  | openAdmin (pid : Nat)
  /-- `evictNumOfBlocks` on an idle admin handle. -/
  | evictBlocks (admin : Nat)
  /-- The destructor of an admin handle. -/
  | closeAdmin (admin : Nat)
  /-- The next step of an admin handle. -/
  | admin (admin : Nat)
  /-- The upload of an admin handle's victim fails. -/
  | failAdminUpload (admin : Nat)

def uploadError : GwError := .io "OssBlockWorker ossPutObject failed!"

/-- The transition function; `none` when the action is not enabled. -/
def step (cfg : Config) (w : World) : Action → Option World
  | .openFile hashcode isCreate isSequence type pid =>
      some (w.openFile cfg (makeFileId hashcode) isCreate isSequence type pid)
  | .call n call =>
      match w.files[n]? with
      | some h =>
          match h.pc, h.activeId with
          | .idle, some _ => some (w.startCall n h call)
          | _, _ => none
      | none => none
  | .file n =>
      match w.files[n]? with
      | some h => w.stepFile cfg n h
      | none => none
  | .failUpload n =>
      match w.files[n]? with
      | some h =>
          match h.pc with
          | .evictPut _ _ _ => some (w.raise n h (some h.stream.call) uploadError)
          | _ => none
      | none => none
  | .load i =>
      match w.tasks[i]? with
      | some task => w.stepLoad cfg i task
      | none => none
  | .failLoad i =>
      match w.tasks[i]? with
      | some task => w.failLoad i task
      | none => none
  | .openAdmin pid => some { w with admins := w.admins ++ [⟨pid, none, .regist⟩] }
  | .evictBlocks n =>
      match w.admins[n]? with
      | some a =>
          match a.pc with
          | .idle => some (w.setAdmin n { a with pc := .mark false none })
          | _ => none
      | none => none
  | .closeAdmin n =>
      match w.admins[n]? with
      | some a =>
          match a.pc with
          | .idle => some (w.setAdmin n { a with pc := .unregist })
          | _ => none
      | none => none
  | .admin n =>
      match w.admins[n]? with
      | some a => w.stepAdmin cfg n a
      | none => none
  | .failAdminUpload n =>
      match w.admins[n]? with
      | some a =>
          match a.pc with
          | .evictPut _ _ => some (w.setAdmin n { a with pc := .idle })
          | _ => none
      | none => none

end World

end Gopherwood
