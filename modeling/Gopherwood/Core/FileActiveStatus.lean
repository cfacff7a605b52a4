/-
# File handles

The state of one `FileActiveStatus` and the bodies of its critical sections.
A body runs with the shared memory lock held: it replays the records other
handles appended to the manifest, works on the segment, and appends records of
its own. Work between two critical sections is a step of the handle's thread,
which `Pc` names; the steps are put together in `Gopherwood.File.System`.
-/

import Gopherwood.Common.LRUCache
import Gopherwood.Core.Manifest
import Gopherwood.Core.SharedMemoryContext
import Gopherwood.Library.Computation

namespace Gopherwood

/-- Local variables of `acquireNewBlocks` that live across its critical
sections. -/
structure EvictLoop where
  numToAcquire : Nat
  evicting : Bool
  evictBlockInfo : BlockInfo
  deriving DecidableEq

/-- Where `acquireNewBlocks` and `activateBlock` were called from. -/
inductive Caller
  /-- `extendOneBlock`. -/
  | extend
  /-- The pre-activation loop of `adjustActiveBlock`. -/
  | preActivate (counter numPreActivate : Nat)
  /-- The waiting loop of `adjustActiveBlock`. -/
  | wait
  deriving DecidableEq

/-- The next step of a handle's calling thread. -/
inductive Pc
  | openManifest
  | regist
  | idle
  | adjust
  | acquire (caller : Caller)
  | evictRead (caller : Caller) (loop : EvictLoop)
  | evictPut (caller : Caller) (loop : EvictLoop) (buffer : List UInt8)
  | evictFinish (caller : Caller) (loop : EvictLoop)
  | extend
  | activate (caller : Caller)
  | wait
  | ready
  | transfer
  | advance (count : Nat)
  | flush
  | close (isCancel : Bool)
  | deleteRemote (isCancel : Bool) (blocks : List Block)
  | closed
  deriving DecidableEq

/-- The calls of the API on an open file. -/
inductive Call
  | read (length : Nat)
  | write (buffer : List UInt8)
  | seekSet (pos : Int)
  | seekCur (pos : Int)
  | seekEnd (pos : Int)
  | flush
  | close (isCancel : Bool)
  deriving DecidableEq

/-- Which stream loop is running; `skip` is `OutputStream::write` with `isSeek`. -/
inductive Transfer
  | read
  | write
  | skip
  deriving DecidableEq

/-- The variables of `OutputStream::write` and `InputStream::read` while a call
is running. `pending` is the part of the caller's buffer not yet written and
`received` what was read so far. -/
structure Stream where
  call : Call
  transfer : Transfer
  result : Int
  pending : List UInt8
  received : List UInt8
  bytesLeft : Nat
  needUpdate : Bool
  pos : Nat
  curBlockId : Nat
  blockInfo : BlockInfo

def Stream.none : Stream := ⟨.flush, .read, 0, [], [], 0, true, 0, 0, .invalid⟩

/-- `enum ActiveStatusType`. -/
inductive ActiveStatusType
  | writeFile
  | readFile
  | deleteFile
  deriving DecidableEq

/-- `FileActiveStatus`, with the thread that uses it. `readEntries` records the
log entries the handle has fetched, and `freedReads` counts its reads of freed
list nodes. -/
structure FileActiveStatus where
  client : Client
  fileId : FileId
  pid : Nat
  activeId : Option Nat
  isWrite : Bool
  isDelete : Bool
  isSequence : Bool
  shouldDestroy : Bool
  pos : Nat
  eof : Nat
  blockArray : List Block
  preAllocatedBuckets : List Block
  loadingBuckets : List Block
  lruCache : LRUCache Nat (Option Nat)
  fd : Option Descriptor
  readEntries : List LogEntry
  loadMutex : Bool
  pc : Pc
  stream : Stream
  freedReads : Nat := 0

/-- The object store, keyed by file and block. -/
abbrev ObjectStore := FileId → Option Nat → Option (List UInt8)

namespace ObjectStore

def put (oss : ObjectStore) (fileId : FileId) (blockId : Option Nat) (data : List UInt8) :
    ObjectStore :=
  fun f i => if f = fileId ∧ i = blockId then some data else oss f i

def delete (oss : ObjectStore) (fileId : FileId) (blockId : Option Nat) : ObjectStore :=
  fun f i => if f = fileId ∧ i = blockId then none else oss f i

end ObjectStore

/-- What a critical section of a handle works on. -/
structure Ctx where
  shm : SharedMem
  folder : ManifestFolder
  oss : ObjectStore
  self : FileActiveStatus

abbrev StatusM := EStateM GwError Ctx

namespace FileActiveStatus

/-- Run an operation on the segment. -/
def onShm {α : Type} (op : ShmM α) : StatusM α :=
  Library.zoom Ctx.shm (fun shm c => { c with shm := shm }) op

def modifySelf (f : FileActiveStatus → FileActiveStatus) : StatusM Unit :=
  modify fun c => { c with self := f c.self }

/-- `mActiveId` as an index. -/
def myActiveId : StatusM Nat := do
  match (← get).self.activeId with
  | some a => pure a
  | none => throw .undefined

/-- `mBlockArray[blockId]`. -/
def blockAt (blockId : Nat) : StatusM Block := do
  match (← get).self.blockArray[blockId]? with
  | some block => pure block
  | none => throw .undefined

def view (h : FileActiveStatus) : View := ⟨h.blockArray, h.eof⟩

/-- `getNumAcquiredBuckets`. -/
def numAcquiredBuckets (h : FileActiveStatus) : Nat :=
  h.lruCache.size + h.preAllocatedBuckets.length + h.loadingBuckets.length

/-- `isMyActiveBlock`. -/
def isMyActiveBlock (h : FileActiveStatus) (blockId : Nat) : Bool := h.lruCache.contains blockId

/-- `isBlockLoading`. -/
def isBlockLoading (h : FileActiveStatus) (blockId : Nat) : Bool :=
  h.loadingBuckets.any fun block => block.blockId = some blockId

/-- Append one record at the offset of the handle's own descriptor. -/
def logRecord (type : RecordType) (eof : Nat) (blocks : List Block) : StatusM Unit := do
  let c ← get
  match c.self.fd with
  | none => throw (.io "[Manifest::mfWrite] write failed")
  | some fd =>
      let record : Record := ⟨type, eof, blocks.map fun b => { b with usageCount := 0 }⟩
      let (folder, fd) := c.folder.mfWrite fd ⟨c.self.client, record⟩
      set { c with folder := folder, self := { c.self with fd := some fd } }

def logAcquireNewBlock (blocks : List Block) : StatusM Unit := logRecord .acquireNewBlock 0 blocks
def logExtendBlock (blocks : List Block) (eof : Nat) : StatusM Unit :=
  logRecord .extendBlock eof blocks
def logUpdateEof (eof : Nat) : StatusM Unit := logRecord .updateEof eof []
def logReleaseBucket (blocks : List Block) : StatusM Unit := logRecord .releaseBlock 0 blocks
def logInactivateBucket (blocks : List Block) : StatusM Unit := logRecord .inactiveBlock 0 blocks
def logActivateBucket (block : Block) : StatusM Unit := logRecord .activeBlock 0 [block]
def logEvcitBlock (block : Block) : StatusM Unit := logRecord .evictBlock 0 [block]
def logLoadBlock (block : Block) : StatusM Unit := logRecord .loadBlock 0 [block]

/-- `Manifest::logFullStatus` truncates the log first. -/
def logFullStatus (blocks : List Block) (eof : Nat) : StatusM Unit := do
  let c ← get
  match c.self.fd with
  | none => throw (.io "[Manifest::mfWrite] write failed")
  | some fd =>
      let (folder, fd) := c.folder.mfTruncate fd
      set { c with folder := folder, self := { c.self with fd := some fd } }
      logRecord .fullStatus eof blocks

/-- The loop of `catchUpManifestLogs`. -/
def catchUpManifestLogs.loop : Nat → StatusM Unit
  | 0 => pure ()
  | fuel + 1 => do
      let c ← get
      match c.self.fd with
      | none => throw (.gopherwood "[Manifest::fetchOneLogRecord] read log error")
      | some fd =>
          let (fetched, fd) := fetchOneLogRecord (c.folder.content fd.file) fd
          modifySelf fun h => { h with fd := some fd }
          match fetched with
          | .error e => throw e
          | .ok none => pure ()
          | .ok (some entry) =>
              modifySelf fun h => { h with readEntries := h.readEntries ++ [entry] }
              match replayRecord c.self.view entry.record with
              | .error e => throw e
              | .ok v =>
                  modifySelf fun h => { h with blockArray := v.blockArray, eof := v.eof }
                  catchUpManifestLogs.loop fuel

/-- `catchUpManifestLogs`. Every record takes up bytes, so the length of the
log bounds the number of rounds. -/
def catchUpManifestLogs : StatusM Unit := do
  let c ← get
  match c.self.fd with
  | none => throw (.gopherwood "[Manifest::fetchOneLogRecord] read log error")
  | some fd => catchUpManifestLogs.loop ((c.folder.content fd.file).length + 1)

/-- `getSharedMemEof`. -/
def getSharedMemEof (cfg : Config) : StatusM Unit := do
  let c ← get
  let numBlocks := c.self.blockArray.length
  let last ← blockAt (numBlocks - 1)
  let lastDataSize ← onShm
    (SharedMemoryContext.getBucketDataSize cfg last.bucketId c.self.fileId (numBlocks - 1))
  let shareMemEof := (numBlocks - 1) * cfg.localBucketSize + lastDataSize
  if shareMemEof > c.self.eof then
    modifySelf fun h => { h with eof := shareMemEof }

/-- Publish the end of file kept in shared memory. -/
def flushEof (cfg : Config) : StatusM Unit := do
  getSharedMemEof cfg
  logUpdateEof (← get).self.eof

/-- The loop that follows every `inactivateBuckets`: cache the new state of each
block, and publish the end of file when the last block was inactivated. -/
def updateInactivated (cfg : Config) : List Block → StatusM Unit
  | [] => pure ()
  | b :: rest => do
      match b.blockId with
      | none => throw .undefined
      | some i =>
          let _ ← blockAt i
          modifySelf fun h => { h with
            blockArray := h.blockArray.modify i fun old => { old with state := b.state } }
          if i + 1 = (← get).self.blockArray.length then
            flushEof cfg
          updateInactivated cfg rest

/-- The blocks of a list of keys. -/
def blocksOf : List Nat → StatusM (List Block)
  | [] => pure []
  | key :: rest => do
      let block ← blockAt key
      return block :: (← blocksOf rest)

/-- Take the `num` oldest keys out of the cache. -/
def removeNumOfKeys (num : Nat) : StatusM (List Nat) := do
  let (cache, keys) := (← get).self.lruCache.removeNumOfKeys num
  modifySelf fun h => { h with lruCache := cache }
  return keys

/-- Inactivate the `num` oldest blocks of the cache and log those that turned
used. -/
def inactivateOldest (cfg : Config) (num : Nat) : StatusM Unit := do
  let keys ← removeNumOfKeys num
  let blocks ← blocksOf keys
  let h := (← get).self
  let turned ← onShm (SharedMemoryContext.inactivateBuckets h.fileId (← myActiveId) blocks)
  updateInactivated cfg turned
  logInactivateBucket turned

/-! ## acquireNewBlocks -/

def allLoading : GwError :=
  .notImpl "All buckets are used for loading remote blocks, case 1!"

/-- Step 1 of `acquireNewBlocks`: how many blocks to inactivate and how many
buckets to acquire. -/
def acquirePolicy (newQuota numAcquired numFree numUsed lruSize : Nat) :
    Except GwError (Nat × Nat) :=
  let numAvailable := (numFree + numUsed) % 2 ^ 32
  if numAcquired < newQuota then
    if numAvailable > 0 then
      let numToAcquire := min numAvailable (min (newQuota - numAcquired) preAllocateBucketNum)
      .ok (numAcquired + numToAcquire - newQuota, numToAcquire)
    else if lruSize = 0 then .error allLoading
    else .ok (1, 1)
  else if numAcquired = newQuota then
    if lruSize = 0 then .error allLoading
    else if numFree > 0 then
      let numToAcquire := min (min numFree (min newQuota preAllocateBucketNum)) lruSize
      .ok (numToAcquire, numToAcquire)
    else .ok (1, 1)
  else if numAcquired - newQuota + 1 > lruSize then .error allLoading
  else .ok (numAcquired - newQuota + 1, 1)

/-- The block under which a preallocated bucket is kept. -/
def newBlock (bucketId : Option Nat) : Block := ⟨bucketId, none, true, .active, 0⟩

/-- Acquire free buckets into the preallocated list. -/
def acquireFree (num : Nat) : StatusM (List Block) := do
  let h := (← get).self
  let ids ← onShm (SharedMemoryContext.acquireFreeBucket (← myActiveId) num h.fileId h.isWrite)
  let blocks := ids.map fun id => newBlock (some id)
  modifySelf fun h => { h with preAllocatedBuckets := h.preAllocatedBuckets ++ blocks }
  return blocks

/-- Start an eviction when buckets are still missing. -/
def startEvict (loop : EvictLoop) : StatusM EvictLoop := do
  if loop.numToAcquire > 0 then
    let info ← onShm (SharedMemoryContext.markBucketEvicting (← myActiveId))
    return { loop with evicting := true, evictBlockInfo := info }
  else
    return loop

/-- Set the quota after blocks were inactivated; the cache must fit it. -/
def adjustSize (newQuota : Nat) : StatusM Unit := do
  let (cache, overflow) := (← get).self.lruCache.adjustSize newQuota
  modifySelf fun h => { h with lruCache := cache }
  if overflow ≠ [] then
    throw (.internal "We should have inactivated these blocks!")

/-- The first critical section of `acquireNewBlocks`. -/
def acquireFirst (cfg : Config) : StatusM EvictLoop := do
  catchUpManifestLogs
  let c ← get
  let newQuota :=
    if c.self.isSequence then min cfg.curQuotaSize preAllocateBucketNum else cfg.curQuotaSize
  let numFreeBuckets := c.shm.header.numFreeBuckets
  match acquirePolicy newQuota c.self.numAcquiredBuckets numFreeBuckets
      c.shm.header.numUsedBuckets c.self.lruCache.size with
  | .error e => throw e
  | .ok (numToInactivate, numToAcquire) =>
      if numToInactivate > 0 then
        inactivateOldest cfg numToInactivate
      adjustSize newQuota
      let numAcqurieFree := min numToAcquire numFreeBuckets
      let blocks ← acquireFree numAcqurieFree
      logAcquireNewBlock blocks
      startEvict ⟨numToAcquire - numAcqurieFree, false, .invalid⟩

/-- `logEvictBlock`: tell the evicted file, through the handle's own descriptor
or a second one positioned at the end. -/
def logEvictBlock (info : BlockInfo) : StatusM Unit := do
  let c ← get
  let block : Block := ⟨none, info.blockId, false, .free, 0⟩
  if c.self.fileId = info.fileId then
    logEvcitBlock block
    match info.blockId with
    | none => throw .undefined
    | some i =>
        let _ ← blockAt i
        modifySelf fun h => { h with blockArray := h.blockArray.set i block }
  else
    match c.folder.links info.fileId with
    | none => throw (.invalidParm "[ActiveStatus::ActiveStatus] File does not exist")
    | some file =>
        let fd : Descriptor := ⟨file, (c.folder.content file).length⟩
        let (folder, _) := c.folder.mfWrite fd ⟨c.self.client, ⟨.evictBlock, 0, [block]⟩⟩
        set { c with folder := folder }

/-- Finish the eviction of the previous round; the buckets gained. -/
def finishEvict (loop : EvictLoop) : StatusM (EvictLoop × List Block) := do
  let h := (← get).self
  let info := loop.evictBlockInfo
  let rc ← onShm (SharedMemoryContext.evictBucketFinishAndTryAcquire info.bucketId
    (← myActiveId) h.fileId h.isWrite)
  match rc with
  | .stolen =>
      -- `evicting` stays set: only a further `markBucketEvicting` replaces the victim
      modify fun c => { c with oss := c.oss.delete info.fileId info.blockId }
      return (loop, [])
  | _ =>
      let gained := newBlock info.bucketId
      modifySelf fun h => { h with preAllocatedBuckets := h.preAllocatedBuckets ++ [gained] }
      if rc = .finished then
        logEvictBlock info
      else
        modify fun c => { c with oss := c.oss.delete info.fileId info.blockId }
      return ({ loop with evicting := false, numToAcquire := dec32 loop.numToAcquire }, [gained])

/-- The critical section of the loop of `acquireNewBlocks`. -/
def acquireNext (loop : EvictLoop) : StatusM EvictLoop := do
  catchUpManifestLogs
  let (loop, gained) ← if loop.evicting then finishEvict loop else pure (loop, [])
  let numAcqurieFree := min loop.numToAcquire (← get).shm.header.numFreeBuckets
  let blocks ← if numAcqurieFree > 0 then acquireFree numAcqurieFree else pure []
  logAcquireNewBlock (gained ++ blocks)
  startEvict { loop with numToAcquire := loop.numToAcquire - numAcqurieFree }

/-! ## extendOneBlock, activateBlock and loadBlock -/

/-- `put` on the cache; the keys it drops are not looked at. -/
def putActive (blockId : Option Nat) (bucketId : Option Nat) : StatusM Unit := do
  match blockId with
  | none => throw .undefined
  | some i => modifySelf fun h => { h with lruCache := (h.lruCache.put i bucketId).1 }

/-- `extendOneBlock` once a bucket is preallocated. The number of the new block
is taken before the log is replayed. -/
def extendOneBlock : StatusM Unit := do
  let h := (← get).self
  match h.preAllocatedBuckets with
  | [] => throw .undefined
  | front :: rest =>
      let b := { front with blockId := some h.blockArray.length }
      modifySelf fun h => { h with
        preAllocatedBuckets := rest, blockArray := h.blockArray ++ [b] }
      putActive b.blockId b.bucketId
      catchUpManifestLogs
      onShm (SharedMemoryContext.updateActiveFileInfo b h.fileId)
      logExtendBlock [b] (← get).self.eof

/-- Make room in the quota before a local block is activated. -/
def makeRoom (cfg : Config) : StatusM Unit := do
  let h := (← get).self
  if h.numAcquiredBuckets = h.lruCache.maxSize then
    if h.lruCache.size > 0 then
      inactivateOldest cfg 1
    else
      match h.preAllocatedBuckets.getLast? with
      | none => throw (.internal "[ActiveStatus] PreAllocatedBuckets should not be 0!")
      | some block =>
          modifySelf fun h => { h with preAllocatedBuckets := h.preAllocatedBuckets.dropLast }
          onShm (SharedMemoryContext.releaseBuckets [block])
          logReleaseBucket [block]
  else if h.numAcquiredBuckets > h.lruCache.maxSize then
    throw (.internal "[ActiveStatus] Current quoto exceed max quota size!")

/-- The answers of `activateBlock`. -/
inductive ActivateResult
  /-- `1`: activated. -/
  | activated
  /-- `2`: loading by others. -/
  | loadingByOthers
  /-- A load was started. -/
  | startLoad (info : BlockInfo)

/-- The remote branch of `activateBlock`. `pop_front` frees the list node of the
preallocated block; the block number is written into the node all the same, and
the bucket number for the loader and the block put into the loading list are read
from it once the shared memory lock is released. -/
def startLoading (cfg : Config) (blockId : Nat) : StatusM ActivateResult := do
  let h := (← get).self
  match h.preAllocatedBuckets with
  | [] => throw .undefined
  | front :: rest =>
      let bucketId ← onShm (SharedMemoryContext.inRange front.bucketId)
      let marked ← onShm (SharedMemoryContext.markBucketLoading bucketId blockId
        (← myActiveId) h.fileId)
      if marked then
        let written := { front with blockId := some blockId }
        let named := cfg.freed h.client h.freedReads written
        let copied := cfg.freed h.client (h.freedReads + 1) written
        modifySelf fun h => { h with
          preAllocatedBuckets := rest
          loadingBuckets := h.loadingBuckets ++ [copied]
          freedReads := h.freedReads + 2 }
        return .startLoad ⟨h.fileId, some blockId, named.bucketId, invalidBlockOffset, 0, false⟩
      else
        return .loadingByOthers

/-- The local branch of `activateBlock`. -/
def activateLocal (cfg : Config) (blockId : Nat) : StatusM ActivateResult := do
  makeRoom cfg
  let h := (← get).self
  let block ← blockAt blockId
  let byMe ← onShm (SharedMemoryContext.activateBucket h.fileId block (← myActiveId) h.isWrite)
  if byMe then
    logActivateBucket block
  putActive block.blockId block.bucketId
  return .activated

/-- `activateBlock` once a bucket is preallocated. -/
def activateBlock (cfg : Config) (blockId : Nat) : StatusM ActivateResult := do
  catchUpManifestLogs
  let block ← blockAt blockId
  if !block.isLocal then
    startLoading cfg blockId
  else if block.state = .used ∨ block.state = .active then
    activateLocal cfg blockId
  else
    throw (.internal "[ActiveStatus] block active status mismatch!")

/-- The loops of `loadBlock` over the loading blocks. `found` takes the block out of
the list, so the loop passes over the one that moves up to its place. -/
def eachLoading (blockId : Option Nat) (found : Nat → Block → StatusM Unit) :
    Nat → Nat → StatusM Unit
  | 0, _ => pure ()
  | fuel + 1, i => do
      match (← get).self.loadingBuckets[i]? with
      | none => pure ()
      | some theBlock =>
          if theBlock.blockId = blockId then
            found i theBlock
          eachLoading blockId found fuel (i + 1)

/-- What every round keeps is kept by the loop. -/
theorem eachLoading_spec {P : Ctx → Prop} {E : GwError → Ctx → Prop} {blockId : Option Nat}
    {found : Nat → Block → StatusM Unit}
    (hfound : ∀ i theBlock, Library.Spec (fun c => P c ∧ c.self.loadingBuckets[i]? = some theBlock)
      (found i theBlock) (fun _ => P) E)
    (fuel i : Nat) : Library.Spec P (eachLoading blockId found fuel i) (fun _ => P) E := by
  induction fuel generalizing i with
  | zero => exact Library.Spec.pure fun _ => id
  | succ fuel ih =>
      refine Library.Spec.get_bind fun c hc => ?_
      cases hat : c.self.loadingBuckets[i]? with
      | none => exact Library.Spec.pure fun c' hc' => hc' ▸ hc
      | some theBlock =>
          dsimp only
          split
          · exact Library.Spec.bind ((hfound i theBlock).weaken_pre fun c' hc' =>
              hc' ▸ ⟨hc, hat⟩) fun _ => ih (i + 1)
          · exact (ih (i + 1)).weaken_pre fun c' hc' => hc' ▸ hc

theorem eachLoading_keeps {P : Ctx → Prop} {blockId : Option Nat}
    {found : Nat → Block → StatusM Unit} (hfound : ∀ i theBlock, Library.Keeps P (found i theBlock))
    (fuel i : Nat) : Library.Keeps P (eachLoading blockId found fuel i) :=
  eachLoading_spec (fun i theBlock => (hfound i theBlock).weaken_pre fun _ hc => hc.1) fuel i

/-- A block of the loading list that was read back. -/
def finishLoading (cfg : Config) (info : BlockInfo) (blockSize i : Nat) (theBlock : Block) :
    StatusM Unit := do
  let h := (← get).self
  let a ← myActiveId
  let bucketId ← onShm (SharedMemoryContext.inRange info.bucketId)
  onShm (SharedMemoryContext.markLoadFinish bucketId a)
  onShm (SharedMemoryContext.updateBucketDataSize cfg info.bucketId blockSize h.fileId a)
  modifySelf fun h => { h with loadingBuckets := h.loadingBuckets.eraseIdx i }
  putActive theBlock.blockId theBlock.bucketId
  match theBlock.blockId with
  | none => throw .undefined
  | some j =>
      let _ ← blockAt j
      modifySelf fun h => { h with blockArray := h.blockArray.set j theBlock }
  logLoadBlock theBlock

/-- The end of `loadBlock` after the block was read back. The shared memory lock
is not taken and the log is not replayed here. -/
def loadSucceeded (cfg : Config) (info : BlockInfo) (blockSize : Nat) : StatusM Unit := do
  eachLoading info.blockId (finishLoading cfg info blockSize) (← get).self.loadingBuckets.length 0

/-- A block of the loading list that was not read back: its bucket goes back to the
preallocated list. -/
def abandonLoading (info : BlockInfo) (i : Nat) (theBlock : Block) : StatusM Unit := do
  let a ← myActiveId
  let bucketId ← onShm (SharedMemoryContext.inRange info.bucketId)
  onShm (SharedMemoryContext.markLoadFinish bucketId a)
  modifySelf fun h => { h with
    loadingBuckets := h.loadingBuckets.eraseIdx i
    preAllocatedBuckets := { theBlock with blockId := none } :: h.preAllocatedBuckets }

/-- The end of `loadBlock` after an exception. -/
def loadFailed (info : BlockInfo) : StatusM Unit := do
  eachLoading info.blockId (abandonLoading info) (← get).self.loadingBuckets.length 0

/-! ## Positions, flush and close -/

def unexpectedEof : GwError :=
  .internal "[ActiveStatus::updateCurBlockSize] Unexpected File Eof"

/-- `updateCurBlockSize`. -/
def updateCurBlockSize (cfg : Config) : StatusM Unit := do
  let eofBeforeCatchUp := (← get).self.eof
  catchUpManifestLogs
  let h := (← get).self
  if eofBeforeCatchUp = h.eof then
    let numBlocks := h.blockArray.length
    let last ← blockAt (numBlocks - 1)
    let blockDataSize : Int := h.eof - ((numBlocks - 1 : Nat) * cfg.localBucketSize : Nat)
    onShm (SharedMemoryContext.updateBucketDataSize cfg last.bucketId blockDataSize h.fileId
      (← myActiveId))
  else if eofBeforeCatchUp > h.eof then
    throw unexpectedEof

/-- `setPosition`. -/
def setPosition (cfg : Config) (pos : Nat) : StatusM Unit := do
  modifySelf fun h => { h with pos := pos }
  if pos > (← get).self.eof then
    modifySelf fun h => { h with eof := pos }
    updateCurBlockSize cfg

/-- `FileActiveStatus::flush`. -/
def flush (cfg : Config) : StatusM Unit := do
  let eofBeforeCatchUp := (← get).self.eof
  catchUpManifestLogs
  let h := (← get).self
  if eofBeforeCatchUp ≤ h.eof then
    match h.blockArray.getLast? with
    | none => throw .undefined
    | some last =>
        if last.isLocal ∧ last.state = .active then
          flushEof cfg
  else
    throw unexpectedEof

/-- `registInSharedMem`, with the replay of the constructor before it. -/
def registInSharedMem : StatusM Unit := do
  catchUpManifestLogs
  let h := (← get).self
  match ← onShm (SharedMemoryContext.registFile h.pid h.fileId h.isDelete) with
  | none => throw (.sharedMem "[ActiveStatus::registInSharedMem] Exceed max connection limitation")
  | some a => modifySelf fun h => { h with activeId := some a }

/-- `unregistInSharedMem`. -/
def unregistInSharedMem (isCancel : Bool) : StatusM Unit := do
  let h := (← get).self
  match ← onShm (SharedMemoryContext.unregistFile (← myActiveId) h.pid) with
  | none =>
      throw (.sharedMem
        "[ActiveStatus::unregistInSharedMem] connection info mismatch with SharedMem")
  | some shouldDestroy =>
      modifySelf fun h => { h with
        shouldDestroy := h.shouldDestroy || shouldDestroy || isCancel, activeId := none }

/-- The blocks of a file about to be destroyed, local and remote. -/
def blocksToDestroy : List Block → Except GwError (List Block × List Block)
  | [] => .ok ([], [])
  | block :: rest =>
      if block.isLocal ∧ block.state = .active then
        .error (.gopherwood "[ActiveStatus] File still using active bucket")
      else if block.isLocal ∧ block.state = .free then
        .error (.gopherwood "[ActiveStatus] Dead Zone, Internal Error!")
      else do
        let (localBlocks, remoteBlocks) ← blocksToDestroy rest
        if block.isLocal then return (block :: localBlocks, remoteBlocks)
        else return (localBlocks, block :: remoteBlocks)

/-- `Manifest::destroy`. -/
def destroyManifest : StatusM Unit :=
  modify fun c => { c with
    folder := c.folder.mfRemove c.self.fileId, self := { c.self with fd := none } }

/-- The end of the critical section of `close`: the last handle of a file
destroys it or compacts its log. The remote blocks still to be deleted. -/
def closeFile : StatusM (List Block) := do
  let h := (← get).self
  if ← onShm (SharedMemoryContext.isFileOpening h.fileId) then
    modifySelf fun h => { h with shouldDestroy := false }
    return []
  else if h.shouldDestroy then
    match blocksToDestroy h.blockArray with
    | .error e => throw e
    | .ok (localBlocks, remoteBlocks) =>
        onShm (SharedMemoryContext.deleteBlocks h.fileId localBlocks)
        destroyManifest
        return remoteBlocks
  else
    logFullStatus h.blockArray h.eof
    return []

/-- The critical section of `close`. -/
def close (cfg : Config) (isCancel : Bool) : StatusM (List Block) := do
  catchUpManifestLogs
  let h := (← get).self
  let a ← myActiveId
  let keys ← removeNumOfKeys h.lruCache.size
  let activeBlocks ← blocksOf keys
  if h.preAllocatedBuckets ≠ [] then
    onShm (SharedMemoryContext.releaseBuckets h.preAllocatedBuckets)
    logReleaseBucket h.preAllocatedBuckets
  let turned ← onShm (SharedMemoryContext.inactivateBuckets h.fileId a activeBlocks)
  updateInactivated cfg turned
  if turned ≠ [] then
    logInactivateBucket turned
  unregistInSharedMem isCancel
  let remoteBlocks ← closeFile
  modifySelf fun h => { h with blockArray := [], lruCache := .empty h.lruCache.maxSize }
  return remoteBlocks

end FileActiveStatus

end Gopherwood
