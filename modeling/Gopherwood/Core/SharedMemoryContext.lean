/-
# Operations on the shared memory segment

Every operation of `SharedMemoryContext`, in the order of the source. Each runs
inside a critical section, so it is one atomic computation on the segment; an
exception leaves the stores made before it in place.
-/

import Gopherwood.Core.SharedMemoryObj

namespace Gopherwood

/-- Computations on the segment. -/
abbrev ShmM := EStateM GwError SharedMem

namespace SharedMemoryContext

/-- `buckets[bucketId]`; reading outside the table is undefined. -/
def bucketAt (bucketId : Nat) : ShmM ShareMemBucket := do
  match (← get).buckets[bucketId]? with
  | some bucket => pure bucket
  | none => throw .undefined

/-- An index of `-1` is outside every table. -/
def inRange (index : Option Nat) : ShmM Nat :=
  match index with
  | some i => pure i
  | none => throw .undefined

def modifyBucket (bucketId : Nat) (f : ShareMemBucket → ShareMemBucket) : ShmM Unit :=
  modify fun s => { s with buckets := s.buckets.modify bucketId f }

def modifySlot (activeId : Nat) (f : ShareMemActiveStatus → ShareMemActiveStatus) : ShmM Unit :=
  modify fun s => { s with activeStatus := s.activeStatus.modify activeId f }

def modifyHeader (f : ShareMemHeader → ShareMemHeader) : ShmM Unit :=
  modify fun s => { s with header := f s.header }

/-- `activeStatus[activeId]`; reading outside the table is undefined. -/
def slotAt (activeId : Nat) : ShmM ShareMemActiveStatus := do
  match (← get).activeStatus[activeId]? with
  | some slot => pure slot
  | none => throw .undefined

/-- Mark a bucket for a handle, as a writer or as a reader. -/
def markBucket (bucketId : Nat) (isWrite : Bool) (activeId : Nat) : ShmM Unit := do
  let bucket ← bucketAt bucketId
  match if isWrite then bucket.markWrite activeId else bucket.markRead activeId with
  | some marked => modifyBucket bucketId fun _ => marked
  | none => throw (.sharedMem "[ShareMemBucket::markRead] exceed the max activate concurrent num")

/-- Remove the first mark of a handle from a bucket. -/
def unmarkBucket (bucketId : Nat) (activeId : Nat) : ShmM Unit := do
  let bucket ← bucketAt bucketId
  match bucket.unmark activeId with
  | some unmarked => modifyBucket bucketId fun _ => unmarked
  | none => throw (.sharedMem "[ShareMemBucket::unmarkRead] was not opend by activeId")

/-- The scan of `registFile` over the slots. Existing slots of the file pass
their destroy flag on and take it from a delete; the first free slot is
assigned. Returns the table, the assigned slot and the destroy flag. -/
def registFile.scan (pid : Nat) (fileId : FileId) (isDelete : Bool) :
    Nat → List ShareMemActiveStatus → Option Nat → Bool →
      List ShareMemActiveStatus × Option Nat × Bool
  | _, [], activeId, shouldDestroy => ([], activeId, shouldDestroy)
  | i, slot :: rest, activeId, shouldDestroy =>
      let sameFile : Bool := slot.fileId = fileId
      let destroy := shouldDestroy || (sameFile && slot.shouldDestroy)
      let slot := if sameFile && isDelete then { slot with shouldDestroy := true } else slot
      if activeId = none ∧ slot.pid = none then
        let slot := { slot with
          pid := some pid, fileId := fileId, fileBlockIndex := none
          forDelete := slot.forDelete || isDelete }
        let (rest, activeId, destroy) := registFile.scan pid fileId isDelete (i + 1) rest
          (some i) destroy
        (slot :: rest, activeId, destroy)
      else
        let (rest, activeId, destroy) := registFile.scan pid fileId isDelete (i + 1) rest
          activeId destroy
        (slot :: rest, activeId, destroy)

/-- `SharedMemoryContext::registFile`; `none` is the source's `-1`. -/
def registFile (pid : Nat) (fileId : FileId) (isDelete : Bool) : ShmM (Option Nat) := do
  let s ← get
  let (slots, activeId, shouldDestroy) :=
    registFile.scan pid fileId isDelete 0 s.activeStatus none isDelete
  set { s with activeStatus := slots }
  match activeId with
  | some a =>
      modifyHeader fun h => { h with numFileActiveStatus := inc32 h.numFileActiveStatus }
      if shouldDestroy then
        modifySlot a fun slot => { slot with shouldDestroy := true }
  | none => pure ()
  return activeId

/-- `SharedMemoryContext::registAdmin`. -/
def registAdmin (pid : Nat) : ShmM (Option Nat) := do
  match (← get).activeStatus.findIdx? fun slot => slot.pid = none with
  | some a =>
      modifySlot a fun slot => { slot with pid := some pid, isAdmin := true }
      modifyHeader fun h => { h with numAdminActiveStatus := inc32 h.numAdminActiveStatus }
      return some a
  | none => return none

/-- `SharedMemoryContext::unregistFile`: whether the file should be destroyed,
or `none` when the slot belongs to another process. -/
def unregistFile (activeId : Nat) (pid : Nat) : ShmM (Option Bool) := do
  match (← get).activeStatus[activeId]? with
  | none => return none
  | some slot =>
      if slot.pid = some pid then
        modifySlot activeId fun _ => .blank
        modifyHeader fun h => { h with numFileActiveStatus := dec32 h.numFileActiveStatus }
        return some slot.shouldDestroy
      else
        return none

/-- `SharedMemoryContext::unregistAdmin`; `false` is the source's `-1`. -/
def unregistAdmin (activeId : Nat) (pid : Nat) : ShmM Bool := do
  match (← get).activeStatus[activeId]? with
  | none => return false
  | some slot =>
      if slot.pid = some pid ∧ slot.isAdmin then
        modifySlot activeId fun _ => .blank
        modifyHeader fun h => { h with numAdminActiveStatus := dec32 h.numAdminActiveStatus }
        return true
      else
        return false

/-- `SharedMemoryContext::isFileOpening`. -/
def isFileOpening (fileId : FileId) : ShmM Bool := do
  return (← get).activeStatus.any fun slot => slot.fileId = fileId

/-- One round of the loop of `acquireFreeBucket`: activate a free bucket. -/
def acquireOne (activeId : Nat) (fileId : FileId) (isWrite : Bool) (bucketId : Nat) :
    ShmM Unit := do
  modifyBucket bucketId fun b => { b.setBucketActive with fileId := fileId }
  markBucket bucketId isWrite activeId
  modifyHeader fun h => { h with
    numFreeBuckets := dec32 h.numFreeBuckets, numActiveBuckets := inc32 h.numActiveBuckets }

/-- The loop of `acquireFreeBucket` over the bucket ids. It stops when the count
is zero after an acquisition, not before one. -/
def acquireFreeBucket.loop (activeId : Nat) (fileId : FileId) (isWrite : Bool) :
    List Nat → Int → ShmM (List Nat × Int)
  | [], count => pure ([], count)
  | i :: rest, count => do
      let bucket ← bucketAt i
      if bucket.isFreeBucket then
        acquireOne activeId fileId isWrite i
        if count - 1 = 0 then
          pure ([i], count - 1)
        else
          let (ids, left) ← acquireFreeBucket.loop activeId fileId isWrite rest (count - 1)
          pure (i :: ids, left)
      else
        acquireFreeBucket.loop activeId fileId isWrite rest count

/-- `SharedMemoryContext::acquireFreeBucket`. -/
def acquireFreeBucket (activeId : Nat) (num : Int) (fileId : FileId) (isWrite : Bool) :
    ShmM (List Nat) := do
  let s ← get
  let (ids, left) ← acquireFreeBucket.loop activeId fileId isWrite
    (List.range s.header.numBuckets) num
  if left ≠ 0 then
    throw (.sharedMem "[SharedMemoryContext::acquireBlock] did not acquire enough buckets")
  return ids

/-- The stores that make the chosen victim an evicting bucket. -/
def startEviction (activeId : Nat) (bucketId : Nat) (bucket : ShareMemBucket) :
    ShmM BlockInfo := do
  modifyBucket bucketId fun b => { b.setBucketEvicting with evictLoadActiveId := some activeId }
  modifySlot activeId fun slot => { slot with
    evictFileId := bucket.fileId, fileBlockIndex := bucket.fileBlockIndex, evicting := true }
  modifyHeader fun h => { h with
    numUsedBuckets := dec32 h.numUsedBuckets, numEvictingBuckets := inc32 h.numEvictingBuckets }
  return { fileId := bucket.fileId, blockId := bucket.fileBlockIndex, bucketId := some bucketId,
           offset := invalidBlockOffset, dataSize := bucket.dataSize, isLocal := true }

/-- The clock sweep. `tries` is `trycounter`; every round moves the hand. -/
def sweep (activeId : Nat) : Nat → Nat → ShmM BlockInfo
  | 0, _ => throw .undefined
  | fuel + 1, tries => do
      let s ← get
      let bucketId := s.header.nextVictimBucket
      let bucket ← bucketAt bucketId
      modifyHeader fun h => { h with
        nextVictimBucket := if bucketId + 1 ≥ h.numBuckets then 0 else bucketId + 1 }
      if bucket.isUsedBucket && !bucket.evicting then
        if bucket.usageCount > 0 then
          modifyBucket bucketId fun b => { b with usageCount := b.usageCount - 1 }
          sweep activeId fuel s.header.numBuckets
        else
          startEviction activeId bucketId bucket
      else if tries - 1 = 0 then
        throw (.sharedMem
          "[SharedMemoryContext::acquireBlock] statistic incorrect, there should be used buckets")
      else
        sweep activeId fuel (tries - 1)

/-- Rounds that the sweep can take: a full turn of the hand for every unit of
usage, and one more. -/
def sweepBound (s : SharedMem) : Nat :=
  ((s.buckets.map fun b => b.usageCount.toNat).sum + 1) * s.header.numBuckets

/-- `SharedMemoryContext::markBucketEvicting`. -/
def markBucketEvicting (activeId : Nat) : ShmM BlockInfo := do
  let s ← get
  sweep activeId (sweepBound s) s.header.numBuckets

/-- The three answers of the end of an eviction. -/
inductive EvictResult
  /-- `0`: the eviction finished. -/
  | finished
  /-- `1`: the block was deleted during the eviction. -/
  | deleted
  /-- `2`: the owner activated the bucket in the meantime. -/
  | stolen
  deriving DecidableEq

/-- The common part of both eviction ends: retire the handle's eviction record,
and stop there when the bucket was stolen. -/
def evictBucketFinish (bucketId : Option Nat) (activeId : Nat)
    (take : Nat → ShmM Unit) : ShmM EvictResult := do
  modifySlot activeId fun slot => { slot with
    evictFileId := FileId.invalid, fileBlockIndex := none, evicting := false }
  let slot ← slotAt activeId
  if slot.stolen then
    modifySlot activeId fun slot => { slot with stolen := false }
    return .stolen
  else
    let b ← inRange bucketId
    let bucket ← bucketAt b
    modifyBucket b fun _ => .blank
    take b
    return if bucket.deleted then .deleted else .finished

/-- `SharedMemoryContext::evictBucketFinishAndTryAcquire`. -/
def evictBucketFinishAndTryAcquire (bucketId : Option Nat) (activeId : Nat) (fileId : FileId)
    (isWrite : Bool) : ShmM EvictResult :=
  evictBucketFinish bucketId activeId fun b => do
    modifyBucket b fun bucket => { bucket.setBucketActive with fileId := fileId }
    markBucket b isWrite activeId
    modifyHeader fun h => { h with
      numEvictingBuckets := dec32 h.numEvictingBuckets
      numActiveBuckets := inc32 h.numActiveBuckets }

/-- `SharedMemoryContext::evictBucketFinishAndTryFree`. -/
def evictBucketFinishAndTryFree (bucketId : Option Nat) (activeId : Nat) : ShmM EvictResult :=
  evictBucketFinish bucketId activeId fun b => do
    modifyBucket b ShareMemBucket.setBucketFree
    modifyHeader fun h => { h with
      numEvictingBuckets := dec32 h.numEvictingBuckets
      numFreeBuckets := inc32 h.numFreeBuckets }

/-- The test shared by `markBucketLoading` and `isBlockLoading`. -/
def slotLoads (fileId : FileId) (blockId : Nat) (slot : ShareMemActiveStatus) : Bool :=
  slot.loading && slot.fileId = fileId && slot.fileBlockIndex = some blockId

/-- `SharedMemoryContext::markBucketLoading`; `false` when another handle is
already recorded as loading the block. -/
def markBucketLoading (bucketId : Nat) (blockId : Nat) (activeId : Nat) (fileId : FileId) :
    ShmM Bool := do
  if (← get).activeStatus.any (slotLoads fileId blockId) then
    return false
  modifyBucket bucketId fun b => { b.setBucketLoading with
    fileBlockIndex := some blockId, evictLoadActiveId := some activeId }
  modifySlot activeId fun slot => { slot with fileBlockIndex := some blockId, loading := true }
  modifyHeader fun h => { h with
    numActiveBuckets := dec32 h.numActiveBuckets, numLoadingBuckets := inc32 h.numLoadingBuckets }
  return true

/-- `SharedMemoryContext::markLoadFinish`. -/
def markLoadFinish (bucketId : Nat) (activeId : Nat) : ShmM Unit := do
  modifyBucket bucketId ShareMemBucket.setBucketLoadFinish
  modifySlot activeId fun slot => { slot with fileBlockIndex := none, loading := false }
  modifyHeader fun h => { h with
    numLoadingBuckets := dec32 h.numLoadingBuckets, numActiveBuckets := inc32 h.numActiveBuckets }

/-- The body of the loop of `releaseBuckets`. -/
def releaseOne (bucketId : Nat) : ShmM Unit := do
  let bucket ← bucketAt bucketId
  if bucket.isActiveBucket then
    modifyBucket bucketId fun _ => ShareMemBucket.blank.setBucketFree
    modifyHeader fun h => { h with
      numActiveBuckets := dec32 h.numActiveBuckets, numFreeBuckets := inc32 h.numFreeBuckets }
  else
    throw (.sharedMem "[SharedMemoryContext::releaseBlock] state of bucket is not Active")

/-- `SharedMemoryContext::releaseBuckets`. -/
def releaseBuckets : List Block → ShmM Unit
  | [] => pure ()
  | block :: rest => do
      releaseOne (← inRange block.bucketId)
      releaseBuckets rest

/-- The branch of `activateBucket` for a bucket that is being evicted: tell the
evictor that its bucket is gone. -/
def stealBucket (bucketId : Nat) : ShmM Unit := do
  let bucket ← bucketAt bucketId
  let evictId ← inRange bucket.evictLoadActiveId
  let slot ← slotAt evictId
  if slot.evictFileId = bucket.fileId ∧ slot.fileBlockIndex = bucket.fileBlockIndex then
    modifySlot evictId fun slot => { slot with stolen := true }
  else
    throw (.sharedMem "[activateBucket] The activeStatus is not evicting file block")
  modifyHeader fun h => { h with
    numEvictingBuckets := dec32 h.numEvictingBuckets
    numActiveBuckets := inc32 h.numActiveBuckets }

/-- `SharedMemoryContext::activateBucket`: `true` when the bucket became active
by this call, `false` when it was active already. -/
def activateBucket (fileId : FileId) (block : Block) (activeId : Nat) (isWrite : Bool) :
    ShmM Bool := do
  let bucketId ← inRange block.bucketId
  let bucket ← bucketAt bucketId
  if bucket.fileId ≠ fileId ∨ bucket.fileBlockIndex ≠ block.blockId then
    throw (.sharedMem "[SharedMemoryContext::activateBlock] File Id mismatch")
  if bucket.isUsedBucket then
    modifyBucket bucketId ShareMemBucket.setBucketActive
    markBucket bucketId isWrite activeId
    if bucket.evicting then
      stealBucket bucketId
    else
      modifyHeader fun h => { h with
        numUsedBuckets := dec32 h.numUsedBuckets, numActiveBuckets := inc32 h.numActiveBuckets }
    return true
  else if bucket.isActiveBucket then
    markBucket bucketId isWrite activeId
    return false
  else
    throw (.sharedMem "[SharedMemoryContext::activateBlock] Dead Zone, get out!")

/-- The body of the loop of `inactivateBuckets`: whether the bucket turned used. -/
def inactivateOne (block : Block) (fileId : FileId) (activeId : Nat) : ShmM Bool := do
  let bucketId ← inRange block.bucketId
  let bucket ← bucketAt bucketId
  if bucket.isActiveBucket then
    modifyBucket bucketId fun b => { b with
      fileId := fileId, fileBlockIndex := block.blockId
      usageCount := wrap16 (b.usageCount + block.usageCount) }
    unmarkBucket bucketId activeId
    let bucket ← bucketAt bucketId
    if bucket.noActiveReadWrite then
      modifyBucket bucketId ShareMemBucket.setBucketUsed
      modifyHeader fun h => { h with
        numActiveBuckets := dec32 h.numActiveBuckets, numUsedBuckets := inc32 h.numUsedBuckets }
      return true
    else
      return false
  else
    throw (.sharedMem
      "[SharedMemoryContext] state of bucket is not Active when trying to release block")

/-- `SharedMemoryContext::inactivateBuckets`: the blocks whose buckets turned
used. -/
def inactivateBuckets (fileId : FileId) (activeId : Nat) : List Block → ShmM (List Block)
  | [] => pure []
  | block :: rest => do
      let turned ← inactivateOne block fileId activeId
      let others ← inactivateBuckets fileId activeId rest
      return if turned then { block with state := .used } :: others else others

/-- `SharedMemoryContext::updateActiveFileInfo` for one block. -/
def updateActiveFileInfo (block : Block) (fileId : FileId) : ShmM Unit := do
  let bucketId ← inRange block.bucketId
  let bucket ← bucketAt bucketId
  if bucket.fileId = fileId then
    modifyBucket bucketId fun b => { b with fileBlockIndex := block.blockId }
  else
    throw (.sharedMem "[SharedMemoryContext] FileId mismatch")

/-- The body of the loop of `deleteBlocks`. A bucket being evicted is of used
type, so it takes the first branch. -/
def deleteOne (block : Block) (fileId : FileId) : ShmM Unit := do
  let bucketId ← inRange block.bucketId
  let bucket ← bucketAt bucketId
  if bucket.isUsedBucket ∧ bucket.fileId = fileId then
    modifyBucket bucketId fun _ => ShareMemBucket.blank.setBucketFree
    modifyHeader fun h => { h with
      numUsedBuckets := dec32 h.numUsedBuckets, numFreeBuckets := inc32 h.numFreeBuckets }
  else if bucket.evicting ∧ bucket.fileId = fileId then
    modifyBucket bucketId ShareMemBucket.setBucketDeleted
  else
    throw (.sharedMem "[SharedMemoryContext] Bucket status mismatch!")

/-- `SharedMemoryContext::deleteBlocks`. -/
def deleteBlocks (fileId : FileId) : List Block → ShmM Unit
  | [] => pure ()
  | block :: rest => do
      deleteOne block fileId
      deleteBlocks fileId rest

/-- `SharedMemoryContext::updateBucketDataSize`. -/
def updateBucketDataSize (cfg : Config) (bucketId : Option Nat) (size : Int) (fileId : FileId)
    (activeId : Nat) : ShmM Unit := do
  let mismatch : GwError := .sharedMem "[SharedMemoryContext] Bucket status mismatch!"
  if size > cfg.localBucketSize then
    throw mismatch
  match bucketId with
  | none => throw mismatch
  | some b =>
      if b > cfg.numberOfBlocks then
        throw mismatch
      let bucket ← bucketAt b
      if bucket.fileId ≠ fileId ∨ !bucket.isActiveBucket ∨ !bucket.hasActiveId activeId then
        throw mismatch
      if (bucket.dataSize : Int) < size then
        modifyBucket b fun bucket => { bucket with dataSize := size.toNat }

/-- `SharedMemoryContext::getBucketDataSize`. -/
def getBucketDataSize (cfg : Config) (bucketId : Option Nat) (fileId : FileId) (blockId : Nat) :
    ShmM Nat := do
  let mismatch : GwError := .sharedMem "[SharedMemoryContext] Bucket status mismatch!"
  match bucketId with
  | none => throw mismatch
  | some b =>
      if b > cfg.numberOfBlocks then
        throw mismatch
      let bucket ← bucketAt b
      if bucket.fileId ≠ fileId ∨ bucket.fileBlockIndex ≠ some blockId then
        throw mismatch
      return bucket.dataSize

end SharedMemoryContext

end Gopherwood
