/-
# The shared memory segment

The header, the bucket table and the table of registered handles. The flag word
of a bucket and of a handle slot is kept as its named bits; the low two bits of
a bucket are its type.
-/

import Gopherwood.Core.BlockStatus
import Gopherwood.Library.Slots

namespace Gopherwood

/-- `ShareMemHeader` without the dirty flag, which is set and cleared around
every critical section. -/
structure ShareMemHeader where
  numBuckets : Nat
  numMaxActiveStatus : Nat
  nextVictimBucket : Nat
  numFreeBuckets : Nat
  numActiveBuckets : Nat
  numUsedBuckets : Nat
  numEvictingBuckets : Nat
  numLoadingBuckets : Nat
  numFileActiveStatus : Nat
  numAdminActiveStatus : Nat

/-- `BucketActiveInfo`: a handle that holds the bucket, for writing or reading. -/
structure BucketActiveInfo where
  isWrite : Bool
  activeId : Nat
  deriving DecidableEq

/-- `SMBUCKET_MAX_CONCURRENT_OPEN`. -/
def maxConcurrentOpen : Nat := 32

/-- `ShareMemBucket`. Bits 29, 30 and 31 of the flag word are `loading`,
`deleted` and `evicting`. -/
structure ShareMemBucket where
  type : BucketType
  loading : Bool
  deleted : Bool
  evicting : Bool
  fileId : FileId
  usageCount : Int
  fileBlockIndex : Option Nat
  dataSize : Nat
  evictLoadActiveId : Option Nat
  activeInfos : List (Option BucketActiveInfo)

namespace ShareMemBucket

/-- `ShareMemBucket::reset`. A reset bucket is free. -/
def blank : ShareMemBucket where
  type := .free
  loading := false
  deleted := false
  evicting := false
  fileId := FileId.invalid
  usageCount := 0
  fileBlockIndex := none
  dataSize := 0
  evictLoadActiveId := none
  activeInfos := List.replicate maxConcurrentOpen none

def isFreeBucket (b : ShareMemBucket) : Bool := b.type = .free
def isActiveBucket (b : ShareMemBucket) : Bool := b.type = .active
def isUsedBucket (b : ShareMemBucket) : Bool := b.type = .used

def setBucketFree (b : ShareMemBucket) : ShareMemBucket := { b with type := .free }
def setBucketActive (b : ShareMemBucket) : ShareMemBucket := { b with type := .active }
def setBucketUsed (b : ShareMemBucket) : ShareMemBucket := { b with type := .used }
def setBucketEvicting (b : ShareMemBucket) : ShareMemBucket := { b with evicting := true }
def setBucketDeleted (b : ShareMemBucket) : ShareMemBucket := { b with deleted := true }
def setBucketLoading (b : ShareMemBucket) : ShareMemBucket := { b with loading := true }
def setBucketLoadFinish (b : ShareMemBucket) : ShareMemBucket := { b with loading := false }

/-- The common body of `markWrite` and `markRead`: take the first free entry. -/
def markAs (isWrite : Bool) (b : ShareMemBucket) (activeId : Nat) : Option ShareMemBucket :=
  (Library.fillFirst ⟨isWrite, activeId⟩ b.activeInfos).map fun infos =>
    { b with activeInfos := infos }

def markWrite : ShareMemBucket → Nat → Option ShareMemBucket := markAs true
def markRead : ShareMemBucket → Nat → Option ShareMemBucket := markAs false

/-- `unmarkWrite` and `unmarkRead` have the same body: reset the first entry of
the handle, whichever way it was marked. -/
def unmark (b : ShareMemBucket) (activeId : Nat) : Option ShareMemBucket :=
  (Library.clearFirst (fun info => info.activeId = activeId) b.activeInfos).map fun infos =>
    { b with activeInfos := infos }

def noActiveReadWrite (b : ShareMemBucket) : Bool := Library.vacant b.activeInfos

def hasActiveId (b : ShareMemBucket) (activeId : Nat) : Bool :=
  Library.holds (fun info => info.activeId = activeId) b.activeInfos

end ShareMemBucket

/-- `ShareMemActiveStatus`, the slot of a registered handle. -/
structure ShareMemActiveStatus where
  pid : Option Nat
  evicting : Bool
  loading : Bool
  isAdmin : Bool
  shouldDestroy : Bool
  stolen : Bool
  forDelete : Bool
  fileId : FileId
  evictFileId : FileId
  fileBlockIndex : Option Nat

/-- `ShareMemActiveStatus::reset`. -/
def ShareMemActiveStatus.blank : ShareMemActiveStatus where
  pid := none
  evicting := false
  loading := false
  isAdmin := false
  shouldDestroy := false
  stolen := false
  forDelete := false
  fileId := FileId.invalid
  evictFileId := FileId.invalid
  fileBlockIndex := none

/-- The mapped segment. -/
structure SharedMem where
  header : ShareMemHeader
  buckets : List ShareMemBucket
  activeStatus : List ShareMemActiveStatus

/-- The segment after `SharedMemoryContext` was constructed with `reset`. -/
def SharedMem.reset (cfg : Config) : SharedMem where
  header :=
    { numBuckets := cfg.numberOfBlocks
      numMaxActiveStatus := cfg.maxConnection
      nextVictimBucket := 0
      numFreeBuckets := cfg.numberOfBlocks
      numActiveBuckets := 0
      numUsedBuckets := 0
      numEvictingBuckets := 0
      numLoadingBuckets := 0
      numFileActiveStatus := 0
      numAdminActiveStatus := 0 }
  buckets := List.replicate cfg.numberOfBlocks ShareMemBucket.blank
  activeStatus := List.replicate cfg.maxConnection ShareMemActiveStatus.blank

end Gopherwood
