/-
# Files, blocks and configuration

The plain data of the core: file identities, the cached status of one file
block, the description of a block that is handed to the block streams and to
the object store, and the configuration values the core reads.

The source marks a missing bucket or block number by `-1`; here that is `none`.
-/

import Mathlib.Algebra.Ring.Int.Defs
import Mathlib.Algebra.Ring.Nat
import Mathlib.Logic.Basic

namespace Gopherwood

/-- `struct FileId`. -/
structure FileId where
  hashcode : Nat
  collisionId : Nat
  deriving DecidableEq

/-- `FileId::reset` stores `-1` in both unsigned fields. -/
def FileId.invalid : FileId := ⟨2 ^ 64 - 1, 2 ^ 32 - 1⟩

/-- `BUCKET_FREE`, `BUCKET_ACTIVE` and `BUCKET_USED`: the low two flag bits of
a bucket, and the cached state of a block. -/
inductive BucketType
  | free
  | active
  | used
  deriving DecidableEq

/-- `struct Block`, the in-memory status of one block of a file. -/
structure Block where
  bucketId : Option Nat
  blockId : Option Nat
  isLocal : Bool
  state : BucketType
  usageCount : Int := 0
  deriving DecidableEq

/-- `InvalidBlockOffset`: nobody has set the offset in the block. -/
def invalidBlockOffset : Int := -1

/-- `struct BlockInfo`. -/
structure BlockInfo where
  fileId : FileId
  blockId : Option Nat
  bucketId : Option Nat
  offset : Int
  dataSize : Nat
  isLocal : Bool
  deriving DecidableEq

/-- `BlockInfo::reset`. -/
def BlockInfo.invalid : BlockInfo := ⟨FileId.invalid, none, none, invalidBlockOffset, 0, false⟩

/-- The exception classes thrown by the core, with the text each throw site
passes. `undefined` is not thrown by the source: it stands for an out-of-range
array access or a null dereference. -/
inductive GwError
  | gopherwood (text : String)
  | internal (text : String)
  | invalidParm (text : String)
  | io (text : String)
  | notImpl (text : String)
  | sharedMem (text : String)
  | undefined
  deriving DecidableEq

/-- Who writes records and runs critical sections: a file handle or an admin handle. -/
inductive Client
  | file (index : Nat)
  | admin (index : Nat)
  deriving DecidableEq

/-- `Configuration`. The source computes the quota as `NUMBER_OF_BLOCKS` over
`CUR_CONNECTION`; it is a value of its own here, so every quota is covered.

The last field is no setting. `activateBlock` reads a list node that it has freed, and
what the node holds by then is up to the allocator and the other threads: `freedNode c k`
is what the `k`-th such read of handle `c` finds, `none` where the memory has not been
used again. -/
structure Config where
  numberOfBlocks : Nat
  localBucketSize : Nat
  maxConnection : Nat
  curQuotaSize : Nat
  freedNode : Client → Nat → Option Block

/-- The `k`-th read of a freed node by a handle that has last written `block` to it. -/
def Config.freed (cfg : Config) (client : Client) (k : Nat) (block : Block) : Block :=
  (cfg.freedNode client k).getD block

/-- The memory of a freed list node is not used again before it is read. -/
def Config.FreedIntact (cfg : Config) : Prop :=
  ∀ client k, cfg.freedNode client k = none

/-- Settings with which no freed node is overwritten. -/
def Config.intact (numberOfBlocks localBucketSize maxConnection curQuotaSize : Nat) : Config :=
  ⟨numberOfBlocks, localBucketSize, maxConnection, curQuotaSize, fun _ _ => none⟩

theorem Config.intact_freedIntact (numberOfBlocks localBucketSize maxConnection curQuotaSize :
    Nat) :
    (Config.intact numberOfBlocks localBucketSize maxConnection curQuotaSize).FreedIntact :=
  fun _ _ => rfl

theorem Config.FreedIntact.freed {cfg : Config} (h : cfg.FreedIntact) (client : Client) (k : Nat)
    (block : Block) : cfg.freed client k block = block := by
  rw [Config.freed, h client k, Option.getD_none]

/-- `Configuration::PRE_ALLOCATE_BUCKET_NUM`. -/
def preAllocateBucketNum : Nat := 4

/-- `Configuration::PRE_ACTIVATE_BLOCK_NUM`. -/
def preActivateBlockNum : Nat := 4

/-- Store an integer in an `int16_t`. -/
def wrap16 (x : Int) : Int := (x + 2 ^ 15) % 2 ^ 16 - 2 ^ 15

/-- Increment a `uint32_t`. -/
def inc32 (n : Nat) : Nat := (n + 1) % 2 ^ 32

/-- Decrement a `uint32_t`: zero wraps around. -/
def dec32 (n : Nat) : Nat := if n = 0 then 2 ^ 32 - 1 else n - 1

end Gopherwood
