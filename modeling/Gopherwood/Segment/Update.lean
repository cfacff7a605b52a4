/-
# Updates of the segment

Every operation on the segment is made of updates of one bucket, of one slot or
of the header. This module names the three updates, with the lemmas that read
the tables after one of them, and says what marking and unmarking a bucket do.
-/

import Gopherwood.Core.SharedMemoryContext
import Gopherwood.Library.Computation

namespace Gopherwood

namespace SharedMem

def updBucket (s : SharedMem) (b : Nat) (f : ShareMemBucket → ShareMemBucket) : SharedMem :=
  { s with buckets := s.buckets.modify b f }

def updSlot (s : SharedMem) (a : Nat) (f : ShareMemActiveStatus → ShareMemActiveStatus) :
    SharedMem :=
  { s with activeStatus := s.activeStatus.modify a f }

def updHeader (s : SharedMem) (f : ShareMemHeader → ShareMemHeader) : SharedMem :=
  { s with header := f s.header }

variable (s : SharedMem) (b a i : Nat)
variable (f : ShareMemBucket → ShareMemBucket)
variable (g : ShareMemActiveStatus → ShareMemActiveStatus)
variable (k : ShareMemHeader → ShareMemHeader)

@[simp] theorem updBucket_header : (s.updBucket b f).header = s.header := rfl
@[simp] theorem updBucket_activeStatus : (s.updBucket b f).activeStatus = s.activeStatus := rfl
@[simp] theorem updSlot_header : (s.updSlot a g).header = s.header := rfl
@[simp] theorem updSlot_buckets : (s.updSlot a g).buckets = s.buckets := rfl
@[simp] theorem updHeader_buckets : (s.updHeader k).buckets = s.buckets := rfl
@[simp] theorem updHeader_activeStatus : (s.updHeader k).activeStatus = s.activeStatus := rfl
@[simp] theorem updHeader_header : (s.updHeader k).header = k s.header := rfl

@[simp]
theorem updBucket_same : (s.updBucket b f).buckets[b]? = s.buckets[b]?.map f := by
  simp [updBucket]

variable {b i} in
theorem updBucket_other (h : b ≠ i) : (s.updBucket b f).buckets[i]? = s.buckets[i]? := by
  simp [updBucket, h]

theorem updBucket_getElem? : (s.updBucket b f).buckets[i]? =
    if b = i then s.buckets[i]?.map f else s.buckets[i]? := by
  by_cases h : b = i
  · subst h; simp
  · simp [updBucket_other, h]

@[simp]
theorem updSlot_same : (s.updSlot a g).activeStatus[a]? = s.activeStatus[a]?.map g := by
  simp [updSlot]

variable {a i} in
theorem updSlot_other (h : a ≠ i) : (s.updSlot a g).activeStatus[i]? = s.activeStatus[i]? := by
  simp [updSlot, h]

theorem updSlot_getElem? : (s.updSlot a g).activeStatus[i]? =
    if a = i then s.activeStatus[i]?.map g else s.activeStatus[i]? := by
  by_cases h : a = i
  · subst h; simp
  · simp [updSlot_other, h]

variable {g} in
/-- A slot is updated in what `p` does not look at. -/
theorem map_updSlot {β : Type} {p : ShareMemActiveStatus → β} (hp : ∀ slot, p (g slot) = p slot) :
    (s.updSlot a g).activeStatus.map p = s.activeStatus.map p := by
  refine List.ext_getElem? fun i => ?_
  simp only [List.getElem?_map, updSlot_getElem?]
  by_cases hai : a = i
  · simp only [hai, if_true, Option.map_map]
    congr 1
    funext slot
    exact hp slot
  · simp [hai]

/-- Two updates of one bucket are one update. -/
@[simp]
theorem updBucket_updBucket (f' : ShareMemBucket → ShareMemBucket) :
    (s.updBucket b f).updBucket b f' = s.updBucket b fun x => f' (f x) := by
  simp [updBucket, List.modify_modify_eq, Function.comp_def]

@[simp]
theorem updSlot_updSlot (g' : ShareMemActiveStatus → ShareMemActiveStatus) :
    (s.updSlot a g).updSlot a g' = s.updSlot a fun x => g' (g x) := by
  simp [updSlot, List.modify_modify_eq, Function.comp_def]

variable {s b f} in
/-- Two updates that agree on the bucket found are the same. -/
theorem updBucket_congr (f' : ShareMemBucket → ShareMemBucket) {x : ShareMemBucket}
    (hx : s.buckets[b]? = some x) (h : f x = f' x) : s.updBucket b f = s.updBucket b f' := by
  unfold updBucket
  congr 1
  refine List.ext_getElem? fun i => ?_
  by_cases hi : b = i
  · subst hi
    simp [hx, h]
  · simp [hi]

end SharedMem

namespace SharedMemoryContext

variable {s : SharedMem}

@[simp]
theorem run_modifyBucket (b : Nat) (f : ShareMemBucket → ShareMemBucket) :
    modifyBucket b f s = .ok () (s.updBucket b f) := rfl

@[simp]
theorem run_modifySlot (a : Nat) (f : ShareMemActiveStatus → ShareMemActiveStatus) :
    modifySlot a f s = .ok () (s.updSlot a f) := rfl

@[simp]
theorem run_modifyHeader (f : ShareMemHeader → ShareMemHeader) :
    modifyHeader f s = .ok () (s.updHeader f) := rfl

@[simp]
theorem run_inRange_some (i : Nat) : inRange (some i) s = .ok i s := rfl

@[simp]
theorem run_inRange_none : inRange none s = .error .undefined s := rfl

theorem run_bucketAt (b : Nat) : bucketAt b s =
    match s.buckets[b]? with
    | some x => .ok x s
    | none => .error .undefined s := by
  simp only [bucketAt, Library.run_bind, Library.run_get]
  cases s.buckets[b]? with
  | none => rfl
  | some x => rfl

theorem run_slotAt (a : Nat) : slotAt a s =
    match s.activeStatus[a]? with
    | some x => .ok x s
    | none => .error .undefined s := by
  simp only [slotAt, Library.run_bind, Library.run_get]
  cases s.activeStatus[a]? with
  | none => rfl
  | some x => rfl

@[simp]
theorem run_bucketAt_some {b : Nat} {x : ShareMemBucket} (hx : s.buckets[b]? = some x) :
    bucketAt b s = .ok x s := by
  rw [run_bucketAt, hx]

@[simp]
theorem run_bucketAt_none {b : Nat} (hx : s.buckets[b]? = none) :
    bucketAt b s = .error .undefined s := by
  rw [run_bucketAt, hx]

@[simp]
theorem run_slotAt_some {a : Nat} {x : ShareMemActiveStatus} (hx : s.activeStatus[a]? = some x) :
    slotAt a s = .ok x s := by
  rw [run_slotAt, hx]

@[simp]
theorem run_slotAt_none {a : Nat} (hx : s.activeStatus[a]? = none) :
    slotAt a s = .error .undefined s := by
  rw [run_slotAt, hx]

/-- Marking fills the first free entry. -/
theorem markBucket_some {b : Nat} {w : Bool} {a : Nat} {x : ShareMemBucket}
    {infos : List (Option BucketActiveInfo)} (hx : s.buckets[b]? = some x)
    (hfill : Library.fillFirst ⟨w, a⟩ x.activeInfos = some infos) :
    markBucket b w a s = .ok () (s.updBucket b fun x => { x with activeInfos := infos }) := by
  have hmark : (if w = true then x.markWrite a else x.markRead a) = x.markAs w a := by
    cases w with
    | true => rfl
    | false => rfl
  simp only [markBucket, Library.run_bind, run_bucketAt_some hx, hmark, ShareMemBucket.markAs,
    hfill, Option.map_some, run_modifyBucket]
  exact congrArg (EStateM.Result.ok ()) (SharedMem.updBucket_congr _ hx rfl)

/-- Marking a bucket with a full table throws. -/
theorem markBucket_full {b : Nat} {w : Bool} {a : Nat} {x : ShareMemBucket}
    (hx : s.buckets[b]? = some x)
    (hfill : Library.fillFirst (⟨w, a⟩ : BucketActiveInfo) x.activeInfos = none) :
    ∃ e, markBucket b w a s = .error e s := by
  have hmark : (if w = true then x.markWrite a else x.markRead a) = x.markAs w a := by
    cases w with
    | true => rfl
    | false => rfl
  simp [markBucket, hx, hmark, ShareMemBucket.markAs, hfill]

/-- Unmarking clears the first entry of the handle. -/
theorem unmarkBucket_some {b : Nat} {a : Nat} {x : ShareMemBucket}
    {infos : List (Option BucketActiveInfo)} (hx : s.buckets[b]? = some x)
    (hclear : Library.clearFirst (fun info => info.activeId = a) x.activeInfos = some infos) :
    unmarkBucket b a s = .ok () (s.updBucket b fun x => { x with activeInfos := infos }) := by
  simp only [unmarkBucket, Library.run_bind, run_bucketAt_some hx, ShareMemBucket.unmark, hclear,
    Option.map_some, run_modifyBucket]
  exact congrArg (EStateM.Result.ok ()) (SharedMem.updBucket_congr _ hx rfl)

/-- Unmarking a bucket that the handle has not marked throws. -/
theorem unmarkBucket_none {b : Nat} {a : Nat} {x : ShareMemBucket} (hx : s.buckets[b]? = some x)
    (hclear : Library.clearFirst (fun info => info.activeId = a) x.activeInfos = none) :
    ∃ e, unmarkBucket b a s = .error e s := by
  simp [unmarkBucket, hx, ShareMemBucket.unmark, hclear]

/-- Setting the data size changes nothing, or raises the data size of an active
bucket of the file that the handle has marked. -/
theorem updateBucketDataSize_cases (cfg : Config) (b : Option Nat) (size : Int) (fileId : FileId)
    (a : Nat) (s : SharedMem) :
    (∃ e, updateBucketDataSize cfg b size fileId a s = .error e s) ∨
    (∃ i x, b = some i ∧ s.buckets[i]? = some x ∧ x.fileId = fileId ∧ x.type = .active ∧
      x.hasActiveId a = true ∧ size ≤ cfg.localBucketSize ∧
      updateBucketDataSize cfg b size fileId a s = .ok () (s.updBucket i fun x =>
        { x with dataSize := if (x.dataSize : Int) < size then size.toNat else x.dataSize })) := by
  unfold updateBucketDataSize
  by_cases hsize : size > cfg.localBucketSize
  · simp [hsize]
  cases b with
  | none => simp [hsize]
  | some i =>
      by_cases hi : i > cfg.numberOfBlocks
      · simp [hsize, hi]
      cases hx : s.buckets[i]? with
      | none => simp [hsize, hi, hx]
      | some x =>
          by_cases hbad : x.fileId ≠ fileId ∨ !x.isActiveBucket ∨ !x.hasActiveId a
          · left
            refine ⟨.sharedMem "[SharedMemoryContext] Bucket status mismatch!", ?_⟩
            simp only [hsize, hi, if_false, Library.run_bind, run_bucketAt_some hx, hbad, if_true,
              Library.run_throw]
          · right
            have hgood := hbad
            simp only [ShareMemBucket.isActiveBucket, not_or, not_not, Bool.not_eq_true',
              Bool.not_eq_false, decide_eq_true_eq] at hgood
            refine ⟨i, x, rfl, hx, hgood.1, hgood.2.1, hgood.2.2, by omega, ?_⟩
            by_cases hlt : (x.dataSize : Int) < size
            · simp only [hsize, hi, if_false, Library.run_bind, run_bucketAt_some hx, hbad,
                hlt, if_true, run_modifyBucket]
              exact congrArg (EStateM.Result.ok ()) (SharedMem.updBucket_congr _ hx (by simp [hlt]))
            · simp only [hsize, hi, if_false, Library.run_bind, run_bucketAt_some hx, hbad,
                hlt, Library.run_pure]
              refine congrArg (EStateM.Result.ok ()) ?_
              have hsame : s = s.updBucket i id := by simp [SharedMem.updBucket]
              rw [SharedMem.updBucket_congr id hx (by simp [hlt])]
              exact hsame

/-- Reading the data size changes nothing. -/
theorem getBucketDataSize_cases (cfg : Config) (b : Option Nat) (fileId : FileId) (blockId : Nat)
    (s : SharedMem) :
    (∃ e, getBucketDataSize cfg b fileId blockId s = .error e s) ∨
    (∃ i x, b = some i ∧ s.buckets[i]? = some x ∧ x.fileId = fileId ∧
      x.fileBlockIndex = some blockId ∧
      getBucketDataSize cfg b fileId blockId s = .ok x.dataSize s) := by
  unfold getBucketDataSize
  cases b with
  | none => simp
  | some i =>
      by_cases hi : i > cfg.numberOfBlocks
      · simp [hi]
      cases hx : s.buckets[i]? with
      | none => simp [hi, hx]
      | some x =>
          by_cases hbad : x.fileId ≠ fileId ∨ x.fileBlockIndex ≠ some blockId
          · simp [hi, hx, hbad]
          · right
            have hgood := hbad
            simp only [not_or, not_not] at hgood
            exact ⟨i, x, rfl, hx, hgood.1, hgood.2, by simp [hi, hx, hbad]⟩

end SharedMemoryContext

end Gopherwood
