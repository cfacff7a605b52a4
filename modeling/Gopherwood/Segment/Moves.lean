/-
# The elementary changes of the segment

Every operation of `SharedMemoryContext` is a sequence of moves: one bucket, one
slot and the counters change together. A move is named by who makes it and on
which bucket; what it finds and what it leaves is said once, here. An operation
keeps whatever its moves keep, whether it returns or throws.
-/

import Gopherwood.Segment.Update

namespace Gopherwood

open Library (Keeps Spec)

/-- The names of moves; `a` is the handle that makes the move, `b` the bucket. -/
inductive Move
  /-- A free bucket is acquired. -/
  | take (a b : Nat)
  /-- A free bucket was made active, but its mark table is full. -/
  | takeFailed (b : Nat)
  /-- The clock hand moves. -/
  | hand
  /-- The clock hand takes a unit of usage from a used bucket. -/
  | age (b : Nat)
  /-- A used bucket is chosen as victim. -/
  | evict (a b : Nat)
  /-- An eviction ends: the bucket was stolen. -/
  | endStolen (a : Nat)
  /-- An eviction ends on no bucket. -/
  | endFailed (a : Nat)
  /-- An eviction ends, and the bucket is acquired. -/
  | endTake (a b : Nat)
  /-- An eviction ends, and the bucket is free. -/
  | endFree (a b : Nat)
  /-- A load of a block into the bucket starts. -/
  | load (a b : Nat)
  /-- A load into the bucket ends. -/
  | loaded (a b : Nat)
  /-- An active bucket is given back. -/
  | release (b : Nat)
  /-- A used bucket is activated. -/
  | activate (a b : Nat)
  /-- A bucket that `e` is evicting is activated. -/
  | steal (a b e : Nat)
  /-- A used bucket was made active, and the activation then threw. -/
  | activateFailed (b : Nat)
  /-- An active bucket is marked once more. -/
  | join (a b : Nat)
  /-- A mark is removed, and others remain. -/
  | leave (a b : Nat)
  /-- The last mark is removed. -/
  | retire (a b : Nat)
  /-- A bucket to be unmarked did not carry the mark. -/
  | leaveFailed (a b : Nat)
  /-- The block index of a bucket is set. -/
  | index (b : Nat)
  /-- A used bucket of a destroyed file is reset. -/
  | reset (fileId : FileId) (b : Nat)
  /-- A bucket of a destroyed file is flagged. -/
  | flag (fileId : FileId) (b : Nat)
  /-- The data size of a bucket grows, to at most `bound`. -/
  | resize (a b bound : Nat)

/-- A bucket that was reset and acquired by a handle. -/
def ShareMemBucket.taken (w : Bool) (a : Nat) (fileId : FileId) : ShareMemBucket :=
  { ShareMemBucket.blank with
    type := .active, fileId := fileId
    activeInfos := some ⟨w, a⟩ :: List.replicate (maxConcurrentOpen - 1) none }

namespace SharedMem

/-- The eviction record of a slot, as both ends of an eviction leave it. -/
def endEviction (slot : ShareMemActiveStatus) : ShareMemActiveStatus :=
  { slot with evictFileId := FileId.invalid, fileBlockIndex := none, evicting := false }

/-- What a move finds and what it leaves. -/
inductive Moves : Move → SharedMem → SharedMem → Prop
  | take {s : SharedMem} {a b : Nat} {x : ShareMemBucket} {w : Bool} {fileId : FileId}
      {infos : List (Option BucketActiveInfo)} (hx : s.buckets[b]? = some x)
      (htype : x.type = .free) (hinfos : Library.fillFirst ⟨w, a⟩ x.activeInfos = some infos) :
      Moves (.take a b) s
        ((s.updBucket b fun x => { x with
            type := .active, fileId := fileId, activeInfos := infos }).updHeader fun h =>
          { h with
            numFreeBuckets := dec32 h.numFreeBuckets
            numActiveBuckets := inc32 h.numActiveBuckets })
  | takeFailed {s : SharedMem} {b : Nat} {x : ShareMemBucket} {a : Nat} {w : Bool}
      {fileId : FileId} (hx : s.buckets[b]? = some x) (htype : x.type = .free)
      (hinfos : Library.fillFirst (⟨w, a⟩ : BucketActiveInfo) x.activeInfos = none) :
      Moves (.takeFailed b) s (s.updBucket b fun x => { x with type := .active, fileId := fileId })
  | hand {s : SharedMem} {next : Nat} :
      Moves .hand s (s.updHeader fun h => { h with nextVictimBucket := next })
  | age {s : SharedMem} {b : Nat} {x : ShareMemBucket} (hx : s.buckets[b]? = some x)
      (htype : x.type = .used) (hevicting : x.evicting = false) :
      Moves (.age b) s (s.updBucket b fun x => { x with usageCount := x.usageCount - 1 })
  | evict {s : SharedMem} {a b : Nat} {x : ShareMemBucket} (hx : s.buckets[b]? = some x)
      (htype : x.type = .used) (hevicting : x.evicting = false) :
      Moves (.evict a b) s
        (((s.updBucket b fun x => { x with
            evicting := true, evictLoadActiveId := some a }).updSlot a fun slot =>
          { slot with
            evictFileId := x.fileId, fileBlockIndex := x.fileBlockIndex
            evicting := true }).updHeader fun h =>
          { h with
            numUsedBuckets := dec32 h.numUsedBuckets
            numEvictingBuckets := inc32 h.numEvictingBuckets })
  | endStolen {s : SharedMem} {a : Nat} {slot : ShareMemActiveStatus}
      (hslot : s.activeStatus[a]? = some slot) (hstolen : slot.stolen = true) :
      Moves (.endStolen a) s (s.updSlot a fun slot => { endEviction slot with stolen := false })
  | endFailed {s : SharedMem} {a : Nat} :
      Moves (.endFailed a) s (s.updSlot a endEviction)
  | endTake {s : SharedMem} {a b : Nat} {x : ShareMemBucket} {slot : ShareMemActiveStatus}
      (w : Bool) (fileId : FileId) (hslot : s.activeStatus[a]? = some slot)
      (hstolen : slot.stolen = false) (hx : s.buckets[b]? = some x) :
      Moves (.endTake a b) s
        (((s.updSlot a endEviction).updBucket b fun _ =>
            ShareMemBucket.taken w a fileId).updHeader fun h =>
          { h with
            numEvictingBuckets := dec32 h.numEvictingBuckets
            numActiveBuckets := inc32 h.numActiveBuckets })
  | endFree {s : SharedMem} {a b : Nat} {x : ShareMemBucket} {slot : ShareMemActiveStatus}
      (hslot : s.activeStatus[a]? = some slot) (hstolen : slot.stolen = false)
      (hx : s.buckets[b]? = some x) :
      Moves (.endFree a b) s
        (((s.updSlot a endEviction).updBucket b fun _ => ShareMemBucket.blank).updHeader fun h =>
          { h with
            numEvictingBuckets := dec32 h.numEvictingBuckets
            numFreeBuckets := inc32 h.numFreeBuckets })
  | load {s : SharedMem} {a b i : Nat} {fileId : FileId}
      (hfree : s.activeStatus.any (SharedMemoryContext.slotLoads fileId i) = false) :
      Moves (.load a b) s
        (((s.updBucket b fun x => { x with
            loading := true, fileBlockIndex := some i
            evictLoadActiveId := some a }).updSlot a fun slot =>
          { slot with fileBlockIndex := some i, loading := true }).updHeader fun h =>
          { h with
            numActiveBuckets := dec32 h.numActiveBuckets
            numLoadingBuckets := inc32 h.numLoadingBuckets })
  | loaded {s : SharedMem} {a b : Nat} :
      Moves (.loaded a b) s
        (((s.updBucket b fun x => { x with loading := false }).updSlot a fun slot =>
          { slot with fileBlockIndex := none, loading := false }).updHeader fun h =>
          { h with
            numLoadingBuckets := dec32 h.numLoadingBuckets
            numActiveBuckets := inc32 h.numActiveBuckets })
  | release {s : SharedMem} {b : Nat} {x : ShareMemBucket} (hx : s.buckets[b]? = some x)
      (htype : x.type = .active) :
      Moves (.release b) s
        ((s.updBucket b fun _ => ShareMemBucket.blank).updHeader fun h =>
          { h with
            numActiveBuckets := dec32 h.numActiveBuckets
            numFreeBuckets := inc32 h.numFreeBuckets })
  | activate {s : SharedMem} {a b : Nat} {x : ShareMemBucket} {w : Bool}
      {infos : List (Option BucketActiveInfo)} (hx : s.buckets[b]? = some x)
      (htype : x.type = .used) (hevicting : x.evicting = false)
      (hinfos : Library.fillFirst ⟨w, a⟩ x.activeInfos = some infos) :
      Moves (.activate a b) s
        ((s.updBucket b fun x => { x with
            type := .active, activeInfos := infos }).updHeader fun h =>
          { h with
            numUsedBuckets := dec32 h.numUsedBuckets
            numActiveBuckets := inc32 h.numActiveBuckets })
  | steal {s : SharedMem} {a b e : Nat} {x : ShareMemBucket} {slot : ShareMemActiveStatus}
      {w : Bool} {infos : List (Option BucketActiveInfo)} (hx : s.buckets[b]? = some x)
      (htype : x.type = .used) (hevicting : x.evicting = true)
      (hinfos : Library.fillFirst ⟨w, a⟩ x.activeInfos = some infos)
      (he : x.evictLoadActiveId = some e) (hslot : s.activeStatus[e]? = some slot)
      (hfile : slot.evictFileId = x.fileId) (hindex : slot.fileBlockIndex = x.fileBlockIndex) :
      Moves (.steal a b e) s
        (((s.updBucket b fun x => { x with
            type := .active, activeInfos := infos }).updSlot e fun slot =>
          { slot with stolen := true }).updHeader fun h =>
          { h with
            numEvictingBuckets := dec32 h.numEvictingBuckets
            numActiveBuckets := inc32 h.numActiveBuckets })
  | activateFailed {s : SharedMem} {a b : Nat} {x : ShareMemBucket} {w : Bool}
      {infos : List (Option BucketActiveInfo)} (hx : s.buckets[b]? = some x)
      (htype : x.type = .used)
      (hfailed : Library.fillFirst ⟨w, a⟩ x.activeInfos = none ∧ infos = x.activeInfos ∨
        Library.fillFirst ⟨w, a⟩ x.activeInfos = some infos ∧ x.evicting = true ∧
          ∀ e slot, x.evictLoadActiveId = some e → s.activeStatus[e]? = some slot →
            ¬ (slot.evictFileId = x.fileId ∧ slot.fileBlockIndex = x.fileBlockIndex)) :
      Moves (.activateFailed b) s
        (s.updBucket b fun x => { x with type := .active, activeInfos := infos })
  | join {s : SharedMem} {a b : Nat} {x : ShareMemBucket} {w : Bool}
      {infos : List (Option BucketActiveInfo)} (hx : s.buckets[b]? = some x)
      (htype : x.type = .active) (hinfos : Library.fillFirst ⟨w, a⟩ x.activeInfos = some infos) :
      Moves (.join a b) s (s.updBucket b fun x => { x with activeInfos := infos })
  | leave {s : SharedMem} {a b : Nat} {x : ShareMemBucket} {fileId : FileId} {i : Option Nat}
      {usage : Int} {infos : List (Option BucketActiveInfo)} (hx : s.buckets[b]? = some x)
      (htype : x.type = .active)
      (hinfos : Library.clearFirst (fun info => info.activeId = a) x.activeInfos = some infos)
      (hvacant : Library.vacant infos = false) :
      Moves (.leave a b) s
        (s.updBucket b fun x => { x with
          fileId := fileId, fileBlockIndex := i, usageCount := usage, activeInfos := infos })
  | retire {s : SharedMem} {a b : Nat} {x : ShareMemBucket} {fileId : FileId} {i : Option Nat}
      {usage : Int} {infos : List (Option BucketActiveInfo)} (hx : s.buckets[b]? = some x)
      (htype : x.type = .active)
      (hinfos : Library.clearFirst (fun info => info.activeId = a) x.activeInfos = some infos)
      (hvacant : Library.vacant infos = true) :
      Moves (.retire a b) s
        ((s.updBucket b fun x => { x with
            type := .used, fileId := fileId, fileBlockIndex := i, usageCount := usage
            activeInfos := infos }).updHeader fun h =>
          { h with
            numActiveBuckets := dec32 h.numActiveBuckets
            numUsedBuckets := inc32 h.numUsedBuckets })
  | leaveFailed {s : SharedMem} {a b : Nat} {x : ShareMemBucket} {fileId : FileId}
      {i : Option Nat} {usage : Int} (hx : s.buckets[b]? = some x) (htype : x.type = .active)
      (hinfos : Library.clearFirst (fun info => info.activeId = a) x.activeInfos = none) :
      Moves (.leaveFailed a b) s
        (s.updBucket b fun x => { x with
          fileId := fileId, fileBlockIndex := i, usageCount := usage })
  | index {s : SharedMem} {b : Nat} {x : ShareMemBucket} {i : Option Nat}
      (hx : s.buckets[b]? = some x) :
      Moves (.index b) s (s.updBucket b fun x => { x with fileBlockIndex := i })
  | reset {s : SharedMem} {b : Nat} {x : ShareMemBucket} (hx : s.buckets[b]? = some x)
      (htype : x.type = .used) :
      Moves (.reset x.fileId b) s
        ((s.updBucket b fun _ => ShareMemBucket.blank).updHeader fun h =>
          { h with
            numUsedBuckets := dec32 h.numUsedBuckets
            numFreeBuckets := inc32 h.numFreeBuckets })
  | flag {s : SharedMem} {b : Nat} {x : ShareMemBucket} (hx : s.buckets[b]? = some x)
      (htype : x.type ≠ .used) (hevicting : x.evicting = true) :
      Moves (.flag x.fileId b) s (s.updBucket b fun x => { x with deleted := true })
  | resize {s : SharedMem} {a b bound : Nat} {x : ShareMemBucket} {size : ShareMemBucket → Nat}
      (hx : s.buckets[b]? = some x) (htype : x.type = .active) (hmine : x.hasActiveId a = true)
      (hsize : ∀ y, size y = y.dataSize ∨ size y ≤ bound) :
      Moves (.resize a b bound) s (s.updBucket b fun x => { x with dataSize := size x })

/-- The move leads from `P` to `Q`. -/
def Leads (P : SharedMem → Prop) (m : Move) (Q : SharedMem → Prop) : Prop :=
  ∀ s s', Moves m s s' → P s → Q s'

end SharedMem

open SharedMem (Moves Leads)

namespace SharedMemoryContext

variable {P Q R : SharedMem → Prop}

theorem bucketAt_keeps (b : Nat) : Keeps P (bucketAt b) := by
  intro s hs
  rw [run_bucketAt]
  cases s.buckets[b]? with
  | none => exact hs
  | some x => exact hs

theorem inRange_keeps (index : Option Nat) : Keeps P (inRange index) := by
  intro s hs
  cases index with
  | none => exact hs
  | some i => exact hs

theorem isFileOpening_keeps (fileId : FileId) : Keeps P (isFileOpening fileId) :=
  fun _ hs => hs

theorem getBucketDataSize_keeps (cfg : Config) (b : Option Nat) (fileId : FileId) (i : Nat) :
    Keeps P (getBucketDataSize cfg b fileId i) := by
  intro s hs
  rcases getBucketDataSize_cases cfg b fileId i s with ⟨e, hrun⟩ | ⟨j, x, -, -, -, -, hrun⟩
  · rw [hrun]
    exact hs
  · rw [hrun]
    exact hs

/-- A free bucket is acquired, or the acquisition throws at its mark table. -/
theorem acquireOne_cases {a b : Nat} {x : ShareMemBucket} {s : SharedMem} (fileId : FileId)
    (w : Bool) (hx : s.buckets[b]? = some x) (htype : x.type = .free) :
    (∃ s', acquireOne a fileId w b s = .ok () s' ∧ Moves (.take a b) s s') ∨
    (∃ e s', acquireOne a fileId w b s = .error e s' ∧ Moves (.takeFailed b) s s') := by
  let s₁ := s.updBucket b fun x => { x with type := .active, fileId := fileId }
  have hx₁ : s₁.buckets[b]? = some { x with type := .active, fileId := fileId } := by
    simp [s₁, hx]
  have hfirst : modifyBucket b (fun x => { x.setBucketActive with fileId := fileId }) s =
      .ok () s₁ := rfl
  cases hfill : Library.fillFirst (⟨w, a⟩ : BucketActiveInfo) x.activeInfos with
  | none =>
      obtain ⟨e, hmark⟩ := markBucket_full hx₁ hfill
      exact Or.inr ⟨e, s₁, by simp only [acquireOne, Library.run_bind, hfirst, hmark],
        .takeFailed hx htype hfill⟩
  | some infos =>
      have hrun : acquireOne a fileId w b s = .ok () ((s.updBucket b fun x => { x with
            type := .active, fileId := fileId, activeInfos := infos }).updHeader fun h => { h with
          numFreeBuckets := dec32 h.numFreeBuckets
          numActiveBuckets := inc32 h.numActiveBuckets }) := by
        simp only [acquireOne, Library.run_bind, hfirst, markBucket_some hx₁ hfill,
          run_modifyHeader, s₁, SharedMem.updBucket_updBucket]
      exact Or.inl ⟨_, hrun, .take hx htype hfill⟩

theorem acquireFreeBucket_loop_keeps {a : Nat} (htake : ∀ b, Leads P (.take a b) P)
    (hfailed : ∀ b, Leads P (.takeFailed b) P) (fileId : FileId) (w : Bool) (ids : List Nat)
    (count : Int) : Keeps P (acquireFreeBucket.loop a fileId w ids count) := by
  induction ids generalizing count with
  | nil => exact Keeps.pure
  | cons i rest ih =>
      intro s hs
      cases hx : s.buckets[i]? with
      | none => simpa [acquireFreeBucket.loop, hx] using hs
      | some x =>
          by_cases htype : x.type = .free
          · have hgo : acquireFreeBucket.loop a fileId w (i :: rest) count s = (do
                acquireOne a fileId w i
                if count - 1 = 0 then
                  pure ([i], count - 1)
                else
                  let found ← acquireFreeBucket.loop a fileId w rest (count - 1)
                  pure (i :: found.1, found.2)) s := by
              simp only [acquireFreeBucket.loop, Library.run_bind, run_bucketAt_some hx,
                ShareMemBucket.isFreeBucket, htype, decide_true, if_true]
            have hone : Spec (· = s) (acquireOne a fileId w i) (fun _ => P) (fun _ => P) := by
              rintro _ rfl
              rcases acquireOne_cases fileId w hx htype with
                ⟨s', hrun, hmove⟩ | ⟨e, s', hrun, hmove⟩
              · rw [hrun]
                exact htake i _ _ hmove hs
              · rw [hrun]
                exact hfailed i _ _ hmove hs
            rw [hgo]
            exact Spec.bind hone (fun _ => Keeps.ite Keeps.pure
              (Keeps.bind (ih _) fun _ => Keeps.pure)) s rfl
          · simpa [acquireFreeBucket.loop, hx, ShareMemBucket.isFreeBucket, htype] using
              ih count s hs

theorem acquireFreeBucket_keeps {a : Nat} (htake : ∀ b, Leads P (.take a b) P)
    (hfailed : ∀ b, Leads P (.takeFailed b) P) (num : Int) (fileId : FileId) (w : Bool) :
    Keeps P (acquireFreeBucket a num fileId w) := by
  refine Keeps.bind Keeps.get fun s => ?_
  refine Keeps.bind (acquireFreeBucket_loop_keeps htake hfailed _ _ _ _) fun result => ?_
  exact Keeps.ite (Keeps.bind Keeps.throw fun _ => Keeps.pure) Keeps.pure

/-! ## Evicting -/

end SharedMemoryContext

/-- The sweep may choose the bucket. -/
def ShareMemBucket.IsCandidate (x : ShareMemBucket) : Prop := x.type = .used ∧ x.evicting = false

instance (x : ShareMemBucket) : Decidable x.IsCandidate :=
  inferInstanceAs (Decidable (_ ∧ _))

namespace SharedMemoryContext

/-- The description of a victim. -/
def victimInfo (b : Nat) (x : ShareMemBucket) : BlockInfo :=
  ⟨x.fileId, x.fileBlockIndex, some b, invalidBlockOffset, x.dataSize, true⟩

/-- The victim is recorded in its bucket and in the slot of the evictor. -/
theorem startEviction_move {b : Nat} {x : ShareMemBucket} {s : SharedMem} (a : Nat)
    (hx : s.buckets[b]? = some x) (htype : x.type = .used) (hevicting : x.evicting = false) :
    ∃ s', startEviction a b x s = .ok (victimInfo b x) s' ∧ Moves (.evict a b) s s' :=
  ⟨_, rfl, .evict hx htype hevicting⟩

/-- The exception of a sweep that finds no victim. -/
def noVictim : GwError := .sharedMem
  "[SharedMemoryContext::acquireBlock] statistic incorrect, there should be used buckets"

/-- The segment after the hand moved on. -/
def handMoved (s : SharedMem) : SharedMem :=
  s.updHeader fun h => { h with
    nextVictimBucket :=
      if s.header.nextVictimBucket + 1 ≥ h.numBuckets then 0 else s.header.nextVictimBucket + 1 }

/-- One round of the sweep. -/
theorem sweep_succ {s : SharedMem} {x : ShareMemBucket} (a fuel tries : Nat)
    (hx : s.buckets[s.header.nextVictimBucket]? = some x) :
    sweep a (fuel + 1) tries s =
      if x.IsCandidate then
        if x.usageCount > 0 then
          sweep a fuel s.header.numBuckets ((handMoved s).updBucket s.header.nextVictimBucket
            fun y => { y with usageCount := y.usageCount - 1 })
        else startEviction a s.header.nextVictimBucket x (handMoved s)
      else if tries - 1 = 0 then .error noVictim (handMoved s)
      else sweep a fuel (tries - 1) (handMoved s) := by
  have hvictim : (x.isUsedBucket && !x.evicting) = decide x.IsCandidate := by
    rw [Bool.eq_iff_iff, decide_eq_true_iff]
    simp [ShareMemBucket.IsCandidate, ShareMemBucket.isUsedBucket]
  simp only [sweep, Library.run_bind, Library.run_get, run_bucketAt_some hx, run_modifyHeader,
    hvictim, decide_eq_true_eq]
  split
  · split
    · rfl
    · rfl
  · split
    · rfl
    · rfl

/-- The sweep moves the hand and takes usage from used buckets, until it finds a
victim or gives up. -/
theorem sweep_spec {a : Nat} {Q : BlockInfo → SharedMem → Prop} (hhand : Leads P .hand P)
    (hage : ∀ b, Leads P (.age b) P)
    (hevict : ∀ s s' b x, P s → s.buckets[b]? = some x → Moves (.evict a b) s s' →
      Q (victimInfo b x) s')
    (fuel tries : Nat) : Spec P (sweep a fuel tries) Q (fun _ => P) := by
  induction fuel generalizing tries with
  | zero => exact Spec.throw fun _ => id
  | succ fuel ih =>
      intro s hs
      have hs₁ : P (handMoved s) := hhand s _ .hand hs
      cases hx : s.buckets[s.header.nextVictimBucket]? with
      | none => simpa [sweep, hx] using hs
      | some x =>
          have hx₁ : (handMoved s).buckets[s.header.nextVictimBucket]? = some x := hx
          rw [sweep_succ a fuel tries hx]
          by_cases hvictim : x.IsCandidate
          · rw [if_pos hvictim]
            by_cases husage : x.usageCount > 0
            · rw [if_pos husage]
              exact ih _ _ (hage _ _ _ (.age hx₁ hvictim.1 hvictim.2) hs₁)
            · rw [if_neg husage]
              obtain ⟨s', hstart, hmove⟩ := startEviction_move a hx₁ hvictim.1 hvictim.2
              rw [hstart]
              exact hevict _ _ _ x hs₁ hx₁ hmove
          · rw [if_neg hvictim]
            by_cases htries : tries - 1 = 0
            · rw [if_pos htries]
              exact hs₁
            · rw [if_neg htries]
              exact ih _ _ hs₁

theorem markBucketEvicting_spec {a : Nat} {Q : BlockInfo → SharedMem → Prop}
    (hhand : Leads P .hand P) (hage : ∀ b, Leads P (.age b) P)
    (hevict : ∀ s s' b x, P s → s.buckets[b]? = some x → Moves (.evict a b) s s' →
      Q (victimInfo b x) s') :
    Spec P (markBucketEvicting a) Q (fun _ => P) := by
  intro s hs
  exact sweep_spec hhand hage hevict _ _ s hs

/-- The three ways in which an eviction ends. -/
theorem evictBucketFinish_cases (b : Option Nat) (a : Nat) (take : Nat → ShmM Unit)
    (s : SharedMem) :
    (∃ s', evictBucketFinish b a take s = .ok .stolen s' ∧ Moves (.endStolen a) s s') ∨
    (∃ e s', evictBucketFinish b a take s = .error e s' ∧ Moves (.endFailed a) s s') ∨
    (∃ i x slot, b = some i ∧ s.buckets[i]? = some x ∧ s.activeStatus[a]? = some slot ∧
      slot.stolen = false ∧ evictBucketFinish b a take s = (do
        take i
        return if x.deleted then .deleted else .finished : ShmM EvictResult)
          ((s.updSlot a SharedMem.endEviction).updBucket i fun _ => .blank)) := by
  let s₁ := s.updSlot a SharedMem.endEviction
  have hfirst : modifySlot a (fun slot => { slot with
      evictFileId := FileId.invalid, fileBlockIndex := none, evicting := false }) s =
      .ok () s₁ := rfl
  cases hslot : s.activeStatus[a]? with
  | none =>
      have hslot₁ : s₁.activeStatus[a]? = none := by simp [s₁, hslot]
      have hrun : evictBucketFinish b a take s = .error .undefined s₁ := by
        simp only [evictBucketFinish, Library.run_bind, hfirst, run_slotAt_none hslot₁]
      exact Or.inr (Or.inl ⟨.undefined, s₁, hrun, .endFailed⟩)
  | some slot =>
      have hslot₁ : s₁.activeStatus[a]? = some (SharedMem.endEviction slot) := by
        simp [s₁, hslot]
      cases hstolen : slot.stolen with
      | true =>
          have hrun : evictBucketFinish b a take s = .ok .stolen
              (s₁.updSlot a fun slot => { slot with stolen := false }) := by
            simp only [evictBucketFinish, Library.run_bind, hfirst, run_slotAt_some hslot₁,
              SharedMem.endEviction, hstolen, if_true, run_modifySlot, Library.run_pure]
          refine Or.inl ⟨_, hrun, ?_⟩
          simp only [s₁, SharedMem.updSlot_updSlot]
          exact .endStolen hslot hstolen
      | false =>
          have hgo : evictBucketFinish b a take s = (do
              let i ← inRange b
              let bucket ← bucketAt i
              modifyBucket i fun _ => .blank
              take i
              return if bucket.deleted then EvictResult.deleted else .finished) s₁ := by
            simp only [evictBucketFinish, Library.run_bind, hfirst, run_slotAt_some hslot₁,
              SharedMem.endEviction, hstolen, Bool.false_eq_true, if_false]
          rw [hgo]
          right
          cases b with
          | none => exact Or.inl ⟨.undefined, s₁, by simp, .endFailed⟩
          | some i =>
              cases hx : s.buckets[i]? with
              | none =>
                  have hx₁ : s₁.buckets[i]? = none := hx
                  exact Or.inl ⟨.undefined, s₁, by simp [hx₁], .endFailed⟩
              | some x =>
                  have hx₁ : s₁.buckets[i]? = some x := hx
                  refine Or.inr ⟨i, x, slot, rfl, hx, rfl, hstolen, ?_⟩
                  simp only [Library.run_bind, run_inRange_some, run_bucketAt_some hx₁,
                    run_modifyBucket, s₁]

theorem evictBucketFinishAndTryAcquire_cases (b : Option Nat) (a : Nat) (fileId : FileId)
    (w : Bool) (s : SharedMem) :
    (∃ s', evictBucketFinishAndTryAcquire b a fileId w s = .ok .stolen s' ∧
      Moves (.endStolen a) s s') ∨
    (∃ e s', evictBucketFinishAndTryAcquire b a fileId w s = .error e s' ∧
      Moves (.endFailed a) s s') ∨
    (∃ i x s', b = some i ∧ s.buckets[i]? = some x ∧
      evictBucketFinishAndTryAcquire b a fileId w s =
        .ok (if x.deleted then .deleted else .finished) s' ∧
      Moves (.endTake a i) s s' ∧ s'.buckets[i]? = some (ShareMemBucket.taken w a fileId)) := by
  rcases evictBucketFinish_cases b a (fun b => do
      modifyBucket b fun bucket => { bucket.setBucketActive with fileId := fileId }
      markBucket b w a
      modifyHeader fun h => { h with
        numEvictingBuckets := dec32 h.numEvictingBuckets
        numActiveBuckets := inc32 h.numActiveBuckets }) s with
    hstolen | hfailed | ⟨i, x, slot, rfl, hx, hslot, hstolen, hrun⟩
  · exact Or.inl hstolen
  · exact Or.inr (Or.inl hfailed)
  · have hmove := Moves.endTake w fileId hslot hstolen hx
    refine Or.inr (Or.inr ⟨i, x, _, rfl, hx, hrun.trans ?_, hmove, by simp [hx]⟩)
    let s₂ := (s.updSlot a SharedMem.endEviction).updBucket i fun _ =>
      { ShareMemBucket.blank with type := .active, fileId := fileId }
    have hx₂ : s₂.buckets[i]? = some { ShareMemBucket.blank with
        type := .active, fileId := fileId } := by
      simp [s₂, hx]
    have hset : modifyBucket i (fun bucket => { bucket.setBucketActive with fileId := fileId })
        ((s.updSlot a SharedMem.endEviction).updBucket i fun _ => .blank) = .ok () s₂ := by
      simp [s₂, ShareMemBucket.setBucketActive]
    have hfill : Library.fillFirst ⟨w, a⟩ ShareMemBucket.blank.activeInfos =
      some (ShareMemBucket.taken w a fileId).activeInfos := rfl
    simp only [Library.run_bind, hset, markBucket_some hx₂ hfill, run_modifyHeader,
      Library.run_pure, s₂, SharedMem.updBucket_updBucket]
    rfl

theorem evictBucketFinishAndTryAcquire_spec {b : Option Nat} {a : Nat}
    {Q : EvictResult → SharedMem → Prop}
    (hstolen : Leads P (.endStolen a) (Q .stolen)) (hfailed : Leads P (.endFailed a) R)
    (htake : ∀ i, b = some i → ∀ s s' x, s.buckets[i]? = some x → Moves (.endTake a i) s s' → P s →
      Q (if x.deleted then .deleted else .finished) s')
    (fileId : FileId) (w : Bool) :
    Spec P (evictBucketFinishAndTryAcquire b a fileId w) Q (fun _ => R) := by
  intro s hs
  rcases evictBucketFinishAndTryAcquire_cases b a fileId w s with
    ⟨s', hrun, hmove⟩ | ⟨e, s', hrun, hmove⟩ | ⟨i, x, s', hi, hx, hrun, hmove, -⟩
  · rw [hrun]
    exact hstolen s s' hmove hs
  · rw [hrun]
    exact hfailed s s' hmove hs
  · rw [hrun]
    exact htake i hi s s' x hx hmove hs

theorem evictBucketFinishAndTryFree_cases (b : Option Nat) (a : Nat) (s : SharedMem) :
    (∃ s', evictBucketFinishAndTryFree b a s = .ok .stolen s' ∧ Moves (.endStolen a) s s') ∨
    (∃ e s', evictBucketFinishAndTryFree b a s = .error e s' ∧ Moves (.endFailed a) s s') ∨
    (∃ i x s', b = some i ∧ s.buckets[i]? = some x ∧ evictBucketFinishAndTryFree b a s =
        .ok (if x.deleted then .deleted else .finished) s' ∧ Moves (.endFree a i) s s') := by
  rcases evictBucketFinish_cases b a (fun b => do
      modifyBucket b ShareMemBucket.setBucketFree
      modifyHeader fun h => { h with
        numEvictingBuckets := dec32 h.numEvictingBuckets
        numFreeBuckets := inc32 h.numFreeBuckets }) s with
    hstolen | hfailed | ⟨i, x, slot, rfl, hx, hslot, hstolen, hrun⟩
  · exact Or.inl hstolen
  · exact Or.inr (Or.inl hfailed)
  · refine Or.inr (Or.inr ⟨i, x, _, rfl, hx, hrun.trans ?_, .endFree hslot hstolen hx⟩)
    simp only [Library.run_bind, run_modifyBucket, run_modifyHeader, Library.run_pure,
      SharedMem.updBucket_updBucket]
    rfl

theorem evictBucketFinishAndTryFree_spec {b : Option Nat} {a : Nat}
    (hstolen : Leads P (.endStolen a) Q) (hfailed : Leads P (.endFailed a) Q)
    (hfree : ∀ i, b = some i → Leads P (.endFree a i) Q) :
    Spec P (evictBucketFinishAndTryFree b a) (fun _ => Q) (fun _ => Q) := by
  intro s hs
  rcases evictBucketFinishAndTryFree_cases b a s with
    ⟨s', hrun, hmove⟩ | ⟨e, s', hrun, hmove⟩ | ⟨i, x, s', hi, -, hrun, hmove⟩
  · rw [hrun]
    exact hstolen s s' hmove hs
  · rw [hrun]
    exact hfailed s s' hmove hs
  · rw [hrun]
    exact hfree i hi s s' hmove hs

/-! ## Loading and releasing -/

/-- A load is recorded in the bucket and in the slot of the loader, unless a slot
records the same load already. -/
theorem markBucketLoading_cases (b i a : Nat) (fileId : FileId) (s : SharedMem) :
    (s.activeStatus.any (slotLoads fileId i) = true ∧
      markBucketLoading b i a fileId s = .ok false s) ∨
    (s.activeStatus.any (slotLoads fileId i) = false ∧
      ∃ s', markBucketLoading b i a fileId s = .ok true s' ∧ Moves (.load a b) s s') := by
  cases hany : s.activeStatus.any (slotLoads fileId i) with
  | true =>
      refine Or.inl ⟨rfl, ?_⟩
      simp only [markBucketLoading, Library.run_bind, Library.run_get, hany, if_true,
        Library.run_pure]
  | false =>
      refine Or.inr ⟨rfl, _, ?_, .load hany⟩
      simp only [markBucketLoading, Library.run_bind, Library.run_get, hany, Bool.false_eq_true,
        if_false, run_modifyBucket, run_modifySlot, run_modifyHeader, Library.run_pure]
      rfl

theorem markLoadFinish_move (b a : Nat) (s : SharedMem) :
    ∃ s', markLoadFinish b a s = .ok () s' ∧ Moves (.loaded a b) s s' :=
  ⟨_, rfl, .loaded⟩

theorem releaseOne_cases (b : Nat) (s : SharedMem) :
    (∃ e, releaseOne b s = .error e s) ∨
    (∃ s', releaseOne b s = .ok () s' ∧ Moves (.release b) s s') := by
  cases hx : s.buckets[b]? with
  | none => exact Or.inl ⟨.undefined, by simp [releaseOne, hx]⟩
  | some x =>
      by_cases htype : x.type = .active
      · refine Or.inr ⟨_, ?_, .release hx htype⟩
        simp only [releaseOne, Library.run_bind, run_bucketAt_some hx,
          ShareMemBucket.isActiveBucket, decide_eq_true_eq, htype, if_true, run_modifyBucket,
          run_modifyHeader]
        rfl
      · exact Or.inl
          ⟨.sharedMem "[SharedMemoryContext::releaseBlock] state of bucket is not Active", by
          simp only [releaseOne, Library.run_bind, run_bucketAt_some hx,
            ShareMemBucket.isActiveBucket, decide_eq_true_eq, htype, if_false,
            Library.run_throw]⟩

theorem releaseBuckets_keeps {blocks : List Block}
    (hrelease : ∀ block ∈ blocks, ∀ b, block.bucketId = some b → Leads P (.release b) P) :
    Keeps P (releaseBuckets blocks) := by
  induction blocks with
  | nil => exact Keeps.pure
  | cons block rest ih =>
      have hrest := ih fun y hy => hrelease y (List.mem_cons_of_mem _ hy)
      cases hb : block.bucketId with
      | none =>
          intro s hs
          simpa [releaseBuckets, hb] using hs
      | some b =>
          have hone : Keeps P (releaseOne b) := by
            intro s hs
            rcases releaseOne_cases b s with ⟨e, hrun⟩ | ⟨s', hrun, hmove⟩
            · rw [hrun]
              exact hs
            · rw [hrun]
              exact hrelease block (List.mem_cons_self ..) b hb s s' hmove hs
          intro s hs
          have hgo : releaseBuckets (block :: rest) s = (do
              releaseOne b
              releaseBuckets rest) s := by
            simp only [releaseBuckets, Library.run_bind, hb, run_inRange_some]
          rw [hgo]
          exact Keeps.bind hone (fun _ => hrest) s hs

/-! ## Activating and inactivating -/

/-- The three successful activations, and the exceptions: nothing changed, or
the bucket was made active already. -/
theorem activateBucket_cases (fileId : FileId) (block : Block) (a : Nat) (w : Bool)
    (s : SharedMem) :
    (∃ e, activateBucket fileId block a w s = .error e s) ∨
    (∃ b x, block.bucketId = some b ∧ s.buckets[b]? = some x ∧ x.fileId = fileId ∧
      x.fileBlockIndex = block.blockId ∧
      ((∃ s', activateBucket fileId block a w s = .ok true s' ∧
          (Moves (.activate a b) s s' ∨ ∃ e, Moves (.steal a b e) s s')) ∨
        (∃ s', activateBucket fileId block a w s = .ok false s' ∧ Moves (.join a b) s s') ∨
        ∃ e s', activateBucket fileId block a w s = .error e s' ∧
          Moves (.activateFailed b) s s')) := by
  cases hb : block.bucketId with
  | none => exact Or.inl ⟨.undefined, by simp [activateBucket, hb]⟩
  | some b =>
  cases hx : s.buckets[b]? with
  | none => exact Or.inl ⟨.undefined, by simp [activateBucket, hb, hx]⟩
  | some x =>
  by_cases hmismatch : x.fileId ≠ fileId ∨ x.fileBlockIndex ≠ block.blockId
  · refine Or.inl ⟨.sharedMem "[SharedMemoryContext::activateBlock] File Id mismatch", ?_⟩
    simp only [activateBucket, Library.run_bind, hb, run_inRange_some, run_bucketAt_some hx,
      hmismatch, if_true, Library.run_throw]
  · have hmatch : x.fileId = fileId ∧ x.fileBlockIndex = block.blockId := by
      simpa only [not_or, not_not] using hmismatch
    cases htype : x.type with
    | free =>
        refine Or.inl ⟨.sharedMem "[SharedMemoryContext::activateBlock] Dead Zone, get out!", ?_⟩
        simp only [activateBucket, Library.run_bind, hb, run_inRange_some, run_bucketAt_some hx,
          hmismatch, if_false, ShareMemBucket.isUsedBucket, ShareMemBucket.isActiveBucket,
          decide_eq_true_eq, htype, reduceCtorEq, Library.run_throw]
    | active =>
        have hgo : activateBucket fileId block a w s = (do
            markBucket b w a
            return false) s := by
          simp only [activateBucket, Library.run_bind, hb, run_inRange_some, run_bucketAt_some hx,
            hmismatch, if_false, ShareMemBucket.isUsedBucket, ShareMemBucket.isActiveBucket,
            decide_eq_true_eq, htype, reduceCtorEq, if_true]
        cases hfill : Library.fillFirst (⟨w, a⟩ : BucketActiveInfo) x.activeInfos with
        | none =>
            obtain ⟨e, hmark⟩ := markBucket_full hx hfill
            exact Or.inl ⟨e, by rw [hgo, Library.run_bind, hmark]⟩
        | some infos =>
            refine Or.inr ⟨b, x, rfl, hx, hmatch.1, hmatch.2, Or.inr (Or.inl ⟨_, ?_,
              .join hx htype hfill⟩)⟩
            rw [hgo, Library.run_bind, markBucket_some hx hfill]
            rfl
    | used =>
        let s₁ := s.updBucket b fun x => { x with type := .active }
        have hx₁ : s₁.buckets[b]? = some { x with type := .active } := by
          simp [s₁, hx]
        have hgo : activateBucket fileId block a w s = (do
            markBucket b w a
            if x.evicting then
              stealBucket b
            else
              modifyHeader fun h => { h with
                numUsedBuckets := dec32 h.numUsedBuckets
                numActiveBuckets := inc32 h.numActiveBuckets }
            return true) s₁ := by
          simp only [activateBucket, Library.run_bind, hb, run_inRange_some, run_bucketAt_some hx,
            hmismatch, if_false, ShareMemBucket.isUsedBucket, decide_eq_true_eq, htype, if_true,
            run_modifyBucket]
          rfl
        right
        refine ⟨b, x, rfl, hx, hmatch.1, hmatch.2, ?_⟩
        cases hfill : Library.fillFirst (⟨w, a⟩ : BucketActiveInfo) x.activeInfos with
        | none =>
            obtain ⟨e, hmark⟩ := markBucket_full hx₁ hfill
            have hmove := Moves.activateFailed hx htype (Or.inl ⟨hfill, rfl⟩)
            refine Or.inr (Or.inr ⟨e, s₁, by rw [hgo, Library.run_bind, hmark], ?_⟩)
            rwa [SharedMem.updBucket_congr (fun x => { x with type := .active }) hx rfl] at hmove
        | some infos =>
            let s₂ := s.updBucket b fun x => { x with type := .active, activeInfos := infos }
            have hmark : markBucket b w a s₁ = .ok () s₂ := by
              rw [markBucket_some hx₁ hfill, SharedMem.updBucket_updBucket]
            cases hevicting : x.evicting with
            | false =>
                refine Or.inl ⟨_, ?_, Or.inl (.activate hx htype hevicting hfill)⟩
                rw [hgo]
                simp only [Library.run_bind, hmark, hevicting, Bool.false_eq_true, if_false,
                  run_modifyHeader, Library.run_pure]
                rfl
            | true =>
                have hx₂ : s₂.buckets[b]? =
                    some { x with type := .active, activeInfos := infos } := by
                  simp [s₂, hx]
                have hgo₂ : activateBucket fileId block a w s = (do
                    stealBucket b
                    return true) s₂ := by
                  rw [hgo]
                  simp only [Library.run_bind, hmark, hevicting, if_true]
                have hfailed : ∀ e, stealBucket b s₂ = .error e s₂ →
                    (∀ e slot, x.evictLoadActiveId = some e → s.activeStatus[e]? = some slot →
                      ¬ (slot.evictFileId = x.fileId ∧
                        slot.fileBlockIndex = x.fileBlockIndex)) →
                    ∃ e s', activateBucket fileId block a w s = .error e s' ∧
                      Moves (.activateFailed b) s s' := by
                  intro e hsteal hno
                  exact ⟨e, s₂, by rw [hgo₂, Library.run_bind, hsteal],
                    .activateFailed hx htype (Or.inr ⟨hfill, hevicting, hno⟩)⟩
                cases hevictor : x.evictLoadActiveId with
                | none =>
                    refine Or.inr (Or.inr (hfailed .undefined ?_ ?_))
                    · simp only [stealBucket, Library.run_bind, run_bucketAt_some hx₂, hevictor,
                        run_inRange_none]
                    · intro e slot he
                      rw [hevictor] at he
                      cases he
                | some e =>
                cases hslot : s.activeStatus[e]? with
                | none =>
                    have hslot₂ : s₂.activeStatus[e]? = none := hslot
                    refine Or.inr (Or.inr (hfailed .undefined ?_ ?_))
                    · simp only [stealBucket, Library.run_bind, run_bucketAt_some hx₂, hevictor,
                        run_inRange_some, run_slotAt_none hslot₂]
                    · intro e' slot he hslot'
                      obtain rfl := Option.some.inj (hevictor.symm.trans he)
                      rw [hslot] at hslot'
                      cases hslot'
                | some slot =>
                    have hslot₂ : s₂.activeStatus[e]? = some slot := hslot
                    by_cases hrecord : slot.evictFileId = x.fileId ∧
                        slot.fileBlockIndex = x.fileBlockIndex
                    · refine Or.inl ⟨_, ?_, Or.inr ⟨e, .steal hx htype hevicting hfill hevictor
                        hslot hrecord.1 hrecord.2⟩⟩
                      rw [hgo₂]
                      simp only [stealBucket, Library.run_bind, run_bucketAt_some hx₂, hevictor,
                        run_inRange_some, run_slotAt_some hslot₂, hrecord, and_self, if_true,
                        run_modifySlot, run_modifyHeader, Library.run_pure]
                      rfl
                    · refine Or.inr (Or.inr (hfailed (.sharedMem
                        "[activateBucket] The activeStatus is not evicting file block") ?_ ?_))
                      · simp only [stealBucket, Library.run_bind, run_bucketAt_some hx₂, hevictor,
                          run_inRange_some, run_slotAt_some hslot₂, hrecord, if_false,
                          Library.run_throw]
                      · intro e' slot' he hslot'
                        obtain rfl := Option.some.inj (hevictor.symm.trans he)
                        obtain rfl := Option.some.inj (hslot.symm.trans hslot')
                        exact hrecord

theorem activateBucket_spec {block : Block} {a : Nat}
    (hactivate : ∀ b, block.bucketId = some b → Leads P (.activate a b) Q)
    (hsteal : ∀ b e, block.bucketId = some b → Leads P (.steal a b e) Q)
    (hjoin : ∀ b, block.bucketId = some b → Leads P (.join a b) Q)
    (hfailed : ∀ b, block.bucketId = some b → Leads P (.activateFailed b) Q)
    (hsame : ∀ s, P s → Q s) (fileId : FileId) (w : Bool) :
    Spec P (activateBucket fileId block a w) (fun _ => Q) (fun _ => Q) := by
  intro s hs
  rcases activateBucket_cases fileId block a w s with
    ⟨e, hrun⟩ | ⟨b, x, hb, -, -, -, hcases⟩
  · rw [hrun]
    exact hsame s hs
  · rcases hcases with ⟨s', hrun, hmove | ⟨e, hmove⟩⟩ | ⟨s', hrun, hmove⟩ | ⟨e, s', hrun, hmove⟩
    · rw [hrun]
      exact hactivate b hb s s' hmove hs
    · rw [hrun]
      exact hsteal b e hb s s' hmove hs
    · rw [hrun]
      exact hjoin b hb s s' hmove hs
    · rw [hrun]
      exact hfailed b hb s s' hmove hs

/-- A block is inactivated: its mark is removed and its bucket turns used when no
mark is left. An exception changes nothing or leaves the bucket relabelled. -/
theorem inactivateOne_cases (block : Block) (fileId : FileId) (a : Nat) (s : SharedMem) :
    (∃ e, inactivateOne block fileId a s = .error e s) ∨
    (∃ b x, block.bucketId = some b ∧ s.buckets[b]? = some x ∧ x.type = .active ∧
      ((∃ e s', inactivateOne block fileId a s = .error e s' ∧ Moves (.leaveFailed a b) s s') ∨
      ∃ infos usage, Library.clearFirst (fun info => info.activeId = a) x.activeInfos = some infos ∧
        ((∃ s', Library.vacant infos = false ∧ inactivateOne block fileId a s = .ok false s' ∧
            Moves (.leave a b) s s' ∧ s' = s.updBucket b fun x => { x with
              fileId := fileId, fileBlockIndex := block.blockId, usageCount := usage
              activeInfos := infos }) ∨
          ∃ s', Library.vacant infos = true ∧ inactivateOne block fileId a s = .ok true s' ∧
            Moves (.retire a b) s s' ∧ s'.activeStatus = s.activeStatus ∧
            s'.buckets = (s.updBucket b fun x => { x with
              type := .used, fileId := fileId, fileBlockIndex := block.blockId
              usageCount := usage, activeInfos := infos }).buckets))) := by
  cases hb : block.bucketId with
  | none => exact Or.inl ⟨.undefined, by simp [inactivateOne, hb]⟩
  | some b =>
  cases hx : s.buckets[b]? with
  | none => exact Or.inl ⟨.undefined, by simp [inactivateOne, hb, hx]⟩
  | some x =>
  by_cases htype : x.type = .active
  · right
    refine ⟨b, x, rfl, hx, htype, ?_⟩
    let usage := wrap16 (x.usageCount + block.usageCount)
    let s₁ := s.updBucket b fun x => { x with
      fileId := fileId, fileBlockIndex := block.blockId, usageCount := usage }
    have hx₁ : s₁.buckets[b]? = some { x with
        fileId := fileId, fileBlockIndex := block.blockId, usageCount := usage } := by
      simp [s₁, hx]
    have hset : modifyBucket b (fun x => { x with
        fileId := fileId, fileBlockIndex := block.blockId
        usageCount := wrap16 (x.usageCount + block.usageCount) }) s = .ok () s₁ :=
      congrArg (EStateM.Result.ok ()) (SharedMem.updBucket_congr _ hx rfl)
    have hgo : inactivateOne block fileId a s = (do
        unmarkBucket b a
        let bucket ← bucketAt b
        if bucket.noActiveReadWrite then
          modifyBucket b ShareMemBucket.setBucketUsed
          modifyHeader fun h => { h with
            numActiveBuckets := dec32 h.numActiveBuckets
            numUsedBuckets := inc32 h.numUsedBuckets }
          return true
        else
          return false) s₁ := by
      simp only [inactivateOne, Library.run_bind, hb, run_inRange_some, run_bucketAt_some hx,
        ShareMemBucket.isActiveBucket, decide_eq_true_eq, htype, if_true, hset]
    cases hclear : Library.clearFirst (fun info => decide (info.activeId = a)) x.activeInfos with
    | none =>
        obtain ⟨e, hunmark⟩ := unmarkBucket_none (a := a) hx₁ hclear
        exact Or.inl ⟨e, s₁, by rw [hgo, Library.run_bind, hunmark],
          .leaveFailed hx htype hclear⟩
    | some infos =>
        right
        refine ⟨infos, usage, rfl, ?_⟩
        let s₂ := s.updBucket b fun x => { x with
          fileId := fileId, fileBlockIndex := block.blockId, usageCount := usage
          activeInfos := infos }
        have hunmark : unmarkBucket b a s₁ = .ok () s₂ := by
          rw [unmarkBucket_some hx₁ hclear, SharedMem.updBucket_updBucket]
        have hx₂ : s₂.buckets[b]? = some { x with
            fileId := fileId, fileBlockIndex := block.blockId, usageCount := usage
            activeInfos := infos } := by
          simp [s₂, hx]
        cases hvacant : Library.vacant infos with
        | false =>
            refine Or.inl ⟨s₂, rfl, ?_, .leave hx htype hclear hvacant, rfl⟩
            rw [hgo]
            simp only [Library.run_bind, hunmark, run_bucketAt_some hx₂]
            rw [if_neg (by simp [ShareMemBucket.noActiveReadWrite, hvacant]), Library.run_pure]
        | true =>
            refine Or.inr ⟨_, rfl, ?_, .retire hx htype hclear hvacant, rfl, rfl⟩
            rw [hgo]
            simp only [Library.run_bind, hunmark, run_bucketAt_some hx₂]
            rw [if_pos (by simp [ShareMemBucket.noActiveReadWrite, hvacant])]
            simp only [Library.run_bind, run_modifyBucket, run_modifyHeader, Library.run_pure, s₂,
              SharedMem.updBucket_updBucket]
            rfl
  · refine Or.inl ⟨.sharedMem
      "[SharedMemoryContext] state of bucket is not Active when trying to release block", ?_⟩
    simp only [inactivateOne, Library.run_bind, hb, run_inRange_some, run_bucketAt_some hx,
      ShareMemBucket.isActiveBucket, decide_eq_true_eq, htype, if_false, Library.run_throw]

theorem inactivateBuckets_keeps {a : Nat} {blocks : List Block}
    (hleave : ∀ block ∈ blocks, ∀ b, block.bucketId = some b → Leads P (.leave a b) P)
    (hretire : ∀ block ∈ blocks, ∀ b, block.bucketId = some b → Leads P (.retire a b) P)
    (hfailed : ∀ block ∈ blocks, ∀ b, block.bucketId = some b → Leads P (.leaveFailed a b) P)
    (fileId : FileId) : Keeps P (inactivateBuckets fileId a blocks) := by
  induction blocks with
  | nil => exact Keeps.pure
  | cons block rest ih =>
      have hmem : block ∈ block :: rest := List.mem_cons_self
      have hone : Keeps P (inactivateOne block fileId a) := by
        intro s hs
        rcases inactivateOne_cases block fileId a s with ⟨e, hrun⟩ | ⟨b, x, hb, -, -, hcases⟩
        · rw [hrun]
          exact hs
        · rcases hcases with ⟨e, s', hrun, hmove⟩ | ⟨infos, usage, -, hcases⟩
          · rw [hrun]
            exact hfailed block hmem b hb s s' hmove hs
          · rcases hcases with ⟨s', -, hrun, hmove, -⟩ | ⟨s', -, hrun, hmove, -⟩
            · rw [hrun]
              exact hleave block hmem b hb s s' hmove hs
            · rw [hrun]
              exact hretire block hmem b hb s s' hmove hs
      have hrest := ih (fun y hy => hleave y (List.mem_cons_of_mem _ hy))
        (fun y hy => hretire y (List.mem_cons_of_mem _ hy))
        fun y hy => hfailed y (List.mem_cons_of_mem _ hy)
      exact Keeps.bind hone fun turned => Keeps.bind hrest fun _ => Keeps.pure

/-! ## Extending, deleting and data sizes -/

theorem updateActiveFileInfo_cases (block : Block) (fileId : FileId) (s : SharedMem) :
    (∃ e, updateActiveFileInfo block fileId s = .error e s) ∨
    (∃ b x s', block.bucketId = some b ∧ s.buckets[b]? = some x ∧ x.fileId = fileId ∧
      updateActiveFileInfo block fileId s = .ok () s' ∧ Moves (.index b) s s' ∧
      s' = s.updBucket b fun x => { x with fileBlockIndex := block.blockId }) := by
  cases hb : block.bucketId with
  | none => exact Or.inl ⟨.undefined, by simp [updateActiveFileInfo, hb]⟩
  | some b =>
  cases hx : s.buckets[b]? with
  | none => exact Or.inl ⟨.undefined, by simp [updateActiveFileInfo, hb, hx]⟩
  | some x =>
      by_cases hfile : x.fileId = fileId
      · refine Or.inr ⟨b, x, _, rfl, hx, hfile, ?_, .index hx, rfl⟩
        simp only [updateActiveFileInfo, Library.run_bind, hb, run_inRange_some,
          run_bucketAt_some hx, hfile, if_true, run_modifyBucket]
      · refine Or.inl ⟨.sharedMem "[SharedMemoryContext] FileId mismatch", ?_⟩
        simp only [updateActiveFileInfo, Library.run_bind, hb, run_inRange_some,
          run_bucketAt_some hx, hfile, if_false, Library.run_throw]

theorem updateActiveFileInfo_spec {block : Block}
    (hindex : ∀ b, block.bucketId = some b → Leads P (.index b) Q) (hsame : ∀ s, P s → Q s)
    (fileId : FileId) :
    Spec P (updateActiveFileInfo block fileId) (fun _ => Q) (fun _ => Q) := by
  intro s hs
  rcases updateActiveFileInfo_cases block fileId s with ⟨e, hrun⟩ | ⟨b, x, s', hb, -, -, hrun,
    hmove, -⟩
  · rw [hrun]
    exact hsame s hs
  · rw [hrun]
    exact hindex b hb s s' hmove hs

/-- A used bucket is reset, even one that is being evicted; another bucket of the
file that carries the evicting bit is flagged. -/
theorem deleteOne_cases (block : Block) (fileId : FileId) (s : SharedMem) :
    (∃ e, deleteOne block fileId s = .error e s) ∨
    (∃ b x s', block.bucketId = some b ∧ s.buckets[b]? = some x ∧ x.fileId = fileId ∧
      deleteOne block fileId s = .ok () s' ∧
      (Moves (.reset fileId b) s s' ∨ Moves (.flag fileId b) s s')) := by
  cases hb : block.bucketId with
  | none => exact Or.inl ⟨.undefined, by simp [deleteOne, hb]⟩
  | some b =>
  cases hx : s.buckets[b]? with
  | none => exact Or.inl ⟨.undefined, by simp [deleteOne, hb, hx]⟩
  | some x =>
      by_cases hused : x.type = .used ∧ x.fileId = fileId
      · obtain ⟨htype, rfl⟩ := hused
        refine Or.inr ⟨b, x, _, rfl, hx, rfl, ?_, Or.inl (.reset hx htype)⟩
        simp only [deleteOne, Library.run_bind, hb, run_inRange_some, run_bucketAt_some hx,
          ShareMemBucket.isUsedBucket, decide_eq_true_eq, htype, and_self, if_true,
          run_modifyBucket, run_modifyHeader]
        rfl
      · by_cases hevicting : x.evicting = true ∧ x.fileId = fileId
        · obtain ⟨hbit, rfl⟩ := hevicting
          have hnot : x.type ≠ .used := fun h => hused ⟨h, rfl⟩
          refine Or.inr ⟨b, x, _, rfl, hx, rfl, ?_, Or.inr (.flag hx hnot hbit)⟩
          simp only [deleteOne, Library.run_bind, hb, run_inRange_some, run_bucketAt_some hx,
            ShareMemBucket.isUsedBucket, decide_eq_true_eq, hnot, false_and, if_false, hbit,
            and_self, if_true, run_modifyBucket]
          rfl
        · refine Or.inl ⟨.sharedMem "[SharedMemoryContext] Bucket status mismatch!", ?_⟩
          simp only [deleteOne, Library.run_bind, hb, run_inRange_some, run_bucketAt_some hx,
            ShareMemBucket.isUsedBucket, decide_eq_true_eq, hused, hevicting, if_false,
            Library.run_throw]

theorem deleteBlocks_keeps {fileId : FileId} {blocks : List Block}
    (hreset : ∀ block ∈ blocks, ∀ b, block.bucketId = some b → Leads P (.reset fileId b) P)
    (hflag : ∀ block ∈ blocks, ∀ b, block.bucketId = some b → Leads P (.flag fileId b) P) :
    Keeps P (deleteBlocks fileId blocks) := by
  induction blocks with
  | nil => exact Keeps.pure
  | cons block rest ih =>
      have hmem : block ∈ block :: rest := List.mem_cons_self
      have hone : Keeps P (deleteOne block fileId) := by
        intro s hs
        rcases deleteOne_cases block fileId s with
          ⟨e, hrun⟩ | ⟨b, x, s', hb, -, -, hrun, hmove | hmove⟩
        · rw [hrun]
          exact hs
        · rw [hrun]
          exact hreset block hmem b hb s s' hmove hs
        · rw [hrun]
          exact hflag block hmem b hb s s' hmove hs
      have hrest := ih (fun y hy => hreset y (List.mem_cons_of_mem _ hy))
        fun y hy => hflag y (List.mem_cons_of_mem _ hy)
      exact Keeps.bind hone fun _ => hrest

theorem updateBucketDataSize_keeps {cfg : Config} {a : Nat}
    (hresize : ∀ b, Leads P (.resize a b cfg.localBucketSize) P) (b : Option Nat) (size : Int)
    (fileId : FileId) : Keeps P (updateBucketDataSize cfg b size fileId a) := by
  intro s hs
  rcases updateBucketDataSize_cases cfg b size fileId a s with
    ⟨e, hrun⟩ | ⟨i, x, -, hx, -, htype, hmine, hle, hrun⟩
  · rw [hrun]
    exact hs
  · rw [hrun]
    refine hresize i _ _ (.resize hx htype hmine fun y => ?_) hs
    by_cases hlt : (y.dataSize : Int) < size
    · right
      rw [if_pos hlt]
      omega
    · left
      rw [if_neg hlt]

end SharedMemoryContext

end Gopherwood
