/-
# The policy of the quota

Step 1 of `acquireNewBlocks` decides how many blocks a handle gives up and how many
buckets it asks for. With a quota of at least one nothing in its `uint32_t`
arithmetic wraps around, and what it asks for fits the quota together with what the
handle keeps. Three exceptions of the code report that a quota was broken.
-/

import Gopherwood.File.Handles
import Gopherwood.Library.Execution

namespace Gopherwood

namespace FileActiveStatus

/-- Step 1 of `acquireNewBlocks` in the arithmetic of `uint32_t`. -/
def acquirePolicy32 (newQuota numAcquired numFree numUsed lruSize : UInt32) :
    Except GwError (UInt32 × UInt32) :=
  let preAllocate := UInt32.ofNat preAllocateBucketNum
  let numAvailable := numFree + numUsed
  if numAcquired < newQuota then
    if numAvailable > 0 then
      let tmpAcquire := newQuota - numAcquired
      let tmpAcquire := if tmpAcquire > preAllocate then preAllocate else tmpAcquire
      let numToAcquire := if numAvailable > tmpAcquire then tmpAcquire else numAvailable
      let numToInactivate :=
        if numAcquired + numToAcquire > newQuota then numAcquired + numToAcquire - newQuota else 0
      .ok (numToInactivate, numToAcquire)
    else if lruSize = 0 then .error allLoading
    else .ok (1, 1)
  else if numAcquired = newQuota then
    if lruSize = 0 then .error allLoading
    else if numFree > 0 then
      let tmpAcquire := if newQuota > preAllocate then preAllocate else newQuota
      let numToAcquire := if numFree > tmpAcquire then tmpAcquire else numFree
      let numToAcquire := if numToAcquire > lruSize then lruSize else numToAcquire
      .ok (numToAcquire, numToAcquire)
    else .ok (1, 1)
  else if numAcquired - newQuota + 1 > lruSize then .error allLoading
  else .ok (numAcquired - newQuota + 1, 1)

/-- The values of a policy as numbers. -/
def policyValues (policy : Except GwError (UInt32 × UInt32)) : Except GwError (Nat × Nat) :=
  policy.map fun p => (p.1.toNat, p.2.toNat)

/-- With a quota of at least one, nothing in the policy wraps around: the machine
computes what the numbers say. -/
theorem policyValues_acquirePolicy32 {newQuota : UInt32} (hquota : 1 ≤ newQuota.toNat)
    (numAcquired numFree numUsed lruSize : UInt32) :
    policyValues (acquirePolicy32 newQuota numAcquired numFree numUsed lruSize) =
      acquirePolicy newQuota.toNat numAcquired.toNat numFree.toNat numUsed.toNat
        lruSize.toNat := by
  have hmin : ∀ a b : UInt32, (if a > b then b else a).toNat = min a.toNat b.toNat := by
    intro a b
    split
    · next h =>
        have := UInt32.lt_iff_toNat_lt.mp h
        omega
    · next h =>
        have := mt UInt32.lt_iff_toNat_lt.mpr h
        omega
  have hpre : (UInt32.ofNat preAllocateBucketNum).toNat = preAllocateBucketNum := rfl
  have havail : (numFree + numUsed).toNat = (numFree.toNat + numUsed.toNat) % 2 ^ 32 :=
    UInt32.toNat_add _ _
  have hzero : ∀ a : UInt32, a = 0 ↔ a.toNat = 0 := by
    intro a
    rw [← UInt32.toNat_inj]
    rfl
  have hpos : ∀ a : UInt32, a > 0 ↔ a.toNat > 0 := fun a => UInt32.lt_iff_toNat_lt
  unfold acquirePolicy32 acquirePolicy
  dsimp only
  rw [← havail]
  by_cases hless : numAcquired < newQuota
  · have hless' := UInt32.lt_iff_toNat_lt.mp hless
    rw [if_pos hless, if_pos hless']
    by_cases hany : numFree + numUsed > 0
    · rw [if_pos hany, if_pos ((hpos _).mp hany)]
      have hsub : (newQuota - numAcquired).toNat = newQuota.toNat - numAcquired.toNat :=
        UInt32.toNat_sub_of_le _ _ (UInt32.le_iff_toNat_le.mpr (Nat.le_of_lt hless'))
      have htmp := hmin (newQuota - numAcquired) (UInt32.ofNat preAllocateBucketNum)
      rw [hsub, hpre] at htmp
      generalize (if newQuota - numAcquired > UInt32.ofNat preAllocateBucketNum then
        UInt32.ofNat preAllocateBucketNum else newQuota - numAcquired) = tmp at htmp ⊢
      have hnum := hmin (numFree + numUsed) tmp
      rw [htmp] at hnum
      generalize (if numFree + numUsed > tmp then tmp else numFree + numUsed) = num at hnum ⊢
      -- what is acquired and asked for stays within the quota
      have hfits : (numAcquired + num).toNat = numAcquired.toNat + num.toNat := by
        rw [UInt32.toNat_add]
        have := newQuota.toNat_lt
        omega
      have hnone : ¬ numAcquired + num > newQuota := by
        intro h
        have := UInt32.lt_iff_toNat_lt.mp h
        omega
      have hnone' : numAcquired.toNat + num.toNat - newQuota.toNat = 0 := by omega
      rw [if_neg hnone]
      simp only [policyValues, Except.map, ← hnum, hnone']
      rfl
    · rw [if_neg hany, if_neg (mt (hpos _).mpr hany)]
      by_cases hlru : lruSize = 0
      · rw [if_pos hlru, if_pos ((hzero _).mp hlru)]
        rfl
      · rw [if_neg hlru, if_neg (mt (hzero _).mpr hlru)]
        rfl
  · have hless' := mt UInt32.lt_iff_toNat_lt.mpr hless
    rw [if_neg hless, if_neg hless']
    by_cases hequal : numAcquired = newQuota
    · have hequal' : numAcquired.toNat = newQuota.toNat := congrArg UInt32.toNat hequal
      rw [if_pos hequal, if_pos hequal']
      by_cases hlru : lruSize = 0
      · rw [if_pos hlru, if_pos ((hzero _).mp hlru)]
        rfl
      · rw [if_neg hlru, if_neg (mt (hzero _).mpr hlru)]
        by_cases hfree : numFree > 0
        · rw [if_pos hfree, if_pos ((hpos _).mp hfree)]
          simp only [policyValues, Except.map, hmin, hpre]
        · rw [if_neg hfree, if_neg (mt (hpos _).mpr hfree)]
          rfl
    · have hequal' : numAcquired.toNat ≠ newQuota.toNat := fun h => hequal (UInt32.toNat_inj.mp h)
      rw [if_neg hequal, if_neg hequal']
      have hsub : (numAcquired - newQuota).toNat = numAcquired.toNat - newQuota.toNat :=
        UInt32.toNat_sub_of_le _ _ (UInt32.le_iff_toNat_le.mpr (by omega))
      have hexcess : (numAcquired - newQuota + 1).toNat =
          numAcquired.toNat - newQuota.toNat + 1 := by
        rw [UInt32.toNat_add, hsub, show (1 : UInt32).toNat = 1 from rfl]
        have := numAcquired.toNat_lt
        omega
      have hmore : numAcquired - newQuota + 1 > lruSize ↔
          numAcquired.toNat - newQuota.toNat + 1 > lruSize.toNat := by
        rw [← hexcess]
        exact UInt32.lt_iff_toNat_lt
      by_cases hlru : numAcquired - newQuota + 1 > lruSize
      · rw [if_pos hlru, if_pos (hmore.mp hlru)]
        rfl
      · rw [if_neg hlru, if_neg (mt hmore.mpr hlru)]
        simp only [policyValues, Except.map, hexcess]
        rfl

/-- A quota of at least one, as a `uint32_t`. -/
def IsQuota (newQuota : Nat) : Prop := 1 ≤ newQuota ∧ newQuota < 2 ^ 32

instance (newQuota : Nat) : Decidable (IsQuota newQuota) :=
  inferInstanceAs (Decidable (1 ≤ newQuota ∧ newQuota < 2 ^ 32))

/-- What the policy promises: it gives up no more blocks than the cache has, asks
for at least one bucket, and stays within the new quota. -/
theorem acquirePolicy_bounds {newQuota numAcquired numFree numUsed lruSize i q : Nat}
    (hquota : 1 ≤ newQuota) (hlru : lruSize ≤ numAcquired)
    (hpolicy : acquirePolicy newQuota numAcquired numFree numUsed lruSize = .ok (i, q)) :
    i ≤ lruSize ∧ 1 ≤ q ∧ numAcquired + q ≤ newQuota + i ∧ lruSize ≤ newQuota + i := by
  unfold acquirePolicy at hpolicy
  dsimp only at hpolicy
  have hpre : preAllocateBucketNum = 4 := rfl
  split at hpolicy
  · split at hpolicy
    · simp only [Except.ok.injEq, Prod.mk.injEq] at hpolicy
      omega
    · split at hpolicy
      · cases hpolicy
      · simp only [Except.ok.injEq, Prod.mk.injEq] at hpolicy
        omega
  · split at hpolicy
    · split at hpolicy
      · cases hpolicy
      · split at hpolicy
        · simp only [Except.ok.injEq, Prod.mk.injEq] at hpolicy
          omega
        · simp only [Except.ok.injEq, Prod.mk.injEq] at hpolicy
          omega
    · split at hpolicy
      · cases hpolicy
      · simp only [Except.ok.injEq, Prod.mk.injEq] at hpolicy
        omega

/-- The policy fails only when every bucket is used for a load. -/
theorem acquirePolicy_error {newQuota numAcquired numFree numUsed lruSize : Nat} {e : GwError}
    (hpolicy : acquirePolicy newQuota numAcquired numFree numUsed lruSize = .error e) :
    e = allLoading := by
  unfold acquirePolicy at hpolicy
  dsimp only at hpolicy
  split at hpolicy
  · split at hpolicy
    · cases hpolicy
    · split at hpolicy
      · exact (Except.error.inj hpolicy).symm
      · cases hpolicy
  · split at hpolicy
    · split at hpolicy
      · exact (Except.error.inj hpolicy).symm
      · split at hpolicy
        · cases hpolicy
        · cases hpolicy
    · split at hpolicy
      · exact (Except.error.inj hpolicy).symm
      · cases hpolicy

def overflowError : GwError := .internal "We should have inactivated these blocks!"
def noPreAllocated : GwError := .internal "[ActiveStatus] PreAllocatedBuckets should not be 0!"
def exceedsQuota : GwError := .internal "[ActiveStatus] Current quoto exceed max quota size!"

/-- Every exception but the three that report a broken quota. -/
def Tame (e : GwError) : Prop := e ≠ overflowError ∧ e ≠ noPreAllocated ∧ e ≠ exceedsQuota

instance (e : GwError) : Decidable (Tame e) :=
  inferInstanceAs (Decidable (e ≠ overflowError ∧ e ≠ noPreAllocated ∧ e ≠ exceedsQuota))

end FileActiveStatus

end Gopherwood
