/-
# The clock sweep

The sweep has no bound in the source: every unit of usage that it takes from a
bucket starts the count of tries anew. It is specified by the number of moves that
the hand needs to come to a bucket without usage. Each move brings every candidate
one nearer, so the candidate that is nearest at the beginning is the victim.
-/

import Gopherwood.Library.Ring
import Gopherwood.Segment.Moves
import Mathlib.Algebra.Order.BigOperators.Group.List
import Mathlib.Algebra.Order.Group.Nat
import Mathlib.Data.Nat.Find

namespace Gopherwood

open Library.Ring

namespace ShareMemBucket

/-- The bucket after the hand passed it `k` times. -/
def worn (k : Nat) (x : ShareMemBucket) : ShareMemBucket :=
  if x.IsCandidate then { x with usageCount := x.usageCount - k } else x

theorem isCandidate_worn (k : Nat) (x : ShareMemBucket) :
    (x.worn k).IsCandidate ↔ x.IsCandidate := by
  unfold worn
  split
  · exact Iff.rfl
  · exact Iff.rfl

@[simp]
theorem worn_zero (x : ShareMemBucket) : x.worn 0 = x := by
  unfold worn
  split
  · simp
  · rfl

theorem worn_worn (j k : Nat) (x : ShareMemBucket) : (x.worn j).worn k = x.worn (k + j) := by
  by_cases hx : x.IsCandidate
  · have hj : (x.worn j).IsCandidate := (isCandidate_worn j x).mpr hx
    rw [worn, if_pos hj, worn, worn, if_pos hx, if_pos hx]
    congr 1
    dsimp only
    omega
  · have hj : ¬ (x.worn j).IsCandidate := mt (isCandidate_worn j x).mp hx
    rw [worn, if_neg hj, worn, worn, if_neg hx, if_neg hx]

end ShareMemBucket

namespace SharedMem

/-- The table has the buckets that the header counts, at least one, and the hand
points into it. -/
structure HasClock (s : SharedMem) : Prop where
  length : s.buckets.length = s.header.numBuckets
  nonempty : 1 ≤ s.header.numBuckets
  hand : s.header.nextVictimBucket < s.header.numBuckets

/-- How far bucket `i` is ahead of the hand. -/
def ahead (s : SharedMem) (i : Nat) : Nat :=
  distance s.header.numBuckets s.header.nextVictimBucket i

/-- The order of the candidates: by usage, then by the distance from the hand. -/
def rank (s : SharedMem) (i : Nat) (x : ShareMemBucket) : Nat ×ₗ Nat :=
  toLex (x.usageCount.toNat, s.ahead i)

/-- The moves of the hand until it finds bucket `i` without usage. -/
def moves (s : SharedMem) (i : Nat) (x : ShareMemBucket) : Nat :=
  x.usageCount.toNat * s.header.numBuckets + s.ahead i

/-- How often the hand passes bucket `i` in `t` moves. -/
def passed (s : SharedMem) (t i : Nat) : Nat :=
  passes s.header.numBuckets s.header.nextVictimBucket t i

/-- The candidate of the least rank. -/
structure IsVictim (s : SharedMem) (v : Nat) (x : ShareMemBucket) : Prop where
  bucket : s.buckets[v]? = some x
  candidate : x.IsCandidate
  least : ∀ (i : Nat) (y : ShareMemBucket), s.buckets[i]? = some y → y.IsCandidate →
    s.rank v x ≤ s.rank i y

/-- The segment after handle `a` marked bucket `v` for eviction. Other candidates lost
usage, as often as the hand passed them on its way, and never below zero. -/
structure Evicted (a : Nat) (s s' : SharedMem) (v : Nat) (x : ShareMemBucket) : Prop where
  length : s'.buckets.length = s.buckets.length
  victim : s'.buckets[v]? = some { x with
    usageCount := min x.usageCount 0, evicting := true, evictLoadActiveId := some a }
  others : ∀ (i : Nat) (y : ShareMemBucket), i ≠ v → s.buckets[i]? = some y →
    s'.buckets[i]? = some (y.worn (s.passed (s.moves v x) i)) ∧
      (y.IsCandidate → s.passed (s.moves v x) i ≤ y.usageCount.toNat)
  header : s'.header = { s.header with
    nextVictimBucket := next s.header.numBuckets v
    numUsedBuckets := dec32 s.header.numUsedBuckets
    numEvictingBuckets := inc32 s.header.numEvictingBuckets }
  slots : s'.activeStatus = s.activeStatus.modify a fun slot => { slot with
    evictFileId := x.fileId, fileBlockIndex := x.fileBlockIndex, evicting := true }

variable {s s₁ : SharedMem} {i v : Nat} {x y : ShareMemBucket}

/-- The victim determines the rest. -/
theorem Evicted.unique {a : Nat} {s₂ : SharedMem} (h₁ : Evicted a s s₁ v x)
    (h₂ : Evicted a s s₂ v x) :
    s₁ = s₂ := by
  have hbuckets : s₁.buckets = s₂.buckets := by
    apply List.ext_getElem?
    intro i
    by_cases hi : i = v
    · rw [hi, h₁.victim, h₂.victim]
    · cases hy : s.buckets[i]? with
      | none =>
          have hlength := List.getElem?_eq_none_iff.mp hy
          rw [List.getElem?_eq_none (h₁.length ▸ hlength),
            List.getElem?_eq_none (h₂.length ▸ hlength)]
      | some y => rw [(h₁.others i y hi hy).1, (h₂.others i y hi hy).1]
  have hheader : s₁.header = s₂.header := h₁.header.trans h₂.header.symm
  have hslots : s₁.activeStatus = s₂.activeStatus := h₁.slots.trans h₂.slots.symm
  cases s₁
  cases s₂
  congr 1

theorem HasClock.lt (hs : s.HasClock) (hx : s.buckets[i]? = some x) : i < s.header.numBuckets :=
  hs.length ▸ (List.getElem?_eq_some_iff.mp hx).1

theorem HasClock.ahead_lt (hs : s.HasClock) (hx : s.buckets[i]? = some x) :
    s.ahead i < s.header.numBuckets :=
  distance_lt hs.hand (hs.lt hx)

theorem HasClock.moves_le_iff (hs : s.HasClock) {j : Nat} (hx : s.buckets[i]? = some x)
    (hy : s.buckets[j]? = some y) : s.moves i x ≤ s.moves j y ↔ s.rank i x ≤ s.rank j y :=
  turns_le_iff (hs.ahead_lt hx) (hs.ahead_lt hy)

/-- The victim is the candidate that the hand finds without usage first. -/
theorem IsVictim.moves_le (hv : s.IsVictim v x) (hs : s.HasClock) (hy : s.buckets[i]? = some y)
    (hcandidate : y.IsCandidate) : s.moves v x ≤ s.moves i y :=
  (hs.moves_le_iff hv.bucket hy).mpr (hv.least i y hy hcandidate)

/-- A table with a candidate has a victim. -/
theorem HasClock.exists_victim (hs : s.HasClock) (hx : x ∈ s.buckets) (hcandidate : x.IsCandidate) :
    ∃ v x, s.IsVictim v x := by
  -- the moves of a candidate of the table, of which the least is taken
  let p : Nat → Prop := fun t => ∃ i y, s.buckets[i]? = some y ∧ y.IsCandidate ∧ s.moves i y = t
  have hsome : ∃ t, p t := by
    obtain ⟨i, hi⟩ := List.getElem?_of_mem hx
    exact ⟨_, i, x, hi, hcandidate, rfl⟩
  classical
  obtain ⟨v, y, hy, hvictim, hmoves⟩ := Nat.find_spec hsome
  refine ⟨v, y, hy, hvictim, fun i z hz hother => ?_⟩
  apply (hs.moves_le_iff hy hz).mp
  rw [hmoves]
  exact Nat.find_min' hsome ⟨i, z, hz, hother, rfl⟩

/-- The hand moved on, and the bucket that it left may have lost one usage. -/
structure Ticked (s s₁ : SharedMem) : Prop where
  length : s₁.buckets.length = s.buckets.length
  header : s₁.header = { s.header with
    nextVictimBucket := next s.header.numBuckets s.header.nextVictimBucket }
  slots : s₁.activeStatus = s.activeStatus
  others : ∀ i, i ≠ s.header.nextVictimBucket → s₁.buckets[i]? = s.buckets[i]?
  left : ∀ x, s.buckets[s.header.nextVictimBucket]? = some x →
    (x.IsCandidate → 0 < x.usageCount) → s₁.buckets[s.header.nextVictimBucket]? = some (x.worn 1)

namespace Ticked

theorem clock (h : Ticked s s₁) (hs : s.HasClock) : s₁.HasClock where
  length := by rw [h.length, h.header, hs.length]
  nonempty := by rw [h.header]; exact hs.nonempty
  hand := by rw [h.header]; exact next_lt hs.hand

theorem ahead (h : Ticked s s₁) (hs : s.HasClock) (hi : i < s.header.numBuckets)
    (hne : i ≠ s.header.nextVictimBucket) : s₁.ahead i + 1 = s.ahead i := by
  unfold SharedMem.ahead
  rw [h.header]
  exact distance_next hs.hand hi hne

theorem ahead_left (h : Ticked s s₁) (hs : s.HasClock) :
    s₁.ahead s.header.nextVictimBucket = s.header.numBuckets - 1 := by
  unfold SharedMem.ahead
  rw [h.header]
  exact distance_next_self hs.hand

/-- The bucket after the move. -/
theorem bucket (h : Ticked s s₁) (hx : s.buckets[i]? = some x) (hworn : x.IsCandidate →
      i = s.header.nextVictimBucket → 0 < x.usageCount) :
    s₁.buckets[i]? = some (if i = s.header.nextVictimBucket then x.worn 1 else x) := by
  by_cases hi : i = s.header.nextVictimBucket
  · rw [if_pos hi]
    subst hi
    exact h.left x hx fun hcandidate => hworn hcandidate rfl
  · rw [if_neg hi, h.others i hi, hx]

/-- Every candidate with usage or ahead of the hand is one move nearer. -/
theorem moves (h : Ticked s s₁) (hs : s.HasClock) (hx : s.buckets[i]? = some x)
    (hcandidate : x.IsCandidate) (hworn : i = s.header.nextVictimBucket → 0 < x.usageCount) :
    s₁.moves i (if i = s.header.nextVictimBucket then x.worn 1 else x) + 1 = s.moves i x := by
  have hpos : 0 < s.header.numBuckets := hs.nonempty
  unfold SharedMem.moves
  by_cases hi : i = s.header.nextVictimBucket
  · have husage := hworn hi
    subst hi
    rw [if_pos rfl, ShareMemBucket.worn, if_pos hcandidate, h.ahead_left hs, h.header]
    unfold SharedMem.ahead
    rw [distance_self]
    obtain ⟨u, hu⟩ : ∃ u, x.usageCount.toNat = u + 1 := ⟨x.usageCount.toNat - 1, by omega⟩
    have hu' : (x.usageCount - (1 : Nat)).toNat = u := by omega
    dsimp only
    rw [hu, hu', Nat.succ_mul]
    omega
  · have hnear := h.ahead hs (hs.lt hx) hi
    rw [if_neg hi, h.header]
    dsimp only
    omega

/-- The same bucket is found first. -/
theorem victim (h : Ticked s s₁) (hs : s.HasClock) (hv : s.IsVictim v x)
    (hworn : ∀ z, s.buckets[s.header.nextVictimBucket]? = some z → z.IsCandidate →
    0 < z.usageCount) :
    s₁.IsVictim v (if v = s.header.nextVictimBucket then x.worn 1 else x) := by
  have hpositive : ∀ {i y}, s.buckets[i]? = some y → y.IsCandidate →
      i = s.header.nextVictimBucket → 0 < y.usageCount := by
    rintro i y hy hcandidate rfl
    exact hworn y hy hcandidate
  have hbucket := h.bucket hv.bucket (hpositive hv.bucket)
  refine ⟨hbucket, ?_, fun i z hz hcandidate => ?_⟩
  · split
    · exact (ShareMemBucket.isCandidate_worn 1 x).mpr hv.candidate
    · exact hv.candidate
  · apply ((h.clock hs).moves_le_iff hbucket hz).mp
    have hlt : i < s.buckets.length := h.length ▸ (List.getElem?_eq_some_iff.mp hz).1
    have hy := List.getElem?_eq_getElem hlt
    have hz' := h.bucket hy (hpositive hy)
    obtain rfl := Option.some.inj (hz.symm.trans hz')
    have hother : (s.buckets[i]).IsCandidate := by
      revert hcandidate
      split
      · exact (ShareMemBucket.isCandidate_worn 1 _).mp
      · exact id
    have hleast := hv.moves_le hs hy hother
    have hmoves := h.moves hs hv.bucket hv.candidate (hpositive hv.bucket hv.candidate)
    have hmoves' := h.moves hs hy hother (hpositive hy hother)
    omega

/-- What the sweep does after a move, it does from the start. -/
theorem evicted {a : Nat} {s' : SharedMem} (h : Ticked s s₁) (hs : s.HasClock) (hv : s.IsVictim v x)
    (hworn : ∀ z, s.buckets[s.header.nextVictimBucket]? = some z → z.IsCandidate → 0 < z.usageCount)
    (hevicted : Evicted a s₁ s' v (if v = s.header.nextVictimBucket then x.worn 1 else x)) :
    Evicted a s s' v x := by
  have hpositive : v = s.header.nextVictimBucket → 0 < x.usageCount := by
    rintro rfl
    exact hworn x hv.bucket hv.candidate
  have hmoves := h.moves hs hv.bucket hv.candidate hpositive
  have hvictim := hevicted.victim
  have hothers := hevicted.others
  have hslots := hevicted.slots
  generalize hx₁ : (if v = s.header.nextVictimBucket then x.worn 1 else x) = x₁
    at hvictim hothers hslots hmoves
  have hsame : x₁.fileId = x.fileId ∧ x₁.fileBlockIndex = x.fileBlockIndex ∧
      ({ x₁ with
      usageCount := min x₁.usageCount 0, evicting := true, evictLoadActiveId := some a } :
        ShareMemBucket) =
      { x with
      usageCount := min x.usageCount 0, evicting := true, evictLoadActiveId := some a } := by
    subst hx₁
    split
    · next hhand =>
        have husage := hpositive hhand
        have hzero : min (x.usageCount - (1 : Nat)) 0 = min x.usageCount 0 := by omega
        rw [ShareMemBucket.worn, if_pos hv.candidate]
        dsimp only
        rw [hzero]
        exact ⟨rfl, rfl, rfl⟩
    · exact ⟨rfl, rfl, rfl⟩
  refine ⟨hevicted.length.trans h.length, ?_, fun i y hi hy => ?_, ?_, ?_⟩
  · rw [hvictim, hsame.2.2]
  · have hbucket := h.bucket hy fun hcandidate hhand => by
      subst hhand
      exact hworn y hy hcandidate
    obtain ⟨hget, hbound⟩ := hothers i _ hi hbucket
    have hpassed : s.passed (s.moves v x) i =
        s₁.passed (s₁.moves v x₁) i + (if i = s.header.nextVictimBucket then 1 else 0) := by
      rw [← hmoves]
      unfold SharedMem.passed
      rw [h.header]
      by_cases hhand : i = s.header.nextVictimBucket
      · rw [if_pos hhand, hhand]
        exact passes_succ_self hs.hand
      · rw [if_neg hhand]
        exact passes_succ hs.hand (hs.lt hy) hhand
    rw [hget, hpassed]
    by_cases hhand : i = s.header.nextVictimBucket
    · rw [if_pos hhand] at hbound ⊢
      rw [if_pos hhand]
      refine ⟨congrArg some (ShareMemBucket.worn_worn _ _ _), fun hcandidate => ?_⟩
      have husage : 0 < y.usageCount := by
        subst hhand
        exact hworn y hy hcandidate
      have hle := hbound ((ShareMemBucket.isCandidate_worn 1 y).mpr hcandidate)
      rw [ShareMemBucket.worn, if_pos hcandidate] at hle
      dsimp only at hle
      omega
    · rw [if_neg hhand] at hbound ⊢
      rw [if_neg hhand]
      exact ⟨rfl, hbound⟩
  · rw [hevicted.header, h.header]
  · rw [hslots, h.slots, hsame.1, hsame.2.1]

end Ticked

end SharedMem

/-! ## The sweep -/

namespace SharedMemoryContext

open SharedMem

variable {s : SharedMem} {a v fuel tries : Nat} {x : ShareMemBucket}

/-- The hand leaves a bucket that is no candidate. -/
theorem handMoved_ticked (hx : s.buckets[s.header.nextVictimBucket]? = some x)
    (hother : ¬ x.IsCandidate) : Ticked s (handMoved s) where
  length := rfl
  header := rfl
  slots := rfl
  others _ _ := rfl
  left y hy _ := by
    obtain rfl := Option.some.inj (hx.symm.trans hy)
    rw [ShareMemBucket.worn, if_neg hother]
    exact hx

/-- The hand leaves a candidate with usage. -/
theorem usage_ticked (hx : s.buckets[s.header.nextVictimBucket]? = some x)
    (hcandidate : x.IsCandidate) :
    Ticked s ((handMoved s).updBucket s.header.nextVictimBucket
      fun y => { y with usageCount := y.usageCount - 1 }) where
  length := List.length_modify _ _ _
  header := rfl
  slots := rfl
  others _ hi := updBucket_other _ _ (Ne.symm hi)
  left y hy _ := by
    obtain rfl := Option.some.inj (hx.symm.trans hy)
    rw [updBucket_same, ShareMemBucket.worn, if_pos hcandidate]
    exact congrArg (Option.map _) hx

/-- The hand stands on a candidate without usage. -/
theorem startEviction_evicted (hs : s.HasClock) (hv : s.IsVictim s.header.nextVictimBucket x)
    (husage : x.usageCount ≤ 0) :
    ∃ s', startEviction a s.header.nextVictimBucket x (handMoved s) =
        .ok (victimInfo s.header.nextVictimBucket x) s' ∧
      Evicted a s s' s.header.nextVictimBucket x := by
  have hmoves : s.moves s.header.nextVictimBucket x = 0 := by
    have hzero : x.usageCount.toNat = 0 := by omega
    unfold SharedMem.moves SharedMem.ahead
    rw [hzero, distance_self, Nat.zero_mul]
  refine ⟨_, rfl, ?_, ?_, fun i y hi hy => ?_, rfl, rfl⟩
  · simp [handMoved]
  · have hmin : min x.usageCount 0 = x.usageCount := by omega
    rw [hmin]
    exact (updBucket_same _ _ _).trans (congrArg (Option.map _) hv.bucket)
  · rw [hmoves, SharedMem.passed, passes_zero hs.hand, ShareMemBucket.worn_zero]
    refine ⟨?_, fun _ => Nat.zero_le _⟩
    exact (updBucket_other _ _ (Ne.symm hi)).trans hy

/-- The sweep finds the candidate of the least rank. The induction is on the rounds
that are left; the tries last until the hand comes to some candidate. -/
theorem sweep_evicted : ∀ {s : SharedMem} {tries : Nat} {x : ShareMemBucket}, s.HasClock →
    s.IsVictim v x → s.moves v x < fuel →
    (∃ i y, s.buckets[i]? = some y ∧ y.IsCandidate ∧ s.ahead i < tries) →
    ∃ s', sweep a fuel tries s = .ok (victimInfo v x) s' ∧ Evicted a s s' v x := by
  induction fuel with
  | zero =>
      intro s tries x _ _ hfuel
      exact absurd hfuel (Nat.not_lt_zero _)
  | succ fuel ih =>
      intro s tries x hs hv hfuel htries
      have hlt : s.header.nextVictimBucket < s.buckets.length := hs.length ▸ hs.hand
      obtain ⟨z, hz⟩ : ∃ z, s.buckets[s.header.nextVictimBucket]? = some z :=
        ⟨_, List.getElem?_eq_getElem hlt⟩
      have hfound : s.buckets[v]? = some x := hv.bucket
      -- after a move the rest of the sweep is one shorter
      have hnext : ∀ {s₁ : SharedMem} {tries₁ : Nat}, Ticked s s₁ →
          (z.IsCandidate → 0 < z.usageCount) →
          (∃ i y, s₁.buckets[i]? = some y ∧ y.IsCandidate ∧ s₁.ahead i < tries₁) →
          ∃ s', sweep a fuel tries₁ s₁ = .ok (victimInfo v x) s' ∧ Evicted a s s' v x := by
        intro s₁ tries₁ hticked hworn htries₁
        have hworn' : ∀ y, s.buckets[s.header.nextVictimBucket]? = some y → y.IsCandidate →
            0 < y.usageCount := by
          intro y hy
          obtain rfl := Option.some.inj (hz.symm.trans hy)
          exact hworn
        have hpositive : v = s.header.nextVictimBucket → 0 < x.usageCount := by
          rintro rfl
          exact hworn' x hfound hv.candidate
        have hmoves := hticked.moves hs hfound hv.candidate hpositive
        obtain ⟨s', hrun, hevicted⟩ := ih (hticked.clock hs) (hticked.victim hs hv hworn')
          (by omega) htries₁
        refine ⟨s', ?_, hticked.evicted hs hv hworn' hevicted⟩
        rw [hrun]
        congr 1
        split
        · rw [ShareMemBucket.worn, if_pos hv.candidate]
          rfl
        · rfl
      rw [sweep_succ a fuel tries hz]
      by_cases hcandidate : z.IsCandidate
      · rw [if_pos hcandidate]
        by_cases husage : z.usageCount > 0
        · rw [if_pos husage]
          have hticked := usage_ticked hz hcandidate
          refine hnext hticked (fun _ => husage) ⟨_, _, hticked.left z hz fun _ => husage, ?_, ?_⟩
          · exact (ShareMemBucket.isCandidate_worn 1 z).mpr hcandidate
          · have hpos := hs.nonempty
            rw [hticked.ahead_left hs]
            omega
        · rw [if_neg husage]
          -- no other candidate can be nearer, so this is the victim
          have hleast := hv.moves_le hs hz hcandidate
          have hzero : z.usageCount.toNat = 0 := by omega
          unfold SharedMem.moves at hleast
          rw [hzero, SharedMem.ahead, SharedMem.ahead, distance_self, Nat.zero_mul] at hleast
          obtain rfl : v = s.header.nextVictimBucket := by
            by_contra hne
            have := distance_pos hs.hand hne
            omega
          obtain rfl := Option.some.inj (hz.symm.trans hfound)
          exact startEviction_evicted hs hv (by omega)
      · rw [if_neg hcandidate]
        have hticked := handMoved_ticked hz hcandidate
        obtain ⟨i, y, hy, hy', hnear⟩ := htries
        have hi : i ≠ s.header.nextVictimBucket := by
          rintro rfl
          obtain rfl := Option.some.inj (hz.symm.trans hy)
          exact hcandidate hy'
        have hahead := hticked.ahead hs (hs.lt hy) hi
        rw [if_neg (by omega)]
        exact hnext hticked (fun h => absurd h hcandidate) ⟨i, y, hy, hy', by omega⟩

/-- Without a candidate the hand goes on until the tries are used up. -/
theorem sweep_fails : ∀ {s : SharedMem} {tries : Nat}, s.HasClock →
    (∀ x ∈ s.buckets, ¬ x.IsCandidate) → 1 ≤ tries → tries ≤ fuel →
    sweep a fuel tries s = .error noVictim { s with header := { s.header with
      nextVictimBucket := (next s.header.numBuckets)^[tries] s.header.nextVictimBucket } } := by
  induction fuel with
  | zero =>
      intro s tries _ _ hpos hle
      omega
  | succ fuel ih =>
      intro s tries hs hnone hpos hle
      have hlt : s.header.nextVictimBucket < s.buckets.length := hs.length ▸ hs.hand
      have hz := List.getElem?_eq_getElem hlt
      have hcandidate := hnone _ (List.getElem_mem hlt)
      rw [sweep_succ a fuel tries hz]
      obtain ⟨tries, rfl⟩ : ∃ k, tries = k + 1 := ⟨tries - 1, by omega⟩
      rw [if_neg hcandidate, Function.iterate_succ_apply, Nat.add_sub_cancel]
      by_cases hlast : tries = 0
      · subst hlast
        rfl
      · rw [if_neg hlast, ih ((handMoved_ticked hz hcandidate).clock hs) hnone (by omega)
          (by omega)]
        rfl

/-- `markBucketEvicting` on a table with a clock. It always ends, so that further rounds
make no difference: with an exception exactly when there is no candidate, and then
nothing has changed; otherwise with the candidate of the least rank. -/
structure SweepsAs (a : Nat) (s : SharedMem) : Prop where
  ends : ∀ fuel, sweepBound s ≤ fuel →
    sweep a fuel s.header.numBuckets s = markBucketEvicting a s
  throws : (∃ e s', markBucketEvicting a s = .error e s') ↔ ∀ x ∈ s.buckets, ¬ x.IsCandidate
  unchanged : ∀ e s', markBucketEvicting a s = .error e s' → e = noVictim ∧ s' = s
  evicts : ∀ info s', markBucketEvicting a s = .ok info s' →
    ∃ v x, s.IsVictim v x ∧ info = victimInfo v x ∧ Evicted a s s' v x

/-- The rounds last for the whole sweep. -/
theorem moves_lt_sweepBound (hs : s.HasClock) (hx : s.buckets[v]? = some x) :
    s.moves v x < sweepBound s := by
  have hahead := hs.ahead_lt hx
  have hle : x.usageCount.toNat ≤ (s.buckets.map fun b => b.usageCount.toNat).sum :=
    List.le_sum_of_mem (List.mem_map.mpr ⟨x, List.mem_of_getElem? hx, rfl⟩)
  have hmul := Nat.mul_le_mul_right s.header.numBuckets hle
  unfold SharedMem.moves sweepBound
  rw [Nat.succ_mul]
  omega

/-- The clock sweep is what its specification says. -/
theorem markBucketEvicting_sweepsAs (a : Nat) (s : SharedMem) (hs : s.HasClock) : SweepsAs a s := by
  have hrun : markBucketEvicting a s = sweep a (sweepBound s) s.header.numBuckets s := by
    simp only [markBucketEvicting, Library.run_bind, Library.run_get]
  by_cases hsome : ∃ x ∈ s.buckets, x.IsCandidate
  · obtain ⟨y, hy, hcandidate⟩ := hsome
    obtain ⟨v, x, hv⟩ := hs.exists_victim hy hcandidate
    have hbound := moves_lt_sweepBound hs hv.bucket
    have hsweep : ∀ fuel, sweepBound s ≤ fuel →
        ∃ s', sweep a fuel s.header.numBuckets s = .ok (victimInfo v x) s' ∧ Evicted a s s' v x :=
      fun fuel hfuel => sweep_evicted hs hv (by omega)
        ⟨v, x, hv.bucket, hv.candidate, hs.ahead_lt hv.bucket⟩
    obtain ⟨s', hok, hevicted⟩ := hsweep _ le_rfl
    rw [← hrun] at hok
    refine ⟨fun fuel hfuel => ?_, ⟨?_, fun hnone => absurd hcandidate (hnone y hy)⟩, ?_, ?_⟩
    · obtain ⟨s'', hok', hevicted'⟩ := hsweep fuel hfuel
      rw [hok', hok, hevicted'.unique hevicted]
    · rintro ⟨e, s₁, herror⟩
      rw [hok] at herror
      cases herror
    · intro e s₁ herror
      rw [hok] at herror
      cases herror
    · intro info s₁ hok'
      rw [hok] at hok'
      cases hok'
      exact ⟨v, x, hv, rfl, hevicted⟩
  · have hnone : ∀ x ∈ s.buckets, ¬ x.IsCandidate := fun x hx h => hsome ⟨x, hx, h⟩
    have hbound : s.header.numBuckets ≤ sweepBound s :=
      Nat.le_mul_of_pos_left _ (Nat.succ_pos _)
    have hsweep : ∀ fuel, sweepBound s ≤ fuel →
        sweep a fuel s.header.numBuckets s = .error noVictim s := by
      intro fuel hfuel
      rw [sweep_fails hs hnone hs.nonempty (by omega), next_iterate_turn hs.hand]
    have hfails := hsweep _ le_rfl
    rw [← hrun] at hfails
    refine ⟨fun fuel hfuel => ?_, ⟨fun _ => hnone, fun _ => ⟨_, _, hfails⟩⟩, ?_, ?_⟩
    · rw [hsweep fuel hfuel, hfails]
    · intro e s₁ herror
      rw [hfails] at herror
      cases herror
      exact ⟨rfl, rfl⟩
    · intro info s₁ hok
      rw [hfails] at hok
      cases hok

/-- A table of three buckets: one in use, one worn and one fresh, with the hand on the
last. -/
def clockTable : SharedMem where
  header :=
    { numBuckets := 3, numMaxActiveStatus := 1, nextVictimBucket := 2, numFreeBuckets := 0,
      numActiveBuckets := 1, numUsedBuckets := 2, numEvictingBuckets := 0, numLoadingBuckets := 0,
      numFileActiveStatus := 1, numAdminActiveStatus := 0 }
  buckets :=
    [{ ShareMemBucket.blank with type := .active },
     { ShareMemBucket.blank with type := .used, usageCount := 1 },
     { ShareMemBucket.blank with type := .used, usageCount := 3 }]
  activeStatus := [ShareMemActiveStatus.blank]

theorem markBucketEvicting_clockTable : clockTable.HasClock ∧ SweepsAs 0 clockTable :=
  ⟨⟨rfl, by decide, by decide⟩, markBucketEvicting_sweepsAs 0 clockTable
  ⟨rfl, by decide, by decide⟩⟩

end SharedMemoryContext

end Gopherwood
