/-
# Eviction leases

An eviction spans two critical sections. In between, the evicting bit of the bucket
and the eviction record in the slot of the evictor are two halves of one lease. The
lease is retired when the evictor ends the eviction. Every other way out of an eviction
leaves one half behind: a bucket that its owner takes back keeps the bit, an evictor
that leaves takes its record along, a load of the evictor overwrites the record.
-/

import Gopherwood.Segment.Accounting

namespace Gopherwood

open Library (Keeps Spec Run execute anyStep)

variable {s s' : SharedMem} {a b : Nat} {x : ShareMemBucket}

/-- The slot is registered and records the eviction of the bucket's block. -/
def ShareMemActiveStatus.Evicts (slot : ShareMemActiveStatus) (x : ShareMemBucket) : Prop :=
  slot.pid ≠ none ∧ slot.evicting = true ∧ slot.evictFileId = x.fileId ∧
    slot.fileBlockIndex = x.fileBlockIndex

namespace SharedMemoryContext

/-- A used bucket with room for a mark is activated, if its evictor records it. -/
theorem activateBucket_used {block : Block} {w : Bool} {infos : List (Option BucketActiveInfo)}
    (hx : s.buckets[b]? = some x) (htype : x.type = .used) (hb : block.bucketId = some b)
    (hindex : block.blockId = x.fileBlockIndex)
    (hfill : Library.fillFirst ⟨w, a⟩ x.activeInfos = some infos)
    (hrecorded : x.evicting = true → ∃ e slot, x.evictLoadActiveId = some e ∧
      s.activeStatus[e]? = some slot ∧ slot.evictFileId = x.fileId ∧
      slot.fileBlockIndex = x.fileBlockIndex) :
    ∃ s', activateBucket x.fileId block a w s = .ok true s' := by
  have hmismatch : ¬ (x.fileId ≠ x.fileId ∨ x.fileBlockIndex ≠ block.blockId) := by
    simp [hindex]
  let s₁ := s.updBucket b fun x => { x with type := .active }
  have hx₁ : s₁.buckets[b]? = some { x with type := .active } := by
    simp [s₁, hx]
  have hset : modifyBucket b ShareMemBucket.setBucketActive s = .ok () s₁ := rfl
  let s₂ := s₁.updBucket b fun x => { x with activeInfos := infos }
  have hmark : markBucket b w a s₁ = .ok () s₂ := markBucket_some hx₁ hfill
  have hx₂ : s₂.buckets[b]? = some { x with type := .active, activeInfos := infos } := by
    simp [s₂, hx₁]
  simp only [activateBucket, Library.run_bind, hb, run_inRange_some, run_bucketAt_some hx,
    hmismatch, if_false, ShareMemBucket.isUsedBucket, decide_eq_true_eq, htype, if_true, hset,
    hmark]
  cases hevicting : x.evicting with
  | false =>
      simp only [Bool.false_eq_true, if_false]
      exact ⟨_, rfl⟩
  | true =>
      obtain ⟨e, slot, he, hslot, hfile, hblock⟩ := hrecorded hevicting
      have hslot₂ : s₂.activeStatus[e]? = some slot := hslot
      simp only [if_true, stealBucket, Library.run_bind, run_bucketAt_some hx₂, he,
        run_inRange_some, run_slotAt_some hslot₂, hfile, hblock, and_self, run_modifySlot,
        run_modifyHeader, Library.run_pure]
      exact ⟨_, rfl⟩

end SharedMemoryContext

namespace SharedMem

/-- Exactly one slot evicts the block of the bucket, and the bucket names this slot. -/
def SoleEvictor (s : SharedMem) (x : ShareMemBucket) : Prop :=
  ∃ e slot, s.activeStatus[e]? = some slot ∧ slot.Evicts x ∧ x.evictLoadActiveId = some e ∧
    ∀ e' slot', s.activeStatus[e']? = some slot' → slot'.Evicts x → e' = e

/-- The lease of every bucket is consistent; the owner of a used bucket can activate it,
also during an eviction; and a used bucket that nobody evicts can be chosen again. -/
structure LeaseConsistent (s : SharedMem) : Prop where
  lease : ∀ (b : Nat) (x : ShareMemBucket), s.buckets[b]? = some x →
    (x.evicting = true ↔ x.type = .used ∧ s.SoleEvictor x)
  activates : ∀ (b : Nat) (x : ShareMemBucket) (block : Block) (a : Nat) (w : Bool),
    s.buckets[b]? = some x → x.type = .used → block.bucketId = some b →
    block.blockId = x.fileBlockIndex →
    ∃ s', SharedMemoryContext.activateBucket x.fileId block a w s = .ok true s'
  recovers : ∀ (b : Nat) (x : ShareMemBucket), s.buckets[b]? = some x → x.type = .used →
    (∀ slot ∈ s.activeStatus, ¬ slot.Evicts x) → x.IsCandidate

/-- The two halves of every lease name each other, and no block is in two used
buckets. -/
structure Leased (s : SharedMem) : Prop where
  bucket : ∀ (b : Nat) (x : ShareMemBucket), s.buckets[b]? = some x → x.evicting = true →
    x.type = .used ∧ ∃ e slot, x.evictLoadActiveId = some e ∧ s.activeStatus[e]? = some slot ∧
      slot.Evicts x
  slot : ∀ (e : Nat) (slot : ShareMemActiveStatus), s.activeStatus[e]? = some slot →
    slot.evicting = true → ∃ (b : Nat) (x : ShareMemBucket), s.buckets[b]? = some x ∧
      x.evicting = true ∧ x.evictLoadActiveId = some e ∧ slot.Evicts x
  kept : ∀ (e : Nat) (slot : ShareMemActiveStatus), s.activeStatus[e]? = some slot →
    slot.stolen = false
  distinct : ∀ (b b' : Nat) (x x' : ShareMemBucket), s.buckets[b]? = some x →
    s.buckets[b']? = some x' → x.type = .used → x'.type = .used → x.fileId = x'.fileId →
    x.fileBlockIndex = x'.fileBlockIndex → b = b'
  table : ∀ (b : Nat) (x : ShareMemBucket), s.buckets[b]? = some x →
    x.activeInfos.length = maxConcurrentOpen
  vacant : ∀ (b : Nat) (x : ShareMemBucket), s.buckets[b]? = some x → x.type = .used →
    Library.vacant x.activeInfos = true

theorem leased_reset (cfg : Config) : (reset cfg).Leased := by
  have hbucket : ∀ {b : Nat} {x : ShareMemBucket}, (reset cfg).buckets[b]? = some x →
      x = .blank := fun hx => List.eq_of_mem_replicate (List.mem_of_getElem? hx)
  have hslot : ∀ {e : Nat} {slot : ShareMemActiveStatus},
      (reset cfg).activeStatus[e]? = some slot → slot = .blank := fun hs =>
    List.eq_of_mem_replicate (List.mem_of_getElem? hs)
  refine ⟨?_, ?_, ?_, ?_, ?_, ?_⟩
  · intro b x hx hevicting
    rw [hbucket hx] at hevicting
    cases hevicting
  · intro e slot hs hevicting
    rw [hslot hs] at hevicting
    cases hevicting
  · intro e slot hs
    rw [hslot hs]
    rfl
  · intro b b' x x' hx _ hused
    rw [hbucket hx] at hused
    cases hused
  · intro b x hx
    rw [hbucket hx]
    rfl
  · intro b x hx hused
    rw [hbucket hx] at hused
    cases hused

namespace Leased

/-- The header has no part in a lease. -/
theorem same (hs : s.Leased) (hbuckets : s'.buckets = s.buckets)
    (hslots : s'.activeStatus = s.activeStatus) : s'.Leased := by
  obtain ⟨header, buckets, slots⟩ := s'
  cases hbuckets
  cases hslots
  exact ⟨hs.bucket, hs.slot, hs.kept, hs.distinct, hs.table, hs.vacant⟩

/-- A bucket that is not used is not evicting. -/
theorem idle_of_ne (hs : s.Leased) (hx : s.buckets[b]? = some x) (htype : x.type ≠ .used) :
    x.evicting = false := by
  cases hevicting : x.evicting with
  | false => rfl
  | true => exact absurd (hs.bucket b x hx hevicting).1 htype

/-- The halves of a lease determine each other: two evicted buckets of one block are one
bucket. -/
theorem consistent (hs : s.Leased) : s.LeaseConsistent := by
  have hlease : ∀ (b : Nat) (x : ShareMemBucket), s.buckets[b]? = some x →
      (x.evicting = true ↔ x.type = .used ∧ s.SoleEvictor x) := by
    intro b x hx
    constructor
    · intro hevicting
      obtain ⟨hused, e, slot, he, hslot, hevicts⟩ := hs.bucket b x hx hevicting
      refine ⟨hused, e, slot, hslot, hevicts, he, fun e' slot' hslot' hevicts' => ?_⟩
      -- the other slot has a bucket too, which holds the same block
      obtain ⟨b', x', hx', hevicting', he', -, -, hfile, hindex⟩ :=
        hs.slot e' slot' hslot' hevicts'.2.1
      have hsame := hs.distinct b b' x x' hx hx' hused (hs.bucket b' x' hx' hevicting').1
        (hevicts'.2.2.1.symm.trans hfile) (hevicts'.2.2.2.symm.trans hindex)
      subst hsame
      obtain rfl := Option.some.inj (hx.symm.trans hx')
      exact Option.some.inj (he'.symm.trans he)
    · rintro ⟨hused, e, slot, hslot, hevicts, -, -⟩
      obtain ⟨b', x', hx', hevicting', -, -, -, hfile, hindex⟩ :=
        hs.slot e slot hslot hevicts.2.1
      have hsame := hs.distinct b b' x x' hx hx' hused (hs.bucket b' x' hx' hevicting').1
        (hevicts.2.2.1.symm.trans hfile) (hevicts.2.2.2.symm.trans hindex)
      subst hsame
      obtain rfl := Option.some.inj (hx.symm.trans hx')
      exact hevicting'
  refine ⟨hlease, ?_, ?_⟩
  · intro b x block a w hx hused hb hindex
    obtain ⟨infos, hfill⟩ := Library.fillFirst_of_vacant (hs.vacant b x hx hused)
      (by rw [hs.table b x hx]; decide) (⟨w, a⟩ : BucketActiveInfo)
    refine SharedMemoryContext.activateBucket_used hx hused hb hindex hfill fun hevicting => ?_
    -- the evictor of the bucket records it
    obtain ⟨-, e, slot, he, hslot, hevicts⟩ := hs.bucket b x hx hevicting
    exact ⟨e, slot, he, hslot, hevicts.2.2.1, hevicts.2.2.2⟩
  · intro b x hx hused hnone
    refine ⟨hused, ?_⟩
    cases hevicting : x.evicting with
    | false => rfl
    | true =>
        obtain ⟨-, e, slot, -, hslot, hevicts⟩ := hs.bucket b x hx hevicting
        exact absurd hevicts (hnone slot (List.mem_of_getElem? hslot))

end Leased

/-! ## Changes that touch no lease -/

/-- A bucket without a lease that may stand at place `b`. -/
structure Unleased (s : SharedMem) (b : Nat) (y : ShareMemBucket) : Prop where
  evicting : y.evicting = false
  table : y.activeInfos.length = maxConcurrentOpen
  vacant : y.type = .used → Library.vacant y.activeInfos = true
  distinct : y.type = .used → ∀ (b' : Nat) (x' : ShareMemBucket), s.buckets[b']? = some x' →
    x'.type = .used → y.fileId = x'.fileId → y.fileBlockIndex = x'.fileBlockIndex → b = b'

/-- A slot keeps its lease, and gains none. -/
structure LeaseKept (slot slot' : ShareMemActiveStatus) : Prop where
  idle : slot.evicting = false → slot'.evicting = false
  evicts : ∀ x, slot.Evicts x → slot'.Evicts x
  stolen : slot.stolen = false → slot'.stolen = false

/-- A slot that evicts nothing has no lease to keep. -/
theorem LeaseKept.of_idle {slot slot' : ShareMemActiveStatus} (hold : slot.evicting = false)
    (hnew : slot'.evicting = false) (hstolen : slot.stolen = false → slot'.stolen = false) :
    LeaseKept slot slot' := by
  refine ⟨fun _ => hnew, fun x h => ?_, hstolen⟩
  rw [h.2.1] at hold
  cases hold

theorem LeaseKept.refl (slot : ShareMemActiveStatus) : LeaseKept slot slot := ⟨id, fun _ => id, id⟩

namespace Leased

variable {f : ShareMemBucket → ShareMemBucket} {g : ShareMemActiveStatus → ShareMemActiveStatus}

/-- One bucket without a lease changes to another one. -/
theorem rebucket (hs : s.Leased) (hbuckets : s'.buckets = s.buckets.modify b f)
    (hslots : s'.activeStatus = s.activeStatus)
    (hf : ∀ y, s.buckets[b]? = some y → y.evicting = false ∧ s.Unleased b (f y)) : s'.Leased := by
  -- a bucket of the new table is the changed one or one of the old table
  have hcases : ∀ {i : Nat} {x : ShareMemBucket}, s'.buckets[i]? = some x →
      (i = b ∧ s.Unleased b x) ∨ (i ≠ b ∧ s.buckets[i]? = some x) := by
    intro i x hx
    rw [hbuckets, List.getElem?_modify] at hx
    by_cases hi : b = i
    · subst hi
      simp only [if_true] at hx
      obtain ⟨y, hy, rfl⟩ := Option.map_eq_some_iff.mp hx
      exact Or.inl ⟨rfl, (hf y hy).2⟩
    · simp only [if_neg hi] at hx
      exact Or.inr ⟨Ne.symm hi, by simpa using hx⟩
  refine ⟨?_, ?_, ?_, ?_, ?_, ?_⟩
  · intro i x hx hevicting
    rcases hcases hx with ⟨-, hnew⟩ | ⟨-, hold⟩
    · rw [hnew.evicting] at hevicting
      cases hevicting
    · rw [hslots]
      exact hs.bucket i x hold hevicting
  · intro e slot hslot hevicting
    rw [hslots] at hslot
    obtain ⟨i, x, hx, hx', hrest⟩ := hs.slot e slot hslot hevicting
    refine ⟨i, x, ?_, hx', hrest⟩
    have hi : b ≠ i := by
      rintro rfl
      rw [(hf x hx).1] at hx'
      cases hx'
    rw [hbuckets, List.getElem?_modify, hx]
    simp [hi]
  · intro e slot hslot
    exact hs.kept e slot (hslots ▸ hslot)
  · intro i j x y hx hy hused hused' hfile hindex
    rcases hcases hx with ⟨rfl, hnew⟩ | ⟨hi, hold⟩
    · rcases hcases hy with ⟨rfl, -⟩ | ⟨-, hold'⟩
      · rfl
      · exact hnew.distinct hused j y hold' hused' hfile hindex
    · rcases hcases hy with ⟨rfl, hnew'⟩ | ⟨-, hold'⟩
      · exact (hnew'.distinct hused' i x hold hused hfile.symm hindex.symm).symm
      · exact hs.distinct i j x y hold hold' hused hused' hfile hindex
  · intro i x hx
    rcases hcases hx with ⟨-, hnew⟩ | ⟨-, hold⟩
    · exact hnew.table
    · exact hs.table i x hold
  · intro i x hx hused
    rcases hcases hx with ⟨-, hnew⟩ | ⟨-, hold⟩
    · exact hnew.vacant hused
    · exact hs.vacant i x hold hused

/-- A bucket without a lease changes to one that is not used. -/
theorem recycle (hs : s.Leased) (hx : s.buckets[b]? = some x) (hidle : x.evicting = false)
    (hbuckets : s'.buckets = s.buckets.modify b f) (hslots : s'.activeStatus = s.activeStatus)
    (htype : (f x).type ≠ .used) (hevicting : (f x).evicting = false)
    (htable : (f x).activeInfos.length = maxConcurrentOpen) : s'.Leased := by
  refine hs.rebucket hbuckets hslots fun y hy => ?_
  obtain rfl := Option.some.inj (hx.symm.trans hy)
  exact ⟨hidle, hevicting, htable, fun h => absurd h htype, fun h => absurd h htype⟩

/-- The slots change, and every lease is kept. -/
theorem reslot (hs : s.Leased) (hbuckets : s'.buckets = s.buckets)
    (hslots : ∀ e : Nat, Option.Rel LeaseKept s.activeStatus[e]? s'.activeStatus[e]?) :
    s'.Leased := by
  have hforth : ∀ {e : Nat} {slot : ShareMemActiveStatus}, s.activeStatus[e]? = some slot →
      ∃ slot', s'.activeStatus[e]? = some slot' ∧ LeaseKept slot slot' := by
    intro e slot hslot
    have h := hslots e
    rw [hslot] at h
    cases hnew : s'.activeStatus[e]? with
    | none =>
        rw [hnew] at h
        cases h
    | some slot' =>
        rw [hnew] at h
        cases h with
        | some hkept => exact ⟨slot', rfl, hkept⟩
  have hback : ∀ {e : Nat} {slot' : ShareMemActiveStatus}, s'.activeStatus[e]? = some slot' →
      ∃ slot, s.activeStatus[e]? = some slot ∧ LeaseKept slot slot' := by
    intro e slot' hslot'
    have h := hslots e
    rw [hslot'] at h
    cases hold : s.activeStatus[e]? with
    | none =>
        rw [hold] at h
        cases h
    | some slot =>
        rw [hold] at h
        cases h with
        | some hkept => exact ⟨slot, rfl, hkept⟩
  refine ⟨?_, ?_, ?_, ?_, ?_, ?_⟩
  · intro i x hx hevicting
    obtain ⟨hused, e, slot, he, hslot, hevicts⟩ := hs.bucket i x (hbuckets ▸ hx) hevicting
    obtain ⟨slot', hslot', hkept⟩ := hforth hslot
    exact ⟨hused, e, slot', he, hslot', hkept.evicts x hevicts⟩
  · intro e slot' hslot' hevicting
    obtain ⟨slot, hslot, hkept⟩ := hback hslot'
    have hold : slot.evicting = true := by
      cases hidle : slot.evicting with
      | true => rfl
      | false =>
          rw [hkept.idle hidle] at hevicting
          cases hevicting
    obtain ⟨i, x, hx, hx', he, hevicts⟩ := hs.slot e slot hslot hold
    exact ⟨i, x, hbuckets.symm ▸ hx, hx', he, hkept.evicts x hevicts⟩
  · intro e slot' hslot'
    obtain ⟨slot, hslot, hkept⟩ := hback hslot'
    exact hkept.stolen (hs.kept e slot hslot)
  · intro i j x y hx hy
    exact hs.distinct i j x y (hbuckets ▸ hx) (hbuckets ▸ hy)
  · intro i x hx
    exact hs.table i x (hbuckets ▸ hx)
  · intro i x hx
    exact hs.vacant i x (hbuckets ▸ hx)

/-- A slot that evicts nothing changes to another one. -/
theorem reslot_one (hs : s.Leased) (hbuckets : s'.buckets = s.buckets)
    (hslots : s'.activeStatus = s.activeStatus.modify a g)
    (hg : ∀ slot, s.activeStatus[a]? = some slot → LeaseKept slot (g slot)) : s'.Leased := by
  refine hs.reslot hbuckets fun e => ?_
  rw [hslots, List.getElem?_modify]
  cases hslot : s.activeStatus[e]? with
  | none => exact .none
  | some slot =>
      refine .some ?_
      by_cases he : a = e
      · subst he
        simpa using hg slot hslot
      · simpa [he] using LeaseKept.refl slot

/-! ## Starting and ending a lease -/

/-- A used bucket is leased to a registered slot that evicts nothing else. -/
theorem lend (hs : s.Leased) {slot : ShareMemActiveStatus} (hx : s.buckets[b]? = some x)
    (hused : x.type = .used) (hidle : x.evicting = false)
    (hslot : s.activeStatus[a]? = some slot) (hpid : slot.pid ≠ none)
    (hfree : slot.evicting = false)
    (hbuckets : s'.buckets = s.buckets.modify b fun x => { x with
      evicting := true, evictLoadActiveId := some a })
    (hslots : s'.activeStatus = s.activeStatus.modify a fun slot => { slot with
      evictFileId := x.fileId, fileBlockIndex := x.fileBlockIndex, evicting := true }) :
    s'.Leased := by
  have hnew : s'.buckets[b]? = some { x with evicting := true, evictLoadActiveId := some a } := by
    simp [hbuckets, hx]
  have hother : ∀ {i : Nat}, i ≠ b → s'.buckets[i]? = s.buckets[i]? := by
    intro i hi
    simp [hbuckets, Ne.symm hi]
  have hlender : s'.activeStatus[a]? = some { slot with
      evictFileId := x.fileId, fileBlockIndex := x.fileBlockIndex, evicting := true } := by
    simp [hslots, hslot]
  have hrest : ∀ {e : Nat}, e ≠ a → s'.activeStatus[e]? = s.activeStatus[e]? := by
    intro e he
    simp [hslots, Ne.symm he]
  -- what the lease leaves of every bucket
  have hsame : ∀ {i : Nat} {y : ShareMemBucket}, s'.buckets[i]? = some y →
      ∃ z, s.buckets[i]? = some z ∧ y.type = z.type ∧ y.fileId = z.fileId ∧
        y.fileBlockIndex = z.fileBlockIndex ∧ y.activeInfos = z.activeInfos := by
    intro i y hy
    by_cases hi : i = b
    · subst hi
      obtain rfl := Option.some.inj (hnew.symm.trans hy)
      exact ⟨x, hx, rfl, rfl, rfl, rfl⟩
    · exact ⟨y, hother hi ▸ hy, rfl, rfl, rfl, rfl⟩
  refine ⟨?_, ?_, ?_, ?_, ?_, ?_⟩
  · intro i y hy hevicting
    by_cases hi : i = b
    · subst hi
      obtain rfl := Option.some.inj (hnew.symm.trans hy)
      exact ⟨hused, a, _, rfl, hlender, hpid, rfl, rfl, rfl⟩
    · rw [hother hi] at hy
      obtain ⟨hused', e, slot', he, hslot', hevicts⟩ := hs.bucket i y hy hevicting
      refine ⟨hused', e, slot', he, ?_, hevicts⟩
      -- the slot evicted nothing before
      have hea : e ≠ a := by
        rintro rfl
        obtain rfl := Option.some.inj (hslot.symm.trans hslot')
        rw [hevicts.2.1] at hfree
        cases hfree
      exact (hrest hea).trans hslot'
  · intro e slot' hslot' hevicting
    by_cases he : e = a
    · subst he
      obtain rfl := Option.some.inj (hlender.symm.trans hslot')
      exact ⟨b, _, hnew, rfl, rfl, hpid, rfl, rfl, rfl⟩
    · rw [hrest he] at hslot'
      obtain ⟨i, y, hy, hy', hrest'⟩ := hs.slot e slot' hslot' hevicting
      have hi : i ≠ b := by
        rintro rfl
        obtain rfl := Option.some.inj (hx.symm.trans hy)
        rw [hidle] at hy'
        cases hy'
      exact ⟨i, y, (hother hi).trans hy, hy', hrest'⟩
  · intro e slot' hslot'
    by_cases he : e = a
    · subst he
      obtain rfl := Option.some.inj (hlender.symm.trans hslot')
      exact hs.kept e slot hslot
    · exact hs.kept e slot' (hrest he ▸ hslot')
  · intro i j y z hy hz hused hused' hfile hindex
    obtain ⟨y₀, hy₀, hty, hfy, hiy, -⟩ := hsame hy
    obtain ⟨z₀, hz₀, htz, hfz, hiz, -⟩ := hsame hz
    exact hs.distinct i j y₀ z₀ hy₀ hz₀ (hty ▸ hused) (htz ▸ hused') (hfy ▸ hfz ▸ hfile)
      (hiy ▸ hiz ▸ hindex)
  · intro i y hy
    obtain ⟨z, hz, -, -, -, hinfos⟩ := hsame hy
    rw [hinfos]
    exact hs.table i z hz
  · intro i y hy hused
    obtain ⟨z, hz, htype, -, -, hinfos⟩ := hsame hy
    rw [hinfos]
    exact hs.vacant i z hz (htype ▸ hused)

/-- The slot that a bucket is leased to ends the lease of this bucket. -/
theorem giveBack (hs : s.Leased) {y : ShareMemBucket} (hx : s.buckets[b]? = some x)
    (hevicting : x.evicting = true) (hholder : x.evictLoadActiveId = some a)
    (hy : y.type ≠ .used) (hidle : y.evicting = false)
    (htable : y.activeInfos.length = maxConcurrentOpen)
    (hbuckets : s'.buckets = s.buckets.modify b fun _ => y)
    (hslots : s'.activeStatus = s.activeStatus.modify a endEviction) : s'.Leased := by
  have hnew : s'.buckets[b]? = some y := by
    simp [hbuckets, hx]
  have hother : ∀ {i : Nat}, i ≠ b → s'.buckets[i]? = s.buckets[i]? := by
    intro i hi
    simp [hbuckets, Ne.symm hi]
  have hrest : ∀ {e : Nat}, e ≠ a → s'.activeStatus[e]? = s.activeStatus[e]? := by
    intro e he
    simp [hslots, Ne.symm he]
  obtain ⟨hused, a', slot, ha', hslot, hevicts⟩ := hs.bucket b x hx hevicting
  obtain rfl := Option.some.inj (hholder.symm.trans ha')
  have hender : s'.activeStatus[a]? = some (endEviction slot) := by
    simp [hslots, hslot]
  refine ⟨?_, ?_, ?_, ?_, ?_, ?_⟩
  · intro i z hz hzevicting
    by_cases hi : i = b
    · subst hi
      obtain rfl := Option.some.inj (hnew.symm.trans hz)
      rw [hidle] at hzevicting
      cases hzevicting
    · rw [hother hi] at hz
      obtain ⟨hzused, e, slot', he, hslot', hevicts'⟩ := hs.bucket i z hz hzevicting
      refine ⟨hzused, e, slot', he, ?_, hevicts'⟩
      -- a slot records one block, and the block is in one used bucket
      have hea : e ≠ a := by
        rintro rfl
        obtain rfl := Option.some.inj (hslot.symm.trans hslot')
        exact hi (hs.distinct i b z x hz hx hzused hused (hevicts'.2.2.1.symm.trans hevicts.2.2.1)
          (hevicts'.2.2.2.symm.trans hevicts.2.2.2))
      exact (hrest hea).trans hslot'
  · intro e slot' hslot' hslotEvicting
    by_cases he : e = a
    · subst he
      obtain rfl := Option.some.inj (hender.symm.trans hslot')
      cases hslotEvicting
    · rw [hrest he] at hslot'
      obtain ⟨i, z, hz, hzevicting, hzholder, hzevicts⟩ := hs.slot e slot' hslot' hslotEvicting
      have hi : i ≠ b := by
        rintro rfl
        obtain rfl := Option.some.inj (hx.symm.trans hz)
        exact he (Option.some.inj (hzholder.symm.trans hholder))
      exact ⟨i, z, (hother hi).trans hz, hzevicting, hzholder, hzevicts⟩
  · intro e slot' hslot'
    by_cases he : e = a
    · subst he
      obtain rfl := Option.some.inj (hender.symm.trans hslot')
      exact hs.kept e slot hslot
    · exact hs.kept e slot' (hrest he ▸ hslot')
  · intro i j z z' hz hz' hzused hzused'
    have hib : i ≠ b := by
      rintro rfl
      obtain rfl := Option.some.inj (hnew.symm.trans hz)
      exact hy hzused
    have hjb : j ≠ b := by
      rintro rfl
      obtain rfl := Option.some.inj (hnew.symm.trans hz')
      exact hy hzused'
    exact hs.distinct i j z z' (hother hib ▸ hz) (hother hjb ▸ hz') hzused hzused'
  · intro i z hz
    by_cases hi : i = b
    · subst hi
      obtain rfl := Option.some.inj (hnew.symm.trans hz)
      exact htable
    · exact hs.table i z (hother hi ▸ hz)
  · intro i z hz hzused
    by_cases hi : i = b
    · subst hi
      obtain rfl := Option.some.inj (hnew.symm.trans hz)
      exact absurd hzused hy
    · exact hs.vacant i z (hother hi ▸ hz) hzused

end Leased

end SharedMem

/-! ## Moves -/

/-- The slot evicts nothing. -/
def ShmOp.Idle (s : SharedMem) (a : Nat) : Prop :=
  ∀ slot ∈ s.activeStatus[a]?, slot.evicting = false

/-- The slot is registered and evicts nothing. -/
def ShmOp.MayEvict (s : SharedMem) (a : Nat) : Prop :=
  ∃ slot, s.activeStatus[a]? = some slot ∧ slot.pid ≠ none ∧ slot.evicting = false

/-- The bucket is being evicted by the handle. -/
def ShmOp.Leases (s : SharedMem) (bucketId : Option Nat) (a : Nat) : Prop :=
  ∃ b x, bucketId = some b ∧ s.buckets[b]? = some x ∧ x.evicting = true ∧
    x.evictLoadActiveId = some a

/-- The move retires no lease but the mover's own, and takes none twice. -/
def Move.Lawful (s : SharedMem) : Move → Prop
  | .evict a _ => ShmOp.MayEvict s a
  | .endFailed _ => False
  | .endTake a b | .endFree a b => ShmOp.Leases s (some b) a
  | .load a b | .loaded a b => ShmOp.Idle s a ∧ ∀ x, s.buckets[b]? = some x → x.type = .active
  | .steal _ b _ | .activateFailed b => ∀ x, s.buckets[b]? = some x → x.evicting = false
  | .retire _ _ => False
  | .index b => ∀ x, s.buckets[b]? = some x → x.type = .active
  | .reset fileId b => ∀ x, s.buckets[b]? = some x → x.fileId = fileId → x.evicting = false
  | _ => True

namespace SharedMem

/-- A lawful move keeps the two halves of every lease together. -/
theorem Moves.leased {m : Move} (hmove : Moves m s s') (hm : m.Lawful s) (hs : s.Leased) :
    s'.Leased := by
  cases hmove with
  | take hx htype hinfos =>
      have hidle := hs.idle_of_ne hx (by simp [htype])
      exact hs.recycle hx hidle rfl rfl (by simp) hidle
        ((Library.length_fillFirst hinfos).trans (hs.table _ _ hx))
  | takeFailed hx htype hinfos =>
      have hidle := hs.idle_of_ne hx (by simp [htype])
      have htable := hs.table _ _ hx
      exact hs.recycle hx hidle rfl rfl (by simp) hidle htable
  | hand => exact hs.same rfl rfl
  | age hx htype hevicting =>
      refine hs.rebucket rfl rfl fun y hy => ?_
      obtain rfl := Option.some.inj (hx.symm.trans hy)
      have htable := hs.table _ _ hx
      have hvacant := hs.vacant _ _ hx
      have hdistinct := fun b' x' hx' => hs.distinct _ b' _ x' hx hx' htype
      exact ⟨hevicting, hevicting, htable, hvacant, fun _ => hdistinct⟩
  | evict hx htype hevicting =>
      obtain ⟨slot, hslot, hpid, hfree⟩ := hm
      exact hs.lend hx htype hevicting hslot hpid hfree rfl rfl
  | endStolen hslot hstolen =>
      rw [hs.kept _ _ hslot] at hstolen
      cases hstolen
  | endFailed => exact hm.elim
  | endTake w fileId hslot hstolen hx =>
      obtain ⟨b', x', hb', hx', hevicting, hholder⟩ := hm
      cases hb'
      exact hs.giveBack (y := .taken w _ fileId) hx' hevicting hholder
        (by simp [ShareMemBucket.taken]) rfl
        (by simp [ShareMemBucket.taken, maxConcurrentOpen]) rfl rfl
  | endFree hslot hstolen hx =>
      obtain ⟨b', x', hb', hx', hevicting, hholder⟩ := hm
      cases hb'
      exact hs.giveBack (y := .blank) hx' hevicting hholder (by simp [ShareMemBucket.blank])
        rfl (by simp [ShareMemBucket.blank]) rfl rfl
  | @load _ a b i fileId hfree =>
      obtain ⟨hslot, hactive⟩ := hm
      have hbucket : (s.updBucket b fun x => { x with
          loading := true, fileBlockIndex := some i, evictLoadActiveId := some a }).Leased := by
        refine hs.rebucket rfl rfl fun y hy => ?_
        have htype := hactive y hy
        have hidle := hs.idle_of_ne hy (by simp [htype])
        have htable := hs.table _ _ hy
        exact ⟨hidle, hidle, htable, fun h => by simp [htype] at h,
          fun h => by simp [htype] at h⟩
      exact hbucket.reslot_one rfl rfl fun slot hs => LeaseKept.of_idle (hslot slot hs)
        (hslot slot hs) id
  | @loaded _ a b =>
      obtain ⟨hslot, hactive⟩ := hm
      have hbucket : (s.updBucket b fun x => { x with loading := false }).Leased := by
        refine hs.rebucket rfl rfl fun y hy => ?_
        have htype := hactive y hy
        have hidle := hs.idle_of_ne hy (by simp [htype])
        have htable := hs.table _ _ hy
        exact ⟨hidle, hidle, htable, fun h => by simp [htype] at h,
          fun h => by simp [htype] at h⟩
      exact hbucket.reslot_one rfl rfl fun slot hs => LeaseKept.of_idle (hslot slot hs)
        (hslot slot hs) id
  | release hx htype =>
      exact hs.recycle hx (hs.idle_of_ne hx (by simp [htype])) rfl rfl
        (by simp [ShareMemBucket.blank]) rfl (by simp [ShareMemBucket.blank])
  | activate hx htype hevicting hinfos =>
      exact hs.recycle hx hevicting rfl rfl (by simp) hevicting
        ((Library.length_fillFirst hinfos).trans (hs.table _ _ hx))
  | steal hx htype hevicting =>
      rw [hm _ hx] at hevicting
      cases hevicting
  | activateFailed hx htype hfailed =>
      rcases hfailed with ⟨hfull, -⟩ | ⟨-, hevicting, -⟩
      · -- the mark table of a used bucket is vacant
        obtain ⟨filled, hfilled⟩ := Library.fillFirst_of_vacant (hs.vacant _ _ hx htype)
          (by rw [hs.table _ _ hx]; decide) _
        rw [hfull] at hfilled
        cases hfilled
      · rw [hm _ hx] at hevicting
        cases hevicting
  | join hx htype hinfos =>
      have hidle := hs.idle_of_ne hx (by simp [htype])
      exact hs.recycle hx hidle rfl rfl (by simp [htype]) hidle
        ((Library.length_fillFirst hinfos).trans (hs.table _ _ hx))
  | leave hx htype hinfos hvacant =>
      have hidle := hs.idle_of_ne hx (by simp [htype])
      exact hs.recycle hx hidle rfl rfl (by simp [htype]) hidle
        ((Library.length_clearFirst hinfos).trans (hs.table _ _ hx))
  | retire => exact hm.elim
  | leaveFailed hx htype hinfos =>
      have hidle := hs.idle_of_ne hx (by simp [htype])
      have htable := hs.table _ _ hx
      exact hs.recycle hx hidle rfl rfl (by simp [htype]) hidle htable
  | index hx =>
      have htype := hm _ hx
      have hidle := hs.idle_of_ne hx (by simp [htype])
      have htable := hs.table _ _ hx
      exact hs.recycle hx hidle rfl rfl (by simp [htype]) hidle htable
  | reset hx htype =>
      exact hs.recycle hx (hm _ hx rfl) rfl rfl (by simp [ShareMemBucket.blank]) rfl
        (by simp [ShareMemBucket.blank])
  | flag hx htype hevicting =>
      rw [hs.idle_of_ne hx htype] at hevicting
      cases hevicting
  | resize hx htype hmine hsize =>
      have hidle := hs.idle_of_ne hx (by simp [htype])
      have htable := hs.table _ _ hx
      exact hs.recycle hx hidle rfl rfl (by simp [htype]) hidle htable

end SharedMem

/-! ## Operations -/

namespace SharedMemoryContext

/-- The scan of a registration keeps every lease: it assigns a slot of no process. -/
theorem scan_leases (pid : Nat) (fileId : FileId) (isDelete : Bool) :
    ∀ (slots : List ShareMemActiveStatus) (i : Nat) (assigned : Option Nat) (destroy : Bool)
      (e : Nat), Option.Rel SharedMem.LeaseKept slots[e]?
        (registFile.scan pid fileId isDelete i slots assigned destroy).1[e]? := by
  intro slots
  induction slots with
  | nil =>
      intro i assigned destroy e
      exact .none
  | cons slot rest ih =>
      intro i assigned destroy e
      have hflagged : SharedMem.LeaseKept slot
          (if (decide (slot.fileId = fileId) && isDelete) = true
            then { slot with shouldDestroy := true } else slot) ∧
          (if (decide (slot.fileId = fileId) && isDelete) = true
            then { slot with shouldDestroy := true } else slot).pid = slot.pid := by
        split
        · exact ⟨⟨id, fun _ => id, id⟩, rfl⟩
        · exact ⟨.refl slot, rfl⟩
      unfold registFile.scan
      dsimp only
      generalize (if (decide (slot.fileId = fileId) && isDelete) = true then
        { slot with shouldDestroy := true } else slot) = flagged at hflagged ⊢
      obtain ⟨hkept, hpid⟩ := hflagged
      cases e with
      | zero =>
          split
          · next hfree =>
              refine .some ⟨hkept.idle, fun x h => absurd ?_ h.1, hkept.stolen⟩
              exact hpid.symm.trans hfree.2
          · exact .some hkept
      | succ e =>
          split
          · exact ih _ _ _ e
          · exact ih _ _ _ e

/-- Registering and unregistering an idle slot keep every lease. -/
theorem registFile_leased (pid : Nat) (fileId : FileId) (isDelete : Bool) :
    Keeps SharedMem.Leased (registFile pid fileId isDelete) := by
  intro s hs
  have hscan := scan_leases pid fileId isDelete s.activeStatus 0 none isDelete
  simp only [registFile, Library.run_bind, Library.run_get, Library.run_set]
  generalize registFile.scan pid fileId isDelete 0 s.activeStatus none isDelete =
    scanned at hscan ⊢
  obtain ⟨slots, id, destroy⟩ := scanned
  have hslots : SharedMem.Leased { s with activeStatus := slots } := hs.reslot rfl hscan
  cases id with
  | none => exact hslots
  | some a =>
      have hcounted : SharedMem.Leased (SharedMem.updHeader { s with activeStatus := slots }
          fun h => { h with numFileActiveStatus := inc32 h.numFileActiveStatus }) :=
        hslots.same rfl rfl
      cases destroy with
      | false => exact hcounted
      | true => exact hcounted.reslot_one rfl rfl fun slot _ => ⟨id, fun _ => id, id⟩

theorem registAdmin_leased (pid : Nat) : Keeps SharedMem.Leased (registAdmin pid) := by
  intro s hs
  simp only [registAdmin, Library.run_bind, Library.run_get]
  cases s.activeStatus.findIdx? fun slot => slot.pid = none with
  | none => exact hs
  | some a =>
      have hslot : (s.updSlot a fun slot => { slot with
          pid := some pid, isAdmin := true }).Leased :=
        hs.reslot_one rfl rfl fun slot _ => ⟨id, fun _ h => ⟨by simp, h.2⟩, id⟩
      exact hslot.same rfl rfl

/-- The slot of a handle that evicts nothing is blanked. -/
theorem blank_leased (hs : s.Leased) (hidle : ShmOp.Idle s a) :
    (s.updSlot a fun _ => .blank).Leased :=
  hs.reslot_one rfl rfl fun slot hslot =>
    .of_idle (hidle slot hslot) rfl fun _ => rfl

theorem unregistFile_leased (a pid : Nat) (hs : s.Leased) (hidle : ShmOp.Idle s a) :
    (Library.after (unregistFile a pid) s).Leased := by
  rcases hslot : s.activeStatus[a]? with _ | slot
  · have hrun : unregistFile a pid s = .ok none s := by simp [unregistFile, hslot]
    simpa [Library.after, hrun] using hs
  · by_cases hpid : slot.pid = some pid
    · have hrun : unregistFile a pid s = .ok (some slot.shouldDestroy)
          ((s.updSlot a fun _ => .blank).updHeader fun h => { h with
            numFileActiveStatus := dec32 h.numFileActiveStatus }) := by
        simp [unregistFile, hslot, hpid]
      rw [Library.after, hrun]
      exact (blank_leased hs hidle).same rfl rfl
    · have hrun : unregistFile a pid s = .ok none s := by simp [unregistFile, hslot, hpid]
      simpa [Library.after, hrun] using hs

theorem unregistAdmin_leased (a pid : Nat) (hs : s.Leased) (hidle : ShmOp.Idle s a) :
    (Library.after (unregistAdmin a pid) s).Leased := by
  rcases hslot : s.activeStatus[a]? with _ | slot
  · have hrun : unregistAdmin a pid s = .ok false s := by simp [unregistAdmin, hslot]
    simpa [Library.after, hrun] using hs
  · by_cases hpid : slot.pid = some pid ∧ slot.isAdmin = true
    · have hrun : unregistAdmin a pid s = .ok true
          ((s.updSlot a fun _ => .blank).updHeader fun h => { h with
            numAdminActiveStatus := dec32 h.numAdminActiveStatus }) := by
        simp [unregistAdmin, hslot, hpid]
      rw [Library.after, hrun]
      exact (blank_leased hs hidle).same rfl rfl
    · have hrun : unregistAdmin a pid s = .ok false s := by simp [unregistAdmin, hslot, hpid]
      simpa [Library.after, hrun] using hs

/-- The end of an eviction that was not stolen returns, if taking the bucket does. -/
theorem evictBucketFinish_ok {take : Nat → ShmM Unit} {slot : ShareMemActiveStatus}
    (hslot : s.activeStatus[a]? = some slot) (hstolen : slot.stolen = false)
    (hx : s.buckets[b]? = some x)
    (htake : ∀ t : SharedMem, t.buckets[b]? = some .blank → ∃ t', take b t = .ok () t') :
    ∃ rc t, evictBucketFinish (some b) a take s = .ok rc t := by
  rcases evictBucketFinish_cases (some b) a take s with ⟨t, hrun, -⟩ | ⟨e, t, hrun, hmove⟩ |
    ⟨i, y, slot', hi, hy, -, -, hrun⟩
  · exact ⟨_, t, hrun⟩
  · -- the end of an eviction fails only without a slot or a bucket
    let s₁ := s.updSlot a SharedMem.endEviction
    have hslot₁ : s₁.activeStatus[a]? = some (SharedMem.endEviction slot) := by
      simp [s₁, hslot]
    have hx₁ : s₁.buckets[b]? = some x := hx
    obtain ⟨t', ht'⟩ := htake (s₁.updBucket b fun _ => .blank) (by simp [hx₁])
    have hfirst : modifySlot a (fun slot => { slot with
        evictFileId := FileId.invalid, fileBlockIndex := none, evicting := false }) s =
        .ok () s₁ := rfl
    simp only [evictBucketFinish, Library.run_bind, hfirst, run_slotAt_some hslot₁,
      SharedMem.endEviction, hstolen, Bool.false_eq_true, if_false, run_inRange_some,
      run_bucketAt_some hx₁, run_modifyBucket, ht', Library.run_pure] at hrun
    cases hrun
  · cases hi
    obtain ⟨t', ht'⟩ := htake ((s.updSlot a SharedMem.endEviction).updBucket b fun _ => .blank)
      (by simp [hx])
    rw [Library.run_bind, ht'] at hrun
    exact ⟨_, t', hrun⟩

/-- The evictor acquires the bucket it was leased. -/
theorem evictBucketFinishAndTryAcquire_leased {bucketId : Option Nat} (hs : s.Leased)
    (hlease : ShmOp.Leases s bucketId a) (fileId : FileId) (w : Bool) :
    (Library.after (evictBucketFinishAndTryAcquire bucketId a fileId w) s).Leased := by
  obtain ⟨b, x, rfl, hx, hevicting, hholder⟩ := hlease
  obtain ⟨-, e, slot, he, hslot, -⟩ := hs.bucket b x hx hevicting
  obtain rfl := Option.some.inj (hholder.symm.trans he)
  have hok : ∃ rc t, evictBucketFinishAndTryAcquire (some b) a fileId w s = .ok rc t := by
    refine evictBucketFinish_ok hslot (hs.kept a slot hslot) hx fun t ht => ?_
    have hset : (t.updBucket b fun bucket =>
        { bucket.setBucketActive with fileId := fileId }).buckets[b]? =
        some { ShareMemBucket.blank with type := .active, fileId := fileId } := by
      simp [ht, ShareMemBucket.setBucketActive]
    have hfill : Library.fillFirst ⟨w, a⟩ ShareMemBucket.blank.activeInfos =
      some (ShareMemBucket.taken w a fileId).activeInfos := rfl
    simp only [Library.run_bind, run_modifyBucket, markBucket_some hset hfill, run_modifyHeader]
    exact ⟨_, rfl⟩
  rcases evictBucketFinishAndTryAcquire_cases (some b) a fileId w s with
    ⟨s', hrun, hmove⟩ | ⟨e, s', hrun, -⟩ | ⟨i, y, s', hi, -, hrun, hmove, -⟩
  · simpa [Library.after, hrun] using hmove.leased trivial hs
  · obtain ⟨rc, t, hok⟩ := hok
    rw [hrun] at hok
    cases hok
  · cases hi
    simpa [Library.after, hrun] using hmove.leased ⟨b, x, rfl, hx, hevicting, hholder⟩ hs

/-- The evictor frees the bucket it was leased. -/
theorem evictBucketFinishAndTryFree_leased {bucketId : Option Nat} (hs : s.Leased)
    (hlease : ShmOp.Leases s bucketId a) :
    (Library.after (evictBucketFinishAndTryFree bucketId a) s).Leased := by
  obtain ⟨b, x, rfl, hx, hevicting, hholder⟩ := hlease
  obtain ⟨-, e, slot, he, hslot, -⟩ := hs.bucket b x hx hevicting
  obtain rfl := Option.some.inj (hholder.symm.trans he)
  have hok : ∃ rc t, evictBucketFinishAndTryFree (some b) a s = .ok rc t :=
    evictBucketFinish_ok hslot (hs.kept a slot hslot) hx fun t _ => ⟨_, rfl⟩
  rcases evictBucketFinishAndTryFree_cases (some b) a s with
    ⟨s', hrun, hmove⟩ | ⟨e, s', hrun, -⟩ | ⟨i, y, s', hi, -, hrun, hmove⟩
  · simpa [Library.after, hrun] using hmove.leased trivial hs
  · obtain ⟨rc, t, hok⟩ := hok
    rw [hrun] at hok
    cases hok
  · cases hi
    simpa [Library.after, hrun] using hmove.leased ⟨b, x, rfl, hx, hevicting, hholder⟩ hs

/-- No used bucket holds the block of the file. -/
def NotUsed (s : SharedMem) (fileId : FileId) (blockId : Option Nat) : Prop :=
  ∀ x ∈ s.buckets, x.type = .used → x.fileId = fileId → x.fileBlockIndex ≠ blockId

theorem NotUsed.modify {f : ShareMemBucket → ShareMemBucket} {fileId : FileId}
    {blockId : Option Nat} (h : NotUsed s fileId blockId)
    (hbuckets : s'.buckets = s.buckets.modify b f)
    (hf : ∀ y, s.buckets[b]? = some y → (f y).type = .used → (f y).fileBlockIndex ≠ blockId) :
    NotUsed s' fileId blockId := by
  intro x hx hused hfile
  obtain ⟨i, hi⟩ := List.mem_iff_getElem?.mp hx
  rw [hbuckets, List.getElem?_modify] at hi
  by_cases hbi : b = i
  · simp only [hbi, if_true] at hi
    obtain ⟨y, hy, rfl⟩ := Option.map_eq_some_iff.mp hi
    exact hf y (hbi ▸ hy) hused
  · simp only [hbi, if_false] at hi
    exact h x (List.mem_of_getElem? (by simpa using hi)) hused hfile

/-- The bucket of a block that no used bucket holds turns used, or stays active. -/
theorem inactivateOne_leased {block : Block} (hs : s.Leased) (fileId : FileId)
    (hnot : NotUsed s fileId block.blockId) :
    (Library.after (inactivateOne block fileId a) s).Leased ∧
      ∀ blockId, blockId ≠ block.blockId → NotUsed s fileId blockId →
        NotUsed (Library.after (inactivateOne block fileId a) s) fileId blockId := by
  rcases inactivateOne_cases block fileId a s with ⟨e, hrun⟩ | ⟨b, x, hb, hx, htype, hcases⟩
  · simp only [Library.after, hrun]
    exact ⟨hs, fun _ _ => id⟩
  have hidle := hs.idle_of_ne hx (by simp [htype])
  have htable := hs.table b x hx
  rcases hcases with ⟨e, s', hrun, hmove⟩ | ⟨infos, usage, hclear, ⟨s', -, hrun, -, rfl⟩ |
    ⟨s', hvacant, hrun, -, hslots, hbuckets⟩⟩
  · simp only [Library.after, hrun]
    refine ⟨hmove.leased trivial hs, fun blockId _ hother => ?_⟩
    cases hmove with
    | leaveFailed hx' htype' hinfos =>
        refine hother.modify rfl fun y hy hused => ?_
        obtain rfl := Option.some.inj (hx'.symm.trans hy)
        simp [htype'] at hused
  · simp only [Library.after, hrun]
    refine ⟨hs.recycle hx hidle rfl rfl (by simp [htype]) hidle
      ((Library.length_clearFirst hclear).trans htable), fun blockId _ hother => ?_⟩
    refine hother.modify rfl fun y hy hused => ?_
    obtain rfl := Option.some.inj (hx.symm.trans hy)
    simp [htype] at hused
  · simp only [Library.after, hrun]
    refine ⟨hs.rebucket hbuckets hslots fun y hy => ?_, fun blockId hne hother => ?_⟩
    · obtain rfl := Option.some.inj (hx.symm.trans hy)
      refine ⟨hidle, hidle, (Library.length_clearFirst hclear).trans htable, fun _ => hvacant,
        fun _ b' x' hx' hused hfile hindex => ?_⟩
      -- no used bucket held the block
      exact absurd hindex.symm (hnot x' (List.mem_of_getElem? hx') hused hfile.symm)
    · exact hother.modify hbuckets fun y hy hused => hne.symm

/-- Blocks with different numbers, none of them in a used bucket, are inactivated. -/
theorem inactivateBuckets_leased (fileId : FileId) : ∀ {blocks : List Block} {s : SharedMem},
    s.Leased → (blocks.map Block.blockId).Nodup →
    (∀ block ∈ blocks, NotUsed s fileId block.blockId) →
    (Library.after (inactivateBuckets fileId a blocks) s).Leased := by
  intro blocks
  induction blocks with
  | nil =>
      intro s hs _ _
      exact hs
  | cons block rest ih =>
      intro s hs hnodup hnot
      obtain ⟨hfirst, hothers⟩ := inactivateOne_leased (a := a) hs fileId
        (hnot block List.mem_cons_self)
      obtain ⟨hnew, hrest⟩ := List.nodup_cons.mp hnodup
      cases hrun : inactivateOne block fileId a s with
      | error e s' =>
          simp only [Library.after, hrun, inactivateBuckets, Library.run_bind] at hfirst ⊢
          exact hfirst
      | ok turned s' =>
          simp only [Library.after, hrun] at hfirst hothers
          have htail := ih hfirst hrest fun other hmem => hothers _
            (fun h => hnew (h ▸ List.mem_map_of_mem hmem))
            (hnot other (List.mem_cons_of_mem _ hmem))
          simp only [Library.after, inactivateBuckets, Library.run_bind, hrun] at htail ⊢
          cases hrest' : inactivateBuckets fileId a rest s' with
          | ok others s'' =>
              rw [hrest'] at htail
              exact htail
          | error e s'' =>
              rw [hrest'] at htail
              exact htail

end SharedMemoryContext

namespace ShmOp

open SharedMemoryContext (NotUsed)

/-- When an operation keeps every lease: a handle starts one eviction at a time and ends
it itself; until then it neither leaves nor loads, its victim is neither activated nor
deleted; and a block turns used in one bucket only. -/
def Lawful (s : SharedMem) : ShmOp → Prop
  | .unregistFile a _ | .unregistAdmin a _ => Idle s a
  | .markBucketEvicting a => MayEvict s a
  | .evictBucketFinishAndTryAcquire bucketId a _ _ => Leases s bucketId a
  | .evictBucketFinishAndTryFree bucketId a => Leases s bucketId a
  | .markBucketLoading b _ a _ => Idle s a ∧ ∀ x ∈ s.buckets[b]?, x.type = .active
  | .markLoadFinish b a => Idle s a ∧ ∀ x ∈ s.buckets[b]?, x.type = .active
  | .activateBucket fileId block _ _ => Named s [block] fun x => x.fileId = fileId →
      x.fileBlockIndex = block.blockId → x.type = .used → x.evicting = false
  | .inactivateBuckets fileId _ blocks =>
      (blocks.map Block.blockId).Nodup ∧ ∀ block ∈ blocks, NotUsed s fileId block.blockId
  | .updateActiveFileInfo block _ => Named s [block] fun x => x.type = .active
  | .deleteBlocks fileId blocks => Named s blocks fun x => x.fileId = fileId → x.evicting = false
  | _ => True

/-- A lawful operation keeps every lease, whether it returns or throws. -/
theorem run_leased {cfg : Config} {op : ShmOp} (hs : s.Leased) (hlawful : op.Lawful s) :
    (op.run cfg s).Leased := by
  cases op with
  | registFile pid fileId isDelete =>
      exact (SharedMemoryContext.registFile_leased pid fileId isDelete).after hs
  | registAdmin pid => exact (SharedMemoryContext.registAdmin_leased pid).after hs
  | unregistFile a pid => exact SharedMemoryContext.unregistFile_leased a pid hs hlawful
  | unregistAdmin a pid => exact SharedMemoryContext.unregistAdmin_leased a pid hs hlawful
  | isFileOpening fileId => exact hs
  | acquireFreeBucket a num fileId isWrite =>
      exact (SharedMemoryContext.acquireFreeBucket_keeps (P := SharedMem.Leased)
        (fun _ _ _ hmove ht => hmove.leased trivial ht)
        (fun _ _ _ hmove ht => hmove.leased trivial ht) num fileId isWrite).after hs
  | markBucketEvicting a =>
      have hsweep : Spec (fun t => t.Leased ∧ MayEvict t a)
          (SharedMemoryContext.markBucketEvicting a) (fun _ => SharedMem.Leased)
          (fun _ => SharedMem.Leased) := by
        refine Spec.conseq (SharedMemoryContext.markBucketEvicting_spec
          (P := fun t => t.Leased ∧ MayEvict t a) (Q := fun _ => SharedMem.Leased)
          ?_ ?_ ?_) (fun _ => id) (fun _ _ => id) fun _ _ ht => ht.1
        · rintro t t' hmove ⟨ht, hmay⟩
          refine ⟨hmove.leased trivial ht, ?_⟩
          cases hmove
          exact hmay
        · rintro b t t' hmove ⟨ht, hmay⟩
          refine ⟨hmove.leased trivial ht, ?_⟩
          cases hmove
          exact hmay
        · rintro t t' b x ⟨ht, hmay⟩ - hmove
          exact hmove.leased hmay ht
      exact Spec.after hsweep ⟨hs, hlawful⟩
  | evictBucketFinishAndTryAcquire bucketId a fileId isWrite =>
      exact SharedMemoryContext.evictBucketFinishAndTryAcquire_leased hs hlawful fileId isWrite
  | evictBucketFinishAndTryFree bucketId a =>
      exact SharedMemoryContext.evictBucketFinishAndTryFree_leased hs hlawful
  | markBucketLoading b i a fileId =>
      rcases SharedMemoryContext.markBucketLoading_cases b i a fileId s with
        ⟨-, hrun⟩ | ⟨-, s', hrun, hmove⟩
      · simpa [run, Library.after, hrun] using hs
      · simpa [run, Library.after, hrun] using hmove.leased hlawful hs
  | markLoadFinish b a =>
      obtain ⟨s', hrun, hmove⟩ := SharedMemoryContext.markLoadFinish_move b a s
      simpa [run, Library.after, hrun] using hmove.leased hlawful hs
  | releaseBuckets blocks =>
      exact (SharedMemoryContext.releaseBuckets_keeps (P := SharedMem.Leased)
        fun _ _ _ _ _ _ hmove ht => hmove.leased trivial ht).after hs
  | activateBucket fileId block a isWrite =>
      rcases SharedMemoryContext.activateBucket_cases fileId block a isWrite s with
        ⟨e, hrun⟩ | ⟨b, x, hb, hx, hfile, hindex, hcases⟩
      · simpa [run, Library.after, hrun] using hs
      · -- a used bucket of the block is not evicting
        have hidle : x.type = .used → x.evicting = false :=
          hlawful block List.mem_cons_self b hb x hx hfile hindex
        rcases hcases with ⟨s', hrun, hmove | ⟨e, hmove⟩⟩ | ⟨s', hrun, hmove⟩ | ⟨e, s', hrun, hmove⟩
        · simpa [run, Library.after, hrun] using hmove.leased trivial hs
        · cases hmove with
          | steal hx' htype hevicting =>
              obtain rfl := Option.some.inj (hx.symm.trans hx')
              rw [hidle htype] at hevicting
              cases hevicting
        · simpa [run, Library.after, hrun] using hmove.leased trivial hs
        · have hunleased : ∀ y, s.buckets[b]? = some y → y.evicting = false := by
            intro y hy
            obtain rfl := Option.some.inj (hx.symm.trans hy)
            cases hmove with
            | activateFailed hx' htype =>
                obtain rfl := Option.some.inj (hx.symm.trans hx')
                exact hidle htype
          simpa [run, Library.after, hrun] using hmove.leased hunleased hs
  | inactivateBuckets fileId a blocks =>
      exact SharedMemoryContext.inactivateBuckets_leased fileId hs hlawful.1 hlawful.2
  | updateActiveFileInfo block fileId =>
      rcases SharedMemoryContext.updateActiveFileInfo_cases block fileId s with
        ⟨e, hrun⟩ | ⟨b, x, s', hb, -, -, hrun, hmove, -⟩
      · simpa [run, Library.after, hrun] using hs
      · have hactive : Move.Lawful s (.index b) := hlawful block List.mem_cons_self b hb
        simpa [run, Library.after, hrun] using hmove.leased hactive hs
  | deleteBlocks fileId blocks =>
      have hkeep : Keeps (fun t => t.Leased ∧ Named t blocks fun x => x.fileId = fileId →
          x.evicting = false) (SharedMemoryContext.deleteBlocks fileId blocks) := by
        refine SharedMemoryContext.deleteBlocks_keeps ?_ ?_
        · rintro block hblock b hb t t' hmove ⟨ht, hnamed⟩
          refine ⟨hmove.leased (fun x hx => hnamed block hblock b hb x hx) ht, ?_⟩
          cases hmove with
          | reset hx htype => exact hnamed.modify rfl fun y hy hold hfile => rfl
        · rintro block hblock b hb t t' hmove ⟨ht, hnamed⟩
          refine ⟨hmove.leased trivial ht, ?_⟩
          cases hmove with
          | flag hx htype hevicting => exact hnamed.modify rfl fun y hy hold hfile => hold hfile
      exact (hkeep.after ⟨hs, hlawful⟩).1
  | updateBucketDataSize b size fileId a =>
      exact (SharedMemoryContext.updateBucketDataSize_keeps (P := SharedMem.Leased)
        (fun _ _ _ hmove ht => hmove.leased trivial ht) b size fileId).after hs
  | getBucketDataSize b fileId i =>
      exact (SharedMemoryContext.getBucketDataSize_keeps cfg b fileId i).after hs

instance (s : SharedMem) (a : Nat) : Decidable (Idle s a) :=
  inferInstanceAs (Decidable (∀ slot ∈ s.activeStatus[a]?, slot.evicting = false))

instance (s : SharedMem) (a : Nat) : Decidable (MayEvict s a) :=
  decidable_of_iff ((s.activeStatus[a]?.any fun slot =>
      slot.pid.isSome && !slot.evicting) = true) (by
    cases hslot : s.activeStatus[a]? with
    | none => simp [MayEvict, hslot]
    | some slot => simp [MayEvict, hslot, Option.isSome_iff_ne_none])

instance (s : SharedMem) (bucketId : Option Nat) (a : Nat) : Decidable (Leases s bucketId a) :=
  decidable_of_iff (((bucketId.bind (s.buckets[·]?)).any fun x =>
      x.evicting && x.evictLoadActiveId = some a) = true) (by
    cases bucketId with
    | none => simp [Leases]
    | some b =>
        cases hx : s.buckets[b]? with
        | none => simp [Leases, hx]
        | some x => simp [Leases, hx])

instance (s : SharedMem) (fileId : FileId) (blockId : Option Nat) :
    Decidable (NotUsed s fileId blockId) :=
  inferInstanceAs (Decidable (∀ x ∈ s.buckets, x.type = .used → x.fileId = fileId →
    x.fileBlockIndex ≠ blockId))

instance (s : SharedMem) : (op : ShmOp) → Decidable (op.Lawful s)
  | .unregistFile a _ | .unregistAdmin a _ => inferInstanceAs (Decidable (Idle s a))
  | .markBucketEvicting a => inferInstanceAs (Decidable (MayEvict s a))
  | .evictBucketFinishAndTryAcquire bucketId a _ _ =>
      inferInstanceAs (Decidable (Leases s bucketId a))
  | .evictBucketFinishAndTryFree bucketId a => inferInstanceAs (Decidable (Leases s bucketId a))
  | .markBucketLoading b _ a _ => inferInstanceAs (Decidable (Idle s a ∧
      ∀ x ∈ s.buckets[b]?, x.type = .active))
  | .markLoadFinish b a => inferInstanceAs (Decidable (Idle s a ∧
      ∀ x ∈ s.buckets[b]?, x.type = .active))
  | .activateBucket _ block _ _ => inferInstanceAs (Decidable (Named s [block] _))
  | .inactivateBuckets fileId _ blocks => inferInstanceAs (Decidable (
      (blocks.map Block.blockId).Nodup ∧ ∀ block ∈ blocks, NotUsed s fileId block.blockId))
  | .updateActiveFileInfo block _ => inferInstanceAs (Decidable (Named s [block] _))
  | .deleteBlocks _ blocks => inferInstanceAs (Decidable (Named s blocks _))
  | .registFile _ _ _ => isTrue trivial
  | .registAdmin _ => isTrue trivial
  | .isFileOpening _ => isTrue trivial
  | .acquireFreeBucket _ _ _ _ => isTrue trivial
  | .releaseBuckets _ => isTrue trivial
  | .updateBucketDataSize _ _ _ _ => isTrue trivial
  | .getBucketDataSize _ _ _ => isTrue trivial

end ShmOp

/-- In every state that lawful operations reach from a reset segment, whoever calls them
and whether they return or throw, the leases are consistent. -/
theorem SharedMem.leases_of_run (cfg : Config) (s : SharedMem)
    (hrun : Run (ShmOp.step cfg) (fun s op => op.Lawful s) (SharedMem.reset cfg) s) :
    s.LeaseConsistent := by
  have hleased : s.Leased := by
    refine hrun.induct (leased_reset cfg) fun s op s' hs hlawful hstep => ?_
    obtain rfl := Option.some.inj hstep
    exact ShmOp.run_leased hs hlawful
  exact hleased.consistent

namespace ShmOp

/-- A block is evicted by another handle, and its file is opened by a third one. -/
theorem leases_evicting :
    ∃ s, execute (step (.intact 2 1 4 1)) (fun s op => op.Lawful s)
        (SharedMem.reset (.intact 2 1 4 1))
        (evicting ++ [.registFile 3 ⟨7, 0⟩ false]) = some s ∧ s.LeaseConsistent := by
  have hsome : (execute (step (.intact 2 1 4 1)) (fun s op => op.Lawful s)
      (SharedMem.reset (.intact 2 1 4 1))
      (evicting ++ [.registFile 3 ⟨7, 0⟩ false])).isSome = true := by
    decide +kernel
  obtain ⟨s, hs⟩ := Option.isSome_iff_exists.mp hsome
  exact ⟨s, hs, SharedMem.leases_of_run _ s (Run.of_execute hs)⟩

/-- The owner takes the bucket back during the eviction, the evictor ends it, and the
owner lets the bucket go. -/
def takingBack : List ShmOp :=
  evicting ++ [.activateBucket ⟨7, 0⟩ firstBlock 0 true,
    .evictBucketFinishAndTryAcquire (some 0) 1 ⟨8, 0⟩ true,
    .inactivateBuckets ⟨7, 0⟩ 0 [firstBlock]]

/-- The bucket is used and carries its evicting bit although no slot evicts anything. -/
theorem unleased_takingBack :
    ¬ ∀ (cfg : Config) (s : SharedMem),
      Run (step cfg) anyStep (SharedMem.reset cfg) s → s.LeaseConsistent := by
  intro hclaim
  have hwrong :
      ((execute (step (.intact 2 1 4 1)) anyStep (SharedMem.reset (.intact 2 1 4 1)) takingBack).any
      fun s => s.buckets.any fun x => x.evicting && x.type = .used &&
        s.activeStatus.all fun slot => !slot.evicting) = true := by
    decide +kernel
  obtain ⟨s, hs, hwrong⟩ := (Option.any_eq_true _ _).mp hwrong
  obtain ⟨x, hx, hwrong⟩ := List.any_eq_true.mp hwrong
  simp only [Bool.and_eq_true, decide_eq_true_eq, List.all_eq_true, Bool.not_eq_true'] at hwrong
  obtain ⟨⟨hevicting, hused⟩, hnone⟩ := hwrong
  obtain ⟨b, hb⟩ := List.mem_iff_getElem?.mp hx
  obtain ⟨-, e, slot, hslot, hevicts, -⟩ :=
    ((hclaim (.intact 2 1 4 1) s (Run.of_execute hs)).lease b x hb).mp hevicting
  have := hnone slot (List.mem_of_getElem? hslot)
  rw [hevicts.2.1] at this
  cases this

end ShmOp

end Gopherwood
