/-
# Accesses and usage counts

The usage count of a bucket is meant to be the number of accesses to its block, less what
the clock sweep has taken. The code keeps an `int16_t` for each bucket and one for each
entry of a block array, and an inactivation adds the whole count of the entry. Next to the
counts of the code runs a ledger with the numbers that are meant: unbounded, and each
access added once. As long as no number leaves the sixteen bits and no entry is
inactivated a second time after it was accessed, the two agree, so the sweep sees every
block as used as it is.
-/

import Gopherwood.Segment.UsageCount
import Mathlib.Logic.Function.Basic

namespace Gopherwood

open Library (Run after anyStep execute)

/-- The segment, and the block array of each handle. -/
structure Counts where
  shm : SharedMem
  blocks : Nat → List Block

/-- `mBlockArray[i].usageCount++` in `getCurBlockInfo`. -/
def countAccess (i : Nat) (blocks : List Block) : List Block :=
  blocks.modify i fun b => { b with usageCount := wrap16 (b.usageCount + 1) }

/-- Steps on the counts. A handle counts an access, inactivates one of its blocks (a round
of `inactivateBuckets`), calls another operation of the segment, or changes an entry of its
block array: the last four are the load, the eviction and the replay of a record, the
extension, the change of a state, and the close. -/
inductive CountOp
  | getCurBlockInfo (n i : Nat)
  | inactivate (n i : Nat) (fileId : FileId) (activeId : Nat)
  | segment (op : ShmOp)
  | setBlock (n i : Nat) (block : Block)
  | pushBlock (n : Nat) (block : Block)
  | setState (n i : Nat) (state : BucketType)
  | clear (n : Nat)

/-- The operation adds to counts. -/
def ShmOp.isInactivation : ShmOp → Bool
  | .inactivateBuckets _ _ _ => true
  | _ => false

namespace Counts

/-- The block array of a handle is changed. -/
def onBlocks (c : Counts) (n : Nat) (f : List Block → List Block) : Counts :=
  { c with blocks := Function.update c.blocks n (f (c.blocks n)) }

def run (cfg : Config) (c : Counts) : CountOp → Counts
  | .getCurBlockInfo n i => c.onBlocks n (countAccess i)
  | .inactivate n i fileId a =>
      match (c.blocks n)[i]? with
      | none => c
      | some block =>
          { c with shm := after (SharedMemoryContext.inactivateOne block fileId a) c.shm }
  | .segment op => { c with shm := op.run cfg c.shm }
  | .setBlock n i block => c.onBlocks n (·.set i block)
  | .pushBlock n block => c.onBlocks n (· ++ [block])
  | .setState n i state => c.onBlocks n (·.modify i fun b => { b with state := state })
  | .clear n => c.onBlocks n fun _ => []

end Counts

/-- The accesses to an entry since it was made, and how many of them were added to its
bucket. -/
structure Tally where
  accesses : Nat
  reported : Nat

/-- The segment with the counts that are meant, and the accesses of each handle. -/
structure Ledger where
  shm : SharedMem
  tallies : Nat → List Tally

namespace Ledger

def onTallies (l : Ledger) (n : Nat) (f : List Tally → List Tally) : Ledger :=
  { l with tallies := Function.update l.tallies n (f (l.tallies n)) }

/-- The round of `inactivateBuckets`, but for the count that it leaves: the old one and the
given number of accesses. -/
def inactivate (block : Block) (fileId : FileId) (a accesses : Nat) (s : SharedMem) : SharedMem :=
  let t := after (SharedMemoryContext.inactivateOne block fileId a) s
  match block.bucketId with
  | none => t
  | some b => t.updBucket b fun y => { y with
      usageCount := (s.buckets[b]?.elim 0 ShareMemBucket.usageCount) + accesses }

/-- What a step does to the ledger. The accesses that were added to a bucket before are not
added again. -/
def record (cfg : Config) (c : Counts) (l : Ledger) : CountOp → Ledger
  | .getCurBlockInfo n i =>
      l.onTallies n (·.modify i fun t => { t with accesses := t.accesses + 1 })
  | .inactivate n i fileId a =>
      match (c.blocks n)[i]?, (l.tallies n)[i]? with
      | some block, some t =>
          if SharedMemoryContext.adds l.shm block then
            { l with shm := inactivate block fileId a (t.accesses - t.reported) l.shm }.onTallies n
              (·.modify i fun t => { t with reported := t.accesses })
          else l
      | _, _ => l
  | .segment op => { l with shm := op.run cfg l.shm }
  | .setBlock n i _ => l.onTallies n (·.set i ⟨0, 0⟩)
  | .pushBlock n _ => l.onTallies n (· ++ [⟨0, 0⟩])
  | .setState _ _ _ => l
  | .clear n => l.onTallies n fun _ => []

end Ledger

/-- The counts of the code and the ledger. -/
structure Accounts where
  counts : Counts
  ledger : Ledger

namespace Accounts

def init (cfg : Config) : Accounts where
  counts := ⟨SharedMem.reset cfg, fun _ => []⟩
  ledger := ⟨SharedMem.reset cfg, fun _ => []⟩

/-- What inactivates blocks is a step of the handle that has them. -/
def step (cfg : Config) (s : Accounts) (op : CountOp) : Option Accounts :=
  match op with
  | .segment (.inactivateBuckets _ _ _) => none
  | op => some ⟨s.counts.run cfg op, s.ledger.record cfg s.counts op⟩

/-- No number of accesses passes the largest `int16_t`: neither those to one entry, nor
those added to one bucket. No entry is inactivated again after accesses to it were added to
its bucket, and a new entry comes with no accesses. -/
def Sparing (s : Accounts) : CountOp → Prop
  | .getCurBlockInfo n i => ∀ t ∈ (s.ledger.tallies n)[i]?, t.accesses + 1 < 2 ^ 15
  | .inactivate n i _ _ => ∀ block ∈ (s.counts.blocks n)[i]?, ∀ t ∈ (s.ledger.tallies n)[i]?,
      SharedMemoryContext.adds s.ledger.shm block = true → t.reported = 0 ∧
        ∀ b ∈ block.bucketId, ∀ u ∈ s.ledger.shm.usages[b]?, u + t.accesses < 2 ^ 15
  | .setBlock _ _ block | .pushBlock _ block => block.usageCount = 0
  | .segment _ | .setState _ _ _ | .clear _ => True

instance (s : Accounts) (op : CountOp) : Decidable (s.Sparing op) :=
  match op with
  | .getCurBlockInfo n i =>
      inferInstanceAs (Decidable (∀ t ∈ (s.ledger.tallies n)[i]?, t.accesses + 1 < 2 ^ 15))
  | .inactivate n i _ _ => inferInstanceAs (Decidable (∀ block ∈ (s.counts.blocks n)[i]?,
      ∀ t ∈ (s.ledger.tallies n)[i]?, SharedMemoryContext.adds s.ledger.shm block = true →
        t.reported = 0 ∧
          ∀ b ∈ block.bucketId, ∀ u ∈ s.ledger.shm.usages[b]?, u + t.accesses < 2 ^ 15))
  | .setBlock _ _ block | .pushBlock _ block => inferInstanceAs (Decidable (block.usageCount = 0))
  | .segment _ | .setState _ _ _ | .clear _ => isTrue trivial

/-! ## What holds in a run -/

/-- No usage count of the code is negative. -/
structure Nonneg (s : Accounts) : Prop where
  buckets : ∀ x ∈ s.counts.shm.buckets, 0 ≤ x.usageCount
  blocks : ∀ n, ∀ block ∈ s.counts.blocks n, 0 ≤ block.usageCount

/-- A bucket whose block was accessed at least as often as that of another one, as the
ledger counts them, does not look less used to the sweep. -/
def NeverLooksLess (s : Accounts) : Prop :=
  ∀ b b' : Nat, ∀ u ∈ s.ledger.shm.usages[b]?, ∀ u' ∈ s.ledger.shm.usages[b']?, u ≤ u' →
    ∀ v ∈ s.counts.shm.usages[b]?, ∀ v' ∈ s.counts.shm.usages[b']?, v ≤ v'

/-- The code counts as the ledger does. -/
structure Exact (s : Accounts) : Prop where
  shm : s.counts.shm = s.ledger.shm
  blocks : ∀ n, (s.counts.blocks n).map Block.usageCount =
    (s.ledger.tallies n).map fun t => (t.accesses : Int)
  small : ∀ n, ∀ t ∈ s.ledger.tallies n, t.accesses < 2 ^ 15
  counted : s.ledger.shm.Counted

variable {cfg : Config} {s s' : Accounts} {op : CountOp}

theorem Exact.nonneg (h : s.Exact) : s.Nonneg := by
  constructor
  · intro x hx
    rw [h.shm] at hx
    exact h.counted x.usageCount (List.mem_map_of_mem hx)
  · intro n block hblock
    have hmem : block.usageCount ∈ (s.counts.blocks n).map Block.usageCount :=
      List.mem_map_of_mem hblock
    rw [h.blocks n] at hmem
    obtain ⟨t, _, ht⟩ := List.mem_map.mp hmem
    exact ht ▸ Int.natCast_nonneg t.accesses

theorem Exact.neverLooksLess (h : s.Exact) : s.NeverLooksLess := by
  intro b b' u hu u' hu' hle v hv v' hv'
  rw [h.shm] at hv hv'
  obtain rfl : u = v := Option.some.inj (hu.symm.trans hv)
  obtain rfl : u' = v' := Option.some.inj (hu'.symm.trans hv')
  exact hle

theorem exact_init (cfg : Config) : (init cfg).Exact where
  shm := rfl
  blocks := fun _ => rfl
  small := by
    intro n t ht
    cases ht
  counted := SharedMem.counted_reset cfg

end Accounts

theorem ShmOp.run_counted {op : ShmOp} {s : SharedMem} (cfg : Config)
    (hop : op.isInactivation = false) (hs : s.Counted) : (op.run cfg s).Counted := by
  cases op with
  | registFile pid fileId isDelete =>
      exact (SharedMemoryContext.registFile_counted pid fileId isDelete).after hs
  | registAdmin pid => exact (SharedMemoryContext.registAdmin_counted pid).after hs
  | unregistFile a pid => exact (SharedMemoryContext.unregistFile_counted a pid).after hs
  | unregistAdmin a pid => exact (SharedMemoryContext.unregistAdmin_counted a pid).after hs
  | isFileOpening fileId => exact (SharedMemoryContext.isFileOpening_keeps fileId).after hs
  | acquireFreeBucket a num fileId isWrite =>
      exact (SharedMemoryContext.acquireFreeBucket_counted a num fileId isWrite).after hs
  | markBucketEvicting a => exact (SharedMemoryContext.markBucketEvicting_counted a).after hs
  | evictBucketFinishAndTryAcquire b a fileId isWrite =>
      exact (SharedMemoryContext.evictBucketFinishAndTryAcquire_counted b a fileId isWrite).after hs
  | evictBucketFinishAndTryFree b a =>
      exact (SharedMemoryContext.evictBucketFinishAndTryFree_counted b a).after hs
  | markBucketLoading b i a fileId =>
      exact (SharedMemoryContext.markBucketLoading_counted b i a fileId).after hs
  | markLoadFinish b a => exact (SharedMemoryContext.markLoadFinish_counted b a).after hs
  | releaseBuckets blocks => exact (SharedMemoryContext.releaseBuckets_counted blocks).after hs
  | activateBucket fileId block a isWrite =>
      exact (SharedMemoryContext.activateBucket_counted fileId block a isWrite).after hs
  | inactivateBuckets fileId a blocks => cases hop
  | updateActiveFileInfo block fileId =>
      exact (SharedMemoryContext.updateActiveFileInfo_counted block fileId).after hs
  | deleteBlocks fileId blocks =>
      exact (SharedMemoryContext.deleteBlocks_counted fileId blocks).after hs
  | updateBucketDataSize b size fileId a =>
      exact (SharedMemoryContext.updateBucketDataSize_counted cfg b size fileId a).after hs
  | getBucketDataSize b fileId i =>
      exact (SharedMemoryContext.getBucketDataSize_keeps cfg b fileId i).after hs

/-- A count that is stored again. -/
theorem SharedMem.updBucket_usage {s : SharedMem} {b : Nat} {u : Int}
    (h : ∀ v ∈ s.usages[b]?, v = u) : (s.updBucket b fun y => { y with usageCount := u }) = s := by
  have hsame : s.buckets.modify b (fun y => { y with usageCount := u }) = s.buckets := by
    apply List.ext_getElem?
    intro i
    rw [List.getElem?_modify]
    split
    · next hi =>
        subst hi
        cases hx : s.buckets[b]? with
        | none => rfl
        | some x =>
            have hu : x.usageCount = u := h _ (by simp [SharedMem.usages, hx])
            simp [← hu]
    · simp
  simp [SharedMem.updBucket, hsame]

/-- An inactivation of a block whose accesses fit adds what the ledger adds. -/
theorem Ledger.inactivate_eq {s : SharedMem} {block : Block} {accesses : Nat} (hs : s.Counted)
    (hadds : SharedMemoryContext.adds s block = true) (hcount : block.usageCount = accesses)
    (hfits : ∀ b ∈ block.bucketId, ∀ u ∈ s.usages[b]?, u + accesses < 2 ^ 15)
    (fileId : FileId) (a : Nat) : Ledger.inactivate block fileId a accesses s =
      after (SharedMemoryContext.inactivateOne block fileId a) s := by
  obtain ⟨b, hb, husages⟩ := SharedMemoryContext.inactivateOne_usages hadds fileId a
  simp only [Ledger.inactivate, hb]
  apply SharedMem.updBucket_usage
  intro v hv
  rw [husages, Option.mem_def, List.getElem?_modify] at hv
  obtain ⟨u, hu, hv⟩ := Option.map_eq_some_iff.mp hv
  rw [if_pos rfl] at hv
  subst hv
  have hnonneg := hs u (List.mem_of_getElem? hu)
  have hlt := hfits b hb u hu
  rw [hcount, wrap16_of_lt (by omega) hlt]
  rw [SharedMem.usages, List.getElem?_map] at hu
  obtain ⟨x, hx, rfl⟩ := Option.map_eq_some_iff.mp hu
  rw [hx]
  rfl

namespace Accounts

variable {cfg : Config} {s s' : Accounts} {op : CountOp}

/-- The arrays of one handle and its tallies change alike. -/
theorem Exact.onBlocks (h : s.Exact) (n : Nat) {f : List Block → List Block}
    {g : List Tally → List Tally}
    (hcounts : (f (s.counts.blocks n)).map Block.usageCount =
      (g (s.ledger.tallies n)).map fun t => (t.accesses : Int))
    (hsmall : ∀ t ∈ g (s.ledger.tallies n), t.accesses < 2 ^ 15) :
    Exact ⟨s.counts.onBlocks n f, s.ledger.onTallies n g⟩ where
  shm := h.shm
  counted := h.counted
  blocks := by
    intro m
    by_cases hm : m = n
    · subst hm
      simpa [Counts.onBlocks, Ledger.onTallies] using hcounts
    · simpa [Counts.onBlocks, Ledger.onTallies, hm] using h.blocks m
  small := by
    intro m t ht
    by_cases hm : m = n
    · subst hm
      exact hsmall t (by simpa [Ledger.onTallies] using ht)
    · exact h.small m t (by simpa [Ledger.onTallies, hm] using ht)

/-- The count of an entry is the number of its accesses. -/
theorem Exact.usageCount (h : s.Exact) {n i : Nat} {block : Block} {t : Tally}
    (hblock : (s.counts.blocks n)[i]? = some block) (ht : (s.ledger.tallies n)[i]? = some t) :
    block.usageCount = t.accesses := by
  have hcounts := congrArg (·[i]?) (h.blocks n)
  simp only [List.getElem?_map, hblock, ht, Option.map_some] at hcounts
  exact Option.some.inj hcounts

/-- Every entry has a tally. -/
theorem Exact.tally (h : s.Exact) {n i : Nat} {block : Block}
    (hblock : (s.counts.blocks n)[i]? = some block) : ∃ t, (s.ledger.tallies n)[i]? = some t := by
  have hcounts := congrArg (·[i]?) (h.blocks n)
  cases ht : (s.ledger.tallies n)[i]? with
  | none => simp [hblock, ht] at hcounts
  | some t => exact ⟨t, rfl⟩

/-- One entry and its tally change. -/
theorem map_modify_congr {blocks : List Block} {tallies : List Tally} {f : Block → Block}
    {g : Tally → Tally} {i : Nat}
    (h : blocks.map Block.usageCount = tallies.map fun t => (t.accesses : Int))
    (hfg : ∀ block ∈ blocks[i]?, ∀ t ∈ tallies[i]?, (f block).usageCount = (g t).accesses) :
    (blocks.modify i f).map Block.usageCount =
      (tallies.modify i g).map fun t => (t.accesses : Int) := by
  apply List.ext_getElem?
  intro j
  have hcounts := congrArg (·[j]?) h
  simp only [List.getElem?_map, List.getElem?_modify] at hcounts ⊢
  by_cases hj : i = j
  · subst hj
    cases hblock : blocks[i]? with
    | none =>
        cases ht : tallies[i]? with
        | none => rfl
        | some t => simp [hblock, ht] at hcounts
    | some block =>
        cases ht : tallies[i]? with
        | none => simp [hblock, ht] at hcounts
        | some t => simpa using hfg block hblock t ht
  · simpa [hj] using hcounts

theorem small_modify {tallies : List Tally} {g : Tally → Tally} {i : Nat}
    (h : ∀ t ∈ tallies, t.accesses < 2 ^ 15)
    (hg : ∀ t ∈ tallies[i]?, (g t).accesses < 2 ^ 15) :
    ∀ t ∈ tallies.modify i g, t.accesses < 2 ^ 15 := by
  intro t ht
  obtain ⟨j, hj⟩ := List.mem_iff_getElem?.mp ht
  rw [List.getElem?_modify] at hj
  obtain ⟨old, hold, heq⟩ := Option.map_eq_some_iff.mp hj
  split at heq
  · next hij => exact heq ▸ hg old (hij ▸ hold)
  · exact heq ▸ h old (List.mem_of_getElem? hold)

theorem Exact.getCurBlockInfo (h : s.Exact) {n i : Nat}
    (hfits : s.Sparing (.getCurBlockInfo n i)) :
    Exact ⟨s.counts.run cfg (.getCurBlockInfo n i),
      s.ledger.record cfg s.counts (.getCurBlockInfo n i)⟩ := by
  apply h.onBlocks n
  · refine map_modify_congr (h.blocks n) ?_
    intro block hblock t ht
    have hcount := h.usageCount hblock ht
    have hlt := hfits t ht
    show wrap16 (block.usageCount + 1) = (t.accesses + 1 : Nat)
    rw [hcount, wrap16_of_lt (by omega) (by omega)]
    rfl
  · exact small_modify (h.small n) hfits

/-- The first inactivation of an entry after it was accessed adds its accesses. -/
theorem Exact.inactivate (h : s.Exact) {n i a : Nat} {fileId : FileId}
    (hfits : s.Sparing (.inactivate n i fileId a)) :
    Exact ⟨s.counts.run cfg (.inactivate n i fileId a),
      s.ledger.record cfg s.counts (.inactivate n i fileId a)⟩ := by
  unfold Counts.run Ledger.record
  cases hblock : (s.counts.blocks n)[i]? with
  | none => simpa [hblock] using h
  | some block =>
      obtain ⟨t, ht⟩ := h.tally hblock
      cases hadds : SharedMemoryContext.adds s.ledger.shm block with
      | false =>
          have hidle := SharedMemoryContext.inactivateOne_idle hadds fileId a
          simp only [hblock, ht, hadds, h.shm, hidle]
          exact ⟨rfl, h.blocks, h.small, h.counted⟩
      | true =>
          obtain ⟨hfirst, hroom⟩ := hfits block hblock t ht hadds
          have hcount := h.usageCount hblock ht
          have hsame := Ledger.inactivate_eq h.counted hadds hcount hroom fileId a
          have hledger :
              (after (SharedMemoryContext.inactivateOne block fileId a) s.ledger.shm).Counted := by
            obtain ⟨b, hb, husages⟩ := SharedMemoryContext.inactivateOne_usages hadds fileId a
            refine h.counted.of_modify husages fun u hu => ?_
            have hnonneg := h.counted u (List.mem_of_getElem? hu)
            have hlt := hroom b hb u hu
            rw [hcount, wrap16_of_lt (by omega) hlt]
            omega
          simp only [hblock, ht, hadds, hfirst, Nat.sub_zero, hsame, h.shm, if_true]
          refine ⟨rfl, ?_, ?_, hledger⟩
          · intro m
            by_cases hm : m = n
            · subst hm
              have hreported := @map_modify_congr (s.counts.blocks m) (s.ledger.tallies m) id
                (fun t => { t with reported := t.accesses }) i (h.blocks m)
                fun _ hblock _ ht => (h.usageCount hblock ht :)
              simpa [Ledger.onTallies] using hreported
            · simpa [Ledger.onTallies, hm] using h.blocks m
          · intro m
            by_cases hm : m = n
            · subst hm
              have hreported := @small_modify (s.ledger.tallies m)
                (fun t => { t with reported := t.accesses }) i (h.small m)
                fun t ht => h.small m t (List.mem_of_getElem? ht)
              simpa [Ledger.onTallies] using hreported
            · simpa [Ledger.onTallies, hm] using h.small m

/-- Each step of the code is a step of the ledger. -/
theorem Exact.step (h : s.Exact) (hsparing : s.Sparing op) (hstep : step cfg s op = some s') :
    s'.Exact := by
  have hsegment : ∀ {o : ShmOp}, o.isInactivation = false →
      Exact ⟨s.counts.run cfg (.segment o), s.ledger.record cfg s.counts (.segment o)⟩ := by
    intro o ho
    have hcounted := ShmOp.run_counted cfg ho h.counted
    exact ⟨congrArg (o.run cfg) h.shm, h.blocks, h.small, hcounted⟩
  cases op with
  | getCurBlockInfo n i =>
      cases hstep
      exact h.getCurBlockInfo hsparing
  | inactivate n i fileId a =>
      cases hstep
      exact h.inactivate hsparing
  | segment o =>
      cases ho : o.isInactivation with
      | true =>
          cases o with
          | inactivateBuckets => cases hstep
          | _ => cases ho
      | false =>
          have hsome : some (Accounts.mk (s.counts.run cfg (.segment o))
              (s.ledger.record cfg s.counts (.segment o))) = some s' := by
            cases o with
            | inactivateBuckets => cases ho
            | _ => exact hstep
          cases hsome
          exact hsegment ho
  | setBlock n i block =>
      cases hstep
      apply h.onBlocks n (f := (·.set i block)) (g := (·.set i ⟨0, 0⟩))
      · have hnew : block.usageCount = 0 := hsparing
        rw [List.map_set, List.map_set, h.blocks n, hnew]
        rfl
      · intro t ht
        rcases List.mem_or_eq_of_mem_set ht with ht | rfl
        · exact h.small n t ht
        · decide
  | pushBlock n block =>
      cases hstep
      apply h.onBlocks n (f := (· ++ [block])) (g := (· ++ [Tally.mk 0 0]))
      · have hnew : block.usageCount = 0 := hsparing
        rw [List.map_append, List.map_append, h.blocks n, List.map_singleton,
          List.map_singleton, hnew]
        rfl
      · intro t ht
        rcases List.mem_append.mp ht with ht | ht
        · exact h.small n t ht
        · rw [List.mem_singleton.mp ht]
          decide
  | setState n i state =>
      cases hstep
      have hledger : s.ledger.onTallies n (·.modify i id) = s.ledger := by
        simp [Ledger.onTallies]
      have hsame := h.onBlocks n (f := (·.modify i fun b => { b with state := state }))
        (g := (·.modify i id)) ?_ ?_
      · rw [hledger] at hsame
        exact hsame
      · exact map_modify_congr (h.blocks n) fun _ hblock _ ht => (h.usageCount hblock ht :)
      · exact small_modify (h.small n) fun t ht => h.small n t (List.mem_of_getElem? ht)
  | clear n =>
      cases hstep
      apply h.onBlocks n (f := fun _ => []) (g := fun _ => [])
      · rfl
      · intro t ht
        cases ht

/-- A handle of the file `7` has two buckets, for its blocks `0` and `1`. -/
def twoBlocks : List CountOp :=
  [.segment (.registFile 1 ⟨7, 0⟩ false), .segment (.acquireFreeBucket 0 2 ⟨7, 0⟩ true)] ++
    [0, 1].flatMap fun i => [.pushBlock 0 (blockIn i),
    .segment (.updateActiveFileInfo (blockIn i) ⟨7, 0⟩)]
where
  blockIn (i : Nat) : Block := ⟨some i, some i, true, .active, 0⟩

/-- It accesses the first one twice and the second one once and lets them go; another handle
evicts the second one, and the first handle loads it again. -/
def evictedAndLoaded : List CountOp :=
  twoBlocks ++ [.getCurBlockInfo 0 0, .getCurBlockInfo 0 1, .getCurBlockInfo 0 0,
    .inactivate 0 0 ⟨7, 0⟩ 0, .setState 0 0 .used, .inactivate 0 1 ⟨7, 0⟩ 0, .setState 0 1 .used,
    .segment (.registFile 2 ⟨8, 0⟩ false), .segment (.markBucketEvicting 1),
    .segment (.evictBucketFinishAndTryFree (some 1) 1),
    .setBlock 0 1 ⟨none, some 1, false, .free, 0⟩, .segment (.acquireFreeBucket 0 1 ⟨7, 0⟩ true),
    .segment (.markBucketLoading 1 1 0 ⟨7, 0⟩), .segment (.markLoadFinish 1 0),
    .setBlock 0 1 ⟨some 1, some 1, true, .active, 0⟩, .getCurBlockInfo 0 1,
    .inactivate 0 1 ⟨7, 0⟩ 0]

/-- The block that was accessed twice is inactivated, activated and inactivated again: its
bucket looks more used than that of the block that was accessed three times. -/
theorem looksLess_inactivatedTwice : ¬ ∀ s,
    Run (step (.intact 2 1 4 2)) anyStep (init (.intact 2 1 4 2)) s → s.NeverLooksLess := by
  intro hclaim
  let ops : List CountOp := twoBlocks ++
    [.getCurBlockInfo 0 0, .getCurBlockInfo 0 0, .inactivate 0 0 ⟨7, 0⟩ 0,
      .segment (.activateBucket ⟨7, 0⟩ (twoBlocks.blockIn 0) 0 true), .inactivate 0 0 ⟨7, 0⟩ 0,
      .getCurBlockInfo 0 1, .getCurBlockInfo 0 1, .getCurBlockInfo 0 1, .inactivate 0 1 ⟨7, 0⟩ 0]
  have hcheck : ((execute (step (.intact 2 1 4 2)) anyStep (init (.intact 2 1 4 2)) ops).any
      fun s =>
      decide (s.ledger.shm.usages = [2, 3] ∧ s.counts.shm.usages = [4, 3])) = true := by
    decide +kernel
  obtain ⟨s, hs, hfacts⟩ := (Option.any_eq_true _ _).mp hcheck
  obtain ⟨hledger, hcounts⟩ := of_decide_eq_true hfacts
  have hle := hclaim s (Run.of_execute hs) 0 1 2 (by rw [hledger]; rfl) 3 (by rw [hledger]; rfl)
    (by decide) 4 (by rw [hcounts]; rfl) 3 (by rw [hcounts]; rfl)
  exact absurd hle (by decide)

end Accounts

end Gopherwood
