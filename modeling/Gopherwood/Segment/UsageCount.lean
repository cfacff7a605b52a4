/-
# Usage counts in the segment

The count of a bucket is an `int16_t`. An inactivation adds the count of the block to it,
the clock sweep takes one from a positive count, and a reset clears it. No count turns
negative as long as no addition passes the largest `int16_t`.
-/

import Gopherwood.Segment.Accounting

namespace Gopherwood

open Library (Keeps Spec)

/-- A small sum is stored as it is. -/
theorem wrap16_of_lt {x : Int} (hnonneg : 0 ≤ x) (hlt : x < 2 ^ 15) : wrap16 x = x := by
  unfold wrap16
  omega

namespace SharedMem

/-- The counts of the buckets. -/
def usages (s : SharedMem) : List Int := s.buckets.map ShareMemBucket.usageCount

/-- No count is negative. -/
def Counted (s : SharedMem) : Prop := ∀ u ∈ s.usages, 0 ≤ u

/-- What the blocks add to the count of a bucket. -/
def usageOn (b : Nat) (blocks : List Block) : Int :=
  ((blocks.filter fun block => block.bucketId = some b).map Block.usageCount).sum

/-- The counts of their buckets leave room for the blocks to be inactivated. -/
def Roomy (s : SharedMem) (blocks : List Block) : Prop :=
  ∀ block ∈ blocks, ∀ b ∈ block.bucketId, ∀ u ∈ s.usages[b]?, u + usageOn b blocks < 2 ^ 15

instance (s : SharedMem) (blocks : List Block) : Decidable (s.Roomy blocks) :=
  inferInstanceAs (Decidable (∀ block ∈ blocks, ∀ b ∈ block.bucketId, ∀ u ∈ s.usages[b]?,
    u + usageOn b blocks < 2 ^ 15))

variable {s s' : SharedMem} {b : Nat} {f : ShareMemBucket → ShareMemBucket}

theorem usages_updHeader (k : ShareMemHeader → ShareMemHeader) :
    (s.updHeader k).usages = s.usages :=
  rfl

/-- A change of a bucket seen from the counts. -/
theorem usages_updBucket {g : Int → Int} (hf : ∀ y, (f y).usageCount = g y.usageCount) :
    (s.updBucket b f).usages = s.usages.modify b g := by
  apply List.ext_getElem?
  intro i
  simp only [usages, List.getElem?_map, updBucket_getElem?, List.getElem?_modify]
  by_cases hi : b = i
  · simp [hi, Function.comp_def, hf]
  · simp [hi]

theorem usages_updBucket_same (hf : ∀ y, (f y).usageCount = y.usageCount) :
    (s.updBucket b f).usages = s.usages := by
  rw [usages_updBucket (g := id) hf]
  exact List.modify_id b s.usages

theorem Counted.of_usages (hs : s.Counted) (h : s'.usages = s.usages) : s'.Counted := by
  unfold Counted
  rw [h]
  exact hs

/-- One count changes. -/
theorem Counted.of_modify {g : Int → Int} (hs : s.Counted) (h : s'.usages = s.usages.modify b g)
    (hg : ∀ u ∈ s.usages[b]?, 0 ≤ g u) : s'.Counted := by
  intro u hu
  rw [h] at hu
  obtain ⟨i, hi⟩ := List.mem_iff_getElem?.mp hu
  rw [List.getElem?_modify] at hi
  split at hi
  · next heq =>
      subst heq
      obtain ⟨v, hv, rfl⟩ := Option.map_eq_some_iff.mp hi
      exact hg v hv
  · obtain ⟨v, hv, rfl⟩ := Option.map_eq_some_iff.mp hi
    exact hs v (List.mem_of_getElem? hv)

theorem counted_reset (cfg : Config) : (reset cfg).Counted := by
  intro u hu
  simp only [usages, reset, List.map_replicate] at hu
  rw [List.eq_of_mem_replicate hu]
  exact Int.le_refl 0

end SharedMem

/-- The moves that leave every count, or clear it. -/
def Move.isCountless : Move → Bool
  | .age _ => false
  | .leave _ _ => false
  | .retire _ _ => false
  | .leaveFailed _ _ => false
  | _ => true

namespace SharedMem

variable {s s' : SharedMem} {b : Nat}

/-- Such a move makes no count negative. -/
theorem leads_counted {m : Move} (hm : m.isCountless = true) : Leads Counted m Counted := by
  intro s s' hmove hs
  -- the bucket is cleared
  have hclear : ∀ {b : Nat} {t : SharedMem} {y : ShareMemBucket}, y.usageCount = 0 →
      t.usages = (s.updBucket b fun _ => y).usages → t.Counted := by
    intro b t y hy ht
    rw [usages_updBucket (g := fun _ => 0) fun _ => hy] at ht
    exact hs.of_modify ht fun _ _ => Int.le_refl 0
  cases hmove with
  | age | leave | retire | leaveFailed => cases hm
  | hand => exact hs
  | endStolen hslot hstolen => exact hs
  | endFailed => exact hs
  | endTake w fileId => exact hclear rfl rfl
  | endFree => exact hclear rfl rfl
  | release => exact hclear rfl rfl
  | reset => exact hclear rfl rfl
  | take | takeFailed | evict | load | loaded | activate | steal | activateFailed | join | index
  | flag | resize => exact hs.of_usages (usages_updBucket_same fun _ => rfl)

end SharedMem

namespace SharedMemoryContext

open SharedMem (Counted Roomy usageOn Leads)

variable {s : SharedMem}

/-- The sweep takes from positive counts only. -/
theorem sweep_counted (a fuel tries : Nat) : Keeps Counted (sweep a fuel tries) := by
  induction fuel generalizing tries with
  | zero => exact Keeps.throw
  | succ fuel ih =>
      intro s hs
      have hs₁ : (handMoved s).Counted := hs
      cases hx : s.buckets[s.header.nextVictimBucket]? with
      | none => simpa [sweep, hx] using hs
      | some x =>
          have hx₁ : (handMoved s).buckets[s.header.nextVictimBucket]? = some x := hx
          rw [sweep_succ a fuel tries hx]
          by_cases hvictim : x.IsCandidate
          · rw [if_pos hvictim]
            by_cases husage : x.usageCount > 0
            · rw [if_pos husage]
              apply ih
              refine hs₁.of_modify (SharedMem.usages_updBucket (g := (· - 1)) fun _ => rfl) ?_
              intro u hu
              rw [SharedMem.usages, List.getElem?_map, hx₁] at hu
              cases hu
              omega
            · rw [if_neg husage]
              obtain ⟨s', hstart, hmove⟩ := startEviction_move a hx₁ hvictim.1 hvictim.2
              rw [hstart]
              exact SharedMem.leads_counted rfl _ _ hmove hs₁
          · rw [if_neg hvictim]
            by_cases htries : tries - 1 = 0
            · rw [if_pos htries]
              exact hs₁
            · rw [if_neg htries]
              exact ih _ _ hs₁

theorem markBucketEvicting_counted (a : Nat) : Keeps Counted (markBucketEvicting a) := by
  intro s hs
  exact sweep_counted a _ _ s hs

theorem acquireFreeBucket_counted (a : Nat) (num : Int) (fileId : FileId) (isWrite : Bool) :
    Keeps Counted (acquireFreeBucket a num fileId isWrite) :=
  acquireFreeBucket_keeps (fun _ => SharedMem.leads_counted rfl)
    (fun _ => SharedMem.leads_counted rfl) num fileId isWrite

theorem evictBucketFinishAndTryAcquire_counted (b : Option Nat) (a : Nat) (fileId : FileId)
    (isWrite : Bool) : Keeps Counted (evictBucketFinishAndTryAcquire b a fileId isWrite) :=
  evictBucketFinishAndTryAcquire_spec (SharedMem.leads_counted rfl) (SharedMem.leads_counted rfl)
    (fun _ _ s s' _ _ hmove hs => SharedMem.leads_counted rfl s s' hmove hs) fileId isWrite

theorem evictBucketFinishAndTryFree_counted (b : Option Nat) (a : Nat) :
    Keeps Counted (evictBucketFinishAndTryFree b a) :=
  evictBucketFinishAndTryFree_spec (SharedMem.leads_counted rfl) (SharedMem.leads_counted rfl)
    fun _ _ => SharedMem.leads_counted rfl

theorem markBucketLoading_counted (b i a : Nat) (fileId : FileId) :
    Keeps Counted (markBucketLoading b i a fileId) := by
  intro s hs
  rcases markBucketLoading_cases b i a fileId s with ⟨-, hrun⟩ | ⟨-, s', hrun, hmove⟩
  · rw [hrun]
    exact hs
  · rw [hrun]
    exact SharedMem.leads_counted rfl s s' hmove hs

theorem markLoadFinish_counted (b a : Nat) : Keeps Counted (markLoadFinish b a) := by
  intro s hs
  obtain ⟨s', hrun, hmove⟩ := markLoadFinish_move b a s
  rw [hrun]
  exact SharedMem.leads_counted rfl s s' hmove hs

theorem releaseBuckets_counted (blocks : List Block) : Keeps Counted (releaseBuckets blocks) :=
  releaseBuckets_keeps fun _ _ _ _ => SharedMem.leads_counted rfl

theorem activateBucket_counted (fileId : FileId) (block : Block) (a : Nat) (isWrite : Bool) :
    Keeps Counted (activateBucket fileId block a isWrite) :=
  activateBucket_spec (fun _ _ => SharedMem.leads_counted rfl)
    (fun _ _ _ => SharedMem.leads_counted rfl) (fun _ _ => SharedMem.leads_counted rfl)
    (fun _ _ => SharedMem.leads_counted rfl) (fun _ => id) fileId isWrite

theorem updateActiveFileInfo_counted (block : Block) (fileId : FileId) :
    Keeps Counted (updateActiveFileInfo block fileId) :=
  updateActiveFileInfo_spec (fun _ _ => SharedMem.leads_counted rfl) (fun _ => id) fileId

theorem deleteBlocks_counted (fileId : FileId) (blocks : List Block) :
    Keeps Counted (deleteBlocks fileId blocks) :=
  deleteBlocks_keeps (fun _ _ _ _ => SharedMem.leads_counted rfl)
    fun _ _ _ _ => SharedMem.leads_counted rfl

theorem updateBucketDataSize_counted (cfg : Config) (b : Option Nat) (size : Int) (fileId : FileId)
    (a : Nat) : Keeps Counted (updateBucketDataSize cfg b size fileId a) :=
  updateBucketDataSize_keeps (fun _ => SharedMem.leads_counted rfl) b size fileId

/-- Registrations leave the buckets. -/
theorem counted_of_sameBuckets {s s' : SharedMem} (hs : s.Counted) (hsame : s.SameBuckets s') :
    s'.Counted := by
  apply hs.of_usages
  unfold SharedMem.usages
  rw [hsame.buckets]

theorem registFile_counted (pid : Nat) (fileId : FileId) (isDelete : Bool) :
    Keeps Counted (registFile pid fileId isDelete) := by
  intro s hs
  obtain ⟨s', hsame, ⟨hrun, -⟩ | ⟨a, f, -, hrun, -⟩⟩ := registFile_cases pid fileId isDelete s
  · rw [hrun]
    exact counted_of_sameBuckets hs hsame
  · rw [hrun]
    exact counted_of_sameBuckets hs hsame

theorem registAdmin_counted (pid : Nat) : Keeps Counted (registAdmin pid) := by
  intro s hs
  obtain ⟨s', hsame, ⟨hrun, -⟩ | ⟨a, f, -, hrun, -⟩⟩ := registAdmin_cases pid s
  · rw [hrun]
    exact counted_of_sameBuckets hs hsame
  · rw [hrun]
    exact counted_of_sameBuckets hs hsame

theorem unregistFile_counted (a pid : Nat) : Keeps Counted (unregistFile a pid) := by
  intro s hs
  rcases unregistFile_cases a pid s with hrun | ⟨s', f, destroy, hsame, -, hrun, -⟩
  · rw [hrun]
    exact hs
  · rw [hrun]
    exact counted_of_sameBuckets hs hsame

theorem unregistAdmin_counted (a pid : Nat) : Keeps Counted (unregistAdmin a pid) := by
  intro s hs
  rcases unregistAdmin_cases a pid s with hrun | ⟨s', f, hsame, -, hrun, -⟩
  · rw [hrun]
    exact hs
  · rw [hrun]
    exact counted_of_sameBuckets hs hsame

/-! ## Inactivations -/

/-- The first sum that is left out of an inactivation. -/
theorem usageOn_cons (b : Nat) (block : Block) (rest : List Block) :
    usageOn b (block :: rest) =
      (if block.bucketId = some b then block.usageCount else 0) + usageOn b rest := by
  unfold usageOn
  by_cases hb : block.bucketId = some b
  · simp [hb]
  · simp [hb]

theorem usageOn_nonneg {blocks : List Block} (h : ∀ block ∈ blocks, 0 ≤ block.usageCount)
    (b : Nat) :
    0 ≤ usageOn b blocks := by
  induction blocks with
  | nil => exact Int.le_refl 0
  | cons block rest ih =>
      have hrest := ih fun y hy => h y (List.mem_cons_of_mem _ hy)
      have hblock := h block List.mem_cons_self
      rw [usageOn_cons]
      split
      · omega
      · omega

/-- The block is in an active bucket, so that an inactivation adds to a count. -/
def adds (s : SharedMem) (block : Block) : Bool :=
  (block.bucketId.bind (s.buckets[·]?)).any ShareMemBucket.isActiveBucket

/-- Otherwise `inactivateOne` throws and changes nothing. -/
theorem inactivateOne_idle {block : Block} (h : adds s block = false) (fileId : FileId) (a : Nat) :
    Library.after (inactivateOne block fileId a) s = s := by
  unfold adds at h
  cases hb : block.bucketId with
  | none => simp [Library.after, inactivateOne, hb]
  | some b =>
      cases hx : s.buckets[b]? with
      | none => simp [Library.after, inactivateOne, hb, hx]
      | some x =>
          rw [hb, Option.bind_some, hx, Option.any_some] at h
          simp [Library.after, inactivateOne, hb, hx, h]

/-- What `inactivateOne` does to the counts, whether it returns or throws. -/
theorem inactivateOne_usages {block : Block} (h : adds s block = true) (fileId : FileId) (a : Nat) :
    ∃ b, block.bucketId = some b ∧ (Library.after (inactivateOne block fileId a) s).usages =
      s.usages.modify b fun u => wrap16 (u + block.usageCount) := by
  unfold adds at h
  cases hb : block.bucketId with
  | none =>
      rw [hb] at h
      cases h
  | some b =>
  cases hx : s.buckets[b]? with
  | none =>
      rw [hb, Option.bind_some, hx] at h
      cases h
  | some x =>
  rw [hb, Option.bind_some, hx, Option.any_some] at h
  refine ⟨b, rfl, ?_⟩
  -- the rest of the body changes no count
  let us := s.usages.modify b fun u => wrap16 (u + block.usageCount)
  have hunmark : Keeps (fun t => t.usages = us) (unmarkBucket b a) := by
    intro t ht
    cases hy : t.buckets[b]? with
    | none => simpa [unmarkBucket, hy] using ht
    | some y =>
        cases hclear : Library.clearFirst (fun info => decide (info.activeId = a))
          y.activeInfos with
        | none =>
            obtain ⟨e, hrun⟩ := unmarkBucket_none (a := a) hy hclear
            rw [hrun]
            exact ht
        | some infos =>
            rw [unmarkBucket_some hy hclear]
            change SharedMem.usages _ = us
            rw [← ht]
            apply SharedMem.usages_updBucket_same
            intro y
            rfl
  have hrest : Keeps (fun t => t.usages = us) (do
      unmarkBucket b a
      let bucket ← bucketAt b
      if bucket.noActiveReadWrite then
        modifyBucket b ShareMemBucket.setBucketUsed
        modifyHeader fun h => { h with
          numActiveBuckets := dec32 h.numActiveBuckets
          numUsedBuckets := inc32 h.numUsedBuckets }
        return true
      else
        return false) := by
    refine Keeps.bind hunmark fun _ => Keeps.bind (bucketAt_keeps b) fun bucket => ?_
    refine Keeps.ite (Keeps.bind (Keeps.modify ?_) fun _ => Keeps.bind (Keeps.modify ?_) fun _ =>
      Keeps.pure) Keeps.pure
    · intro t ht
      change (t.updBucket b ShareMemBucket.setBucketUsed).usages = us
      rw [← ht]
      apply SharedMem.usages_updBucket_same
      intro y
      rfl
    · intro t ht
      exact ht
  simp only [Library.after, inactivateOne, Library.run_bind, hb, run_inRange_some,
    run_bucketAt_some hx, h, if_true, run_modifyBucket]
  have hset : (s.updBucket b fun y => { y with
      fileId := fileId, fileBlockIndex := block.blockId
      usageCount := wrap16 (y.usageCount + block.usageCount) }).usages = us :=
    SharedMem.usages_updBucket fun _ => rfl
  exact hrest.after hset

/-- An inactivation with room for it adds up without wrapping, and leaves room for the rest. -/
theorem inactivateOne_counted {block : Block} {rest : List Block} (hblock : 0 ≤ block.usageCount)
    (hrest : ∀ y ∈ rest, 0 ≤ y.usageCount) (fileId : FileId) (a : Nat) :
    Spec (fun t => Counted t ∧ Roomy t (block :: rest)) (inactivateOne block fileId a)
      (fun _ t => Counted t ∧ Roomy t rest) (fun _ => Counted) := by
  -- both ends of the program leave the same counts
  suffices h : ∀ s, Counted s → Roomy s (block :: rest) →
      let t := Library.after (inactivateOne block fileId a) s
      Counted t ∧ Roomy t rest by
    rintro s ⟨hs, hroom⟩
    have ht := h s hs hroom
    unfold Library.after at ht
    cases hrun : inactivateOne block fileId a s with
    | ok turned t =>
        rw [hrun] at ht
        exact ht
    | error e t =>
        rw [hrun] at ht
        exact ht.1
  intro s hs hroom t
  have hleft : ∀ b, usageOn b rest ≤ usageOn b (block :: rest) := by
    intro b
    rw [usageOn_cons]
    split
    · omega
    · omega
  cases hadds : adds s block with
  | false =>
      have hsame : t = s := inactivateOne_idle hadds fileId a
      rw [hsame]
      refine ⟨hs, ?_⟩
      intro y hy i hi u hu
      have hfit := hroom y (List.mem_cons_of_mem _ hy) i hi u hu
      have hle := hleft i
      omega
  | true =>
      obtain ⟨b, hb, husages⟩ := inactivateOne_usages hadds fileId a
      change t.usages = _ at husages
      have hexact : ∀ u ∈ s.usages[b]?, wrap16 (u + block.usageCount) = u + block.usageCount := by
        intro u hu
        have hfit := hroom block List.mem_cons_self b hb u hu
        have hnonneg := hs u (List.mem_of_getElem? hu)
        have hothers := usageOn_nonneg hrest b
        rw [usageOn_cons, if_pos hb] at hfit
        exact wrap16_of_lt (by omega) (by omega)
      constructor
      · refine hs.of_modify husages ?_
        intro u hu
        rw [hexact u hu]
        have hnonneg := hs u (List.mem_of_getElem? hu)
        omega
      · intro y hy i hi v hv
        rw [husages, Option.mem_def, List.getElem?_modify] at hv
        obtain ⟨u, hu, hv⟩ := Option.map_eq_some_iff.mp hv
        have hfit := hroom y (List.mem_cons_of_mem _ hy) i hi u hu
        by_cases hbi : b = i
        · subst hbi
          rw [usageOn_cons, if_pos hb] at hfit
          rw [if_pos rfl, hexact u hu] at hv
          omega
        · rw [if_neg hbi] at hv
          have hle := hleft i
          change u = v at hv
          omega

/-- `inactivateBuckets` makes no count negative when there is room. -/
theorem inactivateBuckets_counted {blocks : List Block} (fileId : FileId) (a : Nat)
    (hblocks : ∀ block ∈ blocks, 0 ≤ block.usageCount) :
    Spec (fun t => Counted t ∧ Roomy t blocks) (inactivateBuckets fileId a blocks)
      (fun _ => Counted) (fun _ => Counted) := by
  induction blocks with
  | nil => exact Spec.pure fun _ ht => ht.1
  | cons block rest ih =>
      have hrest : ∀ y ∈ rest, 0 ≤ y.usageCount := fun y hy => hblocks y (List.mem_cons_of_mem _ hy)
      have hone := inactivateOne_counted (hblocks block List.mem_cons_self) hrest fileId a
      exact Spec.bind hone fun turned => Spec.bind (ih hrest) fun _ => Spec.pure fun _ => id

/-- A release leaves the room that there was. -/
theorem releaseBuckets_roomy (released blocks : List Block) :
    Keeps (fun t => Counted t ∧ Roomy t blocks) (releaseBuckets released) := by
  apply releaseBuckets_keeps
  rintro _ _ b _ s s' hmove ⟨hs, hroom⟩
  refine ⟨SharedMem.leads_counted rfl s s' hmove hs, ?_⟩
  cases hmove with
  | release hx htype =>
      intro block hblock i hi v hv
      rw [SharedMem.usages_updHeader, SharedMem.usages_updBucket (g := fun _ => 0) fun _ => rfl,
        Option.mem_def, List.getElem?_modify] at hv
      obtain ⟨u, hu, hv⟩ := Option.map_eq_some_iff.mp hv
      have hfit := hroom block hblock i hi u hu
      have hnonneg := hs u (List.mem_of_getElem? hu)
      split at hv
      · omega
      · change u = v at hv
        omega

end SharedMemoryContext

end Gopherwood
