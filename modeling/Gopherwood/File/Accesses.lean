/-
# Accesses of the system

The steps on the counts are those of the system: a thread in `getCurBlockInfo` counts one
access to the entry of its block, and what `inactivateBuckets` adds to the buckets are the
counts of entries of the handle, one round for each key that left the cache.
-/

import Gopherwood.File.Thread
import Gopherwood.Journal.Steps
import Gopherwood.Segment.Accesses
import Gopherwood.Segment.Moves

namespace Gopherwood

open Library (Keeps Spec after)

/-- A round of `inactivateBuckets` for an entry of handle `n`, or a new state of one. -/
def CountOp.Retires (n : Nat) (fileId : FileId) (op : CountOp) : Prop :=
  (∃ i a, op = .inactivate n i fileId a) ∨ ∃ i state, op = .setState n i state

namespace World

variable {cfg : Config} {w w' : World} {n : Nat} {h : FileActiveStatus}

/-- The segment, and the block arrays of the handles. -/
def counts (w : World) : Counts :=
  ⟨w.shm, fun n => (w.files[n]?).elim [] FileActiveStatus.blockArray⟩

theorem counts_blocks (hn : w.files[n]? = some h) : w.counts.blocks n = h.blockArray := by
  simp only [counts, hn, Option.elim_some]

theorem counts_set {shm : SharedMem} (h' : FileActiveStatus) (hn : w.files[n]? = some h)
    (hshm : w'.shm = shm) (hfiles : w'.files = w.files.set n h') :
    w'.counts = ⟨shm, Function.update w.counts.blocks n h'.blockArray⟩ := by
  have hlt : n < w.files.length := (List.getElem?_eq_some_iff.mp hn).1
  unfold counts
  rw [hshm, hfiles]
  congr 1
  funext m
  by_cases hm : m = n
  · subst hm
    rw [List.getElem?_set_self hlt, Function.update_self]
    rfl
  · rw [List.getElem?_set_ne (Ne.symm hm), Function.update_of_ne hm]

/-- `getCurBlockInfo` counts an access to the current block. -/
theorem getCurBlockInfo_counts (hn : w.files[n]? = some h) (hpc : h.pc = .ready)
    (hstep : step cfg w (.file n) = some w') :
    w'.counts = w.counts.run cfg (.getCurBlockInfo n h.stream.curBlockId) := by
  change _ = (⟨w.shm, Function.update w.counts.blocks n
    (countAccess h.stream.curBlockId (w.counts.blocks n))⟩ : Counts)
  rw [counts_blocks hn]
  simp only [step, hn, stepFile, hpc, Option.some.injEq] at hstep
  subst hstep
  cases hcur : h.blockArray[h.stream.curBlockId]? with
  | none =>
      -- the entry is missing: nothing is counted, and the exception leaves the call
      have hblock : FileActiveStatus.blockAt h.stream.curBlockId (w.ctx h) =
          .error .undefined (w.ctx h) := by
        refine (Library.run_bind_ok Library.run_get).trans ?_
        simp only [ctx, hcur]
        rfl
      have hrun : FileActiveStatus.getCurBlockInfo cfg (w.ctx h) = .error .undefined (w.ctx h) :=
        (Library.run_bind_ok Library.run_get).trans (Library.run_bind_error hblock)
      have hsame : countAccess h.stream.curBlockId h.blockArray = h.blockArray :=
        List.modify_eq_self (List.getElem?_eq_none_iff.mp hcur)
      rw [hsame]
      unfold runFile
      rw [show (⟨w.shm, w.folder, w.oss, h⟩ : Ctx) = w.ctx h from rfl, hrun]
      exact counts_set { h with pc := .idle } hn rfl rfl
  | some block =>
      obtain ⟨stream, hrun⟩ : ∃ stream, FileActiveStatus.getCurBlockInfo cfg (w.ctx h) =
          .ok () (w.ctx { h with
            blockArray := countAccess h.stream.curBlockId h.blockArray
            stream := stream, pc := .transfer }) := by
        have hblock : FileActiveStatus.blockAt h.stream.curBlockId (w.ctx h) =
            .ok block (w.ctx h) := by
          refine (Library.run_bind_ok Library.run_get).trans ?_
          simp only [ctx, hcur]
          rfl
        exact ⟨_, (Library.run_bind_ok Library.run_get).trans
          ((Library.run_bind_ok hblock).trans rfl)⟩
      unfold runFile
      rw [show (⟨w.shm, w.folder, w.oss, h⟩ : Ctx) = w.ctx h from rfl, hrun]
      exact counts_set { h with
        blockArray := countAccess h.stream.curBlockId h.blockArray
        stream := stream, pc := .transfer } hn rfl rfl

end World

namespace FileActiveStatus

/-- `inactivateBuckets` inactivates the entries one after the other, up to the first round
that throws. -/
theorem inactivateBuckets_counts (cfg : Config) {c : Counts} {n : Nat} (fileId : FileId) (a : Nat)
    {keys : List Nat} {entries blocks : List Block} (hc : c.blocks n = entries)
    (hblocks : List.Forall₂ (fun i block => entries[i]? = some block) keys blocks) :
    ∃ done, done <+: keys ∧
      { c with shm := after (SharedMemoryContext.inactivateBuckets fileId a blocks) c.shm } =
        (done.map (CountOp.inactivate n · fileId a)).foldl (Counts.run cfg) c := by
  induction hblocks generalizing c with
  | nil => exact ⟨[], List.nil_prefix, rfl⟩
  | @cons i block keys blocks hentry hrest ih =>
      let mid : Counts := c.run cfg (.inactivate n i fileId a)
      have hmid : mid = { c with
          shm := after (SharedMemoryContext.inactivateOne block fileId a) c.shm } := by
        simp only [mid, Counts.run, hc, hentry]
      have hround : SharedMemoryContext.inactivateBuckets fileId a (block :: blocks) c.shm =
          (SharedMemoryContext.inactivateOne block fileId a >>= fun turned => do
            let others ← SharedMemoryContext.inactivateBuckets fileId a blocks
            return if turned then { block with state := .used } :: others else others) c.shm := rfl
      cases hone : SharedMemoryContext.inactivateOne block fileId a c.shm with
      | error e s =>
          refine ⟨[i], ⟨keys, rfl⟩, ?_⟩
          rw [after, hround, Library.run_bind_error hone]
          change _ = mid
          rw [hmid, after, hone]
      | ok turned s =>
          have hshm : mid.shm = s := by
            rw [hmid, after, hone]
          obtain ⟨done, hprefix, hdone⟩ := ih (c := mid) (by rw [hmid, hc])
          refine ⟨i :: done, List.cons_prefix_cons.mpr ⟨rfl, hprefix⟩, ?_⟩
          rw [List.map_cons, List.foldl_cons]
          change _ = (done.map _).foldl _ mid
          rw [← hdone, hshm, hmid, after, hround, Library.run_bind_ok hone, Library.run_bind, after]
          cases SharedMemoryContext.inactivateBuckets fileId a blocks s with
          | ok others t => rfl
          | error e t => rfl

/-- The counts, as the handle `n` that works sees them. -/
def countsOf (n : Nat) (others : Nat → List Block) (c : Ctx) : Counts :=
  ⟨c.shm, Function.update others n c.self.blockArray⟩

/-- From `c₀` on the handle inactivated entries of its own, and changed states of entries. -/
def Inactivates (cfg : Config) (n : Nat) (others : Nat → List Block) (c₀ c : Ctx) : Prop :=
  c.self.fileId = c₀.self.fileId ∧ ∃ ops : List CountOp,
    (∀ op ∈ ops, op.Retires n c₀.self.fileId) ∧
      countsOf n others c = ops.foldl (Counts.run cfg) (countsOf n others c₀)

section Inactivates

variable {cfg : Config} {n : Nat} {others : Nat → List Block} {c₀ c c' : Ctx}

theorem Inactivates.refl : Inactivates cfg n others c₀ c₀ :=
  ⟨rfl, [], fun _ h => absurd h List.not_mem_nil, rfl⟩

/-- Some more steps on the counts. -/
theorem Inactivates.more (h : Inactivates cfg n others c₀ c)
    (hfileId : c'.self.fileId = c.self.fileId) (ops : List CountOp)
    (hops : ∀ op ∈ ops, op.Retires n c₀.self.fileId)
    (hcounts : countsOf n others c' = ops.foldl (Counts.run cfg) (countsOf n others c)) :
    Inactivates cfg n others c₀ c' := by
  obtain ⟨hsame, before, hbefore, heq⟩ := h
  refine ⟨hfileId.trans hsame, before ++ ops, fun op hop => ?_, ?_⟩
  · exact (List.mem_append.mp hop).elim (hbefore op) (hops op)
  · rw [hcounts, heq, List.foldl_append]

/-- What changes neither the segment nor the blocks is no step on the counts. -/
theorem Inactivates.same (h : Inactivates cfg n others c₀ c)
    (hfileId : c'.self.fileId = c.self.fileId) (hshm : c'.shm = c.shm)
    (hblocks : c'.self.blockArray = c.self.blockArray) : Inactivates cfg n others c₀ c' :=
  h.more hfileId [] (fun _ hop => absurd hop List.not_mem_nil)
  (by rw [countsOf, hshm, hblocks]; rfl)

theorem blockAt_inactivates (i : Nat) : Keeps (Inactivates cfg n others c₀) (blockAt i) := by
  refine Keeps.bind Keeps.get fun c => ?_
  cases c.self.blockArray[i]? with
  | some block => exact Keeps.pure
  | none => exact Keeps.throw

theorem logRecord_inactivates (type : RecordType) (eof : Nat) (blocks : List Block) :
    Keeps (Inactivates cfg n others c₀) (logRecord type eof blocks) := by
  intro c hc
  cases hfd : c.self.fd with
  | none =>
      simp only [logRecord, Library.run_bind, Library.run_get, hfd, Library.run_throw]
      exact hc
  | some fd =>
      simp only [logRecord, Library.run_bind, Library.run_get, hfd, Library.run_set]
      exact hc.same rfl rfl rfl

theorem flushEof_inactivates : Keeps (Inactivates cfg n others c₀) (flushEof cfg) := by
  refine Keeps.bind (Keeps.bind Keeps.get fun c => Keeps.bind (blockAt_inactivates _) fun last =>
    Keeps.bind ?_ fun size => Keeps.ite (Keeps.modify fun _ hc => hc.same rfl rfl rfl) Keeps.pure)
    fun _ => Keeps.bind Keeps.get fun _ => logRecord_inactivates _ _ _
  -- the size is only read
  refine Spec.zoom fun c hc =>
    Spec.conseq (SharedMemoryContext.getBucketDataSize_keeps (P := (· = c.shm))
    cfg _ _ _) (fun _ h => h) (fun _ _ h => hc.same rfl h rfl) fun _ _ h => hc.same rfl h rfl

theorem updateInactivated_inactivates (blocks : List Block) :
    Keeps (Inactivates cfg n others c₀) (updateInactivated cfg blocks) := by
  induction blocks with
  | nil => exact Keeps.pure
  | cons b rest ih =>
      unfold updateInactivated
      cases b.blockId with
      | none => exact Keeps.throw
      | some i =>
          have hstate : Keeps (Inactivates cfg n others c₀) (modifySelf fun h => { h with
              blockArray := h.blockArray.modify i fun old => { old with state := b.state } }) := by
            refine Keeps.modify fun c hc => hc.more rfl [.setState n i b.state] ?_ ?_
            · intro op hop
              exact Or.inr ⟨i, b.state, List.mem_singleton.mp hop⟩
            · simp only [countsOf, List.foldl_cons, List.foldl_nil, Counts.run, Counts.onBlocks,
                Function.update_self, Function.update_idem]
          refine Keeps.bind (blockAt_inactivates i) fun _ => Keeps.bind hstate fun _ =>
            Keeps.bind Keeps.get fun c => ?_
          exact Keeps.ite (Keeps.bind flushEof_inactivates fun _ => ih) ih

theorem blocksOf_inactivates (keys : List Nat) :
    Spec (Inactivates cfg n others c₀) (blocksOf keys)
      (fun blocks c => Inactivates cfg n others c₀ c ∧
        List.Forall₂ (fun i block => c.self.blockArray[i]? = some block) keys blocks)
      (fun _ => Inactivates cfg n others c₀) := by
  have hkeeps : ∀ keys, Keeps (Inactivates cfg n others c₀) (blocksOf keys) := by
    intro keys
    induction keys with
    | nil => exact Keeps.pure
    | cons key rest ih =>
        exact Keeps.bind (blockAt_inactivates key) fun _ => Keeps.bind ih fun _ => Keeps.pure
  intro c hc
  cases hrun : blocksOf keys c with
  | ok blocks c' =>
      obtain ⟨rfl, hblocks⟩ := blocksOf_ok hrun
      exact ⟨hc, hblocks⟩
  | error e c' => exact (hkeeps keys).error hc hrun

/-- A handle that inactivates the blocks of some keys inactivates its entries. -/
theorem onShm_inactivateBuckets_inactivates {a : Nat} {keys : List Nat} {blocks : List Block}
    (hc : Inactivates cfg n others c₀ c)
    (hblocks : List.Forall₂ (fun i block => c.self.blockArray[i]? = some block) keys blocks) :
    Spec (· = c) (onShm (SharedMemoryContext.inactivateBuckets c.self.fileId a blocks))
      (fun _ => Inactivates cfg n others c₀) (fun _ => Inactivates cfg n others c₀) := by
  obtain ⟨done, -, hdone⟩ := inactivateBuckets_counts cfg (c := countsOf n others c) (n := n)
    c.self.fileId a (Function.update_self ..) hblocks
  have hafter : ∀ s, s = after (SharedMemoryContext.inactivateBuckets c.self.fileId a blocks)
      c.shm →
      Inactivates cfg n others c₀ { c with shm := s } := by
    rintro s rfl
    refine hc.more rfl (done.map (CountOp.inactivate n · c.self.fileId a)) ?_ hdone
    intro op hop
    obtain ⟨i, -, rfl⟩ := List.mem_map.mp hop
    exact Or.inl ⟨i, a, by rw [hc.1]⟩
  refine Spec.zoom ?_
  rintro c' rfl s rfl
  unfold after at hafter
  cases hrun : SharedMemoryContext.inactivateBuckets c'.self.fileId a blocks c'.shm with
  | ok turned s => exact hafter s (by rw [hrun])
  | error e s => exact hafter s (by rw [hrun])

/-- Inactivating the oldest blocks inactivates entries of the handle, whether it returns or
throws. -/
theorem inactivateOldest_inactivates (num : Nat) :
    Keeps (Inactivates cfg n others c₀) (inactivateOldest cfg num) := by
  have hremoved : Keeps (Inactivates cfg n others c₀) (removeNumOfKeys num) :=
    Keeps.bind Keeps.get fun _ => Keeps.bind (Keeps.modify fun _ hc => hc.same rfl rfl rfl)
      fun _ => Keeps.pure
  refine Keeps.bind hremoved fun keys => Spec.bind (blocksOf_inactivates keys) fun blocks => ?_
  refine Spec.get_bind fun c hc => ?_
  obtain ⟨hc, hblocks⟩ := hc
  have hid : Spec (· = c) myActiveId (fun _ => (· = c)) (fun _ => Inactivates cfg n others c₀) := by
    refine Spec.get_bind fun c' hsame => ?_
    subst hsame
    cases c'.self.activeId with
    | some a => exact Spec.pure fun _ => id
    | none => exact Spec.throw fun _ hsame => hsame ▸ hc
  refine Spec.bind hid fun a => Spec.bind (onShm_inactivateBuckets_inactivates hc hblocks)
    fun turned => ?_
  exact Keeps.bind (updateInactivated_inactivates turned) fun _ => logRecord_inactivates _ _ _

end Inactivates

end FileActiveStatus

namespace World

theorem countsOf_ctx {w : World} {n : Nat} {h : FileActiveStatus} (hn : w.files[n]? = some h) :
    FileActiveStatus.countsOf n w.counts.blocks (w.ctx h) = w.counts := by
  unfold FileActiveStatus.countsOf
  rw [show (w.ctx h).self.blockArray = w.counts.blocks n from (counts_blocks hn).symm,
    Function.update_eq_self]
  rfl

/-- A handle that inactivates its oldest blocks takes steps on the counts of the system: rounds
of `inactivateBuckets` for entries of its own, and changes of their states. -/
theorem inactivateOldest_counts (cfg : Config) {w : World} {n : Nat} {h : FileActiveStatus}
    (hn : w.files[n]? = some h) (num : Nat) :
    ∃ ops : List CountOp, (∀ op ∈ ops, op.Retires n h.fileId) ∧
      FileActiveStatus.countsOf n w.counts.blocks
          (after (FileActiveStatus.inactivateOldest cfg num) (w.ctx h)) =
        ops.foldl (Counts.run cfg) w.counts := by
  have hrun : FileActiveStatus.Inactivates cfg n w.counts.blocks (w.ctx h)
      (after (FileActiveStatus.inactivateOldest cfg num) (w.ctx h)) :=
    (FileActiveStatus.inactivateOldest_inactivates num).after .refl
  obtain ⟨-, ops, hops, heq⟩ := hrun
  rw [countsOf_ctx hn] at heq
  exact ⟨ops, hops, heq⟩

end World

end Gopherwood
