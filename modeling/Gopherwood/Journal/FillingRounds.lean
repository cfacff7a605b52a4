/-
# The rounds of the writer

The steps of the calling thread of the writer, one block after the other: it acquires
buckets when none is at hand, takes the next block into the file, and moves past its byte.
One round leads from `k` filled blocks to `k + 1`, so every number of blocks up to the
quota is reached.
-/

import Gopherwood.Journal.Filling

namespace Gopherwood

open Library

namespace World

/-- A critical section that returns hands its state to the step. -/
theorem runFile_ok {α : Type} {w : World} {n : Nat} {h : FileActiveStatus} {call : Option Call}
    {prog : StatusM α} {next : α → World → World} {a : α} {c : Ctx}
    (hrun : prog ⟨w.shm, w.folder, w.oss, h⟩ = .ok a c) :
    w.runFile n h call prog next =
      next a { w.setFile n c.self with shm := c.shm, folder := c.folder, oss := c.oss } := by
  unfold runFile
  rw [hrun]

namespace Filling

open FileActiveStatus (newBlock catchUpManifestLogs acquireFirst afterEvictRound extendOneBlock
  myActiveId onShm)

variable {N k p n : Nat} {log : List LogEntry} {history : List CallRecord} {stream : Stream}
  {second : FileActiveStatus} {shm : SharedMem} {mutex : Bool} {pc : Pc}

theorem batch_pos (hk : k < N) : 0 < batch N k := by
  unfold batch preAllocateBucketNum
  omega

theorem acquire_step (hk : k < N) (hN : N < 2 ^ 32) :
    step (config N) (scene (segment N k (filled k 0)) log history
      (writer N k 0 log true (.acquire .extend) stream) second) (.file 0) =
        some (scene (segment N (k + batch N k) (filled k (batch N k))) (log ++ [acquired N k])
          history (writer N k (batch N k) (log ++ [acquired N k]) true .extend stream) second) := by
  have hrun : (do afterEvictRound .extend (← acquireFirst (config N)) : StatusM Unit)
      (writing (segment N k (filled k 0)) log (writer N k 0 log true (.acquire .extend) stream)) =
        .ok () (writing (segment N (k + batch N k) (filled k (batch N k))) (log ++ [acquired N k])
          (writer N k (batch N k) (log ++ [acquired N k]) true .extend stream)) := by
    refine (run_bind_ok (acquireFirst_writer hk hN)).trans ?_
    have hsome : newBlocks k (batch N k) ≠ [] := fun hnil =>
      absurd (newBlocks_eq_nil.mp hnil) (Nat.ne_of_gt (batch_pos hk))
    unfold afterEvictRound
    simp only [Nat.lt_irrefl, gt_iff_lt, Bool.false_eq_true, or_self, if_false]
    refine (run_bind_ok run_get).trans ?_
    have hfalse : ¬ (writing (segment N (k + batch N k) (filled k (batch N k)))
        (log ++ [acquired N k]) (writer N k (batch N k) (log ++ [acquired N k]) true
          (.acquire .extend) stream)).self.preAllocatedBuckets = [] := hsome
    rw [if_neg hfalse]
    rfl
  exact congrArg some ((runFile_ok hrun).trans rfl)

/-- The writer once block `k` is part of the file, before its byte is. -/
def extending (N k p : Nat) (log : List LogEntry) (usageCount : Int) (mutex : Bool) (pc : Pc)
    (stream : Stream) : FileActiveStatus :=
  { writer N k p log mutex pc stream with
    blockArray := (List.range k).map (block 1) ++ [block usageCount k]
    preAllocatedBuckets := newBlocks (k + 1) p
    lruCache := cache N (k + 1) }

theorem updateActiveFileInfo_filled (hk : k < N) :
    SharedMemoryContext.updateActiveFileInfo (block 0 k) fileId
        (segment N n (filled k (p + 1))) =
      .ok () (segment N n (Function.update (filled k (p + 1)) k (extended k))) := by
  have hat : filled k (p + 1) k = taken := by
    have hlt : k < k + (p + 1) := by omega
    simp only [filled, Nat.lt_irrefl, if_false, hlt, if_true]
  have hbucket : (segment N n (filled k (p + 1))).buckets[k]? = some taken := by
    rw [← hat]
    exact getElem?_table hk
  unfold SharedMemoryContext.updateActiveFileInfo
  refine (run_bind_ok (SharedMemoryContext.run_inRange_some k)).trans ?_
  refine (run_bind_ok (SharedMemoryContext.run_bucketAt_some hbucket)).trans ?_
  have hown : taken.fileId = fileId := rfl
  rw [if_pos hown]
  change EStateM.Result.ok () _ = _
  simp only [segment, modify_table, hat]
  rfl

theorem put_cache (hk : k < N) : ((cache N k).put k (some k)).1 = cache N (k + 1) := by
  have hitems : ((List.range (k + 1)).map fun i => (i, some i)).reverse =
      (k, some k) :: ((List.range k).map fun i => (i, some i)).reverse := by
    rw [List.range_succ, List.map_append, List.reverse_append]
    rfl
  have hfilter : (((List.range k).map fun i => (i, some i)).reverse).filter
      (fun item => item.1 ≠ k) = ((List.range k).map fun i => (i, some i)).reverse := by
    rw [List.filter_eq_self]
    intro item hitem
    obtain ⟨i, hi, rfl⟩ := List.mem_map.mp (List.mem_reverse.mp hitem)
    exact decide_eq_true (Nat.ne_of_lt (List.mem_range.mp hi))
  have hsize : ¬ ((k, some k) :: ((List.range k).map fun i => (i, some i)).reverse).length > N := by
    simp only [List.length_cons, List.length_reverse, List.length_map, List.length_range]
    omega
  simp only [LRUCache.put, cache, hfilter, LRUCache.size, hsize, if_false, hitems]

theorem extendOneBlock_writer (hk : k < N) :
    extendOneBlock (writing (segment N (k + (p + 1)) (filled k (p + 1))) log
        (writer N k (p + 1) log mutex pc stream)) =
      .ok () (writing
        (segment N (k + (p + 1)) (Function.update (filled k (p + 1)) k (extended k)))
        (log ++ [entry .extendBlock k [block 0 k]])
        (extending N k p (log ++ [entry .extendBlock k [block 0 k]]) 0 mutex pc stream)) := by
  have hlength : ((List.range k).map (block 1)).length = k := by simp
  unfold extendOneBlock
  refine (run_bind_ok run_get).trans ?_
  have hfront : (writing (segment N (k + (p + 1)) (filled k (p + 1))) log
        (writer N k (p + 1) log mutex pc stream)).self.preAllocatedBuckets =
      newBlock (some k) :: newBlocks (k + 1) p := rfl
  have hblock : (⟨some k, some ((List.range k).map (block 1)).length, true, .active, 0⟩ : Block) =
      block 0 k := by
    rw [hlength]
    rfl
  rw [hfront]
  dsimp only [writing, newBlock]
  rw [show (writer N k (p + 1) log mutex pc stream).blockArray = (List.range k).map (block 1)
    from rfl, hblock]
  rw [hlength]
  let mid : FileActiveStatus := { writer N k (p + 1) log mutex pc stream with
    blockArray := (List.range k).map (block 1) ++ [block 0 k]
    preAllocatedBuckets := newBlocks (k + 1) p }
  let added := extending N k p log 0 mutex pc stream
  have hput : FileActiveStatus.putActive (some k) (some k)
      (writing (segment N (k + (p + 1)) (filled k (p + 1))) log mid) =
        .ok () (writing (segment N (k + (p + 1)) (filled k (p + 1))) log added) :=
    congrArg (fun items => EStateM.Result.ok ()
      (writing (segment N (k + (p + 1)) (filled k (p + 1))) log { mid with lruCache := items }))
      (put_cache hk)
  have hcurrent : ∀ shm, Current log (writing shm log added) := fun _ => ⟨rfl, rfl⟩
  refine (run_bind_ok rfl).trans ((run_bind_ok hput).trans ?_)
  refine (run_bind_ok (hcurrent _).catchUp).trans ?_
  refine (run_bind_ok (FileActiveStatus.run_onShm_ok (updateActiveFileInfo_filled hk))).trans ?_
  refine (run_bind_ok run_get).trans ?_
  exact (hcurrent _).append rfl .extendBlock k [block 0 k]

def extension (k : Nat) : LogEntry := entry .extendBlock k [block 0 k]

theorem extend_step (hk : k < N) (hcur : stream.curBlockId = k) :
    step (config N) (scene (segment N (k + (p + 1)) (filled k (p + 1))) log history
      (writer N k (p + 1) log true .extend stream) second) (.file 0) =
        some (scene
          (segment N (k + (p + 1)) (Function.update (filled k (p + 1)) k (extended k)))
          (log ++ [extension k]) history
          (extending N k p (log ++ [extension k]) 0 false .ready stream) second) := by
  have hactive : (extending N k p (log ++ [extension k]) 0 true .extend stream).isMyActiveBlock k =
      true := by
    simp [FileActiveStatus.isMyActiveBlock, extending, cache, LRUCache.contains, LRUCache.keys]
  have hleave : (extending N k p (log ++ [extension k]) 0 true .extend stream).leaveAdjust =
      extending N k p (log ++ [extension k]) 0 false .ready stream := by
    unfold FileActiveStatus.leaveAdjust
    rw [show (extending N k p (log ++ [extension k]) 0 true .extend stream).stream.curBlockId = k
      from hcur, hactive]
    rfl
  refine congrArg some ((runFile_ok (extendOneBlock_writer hk)).trans ?_)
  rw [← hleave]
  rfl

/-- The writer when block `k` is part of the file and its position is still before it. -/
def lagging (N k p : Nat) (log : List LogEntry) (pc : Pc) (stream : Stream) : FileActiveStatus :=
  { writer N (k + 1) p log false pc stream with pos := k, eof := k }

theorem modify_blocks : (((List.range k).map (block 1) ++ [block 0 k]).modify k fun b =>
    { b with usageCount := wrap16 (b.usageCount + 1) }) = (List.range (k + 1)).map (block 1) := by
  have hlength : ((List.range k).map (block 1)).length = k := by simp
  rw [List.modify_eq_take_drop, List.take_left' hlength, List.drop_left' hlength, List.range_succ,
    List.map_append]
  rfl

theorem ready_step (hcur : stream.curBlockId = k) :
    step (config N) (scene shm log history (extending N k p log 0 false .ready stream) second)
      (.file 0) = some (scene shm log history (lagging N k p log .transfer { stream with
        needUpdate := false, pos := k, blockInfo := ⟨fileId, some k, some k, 0, 0, true⟩ })
          second) := by
  have hlength : ((List.range k).map (block 1)).length = k := by simp
  have hat : ((List.range k).map (block 1) ++ [block 0 k])[k]? = some (block 0 k) := by
    rw [List.getElem?_append_right (Nat.le_of_eq hlength), hlength, Nat.sub_self]
    rfl
  have hrun : FileActiveStatus.getCurBlockInfo (config N)
      (writing shm log (extending N k p log 0 false .ready stream)) =
        .ok () (writing shm log (lagging N k p log .transfer { stream with
          needUpdate := false, pos := k, blockInfo := ⟨fileId, some k, some k, 0, 0, true⟩ })) := by
    have hblock : FileActiveStatus.blockAt k
        (writing shm log (extending N k p log 0 false .ready stream)) =
          .ok (block 0 k) (writing shm log (extending N k p log 0 false .ready stream)) := by
      refine (run_bind_ok run_get).trans ?_
      rw [show (writing shm log (extending N k p log 0 false .ready stream)).self.blockArray[k]? =
        some (block 0 k) from hat]
      rfl
    unfold FileActiveStatus.getCurBlockInfo
    refine (run_bind_ok run_get).trans ?_
    rw [show (writing shm log
      (extending N k p log 0 false .ready stream)).self.stream.curBlockId = k from hcur]
    refine (run_bind_ok hblock).trans ?_
    have hoffset : k % 1 = 0 := Nat.mod_one k
    change EStateM.Result.ok () (writing shm log
      { extending N k p log 0 false .transfer { stream with
          needUpdate := false, pos := k
          blockInfo := ⟨fileId, some k, some k, (k % 1 : Nat), 0, true⟩ } with
        blockArray := ((List.range k).map (block 1) ++ [block 0 k]).modify k fun b =>
          { b with usageCount := wrap16 (b.usageCount + 1) } }) = _
    rw [modify_blocks, hoffset]
    rfl
  exact congrArg some ((runFile_ok hrun).trans rfl)

theorem stepFile_transfer_ok {cfg : Config} {w : World} {n : Nat} {h h' : FileActiveStatus}
    {space : List UInt8} (hpc : h.pc = .transfer)
    (hrun : h.transferChunk cfg w.space = .ok (h', space)) :
    stepFile cfg w n h = some { w.setFile n h' with space := space } := by
  simp only [stepFile, hpc, hrun]

theorem transfer_step {left : Nat} (hskip : stream.transfer = .skip)
    (hleft : stream.bytesLeft = left + 1) (hoffset : stream.blockInfo.offset = 0) :
    step (config N) (scene shm log history (lagging N k p log .transfer stream) second)
      (.file 0) = some (scene shm log history (lagging N k p log (.advance 1)
        { stream with needUpdate := decide (left > 0) }) second) := by
  have hchunk : (lagging N k p log .transfer stream).chunk (config N) = 1 := by
    rw [FileActiveStatus.chunk_eq hoffset (Nat.zero_le _)]
    change min stream.bytesLeft 1 = 1
    omega
  have hmore : decide ((stream.bytesLeft : Int) >
      (lagging N k p log .transfer stream).remaining (config N)) = decide (left > 0) := by
    refine decide_eq_decide.mpr ((FileActiveStatus.gt_remaining_iff
      (h := lagging N k p log .transfer stream) hoffset (Nat.zero_le _)).trans ?_)
    change stream.bytesLeft > 1 ↔ _
    omega
  have hrun : (lagging N k p log .transfer stream).transferChunk (config N) [] =
      .ok (lagging N k p log (.advance 1) { stream with needUpdate := decide (left > 0) }, []) := by
    have hstream : (lagging N k p log .transfer stream).stream = stream := rfl
    simp only [FileActiveStatus.transferChunk, hstream, hskip, hchunk, hmore]
    rfl
  exact stepFile_transfer_ok (w := scene shm log history (lagging N k p log .transfer stream)
    second)
    (n := 0) rfl hrun

theorem update_filled : Function.update (Function.update (filled k (p + 1)) k (extended k)) k
    (full k) = filled (k + 1) p := by
  funext i
  rw [Function.update_idem]
  by_cases hik : i = k
  · subst hik
    rw [Function.update_self]
    simp [filled]
  · rw [Function.update_of_ne hik]
    have hbelow : i < k + 1 ↔ i < k := by omega
    have habove : i < k + 1 + p ↔ i < k + (p + 1) := by omega
    simp only [filled, hbelow, habove]

theorem updateBucketDataSize_filled (hk : k < N) :
    SharedMemoryContext.updateBucketDataSize (config N) (some k) 1 fileId 0
        (segment N n (Function.update (filled k (p + 1)) k (extended k))) =
      .ok () (segment N n (filled (k + 1) p)) := by
  have hbucket : (segment N n (Function.update (filled k (p + 1)) k (extended k))).buckets[k]? =
      some (extended k) := by
    refine (getElem?_table hk).trans ?_
    rw [Function.update_self]
  have hwithin : ¬ k > (config N).numberOfBlocks := by
    change ¬ k > N
    omega
  have hsize : ¬ (1 : Int) > (config N).localBucketSize := by
    change ¬ (1 : Int) > ((1 : Nat) : Int)
    omega
  have hmine : ¬ ((extended k).fileId ≠ fileId ∨ (!(extended k).isActiveBucket) = true ∨
      (!(extended k).hasActiveId 0) = true) := by
    have hactive : (extended k).isActiveBucket = true := rfl
    have hholds : (extended k).hasActiveId 0 = true := rfl
    rw [hactive, hholds]
    exact fun h => h.elim (fun hne => hne rfl) fun h => h.elim Bool.false_ne_true Bool.false_ne_true
  unfold SharedMemoryContext.updateBucketDataSize
  simp only [hsize, hwithin, if_false]
  refine (run_bind_ok (SharedMemoryContext.run_bucketAt_some hbucket)).trans ?_
  rw [if_neg hmine]
  change EStateM.Result.ok () _ = _
  simp only [segment, modify_table, Function.update_self]
  rw [show { extended k with dataSize := Int.toNat 1 } = full k from rfl, update_filled]

theorem updateCurBlockSize_writer (hk : k < N) :
    FileActiveStatus.updateCurBlockSize (config N) (writing (segment N n
        (Function.update (filled k (p + 1)) k (extended k))) log
        (writer N (k + 1) p log mutex pc stream)) =
      .ok () (writing (segment N n (filled (k + 1) p)) log
        (writer N (k + 1) p log mutex pc stream)) := by
  let c := writing (segment N n (Function.update (filled k (p + 1)) k (extended k))) log
    (writer N (k + 1) p log mutex pc stream)
  have hlength : ((List.range (k + 1)).map (block 1)).length - 1 = k := by simp
  have hlast : FileActiveStatus.blockAt (((List.range (k + 1)).map (block 1)).length - 1) c =
      .ok (block 1 k) c := by
    have hat : ((List.range (k + 1)).map (block 1))[k]? = some (block 1 k) := by simp
    refine (run_bind_ok run_get).trans ?_
    rw [hlength, show c.self.blockArray[k]? = some (block 1 k) from hat]
    rfl
  have hsize : ((k + 1 : Nat) : Int) -
      ((((List.range (k + 1)).map (block 1)).length - 1) * 1 : Nat) = 1 := by
    rw [hlength]
    omega
  unfold FileActiveStatus.updateCurBlockSize
  refine (run_bind_ok run_get).trans ((run_bind_ok catchUp_writer).trans ?_)
  refine (run_bind_ok run_get).trans ?_
  rw [if_pos rfl]
  have hid : FileActiveStatus.myActiveId c = .ok 0 c := rfl
  refine (run_bind_ok hlast).trans ((run_bind_ok hid).trans ?_)
  have hupdate := updateBucketDataSize_filled (p := p) (n := n) hk
  rw [← hsize] at hupdate
  exact FileActiveStatus.run_onShm_ok hupdate

theorem advance_step {left : Nat} (hk : k < N) (hpos : stream.pos = k)
    (hleft : stream.bytesLeft = left + 1) (hmore : stream.needUpdate = decide (left > 0)) :
    ∃ history', step (config N) (scene (segment N n
        (Function.update (filled k (p + 1)) k (extended k))) log history
        (lagging N k p log (.advance 1) stream) second) (.file 0) =
      some (scene (segment N n (filled (k + 1) p)) log history'
        (writer N (k + 1) p log false (if left = 0 then .idle else .adjust)
          { stream with bytesLeft := left, pos := k + 1 }) second) := by
  have hstream : { stream with bytesLeft := stream.bytesLeft - 1, pos := stream.pos + 1 } =
      { stream with bytesLeft := left, pos := k + 1 } := by
    rw [hpos, hleft, Nat.add_sub_cancel]
  have hpc : (writer N (k + 1) p log false (.advance 1)
      { stream with bytesLeft := left, pos := k + 1 }).streamPc =
        if left = 0 then .idle else .adjust := by
    change (if left = 0 then Pc.idle else if stream.needUpdate then Pc.adjust else Pc.transfer) = _
    by_cases hnone : left = 0
    · rw [if_pos hnone, if_pos hnone]
    · rw [if_neg hnone, if_neg hnone, hmore, decide_eq_true (Nat.pos_of_ne_zero hnone), if_pos rfl]
  have hposition : FileActiveStatus.setPosition (config N) (k + 1) (writing (segment N n
        (Function.update (filled k (p + 1)) k (extended k))) log (lagging N k p log (.advance 1)
          { stream with bytesLeft := left, pos := k + 1 })) =
      .ok () (writing (segment N n (filled (k + 1) p)) log
        (writer N (k + 1) p log false (.advance 1)
          { stream with bytesLeft := left, pos := k + 1 })) := by
    unfold FileActiveStatus.setPosition
    refine (run_bind_ok rfl).trans ((run_bind_ok run_get).trans ?_)
    refine (congrFun (if_pos (Nat.lt_succ_self k)) _).trans ?_
    exact (run_bind_ok rfl).trans (updateCurBlockSize_writer hk)
  have hrun : FileActiveStatus.advance (config N) 1 (writing (segment N n
        (Function.update (filled k (p + 1)) k (extended k))) log
        (lagging N k p log (.advance 1) stream)) =
      .ok () (writing (segment N n (filled (k + 1) p)) log
        (writer N (k + 1) p log false (if left = 0 then .idle else .adjust)
          { stream with bytesLeft := left, pos := k + 1 })) := by
    unfold FileActiveStatus.advance
    refine (run_bind_ok rfl).trans ((run_bind_ok run_get).trans ?_)
    change (FileActiveStatus.setPosition (config N) (stream.pos + 1) >>= _) (writing (segment N n
        (Function.update (filled k (p + 1)) k (extended k))) log (lagging N k p log (.advance 1)
          { stream with bytesLeft := stream.bytesLeft - 1, pos := stream.pos + 1 })) = _
    rw [hstream, hpos]
    refine (run_bind_ok hposition).trans ?_
    rw [← hpc]
    rfl
  obtain ⟨history', hsettle⟩ : ∃ history', (scene (segment N n (filled (k + 1) p)) log history
      (writer N (k + 1) p log false (if left = 0 then .idle else .adjust)
        { stream with bytesLeft := left, pos := k + 1 }) second).settle 0 =
      scene (segment N n (filled (k + 1) p)) log history'
        (writer N (k + 1) p log false (if left = 0 then .idle else .adjust)
          { stream with bytesLeft := left, pos := k + 1 }) second := by
    by_cases hnone : left = 0
    · rw [if_pos hnone]
      exact ⟨_, rfl⟩
    · rw [if_neg hnone]
      exact ⟨history, rfl⟩
  exact ⟨history', congrArg some (((runFile_ok hrun).trans rfl).trans hsettle)⟩

/-- A record of the writer that every handle can read and replay. -/
structure Plain (e : LogEntry) : Prop where
  author : e.author = .file 0
  fits : e.Fits
  replays : ∀ v, ∃ v', replayRecord v e.record = .ok v'

theorem plain_acquired : Plain (acquired N k) := by
  refine ⟨rfl, ?_, fun v => ⟨v, rfl⟩⟩
  have hlength : (acquired N k).record.blocks.length = batch N k := by
    simp [acquired, entry, newBlocks]
  have hbatch : batch N k ≤ 4 := Nat.min_le_right _ _
  unfold LogEntry.Fits LogEntry.recordLength manifestBufferSize
  omega

theorem plain_extension : Plain (extension k) := by
  refine ⟨rfl, ?_, fun v => ⟨_, rfl⟩⟩
  change 24 + 12 * 1 ≤ 4 * 1024
  omega

/-- The system when the writer has filled `k` blocks. What it has logged is left open, but
for the shape of its records, since only the record of its last call is of interest. -/
def Filled (N k : Nat) (w : World) : Prop :=
  ∃ (p : Nat) (log : List LogEntry) (history : List CallRecord) (stream : Stream),
    w = scene (segment N (k + p) (filled k p)) log history
      (writer N k p log false (if N - k = 0 then .idle else .adjust) stream) (reader N) ∧
    k + p ≤ N ∧ stream.transfer = .skip ∧ stream.bytesLeft = N - k ∧ ∀ e ∈ log, Plain e

theorem forall_snoc {α : Type} {P : α → Prop} {xs : List α} {x : α} (hxs : ∀ y ∈ xs, P y)
    (hx : P x) : ∀ y ∈ xs ++ [x], P y := by
  intro y hy
  rcases List.mem_append.mp hy with hy | hy
  · exact hxs y hy
  · exact List.mem_singleton.mp hy ▸ hx

/-- Runs of the system of these handles, from any state. -/
abbrev Leads (N : Nat) : World → World → Prop := Run (step (config N)) anyStep

/-- A round of the writer whose bucket is at hand. -/
theorem block_run (hk : k < N) (hplain : ∀ e ∈ log, Plain e) (hle : k + (p + 1) ≤ N)
    (hskip : stream.transfer = .skip) (hleft : stream.bytesLeft = N - k)
    (hcur : stream.curBlockId = k) :
    ∃ w, Leads N (scene (segment N (k + (p + 1)) (filled k (p + 1))) log history
      (writer N k (p + 1) log true .extend stream) (reader N)) w ∧ Filled N (k + 1) w := by
  have hsucc : N - k = (N - (k + 1)) + 1 := by omega
  let log' := log ++ [extension k]
  let shm := segment N (k + (p + 1)) (Function.update (filled k (p + 1)) k (extended k))
  let ready : Stream := { stream with
    needUpdate := false, pos := k, blockInfo := ⟨fileId, some k, some k, 0, 0, true⟩ }
  let moved : Stream := { ready with needUpdate := decide (N - (k + 1) > 0) }
  have h₁ : Leads N (scene (segment N (k + (p + 1)) (filled k (p + 1))) log history
      (writer N k (p + 1) log true .extend stream) (reader N))
      (scene shm log' history (extending N k p log' 0 false .ready stream) (reader N)) :=
    .step _ .start trivial (extend_step hk hcur)
  have h₂ : Leads N _ (scene shm log' history (lagging N k p log' .transfer ready) (reader N)) :=
    .step _ h₁ trivial (ready_step hcur)
  have h₃ : Leads N _ (scene shm log' history (lagging N k p log' (.advance 1) moved) (reader N)) :=
    .step _ h₂ trivial (transfer_step hskip (hleft.trans hsucc) rfl)
  obtain ⟨history', h₄⟩ : ∃ history', step (config N)
      (scene shm log' history (lagging N k p log' (.advance 1) moved) (reader N)) (.file 0) = _ :=
    advance_step hk rfl (hleft.trans hsucc) rfl
  refine ⟨_, .step _ h₃ trivial h₄, p, log', history',
    { moved with bytesLeft := N - (k + 1), pos := k + 1 }, ?_, by omega, hskip, rfl,
    forall_snoc hplain plain_extension⟩
  rw [show k + (p + 1) = k + 1 + p by omega]

theorem filled_run {w : World} (hw : Filled N k w) (hk : k < N) (hN : N < 2 ^ 32) :
    ∃ w', Leads N w w' ∧ Filled N (k + 1) w' := by
  obtain ⟨p, log, history, stream, rfl, hle, hskip, hleft, hplain⟩ := hw
  have hpc : (if N - k = 0 then Pc.idle else Pc.adjust) = Pc.adjust := if_neg (by omega)
  rw [hpc]
  let stream' : Stream := { stream with curBlockId := k }
  have hcur : stream'.curBlockId = k := rfl
  have hskip : stream'.transfer = .skip := hskip
  have hleft : stream'.bytesLeft = N - k := hleft
  cases p with
  | zero =>
      obtain ⟨b, hb⟩ : ∃ b, batch N k = b + 1 := ⟨batch N k - 1, by have := batch_pos hk; omega⟩
      have hroom : k + (b + 1) ≤ N := by
        rw [← hb]
        unfold batch
        omega
      have h₁ : Leads N (scene (segment N k (filled k 0)) log history
          (writer N k 0 log false .adjust stream) (reader N))
          (scene (segment N k (filled k 0)) log history
            (writer N k 0 log true (.acquire .extend) stream') (reader N)) :=
        .step _ .start trivial adjust_step
      have h₂ : Leads N _ (scene (segment N (k + (b + 1)) (filled k (b + 1)))
          (log ++ [acquired N k]) history
          (writer N k (b + 1) (log ++ [acquired N k]) true .extend stream') (reader N)) :=
        .step _ h₁ trivial (hb ▸ acquire_step hk hN)
      obtain ⟨w', hrun, hw'⟩ :=
        block_run hk (forall_snoc hplain plain_acquired) hroom hskip hleft hcur
      exact ⟨w', h₂.trans hrun, hw'⟩
  | succ p =>
      have h₁ : Leads N (scene (segment N (k + (p + 1)) (filled k (p + 1))) log history
          (writer N k (p + 1) log false .adjust stream) (reader N))
          (scene (segment N (k + (p + 1)) (filled k (p + 1))) log history
            (writer N k (p + 1) log true .extend stream') (reader N)) :=
        .step _ .start trivial adjust_step
      obtain ⟨w', hrun, hw'⟩ := block_run hk hplain hle hskip hleft hcur
      exact ⟨w', h₁.trans hrun, hw'⟩

theorem filled_start (hN : 0 < N) :
    ∃ w, Leads N (init (config N)) w ∧ Filled N 0 w := by
  refine ⟨_, .step (.call 0 (.seekSet N)) lobby_run trivial (seek_step hN), 0, [],
    [joined 0, joined 1], seeking N, ?_,
    Nat.zero_le _, rfl, rfl, fun _ he => nomatch he⟩
  rw [if_neg (by omega)]

/-- Every block can be filled. -/
theorem filled_reached (hN : N < 2 ^ 32) (hpos : 0 < N) (hk : k ≤ N) :
    ∃ w, Leads N (init (config N)) w ∧ Filled N k w := by
  induction k with
  | zero => exact filled_start hpos
  | succ k ih =>
      obtain ⟨w, hrun, hw⟩ := ih (Nat.le_of_succ_le hk)
      obtain ⟨w', hrun', hw'⟩ := filled_run hw hk hN
      exact ⟨w', hrun.trans hrun', hw'⟩

end Filling

end World

end Gopherwood
