/-
# A record longer than the buffer

A log record is read through a buffer of 4096 bytes, and a record with 340 blocks is
longer than that. A writer that has filled 340 blocks and closes puts all of them into one
record. Another handle of the file reads every record before that one, then ten bytes of
it, and throws: its descriptor is left inside the record, which it never reads whole.
-/

import Gopherwood.Journal.AppendOnly
import Gopherwood.Journal.FillingRounds

namespace Gopherwood

open Library

namespace FileActiveStatus

/-- A record behind the ones that can be read is longer than the buffer: the records
before it are replayed, and the descriptor is left behind its first ten bytes. -/
theorem catchUp_loop_unfit {readable : List LogEntry} {long : LogEntry} {rest : List LogEntry}
    (hlong : ¬ long.Fits) :
    ∀ {fuel : Nat} {c : Ctx} {fd : Descriptor} {done : List LogEntry} {v : View},
      c.self.fd = some fd → fd.At c.folder done (readable ++ long :: rest) →
      readable.length < fuel → (∀ e ∈ readable, e.Fits) →
      replay c.self.view (readable.map LogEntry.record) = .ok v →
      ∃ e, catchUpManifestLogs.loop fuel c = .error e (c.caughtUp
        ⟨fd.file, (logBytes (done ++ readable)).length + 10⟩ readable v) := by
  induction readable with
  | nil =>
      intro fuel c fd done v hfd hat hfuel _ hreplay
      obtain ⟨fuel, rfl⟩ : ∃ n, fuel = n + 1 := ⟨fuel - 1, by omega⟩
      obtain rfl : c.self.view = v := Except.ok.inj hreplay
      have hfetch : fetchOneLogRecord (c.folder.content fd.file) fd =
          (.error (.gopherwood
            "[Manifest::fetchOneLogRecord] recLength should not exceed buffer size."),
            { fd with offset := fd.offset + 10 }) := by
        rw [hat.content]
        unfold fetchOneLogRecord
        rw [hat.offset, logBytes, logBytes, List.nil_append, fetch_next LogEntry.recordLength_pos]
        simp only [gt_iff_lt, Nat.lt_of_not_le hlong, if_true]
      refine ⟨.gopherwood
        "[Manifest::fetchOneLogRecord] recLength should not exceed buffer size.", ?_⟩
      simp only [catchUpManifestLogs.loop, modifySelf, run_bind, run_get, hfd, hfetch, run_modify,
        run_throw, Ctx.caughtUp, advanceTo, view, List.append_nil, hat.offset]
  | cons first readable ih =>
      intro fuel c fd done v hfd hat hfuel hfits hreplay
      obtain ⟨fuel, rfl⟩ : ∃ n, fuel = n + 1 := ⟨fuel - 1, by omega⟩
      have hfetch := fetchOneLogRecord_next hat.content hat.offset
        (hfits first List.mem_cons_self)
      rw [List.map_cons] at hreplay
      rcases replay_cons_cases c.self.view first.record (readable.map LogEntry.record) with
        ⟨err, -, hstep⟩ | ⟨mid, hstep, hrest⟩
      · cases hreplay.symm.trans hstep
      · let fd' : Descriptor := ⟨fd.file, (logBytes (done ++ [first])).length⟩
        let c' : Ctx := c.caughtUp fd' [first] mid
        have hloop : catchUpManifestLogs.loop (fuel + 1) c = catchUpManifestLogs.loop fuel c' := by
          simp only [catchUpManifestLogs.loop, modifySelf, run_bind, run_get, hfd, hfetch,
            run_modify, hstep]
          rfl
        have hat' : fd'.At c'.folder (done ++ [first]) (readable ++ long :: rest) :=
          ⟨by simpa [c', fd', Ctx.caughtUp, List.append_assoc] using hat.content, rfl⟩
        have hfuel' : readable.length < fuel := by
          simp only [List.length_cons] at hfuel
          omega
        obtain ⟨e, hrun⟩ := ih (c := c') rfl hat' hfuel'
          (fun x hx => hfits x (List.mem_cons_of_mem _ hx)) (hrest.symm.trans hreplay)
        refine ⟨e, ?_⟩
        rw [hloop, hrun]
        simp only [c', fd', Ctx.caughtUp, advanceTo, List.append_assoc, List.cons_append,
          List.nil_append]

theorem catchUp_unfit {readable : List LogEntry} {long : LogEntry} {rest : List LogEntry}
    {c : Ctx} {fd : Descriptor} {done : List LogEntry} {v : View} (hlong : ¬ long.Fits)
    (hfd : c.self.fd = some fd) (hat : fd.At c.folder done (readable ++ long :: rest))
    (hfits : ∀ e ∈ readable, e.Fits)
    (hreplay : replay c.self.view (readable.map LogEntry.record) = .ok v) :
    ∃ e, catchUpManifestLogs c = .error e (c.caughtUp
      ⟨fd.file, (logBytes (done ++ readable)).length + 10⟩ readable v) := by
  have hfuel : readable.length < (c.folder.content fd.file).length + 1 := by
    have hlength := length_le_logBytes (done ++ (readable ++ long :: rest))
    rw [hat.content]
    simp only [List.length_append] at hlength ⊢
    omega
  have hunfold : catchUpManifestLogs c =
      catchUpManifestLogs.loop ((c.folder.content fd.file).length + 1) c := by
    simp only [catchUpManifestLogs, run_bind, run_get, hfd]
  rw [hunfold]
  exact catchUp_loop_unfit hlong hfd hat hfuel hfits hreplay

end FileActiveStatus

namespace World

namespace Filling

open FileActiveStatus (logRecord updateInactivated getSharedMemEof flushEof blockAt blocksOf
  myActiveId onShm modifySelf removeNumOfKeys closeFile unregistInSharedMem)

section Close

variable {N : Nat} {log : List LogEntry} {stream : Stream} {shm : SharedMem} {mutex : Bool}
  {pc : Pc}

/-- The bucket of block `i` after the writer has given its block up. -/
def retired (i : Nat) : ShareMemBucket :=
  { full i with
    type := .used, usageCount := 1, activeInfos := List.replicate maxConcurrentOpen none }

theorem inactivateOne_full {s : SharedMem} {f : Nat → ShareMemBucket} {i : Nat} (hi : i < N)
    (hbuckets : s.buckets = table N f) (hf : f i = full i) :
    ∃ s', SharedMemoryContext.inactivateOne (block 1 i) fileId 0 s = .ok true s' ∧
      s'.activeStatus = s.activeStatus ∧
      s'.buckets = table N (Function.update f i (retired i)) := by
  have hbucket : s.buckets[i]? = some (full i) := by
    rw [hbuckets, ← hf]
    exact getElem?_table hi
  let counted : ShareMemBucket := { full i with usageCount := 1 }
  let s₁ := s.updBucket i fun _ => counted
  have h₁ : s₁.buckets[i]? = some counted := by
    simp only [s₁, SharedMem.updBucket_same, hbucket, Option.map_some]
  let s₂ := s₁.updBucket i fun x =>
    { x with activeInfos := List.replicate maxConcurrentOpen none }
  have h₂ : s₂.buckets[i]? = some { counted with
      activeInfos := List.replicate maxConcurrentOpen none } := by
    simp only [s₂, SharedMem.updBucket_same, h₁, Option.map_some]
  have hunmark : SharedMemoryContext.unmarkBucket i 0 s₁ = .ok () s₂ :=
    SharedMemoryContext.unmarkBucket_some h₁ rfl
  have hmodify : SharedMemoryContext.modifyBucket i (fun b => { b with
      fileId := fileId, fileBlockIndex := (block 1 i).blockId
      usageCount := wrap16 (b.usageCount + (block 1 i).usageCount) }) s = .ok () s₁ := by
    rw [SharedMemoryContext.run_modifyBucket]
    exact congrArg (EStateM.Result.ok ()) (SharedMem.updBucket_congr _ hbucket rfl)
  refine ⟨(s₂.updBucket i ShareMemBucket.setBucketUsed).updHeader fun h => { h with
    numActiveBuckets := dec32 h.numActiveBuckets, numUsedBuckets := inc32 h.numUsedBuckets },
    ?_, rfl, ?_⟩
  · unfold SharedMemoryContext.inactivateOne
    refine (run_bind_ok (SharedMemoryContext.run_inRange_some i)).trans ?_
    refine (run_bind_ok (SharedMemoryContext.run_bucketAt_some hbucket)).trans ?_
    rw [if_pos (show (full i).isActiveBucket = true from rfl)]
    refine (run_bind_ok hmodify).trans ((run_bind_ok hunmark).trans ?_)
    refine (run_bind_ok (SharedMemoryContext.run_bucketAt_some h₂)).trans ?_
    rw [if_pos (show ShareMemBucket.noActiveReadWrite _ = true from rfl)]
    rfl
  · change (((s.buckets.modify i fun _ => counted).modify i _).modify i _) = _
    rw [hbuckets, modify_table, modify_table, modify_table]
    simp only [Function.update_idem, Function.update_self]
    rfl

def setUsed (b : Block) : Block := { b with state := .used }

/-- The bucket table after the writer has given up its first `j` blocks. -/
def retiring (j i : Nat) : ShareMemBucket := if i < j then retired i else full i

theorem inactivateBuckets_full (m : Nat) : ∀ {j : Nat} {s : SharedMem}, j + m = N →
    s.buckets = table N (retiring j) →
    ∃ s', SharedMemoryContext.inactivateBuckets fileId 0 ((List.range' j m).map (block 1)) s =
        .ok ((List.range' j m).map fun i => setUsed (block 1 i)) s' ∧
      s'.activeStatus = s.activeStatus ∧ s'.buckets = table N (retiring N) := by
  induction m with
  | zero =>
      intro j s hj hbuckets
      obtain rfl : j = N := hj
      exact ⟨s, rfl, rfl, hbuckets⟩
  | succ m ih =>
      intro j s hj hbuckets
      obtain ⟨s₁, hone, hslots, hbuckets₁⟩ := inactivateOne_full (N := N) (i := j) (by omega)
        hbuckets (if_neg (Nat.lt_irrefl j))
      have hnext : Function.update (retiring j) j (retired j) = retiring (j + 1) := by
        funext i
        by_cases hij : i = j
        · subst hij
          rw [Function.update_self, retiring, if_pos (Nat.lt_succ_self i)]
        · have hlt : i < j + 1 ↔ i < j := by omega
          rw [Function.update_of_ne hij]
          simp only [retiring, hlt]
      rw [hnext] at hbuckets₁
      obtain ⟨s', hrest, hslots', hbuckets'⟩ := ih (j := j + 1) (by omega) hbuckets₁
      refine ⟨s', ?_, hslots'.trans hslots, hbuckets'⟩
      exact (run_bind_ok hone).trans (run_bind_ok hrest)

/-- The writer inside its `close`, after its blocks were given up. Its log grows by one
record for the end of file, and then by the record that has all blocks. -/
structure Closing (N : Nat) (log : List LogEntry) (c : Ctx) : Prop where
  current : Current log c
  client : c.self.client = .file 0
  fileId : c.self.fileId = Filling.fileId
  pid : c.self.pid = 1
  activeId : c.self.activeId = some 0
  blocks : c.self.blockArray.map Block.bucketId = (List.range N).map some
  buckets : c.shm.buckets = table N (retiring N)
  slots : c.shm.activeStatus = [slot 1, slot 2, .blank, .blank]

section Closing

variable {c : Ctx}

theorem length_closing (hc : Closing N log c) : c.self.blockArray.length = N := by
  simpa using congrArg List.length hc.blocks

theorem logRecord_closing (hc : Closing N log c) (type : RecordType) (eof : Nat)
    (blocks : List Block) : ∃ c', logRecord type eof blocks c = .ok () c' ∧
      Closing N (log ++ [entry type eof blocks]) c' :=
  ⟨_, hc.current.append hc.client type eof blocks, ⟨rfl, rfl⟩, hc.client, hc.fileId, hc.pid,
    hc.activeId, hc.blocks, hc.buckets, hc.slots⟩

theorem blockAt_closing (hc : Closing N log c) {i : Nat} (hi : i < N) :
    ∃ b, blockAt i c = .ok b c ∧ b.bucketId = some i := by
  have hlt : i < c.self.blockArray.length := by
    rw [length_closing hc]
    exact hi
  refine ⟨c.self.blockArray[i], ?_, ?_⟩
  · refine (run_bind_ok run_get).trans ?_
    rw [List.getElem?_eq_getElem hlt]
    rfl
  · have hat : (c.self.blockArray.map Block.bucketId)[i]? = some (some i) := by
      rw [hc.blocks]
      simp [hi]
    rw [List.getElem?_map, List.getElem?_eq_getElem hlt] at hat
    exact Option.some.inj hat

theorem getBucketDataSize_closing (hc : Closing N log c) (hN : 0 < N) :
    SharedMemoryContext.getBucketDataSize (config N) (some (N - 1)) fileId (N - 1) c.shm =
      .ok 1 c.shm := by
  have hbucket : c.shm.buckets[N - 1]? = some (retired (N - 1)) := by
    rw [hc.buckets, getElem?_table (by omega), retiring, if_pos (by omega)]
  have hwithin : ¬ N - 1 > (config N).numberOfBlocks := by
    change ¬ N - 1 > N
    omega
  have hmine : ¬ ((retired (N - 1)).fileId ≠ fileId ∨
      (retired (N - 1)).fileBlockIndex ≠ some (N - 1)) :=
    fun h => h.elim (fun hne => hne rfl) fun hne => hne rfl
  unfold SharedMemoryContext.getBucketDataSize
  simp only [hwithin, if_false]
  refine (run_bind_ok (SharedMemoryContext.run_bucketAt_some hbucket)).trans ?_
  rw [if_neg hmine]
  rfl

theorem flushEof_closing (hc : Closing N log c) (hN : 0 < N) :
    ∃ eof c', flushEof (config N) c = .ok () c' ∧
      Closing N (log ++ [entry .updateEof eof []]) c' := by
  have hlength := length_closing hc
  obtain ⟨last, hlast, hbucketId⟩ := blockAt_closing hc (i := N - 1) (by omega)
  have hsize : onShm (SharedMemoryContext.getBucketDataSize (config N) last.bucketId c.self.fileId
      (N - 1)) c = .ok 1 c := by
    rw [hbucketId, hc.fileId]
    exact FileActiveStatus.run_onShm_ok (getBucketDataSize_closing hc hN)
  obtain ⟨c₁, heof, hc₁⟩ : ∃ c₁, getSharedMemEof (config N) c = .ok () c₁ ∧ Closing N log c₁ := by
    let eof := (N - 1) * (config N).localBucketSize + 1
    have hrest : getSharedMemEof (config N) c = (if eof > c.self.eof then
        modifySelf fun h => { h with eof := eof } else pure () : StatusM Unit) c := by
      refine (run_bind_ok run_get).trans ?_
      rw [hlength]
      exact (run_bind_ok hlast).trans (run_bind_ok hsize)
    rw [hrest]
    split
    · exact ⟨_, rfl, ⟨hc.current.folder, hc.current.fd⟩, hc.client, hc.fileId, hc.pid, hc.activeId,
        hc.blocks, hc.buckets, hc.slots⟩
    · exact ⟨c, rfl, hc⟩
  obtain ⟨c', hlog, hc'⟩ := logRecord_closing hc₁ .updateEof c₁.self.eof []
  exact ⟨c₁.self.eof, c', (run_bind_ok heof).trans ((run_bind_ok run_get).trans hlog), hc'⟩

theorem setUsed_closing (hc : Closing N log c) (j : Nat) : Closing N log
    { c with self := { c.self with blockArray := c.self.blockArray.modify j setUsed } } := by
  refine ⟨⟨hc.current.folder, hc.current.fd⟩, hc.client, hc.fileId, hc.pid, hc.activeId, ?_,
    hc.buckets, hc.slots⟩
  rw [← hc.blocks]
  apply List.ext_getElem?
  intro i
  simp only [List.getElem?_map, List.getElem?_modify]
  split
  · cases c.self.blockArray[i]? with
    | none => rfl
    | some b => rfl
  · simp

theorem updateInactivated_closing (m : Nat) : ∀ {j : Nat} {c : Ctx}, j + (m + 1) = N →
    Closing N log c → ∃ eof c', updateInactivated (config N)
        ((List.range' j (m + 1)).map fun i => setUsed (block 1 i)) c = .ok () c' ∧
      Closing N (log ++ [entry .updateEof eof []]) c' := by
  induction m with
  | zero =>
      intro j c hj hc
      obtain ⟨old, hblock, -⟩ := blockAt_closing hc (i := j) (by omega)
      have hused := setUsed_closing hc j
      have hlast : j + 1 = (c.self.blockArray.modify j setUsed).length := by
        rw [length_closing hused, ← hj]
      obtain ⟨eof, c', hflush, hc'⟩ := flushEof_closing hused (by omega)
      refine ⟨eof, c', ?_, hc'⟩
      refine (run_bind_ok hblock).trans ((run_bind_ok rfl).trans ((run_bind_ok run_get).trans ?_))
      refine (congrFun (if_pos hlast) _).trans ?_
      exact (run_bind_ok hflush).trans rfl
  | succ m ih =>
      intro j c hj hc
      obtain ⟨old, hblock, -⟩ := blockAt_closing hc (i := j) (by omega)
      have hused := setUsed_closing hc j
      have hlast : ¬ j + 1 = (c.self.blockArray.modify j setUsed).length := by
        rw [length_closing hused]
        omega
      obtain ⟨eof, c', hrest, hc'⟩ := ih (j := j + 1) (by omega) hused
      refine ⟨eof, c', ?_, hc'⟩
      refine (run_bind_ok hblock).trans ((run_bind_ok rfl).trans ((run_bind_ok run_get).trans ?_))
      refine (congrFun (if_neg hlast) _).trans ?_
      exact hrest

/-- The blocks that the writer gives up at the end. -/
def givenUp (N : Nat) : List Block := (List.range' 0 N).map fun i => setUsed (block 1 i)

theorem blocksOf_writer {h : FileActiveStatus}
    (hblocks : h.blockArray = (List.range N).map (block 1)) (m : Nat) : ∀ {j : Nat}, j + m = N →
      blocksOf (List.range' j m) (writing shm log h) =
        .ok ((List.range' j m).map (block 1)) (writing shm log h) := by
  induction m with
  | zero =>
      intro j _
      rfl
  | succ m ih =>
      intro j hj
      have hblock : blockAt j (writing shm log h) = .ok (block 1 j) (writing shm log h) := by
        refine (run_bind_ok run_get).trans ?_
        have hat : (writing shm log h).self.blockArray[j]? = some (block 1 j) := by
          change h.blockArray[j]? = _
          rw [hblocks]
          simp [show j < N by omega]
        rw [hat]
        rfl
      exact (run_bind_ok hblock).trans (run_bind_ok (ih (j := j + 1) (by omega)))

theorem removeNumOfKeys_writer :
    removeNumOfKeys N (writing shm log (writer N N 0 log mutex pc stream)) =
      .ok (List.range' 0 N) (writing shm log
        { writer N N 0 log mutex pc stream with lruCache := cache N 0 }) := by
  have hcache : (cache N N).removeNumOfKeys N = (cache N 0, List.range' 0 N) := by
    have hlength : ((List.range N).map fun i => (i, some i)).reverse.length = N := by simp
    simp only [LRUCache.removeNumOfKeys, cache, hlength, Nat.sub_self, List.take_zero,
      List.drop_zero, List.map_reverse, List.reverse_reverse, List.map_map]
    simp [Function.comp_def, List.range_eq_range']
  refine (run_bind_ok run_get).trans ?_
  rw [show (writing shm log (writer N N 0 log mutex pc stream)).self.lruCache = cache N N from rfl,
    hcache]
  rfl

theorem unregistFile_closing (hc : Closing N log c) : ∃ shm',
    onShm (SharedMemoryContext.unregistFile 0 1) c = .ok (some false) { c with shm := shm' } ∧
      shm'.activeStatus = [.blank, slot 2, .blank, .blank] := by
  refine ⟨(c.shm.updSlot 0 fun _ => .blank).updHeader fun h => { h with
    numFileActiveStatus := dec32 h.numFileActiveStatus }, FileActiveStatus.run_onShm_ok ?_, ?_⟩
  · refine (run_bind_ok run_get).trans ?_
    rw [hc.slots]
    rfl
  · rw [SharedMem.updHeader_activeStatus, SharedMem.updSlot, hc.slots]
    rfl

theorem unregistInSharedMem_closing (hc : Closing N log c) :
    ∃ c', unregistInSharedMem false c = .ok () c' ∧ c'.folder = folder log ∧
      c'.self.fileId = fileId ∧ c'.shm.activeStatus = [.blank, slot 2, .blank, .blank] := by
  obtain ⟨shm', hunregist, hslots⟩ := unregistFile_closing hc
  have hid : myActiveId c = .ok 0 c := by
    refine (run_bind_ok run_get).trans ?_
    rw [hc.activeId]
    rfl
  refine ⟨{ c with shm := shm', self := { c.self with
    shouldDestroy := c.self.shouldDestroy || false || false, activeId := none } }, ?_,
    hc.current.folder, hc.fileId, hslots⟩
  refine (run_bind_ok run_get).trans ((run_bind_ok hid).trans ?_)
  rw [hc.pid]
  exact run_bind_ok hunregist

theorem closeFile_open (hself : c.self.fileId = fileId)
    (hslots : c.shm.activeStatus = [.blank, slot 2, .blank, .blank]) :
    ∃ c', closeFile c = .ok [] c' ∧ c'.folder = c.folder := by
  have hopening : onShm (SharedMemoryContext.isFileOpening c.self.fileId) c = .ok true c := by
    refine FileActiveStatus.run_onShm_ok ((run_bind_ok run_get).trans ?_)
    rw [hslots, hself]
    rfl
  refine ⟨{ c with self := { c.self with shouldDestroy := false } }, ?_, rfl⟩
  refine (run_bind_ok run_get).trans ((run_bind_ok hopening).trans ?_)
  rfl

theorem close_writer (hN : 0 < N) :
    ∃ eof c', FileActiveStatus.close (config N) false (writing (segment N N (filled N 0)) log
        (writer N N 0 log false pc stream)) = .ok [] c' ∧
      c'.folder = folder (log ++ [entry .updateEof eof []] ++
        [entry .inactiveBlock 0 (givenUp N)]) := by
  obtain ⟨m, rfl⟩ : ∃ m, N = m + 1 := ⟨N - 1, by omega⟩
  have hfull : (segment (m + 1) (m + 1) (filled (m + 1) 0)).buckets =
      table (m + 1) (retiring 0) := by
    refine table_congr fun i hi => ?_
    simp [filled, retiring, hi]
  obtain ⟨shm', hturned, hslots, hbuckets⟩ := inactivateBuckets_full (N := m + 1) (m + 1) (j := 0)
    (Nat.zero_add _) hfull
  let h : FileActiveStatus :=
    { writer (m + 1) (m + 1) 0 log false pc stream with lruCache := cache (m + 1) 0 }
  have hc : Closing (m + 1) log (writing shm' log h) := by
    refine ⟨⟨rfl, rfl⟩, rfl, rfl, rfl, rfl, ?_, hbuckets, hslots⟩
    change ((List.range (m + 1)).map (block 1)).map Block.bucketId = _
    rw [List.map_map]
    rfl
  obtain ⟨eof, c₁, hupdate, hc₁⟩ := updateInactivated_closing m (Nat.zero_add _) hc
  obtain ⟨c₂, hlog, hc₂⟩ := logRecord_closing hc₁ .inactiveBlock 0 (givenUp (m + 1))
  obtain ⟨c₃, hunregist, hfolder, hself, hslots₃⟩ := unregistInSharedMem_closing hc₂
  obtain ⟨c₄, hclose, hsame⟩ := closeFile_open hself hslots₃
  refine ⟨eof, { c₄ with self := { c₄.self with
    blockArray := [], lruCache := .empty c₄.self.lruCache.maxSize } }, ?_, hsame.trans hfolder⟩
  have hid : myActiveId (writing (segment (m + 1) (m + 1) (filled (m + 1) 0)) log
      (writer (m + 1) (m + 1) 0 log false pc stream)) =
        .ok 0 (writing (segment (m + 1) (m + 1) (filled (m + 1) 0)) log
          (writer (m + 1) (m + 1) 0 log false pc stream)) := rfl
  have hsize : (writer (m + 1) (m + 1) 0 log false pc stream).lruCache.size = m + 1 := size_writer
  have hinactivate := FileActiveStatus.run_onShm_ok
    (c := writing (segment (m + 1) (m + 1) (filled (m + 1) 0)) log h) hturned
  unfold FileActiveStatus.close
  refine (run_bind_ok catchUp_writer).trans ((run_bind_ok run_get).trans ?_)
  refine (run_bind_ok hid).trans ?_
  change (removeNumOfKeys (writer (m + 1) (m + 1) 0 log false pc stream).lruCache.size >>= _) _ = _
  rw [hsize]
  refine (run_bind_ok removeNumOfKeys_writer).trans ?_
  refine (run_bind_ok (blocksOf_writer (h := h) rfl (m + 1) (Nat.zero_add _))).trans ?_
  refine (congrFun (if_neg fun hne => hne rfl) _).trans ?_
  refine (run_bind_ok hinactivate).trans ((run_bind_ok hupdate).trans ?_)
  refine (congrFun (if_pos (List.cons_ne_nil _ _)) _).trans ?_
  refine (run_bind_ok hlog).trans ((run_bind_ok hunregist).trans ?_)
  exact (run_bind_ok hclose).trans rfl

end Closing

/-! ## The long record -/

/-- The record of the last call of the writer. -/
def lastRecord (N : Nat) : LogEntry := entry .inactiveBlock 0 (givenUp N)

theorem lastRecord_unfit (hN : 340 ≤ N) : ¬ (lastRecord N).Fits := by
  have hlength : (lastRecord N).record.blocks.length = N := by
    simp [lastRecord, entry, givenUp]
  unfold LogEntry.Fits LogEntry.recordLength manifestBufferSize
  omega

/-- The writer closes, and its blocks are in one record behind the others. -/
theorem close_run {w : World} (hw : Filled N N w) (hN : 0 < N) :
    ∃ w' log, Leads N w w' ∧ w'.files[1]? = some (reader N) ∧
      w'.folder = folder (log ++ [lastRecord N]) ∧ ∀ e ∈ log, Plain e := by
  obtain ⟨p, log, history, stream, rfl, hle, -, -, hplain⟩ := hw
  obtain rfl : p = 0 := by omega
  rw [if_pos (Nat.sub_self N)]
  obtain ⟨eof, c', hclose, hfolder⟩ : ∃ eof c', FileActiveStatus.close (config N) false
      (writing (segment N N (filled N 0)) log (writer N N 0 log false (.close false) stream)) =
        .ok [] c' ∧ _ := close_writer hN
  have h₁ : Leads N (scene (segment N N (filled N 0)) log history
      (writer N N 0 log false .idle stream) (reader N))
      (scene (segment N N (filled N 0)) log history
        (writer N N 0 log false (.close false) stream) (reader N)) :=
    .step (.call 0 (.close false)) .start trivial rfl
  refine ⟨_, log ++ [entry .updateEof eof []],
    .step (.file 0) h₁ trivial (congrArg some (runFile_ok hclose)), rfl, hfolder,
    forall_snoc hplain ⟨rfl, ?_, fun v => ⟨_, rfl⟩⟩⟩
  change 24 + 12 * 0 ≤ 4 * 1024
  omega

theorem replays_plain (hplain : ∀ e ∈ log, Plain e) (v : View) :
    ∃ v', replay v (log.map LogEntry.record) = .ok v' := by
  induction log generalizing v with
  | nil => exact ⟨v, rfl⟩
  | cons e log ih =>
      obtain ⟨mid, hmid⟩ := (hplain e List.mem_cons_self).replays v
      obtain ⟨v', hv'⟩ := ih (fun x hx => hplain x (List.mem_cons_of_mem _ hx)) mid
      exact ⟨v', replay_cons_ok hmid hv'⟩

/-- The other handle flushes, and is left ten bytes behind the records that it has read. -/
theorem flush_run {w : World} {long : LogEntry} (hfile : w.files[1]? = some (reader N))
    (hfolder : w.folder = folder (log ++ [long])) (hplain : ∀ e ∈ log, Plain e)
    (hlong : ¬ long.Fits) :
    ∃ w' h, Leads N w w' ∧ w'.files[1]? = some h ∧ h.activeId ≠ none ∧
      h.fd = some ⟨0, (logBytes log).length + 10⟩ ∧
      w'.folder.content 0 = logBytes (log ++ [long]) := by
  obtain ⟨hlt, -⟩ := List.getElem?_eq_some_iff.mp hfile
  let flushing : FileActiveStatus := { reader N with pc := .flush }
  let w₁ := w.setFile 1 flushing
  have h₁ : step (config N) w (.call 1 .flush) = some w₁ := by
    simp only [step, hfile]
    rfl
  have hfile₁ : w₁.files[1]? = some flushing := List.getElem?_set_self hlt
  have hat : (⟨0, 0⟩ : Descriptor).At w₁.folder [] (log ++ long :: []) := by
    refine ⟨?_, rfl⟩
    rw [show w₁.folder = w.folder from rfl, hfolder]
    rfl
  obtain ⟨v, hv⟩ := replays_plain hplain View.empty
  obtain ⟨e, hcatch⟩ := FileActiveStatus.catchUp_unfit (c := w₁.ctx flushing) hlong rfl hat
    (fun x hx => (hplain x hx).fits) hv
  let c := (w₁.ctx flushing).caughtUp ⟨0, (logBytes ([] ++ log)).length + 10⟩ log v
  have hflush : FileActiveStatus.flush (config N) (w₁.ctx flushing) = .error e c := by
    refine (run_bind_ok run_get).trans ?_
    exact run_bind_error hcatch
  have h₂ : step (config N) w₁ (.file 1) =
      some ({ w₁ with shm := c.shm, folder := c.folder, oss := c.oss }.raise 1 c.self
        (some .flush) e) := by
    simp only [step, hfile₁]
    change some (runFile _ _ _ _ _ _) = _
    unfold runFile
    rw [show FileActiveStatus.flush (config N) ⟨w₁.shm, w₁.folder, w₁.oss, flushing⟩ = .error e c
      from hflush]
  refine ⟨_, { c.self with pc := .idle }, .step (.file 1) (.step (.call 1 .flush) .start trivial h₁)
    trivial h₂, ?_, Option.some_ne_none 1, rfl, ?_⟩
  · exact List.getElem?_set_self ((List.getElem?_eq_some_iff.mp hfile₁).1)
  · change w.folder.content 0 = _
    rw [hfolder]
    rfl

end Close

end Filling

/-- A descriptor inside the last record stands behind no number of records. -/
theorem not_readsOthersOnce {w : World} {h : FileActiveStatus} {log : List LogEntry}
    {long : LogEntry} (hfd : h.fd = some ⟨0, (logBytes log).length + 10⟩)
    (hcontent : w.folder.content 0 = logBytes (log ++ [long])) : ¬ w.ReadsOthersOnce h := by
  rintro ⟨fd, passed, pending, hfd', hbytes, hoffset, -, -⟩
  obtain rfl := Option.some.inj (hfd.symm.trans hfd')
  rw [hcontent] at hbytes
  have hsplit := logBytes_injective hbytes
  rcases List.eq_nil_or_concat pending with rfl | ⟨front, last, rfl⟩
  · rw [List.append_nil] at hsplit
    subst hsplit
    rw [logBytes_append, List.length_append, length_logBytes_singleton] at hoffset
    unfold LogEntry.recordLength at hoffset
    dsimp only at hoffset
    omega
  · rw [List.concat_eq_append, ← List.append_assoc] at hsplit
    obtain rfl : log = passed ++ front := (List.append_inj' hsplit rfl).1
    rw [logBytes_append, List.length_append] at hoffset
    dsimp only at hoffset
    omega

/-- A record with 340 blocks is longer than the buffer of the handle that reads it. -/
theorem longRecord_torn :
    ¬ ∀ w, Run (step (Filling.config 340)) anyStep (init (Filling.config 340)) w →
      w.AppendOnly anyStep (Filling.config 340) := by
  intro hclaim
  obtain ⟨w₁, hrun₁, hfilled⟩ := Filling.filled_reached (N := 340) (by omega) (by omega)
    (Nat.le_refl 340)
  obtain ⟨w₂, log, hrun₂, hfile, hfolder, hplain⟩ := Filling.close_run hfilled (by omega)
  obtain ⟨w₃, h, hrun₃, hread, hactive, hfd, hcontent⟩ := Filling.flush_run hfile hfolder hplain
    (Filling.lastRecord_unfit (Nat.le_refl 340))
  exact not_readsOthersOnce hfd hcontent
    ((hclaim w₃ ((hrun₁.trans hrun₂).trans hrun₃)).reads 1 h hread hactive)

end World

end Gopherwood
