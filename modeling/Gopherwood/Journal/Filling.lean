/-
# A writer that fills its blocks

A run of any length needs states that can be written down. Here a writer of one file adds
one block after the other, and a second handle of the file stays where it was opened. This
module says what the system looks like after `k` blocks, and what the critical sections of
the writer do there; nothing but the writer's own records is in the log.
-/

import Gopherwood.Journal.Numbering
import Gopherwood.Segment.FreeBuckets

namespace Gopherwood

open Library

namespace FileActiveStatus

/-- A handle that stands at the end of the log has nothing to catch up with. -/
theorem catchUp_current {c : Ctx} {fd : Descriptor} {log : List LogEntry}
    (hfd : c.self.fd = some fd) (hat : fd.At c.folder log []) :
    catchUpManifestLogs c = .ok () c := by
  have hrun := catchUp_returns (v := c.self.view) hfd hat (fun _ he => nomatch he) rfl
  have hoffset : (logBytes (log ++ [])).length = fd.offset := by
    rw [List.append_nil]
    exact hat.offset.symm
  have hsame : c.caughtUp ⟨fd.file, (logBytes (log ++ [])).length⟩ [] c.self.view = c := by
    rw [hoffset]
    simp only [Ctx.caughtUp, advanceTo, view, List.append_nil, ← hfd]
  rw [hrun, hsame]

end FileActiveStatus

namespace World

namespace Filling

open FileActiveStatus (newBlock catchUpManifestLogs logRecord acquireFirst acquireFree adjustSize
  startEvict myActiveId onShm)

/-- As many buckets of one byte as the quota allows. -/
def config (N : Nat) : Config := .intact N 1 4 N

def fileId : FileId := makeFileId 7

def taken : ShareMemBucket := .taken true 0 fileId

/-- The bucket of block `i` once the block is part of the file. -/
def extended (i : Nat) : ShareMemBucket := { taken with fileBlockIndex := some i }

/-- The bucket of block `i` once its byte is there. -/
def full (i : Nat) : ShareMemBucket := { extended i with dataSize := 1 }

/-- The bucket table: `k` blocks are full and `p` buckets are preallocated. -/
def filled (k p i : Nat) : ShareMemBucket :=
  if i < k then full i else if i < k + p then taken else .blank

def table (N : Nat) (f : Nat → ShareMemBucket) : List ShareMemBucket := (List.range N).map f

def slot (pid : Nat) : ShareMemActiveStatus :=
  { ShareMemActiveStatus.blank with pid := some pid, fileId := fileId }

def segment (N k : Nat) (f : Nat → ShareMemBucket) : SharedMem where
  header :=
    { numBuckets := N
      numMaxActiveStatus := 4
      nextVictimBucket := 0
      numFreeBuckets := N - k
      numActiveBuckets := k
      numUsedBuckets := 0
      numEvictingBuckets := 0
      numLoadingBuckets := 0
      numFileActiveStatus := 2
      numAdminActiveStatus := 0 }
  buckets := table N f
  activeStatus := [slot 1, slot 2, .blank, .blank]

def block (usageCount : Int) (i : Nat) : Block := ⟨some i, some i, true, .active, usageCount⟩

def newBlocks (k p : Nat) : List Block :=
  (List.range' k p).map fun i => newBlock (some i)

/-- The cache of the writer when its first `k` blocks are active. -/
def cache (N k : Nat) : LRUCache Nat (Option Nat) :=
  ⟨((List.range k).map fun i => (i, some i)).reverse, N⟩

/-- The writer, with `k` blocks of the file and `p` buckets at hand. -/
def writer (N k p : Nat) (log : List LogEntry) (loadMutex : Bool) (pc : Pc) (stream : Stream) :
    FileActiveStatus where
  client := .file 0
  fileId := fileId
  pid := 1
  activeId := some 0
  isWrite := true
  isDelete := false
  isSequence := false
  shouldDestroy := false
  pos := k
  eof := k
  blockArray := (List.range k).map (block 1)
  preAllocatedBuckets := newBlocks k p
  loadingBuckets := []
  lruCache := cache N k
  fd := some ⟨0, (logBytes log).length⟩
  readEntries := []
  loadMutex := loadMutex
  pc := pc
  stream := stream

/-- The other handle of the file, which has read nothing yet. -/
def reader (N : Nat) : FileActiveStatus where
  client := .file 1
  fileId := fileId
  pid := 2
  activeId := some 1
  isWrite := true
  isDelete := false
  isSequence := false
  shouldDestroy := false
  pos := 0
  eof := 0
  blockArray := []
  preAllocatedBuckets := []
  loadingBuckets := []
  lruCache := .empty N
  fd := some ⟨0, 0⟩
  readEntries := []
  loadMutex := false
  pc := .idle
  stream := .none

def folder (log : List LogEntry) : ManifestFolder where
  links f := if f = fileId then some 0 else none
  files := [logBytes log]

def scene (shm : SharedMem) (log : List LogEntry) (history : List CallRecord)
    (first second : FileActiveStatus) : World where
  shm := shm
  folder := folder log
  oss := fun _ _ => none
  space := []
  files := [first, second]
  admins := []
  tasks := []
  history := history

section Table

variable {N : Nat} {f g : Nat → ShareMemBucket}

theorem table_congr (h : ∀ i < N, f i = g i) : table N f = table N g :=
  List.map_congr_left fun i hi => h i (List.mem_range.mp hi)

theorem getElem?_table {i : Nat} (hi : i < N) : (table N f)[i]? = some (f i) := by
  simp [table, hi]

theorem modify_table (i : Nat) (change : ShareMemBucket → ShareMemBucket) :
    (table N f).modify i change = table N (Function.update f i (change (f i))) := by
  apply List.ext_getElem?
  intro j
  by_cases hj : j < N
  · rw [List.getElem?_modify, getElem?_table hj, getElem?_table hj]
    by_cases hij : i = j
    · subst hij
      simp
    · simp [hij, Function.update_of_ne (Ne.symm hij)]
  · simp [table, hj]

end Table

section Scene

variable {N k p : Nat} {log : List LogEntry} {history : List CallRecord} {stream : Stream}
  {second : FileActiveStatus}

theorem filled_zero (N : Nat) : List.replicate N ShareMemBucket.blank = table N (filled 0 0) := by
  symm
  unfold table
  rw [List.eq_replicate_iff]
  simp [filled]

/-- A handle that is being opened. -/
def opened (N n : Nat) (pc : Pc) (fd : Option Descriptor) (activeId : Option Nat) :
    FileActiveStatus :=
  { reader N with
    client := .file n, pid := n + 1, pc := pc, fd := fd, activeId := activeId }

/-- The system while the handles are opened; the handles with a slot are the first ones. -/
def lobby (N : Nat) (slots : List ShareMemActiveStatus) (folder : ManifestFolder)
    (files : List FileActiveStatus) (history : List CallRecord) : World :=
  { init (config N) with
    shm := { segment N 0 (filled 0 0) with
      header := { (segment N 0 (filled 0 0)).header with numFileActiveStatus := slots.length }
      activeStatus := slots ++ List.replicate (4 - slots.length) .blank }
    folder := folder
    files := files
    history := history }

theorem init_eq : init (config N) = lobby N [] .empty [] [] := by
  simp only [init, SharedMem.reset, config, Config.intact, filled_zero, lobby]
  rfl

def joined (n : Nat) : CallRecord := ⟨n, none, .returned 0 []⟩

/-- The handle that will write, once it is open. -/
def first (N : Nat) : FileActiveStatus := opened N 0 .idle (some ⟨0, 0⟩) (some 0)

theorem lobby_run : Run (step (config N)) anyStep (init (config N))
    (scene (segment N 0 (filled 0 0)) [] [joined 0, joined 1] (first N) (reader N)) := by
  rw [init_eq]
  have h₁ : step (config N) (lobby N [] .empty [] []) (.openFile 7 true false .writeFile 1) =
      some (lobby N [] .empty [opened N 0 .openManifest none none] []) := rfl
  have h₂ : step (config N) (lobby N [] .empty [opened N 0 .openManifest none none] [])
      (.file 0) = some (lobby N [] (folder []) [opened N 0 .regist (some ⟨0, 0⟩) none] []) := rfl
  have h₃ : step (config N) (lobby N [] (folder []) [opened N 0 .regist (some ⟨0, 0⟩) none] [])
      (.file 0) = some (lobby N [slot 1] (folder []) [first N] [joined 0]) := rfl
  have h₄ : step (config N) (lobby N [slot 1] (folder []) [first N] [joined 0])
      (.openFile 7 false false .writeFile 2) = some (lobby N [slot 1] (folder [])
        [first N, opened N 1 .openManifest none none] [joined 0]) := rfl
  have h₅ : step (config N) (lobby N [slot 1] (folder [])
      [first N, opened N 1 .openManifest none none] [joined 0]) (.file 1) =
        some (lobby N [slot 1] (folder []) [first N, opened N 1 .regist (some ⟨0, 0⟩) none]
          [joined 0]) := rfl
  have h₆ : step (config N) (lobby N [slot 1] (folder [])
      [first N, opened N 1 .regist (some ⟨0, 0⟩) none] [joined 0]) (.file 1) =
        some (scene (segment N 0 (filled 0 0)) [] [joined 0, joined 1] (first N) (reader N)) := rfl
  have hfirst : Run (step (config N)) anyStep (lobby N [] .empty [] [])
      (lobby N [slot 1] (folder []) [first N] [joined 0]) :=
    .step _ (.step _ (.step _ .start trivial h₁) trivial h₂) trivial h₃
  exact .step _ (.step _ (.step _ hfirst trivial h₄) trivial h₅) trivial h₆

def seeking (N : Nat) : Stream := ⟨.seekSet N, .skip, N, [], [], N, true, 0, 0, .invalid⟩

theorem seek_step (hN : 0 < N) :
    step (config N) (scene (segment N 0 (filled 0 0)) [] [joined 0, joined 1]
      (first N) (reader N)) (.call 0 (.seekSet N)) =
        some (scene (segment N 0 (filled 0 0)) [] [joined 0, joined 1]
          (writer N 0 0 [] false .adjust (seeking N)) (reader N)) := by
  have hleft : N ≠ 0 := by omega
  have hpast : ¬ (0 ≤ (N : Int) ∧ (N : Int) ≤ 0) := by omega
  have heof : (N : Int) > 0 := by omega
  change some (startSeek _ 0 (first N) (.seekSet N) N) = _
  simp only [startSeek, first, opened, reader, Nat.cast_zero, hpast, if_false, heof, if_true,
    Int.sub_zero, Int.toNat_natCast, startStream, FileActiveStatus.streamPc, hleft]
  rfl

theorem newBlocks_eq_nil : newBlocks k p = [] ↔ p = 0 := by
  simp [newBlocks]

theorem adjust_step {shm : SharedMem} :
    step (config N) (scene shm log history (writer N k p log false .adjust stream) second)
      (.file 0) = some (scene shm log history
        (writer N k p log true (if p = 0 then .acquire .extend else .extend)
          { stream with curBlockId := k }) second) := by
  have hcur : k + 1 > ((List.range k).map (block 1)).length := by
    rw [List.length_map, List.length_range]
    exact Nat.lt_succ_self k
  have hadjust : (writer N k p log false .adjust stream).adjustActiveBlock (config N) =
      writer N k p log true (if p = 0 then .acquire .extend else .extend)
        { stream with curBlockId := k } := by
    simp only [FileActiveStatus.adjustActiveBlock, writer, config, Config.intact, Nat.div_one, hcur,
      if_true, FileActiveStatus.enter, newBlocks_eq_nil]
  change some (setFile _ 0 _) = _
  rw [hadjust]
  rfl

theorem mfWrite_folder (e : LogEntry) :
    (folder log).mfWrite ⟨0, (logBytes log).length⟩ e =
      (folder (log ++ [e]), ⟨0, (logBytes (log ++ [e])).length⟩) := by
  have hframe : Library.frame LogEntry.recordLength e = logBytes [e] := by
    rw [logBytes, Library.frames_singleton]
  simp only [ManifestFolder.mfWrite, folder, hframe, List.modify_cons, if_true,
    Library.overwrite_length, logBytes_append, List.length_append]

variable {c : Ctx}

/-- The handle of the context stands at the end of the log. -/
structure Current (log : List LogEntry) (c : Ctx) : Prop where
  folder : c.folder = folder log
  fd : c.self.fd = some ⟨0, (logBytes log).length⟩

theorem Current.catchUp (hc : Current log c) : catchUpManifestLogs c = .ok () c := by
  refine FileActiveStatus.catchUp_current hc.fd ⟨?_, rfl⟩
  rw [hc.folder, List.append_nil]
  rfl

/-- What the writer logs. -/
def entry (type : RecordType) (eof : Nat) (blocks : List Block) : LogEntry :=
  ⟨.file 0, type, eof, blocks.map fun b => { b with usageCount := 0 }⟩

theorem Current.append (hc : Current log c) (hclient : c.self.client = .file 0) (type : RecordType)
    (eof : Nat) (blocks : List Block) :
    logRecord type eof blocks c = .ok ()
      { c with
        folder := Filling.folder (log ++ [entry type eof blocks])
        self := { c.self with
          fd := some ⟨0, (logBytes (log ++ [entry type eof blocks])).length⟩ } } := by
  simp only [logRecord, run_bind, run_get, hc.fd, hc.folder, hclient, run_set]
  rw [← entry, mfWrite_folder]

theorem free_filled (hp : p = 0) (i : Nat) (hi : i < N) :
    (segment N k (filled k p)).isFreeAt i = decide (k ≤ i) := by
  subst hp
  simp only [SharedMem.isFreeAt, segment, getElem?_table hi, Option.any_some, filled, Nat.add_zero]
  by_cases hik : i < k
  · simp only [hik, if_true, Nat.not_le.mpr hik, decide_false]
    rfl
  · simp only [hik, if_false, Nat.not_lt.mp hik, decide_true]
    rfl

theorem filter_free (hk : k ≤ N) :
    (List.range N).filter (segment N k (filled k 0)).isFreeAt = List.range' k (N - k) := by
  have hsplit : List.range N = List.range k ++ List.range' k (N - k) := by
    obtain ⟨m, rfl⟩ := Nat.le.dest hk
    rw [List.range_add, List.range'_eq_map_range, Nat.add_sub_cancel_left]
  rw [hsplit, List.filter_append]
  have hbelow : (List.range k).filter (segment N k (filled k 0)).isFreeAt = [] := by
    rw [List.filter_eq_nil_iff]
    intro i hi
    have hi := List.mem_range.mp hi
    rw [free_filled rfl i (by omega)]
    simp only [decide_eq_true_eq]
    omega
  have habove : (List.range' k (N - k)).filter (segment N k (filled k 0)).isFreeAt =
      List.range' k (N - k) := by
    rw [List.filter_eq_self]
    intro i hi
    obtain ⟨hle, hlt⟩ := List.mem_range'_1.mp hi
    rw [free_filled rfl i (by omega), decide_eq_true hle]
  rw [hbelow, habove, List.nil_append]

/-- The writer takes the free buckets with the lowest ids. -/
theorem acquireFreeBucket_filled (hp : 0 < p) (hkp : k + p ≤ N) (hN : N < 2 ^ 32) :
    SharedMemoryContext.acquireFreeBucket 0 p fileId true (segment N k (filled k 0)) =
      .ok (List.range' k p) (segment N (k + p) (filled k p)) := by
  have hpicked : SharedMemoryContext.picked p (List.range' k (N - k)) = List.range' k p := by
    unfold SharedMemoryContext.picked
    rw [if_pos (by rw [List.length_range']; omega), Int.toNat_natCast,
      List.take_range'_of_length_ge (by omega)]
  have hloop := SharedMemoryContext.acquireLoop_eq 0 fileId true (List.range N) p
    (segment N k (filled k 0)) List.nodup_range fun i hi => by
      refine ⟨filled k 0 i, getElem?_table (List.mem_range.mp hi), fun hfree => ?_⟩
      unfold filled at hfree ⊢
      split at hfree
      · cases hfree
      · next hik =>
          rw [Nat.add_zero, if_neg hik] at hfree
          simp [hik]
  rw [filter_free (by omega), hpicked] at hloop
  have hreplaced : SharedMemoryContext.replace (List.range' k p) (.taken true 0 fileId)
      SharedMemoryContext.countTaken (segment N k (filled k 0)) =
        segment N (k + p) (filled k p) := by
    have hbuckets : (SharedMemoryContext.replace (List.range' k p) (.taken true 0 fileId)
        SharedMemoryContext.countTaken (segment N k (filled k 0))).buckets =
          table N (filled k p) := by
      apply List.ext_getElem?
      intro j
      rw [SharedMemoryContext.replace_getElem?]
      by_cases hj : j < N
      · simp only [segment, getElem?_table hj, Option.map_some, List.mem_range'_1, filled,
          Nat.add_zero]
        by_cases hjk : j < k
        · simp [hjk, Nat.not_le.mpr hjk]
        · simp only [hjk, if_false, Nat.not_lt.mp hjk, true_and]
          split
          · rfl
          · rfl
      · simp [segment, table, hj]
    have hheader : (SharedMemoryContext.replace (List.range' k p) (.taken true 0 fileId)
        SharedMemoryContext.countTaken (segment N k (filled k 0))).header =
          (segment N (k + p) (filled k p)).header := by
      rw [SharedMemoryContext.replace_header, List.length_range',
        SharedMemoryContext.countTaken_iterate p _ (by simp only [segment]; omega)
          (by simp only [segment]; omega)]
      simp only [segment, ShareMemHeader.mk.injEq, true_and, and_true]
      omega
    have hslots := SharedMemoryContext.replace_activeStatus (y := .taken true 0 fileId)
      (k := SharedMemoryContext.countTaken) (List.range' k p) (segment N k (filled k 0))
    generalize SharedMemoryContext.replace (List.range' k p) (.taken true 0 fileId)
      SharedMemoryContext.countTaken (segment N k (filled k 0)) = s at hbuckets hheader hslots
    obtain ⟨header, buckets, slots⟩ := s
    obtain rfl := hbuckets
    obtain rfl := hheader
    obtain rfl := hslots
    rfl
  rw [hreplaced] at hloop
  simp only [SharedMemoryContext.acquireFreeBucket, run_bind, run_get, segment,
    List.length_range', Int.sub_self] at hloop ⊢
  rw [hloop]
  rfl

/-! ## The critical sections of the writer -/

/-- The context of the writer's critical sections. -/
def writing (shm : SharedMem) (log : List LogEntry) (h : FileActiveStatus) : Ctx :=
  ⟨shm, folder log, fun _ _ => none, h⟩

def batch (N k : Nat) : Nat := min (N - k) preAllocateBucketNum

def acquired (N k : Nat) : LogEntry := entry .acquireNewBlock 0 (newBlocks k (batch N k))

theorem policy_filled (hk : k < N) (hN : N < 2 ^ 32) :
    FileActiveStatus.acquirePolicy N k (N - k) 0 k = .ok (0, batch N k) := by
  have havailable : (N - k + 0) % 2 ^ 32 = N - k := Nat.mod_eq_of_lt (by omega)
  have hbatch : min (N - k) (min (N - k) preAllocateBucketNum) = batch N k := by
    unfold batch
    omega
  have hnone : k + batch N k - N = 0 := by
    unfold batch
    omega
  unfold FileActiveStatus.acquirePolicy
  simp only [havailable, hk, if_true, Nat.sub_pos_of_lt hk, hbatch, hnone]

variable {shm : SharedMem} {mutex : Bool} {pc : Pc} {n : Nat}

theorem catchUp_writer :
    catchUpManifestLogs (writing shm log (writer N k p log mutex pc stream)) =
      .ok () (writing shm log (writer N k p log mutex pc stream)) :=
  (⟨rfl, rfl⟩ : Current log (writing shm log (writer N k p log mutex pc stream))).catchUp

theorem logRecord_writer (type : RecordType) (eof : Nat) (blocks : List Block) :
    logRecord type eof blocks (writing shm log (writer N k p log mutex pc stream)) =
      .ok () (writing shm (log ++ [entry type eof blocks])
        (writer N k p (log ++ [entry type eof blocks]) mutex pc stream)) :=
  (⟨rfl, rfl⟩ : Current log (writing shm log (writer N k p log mutex pc stream))).append
    rfl type eof blocks

theorem size_writer : (writer N k p log mutex pc stream).lruCache.size = k := by
  simp [writer, cache, LRUCache.size]

theorem adjustSize_writer (hk : k ≤ N) :
    adjustSize N (writing shm log (writer N k p log mutex pc stream)) =
      .ok () (writing shm log (writer N k p log mutex pc stream)) := by
  have hcache : (writer N k p log mutex pc stream).lruCache.adjustSize N =
      ((writer N k p log mutex pc stream).lruCache, []) := by
    have hlength : ((List.range k).map fun i => (i, some i)).reverse.length = k := by simp
    have hfits : k - N = 0 := by omega
    simp only [writer, cache, LRUCache.adjustSize, LRUCache.removeNumOfKeys, LRUCache.size,
      hlength, hfits,
      Nat.sub_zero, List.take_of_length_le (Nat.le_of_eq hlength),
      List.drop_of_length_le (Nat.le_of_eq hlength), List.map_nil, List.reverse_nil]
  simp only [adjustSize, FileActiveStatus.modifySelf, writing, run_bind, run_get,
    run_modify, hcache, ne_eq, not_true_eq_false, if_false, run_pure]

theorem acquireFree_writer (hp : 0 < p) (hkp : k + p ≤ N) (hN : N < 2 ^ 32) :
    acquireFree p
        (writing (segment N k (filled k 0)) log (writer N k 0 log mutex pc stream)) =
      .ok (newBlocks k p)
        (writing (segment N (k + p) (filled k p)) log (writer N k p log mutex pc stream)) := by
  have hids : FileActiveStatus.onShm
      (SharedMemoryContext.acquireFreeBucket 0 p fileId true)
        (writing (segment N k (filled k 0)) log (writer N k 0 log mutex pc stream)) =
      .ok (List.range' k p)
        (writing (segment N (k + p) (filled k p)) log (writer N k 0 log mutex pc stream)) :=
    FileActiveStatus.run_onShm_ok (acquireFreeBucket_filled hp hkp hN)
  unfold acquireFree
  refine (run_bind_ok run_get).trans ((run_bind_ok rfl).trans ((run_bind_ok hids).trans ?_))
  rfl

/-- The writer has no bucket left, and acquires the next ones. -/
theorem acquireFirst_writer (hk : k < N) (hN : N < 2 ^ 32) :
    acquireFirst (config N) (writing (segment N k (filled k 0)) log
        (writer N k 0 log mutex pc stream)) =
      .ok ⟨0, false, .invalid⟩ (writing (segment N (k + batch N k) (filled k (batch N k)))
        (log ++ [acquired N k])
        (writer N k (batch N k) (log ++ [acquired N k]) mutex pc stream)) := by
  have hbatch : 0 < batch N k := by
    unfold batch preAllocateBucketNum
    omega
  have hle : k + batch N k ≤ N := by
    unfold batch
    omega
  have hacquired : (writer N k 0 log mutex pc stream).numAcquiredBuckets = k := by
    simp only [FileActiveStatus.numAcquiredBuckets, size_writer]
    rfl
  let c := writing (segment N k (filled k 0)) log (writer N k 0 log mutex pc stream)
  have hquota : (if c.self.isSequence = true then min (config N).curQuotaSize preAllocateBucketNum
      else (config N).curQuotaSize) = N := rfl
  have hpolicy : FileActiveStatus.acquirePolicy N c.self.numAcquiredBuckets
      c.shm.header.numFreeBuckets c.shm.header.numUsedBuckets c.self.lruCache.size =
        .ok (0, batch N k) := by
    change FileActiveStatus.acquirePolicy N (writer N k 0 log mutex pc stream).numAcquiredBuckets
      (N - k) 0 (writer N k 0 log mutex pc stream).lruCache.size = _
    rw [hacquired, size_writer]
    exact policy_filled hk hN
  have hmin : min (batch N k) (writing (segment N k (filled k 0)) log
      (writer N k 0 log mutex pc stream)).shm.header.numFreeBuckets = batch N k := by
    change min (batch N k) (N - k) = batch N k
    unfold batch
    omega
  have hevict : startEvict ⟨batch N k - batch N k, false, .invalid⟩ =
      (pure ⟨0, false, .invalid⟩ : StatusM EvictLoop) := by
    rw [Nat.sub_self]
    rfl
  unfold acquireFirst
  refine (run_bind_ok catchUp_writer).trans ((run_bind_ok run_get).trans ?_)
  rw [hquota, hpolicy]
  simp only [gt_iff_lt, Nat.lt_irrefl, if_false]
  rw [hmin, hevict]
  exact (run_bind_ok (adjustSize_writer (Nat.le_of_lt hk))).trans
    ((run_bind_ok (acquireFree_writer hbatch hle hN)).trans
      (run_bind_ok (logRecord_writer .acquireNewBlock 0 (newBlocks k (batch N k)))))

end Scene

end Filling

end World

end Gopherwood
