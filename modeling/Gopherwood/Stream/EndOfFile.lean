/-
# The end of file of the only open handle

A handle takes an end of file from the log only out of a record that another handle of
the file has written. While it is the only open one, none is pending for it: admins log
evictions there and nothing else. So its end of file never falls, and its position
stays within the file, seeks beyond the end included.
-/

import Gopherwood.Coherence.Growth
import Gopherwood.File.Exceptions
import Gopherwood.File.Opening

namespace Gopherwood

open Library (Keeps Spec Run)

/-- No record that begins at the offset or behind it sets the end of file. -/
def LogFile.Silent (bytes : LogFile) (offset : Nat) : Prop :=
  ∀ e : LogEntry, (e, 0) ∈ bytes.drop offset → e.record.type.setsEof = false

namespace LogFile.Silent

variable {bytes : LogFile} {offset : Nat}

theorem mono (h : bytes.Silent offset) {offset' : Nat} (hle : offset ≤ offset') :
    bytes.Silent offset' := by
  intro e he
  refine h e (List.mem_of_mem_drop (i := offset' - offset) ?_)
  rw [List.drop_drop, Nat.add_sub_cancel' hle]
  exact he

theorem of_drop_nil (h : bytes.drop offset = []) : bytes.Silent offset := by
  intro e he
  rw [h] at he
  cases he

/-- A record is written at the offset, which moves behind it. -/
theorem overwrite (h : bytes.Silent offset) (data : LogFile) :
    LogFile.Silent (Library.overwrite LogFile.hole bytes offset data) (offset + data.length) := by
  intro e he
  rw [Library.drop_overwrite] at he
  exact h.mono (Nat.le_add_right _ _) e he

/-- A record that does not set the end of file is appended. -/
theorem append (h : bytes.Silent offset) {entry : LogEntry}
    (hentry : entry.record.type.setsEof = false) :
    LogFile.Silent (bytes ++ Library.frame LogEntry.recordLength entry) offset := by
  intro e he
  rw [List.drop_append, List.mem_append] at he
  rcases he with he | he
  · exact h e he
  · obtain ⟨k, -, heq⟩ := List.mem_map.mp (List.mem_of_mem_drop he)
    obtain rfl : entry = e := congrArg Prod.fst heq
    exact hentry

end LogFile.Silent

/-- What is fetched begins at the offset, which never moves back. -/
theorem fetchOneLogRecord_moves (bytes : LogFile) (fd : Descriptor) :
    fd.offset ≤ (fetchOneLogRecord bytes fd).2.offset ∧
      (∀ entry, (fetchOneLogRecord bytes fd).1 = .ok (some entry) →
        (entry, 0) ∈ bytes.drop fd.offset ∧ fd.offset < (fetchOneLogRecord bytes fd).2.offset) ∧
      ((fetchOneLogRecord bytes fd).1 = .ok none →
        bytes.drop (fetchOneLogRecord bytes fd).2.offset = []) := by
  unfold fetchOneLogRecord
  cases hfetch : Library.fetch LogEntry.recordLength bytes fd.offset with
  | endOfFile =>
      refine ⟨Nat.le_refl _, ?_, fun _ => Library.drop_of_fetch_end hfetch⟩
      intro entry h
      cases h
  | torn =>
      have hlt := Library.lt_of_fetch_torn hfetch
      refine ⟨?_, (by intro entry h; cases h), (by intro h; cases h)⟩
      change fd.offset ≤ min (fd.offset + 10) bytes.length
      omega
  | record found =>
      have hmem := Library.mem_of_fetch LogEntry.recordLength_pos hfetch
      have hpos := found.recordLength_pos
      dsimp only
      split
      · exact ⟨Nat.le_add_right _ _, (by intro entry h; cases h), (by intro h; cases h)⟩
      · refine ⟨Nat.le_add_right _ _, ?_, (by intro h; cases h)⟩
        intro entry h
        cases h
        exact ⟨hmem, Nat.lt_add_of_pos_right hpos⟩

/-- The position is within the file, and no end of file is pending for the handle. -/
structure FileActiveStatus.Inside (h : FileActiveStatus) (d : ManifestFolder) : Prop where
  pos : h.pos ≤ h.eof
  silent : ∀ fd, h.fd = some fd → (d.content fd.file).Silent fd.offset

/-- While the handle is registered, it is inside its file. -/
def FileActiveStatus.InFile (h : FileActiveStatus) (d : ManifestFolder) : Prop :=
  h.activeId ≠ none → h.Inside d

def Ctx.Inside (c : Ctx) : Prop := c.self.InFile c.folder

namespace ManifestFolder

variable {d : ManifestFolder} {file offset : Nat}

theorem content_mfWrite_self (fd : Descriptor) (entry : LogEntry) :
    (d.mfWrite fd entry).1.content fd.file = Library.overwrite LogFile.hole (d.content fd.file)
      fd.offset (Library.frame LogEntry.recordLength entry) ∨
    (d.mfWrite fd entry).1.content fd.file = [] := by
  simp only [mfWrite, content, List.getD_eq_getElem?_getD, List.getElem?_modify, if_true]
  cases d.files[fd.file]? with
  | none => exact Or.inr rfl
  | some bytes => exact Or.inl rfl

/-- A record is written through the descriptor. -/
theorem silent_mfWrite {fd : Descriptor} (h : (d.content fd.file).Silent fd.offset)
    (entry : LogEntry) :
    ((d.mfWrite fd entry).1.content fd.file).Silent (d.mfWrite fd entry).2.offset := by
  rcases d.content_mfWrite_self fd entry with heq | heq
  · rw [heq]
    exact h.overwrite _
  · rw [heq]
    exact .of_drop_nil List.drop_nil

/-- The record of an eviction is appended to a log. -/
theorem silent_append {entry : LogEntry} (h : (d.content file).Silent offset) (k : Nat)
    (hentry : entry.record.type.setsEof = false) :
    ((d.mfWrite ⟨k, (d.content k).length⟩ entry).1.content file).Silent offset := by
  by_cases hk : file = k
  · subst hk
    rcases d.content_mfWrite_self ⟨file, (d.content file).length⟩ entry with heq | heq
    · rw [heq, Library.overwrite_length]
      exact h.append hentry
    · rw [heq]
      exact .of_drop_nil List.drop_nil
  · rw [content_mfWrite_other _ _ hk]
    exact h

end ManifestFolder

namespace FileActiveStatus

variable {h h' : FileActiveStatus} {cfg : Config} {c c' : Ctx}

theorem Inside.of_same {d d' : ManifestFolder} (hh : h.Inside d) (hpos : h'.pos = h.pos)
    (heof : h.eof ≤ h'.eof) (hfd : h'.fd = h.fd)
    (hfolder : ∀ file offset, (d.content file).Silent offset → (d'.content file).Silent offset) :
    h'.Inside d' :=
  ⟨hpos ▸ Nat.le_trans hh.pos heof, fun fd hfd' => hfolder _ _ (hh.silent fd (hfd ▸ hfd'))⟩

/-- Work of the thread next to a critical section. -/
theorem InFile.of_same {d : ManifestFolder} (hh : h.InFile d) (hid : h'.activeId = h.activeId)
    (hpos : h'.pos = h.pos) (heof : h'.eof = h.eof) (hfd : h'.fd = h.fd) : h'.InFile d :=
  fun hactive => (hh (hid ▸ hactive)).of_same hpos (Nat.le_of_eq heof.symm) hfd fun _ _ => id

/-! ## Critical sections -/

/-- An operation on the segment keeps what does not depend on the segment. -/
theorem onShm_elsewhere {α : Type} {inv : Ctx → Prop}
    (hinv : ∀ c shm, inv c → inv { c with shm := shm }) (op : ShmM α) : Keeps inv (onShm op) := by
  apply Spec.zoom
  intro c hc s _
  cases op s with
  | ok a s' => exact hinv c s' hc
  | error e s' => exact hinv c s' hc

theorem onShm_inside {α : Type} (op : ShmM α) : Keeps Ctx.Inside (onShm op) :=
  onShm_elsewhere (fun _ _ hc => hc) op

theorem modifySelf_inside {f : FileActiveStatus → FileActiveStatus}
    (hf : ∀ h, (f h).activeId = h.activeId ∧ (f h).pos = h.pos ∧ h.eof ≤ (f h).eof ∧
      (f h).fd = h.fd) : Keeps Ctx.Inside (modifySelf f) := by
  refine Keeps.modify fun c hc hactive => ?_
  obtain ⟨hid, hpos, heof, hfd⟩ := hf c.self
  exact (hc (hid ▸ hactive)).of_same hpos heof hfd fun _ _ => id

/-- An update that has nothing to do with positions and the log. -/
theorem modifyLists_inside {f : FileActiveStatus → FileActiveStatus}
    (hf : ∀ h, (f h).activeId = h.activeId ∧ (f h).pos = h.pos ∧ (f h).eof = h.eof ∧
      (f h).fd = h.fd) : Keeps Ctx.Inside (modifySelf f) :=
  modifySelf_inside fun h => ⟨(hf h).1, (hf h).2.1, Nat.le_of_eq (hf h).2.2.1.symm, (hf h).2.2.2⟩

theorem modifyOss_inside {f : Ctx → ObjectStore} :
    Keeps Ctx.Inside (modify fun c => { c with oss := f c } : StatusM Unit) :=
  Keeps.modify fun _ hc => hc

theorem myActiveId_inside : Keeps Ctx.Inside myActiveId := by
  refine Keeps.bind Keeps.get fun c => ?_
  cases c.self.activeId with
  | some a => exact Keeps.pure
  | none => exact Keeps.throw

/-- Reading an entry changes nothing. -/
theorem blockAt_reads {inv : Ctx → Prop} (i : Nat) : Keeps inv (blockAt i) := by
  refine Keeps.bind Keeps.get fun c => ?_
  cases c.self.blockArray[i]? with
  | some block => exact Keeps.pure
  | none => exact Keeps.throw

theorem logRecord_inside (type : RecordType) (eof : Nat) (blocks : List Block) :
    Keeps Ctx.Inside (logRecord type eof blocks) := by
  intro c hc
  cases hfd : c.self.fd with
  | none =>
      simp only [logRecord, Library.run_bind, Library.run_get, hfd, Library.run_throw]
      exact hc
  | some fd =>
      simp only [logRecord, Library.run_bind, Library.run_get, hfd, Library.run_set]
      refine fun hactive => ⟨(hc hactive).pos, fun fd' hfd' => ?_⟩
      obtain rfl := Option.some.inj hfd'
      exact ManifestFolder.silent_mfWrite ((hc hactive).silent fd hfd) _

theorem logFullStatus_inside (blocks : List Block) (eof : Nat) :
    Keeps Ctx.Inside (logFullStatus blocks eof) := by
  refine Spec.get_bind fun c hc => ?_
  cases hfd : c.self.fd with
  | none => exact Spec.throw fun c' hc' => hc' ▸ hc
  | some fd =>
      refine Spec.bind ?_ fun _ => logRecord_inside _ _ _
      rintro c' rfl
      refine fun hactive => ⟨(hc hactive).pos, fun fd' hfd' => ?_⟩
      obtain rfl := Option.some.inj hfd'
      have hempty := c'.folder.content_mfTruncate fd
      refine .of_drop_nil ?_
      change ((c'.folder.mfTruncate fd).1.content fd.file).drop 0 = []
      rw [hempty]
      rfl

/-- A round of the replay. -/
theorem inside_fetched (hc : c.Inside) {fd fd' : Descriptor} (hfd : c.self.fd = some fd)
    {fetched : Except GwError (Option LogEntry)}
    (hfetch : fetchOneLogRecord (c.folder.content fd.file) fd = (fetched, fd'))
    {self : FileActiveStatus} (hid : self.activeId = c.self.activeId) (hpos : self.pos = c.self.pos)
    (heof : self.eof = c.self.eof) (hself : self.fd = some fd') :
    Ctx.Inside { c with self := self } := by
  intro hactive
  have hin := hc (hid ▸ hactive)
  have hmoves := (fetchOneLogRecord_moves (c.folder.content fd.file) fd).1
  have hfile := fetchOneLogRecord_file (c.folder.content fd.file) fd
  rw [hfetch] at hmoves hfile
  refine ⟨by rw [hpos, heof]; exact hin.pos, fun fd'' hfd'' => ?_⟩
  obtain rfl : fd' = fd'' := Option.some.inj (hself.symm.trans hfd'')
  change (c.folder.content fd'.file).Silent fd'.offset
  rw [show fd'.file = fd.file from hfile]
  exact (hin.silent fd hfd).mono hmoves

theorem catchUp_loop_inside (fuel : Nat) : Keeps Ctx.Inside (catchUpManifestLogs.loop fuel) := by
  induction fuel with
  | zero => exact Keeps.pure
  | succ fuel ih =>
      intro c hc
      cases hfd : c.self.fd with
      | none =>
          simp only [catchUpManifestLogs.loop, Library.run_bind, Library.run_get, hfd,
            Library.run_throw]
          exact hc
      | some fd =>
          have hread := (fetchOneLogRecord_moves (c.folder.content fd.file) fd).2.1
          cases hfetch : fetchOneLogRecord (c.folder.content fd.file) fd with
          | mk fetched fd' =>
              rw [hfetch] at hread
              simp only [catchUpManifestLogs.loop, modifySelf, Library.run_bind, Library.run_get,
                hfd, hfetch, Library.run_modify]
              cases fetched with
              | error e => exact inside_fetched hc hfd hfetch rfl rfl rfl rfl
              | ok found =>
                  cases found with
                  | none => exact inside_fetched hc hfd hfetch rfl rfl rfl rfl
                  | some entry =>
                      simp only [Library.run_bind, Library.run_modify]
                      cases hreplay : replayRecord c.self.view entry.record with
                      | error e => exact inside_fetched hc hfd hfetch rfl rfl rfl rfl
                      | ok v =>
                          simp only [Library.run_bind, Library.run_modify]
                          refine ih _ fun hactive => ?_
                          -- the record does not set the end of file
                          have hin := hc hactive
                          have hquiet := hin.silent fd hfd entry (hread entry rfl).1
                          have heof := (replayRecord_eof hreplay).1
                          rw [hquiet] at heof
                          exact inside_fetched hc hfd hfetch rfl rfl heof rfl hactive

theorem catchUp_inside : Keeps Ctx.Inside catchUpManifestLogs := by
  refine Keeps.bind Keeps.get fun c => ?_
  cases c.self.fd with
  | none => exact Keeps.throw
  | some fd => exact catchUp_loop_inside _

theorem getSharedMemEof_inside (cfg : Config) : Keeps Ctx.Inside (getSharedMemEof cfg) := by
  refine Spec.get_bind fun c hc => ?_
  -- the end of file compared is that of the handle
  let inv : Ctx → Prop := fun c' => c'.Inside ∧ c'.self.eof = c.self.eof
  have hrest : Spec inv (do
      let last ← blockAt (c.self.blockArray.length - 1)
      let lastDataSize ← onShm (SharedMemoryContext.getBucketDataSize cfg last.bucketId
        c.self.fileId (c.self.blockArray.length - 1))
      let shareMemEof := (c.self.blockArray.length - 1) * cfg.localBucketSize + lastDataSize
      if shareMemEof > c.self.eof then
        modifySelf fun h => { h with eof := shareMemEof }) (fun _ => Ctx.Inside)
      fun _ => Ctx.Inside := by
    have hblock : Keeps inv (blockAt (c.self.blockArray.length - 1)) := blockAt_reads _
    have hsize : ∀ last : Block, Keeps inv (onShm (SharedMemoryContext.getBucketDataSize cfg
        last.bucketId c.self.fileId (c.self.blockArray.length - 1))) :=
      fun _ => onShm_elsewhere (fun _ _ => id) _
    refine Spec.bind (hblock.conseq (fun _ => id) (fun _ _ => id) fun _ _ hc' => hc'.1) fun last =>
      Spec.bind ((hsize last).conseq (fun _ => id) (fun _ _ => id) fun _ _ hc' => hc'.1)
        fun size => ?_
    refine Spec.ite (fun hlarger => Spec.modify fun c' hc' hactive => ?_)
      fun _ => Spec.pure fun _ hc' => hc'.1
    refine (hc'.1 hactive).of_same rfl ?_ rfl fun _ _ => id
    rw [hc'.2]
    exact Nat.le_of_lt hlarger
  exact hrest.weaken_pre fun c' hc' => hc' ▸ ⟨hc, rfl⟩

theorem flushEof_inside (cfg : Config) : Keeps Ctx.Inside (flushEof cfg) :=
  Keeps.bind (getSharedMemEof_inside cfg) fun _ => Keeps.bind Keeps.get fun _ =>
  logRecord_inside _ _ _

theorem updateInactivated_inside (cfg : Config) (blocks : List Block) :
    Keeps Ctx.Inside (updateInactivated cfg blocks) := by
  induction blocks with
  | nil => exact Keeps.pure
  | cons b rest ih =>
      unfold updateInactivated
      cases b.blockId with
      | none => exact Keeps.throw
      | some i =>
          refine Keeps.bind (blockAt_reads i) fun _ =>
            Keeps.bind (modifyLists_inside fun _ => ⟨rfl, rfl, rfl, rfl⟩) fun _ =>
              Keeps.bind Keeps.get fun c => ?_
          exact Keeps.ite (Keeps.bind (flushEof_inside cfg) fun _ => ih) ih

theorem blocksOf_inside (keys : List Nat) : Keeps Ctx.Inside (blocksOf keys) := by
  induction keys with
  | nil => exact Keeps.pure
  | cons key rest ih =>
      exact Keeps.bind (blockAt_reads key) fun _ => Keeps.bind ih fun _ => Keeps.pure

theorem removeNumOfKeys_inside (num : Nat) : Keeps Ctx.Inside (removeNumOfKeys num) :=
  Keeps.bind Keeps.get fun _ =>
    Keeps.bind (modifyLists_inside fun _ => ⟨rfl, rfl, rfl, rfl⟩) fun _ => Keeps.pure

theorem inactivateOldest_inside (cfg : Config) (num : Nat) :
    Keeps Ctx.Inside (inactivateOldest cfg num) := by
  refine Keeps.bind (removeNumOfKeys_inside num) fun keys => Keeps.bind (blocksOf_inside keys)
    fun blocks => Keeps.bind Keeps.get fun c => Keeps.bind myActiveId_inside fun a => ?_
  exact Keeps.bind (onShm_inside _) fun turned => Keeps.bind (updateInactivated_inside cfg turned)
    fun _ => logRecord_inside _ _ _

theorem acquireFree_inside (num : Nat) : Keeps Ctx.Inside (acquireFree num) := by
  refine Keeps.bind Keeps.get fun c => Keeps.bind myActiveId_inside fun a =>
    Keeps.bind (onShm_inside _) fun ids => ?_
  exact Keeps.bind (modifyLists_inside fun _ => ⟨rfl, rfl, rfl, rfl⟩) fun _ => Keeps.pure

theorem startEvict_inside (loop : EvictLoop) : Keeps Ctx.Inside (startEvict loop) := by
  refine Keeps.ite ?_ Keeps.pure
  exact Keeps.bind myActiveId_inside fun a => Keeps.bind (onShm_inside _) fun _ => Keeps.pure

theorem adjustSize_inside (newQuota : Nat) : Keeps Ctx.Inside (adjustSize newQuota) := by
  refine Keeps.bind Keeps.get fun c =>
    Keeps.bind (modifyLists_inside fun _ => ⟨rfl, rfl, rfl, rfl⟩) fun _ => ?_
  exact Keeps.ite Keeps.throw Keeps.pure

theorem acquireFirst_inside (cfg : Config) : Keeps Ctx.Inside (acquireFirst cfg) := by
  refine Keeps.bind catchUp_inside fun _ => Keeps.bind Keeps.get fun c => ?_
  dsimp only
  cases acquirePolicy (if c.self.isSequence then min cfg.curQuotaSize preAllocateBucketNum
      else cfg.curQuotaSize) c.self.numAcquiredBuckets c.shm.header.numFreeBuckets
      c.shm.header.numUsedBuckets c.self.lruCache.size with
  | error e => exact Keeps.throw
  | ok policy =>
      have hrest := fun num => Keeps.bind (adjustSize_inside num) fun _ =>
        Keeps.bind (acquireFree_inside (min policy.2 c.shm.header.numFreeBuckets)) fun blocks =>
          Keeps.bind (logRecord_inside .acquireNewBlock 0 blocks) fun _ =>
            startEvict_inside ⟨policy.2 - min policy.2 c.shm.header.numFreeBuckets, false, .invalid⟩
      exact Keeps.ite (Keeps.bind (inactivateOldest_inside cfg policy.1) fun _ => hrest _) (hrest _)

theorem logEvictBlock_inside (info : BlockInfo) : Keeps Ctx.Inside (logEvictBlock info) := by
  refine Spec.get_bind fun c hc => Spec.ite (fun _ => ?_) fun _ => ?_
  · refine Spec.weaken_pre ?_ fun c' hc' => hc' ▸ hc
    refine Keeps.bind (logRecord_inside _ _ _) fun _ => ?_
    cases info.blockId with
    | none => exact Keeps.throw
    | some i =>
        exact Keeps.bind (blockAt_reads i) fun _ =>
          modifyLists_inside fun _ => ⟨rfl, rfl, rfl, rfl⟩
  · cases c.folder.links info.fileId with
    | none => exact Spec.throw fun c' hc' => hc' ▸ hc
    | some file =>
        intro c' hc' hactive
        refine (hc hactive).of_same rfl (Nat.le_refl _) rfl fun k offset hsilent => ?_
        exact ManifestFolder.silent_append hsilent file rfl

theorem finishEvict_inside (loop : EvictLoop) : Keeps Ctx.Inside (finishEvict loop) := by
  refine Keeps.bind Keeps.get fun c => Keeps.bind myActiveId_inside fun a =>
    Keeps.bind (onShm_inside _) fun rc => ?_
  have hgained : ∀ rc : SharedMemoryContext.EvictResult, Keeps Ctx.Inside (do
      let gained := newBlock loop.evictBlockInfo.bucketId
      modifySelf fun h => { h with preAllocatedBuckets := h.preAllocatedBuckets ++ [gained] }
      if rc = .finished then
        logEvictBlock loop.evictBlockInfo
      else
        modify fun c => { c with
          oss := c.oss.delete loop.evictBlockInfo.fileId loop.evictBlockInfo.blockId }
      return ({ loop with evicting := false, numToAcquire := dec32 loop.numToAcquire },
        [gained])) := by
    intro rc
    refine Keeps.bind (modifyLists_inside fun _ => ⟨rfl, rfl, rfl, rfl⟩) fun _ => Keeps.ite ?_ ?_
    · exact Keeps.bind (logEvictBlock_inside _) fun _ => Keeps.pure
    · exact Keeps.bind modifyOss_inside fun _ => Keeps.pure
  cases rc with
  | stolen => exact Keeps.bind modifyOss_inside fun _ => Keeps.pure
  | finished => exact hgained .finished
  | deleted => exact hgained .deleted

theorem refill_inside (loop : EvictLoop) (gained : List Block) :
    Keeps Ctx.Inside (refill loop gained) := by
  refine Keeps.bind Keeps.get fun c => ?_
  have hlog : ∀ (blocks : List Block) (next : EvictLoop), Keeps Ctx.Inside (do
      logAcquireNewBlock (gained ++ blocks)
      startEvict next) :=
    fun blocks next => Keeps.bind (logRecord_inside _ _ _) fun _ => startEvict_inside next
  exact Keeps.ite (Keeps.bind (acquireFree_inside _) fun _ => hlog _ _) (hlog _ _)

theorem acquireNext_inside (loop : EvictLoop) : Keeps Ctx.Inside (acquireNext loop) := by
  rw [acquireNext_eq]
  refine Keeps.bind catchUp_inside fun _ => ?_
  exact Keeps.bind (Keeps.ite (finishEvict_inside loop) Keeps.pure) fun found =>
    refill_inside found.1 found.2

theorem putActive_inside (blockId bucketId : Option Nat) :
    Keeps Ctx.Inside (putActive blockId bucketId) := by
  cases blockId with
  | none => exact Keeps.throw
  | some i =>
      change Keeps Ctx.Inside (modifySelf fun h => { h with
        lruCache := (h.lruCache.put i bucketId).1 })
      exact modifyLists_inside fun _ => ⟨rfl, rfl, rfl, rfl⟩

theorem extendOneBlock_inside : Keeps Ctx.Inside extendOneBlock := by
  refine Keeps.bind Keeps.get fun c => ?_
  dsimp only
  cases c.self.preAllocatedBuckets with
  | nil => exact Keeps.throw
  | cons front rest =>
      refine Keeps.bind (modifyLists_inside fun _ => ⟨rfl, rfl, rfl, rfl⟩) fun _ =>
        Keeps.bind (putActive_inside _ _) fun _ => Keeps.bind catchUp_inside fun _ =>
          Keeps.bind (onShm_inside _) fun _ => ?_
      exact Keeps.bind Keeps.get fun _ => logRecord_inside _ _ _

theorem makeRoom_inside (cfg : Config) : Keeps Ctx.Inside (makeRoom cfg) := by
  refine Keeps.bind Keeps.get fun c => Keeps.ite (Keeps.ite ?_ ?_)
    (Keeps.ite Keeps.throw Keeps.pure)
  · exact inactivateOldest_inside cfg 1
  · cases c.self.preAllocatedBuckets.getLast? with
    | none => exact Keeps.throw
    | some block =>
        exact Keeps.bind (modifyLists_inside fun _ => ⟨rfl, rfl, rfl, rfl⟩) fun _ =>
          Keeps.bind (onShm_inside _) fun _ => logRecord_inside _ _ _

theorem startLoading_inside (cfg : Config) (blockId : Nat) :
    Keeps Ctx.Inside (startLoading cfg blockId) := by
  refine Keeps.bind Keeps.get fun c => ?_
  dsimp only
  cases c.self.preAllocatedBuckets with
  | nil => exact Keeps.throw
  | cons front rest =>
      refine Keeps.bind (onShm_inside _) fun b => Keeps.bind myActiveId_inside fun a =>
        Keeps.bind (onShm_inside _) fun marked => Keeps.ite ?_ Keeps.pure
      exact Keeps.bind (modifyLists_inside fun _ => ⟨rfl, rfl, rfl, rfl⟩) fun _ => Keeps.pure

theorem activateBlock_inside (cfg : Config) (blockId : Nat) :
    Keeps Ctx.Inside (activateBlock cfg blockId) := by
  refine Keeps.bind catchUp_inside fun _ => Keeps.bind (blockAt_reads blockId) fun block => ?_
  refine Keeps.ite (startLoading_inside cfg blockId) (Keeps.ite ?_ Keeps.throw)
  refine Keeps.bind (makeRoom_inside cfg) fun _ => Keeps.bind Keeps.get fun c =>
    Keeps.bind (blockAt_reads blockId) fun block => Keeps.bind myActiveId_inside fun a =>
      Keeps.bind (onShm_inside _) fun byMe => ?_
  have hput : Keeps Ctx.Inside (do
      putActive block.blockId block.bucketId
      return ActivateResult.activated) :=
    Keeps.bind (putActive_inside _ _) fun _ => Keeps.pure
  exact Keeps.ite (Keeps.bind (logRecord_inside _ _ _) fun _ => hput) hput

theorem loadSucceeded_inside (cfg : Config) (info : BlockInfo) (blockSize : Nat) :
    Keeps Ctx.Inside (loadSucceeded cfg info blockSize) := by
  refine Keeps.bind Keeps.get fun c => eachLoading_keeps (fun i theBlock => ?_) _ _
  refine Keeps.bind Keeps.get fun c => Keeps.bind myActiveId_inside fun a =>
    Keeps.bind (onShm_inside _) fun b => Keeps.bind (onShm_inside _) fun _ =>
      Keeps.bind (onShm_inside _) fun _ =>
        Keeps.bind (modifyLists_inside fun _ => ⟨rfl, rfl, rfl, rfl⟩) fun _ =>
          Keeps.bind (putActive_inside _ _) fun _ => ?_
  cases theBlock.blockId with
  | none => exact Keeps.bind Keeps.throw fun _ => logRecord_inside _ _ _
  | some j =>
      exact Keeps.bind (blockAt_reads j) fun _ =>
        Keeps.bind (modifyLists_inside fun _ => ⟨rfl, rfl, rfl, rfl⟩) fun _ =>
          logRecord_inside _ _ _

theorem loadFailed_inside (info : BlockInfo) : Keeps Ctx.Inside (loadFailed info) := by
  refine Keeps.bind Keeps.get fun c => eachLoading_keeps (fun i theBlock => ?_) _ _
  exact Keeps.bind myActiveId_inside fun a => Keeps.bind (onShm_inside _) fun b =>
    Keeps.bind (onShm_inside _) fun _ => modifyLists_inside fun _ => ⟨rfl, rfl, rfl, rfl⟩

theorem afterEvictRound_inside (caller : Caller) (loop : EvictLoop) :
    Keeps Ctx.Inside (afterEvictRound caller loop) := by
  refine Keeps.ite (modifyLists_inside fun _ => ⟨rfl, rfl, rfl, rfl⟩) ?_
  refine Keeps.bind Keeps.get fun c => Keeps.ite Keeps.throw ?_
  exact modifyLists_inside fun _ => ⟨rfl, rfl, rfl, rfl⟩

theorem getCurBlockInfo_inside (cfg : Config) : Keeps Ctx.Inside (getCurBlockInfo cfg) :=
  Keeps.bind Keeps.get fun _ => Keeps.bind (blockAt_reads _) fun _ =>
    modifyLists_inside fun _ => ⟨rfl, rfl, rfl, rfl⟩

/-! ## Positions, flush and close -/

theorem updateCurBlockSize_inside (cfg : Config) : Keeps Ctx.Inside (updateCurBlockSize cfg) := by
  refine Keeps.bind Keeps.get fun c => Keeps.bind catchUp_inside fun _ =>
    Keeps.bind Keeps.get fun c' => Keeps.ite ?_ (Keeps.ite Keeps.throw Keeps.pure)
  exact Keeps.bind (blockAt_reads _) fun last => Keeps.bind myActiveId_inside fun a =>
    onShm_inside _

/-- A position behind the end of file moves the end of file. -/
theorem setPosition_inside (cfg : Config) (pos : Nat) : Keeps Ctx.Inside (setPosition cfg pos) := by
  intro c hc
  have hset : setPosition cfg pos c = if pos > c.self.eof
      then updateCurBlockSize cfg { c with self := { c.self with pos := pos, eof := pos } }
      else .ok () { c with self := { c.self with pos := pos } } := by
    simp only [setPosition, modifySelf, Library.run_bind, Library.run_modify, Library.run_get]
    split
    · rfl
    · rfl
  rw [hset]
  by_cases hbehind : pos > c.self.eof
  · rw [if_pos hbehind]
    exact updateCurBlockSize_inside cfg _ fun hactive => ⟨Nat.le_refl pos, (hc hactive).silent⟩
  · rw [if_neg hbehind]
    exact fun hactive => ⟨Nat.le_of_not_lt hbehind, (hc hactive).silent⟩

theorem advance_inside (cfg : Config) (count : Nat) : Keeps Ctx.Inside (advance cfg count) :=
  Keeps.bind (modifyLists_inside fun _ => ⟨rfl, rfl, rfl, rfl⟩) fun _ => Keeps.bind Keeps.get
    fun _ => Keeps.bind (setPosition_inside cfg _) fun _ =>
      modifyLists_inside fun _ => ⟨rfl, rfl, rfl, rfl⟩

theorem flush_inside (cfg : Config) : Keeps Ctx.Inside (flush cfg) := by
  refine Keeps.bind Keeps.get fun c => Keeps.bind catchUp_inside fun _ =>
    Keeps.bind Keeps.get fun c' => Keeps.ite ?_ Keeps.throw
  cases c'.self.blockArray.getLast? with
  | none => exact Keeps.throw
  | some last => exact Keeps.ite (flushEof_inside cfg) Keeps.pure

theorem unregistInSharedMem_inside (isCancel : Bool) :
    Keeps Ctx.Inside (unregistInSharedMem isCancel) := by
  refine Keeps.bind Keeps.get fun c => Keeps.bind myActiveId_inside fun a =>
    Keeps.bind (onShm_inside _) fun left => ?_
  cases left with
  | none => exact Keeps.throw
  | some shouldDestroy => exact Keeps.modify fun c _ hactive => absurd rfl hactive

theorem closeFile_inside : Keeps Ctx.Inside closeFile := by
  refine Keeps.bind Keeps.get fun c => Keeps.bind (onShm_inside _) fun opening => Keeps.ite ?_ ?_
  · exact Keeps.bind (modifyLists_inside fun _ => ⟨rfl, rfl, rfl, rfl⟩) fun _ => Keeps.pure
  · refine Keeps.ite ?_ (Keeps.bind (logFullStatus_inside _ _) fun _ => Keeps.pure)
    cases blocksToDestroy c.self.blockArray with
    | error e => exact Keeps.throw
    | ok blocks =>
        refine Keeps.bind (onShm_inside _) fun _ => Keeps.bind ?_ fun _ => Keeps.pure
        exact Keeps.modify fun c hc hactive =>
          ⟨(hc hactive).pos, fun fd hfd => by cases hfd⟩

theorem close_inside (cfg : Config) (isCancel : Bool) : Keeps Ctx.Inside (close cfg isCancel) := by
  refine Keeps.bind catchUp_inside fun _ => Keeps.bind Keeps.get fun c =>
    Keeps.bind myActiveId_inside fun a => Keeps.bind (removeNumOfKeys_inside _) fun keys =>
      Keeps.bind (blocksOf_inside keys) fun blocks => ?_
  have hrest : Keeps Ctx.Inside (do
      let turned ← onShm (SharedMemoryContext.inactivateBuckets c.self.fileId a blocks)
      updateInactivated cfg turned
      if turned ≠ [] then
        logInactivateBucket turned
      unregistInSharedMem isCancel
      let remoteBlocks ← closeFile
      modifySelf fun h => { h with blockArray := [], lruCache := .empty h.lruCache.maxSize }
      return remoteBlocks) := by
    have hleave : Keeps Ctx.Inside (do
        unregistInSharedMem isCancel
        let remoteBlocks ← closeFile
        modifySelf fun h => { h with blockArray := [], lruCache := .empty h.lruCache.maxSize }
        return remoteBlocks) :=
      Keeps.bind (unregistInSharedMem_inside isCancel) fun _ => Keeps.bind closeFile_inside
        fun _ => Keeps.bind (modifyLists_inside fun _ => ⟨rfl, rfl, rfl, rfl⟩) fun _ => Keeps.pure
    exact Keeps.bind (onShm_inside _) fun turned => Keeps.bind (updateInactivated_inside cfg turned)
      fun _ => Keeps.ite (Keeps.bind (logRecord_inside _ _ _) fun _ => hleave) hleave
  exact Keeps.ite (Keeps.bind (onShm_inside _) fun _ => Keeps.bind (logRecord_inside _ _ _)
    fun _ => hrest) hrest

/-! ## Registration -/

/-- A replay that returns has reached the end of the log: the fuel is more than the bytes
that are left. -/
theorem catchUp_loop_end (fuel : Nat) : ∀ {c c' : Ctx} {fd : Descriptor}, c.self.fd = some fd →
    (c.folder.content fd.file).length < fd.offset + fuel →
    catchUpManifestLogs.loop fuel c = .ok () c' →
    ∀ fd', c'.self.fd = some fd' → (c'.folder.content fd'.file).drop fd'.offset = [] := by
  induction fuel with
  | zero =>
      intro c c' fd hfd hfuel hrun fd' hfd'
      cases hrun
      obtain rfl : fd = fd' := Option.some.inj (hfd.symm.trans hfd')
      exact List.drop_eq_nil_of_le (Nat.le_of_lt hfuel)
  | succ fuel ih =>
      intro c c' fd hfd hfuel hrun fd' hfd'
      obtain ⟨-, hread, hend⟩ := fetchOneLogRecord_moves (c.folder.content fd.file) fd
      have hfile := fetchOneLogRecord_file (c.folder.content fd.file) fd
      cases hfetch : fetchOneLogRecord (c.folder.content fd.file) fd with
      | mk fetched fd₁ =>
          rw [hfetch] at hread hend hfile
          simp only [catchUpManifestLogs.loop, modifySelf, Library.run_bind, Library.run_get, hfd,
            hfetch, Library.run_modify] at hrun
          cases fetched with
          | error e => cases hrun
          | ok found =>
              cases found with
              | none =>
                  cases hrun
                  obtain rfl : fd₁ = fd' := Option.some.inj hfd'
                  have hdrop := hend rfl
                  rwa [← show fd₁.file = fd.file from hfile] at hdrop
              | some entry =>
                  simp only [Library.run_bind, Library.run_modify] at hrun
                  cases hreplay : replayRecord c.self.view entry.record with
                  | error e =>
                      rw [hreplay] at hrun
                      cases hrun
                  | ok v =>
                      rw [hreplay] at hrun
                      simp only [Library.run_bind, Library.run_modify] at hrun
                      refine @ih _ _ fd₁ rfl ?_ hrun fd' hfd'
                      change (c.folder.content fd₁.file).length < fd₁.offset + fuel
                      rw [show fd₁.file = fd.file from hfile]
                      have hmoved : fd.offset < fd₁.offset := (hread entry rfl).2
                      omega

theorem catchUp_end {c c' : Ctx} {u : Unit} (hrun : catchUpManifestLogs c = .ok u c') :
    ∀ fd, c'.self.fd = some fd → (c'.folder.content fd.file).drop fd.offset = [] := by
  simp only [catchUpManifestLogs, Library.run_bind, Library.run_get] at hrun
  cases hfd : c.self.fd with
  | none =>
      rw [hfd] at hrun
      cases hrun
  | some fd =>
      rw [hfd] at hrun
      exact catchUp_loop_end _ hfd (by omega) hrun

/-- A handle that registers has read the whole log, and begins at position 0. -/
theorem registInSharedMem_inside {c : Ctx} (hnone : c.self.activeId = none)
    (hpos : c.self.pos = 0) :
    Spec (· = c) registInSharedMem (fun _ => Ctx.Inside) (fun _ => Ctx.Inside) := by
  have hid : Keeps (fun c => c.self.activeId = none) catchUpManifestLogs := by
    refine Keeps.of_run (fun c _ c' hc hrun => ?_) fun c _ c' hc hrun => ?_
    · exact ((catchUpManifestLogs_quiet c).ok ⟨.refl _, rfl, rfl, rfl⟩ hrun).1.activeId.trans hc
    · exact ((catchUpManifestLogs_quiet c).error ⟨.refl _, rfl, rfl, rfl⟩ hrun).1.activeId.trans hc
  let inv : Ctx → Prop := fun c' => c'.self.activeId = none ∧ c'.self.pos = 0 ∧
    ∀ fd, c'.self.fd = some fd → (c'.folder.content fd.file).drop fd.offset = []
  have hvacant : ∀ c', inv c' → c'.Inside := fun c' hc' hactive => absurd hc'.1 hactive
  have hcatch : Spec (· = c) catchUpManifestLogs (fun _ => inv) (fun _ => Ctx.Inside) := by
    intro c₁ hc₁
    obtain rfl : c = c₁ := hc₁.symm
    have hthread := catchUp_thread (t := c.self.thread) c rfl
    cases hrun : catchUpManifestLogs c with
    | ok u c' =>
        rw [hrun] at hthread
        exact ⟨hid.ok hnone hrun, (congrArg Thread.pos hthread).trans hpos, catchUp_end hrun⟩
    | error e c' => exact fun hactive => absurd (hid.error hnone hrun) hactive
  have hregist : ∀ c' : Ctx, Keeps inv (onShm (SharedMemoryContext.registFile c'.self.pid
      c'.self.fileId c'.self.isDelete)) := fun _ => onShm_elsewhere (fun _ _ => id) _
  refine Spec.bind hcatch fun _ => Spec.get_keep fun c' hc' =>
    Spec.bind ((hregist c').conseq (fun _ => id) (fun _ _ => id) fun _ => hvacant) fun slot => ?_
  cases slot with
  | none => exact Spec.throw hvacant
  | some a =>
      refine Spec.modify fun c' hc' _ => ⟨?_, fun fd hfd => .of_drop_nil (hc'.2.2 fd hfd)⟩
      change c'.self.pos ≤ c'.self.eof
      rw [hc'.2.1]
      exact Nat.zero_le _

end FileActiveStatus

end Gopherwood
