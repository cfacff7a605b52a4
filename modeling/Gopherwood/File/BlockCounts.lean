/-
# The counts of blocks

A handle keeps a usage count for every block that it knows, and writes it into the
records of its manifest, from where other handles and later ones take it. The module
says that none of these counts is negative, and that catching up on a manifest whose
records have no negative count brings none into a handle.
-/

import Gopherwood.File.Handles
import Gopherwood.Segment.UsageCount

namespace Gopherwood

open Library (Keeps Spec)

/-- No block has a negative count. -/
def Tallied (blocks : List Block) : Prop := ∀ block ∈ blocks, 0 ≤ block.usageCount

theorem tallied_nil : Tallied [] := by
  intro block hblock
  cases hblock

theorem Tallied.append {first second : List Block} (hfirst : Tallied first)
    (hsecond : Tallied second) : Tallied (first ++ second) := by
  intro block hblock
  rcases List.mem_append.mp hblock with hblock | hblock
  · exact hfirst block hblock
  · exact hsecond block hblock

theorem Tallied.set {blocks : List Block} {i : Nat} {new : Block} (h : Tallied blocks)
    (hnew : 0 ≤ new.usageCount) : Tallied (blocks.set i new) := by
  intro block hblock
  rcases List.mem_or_eq_of_mem_set hblock with hblock | rfl
  · exact h block hblock
  · exact hnew

theorem Tallied.modify {blocks : List Block} {i : Nat} {f : Block → Block} (h : Tallied blocks)
    (hf : ∀ block ∈ blocks[i]?, 0 ≤ (f block).usageCount) : Tallied (blocks.modify i f) := by
  intro block hblock
  obtain ⟨j, hj⟩ := List.mem_iff_getElem?.mp hblock
  rw [List.getElem?_modify] at hj
  obtain ⟨old, hold, heq⟩ := Option.map_eq_some_iff.mp hj
  split at heq
  · next hij =>
      subst hij
      exact heq ▸ hf old hold
  · exact heq ▸ h old (List.mem_of_getElem? hold)

/-- The blocks of a handle. -/
structure FileActiveStatus.Counted (h : FileActiveStatus) : Prop where
  blocks : Tallied h.blockArray
  preAllocated : Tallied h.preAllocatedBuckets
  loading : Tallied h.loadingBuckets

/-- The blocks of all records. -/
def ManifestFolder.Counted (d : ManifestFolder) : Prop :=
  ∀ bytes ∈ d.files, ∀ cell ∈ bytes, Tallied cell.1.record.blocks

/-- What a critical section works on. -/
structure Ctx.Counted (c : Ctx) : Prop where
  shm : c.shm.Counted
  folder : c.folder.Counted
  self : c.self.Counted

namespace ManifestFolder

variable {d : ManifestFolder}

theorem Counted.of_modify {file : Nat} {f : LogFile → LogFile} (hd : d.Counted)
    (hf : ∀ bytes, (∀ cell ∈ bytes, Tallied cell.1.record.blocks) →
      ∀ cell ∈ f bytes, Tallied cell.1.record.blocks) :
    ({ d with files := d.files.modify file f } : ManifestFolder).Counted := by
  intro bytes hbytes
  obtain ⟨j, hj⟩ := List.mem_iff_getElem?.mp hbytes
  rw [List.getElem?_modify] at hj
  obtain ⟨old, hold, heq⟩ := Option.map_eq_some_iff.mp hj
  have htallied := hd old (List.mem_of_getElem? hold)
  split at heq
  · exact heq ▸ hf old htallied
  · exact heq ▸ htallied

theorem Counted.mfWrite (hd : d.Counted) (fd : Descriptor) {entry : LogEntry}
    (hentry : Tallied entry.record.blocks) : (d.mfWrite fd entry).1.Counted := by
  apply hd.of_modify
  intro bytes hbytes cell hcell
  unfold Library.overwrite at hcell
  rcases List.mem_append.mp hcell with hcell | hcell
  · rcases List.mem_append.mp hcell with hcell | hcell
    · rcases List.mem_append.mp (List.mem_of_mem_take hcell) with hcell | hcell
      · exact hbytes cell hcell
      · rw [List.eq_of_mem_replicate hcell]
        exact tallied_nil
    · obtain ⟨k, -, rfl⟩ := List.mem_map.mp hcell
      exact hentry
  · exact hbytes cell (List.mem_of_mem_drop hcell)

theorem Counted.mfTruncate (hd : d.Counted) (fd : Descriptor) : (d.mfTruncate fd).1.Counted := by
  apply hd.of_modify
  intro bytes _ cell hcell
  cases hcell

theorem Counted.mfOpen (hd : d.Counted) (fileId : FileId) : (d.mfOpen fileId).1.Counted := by
  unfold ManifestFolder.mfOpen
  split
  · exact hd
  · intro bytes hbytes
    rcases List.mem_append.mp hbytes with hbytes | hbytes
    · exact hd bytes hbytes
    · rw [List.mem_singleton.mp hbytes]
      intro cell hcell
      cases hcell

/-- A record that is read was written. -/
theorem Counted.fetch (hd : d.Counted) {file : Nat} {fd fd' : Descriptor} {entry : LogEntry}
    (hfetch : fetchOneLogRecord (d.content file) fd = (.ok (some entry), fd')) :
    Tallied entry.record.blocks := by
  have hcontent : ∀ cell ∈ d.content file, Tallied cell.1.record.blocks := by
    intro cell hcell
    unfold ManifestFolder.content at hcell
    rw [List.getD_eq_getElem?_getD] at hcell
    cases hbytes : d.files[file]? with
    | none =>
        rw [hbytes] at hcell
        cases hcell
    | some bytes =>
        rw [hbytes] at hcell
        exact hd bytes (List.mem_of_getElem? hbytes) cell hcell
  unfold fetchOneLogRecord Library.fetch at hfetch
  cases hdrop : (d.content file).drop fd.offset with
  | nil =>
      rw [hdrop] at hfetch
      cases hfetch
  | cons cell rest =>
      rw [hdrop] at hfetch
      dsimp only at hfetch
      have hcell := hcontent cell (List.mem_of_mem_drop (hdrop ▸ List.mem_cons_self))
      by_cases hwhole : Library.frame LogEntry.recordLength cell.1 <+: cell :: rest
      · rw [if_pos hwhole] at hfetch
        dsimp only at hfetch
        split at hfetch
        · cases hfetch
        · cases hfetch
          exact hcell
      · rw [if_neg hwhole] at hfetch
        cases hfetch

end ManifestFolder

/-- Replaying keeps the counts or takes those of the record. -/
theorem replayRecord_tallied {view v : View} {record : Record} (hview : Tallied view.blockArray)
    (hrecord : Tallied record.blocks) (hreplay : replayRecord view record = .ok v) :
    Tallied v.blockArray := by
  have hstate : ∀ (state : BucketType) (ids : List (Option Nat)) (blocks blocks' : List Block),
      Tallied blocks → ids.foldlM (setBlockState state) blocks = .ok blocks' → Tallied blocks' := by
    intro state ids
    induction ids with
    | nil =>
        intro blocks blocks' hblocks hfold
        cases hfold
        exact hblocks
    | cons id ids ih =>
        intro blocks blocks' hblocks hfold
        rw [List.foldlM_cons] at hfold
        unfold setBlockState at hfold
        split at hfold
        · next i =>
            split at hfold
            · refine ih _ _ ?_ hfold
              apply hblocks.modify
              intro block hblock
              exact hblocks block (List.mem_of_getElem? hblock)
            · cases hfold
        · cases hfold
  have hreplace : ∀ {test : Block → Bool} {e : GwError},
      replaceBlock test e view record.blocks = .ok v → Tallied v.blockArray := by
    intro test e hrun
    unfold replaceBlock at hrun
    split at hrun
    · cases hrun
    · next block rest heq =>
        have hblock : 0 ≤ block.usageCount := hrecord block (heq ▸ List.mem_cons_self)
        split at hrun
        · cases hrun
        · split at hrun
          · cases hrun
          · split at hrun
            · cases hrun
              exact hview.set hblock
            · cases hrun
  have hstates : ∀ {state : BucketType},
      (do
        let blocks ← (record.blocks.map Block.blockId).foldlM (setBlockState state) view.blockArray
        return { view with blockArray := blocks } : Except GwError View) = .ok v →
      Tallied v.blockArray := by
    intro state hrun
    cases hfold : (record.blocks.map Block.blockId).foldlM (setBlockState state)
        view.blockArray with
    | error e =>
        rw [hfold] at hrun
        cases hrun
    | ok blocks =>
        rw [hfold] at hrun
        cases hrun
        exact hstate state _ _ _ hview hfold
  unfold replayRecord at hreplay
  split at hreplay
  · exact hstates hreplay
  · exact hstates hreplay
  · cases hreplay
    exact hview
  · cases hreplay
    exact hview
  · split at hreplay
    · cases hreplay
    · next block rest heq =>
        cases hreplay
        apply hview.append
        intro y hy
        rw [List.mem_singleton.mp hy]
        exact hrecord block (heq ▸ List.mem_cons_self)
  · exact hreplace hreplay
  · exact hreplace hreplay
  · cases hreplay
    exact hview.append hrecord
  · cases hreplay
    exact hview

namespace FileActiveStatus

variable {c : Ctx}

theorem onShm_counted {α : Type} {op : ShmM α} (hop : Keeps SharedMem.Counted op) :
    Keeps Ctx.Counted (onShm op) := by
  apply Spec.zoom
  rintro c hc s rfl
  have hs := hop c.shm hc.shm
  revert hs
  cases op c.shm with
  | ok a s => exact fun hs => ⟨hs, hc.folder, hc.self⟩
  | error e s => exact fun hs => ⟨hs, hc.folder, hc.self⟩

theorem modifySelf_counted {f : FileActiveStatus → FileActiveStatus}
    (hf : ∀ h : FileActiveStatus, h.Counted → (f h).Counted) : Keeps Ctx.Counted (modifySelf f) :=
  Keeps.modify fun c hc => ⟨hc.shm, hc.folder, hf c.self hc.self⟩

/-- An update that leaves the blocks of the handle. -/
theorem modifyOther_counted {f : FileActiveStatus → FileActiveStatus}
    (hf : ∀ h : FileActiveStatus, (f h).blockArray = h.blockArray ∧
      (f h).preAllocatedBuckets = h.preAllocatedBuckets ∧ (f h).loadingBuckets = h.loadingBuckets) :
    Keeps Ctx.Counted (modifySelf f) := by
  apply modifySelf_counted
  intro h hh
  obtain ⟨hblocks, hpre, hloading⟩ := hf h
  exact ⟨hblocks ▸ hh.blocks, hpre ▸ hh.preAllocated, hloading ▸ hh.loading⟩

theorem modifyOss_counted {f : Ctx → ObjectStore} :
    Keeps Ctx.Counted (modify fun c => { c with oss := f c } : StatusM Unit) :=
  Keeps.modify fun _ hc => ⟨hc.shm, hc.folder, hc.self⟩

theorem myActiveId_counted : Keeps Ctx.Counted myActiveId := by
  refine Keeps.bind Keeps.get fun c => ?_
  cases c.self.activeId with
  | some a => exact Keeps.pure
  | none => exact Keeps.throw

theorem blockAt_tallied (i : Nat) :
    Spec Ctx.Counted (blockAt i) (fun block c => c.Counted ∧ 0 ≤ block.usageCount)
      (fun _ => Ctx.Counted) := by
  refine Spec.get_bind fun c hc => ?_
  cases hblock : c.self.blockArray[i]? with
  | none => exact Spec.throw fun c' hc' => hc' ▸ hc
  | some block =>
      exact Spec.pure fun c' hc' => ⟨hc' ▸ hc, hc.self.blocks block (List.mem_of_getElem? hblock)⟩

theorem blockAt_counted (i : Nat) : Keeps Ctx.Counted (blockAt i) :=
  (blockAt_tallied i).weaken_post fun _ _ hc => hc.1

theorem logRecord_counted (type : RecordType) (eof : Nat) (blocks : List Block) :
    Keeps Ctx.Counted (logRecord type eof blocks) := by
  intro c hc
  cases hfd : c.self.fd with
  | none => simpa [logRecord, hfd] using hc
  | some fd =>
      have hzero : Tallied (blocks.map fun b => { b with usageCount := 0 }) := by
        intro block hblock
        obtain ⟨old, -, rfl⟩ := List.mem_map.mp hblock
        exact Int.le_refl 0
      simp only [logRecord, Library.run_bind, Library.run_get, hfd, Library.run_set]
      exact ⟨hc.shm, hc.folder.mfWrite fd hzero,
        ⟨hc.self.blocks, hc.self.preAllocated, hc.self.loading⟩⟩

theorem logFullStatus_counted (blocks : List Block) (eof : Nat) :
    Keeps Ctx.Counted (logFullStatus blocks eof) := by
  refine Spec.get_bind fun c hc => ?_
  cases c.self.fd with
  | none => exact Spec.throw fun c' hc' => hc' ▸ hc
  | some fd =>
      dsimp only
      have hset : Spec (· = c) (set { c with
          folder := (c.folder.mfTruncate fd).1
          self := { c.self with fd := some (c.folder.mfTruncate fd).2 } } : StatusM Unit)
          (fun _ => Ctx.Counted) (fun _ => Ctx.Counted) := by
        intro c' _
        exact ⟨hc.shm, hc.folder.mfTruncate fd,
          ⟨hc.self.blocks, hc.self.preAllocated, hc.self.loading⟩⟩
      exact Spec.bind hset fun _ => logRecord_counted _ _ _

theorem catchUp_loop_counted (fuel : Nat) : Keeps Ctx.Counted (catchUpManifestLogs.loop fuel) := by
  induction fuel with
  | zero => exact Keeps.pure
  | succ fuel ih =>
      refine Spec.get_keep fun c hc => ?_
      cases c.self.fd with
      | none => exact Keeps.throw
      | some fd =>
          dsimp only
          have hfetch := fun entry fd' =>
            @ManifestFolder.Counted.fetch c.folder hc.folder fd.file fd fd' entry
          generalize fetchOneLogRecord (c.folder.content fd.file) fd = result at hfetch
          obtain ⟨fetched, fd'⟩ := result
          refine Keeps.bind (modifyOther_counted fun _ => ⟨rfl, rfl, rfl⟩) fun _ => ?_
          cases fetched with
          | error e => exact Keeps.throw
          | ok found =>
              cases found with
              | none => exact Keeps.pure
              | some entry =>
                  refine Keeps.bind (modifyOther_counted fun _ => ⟨rfl, rfl, rfl⟩) fun _ => ?_
                  cases hreplay : replayRecord c.self.view entry.record with
                  | error e => exact Keeps.throw
                  | ok v =>
                      have hv := replayRecord_tallied hc.self.blocks (hfetch entry fd' rfl) hreplay
                      exact Keeps.bind (modifySelf_counted fun h hh =>
                        ⟨hv, hh.preAllocated, hh.loading⟩) fun _ => ih

theorem catchUp_counted : Keeps Ctx.Counted catchUpManifestLogs := by
  refine Keeps.bind Keeps.get fun c => ?_
  cases c.self.fd with
  | none => exact Keeps.throw
  | some fd => exact catchUp_loop_counted _

/-- A critical section after the log has been replayed. -/
theorem section_counted {α : Type} {body : StatusM α} {F : Ctx → Prop}
    (hbody : Spec (fun c => c.Counted ∧ F c) body (fun _ => Ctx.Counted) (fun _ => Ctx.Counted)) :
    Spec (fun c => c.Counted ∧ F (Library.after catchUpManifestLogs c))
      (catchUpManifestLogs >>= fun _ => body) (fun _ => Ctx.Counted) (fun _ => Ctx.Counted) := by
  rintro c ⟨hc, hF⟩
  have hcatch := catchUp_counted c hc
  unfold Library.after at hF
  rw [Library.run_bind]
  cases hrun : catchUpManifestLogs c with
  | error e c' =>
      rw [hrun] at hcatch
      exact hcatch
  | ok u c' =>
      rw [hrun] at hcatch hF
      exact hbody c' ⟨hcatch, hF⟩

end FileActiveStatus

end Gopherwood
