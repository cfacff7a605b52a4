/-
# Block numbers in a manifest

Replaying a manifest puts blocks behind the block array: those of the full status and
those of the extensions. In a manifest whose added blocks are numbered `0, 1, 2, …` every
block lies at its number in the array of a handle that has caught up. A critical section
keeps the numbering unless it extends the file with a number that was taken before the
handle caught up.
-/

import Gopherwood.File.Thread
import Gopherwood.Journal.Closing

namespace Gopherwood

open Library (Keeps Spec)

/-- The numbers `0, 1, 2, …` in order. -/
def Consecutive (ids : List (Option Nat)) : Prop := ids = (List.range ids.length).map some

namespace Consecutive

variable {ids others : List (Option Nat)}

theorem nil : Consecutive [] := rfl

theorem getElem? (h : Consecutive ids) {i : Nat} {id : Option Nat} (hi : ids[i]? = some id) :
    id = some i := by
  have hlt := (List.getElem?_eq_some_iff.mp hi).1
  rw [h, List.getElem?_map, List.getElem?_range hlt] at hi
  exact (Option.some.inj hi).symm

theorem nodup (h : Consecutive ids) : ids.Nodup := by
  rw [h]
  exact List.pairwise_map.mpr (List.nodup_range.imp fun hne heq => hne (Option.some.inj heq))

theorem left (h : Consecutive (ids ++ others)) : Consecutive ids := by
  unfold Consecutive at h ⊢
  rw [List.length_append, List.range_add, List.map_append] at h
  exact (List.append_inj h (by simp)).1

theorem snoc (h : Consecutive ids) : Consecutive (ids ++ [some ids.length]) := by
  unfold Consecutive
  rw [List.length_append, List.length_singleton, List.range_succ, List.map_append, ← h]
  rfl

end Consecutive

/-- The numbers of the blocks of an array. -/
def blockIds (blocks : List Block) : List (Option Nat) := blocks.map Block.blockId

theorem length_blockIds (blocks : List Block) : (blockIds blocks).length = blocks.length :=
  List.length_map _

theorem blockIds_append (first second : List Block) :
    blockIds (first ++ second) = blockIds first ++ blockIds second :=
  List.map_append

/-- An update that leaves the number alone. -/
theorem blockIds_modify (blocks : List Block) (i : Nat) {f : Block → Block}
    (hf : ∀ block, (f block).blockId = block.blockId) :
    blockIds (blocks.modify i f) = blockIds blocks := by
  refine List.ext_getElem? fun j => ?_
  rw [blockIds, blockIds, List.getElem?_map, List.getElem?_map, List.getElem?_modify]
  cases blocks[j]? with
  | none => rfl
  | some block =>
      refine congrArg some ?_
      dsimp only
      split
      · exact hf block
      · rfl

/-- A block that is replaced by one with the number of its place. -/
theorem blockIds_set {blocks : List Block} {i : Nat} {block : Block}
    (h : Consecutive (blockIds blocks)) (hblock : block.blockId = some i) :
    blockIds (blocks.set i block) = blockIds blocks := by
  unfold blockIds
  rw [List.map_set, hblock]
  refine List.ext_getElem? fun j => ?_
  rw [List.getElem?_set]
  split
  · next hij =>
      subst hij
      split
      · next hlt =>
          have hi := List.getElem?_eq_getElem hlt
          rw [h.getElem? hi] at hi
          exact hi.symm
      · next hlt => exact (List.getElem?_eq_none (Nat.le_of_not_lt hlt)).symm
  · rfl

/-- Replaying a record of the type lengthens the block array. -/
def RecordType.adds : RecordType → Bool
  | .extendBlock => true
  | .fullStatus => true
  | _ => false

/-- The numbers of the blocks that a record adds. -/
def Record.added (r : Record) : List (Option Nat) := if r.type.adds then blockIds r.blocks else []

def addedBy (entries : List LogEntry) : List (Option Nat) :=
  entries.flatMap fun e => e.record.added

@[simp]
theorem addedBy_nil : addedBy [] = [] := rfl

@[simp]
theorem addedBy_append (first second : List LogEntry) :
    addedBy (first ++ second) = addedBy first ++ addedBy second :=
  List.flatMap_append

@[simp]
theorem addedBy_singleton (e : LogEntry) : addedBy [e] = e.record.added :=
  List.flatMap_singleton _ _

theorem Record.added_of_quiet {r : Record} (h : r.type.adds = false) : r.added = [] := by
  rw [added, h]
  rfl

/-- An extension adds one block, and the blocks are added in the order of their numbers.
Replaying such a log puts every block at the place of its number. -/
structure Numbered (entries : List LogEntry) : Prop where
  single : ∀ e ∈ entries, e.record.type = .extendBlock → ∃ block, e.record.blocks = [block]
  consecutive : Consecutive (addedBy entries)

theorem Numbered.nil : Numbered [] := by
  refine ⟨fun e he => ?_, .nil⟩
  cases he

theorem Numbered.left {first second : List LogEntry} (h : Numbered (first ++ second)) :
    Numbered first := by
  refine ⟨fun e he => h.single e (List.mem_append_left _ he), ?_⟩
  have hconsecutive := h.consecutive
  rw [addedBy_append] at hconsecutive
  exact hconsecutive.left

/-- A record that adds nothing. -/
theorem Numbered.snoc_quiet {entries : List LogEntry} {e : LogEntry} (h : Numbered entries)
    (he : e.record.type.adds = false) : Numbered (entries ++ [e]) := by
  refine ⟨fun x hx htype => ?_, ?_⟩
  · rcases List.mem_append.mp hx with hx | hx
    · exact h.single x hx htype
    · rw [List.mem_singleton.mp hx] at htype
      rw [htype] at he
      cases he
  · rw [addedBy_append, addedBy_singleton, Record.added_of_quiet he, List.append_nil]
    exact h.consecutive

/-- An extension with the next number. -/
theorem Numbered.snoc_extend {entries : List LogEntry} {e : LogEntry} {block : Block}
    (h : Numbered entries) (htype : e.record.type = .extendBlock)
    (hblocks : e.record.blocks = [block]) (hid : block.blockId = some (addedBy entries).length) :
    Numbered (entries ++ [e]) := by
  refine ⟨fun x hx hextend => ?_, ?_⟩
  · rcases List.mem_append.mp hx with hx | hx
    · exact h.single x hx hextend
    · exact ⟨block, by rw [List.mem_singleton.mp hx, hblocks]⟩
  · have hadded : e.record.added = [some (addedBy entries).length] := by
      simp [Record.added, htype, RecordType.adds, blockIds, hblocks, hid]
    rw [addedBy_append, addedBy_singleton, hadded]
    exact h.consecutive.snoc

/-- A log that is compacted to the array of a handle. -/
theorem Numbered.compacted {e : LogEntry} (htype : e.record.type = .fullStatus)
    (hids : Consecutive (blockIds e.record.blocks)) : Numbered [e] := by
  refine ⟨fun x hx hextend => ?_, ?_⟩
  · rw [List.mem_singleton.mp hx, htype] at hextend
    cases hextend
  · have hadded : e.record.added = blockIds e.record.blocks := by
      simp [Record.added, htype, RecordType.adds]
    rw [addedBy_singleton, hadded]
    exact hids

/-! ## Replaying -/

theorem foldlM_setBlockState_ids {state : BucketType} {ids : List (Option Nat)} :
    ∀ {blocks blocks' : List Block}, ids.foldlM (setBlockState state) blocks = .ok blocks' →
      blockIds blocks' = blockIds blocks := by
  induction ids with
  | nil =>
      intro blocks blocks' h
      cases h
      rfl
  | cons id rest ih =>
      intro blocks blocks' h
      rw [List.foldlM_cons] at h
      cases id with
      | none => cases h
      | some i =>
          by_cases hi : i < blocks.length
          · simp only [setBlockState, if_pos hi] at h
            exact (ih h).trans (blockIds_modify _ _ fun _ => rfl)
          · simp only [setBlockState, if_neg hi] at h
            cases h

theorem replaceBlock_ids {test : Block → Bool} {e : GwError} {v v' : View} {blocks : List Block}
    (h : replaceBlock test e v blocks = .ok v') (hids : Consecutive (blockIds v.blockArray)) :
    blockIds v'.blockArray = blockIds v.blockArray := by
  unfold replaceBlock at h
  split at h
  · cases h
  · split at h
    · cases h
    · next hid =>
        split at h
        · cases h
        · split at h
          · cases h
            exact blockIds_set hids hid
          · cases h

/-- Replaying a record adds the numbers of its blocks. -/
theorem replayRecord_ids {v v' : View} {r : Record} (h : replayRecord v r = .ok v')
    (hsingle : r.type = .extendBlock → ∃ block, r.blocks = [block])
    (hids : Consecutive (blockIds v.blockArray)) :
    blockIds v'.blockArray = blockIds v.blockArray ++ r.added := by
  obtain ⟨type, eof, blocks⟩ := r
  have hfold : ∀ state, (do
      let array ← (blocks.map Block.blockId).foldlM (setBlockState state) v.blockArray
      return { v with blockArray := array } : Except GwError View) = .ok v' →
      blockIds v'.blockArray = blockIds v.blockArray := by
    intro state h
    cases hrun : (blocks.map Block.blockId).foldlM (setBlockState state) v.blockArray with
    | error e =>
        rw [hrun] at h
        cases h
    | ok array =>
        rw [hrun] at h
        cases h
        exact foldlM_setBlockState_ids hrun
  cases type with
  | extendBlock =>
      obtain ⟨block, hblock⟩ := hsingle rfl
      obtain rfl : blocks = [block] := hblock
      cases h
      exact blockIds_append _ _
  | fullStatus =>
      cases h
      exact blockIds_append _ _
  | activeBlock => exact (hfold _ h).trans (List.append_nil _).symm
  | inactiveBlock => exact (hfold _ h).trans (List.append_nil _).symm
  | evictBlock => exact (replaceBlock_ids h hids).trans (List.append_nil _).symm
  | loadBlock => exact (replaceBlock_ids h hids).trans (List.append_nil _).symm
  | acquireNewBlock | releaseBlock | updateEof =>
      cases h
      exact (List.append_nil _).symm

/-- A record that cannot be replayed adds nothing. -/
theorem added_of_error {v : View} {r : Record} {e : GwError} (h : replayRecord v r = .error e)
    (hsingle : r.type = .extendBlock → ∃ block, r.blocks = [block]) : r.added = [] := by
  apply Record.added_of_quiet
  cases htype : r.type with
  | extendBlock =>
      obtain ⟨block, hblock⟩ := hsingle htype
      simp [replayRecord, htype, hblock] at h
  | fullStatus => simp [replayRecord, htype] at h
  | _ => rfl

theorem replay_ids {entries : List LogEntry} :
    ∀ {v v' : View}, replay v (entries.map LogEntry.record) = .ok v' →
      (∀ e ∈ entries, e.record.type = .extendBlock → ∃ block, e.record.blocks = [block]) →
      Consecutive (blockIds v.blockArray ++ addedBy entries) →
      blockIds v'.blockArray = blockIds v.blockArray ++ addedBy entries := by
  induction entries with
  | nil =>
      intro v v' h _ _
      cases h
      exact (List.append_nil _).symm
  | cons e rest ih =>
      intro v v' h hsingle hids
      rw [List.map_cons] at h
      rcases replay_cons_cases v e.record (rest.map LogEntry.record) with
        ⟨err, -, hreplay⟩ | ⟨mid, hmid, hreplay⟩
      · rw [hreplay] at h
        cases h
      · rw [hreplay] at h
        have hstep := replayRecord_ids hmid (hsingle e (List.mem_cons_self ..)) hids.left
        have hsplit : addedBy (e :: rest) = e.record.added ++ addedBy rest := rfl
        rw [hsplit, ← List.append_assoc, ← hstep] at hids ⊢
        exact ih h (fun x hx => hsingle x (List.mem_cons_of_mem _ hx)) hids

/-- A record that cannot be replayed stops the replay. -/
theorem replay_error {v mid : View} {before : List Record} {last : Record} {e : GwError}
    (hbefore : replay v before = .ok mid) (hlast : replayRecord mid last = .error e)
    (rest : List Record) : replay v (before ++ [last] ++ rest) = .error e := by
  have hsnoc : replay v (before ++ [last]) = .error e := by
    rw [replay_append, hbefore]
    change replay mid [last] = _
    simp only [replay, List.foldlM_cons, hlast]
    rfl
  rw [replay_append, hsnoc]
  rfl

/-- The view with one more block behind the array. -/
def View.snoc (v : View) (block : Block) : View := ⟨v.blockArray ++ [block], v.eof⟩

theorem modify_append_left {α : Type} (f : α → α) (second : List α) {first : List α} :
    ∀ {i : Nat}, i < first.length →
      (first ++ second).modify i f = first.modify i f ++ second := by
  induction first with
  | nil =>
      intro i hi
      cases hi
  | cons x rest ih =>
      intro i hi
      cases i with
      | zero => rfl
      | succ i => exact congrArg (x :: ·) (ih (Nat.lt_of_succ_lt_succ hi))

theorem foldlM_setBlockState_snoc {state : BucketType} (block : Block) {ids : List (Option Nat)} :
    ∀ {blocks blocks' : List Block}, ids.foldlM (setBlockState state) blocks = .ok blocks' →
      ids.foldlM (setBlockState state) (blocks ++ [block]) = .ok (blocks' ++ [block]) := by
  induction ids with
  | nil =>
      intro blocks blocks' h
      cases h
      rfl
  | cons id rest ih =>
      intro blocks blocks' h
      rw [List.foldlM_cons] at h ⊢
      cases id with
      | none => cases h
      | some i =>
          by_cases hi : i < blocks.length
          · have hi' : i < (blocks ++ [block]).length := by
              rw [List.length_append]
              omega
            simp only [setBlockState, if_pos hi] at h
            simp only [setBlockState, if_pos hi']
            rw [modify_append_left _ _ hi]
            exact ih h
          · simp only [setBlockState, if_neg hi] at h
            cases h

theorem replaceBlock_snoc {test : Block → Bool} {e : GwError} {v v' : View} {blocks : List Block}
    (h : replaceBlock test e v blocks = .ok v') (block : Block) :
    replaceBlock test e (v.snoc block) blocks = .ok (v'.snoc block) := by
  unfold replaceBlock at h ⊢
  split at h
  · cases h
  · split at h
    · cases h
    · next i hid =>
        split at h
        · cases h
        · next old hold =>
            have hlt := (List.getElem?_eq_some_iff.mp hold).1
            have hold' : (v.snoc block).blockArray[i]? = some old := by
              rw [← hold]
              exact List.getElem?_append_left hlt
            split at h
            · next htest =>
                cases h
                simp only [hold', htest, if_true]
                refine congrArg Except.ok (congrArg (View.mk · v.eof) ?_)
                exact List.set_append_left _ _ hlt
            · cases h

/-- A record that adds nothing is replayed in the same way with one more block behind the
array. -/
theorem replayRecord_snoc {v v' : View} {r : Record} (h : replayRecord v r = .ok v')
    (hquiet : r.added = []) (block : Block) :
    replayRecord (v.snoc block) r = .ok (v'.snoc block) := by
  obtain ⟨type, eof, blocks⟩ := r
  have hfold : ∀ state, (do
      let array ← (blocks.map Block.blockId).foldlM (setBlockState state) v.blockArray
      return { v with blockArray := array } : Except GwError View) = .ok v' → (do
      let array ← (blocks.map Block.blockId).foldlM (setBlockState state) (v.snoc block).blockArray
      return { v.snoc block with blockArray := array } :
        Except GwError View) = .ok (v'.snoc block) := by
    intro state h
    cases hrun : (blocks.map Block.blockId).foldlM (setBlockState state) v.blockArray with
    | error e =>
        rw [hrun] at h
        cases h
    | ok array =>
        rw [hrun] at h
        cases h
        have hsnoc := foldlM_setBlockState_snoc block hrun
        simp only [View.snoc] at hsnoc ⊢
        rw [hsnoc]
        rfl
  have hempty : type.adds = true → blocks = [] := by
    intro hadds
    rw [Record.added, if_pos hadds] at hquiet
    exact List.map_eq_nil_iff.mp hquiet
  cases type with
  | extendBlock =>
      obtain rfl := hempty rfl
      cases h
  | fullStatus =>
      obtain rfl := hempty rfl
      cases h
      simp [replayRecord, View.snoc]
  | activeBlock => exact hfold _ h
  | inactiveBlock => exact hfold _ h
  | evictBlock => exact replaceBlock_snoc h block
  | loadBlock => exact replaceBlock_snoc h block
  | acquireNewBlock | releaseBlock | updateEof =>
      cases h
      rfl

theorem replay_snoc {entries : List LogEntry} (block : Block) :
    ∀ {v v' : View}, replay v (entries.map LogEntry.record) = .ok v' → addedBy entries = [] →
      replay (v.snoc block) (entries.map LogEntry.record) = .ok (v'.snoc block) := by
  induction entries with
  | nil =>
      intro v v' h _
      cases h
      rfl
  | cons e rest ih =>
      intro v v' h hquiet
      obtain ⟨he, hrest⟩ : e.record.added = [] ∧ addedBy rest = [] :=
        List.append_eq_nil_iff.mp hquiet
      rw [List.map_cons] at h ⊢
      rcases replay_cons_cases v e.record (rest.map LogEntry.record) with
        ⟨err, -, hreplay⟩ | ⟨mid, hmid, hreplay⟩
      · rw [hreplay] at h
        cases h
      · rw [hreplay] at h
        exact replay_cons_ok (replayRecord_snoc hmid he block) (ih h hrest)

/-! ## Critical sections -/

/-- Every manifest is a sequence of whole records that adds its blocks in order. -/
def ManifestFolder.InOrder (d : ManifestFolder) : Prop :=
  ∀ k, ∃ entries, d.content k = logBytes entries ∧ Numbered entries

/-- A record at the end of a manifest. -/
theorem ManifestFolder.InOrder.mfWrite {d : ManifestFolder} (hd : d.InOrder) (fd : Descriptor)
    {entry : LogEntry} (hfile : fd.file < d.files.length)
    (hoffset : fd.offset = (d.content fd.file).length)
    (hentry : ∀ entries, d.content fd.file = logBytes entries → Numbered entries →
      Numbered (entries ++ [entry])) : (d.mfWrite fd entry).1.InOrder := by
  intro k
  by_cases hk : k = fd.file
  · subst hk
    obtain ⟨entries, hentries, hnumbered⟩ := hd fd.file
    refine ⟨entries ++ [entry], ?_, hentry entries hentries hnumbered⟩
    rw [content_mfWrite_end fd entry hfile hoffset, hentries, logBytes_append]
  · rw [content_mfWrite_other fd entry hk]
    exact hd k

theorem ManifestFolder.OwnFile.mfWrite {d : ManifestFolder} {fileId : FileId} {own : Nat}
    (hown : d.OwnFile fileId own) (fd : Descriptor) (entry : LogEntry) :
    (d.mfWrite fd entry).1.OwnFile fileId own := by
  refine ⟨?_, fun f k hf => ?_, hown.owner⟩
  · rw [length_files_mfWrite]
    exact hown.bound
  · rw [length_files_mfWrite]
    exact hown.links f k hf

/-- What a critical section of a handle works on: the handle's descriptor on the file
`own` has passed some records, and the blocks that they added are the handle's. If
`caught`, nothing is pending. -/
structure Sheet (own : Nat) (caught : Prop) (c : Ctx) : Prop where
  logs : c.folder.InOrder
  ownFile : c.folder.OwnFile c.self.fileId own
  place : ∃ done pending, c.self.fd = some ⟨own, (logBytes done).length⟩ ∧
    c.folder.content own = logBytes (done ++ pending) ∧ (caught → pending = []) ∧
    (∀ e ∈ pending, e.Fits) ∧ blockIds c.self.blockArray = addedBy done

namespace Sheet

variable {own : Nat} {caught : Prop} {c : Ctx}

theorem numbered (hc : Sheet own caught c) {entries : List LogEntry}
    (hcontent : c.folder.content own = logBytes entries) : Numbered entries := by
  obtain ⟨entries', hentries, hnumbered⟩ := hc.logs own
  rw [hcontent] at hentries
  exact logBytes_injective hentries ▸ hnumbered

/-- The blocks of the handle lie at their numbers. -/
theorem consecutive (hc : Sheet own caught c) : Consecutive (blockIds c.self.blockArray) := by
  obtain ⟨done, pending, -, hcontent, -, -, hids⟩ := hc.place
  rw [hids]
  exact (hc.numbered hcontent).left.consecutive

theorem of_caught (hc : Sheet own caught c) : Sheet own False c := by
  obtain ⟨done, pending, hfd, hcontent, -, hrest⟩ := hc.place
  exact ⟨hc.logs, hc.ownFile, done, pending, hfd, hcontent, fun h => h.elim, hrest⟩

/-- An update that leaves the descriptor and the numbers alone. -/
theorem of_same (hc : Sheet own caught c) {c' : Ctx} (hfolder : c'.folder = c.folder)
    (hfileId : c'.self.fileId = c.self.fileId) (hfd : c'.self.fd = c.self.fd)
    (hids : blockIds c'.self.blockArray = blockIds c.self.blockArray) : Sheet own caught c' := by
  refine ⟨hfolder ▸ hc.logs, by rw [hfolder, hfileId]; exact hc.ownFile, ?_⟩
  rw [hfd, hfolder, hids]
  exact hc.place

/-- A record at the end of the handle's own manifest. -/
theorem of_logged (hlogs : c.folder.InOrder) (hown : c.folder.OwnFile c.self.fileId own)
    {done : List LogEntry} (hcontent : c.folder.content own = logBytes done) {entry : LogEntry}
    (hnumbered : Numbered done → Numbered (done ++ [entry]))
    (hids : blockIds c.self.blockArray = addedBy (done ++ [entry])) :
    Sheet own True { c with
      folder := (c.folder.mfWrite ⟨own, (logBytes done).length⟩ entry).1
      self :=
        { c.self with fd := some (c.folder.mfWrite ⟨own, (logBytes done).length⟩ entry).2 } } := by
  have hoffset : (logBytes done).length = (c.folder.content own).length := by rw [hcontent]
  refine ⟨hlogs.mfWrite _ hown.bound hoffset fun entries hentries h => ?_, hown.mfWrite _ _,
    done ++ [entry], [], ?_, ?_, fun _ => rfl, by simp, hids⟩
  · obtain rfl : done = entries := logBytes_injective (hcontent.symm.trans hentries)
    exact hnumbered h
  · simp only [ManifestFolder.offset_mfWrite, logBytes_append, List.length_append]
  · have hwrite := ManifestFolder.content_mfWrite_end ⟨own, (logBytes done).length⟩ entry hown.bound
      hoffset
    rw [List.append_nil, logBytes_append]
    exact hwrite.trans (by rw [hcontent])

theorem logRecord (hc : Sheet own True c) {fd : Descriptor} (hfd : c.self.fd = some fd)
    (record : Record) (hrecord : record.type.adds = false) : Sheet own True { c with
      folder := (c.folder.mfWrite fd ⟨c.self.client, record⟩).1
      self := { c.self with fd := some (c.folder.mfWrite fd ⟨c.self.client, record⟩).2 } } := by
  obtain ⟨done, pending, hfd', hcontent, hcaught, -, hids⟩ := hc.place
  obtain rfl := hcaught trivial
  obtain rfl : fd = ⟨own, (logBytes done).length⟩ := Option.some.inj (hfd.symm.trans hfd')
  rw [List.append_nil] at hcontent
  refine of_logged hc.logs hc.ownFile hcontent (fun h => h.snoc_quiet hrecord) ?_
  rw [addedBy_append, addedBy_singleton, Record.added_of_quiet hrecord, List.append_nil]
  exact hids

end Sheet

namespace FileActiveStatus

variable {own : Nat} {caught : Prop}

theorem onShm_sheet {α : Type} (op : ShmM α) : Keeps (Sheet own caught) (onShm op) := by
  apply Spec.zoom
  intro c hc s _
  cases op s with
  | ok a s' => exact hc.of_same rfl rfl rfl rfl
  | error e s' => exact hc.of_same rfl rfl rfl rfl

theorem modifyOss_sheet {f : Ctx → ObjectStore} :
    Keeps (Sheet own caught) (modify fun c => { c with oss := f c } : StatusM Unit) :=
  Keeps.modify fun _ hc => hc.of_same rfl rfl rfl rfl

theorem modifySelf_sheet {f : FileActiveStatus → FileActiveStatus}
    (hf : ∀ h, (f h).fileId = h.fileId ∧ (f h).fd = h.fd ∧ (f h).blockArray = h.blockArray) :
    Keeps (Sheet own caught) (modifySelf f) := by
  refine Keeps.modify fun c hc => ?_
  obtain ⟨hfileId, hfd, harray⟩ := hf c.self
  exact hc.of_same rfl hfileId hfd (congrArg blockIds harray)

/-- A block of the array is updated under its number. -/
theorem modifyBlock_sheet (i : Nat) {f : Block → Block}
    (hf : ∀ block, (f block).blockId = block.blockId) : Keeps (Sheet own caught)
      (modifySelf fun h => { h with blockArray := h.blockArray.modify i f }) :=
  Keeps.modify fun _ hc => hc.of_same rfl rfl rfl (blockIds_modify _ i hf)

/-- A block of the array is replaced by one of its number. -/
theorem setBlock_sheet {i : Nat} {block : Block} (hblock : block.blockId = some i) :
    Keeps (Sheet own caught) (modifySelf fun h =>
    { h with blockArray := h.blockArray.set i block }) :=
  Keeps.modify fun _ hc => hc.of_same rfl rfl rfl (blockIds_set hc.consecutive hblock)

theorem myActiveId_sheet : Keeps (Sheet own caught) myActiveId := by
  refine Keeps.bind Keeps.get fun c => ?_
  cases c.self.activeId with
  | some a => exact Keeps.pure
  | none => exact Keeps.throw

theorem blockAt_sheet (i : Nat) : Keeps (Sheet own caught) (blockAt i) := by
  refine Keeps.bind Keeps.get fun c => ?_
  cases c.self.blockArray[i]? with
  | some block => exact Keeps.pure
  | none => exact Keeps.throw

theorem logRecord_sheet {type : RecordType} (htype : type.adds = false) (eof : Nat)
    (blocks : List Block) : Keeps (Sheet own True) (logRecord type eof blocks) := by
  intro c hc
  cases hfd : c.self.fd with
  | none =>
      simp only [logRecord, Library.run_bind, Library.run_get, hfd, Library.run_throw]
      exact hc
  | some fd =>
      simp only [logRecord, Library.run_bind, Library.run_get, hfd, Library.run_set]
      exact hc.logRecord hfd ⟨type, eof, blocks.map fun b => { b with usageCount := 0 }⟩ htype

/-- Catching up adds the blocks of the records that it passes. -/
theorem catchUp_sheet : Spec (Sheet own False) catchUpManifestLogs (fun _ => Sheet own True)
    (fun _ => Sheet own False) := by
  intro c hc
  obtain ⟨done, pending, hfd, hcontent, -, hfits, hids⟩ := hc.place
  have hnumbered := hc.numbered hcontent
  have hsingle : ∀ e ∈ pending, e.record.type = .extendBlock → ∃ block, e.record.blocks = [block] :=
    fun e he => hnumbered.single e (List.mem_append_right _ he)
  have hconsecutive := hnumbered.consecutive
  rw [addedBy_append, ← hids] at hconsecutive
  rcases catchUp_cases hfd ⟨hcontent, rfl⟩ hfits with
    ⟨v, hreplay, hrun⟩ | ⟨err, v, before, last, rest, rfl, hreplay, herror, hrun⟩
  · rw [hrun]
    refine ⟨hc.logs, hc.ownFile, done ++ pending, [], rfl, ?_, fun _ => rfl, by simp, ?_⟩
    · rw [List.append_nil]
      exact hcontent
    · rw [addedBy_append, ← hids]
      exact replay_ids hreplay hsingle hconsecutive
  · rw [hrun]
    refine ⟨hc.logs, hc.ownFile, done ++ (before ++ [last]), rest, rfl, ?_, fun h => h.elim,
      fun e he => hfits e (List.mem_append_right _ he), ?_⟩
    · rw [List.append_assoc]
      exact hcontent
    · -- the last record cannot be replayed, so it adds nothing
      have hlast := added_of_error herror (hsingle last (by simp))
      rw [addedBy_append, addedBy_append, addedBy_singleton, hlast, List.append_nil, ← hids]
      rw [List.append_assoc, addedBy_append, ← List.append_assoc] at hconsecutive
      exact replay_ids hreplay (fun e he => hsingle e (by simp [he])) hconsecutive.left

/-- A critical section catches up first. -/
theorem section_sheet {α : Type} {body : StatusM α} (hbody : Keeps (Sheet own True) body) :
    Keeps (Sheet own False) (catchUpManifestLogs >>= fun _ => body) :=
  Spec.bind catchUp_sheet fun _ =>
    hbody.conseq (fun _ => id) (fun _ _ hc => hc.of_caught) fun _ _ hc => hc.of_caught

theorem getSharedMemEof_sheet (cfg : Config) : Keeps (Sheet own caught) (getSharedMemEof cfg) := by
  refine Keeps.bind Keeps.get fun c => Keeps.bind (blockAt_sheet _) fun last =>
    Keeps.bind (onShm_sheet _) fun size => ?_
  exact Keeps.ite (modifySelf_sheet fun _ => ⟨rfl, rfl, rfl⟩) Keeps.pure

theorem flushEof_sheet (cfg : Config) : Keeps (Sheet own True) (flushEof cfg) :=
  Keeps.bind (getSharedMemEof_sheet cfg) fun _ => Keeps.bind Keeps.get fun _ =>
    logRecord_sheet rfl _ _

theorem updateInactivated_sheet (cfg : Config) (blocks : List Block) :
    Keeps (Sheet own True) (updateInactivated cfg blocks) := by
  induction blocks with
  | nil => exact Keeps.pure
  | cons b rest ih =>
      unfold updateInactivated
      cases b.blockId with
      | none => exact Keeps.throw
      | some i =>
          refine Keeps.bind (blockAt_sheet i) fun _ => Keeps.bind (modifyBlock_sheet i fun _ => rfl)
            fun _ => Keeps.bind Keeps.get fun c => ?_
          exact Keeps.ite (Keeps.bind (flushEof_sheet cfg) fun _ => ih) ih

theorem blocksOf_sheet (keys : List Nat) : Keeps (Sheet own caught) (blocksOf keys) := by
  induction keys with
  | nil => exact Keeps.pure
  | cons key rest ih =>
      exact Keeps.bind (blockAt_sheet key) fun _ => Keeps.bind ih fun _ => Keeps.pure

theorem removeNumOfKeys_sheet (num : Nat) : Keeps (Sheet own caught) (removeNumOfKeys num) :=
  Keeps.bind Keeps.get fun _ => Keeps.bind (modifySelf_sheet fun _ => ⟨rfl, rfl, rfl⟩)
    fun _ => Keeps.pure

theorem inactivateOldest_sheet (cfg : Config) (num : Nat) :
    Keeps (Sheet own True) (inactivateOldest cfg num) := by
  refine Keeps.bind (removeNumOfKeys_sheet num) fun keys => Keeps.bind (blocksOf_sheet keys)
    fun blocks => Keeps.bind Keeps.get fun c => Keeps.bind myActiveId_sheet fun a => ?_
  exact Keeps.bind (onShm_sheet _) fun turned => Keeps.bind (updateInactivated_sheet cfg turned)
    fun _ => logRecord_sheet rfl _ _

theorem acquireFree_sheet (num : Nat) : Keeps (Sheet own caught) (acquireFree num) := by
  refine Keeps.bind Keeps.get fun c => Keeps.bind myActiveId_sheet fun a =>
    Keeps.bind (onShm_sheet _) fun ids => ?_
  exact Keeps.bind (modifySelf_sheet fun _ => ⟨rfl, rfl, rfl⟩) fun _ => Keeps.pure

theorem startEvict_sheet (loop : EvictLoop) : Keeps (Sheet own caught) (startEvict loop) := by
  refine Keeps.ite ?_ Keeps.pure
  exact Keeps.bind myActiveId_sheet fun a => Keeps.bind (onShm_sheet _) fun _ => Keeps.pure

theorem acquireDecided_sheet (newQuota numToAcquire numAcqurieFree : Nat) :
    Keeps (Sheet own True) (acquireDecided newQuota numToAcquire numAcqurieFree) := by
  have hadjust : Keeps (Sheet own True) (adjustSize newQuota) := by
    refine Keeps.bind Keeps.get fun c => Keeps.bind (modifySelf_sheet fun _ => ⟨rfl, rfl, rfl⟩)
      fun _ => ?_
    exact Keeps.ite Keeps.throw Keeps.pure
  exact Keeps.bind hadjust fun _ => Keeps.bind (acquireFree_sheet _) fun blocks =>
    Keeps.bind (logRecord_sheet rfl _ _) fun _ => startEvict_sheet _

theorem acquireFirst_sheet (cfg : Config) : Keeps (Sheet own False) (acquireFirst cfg) := by
  apply section_sheet
  refine Keeps.bind Keeps.get fun c => ?_
  dsimp only
  cases acquirePolicy (if c.self.isSequence then min cfg.curQuotaSize preAllocateBucketNum
      else cfg.curQuotaSize) c.self.numAcquiredBuckets c.shm.header.numFreeBuckets
      c.shm.header.numUsedBuckets c.self.lruCache.size with
  | error e => exact Keeps.throw
  | ok policy =>
      have hrest : ∀ newQuota, Keeps (Sheet own True) (acquireDecided newQuota policy.2
          (min policy.2 c.shm.header.numFreeBuckets)) :=
        fun newQuota => acquireDecided_sheet newQuota _ _
      exact Keeps.ite (Keeps.bind (inactivateOldest_sheet cfg policy.1) fun _ => hrest _) (hrest _)

/-- The record of an eviction goes to the end of the manifest of the evicted file. -/
theorem logEvictBlock_sheet (info : BlockInfo) : Keeps (Sheet own True) (logEvictBlock info) := by
  refine Spec.get_bind fun c hc => Spec.ite (fun _ => ?_) fun hother => ?_
  · refine Spec.weaken_pre ?_ fun c' hc' => hc' ▸ hc
    refine Keeps.bind (logRecord_sheet rfl _ _) fun _ => ?_
    cases hid : info.blockId with
    | none => exact Keeps.throw
    | some i => exact Keeps.bind (blockAt_sheet i) fun _ => setBlock_sheet rfl
  · intro c' hc'
    rw [hc']
    cases hlink : c.folder.links info.fileId with
    | none => exact hc
    | some file =>
        have hne : own ≠ file := by
          rintro rfl
          exact hother (hc.ownFile.owner _ hlink).symm
        have hbound := hc.ownFile.links _ _ hlink
        obtain ⟨done, pending, hfd, hcontent, hrest⟩ := hc.place
        refine ⟨hc.logs.mfWrite ⟨file, (c.folder.content file).length⟩ hbound rfl
          fun entries _ h => h.snoc_quiet rfl, hc.ownFile.mfWrite _ _, done, pending, hfd, ?_,
            hrest⟩
        rw [← hcontent]
        exact ManifestFolder.content_mfWrite_other _ _ hne

theorem finishEvict_sheet (loop : EvictLoop) : Keeps (Sheet own True) (finishEvict loop) := by
  refine Keeps.bind Keeps.get fun c => Keeps.bind myActiveId_sheet fun a =>
    Keeps.bind (onShm_sheet _) fun rc => ?_
  have hpush : Keeps (Sheet own True) (modifySelf fun h => { h with
      preAllocatedBuckets := h.preAllocatedBuckets ++ [newBlock loop.evictBlockInfo.bucketId] }) :=
    modifySelf_sheet fun _ => ⟨rfl, rfl, rfl⟩
  cases rc with
  | stolen => exact Keeps.bind modifyOss_sheet fun _ => Keeps.pure
  | finished =>
      exact Keeps.bind hpush fun _ => Keeps.bind (logEvictBlock_sheet _) fun _ => Keeps.pure
  | deleted => exact Keeps.bind hpush fun _ => Keeps.bind modifyOss_sheet fun _ => Keeps.pure

theorem refill_sheet (loop : EvictLoop) (gained : List Block) :
    Keeps (Sheet own True) (refill loop gained) := by
  refine Keeps.bind Keeps.get fun c => ?_
  have hlog : ∀ (blocks : List Block) (next : EvictLoop), Keeps (Sheet own True) (do
      logAcquireNewBlock (gained ++ blocks)
      startEvict next) :=
    fun blocks next => Keeps.bind (logRecord_sheet rfl _ _) fun _ => startEvict_sheet next
  exact Keeps.ite (Keeps.bind (acquireFree_sheet _) fun _ => hlog _ _) (hlog _ _)

theorem acquireNext_sheet (loop : EvictLoop) : Keeps (Sheet own False) (acquireNext loop) := by
  rw [acquireNext_eq]
  apply section_sheet
  exact Keeps.bind (Keeps.ite (finishEvict_sheet loop) Keeps.pure) fun found =>
    refill_sheet found.1 found.2

theorem afterEvictRound_sheet (caller : Caller) (loop : EvictLoop) :
    Keeps (Sheet own caught) (afterEvictRound caller loop) := by
  refine Keeps.ite (modifySelf_sheet fun _ => ⟨rfl, rfl, rfl⟩) (Keeps.bind Keeps.get fun c => ?_)
  exact Keeps.ite Keeps.throw (modifySelf_sheet fun _ => ⟨rfl, rfl, rfl⟩)

theorem putActive_sheet (blockId bucketId : Option Nat) :
    Keeps (Sheet own caught) (putActive blockId bucketId) := by
  cases blockId with
  | none => exact Keeps.throw
  | some i =>
      unfold putActive
      exact modifySelf_sheet fun _ => ⟨rfl, rfl, rfl⟩

theorem makeRoom_sheet (cfg : Config) : Keeps (Sheet own True) (makeRoom cfg) := by
  refine Keeps.bind Keeps.get fun c => Keeps.ite (Keeps.ite ?_ ?_)
    (Keeps.ite Keeps.throw Keeps.pure)
  · exact inactivateOldest_sheet cfg 1
  · cases c.self.preAllocatedBuckets.getLast? with
    | none => exact Keeps.throw
    | some block =>
        exact Keeps.bind (modifySelf_sheet fun _ => ⟨rfl, rfl, rfl⟩) fun _ =>
          Keeps.bind (onShm_sheet _) fun _ => logRecord_sheet rfl _ _

theorem startLoading_sheet (cfg : Config) (blockId : Nat) :
    Keeps (Sheet own caught) (startLoading cfg blockId) := by
  refine Keeps.bind Keeps.get fun c => ?_
  dsimp only
  cases c.self.preAllocatedBuckets with
  | nil => exact Keeps.throw
  | cons front rest =>
      refine Keeps.bind (onShm_sheet _) fun b => Keeps.bind myActiveId_sheet fun a =>
        Keeps.bind (onShm_sheet _) fun marked => Keeps.ite ?_ Keeps.pure
      exact Keeps.bind (modifySelf_sheet fun _ => ⟨rfl, rfl, rfl⟩) fun _ => Keeps.pure

theorem activateBlock_sheet (cfg : Config) (blockId : Nat) :
    Keeps (Sheet own False) (activateBlock cfg blockId) := by
  apply section_sheet
  refine Keeps.bind (blockAt_sheet blockId) fun block => ?_
  refine Keeps.ite (startLoading_sheet cfg blockId) (Keeps.ite ?_ Keeps.throw)
  refine Keeps.bind (makeRoom_sheet cfg) fun _ => Keeps.bind Keeps.get fun c =>
    Keeps.bind (blockAt_sheet blockId) fun block => Keeps.bind myActiveId_sheet fun a =>
      Keeps.bind (onShm_sheet _) fun byMe => ?_
  have hput : Keeps (Sheet own True) (do
      putActive block.blockId block.bucketId
      return ActivateResult.activated) :=
    Keeps.bind (putActive_sheet _ _) fun _ => Keeps.pure
  exact Keeps.ite (Keeps.bind (logRecord_sheet rfl _ _) fun _ => hput) hput

theorem loadSucceeded_sheet (cfg : Config) (info : BlockInfo) (blockSize : Nat) :
    Keeps (Sheet own True) (loadSucceeded cfg info blockSize) := by
  refine Keeps.bind Keeps.get fun c => eachLoading_keeps (fun i theBlock => ?_) _ _
  refine Keeps.bind Keeps.get fun c => Keeps.bind myActiveId_sheet fun a =>
    Keeps.bind (onShm_sheet _) fun b => Keeps.bind (onShm_sheet _) fun _ =>
      Keeps.bind (onShm_sheet _) fun _ => Keeps.bind (modifySelf_sheet fun _ => ⟨rfl, rfl, rfl⟩)
        fun _ => Keeps.bind (putActive_sheet _ _) fun _ => ?_
  cases hid : theBlock.blockId with
  | none => exact Keeps.bind Keeps.throw fun _ => logRecord_sheet rfl _ _
  | some j =>
      exact Keeps.bind (blockAt_sheet j) fun _ => Keeps.bind (setBlock_sheet hid)
        fun _ => logRecord_sheet rfl _ _

theorem loadFailed_sheet (info : BlockInfo) : Keeps (Sheet own caught) (loadFailed info) := by
  refine Keeps.bind Keeps.get fun c => eachLoading_keeps (fun i theBlock => ?_) _ _
  exact Keeps.bind myActiveId_sheet fun a => Keeps.bind (onShm_sheet _) fun b =>
    Keeps.bind (onShm_sheet _) fun _ => modifySelf_sheet fun _ => ⟨rfl, rfl, rfl⟩

theorem updateCurBlockSize_sheet (cfg : Config) :
    Keeps (Sheet own False) (updateCurBlockSize cfg) := by
  refine Keeps.bind Keeps.get fun c => section_sheet (Keeps.bind Keeps.get fun c' => ?_)
  refine Keeps.ite ?_ (Keeps.ite Keeps.throw Keeps.pure)
  exact Keeps.bind (blockAt_sheet _) fun last => Keeps.bind myActiveId_sheet fun a => onShm_sheet _

theorem advance_sheet (cfg : Config) (count : Nat) :
    Keeps (Sheet own False) (advance cfg count) := by
  have hset : ∀ pos, Keeps (Sheet own False) (setPosition cfg pos) := by
    intro pos
    refine Keeps.bind (modifySelf_sheet fun _ => ⟨rfl, rfl, rfl⟩) fun _ => Keeps.bind Keeps.get
      fun c => Keeps.ite ?_ Keeps.pure
    exact Keeps.bind (modifySelf_sheet fun _ => ⟨rfl, rfl, rfl⟩) fun _ =>
      updateCurBlockSize_sheet cfg
  exact Keeps.bind (modifySelf_sheet fun _ => ⟨rfl, rfl, rfl⟩) fun _ => Keeps.bind Keeps.get
    fun c => Keeps.bind (hset _) fun _ => modifySelf_sheet fun _ => ⟨rfl, rfl, rfl⟩

theorem flush_sheet (cfg : Config) : Keeps (Sheet own False) (flush cfg) := by
  refine Keeps.bind Keeps.get fun c => section_sheet (Keeps.bind Keeps.get fun c' => ?_)
  refine Keeps.ite ?_ Keeps.throw
  cases c'.self.blockArray.getLast? with
  | none => exact Keeps.throw
  | some last => exact Keeps.ite (flushEof_sheet cfg) Keeps.pure

theorem getCurBlockInfo_sheet (cfg : Config) : Keeps (Sheet own caught) (getCurBlockInfo cfg) := by
  refine Keeps.bind Keeps.get fun c => Keeps.bind (blockAt_sheet _) fun block => ?_
  exact Keeps.modify fun _ hc => hc.of_same rfl rfl rfl (blockIds_modify _ _ fun _ => rfl)

/-- Catching up returns if all pending records can be replayed. -/
theorem catchUp_returns {c : Ctx} {fd : Descriptor} {done pending : List LogEntry} {v : View}
    (hfd : c.self.fd = some fd) (hat : fd.At c.folder done pending) (hfits : ∀ e ∈ pending, e.Fits)
    (hreplay : replay c.self.view (pending.map LogEntry.record) = .ok v) :
    catchUpManifestLogs c = .ok () (c.caughtUp
      ⟨fd.file, (logBytes (done ++ pending)).length⟩ pending v) := by
  rcases catchUp_cases hfd hat hfits with
    ⟨v', hv', hrun⟩ | ⟨e, mid, before, last, rest, rfl, hbefore, hlast, -⟩
  · obtain rfl : v = v' := Except.ok.inj (hreplay.symm.trans hv')
    exact hrun
  · rw [List.map_append, List.map_append] at hreplay
    have hstops := replay_error hbefore hlast (rest.map LogEntry.record)
    cases hreplay.symm.trans hstops

theorem fetchOneLogRecord_unfit {bytes : LogFile} {fd : Descriptor} {done rest : List LogEntry}
    {e : LogEntry} (hbytes : bytes = logBytes (done ++ e :: rest))
    (hoffset : fd.offset = (logBytes done).length) (hfits : ¬ e.Fits) :
    ∃ err fd', fetchOneLogRecord bytes fd = (.error err, fd') := by
  subst hbytes
  unfold fetchOneLogRecord
  rw [hoffset, logBytes, logBytes, Library.fetch_next LogEntry.recordLength_pos]
  simp only [gt_iff_lt, Nat.lt_of_not_le hfits, if_true]
  exact ⟨_, _, rfl⟩

theorem catchUp_loop_fits {pending : List LogEntry} :
    ∀ {fuel : Nat} {c c' : Ctx} {fd : Descriptor} {done : List LogEntry},
      c.self.fd = some fd → fd.At c.folder done pending → pending.length < fuel →
      catchUpManifestLogs.loop fuel c = .ok () c' → ∀ e ∈ pending, e.Fits := by
  induction pending with
  | nil =>
      intro fuel c c' fd done _ _ _ _ e he
      cases he
  | cons first rest ih =>
      intro fuel c c' fd done hfd hat hfuel hrun
      obtain ⟨fuel, rfl⟩ : ∃ n, fuel = n + 1 := ⟨fuel - 1, by omega⟩
      by_cases hfits : first.Fits
      · have hfetch := fetchOneLogRecord_next hat.content hat.offset hfits
        cases hstep : replayRecord c.self.view first.record with
        | error err =>
            simp [catchUpManifestLogs.loop, modifySelf, hfd, hfetch, hstep] at hrun
        | ok mid =>
            simp only [catchUpManifestLogs.loop, modifySelf, Library.run_bind, Library.run_get, hfd,
              hfetch, Library.run_modify, hstep] at hrun
            let fd' : Descriptor := ⟨fd.file, (logBytes (done ++ [first])).length⟩
            have hat' : fd'.At (c.caughtUp fd' [first] mid).folder (done ++ [first]) rest :=
              ⟨by simpa [fd', Ctx.caughtUp, List.append_assoc] using hat.content, rfl⟩
            have hlength : rest.length < fuel := by
              simp only [List.length_cons] at hfuel
              omega
            intro e he
            rcases List.mem_cons.mp he with rfl | he
            · exact hfits
            · exact ih (c := c.caughtUp fd' [first] mid) rfl hat' hlength hrun e he
      · obtain ⟨err, fd', hfetch⟩ := fetchOneLogRecord_unfit hat.content hat.offset hfits
        simp [catchUpManifestLogs.loop, modifySelf, hfd, hfetch] at hrun

/-- A handle that catches up has read records that fit the buffer. -/
theorem catchUp_fits {c c' : Ctx} {fd : Descriptor} {done pending : List LogEntry}
    (hfd : c.self.fd = some fd) (hat : fd.At c.folder done pending)
    (hrun : catchUpManifestLogs c = .ok () c') : ∀ e ∈ pending, e.Fits := by
  have hfuel : pending.length < (c.folder.content fd.file).length + 1 := by
    have := length_le_logBytes (done ++ pending)
    rw [hat.content]
    simp only [List.length_append] at this ⊢
    omega
  have hunfold : catchUpManifestLogs c =
      catchUpManifestLogs.loop ((c.folder.content fd.file).length + 1) c := by
    simp [catchUpManifestLogs, hfd]
  rw [hunfold] at hrun
  exact catchUp_loop_fits hfd hat hfuel hrun

/-- The length of the block array after catching up, unless that throws. -/
def lengthCaughtUp (c : Ctx) : Option Nat :=
  match catchUpManifestLogs c with
  | .ok _ c' => some c'.self.blockArray.length
  | .error _ _ => none

/-- The number for a new block is still the next one: catching up would bring no block, and
the bucket for the block is on record for the file. -/
def NumbersFresh (c : Ctx) : Prop :=
  lengthCaughtUp c = some c.self.blockArray.length ∧
    ∀ front ∈ c.self.preAllocatedBuckets.head?,
      (front.bucketId.bind fun b => c.shm.buckets[b]?).map ShareMemBucket.fileId =
      some c.self.fileId

/-- The bucket of the block is on record for the file. -/
theorem updateActiveFileInfo_returns {fileId : FileId} (block : Block) (s : SharedMem)
    (h : (block.bucketId.bind fun b => s.buckets[b]?).map ShareMemBucket.fileId = some fileId) :
    ∃ s', SharedMemoryContext.updateActiveFileInfo block fileId s = .ok () s' := by
  obtain ⟨bucket, hbucket, hfile⟩ := Option.map_eq_some_iff.mp h
  obtain ⟨b, hb, hat⟩ := Option.bind_eq_some_iff.mp hbucket
  simp [SharedMemoryContext.updateActiveFileInfo, SharedMemoryContext.inRange,
    SharedMemoryContext.bucketAt, SharedMemoryContext.modifyBucket, hb, hat, hfile]

theorem extendOneBlock_sheet : Spec (fun c => Sheet own False c ∧ NumbersFresh c) extendOneBlock
    (fun _ => Sheet own False) (fun _ => Sheet own False) := by
  rintro c ⟨hc, hlength, hfront⟩
  cases hpre : c.self.preAllocatedBuckets with
  | nil =>
      have hrun : extendOneBlock c = .error .undefined c := by simp [extendOneBlock, hpre]
      rw [hrun]
      exact hc
  | cons front rest =>
      obtain ⟨done, pending, hfd, hcontent, -, hfits, hids⟩ := hc.place
      have hnumbered := hc.numbered hcontent
      have hconsecutive := hnumbered.consecutive
      rw [addedBy_append, ← hids] at hconsecutive
      -- what is pending can be replayed and adds no block
      obtain ⟨v, hreplay, hquiet⟩ : ∃ v, replay c.self.view (pending.map LogEntry.record) = .ok v ∧
          addedBy pending = [] := by
        rcases catchUp_cases hfd ⟨hcontent, rfl⟩ hfits with
          ⟨v, hreplay, hrun⟩ | ⟨e, v, before, last, rest, -, -, -, hrun⟩
        · refine ⟨v, hreplay, ?_⟩
          have hadded := congrArg List.length (replay_ids hreplay
            (fun e he => hnumbered.single e (List.mem_append_right _ he)) hconsecutive)
          rw [lengthCaughtUp, hrun] at hlength
          have hsame : v.blockArray.length = c.self.blockArray.length := Option.some.inj hlength
          rw [List.length_append, length_blockIds, length_blockIds, hsame] at hadded
          exact List.length_eq_zero_iff.mp (by
            simp only [view] at hadded
            omega)
        · rw [lengthCaughtUp, hrun] at hlength
          cases hlength
      let block : Block := { front with blockId := some c.self.blockArray.length }
      let c₁ : Ctx := { c with self := { c.self with
        preAllocatedBuckets := rest, blockArray := c.self.blockArray ++ [block]
        lruCache := (c.self.lruCache.put c.self.blockArray.length front.bucketId).1 } }
      have hview : replay c₁.self.view (pending.map LogEntry.record) = .ok (v.snoc block) :=
        replay_snoc block hreplay hquiet
      let c₂ : Ctx := c₁.caughtUp ⟨own, (logBytes (done ++ pending)).length⟩ pending (v.snoc block)
      have hat : Descriptor.At c₁.folder ⟨own, (logBytes done).length⟩ done pending :=
        ⟨hcontent, rfl⟩
      have hfd₁ : c₁.self.fd = some ⟨own, (logBytes done).length⟩ := hfd
      have hcatch : catchUpManifestLogs c₁ = .ok () c₂ := catchUp_returns hfd₁ hat hfits hview
      obtain ⟨s', hupdate⟩ := updateActiveFileInfo_returns block c₂.shm
        (hfront front (by simp [hpre]))
      let entry : LogEntry :=
        ⟨c.self.client, ⟨.extendBlock, v.eof, [{ block with usageCount := 0 }]⟩⟩
      let fd : Descriptor := ⟨own, (logBytes (done ++ pending)).length⟩
      have hrun : extendOneBlock c = .ok () { c₂ with
          shm := s', folder := (c.folder.mfWrite fd entry).1
          self := { c₂.self with fd := some (c.folder.mfWrite fd entry).2 } } := by
        have hunfold : extendOneBlock c = (do
            catchUpManifestLogs
            onShm (SharedMemoryContext.updateActiveFileInfo block c.self.fileId)
            logExtendBlock [block] (← get).self.eof : StatusM Unit) c₁ := by
          simp [extendOneBlock, hpre, modifySelf, putActive, c₁, block]
        have hshm : onShm (SharedMemoryContext.updateActiveFileInfo block c.self.fileId) c₂ =
            .ok () { c₂ with shm := s' } := run_onShm_ok hupdate
        rw [hunfold]
        simp only [Library.run_bind, hcatch, hshm]
        rfl
      rw [hrun]
      have hnext : blockIds v.blockArray = addedBy (done ++ pending) := by
        rw [addedBy_append, ← hids]
        exact replay_ids hreplay
          (fun e he => hnumbered.single e (List.mem_append_right _ he)) hconsecutive
      have hcount : (addedBy (done ++ pending)).length = c.self.blockArray.length := by
        rw [addedBy_append, hquiet, List.append_nil, ← hids, length_blockIds]
      refine Sheet.of_caught (Sheet.of_logged (c := { c₂ with shm := s' }) hc.logs hc.ownFile
        hcontent
        (fun h => h.snoc_extend rfl rfl (congrArg some hcount.symm)) ?_)
      have hadded : addedBy [entry] = [some c.self.blockArray.length] := rfl
      rw [addedBy_append, hadded, ← hnext]
      exact blockIds_append _ _

theorem registInSharedMem_sheet : Keeps (Sheet own False) registInSharedMem := by
  apply section_sheet
  refine Keeps.bind Keeps.get fun c => Keeps.bind (onShm_sheet _) fun joined => ?_
  cases joined with
  | none => exact Keeps.throw
  | some a => exact modifySelf_sheet fun _ => ⟨rfl, rfl, rfl⟩

/-- The handle has given its slot back. -/
def Gone (c : Ctx) : Prop := c.folder.InOrder ∧ c.self.activeId = none

theorem unregistInSharedMem_sheet (isCancel : Bool) : Spec (Sheet own True)
    (unregistInSharedMem isCancel) (fun _ c => Sheet own True c ∧ c.self.activeId = none)
    (fun _ => Sheet own True) := by
  refine Spec.bind Keeps.get fun c => Spec.bind myActiveId_sheet fun a =>
    Spec.bind (onShm_sheet _) fun left => ?_
  cases left with
  | none => exact Spec.throw fun _ hc => hc
  | some destroy => exact Spec.modify fun c hc => ⟨hc.of_same rfl rfl rfl rfl, rfl⟩

/-- The log of a handle that is caught up is compacted to its array. -/
theorem logFullStatus_gone {c : Ctx} (hc : Sheet own True c) (hnone : c.self.activeId = none)
    (eof : Nat) : Spec (· = c) (logFullStatus c.self.blockArray eof) (fun _ => Gone)
      (fun _ => Gone) := by
  intro c' hc'
  rw [hc']
  obtain ⟨done, pending, hfd, -⟩ := hc.place
  let fd : Descriptor := ⟨own, (logBytes done).length⟩
  let entry : LogEntry := ⟨c.self.client, ⟨.fullStatus, eof,
    c.self.blockArray.map fun b => { b with usageCount := 0 }⟩⟩
  have hrun : logFullStatus c.self.blockArray eof c = .ok () { c with
      folder := ((c.folder.mfTruncate fd).1.mfWrite ⟨own, 0⟩ entry).1
      self := { c.self with
        fd := some ((c.folder.mfTruncate fd).1.mfWrite ⟨own, 0⟩ entry).2 } } := by
    simp [logFullStatus, hfd, logRecord, entry, fd, ManifestFolder.mfTruncate]
  rw [hrun]
  refine ⟨fun k => ?_, hnone⟩
  by_cases hk : k = own
  · subst hk
    have hempty := ManifestFolder.content_mfTruncate c.folder fd
    have hbound : fd.file < (c.folder.mfTruncate fd).1.files.length := by
      rw [ManifestFolder.length_files_mfTruncate]
      exact hc.ownFile.bound
    have hwrite := ManifestFolder.content_mfWrite_end ⟨k, 0⟩ entry hbound (by rw [hempty]; rfl)
    rw [hempty, List.nil_append] at hwrite
    refine ⟨[entry], hwrite, .compacted rfl ?_⟩
    have hsame : blockIds entry.record.blocks = blockIds c.self.blockArray := by
      simp [entry, blockIds]
    rw [hsame]
    exact hc.consecutive
  · obtain ⟨entries, hentries, hnumbered⟩ := hc.logs k
    refine ⟨entries, ?_, hnumbered⟩
    rw [← hentries]
    exact (ManifestFolder.content_mfWrite_other ⟨own, 0⟩ entry hk).trans
      (ManifestFolder.content_mfTruncate_other fd hk)

theorem closeFile_gone : Spec (fun c => Sheet own True c ∧ c.self.activeId = none) closeFile
    (fun _ => Gone) (fun _ => Gone) := by
  refine Spec.get_bind fun c hc => ?_
  obtain ⟨hc, hnone⟩ := hc
  have hopen : onShm (SharedMemoryContext.isFileOpening c.self.fileId) c =
      .ok (c.shm.activeStatus.any fun slot => slot.fileId = c.self.fileId) c := rfl
  have hfirst : Spec (· = c) (onShm (SharedMemoryContext.isFileOpening c.self.fileId))
      (fun _ => (· = c)) (fun _ => Gone) := by
    rintro c' rfl
    rw [hopen]
  refine Spec.bind hfirst fun opening => ?_
  have hgone : ∀ c', c' = c → Gone c' := fun c' hc' => hc' ▸ ⟨hc.logs, hnone⟩
  refine Spec.ite (fun _ => ?_) fun _ => Spec.ite (fun _ => ?_) fun _ => ?_
  · refine Spec.weaken_pre ?_ hgone
    exact Keeps.bind (Keeps.modify fun c' hc' => ⟨hc'.1, hc'.2⟩) fun _ => Keeps.pure
  · cases blocksToDestroy c.self.blockArray with
    | error e => exact Spec.throw hgone
    | ok blocks =>
        refine Spec.weaken_pre ?_ hgone
        have hdelete :
            Keeps Gone (onShm (SharedMemoryContext.deleteBlocks c.self.fileId blocks.1)) := by
          apply Spec.zoom
          intro c' hc' s _
          cases SharedMemoryContext.deleteBlocks c.self.fileId blocks.1 s with
          | ok a s' => exact ⟨hc'.1, hc'.2⟩
          | error e s' => exact ⟨hc'.1, hc'.2⟩
        refine Keeps.bind hdelete fun _ => Keeps.bind (Keeps.modify fun c' hc' => ?_) fun _ =>
          Keeps.pure
        exact ⟨hc'.1, hc'.2⟩
  · exact Spec.bind (logFullStatus_gone hc hnone c.self.eof) fun _ => Keeps.pure

/-- After a close the handle has given its slot back, or it still stands between two
records. -/
def Filed (own : Nat) (c : Ctx) : Prop :=
  c.folder.InOrder ∧ (c.self.activeId ≠ none → Sheet own False c)

theorem filed_of_sheet {c : Ctx} (hc : Sheet own caught c) : Filed own c :=
  ⟨hc.logs, fun _ => hc.of_caught⟩

theorem filed_of_gone {c : Ctx} (hc : Gone c) : Filed own c :=
  ⟨hc.1, fun hactive => absurd hc.2 hactive⟩

theorem close_filed (cfg : Config) (isCancel : Bool) :
    Spec (Sheet own False) (close cfg isCancel) (fun _ => Filed own) (fun _ => Filed own) := by
  have hexit : ∀ {α : Type} {prog : StatusM α}, Keeps (Sheet own True) prog →
      Spec (Sheet own True) prog (fun _ => Sheet own True) (fun _ => Filed own) :=
    fun h => h.conseq (fun _ => id) (fun _ _ => id) fun _ _ hc => filed_of_sheet hc
  have hleave : Spec (Sheet own True) (do
      unregistInSharedMem isCancel
      let remoteBlocks ← closeFile
      modifySelf fun h => { h with blockArray := [], lruCache := .empty h.lruCache.maxSize }
      return remoteBlocks) (fun _ => Filed own) (fun _ => Filed own) := by
    refine Spec.bind ((unregistInSharedMem_sheet isCancel).conseq (fun _ => id) (fun _ _ => id)
      fun _ _ hc => filed_of_sheet hc) fun _ => ?_
    refine Spec.bind (closeFile_gone.conseq (fun _ => id) (fun _ _ => id)
      fun _ _ hc => filed_of_gone hc) fun remote => ?_
    have hclear : Keeps Gone (modifySelf fun h =>
        { h with blockArray := [], lruCache := .empty h.lruCache.maxSize }) :=
      Keeps.modify fun c hc => ⟨hc.1, hc.2⟩
    exact (Keeps.bind hclear fun _ => Keeps.pure).conseq (fun _ => id)
      (fun _ _ hc => filed_of_gone hc) fun _ _ hc => filed_of_gone hc
  refine Spec.bind (catchUp_sheet.conseq (fun _ => id) (fun _ _ => id)
    fun _ _ hc => filed_of_sheet hc) fun _ => Spec.bind (hexit Keeps.get) fun c => ?_
  refine Spec.bind (hexit myActiveId_sheet) fun a => Spec.bind (hexit (removeNumOfKeys_sheet _))
    fun keys => Spec.bind (hexit (blocksOf_sheet keys)) fun activeBlocks => ?_
  have hinactivate : Spec (Sheet own True) (do
      let turned ← onShm (SharedMemoryContext.inactivateBuckets c.self.fileId a activeBlocks)
      updateInactivated cfg turned
      if turned ≠ [] then
        logInactivateBucket turned
      unregistInSharedMem isCancel
      let remoteBlocks ← closeFile
      modifySelf fun h => { h with blockArray := [], lruCache := .empty h.lruCache.maxSize }
      return remoteBlocks) (fun _ => Filed own) (fun _ => Filed own) := by
    refine Spec.bind (hexit (onShm_sheet _)) fun turned =>
      Spec.bind (hexit (updateInactivated_sheet cfg turned)) fun _ => ?_
    exact Spec.ite (fun _ => Spec.bind (hexit (logRecord_sheet rfl _ _)) fun _ => hleave)
      fun _ => hleave
  refine Spec.ite (fun _ => ?_) fun _ => hinactivate
  exact Spec.bind (hexit (onShm_sheet _)) fun _ =>
    Spec.bind (hexit (logRecord_sheet rfl _ _)) fun _ => hinactivate

end FileActiveStatus

end Gopherwood
