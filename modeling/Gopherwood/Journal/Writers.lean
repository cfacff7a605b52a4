/-
# Several writers of one file

`extendOneBlock` takes the number of the new block before the log is replayed. In a run in
which the number is taken only by handles for which catching up brings no block, the
extensions in a manifest carry different numbers, and every handle that has caught up has
every block at its number. A handle with a preallocated bucket can take a number that was
given away.
-/

import Gopherwood.Journal.AppendOnly
import Gopherwood.Journal.Numbering

namespace Gopherwood

open Library (Keeps Spec Run execute anyStep)

/-- The blocks of the handle are those that the records behind its descriptor added. -/
def FileActiveStatus.Placed (h : FileActiveStatus) (d : ManifestFolder) : Prop :=
  ∀ own done pending, h.fd = some ⟨own, (logBytes done).length⟩ →
    d.content own = logBytes (done ++ pending) → blockIds h.blockArray = addedBy done

/-- A descriptor passes the same records in a log and in its continuation. -/
theorem done_unique {done pending done' pending' : List LogEntry}
    (hgrows : logBytes (done ++ pending) <+: logBytes (done' ++ pending'))
    (hlength : (logBytes done).length = (logBytes done').length) : done = done' := by
  obtain ⟨rest, hrest⟩ := hgrows
  rw [logBytes_append, logBytes_append, List.append_assoc] at hrest
  exact logBytes_injective (List.append_inj hrest hlength).1

namespace FileActiveStatus

variable {h h' : FileActiveStatus} {d d' : ManifestFolder} {own : Nat} {caught : Prop} {c : Ctx}

theorem Placed.of_same (hplaced : h.Placed d) (hfd : h'.fd = h.fd)
    (harray : h'.blockArray = h.blockArray) : h'.Placed d := by
  intro own done pending hdone hcontent
  rw [harray]
  exact hplaced own done pending (hfd ▸ hdone) hcontent

theorem Placed.of_grown {p : LogEntry → Prop} (hplaced : h.Placed d)
    (hpos : h.Position p caught own d) (hgrows : d.content own <+: d'.content own) :
    h.Placed d' := by
  intro own' done' pending' hdone' hcontent'
  obtain ⟨done, pending, hfd, hcontent, -⟩ := hpos
  obtain ⟨rfl, hlength⟩ : own = own' ∧ (logBytes done).length = (logBytes done').length :=
    Descriptor.mk.inj (Option.some.inj (hfd.symm.trans hdone'))
  have hsame := hgrows
  rw [hcontent, hcontent'] at hsame
  rw [← done_unique hsame hlength]
  exact hplaced own done pending hfd hcontent

theorem placed_of_sheet (hc : Sheet own caught c) : c.self.Placed c.folder := by
  intro own' done' pending' hdone' hcontent'
  obtain ⟨done, pending, hfd, hcontent, -, -, hids⟩ := hc.place
  obtain ⟨rfl, hlength⟩ : own = own' ∧ (logBytes done).length = (logBytes done').length :=
    Descriptor.mk.inj (Option.some.inj (hfd.symm.trans hdone'))
  have hsame : logBytes (done ++ pending) <+: logBytes (done' ++ pending') :=
    ⟨[], by rw [List.append_nil, ← hcontent, hcontent']⟩
  rw [← done_unique hsame hlength]
  exact hids

end FileActiveStatus

namespace World

variable {w w' : World} {n m : Nat} {h h' x : FileActiveStatus} {cfg : Config} {act : Action}

/-- The log of a registered handle is not compacted by others. -/
theorem Logged.stays (hw : w.Logged) (hsafe : w.AppendSafe act) (hstep : step cfg w act = some w')
    (hm : w.files[m]? = some x) (hm' : w'.files[m]? = some x) (hactive : x.activeId ≠ none)
    {fd : Descriptor} (hfd : x.fd = some fd) :
    w.folder.content fd.file <+: w'.folder.content fd.file := by
  obtain ⟨hw', hstays⟩ := logged_step hw hsafe hstep
  rcases hstays fd.file with hgrows | ⟨n, h, isCancel, fd', -, rfl, hn, hpc, hfd', hfile, -⟩
  · exact hgrows
  · simp only [step, hn] at hstep
    have hslot : h.activeId ≠ none := by
      intro hnone
      have hquiet := hw.quiet n h hn hnone
      rw [hpc] at hquiet
      cases hquiet
    obtain ⟨own, hpos⟩ := hw.position n h hn hslot
    obtain ⟨c, hc, hreflects⟩ := stepFile_close
      (Scope.passes_of_moves (S := w.scope h own) w.leads_sameRoster cfg h.pc).benign
      (fun a ha => unregistFile_roster ha) (fun _ => w.leads_slotLeft h _)
      (fun _ => w.leads_slotLeft h _) hn (hw.start hsafe.1 hn (Or.inl hslot) hpos) hpc hstep
    rw [hreflects.folder]
    rcases hc with hc | hc
    · obtain ⟨new, hnew, -⟩ := (hc.journal trivial).grown.content fd.file
      exact ⟨logBytes new, hnew.symm⟩
    · rcases (hc.folder trivial).content fd.file with ⟨new, hnew, -⟩ | ⟨-, hvacant, -⟩
      · exact ⟨logBytes new, hnew.symm⟩
      · -- the slot of the registered handle belongs to the file
        obtain ⟨b, hb⟩ := Option.ne_none_iff_exists'.mp hactive
        have hmem := List.mem_of_getElem? (hw'.registered.file m x b hm' hb)
        rw [hreflects.shm] at hmem
        have hsame : x.fileId = h.fileId :=
          hw.agree m n x h fd fd' hm hn (Or.inl hactive) (Or.inl hslot) hfd hfd' hfile.symm
        exact absurd hsame (hvacant _ hmem)

/-- A registered handle does not go back to opening its file. -/
theorem Logged.not_opening (hw : w.Logged) (hfit : w.RecordsFit) (hn : w.files[n]? = some h)
    (hactive : h.activeId ≠ none) (hstep : w.stepFile cfg n h = some w')
    (hn' : w'.files[n]? = some h') : h'.pc.isOpening = false := by
  by_cases hclose : ∃ isCancel, h.pc = .close isCancel
  · obtain ⟨isCancel, hpc⟩ := hclose
    exact (stepFile_close_quiet hn hpc hstep hn').1
  · have hopening : h.pc.isOpening = false := by
      cases hopen : h.pc.isOpening with
      | false => rfl
      | true => exact absurd (hw.opening n h hn hopen).1 hactive
    obtain ⟨own, hpos⟩ := hw.position n h hn hactive
    obtain ⟨c, hc, hreflects⟩ := stepFile_session
      (Scope.passes_of_moves (S := w.scope h own) w.leads_sameRoster cfg h.pc) hn
      (hw.start hfit hn (Or.inl hactive) hpos) hopening
      (fun isCancel hpc => hclose ⟨isCancel, hpc⟩) hstep
    obtain ⟨h'', hlocal, hfiles⟩ := hreflects.files
    rw [hfiles, getElem?_set_files hn] at hn'
    obtain rfl := Option.some.inj hn'
    cases hopen : h''.pc.isOpening with
    | false => rfl
    | true =>
        have := hc.identity.opening (hlocal.sameIdentity.opening hopen)
        exact absurd (hopening.symm.trans this) Bool.false_ne_true

/-- The handle that numbers a new block in the step. -/
def extending (w : World) : Action → Option FileActiveStatus
  | .file n => w.files[n]?.filter fun h => h.pc = .extend
  | _ => none

/-- A number for a new block is taken only by a handle for which catching up brings no
block. -/
def ExtendsFresh (w : World) (act : Action) : Prop :=
  ∀ h ∈ w.extending act, FileActiveStatus.NumbersFresh (w.ctx h)

/-- The steps that keep the blocks of a file in order: the manifest stays a log, and no
handle numbers a block while another one has added blocks that it has not read. -/
def NumberSafe (w : World) (act : Action) : Prop := w.AppendSafe act ∧ w.ExtendsFresh act

instance (c : Ctx) : Decidable (FileActiveStatus.NumbersFresh c) :=
  inferInstanceAs (Decidable (FileActiveStatus.lengthCaughtUp c = some c.self.blockArray.length ∧
    ∀ front ∈ c.self.preAllocatedBuckets.head?,
      (front.bucketId.bind fun b => c.shm.buckets[b]?).map ShareMemBucket.fileId =
        some c.self.fileId))

instance (w : World) (act : Action) : Decidable (w.NumberSafe act) :=
  inferInstanceAs (Decidable (w.AppendSafe act ∧
    ∀ h ∈ w.extending act, FileActiveStatus.NumbersFresh (w.ctx h)))

/-! ## The invariant -/

/-- Every manifest adds its blocks in order, and every registered handle has the blocks of
the records that it has passed. -/
structure InOrder (w : World) : Prop where
  logs : w.folder.InOrder
  placed : ∀ (n : Nat) (h : FileActiveStatus), w.files[n]? = some h → h.activeId ≠ none →
    h.Placed w.folder
  opening : ∀ (n : Nat) (h : FileActiveStatus), w.files[n]? = some h → h.pc.isOpening = true →
    h.blockArray = []

theorem inOrder_init (cfg : Config) : (init cfg).InOrder where
  logs k := ⟨[], by simp [init, ManifestFolder.empty, ManifestFolder.content], .nil⟩
  placed n h hn := by simp [init] at hn
  opening n h hn := by simp [init] at hn

namespace InOrder

/-- A critical section of a handle that stands between two records. -/
theorem sheet (hw : w.InOrder) (hlogged : w.Logged) (hfit : w.RecordsFit)
    (hn : w.files[n]? = some h) (hattached : h.Attached) {own : Nat}
    (hpos : h.Position (fun _ => True) False own w.folder) (hplaced : h.Placed w.folder) :
    Sheet own False (w.ctx h) := by
  obtain ⟨done, pending, hfd, hcontent, -⟩ := hpos
  refine ⟨hw.logs, hlogged.owner n h _ hn hattached hfd, done, pending, hfd, hcontent,
    fun h => h.elim, fun e he => ?_, hplaced own done pending hfd hcontent⟩
  obtain ⟨j, hj⟩ := mem_logBytes.mp (List.mem_append_right done he)
  exact hfit own e j (by rw [hcontent]; exact hj)

/-- The same where the handle is known to catch up. -/
theorem sheet_of_catchUp (hw : w.InOrder) (hlogged : w.Logged) (hn : w.files[n]? = some h)
    (hactive : h.activeId ≠ none) {own : Nat} (hpos : h.Position (fun _ => True) False own w.folder)
    {c : Ctx} (hrun : FileActiveStatus.catchUpManifestLogs (w.ctx h) = .ok () c) :
    Sheet own False (w.ctx h) := by
  obtain ⟨done, pending, hfd, hcontent, -⟩ := hpos
  exact ⟨hw.logs, hlogged.owner n h _ hn (Or.inl hactive) hfd, done, pending, hfd, hcontent,
    fun h => h.elim, FileActiveStatus.catchUp_fits hfd ⟨hcontent, rfl⟩ hrun,
    hw.placed n h hn hactive own done pending hfd hcontent⟩

/-- A step after which every handle is as it was or has been looked at. -/
theorem of_handles (hw : w.InOrder) (hlogged : w.Logged) (hsafe : w.AppendSafe act)
    (hstep : step cfg w act = some w') (hlogs : w'.folder.InOrder)
    (hhandles : ∀ (m : Nat) (x : FileActiveStatus), w'.files[m]? = some x →
      w.files[m]? = some x ∨ ((x.activeId ≠ none → x.Placed w'.folder) ∧
        (x.pc.isOpening = true → x.blockArray = []))) : w'.InOrder := by
  refine ⟨hlogs, fun m x hm' hactive => ?_, fun m x hm' hopen => ?_⟩
  · rcases hhandles m x hm' with hm | ⟨hplaced, -⟩
    · obtain ⟨own, hpos⟩ := hlogged.position m x hm hactive
      refine (hw.placed m x hm hactive).of_grown hpos ?_
      obtain ⟨done, pending, hfd, -⟩ := hpos
      exact hlogged.stays hsafe hstep hm hm' hactive hfd
    · exact hplaced hactive
  · rcases hhandles m x hm' with hm | ⟨-, hopening⟩
    · exact hw.opening m x hm hopen
    · exact hopening hopen

/-- A step that replaces handle `n`. -/
theorem of_set (hw : w.InOrder) (hlogged : w.Logged) (hsafe : w.AppendSafe act)
    (hstep : step cfg w act = some w') (hlogs : w'.folder.InOrder)
    (hfiles : w'.files = w.files.set n h') (hplaced : h'.activeId ≠ none → h'.Placed w'.folder)
    (hopening : h'.pc.isOpening = true → h'.blockArray = []) : w'.InOrder := by
  refine hw.of_handles hlogged hsafe hstep hlogs fun m x hm => ?_
  rcases files_set_cases hfiles hm with ⟨-, rfl⟩ | ⟨-, hm⟩
  · exact Or.inr ⟨hplaced, hopening⟩
  · exact Or.inl hm

/-- Thread-local work of a handle. -/
theorem of_local (hw : w.InOrder) (hlogged : w.Logged) (hsafe : w.AppendSafe act)
    (hstep : step cfg w act = some w') (hn : w.files[n]? = some h) (hlocal : Local n w w') :
    w'.InOrder := by
  obtain ⟨h', hl, hfiles⟩ := hlocal.files h hn
  have harray : h'.blockArray = h.blockArray := by
    obtain ⟨pc, loadMutex, stream, pos, -, rfl⟩ := hl
    rfl
  refine hw.of_set hlogged hsafe hstep (hlocal.folder ▸ hw.logs) hfiles (fun hactive => ?_)
    fun hopen => ?_
  · rw [hlocal.folder]
    exact (hw.placed n h hn (hl.sameIdentity.activeId ▸ hactive)).of_same hl.fd harray
  · rw [harray]
    exact hw.opening n h hn (hl.sameIdentity.opening hopen)

end InOrder

/-! ## Steps -/

/-- A step of a registered handle keeps its sheet, until the handle leaves. -/
theorem stepFile_filed {own : Nat} (hn : w.files[n]? = some h) (hsheet : Sheet own False (w.ctx h))
    (hfresh : h.pc = .extend → FileActiveStatus.NumbersFresh (w.ctx h))
    (hopening : h.pc.isOpening = false) (hstep : w.stepFile cfg n h = some w') :
    ∃ c, FileActiveStatus.Filed own c ∧ Reflects n w w' c := by
  have hfiled : FileActiveStatus.Filed own (w.ctx h) := FileActiveStatus.filed_of_sheet hsheet
  have hlocal : ∀ {w₁ : World}, Local n w w₁ → ∃ c, FileActiveStatus.Filed own c ∧
      Reflects n w w₁ c :=
    fun hl => ⟨w.ctx h, hfiled, reflects_of_local hn hl⟩
  have hsection : ∀ {α : Type} {prog : StatusM α} {call : Option Call} {next : α → World → World},
      Keeps (Sheet own False) prog → (∀ a w₁, Local n w₁ (next a w₁)) →
      ∃ c, FileActiveStatus.Filed own c ∧ Reflects n w (w.runFile n h call prog next) c := by
    intro α prog call next hprog hnext
    refine runFile_reflects hn (hprog.conseq (fun _ hs => hs ▸ hsheet) (fun _ _ hc => ?_)
      fun _ _ hc => ?_) hnext
    · exact FileActiveStatus.filed_of_sheet hc
    · exact FileActiveStatus.filed_of_sheet hc
  unfold stepFile at hstep
  cases hpc : h.pc with
  | openManifest => rw [hpc] at hopening; cases hopening
  | regist => rw [hpc] at hopening; cases hopening
  | idle => rw [hpc] at hstep; cases hstep
  | closed => rw [hpc] at hstep; cases hstep
  | adjust =>
      simp only [hpc] at hstep
      split at hstep
      · cases hstep
      · cases hstep
        exact hlocal (setFile_local hn (FileActiveStatus.adjustActiveBlock_local cfg h))
  | acquire caller =>
      simp only [hpc, Option.some.injEq] at hstep
      subst hstep
      exact hsection (Keeps.bind (FileActiveStatus.acquireFirst_sheet cfg) fun loop =>
        FileActiveStatus.afterEvictRound_sheet caller loop) fun _ w₁ => .refl n w₁
  | evictRead caller loop =>
      simp only [hpc, Option.some.injEq] at hstep
      subst hstep
      cases w.evictRead cfg loop.evictBlockInfo with
      | ok buffer => exact hlocal (setFile_local hn (.of_pc rfl))
      | error e => exact hlocal (raise_local hn _ e)
  | evictPut caller loop buffer =>
      simp only [hpc, Option.some.injEq] at hstep
      subst hstep
      exact ⟨w.ctx h, hfiled, rfl, rfl, rfl, _, .of_pc rfl, rfl⟩
  | evictFinish caller loop =>
      simp only [hpc, Option.some.injEq] at hstep
      subst hstep
      exact hsection (Keeps.bind (FileActiveStatus.acquireNext_sheet loop) fun loop =>
        FileActiveStatus.afterEvictRound_sheet caller loop) fun _ w₁ => .refl n w₁
  | extend =>
      simp only [hpc, Option.some.injEq] at hstep
      subst hstep
      have hprog : Spec (· = w.ctx h) FileActiveStatus.extendOneBlock
          (fun _ => FileActiveStatus.Filed own) (fun _ => FileActiveStatus.Filed own) := by
        refine FileActiveStatus.extendOneBlock_sheet.conseq ?_
          (fun _ _ hc => FileActiveStatus.filed_of_sheet hc)
          fun _ _ hc => FileActiveStatus.filed_of_sheet hc
        rintro c rfl
        exact ⟨hsheet, hfresh hpc⟩
      exact runFile_reflects hn hprog fun _ _ => mapFile_local FileActiveStatus.leaveAdjust_local
  | activate caller =>
      simp only [hpc, Option.some.injEq] at hstep
      subst hstep
      refine hsection (FileActiveStatus.activateBlock_sheet cfg _) fun result w₁ => ?_
      exact Local.trans (mapFile_local fun x => FileActiveStatus.afterActivate_local caller _ x)
        (enqueue_local n n _ result)
  | wait =>
      simp only [hpc] at hstep
      split at hstep
      · cases hstep
      · cases hstep
        exact hlocal (setFile_local hn (FileActiveStatus.waitActive_local h))
  | ready =>
      simp only [hpc, Option.some.injEq] at hstep
      subst hstep
      exact hsection (FileActiveStatus.getCurBlockInfo_sheet cfg) fun _ w₁ => .refl n w₁
  | transfer =>
      simp only [hpc, Option.some.injEq] at hstep
      subst hstep
      cases hrun : h.transferChunk cfg w.space with
      | ok result =>
          exact ⟨w.ctx h, hfiled, rfl, rfl, rfl, result.1,
            FileActiveStatus.transferChunk_local hrun, rfl⟩
      | error e => exact hlocal (raise_local hn _ e)
  | advance count =>
      simp only [hpc, Option.some.injEq] at hstep
      subst hstep
      exact hsection (FileActiveStatus.advance_sheet cfg count) fun _ w₁ => settle_local n n w₁
  | flush =>
      simp only [hpc, Option.some.injEq] at hstep
      subst hstep
      refine hsection (FileActiveStatus.flush_sheet cfg) fun _ w₁ => ?_
      exact Local.trans (mapFile_local fun x => .of_pc rfl) (local_of_same rfl rfl rfl rfl rfl rfl)
  | close isCancel =>
      simp only [hpc, Option.some.injEq] at hstep
      subst hstep
      exact runFile_reflects hn ((FileActiveStatus.close_filed cfg isCancel).weaken_pre
        fun _ hs => hs ▸ hsheet) fun _ _ => mapFile_local fun _ => .of_pc rfl
  | deleteRemote isCancel blocks =>
      simp only [hpc, Option.some.injEq] at hstep
      subst hstep
      cases blocks with
      | nil =>
          exact hlocal ((setFile_local hn (.of_pc rfl)).trans
            (local_of_same rfl rfl rfl rfl rfl rfl))
      | cons block rest => exact ⟨w.ctx h, hfiled, rfl, rfl, rfl, _, .of_pc rfl, rfl⟩

/-- An eviction by an admin logs a record in the manifest of the evicted file. -/
theorem stepAdmin_folder {a : AdminActiveStatus} (hstep : w.stepAdmin cfg n a = some w') :
    w'.folder = w.folder ∨ ∃ info, w'.folder = (w.adminLogEvict n info).folder := by
  unfold stepAdmin at hstep
  split at hstep
  · cases hstep
    split <;> exact Or.inl rfl
  · cases hstep
    split
    · split <;> exact Or.inl rfl
    · split <;> exact Or.inl rfl
  · cases hstep
    split <;> exact Or.inl rfl
  · cases hstep
    exact Or.inl rfl
  · cases hstep
    unfold adminFinish
    dsimp only
    split
    · exact Or.inl rfl
    · split
      · exact Or.inl rfl
      · next info _ _ =>
          split
          · split
            · refine Or.inr ⟨info, ?_⟩
              unfold adminLogEvict
              dsimp only [setAdmin]
              split <;> rfl
            · exact Or.inl rfl
          · exact Or.inl rfl
  · cases hstep
    split <;> exact Or.inl rfl
  · cases hstep

namespace InOrder

theorem adminLogEvict (hw : w.InOrder) (hlogged : w.Logged) (info : BlockInfo) :
    (w.adminLogEvict n info).folder.InOrder := by
  unfold World.adminLogEvict
  cases hlink : w.folder.links info.fileId with
  | none => exact hw.logs
  | some file =>
      exact hw.logs.mfWrite ⟨file, (w.folder.content file).length⟩ (hlogged.links _ _ hlink) rfl
        fun entries _ h => h.snoc_quiet rfl

/-- A critical section of handle `n`. -/
theorem of_filed (hw : w.InOrder) (hlogged : w.Logged) (hsafe : w.AppendSafe act)
    (hstep : step cfg w act = some w') {own : Nat} {c : Ctx} (hc : FileActiveStatus.Filed own c)
    (hreflects : Reflects n w w' c)
    (hopening : ∀ h', w'.files[n]? = some h' → h'.pc.isOpening = true → h'.blockArray = []) :
    w'.InOrder := by
  obtain ⟨h', hlocal, hfiles⟩ := hreflects.files
  refine hw.of_handles hlogged hsafe hstep (hreflects.folder ▸ hc.1) fun m x hm => ?_
  rcases files_set_cases hfiles hm with ⟨rfl, rfl⟩ | ⟨-, hm⟩
  · refine Or.inr ⟨fun hactive => ?_, hopening x hm⟩
    rw [hreflects.folder]
    have hplaced := FileActiveStatus.placed_of_sheet
      (hc.2 (hlocal.sameIdentity.activeId ▸ hactive))
    obtain ⟨pc, loadMutex, stream, pos, -, rfl⟩ := hlocal
    exact hplaced.of_same rfl rfl
  · exact Or.inl hm

/-- The step that registers a handle. -/
theorem of_regist (hw : w.InOrder) (hlogged : w.Logged) (hsafe : w.AppendSafe (.file n))
    (hn : w.files[n]? = some h) (hpc : h.pc = .regist) (hstep : w.stepFile cfg n h = some w') :
    w'.InOrder := by
  have hstep' : step cfg w (.file n) = some w' := by
    simp only [step, hn]
    exact hstep
  obtain ⟨own, hpos⟩ := hlogged.position_of_regist hn hpc
  -- nothing has been read, and there are no blocks
  have hplaced : h.Placed w.folder := by
    intro own' done pending hdone _
    obtain ⟨own₀, hfd⟩ := (hlogged.opening n h hn (by rw [hpc]; rfl)).2.2.1 hpc
    rw [hfd] at hdone
    have hlength : 0 = (logBytes done).length := (Descriptor.mk.inj (Option.some.inj hdone)).2
    have hle := length_le_logBytes done
    obtain rfl : done = [] := List.length_eq_zero_iff.mp (by omega)
    rw [hw.opening n h hn (by rw [hpc]; rfl)]
    rfl
  have hsheet := hw.sheet hlogged hsafe.1 hn (Or.inr (by rw [hpc]; rfl)) hpos hplaced
  have hspec := FileActiveStatus.registInSharedMem_sheet (w.ctx h) hsheet
  have hrun := stepFile_regist hpc hstep
  revert hspec hrun
  cases FileActiveStatus.registInSharedMem (w.ctx h) with
  | ok u c =>
      rintro hc ⟨pc, hopening, hfiles, -, -, hfolder⟩
      refine hw.of_set hlogged hsafe hstep' (hfolder ▸ hc.logs) hfiles (fun _ => ?_) fun hopen => ?_
      · rw [hfolder]
        exact (FileActiveStatus.placed_of_sheet hc).of_same rfl rfl
      · exact absurd (hopening.symm.trans hopen) Bool.false_ne_true
  | error e c =>
      rintro hc ⟨hfiles, -, -, hfolder⟩
      refine hw.of_set hlogged hsafe hstep' (hfolder ▸ hc.logs) hfiles (fun _ => ?_) fun hopen => ?_
      · rw [hfolder]
        exact (FileActiveStatus.placed_of_sheet hc).of_same rfl rfl
      · cases hopen

/-- A step of a handle's thread. -/
theorem of_file (hw : w.InOrder) (hlogged : w.Logged) (hsafe : w.NumberSafe (.file n))
    (hn : w.files[n]? = some h) (hstep : w.stepFile cfg n h = some w') : w'.InOrder := by
  have hstep' : step cfg w (.file n) = some w' := by
    simp only [step, hn]
    exact hstep
  by_cases hactive : h.activeId = none
  · have hquiet := hlogged.quiet n h hn hactive
    cases hpc : h.pc with
    | openManifest =>
        unfold stepFile at hstep
        simp only [hpc, Option.some.injEq] at hstep
        subst hstep
        have hcontent := (w.folder.mfOpen_spec h.fileId hlogged.links).1
        refine hw.of_set hlogged hsafe.1 hstep' (fun k => ?_) rfl
          (fun hsome => absurd hactive hsome)
          fun _ => hw.opening n h hn (by rw [hpc]; rfl)
        obtain ⟨entries, hentries, hnumbered⟩ := hw.logs k
        exact ⟨entries, (hcontent k).trans hentries, hnumbered⟩
    | regist => exact hw.of_regist hlogged hsafe.1 hn hpc hstep
    | deleteRemote isCancel blocks =>
        unfold stepFile at hstep
        simp only [hpc, Option.some.injEq] at hstep
        subst hstep
        have hleft : ∀ (pc : Pc) {w₁ : World}, step cfg w (.file n) = some w₁ →
            pc.isOpening = false →
            w₁.files = w.files.set n { h with pc := pc } → w₁.folder = w.folder → w₁.InOrder := by
          intro pc w₁ hstep₁ hopening hfiles hfolder
          refine hw.of_set hlogged hsafe.1 hstep₁ (hfolder ▸ hw.logs) hfiles
            (fun hsome => absurd hactive hsome) fun hopen => ?_
          exact absurd (hopening.symm.trans hopen) Bool.false_ne_true
        cases blocks with
        | nil => exact hleft .closed hstep' rfl rfl rfl
        | cons block rest => exact hleft (.deleteRemote isCancel rest) hstep' rfl rfl rfl
    | idle => simp [stepFile, hpc] at hstep
    | closed => simp [stepFile, hpc] at hstep
    | _ => simp [hpc, Pc.isQuiet] at hquiet
  · obtain ⟨own, hpos⟩ := hlogged.position n h hn hactive
    have hopening : h.pc.isOpening = false := by
      cases hopen : h.pc.isOpening with
      | false => rfl
      | true => exact absurd (hlogged.opening n h hn hopen).1 hactive
    have hfresh : h.pc = .extend → FileActiveStatus.NumbersFresh (w.ctx h) := fun hpc =>
      hsafe.2 h (by simp [extending, hn, hpc])
    obtain ⟨c, hc, hreflects⟩ := stepFile_filed hn (hw.sheet hlogged hsafe.1.1 hn (Or.inl hactive)
      hpos (hw.placed n h hn hactive)) hfresh hopening hstep
    refine hw.of_filed hlogged hsafe.1 hstep' hc hreflects fun h' hn' hopen => ?_
    have := hlogged.not_opening hsafe.1.1 hn hactive hstep hn'
    exact absurd (this.symm.trans hopen) Bool.false_ne_true

/-- The end of a load in a handle. -/
theorem of_finishLoad (hw : w.InOrder) (hlogged : w.Logged) {i : Nat}
    (hsafe : w.AppendSafe (.load i)) (hn : w.files[n]? = some h) {prog : StatusM Unit}
    (hstep : step cfg w (.load i) = some (w.finishLoad i n h prog))
    (hthread : Keeps (FileActiveStatus.OnThread h.thread) prog)
    (hdetached : h.activeId = none →
      Spec (· = w.ctx h) prog (fun _ => (· = w.ctx h)) (fun _ => (· = w.ctx h)))
    (hattached : ∀ own, h.activeId ≠ none → Sheet own False (w.ctx h) →
      Spec (· = w.ctx h) prog (fun _ => Sheet own False) (fun _ => Sheet own False)) :
    (w.finishLoad i n h prog).InOrder := by
  by_cases hactive : h.activeId = none
  · obtain ⟨_, h', rfl, hlocal, -, hfiles, -, -, hfolder⟩ :=
      finishLoad_cases (i := i) (n := n) (hdetached hactive)
    have harray : h'.blockArray = h.blockArray := by
      obtain ⟨pc, loadMutex, stream, pos, -, rfl⟩ := hlocal
      rfl
    refine hw.of_set hlogged hsafe hstep (hfolder ▸ hw.logs) hfiles (fun hsome => ?_)
      fun hopen => ?_
    · exact absurd (hlocal.sameIdentity.activeId.trans hactive) hsome
    · rw [harray]
      exact hw.opening n h hn (hlocal.sameIdentity.opening hopen)
  · obtain ⟨own, hpos⟩ := hlogged.position n h hn hactive
    have hsheet := hw.sheet hlogged hsafe.1 hn (Or.inl hactive) hpos (hw.placed n h hn hactive)
    have hprog := (hattached own hactive hsheet).and (hthread.weaken_pre fun c hc => hc ▸ rfl)
    obtain ⟨c, h', ⟨hc, hsame⟩, hlocal, hpc, hfiles, -, -, hfolder⟩ :=
      finishLoad_cases (i := i) (n := n) hprog
    refine hw.of_set hlogged hsafe hstep (hfolder ▸ hc.logs) hfiles (fun _ => ?_) fun hopen => ?_
    · rw [hfolder]
      have hplaced := FileActiveStatus.placed_of_sheet hc
      obtain ⟨pc, loadMutex, stream, pos, -, rfl⟩ := hlocal
      exact hplaced.of_same rfl rfl
    · -- the calling thread of a registered handle is not opening the file
      have hopen' : h.pc.isOpening = true := by
        rw [hpc, show c.self.pc = h.pc from congrArg Thread.pc hsame] at hopen
        exact hopen
      exact absurd (hlogged.opening n h hn hopen').1 hactive

/-- A step of a loader thread. -/
theorem of_load (hw : w.InOrder) (hlogged : w.Logged) {i : Nat} {task : LoadTask}
    (hsafe : w.AppendSafe (.load i)) (hi : w.tasks[i]? = some task)
    (hstep : w.stepLoad cfg i task = some w') : w'.InOrder := by
  have hstep' : step cfg w (.load i) = some w' := by
    simp only [step, hi]
    exact hstep
  -- the steps before the end of the load
  have hidle : w'.files = w.files → w'.folder = w.folder → w'.InOrder := by
    intro hfiles hfolder
    exact hw.of_handles hlogged hsafe hstep' (hfolder ▸ hw.logs) fun m x hm => Or.inl (hfiles ▸ hm)
  unfold stepLoad at hstep
  cases hphase : task.phase with
  | start =>
      simp only [hphase, Option.some.injEq] at hstep
      subst hstep
      split at hidle
      · exact hidle rfl rfl
      · exact hidle rfl rfl
  | fetched data =>
      simp only [hphase] at hstep
      split at hstep
      · cases hstep
        exact hidle rfl rfl
      · cases hstep
        exact hidle rfl rfl
  | stored size =>
      simp only [hphase] at hstep
      cases hstep
      exact hidle rfl rfl
  | removed size =>
      simp only [hphase] at hstep
      split at hstep
      · cases hstep
      · next h hn =>
          split at hstep
          · cases hstep
          · cases hstep
            refine hw.of_finishLoad hlogged hsafe hn hstep'
              (FileActiveStatus.loadSucceeded_thread cfg _ _)
              (fun hnone => loadSucceeded_detached hnone cfg _ _) fun own hactive hsheet => ?_
            have hend := hsafe.2 task (by simp [completing, hi, LoadTask.isRemoved, hphase]) h hn
            have hcaught : Sheet own True (w.ctx h) := by
              obtain ⟨hlogs, hown, done, pending, hfd, hcontent, -, hfits, hids⟩ := hsheet
              refine ⟨hlogs, hown, done, pending, hfd, hcontent, fun _ => ?_, hfits, hids⟩
              have hlength : (logBytes done).length = (w.folder.content own).length := hend _ hfd
              rw [show w.folder.content own = logBytes (done ++ pending) from hcontent,
                logBytes_append, List.length_append] at hlength
              have := length_le_logBytes pending
              exact List.length_eq_zero_iff.mp (by omega)
            exact (FileActiveStatus.loadSucceeded_sheet cfg _ _).conseq (fun c hc => hc ▸ hcaught)
              (fun _ _ hc => hc.of_caught) fun _ _ hc => hc.of_caught
  | failed =>
      simp only [hphase] at hstep
      split at hstep
      · cases hstep
      · next h hn =>
          split at hstep
          · cases hstep
          · cases hstep
            exact hw.of_finishLoad hlogged hsafe hn hstep' (FileActiveStatus.loadFailed_thread _)
              (fun hnone => loadFailed_detached hnone _) fun own hactive hsheet =>
                (FileActiveStatus.loadFailed_sheet _).weaken_pre fun c hc => hc ▸ hsheet

end InOrder

/-- Every safe step keeps the blocks in order. -/
theorem inOrder_step (hw : w.InOrder) (hlogged : w.Logged) (hsafe : w.NumberSafe act)
    (hstep : step cfg w act = some w') : w'.InOrder := by
  have hstep' := hstep
  have hidle : w'.files = w.files → w'.folder.InOrder → w'.InOrder := by
    intro hfiles hlogs
    exact hw.of_handles hlogged hsafe.1 hstep hlogs fun m x hm => Or.inl (hfiles ▸ hm)
  cases act with
  | openFile hashcode isCreate isSequence type pid =>
      simp only [step, Option.some.injEq] at hstep
      subst hstep
      obtain ⟨h, hnew, -⟩ := w.openFile_isNew cfg (makeFileId hashcode) isCreate isSequence type pid
      refine hw.of_handles hlogged hsafe.1 hstep' (hnew.folder ▸ hw.logs) fun m x hm => ?_
      rcases hnew.cases hm with hm | ⟨-, rfl⟩
      · exact Or.inl hm
      · refine Or.inr ⟨fun hactive => absurd hnew.activeId hactive, fun _ => ?_⟩
        have harray : (w.openFile cfg (makeFileId hashcode) isCreate isSequence type pid).files.map
            FileActiveStatus.blockArray = w.files.map FileActiveStatus.blockArray ++ [[]] := by
          unfold openFile
          dsimp only
          split <;> simp
        rw [hnew.files, List.map_append] at harray
        exact List.singleton_inj.mp (List.append_cancel_left harray)
  | call n call =>
      simp only [step] at hstep
      split at hstep
      · next h hn =>
          split at hstep
          · cases hstep
            exact hw.of_local hlogged hsafe.1 hstep' hn (startCall_local hn call)
          · cases hstep
      · cases hstep
  | file n =>
      simp only [step] at hstep
      split at hstep
      · next h hn => exact hw.of_file hlogged hsafe hn hstep
      · cases hstep
  | failUpload n =>
      simp only [step] at hstep
      split at hstep
      · next h hn =>
          split at hstep
          · cases hstep
            exact hw.of_local hlogged hsafe.1 hstep' hn (raise_local hn _ _)
          · cases hstep
      · cases hstep
  | load i =>
      simp only [step] at hstep
      split at hstep
      · next task hi => exact hw.of_load hlogged hsafe.1 hi hstep
      · cases hstep
  | failLoad i =>
      simp only [step, failLoad] at hstep
      split at hstep
      · split at hstep
        · cases hstep
          exact hidle rfl hw.logs
        · cases hstep
          exact hidle rfl hw.logs
        · cases hstep
      · cases hstep
  | openAdmin pid =>
      simp only [step, Option.some.injEq] at hstep
      subst hstep
      exact hidle rfl hw.logs
  | admin n =>
      simp only [step] at hstep
      split at hstep
      · refine hidle (stepAdmin_step hstep).files ?_
        rcases stepAdmin_folder hstep with hfolder | ⟨info, hfolder⟩
        · exact hfolder ▸ hw.logs
        · exact hfolder ▸ hw.adminLogEvict hlogged info
      · cases hstep
  | evictBlocks n | closeAdmin n | failAdminUpload n =>
      simp only [step] at hstep
      split at hstep
      · split at hstep
        · cases hstep
          exact hidle rfl hw.logs
        · cases hstep
      · cases hstep

/-- Every state of a safe run. -/
theorem inOrder_run (hrun : Run (step cfg) NumberSafe (init cfg) w) : w.Logged ∧ w.InOrder := by
  induction hrun with
  | start => exact ⟨logged_init cfg, inOrder_init cfg⟩
  | step act _ hsafe hstep ih =>
      exact ⟨(logged_step ih.1 hsafe.1 hstep).1, inOrder_step ih.2 ih.1 hsafe hstep⟩

/-! ## Numbers and positions -/

/-- The extensions in a manifest carry different numbers, a registered handle that catches
up has every block at its number, and handles that have the same manifest open then have
the same blocks. -/
structure BlocksNumbered (w : World) : Prop where
  distinct : ∀ (k : Nat) (entries : List LogEntry), w.folder.content k = logBytes entries →
    ∀ (i j : Nat) (e e' : LogEntry), entries[i]? = some e → entries[j]? = some e' →
      e.record.type = .extendBlock → e'.record.type = .extendBlock →
      ∀ id ∈ blockIds e.record.blocks, id ∈ blockIds e'.record.blocks → i = j
  positions : ∀ (n : Nat) (h : FileActiveStatus) (c : Ctx), w.files[n]? = some h →
    h.activeId ≠ none → FileActiveStatus.catchUpManifestLogs (w.ctx h) = .ok () c →
      ∀ (i : Nat) (block : Block), c.self.blockArray[i]? = some block → block.blockId = some i
  alike : ∀ (n n' : Nat) (h h' : FileActiveStatus) (fd fd' : Descriptor) (c c' : Ctx),
    w.files[n]? = some h → w.files[n']? = some h' → h.activeId ≠ none → h'.activeId ≠ none →
      h.fd = some fd → h'.fd = some fd' → fd.file = fd'.file →
      FileActiveStatus.catchUpManifestLogs (w.ctx h) = .ok () c →
      FileActiveStatus.catchUpManifestLogs (w.ctx h') = .ok () c' →
      blockIds c.self.blockArray = blockIds c'.self.blockArray

/-- A number is added by one record. -/
theorem index_unique {entries : List LogEntry} (hnodup : (addedBy entries).Nodup) :
    ∀ {i j : Nat} {e e' : LogEntry} {id : Option Nat}, entries[i]? = some e →
    entries[j]? = some e' →
      id ∈ e.record.added → id ∈ e'.record.added → i = j := by
  induction entries with
  | nil =>
      intro i j e e' id hi
      cases hi
  | cons first rest ih =>
      intro i j e e' id hi hj he he'
      have hsplit : addedBy (first :: rest) = first.record.added ++ addedBy rest := rfl
      rw [hsplit, List.nodup_append] at hnodup
      have hrest : ∀ {k : Nat} {x : LogEntry}, rest[k]? = some x → id ∈ x.record.added →
          id ∈ addedBy rest :=
        fun hk hx => List.mem_flatMap.mpr ⟨_, List.mem_of_getElem? hk, hx⟩
      cases i with
      | zero =>
          cases j with
          | zero => rfl
          | succ j =>
              obtain rfl := Option.some.inj hi
              exact absurd rfl (hnodup.2.2 id he id (hrest hj he'))
      | succ i =>
          cases j with
          | zero =>
              obtain rfl := Option.some.inj hj
              exact absurd rfl (hnodup.2.2 id he' id (hrest hi he))
          | succ j => exact congrArg Nat.succ (ih hnodup.2.1 hi hj he he')

theorem added_of_extend {r : Record} (htype : r.type = .extendBlock) :
    r.added = blockIds r.blocks := by
  simp [Record.added, htype, RecordType.adds]

/-- A handle that catches up has the blocks of its whole log. -/
theorem InOrder.caughtUp (hw : w.InOrder) (hlogged : w.Logged) (hn : w.files[n]? = some h)
    (hactive : h.activeId ≠ none) {fd : Descriptor} (hfd : h.fd = some fd) {c : Ctx}
    (hrun : FileActiveStatus.catchUpManifestLogs (w.ctx h) = .ok () c) :
    ∃ entries, w.folder.content fd.file = logBytes entries ∧
      blockIds c.self.blockArray = addedBy entries ∧ Consecutive (addedBy entries) := by
  obtain ⟨own, hpos⟩ := hlogged.position n h hn hactive
  have hsheet := hw.sheet_of_catchUp hlogged hn hactive hpos hrun
  have hcaught := Spec.of_ok FileActiveStatus.catchUp_sheet hsheet hrun
  have hquiet := (FileActiveStatus.catchUpManifestLogs_quiet (w.ctx h)).ok
    (s := w.ctx h) ⟨.refl _, rfl, rfl, rfl⟩ hrun
  have hconsecutive := hcaught.consecutive
  obtain ⟨done, pending, -, hcontent, hnil, -, hids⟩ := hcaught.place
  obtain rfl := hnil trivial
  obtain ⟨done', pending', hfd', -⟩ := hpos
  obtain rfl : fd = ⟨own, (logBytes done').length⟩ := Option.some.inj (hfd.symm.trans hfd')
  rw [hquiet.2.2.2, List.append_nil] at hcontent
  exact ⟨done, hcontent, hids, hids ▸ hconsecutive⟩

/-- The number for a new block is taken before the log is replayed. If it is taken only
where catching up brings no block, then whatever the interleaving of the handles, the
blocks of a file are numbered in one way. -/
theorem blocks_numbered (cfg : Config) (w : World)
    (hrun : Run (step cfg) NumberSafe (init cfg) w) : w.BlocksNumbered := by
  obtain ⟨hlogged, hw⟩ := inOrder_run hrun
  refine ⟨fun k entries hentries i j e e' hi hj htype htype' id hid hid' => ?_,
    fun n h c hn hactive hcatch i block hblock => ?_,
    fun n n' h h' fd fd' c c' hn hn' hactive hactive' hfd hfd' hfile hcatch hcatch' => ?_⟩
  · obtain ⟨entries', hentries', hnumbered⟩ := hw.logs k
    obtain rfl := logBytes_injective (hentries'.symm.trans hentries)
    rw [← added_of_extend htype] at hid
    rw [← added_of_extend htype'] at hid'
    exact index_unique hnumbered.consecutive.nodup hi hj hid hid'
  · obtain ⟨own, done, pending, hfd, -⟩ := hlogged.position n h hn hactive
    obtain ⟨entries, -, hids, hconsecutive⟩ := hw.caughtUp hlogged hn hactive hfd hcatch
    rw [← hids] at hconsecutive
    refine hconsecutive.getElem? ?_
    rw [blockIds, List.getElem?_map, hblock]
    rfl
  · obtain ⟨entries, hcontent, hids, -⟩ := hw.caughtUp hlogged hn hactive hfd hcatch
    obtain ⟨entries', hcontent', hids', -⟩ := hw.caughtUp hlogged hn' hactive' hfd' hcatch'
    rw [hfile, hcontent'] at hcontent
    rw [hids, hids', logBytes_injective hcontent]

/-- Six buckets of one byte, and a quota of two buckets for every handle. -/
def sharedConfig : Config := .intact 6 1 4 2

/-- Two handles open the file for writing. The second writes a byte and keeps a
preallocated bucket, then the first writes a byte into a block of its own. -/
def writingInTurn : List Action :=
  [.openFile 7 true false .writeFile 1, .file 0, .file 0,
    .openFile 7 true false .writeFile 2, .file 1, .file 1, .call 1 (.write [1])] ++
  List.replicate 6 (.file 1) ++ [.call 0 (.write [2])] ++ List.replicate 8 (.file 0)

/-- The first handle has nothing preallocated, so it catches up before it numbers its
block. -/
theorem blocks_numbered_writingInTurn : ∃ w, execute (step sharedConfig) NumberSafe
    (init sharedConfig) writingInTurn = some w ∧ w.BlocksNumbered := by
  have hsome : (execute (step sharedConfig) NumberSafe (init sharedConfig) writingInTurn).isSome =
      true := by decide +kernel
  obtain ⟨w, hw⟩ := Option.isSome_iff_exists.mp hsome
  exact ⟨w, hw, blocks_numbered sharedConfig w (Run.of_execute hw)⟩

/-- A handle is opened for writing, or writes. -/
def startsWrite : Action → Bool
  | .openFile _ _ _ .writeFile _ => true
  | .call _ (.write _) => true
  | _ => false

/-- A step of a handle or of a load that was started. -/
def continues : Action → Bool
  | .file _ => true
  | .load _ => true
  | _ => false

/-- Handles are opened for writing and write, one call after the other. -/
def WritesInTurn (w : World) (act : Action) : Prop :=
  continues act = true ∨ (startsWrite act = true ∧ ∀ h ∈ w.files, h.pc = .idle)

instance (w : World) (act : Action) : Decidable (w.WritesInTurn act) :=
  inferInstanceAs (Decidable (continues act = true ∨
    (startsWrite act = true ∧ ∀ h ∈ w.files, h.pc = .idle)))

/-- The second handle writes another byte: it has a bucket left and numbers its block
without catching up. -/
def writingBehind : List Action :=
  writingInTurn ++ [.call 1 (.write [3])] ++ List.replicate 5 (.file 1)

/-- The second handle has two blocks with the number of the first handle's block. -/
theorem blocks_numbered_twice : ¬ ∀ w, Run (step sharedConfig) WritesInTurn (init sharedConfig) w →
    w.BlocksNumbered := by
  intro hclaim
  have htwice : ((execute (step sharedConfig) WritesInTurn (init sharedConfig) writingBehind).any
      fun w => w.files[1]?.any fun h => h.activeId.isSome &&
        FileActiveStatus.lengthCaughtUp (w.ctx h) = some 3 &&
        ((Library.after FileActiveStatus.catchUpManifestLogs (w.ctx h)).self.blockArray[2]?.any
          fun block => block.blockId = some 1)) = true := by
    decide +kernel
  obtain ⟨w, hw, htwice⟩ := (Option.any_eq_true _ _).mp htwice
  obtain ⟨h, hn, htwice⟩ := (Option.any_eq_true _ _).mp htwice
  simp only [Bool.and_eq_true, decide_eq_true_eq] at htwice
  obtain ⟨⟨hactive, hlength⟩, hblock⟩ := htwice
  obtain ⟨block, hat, hid⟩ := (Option.any_eq_true _ _).mp hblock
  cases hrun : FileActiveStatus.catchUpManifestLogs (w.ctx h) with
  | error e c =>
      rw [FileActiveStatus.lengthCaughtUp, hrun] at hlength
      cases hlength
  | ok u c =>
      rw [Library.after, hrun] at hat
      have hactive' : h.activeId ≠ none := Option.isSome_iff_ne_none.mp hactive
      have hplace := (hclaim w (Run.of_execute hw)).positions 1 h c hn hactive' hrun 2 block hat
      rw [of_decide_eq_true hid] at hplace
      cases hplace

end World

end Gopherwood
