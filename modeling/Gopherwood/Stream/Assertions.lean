/-
# The assertions of the streams

A debug build evaluates the assertions of the two streams, of their block streams and
of `File::remaining`. A lone handle meets all of them in every call that returns, but
for a write that goes beyond the block it begins in: the branch of that write compares
the bytes written with what remains after the write, which is nothing.
-/

import Gopherwood.Stream.LoneHandle

namespace Gopherwood

open Library (Keeps Run execute)

/-- The stream is at a block: the next step is a transfer, or follows one. -/
def Pc.atBlock : Pc → Bool
  | .transfer => true
  | .advance _ => true
  | _ => false

namespace FileActiveStatus

/-- What the transfer before this position update has returned. -/
def transferred (h : FileActiveStatus) : Nat :=
  match h.pc with
  | .advance count => count
  | _ => 0

/-- The assertions that are evaluated after a transfer, which `h` was before and `h'` is
after: those of the block streams on the offset, and that of `OutputStream::write` on the
bytes written. A seek writes without a block stream, and asserts nothing. -/
def TransferAsserts (cfg : Config) (h h' : FileActiveStatus) : Prop :=
  (h.stream.transfer ≠ .skip → h'.stream.blockInfo.offset ≤ cfg.localBucketSize) ∧
    (h.stream.transfer = .write → (h'.transferred : Int) =
      if (h.stream.bytesLeft : Int) ≤ h.remaining cfg then (h.stream.bytesLeft : Int)
      else h'.remaining cfg)

/-- The assertions of the next transfer. A write that the block stream refuses has written
`-1` bytes, which the assertion on the bytes written finds. -/
def ChunkAsserts (cfg : Config) (space : List UInt8) (h : FileActiveStatus) : Prop :=
  (∀ x ∈ (h.transferChunk cfg space).toOption, h.TransferAsserts cfg x.1) ∧
    (h.stream.transfer = .write → (h.transferChunk cfg space).isOk = true)

instance (cfg : Config) (h h' : FileActiveStatus) : Decidable (h.TransferAsserts cfg h') :=
  inferInstanceAs (Decidable ((h.stream.transfer ≠ .skip → _) ∧ (h.stream.transfer = .write → _)))

instance (cfg : Config) (space : List UInt8) (h : FileActiveStatus) :
    Decidable (h.ChunkAsserts cfg space) :=
  inferInstanceAs (Decidable ((∀ x ∈ (h.transferChunk cfg space).toOption,
    h.TransferAsserts cfg x.1) ∧ (h.stream.transfer = .write → _)))

/-- The thread of the handle is where it was. -/
structure SamePoint (h h' : FileActiveStatus) : Prop where
  pos : h'.pos = h.pos
  pc : h'.pc = h.pc
  stream : h'.stream = h.stream

section Transfer

variable {cfg : Config} {h h' : FileActiveStatus} {space space' : List UInt8} {offset : Nat}

/-- What a transfer that begins within the bucket leaves. -/
structure Transfers (cfg : Config) (h : FileActiveStatus) (offset : Nat) (h' : FileActiveStatus)
    (count : Nat) : Prop where
  pc : h'.pc = .advance count
  transfer : h'.stream.transfer = h.stream.transfer
  left : h'.stream.bytesLeft = h.stream.bytesLeft
  count_le : count ≤ min h.stream.bytesLeft (cfg.localBucketSize - offset)
  count_eq : h.stream.transfer ≠ .read →
    count = min h.stream.bytesLeft (cfg.localBucketSize - offset)
  offset_le : ∃ offset' : Nat, offset' ≤ cfg.localBucketSize ∧
    h'.stream.blockInfo.offset = offset'
  offset_eq : h.stream.transfer ≠ .skip → h'.stream.blockInfo.offset = (offset + count : Nat)

theorem transfers_of_ok (hoffset : h.stream.blockInfo.offset = offset)
    (hin : offset ≤ cfg.localBucketSize)
    (hrun : h.transferChunk cfg space = .ok (h', space')) :
    ∃ count, Transfers cfg h offset h' count := by
  have hchunk := chunk_eq hoffset hin
  have hsum : ∀ count : Nat, h.stream.blockInfo.offset + count = (offset + count : Nat) := by
    intro count
    rw [hoffset]
    omega
  unfold transferChunk at hrun
  dsimp only at hrun
  split at hrun
  · next hkind =>
      cases hrun
      exact ⟨h.chunk cfg, rfl, rfl, rfl, by rw [hchunk], fun _ => hchunk, ⟨offset, hin, hoffset⟩,
        fun hno => absurd hkind hno⟩
  · split at hrun
    · split at hrun
      · cases hrun
      · cases hrun
        refine ⟨h.chunk cfg, rfl, rfl, rfl, by rw [hchunk], fun _ => hchunk,
          ⟨offset + h.chunk cfg, ?_, hsum _⟩, fun _ => hsum _⟩
        rw [hchunk]
        omega
    · cases hrun
  · next hkind =>
      split at hrun
      · next b _ _ =>
          cases hrun
          let data := readLocal space
            (localSpaceOffset cfg b h.stream.blockInfo.offset).toNat (h.chunk cfg)
          have hlength : data.length ≤ h.chunk cfg := List.length_take_le _ _
          refine ⟨data.length, rfl, rfl, rfl, hchunk ▸ hlength, fun hno => absurd hkind hno,
            ⟨offset + data.length, ?_, hsum _⟩, fun _ => hsum _⟩
          omega
      · cases hrun

/-- The offset stays within the bucket, also where less was read than asked for. -/
theorem chunkAsserts_of_inside (hoffset : h.stream.blockInfo.offset = offset)
    (hin : offset ≤ cfg.localBucketSize) (hkind : h.stream.transfer ≠ .write) :
    h.ChunkAsserts cfg space := by
  refine ⟨fun x hx => ⟨fun _ => ?_, fun hwrite => absurd hwrite hkind⟩,
    fun hwrite => absurd hwrite hkind⟩
  cases hrun : h.transferChunk cfg space with
  | error e =>
      rw [hrun] at hx
      cases hx
  | ok y =>
      rw [hrun] at hx
      obtain rfl : y = x := Option.some.inj hx
      obtain ⟨h', space'⟩ := y
      obtain ⟨count, ht⟩ := transfers_of_ok hoffset hin hrun
      obtain ⟨offset', hle, heq⟩ := ht.offset_le
      change h'.stream.blockInfo.offset ≤ _
      rw [heq]
      exact Int.ofNat_le.mpr hle

/-- The assertion on the bytes written holds exactly in the branch for the last block: after a
write to the end of the bucket nothing remains. -/
theorem chunkAsserts_write (hoffset : h.stream.blockInfo.offset = offset)
    (hin : offset < cfg.localBucketSize) (hkind : h.stream.transfer = .write)
    (hrun : h.transferChunk cfg space = .ok (h', space')) :
    h.ChunkAsserts cfg space ↔ offset + h.stream.bytesLeft ≤ cfg.localBucketSize := by
  obtain ⟨count, ht⟩ := transfers_of_ok hoffset (Nat.le_of_lt hin) hrun
  have hcount := ht.count_eq (by rw [hkind]; exact nofun)
  have hoffset' := ht.offset_eq (by rw [hkind]; exact nofun)
  have htransferred : h'.transferred = count := by
    rw [transferred, ht.pc]
  have hremaining' : h'.remaining cfg = cfg.localBucketSize - (offset + count : Nat) := by
    rw [remaining, hoffset']
  have hremaining := remaining_eq hoffset (Nat.le_of_lt hin)
  constructor
  · rintro ⟨hassert, -⟩
    have hwritten := (hassert (h', space') (by rw [hrun]; rfl)).2 hkind
    rw [htransferred, hremaining, hremaining'] at hwritten
    split at hwritten
    · omega
    · omega
  · intro hlast
    refine ⟨fun x hx => ?_, fun _ => by rw [hrun]; rfl⟩
    rw [hrun] at hx
    obtain rfl : (h', space') = x := Option.some.inj hx
    refine ⟨fun _ => ?_, fun _ => ?_⟩
    · change h'.stream.blockInfo.offset ≤ _
      rw [hoffset']
      omega
    · change (h'.transferred : Int) = if _ then _ else h'.remaining cfg
      rw [htransferred, hremaining, if_pos (by omega)]
      omega

end Transfer

end FileActiveStatus

/-- The call does not write beyond the block that it begins in. -/
def Call.StaysInBlock (cfg : Config) (h : FileActiveStatus) : Call → Prop
  | .write buffer => h.pos % cfg.localBucketSize + buffer.length ≤ cfg.localBucketSize
  | _ => True

namespace World

variable {cfg : Config} {w w' : World} {n : Nat} {h h' : FileActiveStatus} {act : Action}

/-- The assertions evaluated in a step: `File::read` asks how much remains of the file, and
a transfer asserts what it has done. -/
def Asserts (cfg : Config) (w : World) : Action → Prop
  | .call n (.read _) => ∀ h ∈ w.files[n]?, h.pos ≤ h.eof
  | .file n => ∀ h ∈ w.files[n]?, h.pc = .transfer → h.ChunkAsserts cfg w.space
  | _ => True

/-- The steps that are taken while a call is served: those of its thread, of the loader
threads and of admins. -/
def InCall (_ : World) : Action → Prop
  | .openFile _ _ _ _ _ => False
  | .call _ _ => False
  | _ => True

/-- The steps of a debug build, which goes on while the assertions hold. -/
def Debug (cfg : Config) (w : World) (act : Action) : Prop := w.InCall act ∧ w.Asserts cfg act

instance (w : World) : (act : Action) → Decidable (w.InCall act)
  | .openFile _ _ _ _ _ | .call _ _ => isFalse id
  | .file _ | .failUpload _ | .load _ | .failLoad _ | .openAdmin _ | .evictBlocks _
  | .closeAdmin _ | .admin _ | .failAdminUpload _ => isTrue trivial

instance (cfg : Config) (w : World) : (act : Action) → Decidable (w.Asserts cfg act)
  | .call n (.read _) => inferInstanceAs (Decidable (∀ h ∈ w.files[n]?, h.pos ≤ h.eof))
  | .file n => inferInstanceAs (Decidable (∀ h ∈ w.files[n]?,
      h.pc = .transfer → h.ChunkAsserts cfg w.space))
  | .call _ (.write _) | .call _ (.seekSet _) | .call _ (.seekCur _) | .call _ (.seekEnd _)
  | .call _ .flush | .call _ (.close _) | .openFile _ _ _ _ _ | .failUpload _ | .load _
  | .failLoad _ | .openAdmin _ | .evictBlocks _ | .closeAdmin _ | .admin _
  | .failAdminUpload _ => isTrue trivial

instance (cfg : Config) (w : World) (act : Action) : Decidable (Debug cfg w act) :=
  inferInstanceAs (Decidable (w.InCall act ∧ w.Asserts cfg act))

/-! ## Steps of others -/

/-- The end of a load leaves the threads where they are. -/
theorem finishLoad_aside {i m : Nat} {x : FileActiveStatus} {prog : StatusM Unit}
    (hn : w.files[n]? = some h) (hprog : IsLoadEnd cfg prog) (hm : w.files[m]? = some x) :
    (w.finishLoad i m x prog).history = w.history ∧
      ∃ h', (w.finishLoad i m x prog).files[n]? = some h' ∧ h.SamePoint h' := by
  have hset : ∀ {y : FileActiveStatus} {u : World}, u.files = w.files.set m y →
      x.SamePoint y → ∃ h', u.files[n]? = some h' ∧ h.SamePoint h' := by
    intro y u hfiles hpoint
    by_cases hmn : m = n
    · subst hmn
      obtain rfl : h = x := Option.some.inj (hn.symm.trans hm)
      exact ⟨y, by rw [hfiles]; exact getElem?_set_files hm, hpoint⟩
    · refine ⟨h, ?_, rfl, rfl, rfl⟩
      rw [hfiles, List.getElem?_set_ne hmn]
      exact hn
  have hpoint : ∀ {c : Ctx}, c.self.thread = x.thread → x.SamePoint c.self :=
    fun ht => ⟨congrArg Thread.pos ht, congrArg Thread.pc ht, congrArg Thread.stream ht⟩
  unfold finishLoad
  dsimp only
  rw [show (⟨w.shm, w.folder, w.oss, x⟩ : Ctx) = w.ctx x from rfl]
  cases hrun : prog (w.ctx x) with
  | ok u c => exact ⟨rfl, hset rfl (hpoint ((hprog.thread x.thread).ok (s := w.ctx x) rfl hrun))⟩
  | error e c =>
      have ht := hpoint ((hprog.thread x.thread).error (s := w.ctx x) rfl hrun)
      exact ⟨rfl, hset rfl ⟨ht.pos, ht.pc, ht.stream⟩⟩

/-- Admins end no calls. -/
theorem stepAdmin_history {m : Nat} {a : AdminActiveStatus}
    (hstep : w.stepAdmin cfg m a = some w') : w'.history = w.history := by
  unfold stepAdmin at hstep
  split at hstep
  · cases hstep
    split <;> rfl
  · cases hstep
    split
    · split <;> rfl
    · split <;> rfl
  · cases hstep
    split <;> rfl
  · cases hstep
    rfl
  · cases hstep
    unfold adminFinish
    dsimp only
    split
    · rfl
    · split
      · rfl
      · split
        · split
          · unfold adminLogEvict
            split <;> rfl
          · rfl
        · rfl
  · cases hstep
    split <;> rfl
  · cases hstep

/-- Loader threads and admins leave the thread of the lone handle where it is. -/
theorem Lone.aside (hw : w.Lone n) (hn : w.files[n]? = some h) (hcall : w.InCall act)
    (hfile : act ≠ .file n) (hfail : act ≠ .failUpload n) (hstep : World.step cfg w act = some w') :
    w'.history = w.history ∧ ∃ h', w'.files[n]? = some h' ∧ h.SamePoint h' := by
  have hsame : ∀ {u : World}, u.files = w.files → ∃ h', u.files[n]? = some h' ∧ h.SamePoint h' :=
    fun hfiles => ⟨h, hfiles ▸ hn, rfl, rfl, rfl⟩
  cases act with
  | openFile hashcode isCreate isSequence type pid => exact hcall.elim
  | call m call => exact hcall.elim
  | file m =>
      simp only [World.step] at hstep
      split at hstep
      · next x hm =>
          rw [hw.stepFile_other hm fun hmn => hfile (by rw [hmn])] at hstep
          cases hstep
      · cases hstep
  | failUpload m =>
      simp only [World.step] at hstep
      split at hstep
      · next x hm =>
          split at hstep
          · next hpc => exact absurd hpc (hw.no_upload hm (fun hmn => hfail (by rw [hmn])) _ _ _)
          · cases hstep
      · cases hstep
  | load i =>
      simp only [World.step] at hstep
      split at hstep
      · rcases stepLoad_cases hstep with ⟨hfiles, -, hhistory⟩ | ⟨x, prog, hprog, hm, -, rfl⟩
        · exact ⟨hhistory, hsame hfiles⟩
        · exact finishLoad_aside hn hprog hm
      · cases hstep
  | failLoad i =>
      simp only [World.step] at hstep
      split at hstep
      · unfold failLoad at hstep
        split at hstep
        · cases hstep
          exact ⟨rfl, hsame rfl⟩
        · cases hstep
          exact ⟨rfl, hsame rfl⟩
        · cases hstep
      · cases hstep
  | openAdmin pid =>
      cases hstep
      exact ⟨rfl, hsame rfl⟩
  | admin m =>
      simp only [World.step] at hstep
      split at hstep
      · exact ⟨stepAdmin_history hstep, hsame (stepAdmin_step hstep).files⟩
      · cases hstep
  | evictBlocks m | closeAdmin m | failAdminUpload m =>
      simp only [World.step] at hstep
      split at hstep
      · split at hstep
        · cases hstep
          exact ⟨rfl, hsame rfl⟩
        · cases hstep
      · cases hstep

/-! ## Reads and seeks -/

/-- The handle does not write, and its stream stays within the bucket. -/
structure OnCourse (cfg : Config) (h : FileActiveStatus) : Prop where
  kind : h.pc.inGetCurBlockInfo = true ∨ h.pc.atBlock = true → h.stream.transfer ≠ .write
  inside : h.pc.atBlock = true → ∃ offset : Nat, offset ≤ cfg.localBucketSize ∧
    h.stream.blockInfo.offset = offset

theorem OnCourse.of_pc (hlooks : h.pc.inGetCurBlockInfo = false) (hblock : h.pc.atBlock = false) :
    OnCourse cfg h := by
  refine ⟨fun hpc => ?_, fun hpc => ?_⟩
  · rw [hlooks, hblock] at hpc
    simp at hpc
  · rw [hblock] at hpc
    cases hpc

theorem OnCourse.congr (hh : OnCourse cfg h) (hpoint : h.SamePoint h') : OnCourse cfg h' := by
  obtain ⟨-, hpc, hstream⟩ := hpoint
  refine ⟨fun hat => ?_, fun hat => ?_⟩
  · rw [hpc] at hat
    rw [hstream]
    exact hh.kind hat
  · rw [hpc] at hat
    rw [hstream]
    exact hh.inside hat

theorem atBlock_of_looks {pc : Pc} (hpc : pc.inGetCurBlockInfo = true) : pc.atBlock = false := by
  cases pc with
  | transfer => cases hpc
  | advance count => cases hpc
  | _ => rfl

/-- The assertions of the next step hold. -/
theorem OnCourse.asserts (hh : OnCourse cfg h) (hpc : h.pc = .transfer) (space : List UInt8) :
    h.ChunkAsserts cfg space := by
  have hat : h.pc.atBlock = true := by
    rw [hpc]
    rfl
  obtain ⟨offset, hin, hoffset⟩ := hh.inside hat
  exact FileActiveStatus.chunkAsserts_of_inside hoffset hin (hh.kind (Or.inr hat))

theorem setPosition_stream (pos : Nat) (stream : Stream) :
    Keeps (fun c : Ctx => c.self.stream = stream) (FileActiveStatus.setPosition cfg pos) := by
  refine Keeps.bind (Keeps.modify fun _ hc => hc) fun _ => Keeps.bind Keeps.get fun _ =>
    Keeps.ite (Keeps.bind (Keeps.modify fun _ hc => hc) fun _ => ?_) Keeps.pure
  exact FileActiveStatus.keeps_of_thread
    (fun _ => FileActiveStatus.updateCurBlockSize_thread cfg) fun t => t.stream = stream

/-- The statistics of the stream loop, and its next step. -/
theorem advance_stream {count : Nat} {c c' : Ctx} {u : Unit}
    (hrun : FileActiveStatus.advance cfg count c = .ok u c') :
    c'.self.stream = { c.self.stream with
      bytesLeft := c.self.stream.bytesLeft - count, pos := c.self.stream.pos + count } ∧
      c'.self.pc = c'.self.streamPc := by
  refine ⟨?_, advance_pc hrun⟩
  obtain ⟨u₁, c₁, hmodify, hrun⟩ := Library.bind_ok hrun
  obtain rfl := FileActiveStatus.modifySelf_ok hmodify
  obtain ⟨c₀, c₂, hget, hrun⟩ := Library.bind_ok hrun
  cases hget
  obtain ⟨u₃, c₃, hset, hrun⟩ := Library.bind_ok hrun
  obtain rfl := FileActiveStatus.modifySelf_ok hrun
  change c₃.self.stream = _
  exact (setPosition_stream _ _).ok rfl hset

/-- Every step of the thread keeps the course. -/
theorem OnCourse.stepFile (hsize : 0 < cfg.localBucketSize) (hin : h.InFile w.folder)
    (hh : OnCourse cfg h) (hstep : w.stepFile cfg n h = some w') :
    ∃ h', w'.files = w.files.set n h' ∧ OnCourse cfg h' := by
  by_cases hlooks : h.pc.inGetCurBlockInfo = true
  · obtain ⟨h', hfiles, -, hstep⟩ := stepFile_looks hin hlooks hstep
    have hkind := hh.kind (Or.inl hlooks)
    refine ⟨h', hfiles, ?_⟩
    cases hstep with
    | goesOn hhistory hpos hstream hpc =>
        refine ⟨fun _ => ?_, fun hat => ?_⟩
        · rw [hstream]
          exact hkind
        · rw [atBlock_of_looks hpc] at hat
          cases hat
    | found info hhistory hpos hoffset hstream hpc =>
        refine ⟨fun _ => ?_, fun _ => ⟨h.pos % cfg.localBucketSize, ?_, ?_⟩⟩
        · rw [hstream]
          exact hkind
        · exact Nat.le_of_lt (Nat.mod_lt _ hsize)
        · rw [hstream]
          exact hoffset
    | throws e hpc hhistory => exact .of_pc (by rw [hpc]; rfl) (by rw [hpc]; rfl)
  have hidle : ∀ x : FileActiveStatus, OnCourse cfg { x with pc := .idle } :=
    fun x => .of_pc rfl rfl
  unfold World.stepFile at hstep
  cases hat : h.pc with
  | transfer =>
      simp only [hat, Option.some.injEq] at hstep
      subst hstep
      split
      · next x space hrun =>
          have hblock : h.pc.atBlock = true := by rw [hat]; rfl
          obtain ⟨offset, hle, hoffset⟩ := hh.inside hblock
          obtain ⟨count, ht⟩ := FileActiveStatus.transfers_of_ok hoffset hle hrun
          refine ⟨x, rfl, fun _ => ?_, fun _ => ht.offset_le⟩
          rw [ht.transfer]
          exact hh.kind (Or.inr hblock)
      · exact ⟨_, rfl, hidle _⟩
  | advance count =>
      have hblock : h.pc.atBlock = true := by rw [hat]; rfl
      simp only [hat, Option.some.injEq] at hstep
      subst hstep
      refine runFile_handle (fun _ _ _ => hidle _) fun a c w₁ hrun hfiles => ?_
      rw [settle_files]
      obtain ⟨hstream, -⟩ := advance_stream hrun
      refine ⟨c.self, hfiles, fun _ => ?_, fun _ => ?_⟩
      · rw [hstream]
        exact hh.kind (Or.inr hblock)
      · rw [hstream]
        exact hh.inside hblock
  | openManifest =>
      simp only [hat, Option.some.injEq] at hstep
      subst hstep
      exact ⟨_, rfl, .of_pc rfl rfl⟩
  | regist =>
      simp only [hat, Option.some.injEq] at hstep
      subst hstep
      split
      · split
        · exact ⟨_, rfl, .of_pc rfl rfl⟩
        · exact ⟨_, rfl, .of_pc rfl rfl⟩
      · exact ⟨_, rfl, .of_pc rfl rfl⟩
  | flush =>
      simp only [hat, Option.some.injEq] at hstep
      subst hstep
      exact runFile_handle (fun _ _ _ => hidle _) fun a c w₁ _ hfiles =>
        mapFile_handle hfiles (hidle _)
  | close isCancel =>
      simp only [hat, Option.some.injEq] at hstep
      subst hstep
      exact runFile_handle (fun _ _ _ => hidle _) fun a c w₁ _ hfiles =>
        mapFile_handle hfiles (.of_pc rfl rfl)
  | deleteRemote isCancel blocks =>
      simp only [hat, Option.some.injEq] at hstep
      subst hstep
      split
      · exact ⟨_, rfl, .of_pc rfl rfl⟩
      · exact ⟨_, rfl, .of_pc rfl rfl⟩
  | idle =>
      rw [hat] at hstep
      cases hstep
  | closed =>
      rw [hat] at hstep
      cases hstep
  | _ => exact absurd (by rw [hat]; rfl) hlooks

/-- A call that does not write begins on course. -/
theorem startCall_onCourse (hpc : h.pc = .idle) {call : Call}
    (hcall : ∀ buffer, call ≠ .write buffer) :
    ∃ h', (w.startCall n h call).files = w.files.set n h' ∧ OnCourse cfg h' := by
  have hidle : ∀ {x : FileActiveStatus}, x.pc = .idle → OnCourse cfg x :=
    fun hx => .of_pc (by rw [hx]; rfl) (by rw [hx]; rfl)
  have hraise : ∀ call e, ∃ h', (w.raise n h call e).files = w.files.set n h' ∧ OnCourse cfg h' :=
    fun call e => ⟨_, rfl, hidle rfl⟩
  have hstream : ∀ (x : FileActiveStatus) (stream : Stream), stream.transfer ≠ .write →
      stream.needUpdate = true →
      ∃ h', (w.startStream n x stream).files = w.files.set n h' ∧ OnCourse cfg h' := by
    intro x stream hkind hneed
    refine ⟨_, settle_files _ _, fun _ => hkind, fun hblock => ?_⟩
    change (FileActiveStatus.streamPc _).atBlock = true at hblock
    simp only [FileActiveStatus.streamPc, hneed, if_true] at hblock
    split at hblock
    · cases hblock
    · cases hblock
  have hseek : ∀ target, ∃ h', (w.startSeek n h call target).files = w.files.set n h' ∧
      OnCourse cfg h' := by
    intro target
    unfold startSeek
    split
    · exact ⟨{ h with pos := target.toNat }, rfl, hidle hpc⟩
    · split
      · split
        · exact hstream _ _ nofun rfl
        · exact hraise _ _
      · exact hraise _ _
  cases call with
  | read length => exact hstream _ _ nofun rfl
  | write buffer => exact absurd rfl (hcall buffer)
  | seekSet pos => exact hseek _
  | seekCur pos => exact hseek _
  | seekEnd pos => exact hseek _
  | flush =>
      unfold startCall
      dsimp only
      split
      · exact ⟨_, rfl, .of_pc rfl rfl⟩
      · exact hraise _ _
  | close isCancel => exact ⟨_, rfl, .of_pc rfl rfl⟩

/-! ## Writes -/

/-- The write of `length` bytes at `start` has transferred nothing yet. -/
structure Untransferred (cfg : Config) (start length : Nat) (h : FileActiveStatus) : Prop where
  transfer : h.stream.transfer = .write
  left : h.stream.bytesLeft = length
  pos : h.pos = start
  pc : h.pc.inGetCurBlockInfo = true ∨
    h.pc = .transfer ∧ h.stream.blockInfo.offset = (start % cfg.localBucketSize : Nat)

/-- How far a write has come in a debug build: after its first transfer it is done, because
the assertion holds for the last block only. -/
inductive WritePhase (cfg : Config) (n start length : Nat) (past : List CallRecord) (w : World) :
    Prop
  | writing (h : FileActiveStatus) (hn : w.files[n]? = some h) (hh : Untransferred cfg start length h)
      (hhistory : w.history = past)
  | written (h : FileActiveStatus) (hn : w.files[n]? = some h)
      (hpc : h.pc = .advance h.stream.bytesLeft) (hhistory : w.history = past)
      (hin : start % cfg.localBucketSize + length ≤ cfg.localBucketSize)
  | ended (h : FileActiveStatus) (hn : w.files[n]? = some h) (hpc : h.pc = .idle) (r : CallRecord)
      (hhistory : w.history = past ++ [r])
      (hr : (∃ e, r.outcome = .threw e) ∨
        start % cfg.localBucketSize + length ≤ cfg.localBucketSize)

variable {start length : Nat} {past : List CallRecord}

/-- A call of the lone handle has thrown. -/
def Thrown (n : Nat) (past : List CallRecord) (w : World) : Prop :=
  (∃ h, w.files[n]? = some h ∧ h.pc = .idle) ∧
    ∃ r : CallRecord, w.history = past ++ [r] ∧ ∃ e, r.outcome = .threw e

theorem thrown_raise {w₁ : World} {x : FileActiveStatus} (hn : w.files[n]? = some h)
    (hfiles : w₁.files = w.files) (hpast : w₁.history = past) (call : Option Call) (e : GwError) :
    (w₁.raise n x call e).Thrown n past := by
  refine ⟨⟨{ x with pc := .idle }, ?_, rfl⟩, _, congrArg (· ++ _) hpast, e, rfl⟩
  change (w₁.files.set n _)[n]? = _
  rw [hfiles]
  exact getElem?_set_files hn

theorem Thrown.phase (hw : w.Thrown n past) : WritePhase cfg n start length past w := by
  obtain ⟨⟨h, hn, hpc⟩, r, hhistory, hr⟩ := hw
  exact .ended h hn hpc r hhistory (Or.inl hr)

/-- The thread of a write takes a step: the assertion holds and the write goes on, or the
write throws. -/
theorem Untransferred.stepFile (hsize : 0 < cfg.localBucketSize) (hin : h.InFile w.folder)
    (hn : w.files[n]? = some h) (hh : Untransferred cfg start length h) (hpast : w.history = past)
    (hstep : w.stepFile cfg n h = some w') :
    WritePhase cfg n start length past w' ∧ (h.pc = .transfer → h.ChunkAsserts cfg w.space) ∨
      start % cfg.localBucketSize + length > cfg.localBucketSize ∧ h.pc = .transfer ∧
        ¬ h.ChunkAsserts cfg w.space ∨
      w'.Thrown n past := by
  rcases hh.pc with hlooks | ⟨hpc, hoffset⟩
  · obtain ⟨h', hfiles, -, hstep⟩ := stepFile_looks hin hlooks hstep
    have hn' : w'.files[n]? = some h' := by
      rw [hfiles]
      exact getElem?_set_files hn
    have hno : h.pc = .transfer → h.ChunkAsserts cfg w.space := by
      intro hpc
      rw [hpc] at hlooks
      cases hlooks
    cases hstep with
    | goesOn hhistory hpos hstream hpc =>
        refine Or.inl ⟨.writing h' hn' ⟨?_, ?_, hpos.trans hh.pos, Or.inl hpc⟩
          (hhistory.trans hpast), hno⟩
        · rw [hstream]
          exact hh.transfer
        · rw [hstream]
          exact hh.left
    | found info hhistory hpos hoffset hstream hpc =>
        refine Or.inl ⟨.writing h' hn' ⟨?_, ?_, hpos.trans hh.pos, Or.inr ⟨hpc, ?_⟩⟩
          (hhistory.trans hpast), hno⟩
        · rw [hstream]
          exact hh.transfer
        · rw [hstream]
          exact hh.left
        · rw [hstream, ← hh.pos]
          exact hoffset
    | throws e hpc hhistory =>
        exact Or.inr (Or.inr ⟨⟨h', hn', hpc⟩, _, hhistory.trans (congrArg (· ++ _) hpast), e, rfl⟩)
  · unfold World.stepFile at hstep
    simp only [hpc, Option.some.injEq] at hstep
    subst hstep
    have hlt := Nat.mod_lt start hsize
    cases hrun : h.transferChunk cfg w.space with
    | error e => exact Or.inr (Or.inr (thrown_raise hn rfl hpast _ e))
    | ok x =>
        obtain ⟨h', space⟩ := x
        obtain ⟨count, ht⟩ := FileActiveStatus.transfers_of_ok hoffset (Nat.le_of_lt hlt) hrun
        have hasserts := FileActiveStatus.chunkAsserts_write hoffset hlt hh.transfer hrun
        have hcount := ht.count_eq (by rw [hh.transfer]; exact nofun)
        have hleft := hh.left
        by_cases hlast : start % cfg.localBucketSize + length ≤ cfg.localBucketSize
        · refine Or.inl ⟨.written h' (getElem?_set_files hn) ?_ hpast hlast,
            fun _ => hasserts.mpr (hleft ▸ hlast)⟩
          rw [ht.pc, ht.left, hcount]
          congr 1
          omega
        · refine Or.inr (Or.inl ⟨Nat.lt_of_not_le hlast, hpc, fun hholds => hlast ?_⟩)
          exact hleft ▸ hasserts.mp hholds

/-- The steps of the others meet no assertion. -/
theorem Lone.asserts_aside (hw : w.Lone n) (hcall : w.InCall act) (hfile : act ≠ .file n) :
    w.Asserts cfg act := by
  cases act with
  | call m call => exact hcall.elim
  | file m =>
      intro x hx hpc
      rcases (hw.others m x hx fun hmn => hfile (by rw [hmn])).1 with haway | haway
      · rw [hpc] at haway
        cases haway
      · rw [hpc] at haway
        cases haway
  | _ => trivial

theorem asserts_file (hn : w.files[n]? = some h) :
    w.Asserts cfg (.file n) ↔ (h.pc = .transfer → h.ChunkAsserts cfg w.space) := by
  simp [Asserts, hn]

/-- The failing upload of a victim reaches the caller. -/
theorem failUpload_thrown (hn : w.files[n]? = some h) (hpast : w.history = past)
    (hstep : World.step cfg w (.failUpload n) = some w') : w'.Thrown n past := by
  simp only [World.step, hn] at hstep
  split at hstep
  · cases hstep
    exact thrown_raise hn rfl hpast _ _
  · cases hstep

/-- A stream call that has nothing left to transfer returns. -/
theorem settle_idle (hn : w.files[n]? = some h) (hpc : h.pc = .idle) :
    (w.settle n).history =
      w.history ++ [⟨n, some h.stream.call, .returned h.stream.result h.stream.received⟩] := by
  simp only [settle, hn, hpc, finish]

/-- Every step of a call that writes. -/
theorem WritePhase.step (hsize : 0 < cfg.localBucketSize) (hw : w.Lone n)
    (hphase : WritePhase cfg n start length past w) (hcall : w.InCall act)
    (hstep : World.step cfg w act = some w') :
    WritePhase cfg n start length past w' ∧ w.Asserts cfg act ∨
      start % cfg.localBucketSize + length > cfg.localBucketSize ∧ ¬ w.Asserts cfg act ∨
      w'.Thrown n past := by
  by_cases hfile : act = .file n
  · subst hfile
    cases hphase with
    | writing h hn hh hhistory =>
        simp only [World.step, hn] at hstep
        rcases hh.stepFile hsize (hw.own h hn).inFile hn hhistory hstep with
          ⟨hnext, hholds⟩ | ⟨hbeyond, hpc, hfails⟩ | hthrown
        · exact Or.inl ⟨hnext, (asserts_file hn).mpr hholds⟩
        · exact Or.inr (Or.inl ⟨hbeyond, fun hholds => hfails ((asserts_file hn).mp hholds hpc)⟩)
        · exact Or.inr (Or.inr hthrown)
    | written h hn hpc hhistory hin =>
        simp only [World.step, hn] at hstep
        unfold World.stepFile at hstep
        simp only [hpc, Option.some.injEq] at hstep
        subst hstep
        rcases w.runFile_cases n h (some h.stream.call)
          (FileActiveStatus.advance cfg h.stream.bytesLeft) (fun _ w => w.settle n) with
          ⟨u, c, hrun, heq⟩ | ⟨e, c, hrun, heq⟩
        · obtain ⟨hstream, hpc'⟩ := advance_stream hrun
          -- all bytes are transferred: the call returns
          have hidle : c.self.pc = .idle := by
            rw [hpc', FileActiveStatus.streamPc, hstream]
            simp [ctx]
          have hn' : (w.files.set n c.self)[n]? = some c.self := getElem?_set_files hn
          refine Or.inl ⟨?_, (asserts_file hn).mpr fun hat => ?_⟩
          · rw [heq]
            exact .ended c.self (by rw [settle_files]; exact hn') hidle _
              ((settle_idle hn' hidle).trans (congrArg (· ++ _) hhistory)) (Or.inr hin)
          · rw [hpc] at hat
            cases hat
        · rw [heq]
          exact Or.inr (Or.inr (thrown_raise hn rfl hhistory _ _))
    | ended h hn hpc r hhistory hr =>
        simp only [World.step, hn, World.stepFile, hpc] at hstep
        cases hstep
  by_cases hfail : act = .failUpload n
  · subst hfail
    cases hphase with
    | writing h hn hh hhistory => exact Or.inr (Or.inr (failUpload_thrown hn hhistory hstep))
    | written h hn hpc hhistory hin => exact Or.inr (Or.inr (failUpload_thrown hn hhistory hstep))
    | ended h hn hpc r hhistory hr =>
        simp only [World.step, hn, hpc] at hstep
        cases hstep
  · -- the thread stays where it is
    have haside := fun {h} (hn : w.files[n]? = some h) => hw.aside hn hcall hfile hfail hstep
    refine Or.inl ⟨?_, hw.asserts_aside hcall hfile⟩
    cases hphase with
    | writing h hn hh hhistory =>
        obtain ⟨hsame, h', hn', hpoint⟩ := haside hn
        refine .writing h' hn' ⟨?_, ?_, hpoint.pos.trans hh.pos, ?_⟩ (hsame.trans hhistory)
        · rw [hpoint.stream]
          exact hh.transfer
        · rw [hpoint.stream]
          exact hh.left
        · rw [hpoint.stream, hpoint.pc]
          exact hh.pc
    | written h hn hpc hhistory hin =>
        obtain ⟨hsame, h', hn', hpoint⟩ := haside hn
        refine .written h' hn' ?_ (hsame.trans hhistory) hin
        rw [hpoint.stream, hpoint.pc]
        exact hpc
    | ended h hn hpc r hhistory hr =>
        obtain ⟨hsame, h', hn', hpoint⟩ := haside hn
        exact .ended h' hn' (hpoint.pc.trans hpc) r (hsame.trans hhistory) hr

/-- A write begins. -/
theorem startCall_writePhase (hsize : 0 < cfg.localBucketSize) (hn : w.files[n]? = some h)
    (buffer : List UInt8) :
    WritePhase cfg n h.pos buffer.length w.history (w.startCall n h (.write buffer)) := by
  unfold startCall
  dsimp only
  split
  · let stream : Stream := ⟨.write buffer, .write, buffer.length, buffer, [], buffer.length, true,
      h.pos, 0, .invalid⟩
    let h' : FileActiveStatus := { h with
      stream := stream, pc := FileActiveStatus.streamPc { h with stream := stream } }
    have hn' : (w.setFile n h').files[n]? = some h' := getElem?_set_files hn
    change WritePhase cfg n h.pos buffer.length w.history ((w.setFile n h').settle n)
    by_cases hempty : buffer.length = 0
    · have hidle : h'.pc = .idle := if_pos hempty
      have hlt := Nat.mod_lt h.pos hsize
      exact .ended h' (by rw [settle_files]; exact hn') hidle _ (settle_idle hn' hidle)
        (Or.inr (by omega))
    · have hadjust : h'.pc = .adjust := by
        change FileActiveStatus.streamPc _ = _
        simp only [FileActiveStatus.streamPc]
        rw [if_neg hempty, if_pos rfl]
      have hsettle : (w.setFile n h').settle n = w.setFile n h' := by
        simp only [settle, hn', hadjust]
      rw [hsettle]
      exact .writing h' hn' ⟨rfl, rfl, rfl, Or.inl (by rw [hadjust]; rfl)⟩ rfl
  · exact (thrown_raise hn rfl rfl _ _).phase

/-! ## Calls -/

/-- The lone handle stays the lone one while it is served. -/
theorem Lone.serves (hw : w.Lone n) (hcall : w.InCall act)
    (hstep : World.step cfg w act = some w') : w'.Lone n := by
  have hone : w.OneAtATime act := by
    cases act with
    | openFile hashcode isCreate isSequence type pid => exact hcall.elim
    | _ => trivial
  have hnext := hw.step hone hstep
  cases act with
  | openFile hashcode isCreate isSequence type pid => exact hcall.elim
  | _ => exact hnext

/-- After a call has thrown, nothing is answered until the next call. -/
theorem Thrown.stays (hw : w.Lone n) (hthrown : w.Thrown n past)
    (hrun : Run (World.step cfg) InCall w w') : w'.Thrown n past := by
  suffices w'.Lone n ∧ w'.Thrown n past from this.2
  refine @Run.induct _ _ _ _ _ _ (fun u => u.Lone n ∧ u.Thrown n past) hrun ⟨hw, hthrown⟩ ?_
  rintro u act u' ⟨hu, ⟨h, hn, hpc⟩, hpast⟩ hcall hstep
  have hfile : act ≠ .file n := by
    rintro rfl
    simp only [World.step, hn, World.stepFile, hpc] at hstep
    cases hstep
  have hfail : act ≠ .failUpload n := by
    rintro rfl
    simp only [World.step, hn, hpc] at hstep
    cases hstep
  obtain ⟨hsame, h', hn', hpoint⟩ := hu.aside hn hcall hfile hfail hstep
  refine ⟨hu.serves hcall hstep, ⟨h', hn', hpoint.pc.trans hpc⟩, ?_⟩
  rw [hsame]
  exact hpast

/-- In a debug build a write that is served is in a phase of a write. -/
theorem WritePhase.run (hsize : 0 < cfg.localBucketSize) (hw : w.Lone n)
    (hphase : WritePhase cfg n start length past w)
    (hrun : Run (World.step cfg) (Debug cfg) w w') : WritePhase cfg n start length past w' := by
  suffices w'.Lone n ∧ WritePhase cfg n start length past w' from this.2
  refine @Run.induct _ _ _ _ _ _ (fun u => u.Lone n ∧ WritePhase cfg n start length past u) hrun
    ⟨hw, hphase⟩ ?_
  rintro u act u' ⟨hu, hphase⟩ ⟨hcall, hholds⟩ hstep
  refine ⟨hu.serves hcall hstep, ?_⟩
  rcases hphase.step hsize hu hcall hstep with ⟨hnext, -⟩ | ⟨-, hfails⟩ | hthrown
  · exact hnext
  · exact absurd hholds hfails
  · exact hthrown.phase

/-- A write that returns, within the block that it begins in, meets every assertion. -/
theorem WritePhase.debug {acts : List Action} {r : CallRecord} (hsize : 0 < cfg.localBucketSize)
    (hw : w.Lone n) (hphase : WritePhase cfg n start length past w)
    (hin : start % cfg.localBucketSize + length ≤ cfg.localBucketSize)
    (hserved : execute (World.step cfg) InCall w acts = some w')
    (hreturned : w'.history = past ++ [r]) (hr : ∀ e, r.outcome ≠ .threw e) :
    execute (World.step cfg) (Debug cfg) w acts = some w' := by
  refine Library.execute_strengthen (fun u => u.Lone n ∧ WritePhase cfg n start length past u)
    (fun u => u.Lone n ∧ u.Thrown n past) ⟨hw, hphase⟩ hserved ?_ ?_
  · rintro u act u' ⟨hu, hphase⟩ hcall hstep
    have hu' := hu.serves hcall hstep
    rcases hphase.step hsize hu hcall hstep with ⟨hnext, hholds⟩ | ⟨hbeyond, -⟩ | hthrown
    · exact Or.inl ⟨⟨hcall, hholds⟩, hu', hnext⟩
    · omega
    · exact Or.inr ⟨hu', hthrown⟩
  · rintro u ⟨hu, hthrown⟩ hrun
    obtain ⟨-, r', hhistory, e, he⟩ := hthrown.stays hu hrun
    rw [hreturned] at hhistory
    obtain rfl : r = r' := List.singleton_inj.mp (List.append_cancel_left hhistory)
    exact hr e he

/-- A call that does not write meets every assertion. -/
theorem OnCourse.debug {acts : List Action} (hsize : 0 < cfg.localBucketSize) (hw : w.Lone n)
    (hn : w.files[n]? = some h) (hh : OnCourse cfg h)
    (hserved : execute (World.step cfg) InCall w acts = some w') :
    execute (World.step cfg) (Debug cfg) w acts = some w' := by
  refine Library.execute_strengthen
    (fun u => u.Lone n ∧ ∃ h, u.files[n]? = some h ∧ OnCourse cfg h) (fun _ => False)
    ⟨hw, h, hn, hh⟩ hserved ?_ fun _ hno => hno.elim
  rintro u act u' ⟨hu, h, hn, hh⟩ hcall hstep
  have hu' := hu.serves hcall hstep
  refine Or.inl ⟨⟨hcall, ?_⟩, hu', ?_⟩
  · by_cases hfile : act = .file n
    · subst hfile
      exact (asserts_file hn).mpr fun hpc => hh.asserts hpc _
    · exact hu.asserts_aside hcall hfile
  · by_cases hfile : act = .file n
    · subst hfile
      simp only [World.step, hn] at hstep
      obtain ⟨h', hfiles, hh'⟩ := hh.stepFile hsize (hu.own h hn).inFile hstep
      exact ⟨h', by rw [hfiles]; exact getElem?_set_files hn, hh'⟩
    · by_cases hfail : act = .failUpload n
      · subst hfail
        simp only [World.step, hn] at hstep
        split at hstep
        · cases hstep
          exact ⟨{ h with pc := .idle }, getElem?_set_files hn, .of_pc rfl rfl⟩
        · cases hstep
      · obtain ⟨-, h', hn', hpoint⟩ := hu.aside hn hcall hfile hfail hstep
        exact ⟨h', hn', hh.congr hpoint⟩

/-- In every run in which one handle is open at a time, a call that returns meets all assertions
if and only if it does not write beyond the block it begins in. -/
theorem asserted_iff {w₁ : World} {call : Call} {acts : List Action} {value : Int}
    {data : List UInt8} (hsize : 0 < cfg.localBucketSize)
    (hrun : Run (World.step cfg) OneAtATime (init cfg) w) (hn : w.files[n]? = some h)
    (hstart : World.step cfg w (.call n call) = some w₁)
    (hserved : execute (World.step cfg) InCall w₁ acts = some w')
    (hreturned : w'.history = w.history ++ [⟨n, some call, .returned value data⟩]) :
    (w.Asserts cfg (.call n call) ∧ execute (World.step cfg) (Debug cfg) w₁ acts = some w') ↔
      call.StaysInBlock cfg h := by
  obtain ⟨m, hw⟩ := lone_of_run hrun
  -- only a registered handle that rests is called
  obtain ⟨hpc, hactive, rfl⟩ : h.pc = .idle ∧ h.activeId ≠ none ∧ w.startCall n h call = w₁ := by
    simp only [World.step, hn] at hstart
    split at hstart
    · next a hpc ha =>
        cases hstart
        exact ⟨hpc, by rw [ha]; exact Option.some_ne_none a, rfl⟩
    · cases hstart
  obtain rfl := hw.eq_of_active hn hactive
  have hone : w.OneAtATime (.call n call) := trivial
  have hw₁ : (w.startCall n h call).Lone n := hw.step hone hstart
  have hbegins : w.Asserts cfg (.call n call) := by
    cases call with
    | read length =>
        intro x hx
        obtain rfl : h = x := Option.some.inj (hn.symm.trans hx)
        exact ((hw.own h hn).inFile hactive).pos
    | _ => trivial
  by_cases hwrite : ∃ buffer, call = .write buffer
  · obtain ⟨buffer, rfl⟩ := hwrite
    have hphase := startCall_writePhase hsize hn buffer
    constructor
    · rintro ⟨-, hdebug⟩
      cases hphase.run hsize hw₁ (Run.of_execute hdebug) with
      | writing x hx hh hhistory => simp [hhistory] at hreturned
      | written x hx hx' hhistory hin => simp [hhistory] at hreturned
      | ended x hx hx' r hhistory hr =>
          rw [hreturned] at hhistory
          obtain rfl := List.singleton_inj.mp (List.append_cancel_left hhistory)
          rcases hr with ⟨e, he⟩ | hin
          · cases he
          · exact hin
    · intro hin
      refine ⟨hbegins, hphase.debug hsize hw₁ hin hserved hreturned fun e he => ?_⟩
      cases he
  · have hcall : ∀ buffer, call ≠ .write buffer := fun buffer heq => hwrite ⟨buffer, heq⟩
    obtain ⟨h', hfiles, hh'⟩ : ∃ h', (w.startCall n h call).files = w.files.set n h' ∧
        OnCourse cfg h' := startCall_onCourse hpc hcall
    have hn' : (w.startCall n h call).files[n]? = some h' := by
      rw [hfiles]
      exact getElem?_set_files hn
    constructor
    · intro _
      cases call with
      | write buffer => exact absurd rfl (hcall buffer)
      | _ => trivial
    · exact fun _ => ⟨hbegins, hh'.debug hsize hw₁ hn' hserved⟩

/-- Two buckets of two bytes. -/
def twoByteBlocks : Config := .intact 2 2 4 2

/-- A file is created. -/
def creating : List Action := [.openFile 7 true false .writeFile 1, .file 0, .file 0]

/-- The bytes of `buffer` are written into a new file, which takes `steps` steps. -/
def writesInto (buffer : List UInt8) (steps : Nat) (p : World → World → World → Bool) : Bool :=
  (execute (step twoByteBlocks) OneAtATime (init twoByteBlocks) creating).any fun w =>
    (step twoByteBlocks w (.call 0 (.write buffer))).any fun w₁ =>
      (execute (step twoByteBlocks) InCall w₁ (List.replicate steps (.file 0))).any fun w' =>
        p w w₁ w'

/-- A block is filled. -/
theorem asserted_iff_filling : ∃ w w₁ w',
    execute (step twoByteBlocks) OneAtATime (init twoByteBlocks) creating = some w ∧
    step twoByteBlocks w (.call 0 (.write [1, 2])) = some w₁ ∧
    execute (step twoByteBlocks) InCall w₁ (List.replicate 6 (.file 0)) = some w' ∧
    execute (step twoByteBlocks) (Debug twoByteBlocks) w₁ (List.replicate 6 (.file 0)) =
      some w' := by
  have hcheck : writesInto [1, 2] 6 (fun w _ w' =>
      decide (w'.history = w.history ++ [⟨0, some (.write [1, 2]), .returned 2 []⟩]) &&
      (w.files[0]?).any fun h => decide (h.pos = 0)) = true := by
    decide +kernel
  obtain ⟨w, hw, hcheck⟩ := (Option.any_eq_true _ _).mp hcheck
  obtain ⟨w₁, hw₁, hcheck⟩ := (Option.any_eq_true _ _).mp hcheck
  obtain ⟨w', hw', hcheck⟩ := (Option.any_eq_true _ _).mp hcheck
  rw [Bool.and_eq_true, decide_eq_true_eq] at hcheck
  obtain ⟨h, hn, hpos⟩ := (Option.any_eq_true _ _).mp hcheck.2
  have hpos : h.pos = 0 := of_decide_eq_true hpos
  refine ⟨w, w₁, w', hw, hw₁, hw', ?_⟩
  refine ((asserted_iff (by decide) (Run.of_execute hw) hn hw₁ hw' hcheck.1).mpr ?_).2
  change h.pos % 2 + 2 ≤ 2
  rw [hpos]

/-- A write of three bytes goes to the next block. -/
theorem not_asserted_crossing :
    ¬ ∀ (cfg : Config) (w w₁ w' : World) (n : Nat) (call : Call) (acts : List Action) (value : Int)
      (data : List UInt8), 0 < cfg.localBucketSize →
      Run (step cfg) OneAtATime (init cfg) w → step cfg w (.call n call) = some w₁ →
      execute (step cfg) InCall w₁ acts = some w' →
      w'.history = w.history ++ [⟨n, some call, .returned value data⟩] →
      w.Asserts cfg (.call n call) ∧ execute (step cfg) (Debug cfg) w₁ acts = some w' := by
  intro hclaim
  have hcheck : writesInto [1, 2, 3] 11 (fun w w₁ w' =>
      decide (w'.history = w.history ++ [⟨0, some (.write [1, 2, 3]), .returned 3 []⟩]) &&
      (execute (step twoByteBlocks) (Debug twoByteBlocks) w₁
        (List.replicate 11 (.file 0))).isNone) = true := by
    decide +kernel
  obtain ⟨w, hw, hcheck⟩ := (Option.any_eq_true _ _).mp hcheck
  obtain ⟨w₁, hw₁, hcheck⟩ := (Option.any_eq_true _ _).mp hcheck
  obtain ⟨w', hw', hcheck⟩ := (Option.any_eq_true _ _).mp hcheck
  rw [Bool.and_eq_true, decide_eq_true_eq, Option.isNone_iff_eq_none] at hcheck
  have hdebug := (hclaim twoByteBlocks w w₁ w' 0 _ _ 3 [] (by decide) (Run.of_execute hw) hw₁ hw'
    hcheck.1).2
  rw [hcheck.2] at hdebug
  cases hdebug

end World

end Gopherwood
