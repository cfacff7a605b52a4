/-
# The local space descriptor

All handles and loader threads of a file system reach the local space through one
descriptor, which has one offset. A transfer is an `lseek` followed by a `read` or
a `write`, two system calls between which other threads can run. The module
follows every interleaving of the system calls and says when each transfer stays
in the bucket of its own block.
-/

import Gopherwood.File.System
import Gopherwood.Library.Execution

namespace Gopherwood

/-- A transfer between memory and the local space. -/
inductive SpaceTransfer
  /-- `BlockOutputStream::write`. -/
  | write (info : BlockInfo) (buffer : List UInt8)
  /-- `BlockInputStream::read`. -/
  | read (info : BlockInfo) (length : Nat)
  /-- The end of `OssBlockWorker::readBlock`, when the object has been fetched. -/
  | readBlock (info : BlockInfo) (object : List UInt8)
  /-- The start of `OssBlockWorker::writeBlock`. -/
  | writeBlock (info : BlockInfo)

namespace SpaceTransfer

def info : SpaceTransfer → BlockInfo
  | .write info _ => info
  | .read info _ => info
  | .readBlock info _ => info
  | .writeBlock info => info

/-- The number of bytes that the transfer asks for. -/
def length : SpaceTransfer → Nat
  | .write _ buffer => buffer.length
  | .read _ length => length
  | .readBlock _ object => object.length
  | .writeBlock info => info.dataSize

/-- The streams start at the offset in the block, the OSS worker at the start of
the bucket. -/
def blockOffset : SpaceTransfer → Int
  | .write info _ => info.offset
  | .read info _ => info.offset
  | .readBlock _ _ => 0
  | .writeBlock _ => 0

/-- The streams transfer nothing when the block is not local; the OSS worker does
not look. -/
def skipped : SpaceTransfer → Bool
  | .write info _ => !info.isLocal
  | .read info _ => !info.isLocal
  | .readBlock _ _ => false
  | .writeBlock _ => false

/-- The OSS worker checks the result of its seek, the streams do not. -/
def checksSeek : SpaceTransfer → Bool
  | .write _ _ => false
  | .read _ _ => false
  | .readBlock _ _ => true
  | .writeBlock _ => true

/-- Where the transfer seeks to; `lseek` refuses a negative position, which a bucket
number of `-1` gives. -/
def position (cfg : Config) (t : SpaceTransfer) : Option Nat :=
  t.info.bucketId.bind fun b => (FileActiveStatus.localSpaceOffset cfg b t.blockOffset).toNat?

/-- The block has a bucket, and the transfer ends inside it: the callers of the
streams ask for no more than `remaining`, and an object is no larger than the
bucket it was written from. -/
def Placed (cfg : Config) (t : SpaceTransfer) : Prop :=
  t.info.bucketId ≠ none ∧ 0 ≤ t.blockOffset ∧ t.blockOffset + t.length ≤ cfg.localBucketSize

instance (cfg : Config) (t : SpaceTransfer) : Decidable (t.Placed cfg) :=
  inferInstanceAs (Decidable (_ ≠ none ∧ _ ≤ _ ∧ _ ≤ _))

end SpaceTransfer

/-- A thread: the transfers it still has to make, and whether the `lseek` of the
first one has been made. -/
structure SpaceThread where
  sought : Bool
  todo : List SpaceTransfer

/-- A `read` or `write` that was made: the transfer, the offset at which the system
call found the descriptor, and the number of bytes. -/
structure Moved where
  transfer : SpaceTransfer
  position : Nat
  count : Nat

/-- The local space file, the offset of the descriptor, the threads and the
transfers made so far. -/
structure LocalSpace where
  bytes : List UInt8
  offset : Nat
  threads : List SpaceThread
  moved : List Moved

namespace LocalSpace

def setThread (s : LocalSpace) (i : Nat) (th : SpaceThread) : LocalSpace :=
  { s with threads := s.threads.set i th }

/-- The `lseek` of a transfer. -/
def seek (cfg : Config) (s : LocalSpace) (i : Nat) (t : SpaceTransfer) (rest : List SpaceTransfer) :
    LocalSpace :=
  if t.skipped then s.setThread i ⟨false, rest⟩
  else
    match t.position cfg with
    | some p => { s.setThread i ⟨true, t :: rest⟩ with offset := p }
    | none =>
        if t.checksSeek then s.setThread i ⟨false, rest⟩ else s.setThread i ⟨true, t :: rest⟩

/-- The system call of a transfer on the file: the bytes after it and their number. -/
def transfer (s : LocalSpace) : SpaceTransfer → List UInt8 × Nat
  | .write _ buffer => (writeLocal s.bytes s.offset buffer, buffer.length)
  | .read _ length => (s.bytes, (readLocal s.bytes s.offset length).length)
  | .readBlock _ object => (writeLocal s.bytes s.offset object, object.length)
  | .writeBlock info => (s.bytes, (readLocal s.bytes s.offset info.dataSize).length)

/-- The next system call of a thread. -/
def step (cfg : Config) (s : LocalSpace) (i : Nat) : Option LocalSpace :=
  match s.threads[i]? with
  | some ⟨false, t :: rest⟩ => some (s.seek cfg i t rest)
  | some ⟨true, t :: rest⟩ =>
      let (bytes, count) := s.transfer t
      some { s.setThread i ⟨false, rest⟩ with
        bytes := bytes, offset := s.offset + count
        moved := s.moved ++ [⟨t, s.offset, count⟩] }
  | _ => none

/-- No transfer has been begun, and all of them lie in their buckets. -/
structure Fresh (cfg : Config) (s : LocalSpace) : Prop where
  unsought : ∀ th ∈ s.threads, th.sought = false
  placed : ∀ th ∈ s.threads, ∀ t ∈ th.todo, t.Placed cfg
  moved : s.moved = []

/-- Every transfer that was made lies in the bucket of its own block. -/
def Isolated (cfg : Config) (s : LocalSpace) : Prop :=
  ∀ m ∈ s.moved, ∀ b ∈ m.transfer.info.bucketId,
    b * cfg.localBucketSize ≤ m.position ∧
      m.position + m.count ≤ (b + 1) * cfg.localBucketSize

/-- No other thread stands between its seek and its transfer. -/
def Undisturbing (s : LocalSpace) (i : Nat) : Prop :=
  ∀ j < s.threads.length, j ≠ i → ∀ th ∈ s.threads[j]?, th.sought = false

instance (s : LocalSpace) (i : Nat) : Decidable (Undisturbing s i) :=
  inferInstanceAs (Decidable (∀ j < s.threads.length, j ≠ i → ∀ th ∈ s.threads[j]?,
    th.sought = false))

/-- A thread that has sought finds the descriptor where it left it. -/
structure Settled (cfg : Config) (s : LocalSpace) : Prop where
  placed : ∀ th ∈ s.threads, ∀ t ∈ th.todo, t.Placed cfg
  sought : ∀ th ∈ s.threads, th.sought = true → ∀ t ∈ th.todo.head?, t.position cfg = some s.offset
  isolated : Isolated cfg s

variable {cfg : Config} {s s' : LocalSpace} {i : Nat}

theorem Fresh.settled (h : Fresh cfg s) : Settled cfg s where
  placed := h.placed
  sought th hth hsought := by
    rw [h.unsought th hth] at hsought
    cases hsought
  isolated := by
    intro m hm
    rw [h.moved] at hm
    cases hm

/-- A transfer moves no more bytes than it asks for. -/
theorem transfer_count_le (s : LocalSpace) (t : SpaceTransfer) : (s.transfer t).2 ≤ t.length := by
  cases t with
  | write info buffer => exact Nat.le_refl _
  | read info length =>
      simp only [transfer, readLocal, List.length_take, SpaceTransfer.length]
      omega
  | readBlock info object => exact Nat.le_refl _
  | writeBlock info =>
      simp only [transfer, readLocal, List.length_take, SpaceTransfer.length]
      omega

/-- A placed transfer seeks to a place in the bucket of its block. -/
theorem position_of_placed {t : SpaceTransfer} (h : t.Placed cfg) {b : Nat}
    (hb : t.info.bucketId = some b) :
    t.position cfg = some (b * cfg.localBucketSize + t.blockOffset.toNat) := by
  obtain ⟨offset, hoffset⟩ := Int.eq_ofNat_of_zero_le h.2.1
  rw [SpaceTransfer.position, hb, hoffset]
  rfl

/-- A transfer made at the position it seeks to lies in the bucket of its block. -/
theorem within_of_placed {t : SpaceTransfer} (h : t.Placed cfg) {p count : Nat}
    (hp : t.position cfg = some p) (hcount : count ≤ t.length) :
    ∀ b ∈ t.info.bucketId, b * cfg.localBucketSize ≤ p ∧
      p + count ≤ (b + 1) * cfg.localBucketSize := by
  intro b hb
  rw [position_of_placed h hb, Option.some.injEq] at hp
  obtain ⟨-, hpos, hfits⟩ := h
  rw [Nat.add_mul, Nat.one_mul]
  omega

/-- The threads after thread `i` moved: it, or one of the others. -/
theorem mem_setThread {th' th : SpaceThread} (h : th ∈ (s.setThread i th').threads) :
    th = th' ∨ ∃ j, j ≠ i ∧ s.threads[j]? = some th := by
  obtain ⟨j, hj⟩ := List.mem_iff_getElem?.mp h
  rw [setThread, List.getElem?_set] at hj
  split at hj
  · split at hj
    · left
      cases hj
      rfl
    · cases hj
  · next hne => exact Or.inr ⟨j, Ne.symm hne, hj⟩

theorem Undisturbing.unsought (h : Undisturbing s i) {j : Nat} {th : SpaceThread} (hne : j ≠ i)
    (hth : s.threads[j]? = some th) : th.sought = false := by
  have hlt : j < s.threads.length := by
    by_contra hge
    rw [List.getElem?_eq_none (by omega)] at hth
    cases hth
  exact h j hlt hne th hth

/-- Replacing the thread that moved by one that has not sought, or that has sought
to where the descriptor is, keeps the descriptor settled. -/
theorem Settled.setThread (h : Settled cfg s) (hcond : Undisturbing s i) {th' : SpaceThread}
    {offset : Nat} {bytes : List UInt8} {moved : List Moved}
    (hplaced : ∀ t ∈ th'.todo, t.Placed cfg)
    (hsought : th'.sought = true → ∀ t ∈ th'.todo.head?, t.position cfg = some offset)
    (hmoved : Isolated cfg { s with moved := moved }) :
    Settled cfg { s.setThread i th' with offset := offset, bytes := bytes, moved := moved } where
  placed := by
    intro th hth
    rcases mem_setThread hth with rfl | ⟨j, _, hj⟩
    · exact hplaced
    · exact h.placed th (List.mem_of_getElem? hj)
  sought := by
    intro th hth
    rcases mem_setThread hth with rfl | ⟨j, hne, hj⟩
    · exact hsought
    · intro hyes
      rw [hcond.unsought hne hj] at hyes
      cases hyes
  isolated := hmoved

/-- A seek leaves the descriptor where the thread that made it expects it. -/
theorem settled_seek (h : Settled cfg s) (hcond : Undisturbing s i) {t : SpaceTransfer}
    {rest : List SpaceTransfer} (hth : s.threads[i]? = some ⟨false, t :: rest⟩) :
    Settled cfg (s.seek cfg i t rest) := by
  have hplaced := h.placed _ (List.mem_of_getElem? hth)
  have hrest : ∀ t ∈ rest, t.Placed cfg := fun t ht => hplaced t (List.mem_cons_of_mem _ ht)
  have hunsought : Settled cfg (s.setThread i ⟨false, rest⟩) :=
    h.setThread hcond hrest (fun hyes => by cases hyes) h.isolated
  unfold seek
  split
  · exact hunsought
  · cases hposition : t.position cfg with
    | none =>
        -- a placed transfer has a bucket
        obtain ⟨b, hb⟩ := Option.ne_none_iff_exists'.mp (hplaced t List.mem_cons_self).1
        rw [position_of_placed (hplaced t List.mem_cons_self) hb] at hposition
        cases hposition
    | some p =>
        refine h.setThread hcond hplaced (fun _ t' ht' => ?_) h.isolated
        cases ht'
        exact hposition

/-- A transfer at the place it sought lies in the bucket of its block. -/
theorem settled_transfer (h : Settled cfg s) (hcond : Undisturbing s i) {t : SpaceTransfer}
    {rest : List SpaceTransfer} (hth : s.threads[i]? = some ⟨true, t :: rest⟩) :
    Settled cfg { s.setThread i ⟨false, rest⟩ with
      bytes := (s.transfer t).1, offset := s.offset + (s.transfer t).2
      moved := s.moved ++ [⟨t, s.offset, (s.transfer t).2⟩] } := by
  have hmem := List.mem_of_getElem? hth
  have hplaced := h.placed _ hmem
  have hposition := h.sought _ hmem rfl t rfl
  refine h.setThread hcond (fun t ht => hplaced t (List.mem_cons_of_mem _ ht))
    (fun hyes => by cases hyes) ?_
  intro m hm
  rcases List.mem_append.mp hm with hm | hm
  · exact h.isolated m hm
  · rw [List.mem_singleton.mp hm]
    exact within_of_placed (hplaced t List.mem_cons_self) hposition (transfer_count_le s t)

/-- A system call that disturbs no transfer keeps the descriptor settled. -/
theorem settled_step (h : Settled cfg s) (hcond : Undisturbing s i)
    (hstep : s.step cfg i = some s') : Settled cfg s' := by
  unfold step at hstep
  split at hstep
  · next t rest hth =>
      cases hstep
      exact settled_seek h hcond hth
  · next t rest hth =>
      cases hstep
      exact settled_transfer h hcond hth
  · cases hstep

/-- In every interleaving in which no system call falls between the seek and the
transfer of another thread, every transfer lies in the bucket of its own block. -/
theorem isolated_of_run {start : LocalSpace} (hstart : Fresh cfg start)
    (hrun : Library.Run (step cfg) Undisturbing start s) : Isolated cfg s := by
  have hsettled : Settled cfg s := by
    apply hrun.induct hstart.settled
    intro s i s' h hcond hstep
    exact settled_step h hcond hstep
  exact hsettled.isolated

/-- Two buckets of four bytes. -/
def twoBuckets : Config := .intact 2 4 4 2

def blockIn (bucketId offset : Nat) :
    BlockInfo := ⟨⟨7, 0⟩, some bucketId, some bucketId, offset, 4, true⟩

/-- A thread writes two bytes to the bucket 0, while a loader thread fills the
bucket 1. -/
def writeAndLoad : LocalSpace where
  bytes := List.replicate 8 0
  offset := 0
  threads :=
    [⟨false, [.write (blockIn 0 1) [1, 2]]⟩, ⟨false, [.readBlock (blockIn 1 0) [3, 4, 5, 6]]⟩]
  moved := []

theorem fresh_writeAndLoad : Fresh twoBuckets writeAndLoad := by
  refine ⟨?_, ?_, rfl⟩ <;> decide

theorem isolated_writeAndLoad : ∃ s,
    Library.execute (step twoBuckets) Undisturbing writeAndLoad [0, 0, 1, 1] = some s ∧
      s.bytes = [0, 1, 2, 0, 3, 4, 5, 6] ∧ Isolated twoBuckets s := by
  have hbytes : (Library.execute (step twoBuckets) Undisturbing writeAndLoad [0, 0, 1, 1]).map
      LocalSpace.bytes = some [0, 1, 2, 0, 3, 4, 5, 6] := by
    decide +kernel
  obtain ⟨s, hs, hbytes⟩ := Option.map_eq_some_iff.mp hbytes
  exact ⟨s, hs, hbytes, isolated_of_run fresh_writeAndLoad (Library.Run.of_execute hs)⟩

/-- The loader thread seeks between the seek and the write: the two bytes end up in
its bucket, and the object behind it. -/
theorem writeAndLoad_misplaced : ∃ s,
    Library.execute (step twoBuckets) Library.anyStep writeAndLoad [0, 1, 0, 1] = some s ∧
      s.bytes = [0, 0, 0, 0, 1, 2, 3, 4, 5, 6] ∧ Fresh twoBuckets writeAndLoad ∧
      ¬ Isolated twoBuckets s := by
  have hrun : (Library.execute (step twoBuckets) Library.anyStep writeAndLoad [0, 1, 0, 1]).map
      (fun s => (s.bytes, s.moved.map fun m => (m.transfer.info.bucketId, m.position, m.count))) =
        some ([0, 0, 0, 0, 1, 2, 3, 4, 5, 6], [(some 0, 4, 2), (some 1, 6, 4)]) := by
    decide +kernel
  obtain ⟨s, hs, hresult⟩ := Option.map_eq_some_iff.mp hrun
  simp only [Prod.mk.injEq] at hresult
  refine ⟨s, hs, hresult.1, fresh_writeAndLoad, fun h => ?_⟩
  -- the write of the bucket 0 found the descriptor at 4
  obtain ⟨m, hm, hmoved⟩ : ∃ m ∈ s.moved,
      (m.transfer.info.bucketId, m.position, m.count) = (some 0, 4, 2) := by
    apply List.mem_map.mp
    rw [hresult.2]
    exact List.mem_cons_self
  simp only [Prod.mk.injEq] at hmoved
  have := (h m hm 0 hmoved.1).2
  rw [hmoved.2.1, hmoved.2.2] at this
  revert this
  decide

end LocalSpace

end Gopherwood
