/-
# What the whole system agrees on

Every bucket has a role, every file a content and a number of blocks. The segment,
the logs, the lists of the handles, the local space, the object store and the loader
threads all tell the same about them, as long as one handle works at a time and a
file is open in one handle only.
-/

import Gopherwood.Coherence.Departure
import Gopherwood.File.Opening
import Gopherwood.Library.Pages

namespace Gopherwood

open Library (page slice)

/-- What the state of the system stands for: a role for every bucket, and for every file its
bytes and its number of blocks. Segment, logs, handles and stores are each compared with the
account and not with one another, so a step is explained once, to the account. -/
structure Account where
  own : Nat → Role
  content : FileId → List UInt8
  blocks : FileId → Nat

/-- A block that has been written to in its bucket, when its file does not have the data
yet. The transfer and the move of the position are two steps of a stream loop, and between
them the bucket is ahead of the file. -/
structure Draft where
  file : FileId
  index : Nat
  data : List UInt8

namespace Account

/-- How much data the blocks have. -/
def sizes (G : Account) (size : Nat) : Sizes := fun f i => (page size (G.content f) i).length

/-- What is stored of a block: what has been drafted for it, or else its page of the file.
-/
def image (G : Account) (size : Nat) (D : Option Draft) (f : FileId) (i : Nat) : List UInt8 :=
  match D with
  | some d => if f = d.file ∧ i = d.index then d.data else page size (G.content f) i
  | none => page size (G.content f) i

/-- The account after a block was added to file `f`, in bucket `b`. -/
def extend (G : Account) (f : FileId) (a b : Nat) : Account where
  own := Function.update G.own b (.block f (G.blocks f) {a})
  content := G.content
  blocks := Function.update G.blocks f (G.blocks f + 1)

end Account

/-- What is stored after one bucket changed its role. -/
theorem Role.spot_update {own : Nat → Role} {b c : Nat} {r : Role} {p : FileId × Nat} :
    (Function.update own b r c).spot = some p ↔ c = b ∧ r.spot = some p ∨ c ≠ b ∧
    (own c).spot = some p := by
  by_cases hc : c = b
  · subst hc
    simp
  · simp [hc]

/-- The object of the block was deleted after it was loaded. -/
def LoadTask.Removed (task : LoadTask) (f : FileId) (i : Nat) : Prop :=
  (∃ size, task.phase = .removed size) ∧ task.info.fileId = f ∧ task.info.blockId = some i

namespace World

variable {cfg : Config} {G G' : Account} {V : Option Victim} {w w' : World} {n : Nat}
variable {h h' : FileActiveStatus}

/-- The log `k` tells of file `f`. -/
structure Filed (cfg : Config) (G : Account) (w : World) (f : FileId) (k : Nat) (es : List LogEntry)
    (R : View) : Prop where
  content : w.folder.content k = logBytes es
  replayed : replay .empty (es.map LogEntry.record) = .ok R
  reflects : Gopherwood.Reflects True cfg.localBucketSize (G.sizes cfg.localBucketSize f) G.own f R
  length : R.blockArray.length = G.blocks f

/-- The handle `h`, registered as `a`, follows the log `k` of its file, with `R` at its end, has
in its lists what it holds, and has not been told to destroy the file. -/
structure Attends (G : Account) (w : World) (h : FileActiveStatus) (a k : Nat)
    (done pending : List LogEntry) (R : View) : Prop where
  linked : w.folder.links h.fileId = some k
  follows : h.Follows True True w.folder k done pending R
  quiet : ¬ SetsEof (pending.map LogEntry.record)
  eof : h.eof = (G.content h.fileId).length
  pos : h.pos ≤ h.eof
  books : Books (fun b => (G.own b).holdOf a) h.fileId h
  anchored : ∀ b i, (G.own b).holdOf a = some (.cached h.fileId i) →
    ∃ x, h.blockArray[i]? = some x ∧ x.bucketId = some b ∧ x.blockId = some i ∧ x.isLocal = true
  kept : h.shouldDestroy = false

/-- The segment, the logs and the handles agree. Handle `n` works, and evicts `V`. This is
the part of coherence that is about metadata; it knows how long the blocks are and not what
bytes they have. -/
structure Agrees (cfg : Config) (G : Account) (V : Option Victim) (n : Nat) (w : World) : Prop where
  staffed : w.shm.Staffed (G.sizes cfg.localBucketSize) G.own
  linked : w.folder.WellLinked
  filed : ∀ f k, w.folder.links f = some k → ∃ es R, Filed cfg G w f k es R
  unfiled : ∀ f, w.folder.links f = none → G.content f = [] ∧ G.blocks f = 0
  level : ∀ f, Levels cfg.localBucketSize (G.sizes cfg.localBucketSize f) (G.blocks f)
    (G.content f).length
  placed : ∀ b f i, (G.own b).spot = some (f, i) → ∃ k, w.folder.links f = some k
  attends : ∀ (m : Nat) (h : FileActiveStatus) (a : Nat), w.files[m]? = some h →
    h.activeId = some a →
    ∃ k done pending R, Attends G w h a k done pending R ∧ (m = n → w.tasks ≠ [] → pending = [])
  alone : ∀ (m m' : Nat) (h h' : FileActiveStatus) (a a' : Nat), w.files[m]? = some h →
    w.files[m']? = some h' → h.activeId = some a → h'.activeId = some a' → h.fileId = h'.fileId →
    m = m'
  holders : ∀ b e x, (G.own b).holdOf e = some x → ∃ (m : Nat) (h : FileActiveStatus),
    w.files[m]? = some h ∧ h.activeId = some e
  victims : ∀ b f i e, G.own b = .victim f i e ↔
    V = some ⟨b, f, i⟩ ∧ ∃ h : FileActiveStatus, w.files[n]? = some h ∧ h.activeId = some e

/-- The block in a bucket is in the local space: the bucket begins with the bytes of its
image. What follows them may be left from an earlier block. -/
def Kept (cfg : Config) (G : Account) (D : Option Draft) (w : World) : Prop :=
  ∀ b f i, (G.own b).spot = some (f, i) →
    slice w.space (b * cfg.localBucketSize) (G.image cfg.localBucketSize D f i).length =
      G.image cfg.localBucketSize D f i

/-- A block that is in no bucket is in the object store, or was loaded from there: a loader
deletes the object as soon as it has copied it, before its handle logs that the block is
local. -/
def Uploaded (cfg : Config) (G : Account) (D : Option Draft) (w : World) : Prop :=
  ∀ f k, w.folder.links f = some k → ∀ i, i < G.blocks f → (∀ b, (G.own b).spot ≠ some (f, i)) →
    w.oss f (some i) = some (G.image cfg.localBucketSize D f i) ∨ ∃ task ∈ w.tasks, task.Removed f i

/-- How far a load of block `i` of file `f` into bucket `b` has come. The object is copied
and then deleted, so there is a time when the bytes of the block are in the bucket alone. -/
def Brings (cfg : Config) (G : Account) (D : Option Draft) (w : World) (f : FileId) (b i : Nat) :
    LoadPhase → Prop
  | .start => True
  | .fetched data => data = G.image cfg.localBucketSize D f i
  | .stored size => size = (G.image cfg.localBucketSize D f i).length ∧
      slice w.space (b * cfg.localBucketSize) size = G.image cfg.localBucketSize D f i
  | .removed size => size = (G.image cfg.localBucketSize D f i).length ∧
      slice w.space (b * cfg.localBucketSize) size = G.image cfg.localBucketSize D f i
  | .failed => True

/-- The task loads block `i` into bucket `b` for handle `h`, the one that works. -/
structure Carries (cfg : Config) (G : Account) (D : Option Draft) (n : Nat) (w : World)
    (h : FileActiveStatus) (a b i : Nat) (task : LoadTask) : Prop where
  owner : task.owner = n
  handle : w.files[n]? = some h
  active : h.activeId = some a
  info : task.info = ⟨h.fileId, some i, some b, invalidBlockOffset, 0, false⟩
  role : G.own b = .loading a h.fileId i
  remote : i < G.blocks h.fileId ∧ ∀ c, (G.own c).spot ≠ some (h.fileId, i)
  phase : Brings cfg G D w h.fileId b i task.phase

/-- Every load has a task, and no two tasks have the same bucket. So the end of a load finds
its bucket as the load has left it, whatever other loads have done. -/
structure Ledger (cfg : Config) (G : Account) (D : Option Draft) (n : Nat) (w : World) : Prop where
  task : ∀ task ∈ w.tasks, ∃ h a b i, Carries cfg G D n w h a b i task
  nodup : (w.tasks.map fun task => task.info.bucketId).Nodup
  listed : ∀ b e f i, G.own b = .loading e f i → ∃ task ∈ w.tasks, task.info.bucketId = some b

/-- All parts of the system agree with the account. This is what every step of an orderly
run keeps; the draft and the victim are what the handle that works has begun and not
finished. -/
structure Coherent (cfg : Config) (G : Account) (D : Option Draft) (V : Option Victim) (n : Nat)
    (w : World) : Prop where
  agrees : Agrees cfg G V n w
  kept : Kept cfg G D w
  uploaded : Uploaded cfg G D w
  ledger : Ledger cfg G D n w

end World

theorem Levels.fits {size n eof : Nat} {sizes : Nat → Nat} (h : Levels size sizes n eof) {v : View}
    (hlength : v.blockArray.length = n) (heof : v.eof = eof) : v.Fits size sizes := by
  rw [← hlength, ← heof] at h
  refine ⟨h.lower, h.upper, ?_⟩
  have hlast := h.last_le
  have hupper := h.upper
  have hsize := h.sizes (v.blockArray.length - 1)
  have hlower := h.lower
  unfold endOf
  cases hn : v.blockArray.length with
  | zero =>
      rw [hn, Nat.zero_mul] at hupper
      omega
  | succ m =>
      rw [hn] at h
      have := h.last
      rw [Nat.add_sub_cancel]
      omega

/-- The end of the data is the end of the file. -/
theorem Levels.endOf_eq {size n eof : Nat} {sizes : Nat → Nat} (h : Levels size sizes n eof) :
    endOf size sizes n = eof := by
  have hwithin := (h.fits (v := ⟨List.replicate n ⟨none, none, false, .free, 0⟩, eof⟩)
    (List.length_replicate) rfl).within
  rw [List.length_replicate] at hwithin
  exact Nat.le_antisymm h.last_le hwithin

/-- The block behind the last one has no data. -/
theorem Levels.behind {size count eof : Nat} {sizes : Nat → Nat}
    (hl : Levels size sizes count eof) :
    sizes count = 0 := by
  have hupper := hl.upper
  rw [hl.sizes]
  omega

/-- A handle that only misses records which do not set the end of file knows all
blocks. -/
theorem FileActiveStatus.Follows.length {lags sole : Prop} {d : ManifestFolder} {k : Nat}
    {done pending : List LogEntry} {R : View} {h : FileActiveStatus}
    (hh : h.Follows lags sole d k done pending R) (hquiet :
    ¬ SetsEof (pending.map LogEntry.record)) :
    h.blockArray.length = R.blockArray.length := by
  obtain ⟨r, -, hshadows, hrest⟩ := hh.rest
  exact hshadows.length.trans (replay_eof_same hrest hquiet).2.symm

namespace World

theorem sizes_le (G : Account) (size : Nat) (f : FileId) (i : Nat) : G.sizes size f i ≤ size := by
  rw [Account.sizes, Library.length_page]
  exact Nat.min_le_left _ _

/-- What the critical sections of handle `h` are observed against. -/
def site (cfg : Config) (G : Account) (w : World) (h : FileActiveStatus) (a k : Nat)
    (ha : h.activeId = some a) (hk : w.folder.links h.fileId = some k) (hl : w.folder.WellLinked) :
    Site where
  cfg := cfg
  folder := w.folder
  oss := w.oss
  own := G.own
  handle := h
  a := a
  file := k
  lags := True
  sole := True
  alone := True
  sole_of_alone := id
  activeId := ha
  linked := hk
  wellLinked := hl

theorem Agrees.atlas (hw : Agrees cfg G V n w) {a k : Nat} {es : List LogEntry} {R : View}
    (ha : h.activeId = some a) (hk : w.folder.links h.fileId = some k)
    (hcontent : w.folder.content k = logBytes es)
    (hreplayed : replay .empty (es.map LogEntry.record) = .ok R) :
    (w.site cfg G h a k ha hk hw.linked).Atlas (G.sizes cfg.localBucketSize) G.own R w.folder where
  reflects := by
    obtain ⟨es', R', hfiled⟩ := hw.filed _ k hk
    obtain rfl := logBytes_injective (hcontent.symm.trans hfiled.content)
    obtain rfl : R = R' := Except.ok.inj (hreplayed.symm.trans hfiled.replayed)
    exact hfiled.reflects
  elsewhere g k' _ hk' := by
    obtain ⟨es', R', hfiled⟩ := hw.filed g k' hk'
    exact ⟨es', R', hfiled.content, hfiled.replayed, hfiled.reflects⟩
  placed b p hp := by
    obtain ⟨f, i, state⟩ := p
    exact hw.placed b f i (Role.spot_eq_some.mpr ⟨state, hp⟩)

/-- The number of blocks in the log. -/
theorem Agrees.length (hw : Agrees cfg G V n w) {f : FileId} {k : Nat} {es : List LogEntry}
    {R : View} (hk : w.folder.links f = some k) (hcontent : w.folder.content k = logBytes es)
    (hreplayed : replay .empty (es.map LogEntry.record) = .ok R) :
    R.blockArray.length = G.blocks f := by
  obtain ⟨es', R', hfiled⟩ := hw.filed f k hk
  obtain rfl := logBytes_injective (hcontent.symm.trans hfiled.content)
  obtain rfl : R = R' := Except.ok.inj (hreplayed.symm.trans hfiled.replayed)
  exact hfiled.length

/-- The working handle can enter a critical section. -/
theorem Agrees.seat (hw : Agrees cfg G V n w) {a k : Nat} {done pending : List LogEntry} {R : View}
    (hn : w.files[n]? = some h) (ha : h.activeId = some a) (hh : Attends G w h a k done pending R) :
    (w.site cfg G h a k ha hh.linked hw.linked).Seat (G.sizes cfg.localBucketSize) V G.own done
    pending R
      (w.ctx h) := by
  have hlength := hw.length hh.linked hh.follows.content hh.follows.replayed
  have hlevel : Levels cfg.localBucketSize (G.sizes cfg.localBucketSize h.fileId)
      R.blockArray.length
      h.eof := by
    rw [hlength, hh.eof]
    exact hw.level _
  refine ⟨.refl h, ⟨hw.staffed, sizes_le G _, fun _ _ _ => rfl, fun b f i e => ?_⟩, rfl, rfl,
    hh.follows, rfl, fun _ => hlevel.fits (hh.follows.length hh.quiet) rfl, fun _ =>
    ⟨hh.quiet, hlevel⟩, hw.atlas ha hh.linked hh.follows.content hh.follows.replayed, hh.books⟩
  change G.own b = .victim f i e ↔ if e = a then V = some ⟨b, f, i⟩ else G.own b = .victim f i e
  split
  · next hea =>
      subst hea
      rw [hw.victims]
      exact ⟨fun hv => hv.1, fun hv => ⟨hv, h, hn, ha⟩⟩
  · exact Iff.rfl

end World

end Gopherwood
