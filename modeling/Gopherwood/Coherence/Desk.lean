/-
# A critical section at work

A handle that has caught up works on the segment, on its lists and on the logs.
Between two of its operations the roles of the buckets, the handle's lists, its
cached blocks and the logs agree; what other handles hold, and what they are going
to read, is left to them.
-/

import Gopherwood.Coherence.Books
import Gopherwood.Coherence.Growth
import Gopherwood.File.Thread
import Gopherwood.Journal.Session

namespace Gopherwood

/-- A handle `a` of file `f` changes the role of a bucket: what others hold stays,
what other files store stays, and no eviction starts or ends. -/
structure Role.Works (a : Nat) (f : FileId) (r r' : Role) : Prop where
  holds : ∀ e, e ≠ a → r'.holdOf e = r.holdOf e
  places : ∀ p, p.file ≠ f → (r'.place = some p ↔ r.place = some p)
  victim : ∀ g i e, r' = .victim g i e ↔ r = .victim g i e

namespace Role.Works

variable {a i : Nat} {f : FileId} {hs : Finset Nat} {r r' r'' : Role}

theorem refl (a : Nat) (f : FileId) (r : Role) : Works a f r r :=
  ⟨fun _ _ => rfl, fun _ _ => Iff.rfl, fun _ _ _ => Iff.rfl⟩

theorem trans (h : Works a f r r') (h' : Works a f r' r'') : Works a f r r'' :=
  ⟨fun e he => (h'.holds e he).trans (h.holds e he),
    fun p hp => (h'.places p hp).trans (h.places p hp),
    fun g i e => (h'.victim g i e).trans (h.victim g i e)⟩

theorem symm (h : Works a f r r') : Works a f r' r :=
  ⟨fun e he => (h.holds e he).symm, fun p hp => (h.places p hp).symm,
    fun g i e => (h.victim g i e).symm⟩

theorem free_spare : Works a f .free (.spare a f) := by
  refine ⟨fun e he => ?_, fun p _ => Iff.rfl, fun g i e => by simp⟩
  simp [holdOf, Ne.symm he]

theorem spare_loading : Works a f (.spare a f) (.loading a f i) := by
  refine ⟨fun e he => ?_, fun p _ => Iff.rfl, fun g i e => by simp⟩
  simp [holdOf, Ne.symm he]

theorem spare_block : Works a f (.spare a f) (.block f i {a}) := by
  refine ⟨fun e he => ?_, fun p hp => ?_, fun g i e => by simp⟩
  · simp [holdOf, he, Ne.symm he]
  · simp only [place, reduceCtorEq, iff_false, Option.some.injEq]
    rintro rfl
    exact hp rfl

theorem loading_block : Works a f (.loading a f i) (.block f i {a}) :=
  spare_loading.symm.trans spare_block

theorem insert : Works a f (.block f i hs) (.block f i (insert a hs)) := by
  refine ⟨fun e he => ?_, fun p hp => ?_, fun g i e => by simp⟩
  · simp [holdOf, he]
  · simp only [place, Option.some.injEq]
    constructor
    · rintro rfl
      exact absurd rfl hp
    · rintro rfl
      exact absurd rfl hp

theorem erase : Works a f (.block f i hs) (.block f i (hs.erase a)) := by
  refine ⟨fun e he => ?_, fun p hp => ?_, fun g i e => by simp⟩
  · simp [holdOf, he]
  · simp only [place, Option.some.injEq]
    constructor
    · rintro rfl
      exact absurd rfl hp
    · rintro rfl
      exact absurd rfl hp

variable {own : Nat → Role} {ids : List Nat} {b : Nat}

/-- Bucket `b` gets the role `r`. -/
theorem update (h : Works a f (own b) r) (c : Nat) :
    Works a f (own c) (Function.update own b r c) := by
  by_cases hc : c = b
  · subst hc
    rw [Function.update_self]
    exact h
  · rw [Function.update_of_ne hc]
    exact .refl _ _ _

/-- The buckets `ids` get the role `r`. -/
theorem assign (h : ∀ b ∈ ids, Works a f (own b) r) (c : Nat) :
    Works a f (own c) (assign own ids r c) := by
  by_cases hc : c ∈ ids
  · rw [assign_of_mem hc]
    exact h c hc
  · rw [assign_of_notMem hc]
    exact .refl _ _ _

end Role.Works

/-- Bucket `b` stores in its new role what it stored. -/
theorem Role.place_update {own : Nat → Role} {b : Nat} {r : Role} (h : r.place = (own b).place)
    (c : Nat) :
    (Function.update own b r c).place = (own c).place := by
  by_cases hc : c = b
  · subst hc
    rw [Function.update_self]
    exact h
  · rw [Function.update_of_ne hc]

/-- The buckets store the blocks that they stored. -/
def SameSpots (own own' : Nat → Role) : Prop := ∀ b, (own' b).spot = (own b).spot

namespace SameSpots

variable {own own' own'' : Nat → Role}

theorem refl (own : Nat → Role) : SameSpots own own := fun _ => rfl

theorem trans (h : SameSpots own own') (h' : SameSpots own' own'') : SameSpots own own'' :=
  fun b => (h' b).trans (h b)

theorem update {b : Nat} {r : Role} (h : r.spot = (own b).spot) :
    SameSpots own (Function.update own b r) := by
  intro c
  by_cases hc : c = b
  · subst hc
    rw [Function.update_self]
    exact h
  · rw [Function.update_of_ne hc]

theorem of_place (h : ∀ b, (own' b).place = (own b).place) : SameSpots own own' := by
  intro b
  rw [Role.spot, h b]
  rfl

end SameSpots

/-- The buckets store the blocks that they stored, and the file has as many blocks. -/
structure Stays (own own' : Nat → Role) (R R' : View) : Prop where
  spots : SameSpots own own'
  length : R'.blockArray.length = R.blockArray.length

namespace Stays

variable {own own' own'' : Nat → Role} {R R' R'' : View}

theorem refl (own : Nat → Role) (R : View) : Stays own own R R := ⟨.refl own, rfl⟩

theorem trans (h : Stays own own' R R') (h' : Stays own' own'' R' R'') : Stays own own'' R R'' :=
  ⟨h.spots.trans h'.spots, h'.length.trans h.length⟩

end Stays

theorem SameSpots.stays {own own' : Nat → Role} (h : SameSpots own own') (R : View) :
    Stays own own' R R :=
  ⟨h, rfl⟩

/-- Where a block is: its number, whether it is local, and its bucket. Its state and its
count may change while it stays there. -/
def Block.whereabouts (y : Block) :
    Option Nat × Option Nat × Bool := (y.bucketId, y.blockId, y.isLocal)

/-- The blocks are where they were. -/
def SamePlaces (xs ys : List Block) : Prop := xs.map Block.whereabouts = ys.map Block.whereabouts

namespace SamePlaces

variable {xs ys zs : List Block}

theorem refl (xs : List Block) : SamePlaces xs xs := rfl

theorem trans (h : SamePlaces xs ys) (h' : SamePlaces ys zs) : SamePlaces xs zs := Eq.trans h h'

theorem symm (h : SamePlaces xs ys) : SamePlaces ys xs := Eq.symm h

theorem length (h : SamePlaces xs ys) : xs.length = ys.length := by
  simpa using congrArg List.length h

theorem setState (xs : List Block) (i : Nat) (state : BucketType) :
    SamePlaces xs (xs.modify i fun y => { y with state := state }) := by
  unfold SamePlaces
  apply List.ext_getElem?
  intro j
  rw [List.getElem?_map, List.getElem?_map, List.getElem?_modify]
  cases xs[j]? with
  | none => rfl
  | some y =>
      simp only [Option.map_some]
      split
      · rfl
      · rfl

theorem block {x : Block} {i : Nat} (h : SamePlaces xs ys) (hx : xs[i]? = some x) :
    ∃ y, ys[i]? = some y ∧ y.whereabouts = x.whereabouts := by
  have hi := congrArg (·[i]?) h
  simp only [List.getElem?_map, hx, Option.map_some] at hi
  obtain ⟨y, hy, heq⟩ := Option.map_eq_some_iff.mp hi.symm
  exact ⟨y, hy, heq⟩

end SamePlaces

/-- What a critical section leaves alone of its handle: what was fixed when it was opened,
and what belongs to the thread that called it. -/
structure FileActiveStatus.Steady (h h' : FileActiveStatus) : Prop where
  client : h'.client = h.client
  fileId : h'.fileId = h.fileId
  pid : h'.pid = h.pid
  activeId : h'.activeId = h.activeId
  isWrite : h'.isWrite = h.isWrite
  isDelete : h'.isDelete = h.isDelete
  loadMutex : h'.loadMutex = h.loadMutex
  pos : h'.pos = h.pos
  pc : h'.pc = h.pc
  stream : h'.stream = h.stream
  shouldDestroy : h'.shouldDestroy = h.shouldDestroy

namespace FileActiveStatus.Steady

variable {h h' h'' : FileActiveStatus}

theorem refl (h : FileActiveStatus) : h.Steady h :=
  ⟨rfl, rfl, rfl, rfl, rfl, rfl, rfl, rfl, rfl, rfl, rfl⟩

theorem trans (first : h.Steady h') (second : h'.Steady h'') : h.Steady h'' :=
  ⟨second.client.trans first.client, second.fileId.trans first.fileId, second.pid.trans first.pid,
    second.activeId.trans first.activeId, second.isWrite.trans first.isWrite,
    second.isDelete.trans first.isDelete, second.loadMutex.trans first.loadMutex,
    second.pos.trans first.pos, second.pc.trans first.pc, second.stream.trans first.stream,
    second.shouldDestroy.trans first.shouldDestroy⟩

end FileActiveStatus.Steady

/-- The view `R` of the log of file `g` tells where the blocks are and, where one handle
writes the file, where it ends: if the last block is active, its bucket may know more. -/
structure Reflects (sole : Prop) (size : Nat) (sizes : Nat → Nat) (own : Nat → Role) (g : FileId)
    (R : View) : Prop where
  mirrors : Mirrors own g R.blockArray
  fits : sole → R.Fits size sizes
  settled : sole → ¬ R.LastActive → R.eof = endOf size sizes R.blockArray.length

/-- Only the places of the blocks matter. -/
theorem Reflects.congr {sole : Prop} {size : Nat} {sizes : Nat → Nat} {own own' : Nat → Role}
    {g : FileId} {R : View} (h : Reflects sole size sizes own g R)
    (hplace : ∀ b i state, (own' b).place = some ⟨g, i, state⟩ ↔
    (own b).place = some ⟨g, i, state⟩) :
    Reflects sole size sizes own' g R :=
  ⟨h.mirrors.congr hplace, h.fits, h.settled⟩

/-- One block changes, and the last one stays active if it is. -/
theorem Reflects.recast {sole : Prop} {size : Nat} {sizes : Nat → Nat} {own own' : Nat → Role}
    {g : FileId} {R : View} {ys : List Block} (h : Reflects sole size sizes own g R)
    (hmirrors : Mirrors own' g ys) (hlength : ys.length = R.blockArray.length)
    (hactive : R.LastActive → View.LastActive { R with blockArray := ys }) :
    Reflects sole size sizes own' g { R with blockArray := ys } := by
  refine ⟨hmirrors, fun hsole => (h.fits hsole).congr hlength rfl, fun hsole hnot => ?_⟩
  dsimp only
  rw [hlength]
  exact h.settled hsole (mt hactive hnot)

/-- The log `k` of file `g` can be replayed, and reflects the roles. -/
def ManifestFolder.Mirrored (sole : Prop) (size : Nat) (sizes : Sizes) (own : Nat → Role)
    (d : ManifestFolder) (g : FileId) (k : Nat) : Prop :=
  ∃ es r, d.content k = logBytes es ∧ replay .empty (es.map LogEntry.record) = .ok r ∧
    Reflects sole size (sizes g) own g r

/-- Every linked log is a file of the folder, and the log of one file only. -/
structure ManifestFolder.WellLinked (d : ManifestFolder) : Prop where
  bound : ∀ f k, d.links f = some k → k < d.files.length
  injective : ∀ f g k, d.links f = some k → d.links g = some k → f = g

/-- The `n` blocks of a file that ends at `eof` have `sizes`: all but the last are full,
and the last has the rest. -/
structure Levels (size : Nat) (sizes : Nat → Nat) (n eof : Nat) : Prop where
  sizes : ∀ i, sizes i = min size (eof - i * size)
  upper : eof ≤ n * size
  lower : (n - 1) * size ≤ eof

/-- The last bucket knows the end of file. -/
theorem Levels.last {size n eof : Nat} {sizes : Nat → Nat} (h : Levels size sizes (n + 1) eof) :
    n * size + sizes n = eof := by
  have hsize := h.sizes n
  have hlower : n * size ≤ eof := h.lower
  have hupper := h.upper
  rw [Nat.succ_mul] at hupper
  omega

theorem Levels.last_le {size n eof : Nat} {sizes : Nat → Nat} (h : Levels size sizes n eof) :
    (n - 1) * size + sizes (n - 1) ≤ eof := by
  cases n with
  | zero =>
      have hsize := h.sizes 0
      have hupper := h.upper
      rw [Nat.zero_mul] at hupper
      simp only [Nat.zero_sub, Nat.zero_mul, Nat.zero_add]
      omega
  | succ n => exact Nat.le_of_eq h.last

/-- The bucket that a handle is evicting, and the block in it. The upload lies between two
critical sections, and the victim is what the first hands on to the second. -/
structure Victim where
  bucket : Nat
  file : FileId
  index : Nat
  deriving DecidableEq

/-- What the critical section of a registered handle is observed against: the
folder, the store, the roles and the handle it started with. -/
structure Site where
  cfg : Config
  folder : ManifestFolder
  oss : ObjectStore
  own : Nat → Role
  handle : FileActiveStatus
  a : Nat
  file : Nat
  /-- The handle's array may lag behind the log. -/
  lags : Prop
  /-- At most one handle writes the file. -/
  sole : Prop
  /-- Nobody else works on the file. -/
  alone : Prop
  sole_of_alone : alone → sole
  activeId : handle.activeId = some a
  linked : folder.links handle.fileId = some file
  wellLinked : folder.WellLinked

namespace Site

theorem ownFile (S : Site) : S.folder.OwnFile S.handle.fileId S.file where
  bound := S.wellLinked.bound _ _ S.linked
  links := S.wellLinked.bound
  owner f hf := S.wellLinked.injective f _ _ hf S.linked

/-- The file of the handle. -/
def fileId (S : Site) : FileId := S.handle.fileId

def size (S : Site) : Nat := S.cfg.localBucketSize

/-- What the section may do to the logs. -/
def licence (S : Site) (sizes : Sizes) (k : Nat) : Licence where
  own := k = S.file
  sole := S.sole
  writes := S.handle.isWrite = true
  shared := endOf S.size (sizes S.fileId)

/-- The segment during the section; `V` is the bucket that the handle is evicting.
What others hold and evict stays. -/
structure Segment (S : Site) (sizes : Sizes) (V : Option Victim) (own : Nat → Role)
    (s : SharedMem) :
    Prop where
  staffed : s.Staffed sizes own
  bounded : ∀ f i, sizes f i ≤ S.size
  others : ∀ e, e ≠ S.a → ∀ b, (own b).holdOf e = (S.own b).holdOf e
  victims : ∀ b f i e, own b = .victim f i e ↔
    if e = S.a then V = some ⟨b, f, i⟩ else S.own b = .victim f i e

/-- The log `es` of the file, with the descriptor at its end, and its view. -/
structure Log (S : Site) (sizes : Sizes) (es : List LogEntry) (R : View) (d : ManifestFolder)
    (fd : Option Descriptor) : Prop where
  fd : fd = some ⟨S.file, (logBytes es).length⟩
  content : d.content S.file = logBytes es
  replayed : replay .empty (es.map LogEntry.record) = .ok R
  grown : ManifestFolder.Grows (S.licence sizes) S.folder d

/-- Every log reflects the roles. A handle writes to the logs of other files only when it
evicts a block of theirs. -/
structure Atlas (S : Site) (sizes : Sizes) (own : Nat → Role) (R : View) (d : ManifestFolder) :
    Prop where
  reflects : Reflects S.sole S.size (sizes S.fileId) own S.fileId R
  elsewhere : ∀ g k, g ≠ S.fileId → d.links g = some k → d.Mirrored S.sole S.size sizes own g k
  placed : ∀ b p, (own b).place = some p → ∃ k, d.links p.file = some k

/-- The handle's view of the log, once it has replayed it: its block array shadows the
replayed one, and where only one handle writes the file it knows the end. -/
structure Sight (S : Site) (sizes : Sizes) (R : View) (h : FileActiveStatus) : Prop where
  steady : S.handle.Steady h
  shadows : Shadows S.lags h.blockArray R.blockArray
  eof : S.sole → FileActiveStatus.Knows (S.handle.isWrite = true) h.eof R ∧ S.handle.eof ≤ h.eof
  fits : S.sole → h.view.Fits S.size (sizes S.fileId)
  level : S.alone → h.eof = S.handle.eof ∧ Levels S.size (sizes S.fileId) R.blockArray.length h.eof

/-- The state when a critical section begins, before the log is replayed: what other handles
have done to the file is in the records that the handle has not read. -/
structure Seat (S : Site) (sizes : Sizes) (V : Option Victim) (own : Nat → Role)
    (done pending : List LogEntry) (R : View) (c : Ctx) : Prop where
  steady : S.handle.Steady c.self
  segment : S.Segment sizes V own c.shm
  folder : c.folder = S.folder
  store : c.oss = S.oss
  follows : c.self.Follows S.lags S.sole c.folder S.file done pending R
  eof : c.self.eof = S.handle.eof
  fits : S.sole → c.self.view.Fits S.size (sizes S.fileId)
  level : S.alone → ¬ SetsEof (pending.map LogEntry.record) ∧
    Levels S.size (sizes S.fileId) R.blockArray.length c.self.eof
  atlas : S.Atlas sizes own R c.folder
  books : Books (fun b => (own b).holdOf S.a) S.fileId c.self

/-- The state between two operations of a critical section. The handle is alone and its view
is that of the log, so every operation is proved against the desk and not against what other
handles may do. -/
structure Desk (S : Site) (sizes : Sizes) (V : Option Victim) (own : Nat → Role)
    (es : List LogEntry) (R : View) (c : Ctx) : Prop where
  segment : S.Segment sizes V own c.shm
  log : S.Log sizes es R c.folder c.self.fd
  store : c.oss = S.oss
  atlas : S.Atlas sizes own R c.folder
  sight : S.Sight sizes R c.self
  books : Books (fun b => (own b).holdOf S.a) S.fileId c.self

end Site

namespace Site

open FileActiveStatus

variable {S : Site} {sizes : Sizes} {V : Option Victim} {own own' : Nat → Role} {es : List LogEntry}
variable {R R' : View} {c c' : Ctx} {s s' : SharedMem} {d d' : ManifestFolder} {h h' :
  FileActiveStatus}

theorem Segment.of_works (hs : S.Segment sizes V own s) (hstaffed : s'.Staffed sizes own')
    (hworks : ∀ b, (own b).Works S.a S.fileId (own' b)) : S.Segment sizes V own' s' where
  staffed := hstaffed
  bounded := hs.bounded
  others e he b := ((hworks b).holds e he).trans (hs.others e he b)
  victims b f i e := ((hworks b).victim f i e).trans (hs.victims b f i e)

/-- Only the file of the handle has its log. -/
theorem file_ne (hlinks : d.links = S.folder.links) {g : FileId} {k : Nat} (hg : g ≠ S.fileId)
    (hk : d.links g = some k) : k ≠ S.file := by
  rintro rfl
  rw [hlinks] at hk
  exact hg (S.ownFile.owner g hk)

/-- Blocks of the file move; those of other files stay where they are. -/
theorem Atlas.move (h : S.Atlas sizes own R d) (hlinks : d.links = S.folder.links)
    (hplaces : ∀ b p, p.file ≠ S.fileId → ((own' b).place = some p ↔ (own b).place = some p))
    (hreflects : Reflects S.sole S.size (sizes S.fileId) own' S.fileId R')
    (hlinks' : d'.links = d.links) (hcontent : ∀ k, k ≠ S.file → d'.content k = d.content k) :
    S.Atlas sizes own' R' d' where
  reflects := hreflects
  elsewhere g k hg hk := by
    rw [hlinks'] at hk
    obtain ⟨es, r, hes, hreplay, hm⟩ := h.elsewhere g k hg hk
    refine ⟨es, r, (hcontent k (file_ne hlinks hg hk)).trans hes, hreplay, ?_⟩
    exact hm.congr fun b i state => hplaces b ⟨g, i, state⟩ hg
  placed b p hp := by
    rw [hlinks']
    by_cases hfile : p.file = S.fileId
    · rw [hfile, hlinks]
      exact ⟨S.file, S.linked⟩
    · exact h.placed b p ((hplaces b p hfile).mp hp)

theorem Atlas.of_works (h : S.Atlas sizes own R d) (hlinks : d.links = S.folder.links)
    (hworks : ∀ b, (own b).Works S.a S.fileId (own' b))
    (hreflects : Reflects S.sole S.size (sizes S.fileId) own' S.fileId R')
    (hlinks' : d'.links = d.links) (hcontent : ∀ k, k ≠ S.file → d'.content k = d.content k) :
    S.Atlas sizes own' R' d' :=
  h.move hlinks (fun b => (hworks b).places) hreflects hlinks' hcontent

theorem Atlas.mirrors (h : S.Atlas sizes own R d) :
    Mirrors own S.fileId R.blockArray := h.reflects.mirrors

/-- The log is continued, and no other one. -/
theorem Log.continue {fd fd' : Option Descriptor} {new : List LogEntry} (h : S.Log sizes es R d fd)
    (hfd : fd' = some ⟨S.file, (logBytes (es ++ new)).length⟩)
    (hnew : d'.content S.file = logBytes (es ++ new))
    (hsettles : Settles (S.licence sizes S.file) R (new.map LogEntry.record) R')
    (hlinks : d'.links = d.links) (hfiles : d'.files.length = d.files.length)
    (hother : ∀ k, k ≠ S.file → d'.content k = d.content k) :
    S.Log sizes (es ++ new) R' d' fd' where
  fd := hfd
  content := hnew
  replayed := ManifestFolder.Grows.replay_extended h.replayed hsettles
  grown := by
    refine h.grown.trans ⟨hlinks, hfiles, fun k es' r hcontent hreplay => ?_⟩
    by_cases hk : k = S.file
    · subst hk
      obtain rfl := logBytes_injective (h.content.symm.trans hcontent)
      obtain rfl : R = r := Except.ok.inj (h.replayed.symm.trans hreplay)
      exact ⟨new, R', hnew, hsettles⟩
    · exact ⟨[], r, by rw [List.append_nil, hother k hk, hcontent], .refl _ _⟩

/-- The handle wrote one record to its log. -/
structure Wrote (S : Site) (record : Record) (es : List LogEntry) (c c' : Ctx) (e : LogEntry) :
    Prop where
  record : e.record = record
  fd : c'.self.fd = some ⟨S.file, (logBytes (es ++ [e])).length⟩
  content : c'.folder.content S.file = logBytes (es ++ [e])
  shm : c'.shm = c.shm
  self : c'.self = { c.self with fd := c'.self.fd }
  store : c'.oss = c.oss
  links : c'.folder.links = c.folder.links
  files : c'.folder.files.length = c.folder.files.length
  other : ∀ k, k ≠ S.file → c'.folder.content k = c.folder.content k

theorem Log.wrote {type : RecordType} {eof : Nat} {blocks : List Block} {u : Unit}
    (h : S.Log sizes es R c.folder c.self.fd) (hrun : logRecord type eof blocks c = .ok u c') :
    ∃ e, S.Wrote ⟨type, eof, blocks.map fun b => { b with usageCount := 0 }⟩ es c c' e := by
  have hfd := h.fd
  have hlength : S.file < c.folder.files.length := by
    rw [h.grown.files]
    exact S.ownFile.bound
  simp only [logRecord, Library.run_bind, Library.run_get, hfd, Library.run_set] at hrun
  cases hrun
  let entry : LogEntry :=
    ⟨c.self.client, ⟨type, eof, blocks.map fun b => { b with usageCount := 0 }⟩⟩
  let fd : Descriptor := ⟨S.file, (logBytes es).length⟩
  have hend : (c.folder.mfWrite fd entry).1.content S.file = c.folder.content S.file ++
      logBytes [entry] :=
    ManifestFolder.content_mfWrite_end fd entry hlength (by rw [h.content])
  refine ⟨entry, rfl, ?_, ?_, rfl, rfl, rfl, rfl, ManifestFolder.length_files_mfWrite,
    fun k hk => ?_⟩
  · change some (c.folder.mfWrite fd entry).2 = _
    rw [ManifestFolder.offset_mfWrite, logBytes_append, List.length_append]
  · refine hend.trans ?_
    rw [h.content, logBytes_append]
  · exact ManifestFolder.content_mfWrite_other fd entry hk

theorem Log.write {record : Record} {e : LogEntry} (h : S.Log sizes es R c.folder c.self.fd)
    (hw : S.Wrote record es c c' e) (hsettles : Settles (S.licence sizes S.file) R [record] R') :
    S.Log sizes (es ++ [e]) R' c'.folder c'.self.fd := by
  refine h.continue hw.fd hw.content ?_ hw.links hw.files hw.other
  rw [List.map_singleton, hw.record]
  exact hsettles

/-- A handle with nothing to replay can go to work. -/
theorem Seat.desk {done : List LogEntry} (hs : S.Seat sizes V own done [] R c) :
    S.Desk sizes V own done R c := by
  have hfollows := hs.follows
  refine ⟨hs.segment, ⟨hfollows.fd, ?_, ?_, ?_⟩, hs.store, hs.atlas,
    ⟨hs.steady, ?_, fun hsole => ⟨?_, Nat.le_of_eq hs.eof.symm⟩, hs.fits,
      fun halone => ⟨hs.eof, (hs.level halone).2⟩⟩, hs.books⟩
  · rw [hfollows.content, List.append_nil]
  · rw [← hfollows.replayed, List.append_nil]
  · rw [hs.folder]
    exact .refl _ _
  · obtain ⟨r, hr, hshadows⟩ := hfollows.read
    have hreplayed := hfollows.replayed
    rw [List.append_nil, hr] at hreplayed
    cases hreplayed
    exact hshadows
  · rcases hfollows.eof hsole with ⟨hsets, -⟩ | ⟨-, hknows⟩
    · exact absurd hsets not_setsEof_nil
    · rw [← hs.steady.isWrite]
      exact hknows

/-- After catching up the handle can go to work. -/
theorem Seat.catchUp {done pending : List LogEntry} {u : Unit}
    (hs : S.Seat sizes V own done pending R c) (hrun : catchUpManifestLogs c = .ok u c') :
    S.Desk sizes V own (done ++ pending) R c' ∧ c'.self = { c.self with
      fd := c'.self.fd, readEntries := c'.self.readEntries
      blockArray := c'.self.blockArray, eof := c'.self.eof } := by
  obtain ⟨v, hv, rfl⟩ := catchUp_replays hs.follows.fd ⟨hs.follows.content, rfl⟩ hrun
  obtain ⟨hshadows, heof, hfits⟩ := hs.follows.caughtUp hv
  refine ⟨⟨hs.segment, ⟨rfl, hs.follows.content, hs.follows.replayed, ?_⟩, hs.store, hs.atlas,
    ⟨hs.steady.trans ⟨rfl, rfl, rfl, rfl, rfl, rfl, rfl, rfl, rfl, rfl, rfl⟩, hshadows,
      fun hsole => ?_, fun hsole => hfits (hs.atlas.reflects.fits hsole) (hs.fits hsole),
      fun halone => ?_⟩,
    hs.books.congr rfl rfl rfl⟩, rfl⟩
  · change S.folder.Grows _ c.folder
    rw [hs.folder]
    exact .refl _ _
  · obtain ⟨hknows, hle⟩ := heof hsole
    rw [hs.steady.isWrite] at hknows
    exact ⟨hknows, hs.eof ▸ hle⟩
  · obtain ⟨hquiet, hlevels⟩ := hs.level halone
    have hsame : v.eof = c.self.eof := (replay_eof_same hv hquiet).1
    change v.eof = S.handle.eof ∧ Levels S.size (sizes S.fileId) R.blockArray.length v.eof
    rw [hsame]
    exact ⟨hs.eof, hlevels⟩

end Site

end Gopherwood
