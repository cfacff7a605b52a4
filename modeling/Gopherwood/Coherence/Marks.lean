/-
# Marks and lists

A handle is marked in the buckets of its lists and in no others, and a handle that has
been closed is marked in none. When `getCurBlockInfo` returns, the bucket of the block at
the position is one of them.
-/

import Gopherwood.Coherence.OneHandle
import Gopherwood.File.Connections

namespace Gopherwood

open Library (Run execute)

namespace World

variable {cfg : Config} {G : Account} {D : Option Draft} {V : Option Victim} {F : FlatFiles}
variable {w : World} {n m a b i : Nat} {h : FileActiveStatus}

/-- Calls of the API are made one at a time, by any handles of any files. -/
def OneCall (w : World) : Action → Prop
  | .openFile _ _ _ _ _ | .call _ _ => w.Quiet
  | .file _ | .failUpload _ | .load _ | .failLoad _ => True
  | _ => False

instance (w : World) : (act : Action) → Decidable (w.OneCall act)
  | .openFile _ _ _ _ _ | .call _ _ => inferInstanceAs (Decidable w.Quiet)
  | .file _ | .failUpload _ | .load _ | .failLoad _ => isTrue trivial
  | .openAdmin _ | .evictBlocks _ | .closeAdmin _ | .admin _ | .failAdminUpload _ => isFalse id

/-! ## The current block -/

/-- The block at the position of handle `h`, registered as `a`, is in its cache and local, in an
active bucket that is not loading, is that of the block, and is marked by the handle; and
`getCurBlockInfo` has returned this bucket, with the offset of the position. -/
def Pinned (cfg : Config) (w : World) (h : FileActiveStatus) (a : Nat) : Prop :=
  ∃ (b : Nat) (y : Block) (x : ShareMemBucket),
    (h.pos / cfg.localBucketSize, some b) ∈ h.lruCache.items ∧
    h.blockArray[h.pos / cfg.localBucketSize]? = some y ∧ y.isLocal = true ∧
    w.shm.buckets[b]? = some x ∧ x.type = .active ∧ x.loading = false ∧ x.fileId = h.fileId ∧
    x.fileBlockIndex = some (h.pos / cfg.localBucketSize) ∧ x.hasActiveId a = true ∧
    h.stream.blockInfo = ⟨h.fileId, some (h.pos / cfg.localBucketSize), some b,
      (h.pos % cfg.localBucketSize : Nat), 0, true⟩

/-- A bucket that a handle has in its cache. -/
theorem bucket_of_cached (hw : Agrees cfg G V n w) {f : FileId}
    (hheld : (G.own b).holdOf a = some (.cached f i)) :
    ∃ x, w.shm.buckets[b]? = some x ∧ x.type = .active ∧ x.loading = false ∧ x.fileId = f ∧
      x.fileBlockIndex = some i ∧ x.hasActiveId a = true := by
  have hfree : G.own b ≠ .free := by
    intro hfree
    rw [hfree] at hheld
    cases hheld
  obtain ⟨x, hx⟩ := hw.staffed.bucket hfree
  have hplays := hw.staffed.plays b x hx
  have hmark : x.hasActiveId a = true := by
    rw [ShareMemBucket.hasActiveId_iff, hplays.marks]
    exact (Role.holdOf_isSome a _).mp (by rw [hheld]; rfl)
  refine ⟨x, hx, ?_⟩
  cases hown : G.own b with
  | block g j holders =>
      rw [hown] at hheld hplays
      have hmem : a ∈ holders ∧ Hold.cached g j = Hold.cached f i := by
        simpa [Role.holdOf] using hheld
      obtain ⟨hmem, hsame⟩ := hmem
      cases hsame
      refine ⟨?_, hplays.loading, hplays.file f rfl, hplays.index i rfl, hmark⟩
      rw [hplays.type]
      exact if_neg (Finset.ne_empty_of_mem hmem)
  | free => exact absurd hown hfree
  | spare e g =>
      rw [hown] at hheld
      simp [Role.holdOf] at hheld
  | loading e g j =>
      rw [hown] at hheld
      simp [Role.holdOf] at hheld
  | victim g j e =>
      rw [hown] at hheld
      cases hheld

theorem Streaming.pinned {before : FileId → List UInt8} {start : Nat}
    (hs : Streaming cfg G D V n a before start h w) (hpc : h.pc = .transfer) :
    w.Pinned cfg h a ∧ ∃ after, h.transferChunk cfg w.space = .ok after := by
  have hstage := hs.stage
  rw [hpc] at hstage
  obtain ⟨-, -, -, b, ⟨hcurrent, hheld⟩, hinfo⟩ := hstage
  obtain ⟨k, done, pending, R, hh, -⟩ := hs.coherent.agrees.attends n h a hs.handle hs.active
  obtain ⟨x, hx, htype, hloading, hfile, hindex, hmark⟩ :=
    bucket_of_cached hs.coherent.agrees hheld
  obtain ⟨y, hy, -, -, hlocal⟩ := hh.anchored b _ hheld
  have hcached := (hh.books.caches.mem _ _).mpr ⟨b, rfl, hheld⟩
  rw [hcurrent] at hcached hy hindex hinfo
  refine ⟨⟨b, y, x, hcached, hy, hlocal, hx, htype, hloading, hfile, hindex, hmark, hinfo⟩, ?_⟩
  unfold FileActiveStatus.transferChunk
  rcases hs.progress.kind with ⟨length, hr⟩ | ⟨buffer, hwr⟩
  · simp only [hr.transfer, hinfo]
    exact ⟨_, rfl⟩
  · simp only [hwr.transfer, hinfo, if_true]
    exact ⟨_, rfl⟩

/-- The first of the two blocks is read again, and `getCurBlockInfo` has returned. -/
def readingBack : List Action :=
  [.openFile 7 true false .writeFile 1, .file 0, .file 0, .call 0 (.write [1, 2])] ++
    List.replicate 15 (.file 0) ++ [.call 0 (.seekSet 0), .call 0 (.read 3)] ++
    List.replicate 6 (.file 0) ++ List.replicate 4 (.load 0) ++ List.replicate 2 (.file 0)

/-- A block is loaded, and `getCurBlockInfo` has returned. -/
def loadingTask : List Action :=
  [.openFile 7 true false .writeFile 1, .file 0, .file 0, .call 0 (.write [1, 2, 3, 4, 5, 6])] ++
    List.replicate 24 (.file 0) ++ [.call 0 (.seekSet 3), .call 0 (.read 1)] ++
    List.replicate 12 (.file 0) ++ List.replicate 4 (.load 0) ++ List.replicate 2 (.file 0)

/-- The marks of every registered handle are in the buckets of its lists and nowhere else, at most
one in a bucket; an active bucket has one; a closed handle has no slot; and a slot that nobody has
is free and marked nowhere. -/
structure Ledgered (w : World) : Prop where
  lists : ∀ (n : Nat) (h : FileActiveStatus) (a : Nat), w.files[n]? = some h →
    h.activeId = some a → ∃ ids : List Nat, h.heldBuckets = ids.map some ∧ ids.Nodup ∧
    ∀ b, b ∈ ids ↔ ∃ x, w.shm.buckets[b]? = some x ∧ x.hasActiveId a = true
  once : ∀ x ∈ w.shm.buckets, x.marks.Nodup
  held : ∀ x ∈ w.shm.buckets, x.type = .active → ∃ (n : Nat) (h : FileActiveStatus) (a : Nat),
    w.files[n]? = some h ∧ h.activeId = some a ∧ x.hasActiveId a = true
  closed : ∀ h ∈ w.files, h.pc = .closed → h.activeId = none
  free : ∀ a, (∀ h ∈ w.files, h.activeId ≠ some a) → (∀ x ∈ w.admins, x.activeId ≠ some a) →
    (∀ x ∈ w.shm.buckets, x.hasActiveId a = false) ∧
    ∀ slot, w.shm.activeStatus[a]? = some slot → slot.pid = none

/-- A mark is that of a registered handle. -/
theorem handle_of_mark (hw : Agrees cfg G V n w) {x : ShareMemBucket}
    (hx : w.shm.buckets[b]? = some x) (hmark : x.hasActiveId a = true) :
    ∃ (m : Nat) (h : FileActiveStatus), w.files[m]? = some h ∧ h.activeId = some a := by
  rw [ShareMemBucket.hasActiveId_iff, (hw.staffed.plays b x hx).marks, Finset.mem_val,
    ← Role.holdOf_isSome, Option.isSome_iff_exists] at hmark
  obtain ⟨hold, hhold⟩ := hmark
  exact hw.holders b a hold hhold

/-- What is in the lists of a handle is marked by it, and what is marked is in the lists. -/
theorem lists_of_agrees (hw : Agrees cfg G V n w) (hm : w.files[m]? = some h)
    (ha : h.activeId = some a) :
    ∃ ids : List Nat, h.heldBuckets = ids.map some ∧ ids.Nodup ∧
    ∀ b, b ∈ ids ↔ ∃ x, w.shm.buckets[b]? = some x ∧ x.hasActiveId a = true := by
  obtain ⟨k, done, pending, R, hh, -⟩ := hw.attends m h a hm ha
  obtain ⟨ids, hlisted, hnodup, hids⟩ := hh.books.held
  refine ⟨ids, hlisted, hnodup, fun b => (hids b).trans ⟨fun hheld => ?_, ?_⟩⟩
  · have hfree : G.own b ≠ .free := by
      intro hfree
      rw [hfree] at hheld
      cases hheld
    obtain ⟨x, hx⟩ := hw.staffed.bucket hfree
    refine ⟨x, hx, ?_⟩
    rw [ShareMemBucket.hasActiveId_iff, (hw.staffed.plays b x hx).marks]
    exact (Role.holdOf_isSome a _).mp hheld
  · rintro ⟨x, hx, hmark⟩
    rw [ShareMemBucket.hasActiveId_iff, (hw.staffed.plays b x hx).marks] at hmark
    exact (Role.holdOf_isSome a _).mpr hmark

/-- An active bucket has a mark. -/
theorem mark_of_active (hw : Agrees cfg G V n w) {x : ShareMemBucket}
    (hx : w.shm.buckets[b]? = some x) (htype : x.type = .active) :
    ∃ a, x.hasActiveId a = true := by
  have hplays := hw.staffed.plays b x hx
  have hactive := hplays.type
  rw [htype] at hactive
  suffices hsome : ∃ a, a ∈ (G.own b).holders by
    obtain ⟨a, hmem⟩ := hsome
    refine ⟨a, ?_⟩
    rw [ShareMemBucket.hasActiveId_iff, hplays.marks]
    exact hmem
  cases hown : G.own b with
  | free =>
      rw [hown] at hactive
      cases hactive
  | victim f i e =>
      rw [hown] at hactive
      cases hactive
  | spare e f => exact ⟨e, Finset.mem_singleton_self e⟩
  | loading e f i => exact ⟨e, Finset.mem_singleton_self e⟩
  | block f i holders =>
      rw [hown] at hactive
      by_cases hnone : holders = ∅
      · simp only [Role.type, if_pos hnone, reduceCtorEq] at hactive
      · exact Finset.nonempty_iff_ne_empty.mpr hnone

/-- A slot that no handle has is free. -/
theorem Connected.free (hw : w.Connected cfg) (hfiles : ∀ h ∈ w.files, h.activeId ≠ some a)
    (hadmins : ∀ x ∈ w.admins, x.activeId ≠ some a) {slot : ShareMemActiveStatus}
    (hslot : w.shm.activeStatus[a]? = some slot) : slot.pid = none := by
  by_contra hpid
  obtain ⟨pid, hpid⟩ := Option.ne_none_iff_exists'.mp hpid
  have htaken : a ∈ w.shm.connections.taken := by
    refine Connections.mem_taken.mpr ⟨pid, slot.fileId, ?_⟩
    simp [SharedMem.connections, SharedMem.roster, hslot, hpid]
  rcases List.mem_append.mp (hw.taken.symm.subset htaken) with hmem | hmem
  · obtain ⟨h, hh, ha⟩ := List.mem_filterMap.mp hmem
    exact hfiles h hh ha
  · obtain ⟨x, hx, ha⟩ := List.mem_filterMap.mp hmem
    exact hadmins x hx ha

/-- A closed handle has no slot. -/
theorem Serving.closed (hs : Serving cfg F w) {h : FileActiveStatus} (hh : h ∈ w.files)
    (hpc : h.pc = .closed) : h.activeId = none := by
  obtain ⟨m, hm⟩ := List.mem_iff_getElem?.mp hh
  cases hs with
  | rests n hstores hrest => exact (hrest m h hm).gone hpc
  | works n x hn hothers hdoing =>
      by_cases hmn : m = n
      · subst hmn
        obtain rfl : h = x := Option.some.inj (hm.symm.trans hn)
        exact absurd (Or.inr hpc) hdoing.busy
      · exact (hothers m h hmn hm).gone hpc

/-- Two buckets, and two for every handle. -/
def twoEach : Config := .intact 2 1 4 2

/-- Three blocks are written. The first one is read again, for which the first two are loaded;
when the first has come, the handle is closed. -/
def leavingLoad : List Action :=
  [.openFile 7 true false .writeFile 1, .file 0, .file 0, .call 0 (.write [1, 2, 3])] ++
    List.replicate 20 (.file 0) ++ [.call 0 (.seekSet 0), .call 0 (.read 1)] ++
    List.replicate 11 (.file 0) ++ List.replicate 4 (.load 0) ++ List.replicate 4 (.file 0) ++
    [.call 0 (.close false), .file 0, .file 0]

end World

end Gopherwood
