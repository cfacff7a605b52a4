/-
# What orderly runs guarantee

In every state of an orderly run in which no call has thrown, the logs, the segment, the
local space, the object store and the lists of the handles fit together, and a file that
nobody has open can be put together again from its log.
-/

import Gopherwood.Coherence.Runs
import Gopherwood.Library.Tally

namespace Gopherwood

open Library (Run execute page slice)

namespace Role

theorem file_of_holdOf {r : Role} {a : Nat} {x : Hold} (h : r.holdOf a = some x) :
    r.file = some x.file := by
  cases r with
  | free => cases h
  | victim f i e => cases h
  | spare e f =>
      simp only [holdOf, Option.ite_none_right_eq_some, Option.some.injEq] at h
      rw [← h.2]
      rfl
  | loading e f i =>
      simp only [holdOf, Option.ite_none_right_eq_some, Option.some.injEq] at h
      rw [← h.2]
      rfl
  | block f i holders =>
      simp only [holdOf, Option.ite_none_right_eq_some, Option.some.injEq] at h
      rw [← h.2]
      rfl

/-- A bucket that somebody holds is active. -/
theorem type_of_held {r : Role} (h : r.holders ≠ ∅) : r.type = .active := by
  cases r with
  | free => exact absurd rfl h
  | victim f i e => exact absurd rfl h
  | spare e f => rfl
  | loading e f i => rfl
  | block f i holders => exact if_neg h

end Role

namespace World

variable {cfg : Config} {G : Account} {D : Option Draft} {V : Option Victim} {F : FlatFiles}
variable {w : World} {n a b i k : Nat} {f : FileId} {h : FileActiveStatus}

/-- Block `i` of file `f` is where its log says: in its bucket, or in the object store. While it
is loaded, its object may be gone already. -/
structure InPlace (w : World) (f : FileId) (i : Nat) (y : Block) : Prop where
  blockId : y.blockId = some i
  stored : y.isLocal = true → ∃ b x, y.bucketId = some b ∧ w.shm.buckets[b]? = some x ∧
    x.type = y.state ∧ x.fileId = f ∧ x.fileBlockIndex = some i
  remote : y.isLocal = false → y.bucketId = none ∧
    ((w.oss f (some i)).isSome = true ∨ ∃ task ∈ w.tasks, task.Removed f i)

/-- A bucket that stores a block says which. -/
theorem bucket_of_place (hw : Agrees cfg G V n w) {p : Place} (hplace : (G.own b).place = some p) :
    ∃ x, w.shm.buckets[b]? = some x ∧ x.type = p.state ∧ x.fileId = p.file ∧
    x.fileBlockIndex = some p.index := by
  have hfree : G.own b ≠ .free := by
    intro hfree
    rw [hfree] at hplace
    cases hplace
  obtain ⟨x, hx⟩ := hw.staffed.bucket hfree
  have hplays := hw.staffed.plays b x hx
  refine ⟨x, hx, ?_⟩
  cases hown : G.own b with
  | block g j holders =>
      rw [hown] at hplace hplays
      cases hplace
      exact ⟨hplays.type, hplays.file g rfl, hplays.index j rfl⟩
  | victim g j e =>
      rw [hown] at hplace hplays
      cases hplace
      exact ⟨hplays.type, hplays.file g rfl, hplays.index j rfl⟩
  | free => exact absurd hown hfree
  | spare e g =>
      rw [hown] at hplace
      cases hplace
  | loading e g j =>
      rw [hown] at hplace
      cases hplace

/-- A used bucket stores a block. -/
theorem place_of_used (hw : Agrees cfg G V n w) {x : ShareMemBucket}
    (hx : w.shm.buckets[b]? = some x) (htype : x.type = .used) :
    ∃ j, x.fileBlockIndex = some j ∧ (G.own b).place = some ⟨x.fileId, j, .used⟩ := by
  have hplays := hw.staffed.plays b x hx
  have hused := hplays.type
  rw [htype] at hused
  cases hown : G.own b with
  | block g j holders =>
      rw [hown] at hplays hused
      have hnone : holders = ∅ := by
        by_contra hne
        simp only [Role.type, if_neg hne, reduceCtorEq] at hused
      rw [hplays.file g rfl, hplays.index j rfl]
      exact ⟨j, rfl, by simp [Role.place, hnone]⟩
  | victim g j e =>
      rw [hown] at hplays
      rw [hplays.file g rfl, hplays.index j rfl]
      exact ⟨j, rfl, rfl⟩
  | free =>
      rw [hown] at hused
      cases hused
  | spare e g =>
      rw [hown] at hused
      cases hused
  | loading e g j =>
      rw [hown] at hused
      cases hused

theorem Coherent.inPlace (hw : Coherent cfg G D V n w) (hk : w.folder.links f = some k)
    {es : List LogEntry} {R : View} (hfiled : Filed cfg G w f k es R) {y : Block}
    (hy : R.blockArray[i]? = some y) : w.InPlace f i y := by
  have hmirrors := hfiled.reflects.mirrors
  refine ⟨hmirrors.blockId i y hy, fun hlocal => ?_,
    fun hremote => ⟨(hmirrors.remote i y hy hremote).1, ?_⟩⟩
  · obtain ⟨b, hb, hplace⟩ := hmirrors.stored i y hy hlocal
    obtain ⟨x, hx, htype, hfile, hindex⟩ := bucket_of_place hw.agrees hplace
    exact ⟨b, x, hb, hx, htype, hfile, hindex⟩
  · have hi : i < G.blocks f := by
      rw [← hfiled.length]
      exact (List.getElem?_eq_some_iff.mp hy).1
    refine (hw.uploaded f k hk i hi fun b hspot => ?_).imp (fun hobject => ?_) id
    · obtain ⟨state, hplace⟩ := Role.spot_eq_some.mp hspot
      obtain ⟨z, hz, hlocal, -⟩ := hmirrors.placed b i state hplace
      obtain rfl : y = z := Option.some.inj (hy.symm.trans hz)
      rw [hlocal] at hremote
      cases hremote
    · rw [hobject]
      rfl

/-- The file is read again, and still open. -/
theorem reread :
    ∃ w h x, execute (step byteBlocks) Orderly (init byteBlocks) rereading = some w ∧ Calm w ∧
      w.Quiet ∧ w.folder.links (makeFileId 7) = some 0 ∧ w.files[0]? = some h ∧
      h.activeId = some 0 ∧ w.shm.buckets = [x] := by
  have hcheck : ((execute (step byteBlocks) Orderly (init byteBlocks) rereading).any fun w =>
      decide (Calm w) && decide w.Quiet && decide (w.folder.links (makeFileId 7) = some 0) &&
        (w.files[0]?.any fun h => decide (h.activeId = some 0)) &&
          decide (w.shm.buckets.length = 1)) = true := by
    decide +kernel
  obtain ⟨w, hexec, hfacts⟩ := (Option.any_eq_true _ _).mp hcheck
  simp only [Bool.and_eq_true, decide_eq_true_eq] at hfacts
  obtain ⟨⟨⟨⟨hcalm, hquiet⟩, hlinks⟩, hfile⟩, hone⟩ := hfacts
  obtain ⟨h, hn, hactive⟩ := (Option.any_eq_true _ _).mp hfile
  obtain ⟨x, hx⟩ := List.length_eq_one_iff.mp hone
  exact ⟨w, h, x, hexec, hcalm, hquiet, hlinks, hn, of_decide_eq_true hactive, hx⟩

end World

/-- The buckets in the lists of a handle: of its cached blocks, its preallocated and its loading
ones. -/
def FileActiveStatus.heldBuckets (h : FileActiveStatus) : List (Option Nat) :=
  h.lruCache.items.map Prod.snd ++ h.preAllocatedBuckets.map Block.bucketId ++
    h.loadingBuckets.map Block.bucketId

theorem FileActiveStatus.length_heldBuckets (h : FileActiveStatus) :
    h.heldBuckets.length = h.numAcquiredBuckets := by
  simp only [heldBuckets, List.length_append, List.length_map, numAcquiredBuckets, LRUCache.size]

/-- The buckets that a handle holds are those in its lists, each in one place. -/
theorem Books.held {hold : Nat → Option Hold} {f : FileId} {h : FileActiveStatus}
    (hb : Books hold f h) :
    ∃ ids : List Nat, h.heldBuckets = ids.map some ∧ ids.Nodup ∧
    ∀ b, b ∈ ids ↔ (hold b).isSome = true := by
  obtain ⟨spares, hspares⟩ := hb.spares
  obtain ⟨entries, hloads⟩ := hb.loads
  have hcaches := hb.caches
  let cached := h.lruCache.items.map fun item => item.2.getD 0
  have hlisted : h.lruCache.items.map Prod.snd = cached.map some := by
    rw [List.map_map]
    refine List.map_congr_left fun item hitem => ?_
    obtain ⟨b, hb, -⟩ := (hcaches.mem item.1 item.2).mp hitem
    simp only [Function.comp_apply, hb, Option.getD_some]
  have hcached : ∀ b, b ∈ cached ↔ ∃ i, hold b = some (.cached f i) := by
    intro b
    rw [List.mem_map]
    constructor
    · rintro ⟨⟨i, v⟩, hmem, rfl⟩
      obtain ⟨c, rfl, hhold⟩ := (hcaches.mem i _).mp hmem
      exact ⟨i, hhold⟩
    · rintro ⟨i, hhold⟩
      exact ⟨(i, some b), (hcaches.mem i _).mpr ⟨b, rfl, hhold⟩, rfl⟩
  have hloading : ∀ b, b ∈ entries.map Prod.fst ↔ ∃ i, hold b = some (.loading f i) := by
    intro b
    rw [List.mem_map]
    constructor
    · rintro ⟨⟨c, i⟩, hmem, rfl⟩
      exact ⟨i, (hloads.mem c i).mp hmem⟩
    · rintro ⟨i, hhold⟩
      exact ⟨(b, i), (hloads.mem b i).mpr hhold, rfl⟩
  have hloaded : h.loadingBuckets.map Block.bucketId = (entries.map Prod.fst).map some := by
    have hfirst := congrArg (List.map Prod.fst) hloads.listed
    rw [List.map_map, List.map_map] at hfirst
    rw [List.map_map]
    exact hfirst
  refine ⟨cached ++ spares ++ entries.map Prod.fst, ?_, ?_, fun b => ?_⟩
  · rw [FileActiveStatus.heldBuckets, hlisted, hspares.listed, hloaded, List.map_append,
      List.map_append]
  · refine List.nodup_append.mpr ⟨List.nodup_append.mpr ⟨?_, hspares.nodup, ?_⟩, ?_, ?_⟩
    · refine List.Nodup.map_on (fun x hx y hy hsame => ?_)
        (List.Nodup.of_map Prod.fst hcaches.nodup)
      obtain ⟨i, v⟩ := x
      obtain ⟨j, u⟩ := y
      obtain ⟨b, rfl, hi⟩ := (hcaches.mem i _).mp hx
      obtain ⟨c, rfl, hj⟩ := (hcaches.mem j _).mp hy
      obtain rfl : b = c := hsame
      rw [hi] at hj
      cases hj
      rfl
    · rintro b hb c hc rfl
      obtain ⟨i, hhold⟩ := (hcached b).mp hb
      rw [(hspares.mem b).mp hc] at hhold
      cases hhold
    · refine List.Nodup.map_on (fun x hx y hy hsame => ?_) (List.Nodup.of_map Prod.snd hloads.nodup)
      obtain ⟨b, i⟩ := x
      obtain ⟨c, j⟩ := y
      obtain rfl : b = c := hsame
      have hi := (hloads.mem b i).mp hx
      rw [(hloads.mem b j).mp hy] at hi
      cases hi
      rfl
    · rintro b hb c hc rfl
      obtain ⟨i, hhold⟩ := (hloading b).mp hc
      rcases List.mem_append.mp hb with hb | hb
      · obtain ⟨j, hhold'⟩ := (hcached b).mp hb
        rw [hhold] at hhold'
        cases hhold'
      · rw [(hspares.mem b).mp hb] at hhold
        cases hhold
  · rw [List.mem_append, List.mem_append, hcached, hspares.mem, hloading]
    constructor
    · rintro ((⟨i, hhold⟩ | hhold) | ⟨i, hhold⟩)
      · rw [hhold]
        rfl
      · rw [hhold]
        rfl
      · rw [hhold]
        rfl
    · intro hsome
      obtain ⟨x, hx⟩ := Option.isSome_iff_exists.mp hsome
      have hfile := hb.file b x hx
      subst hfile
      cases x with
      | spare f => exact Or.inl (Or.inr hx)
      | loading f i => exact Or.inr ⟨i, hx⟩
      | cached f i => exact Or.inl (Or.inl ⟨i, hx⟩)

namespace World

variable {cfg : Config} {G : Account} {F : FlatFiles} {w : World} {n a k : Nat} {f : FileId}
  {h : FileActiveStatus}

/-- The files that the calls have led to. -/
def served (w : World) : FlatFiles :=
  (FlatFiles.serve w.holder .empty (w.history.map CallRecord.request)).2

theorem Tracks.served (hw : Tracks cfg F w) : w.served = F := by
  rw [World.served, hw.explains]

/-- The bytes of block `i` of a file with `eof` bytes, from where its log says that they are. -/
def fetch (cfg : Config) (w : World) (f : FileId) (eof i : Nat) (y : Block) : Option (List UInt8) :=
  if y.isLocal then
    y.bucketId.map fun b => slice w.space (b * cfg.localBucketSize)
      (min cfg.localBucketSize (eof - i * cfg.localBucketSize))
  else w.oss f y.blockId

/-- The bytes of the blocks from block `i` on. -/
def fetchAll (cfg : Config) (w : World) (f : FileId) (eof : Nat) :
    Nat → List Block → Option (List UInt8)
  | _, [] => some []
  | i, y :: rest =>
      match w.fetch cfg f eof i y, fetchAll cfg w f eof (i + 1) rest with
      | some data, some more => some (data ++ more)
      | _, _ => none

/-- The bytes of a file, of which the log tells `R`: what somebody could put together who
has the log, the local space and the object store, and no handle. -/
def recover (cfg : Config) (w : World) (f : FileId) (R : View) : Option (List UInt8) :=
  w.fetchAll cfg f R.eof 0 R.blockArray

/-- When every block is found, so is the file. -/
theorem fetchAll_eq {eof : Nat} {content : List UInt8} (blocks : List Block) (i : Nat)
    (hfound : ∀ j y, blocks[j]? = some y →
      w.fetch cfg f eof (i + j) y = some (page cfg.localBucketSize content (i + j)))
    (hend : content.length ≤ (i + blocks.length) * cfg.localBucketSize) :
    w.fetchAll cfg f eof i blocks = some (content.drop (i * cfg.localBucketSize)) := by
  induction blocks generalizing i with
  | nil =>
      rw [List.length_nil, Nat.add_zero] at hend
      rw [List.drop_eq_nil_of_le hend]
      rfl
  | cons y rest ih =>
      have hrest := ih (i + 1) (fun j z hz => ?_) ?_
      · rw [fetchAll, show w.fetch cfg f eof i y = _ from hfound 0 y rfl, hrest]
        dsimp only
        rw [Nat.add_zero, page, slice, Nat.succ_mul, ← List.drop_drop, List.take_append_drop]
      · have hj := hfound (j + 1) z hz
        rwa [show i + (j + 1) = i + 1 + j by omega] at hj
      · rw [List.length_cons] at hend
        rwa [show i + 1 + rest.length = i + (rest.length + 1) by omega]

/-- A block of a file that nobody has open is found. -/
theorem Coherent.fetch (hw : Coherent cfg G none none n w) (hk : w.folder.links f = some k)
    (hvacant : w.Vacant f) {es : List LogEntry} {R : View} (hfiled : Filed cfg G w f k es R)
    {i : Nat} {y : Block} (hy : R.blockArray[i]? = some y) :
    w.fetch cfg f (G.content f).length i y = some (page cfg.localBucketSize (G.content f) i) := by
  have hmirrors := hfiled.reflects.mirrors
  have hinPlace := hw.inPlace hk hfiled hy
  unfold World.fetch
  cases hlocal : y.isLocal with
  | true =>
      rw [if_pos rfl]
      obtain ⟨b, hb, hplace⟩ := hmirrors.stored i y hy hlocal
      have hkept := hw.kept b f i (Role.spot_eq_some.mpr ⟨_, hplace⟩)
      rw [image_none, Library.length_page] at hkept
      rw [hb, Option.map_some, hkept]
  | false =>
      rw [if_neg Bool.false_ne_true, hinPlace.blockId]
      have hi : i < G.blocks f := by
        rw [← hfiled.length]
        exact (List.getElem?_eq_some_iff.mp hy).1
      have hnowhere : ∀ b, (G.own b).spot ≠ some (f, i) := by
        intro b hspot
        obtain ⟨state, hplace⟩ := Role.spot_eq_some.mp hspot
        obtain ⟨z, hz, hkept, -⟩ := hmirrors.placed b i state hplace
        obtain rfl : y = z := Option.some.inj (hy.symm.trans hz)
        rw [hlocal] at hkept
        cases hkept
      rcases hw.uploaded f k hk i hi hnowhere with hobject | ⟨task, htask, -, hfile, -⟩
      · exact hobject
      · -- a load of this file would be for a handle that has it open
        obtain ⟨x, e, b, j, hcarries⟩ := hw.ledger.task task htask
        rw [hcarries.info] at hfile
        exact absurd hfile (hvacant n x e hcarries.handle hcarries.active)

end World

end Gopherwood
