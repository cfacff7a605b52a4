/-
# Leaving the segment

A handle that closes gives back every bucket that it holds, and then its slot. The
last handle of a file removes it, or replaces its log by one record that tells the
same.
-/

import Gopherwood.Coherence.Calls
import Gopherwood.Journal.Closing
import Gopherwood.Journal.Steps
import Gopherwood.Segment.Tags

namespace Gopherwood

open Library (bind_ok Keeps Spec)
open FileActiveStatus

namespace Site

variable {S : Site} {sizes : Sizes} {V : Option Victim} {own own' : Nat → Role} {es : List LogEntry}
variable {R R' : View} {c c' : Ctx} {h h' : FileActiveStatus} {done pending : List LogEntry}
variable {b i : Nat}

/-! ## Giving back buckets and slot -/

/-- The parts of a critical section that do not depend on the handle's lists. -/
structure Bare (S : Site) (sizes : Sizes) (V : Option Victim) (own : Nat → Role)
    (es : List LogEntry) (R : View) (c : Ctx) : Prop where
  segment : S.Segment sizes V own c.shm
  log : S.Log sizes es R c.folder c.self.fd
  store : c.oss = S.oss
  atlas : S.Atlas sizes own R c.folder
  sight : S.Sight sizes R c.self

theorem Desk.bare (hd : S.Desk sizes V own es R c) : S.Bare sizes V own es R c :=
  ⟨hd.segment, hd.log, hd.store, hd.atlas, hd.sight⟩

/-- The lists may change. -/
theorem Bare.lists (hd : S.Bare sizes V own es R c) (hsteady : c.self.Steady h)
    (hblocks : h.blockArray = c.self.blockArray) (heof : h.eof = c.self.eof)
    (hfd : h.fd = c.self.fd) :
    S.Bare sizes V own es R { c with self := h } where
  segment := hd.segment
  log := by
    change S.Log sizes es R c.folder h.fd
    rw [hfd]
    exact hd.log
  store := hd.store
  atlas := hd.atlas
  sight := hd.sight.congr hsteady hblocks heof

/-- A record is logged that changes no view. -/
theorem Bare.note {type : RecordType} {eof : Nat} {blocks : List Block} {u : Unit}
    (hd : S.Bare sizes V own es R c) (hrun : logRecord type eof blocks c = .ok u c')
    (hsettles : Settles (S.licence sizes S.file) R
      [⟨type, eof, blocks.map fun b => { b with usageCount := 0 }⟩] R) :
    ∃ es', S.Bare sizes V own es' R c' ∧ c'.self = { c.self with fd := c'.self.fd } := by
  obtain ⟨e, hw⟩ := hd.log.wrote hrun
  refine ⟨es ++ [e], ⟨?_, hd.log.write hw hsettles, hw.store.trans hd.store, ?_,
    hd.sight.withFd hw.self⟩, hw.self⟩
  · rw [hw.shm]
    exact hd.segment
  · exact hd.atlas.of_works hd.log.grown.links (fun b => .refl _ _ _) hd.atlas.reflects hw.links
      hw.other

/-- All spare buckets are given back. -/
theorem Bare.releaseSpares {blocks : List Block} {ids : List Nat} {c₁ : Ctx} {u u' : Unit}
    (hd : S.Bare sizes V own es R c)
    (hspares : Spares (fun b => (own b).holdOf S.a) S.fileId blocks ids)
    (hrelease : onShm (SharedMemoryContext.releaseBuckets blocks) c = .ok u c₁)
    (hwrite : logReleaseBucket blocks c₁ = .ok u' c') :
    ∃ es', S.Bare sizes V (Role.assign own ids .free) es' R c' ∧
      c'.self = { c.self with fd := c'.self.fd } := by
  obtain ⟨s, hrun, rfl⟩ := onShm_ok hrelease
  have hspare : ∀ b ∈ ids, own b = .spare S.a S.fileId :=
    fun b hb => spare_of_holdOf ((hspares.mem b).mp hb)
  obtain ⟨hsegment, hworks⟩ := hd.segment.release hspares.listed hspare hrun
  have hd' : S.Bare sizes V (Role.assign own ids .free) es R { c with shm := s } := by
    refine ⟨hsegment, hd.log, hd.store, ?_, hd.sight⟩
    refine hd.atlas.of_works hd.log.grown.links hworks ?_ rfl fun _ _ => rfl
    exact hd.atlas.reflects.congr fun c i state => by rw [place_release hspare c]
  exact hd'.note hwrite (.releaseBlock _ R 0 _)

/-- A cache that is emptied gives all its keys. -/
theorem keys_emptied {cache : LRUCache Nat (Option Nat)} {k : Nat} (hk : k ∈ cache.keys) :
    k ∈ (cache.removeNumOfKeys cache.size).2 := by
  have hall : (cache.removeNumOfKeys cache.size).2 = cache.keys.reverse := by
    simp [LRUCache.removeNumOfKeys, LRUCache.size, LRUCache.keys]
  rw [hall]
  exact List.mem_reverse.mpr hk

/-- Nothing is left of what the handle held, once it gave back the spare buckets and the
blocks of its cache. -/
theorem unheld_of_gaveUp {ids : List Nat} {own₁ : Nat → Role}
    (hbooks : Books (fun b => (own b).holdOf S.a) S.fileId h)
    (hspares : Spares (fun b => (own b).holdOf S.a) S.fileId h.preAllocatedBuckets ids)
    (hidle : ∀ b i, (own b).holdOf S.a ≠ some (.loading S.fileId i))
    (hown : own₁ = Role.assign own ids .free)
    (hhold : ∀ b x, (own' b).holdOf S.a = some x ↔ (own₁ b).holdOf S.a = some x ∧
      ∀ j ∈ (h.lruCache.removeNumOfKeys h.lruCache.size).2, x ≠ .cached S.fileId j)
    (b : Nat) : (own' b).holdOf S.a = none := by
  rw [Option.eq_none_iff_forall_ne_some]
  intro x hx
  obtain ⟨hx, hnot⟩ := (hhold b x).mp hx
  rw [hown] at hx
  by_cases hb : b ∈ ids
  · rw [Role.assign_of_mem hb] at hx
    cases hx
  · rw [Role.assign_of_notMem hb] at hx
    have hfile := hbooks.file b x hx
    cases x with
    | spare f =>
        obtain rfl : f = S.fileId := hfile
        exact hb ((hspares.mem b).mpr hx)
    | loading f i =>
        obtain rfl : f = S.fileId := hfile
        exact hidle b i hx
    | cached f i =>
        obtain rfl : f = S.fileId := hfile
        exact hnot i (keys_emptied (hbooks.caches.mem_keys.mpr ⟨b, hx⟩)) rfl

/-- The first part of `close`: all that the handle holds is given back. -/
def giveUpAll (cfg : Config) : StatusM Unit := do
  catchUpManifestLogs
  let h := (← get).self
  let a ← myActiveId
  let keys ← removeNumOfKeys h.lruCache.size
  let activeBlocks ← blocksOf keys
  if h.preAllocatedBuckets ≠ [] then
    onShm (SharedMemoryContext.releaseBuckets h.preAllocatedBuckets)
    logReleaseBucket h.preAllocatedBuckets
  let turned ← onShm (SharedMemoryContext.inactivateBuckets h.fileId a activeBlocks)
  updateInactivated cfg turned
  if turned ≠ [] then
    logInactivateBucket turned

/-- The last part of `close`: the slot is given back, and the file is left. -/
def leave (isCancel : Bool) : StatusM (List Block) := do
  unregistInSharedMem isCancel
  let remoteBlocks ← closeFile
  modifySelf fun h => { h with blockArray := [], lruCache := .empty h.lruCache.maxSize }
  return remoteBlocks

theorem close_eq (cfg : Config) (isCancel : Bool) :
    FileActiveStatus.close cfg isCancel = giveUpAll cfg >>= fun _ => leave isCancel := by
  have hlast : ∀ inactivate : StatusM (List Block), (do
      let turned ← inactivate
      updateInactivated cfg turned
      if turned ≠ [] then
        logInactivateBucket turned
      leave isCancel) = (do
      let turned ← inactivate
      updateInactivated cfg turned
      if turned ≠ [] then
        logInactivateBucket turned) >>= fun _ => leave isCancel := by
    intro inactivate
    simp only [bind_assoc]
    apply bind_congr
    intro turned
    apply bind_congr
    intro u
    split
    · rfl
    · rfl
  unfold FileActiveStatus.close giveUpAll
  simp only [bind_assoc]
  apply bind_congr
  intro u
  apply bind_congr
  intro c
  apply bind_congr
  intro a
  apply bind_congr
  intro keys
  apply bind_congr
  intro blocks
  split
  · simp only [bind_assoc]
    apply bind_congr
    intro u₁
    apply bind_congr
    intro u₂
    have := hlast (onShm (SharedMemoryContext.inactivateBuckets c.self.fileId a blocks))
    simp only [bind_assoc] at this
    exact this
  · exact hlast _

/-- What the handle gives back changes no tag. -/
theorem giveUpAll_tags {u : Unit} (hrun : giveUpAll S.cfg c = .ok u c') :
    c'.shm.tags = c.shm.tags := by
  let T : Scope := ⟨c.folder, c.self, 0, False⟩
  let P : SharedMem → Prop := fun s => s.tags = c.shm.tags
  have hbenign : T.Benign P :=
    (Scope.passes_of_moves (fun m => SharedMem.leads_tags m c.shm.tags) S.cfg c.self.pc).benign
  have hinactivate : ∀ (fileId : FileId) (a : Nat) (blocks : List Block),
      T.handle.activeId = some a →
      Keeps (Session T P True) (do
        let turned ← onShm (SharedMemoryContext.inactivateBuckets fileId a blocks)
        updateInactivated S.cfg turned
        if turned ≠ [] then
          logInactivateBucket turned) := by
    intro fileId a blocks ha
    refine Keeps.bind (onShm_session (SharedMemoryContext.inactivateBuckets_keeps
      (fun _ _ b _ => hbenign.leave a b ha) (fun _ _ b _ => hbenign.retire a b ha)
      (fun _ _ b _ => hbenign.leaveFailed a b ha) fileId)) fun turned => ?_
    refine Keeps.bind (updateInactivated_session S.cfg turned) fun _ => ?_
    exact Keeps.ite (logRecord_session _ _ _) Keeps.pure
  have hkeeps : Keeps (Session T P True) (giveUpAll S.cfg) := by
    have hcatch : Keeps (Session T P True) catchUpManifestLogs := by
      intro c₁ hc₁
      have hcaught := catchUp_session c₁ (session_of_caught hc₁)
      cases hrun : catchUpManifestLogs c₁ with
      | ok u c₂ =>
          rw [hrun] at hcaught
          exact hcaught
      | error e c₂ =>
          rw [hrun] at hcaught
          exact ⟨hcaught.identity, hcaught.links, hcaught.logFile, hcaught.segment,
            fun ht => ht.elim⟩
    refine Keeps.bind hcatch fun _ => Keeps.bind Keeps.get fun c₁ => ?_
    refine myActiveId_bind (fun a ha => ?_) fun _ _ => id
    refine Keeps.bind (removeNumOfKeys_session _) fun keys => Keeps.bind (blocksOf_session keys)
      fun blocks => ?_
    refine Keeps.ite ?_ (hinactivate _ _ _ ha)
    refine Keeps.bind (onShm_session (SharedMemoryContext.releaseBuckets_keeps
      fun _ _ b _ => hbenign.release b)) fun _ => ?_
    exact Keeps.bind (logRecord_session _ _ _) fun _ => hinactivate _ _ _ ha
  have hstart : Session T P True c := ⟨.refl _, rfl, rfl, rfl, fun ht => ht.elim⟩
  exact (hkeeps.ok hstart hrun).segment

/-- The blocks of the cache are inactivated. -/
theorem Bare.inactivateAll {ids : List Nat} {blocks : List Block} {u₀ : Unit}
    {own₁ : Nat → Role} (hd : S.Bare sizes none own₁ es R c)
    (hbooks : Books (fun b => (own b).holdOf S.a) S.fileId h)
    (hspares : Spares (fun b => (own b).holdOf S.a) S.fileId h.preAllocatedBuckets ids)
    (hidle : ∀ b i, (own b).holdOf S.a ≠ some (.loading S.fileId i))
    (hown : own₁ = Role.assign own ids .free)
    (hblocks : List.Forall₂ (fun k y => c.self.blockArray[k]? = some y)
      (h.lruCache.removeNumOfKeys h.lruCache.size).2 blocks)
    (hrun : (do
      let turned ← onShm (SharedMemoryContext.inactivateBuckets S.fileId S.a blocks)
      updateInactivated S.cfg turned
      if turned ≠ [] then
        logInactivateBucket turned : StatusM Unit) c = .ok u₀ c') :
    ∃ own' es' R', S.Bare sizes none own' es' R' c' ∧ SameSpots own₁ own' ∧
      R'.blockArray.length = R.blockArray.length ∧ ∀ b, (own' b).holdOf S.a = none := by
  obtain ⟨hnodup, hheld, -⟩ := hbooks.caches.removeNumOfKeys h.lruCache.size
  have hsame : ∀ b i, (own₁ b).holdOf S.a = some (.cached S.fileId i) ↔
      (own b).holdOf S.a = some (.cached S.fileId i) := by
    intro b i
    rw [hown]
    by_cases hb : b ∈ ids
    · have hspare : (own b).holdOf S.a = some (.spare S.fileId) := (hspares.mem b).mp hb
      rw [Role.assign_of_mem hb, hspare]
      simp [Role.holdOf]
    · rw [Role.assign_of_notMem hb]
  have hheld₁ : ∀ k ∈ (h.lruCache.removeNumOfKeys h.lruCache.size).2,
      ∃ b, (own₁ b).holdOf S.a = some (.cached S.fileId k) := by
    intro k hk
    obtain ⟨b, hb⟩ := hheld k hk
    exact ⟨b, (hsame b k).mpr hb⟩
  have hfile : ∀ b x, (own₁ b).holdOf S.a = some x → x.file = S.fileId := by
    intro b x hx
    rw [hown] at hx
    by_cases hb : b ∈ ids
    · rw [Role.assign_of_mem hb] at hx
      cases hx
    · rw [Role.assign_of_notMem hb] at hx
      exact hbooks.file b x hx
  obtain ⟨hshelf, hkeys⟩ := hd.sight.shelved hd.atlas.mirrors hnodup hheld₁ hblocks
  obtain ⟨turned, c₁, hinactivate, hrun⟩ := bind_ok hrun
  obtain ⟨u, c₂, hupdate, hrun⟩ := bind_ok hrun
  have hwrite : logInactivateBucket turned c₂ = .ok u₀ c' ∨ turned = [] ∧ c' = c₂ := by
    split at hrun
    · exact Or.inl hrun
    · next hnone =>
        cases hrun
        exact Or.inr ⟨not_not.mp hnone, rfl⟩
  obtain ⟨own', es', R', hgave⟩ := giveUp hd.segment hd.log hd.atlas hd.sight hshelf hinactivate
    hupdate hwrite
  have hhold := fun b x => hgave.hold hfile hkeys hshelf b x
  exact ⟨own', es', R', ⟨hgave.segment, hgave.log, hgave.store.trans hd.store, hgave.atlas,
    hgave.sight⟩, hgave.spots, hgave.length, unheld_of_gaveUp hbooks hspares hidle hown hhold⟩

/-- A handle that loads nothing gives back all it holds. -/
theorem Seat.giveBack {u₀ : Unit} (hs : S.Seat sizes none own done pending R c)
    (hidle : ∀ b i, (own b).holdOf S.a ≠ some (.loading S.fileId i))
    (hrun : giveUpAll S.cfg c = .ok u₀ c') :
    ∃ own' es' R', S.Bare sizes none own' es' R' c' ∧ SameSpots own own' ∧
      R'.blockArray.length = R.blockArray.length ∧ ∀ b, (own' b).holdOf S.a = none := by
  obtain ⟨u, c₁, hcatch, hrun⟩ := bind_ok hrun
  obtain ⟨hd, -⟩ := hs.catchUp hcatch
  obtain ⟨c₀, c₂, hget, hrun⟩ := bind_ok hrun
  cases hget
  obtain ⟨a, c₂, hactive, hrun⟩ := bind_ok hrun
  obtain ⟨rfl, rfl⟩ := hd.sight.active hactive
  obtain ⟨keys, c₂, hremove, hrun⟩ := bind_ok hrun
  obtain ⟨rfl, rfl⟩ := removeNumOfKeys_ok hremove
  obtain ⟨blocks, c₂, htake, hrun⟩ := bind_ok hrun
  obtain ⟨rfl, hblocks⟩ := blocksOf_ok htake
  obtain ⟨ids, hspares⟩ := hd.books.spares
  rw [hd.sight.steady.fileId] at hrun
  let c₂ : Ctx := { c₁ with self := { c₁.self with
    lruCache := (c₁.self.lruCache.removeNumOfKeys c₁.self.lruCache.size).1 } }
  have hbare : S.Bare sizes none own (done ++ pending) R c₂ :=
    hd.bare.lists ⟨rfl, rfl, rfl, rfl, rfl, rfl, rfl, rfl, rfl, rfl, rfl⟩ rfl rfl rfl
  dsimp only at hrun
  split at hrun
  · obtain ⟨u₃, c₃, hrelease, hrun⟩ := bind_ok hrun
    obtain ⟨u₄, c₄, hwrite, hrun⟩ := bind_ok hrun
    obtain ⟨es₁, hreleased, hself⟩ := hbare.releaseSpares hspares hrelease hwrite
    have hspare : ∀ b ∈ ids, own b = .spare S.a S.fileId :=
      fun b hb => spare_of_holdOf ((hspares.mem b).mp hb)
    obtain ⟨own', es', R', hbare', hspots, hlength, hunheld⟩ :=
      hreleased.inactivateAll hd.books hspares hidle rfl (by rw [hself]; exact hblocks) hrun
    exact ⟨own', es', R', hbare', (SameSpots.of_place (place_release hspare)).trans hspots, hlength,
      hunheld⟩
  · next hnone =>
      have hids : ids = [] := by
        have hlisted := hspares.listed
        rw [not_not.mp hnone] at hlisted
        simpa using hlisted.symm
      exact hbare.inactivateAll hd.books hspares hidle (by rw [hids, Role.assign_nil]) hblocks hrun

/-- The slot is blank, and nothing else has changed. -/
theorem unregistInSharedMem_ok {isCancel : Bool} {u : Unit}
    (hrun : unregistInSharedMem isCancel c = .ok u c') : ∃ s a tag, s.buckets = c.shm.buckets ∧
      (∀ slot ∈ s.activeStatus, slot = .blank ∨ slot ∈ c.shm.activeStatus) ∧
      c.self.activeId = some a ∧ c.shm.tags[a]? = some tag ∧ s.tags = c.shm.tags.set a .blank ∧
      c' = { c with shm := s, self := { c.self with
        shouldDestroy :=
          c.self.shouldDestroy || tag.shouldDestroy || isCancel, activeId := none } } := by
  obtain ⟨c₀, c₁, hget, hrun⟩ := bind_ok hrun
  cases hget
  obtain ⟨a, c₁, hactive, hrun⟩ := bind_ok hrun
  obtain ⟨rfl, ha⟩ := myActiveId_ok hactive
  obtain ⟨left, c₁, hleft, hrun⟩ := bind_ok hrun
  obtain ⟨s, hs, rfl⟩ := onShm_ok hleft
  cases left with
  | none => cases hrun
  | some destroy =>
      obtain rfl := modifySelf_ok hrun
      obtain ⟨tag, htag, hdestroy, htags⟩ := SharedMemoryContext.unregistFile_tags hs
      refine ⟨s, a, tag, ?_, fun slot hslot => ?_, ha, htag, htags, by rw [hdestroy]⟩
      · rcases SharedMemoryContext.unregistFile_cases a c.self.pid c.shm with
          hnone | ⟨s', -, destroy', hsame, -, hsome, -⟩
        · rw [hnone] at hs
          cases hs
        · rw [hsome] at hs
          cases hs
          exact hsame.buckets
      · simp only [SharedMemoryContext.unregistFile, Library.run_bind, Library.run_get] at hs
        cases hold : c.shm.activeStatus[a]? with
        | none =>
            rw [hold] at hs
            cases hs
        | some old =>
            rw [hold] at hs
            dsimp only at hs
            split at hs
            · cases hs
              obtain ⟨j, hj⟩ := List.mem_iff_getElem?.mp hslot
              have hj : (c.shm.activeStatus.modify a fun _ => .blank)[j]? = some slot := hj
              rw [List.getElem?_modify] at hj
              cases hjold : c.shm.activeStatus[j]? with
              | none =>
                  rw [hjold] at hj
                  cases hj
              | some other =>
                  rw [hjold] at hj
                  by_cases haj : a = j
                  · left
                    simpa [haj] using hj.symm
                  · right
                    have hsame : other = slot := by simpa [haj] using hj
                    exact hsame ▸ List.mem_of_getElem? hjold
            · cases hs

/-! ## Leaving the file -/

/-- The handle has given its slot back, and nobody has a block of its file active. -/
structure Left (S : Site) (sizes : Sizes) (own : Nat → Role) (es : List LogEntry) (R : View)
    (c : Ctx) :
    Prop where
  segment : S.Segment sizes none own c.shm
  log : S.Log sizes es R c.folder c.self.fd
  store : c.oss = S.oss
  atlas : S.Atlas sizes own R c.folder
  fileId : c.self.fileId = S.fileId
  shadows : Shadows S.lags c.self.blockArray R.blockArray
  eof : S.sole → c.self.eof = endOf S.size (sizes S.fileId) R.blockArray.length
  fits : S.sole → c.self.view.Fits S.size (sizes S.fileId)
  used : ∀ b i state, (own b).place = some ⟨S.fileId, i, state⟩ → own b = .block S.fileId i ∅

/-- A file whose blocks nobody has active can be told from a cached array. -/
theorem mirrors_cached {lags : Prop} {f : FileId} {xs ys : List Block}
    (hshadows : Shadows lags xs ys) (hmirrors : Mirrors own f ys)
    (hused : ∀ b i state, (own b).place = some ⟨f, i, state⟩ → state = .used) :
    Mirrors own f (xs.map fun x => { x with usageCount := 0 }) := by
  have hget : ∀ {i : Nat} {z : Block}, (xs.map fun x => { x with usageCount := 0 })[i]? = some z →
      ∃ x y, xs[i]? = some x ∧ ys[i]? = some y ∧ x.Shadows lags y ∧
      z = { x with usageCount := 0 } := by
    intro i z hz
    rw [List.getElem?_map] at hz
    obtain ⟨x, hx, rfl⟩ := Option.map_eq_some_iff.mp hz
    obtain ⟨y, hy, hxy⟩ := hshadows.replayed hx
    exact ⟨x, y, hx, hy, hxy, rfl⟩
  refine ⟨fun i z hz => ?_, fun i z hz hremote => ?_, fun i z hz hlocal => ?_,
    fun b i state hplace => ?_⟩
  · obtain ⟨x, y, -, hy, hxy, rfl⟩ := hget hz
    exact hxy.blockId.trans (hmirrors.blockId i y hy)
  · obtain ⟨x, y, -, hy, hxy, rfl⟩ := hget hz
    obtain ⟨hbucket, hfree⟩ := hmirrors.remote i y hy (hxy.isLocal.symm.trans hremote)
    refine ⟨hxy.bucketId.trans hbucket, ?_⟩
    rcases hxy.state with hsame | ⟨-, -, hactive⟩
    · exact hsame.trans hfree
    · rw [hfree] at hactive
      cases hactive
  · obtain ⟨x, y, -, hy, hxy, rfl⟩ := hget hz
    obtain ⟨b, hb, hplace⟩ := hmirrors.stored i y hy (hxy.isLocal.symm.trans hlocal)
    refine ⟨b, hxy.bucketId.trans hb, ?_⟩
    rcases hxy.state with hsame | ⟨-, -, hactive⟩
    · dsimp only
      rw [hsame]
      exact hplace
    · have hy' := hused b i y.state hplace
      rw [hactive] at hy'
      cases hy'
  · obtain ⟨y, hy, hlocal, hb⟩ := hmirrors.placed b i state hplace
    obtain ⟨x, hx, hxy⟩ := hshadows.cached hy
    exact ⟨{ x with usageCount := 0 }, by rw [List.getElem?_map, hx]; rfl,
      hxy.isLocal.trans hlocal, hxy.bucketId.trans hb⟩

/-- The blocks that are not remote are deleted from their buckets. -/
theorem blocksToDestroy_ok {blocks localBlocks remoteBlocks : List Block}
    (h : blocksToDestroy blocks = .ok (localBlocks, remoteBlocks)) :
    localBlocks = blocks.filter Block.isLocal := by
  induction blocks generalizing localBlocks remoteBlocks with
  | nil =>
      cases h
      rfl
  | cons block rest ih =>
      simp only [blocksToDestroy] at h
      split at h
      · cases h
      · split at h
        · cases h
        · cases hrest : blocksToDestroy rest with
          | error e =>
              rw [hrest] at h
              cases h
          | ok lists =>
              obtain ⟨locals, remotes⟩ := lists
              rw [hrest] at h
              have hlocals := ih hrest
              by_cases hlocal : block.isLocal = true
              · simp only [bind, Except.bind, hlocal, if_true, pure, Except.pure] at h
                cases h
                rw [List.filter_cons_of_pos hlocal, hlocals]
              · simp only [bind, Except.bind, hlocal, pure, Except.pure] at h
                cases h
                rw [List.filter_cons_of_neg hlocal, hlocals]

/-- The buckets of the local blocks of a cached array are those that store the file. -/
theorem localBuckets {lags : Prop} {f : FileId} {xs ys : List Block} (hshadows : Shadows lags xs ys)
    (hmirrors : Mirrors own f ys) :
    ∃ ids : List Nat, (xs.filter Block.isLocal).map Block.bucketId = ids.map some ∧ ids.Nodup ∧
      ∀ b, b ∈ ids ↔ ∃ i state, (own b).place = some ⟨f, i, state⟩ := by
  have hstored : ∀ x ∈ xs.filter Block.isLocal, ∃ b i state, x.bucketId = some b ∧
      x.blockId = some i ∧ (own b).place = some ⟨f, i, state⟩ := by
    intro x hx
    obtain ⟨hx, hlocal⟩ := List.mem_filter.mp hx
    obtain ⟨i, hi⟩ := List.mem_iff_getElem?.mp hx
    obtain ⟨y, hy, hxy⟩ := hshadows.replayed hi
    obtain ⟨b, hb, hplace⟩ := hmirrors.stored i y hy (hxy.isLocal.symm.trans hlocal)
    exact ⟨b, i, y.state, hxy.bucketId.trans hb, hxy.blockId.trans (hmirrors.blockId i y hy),
      hplace⟩
  have hnumbers : (xs.map Block.blockId).Nodup := by
    have hall : xs.map Block.blockId = (List.range xs.length).map some := by
      apply List.ext_getElem
      · simp
      · intro i hi hi'
        have hlt : i < xs.length := by simpa using hi
        obtain ⟨y, hy, hxy⟩ := hshadows.replayed (List.getElem?_eq_getElem hlt)
        simpa using hxy.blockId.trans (hmirrors.blockId i y hy)
    rw [hall]
    exact List.nodup_range.map (Option.some_injective _)
  have hnodup : ((xs.filter Block.isLocal).map Block.bucketId).Nodup := by
    have hsome : (xs.filter Block.isLocal).Nodup := (List.Nodup.of_map _ hnumbers).filter _
    refine hsome.map_on fun x hx z hz heq => ?_
    obtain ⟨b, i, state, hb, hi, hplace⟩ := hstored x hx
    obtain ⟨b', j, state', hb', hj, hplace'⟩ := hstored z hz
    obtain rfl : b = b' := Option.some.inj (hb.symm.trans (heq.trans hb'))
    rw [hplace] at hplace'
    cases hplace'
    exact List.inj_on_of_nodup_map hnumbers (List.mem_filter.mp hx).1 (List.mem_filter.mp hz).1
      (hi.trans hj.symm)
  have hlisted : (xs.filter Block.isLocal).map Block.bucketId =
      ((xs.filter Block.isLocal).filterMap Block.bucketId).map some := by
    rw [List.map_filterMap_some_eq_filter_map_isSome]
    refine (List.filter_eq_self.mpr fun o ho => ?_).symm
    obtain ⟨x, hx, rfl⟩ := List.mem_map.mp ho
    obtain ⟨b, -, -, hb, -⟩ := hstored x hx
    simp [hb]
  refine ⟨_, hlisted, (hlisted ▸ hnodup).of_map some, fun b => ?_⟩
  rw [List.mem_filterMap]
  constructor
  · rintro ⟨x, hx, hb⟩
    obtain ⟨b', i, state, hb', -, hplace⟩ := hstored x hx
    obtain rfl : b = b' := Option.some.inj (hb.symm.trans hb')
    exact ⟨i, state, hplace⟩
  · rintro ⟨i, state, hplace⟩
    obtain ⟨y, hy, hlocal, hb⟩ := hmirrors.placed b i state hplace
    obtain ⟨x, hx, hxy⟩ := hshadows.cached hy
    exact ⟨x, List.mem_filter.mpr ⟨List.mem_of_getElem? hx, hxy.isLocal.trans hlocal⟩,
      hxy.bucketId.trans hb⟩

/-- The file is still there, with `n` blocks. -/
structure Kept (S : Site) (sizes : Sizes) (own own' : Nat → Role) (n : Nat) (d : ManifestFolder) :
    Prop where
  links : d.links = S.folder.links
  spots : SameSpots own own'
  reflects : ∃ es R, d.content S.file = logBytes es ∧ replay .empty (es.map LogEntry.record) =
    .ok R ∧ Reflects S.sole S.size (sizes S.fileId) own' S.fileId R ∧ R.blockArray.length = n

/-- The file is gone, and its blocks with it. -/
structure Removed (S : Site) (own own' : Nat → Role) (d : ManifestFolder) : Prop where
  links : d.links = (S.folder.mfRemove S.fileId).links
  gone : ∀ b p, (own' b).place = some p → p.file ≠ S.fileId ∧ (own b).place = some p
  rest : ∀ b p, (own b).place = some p → p.file ≠ S.fileId → (own' b).place = some p

/-- What the handle leaves to the others; the file is removed if `gone`. Nothing of the
handle itself is left in it, so the next handle of the file starts from here. -/
structure Departed (S : Site) (sizes : Sizes) (own : Nat → Role) (n : Nat) (gone : Prop)
    (own' : Nat → Role) (c' : Ctx) : Prop where
  segment : S.Segment sizes none own' c'.shm
  grown : ∃ d, S.folder.Grows (S.licence sizes) d ∧
    ∀ k, k ≠ S.file → c'.folder.content k = d.content k
  files : c'.folder.files.length = S.folder.files.length
  store : c'.oss = S.oss
  elsewhere : ∀ g k, g ≠ S.fileId → S.folder.links g = some k →
    c'.folder.Mirrored S.sole S.size sizes own' g k
  placed : ∀ b p, (own b).place = some p → ∃ k, S.folder.links p.file = some k
  unheld : ∀ b, (own b).holdOf S.a = none → (own' b).holdOf S.a = none
  kept : ¬ gone → S.Kept sizes own own' n c'.folder
  removed : gone → S.Removed own own' c'.folder

theorem Role.Works.block_free {a i : Nat} {f : FileId} : (Role.block f i ∅).Works a f .free := by
  refine ⟨fun e he => by simp [Role.holdOf], fun p hp => ?_, fun g i e => by simp⟩
  simp only [Role.place, reduceCtorEq, false_iff, Option.some.injEq]
  rintro rfl
  exact hp rfl

/-- A handle that leaves its file to others. -/
theorem Left.kept {gone : Prop} (hl : S.Left sizes own es R c) (hgone : ¬ gone) :
    S.Departed sizes own R.blockArray.length gone own c where
  segment := hl.segment
  grown := ⟨c.folder, hl.log.grown, fun _ _ => rfl⟩
  files := hl.log.grown.files
  store := hl.store
  elsewhere g k hg hk := hl.atlas.elsewhere g k hg (by rw [hl.log.grown.links]; exact hk)
  placed b p hp := by
    rw [← hl.log.grown.links]
    exact hl.atlas.placed b p hp
  unheld _ h := h
  kept _ :=
    ⟨hl.log.grown.links, .refl own, es, R, hl.log.content, hl.log.replayed, hl.atlas.reflects, rfl⟩
  removed h := absurd h hgone

/-- The file is removed, with the blocks in its buckets. -/
theorem Left.destroyed {localBlocks remoteBlocks : List Block} {s : SharedMem} {gone : Prop}
    (hl : S.Left sizes own es R c) (hgone : gone)
    (hblocks : blocksToDestroy c.self.blockArray = .ok (localBlocks, remoteBlocks))
    (hdelete : SharedMemoryContext.deleteBlocks S.fileId localBlocks c.shm = .ok () s)
    (hfolder : c'.folder = c.folder.mfRemove S.fileId) (hshm : c'.shm = s) (hstore :
    c'.oss = c.oss) :
    ∃ own', S.Departed sizes own R.blockArray.length gone own' c' := by
  obtain ⟨ids, hlisted, hnodup, hids⟩ := localBuckets hl.shadows hl.atlas.mirrors
  rw [← blocksToDestroy_ok hblocks] at hlisted
  have hused : ∀ b ∈ ids, ∃ i, own b = .block S.fileId i ∅ := by
    intro b hb
    obtain ⟨i, state, hplace⟩ := (hids b).mp hb
    exact ⟨i, hl.used b i state hplace⟩
  have hworks : ∀ b, (own b).Works S.a S.fileId (Role.assign own ids .free b) := by
    apply Role.Works.assign
    intro b hb
    obtain ⟨i, hown⟩ := hused b hb
    rw [hown]
    exact Role.Works.block_free
  have hstaffed : s.Staffed sizes (Role.assign own ids .free) := by
    refine SharedMemoryContext.deleteBlocks_staffed hl.segment.staffed hlisted (fun b hb => ?_)
      hnodup hdelete
    obtain ⟨i, hown⟩ := hused b hb
    left
    rw [hown]
    rfl
  have hplaces : ∀ b p, (Role.assign own ids .free b).place = some p ↔
      p.file ≠ S.fileId ∧ (own b).place = some p := by
    intro b p
    by_cases hb : b ∈ ids
    · obtain ⟨i, hown⟩ := hused b hb
      rw [Role.assign_of_mem hb, hown]
      simp only [Role.place, reduceCtorEq, Option.some.injEq, false_iff, not_and]
      rintro hfile rfl
      exact hfile rfl
    · rw [Role.assign_of_notMem hb]
      refine ⟨fun hp => ⟨?_, hp⟩, fun hp => hp.2⟩
      rintro hfile
      obtain ⟨f, i, state⟩ := p
      obtain rfl : f = S.fileId := hfile
      exact hb ((hids b).mpr ⟨i, state, hp⟩)
  have hcontent : ∀ k, c'.folder.content k = c.folder.content k := by
    intro k
    rw [hfolder]
    rfl
  refine ⟨Role.assign own ids .free, ⟨?_, ⟨c.folder, hl.log.grown, fun k _ => hcontent k⟩, ?_,
    hstore.trans hl.store, fun g k hg hk => ?_, fun b p hp => ?_, fun b hb => ?_, absurd hgone,
    fun _ => ⟨?_, ?_, ?_⟩⟩⟩
  · rw [hshm]
    exact hl.segment.of_works hstaffed hworks
  · rw [hfolder]
    exact hl.log.grown.files
  · obtain ⟨es', r, hes, hreplay, hm⟩ :=
      hl.atlas.elsewhere g k hg (by rw [hl.log.grown.links]; exact hk)
    refine ⟨es', r, (hcontent k).trans hes, hreplay, hm.congr fun b i state => ?_⟩
    rw [hplaces]
    exact and_iff_right hg
  · rw [← hl.log.grown.links]
    exact hl.atlas.placed b p hp
  · by_cases hin : b ∈ ids
    · rw [Role.assign_of_mem hin]
      rfl
    · rw [Role.assign_of_notMem hin]
      exact hb
  · rw [hfolder, ManifestFolder.mfRemove, ManifestFolder.mfRemove, hl.log.grown.links]
  · exact fun b p hp => (hplaces b p).mp hp
  · exact fun b p hp hfile => (hplaces b p).mpr ⟨hfile, hp⟩

/-- The log is replaced by one record, which tells the same. -/
theorem Left.compacted {u : Unit} {gone : Prop} (hl : S.Left sizes own es R c) (hgone : ¬ gone)
    (hrun : logFullStatus c.self.blockArray c.self.eof c = .ok u c') :
    S.Departed sizes own R.blockArray.length gone own c' ∧ c'.shm = c.shm ∧
    c'.self = { c.self with fd := c'.self.fd } := by
  let blocks := c.self.blockArray.map fun b => { b with usageCount := 0 }
  let entry : LogEntry := ⟨c.self.client, ⟨.fullStatus, c.self.eof, blocks⟩⟩
  let fd : Descriptor := ⟨S.file, (logBytes es).length⟩
  let d := c.folder.mfTruncate fd
  have hfd : c.self.fd = some fd := hl.log.fd
  simp only [logFullStatus, logRecord, Library.run_bind, Library.run_get, hfd,
    Library.run_set] at hrun
  obtain rfl : c' = { c with
      folder := (d.1.mfWrite ⟨S.file, 0⟩ entry).1
      self := { c.self with fd := some (d.1.mfWrite ⟨S.file, 0⟩ entry).2 } } := by
    cases hrun
    rfl
  have hfiles : d.1.files.length = S.folder.files.length :=
    ManifestFolder.length_files_mfTruncate.trans hl.log.grown.files
  have hother : ∀ k, k ≠ S.file → (d.1.mfWrite ⟨S.file, 0⟩ entry).1.content k =
      c.folder.content k := by
    intro k hk
    exact (ManifestFolder.content_mfWrite_other ⟨S.file, 0⟩ entry hk).trans
      (ManifestFolder.content_mfTruncate_other fd hk)
  have hcontent : (d.1.mfWrite ⟨S.file, 0⟩ entry).1.content S.file = logBytes [entry] := by
    have hempty : d.1.content S.file = [] := ManifestFolder.content_mfTruncate c.folder fd
    have hwrite := ManifestFolder.content_mfWrite_end (d := d.1) ⟨S.file, 0⟩ entry
      (by rw [hfiles]; exact S.ownFile.bound) (by rw [hempty]; rfl)
    rw [hempty, List.nil_append] at hwrite
    exact hwrite
  have hlength : blocks.length = R.blockArray.length := (List.length_map _).trans hl.shadows.length
  have hmirrors : Mirrors own S.fileId blocks := by
    refine mirrors_cached hl.shadows hl.atlas.mirrors fun b i state hplace => ?_
    have hown := hl.used b i state hplace
    rw [hown] at hplace
    simpa [Role.place] using (congrArg (Option.map Place.state) hplace).symm
  have hreflects : Reflects S.sole S.size (sizes S.fileId) own S.fileId ⟨blocks, c.self.eof⟩ := by
    refine ⟨hmirrors, fun hsole => (hl.fits hsole).congr (List.length_map _) rfl, fun hsole _ => ?_⟩
    dsimp only
    rw [hlength]
    exact hl.eof hsole
  refine ⟨⟨hl.segment, ⟨c.folder, hl.log.grown, hother⟩, ?_, hl.store, fun g k hg hk => ?_,
    (hl.kept hgone).placed, fun _ h => h, fun _ =>
      ⟨hl.log.grown.links, .refl own, [entry], _, hcontent, Settles.fullStatus _ _, hreflects,
      hlength⟩, fun h => absurd h hgone⟩, rfl, rfl⟩
  · exact ManifestFolder.length_files_mfWrite.trans hfiles
  · obtain ⟨es', r, hes, hreplay, hm⟩ := (hl.kept hgone).elsewhere g k hg hk
    refine ⟨es', r, ?_, hreplay, hm⟩
    rw [← hes]
    exact hother k (file_ne rfl hg hk)

/-- The file is destroyed: the handle was told so, and nobody has the file open. -/
def Doomed (S : Site) (destroy : Bool) (tags : List Tag) : Prop :=
  destroy = true ∧ ∀ tag ∈ tags, tag.fileId ≠ S.fileId

/-- The end of the critical section of `close`. -/
theorem Left.closeFile {remote : List Block} (hl : S.Left sizes own es R c)
    (hrun : FileActiveStatus.closeFile c = .ok remote c') :
    ∃ own', S.Departed sizes own R.blockArray.length (S.Doomed c.self.shouldDestroy c.shm.tags)
      own' c' ∧ (¬ S.Doomed c.self.shouldDestroy c.shm.tags → remote = []) ∧
        c'.shm.tags = c.shm.tags ∧
      c'.self = { c.self with fd := c'.self.fd, shouldDestroy := c'.self.shouldDestroy } := by
  obtain ⟨c₀, c₁, hget, hrun⟩ := bind_ok hrun
  cases hget
  obtain ⟨opening, c₁, hopening, hrun⟩ := bind_ok hrun
  obtain ⟨s, hs, rfl⟩ := onShm_ok hopening
  obtain ⟨rfl, rfl⟩ : (c.shm.activeStatus.any fun slot => slot.fileId = c.self.fileId) = opening ∧
      c.shm = s := by
    cases hs
    exact ⟨rfl, rfl⟩
  rw [hl.fileId] at hrun
  split at hrun
  · next hopen =>
      -- other handles have the file open
      cases hrun
      have hl' : S.Left sizes own es R { c with self := { c.self with shouldDestroy := false } } :=
        ⟨hl.segment, hl.log, hl.store, hl.atlas, hl.fileId, hl.shadows, hl.eof, hl.fits, hl.used⟩
      obtain ⟨tag, htag, hfile⟩ := SharedMem.any_of_tags.mp hopen
      exact ⟨own, hl'.kept fun hdoomed => hdoomed.2 tag htag hfile, fun _ => rfl, rfl, rfl⟩
  · next hclosed =>
      have hvacant : ∀ tag ∈ c.shm.tags, tag.fileId ≠ S.fileId :=
        fun tag htag hfile => hclosed (SharedMem.any_of_tags.mpr ⟨tag, htag, hfile⟩)
      split at hrun
      · next hdestroy =>
          cases hblocks : blocksToDestroy c.self.blockArray with
          | error e =>
              rw [hblocks] at hrun
              cases hrun
          | ok lists =>
              obtain ⟨localBlocks, remoteBlocks⟩ := lists
              rw [hblocks] at hrun
              obtain ⟨u, c₂, hdelete, hrun⟩ := bind_ok hrun
              obtain ⟨s, hs, rfl⟩ := onShm_ok hdelete
              cases hrun
              have hleaves : ∃ own', S.Departed sizes own R.blockArray.length
                  (S.Doomed c.self.shouldDestroy c.shm.tags) own' { c with
                    shm := s, folder :=
                      c.folder.mfRemove c.self.fileId, self := { c.self with fd := none } } :=
                hl.destroyed ⟨hdestroy, hvacant⟩ hblocks hs (by rw [hl.fileId]) rfl rfl
              obtain ⟨own', hdeparted⟩ := hleaves
              have hkeeps := SharedMemoryContext.deleteBlocks_keeps
                (fun (y : Block) (_ : y ∈ localBlocks) b _ =>
                  SharedMem.leads_tags (.reset S.fileId b) c.shm.tags)
                fun _ _ b _ => SharedMem.leads_tags (.flag S.fileId b) c.shm.tags
              exact ⟨own', hdeparted, fun hnot => absurd ⟨hdestroy, hvacant⟩ hnot,
                hkeeps.ok rfl hs, rfl⟩
      · next hspared =>
          obtain ⟨u, c₂, hlog, hrun⟩ := bind_ok hrun
          cases hrun
          have hspare : ¬ S.Doomed c.self.shouldDestroy c.shm.tags :=
            fun hdoomed => hspared hdoomed.1
          obtain ⟨hdeparted, hshm, hself⟩ := hl.compacted hspare hlog
          refine ⟨own, hdeparted, fun _ => rfl, by rw [hshm], ?_⟩
          rw [hself]

/-- Once nobody holds a block of the file, all that is stored of it is used. -/
theorem used_of_unheld {s : SharedMem} (hsegment : S.Segment sizes none own s)
    (hcalm : ∀ b f i e, S.own b ≠ .victim f i e)
    (hothers : ∀ e, e ≠ S.a → ∀ b i, (S.own b).holdOf e ≠ some (.cached S.fileId i))
    (hunheld : ∀ b, (own b).holdOf S.a = none) {state : BucketType}
    (hplace : (own b).place = some ⟨S.fileId, i, state⟩) : own b = .block S.fileId i ∅ := by
  cases hown : own b with
  | block f j holders =>
      rw [hown] at hplace
      simp only [Role.place, Option.some.injEq, Place.mk.injEq] at hplace
      obtain ⟨rfl, rfl, -⟩ := hplace
      have hnone : holders = ∅ := by
        refine Finset.eq_empty_of_forall_notMem fun e he => ?_
        have hhold : (own b).holdOf e = some (.cached S.fileId j) := by
          rw [hown]
          exact if_pos he
        by_cases hea : e = S.a
        · rw [hea, hunheld b] at hhold
          cases hhold
        · rw [hsegment.others e hea b] at hhold
          exact hothers e hea b j hhold
      rw [hnone]
  | victim f j e => exact absurd hown (hsegment.noVictim hcalm b f j e)
  | free =>
      rw [hown] at hplace
      cases hplace
  | spare e f =>
      rw [hown] at hplace
      cases hplace
  | loading e f j =>
      rw [hown] at hplace
      cases hplace

/-- A handle closes: what it held is given back, and the file is left to the others. -/
theorem Seat.close {isCancel : Bool} {remote : List Block}
    (hs : S.Seat sizes none own done pending R c)
    (hidle : ∀ b i, (own b).holdOf S.a ≠ some (.loading S.fileId i))
    (hcalm : ∀ b f i e, S.own b ≠ .victim f i e)
    (hothers : ∀ e, e ≠ S.a → ∀ b i, (S.own b).holdOf e ≠ some (.cached S.fileId i))
    (hrun : FileActiveStatus.close S.cfg isCancel c = .ok remote c') :
    ∃ own₁ own' tag gone, SameSpots own own₁ ∧ c.shm.tags[S.a]? = some tag ∧
      c'.shm.tags = c.shm.tags.set S.a .blank ∧
      gone = S.Doomed (c.self.shouldDestroy || tag.shouldDestroy || isCancel)
      (c.shm.tags.set S.a .blank) ∧ S.Departed sizes own₁ R.blockArray.length gone own' c' ∧
        (¬ gone → remote = []) ∧
      (∀ b, (own' b).holdOf S.a = none) ∧ c'.self.activeId = none ∧ c'.self.fileId = S.fileId ∧
      c'.self.isDelete = S.handle.isDelete := by
  rw [close_eq] at hrun
  obtain ⟨u₀, c₁, hgive, hleave⟩ := bind_ok hrun
  obtain ⟨own₁, es, R₁, hbare, hspots, hlength, hunheld⟩ := hs.giveBack hidle hgive
  obtain ⟨u, c₂, hunregist, hrun⟩ := bind_ok hleave
  obtain ⟨s, a, tag, hbuckets, hslots, ha, htag, htags, rfl⟩ := unregistInSharedMem_ok hunregist
  obtain rfl : S.a = a :=
    Option.some.inj ((hbare.sight.steady.activeId.trans S.activeId).symm.trans ha)
  rw [giveUpAll_tags hgive] at htag htags
  have hsegment : S.Segment sizes none own₁ s := by
    refine ⟨hbare.segment.staffed.same hbuckets fun slot hslot => ?_, hbare.segment.bounded,
      hbare.segment.others, hbare.segment.victims⟩
    rcases hslots slot hslot with rfl | hslot
    · rfl
    · exact hbare.segment.staffed.stolen slot hslot
  have hused : ∀ b i state, (own₁ b).place = some ⟨S.fileId, i, state⟩ →
      own₁ b = .block S.fileId i ∅ :=
    fun b i state hplace => used_of_unheld hsegment hcalm hothers hunheld hplace
  have hinactive : ¬ R₁.LastActive := by
    rintro ⟨y, hy, hlocal, hactive⟩
    obtain ⟨b, -, hplace⟩ := hbare.atlas.mirrors.stored _ y hy hlocal
    have hown := hused b _ _ hplace
    rw [hown, hactive] at hplace
    simp [Role.place] at hplace
  have hleft : S.Left sizes own₁ es R₁ { c₁ with shm := s, self := { c₁.self with
      shouldDestroy :=
        c₁.self.shouldDestroy || tag.shouldDestroy || isCancel, activeId := none } } := by
    refine ⟨hsegment, hbare.log, hbare.store, hbare.atlas, hbare.sight.steady.fileId,
      hbare.sight.shadows, fun hsole => ?_, hbare.sight.fits, hused⟩
    rcases (hbare.sight.eof hsole).1 with hsame | ⟨-, hactive, -⟩
    · exact hsame.trans (hbare.atlas.reflects.settled hsole hinactive)
    · exact absurd hactive hinactive
  obtain ⟨remote', c₃, hclose, hrun⟩ := bind_ok hrun
  obtain ⟨own', hdeparted, hremote, htags', hself⟩ := hleft.closeFile hclose
  obtain ⟨u', c₄, hmodify, hrun⟩ := bind_ok hrun
  obtain rfl := modifySelf_ok hmodify
  cases hrun
  have hsame : c₁.self.shouldDestroy = c.self.shouldDestroy :=
    hbare.sight.steady.shouldDestroy.trans hs.steady.shouldDestroy.symm
  rw [hlength] at hdeparted
  dsimp only at hdeparted hremote htags'
  rw [htags, hsame] at hdeparted hremote
  refine ⟨own₁, own', tag, _, hspots, htag, htags'.trans htags, rfl,
    ⟨hdeparted.segment, hdeparted.grown, hdeparted.files, hdeparted.store, hdeparted.elsewhere,
    hdeparted.placed, hdeparted.unheld, hdeparted.kept, hdeparted.removed⟩, hremote,
    fun b => hdeparted.unheld b (hunheld b), ?_, ?_, ?_⟩
  · change c₃.self.activeId = none
    rw [hself]
  · change c₃.self.fileId = S.fileId
    rw [hself]
    exact hleft.fileId
  · change c₃.self.isDelete = S.handle.isDelete
    rw [hself]
    exact hbare.sight.steady.isDelete

end Site

end Gopherwood
