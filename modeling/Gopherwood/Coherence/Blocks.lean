/-
# Blocks that come into the cache

A block enters the cache of a handle when it is added to the file, when it is
activated where it is stored, or when it was loaded back.
-/

import Gopherwood.Coherence.Sections

namespace Gopherwood

open Library (bind_ok)
open FileActiveStatus

namespace Site

variable {S : Site} {sizes : Sizes} {V : Option Victim} {own own' : Nat → Role} {es : List LogEntry}
variable {R R' : View} {c c' : Ctx} {h h' : FileActiveStatus} {done pending : List LogEntry}
variable {b i : Nat}

/-- A number beyond the blocks of the file is not cached. -/
theorem notMem_keys (hbooks : Books (fun b => (own b).holdOf S.a) S.fileId h)
    (hmirrors : Mirrors own S.fileId R.blockArray)
    (hi : ∀ y, R.blockArray[i]? = some y → y.isLocal = false) : i ∉ h.lruCache.keys := by
  rw [hbooks.caches.mem_keys]
  rintro ⟨b, hb⟩
  obtain ⟨state, hplace⟩ := Role.place_of_holdOf hb
  exact hmirrors.nowhere hi b state hplace

/-- The file has one block more, which the handle holds. -/
structure Extended (S : Site) (sizes : Sizes) (V : Option Victim) (own : Nat → Role) (R : View)
    (c c' : Ctx) (b : Nat) (es' : List LogEntry) (R' : View) : Prop where
  spare : own b = .spare S.a S.fileId
  desk : S.Desk sizes V (Function.update own b (.block S.fileId R.blockArray.length {S.a}))
    es' R' c'
  length : R'.blockArray.length = R.blockArray.length + 1
  cache : c'.self.lruCache = (c.self.lruCache.put R.blockArray.length (some b)).1
  loading : c'.self.loadingBuckets = c.self.loadingBuckets

theorem Seat.extendOneBlock {u : Unit} (hs : S.Seat sizes V own done pending R c)
    (hwriter : S.sole → S.handle.isWrite = true)
    (hwhole : c.self.blockArray.length = R.blockArray.length)
    (hempty : sizes S.fileId R.blockArray.length = 0)
    (hend : S.sole → R.blockArray.length * S.size ≤ c.self.eof)
    (hroom : c.self.lruCache.size < c.self.lruCache.maxSize)
    (hrun : FileActiveStatus.extendOneBlock c = .ok u c') :
    ∃ b es' R', S.Extended sizes V own R c c' b es' R' := by
  obtain ⟨c₀, c₁, hget, hrun⟩ := bind_ok hrun
  cases hget
  dsimp only at hrun
  cases hpre : c.self.preAllocatedBuckets with
  | nil =>
      rw [hpre] at hrun
      cases hrun
  | cons front rest =>
  rw [hpre] at hrun
  dsimp only at hrun
  rw [hwhole] at hrun
  obtain ⟨u₁, c₁, hmodify, hrun⟩ := bind_ok hrun
  obtain rfl := modifySelf_ok hmodify
  obtain ⟨u₂, c₂, hput, hrun⟩ := bind_ok hrun
  obtain ⟨n, hn, rfl⟩ := putActive_ok hput
  cases hn
  dsimp only at hrun
  obtain ⟨u₃, c₃, hcatch, hrun⟩ := bind_ok hrun
  obtain ⟨u₄, c₄, hinfo, hrun⟩ := bind_ok hrun
  obtain ⟨s, hupdate, rfl⟩ := onShm_ok hinfo
  obtain ⟨c₅, c₆, hget, hrun⟩ := bind_ok hrun
  cases hget
  let block : Block := { front with blockId := some R.blockArray.length }
  -- the handle that notes the block before it replays what is pending
  let self : FileActiveStatus := { c.self with
    preAllocatedBuckets := rest
    blockArray := c.self.blockArray ++ [block]
    lruCache := (c.self.lruCache.put R.blockArray.length front.bucketId).1 }
  obtain ⟨v, hv, rfl⟩ := catchUp_replays (c := { c with self := self }) hs.follows.fd
    ⟨hs.follows.content, rfl⟩ hcatch
  obtain ⟨v₀, hv₀⟩ : ∃ v₀, replay c.self.view (pending.map LogEntry.record) = .ok v₀ := by
    obtain ⟨r, -, hshadows, hrest⟩ := hs.follows.rest
    obtain ⟨v₀, hv₀, -⟩ := replay_shadows (v := c.self.view) hshadows hrest
    exact ⟨v₀, hv₀⟩
  obtain ⟨hshadows, heof, hfits⟩ := hs.follows.caughtUp hv₀
  obtain rfl : v = { v₀ with blockArray := v₀.blockArray ++ [block] } := by
    have hconcat := replay_concat block hv₀ (hshadows.length.trans hwhole.symm)
    exact Except.ok.inj (hv.symm.trans hconcat)
  -- the bucket of the block
  obtain ⟨spares, hspares⟩ := hs.books.spares
  rw [hpre] at hspares
  obtain ⟨hlocal, hstate⟩ := hspares.held front List.mem_cons_self
  obtain ⟨b, ids, hb, -, hhold, -⟩ := hspares.tail
  have hspare : own b = .spare S.a S.fileId := spare_of_holdOf hhold
  let own' := Function.update own b (.block S.fileId R.blockArray.length {S.a})
  have hworks : ∀ c, (own c).Works S.a S.fileId (own' c) := by
    apply Role.Works.update
    rw [hspare]
    exact .spare_block
  have hfile : c.self.fileId = S.fileId := hs.steady.fileId
  have hstaffed : s.Staffed sizes own' := by
    have hbucket : block.bucketId = some b := hb
    refine SharedMemoryContext.updateActiveFileInfo_staffed hs.segment.staffed hspare hbucket rfl
      hempty ?_
    rw [← hfile]
    exact hupdate
  let c₄ : Ctx :=
    { Ctx.caughtUp { c with self := self } ⟨S.file, (logBytes (done ++ pending)).length⟩
    pending { v₀ with blockArray := v₀.blockArray ++ [block] } with shm := s }
  have hlog : S.Log sizes (done ++ pending) R c₄.folder c₄.self.fd :=
    ⟨rfl, hs.follows.content, hs.follows.replayed, hs.folder ▸ .refl _ _⟩
  obtain ⟨e, hw⟩ := Log.wrote (c := c₄) hlog hrun
  have hlength : v₀.blockArray.length = R.blockArray.length := hshadows.length
  have hself : c'.self = { c₄.self with fd := c'.self.fd } := hw.self
  let R' : View := ⟨R.blockArray ++ [{ block with usageCount := 0 }], v₀.eof⟩
  have hlength' : R'.blockArray.length = R.blockArray.length + 1 := List.length_append
  have hallows : (S.licence sizes S.file).Allows R R' := by
    refine ⟨rfl, fun hsole => ?_, fun hsole => Or.inl (hwriter hsole)⟩
    rcases (heof hsole).1 with hsame | ⟨-, -, hle⟩
    · exact Nat.le_of_eq hsame.symm
    · exact hle
  have hfits' : ∀ {v : View}, S.sole → v.blockArray.length = R.blockArray.length + 1 →
      v.eof = v₀.eof → v.Fits S.size (sizes S.fileId) := by
    intro v hsole hv heof'
    have hupper := (hfits (hs.atlas.reflects.fits hsole) (hs.fits hsole)).upper
    have hlower := Nat.le_trans (hend hsole) (heof hsole).2
    rw [hlength] at hupper
    exact .extended hv hempty (heof' ▸ hlower) (heof' ▸ hupper)
  have hactive : R'.LastActive := by
    refine ⟨{ block with usageCount := 0 }, ?_, hlocal, hstate⟩
    rw [hlength', Nat.add_sub_cancel]
    exact List.getElem?_concat_length
  have hmirrors : Mirrors own' S.fileId R'.blockArray := by
    refine hs.atlas.mirrors.append ?_ ?_ rfl hlocal hb
    · rw [hspare]
      rfl
    · simp [Role.place, block, hstate]
  refine ⟨b, (done ++ pending) ++ [e], R', hspare, ⟨?_, hlog.write hw (.extendBlock hallows),
    hw.store.trans hs.store, ?_, ?_, ?_⟩, hlength', ?_, ?_⟩
  · rw [hw.shm]
    exact hs.segment.of_works hstaffed hworks
  · have hatlas : S.Atlas sizes own R c₄.folder := hs.atlas
    exact hatlas.of_works hlog.grown.links hworks
      ⟨hmirrors, fun hsole => hfits' hsole hlength' rfl, fun _ hnot => absurd hactive hnot⟩
      hw.links hw.other
  · have hblocks : c'.self.blockArray = v₀.blockArray ++ [block] := by rw [hself]; rfl
    have heof' : c'.self.eof = v₀.eof := by rw [hself]; rfl
    refine ⟨hs.steady.trans ?_, ?_, fun hsole => ?_, fun hsole => hfits' hsole ?_ heof',
      fun halone => ?_⟩
    · rw [hself]
      exact ⟨rfl, rfl, rfl, rfl, rfl, rfl, rfl, rfl, rfl, rfl, rfl⟩
    · rw [hblocks]
      exact hshadows.append (.singleton ⟨rfl, rfl, rfl, Or.inl rfl⟩)
    · rw [heof', ← hs.eof]
      exact ⟨Or.inl rfl, (heof hsole).2⟩
    · change c'.self.blockArray.length = _
      rw [hblocks, List.length_append, hlength]
      rfl
    · have hsole := S.sole_of_alone halone
      obtain ⟨hquiet, hlevels⟩ := hs.level halone
      have hsame : v₀.eof = c.self.eof := (replay_eof_same hv₀ hquiet).1
      have hfits₁ : View.Fits S.size (sizes S.fileId) ⟨R'.blockArray, c.self.eof⟩ :=
        hfits' hsole hlength' hsame.symm
      rw [heof', hlength', hsame]
      refine ⟨hs.eof, hlevels.sizes, ?_, ?_⟩
      · have hupper : c.self.eof ≤ R'.blockArray.length * S.size := hfits₁.upper
        rwa [hlength'] at hupper
      · have hlower : (R'.blockArray.length - 1) * S.size ≤ c.self.eof := hfits₁.lower
        rwa [hlength'] at hlower
  · have hheld : (fun c => (own' c).holdOf S.a) b =
      some (.cached S.fileId R.blockArray.length) := by
      simp [own', Role.holdOf]
    have hother : ∀ c, c ≠ b → (fun c => (own' c).holdOf S.a) c = (fun c => (own c).holdOf S.a)
        c := by
      intro c hc
      simp [own', Function.update_of_ne hc]
    refine (hs.books.cacheFront hpre hb hheld hother hroom
      (notMem_keys hs.books hs.atlas.mirrors (by simp)) ?_ ?_ ?_).2
    · rw [hself]
      rfl
    · rw [hself]
      rfl
    · rw [hself, ← hb]
      rfl
  · rw [hself, ← hb]
    rfl
  · rw [hself]
    rfl

/-! ## Activating a block where it is stored -/

/-- Nobody evicts. -/
theorem Segment.noVictim {s : SharedMem} (hs : S.Segment sizes none own s)
    (hcalm : ∀ b f i e, S.own b ≠ .victim f i e) (b : Nat) (f : FileId) (i e : Nat) :
    own b ≠ .victim f i e := by
  intro hb
  have hvictim := (hs.victims b f i e).mp hb
  split at hvictim
  · cases hvictim
  · exact hcalm b f i e hvictim

/-- A local block is in a bucket, where handles may have it active. -/
theorem Desk.stored {x : Block} (hd : S.Desk sizes none own es R c)
    (hcalm : ∀ b f i e, S.own b ≠ .victim f i e) (hx : c.self.blockArray[i]? = some x)
    (hlocal : x.isLocal = true) :
    ∃ b holders, x.bucketId = some b ∧ x.blockId = some i ∧ own b = .block S.fileId i holders ∧
      (S.a ∈ holders → i ∈ c.self.lruCache.keys) ∧
      (holders = ∅ → x.state = .used) := by
  obtain ⟨y, hy, hxy⟩ := hd.sight.shadows.replayed hx
  obtain ⟨b, hb, hplace⟩ := hd.atlas.mirrors.stored i y hy (hxy.isLocal.symm.trans hlocal)
  have hid := hd.atlas.mirrors.blockId i y hy
  cases hown : own b with
  | block g j holders =>
      rw [hown] at hplace
      simp only [Role.place, Option.some.injEq, Place.mk.injEq] at hplace
      obtain ⟨rfl, rfl, hstate⟩ := hplace
      refine ⟨b, holders, hxy.bucketId.trans hb, hxy.blockId.trans hid, hown, fun ha => ?_,
        fun hempty => ?_⟩
      · rw [hd.books.caches.mem_keys]
        exact ⟨b, by simp [hown, Role.holdOf, ha]⟩
      · rw [if_pos hempty] at hstate
        rcases hxy.state with hsame | ⟨-, hused, -⟩
        · exact hsame.trans hstate.symm
        · exact hused
  | victim g j e => exact absurd hown (hd.segment.noVictim hcalm b g j e)
  | _ =>
      rw [hown] at hplace
      cases hplace

/-- The block joins the cache of a handle whose other lists stay. -/
theorem Desk.cacheJoined {holders : Finset Nat} (hd : S.Desk sizes V own es R c)
    (hown : own b = .block S.fileId i holders) (ha : S.a ∉ holders)
    (hroom : c.self.lruCache.size < c.self.lruCache.maxSize) (hnew : i ∉ c.self.lruCache.keys)
    (hspares : h.preAllocatedBuckets = c.self.preAllocatedBuckets)
    (hloads : h.loadingBuckets = c.self.loadingBuckets)
    (hcache : h.lruCache = (c.self.lruCache.put i (some b)).1) :
    Books (fun e => (Function.update own b (.block S.fileId i (insert S.a holders)) e).holdOf S.a)
      S.fileId h ∧ ∀ k, k ∈ h.lruCache.keys ↔ k = i ∨ k ∈ c.self.lruCache.keys := by
  let own' := Function.update own b (.block S.fileId i (insert S.a holders))
  have hnone : (fun e => (own e).holdOf S.a) b = none := by simp [hown, Role.holdOf, ha]
  have hself : (fun e => (own' e).holdOf S.a) b = some (.cached S.fileId i) := by
    simp [own', Role.holdOf]
  have hother : ∀ e, e ≠ b → (fun e => (own' e).holdOf S.a) e = (fun e => (own e).holdOf S.a)
      e := by
    intro e he
    simp [own', Function.update_of_ne he]
  have hbooks := hd.books.cacheStored hnone hself hother hroom hnew hspares hloads hcache
  refine ⟨hbooks, fun k => ?_⟩
  have hmore : ∀ e, (fun e => (own' e).holdOf S.a) e = some (.cached S.fileId k) ↔
      (e = b ∧ Hold.cached S.fileId k = .cached S.fileId i) ∨
      (own e).holdOf S.a = some (.cached S.fileId k) :=
    holds_more (x := .spare S.fileId) (Or.inr hnone) hself hother (by simp)
  rw [hbooks.caches.mem_keys, hd.books.caches.mem_keys]
  constructor
  · rintro ⟨e, he⟩
    rcases (hmore e).mp he with ⟨-, hsame⟩ | he
    · cases hsame
      exact Or.inl rfl
    · exact Or.inr ⟨e, he⟩
  · rintro (hk | ⟨e, he⟩)
    · rw [hk]
      exact ⟨b, hself⟩
    · exact ⟨e, (hmore e).mpr (Or.inr he)⟩

/-- A handle has a block active that others have active, too. -/
theorem Desk.joins {s : SharedMem} {holders : Finset Nat} (hd : S.Desk sizes none own es R c)
    (hown : own b = .block S.fileId i holders) (hsome : holders ≠ ∅)
    (hjoined : S.Segment sizes none (Function.update own b (.block S.fileId i (insert S.a holders)))
      s)
    (hbooks :
      Books (fun e => (Function.update own b (.block S.fileId i (insert S.a holders)) e).holdOf S.a)
      S.fileId { c.self with lruCache := (c.self.lruCache.put i (some b)).1 }) :
    S.Desk sizes none (Function.update own b (.block S.fileId i (insert S.a holders))) es R
      { c with
      shm := s, self := { c.self with lruCache := (c.self.lruCache.put i (some b)).1 } } := by
  refine ⟨hjoined, hd.log, hd.store, hd.atlas.congr ?_, ?_, hbooks⟩
  · apply Role.place_update
    rw [hown]
    simp [Role.place, hsome]
  · exact hd.sight.congr ⟨rfl, rfl, rfl, rfl, rfl, rfl, rfl, rfl, rfl, rfl, rfl⟩ rfl rfl

/-- A handle is the first to have a block active, and logs it. -/
theorem Desk.joinsFirst {s : SharedMem} {x : Block} {e : LogEntry} {c₂ : Ctx}
    (hd : S.Desk sizes none own es R c) (hx : c.self.blockArray[i]? = some x)
    (hid : x.blockId = some i) (hused : x.state = .used) (hown : own b = .block S.fileId i ∅)
    (hlag : S.lags)
    (hjoined : S.Segment sizes none (Function.update own b (.block S.fileId i (insert S.a ∅))) s)
    (hw : S.Wrote ⟨.activeBlock, 0, [{ x with usageCount := 0 }]⟩ es { c with shm := s } c₂ e)
    (hbooks : Books (fun e => (Function.update own b (.block S.fileId i (insert S.a ∅)) e).holdOf
      S.a) S.fileId { c₂.self with lruCache := (c₂.self.lruCache.put i (some b)).1 }) :
    ∃ R', S.Desk sizes none (Function.update own b (.block S.fileId i (insert S.a ∅)))
    (es ++ [e]) R'
        { c₂ with self := { c₂.self with lruCache := (c₂.self.lruCache.put i (some b)).1 } } ∧
      R'.blockArray.length = R.blockArray.length := by
  have hself : c₂.self = { c.self with fd := c₂.self.fd } := hw.self
  let R' : View :=
    { R with blockArray := R.blockArray.modify i fun y => { y with state := .active } }
  have hlt : i < R.blockArray.length :=
    hd.sight.shadows.length ▸ (List.getElem?_eq_some_iff.mp hx).1
  have hsettles : Settles (S.licence sizes S.file) R
      [⟨.activeBlock, 0, [{ x with usageCount := 0 }]⟩] R' :=
    .activeBlock _ 0 hid hlt
  have hkeep := (hsettles.eof.resolve_right fun h => by
    have := setsEof_singleton.mp h.1
    cases this).2
  have hworks : ∀ e, (own e).Works S.a S.fileId
      (Function.update own b (.block S.fileId i (insert S.a ∅)) e) := by
    apply Role.Works.update
    rw [hown]
    exact .insert
  have hplace : (own b).place = some ⟨S.fileId, i, .used⟩ := by
    rw [hown]
    rfl
  have hmirrors : Mirrors (Function.update own b (.block S.fileId i (insert S.a ∅))) S.fileId
      R'.blockArray := by
    refine hd.atlas.mirrors.modify hplace ?_
    simp [Role.place]
  have hlog : S.Log sizes (es ++ [e]) R' c₂.folder c₂.self.fd :=
    Log.write (c := { c with shm := s }) hd.log hw hsettles
  refine ⟨R', ⟨?_, hlog, hw.store.trans hd.store, ?_, ?_, hbooks⟩, List.length_modify _ _ _⟩
  · change S.Segment sizes none _ c₂.shm
    rw [hw.shm]
    exact hjoined
  · refine hd.atlas.of_works hd.log.grown.links hworks ?_ hw.links hw.other
    exact hd.atlas.reflects.recast hmirrors (List.length_modify _ _ _) hkeep
  · have hsight :
      S.Sight sizes R { c₂.self with lruCache := (c₂.self.lruCache.put i (some b)).1 } := by
      rw [hself]
      exact hd.sight.congr ⟨rfl, rfl, rfl, rfl, rfl, rfl, rfl, rfl, rfl, rfl, rfl⟩ rfl rfl
    refine ⟨hsight.steady, hsight.shadows.modify_right fun z y hz hzy => ?_,
      fun hsole => ⟨?_, (hsight.eof hsole).2⟩, hsight.fits, fun halone => ?_⟩
    · have hz : c.self.blockArray[i]? = some z := by
        change c₂.self.blockArray[i]? = some z at hz
        rwa [hself] at hz
      cases hx.symm.trans hz
      exact ⟨hzy.bucketId, hzy.blockId, hzy.isLocal, Or.inr ⟨hlag, hused, rfl⟩⟩
    · exact (hsight.eof hsole).1.imp id fun h => ⟨h.1, hkeep h.2.1, h.2.2⟩
    · rw [List.length_modify]
      exact hsight.level halone

/-- The local branch of `activateBlock`. A handle that is the first to have the block
active logs it, but does not note it: its array must be one that may lag. -/
theorem Desk.activateLocal {x : Block} {result : ActivateResult} (hd : S.Desk sizes none own es R c)
    (hcalm : ∀ b f i e, S.own b ≠ .victim f i e) (hx : c.self.blockArray[i]? = some x)
    (hlocal : x.isLocal = true) (hnew : i ∉ c.self.lruCache.keys)
    (hlags : S.lags ∨ ∃ e b, e ≠ S.a ∧ (S.own b).holdOf e = some (.cached S.fileId i))
    (hrun : FileActiveStatus.activateLocal S.cfg i c = .ok result c') :
    result = .activated ∧ ∃ own' es' R', S.Desk sizes none own' es' R' c' ∧ Stays own own' R R' ∧
      (∀ k, k ∈ c'.self.lruCache.keys → k = i ∨ k ∈ c.self.lruCache.keys) ∧
      i ∈ c'.self.lruCache.keys ∧ c'.self.loadingBuckets = c.self.loadingBuckets := by
  obtain ⟨u, c₁, hroom, hrun⟩ := bind_ok hrun
  obtain ⟨own₁, es₁, R₁, hd₁, hstays, hroomy⟩ := hd.makeRoom hroom
  obtain ⟨c₀, c₂, hget, hrun⟩ := bind_ok hrun
  cases hget
  obtain ⟨x₁, c₂, hblock, hrun⟩ := bind_ok hrun
  obtain ⟨rfl, hx₁⟩ := blockAt_ok hblock
  obtain ⟨a, c₂, hactive, hrun⟩ := bind_ok hrun
  obtain ⟨rfl, rfl⟩ := hd₁.sight.active hactive
  obtain ⟨byMe, c₂, hshm, hrun⟩ := bind_ok hrun
  obtain ⟨s, hjoin, rfl⟩ := onShm_ok hshm
  have hlocal₁ : x₁.isLocal = true := by
    obtain ⟨z, hz, hsame⟩ := hroomy.places.block hx
    cases hx₁.symm.trans hz
    exact (congrArg (fun w => w.2.2) hsame).trans hlocal
  obtain ⟨b, holders, hb, hid, hown, hcached, hused⟩ := hd₁.stored hcalm hx₁ hlocal₁
  have ha : S.a ∉ holders := fun ha => hnew (hroomy.keys i (hcached ha))
  have hnew₁ : i ∉ c₁.self.lruCache.keys := fun hi => hnew (hroomy.keys i hi)
  rw [hd₁.sight.steady.fileId] at hjoin
  obtain ⟨hbyMe, hstaffed⟩ :=
    SharedMemoryContext.activateBucket_staffed hd₁.segment.staffed hown hb ha hjoin
  have hjoined :
      S.Segment sizes none (Function.update own₁ b (.block S.fileId i (insert S.a holders))) s := by
    apply hd₁.segment.of_works hstaffed
    apply Role.Works.update
    rw [hown]
    exact .insert
  have hspots :
      SameSpots own₁ (Function.update own₁ b (.block S.fileId i (insert S.a holders))) := by
    apply SameSpots.update
    rw [hown]
    rfl
  rw [hb] at hrun
  cases hmine : byMe with
  | false =>
      have hsome : holders ≠ ∅ := by
        rintro rfl
        rw [hmine] at hbyMe
        simp at hbyMe
      rw [hmine] at hrun
      obtain ⟨u₁, c₂, hput, hrun⟩ := bind_ok hrun
      obtain ⟨j, hj, rfl⟩ := putActive_ok hput
      cases hrun
      obtain rfl : i = j := Option.some.inj (hid.symm.trans hj)
      obtain ⟨hbooks, hkeys⟩ := hd₁.cacheJoined (h := { c₁.self with
        lruCache := (c₁.self.lruCache.put i (some b)).1 }) hown ha hroomy.room hnew₁ rfl rfl rfl
      have hd' := hd₁.joins hown hsome hjoined hbooks
      exact ⟨rfl, _, es₁, R₁, hd', hstays.trans (hspots.stays R₁),
        fun k hk => ((hkeys k).mp hk).imp id (hroomy.keys k), (hkeys i).mpr (Or.inl rfl),
        hroomy.loading⟩
  | true =>
      obtain rfl : holders = ∅ := by
        rw [hmine] at hbyMe
        exact of_decide_eq_true hbyMe.symm
      -- nobody else has the block active, so the handle's array is one that may lag
      have hlag : S.lags := by
        refine hlags.resolve_right ?_
        rintro ⟨e, b', he, hhold⟩
        rw [← hd₁.segment.others e he] at hhold
        obtain ⟨holders', hown', hmem⟩ := Role.block_of_holdOf hhold
        obtain rfl : b = b' := hd₁.atlas.mirrors.unique (by rw [hown]; rfl) (by rw [hown']; rfl)
        rw [hown] at hown'
        cases hown'
        exact Finset.notMem_empty e hmem
      rw [hmine] at hrun
      obtain ⟨u₁, c₂, hwrite, hrun⟩ := bind_ok hrun
      obtain ⟨e, hw⟩ := Log.wrote (c := { c₁ with shm := s }) hd₁.log hwrite
      obtain ⟨u₂, c₃, hput, hrun⟩ := bind_ok hrun
      obtain ⟨j, hj, rfl⟩ := putActive_ok hput
      cases hrun
      obtain rfl : i = j := Option.some.inj (hid.symm.trans hj)
      have hself : c₂.self = { c₁.self with fd := c₂.self.fd } := hw.self
      obtain ⟨hbooks, hkeys⟩ := hd₁.cacheJoined (h := { c₂.self with
        lruCache := (c₂.self.lruCache.put i (some b)).1 }) hown ha hroomy.room hnew₁ (by rw [hself])
        (by rw [hself]) (by rw [hself])
      obtain ⟨R', hd', hlength⟩ := hd₁.joinsFirst hx₁ hid (hused rfl) hown hlag hjoined hw hbooks
      refine ⟨rfl, _, es₁ ++ [e], R', hd', hstays.trans ⟨hspots, hlength⟩,
        fun k hk => ((hkeys k).mp hk).imp id (hroomy.keys k), (hkeys i).mpr (Or.inl rfl), ?_⟩
      change c₂.self.loadingBuckets = _
      rw [hself]
      exact hroomy.loading

/-! ## Loads -/

/-- What became of block `i` in the remote branch of `activateBlock`. -/
inductive Starts (S : Site) (i : Nat) (own own' : Nat → Role) (h h' : FileActiveStatus) :
    ActivateResult → Prop
  | startLoad {b : Nat} : own b = .spare S.a S.fileId →
      own' = Function.update own b (.loading S.a S.fileId i) →
      h'.lruCache = h.lruCache →
      Starts S i own own' h h' (.startLoad ⟨S.fileId, some i, some b, invalidBlockOffset, 0, false⟩)
  | loadingByOthers : own' = own → h' = h → Starts S i own own' h h' .loadingByOthers

/-- The remote branch of `activateBlock`. -/
theorem Desk.startLoading {result : ActivateResult} (hfreed : S.cfg.FreedIntact)
    (hd : S.Desk sizes V own es R c) (hnew : c.self.isBlockLoading i = false)
    (hrun : FileActiveStatus.startLoading S.cfg i c = .ok result c') :
    ∃ own', S.Desk sizes V own' es R c' ∧ S.Starts i own own' c.self c'.self result := by
  obtain ⟨c₀, c₁, hget, hrun⟩ := bind_ok hrun
  cases hget
  dsimp only at hrun
  cases hpre : c.self.preAllocatedBuckets with
  | nil =>
      rw [hpre] at hrun
      cases hrun
  | cons front rest =>
  rw [hpre] at hrun
  dsimp only at hrun
  obtain ⟨spares, hspares⟩ := hd.books.spares
  rw [hpre] at hspares
  obtain ⟨b, ids, hb, -, hhold, -⟩ := hspares.tail
  have hspare : own b = .spare S.a S.fileId := spare_of_holdOf hhold
  obtain ⟨bucketId, blockId, isLocal, state, usageCount⟩ := front
  obtain rfl : bucketId = some b := hb
  obtain ⟨b', c₁, hrange, hrun⟩ := bind_ok hrun
  obtain ⟨s, hrange, rfl⟩ := onShm_ok hrange
  cases hrange
  obtain ⟨a, c₁, hactive, hrun⟩ := bind_ok hrun
  obtain ⟨rfl, rfl⟩ := hd.sight.active hactive
  obtain ⟨marked, c₁, hshm, hrun⟩ := bind_ok hrun
  obtain ⟨s, hmark, rfl⟩ := onShm_ok hshm
  rw [hd.sight.steady.fileId] at hmark
  have hstaffed := SharedMemoryContext.markBucketLoading_staffed hd.segment.staffed hspare hmark
  cases hmarked : marked with
  | false =>
      rw [hmarked] at hrun hstaffed
      cases hrun
      obtain rfl : s = c.shm := hstaffed
      exact ⟨own, hd, .loadingByOthers rfl rfl⟩
  | true =>
      rw [hmarked] at hrun hstaffed
      dsimp only at hrun
      rw [hfreed.freed, hfreed.freed] at hrun
      obtain ⟨u, c₁, hmodify, hrun⟩ := bind_ok hrun
      obtain rfl := modifySelf_ok hmodify
      cases hrun
      let own' := Function.update own b (.loading S.a S.fileId i)
      have hworks : ∀ c, (own c).Works S.a S.fileId (own' c) := by
        apply Role.Works.update
        rw [hspare]
        exact .spare_loading
      have hplace : ∀ c, (own' c).place = (own c).place := by
        apply Role.place_update
        rw [hspare]
        rfl
      have hself : (fun c => (own' c).holdOf S.a) b = some (.loading S.fileId i) := by
        simp [own', Role.holdOf]
      have hother : ∀ c, c ≠ b → (fun c => (own' c).holdOf S.a) c = (fun c => (own c).holdOf S.a)
          c := by
        intro c hc
        simp [own', Function.update_of_ne hc]
      refine ⟨own', ⟨hd.segment.of_works hstaffed hworks, hd.log, hd.store, hd.atlas.congr hplace,
        ?_, ?_⟩, ?_⟩
      · exact hd.sight.congr ⟨rfl, rfl, rfl, rfl, rfl, rfl, rfl, rfl, rfl, rfl, rfl⟩ rfl rfl
      · exact And.right (hd.books.loadFront hpre rfl hself hother hnew rfl rfl rfl)
      · rw [hd.sight.steady.fileId]
        exact .startLoad hspare rfl rfl

/-- What became of block `i` in `activateBlock`, for the caller. -/
inductive Activates (S : Site) (i : Nat) (own own' : Nat → Role) (R R' : View)
    (h h' : FileActiveStatus) : ActivateResult → Prop
  | activated : Stays own own' R R' →
      (∀ k, k ∈ h'.lruCache.keys → k = i ∨ k ∈ h.lruCache.keys) → i ∈ h'.lruCache.keys →
      h'.loadingBuckets = h.loadingBuckets → Activates S i own own' R R' h h' .activated
  | starts {result : ActivateResult} : R' = R →
      (∃ y, R.blockArray[i]? = some y ∧ y.isLocal = false) →
      Starts S i own own' h h' result → Activates S i own own' R R' h h' result

/-- `activateBlock` with a preallocated bucket. -/
theorem Seat.activateBlock {result : ActivateResult} (hfreed : S.cfg.FreedIntact)
    (hs : S.Seat sizes none own done pending R c) (hcalm : ∀ b f i e, S.own b ≠ .victim f i e)
    (hnew : i ∉ c.self.lruCache.keys) (hloading : c.self.isBlockLoading i = false)
    (hlags : S.lags ∨ (∃ y, R.blockArray[i]? = some y ∧ y.isLocal = false) ∨ ∃ e b, e ≠ S.a ∧
      (S.own b).holdOf e = some (.cached S.fileId i))
    (hrun : FileActiveStatus.activateBlock S.cfg i c = .ok result c') :
    ∃ own' es' R' h₁, S.Desk sizes none own' es' R' c' ∧ Eased c.self h₁ ∧
      S.Activates i own own' R R' h₁ c'.self result := by
  obtain ⟨u, c₁, hcatch, hrun⟩ := bind_ok hrun
  obtain ⟨hd, hself⟩ := hs.catchUp hcatch
  have heased : Eased c.self c₁.self := by
    rw [hself]
    exact .of_same rfl rfl
  obtain ⟨x, c₂, hblock, hrun⟩ := bind_ok hrun
  obtain ⟨rfl, hx⟩ := blockAt_ok hblock
  obtain ⟨y, hy, hxy⟩ := hd.sight.shadows.replayed hx
  have hnew₁ : i ∉ c₁.self.lruCache.keys := fun hi => hnew (heased.keys i hi)
  cases hlocal : x.isLocal with
  | false =>
      rw [hlocal] at hrun
      have hloading₁ : c₁.self.isBlockLoading i = false := by
        unfold isBlockLoading
        rw [heased.loading]
        exact hloading
      obtain ⟨own', hd', hstarts⟩ := hd.startLoading hfreed hloading₁ hrun
      exact ⟨own', _, R, c₁.self, hd', heased,
        .starts rfl ⟨y, hy, hxy.isLocal.symm.trans hlocal⟩ hstarts⟩
  | true =>
      rw [hlocal] at hrun
      simp only [Bool.not_true, Bool.false_eq_true, if_false] at hrun
      split at hrun
      · have hlags₁ : S.lags ∨ ∃ e b, e ≠ S.a ∧ (S.own b).holdOf e = some (.cached S.fileId i) := by
          rcases hlags with hl | ⟨z, hz, hfar⟩ | hheld
          · exact Or.inl hl
          · cases hy.symm.trans hz
            rw [hxy.isLocal.symm.trans hlocal] at hfar
            cases hfar
          · exact Or.inr hheld
        obtain ⟨rfl, own', es', R', hd', hstays, hkeys, hin, hloads⟩ :=
          hd.activateLocal hcalm hx hlocal hnew₁ hlags₁ hrun
        exact ⟨own', es', R', c₁.self, hd', heased, .activated hstays hkeys hin hloads⟩
      · cases hrun

/-- The segment after a load: the bucket holds the block, with its data. -/
theorem Segment.loaded {s : SharedMem} (hs : S.Segment sizes V own s)
    (htable : s.buckets.length = S.cfg.numberOfBlocks) (hown : own b = .loading S.a S.fileId i)
    (hnowhere : ∀ c state, (own c).place ≠ some ⟨S.fileId, i, state⟩) :
    ∃ s₁ s', SharedMemoryContext.markLoadFinish b S.a s = .ok () s₁ ∧
      SharedMemoryContext.updateBucketDataSize S.cfg (some b) (sizes S.fileId i) S.fileId S.a s₁ =
        .ok () s' ∧
      S.Segment sizes V (Function.update own b (.block S.fileId i {S.a})) s' := by
  let own' := Function.update own b (.block S.fileId i {S.a})
  have hself' : own' b = .block S.fileId i {S.a} := Function.update_self _ _ _
  -- the bucket has no data yet
  have hempty : s.Staffed (sizes.put S.fileId i 0) own := by
    refine hs.staffed.resized fun c p hp => Sizes.put_of_ne sizes 0 ?_
    rintro ⟨hfile, hindex⟩
    rw [← hfile, ← hindex] at hnowhere
    exact hnowhere c p.state hp
  obtain ⟨s₁, hmark⟩ : ∃ s₁, SharedMemoryContext.markLoadFinish b S.a s = .ok () s₁ := ⟨_, rfl⟩
  have hs₁ : s₁.Staffed (sizes.put S.fileId i 0) own' :=
    SharedMemoryContext.markLoadFinish_staffed hempty hown
    (Or.inr ⟨rfl, Sizes.put_self _ _ _ _⟩) hmark
  have htable₁ : s₁.buckets.length = S.cfg.numberOfBlocks := by
    cases hmark
    rw [← htable]
    exact List.length_modify _ _ _
  obtain ⟨s', hupdate⟩ := SharedMemoryContext.run_updateBucketDataSize hs₁ htable₁ hself'
    (Finset.mem_singleton_self _) (hs.bounded S.fileId i)
  have honly : ∀ c state, c ≠ b → (own' c).place ≠ some ⟨S.fileId, i, state⟩ := by
    intro c state hc
    rw [show own' c = own c from Function.update_of_ne hc _ _]
    exact hnowhere c state
  obtain ⟨hstaffed, -⟩ :=
    SharedMemoryContext.updateBucketDataSize_staffed hs₁ hself' honly hupdate
  rw [Sizes.put_self, Int.toNat_natCast, Nat.max_eq_right (Nat.zero_le _), Sizes.put_put,
    Sizes.put_same] at hstaffed
  refine ⟨s₁, s', hmark, hupdate, hs.of_works hstaffed ?_⟩
  apply Role.Works.update
  rw [hown]
  exact .loading_block

/-- The loop over the loading blocks passes over all other blocks. -/
theorem run_eachLoading_skip {blockId : Option Nat} (found : Nat → Block → StatusM Unit)
    (n fuel k : Nat) (hlt : k + n ≤ c.self.loadingBuckets.length)
    (hother : ∀ j y, k ≤ j → j < k + n → c.self.loadingBuckets[j]? = some y → y.blockId ≠ blockId) :
    eachLoading blockId found (n + fuel) k c = eachLoading blockId found fuel (k + n) c := by
  induction n generalizing k with
  | zero => rw [Nat.zero_add, Nat.add_zero]
  | succ n ih =>
      have hlt' : k < c.self.loadingBuckets.length := by omega
      have hk := List.getElem?_eq_getElem hlt'
      have hne := hother k _ (le_refl k) (by omega) hk
      rw [show n + 1 + fuel = (n + fuel) + 1 by omega, eachLoading]
      simp only [Library.run_bind, Library.run_get, hk, if_neg hne]
      rw [ih (k + 1) (by omega) fun j y hj hj' => hother j y (by omega) (by omega)]
      congr 1
      omega

/-- Nothing is left to do where the block is not listed any more. -/
theorem run_eachLoading_none {blockId : Option Nat} {found : Nat → Block → StatusM Unit}
    (fuel k : Nat)
    (hother : ∀ j y, k ≤ j → c.self.loadingBuckets[j]? = some y → y.blockId ≠ blockId) :
    eachLoading blockId found fuel k c = .ok () c := by
  induction fuel generalizing k with
  | zero => rfl
  | succ fuel ih =>
      simp only [eachLoading, Library.run_bind, Library.run_get]
      cases hk : c.self.loadingBuckets[k]? with
      | none => rfl
      | some y =>
          simp only [if_neg (hother k y (le_refl k) hk)]
          exact ih (k + 1) fun j y hj => hother j y (by omega)

/-- A block that is listed once is taken out once. -/
theorem run_eachLoading_once {blockId : Option Nat} (found : Nat → Block → StatusM Unit)
    {theBlock : Block} (hnodup : (c.self.loadingBuckets.map Block.blockId).Nodup)
    (hfind : (c.self.loadingBuckets.find? fun z => z.blockId = blockId) = some theBlock) :
    ∃ k, c.self.loadingBuckets.eraseIdx k =
        (c.self.loadingBuckets.eraseP fun z => z.blockId = blockId) ∧
      ∀ c', found k theBlock c = .ok () c' →
        c'.self.loadingBuckets = c.self.loadingBuckets.eraseIdx k →
        eachLoading blockId found c.self.loadingBuckets.length 0 c = .ok () c' := by
  obtain ⟨hid, k, hk, hat, hbefore⟩ := List.find?_eq_some_iff_getElem.mp hfind
  have hid : theBlock.blockId = blockId := by simpa using hid
  have hsome : c.self.loadingBuckets[k]? = some theBlock :=
    (List.getElem?_eq_getElem hk).trans (congrArg some hat)
  have herase : c.self.loadingBuckets.eraseIdx k =
      c.self.loadingBuckets.eraseP fun z => z.blockId = blockId := by
    have hfirst : c.self.loadingBuckets.findIdx? (fun z => z.blockId = blockId) = some k :=
      List.findIdx?_eq_some_iff_getElem.mpr
        ⟨hk, by rw [hat]; simpa using hid, fun j hj => by simpa using hbefore j hj⟩
    rw [List.eraseP_eq_eraseIdx, hfirst]
  refine ⟨k, herase, fun c' hfound hlist => ?_⟩
  -- no other entry has the number of the block
  have honly : ∀ j y, j ≠ k → c.self.loadingBuckets[j]? = some y → y.blockId ≠ blockId := by
    intro j y hj hy hyid
    obtain ⟨hlt, hyat⟩ := List.getElem?_eq_some_iff.mp hy
    have hlt' : j < (c.self.loadingBuckets.map Block.blockId).length := by simpa using hlt
    have hk' : k < (c.self.loadingBuckets.map Block.blockId).length := by simpa using hk
    have hinj := List.nodup_iff_injective_get.mp hnodup
    have hsame : (⟨j, hlt'⟩ : Fin (c.self.loadingBuckets.map Block.blockId).length) = ⟨k, hk'⟩ :=
      hinj (by simp only [List.get_eq_getElem, List.getElem_map, hyat, hat, hyid, hid])
    exact hj (congrArg Fin.val hsame)
  have hreach := run_eachLoading_skip found k (c.self.loadingBuckets.length - k) 0
    (by omega) fun j y _ hj => honly j y (by omega)
  rw [Nat.add_sub_cancel' (le_of_lt hk), Nat.zero_add] at hreach
  obtain ⟨n, hn⟩ : ∃ n, c.self.loadingBuckets.length - k = n + 1 :=
    ⟨c.self.loadingBuckets.length - k - 1, by omega⟩
  rw [hreach, hn, eachLoading]
  simp only [Library.run_bind, Library.run_get, hsome, if_pos hid, hfound]
  refine run_eachLoading_none n (k + 1) fun j y hj hy => ?_
  rw [hlist, List.getElem?_eraseIdx_of_ge (by omega)] at hy
  exact honly (j + 1) y (by omega) hy

/-- The handle after a load was noted in its lists, before it is logged. -/
def loadedHandle (h : FileActiveStatus) (i b : Nat) (theBlock : Block) : FileActiveStatus :=
  { h with
    loadingBuckets := h.loadingBuckets.eraseP fun z => z.blockId = some i
    lruCache := (h.lruCache.put i (some b)).1
    blockArray := h.blockArray.set i theBlock }

/-- The end of a load comes down to one record, if the segment plays along. -/
theorem run_finishLoading {info : BlockInfo} {theBlock : Block} {a size k : Nat} {f : FileId}
    {s₁ s' : SharedMem} (hbucket : info.bucketId = some b)
    (hk : c.self.loadingBuckets.eraseIdx k =
      c.self.loadingBuckets.eraseP fun z => z.blockId = some i)
    (hb : theBlock.bucketId = some b) (hi : theBlock.blockId = some i)
    (hactive : c.self.activeId = some a) (hfile : c.self.fileId = f)
    (hmark : SharedMemoryContext.markLoadFinish b a c.shm = .ok () s₁)
    (hupdate : SharedMemoryContext.updateBucketDataSize S.cfg (some b) size f a s₁ = .ok () s')
    (hlt : i < c.self.blockArray.length) :
    finishLoading S.cfg info size k theBlock c =
      logLoadBlock theBlock { c with shm := s', self := loadedHandle c.self i b theBlock } := by
  have hid : myActiveId c = .ok a c := by
    simp [myActiveId, hactive]
  simp only [finishLoading, Library.run_bind, Library.run_get, hid, hbucket, hfile]
  rw [run_onShm_ok (s := c.shm) (by rfl)]
  dsimp only
  rw [run_onShm_ok hmark]
  dsimp only
  rw [run_onShm_ok hupdate]
  dsimp only [modifySelf]
  simp only [Library.run_modify, hk, hi, hb, putActive, modifySelf]
  simp only [blockAt, Library.run_bind, Library.run_get, List.getElem?_eq_getElem hlt,
    Library.run_pure, Library.run_modify]
  rfl

/-- A load that succeeds never fails to report to its handle. -/
theorem Desk.loadSucceeded {info : BlockInfo} (hd : S.Desk sizes V own es R c)
    (htable : c.shm.buckets.length = S.cfg.numberOfBlocks)
    (hown : own b = .loading S.a S.fileId i) (hbucket : info.bucketId = some b)
    (hblock : info.blockId = some i) (hremote : ∃ y, R.blockArray[i]? = some y ∧ y.isLocal = false)
    (hroom : c.self.lruCache.size < c.self.lruCache.maxSize) :
    ∃ c' es' R', FileActiveStatus.loadSucceeded S.cfg info (sizes S.fileId i) c = .ok () c' ∧
      S.Desk sizes V (Function.update own b (.block S.fileId i {S.a})) es' R' c' ∧
      R'.blockArray.length = R.blockArray.length ∧
      c'.self.lruCache = (c.self.lruCache.put i (some b)).1 := by
  obtain ⟨y, hy, hfar⟩ := hremote
  have hnowhere : ∀ c state, (own c).place ≠ some ⟨S.fileId, i, state⟩ :=
    hd.atlas.mirrors.nowhere fun z hz => by cases hy.symm.trans hz; exact hfar
  obtain ⟨s₁, s', hmark, hupdate, hsegment⟩ := hd.segment.loaded htable hown hnowhere
  obtain ⟨loads, hloads⟩ := hd.books.loads
  obtain ⟨theBlock, hfind, hb, hi, hlocal, hstate⟩ :=
    hloads.find (b := b) (i := i) (by simp [hown, Role.holdOf])
  have hlt : i < c.self.blockArray.length :=
    hd.sight.shadows.length ▸ (List.getElem?_eq_some_iff.mp hy).1
  have hactive : c.self.activeId = some S.a := hd.sight.steady.activeId.trans S.activeId
  have hfile : c.self.fileId = S.fileId := hd.sight.steady.fileId
  let c₁ : Ctx := { c with shm := s', self := loadedHandle c.self i b theBlock }
  obtain ⟨c', hwrite⟩ : ∃ c', logLoadBlock theBlock c₁ = .ok () c' := by
    have hfd : c₁.self.fd = some ⟨S.file, (logBytes es).length⟩ := hd.log.fd
    simp [logLoadBlock, logRecord, hfd]
  obtain ⟨e, hw⟩ := Log.wrote (c := c₁) hd.log hwrite
  have hself : c'.self = { c₁.self with fd := c'.self.fd } := hw.self
  obtain ⟨k, hk, honce⟩ := run_eachLoading_once
    (finishLoading S.cfg info (sizes S.fileId i)) hloads.nodup_blockId hfind
  have hrun : FileActiveStatus.loadSucceeded S.cfg info (sizes S.fileId i) c = .ok () c' := by
    simp only [FileActiveStatus.loadSucceeded, Library.run_bind, Library.run_get, hblock]
    refine honce c' ?_ ?_
    · rw [run_finishLoading hbucket hk hb hi hactive hfile hmark hupdate hlt]
      exact hwrite
    · rw [hself, hk]
      rfl
  let own' := Function.update own b (.block S.fileId i {S.a})
  have hself' : own' b = .block S.fileId i {S.a} := Function.update_self _ _ _
  have hother' : ∀ c, c ≠ b → own' c = own c := fun c hc => Function.update_of_ne hc _ _
  have hworks : ∀ c, (own c).Works S.a S.fileId (own' c) := by
    apply Role.Works.update
    rw [hown]
    exact .loading_block
  let R' : View := { R with blockArray := R.blockArray.set i { theBlock with usageCount := 0 } }
  have hsettles : Settles (S.licence sizes S.file) R
      [⟨.loadBlock, 0, [{ theBlock with usageCount := 0 }]⟩] R' :=
    .loadBlock _ 0 hi hy hfar
  have hkeep := (hsettles.eof.resolve_right fun h => by
    have := setsEof_singleton.mp h.1
    cases this).2
  have hmirrors : Mirrors own' S.fileId R'.blockArray := by
    refine hd.atlas.mirrors.load hy hfar (by rw [hown]; rfl) ?_ hi hlocal hb
    simp [Role.place, hstate]
  refine ⟨c', es ++ [e], R', hrun, ⟨?_, Log.write (c := c₁) hd.log hw hsettles,
    hw.store.trans hd.store, ?_, ?_, ?_⟩, List.length_set, ?_⟩
  · rw [hw.shm]
    exact hsegment
  · refine hd.atlas.of_works hd.log.grown.links hworks ?_ hw.links hw.other
    exact hd.atlas.reflects.recast hmirrors List.length_set hkeep
  · have hblocks : c'.self.blockArray = c.self.blockArray.set i theBlock := by rw [hself]; rfl
    have heof : c'.self.eof = c.self.eof := by rw [hself]; rfl
    refine ⟨hd.sight.steady.trans ?_, ?_, fun hsole => ?_, fun hsole => ?_, fun halone => ?_⟩
    · rw [hself]
      exact ⟨rfl, rfl, rfl, rfl, rfl, rfl, rfl, rfl, rfl, rfl, rfl⟩
    · rw [hblocks]
      exact hd.sight.shadows.set i ⟨rfl, rfl, rfl, Or.inl rfl⟩
    · rw [heof]
      exact ⟨(hd.sight.eof hsole).1.imp id fun h => ⟨h.1, hkeep h.2.1, h.2.2⟩,
        (hd.sight.eof hsole).2⟩
    · refine (hd.sight.fits hsole).congr ?_ heof
      change c'.self.blockArray.length = _
      rw [hblocks, List.length_set]
      rfl
    · rw [heof, List.length_set]
      exact hd.sight.level halone
  · have hheld : (fun c => (own' c).holdOf S.a) b = some (.cached S.fileId i) := by
      simp [hself', Role.holdOf]
    have hother : ∀ c, c ≠ b → (fun c => (own' c).holdOf S.a) c = (fun c => (own c).holdOf S.a)
        c := by
      intro c hc
      simp [hother' c hc]
    refine hd.books.cacheLoaded hfind hb hheld hother hroom
      (notMem_keys hd.books hd.atlas.mirrors fun z hz => ?_) ?_ ?_ ?_
    · cases hy.symm.trans hz
      exact hfar
    · rw [hself]
      rfl
    · rw [hself]
      rfl
    · rw [hself]
      rfl
  · rw [hself]
    rfl

/-- The handle after a load failed. -/
def unloadedHandle (h : FileActiveStatus) (i : Nat) (theBlock : Block) : FileActiveStatus :=
  { h with
    loadingBuckets := h.loadingBuckets.eraseP fun z => z.blockId = some i
    preAllocatedBuckets := { theBlock with blockId := none } :: h.preAllocatedBuckets }

/-- A load that failed never fails to report to its handle either. -/
theorem Desk.loadFailed {info : BlockInfo} (hd : S.Desk sizes V own es R c)
    (hown : own b = .loading S.a S.fileId i) (hbucket : info.bucketId = some b)
    (hblock : info.blockId = some i) :
    ∃ c', FileActiveStatus.loadFailed info c = .ok () c' ∧
      S.Desk sizes V (Function.update own b (.spare S.a S.fileId)) es R c' ∧
      c'.self.lruCache = c.self.lruCache := by
  obtain ⟨loads, hloads⟩ := hd.books.loads
  obtain ⟨theBlock, hfind, hb, -, -⟩ := hloads.find (b := b) (i := i) (by simp [hown, Role.holdOf])
  have hactive : c.self.activeId = some S.a := hd.sight.steady.activeId.trans S.activeId
  obtain ⟨s, hmark⟩ : ∃ s, SharedMemoryContext.markLoadFinish b S.a c.shm = .ok () s := ⟨_, rfl⟩
  let own' := Function.update own b (.spare S.a S.fileId)
  have hself' : own' b = .spare S.a S.fileId := Function.update_self _ _ _
  have hother' : ∀ c, c ≠ b → own' c = own c := fun c hc => Function.update_of_ne hc _ _
  have hstaffed : s.Staffed sizes own' :=
    SharedMemoryContext.markLoadFinish_staffed hd.segment.staffed hown (Or.inl rfl) hmark
  have hworks : ∀ c, (own c).Works S.a S.fileId (own' c) := by
    apply Role.Works.update
    rw [hown]
    exact Role.Works.spare_loading.symm
  have hplace : ∀ c, (own' c).place = (own c).place := by
    apply Role.place_update
    rw [hown]
    rfl
  have hid : myActiveId c = .ok S.a c := by
    simp [myActiveId, hactive]
  obtain ⟨k, hk, honce⟩ := run_eachLoading_once (abandonLoading info)
    hloads.nodup_blockId hfind
  refine ⟨{ c with shm := s, self := unloadedHandle c.self i theBlock }, ?_,
    ⟨hd.segment.of_works hstaffed hworks, hd.log, hd.store, hd.atlas.congr hplace,
      hd.sight.congr ⟨rfl, rfl, rfl, rfl, rfl, rfl, rfl, rfl, rfl, rfl, rfl⟩ rfl rfl, ?_⟩, rfl⟩
  · simp only [FileActiveStatus.loadFailed, Library.run_bind, Library.run_get, hblock]
    refine honce _ ?_ hk.symm
    simp only [abandonLoading, Library.run_bind, hid, hbucket]
    rw [run_onShm_ok (s := c.shm) (by rfl)]
    dsimp only
    rw [run_onShm_ok hmark]
    simp only [modifySelf, Library.run_modify, hk]
    rfl
  · have hheld : (fun c => (own' c).holdOf S.a) b = some (.spare S.fileId) := by
      simp [hself', Role.holdOf]
    have hother : ∀ c, c ≠ b → (fun c => (own' c).holdOf S.a) c = (fun c => (own c).holdOf S.a)
        c := by
      intro c hc
      simp [hother' c hc]
    exact hd.books.loadBack hfind hb hheld hother rfl rfl rfl

end Site

end Gopherwood
