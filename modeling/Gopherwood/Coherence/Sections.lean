/-
# The critical sections

What each critical section of a registered handle does to the roles, the lists and
the logs, if it returns.
-/

import Gopherwood.Coherence.Lists

namespace Gopherwood

open Library (bind_ok)
open FileActiveStatus

namespace Site

variable {S : Site} {sizes : Sizes} {V : Option Victim} {own own' : Nat → Role} {es : List LogEntry}
variable {R R' : View} {c c' : Ctx} {h h' : FileActiveStatus}

/-- The victim becomes a spare bucket. -/
theorem Segment.endEviction {v : Victim} {w : Bool} {s s' : SharedMem}
    {rc : SharedMemoryContext.EvictResult} (hs : S.Segment sizes (some v) own s)
    (hrun : SharedMemoryContext.evictBucketFinishAndTryAcquire (some v.bucket) S.a S.fileId w s =
      .ok rc s') :
    rc = .finished ∧ S.Segment sizes none (Function.update own v.bucket (.spare S.a S.fileId))
    s' := by
  have hown : own v.bucket = .victim v.file v.index S.a :=
    (hs.victims _ _ _ _).mpr (by rw [if_pos rfl])
  obtain ⟨hrc, b, hb, hstaffed⟩ :=
    SharedMemoryContext.evictBucketFinishAndTryAcquire_staffed hs.staffed hrun
  obtain rfl : v.bucket = b := Option.some.inj hb
  refine ⟨hrc, hstaffed, hs.bounded, fun e he c => ?_, fun c g i e => ?_⟩
  · by_cases hc : c = v.bucket
    · subst hc
      rw [Function.update_self, ← hs.others e he, hown]
      simp [Role.holdOf, Ne.symm he]
    · rw [Function.update_of_ne hc]
      exact hs.others e he c
  · have hbefore := hs.victims c g i e
    by_cases hc : c = v.bucket
    · subst hc
      rw [Function.update_self]
      simp only [reduceCtorEq, false_iff]
      by_cases he : e = S.a
      · simp [he]
      · rw [if_neg he] at hbefore ⊢
        intro hvictim
        rw [hown] at hbefore
        have := hbefore.mpr hvictim
        simp only [Role.victim.injEq] at this
        exact he this.2.2.symm
    · rw [Function.update_of_ne hc, hbefore]
      by_cases he : e = S.a
      · rw [if_pos he, if_pos he]
        simp only [Option.some.injEq, reduceCtorEq, iff_false]
        rintro rfl
        exact hc rfl
      · rw [if_neg he, if_neg he]

/-- The block that the log of the evicted file gets. -/
def evictedBlock (i : Nat) : Block := ⟨none, some i, false, .free, 0⟩

theorem not_setsEof_evict {i : Nat} : ¬ SetsEof [⟨.evictBlock, 0, [evictedBlock i]⟩] := by
  rw [setsEof_singleton]
  exact Bool.false_ne_true

/-- The handle evicted a block of its own file. -/
theorem Desk.logEvictOwn {v : Victim} {u : Unit} (hfile : v.file = S.fileId)
    (hown : own v.bucket = .victim v.file v.index S.a)
    (hsegment : S.Segment sizes none (Function.update own v.bucket (.spare S.a S.fileId)) c.shm)
    (hlog : S.Log sizes es R c.folder c.self.fd) (hstore : c.oss = S.oss) (hatlas :
    S.Atlas sizes own R c.folder)
    (hsight : S.Sight sizes R c.self)
    (hbooks : Books (fun b => (Function.update own v.bucket (.spare S.a S.fileId) b).holdOf S.a)
      S.fileId c.self)
    (hrun : (do
      logEvcitBlock (evictedBlock v.index)
      let _ ← blockAt v.index
      modifySelf fun h => { h with
        blockArray :=
          h.blockArray.set v.index (evictedBlock v.index) } : StatusM Unit) c = .ok u c') :
    ∃ es' R', S.Desk sizes none (Function.update own v.bucket (.spare S.a S.fileId)) es' R' c' ∧
      R'.blockArray.length = R.blockArray.length ∧
      c'.self = { c.self with blockArray := c'.self.blockArray, fd := c'.self.fd } := by
  obtain ⟨u₁, c₁, hwrite, hrun⟩ := bind_ok hrun
  obtain ⟨e, hw⟩ := hlog.wrote hwrite
  obtain ⟨y, c₂, hblock, hrun⟩ := bind_ok hrun
  obtain ⟨rfl, -⟩ := blockAt_ok hblock
  cases hrun
  have hplace : (own v.bucket).place = some ⟨S.fileId, v.index, .used⟩ := by
    rw [hown, hfile]
    rfl
  obtain ⟨z, hz, hlocal, hzb⟩ := hatlas.mirrors.placed _ _ _ hplace
  obtain ⟨b, hb, hstored⟩ := hatlas.mirrors.stored _ z hz hlocal
  obtain rfl : v.bucket = b := Option.some.inj (hzb.symm.trans hb)
  have hused : z.state = .used :=
    (congrArg Place.state (Option.some.inj (hplace.symm.trans hstored))).symm
  have hsettles : Settles (S.licence sizes S.file) R [⟨.evictBlock, 0, [evictedBlock v.index]⟩]
      { R with blockArray := R.blockArray.set v.index (evictedBlock v.index) } :=
    .evictBlock _ 0 rfl hz hlocal hused
  have hactive := (hsettles.eof.resolve_right fun h => not_setsEof_evict h.1).2
  have hself : c₁.self = { c.self with fd := c₁.self.fd } := hw.self
  have hlog' := hlog.write hw hsettles
  refine ⟨es ++ [e], { R with blockArray := R.blockArray.set v.index (evictedBlock v.index) },
    ⟨?_, hlog', hw.store.trans hstore, ?_, ?_, ?_⟩, List.length_set, ?_⟩
  · change S.Segment sizes none _ c₁.shm
    rw [hw.shm]
    exact hsegment
  · refine hatlas.move hlog.grown.links (fun b p hp => ?_) ?_ hw.links hw.other
    · by_cases hbv : b = v.bucket
      · subst hbv
        rw [Function.update_self, hplace]
        simp only [Role.place, reduceCtorEq, Option.some.injEq, false_iff]
        rintro rfl
        exact hp rfl
      · rw [Function.update_of_ne hbv]
    · exact hatlas.reflects.recast (hatlas.mirrors.evict hplace rfl rfl rfl rfl rfl) List.length_set
        hactive
  · obtain ⟨hsteady, hshadows, heof, hfits, hlevel⟩ := hsight.withFd hself
    refine ⟨hsteady.trans ⟨rfl, rfl, rfl, rfl, rfl, rfl, rfl, rfl, rfl, rfl, rfl⟩, ?_,
      fun hsole => ?_, fun hsole => (hfits hsole).congr List.length_set rfl, ?_⟩
    · exact hshadows.set _ (.refl _ _)
    · refine ⟨(heof hsole).1.imp id fun h => ?_, (heof hsole).2⟩
      exact ⟨h.1, hactive h.2.1, h.2.2⟩
    · rw [List.length_set]
      exact hlevel
  · apply hbooks.congr
    · change c₁.self.preAllocatedBuckets = _
      rw [hself]
    · change c₁.self.loadingBuckets = _
      rw [hself]
    · change c₁.self.lruCache = _
      rw [hself]
  · dsimp only
    rw [hself]

/-- The handle evicted a block of another file. -/
theorem Desk.logEvictOther {v : Victim} {k : Nat} {fd fd' : Descriptor} {folder : ManifestFolder}
    (hfile : v.file ≠ S.fileId) (hown : own v.bucket = .victim v.file v.index S.a)
    (hsegment : S.Segment sizes none (Function.update own v.bucket (.spare S.a S.fileId)) c.shm)
    (hlog : S.Log sizes es R c.folder c.self.fd) (hstore : c.oss = S.oss)
    (hatlas : S.Atlas sizes own R c.folder) (hsight : S.Sight sizes R c.self)
    (hbooks : Books (fun b => (Function.update own v.bucket (.spare S.a S.fileId) b).holdOf S.a)
      S.fileId c.self) (hk : c.folder.links v.file = some k)
    (hfd : fd = ⟨k, (c.folder.content k).length⟩) {client : Client}
    (hwrite : c.folder.mfWrite fd ⟨client, ⟨.evictBlock, 0, [evictedBlock v.index]⟩⟩ =
      (folder, fd')) :
    S.Desk sizes none (Function.update own v.bucket (.spare S.a S.fileId)) es R
    { c with folder := folder } := by
  subst hfd
  let entry : LogEntry := ⟨client, ⟨.evictBlock, 0, [evictedBlock v.index]⟩⟩
  obtain rfl : (c.folder.mfWrite ⟨k, (c.folder.content k).length⟩ entry).1 = folder :=
    congrArg Prod.fst hwrite
  obtain ⟨es', r, hes, hreplay, hreflects⟩ := hatlas.elsewhere v.file k hfile hk
  have hlinks : c.folder.links = S.folder.links := hlog.grown.links
  have hbound : k < c.folder.files.length := by
    rw [hlog.grown.files]
    exact S.wellLinked.bound v.file k (hlinks ▸ hk)
  have hown' : k ≠ S.file := file_ne hlinks hfile hk
  have hplace : (own v.bucket).place = some ⟨v.file, v.index, .used⟩ := by
    rw [hown]
    rfl
  obtain ⟨z, hz, hlocal, hzb⟩ := hreflects.mirrors.placed _ _ _ hplace
  obtain ⟨b, hb, hstored⟩ := hreflects.mirrors.stored _ z hz hlocal
  obtain rfl : v.bucket = b := Option.some.inj (hzb.symm.trans hb)
  have hused : z.state = .used :=
    (congrArg Place.state (Option.some.inj (hplace.symm.trans hstored))).symm
  let r' : View := { r with blockArray := r.blockArray.set v.index (evictedBlock v.index) }
  have hsettles : ∀ L : Licence, Settles L r [entry.record] r' :=
    fun L => .evictBlock L 0 rfl hz hlocal hused
  have hactive :=
    ((hsettles (S.licence sizes k)).eof.resolve_right fun h => not_setsEof_evict h.1).2
  have hend := ManifestFolder.content_mfWrite_end ⟨k, (c.folder.content k).length⟩ entry hbound rfl
  have hother : ∀ j, j ≠ k → (c.folder.mfWrite ⟨k, (c.folder.content k).length⟩ entry).1.content j =
      c.folder.content j := fun j hj => ManifestFolder.content_mfWrite_other _ entry hj
  refine ⟨hsegment, ⟨hlog.fd, ?_, hlog.replayed, ?_⟩, hstore, ⟨?_, fun g j hg hj => ?_,
    fun b p hp => ?_⟩, hsight, hbooks⟩
  · exact (hother _ (Ne.symm hown')).trans hlog.content
  · exact hlog.grown.trans (.mfWrite hbound hes (by rw [hes]) hreplay (hsettles _))
  · refine ⟨hatlas.mirrors.elsewhere (fun p hp => ?_) (fun p hp => by cases hp),
      hatlas.reflects.fits, hatlas.reflects.settled⟩
    rw [hplace] at hp
    cases hp
    exact hfile
  · have hgj : c.folder.links g = some j := hj
    by_cases hgv : g = v.file
    · subst hgv
      obtain rfl : k = j := Option.some.inj (hk.symm.trans hgj)
      refine ⟨es' ++ [entry], r', ?_, ManifestFolder.Grows.replay_extended hreplay
        (hsettles (S.licence sizes k)), ?_⟩
      · rw [hend, hes, logBytes_append]
      · exact hreflects.recast (hreflects.mirrors.evict hplace rfl rfl rfl rfl rfl) List.length_set
          hactive
    · have hne : j ≠ k := by
        rintro rfl
        rw [hlinks] at hgj hk
        exact hgv (S.wellLinked.injective _ _ _ hgj hk)
      obtain ⟨es₁, r₁, hes₁, hreplay₁, hreflects₁⟩ := hatlas.elsewhere g j hg hgj
      refine ⟨es₁, r₁, (hother j hne).trans hes₁, hreplay₁, ?_, hreflects₁.fits, hreflects₁.settled⟩
      refine hreflects₁.mirrors.elsewhere (fun p hp => ?_) fun p hp => by cases hp
      rw [hplace] at hp
      cases hp
      exact Ne.symm hgv
  · by_cases hbv : b = v.bucket
    · subst hbv
      rw [Function.update_self] at hp
      cases hp
    · rw [Function.update_of_ne hbv] at hp
      exact hatlas.placed b p hp

/-- The roles without the victim of an eviction. -/
def withoutVictim (own : Nat → Role) : Option Victim → Nat → Role
  | none => own
  | some v => Function.update own v.bucket .free

/-- An eviction ends: the victim is the handle's, and the log of its file tells that
the block left. -/
theorem Desk.finishEvict {v : Victim} {loop loop' : EvictLoop} {gained : List Block}
    (hd : S.Desk sizes (some v) own es R c) (hv : VictimOf sizes loop v)
    (hrun : FileActiveStatus.finishEvict loop c = .ok (loop', gained) c') :
    ∃ own' es' R', S.Desk sizes none own' es' R' c' ∧ Stays (withoutVictim own (some v)) own' R R' ∧
      loop'.evicting = false ∧ c'.self = { c.self with
        blockArray := c'.self.blockArray, fd := c'.self.fd
        preAllocatedBuckets := c.self.preAllocatedBuckets ++ gained } := by
  obtain ⟨hbucket, hfile, hindex, -⟩ := hv
  have hspots : SameSpots (withoutVictim own (some v))
      (Function.update own v.bucket (.spare S.a S.fileId)) := by
    intro b
    change _ = (Function.update own v.bucket .free b).spot
    by_cases hb : b = v.bucket
    · subst hb
      rw [Function.update_self, Function.update_self]
      rfl
    · rw [Function.update_of_ne hb, Function.update_of_ne hb]
  obtain ⟨c₀, c₁, hget, hrun⟩ := bind_ok hrun
  cases hget
  obtain ⟨a, c₁, hactive, hrun⟩ := bind_ok hrun
  obtain ⟨rfl, rfl⟩ := hd.sight.active hactive
  obtain ⟨rc, c₁, hshm, hrun⟩ := bind_ok hrun
  obtain ⟨s, hfinish, rfl⟩ := onShm_ok hshm
  rw [hbucket, hd.sight.steady.fileId] at hfinish
  obtain ⟨rfl, hsegment⟩ := hd.segment.endEviction hfinish
  have hown : own v.bucket = .victim v.file v.index S.a :=
    (hd.segment.victims _ _ _ _).mpr (by rw [if_pos rfl])
  obtain ⟨u₁, c₁, hmodify, hrun⟩ := bind_ok hrun
  have hc₁ := modifySelf_ok hmodify
  obtain ⟨u₂, c₂, hevict, hrun⟩ := bind_ok hrun
  cases hrun
  let h₁ : FileActiveStatus := { c.self with
    preAllocatedBuckets := c.self.preAllocatedBuckets ++ [newBlock (some v.bucket)] }
  obtain rfl : c₁ = { c with shm := s, self := h₁ } := by
    rw [hc₁, hbucket]
  have hsight : S.Sight sizes R h₁ :=
    hd.sight.congr ⟨rfl, rfl, rfl, rfl, rfl, rfl, rfl, rfl, rfl, rfl, rfl⟩ rfl rfl
  have hbooks : Books (fun b => (Function.update own v.bucket (.spare S.a S.fileId) b).holdOf S.a)
      S.fileId h₁ := by
    refine hd.books.gain (b := v.bucket) ?_ ?_ (fun b hb => ?_) rfl rfl rfl
    · rw [hown]
      rfl
    · rw [Function.update_self]
      simp [Role.holdOf]
    · rw [Function.update_of_ne hb]
  obtain ⟨c₃, c₄, hget, hrun⟩ := bind_ok hevict
  cases hget
  dsimp only at hrun
  rw [hfile, hindex] at hrun
  split at hrun
  · next hsame =>
      have hsame : v.file = S.fileId := hsame.symm.trans hd.sight.steady.fileId
      obtain ⟨es', R', hd', hlength, hself⟩ :=
        Desk.logEvictOwn (c := { c with shm := s, self := h₁ }) hsame hown
        hsegment hd.log hd.store hd.atlas hsight hbooks hrun
      refine ⟨_, es', R', hd', ⟨hspots, hlength⟩, rfl, ?_⟩
      rw [hself, hbucket]
  · next hother =>
      have hother : v.file ≠ S.fileId :=
        fun heq => hother (hd.sight.steady.fileId.trans heq.symm)
      cases hk : c.folder.links v.file with
      | none =>
          rw [hk] at hrun
          cases hrun
      | some k =>
          rw [hk] at hrun
          cases hrun
          refine ⟨_, es, R, Desk.logEvictOther (c := { c with shm := s, self := h₁ }) hother hown
            hsegment hd.log hd.store hd.atlas hsight hbooks hk rfl rfl, hspots.stays R,
            rfl, ?_⟩
          rw [hbucket]

/-! ## acquireNewBlocks -/

/-- Blocks may have left the cache; the loads go on. -/
structure Eased (h h' : FileActiveStatus) : Prop where
  keys : ∀ k ∈ h'.lruCache.keys, k ∈ h.lruCache.keys
  loading : h'.loadingBuckets = h.loadingBuckets

theorem Eased.refl (h : FileActiveStatus) : Eased h h := ⟨fun _ hk => hk, rfl⟩

theorem Eased.trans {h'' : FileActiveStatus} (first : Eased h h') (second : Eased h' h'') :
    Eased h h'' :=
  ⟨fun k hk => first.keys k (second.keys k hk), second.loading.trans first.loading⟩

/-- Lists that stay as they were. -/
theorem Eased.of_same (hcache : h'.lruCache = h.lruCache)
    (hloading : h'.loadingBuckets = h.loadingBuckets) :
    Eased h h' :=
  ⟨by simp [hcache], hloading⟩

/-- The cache has its blocks after the quota was set. -/
theorem Desk.adjustSize {newQuota : Nat} {u : Unit} (hd : S.Desk sizes V own es R c)
    (hrun : FileActiveStatus.adjustSize newQuota c = .ok u c') :
    S.Desk sizes V own es R c' ∧ Eased c.self c'.self := by
  obtain ⟨c₀, c₁, hget, hrun⟩ := bind_ok hrun
  cases hget
  cases hadjust : c.self.lruCache.adjustSize newQuota with
  | mk cache overflow =>
      rw [hadjust] at hrun
      obtain ⟨u₁, c₁, hmodify, hrun⟩ := bind_ok hrun
      obtain rfl := modifySelf_ok hmodify
      split at hrun
      · cases hrun
      · next hnone =>
          cases hrun
          -- nothing overflows, so no entry was dropped
          have hitems : cache.items = c.self.lruCache.items := by
            rw [not_not] at hnone
            simp only [LRUCache.adjustSize, LRUCache.removeNumOfKeys, Prod.mk.injEq] at hadjust
            obtain ⟨rfl, hoverflow⟩ := hadjust
            rw [hnone, List.reverse_eq_nil_iff, List.map_eq_nil_iff,
              List.drop_eq_nil_iff] at hoverflow
            exact List.take_of_length_le hoverflow
          have hkeys : cache.keys = c.self.lruCache.keys := congrArg (List.map Prod.fst) hitems
          refine ⟨⟨hd.segment, hd.log, hd.store, hd.atlas, ?_, hd.books.spares, hd.books.loads, ?_,
            hd.books.file⟩, fun k hk => hkeys ▸ hk, rfl⟩
          · exact hd.sight.congr ⟨rfl, rfl, rfl, rfl, rfl, rfl, rfl, rfl, rfl, rfl, rfl⟩ rfl rfl
          · refine ⟨?_, fun i v => ?_⟩
            · change cache.keys.Nodup
              rw [hkeys]
              exact hd.books.caches.nodup
            · change (i, v) ∈ cache.items ↔ _
              rw [hitems]
              exact hd.books.caches.mem i v

/-- The acquired buckets are logged, and an eviction is started if some are missing. -/
theorem Desk.acquired {loop loop' : EvictLoop} {blocks : List Block}
    (hd : S.Desk sizes none own es R c) (hidle : loop.evicting = false)
    (hrun : (do logAcquireNewBlock blocks; FileActiveStatus.startEvict loop : StatusM EvictLoop) c =
      .ok loop' c') :
    ∃ own' es' V, S.Desk sizes V own' es' R c' ∧ SameSpots own own' ∧ Eased c.self c'.self ∧
      Evicts sizes V loop' := by
  obtain ⟨u, c₁, hlog, hrun⟩ := bind_ok hrun
  obtain ⟨es', hd₁, hself⟩ := hd.note hlog (.acquireNewBlock _ R 0 _)
  obtain ⟨own', V, hd', hspots, hself', hevicts⟩ := hd₁.startEvict hidle hrun
  refine ⟨own', es', V, hd', hspots, ?_, hevicts⟩
  rw [hself', hself]
  exact .of_same rfl rfl

/-- The first critical section of `acquireNewBlocks`. -/
theorem Seat.acquireFirst {done pending : List LogEntry} {loop : EvictLoop}
    (hs : S.Seat sizes none own done pending R c)
    (hrun : FileActiveStatus.acquireFirst S.cfg c = .ok loop c') :
    ∃ own' es' R' V, S.Desk sizes V own' es' R' c' ∧ Stays own own' R R' ∧ Eased c.self c'.self ∧
      Evicts sizes V loop := by
  obtain ⟨c₁, c₂, newQuota, numToInactivate, numToAcquire, hcatch, -, -, hinactivate, hrun⟩ :=
    acquireFirst_returns hrun
  obtain ⟨hd, hself⟩ := hs.catchUp hcatch
  have heased : Eased c.self c₁.self := by
    rw [hself]
    exact .of_same rfl rfl
  obtain ⟨own₂, es₂, R₂, hd₂, hspots₂, heased₂⟩ : ∃ own' es' R', S.Desk sizes none own' es' R' c₂ ∧
      Stays own own' R R' ∧ Eased c₁.self c₂.self := by
    rcases hinactivate with ⟨-, rfl⟩ | hinactivate
    · exact ⟨_, _, R, hd, .refl _ _, .refl _⟩
    · obtain ⟨own', es', R', hd', hstays, hself', -⟩ := hd.inactivateOldest hinactivate
      refine ⟨own', es', R', hd', hstays, ?_⟩
      rw [hself']
      exact ⟨keys_removeNumOfKeys _ _, rfl⟩
  obtain ⟨u₂, c₃, hadjust, hrun⟩ := bind_ok hrun
  obtain ⟨hd₃, heased₃⟩ := hd₂.adjustSize hadjust
  obtain ⟨blocks, c₄, hfree, hrun⟩ := bind_ok hrun
  obtain ⟨own₄, hd₄, hspots₄, hself₄⟩ := hd₃.acquireFree hfree
  obtain ⟨own', es', V, hd', hspots', heased', hevicts⟩ := hd₄.acquired rfl hrun
  have heased₄ : Eased c₃.self c₄.self := by
    rw [hself₄]
    exact .of_same rfl rfl
  exact ⟨own', es', R₂, V, hd', hspots₂.trans ((hspots₄.trans hspots').stays R₂),
    heased.trans (heased₂.trans (heased₃.trans (heased₄.trans heased'))), hevicts⟩

/-- The critical section of the loop of `acquireNewBlocks`. -/
theorem Seat.acquireNext {done pending : List LogEntry} {loop loop' : EvictLoop}
    (hs : S.Seat sizes V own done pending R c) (hevicts : Evicts sizes V loop)
    (hrun : FileActiveStatus.acquireNext loop c = .ok loop' c') :
    ∃ own' es' R' V', S.Desk sizes V' own' es' R' c' ∧ Stays (withoutVictim own V) own' R R' ∧
      Eased c.self c'.self ∧ Evicts sizes V' loop' := by
  rw [acquireNext_eq] at hrun
  obtain ⟨u, c₁, hcatch, hrun⟩ := bind_ok hrun
  obtain ⟨hd, hself⟩ := hs.catchUp hcatch
  have heased : Eased c.self c₁.self := by
    rw [hself]
    exact .of_same rfl rfl
  obtain ⟨⟨loop₁, gained⟩, c₂, hfinish, hrun⟩ := bind_ok hrun
  obtain ⟨own₂, es₂, R₂, hd₂, hspots₂, hidle, heased₂⟩ : ∃ own' es' R',
      S.Desk sizes none own' es' R' c₂ ∧ Stays (withoutVictim own V) own' R R' ∧
      loop₁.evicting = false ∧ Eased c₁.self c₂.self := by
    rcases hevicts with ⟨hidle, rfl⟩ | ⟨hbusy, v, rfl, hv⟩
    · rw [hidle] at hfinish
      cases hfinish
      exact ⟨_, _, R, hd, .refl _ _, hidle, .refl _⟩
    · rw [hbusy] at hfinish
      obtain ⟨own', es', R', hd', hspots, hidle, hself'⟩ := hd.finishEvict hv hfinish
      refine ⟨own', es', R', hd', hspots, hidle, ?_⟩
      rw [hself']
      exact .of_same rfl rfl
  obtain ⟨c₀, c₃, hget, hrun⟩ := bind_ok hrun
  cases hget
  dsimp only at hrun
  -- the free buckets are logged with the one gained, and the next victim is marked
  have hlast : ∀ {own₃ : Nat → Role} {blocks : List Block} {c₃ : Ctx} {num : Nat},
      S.Desk sizes none own₃ es₂ R₂ c₃ → SameSpots own₂ own₃ → Eased c₂.self c₃.self → (do
        logAcquireNewBlock (gained ++ blocks)
        FileActiveStatus.startEvict { loop₁ with numToAcquire := num } : StatusM EvictLoop) c₃ =
        .ok loop' c' → ∃ own' es' R' V', S.Desk sizes V' own' es' R' c' ∧
          Stays (withoutVictim own V) own' R R' ∧ Eased c.self c'.self ∧ Evicts sizes V' loop' := by
    intro own₃ blocks c₃ num hd₃ hspots₃ heased₃ hrun
    have hidle₃ : ({ loop₁ with numToAcquire := num } : EvictLoop).evicting = false := hidle
    obtain ⟨own', es', V', hd', hspots', heased', hevicts'⟩ := hd₃.acquired hidle₃ hrun
    exact ⟨own', es', R₂, V', hd', hspots₂.trans ((hspots₃.trans hspots').stays R₂),
      heased.trans (heased₂.trans (heased₃.trans heased')), hevicts'⟩
  split at hrun
  · obtain ⟨blocks, c₃, hfree, hrun⟩ := bind_ok hrun
    obtain ⟨own', hd', hspots', hself'⟩ := hd₂.acquireFree hfree
    refine hlast hd' hspots' ?_ hrun
    rw [hself']
    exact .of_same rfl rfl
  · exact hlast hd₂ (.refl _) (.refl _) hrun

end Site

end Gopherwood
