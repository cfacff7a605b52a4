/-
# Positions, flush and close

What the critical sections do that end a transfer, publish the end of file, and give
up everything that a handle holds.
-/

import Gopherwood.Coherence.Blocks

namespace Gopherwood

open Library (bind_ok)
open FileActiveStatus

namespace Site

variable {S : Site} {sizes : Sizes} {V : Option Victim} {own own' : Nat → Role} {es : List LogEntry}
variable {R R' : View} {c c' : Ctx} {h h' : FileActiveStatus} {done pending : List LogEntry}
variable {b i : Nat}

/-- The end of file is published while the last block is active. -/
theorem Desk.flushEof {u : Unit} (hd : S.Desk sizes V own es R c) (hpos : 0 < R.blockArray.length)
    (hrun : FileActiveStatus.flushEof S.cfg c = .ok u c') :
    ∃ es' R', S.Desk sizes V own es' R' c' ∧ R'.blockArray = R.blockArray ∧
      c'.self = { c.self with eof := c'.self.eof, fd := c'.self.fd } := by
  have hlength : c.self.blockArray.length = R.blockArray.length := hd.sight.shadows.length
  have hknown : S.sole → R.eof ≤ c.self.eof := by
    intro hsole
    rcases (hd.sight.eof hsole).1 with hsame | ⟨-, -, hle⟩
    · exact Nat.le_of_eq hsame.symm
    · exact hle
  have htells : S.Tells sizes c :=
    tells_of_staffed hd.segment.staffed hd.sight.shadows hd.atlas.mirrors
      fun b i state hplace => ⟨state, hplace⟩
  obtain ⟨e, eof, hw, hlog, heof⟩ := hd.log.flushEof htells hlength hknown hrun
  have hself : c'.self = { c.self with eof := eof, fd := c'.self.fd } := hw.self
  have hend : S.sole → eof = endOf S.size (sizes S.fileId) R.blockArray.length := by
    intro hsole
    rw [heof, Nat.max_eq_right]
    exact hlength ▸ (hd.sight.fits hsole).within
  have hfits : ∀ {v : View}, S.sole → v.blockArray.length = R.blockArray.length → v.eof = eof →
      v.Fits S.size (sizes S.fileId) := by
    intro v hsole hv heof'
    exact (View.Fits.full (hd.segment.bounded S.fileId) hpos).congr hv (heof'.trans (hend hsole))
  refine ⟨es ++ [e], { R with eof := eof }, ⟨?_, hlog, hw.store.trans hd.store, ?_, ?_, ?_⟩,
    rfl, ?_⟩
  · rw [hw.shm]
    exact hd.segment
  · refine hd.atlas.of_works hd.log.grown.links (fun b => .refl _ _ _) ⟨hd.atlas.mirrors,
      fun hsole => hfits hsole rfl rfl, fun hsole _ => hend hsole⟩ hw.links hw.other
  · rw [hself]
    refine ⟨hd.sight.steady.trans ⟨rfl, rfl, rfl, rfl, rfl, rfl, rfl, rfl, rfl, rfl, rfl⟩,
      hd.sight.shadows, fun hsole => ⟨Or.inl rfl, ?_⟩, fun hsole => hfits hsole hlength rfl,
      fun halone => ?_⟩
    · exact Nat.le_trans (hd.sight.eof hsole).2 (heof ▸ Nat.le_max_left _ _)
    · obtain ⟨hsame, hlevels⟩ := hd.sight.level halone
      have hmax : eof = c.self.eof := heof.trans (Nat.max_eq_left hlevels.last_le)
      dsimp only
      rw [hmax]
      exact ⟨hsame, hlevels⟩
  · rw [hself]
    exact hd.books.congr rfl rfl rfl
  · rw [hself]

/-- The critical section of `flush`. -/
theorem Seat.flush {u : Unit} (hs : S.Seat sizes V own done pending R c)
    (hrun : FileActiveStatus.flush S.cfg c = .ok u c') :
    ∃ es' R', S.Desk sizes V own es' R' c' ∧ R'.blockArray = R.blockArray ∧
      c'.self = { c.self with
        fd := c'.self.fd, readEntries := c'.self.readEntries
        blockArray := c'.self.blockArray, eof := c'.self.eof } := by
  obtain ⟨c₀, c₁, hget, hrun⟩ := bind_ok hrun
  cases hget
  obtain ⟨u₁, c₁, hcatch, hrun⟩ := bind_ok hrun
  obtain ⟨hd, hself⟩ := hs.catchUp hcatch
  obtain ⟨c₀, c₂, hget, hrun⟩ := bind_ok hrun
  cases hget
  dsimp only at hrun
  split at hrun
  · cases hlast : c₁.self.blockArray.getLast? with
    | none =>
        rw [hlast] at hrun
        cases hrun
    | some last =>
        rw [hlast] at hrun
        dsimp only at hrun
        split at hrun
        · have hpos : 0 < R.blockArray.length := by
            rw [← hd.sight.shadows.length]
            refine List.length_pos_of_ne_nil fun hnil => ?_
            rw [hnil] at hlast
            cases hlast
          obtain ⟨es', R', hd', hblocks, hself'⟩ := hd.flushEof hpos hrun
          refine ⟨es', R', hd', hblocks, ?_⟩
          rw [hself', hself]
        · cases hrun
          exact ⟨_, R, hd, rfl, hself⟩
  · cases hrun

/-! ## Going beyond the end of file -/

/-- The site of a handle that has just gone beyond the end of file. -/
def beyond (S : Site) (eof : Nat) : Site :=
  { S with handle := { S.handle with eof := eof } }

/-- The size of the last block after the handle went to `eof`. -/
def reach (S : Site) (sizes : Sizes) (n eof : Nat) : Sizes :=
  sizes.put S.fileId (n - 1) (max (sizes S.fileId (n - 1)) (eof - (n - 1) * S.size))

/-- The last block of the file is active, and the handle holds it. -/
structure AtLast (S : Site) (own : Nat → Role) (R : View) (b : Nat) : Prop where
  pos : 0 < R.blockArray.length
  own : ∃ holders, own b = .block S.fileId (R.blockArray.length - 1) holders ∧ S.a ∈ holders

theorem AtLast.lastActive (h : S.AtLast own R b) (hmirrors : Mirrors own S.fileId R.blockArray) :
    R.LastActive ∧ ∃ y, R.blockArray[R.blockArray.length - 1]? = some y ∧ y.bucketId = some b := by
  obtain ⟨holders, hown, hmem⟩ := h.own
  have hne : holders ≠ ∅ := Finset.ne_empty_of_mem hmem
  have hplace : (own b).place = some ⟨S.fileId, R.blockArray.length - 1, .active⟩ := by
    rw [hown]
    simp [Role.place, hne]
  obtain ⟨y, hy, hlocal, hb⟩ := hmirrors.placed _ _ _ hplace
  obtain ⟨b', hb', hplace'⟩ := hmirrors.stored _ y hy hlocal
  obtain rfl : b = b' := Option.some.inj (hb.symm.trans hb')
  rw [hplace] at hplace'
  have hstate : y.state = .active := by
    simpa using (congrArg (Option.map Place.state) hplace').symm
  exact ⟨⟨y, hy, hlocal, hstate⟩, y, hy, hb⟩

theorem reach_le (S : Site) (sizes : Sizes) (n eof : Nat) (f : FileId) (j : Nat) :
    sizes f j ≤ S.reach sizes n eof f j := by
  unfold reach Sizes.put
  split
  · next h =>
      obtain ⟨rfl, rfl⟩ := h
      exact Nat.le_max_left _ _
  · exact Nat.le_refl _

theorem reach_other (S : Site) (sizes : Sizes) (n eof : Nat) {g : FileId} (hg : g ≠ S.fileId) :
    S.reach sizes n eof g = sizes g := by
  funext j
  exact Sizes.put_of_ne _ _ fun h => hg h.1

theorem reach_last (S : Site) (sizes : Sizes) (n eof : Nat) :
    S.reach sizes n eof S.fileId (n - 1) =
      max (sizes S.fileId (n - 1)) (eof - (n - 1) * S.size) :=
  Sizes.put_self _ _ _ _

/-- The last block has room for what the handle has reached. -/
theorem reach_bounded {n eof : Nat} (hsizes : ∀ f i, sizes f i ≤ S.size) (hpos : 0 < n)
    (hend : eof ≤ n * S.size) (f : FileId) (i : Nat) : S.reach sizes n eof f i ≤ S.size := by
  unfold reach Sizes.put
  split
  · obtain ⟨m, rfl⟩ : ∃ m, n = m + 1 := ⟨n - 1, by omega⟩
    rw [Nat.succ_mul] at hend
    rw [Nat.add_sub_cancel]
    have := hsizes S.fileId m
    omega
  · exact hsizes f i

/-- All that was reached counts as data. -/
theorem le_endOf_reach (S : Site) (sizes : Sizes) (n eof : Nat) :
    eof ≤ endOf S.size (S.reach sizes n eof S.fileId) n := by
  rw [endOf, reach_last]
  omega

theorem levels_reach {n eof eof' : Nat} (h : Levels S.size (sizes S.fileId) n eof) (hpos : 0 < n)
    (hmore : eof ≤ eof') (hend : eof' ≤ n * S.size) :
    Levels S.size (S.reach sizes n eof' S.fileId) n eof' := by
  obtain ⟨m, rfl⟩ : ∃ m, n = m + 1 := ⟨n - 1, by omega⟩
  have hlower : m * S.size ≤ eof := h.lower
  refine ⟨fun i => ?_, hend, Nat.le_trans h.lower hmore⟩
  rw [Nat.succ_mul] at hend
  by_cases him : i = m
  · subst him
    rw [show S.reach sizes (i + 1) eof' S.fileId i = _ from reach_last S sizes (i + 1) eof',
      Nat.add_sub_cancel, h.sizes i]
    omega
  · have hother : S.reach sizes (m + 1) eof' S.fileId i = sizes S.fileId i :=
      Sizes.put_of_ne _ _ fun h => him h.2
    rw [hother, h.sizes i]
    rcases Nat.lt_or_gt_of_ne him with hlt | hgt
    · -- a block before the last one is full
      have hle : (i + 1) * S.size ≤ m * S.size := Nat.mul_le_mul_right _ hlt
      rw [Nat.succ_mul] at hle
      omega
    · have hle : (m + 1) * S.size ≤ i * S.size := Nat.mul_le_mul_right _ hgt
      rw [Nat.succ_mul] at hle
      have hupper := h.upper
      rw [Nat.succ_mul] at hupper
      omega

/-- The segment once the last bucket was told. -/
theorem Segment.reach {s s' : SharedMem} {eof : Nat} (hs : S.Segment sizes V own s)
    (hmirrors : Mirrors own S.fileId R.blockArray) (hlast : S.AtLast own R b)
    (hend : eof ≤ R.blockArray.length * S.size)
    (hrun : SharedMemoryContext.updateBucketDataSize S.cfg (some b)
      ((eof : Int) - ((R.blockArray.length - 1) * S.cfg.localBucketSize : Nat)) S.fileId S.a s =
        .ok () s') :
    (S.beyond eof).Segment (S.reach sizes R.blockArray.length eof) V own s' := by
  obtain ⟨holders, hown, -⟩ := hlast.own
  have hplace : ∃ state, (own b).place = some ⟨S.fileId, R.blockArray.length - 1, state⟩ := by
    rw [hown]
    exact ⟨_, rfl⟩
  obtain ⟨state, hplace⟩ := hplace
  obtain ⟨hstaffed, -⟩ := SharedMemoryContext.updateBucketDataSize_staffed hs.staffed hown
    (fun c state' hc hplace' => hc (hmirrors.unique hplace' hplace)) hrun
  have hsize : ((eof : Int) - ((R.blockArray.length - 1) * S.cfg.localBucketSize : Nat)).toNat =
      eof - (R.blockArray.length - 1) * S.size := by
    change _ = eof - (R.blockArray.length - 1) * S.cfg.localBucketSize
    omega
  rw [hsize] at hstaffed
  exact ⟨hstaffed, reach_bounded hs.bounded hlast.pos hend, hs.others, hs.victims⟩

/-- A writer goes beyond the end of file in the last block, and tells its bucket. -/
theorem Seat.reach {u : Unit} {eof : Nat} (hs : S.Seat sizes V own done pending R c)
    (hwriter : S.handle.isWrite = true) (hsole : S.sole) (hlast : S.AtLast own R b)
    (hmore : c.self.eof < eof) (hend : eof ≤ R.blockArray.length * S.size)
    (hrun : FileActiveStatus.updateCurBlockSize S.cfg
      { c with self := { c.self with eof := eof } } = .ok u c') :
    ∃ sizes', (sizes' = sizes ∨ sizes' = S.reach sizes R.blockArray.length eof) ∧
      (S.alone → sizes' = S.reach sizes R.blockArray.length eof) ∧
      (S.beyond eof).Desk sizes' V own (done ++ pending) R c' ∧
      c'.self = { c.self with
        fd := c'.self.fd, readEntries := c'.self.readEntries
        blockArray := c'.self.blockArray, eof := c'.self.eof } := by
  obtain ⟨hactive, y, hy, hyb⟩ := hlast.lastActive hs.atlas.mirrors
  obtain ⟨c₀, c₁, hget, hrun⟩ := bind_ok hrun
  cases hget
  obtain ⟨u₁, c₁, hcatch, hrun⟩ := bind_ok hrun
  obtain ⟨v, hv, rfl⟩ := catchUp_replays (c := { c with self := { c.self with eof := eof } })
    hs.follows.fd ⟨hs.follows.content, rfl⟩ hcatch
  obtain ⟨c₀, c₂, hget, hrun⟩ := bind_ok hrun
  cases hget
  -- what the handle has replayed on top of its own end of file
  obtain ⟨hshadows', hrise, heof⟩ := hs.follows.caughtUpFrom hsole (Nat.le_of_lt hmore) hv
  have hlength : v.blockArray.length = R.blockArray.length := hshadows'.length
  have hwhole : c.self.blockArray.length = R.blockArray.length :=
    hs.follows.whole hsole (hs.steady.isWrite.trans hwriter)
  have hR := hs.atlas.reflects.fits hsole
  have hself := hs.fits hsole
  let c₁ : Ctx := Ctx.caughtUp { c with self := { c.self with eof := eof } }
    ⟨S.file, (logBytes (done ++ pending)).length⟩ pending v
  -- whatever the last bucket was told, the rest is the same
  have hdesk : ∀ {sizes' : Sizes} {s' : SharedMem}, (S.beyond eof).Segment sizes' V own s' →
      (∀ f j, sizes f j ≤ sizes' f j) → (∀ g, g ≠ S.fileId → sizes' g = sizes g) → eof ≤ v.eof →
      v.eof ≤ endOf S.size (sizes' S.fileId) R.blockArray.length →
      (S.alone → v.eof = eof ∧ Levels S.size (sizes' S.fileId) R.blockArray.length v.eof) →
      (S.beyond eof).Desk sizes' V own (done ++ pending) R { c₁ with shm := s' } := by
    intro sizes' s' hsegment hle hother hgone hwithin hlevel
    refine ⟨hsegment, ⟨rfl, hs.follows.content, hs.follows.replayed, ?_⟩, hs.store,
      ⟨?_, ?_, hs.atlas.placed⟩,
          ⟨⟨hs.steady.client, hs.steady.fileId, hs.steady.pid, hs.steady.activeId,
          hs.steady.isWrite, hs.steady.isDelete, hs.steady.loadMutex, hs.steady.pos, hs.steady.pc,
          hs.steady.stream, hs.steady.shouldDestroy⟩, hshadows', fun _ => ⟨?_, hgone⟩, fun _ => ⟨?_,
          ?_, ?_⟩, hlevel⟩, hs.books.congr rfl rfl rfl⟩
    · change S.folder.Grows _ c.folder
      rw [hs.folder]
      exact .refl _ _
    · exact ⟨hs.atlas.mirrors, fun hsole => (hs.atlas.reflects.fits hsole).mono (hle S.fileId),
        fun _ hnot => absurd hactive hnot⟩
    · intro g k hg hk
      have hsame := hs.atlas.elsewhere g k hg hk
      unfold ManifestFolder.Mirrored at hsame ⊢
      rw [hother g hg]
      exact hsame
    · rcases heof with ⟨heq, hbelow, -⟩ | ⟨heq, -⟩
      · exact Or.inr ⟨hwriter, hactive, by change R.eof ≤ v.eof; omega⟩
      · exact Or.inl heq
    · change (v.blockArray.length - 1) * S.size ≤ v.eof
      have hlower : (c.self.blockArray.length - 1) * S.size ≤ c.self.eof := hself.lower
      rw [hwhole] at hlower
      rw [hlength]
      omega
    · change v.eof ≤ v.blockArray.length * S.size
      rw [hlength]
      rcases heof with ⟨heq, -, -⟩ | ⟨heq, -⟩
      · omega
      · exact heq ▸ hR.upper
    · change v.eof ≤ endOf S.size (sizes' S.fileId) v.blockArray.length
      rw [hlength]
      exact hwithin
  dsimp only at hrun
  split at hrun
  · next hsame =>
      have hsame : eof = v.eof := hsame
      obtain ⟨x, c₂, hblock, hrun⟩ := bind_ok hrun
      obtain ⟨rfl, hx⟩ := blockAt_ok hblock
      obtain ⟨a, c₂, hid, hrun⟩ := bind_ok hrun
      obtain ⟨rfl, ha⟩ := myActiveId_ok hid
      obtain ⟨s, hupdate, rfl⟩ := onShm_ok hrun
      have ha : S.a = a := by
        have hactive : c.self.activeId = some S.a := hs.steady.activeId.trans S.activeId
        exact Option.some.inj (hactive.symm.trans ha)
      subst ha
      have hx : v.blockArray[v.blockArray.length - 1]? = some x := hx
      rw [hlength] at hx
      have hb : x.bucketId = some b := (hshadows'.block _ x y hx hy).bucketId.trans hyb
      have hsegment : (S.beyond eof).Segment (S.reach sizes R.blockArray.length eof) V own s := by
        refine hs.segment.reach hs.atlas.mirrors hlast hend ?_
        rw [← hb, ← hlength]
        have hfile : c.self.fileId = S.fileId := hs.steady.fileId
        rw [← hfile]
        have hsize : ((eof : Int) - ((v.blockArray.length - 1) * S.cfg.localBucketSize : Nat)) =
            (v.eof : Int) - ((v.blockArray.length - 1 : Nat) * S.cfg.localBucketSize : Nat) := by
          rw [hsame]
        rw [hsize]
        exact hupdate
      refine ⟨S.reach sizes R.blockArray.length eof, Or.inr rfl, fun _ => rfl,
        hdesk hsegment (S.reach_le sizes _ _) (fun g hg => S.reach_other sizes _ _ hg)
          (Nat.le_of_eq hsame) (hsame ▸ S.le_endOf_reach sizes _ _) fun halone => ?_, rfl⟩
      obtain ⟨-, hlevels⟩ := hs.level halone
      exact ⟨hsame.symm, hsame ▸ levels_reach hlevels hlast.pos (Nat.le_of_lt hmore) hend⟩
  · next hne =>
      split at hrun
      · cases hrun
      · next hnot =>
          -- somebody has published an end of file that lies further
          cases hrun
          have hne : eof ≠ v.eof := hne
          have hnot : ¬ eof > v.eof := hnot
          have hset : v.eof = R.eof ∧ SetsEof (pending.map LogEntry.record) := by
            rcases heof with ⟨heq, -, -⟩ | heq
            · exact absurd heq.symm hne
            · exact heq
          have hsegment : (S.beyond eof).Segment sizes V own c.shm :=
            ⟨hs.segment.staffed, hs.segment.bounded, hs.segment.others, hs.segment.victims⟩
          have hquiet : ¬ S.alone := by
            intro halone
            exact (hs.level halone).1 hset.2
          exact ⟨sizes, Or.inl rfl, fun halone => absurd halone hquiet,
            hdesk hsegment (fun _ _ => Nat.le_refl _) (fun _ _ => rfl) (by omega)
              (hset.1 ▸ hR.within) fun halone => absurd halone hquiet, rfl⟩

end Site

end Gopherwood
