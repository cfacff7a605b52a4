/-
# Moving buckets between the lists

Acquiring, giving back, inactivating and evicting: what each operation does to the
roles, to the lists of the handle and to the logs.
-/

import Gopherwood.Coherence.Desk

namespace Gopherwood

open Library (bind_ok)
open FileActiveStatus

namespace Site

variable {S : Site} {sizes : Sizes} {V : Option Victim} {own own' : Nat → Role} {es : List LogEntry}
variable {R R' : View} {c c' : Ctx} {h h' : FileActiveStatus}

/-- The handle works for its slot. -/
theorem Sight.active {a : Nat} (hh : S.Sight sizes R c.self) (hrun : myActiveId c = .ok a c') :
    c = c' ∧ S.a = a := by
  obtain ⟨hc, ha⟩ := myActiveId_ok hrun
  rw [hh.steady.activeId, S.activeId] at ha
  exact ⟨hc, Option.some.inj ha⟩

/-- The handle's view does not depend on its lists and on its descriptor. -/
theorem Sight.congr (hh : S.Sight sizes R h) (hsteady : h.Steady h')
    (hblocks : h'.blockArray = h.blockArray) (heof : h'.eof = h.eof) : S.Sight sizes R h' where
  steady := hh.steady.trans hsteady
  shadows := by
    rw [hblocks]
    exact hh.shadows
  eof := by
    rw [heof]
    exact hh.eof
  fits hsole := (hh.fits hsole).congr (congrArg List.length hblocks) heof
  level halone := by
    rw [heof]
    exact hh.level halone

theorem Sight.withFd (hh : S.Sight sizes R h) (heq : h' = { h with fd := h'.fd }) :
    S.Sight sizes R h' := by
  rw [heq]
  exact hh.congr ⟨rfl, rfl, rfl, rfl, rfl, rfl, rfl, rfl, rfl, rfl, rfl⟩ rfl rfl

/-- A record is logged that changes no view. -/
theorem Desk.note {type : RecordType} {eof : Nat} {blocks : List Block} {u : Unit}
    (hd : S.Desk sizes V own es R c) (hrun : logRecord type eof blocks c = .ok u c')
    (hsettles : Settles (S.licence sizes S.file) R
      [⟨type, eof, blocks.map fun b => { b with usageCount := 0 }⟩] R) :
    ∃ es', S.Desk sizes V own es' R c' ∧ c'.self = { c.self with fd := c'.self.fd } := by
  obtain ⟨e, hw⟩ := hd.log.wrote hrun
  refine ⟨es ++ [e], ⟨?_, hd.log.write hw hsettles, hw.store.trans hd.store, ?_,
    hd.sight.withFd hw.self, ?_⟩, hw.self⟩
  · rw [hw.shm]
    exact hd.segment
  · exact hd.atlas.of_works hd.log.grown.links (fun b => .refl _ _ _) hd.atlas.reflects hw.links
      hw.other
  · apply hd.books.congr
    · rw [hw.self]
    · rw [hw.self]
    · rw [hw.self]

/-- Free buckets enter the preallocated list. -/
theorem Desk.acquireFree {num : Nat} {blocks : List Block} (hd : S.Desk sizes V own es R c)
    (hrun : FileActiveStatus.acquireFree num c = .ok blocks c') :
    ∃ own', S.Desk sizes V own' es R c' ∧ SameSpots own own' ∧ c'.self = { c.self with
      preAllocatedBuckets := c.self.preAllocatedBuckets ++ blocks } := by
  obtain ⟨c₀, c₁, hget, hrun⟩ := bind_ok hrun
  cases hget
  obtain ⟨a, c₁, ha, hrun⟩ := bind_ok hrun
  obtain ⟨rfl, rfl⟩ := hd.sight.active ha
  obtain ⟨ids, c₂, hids, hrun⟩ := bind_ok hrun
  obtain ⟨s, hs, rfl⟩ := onShm_ok hids
  cases hrun
  obtain ⟨hnodup, hfree, hstaffed⟩ :=
    SharedMemoryContext.acquireFreeBucket_staffed hd.segment.staffed hs
  rw [hd.sight.steady.fileId] at hstaffed
  let own' := Role.assign own ids (.spare S.a S.fileId)
  have hworks : ∀ b, (own b).Works S.a S.fileId (own' b) := by
    apply Role.Works.assign
    intro b hb
    rw [hfree b hb]
    exact .free_spare
  have hplace : ∀ b, (own' b).place = (own b).place := by
    intro b
    by_cases hb : b ∈ ids
    · simp only [own', Role.assign_of_mem hb, hfree b hb]
      rfl
    · simp only [own', Role.assign_of_notMem hb]
  have hhold : ∀ b, (own' b).holdOf S.a =
      if b ∈ ids then some (.spare S.fileId) else (own b).holdOf S.a := by
    intro b
    by_cases hb : b ∈ ids
    · simp [own', Role.assign_of_mem hb, hb, Role.holdOf]
    · simp [own', Role.assign_of_notMem hb, hb]
  refine ⟨own', ⟨?_, hd.log, hd.store, ?_, ?_, ?_⟩, .of_place hplace, rfl⟩
  · exact hd.segment.of_works hstaffed hworks
  · refine hd.atlas.of_works hd.log.grown.links hworks ?_ rfl fun _ _ => rfl
    exact hd.atlas.reflects.congr fun b i state => by rw [hplace b]
  · exact hd.sight.congr ⟨rfl, rfl, rfl, rfl, rfl, rfl, rfl, rfl, rfl, rfl, rfl⟩ rfl rfl
  · obtain ⟨⟨spares, hspares⟩, ⟨loads, hloads⟩, hcaches, hfiles⟩ := hd.books
    refine ⟨⟨spares ++ ids, ?_⟩, ⟨loads, hloads.congr fun b i => ?_⟩,
      hcaches.congr fun b i => ?_, ?_⟩
    · refine hspares.append hnodup (fun b hb => ?_) hhold
      rw [hfree b hb]
      rfl
    · rw [hhold b]
      by_cases hb : b ∈ ids
      · simp [hb, hfree b hb, Role.holdOf]
      · simp [hb]
    · rw [hhold b]
      by_cases hb : b ∈ ids
      · simp [hb, hfree b hb, Role.holdOf]
      · simp [hb]
    · intro b x hx
      rw [hhold b] at hx
      by_cases hb : b ∈ ids
      · rw [if_pos hb] at hx
        cases hx
        rfl
      · rw [if_neg hb] at hx
        exact hfiles b x hx

/-! ## Inactivating blocks -/

end Site

/-- The handle `a` gives up the block in a bucket. -/
def Role.leave (a : Nat) : Role → Role
  | .block f i holders => .block f i (holders.erase a)
  | r => r

theorem Role.place_leave {r : Role} {f : FileId} {i : Nat} {state : BucketType} (a : Nat)
    (h : r.place = some ⟨f, i, state⟩) : ∃ state', (r.leave a).place = some ⟨f, i, state'⟩ := by
  cases r with
  | block g j holders =>
      cases h
      exact ⟨_, rfl⟩
  | victim g j e => exact ⟨state, h⟩
  | _ => cases h

theorem Role.spot_leave (a : Nat) (r : Role) : (r.leave a).spot = r.spot := by
  cases r with
  | block g j holders => rfl
  | _ => rfl

/-- The buckets of the listed blocks hold blocks of the file, each another one. -/
structure Shelved (own : Nat → Role) (f : FileId) (blocks : List Block) : Prop where
  shelf : ∀ y ∈ blocks, ∃ b i holders, y.bucketId = some b ∧ y.blockId = some i ∧
    own b = .block f i holders
  nodup : (blocks.map Block.bucketId).Nodup

/-- The blocks that turned used, in a replayed array. -/
structure Turned (own' : Nat → Role) (f : FileId) (turned ys ys' : List Block) : Prop where
  states : (turned.map Block.blockId).foldlM (setBlockState .used) ys = .ok ys'
  mirrors : Mirrors own' f ys'
  used : ∀ t ∈ turned, t.state = .used

/-- The handle's marks go, and the blocks that nobody else has active turn used. -/
theorem SharedMemoryContext.inactivateBuckets_staffed {sizes : Sizes} {f : FileId} {a : Nat}
    {blocks : List Block} :
    ∀ {s s' : SharedMem} {own : Nat → Role} {ys turned : List Block}, s.Staffed sizes own →
      Mirrors own f ys → Shelved own f blocks → inactivateBuckets f a blocks s = .ok turned s' →
      ∃ own' ys', s'.Staffed sizes own' ∧ Turned own' f turned ys ys' ∧
        ∀ b, own' b = if some b ∈ blocks.map Block.bucketId then (own b).leave a else own b := by
  induction blocks with
  | nil =>
      intro s s' own ys turned hs hm _ hrun
      cases hrun
      exact ⟨own, ys, hs, ⟨rfl, hm, by simp⟩, fun b => by simp⟩
  | cons block rest ih =>
      intro s s' own ys turned hs hm hshelf hrun
      obtain ⟨wasLast, s₁, hone, hrun⟩ := bind_ok hrun
      obtain ⟨others, s₂, hrest, hrun⟩ := bind_ok hrun
      cases hrun
      obtain ⟨b, i, holders, hb, hi, hown⟩ := hshelf.shelf block List.mem_cons_self
      obtain ⟨hnot, hnodup⟩ := List.nodup_cons.mp hshelf.nodup
      obtain ⟨hlast, -, hs₁⟩ := inactivateOne_staffed hs hown hb hi hone
      let own₁ := Function.update own b (.block f i (holders.erase a))
      have hne : ∀ y ∈ rest, ∀ c, y.bucketId = some c → c ≠ b := by
        rintro y hy c hc rfl
        exact hnot (hb ▸ hc ▸ List.mem_map_of_mem hy)
      have hshelf₁ : Shelved own₁ f rest := by
        refine ⟨fun y hy => ?_, hnodup⟩
        obtain ⟨c, j, hs, hc, hj, hown'⟩ := hshelf.shelf y (List.mem_cons_of_mem _ hy)
        exact ⟨c, j, hs, hc, hj, by rw [← hown']; exact Function.update_of_ne (hne y hy c hc) _ _⟩
      -- the log tells of this block only if it turned used
      obtain ⟨ys₁, hm₁, hstate⟩ : ∃ ys₁, Mirrors own₁ f ys₁ ∧
          (if wasLast then setBlockState .used ys (some i) else .ok ys) = .ok ys₁ := by
        cases hwas : wasLast with
        | true =>
            have hempty : holders.erase a = ∅ := by simpa [hwas] using hlast
            refine ⟨ys.modify i fun y => { y with state := .used }, ?_, ?_⟩
            · exact hm.modify (by rw [hown]; rfl) (by simp [Role.place, hempty])
            · obtain ⟨y, hy, -⟩ := hm.placed b i _ (by rw [hown]; rfl)
              simp [setBlockState, (List.getElem?_eq_some_iff.mp hy).1]
        | false =>
            have hleft : holders.erase a ≠ ∅ := by simpa [hwas] using hlast
            have hholders : holders ≠ ∅ := by
              rintro rfl
              exact hleft rfl
            refine ⟨ys, hm.retouch ?_, rfl⟩
            rw [hown]
            simp [Role.place, hleft, hholders]
      obtain ⟨own', ys', hs', hturned, hown'⟩ := ih hs₁ hm₁ hshelf₁ hrest
      refine ⟨own', ys', hs', ⟨?_, hturned.mirrors, ?_⟩, fun c => ?_⟩
      · cases hwas : wasLast with
        | true =>
            rw [hwas, if_pos rfl] at hstate
            rw [if_pos rfl, List.map_cons, List.foldlM_cons]
            change (setBlockState .used ys block.blockId).bind _ = _
            rw [hi, hstate]
            exact hturned.states
        | false =>
            rw [hwas, if_neg (by simp)] at hstate
            cases hstate
            exact hturned.states
      · intro t ht
        cases hwas : wasLast with
        | true =>
            rw [hwas, if_pos rfl] at ht
            rcases List.mem_cons.mp ht with rfl | ht
            · rfl
            · exact hturned.used t ht
        | false =>
            rw [hwas, if_neg (by simp)] at ht
            exact hturned.used t ht
      · rw [hown' c]
        have hmem : some c ∈ (block :: rest).map Block.bucketId ↔
            c = b ∨ some c ∈ rest.map Block.bucketId := by
          rw [List.map_cons, List.mem_cons, hb, Option.some.injEq]
        by_cases hcb : c = b
        · subst hcb
          rw [if_neg (hb ▸ hnot), if_pos (hmem.mpr (Or.inl rfl)), hown]
          exact Function.update_self _ _ _
        · have hown₁ : Function.update own b (.block f i (holders.erase a)) c = own c :=
            Function.update_of_ne hcb _ _
          rw [hown₁]
          by_cases hc : some c ∈ rest.map Block.bucketId
          · rw [if_pos hc, if_pos (hmem.mpr (Or.inr hc))]
          · rw [if_neg hc, if_neg (mt hmem.mp (by simp [hcb, hc]))]

theorem SharedMemoryContext.getBucketDataSize_ok {cfg : Config} {bucketId : Option Nat} {f : FileId}
    {i n : Nat} {s s' : SharedMem} (hrun : getBucketDataSize cfg bucketId f i s = .ok n s') :
    s = s' ∧ ∃ b x, bucketId = some b ∧ s.buckets[b]? = some x ∧ x.fileId = f ∧
      x.fileBlockIndex = some i ∧ n = x.dataSize := by
  cases bucketId with
  | none => cases hrun
  | some b =>
      unfold getBucketDataSize at hrun
      dsimp only at hrun
      split at hrun
      · cases hrun
      · obtain ⟨x, s₁, hx, hrun⟩ := bind_ok hrun
        cases hb : s.buckets[b]? with
        | none =>
            rw [run_bucketAt_none hb] at hx
            cases hx
        | some y =>
            rw [run_bucketAt_some hb] at hx
            cases hx
            split at hrun
            · cases hrun
            · next hmatch =>
                cases hrun
                rw [not_or, not_not, not_not] at hmatch
                exact ⟨rfl, b, _, rfl, hb, hmatch.1, hmatch.2, rfl⟩

/-- The handle takes the end of file from the last bucket, if that lies further. -/
theorem FileActiveStatus.getSharedMemEof_ok {cfg : Config} {c c' : Ctx} {u : Unit}
    (hrun : getSharedMemEof cfg c = .ok u c') :
    ∃ y b x, c.self.blockArray[c.self.blockArray.length - 1]? = some y ∧ y.bucketId = some b ∧
      c.shm.buckets[b]? = some x ∧ c' = { c with self := { c.self with
        eof := max c.self.eof ((c.self.blockArray.length - 1) * cfg.localBucketSize + x.dataSize) }
          } := by
  obtain ⟨c₀, c₁, hget, hrun⟩ := bind_ok hrun
  cases hget
  obtain ⟨y, c₁, hlast, hrun⟩ := bind_ok hrun
  obtain ⟨rfl, hy⟩ := blockAt_ok hlast
  obtain ⟨n, c₂, hsize, hrun⟩ := bind_ok hrun
  obtain ⟨s, hn, rfl⟩ := onShm_ok hsize
  obtain ⟨rfl, b, x, hb, hx, -, -, rfl⟩ := SharedMemoryContext.getBucketDataSize_ok hn
  refine ⟨y, b, x, hy, hb, hx, ?_⟩
  dsimp only at hrun
  split at hrun
  · next hgt =>
      rw [modifySelf_ok hrun, Nat.max_eq_right (Nat.le_of_lt hgt)]
  · next hle =>
      cases hrun
      rw [Nat.max_eq_left (Nat.le_of_not_lt hle)]

namespace Site

variable {S : Site} {sizes : Sizes} {V : Option Victim} {own own' : Nat → Role} {es : List LogEntry}
variable {R R' : View} {c c' : Ctx} {h h' : FileActiveStatus}

/-- The bucket of the handle's last block has the data of that block. -/
def Tells (S : Site) (sizes : Sizes) (c : Ctx) : Prop :=
  ∀ y b x, c.self.blockArray[c.self.blockArray.length - 1]? = some y → y.bucketId = some b →
    c.shm.buckets[b]? = some x → x.dataSize = sizes S.fileId (c.self.blockArray.length - 1)

/-- The log and the handle agree on the end of file, once it was published. -/
theorem Log.flushEof {u : Unit} (hlog : S.Log sizes es R c.folder c.self.fd)
    (htells : S.Tells sizes c) (hlength : c.self.blockArray.length = R.blockArray.length)
    (hknown : S.sole → R.eof ≤ c.self.eof) (hrun : FileActiveStatus.flushEof S.cfg c = .ok u c') :
    ∃ e eof, S.Wrote ⟨.updateEof, eof, []⟩ es { c with self := { c.self with eof := eof } } c' e ∧
      S.Log sizes (es ++ [e]) { R with eof := eof } c'.folder c'.self.fd ∧
      eof = max c.self.eof (endOf S.size (sizes S.fileId) R.blockArray.length) := by
  obtain ⟨u₁, c₁, hshared, hrun⟩ := bind_ok hrun
  obtain ⟨y, b, x, hy, hb, hx, rfl⟩ := getSharedMemEof_ok hshared
  obtain ⟨c₂, c₃, hget, hrun⟩ := bind_ok hrun
  cases hget
  rw [htells y b x hy hb hx, hlength] at hrun
  let eof := max c.self.eof (endOf S.size (sizes S.fileId) R.blockArray.length)
  obtain ⟨e, hw⟩ := Log.wrote (c := { c with self := { c.self with eof := eof } }) hlog hrun
  have hallows : (S.licence sizes S.file).Allows R { R with eof := eof } :=
    ⟨rfl, fun hsole => Nat.le_trans (hknown hsole) (Nat.le_max_left _ _),
      fun _ => Or.inr ⟨rfl, Nat.le_max_right _ _⟩⟩
  exact ⟨e, eof, hw, Log.write (c := { c with self := { c.self with eof := eof } }) hlog hw
    (.updateEof [] hallows), rfl⟩

/-- The handle noted that blocks turned used, and published the end of file if the
last one is among them. -/
structure Noted (S : Site) (sizes : Sizes) (turned : List Block) (es : List LogEntry) (R : View)
    (zs' : List Block) (c c' : Ctx) (new : List LogEntry) (eof : Nat) : Prop where
  log : S.Log sizes (es ++ new) { R with eof := eof } c'.folder c'.self.fd
  sets : SetsEof (new.map LogEntry.record) ↔ some (R.blockArray.length - 1) ∈
    turned.map Block.blockId
  shm : c'.shm = c.shm
  store : c'.oss = c.oss
  self : c'.self = { c.self with
    blockArray := c'.self.blockArray, eof := c'.self.eof, fd := c'.self.fd }
  shadows : Shadows S.lags c'.self.blockArray zs'
  places : SamePlaces c.self.blockArray c'.self.blockArray
  rise : c.self.eof ≤ c'.self.eof
  level : endOf S.size (sizes S.fileId) R.blockArray.length ≤ c.self.eof → c'.self.eof = c.self.eof
  last : some (R.blockArray.length - 1) ∈ turned.map Block.blockId →
    c'.self.eof = eof ∧ eof = max c.self.eof (endOf S.size (sizes S.fileId) R.blockArray.length)
  others : some (R.blockArray.length - 1) ∉ turned.map Block.blockId →
    c'.self.eof = c.self.eof ∧ eof = R.eof
  links : c'.folder.links = c.folder.links
  files : c'.folder.files.length = c.folder.files.length
  content : ∀ k, k ≠ S.file → c'.folder.content k = c.folder.content k

/-- Only the places of the blocks matter. -/
theorem Tells.congr (h : S.Tells sizes c)
    (hplaces : SamePlaces c.self.blockArray c'.self.blockArray) (hshm : c'.shm = c.shm) :
    S.Tells sizes c' := by
  intro y b x hy hb hx
  rw [← hplaces.length] at hy ⊢
  rw [hshm] at hx
  obtain ⟨z, hz, hsame⟩ := SamePlaces.block hplaces.symm hy
  refine h z b x hz ?_ hx
  exact (congrArg Prod.fst hsame).trans hb

theorem Log.updateInactivated {turned : List Block} :
    ∀ {c c' : Ctx} {es : List LogEntry} {R : View} {zs zs' : List Block} {u : Unit},
      S.Log sizes es R c.folder c.self.fd → S.Tells sizes c →
      c.self.blockArray.length = R.blockArray.length → (S.sole → R.eof ≤ c.self.eof) →
      Shadows S.lags c.self.blockArray zs →
      (turned.map Block.blockId).foldlM (setBlockState .used) zs = .ok zs' →
      (∀ t ∈ turned, t.state = .used) →
      FileActiveStatus.updateInactivated S.cfg turned c = .ok u c' →
      ∃ new eof, S.Noted sizes turned es R zs' c c' new eof := by
  induction turned with
  | nil =>
      intro c c' es R zs zs' u hlog _ _ _ hshadows hstates _ hrun
      cases hrun
      cases hstates
      refine ⟨[], R.eof, ⟨?_, by simp [not_setsEof_nil], rfl, rfl, rfl, hshadows, .refl _,
        Nat.le_refl _, fun _ => rfl, by simp, by simp, rfl, rfl, fun _ _ => rfl⟩⟩
      rw [List.append_nil]
      exact hlog
  | cons t rest ih =>
      intro c c' es R zs zs' u hlog htells hlength hknown hshadows hstates hused hrun
      have ht : t.state = .used := hused t List.mem_cons_self
      have hrest := fun x hx => hused x (List.mem_cons_of_mem _ hx)
      rw [List.map_cons, List.foldlM_cons] at hstates
      simp only [FileActiveStatus.updateInactivated] at hrun
      cases hi : t.blockId with
      | none =>
          rw [hi] at hrun
          cases hrun
      | some i =>
          rw [hi] at hrun hstates
          obtain ⟨y, c₁, hblock, hrun⟩ := bind_ok hrun
          obtain ⟨rfl, hy⟩ := blockAt_ok hblock
          obtain ⟨u₁, c₂, hmodify, hrun⟩ := bind_ok hrun
          cases hmodify
          have hilt : i < zs.length := hshadows.length ▸ (List.getElem?_eq_some_iff.mp hy).1
          simp only [setBlockState, if_pos hilt, ht] at hstates hrun
          -- the handle after its array was updated
          let c₁ : Ctx := { c with self := { c.self with
            blockArray := c.self.blockArray.modify i fun old => { old with state := .used } } }
          have hshadows₁ : Shadows S.lags c₁.self.blockArray
              (zs.modify i fun y => { y with state := .used }) :=
            hshadows.modify i fun x y hxy => ⟨hxy.bucketId, hxy.blockId, hxy.isLocal, Or.inl rfl⟩
          have hplaces₁ : SamePlaces c.self.blockArray c₁.self.blockArray := .setState _ _ _
          have htells₁ : S.Tells sizes c₁ := htells.congr hplaces₁ rfl
          have hlength₁ : c₁.self.blockArray.length = R.blockArray.length :=
            hplaces₁.length.symm.trans hlength
          have hmem : some (R.blockArray.length - 1) ∈ (t :: rest).map Block.blockId ↔
              i + 1 = c₁.self.blockArray.length ∨
                some (R.blockArray.length - 1) ∈ rest.map Block.blockId := by
            rw [List.map_cons, List.mem_cons, hi, Option.some.injEq, hlength₁]
            have hlt : i < R.blockArray.length := hlength ▸ (List.getElem?_eq_some_iff.mp hy).1
            refine or_congr ⟨fun h => ?_, fun h => ?_⟩ Iff.rfl
            · omega
            · omega
          obtain ⟨c₂, c₃, hget, hrun⟩ := bind_ok hrun
          cases hget
          split at hrun
          · next hlast =>
              obtain ⟨u₂, c₂, hflush, hrun⟩ := bind_ok hrun
              obtain ⟨e, eof₁, hw, hlog₁, hmax⟩ :=
                Log.flushEof (c := c₁) hlog htells₁ hlength₁ hknown hflush
              have hblocks : c₂.self.blockArray = c₁.self.blockArray := by rw [hw.self]
              have heof : c₂.self.eof = eof₁ := by rw [hw.self]
              have hplaces₂ : SamePlaces c.self.blockArray c₂.self.blockArray := hblocks ▸ hplaces₁
              obtain ⟨new, eof, hnoted⟩ :=
                ih hlog₁ (htells.congr hplaces₂ hw.shm) (hblocks ▸ hlength₁)
                (fun _ => Nat.le_of_eq heof.symm) (hblocks ▸ hshadows₁) hstates hrest hrun
              have hlog' := hnoted.log
              rw [List.append_assoc] at hlog'
              have hrise : c.self.eof ≤ eof₁ := hmax ▸ Nat.le_max_left _ _
              -- what is published later is the same
              have hfinal : c'.self.eof = eof₁ ∧ eof = eof₁ := by
                have hfull : endOf S.size (sizes S.fileId) R.blockArray.length ≤ c₂.self.eof := by
                  rw [heof, hmax]
                  exact Nat.le_max_right _ _
                have hself := (hnoted.level hfull).trans heof
                by_cases hmore : some (R.blockArray.length - 1) ∈ rest.map Block.blockId
                · exact ⟨hself, (hnoted.last hmore).1.symm.trans hself⟩
                · exact ⟨hself, (hnoted.others hmore).2⟩
              refine ⟨[e] ++ new, eof, hlog', ?_, hnoted.shm.trans hw.shm,
                hnoted.store.trans hw.store, ?_, hnoted.shadows, hplaces₂.trans hnoted.places,
                hfinal.1 ▸ hrise, fun hlevel => ?_, fun _ => ?_, fun hnot => ?_,
                hnoted.links.trans hw.links,
                hnoted.files.trans hw.files, fun k hk =>
                (hnoted.content k hk).trans (hw.other k hk)⟩
              · refine iff_of_true ?_ (hmem.mpr (Or.inl hlast))
                rw [List.map_append, List.map_singleton, hw.record]
                exact SetsEof.append_left (setsEof_singleton.mpr rfl) _
              · rw [hnoted.self, hw.self]
              · rw [hfinal.1, hmax]
                exact Nat.max_eq_left hlevel
              · rw [hfinal.1, hfinal.2]
                exact ⟨rfl, hmax⟩
              · exact absurd (hmem.mpr (Or.inl hlast)) hnot
          · next hlast =>
              obtain ⟨new, eof, hnoted⟩ :=
                ih (c := c₁) hlog htells₁ hlength₁ hknown hshadows₁ hstates
                hrest hrun
              have hin : some (R.blockArray.length - 1) ∈ (t :: rest).map Block.blockId ↔
                  some (R.blockArray.length - 1) ∈ rest.map Block.blockId :=
                hmem.trans (or_iff_right hlast)
              refine ⟨new, eof, hnoted.log, hnoted.sets.trans hin.symm, hnoted.shm,
                hnoted.store, ?_, hnoted.shadows, hplaces₁.trans hnoted.places, hnoted.rise,
                hnoted.level, fun h => hnoted.last (hin.mp h), fun h =>
                hnoted.others (mt hin.mpr h), hnoted.links, hnoted.files, hnoted.content⟩
              rw [hnoted.self]

/-- The blocks that the handle gave up turned used where nobody else has them active;
the log tells so, and the end of file is published before its block turns used. -/
structure GaveUp (S : Site) (sizes : Sizes) (V : Option Victim) (own : Nat → Role) (R : View)
    (blocks : List Block) (c c' : Ctx) (own' : Nat → Role) (es' : List LogEntry) (R' : View) :
    Prop where
  segment : S.Segment sizes V own' c'.shm
  log : S.Log sizes es' R' c'.folder c'.self.fd
  store : c'.oss = c.oss
  atlas : S.Atlas sizes own' R' c'.folder
  sight : S.Sight sizes R' c'.self
  own : ∀ b, own' b = if some b ∈ blocks.map Block.bucketId then (own b).leave S.a else own b
  self : c'.self = { c.self with
    blockArray := c'.self.blockArray, eof := c'.self.eof, fd := c'.self.fd }
  places : SamePlaces c.self.blockArray c'.self.blockArray
  length : R'.blockArray.length = R.blockArray.length

/-- The bucket of the last block stores it, whoever gives it up. -/
theorem tells_of_staffed (hstaffed : c.shm.Staffed sizes own')
    (hshadows : Shadows S.lags c.self.blockArray R.blockArray)
    (hmirrors : Mirrors own S.fileId R.blockArray)
    (hown : ∀ b i state, (own b).place = some ⟨S.fileId, i, state⟩ →
      ∃ state', (own' b).place = some ⟨S.fileId, i, state'⟩) : S.Tells sizes c := by
  intro y b x hy hb hx
  obtain ⟨z, hz, hyz⟩ := hshadows.replayed hy
  have hzb : z.bucketId = some b := hyz.bucketId.symm.trans hb
  have hlocal : z.isLocal = true := by
    cases hlocal : z.isLocal with
    | true => rfl
    | false =>
        rw [(hmirrors.remote _ z hz hlocal).1] at hzb
        cases hzb
  obtain ⟨b', hb', hplace⟩ := hmirrors.stored _ z hz hlocal
  obtain rfl : b = b' := Option.some.inj (hzb.symm.trans hb')
  obtain ⟨state, hplace'⟩ := hown b _ _ hplace
  have hsize := (hstaffed.plays b x hx).size
  rw [hsize]
  exact Role.dataSize_of_place hplace'

/-- The last block stays active while others turn used. -/
theorem lastActive_of_states {turned ys : List Block} {eof : Nat}
    (hstates : (turned.map Block.blockId).foldlM (setBlockState .used) R.blockArray = .ok ys)
    (hnot : some (R.blockArray.length - 1) ∉ turned.map Block.blockId) (hactive : R.LastActive) :
    View.LastActive ⟨ys, eof⟩ := by
  obtain ⟨y, hy, hlocal, hstate⟩ := hactive
  refine ⟨y, ?_, hlocal, hstate⟩
  dsimp only
  rw [setBlockStates_length hstates, setBlockStates_other hstates hnot]
  exact hy

namespace Noted

variable {turned ys : List Block} {new : List LogEntry} {eof : Nat}

/-- The end of file that is published is the end of the last block. -/
theorem eof_eq (hn : S.Noted sizes turned es R ys c c' new eof) (hsight : S.Sight sizes R c.self)
    (hin : some (R.blockArray.length - 1) ∈ turned.map Block.blockId) (hsole : S.sole) :
    eof = endOf S.size (sizes S.fileId) R.blockArray.length := by
  rw [(hn.last hin).2, Nat.max_eq_right]
  exact hsight.shadows.length ▸ (hsight.fits hsole).within

theorem fits (hn : S.Noted sizes turned es R ys c c' new eof) (hsight : S.Sight sizes R c.self)
    (hstates : (turned.map Block.blockId).foldlM (setBlockState .used) R.blockArray = .ok ys)
    (hbounded : ∀ f i, sizes f i ≤ S.size) (hfits : S.sole → R.Fits S.size (sizes S.fileId))
    (hsole : S.sole) : View.Fits S.size (sizes S.fileId) ⟨ys, eof⟩ := by
  have hlength : ys.length = R.blockArray.length := setBlockStates_length hstates
  by_cases hin : some (R.blockArray.length - 1) ∈ turned.map Block.blockId
  · have hpos : 0 < R.blockArray.length := by
      obtain ⟨y, hy⟩ := setBlockStates_mem hstates hin
      exact Nat.lt_of_le_of_lt (Nat.zero_le _) (List.getElem?_eq_some_iff.mp hy).1
    exact (View.Fits.full (hbounded S.fileId) hpos).congr hlength (hn.eof_eq hsight hin hsole)
  · exact (hfits hsole).congr hlength (hn.others hin).2

/-- The log tells where the blocks are, and where the file ends. -/
theorem reflects (hn : S.Noted sizes turned es R ys c c' new eof) (hsight : S.Sight sizes R c.self)
    (hturned : Turned own' S.fileId turned R.blockArray ys) (hbounded : ∀ f i, sizes f i ≤ S.size)
    (hreflects : Reflects S.sole S.size (sizes S.fileId) own S.fileId R) :
    Reflects S.sole S.size (sizes S.fileId) own' S.fileId ⟨ys, eof⟩ := by
  refine ⟨hturned.mirrors, hn.fits hsight hturned.states hbounded hreflects.fits,
    fun hsole hnot => ?_⟩
  change eof = endOf S.size (sizes S.fileId) ys.length
  rw [setBlockStates_length hturned.states]
  by_cases hin : some (R.blockArray.length - 1) ∈ turned.map Block.blockId
  · exact hn.eof_eq hsight hin hsole
  · rw [(hn.others hin).2]
    exact hreflects.settled hsole (mt (lastActive_of_states hturned.states hin) hnot)

/-- What the handle knows agrees with the log afterwards. -/
theorem sight (hn : S.Noted sizes turned es R ys c c' new eof) (hsight : S.Sight sizes R c.self)
    (hstates : (turned.map Block.blockId).foldlM (setBlockState .used) R.blockArray = .ok ys)
    (hfits : S.sole → View.Fits S.size (sizes S.fileId) ⟨ys, eof⟩) :
    S.Sight sizes ⟨ys, eof⟩ c'.self := by
  have hlength : ys.length = R.blockArray.length := setBlockStates_length hstates
  have hlength' : c'.self.blockArray.length = ys.length := hn.shadows.length
  refine ⟨hsight.steady.trans ?_, hn.shadows, fun hsole => ⟨?_, ?_⟩, fun hsole => ?_,
    fun halone => ?_⟩
  · rw [hn.self]
    exact ⟨rfl, rfl, rfl, rfl, rfl, rfl, rfl, rfl, rfl, rfl, rfl⟩
  · by_cases hin : some (R.blockArray.length - 1) ∈ turned.map Block.blockId
    · exact Or.inl (hn.last hin).1
    · obtain ⟨hself, heof⟩ := hn.others hin
      refine (hsight.eof hsole).1.imp (fun h => ?_) fun h => ?_
      · rw [hself, heof]
        exact h
      · rw [hself, heof]
        exact ⟨h.1, lastActive_of_states hstates hin h.2.1, h.2.2⟩
  · exact Nat.le_trans (hsight.eof hsole).2 hn.rise
  · by_cases hin : some (R.blockArray.length - 1) ∈ turned.map Block.blockId
    · exact (hfits hsole).congr hlength' (hn.last hin).1
    · exact (hsight.fits hsole).congr (hlength'.trans (hlength.trans hsight.shadows.length.symm))
        (hn.others hin).1
  · obtain ⟨hsame, hlevels⟩ := hsight.level halone
    have hkeeps : c'.self.eof = c.self.eof := hn.level hlevels.last_le
    rw [hkeeps, hlength]
    exact ⟨hsame, hlevels⟩

end Noted

theorem giveUp {blocks turned : List Block} {c₁ c₂ : Ctx} {u u' : Unit}
    (hsegment : S.Segment sizes V own c.shm) (hlog : S.Log sizes es R c.folder c.self.fd)
    (hatlas : S.Atlas sizes own R c.folder) (hsight : S.Sight sizes R c.self)
    (hshelf : Shelved own S.fileId blocks)
    (hinactivate : onShm (SharedMemoryContext.inactivateBuckets S.fileId S.a blocks) c =
      .ok turned c₁) (hupdate : FileActiveStatus.updateInactivated S.cfg turned c₁ = .ok u c₂)
    (hwrite : logInactivateBucket turned c₂ = .ok u' c' ∨ turned = [] ∧ c' = c₂) :
    ∃ own' es' R', S.GaveUp sizes V own R blocks c c' own' es' R' := by
  obtain ⟨s, hrun, rfl⟩ := onShm_ok hinactivate
  obtain ⟨own', ys, hstaffed, hturned, hown'⟩ := SharedMemoryContext.inactivateBuckets_staffed
    hsegment.staffed hatlas.mirrors hshelf hrun
  have hworks : ∀ b, (own b).Works S.a S.fileId (own' b) := by
    intro b
    rw [hown' b]
    by_cases hb : some b ∈ blocks.map Block.bucketId
    · rw [if_pos hb]
      obtain ⟨y, hy, hyb⟩ := List.mem_map.mp hb
      obtain ⟨b', i, holders, hb', -, hown⟩ := hshelf.shelf y hy
      obtain rfl : b = b' := Option.some.inj (hyb.symm.trans hb')
      rw [hown]
      exact .erase
    · rw [if_neg hb]
      exact .refl _ _ _
  have htells : S.Tells sizes { c with shm := s } := by
    refine tells_of_staffed (c := { c with shm := s }) hstaffed hsight.shadows hatlas.mirrors
      fun b i state hplace => ?_
    rw [hown' b]
    split
    · exact Role.place_leave S.a hplace
    · exact ⟨state, hplace⟩
  have hknown : S.sole → R.eof ≤ c.self.eof := by
    intro hsole
    rcases (hsight.eof hsole).1 with hsame | ⟨-, -, hle⟩
    · exact Nat.le_of_eq hsame.symm
    · exact hle
  obtain ⟨new, eof, hnoted⟩ := Log.updateInactivated (c := { c with shm := s }) hlog htells
    hsight.shadows.length hknown hsight.shadows hturned.states hturned.used hupdate
  have hlength : ys.length = R.blockArray.length := setBlockStates_length hturned.states
  have hlast : some (R.blockArray.length - 1) ∉ turned.map Block.blockId → R.LastActive →
      View.LastActive ⟨ys, eof⟩ := lastActive_of_states hturned.states
  have hreplay : replay R (new.map LogEntry.record) = .ok { R with eof := eof } := by
    have h := hnoted.log.replayed
    rw [List.map_append, replay_append, hlog.replayed] at h
    exact h
  have hallows : some (R.blockArray.length - 1) ∈ turned.map Block.blockId →
      (S.licence sizes S.file).Allows R ⟨ys, eof⟩ := by
    intro hin
    have hmax := (hnoted.last hin).2
    refine ⟨rfl, fun hsole => ?_, fun _ => Or.inr ⟨hlength, ?_⟩⟩
    · rw [hmax]
      exact Nat.le_trans (hknown hsole) (Nat.le_max_left _ _)
    · change endOf S.size (sizes S.fileId) ys.length ≤ eof
      rw [hmax, hlength]
      exact Nat.le_max_right _ _
  have hreflects : Reflects S.sole S.size (sizes S.fileId) own' S.fileId ⟨ys, eof⟩ :=
    hnoted.reflects (c := { c with shm := s }) hsight hturned hsegment.bounded hatlas.reflects
  have hsight' : S.Sight sizes ⟨ys, eof⟩ c₂.self :=
    hnoted.sight (c := { c with shm := s }) hsight hturned.states hreflects.fits
  have hself₂ : c₂.self = { c.self with
      blockArray := c₂.self.blockArray, eof := c₂.self.eof, fd := c₂.self.fd } := hnoted.self
  rcases hwrite with hwrite | ⟨rfl, rfl⟩
  · obtain ⟨e, hw⟩ := hnoted.log.wrote hwrite
    have hids : (turned.map fun b => { b with usageCount := 0 }).map Block.blockId =
        turned.map Block.blockId := by
      rw [List.map_map]
      rfl
    have hrecord : replayRecord { R with eof := eof } e.record = .ok ⟨ys, eof⟩ := by
      rw [hw.record]
      simp only [replayRecord, hids, hturned.states]
      rfl
    refine ⟨own', es ++ (new ++ [e]), ⟨ys, eof⟩, ⟨?_, ?_, hw.store.trans hnoted.store, ?_,
      hsight'.withFd hw.self, hown', ?_, ?_, hlength⟩⟩
    · refine hsegment.of_works ?_ hworks
      rw [hw.shm, hnoted.shm]
      exact hstaffed
    · refine hlog.continue ?_ ?_ ⟨?_, ?_⟩ (hw.links.trans hnoted.links)
        (hw.files.trans hnoted.files) fun k hk => (hw.other k hk).trans (hnoted.content k hk)
      · rw [← List.append_assoc]
        exact hw.fd
      · rw [← List.append_assoc]
        exact hw.content
      · rw [List.map_append, replay_append, hreplay]
        exact replay_cons_ok hrecord rfl
      · rw [List.map_append]
        by_cases hin : some (R.blockArray.length - 1) ∈ turned.map Block.blockId
        · exact Or.inr ⟨(hnoted.sets.mpr hin).append_left _, hallows hin⟩
        · refine Or.inl ⟨not_setsEof_append (mt hnoted.sets.mp hin) ?_, hlast hin⟩
          rw [List.map_singleton, setsEof_singleton, hw.record]
          exact Bool.false_ne_true
    · exact hatlas.of_works hlog.grown.links hworks hreflects
        (hw.links.trans hnoted.links) fun k hk => (hw.other k hk).trans (hnoted.content k hk)
    · rw [hw.self, hself₂]
    · rw [hw.self]
      exact hnoted.places
  · cases hturned.states
    cases hupdate
    refine ⟨own', es, R, ⟨hsegment.of_works hstaffed hworks, hlog, rfl,
      hatlas.of_works hlog.grown.links hworks
        ⟨hturned.mirrors, hatlas.reflects.fits, hatlas.reflects.settled⟩ rfl
        fun _ _ => rfl, hsight, hown', rfl, .refl _, rfl⟩⟩

end Site

/-- Giving up blocks ends what they were held for, and nothing else. -/
theorem Role.holdOf_leave (a : Nat) (r : Role) (x : Hold) :
    (r.leave a).holdOf a = some x ↔ r.holdOf a = some x ∧ ∀ f i, x ≠ .cached f i := by
  cases r with
  | block f i holders =>
      simp only [leave, holdOf, Finset.mem_erase, ne_eq, not_true_eq_false, false_and, if_false,
        reduceCtorEq, false_iff, not_and]
      intro hx hne
      split at hx
      · cases hx
        exact hne f i rfl
      · cases hx
  | free => simp [leave, holdOf]
  | victim f i e => simp [leave, holdOf]
  | spare e f =>
      simp only [leave, holdOf]
      refine ⟨fun h => ⟨h, fun g i hx => ?_⟩, fun h => h.1⟩
      subst hx
      split at h
      · cases h
      · cases h
  | loading e f j =>
      simp only [leave, holdOf]
      refine ⟨fun h => ⟨h, fun g i hx => ?_⟩, fun h => h.1⟩
      subst hx
      split at h
      · cases h
      · cases h

/-- A block that a handle has cached is one that it has active. -/
theorem Role.block_of_holdOf {a i : Nat} {f : FileId} {r : Role}
    (h : r.holdOf a = some (.cached f i)) :
    ∃ holders, r = .block f i holders ∧ a ∈ holders := by
  cases r with
  | block g j holders =>
      simp only [holdOf] at h
      split at h
      · next hmem =>
          cases h
          exact ⟨holders, rfl, hmem⟩
      · cases h
  | free => cases h
  | victim g j e => cases h
  | spare e g =>
      simp only [holdOf] at h
      split at h
      · cases h
      · cases h
  | loading e g j =>
      simp only [holdOf] at h
      split at h
      · cases h
      · cases h

theorem Role.place_of_holdOf {a i : Nat} {f : FileId} {r : Role}
    (h : r.holdOf a = some (.cached f i)) : ∃ state, r.place = some ⟨f, i, state⟩ := by
  obtain ⟨holders, rfl, -⟩ := block_of_holdOf h
  exact ⟨_, rfl⟩

namespace Site

variable {S : Site} {sizes : Sizes} {V : Option Victim} {own own' : Nat → Role} {es : List LogEntry}
variable {R R' : View} {c c' : Ctx} {h h' : FileActiveStatus}

/-- A cached block is under its number in the handle's array. -/
theorem Sight.cached (hsight : S.Sight sizes R h) (hmirrors : Mirrors own S.fileId R.blockArray)
    {b i : Nat} (hb : (own b).holdOf S.a = some (.cached S.fileId i)) :
    ∃ x, h.blockArray[i]? = some x ∧ x.bucketId = some b ∧ x.blockId = some i ∧
    x.isLocal = true := by
  obtain ⟨state, hplace⟩ := Role.place_of_holdOf hb
  obtain ⟨y, hy, hlocal, hyb⟩ := hmirrors.placed b i state hplace
  obtain ⟨x, hx, hxy⟩ := hsight.shadows.cached hy
  exact ⟨x, hx, hxy.bucketId.trans hyb, hxy.blockId.trans (hmirrors.blockId i y hy),
    hxy.isLocal.trans hlocal⟩

/-- The blocks of cached keys are in their buckets. -/
theorem Sight.shelved (hsight : S.Sight sizes R h) (hmirrors : Mirrors own S.fileId R.blockArray)
    {keys : List Nat} {blocks : List Block} (hnodup : keys.Nodup)
    (hkeys : ∀ k ∈ keys, ∃ b, (own b).holdOf S.a = some (.cached S.fileId k))
    (hblocks : List.Forall₂ (fun k y => h.blockArray[k]? = some y) keys blocks) :
    Shelved own S.fileId blocks ∧ ∀ b j, (own b).holdOf S.a = some (.cached S.fileId j) →
      (j ∈ keys ↔ some b ∈ blocks.map Block.bucketId) := by
  induction hblocks with
  | nil => exact ⟨⟨by simp, by simp⟩, fun b j _ => by simp⟩
  | @cons k y keys blocks hy hrest ih =>
      obtain ⟨hk, hnodup⟩ := List.nodup_cons.mp hnodup
      obtain ⟨hshelf, hiff⟩ := ih hnodup fun k hk => hkeys k (List.mem_cons_of_mem _ hk)
      obtain ⟨b, hb⟩ := hkeys k List.mem_cons_self
      obtain ⟨x, hx, hxb, hxi, -⟩ := hsight.cached hmirrors hb
      obtain rfl : x = y := Option.some.inj (hx.symm.trans hy)
      obtain ⟨holders, hown, -⟩ := Role.block_of_holdOf hb
      have hbnot : x.bucketId ∉ blocks.map Block.bucketId := by
        rw [hxb]
        exact fun hin => hk ((hiff b k hb).mpr hin)
      refine ⟨⟨?_, List.nodup_cons.mpr ⟨hbnot, hshelf.nodup⟩⟩, fun b' j hb' => ?_⟩
      · intro z hz
        rcases List.mem_cons.mp hz with rfl | hz
        · exact ⟨b, k, holders, hxb, hxi, hown⟩
        · exact hshelf.shelf z hz
      · rw [List.mem_cons, List.map_cons, List.mem_cons, hiff b' j hb', hxb, Option.some.injEq]
        refine or_congr ⟨?_, ?_⟩ Iff.rfl
        · rintro rfl
          obtain ⟨state, hplace⟩ := Role.place_of_holdOf hb
          obtain ⟨state', hplace'⟩ := Role.place_of_holdOf hb'
          exact hmirrors.unique hplace' hplace
        · rintro rfl
          rw [hb] at hb'
          cases hb'
          rfl

theorem GaveUp.spots {blocks : List Block} (hgave : S.GaveUp sizes V own R blocks c c' own' es R') :
    SameSpots own own' := by
  intro b
  rw [hgave.own b]
  split
  · exact Role.spot_leave _ _
  · rfl

theorem removeNumOfKeys_ok {num : Nat} {keys : List Nat}
    (hrun : FileActiveStatus.removeNumOfKeys num c = .ok keys c') :
    keys = (c.self.lruCache.removeNumOfKeys num).2 ∧ c' = { c with self := { c.self with
      lruCache := (c.self.lruCache.removeNumOfKeys num).1 } } := by
  obtain ⟨c₀, c₂, hget, hrun⟩ := bind_ok hrun
  cases hget
  cases hrun
  exact ⟨rfl, rfl⟩

/-- What the handle holds after it gave up the blocks of some keys. -/
theorem GaveUp.hold {blocks : List Block} {keys : List Nat}
    (hgave : S.GaveUp sizes V own R blocks c c' own' es R')
    (hfile : ∀ b x, (own b).holdOf S.a = some x → x.file = S.fileId)
    (hkeys : ∀ b j, (own b).holdOf S.a = some (.cached S.fileId j) →
      (j ∈ keys ↔ some b ∈ blocks.map Block.bucketId))
    (hshelf : Shelved own S.fileId blocks) (b : Nat) (x : Hold) :
    (own' b).holdOf S.a = some x ↔
      (own b).holdOf S.a = some x ∧ ∀ j ∈ keys, x ≠ .cached S.fileId j := by
  rw [hgave.own b]
  by_cases hb : some b ∈ blocks.map Block.bucketId
  · rw [if_pos hb, Role.holdOf_leave]
    obtain ⟨y, hy, hyb⟩ := List.mem_map.mp hb
    obtain ⟨b', i, holders, hb', -, hown⟩ := hshelf.shelf y hy
    obtain rfl : b = b' := Option.some.inj (hyb.symm.trans hb')
    refine and_congr_right fun hx => ⟨fun hne j _ => hne S.fileId j, fun hne g j hxj => ?_⟩
    subst hxj
    obtain rfl : g = S.fileId := hfile b _ hx
    exact hne j ((hkeys b j hx).mpr hb) rfl
  · rw [if_neg hb]
    refine ⟨fun hx => ⟨hx, fun j hj hxj => ?_⟩, fun hx => hx.1⟩
    subst hxj
    exact hb ((hkeys b j hx).mp hj)

/-- The oldest blocks of the cache are inactivated. -/
theorem Desk.inactivateOldest {num : Nat} {u : Unit} (hd : S.Desk sizes V own es R c)
    (hrun : FileActiveStatus.inactivateOldest S.cfg num c = .ok u c') :
    ∃ own' es' R', S.Desk sizes V own' es' R' c' ∧ Stays own own' R R' ∧ c'.self = { c.self with
        blockArray := c'.self.blockArray, eof := c'.self.eof, fd := c'.self.fd
        lruCache := (c.self.lruCache.removeNumOfKeys num).1 } ∧
      SamePlaces c.self.blockArray c'.self.blockArray := by
  obtain ⟨keys, c₁, hremove, hrun⟩ := bind_ok hrun
  obtain ⟨rfl, rfl⟩ := removeNumOfKeys_ok hremove
  let c₁ : Ctx := { c with self := { c.self with
    lruCache := (c.self.lruCache.removeNumOfKeys num).1 } }
  obtain ⟨blocks, c₂, htake, hrun⟩ := bind_ok hrun
  obtain ⟨rfl, hblocks⟩ := blocksOf_ok htake
  obtain ⟨c₀, c₂, hget, hrun⟩ := bind_ok hrun
  cases hget
  obtain ⟨a, c₂, hactive, hrun⟩ := bind_ok hrun
  have hsight : S.Sight sizes R c₁.self :=
    hd.sight.congr ⟨rfl, rfl, rfl, rfl, rfl, rfl, rfl, rfl, rfl, rfl, rfl⟩ rfl rfl
  obtain ⟨rfl, rfl⟩ := Sight.active (c := c₁) hsight hactive
  obtain ⟨turned, c₃, hinactivate, hrun⟩ := bind_ok hrun
  obtain ⟨u₁, c₄, hupdate, hwrite⟩ := bind_ok hrun
  obtain ⟨hnodup, hheld, hcaches⟩ := hd.books.caches.removeNumOfKeys num
  obtain ⟨hshelf, hkeys⟩ := hd.sight.shelved hd.atlas.mirrors hnodup hheld hblocks
  rw [hd.sight.steady.fileId] at hinactivate
  obtain ⟨own', es', R', hgave⟩ := giveUp (c := c₁) hd.segment hd.log hd.atlas hsight hshelf
    hinactivate hupdate (Or.inl hwrite)
  have hhold := fun b x => hgave.hold hd.books.file hkeys hshelf b x
  refine ⟨own', es', R', ⟨hgave.segment, hgave.log, hgave.store.trans hd.store, hgave.atlas,
    hgave.sight, ?_⟩, ⟨hgave.spots, hgave.length⟩, hgave.self, hgave.places⟩
  rw [hgave.self]
  obtain ⟨⟨spares, hspares⟩, ⟨loads, hloads⟩, -, hfile⟩ := hd.books
  refine ⟨⟨spares, hspares.congr fun b => ?_⟩, ⟨loads, hloads.congr fun b i => ?_⟩,
    hcaches _ fun b i => ?_, fun b x hx => hfile b x ((hhold b x).mp hx).1⟩
  · rw [hhold]
    simp
  · rw [hhold]
    simp
  · rw [hhold]
    refine and_congr_right fun _ => ⟨fun hne hin => hne i hin rfl, fun hnot j hj heq => ?_⟩
    cases heq
    exact hnot hj

/-! ## Giving buckets back -/

/-- Spare buckets become free. -/
theorem Segment.release {blocks : List Block} {ids : List Nat} {s s' : SharedMem}
    (hs : S.Segment sizes V own s) (hlisted : blocks.map Block.bucketId = ids.map some)
    (hspare : ∀ b ∈ ids, own b = .spare S.a S.fileId)
    (hrun : SharedMemoryContext.releaseBuckets blocks s = .ok () s') :
    S.Segment sizes V (Role.assign own ids .free) s' ∧
      ∀ b, (own b).Works S.a S.fileId (Role.assign own ids .free b) := by
  have hworks : ∀ b, (own b).Works S.a S.fileId (Role.assign own ids .free b) := by
    apply Role.Works.assign
    intro b hb
    rw [hspare b hb]
    exact Role.Works.free_spare.symm
  exact ⟨hs.of_works (SharedMemoryContext.releaseBuckets_staffed hs.staffed hlisted hrun) hworks,
    hworks⟩

/-- No log tells of spare buckets. -/
theorem place_release {ids : List Nat} (hspare : ∀ b ∈ ids, own b = .spare S.a S.fileId) (b : Nat) :
    (Role.assign own ids .free b).place = (own b).place := by
  by_cases hb : b ∈ ids
  · rw [Role.assign_of_mem hb, hspare b hb]
    rfl
  · rw [Role.assign_of_notMem hb]

theorem spare_of_holdOf {a b : Nat} {f : FileId} (h : (own b).holdOf a = some (.spare f)) :
    own b = .spare a f := by
  cases hr : own b with
  | spare e g =>
      rw [hr] at h
      simp only [Role.holdOf] at h
      split at h
      · next he =>
          cases h
          rw [he]
      · cases h
  | free =>
      rw [hr] at h
      cases h
  | victim g i e =>
      rw [hr] at h
      cases h
  | loading e g i =>
      rw [hr] at h
      simp only [Role.holdOf] at h
      split at h
      · cases h
      · cases h
  | block g i holders =>
      rw [hr] at h
      simp only [Role.holdOf] at h
      split at h
      · cases h
      · cases h

/-- The last preallocated bucket is given back. -/
theorem Desk.releaseLast {last : Block} {c₁ : Ctx} {u : Unit} (hd : S.Desk sizes V own es R c)
    (hlast : c.self.preAllocatedBuckets.getLast? = some last)
    (hrun : onShm (SharedMemoryContext.releaseBuckets [last]) { c with self := { c.self with
      preAllocatedBuckets := c.self.preAllocatedBuckets.dropLast } } = .ok () c₁)
    (hwrite : logReleaseBucket [last] c₁ = .ok u c') :
    ∃ own' es', S.Desk sizes V own' es' R c' ∧ SameSpots own own' ∧ c'.self = { c.self with
      preAllocatedBuckets := c.self.preAllocatedBuckets.dropLast, fd := c'.self.fd } := by
  obtain ⟨s, hrelease, rfl⟩ := onShm_ok hrun
  obtain ⟨⟨spares, hspares⟩, ⟨loads, hloads⟩, hcaches, hfile⟩ := hd.books
  obtain ⟨b, ids, hb, hhold, hrest⟩ := hspares.dropLast hlast
  have hspare : ∀ b' ∈ [b], own b' = .spare S.a S.fileId := by
    intro b' hb'
    rw [List.mem_singleton.mp hb']
    exact spare_of_holdOf hhold
  obtain ⟨hsegment, hworks⟩ := hd.segment.release (by simp [hb]) hspare hrelease
  have hnew : ∀ c x, (Role.assign own [b] .free c).holdOf S.a = some x ↔
      c ≠ b ∧ (own c).holdOf S.a = some x := by
    intro c x
    by_cases hc : c = b
    · subst hc
      rw [Role.assign_of_mem (List.mem_singleton_self c)]
      simp [Role.holdOf]
    · rw [Role.assign_of_notMem (by simpa using hc)]
      simp [hc]
  have hd' : S.Desk sizes V (Role.assign own [b] .free) es R
      { c with shm := s, self := { c.self with
      preAllocatedBuckets := c.self.preAllocatedBuckets.dropLast } } := by
    refine ⟨hsegment, hd.log, hd.store, ?_, ?_, ⟨⟨ids, hrest _ fun c => hnew c _⟩,
      ⟨loads, hloads.congr fun c i => ?_⟩, hcaches.congr fun c i => ?_, fun c x hx => ?_⟩⟩
    · refine hd.atlas.of_works hd.log.grown.links hworks ?_ rfl fun _ _ => rfl
      exact hd.atlas.reflects.congr fun c i state => by rw [place_release hspare c]
    · exact hd.sight.congr ⟨rfl, rfl, rfl, rfl, rfl, rfl, rfl, rfl, rfl, rfl, rfl⟩ rfl rfl
    · rw [hnew]
      refine ⟨fun h => h.2, fun h => ⟨?_, h⟩⟩
      rintro rfl
      rw [hhold] at h
      cases h
    · rw [hnew]
      refine ⟨fun h => h.2, fun h => ⟨?_, h⟩⟩
      rintro rfl
      rw [hhold] at h
      cases h
    · exact hfile c x ((hnew c x).mp hx).2
  obtain ⟨es', hd'', hself⟩ := hd'.note hwrite (.releaseBlock _ R 0 _)
  exact ⟨_, es', hd'', .of_place (place_release hspare), hself⟩

/-- There is room for one more block in the cache. -/
structure Roomy (h h' : FileActiveStatus) : Prop where
  room : h'.lruCache.size < h'.lruCache.maxSize
  keys : ∀ k ∈ h'.lruCache.keys, k ∈ h.lruCache.keys
  loading : h'.loadingBuckets = h.loadingBuckets
  places : SamePlaces h.blockArray h'.blockArray

theorem keys_removeNumOfKeys (cache : LRUCache Nat (Option Nat)) (num : Nat) :
    ∀ k ∈ (cache.removeNumOfKeys num).1.keys, k ∈ cache.keys := by
  intro k hk
  obtain ⟨item, hitem, rfl⟩ := List.mem_map.mp hk
  exact List.mem_map_of_mem (List.mem_of_mem_take hitem)

theorem Desk.makeRoom {u : Unit} (hd : S.Desk sizes V own es R c)
    (hrun : FileActiveStatus.makeRoom S.cfg c = .ok u c') :
    ∃ own' es' R', S.Desk sizes V own' es' R' c' ∧ Stays own own' R R' ∧ Roomy c.self c'.self := by
  obtain ⟨c₀, c₁, hget, hrun⟩ := bind_ok hrun
  cases hget
  dsimp only at hrun
  split at hrun
  · next hfull =>
      split at hrun
      · next hsome =>
          obtain ⟨own', es', R', hd', hstays, hself, hplaces⟩ := hd.inactivateOldest hrun
          refine ⟨own', es', R', hd', hstays, ?_, ?_, ?_, hplaces⟩
          · rw [hself]
            simp only [LRUCache.size_removeNumOfKeys, LRUCache.maxSize_removeNumOfKeys]
            simp only [numAcquiredBuckets] at hfull
            omega
          · rw [hself]
            exact keys_removeNumOfKeys _ _
          · rw [hself]
      · next hnone =>
          cases hlast : c.self.preAllocatedBuckets.getLast? with
          | none =>
              rw [hlast] at hrun
              cases hrun
          | some last =>
              rw [hlast] at hrun
              obtain ⟨u₁, c₁, hmodify, hrun⟩ := bind_ok hrun
              cases hmodify
              obtain ⟨u₂, c₂, hrelease, hwrite⟩ := bind_ok hrun
              obtain ⟨own', es', hd', hspots, hself⟩ := hd.releaseLast hlast hrelease hwrite
              refine ⟨own', es', R, hd', hspots.stays R, ?_, ?_, ?_, ?_⟩
              · have hpos : 0 < c.self.preAllocatedBuckets.length := by
                  rcases List.eq_nil_or_concat c.self.preAllocatedBuckets with hnil | ⟨l, x, hcons⟩
                  · rw [hnil] at hlast
                    cases hlast
                  · rw [hcons]
                    simp
                rw [hself]
                simp only [numAcquiredBuckets] at hfull
                dsimp only
                omega
              · rw [hself]
                exact fun k hk => hk
              · rw [hself]
              · rw [hself]
                exact .refl _
  · next hfull =>
      split at hrun
      · cases hrun
      · next hmore =>
          cases hrun
          refine ⟨own, es, R, hd, .refl _ _, ?_, fun k hk => hk, rfl, .refl _⟩
          simp only [numAcquiredBuckets] at hfull hmore
          omega

/-! ## Evicting -/

theorem Atlas.congr (hatlas : S.Atlas sizes own R c.folder)
    (hplace : ∀ b, (own' b).place = (own b).place) :
    S.Atlas sizes own' R c.folder where
  reflects := hatlas.reflects.congr fun b i state => by rw [hplace b]
  elsewhere g k hg hk := by
    obtain ⟨es, r, hes, hreplay, hm⟩ := hatlas.elsewhere g k hg hk
    exact ⟨es, r, hes, hreplay, hm.congr fun b i state => by rw [hplace b]⟩
  placed b p hp := hatlas.placed b p (by rw [← hplace b]; exact hp)

/-- The victim that an eviction loop has on hand. -/
structure VictimOf (sizes : Sizes) (loop : EvictLoop) (v : Victim) : Prop where
  bucket : loop.evictBlockInfo.bucketId = some v.bucket
  file : loop.evictBlockInfo.fileId = v.file
  index : loop.evictBlockInfo.blockId = some v.index
  size : loop.evictBlockInfo.dataSize = sizes v.file v.index

/-- What an eviction loop is left with: a victim that is being uploaded, or none. -/
def Evicts (sizes : Sizes) (V : Option Victim) (loop : EvictLoop) : Prop :=
  loop.evicting = false ∧ V = none ∨ loop.evicting = true ∧ ∃ v, V = some v ∧ VictimOf sizes loop v

/-- An eviction is started if buckets are missing. -/
theorem Desk.startEvict {loop loop' : EvictLoop} (hd : S.Desk sizes none own es R c)
    (hidle : loop.evicting = false) (hrun : FileActiveStatus.startEvict loop c = .ok loop' c') :
    ∃ own' V, S.Desk sizes V own' es R c' ∧ SameSpots own own' ∧ c'.self = c.self ∧
      Evicts sizes V loop' := by
  simp only [FileActiveStatus.startEvict] at hrun
  split at hrun
  · obtain ⟨a, c₁, hactive, hrun⟩ := bind_ok hrun
    obtain ⟨rfl, rfl⟩ := hd.sight.active hactive
    obtain ⟨info, c₁, hshm, hrun⟩ := bind_ok hrun
    obtain ⟨s, hmark, rfl⟩ := onShm_ok hshm
    cases hrun
    obtain ⟨b, f, i, hown, hfile, hindex, hbucket, hsize, hstaffed⟩ :=
      SharedMemoryContext.markBucketEvicting_staffed hd.segment.staffed hmark
    have hhold : ∀ e c, (Function.update own b (.victim f i S.a) c).holdOf e =
        (own c).holdOf e := by
      intro e c
      by_cases hc : c = b
      · subst hc
        rw [Function.update_self, hown]
        simp [Role.holdOf]
      · rw [Function.update_of_ne hc]
    have hplace : ∀ c, (Function.update own b (.victim f i S.a) c).place = (own c).place := by
      apply Role.place_update
      rw [hown]
      simp [Role.place]
    refine ⟨_, some ⟨b, f, i⟩, ⟨⟨hstaffed, hd.segment.bounded, fun e he c => ?_, fun c g j e => ?_⟩,
      hd.log, hd.store, hd.atlas.congr hplace, hd.sight, ?_⟩, .of_place hplace, rfl,
      Or.inr ⟨rfl, _, rfl, hbucket, hfile, hindex, hsize⟩⟩
    · rw [hhold]
      exact hd.segment.others e he c
    · have hbefore := hd.segment.victims c g j e
      by_cases hc : c = b
      · subst hc
        rw [Function.update_self]
        simp only [hown, reduceCtorEq, false_iff] at hbefore
        simp only [Role.victim.injEq, Option.some.injEq, Victim.mk.injEq, true_and]
        by_cases he : e = S.a
        · rw [if_pos he, he]
          simp
        · rw [if_neg he] at hbefore ⊢
          refine iff_of_false ?_ hbefore
          rintro ⟨-, -, rfl⟩
          exact he rfl
      · rw [Function.update_of_ne hc, hbefore]
        by_cases he : e = S.a
        · rw [if_pos he, if_pos he]
          simp [Ne.symm hc]
        · rw [if_neg he, if_neg he]
    · simp only [hhold]
      exact hd.books
  · cases hrun
    exact ⟨own, none, hd, .refl _, rfl, Or.inl ⟨hidle, rfl⟩⟩

end Site

end Gopherwood
