/-
# Bytes on their way

A transfer reads from, or writes to, the block of the position in its bucket. The
position follows in a step of its own: only then does the file have what was
written.
-/

import Gopherwood.Coherence.Turns

namespace Gopherwood

open Library (page slice overwrite)

/-- What a handle has cached is stored in the bucket. -/
theorem Role.spot_of_cached {e i : Nat} {f : FileId} {r : Role}
    (h : r.holdOf e = some (.cached f i)) :
    r.spot = some (f, i) := by
  obtain ⟨holders, rfl, -⟩ := Role.block_of_holdOf h
  rfl

namespace Site

variable {S : Site} {sizes : Sizes} {V : Option Victim} {own : Nat → Role} {es done pending :
  List LogEntry}
variable {R : View} {c : Ctx} {pos : Nat} {stream : Stream}

/-- The site of a handle that has just moved its position. -/
def moved (S : Site) (pos : Nat) (stream : Stream) : Site :=
  { S with handle := { S.handle with pos := pos, stream := stream } }

theorem Seat.moved (hs : S.Seat sizes V own done pending R c) (pos : Nat) (stream : Stream) :
    (S.moved pos stream).Seat sizes V own done pending R
      { c with self := { c.self with pos := pos, stream := stream } } := by
  have hsteady := hs.steady
  have hh := hs.follows
  exact ⟨⟨hsteady.client, hsteady.fileId, hsteady.pid, hsteady.activeId, hsteady.isWrite,
    hsteady.isDelete, hsteady.loadMutex, rfl, hsteady.pc, rfl, hsteady.shouldDestroy⟩,
    ⟨hs.segment.staffed, hs.segment.bounded, hs.segment.others, hs.segment.victims⟩, hs.folder,
    hs.store, ⟨hh.fd, hh.content, hh.replayed, hh.read, hh.eof, hh.whole⟩, hs.eof, hs.fits,
    hs.level, ⟨hs.atlas.reflects, hs.atlas.elsewhere, hs.atlas.placed⟩, hs.books.congr rfl rfl rfl⟩

/-- Where the position is does not matter once the section has ended. -/
theorem Desk.unmoved (hd : (S.moved pos stream).Desk sizes V own es R c) :
    S.Desk sizes V own es R
      { c with self := { c.self with pos := S.handle.pos, stream := S.handle.stream } } := by
  have hsteady := hd.sight.steady
  exact ⟨⟨hd.segment.staffed, hd.segment.bounded, hd.segment.others, hd.segment.victims⟩,
    ⟨hd.log.fd, hd.log.content, hd.log.replayed, hd.log.grown⟩, hd.store,
    ⟨hd.atlas.reflects, hd.atlas.elsewhere, hd.atlas.placed⟩,
    ⟨⟨hsteady.client, hsteady.fileId, hsteady.pid, hsteady.activeId, hsteady.isWrite,
      hsteady.isDelete, hsteady.loadMutex, rfl, hsteady.pc, rfl, hsteady.shouldDestroy⟩,
      hd.sight.shadows, hd.sight.eof, hd.sight.fits, hd.sight.level⟩,
    hd.books.congr rfl rfl rfl⟩

end Site

namespace World

variable {cfg : Config} {G G' : Account} {V V' : Option Victim} {D D' : Option Draft} {w w' : World}
variable {n a k start : Nat} {h h' : FileActiveStatus} {before : FileId → List UInt8}
variable {done pending : List LogEntry} {R : View}

/-- A block is in one bucket only. -/
theorem Agrees.spot_unique (hw : Agrees cfg G V n w) {b c i : Nat} {f : FileId}
    (hb : (G.own b).spot = some (f, i)) (hc : (G.own c).spot = some (f, i)) : b = c := by
  obtain ⟨k, hk⟩ := hw.placed b f i hb
  obtain ⟨es, R, hfiled⟩ := hw.filed f k hk
  obtain ⟨state, hplace⟩ := Role.spot_eq_some.mp hb
  obtain ⟨state', hplace'⟩ := Role.spot_eq_some.mp hc
  exact hfiled.reflects.mirrors.unique hplace hplace'

theorem image_none (G : Account) (size : Nat) (f : FileId) (i : Nat) :
    G.image size none f i = page size (G.content f) i := rfl

theorem image_other {size : Nat} {d : Draft} {f : FileId} {i : Nat}
    (hne : ¬ (f = d.file ∧ i = d.index)) :
    G.image size (some d) f i = G.image size none f i := by
  rw [Account.image, if_neg hne]
  rfl

theorem image_self (G : Account) (size : Nat) (d : Draft) :
    G.image size (some d) d.file d.index = d.data := by
  rw [Account.image, if_pos ⟨rfl, rfl⟩]

/-- Two buckets do not overlap. -/
theorem apart {size b c skip m m' : Nat} (hne : c ≠ b) (hm : m ≤ size) (hin : skip + m' ≤ size) :
    c * size + m ≤ b * size + skip ∨ b * size + skip + m' ≤ c * size := by
  rcases Nat.lt_or_gt_of_ne hne with hlt | hgt
  · have hle : (c + 1) * size ≤ b * size := Nat.mul_le_mul_right size hlt
    rw [Nat.succ_mul] at hle
    omega
  · have hle : (b + 1) * size ≤ c * size := Nat.mul_le_mul_right size hgt
    rw [Nat.succ_mul] at hle
    omega

/-- A write within a bucket makes its block a draft. -/
theorem Coherent.draft {b i skip : Nat} {f : FileId} {data : List UInt8}
    (hw : Coherent cfg G none V n w) (hspot : (G.own b).spot = some (f, i))
    (hskip : skip ≤ (page cfg.localBucketSize (G.content f) i).length)
    (hin : skip + data.length ≤ cfg.localBucketSize) (hn : w.files[n]? = some h)
    (hfiles : w'.files = w.files.set n h') (hshm : w'.shm = w.shm) (hfolder : w'.folder = w.folder)
    (hspace : w'.space = overwrite 0 w.space (b * cfg.localBucketSize + skip) data)
    (hoss : w'.oss = w.oss) (htasks : w'.tasks = w.tasks) (ht : h.Touches h')
    (hpos : h'.pos ≤ h'.eof) :
    Coherent cfg G (some ⟨f, i, overwrite 0 (page cfg.localBucketSize (G.content f) i) skip data⟩) V
    n w' := by
  let d : Draft := ⟨f, i, overwrite 0 (page cfg.localBucketSize (G.content f) i) skip data⟩
  have hpage : ∀ g j, (G.image cfg.localBucketSize none g j).length ≤ cfg.localBucketSize := by
    intro g j
    rw [image_none, Library.length_page]
    exact Nat.min_le_left _ _
  -- the other buckets have what they had
  have helsewhere : ∀ {c : Nat} {image : List UInt8}, c ≠ b → image.length ≤ cfg.localBucketSize →
      slice w.space (c * cfg.localBucketSize) image.length = image →
      slice w'.space (c * cfg.localBucketSize) image.length = image := by
    intro c image hc hle hslice
    rw [hspace, Library.slice_overwrite_other 0 data (apart hc hle hin) (by rw [hslice])]
    exact hslice
  refine ⟨hw.agrees.touched hn hfiles hshm hfolder (fun hne => htasks ▸ hne) ht hpos,
    fun c g j hc => ?_, fun g k hk j hj hnowhere => ?_, ?_⟩
  · by_cases hsame : g = f ∧ j = i
    · obtain ⟨rfl, rfl⟩ := hsame
      obtain rfl : c = b := hw.agrees.spot_unique hc hspot
      have hkept := hw.kept c g j hc
      rw [image_none] at hkept
      have hfull :
          (slice w.space (c * cfg.localBucketSize)
          (page cfg.localBucketSize (G.content g) j).length).length =
          (page cfg.localBucketSize (G.content g) j).length := by rw [hkept]
      have hwithin := Library.slice_overwrite_within 0 data hfull hskip
      rw [hkept] at hwithin
      rw [image_self G cfg.localBucketSize d, hspace, Library.length_overwrite]
      exact hwithin
    · rw [image_other (d := d) hsame]
      refine helsewhere ?_ (hpage g j) (hw.kept c g j hc)
      rintro rfl
      have heq := hc.symm.trans hspot
      simp only [Option.some.injEq, Prod.mk.injEq] at heq
      exact hsame heq
  · have hne : ¬ (g = d.file ∧ j = d.index) := by
      rintro ⟨rfl, rfl⟩
      exact hnowhere b hspot
    rw [image_other hne, hoss, htasks]
    rw [hfolder] at hk
    exact hw.uploaded g k hk j hj hnowhere
  · -- a block that is being loaded is in no bucket
    have hloads : ∀ c e g j, G.own c = .loading e g j → ¬ (g = d.file ∧ j = d.index) ∧ c ≠ b := by
      intro c e g j hown
      obtain ⟨task, htask, hbucket⟩ := hw.ledger.listed c e g j hown
      obtain ⟨x, a, c', j', hcarries⟩ := hw.ledger.task task htask
      have hrole := hcarries.role
      rw [hcarries.info] at hbucket
      obtain rfl : c' = c := Option.some.inj hbucket
      rw [hown] at hrole
      cases hrole
      constructor
      · rintro ⟨hg, rfl⟩
        refine hcarries.remote.2 b ?_
        rw [hg]
        exact hspot
      · rintro rfl
        rw [hown] at hspot
        cases hspot
    refine hw.ledger.congr htasks (fun x hx => ?_) ⟨fun _ _ _ _ => Iff.rfl, fun _ => Nat.le_refl _,
      fun _ _ _ _ hspot => hspot, fun c e g j hown => image_other (hloads c e g j hown).1,
      fun c e g j hown hslice => ?_⟩
    · obtain rfl : h = x := Option.some.inj (hn.symm.trans hx)
      refine ⟨h', ?_, by rw [ht.self], by rw [ht.self]⟩
      rw [hfiles, List.getElem?_set_self (List.getElem?_eq_some_iff.mp hn).1]
    · exact helsewhere (hloads c e g j hown).2 (hpage g j) hslice

/-- The position is in the block, which reaches at least as far. -/
theorem Attends.inside (hw : Agrees cfg G V n w) (hh : Attends G w h a k done pending R) :
    h.pos % cfg.localBucketSize ≤ cfg.localBucketSize ∧
      h.pos / cfg.localBucketSize * cfg.localBucketSize + h.pos % cfg.localBucketSize = h.pos ∧
      h.pos ≤ (G.content h.fileId).length := by
  have hpos : h.pos ≤ (G.content h.fileId).length := hh.eof ▸ hh.pos
  refine ⟨?_, Nat.div_add_mod' _ _, hpos⟩
  rcases Nat.eq_zero_or_pos cfg.localBucketSize with hzero | hsize
  · -- a bucket of size zero stores nothing
    have hupper := (hw.level h.fileId).upper
    rw [hzero, Nat.mul_zero] at hupper
    rw [hzero, Nat.mod_zero]
    omega
  · exact Nat.le_of_lt (Nat.mod_lt _ hsize)

/-- A reader does not read beyond the end of file. -/
theorem Reads.within {content before : List UInt8} {ahead length : Nat}
    (hr : Reads before content start ahead h length) (hinside : start ≤ before.length) :
    h.pos + h.stream.bytesLeft ≤ content.length := by
  have hleft := hr.left
  rw [hr.content]
  omega

/-- A transfer for a reader. -/
theorem Streaming.transferRead {length : Nat} (hs : Streaming cfg G D V n a before start h w)
    (hpc : h.pc = .transfer) (hr : Reads (before h.fileId) (G.content h.fileId) start 0 h length)
    (hstep : w.stepFile cfg n h = some w') : GoesOn cfg n a before start h.fileId w w' := by
  obtain ⟨k, done, pending, R, hh, -⟩ := hs.attends
  have hstage := hs.stage
  rw [hpc] at hstage
  obtain ⟨rfl, rfl, hleft, b, hb, hinfo⟩ := hstage
  obtain ⟨hskip, hat, hpos⟩ := hh.inside hs.coherent.agrees
  have hwithin := hr.within hs.progress.inside
  let count := min h.stream.bytesLeft (cfg.localBucketSize - h.pos % cfg.localBucketSize)
  have hin : h.pos % cfg.localBucketSize + count ≤ cfg.localBucketSize := by
    have hle : count ≤ cfg.localBucketSize - h.pos % cfg.localBucketSize := Nat.min_le_right _ _
    omega
  have hcount : count ≤ h.stream.bytesLeft := Nat.min_le_left _ _
  -- the bytes of the bucket are those of the file
  let data := slice w.space (b * cfg.localBucketSize + h.pos % cfg.localBucketSize) count
  have hdata : data = slice (G.content h.fileId) h.pos count := by
    have hkept := hs.coherent.kept b _ _ (Role.spot_of_cached hb.held)
    rw [image_none] at hkept
    have hroom : h.pos % cfg.localBucketSize + count ≤
        (page cfg.localBucketSize (G.content h.fileId) h.stream.curBlockId).length := by
      rw [Library.length_page, hb.current]
      omega
    rw [← Library.slice_page _ _ _ hin, ← hb.current, ← hkept, Library.slice_slice _ _ _ _ _ hroom]
  have hlength : data.length = count := by
    rw [hdata, Library.length_slice]
    omega
  let h' : FileActiveStatus := { h with
    stream := { h.stream with
      transfer := .read
      needUpdate := h.stream.bytesLeft > cfg.localBucketSize - h.pos % cfg.localBucketSize
      received := h.stream.received ++ data
      blockInfo := ⟨h.fileId, some h.stream.curBlockId, some b,
        (h.pos % cfg.localBucketSize + data.length : Nat), 0, true⟩ }
    pc := .advance data.length }
  have hrun : h.transferChunk cfg w.space = .ok (h', w.space) := by
    have hoffset : h.stream.blockInfo.offset = (h.pos % cfg.localBucketSize : Nat) := by
      rw [hinfo]
    simp only [FileActiveStatus.transferChunk, hr.transfer, FileActiveStatus.chunk_eq hoffset hskip,
      FileActiveStatus.gt_remaining_iff hoffset hskip, hinfo]
    rfl
  simp only [stepFile, hpc, hrun, Option.some.injEq] at hstep
  subst hstep
  have hcoherent : Coherent cfg G none none n { w.setFile n h' with space := w.space } :=
    hs.coherent.touched hs.handle rfl rfl rfl rfl (hs.coherent.uploaded.same rfl rfl rfl) rfl
      (.of_thread rfl) hh.pos
  refine ⟨rfl, G, none, none, h', rfl, rfl, hcoherent, ?_, hs.active, hs.spares, hs.others, ?_, ?_⟩
  · exact List.getElem?_set_self (List.getElem?_eq_some_iff.mp hs.handle).1
  · refine ⟨hs.progress.inside, hs.progress.begun, hs.progress.pos, Or.inl ⟨length, ?_⟩⟩
    refine ⟨hr.call, rfl, hr.result, hr.content, ?_, hr.left⟩
    change h.stream.received ++ data = slice (before h.fileId) start (h.pos - start + data.length)
    have hbegun := hs.progress.begun
    rw [hlength, hr.received, hdata, hr.content, Nat.add_zero, ← Library.slice_append,
      Nat.add_sub_cancel' hbegun]
  · change Stage cfg G none none _ h' a start (.advance data.length)
    rw [hlength]
    refine ⟨rfl, hcount, fun hless => ?_, hin, b, ⟨hb.current, hb.held⟩,
      Or.inl ⟨length, hr.call, rfl⟩⟩
    have hmore : count < h.stream.bytesLeft := hless
    refine decide_eq_true ?_
    omega

/-- A transfer for a writer. -/
theorem Streaming.transferWrite {buffer : List UInt8}
    (hs : Streaming cfg G D V n a before start h w) (hpc : h.pc = .transfer)
    (hwr : Writes (before h.fileId) (G.content h.fileId) start 0 h buffer)
    (hstep : w.stepFile cfg n h = some w') : GoesOn cfg n a before start h.fileId w w' := by
  obtain ⟨k, done, pending, R, hh, -⟩ := hs.attends
  have hstage := hs.stage
  rw [hpc] at hstage
  obtain ⟨rfl, rfl, hleft, b, hb, hinfo⟩ := hstage
  obtain ⟨hskip, hat, hpos⟩ := hh.inside hs.coherent.agrees
  let count := min h.stream.bytesLeft (cfg.localBucketSize - h.pos % cfg.localBucketSize)
  have hcount : count ≤ h.stream.bytesLeft := Nat.min_le_left _ _
  let data := slice buffer (h.pos - start) count
  have hdata : h.stream.pending.take count = data := by
    rw [hwr.pending, Nat.add_zero]
    rfl
  have hlength : data.length = count := by
    have htotal := hwr.left
    rw [Library.length_slice]
    omega
  have hin : h.pos % cfg.localBucketSize + data.length ≤ cfg.localBucketSize := by
    have hle : count ≤ cfg.localBucketSize - h.pos % cfg.localBucketSize := Nat.min_le_right _ _
    omega
  let h' : FileActiveStatus := { h with
    stream := { h.stream with
      transfer := .write
      needUpdate := h.stream.bytesLeft > cfg.localBucketSize - h.pos % cfg.localBucketSize
      pending := h.stream.pending.drop count
      blockInfo := ⟨h.fileId, some h.stream.curBlockId, some b,
        (h.pos % cfg.localBucketSize + count : Nat), 0, true⟩ }
    pc := .advance count }
  let space := overwrite 0 w.space (b * cfg.localBucketSize + h.pos % cfg.localBucketSize) data
  have hrun : h.transferChunk cfg w.space = .ok (h', space) := by
    have hoffset : h.stream.blockInfo.offset = (h.pos % cfg.localBucketSize : Nat) := by
      rw [hinfo]
    simp only [FileActiveStatus.transferChunk, hwr.transfer,
      FileActiveStatus.chunk_eq hoffset hskip, FileActiveStatus.gt_remaining_iff hoffset hskip,
      hinfo, if_true]
    change Except.ok (h', overwrite 0 w.space _ (h.stream.pending.take count)) = _
    rw [hdata]
    rfl
  simp only [stepFile, hpc, hrun, Option.some.injEq] at hstep
  subst hstep
  have hskip : h.pos % cfg.localBucketSize ≤
      (page cfg.localBucketSize (G.content h.fileId) h.stream.curBlockId).length := by
    rw [Library.length_page, hb.current]
    omega
  let w' : World := { w.setFile n h' with space := space }
  have hfiles : w'.files = w.files.set n h' := rfl
  have hspace : w'.space = overwrite 0 w.space
      (b * cfg.localBucketSize + h.pos % cfg.localBucketSize) data := rfl
  have hcoherent :=
    hs.coherent.draft (Role.spot_of_cached hb.held) hskip hin hs.handle hfiles rfl rfl hspace rfl
    rfl (.of_thread rfl) hh.pos
  refine ⟨rfl, G, _, none, h', rfl, rfl, hcoherent, ?_, hs.active, hs.spares, hs.others, ?_, ?_⟩
  · exact List.getElem?_set_self (List.getElem?_eq_some_iff.mp hs.handle).1
  · refine ⟨hs.progress.inside, hs.progress.begun, hs.progress.pos, Or.inr ⟨buffer, ?_⟩⟩
    refine ⟨hwr.call, rfl, hwr.result, hwr.received, hwr.writable, hwr.content, ?_, hwr.left⟩
    change h.stream.pending.drop count = buffer.drop (h.pos - start + count)
    rw [hwr.pending, List.drop_drop, Nat.add_zero]
  · refine ⟨rfl, hcount, fun hless => ?_, ?_, b, ⟨hb.current, hb.held⟩,
      Or.inr ⟨buffer, hwr.call, rfl⟩⟩
    · have hmore : count < h.stream.bytesLeft := hless
      refine decide_eq_true ?_
      omega
    · rw [hlength] at hin
      exact hin

theorem Streaming.transfer (hs : Streaming cfg G D V n a before start h w) (hpc : h.pc = .transfer)
    (hstep : w.stepFile cfg n h = some w') : GoesOn cfg n a before start h.fileId w w' := by
  have hkind := hs.progress.kind
  rw [hpc] at hkind
  rcases hkind with ⟨length, hr⟩ | ⟨buffer, hwr⟩
  · exact hs.transferRead hpc hr hstep
  · exact hs.transferWrite hpc hwr hstep

/-! ## The position follows -/

/-- The handle after the position followed by `count` bytes. -/
def followed (h : FileActiveStatus) (count : Nat) : FileActiveStatus :=
  { h with
    stream := { h.stream with bytesLeft := h.stream.bytesLeft - count, pos := h.pos + count }
    pos := h.pos + count }

/-- The position follows; beyond the end of file, the bucket is told. -/
theorem advance_ok {count : Nat} {c c' : Ctx} {u : Unit} (hat : c.self.stream.pos = c.self.pos)
    (hrun : FileActiveStatus.advance cfg count c = .ok u c') :
    (c.self.pos + count ≤ c.self.eof ∧
      c' =
      { c with self := { followed c.self count with pc := (followed c.self count).streamPc } }) ∨
    (c.self.eof < c.self.pos + count ∧ ∃ c₂, FileActiveStatus.updateCurBlockSize cfg
        { c with self := { followed c.self count with eof := c.self.pos + count } } = .ok () c₂ ∧
      c' = { c₂ with self := { c₂.self with pc := c₂.self.streamPc } }) := by
  simp only [FileActiveStatus.advance] at hrun
  obtain ⟨u₁, c₁, hmodify, hrun⟩ := Library.bind_ok hrun
  obtain rfl := FileActiveStatus.modifySelf_ok hmodify
  obtain ⟨c₀, c₁, hget, hrun⟩ := Library.bind_ok hrun
  cases hget
  obtain ⟨u₂, c₂, hset, hrun⟩ := Library.bind_ok hrun
  obtain rfl := FileActiveStatus.modifySelf_ok hrun
  simp only [FileActiveStatus.setPosition] at hset
  obtain ⟨u₃, c₃, hmodify, hset⟩ := Library.bind_ok hset
  obtain rfl := FileActiveStatus.modifySelf_ok hmodify
  obtain ⟨c₀, c₃, hget, hset⟩ := Library.bind_ok hset
  cases hget
  dsimp only at hset
  rw [hat] at hset
  split at hset
  · next hmore =>
      obtain ⟨u₄, c₄, hmodify, hset⟩ := Library.bind_ok hset
      obtain rfl := FileActiveStatus.modifySelf_ok hmodify
      exact Or.inr ⟨hmore, c₂, hset, rfl⟩
  · next hless =>
      cases hset
      exact Or.inl ⟨Nat.le_of_not_lt hless, rfl⟩

/-- The account after `data` was written to file `f` at `pos`. -/
def written (G : Account) (f : FileId) (pos : Nat) (data : List UInt8) : Account :=
  { G with content := Function.update G.content f (overwrite 0 (G.content f) pos data) }

/-- A draft that is counted in is what the file has. -/
theorem image_written {size pos : Nat} {f : FileId} {data : List UInt8}
    (hpos : pos ≤ (G.content f).length) (hin : pos % size + data.length ≤ size) :
    (written G f pos data).image size none =
      G.image size (some ⟨f, pos / size,
        overwrite 0 (page size (G.content f) (pos / size)) (pos % size) data⟩) := by
  funext g i
  rw [image_none]
  by_cases hg : g = f
  · subst hg
    have hcontent : (written G g pos data).content g = overwrite 0 (G.content g) pos data :=
      Function.update_self _ _ _
    rw [hcontent]
    by_cases hi : i = pos / size
    · subst hi
      rw [Library.page_overwrite_same 0 hpos hin]
      exact (image_self G size ⟨g, _, _⟩).symm
    · rw [Library.page_overwrite_other 0 hpos hin hi]
      exact (image_other (d := ⟨g, _, _⟩) fun h => hi h.2).symm
  · have hcontent : (written G f pos data).content g = G.content g := Function.update_of_ne hg _ _
    rw [hcontent]
    exact (image_other (d := ⟨f, _, _⟩) fun h => hg h.1).symm

/-- The segment and the logs only know how long the files are. -/
theorem Agrees.recount (hw : Agrees cfg G V n w) (hown : G'.own = G.own)
    (hblocks : G'.blocks = G.blocks) (hlength : ∀ f, (G'.content f).length = (G.content f).length) :
    Agrees cfg G' V n w := by
  obtain ⟨own, content, blocks⟩ := G'
  obtain rfl : own = G.own := hown
  obtain rfl : blocks = G.blocks := hblocks
  have hlength : ∀ f, (content f).length = (G.content f).length := hlength
  have hsizes : Account.sizes ⟨G.own, content, G.blocks⟩ cfg.localBucketSize =
      G.sizes cfg.localBucketSize := by
    funext f i
    simp only [Account.sizes, Library.length_page, hlength]
  refine ⟨?_, hw.linked, fun f k hk => ?_, fun f hf => ?_, fun f => ?_, hw.placed,
    fun m x e hm he => ?_, hw.alone, hw.holders, hw.victims⟩
  · rw [hsizes]
    exact hw.staffed
  · obtain ⟨es, R, hfiled⟩ := hw.filed f k hk
    refine ⟨es, R, hfiled.content, hfiled.replayed, ?_, hfiled.length⟩
    rw [hsizes]
    exact hfiled.reflects
  · obtain ⟨hnil, hzero⟩ := hw.unfiled f hf
    refine ⟨List.eq_nil_of_length_eq_zero ?_, hzero⟩
    rw [hlength, hnil]
    rfl
  · rw [hsizes, hlength]
    exact hw.level f
  · obtain ⟨k, done, pending, R, hh, hcaught⟩ := hw.attends m x e hm he
    refine ⟨k, done, pending, R, ⟨hh.linked, hh.follows, hh.quiet, ?_, hh.pos, hh.books,
      hh.anchored, hh.kept⟩, hcaught⟩
    rw [hlength]
    exact hh.eof

/-- What was drafted within the file is counted in. -/
theorem Coherent.counted {f : FileId} {pos : Nat} {data : List UInt8}
    (hw : Coherent cfg G (some ⟨f, pos / cfg.localBucketSize,
      overwrite 0 (page cfg.localBucketSize (G.content f) (pos / cfg.localBucketSize))
        (pos % cfg.localBucketSize) data⟩) V n w)
    (hin : pos % cfg.localBucketSize + data.length ≤ cfg.localBucketSize)
    (hinside : pos + data.length ≤ (G.content f).length) :
    Coherent cfg (written G f pos data) none V n w := by
  have himage := image_written (G := G) (f := f)
    (Nat.le_trans (Nat.le_add_right _ _) hinside) hin
  have hlength : ∀ g, ((written G f pos data).content g).length = (G.content g).length := by
    intro g
    by_cases hg : g = f
    · subst hg
      simp only [written, Function.update_self, Library.length_overwrite]
      exact Nat.max_eq_left hinside
    · simp [written, hg]
  refine ⟨hw.agrees.recount rfl rfl hlength, hw.kept.congr (fun _ _ _ hspot => hspot) himage rfl,
    ?_, ?_⟩
  · exact hw.uploaded.congr (fun _ _ hk => hk) (fun _ _ _ => rfl) (fun _ _ _ hspot => hspot)
      himage rfl
      fun task htask _ _ hremoved => ⟨task, htask, hremoved⟩
  · exact hw.ledger.congr rfl (fun x hx => ⟨x, hx, rfl, rfl⟩) ⟨fun _ _ _ _ => Iff.rfl,
      fun _ => Nat.le_refl _, fun _ _ _ _ hspot => hspot, fun _ _ f i _ =>
      congrFun (congrFun himage f) i, fun _ _ _ _ _ hslice => hslice⟩

/-- What was drafted beyond the end of file is counted in, once its bucket was told. -/
theorem Coherent.reached {b : Nat} {data : List UInt8} {c' : Ctx} {u : Unit}
    (hw : Coherent cfg G (some ⟨h.fileId, h.pos / cfg.localBucketSize,
      overwrite 0 (page cfg.localBucketSize (G.content h.fileId) (h.pos / cfg.localBucketSize))
        (h.pos % cfg.localBucketSize) data⟩) none n w)
    (hreg : w.Registered) (hn : w.files[n]? = some h) (ha : h.activeId = some a)
    (hwriter : h.isWrite = true) (hb : (G.own b).holdOf a =
    some (.cached h.fileId (h.pos / cfg.localBucketSize)))
    (hin : h.pos % cfg.localBucketSize + data.length ≤ cfg.localBucketSize) (hmore :
    h.eof < h.pos + data.length)
    (hrun : FileActiveStatus.updateCurBlockSize cfg { w.ctx h with
      self := { followed h data.length with eof := h.pos + data.length } } = .ok u c')
    (hworked : Worked n c' h' w w') (hpos : h'.pos = h.pos + data.length) (hspace :
    w'.space = w.space)
    (hoss : w'.oss = c'.oss) (htasks : w'.tasks = w.tasks) :
    Coherent cfg (written G h.fileId h.pos data) none none n w' ∧
    c'.self = { followed h data.length with
      fd := c'.self.fd, readEntries := c'.self.readEntries, blockArray := c'.self.blockArray
      eof := c'.self.eof } := by
  obtain ⟨k, done, pending, R, hh, -⟩ := hw.agrees.attends n h a hn ha
  obtain ⟨hskip, hat, hinside⟩ := hh.inside hw.agrees
  have hlength := hh.follows.length hh.quiet
  have hcount := hw.agrees.length hh.linked hh.follows.content hh.follows.replayed
  have hlevel := hw.agrees.level h.fileId
  let S := w.site cfg G h a k ha hh.linked hw.agrees.linked
  -- the block of the position is the last one
  have hlast : h.pos / cfg.localBucketSize = R.blockArray.length - 1 ∧ 0 < R.blockArray.length := by
    obtain ⟨x, hx, -⟩ := hh.anchored b _ hb
    have hlt : h.pos / cfg.localBucketSize < R.blockArray.length :=
      hlength ▸ (List.getElem?_eq_some_iff.mp hx).1
    have hlower := hlevel.lower
    rw [← hcount, ← hh.eof] at hlower
    refine ⟨Nat.le_antisymm (Nat.le_sub_one_of_lt hlt) (Nat.le_of_not_lt fun hbefore => ?_),
      Nat.zero_lt_of_lt hlt⟩
    have hmul : (h.pos / cfg.localBucketSize + 1) * cfg.localBucketSize ≤
        (R.blockArray.length - 1) * cfg.localBucketSize :=
      Nat.mul_le_mul_right _ hbefore
    rw [Nat.succ_mul] at hmul
    omega
  have hend : h.pos + data.length ≤ R.blockArray.length * cfg.localBucketSize := by
    have hmul : (h.pos / cfg.localBucketSize + 1) * cfg.localBucketSize = R.blockArray.length *
        cfg.localBucketSize := by
      rw [hlast.1, Nat.sub_add_cancel hlast.2]
    rw [Nat.succ_mul] at hmul
    omega
  have hseat :=
    (hw.agrees.seat hn ha hh).moved (h.pos + data.length) (followed h data.length).stream
  have hatLast : (S.moved (h.pos + data.length) (followed h data.length).stream).AtLast G.own R
      b := by
    obtain ⟨holders, hown, hmem⟩ := Role.block_of_holdOf hb
    refine ⟨hlast.2, holders, ?_, hmem⟩
    rw [hown]
    change Role.block h.fileId (h.pos / cfg.localBucketSize) holders = .block h.fileId _ holders
    rw [hlast.1]
  obtain ⟨sizes', -, hreach, hd, hself⟩ := hseat.reach hwriter trivial hatLast hmore hend hrun
  have hcontent : (written G h.fileId h.pos data).content h.fileId =
      overwrite 0 (G.content h.fileId) h.pos data := Function.update_self _ _ _
  have hnow : ((written G h.fileId h.pos data).content h.fileId).length = h.pos + data.length := by
    rw [hcontent, Library.length_overwrite]
    have heof := hh.eof
    omega
  have hsizes : sizes' = (written G h.fileId h.pos data).sizes cfg.localBucketSize := by
    rw [hreach trivial]
    funext g i
    by_cases hg : g = h.fileId
    · subst hg
      have hlevels := Site.levels_reach (S := S)
        (n := R.blockArray.length) (by rw [hcount, hh.eof]; exact hlevel) hlast.2
        (Nat.le_of_lt hmore) hend
      rw [Account.sizes, Library.length_page, hnow]
      exact hlevels.sizes i
    · have hother := congrFun (Site.reach_other S (G.sizes cfg.localBucketSize) R.blockArray.length
        (h.pos + data.length) hg) i
      refine Eq.trans hother ?_
      simp [Account.sizes, written, hg]
  subst hsizes
  have hd' := Site.Desk.unmoved (S := S.beyond (h.pos + data.length)) hd
  have heof : c'.self.eof = h.pos + data.length := (hd.sight.level trivial).1
  have himage := image_written (G := G) (f := h.fileId) hinside hin
  have hself' : h' = { c'.self with
      pos := h'.pos, loadMutex := h'.loadMutex, pc := h'.pc, stream := h'.stream } := hworked.self
  have heof' : h'.eof = h.pos + data.length := by
    rw [hself']
    exact heof
  have hlinks : w'.folder.links = w.folder.links := by
    rw [hworked.folder]
    exact hd.log.grown.links
  refine ⟨⟨?_, ?_, ?_, ?_⟩, hself⟩
  · refine hw.agrees.worked hreg hn ha hh.linked hd' hworked.files
      hworked.shm hworked.folder hself' ?_ ⟨fun g hg => ?_, fun _ _ => rfl⟩ ?_ hcount.symm
    · rw [hpos, heof']
    · exact Function.update_of_ne hg _ _
    · rw [heof', hnow]
  · exact hw.kept.congr (fun _ _ _ hspot => hspot) himage hspace
  · refine hw.uploaded.congr (fun _ _ hk => hlinks ▸ hk) (fun _ _ _ => rfl)
      (fun _ _ _ hspot => hspot) himage ?_
      fun task htask _ _ hremoved => ⟨task, htasks ▸ htask, hremoved⟩
    exact hoss.trans hd.store
  · refine hw.ledger.congr htasks (fun x hx => ?_) ⟨fun _ _ _ _ => Iff.rfl, fun _ => Nat.le_refl _,
      fun _ _ _ _ hspot => hspot, fun _ _ f i _ => congrFun (congrFun himage f) i,
      fun _ _ _ _ _ hslice => hspace ▸ hslice⟩
    obtain rfl : h = x := Option.some.inj (hn.symm.trans hx)
    refine ⟨h', ?_, ?_, ?_⟩
    · rw [hworked.files, List.getElem?_set_self (List.getElem?_eq_some_iff.mp hn).1]
    · rw [hself']
      exact hd.sight.steady.fileId
    · rw [hself']
      exact hd.sight.steady.activeId

/-- The call of handle `n` has returned what it came to, and the files have what it wrote.
The bytes are compared with the content before the call, whatever the blocks have been
through since. -/
structure Finishes (cfg : Config) (n a : Nat) (before : FileId → List UInt8) (start : Nat)
    (f : FileId) (w w' : World) : Prop where
  ends : ∃ G h, w'.files = w.files.set n h ∧ h.fileId = f ∧ h.activeId = some a ∧
    h.isDelete = false ∧ h.pc = .idle ∧ Coherent cfg G none none n w' ∧
    (∀ g, g ≠ f → G.content g = before g) ∧ Progress (before f) (G.content f) start 0 h ∧
    h.stream.bytesLeft = 0 ∧ w'.history = w.history ++
    [⟨n, some h.stream.call, .returned h.stream.result h.stream.received⟩]

theorem Coherent.finish {call : Option Call} {value : Int} {data : List UInt8}
    (hw : Coherent cfg G D V n w) (hn : w.files[n]? = some h) (hpos : h.pos ≤ h.eof) :
    Coherent cfg G D V n (w.finish n call value data) := by
  refine hw.touched hn ?_ rfl rfl rfl (hw.uploaded.same rfl rfl rfl) rfl (.of_thread rfl) hpos
  obtain ⟨hlt, heq⟩ := List.getElem?_eq_some_iff.mp hn
  rw [← heq]
  exact (List.set_getElem_self hlt).symm

/-- At the head of the stream loop the call goes on, or it returns. -/
theorem Coherent.settle {f : FileId} {w₁ : World} (hw : Coherent cfg G none none n w₁)
    (hn : n < w.files.length) (hfiles : w₁.files = w.files.set n h)
    (hhistory : w₁.history = w.history) (hfile : h.fileId = f) (hactive : h.activeId = some a)
    (hspares : h.isDelete = false) (hothers : ∀ g, g ≠ f → G.content g = before g)
    (hprogress : Progress (before f) (G.content f) start 0 h) (hpc : h.pc = h.streamPc)
    (hneed : 0 < h.stream.bytesLeft → h.stream.needUpdate = true) :
    GoesOn cfg n a before start f w (w₁.settle n) ∨
    Finishes cfg n a before start f w (w₁.settle n) := by
  subst hfile
  have hnew : w₁.files[n]? = some h := by
    rw [hfiles]
    exact List.getElem?_set_self hn
  have hpos : h.pos ≤ h.eof := by
    obtain ⟨k, done, pending, R, hh, -⟩ := hw.agrees.attends n h a hnew hactive
    exact hh.pos
  unfold World.settle
  rw [hnew]
  dsimp only
  rw [hpc]
  rcases Nat.eq_zero_or_pos h.stream.bytesLeft with hzero | hleft
  · have hidle : h.streamPc = .idle := if_pos hzero
    rw [hidle]
    refine Or.inr ⟨G, h, hfiles, rfl, hactive, hspares, hpc.trans hidle, hw.finish hnew hpos,
      hothers, hprogress, hzero, ?_⟩
    exact congrArg (· ++ _) hhistory
  · have hadjust : h.streamPc = .adjust := by
      unfold FileActiveStatus.streamPc
      rw [if_neg (Nat.ne_of_gt hleft), if_pos (hneed hleft)]
    rw [hadjust]
    refine Or.inl ⟨hhistory, G, none, none, h, hfiles, rfl, hw, hnew, hactive, hspares, hothers,
      ?_, ?_⟩
    · rw [hpc, hadjust]
      exact hprogress
    · rw [hpc, hadjust]
      exact ⟨rfl, rfl, hleft⟩

/-- The progress of a reader whose position followed. -/
theorem Reads.follow {content before : List UInt8} {count length : Nat}
    (hr : Reads before content start count h length) (hbegun : start ≤ h.pos)
    (hcount : count ≤ h.stream.bytesLeft) (hpos : h'.pos = h.pos + count)
    (hstream : h'.stream = (followed h count).stream) : Reads before content start 0 h' length := by
  refine ⟨?_, ?_, ?_, hr.content, ?_, ?_⟩
  · rw [hstream]
    exact hr.call
  · rw [hstream]
    exact hr.transfer
  · rw [hstream]
    exact hr.result
  · rw [hstream, hpos, Nat.add_zero, Nat.sub_add_comm hbegun]
    exact hr.received
  · rw [hstream, hpos]
    have hleft := hr.left
    change h.pos + count + (h.stream.bytesLeft - count) = _
    omega

/-- The progress of a writer whose position followed. -/
theorem Writes.follow {content before : List UInt8} {count : Nat} {buffer : List UInt8}
    (hwr : Writes before content start count h buffer) (hinside : start ≤ before.length)
    (hbegun : start ≤ h.pos) (hcount : count ≤ h.stream.bytesLeft) (hpos : h'.pos = h.pos + count)
    (hstream : h'.stream = (followed h count).stream) (hwrite : h'.isWrite = h.isWrite) :
    Writes before (overwrite 0 content h.pos (slice buffer (h.pos - start) count)) start 0 h'
    buffer := by
  have hleft := hwr.left
  refine ⟨?_, ?_, ?_, ?_, hwrite.trans hwr.writable, ?_, ?_, ?_⟩
  · rw [hstream]
    exact hwr.call
  · rw [hstream]
    exact hwr.transfer
  · rw [hstream]
    exact hwr.result
  · rw [hstream]
    exact hwr.received
  · have htaken : (buffer.take (h.pos - start)).length = h.pos - start := by
      rw [List.length_take]
      omega
    have hmore := Library.overwrite_append 0 (buffer.take (h.pos - start))
        (slice buffer (h.pos - start) count)
      hinside
    rw [htaken, Nat.add_sub_cancel' hbegun] at hmore
    rw [hwr.content, hmore, hpos, Nat.sub_add_comm hbegun, List.take_add]
    rfl
  · rw [hstream, hpos, Nat.add_zero, Nat.sub_add_comm hbegun]
    exact hwr.pending
  · rw [hstream, hpos]
    change h.pos + count - start + (h.stream.bytesLeft - count) = _
    omega

/-- The position follows, and the call goes on or returns. -/
theorem Streaming.advance {count : Nat} (hs : Streaming cfg G D V n a before start h w)
    (hreg : w.Registered) (hpc : h.pc = .advance count) (hstep : w.stepFile cfg n h = some w')
    (hcalm : Calm w') :
    GoesOn cfg n a before start h.fileId w w' ∨ Finishes cfg n a before start h.fileId w w' := by
  obtain ⟨k, done, pending, R, hh, -⟩ := hs.attends
  have hstage := hs.stage
  have hkind := hs.progress.kind
  rw [hpc] at hstage hkind
  obtain ⟨rfl, hcount, hneed, hin, b, hb, hdraft⟩ := hstage
  obtain ⟨hskip, hat, hpos⟩ := hh.inside hs.coherent.agrees
  simp only [stepFile, hpc, Option.some.injEq] at hstep
  rw [← hstep] at hcalm
  obtain ⟨u, c', hrun, heq⟩ := runFile_returns hcalm
  rw [← hstep, heq]
  have hbegun := hs.progress.begun
  have hinside := hs.progress.inside
  have hlt := (List.getElem?_eq_some_iff.mp hs.handle).1
  have hmore : ∀ {x : FileActiveStatus}, x.stream = (followed h count).stream →
      0 < x.stream.bytesLeft →
      x.stream.needUpdate = true := by
    intro x hx hleft
    rw [hx] at hleft ⊢
    refine hneed ?_
    change 0 < h.stream.bytesLeft - count at hleft
    omega
  rcases advance_ok hs.progress.pos hrun with ⟨hle, rfl⟩ | ⟨hbeyond, c₂, hupdate, rfl⟩
  · -- within the file
    have hle : h.pos + count ≤ h.eof := hle
    let h' : FileActiveStatus := { followed h count with pc := (followed h count).streamPc }
    rcases hkind with ⟨length, hr⟩ | ⟨buffer, hwr⟩
    · obtain rfl : D = none := by
        rcases hdraft with ⟨-, -, hnone⟩ | ⟨buffer, hcall, -⟩
        · exact hnone
        · rw [hr.call] at hcall
          cases hcall
      have hcoherent : Coherent cfg G none none n (w.setFile n h') :=
        hs.coherent.touched hs.handle rfl rfl rfl rfl (hs.coherent.uploaded.same rfl rfl rfl) rfl
          (.of_thread rfl) hle
      exact hcoherent.settle hlt rfl rfl rfl hs.active hs.spares hs.others
        ⟨hinside, Nat.le_trans hbegun (Nat.le_add_right _ _), rfl,
          Or.inl ⟨length, hr.follow hbegun hcount rfl rfl⟩⟩ rfl (hmore rfl)
    · obtain ⟨length, hcall, -⟩ | ⟨buffer', hcall, rfl⟩ := hdraft
      · rw [hwr.call] at hcall
        cases hcall
      obtain rfl : buffer = buffer' := by
        have hsame := hwr.call.symm.trans hcall
        cases hsame
        rfl
      have hlength : (slice buffer (h.pos - start) count).length = count := by
        have hleft := hwr.left
        rw [Library.length_slice]
        omega
      have hcounted := hs.coherent
      rw [hb.current] at hcounted
      have hcounted :=
        hcounted.counted (by rw [hlength]; exact hin) (by rw [hlength, ← hh.eof]; exact hle)
      have hcoherent : Coherent cfg (written G h.fileId h.pos (slice buffer (h.pos - start) count))
          none none n
          (w.setFile n h') :=
        hcounted.touched hs.handle rfl rfl rfl rfl (hcounted.uploaded.same rfl rfl rfl) rfl
          (.of_thread rfl) hle
      refine hcoherent.settle hlt rfl rfl rfl hs.active hs.spares (fun g hg => ?_)
        ⟨hinside, Nat.le_trans hbegun (Nat.le_add_right _ _), rfl, Or.inr ⟨buffer, ?_⟩⟩ rfl
          (hmore rfl)
      · exact (Function.update_of_ne hg _ _).trans (hs.others g hg)
      · have hpos' : h'.pos = h.pos + count := rfl
        have hfollow := hwr.follow hinside hbegun hcount hpos' rfl rfl
        have hcontent : (written G h.fileId h.pos (slice buffer (h.pos - start) count)).content
            h.fileId =
            overwrite 0 (G.content h.fileId) h.pos (slice buffer (h.pos - start) count) :=
          Function.update_self _ _ _
        rw [hcontent]
        exact hfollow
  · -- beyond the end of file
    have hbeyond : h.eof < h.pos + count := hbeyond
    rcases hkind with ⟨length, hr⟩ | ⟨buffer, hwr⟩
    · have hwithin := hr.within hinside
      rw [hh.eof] at hbeyond
      omega
    · obtain ⟨length, hcall, -⟩ | ⟨buffer', hcall, rfl⟩ := hdraft
      · rw [hwr.call] at hcall
        cases hcall
      obtain rfl : buffer = buffer' := by
        have hsame := hwr.call.symm.trans hcall
        cases hsame
        rfl
      obtain ⟨data, hdata⟩ : ∃ data, data = slice buffer (h.pos - start) count := ⟨_, rfl⟩
      obtain rfl : data.length = count := by
        have hleft := hwr.left
        rw [hdata, Library.length_slice]
        omega
      have hdrafted := hs.coherent
      have hheld := hb.held
      rw [← hdata, hb.current] at hdrafted
      rw [hb.current] at hheld
      let h' : FileActiveStatus := { c₂.self with pc := c₂.self.streamPc }
      let w₁ : World := { w.setFile n h' with shm := c₂.shm, folder := c₂.folder, oss := c₂.oss }
      have hthread : FileActiveStatus.OnThread (followed h data.length).thread c₂ := by
        refine Library.Spec.of_ok (FileActiveStatus.updateCurBlockSize_thread cfg) ?_ hupdate
        rfl
      have hstream : c₂.self.stream = (followed h data.length).stream :=
        congrArg Thread.stream hthread
      have hpos' : c₂.self.pos = h.pos + data.length := congrArg Thread.pos hthread
      have hwrite : c₂.self.isWrite = h.isWrite := congrArg Thread.isWrite hthread
      have hfile : c₂.self.fileId = h.fileId := congrArg Thread.fileId hthread
      have hdelete : c₂.self.isDelete = h.isDelete := congrArg Thread.isDelete hthread
      have hworked : Worked n c₂ h' w w₁ := ⟨rfl, rfl, rfl, rfl⟩
      obtain ⟨hcoherent, hself⟩ := hdrafted.reached hreg hs.handle hs.active hwr.writable hheld
        hin hbeyond hupdate hworked hpos' rfl rfl rfl
      have hactive : c₂.self.activeId = h.activeId := by
        rw [hself]
        rfl
      refine hcoherent.settle hlt rfl rfl hfile (hactive.trans hs.active)
        (hdelete.trans hs.spares) (fun g hg => ?_)
        ⟨hinside, ?_, ?_, Or.inr ⟨buffer, ?_⟩⟩ rfl (hmore hstream)
      · exact (Function.update_of_ne hg _ _).trans (hs.others g hg)
      · rw [hpos']
        exact Nat.le_trans hbegun (Nat.le_add_right _ _)
      · rw [hstream, hpos']
        rfl
      · have hnow : h'.pos = h.pos + data.length := hpos'
        have hfollow := hwr.follow hinside hbegun hcount hnow hstream hwrite
        have hcontent : (written G h.fileId h.pos data).content h.fileId =
            overwrite 0 (G.content h.fileId) h.pos data := Function.update_self _ _ _
        rw [hcontent]
        change Writes _ (overwrite 0 _ _ (slice buffer (h.pos - start) data.length)) _ _ _
          _ at hfollow
        rw [← hdata] at hfollow
        exact hfollow

/-- A step of the thread of a stream call that has not thrown. -/
theorem Streaming.step (hfreed : cfg.FreedIntact) (hs : Streaming cfg G D V n a before start h w)
    (hreg : w.Registered) (hmetered : h.Metered) (hstep : w.stepFile cfg n h = some w')
    (hcalm : Calm w') :
    GoesOn cfg n a before start h.fileId w w' ∨ Finishes cfg n a before start h.fileId w w' := by
  have hstage := hs.stage
  cases hpc : h.pc with
  | adjust => exact Or.inl (hs.adjust hpc hstep)
  | acquire caller => exact Or.inl (hs.acquire hreg hpc hstep hcalm)
  | evictRead caller loop => exact Or.inl (hs.evictRead hpc hstep hcalm)
  | evictPut caller loop buffer => exact Or.inl (hs.evictPut hpc hstep)
  | evictFinish caller loop => exact Or.inl (hs.evictFinish hreg hpc hstep hcalm)
  | extend => exact Or.inl (hs.extend hreg hmetered hpc hstep hcalm)
  | activate caller => exact Or.inl (hs.activate hfreed hreg hpc hstep hcalm)
  | wait => exact Or.inl (hs.wait hpc hstep)
  | ready => exact Or.inl (hs.ready hpc hstep hcalm)
  | transfer => exact Or.inl (hs.transfer hpc hstep)
  | advance count => exact hs.advance hreg hpc hstep hcalm
  | openManifest | regist | idle | flush | closed =>
      rw [hpc] at hstage
      exact hstage.elim
  | close isCancel =>
      rw [hpc] at hstage
      exact hstage.elim
  | deleteRemote isCancel blocks =>
      rw [hpc] at hstage
      exact hstage.elim

end World

end Gopherwood
