/-
# The steps of a stream call

Between two steps of a handle that reads or writes, the program counter says what
the next step relies on: which block is to come into the cache, which victim is
being evicted, or which bytes are on their way.
-/

import Gopherwood.Coherence.Frame

namespace Gopherwood

open Library (page slice overwrite)

/-- What is transferred but not counted yet: the stream has the bytes, and the position
follows in the next step. -/
def Pc.ahead : Pc → Nat
  | .advance count => count
  | _ => 0

namespace World

variable {cfg : Config} {G G' : Account} {V V' : Option Victim} {D D' : Option Draft} {w w' : World}
variable {n a : Nat} {h h' : FileActiveStatus} {before content : List UInt8} {start ahead : Nat}

/-- The call reads: it has received the bytes up to the position, and `ahead` more. -/
structure Reads (before content : List UInt8) (start ahead : Nat) (h : FileActiveStatus)
    (length : Nat) :
    Prop where
  call : h.stream.call = .read length
  transfer : h.stream.transfer = .read
  result : h.stream.result = ((min length (before.length - start) : Nat) : Int)
  content : content = before
  received : h.stream.received = slice before start (h.pos - start + ahead)
  left : h.pos + h.stream.bytesLeft = start + min length (before.length - start)

/-- The call writes: the file has the bytes up to the position, and `ahead` more are on
their way. -/
structure Writes (before content : List UInt8) (start ahead : Nat) (h : FileActiveStatus)
    (buffer : List UInt8) : Prop where
  call : h.stream.call = .write buffer
  transfer : h.stream.transfer = .write
  result : h.stream.result = (buffer.length : Int)
  received : h.stream.received = []
  writable : h.isWrite = true
  content : content = overwrite 0 before start (buffer.take (h.pos - start))
  pending : h.stream.pending = buffer.drop (h.pos - start + ahead)
  left : h.pos - start + h.stream.bytesLeft = buffer.length

/-- The stream loop of handle `h` began at `start`, when the file had the content `before`.
A call is explained by what it has received or stored since then, so the loop can be cut
between any two of its steps. -/
structure Progress (before content : List UInt8) (start ahead : Nat) (h : FileActiveStatus) :
    Prop where
  inside : start ≤ before.length
  begun : start ≤ h.pos
  pos : h.stream.pos = h.pos
  kind : (∃ length, Reads before content start ahead h length) ∨
    ∃ buffer, Writes before content start ahead h buffer

/-- The block is neither in the cache nor being loaded. -/
structure Missing (h : FileActiveStatus) (i : Nat) : Prop where
  key : i ∉ h.lruCache.keys
  loading : h.isBlockLoading i = false

/-- The block that `acquireNewBlocks` was called for. -/
def Target (cfg : Config) (h : FileActiveStatus) : Caller → Prop
  | .extend => h.isWrite = true ∧ h.blockArray.length * cfg.localBucketSize ≤ h.eof
  | .preActivate counter _ => Missing h (h.stream.curBlockId + counter)
  | .wait => Missing h h.stream.curBlockId

/-- The handle has the block of its position in a bucket, and nobody takes it away until the
transfer: an active bucket is not evicted. -/
structure AtBlock (cfg : Config) (G : Account) (h : FileActiveStatus) (a b : Nat) : Prop where
  current : h.stream.curBlockId = h.pos / cfg.localBucketSize
  held : (G.own b).holdOf a = some (.cached h.fileId h.stream.curBlockId)

/-- What is known before the next step of the thread of handle `h`, registered as `a`, whose
stream loop began at `start`. -/
def Stage (cfg : Config) (G : Account) (D : Option Draft) (V : Option Victim) (w : World)
    (h : FileActiveStatus) (a start : Nat) : Pc → Prop
  | .adjust => D = none ∧ V = none ∧ 0 < h.stream.bytesLeft
  | .acquire caller => D = none ∧ V = none ∧ 0 < h.stream.bytesLeft ∧ h.loadMutex = true ∧
      h.stream.curBlockId = h.pos / cfg.localBucketSize ∧ Target cfg h caller
  | .evictRead caller loop => D = none ∧ 0 < h.stream.bytesLeft ∧ h.loadMutex = true ∧
      h.stream.curBlockId = h.pos / cfg.localBucketSize ∧ Target cfg h caller ∧
      loop.evicting = true ∧ Site.Evicts (G.sizes cfg.localBucketSize) V loop
  | .evictPut caller loop buffer => D = none ∧ 0 < h.stream.bytesLeft ∧ h.loadMutex = true ∧
      h.stream.curBlockId = h.pos / cfg.localBucketSize ∧ Target cfg h caller ∧
      loop.evicting = true ∧ Site.Evicts (G.sizes cfg.localBucketSize) V loop ∧
      ∀ v, V = some v → buffer = G.image cfg.localBucketSize D v.file v.index
  | .evictFinish caller loop => D = none ∧ 0 < h.stream.bytesLeft ∧ h.loadMutex = true ∧
      h.stream.curBlockId = h.pos / cfg.localBucketSize ∧ Target cfg h caller ∧
      Site.Evicts (G.sizes cfg.localBucketSize) V loop ∧
      ∀ v, V = some v → w.oss v.file (some v.index) =
      some (G.image cfg.localBucketSize D v.file v.index)
  | .extend => D = none ∧ V = none ∧ 0 < h.stream.bytesLeft ∧ h.loadMutex = true ∧
      h.stream.curBlockId = h.pos / cfg.localBucketSize ∧ Target cfg h .extend
  | .activate caller => D = none ∧ V = none ∧ 0 < h.stream.bytesLeft ∧ h.loadMutex = true ∧
      h.stream.curBlockId = h.pos / cfg.localBucketSize ∧ caller ≠ .extend ∧ Target cfg h caller
  | .wait => D = none ∧ V = none ∧ 0 < h.stream.bytesLeft ∧
      h.stream.curBlockId = h.pos / cfg.localBucketSize
  | .ready => D = none ∧ V = none ∧ 0 < h.stream.bytesLeft ∧ ∃ b, AtBlock cfg G h a b
  | .transfer => D = none ∧ V = none ∧ 0 < h.stream.bytesLeft ∧ ∃ b, AtBlock cfg G h a b ∧
      h.stream.blockInfo =
        ⟨h.fileId, some h.stream.curBlockId, some b, (h.pos % cfg.localBucketSize : Nat), 0, true⟩
  | .advance count => V = none ∧ count ≤ h.stream.bytesLeft ∧
      (count < h.stream.bytesLeft → h.stream.needUpdate = true) ∧
      h.pos % cfg.localBucketSize + count ≤ cfg.localBucketSize ∧ ∃ b, AtBlock cfg G h a b ∧
      ((∃ length, h.stream.call = .read length ∧ D = none) ∨ ∃ buffer,
        h.stream.call = .write buffer ∧ D = some ⟨h.fileId, h.stream.curBlockId,
          overwrite 0 (page cfg.localBucketSize (G.content h.fileId) h.stream.curBlockId)
            (h.pos % cfg.localBucketSize) (slice buffer (h.pos - start) count)⟩)
  | _ => False

/-- Handle `n`, registered as `a`, is in a stream loop that began at `start`, when the files
had the content `before`. -/
structure Streaming (cfg : Config) (G : Account) (D : Option Draft) (V : Option Victim) (n a : Nat)
    (before : FileId → List UInt8) (start : Nat) (h : FileActiveStatus) (w : World) : Prop where
  coherent : Coherent cfg G D V n w
  handle : w.files[n]? = some h
  active : h.activeId = some a
  spares : h.isDelete = false
  others : ∀ g, g ≠ h.fileId → G.content g = before g
  progress : Progress (before h.fileId) (G.content h.fileId) start h.pc.ahead h
  stage : Stage cfg G D V w h a start h.pc

theorem Missing.congr {i : Nat} (hm : Missing h i)
    (hkeys : ∀ k ∈ h'.lruCache.keys, k ∈ h.lruCache.keys)
    (hloading : h'.loadingBuckets = h.loadingBuckets) : Missing h' i := by
  refine ⟨fun hi => hm.key (hkeys i hi), ?_⟩
  have hnot := hm.loading
  unfold FileActiveStatus.isBlockLoading at hnot ⊢
  rw [hloading]
  exact hnot

theorem Target.congr {caller : Caller} (ht : Target cfg h caller)
    (hkeys : ∀ k ∈ h'.lruCache.keys, k ∈ h.lruCache.keys)
    (hloading : h'.loadingBuckets = h.loadingBuckets) (hwrite : h'.isWrite = h.isWrite)
    (hlength : h'.blockArray.length = h.blockArray.length) (heof : h'.eof = h.eof)
    (hcur : h'.stream.curBlockId = h.stream.curBlockId) : Target cfg h' caller := by
  cases caller with
  | extend =>
      obtain ⟨hw, hle⟩ := ht
      refine ⟨hwrite.trans hw, ?_⟩
      rw [hlength, heof]
      exact hle
  | preActivate counter num =>
      unfold Target at ht ⊢
      rw [hcur]
      exact ht.congr hkeys hloading
  | wait =>
      unfold Target at ht ⊢
      rw [hcur]
      exact ht.congr hkeys hloading

/-- The progress does not depend on what the handle does besides. -/
theorem Progress.congr (hp : Progress before content start ahead h) (hpos : h'.pos = h.pos)
    (hwrite : h'.isWrite = h.isWrite) (hcall : h'.stream.call = h.stream.call)
    (htransfer : h'.stream.transfer = h.stream.transfer)
    (hresult : h'.stream.result = h.stream.result) (hpending : h'.stream.pending = h.stream.pending)
    (hreceived : h'.stream.received = h.stream.received)
    (hleft : h'.stream.bytesLeft = h.stream.bytesLeft) (hat : h'.stream.pos = h'.pos) :
    Progress before content start ahead h' := by
  refine ⟨hp.inside, hpos ▸ hp.begun, hat, hp.kind.imp ?_ ?_⟩
  · rintro ⟨length, hr⟩
    refine ⟨length, hcall.trans hr.call, htransfer.trans hr.transfer, hresult.trans hr.result,
      hr.content, ?_, ?_⟩
    · rw [hreceived, hpos]
      exact hr.received
    · rw [hpos, hleft]
      exact hr.left
  · rintro ⟨buffer, hw⟩
    refine ⟨buffer, hcall.trans hw.call, htransfer.trans hw.transfer, hresult.trans hw.result,
      hreceived.trans hw.received, hwrite.trans hw.writable, ?_, ?_, ?_⟩
    · rw [hpos]
      exact hw.content
    · rw [hpending, hpos]
      exact hw.pending
    · rw [hpos, hleft]
      exact hw.left

end World

end Gopherwood
