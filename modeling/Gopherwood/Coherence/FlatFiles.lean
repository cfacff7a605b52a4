/-
# Files without buckets

What the system is for: files that are lists of bytes, and handles that are positions
in them. There are no buckets here, no segment, no logs, no objects and no threads; a
call is served at once.
-/

import Gopherwood.Coherence.Leaving

namespace Gopherwood

open Library (slice overwrite)

/-- What a handle was opened for. -/
structure Holder where
  file : FileId
  destroys : Bool
  deriving DecidableEq

/-- A call on a handle; `none` opens it. -/
structure Request where
  handle : Nat
  call : Option Call

/-- What a call was. -/
def CallRecord.request (r : CallRecord) : Request := ⟨r.handle, r.call⟩

structure FlatFiles where
  content : FileId → List UInt8
  cursor : Nat → Nat

namespace FlatFiles

def empty : FlatFiles := ⟨fun _ => [], fun _ => 0⟩

/-- Handle `n` goes to `pos`. -/
def move (F : FlatFiles) (n pos : Nat) : FlatFiles :=
  { F with cursor := Function.update F.cursor n pos }

/-- File `f` has the bytes `data` from now on. -/
def fill (F : FlatFiles) (f : FileId) (data : List UInt8) : FlatFiles :=
  { F with content := Function.update F.content f data }

/-- Handle `n` goes to `target`, and returns it. -/
def seek (F : FlatFiles) (n : Nat) (target : Int) : Outcome × FlatFiles :=
  (.returned target [], F.move n target.toNat)

/-- Serve one call of handle `n`. -/
def answer (F : FlatFiles) (n : Nat) (holder : Holder) : Option Call → Outcome × FlatFiles
  | none => (.returned 0 [], F.move n 0)
  | some (.read length) =>
      let data := slice (F.content holder.file) (F.cursor n) length
      (.returned data.length data, F.move n (F.cursor n + data.length))
  | some (.write buffer) =>
      (.returned buffer.length [], (F.fill holder.file
        (overwrite 0 (F.content holder.file) (F.cursor n) buffer)).move n (F.cursor n +
          buffer.length))
  | some (.seekSet pos) => F.seek n pos
  | some (.seekCur pos) => F.seek n (F.cursor n + pos)
  | some (.seekEnd pos) => F.seek n ((F.content holder.file).length + pos)
  | some .flush => (.returned 0 [], F)
  | some (.close isCancel) =>
      (.returned 0 [], if holder.destroys || isCancel then F.fill holder.file [] else F)

/-- Serve calls one after the other. -/
def serve (who : Nat → Holder) : FlatFiles → List Request → List CallRecord × FlatFiles
  | F, [] => ([], F)
  | F, q :: rest =>
      let answered := F.answer q.handle (who q.handle) q.call
      let served := serve who answered.2 rest
      (⟨q.handle, q.call, answered.1⟩ :: served.1, served.2)

variable {who : Nat → Holder} {F : FlatFiles}

/-- One more call is served after the others. -/
theorem serve_append (F : FlatFiles) (calls : List Request) (q : Request) :
    serve who F (calls ++ [q]) =
      ((serve who F calls).1 ++
          [⟨q.handle, q.call, ((serve who F calls).2.answer q.handle (who q.handle) q.call).1⟩],
        ((serve who F calls).2.answer q.handle (who q.handle) q.call).2) := by
  induction calls generalizing F with
  | nil => rfl
  | cons p rest ih =>
      rw [List.cons_append, serve, ih]
      rfl

/-- The history `rs` is that of the calls in it, and leads to the files `F`. Calls are
served in the order in which they return. -/
def Explains (who : Nat → Holder) (F : FlatFiles) (rs : List CallRecord) : Prop :=
  serve who empty (rs.map CallRecord.request) = (rs, F)

theorem explains_nil : Explains who empty [] := rfl

theorem Explains.append {rs : List CallRecord} (h : F.Explains who rs) {r : CallRecord}
    {F' : FlatFiles} (hr : F.answer r.handle (who r.handle) r.call = (r.outcome, F')) :
    F'.Explains who (rs ++ [r]) := by
  unfold Explains at h ⊢
  rw [List.map_append, List.map_singleton, serve_append, h]
  change (rs ++ [⟨r.handle, r.call, (F.answer r.handle (who r.handle) r.call).1⟩],
    (F.answer r.handle (who r.handle) r.call).2) = _
  rw [hr]

/-- Only the handles that are called matter. -/
theorem serve_congr {who' : Nat → Holder} (F : FlatFiles) (calls : List Request)
    (h : ∀ q ∈ calls, who' q.handle = who q.handle) : serve who' F calls = serve who F calls := by
  induction calls generalizing F with
  | nil => rfl
  | cons q rest ih =>
      rw [serve, serve, h q List.mem_cons_self, ih _ fun p hp => h p (List.mem_cons_of_mem _ hp)]

theorem Explains.congr {who' : Nat → Holder} {rs : List CallRecord} (hF : F.Explains who rs)
    (h : ∀ r ∈ rs, who' r.handle = who r.handle) : F.Explains who' rs := by
  refine (serve_congr empty _ fun q hq => ?_).trans hF
  obtain ⟨r, hr, rfl⟩ := List.mem_map.mp hq
  exact h r hr

/-- Serving a call of one handle moves no other handle. -/
theorem answer_cursor {n m : Nat} {holder : Holder} {call : Option Call} (hm : m ≠ n) :
    (F.answer n holder call).2.cursor m = F.cursor m := by
  have hmove : ∀ (F' : FlatFiles) (pos : Nat), (F'.move n pos).cursor m = F'.cursor m :=
    fun F' pos => Function.update_of_ne hm _ _
  cases call with
  | none => exact hmove F _
  | some call =>
      cases call with
      | read length => exact hmove F _
      | write buffer => exact hmove (F.fill _ _) _
      | seekSet pos => exact hmove F _
      | seekCur pos => exact hmove F _
      | seekEnd pos => exact hmove F _
      | flush => rfl
      | close isCancel =>
          simp only [answer]
          split
          · rfl
          · rfl

/-- A file loses its bytes when a handle that destroys it leaves it. -/
theorem content_close (F : FlatFiles) (n : Nat) (holder : Holder) (isCancel : Bool) :
    (F.answer n holder (some (.close isCancel))).2.content =
      if holder.destroys || isCancel then Function.update F.content holder.file []
        else F.content := by
  simp only [answer]
  split
  · rfl
  · rfl

end FlatFiles

end Gopherwood
