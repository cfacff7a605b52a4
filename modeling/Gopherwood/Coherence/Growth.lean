/-
# Logs that grow

Records that others append to a log change its view, and with it what a handle
that has not read them yet is going to see. A file with one writer only grows: the
end of file in the log never falls, and a handle that has read every record that
sets it has the same one, but for the writer while the last block is active. Then
the bucket of that block has the end of file that counts.
-/

import Gopherwood.Coherence.Views
import Gopherwood.Journal.Numbering

namespace Gopherwood

/-- The types of record that set the end of file. -/
def RecordType.setsEof : RecordType → Bool
  | .extendBlock => true
  | .fullStatus => true
  | .updateEof => true
  | _ => false

/-- Some record sets the end of file. -/
def SetsEof (records : List Record) : Prop := ∃ x ∈ records, x.type.setsEof = true

/-- The last block is active. -/
def View.LastActive (v : View) : Prop :=
  ∃ y, v.blockArray[v.blockArray.length - 1]? = some y ∧ y.isLocal = true ∧ y.state = .active

/-- Where a file of `n` blocks ends, if the blocks have `sizes`. -/
def endOf (size : Nat) (sizes : Nat → Nat) (n : Nat) : Nat := (n - 1) * size + sizes (n - 1)

/-- The end of file lies in the last block, and no further than the data. -/
structure View.Fits (size : Nat) (sizes : Nat → Nat) (v : View) : Prop where
  lower : (v.blockArray.length - 1) * size ≤ v.eof
  upper : v.eof ≤ v.blockArray.length * size
  within : v.eof ≤ endOf size sizes v.blockArray.length

theorem View.Fits.congr {size : Nat} {sizes : Nat → Nat} {v v' : View} (h : v.Fits size sizes)
    (hlength : v'.blockArray.length = v.blockArray.length) (heof : v'.eof = v.eof) :
    v'.Fits size sizes := by
  refine ⟨?_, ?_, ?_⟩
  · rw [hlength, heof]
    exact h.lower
  · rw [hlength, heof]
    exact h.upper
  · rw [hlength, heof]
    exact h.within

/-- One block more, of which nothing is written. -/
theorem View.Fits.extended {size n : Nat} {sizes : Nat → Nat} {v : View}
    (hlength : v.blockArray.length = n + 1) (hempty : sizes n = 0) (hlower : n * size ≤ v.eof)
    (hupper : v.eof ≤ n * size) : v.Fits size sizes := by
  refine ⟨?_, ?_, ?_⟩
  · rw [hlength, Nat.add_sub_cancel]
    exact hlower
  · rw [hlength, Nat.succ_mul]
    exact Nat.le_add_right_of_le hupper
  · rw [hlength, endOf, Nat.add_sub_cancel, hempty]
    exact hupper

/-- Blocks get no smaller. -/
theorem View.Fits.mono {size : Nat} {sizes sizes' : Nat → Nat} {v : View} (h : v.Fits size sizes)
    (hle : ∀ i, sizes i ≤ sizes' i) : v.Fits size sizes' :=
  ⟨h.lower, h.upper, Nat.le_trans h.within (Nat.add_le_add_left (hle _) _)⟩

/-- The end of the data lies in the last block. -/
theorem endOf_le {size : Nat} {sizes : Nat → Nat} {n : Nat} (hsize : ∀ i, sizes i ≤ size)
    (hn : 0 < n) :
    endOf size sizes n ≤ n * size := by
  obtain ⟨m, rfl⟩ : ∃ m, n = m + 1 := Nat.exists_eq_add_one.mpr hn
  rw [endOf, Nat.add_sub_cancel, Nat.succ_mul]
  exact Nat.add_le_add_left (hsize m) _

/-- A view that knows all the data. -/
theorem View.Fits.full {size : Nat} {sizes : Nat → Nat} {v : View} (hsize : ∀ i, sizes i ≤ size)
    (hn : 0 < v.blockArray.length) :
    View.Fits size sizes ⟨v.blockArray, endOf size sizes v.blockArray.length⟩ :=
  ⟨Nat.le_add_right _ _, endOf_le hsize hn, Nat.le_refl _⟩

section Replay

variable {v v' r r' : View} {x : Record} {records : List Record}

theorem replaceBlock_eof {test : Block → Bool} {e : GwError} {blocks : List Block}
    (h : replaceBlock test e v blocks = .ok v') :
    v'.eof = v.eof ∧ v'.blockArray.length = v.blockArray.length := by
  unfold replaceBlock at h
  split at h
  · cases h
  · split at h
    · cases h
    · split at h
      · cases h
      · split at h
        · cases h
          exact ⟨rfl, List.length_set⟩
        · cases h

theorem setBlockStates_length {state : BucketType} {ids : List (Option Nat)} :
    ∀ {xs ys : List Block}, ids.foldlM (setBlockState state) xs = .ok ys →
    ys.length = xs.length := by
  induction ids with
  | nil =>
      intro xs ys h
      cases h
      rfl
  | cons id rest ih =>
      intro xs ys h
      rw [List.foldlM_cons] at h
      cases hfirst : setBlockState state xs id with
      | error e =>
          rw [hfirst] at h
          cases h
      | ok mid =>
          rw [hfirst] at h
          have hmid : mid.length = xs.length := by
            unfold setBlockState at hfirst
            split at hfirst
            · split at hfirst
              · cases hfirst
                exact List.length_modify _ _ _
              · cases hfirst
            · cases hfirst
          exact (ih h).trans hmid

/-- What a record does to the end of file, and to the number of blocks. -/
theorem replayRecord_eof (h : replayRecord v x = .ok v') :
    v'.eof = (if x.type.setsEof then x.eof else v.eof) ∧
      v.blockArray.length ≤ v'.blockArray.length ∧
      (x.type.setsEof = false → v'.blockArray.length = v.blockArray.length) := by
  obtain ⟨type, eof, blocks⟩ := x
  -- a record that neither sets the end of file nor adds blocks
  have hsame : v'.eof = v.eof ∧ v'.blockArray.length = v.blockArray.length → type.setsEof = false →
      v'.eof = (if type.setsEof then eof else v.eof) ∧
        v.blockArray.length ≤ v'.blockArray.length ∧
        (type.setsEof = false → v'.blockArray.length = v.blockArray.length) := by
    rintro ⟨heof, hlength⟩ htype
    rw [htype, heof]
    exact ⟨rfl, Nat.le_of_eq hlength.symm, fun _ => hlength⟩
  have hstates : ∀ state : BucketType,
      (do
        let blocks ← (blocks.map Block.blockId).foldlM (setBlockState state) v.blockArray
        return { v with blockArray := blocks } : Except GwError View) = .ok v' →
      v'.eof = v.eof ∧ v'.blockArray.length = v.blockArray.length := by
    intro state hstate
    cases hfold : (blocks.map Block.blockId).foldlM (setBlockState state) v.blockArray with
    | error e =>
        rw [hfold] at hstate
        cases hstate
    | ok ys =>
        rw [hfold] at hstate
        cases hstate
        exact ⟨rfl, setBlockStates_length hfold⟩
  cases type with
  | activeBlock => exact hsame (hstates .active h) rfl
  | inactiveBlock => exact hsame (hstates .used h) rfl
  | acquireNewBlock =>
      cases h
      exact ⟨rfl, Nat.le_refl _, fun _ => rfl⟩
  | releaseBlock =>
      cases h
      exact ⟨rfl, Nat.le_refl _, fun _ => rfl⟩
  | extendBlock =>
      cases blocks with
      | nil => cases h
      | cons block rest =>
          cases h
          exact ⟨rfl, by simp, fun hsets => by cases hsets⟩
  | evictBlock => exact hsame (replaceBlock_eof h) rfl
  | loadBlock => exact hsame (replaceBlock_eof h) rfl
  | fullStatus =>
      cases h
      exact ⟨rfl, by simp, fun hsets => by cases hsets⟩
  | updateEof =>
      cases h
      exact ⟨rfl, Nat.le_refl _, fun _ => rfl⟩

theorem replay_length (h : replay v records = .ok v') :
    v.blockArray.length ≤ v'.blockArray.length := by
  induction records generalizing v with
  | nil =>
      cases h
      exact Nat.le_refl _
  | cons x rest ih =>
      rcases replay_cons_cases v x rest with ⟨e, -, herror⟩ | ⟨mid, hmid, hrest⟩
      · rw [herror] at h
        cases h
      · rw [hrest] at h
        exact Nat.le_trans (replayRecord_eof hmid).2.1 (ih h)

/-- Without a record that sets it, the end of file stays, and so does the number of
blocks. -/
theorem replay_eof_same (h : replay v records = .ok v') (hnone : ¬ SetsEof records) :
    v'.eof = v.eof ∧ v'.blockArray.length = v.blockArray.length := by
  induction records generalizing v with
  | nil =>
      cases h
      exact ⟨rfl, rfl⟩
  | cons x rest ih =>
      rcases replay_cons_cases v x rest with ⟨e, -, herror⟩ | ⟨mid, hmid, hrest⟩
      · rw [herror] at h
        cases h
      · rw [hrest] at h
        have hx : x.type.setsEof = false := by
          rw [Bool.eq_false_iff]
          exact fun hx => hnone ⟨x, List.mem_cons_self, hx⟩
        obtain ⟨heof, -, hlength⟩ := replayRecord_eof hmid
        rw [if_neg (by simp [hx])] at heof
        have hrest : ¬ SetsEof rest := fun ⟨y, hy, hsets⟩ =>
          hnone ⟨y, List.mem_cons_of_mem _ hy, hsets⟩
        obtain ⟨heof', hlength'⟩ := ih h hrest
        exact ⟨heof'.trans heof, hlength'.trans (hlength hx)⟩

/-- A record that sets the end of file sets it for every reader. -/
theorem replay_eof_set (h : replay v records = .ok v') (hr : replay r records = .ok r')
    (hsets : SetsEof records) : v'.eof = r'.eof := by
  induction records generalizing v r with
  | nil =>
      obtain ⟨x, hx, -⟩ := hsets
      cases hx
  | cons x rest ih =>
      rcases replay_cons_cases v x rest with ⟨e, -, herror⟩ | ⟨mid, hmid, hrest⟩
      · rw [herror] at h
        cases h
      rcases replay_cons_cases r x rest with ⟨e, -, herror⟩ | ⟨mid', hmid', hrest'⟩
      · rw [herror] at hr
        cases hr
      rw [hrest] at h
      rw [hrest'] at hr
      by_cases hlater : SetsEof rest
      · exact ih h hr hlater
      · obtain ⟨y, hy, hyset⟩ := hsets
        rcases List.mem_cons.mp hy with rfl | hy
        · have hv := (replayRecord_eof hmid).1
          have hr' := (replayRecord_eof hmid').1
          rw [if_pos hyset] at hv hr'
          rw [(replay_eof_same h hlater).1, (replay_eof_same hr hlater).1, hv, hr']
        · exact absurd ⟨y, hy, hyset⟩ hlater

end Replay

theorem modify_concat {xs : List Block} {i : Nat} (hlt : i < xs.length) (f : Block → Block)
    (b : Block) :
    (xs ++ [b]).modify i f = xs.modify i f ++ [b] := by
  refine List.ext_getElem? fun j => ?_
  simp only [List.getElem?_modify, List.getElem?_append, List.length_modify]
  by_cases hj : j < xs.length
  · simp [hj]
  · have hij : i ≠ j := by omega
    simp [hj, hij]

theorem setBlockStates_concat {state : BucketType} {ids : List (Option Nat)} (b : Block) :
    ∀ {xs ys : List Block}, ids.foldlM (setBlockState state) xs = .ok ys →
      ids.foldlM (setBlockState state) (xs ++ [b]) = .ok (ys ++ [b]) := by
  induction ids with
  | nil =>
      intro xs ys h
      cases h
      rfl
  | cons id rest ih =>
      intro xs ys h
      rw [List.foldlM_cons] at h ⊢
      cases id with
      | none => cases h
      | some i =>
          by_cases hlt : i < xs.length
          · have hlt' : i < (xs ++ [b]).length := by
              rw [List.length_append]
              omega
            simp only [setBlockState, if_pos hlt] at h
            simp only [setBlockState, if_pos hlt', modify_concat hlt]
            exact ih h
          · simp only [setBlockState, if_neg hlt] at h
            cases h

theorem replaceBlock_concat {test : Block → Bool} {e : GwError} {v v' : View} {blocks : List Block}
    (b : Block) (h : replaceBlock test e v blocks = .ok v') :
    replaceBlock test e { v with blockArray := v.blockArray ++ [b] } blocks =
      .ok { v' with blockArray := v'.blockArray ++ [b] } := by
  cases blocks with
  | nil => cases h
  | cons block rest =>
      simp only [replaceBlock] at h ⊢
      cases hid : block.blockId with
      | none =>
          rw [hid] at h
          cases h
      | some i =>
          rw [hid] at h
          dsimp only at h ⊢
          cases hy : v.blockArray[i]? with
          | none =>
              rw [hy] at h
              cases h
          | some y =>
              have hlt := (List.getElem?_eq_some_iff.mp hy).1
              rw [hy] at h
              rw [List.getElem?_append_left hlt, hy]
              dsimp only at h ⊢
              split at h
              · next hpass =>
                  cases h
                  rw [if_pos hpass, List.set_append_left _ _ hlt]
              · cases h

/-- A record that adds no block can be replayed under a block more. -/
theorem replayRecord_concat {v v' : View} {x : Record} (b : Block) (h : replayRecord v x = .ok v')
    (hlength : v'.blockArray.length = v.blockArray.length) :
    replayRecord { v with blockArray := v.blockArray ++ [b] } x =
      .ok { v' with blockArray := v'.blockArray ++ [b] } := by
  obtain ⟨type, eof, blocks⟩ := x
  have hstates : ∀ state : BucketType,
      (do
        let blocks ← (blocks.map Block.blockId).foldlM (setBlockState state) v.blockArray
        return { v with blockArray := blocks } : Except GwError View) = .ok v' →
      (do
        let blocks ← (blocks.map Block.blockId).foldlM (setBlockState state) (v.blockArray ++ [b])
        return { v with blockArray := blocks } : Except GwError View) =
          .ok { v' with blockArray := v'.blockArray ++ [b] } := by
    intro state hstate
    cases hfold : (blocks.map Block.blockId).foldlM (setBlockState state) v.blockArray with
    | error e =>
        rw [hfold] at hstate
        cases hstate
    | ok ys =>
        rw [hfold] at hstate
        cases hstate
        rw [setBlockStates_concat b hfold]
        rfl
  cases type with
  | activeBlock => exact hstates .active h
  | inactiveBlock => exact hstates .used h
  | acquireNewBlock =>
      cases h
      rfl
  | releaseBlock =>
      cases h
      rfl
  | extendBlock =>
      cases blocks with
      | nil => cases h
      | cons block rest =>
          cases h
          rw [List.length_append, List.length_singleton] at hlength
          omega
  | evictBlock => exact replaceBlock_concat b h
  | loadBlock => exact replaceBlock_concat b h
  | fullStatus =>
      cases h
      obtain rfl : blocks = [] := by simpa using hlength
      simp [replayRecord]
  | updateEof =>
      cases h
      rfl

/-- A handle that has noted a block of its own replays what others wrote before. -/
theorem replay_concat {v v' : View} {records : List Record} (b : Block)
    (h : replay v records = .ok v') (hlength : v'.blockArray.length = v.blockArray.length) :
    replay { v with blockArray := v.blockArray ++ [b] } records =
      .ok { v' with blockArray := v'.blockArray ++ [b] } := by
  induction records generalizing v with
  | nil =>
      cases h
      rfl
  | cons x rest ih =>
      rcases replay_cons_cases v x rest with ⟨e, -, herror⟩ | ⟨mid, hmid, hrest⟩
      · rw [herror] at h
        cases h
      · rw [hrest] at h
        -- no record of the sequence adds a block
        have hfirst := (replayRecord_eof hmid).2.1
        have hlater := replay_length h
        have hmidlength : mid.blockArray.length = v.blockArray.length := by omega
        exact replay_cons_ok (replayRecord_concat b hmid hmidlength) (ih h (by omega))

/-! ## What appended records do to a view -/

/-- What a critical section may do to the end of file in a log. The writer of a file may
move it; everybody else publishes it where the last block of the file ends. -/
structure Licence where
  /-- The log is that of the handle. -/
  own : Prop
  /-- At most one handle writes the file. -/
  sole : Prop
  /-- The handle writes the file. -/
  writes : Prop
  /-- Where the data of a number of blocks ends. -/
  shared : Nat → Nat

/-- The end of file is set as the licence allows: where one handle writes the file it
does not fall, and the others add no block and set it to where the data ends. -/
structure Licence.Allows (L : Licence) (r r' : View) : Prop where
  own : L.own
  rise : L.sole → r.eof ≤ r'.eof
  reader : L.sole → L.writes ∨
    r'.blockArray.length = r.blockArray.length ∧ L.shared r'.blockArray.length ≤ r'.eof

namespace Licence.Allows

variable {L : Licence} {r r' r'' : View}

theorem congr_left (h : L.Allows r' r'') (heof : r'.eof = r.eof)
    (hlength : r'.blockArray.length = r.blockArray.length) : L.Allows r r'' :=
  ⟨h.own, fun hs => heof ▸ h.rise hs, fun hs => (h.reader hs).imp id
  fun hr => ⟨hr.1.trans hlength, hr.2⟩⟩

theorem congr_right (h : L.Allows r r') (heof : r''.eof = r'.eof)
    (hlength : r''.blockArray.length = r'.blockArray.length) : L.Allows r r'' :=
  ⟨h.own, fun hs => heof ▸ h.rise hs,
    fun hs => (h.reader hs).imp id fun hr =>
    ⟨hlength.trans hr.1, by rw [hlength, heof]; exact hr.2⟩⟩

theorem trans (h : L.Allows r r') (h' : L.Allows r' r'') : L.Allows r r'' := by
  refine ⟨h.own, fun hs => Nat.le_trans (h.rise hs) (h'.rise hs), fun hs => ?_⟩
  rcases h.reader hs with hwrites | hfirst
  · exact Or.inl hwrites
  · exact (h'.reader hs).imp id fun hsecond => ⟨hsecond.1.trans hfirst.1, hsecond.2⟩

end Licence.Allows

/-- The records lead from the view `r` of a log to `r'`. Either they set the end of
file as the licence allows, or they leave it, and the last block active if it is. -/
structure Settles (L : Licence) (r : View) (records : List Record) (r' : View) : Prop where
  replays : replay r records = .ok r'
  eof : ¬ SetsEof records ∧ (r.LastActive → r'.LastActive) ∨ SetsEof records ∧ L.Allows r r'

theorem SetsEof.append_left {first : List Record} (h : SetsEof first) (second : List Record) :
    SetsEof (first ++ second) := by
  obtain ⟨x, hx, hsets⟩ := h
  exact ⟨x, List.mem_append_left _ hx, hsets⟩

theorem SetsEof.append_right {second : List Record} (first : List Record) (h : SetsEof second) :
    SetsEof (first ++ second) := by
  obtain ⟨x, hx, hsets⟩ := h
  exact ⟨x, List.mem_append_right _ hx, hsets⟩

theorem not_setsEof_nil : ¬ SetsEof [] := fun ⟨_, hx, _⟩ => List.not_mem_nil hx

theorem not_setsEof_append {first second : List Record} (h : ¬ SetsEof first)
    (h' : ¬ SetsEof second) :
    ¬ SetsEof (first ++ second) := by
  rintro ⟨x, hx, hsets⟩
  rcases List.mem_append.mp hx with hx | hx
  · exact h ⟨x, hx, hsets⟩
  · exact h' ⟨x, hx, hsets⟩

theorem setsEof_singleton {x : Record} : SetsEof [x] ↔ x.type.setsEof = true :=
  ⟨fun ⟨_, hy, hsets⟩ => List.mem_singleton.mp hy ▸ hsets,
  fun hsets => ⟨x, List.mem_singleton_self x, hsets⟩⟩

namespace Settles

variable {L : Licence} {r r' r'' : View} {first second : List Record} {x : Record}

theorem refl (L : Licence) (r : View) : Settles L r [] r :=
  ⟨rfl, Or.inl ⟨not_setsEof_nil, id⟩⟩

theorem trans (h : Settles L r first r') (h' : Settles L r' second r'') :
    Settles L r (first ++ second) r'' := by
  refine ⟨?_, ?_⟩
  · rw [replay_append, h.replays]
    exact h'.replays
  · rcases h.eof with ⟨hnone, hactive⟩ | ⟨hsets, hallows⟩
    · obtain ⟨heof, hlength⟩ := replay_eof_same h.replays hnone
      rcases h'.eof with ⟨hnone', hactive'⟩ | ⟨hsets', hallows'⟩
      · exact Or.inl ⟨not_setsEof_append hnone hnone', hactive' ∘ hactive⟩
      · exact Or.inr ⟨hsets'.append_right _, hallows'.congr_left heof hlength⟩
    · refine Or.inr ⟨hsets.append_left _, ?_⟩
      rcases h'.eof with ⟨hnone', -⟩ | ⟨-, hallows'⟩
      · obtain ⟨heof, hlength⟩ := replay_eof_same h'.replays hnone'
        exact hallows.congr_right heof hlength
      · exact hallows.trans hallows'

/-- A record that does not set the end of file. -/
theorem quiet (hreplay : replayRecord r x = .ok r') (hquiet : x.type.setsEof = false)
    (hactive : r.LastActive → r'.LastActive) : Settles L r [x] r' := by
  refine ⟨replay_cons_ok hreplay rfl, Or.inl ⟨?_, hactive⟩⟩
  rw [setsEof_singleton, hquiet]
  exact Bool.false_ne_true

theorem acquireNewBlock (L : Licence) (r : View) (eof : Nat) (blocks : List Block) :
    Settles L r [⟨.acquireNewBlock, eof, blocks⟩] r :=
  quiet rfl rfl id

theorem releaseBlock (L : Licence) (r : View) (eof : Nat) (blocks : List Block) :
    Settles L r [⟨.releaseBlock, eof, blocks⟩] r :=
  quiet rfl rfl id

theorem updateEof {eof : Nat} (blocks : List Block) (h : L.Allows r { r with eof := eof }) :
    Settles L r [⟨.updateEof, eof, blocks⟩] { r with eof := eof } :=
  ⟨rfl, Or.inr ⟨setsEof_singleton.mpr rfl, h⟩⟩

theorem extendBlock {eof : Nat} {block : Block} (h : L.Allows r ⟨r.blockArray ++ [block], eof⟩) :
    Settles L r [⟨.extendBlock, eof, [block]⟩] ⟨r.blockArray ++ [block], eof⟩ :=
  ⟨rfl, Or.inr ⟨setsEof_singleton.mpr rfl, h⟩⟩

theorem fullStatus (eof : Nat) (blocks : List Block) :
    replay .empty [⟨.fullStatus, eof, blocks⟩] = .ok ⟨blocks, eof⟩ := rfl

/-- One block changes, and stays active if it is the last and active. -/
theorem lastActive_of {ys : List Block} {i eof : Nat} (hlength : ys.length = r.blockArray.length)
    (hother : ∀ j, j ≠ i → ys[j]? = r.blockArray[j]?)
    (hsame : ∀ y, r.blockArray[i]? = some y → y.isLocal = true → y.state = .active →
      ∃ z, ys[i]? = some z ∧ z.isLocal = true ∧ z.state = .active) (h : r.LastActive) :
    View.LastActive ⟨ys, eof⟩ := by
  obtain ⟨y, hy, hlocal, hactive⟩ := h
  unfold View.LastActive
  dsimp only
  rw [hlength]
  by_cases hi : r.blockArray.length - 1 = i
  · rw [hi] at hy ⊢
    exact hsame y hy hlocal hactive
  · rw [hother _ hi]
    exact ⟨y, hy, hlocal, hactive⟩

theorem activeBlock (L : Licence) {block : Block} {i : Nat} (eof : Nat)
    (hi : block.blockId = some i) (hlt : i < r.blockArray.length) :
    Settles L r [⟨.activeBlock, eof, [block]⟩]
      { r with blockArray := r.blockArray.modify i fun y => { y with state := .active } } := by
  refine quiet ?_ rfl ?_
  · simp only [replayRecord, List.map_singleton, List.foldlM_cons, List.foldlM_nil, setBlockState,
      hi, if_pos hlt]
    rfl
  · apply lastActive_of (i := i) (List.length_modify _ _ _)
    · intro j hj
      exact List.getElem?_modify_ne _ _ (Ne.symm hj)
    · intro y hy hlocal _
      exact ⟨{ y with state := .active }, by simp [hy], hlocal, rfl⟩

theorem evictBlock (L : Licence) {block y : Block} {i : Nat} (eof : Nat)
    (hi : block.blockId = some i) (hy : r.blockArray[i]? = some y) (hlocal : y.isLocal = true)
    (hused : y.state = .used) :
    Settles L r [⟨.evictBlock, eof, [block]⟩]
    { r with blockArray := r.blockArray.set i block } := by
  refine quiet ?_ rfl ?_
  · simp only [replayRecord, replaceBlock, hi, hy, hlocal, hused]
    rfl
  · apply lastActive_of List.length_set
    · intro j hj
      rw [List.getElem?_set_ne (Ne.symm hj)]
    · intro z hz _ hactive
      cases hy.symm.trans hz
      rw [hused] at hactive
      cases hactive

theorem loadBlock (L : Licence) {block y : Block} {i : Nat} (eof : Nat)
    (hi : block.blockId = some i) (hy : r.blockArray[i]? = some y) (hremote : y.isLocal = false) :
    Settles L r [⟨.loadBlock, eof, [block]⟩] { r with blockArray := r.blockArray.set i block } := by
  refine quiet ?_ rfl ?_
  · simp only [replayRecord, replaceBlock, hi, hy, hremote]
    rfl
  · apply lastActive_of List.length_set
    · intro j hj
      rw [List.getElem?_set_ne (Ne.symm hj)]
    · intro z hz hlocal _
      cases hy.symm.trans hz
      rw [hremote] at hlocal
      cases hlocal

end Settles

/-- Blocks that are not listed keep their state. -/
theorem setBlockStates_other {state : BucketType} {ids : List (Option Nat)} {i : Nat} :
    ∀ {xs ys : List Block}, ids.foldlM (setBlockState state) xs = .ok ys → some i ∉ ids →
      ys[i]? = xs[i]? := by
  induction ids with
  | nil =>
      intro xs ys h _
      cases h
      rfl
  | cons id rest ih =>
      intro xs ys h hi
      rw [List.foldlM_cons] at h
      cases hfirst : setBlockState state xs id with
      | error e =>
          rw [hfirst] at h
          cases h
      | ok mid =>
          rw [hfirst] at h
          rw [ih h fun hmem => hi (List.mem_cons_of_mem _ hmem)]
          unfold setBlockState at hfirst
          split at hfirst
          · next j =>
              split at hfirst
              · cases hfirst
                have hne : j ≠ i := by
                  rintro rfl
                  exact hi List.mem_cons_self
                exact List.getElem?_modify_ne _ _ hne
              · cases hfirst
          · cases hfirst

/-- A listed block is one of the array. -/
theorem setBlockStates_mem {state : BucketType} {ids : List (Option Nat)} {i : Nat} :
    ∀ {xs ys : List Block}, ids.foldlM (setBlockState state) xs = .ok ys → some i ∈ ids →
      ∃ y, xs[i]? = some y := by
  induction ids with
  | nil =>
      intro xs ys _ hi
      cases hi
  | cons id rest ih =>
      intro xs ys h hi
      rw [List.foldlM_cons] at h
      cases hfirst : setBlockState state xs id with
      | error e =>
          rw [hfirst] at h
          cases h
      | ok mid =>
          rw [hfirst] at h
          unfold setBlockState at hfirst
          split at hfirst
          · next j =>
              split at hfirst
              · next hlt =>
                  cases hfirst
                  rcases List.mem_cons.mp hi with heq | hrest
                  · cases heq
                    exact ⟨xs[i], List.getElem?_eq_getElem hlt⟩
                  · obtain ⟨y, hy⟩ := ih h hrest
                    have hlt' := (List.getElem?_eq_some_iff.mp hy).1
                    rw [List.length_modify] at hlt'
                    exact ⟨xs[i], List.getElem?_eq_getElem hlt'⟩
              · cases hfirst
          · cases hfirst

/-! ## Folders that grow -/

/-- Every log of `d` is continued in `d'`, within the licence that it has. A handle that
rests needs no more than this to find its way when it reads on. -/
structure ManifestFolder.Grows (L : Nat → Licence) (d d' : ManifestFolder) : Prop where
  links : d'.links = d.links
  files : d'.files.length = d.files.length
  content : ∀ k es r, d.content k = logBytes es → replay .empty (es.map LogEntry.record) = .ok r →
    ∃ new r', d'.content k = logBytes (es ++ new) ∧ Settles (L k) r (new.map LogEntry.record) r'

namespace ManifestFolder.Grows

variable {L : Nat → Licence} {d d' d'' : ManifestFolder}

theorem refl (L : Nat → Licence) (d : ManifestFolder) : Grows L d d :=
  ⟨rfl, rfl, fun _ es r hcontent _ => ⟨[], r, by rw [List.append_nil]; exact hcontent, .refl _ _⟩⟩

theorem replay_extended {es new : List LogEntry} {r r' : View} {K : Licence}
    (hreplay : replay .empty (es.map LogEntry.record) = .ok r)
    (hsettles : Settles K r (new.map LogEntry.record) r') :
    replay .empty ((es ++ new).map LogEntry.record) = .ok r' := by
  rw [List.map_append, replay_append, hreplay]
  exact hsettles.replays

theorem trans (first : Grows L d d') (second : Grows L d' d'') : Grows L d d'' := by
  refine ⟨second.links.trans first.links, second.files.trans first.files, ?_⟩
  intro k es r hcontent hreplay
  obtain ⟨new, r', hnew, hsettles⟩ := first.content k es r hcontent hreplay
  obtain ⟨new', r'', hnew', hsettles'⟩ :=
    second.content k (es ++ new) r' hnew (replay_extended hreplay hsettles)
  refine ⟨new ++ new', r'', by rw [hnew', List.append_assoc], ?_⟩
  rw [List.map_append]
  exact hsettles.trans hsettles'

/-- One record is appended to a log. -/
theorem mfWrite {fd : Descriptor} {entry : LogEntry} {es : List LogEntry} {r r' : View}
    (hfile : fd.file < d.files.length) (hcontent : d.content fd.file = logBytes es)
    (hoffset : fd.offset = (logBytes es).length)
    (hreplay : replay .empty (es.map LogEntry.record) = .ok r)
    (hsettles : Settles (L fd.file) r [entry.record] r') : Grows L d (d.mfWrite fd entry).1 := by
  refine ⟨rfl, length_files_mfWrite, fun k es' r₁ hcontent' hreplay' => ?_⟩
  by_cases hk : k = fd.file
  · subst hk
    obtain rfl := logBytes_injective (hcontent.symm.trans hcontent')
    obtain rfl : r = r₁ := Except.ok.inj (hreplay.symm.trans hreplay')
    refine ⟨[entry], r', ?_, hsettles⟩
    rw [content_mfWrite_end fd entry hfile (by rw [hoffset, hcontent]), hcontent, logBytes_append]
  · refine ⟨[], r₁, ?_, .refl _ _⟩
    rw [content_mfWrite_other fd entry hk, List.append_nil]
    exact hcontent'

end ManifestFolder.Grows

namespace FileActiveStatus

/-- If catching up returns, every pending record was replayed. -/
theorem catchUp_replays {c c' : Ctx} {fd : Descriptor} {done pending : List LogEntry}
    (hfd : c.self.fd = some fd) (hat : fd.At c.folder done pending)
    (hrun : catchUpManifestLogs c = .ok () c') :
    ∃ v, replay c.self.view (pending.map LogEntry.record) = .ok v ∧
      c' = c.caughtUp ⟨fd.file, (logBytes (done ++ pending)).length⟩ pending v := by
  rcases catchUp_cases hfd hat (catchUp_fits hfd hat hrun) with
    ⟨v, hv, hok⟩ | ⟨e, mid, before, last, rest, -, -, -, herror⟩
  · rw [hok] at hrun
    cases hrun
    exact ⟨v, hv, rfl⟩
  · rw [herror] at hrun
    cases hrun

/-- The end of file of a handle that has read every record that sets it: only the
writer may know more than the log, while the last block is active. -/
def Knows (writes : Prop) (eof : Nat) (R : View) : Prop :=
  eof = R.eof ∨ writes ∧ R.LastActive ∧ R.eof ≤ eof

/-- The handle has replayed the records `done` of the log `k`, whose view is `R`, and
is going to replay `pending`; `sole` if at most one handle writes the file. -/
structure Follows (lags sole : Prop) (d : ManifestFolder) (k : Nat) (done pending : List LogEntry)
    (R : View) (h : FileActiveStatus) : Prop where
  fd : h.fd = some ⟨k, (logBytes done).length⟩
  content : d.content k = logBytes (done ++ pending)
  replayed : replay .empty ((done ++ pending).map LogEntry.record) = .ok R
  read : ∃ r, replay .empty (done.map LogEntry.record) = .ok r ∧
    Shadows lags h.blockArray r.blockArray
  eof : sole → SetsEof (pending.map LogEntry.record) ∧ h.eof ≤ R.eof ∨
    ¬ SetsEof (pending.map LogEntry.record) ∧ Knows (h.isWrite = true) h.eof R
  whole : sole → h.isWrite = true → h.blockArray.length = R.blockArray.length

namespace Follows

variable {lags sole : Prop} {size k : Nat} {sizes : Nat → Nat} {d d' : ManifestFolder}
variable {done pending : List LogEntry} {R : View} {h : FileActiveStatus}

/-- The pending records lead from what the handle has read to the view of the log. -/
theorem rest (hh : h.Follows lags sole d k done pending R) :
    ∃ r, replay .empty (done.map LogEntry.record) = .ok r ∧ Shadows lags h.blockArray r.blockArray ∧
      replay r (pending.map LogEntry.record) = .ok R := by
  obtain ⟨r, hr, hshadows⟩ := hh.read
  have hall := hh.replayed
  rw [List.map_append, replay_append, hr] at hall
  exact ⟨r, hr, hshadows, hall⟩

/-- What the handle sees once it has replayed the pending records. -/
theorem caughtUp {v : View} (hh : h.Follows lags sole d k done pending R)
    (hreplay : replay h.view (pending.map LogEntry.record) = .ok v) :
    Shadows lags v.blockArray R.blockArray ∧
      (sole → Knows (h.isWrite = true) v.eof R ∧ h.eof ≤ v.eof) ∧
      (R.Fits size sizes → h.view.Fits size sizes → v.Fits size sizes) := by
  obtain ⟨r, -, hshadows, hrest⟩ := hh.rest
  obtain ⟨v', hv', hshadows'⟩ := replay_shadows (v := h.view) hshadows hrest
  obtain rfl : v = v' := Except.ok.inj (hreplay.symm.trans hv')
  by_cases hsets : SetsEof (pending.map LogEntry.record)
  · have heof := replay_eof_set hreplay hrest hsets
    refine ⟨hshadows', fun hsole => ⟨Or.inl heof, ?_⟩, fun hR _ => hR.congr hshadows'.length heof⟩
    rcases hh.eof hsole with ⟨-, hle⟩ | ⟨hquiet, -⟩
    · exact heof ▸ hle
    · exact absurd hsets hquiet
  · obtain ⟨heof, hlength⟩ := replay_eof_same hreplay hsets
    refine ⟨hshadows', fun hsole => ⟨?_, Nat.le_of_eq heof.symm⟩, fun _ hh => hh.congr hlength heof⟩
    rcases hh.eof hsole with ⟨hset, -⟩ | ⟨-, hknows⟩
    · exact absurd hset hsets
    · rw [heof]
      exact hknows

/-- What the handle sees once it has replayed the pending records on top of an end of file that
is its own: the log sets another one, or tells of none beyond it. -/
theorem caughtUpFrom {v : View} {eof : Nat} (hh : h.Follows lags sole d k done pending R)
    (hsole : sole) (hle : h.eof ≤ eof)
    (hreplay : replay ⟨h.blockArray, eof⟩ (pending.map LogEntry.record) = .ok v) :
    Shadows lags v.blockArray R.blockArray ∧ h.eof ≤ v.eof ∧
      (v.eof = eof ∧ R.eof ≤ eof ∧ ¬ SetsEof (pending.map LogEntry.record) ∨
        v.eof = R.eof ∧ SetsEof (pending.map LogEntry.record)) := by
  obtain ⟨r, -, hshadows, hrest⟩ := hh.rest
  obtain ⟨v', hv', hshadows'⟩ := replay_shadows (v := ⟨h.blockArray, eof⟩) hshadows hrest
  obtain rfl : v = v' := Except.ok.inj (hreplay.symm.trans hv')
  by_cases hsets : SetsEof (pending.map LogEntry.record)
  · have heof := replay_eof_set hreplay hrest hsets
    refine ⟨hshadows', ?_, Or.inr ⟨heof, hsets⟩⟩
    rcases hh.eof hsole with ⟨-, hbelow⟩ | ⟨hquiet, -⟩
    · exact heof ▸ hbelow
    · exact absurd hsets hquiet
  · have heof : v.eof = eof := (replay_eof_same hreplay hsets).1
    refine ⟨hshadows', heof ▸ hle, Or.inl ⟨heof, ?_, hsets⟩⟩
    rcases hh.eof hsole with ⟨hset, -⟩ | ⟨-, hsame | ⟨-, -, hbelow⟩⟩
    · exact absurd hset hsets
    · exact hsame ▸ hle
    · exact Nat.le_trans hbelow hle

end Follows

end FileActiveStatus

end Gopherwood
