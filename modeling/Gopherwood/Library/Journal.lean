/-
# Journals of framed records

A file that holds a sequence of records of different lengths, written and read
through descriptors that each have an offset of their own. A byte of the file is
represented by the record it was written for and its place in that record, so
that a write at the wrong offset is visible as a torn record. A record is read
back only from an offset at which all of its bytes stand, in order.
-/

import Mathlib.Data.List.Basic

namespace Library

variable {ρ : Type}

/-- One byte of a journal: the record it belongs to and its index in it. -/
abbrev Cell (ρ : Type) := ρ × Nat

/-- Replace the part of a list that starts at `offset`. Positions between the
end of the list and the offset are filled with `pad`. -/
def overwrite {α : Type} (pad : α) (content : List α) (offset : Nat) (data : List α) : List α :=
  (content ++ List.replicate (offset - content.length) pad).take offset ++ data ++
    content.drop (offset + data.length)

section Frame

variable (size : ρ → Nat)

/-- The bytes of one record. -/
def frame (r : ρ) : List (Cell ρ) := (List.range (size r)).map fun k => (r, k)

/-- The bytes of a sequence of records. -/
def frames (rs : List ρ) : List (Cell ρ) := rs.flatMap (frame size)

/-- What a reader finds at an offset. -/
inductive Fetched (ρ : Type)
  | endOfFile
  | record (r : ρ)
  | torn

/-- Read the record that starts at `offset`. -/
def fetch [DecidableEq ρ] (content : List (Cell ρ)) (offset : Nat) : Fetched ρ :=
  match content.drop offset with
  | [] => .endOfFile
  | cell :: rest =>
      if frame size cell.1 <+: (cell :: rest) then .record cell.1 else .torn

@[simp]
theorem length_frame (r : ρ) : (frame size r).length = size r := by
  simp [frame]

@[simp]
theorem frames_nil : frames size ([] : List ρ) = [] := rfl

@[simp]
theorem frames_append (rs ss : List ρ) :
    frames size (rs ++ ss) = frames size rs ++ frames size ss := by
  simp [frames]

theorem frames_cons (r : ρ) (rs : List ρ) :
    frames size (r :: rs) = frame size r ++ frames size rs := by
  simp [frames]

theorem frames_singleton (r : ρ) : frames size [r] = frame size r := by
  simp [frames]

variable {size}

theorem frame_eq_cons {r : ρ} (hsize : 0 < size r) : ∃ rest, frame size r = (r, 0) :: rest := by
  obtain ⟨n, hn⟩ : ∃ n, size r = n + 1 := ⟨size r - 1, by omega⟩
  refine ⟨((List.range n).map Nat.succ).map fun k => (r, k), ?_⟩
  simp only [frame, hn, List.range_succ_eq_map, List.map_cons]

/-- A journal determines its records. -/
theorem frames_injective (hsize : ∀ r, 0 < size r) {rs ss : List ρ}
    (h : frames size rs = frames size ss) : rs = ss := by
  induction rs generalizing ss with
  | nil =>
      cases ss with
      | nil => rfl
      | cons s ss =>
          obtain ⟨rest, hrest⟩ := frame_eq_cons (hsize s)
          simp [frames_cons, hrest] at h
  | cons r rs ih =>
      cases ss with
      | nil =>
          obtain ⟨rest, hrest⟩ := frame_eq_cons (hsize r)
          simp [frames_cons, hrest] at h
      | cons s ss =>
          have hhead : r = s := by
            obtain ⟨rest, hrest⟩ := frame_eq_cons (hsize r)
            obtain ⟨rest', hrest'⟩ := frame_eq_cons (hsize s)
            rw [frames_cons, frames_cons, hrest, hrest'] at h
            simpa using (List.cons_eq_cons.mp h).1
          subst hhead
          rw [frames_cons, frames_cons] at h
          rw [ih (List.append_cancel_left h)]

/-- A write at the end of a list appends. -/
theorem overwrite_length {α : Type} (pad : α) (content data : List α) :
    overwrite pad content content.length data = content ++ data := by
  simp [overwrite]

/-- A write leaves what is behind it. -/
theorem drop_overwrite {α : Type} (pad : α) (content : List α) (offset : Nat) (data : List α) :
    (overwrite pad content offset data).drop (offset + data.length) =
      content.drop (offset + data.length) := by
  have hfront : ((content ++ List.replicate (offset - content.length) pad).take offset ++
      data).length = offset + data.length := by
    simp only [List.length_append, List.length_take, List.length_replicate]
    omega
  rw [overwrite, ← hfront, List.drop_left]

theorem fetch_end [DecidableEq ρ] (rs : List ρ) :
    fetch size (frames size rs) (frames size rs).length = .endOfFile := by
  simp [fetch]

/-- At the end of the records already read, the next record is read whole. -/
theorem fetch_next [DecidableEq ρ] (hsize : ∀ r, 0 < size r) (done : List ρ) (r : ρ)
    (rest : List ρ) :
    fetch size (frames size (done ++ r :: rest)) (frames size done).length = .record r := by
  obtain ⟨tail, htail⟩ := frame_eq_cons (hsize r)
  have hdrop : (frames size (done ++ r :: rest)).drop (frames size done).length =
      (r, 0) :: (tail ++ frames size rest) := by
    rw [frames_append, List.drop_left, frames_cons, htail, List.cons_append]
  have hprefix : frame size r <+: (r, 0) :: (tail ++ frames size rest) := by
    rw [htail]
    exact List.prefix_append _ _
  simp only [fetch, hdrop, if_pos hprefix]

/-- A record that is read begins at the offset. -/
theorem mem_of_fetch [DecidableEq ρ] (hsize : ∀ r, 0 < size r) {content : List (Cell ρ)}
    {offset : Nat} {r : ρ} (h : fetch size content offset = .record r) :
    (r, 0) ∈ content.drop offset := by
  unfold fetch at h
  split at h
  · cases h
  · next cell rest hdrop =>
      split at h
      · next hprefix =>
          cases h
          obtain ⟨tail, htail⟩ := frame_eq_cons (hsize cell.1)
          obtain ⟨more, hmore⟩ := hprefix
          rw [hdrop, ← hmore, htail]
          exact List.mem_cons_self
      · cases h

/-- The end of the file is where nothing is left to read. -/
theorem drop_of_fetch_end [DecidableEq ρ] {content : List (Cell ρ)} {offset : Nat}
    (h : fetch size content offset = .endOfFile) : content.drop offset = [] := by
  unfold fetch at h
  split at h
  · next hdrop => exact hdrop
  · split at h
    · cases h
    · cases h

/-- A torn record begins within the file. -/
theorem lt_of_fetch_torn [DecidableEq ρ] {content : List (Cell ρ)} {offset : Nat}
    (h : fetch size content offset = .torn) : offset < content.length := by
  unfold fetch at h
  split at h
  · cases h
  · next cell rest hdrop =>
      have hlength := congrArg List.length hdrop
      rw [List.length_drop, List.length_cons] at hlength
      omega

end Frame

end Library
