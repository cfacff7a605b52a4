/-
# Lists cut into pages

A sequence of cells is kept in pages of one size. What is written within one page
changes this page as the same write on the page alone, and no other page; what is
read within one page can be read from the page.
-/

import Gopherwood.Library.Journal

namespace Library

variable {α : Type}

/-- The `length` cells from `offset` on, as far as there are any. -/
def slice (xs : List α) (offset length : Nat) : List α := (xs.drop offset).take length

/-- The page `i`. -/
def page (size : Nat) (xs : List α) (i : Nat) : List α := slice xs (i * size) size

theorem getElem?_slice (xs : List α) (offset length k : Nat) :
    (slice xs offset length)[k]? = if k < length then xs[offset + k]? else none := by
  rw [slice, List.getElem?_take]
  split
  · rw [List.getElem?_drop]
  · rfl

theorem length_slice (xs : List α) (offset length : Nat) :
    (slice xs offset length).length = min length (xs.length - offset) := by
  rw [slice, List.length_take, List.length_drop]

theorem length_page (size : Nat) (xs : List α) (i : Nat) :
    (page size xs i).length = min size (xs.length - i * size) :=
  length_slice _ _ _

/-- A slice that is as long as it was asked for can be cut. -/
theorem slice_slice (xs : List α) (offset length skip n : Nat) (h : skip + n ≤ length) :
    slice (slice xs offset length) skip n = slice xs (offset + skip) n := by
  apply List.ext_getElem?
  intro k
  rw [getElem?_slice, getElem?_slice, getElem?_slice]
  by_cases hk : k < n
  · rw [if_pos hk, if_pos hk, if_pos (by omega), Nat.add_assoc]
  · rw [if_neg hk, if_neg hk]

/-- Two slices next to each other. -/
theorem slice_append (xs : List α) (offset n m : Nat) :
    slice xs offset n ++ slice xs (offset + n) m = slice xs offset (n + m) := by
  unfold slice
  rw [List.take_add, List.drop_drop]

/-- What is read within a page is read from the page. -/
theorem slice_page {size : Nat} (xs : List α) (offset length : Nat)
    (h : offset % size + length ≤ size) :
    slice (page size xs (offset / size)) (offset % size) length = slice xs offset length := by
  rw [page, slice_slice _ _ _ _ _ h, Nat.mul_comm, Nat.div_add_mod]

variable (pad : α)

theorem length_overwrite (xs : List α) (offset : Nat) (data : List α) :
    (overwrite pad xs offset data).length = max xs.length (offset + data.length) := by
  simp only [overwrite, List.length_append, List.length_take, List.length_replicate,
    List.length_drop]
  omega

/-- The cells after a write that leaves no gap. -/
theorem getElem?_overwrite {xs : List α} {offset : Nat} (data : List α) (h : offset ≤ xs.length)
    (k : Nat) :
    (overwrite pad xs offset data)[k]? =
      if offset ≤ k ∧ k < offset + data.length then data[k - offset]? else xs[k]? := by
  have hgap : offset - xs.length = 0 := by omega
  have hfront : ((xs ++ List.replicate (offset - xs.length) pad).take offset).length = offset := by
    simp [hgap, h]
  simp only [overwrite, List.append_assoc]
  rw [List.getElem?_append, hfront]
  by_cases hbefore : k < offset
  · rw [if_pos hbefore, if_neg (by omega)]
    simp [hgap, hbefore]
  · rw [if_neg hbefore, List.getElem?_append]
    by_cases hin : k - offset < data.length
    · rw [if_pos hin, if_pos (by omega)]
    · rw [if_neg hin, if_neg (by omega), List.getElem?_drop]
      congr 1
      omega

/-- The cells before a write that leaves a gap. -/
theorem getElem?_overwrite_lt {xs : List α} {offset : Nat} (data : List α) {k : Nat}
    (hk : k < xs.length) (hbefore : k < offset) : (overwrite pad xs offset data)[k]? = xs[k]? := by
  have hfront : ((xs ++ List.replicate (offset - xs.length) pad).take offset).length = offset := by
    rw [List.length_take, List.length_append, List.length_replicate]
    omega
  simp only [overwrite, List.append_assoc]
  rw [List.getElem?_append, hfront, if_pos hbefore, List.getElem?_take, if_pos hbefore,
    List.getElem?_append, if_pos hk]

/-- The cells behind a write. -/
theorem getElem?_overwrite_ge (xs : List α) {offset : Nat} (data : List α) {k : Nat}
    (hbehind : offset + data.length ≤ k) : (overwrite pad xs offset data)[k]? = xs[k]? := by
  have hfront : ((xs ++ List.replicate (offset - xs.length) pad).take offset).length = offset := by
    rw [List.length_take, List.length_append, List.length_replicate]
    omega
  simp only [overwrite, List.append_assoc]
  rw [List.getElem?_append, hfront, if_neg (by omega), List.getElem?_append, if_neg (by omega),
    List.getElem?_drop]
  congr 1
  omega

/-- A write leaves the slices that lie before it or behind it. -/
theorem slice_overwrite_other {xs : List α} {offset start n : Nat} (data : List α)
    (h : start + n ≤ offset ∨ offset + data.length ≤ start)
    (hfull : (slice xs start n).length = n) :
    slice (overwrite pad xs offset data) start n = slice xs start n := by
  rw [length_slice] at hfull
  apply List.ext_getElem?
  intro k
  rw [getElem?_slice, getElem?_slice]
  by_cases hk : k < n
  · rw [if_pos hk, if_pos hk]
    rcases h with h | h
    · exact getElem?_overwrite_lt pad data (by omega) (by omega)
    · exact getElem?_overwrite_ge pad xs data (by omega)
  · rw [if_neg hk, if_neg hk]

/-- What was written can be read. -/
theorem slice_overwrite_self (xs : List α) (offset : Nat) (data : List α) :
    slice (overwrite pad xs offset data) offset data.length = data := by
  have hfront : ((xs ++ List.replicate (offset - xs.length) pad).take offset).length = offset := by
    rw [List.length_take, List.length_append, List.length_replicate]
    omega
  simp only [overwrite, List.append_assoc, slice]
  rw [List.drop_append, hfront, List.drop_eq_nil_of_le (Nat.le_of_eq hfront), Nat.sub_self,
    List.drop_zero, List.nil_append, List.take_left]

/-- A write within a slice is the same write on the slice alone. -/
theorem slice_overwrite_within {xs : List α} {start n skip : Nat} (data : List α)
    (hfull : (slice xs start n).length = n) (hskip : skip ≤ n) :
    slice (overwrite pad xs (start + skip) data) start (max n (skip + data.length)) =
      overwrite pad (slice xs start n) skip data := by
  have hroom : skip ≤ (slice xs start n).length := by
    rw [hfull]
    exact hskip
  have hstart : n ≤ xs.length - start := by
    rw [length_slice] at hfull
    omega
  apply List.ext_getElem?
  intro k
  rw [getElem?_slice, getElem?_overwrite pad data hroom, getElem?_slice]
  by_cases hn : n = 0
  · subst hn
    obtain rfl : skip = 0 := by omega
    by_cases hk : k < data.length
    · rw [if_pos (by omega), if_pos (by omega)]
      have hself : (slice (overwrite pad xs start data) start data.length)[k]? = data[k]? := by
        rw [slice_overwrite_self]
      rw [getElem?_slice, if_pos hk] at hself
      exact hself
    · rw [if_neg (by omega), if_neg (by omega), if_neg (by omega)]
  · rw [getElem?_overwrite pad data (by omega)]
    by_cases hin : skip ≤ k ∧ k < skip + data.length
    · rw [if_pos (by omega), if_pos (by omega), if_pos hin]
      congr 1
      omega
    · by_cases hk : k < n
      · rw [if_pos (by omega), if_neg (by omega), if_neg hin, if_pos hk]
      · rw [if_neg (by omega), if_neg hin, if_neg hk]

/-- A write goes on where another one ended. -/
theorem overwrite_append {xs : List α} {offset : Nat} (data more : List α)
    (h : offset ≤ xs.length) :
    overwrite pad (overwrite pad xs offset data) (offset + data.length) more =
      overwrite pad xs offset (data ++ more) := by
  apply List.ext_getElem?
  intro k
  have hlength := length_overwrite pad xs offset data
  rw [getElem?_overwrite pad more (by omega), getElem?_overwrite pad data h,
    getElem?_overwrite pad (data ++ more) h, List.length_append]
  by_cases hmore : offset + data.length ≤ k ∧ k < offset + data.length + more.length
  · rw [if_pos hmore, if_pos (by omega), List.getElem?_append_right (by omega)]
    congr 1
    omega
  · rw [if_neg hmore]
    by_cases hdata : offset ≤ k ∧ k < offset + data.length
    · rw [if_pos hdata, if_pos (by omega), List.getElem?_append_left (by omega)]
    · rw [if_neg hdata, if_neg (by omega)]

theorem overwrite_nil {xs : List α} {offset : Nat} (h : offset ≤ xs.length) :
    overwrite pad xs offset [] = xs := by
  apply List.ext_getElem?
  intro k
  rw [getElem?_overwrite pad [] h, if_neg (by simp)]

section Page

variable {size : Nat} {xs : List α} {offset : Nat} {data : List α}

/-- A write within a page leaves the other pages. -/
theorem page_overwrite_other (h : offset ≤ xs.length) (hin : offset % size + data.length ≤ size)
    {i : Nat} (hi : i ≠ offset / size) :
    page size (overwrite pad xs offset data) i = page size xs i := by
  have hdiv := Nat.div_add_mod offset size
  apply List.ext_getElem?
  intro k
  rw [page, page, getElem?_slice, getElem?_slice]
  by_cases hk : k < size
  · rw [if_pos hk, if_pos hk, getElem?_overwrite pad data h, if_neg]
    rintro ⟨hle, hlt⟩
    rcases Nat.lt_or_gt_of_ne hi with hless | hgreater
    · have hmul : (i + 1) * size ≤ offset / size * size := Nat.mul_le_mul_right _ hless
      rw [Nat.succ_mul] at hmul
      rw [Nat.mul_comm] at hdiv
      omega
    · have hmul : (offset / size + 1) * size ≤ i * size := Nat.mul_le_mul_right _ hgreater
      rw [Nat.succ_mul] at hmul
      rw [Nat.mul_comm] at hdiv
      omega
  · rw [if_neg hk, if_neg hk]

/-- A write within a page is the same write on the page alone. -/
theorem page_overwrite_same (h : offset ≤ xs.length) (hin : offset % size + data.length ≤ size) :
    page size (overwrite pad xs offset data) (offset / size) =
      overwrite pad (page size xs (offset / size)) (offset % size) data := by
  have hdiv := Nat.div_add_mod offset size
  rw [Nat.mul_comm] at hdiv
  have hlength := length_page size xs (offset / size)
  apply List.ext_getElem?
  intro k
  rw [getElem?_overwrite pad data (by omega), page, page, getElem?_slice, getElem?_slice,
    getElem?_overwrite pad data h]
  by_cases hk : k < size
  · rw [if_pos hk]
    by_cases hwritten : offset % size ≤ k ∧ k < offset % size + data.length
    · rw [if_pos (by omega), if_pos hwritten]
      congr 1
      omega
    · rw [if_neg (by omega), if_neg hwritten, if_pos hk]
  · rw [if_neg hk, if_neg (by omega), if_neg hk]

end Page

end Library
