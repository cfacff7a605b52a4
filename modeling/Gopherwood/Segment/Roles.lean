/-
# What every bucket is used for

A bucket is free, preallocated by a handle, being loaded by a handle, holding a
block of a file for a set of handles, or about to be evicted by a handle. The role
of a bucket determines its type, its flags and its marks; every operation on the
segment that returns changes the roles of the buckets it works on, and of no
others.
-/

import Gopherwood.Segment.Moves
import Mathlib.Data.Finset.Basic

namespace Gopherwood

open SharedMem (Moves)

/-- What a bucket is used for. -/
inductive Role
  | free
  /-- In the preallocated list of `a`, a handle of file `f`. -/
  | spare (a : Nat) (f : FileId)
  /-- Block `i` is being loaded into it by `a`. -/
  | loading (a : Nat) (f : FileId) (i : Nat)
  /-- It holds block `i`, which the handles `holders` have active. -/
  | block (f : FileId) (i : Nat) (holders : Finset Nat)
  /-- It holds block `i`, and `a` is evicting it. -/
  | victim (f : FileId) (i : Nat) (a : Nat)

/-- How much data the blocks of the files have. -/
abbrev Sizes := FileId → Nat → Nat

/-- One block has another size. -/
def Sizes.put (sizes : Sizes) (f : FileId) (i n : Nat) : Sizes :=
  fun g j => if g = f ∧ j = i then n else sizes g j

@[simp]
theorem Sizes.put_self (sizes : Sizes) (f : FileId) (i n : Nat) : sizes.put f i n f i = n :=
  if_pos ⟨rfl, rfl⟩

theorem Sizes.put_of_ne (sizes : Sizes) {f g : FileId} {i j : Nat} (n : Nat)
    (h : ¬ (g = f ∧ j = i)) :
    sizes.put f i n g j = sizes g j :=
  if_neg h

@[simp]
theorem Sizes.put_put (sizes : Sizes) (f : FileId) (i n m : Nat) :
    (sizes.put f i n).put f i m = sizes.put f i m := by
  funext g j
  unfold put
  split
  · rfl
  · rfl

@[simp]
theorem Sizes.put_same (sizes : Sizes) (f : FileId) (i : Nat) :
    sizes.put f i (sizes f i) = sizes := by
  funext g j
  unfold put
  split
  · next h =>
      obtain ⟨rfl, rfl⟩ := h
      rfl
  · rfl

/-- The handles whose marks a bucket carries, each as often as it is marked. -/
def ShareMemBucket.marks (x : ShareMemBucket) : Multiset Nat :=
  ↑((Library.entries x.activeInfos).map BucketActiveInfo.activeId)

namespace Role

def type : Role → BucketType
  | .free => .free
  | .spare _ _ => .active
  | .loading _ _ _ => .active
  | .block _ _ holders => if holders = ∅ then .used else .active
  | .victim _ _ _ => .used

/-- The handles that hold the bucket. -/
def holders : Role → Finset Nat
  | .free => ∅
  | .spare a _ => {a}
  | .loading a _ _ => {a}
  | .block _ _ holders => holders
  | .victim _ _ _ => ∅

def isLoading : Role → Bool
  | .loading _ _ _ => true
  | _ => false

def isVictim : Role → Bool
  | .victim _ _ _ => true
  | _ => false

def file : Role → Option FileId
  | .free => none
  | .spare _ f => some f
  | .loading _ f _ => some f
  | .block f _ _ => some f
  | .victim f _ _ => some f

def index : Role → Option Nat
  | .free => none
  | .spare _ _ => none
  | .loading _ _ i => some i
  | .block _ i _ => some i
  | .victim _ i _ => some i

end Role

/-- What a handle holds a bucket for. -/
inductive Hold
  | spare (f : FileId)
  | loading (f : FileId) (i : Nat)
  | cached (f : FileId) (i : Nat)
  deriving DecidableEq

/-- The block that a bucket stores, and whether the block is active or used. -/
structure Place where
  file : FileId
  index : Nat
  state : BucketType
  deriving DecidableEq

namespace Role

/-- What handle `a` holds the bucket for. -/
def holdOf (a : Nat) : Role → Option Hold
  | .free => none
  | .spare a' f => if a' = a then some (.spare f) else none
  | .loading a' f i => if a' = a then some (.loading f i) else none
  | .block f i holders => if a ∈ holders then some (.cached f i) else none
  | .victim _ _ _ => none

def place : Role → Option Place
  | .block f i holders => some ⟨f, i, if holders = ∅ then .used else .active⟩
  | .victim f i _ => some ⟨f, i, .used⟩
  | _ => none

/-- The block that the bucket stores. -/
def spot (r : Role) : Option (FileId × Nat) := r.place.map fun p => (p.file, p.index)

theorem spot_eq_some {r : Role} {f : FileId} {i : Nat} :
    r.spot = some (f, i) ↔ ∃ state, r.place = some ⟨f, i, state⟩ := by
  simp only [spot, Option.map_eq_some_iff, Prod.mk.injEq]
  constructor
  · rintro ⟨⟨g, j, state⟩, h, rfl, rfl⟩
    exact ⟨state, h⟩
  · rintro ⟨state, h⟩
    exact ⟨⟨f, i, state⟩, h, rfl, rfl⟩

/-- The holders of a bucket are those who hold it for something. -/
theorem holdOf_isSome (a : Nat) (r : Role) : (r.holdOf a).isSome = true ↔ a ∈ r.holders := by
  cases r with
  | free => simp [holdOf, holders]
  | victim f i e => simp [holdOf, holders]
  | spare a' f =>
      simp only [holdOf, holders, Finset.mem_singleton]
      split
      · next h => simp [h]
      · next h => simp [Ne.symm h]
  | loading a' f i =>
      simp only [holdOf, holders, Finset.mem_singleton]
      split
      · next h => simp [h]
      · next h => simp [Ne.symm h]
  | block f i hs =>
      simp only [holdOf, holders]
      split
      · next h => simp [h]
      · next h => simp [h]

/-- How much data a bucket has, when the blocks have `sizes`. -/
def dataSize (sizes : Sizes) : Role → Nat
  | .block f i _ => sizes f i
  | .victim f i _ => sizes f i
  | _ => 0

/-- The bucket is in the state that its role asks for. -/
structure Plays (r : Role) (sizes : Sizes) (x : ShareMemBucket) : Prop where
  blank : r = .free → x = .blank
  type : x.type = r.type
  loading : x.loading = r.isLoading
  deleted : x.deleted = false
  evicting : x.evicting = r.isVictim
  file : ∀ f, r.file = some f → x.fileId = f
  index : ∀ i, r.index = some i → x.fileBlockIndex = some i
  marks : x.marks = r.holders.val
  size : x.dataSize = r.dataSize sizes

theorem plays_blank (sizes : Sizes) : Role.free.Plays sizes .blank where
  blank _ := rfl
  type := rfl
  loading := rfl
  deleted := rfl
  evicting := rfl
  file f h := by cases h
  index i h := by cases h
  marks := rfl
  size := rfl

theorem dataSize_of_place {r : Role} {sizes : Sizes} {f : FileId} {i : Nat} {state : BucketType}
    (h : r.place = some ⟨f, i, state⟩) : r.dataSize sizes = sizes f i := by
  cases r with
  | block g j holders =>
      cases h
      rfl
  | victim g j a =>
      cases h
      rfl
  | _ => cases h

/-- Only the size of the block that the bucket stores matters. -/
theorem Plays.resized {r : Role} {sizes sizes' : Sizes} {x : ShareMemBucket} (h : r.Plays sizes x)
    (hsame : ∀ p, r.place = some p → sizes' p.file p.index = sizes p.file p.index) :
    r.Plays sizes' x := by
  refine ⟨h.blank, h.type, h.loading, h.deleted, h.evicting, h.file, h.index, h.marks,
    h.size.trans ?_⟩
  cases r with
  | block g j holders => exact (hsame _ rfl).symm
  | victim g j a => exact (hsame _ rfl).symm
  | _ => rfl

/-- The size of a block does not matter to a bucket that does not store it. -/
theorem Plays.put {r : Role} {sizes : Sizes} {x : ShareMemBucket} {f : FileId} {i n : Nat}
    (h : r.Plays sizes x) (hnot : ∀ state, r.place ≠ some ⟨f, i, state⟩) :
    r.Plays (sizes.put f i n) x := by
  refine h.resized fun p hp => Sizes.put_of_ne sizes n ?_
  rintro ⟨rfl, rfl⟩
  exact hnot p.state hp

end Role

namespace ShareMemBucket

variable {x : ShareMemBucket} {a : Nat} {w : Bool} {infos : List (Option BucketActiveInfo)}

/-- A mark is added. -/
theorem marks_fill (h : Library.fillFirst ⟨w, a⟩ x.activeInfos = some infos) :
    (↑((Library.entries infos).map BucketActiveInfo.activeId) : Multiset Nat) = a ::ₘ x.marks :=
  Multiset.coe_eq_coe.mpr ((Library.entries_fillFirst_perm h).map _)

/-- A mark is removed. -/
theorem marks_clear
    (h : Library.clearFirst (fun info => info.activeId = a) x.activeInfos = some infos) :
    x.marks = a ::ₘ ↑((Library.entries infos).map BucketActiveInfo.activeId) := by
  obtain ⟨y, hy, hperm⟩ := Library.entries_clearFirst_perm h
  have hya : y.activeId = a := by simpa using hy
  have hmap := hperm.map BucketActiveInfo.activeId
  rw [List.map_cons, hya] at hmap
  exact Multiset.coe_eq_coe.mpr hmap

theorem vacant_iff_marks :
    Library.vacant infos = true ↔
      (↑((Library.entries infos).map BucketActiveInfo.activeId) : Multiset Nat) = 0 := by
  rw [Library.vacant_iff, Multiset.coe_eq_zero, List.map_eq_nil_iff]

theorem hasActiveId_iff : x.hasActiveId a = true ↔ a ∈ x.marks := by
  simp [hasActiveId, Library.holds_iff, marks]

end ShareMemBucket

/-- Every bucket plays its role, and no eviction was interrupted. -/
structure SharedMem.Staffed (s : SharedMem) (sizes : Sizes) (own : Nat → Role) : Prop where
  plays : ∀ (b : Nat) (x : ShareMemBucket), s.buckets[b]? = some x → (own b).Plays sizes x
  beyond : ∀ b, s.buckets[b]? = none → own b = .free
  stolen : ∀ slot ∈ s.activeStatus, slot.stolen = false

namespace SharedMem.Staffed

variable {s s' : SharedMem} {sizes : Sizes} {own : Nat → Role} {b : Nat} {x : ShareMemBucket}

theorem start (cfg : Config) (sizes : Sizes) :
    (SharedMem.reset cfg).Staffed sizes fun _ => .free where
  plays b x hx := by
    have hblank := List.mem_of_getElem? hx
    rw [(List.mem_replicate.mp hblank).2]
    exact Role.plays_blank sizes
  beyond _ _ := rfl
  stolen slot hslot := by
    rw [(List.mem_replicate.mp hslot).2]
    rfl

/-- A role other than `free` is that of a bucket of the table. -/
theorem bucket (hs : s.Staffed sizes own) (hb : own b ≠ .free) : ∃ x, s.buckets[b]? = some x := by
  cases hx : s.buckets[b]? with
  | some x => exact ⟨x, rfl⟩
  | none => exact absurd (hs.beyond b hx) hb

/-- One bucket changes its role. -/
theorem recast (hs : s.Staffed sizes own) (hx : s.buckets[b]? = some x)
    {f : ShareMemBucket → ShareMemBucket} (hbuckets : s'.buckets = (s.updBucket b f).buckets)
    (hslots : ∀ slot ∈ s'.activeStatus, slot.stolen = false) {r : Role} (hr : r.Plays sizes (f x)) :
    s'.Staffed sizes (Function.update own b r) := by
  refine ⟨fun i y hy => ?_, fun i hi => ?_, hslots⟩
  · rw [hbuckets, updBucket_getElem?] at hy
    by_cases hbi : b = i
    · subst hbi
      rw [if_pos rfl, hx] at hy
      cases hy
      rw [Function.update_self]
      exact hr
    · rw [if_neg hbi] at hy
      rw [Function.update_of_ne (Ne.symm hbi)]
      exact hs.plays i y hy
  · rw [hbuckets, updBucket_getElem?] at hi
    by_cases hbi : b = i
    · subst hbi
      rw [if_pos rfl, hx] at hi
      cases hi
    · rw [if_neg hbi] at hi
      rw [Function.update_of_ne (Ne.symm hbi)]
      exact hs.beyond i hi

/-- The tables may change in what no role depends on. -/
theorem same (hs : s.Staffed sizes own) (hbuckets : s'.buckets = s.buckets)
    (hslots : ∀ slot ∈ s'.activeStatus, slot.stolen = false) : s'.Staffed sizes own :=
  ⟨fun i y hy => hs.plays i y (hbuckets ▸ hy), fun i hi => hs.beyond i (hbuckets ▸ hi), hslots⟩

/-- The size of a block that no bucket stores does not matter. -/
theorem resized {sizes' : Sizes} (hs : s.Staffed sizes own)
    (hsame : ∀ b p, (own b).place = some p → sizes' p.file p.index = sizes p.file p.index) :
    s.Staffed sizes' own :=
  ⟨fun b x hx => (hs.plays b x hx).resized (hsame b), hs.beyond, hs.stolen⟩

/-- A bucket changes in what its role does not depend on. -/
theorem retouch (hs : s.Staffed sizes own) (hx : s.buckets[b]? = some x)
    {f : ShareMemBucket → ShareMemBucket} (hbuckets : s'.buckets = (s.updBucket b f).buckets)
    (hslots : ∀ slot ∈ s'.activeStatus, slot.stolen = false) (hr : (own b).Plays sizes (f x)) :
    s'.Staffed sizes own := by
  have hrecast := hs.recast hx hbuckets hslots hr
  rwa [Function.update_eq_self] at hrecast

/-- A slot changes, but not by a theft. -/
theorem slots (hs : s.Staffed sizes own) (a : Nat) {g : ShareMemActiveStatus → ShareMemActiveStatus}
    (hg : ∀ slot, (g slot).stolen = slot.stolen) :
    ∀ slot ∈ (s.updSlot a g).activeStatus, slot.stolen = false := by
  intro slot hslot
  obtain ⟨i, hi⟩ := List.getElem?_of_mem hslot
  rw [updSlot_getElem?] at hi
  split at hi
  · obtain ⟨old, hold, rfl⟩ := Option.map_eq_some_iff.mp hi
    rw [hg]
    exact hs.stolen old (List.mem_of_getElem? hold)
  · exact hs.stolen slot (List.mem_of_getElem? hi)

end SharedMem.Staffed

/-- The buckets of a list change to one role. -/
def Role.assign (own : Nat → Role) (ids : List Nat) (r : Role) : Nat → Role :=
  fun b => if b ∈ ids then r else own b

namespace Role

variable {own : Nat → Role} {ids : List Nat} {r : Role} {b : Nat}

@[simp]
theorem assign_nil (own : Nat → Role) (r : Role) : assign own [] r = own := by
  funext b
  simp [assign]

theorem assign_of_mem (h : b ∈ ids) : assign own ids r b = r := if_pos h

theorem assign_of_notMem (h : b ∉ ids) : assign own ids r b = own b := if_neg h

theorem assign_update (i : Nat) :
    assign (Function.update own i r) ids r = assign own (i :: ids) r := by
  funext b
  by_cases hb : b ∈ ids
  · rw [assign_of_mem hb, assign_of_mem (List.mem_cons_of_mem _ hb)]
  · rw [assign_of_notMem hb]
    by_cases hbi : b = i
    · subst hbi
      rw [Function.update_self, assign_of_mem List.mem_cons_self]
    · rw [Function.update_of_ne hbi, assign_of_notMem]
      simp [hbi, hb]

end Role

namespace SharedMemoryContext

variable {s s' : SharedMem} {sizes : Sizes} {own : Nat → Role} {a b : Nat} {f : FileId} {w : Bool}

/-! ## Acquiring and releasing -/

theorem plays_taken (sizes : Sizes) (w : Bool) (a : Nat) (f : FileId) :
    (Role.spare a f).Plays sizes (ShareMemBucket.taken w a f) where
  blank h := by cases h
  type := rfl
  loading := rfl
  deleted := rfl
  evicting := rfl
  file g hg := Option.some.inj hg
  index i hi := by cases hi
  marks := rfl
  size := rfl

/-- A free bucket becomes a spare one. -/
theorem acquireOne_staffed (hs : s.Staffed sizes own) (hx : s.buckets[b]? = some .blank)
    (hrun : acquireOne a f w b s = .ok () s') :
    s'.Staffed sizes (Function.update own b (.spare a f)) := by
  have hfill : Library.fillFirst (⟨w, a⟩ : BucketActiveInfo) ShareMemBucket.blank.activeInfos =
      some (ShareMemBucket.taken w a f).activeInfos := rfl
  let s₁ := s.updBucket b fun x => { x.setBucketActive with fileId := f }
  have hx₁ : s₁.buckets[b]? = some { ShareMemBucket.blank.setBucketActive with fileId := f } := by
    simp [s₁, hx]
  simp only [acquireOne, Library.run_bind, run_modifyBucket, run_modifyHeader] at hrun
  rw [markBucket_some hx₁ hfill] at hrun
  cases hrun
  refine hs.recast hx (f := fun _ => ShareMemBucket.taken w a f) ?_ ?_ (plays_taken sizes w a f)
  · simp only [SharedMem.updHeader_buckets, s₁, SharedMem.updBucket_updBucket]
    exact congrArg SharedMem.buckets (SharedMem.updBucket_congr _ hx rfl)
  · exact hs.stolen

theorem acquireLoop_staffed {bs : List Nat} (hbs : bs.Nodup) :
    ∀ {s s' : SharedMem} {own : Nat → Role} {count left : Int} {ids : List Nat},
    s.Staffed sizes own →
      acquireFreeBucket.loop a f w bs count s = .ok (ids, left) s' →
      ids.Sublist bs ∧ (∀ b ∈ ids, own b = .free) ∧
      s'.Staffed sizes (Role.assign own ids (.spare a f)) := by
  induction bs with
  | nil =>
      intro s s' own count left ids hs hrun
      cases hrun
      exact ⟨List.Sublist.refl _, (fun _ h => by cases h), by rwa [Role.assign_nil]⟩
  | cons i rest ih =>
      intro s s' own count left ids hs hrun
      obtain ⟨hi, hrest⟩ := List.nodup_cons.mp hbs
      cases hx : s.buckets[i]? with
      | none => simp [acquireFreeBucket.loop, hx] at hrun
      | some x =>
      simp only [acquireFreeBucket.loop, Library.run_bind, run_bucketAt_some hx] at hrun
      by_cases htype : x.isFreeBucket = true
      · rw [if_pos htype] at hrun
        have hplays := hs.plays i x hx
        have hfree : own i = .free := by
          have htype : x.type = .free := by simpa [ShareMemBucket.isFreeBucket] using htype
          rw [hplays.type] at htype
          cases hown : own i with
          | free => rfl
          | block g j holders =>
              rw [hown] at htype
              simp only [Role.type] at htype
              split at htype
              · cases htype
              · cases htype
          | _ =>
              rw [hown] at htype
              cases htype
        have hblank : x = .blank := hplays.blank hfree
        subst hblank
        simp only [Library.run_bind] at hrun
        cases hone : acquireOne a f w i s with
        | error e s₁ => simp [hone] at hrun
        | ok u s₁ =>
            have hs₁ := acquireOne_staffed hs hx hone
            simp only [hone] at hrun
            split at hrun
            · cases hrun
              refine ⟨by simp, ?_, ?_⟩
              · intro b hb
                rw [List.mem_singleton.mp hb]
                exact hfree
              · rw [← Role.assign_update, Role.assign_nil]
                exact hs₁
            · simp only [Library.run_bind] at hrun
              cases hloop : acquireFreeBucket.loop a f w rest (count - 1) s₁ with
              | error e s₂ => simp [hloop] at hrun
              | ok result s₂ =>
                  obtain ⟨ids', left'⟩ := result
                  simp only [hloop, Library.run_pure] at hrun
                  cases hrun
                  obtain ⟨hsub, hall, hs₂⟩ := ih hrest hs₁ hloop
                  refine ⟨hsub.cons_cons i, ?_, ?_⟩
                  · intro b hb
                    rcases List.mem_cons.mp hb with rfl | hb
                    · exact hfree
                    · have hbi : b ≠ i := fun h => hi (h ▸ hsub.subset hb)
                      have := hall b hb
                      rwa [Function.update_of_ne hbi] at this
                  · rwa [Role.assign_update] at hs₂
      · rw [if_neg htype] at hrun
        obtain ⟨hsub, hall, hs'⟩ := ih hrest hs hrun
        exact ⟨hsub.cons i, hall, hs'⟩

/-- Free buckets become spare ones. -/
theorem acquireFreeBucket_staffed {num : Int} {ids : List Nat} (hs : s.Staffed sizes own)
    (hrun : acquireFreeBucket a num f w s = .ok ids s') :
    ids.Nodup ∧ (∀ b ∈ ids, own b = .free) ∧ s'.Staffed sizes
    (Role.assign own ids (.spare a f)) := by
  simp only [acquireFreeBucket, Library.run_bind, Library.run_get] at hrun
  cases hloop : acquireFreeBucket.loop a f w (List.range s.header.numBuckets) num s with
  | error e s₁ => simp [hloop] at hrun
  | ok result s₁ =>
      obtain ⟨ids', left⟩ := result
      obtain ⟨hsub, hall, hs₁⟩ := acquireLoop_staffed List.nodup_range hs hloop
      simp only [hloop] at hrun
      split at hrun
      · simp at hrun
      · cases hrun
        exact ⟨hsub.nodup List.nodup_range, hall, hs₁⟩

/-- Spare buckets become free ones. -/
theorem releaseBuckets_staffed {blocks : List Block} :
    ∀ {s s' : SharedMem} {own : Nat → Role} {ids : List Nat}, s.Staffed sizes own →
      blocks.map Block.bucketId = ids.map some → releaseBuckets blocks s = .ok () s' →
      s'.Staffed sizes (Role.assign own ids .free) := by
  induction blocks with
  | nil =>
      intro s s' own ids hs hids hrun
      cases hrun
      obtain rfl : ids = [] := by simpa using hids.symm
      rwa [Role.assign_nil]
  | cons block rest ih =>
      intro s s' own ids hs hids hrun
      cases ids with
      | nil => cases hids
      | cons b ids =>
          simp only [List.map_cons, List.cons.injEq] at hids
          simp only [releaseBuckets, Library.run_bind, hids.1, run_inRange_some] at hrun
          rcases releaseOne_cases b s with ⟨e, hone⟩ | ⟨s₁, hone, hmove⟩
          · simp [hone] at hrun
          · simp only [hone] at hrun
            have hs₁ : s₁.Staffed sizes (Function.update own b .free) := by
              cases hmove with
              | release hx htype =>
                  refine hs.recast hx (f := fun _ => .blank) ?_ ?_ (Role.plays_blank sizes)
                  · rfl
                  · exact hs.stolen
            have hs' := ih hs₁ hids.2 hrun
            rwa [Role.assign_update] at hs'

/-! ## Evicting and loading -/

theorem used_of_plays {r : Role} {x : ShareMemBucket} (h : r.Plays sizes x) (htype : x.type = .used)
    (hevicting : x.evicting = false) : ∃ f i, r = .block f i ∅ := by
  rw [h.type] at htype
  rw [h.evicting] at hevicting
  cases r with
  | block f i holders =>
      simp only [Role.type] at htype
      split at htype
      · next hempty => exact ⟨f, i, by rw [hempty]⟩
      · cases htype
  | victim f i a => cases hevicting
  | _ => cases htype

/-- A block that nobody has active becomes a victim. -/
theorem markBucketEvicting_staffed {info : BlockInfo} (hs : s.Staffed sizes own)
    (hrun : markBucketEvicting a s = .ok info s') :
    ∃ b f i, own b = .block f i ∅ ∧ info.fileId = f ∧ info.blockId = some i ∧
      info.bucketId = some b ∧ info.dataSize = sizes f i ∧
      s'.Staffed sizes (Function.update own b (.victim f i a)) := by
  have hspec : Library.Spec (fun s => s.Staffed sizes own) (markBucketEvicting a)
      (fun info s' => ∃ b f i, own b = .block f i ∅ ∧ info.fileId = f ∧ info.blockId = some i ∧
        info.bucketId = some b ∧ info.dataSize = sizes f i ∧
        s'.Staffed sizes (Function.update own b (.victim f i a)))
      (fun _ s => s.Staffed sizes own) := by
    refine markBucketEvicting_spec ?_ ?_ ?_
    · intro s s' hmove hs
      cases hmove with
      | hand => exact hs.same (by rfl) (by exact hs.stolen)
    · intro b s s' hmove hs
      cases hmove with
      | @age s b x hx htype hevicting =>
          have hplays := hs.plays b x hx
          obtain ⟨f, i, hown⟩ := used_of_plays hplays htype hevicting
          refine hs.retouch hx (by rfl) (by exact hs.stolen) ⟨fun h => ?_, hplays.type,
            hplays.loading, hplays.deleted, hplays.evicting, hplays.file, hplays.index,
            hplays.marks, hplays.size⟩
          rw [hown] at h
          cases h
    · intro s s' b x hs hx hmove
      cases hmove with
      | @evict s a b y hy htype hevicting =>
          cases hx.symm.trans hy
          have hplays := hs.plays b x hx
          obtain ⟨f, i, hown⟩ := used_of_plays hplays htype hevicting
          rw [hown] at hplays
          refine ⟨b, f, i, hown, hplays.file f rfl, hplays.index i rfl, rfl, hplays.size, ?_⟩
          refine hs.recast hx (f := fun x => { x with
            evicting := true, evictLoadActiveId := some a }) (by rfl) ?_ ?_
          · exact hs.slots a fun _ => rfl
          · exact ⟨(fun h => by cases h), htype, hplays.loading, hplays.deleted, rfl, hplays.file,
              hplays.index, hplays.marks, hplays.size⟩
  exact hspec.of_ok hs hrun

/-- The end of an eviction makes the victim a spare bucket. -/
theorem evictBucketFinishAndTryAcquire_staffed {bucketId : Option Nat} {rc : EvictResult}
    (hs : s.Staffed sizes own) (hrun : evictBucketFinishAndTryAcquire bucketId a f w s =
    .ok rc s') :
    rc = .finished ∧ ∃ b, bucketId = some b ∧
    s'.Staffed sizes (Function.update own b (.spare a f)) := by
  rcases evictBucketFinishAndTryAcquire_cases bucketId a f w s with
    ⟨s₁, hone, hmove⟩ | ⟨e, s₁, hone, hmove⟩ | ⟨b, x, s₁, hb, hx, hone, hmove, htaken⟩
  · cases hmove with
    | endStolen hslot hstolen =>
        rw [hs.stolen _ (List.mem_of_getElem? hslot)] at hstolen
        cases hstolen
  · rw [hone] at hrun
    cases hrun
  · rw [hone, (hs.plays b x hx).deleted] at hrun
    cases hrun
    refine ⟨rfl, b, hb, ?_⟩
    cases hmove with
    | @endTake s a b y slot w' g hslot hstolen hy =>
        refine hs.recast hx (f := fun _ => ShareMemBucket.taken w' a g) (by rfl) ?_ ?_
        · exact hs.slots a fun _ => rfl
        · have hsame : ShareMemBucket.taken w' a g = ShareMemBucket.taken w a f := by
            simp only [SharedMem.updHeader_buckets, SharedMem.updBucket_same,
              SharedMem.updSlot_buckets, hx, Option.map_some, Option.some.injEq] at htaken
            exact htaken
          rw [hsame]
          exact plays_taken sizes w a f

/-- A spare bucket is loaded into, unless the block is being loaded already. -/
theorem markBucketLoading_staffed {i : Nat} {marked : Bool} (hs : s.Staffed sizes own)
    (hown : own b = .spare a f) (hrun : markBucketLoading b i a f s = .ok marked s') :
    if marked then s'.Staffed sizes (Function.update own b (.loading a f i)) else s' = s := by
  cases hany : s.activeStatus.any (slotLoads f i) with
  | true =>
      simp only [markBucketLoading, Library.run_bind, Library.run_get, hany, if_true,
        Library.run_pure] at hrun
      cases hrun
      rfl
  | false =>
      simp only [markBucketLoading, Library.run_bind, Library.run_get, hany, Bool.false_eq_true,
        if_false, run_modifyBucket, run_modifySlot, run_modifyHeader, Library.run_pure] at hrun
      cases hrun
      obtain ⟨x, hx⟩ := hs.bucket (b := b) (by rw [hown]; intro h; cases h)
      have hplays := hs.plays b x hx
      rw [hown] at hplays
      rw [if_pos rfl]
      refine hs.recast hx (f := fun x => { x.setBucketLoading with
        fileBlockIndex := some i, evictLoadActiveId := some a }) (by rfl) ?_ ?_
      · exact hs.slots a fun _ => rfl
      · exact ⟨(fun h => by cases h), hplays.type, rfl, hplays.deleted, hplays.evicting,
          hplays.file, fun _ h => h, hplays.marks, hplays.size⟩

/-- After a load the bucket holds the block, or is spare again. Its data size is not set yet. -/
theorem markLoadFinish_staffed {i : Nat} (hs : s.Staffed sizes own) (hown : own b = .loading a f i)
    {r : Role} (hr : r = .spare a f ∨ r = .block f i {a} ∧ sizes f i = 0)
    (hrun : markLoadFinish b a s = .ok () s') : s'.Staffed sizes (Function.update own b r) := by
  cases hrun
  obtain ⟨x, hx⟩ := hs.bucket (b := b) (by rw [hown]; intro h; cases h)
  have hplays := hs.plays b x hx
  rw [hown] at hplays
  refine hs.recast hx (f := ShareMemBucket.setBucketLoadFinish) (by rfl) ?_ ?_
  · exact hs.slots a fun _ => rfl
  · rcases hr with rfl | ⟨rfl, hempty⟩
    · exact ⟨(fun h => by cases h), hplays.type, rfl, hplays.deleted, hplays.evicting, hplays.file,
        (fun _ h => by cases h), hplays.marks, hplays.size⟩
    · exact ⟨(fun h => by cases h), hplays.type.trans (by simp [Role.type]), rfl, hplays.deleted,
        hplays.evicting, hplays.file, hplays.index, hplays.marks, hplays.size.trans hempty.symm⟩

/-! ## Activating and inactivating -/

/-- A handle activates a block; it is told whether it is the first to do so. -/
theorem activateBucket_staffed {block : Block} {byMe : Bool} {i : Nat} {holders : Finset Nat}
    (hs : s.Staffed sizes own) (hown : own b = .block f i holders) (hb : block.bucketId = some b)
    (ha : a ∉ holders) (hrun : activateBucket f block a w s = .ok byMe s') :
    byMe = decide (holders = ∅) ∧ s'.Staffed sizes
    (Function.update own b (.block f i (insert a holders))) := by
  -- the bucket with one mark more
  have hnew : ∀ {x : ShareMemBucket} {w : Bool} {infos : List (Option BucketActiveInfo)},
      s.buckets[b]? = some x → Library.fillFirst ⟨w, a⟩ x.activeInfos = some infos →
      (Role.block f i (insert a holders)).Plays sizes
      { x with type := .active, activeInfos := infos } := by
    intro x w infos hx hinfos
    have hplays := hs.plays b x hx
    rw [hown] at hplays
    refine ⟨(fun h => by cases h), ?_, hplays.loading, hplays.deleted, hplays.evicting, hplays.file,
      hplays.index, ?_, hplays.size⟩
    · simp [Role.type]
    · refine (ShareMemBucket.marks_fill hinfos).trans ?_
      rw [hplays.marks]
      exact (Finset.insert_val_of_notMem ha).symm
  rcases activateBucket_cases f block a w s with
    ⟨e, hone⟩ | ⟨b', x, hb', hx, -, -, hcases⟩
  · rw [hone] at hrun
    cases hrun
  · obtain rfl : b = b' := Option.some.inj (hb.symm.trans hb')
    have hplays := hs.plays b x hx
    rw [hown] at hplays
    rcases hcases with ⟨s₁, hone, hmove | ⟨e, hmove⟩⟩ | ⟨s₁, hone, hmove⟩ | ⟨e, s₁, hone, -⟩
    · rw [hone] at hrun
      cases hrun
      cases hmove with
      | @activate s a b y w' infos hy htype hevicting hinfos =>
          cases hx.symm.trans hy
          refine ⟨?_, ?_⟩
          · rw [hplays.type] at htype
            simp only [Role.type] at htype
            split at htype
            · next hempty => simp [hempty]
            · cases htype
          · refine hs.recast hx (f := fun x => { x with
              type := .active, activeInfos := infos }) (by rfl) ?_ (hnew hx hinfos)
            exact hs.stolen
    · cases hmove with
      | steal hy htype hevicting =>
          cases hx.symm.trans hy
          rw [hplays.evicting] at hevicting
          cases hevicting
    · rw [hone] at hrun
      cases hrun
      cases hmove with
      | @join s a b y w' infos hy htype hinfos =>
          cases hx.symm.trans hy
          refine ⟨?_, ?_⟩
          · rw [hplays.type] at htype
            simp only [Role.type] at htype
            split at htype
            · cases htype
            · next hne => simp [hne]
          · refine hs.recast hx (f := fun x => { x with activeInfos := infos }) (by rfl) ?_ ?_
            · exact hs.stolen
            · have hplays' := hnew hx hinfos
              refine ⟨(fun h => by cases h), ?_, hplays'.loading, hplays'.deleted, hplays'.evicting,
                hplays'.file, hplays'.index, hplays'.marks, hplays'.size⟩
              exact htype.trans hplays'.type
    · rw [hone] at hrun
      cases hrun

/-- A handle gives up a block; it is told whether it was the last one. -/
theorem inactivateOne_staffed {block : Block} {turned : Bool} {i : Nat} {holders : Finset Nat}
    (hs : s.Staffed sizes own) (hown : own b = .block f i holders) (hb : block.bucketId = some b)
    (hi : block.blockId = some i) (hrun : inactivateOne block f a s = .ok turned s') :
    turned = decide (holders.erase a = ∅) ∧ a ∈ holders ∧
      s'.Staffed sizes (Function.update own b (.block f i (holders.erase a))) := by
  rcases inactivateOne_cases block f a s with ⟨e, hone⟩ | ⟨b', x, hb', hx, htype, hcases⟩
  · rw [hone] at hrun
    cases hrun
  · obtain rfl : b = b' := Option.some.inj (hb.symm.trans hb')
    have hplays := hs.plays b x hx
    rw [hown] at hplays
    rcases hcases with ⟨e, s₁, hone, -⟩ | ⟨infos, usage, hclear, hcases⟩
    · rw [hone] at hrun
      cases hrun
    have hmarks := ShareMemBucket.marks_clear hclear
    rw [hplays.marks] at hmarks
    have ha : a ∈ holders := by
      rw [← Finset.mem_val]
      exact hmarks ▸ Multiset.mem_cons_self a _
    have herase : (↑((Library.entries infos).map BucketActiveInfo.activeId) : Multiset Nat) =
        (holders.erase a).val := by
      rw [Finset.erase_val]
      change _ = Multiset.erase (Role.block f i holders).holders.val a
      rw [hmarks, Multiset.erase_cons_head]
    have hvacant : Library.vacant infos = decide (holders.erase a = ∅) := by
      rw [Bool.eq_iff_iff, ShareMemBucket.vacant_iff_marks, herase, Finset.val_eq_zero,
        decide_eq_true_iff]
    rcases hcases with ⟨s₁, hleft, hone, -, rfl⟩ | ⟨s₁, hleft, hone, -, hslots, hbuckets⟩
    · rw [hone] at hrun
      cases hrun
      rw [hvacant] at hleft
      refine ⟨hleft.symm, ha, ?_⟩
      refine hs.recast hx (f := fun x => { x with
        fileId := f, fileBlockIndex := block.blockId, usageCount := usage
        activeInfos := infos }) (by rfl) ?_ ?_
      · exact hs.stolen
      · refine ⟨(fun h => by cases h), ?_, hplays.loading, hplays.deleted, hplays.evicting,
          fun _ h => Option.some.inj h, fun _ h => hi.trans h, herase, hplays.size⟩
        have hne := of_decide_eq_false hleft
        simp only [Role.type, hne, if_false]
        exact htype
    · rw [hone] at hrun
      cases hrun
      rw [hvacant] at hleft
      refine ⟨hleft.symm, ha, ?_⟩
      refine hs.recast hx hbuckets ?_ ?_
      · rw [hslots]
        exact hs.stolen
      · refine ⟨(fun h => by cases h), ?_, hplays.loading, hplays.deleted, hplays.evicting,
          fun _ h => Option.some.inj h, fun _ h => hi.trans h, herase, hplays.size⟩
        have hempty := of_decide_eq_true hleft
        simp only [Role.type, hempty, if_true]

/-- A spare bucket gets its block, which has no data yet. -/
theorem updateActiveFileInfo_staffed {block : Block} {i : Nat} (hs : s.Staffed sizes own)
    (hown : own b = .spare a f) (hb : block.bucketId = some b) (hi : block.blockId = some i)
    (hempty : sizes f i = 0)
    (hrun : updateActiveFileInfo block f s = .ok () s') :
    s'.Staffed sizes (Function.update own b (.block f i {a})) := by
  rcases updateActiveFileInfo_cases block f s with
    ⟨e, hone⟩ | ⟨b', x, s₁, hb', hx, hfile, hone, -, rfl⟩
  · rw [hone] at hrun
    cases hrun
  · obtain rfl : b = b' := Option.some.inj (hb.symm.trans hb')
    rw [hone] at hrun
    cases hrun
    have hplays := hs.plays b x hx
    rw [hown] at hplays
    refine hs.recast hx (f := fun x => { x with fileBlockIndex := block.blockId }) (by rfl) ?_ ?_
    · exact hs.stolen
    · refine ⟨(fun h => by cases h), ?_, hplays.loading, hplays.deleted, hplays.evicting,
        hplays.file, fun _ h => hi.trans h, hplays.marks, hplays.size.trans hempty.symm⟩
      simpa [Role.type] using hplays.type

/-- The buckets of blocks that nobody has active become free. -/
theorem deleteBlocks_staffed {blocks : List Block} :
    ∀ {s s' : SharedMem} {own : Nat → Role} {ids : List Nat}, s.Staffed sizes own →
      blocks.map Block.bucketId = ids.map some →
      (∀ b ∈ ids, (own b).type = .used ∨ own b = .free) → ids.Nodup →
      deleteBlocks f blocks s = .ok () s' → s'.Staffed sizes (Role.assign own ids .free) := by
  induction blocks with
  | nil =>
      intro s s' own ids hs hids hused hnodup hrun
      cases hrun
      obtain rfl : ids = [] := by simpa using hids.symm
      rwa [Role.assign_nil]
  | cons block rest ih =>
      intro s s' own ids hs hids hused hnodup hrun
      cases ids with
      | nil => cases hids
      | cons b ids =>
          simp only [List.map_cons, List.cons.injEq] at hids
          simp only [deleteBlocks, Library.run_bind] at hrun
          rcases deleteOne_cases block f s with
            ⟨e, hone⟩ | ⟨b', x, s₁, hb', hx, -, hone, hmove⟩
          · simp [hone] at hrun
          · obtain rfl : b = b' := Option.some.inj (hids.1.symm.trans hb')
            simp only [hone] at hrun
            have hs₁ : s₁.Staffed sizes (Function.update own b .free) := by
              rcases hmove with hmove | hmove
              · cases hmove with
                | reset hy htype =>
                    refine hs.recast hx (f := fun _ => .blank) ?_ ?_ (Role.plays_blank sizes)
                    · rfl
                    · exact hs.stolen
              · cases hmove with
                | flag hy htype hevicting =>
                    cases hx.symm.trans hy
                    have hplays := hs.plays b x hx
                    rcases hused b List.mem_cons_self with hu | hfree
                    · exact absurd (hplays.type.trans hu) htype
                    · rw [hplays.evicting, hfree] at hevicting
                      cases hevicting
            obtain ⟨hbids, hnodup'⟩ := List.nodup_cons.mp hnodup
            have hused' : ∀ c ∈ ids, (Function.update own b .free c).type = .used ∨
                Function.update own b .free c = .free := by
              intro c hc
              have hcb : c ≠ b := fun h => hbids (h ▸ hc)
              rw [Function.update_of_ne hcb]
              exact hused c (List.mem_cons_of_mem _ hc)
            have hs' := ih hs₁ hids.2 hused' hnodup' hrun
            rwa [Role.assign_update] at hs'

/-- A bucket that one block is in takes more data. -/
theorem updateBucketDataSize_staffed {cfg : Config} {size : Int} {i : Nat} {holders : Finset Nat}
    (hs : s.Staffed sizes own) (hown : own b = .block f i holders)
    (honly : ∀ c state, c ≠ b → (own c).place ≠ some ⟨f, i, state⟩)
    (hrun : updateBucketDataSize cfg (some b) size f a s = .ok () s') :
    s'.Staffed (sizes.put f i (max (sizes f i) size.toNat)) own ∧ size ≤ cfg.localBucketSize := by
  rcases updateBucketDataSize_cases cfg (some b) size f a s with
    ⟨e, hone⟩ | ⟨b', x, hb, hx, -, -, -, hsize, hone⟩
  · rw [hone] at hrun
    cases hrun
  · cases hb
    rw [hone] at hrun
    cases hrun
    refine ⟨?_, hsize⟩
    have hplays := hs.plays b x hx
    rw [hown] at hplays
    have hx' : (if (x.dataSize : Int) < size then size.toNat else x.dataSize) =
        max (sizes f i) size.toNat := by
      rw [← show x.dataSize = sizes f i from hplays.size]
      split
      · omega
      · omega
    refine ⟨fun c y hy => ?_, fun c hc => hs.beyond c ?_, hs.stolen⟩
    · rw [SharedMem.updBucket_getElem?] at hy
      by_cases hcb : b = c
      · subst hcb
        rw [if_pos rfl, hx] at hy
        cases hy
        rw [hown]
        refine ⟨(fun h => by cases h), hplays.type, hplays.loading, hplays.deleted, hplays.evicting,
          hplays.file, hplays.index, hplays.marks, hx'.trans ?_⟩
        simp [Role.dataSize, Sizes.put]
      · rw [if_neg hcb] at hy
        exact (hs.plays c y hy).put fun state => honly c state (Ne.symm hcb)
    · rw [SharedMem.updBucket_getElem?] at hc
      by_cases hcb : b = c
      · subst hcb
        rw [if_pos rfl, hx] at hc
        cases hc
      · rwa [if_neg hcb] at hc

/-- The size of a block that the handle has active can be told, if it fits a bucket. -/
theorem run_updateBucketDataSize {cfg : Config} {size i : Nat} {holders : Finset Nat}
    (hs : s.Staffed sizes own) (htable : s.buckets.length = cfg.numberOfBlocks)
    (hown : own b = .block f i holders) (ha : a ∈ holders) (hsize : size ≤ cfg.localBucketSize) :
    ∃ s', updateBucketDataSize cfg (some b) size f a s = .ok () s' := by
  obtain ⟨x, hx⟩ := hs.bucket (b := b) (by rw [hown]; intro h; cases h)
  have hplays := hs.plays b x hx
  rw [hown] at hplays
  have hlt : ¬ b > cfg.numberOfBlocks := by
    have := (List.getElem?_eq_some_iff.mp hx).1
    omega
  have hfits : ¬ (size : Int) > cfg.localBucketSize := by omega
  have hfile : x.fileId = f := hplays.file f rfl
  have hsome : holders ≠ ∅ := Finset.ne_empty_of_mem ha
  have hactive : x.isActiveBucket = true := by
    have htype := hplays.type
    simp only [Role.type, hsome, if_false] at htype
    simp [ShareMemBucket.isActiveBucket, htype]
  have hmine : x.hasActiveId a = true := by
    rw [ShareMemBucket.hasActiveId_iff, hplays.marks]
    exact ha
  unfold updateBucketDataSize
  simp only [hfits, hlt, if_false, Library.run_bind, run_bucketAt_some hx, hfile, hactive, hmine]
  by_cases hless : (x.dataSize : Int) < size
  · simp [hless]
  · simp [hless]

end SharedMemoryContext

end Gopherwood
