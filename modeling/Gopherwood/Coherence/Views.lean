/-
# Views of a log

A handle's cached block array follows the log, with one exception: the handle that
activates a used block logs it but does not note it in its own array. The array
therefore shadows the replayed one, and goes on shadowing it whatever is replayed.
The replayed array in turn mirrors the roles of the buckets: a block is local in a
bucket exactly when the bucket stores it.
-/

import Gopherwood.Journal.CatchUp
import Gopherwood.Segment.Roles

namespace Gopherwood

/-- The cached block `x` is the replayed block `y`, or, where the cache `lags`, has not
noted that `y` was activated. -/
structure Block.Shadows (lags : Prop) (x y : Block) : Prop where
  bucketId : x.bucketId = y.bucketId
  blockId : x.blockId = y.blockId
  isLocal : x.isLocal = y.isLocal
  state : x.state = y.state ∨ lags ∧ x.state = .used ∧ y.state = .active

theorem Block.Shadows.refl (lags : Prop) (x : Block) :
    x.Shadows lags x := ⟨rfl, rfl, rfl, Or.inl rfl⟩

/-- A cached block array and a replayed one. -/
structure Shadows (lags : Prop) (xs ys : List Block) : Prop where
  length : xs.length = ys.length
  block : ∀ (i : Nat) (x y : Block), xs[i]? = some x → ys[i]? = some y → x.Shadows lags y

namespace Shadows

variable {lags : Prop} {xs ys : List Block} {x y : Block} {i : Nat}

theorem refl (lags : Prop) (xs : List Block) : Shadows lags xs xs := by
  refine ⟨rfl, fun i x y hx hy => ?_⟩
  cases hx.symm.trans hy
  exact .refl lags x

/-- A cached block has a replayed one. -/
theorem replayed (h : Shadows lags xs ys) (hx : xs[i]? = some x) :
    ∃ y, ys[i]? = some y ∧ x.Shadows lags y := by
  have hlt : i < ys.length := h.length ▸ (List.getElem?_eq_some_iff.mp hx).1
  exact ⟨ys[i], List.getElem?_eq_getElem hlt, h.block i _ _ hx (List.getElem?_eq_getElem hlt)⟩

theorem cached (h : Shadows lags xs ys) (hy : ys[i]? = some y) :
    ∃ x, xs[i]? = some x ∧ x.Shadows lags y := by
  have hlt : i < xs.length := h.length.symm ▸ (List.getElem?_eq_some_iff.mp hy).1
  exact ⟨xs[i], List.getElem?_eq_getElem hlt, h.block i _ _ (List.getElem?_eq_getElem hlt) hy⟩

/-- Blocks are appended to both. -/
theorem append {zs ws : List Block} (h : Shadows lags xs ys) (h' : Shadows lags zs ws) :
    Shadows lags (xs ++ zs) (ys ++ ws) := by
  refine ⟨by
    rw [List.length_append, List.length_append, h.length, h'.length], fun i x y hx hy => ?_⟩
  rw [List.getElem?_append] at hx hy
  rw [h.length] at hx
  split at hx
  · next hlt =>
      rw [if_pos hlt] at hy
      exact h.block i x y hx hy
  · next hlt =>
      rw [if_neg hlt] at hy
      exact h'.block _ x y hx hy

theorem singleton (h : x.Shadows lags y) : Shadows lags [x] [y] := by
  refine ⟨rfl, fun i x' y' hx hy => ?_⟩
  cases i with
  | zero =>
      cases hx
      cases hy
      exact h
  | succ i => cases hx

/-- One block is changed in both. -/
theorem modify (h : Shadows lags xs ys) (i : Nat) {f g : Block → Block}
    (hfg : ∀ x y, x.Shadows lags y → (f x).Shadows lags (g y)) :
    Shadows lags (xs.modify i f) (ys.modify i g) := by
  refine ⟨by rw [List.length_modify, List.length_modify, h.length], fun j x y hx hy => ?_⟩
  rw [List.getElem?_modify] at hx hy
  obtain ⟨x', hx', rfl⟩ := Option.map_eq_some_iff.mp hx
  obtain ⟨y', hy', rfl⟩ := Option.map_eq_some_iff.mp hy
  have hblock := h.block j x' y' hx' hy'
  split
  · exact hfg _ _ hblock
  · exact hblock

/-- One block is replaced in both. -/
theorem set (h : Shadows lags xs ys) (i : Nat) (hxy : x.Shadows lags y) :
    Shadows lags (xs.set i x) (ys.set i y) := by
  refine ⟨by rw [List.length_set, List.length_set, h.length], fun j x' y' hx hy => ?_⟩
  rw [List.getElem?_set] at hx hy
  rw [h.length] at hx
  by_cases hij : i = j
  · rw [if_pos hij] at hx hy
    split at hx
    · next hlt =>
        rw [if_pos hlt] at hy
        cases hx
        cases hy
        exact hxy
    · cases hx
  · rw [if_neg hij] at hx hy
    exact h.block j x' y' hx hy

/-- The log may change a block that the handle sees unchanged. -/
theorem modify_right (h : Shadows lags xs ys) {g : Block → Block}
    (hg : ∀ x y, xs[i]? = some x → x.Shadows lags y → x.Shadows lags (g y)) :
    Shadows lags xs (ys.modify i g) := by
  refine ⟨by rw [List.length_modify, h.length], fun j x y hx hy => ?_⟩
  rw [List.getElem?_modify] at hy
  obtain ⟨y', hy', rfl⟩ := Option.map_eq_some_iff.mp hy
  have hblock := h.block j x y' hx hy'
  split
  · next hij =>
      subst hij
      exact hg x y' hx hblock
  · exact hblock

/-- What the handle does to its own array, the array that is replayed may do
without. -/
theorem modify_left (h : Shadows lags xs ys) (i : Nat) {f : Block → Block}
    (hf : ∀ x y, x.Shadows lags y → (f x).Shadows lags y) : Shadows lags (xs.modify i f) ys := by
  have hmodify := h.modify i (f := f) (g := id) hf
  rwa [List.modify_id] at hmodify

end Shadows

/-- Both arrays set the state of one block. -/
theorem setBlockState_shadows {lags : Prop} {state : BucketType} {xs ys ys' : List Block}
    {id : Option Nat} (h : Shadows lags xs ys) (hset : setBlockState state ys id = .ok ys') :
    ∃ xs', setBlockState state xs id = .ok xs' ∧ Shadows lags xs' ys' := by
  cases id with
  | none => cases hset
  | some i =>
      simp only [setBlockState] at hset ⊢
      rw [h.length]
      split at hset
      · next hlt =>
          cases hset
          rw [if_pos hlt]
          exact ⟨_, rfl, h.modify i fun x y hxy =>
            ⟨hxy.bucketId, hxy.blockId, hxy.isLocal, Or.inl rfl⟩⟩
      · cases hset

theorem setBlockStates_shadows {lags : Prop} {state : BucketType} {ids : List (Option Nat)} :
    ∀ {xs ys ys' : List Block}, Shadows lags xs ys → ids.foldlM (setBlockState state) ys = .ok ys' →
      ∃ xs', ids.foldlM (setBlockState state) xs = .ok xs' ∧ Shadows lags xs' ys' := by
  induction ids with
  | nil =>
      intro xs ys ys' h hset
      cases hset
      exact ⟨xs, rfl, h⟩
  | cons id rest ih =>
      intro xs ys ys' h hset
      rw [List.foldlM_cons] at hset
      cases hfirst : setBlockState state ys id with
      | error e =>
          rw [hfirst] at hset
          cases hset
      | ok mid =>
          rw [hfirst] at hset
          obtain ⟨xs₁, hxs₁, h₁⟩ := setBlockState_shadows h hfirst
          obtain ⟨xs', hxs', h'⟩ := ih h₁ hset
          refine ⟨xs', ?_, h'⟩
          rw [List.foldlM_cons, hxs₁]
          exact hxs'

/-- Both arrays replace one block. -/
theorem replaceBlock_shadows {lags : Prop} {test : Block → Bool} {e : GwError} {v r r' : View}
    {blocks : List Block} (h : Shadows lags v.blockArray r.blockArray)
    (htest : ∀ x y, x.Shadows lags y → test y = true → test x = true)
    (hreplace : replaceBlock test e r blocks = .ok r') :
    ∃ v', replaceBlock test e v blocks = .ok v' ∧ Shadows lags v'.blockArray r'.blockArray ∧
      v'.eof = v.eof ∧ r'.eof = r.eof := by
  cases blocks with
  | nil => cases hreplace
  | cons block rest =>
      simp only [replaceBlock] at hreplace ⊢
      cases hid : block.blockId with
      | none =>
          rw [hid] at hreplace
          cases hreplace
      | some i =>
          rw [hid] at hreplace
          dsimp only at hreplace ⊢
          cases hy : r.blockArray[i]? with
          | none =>
              rw [hy] at hreplace
              cases hreplace
          | some y =>
              rw [hy] at hreplace
              obtain ⟨x, hx, hxy⟩ := h.cached hy
              rw [hx]
              dsimp only at hreplace ⊢
              split at hreplace
              · next hpass =>
                  cases hreplace
                  rw [if_pos (htest x y hxy hpass)]
                  exact ⟨_, rfl, h.set i (.refl lags block), rfl, rfl⟩
              · cases hreplace

/-- A record that the log can be replayed with can be replayed by a handle. -/
theorem replayRecord_shadows {lags : Prop} {v r r' : View} {record : Record}
    (h : Shadows lags v.blockArray r.blockArray) (hreplay : replayRecord r record = .ok r') :
    ∃ v', replayRecord v record = .ok v' ∧ Shadows lags v'.blockArray r'.blockArray := by
  obtain ⟨type, eof, blocks⟩ := record
  have hstates : ∀ state : BucketType,
      (do
        let blocks ← (blocks.map Block.blockId).foldlM (setBlockState state) r.blockArray
        return { r with blockArray := blocks } : Except GwError View) = .ok r' →
      ∃ v', (do
        let blocks ← (blocks.map Block.blockId).foldlM (setBlockState state) v.blockArray
        return { v with blockArray := blocks } : Except GwError View) = .ok v' ∧
        Shadows lags v'.blockArray r'.blockArray := by
    intro state hstate
    cases hfold : (blocks.map Block.blockId).foldlM (setBlockState state) r.blockArray with
    | error e =>
        rw [hfold] at hstate
        cases hstate
    | ok ys =>
        rw [hfold] at hstate
        cases hstate
        obtain ⟨xs, hxs, hshadows⟩ := setBlockStates_shadows h hfold
        rw [hxs]
        exact ⟨_, rfl, hshadows⟩
  cases type with
  | activeBlock => exact hstates .active hreplay
  | inactiveBlock => exact hstates .used hreplay
  | acquireNewBlock =>
      cases hreplay
      exact ⟨v, rfl, h⟩
  | releaseBlock =>
      cases hreplay
      exact ⟨v, rfl, h⟩
  | extendBlock =>
      cases blocks with
      | nil => cases hreplay
      | cons block rest =>
          cases hreplay
          exact ⟨_, rfl, h.append (.refl lags [block])⟩
  | evictBlock =>
      obtain ⟨v', hv', hshadows, -⟩ := replaceBlock_shadows h (fun x y hxy htest => by
        simp only [Bool.and_eq_true, decide_eq_true_eq] at htest ⊢
        refine ⟨hxy.isLocal.trans htest.1, ?_⟩
        rcases hxy.state with heq | ⟨-, hused, -⟩
        · exact heq.trans htest.2
        · exact hused) hreplay
      exact ⟨v', hv', hshadows⟩
  | loadBlock =>
      obtain ⟨v', hv', hshadows, -⟩ := replaceBlock_shadows h (fun x y hxy htest => by
        rw [hxy.isLocal]
        exact htest) hreplay
      exact ⟨v', hv', hshadows⟩
  | fullStatus =>
      cases hreplay
      exact ⟨_, rfl, h.append (.refl lags blocks)⟩
  | updateEof =>
      cases hreplay
      exact ⟨_, rfl, h⟩

/-- What is replayed by the log can be replayed by a handle. -/
theorem replay_shadows {lags : Prop} {records : List Record} :
    ∀ {v r r' : View}, Shadows lags v.blockArray r.blockArray → replay r records = .ok r' →
      ∃ v', replay v records = .ok v' ∧ Shadows lags v'.blockArray r'.blockArray := by
  induction records with
  | nil =>
      intro v r r' h hreplay
      cases hreplay
      exact ⟨v, rfl, h⟩
  | cons record rest ih =>
      intro v r r' h hreplay
      rcases replay_cons_cases r record rest with ⟨e, -, herror⟩ | ⟨mid, hmid, hrest⟩
      · rw [herror] at hreplay
        cases hreplay
      · rw [hrest] at hreplay
        obtain ⟨v₁, hv₁, h₁⟩ := replayRecord_shadows h hmid
        obtain ⟨v', hv', h'⟩ := ih h₁ hreplay
        exact ⟨v', replay_cons_ok hv₁ hv', h'⟩

/-! ## Replayed blocks and buckets -/

/-- A replayed block array says where the blocks of the file are: each is under its
own number, and it is local in a bucket exactly when the bucket stores it. -/
structure Mirrors (own : Nat → Role) (f : FileId) (ys : List Block) : Prop where
  blockId : ∀ (i : Nat) (y : Block), ys[i]? = some y → y.blockId = some i
  remote : ∀ (i : Nat) (y : Block), ys[i]? = some y → y.isLocal = false →
    y.bucketId = none ∧ y.state = .free
  stored : ∀ (i : Nat) (y : Block), ys[i]? = some y → y.isLocal = true →
    ∃ b, y.bucketId = some b ∧ (own b).place = some ⟨f, i, y.state⟩
  placed : ∀ (b i : Nat) (state : BucketType), (own b).place = some ⟨f, i, state⟩ →
    ∃ y, ys[i]? = some y ∧ y.isLocal = true ∧ y.bucketId = some b

namespace Mirrors

variable {own own' : Nat → Role} {f : FileId} {ys ys' : List Block} {b b' i : Nat} {y : Block}
variable {state state' : BucketType} {r : Role}

theorem empty (f : FileId) (h : ∀ b p, (own b).place = some p → p.file ≠ f) : Mirrors own f [] where
  blockId i y hy := by cases hy
  remote i y hy := by cases hy
  stored i y hy := by cases hy
  placed b i state hb := absurd rfl (h b _ hb)

/-- A block is stored in one bucket. -/
theorem unique (h : Mirrors own f ys) (hb : (own b).place = some ⟨f, i, state⟩)
    (hb' : (own b').place = some ⟨f, i, state'⟩) : b = b' := by
  obtain ⟨y, hy, -, hyb⟩ := h.placed b i state hb
  obtain ⟨y', hy', -, hyb'⟩ := h.placed b' i state' hb'
  cases hy.symm.trans hy'
  exact Option.some.inj (hyb.symm.trans hyb')

/-- The array only depends on which blocks of the file are stored where. -/
theorem congr (h : Mirrors own f ys)
    (hplace : ∀ b i state, (own' b).place = some ⟨f, i, state⟩ ↔
    (own b).place = some ⟨f, i, state⟩) :
    Mirrors own' f ys where
  blockId := h.blockId
  remote := h.remote
  stored i y hy hlocal := by
    obtain ⟨b, hb, hown⟩ := h.stored i y hy hlocal
    exact ⟨b, hb, (hplace b i _).mpr hown⟩
  placed b i state hb := h.placed b i state ((hplace b i state).mp hb)

/-- One bucket changes its role, and with it one block its entry. -/
theorem recast (h : Mirrors own f ys) (b i : Nat) (r : Role)
    (hother : ∀ j, j ≠ i → ys'[j]? = ys[j]?)
    (hold : ∀ j state, (own b).place = some ⟨f, j, state⟩ → j = i)
    (hnew : ∀ j state, r.place = some ⟨f, j, state⟩ → j = i)
    (hfree : ∀ b' state, b' ≠ b → (own b').place ≠ some ⟨f, i, state⟩)
    (hid : ∀ y, ys'[i]? = some y → y.blockId = some i)
    (hremote : ∀ y, ys'[i]? = some y → y.isLocal = false → y.bucketId = none ∧ y.state = .free)
    (hstored : ∀ y, ys'[i]? = some y → y.isLocal = true →
      y.bucketId = some b ∧ r.place = some ⟨f, i, y.state⟩)
    (hplaced : ∀ state, r.place = some ⟨f, i, state⟩ →
      ∃ y, ys'[i]? = some y ∧ y.isLocal = true ∧ y.bucketId = some b) :
    Mirrors (Function.update own b r) f ys' where
  blockId j y hy := by
    by_cases hj : j = i
    · subst hj
      exact hid y hy
    · rw [hother j hj] at hy
      exact h.blockId j y hy
  remote j y hy hlocal := by
    by_cases hj : j = i
    · subst hj
      exact hremote y hy hlocal
    · rw [hother j hj] at hy
      exact h.remote j y hy hlocal
  stored j y hy hlocal := by
    by_cases hj : j = i
    · subst hj
      obtain ⟨hb, hplace⟩ := hstored y hy hlocal
      exact ⟨b, hb, by rw [Function.update_self]; exact hplace⟩
    · rw [hother j hj] at hy
      obtain ⟨c, hc, hplace⟩ := h.stored j y hy hlocal
      have hcb : c ≠ b := by
        rintro rfl
        exact hj (hold j _ hplace)
      exact ⟨c, hc, by rw [Function.update_of_ne hcb]; exact hplace⟩
  placed c j state hc := by
    by_cases hcb : c = b
    · subst hcb
      rw [Function.update_self] at hc
      obtain rfl := hnew j state hc
      exact hplaced state hc
    · rw [Function.update_of_ne hcb] at hc
      have hj : j ≠ i := by
        rintro rfl
        exact hfree c state hcb hc
      rw [hother j hj]
      exact h.placed c j state hc

/-- The bucket of a block is the only one that stores it. -/
theorem only (h : Mirrors own f ys) (hb : (own b).place = some ⟨f, i, state⟩) :
    ∀ c state, c ≠ b → (own c).place ≠ some ⟨f, i, state⟩ :=
  fun _ _ hne hc => hne (h.unique hc hb)

/-- A block that is not local is stored nowhere. -/
theorem nowhere (h : Mirrors own f ys) (hy : ∀ y, ys[i]? = some y → y.isLocal = false) :
    ∀ c state, (own c).place ≠ some ⟨f, i, state⟩ := by
  intro c state hc
  obtain ⟨y, hy', hlocal, -⟩ := h.placed c i state hc
  rw [hy y hy'] at hlocal
  cases hlocal

/-- The role of a bucket changes in what the log does not tell. -/
theorem retouch (h : Mirrors own f ys) (hr : r.place = (own b).place) :
    Mirrors (Function.update own b r) f ys := by
  refine h.congr fun c i state => ?_
  by_cases hcb : c = b
  · subst hcb
    rw [Function.update_self, hr]
  · rw [Function.update_of_ne hcb]

/-- A role of another file changes. -/
theorem elsewhere (h : Mirrors own f ys) (hold : ∀ p, (own b).place = some p → p.file ≠ f)
    (hnew : ∀ p, r.place = some p → p.file ≠ f) : Mirrors (Function.update own b r) f ys := by
  refine h.congr fun c i state => ?_
  by_cases hcb : c = b
  · subst hcb
    rw [Function.update_self]
    exact ⟨fun hc => absurd rfl (hnew _ hc), fun hc => absurd rfl (hold _ hc)⟩
  · rw [Function.update_of_ne hcb]

/-- A block is appended. -/
theorem append (h : Mirrors own f ys) (hold : (own b).place = none)
    (hr : r.place = some ⟨f, ys.length, y.state⟩) (hid : y.blockId = some ys.length)
    (hlocal : y.isLocal = true) (hb : y.bucketId = some b) :
    Mirrors (Function.update own b r) f (ys ++ [y]) := by
  refine h.recast b ys.length r (fun j hj => ?_) (fun j state hj => ?_) (fun j state hj => ?_)
    (fun c state _ => ?_) (fun z hz => ?_) (fun z hz hfar => ?_) (fun z hz _ => ?_)
      fun state _ => ?_
  · rcases Nat.lt_or_gt_of_ne hj with hlt | hgt
    · exact List.getElem?_append_left hlt
    · rw [List.getElem?_eq_none (by simp; omega), List.getElem?_eq_none (by omega)]
  · rw [hold] at hj
    cases hj
  · rw [hr] at hj
    cases hj
    rfl
  · apply h.nowhere
    intro z hz
    rw [List.getElem?_eq_none (Nat.le_refl _)] at hz
    cases hz
  · rw [List.getElem?_concat_length] at hz
    cases hz
    exact hid
  · rw [List.getElem?_concat_length] at hz
    cases hz
    rw [hlocal] at hfar
    cases hfar
  · rw [List.getElem?_concat_length] at hz
    cases hz
    exact ⟨hb, hr⟩
  · exact ⟨y, List.getElem?_concat_length, hlocal, hb⟩

/-- The state of a block changes. -/
theorem modify (h : Mirrors own f ys) (hold : (own b).place = some ⟨f, i, state⟩)
    (hr : r.place = some ⟨f, i, state'⟩) :
    Mirrors (Function.update own b r) f (ys.modify i fun y => { y with state := state' }) := by
  obtain ⟨y, hy, hlocal, hyb⟩ := h.placed b i state hold
  have hget : (ys.modify i fun y => { y with state := state' })[i]? =
      some { y with state := state' } := by
    simp [hy]
  refine h.recast b i r (fun j hj => ?_) (fun j state hj => ?_) (fun j state hj => ?_)
    (h.only hold) (fun z hz => ?_) (fun z hz hfar => ?_) (fun z hz _ => ?_) fun state _ => ?_
  · simp [Ne.symm hj]
  · rw [hold] at hj
    cases hj
    rfl
  · rw [hr] at hj
    cases hj
    rfl
  · rw [hget] at hz
    cases hz
    exact h.blockId i y hy
  · rw [hget] at hz
    cases hz
    rw [hlocal] at hfar
    cases hfar
  · rw [hget] at hz
    cases hz
    exact ⟨hyb, hr⟩
  · exact ⟨_, hget, hlocal, hyb⟩

/-- A block leaves its bucket. -/
theorem evict (h : Mirrors own f ys) (hold : (own b).place = some ⟨f, i, state⟩)
    (hr : r.place = none) (hid : y.blockId = some i) (hremote : y.isLocal = false)
    (hb : y.bucketId = none) (hfree : y.state = .free) :
    Mirrors (Function.update own b r) f (ys.set i y) := by
  have hget : ∀ z, (ys.set i y)[i]? = some z → z = y := by
    intro z hz
    rw [List.getElem?_set_self'] at hz
    obtain ⟨_, -, rfl⟩ := Option.map_eq_some_iff.mp hz
    rfl
  refine h.recast b i r (fun j hj => ?_) (fun j state hj => ?_) (fun j state hj => ?_)
    (h.only hold) (fun z hz => ?_) (fun z hz _ => ?_) (fun z hz hlocal => ?_) fun state hplace => ?_
  · exact List.getElem?_set_ne (Ne.symm hj)
  · rw [hold] at hj
    cases hj
    rfl
  · rw [hr] at hj
    cases hj
  · rw [hget z hz]
    exact hid
  · rw [hget z hz]
    exact ⟨hb, hfree⟩
  · rw [hget z hz, hremote] at hlocal
    cases hlocal
  · rw [hr] at hplace
    cases hplace

/-- A block that was stored nowhere comes into a bucket. -/
theorem load (h : Mirrors own f ys) {z : Block} (hz : ys[i]? = some z) (hremote : z.isLocal = false)
    (hold : (own b).place = none) (hr : r.place = some ⟨f, i, y.state⟩) (hid : y.blockId = some i)
    (hlocal : y.isLocal = true) (hb : y.bucketId = some b) :
    Mirrors (Function.update own b r) f (ys.set i y) := by
  have hget : (ys.set i y)[i]? = some y :=
    List.getElem?_set_self (List.getElem?_eq_some_iff.mp hz).1
  refine h.recast b i r (fun j hj => ?_) (fun j state hj => ?_) (fun j state hj => ?_)
    (fun c state _ => ?_) (fun x hx => ?_) (fun x hx hfar => ?_) (fun x hx _ => ?_)
      fun state _ => ?_
  · exact List.getElem?_set_ne (Ne.symm hj)
  · rw [hold] at hj
    cases hj
  · rw [hr] at hj
    cases hj
    rfl
  · apply h.nowhere
    intro x hx
    cases hz.symm.trans hx
    exact hremote
  · rw [hget] at hx
    cases hx
    exact hid
  · rw [hget] at hx
    cases hx
    rw [hlocal] at hfar
    cases hfar
  · rw [hget] at hx
    cases hx
    exact ⟨hb, hr⟩
  · exact ⟨y, hget, hlocal, hb⟩

end Mirrors

end Gopherwood
