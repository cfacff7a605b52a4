/-
# Leaving a file

A handle that closes its file gives back all it holds. The file stays as it is, unless
the handle was opened to delete it or the close cancels it.
-/

import Gopherwood.Coherence.Visits

namespace Gopherwood

open Library (bind_ok page slice)

/-- The account after file `f` was left, and removed if `destroy`. -/
def Account.leave (G : Account) (f : FileId) (destroy : Bool) (own : Nat → Role) : Account where
  own := own
  content := if destroy then Function.update G.content f [] else G.content
  blocks := if destroy then Function.update G.blocks f 0 else G.blocks

namespace Account

variable {G : Account} {f g : FileId} {destroy : Bool} {own : Nat → Role}

theorem leave_content (hg : destroy = true → g ≠ f) :
    (G.leave f destroy own).content g = G.content g := by
  cases destroy with
  | false => rfl
  | true => exact Function.update_of_ne (hg rfl) _ _

theorem leave_blocks (hg : destroy = true → g ≠ f) :
    (G.leave f destroy own).blocks g = G.blocks g := by
  cases destroy with
  | false => rfl
  | true => exact Function.update_of_ne (hg rfl) _ _

theorem leave_sizes (hg : destroy = true → g ≠ f) (size : Nat) :
    (G.leave f destroy own).sizes size g = G.sizes size g := by
  funext i
  rw [sizes, sizes, leave_content hg]

end Account

namespace World

variable {cfg : Config} {G G' : Account} {V : Option Victim} {w w' : World} {n m a k : Nat}
variable {h h' : FileActiveStatus} {f : FileId}

/-- What a handle attends to does not depend on the logs of others. -/
theorem Attends.relinked {done pending : List LogEntry} {R : View}
    (hh : Attends G w h a k done pending R) (hlink : w'.folder.links h.fileId = some k)
    (hcontent : w'.folder.content k = w.folder.content k) :
    Attends G w' h a k done pending R :=
  ⟨hlink, hh.follows.of_content hcontent, hh.quiet, hh.eof, hh.pos, hh.books, hh.anchored, hh.kept⟩

/-- What handle `n` leaves behind: the folder and the roles without its file if `destroy`. -/
structure LeftBehind (cfg : Config) (G : Account) (w : World) (f : FileId) (a k : Nat)
    (destroy : Bool) (own : Nat → Role) (w' : World) : Prop where
  staffed : w'.shm.Staffed (G.sizes cfg.localBucketSize) own
  links : ∀ g, w'.folder.links g = if destroy = true ∧ g = f then none else w.folder.links g
  files : w'.folder.files.length = w.folder.files.length
  spots : ∀ b g i, (own b).spot = some (g, i) ↔ (destroy = true → g ≠ f) ∧
    (G.own b).spot = some (g, i)
  others : ∀ e, e ≠ a → ∀ b, (own b).holdOf e = (G.own b).holdOf e
  unheld : ∀ b, (own b).holdOf a = none
  victim : ∀ b g i e, own b ≠ .victim g i e
  grown : ∃ L : Nat → Licence, ∃ d, (∀ k', k' ≠ k → ¬ (L k').own) ∧ w.folder.Grows L d ∧
    ∀ k', k' ≠ k → w'.folder.content k' = d.content k'
  elsewhere : ∀ g k', g ≠ f → w.folder.links g = some k' →
    w'.folder.Mirrored True cfg.localBucketSize (G.sizes cfg.localBucketSize) own g k'
  filed : destroy = false → ∃ es R, w'.folder.content k = logBytes es ∧
    replay .empty (es.map LogEntry.record) = .ok R ∧
    Gopherwood.Reflects True cfg.localBucketSize (G.sizes cfg.localBucketSize f) own f R ∧
    R.blockArray.length = G.blocks f

/-- The others go on as before. -/
theorem LeftBehind.agrees {destroy : Bool} {own : Nat → Role}
    (hl : LeftBehind cfg G w f a k destroy own w') (hw : Agrees cfg G none n w)
    (hreg : w.Registered) (hn : w.files[n]? = some h) (ha : h.activeId = some a)
    (hfile : h.fileId = f) (hk : w.folder.links f = some k) (hfiles : w'.files = w.files.set n h')
    (hnone : h'.activeId = none) : Agrees cfg (G.leave f destroy own) none n w' := by
  subst hfile
  have hback : ∀ {m : Nat} {x : FileActiveStatus} {e : Nat}, w'.files[m]? = some x →
      x.activeId = some e →
      m ≠ n ∧ w.files[m]? = some x := by
    intro m x e hm he
    rcases files_set_cases hfiles hm with ⟨rfl, rfl⟩ | hbefore
    · rw [hnone] at he
      cases he
    · exact hbefore
  have hlink : ∀ {g : FileId} {k' : Nat}, w'.folder.links g = some k' →
      (destroy = true → g ≠ h.fileId) ∧ w.folder.links g = some k' := by
    intro g k' hk'
    rw [hl.links] at hk'
    split at hk'
    · cases hk'
    · next hnot => exact ⟨fun hd hg => hnot ⟨hd, hg⟩, hk'⟩
  have hstill : ∀ {g : FileId}, g ≠ h.fileId → w'.folder.links g = w.folder.links g := by
    intro g hg
    rw [hl.links, if_neg fun hboth => hg hboth.2]
  have hapart : ∀ {g : FileId} {k' : Nat}, g ≠ h.fileId → w.folder.links g = some k' → k' ≠ k := by
    rintro g k' hg hk' rfl
    exact hg (hw.linked.injective _ _ _ hk' hk)
  obtain ⟨L, d, hown, hgrows, hcontent⟩ := hl.grown
  refine ⟨?_, ⟨fun g k' hk' => ?_, fun g g' k' hg hg' => ?_⟩, fun g k' hk' => ?_, fun g hg => ?_,
    fun g => ?_, fun b g i hspot => ?_, fun m x e hm he => ?_,
    fun m₁ m₂ x₁ x₂ e₁ e₂ hm₁ hm₂ he₁ he₂ => ?_, fun b e y hy => ?_, fun b g i e => ?_⟩
  · refine hl.staffed.resized fun b p hp => ?_
    have hspot : (own b).spot = some (p.file, p.index) := Role.spot_eq_some.mpr ⟨p.state, hp⟩
    rw [Account.leave_sizes ((hl.spots b _ _).mp hspot).1]
  · rw [hl.files]
    exact hw.linked.bound g k' (hlink hk').2
  · exact hw.linked.injective g g' k' (hlink hg).2 (hlink hg').2
  · obtain ⟨hstays, hk'⟩ := hlink hk'
    by_cases hg : g = h.fileId
    · subst hg
      obtain rfl : k = k' := Option.some.inj (hk.symm.trans hk')
      have hkept : destroy = false := by
        cases destroy with
        | false => rfl
        | true => exact absurd rfl (hstays rfl)
      obtain ⟨es, R, hes, hreplayed, hreflects, hlength⟩ := hl.filed hkept
      refine ⟨es, R, hes, hreplayed, ?_, hlength.trans (Account.leave_blocks hstays).symm⟩
      rw [Account.leave_sizes hstays]
      exact hreflects
    · obtain ⟨es, R, hes, hreplayed, hreflects⟩ := hl.elsewhere g k' hg hk'
      have hsame := hcontent k' (hapart hg hk')
      let wd : World := { w' with folder := d }
      have hmirrored : wd.folder.Mirrored True cfg.localBucketSize
          ((G.leave h.fileId destroy own).sizes cfg.localBucketSize) own g k' := by
        refine ⟨es, R, hsame.symm.trans hes, hreplayed, ?_⟩
        rw [Account.leave_sizes fun _ => hg]
        exact hreflects
      obtain ⟨es', R', hfiled⟩ := filed_of_grown hw hgrows hk' (hown k' (hapart hg hk')) hmirrored
        ⟨fun g' hg' => Account.leave_content fun _ => hg', fun g' hg' => Account.leave_blocks
          fun _ => hg'⟩ hg
      exact ⟨es', R', hsame.trans hfiled.content, hfiled.replayed, hfiled.reflects, hfiled.length⟩
  · by_cases hgone : destroy = true ∧ g = h.fileId
    · obtain ⟨rfl, rfl⟩ := hgone
      exact ⟨Function.update_self _ _ _, Function.update_self _ _ _⟩
    · rw [hl.links, if_neg hgone] at hg
      have hstays : destroy = true → g ≠ h.fileId := fun hd hsame => hgone ⟨hd, hsame⟩
      rw [Account.leave_content hstays, Account.leave_blocks hstays]
      exact hw.unfiled g hg
  · by_cases hgone : destroy = true ∧ g = h.fileId
    · obtain ⟨rfl, rfl⟩ := hgone
      have hnil : (G.leave h.fileId true own).content h.fileId = [] := Function.update_self _ _ _
      have hzero : (G.leave h.fileId true own).blocks h.fileId = 0 := Function.update_self _ _ _
      rw [hnil, hzero]
      refine ⟨fun i => ?_, Nat.zero_le _, ?_⟩
      · rw [sizes_of_nil hnil, List.length_nil, Nat.zero_sub, Nat.min_zero]
      · exact Nat.le_of_eq (Nat.zero_mul _)
    · have hstays : destroy = true → g ≠ h.fileId := fun hd hsame => hgone ⟨hd, hsame⟩
      rw [Account.leave_content hstays, Account.leave_blocks hstays, Account.leave_sizes hstays]
      exact hw.level g
  · obtain ⟨hstays, hspot⟩ := (hl.spots b g i).mp hspot
    obtain ⟨k', hk'⟩ := hw.placed b g i hspot
    refine ⟨k', ?_⟩
    rw [hl.links, if_neg fun hboth => hstays hboth.1 hboth.2]
    exact hk'
  · obtain ⟨hmn, hm⟩ := hback hm he
    obtain ⟨k', done, pending, R, hh, -⟩ := hw.attends m x e hm he
    have hg : x.fileId ≠ h.fileId := fun hsame => hmn (hw.alone m n x h e a hm hn he ha hsame)
    let wd : World := { w' with folder := d }
    have hwaits : ∃ pending' R', Attends (G.leave h.fileId destroy own) wd x e k' done
        pending' R' :=
      hh.waits hgrows (hown k' (hapart hg hh.linked)) (hl.others e (hreg.active_ne hn ha hm he hmn))
        (Account.leave_content fun _ => hg)
    obtain ⟨pending', R', hattends⟩ := hwaits
    refine ⟨k', done, pending', R', hattends.relinked ?_ (hcontent k' (hapart hg hh.linked)),
      fun h => absurd h hmn⟩
    rw [hstill hg]
    exact hh.linked
  · exact hw.alone m₁ m₂ x₁ x₂ e₁ e₂ (hback hm₁ he₁).2 (hback hm₂ he₂).2 he₁ he₂
  · have hea : e ≠ a := by
      rintro rfl
      rw [show (G.leave h.fileId destroy own).own b = own b from rfl, hl.unheld b] at hy
      cases hy
    have hy' : (G.own b).holdOf e = some y := (hl.others e hea b).symm.trans hy
    obtain ⟨m, x, hm, he⟩ := hw.holders b e y hy'
    have hmn : m ≠ n := by
      rintro rfl
      obtain rfl : h = x := Option.some.inj (hn.symm.trans hm)
      exact hea (Option.some.inj (he.symm.trans ha))
    refine ⟨m, x, ?_, he⟩
    rw [hfiles, List.getElem?_set_ne (Ne.symm hmn)]
    exact hm
  · exact ⟨fun hv => absurd hv (hl.victim b g i e), fun hv => by cases hv.1⟩

/-- The stores of what is left behind. -/
theorem LeftBehind.kept {destroy : Bool} {own : Nat → Role}
    (hl : LeftBehind cfg G w f a k destroy own w') (hw : Kept cfg G none w)
    (hspace : w'.space = w.space) : Kept cfg (G.leave f destroy own) none w' := by
  intro b g i hspot
  obtain ⟨hstays, hspot⟩ := (hl.spots b g i).mp hspot
  rw [hspace, image_none, Account.leave_content hstays, ← image_none]
  exact hw b g i hspot

theorem LeftBehind.uploaded {destroy : Bool} {own : Nat → Role}
    (hl : LeftBehind cfg G w f a k destroy own w') (hw : Uploaded cfg G none w)
    (htasks : w.tasks = []) (hoss : w'.oss = w.oss) :
    Uploaded cfg (G.leave f destroy own) none w' := by
  intro g k' hk' i hi hnowhere
  rw [hl.links] at hk'
  split at hk'
  · cases hk'
  · next hnot =>
      have hstays : destroy = true → g ≠ f := fun hd hg => hnot ⟨hd, hg⟩
      rw [Account.leave_blocks hstays] at hi
      rw [hoss, image_none, Account.leave_content hstays, ← image_none]
      rcases hw g k' hk' i hi fun b hspot => hnowhere b ((hl.spots b g i).mpr ⟨hstays, hspot⟩) with
        hobject | ⟨task, htask, -⟩
      · exact Or.inl hobject
      · rw [htasks] at htask
        exact absurd htask List.not_mem_nil

theorem LeftBehind.ledger {destroy : Bool} {own : Nat → Role}
    (hl : LeftBehind cfg G w f a k destroy own w') (hw : Ledger cfg G none n w)
    (htasks : w.tasks = []) (htasks' : w'.tasks = []) :
    Ledger cfg (G.leave f destroy own) none n w' := by
  refine ⟨?_, ?_, fun b e g i hown => ?_⟩
  · rw [htasks']
    exact fun task htask => absurd htask List.not_mem_nil
  · rw [htasks']
    exact List.nodup_nil
  · have hown' : (own b).holdOf e = some (.loading g i) := Role.holdOf_loading.mpr hown
    have hea : e ≠ a := by
      rintro rfl
      rw [hl.unheld b] at hown'
      cases hown'
    rw [hl.others e hea b] at hown'
    obtain ⟨task, htask, -⟩ := hw.listed b e g i (Role.holdOf_loading.mp hown')
    rw [htasks] at htask
    exact absurd htask List.not_mem_nil

/-- A handle of an open file closes it. -/
theorem Coherent.leaves {isCancel : Bool} {remote : List Block} {c' : Ctx}
    (hw : Coherent cfg G none none n w) (htasks : w.tasks = []) (hreg : w.Registered)
    (htagged : w.Tagged) (hn : w.files[n]? = some h) (ha : h.activeId = some a)
    (hrun : FileActiveStatus.close cfg isCancel (w.ctx h) = .ok remote c')
    (hfiles : w'.files = w.files.set n h') (hself : h' = { c'.self with pc := h'.pc })
    (hshm : w'.shm = c'.shm) (hfolder : w'.folder = c'.folder) (hoss : w'.oss = c'.oss)
    (hspace : w'.space = w.space) (htasks' : w'.tasks = []) :
    ∃ own, h'.activeId = none ∧ h'.fileId = h.fileId ∧ h'.isDelete = h.isDelete ∧
      w'.shm.tags = w.shm.tags.set a .blank ∧
      ((h.isDelete || isCancel) = false → remote = []) ∧
      ((h.isDelete || isCancel) = true → w'.folder.links h.fileId = none) ∧
      Coherent cfg (G.leave h.fileId (h.isDelete || isCancel) own) none none n w' := by
  have hagrees := hw.agrees
  obtain ⟨k, done, pending, R, hh, -⟩ := hagrees.attends n h a hn ha
  have hseat := hagrees.seat hn ha hh
  have hnoload : ∀ b e f i, G.own b ≠ .loading e f i := by
    intro b e f i hown
    obtain ⟨task, htask, -⟩ := hw.ledger.listed b e f i hown
    rw [htasks] at htask
    exact absurd htask List.not_mem_nil
  have hidle : ∀ b i, (G.own b).holdOf a ≠ some (.loading h.fileId i) :=
    fun b i hhold => hnoload b a _ i (Role.holdOf_loading.mp hhold)
  have hothers : ∀ e, e ≠ a → ∀ b i, (G.own b).holdOf e ≠ some (.cached h.fileId i) := by
    intro e hea b i hhold
    obtain ⟨m, x, hm, he⟩ := hagrees.holders b e _ hhold
    obtain ⟨k', done', pending', R', hx, -⟩ := hagrees.attends m x e hm he
    have hfile : h.fileId = x.fileId := hx.books.file b _ hhold
    obtain rfl := hagrees.alone m n x h e a hm hn he ha hfile.symm
    obtain rfl : h = x := Option.some.inj (hn.symm.trans hm)
    exact hea (Option.some.inj (he.symm.trans ha))
  obtain ⟨own₁, own', tag, gone, hspots, htag, htags, hgone, hdeparted, hremote, hunheld, hnone,
    hfile, hdelete⟩ := hseat.close hidle (fun b f i e => hagrees.calm b f i e) hothers hrun
  have halone : ∀ (m : Nat) (x : FileActiveStatus) (e : Nat), w.files[m]? = some x →
      x.activeId = some e →
      x.fileId = h.fileId → m = n := fun m x e hm he => hagrees.alone m n x h e a hm hn he ha
  have hdoomed : gone ↔ (h.isDelete || isCancel) = true := by
    rw [hgone, Site.Doomed, htagged.flag hreg hn ha htag]
    change (h.shouldDestroy || h.isDelete || isCancel) = true ∧ _ ↔ _
    rw [hh.kept, Bool.false_or]
    exact ⟨fun hd => hd.1, fun hd => ⟨hd, htagged.left_vacant hn ha halone⟩⟩
  have hlength : R.blockArray.length = G.blocks h.fileId :=
    hagrees.length hh.linked hh.follows.content hh.follows.replayed
  have hkeeps : (h.isDelete || isCancel) = false → ¬ gone := by
    intro hd hgone
    rw [hdoomed, hd] at hgone
    cases hgone
  have hleft : LeftBehind cfg G w h.fileId a k (h.isDelete || isCancel) own' w' := by
    have hsegment := hdeparted.segment
    refine ⟨hshm ▸ hsegment.staffed, fun g => ?_, ?_, fun b g i => ?_, hsegment.others, hunheld,
      fun b g i e hv => ?_, ?_, fun g k' hg hk' => ?_, fun hd => ?_⟩
    · cases hd : h.isDelete || isCancel with
      | false =>
          rw [hfolder, (hdeparted.kept (hkeeps hd)).links]
          simp only [Bool.false_eq_true, false_and, if_false]
          rfl
      | true =>
          rw [hfolder, (hdeparted.removed (hdoomed.mpr hd)).links]
          simp only [ManifestFolder.mfRemove, true_and]
          rfl
    · rw [hfolder]
      exact hdeparted.files
    · rw [← hspots b]
      cases hd : h.isDelete || isCancel with
      | false =>
          rw [(hdeparted.kept (hkeeps hd)).spots b]
          exact ⟨fun hspot => ⟨fun hd => absurd hd Bool.false_ne_true, hspot⟩, fun hspot => hspot.2⟩
      | true =>
          have hremoved := hdeparted.removed (hdoomed.mpr hd)
          constructor
          · intro hspot
            obtain ⟨state, hplace⟩ := Role.spot_eq_some.mp hspot
            obtain ⟨hg, hplace'⟩ := hremoved.gone b _ hplace
            exact ⟨fun _ => hg, Role.spot_eq_some.mpr ⟨state, hplace'⟩⟩
          · rintro ⟨hg, hspot⟩
            obtain ⟨state, hplace⟩ := Role.spot_eq_some.mp hspot
            exact Role.spot_eq_some.mpr ⟨state, hremoved.rest b _ hplace (hg rfl)⟩
    · have hv' := (hsegment.victims b g i e).mp hv
      split at hv'
      · cases hv'
      · exact hagrees.calm b g i e hv'
    · obtain ⟨d, hgrows, hcontent⟩ := hdeparted.grown
      exact ⟨_, d, fun k' hk' => hk', hgrows, fun k' hk' => hfolder ▸ hcontent k' hk'⟩
    · rw [hfolder]
      exact hdeparted.elsewhere g k' hg hk'
    · obtain ⟨es, R', hcontent, hreplayed, hreflects, hcount⟩ :=
        (hdeparted.kept (hkeeps hd)).reflects
      exact ⟨es, R', hfolder ▸ hcontent, hreplayed, hreflects, hcount.trans hlength⟩
  have hactive : h'.activeId = none := by
    rw [hself]
    exact hnone
  refine ⟨own', hactive, ?_, ?_, ?_, fun hd => hremote (hkeeps hd), fun hd => ?_,
    hleft.agrees hagrees hreg hn ha rfl hh.linked hfiles hactive, hleft.kept hw.kept hspace,
    hleft.uploaded hw.uploaded htasks (hoss.trans hdeparted.store),
    hleft.ledger hw.ledger htasks htasks'⟩
  · rw [hself]
    exact hfile
  · rw [hself]
    exact hdelete
  · rw [hshm]
    exact htags
  · rw [hleft.links, if_pos ⟨hd, rfl⟩]

end World

end Gopherwood
