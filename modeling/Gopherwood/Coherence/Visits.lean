/-
# Opening a file

A handle that opens a file gives it an empty log if it has none, replays the log, and
takes a slot. Nothing changes for the others, and the handle knows the whole file.
-/

import Gopherwood.Coherence.Loading
import Gopherwood.Coherence.Tagged

namespace Gopherwood

open Library (bind_ok page slice)

/-- The handle has been constructed, and knows nothing of its file. It learns everything
from the log, when it first catches up. -/
structure FileActiveStatus.Fresh (h : FileActiveStatus) : Prop where
  activeId : h.activeId = none
  shouldDestroy : h.shouldDestroy = false
  pos : h.pos = 0
  view : h.view = .empty
  preAllocated : h.preAllocatedBuckets = []
  loading : h.loadingBuckets = []
  cache : h.lruCache.items = []

/-- A handle that holds nothing has nothing in its lists. -/
theorem books_empty {hold : Nat → Option Hold} {f : FileId} {h : FileActiveStatus}
    (hnone : ∀ b, hold b = none) (hspares : h.preAllocatedBuckets = [])
    (hloads : h.loadingBuckets = []) (hcache : h.lruCache.items = []) :
    Books hold f h := by
  refine ⟨⟨[], ?_, List.nodup_nil, fun b => ?_, ?_⟩, ⟨[], ?_, List.nodup_nil, fun b i => ?_, ?_⟩,
    ⟨?_, fun i v => ?_⟩, fun b x hx => ?_⟩
  · rw [hspares]
    rfl
  · simp [hnone]
  · simp [hspares]
  · rw [hloads]
    rfl
  · simp [hnone]
  · simp [hloads]
  · simp [LRUCache.keys, hcache]
  · simp [hcache, hnone]
  · rw [hnone] at hx
    cases hx

namespace World

variable {cfg : Config} {G : Account} {w w' : World} {n m a k : Nat} {h h' : FileActiveStatus}
  {f : FileId}

/-- The registered handles are the same. -/
structure SameRegistered (w w' : World) : Prop where
  back : ∀ (m : Nat) (x : FileActiveStatus) (e : Nat), w'.files[m]? = some x → x.activeId = some e →
    w.files[m]? = some x
  forth : ∀ (m : Nat) (x : FileActiveStatus) (e : Nat), w.files[m]? = some x → x.activeId = some e →
    w'.files[m]? = some x

theorem SameRegistered.of_same (hfiles : w'.files = w.files) : SameRegistered w w' :=
  ⟨fun _ _ _ hm _ => hfiles ▸ hm, fun _ _ _ hm _ => hfiles ▸ hm⟩

theorem SameRegistered.of_set (hn : w.files[n]? = some h) (hfiles : w'.files = w.files.set n h')
    (hnone : h.activeId = none) (hnone' : h'.activeId = none) : SameRegistered w w' := by
  refine ⟨fun m x e hm he => ?_, fun m x e hm he => ?_⟩
  · rcases files_set_cases hfiles hm with ⟨rfl, rfl⟩ | ⟨-, hm⟩
    · rw [hnone'] at he
      cases he
    · exact hm
  · have hmn : m ≠ n := by
      rintro rfl
      rw [← Option.some.inj (hn.symm.trans hm), hnone] at he
      cases he
    rw [hfiles, List.getElem?_set_ne (Ne.symm hmn)]
    exact hm

theorem SameRegistered.of_append (hfiles : w'.files = w.files ++ [h]) (hnone : h.activeId = none) :
    SameRegistered w w' := by
  refine ⟨fun m x e hm he => ?_, fun m x e hm he => ?_⟩
  · rw [hfiles, List.getElem?_append] at hm
    split at hm
    · exact hm
    · rw [List.mem_singleton.mp (List.mem_of_getElem? hm), hnone] at he
      cases he
  · rw [hfiles, List.getElem?_append_left (List.getElem?_eq_some_iff.mp hm).1]
    exact hm

/-- While nothing is loaded, any handle may be the one that works, and handles that are not
registered may do what they like with themselves. -/
theorem Coherent.aside (hw : Coherent cfg G none none n w) (htasks : w.tasks = [])
    (hsame : SameRegistered w w') (hshm : w'.shm = w.shm) (hfolder : w'.folder = w.folder)
    (hspace : w'.space = w.space) (htasks' : w'.tasks = []) (huploaded : Uploaded cfg G none w') :
    Coherent cfg G none none m w' := by
  have hagrees := hw.agrees
  refine ⟨⟨hshm ▸ hagrees.staffed, hfolder ▸ hagrees.linked, fun f k hk => ?_,
    fun f hf => hagrees.unfiled f (hfolder ▸ hf), hagrees.level, fun b f i hspot => ?_,
    fun m' x e hm he => ?_, fun m₁ m₂ x₁ x₂ e₁ e₂ hm₁ hm₂ he₁ he₂ => ?_, fun b e y hy => ?_,
    fun b f i e => ?_⟩, hw.kept.congr (fun _ _ _ hspot => hspot) rfl hspace, huploaded, ⟨?_, ?_,
    fun b e f i hown => ?_⟩⟩
  · obtain ⟨es, R, hfiled⟩ := hagrees.filed f k (hfolder ▸ hk)
    exact ⟨es, R, hfolder ▸ hfiled.content, hfiled.replayed, hfiled.reflects, hfiled.length⟩
  · rw [hfolder]
    exact hagrees.placed b f i hspot
  · obtain ⟨k, done, pending, R, hh, -⟩ := hagrees.attends m' x e (hsame.back m' x e hm he) he
    exact ⟨k, done, pending, R, hh.touched (.of_thread rfl) hh.pos hfolder,
      fun _ hne => absurd htasks' hne⟩
  · exact hagrees.alone m₁ m₂ x₁ x₂ e₁ e₂ (hsame.back m₁ x₁ e₁ hm₁ he₁)
      (hsame.back m₂ x₂ e₂ hm₂ he₂) he₁ he₂
  · obtain ⟨m', x, hm, he⟩ := hagrees.holders b e y hy
    exact ⟨m', x, hsame.forth m' x e hm he, he⟩
  · exact ⟨fun hv => absurd hv (hagrees.calm b f i e), fun hv => by cases hv.1⟩
  · rw [htasks']
    exact fun task htask => absurd htask List.not_mem_nil
  · rw [htasks']
    exact List.nodup_nil
  · obtain ⟨task, htask, -⟩ := hw.ledger.listed b e f i hown
    rw [htasks] at htask
    exact absurd htask List.not_mem_nil

/-- While nothing is loaded, any handle may be the one that works. -/
theorem Coherent.passes (hw : Coherent cfg G none none n w) (htasks : w.tasks = []) :
    Coherent cfg G none none m w :=
  hw.aside htasks (.of_same rfl) rfl rfl rfl htasks hw.uploaded

/-- A file without data has no data in its blocks. -/
theorem sizes_of_nil (hnil : G.content f = []) (size i : Nat) : G.sizes size f i = 0 := by
  rw [Account.sizes, Library.length_page, hnil, List.length_nil, Nat.zero_sub]
  exact Nat.min_zero _

/-- A new log tells of an empty file. -/
theorem filed_empty (hw : Agrees cfg G none n w) (hnone : w.folder.links f = none)
    (hcontent : w'.folder.content k = []) : Filed cfg G w' f k [] .empty := by
  obtain ⟨hnil, hzero⟩ := hw.unfiled f hnone
  have hsizes := sizes_of_nil hnil cfg.localBucketSize
  have hend : endOf cfg.localBucketSize (G.sizes cfg.localBucketSize f) 0 = 0 := by
    rw [endOf, hsizes]
    exact (Nat.add_zero _).trans (Nat.zero_mul _)
  refine ⟨hcontent, rfl, ⟨.empty f fun b p hp => ?_, fun _ => ⟨?_, Nat.zero_le _, Nat.zero_le _⟩,
    fun _ _ => hend.symm⟩, hzero.symm⟩
  · rintro rfl
    obtain ⟨k', hk'⟩ := hw.placed b p.file p.index (Role.spot_eq_some.mpr ⟨p.state, hp⟩)
    rw [hnone] at hk'
    cases hk'
  · exact Nat.le_of_eq (Nat.zero_mul _)

/-- `mfOpen` leaves all that was said of the files, and says of a new one that it is empty. -/
theorem Coherent.opened (hw : Coherent cfg G none none n w) (f : FileId) :
    Coherent cfg G none none n { w with folder := (w.folder.mfOpen f).1 } := by
  have hagrees := hw.agrees
  rcases w.folder.mfOpen_cases f with ⟨file, hlink, hopen⟩ | ⟨hnone, -, hlength, hcontent, hlinks⟩
  · rw [hopen]
    exact hw
  · have hold : ∀ g k', g ≠ f → (w.folder.mfOpen f).1.links g = some k' →
      w.folder.links g = some k' := by
      intro g k' hg hk'
      rwa [hlinks, if_neg hg] at hk'
    have hkeep : ∀ g k', w.folder.links g = some k' → (w.folder.mfOpen f).1.links g = some k' := by
      intro g k' hk'
      have hg : g ≠ f := by
        rintro rfl
        rw [hnone] at hk'
        cases hk'
      rw [hlinks, if_neg hg]
      exact hk'
    have hself : ∀ k', (w.folder.mfOpen f).1.links f = some k' → k' = w.folder.files.length := by
      intro k' hk'
      rw [hlinks, if_pos rfl] at hk'
      exact (Option.some.inj hk').symm
    refine ⟨⟨hagrees.staffed, ⟨fun g k' hk' => ?_, fun g g' k' hg hg' => ?_⟩, fun g k' hk' => ?_,
      fun g hg => ?_, hagrees.level, fun b g i hspot => ?_, fun m x e hm he => ?_, hagrees.alone,
      hagrees.holders, hagrees.victims⟩, hw.kept.congr (fun _ _ _ hspot => hspot) rfl rfl,
      fun g k' hk' i hi hnowhere => ?_, hw.ledger.congr rfl (fun x hx => ⟨x, hx, rfl, rfl⟩)
        ⟨fun _ _ _ _ => Iff.rfl, fun _ => Nat.le_refl _, fun _ _ _ _ hspot => hspot,
          fun _ _ _ _ _ => rfl, fun _ _ _ _ _ hslice => hslice⟩⟩
    · change k' < (w.folder.mfOpen f).1.files.length
      rw [hlength]
      by_cases hg : g = f
      · subst hg
        rw [hself k' hk']
        exact Nat.lt_succ_self _
      · exact Nat.lt_succ_of_lt (hagrees.linked.bound g k' (hold g k' hg hk'))
    · by_cases hf : g = f
      · by_cases hf' : g' = f
        · exact hf.trans hf'.symm
        · have hbound := hagrees.linked.bound g' k' (hold g' k' hf' hg')
          subst hf
          rw [hself k' hg] at hbound
          exact absurd hbound (Nat.lt_irrefl _)
      · by_cases hf' : g' = f
        · have hbound := hagrees.linked.bound g k' (hold g k' hf hg)
          subst hf'
          rw [hself k' hg'] at hbound
          exact absurd hbound (Nat.lt_irrefl _)
        · exact hagrees.linked.injective g g' k' (hold g k' hf hg) (hold g' k' hf' hg')
    · by_cases hg : g = f
      · subst hg
        refine ⟨[], .empty, filed_empty hagrees hnone ?_⟩
        rw [hself k' hk']
        refine (hcontent _).trans ?_
        simp [ManifestFolder.content]
      · obtain ⟨es, R, hfiled⟩ := hagrees.filed g k' (hold g k' hg hk')
        exact ⟨es, R, (hcontent k').trans hfiled.content, hfiled.replayed, hfiled.reflects,
          hfiled.length⟩
    · refine hagrees.unfiled g ?_
      change (w.folder.mfOpen f).1.links g = none at hg
      rw [hlinks] at hg
      split at hg
      · cases hg
      · exact hg
    · obtain ⟨k', hk'⟩ := hagrees.placed b g i hspot
      exact ⟨k', hkeep g k' hk'⟩
    · obtain ⟨k', done, pending, R, hh, hcaught⟩ := hagrees.attends m x e hm he
      exact ⟨k', done, pending, R, ⟨hkeep _ _ hh.linked, hh.follows.of_content (hcontent k'),
        hh.quiet, hh.eof, hh.pos, hh.books, hh.anchored, hh.kept⟩, hcaught⟩
    · by_cases hg : g = f
      · subst hg
        rw [(hagrees.unfiled g hnone).2] at hi
        exact absurd hi (Nat.not_lt_zero _)
      · exact hw.uploaded g k' (hold g k' hg hk') i hi hnowhere

/-- A fresh handle that registers knows all that its log tells. -/
theorem registInSharedMem_ok {c c' : Ctx} {es : List LogEntry} {R : View} {u : Unit}
    (hview : c.self.view = .empty) (hfd : c.self.fd = some ⟨k, 0⟩)
    (hcontent : c.folder.content k = logBytes es)
    (hreplayed : replay .empty (es.map LogEntry.record) = .ok R)
    (hrun : FileActiveStatus.registInSharedMem c = .ok u c') :
    ∃ s a, SharedMemoryContext.registFile c.self.pid c.self.fileId c.self.isDelete c.shm =
      .ok (some a) s ∧ c' = { c with shm := s, self := { c.self with
        blockArray := R.blockArray, eof := R.eof, fd := some ⟨k, (logBytes es).length⟩
        readEntries := c'.self.readEntries, activeId := some a } } := by
  obtain ⟨⟨⟩, c₁, hcatch, hrun⟩ := bind_ok hrun
  have hat : Descriptor.At c.folder ⟨k, 0⟩ [] es := ⟨hcontent, rfl⟩
  obtain ⟨v, hv, rfl⟩ := FileActiveStatus.catchUp_replays hfd hat hcatch
  rw [hview, hreplayed] at hv
  cases hv
  obtain ⟨c₂, c₃, hget, hrun⟩ := bind_ok hrun
  cases hget
  obtain ⟨assigned, c₄, hregist, hrun⟩ := bind_ok hrun
  obtain ⟨s, hs, rfl⟩ := FileActiveStatus.onShm_ok hregist
  cases assigned with
  | none => cases hrun
  | some a =>
      obtain rfl := FileActiveStatus.modifySelf_ok hrun
      exact ⟨s, a, hs, rfl⟩

/-- Nobody has a block of a file active that no registered handle is of. -/
theorem Agrees.inactive (hw : Agrees cfg G none n w)
    (hvacant : ∀ (m : Nat) (x : FileActiveStatus) (e : Nat), w.files[m]? = some x →
      x.activeId = some e → x.fileId ≠ f) {R : View} (hmirrors : Mirrors G.own f R.blockArray) :
    ¬ R.LastActive := by
  rintro ⟨y, hy, hlocal, hactive⟩
  obtain ⟨b, -, hplace⟩ := hmirrors.stored _ y hy hlocal
  cases hown : G.own b with
  | block g j holders =>
      rw [hown, hactive] at hplace
      simp only [Role.place, Option.some.injEq, Place.mk.injEq] at hplace
      obtain ⟨rfl, -, hstate⟩ := hplace
      have hheld : holders.Nonempty := by
        rw [Finset.nonempty_iff_ne_empty]
        rintro rfl
        cases hstate
      obtain ⟨e, he⟩ := hheld
      have hhold : (G.own b).holdOf e = some (.cached g j) := by
        rw [hown]
        exact if_pos he
      obtain ⟨m, x, hm, hx⟩ := hw.holders b e _ hhold
      obtain ⟨k, done, pending, R, hh, -⟩ := hw.attends m x e hm hx
      exact hvacant m x e hm hx (hh.books.file b _ hhold).symm
  | victim g j e => exact hw.calm b g j e hown
  | free =>
      rw [hown] at hplace
      cases hplace
  | spare e g =>
      rw [hown] at hplace
      cases hplace
  | loading e g j =>
      rw [hown] at hplace
      cases hplace

/-- Nobody holds a bucket under a slot that no registered handle has. -/
theorem Agrees.unheld (hw : Agrees cfg G none n w) (hreg : w.Registered) {tag : Tag}
    (htag : w.shm.tags[a]? = some tag) (hpid : tag.pid = none) (b : Nat) :
    (G.own b).holdOf a = none := by
  rw [Option.eq_none_iff_forall_ne_some]
  intro x hx
  obtain ⟨m, y, hm, hy⟩ := hw.holders b a x hx
  have hroster := hreg.file m y a hm hy
  rw [SharedMem.roster_of_tags, List.getElem?_map, htag] at hroster
  have hsome : tag.pid = some y.pid := congrArg Prod.fst (Option.some.inj hroster)
  rw [hpid] at hsome
  cases hsome

/-- A handle that registers attends to its file. -/
theorem Coherent.registers {c : Ctx} {u : Unit} (hw : Coherent cfg G none none n w)
    (htasks : w.tasks = []) (hreg : w.Registered) (htagged : w.Tagged) (hn : w.files[n]? = some h)
    (hfresh : h.Fresh) (hfd : h.fd = some ⟨k, 0⟩) (hk : w.folder.links h.fileId = some k)
    (hvacant : ∀ (m : Nat) (x : FileActiveStatus) (e : Nat), w.files[m]? = some x →
      x.activeId = some e → x.fileId ≠ h.fileId)
    (hrun : FileActiveStatus.registInSharedMem (w.ctx h) = .ok u c)
    (hfiles : w'.files = w.files.set n h') (hself : h' = { c.self with pc := h'.pc })
    (hshm : w'.shm = c.shm) (hfolder : w'.folder = c.folder) (hoss : w'.oss = c.oss)
    (hspace : w'.space = w.space) (htasks' : w'.tasks = []) :
    ∃ a, h'.activeId = some a ∧ h'.fileId = h.fileId ∧ h'.isDelete = h.isDelete ∧ h'.pos = 0 ∧
      w'.shm.tags = w.shm.tags.set a ⟨some h.pid, h.fileId, h.isDelete⟩ ∧
      Coherent cfg G none none n w' := by
  have hagrees := hw.agrees
  obtain ⟨es, R, hfiled⟩ := hagrees.filed _ k hk
  obtain ⟨s, a, hregist, hc⟩ :=
    registInSharedMem_ok hfresh.view hfd hfiled.content hfiled.replayed hrun
  obtain ⟨hblank, htags, hbuckets⟩ := SharedMemoryContext.registFile_tags hregist htagged.blank
    (htagged.vacant (htagged.named n h hn) hvacant)
  have hstolen : s.activeStatus.map ShareMemActiveStatus.stolen =
      w.shm.activeStatus.map ShareMemActiveStatus.stolen :=
    SharedMemoryContext.registFile_map (fun _ => rfl) (fun _ _ _ _ => rfl) hregist
  have hunheld := hagrees.unheld hreg hblank rfl
  have hshm' : w'.shm = s := by rw [hshm, hc]
  have hfolder' : w'.folder = w.folder := by
    rw [hfolder, hc]
    rfl
  have hoss' : w'.oss = w.oss := by
    rw [hoss, hc]
    rfl
  rw [hc] at hself
  have hactive : h'.activeId = some a := by rw [hself]
  have hfile : h'.fileId = h.fileId := by
    rw [hself]
    rfl
  have hpos : h'.pos = 0 := by
    rw [hself]
    exact hfresh.pos
  have hnew : w'.files[n]? = some h' := by
    rw [hfiles, List.getElem?_set_self (List.getElem?_eq_some_iff.mp hn).1]
  have heof : h'.eof = (G.content h'.fileId).length := by
    have hsettled :=
      hfiled.reflects.settled trivial (hagrees.inactive hvacant hfiled.reflects.mirrors)
    rw [hfiled.length, (hagrees.level h.fileId).endOf_eq] at hsettled
    rw [hfile, hself]
    exact hsettled
  have hattends : Attends G w' h' a k es [] R := by
    refine ⟨?_, ⟨?_, ?_, ?_, ⟨R, hfiled.replayed, ?_⟩, fun _ => Or.inr ⟨not_setsEof_nil, Or.inl ?_⟩,
      fun _ _ => ?_⟩, not_setsEof_nil, heof, ?_, ?_, fun b i hb => ?_, ?_⟩
    · rw [hfolder', hfile]
      exact hk
    · rw [hself]
    · rw [hfolder', List.append_nil]
      exact hfiled.content
    · rw [List.append_nil]
      exact hfiled.replayed
    · rw [hself]
      exact .refl _ _
    · rw [hself]
    · rw [hself]
    · rw [hpos]
      exact Nat.zero_le _
    · refine books_empty hunheld ?_ ?_ ?_
      · rw [hself]
        exact hfresh.preAllocated
      · rw [hself]
        exact hfresh.loading
      · rw [hself]
        exact hfresh.cache
    · rw [hunheld b] at hb
      cases hb
    · rw [hself]
      exact hfresh.shouldDestroy
  have hback : ∀ {m : Nat} {x : FileActiveStatus} {e : Nat}, w'.files[m]? = some x →
      x.activeId = some e →
      m = n ∧ x = h' ∧ e = a ∨ m ≠ n ∧ w.files[m]? = some x := by
    intro m x e hm he
    rcases files_set_cases hfiles hm with ⟨rfl, rfl⟩ | hbefore
    · exact Or.inl ⟨rfl, rfl, Option.some.inj (he.symm.trans hactive)⟩
    · exact Or.inr hbefore
  have hforth : ∀ {m : Nat} {x : FileActiveStatus} {e : Nat}, w.files[m]? = some x →
      x.activeId = some e →
      w'.files[m]? = some x := by
    intro m x e hm he
    have hmn : m ≠ n := by
      rintro rfl
      rw [← Option.some.inj (hn.symm.trans hm), hfresh.activeId] at he
      cases he
    rw [hfiles, List.getElem?_set_ne (Ne.symm hmn)]
    exact hm
  refine ⟨a, hactive, hfile, by rw [hself]; rfl, hpos, by rw [hshm']; exact htags,
    ⟨?_, hfolder' ▸ hagrees.linked, fun f k hk => ?_, fun f hf => hagrees.unfiled f (hfolder' ▸ hf),
      hagrees.level, fun b f i hspot => ?_, fun m x e hm he => ?_,
      fun m₁ m₂ x₁ x₂ e₁ e₂ hm₁ hm₂ he₁ he₂ hsame => ?_, fun b e y hy => ?_, fun b f i e => ?_⟩,
    hw.kept.congr (fun _ _ _ hspot => hspot) rfl hspace,
    hw.uploaded.same hfolder' hoss' (htasks'.trans htasks.symm), ⟨?_, ?_, fun b e f i hown => ?_⟩⟩
  · rw [hshm']
    refine hagrees.staffed.same hbuckets fun slot hslot => ?_
    have hmem : slot.stolen ∈ w.shm.activeStatus.map ShareMemActiveStatus.stolen := by
      rw [← hstolen]
      exact List.mem_map_of_mem hslot
    obtain ⟨old, hold, hsame⟩ := List.mem_map.mp hmem
    rw [← hsame]
    exact hagrees.staffed.stolen old hold
  · obtain ⟨es', R', hfiled'⟩ := hagrees.filed f k (hfolder' ▸ hk)
    exact ⟨es', R', hfolder' ▸ hfiled'.content, hfiled'.replayed, hfiled'.reflects, hfiled'.length⟩
  · rw [hfolder']
    exact hagrees.placed b f i hspot
  · rcases hback hm he with ⟨rfl, rfl, rfl⟩ | ⟨hmn, hm⟩
    · exact ⟨k, es, [], R, hattends, fun _ _ => rfl⟩
    · obtain ⟨k', done, pending, R', hh, -⟩ := hagrees.attends m x e hm he
      exact ⟨k', done, pending, R', hh.touched (.of_thread rfl) hh.pos hfolder',
        fun h => absurd h hmn⟩
  · rcases hback hm₁ he₁ with ⟨rfl, rfl, rfl⟩ | ⟨hmn₁, hm₁⟩
    · rcases hback hm₂ he₂ with ⟨rfl, rfl, rfl⟩ | ⟨hmn₂, hm₂⟩
      · rfl
      · exact absurd (hsame.symm.trans hfile) (hvacant m₂ x₂ e₂ hm₂ he₂)
    · rcases hback hm₂ he₂ with ⟨rfl, rfl, rfl⟩ | ⟨hmn₂, hm₂⟩
      · exact absurd (hsame.trans hfile) (hvacant m₁ x₁ e₁ hm₁ he₁)
      · exact hagrees.alone m₁ m₂ x₁ x₂ e₁ e₂ hm₁ hm₂ he₁ he₂ hsame
  · obtain ⟨m, x, hm, he⟩ := hagrees.holders b e y hy
    exact ⟨m, x, hforth hm he, he⟩
  · exact ⟨fun hv => absurd hv (hagrees.calm b f i e), fun hv => by cases hv.1⟩
  · rw [htasks']
    exact fun task htask => absurd htask List.not_mem_nil
  · rw [htasks']
    exact List.nodup_nil
  · obtain ⟨task, htask, -⟩ := hw.ledger.listed b e f i hown
    rw [htasks] at htask
    exact absurd htask List.not_mem_nil

end World

end Gopherwood
