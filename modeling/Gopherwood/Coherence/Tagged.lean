/-
# The tags and the handles

While no file is open in two handles and no admin is at work, the slots of the segment
are those of the registered handles, and say of each whether its file is to be
destroyed.
-/

import Gopherwood.File.Segment
import Gopherwood.Journal.Logged
import Gopherwood.Segment.Tags

namespace Gopherwood

open Library (Keeps)

theorem SharedMem.roster_of_tags (s : SharedMem) :
    s.roster = s.tags.map fun tag => (tag.pid, tag.fileId) := by
  rw [roster, tags, List.map_map]
  rfl

namespace World

variable {cfg : Config} {w w' : World} {n a : Nat} {h h' : FileActiveStatus}

/-- The tags are those of `w`. -/
def SameTags (w : World) (s : SharedMem) : Prop := s.tags = w.shm.tags

theorem leads_sameTags (w : World) (m : Move) : SharedMem.Leads w.SameTags m w.SameTags :=
  SharedMem.leads_tags m w.shm.tags

/-- Only opening and closing touch a tag. -/
theorem tags_of_file (hn : w.files[n]? = some h) (hopening : h.pc.isOpening = false)
    (hclose : ∀ isCancel, h.pc ≠ .close isCancel) (hstep : w.stepFile cfg n h = some w') :
    w'.shm.tags = w.shm.tags := by
  have hpass := Scope.passes_of_moves (S := w.untracked h) w.leads_sameTags cfg h.pc
  obtain ⟨c, hc, hreflects⟩ :=
    stepFile_session hpass hn (session_untracked rfl) hopening hclose hstep
  rw [hreflects.shm]
  exact hc.segment

/-- The end of a load. -/
theorem tags_of_finishLoad {i : Nat} {prog : StatusM Unit}
    (hprog : Keeps (Session (w.untracked h) w.SameTags False) prog) :
    (w.finishLoad i n h prog).shm.tags = w.shm.tags := by
  have hstart : Library.Spec (· = w.ctx h) prog (fun _ => Session (w.untracked h) w.SameTags False)
      (fun _ => Session (w.untracked h) w.SameTags False) :=
    Library.Spec.weaken_pre hprog fun _ hs => hs ▸ session_untracked rfl
  obtain ⟨c, h', hc, -, -, -, -, hshm, -⟩ := @finishLoad_cases n w h i prog _ hstart
  rw [hshm]
  exact hc.segment

theorem tags_of_load {i : Nat} {task : LoadTask} (hstep : w.stepLoad cfg i task = some w') :
    w'.shm.tags = w.shm.tags := by
  unfold stepLoad at hstep
  cases hphase : task.phase with
  | start =>
      simp only [hphase, Option.some.injEq] at hstep
      subst hstep
      split
      · rfl
      · rfl
  | fetched data =>
      simp only [hphase] at hstep
      split at hstep
      · cases hstep
        rfl
      · cases hstep
        rfl
  | stored size =>
      simp only [hphase] at hstep
      cases hstep
      rfl
  | removed size =>
      simp only [hphase] at hstep
      split at hstep
      · cases hstep
      · next h hn =>
          split at hstep
          · cases hstep
          · cases hstep
            exact tags_of_finishLoad (untracked_loadSucceeded (fun _ _ _ => w.leads_sameTags _)
              (fun _ _ _ => w.leads_sameTags _) task.info size)
  | failed =>
      simp only [hphase] at hstep
      split at hstep
      · cases hstep
      · next h hn =>
          split at hstep
          · cases hstep
          · cases hstep
            exact tags_of_finishLoad (FileActiveStatus.loadFailed_session
              (fun _ _ _ => w.leads_sameTags _) task.info)

/-- Every tag is blank or that of a registered handle, so a slot that nobody has says
nothing about any file. -/
structure Tagged (w : World) : Prop where
  blank : ∀ tag ∈ w.shm.tags, tag.pid = none → tag = .blank
  owned : ∀ (e : Nat) (tag : Tag), w.shm.tags[e]? = some tag → tag.pid ≠ none →
    ∃ (m : Nat) (x : FileActiveStatus), w.files[m]? = some x ∧ x.activeId = some e ∧
      tag.fileId = x.fileId ∧ tag.shouldDestroy = x.isDelete
  named : ∀ (m : Nat) (x : FileActiveStatus), w.files[m]? = some x → x.fileId ≠ FileId.invalid

theorem tagged_init (cfg : Config) : (init cfg).Tagged where
  blank tag htag _ := SharedMem.tags_reset cfg htag
  owned e tag htag hpid := by
    rw [SharedMem.tags_reset cfg (List.mem_of_getElem? htag)] at hpid
    exact absurd rfl hpid
  named m x hm := by cases hm

/-- The tag of a registered handle. -/
theorem Tagged.flag (hw : w.Tagged) (hreg : w.Registered) (hn : w.files[n]? = some h)
    (ha : h.activeId = some a) {tag : Tag} (htag : w.shm.tags[a]? = some tag) :
    tag.shouldDestroy = h.isDelete := by
  have hroster := hreg.file n h a hn ha
  rw [SharedMem.roster_of_tags, List.getElem?_map, htag] at hroster
  have hpid : tag.pid = some h.pid := congrArg Prod.fst (Option.some.inj hroster)
  obtain ⟨m, x, hm, he, -, hflag⟩ := hw.owned a tag htag (by rw [hpid]; exact Option.some_ne_none _)
  obtain rfl : m = n := by
    have hsame := hreg.distinct (.file m) (.file n) a (by simp [activeIdOf, hm, he])
      (by simp [activeIdOf, hn, ha])
    cases hsame
    rfl
  obtain rfl : x = h := Option.some.inj (hm.symm.trans hn)
  exact hflag

/-- A file that no registered handle is of has no tag. -/
theorem Tagged.vacant (hw : w.Tagged) {f : FileId} (hf : f ≠ FileId.invalid)
    (hnone : ∀ (m : Nat) (x : FileActiveStatus) (e : Nat), w.files[m]? = some x →
      x.activeId = some e → x.fileId ≠ f) : ∀ tag ∈ w.shm.tags, tag.fileId ≠ f := by
  intro tag htag hfile
  obtain ⟨e, he⟩ := List.mem_iff_getElem?.mp htag
  by_cases hpid : tag.pid = none
  · have hblank := hw.blank tag htag hpid
    rw [hblank] at hfile
    exact hf hfile.symm
  · obtain ⟨m, x, hm, hx, hsame, -⟩ := hw.owned e tag he hpid
    exact hnone m x e hm hx (hsame.symm.trans hfile)

/-- Once the only handle of a file has left, no tag names the file. -/
theorem Tagged.left_vacant (hw : w.Tagged) (hn : w.files[n]? = some h) (ha : h.activeId = some a)
    (halone : ∀ (m : Nat) (x : FileActiveStatus) (e : Nat), w.files[m]? = some x →
      x.activeId = some e → x.fileId = h.fileId → m = n) :
    ∀ tag ∈ w.shm.tags.set a .blank, tag.fileId ≠ h.fileId := by
  intro tag htag hfile
  obtain ⟨e, he⟩ := List.mem_iff_getElem?.mp htag
  have hblank : tag ≠ .blank := by
    rintro rfl
    exact hw.named n h hn hfile.symm
  rw [List.getElem?_set] at he
  split at he
  · split at he
    · exact hblank (Option.some.inj he).symm
    · cases he
  · next hae =>
      have hpid : tag.pid ≠ none :=
        fun hnone => hblank (hw.blank tag (List.mem_of_getElem? he) hnone)
      obtain ⟨m, x, hm, hx, hsame, -⟩ := hw.owned e tag he hpid
      obtain rfl := halone m x e hm hx (hsame.symm.trans hfile)
      obtain rfl : x = h := Option.some.inj (hm.symm.trans hn)
      exact hae (Option.some.inj (ha.symm.trans hx))

/-- A handle keeps its file. -/
theorem Tagged.renamed (hw : w.Tagged) (hn : w.files[n]? = some h)
    (hfiles : w'.files = w.files.set n h') (hfile : h'.fileId = h.fileId) (m : Nat)
    (x : FileActiveStatus) (hm : w'.files[m]? = some x) :
    x.fileId ≠ FileId.invalid := by
  rcases files_set_cases hfiles hm with ⟨rfl, rfl⟩ | ⟨-, hm⟩
  · rw [hfile]
    exact hw.named m h hn
  · exact hw.named m x hm

/-- A handle works and keeps its slot. -/
theorem Tagged.stays (hw : w.Tagged) (hn : w.files[n]? = some h)
    (hfiles : w'.files = w.files.set n h') (htags : w'.shm.tags = w.shm.tags)
    (hfile : h'.fileId = h.fileId) (hactive : h'.activeId = h.activeId)
    (hdelete : h'.isDelete = h.isDelete) : w'.Tagged := by
  have hnew : w'.files[n]? = some h' := by
    rw [hfiles, List.getElem?_set_self (List.getElem?_eq_some_iff.mp hn).1]
  refine ⟨htags ▸ hw.blank, fun e tag htag hpid => ?_, hw.renamed hn hfiles hfile⟩
  rw [htags] at htag
  obtain ⟨m, x, hm, hx, hsame, hflag⟩ := hw.owned e tag htag hpid
  by_cases hmn : m = n
  · subst hmn
    obtain rfl : h = x := Option.some.inj (hn.symm.trans hm)
    exact ⟨m, h', hnew, hactive.trans hx, hsame.trans hfile.symm, hflag.trans hdelete.symm⟩
  · refine ⟨m, x, ?_, hx, hsame, hflag⟩
    rw [hfiles, List.getElem?_set_ne (Ne.symm hmn)]
    exact hm

/-- A handle is constructed. -/
theorem Tagged.opens (hw : w.Tagged) (hfiles : w'.files = w.files ++ [h])
    (htags : w'.shm.tags = w.shm.tags) (hfile : h.fileId ≠ FileId.invalid) : w'.Tagged := by
  refine ⟨htags ▸ hw.blank, fun e tag htag hpid => ?_, fun m x hm => ?_⟩
  · rw [htags] at htag
    obtain ⟨m, x, hm, hx, hsame, hflag⟩ := hw.owned e tag htag hpid
    refine ⟨m, x, ?_, hx, hsame, hflag⟩
    rw [hfiles, List.getElem?_append_left (List.getElem?_eq_some_iff.mp hm).1]
    exact hm
  · rw [hfiles] at hm
    rcases List.mem_append.mp (List.mem_of_getElem? hm) with hold | hnew
    · obtain ⟨j, hj⟩ := List.mem_iff_getElem?.mp hold
      exact hw.named j x hj
    · obtain rfl := List.mem_singleton.mp hnew
      exact hfile

/-- A handle takes a blank tag. -/
theorem Tagged.joins (hw : w.Tagged) (hn : w.files[n]? = some h) (hnone : h.activeId = none)
    (hfiles : w'.files = w.files.set n h') (hfile : h'.fileId = h.fileId)
    (hactive : h'.activeId = some a)
    (htags : w'.shm.tags = w.shm.tags.set a ⟨some h.pid, h.fileId, h'.isDelete⟩) : w'.Tagged := by
  have hnew : w'.files[n]? = some h' := by
    rw [hfiles, List.getElem?_set_self (List.getElem?_eq_some_iff.mp hn).1]
  refine ⟨fun tag htag hpid => ?_, fun e tag htag hpid => ?_, hw.renamed hn hfiles hfile⟩
  · rw [htags] at htag
    rcases List.mem_or_eq_of_mem_set htag with hold | rfl
    · exact hw.blank tag hold hpid
    · cases hpid
  · rw [htags, List.getElem?_set] at htag
    split at htag
    · next hae =>
        subst hae
        split at htag
        · cases htag
          exact ⟨n, h', hnew, hactive, hfile.symm, rfl⟩
        · cases htag
    · obtain ⟨m, x, hm, hx, hsame, hflag⟩ := hw.owned e tag htag hpid
      have hmn : m ≠ n := by
        rintro rfl
        obtain rfl : h = x := Option.some.inj (hn.symm.trans hm)
        rw [hnone] at hx
        cases hx
      refine ⟨m, x, ?_, hx, hsame, hflag⟩
      rw [hfiles, List.getElem?_set_ne (Ne.symm hmn)]
      exact hm

/-- A handle gives its tag back. -/
theorem Tagged.leaves (hw : w.Tagged) (hn : w.files[n]? = some h) (ha : h.activeId = some a)
    (hfiles : w'.files = w.files.set n h') (hfile : h'.fileId = h.fileId)
    (htags : w'.shm.tags = w.shm.tags.set a .blank) : w'.Tagged := by
  refine ⟨fun tag htag hpid => ?_, fun e tag htag hpid => ?_, hw.renamed hn hfiles hfile⟩
  · rw [htags] at htag
    rcases List.mem_or_eq_of_mem_set htag with hold | rfl
    · exact hw.blank tag hold hpid
    · rfl
  · rw [htags, List.getElem?_set] at htag
    split at htag
    · split at htag
      · cases htag
        exact absurd rfl hpid
      · cases htag
    · next hae =>
        obtain ⟨m, x, hm, hx, hsame, hflag⟩ := hw.owned e tag htag hpid
        have hmn : m ≠ n := by
          rintro rfl
          obtain rfl : h = x := Option.some.inj (hn.symm.trans hm)
          exact hae (Option.some.inj (ha.symm.trans hx))
        refine ⟨m, x, ?_, hx, hsame, hflag⟩
        rw [hfiles, List.getElem?_set_ne (Ne.symm hmn)]
        exact hm

end World

end Gopherwood
