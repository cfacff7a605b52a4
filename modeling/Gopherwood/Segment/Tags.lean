/-
# Tags

What every slot says of the handle in it: the process, the file, and whether the
file is to be destroyed. Registering fills a blank tag, unregistering blanks it, and
nothing else touches one.
-/

import Gopherwood.Segment.DeferredDelete
import Gopherwood.Segment.Registration

namespace Gopherwood

open SharedMem (Leads)

/-- What a slot says of the handle in it. -/
structure Tag where
  pid : Option Nat
  fileId : FileId
  shouldDestroy : Bool
  deriving DecidableEq

def Tag.blank : Tag := ⟨none, FileId.invalid, false⟩

def ShareMemActiveStatus.tag (slot : ShareMemActiveStatus) : Tag :=
  ⟨slot.pid, slot.fileId, slot.shouldDestroy⟩

def SharedMem.tags (s : SharedMem) : List Tag := s.activeStatus.map ShareMemActiveStatus.tag

theorem SharedMem.tags_reset (cfg : Config) {tag : Tag} (htag : tag ∈ (reset cfg).tags) :
    tag = .blank := by
  obtain ⟨slot, hslot, rfl⟩ := List.mem_map.mp htag
  rw [List.eq_of_mem_replicate hslot]
  rfl

/-- A file that no tag names is not open. -/
theorem SharedMem.any_of_tags {s : SharedMem} {f : FileId} :
    (s.activeStatus.any fun slot => slot.fileId = f) = true ↔ ∃ tag ∈ s.tags, tag.fileId = f := by
  simp [tags, ShareMemActiveStatus.tag]

/-- No move changes a tag. -/
theorem SharedMem.Moves.tags {m : Move} {s s' : SharedMem} (h : Moves m s s') :
    s'.tags = s.tags := by
  cases h with
  | evict => exact map_updSlot _ _ fun _ => rfl
  | endStolen => exact map_updSlot _ _ fun _ => rfl
  | endFailed => exact map_updSlot _ _ fun _ => rfl
  | endTake => exact map_updSlot _ _ fun _ => rfl
  | endFree => exact map_updSlot _ _ fun _ => rfl
  | load => exact map_updSlot _ _ fun _ => rfl
  | loaded => exact map_updSlot _ _ fun _ => rfl
  | steal => exact map_updSlot _ _ fun _ => rfl
  | _ => rfl

theorem SharedMem.leads_tags (m : Move) (tags : List Tag) :
    Leads (fun s => s.tags = tags) m fun s => s.tags = tags :=
  fun _ _ hmove hs => hmove.tags.trans hs

namespace SharedMemoryContext

variable {s s' : SharedMem} {a pid : Nat} {fileId : FileId} {isDelete destroy : Bool}

/-- The handle of a file that nobody else has open gets a blank tag, and leaves the others. -/
theorem registFile_tags (hrun : registFile pid fileId isDelete s = .ok (some a) s')
    (hblank : ∀ tag ∈ s.tags, tag.pid = none → tag = .blank)
    (hnew : ∀ tag ∈ s.tags, tag.fileId ≠ fileId) :
    s.tags[a]? = some .blank ∧ s'.tags = s.tags.set a ⟨some pid, fileId, isDelete⟩ ∧
    s'.buckets = s.buckets := by
  have hfree : (s.activeStatus.any fun slot => slot.pid = none) = true := by
    obtain ⟨s₁, -, ⟨hnone, -⟩ | ⟨b, f, hb, -⟩⟩ := registFile_cases pid fileId isDelete s
    · rw [hnone] at hrun
      cases hrun
    · obtain ⟨slot, hslot, hsame⟩ := List.mem_map.mp (List.mem_of_getElem? hb)
      exact List.any_eq_true.mpr ⟨slot, hslot, decide_eq_true (congrArg Prod.fst hsame)⟩
  obtain ⟨b, slot, hslot, hnone, htakes⟩ := registFile_takes pid fileId isDelete hfree
  rw [htakes] at hrun
  cases hrun
  have hother : ∀ x ∈ s.activeStatus, x.fileId ≠ fileId :=
    fun x hx => hnew x.tag (List.mem_map_of_mem hx)
  have hmarks : s.activeStatus.map (deleteMark fileId isDelete) = s.activeStatus := by
    rw [List.map_congr_left fun x hx => deleteMark_other isDelete (hother x hx)]
    exact List.map_id' _
  have hnot : destroyed fileId s.activeStatus = false := by
    apply List.any_eq_false.mpr
    intro x hx
    simp [hother x hx]
  have hb : s.tags[a]? = some slot.tag := by
    rw [SharedMem.tags, List.getElem?_map, hslot]
    rfl
  have hslotBlank : slot.tag = .blank := hblank _ (List.mem_of_getElem? hb) hnone
  refine ⟨hslotBlank ▸ hb, ?_, rfl⟩
  apply List.ext_getElem?
  intro j
  simp only [SharedMem.tags, hmarks, hnot, Bool.or_false, List.getElem?_map, List.getElem?_modify,
    List.getElem?_set, List.length_map]
  by_cases hj : a = j
  · subst hj
    have hlt := (List.getElem?_eq_some_iff.mp hslot).1
    have hflag : slot.shouldDestroy = false := congrArg Tag.shouldDestroy hslotBlank
    simp only [if_true, if_pos hlt, hslot, Option.map_some]
    simp [assign, takeSlot, ShareMemActiveStatus.tag, hflag]
  · simp [hj]

/-- The slot is blank afterwards, and its flag is the answer. -/
theorem unregistFile_tags (hrun : unregistFile a pid s = .ok (some destroy) s') :
    ∃ tag, s.tags[a]? = some tag ∧ tag.shouldDestroy = destroy ∧ s'.tags = s.tags.set a .blank := by
  cases hslot : s.activeStatus[a]? with
  | none =>
      simp [unregistFile, hslot] at hrun
  | some slot =>
      by_cases hpid : slot.pid = some pid
      · rw [RegistHistory.unregistFile_run hslot hpid] at hrun
        cases hrun
        refine ⟨slot.tag, ?_, rfl, ?_⟩
        · rw [SharedMem.tags, List.getElem?_map, hslot]
          rfl
        · apply List.ext_getElem?
          intro j
          have hlt := (List.getElem?_eq_some_iff.mp hslot).1
          simp only [SharedMem.tags, SharedMem.updHeader_activeStatus, List.getElem?_map,
            SharedMem.updSlot_getElem?, List.getElem?_set, List.length_map]
          by_cases hj : a = j
          · subst hj
            simp [hlt, ShareMemActiveStatus.tag, ShareMemActiveStatus.blank, Tag.blank]
          · simp [hj]
      · simp [unregistFile, hslot, hpid] at hrun

end SharedMemoryContext

end Gopherwood
