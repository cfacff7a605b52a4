/-
# What every operation on the segment leaves alone

Only registration changes which process and file a slot belongs to: no move
touches the roster, and no move but those of `deleteBlocks` marks a bucket
deleted.
-/

import Gopherwood.Segment.Moves

namespace Gopherwood

open SharedMem (Moves Leads)

/-- The process and the file of every slot. -/
def SharedMem.roster (s : SharedMem) : List (Option Nat × FileId) :=
  s.activeStatus.map fun slot => (slot.pid, slot.fileId)

namespace SharedMem

@[simp]
theorem roster_updBucket (s : SharedMem) (b : Nat) (f : ShareMemBucket → ShareMemBucket) :
    (s.updBucket b f).roster = s.roster := rfl

@[simp]
theorem roster_updHeader (s : SharedMem) (f : ShareMemHeader → ShareMemHeader) :
    (s.updHeader f).roster = s.roster := rfl

theorem roster_updSlot {s : SharedMem} {a : Nat} {f : ShareMemActiveStatus → ShareMemActiveStatus}
    (hf : ∀ slot, (f slot).pid = slot.pid ∧ (f slot).fileId = slot.fileId) :
    (s.updSlot a f).roster = s.roster :=
  map_updSlot s a fun slot => Prod.ext (hf slot).1 (hf slot).2

/-- Replacing a slot replaces its roster entry. -/
theorem roster_updSlot_const (s : SharedMem) (a : Nat) (slot : ShareMemActiveStatus) :
    (s.updSlot a fun _ => slot).roster = s.roster.set a (slot.pid, slot.fileId) := by
  refine List.ext_getElem? fun i => ?_
  simp only [roster, List.getElem?_map, updSlot_getElem?, List.getElem?_set]
  by_cases hai : a = i
  · subst hai
    by_cases hlt : a < s.activeStatus.length
    · simp [hlt]
    · simp [hlt]
  · simp [hai]

end SharedMem

/-- No move changes the roster. -/
theorem SharedMem.Moves.roster {m : Move} {s s' : SharedMem} (h : Moves m s s') :
    s'.roster = s.roster := by
  cases h with
  | evict => exact roster_updSlot fun _ => ⟨rfl, rfl⟩
  | endStolen => exact roster_updSlot fun _ => ⟨rfl, rfl⟩
  | endFailed => exact roster_updSlot fun _ => ⟨rfl, rfl⟩
  | endTake => exact roster_updSlot fun _ => ⟨rfl, rfl⟩
  | endFree => exact roster_updSlot fun _ => ⟨rfl, rfl⟩
  | load => exact roster_updSlot fun _ => ⟨rfl, rfl⟩
  | loaded => exact roster_updSlot fun _ => ⟨rfl, rfl⟩
  | steal => exact roster_updSlot fun _ => ⟨rfl, rfl⟩
  | _ => rfl

theorem SharedMem.leads_roster (m : Move) (r : List (Option Nat × FileId)) :
    Leads (fun s => s.roster = r) m fun s => s.roster = r :=
  fun _ _ hmove hs => hmove.roster.trans hs

end Gopherwood
