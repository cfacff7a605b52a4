/-
# The names of stored blocks and manifests

An evicted block is stored under the host, the file and the block, a manifest under its
file. A manifest name has a separator between the two numbers of a file. `FileId::toString`,
which the name of an object uses, has none, so two files can share the names of their
objects.
-/

import Gopherwood.File.System
import Gopherwood.Library.Decimal

namespace Gopherwood

open Library

/-- `FileId::toString`. -/
def FileId.toString (f : FileId) : String := f.hashcode.repr ++ f.collisionId.repr

/-- A block id on a stream; the invalid one is `-1`. -/
def blockIdText : Option Nat → String
  | some i => i.repr
  | none => "-1"

/-- `OssBlockWorker::getOssObjectName` on a host. -/
def getOssObjectName (hostname : String) (blockInfo : BlockInfo) : String :=
  "gopherwood/" ++ hostname ++ "/" ++ blockInfo.fileId.toString ++ "/" ++
    blockIdText blockInfo.blockId

/-- `Configuration::MANIFEST_FOLDER`. -/
def manifestFolder : String := "/manifest"

/-- `Manifest::getManifestFileName`. -/
def getManifestFileName (workDir : String) (fileId : FileId) : String :=
  workDir ++ manifestFolder ++ "/" ++ fileId.hashcode.repr ++ "-" ++ fileId.collisionId.repr

/-- The characters of `FileId::toString`. -/
theorem FileId.toList_toString (f : FileId) :
    f.toString.toList = Nat.toDigits 10 f.hashcode ++ Nat.toDigits 10 f.collisionId := by
  simp [FileId.toString]

/-- The number that `FileId::toString` writes. -/
def FileId.numeral (f : FileId) : Nat := joined f.hashcode f.collisionId

/-- Two files that are written in the same way. -/
theorem FileId.toString_eq_iff (f g : FileId) :
    f.toString = g.toString ↔
      f = g ∨ f.hashcode ≠ 0 ∧ g.hashcode ≠ 0 ∧ f.numeral = g.numeral := by
  rw [← String.toList_inj, toList_toString, toList_toString, toDigits_append_eq_iff]
  cases f
  cases g
  simp only [FileId.mk.injEq, FileId.numeral]

theorem blockIdText_injective {i j : Option Nat} (h : blockIdText i = blockIdText j) : i = j := by
  rw [← String.toList_inj] at h
  have hminus : ∀ n, '-' ∉ Nat.toDigits 10 n := notMem_toDigits rfl
  cases i with
  | none =>
      cases j with
      | none => rfl
      | some j =>
          rw [blockIdText, blockIdText, Nat.toList_repr] at h
          exact absurd (h ▸ List.mem_cons_self) (hminus j)
  | some i =>
      cases j with
      | none =>
          rw [blockIdText, blockIdText, Nat.toList_repr] at h
          exact absurd (h.symm ▸ List.mem_cons_self) (hminus i)
      | some j =>
          rw [blockIdText, blockIdText, Nat.toList_repr, Nat.toList_repr] at h
          rw [toDigits_injective h]

theorem slash_notMem_blockIdText (i : Option Nat) : '/' ∉ (blockIdText i).toList := by
  cases i with
  | none => decide
  | some i =>
      rw [blockIdText, Nat.toList_repr]
      exact notMem_toDigits rfl i

/-- The name of an object says how its file is written, and the block. -/
theorem getOssObjectName_eq_iff (hostname : String) (info info' : BlockInfo) :
    getOssObjectName hostname info = getOssObjectName hostname info' ↔
      info.fileId.toString = info'.fileId.toString ∧ info.blockId = info'.blockId := by
  constructor
  · intro h
    rw [← String.toList_inj] at h
    simp only [getOssObjectName, String.toList_append, List.append_assoc,
      List.append_cancel_left_eq] at h
    have hslash : '/' ∉ info.fileId.toString.toList := by
      rw [FileId.toList_toString, List.mem_append, not_or]
      exact ⟨notMem_toDigits rfl _, notMem_toDigits rfl _⟩
    obtain ⟨hfile, -, hblock⟩ :=
      (List.append_cons_inj_of_notMem hslash (slash_notMem_blockIdText info.blockId)).mp h
    exact ⟨String.toList_inj.mp hfile, blockIdText_injective (String.toList_inj.mp hblock)⟩
  · rintro ⟨hfile, hblock⟩
    rw [getOssObjectName, getOssObjectName, hfile, hblock]

/-- The name of a manifest says the file. -/
theorem getManifestFileName_injective {workDir : String} {f g : FileId}
    (h : getManifestFileName workDir f = getManifestFileName workDir g) : f = g := by
  rw [← String.toList_inj] at h
  simp only [getManifestFileName, String.toList_append, List.append_assoc,
    List.append_cancel_left_eq, Nat.toList_repr] at h
  obtain ⟨hhash, -, hcollision⟩ := (List.append_cons_inj_of_notMem
    (notMem_toDigits (c := '-') rfl f.hashcode) (notMem_toDigits rfl f.collisionId)).mp h
  cases f
  cases g
  rw [FileId.mk.injEq]
  exact ⟨toDigits_injective hhash, toDigits_injective hcollision⟩

/-- The names of two blocks and of their manifests tell them apart, so what is stored under
the names of one is not stored under those of the other. -/
structure NamesApart (hostname workDir : String) (info info' : BlockInfo) : Prop where
  objects : getOssObjectName hostname info = getOssObjectName hostname info' →
    info.fileId = info'.fileId ∧ info.blockId = info'.blockId
  manifests : getManifestFileName workDir info.fileId = getManifestFileName workDir info'.fileId →
    info.fileId = info'.fileId
  stored : ¬ (info.fileId = info'.fileId ∧ info.blockId = info'.blockId) →
    ∀ (store : String → Option (List UInt8)) (content : Option (List UInt8)),
      Function.update store (getOssObjectName hostname info') content
        (getOssObjectName hostname info) = store (getOssObjectName hostname info)
  logged : info.fileId ≠ info'.fileId →
    ∀ (folder : String → Option (List UInt8)) (content : Option (List UInt8)),
      Function.update folder (getManifestFileName workDir info'.fileId) content
        (getManifestFileName workDir info.fileId) = folder (getManifestFileName workDir info.fileId)

/-- Injective names keep what is stored apart. -/
theorem NamesApart.of_objects {hostname workDir : String} {info info' : BlockInfo}
    (h : getOssObjectName hostname info = getOssObjectName hostname info' →
      info.fileId = info'.fileId ∧ info.blockId = info'.blockId) :
    NamesApart hostname workDir info info' where
  objects := h
  manifests := getManifestFileName_injective
  stored := by
    intro hne store content
    exact Function.update_of_ne (fun hname => hne (h hname)) _ _
  logged := by
    intro hne folder content
    exact Function.update_of_ne (fun hname => hne (getManifestFileName_injective hname)) _ _

/-- The names tell two blocks apart exactly when the blocks have different ids, or their
files are the same, or one of the hashes is zero, or the numbers that the digits of the two
files make up differ. -/
theorem namesApart_iff (hostname workDir : String) (info info' : BlockInfo) :
    NamesApart hostname workDir info info' ↔
      (info.blockId = info'.blockId → info.fileId = info'.fileId ∨
        info.fileId.hashcode = 0 ∨ info'.fileId.hashcode = 0 ∨
          info.fileId.numeral ≠ info'.fileId.numeral) := by
  constructor
  · intro hapart hblock
    by_contra hbad
    simp only [not_or, not_not] at hbad
    obtain ⟨hne, hhash, hhash', hnumeral⟩ := hbad
    have htext := (FileId.toString_eq_iff _ _).mpr (Or.inr ⟨hhash, hhash', hnumeral⟩)
    have hname := (getOssObjectName_eq_iff hostname info info').mpr ⟨htext, hblock⟩
    exact hne (hapart.objects hname).1
  · intro hcond
    apply NamesApart.of_objects
    intro hname
    obtain ⟨htext, hblock⟩ := (getOssObjectName_eq_iff hostname info info').mp hname
    refine ⟨?_, hblock⟩
    rcases (FileId.toString_eq_iff _ _).mp htext with heq | ⟨hhash, hhash', hnumeral⟩
    · exact heq
    · rcases hcond hblock with heq | hzero | hzero | hdiffer
      · exact heq
      · exact absurd hzero hhash
      · exact absurd hzero hhash'
      · exact absurd hnumeral hdiffer

/-- The first blocks of two files, `1` with collision `11` and `11` with collision `1`, have
the same name. -/
theorem sharedObjectName :
    getOssObjectName "host" { BlockInfo.invalid with fileId := ⟨1, 11⟩, blockId := some 0 } =
        getOssObjectName "host" { BlockInfo.invalid with fileId := ⟨11, 1⟩, blockId := some 0 } ∧
      ¬ NamesApart "host" "/work" { BlockInfo.invalid with fileId := ⟨1, 11⟩, blockId := some 0 }
        { BlockInfo.invalid with fileId := ⟨11, 1⟩, blockId := some 0 } := by
  have hname : getOssObjectName "host"
      { BlockInfo.invalid with fileId := ⟨1, 11⟩, blockId := some 0 } =
      getOssObjectName "host" { BlockInfo.invalid with fileId := ⟨11, 1⟩, blockId := some 0 } := by
    decide
  refine ⟨hname, ?_⟩
  intro hapart
  exact absurd (hapart.objects hname).1 (by decide)

/-- `makeFileId` has one collision id, so the library's own files have names of their own, and
a store that knows them by file and block loses nothing. -/
theorem namesApart_makeFileId (hostname workDir : String) {info info' : BlockInfo} {h h' : Nat}
    (hfile : info.fileId = World.makeFileId h) (hfile' : info'.fileId = World.makeFileId h') :
    NamesApart hostname workDir info info' := by
  apply NamesApart.of_objects
  intro hname
  obtain ⟨htext, hblock⟩ := (getOssObjectName_eq_iff hostname info info').mp hname
  refine ⟨?_, hblock⟩
  rcases (FileId.toString_eq_iff _ _).mp htext with heq | ⟨-, -, hnumeral⟩
  · exact heq
  · have hzero : Nat.toDigits 10 0 = ['0'] := Nat.toDigits_zero 10
    simp only [hfile, hfile', World.makeFileId, FileId.numeral, joined, hzero,
      List.length_singleton, Nat.pow_one, Nat.add_zero] at hnumeral
    rw [hfile, hfile', Nat.eq_of_mul_eq_mul_left (by decide) hnumeral]

end Gopherwood
