/-
# Descriptors, registrations and manifests

The invariant that ties them together: every manifest is a sequence of whole
records, every registered handle has a slot of its own and a descriptor that
stands between two records of its manifest. Each kind of step of a file handle
keeps it, provided the records fit the buffer they are read into.
-/

import Gopherwood.Journal.Steps

namespace Gopherwood

open Library (Keeps Spec)

/-- The steps of a handle without a slot. -/
def Pc.isQuiet : Pc → Bool
  | .openManifest => true
  | .regist => true
  | .idle => true
  | .deleteRemote _ _ => true
  | .closed => true
  | _ => false

/-- The handle reads and writes its log, or is about to. -/
def FileActiveStatus.Attached (h : FileActiveStatus) : Prop :=
  h.activeId ≠ none ∨ h.pc.isOpening = true

/-- The handle has been closed, or was never registered, and is in no call. -/
def FileActiveStatus.Away (h : FileActiveStatus) : Prop :=
  (h.pc = .idle ∨ h.pc = .closed) ∧ h.activeId = none

instance (h : FileActiveStatus) : Decidable h.Away :=
  inferInstanceAs (Decidable ((h.pc = .idle ∨ h.pc = .closed) ∧ h.activeId = none))

theorem FileActiveStatus.SameIdentity.attached {h h' : FileActiveStatus} (hid : h.SameIdentity h')
    (hattached : h'.Attached) : h.Attached := by
  rcases hattached with hactive | hopening
  · exact Or.inl (hid.activeId ▸ hactive)
  · exact Or.inr (hid.opening hopening)

namespace World

/-- Every record in the folder fits the buffer it is read into. -/
def RecordsFit (w : World) : Prop :=
  ∀ k e j, (e, j) ∈ w.folder.content k → LogEntry.Fits e

/-- The slot of a handle. -/
def activeIdOf (w : World) : Client → Option Nat
  | .file n => w.files[n]?.bind FileActiveStatus.activeId
  | .admin n => w.admins[n]?.bind AdminActiveStatus.activeId

/-- Every registered handle has a slot of its own, under its process and file. It ties the
handles of the model to the table by which the code finds out who has a file open. -/
structure Registered (w : World) : Prop where
  file : ∀ (n : Nat) (h : FileActiveStatus) (a : Nat), w.files[n]? = some h → h.activeId = some a →
    w.shm.roster[a]? = some (some h.pid, h.fileId)
  admin : ∀ (n : Nat) (x : AdminActiveStatus) (a : Nat), w.admins[n]? = some x →
    x.activeId = some a →
    ∃ f, w.shm.roster[a]? = some (some x.pid, f)
  distinct : ∀ c c' a, w.activeIdOf c = some a → w.activeIdOf c' = some a → c = c'

/-- Handles on the same log file are handles of the same file. -/
def FilesAgree (w : World) : Prop :=
  ∀ (n n' : Nat) (h h' : FileActiveStatus) (fd fd' : Descriptor),
    w.files[n]? = some h → w.files[n']? = some h' → h.Attached → h'.Attached →
    h.fd = some fd → h'.fd = some fd' → fd.file = fd'.file → h.fileId = h'.fileId

/-- Manifests are logs, and every descriptor stands between two records. A descriptor inside
a record would read a header from its middle and write over its end. -/
structure Logged (w : World) : Prop where
  whole : ∀ k, ∃ es, w.folder.content k = logBytes es
  authors : ∀ k e j m, (e, j) ∈ w.folder.content k → e.author = .file m → m < w.files.length
  links : ∀ f k, w.folder.links f = some k → k < w.folder.files.length
  linkInj : ∀ f f' k, w.folder.links f = some k → w.folder.links f' = some k → f = f'
  client : ∀ (n : Nat) (h : FileActiveStatus), w.files[n]? = some h → h.client = .file n
  owner : ∀ (n : Nat) (h : FileActiveStatus) (fd : Descriptor), w.files[n]? = some h →
    h.Attached → h.fd = some fd → w.folder.OwnFile h.fileId fd.file
  agree : w.FilesAgree
  position : ∀ (n : Nat) (h : FileActiveStatus), w.files[n]? = some h → h.activeId ≠ none →
    ∃ own, h.Position (fun _ => True) False own w.folder
  opening : ∀ (n : Nat) (h : FileActiveStatus), w.files[n]? = some h → h.pc.isOpening = true →
    h.activeId = none ∧ h.readEntries = [] ∧
      (h.pc = .regist → ∃ own, h.fd = some ⟨own, 0⟩) ∧
      ∀ k e j, (e, j) ∈ w.folder.content k → e.author ≠ h.client
  quiet : ∀ (n : Nat) (h : FileActiveStatus), w.files[n]? = some h → h.activeId = none →
    h.pc.isQuiet = true
  registered : w.Registered

theorem logged_init (cfg : Config) : (init cfg).Logged where
  whole k := ⟨[], by simp [init, ManifestFolder.empty, ManifestFolder.content]⟩
  authors k e j m he := by simp [init, ManifestFolder.empty, ManifestFolder.content] at he
  links f k h := by cases h
  linkInj f f' k h := by cases h
  client n h hn := by simp [init] at hn
  owner n h fd hn := by simp [init] at hn
  agree n n' h h' fd fd' hn := by simp [init] at hn
  position n h hn := by simp [init] at hn
  opening n h hn := by simp [init] at hn
  quiet n h hn := by simp [init] at hn
  registered := ⟨fun n h a hn => by simp [init] at hn, fun n x a hn => by simp [init] at hn,
    fun c c' a hc => by cases c <;> simp [init, activeIdOf] at hc⟩

end World

/-! ## Growing folders -/

namespace ManifestFolder.Grown

variable {author : Client} {d d' : ManifestFolder}

theorem whole (hgrown : Grown author d d') (h : ∀ k, ∃ es, d.content k = logBytes es) (k : Nat) :
    ∃ es, d'.content k = logBytes es := by
  obtain ⟨es, hes⟩ := h k
  obtain ⟨new, hnew, -⟩ := hgrown.content k
  exact ⟨es ++ new, by rw [hnew, hes, logBytes_append]⟩

/-- A record of the grown folder is an old one or one of the author. -/
theorem mem (hgrown : Grown author d d') {k : Nat} {e : LogEntry} {j : Nat}
    (he : (e, j) ∈ d'.content k) : (e, j) ∈ d.content k ∨ e.author = author := by
  obtain ⟨new, hnew, hauthor⟩ := hgrown.content k
  rw [hnew, List.mem_append] at he
  rcases he with he | he
  · exact Or.inl he
  · exact Or.inr (hauthor e (mem_logBytes.mpr ⟨j, he⟩))

theorem ownFile (hgrown : Grown author d d') {f : FileId} {own : Nat} (h : d.OwnFile f own) :
    d'.OwnFile f own := by
  refine ⟨?_, fun g k hg => ?_, fun g hg => h.owner g ?_⟩
  · rw [hgrown.files]; exact h.bound
  · rw [hgrown.files]; exact h.links g k (by rw [← hgrown.links]; exact hg)
  · rw [← hgrown.links]; exact hg

/-- What others append is pending for a handle. -/
theorem position (hgrown : Grown author d d') {h : FileActiveStatus} {own : Nat}
    (hpos : h.Position (fun _ => True) False own d) (hne : author ≠ h.client) :
    h.Position (fun _ => True) False own d' := by
  obtain ⟨done, pending, hfd, hcontent, -, hpending, hread⟩ := hpos
  obtain ⟨new, hnew, hauthor⟩ := hgrown.content own
  refine ⟨done, pending ++ new, hfd, ?_, fun h => h.elim, fun e he => ⟨trivial, ?_⟩, hread⟩
  · rw [hnew, hcontent, ← List.append_assoc, logBytes_append (done ++ pending)]
  · rcases List.mem_append.mp he with he | he
    · exact (hpending e he).2
    · rw [hauthor e he]
      exact hne

end ManifestFolder.Grown

theorem Scope.Left.mem {S : Scope} {r : List (Option Nat × FileId)}
    {d : ManifestFolder} (hleft : S.Left r d) {k : Nat} {e : LogEntry} {j : Nat}
    (he : (e, j) ∈ d.content k) : (e, j) ∈ S.folder.content k ∨ e.author = S.handle.client := by
  rcases hleft.content k with ⟨new, hnew, hauthor⟩ | ⟨-, -, e', hcontent, hauthor, -⟩
  · rw [hnew, List.mem_append] at he
    rcases he with he | he
    · exact Or.inl he
    · exact Or.inr (hauthor e (mem_logBytes.mpr ⟨j, he⟩))
  · rw [hcontent] at he
    have := mem_logBytes.mpr ⟨j, he⟩
    rw [List.mem_singleton] at this
    exact Or.inr (this ▸ hauthor)

/-- Opening a manifest links a file, a new empty one if there was none. -/
theorem ManifestFolder.mfOpen_cases (d : ManifestFolder) (fileId : FileId) :
    (∃ file, d.links fileId = some file ∧ d.mfOpen fileId = (d, file)) ∨
    (d.links fileId = none ∧ (d.mfOpen fileId).2 = d.files.length ∧
      (d.mfOpen fileId).1.files.length = d.files.length + 1 ∧
      (∀ k, (d.mfOpen fileId).1.content k = d.content k) ∧
      ∀ f, (d.mfOpen fileId).1.links f =
        if f = fileId then some d.files.length else d.links f) := by
  cases hlink : d.links fileId with
  | some file => exact Or.inl ⟨file, rfl, by simp [mfOpen, hlink]⟩
  | none =>
      refine Or.inr ⟨rfl, by simp [mfOpen, hlink], by simp [mfOpen, hlink], fun k => ?_,
        fun f => by simp [mfOpen, hlink]⟩
      simp only [mfOpen, hlink, content, List.getD_eq_getElem?_getD, List.getElem?_append]
      split
      · rfl
      · next hlt =>
          rw [List.getElem?_eq_none (Nat.le_of_not_lt hlt)]
          cases hk : ([[]] : List LogFile)[k - d.files.length]? with
          | none => rfl
          | some x =>
              have := List.mem_of_getElem? hk
              rw [List.mem_singleton] at this
              rw [this]
              rfl

theorem ManifestFolder.mfOpen_spec (d : ManifestFolder) (fileId : FileId)
    (hbound : ∀ f k, d.links f = some k → k < d.files.length) :
    (∀ k, (d.mfOpen fileId).1.content k = d.content k) ∧
    d.files.length ≤ (d.mfOpen fileId).1.files.length ∧
    (d.mfOpen fileId).2 < (d.mfOpen fileId).1.files.length ∧
    (∀ f k, (d.mfOpen fileId).1.links f = some k → d.links f = some k ∨
      f = fileId ∧ k = (d.mfOpen fileId).2 ∧ d.files.length ≤ (d.mfOpen fileId).2) ∧
    (d.links fileId = some (d.mfOpen fileId).2 ∨ d.files.length ≤ (d.mfOpen fileId).2) := by
  rcases d.mfOpen_cases fileId with ⟨file, hlink, hopen⟩ | ⟨hlink, hfile, hlength, hcontent, hlinks⟩
  · rw [hopen]
    exact ⟨fun _ => rfl, Nat.le_refl _, hbound _ _ hlink, fun f k hf => Or.inl hf, Or.inl hlink⟩
  · rw [hfile, hlength]
    refine ⟨hcontent, by omega, by omega, fun f k hf => ?_, Or.inr (Nat.le_refl _)⟩
    rw [hlinks] at hf
    split at hf
    · next heq => exact Or.inr ⟨heq, (Option.some.inj hf).symm, Nat.le_refl _⟩
    · exact Or.inl hf

/-! ## Preservation -/

namespace World

variable {w w' : World} {n m : Nat} {h h' x : FileActiveStatus}

/-- The files of a world in which handle `n` was replaced. -/
theorem files_set_cases (hfiles : w'.files = w.files.set n h') (hm : w'.files[m]? = some x) :
    (m = n ∧ x = h') ∨ (m ≠ n ∧ w.files[m]? = some x) := by
  rw [hfiles, List.getElem?_set] at hm
  by_cases hmn : n = m
  · rw [if_pos hmn] at hm
    split at hm
    · exact Or.inl ⟨hmn.symm, (Option.some.inj hm).symm⟩
    · cases hm
  · rw [if_neg hmn] at hm
    exact Or.inr ⟨Ne.symm hmn, hm⟩

/-- The slot of a handle after handle `n` was replaced. -/
theorem activeIdOf_replaced (hn : w.files[n]? = some h) (hfiles : w'.files = w.files.set n h')
    (hadmins : w'.admins = w.admins) (c : Client) :
    w'.activeIdOf c = if c = .file n then h'.activeId else w.activeIdOf c := by
  cases c with
  | admin m => simp [activeIdOf, hadmins]
  | file m =>
      by_cases hmn : m = n
      · subst hmn
        simp [activeIdOf, hfiles, getElem?_set_files hn]
      · simp [activeIdOf, hfiles, hmn, Ne.symm hmn]

/-- A step that keeps the roster and the identity of its handle keeps the
registrations. -/
theorem Registered.of_same (hw : w.Registered) (hn : w.files[n]? = some h)
    (hfiles : w'.files = w.files.set n h') (hadmins : w'.admins = w.admins)
    (hid : h.SameIdentity h') (hroster : w'.shm.roster = w.shm.roster) : w'.Registered := by
  refine ⟨fun m x a hm hx => ?_, fun m x a hm hx => ?_, ?_⟩
  · rw [hroster]
    rcases files_set_cases hfiles hm with ⟨rfl, rfl⟩ | ⟨-, hm⟩
    · rw [hid.pid, hid.fileId]
      exact hw.file m h a hn (hid.activeId ▸ hx)
    · exact hw.file m x a hm hx
  · rw [hroster]
    exact hw.admin m x a (hadmins ▸ hm) hx
  · have hsame : w'.activeIdOf = w.activeIdOf := by
      funext c
      rw [activeIdOf_replaced hn hfiles hadmins]
      split
      · next hc => subst hc; simp [activeIdOf, hn, hid.activeId]
      · rfl
    rw [hsame]
    exact hw.distinct

/-- A registered handle is not in a slot of no process. -/
theorem Registered.ne_of_free (hw : w.Registered) {c : Client} {a b : Nat} {f : FileId}
    (hfree : w.shm.roster[a]? = some (none, f)) (hc : w.activeIdOf c = some b) : a ≠ b := by
  rintro rfl
  cases c with
  | file m =>
      obtain ⟨x, hm, hx⟩ := Option.bind_eq_some_iff.mp hc
      rw [hw.file m x a hm hx] at hfree
      simp at hfree
  | admin m =>
      obtain ⟨x, hm, hx⟩ := Option.bind_eq_some_iff.mp hc
      obtain ⟨g, hg⟩ := hw.admin m x a hm hx
      rw [hg] at hfree
      simp at hfree

/-- A handle takes a free slot. -/
theorem Registered.join (hw : w.Registered) (hn : w.files[n]? = some h)
    (hfiles : w'.files = w.files.set n h') (hadmins : w'.admins = w.admins) {a : Nat} {f : FileId}
    (hfree : w.shm.roster[a]? = some (none, f)) (ha : h'.activeId = some a)
    (hroster : w'.shm.roster = w.shm.roster.set a (some h'.pid, h'.fileId)) : w'.Registered := by
  have hlt : a < w.shm.roster.length := (List.getElem?_eq_some_iff.mp hfree).1
  have hkeep : ∀ (c : Client) (b : Nat), w.activeIdOf c = some b →
      w'.shm.roster[b]? = w.shm.roster[b]? := by
    intro c b hc
    rw [hroster, List.getElem?_set_ne (hw.ne_of_free hfree hc)]
  refine ⟨fun m x b hm hx => ?_, fun m x b hm hx => ?_, fun c c' b hc hc' => ?_⟩
  · rcases files_set_cases hfiles hm with ⟨rfl, rfl⟩ | ⟨-, hm⟩
    · obtain rfl : a = b := Option.some.inj (ha.symm.trans hx)
      rw [hroster, List.getElem?_set_self hlt]
    · rw [hkeep (.file m) b (by simp [activeIdOf, hm, hx])]
      exact hw.file m x b hm hx
  · rw [hadmins] at hm
    rw [hkeep (.admin m) b (by simp [activeIdOf, hm, hx])]
    exact hw.admin m x b hm hx
  · rw [activeIdOf_replaced hn hfiles hadmins] at hc hc'
    split at hc
    · split at hc'
      · next h1 h2 => rw [h1, h2]
      · obtain rfl : a = b := Option.some.inj (ha.symm.trans hc)
        exact absurd rfl (hw.ne_of_free hfree hc')
    · split at hc'
      · obtain rfl : a = b := Option.some.inj (ha.symm.trans hc')
        exact absurd rfl (hw.ne_of_free hfree hc)
      · exact hw.distinct c c' b hc hc'

/-- A handle gives its slot back. -/
theorem Registered.leave (hw : w.Registered) (hn : w.files[n]? = some h)
    (hfiles : w'.files = w.files.set n h') (hadmins : w'.admins = w.admins) {a : Nat}
    (ha : h.activeId = some a) (ha' : h'.activeId = none) {entry : Option Nat × FileId}
    (hroster : w'.shm.roster = w.shm.roster.set a entry) : w'.Registered := by
  have hmine : w.activeIdOf (.file n) = some a := by simp [activeIdOf, hn, ha]
  have hkeep : ∀ (c : Client) (b : Nat), c ≠ .file n → w.activeIdOf c = some b →
      w'.shm.roster[b]? = w.shm.roster[b]? := by
    intro c b hne hc
    have hab : a ≠ b := by
      rintro rfl
      exact hne (hw.distinct c (.file n) a hc hmine)
    rw [hroster, List.getElem?_set_ne hab]
  refine ⟨fun m x b hm hx => ?_, fun m x b hm hx => ?_, fun c c' b hc hc' => ?_⟩
  · rcases files_set_cases hfiles hm with ⟨rfl, rfl⟩ | ⟨hne, hm⟩
    · rw [ha'] at hx
      cases hx
    · rw [hkeep (.file m) b (fun heq => hne (Client.file.inj heq)) (by simp [activeIdOf, hm, hx])]
      exact hw.file m x b hm hx
  · rw [hadmins] at hm
    rw [hkeep (.admin m) b (fun heq => by cases heq) (by simp [activeIdOf, hm, hx])]
    exact hw.admin m x b hm hx
  · rw [activeIdOf_replaced hn hfiles hadmins, ha'] at hc hc'
    split at hc
    · cases hc
    · split at hc'
      · cases hc'
      · exact hw.distinct c c' b hc hc'

/-- The world `w'` is `w` with one more handle `h`, which has opened nothing yet. -/
structure IsNew (w : World) (h : FileActiveStatus) (w' : World) : Prop where
  client : h.client = .file w.files.length
  activeId : h.activeId = none
  fd : h.fd = none
  readEntries : h.readEntries = []
  pc : h.pc = .openManifest ∨ h.pc = .closed
  files : w'.files = w.files ++ [h]
  admins : w'.admins = w.admins
  shm : w'.shm = w.shm
  folder : w'.folder = w.folder

/-- An open starts with a new handle, or fails with one when there is no file. -/
theorem openFile_isNew (w : World) (cfg : Config) (fileId : FileId) (isCreate isSequence : Bool)
    (type : ActiveStatusType) (pid : Nat) :
    ∃ h, w.IsNew h (w.openFile cfg fileId isCreate isSequence type pid) ∧ h.fileId = fileId ∧
      (if isCreate || w.folder.isLinked fileId then h.pc = .openManifest
        else h.pc = .closed ∧ (w.openFile cfg fileId isCreate isSequence type pid).history =
          w.history ++ [⟨w.files.length, none,
            .threw (.invalidParm "[ActiveStatus::ActiveStatus] File does not exist")⟩]) := by
  cases hexists : isCreate || w.folder.isLinked fileId with
  | true =>
      simp only [openFile, hexists, if_true]
      exact ⟨_, ⟨rfl, rfl, rfl, rfl, Or.inl rfl, rfl, rfl, rfl, rfl⟩, rfl, rfl⟩
  | false =>
      simp only [openFile, hexists, Bool.false_eq_true, if_false]
      exact ⟨_, ⟨rfl, rfl, rfl, rfl, Or.inr rfl, rfl, rfl, rfl, rfl⟩, rfl, rfl, trivial⟩

theorem IsNew.cases (hnew : w.IsNew h w') (hm : w'.files[m]? = some x) :
    w.files[m]? = some x ∨ m = w.files.length ∧ x = h := by
  rw [hnew.files, List.getElem?_append] at hm
  split at hm
  · exact Or.inl hm
  · have hle := (List.getElem?_eq_some_iff.mp hm).1
    simp only [List.length_singleton] at hle
    have hx := List.mem_of_getElem? hm
    exact Or.inr ⟨by omega, List.mem_singleton.mp hx⟩

/-- A new handle has no slot. -/
theorem Registered.of_new (hw : w.Registered) (hnew : w.IsNew h w') : w'.Registered := by
  have hactiveIdOf : ∀ c a, w'.activeIdOf c = some a → w.activeIdOf c = some a := by
    intro c a hc
    cases c with
    | admin m => simpa [activeIdOf, hnew.admins] using hc
    | file m =>
        obtain ⟨x, hm, hx⟩ := Option.bind_eq_some_iff.mp hc
        rcases hnew.cases hm with hm | ⟨-, rfl⟩
        · simp [activeIdOf, hm, hx]
        · rw [hnew.activeId] at hx
          cases hx
  refine ⟨fun m x a hm hx => ?_, fun m x a hm hx => ?_, fun c c' a hc hc' =>
    hw.distinct c c' a (hactiveIdOf c a hc) (hactiveIdOf c' a hc')⟩
  · rcases hnew.cases hm with hm | ⟨-, rfl⟩
    · exact hnew.shm ▸ hw.file m x a hm hx
    · rw [hnew.activeId] at hx
      cases hx
  · exact hnew.shm ▸ hw.admin m x a (hnew.admins ▸ hm) hx

/-- A handle that stays on its log file keeps the agreement. -/
theorem FilesAgree.of_set (hw : w.FilesAgree) (hn : w.files[n]? = some h)
    (hfiles : w'.files = w.files.set n h') (hid : h'.fileId = h.fileId)
    (hfd : h'.Attached → h.Attached ∧ ∀ fd', h'.fd = some fd' →
      ∃ fd, h.fd = some fd ∧ fd.file = fd'.file) : w'.FilesAgree := by
  -- every handle of `w'` stands for one of `w` on the same log file
  have hold : ∀ (m : Nat) (x : FileActiveStatus) (fd : Descriptor), w'.files[m]? = some x →
      x.Attached → x.fd = some fd → ∃ (y : FileActiveStatus) (fd₀ : Descriptor),
        w.files[m]? = some y ∧ y.Attached ∧ y.fileId = x.fileId ∧ y.fd = some fd₀ ∧
        fd₀.file = fd.file := by
    intro m x fd hm hatt hx
    rcases files_set_cases hfiles hm with ⟨rfl, rfl⟩ | ⟨-, hm⟩
    · obtain ⟨fd₀, hfd₀, heq⟩ := (hfd hatt).2 fd hx
      exact ⟨h, fd₀, hn, (hfd hatt).1, hid.symm, hfd₀, heq⟩
    · exact ⟨x, fd, hm, hatt, rfl, hx, rfl⟩
  intro m m' x x' fd fd' hm hm' hatt hatt' hx hx' heq
  obtain ⟨y, fd₀, hy, hya, hyid, hyfd, hfile⟩ := hold m x fd hm hatt hx
  obtain ⟨y', fd₀', hy', hya', hyid', hyfd', hfile'⟩ := hold m' x' fd' hm' hatt' hx'
  rw [← hyid, ← hyid']
  exact hw m m' y y' fd₀ fd₀' hy hy' hya hya' hyfd hyfd' (by rw [hfile, hfile', heq])

/-- Against what a critical section of handle `h` is observed. -/
def scope (w : World) (h : FileActiveStatus) (own : Nat) : Scope :=
  ⟨w.folder, h, own, True⟩

/-- The slots belong to the same processes and files as in `w`. -/
def SameRoster (w : World) (s : SharedMem) : Prop := s.roster = w.shm.roster

/-- The slot of `h` was blanked. -/
def SlotLeft (w : World) (h : FileActiveStatus) (s : SharedMem) : Prop :=
  ∃ a, h.activeId = some a ∧ s.roster = w.shm.roster.set a SharedMemoryContext.noHandle

/-- The free slot `a` went to `h`. -/
def SlotTaken (w : World) (h : FileActiveStatus) (a : Nat) (s : SharedMem) : Prop :=
  (∃ f, w.shm.roster[a]? = some (none, f)) ∧
    s.roster = w.shm.roster.set a (some h.pid, h.fileId)

theorem leads_sameRoster (w : World) (m : Move) : SharedMem.Leads w.SameRoster m w.SameRoster :=
  SharedMem.leads_roster m w.shm.roster

theorem leads_slotLeft (w : World) (h : FileActiveStatus) (m : Move) :
    SharedMem.Leads (w.SlotLeft h) m (w.SlotLeft h) := by
  rintro s s' hmove ⟨a, ha, hroster⟩
  exact ⟨a, ha, hmove.roster.trans hroster⟩

theorem unregistFile_roster {a : Nat} (ha : h.activeId = some a) :
    Spec w.SameRoster (SharedMemoryContext.unregistFile a h.pid)
      (fun left => if left = none then w.SameRoster else w.SlotLeft h)
      (fun _ => w.SameRoster) := by
  intro s hs
  rcases SharedMemoryContext.unregistFile_cases a h.pid s with
    hrun | ⟨s', f, destroy, -, -, hrun, hroster⟩
  · rw [hrun]
    exact hs
  · rw [hrun]
    exact ⟨a, ha, hroster.trans (by rw [show s.roster = w.shm.roster from hs])⟩

theorem registFile_roster (isDelete : Bool) :
    Spec w.SameRoster (SharedMemoryContext.registFile h.pid h.fileId isDelete)
      (fun assigned s => match assigned with
        | none => w.SameRoster s
        | some a => w.SlotTaken h a s) (fun _ => w.SameRoster) := by
  intro s hs
  obtain ⟨s', -, ⟨hrun, hroster⟩ | ⟨a, f, hfree, hrun, hroster⟩⟩ :=
    SharedMemoryContext.registFile_cases h.pid h.fileId isDelete s
  · rw [hrun]
    exact hroster.trans hs
  · rw [hrun]
    rw [show s.roster = w.shm.roster from hs] at hfree hroster
    exact ⟨⟨f, hfree⟩, hroster⟩

/-- The registering step: the handle goes on to be closed or used, or the open has
failed. -/
theorem stepFile_regist {cfg : Config} (hpc : h.pc = .regist)
    (hstep : w.stepFile cfg n h = some w') :
    match FileActiveStatus.registInSharedMem (w.ctx h) with
    | .ok _ c => ∃ pc : Pc, pc.isOpening = false ∧
        w'.files = w.files.set n { c.self with pc := pc } ∧ w'.admins = w.admins ∧ w'.shm = c.shm ∧
        w'.folder = c.folder
    | .error _ c => w'.files = w.files.set n { c.self with pc := .closed } ∧
        w'.admins = w.admins ∧ w'.shm = c.shm ∧ w'.folder = c.folder := by
  unfold stepFile at hstep
  simp only [hpc, Option.some.injEq] at hstep
  subst hstep
  change match FileActiveStatus.registInSharedMem (w.ctx h) with
    | .ok _ c => _
    | .error _ c => _
  cases hrun : FileActiveStatus.registInSharedMem (w.ctx h) with
  | ok u c =>
      rw [show FileActiveStatus.registInSharedMem ⟨w.shm, w.folder, w.oss, h⟩ = .ok u c from hrun]
      dsimp only
      split
      · exact ⟨.close false, rfl, rfl, rfl, rfl, rfl⟩
      · exact ⟨.idle, rfl, rfl, rfl, rfl, rfl⟩
  | error e c =>
      rw [show FileActiveStatus.registInSharedMem ⟨w.shm, w.folder, w.oss, h⟩ =
        .error e c from hrun]
      exact ⟨rfl, rfl, rfl, rfl⟩

namespace Logged

/-- Thread-local work of a handle. -/
theorem of_local (hw : w.Logged) (hn : w.files[n]? = some h) (hlocal : h.Local h')
    (hquiet : h.activeId = none → h'.pc.isQuiet = true)
    (hopening : h'.pc.isOpening = true → h'.pc = h.pc)
    (hfiles : w'.files = w.files.set n h') (hadmins : w'.admins = w.admins)
    (hshm : w'.shm = w.shm) (hfolder : w'.folder = w.folder) : w'.Logged := by
  have hid := hlocal.sameIdentity
  refine ⟨hfolder ▸ hw.whole, ?_, hfolder ▸ hw.links, hfolder ▸ hw.linkInj, ?_, ?_,
    hw.agree.of_set hn hfiles hid.fileId fun hatt =>
      ⟨hid.attached hatt, fun fd hfd => ⟨fd, hlocal.fd ▸ hfd, rfl⟩⟩, ?_, ?_, ?_,
    hw.registered.of_same hn hfiles hadmins hid (hshm ▸ rfl)⟩
  · rw [hfolder, hfiles, List.length_set]
    exact hw.authors
  · intro m x hm
    rcases files_set_cases hfiles hm with ⟨rfl, rfl⟩ | ⟨-, hm⟩
    · exact hid.client.trans (hw.client m h hn)
    · exact hw.client m x hm
  · intro m x fd hm hatt hfd
    rw [hfolder]
    rcases files_set_cases hfiles hm with ⟨rfl, rfl⟩ | ⟨-, hm⟩
    · rw [hid.fileId]
      exact hw.owner m h fd hn (hid.attached hatt) (hlocal.fd ▸ hfd)
    · exact hw.owner m x fd hm hatt hfd
  · intro m x hm hx
    rw [hfolder]
    rcases files_set_cases hfiles hm with ⟨rfl, rfl⟩ | ⟨-, hm⟩
    · obtain ⟨own, done, pending, hpos⟩ := hw.position m h hn (hid.activeId ▸ hx)
      refine ⟨own, done, pending, ?_⟩
      rw [hlocal.fd, hlocal.readEntries, hid.client]
      exact hpos
    · exact hw.position m x hm hx
  · intro m x hm hx
    rw [hfolder]
    rcases files_set_cases hfiles hm with ⟨rfl, rfl⟩ | ⟨-, hm⟩
    · obtain ⟨h1, h2, h3, h4⟩ := hw.opening m h hn (hid.opening hx)
      rw [hid.activeId, hlocal.readEntries, hlocal.fd, hid.client, hopening hx]
      exact ⟨h1, h2, h3, h4⟩
    · exact hw.opening m x hm hx
  · intro m x hm hx
    rcases files_set_cases hfiles hm with ⟨rfl, rfl⟩ | ⟨-, hm⟩
    · exact hquiet (hid.activeId ▸ hx)
    · exact hw.quiet m x hm hx

/-- A descriptor between two records can start a critical section. -/
theorem start (hw : w.Logged) (hfit : w.RecordsFit) (hn : w.files[n]? = some h)
    (hattached : h.Attached) {own : Nat} (hpos : h.Position (fun _ => True) False own w.folder) :
    Session (w.scope h own) w.SameRoster False (w.ctx h) := by
  obtain ⟨done, pending, hfd, hcontent, hcaught, hpending, hread⟩ := hpos
  refine ⟨.refl h, rfl, rfl, rfl, fun _ => ⟨.refl _ _, hw.owner n h _ hn hattached hfd,
    done, pending, hfd, hcontent, hcaught, fun e he => ⟨?_, (hpending e he).2⟩, hread⟩⟩
  obtain ⟨j, hj⟩ := mem_logBytes.mp (List.mem_append_right done he)
  exact hfit own e j (by rw [hcontent]; exact hj)

/-- What a step must establish that replaces handle `n` by `h'`, which is no
longer opening its file. -/
theorem update (hw : w.Logged) (hn : w.files[n]? = some h) (hfiles : w'.files = w.files.set n h')
    (hwhole : ∀ k, ∃ es, w'.folder.content k = logBytes es)
    (hmem : ∀ k e j, (e, j) ∈ w'.folder.content k →
      (e, j) ∈ w.folder.content k ∨ e.author = .file n)
    (hlength : w'.folder.files.length = w.folder.files.length)
    (hlinks : ∀ f k, w'.folder.links f = some k → w.folder.links f = some k)
    (hclient : h'.client = h.client) (hfileId : h'.fileId = h.fileId)
    (hself : h'.Attached → h.Attached ∧ ∀ fd', h'.fd = some fd' →
      ∃ fd, h.fd = some fd ∧ fd.file = fd'.file)
    (hposition : h'.activeId ≠ none → ∃ own, h'.Position (fun _ => True) False own w'.folder)
    (hothers : ∀ (m : Nat) (x : FileActiveStatus) (own : Nat), m ≠ n → w.files[m]? = some x →
      x.activeId ≠ none → x.Position (fun _ => True) False own w.folder →
      x.Position (fun _ => True) False own w'.folder)
    (hopening : h'.pc.isOpening = false) (hquiet : h'.activeId = none → h'.pc.isQuiet = true)
    (hregistered : w'.Registered) : w'.Logged := by
  have hown : ∀ f own, w.folder.OwnFile f own → w'.folder.OwnFile f own := by
    intro f own hf
    refine ⟨hlength ▸ hf.bound, fun g k hg => ?_, fun g hg => hf.owner g (hlinks g own hg)⟩
    rw [hlength]
    exact hf.links g k (hlinks g k hg)
  refine ⟨hwhole, ?_, ?_, ?_, ?_, ?_, hw.agree.of_set hn hfiles hfileId hself, ?_, ?_, ?_,
    hregistered⟩
  · intro k e j m he hm
    rw [hfiles, List.length_set]
    rcases hmem k e j he with he | he
    · exact hw.authors k e j m he hm
    · rw [hm, Client.file.injEq] at he
      exact he ▸ (List.getElem?_eq_some_iff.mp hn).1
  · intro f k hf
    rw [hlength]
    exact hw.links f k (hlinks f k hf)
  · intro f f' k hf hf'
    exact hw.linkInj f f' k (hlinks f k hf) (hlinks f' k hf')
  · intro m x hm
    rcases files_set_cases hfiles hm with ⟨rfl, rfl⟩ | ⟨-, hm⟩
    · exact hclient.trans (hw.client m h hn)
    · exact hw.client m x hm
  · intro m x fd hm hatt hfd
    rcases files_set_cases hfiles hm with ⟨rfl, rfl⟩ | ⟨-, hm⟩
    · obtain ⟨fd₀, hfd₀, heq⟩ := (hself hatt).2 fd hfd
      rw [hfileId, ← heq]
      exact hown _ _ (hw.owner m h fd₀ hn (hself hatt).1 hfd₀)
    · exact hown _ _ (hw.owner m x fd hm hatt hfd)
  · intro m x hm hx
    rcases files_set_cases hfiles hm with ⟨rfl, rfl⟩ | ⟨hne, hm⟩
    · exact hposition hx
    · obtain ⟨own, hpos⟩ := hw.position m x hm hx
      exact ⟨own, hothers m x own hne hm hx hpos⟩
  · intro m x hm hx
    rcases files_set_cases hfiles hm with ⟨rfl, rfl⟩ | ⟨hne, hm⟩
    · rw [hopening] at hx
      cases hx
    · obtain ⟨h1, h2, h3, h4⟩ := hw.opening m x hm hx
      refine ⟨h1, h2, h3, fun k e j he => ?_⟩
      rcases hmem k e j he with he | he
      · exact h4 k e j he
      · rw [he, hw.client m x hm]
        exact fun heq => hne (Client.file.inj heq).symm
  · intro m x hm hx
    rcases files_set_cases hfiles hm with ⟨rfl, rfl⟩ | ⟨-, hm⟩
    · exact hquiet hx
    · exact hw.quiet m x hm hx

/-- A step in which the folder only grew by records of handle `n`. -/
theorem update_grown (hw : w.Logged) (hn : w.files[n]? = some h)
    (hfiles : w'.files = w.files.set n h') (hgrown : w.folder.Grown h.client w'.folder)
    (hclient : h'.client = h.client) (hfileId : h'.fileId = h.fileId)
    (hself : h'.Attached → h.Attached ∧ ∀ fd', h'.fd = some fd' →
      ∃ fd, h.fd = some fd ∧ fd.file = fd'.file)
    (hposition : h'.activeId ≠ none → ∃ own, h'.Position (fun _ => True) False own w'.folder)
    (hopening : h'.pc.isOpening = false) (hquiet : h'.activeId = none → h'.pc.isQuiet = true)
    (hregistered : w'.Registered) : w'.Logged := by
  rw [hw.client n h hn] at hgrown
  refine hw.update hn hfiles (hgrown.whole hw.whole) (fun k e j he => hgrown.mem he) hgrown.files
    (fun f k hf => hgrown.links ▸ hf) hclient hfileId hself hposition ?_ hopening hquiet hregistered
  intro m x own hne hm _ hpos
  refine hgrown.position hpos ?_
  rw [hw.client m x hm]
  exact fun heq => hne (Client.file.inj heq).symm

/-- The position of a handle after thread-local work. -/
theorem position_of_local {c : Ctx} (hlocal : c.self.Local h') {own : Nat} {d : ManifestFolder}
    {p : LogEntry → Prop} {caught : Prop} (hd : d = c.folder)
    (hpos : c.self.Position p caught own c.folder) :
    h'.Position (fun _ => True) False own d := by
  obtain ⟨done, pending, hfd, hcontent, -, hpending, hread⟩ := hpos
  refine ⟨done, pending, hlocal.fd.trans hfd, hd ▸ hcontent, fun h => h.elim,
    fun e he => ⟨trivial, ?_⟩, ?_⟩
  · rw [hlocal.sameIdentity.client]; exact (hpending e he).2
  · rw [hlocal.readEntries, hlocal.sameIdentity.client]; exact hread

/-- A critical section of a registered handle. -/
theorem of_session (hw : w.Logged) (hn : w.files[n]? = some h) (hactive : h.activeId ≠ none)
    {own : Nat} (hpos : h.Position (fun _ => True) False own w.folder) {c : Ctx}
    (hc : Session (w.scope h own) w.SameRoster False c) (hreflects : Reflects n w w' c) :
    w'.Logged := by
  obtain ⟨h', hlocal, hfiles⟩ := hreflects.files
  obtain ⟨hgrown, hown, hposition⟩ := hc.journal trivial
  have hid : h.SameIdentity h' := hc.identity.trans hlocal.sameIdentity
  have hpos' := position_of_local hlocal hreflects.folder hposition
  refine hw.update_grown hn hfiles (hreflects.folder ▸ hgrown) hid.client hid.fileId
    (fun _ => ⟨Or.inl hactive, fun fd' hfd' => ?_⟩) (fun _ => ⟨own, hpos'⟩) ?_
    (fun hnone => absurd (hid.activeId ▸ hnone) hactive)
    (hw.registered.of_same hn hfiles hreflects.admins hid (hreflects.shm ▸ hc.segment))
  · obtain ⟨done, pending, hfd, -⟩ := hpos
    obtain ⟨done', pending', hfd₁, -⟩ := hpos'
    obtain rfl := Option.some.inj (hfd'.symm.trans hfd₁)
    exact ⟨_, hfd, rfl⟩
  · cases hopening : h'.pc.isOpening with
    | false => rfl
    | true => exact absurd (hw.opening n h hn (hid.opening hopening)).1 hactive

/-- A handle that left its file. -/
theorem of_departed (hw : w.Logged) (hn : w.files[n]? = some h) {own : Nat}
    (hpos : h.Position (fun _ => True) False own w.folder) {c : Ctx}
    (hc : (w.scope h own).Departed (w.SlotLeft h) c) (hlocal : c.self.Local h')
    (hfiles : w'.files = w.files.set n h') (hadmins : w'.admins = w.admins)
    (hshm : w'.shm = c.shm) (hfolder : w'.folder = c.folder)
    (hopening : h'.pc.isOpening = false) (hquiet : h'.pc.isQuiet = true) : w'.Logged := by
  obtain ⟨a, ha, hroster⟩ := hc.segment
  have hleft := hc.folder trivial
  rw [← hfolder] at hleft
  have hclient := hw.client n h hn
  have hnone : h'.activeId = none := hlocal.sameIdentity.activeId.trans hc.activeId
  have hregistered : w'.Registered :=
    hw.registered.leave hn hfiles hadmins ha hnone (hshm ▸ hroster)
  refine hw.update hn hfiles (fun k => ?_) (fun k e j he => ?_) hleft.files (fun f k hf => ?_)
    (hlocal.sameIdentity.client.trans hc.client) (hlocal.sameIdentity.fileId.trans hc.fileId)
    (fun hatt => ?_) (fun hsome => absurd hnone hsome) ?_ hopening (fun _ => hquiet) hregistered
  · rcases hleft.content k with ⟨new, hnew, -⟩ | ⟨-, -, e, hcontent, -⟩
    · obtain ⟨es, hes⟩ := hw.whole k
      exact ⟨es ++ new, by rw [hnew, logBytes_append, ← hes]; rfl⟩
    · exact ⟨[e], hcontent⟩
  · rw [← hclient]
    exact hleft.mem he
  · rcases hleft.links f with hsame | ⟨-, hgone⟩
    · exact hsame ▸ hf
    · rw [hgone] at hf
      cases hf
  · rcases hatt with hsome | hopen
    · exact absurd hnone hsome
    · rw [hopening] at hopen
      cases hopen
  · intro m x own' hne hm hx hposx
    rcases hleft.content own' with ⟨new, hnew, hauthor⟩ | ⟨heq, hvacant, -⟩
    · obtain ⟨done, pending, hfd, hcontent, -, hpending, hread⟩ := hposx
      refine ⟨done, pending ++ new, hfd, ?_, fun h => h.elim, fun e he => ⟨trivial, ?_⟩, hread⟩
      · rw [hnew, ← List.append_assoc, logBytes_append (done ++ pending), ← hcontent]
        rfl
      · rcases List.mem_append.mp he with he | he
        · exact (hpending e he).2
        · rw [hauthor e he, hw.client m x hm]
          exact fun heq => hne (Client.file.inj (heq.symm.trans hclient))
    · -- the log was compacted, so no other handle of the file is registered
      exfalso
      subst heq
      obtain ⟨b, hb⟩ := Option.ne_none_iff_exists'.mp hx
      have hm' : w'.files[m]? = some x := by
        rw [hfiles, List.getElem?_set_ne (Ne.symm hne)]
        exact hm
      have hslot := List.mem_of_getElem? (hregistered.file m x b hm' hb)
      have hsame : x.fileId = h.fileId := by
        obtain ⟨done, pending, hfd, -⟩ := hposx
        obtain ⟨done', pending', hfd', -⟩ := hpos
        exact hw.agree m n x h _ _ hm hn (Or.inl hx) (Or.inl (fun hnone => by simp [ha] at hnone))
          hfd hfd' rfl
      rw [hshm] at hslot
      exact hvacant _ hslot hsame

/-- A handle that is registering stands before the first record. -/
theorem position_of_regist (hw : w.Logged) (hn : w.files[n]? = some h) (hpc : h.pc = .regist) :
    ∃ own, h.Position (fun _ => True) False own w.folder := by
  obtain ⟨-, hread, hfd, hsilent⟩ := hw.opening n h hn (by rw [hpc]; rfl)
  obtain ⟨own, hfd⟩ := hfd hpc
  obtain ⟨es, hes⟩ := hw.whole own
  refine ⟨own, [], es, hfd, hes, fun h => h.elim, fun e he => ⟨trivial, ?_⟩, by rw [hread]; rfl⟩
  obtain ⟨j, hj⟩ := mem_logBytes.mp he
  exact hsilent own e j (hes ▸ hj)

/-- The step that registers a handle. -/
theorem of_regist (hw : w.Logged) (hfit : w.RecordsFit) {cfg : Config}
    (hn : w.files[n]? = some h) (hpc : h.pc = .regist) (hstep : w.stepFile cfg n h = some w') :
    w'.Logged ∧ w.folder.Grown h.client w'.folder := by
  obtain ⟨own, hpos⟩ := hw.position_of_regist hn hpc
  have hatt : h.Attached := Or.inr (by rw [hpc]; rfl)
  have hstart := hw.start hfit hn hatt hpos
  have hspec := FileActiveStatus.registInSharedMem_spec (S := w.scope h own)
    (fun isDelete => registFile_roster isDelete) (w.ctx h) hstart
  have hfd : ∃ fd, h.fd = some fd ∧ fd.file = own := by
    obtain ⟨done, pending, hfd, -⟩ := hpos
    exact ⟨_, hfd, rfl⟩
  have hrun := stepFile_regist hpc hstep
  cases hreg : FileActiveStatus.registInSharedMem (w.ctx h) with
  | error e c =>
      rw [hreg] at hspec hrun
      obtain ⟨hfiles, hadmins, hshm, hfolder⟩ := hrun
      have hid := hspec.identity
      have hnone : c.self.activeId = none :=
        hid.activeId.trans (hw.opening n h hn (by rw [hpc]; rfl)).1
      have hgrown : w.folder.Grown h.client w'.folder := hfolder ▸ (hspec.journal trivial).grown
      refine ⟨?_, hgrown⟩
      have hclosed : h.SameIdentity { c.self with pc := .closed } :=
        ⟨hid.client, hid.fileId, hid.pid, hid.activeId, fun h => by cases h⟩
      refine hw.update_grown hn hfiles hgrown hid.client hid.fileId
        (fun hatt' => ?_) (fun hsome => absurd hnone hsome) rfl (fun _ => rfl)
        (hw.registered.of_same hn hfiles hadmins hclosed (hshm ▸ hspec.segment))
      rcases hatt' with hsome | hopen
      · exact absurd hnone hsome
      · cases hopen
  | ok u c =>
      rw [hreg] at hspec hrun
      obtain ⟨a, hc⟩ := hspec
      obtain ⟨⟨f, hfree⟩, hroster⟩ := hc.segment
      have hid := hc.identity
      obtain ⟨hgrown, -, hposition⟩ := hc.journal trivial
      obtain ⟨pc, hopening, hfiles, hadmins, hshm, hfolder⟩ := hrun
      refine ⟨?_, hfolder ▸ hgrown⟩
      have hlocal : c.self.Local { c.self with pc := pc } :=
        FileActiveStatus.Local.of_pc hopening
      have hpos' := position_of_local hlocal hfolder hposition
      have ha : c.self.activeId = some a := hid.activeId
      refine hw.update_grown hn hfiles (hfolder ▸ hgrown) hid.client hid.fileId
        (fun _ => ⟨hatt, fun fd' hfd' => ?_⟩) (fun _ => ⟨own, hpos'⟩) hopening
        (fun hnone => by rw [ha] at hnone; cases hnone)
        (hw.registered.join hn hfiles hadmins hfree ha ?_)
      · obtain ⟨fd, hfd, hfile⟩ := hfd
        obtain ⟨done', pending', hfd₁, -⟩ := hpos'
        obtain rfl := Option.some.inj (hfd'.symm.trans hfd₁)
        exact ⟨fd, hfd, hfile⟩
      · rw [hshm, hroster]
        rw [show c.self.pid = h.pid from hid.pid, show c.self.fileId = h.fileId from hid.fileId]
        rfl

/-- The step that opens the manifest. The file may be created, but no byte of
the folder changes. -/
theorem of_openManifest (hw : w.Logged) {cfg : Config} (hn : w.files[n]? = some h)
    (hpc : h.pc = .openManifest) (hstep : w.stepFile cfg n h = some w') : w'.Logged := by
  unfold stepFile at hstep
  simp only [hpc, Option.some.injEq] at hstep
  subst hstep
  obtain ⟨hcontent, hlength, hfile, hlinks, hlink⟩ := w.folder.mfOpen_spec h.fileId hw.links
  generalize w.folder.mfOpen h.fileId = opened at hcontent hlength hfile hlinks hlink
  obtain ⟨d, file⟩ := opened
  let h' : FileActiveStatus := { h with fd := some ⟨file, 0⟩, pc := .regist }
  let w' : World := { w.setFile n h' with folder := d }
  have hfiles : w'.files = w.files.set n h' := rfl
  have hopen : h.pc.isOpening = true := by rw [hpc]; rfl
  obtain ⟨hnone, hread, -, hsilent⟩ := hw.opening n h hn hopen
  have hown : ∀ f own, w.folder.OwnFile f own → d.OwnFile f own := by
    intro f own hf
    refine ⟨Nat.lt_of_lt_of_le hf.bound hlength, fun g k hg => ?_, fun g hg => ?_⟩
    · rcases hlinks g k hg with hg | ⟨-, rfl, -⟩
      · exact Nat.lt_of_lt_of_le (hf.links g k hg) hlength
      · exact hfile
    · rcases hlinks g own hg with hg | ⟨-, rfl, hnew⟩
      · exact hf.owner g hg
      · exact absurd hf.bound (by omega)
  -- the opened file belongs to the handle's file, whoever else has it open
  have hmine : ∀ f, w.folder.OwnFile f file → f = h.fileId := by
    intro f hf
    rcases hlink with hlink | hnew
    · exact (hf.owner _ hlink).symm
    · exact absurd hf.bound (by omega)
  have hownfile : d.OwnFile h.fileId file := by
    refine ⟨hfile, fun g k hg => ?_, fun g hg => ?_⟩
    · rcases hlinks g k hg with hg | ⟨-, rfl, -⟩
      · exact Nat.lt_of_lt_of_le (hw.links g k hg) hlength
      · exact hfile
    · rcases hlinks g file hg with hg | ⟨rfl, -, -⟩
      · rcases hlink with hlink | hnew
        · exact hw.linkInj _ _ _ hg hlink
        · exact absurd (hw.links g file hg) (by omega)
      · rfl
  have hcontent' : w'.folder.content = w.folder.content := funext hcontent
  have howner : ∀ (m : Nat) (x : FileActiveStatus) (fd : Descriptor), w'.files[m]? = some x →
      x.Attached → x.fd = some fd → d.OwnFile x.fileId fd.file ∧
        (fd.file = file → x.fileId = h.fileId) := by
    intro m x fd hm hatt hfd
    rcases files_set_cases hfiles hm with ⟨rfl, rfl⟩ | ⟨-, hm⟩
    · obtain rfl := Option.some.inj hfd
      exact ⟨hownfile, fun _ => rfl⟩
    · have := hw.owner m x fd hm hatt hfd
      exact ⟨hown _ _ this, fun heq => hmine _ (heq ▸ this)⟩
  refine ⟨hcontent' ▸ hw.whole, ?_, hownfile.links, ?_, ?_, fun m x fd hm hatt hfd =>
    (howner m x fd hm hatt hfd).1, ?_, ?_, ?_, ?_, ?_⟩
  · rw [hcontent', hfiles, List.length_set]
    exact hw.authors
  · intro f f' k hf hf'
    rcases hlinks f k hf with hold | ⟨hfile₁, hk, hnew⟩
    · rcases hlinks f' k hf' with hold' | ⟨-, hk, hnew⟩
      · exact hw.linkInj f f' k hold hold'
      · exact absurd (hw.links f k hold) (by omega)
    · rcases hlinks f' k hf' with hold' | ⟨hfile₂, -, -⟩
      · exact absurd (hw.links f' k hold') (by omega)
      · rw [hfile₁, hfile₂]
  · intro m x hm
    rcases files_set_cases hfiles hm with ⟨rfl, rfl⟩ | ⟨-, hm⟩
    · exact hw.client m h hn
    · exact hw.client m x hm
  · intro m m' x x' fd fd' hm hm' hatt hatt' hfd hfd' heq
    rcases files_set_cases hfiles hm with ⟨rfl, rfl⟩ | ⟨hne, hmold⟩
    · obtain rfl := Option.some.inj hfd
      exact ((howner m' x' fd' hm' hatt' hfd').2 heq.symm).symm
    · rcases files_set_cases hfiles hm' with ⟨rfl, rfl⟩ | ⟨hne', hmold'⟩
      · obtain rfl := Option.some.inj hfd'
        exact (howner m x fd hm hatt hfd).2 heq
      · exact hw.agree m m' x x' fd fd' hmold hmold' hatt hatt' hfd hfd' heq
  · intro m x hm hx
    rcases files_set_cases hfiles hm with ⟨rfl, rfl⟩ | ⟨-, hm⟩
    · exact absurd hnone hx
    · obtain ⟨own, done, pending, hfd, hold, hpos⟩ := hw.position m x hm hx
      exact ⟨own, done, pending, hfd, (hcontent own).trans hold, hpos⟩
  · intro m x hm hx
    rw [hcontent']
    rcases files_set_cases hfiles hm with ⟨rfl, rfl⟩ | ⟨-, hm⟩
    · exact ⟨hnone, hread, fun _ => ⟨file, rfl⟩, hsilent⟩
    · exact hw.opening m x hm hx
  · intro m x hm hx
    rcases files_set_cases hfiles hm with ⟨rfl, rfl⟩ | ⟨-, hm⟩
    · rfl
    · exact hw.quiet m x hm hx
  · exact hw.registered.of_same hn hfiles rfl ⟨rfl, rfl, rfl, rfl, fun _ => hopen⟩ rfl

/-- A new handle. -/
theorem of_openFile (hw : w.Logged) (cfg : Config) (fileId : FileId) (isCreate isSequence : Bool)
    (type : ActiveStatusType) (pid : Nat) :
    (w.openFile cfg fileId isCreate isSequence type pid).Logged := by
  obtain ⟨h, hnew, -⟩ := w.openFile_isNew cfg fileId isCreate isSequence type pid
  generalize w.openFile cfg fileId isCreate isSequence type pid = w' at hnew
  have hfolder := hnew.folder
  refine ⟨hfolder ▸ hw.whole, ?_, hfolder ▸ hw.links, hfolder ▸ hw.linkInj, ?_, ?_, ?_, ?_, ?_, ?_,
    hw.registered.of_new hnew⟩
  · intro k e j m he hm
    rw [hfolder] at he
    have := hw.authors k e j m he hm
    rw [hnew.files, List.length_append]
    omega
  · intro m x hm
    rcases hnew.cases hm with hm | ⟨rfl, rfl⟩
    · exact hw.client m x hm
    · exact hnew.client
  · intro m x fd hm hatt hx
    rcases hnew.cases hm with hm | ⟨-, rfl⟩
    · exact hfolder ▸ hw.owner m x fd hm hatt hx
    · rw [hnew.fd] at hx
      cases hx
  · intro m m' x x' fd fd' hm hm' hatt hatt' hx hx' heq
    rcases hnew.cases hm with hm | ⟨-, rfl⟩
    · rcases hnew.cases hm' with hm' | ⟨-, rfl⟩
      · exact hw.agree m m' x x' fd fd' hm hm' hatt hatt' hx hx' heq
      · rw [hnew.fd] at hx'
        cases hx'
    · rw [hnew.fd] at hx
      cases hx
  · intro m x hm hx
    rcases hnew.cases hm with hm | ⟨-, rfl⟩
    · exact hfolder ▸ hw.position m x hm hx
    · exact absurd hnew.activeId hx
  · intro m x hm hx
    rcases hnew.cases hm with hm | ⟨-, rfl⟩
    · exact hfolder ▸ hw.opening m x hm hx
    · refine ⟨hnew.activeId, hnew.readEntries, fun hregist => ?_, fun k e j he heq => ?_⟩
      · rcases hnew.pc with hpc | hpc <;> simp [hpc] at hregist
      · rw [hfolder] at he
        exact absurd (hw.authors k e j _ he (heq.trans hnew.client)) (by omega)
  · intro m x hm hx
    rcases hnew.cases hm with hm | ⟨-, rfl⟩
    · exact hw.quiet m x hm hx
    · rcases hnew.pc with hpc | hpc <;> rw [hpc] <;> rfl

/-- A step of an admin handle that appends records of its own. -/
theorem of_admin (hw : w.Logged) {k : Nat} (hfiles : w'.files = w.files)
    (hgrown : w.folder.Grown (.admin k) w'.folder) (hregistered : w'.Registered) : w'.Logged := by
  refine ⟨hgrown.whole hw.whole, ?_, ?_, ?_, ?_, ?_, ?_, ?_, ?_, ?_, hregistered⟩
  · intro i e j m he hm
    rw [hfiles]
    rcases hgrown.mem he with he | he
    · exact hw.authors i e j m he hm
    · rw [hm] at he
      cases he
  · intro f i hf
    rw [hgrown.files]
    exact hw.links f i (hgrown.links ▸ hf)
  · rw [hgrown.links]
    exact hw.linkInj
  · rw [hfiles]
    exact hw.client
  · intro m x fd hm hatt hfd
    rw [hfiles] at hm
    exact hgrown.ownFile (hw.owner m x fd hm hatt hfd)
  · unfold FilesAgree
    rw [hfiles]
    exact hw.agree
  · intro m x hm hx
    rw [hfiles] at hm
    obtain ⟨own, hpos⟩ := hw.position m x hm hx
    exact ⟨own, hgrown.position hpos (by rw [hw.client m x hm]; simp)⟩
  · intro m x hm hx
    rw [hfiles] at hm
    obtain ⟨h1, h2, h3, h4⟩ := hw.opening m x hm hx
    refine ⟨h1, h2, h3, fun i e j he => ?_⟩
    rcases hgrown.mem he with he | he
    · exact h4 i e j he
    · rw [he, hw.client m x hm]
      simp
  · rw [hfiles]
    exact hw.quiet

end Logged

end World

end Gopherwood
