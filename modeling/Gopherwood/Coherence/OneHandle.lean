/-
# One handle on one file

While one handle is the only one in the system, its file is a list of bytes: whatever
blocks are inactivated, evicted and loaded again in between, in whatever order the loads
come to an end. The file may be closed and opened again.
-/

import Gopherwood.Coherence.Guarantees

namespace Gopherwood

open Library (Run execute)

namespace World

variable {cfg : Config} {w w' : World} {file n : Nat} {h : FileActiveStatus} {act : Action}

/-- The only handle is one for reading and writing file `file`. It seeks within the file, and is
closed while no load is in flight; then the file may be opened again. -/
def Alone (file : Nat) (w : World) : Action → Prop
  | .openFile hashcode _ _ type _ => hashcode = file ∧ type = .writeFile ∧
      ∀ h ∈ w.files, h.Away
  | .call n call => (call.isClose = true → w.tasks.length = 0) ∧
      ∀ h ∈ w.files[n]?, ∀ target ∈ call.target h, 0 ≤ target ∧ target ≤ h.eof
  | .file _ | .failUpload _ | .load _ | .failLoad _ => True
  | _ => False

/-- The calls of the history, served by a list of bytes. -/
def flat (file : Nat) (w : World) : List CallRecord × FlatFiles :=
  FlatFiles.serve (fun _ => ⟨makeFileId file, false⟩) .empty (w.history.map CallRecord.request)

/-- What a handle on a list of bytes answers: every call that has returned has returned what the
list of bytes returns, and between two calls, while none has thrown, position and end of file are
those of the list. -/
structure IsFlat (file : Nat) (w : World) : Prop where
  answers : ∀ (k : Nat) (r : CallRecord), w.history[k]? = some r →
    (∃ value data, r.outcome = .returned value data) → (w.flat file).1[k]? = some r
  places : Calm w → w.Quiet → ∀ (n : Nat) (h : FileActiveStatus), w.files[n]? = some h →
    h.activeId ≠ none → h.pos = (w.flat file).2.cursor n ∧
    h.eof = ((w.flat file).2.content (makeFileId file)).length

/-- At most one handle is not away, and every handle was opened to write the file. -/
structure Single (file : Nat) (w : World) : Prop where
  only : ∀ (m m' : Nat) (x x' : FileActiveStatus), w.files[m]? = some x → w.files[m']? = some x' →
    ¬ x.Away → ¬ x'.Away → m = m'
  own : ∀ x ∈ w.files, x.fileId = makeFileId file ∧ x.isDelete = false

namespace Single

/-- Another handle than the one that works is away. -/
theorem away (hw : w.Single file) (hn : w.files[n]? = some h) (hactive : ¬ h.Away) {m : Nat}
    {x : FileActiveStatus} (hm : w.files[m]? = some x) (hmn : m ≠ n) : x.Away := by
  by_contra hx
  exact hmn (hw.only m n x h hm hn hx hactive)

/-- The only handle takes a step. -/
theorem step (hw : w.Single file) {h' : FileActiveStatus} (hn : w.files[n]? = some h)
    (hactive : ¬ h.Away) (hfiles : w'.files = w.files.set n h') (hfile : h'.fileId = h.fileId)
    (hdelete : h'.isDelete = h.isDelete) : w'.Single file := by
  refine ⟨fun m m' x x' hm hm' hx hx' => ?_, fun x hx => ?_⟩
  · have hself : ∀ {i : Nat} {y : FileActiveStatus}, w'.files[i]? = some y → ¬ y.Away → i = n := by
      intro i y hi hy
      rcases files_set_cases hfiles hi with ⟨rfl, -⟩ | ⟨hin, hi⟩
      · rfl
      · exact absurd (hw.away hn hactive hi hin) hy
    rw [hself hm hx, hself hm' hx']
  · obtain ⟨i, hi⟩ := List.mem_iff_getElem?.mp hx
    rcases files_set_cases hfiles hi with ⟨-, rfl⟩ | ⟨-, hi⟩
    · rw [hfile, hdelete]
      exact hw.own h (List.mem_of_getElem? hn)
    · exact hw.own x (List.mem_of_getElem? hi)

/-- The file is opened. -/
theorem opens (hw : w.Single file) (haway : ∀ x ∈ w.files, x.Away)
    (hfiles : w'.files = w.files ++ [h]) (hfile : h.fileId = makeFileId file)
    (hdelete : h.isDelete = false) : w'.Single file := by
  refine ⟨fun m m' x x' hm hm' hx hx' => ?_, fun x hx => ?_⟩
  · have hlast : ∀ {i : Nat} {y : FileActiveStatus}, w'.files[i]? = some y → ¬ y.Away →
        i = w.files.length := by
      intro i y hi hy
      have hlt := (List.getElem?_eq_some_iff.mp hi).1
      rw [hfiles, List.length_append, List.length_singleton] at hlt
      by_contra hne
      rw [hfiles, List.getElem?_append_left (by omega)] at hi
      exact hy (haway y (List.mem_of_getElem? hi))
    rw [hlast hm hx, hlast hm' hx']
  · rw [hfiles, List.mem_append, List.mem_singleton] at hx
    rcases hx with hx | rfl
    · exact hw.own x hx
    · exact ⟨hfile, hdelete⟩

end Single

theorem single_init (cfg : Config) (file : Nat) : (init cfg).Single file :=
  ⟨fun m m' x x' hm => (by cases hm), fun x hx => (by cases hx)⟩

/-- A handle for which a block is loaded is registered. -/
theorem Faithful.loads (hw : Faithful cfg w) {task : LoadTask} (htask : task ∈ w.tasks) :
    ∃ (h : FileActiveStatus) (a : Nat), w.files[task.owner]? = some h ∧ h.activeId = some a := by
  obtain ⟨F, htracks⟩ := hw.tracks
  obtain ⟨G, D, V, n, hc⟩ := htracks.serving.coherent
  obtain ⟨h, a, b, i, hcarries⟩ := hc.ledger.task task htask
  exact ⟨h, a, hcarries.owner ▸ hcarries.handle, hcarries.active⟩

theorem not_away_of_active {a : Nat} (ha : h.activeId = some a) : ¬ h.Away := by
  rintro ⟨-, hnone⟩
  rw [ha] at hnone
  cases hnone

/-- A step of the only handle is a step of an orderly run. -/
theorem Faithful.orderly (hw : Faithful cfg w) (hsingle : w.Single file)
    (halone : w.Alone file act) (hstep : World.step cfg w act = some w') : w.Orderly act := by
  cases act with
  | openFile hashcode isCreate isSequence type pid =>
      obtain ⟨-, -, haway⟩ := halone
      refine ⟨fun x hx => (haway x hx).1, ?_, fun x hx hactive => absurd (haway x hx).2 hactive⟩
      rw [List.length_eq_zero_iff, List.eq_nil_iff_forall_not_mem]
      intro task htask
      obtain ⟨h, a, hn, ha⟩ := hw.loads htask
      exact not_away_of_active ha (haway h (List.mem_of_getElem? hn))
  | call n call =>
      obtain ⟨hclose, htarget⟩ := halone
      simp only [World.step] at hstep
      split at hstep
      · next h hn =>
          split at hstep
          · next a hpc ha =>
              have hactive := not_away_of_active ha
              refine ⟨fun x hx => ?_, fun task htask => ?_, hclose,
                fun x hx target ht => (htarget x hx target ht).2⟩
              · obtain ⟨m, hm⟩ := List.mem_iff_getElem?.mp hx
                by_cases hmn : m = n
                · subst hmn
                  obtain rfl : h = x := Option.some.inj (hn.symm.trans hm)
                  exact Or.inl hpc
                · exact (hsingle.away hn hactive hm hmn).1
              · obtain ⟨x, e, hx, he⟩ := hw.loads htask
                exact hsingle.only _ _ x h hx hn (not_away_of_active he) hactive
          · cases hstep
      · cases hstep
  | file n | failUpload n | load i | failLoad i => trivial
  | openAdmin pid | evictBlocks m | closeAdmin m | admin m | failAdminUpload m =>
      exact halone.elim

/-- One handle stays the only one. -/
theorem Faithful.single (hfreed : cfg.FreedIntact) (hw : Faithful cfg w) (hsingle : w.Single file)
    (halone : w.Alone file act) (hstep : World.step cfg w act = some w') (hcalm : Calm w') :
    w'.Single file := by
  have horderly := hw.orderly hsingle halone hstep
  obtain ⟨F, htracks⟩ := hw.tracks
  have hreg := hw.enrolled.registered
  -- a loader thread leaves a handle what it was opened for
  have hticks : ∀ {n : Nat} {G G' : Account} {D : Option Draft} {V : Option Victim}
      {h h' : FileActiveStatus}, Coherent cfg G D V n w → w.tasks ≠ [] →
      w.files[n]? = some h → Ticks cfg n G G' D V h h' w w' → w'.Single file := by
    intro n G G' D V h h' hc htasks hn ht
    obtain ⟨task, htask⟩ := List.exists_mem_of_ne_nil _ htasks
    obtain ⟨x, a, b, i, hcarries⟩ := hc.ledger.task task htask
    obtain rfl : h = x := Option.some.inj (hn.symm.trans hcarries.handle)
    exact hsingle.step hn (not_away_of_active hcarries.active) ht.files ht.steady.fileId
      ht.steady.isDelete
  cases act with
  | openFile hashcode isCreate isSequence type pid =>
      cases hstep
      obtain ⟨rfl, rfl, haway⟩ := halone
      unfold openFile
      dsimp only
      split
      · exact hsingle.opens haway rfl rfl rfl
      · exact hsingle.opens haway rfl rfl rfl
  | call n call =>
      simp only [World.step] at hstep
      split at hstep
      · next h hn =>
          split at hstep
          · next a hpc ha =>
              cases hstep
              have hserves := htracks.serves_call hw.tagged hn ha horderly hcalm
              obtain ⟨h', hfiles, hfile, hdelete, -⟩ := hserves.next
              exact hsingle.step hn (not_away_of_active ha) hfiles hfile hdelete
          · cases hstep
      · cases hstep
  | file n =>
      simp only [World.step] at hstep
      split at hstep
      · next h hn =>
          obtain ⟨hserves, hbusy, -⟩ := htracks.serves_step hfreed hreg hw.tagged hw.metered hn
            hstep hcalm
          obtain ⟨h', hfiles, hfile, hdelete, -⟩ := hserves.next
          exact hsingle.step hn (fun haway => hbusy haway.1) hfiles hfile hdelete
      · cases hstep
  | failUpload n =>
      simp only [World.step] at hstep
      split at hstep
      · split at hstep
        · cases hstep
          exact absurd hcalm not_calm_raise
        · cases hstep
      · cases hstep
  | load i =>
      simp only [World.step] at hstep
      split at hstep
      · next task hi =>
          obtain ⟨G, D, V, n, hc, hdrafted⟩ := htracks.serving.drafted
          obtain ⟨G', h, h', hn, ht⟩ := hc.load hreg hdrafted hw.table
            (fun h hn => hw.metered n h hn) hi hstep
          exact hticks hc (List.ne_nil_of_mem (List.mem_of_getElem? hi)) hn ht
      · cases hstep
  | failLoad i =>
      simp only [World.step] at hstep
      split at hstep
      · next task hi =>
          obtain ⟨G, D, V, n, hc⟩ := htracks.serving.coherent
          obtain ⟨G', h, h', hn, ht⟩ := hc.failLoad hi hstep
          exact hticks hc (List.ne_nil_of_mem (List.mem_of_getElem? hi)) hn ht
      · cases hstep
  | openAdmin pid | evictBlocks m | closeAdmin m | admin m | failAdminUpload m =>
      exact halone.elim

/-- The steps of the only handle, until a call throws. -/
def AloneCalmly (file : Nat) (w : World) (act : Action) : Prop := w.Alone file act ∧ Calm w

/-- While no call throws, what holds in orderly runs holds in the runs of the only handle. -/
theorem faithful_of_alone (hfreed : cfg.FreedIntact)
    (hquota : FileActiveStatus.IsQuota cfg.curQuotaSize)
    (hrun : Run (step cfg) (AloneCalmly file) (init cfg) w) (hcalm : Calm w) :
    Faithful cfg w ∧ w.Single file := by
  refine @Run.induct _ _ _ _ _ _ (fun w => Calm w → Faithful cfg w ∧ w.Single file) hrun
    (fun _ => ⟨faithful_init cfg, single_init cfg file⟩) ?_ hcalm
  rintro w act w' hw ⟨halone, hbefore⟩ hstep hcalm
  obtain ⟨hfaithful, hsingle⟩ := hw hbefore
  exact ⟨hfaithful.step hfreed hquota (hfaithful.orderly hsingle halone hstep) hstep hcalm,
    hfaithful.single hfreed hsingle halone hstep hcalm⟩

/-- The list of bytes explains the history. -/
theorem Tracks.flat {F : FlatFiles} (hw : Tracks cfg F w) (hsingle : w.Single file) :
    w.flat file = (w.history, F) := by
  refine hw.explains.congr fun r hr => ?_
  obtain ⟨h, hn⟩ : ∃ h, w.files[r.handle]? = some h := ⟨_, List.getElem?_eq_getElem (hw.known r hr)⟩
  obtain ⟨hfile, hdelete⟩ := hsingle.own h (List.mem_of_getElem? hn)
  rw [holder_of_some hn, hfile, hdelete]

/-- While no call throws, the only handle behaves as a list of bytes. -/
theorem Faithful.isFlat (hw : Faithful cfg w) (hsingle : w.Single file) : w.IsFlat file := by
  obtain ⟨F, htracks⟩ := hw.tracks
  have hflat := htracks.flat hsingle
  refine ⟨fun k r hk _ => by rw [hflat]; exact hk, fun hcalm hquiet n h hn hactive => ?_⟩
  obtain ⟨m, ⟨G, hc, hcontent⟩, hrest⟩ := htracks.serving.quiet hquiet
  obtain ⟨a, ha⟩ := Option.ne_none_iff_exists'.mp hactive
  obtain ⟨k, done, pending, R, hh, -⟩ := hc.agrees.attends n h a hn ha
  obtain ⟨hfile, -⟩ := hsingle.own h (List.mem_of_getElem? hn)
  rw [hflat, ← hfile]
  exact ⟨(hrest n h hn).cursor a ha, by rw [hh.eof, hcontent]⟩

/-- A call that throws adds no answer to those of the calls before it. -/
theorem IsFlat.after (hw : w.IsFlat file) (hcalm : Calm w) (hrecords : w.Records w')
    (hthrows : ¬ Calm w') : w'.IsFlat file := by
  refine ⟨fun k r hk hreturned => ?_, fun hcalm' => absurd hcalm' hthrows⟩
  cases hrecords with
  | none hhistory =>
      rw [flat, hhistory]
      exact hw.answers k r (hhistory ▸ hk) hreturned
  | one last hhistory =>
      -- the call that has ended last has thrown
      have hold : w.history[k]? = some r := by
        rw [hhistory] at hk
        rcases Nat.lt_or_ge k w.history.length with hlt | hge
        · rwa [List.getElem?_append_left hlt] at hk
        · refine absurd (fun x hx => ?_) hthrows
          rw [hhistory, List.mem_append, List.mem_singleton] at hx
          rcases hx with hx | rfl
          · exact hcalm x hx
          · rw [List.getElem?_append_right hge] at hk
            rwa [List.mem_singleton.mp (List.mem_of_getElem? hk)] at hreturned
      have hanswered := hw.answers k r hold hreturned
      have hlt := (List.getElem?_eq_some_iff.mp hanswered).1
      rw [flat] at hanswered hlt ⊢
      rw [hhistory, List.map_append, List.map_singleton, FlatFiles.serve_append]
      exact (List.getElem?_append_left hlt).trans hanswered

instance (file : Nat) (w : World) : (act : Action) → Decidable (w.Alone file act)
  | .openFile hashcode _ _ type _ => inferInstanceAs (Decidable (hashcode = file ∧
      type = .writeFile ∧ ∀ h ∈ w.files, h.Away))
  | .call n call => inferInstanceAs (Decidable ((call.isClose = true → w.tasks.length = 0) ∧
      ∀ h ∈ w.files[n]?, ∀ target ∈ call.target h, 0 ≤ target ∧ target ≤ h.eof))
  | .file _ | .failUpload _ | .load _ | .failLoad _ => isTrue trivial
  | .openAdmin _ | .evictBlocks _ | .closeAdmin _ | .admin _ | .failAdminUpload _ => isFalse id

instance (file : Nat) (w : World) (act : Action) : Decidable (AloneCalmly file w act) :=
  inferInstanceAs (Decidable (w.Alone file act ∧ Calm w))

/-- The file is opened again for reading and writing, and read. -/
def openingAgain : List Action :=
  putAway ++ [.openFile 7 false false .writeFile 1, .file 1, .file 1, .call 1 (.read 1)] ++
    List.replicate 6 (.file 1) ++ List.replicate 4 (.load 0) ++ List.replicate 4 (.file 1)

/-- One bucket of two bytes. The second read of a freed node finds what `enqueue` has put there:
the address of a task at `0x100000120` in the bytes of the two ids, and the low bytes of the
address before it in the rest. -/
def taskInNode : Config :=
  ⟨1, 2, 4, 1, fun _ k => if k = 1 then some ⟨some 0x120, some 1, true, .active, 0⟩ else none⟩

/-- Three blocks are written, then the second byte of block 1, then the block is read. -/
def overwriting : List Action :=
  [.openFile 7 true false .writeFile 1, .file 0, .file 0, .call 0 (.write [1, 2, 3, 4, 5, 6])] ++
    List.replicate 24 (.file 0) ++ [.call 0 (.seekSet 3), .call 0 (.write [9])] ++
    List.replicate 12 (.file 0) ++ List.replicate 4 (.load 0) ++ List.replicate 4 (.file 0) ++
    [.call 0 (.seekSet 2), .call 0 (.read 2)] ++ List.replicate 4 (.file 0)

end World

end Gopherwood
