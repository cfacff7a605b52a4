/-
# Orderly runs

One handle works at a time, and a file is open in one handle only; the loader threads
come and go as they like. In every such run in which no call throws, the calls are
answered as the flat files answer them.
-/

import Gopherwood.Coherence.Serving
import Gopherwood.Segment.DeferredDelete

namespace Gopherwood

open Library (Run execute Keeps)
open SharedMem (Leads Moves)

namespace World

variable {cfg : Config} {w w' : World} {n : Nat} {h : FileActiveStatus} {act : Action}

/-- At most one call ends, by returning or by throwing. -/
inductive Records (w w' : World) : Prop
  | none (hhistory : w'.history = w.history)
  | one (r : CallRecord) (hhistory : w'.history = w.history ++ [r])

theorem Records.from_same {w₀ : World} (hr : Records w w') (hsame : w.history = w₀.history) :
    Records w₀ w' := by
  cases hr with
  | none hhistory => exact .none (hhistory.trans hsame)
  | one r hhistory => exact .one r (hsame ▸ hhistory)

theorem history_settle (w : World) (n : Nat) : w.Records (w.settle n) := by
  unfold settle
  split
  · split
    · exact Records.one _ rfl
    · exact Records.none rfl
  · exact Records.none rfl

theorem history_runFile {α : Type} {call : Option Call} {prog : StatusM α}
    {next : α → World → World} (hnext : ∀ (x : α) (w₁ : World), w₁.Records (next x w₁)) :
    w.Records (w.runFile n h call prog next) := by
  unfold runFile
  split
  · next x c _ =>
      exact (hnext x { w.setFile n c.self with
        shm := c.shm, folder := c.folder, oss := c.oss }).from_same rfl
  · exact Records.one _ rfl

theorem history_enqueue (w : World) (n : Nat) (result : FileActiveStatus.ActivateResult) :
    (w.enqueue n result).history = w.history := by
  cases result with
  | _ => rfl

/-- A step of a handle ends at most one call. -/
theorem history_stepFile (hstep : w.stepFile cfg n h = some w') : w.Records w' := by
  unfold stepFile at hstep
  split at hstep
  all_goals try simp only [Option.some.injEq, reduceCtorEq] at hstep
  · rw [← hstep]
    exact Records.none rfl
  · rw [← hstep]
    split
    · split
      · exact Records.none rfl
      · exact Records.one _ rfl
    · exact Records.one _ rfl
  · split at hstep
    · cases hstep
    · cases hstep
      exact Records.none rfl
  · rw [← hstep]
    exact history_runFile fun _ _ => Records.none rfl
  · rw [← hstep]
    split
    · exact Records.none rfl
    · exact Records.one _ rfl
  · rw [← hstep]
    exact Records.none rfl
  · rw [← hstep]
    exact history_runFile fun _ _ => Records.none rfl
  · rw [← hstep]
    exact history_runFile fun _ _ => Records.none rfl
  · rw [← hstep]
    exact history_runFile fun result w₁ => .none (history_enqueue _ n result)
  · split at hstep
    · cases hstep
    · cases hstep
      exact Records.none rfl
  · rw [← hstep]
    exact history_runFile fun _ _ => Records.none rfl
  · rw [← hstep]
    split
    · exact Records.none rfl
    · exact Records.one _ rfl
  · rw [← hstep]
    exact history_runFile fun _ w₁ => history_settle w₁ n
  · rw [← hstep]
    exact history_runFile fun _ _ => Records.one _ rfl
  · rw [← hstep]
    exact history_runFile fun _ _ => Records.none rfl
  · rw [← hstep]
    split
    · exact Records.one _ rfl
    · exact Records.none rfl

theorem history_startStream (w : World) (n : Nat) (h : FileActiveStatus) (stream : Stream) :
    w.Records (w.startStream n h stream) :=
  (history_settle (w.setFile n _) n).from_same rfl

theorem history_startSeek (w : World) (n : Nat) (h : FileActiveStatus) (call : Call) (target :
    Int) :
    w.Records (w.startSeek n h call target) := by
  unfold startSeek
  split
  · exact Records.one _ rfl
  · split
    · split
      · exact history_startStream _ _ _ _
      · exact Records.one _ rfl
    · exact Records.one _ rfl

theorem history_startCall (w : World) (n : Nat) (h : FileActiveStatus) (call : Call) :
    w.Records (w.startCall n h call) := by
  cases call with
  | read length => exact history_startStream _ _ _ _
  | write buffer =>
      unfold startCall
      dsimp only
      split
      · exact history_startStream _ _ _ _
      · exact Records.one _ rfl
  | seekSet pos => exact history_startSeek _ _ _ _ _
  | seekCur pos => exact history_startSeek _ _ _ _ _
  | seekEnd pos => exact history_startSeek _ _ _ _ _
  | flush =>
      unfold startCall
      dsimp only
      split
      · exact Records.none rfl
      · exact Records.one _ rfl
  | close isCancel => exact Records.none rfl

theorem history_finishLoad (w : World) (i owner : Nat) (h : FileActiveStatus) (prog :
    StatusM Unit) :
    (w.finishLoad i owner h prog).history = w.history := by
  unfold finishLoad
  dsimp only
  split
  · rfl
  · rfl

theorem history_stepLoad {i : Nat} {task : LoadTask} (hstep : w.stepLoad cfg i task = some w') :
    w'.history = w.history := by
  unfold stepLoad at hstep
  dsimp only at hstep
  split at hstep
  · simp only [Option.some.injEq] at hstep
    rw [← hstep]
    split
    · rfl
    · rfl
  · split at hstep
    · cases hstep
      rfl
    · cases hstep
      rfl
  · cases hstep
    rfl
  · split at hstep
    · cases hstep
    · split at hstep
      · cases hstep
      · cases hstep
        exact history_finishLoad _ _ _ _ _
  · split at hstep
    · cases hstep
    · split at hstep
      · cases hstep
      · cases hstep
        exact history_finishLoad _ _ _ _ _

theorem history_failLoad {i : Nat} {task : LoadTask} (hstep : w.failLoad i task = some w') :
    w'.history = w.history := by
  unfold failLoad at hstep
  split at hstep
  · cases hstep
    rfl
  · cases hstep
    rfl
  · cases hstep

end World

/-- No move adds a bucket or takes one away. -/
theorem SharedMem.Moves.table {m : Move} {s s' : SharedMem} (h : Moves m s s') :
    s'.buckets.length = s.buckets.length := by
  cases h with
  | _ => simp [SharedMem.updBucket, SharedMem.updSlot, SharedMem.updHeader]

namespace World

variable {cfg : Config} {w w' : World} {act : Action}

/-- The number of buckets stays. -/
theorem table_step (hstep : World.step cfg w act = some w') :
    w'.shm.buckets.length = w.shm.buckets.length := by
  have hmove : ∀ m : Move, Leads (fun s => s.buckets.length = w.shm.buckets.length) m
      fun s => s.buckets.length = w.shm.buckets.length :=
    fun m s s' hmoves hs => hmoves.table.trans hs
  have hsurvives : w.Survives act fun s => s.buckets.length = w.shm.buckets.length :=
    ⟨fun s s' hsame hs => by rw [hsame.buckets, hs], fun _ m _ => hmove m, fun _ m _ => hmove m⟩
  exact hsurvives.permits.step rfl hstep

/-! ## Orderly runs -/

end World

def Call.isClose : Call → Bool
  | .close _ => true
  | _ => false

namespace World

variable {cfg : Config} {w w' : World} {act : Action}

/-- No handle works: every thread is back at the caller of the API. -/
def Quiet (w : World) : Prop := ∀ x ∈ w.files, x.pc = .idle ∨ x.pc = .closed

/-- A handle begins to work when the others rest. It opens a file that is not open, and it
goes to no position beyond the end of file. While blocks are loaded for a handle, no other
handle works, and the handle stays. No admin is at work. -/
def Orderly (w : World) : Action → Prop
  | .openFile hashcode _ _ _ _ => w.Quiet ∧ w.tasks.length = 0 ∧
      ∀ x ∈ w.files, x.activeId ≠ none → x.fileId ≠ makeFileId hashcode
  | .call n call => w.Quiet ∧ (∀ task ∈ w.tasks, task.owner = n) ∧
      (call.isClose = true → w.tasks.length = 0) ∧
      ∀ h ∈ w.files[n]?, ∀ target ∈ call.target h, target ≤ h.eof
  | .file _ | .failUpload _ | .load _ | .failLoad _ => True
  | _ => False

instance (w : World) : Decidable w.Quiet :=
  inferInstanceAs (Decidable (∀ x ∈ w.files, x.pc = .idle ∨ x.pc = .closed))

instance (w : World) (act : Action) : Decidable (w.Orderly act) := by
  unfold Orderly
  cases act with
  | _ => infer_instance

/-- The files of the system are `F`, or the call on the only handle that works leads to the next
files from there. -/
inductive Serving (cfg : Config) (F : FlatFiles) (w : World) : Prop
  | rests (n : Nat) (hstores : Stores cfg F.content n w)
      (hrest : ∀ (m : Nat) (x : FileActiveStatus), w.files[m]? = some x → AtRest F m x)
  | works (n : Nat) (h : FileActiveStatus) (hn : w.files[n]? = some h)
      (hothers : ∀ (m : Nat) (x : FileActiveStatus), m ≠ n → w.files[m]? = some x → AtRest F m x)
      (hdoing : Doing cfg F n w h)

/-- What handle `n` was opened for. -/
def holder (w : World) (n : Nat) : Holder :=
  match w.files[n]? with
  | some h => ⟨h.fileId, h.isDelete⟩
  | none => ⟨FileId.invalid, false⟩

/-- The flat files that served the calls of the history are `F`. They are the specification,
which serves whole calls one after the other and knows no buckets. -/
structure Tracks (cfg : Config) (F : FlatFiles) (w : World) : Prop where
  explains : F.Explains w.holder w.history
  known : ∀ r ∈ w.history, r.handle < w.files.length
  serving : Serving cfg F w

variable {F F' : FlatFiles} {n : Nat} {h h' : FileActiveStatus}

theorem holder_of_some (hn : w.files[n]? = some h) : w.holder n = ⟨h.fileId, h.isDelete⟩ := by
  unfold holder
  rw [hn]

theorem holder_of_set (hn : w.files[n]? = some h) (hfiles : w'.files = w.files.set n h')
    (hfile : h'.fileId = h.fileId) (hdelete : h'.isDelete = h.isDelete) : w'.holder = w.holder := by
  funext m
  by_cases hm : m = n
  · subst hm
    have hnew : w'.files[m]? = some h' := by
      rw [hfiles, List.getElem?_set_self (List.getElem?_eq_some_iff.mp hn).1]
    rw [holder_of_some hnew, holder_of_some hn, hfile, hdelete]
  · unfold holder
    rw [hfiles, List.getElem?_set_ne (Ne.symm hm)]

theorem holder_of_append (hfiles : w'.files = w.files ++ [h]) (hn : n < w.files.length) :
    w'.holder n = w.holder n := by
  unfold holder
  rw [hfiles, List.getElem?_append_left hn]

/-- A handle that works does not rest. -/
theorem Doing.busy (hd : Doing cfg F n w h) : ¬ (h.pc = .idle ∨ h.pc = .closed) := by
  have hother : ∀ {pc : Pc}, h.pc = pc → pc ≠ .idle → pc ≠ .closed →
      ¬ (h.pc = .idle ∨ h.pc = .closed) := by
    rintro pc rfl hidle hclosed (hpc | hpc)
    · exact hidle hpc
    · exact hclosed hpc
  cases hd with
  | opens hpc => exact hother hpc Pc.noConfusion Pc.noConfusion
  | regists k hpc => exact hother hpc Pc.noConfusion Pc.noConfusion
  | streams G D V a hs =>
      have hstage := hs.stage
      rintro (hpc | hpc)
      · rw [hpc] at hstage
        exact hstage
      · rw [hpc] at hstage
        exact hstage
  | flushes a hpc => exact hother hpc Pc.noConfusion Pc.noConfusion
  | closes a isCancel hpc => exact hother hpc Pc.noConfusion Pc.noConfusion
  | leaves isCancel blocks hpc => exact hother hpc Pc.noConfusion Pc.noConfusion

/-- When no handle works, the files are `F`. -/
theorem Serving.quiet (hs : Serving cfg F w) (hquiet : w.Quiet) : ∃ n, Stores cfg F.content n w ∧
    ∀ (m : Nat) (x : FileActiveStatus), w.files[m]? = some x → AtRest F m x := by
  cases hs with
  | rests n hstores hrest => exact ⟨n, hstores, hrest⟩
  | works n h hn hothers hdoing => exact absurd (hquiet h (List.mem_of_getElem? hn)) hdoing.busy

theorem AtRest.congr {x : FileActiveStatus} (hx : AtRest F n x) (hcursor :
    F'.cursor n = F.cursor n) :
    AtRest F' n x :=
  ⟨hx.pc, fun e he => (hx.cursor e he).trans hcursor.symm, hx.spares, hx.gone⟩

/-- After a step of handle `n`, the system serves as before, or the call has been answered. -/
theorem Serves.tracks (hs : Serves cfg F n h w w') (hn : w.files[n]? = some h)
    (hothers : ∀ (m : Nat) (x : FileActiveStatus), m ≠ n → w.files[m]? = some x → AtRest F m x)
    (hexplains : F.Explains w.holder w.history)
    (hknown : ∀ r ∈ w.history, r.handle < w.files.length) :
    ∃ F' : FlatFiles, Tracks cfg F' w' := by
  obtain ⟨h', hfiles, hfile, hdelete, hnext⟩ := hs.next
  have hlt := (List.getElem?_eq_some_iff.mp hn).1
  have hnew : w'.files[n]? = some h' := by
    rw [hfiles, List.getElem?_set_self hlt]
  have hold : ∀ (m : Nat) (x : FileActiveStatus), m ≠ n → w'.files[m]? = some x → AtRest F m x := by
    intro m x hmn hm
    rw [hfiles, List.getElem?_set_ne (Ne.symm hmn)] at hm
    exact hothers m x hmn hm
  have hholder := holder_of_set hn hfiles hfile hdelete
  have hlength : w'.files.length = w.files.length := by
    rw [hfiles, List.length_set]
  cases hnext with
  | goes hhistory hdoing =>
      refine ⟨F, ?_, ?_, .works n h' hnew hold hdoing⟩
      · rw [hholder, hhistory]
        exact hexplains
      · rw [hhistory, hlength]
        exact hknown
  | answers call outcome F' hhistory hanswer hstores hrest =>
      refine ⟨F', ?_, fun r hr => ?_, .rests n hstores fun m x hm => ?_⟩
      · rw [hholder, hhistory]
        refine hexplains.append ?_
        change F.answer n (w.holder n) call = (outcome, F')
        rw [holder_of_some hn]
        exact hanswer
      · rw [hlength]
        rw [hhistory, List.mem_append, List.mem_singleton] at hr
        rcases hr with hr | rfl
        · exact hknown r hr
        · exact hlt
      · by_cases hmn : m = n
        · subst hmn
          obtain rfl : h' = x := Option.some.inj (hnew.symm.trans hm)
          exact hrest
        · refine (hold m x hmn hm).congr ?_
          have hcursor : (F.answer n ⟨h.fileId, h.isDelete⟩ call).2.cursor m = F.cursor m :=
            FlatFiles.answer_cursor hmn
          rw [hanswer] at hcursor
          exact hcursor

/-- The handle that works next is handle `n`. -/
theorem Stores.turn {content : FileId → List UInt8} {m : Nat} (hstores : Stores cfg content m w)
    (howner : ∀ task ∈ w.tasks, task.owner = n) : Stores cfg content n w := by
  obtain ⟨G, hc, hcontent⟩ := hstores
  cases htasks : w.tasks with
  | nil => exact ⟨G, hc.passes htasks, hcontent⟩
  | cons task rest =>
      have htask : task ∈ w.tasks := htasks ▸ List.mem_cons_self
      obtain ⟨x, a, b, i, hcarries⟩ := hc.ledger.task task htask
      obtain rfl : n = m := (howner task htask).symm.trans hcarries.owner
      exact ⟨G, hc, hcontent⟩

/-- A file is opened. -/
theorem Tracks.opens {f : FileId} {isCreate isSequence : Bool} {type : ActiveStatusType} {pid : Nat}
    (hw : Tracks cfg F w) (htagged : w.Tagged) (hf : f ≠ FileId.invalid) (hquiet : w.Quiet)
    (htasks : w.tasks = []) (hvacant : w.Vacant f)
    (hcalm : Calm (w.openFile cfg f isCreate isSequence type pid)) :
    (w.openFile cfg f isCreate isSequence type pid).Tagged ∧
      Tracks cfg F (w.openFile cfg f isCreate isSequence type pid) := by
  obtain ⟨m, hstores, hrest⟩ := hw.serving.quiet hquiet
  cases hexists : isCreate || w.folder.isLinked f with
  | false =>
      unfold openFile at hcalm
      simp only [hexists, Bool.false_eq_true, if_false] at hcalm
      obtain ⟨value, data, hout⟩ := hcalm _ (List.mem_append_right _ (List.mem_singleton.mpr rfl))
      cases hout
  | true =>
      simp only [openFile, hexists, if_true]
      refine ⟨htagged.opens rfl rfl hf, hw.explains.congr
        fun r hr => holder_of_append rfl (hw.known r hr), fun r hr => ?_,
          .works w.files.length _ List.getElem?_concat_length (fun k x hk hx => ?_)
          (.opens rfl (hstores.aside htasks (.of_append rfl rfl) rfl rfl rfl rfl htasks) htasks
            ⟨rfl, rfl, rfl, rfl, rfl, rfl, rfl⟩ (hvacant.of_same (.of_append rfl rfl)))⟩
      · rw [List.length_append]
        exact Nat.lt_add_right _ (hw.known r hr)
      · have hlt := (List.getElem?_eq_some_iff.mp hx).1
        rw [List.length_append, List.length_singleton] at hlt
        rw [List.getElem?_append_left (by omega)] at hx
        exact hrest k x hx

theorem tags_of_failLoad {i : Nat} {task : LoadTask} (hstep : w.failLoad i task = some w') :
    w'.shm.tags = w.shm.tags := by
  unfold failLoad at hstep
  split at hstep
  · cases hstep
    rfl
  · cases hstep
    rfl
  · cases hstep

/-- A loader thread takes a step. -/
theorem Tracks.ticks (hw : Tracks cfg F w) (htagged : w.Tagged) (htasks : w.tasks ≠ [])
    (htags : w'.shm.tags = w.shm.tags)
    (hload : ∀ G D V n, Coherent cfg G D V n w → Drafted cfg G D →
      ∃ G' h h', w.files[n]? = some h ∧ Ticks cfg n G G' D V h h' w w') :
    w'.Tagged ∧ Tracks cfg F w' := by
  have hdrafted : ∀ G : Account, Drafted cfg G none := fun G d hd => by cases hd
  have hafter :
      ∀ {G G' : Account} {D : Option Draft} {V : Option Victim} {n : Nat} {h h' : FileActiveStatus},
      w.files[n]? = some h → Ticks cfg n G G' D V h h' w w' →
        w'.Tagged ∧ (Serving cfg F w' → Tracks cfg F w') ∧ w'.files[n]? = some h' ∧
          ∀ (m : Nat) (x : FileActiveStatus), m ≠ n → w'.files[m]? = some x →
          w.files[m]? = some x := by
    intro G G' D V n h h' hn ht
    refine ⟨htagged.stays hn ht.files htags ht.steady.fileId ht.steady.activeId ht.steady.isDelete,
      fun hserving => ⟨?_, ?_, hserving⟩, ?_, fun m x hmn hm => ?_⟩
    · rw [holder_of_set hn ht.files ht.steady.fileId ht.steady.isDelete, ht.history]
      exact hw.explains
    · rw [ht.history, ht.files, List.length_set]
      exact hw.known
    · rw [ht.files, List.getElem?_set_self (List.getElem?_eq_some_iff.mp hn).1]
    · rwa [ht.files, List.getElem?_set_ne (Ne.symm hmn)] at hm
  cases hw.serving with
  | rests n hstores hrest =>
      obtain ⟨G, hc, hcontent⟩ := hstores
      obtain ⟨G', h, h', hn, ht⟩ := hload G none none n hc (hdrafted G)
      obtain ⟨htagged', htracks, hnew, hold⟩ := hafter hn ht
      refine ⟨htagged', htracks (.rests n ⟨G', ht.coherent, ht.content.trans hcontent⟩
        fun m x hm => ?_)⟩
      by_cases hmn : m = n
      · subst hmn
        obtain rfl : h' = x := Option.some.inj (hnew.symm.trans hm)
        have hh := hrest m h hn
        refine ⟨?_, fun e he => ?_, fun e he => ?_, fun hclosed => ?_⟩
        · rw [ht.steady.pc]
          exact hh.pc
        · rw [ht.steady.pos]
          exact hh.cursor e (ht.steady.activeId.symm.trans he)
        · rw [ht.steady.isDelete]
          exact hh.spares e (ht.steady.activeId.symm.trans he)
        · exact ht.steady.activeId.trans (hh.gone (ht.steady.pc.symm.trans hclosed))
      · exact hrest m x (hold m x hmn hm)
  | works n h hn hothers hdoing =>
      have hdoing' : ∃ h', (∃ G G' D V, Ticks cfg n G G' D V h h' w w') ∧ Doing cfg F n w' h' := by
        cases hdoing with
        | opens hpc hstores hnone => exact absurd hnone htasks
        | regists k hpc hstores hnone => exact absurd hnone htasks
        | closes a isCancel hpc hstores hnone => exact absurd hnone htasks
        | leaves isCancel blocks hpc hstores hnone => exact absurd hnone htasks
        | streams G D V a hstreams =>
            obtain ⟨G', x, h', hx, ht⟩ := hload G D V n hstreams.coherent hstreams.drafted
            obtain rfl : h = x := Option.some.inj (hn.symm.trans hx)
            obtain ⟨G'', D', V', y, hfiles, -, hs'⟩ := (hstreams.ticks ht).streams
            obtain rfl : h' = y := by
              have hlt := (List.getElem?_eq_some_iff.mp hn).1
              have hsame := hfiles.symm.trans ht.files
              have hget := congrArg (·[n]?) hsame
              simp only [List.getElem?_set_self hlt, Option.some.injEq] at hget
              exact hget.symm
            exact ⟨h', ⟨G, G', D, V, ht⟩, .streams G'' D' V' a hs'⟩
        | flushes a hpc hstores hactive hcursor hspares =>
            obtain ⟨G, hc, hcontent⟩ := hstores
            obtain ⟨G', x, h', hx, ht⟩ := hload G none none n hc (hdrafted G)
            obtain rfl : h = x := Option.some.inj (hn.symm.trans hx)
            exact ⟨h', ⟨G, G', none, none, ht⟩, .flushes a (ht.steady.pc.trans hpc)
              ⟨G', ht.coherent, ht.content.trans hcontent⟩ (ht.steady.activeId.trans hactive)
              (ht.steady.pos.trans hcursor) (ht.steady.isDelete.trans hspares)⟩
      obtain ⟨h', ⟨G, G', D, V, ht⟩, hdoing'⟩ := hdoing'
      obtain ⟨htagged', htracks, hnew, hold⟩ := hafter hn ht
      exact ⟨htagged',
        htracks (.works n h' hnew (fun m x hmn hm => hothers m x hmn (hold m x hmn hm)) hdoing')⟩

/-- Whoever works, all parts of the system agree, on what is drafted too. -/
theorem Serving.drafted (hs : Serving cfg F w) :
    ∃ G D V n, Coherent cfg G D V n w ∧ Drafted cfg G D := by
  have hstored : ∀ {content : FileId → List UInt8} {n : Nat}, Stores cfg content n w →
      ∃ G D V n, Coherent cfg G D V n w ∧ Drafted cfg G D := by
    rintro content n ⟨G, hc, -⟩
    exact ⟨G, none, none, n, hc, fun d hd => by cases hd⟩
  cases hs with
  | rests n hstores hrest => exact hstored hstores
  | works n h hn hothers hdoing =>
      cases hdoing with
      | streams G D V a hs => exact ⟨G, D, V, n, hs.coherent, hs.drafted⟩
      | opens hpc hstores => exact hstored hstores
      | regists k hpc hstores => exact hstored hstores
      | flushes a hpc hstores => exact hstored hstores
      | closes a isCancel hpc hstores => exact hstored hstores
      | leaves isCancel blocks hpc hstores => exact hstored hstores

theorem Serving.coherent (hs : Serving cfg F w) : ∃ G D V n, Coherent cfg G D V n w := by
  obtain ⟨G, D, V, n, hc, -⟩ := hs.drafted
  exact ⟨G, D, V, n, hc⟩

/-- Nobody steals a victim when only one handle works. -/
theorem Serving.spared (hs : Serving cfg F w) (h : FileActiveStatus) : w.endsStolen h = false := by
  obtain ⟨G, D, V, n, hc⟩ := hs.coherent
  unfold endsStolen
  split
  · next caller loop a hpc ha =>
      have hnot : ∀ s', SharedMemoryContext.evictBucketFinishAndTryAcquire
          loop.evictBlockInfo.bucketId a h.fileId
          h.isWrite w.shm ≠ .ok .stolen s' := by
        intro s' hrun
        obtain ⟨slot, hslot, hstolen⟩ := (FileActiveStatus.evict_stolen_iff _ _ _ _ _).mp ⟨s', hrun⟩
        rw [hc.agrees.staffed.stolen slot (List.mem_of_getElem? hslot)] at hstolen
        cases hstolen
      rw [Bool.and_eq_false_iff]
      right
      split
      · next s' hrun => exact absurd hrun (hnot s')
      · rfl
  · rfl

/-- What every step of an orderly run keeps, as long as no call throws. What follows an
exception is left open. -/
structure Faithful (cfg : Config) (w : World) : Prop where
  enrolled : w.Enrolled
  tagged : w.Tagged
  metered : w.AllMetered
  table : w.shm.buckets.length = cfg.numberOfBlocks
  tracks : ∃ F : FlatFiles, Tracks cfg F w

/-- A call is made. -/
theorem Tracks.serves_call {call : Call} (hw : Tracks cfg F w) (htagged : w.Tagged)
    (hn : w.files[n]? = some h) {a : Nat} (ha : h.activeId = some a)
    (horderly : w.Orderly (.call n call)) (hcalm : Calm (w.startCall n h call)) :
    Serves cfg F n h w (w.startCall n h call) := by
  obtain ⟨hquiet, howner, hclose, hinside⟩ := horderly
  obtain ⟨m, hstores, hrest⟩ := hw.serving.quiet hquiet
  refine serves_startCall htagged hn (hstores.turn howner) (hrest n h hn) ha
    (fun isCancel hcall => ?_)
    (fun target htarget => hinside h hn target htarget) hcalm
  subst hcall
  exact List.length_eq_zero_iff.mp (hclose rfl)

/-- The handle of a call that is made. -/
theorem Tracks.calls {call : Call} (hw : Tracks cfg F w) (htagged : w.Tagged)
    (hn : w.files[n]? = some h) {a : Nat} (ha : h.activeId = some a)
    (horderly : w.Orderly (.call n call)) (hcalm : Calm (w.startCall n h call)) :
    (w.startCall n h call).Tagged ∧ ∃ F' : FlatFiles, Tracks cfg F' (w.startCall n h call) := by
  have hserves := hw.serves_call htagged hn ha horderly hcalm
  obtain ⟨m, -, hrest⟩ := hw.serving.quiet horderly.1
  exact ⟨hserves.tagged, hserves.tracks hn (fun m x _ hm => hrest m x hm) hw.explains hw.known⟩

/-- The handle that works serves its call, and the others rest. -/
theorem Tracks.serves_step (hfreed : cfg.FreedIntact) (hw : Tracks cfg F w) (hreg : w.Registered)
    (htagged : w.Tagged) (hmetered : w.AllMetered) (hn : w.files[n]? = some h)
    (hstep : w.stepFile cfg n h = some w') (hcalm : Calm w') :
    Serves cfg F n h w w' ∧ ¬ (h.pc = .idle ∨ h.pc = .closed) ∧
      ∀ (m : Nat) (x : FileActiveStatus), m ≠ n → w.files[m]? = some x → AtRest F m x := by
  have hresting : ∀ {x : FileActiveStatus}, w.files[n]? = some x →
      ¬ (x.pc = .idle ∨ x.pc = .closed) := by
    intro x hx hrest
    obtain rfl : h = x := Option.some.inj (hn.symm.trans hx)
    rcases hrest with hpc | hpc
    · simp only [stepFile, hpc, reduceCtorEq] at hstep
    · simp only [stepFile, hpc, reduceCtorEq] at hstep
  cases hw.serving with
  | rests m hstores hrest => exact absurd (hrest n h hn).pc (hresting hn)
  | works m x hm hothers hdoing =>
      by_cases hnm : n = m
      · subst hnm
        obtain rfl : h = x := Option.some.inj (hn.symm.trans hm)
        exact ⟨hdoing.step hfreed hreg htagged (hmetered n h hn) hn hstep hcalm, hresting hn,
          hothers⟩
      · exact absurd (hothers n h hnm hn).pc (hresting hn)

/-- The handle that works takes a step. -/
theorem Tracks.steps (hfreed : cfg.FreedIntact) (hw : Tracks cfg F w) (hreg : w.Registered)
    (htagged : w.Tagged) (hmetered : w.AllMetered) (hn : w.files[n]? = some h)
    (hstep : w.stepFile cfg n h = some w') (hcalm : Calm w') :
    w'.Tagged ∧ ∃ F' : FlatFiles, Tracks cfg F' w' := by
  obtain ⟨hserves, -, hothers⟩ := hw.serves_step hfreed hreg htagged hmetered hn hstep hcalm
  exact ⟨hserves.tagged, hserves.tracks hn hothers hw.explains hw.known⟩

/-- One step of an orderly run. -/
theorem Faithful.step (hfreed : cfg.FreedIntact) (hw : Faithful cfg w)
    (hquota : FileActiveStatus.IsQuota cfg.curQuotaSize) (horderly : w.Orderly act)
    (hstep : World.step cfg w act = some w') (hcalm : Calm w') : Faithful cfg w' := by
  obtain ⟨F, htracks⟩ := hw.tracks
  suffices hnext : w'.Tagged ∧ ∃ F' : FlatFiles, Tracks cfg F' w' from
    ⟨hw.enrolled.step hstep, hnext.1,
      hw.metered.step hquota (fun n h _ _ => htracks.serving.spared h) hstep,
      (table_step hstep).trans hw.table, hnext.2⟩
  have hreg := hw.enrolled.registered
  cases act with
  | openFile hashcode isCreate isSequence type pid =>
      cases hstep
      obtain ⟨hquiet, htasks, hvacant⟩ := horderly
      obtain ⟨htagged, hopens⟩ :=
        htracks.opens hw.tagged (RegistHistory.makeFileId_ne_invalid hashcode) hquiet
        (List.length_eq_zero_iff.mp htasks)
        (fun m x e hm he => hvacant x (List.mem_of_getElem? hm)
          (by rw [he]; exact Option.some_ne_none e)) hcalm
      exact ⟨htagged, F, hopens⟩
  | call n call =>
      simp only [World.step] at hstep
      split at hstep
      · next h hn =>
          split at hstep
          · next a hpc ha =>
              cases hstep
              exact htracks.calls hw.tagged hn ha horderly hcalm
          · cases hstep
      · cases hstep
  | file n =>
      simp only [World.step] at hstep
      split at hstep
      · next h hn => exact htracks.steps hfreed hreg hw.tagged hw.metered hn hstep hcalm
      · cases hstep
  | failUpload n =>
      simp only [World.step] at hstep
      split at hstep
      · split at hstep
        · cases hstep
          exact absurd hcalm not_calm_raise
        · cases hstep
      · cases hstep
  | load i =>
      simp only [World.step] at hstep
      split at hstep
      · next task hi =>
          obtain ⟨htagged, hticks⟩ :=
            htracks.ticks hw.tagged (List.ne_nil_of_mem (List.mem_of_getElem? hi))
            (tags_of_load hstep) fun G D V n hc hdrafted =>
              hc.load hreg hdrafted hw.table (fun h hn => hw.metered n h hn) hi hstep
          exact ⟨htagged, F, hticks⟩
      · cases hstep
  | failLoad i =>
      simp only [World.step] at hstep
      split at hstep
      · next task hi =>
          obtain ⟨htagged, hticks⟩ :=
            htracks.ticks hw.tagged (List.ne_nil_of_mem (List.mem_of_getElem? hi))
            (tags_of_failLoad hstep) fun G D V n hc _ => hc.failLoad hi hstep
          exact ⟨htagged, F, hticks⟩
      · cases hstep
  | openAdmin pid => exact horderly.elim
  | evictBlocks m => exact horderly.elim
  | closeAdmin m => exact horderly.elim
  | admin m => exact horderly.elim
  | failAdminUpload m => exact horderly.elim

/-! ## Whole runs -/

/-- At the start nothing is stored, and every bucket is free. -/
theorem coherent_init (cfg : Config) (n : Nat) :
    Coherent cfg ⟨fun _ => .free, fun _ => [], fun _ => 0⟩ none none n (init cfg) := by
  have hfiles : ∀ {m : Nat} {x : FileActiveStatus}, (init cfg).files[m]? = some x → False := by
    intro m x hm
    cases hm
  have hlinks : ∀ {f : FileId} {k : Nat}, (init cfg).folder.links f = some k → False := by
    intro f k hk
    cases hk
  have hsizes : ∀ f i, Account.sizes ⟨fun _ => .free, fun _ => [], fun _ => 0⟩ cfg.localBucketSize f
      i = 0 := by
    intro f i
    simp [Account.sizes, Library.length_page]
  refine ⟨⟨.start cfg _, ⟨fun f k hk => (hlinks hk).elim, fun f g k hk => (hlinks hk).elim⟩,
    fun f k hk => (hlinks hk).elim, fun f _ => ⟨rfl, rfl⟩, fun f =>
    ⟨fun i => ?_, Nat.zero_le _, ?_⟩, fun b f i hspot => (by cases hspot), fun m x e hm =>
    (hfiles hm).elim, fun m m' x x' e e' hm => (hfiles hm).elim, fun b e x hx => (by cases hx),
    fun b f i e => ⟨fun h => (by cases h), fun h => (by cases h.1)⟩⟩,
    fun b f i hspot => (by cases hspot), fun f k hk => (hlinks hk).elim,
    ⟨fun task htask => (by cases htask), List.nodup_nil, fun b e f i h => (by cases h)⟩⟩
  · rw [hsizes]
    simp
  · simp

theorem faithful_init (cfg : Config) : Faithful cfg (init cfg) where
  enrolled := enrolled_init cfg
  tagged := tagged_init cfg
  metered n h hn := by cases hn
  table := List.length_replicate
  tracks := ⟨.empty, FlatFiles.explains_nil, fun r hr => (by cases hr),
    .rests 0 ⟨_, coherent_init cfg 0, rfl⟩ fun m x hm => (by cases hm)⟩

/-- A step of an orderly run ends at most one call. -/
theorem history_step (horderly : w.Orderly act) (hstep : World.step cfg w act = some w') :
    w.Records w' := by
  cases act with
  | openFile hashcode isCreate isSequence type pid =>
      cases hstep
      unfold openFile
      dsimp only
      split
      · exact Records.none rfl
      · exact Records.one _ rfl
  | call n call =>
      simp only [World.step] at hstep
      split at hstep
      · split at hstep
        · cases hstep
          exact history_startCall _ _ _ _
        · cases hstep
      · cases hstep
  | file n =>
      simp only [World.step] at hstep
      split at hstep
      · exact history_stepFile hstep
      · cases hstep
  | failUpload n =>
      simp only [World.step] at hstep
      split at hstep
      · split at hstep
        · cases hstep
          exact Records.one _ rfl
        · cases hstep
      · cases hstep
  | load i =>
      simp only [World.step] at hstep
      split at hstep
      · exact .none (history_stepLoad hstep)
      · cases hstep
  | failLoad i =>
      simp only [World.step] at hstep
      split at hstep
      · exact .none (history_failLoad hstep)
      · cases hstep
  | openAdmin pid => exact horderly.elim
  | evictBlocks m => exact horderly.elim
  | closeAdmin m => exact horderly.elim
  | admin m => exact horderly.elim
  | failAdminUpload m => exact horderly.elim

theorem Calm.of_step (hcalm : Calm w') (horderly : w.Orderly act)
    (hstep : World.step cfg w act = some w') :
    Calm w := by
  intro r hr
  cases history_step horderly hstep with
  | none hhistory => exact hcalm r (hhistory ▸ hr)
  | one last hhistory => exact hcalm r (hhistory ▸ List.mem_append_left _ hr)

/-- What holds in every state of an orderly run. -/
theorem faithful_run (hfreed : cfg.FreedIntact) (hquota : FileActiveStatus.IsQuota cfg.curQuotaSize)
    (hrun : Run (World.step cfg) Orderly (init cfg) w) (hcalm : Calm w) : Faithful cfg w := by
  refine @Run.induct _ _ _ _ _ _ (fun w => Calm w → Faithful cfg w) hrun
    (fun _ => faithful_init cfg) ?_ hcalm
  intro w act w' hw horderly hstep hcalm
  exact (hw (hcalm.of_step horderly hstep)).step hfreed hquota horderly hstep hcalm

/-- One bucket, and blocks of one byte. -/
def byteBlocks : Config := .intact 1 1 4 1

/-- Two blocks are written and read again. Each block evicts the other one. -/
def rereading : List Action :=
  [.openFile 7 true false .writeFile 1, .file 0, .file 0, .call 0 (.write [1, 2])] ++
    List.replicate 15 (.file 0) ++ [.call 0 (.seekSet 0), .call 0 (.read 3)] ++
    List.replicate 6 (.file 0) ++ List.replicate 4 (.load 0) ++ List.replicate 10 (.file 0) ++
    List.replicate 4 (.load 0) ++ List.replicate 4 (.file 0)

/-- The file is closed. -/
def putAway : List Action := rereading ++ [.call 0 (.close false), .file 0, .file 0]

/-- The next handle reads a byte. -/
def readingAnew : List Action :=
  putAway ++ [.openFile 7 false false .readFile 1, .file 1, .file 1, .call 1 (.read 1)] ++
    List.replicate 6 (.file 1) ++ List.replicate 4 (.load 0) ++ List.replicate 4 (.file 1)

end World

end Gopherwood
