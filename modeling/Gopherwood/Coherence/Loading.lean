/-
# Loader threads

A loader thread fetches the object of a block, writes it into the bucket of the load,
deletes the object and reports to its handle. Every step may come between any two
steps of the handle, and keeps all parts of the system agreed.
-/

import Gopherwood.Coherence.Transfers

namespace Gopherwood

open Library (page slice overwrite)

namespace World

variable {cfg : Config} {G G' : Account} {V V' : Option Victim} {D D' : Option Draft} {w w' : World}
variable {n a b i j start : Nat} {h h' : FileActiveStatus} {before : FileId → List UInt8}
variable {task task' : LoadTask}

/-- What is drafted is in a bucket, and fits it. -/
def Drafted (cfg : Config) (G : Account) (D : Option Draft) : Prop :=
  ∀ d, D = some d → d.data.length ≤ cfg.localBucketSize ∧ ∃ b,
  (G.own b).spot = some (d.file, d.index)

theorem Drafted.image_le (hdrafted : Drafted cfg G D) (f : FileId) (i : Nat) :
    (G.image cfg.localBucketSize D f i).length ≤ cfg.localBucketSize := by
  have hpage : (G.image cfg.localBucketSize none f i).length ≤ cfg.localBucketSize := by
    rw [image_none, Library.length_page]
    exact Nat.min_le_left _ _
  cases D with
  | none => exact hpage
  | some d =>
      by_cases hsame : f = d.file ∧ i = d.index
      · obtain ⟨rfl, rfl⟩ := hsame
        rw [image_self]
        exact (hdrafted d rfl).1
      · rw [image_other hsame]
        exact hpage

/-- A block that is loaded is no draft. -/
theorem Carries.image (hc : Carries cfg G D n w h a b i task) (hdrafted : Drafted cfg G D) :
    G.image cfg.localBucketSize D h.fileId i = page cfg.localBucketSize (G.content h.fileId) i := by
  cases D with
  | none => rfl
  | some d =>
      refine image_other ?_
      rintro ⟨hf, hi⟩
      obtain ⟨-, c, hspot⟩ := hdrafted d rfl
      refine hc.remote.2 c ?_
      rw [hf, hi]
      exact hspot

/-- A handle loads a block into one bucket only. -/
theorem Agrees.loading_unique (hw : Agrees cfg G V n w) {c : Nat} (hn : w.files[n]? = some h)
    (ha : h.activeId = some a) (hb : G.own b = .loading a h.fileId i)
    (hc : G.own c = .loading a h.fileId i) :
    b = c := by
  obtain ⟨k, done, pending, R, hh, -⟩ := hw.attends n h a hn ha
  obtain ⟨entries, hl⟩ := hh.books.loads
  have hmem : (b, i) ∈ entries := (hl.mem b i).mpr (by simp [hb, Role.holdOf])
  have hmem' : (c, i) ∈ entries := (hl.mem c i).mpr (by simp [hc, Role.holdOf])
  have heq := List.inj_on_of_nodup_map hl.nodup hmem hmem' rfl
  exact congrArg Prod.fst heq

/-- A block is loaded by one task only. -/
theorem Coherent.task_unique (hw : Coherent cfg G D V n w) {c e : Nat} {x : FileActiveStatus}
    (htask : task ∈ w.tasks) (htask' : task' ∈ w.tasks) (hc : Carries cfg G D n w h a b i task)
    (hc' : Carries cfg G D n w x e c i task') : task = task' := by
  obtain rfl : h = x := Option.some.inj (hc.handle.symm.trans hc'.handle)
  obtain rfl : a = e := Option.some.inj (hc.active.symm.trans hc'.active)
  obtain rfl : b = c := hw.agrees.loading_unique hc.handle hc.active hc.role hc'.role
  refine List.inj_on_of_nodup_map hw.ledger.nodup htask htask' ?_
  rw [hc.info, hc'.info]

/-- Only a removed task of the block stands for the block. -/
theorem Carries.removed {f : FileId} (hc : Carries cfg G D n w h a b i task)
    (hremoved : task.Removed f j) :
    f = h.fileId ∧ j = i := by
  obtain ⟨-, hf, hj⟩ := hremoved
  rw [hc.info] at hf hj
  exact ⟨hf.symm, (Option.some.inj hj).symm⟩

/-- The object of a block that is being loaded, and was not deleted yet. -/
theorem Coherent.object (hw : Coherent cfg G D V n w) (htask : task ∈ w.tasks)
    (hc : Carries cfg G D n w h a b i task) (hphase : ∀ size, task.phase ≠ .removed size) :
    w.oss h.fileId (some i) = some (G.image cfg.localBucketSize D h.fileId i) := by
  obtain ⟨k, done, pending, R, hh, -⟩ := hw.agrees.attends n h a hc.handle hc.active
  rcases hw.uploaded h.fileId k hh.linked i hc.remote.1 hc.remote.2 with hstored | ⟨task', htask',
    hremoved⟩
  · exact hstored
  · obtain ⟨x, e, c, m, hc'⟩ := hw.ledger.task task' htask'
    obtain ⟨hf, rfl⟩ := hc'.removed hremoved
    obtain rfl := hw.task_unique htask htask' hc hc'
    obtain ⟨⟨size, hsize⟩, -⟩ := hremoved
    exact absurd hsize (hphase size)

/-- Two tasks at different places have different buckets. -/
theorem Ledger.bucket_ne (hw : Ledger cfg G D n w) {m : Nat} {t : LoadTask}
    (hj : w.tasks[j]? = some task) (hm : w.tasks[m]? = some t) (hne : m ≠ j) :
    t.info.bucketId ≠ task.info.bucketId := by
  intro hsame
  have hlt : m < (w.tasks.map fun task => task.info.bucketId).length := by
    rw [List.length_map]
    exact (List.getElem?_eq_some_iff.mp hm).1
  refine hne ((List.getElem?_inj hlt hw.nodup).mp ?_)
  rw [List.getElem?_map, List.getElem?_map, hm, hj]
  exact congrArg some hsame

/-- What a task list has after one task went on. -/
theorem Ledger.mem_set (hw : Ledger cfg G D n w) {t : LoadTask} (hj : w.tasks[j]? = some task)
    (ht : t ∈ w.tasks.set j task') :
    t = task' ∨ t ∈ w.tasks ∧ t.info.bucketId ≠ task.info.bucketId := by
  obtain ⟨m, hm⟩ := List.mem_iff_getElem?.mp ht
  by_cases hne : m = j
  · subst hne
    rw [List.getElem?_set_self (List.getElem?_eq_some_iff.mp hj).1] at hm
    exact Or.inl (Option.some.inj hm).symm
  · rw [List.getElem?_set_ne (Ne.symm hne)] at hm
    exact Or.inr ⟨List.mem_of_getElem? hm, hw.bucket_ne hj hm hne⟩

/-- What a task list has after one task ended. -/
theorem Ledger.mem_erase (hw : Ledger cfg G D n w) {t : LoadTask} (hj : w.tasks[j]? = some task) :
    t ∈ w.tasks.eraseIdx j ↔ t ∈ w.tasks ∧ t.info.bucketId ≠ task.info.bucketId := by
  rw [List.mem_eraseIdx_iff_getElem?]
  constructor
  · rintro ⟨m, hne, hm⟩
    exact ⟨List.mem_of_getElem? hm, hw.bucket_ne hj hm hne⟩
  · rintro ⟨ht, hne⟩
    obtain ⟨m, hm⟩ := List.mem_iff_getElem?.mp ht
    refine ⟨m, ?_, hm⟩
    rintro rfl
    obtain rfl := Option.some.inj (hm.symm.trans hj)
    exact hne rfl

/-! ## Steps on the stores -/

/-- A task goes on, and nothing that the handles know changes. -/
theorem Coherent.tasked (hw : Coherent cfg G D V n w) (hj : w.tasks[j]? = some task)
    (howner : task'.owner = task.owner) (hinfo : task'.info = task.info)
    (hfiles : w'.files = w.files) (hshm : w'.shm = w.shm) (hfolder : w'.folder = w.folder)
    (htasks : w'.tasks = w.tasks.set j task') (hkept : Kept cfg G D w')
    (huploaded : Uploaded cfg G D w')
    (hphase : ∀ h a b i, Carries cfg G D n w h a b i task →
      Brings cfg G D w' h.fileId b i task'.phase)
    (hothers : ∀ t ∈ w.tasks, ∀ h a b i, Carries cfg G D n w h a b i t →
      some b ≠ task.info.bucketId → Brings cfg G D w' h.fileId b i t.phase) :
    Coherent cfg G D V n w' := by
  have htask := List.mem_of_getElem? hj
  obtain ⟨hlt, hget⟩ := List.getElem?_eq_some_iff.mp hj
  obtain ⟨h, a, b, i, hcarries⟩ := hw.ledger.task task htask
  have hsame : w'.files = w.files.set n h := by
    obtain ⟨hlt, heq⟩ := List.getElem?_eq_some_iff.mp hcarries.handle
    rw [hfiles, ← heq]
    exact (List.set_getElem_self hlt).symm
  obtain ⟨k, done, pending, R, hh, -⟩ := hw.agrees.attends n h a hcarries.handle hcarries.active
  refine ⟨?_, hkept, huploaded, fun t ht => ?_, ?_, fun c e f m hown => ?_⟩
  · refine hw.agrees.touched hcarries.handle hsame hshm hfolder (fun hne => ?_) (.of_thread rfl)
      hh.pos
    rintro hnil
    rw [hnil] at htask
    cases htask
  · -- the handle is the same
    have hcarry : ∀ {t t' : LoadTask} {x : FileActiveStatus} {e c m : Nat},
        Carries cfg G D n w x e c m t →
        t'.owner = t.owner → t'.info = t.info → Brings cfg G D w' x.fileId c m t'.phase →
        Carries cfg G D n w' x e c m t' := by
      intro t t' x e c m hc howner hinfo hphase
      exact ⟨howner.trans
        hc.owner, by
          rw [hfiles]; exact hc.handle, hc.active, hinfo.trans hc.info, hc.role, hc.remote, hphase⟩
    rw [htasks] at ht
    rcases hw.ledger.mem_set hj ht with rfl | ⟨hmem, hne⟩
    · exact ⟨h, a, b, i, hcarry hcarries howner hinfo (hphase h a b i hcarries)⟩
    · obtain ⟨x, e, c, m, hc⟩ := hw.ledger.task t hmem
      refine ⟨x, e, c, m, hcarry hc rfl rfl (hothers t hmem x e c m hc fun heq => hne ?_)⟩
      rw [hc.info]
      exact heq
  · rw [htasks, List.map_set, hinfo]
    have hset : (w.tasks.map fun t => t.info.bucketId).set j task.info.bucketId =
        w.tasks.map fun t => t.info.bucketId := by
      apply List.ext_getElem?
      intro m
      rw [List.getElem?_set]
      split
      · next heq =>
          subst heq
          simp [hlt, hget]
      · rfl
    rw [hset]
    exact hw.ledger.nodup
  · obtain ⟨t, ht, hbucket⟩ := hw.ledger.listed c e f m hown
    rw [htasks]
    by_cases hsame : t = task
    · subst hsame
      exact ⟨task', List.mem_set hlt _, hinfo ▸ hbucket⟩
    · obtain ⟨l, hl⟩ := List.mem_iff_getElem?.mp ht
      refine ⟨t, List.mem_iff_getElem?.mpr ⟨l, ?_⟩, hbucket⟩
      rw [List.getElem?_set_ne ?_]
      · exact hl
      · rintro rfl
        exact hsame (Option.some.inj (hl.symm.trans hj))

/-- What a step of a loader thread leaves to the handle that works. A load may end between
any two steps of the thread, so nothing that the thread relies on may be changed by it. -/
structure Ticks (cfg : Config) (n : Nat) (G G' : Account) (D : Option Draft) (V : Option Victim)
    (h h' : FileActiveStatus) (w w' : World) : Prop where
  coherent : Coherent cfg G' D V n w'
  files : w'.files = w.files.set n h'
  steady : h.Steady h'
  locked : h.loadMutex = true → h' = h
  content : G'.content = G.content
  cached : ∀ b e f i, (G.own b).holdOf e = some (.cached f i) →
    (G'.own b).holdOf e = some (.cached f i)
  spots : ∀ b p, (G.own b).spot = some p → (G'.own b).spot = some p
  objects : ∀ b f i, (G.own b).spot = some (f, i) → w'.oss f (some i) = w.oss f (some i)
  history : w'.history = w.history

/-- A step that only the task takes. -/
theorem Coherent.ticks (hw : Coherent cfg G D V n w') (hn : w.files[n]? = some h)
    (hfiles : w'.files = w.files)
    (hobjects : ∀ b f i, (G.own b).spot = some (f, i) → w'.oss f (some i) = w.oss f (some i))
    (hhistory : w'.history = w.history) : Ticks cfg n G G D V h h w w' := by
  refine ⟨hw, ?_, .refl h, fun _ => rfl, rfl, fun _ _ _ _ hb => hb, fun _ _ hb => hb, hobjects,
    hhistory⟩
  obtain ⟨hlt, heq⟩ := List.getElem?_eq_some_iff.mp hn
  rw [hfiles, ← heq]
  exact (List.set_getElem_self hlt).symm

/-- Nothing changes for the loads of the others. -/
theorem Brings.same {f : FileId} {phase : LoadPhase} (hb : Brings cfg G D w f b i phase)
    (hspace : w'.space = w.space) :
    Brings cfg G D w' f b i phase := by
  cases phase with
  | start => trivial
  | fetched data => exact hb
  | stored size => exact ⟨hb.1, hspace ▸ hb.2⟩
  | removed size => exact ⟨hb.1, hspace ▸ hb.2⟩
  | failed => trivial

/-- Deleted tasks are deleted tasks of later lists. -/
theorem removed_of_set {f : FileId} (hj : w.tasks[j]? = some task)
    (hphase : ∀ size, task.phase ≠ .removed size) {t : LoadTask} (ht : t ∈ w.tasks)
    (hremoved : t.Removed f i) :
    t ∈ w.tasks.set j task' := by
  obtain ⟨m, hm⟩ := List.mem_iff_getElem?.mp ht
  refine List.mem_iff_getElem?.mpr ⟨m, ?_⟩
  rw [List.getElem?_set_ne ?_]
  · exact hm
  · rintro rfl
    obtain rfl := Option.some.inj (hm.symm.trans hj)
    obtain ⟨⟨size, hsize⟩, -⟩ := hremoved
    exact hphase size hsize

/-- A task gives up, or has fetched its object. -/
theorem Coherent.phased {phase : LoadPhase} (hw : Coherent cfg G D V n w)
    (hj : w.tasks[j]? = some task) (hbefore : ∀ size, task.phase ≠ .removed size)
    (hphase : ∀ h a b i, Carries cfg G D n w h a b i task → Brings cfg G D w h.fileId b i phase) :
    Coherent cfg G D V n (w.setTask j { task with phase := phase }) := by
  let task' : LoadTask := { task with phase := phase }
  have howner : task'.owner = task.owner := rfl
  have htasks : (w.setTask j task').tasks = w.tasks.set j task' := rfl
  refine hw.tasked hj howner rfl rfl rfl rfl htasks
    (hw.kept.congr (fun _ _ _ hspot => hspot) rfl rfl) ?_
    (fun h a b i hc => (hphase h a b i hc).same rfl) fun t _ h a b i hc _ => hc.phase.same rfl
  exact hw.uploaded.congr (fun _ _ hk => hk) (fun _ _ _ => rfl) (fun _ _ _ hspot => hspot) rfl rfl
    fun t ht f i hremoved => ⟨t, removed_of_set hj hbefore ht hremoved, hremoved⟩

/-- The object is written into the bucket. -/
theorem Coherent.stores {data : List UInt8} (hw : Coherent cfg G D V n w)
    (hdrafted : Drafted cfg G D) (hj : w.tasks[j]? = some task)
    (hc : Carries cfg G D n w h a b i task) (hphase : task.phase = .fetched data) :
    Coherent cfg G D V n { w.setTask j { task with phase := .stored data.length } with
      space := writeLocal w.space (b * cfg.localBucketSize) data } := by
  have hbrings := hc.phase
  rw [hphase] at hbrings
  have hdata : data = G.image cfg.localBucketSize D h.fileId i := hbrings
  have hlength : data.length ≤ cfg.localBucketSize := hdata ▸ hdrafted.image_le _ _
  let task' : LoadTask := { task with phase := .stored data.length }
  let w' : World :=
    { w.setTask j task' with space := writeLocal w.space (b * cfg.localBucketSize) data }
  -- the other buckets have what they had, as far as they reach
  have hother : ∀ {c : Nat} {image : List UInt8}, c ≠ b → image.length ≤ cfg.localBucketSize →
      slice w.space (c * cfg.localBucketSize) image.length = image →
      slice w'.space (c * cfg.localBucketSize) image.length = image := by
    intro c image hne hle hslice
    refine (Library.slice_overwrite_other 0 data ?_ (by rw [hslice])).trans hslice
    have hapart : c * cfg.localBucketSize + image.length ≤ b * cfg.localBucketSize + 0 ∨
        b * cfg.localBucketSize + 0 + data.length ≤ c * cfg.localBucketSize :=
        apart hne hle (by omega)
    omega
  have hbefore : ∀ size, task.phase ≠ .removed size := by
    intro size hsize
    rw [hphase] at hsize
    cases hsize
  have howner : task'.owner = task.owner := rfl
  have htasks : w'.tasks = w.tasks.set j task' := rfl
  refine hw.tasked hj howner rfl rfl rfl rfl htasks (fun c f m hspot => ?_) ?_
    (fun x e c m hc' => ?_) fun t ht x e c m hc' hne => ?_
  · refine hother ?_ (hdrafted.image_le f m) (hw.kept c f m hspot)
    rintro rfl
    rw [hc.role] at hspot
    cases hspot
  · exact hw.uploaded.congr (fun _ _ hk => hk) (fun _ _ _ => rfl) (fun _ _ _ hspot => hspot) rfl rfl
      fun t ht f i hremoved => ⟨t, removed_of_set hj hbefore ht hremoved, hremoved⟩
  · have hinfo := hc'.info.symm.trans hc.info
    simp only [BlockInfo.mk.injEq, Option.some.injEq] at hinfo
    obtain ⟨hf, rfl, rfl, -⟩ := hinfo
    rw [hf]
    refine ⟨congrArg List.length hdata, ?_⟩
    exact (Library.slice_overwrite_self 0 _ _ data).trans hdata
  · have hne : c ≠ b := by
      rintro rfl
      refine hne ?_
      rw [hc.info]
    have hphase' := hc'.phase
    cases hstage : t.phase with
    | start => trivial
    | failed => trivial
    | fetched data' =>
        rw [hstage] at hphase'
        exact hphase'
    | stored size =>
        rw [hstage] at hphase'
        obtain ⟨rfl, hslice⟩ := hphase'
        exact ⟨rfl, hother hne (hdrafted.image_le _ _) hslice⟩
    | removed size =>
        rw [hstage] at hphase'
        obtain ⟨rfl, hslice⟩ := hphase'
        exact ⟨rfl, hother hne (hdrafted.image_le _ _) hslice⟩

/-- The object is deleted. -/
theorem Coherent.deletes {size : Nat} (hw : Coherent cfg G D V n w) (hj : w.tasks[j]? = some task)
    (hc : Carries cfg G D n w h a b i task) (hphase : task.phase = .stored size) :
    Coherent cfg G D V n { w.setTask j { task with phase := .removed size } with
      oss := w.oss.delete h.fileId (some i) } := by
  have hbrings := hc.phase
  rw [hphase] at hbrings
  let task' : LoadTask := { task with phase := .removed size }
  let w' : World := { w.setTask j task' with oss := w.oss.delete h.fileId (some i) }
  have hbefore : ∀ size, task.phase ≠ .removed size := by
    intro size hsize
    rw [hphase] at hsize
    cases hsize
  have howner : task'.owner = task.owner := rfl
  have htasks : w'.tasks = w.tasks.set j task' := rfl
  refine hw.tasked hj howner rfl rfl rfl rfl htasks
    (hw.kept.congr (fun _ _ _ hspot => hspot) rfl rfl) (fun f k hk m hm hnowhere => ?_)
      (fun x e c m hc' => ?_)
    fun t _ x e c m hc' _ => hc'.phase.same rfl
  · by_cases hsame : f = h.fileId ∧ m = i
    · obtain ⟨rfl, rfl⟩ := hsame
      refine Or.inr ⟨task', List.mem_set (List.getElem?_eq_some_iff.mp hj).1 _, ⟨size, rfl⟩, ?_, ?_⟩
      · rw [hc.info]
      · rw [hc.info]
    · refine (hw.uploaded f k hk m hm hnowhere).imp (fun hstored => ?_) ?_
      · have hne : ¬ (f = h.fileId ∧ some m = some i) :=
          fun heq => hsame ⟨heq.1, Option.some.inj heq.2⟩
        exact (if_neg hne).trans hstored
      · rintro ⟨t, ht, hremoved⟩
        exact ⟨t, removed_of_set hj hbefore ht hremoved, hremoved⟩
  · have hinfo := hc'.info.symm.trans hc.info
    simp only [BlockInfo.mk.injEq, Option.some.injEq] at hinfo
    obtain ⟨hf, rfl, rfl, -⟩ := hinfo
    rw [hf]
    exact hbrings

/-! ## The end of a load -/

/-- All parts agree after a load ended, and its bucket has the block or is spare again. -/
theorem Coherent.ended {r : Role} {k : Nat} {done pending es : List LogEntry} {R R' : View}
    {c' : Ctx} (hw : Coherent cfg G D V n w) (hreg : w.Registered) (hj : w.tasks[j]? = some task)
    (hc : Carries cfg G D n w h a b i task) (hh : Attends G w h a k done pending R)
    (hd : (w.site cfg G h a k hc.active hh.linked hw.agrees.linked).Desk
      (G.sizes cfg.localBucketSize) V (Function.update G.own b r) es R' c')
    (hlength : R'.blockArray.length = R.blockArray.length)
    (hr : r.spot = some (h.fileId, i) ∧ slice w.space (b * cfg.localBucketSize)
      (G.image cfg.localBucketSize D h.fileId i).length = G.image cfg.localBucketSize D h.fileId i ∨
      r.spot = none ∧ ∀ size, task.phase ≠ .removed size) (hloading : ∀ e f m, r ≠ .loading e f m)
    (hfiles : w'.files = w.files.set n c'.self) (hshm : w'.shm = c'.shm)
    (hfolder : w'.folder = c'.folder) (hspace : w'.space = w.space) (hoss : w'.oss = w.oss)
    (htasks : w'.tasks = w.tasks.eraseIdx j) :
    Coherent cfg { G with own := Function.update G.own b r } D V n w' := by
  let G' : Account := { G with own := Function.update G.own b r }
  have heof : c'.self.eof = h.eof := eof_of_desk hw.agrees.linked hc.active hh.linked hd
  have hsteady : h.Steady c'.self := hd.sight.steady
  have hbucket : task.info.bucketId = some b := by rw [hc.info]
  have hnew : w'.files[n]? = some c'.self := by
    rw [hfiles, List.getElem?_set_self (List.getElem?_eq_some_iff.mp hc.handle).1]
  have hr' : ∀ p, r.spot = some p → p = (h.fileId, i) := by
    intro p hp
    rcases hr with ⟨hspot, -⟩ | ⟨hnone, -⟩
    · exact Option.some.inj (hp.symm.trans hspot)
    · rw [hnone] at hp
      cases hp
  have hbefore : ∀ c p, (G.own c).spot = some p → (G'.own c).spot = some p := by
    intro c p hspot
    refine Role.spot_update.mpr (Or.inr ⟨?_, hspot⟩)
    rintro rfl
    rw [hc.role] at hspot
    cases hspot
  have hother : ∀ {t : LoadTask}, t ∈ w.tasks.eraseIdx j ↔ t ∈ w.tasks ∧
      t.info.bucketId ≠ some b := by
    intro t
    rw [hw.ledger.mem_erase hj, hbucket]
  refine ⟨hw.agrees.worked hreg hc.handle hc.active hh.linked hd hfiles hshm hfolder rfl
    ?_ (.of_same rfl rfl) (heof.trans hh.eof) ?_, fun c f m hspot => ?_,
      fun f k' hk' m hm hnowhere => ?_, ?_⟩
  · rw [hsteady.pos, heof]
    exact hh.pos
  · rw [hlength]
    exact (hw.agrees.length hh.linked hh.follows.content hh.follows.replayed).symm
  · rw [hspace]
    rcases Role.spot_update.mp hspot with ⟨rfl, hnow⟩ | ⟨-, hstill⟩
    · cases hr' _ hnow
      rcases hr with ⟨-, hslice⟩ | ⟨hnone, -⟩
      · exact hslice
      · rw [hnone] at hnow
        cases hnow
    · exact hw.kept c f m hstill
  · rw [hfolder, hd.log.grown.links] at hk'
    rw [hoss, htasks]
    refine (hw.uploaded f k' hk' m hm fun c hspot => hnowhere c (hbefore c _ hspot)).imp id ?_
    rintro ⟨t, ht, hremoved⟩
    refine ⟨t, hother.mpr ⟨ht, fun hsame => ?_⟩, hremoved⟩
    -- the task that ended does not stand for a block that is nowhere
    have htask := List.mem_of_getElem? hj
    obtain rfl : t = task :=
      List.inj_on_of_nodup_map hw.ledger.nodup ht htask (hsame.trans hbucket.symm)
    obtain ⟨rfl, rfl⟩ := hc.removed hremoved
    rcases hr with ⟨hspot, -⟩ | ⟨-, hphase⟩
    · exact hnowhere b (Role.spot_update.mpr (Or.inl ⟨rfl, hspot⟩))
    · obtain ⟨⟨size, hsize⟩, -⟩ := hremoved
      exact hphase size hsize
  · refine ⟨fun t ht => ?_, ?_, fun c e f m hown => ?_⟩
    · rw [htasks] at ht
      obtain ⟨ht, hne⟩ := hother.mp ht
      obtain ⟨x, e, c, m, hc'⟩ := hw.ledger.task t ht
      obtain rfl : h = x := Option.some.inj (hc.handle.symm.trans hc'.handle)
      obtain rfl : a = e := Option.some.inj (hc.active.symm.trans hc'.active)
      have hcb : c ≠ b := by
        rintro rfl
        exact hne (by rw [hc'.info])
      refine ⟨c'.self, a, c, m, hc'.owner, hnew, hsteady.activeId.trans hc.active, ?_, ?_, ?_, ?_⟩
      · rw [hsteady.fileId]
        exact hc'.info
      · rw [hsteady.fileId]
        exact (Function.update_of_ne hcb _ _).trans hc'.role
      · rw [hsteady.fileId]
        refine ⟨hc'.remote.1, fun d hspot => ?_⟩
        rcases Role.spot_update.mp hspot with ⟨rfl, hnow⟩ | ⟨-, hstill⟩
        · obtain ⟨-, rfl⟩ := Prod.mk.inj (hr' _ hnow)
          exact hcb (hw.agrees.loading_unique hc.handle hc.active hc'.role hc.role)
        · exact hc'.remote.2 d hstill
      · rw [hsteady.fileId]
        have hphase : Brings cfg G D w' h.fileId c m t.phase := hc'.phase.same hspace
        exact hphase
    · rw [htasks]
      exact hw.ledger.nodup.sublist ((List.eraseIdx_sublist w.tasks j).map _)
    · have hcb : c ≠ b := by
        rintro rfl
        exact hloading e f m ((Function.update_self _ _ _).symm.trans hown)
      obtain ⟨t, ht, hbucket'⟩ :=
        hw.ledger.listed c e f m ((Function.update_of_ne hcb _ _).symm.trans hown)
      refine ⟨t, ?_, hbucket'⟩
      rw [htasks]
      refine hother.mpr ⟨ht, fun hsame => hcb ?_⟩
      exact Option.some.inj (hbucket'.symm.trans hsame)

/-- What the handle had cached, it still has. -/
theorem cached_of_update {r : Role} {c e m : Nat} {f : FileId}
    (hrole : G.own b = .loading a h.fileId i) (hcached : (G.own c).holdOf e = some (.cached f m)) :
    (Function.update G.own b r c).holdOf e = some (.cached f m) := by
  rw [Function.update_of_ne]
  · exact hcached
  · rintro rfl
    obtain ⟨holders, hblock, -⟩ := Role.block_of_holdOf hcached
    rw [hrole] at hblock
    cases hblock

theorem spot_of_update {r : Role} {c : Nat} {p : FileId × Nat}
    (hrole : G.own b = .loading a h.fileId i) (hspot : (G.own c).spot = some p) :
    (Function.update G.own b r c).spot = some p := by
  refine Role.spot_update.mpr (Or.inr ⟨?_, hspot⟩)
  rintro rfl
  rw [hrole] at hspot
  cases hspot

/-- A handle that loads has room in its cache. -/
theorem room_of_loading (hmetered : h.Metered)
    (hbooks : Books (fun b => (G.own b).holdOf a) h.fileId h)
    (hrole : G.own b = .loading a h.fileId i) : h.lruCache.size < h.lruCache.maxSize := by
  obtain ⟨entries, hl⟩ := hbooks.loads
  obtain ⟨y, hfind, -⟩ := hl.find (b := b) (i := i) (by simp [hrole, Role.holdOf])
  have hbound : h.lruCache.size + h.preAllocatedBuckets.length + h.loadingBuckets.length ≤
      h.lruCache.maxSize := hmetered.fits.1
  have hpos : 0 < h.loadingBuckets.length :=
    List.length_pos_of_mem (List.mem_of_find?_eq_some hfind)
  omega

/-- A load succeeds: its block is in the cache of the handle. -/
theorem Coherent.loaded {size : Nat} (hw : Coherent cfg G D V n w) (hreg : w.Registered)
    (hdrafted : Drafted cfg G D) (htable : w.shm.buckets.length = cfg.numberOfBlocks)
    (hmetered : h.Metered) (hj : w.tasks[j]? = some task) (hc : Carries cfg G D n w h a b i task)
    (hphase : task.phase = .removed size) (hfree : h.loadMutex = false) :
    ∃ h', Ticks cfg n G { G with own := Function.update G.own b (.block h.fileId i {a}) } D V h h' w
      (w.finishLoad j n h (FileActiveStatus.loadSucceeded cfg task.info size)) := by
  obtain ⟨k, done, pending, R, hh, hcaught⟩ := hw.agrees.attends n h a hc.handle hc.active
  obtain rfl : pending = [] := hcaught rfl (List.ne_nil_of_mem (List.mem_of_getElem? hj))
  have hbrings := hc.phase
  rw [hphase] at hbrings
  obtain ⟨hsize, hslice⟩ := hbrings
  have himage := hc.image hdrafted
  have hsizes : size = G.sizes cfg.localBucketSize h.fileId i := by
    rw [hsize, himage]
    rfl
  rw [hsize] at hslice
  have hd := (hw.agrees.seat hc.handle hc.active hh).desk
  have hlength := hw.agrees.length hh.linked hh.follows.content hh.follows.replayed
  have hremote : ∃ y, R.blockArray[i]? = some y ∧ y.isLocal = false := by
    have hlt : i < R.blockArray.length := by
      rw [hlength]
      exact hc.remote.1
    refine ⟨R.blockArray[i], List.getElem?_eq_getElem hlt, ?_⟩
    cases hlocal : R.blockArray[i].isLocal with
    | false => rfl
    | true =>
        obtain ⟨c, -, hplace⟩ := hd.atlas.mirrors.stored i _ (List.getElem?_eq_getElem hlt) hlocal
        exact absurd (Role.spot_eq_some.mpr ⟨_, hplace⟩) (hc.remote.2 c)
  have hbucket : task.info.bucketId = some b := by rw [hc.info]
  have hblock : task.info.blockId = some i := by rw [hc.info]
  obtain ⟨c', es, R', hrun, hd', hlength', -⟩ :=
    hd.loadSucceeded htable hc.role hbucket hblock hremote
    (room_of_loading hmetered hh.books hc.role)
  rw [hsizes]
  have hfinish : w.finishLoad j n h (FileActiveStatus.loadSucceeded cfg task.info
      (G.sizes cfg.localBucketSize h.fileId i)) = { w.setFile n c'.self with
        tasks := w.tasks.eraseIdx j, shm := c'.shm, folder := c'.folder, oss := c'.oss } := by
    unfold finishLoad
    have hrun : FileActiveStatus.loadSucceeded cfg task.info
        (G.sizes cfg.localBucketSize h.fileId i)
        ⟨w.shm, w.folder, w.oss, h⟩ = .ok () c' := hrun
    dsimp only
    rw [hrun]
    rfl
  rw [hfinish]
  refine ⟨c'.self, ?_, rfl, hd'.sight.steady, fun hlocked => ?_, rfl, fun c e f m hcached => ?_,
    fun c p hspot => ?_, fun c f m _ => ?_, rfl⟩
  · exact hw.ended hreg hj hc hh hd' hlength' (Or.inl ⟨rfl, hslice⟩) (fun _ _ _ h => by cases h) rfl
      rfl rfl rfl
      hd'.store rfl
  · rw [hfree] at hlocked
    cases hlocked
  · exact cached_of_update hc.role hcached
  · exact spot_of_update hc.role hspot
  · exact congrFun (congrFun hd'.store f) (some m)

/-- A load fails: its bucket is preallocated again. -/
theorem Coherent.unloaded (hw : Coherent cfg G D V n w) (hreg : w.Registered)
    (hj : w.tasks[j]? = some task) (hc : Carries cfg G D n w h a b i task)
    (hphase : task.phase = .failed) (hfree : h.loadMutex = false) :
    ∃ h', Ticks cfg n G { G with own := Function.update G.own b (.spare a h.fileId) } D V h h' w
      (w.finishLoad j n h (FileActiveStatus.loadFailed task.info)) := by
  obtain ⟨k, done, pending, R, hh, hcaught⟩ := hw.agrees.attends n h a hc.handle hc.active
  obtain rfl : pending = [] := hcaught rfl (List.ne_nil_of_mem (List.mem_of_getElem? hj))
  have hd := (hw.agrees.seat hc.handle hc.active hh).desk
  have hbucket : task.info.bucketId = some b := by rw [hc.info]
  have hblock : task.info.blockId = some i := by rw [hc.info]
  obtain ⟨c', hrun, hd', -⟩ := hd.loadFailed hc.role hbucket hblock
  have hfinish : w.finishLoad j n h (FileActiveStatus.loadFailed task.info) =
      { w.setFile n c'.self with
      tasks := w.tasks.eraseIdx j, shm := c'.shm, folder := c'.folder, oss := c'.oss } := by
    unfold finishLoad
    have hrun : FileActiveStatus.loadFailed task.info ⟨w.shm, w.folder, w.oss, h⟩ = .ok () c' :=
      hrun
    dsimp only
    rw [hrun]
    rfl
  rw [hfinish]
  refine ⟨c'.self, ?_, rfl, hd'.sight.steady, fun hlocked => ?_, rfl, fun c e f m hcached => ?_,
    fun c p hspot => ?_, fun c f m _ => ?_, rfl⟩
  · refine hw.ended hreg hj hc hh hd' rfl (Or.inr ⟨rfl, fun size hsize => ?_⟩)
      (fun _ _ _ h => by cases h)
      rfl rfl rfl rfl hd'.store rfl
    rw [hphase] at hsize
    cases hsize
  · rw [hfree] at hlocked
    cases hlocked
  · exact cached_of_update hc.role hcached
  · exact spot_of_update hc.role hspot
  · exact congrFun (congrFun hd'.store f) (some m)

/-- A step of a loader thread. -/
theorem Coherent.load (hw : Coherent cfg G D V n w) (hreg : w.Registered)
    (hdrafted : Drafted cfg G D) (htable : w.shm.buckets.length = cfg.numberOfBlocks)
    (hmetered : ∀ h : FileActiveStatus, w.files[n]? = some h → h.Metered)
    (hj : w.tasks[j]? = some task) (hstep : w.stepLoad cfg j task = some w') :
    ∃ G' h h', w.files[n]? = some h ∧ Ticks cfg n G G' D V h h' w w' := by
  have htask := List.mem_of_getElem? hj
  obtain ⟨h, a, b, i, hc⟩ := hw.ledger.task task htask
  have hn := hc.handle
  have hfile : task.info.fileId = h.fileId := by rw [hc.info]
  have hblock : task.info.blockId = some i := by rw [hc.info]
  have hbucket : task.info.bucketId = some b := by rw [hc.info]
  unfold stepLoad at hstep
  dsimp only at hstep
  cases hphase : task.phase with
  | start =>
      have hobject := hw.object htask hc fun size hsize => by rw [hphase] at hsize; cases hsize
      rw [hphase, hfile, hblock, hobject] at hstep
      cases hstep
      refine ⟨G, h, h, hn, Coherent.ticks (hw.phased hj ?_ fun x e c m hc' => ?_) hn rfl
        (fun _ _ _ _ => rfl) rfl⟩
      · intro size hsize
        rw [hphase] at hsize
        cases hsize
      · have hinfo := hc'.info.symm.trans hc.info
        simp only [BlockInfo.mk.injEq, Option.some.injEq] at hinfo
        obtain ⟨hf, rfl, rfl, -⟩ := hinfo
        rw [hf]
        exact rfl
  | fetched data =>
      rw [hphase, hbucket] at hstep
      cases hstep
      exact ⟨G, h, h, hn, Coherent.ticks (hw.stores hdrafted hj hc hphase) hn rfl
        (fun _ _ _ _ => rfl) rfl⟩
  | stored size =>
      rw [hphase, hfile, hblock] at hstep
      cases hstep
      refine ⟨G, h, h, hn, Coherent.ticks (hw.deletes hj hc hphase) hn rfl
        (fun c f m hspot => if_neg ?_) rfl⟩
      rintro ⟨rfl, hm⟩
      obtain rfl := Option.some.inj hm
      exact hc.remote.2 c hspot
  | removed size =>
      rw [hphase, hc.owner, hn] at hstep
      dsimp only at hstep
      split at hstep
      · cases hstep
      · next hfree =>
          cases hstep
          obtain ⟨h', hticks⟩ := hw.loaded hreg hdrafted htable (hmetered h hn) hj hc hphase
            (Bool.eq_false_iff.mpr hfree)
          exact ⟨_, h, h', hn, hticks⟩
  | failed =>
      rw [hphase, hc.owner, hn] at hstep
      dsimp only at hstep
      split at hstep
      · cases hstep
      · next hfree =>
          cases hstep
          obtain ⟨h', hticks⟩ := hw.unloaded hreg hj hc hphase (Bool.eq_false_iff.mpr hfree)
          exact ⟨_, h, h', hn, hticks⟩

/-- A request of a loader thread fails. -/
theorem Coherent.failLoad (hw : Coherent cfg G D V n w) (hj : w.tasks[j]? = some task)
    (hstep : w.failLoad j task = some w') :
    ∃ G' h h', w.files[n]? = some h ∧ Ticks cfg n G G' D V h h' w w' := by
  obtain ⟨h, a, b, i, hc⟩ := hw.ledger.task task (List.mem_of_getElem? hj)
  unfold World.failLoad at hstep
  split at hstep
  · next hphase =>
      cases hstep
      refine ⟨G, h, h, hc.handle, Coherent.ticks (hw.phased hj (fun size hsize => ?_)
        fun _ _ _ _ _ => trivial)
        hc.handle rfl (fun _ _ _ _ => rfl) rfl⟩
      rw [hphase] at hsize
      cases hsize
  · next size hphase =>
      cases hstep
      refine ⟨G, h, h, hc.handle, Coherent.ticks (hw.phased hj (fun size hsize => ?_)
        fun _ _ _ _ _ => trivial)
        hc.handle rfl (fun _ _ _ _ => rfl) rfl⟩
      rw [hphase] at hsize
      cases hsize
  · cases hstep

/-- What a call has drafted is in the block of its position. -/
theorem Streaming.drafted (hs : Streaming cfg G D V n a before start h w) : Drafted cfg G D := by
  rintro d rfl
  have hstage := hs.stage
  cases hpc : h.pc with
  | advance count =>
      rw [hpc] at hstage
      obtain ⟨-, -, -, hin, b, hb, hdraft⟩ := hstage
      obtain ⟨length, -, hnone⟩ | ⟨buffer, -, hsome⟩ := hdraft
      · cases hnone
      · cases hsome
        refine ⟨?_, b, Role.spot_of_cached hb.held⟩
        have hslice : (slice buffer (h.pos - start) count).length ≤ count := by
          rw [Library.length_slice]
          exact Nat.min_le_left _ _
        dsimp only
        rw [Library.length_overwrite, Library.length_page]
        omega
  | evictRead caller loop | evictPut caller loop buffer | evictFinish caller loop =>
      rw [hpc] at hstage
      cases hstage.1
  | acquire caller | activate caller =>
      rw [hpc] at hstage
      cases hstage.1
  | adjust | extend | wait | ready | transfer =>
      rw [hpc] at hstage
      cases hstage.1
  | openManifest | regist | idle | flush | closed =>
      rw [hpc] at hstage
      exact hstage.elim
  | close isCancel | deleteRemote isCancel blocks =>
      rw [hpc] at hstage
      exact hstage.elim

theorem AtBlock.congr (hb : AtBlock cfg G h a b) (hsteady : h.Steady h')
    (hcached : ∀ b e f i, (G.own b).holdOf e = some (.cached f i) →
      (G'.own b).holdOf e = some (.cached f i)) :
    AtBlock cfg G' h' a b := by
  refine ⟨?_, ?_⟩
  · rw [hsteady.stream, hsteady.pos]
    exact hb.current
  · rw [hsteady.stream, hsteady.fileId]
    exact hcached _ _ _ _ hb.held

/-- A loader thread leaves the next step of the handle what it relies on. -/
theorem Stage.ticks {pc : Pc} (hs : Stage cfg G D V w h a start pc)
    (ht : Ticks cfg n G G' D V h h' w w')
    (hvictim : ∀ v, V = some v → (G.own v.bucket).spot = some (v.file, v.index)) :
    Stage cfg G' D V w' h' a start pc := by
  have hstream := ht.steady.stream
  have hpos := ht.steady.pos
  have hfile := ht.steady.fileId
  have himage : ∀ D f i, G'.image cfg.localBucketSize D f i = G.image cfg.localBucketSize D f
      i := by
    intro D f i
    unfold Account.image
    rw [ht.content]
  have hsizes : G'.sizes cfg.localBucketSize = G.sizes cfg.localBucketSize := by
    unfold Account.sizes
    rw [ht.content]
  cases pc with
  | adjust => exact ⟨hs.1, hs.2.1, hstream ▸ hs.2.2⟩
  | acquire caller =>
      obtain ⟨hD, hV, hleft, hmutex, hcur, htarget⟩ := hs
      rw [ht.locked hmutex]
      exact ⟨hD, hV, hleft, hmutex, hcur, htarget⟩
  | evictRead caller loop =>
      obtain ⟨hD, hleft, hmutex, hcur, htarget, hevicting, hevicts⟩ := hs
      rw [ht.locked hmutex]
      exact ⟨hD, hleft, hmutex, hcur, htarget, hevicting, hsizes ▸ hevicts⟩
  | evictPut caller loop buffer =>
      obtain ⟨hD, hleft, hmutex, hcur, htarget, hevicting, hevicts, hbuffer⟩ := hs
      rw [ht.locked hmutex]
      exact ⟨hD, hleft, hmutex, hcur, htarget, hevicting, hsizes ▸ hevicts,
        fun v hv => (hbuffer v hv).trans (himage _ _ _).symm⟩
  | evictFinish caller loop =>
      obtain ⟨hD, hleft, hmutex, hcur, htarget, hevicts, hstored⟩ := hs
      rw [ht.locked hmutex]
      refine ⟨hD, hleft, hmutex, hcur, htarget, hsizes ▸ hevicts, fun v hv => ?_⟩
      rw [ht.objects _ _ _ (hvictim v hv), himage]
      exact hstored v hv
  | extend =>
      obtain ⟨hD, hV, hleft, hmutex, hcur, htarget⟩ := hs
      rw [ht.locked hmutex]
      exact ⟨hD, hV, hleft, hmutex, hcur, htarget⟩
  | activate caller =>
      obtain ⟨hD, hV, hleft, hmutex, hcur, hcaller, htarget⟩ := hs
      rw [ht.locked hmutex]
      exact ⟨hD, hV, hleft, hmutex, hcur, hcaller, htarget⟩
  | wait =>
      obtain ⟨hD, hV, hleft, hcur⟩ := hs
      refine ⟨hD, hV, hstream ▸ hleft, ?_⟩
      rw [hstream, hpos]
      exact hcur
  | ready =>
      obtain ⟨hD, hV, hleft, b, hb⟩ := hs
      exact ⟨hD, hV, hstream ▸ hleft, b, hb.congr ht.steady ht.cached⟩
  | transfer =>
      obtain ⟨hD, hV, hleft, b, hb, hinfo⟩ := hs
      refine ⟨hD, hV, hstream ▸ hleft, b, hb.congr ht.steady ht.cached, ?_⟩
      rw [hstream, hpos, hfile]
      exact hinfo
  | advance count =>
      obtain ⟨hV, hcount, hneed, hin, b, hb, hdraft⟩ := hs
      refine ⟨hV, hstream ▸ hcount, ?_, hpos ▸ hin, b, hb.congr ht.steady ht.cached, ?_⟩
      · rw [hstream]
        exact hneed
      · rw [hstream, hpos, hfile, ht.content]
        exact hdraft
  | openManifest | regist | idle | flush | closed => exact hs.elim
  | close isCancel | deleteRemote isCancel blocks => exact hs.elim

/-- A loader thread takes a step while a call reads or writes. -/
theorem Streaming.ticks (hs : Streaming cfg G D V n a before start h w)
    (ht : Ticks cfg n G G' D V h h' w w') :
    GoesOn cfg n a before start h.fileId w w' := by
  have hvictim : ∀ v, V = some v → (G.own v.bucket).spot = some (v.file, v.index) := by
    rintro v rfl
    exact hs.victim
  have hstream := ht.steady.stream
  refine ⟨ht.history, G', D, V, h', ht.files, ht.steady.fileId, ht.coherent, ?_,
    ht.steady.activeId.trans hs.active, ht.steady.isDelete.trans hs.spares, ?_, ?_, ?_⟩
  · rw [ht.files]
    exact List.getElem?_set_self (List.getElem?_eq_some_iff.mp hs.handle).1
  · rw [ht.steady.fileId, ht.content]
    exact hs.others
  · rw [ht.steady.fileId, ht.steady.pc, ht.content]
    refine hs.progress.congr ht.steady.pos ht.steady.isWrite (by rw [hstream]) (by rw [hstream])
      (by rw [hstream])
      (by rw [hstream]) (by rw [hstream]) (by rw [hstream]) ?_
    rw [hstream, ht.steady.pos]
    exact hs.progress.pos
  · rw [ht.steady.pc]
    exact hs.stage.ticks ht hvictim

end World

end Gopherwood
