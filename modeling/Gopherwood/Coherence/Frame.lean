/-
# What the others see of a critical section

While one handle works, the logs of the others grow by records that set no end of
file, and nothing of what they hold changes. When the section ends, all parts of
the system agree again.
-/

import Gopherwood.Coherence.Scene

namespace Gopherwood

open Library (page slice)

/-- The log of a handle that does not work grows by quiet records. -/
theorem FileActiveStatus.Follows.waits {L : Nat → Licence} {lags sole : Prop} {k : Nat}
    {d d' : ManifestFolder} {done pending : List LogEntry} {R : View} {h : FileActiveStatus}
    (hh : h.Follows lags sole d k done pending R) (hd : d.Grows L d') (hown : ¬ (L k).own)
    (hquiet : ¬ SetsEof (pending.map LogEntry.record)) :
    ∃ new R', h.Follows lags sole d' k done (pending ++ new) R' ∧
      ¬ SetsEof ((pending ++ new).map LogEntry.record) := by
  obtain ⟨new, R', hcontent, hsettles⟩ := hd.content k _ R hh.content hh.replayed
  obtain ⟨hnone, hactive⟩ : ¬ SetsEof (new.map LogEntry.record) ∧
    (R.LastActive → R'.LastActive) := by
    rcases hsettles.eof with hquiet' | ⟨-, hallows⟩
    · exact hquiet'
    · exact absurd hallows.own hown
  obtain ⟨heof, hlength⟩ := replay_eof_same hsettles.replays hnone
  have hboth : ¬ SetsEof ((pending ++ new).map LogEntry.record) := by
    rw [List.map_append]
    exact not_setsEof_append hquiet hnone
  refine ⟨new, R', ⟨hh.fd, ?_, ?_, hh.read, fun hsole => Or.inr ⟨hboth, ?_⟩,
    fun hsole hwrite => ?_⟩, hboth⟩
  · rw [hcontent, List.append_assoc]
  · rw [← List.append_assoc]
    exact ManifestFolder.Grows.replay_extended hh.replayed hsettles
  · rcases hh.eof hsole with ⟨hsets, -⟩ | ⟨-, hknows⟩
    · exact absurd hsets hquiet
    · refine hknows.imp (fun heq => heq.trans heof.symm) fun hahead => ?_
      exact ⟨hahead.1, hactive hahead.2.1, heof ▸ hahead.2.2⟩
  · exact (hh.whole hsole hwrite).trans hlength.symm

/-- Only the log of the handle matters. -/
theorem FileActiveStatus.Follows.of_content {lags sole : Prop} {k : Nat} {d d' : ManifestFolder}
    {done pending : List LogEntry} {R : View} {h : FileActiveStatus}
    (hh : h.Follows lags sole d k done pending R) (hd : d'.content k = d.content k) :
    h.Follows lags sole d' k done pending R :=
  ⟨hh.fd, hd.trans hh.content, hh.replayed, hh.read, hh.eof, hh.whole⟩

namespace World

variable {cfg : Config} {G G' : Account} {V V' : Option Victim} {w w' : World} {n m : Nat}
variable {h h' x : FileActiveStatus} {a k e : Nat} {es done pending : List LogEntry} {R : View}
  {c' : Ctx}

/-- Two handles have two slots. -/
theorem Registered.active_ne (hw : w.Registered) (hn : w.files[n]? = some h)
    (ha : h.activeId = some a)
    (hm : w.files[m]? = some x) (he : x.activeId = some e) (hmn : m ≠ n) : e ≠ a := by
  rintro rfl
  have hsame := hw.distinct (.file m) (.file n) e (by simp [activeIdOf, hm, he])
    (by simp [activeIdOf, hn, ha])
  cases hsame
  exact hmn rfl

/-- What a handle that does not work attends to stays. -/
theorem Attends.waits {done pending : List LogEntry} {L : Nat → Licence}
    (hh : Attends G w h a k done pending R) (hgrows : w.folder.Grows L w'.folder)
    (hown : ¬ (L k).own) (hhold : ∀ b, (G'.own b).holdOf a = (G.own b).holdOf a)
    (hcontent : G'.content h.fileId = G.content h.fileId) :
    ∃ pending' R', Attends G' w' h a k done pending' R' := by
  obtain ⟨new, R', hfollows, hquiet⟩ := hh.follows.waits hgrows hown hh.quiet
  have hsame : (fun b => (G'.own b).holdOf a) = fun b => (G.own b).holdOf a := funext hhold
  refine ⟨_, R', ⟨?_, hfollows, hquiet, hh.eof.trans (by rw [hcontent]), hh.pos, ?_,
    fun b i hb => ?_, hh.kept⟩⟩
  · rw [hgrows.links]
    exact hh.linked
  · rw [hsame]
    exact hh.books
  · rw [hhold b] at hb
    exact hh.anchored b i hb

/-- What the handle attends to after it worked. -/
theorem attends_of_desk {S : Site} {V : Option Victim}
    (hd : S.Desk (G'.sizes cfg.localBucketSize) V G'.own es R c')
    (hsole : S.sole) (hlags : S.lags)
    (hfolder : w'.folder = c'.folder) (hlinks : S.folder.links S.fileId = some S.file)
    (hself : h' = { c'.self with
      pos := h'.pos, loadMutex := h'.loadMutex, pc := h'.pc, stream := h'.stream })
    (heof : h'.eof = (G'.content h'.fileId).length) (hpos : h'.pos ≤ h'.eof)
    (hkept : S.handle.shouldDestroy = false) : Attends G' w' h' S.a S.file es [] R := by
  have hfile : h'.fileId = S.fileId := by
    rw [hself]
    exact hd.sight.steady.fileId
  have hwrite : h'.isWrite = S.handle.isWrite := by
    rw [hself]
    exact hd.sight.steady.isWrite
  have hfd : h'.fd = c'.self.fd := by rw [hself]
  have hblocks : h'.blockArray = c'.self.blockArray := by rw [hself]
  have heof' : h'.eof = c'.self.eof := by rw [hself]
  refine ⟨?_, ⟨?_, ?_, ?_, ⟨R, hd.log.replayed, ?_⟩, fun _ => Or.inr ⟨not_setsEof_nil, ?_⟩,
    fun _ _ => ?_⟩, not_setsEof_nil, heof, hpos, ?_, fun b i hb => ?_, ?_⟩
  · rw [hfolder, hd.log.grown.links, hfile]
    exact hlinks
  · rw [hfd]
    exact hd.log.fd
  · rw [hfolder, List.append_nil]
    exact hd.log.content
  · rw [List.append_nil]
    exact hd.log.replayed
  · rw [hblocks]
    have hshadows := hd.sight.shadows
    rwa [eq_true hlags] at hshadows
  · rw [heof', hwrite]
    exact (hd.sight.eof hsole).1
  · rw [hblocks]
    exact hd.sight.shadows.length
  · rw [hfile]
    exact hd.books.congr (by rw [hself]) (by rw [hself]) (by rw [hself])
  · rw [hfile] at hb
    rw [hblocks]
    exact hd.sight.cached hd.atlas.mirrors hb
  · rw [hself]
    exact hd.sight.steady.shouldDestroy.trans hkept

/-- The account is kept for the other files. With this the handles of other files, which
rest, are carried over a critical section without a look at it. -/
structure SameElse (f : FileId) (G G' : Account) : Prop where
  content : ∀ g, g ≠ f → G'.content g = G.content g
  blocks : ∀ g, g ≠ f → G'.blocks g = G.blocks g

theorem SameElse.of_same {f : FileId} (hcontent : G'.content = G.content)
    (hblocks : G'.blocks = G.blocks) :
    SameElse f G G' :=
  ⟨fun g _ => congrFun hcontent g, fun g _ => congrFun hblocks g⟩

/-- The log of another file tells of as many blocks as before. -/
theorem filed_of_grown {f g : FileId} {k : Nat} {L : Nat → Licence} (hw : Agrees cfg G V n w)
    (hgrows : w.folder.Grows L w'.folder) (hk : w.folder.links g = some k) (hown : ¬ (L k).own)
    (hmirrored : w'.folder.Mirrored True cfg.localBucketSize (G'.sizes cfg.localBucketSize)
      G'.own g k) (hsame : SameElse f G G') (hg : g ≠ f) : ∃ es R, Filed cfg G' w' g k es R := by
  obtain ⟨es, R, hfiled⟩ := hw.filed g k hk
  obtain ⟨new, R', hcontent, hsettles⟩ := hgrows.content k es R hfiled.content hfiled.replayed
  obtain ⟨es', r, hcontent', hreplayed, hreflects⟩ := hmirrored
  obtain rfl := logBytes_injective (hcontent.symm.trans hcontent')
  have hboth := ManifestFolder.Grows.replay_extended hfiled.replayed hsettles
  obtain rfl : R' = r := Except.ok.inj (hboth.symm.trans hreplayed)
  have hquiet : ¬ SetsEof (new.map LogEntry.record) := by
    rcases hsettles.eof with hquiet | ⟨-, hallows⟩
    · exact hquiet.1
    · exact absurd hallows.own hown
  refine ⟨_, R', hcontent, hreplayed, hreflects, ?_⟩
  rw [(replay_eof_same hsettles.replays hquiet).2, hfiled.length, hsame.blocks g hg]

/-- The registered handles are those from before, where a handle keeps its slot and its file. -/
theorem registered_before {m e : Nat} {x : FileActiveStatus} (hn : w.files[n]? = some h)
    (hfiles : w'.files = w.files.set n h') (hfile : h'.fileId = h.fileId)
    (hactive : h'.activeId = h.activeId) (hm : w'.files[m]? = some x) (he : x.activeId = some e) :
    ∃ y, w.files[m]? = some y ∧ y.activeId = some e ∧ y.fileId = x.fileId := by
  rcases files_set_cases hfiles hm with ⟨rfl, rfl⟩ | ⟨-, hm⟩
  · exact ⟨h, hn, hactive ▸ he, hfile.symm⟩
  · exact ⟨x, hm, he, rfl⟩

/-- The system agrees again after a critical section of the working handle. -/
theorem Agrees.worked {eof : Nat} (hw : Agrees cfg G V n w) (hreg : w.Registered)
    (hn : w.files[n]? = some h) (ha : h.activeId = some a) (hk : w.folder.links h.fileId = some k)
    (hd : ((w.site cfg G h a k ha hk hw.linked).beyond eof).Desk (G'.sizes cfg.localBucketSize) V'
    G'.own
      es R c')
    (hfiles : w'.files = w.files.set n h') (hshm : w'.shm = c'.shm) (hfolder :
    w'.folder = c'.folder)
    (hself : h' = { c'.self with
      pos := h'.pos, loadMutex := h'.loadMutex, pc := h'.pc, stream := h'.stream })
    (hpos : h'.pos ≤ h'.eof) (hsame : SameElse h.fileId G G')
    (heof : h'.eof = (G'.content h.fileId).length) (hblocks :
    G'.blocks h.fileId = R.blockArray.length) :
    Agrees cfg G' V' n w' := by
  have hfileId : h'.fileId = h.fileId := by
    rw [hself]
    exact hd.sight.steady.fileId
  have hactive : h'.activeId = some a := by
    rw [hself]
    exact hd.sight.steady.activeId.trans ha
  have hgrows : w.folder.Grows (((w.site cfg G h a k ha hk hw.linked).beyond eof).licence
      (G'.sizes cfg.localBucketSize)) w'.folder := by
    rw [hfolder]
    exact hd.log.grown
  have hnot : ∀ {g : FileId} {k' : Nat}, g ≠ h.fileId → w.folder.links g = some k' → k' ≠ k := by
    rintro g k' hg hk' rfl
    exact hg (hw.linked.injective _ _ _ hk' hk)
  have hothers : ∀ e, e ≠ a → ∀ b, (G'.own b).holdOf e = (G.own b).holdOf e := hd.segment.others
  have hnew : w'.files[n]? = some h' := by
    rw [hfiles, List.getElem?_set_self (List.getElem?_eq_some_iff.mp hn).1]
  refine ⟨?_, ⟨fun f k' hk' => ?_, fun f g k' hf hg => ?_⟩, fun g k' hk' => ?_, fun f hf => ?_,
    fun f => ?_, fun b f i hspot => ?_, fun m x e hm he => ?_,
    fun m m' x x' e e' hm hm' he he' heq => ?_, fun b e y hy => ?_, fun b f i e => ?_⟩
  · rw [hshm]
    exact hd.segment.staffed
  · rw [hgrows.files]
    exact hw.linked.bound f k' (by rw [← hgrows.links]; exact hk')
  · exact hw.linked.injective f g k' (by rw [← hgrows.links]; exact hf)
      (by rw [← hgrows.links]; exact hg)
  · rw [hgrows.links] at hk'
    by_cases hg : g = h.fileId
    · subst hg
      obtain rfl : k = k' := Option.some.inj (hk.symm.trans hk')
      exact ⟨es, R, by rw [hfolder]; exact hd.log.content, hd.log.replayed, hd.atlas.reflects,
        hblocks.symm⟩
    · refine filed_of_grown hw hgrows hk' (hnot hg hk') ?_ hsame hg
      rw [hfolder]
      exact hd.atlas.elsewhere g k' hg (by rw [← hfolder, hgrows.links]; exact hk')
  · rw [hgrows.links] at hf
    have hg : f ≠ h.fileId := by
      rintro rfl
      rw [hk] at hf
      cases hf
    rw [hsame.content f hg, hsame.blocks f hg]
    exact hw.unfiled f hf
  · by_cases hf : f = h.fileId
    · subst hf
      rw [hblocks, ← heof]
      have hlevel := (hd.sight.level trivial).2
      rw [hself]
      exact hlevel
    · have hlevel := hw.level f
      unfold Account.sizes at hlevel ⊢
      rw [hsame.content f hf, hsame.blocks f hf]
      exact hlevel
  · obtain ⟨state, hplace⟩ := Role.spot_eq_some.mp hspot
    rw [hfolder]
    exact hd.atlas.placed b _ hplace
  · rcases files_set_cases hfiles hm with ⟨rfl, rfl⟩ | ⟨hmn, hm⟩
    · obtain rfl : a = e := Option.some.inj (hactive.symm.trans he)
      obtain ⟨k₀, done, pending, R₀, hattends, -⟩ := hw.attends m h a hn ha
      exact ⟨k, es, [], R, attends_of_desk hd trivial trivial hfolder hk hself
        (by rw [hfileId]; exact heof)
        hpos hattends.kept, fun _ _ => rfl⟩
    · obtain ⟨k', done, pending, R', hattends, -⟩ := hw.attends m x e hm he
      have hfile : x.fileId ≠ h.fileId := fun heq => hmn (hw.alone m n x h e a hm hn he ha heq)
      obtain ⟨pending', R'', hattends'⟩ := hattends.waits hgrows (hnot hfile hattends.linked)
        (hothers e (hreg.active_ne hn ha hm he hmn)) (hsame.content _ hfile)
      exact ⟨k', done, pending', R'', hattends', fun h => absurd h hmn⟩
  · have hsame : h'.activeId = h.activeId := hactive.trans ha.symm
    obtain ⟨y, hy, hey, hfy⟩ := registered_before hn hfiles hfileId hsame hm he
    obtain ⟨y', hy', hey', hfy'⟩ := registered_before hn hfiles hfileId hsame hm' he'
    exact hw.alone m m' y y' e e' hy hy' hey hey' (hfy.trans (heq.trans hfy'.symm))
  · by_cases hea : e = a
    · exact ⟨n, h', hnew, hea ▸ hactive⟩
    · rw [hothers e hea b] at hy
      obtain ⟨m, x, hm, he⟩ := hw.holders b e y hy
      have hmn : m ≠ n := by
        rintro rfl
        obtain rfl : h = x := Option.some.inj (hn.symm.trans hm)
        exact hea (Option.some.inj (he.symm.trans ha))
      refine ⟨m, x, ?_, he⟩
      rw [hfiles, List.getElem?_set_ne (Ne.symm hmn)]
      exact hm
  · have hvictims := hd.segment.victims b f i e
    change G'.own b = .victim f i e ↔ if e = a then V' = some ⟨b, f, i⟩ else G.own b =
      .victim f i e at hvictims
    rw [hvictims]
    split
    · next hea =>
        subst hea
        exact ⟨fun hv => ⟨hv, h', hnew, hactive⟩, fun hv => hv.1⟩
    · next hea =>
        rw [hw.victims]
        constructor
        · rintro ⟨-, x, hx, he⟩
          obtain rfl : h = x := Option.some.inj (hn.symm.trans hx)
          exact absurd (Option.some.inj (he.symm.trans ha)) hea
        · rintro ⟨-, x, hx, he⟩
          obtain rfl : h' = x := Option.some.inj (hnew.symm.trans hx)
          exact absurd (Option.some.inj (he.symm.trans hactive)) hea

end World

/-- The handle's thread went on; the blocks are counted, and nothing else is done to them. -/
structure FileActiveStatus.Touches (h h' : FileActiveStatus) : Prop where
  self : h' = { h with
    pos := h'.pos, loadMutex :=
      h'.loadMutex, pc := h'.pc, stream := h'.stream, blockArray := h'.blockArray }
  blocks : Shadows False h'.blockArray h.blockArray

theorem FileActiveStatus.Touches.of_thread {h h' : FileActiveStatus} (hself : h' = { h with
    pos :=
      h'.pos, loadMutex := h'.loadMutex, pc := h'.pc, stream := h'.stream }) : h.Touches h' := by
  refine ⟨?_, ?_⟩
  · rw [hself]
  · rw [hself]
    exact .refl _ _

theorem Block.Shadows.of_false {lags : Prop} {x y z : Block} (hxy : x.Shadows False y)
    (hyz : y.Shadows lags z) : x.Shadows lags z := by
  have hstate : x.state = y.state := by
    rcases hxy.state with hsame | ⟨hfalse, -⟩
    · exact hsame
    · exact hfalse.elim
  refine ⟨hxy.bucketId.trans hyz.bucketId, hxy.blockId.trans hyz.blockId,
    hxy.isLocal.trans hyz.isLocal, ?_⟩
  rw [hstate]
  exact hyz.state

theorem Shadows.of_false {lags : Prop} {xs ys zs : List Block} (hxy : Shadows False xs ys)
    (hyz : Shadows lags ys zs) : Shadows lags xs zs := by
  refine ⟨hxy.length.trans hyz.length, fun i x z hx hz => ?_⟩
  obtain ⟨y, hy, hxy'⟩ := hxy.replayed hx
  exact hxy'.of_false (hyz.block i y z hy hz)

namespace World

theorem Attends.touched (hh : Attends G w h a k done pending R) (ht : h.Touches h')
    (hpos : h'.pos ≤ h'.eof) (hfolder : w'.folder = w.folder) :
    Attends G w' h' a k done pending R := by
  obtain ⟨hself, hblocks⟩ := ht
  have hfile : h'.fileId = h.fileId := by rw [hself]
  have heof : h'.eof = h.eof := by rw [hself]
  have hwrite : h'.isWrite = h.isWrite := by rw [hself]
  have hfd : h'.fd = h.fd := by rw [hself]
  have hdestroy : h'.shouldDestroy = h.shouldDestroy := by rw [hself]
  refine ⟨?_, ⟨?_, ?_, hh.follows.replayed, ?_, fun hsole => ?_, fun hsole hw => ?_⟩, hh.quiet, ?_,
    hpos, ?_, fun b i hb => ?_, hdestroy.trans hh.kept⟩
  · rw [hfolder, hfile]
    exact hh.linked
  · rw [hfd]
    exact hh.follows.fd
  · rw [hfolder]
    exact hh.follows.content
  · obtain ⟨r, hr, hshadows⟩ := hh.follows.read
    exact ⟨r, hr, hblocks.of_false hshadows⟩
  · rw [heof, hwrite]
    exact hh.follows.eof hsole
  · rw [hblocks.length]
    exact hh.follows.whole hsole (hwrite ▸ hw)
  · rw [heof, hfile]
    exact hh.eof
  · rw [hfile]
    exact hh.books.congr (by rw [hself]) (by rw [hself]) (by rw [hself])
  · rw [hfile] at hb
    obtain ⟨y, hy, hbucket, hid, hlocal⟩ := hh.anchored b i hb
    obtain ⟨x, hx, hxy⟩ := hblocks.cached hy
    exact ⟨x, hx, hxy.bucketId.trans hbucket, hxy.blockId.trans hid, hxy.isLocal.trans hlocal⟩

/-- The system agrees while the working handle does something outside its critical
sections. -/
theorem Agrees.touched (hw : Agrees cfg G V n w) (hn : w.files[n]? = some h)
    (hfiles : w'.files = w.files.set n h') (hshm : w'.shm = w.shm) (hfolder : w'.folder = w.folder)
    (htasks : w'.tasks ≠ [] → w.tasks ≠ []) (ht : h.Touches h') (hpos : h'.pos ≤ h'.eof) :
    Agrees cfg G V n w' := by
  have hfileId : h'.fileId = h.fileId := by rw [ht.self]
  have hactive : h'.activeId = h.activeId := by rw [ht.self]
  have hnew : w'.files[n]? = some h' := by
    rw [hfiles, List.getElem?_set_self (List.getElem?_eq_some_iff.mp hn).1]
  have hslot : ∀ e, (∃ x : FileActiveStatus, w'.files[n]? = some x ∧ x.activeId = some e) ↔
      ∃ x : FileActiveStatus, w.files[n]? = some x ∧ x.activeId = some e := by
    intro e
    constructor
    · rintro ⟨x, hx, he⟩
      obtain rfl : h' = x := Option.some.inj (hnew.symm.trans hx)
      exact ⟨h, hn, hactive ▸ he⟩
    · rintro ⟨x, hx, he⟩
      obtain rfl : h = x := Option.some.inj (hn.symm.trans hx)
      exact ⟨h', hnew, hactive.trans he⟩
  refine ⟨hshm ▸ hw.staffed, hfolder ▸ hw.linked, fun f k hk => ?_,
    fun f hf => hw.unfiled f (hfolder ▸ hf), hw.level, fun b f i hspot => ?_, fun m x e hm he => ?_,
    fun m m' x x' e e' hm hm' he he' heq => ?_, fun b e y hy => ?_, fun b f i e => ?_⟩
  · obtain ⟨es, R, hfiled⟩ := hw.filed f k (hfolder ▸ hk)
    exact ⟨es, R, hfolder ▸ hfiled.content, hfiled.replayed, hfiled.reflects, hfiled.length⟩
  · rw [hfolder]
    exact hw.placed b f i hspot
  · rcases files_set_cases hfiles hm with ⟨rfl, rfl⟩ | ⟨hmn, hm⟩
    · obtain ⟨k, done, pending, R, hattends, hcaught⟩ := hw.attends m h e hn (hactive ▸ he)
      exact ⟨k, done, pending, R, hattends.touched ht hpos hfolder,
        fun _ h => hcaught rfl (htasks h)⟩
    · obtain ⟨k, done, pending, R, hattends, -⟩ := hw.attends m x e hm he
      exact ⟨k, done, pending, R, hattends.touched (.of_thread rfl) hattends.pos hfolder,
        fun h => absurd h hmn⟩
  · obtain ⟨y, hy, hey, hfy⟩ := registered_before hn hfiles hfileId hactive hm he
    obtain ⟨y', hy', hey', hfy'⟩ := registered_before hn hfiles hfileId hactive hm' he'
    exact hw.alone m m' y y' e e' hy hy' hey hey' (hfy.trans (heq.trans hfy'.symm))
  · obtain ⟨m, x, hm, he⟩ := hw.holders b e y hy
    by_cases hmn : m = n
    · subst hmn
      obtain rfl : h = x := Option.some.inj (hn.symm.trans hm)
      exact ⟨m, h', hnew, hactive.trans he⟩
    · refine ⟨m, x, ?_, he⟩
      rw [hfiles, List.getElem?_set_ne (Ne.symm hmn)]
      exact hm
  · rw [hw.victims, hslot]

variable {D D' : Option Draft}

theorem Kept.congr (hw : Kept cfg G D w)
    (hspots : ∀ b f i, (G'.own b).spot = some (f, i) → (G.own b).spot = some (f, i))
    (himage : G'.image cfg.localBucketSize D' = G.image cfg.localBucketSize D)
    (hspace : w'.space = w.space) :
    Kept cfg G' D' w' := by
  intro b f i hspot
  rw [himage, hspace]
  exact hw b f i (hspots b f i hspot)

theorem Uploaded.congr (hw : Uploaded cfg G D w)
    (hlinks : ∀ f k, w'.folder.links f = some k → w.folder.links f = some k)
    (hblocks : ∀ f k, w'.folder.links f = some k → G'.blocks f = G.blocks f)
    (hspots : ∀ b f i, (G.own b).spot = some (f, i) → (G'.own b).spot = some (f, i))
    (himage : G'.image cfg.localBucketSize D' = G.image cfg.localBucketSize D)
    (hoss : w'.oss = w.oss)
    (htasks : ∀ task ∈ w.tasks, ∀ f i, task.Removed f i → ∃ task' ∈ w'.tasks, task'.Removed f i) :
    Uploaded cfg G' D' w' := by
  intro f k hk i hi hnowhere
  rw [hblocks f k hk] at hi
  rcases hw f k (hlinks f k hk) i hi (fun b hspot => hnowhere b (hspots b f i hspot)) with
    hstored | ⟨task, htask, hremoved⟩
  · left
    rw [hoss, himage]
    exact hstored
  · exact Or.inr (htasks task htask f i hremoved)

/-- Nothing changes for the loads: the roles of their buckets, the bytes in them and the
objects that they read are as before. -/
structure LoadsGoOn (cfg : Config) (G G' : Account) (D D' : Option Draft) (w w' : World) :
    Prop where
  roles : ∀ b e f i, G'.own b = .loading e f i ↔ G.own b = .loading e f i
  blocks : ∀ f, G.blocks f ≤ G'.blocks f
  spots : ∀ b f i, i < G.blocks f → (G'.own b).spot = some (f, i) → (G.own b).spot = some (f, i)
  image : ∀ b e f i, G.own b = .loading e f i →
    G'.image cfg.localBucketSize D' f i = G.image cfg.localBucketSize D f i
  space : ∀ b e f i, G.own b = .loading e f i →
    slice w.space (b * cfg.localBucketSize) (G.image cfg.localBucketSize D f i).length =
      G.image cfg.localBucketSize D f i →
    slice w'.space (b * cfg.localBucketSize) (G.image cfg.localBucketSize D f i).length =
      G.image cfg.localBucketSize D f i

theorem Brings.congr {f : FileId} {b i e : Nat} {phase : LoadPhase}
    (hb : Brings cfg G D w f b i phase) (hown : G.own b = .loading e f i)
    (hsame : LoadsGoOn cfg G G' D D' w w') :
    Brings cfg G' D' w' f b i phase := by
  have himage := hsame.image b e f i hown
  have hslice : ∀ {size : Nat}, size = (G.image cfg.localBucketSize D f i).length ∧
      slice w.space (b * cfg.localBucketSize) size = G.image cfg.localBucketSize D f i →
      size = (G'.image cfg.localBucketSize D' f i).length ∧
      slice w'.space (b * cfg.localBucketSize) size = G'.image cfg.localBucketSize D' f i := by
    rintro size ⟨rfl, hslice⟩
    rw [himage]
    exact ⟨rfl, hsame.space b e f i hown hslice⟩
  cases phase with
  | start => trivial
  | fetched data => exact Eq.trans hb himage.symm
  | stored size => exact hslice hb
  | removed size => exact hslice hb
  | failed => trivial

theorem Ledger.congr (hw : Ledger cfg G D n w) (htasks : w'.tasks = w.tasks)
    (hslot : ∀ x : FileActiveStatus, w.files[n]? = some x → ∃ x' : FileActiveStatus,
      w'.files[n]? = some x' ∧ x'.fileId = x.fileId ∧ x'.activeId = x.activeId)
    (hsame : LoadsGoOn cfg G G' D D' w w') : Ledger cfg G' D' n w' := by
  refine ⟨fun task htask => ?_, by rw [htasks]; exact hw.nodup, fun b e f i hown => ?_⟩
  · rw [htasks] at htask
    obtain ⟨x, a, b, i, hcarries⟩ := hw.task task htask
    obtain ⟨x', hx', hfile, hactive⟩ := hslot x hcarries.handle
    refine ⟨x', a, b, i, hcarries.owner, hx', hactive.trans hcarries.active, ?_, ?_, ?_, ?_⟩
    · rw [hfile]
      exact hcarries.info
    · rw [hfile]
      exact (hsame.roles _ _ _ _).mpr hcarries.role
    · rw [hfile]
      refine ⟨Nat.lt_of_lt_of_le hcarries.remote.1 (hsame.blocks _), fun c hspot => ?_⟩
      exact hcarries.remote.2 c (hsame.spots c _ _ hcarries.remote.1 hspot)
    · rw [hfile]
      exact hcarries.phase.congr hcarries.role hsame
  · rw [htasks]
    exact hw.listed b e f i ((hsame.roles b e f i).mp hown)

end World

/-- What a handle loads is what it holds for loading. -/
theorem Role.holdOf_loading {e i : Nat} {f : FileId} {r : Role} :
    r.holdOf e = some (.loading f i) ↔ r = .loading e f i := by
  cases r with
  | loading a g j =>
      simp only [Role.holdOf, Option.ite_none_right_eq_some, Option.some.injEq, Hold.loading.injEq,
        Role.loading.injEq]
  | free => simp [Role.holdOf]
  | spare a g => simp [Role.holdOf]
  | block g j holders => simp [Role.holdOf]
  | victim g j a => simp [Role.holdOf]

/-- The list of loads determines what is held for loading. -/
theorem Loads.same {hold hold' : Nat → Option Hold} {f : FileId} {blocks : List Block}
    {entries entries' : List (Nat × Nat)} (hl : Loads hold f blocks entries)
    (hl' : Loads hold' f blocks entries') (b i : Nat) :
    hold' b = some (.loading f i) ↔ hold b = some (.loading f i) := by
  have hinjective : Function.Injective fun e : Nat × Nat => (some e.1, some e.2) := by
    rintro ⟨b, i⟩ ⟨b', i'⟩ heq
    simpa using heq
  have hentries : entries' = entries := by
    apply List.map_injective_iff.mpr hinjective
    exact hl'.listed.symm.trans hl.listed
  rw [← hl.mem, ← hl'.mem, hentries]

/-- As long as the list of loads stays, so do the roles of the buckets that are loaded into. -/
theorem Books.loading_same {hold hold' : Nat → Option Hold} {f : FileId} {h h' : FileActiveStatus}
    (hb : Books hold f h) (hb' : Books hold' f h') (hloading : h'.loadingBuckets = h.loadingBuckets)
    (b : Nat) (g : FileId) (i : Nat) :
    hold' b = some (.loading g i) ↔ hold b = some (.loading g i) := by
  obtain ⟨entries, hl⟩ := hb.loads
  obtain ⟨entries', hl'⟩ := hb'.loads
  rw [hloading] at hl'
  by_cases hg : g = f
  · subst hg
    exact hl.same hl' b i
  · refine ⟨fun h => absurd (hb'.file b _ h) hg, fun h => absurd (hb.file b _ h) hg⟩

namespace World

variable {cfg : Config} {G G' : Account} {V V' : Option Victim} {w w' : World} {n m : Nat}
variable {h h' x : FileActiveStatus} {a k e : Nat} {es done pending : List LogEntry} {R R' : View}
  {c' : Ctx}
variable {D D' : Option Draft}

/-! ## The critical sections that move no block -/

/-- The world after a critical section of handle `n` that ended in `c'`: the section has
written segment and folder, and its thread may have gone on. -/
structure Worked (n : Nat) (c' : Ctx) (h' : FileActiveStatus) (w w' : World) : Prop where
  files : w'.files = w.files.set n h'
  shm : w'.shm = c'.shm
  folder : w'.folder = c'.folder
  self : h' = { c'.self with
    pos := h'.pos, loadMutex := h'.loadMutex, pc := h'.pc, stream := h'.stream }

/-- The roles of the buckets that are loaded into, in a critical section that leaves the
list of loads. -/
theorem loading_same_of_desk {eof : Nat} {own' : Nat → Role} {sizes : Sizes}
    (hl : w.folder.WellLinked) (ha : h.activeId = some a) (hk : w.folder.links h.fileId = some k)
    (hbooks : Books (fun b => (G.own b).holdOf a) h.fileId h)
    (hd : ((w.site cfg G h a k ha hk hl).beyond eof).Desk sizes V' own' es R c')
    (hloading : c'.self.loadingBuckets = h.loadingBuckets) (b e : Nat) (f : FileId) (i : Nat) :
    own' b = .loading e f i ↔ G.own b = .loading e f i := by
  rw [← Role.holdOf_loading, ← Role.holdOf_loading]
  by_cases hea : e = a
  · subst hea
    exact hbooks.loading_same hd.books hloading b f i
  · rw [hd.segment.others e hea b]
    rfl

theorem eof_of_desk {sizes : Sizes} {own' : Nat → Role} (hl : w.folder.WellLinked)
    (ha : h.activeId = some a) (hk : w.folder.links h.fileId = some k)
    (hd : (w.site cfg G h a k ha hk hl).Desk sizes V' own' es R c') : c'.self.eof = h.eof :=
  (hd.sight.level trivial).1

/-- What is stored where after the victim left its bucket. -/
theorem spot_withoutVictim (own : Nat → Role) (gone : Option Victim) (b : Nat) (p : FileId × Nat) :
    (Site.withoutVictim own gone b).spot = some p ↔
      (own b).spot = some p ∧ ∀ v, gone = some v → b ≠ v.bucket := by
  cases gone with
  | none => simp [Site.withoutVictim]
  | some v =>
      by_cases hb : b = v.bucket
      · simp [Site.withoutVictim, hb, Role.spot, Role.place]
      · simp [Site.withoutVictim, hb]

/-- After a critical section in which every block stays where it was, but for the victim of an
eviction that ended, all parts agree again. -/
theorem Coherent.stays {own' : Nat → Role} {gone : Option Victim} (hw : Coherent cfg G D V n w)
    (hreg : w.Registered) (hn : w.files[n]? = some h) (ha : h.activeId = some a)
    (hh : Attends G w h a k done pending R')
    (hd : (w.site cfg G h a k ha hh.linked hw.agrees.linked).Desk (G.sizes cfg.localBucketSize) V'
      own' es R c') (hstays : Stays (Site.withoutVictim G.own gone) own' R' R)
    (hgone : ∀ v, gone = some v → (G.own v.bucket).spot = some (v.file, v.index) ∧
      w.oss v.file (some v.index) = some (G.image cfg.localBucketSize D v.file v.index))
    (hloading : c'.self.loadingBuckets = h.loadingBuckets) (hworked : Worked n c' h' w w')
    (hpos : h'.pos = h.pos) (hspace : w'.space = w.space) (hoss : w'.oss = w.oss)
    (htasks : w'.tasks = w.tasks) :
    Coherent cfg { G with own := own' } D V' n w' := by
  have heof : h'.eof = h.eof := by
    rw [hworked.self]
    exact eof_of_desk hw.agrees.linked ha hh.linked hd
  have hlength : G.blocks h.fileId = R.blockArray.length := by
    rw [hstays.length]
    exact (hw.agrees.length hh.linked hh.follows.content hh.follows.replayed).symm
  have hlinks : w'.folder.links = w.folder.links := by
    rw [hworked.folder]
    exact hd.log.grown.links
  have hfile : h'.fileId = h.fileId := by
    rw [hworked.self]
    exact hd.sight.steady.fileId
  have hactive : h'.activeId = h.activeId := by
    rw [hworked.self]
    exact hd.sight.steady.activeId
  have hspots : ∀ b f i, (own' b).spot = some (f, i) ↔
      (G.own b).spot = some (f, i) ∧ ∀ v, gone = some v → b ≠ v.bucket := by
    intro b f i
    rw [hstays.spots b]
    exact spot_withoutVictim G.own gone b (f, i)
  refine ⟨hw.agrees.worked hreg hn ha hh.linked hd hworked.files
    hworked.shm hworked.folder hworked.self ?_ (.of_same rfl rfl) ?_ hlength, ?_, ?_, ?_⟩
  · rw [hpos, heof]
    exact hh.pos
  · exact heof.trans hh.eof
  · exact hw.kept.congr (fun b f i hspot => ((hspots b f i).mp hspot).1) rfl hspace
  · intro f k' hk' i hi hnowhere
    rw [hlinks] at hk'
    by_cases hvictim : ∃ v, gone = some v ∧ v.file = f ∧ v.index = i
    · obtain ⟨v, hv, rfl, rfl⟩ := hvictim
      left
      rw [hoss]
      exact (hgone v hv).2
    · have hbefore : ∀ b, (G.own b).spot ≠ some (f, i) := by
        intro b hspot
        refine hnowhere b ((hspots b f i).mpr ⟨hspot, ?_⟩)
        rintro v hv rfl
        have hv' := (hgone v hv).1.symm.trans hspot
        simp only [Option.some.injEq, Prod.mk.injEq] at hv'
        exact hvictim ⟨v, hv, hv'⟩
      rw [hoss, htasks]
      exact hw.uploaded f k' hk' i hi hbefore
  · refine hw.ledger.congr htasks (fun x hx => ?_) ⟨fun b e f i => ?_, fun _ => Nat.le_refl _,
      fun b f i _ hspot => ((hspots b f i).mp hspot).1, fun _ _ _ _ _ => rfl,
      fun _ _ _ _ _ hslice => ?_⟩
    · obtain rfl : h = x := Option.some.inj (hn.symm.trans hx)
      refine ⟨h', ?_, hfile, hactive⟩
      rw [hworked.files, List.getElem?_set_self (List.getElem?_eq_some_iff.mp hn).1]
    · exact loading_same_of_desk hw.agrees.linked ha hh.linked hh.books hd hloading b e f i
    · rw [hspace]
      exact hslice

end World

end Gopherwood
