/-
# Partial correctness for state and exceptions

C++ code that throws keeps every store it made before the throw. `EStateM`
models exactly that: an error carries the state at the point of the throw.
This module gives such computations a specification predicate with one
postcondition for normal return and one for an exception, and the rules used
to take a program apart: sequencing, branching, and running a program that
owns only one component of a larger state.
-/

import Mathlib.Logic.Basic

namespace Library

variable {ε σ τ α β : Type}

section Run

variable {prog : EStateM ε σ α} {rest : α → EStateM ε σ β} {s : σ}

@[simp]
theorem run_bind : (prog >>= rest) s =
    match prog s with
    | .ok a s' => rest a s'
    | .error e s' => .error e s' := by
  change EStateM.bind prog rest s = _
  unfold EStateM.bind
  cases prog s with
  | ok a s' => rfl
  | error e s' => rfl

@[simp]
theorem run_map {f : α → β} : (f <$> prog) s =
    match prog s with
    | .ok a s' => .ok (f a) s'
    | .error e s' => .error e s' := by
  change EStateM.map f prog s = _
  unfold EStateM.map
  cases prog s with
  | ok a s' => rfl
  | error e s' => rfl

@[simp]
theorem run_pure {a : α} : (Pure.pure a : EStateM ε σ α) s = .ok a s := rfl

@[simp]
theorem run_throw {e : ε} : (MonadExcept.throw e : EStateM ε σ α) s = .error e s := rfl

@[simp]
theorem run_get : (get : EStateM ε σ σ) s = .ok s s := rfl

@[simp]
theorem run_set {s' : σ} : (set s' : EStateM ε σ PUnit) s = .ok ⟨⟩ s' := rfl

@[simp]
theorem run_modify {f : σ → σ} : (modify f : EStateM ε σ PUnit) s = .ok ⟨⟩ (f s) := rfl

/-- A program that returns hands its value on to the rest. -/
theorem run_bind_ok {s' : σ} {a : α} (h : prog s = .ok a s') : (prog >>= rest) s = rest a s' := by
  rw [run_bind, h]

theorem run_bind_error {s' : σ} {e : ε} (h : prog s = .error e s') :
    (prog >>= rest) s = .error e s' := by
  rw [run_bind, h]

/-- A sequence that returns is a return of its first part and one of the rest. -/
theorem bind_ok {s' : σ} {b : β} (h : (prog >>= rest) s = .ok b s') :
    ∃ a mid, prog s = .ok a mid ∧ rest a mid = .ok b s' := by
  rw [run_bind] at h
  cases hprog : prog s with
  | ok a mid =>
      rw [hprog] at h
      exact ⟨a, mid, rfl, h⟩
  | error e mid =>
      rw [hprog] at h
      cases h

end Run

/-! ## Specifications -/

/-- From every state satisfying `pre`, the program either returns a value and
a state related by `post`, or throws with an error and a state related by
`exn`. The program always does one of the two. -/
def Spec (pre : σ → Prop) (prog : EStateM ε σ α)
    (post : α → σ → Prop) (exn : ε → σ → Prop) : Prop :=
  ∀ s, pre s →
    match prog s with
    | .ok a s' => post a s'
    | .error e s' => exn e s'

namespace Spec

variable {pre pre' : σ → Prop} {post post' : α → σ → Prop} {exn exn' : ε → σ → Prop}

theorem of_ok {prog : EStateM ε σ α} (h : Spec pre prog post exn) {s s' : σ} {a : α}
    (hpre : pre s) (hrun : prog s = .ok a s') : post a s' := by
  have := h s hpre
  rwa [hrun] at this

theorem of_error {prog : EStateM ε σ α} (h : Spec pre prog post exn) {s s' : σ} {e : ε}
    (hpre : pre s) (hrun : prog s = .error e s') : exn e s' := by
  have := h s hpre
  rwa [hrun] at this

/-- The rule of consequence. -/
theorem conseq {prog : EStateM ε σ α} (h : Spec pre prog post exn)
    (hpre : ∀ s, pre' s → pre s) (hpost : ∀ a s, post a s → post' a s)
    (hexn : ∀ e s, exn e s → exn' e s) : Spec pre' prog post' exn' := by
  intro s hs
  have := h s (hpre s hs)
  revert this
  cases prog s with
  | ok a s' => exact hpost a s'
  | error e s' => exact hexn e s'

theorem weaken_pre {prog : EStateM ε σ α} (h : Spec pre prog post exn)
    (hpre : ∀ s, pre' s → pre s) : Spec pre' prog post exn :=
  h.conseq hpre (fun _ _ => id) (fun _ _ => id)

theorem weaken_post {prog : EStateM ε σ α} (h : Spec pre prog post exn)
    (hpost : ∀ a s, post a s → post' a s) : Spec pre prog post' exn :=
  h.conseq (fun _ => id) hpost (fun _ _ => id)

/-- Two specifications of one program. -/
theorem and {prog : EStateM ε σ α} (h : Spec pre prog post exn) (h' : Spec pre prog post' exn') :
    Spec pre prog (fun a s => post a s ∧ post' a s) (fun e s => exn e s ∧ exn' e s) := by
  intro s hs
  have hfirst := h s hs
  have hsecond := h' s hs
  revert hfirst hsecond
  cases prog s with
  | ok a s' => exact And.intro
  | error e s' => exact And.intro

/-- A precondition may be fixed before the program is taken apart. -/
theorem of_pointwise {prog : EStateM ε σ α}
    (h : ∀ s, pre s → Spec (· = s) prog post exn) : Spec pre prog post exn :=
  fun s hs => h s hs s rfl

theorem pure {a : α} (h : ∀ s, pre s → post a s) :
    Spec pre (Pure.pure a : EStateM ε σ α) post exn :=
  fun s hs => h s hs

theorem throw {e : ε} (h : ∀ s, pre s → exn e s) :
    Spec pre (MonadExcept.throw e : EStateM ε σ α) post exn :=
  fun s hs => h s hs

/-- Sequencing. An exception of the first part ends the whole program, with
the state the first part had reached. -/
theorem bind {prog : EStateM ε σ α} {rest : α → EStateM ε σ β}
    {mid : α → σ → Prop} {post : β → σ → Prop}
    (first : Spec pre prog mid exn)
    (second : ∀ a, Spec (mid a) (rest a) post exn) :
    Spec pre (prog >>= rest) post exn := by
  intro s hs
  have hfirst := first s hs
  change match EStateM.bind prog rest s with
    | .ok a s' => post a s'
    | .error e s' => exn e s'
  unfold EStateM.bind
  cases hrun : prog s with
  | ok a s' =>
      rw [hrun] at hfirst
      exact second a s' hfirst
  | error e s' =>
      rw [hrun] at hfirst
      exact hfirst

theorem get_bind {rest : σ → EStateM ε σ β} {post : β → σ → Prop}
    (h : ∀ s, pre s → Spec (· = s) (rest s) post exn) :
    Spec pre (get >>= rest) post exn := by
  intro s hs
  exact h s hs s rfl

/-- Reading the state leaves the precondition to the rest. -/
theorem get_keep {rest : σ → EStateM ε σ β} {post : β → σ → Prop}
    (h : ∀ s, pre s → Spec pre (rest s) post exn) : Spec pre (get >>= rest) post exn :=
  fun s hs => h s hs s hs

theorem modify {f : σ → σ} {post : PUnit → σ → Prop} (h : ∀ s, pre s → post ⟨⟩ (f s)) :
    Spec pre (modify f : EStateM ε σ PUnit) post exn :=
  fun s hs => h s hs

theorem ite {c : Prop} [Decidable c] {thenProg elseProg : EStateM ε σ α}
    (hthen : c → Spec pre thenProg post exn) (helse : ¬ c → Spec pre elseProg post exn) :
    Spec pre (if c then thenProg else elseProg) post exn := by
  by_cases hc : c
  · rw [if_pos hc]; exact hthen hc
  · rw [if_neg hc]; exact helse hc

end Spec

/-- The program keeps `inv`, whether it returns or throws. -/
def Keeps (inv : σ → Prop) (prog : EStateM ε σ α) : Prop :=
  Spec inv prog (fun _ => inv) (fun _ => inv)

namespace Keeps

variable {inv : σ → Prop}

theorem of_run {prog : EStateM ε σ α}
    (hok : ∀ s a s', inv s → prog s = .ok a s' → inv s')
    (herror : ∀ s e s', inv s → prog s = .error e s' → inv s') : Keeps inv prog := by
  intro s hs
  cases hrun : prog s with
  | ok a s' => exact hok s a s' hs hrun
  | error e s' => exact herror s e s' hs hrun

theorem ok {prog : EStateM ε σ α} (h : Keeps inv prog) {s s' : σ} {a : α}
    (hinv : inv s) (hrun : prog s = .ok a s') : inv s' :=
  Spec.of_ok h hinv hrun

theorem error {prog : EStateM ε σ α} (h : Keeps inv prog) {s s' : σ} {e : ε}
    (hinv : inv s) (hrun : prog s = .error e s') : inv s' :=
  Spec.of_error h hinv hrun

/-- What is true of every state. -/
theorem of_forall {prog : EStateM ε σ α} (h : ∀ s, inv s) : Keeps inv prog :=
  of_run (fun _ _ s' _ _ => h s') (fun _ _ s' _ _ => h s')

theorem pure {a : α} : Keeps inv (Pure.pure a : EStateM ε σ α) :=
  fun _ => id

theorem throw {e : ε} : Keeps inv (MonadExcept.throw e : EStateM ε σ α) :=
  fun _ => id

theorem get : Keeps inv (MonadState.get : EStateM ε σ σ) :=
  fun _ => id

theorem bind {prog : EStateM ε σ α} {rest : α → EStateM ε σ β}
    (first : Keeps inv prog) (second : ∀ a, Keeps inv (rest a)) : Keeps inv (prog >>= rest) :=
  Spec.bind first second

theorem map {prog : EStateM ε σ α} {f : α → β} (h : Keeps inv prog) : Keeps inv (f <$> prog) := by
  intro s hs
  have := h s hs
  rw [run_map]
  revert this
  cases prog s with
  | ok a s' => exact id
  | error e s' => exact id

theorem modify {f : σ → σ} (h : ∀ s, inv s → inv (f s)) :
    Keeps inv (modify f : EStateM ε σ PUnit) :=
  h

theorem ite {c : Prop} [Decidable c] {thenProg elseProg : EStateM ε σ α}
    (hthen : Keeps inv thenProg) (helse : Keeps inv elseProg) :
    Keeps inv (if c then thenProg else elseProg) :=
  Spec.ite (fun _ => hthen) (fun _ => helse)

end Keeps

/-- The program keeps `inv`, and throws nothing but exceptions that satisfy `p`. -/
def Confines (inv : σ → Prop) (p : ε → Prop) (prog : EStateM ε σ α) : Prop :=
  Spec inv prog (fun _ => inv) (fun e s => inv s ∧ p e)

namespace Confines

variable {inv : σ → Prop} {p : ε → Prop}

theorem keeps {prog : EStateM ε σ α} (h : Confines inv p prog) : Keeps inv prog :=
  Spec.conseq h (fun _ => id) (fun _ _ => id) fun _ _ he => he.1

theorem pure {a : α} : Confines inv p (Pure.pure a : EStateM ε σ α) :=
  fun _ => id

theorem throw {e : ε} (he : p e) : Confines inv p (MonadExcept.throw e : EStateM ε σ α) :=
  fun _ hs => ⟨hs, he⟩

theorem get : Confines inv p (MonadState.get : EStateM ε σ σ) :=
  fun _ => id

theorem bind {prog : EStateM ε σ α} {rest : α → EStateM ε σ β}
    (first : Confines inv p prog) (second : ∀ a, Confines inv p (rest a)) :
    Confines inv p (prog >>= rest) :=
  Spec.bind first second

theorem modify {f : σ → σ} (h : ∀ s, inv s → inv (f s)) :
    Confines inv p (modify f : EStateM ε σ PUnit) :=
  h

theorem ite {c : Prop} [Decidable c] {thenProg elseProg : EStateM ε σ α}
    (hthen : Confines inv p thenProg) (helse : Confines inv p elseProg) :
    Confines inv p (if c then thenProg else elseProg) :=
  Spec.ite (fun _ => hthen) (fun _ => helse)

end Confines

/-- From every state satisfying `pre`, the program returns, if it returns, with a
value and a state related by `post`. -/
def Returns (pre : σ → Prop) (prog : EStateM ε σ α) (post : α → σ → Prop) : Prop :=
  ∀ s a s', pre s → prog s = .ok a s' → post a s'

namespace Returns

variable {pre pre' : σ → Prop} {post post' : α → σ → Prop}

theorem conseq {prog : EStateM ε σ α} (h : Returns pre prog post) (hpre : ∀ s, pre' s → pre s)
    (hpost : ∀ a s, post a s → post' a s) : Returns pre' prog post' :=
  fun s a s' hs hrun => hpost a s' (h s a s' (hpre s hs) hrun)

theorem weaken_pre {prog : EStateM ε σ α} (h : Returns pre prog post)
    (hpre : ∀ s, pre' s → pre s) : Returns pre' prog post :=
  h.conseq hpre fun _ _ => id

theorem weaken_post {prog : EStateM ε σ α} (h : Returns pre prog post)
    (hpost : ∀ a s, post a s → post' a s) : Returns pre prog post' :=
  h.conseq (fun _ => id) hpost

/-- A precondition may be fixed before the program is taken apart. -/
theorem of_pointwise {prog : EStateM ε σ α}
    (h : ∀ s, pre s → Returns (· = s) prog post) : Returns pre prog post :=
  fun s a s' hs hrun => h s hs s a s' rfl hrun

theorem pure {a : α} (h : ∀ s, pre s → post a s) :
    Returns pre (Pure.pure a : EStateM ε σ α) post := by
  rintro s _ _ hs hrun
  cases hrun
  exact h s hs

theorem throw {e : ε} : Returns pre (MonadExcept.throw e : EStateM ε σ α) post := by
  rintro s a s' hs hrun
  cases hrun

theorem bind {prog : EStateM ε σ α} {rest : α → EStateM ε σ β}
    {mid : α → σ → Prop} {post : β → σ → Prop}
    (first : Returns pre prog mid) (second : ∀ a, Returns (mid a) (rest a) post) :
    Returns pre (prog >>= rest) post := by
  intro s b s' hs hrun
  rw [run_bind] at hrun
  cases hfirst : prog s with
  | ok a s₁ =>
      rw [hfirst] at hrun
      exact second a s₁ b s' (first s a s₁ hs hfirst) hrun
  | error e s₁ =>
      rw [hfirst] at hrun
      cases hrun

theorem get_bind {rest : σ → EStateM ε σ β} {post : β → σ → Prop}
    (h : ∀ s, pre s → Returns (· = s) (rest s) post) :
    Returns pre (get >>= rest) post :=
  fun s b s' hs hrun => h s hs s b s' rfl hrun

theorem modify {f : σ → σ} {post : PUnit → σ → Prop} (h : ∀ s, pre s → post ⟨⟩ (f s)) :
    Returns pre (modify f : EStateM ε σ PUnit) post := by
  rintro s _ _ hs hrun
  cases hrun
  exact h s hs

theorem ite {c : Prop} [Decidable c] {thenProg elseProg : EStateM ε σ α}
    (hthen : c → Returns pre thenProg post) (helse : ¬ c → Returns pre elseProg post) :
    Returns pre (if c then thenProg else elseProg) post := by
  by_cases hc : c
  · rw [if_pos hc]; exact hthen hc
  · rw [if_neg hc]; exact helse hc

/-- Two specifications of one program. -/
theorem and {prog : EStateM ε σ α} (h : Returns pre prog post) (h' : Returns pre' prog post') :
    Returns (fun s => pre s ∧ pre' s) prog fun a s => post a s ∧ post' a s :=
  fun s a s' hs hrun => ⟨h s a s' hs.1 hrun, h' s a s' hs.2 hrun⟩

end Returns

/-- The state that a program leaves, whether it returns or throws. -/
def after (prog : EStateM ε σ α) (s : σ) : σ :=
  match prog s with
  | .ok _ s' => s'
  | .error _ s' => s'

theorem Spec.after {pre post : σ → Prop} {prog : EStateM ε σ α}
    (h : Spec pre prog (fun _ => post) (fun _ => post)) {s : σ} (hs : pre s) :
    post (Library.after prog s) := by
  have := h s hs
  unfold Library.after
  revert this
  cases prog s with
  | ok a s' => exact id
  | error e s' => exact id

theorem Keeps.after {inv : σ → Prop} {prog : EStateM ε σ α} (h : Keeps inv prog) {s : σ}
    (hs : inv s) : inv (Library.after prog s) :=
  Spec.after h hs

/-- Run a program on the component of a larger state that a lens names. -/
def zoom (view : σ → τ) (update : τ → σ → σ) (prog : EStateM ε τ α) : EStateM ε σ α :=
  fun s =>
    match prog (view s) with
    | .ok a t => .ok a (update t s)
    | .error e t => .error e (update t s)

@[simp]
theorem run_zoom {view : σ → τ} {update : τ → σ → σ} {prog : EStateM ε τ α} {s : σ} :
    zoom view update prog s =
      match prog (view s) with
      | .ok a t => .ok a (update t s)
      | .error e t => .error e (update t s) := rfl

theorem Returns.zoom {view : σ → τ} {update : τ → σ → σ} {prog : EStateM ε τ α}
    {pre : σ → Prop} {post : α → σ → Prop}
    (h : ∀ s a t, pre s → prog (view s) = .ok a t → post a (update t s)) :
    Returns pre (Library.zoom view update prog) post := by
  intro s a s' hs hrun
  rw [run_zoom] at hrun
  cases hprog : prog (view s) with
  | ok b t =>
      rw [hprog] at hrun
      cases hrun
      exact h s a t hs hprog
  | error e t =>
      rw [hprog] at hrun
      cases hrun

theorem Spec.zoom {view : σ → τ} {update : τ → σ → σ} {prog : EStateM ε τ α}
    {pre : σ → Prop} {post : α → σ → Prop} {exn : ε → σ → Prop}
    (h : ∀ s, pre s → Spec (· = view s) prog
      (fun a t => post a (update t s)) (fun e t => exn e (update t s))) :
    Spec pre (Library.zoom view update prog) post exn := by
  intro s hs
  have := h s hs (view s) rfl
  unfold Library.zoom
  revert this
  cases prog (view s) with
  | ok a t => exact id
  | error e t => exact id

/-- A program on a component keeps what is kept by every change of the component
that the program can make. -/
theorem Keeps.zoom {view : σ → τ} {update : τ → σ → σ} {prog : EStateM ε τ α}
    {inv : σ → Prop} {part : τ → Prop} (h : Keeps part prog)
    (hview : ∀ s, inv s → part (view s))
    (hupdate : ∀ s t, inv s → part t → inv (update t s)) :
    Keeps inv (Library.zoom view update prog) :=
  Spec.zoom fun s hs => fun t ht => by
    subst ht
    have := h (view s) (hview s hs)
    revert this
    cases prog (view s) with
    | ok a t => exact hupdate s t hs
    | error e t => exact hupdate s t hs

/-- A program on a component confines what no change of the component touches. -/
theorem Confines.zoom {view : σ → τ} {update : τ → σ → σ} {prog : EStateM ε τ α}
    {inv : σ → Prop} {p : ε → Prop} (h : Confines (fun _ => True) p prog)
    (hupdate : ∀ s t, inv s → inv (update t s)) :
    Confines inv p (Library.zoom view update prog) :=
  Spec.zoom fun s hs => fun t ht => by
    subst ht
    have := h (view s) trivial
    revert this
    cases prog (view s) with
    | ok a t => exact fun _ => hupdate s t hs
    | error e t => exact fun he => ⟨hupdate s t hs, he.2⟩

end Library
