/-
# Guarded runs of a transition system

A transition function answers `none` when an action is not enabled. A run is a
finite sequence of enabled actions, each of which satisfies a condition on the
state it is taken in. The two facts used everywhere are that an invariant kept
by every guarded step holds at the end of every guarded run, and that a list of
actions executed by the transition function is such a run.
-/

import Mathlib.Logic.Basic

namespace Library

variable {σ ι : Type}

/-- States reached from `start` by actions that each meet `cond` in the state
they are taken in. -/
inductive Run (step : σ → ι → Option σ) (cond : σ → ι → Prop) (start : σ) : σ → Prop
  | start : Run step cond start start
  | step {s s' : σ} (i : ι) :
      Run step cond start s → cond s i → step s i = some s' → Run step cond start s'

namespace Run

variable {step : σ → ι → Option σ} {cond cond' : σ → ι → Prop} {start s : σ}

/-- The invariant rule. -/
theorem induct {inv : σ → Prop} (hrun : Run step cond start s) (hstart : inv start)
    (hstep : ∀ s i s', inv s → cond s i → step s i = some s' → inv s') : inv s := by
  induction hrun with
  | start => exact hstart
  | step i _ hcond hs ih => exact hstep _ i _ ih hcond hs

theorem mono (hrun : Run step cond start s)
    (h : ∀ s i, cond s i → cond' s i) : Run step cond' start s := by
  induction hrun with
  | start => exact .start
  | step i _ hcond hs ih => exact .step i ih (h _ _ hcond) hs

theorem trans {s' : σ} (first : Run step cond start s) (second : Run step cond s s') :
    Run step cond start s' := by
  induction second with
  | start => exact first
  | step i _ hcond hs ih => exact .step i ih hcond hs

end Run

section Execute

variable (step : σ → ι → Option σ) (cond : σ → ι → Prop) [∀ s i, Decidable (cond s i)]

/-- Execute a list of actions; `none` as soon as one is not enabled or does not
meet the condition. -/
def execute : σ → List ι → Option σ
  | s, [] => some s
  | s, i :: rest => if cond s i then (step s i).bind (execute · rest) else none

variable {step cond}

/-- An executed list of actions is a run. -/
theorem Run.of_execute {acts : List ι} {start s' : σ}
    (h : execute step cond start acts = some s') : Run step cond start s' := by
  suffices ∀ s, Run step cond start s → execute step cond s acts = some s' →
      Run step cond start s' from this start .start h
  clear h
  induction acts with
  | nil =>
      intro s hrun h
      cases h
      exact hrun
  | cons i rest ih =>
      intro s hrun h
      simp only [execute] at h
      split at h
      · next hcond =>
          obtain ⟨next, hnext, hrest⟩ := Option.bind_eq_some_iff.mp h
          exact ih next (.step i hrun hcond hnext) hrest
      · cases h

theorem execute_cons {i : ι} {rest : List ι} {s s' : σ} :
    execute step cond s (i :: rest) = some s' ↔
      cond s i ∧ ∃ mid, step s i = some mid ∧ execute step cond mid rest = some s' := by
  simp only [execute]
  split
  · next hcond => simp only [Option.bind_eq_some_iff, hcond, true_and]
  · next hcond =>
      constructor
      · intro h
        cases h
      · exact fun h => absurd h.1 hcond

/-- An execution meets a second condition, if every step meets it or leads where the end is
not reached from. -/
theorem execute_strengthen {cond' : σ → ι → Prop} [∀ s i, Decidable (cond' s i)]
    (inv lost : σ → Prop) {acts : List ι} {s s' : σ} (hs : inv s)
    (h : execute step cond s acts = some s')
    (hstep : ∀ s i mid, inv s → cond s i → step s i = some mid →
      cond' s i ∧ inv mid ∨ lost mid)
    (hlost : ∀ mid, lost mid → ¬ Run step cond mid s') :
    execute step cond' s acts = some s' := by
  induction acts generalizing s with
  | nil => exact h
  | cons i rest ih =>
      obtain ⟨hcond, mid, hmid, hrest⟩ := execute_cons.mp h
      rcases hstep s i mid hs hcond hmid with ⟨hcond', hinv⟩ | hl
      · exact execute_cons.mpr ⟨hcond', mid, hmid, ih hinv hrest⟩
      · exact absurd (Run.of_execute hrest) (hlost mid hl)

/-- When every step lowers a measure, an execution is no longer than the measure
of its first state. -/
theorem length_le_of_execute (inv : σ → Prop) (measure : σ → Nat)
    (hinv : ∀ s i s', inv s → cond s i → step s i = some s' → inv s')
    (hlower : ∀ s i s', inv s → cond s i → step s i = some s' → measure s' < measure s)
    {acts : List ι} {s s' : σ} (hs : inv s) (h : execute step cond s acts = some s') :
    acts.length + measure s' ≤ measure s := by
  induction acts generalizing s with
  | nil =>
      cases h
      simp
  | cons i rest ih =>
      simp only [execute] at h
      split at h
      · next hcond =>
          obtain ⟨next, hnext, hrest⟩ := Option.bind_eq_some_iff.mp h
          have hlonger := ih (hinv _ i _ hs hcond hnext) hrest
          have hlow := hlower _ i _ hs hcond hnext
          simp only [List.length_cons]
          omega
      · cases h

end Execute

/-- Every step is allowed. -/
def anyStep (_ : σ) (_ : ι) : Prop := True

instance (s : σ) (i : ι) : Decidable (anyStep s i) := inferInstanceAs (Decidable True)

end Library
