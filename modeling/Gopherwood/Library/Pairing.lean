/-
# Starts and finishes

A log of work items that are started, used and finished. It is paired when every use
and every finish is of an item that was started and has not been finished since; an
item can be started more than once, and then has to be finished as often.
-/

import Mathlib.Data.List.Basic

namespace Library.Pairing

inductive Event (α : Type)
  | start (a : α)
  | use (a : α)
  | finish (a : α)

variable {α : Type} [DecidableEq α]

/-- The items that are started and not finished after one more event; `none` when the
event is of an item that is not among them. -/
def Event.next (out : List α) : Event α → Option (List α)
  | .start a => some (a :: out)
  | .use a => if a ∈ out then some out else none
  | .finish a => if a ∈ out then some (out.erase a) else none

/-- The items that are started and not finished. -/
def outstanding (events : List (Event α)) : Option (List α) := events.foldlM Event.next []

def Paired (events : List (Event α)) : Prop := ∃ out, outstanding events = some out

instance (events : List (Event α)) : Decidable (Paired events) :=
  match h : outstanding events with
  | some out => isTrue ⟨out, h⟩
  | none => isFalse fun ⟨out, hout⟩ => by
      rw [h] at hout
      cases hout

variable {events more : List (Event α)} {out : List α}

theorem outstanding_append (h : outstanding events = some out) :
    outstanding (events ++ more) = more.foldlM Event.next out := by
  rw [outstanding, List.foldlM_append]
  change (outstanding events >>= fun out => more.foldlM Event.next out) = _
  rw [h]
  rfl

theorem Paired.of_append (h : Paired (events ++ more)) : Paired events := by
  obtain ⟨out, h⟩ := h
  rw [outstanding, List.foldlM_append] at h
  obtain ⟨out', h', -⟩ := Option.bind_eq_some_iff.mp h
  exact ⟨out', h'⟩

/-- Nothing that is not outstanding may be used. -/
theorem not_paired_use {a : α} (h : outstanding events = some []) :
    ¬ Paired (events ++ .use a :: more) := by
  rintro ⟨out, hout⟩
  rw [outstanding_append h] at hout
  cases hout

end Library.Pairing
