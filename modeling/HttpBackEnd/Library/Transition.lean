import Mathlib.Logic.Function.Basic
import Mathlib.Data.Option.Basic
import Mathlib.Data.List.Basic

/-! # Transition systems driven by events

A system takes an event in a state to the next state, or refuses it. Runs are
event lists. The rules below are the ones every safety proof needs: an invariant
kept by each admitted step holds along every run, conditions that agree under an
invariant agree along every run, a run of many copies of one system stepping in any
order projects to a run of each copy, and two systems related step by step stay
related along related runs.
-/

namespace Transition

/-- A deterministic system over states and events; `none` refuses the event. -/
structure System (State Event : Type*) where
  step : State → Event → Option State

namespace System

variable {State Event : Type*} (system : System State Event)

/-- Execute a list of events, failing at the first refused one. -/
def run : State → List Event → Option State
  | state, [] => some state
  | state, event :: events => (system.step state event).bind fun next => run next events

@[simp] theorem run_nil (state : State) : system.run state [] = some state := rfl

/-- A nonempty run takes its first step and continues from there. -/
theorem run_cons_eq_some {state final : State} {event : Event} {events : List Event} :
    system.run state (event :: events) = some final ↔
      ∃ next, system.step state event = some next ∧ system.run next events = some final :=
  Option.bind_eq_some_iff

/-- A run may be taken in two parts. -/
theorem run_append_eq_some {state final : State} {first second : List Event} :
    system.run state (first ++ second) = some final ↔
      ∃ middle, system.run state first = some middle ∧ system.run middle second = some final := by
  induction first generalizing state with
  | nil => simp
  | cons event first ih =>
      rw [List.cons_append, run_cons_eq_some]
      constructor
      · rintro ⟨next, stepped, ran⟩
        obtain ⟨middle, before, after⟩ := ih.mp ran
        exact ⟨middle, system.run_cons_eq_some.mpr ⟨next, stepped, before⟩, after⟩
      · rintro ⟨middle, before, after⟩
        obtain ⟨next, stepped, ran⟩ := system.run_cons_eq_some.mp before
        exact ⟨next, stepped, ih.mpr ⟨middle, ran, after⟩⟩

/-- A predicate kept by every step on an event the guard admits. -/
def Keeps (guard : Event → Prop) (predicate : State → Prop) : Prop :=
  ∀ state event next, guard event → predicate state →
    system.step state event = some next → predicate next

variable {system}

/-- A kept predicate holds at the end of every run over admitted events. -/
theorem Keeps.run {guard : Event → Prop} {predicate : State → Prop}
    (keeps : system.Keeps guard predicate) {state final : State} {events : List Event}
    (admitted : ∀ event ∈ events, guard event) (initial : predicate state)
    (ran : system.run state events = some final) : predicate final := by
  induction events generalizing state with
  | nil =>
      cases ran
      exact initial
  | cons event events ih =>
      obtain ⟨next, stepped, rest⟩ := (system.run_cons_eq_some).mp ran
      exact ih (fun other member => admitted other (List.mem_cons_of_mem _ member))
        (keeps state event next (admitted event List.mem_cons_self) initial stepped) rest

/-- A condition on states and events holds at every step the run takes. -/
def Along (system : System State Event) (holds : State → Event → Prop) :
    State → List Event → Prop
  | _, [] => True
  | state, event :: events => holds state event ∧
      ∀ next, system.step state event = some next → Along system holds next events

/-- Two conditions that agree in the states of an invariant agree along every run, if
the first keeps the invariant. -/
theorem along_congr {first second : State → Event → Prop} {invariant : State → Prop}
    (same : ∀ state event, invariant state → (first state event ↔ second state event))
    (keeps : ∀ state event next, invariant state → first state event →
      system.step state event = some next → invariant next)
    {state : State} (initial : invariant state) (events : List Event) :
    system.Along first state events ↔ system.Along second state events := by
  induction events generalizing state with
  | nil => exact Iff.rfl
  | cons event events ih =>
      constructor
      · rintro ⟨here, later⟩
        refine ⟨(same state event initial).mp here, fun next stepped => ?_⟩
        exact (ih (keeps state event next initial here stepped)).mp (later next stepped)
      · rintro ⟨here, later⟩
        have holds := (same state event initial).mpr here
        refine ⟨holds, fun next stepped => ?_⟩
        exact (ih (keeps state event next initial holds stepped)).mpr (later next stepped)

/-- The same, if the second condition is what it takes to stay in the invariant. -/
theorem along_congr_of_step {first second : State → Event → Prop} {invariant : State → Prop}
    (same : ∀ state event, invariant state → (first state event ↔ second state event))
    (steps : ∀ state event, invariant state → second state event →
      ∃ next, system.step state event = some next ∧ invariant next)
    {state : State} (initial : invariant state) (events : List Event) :
    system.Along first state events ↔ system.Along second state events := by
  refine along_congr same (fun state event next here holds stepped => ?_) initial events
  obtain ⟨other, steppedThere, there⟩ := steps state event here ((same state event here).mp holds)
  rw [stepped] at steppedThere
  cases steppedThere
  exact there

end System

section Interleave

variable {Index State Event : Type*} [DecidableEq Index]

/-- Copies of one system stepping one at a time, in any order. -/
def interleave (system : System State Event) : System (Index → State) (Index × Event) where
  step states event :=
    (system.step (states event.1) event.2).map (Function.update states event.1)

/-- The events of one copy, in order. -/
def eventsOf (index : Index) (events : List (Index × Event)) : List Event :=
  (events.filter fun event => event.1 = index).map Prod.snd

/-- One interleaved step is a step of the addressed copy and leaves the others alone. -/
theorem interleave_step_eq_some {system : System State Event} {states next : Index → State}
    {event : Index × Event} :
    (interleave system).step states event = some next ↔
      ∃ state, system.step (states event.1) event.2 = some state ∧
        Function.update states event.1 state = next :=
  Option.map_eq_some_iff

/-- Every run of the interleaved system projects to a run of each copy over that
copy's own events. -/
theorem interleave_run_project {system : System State Event} {states final : Index → State}
    {events : List (Index × Event)} (ran : (interleave system).run states events = some final)
    (index : Index) :
    system.run (states index) (eventsOf index events) = some (final index) := by
  induction events generalizing states with
  | nil =>
      cases ran
      rfl
  | cons event events ih =>
      obtain ⟨next, stepped, rest⟩ := ((interleave system).run_cons_eq_some).mp ran
      obtain ⟨state, moved, rfl⟩ := interleave_step_eq_some.mp stepped
      have tail := ih rest
      by_cases same : event.1 = index
      · subst same
        rw [Function.update_self] at tail
        unfold eventsOf at tail ⊢
        rw [List.filter_cons_of_pos (by simp only [decide_true]), List.map_cons]
        exact (system.run_cons_eq_some).mpr ⟨state, moved, tail⟩
      · rw [Function.update_of_ne (Ne.symm same)] at tail
        unfold eventsOf at tail ⊢
        rw [List.filter_cons_of_neg (by simpa only [decide_eq_true_eq] using same)]
        exact tail

end Interleave

section Relational

variable {State₁ State₂ Event₁ Event₂ : Type*}

/-- Two systems proceed in lockstep: on related events from related states, both
refuse or both move to related states. -/
def Lockstep (left : System State₁ Event₁) (right : System State₂ Event₂)
    (events : Event₁ → Event₂ → Prop) (states : State₁ → State₂ → Prop) : Prop :=
  ∀ state₁ state₂ event₁ event₂, states state₁ state₂ → events event₁ event₂ →
    Option.Rel states (left.step state₁ event₁) (right.step state₂ event₂)

/-- Lockstep systems end related runs in related states, and refuse together. -/
theorem Lockstep.run {left : System State₁ Event₁} {right : System State₂ Event₂}
    {events : Event₁ → Event₂ → Prop} {states : State₁ → State₂ → Prop}
    (lockstep : Lockstep left right events states) {state₁ : State₁} {state₂ : State₂}
    {run₁ : List Event₁} {run₂ : List Event₂} (related : states state₁ state₂)
    (paired : List.Forall₂ events run₁ run₂) :
    Option.Rel states (left.run state₁ run₁) (right.run state₂ run₂) := by
  induction paired generalizing state₁ state₂ with
  | nil => exact .some related
  | @cons event₁ event₂ rest₁ rest₂ same _ ih =>
      have moved := lockstep state₁ state₂ event₁ event₂ related same
      change Option.Rel states ((left.step state₁ event₁).bind fun next => left.run next rest₁)
        ((right.step state₂ event₂).bind fun next => right.run next rest₂)
      generalize left.step state₁ event₁ = next₁ at moved ⊢
      generalize right.step state₂ event₂ = next₂ at moved ⊢
      cases moved with
      | none => exact .none
      | some next => exact ih next

end Relational

end Transition
