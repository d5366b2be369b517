import Mathlib.Tactic.Common

/-! # Runs of a state machine

A machine takes events one after another. A guard is a condition on an event and the state before it. -/

namespace Runs

variable {State Event : Type*} (step : State → Event → State)

def run (start : State) (events : List Event) : State :=
  events.foldl step start

@[simp] theorem run_nil (start : State) : run step start [] = start := rfl

@[simp] theorem run_cons (start : State) (event : Event) (events : List Event) :
    run step start (event :: events) = run step (step start event) events := rfl

theorem run_append (start : State) (first second : List Event) :
    run step start (first ++ second) = run step (run step start first) second :=
  List.foldl_append

/-- Every event of the run meets the guard in the state in which it is taken. -/
def Guarded (guard : State → Event → Prop) : State → List Event → Prop
  | _, [] => True
  | state, event :: events => guard state event ∧ Guarded guard (step state event) events

instance decidableGuarded (guard : State → Event → Prop) [∀ state event, Decidable (guard state event)] :
    ∀ state events, Decidable (Guarded step guard state events)
  | _, [] => .isTrue trivial
  | state, event :: events =>
    have := decidableGuarded guard (step state event) events
    inferInstanceAs (Decidable (_ ∧ _))

/-- A guard that an event meets in every state. -/
theorem guarded_of_forall {guard : State → Event → Prop} {events : List Event}
    (meets : ∀ event ∈ events, ∀ state, guard state event) (start : State) : Guarded step guard start events := by
  induction events generalizing start with
  | nil => trivial
  | cons event events ih =>
    obtain ⟨first, later⟩ := List.forall_mem_cons.mp meets
    exact ⟨first start, ih later _⟩

theorem guarded_append {guard : State → Event → Prop} {start : State} {first second : List Event} :
    Guarded step guard start (first ++ second) ↔
      Guarded step guard start first ∧ Guarded step guard (run step start first) second := by
  induction first generalizing start with
  | nil => exact ⟨fun guarded => ⟨trivial, guarded⟩, And.right⟩
  | cons event events ih =>
    rw [List.cons_append, Guarded, ih, Guarded, run_cons, and_assoc]

/-- Some event of the run meets the condition in the state in which it is taken. -/
def Sometime (holds : State → Event → Prop) : State → List Event → Prop
  | _, [] => False
  | state, event :: events => holds state event ∨ Sometime holds (step state event) events

instance decidableSometime (holds : State → Event → Prop) [∀ state event, Decidable (holds state event)] :
    ∀ state events, Decidable (Sometime step holds state events)
  | _, [] => .isFalse id
  | state, event :: events =>
    have := decidableSometime holds (step state event) events
    inferInstanceAs (Decidable (_ ∨ _))

theorem sometime_append {holds : State → Event → Prop} {start : State} {first second : List Event} :
    Sometime step holds start (first ++ second) ↔
      Sometime step holds start first ∨ Sometime step holds (run step start first) second := by
  induction first generalizing start with
  | nil => exact ⟨.inr, Or.rec False.elim id⟩
  | cons event events ih =>
    rw [List.cons_append, Sometime, ih, Sometime, run_cons, or_assoc]

theorem Sometime.mono {holds weaker : State → Event → Prop} (implies : ∀ state event, holds state event → weaker state event)
    {start : State} {events : List Event} (sometime : Sometime step holds start events) :
    Sometime step weaker start events := by
  induction events generalizing start with
  | nil => exact sometime
  | cons event events ih => exact sometime.imp (implies start event) ih

/-- What a guarded step preserves, a guarded run preserves. -/
theorem Guarded.invariant {guard : State → Event → Prop} {holds : State → Prop}
    (preserved : ∀ state event, holds state → guard state event → holds (step state event))
    {start : State} {events : List Event} (initially : holds start) (guarded : Guarded step guard start events) :
    holds (run step start events) := by
  induction events generalizing start with
  | nil => exact initially
  | cons event events ih =>
    exact ih (preserved start event initially guarded.1) guarded.2

/-- What a guarded step shows from an invariant, every step of a guarded run shows. -/
theorem Guarded.shows {guard goal : State → Event → Prop} {holds : State → Prop}
    (preserved : ∀ state event, holds state → guard state event → holds (step state event))
    (shown : ∀ state event, holds state → guard state event → goal state event)
    {start : State} {events : List Event} (initially : holds start) (guarded : Guarded step guard start events) :
    Guarded step goal start events := by
  induction events generalizing start with
  | nil => trivial
  | cons event events ih =>
    exact ⟨shown start event initially guarded.1, ih (preserved start event initially guarded.1) guarded.2⟩

/-- What every step preserves, every run preserves. -/
theorem invariant {holds : State → Prop} (preserved : ∀ state event, holds state → holds (step state event))
    {start : State} (initially : holds start) (events : List Event) : holds (run step start events) := by
  induction events generalizing start with
  | nil => exact initially
  | cons event events ih => exact ih (preserved start event initially)

/-- What every step shows from an invariant, every step of a run shows. -/
theorem shows {goal : State → Event → Prop} {holds : State → Prop}
    (preserved : ∀ state event, holds state → holds (step state event))
    (shown : ∀ state event, holds state → goal state event)
    {start : State} (initially : holds start) (events : List Event) : Guarded step goal start events := by
  induction events generalizing start with
  | nil => trivial
  | cons event events ih =>
    exact ⟨shown start event initially, ih (preserved start event initially)⟩

end Runs
