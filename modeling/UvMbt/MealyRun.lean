/-
Machines that answer every event: two of them with the same answers, and
monitors that say which sequences of events keep the answers the same.
-/
import Mathlib.Data.List.Basic

set_option autoImplicit false

namespace MealyRun

universe u v w x y

variable {State : Type u} {Other : Type v} {Event : Type w}
  {Output : Type x} {Monitor : Type y}

/-- The answers to a sequence of events. -/
def outputs (step : State → Event → State × Output) :
    State → List Event → List Output
  | _, [] => []
  | state, event :: rest =>
      (step state event).2 :: outputs step (step state event).1 rest

/-- The sequence takes the monitor through no event that it forbids. -/
def Along (next : Monitor → Event → Option Monitor) :
    Monitor → List Event → Prop
  | _, [] => True
  | monitor, event :: rest =>
      ∃ after, next monitor event = some after ∧ Along next after rest

instance decidableAlong (next : Monitor → Event → Option Monitor) :
    ∀ monitor events, Decidable (Along next monitor events)
  | _, [] => isTrue trivial
  | monitor, event :: rest =>
      match hnext : next monitor event with
      | none => isFalse (by simp [Along, hnext])
      | some after =>
          have := decidableAlong next after rest
          decidable_of_iff (Along next after rest) (by simp [Along, hnext])

variable {step : State → Event → State × Output}
  {step' : Other → Event → Other × Output}
  {next : Monitor → Event → Option Monitor}

/-- Machines in related states answer alike as long as the monitor allows
it. -/
theorem outputs_eq_of_along (related : Monitor → State → Other → Prop)
    (hstep : ∀ monitor after event state other, related monitor state other →
      next monitor event = some after →
      (step state event).2 = (step' other event).2 ∧
        related after (step state event).1 (step' other event).1)
    {monitor : Monitor} {state : State} {other : Other}
    (hrelated : related monitor state other) {events : List Event}
    (halong : Along next monitor events) :
    outputs step state events = outputs step' other events := by
  induction events generalizing monitor state other with
  | nil => rfl
  | cons event rest ih =>
      rcases halong with ⟨after, hnext, hrest⟩
      have hone := hstep monitor after event state other hrelated hnext
      rw [outputs, outputs, hone.1, ih hone.2 hrest]

/-- When an event that the monitor forbids tells the machines apart, machines
that answer alike keep to the monitor. -/
theorem along_of_outputs_eq (related : Monitor → State → Other → Prop)
    {usual : Event → Prop}
    (hstep : ∀ monitor event state other, related monitor state other →
      usual event → (step state event).2 = (step' other event).2 →
      ∃ after, next monitor event = some after ∧
        related after (step state event).1 (step' other event).1)
    {monitor : Monitor} {state : State} {other : Other}
    (hrelated : related monitor state other) {events : List Event}
    (husual : ∀ event ∈ events, usual event)
    (houtputs : outputs step state events = outputs step' other events) :
    Along next monitor events := by
  induction events generalizing monitor state other with
  | nil => trivial
  | cons event rest ih =>
      rw [outputs, outputs, List.cons.injEq] at houtputs
      rcases hstep monitor event state other hrelated
        (husual event (by simp)) houtputs.1 with ⟨after, hnext, hafter⟩
      refine ⟨after, hnext, ?_⟩
      apply ih hafter
      · intro later hlater
        exact husual later (by simp [hlater])
      · exact houtputs.2

end MealyRun
