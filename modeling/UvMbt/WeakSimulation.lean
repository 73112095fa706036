/-
Runs seen from outside, where some labels are hidden, and the rule that matches
the runs of one step function with those of another.
-/
import UvMbt.GuardedRun

set_option autoImplicit false

namespace WeakSimulation

open GuardedRun

universe u v w x

variable {State : Type u} {Other : Type v} {Label : Type w} {Fault : Type x}

/-- The labels of a run that are not hidden where they are taken. -/
def visible (hidden : State → Label → Bool)
    (step : State → Label → Except Fault State) :
    State → List Label → List Label
  | _, [] => []
  | state, label :: rest =>
      match step state label with
      | .error _ => []
      | .ok next =>
          if hidden state label then visible hidden step next rest
          else label :: visible hidden step next rest

variable {allowed : State → Label → Prop} {hidden : State → Label → Bool}
  {step : State → Label → Except Fault State}

theorem visible_append {state middle : State} {first second : List Label}
    (hrun : run step state first = .ok middle) :
    visible hidden step state (first ++ second) =
      visible hidden step state first ++
        visible hidden step middle second := by
  induction first generalizing state with
  | nil =>
      cases hrun
      rfl
  | cons label rest ih =>
      rw [run] at hrun
      cases hnext : step state label with
      | error fault => simp [hnext] at hrun
      | ok next =>
          rw [hnext] at hrun
          simp only [List.cons_append, visible, hnext]
          rw [ih hrun]
          cases hidden state label <;> rfl

variable {allowed' : Other → Label → Prop} {hidden' : Other → Label → Bool}
  {step' : Other → Label → Except Fault Other}

/-- From `other`, some admissible labels with this trace lead to a state that
stands for `final`. -/
def Matches (allowed' : Other → Label → Prop) (hidden' : Other → Label → Bool)
    (step' : Other → Label → Except Fault Other)
    (related : State → Other → Prop) (other : Other) (trace : List Label)
    (final : State) : Prop :=
  ∃ labels, Admissible allowed' step' other labels ∧
    visible hidden' step' other labels = trace ∧
    ∃ last, run step' other labels = .ok last ∧ related final last

theorem Matches.stay {related : State → Other → Prop} {final : State}
    {other : Other} (hrelated : related final other) :
    Matches allowed' hidden' step' related other [] final :=
  ⟨[], trivial, rfl, other, rfl, hrelated⟩

/-- A label that is seen, and the state it leads to. -/
theorem Matches.single {related : State → Other → Prop} {final : State}
    {other next : Other} {label : Label} (hallowed : allowed' other label)
    (hhidden : hidden' other label = false)
    (hstep : step' other label = .ok next) (hrelated : related final next) :
    Matches allowed' hidden' step' related other [label] final := by
  refine ⟨[label], ?_, ?_, next, ?_, hrelated⟩
  · refine ⟨hallowed, ?_⟩
    rw [hstep]
    trivial
  · simp [visible, hstep, hhidden]
  · simp [run, hstep]

/-- A hidden label may be taken first. -/
theorem Matches.hide {related : State → Other → Prop} {final : State}
    {other next : Other} {label : Label} {trace : List Label}
    (hallowed : allowed' other label) (hhidden : hidden' other label = true)
    (hstep : step' other label = .ok next)
    (hrest : Matches allowed' hidden' step' related next trace final) :
    Matches allowed' hidden' step' related other trace final := by
  rcases hrest with ⟨labels, hadmissible, htrace, last, hrun, hrelated⟩
  refine ⟨label :: labels, ?_, ?_, last, ?_, hrelated⟩
  · refine ⟨hallowed, ?_⟩
    rw [hstep]
    exact hadmissible
  · simp [visible, hstep, hhidden, htrace]
  · simp [run, hstep, hrun]

theorem Matches.append {related : State → Other → Prop} {middle final : State}
    {other : Other} {first second : List Label}
    (hfirst : Matches allowed' hidden' step' related other first middle)
    (hsecond : ∀ next, related middle next →
      Matches allowed' hidden' step' related next second final) :
    Matches allowed' hidden' step' related other (first ++ second) final := by
  rcases hfirst with ⟨labels, hadmissible, rfl, next, hrun, hnext⟩
  rcases hsecond next hnext with
    ⟨labels', hadmissible', rfl, last, hrun', hlast⟩
  refine ⟨labels ++ labels', ?_, ?_, last, ?_, hlast⟩
  · exact hadmissible.append hrun hadmissible'
  · exact visible_append hrun
  · rw [run_append, hrun]
    exact hrun'

/-- When every allowed step is matched by a run with the same trace, every
admissible run is. -/
theorem run_matches {related : State → Other → Prop}
    (hstep : ∀ state other label next, related state other →
      allowed state label → step state label = .ok next →
      Matches allowed' hidden' step' related other
        (if hidden state label then [] else [label]) next)
    {state final : State} {other : Other} (hrelated : related state other)
    {labels : List Label} (hadmissible : Admissible allowed step state labels)
    (hrun : run step state labels = .ok final) :
    Matches allowed' hidden' step' related other
      (visible hidden step state labels) final := by
  induction labels generalizing state other with
  | nil =>
      cases hrun
      exact ⟨[], trivial, rfl, other, rfl, hrelated⟩
  | cons label rest ih =>
      rcases hadmissible with ⟨hallowed, hrest⟩
      rw [run] at hrun
      cases hnext : step state label with
      | error fault => simp [hnext] at hrun
      | ok next =>
          rw [hnext] at hrun hrest
          have htrace : visible hidden step state (label :: rest) =
              (if hidden state label then [] else [label]) ++
                visible hidden step next rest := by
            simp only [visible, hnext]
            cases hidden state label <;> rfl
          rw [htrace]
          apply (hstep state other label next hrelated hallowed hnext).append
          intro later hlater
          exact ih hlater hrest hrun

end WeakSimulation
