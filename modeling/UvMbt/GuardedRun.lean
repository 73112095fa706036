/-
Runs of a step function that can fault.  A run is admissible when every label
is allowed in the state in which it is taken; an invariant that no allowed step
faults from, and that every allowed step preserves, holds along the run.
-/
import Mathlib.Data.List.Basic

set_option autoImplicit false

namespace GuardedRun

universe u v w

variable {State : Type u} {Label : Type v} {Fault : Type w}

/-- A computation that returns went through its first half. -/
theorem bind_eq_ok {α β : Type v} {first : Except Fault α}
    {second : α → Except Fault β} {result : β}
    (hbind : (first >>= second) = .ok result) :
    ∃ value, first = .ok value ∧ second value = .ok result := by
  cases first with
  | error fault => cases hbind
  | ok value => exact ⟨value, rfl, hbind⟩

/-- The state a list of labels leads to, or the first fault. -/
def run (step : State → Label → Except Fault State) :
    State → List Label → Except Fault State
  | state, [] => .ok state
  | state, label :: rest =>
      match step state label with
      | .error fault => .error fault
      | .ok next => run step next rest

/-- Every label is allowed where it is taken. -/
def Admissible (allowed : State → Label → Prop)
    (step : State → Label → Except Fault State) :
    State → List Label → Prop
  | _, [] => True
  | state, label :: rest =>
      allowed state label ∧
        match step state label with
        | .error _ => True
        | .ok next => Admissible allowed step next rest

instance decidableAdmissible (allowed : State → Label → Prop)
    [∀ state label, Decidable (allowed state label)]
    (step : State → Label → Except Fault State) :
    ∀ state labels, Decidable (Admissible allowed step state labels)
  | _, [] => isTrue trivial
  | state, label :: rest =>
      match hstep : step state label with
      | .error _ => decidable_of_iff (allowed state label) (by
          simp [Admissible, hstep])
      | .ok next =>
          have := decidableAdmissible allowed step next rest
          decidable_of_iff
            (allowed state label ∧ Admissible allowed step next rest) (by
              simp [Admissible, hstep])

variable {allowed : State → Label → Prop}
  {step : State → Label → Except Fault State}

theorem run_append (state : State) (first second : List Label) :
    run step state (first ++ second) =
      match run step state first with
      | .error fault => .error fault
      | .ok next => run step next second := by
  induction first generalizing state with
  | nil => rfl
  | cons label rest ih =>
      simp only [List.cons_append, run]
      cases step state label with
      | error fault => rfl
      | ok next => exact ih next

theorem Admissible.append {state middle : State} {first second : List Label}
    (hfirst : Admissible allowed step state first)
    (hrun : run step state first = .ok middle)
    (hsecond : Admissible allowed step middle second) :
    Admissible allowed step state (first ++ second) := by
  induction first generalizing state with
  | nil =>
      cases hrun
      exact hsecond
  | cons label rest ih =>
      rcases hfirst with ⟨hallowed, hrest⟩
      rw [run] at hrun
      refine ⟨hallowed, ?_⟩
      cases hnext : step state label with
      | error fault => trivial
      | ok next =>
          rw [hnext] at hrun hrest
          exact ih hrest hrun

theorem Admissible.left {state : State} {first second : List Label}
    (hadmissible : Admissible allowed step state (first ++ second)) :
    Admissible allowed step state first := by
  induction first generalizing state with
  | nil => trivial
  | cons label rest ih =>
      obtain ⟨hallowed, hrest⟩ := hadmissible
      refine ⟨hallowed, ?_⟩
      cases hstep : step state label with
      | error fault => trivial
      | ok next =>
          rw [List.append_eq, hstep] at hrest
          exact ih hrest

theorem Admissible.single {state : State} {label : Label}
    (hallowed : allowed state label) :
    Admissible allowed step state [label] := by
  refine ⟨hallowed, ?_⟩
  cases step state label <;> trivial

theorem Admissible.mono {weaker : State → Label → Prop}
    (hweaker : ∀ state label, allowed state label → weaker state label)
    {state : State} {labels : List Label}
    (hadmissible : Admissible allowed step state labels) :
    Admissible weaker step state labels := by
  induction labels generalizing state with
  | nil => trivial
  | cons label rest ih =>
      obtain ⟨hallowed, hrest⟩ := hadmissible
      refine ⟨hweaker state label hallowed, ?_⟩
      cases hstep : step state label with
      | error fault => trivial
      | ok next =>
          rw [hstep] at hrest
          exact ih hrest

/-- A step or a run ended well: in a state with the invariant, or in a fault
that is accounted for. -/
def Settles (tolerated : Fault → Prop) (invariant : State → Prop) :
    Except Fault State → Prop
  | .ok state => invariant state
  | .error fault => tolerated fault

/-- The run rule: an invariant carries an admissible run to its end, or to a
fault that is accounted for. -/
theorem run_settles {tolerated : Fault → Prop} {invariant : State → Prop}
    (hpreserved : ∀ state label, invariant state → allowed state label →
      Settles tolerated invariant (step state label))
    {state : State} (hinvariant : invariant state) {labels : List Label}
    (hadmissible : Admissible allowed step state labels) :
    Settles tolerated invariant (run step state labels) := by
  induction labels generalizing state with
  | nil => exact hinvariant
  | cons label rest ih =>
      obtain ⟨hallowed, hrest⟩ := hadmissible
      have hstep := hpreserved state label hinvariant hallowed
      rw [run]
      cases hnext : step state label with
      | error fault =>
          rw [hnext] at hstep
          exact hstep
      | ok next =>
          rw [hnext] at hstep hrest
          exact ih hstep hrest

/-- The run rule without faults. -/
theorem run_safe {invariant : State → Prop}
    (hpreserved : ∀ state label, invariant state → allowed state label →
      ∃ next, step state label = .ok next ∧ invariant next)
    {state : State} (hinvariant : invariant state) {labels : List Label}
    (hadmissible : Admissible allowed step state labels) :
    ∃ final, run step state labels = .ok final ∧ invariant final := by
  have hsettles : Settles (fun _ => False) invariant (run step state labels) :=
    run_settles (fun state label hinvariant hallowed => by
      obtain ⟨next, hstep, hnext⟩ := hpreserved state label hinvariant hallowed
      rw [hstep]
      exact hnext) hinvariant hadmissible
  cases hrun : run step state labels with
  | error fault =>
      rw [hrun] at hsettles
      exact hsettles.elim
  | ok final =>
      rw [hrun] at hsettles
      exact ⟨final, rfl, hsettles⟩

/-- When a step keeps the invariant, and what is good exactly if it is allowed,
a run that does not fault keeps what is good exactly if it is admissible. -/
theorem run_iff {invariant good : State → Prop}
    (hstep : ∀ state label next, invariant state →
      step state label = .ok next →
      invariant next ∧ (good next ↔ good state ∧ allowed state label))
    {state final : State} (hinvariant : invariant state) {labels : List Label}
    (hrun : run step state labels = .ok final) :
    invariant final ∧
      (good final ↔ good state ∧ Admissible allowed step state labels) := by
  induction labels generalizing state with
  | nil =>
      cases hrun
      exact ⟨hinvariant, (and_iff_left trivial).symm⟩
  | cons label rest ih =>
      rw [run] at hrun
      cases hnext : step state label with
      | error fault => simp [hnext] at hrun
      | ok next =>
          rw [hnext] at hrun
          have hone := hstep state label next hinvariant hnext
          have hrest := ih hone.1 hrun
          refine ⟨hrest.1, ?_⟩
          rw [hrest.2, hone.2, Admissible, hnext, and_assoc]

/-- Some admissible run leads there. -/
def Reaches (allowed : State → Label → Prop)
    (step : State → Label → Except Fault State) (state final : State) : Prop :=
  ∃ labels, Admissible allowed step state labels ∧
    run step state labels = .ok final

theorem Reaches.refl (state : State) : Reaches allowed step state state :=
  ⟨[], trivial, rfl⟩

theorem Reaches.trans {state middle final : State}
    (hfirst : Reaches allowed step state middle)
    (hsecond : Reaches allowed step middle final) :
    Reaches allowed step state final := by
  obtain ⟨first, hadmissible, hrun⟩ := hfirst
  obtain ⟨second, hadmissible', hrun'⟩ := hsecond
  refine ⟨first ++ second, hadmissible.append hrun hadmissible', ?_⟩
  rw [run_append, hrun]
  exact hrun'

theorem Reaches.single {state next : State} {label : Label}
    (hallowed : allowed state label) (hstep : step state label = .ok next) :
    Reaches allowed step state next := by
  refine ⟨[label], Admissible.single hallowed, ?_⟩
  rw [run, hstep]
  rfl

/-- When some allowed step leads on from every state that is not done, and
lowers a measure, a run leads to a state that is done. -/
theorem drains (invariant done : State → Prop) (measure : State → Nat)
    (hstep : ∀ state, invariant state → ¬ done state →
      ∃ label next, allowed state label ∧ step state label = .ok next ∧
        invariant next ∧ measure next < measure state)
    {state : State} (hinvariant : invariant state) :
    ∃ final, Reaches allowed step state final ∧ invariant final ∧
      done final := by
  induction hmeasure : measure state using Nat.strongRecOn
    generalizing state with
  | ind bound ih =>
      by_cases hdone : done state
      · exact ⟨state, Reaches.refl state, hinvariant, hdone⟩
      · obtain ⟨label, next, hallowed, hnext, hinvariant', hlt⟩ :=
          hstep state hinvariant hdone
        rw [hmeasure] at hlt
        obtain ⟨final, hreaches, hfinal⟩ := ih _ hlt hinvariant' rfl
        exact ⟨final, (Reaches.single hallowed hnext).trans hreaches, hfinal⟩

/-- Every state on the way is reached, and is good. -/
def Always (good : State → Prop) (step : State → Label → Except Fault State)
    (state : State) (labels : List Label) : Prop :=
  ∀ earlier, earlier <+: labels →
    ∃ reached, run step state earlier = .ok reached ∧ good reached

/-- When an owned step from a good state leads to a good one exactly if it is
allowed, a run is good all the way exactly if it is admissible. -/
theorem always_iff {good : State → Prop} {owned : State → Label → Prop}
    (hstep : ∀ state label, good state → owned state label →
      ∃ next, step state label = .ok next ∧
        (good next ↔ allowed state label))
    {state : State} (hgood : good state) {labels : List Label}
    (howned : Admissible owned step state labels) :
    Always good step state labels ↔
      Admissible allowed step state labels := by
  induction labels generalizing state with
  | nil =>
      refine ⟨fun _ => trivial, fun _ earlier hearlier => ?_⟩
      rw [List.prefix_nil.mp hearlier]
      exact ⟨state, rfl, hgood⟩
  | cons label rest ih =>
      obtain ⟨hlabel, hrest⟩ := howned
      obtain ⟨next, hnext, hiff⟩ := hstep state label hgood hlabel
      rw [hnext] at hrest
      rw [Admissible, hnext]
      constructor
      · intro halways
        have hgoodNext : good next := by
          obtain ⟨reached, hrun, hreached⟩ :=
            halways [label] ⟨rest, rfl⟩
          rw [run, hnext] at hrun
          cases hrun
          exact hreached
        refine ⟨hiff.mp hgoodNext, (ih hgoodNext hrest).mp ?_⟩
        intro earlier hearlier
        have hearlierCons : label :: earlier <+: label :: rest :=
          List.prefix_cons_inj label |>.mpr hearlier
        obtain ⟨reached, hrun, hreached⟩ := halways _ hearlierCons
        rw [run, hnext] at hrun
        exact ⟨reached, hrun, hreached⟩
      · rintro ⟨hallowed, hadmissible⟩ earlier hearlier
        have halways := (ih (hiff.mpr hallowed) hrest).mpr hadmissible
        cases earlier with
        | nil => exact ⟨state, rfl, hgood⟩
        | cons head tail =>
            obtain ⟨rfl, htail⟩ := List.cons_prefix_cons.mp hearlier
            obtain ⟨reached, hrun, hreached⟩ := halways tail htail
            refine ⟨reached, ?_, hreached⟩
            rw [run, hnext]
            exact hrun

end GuardedRun
