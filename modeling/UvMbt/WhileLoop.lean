/-
Loops without a bound of their own, run with fuel: a round goes on with a new
state or ends with a result.
-/
import Mathlib.Data.List.Basic

set_option autoImplicit false

namespace WhileLoop

universe u v

variable {State : Type u} {Result : Type v}

def run (round : State → Sum State Result) : Nat → State → Option Result
  | 0, _ => none
  | fuel + 1, state =>
      match round state with
      | .inl next => run round fuel next
      | .inr result => some result

/-- Enough fuel gives the result. -/
def Ends (runs : Nat → Option Result) (result : Result) : Prop :=
  ∃ enough, ∀ fuel, enough ≤ fuel → runs fuel = some result

variable {round : State → Sum State Result}

theorem run_succ {fuel : Nat} {state : State} {result : Result}
    (hrun : run round fuel state = some result) :
    run round (fuel + 1) state = some result := by
  induction fuel generalizing state with
  | zero => cases hrun
  | succ fuel ih =>
      rw [run] at hrun ⊢
      cases hround : round state with
      | inl next =>
          rw [hround] at hrun
          exact ih hrun
      | inr final =>
          rw [hround] at hrun
          exact hrun

/-- A loop that ended with some fuel ends with more. -/
theorem ends_of_run {enough : Nat} {state : State} {result : Result}
    (hrun : run round enough state = some result) :
    Ends (fun fuel => run round fuel state) result := by
  refine ⟨enough, ?_⟩
  intro fuel hfuel
  induction hfuel with
  | refl => exact hrun
  | step _ ih => exact run_succ ih

theorem Ends.unique {runs : Nat → Option Result} {first second : Result}
    (hfirst : Ends runs first) (hsecond : Ends runs second) :
    first = second := by
  obtain ⟨left, hleft⟩ := hfirst
  obtain ⟨right, hright⟩ := hsecond
  have hboth := hleft (max left right) (Nat.le_max_left _ _)
  rw [hright _ (Nat.le_max_right _ _)] at hboth
  exact (Option.some.inj hboth).symm

/-- The rule for a loop whose first rounds go through known states. -/
theorem run_of_follows (reached : Nat → State) {count : Nat}
    (hround : ∀ index, index < count →
      round (reached index) = .inl (reached (index + 1)))
    {result : Result} (hlast : round (reached count) = .inr result) :
    run round (count + 1) (reached 0) = some result := by
  induction count generalizing reached with
  | zero => rw [run, hlast]
  | succ count ih =>
      rw [run, hround 0 (Nat.succ_pos _)]
      apply ih (fun index => reached (index + 1))
      · intro index hindex
        exact hround (index + 1) (Nat.succ_lt_succ hindex)
      · exact hlast

end WhileLoop
