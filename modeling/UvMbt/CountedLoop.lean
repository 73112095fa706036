/-
Loops over an index range whose body can fail, and arrays that such a loop
fills from the front.
-/
import Mathlib.Data.List.Basic

set_option autoImplicit false

namespace CountedLoop

universe u v w

variable {State : Type u} {Source : Type v} {Value : Type w}

/-- `for i in start..<start + count`. -/
def loop (body : Nat → State → Option State) :
    Nat → Nat → State → Option State
  | _, 0, state => some state
  | start, count + 1, state =>
      match body start state with
      | none => none
      | some next => loop body (start + 1) count next

/-- The loop rule: the invariant speaks of the next index. -/
theorem loop_invariant {body : Nat → State → Option State}
    (invariant : Nat → State → Prop) {start count : Nat}
    (hbody : ∀ index state, start ≤ index → index < start + count →
      invariant index state →
      ∃ next, body index state = some next ∧ invariant (index + 1) next)
    {state : State} (hstart : invariant start state) :
    ∃ final, loop body start count state = some final ∧
      invariant (start + count) final := by
  induction count generalizing start state with
  | zero => exact ⟨state, rfl, hstart⟩
  | succ count ih =>
      rcases hbody start state (Nat.le_refl _) (by omega) hstart with
        ⟨next, hnext, hinvariant⟩
      have hrest : ∃ final, loop body (start + 1) count next = some final ∧
          invariant (start + 1 + count) final := by
        apply ih _ hinvariant
        intro index state hlow hhigh
        exact hbody index state (by omega) (by omega)
      rcases hrest with ⟨final, hloop, hfinal⟩
      refine ⟨final, ?_, ?_⟩
      · rw [loop, hnext]
        exact hloop
      · have hsum : start + (count + 1) = start + 1 + count := by omega
        rw [hsum]
        exact hfinal

/-- A loop over a whole array whose body can only do what is asked of it. -/
theorem loop_eq (body : Nat → State → Option State)
    (reached : Nat → State) (count : Nat)
    (hbody : ∀ index, index < count →
      body index (reached index) = some (reached (index + 1))) :
    loop body 0 count (reached 0) = some (reached count) := by
  have hloop : ∃ final, loop body 0 count (reached 0) = some final ∧
      final = reached (0 + count) := by
    apply loop_invariant (fun index state => state = reached index)
    · rintro index state - hindex rfl
      exact ⟨_, hbody index (by omega), rfl⟩
    · rfl
  rcases hloop with ⟨final, hfinal, rfl⟩
  rw [hfinal, Nat.zero_add]

/-- `array[index] = value`, within the bounds. -/
def setAt (values : List Value) (index : Nat) (value : Value) :
    Option (List Value) :=
  if index < values.length then some (values.set index value) else none

/-- An array of which the loop has filled what lies before an index. -/
def progress (done todo : Source → Value) (sources : List Source)
    (index : Nat) : List Value :=
  (sources.take index).map done ++ (sources.drop index).map todo

variable {done todo : Source → Value} {sources : List Source}

theorem progress_zero : progress done todo sources 0 = sources.map todo := by
  simp [progress]

theorem progress_length :
    progress done todo sources sources.length = sources.map done := by
  simp [progress]

theorem length_progress (index : Nat) :
    (progress done todo sources index).length = sources.length := by
  simp only [progress, List.length_append, List.length_map, List.length_take,
    List.length_drop]
  omega

theorem getElem?_progress {index : Nat} {source : Source}
    (hsource : sources[index]? = some source) :
    (progress done todo sources index)[index]? = some (todo source) := by
  rcases List.getElem?_eq_some_iff.mp hsource with ⟨hindex, rfl⟩
  have hlength : ((sources.take index).map done).length = index := by
    simp [Nat.min_eq_left (Nat.le_of_lt hindex)]
  rw [progress, List.getElem?_append_right (Nat.le_of_eq hlength), hlength,
    Nat.sub_self, List.drop_eq_getElem_cons hindex]
  rfl

theorem set_progress {index : Nat} {source : Source}
    (hsource : sources[index]? = some source) :
    (progress done todo sources index).set index (done source) =
      progress done todo sources (index + 1) := by
  rcases List.getElem?_eq_some_iff.mp hsource with ⟨hindex, rfl⟩
  have hlength : ((sources.take index).map done).length = index := by
    simp [Nat.min_eq_left (Nat.le_of_lt hindex)]
  rw [progress, progress, List.set_append_right _ _ (by omega), hlength,
    Nat.sub_self, List.drop_eq_getElem_cons hindex, List.map_cons,
    List.set_cons_zero, List.take_succ_eq_append_getElem hindex,
    List.map_append, List.append_assoc]
  rfl

theorem setAt_progress (done todo : Source → Value) {index : Nat}
    {source : Source} (hsource : sources[index]? = some source) :
    setAt (progress done todo sources index) index (done source) =
      some (progress done todo sources (index + 1)) := by
  have hindex := (List.getElem?_eq_some_iff.mp hsource).choose
  rw [setAt, if_pos (by rw [length_progress]; exact hindex),
    set_progress hsource]

theorem set_self {values : List Value} {index : Nat} {value : Value}
    (hvalue : values[index]? = some value) :
    values.set index value = values := by
  rcases List.getElem?_eq_some_iff.mp hvalue with ⟨hindex, rfl⟩
  exact List.set_getElem_self hindex

end CountedLoop
