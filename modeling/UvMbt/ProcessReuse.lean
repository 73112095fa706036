/-
One `ProcessOptions` value and the children that are spawned from it: spawning
moves the exit callback out of the options.
-/
import UvMbt.MealyRun

set_option autoImplicit false

namespace UvMbt.ProcessReuse

open MealyRun

variable {Callback : Type}

/-- The field of the options that spawning changes. -/
structure ProcessOptions (Callback : Type) where
  exitCb : Option Callback
  deriving Repr, DecidableEq

structure Process (Callback : Type) where
  data : Option Callback
  deriving Repr, DecidableEq

/-- A child whose exit libuv may still report, or one that has exited or whose
handle was closed. -/
inductive Child (Callback : Type) where
  | running (process : Process Callback)
  | gone
  deriving Repr, DecidableEq

structure State (Callback : Type) where
  options : ProcessOptions Callback
  children : List (Child Callback)
  deriving Repr, DecidableEq

inductive Event where
  | spawn (accepted : Bool)
  | exit (child : Nat) (exitStatus termSignal : Int)
  | close (child : Nat)
  deriving Repr, DecidableEq

/-- A call of an exit callback. -/
structure ExitCall (Callback : Type) where
  child : Nat
  cb : Callback
  exitStatus : Int
  termSignal : Int
  deriving Repr, DecidableEq

/-- What an event leads to: of a refused spawn, whether it leaves the options
as they were, and of an exit, the calls. -/
inductive Reaction (Callback : Type) where
  | spawned
  | refused (unchanged : Bool)
  | exited (calls : List (ExitCall Callback))
  | closed
  deriving Repr, DecidableEq

section Code

/-- `ProcessOptions::new`, which always sets an exit callback. -/
def ProcessOptions.new (exitCb : Callback) : ProcessOptions Callback :=
  ⟨some exitCb⟩

/-- `uv_process_make` and `moonbit_uv_spawn`, whatever libuv answers and on
whatever loop: the field of the options holds the trampoline during the call
and is `NULL` after it. -/
def uvSpawn (options : ProcessOptions Callback) :
    ProcessOptions Callback × Process Callback :=
  let process : Process Callback := ⟨none⟩
  let process := if options.exitCb.isSome then ⟨options.exitCb⟩ else process
  (⟨none⟩, process)

/-- `moonbit_uv_exit_cb`. -/
def exitCb (process : Process Callback) (child : Nat)
    (exitStatus termSignal : Int) :
    Process Callback × List (ExitCall Callback) :=
  match process.data with
  | some cb => (⟨none⟩, [⟨child, cb, exitStatus, termSignal⟩])
  | none => (process, [])

/-- A new child, or the error that `Loop::spawn` raises. -/
def step [DecidableEq Callback] (s : State Callback) :
    Event → State Callback × Reaction Callback
  | .spawn accepted =>
      let (options, process) := uvSpawn s.options
      if accepted then
        (⟨options, s.children ++ [.running process]⟩, .spawned)
      else
        (⟨options, s.children⟩, .refused (options = s.options))
  | .exit child exitStatus termSignal =>
      match s.children[child]? with
      | some (.running process) =>
          let (_, calls) := exitCb process child exitStatus termSignal
          (⟨s.options, s.children.set child .gone⟩, .exited calls)
      | _ => (s, .exited [])
  | .close child => (⟨s.options, s.children.set child .gone⟩, .closed)

end Code

section Promise

/-- What the options promise: a refused spawn changes nothing, and every child
that runs reports its exit to the callback. -/
def promise (cb : Callback) (running : List Bool) :
    Event → List Bool × Reaction Callback
  | .spawn true => (running ++ [true], .spawned)
  | .spawn false => (running, .refused true)
  | .exit child exitStatus termSignal =>
      if running[child]? = some true then
        (running.set child false,
          .exited [⟨child, cb, exitStatus, termSignal⟩])
      else (running, .exited [])
  | .close child => (running.set child false, .closed)

/-- Every event has the consequences that the options promise. -/
def Kept [DecidableEq Callback] (cb : Callback) (events : List Event) : Prop :=
  outputs step ⟨.new cb, []⟩ events = outputs (promise cb) [] events

/-- Forbids a first spawn that is refused, and the exit of a child other than
the first. -/
def firstOnly (running : List Bool) : Event → Option (List Bool)
  | .spawn true => some (running ++ [true])
  | .spawn false => if running = [] then none else some running
  | .exit child _ _ =>
      if running[child]? = some true then
        if child = 0 then some (running.set child false) else none
      else some running
  | .close child => some (running.set child false)

/-- The first spawn succeeds, and of the later children none exits. -/
def OnlyFirstExits (events : List Event) : Prop :=
  Along firstOnly [] events

end Promise

section Proofs

/-- A child by its place and by whether it runs. -/
def childAt (cb : Callback) (child : Nat) (running : Bool) : Child Callback :=
  if running then .running ⟨if child = 0 then some cb else none⟩ else .gone

/-- The state, once the first spawn has not been refused. -/
def reached (cb : Callback) (running : List Bool) : State Callback :=
  ⟨⟨if running = [] then some cb else none⟩, running.mapIdx (childAt cb)⟩

theorem uvSpawn_eq (options : ProcessOptions Callback) :
    uvSpawn options = (⟨none⟩, ⟨options.exitCb⟩) := by
  cases options with
  | mk exitCb => cases exitCb <;> rfl

theorem reached_close (cb : Callback) (running : List Bool) (child : Nat) :
    State.mk (reached cb running).options
        ((reached cb running).children.set child .gone) =
      reached cb (running.set child false) := by
  have hempty : running.set child false = [] ↔ running = [] := by
    cases running <;> cases child <;> simp
  simp only [reached, hempty, List.mapIdx_set]
  rfl

variable [DecidableEq Callback]

theorem step_spawn (cb : Callback) (running : List Bool) :
    step (reached cb running) (.spawn true) =
      (reached cb (running ++ [true]), .spawned) := by
  cases running with
  | nil => rfl
  | cons first rest =>
      simp [step, uvSpawn_eq, reached, childAt, List.mapIdx_append]

theorem step_refused (cb : Callback) {running : List Bool}
    (hrunning : running ≠ []) :
    step (reached cb running) (.spawn false) =
      (reached cb running, .refused true) := by
  simp [step, uvSpawn_eq, reached, hrunning]

/-- A first spawn that is refused has lost the callback. -/
theorem step_refused_first (cb : Callback) :
    step (reached cb []) (.spawn false) = (⟨⟨none⟩, []⟩, .refused false) := by
  simp [step, uvSpawn_eq, reached]

theorem step_exit {cb : Callback} {running : List Bool} {child : Nat}
    (hchild : running[child]? = some true) (exitStatus termSignal : Int) :
    step (reached cb running) (.exit child exitStatus termSignal) =
      (reached cb (running.set child false), .exited
        (if child = 0 then [⟨child, cb, exitStatus, termSignal⟩] else [])) := by
  have hrunning : (reached cb running).children[child]? =
      some (.running ⟨if child = 0 then some cb else none⟩) := by
    simp [reached, List.getElem?_mapIdx, hchild, childAt]
  rw [← reached_close]
  simp only [step, hrunning]
  by_cases hfirst : child = 0 <;> simp [exitCb, hfirst]

theorem step_exit_gone {cb : Callback} {running : List Bool} {child : Nat}
    (hchild : running[child]? ≠ some true) (exitStatus termSignal : Int) :
    step (reached cb running) (.exit child exitStatus termSignal) =
      (reached cb running, .exited []) := by
  cases hrunning : running[child]? with
  | none =>
      have hnone : (reached cb running).children[child]? = none := by
        simp [reached, List.getElem?_mapIdx, hrunning]
      simp [step, hnone]
  | some runs =>
      cases runs with
      | true => exact absurd hrunning hchild
      | false =>
          have hgone : (reached cb running).children[child]? = some .gone := by
            simp [reached, List.getElem?_mapIdx, hrunning, childAt]
          simp [step, hgone]

/-- The state and the promise as long as the monitor is kept to. -/
def Agree (cb : Callback) (running : List Bool) (s : State Callback)
    (promised : List Bool) : Prop :=
  s = reached cb running ∧ promised = running

theorem agree_step (cb : Callback) (running after : List Bool) (event : Event)
    (s : State Callback) (promised : List Bool)
    (hagree : Agree cb running s promised)
    (hnext : firstOnly running event = some after) :
    (step s event).2 = (promise cb promised event).2 ∧
      Agree cb after (step s event).1 (promise cb promised event).1 := by
  rcases hagree with ⟨rfl, rfl⟩
  cases event with
  | spawn accepted =>
      cases accepted with
      | true =>
          cases hnext
          rw [step_spawn]
          exact ⟨rfl, rfl, rfl⟩
      | false =>
          by_cases hempty : promised = []
          · simp [firstOnly, hempty] at hnext
          · rw [firstOnly, if_neg hempty] at hnext
            cases hnext
            rw [step_refused cb hempty]
            exact ⟨rfl, rfl, rfl⟩
  | exit child exitStatus termSignal =>
      by_cases hchild : promised[child]? = some true
      · by_cases hfirst : child = 0
        · rw [firstOnly, if_pos hchild, if_pos hfirst] at hnext
          cases hnext
          rw [step_exit hchild, promise, if_pos hchild, if_pos hfirst]
          exact ⟨rfl, rfl, rfl⟩
        · simp [firstOnly, hchild, hfirst] at hnext
      · rw [firstOnly, if_neg hchild] at hnext
        cases hnext
        rw [step_exit_gone hchild, promise, if_neg hchild]
        exact ⟨rfl, rfl, rfl⟩
  | close child =>
      cases hnext
      exact ⟨rfl, reached_close cb promised child, rfl⟩

/-- An event that the monitor forbids has other consequences than promised. -/
theorem agree_of_same (cb : Callback) (running : List Bool) (event : Event)
    (s : State Callback) (promised : List Bool)
    (hagree : Agree cb running s promised) (_husual : True)
    (hsame : (step s event).2 = (promise cb promised event).2) :
    ∃ after, firstOnly running event = some after ∧
      Agree cb after (step s event).1 (promise cb promised event).1 := by
  have hallowed : ∃ after, firstOnly running event = some after := by
    rcases hagree with ⟨rfl, rfl⟩
    cases event with
    | spawn accepted =>
        cases accepted with
        | true => exact ⟨_, rfl⟩
        | false =>
            by_cases hempty : promised = []
            · subst hempty
              rw [step_refused_first] at hsame
              cases hsame
            · exact ⟨promised, if_neg hempty⟩
    | exit child exitStatus termSignal =>
        by_cases hchild : promised[child]? = some true
        · by_cases hfirst : child = 0
          · exact ⟨promised.set child false, by
              rw [firstOnly, if_pos hchild, if_pos hfirst]⟩
          · rw [step_exit hchild, promise, if_pos hchild, if_neg hfirst] at hsame
            cases hsame
        · exact ⟨promised, if_neg hchild⟩
    | close child => exact ⟨_, rfl⟩
  rcases hallowed with ⟨after, hnext⟩
  exact ⟨after, hnext, (agree_step cb running after event s promised hagree
    hnext).2⟩

/-- The options keep what they promise exactly in the runs in which the first
spawn succeeds and no later child exits. -/
theorem kept_iff (cb : Callback) (events : List Event) :
    Kept cb events ↔ OnlyFirstExits events := by
  have hnew : Agree cb [] ⟨.new cb, []⟩ [] := ⟨rfl, rfl⟩
  constructor
  · intro hkept
    exact along_of_outputs_eq (Agree cb) (agree_of_same cb) hnew
      (fun _ _ => trivial) hkept
  · intro honly
    exact outputs_eq_of_along (Agree cb) (agree_step cb) hnew honly

end Proofs

/-- Two children of the same options, and a spawn that is tried again. -/
def spawnTwice : List Event :=
  [.spawn true, .spawn true, .exit 0 0 0, .exit 1 3 0]

def spawnAgain : List Event := [.spawn false, .spawn true, .exit 0 0 0]

theorem spawnTwice_spawnAgain_miss :
    outputs step ⟨.new 7, []⟩ spawnTwice =
        [.spawned, .spawned, .exited [⟨0, 7, 0, 0⟩], .exited []] ∧
      ¬ Kept 7 spawnTwice ∧
      outputs step ⟨.new 7, []⟩ spawnAgain =
        [.refused false, .spawned, .exited []] ∧
      ¬ Kept 7 spawnAgain := by
  refine ⟨rfl, ?_, rfl, ?_⟩ <;> rw [Kept] <;> decide

end UvMbt.ProcessReuse
