/-
A thread-local key.  Its slots hold what the casts of `@c.Pointer` make of a
value, which the key neither counts nor tells from the null pointer.
-/
import UvMbt.GuardedRun
import UvMbt.Ledger
import UvMbt.RefHeap

set_option autoImplicit false

namespace UvMbt.ThreadKey

open GuardedRun (Admissible Always)
open RefHeap

/-- The representation of a value in a machine word: bits that are not
counted, or a pointer to a counted object. -/
inductive Word where
  | plain (bits : UInt64)
  | object (addr : Addr)
  deriving Repr, DecidableEq

namespace Word

def null : Word := .plain 0

/-- The references of a value. -/
def owned : Word → List Addr
  | .plain _ => []
  | .object addr => [addr]

end Word

/-- `Pointer::unsafe_from` and `unsafe_into` at a type of values. -/
structure Casts (T : Type) where
  unsafeFrom : T → Word
  unsafeInto : Word → T
  cast : ∀ value, unsafeInto (unsafeFrom value) = value

/-- The objects: the key, and values with the references in their fields. -/
inductive Obj where
  | key
  | data (fields : List Addr)
  deriving Repr, DecidableEq

instance : Ownership Obj where
  drops
    | .key => []
    | .data fields => fields
  leaks _ := []

/-- The first object is the key. -/
def keyAddr : Addr := 0

variable {T : Type}

inductive Event (T : Type) where
  | set (thread : Nat) (value : T)
  | get (thread : Nat) (answer : Option T)

/-- The heap, the references that the program owns besides the one to the key,
the slot of the key in every thread, and the calls so far, the last one
first. -/
structure State (T : Type) where
  heap : Heap Obj
  user : Multiset Addr
  slots : List Word
  calls : List (Event T)

section Code

/-- `moonbit_uv_key_get`, which owns its key. -/
def uvKeyGet (heap : Heap Obj) (slots : List Word) (thread : Nat) :
    Except Fault (Heap Obj × Word) := do
  let value := slots.getD thread .null
  let heap ← heap.decref keyAddr
  return (heap, value)

/-- `moonbit_uv_key_set`, which owns its key and the value. -/
def uvKeySet (heap : Heap Obj) (slots : List Word) (thread : Nat)
    (value : Word) : Except Fault (Heap Obj × List Word) := do
  let slots := slots.set thread value
  let heap ← heap.decref keyAddr
  return (heap, slots)

/-- `Key::get`; the caller keeps its reference to the key. -/
def get (casts : Casts T) (state : State T) (thread : Nat) :
    Except Fault (State T × Option T) := do
  let heap ← state.heap.incref keyAddr
  let (heap, ptr) ← uvKeyGet heap state.slots thread
  if ptr = .null then return ({ state with heap }, none)
  else
    let value := casts.unsafeInto ptr
    return ({ state with
      heap
      user := ↑(casts.unsafeFrom value).owned + state.user }, some value)

/-- `Key::set`; the value is moved out of the program. -/
def set (casts : Casts T) (state : State T) (thread : Nat) (value : T) :
    Except Fault (State T) := do
  let heap ← state.heap.incref keyAddr
  let word := casts.unsafeFrom value
  let (heap, slots) ← uvKeySet heap state.slots thread word
  return { state with heap, slots, user := state.user - ↑word.owned }

end Code

section Program

/-- What the program does: it starts a thread, makes an object out of
references that it owns, copies or drops a reference, and calls the key. -/
inductive Label (T : Type) where
  | spawn
  | make (fields : List Addr)
  | dup (addr : Addr)
  | drop (addr : Addr)
  | set (thread : Nat) (value : T)
  | get (thread : Nat)

def step (casts : Casts T) (state : State T) :
    Label T → Except Fault (State T)
  | .spawn => .ok { state with slots := state.slots ++ [.null] }
  | .make fields =>
      let (heap, addr) := state.heap.alloc (.data fields)
      .ok { state with heap, user := addr ::ₘ (state.user - ↑fields) }
  | .dup addr => do
      let heap ← state.heap.incref addr
      return { state with heap, user := addr ::ₘ state.user }
  | .drop addr => do
      let heap ← state.heap.decref addr
      return { state with heap, user := state.user.erase addr }
  | .set thread value => do
      let state ← set casts state thread value
      return { state with calls := .set thread value :: state.calls }
  | .get thread => do
      let (state, answer) ← get casts state thread
      return { state with calls := .get thread answer :: state.calls }

/-- A new key in the first thread. -/
def start : State T where
  heap := (Heap.empty.alloc Obj.key).1
  user := 0
  slots := [.null]
  calls := []

/-- The program only gives away references that it owns, and only runs threads
that it started. -/
def Owned (casts : Casts T) (state : State T) : Label T → Prop
  | .spawn => True
  | .make fields => (↑fields : Multiset Addr) ≤ state.user
  | .dup addr | .drop addr => addr ∈ state.user
  | .set thread value => thread < state.slots.length ∧
      (↑(casts.unsafeFrom value).owned : Multiset Addr) ≤ state.user
  | .get thread => thread < state.slots.length

end Program

section Statement

/-- The value that a thread set last. -/
def lastSet : List (Event T) → Nat → Option T
  | [], _ => none
  | .set setter value :: earlier, thread =>
      if thread = setter then some value else lastSet earlier thread
  | .get _ _ :: earlier, thread => lastSet earlier thread

/-- Every get answered with the value that its thread had set last. -/
def Answered : List (Event T) → Prop
  | [] => True
  | .set _ _ :: earlier => Answered earlier
  | .get thread answer :: earlier =>
      answer = lastSet earlier thread ∧ Answered earlier

/-- The representation of what a thread set last. -/
def stored (casts : Casts T) (calls : List (Event T)) (thread : Nat) : Word :=
  match lastSet calls thread with
  | none => .null
  | some value => casts.unsafeFrom value

/-- The owners: the program, with its reference to the key, and the slots. -/
def ledger (user : Multiset Addr) (slots : List Word) : Multiset Addr :=
  keyAddr ::ₘ (user + ↑(slots.flatMap Word.owned))

/-- Every slot has the value that its thread set last, all gets were right, and
the count of every object is the number of its owners: what is stored is
alive, what was replaced is released, and what a get handed out is owned. -/
structure Right (casts : Casts T) (state : State T) : Prop where
  slots_eq : ∀ thread,
    state.slots.getD thread .null = stored casts state.calls thread
  answered : Answered state.calls
  balanced : Balanced state.heap (ledger state.user state.slots)

/-- A thread that has set an object calls the key no more, and one that has set
the null pointer does not get it. -/
def Meets (casts : Casts T) (state : State T) : Label T → Prop
  | .set thread _ => ∀ value ∈ lastSet state.calls thread,
      (casts.unsafeFrom value).owned = []
  | .get thread => ∀ value ∈ lastSet state.calls thread,
      (casts.unsafeFrom value).owned = [] ∧ casts.unsafeFrom value ≠ .null
  | _ => True

instance decidableOwned (casts : Casts T) (state : State T) :
    ∀ label, Decidable (Owned casts state label)
  | .spawn => isTrue trivial
  | .make fields =>
      inferInstanceAs (Decidable ((↑fields : Multiset Addr) ≤ state.user))
  | .dup addr | .drop addr => inferInstanceAs (Decidable (addr ∈ state.user))
  | .set thread value => inferInstanceAs (Decidable (
      thread < state.slots.length ∧
        (↑(casts.unsafeFrom value).owned : Multiset Addr) ≤ state.user))
  | .get thread => inferInstanceAs (Decidable (thread < state.slots.length))

instance decidableMeets (casts : Casts T) (state : State T) :
    ∀ label, Decidable (Meets casts state label)
  | .spawn | .make _ | .dup _ | .drop _ => isTrue trivial
  | .set thread _ => inferInstanceAs (Decidable (
      ∀ value ∈ lastSet state.calls thread,
        (casts.unsafeFrom value).owned = []))
  | .get thread => inferInstanceAs (Decidable (
      ∀ value ∈ lastSet state.calls thread,
        (casts.unsafeFrom value).owned = [] ∧
          casts.unsafeFrom value ≠ .null))

end Statement

section Slots

variable {slots : List Word} {thread other : Nat} {word : Word}

theorem getD_set (hthread : thread < slots.length) :
    (slots.set thread word).getD other .null =
      if other = thread then word else slots.getD other .null := by
  rw [List.getD_eq_getElem?_getD, List.getD_eq_getElem?_getD]
  by_cases heq : other = thread
  · subst heq
    rw [if_pos rfl, List.getElem?_set_self hthread, Option.getD_some]
  · rw [if_neg heq, List.getElem?_set_ne (Ne.symm heq)]

/-- A new thread has not set the key. -/
theorem getD_spawn :
    (slots ++ [Word.null]).getD thread .null = slots.getD thread .null := by
  rw [List.getD_eq_getElem?_getD, List.getD_eq_getElem?_getD]
  rcases Nat.lt_trichotomy thread slots.length with hlt | rfl | hgt
  · rw [List.getElem?_append_left hlt]
  · rw [List.getElem?_concat_length,
      List.getElem?_eq_none (Nat.le_refl _)]
    rfl
  · have hlength : (slots ++ [Word.null]).length ≤ thread := by
      rw [List.length_append]
      exact hgt
    rw [List.getElem?_eq_none hlength,
      List.getElem?_eq_none (Nat.le_of_lt hgt)]

theorem getElem?_getD (hthread : thread < slots.length) :
    slots[thread]? = some (slots.getD thread .null) := by
  rw [List.getD_eq_getElem?_getD, List.getElem?_eq_getElem hthread,
    Option.getD_some]

/-- The references in the slots when one of them is overwritten. -/
theorem owned_set (hthread : thread < slots.length) :
    (↑((slots.set thread word).flatMap Word.owned) : Multiset Addr) +
        ↑(slots.getD thread .null).owned =
      ↑(slots.flatMap Word.owned) + ↑word.owned := by
  apply Multiset.ext.mpr
  intro target
  rw [Multiset.count_add, Multiset.count_add, Multiset.coe_count,
    Multiset.coe_count, Multiset.coe_count, Multiset.coe_count]
  exact Ledger.count_set Word.owned word (getElem?_getD hthread) target

theorem ledger_add (extra user : Multiset Addr) (slots : List Word) :
    ledger (extra + user) slots = extra + ledger user slots := by
  rw [ledger, ledger, Multiset.add_cons, add_assoc]

/-- A value moves from the program to a slot. -/
theorem ledger_set {user : Multiset Addr} (hthread : thread < slots.length)
    (howned : (↑word.owned : Multiset Addr) ≤ user) :
    ledger (user - ↑word.owned) (slots.set thread word) +
        ↑(slots.getD thread .null).owned = ledger user slots := by
  rw [ledger, ledger, Multiset.cons_add, add_assoc, owned_set hthread,
    add_comm (↑(slots.flatMap Word.owned) : Multiset Addr), ← add_assoc,
    Multiset.sub_add_cancel howned]

end Slots

section Steps

variable {casts : Casts T} {state : State T}

theorem Right.touch (hright : Right casts state) :
    ∃ mid, state.heap.incref keyAddr = .ok mid ∧
      mid.decref keyAddr = .ok state.heap :=
  incref_decref hright.balanced (Multiset.mem_cons_self _ _)

/-- What a get does: it hands out the slot, without a reference. -/
theorem Right.get_eq (hright : Right casts state) (thread : Nat) :
    get casts state thread =
      .ok (if stored casts state.calls thread = .null then (state, none)
        else ({ state with
          user := ↑(stored casts state.calls thread).owned + state.user },
            lastSet state.calls thread)) := by
  obtain ⟨mid, hincref, hdecref⟩ := hright.touch
  have hslot := hright.slots_eq thread
  simp only [get, uvKeyGet, hincref, hdecref, hslot, bind, Except.bind, pure,
    Except.pure]
  rw [stored]
  cases hlast : lastSet state.calls thread with
  | none => rfl
  | some value =>
      by_cases hnull : casts.unsafeFrom value = .null
      · simp only [hnull, ↓reduceIte]
      · simp only [hnull, ↓reduceIte, casts.cast]

/-- What a set does: it overwrites the slot, with no count but that of the
key. -/
theorem Right.set_eq (hright : Right casts state) (thread : Nat) (value : T) :
    set casts state thread value =
      .ok { state with
        user := state.user - ↑(casts.unsafeFrom value).owned
        slots := state.slots.set thread (casts.unsafeFrom value) } := by
  obtain ⟨mid, hincref, hdecref⟩ := hright.touch
  simp only [set, uvKeySet, hincref, hdecref, bind, Except.bind, pure,
    Except.pure]

/-- A get that is right about its answer adds an owner. -/
theorem Right.get_right (hright : Right casts state) {thread : Nat}
    {value : T} (hlast : lastSet state.calls thread = some value) :
    Right casts { state with
        user := ↑(casts.unsafeFrom value).owned + state.user
        calls := .get thread (some value) :: state.calls } ↔
      (casts.unsafeFrom value).owned = [] := by
  constructor
  · intro hnext
    have hsame := hnext.balanced.ledger_unique hright.balanced
    rw [ledger_add] at hsame
    exact (Multiset.coe_eq_zero _).mp (add_eq_right.mp hsame)
  · intro howned
    constructor
    · exact hright.slots_eq
    · exact ⟨hlast.symm, hright.answered⟩
    · rw [ledger_add, howned]
      exact hright.balanced.congr (zero_add _).symm

theorem Right.get_step (hright : Right casts state) (thread : Nat) :
    ∃ next, step casts state (.get thread) = .ok next ∧
      (Right casts next ↔ Meets casts state (.get thread)) := by
  have hget := hright.get_eq thread
  have hstored : stored casts state.calls thread =
      match lastSet state.calls thread with
      | none => .null
      | some value => casts.unsafeFrom value := rfl
  simp only [step, hget, bind, Except.bind, pure, Except.pure, Meets]
  cases hlast : lastSet state.calls thread with
  | none =>
      rw [hlast] at hstored
      rw [if_pos hstored]
      refine ⟨_, rfl, ?_⟩
      simp only [Option.mem_def, reduceCtorEq, false_implies, implies_true,
        iff_true]
      exact ⟨hright.slots_eq, ⟨hlast.symm, hright.answered⟩,
        hright.balanced⟩
  | some value =>
      rw [hlast] at hstored
      simp only [Option.mem_def, Option.some.injEq, forall_eq', hstored]
      by_cases hnull : casts.unsafeFrom value = .null
      · rw [if_pos hnull]
        refine ⟨_, rfl, ?_⟩
        constructor
        · intro hnext
          have hanswer := hnext.answered.1
          rw [hlast] at hanswer
          cases hanswer
        · intro hmeets
          exact absurd hnull hmeets.2
      · rw [if_neg hnull]
        refine ⟨_, rfl, ?_⟩
        rw [and_iff_left hnull]
        exact hright.get_right hlast

theorem Right.set_step (hright : Right casts state) {thread : Nat} {value : T}
    (howned : Owned casts state (.set thread value)) :
    ∃ next, step casts state (.set thread value) = .ok next ∧
      (Right casts next ↔ Meets casts state (.set thread value)) := by
  obtain ⟨hthread, hle⟩ := howned
  have hset := hright.set_eq thread value
  simp only [step, hset, bind, Except.bind, pure, Except.pure]
  refine ⟨_, rfl, ?_⟩
  have hledger := ledger_set hthread hle
  rw [hright.slots_eq] at hledger
  have hmeets : Meets casts state (.set thread value) ↔
      (stored casts state.calls thread).owned = [] := by
    rw [Meets, stored]
    cases lastSet state.calls thread with
    | none => simp [Word.null, Word.owned]
    | some old => simp
  rw [hmeets]
  constructor
  · intro hnext
    have hsame := hnext.balanced.ledger_unique hright.balanced
    rw [← hledger] at hsame
    exact (Multiset.coe_eq_zero _).mp (left_eq_add.mp hsame)
  · intro hnothing
    constructor
    · intro other
      rw [getD_set hthread, stored, lastSet]
      by_cases heq : other = thread
      · rw [if_pos heq, if_pos heq]
      · rw [if_neg heq, if_neg heq]
        exact hright.slots_eq other
    · exact hright.answered
    · rw [hnothing] at hledger
      exact hright.balanced.congr (by rw [← hledger]; exact add_zero _)

theorem Right.spawn (hright : Right casts state) :
    Right casts { state with slots := state.slots ++ [.null] } := by
  constructor
  · intro thread
    rw [getD_spawn]
    exact hright.slots_eq thread
  · exact hright.answered
  · apply hright.balanced.congr
    rw [ledger, ledger, List.flatMap_append, List.flatMap_singleton,
      Word.null, Word.owned, List.append_nil]

theorem Right.make (hright : Right casts state) {fields : List Addr}
    (howned : (↑fields : Multiset Addr) ≤ state.user) :
    Right casts { state with
      heap := (state.heap.alloc (.data fields)).1
      user := state.heap.cells.length ::ₘ (state.user - ↑fields) } := by
  constructor
  · exact hright.slots_eq
  · exact hright.answered
  · have hrefs : refs (Obj.data fields) = fields := List.append_nil fields
    have hledger : ledger state.user state.slots =
        ↑(refs (Obj.data fields)) +
          ledger (state.user - ↑fields) state.slots := by
      rw [← ledger_add, hrefs, add_comm, Multiset.sub_add_cancel howned]
    have hnext := (alloc_spec (hright.balanced.congr hledger)).1
    apply hnext.congr
    rw [← Multiset.singleton_add, ← Multiset.singleton_add, ledger_add]

theorem Right.dup (hright : Right casts state) {addr : Addr}
    (howned : addr ∈ state.user) :
    ∃ heap, state.heap.incref addr = .ok heap ∧
      Right casts { state with heap, user := addr ::ₘ state.user } := by
  have hmem : addr ∈ ledger state.user state.slots :=
    Multiset.mem_cons_of_mem (Multiset.mem_add.mpr (Or.inl howned))
  obtain ⟨heap, hincref, hbalanced, _⟩ :=
    incref_spec hright.balanced (hright.balanced.live hmem)
  refine ⟨heap, hincref, hright.slots_eq, hright.answered, ?_⟩
  apply hbalanced.congr
  rw [← Multiset.singleton_add, ← Multiset.singleton_add, ledger_add]

theorem Right.drop (hright : Right casts state) {addr : Addr}
    (howned : addr ∈ state.user) :
    ∃ heap, state.heap.decref addr = .ok heap ∧
      Right casts { state with heap, user := state.user.erase addr } := by
  have hledger : ledger state.user state.slots =
      addr ::ₘ ledger (state.user.erase addr) state.slots := by
    rw [← Multiset.singleton_add, ← ledger_add, Multiset.singleton_add,
      Multiset.cons_erase howned]
  obtain ⟨heap, hdecref, hbalanced⟩ :=
    decref_spec (hright.balanced.congr hledger)
  exact ⟨heap, hdecref, hright.slots_eq, hright.answered, hbalanced⟩

/-- A step of the program leads to a right state exactly if it meets the
condition. -/
theorem Right.step_iff (hright : Right casts state) {label : Label T}
    (howned : Owned casts state label) :
    ∃ next, step casts state label = .ok next ∧
      (Right casts next ↔ Meets casts state label) := by
  cases label with
  | spawn => exact ⟨_, rfl, iff_of_true hright.spawn trivial⟩
  | make fields => exact ⟨_, rfl, iff_of_true (hright.make howned) trivial⟩
  | dup addr =>
      obtain ⟨heap, hincref, hnext⟩ := hright.dup howned
      refine ⟨_, ?_, iff_of_true hnext trivial⟩
      simp only [step, hincref, bind, Except.bind, pure, Except.pure]
  | drop addr =>
      obtain ⟨heap, hdecref, hnext⟩ := hright.drop howned
      refine ⟨_, ?_, iff_of_true hnext trivial⟩
      simp only [step, hdecref, bind, Except.bind, pure, Except.pure]
  | set thread value => exact hright.set_step howned
  | get thread => exact hright.get_step thread

theorem right_start (casts : Casts T) : Right casts start := by
  constructor
  · intro thread
    cases thread with
    | zero => rfl
    | succ thread => rfl
  · trivial
  · have hempty : Balanced (Heap.empty : Heap Obj) (↑(refs Obj.key) + 0) := by
      constructor
      · intro addr
        rfl
      · intro addr cell hcell
        cases hcell
    exact (alloc_spec hempty).1.congr rfl

end Steps

/-- Through a whole run all gets are right and all counts are those of the
owners, exactly when no thread that set an object calls the key again and none
that set the null pointer gets it. -/
theorem always_right_iff (casts : Casts T) (labels : List (Label T))
    (howned : Admissible (Owned casts) (step casts) start labels) :
    Always (Right casts) (step casts) start labels ↔
      Admissible (Meets casts) (step casts) start labels :=
  GuardedRun.always_iff
    (fun _ _ hright howned => hright.step_iff howned)
    (right_start casts) howned

/-- Values that are their own representation. -/
def wordCasts : Casts Word := ⟨id, id, fun _ => rfl⟩

theorem always_right_plain :
    Always (Right wordCasts) (step wordCasts) start
      [.spawn, .make [], .set 1 (.object 1), .set 0 (.plain 7), .get 0,
        .set 0 (.plain 0), .set 0 (.plain 9), .get 0, .get 0] :=
  (always_right_iff wordCasts _ (by decide)).mpr (by decide)

/-- The object that a get hands out is freed while it is stored. -/
def readOnce : List (Label Word) :=
  [.make [], .set 0 (.object 1), .get 0, .drop 1, .get 0, .dup 1]

def replaced : List (Label Word) :=
  [.make [], .set 0 (.object 1), .set 0 (.plain 7)]

def storedNull : List (Label Word) := [.set 0 (.plain 0), .get 0]

/-- A program that keeps to the rules uses an object that was freed while it
was stored, loses one that is replaced, and misses a value that is null. -/
theorem not_always_right :
    (Admissible (Owned wordCasts) (step wordCasts) start readOnce ∧
      GuardedRun.run (step wordCasts) start readOnce =
        .error .useAfterFree ∧
      ¬ Always (Right wordCasts) (step wordCasts) start readOnce) ∧
    (Admissible (Owned wordCasts) (step wordCasts) start replaced ∧
      ¬ Always (Right wordCasts) (step wordCasts) start replaced) ∧
    (Admissible (Owned wordCasts) (step wordCasts) start storedNull ∧
      ¬ Always (Right wordCasts) (step wordCasts) start storedNull) := by
  have hfault : GuardedRun.run (step wordCasts) start readOnce =
      .error .useAfterFree := rfl
  refine ⟨⟨by decide, hfault, ?_⟩, ⟨by decide, ?_⟩, ⟨by decide, ?_⟩⟩
  · intro halways
    obtain ⟨reached, hrun, _⟩ := halways _ List.prefix_rfl
    rw [hfault] at hrun
    cases hrun
  · intro halways
    obtain ⟨reached, hrun, hright⟩ := halways _ List.prefix_rfl
    cases hrun
    exact absurd (hright.balanced.count_eq 1) (by decide)
  · intro halways
    obtain ⟨reached, hrun, hright⟩ := halways _ List.prefix_rfl
    cases hrun
    cases hright.answered.1

end UvMbt.ThreadKey
