/-
What the inits, shares and finalizers of `Mutex`, `Cond`, `RwLock`, `Sem`,
`Thread`, `Barrier` and `Key` do to the objects of libuv behind them.  The
finalizer is there before the init, and runs also after one that failed.
-/
import UvMbt.SharedBlock

set_option autoImplicit false

namespace UvMbt.Finalizers

open SharedBlock (Member)

/-- `block->mutex`; `block->object`, the barrier or the key; and the memory of
the block. -/
inductive Part where
  | mutex
  | object
  | block
  deriving Repr, DecidableEq

inductive Act where
  | create (part : Part)
  | use (part : Part)
  | destroy (part : Part)
  deriving Repr, DecidableEq

/-- The parts that exist after an act, unless it makes one twice or touches one
that does not exist. -/
def account (alive : List Part) : Act → Option (List Part)
  | .create part => if part ∈ alive then none else some (part :: alive)
  | .use part => if part ∈ alive then some alive else none
  | .destroy part => if part ∈ alive then some (alive.erase part) else none

def accountAll : List Part → List Act → Option (List Part)
  | alive, [] => some alive
  | alive, act :: rest => (account alive act).bind (accountAll · rest)

/-- A `Thread` is shared like the other four, whichever way it was made. -/
inductive Resource where
  | shared (cls : SharedBlock.Class)
  | threadSelf
  | barrier
  | key
  deriving Repr, DecidableEq

/-- How the copies of the functions differ, if they have a block. -/
def Resource.member (c11 : Bool) : Resource → Option Member
  | .shared cls => some (cls.member c11)
  | .threadSelf => some (SharedBlock.Class.thread.member c11)
  | .barrier => none
  | .key => none

inductive Wrapper where
  | null
  | live
  | dropped
  deriving Repr, DecidableEq

/-- The counter of the block, the wrappers of one object, and what was done to
its parts. -/
structure State where
  arc : Int32
  wrappers : List Wrapper
  trace : List Act
  deriving Repr, DecidableEq

section Code

def guard (member : Member) (act : Act) : List Act :=
  if member.guarded then [act] else []

def object (member : Member) (act : Act) : List Act :=
  if member.destroy.isSome then [act] else []

/-- `moonbit_uv_mutex_init`, its copies and `moonbit_uv_thread_create`, by
which of the inits of libuv succeed.  A thread of the operating system has no
destroy function. -/
def initShared (member : Member) (mutexOk objectOk : Bool) :
    List Act × Wrapper :=
  if member.guarded && !mutexOk then
    ([.create .block, .destroy .block], .null)
  else if !objectOk then
    (.create .block :: guard member (.create .mutex) ++
      guard member (.destroy .mutex) ++ [.destroy .block], .null)
  else
    (.create .block :: guard member (.create .mutex) ++
      object member (.create .object), .live)

/-- `moonbit_uv_thread_self` goes on when `uv_mutex_init` fails. -/
def initThreadSelf (mutexOk : Bool) : List Act × Wrapper :=
  (.create .block :: (if mutexOk then [.create .mutex] else []), .live)

/-- `moonbit_uv_barrier_init` and `moonbit_uv_key_create`; their objects have
no flag. -/
def initPlain (objectOk : Bool) : List Act × Wrapper :=
  (if objectOk then [.create .object] else [], .live)

def init (resource : Resource) (c11 mutexOk objectOk : Bool) :
    List Act × Wrapper :=
  match resource with
  | .shared cls => initShared (cls.member c11) mutexOk objectOk
  | .threadSelf => initThreadSelf mutexOk
  | .barrier => initPlain objectOk
  | .key => initPlain objectOk

/-- Whether an init succeeds as a whole, or the constructor raises. -/
def succeeds (resource : Resource) (c11 mutexOk objectOk : Bool) : Bool :=
  match resource with
  | .shared cls => (!(cls.member c11).guarded || mutexOk) && objectOk
  | .threadSelf => mutexOk
  | .barrier => objectOk
  | .key => objectOk

/-- What `moonbit_uv_mutex_finalize` and its copies do to a block after they
have counted it down. -/
def lastDrop (member : Member) : List Act :=
  guard member (.destroy .mutex) ++ object member (.destroy .object) ++
    [.destroy .block]

/-- The section that counts. -/
def counting (member : Member) : List Act :=
  .use .block :: guard member (.use .mutex)

/-- The finalizers; those of a barrier and of a key look at nothing. -/
def finalize (resource : Resource) (c11 : Bool) (s : State) :
    Wrapper → Int32 × List Act
  | .dropped => (s.arc, [])
  | .null =>
      match resource.member c11 with
      | some _ => (s.arc, [])
      | none => (s.arc, [.destroy .object])
  | .live =>
      match resource.member c11 with
      | some member =>
          (s.arc - 1, counting member ++
            if 1 < s.arc then [] else lastDrop member)
      | none => (s.arc, [.destroy .object])

/-- The last reference to a wrapper goes. -/
def drop (resource : Resource) (c11 : Bool) (s : State) (wrapper : Nat) :
    State :=
  match s.wrappers[wrapper]? with
  | none => s
  | some found =>
      let (arc, acts) := finalize resource c11 s found
      ⟨arc, s.wrappers.set wrapper .dropped, s.trace ++ acts⟩

/-- `moonbit_uv_mutex_copy` and its copies, to a new wrapper. -/
def share (resource : Resource) (c11 : Bool) (s : State) (wrapper : Nat) :
    State :=
  match resource.member c11, s.wrappers[wrapper]? with
  | some member, some .live =>
      ⟨s.arc + 1, s.wrappers ++ [.live], s.trace ++ counting member⟩
  | _, _ => s

/-- An operation on the object.  `join`, `equal` and the like read the thread
from the block. -/
def use (resource : Resource) (c11 : Bool) (s : State) (wrapper : Nat) :
    State :=
  match s.wrappers[wrapper]? with
  | some .live =>
      match resource.member c11 with
      | some member =>
          { s with trace := s.trace ++
              (.use .block :: object member (.use .object)) }
      | none => { s with trace := s.trace ++ [.use .object] }
  | _ => s

inductive Label where
  | share (wrapper : Nat)
  | use (wrapper : Nat)
  | drop (wrapper : Nat)
  deriving Repr, DecidableEq

def step (resource : Resource) (c11 : Bool) (s : State) : Label → State
  | .share wrapper => share resource c11 s wrapper
  | .use wrapper => use resource c11 s wrapper
  | .drop wrapper => drop resource c11 s wrapper

/-- A constructor; when it raises, its wrapper is dropped. -/
def new (resource : Resource) (c11 mutexOk objectOk : Bool) : State :=
  let (acts, wrapper) := init resource c11 mutexOk objectOk
  let made : State := ⟨1, [wrapper], acts⟩
  if succeeds resource c11 mutexOk objectOk then made
  else drop resource c11 made 0

end Code

def State.live (s : State) : Nat := s.wrappers.count .live

/-- No share makes the `2 ^ 31`-th live wrapper. -/
def Fits (resource : Resource) (c11 : Bool) : State → List Label → Prop
  | _, [] => True
  | s, label :: rest =>
      ((label matches .share _) = true → s.live + 1 < 2 ^ 31) ∧
        Fits resource c11 (step resource c11 s label) rest

/-- Only what exists is touched and destroyed, and all of it once no wrapper is
left. -/
def Matched (s : State) : Prop :=
  ∃ alive, accountAll [] s.trace = some alive ∧
    ((∀ wrapper ∈ s.wrappers, wrapper = .dropped) → alive = [])

section Accounts

theorem accountAll_append (alive : List Part) (first second : List Act) :
    accountAll alive (first ++ second) =
      (accountAll alive first).bind (accountAll · second) := by
  induction first generalizing alive with
  | nil => rfl
  | cons act rest ih =>
      rw [List.cons_append, accountAll, accountAll]
      cases account alive act with
      | none => rfl
      | some next => exact ih next

/-- What an init that succeeds makes. -/
def parts (member : Member) : List Part :=
  (if member.destroy.isSome then [.object] else []) ++
    (if member.guarded then [.mutex] else []) ++ [.block]

def Resource.parts (resource : Resource) (c11 : Bool) : List Part :=
  match resource.member c11 with
  | some member => Finalizers.parts member
  | none => [.object]

variable (member : Member)

theorem accountAll_counting :
    accountAll (parts member) (counting member) = some (parts member) := by
  cases member with
  | mk guarded destroy => cases guarded <;> cases destroy <;> rfl

theorem accountAll_lastDrop :
    accountAll (parts member) (lastDrop member) = some [] := by
  cases member with
  | mk guarded destroy => cases guarded <;> cases destroy <;> rfl

theorem accountAll_use :
    accountAll (parts member)
      (.use .block :: object member (.use .object)) =
        some (parts member) := by
  cases member with
  | mk guarded destroy => cases guarded <;> cases destroy <;> rfl

/-- An init of a block that fails undoes what it made. -/
theorem initShared_failed {mutexOk objectOk : Bool}
    (hfails : ((!member.guarded || mutexOk) && objectOk) = false) :
    accountAll [] (initShared member mutexOk objectOk).1 = some [] ∧
      (initShared member mutexOk objectOk).2 = .null := by
  cases member with
  | mk guarded destroy =>
      cases guarded <;> cases mutexOk <;> cases objectOk <;>
        first
        | exact ⟨rfl, rfl⟩
        | cases hfails

end Accounts

section Runs

variable {resource : Resource} {c11 : Bool}

/-- The parts are there as long as a wrapper is, and a block counts its
wrappers. -/
structure Sound (resource : Resource) (c11 : Bool) (s : State) : Prop where
  account : accountAll [] s.trace =
    some (if 0 < s.live then resource.parts c11 else [])
  arc : (resource.member c11).isSome = true → 0 < s.live →
    s.arc.toInt = s.live
  alone : resource.member c11 = none → s.live ≤ 1
  bound : s.live < 2 ^ 31
  not_null : .null ∉ s.wrappers

theorem live_pos {s : State} {wrapper : Nat}
    (hlive : s.wrappers[wrapper]? = some .live) : 0 < s.live :=
  List.count_pos_iff.mpr (List.mem_of_getElem? hlive)

theorem Sound.account_live {s : State} (hsound : Sound resource c11 s)
    (hlive : 0 < s.live) :
    accountAll [] s.trace = some (resource.parts c11) := by
  rw [hsound.account, if_pos hlive]

theorem Sound.parts_eq {member : Member}
    (hmember : resource.member c11 = some member) :
    resource.parts c11 = parts member := by
  rw [Resource.parts, hmember]

/-- More of the trace, with the parts and the wrappers as they are. -/
theorem Sound.extend {s : State} (hsound : Sound resource c11 s)
    {acts : List Act} (hlive : 0 < s.live)
    (hacts : accountAll (resource.parts c11) acts =
      some (resource.parts c11)) :
    Sound resource c11 { s with trace := s.trace ++ acts } := by
  refine ⟨?_, hsound.arc, hsound.alone, hsound.bound, hsound.not_null⟩
  rw [accountAll_append, hsound.account_live hlive, Option.bind_some, hacts]
  exact congrArg some (if_pos hlive).symm

theorem Sound.use {s : State} (hsound : Sound resource c11 s) (wrapper : Nat) :
    Sound resource c11 (use resource c11 s wrapper) := by
  unfold Finalizers.use
  split
  · next hwrapper =>
      have hlive := live_pos hwrapper
      split
      · next member hmember =>
          apply hsound.extend hlive
          rw [Sound.parts_eq hmember]
          exact accountAll_use member
      · next hmember =>
          apply hsound.extend hlive
          rw [Resource.parts, hmember]
          rfl
  · exact hsound

theorem Sound.share {s : State} (hsound : Sound resource c11 s)
    (wrapper : Nat) (hfits : s.live + 1 < 2 ^ 31) :
    Sound resource c11 (share resource c11 s wrapper) := by
  unfold Finalizers.share
  split
  · next member hmember hwrapper =>
      have hlive := live_pos hwrapper
      have hmore : State.live ⟨s.arc + 1, s.wrappers ++ [.live],
          s.trace ++ counting member⟩ = s.live + 1 := by
        simp [State.live]
      refine ⟨?_, ?_, ?_, ?_, ?_⟩
      · rw [hmore, if_pos (Nat.succ_pos _), accountAll_append,
          hsound.account_live hlive, Option.bind_some, Sound.parts_eq hmember]
        exact accountAll_counting member
      · intro hsome _
        have harc := hsound.arc hsome hlive
        have hone := SharedBlock.toInt_one
        rw [hmore, SharedBlock.toInt_add_of_fits (by omega) (by omega), harc,
          hone]
        rfl
      · intro hnone
        rw [hmember] at hnone
        cases hnone
      · rw [hmore]
        exact hfits
      · simp [hsound.not_null]
  · exact hsound

theorem drop_eq {s : State} {wrapper : Nat} {found : Wrapper}
    (hwrapper : s.wrappers[wrapper]? = some found) :
    drop resource c11 s wrapper =
      ⟨(finalize resource c11 s found).1, s.wrappers.set wrapper .dropped,
        s.trace ++ (finalize resource c11 s found).2⟩ := by
  rw [drop, hwrapper]

theorem live_drop {s : State} {wrapper : Nat} {found : Wrapper}
    (hwrapper : s.wrappers[wrapper]? = some found) :
    (drop resource c11 s wrapper).live =
      s.live - (if found = .live then 1 else 0) := by
  rcases List.getElem?_eq_some_iff.mp hwrapper with ⟨hlt, hfound⟩
  rw [drop_eq hwrapper, State.live, List.count_set hlt, hfound]
  cases found <;> simp [State.live]

theorem not_null_drop {s : State} (hnull : .null ∉ s.wrappers) {wrapper : Nat}
    {found : Wrapper} (hwrapper : s.wrappers[wrapper]? = some found) :
    .null ∉ (drop resource c11 s wrapper).wrappers := by
  rw [drop_eq hwrapper]
  intro hmem
  rcases List.mem_or_eq_of_mem_set hmem with hold | hnew
  · exact hnull hold
  · cases hnew

/-- The finalizer of a live wrapper of a barrier or a key. -/
theorem Sound.drop_plain {s : State} (hsound : Sound resource c11 s)
    {wrapper : Nat} (hwrapper : s.wrappers[wrapper]? = some .live)
    (hmember : resource.member c11 = none) :
    Sound resource c11 (drop resource c11 s wrapper) := by
  have hlive := live_pos hwrapper
  have hone := hsound.alone hmember
  have hzero : (drop resource c11 s wrapper).live = 0 := by
    rw [live_drop hwrapper, if_pos rfl]
    omega
  refine ⟨?_, ?_, ?_, ?_, not_null_drop hsound.not_null hwrapper⟩
  · rw [hzero, if_neg (Nat.lt_irrefl 0), drop_eq hwrapper, accountAll_append,
      hsound.account_live hlive, Option.bind_some, Resource.parts, finalize,
      hmember]
    rfl
  · intro hsome
    rw [hmember] at hsome
    cases hsome
  · intro _
    rw [hzero]
    omega
  · rw [hzero]
    omega

/-- The finalizer of a live wrapper of a block: the last one destroys. -/
theorem Sound.drop_shared {s : State} (hsound : Sound resource c11 s)
    {wrapper : Nat} (hwrapper : s.wrappers[wrapper]? = some .live)
    {member : Member} (hmember : resource.member c11 = some member) :
    Sound resource c11 (drop resource c11 s wrapper) := by
  have hlive := live_pos hwrapper
  have hbound := hsound.bound
  have harc := hsound.arc (by rw [hmember]; rfl) hlive
  have hless : (drop resource c11 s wrapper).live = s.live - 1 := by
    rw [live_drop hwrapper, if_pos rfl]
  have hlast : 1 < s.arc ↔ 0 < s.live - 1 := by
    rw [Int32.lt_iff_toInt_lt, SharedBlock.toInt_one, harc]
    omega
  refine ⟨?_, ?_, ?_, ?_, not_null_drop hsound.not_null hwrapper⟩
  · rw [hless, drop_eq hwrapper, accountAll_append,
      hsound.account_live hlive, Option.bind_some, Sound.parts_eq hmember]
    simp only [finalize, hmember]
    rw [accountAll_append, accountAll_counting, Option.bind_some]
    by_cases hmore : 0 < s.live - 1
    · rw [if_pos (hlast.mpr hmore), if_pos hmore]
      rfl
    · rw [if_neg (fun hgreater => hmore (hlast.mp hgreater)), if_neg hmore]
      exact accountAll_lastDrop member
  · intro _ _
    have hminus : (s.arc - 1).toInt = s.live - 1 := by
      rw [Int32.toInt_sub, SharedBlock.toInt_one, harc]
      apply Int.bmod_eq_of_le
      · omega
      · omega
    rw [hless, drop_eq hwrapper]
    simp only [finalize, hmember]
    rw [hminus]
    omega
  · intro hnone
    rw [hmember] at hnone
    cases hnone
  · rw [hless]
    omega

theorem Sound.drop {s : State} (hsound : Sound resource c11 s)
    (wrapper : Nat) : Sound resource c11 (drop resource c11 s wrapper) := by
  cases hwrapper : s.wrappers[wrapper]? with
  | none =>
      rw [Finalizers.drop, hwrapper]
      exact hsound
  | some found =>
      cases found with
      | null => exact absurd (List.mem_of_getElem? hwrapper) hsound.not_null
      | dropped =>
          have hsame : (Finalizers.drop resource c11 s wrapper).live =
              s.live := by
            rw [live_drop hwrapper, if_neg (by decide), Nat.sub_zero]
          refine ⟨?_, ?_, ?_, ?_, not_null_drop hsound.not_null hwrapper⟩
          · rw [hsame, drop_eq hwrapper]
            simp only [finalize, List.append_nil]
            exact hsound.account
          · rw [hsame, drop_eq hwrapper]
            exact hsound.arc
          · rw [hsame]
            exact hsound.alone
          · rw [hsame]
            exact hsound.bound
      | live =>
          cases hmember : resource.member c11 with
          | none => exact hsound.drop_plain hwrapper hmember
          | some member => exact hsound.drop_shared hwrapper hmember

theorem Sound.step {s : State} (hsound : Sound resource c11 s) {label : Label}
    (hfits : (label matches .share _) = true → s.live + 1 < 2 ^ 31) :
    Sound resource c11 (step resource c11 s label) := by
  cases label with
  | share wrapper => exact hsound.share wrapper (hfits rfl)
  | use wrapper => exact hsound.use wrapper
  | drop wrapper => exact hsound.drop wrapper

theorem Sound.run {s : State} (hsound : Sound resource c11 s)
    {labels : List Label} (hfits : Fits resource c11 s labels) :
    Sound resource c11 (labels.foldl (Finalizers.step resource c11) s) := by
  induction labels generalizing s with
  | nil => exact hsound
  | cons label rest ih => exact ih (hsound.step hfits.1) hfits.2

theorem init_succeeded {mutexOk objectOk : Bool}
    (hsucceeds : succeeds resource c11 mutexOk objectOk = true) :
    accountAll [] (init resource c11 mutexOk objectOk).1 =
        some (resource.parts c11) ∧
      (init resource c11 mutexOk objectOk).2 = .live := by
  cases resource with
  | shared cls =>
      cases c11 <;> cases mutexOk <;> cases objectOk <;> cases cls <;>
        first
        | exact ⟨rfl, rfl⟩
        | cases hsucceeds
  | threadSelf =>
      cases mutexOk with
      | false => cases hsucceeds
      | true => exact ⟨rfl, rfl⟩
  | barrier =>
      cases objectOk with
      | false => cases hsucceeds
      | true => exact ⟨rfl, rfl⟩
  | key =>
      cases objectOk with
      | false => cases hsucceeds
      | true => exact ⟨rfl, rfl⟩

theorem Sound.new_succeeded {mutexOk objectOk : Bool}
    (hsucceeds : succeeds resource c11 mutexOk objectOk = true) :
    Sound resource c11 (new resource c11 mutexOk objectOk) := by
  rcases init_succeeded hsucceeds with ⟨hacts, hwrapper⟩
  have hnew : new resource c11 mutexOk objectOk =
      ⟨1, [.live], (init resource c11 mutexOk objectOk).1⟩ := by
    simp only [Finalizers.new, hsucceeds, if_true, hwrapper]
  rw [hnew]
  refine ⟨hacts, ?_, ?_, ?_, ?_⟩
  · intro _ _
    rfl
  · intro _
    exact Nat.le_refl 1
  · simp [State.live]
  · simp

/-- A block is undone, and its wrapper has nothing to finalize. -/
theorem Sound.new_shared_failed {cls : SharedBlock.Class} {mutexOk objectOk : Bool}
    (hfails : succeeds (.shared cls) c11 mutexOk objectOk = false) :
    Sound (.shared cls) c11 (new (.shared cls) c11 mutexOk objectOk) := by
  rcases initShared_failed (cls.member c11) hfails with ⟨hacts, hwrapper⟩
  have hnew : new (.shared cls) c11 mutexOk objectOk =
      ⟨1, [.dropped],
        (initShared (cls.member c11) mutexOk objectOk).1⟩ := by
    simp only [Finalizers.new, hfails, Bool.false_eq_true, if_false, init,
      hwrapper]
    simp [Finalizers.drop, finalize, Resource.member]
  rw [hnew]
  refine ⟨hacts, ?_, ?_, ?_, ?_⟩
  · intro _ hlive
    exact absurd hlive (Nat.lt_irrefl 0)
  · intro _
    exact Nat.zero_le 1
  · simp [State.live]
  · simp

/-- Nothing that was done is taken back. -/
theorem step_trace (s : State) (label : Label) :
    ∃ acts, (step resource c11 s label).trace = s.trace ++ acts := by
  cases label with
  | share wrapper =>
      simp only [step, share]
      split
      · exact ⟨_, rfl⟩
      · exact ⟨[], (List.append_nil _).symm⟩
  | use wrapper =>
      simp only [step, use]
      split
      · split <;> exact ⟨_, rfl⟩
      · exact ⟨[], (List.append_nil _).symm⟩
  | drop wrapper =>
      simp only [step, drop]
      split
      · exact ⟨[], (List.append_nil _).symm⟩
      · exact ⟨_, rfl⟩

theorem run_refused {s : State} (hrefused : accountAll [] s.trace = none)
    (labels : List Label) :
    accountAll [] (labels.foldl (step resource c11) s).trace = none := by
  induction labels generalizing s with
  | nil => exact hrefused
  | cons label rest ih =>
      apply ih
      rcases @step_trace resource c11 s label with ⟨acts, hacts⟩
      rw [hacts, accountAll_append, hrefused]
      rfl

/-- The other constructors that raise drop a wrapper whose finalizer takes the
init for done. -/
theorem new_refused {mutexOk objectOk : Bool}
    (hfails : succeeds resource c11 mutexOk objectOk = false)
    (hplain : ¬ ∃ cls, resource = .shared cls) :
    accountAll [] (new resource c11 mutexOk objectOk).trace = none := by
  cases resource with
  | shared cls => exact absurd ⟨cls, rfl⟩ hplain
  | threadSelf =>
      cases mutexOk with
      | true => cases hfails
      | false => cases c11 <;> rfl
  | barrier =>
      cases objectOk with
      | true => cases hfails
      | false => rfl
  | key =>
      cases objectOk with
      | true => cases hfails
      | false => rfl

theorem Sound.matched {s : State} (hsound : Sound resource c11 s) :
    Matched s := by
  refine ⟨_, hsound.account, ?_⟩
  intro hdropped
  rw [if_neg]
  intro hlive
  cases hdropped .live (List.count_pos_iff.mp hlive)

end Runs

/-- As long as fewer than `2 ^ 31` wrappers share a block, finalizers match
what was initialised exactly if the init succeeded or was one of the four, or
of a thread that is started, which undo their block. -/
theorem finalizers_match_iff (resource : Resource)
    (c11 mutexOk objectOk : Bool) (labels : List Label)
    (hfits : Fits resource c11 (new resource c11 mutexOk objectOk) labels) :
    Matched (labels.foldl (step resource c11)
        (new resource c11 mutexOk objectOk)) ↔
      succeeds resource c11 mutexOk objectOk = true ∨
        ∃ cls, resource = .shared cls := by
  constructor
  · rintro ⟨alive, halive, _⟩
    by_contra hnot
    rw [not_or, Bool.not_eq_true] at hnot
    rw [run_refused (new_refused hnot.1 hnot.2) labels] at halive
    cases halive
  · intro hinit
    cases hsucceeds : succeeds resource c11 mutexOk objectOk with
    | true => exact ((Sound.new_succeeded hsucceeds).run hfits).matched
    | false =>
        rw [hsucceeds] at hinit
        rcases hinit with hinit | ⟨cls, rfl⟩
        · cases hinit
        · exact ((Sound.new_shared_failed hsucceeds).run hfits).matched

/-- A semaphore that is shared, used and dropped twice. -/
def sharedSem : List Label := [.share 0, .use 1, .drop 0, .drop 1]

theorem finalizers_match_sharedSem :
    Matched (sharedSem.foldl (step (.shared .sem) false)
      (new (.shared .sem) false true true)) := by
  apply (finalizers_match_iff (.shared .sem) false true true sharedSem
    (by simp [Fits, sharedSem]; decide)).mpr
  exact Or.inl rfl

/-- `Barrier::new(0)`, a key when there is no free one, and `Thread::self` when
its mutex cannot be made. -/
theorem failed_inits_finalize :
    (new .barrier true true false).trace = [.destroy .object] ∧
      ¬ Matched (new .barrier true true false) ∧
      (new .key true true false).trace = [.destroy .object] ∧
      ¬ Matched (new .key true true false) ∧
      (new .threadSelf true false true).trace =
        [.create .block, .use .block, .use .mutex, .destroy .mutex,
          .destroy .block] ∧
      ¬ Matched (new .threadSelf true false true) := by
  have hrefused : ∀ s : State, accountAll [] s.trace = none → ¬ Matched s := by
    rintro s hnone ⟨alive, halive, _⟩
    rw [hnone] at halive
    cases halive
  exact ⟨rfl, hrefused _ rfl, rfl, hrefused _ rfl, rfl, hrefused _ rfl⟩

end UvMbt.Finalizers
