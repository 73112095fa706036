/-
The blocks that wrappers of `Mutex`, `Cond`, `RwLock`, `Sem` and `Thread` share
between threads, counted by their `arc`.
-/
import Mathlib.Algebra.Group.Int.Defs
import Mathlib.Algebra.Group.Nat.Defs
import Mathlib.Data.List.Count
import UvMbt.WeakSimulation

set_option autoImplicit false

namespace UvMbt.SharedBlock

open GuardedRun WeakSimulation

inductive Class where
  | mutex
  | cond
  | rwlock
  | sem
  | thread
  deriving Repr, DecidableEq

/-- A call of the last finalizer: `uv_mutex_destroy(&block->mutex)`, the
destroy function of a class on `&block->object`, or `free(block)`. -/
inductive Act where
  | destroyMutex
  | destroyObject (as : Class)
  | free
  deriving Repr, DecidableEq

/-- Where the copies of the functions differ: whether the block has a mutex to
count under, and what destroys its object. -/
structure Member where
  guarded : Bool
  destroy : Option Class
  deriving Repr, DecidableEq

/-- The copies of the five classes, compiled with or without C11. -/
def Class.member (c11 : Bool) : Class → Member
  | .mutex => ⟨!c11, some .mutex⟩
  | .cond => ⟨!c11, some .cond⟩
  | .rwlock => ⟨!c11, some .rwlock⟩
  | .sem => ⟨!c11, some .sem⟩
  | .thread => ⟨true, none⟩

/-- The counter of a block, and what was called on the block so far. -/
structure Block where
  arc : Int32
  done : List Act
  deriving Repr, DecidableEq

/-- A wrapper without a block, one that points to the block, or one whose
finalizer has counted down and still has calls to make. -/
inductive Wrapper where
  | null
  | live
  | dropping (todo : List Act)
  deriving Repr, DecidableEq

inductive Fault where
  | noWrapper
  | nullPointer
  | useAfterFree
  | deadMutex
  | deadObject
  | overflow
  deriving Repr, DecidableEq

section Code

def Block.touch (block : Block) : Except Fault Unit :=
  if .free ∈ block.done then .error .useAfterFree else .ok ()

/-- `atomic_fetch_add` and `atomic_fetch_sub`, or the section between
`uv_mutex_lock` and `uv_mutex_unlock`: the counter before, and the block
after. -/
def count (member : Member) (block : Block) (delta : Int32) :
    Except Fault (Int32 × Block) := do
  block.touch
  if member.guarded then
    if .destroyMutex ∈ block.done then .error .deadMutex
    else
      -- signed arithmetic of C, which may not overflow
      let sum := block.arc.toInt + delta.toInt
      if Int32.minValue.toInt ≤ sum ∧ sum ≤ Int32.maxValue.toInt then
        .ok (block.arc, { block with arc := block.arc + delta })
      else .error .overflow
  else .ok (block.arc, { block with arc := block.arc + delta })

/-- `moonbit_uv_mutex_init` and its copies, `moonbit_uv_thread_create` among
them, from the statuses of libuv: the block, and whether the wrapper keeps
it. -/
def init (member : Member) (mutexStatus objectStatus : Int) : Block × Wrapper :=
  if member.guarded ∧ mutexStatus < 0 then (⟨0, [.free]⟩, .null)
  else if objectStatus < 0 then
    (⟨1, (if member.guarded then [.destroyMutex] else []) ++ [.free]⟩, .null)
  else (⟨1, []⟩, .live)

/-- `moonbit_uv_mutex_copy` and its copies, up to `other->block = self->block`,
which no other thread sees. -/
def copy (member : Member) (block : Block) : Except Fault Block := do
  let (_, block) ← count member block 1
  .ok block

/-- What follows `return` in the finalizers. -/
def Member.lastDrop (member : Member) : List Act :=
  (if member.guarded then [.destroyMutex] else []) ++
    (member.destroy.map .destroyObject).toList ++ [.free]

/-- `moonbit_uv_mutex_finalize` and its copies on a wrapper with a block, as
far as it counts: the calls left, and the block after. -/
def finalize (member : Member) (block : Block) :
    Except Fault (List Act × Block) := do
  let (arc, block) ← count member block (-1)
  .ok (if 1 < arc then [] else member.lastDrop, block)

/-- One call of a finalizer after it has counted. -/
def perform (block : Block) (act : Act) : Except Fault Block := do
  block.touch
  match act with
  | .destroyMutex =>
      if .destroyMutex ∈ block.done then .error .deadMutex
      else .ok { block with done := block.done ++ [act] }
  | .destroyObject as =>
      if .destroyObject as ∈ block.done then .error .deadObject
      else .ok { block with done := block.done ++ [act] }
  | .free => .ok { block with done := block.done ++ [act] }

end Code

section Runs

/-- One block and all wrappers ever made, on whatever threads. -/
structure Shared where
  block : Block
  wrappers : List Wrapper
  deriving Repr, DecidableEq

/-- Steps of any thread: `uv_mutex_make` and `uv_mutex_copy` of `share`, the
count of a finalizer, one call of it after that, and a call such as
`uv_mutex_lock` on the object. -/
inductive Label where
  | make
  | copy (self other : Nat)
  | drop (wrapper : Nat)
  | finish (wrapper : Nat)
  | use (wrapper : Nat)
  deriving Repr, DecidableEq

def step (member : Member) (shared : Shared) : Label → Except Fault Shared
  | .make => .ok { shared with wrappers := shared.wrappers ++ [.null] }
  | .copy self other =>
      match shared.wrappers[self]?, shared.wrappers[other]? with
      | some .live, some .null => do
          let block ← SharedBlock.copy member shared.block
          .ok ⟨block, shared.wrappers.set other .live⟩
      | some .null, _ => .error .nullPointer
      | _, _ => .error .noWrapper
  | .drop wrapper =>
      match shared.wrappers[wrapper]? with
      | some .null =>
          .ok ⟨shared.block, shared.wrappers.set wrapper (.dropping [])⟩
      | some .live => do
          let (todo, block) ← finalize member shared.block
          .ok ⟨block, shared.wrappers.set wrapper (.dropping todo)⟩
      | _ => .error .noWrapper
  | .finish wrapper =>
      match shared.wrappers[wrapper]? with
      | some (.dropping (act :: todo)) => do
          let block ← perform shared.block act
          .ok ⟨block, shared.wrappers.set wrapper (.dropping todo)⟩
      | _ => .error .noWrapper
  | .use wrapper =>
      match shared.wrappers[wrapper]? with
      | some .null => .error .nullPointer
      | some .live => do
          shared.block.touch
          if shared.block.done.any (· matches .destroyObject _) then
            .error .deadObject
          else .ok shared
      | _ => .error .noWrapper

/-- After the `init` of the first wrapper. -/
def start : Shared := ⟨⟨1, []⟩, [.live]⟩

/-- How many wrappers point to the block. -/
def Shared.live (shared : Shared) : Nat := shared.wrappers.count .live

/-- A share goes through a live wrapper to a new one, a wrapper is dropped
once, and a finalizer that has counted down has a call to make. -/
def Used (shared : Shared) : Label → Prop
  | .make => True
  | .copy self other =>
      shared.wrappers[self]? = some .live ∧
        shared.wrappers[other]? = some .null
  | .drop wrapper =>
      shared.wrappers[wrapper]? = some .null ∨
        shared.wrappers[wrapper]? = some .live
  | .finish wrapper =>
      (shared.wrappers[wrapper]?.any (· matches .dropping (_ :: _))) = true
  | .use wrapper => shared.wrappers[wrapper]? = some .live

instance (shared : Shared) (label : Label) : Decidable (Used shared label) := by
  cases label <;> unfold Used <;> infer_instance

/-- And no share makes the `2 ^ 31`-th live wrapper. -/
def Fits (shared : Shared) (label : Label) : Prop :=
  Used shared label ∧ ((label matches .copy _ _) = true →
    shared.live + 1 < 2 ^ 31)

instance (shared : Shared) (label : Label) : Decidable (Fits shared label) :=
  inferInstanceAs (Decidable (_ ∧ (_ → _)))

end Runs

section Calls

/-- `init` gives a counted block with a live wrapper, or frees the block and
leaves none. -/
theorem init_cases (member : Member) (mutexStatus objectStatus : Int) :
    init member mutexStatus objectStatus = (start.block, .live) ∨
      ∃ block, init member mutexStatus objectStatus = (block, .null) ∧
        block.done.count .free = 1 := by
  unfold init
  split
  · right
    exact ⟨_, rfl, rfl⟩
  · split
    · right
      refine ⟨_, rfl, ?_⟩
      cases member.guarded <;> rfl
    · left
      rfl

theorem count_of_fresh {block : Block} (member : Member) {delta : Int32}
    {value : Int} (hdelta : delta.toInt = value) (hdone : block.done = [])
    (hlow : -2 ^ 31 ≤ block.arc.toInt + value)
    (hhigh : block.arc.toInt + value < 2 ^ 31) :
    count member block delta =
      .ok (block.arc, { block with arc := block.arc + delta }) := by
  have hmin : Int32.minValue.toInt = -2 ^ 31 := by decide
  have hmax : Int32.maxValue.toInt = 2 ^ 31 - 1 := by decide
  have hbounds : Int32.minValue.toInt ≤ block.arc.toInt + delta.toInt ∧
      block.arc.toInt + delta.toInt ≤ Int32.maxValue.toInt := by
    rw [hmin, hmax, hdelta]
    omega
  cases hguarded : member.guarded with
  | false => simp [count, Block.touch, hdone, hguarded, bind, Except.bind]
  | true =>
      simp only [count, Block.touch, hdone, hguarded, bind, Except.bind,
        List.not_mem_nil, if_false, if_true]
      rw [if_pos hbounds]

theorem toInt_one : (1 : Int32).toInt = 1 := by decide

theorem toInt_minus_one : (-1 : Int32).toInt = -1 := by decide

theorem toInt_add_of_fits {left right : Int32}
    (hlow : -2 ^ 31 ≤ left.toInt + right.toInt)
    (hhigh : left.toInt + right.toInt < 2 ^ 31) :
    (left + right).toInt = left.toInt + right.toInt := by
  rw [Int32.toInt_add]
  apply Int.bmod_eq_of_le
  · omega
  · omega

theorem Member.lastDrop_nodup (member : Member) : member.lastDrop.Nodup := by
  unfold lastDrop
  cases member.guarded <;> cases member.destroy <;> simp

/-- The calls of the last finalizer go through in their order. -/
theorem perform_of_lastDrop {member : Member} {block : Block} {act : Act}
    {rest : List Act} (horder : block.done ++ act :: rest = member.lastDrop) :
    perform block act = .ok { block with done := block.done ++ [act] } := by
  have hnodup : (block.done ++ act :: rest).Nodup := by
    rw [horder]
    exact member.lastDrop_nodup
  have hact : act ∉ block.done := by
    intro hmem
    exact (List.nodup_append.mp hnodup).2.2 act hmem act
      List.mem_cons_self rfl
  have hfree : Act.free ∉ block.done := by
    have hlast : Act.free ∈ act :: rest := by
      have hsome : (act :: rest).getLast? = some .free := by
        have := congrArg List.getLast? horder
        simpa [Member.lastDrop, List.getLast?_append] using this
      exact List.mem_of_getLast? hsome
    intro hmem
    exact (List.nodup_append.mp hnodup).2.2 .free hmem .free hlast rfl
  cases act with
  | destroyMutex =>
      simp [perform, Block.touch, hfree, hact, bind, Except.bind]
  | destroyObject as =>
      simp [perform, Block.touch, hfree, hact, bind, Except.bind]
  | free => simp [perform, Block.touch, hfree, bind, Except.bind]

end Calls

section Invariant

/-- The calls that a wrapper's finalizer has left. -/
def Wrapper.todo : Wrapper → List Act
  | .dropping todo => todo
  | _ => []

/-- No wrapper, but for one perhaps, has calls left. -/
def Quiet (except : Option Nat) (wrappers : List Wrapper) : Prop :=
  ∀ index wrapper, some index ≠ except → wrappers[index]? = some wrapper →
    wrapper.todo = []

/-- The block is shared and untouched, or the finalizer of one wrapper works
through the calls of the last drop. -/
def Phase (member : Member) (shared : Shared) : Prop :=
  (0 < shared.live ∧ shared.block.done = [] ∧ Quiet none shared.wrappers) ∨
    (shared.live = 0 ∧ ∃ index wrapper,
      shared.wrappers[index]? = some wrapper ∧
        shared.block.done ++ wrapper.todo = member.lastDrop ∧
        Quiet (some index) shared.wrappers)

structure Sound (member : Member) (shared : Shared) : Prop where
  arc : shared.block.arc.toInt = shared.live
  bound : shared.live < 2 ^ 31
  phase : Phase member shared

theorem Quiet.set {except : Option Nat} {wrappers : List Wrapper}
    (hquiet : Quiet except wrappers) (index : Nat) (wrapper : Wrapper)
    (hwrapper : some index = except ∨ wrapper.todo = []) :
    Quiet except (wrappers.set index wrapper) := by
  intro other found hother hfound
  rw [List.getElem?_set] at hfound
  split at hfound
  · next heq =>
      subst heq
      split at hfound
      · cases hfound
        exact hwrapper.resolve_left hother
      · cases hfound
  · exact hquiet other found hother hfound

theorem Quiet.append_null {except : Option Nat} {wrappers : List Wrapper}
    (hquiet : Quiet except wrappers) :
    Quiet except (wrappers ++ [.null]) := by
  intro index found hindex hfound
  rw [List.getElem?_append] at hfound
  split at hfound
  · exact hquiet index found hindex hfound
  · rw [List.getElem?_singleton] at hfound
    split at hfound
    · cases hfound
      rfl
    · cases hfound

theorem Quiet.mono {wrappers : List Wrapper} (hquiet : Quiet none wrappers)
    (except : Option Nat) : Quiet except wrappers :=
  fun index wrapper _ => hquiet index wrapper (by simp)

/-- What replacing one wrapper does to the count of the live ones. -/
theorem count_live_set {wrappers : List Wrapper} {index : Nat}
    {old : Wrapper} (hold : wrappers[index]? = some old) (new : Wrapper) :
    (wrappers.set index new).count .live + (if old = .live then 1 else 0) =
      wrappers.count .live + (if new = .live then 1 else 0) := by
  rcases List.getElem?_eq_some_iff.mp hold with ⟨hindex, rfl⟩
  rw [List.count_set hindex]
  by_cases hlive : wrappers[index] = .live
  · have hpos : 0 < wrappers.count .live :=
      List.count_pos_iff.mpr (hlive ▸ List.getElem_mem hindex)
    simp only [hlive, beq_self_eq_true, if_true, beq_iff_eq]
    omega
  · simp [hlive]

theorem live_pos {shared : Shared} {index : Nat}
    (hlive : shared.wrappers[index]? = some .live) : 0 < shared.live :=
  List.count_pos_iff.mpr (List.mem_of_getElem? hlive)

theorem Sound.start (member : Member) : Sound member start where
  arc := rfl
  bound := by decide
  phase := by
    left
    refine ⟨by decide, rfl, ?_⟩
    intro index wrapper _ hfound
    have hmem : wrapper ∈ [Wrapper.live] := List.mem_of_getElem? hfound
    rw [List.mem_singleton.mp hmem]
    rfl

/-- While a wrapper is live nothing was called on the block. -/
theorem Sound.shared {member : Member} {shared : Shared}
    (hsound : Sound member shared) (hlive : 0 < shared.live) :
    shared.block.done = [] ∧ Quiet none shared.wrappers := by
  rcases hsound.phase with ⟨_, hshared⟩ | ⟨hzero, _⟩
  · exact hshared
  · omega

/-- A wrapper with calls left is the one of the last drop. -/
theorem Sound.retiring {member : Member} {shared : Shared}
    (hsound : Sound member shared) {wrapper : Nat} {act : Act}
    {todo : List Act}
    (hfound : shared.wrappers[wrapper]? = some (.dropping (act :: todo))) :
    shared.live = 0 ∧
      shared.block.done ++ act :: todo = member.lastDrop ∧
      Quiet (some wrapper) shared.wrappers := by
  rcases hsound.phase with
    ⟨_, _, hquiet⟩ | ⟨hzero, index, found, hindex, horder, hquiet⟩
  · have hnil := hquiet wrapper _ (by simp) hfound
    simp [Wrapper.todo] at hnil
  · by_cases heq : index = wrapper
    · subst heq
      rw [hfound] at hindex
      cases hindex
      exact ⟨hzero, horder, hquiet⟩
    · have hne : some wrapper ≠ some index := by
        intro hsame
        exact heq (Option.some.inj hsame).symm
      have hnil := hquiet wrapper _ hne hfound
      simp [Wrapper.todo] at hnil

end Invariant

/-- The counter moved, and one wrapper replaced. -/
def Shared.counted (shared : Shared) (delta : Int32) (index : Nat)
    (wrapper : Wrapper) : Shared :=
  ⟨{ shared.block with arc := shared.block.arc + delta },
    shared.wrappers.set index wrapper⟩

theorem Shared.counted_arc (shared : Shared) (delta : Int32) (index : Nat)
    (wrapper : Wrapper) :
    (shared.counted delta index wrapper).block.arc =
      shared.block.arc + delta := rfl

theorem Shared.counted_wrappers (shared : Shared) (delta : Int32) (index : Nat)
    (wrapper : Wrapper) :
    (shared.counted delta index wrapper).wrappers =
      shared.wrappers.set index wrapper := rfl

theorem Shared.counted_live (shared : Shared) (delta : Int32) (index : Nat)
    (wrapper : Wrapper) :
    (shared.counted delta index wrapper).live =
      (shared.wrappers.set index wrapper).count .live := rfl

/-- The counter plays no part in the phase. -/
theorem Shared.phase_counted {member : Member} {shared : Shared} {index : Nat}
    {wrapper : Wrapper}
    (hphase : Phase member ⟨shared.block, shared.wrappers.set index wrapper⟩)
    (delta : Int32) : Phase member (shared.counted delta index wrapper) :=
  hphase

section Steps

variable {member : Member} {shared : Shared}

theorem step_copy (hsound : Sound member shared) {self other : Nat}
    (hself : shared.wrappers[self]? = some .live)
    (hother : shared.wrappers[other]? = some .null)
    (hfits : shared.live + 1 < 2 ^ 31) :
    step member shared (.copy self other) =
      .ok (shared.counted 1 other .live) := by
  have harc := hsound.arc
  have hcount := count_of_fresh member toInt_one
    (hsound.shared (live_pos hself)).1 (by omega) (by omega)
  simp [step, hself, hother, copy, hcount, bind, Except.bind, Shared.counted]

theorem step_drop_live (hsound : Sound member shared) {wrapper : Nat}
    (hlive : shared.wrappers[wrapper]? = some .live) :
    step member shared (.drop wrapper) =
      .ok (shared.counted (-1) wrapper (.dropping
        (if shared.live = 1 then member.lastDrop else []))) := by
  have harc := hsound.arc
  have hbound := hsound.bound
  have hpos := live_pos hlive
  have hcount := count_of_fresh member toInt_minus_one
    (hsound.shared hpos).1 (by omega) (by omega)
  have hlast : (if 1 < shared.block.arc then [] else member.lastDrop) =
      if shared.live = 1 then member.lastDrop else [] := by
    have hlt : 1 < shared.block.arc ↔ 1 < shared.live := by
      rw [Int32.lt_iff_toInt_lt, toInt_one, harc]
      omega
    by_cases hlast : shared.live = 1
    · have hnot : ¬ 1 < shared.block.arc := by
        rw [hlt]
        omega
      rw [if_neg hnot, if_pos hlast]
    · have hmore : 1 < shared.block.arc := by
        rw [hlt]
        omega
      rw [if_pos hmore, if_neg hlast]
  simp [step, hlive, finalize, hcount, bind, Except.bind, hlast,
    Shared.counted]

theorem step_drop_null {wrapper : Nat}
    (hnull : shared.wrappers[wrapper]? = some .null) :
    step member shared (.drop wrapper) =
      .ok ⟨shared.block, shared.wrappers.set wrapper (.dropping [])⟩ := by
  simp [step, hnull]

theorem step_finish (hsound : Sound member shared) {wrapper : Nat} {act : Act}
    {todo : List Act}
    (hfound : shared.wrappers[wrapper]? = some (.dropping (act :: todo))) :
    step member shared (.finish wrapper) =
      .ok ⟨{ shared.block with done := shared.block.done ++ [act] },
        shared.wrappers.set wrapper (.dropping todo)⟩ := by
  have hperform := perform_of_lastDrop (hsound.retiring hfound).2.1
  simp [step, hfound, hperform, bind, Except.bind]

theorem step_use (hsound : Sound member shared) {wrapper : Nat}
    (hlive : shared.wrappers[wrapper]? = some .live) :
    step member shared (.use wrapper) = .ok shared := by
  have hdone := (hsound.shared (live_pos hlive)).1
  simp [step, hlive, Block.touch, hdone, bind, Except.bind]

theorem Sound.make (hsound : Sound member shared) :
    Sound member { shared with wrappers := shared.wrappers ++ [.null] } := by
  have hlive : Shared.live
      { shared with wrappers := shared.wrappers ++ [.null] } = shared.live := by
    simp [Shared.live]
  constructor
  · rw [hlive]
    exact hsound.arc
  · rw [hlive]
    exact hsound.bound
  · unfold Phase
    rw [hlive]
    rcases hsound.phase with
      ⟨hpos, hdone, hquiet⟩ | ⟨hzero, index, wrapper, hindex, horder, hquiet⟩
    · left
      exact ⟨hpos, hdone, hquiet.append_null⟩
    · right
      refine ⟨hzero, index, wrapper, ?_, horder, hquiet.append_null⟩
      rw [List.getElem?_append_left
        (List.getElem?_eq_some_iff.mp hindex).choose]
      exact hindex

theorem Sound.toInt_arc_add (hsound : Sound member shared) {delta : Int32}
    {value : Int} (hdelta : delta.toInt = value)
    (hlow : -2 ^ 31 ≤ shared.live + value)
    (hhigh : shared.live + value < 2 ^ 31) :
    (shared.block.arc + delta).toInt = shared.live + value := by
  rw [← hsound.arc, ← hdelta] at hlow hhigh ⊢
  exact toInt_add_of_fits hlow hhigh

theorem Sound.copy (hsound : Sound member shared) {self other : Nat}
    (hself : shared.wrappers[self]? = some .live)
    (hother : shared.wrappers[other]? = some .null)
    (hfits : shared.live + 1 < 2 ^ 31) :
    Sound member (shared.counted 1 other .live) := by
  have hcount : (shared.wrappers.set other .live).count .live =
      shared.live + 1 := by
    have hset := count_live_set hother .live
    simpa [Shared.live] using hset
  have hshared := hsound.shared (live_pos hself)
  constructor
  · rw [Shared.counted_arc, Shared.counted_live, hcount,
      hsound.toInt_arc_add toInt_one (by omega) (by omega)]
    rfl
  · rw [Shared.counted_live, hcount]
    exact hfits
  · apply Shared.phase_counted
    left
    refine ⟨?_, hshared.1, ?_⟩
    · change 0 < (shared.wrappers.set other .live).count .live
      omega
    · apply hshared.2.set
      right
      rfl

theorem Sound.drop_live (hsound : Sound member shared) {wrapper : Nat}
    (hlive : shared.wrappers[wrapper]? = some .live) :
    Sound member (shared.counted (-1) wrapper (.dropping
      (if shared.live = 1 then member.lastDrop else []))) := by
  have hcount (todo : List Act) :
      (shared.wrappers.set wrapper (.dropping todo)).count .live + 1 =
        shared.live := by
    have hset := count_live_set hlive (.dropping todo)
    simpa [Shared.live] using hset
  have hbound := hsound.bound
  have hshared := hsound.shared (live_pos hlive)
  have hone := hcount (if shared.live = 1 then member.lastDrop else [])
  constructor
  · rw [Shared.counted_arc, Shared.counted_live,
      hsound.toInt_arc_add toInt_minus_one (by omega) (by omega)]
    omega
  · rw [Shared.counted_live]
    omega
  · apply Shared.phase_counted
    by_cases hlast : shared.live = 1
    · right
      rw [if_pos hlast]
      refine ⟨?_, wrapper, .dropping member.lastDrop, ?_, ?_, ?_⟩
      · apply Nat.succ.inj
        exact (hcount member.lastDrop).trans hlast
      · exact List.getElem?_set_self
          (List.getElem?_eq_some_iff.mp hlive).choose
      · rw [hshared.1]
        exact List.nil_append _
      · apply (hshared.2.mono (some wrapper)).set
        left
        rfl
    · left
      rw [if_neg hlast]
      refine ⟨?_, hshared.1, ?_⟩
      · have hmore := hcount []
        change 0 < (shared.wrappers.set wrapper (.dropping [])).count .live
        omega
      · apply hshared.2.set
        right
        rfl

theorem Sound.drop_null (hsound : Sound member shared) {wrapper : Nat}
    (hnull : shared.wrappers[wrapper]? = some .null) :
    Sound member
      ⟨shared.block, shared.wrappers.set wrapper (.dropping [])⟩ := by
  have hlive : Shared.live
      ⟨shared.block, shared.wrappers.set wrapper (.dropping [])⟩ =
      shared.live := by
    simpa [Shared.live] using count_live_set hnull (.dropping [])
  constructor
  · rw [hlive]
    exact hsound.arc
  · rw [hlive]
    exact hsound.bound
  · unfold Phase
    rw [hlive]
    rcases hsound.phase with
      ⟨hpos, hdone, hquiet⟩ | ⟨hzero, index, found, hindex, horder, hquiet⟩
    · left
      refine ⟨hpos, hdone, ?_⟩
      apply hquiet.set
      right
      rfl
    · right
      by_cases heq : wrapper = index
      · subst heq
        rw [hnull] at hindex
        cases hindex
        refine ⟨hzero, wrapper, .dropping [], ?_, horder, ?_⟩
        · exact List.getElem?_set_self
            (List.getElem?_eq_some_iff.mp hnull).choose
        · apply hquiet.set
          left
          rfl
      · refine ⟨hzero, index, found, ?_, horder, ?_⟩
        · rw [List.getElem?_set_ne heq]
          exact hindex
        · apply hquiet.set
          right
          rfl

theorem Sound.finish (hsound : Sound member shared) {wrapper : Nat} {act : Act}
    {todo : List Act}
    (hfound : shared.wrappers[wrapper]? = some (.dropping (act :: todo))) :
    Sound member ⟨{ shared.block with done := shared.block.done ++ [act] },
      shared.wrappers.set wrapper (.dropping todo)⟩ := by
  have hretiring := hsound.retiring hfound
  have hlive : Shared.live
      ⟨{ shared.block with done := shared.block.done ++ [act] },
        shared.wrappers.set wrapper (.dropping todo)⟩ = shared.live := by
    simpa [Shared.live] using count_live_set hfound (.dropping todo)
  constructor
  · rw [hlive]
    exact hsound.arc
  · rw [hlive]
    exact hsound.bound
  · right
    refine ⟨by omega, wrapper, .dropping todo, ?_, ?_, ?_⟩
    · exact List.getElem?_set_self
        (List.getElem?_eq_some_iff.mp hfound).choose
    · rw [← hretiring.2.1, List.append_assoc]
      rfl
    · apply hretiring.2.2.set
      left
      rfl

/-- A wrapper that `Used` lets finish. -/
theorem exists_of_finish {wrapper : Nat}
    (hused : Used shared (.finish wrapper)) :
    ∃ act todo,
      shared.wrappers[wrapper]? = some (.dropping (act :: todo)) := by
  cases hfound : shared.wrappers[wrapper]? with
  | none => simp [Used, hfound] at hused
  | some found =>
      rcases found with _ | _ | ⟨_ | ⟨act, todo⟩⟩
      · simp [Used, hfound] at hused
      · simp [Used, hfound] at hused
      · simp [Used, hfound] at hused
      · exact ⟨act, todo, rfl⟩

theorem step_sound (label : Label) (hsound : Sound member shared)
    (hfits : Fits shared label) :
    ∃ next, step member shared label = .ok next ∧ Sound member next := by
  rcases hfits with ⟨hused, hfits⟩
  cases label with
  | make => exact ⟨_, rfl, hsound.make⟩
  | copy self other =>
      have hroom := hfits rfl
      exact ⟨_, step_copy hsound hused.1 hused.2 hroom,
        hsound.copy hused.1 hused.2 hroom⟩
  | drop wrapper =>
      rcases hused with hnull | hlive
      · exact ⟨_, step_drop_null hnull, hsound.drop_null hnull⟩
      · exact ⟨_, step_drop_live hsound hlive, hsound.drop_live hlive⟩
  | finish wrapper =>
      rcases exists_of_finish hused with ⟨act, todo, hfound⟩
      exact ⟨_, step_finish hsound hfound, hsound.finish hfound⟩
  | use wrapper => exact ⟨shared, step_use hsound hused, hsound⟩

theorem run_sound {labels : List Label} (hsound : Sound member shared)
    (hadmissible : Admissible Fits (step member) shared labels) :
    ∃ final, run (step member) shared labels = .ok final ∧
      Sound member final := by
  apply run_safe _ hsound hadmissible
  intro state label hstate hfits
  exact step_sound label hstate hfits

end Steps

section Variants

/-- A call that both variants make. -/
def Act.shown : Act → Bool
  | .destroyMutex => false
  | _ => true

/-- A wrapper without the calls that only one variant makes. -/
def Wrapper.shown : Wrapper → Wrapper
  | .null => .null
  | .live => .live
  | .dropping todo => .dropping (todo.filter Act.shown)

/-- What a program can see: the counter, the calls on the object and `free`,
and what each wrapper is up to. -/
def Shared.shown (shared : Shared) : Int32 × List Act × List Wrapper :=
  (shared.block.arc, shared.block.done.filter Act.shown,
    shared.wrappers.map Wrapper.shown)

/-- The call of a finalizer that destroys the mutex of the block. -/
def hidden (shared : Shared) : Label → Bool
  | .finish wrapper =>
      shared.wrappers[wrapper]?.any
        (· matches .dropping (.destroyMutex :: _))
  | _ => false

/-- Sound states of two variants that look the same. -/
structure Alike (member other : Member) (shared shared' : Shared) : Prop where
  sound : Sound member shared
  sound' : Sound other shared'
  shown : shared.shown = shared'.shown

variable {member other : Member} {shared shared' : Shared}

theorem Wrapper.shown_eq_live {wrapper : Wrapper} :
    wrapper.shown = .live ↔ wrapper = .live := by
  cases wrapper <;> simp [Wrapper.shown]

theorem Wrapper.shown_eq_null {wrapper : Wrapper} :
    wrapper.shown = .null ↔ wrapper = .null := by
  cases wrapper <;> simp [Wrapper.shown]

theorem Alike.arc (halike : Alike member other shared shared') :
    shared.block.arc = shared'.block.arc :=
  congrArg Prod.fst halike.shown

theorem Alike.done (halike : Alike member other shared shared') :
    shared.block.done.filter Act.shown =
      shared'.block.done.filter Act.shown :=
  congrArg (fun seen => seen.2.1) halike.shown

theorem Alike.wrappers (halike : Alike member other shared shared') :
    shared.wrappers.map Wrapper.shown = shared'.wrappers.map Wrapper.shown :=
  congrArg (fun seen => seen.2.2) halike.shown

/-- A wrapper of one variant has its like in the other. -/
theorem Alike.wrapper (halike : Alike member other shared shared')
    {index : Nat} {wrapper : Wrapper}
    (hfound : shared.wrappers[index]? = some wrapper) :
    ∃ wrapper', shared'.wrappers[index]? = some wrapper' ∧
      wrapper.shown = wrapper'.shown := by
  have hshown := congrArg (fun shown => shown[index]?) halike.wrappers
  simp only [List.getElem?_map, hfound, Option.map_some] at hshown
  cases hfound' : shared'.wrappers[index]? with
  | none => simp [hfound'] at hshown
  | some wrapper' =>
      rw [hfound'] at hshown
      exact ⟨wrapper', rfl, Option.some.inj hshown⟩

theorem Alike.wrapper_live (halike : Alike member other shared shared')
    {index : Nat} (hlive : shared.wrappers[index]? = some .live) :
    shared'.wrappers[index]? = some .live := by
  rcases halike.wrapper hlive with ⟨wrapper', hfound', hshown⟩
  rw [hfound', Wrapper.shown_eq_live.mp hshown.symm]

theorem Alike.wrapper_null (halike : Alike member other shared shared')
    {index : Nat} (hnull : shared.wrappers[index]? = some .null) :
    shared'.wrappers[index]? = some .null := by
  rcases halike.wrapper hnull with ⟨wrapper', hfound', hshown⟩
  rw [hfound', Wrapper.shown_eq_null.mp hshown.symm]

theorem Alike.live (halike : Alike member other shared shared') :
    shared.live = shared'.live := by
  have harc := congrArg Int32.toInt halike.arc
  rw [halike.sound.arc, halike.sound'.arc] at harc
  exact Int.ofNat.inj harc

theorem lastDrop_shown (hdestroy : member.destroy = other.destroy) :
    member.lastDrop.filter Act.shown = other.lastDrop.filter Act.shown := by
  unfold Member.lastDrop
  rw [hdestroy]
  cases member.guarded <;> cases other.guarded <;>
    simp [List.filter_append, Act.shown]

theorem map_shown_set {wrappers wrappers' : List Wrapper}
    (hshown : wrappers.map Wrapper.shown = wrappers'.map Wrapper.shown)
    (index : Nat) {wrapper wrapper' : Wrapper}
    (hwrapper : wrapper.shown = wrapper'.shown) :
    (wrappers.set index wrapper).map Wrapper.shown =
      (wrappers'.set index wrapper').map Wrapper.shown := by
  rw [List.map_set, List.map_set, hshown, hwrapper]

theorem map_shown_set_self {wrappers : List Wrapper} {index : Nat}
    {wrapper wrapper' : Wrapper} (hfound : wrappers[index]? = some wrapper)
    (hwrapper : wrapper'.shown = wrapper.shown) :
    (wrappers.set index wrapper').map Wrapper.shown =
      wrappers.map Wrapper.shown := by
  rcases List.getElem?_eq_some_iff.mp hfound with ⟨hindex, rfl⟩
  rw [List.map_set, hwrapper]
  apply List.ext_getElem?
  intro other
  rw [List.getElem?_set]
  split
  · next heq =>
      subst heq
      simp [hindex]
  · rfl

theorem counted_shown (hshown : shared.shown = shared'.shown) (delta : Int32)
    (index : Nat) {wrapper wrapper' : Wrapper}
    (hwrapper : wrapper.shown = wrapper'.shown) :
    (shared.counted delta index wrapper).shown =
      (shared'.counted delta index wrapper').shown := by
  simp only [Shared.shown, Prod.mk.injEq] at hshown
  rcases hshown with ⟨harc, hdone, hwrappers⟩
  simp only [Shared.shown, Shared.counted, Prod.mk.injEq]
  refine ⟨?_, hdone, ?_⟩
  · rw [harc]
  · exact map_shown_set hwrappers index hwrapper

/-- Destroying the mutex of the block is not seen. -/
theorem shown_destroyMutex {index : Nat} {todo : List Act}
    (hfound : shared.wrappers[index]? = some
      (.dropping (.destroyMutex :: todo))) :
    Shared.shown
      ⟨{ shared.block with done := shared.block.done ++ [.destroyMutex] },
        shared.wrappers.set index (.dropping todo)⟩ = shared.shown := by
  have hwrapper : Wrapper.shown (.dropping todo) =
      Wrapper.shown (.dropping (.destroyMutex :: todo)) := by
    simp [Wrapper.shown, Act.shown]
  have hwrappers := map_shown_set_self hfound hwrapper
  simp [Shared.shown, hwrappers, Act.shown]

theorem fits_finish {wrapper : Nat} {act : Act} {todo : List Act}
    (hfound : shared.wrappers[wrapper]? = some (.dropping (act :: todo))) :
    Fits shared (.finish wrapper) := by
  constructor
  · simp [Used, hfound]
  · simp

theorem hidden_finish {wrapper : Nat} {act : Act} {todo : List Act}
    (hfound : shared.wrappers[wrapper]? = some (.dropping (act :: todo))) :
    hidden shared (.finish wrapper) = !act.shown := by
  cases act <;> simp [hidden, hfound, Act.shown]

/-- A call that is seen is matched by the same call, after that on the mutex
where there is one. -/
theorem finish_matches {index : Nat} {act : Act} {todo : List Act}
    (hfound : shared.wrappers[index]? = some (.dropping (act :: todo)))
    (hact : act.shown = true) (todo' : List Act) :
    ∀ shared', Alike member other shared shared' →
      shared'.wrappers[index]? = some (.dropping todo') →
      todo'.filter Act.shown = (act :: todo).filter Act.shown →
      Matches Fits hidden (step other) (Alike member other) shared'
        [.finish index]
        ⟨{ shared.block with done := shared.block.done ++ [act] },
          shared.wrappers.set index (.dropping todo)⟩ := by
  induction todo' with
  | nil =>
      intro shared' _ _ htodo
      simp [hact] at htodo
  | cons first rest ih =>
      intro shared' halike hfound' htodo
      have hstep := step_finish halike.sound' hfound'
      have hsound' := halike.sound'.finish hfound'
      cases hfirst : first.shown with
      | false =>
          have hmutex : first = .destroyMutex := by
            cases first <;> simp_all [Act.shown]
          subst hmutex
          apply Matches.hide (fits_finish hfound') _ hstep
          · apply ih
            · exact ⟨halike.sound, hsound',
                halike.shown.trans (shown_destroyMutex hfound').symm⟩
            · exact List.getElem?_set_self
                (List.getElem?_eq_some_iff.mp hfound').choose
            · simpa [hfirst] using htodo
          · rw [hidden_finish hfound', hfirst]
            rfl
      | true =>
          simp only [List.filter_cons, hfirst, hact, if_true,
            List.cons.injEq] at htodo
          rcases htodo with ⟨rfl, hrest⟩
          apply Matches.single (fits_finish hfound') _ hstep
          · refine ⟨halike.sound.finish hfound, hsound', ?_⟩
            have hwrapper : Wrapper.shown (.dropping todo) =
                Wrapper.shown (.dropping rest) := by
              simp [Wrapper.shown, hrest]
            have hwrappers := map_shown_set halike.wrappers index hwrapper
            simp [Shared.shown, hwrappers, halike.arc, halike.done]
          · rw [hidden_finish hfound', hfirst]
            rfl

theorem copy_matches (halike : Alike member other shared shared')
    {self new : Nat} (hself : shared.wrappers[self]? = some .live)
    (hnew : shared.wrappers[new]? = some .null)
    (hroom : shared.live + 1 < 2 ^ 31) :
    Matches Fits hidden (step other) (Alike member other) shared'
      [.copy self new] (shared.counted 1 new .live) := by
  have hself' := halike.wrapper_live hself
  have hnew' := halike.wrapper_null hnew
  have hroom' : shared'.live + 1 < 2 ^ 31 := halike.live ▸ hroom
  apply Matches.single ⟨⟨hself', hnew'⟩, fun _ => hroom'⟩ rfl
    (step_copy halike.sound' hself' hnew' hroom')
  exact ⟨halike.sound.copy hself hnew hroom,
    halike.sound'.copy hself' hnew' hroom', counted_shown halike.shown 1 new rfl⟩

theorem drop_null_matches (halike : Alike member other shared shared')
    {wrapper : Nat} (hnull : shared.wrappers[wrapper]? = some .null) :
    Matches Fits hidden (step other) (Alike member other) shared'
      [.drop wrapper]
      ⟨shared.block, shared.wrappers.set wrapper (.dropping [])⟩ := by
  have hnull' := halike.wrapper_null hnull
  have hwrappers := map_shown_set halike.wrappers wrapper
    (show (Wrapper.dropping []).shown = (Wrapper.dropping []).shown from rfl)
  apply Matches.single ⟨Or.inl hnull', by simp⟩ rfl (step_drop_null hnull')
  refine ⟨halike.sound.drop_null hnull, halike.sound'.drop_null hnull', ?_⟩
  simp [Shared.shown, halike.arc, halike.done, hwrappers]

/-- The last drop looks the same: the members destroy the same object. -/
theorem drop_live_matches (hdestroy : member.destroy = other.destroy)
    (halike : Alike member other shared shared') {wrapper : Nat}
    (hlive : shared.wrappers[wrapper]? = some .live) :
    Matches Fits hidden (step other) (Alike member other) shared'
      [.drop wrapper]
      (shared.counted (-1) wrapper (.dropping
        (if shared.live = 1 then member.lastDrop else []))) := by
  have hlive' := halike.wrapper_live hlive
  have hlast :
      (if shared.live = 1 then member.lastDrop else []).filter Act.shown =
        (if shared'.live = 1 then other.lastDrop else []).filter Act.shown := by
    rw [halike.live]
    split
    · exact lastDrop_shown hdestroy
    · rfl
  apply Matches.single ⟨Or.inr hlive', by simp⟩ rfl
    (step_drop_live halike.sound' hlive')
  refine ⟨halike.sound.drop_live hlive, halike.sound'.drop_live hlive', ?_⟩
  apply counted_shown halike.shown
  exact congrArg Wrapper.dropping hlast

/-- The call on the mutex of the block is matched by no step. -/
theorem finish_destroyMutex_matches
    (halike : Alike member other shared shared') {wrapper : Nat}
    {todo : List Act} (hfound : shared.wrappers[wrapper]? =
      some (.dropping (.destroyMutex :: todo))) :
    Matches Fits hidden (step other) (Alike member other) shared' []
      ⟨{ shared.block with done := shared.block.done ++ [.destroyMutex] },
        shared.wrappers.set wrapper (.dropping todo)⟩ := by
  apply Matches.stay
  exact ⟨halike.sound.finish hfound, halike.sound',
    (shown_destroyMutex hfound).trans halike.shown⟩

/-- A wrapper that looks like one with calls left has calls left. -/
theorem Alike.dropping (halike : Alike member other shared shared')
    {wrapper : Nat} {todo : List Act}
    (hfound : shared.wrappers[wrapper]? = some (.dropping todo)) :
    ∃ todo', shared'.wrappers[wrapper]? = some (.dropping todo') ∧
      todo'.filter Act.shown = todo.filter Act.shown := by
  rcases halike.wrapper hfound with ⟨wrapper', hfound', hshown⟩
  cases wrapper' with
  | null => simp [Wrapper.shown] at hshown
  | live => simp [Wrapper.shown] at hshown
  | dropping todo' =>
      exact ⟨todo', hfound', (Wrapper.dropping.inj hshown).symm⟩

theorem step_alike (hdestroy : member.destroy = other.destroy)
    (halike : Alike member other shared shared') {label : Label}
    (hfits : Fits shared label) {next : Shared}
    (hstep : step member shared label = .ok next) :
    Matches Fits hidden (step other) (Alike member other) shared'
      (if hidden shared label then [] else [label]) next := by
  rcases hfits with ⟨hused, hroom⟩
  cases label with
  | make =>
      cases hstep
      apply Matches.single ⟨trivial, by simp⟩ rfl rfl
      refine ⟨halike.sound.make, halike.sound'.make, ?_⟩
      simp [Shared.shown, halike.arc, halike.done, halike.wrappers]
  | copy self new =>
      have hroom := hroom rfl
      rw [step_copy halike.sound hused.1 hused.2 hroom] at hstep
      cases hstep
      exact copy_matches halike hused.1 hused.2 hroom
  | drop wrapper =>
      rcases hused with hnull | hlive
      · rw [step_drop_null hnull] at hstep
        cases hstep
        exact drop_null_matches halike hnull
      · rw [step_drop_live halike.sound hlive] at hstep
        rw [← Except.ok.inj hstep]
        exact drop_live_matches hdestroy halike hlive
  | finish wrapper =>
      rcases exists_of_finish hused with ⟨act, todo, hfound⟩
      rw [step_finish halike.sound hfound] at hstep
      cases hstep
      rw [hidden_finish hfound]
      cases hact : act.shown with
      | false =>
          have hmutex : act = .destroyMutex := by
            cases act <;> simp_all [Act.shown]
          subst hmutex
          exact finish_destroyMutex_matches halike hfound
      | true =>
          rcases halike.dropping hfound with ⟨todo', hfound', htodo⟩
          exact finish_matches hfound hact todo' shared' halike hfound' htodo
  | use wrapper =>
      have hlive' := halike.wrapper_live hused
      rw [step_use halike.sound hused] at hstep
      cases hstep
      exact Matches.single ⟨hlive', by simp⟩ rfl
        (step_use halike.sound' hlive') halike

end Variants

section Interleavings

theorem Class.destroy_member (cls : Class) (c11 c11' : Bool) :
    (cls.member c11).destroy = (cls.member c11').destroy := by
  cases cls <;> rfl

theorem count_lastDrop (cls : Class) (c11 : Bool) :
    (cls.member c11).lastDrop.count .free = 1 ∧
      (cls ≠ .thread →
        (cls.member c11).lastDrop.count (.destroyObject cls) = 1) := by
  cases cls <;> cases c11 <;> decide

/-- When no finalizer has calls left, the block is untouched or everything was
called on it. -/
theorem Sound.done_of_quiet {member : Member} {shared : Shared}
    (hsound : Sound member shared) (hlive : shared.live = 0)
    (hquiet : ∀ wrapper ∈ shared.wrappers, wrapper.todo = []) :
    shared.block.done = member.lastDrop := by
  rcases hsound.phase with ⟨hpos, _⟩ | ⟨_, index, wrapper, hfound, horder, _⟩
  · omega
  · rw [hquiet wrapper (List.mem_of_getElem? hfound),
      List.append_nil] at horder
    exact horder

theorem Sound.done_nodup {member : Member} {shared : Shared}
    (hsound : Sound member shared) : shared.block.done.Nodup := by
  rcases hsound.phase with ⟨_, hdone, _⟩ | ⟨_, index, wrapper, _, horder, _⟩
  · rw [hdone]
    exact List.nodup_nil
  · have hnodup := member.lastDrop_nodup
    rw [← horder] at hnodup
    exact (List.nodup_append.mp hnodup).1

/-- Every interleaving in which fewer than `2 ^ 31` wrappers are alive at once
counts them, leaves the block alone until the last drop, makes the calls of
that drop once and without a fault, and looks the same in both variants. -/
theorem shared_block_counted :
    (∀ (cls : Class) (c11 : Bool) (labels : List Label),
      Admissible Fits (step (cls.member c11)) start labels →
      ∃ final, run (step (cls.member c11)) start labels = .ok final ∧
        final.block.arc.toInt = final.live ∧
        (0 < final.live → final.block.done = []) ∧
        final.block.done.Nodup ∧
        (final.live = 0 → (∀ wrapper ∈ final.wrappers, wrapper.todo = []) →
          final.block.done.count .free = 1 ∧
            (cls ≠ .thread →
              final.block.done.count (.destroyObject cls) = 1)) ∧
        ∀ wrapper, final.wrappers[wrapper]? = some .live →
          ∃ next, step (cls.member c11) final (.drop wrapper) = .ok next ∧
            next.wrappers[wrapper]? = some (.dropping
              (if final.live = 1 then (cls.member c11).lastDrop else []))) ∧
    ∀ (cls : Class) (c11 c11' : Bool) (labels : List Label),
      Admissible Fits (step (cls.member c11)) start labels →
      ∃ final labels' final',
        run (step (cls.member c11)) start labels = .ok final ∧
        Admissible Fits (step (cls.member c11')) start labels' ∧
        run (step (cls.member c11')) start labels' = .ok final' ∧
        visible hidden (step (cls.member c11')) start labels' =
          visible hidden (step (cls.member c11)) start labels ∧
        final.shown = final'.shown := by
  constructor
  · intro cls c11 labels hadmissible
    rcases run_sound (Sound.start _) hadmissible with ⟨final, hrun, hsound⟩
    refine ⟨final, hrun, hsound.arc, ?_, hsound.done_nodup, ?_, ?_⟩
    · intro hlive
      exact (hsound.shared hlive).1
    · intro hlive hquiet
      rw [hsound.done_of_quiet hlive hquiet]
      exact count_lastDrop cls c11
    · intro wrapper hlive
      refine ⟨_, step_drop_live hsound hlive, ?_⟩
      rw [Shared.counted_wrappers]
      exact List.getElem?_set_self
        (List.getElem?_eq_some_iff.mp hlive).choose
  · intro cls c11 c11' labels hadmissible
    rcases run_sound (Sound.start _) hadmissible with ⟨final, hrun, _⟩
    have hstart : Alike (cls.member c11) (cls.member c11') start start :=
      ⟨Sound.start _, Sound.start _, rfl⟩
    have hmatches : Matches Fits hidden (step (cls.member c11'))
        (Alike (cls.member c11) (cls.member c11')) start
        (visible hidden (step (cls.member c11)) start labels) final := by
      apply run_matches _ hstart hadmissible hrun
      intro shared shared' label next halike hfits hstep
      exact step_alike (cls.destroy_member c11 c11') halike hfits hstep
    rcases hmatches with
      ⟨labels', hadmissible', hvisible, final', hrun', halike⟩
    exact ⟨final, labels', final', hrun, hadmissible', hrun', hvisible,
      halike.shown⟩

/-- One share, and the drop of both wrappers of a semaphore. -/
theorem shared_block_counted_sem :
    Admissible Fits (step (Class.sem.member false)) start
      [.make, .copy 0 1, .drop 0, .drop 1, .finish 1, .finish 1, .finish 1] ∧
    ∃ final, run (step (Class.sem.member false)) start
        [.make, .copy 0 1, .drop 0, .drop 1, .finish 1, .finish 1,
          .finish 1] = .ok final ∧
      final.block.arc.toInt = final.live := by
  have hadmissible : Admissible Fits (step (Class.sem.member false)) start
      [.make, .copy 0 1, .drop 0, .drop 1, .finish 1, .finish 1,
        .finish 1] := by
    decide
  rcases shared_block_counted.1 .sem false _ hadmissible with
    ⟨final, hrun, harc, _⟩
  exact ⟨hadmissible, final, hrun, harc⟩

/-- So many shares through the first wrapper. -/
def shares : Nat → List Label
  | 0 => []
  | n + 1 => shares n ++ [.make, .copy 0 (n + 1)]

/-- Without a bound every share goes through where no mutex guards the
counter. -/
theorem run_shares (member : Member) (hguarded : member.guarded = false)
    (n : Nat) :
    Admissible Used (step member) start (shares n) ∧
      run (step member) start (shares n) =
        .ok ⟨⟨Int32.ofNat (n + 1), []⟩, List.replicate (n + 1) .live⟩ := by
  induction n with
  | zero => exact ⟨trivial, rfl⟩
  | succ n ih =>
      rcases ih with ⟨hadmissible, hrun⟩
      have hself : (List.replicate (n + 1) Wrapper.live ++ [.null])[0]? =
          some .live := by
        simp [List.replicate_succ]
      have hother : (List.replicate (n + 1) Wrapper.live ++ [.null])[n + 1]? =
          some .null := by
        simp
      have hset : (List.replicate (n + 1) Wrapper.live ++
          [Wrapper.null]).set (n + 1) .live =
            List.replicate (n + 1) .live ++ [.live] := by
        rw [List.set_append_right _ _ (by simp), List.length_replicate,
          Nat.sub_self]
        rfl
      have harc : Int32.ofNat (n + 1) + 1 = Int32.ofNat (n + 1 + 1) := by
        rw [Int32.ofNat_add (n + 1) 1]
        rfl
      have hcopy : step member
          ⟨⟨Int32.ofNat (n + 1), []⟩,
            List.replicate (n + 1) .live ++ [.null]⟩ (.copy 0 (n + 1)) =
          .ok ⟨⟨Int32.ofNat (n + 1 + 1), []⟩,
            List.replicate (n + 2) .live⟩ := by
        simp only [step, hself, hother, SharedBlock.copy, count, Block.touch,
          hguarded, bind, Except.bind, List.not_mem_nil, if_false,
          Bool.false_eq_true, harc, hset]
        rw [← List.replicate_succ']
      constructor
      · apply hadmissible.append hrun
        refine ⟨trivial, ⟨hself, hother⟩, ?_⟩
        rw [hcopy]
        trivial
      · rw [shares, run_append, hrun]
        simp only [run, step.eq_1]
        rw [hcopy]

theorem shares_overflow (member : Member) (hguarded : member.guarded = false)
    (n : Nat) (hn : n + 1 = 2 ^ 31) :
    Admissible Used (step member) start (shares n) ∧
      ¬ ∃ final, run (step member) start (shares n) = .ok final ∧
        final.block.arc.toInt = final.live := by
  rcases run_shares member hguarded n with ⟨hadmissible, hrun⟩
  refine ⟨hadmissible, ?_⟩
  rintro ⟨final, hfinal, harc⟩
  rw [hrun] at hfinal
  have heq := Except.ok.inj hfinal
  subst heq
  have hlive : Shared.live ⟨⟨Int32.ofNat (n + 1), []⟩,
      List.replicate (n + 1) .live⟩ = n + 1 :=
    List.count_replicate_self
  have hwrapped : (Int32.ofNat (2 ^ 31)).toInt = -2 ^ 31 := by decide
  rw [hlive, hn, hwrapped] at harc
  omega

/-- The `2 ^ 31`-th live wrapper wraps the counter, and what a `Thread` holds
in its block is freed with it and not destroyed. -/
theorem shared_block_overflow :
    (Admissible Used (step (Class.mutex.member true)) start
        (shares (2 ^ 31 - 1)) ∧
      ¬ ∃ final, run (step (Class.mutex.member true)) start
          (shares (2 ^ 31 - 1)) = .ok final ∧
        final.block.arc.toInt = final.live) ∧
    (Admissible Used (step (Class.thread.member true)) start
        [.drop 0, .finish 0, .finish 0] ∧
      ∃ final, run (step (Class.thread.member true)) start
          [.drop 0, .finish 0, .finish 0] = .ok final ∧
        final.block.done.count .free = 1 ∧
        final.block.done.count (.destroyObject .thread) = 0) := by
  constructor
  · apply shares_overflow
    · rfl
    · decide
  · refine ⟨by decide, _, rfl, ?_⟩
    decide

end Interleavings

end UvMbt.SharedBlock
