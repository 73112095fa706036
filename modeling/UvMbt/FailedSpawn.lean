/-
The handles on the queue of a loop, in runs with spawns that fail.  A process
that failed to start stays on the queue, and `Loop::spawn` gives it to no one.
-/
import UvMbt.Constructors
import UvMbt.GuardedRun

set_option autoImplicit false

namespace UvMbt.FailedSpawn

open Constructors

/-- A loop, and the handles that its user has been given, by number. -/
structure State where
  world : World
  held : List Nat
  deriving Repr, DecidableEq

/-- What the user does, and the exit of a child; `walk` gives the user every
handle on the queue, and `run` runs the callbacks of closing handles. -/
inductive Event where
  | construct (c : Constructor) (answer : Answer)
  | close (handle : Nat)
  | exit (handle : Nat)
  | walk
  | run
  deriving Repr, DecidableEq

section Code

/-- `moonbit_uv_close` of a handle that is not closing yet. -/
def startClosing (handle : HandleObject) : HandleObject :=
  if handle.queued && !handle.closing then
    { handle with data := true, closing := true }
  else handle

/-- `moonbit_uv_exit_cb`. -/
def exitCb (handle : HandleObject) : HandleObject :=
  if handle.kind = .process && handle.queued && !handle.closing then
    { handle with data := false }
  else handle

/-- An object of the list changes its slot. -/
def changeHandle (world : World) (change : HandleObject → HandleObject)
    (handle : Nat) : World :=
  match world.handles[handle]? with
  | none => world
  | some old =>
      let new := change old
      ⟨world.loop, world.closures + new.data.toNat - old.data.toNat,
        world.handles.set handle new⟩

/-- The last step of a closing handle: libuv takes it from the queue, and
`moonbit_uv_close_cb` takes the callback out of the slot and releases the
handle. -/
def closeCb (handle : HandleObject) :
    Option (HandleObject × Released) :=
  if handle.closing then do
    let (handle, released) ← decref
      { handle with queued := false, closing := false, data := false }
    return (handle, ⟨released.loop, released.closures + 1⟩)
  else some (handle, ⟨0, 0⟩)

def runClosing : List HandleObject → Option (List HandleObject × Released)
  | [] => some ([], ⟨0, 0⟩)
  | handle :: rest => do
      let (handle, first) ← closeCb handle
      let (rest, others) ← runClosing rest
      return (handle :: rest,
        ⟨first.loop + others.loop, first.closures + others.closures⟩)

/-- The closing phase of `uv_run`. -/
def runLoop (world : World) : Option World := do
  let (handles, released) ← runClosing world.handles
  return ⟨world.loop - released.loop, world.closures - released.closures,
    handles⟩

def uvEbusy : Int := -16

/-- `uv_loop_close`. -/
def loopClose (world : World) : Int :=
  if world.handles.any (·.queued) then uvEbusy else 0

/-- The numbers of the handles on the queue. -/
def queue (world : World) : List Nat :=
  (List.range world.handles.length).filter fun handle =>
    (world.handles[handle]?.map (·.queued)).getD false

/-- `moonbit_uv_walk_cb` takes a reference to each handle that it shows. -/
def shown (handle : HandleObject) : HandleObject :=
  if handle.queued then { handle with rc := handle.rc + 1 } else handle

/-- `Loop::walk`. -/
def walk (world : World) : World :=
  { world with handles := world.handles.map shown }

def step (s : State) : Event → Except RefHeap.Fault State
  | .construct c answer =>
      match construct c.init answer s.world with
      | none => .error .nullPointer
      | some (world, raised) =>
          .ok ⟨world, if raised.isNone then
            s.held ++ [s.world.handles.length] else s.held⟩
  | .close handle =>
      if handle ∈ s.held then
        .ok { s with world := changeHandle s.world startClosing handle }
      else .ok s
  | .exit handle => .ok { s with world := changeHandle s.world exitCb handle }
  | .walk => .ok ⟨walk s.world, s.held ++ queue s.world⟩
  | .run =>
      match runLoop s.world with
      | none => .error .nullPointer
      | some world => .ok { s with world }

end Code

/-- A loop without handles. -/
def start : State := ⟨⟨1, 0, []⟩, []⟩

/-- What libuv does: an init that succeeds puts the handle on the queue, and
of those that fail only `uv_spawn` may leave it there. -/
def Event.Lawful : Event → Prop
  | .construct c answer =>
      (0 ≤ answer.status → answer.loop = true ∧ answer.queued = true) ∧
        (answer.status < 0 → answer.queued = true →
          answer.loop = true ∧ ∃ exitCb, c = .loopSpawn exitCb)
  | _ => True

/-- `Loop::spawn` raises. -/
def Event.failsSpawn : Event → Bool
  | .construct (.loopSpawn _) answer => answer.status < 0
  | _ => false

section Statement

/-- Every spawn that raises is undone. -/
def SpawnsUndone : State → List Event → Prop
  | _, [] => True
  | s, event :: rest =>
      match step s event with
      | .error _ => False
      | .ok next =>
          (event.failsSpawn = true → Undone s.world next.world) ∧
            SpawnsUndone next rest

/-- The user closes every handle it was given, and then the loop. -/
def Closable (s : State) : Prop :=
  ∃ final, GuardedRun.run step s (s.held.map .close ++ [.run]) = .ok final ∧
    loopClose final.world = 0

/-- A run after which the loop can be closed. -/
def LeavesClosable (events : List Event) : Prop :=
  ∃ s, GuardedRun.run step start events = .ok s ∧ Closable s

/-- Whether a process that failed to start is on the queue, and no walk has
shown it since. -/
def orphanAfter (orphaned : Bool) : Event → Bool
  | .construct (.loopSpawn _) answer =>
      orphaned || (decide (answer.status < 0) && answer.queued)
  | .walk => false
  | _ => orphaned

def orphaned (events : List Event) : Bool := events.foldl orphanAfter false

end Statement

section Handles

/-- A handle on the queue has its loop, and a closing handle is on the
queue. -/
def Sound (handle : HandleObject) : Prop :=
  (handle.queued = true → handle.loop = true) ∧
    (handle.closing = true → handle.queued = true)

theorem Sound.startClosing {handle : HandleObject} (hsound : Sound handle) :
    Sound (startClosing handle) := by
  unfold FailedSpawn.startClosing
  split
  · next hopen =>
      rw [Bool.and_eq_true] at hopen
      exact ⟨hsound.1, fun _ => hopen.1⟩
  · exact hsound

theorem startClosing_startClosing (handle : HandleObject) :
    startClosing (startClosing handle) = startClosing handle := by
  cases hqueued : handle.queued <;> cases hclosing : handle.closing <;>
    simp [startClosing, hqueued, hclosing]

theorem startClosing_closed (handle : HandleObject)
    (hqueued : (startClosing handle).queued = true) :
    (startClosing handle).closing = true := by
  unfold startClosing at *
  cases hopen : handle.queued && !handle.closing with
  | true => simp
  | false =>
      simp only [hopen, Bool.false_eq_true, if_false] at hqueued ⊢
      simpa [hqueued] using hopen

theorem exitCb_queued (handle : HandleObject) :
    (exitCb handle).queued = handle.queued ∧
      (exitCb handle).closing = handle.closing ∧
        (exitCb handle).loop = handle.loop := by
  unfold exitCb
  split <;> simp

theorem Sound.exitCb {handle : HandleObject} (hsound : Sound handle) :
    Sound (exitCb handle) := by
  rcases exitCb_queued handle with ⟨hqueued, hclosing, hloop⟩
  rw [Sound, hqueued, hclosing, hloop]
  exact hsound

/-- A handle after its part of the closing phase. -/
def closed (handle : HandleObject) : HandleObject :=
  if handle.closing then
    { handle with
      rc := handle.rc - 1
      freed := if 1 < handle.rc then handle.freed else handle.freed + 1
      data := false
      queued := false
      closing := false }
  else handle

theorem finalize_eq_some (handle : HandleObject)
    (hhandle : handle.kind = .timer → handle.loop = true) :
    ∃ released, finalize handle = some released := by
  cases hkind : handle.kind with
  | timer =>
      have hloop := hhandle hkind
      exact ⟨_, by simp only [finalize, hkind, hloop, if_true]; rfl⟩
  | _ => exact ⟨_, by simp only [finalize, hkind]; rfl⟩

theorem closeCb_eq {handle : HandleObject} (hsound : Sound handle) :
    ∃ released, closeCb handle = some (closed handle, released) := by
  cases hclosing : handle.closing with
  | false =>
      refine ⟨⟨0, 0⟩, ?_⟩
      simp [closeCb, closed, hclosing]
  | true =>
      have hloop := hsound.1 (hsound.2 hclosing)
      by_cases hrc : 1 < handle.rc
      · refine ⟨⟨0, 0 + 1⟩, ?_⟩
        simp [closeCb, closed, hclosing, decref, hrc]
      · have hzero : handle.rc - 1 = 0 := by omega
        rcases finalize_eq_some
            { handle with queued := false, closing := false, data := false }
            (fun _ => hloop) with ⟨released, hreleased⟩
        refine ⟨⟨released.loop, released.closures + 1⟩, ?_⟩
        simp [closeCb, closed, hclosing, decref, hrc, hreleased, hzero]

theorem runClosing_eq {handles : List HandleObject}
    (hsound : ∀ handle ∈ handles, Sound handle) :
    ∃ released, runClosing handles = some (handles.map closed, released) := by
  induction handles with
  | nil => exact ⟨_, rfl⟩
  | cons handle rest ih =>
      rcases closeCb_eq (hsound handle (by simp)) with ⟨first, hfirst⟩
      have hrest : ∀ other ∈ rest, Sound other := by
        intro other hother
        exact hsound other (by simp [hother])
      rcases ih hrest with ⟨others, hothers⟩
      simp only [runClosing, hfirst, hothers, Option.bind_eq_bind,
        Option.bind_some]
      exact ⟨_, rfl⟩

theorem closed_queued (handle : HandleObject) :
    (closed handle).queued = (handle.queued && !handle.closing) ∧
      (closed handle).closing = false := by
  cases hclosing : handle.closing <;> simp [closed, hclosing]

theorem Sound.closed {handle : HandleObject} (hsound : Sound handle) :
    Sound (closed handle) := by
  cases hclosing : handle.closing with
  | true => simp [Sound, FailedSpawn.closed, hclosing]
  | false =>
      rw [FailedSpawn.closed, hclosing]
      exact hsound

theorem getElem?_changeHandle (world : World)
    (change : HandleObject → HandleObject) (handle other : Nat) :
    (changeHandle world change handle).handles[other]? =
      world.handles[other]?.map fun old =>
        if other = handle then change old else old := by
  unfold changeHandle
  cases hold : world.handles[handle]? with
  | none =>
      by_cases hother : other = handle
      · rw [hother, hold]
        rfl
      · simp [hother]
  | some old =>
      by_cases hother : other = handle
      · have hlt := (List.getElem?_eq_some_iff.mp hold).choose
        rw [hother, hold]
        simp [hlt]
      · simp [Ne.symm hother, hother]

theorem length_changeHandle (world : World)
    (change : HandleObject → HandleObject) (handle : Nat) :
    (changeHandle world change handle).handles.length =
      world.handles.length := by
  unfold changeHandle
  cases world.handles[handle]? <;> simp

theorem sound_changeHandle {world : World}
    {change : HandleObject → HandleObject}
    (hchange : ∀ handle, Sound handle → Sound (change handle))
    (hsound : ∀ handle ∈ world.handles, Sound handle) (handle : Nat) :
    ∀ other ∈ (changeHandle world change handle).handles, Sound other := by
  intro other hother
  rcases List.mem_iff_getElem?.mp hother with ⟨index, hindex⟩
  rw [getElem?_changeHandle, Option.map_eq_some_iff] at hindex
  rcases hindex with ⟨old, hold, rfl⟩
  have holdSound := hsound old (List.mem_of_getElem? hold)
  split
  · exact hchange old holdSound
  · exact holdSound

/-- Every constructor adds one object, which is as libuv has left it. -/
theorem construct_eq (c : Constructor) (answer : Answer) (world : World) :
    ∃ loop closures handle,
      construct c.init answer world =
        some (⟨loop, closures, world.handles ++ [handle]⟩,
          if answer.status < 0 then some answer.status else none) ∧
      handle.queued = answer.queued ∧ handle.loop = answer.loop ∧
        handle.closing = false := by
  by_cases hstatus : answer.status < 0
  · rw [if_pos hstatus]
    cases hreleases : c.init.releasesHandle with
    | false =>
        exact ⟨_, _, _, construct_kept c.init answer world hstatus hreleases,
          rfl, rfl, rfl⟩
    | true =>
        have hkind : c.init.kind ≠ .timer := by
          intro htimer
          cases c <;> cases htimer
          cases hreleases
        rcases finalize_eq_some (initialised c.init answer 1)
          (fun htimer => absurd htimer hkind) with ⟨released, hreleased⟩
        have hresult :=
          construct_released c.init answer world hstatus hreleases
        rw [hreleased] at hresult
        exact ⟨_, _, _, hresult, rfl, rfl, rfl⟩
  · rw [if_neg hstatus]
    exact ⟨_, _, _, construct_accepted c.init answer world (by omega), rfl,
      rfl, rfl⟩

end Handles

section Lost

/-- A handle on the queue that its user neither closes nor holds. -/
def Lost (handles : List HandleObject) (held : List Nat) : Prop :=
  ∃ index handle, handles[index]? = some handle ∧ handle.queued = true ∧
    handle.closing = false ∧ index ∉ held

variable {handles : List HandleObject} {held : List Nat}

theorem lost_append_held (handle : HandleObject) :
    Lost (handles ++ [handle]) (held ++ [handles.length]) ↔
      Lost handles held := by
  constructor
  · rintro ⟨index, old, hold, hqueued, hclosing, hheld⟩
    rw [List.mem_append, List.mem_singleton, not_or] at hheld
    rw [List.getElem?_append] at hold
    split at hold
    · exact ⟨index, old, hold, hqueued, hclosing, hheld.1⟩
    · have hzero : index - handles.length ≠ 0 := by omega
      simp [hzero] at hold
  · rintro ⟨index, old, hold, hqueued, hclosing, hheld⟩
    have hlt := (List.getElem?_eq_some_iff.mp hold).choose
    refine ⟨index, old, ?_, hqueued, hclosing, ?_⟩
    · rw [List.getElem?_append_left hlt]
      exact hold
    · rw [List.mem_append, List.mem_singleton, not_or]
      exact ⟨hheld, by omega⟩

theorem lost_append (hheld : ∀ index ∈ held, index < handles.length)
    {handle : HandleObject} (hopen : handle.closing = false) :
    Lost (handles ++ [handle]) held ↔
      Lost handles held ∨ handle.queued = true := by
  constructor
  · rintro ⟨index, old, hold, hqueued, hclosing, hunheld⟩
    rw [List.getElem?_append] at hold
    split at hold
    · exact Or.inl ⟨index, old, hold, hqueued, hclosing, hunheld⟩
    · rw [List.getElem?_singleton] at hold
      split at hold
      · cases hold
        exact Or.inr hqueued
      · cases hold
  · rintro (⟨index, old, hold, hqueued, hclosing, hunheld⟩ | hqueued)
    · have hlt := (List.getElem?_eq_some_iff.mp hold).choose
      refine ⟨index, old, ?_, hqueued, hclosing, hunheld⟩
      rw [List.getElem?_append_left hlt]
      exact hold
    · refine ⟨handles.length, handle, by simp, hqueued, hopen, ?_⟩
      intro hmem
      exact absurd (hheld _ hmem) (Nat.lt_irrefl _)

/-- What happens to handles of the user, or leaves the queue as it is. -/
theorem lost_congr {after : List HandleObject}
    (change : Nat → HandleObject → HandleObject)
    (hafter : ∀ index, after[index]? = handles[index]?.map (change index))
    (hchange : ∀ index handle, index ∉ held →
      ((change index handle).queued && !(change index handle).closing) =
        (handle.queued && !handle.closing)) :
    Lost after held ↔ Lost handles held := by
  constructor
  · rintro ⟨index, new, hnew, hqueued, hclosing, hheld⟩
    rw [hafter, Option.map_eq_some_iff] at hnew
    rcases hnew with ⟨old, hold, rfl⟩
    have hsame := (hchange index old hheld).symm
    rw [hqueued, hclosing] at hsame
    simp only [Bool.not_false, Bool.and_true, Bool.and_eq_true,
      Bool.not_eq_true'] at hsame
    exact ⟨index, old, hold, hsame.1, hsame.2, hheld⟩
  · rintro ⟨index, old, hold, hqueued, hclosing, hheld⟩
    have hsame := hchange index old hheld
    rw [hqueued, hclosing] at hsame
    simp only [Bool.not_false, Bool.and_true, Bool.and_eq_true,
      Bool.not_eq_true'] at hsame
    refine ⟨index, change index old, ?_, hsame.1, hsame.2, hheld⟩
    rw [hafter, hold]
    rfl

theorem mem_queue {world : World} {index : Nat} {handle : HandleObject}
    (hhandle : world.handles[index]? = some handle) :
    index ∈ queue world ↔ handle.queued = true := by
  have hlt := (List.getElem?_eq_some_iff.mp hhandle).choose
  rw [queue, List.mem_filter, List.mem_range, hhandle]
  simp [hlt]

theorem shown_eq (handle : HandleObject) :
    (shown handle).queued = handle.queued ∧
      (shown handle).closing = handle.closing ∧
        (shown handle).loop = handle.loop := by
  unfold shown
  split <;> simp

theorem Sound.shown {handle : HandleObject} (hsound : Sound handle) :
    Sound (shown handle) := by
  rcases shown_eq handle with ⟨hqueued, hclosing, hloop⟩
  rw [Sound, hqueued, hclosing, hloop]
  exact hsound

/-- A walk gives everything to the user. -/
theorem not_lost_walk (world : World) :
    ¬ Lost (walk world).handles (held ++ queue world) := by
  rintro ⟨index, handle, hhandle, hqueued, _, hheld⟩
  apply hheld
  rw [walk, List.getElem?_map, Option.map_eq_some_iff] at hhandle
  rcases hhandle with ⟨old, hold, rfl⟩
  rw [(shown_eq old).1] at hqueued
  rw [List.mem_append]
  exact Or.inr ((mem_queue hold).mpr hqueued)

end Lost

section Runs

/-- The state as long as no handle crashes the loop, and whether one of them is
lost. -/
structure Tracks (orphaned : Bool) (s : State) : Prop where
  sound : ∀ handle ∈ s.world.handles, Sound handle
  held_lt : ∀ index ∈ s.held, index < s.world.handles.length
  lost_iff : Lost s.world.handles s.held ↔ orphaned = true

theorem tracks_start : Tracks false start := by
  refine ⟨by simp [start], by simp [start], ?_⟩
  constructor
  · rintro ⟨index, handle, hhandle, _⟩
    simp [start] at hhandle
  · intro hfalse
    cases hfalse

theorem orphanAfter_construct {c : Constructor} {answer : Answer}
    (hlawful : Event.Lawful (.construct c answer)) (orphaned : Bool) :
    orphanAfter orphaned (.construct c answer) =
      (orphaned || (decide (answer.status < 0) && answer.queued)) := by
  cases c with
  | loopSpawn exitCb => rfl
  | _ =>
      by_cases hstatus : answer.status < 0
      · cases hqueued : answer.queued with
        | false => simp [orphanAfter]
        | true =>
            rcases (hlawful.2 hstatus hqueued).2 with ⟨exitCb, hspawn⟩
            cases hspawn
      · simp [orphanAfter, hstatus]

theorem step_construct {orphaned : Bool} {s : State}
    (htracks : Tracks orphaned s) {c : Constructor} {answer : Answer}
    (hlawful : Event.Lawful (.construct c answer)) :
    ∃ next, step s (.construct c answer) = .ok next ∧
      Tracks (orphanAfter orphaned (.construct c answer)) next := by
  rcases construct_eq c answer s.world with
    ⟨loop, closures, handle, hresult, hqueued, hloop, hclosing⟩
  have hsound : Sound handle := by
    constructor
    · intro hhandle
      rw [hloop]
      rw [hqueued] at hhandle
      by_cases hstatus : answer.status < 0
      · exact (hlawful.2 hstatus hhandle).1
      · exact (hlawful.1 (by omega)).1
    · intro hhandle
      rw [hclosing] at hhandle
      cases hhandle
  have hsounds : ∀ other ∈ s.world.handles ++ [handle], Sound other := by
    intro other hother
    rcases List.mem_append.mp hother with hold | hnew
    · exact htracks.sound other hold
    · rw [List.mem_singleton.mp hnew]
      exact hsound
  rw [orphanAfter_construct hlawful]
  simp only [step, hresult]
  by_cases hstatus : answer.status < 0
  · refine ⟨_, rfl, ?_⟩
    simp only [hstatus, if_true, Option.isNone_some, Bool.false_eq_true,
      if_false, decide_true, Bool.true_and]
    refine ⟨hsounds, ?_, ?_⟩
    · intro index hindex
      have hlt := htracks.held_lt index hindex
      rw [List.length_append]
      omega
    · rw [lost_append htracks.held_lt hclosing, htracks.lost_iff, hqueued,
        Bool.or_eq_true]
  · refine ⟨_, rfl, ?_⟩
    simp only [hstatus, if_false, Option.isNone_none, if_true, decide_false,
      Bool.false_and, Bool.or_false]
    refine ⟨hsounds, ?_, ?_⟩
    · intro index hindex
      rw [List.length_append, List.length_singleton]
      rcases List.mem_append.mp hindex with hold | hnew
      · have hlt := htracks.held_lt index hold
        omega
      · rw [List.mem_singleton.mp hnew]
        omega
    · exact (lost_append_held handle).trans htracks.lost_iff

theorem step_run {s : State}
    (hsound : ∀ handle ∈ s.world.handles, Sound handle) :
    ∃ next, step s .run = .ok next ∧ next.held = s.held ∧
      next.world.handles = s.world.handles.map closed := by
  rcases runClosing_eq hsound with ⟨released, hreleased⟩
  simp only [step, runLoop, hreleased, Option.bind_eq_bind, Option.bind_some]
  exact ⟨_, rfl, rfl, rfl⟩

theorem Tracks.close {orphaned : Bool} {s : State} (htracks : Tracks orphaned s)
    {handle : Nat} (hheld : handle ∈ s.held) :
    Tracks orphaned
      { s with world := changeHandle s.world startClosing handle } := by
  refine ⟨?_, ?_, ?_⟩
  · exact sound_changeHandle (fun _ hsound => hsound.startClosing)
      htracks.sound handle
  · rw [length_changeHandle]
    exact htracks.held_lt
  · apply Iff.trans _ htracks.lost_iff
    apply lost_congr _ (getElem?_changeHandle s.world startClosing handle)
    intro index other hindex
    have hne : index ≠ handle := by
      rintro rfl
      exact hindex hheld
    simp [hne]

theorem Tracks.exit {orphaned : Bool} {s : State} (htracks : Tracks orphaned s)
    (handle : Nat) :
    Tracks orphaned
      { s with world := changeHandle s.world exitCb handle } := by
  refine ⟨?_, ?_, ?_⟩
  · exact sound_changeHandle (fun _ hsound => hsound.exitCb) htracks.sound
      handle
  · rw [length_changeHandle]
    exact htracks.held_lt
  · apply Iff.trans _ htracks.lost_iff
    apply lost_congr _ (getElem?_changeHandle s.world exitCb handle)
    intro index other _
    rcases exitCb_queued other with ⟨hqueued, hclosing, _⟩
    split
    · rw [hqueued, hclosing]
    · rfl

/-- A walk finds what was lost. -/
theorem Tracks.walk {orphaned : Bool} {s : State} (htracks : Tracks orphaned s) :
    Tracks false ⟨walk s.world, s.held ++ queue s.world⟩ := by
  refine ⟨?_, ?_, ?_⟩
  · intro handle hhandle
    rcases List.mem_map.mp hhandle with ⟨old, hold, rfl⟩
    exact (htracks.sound old hold).shown
  · intro index hindex
    rw [FailedSpawn.walk, List.length_map]
    rcases List.mem_append.mp hindex with hold | hnew
    · exact htracks.held_lt index hold
    · rw [queue, List.mem_filter, List.mem_range] at hnew
      exact hnew.1
  · constructor
    · intro hlost
      exact absurd hlost (not_lost_walk s.world)
    · intro hfalse
      cases hfalse

theorem Tracks.run {orphaned : Bool} {s next : State}
    (htracks : Tracks orphaned s) (hheld : next.held = s.held)
    (hhandles : next.world.handles = s.world.handles.map closed) :
    Tracks orphaned next := by
  refine ⟨?_, ?_, ?_⟩
  · intro handle hhandle
    rw [hhandles] at hhandle
    rcases List.mem_map.mp hhandle with ⟨old, hold, rfl⟩
    exact (htracks.sound old hold).closed
  · rw [hheld, hhandles, List.length_map]
    exact htracks.held_lt
  · rw [hheld, hhandles]
    apply Iff.trans _ htracks.lost_iff
    apply lost_congr (fun _ => closed)
    · intro index
      exact List.getElem?_map
    · intro index handle _
      rcases closed_queued handle with ⟨hqueued, hclosing⟩
      rw [hqueued, hclosing, Bool.not_false, Bool.and_true]

theorem step_tracks {orphaned : Bool} {s : State}
    (htracks : Tracks orphaned s) {event : Event} (hlawful : event.Lawful) :
    ∃ next, step s event = .ok next ∧
      Tracks (orphanAfter orphaned event) next := by
  cases event with
  | construct c answer => exact step_construct htracks hlawful
  | close handle =>
      by_cases hheld : handle ∈ s.held
      · exact ⟨_, by rw [step, if_pos hheld], htracks.close hheld⟩
      · exact ⟨s, by rw [step, if_neg hheld], htracks⟩
  | exit handle => exact ⟨_, rfl, htracks.exit handle⟩
  | walk => exact ⟨_, rfl, htracks.walk⟩
  | run =>
      rcases step_run htracks.sound with ⟨next, hstep, hheld, hhandles⟩
      exact ⟨next, hstep, htracks.run hheld hhandles⟩

theorem run_tracks {orphaned : Bool} {s : State} (htracks : Tracks orphaned s)
    {events : List Event} (hlawful : ∀ event ∈ events, event.Lawful) :
    ∃ final, GuardedRun.run step s events = .ok final ∧
      Tracks (events.foldl orphanAfter orphaned) final := by
  induction events generalizing orphaned s with
  | nil => exact ⟨s, rfl, htracks⟩
  | cons event rest ih =>
      rcases step_tracks htracks (hlawful event (by simp)) with
        ⟨next, hstep, hnext⟩
      have hrest : ∀ later ∈ rest, later.Lawful := by
        intro later hlater
        exact hlawful later (by simp [hlater])
      rcases ih hnext hrest with ⟨final, hrun, hfinal⟩
      refine ⟨final, ?_, hfinal⟩
      rw [GuardedRun.run, hstep]
      exact hrun

/-- The user starts to close some of the handles it holds. -/
theorem run_closes {s : State}
    (hsound : ∀ handle ∈ s.world.handles, Sound handle) {indices : List Nat}
    (hheld : ∀ index ∈ indices, index ∈ s.held) :
    ∃ final, GuardedRun.run step s (indices.map .close) = .ok final ∧
      (∀ handle ∈ final.world.handles, Sound handle) ∧
      ∀ index, final.world.handles[index]? =
        s.world.handles[index]?.map fun handle =>
          if index ∈ indices then startClosing handle else handle := by
  induction indices generalizing s with
  | nil => exact ⟨s, rfl, hsound, by simp⟩
  | cons first rest ih =>
      have hstep : step s (.close first) =
          .ok { s with world := changeHandle s.world startClosing first } := by
        rw [step, if_pos (hheld first (by simp))]
      have hrest : ∀ index ∈ rest, index ∈ s.held := by
        intro index hindex
        exact hheld index (by simp [hindex])
      rcases ih (s := { s with
          world := changeHandle s.world startClosing first })
          (sound_changeHandle (fun _ hsound => hsound.startClosing) hsound
            first) hrest with ⟨final, hrun, hfinal, hhandles⟩
      refine ⟨final, ?_, hfinal, ?_⟩
      · rw [List.map_cons, GuardedRun.run, hstep]
        exact hrun
      · intro index
        rw [hhandles, getElem?_changeHandle, Option.map_map]
        congr 1
        funext handle
        by_cases hfirst : index = first
        · by_cases hmem : first ∈ rest <;>
            simp [hfirst, hmem, startClosing_startClosing]
        · simp [hfirst]

theorem loopClose_eq_zero (world : World) :
    loopClose world = 0 ↔
      ∀ handle ∈ world.handles, handle.queued = false := by
  unfold loopClose
  split
  · next hany =>
      constructor
      · intro hbusy
        cases hbusy
      · intro hnone
        rcases List.any_eq_true.mp hany with ⟨handle, hmem, hqueued⟩
        rw [hnone handle hmem] at hqueued
        cases hqueued
  · next hany =>
      simpa using hany

/-- What a close by the user and a run of the loop leave in the queue. -/
theorem closed_startClosing_queued (handle : HandleObject) (held : Prop)
    [Decidable held] :
    (closed (if held then startClosing handle else handle)).queued = true ↔
      handle.queued = true ∧ handle.closing = false ∧ ¬held := by
  rw [(closed_queued _).1]
  by_cases hheld : held
  · rw [if_pos hheld]
    cases hqueued : (startClosing handle).queued with
    | false => simp [hheld]
    | true => simp [startClosing_closed handle hqueued, hheld]
  · simp [hheld]

/-- A loop can be closed unless a handle is lost. -/
theorem closable_iff {s : State}
    (hsound : ∀ handle ∈ s.world.handles, Sound handle) :
    Closable s ↔ ¬ Lost s.world.handles s.held := by
  rcases run_closes hsound (fun index hindex => hindex) with
    ⟨middle, hrun, hmiddle, hhandles⟩
  rcases step_run hmiddle with ⟨final, hstep, _, hclosed⟩
  have hclosing : GuardedRun.run step s (s.held.map .close ++ [.run]) =
      .ok final := by
    rw [GuardedRun.run_append, hrun]
    simp only [GuardedRun.run, hstep]
  have hclosable : Closable s ↔ loopClose final.world = 0 := by
    constructor
    · rintro ⟨other, hother, hclose⟩
      rw [hclosing] at hother
      cases hother
      exact hclose
    · intro hclose
      exact ⟨final, hclosing, hclose⟩
  rw [hclosable, loopClose_eq_zero, hclosed]
  constructor
  · rintro hnone ⟨index, handle, hhandle, hlost⟩
    have hsame := hhandles index
    rw [hhandle, Option.map_some] at hsame
    have hgone := hnone _ (List.mem_map_of_mem (List.mem_of_getElem? hsame))
    have hleft := (closed_startClosing_queued handle (index ∈ s.held)).mpr hlost
    rw [hgone] at hleft
    cases hleft
  · intro hlost handle hhandle
    rcases List.mem_map.mp hhandle with ⟨other, hmem, rfl⟩
    rcases List.mem_iff_getElem?.mp hmem with ⟨index, hindex⟩
    rw [hhandles, Option.map_eq_some_iff] at hindex
    rcases hindex with ⟨old, hold, rfl⟩
    rw [← Bool.not_eq_true, closed_startClosing_queued]
    intro hleft
    exact hlost ⟨index, old, hold, hleft⟩

/-- No spawn that raises is undone. -/
theorem not_undone_of_failsSpawn {s next : State} {event : Event}
    (hfails : event.failsSpawn = true) (hstep : step s event = .ok next) :
    ¬ Undone s.world next.world := by
  cases event with
  | construct c answer =>
      cases c with
      | loopSpawn exitCb =>
          intro hundone
          have hstatus : answer.status < 0 := of_decide_eq_true hfails
          have hkept := construct_kept (Constructors.spawn exitCb) answer
            s.world hstatus rfl
          have hundoes : Undoes (Constructors.spawn exitCb) answer s.world := by
            refine ⟨_, _, hkept, ?_⟩
            intro _
            simp only [step, Constructor.init, hkept] at hstep
            cases hstep
            exact hundone
          rw [undoes_iff] at hundoes
          rcases hundoes with haccepted | ⟨hreleases, _⟩
          · omega
          · cases hreleases
      | _ => cases hfails
  | _ => cases hfails

theorem spawnsUndone_iff {orphaned : Bool} {s : State}
    (htracks : Tracks orphaned s) {events : List Event}
    (hlawful : ∀ event ∈ events, event.Lawful) :
    SpawnsUndone s events ↔
      ∀ event ∈ events, event.failsSpawn = false := by
  induction events generalizing orphaned s with
  | nil => simp [SpawnsUndone]
  | cons event rest ih =>
      rcases step_tracks htracks (hlawful event (by simp)) with
        ⟨next, hstep, hnext⟩
      have hrest : ∀ later ∈ rest, later.Lawful := by
        intro later hlater
        exact hlawful later (by simp [hlater])
      simp only [SpawnsUndone, hstep, ih hnext hrest, List.mem_cons,
        forall_eq_or_imp]
      apply and_congr_left
      intro _
      cases hfails : event.failsSpawn with
      | false => simp
      | true => simp [not_undone_of_failsSpawn hfails hstep]

theorem orphaned_of_none_fails {events : List Event}
    (hnone : ∀ event ∈ events, event.failsSpawn = false) :
    orphaned events = false := by
  unfold orphaned
  induction events with
  | nil => rfl
  | cons event rest ih =>
      have hfirst := hnone event (by simp)
      have hsame : orphanAfter false event = false := by
        cases event with
        | construct c answer =>
            cases c with
            | loopSpawn exitCb =>
                have hstatus : ¬ answer.status < 0 :=
                  of_decide_eq_false hfirst
                simp [orphanAfter, hstatus]
            | _ => rfl
        | _ => rfl
      rw [List.foldl_cons, hsame]
      apply ih
      intro later hlater
      exact hnone later (by simp [hlater])

end Runs

/-- In a run every spawn that raises is undone and the loop can be closed
exactly if no spawn raises; and the loop can be closed exactly if no process
that failed to start is on the queue that a later walk has not shown. -/
theorem spawn_leaves_closable {events : List Event}
    (hlawful : ∀ event ∈ events, event.Lawful) :
    (SpawnsUndone start events ∧ LeavesClosable events ↔
      ∀ event ∈ events, event.failsSpawn = false) ∧
    (LeavesClosable events ↔ orphaned events = false) := by
  rcases run_tracks tracks_start hlawful with ⟨final, hrun, htracks⟩
  have hclosable : LeavesClosable events ↔ orphaned events = false := by
    have hfinal : LeavesClosable events ↔ Closable final := by
      constructor
      · rintro ⟨s, hs, hclosable⟩
        rw [hrun] at hs
        cases hs
        exact hclosable
      · intro hclosable
        exact ⟨final, hrun, hclosable⟩
    rw [hfinal, closable_iff htracks.sound, htracks.lost_iff,
      Bool.not_eq_true]
    rfl
  refine ⟨?_, hclosable⟩
  rw [hclosable, spawnsUndone_iff tracks_start hlawful]
  exact and_iff_left_of_imp orphaned_of_none_fails

/-- A timer and a child, closed one after the other. -/
def closedBoth : List Event :=
  [.construct .timerNew .accepted, .construct (.loopSpawn true) .accepted,
    .close 0, .run, .exit 1, .close 1]

theorem spawn_leaves_closable_closedBoth :
    SpawnsUndone start closedBoth ∧ LeavesClosable closedBoth := by
  have hlawful : ∀ event ∈ closedBoth, event.Lawful := by
    simp [closedBoth, Event.Lawful, Answer.accepted]
  exact (spawn_leaves_closable hlawful).1.mpr (by decide)

/-- A program that does not exist. -/
def missingProgram : List Event :=
  [.construct (.loopSpawn true) ⟨-2, true, true⟩]

theorem missingProgram_blocks_close :
    GuardedRun.run step start missingProgram =
        .ok ⟨⟨2, 1, [⟨.process, 1, 0, true, true, true, false⟩]⟩, []⟩ ∧
      loopClose ⟨2, 1, [⟨.process, 1, 0, true, true, true, false⟩]⟩ =
        uvEbusy ∧
      ¬ SpawnsUndone start missingProgram ∧
      ¬ LeavesClosable missingProgram := by
  refine ⟨rfl, rfl, ?_, ?_⟩
  · rintro ⟨hundone, _⟩
    have hloop := (hundone rfl).1
    cases hloop
  · rintro ⟨s, hrun, final, hfinal, hclose⟩
    cases hrun
    cases hfinal
    cases hclose

end UvMbt.FailedSpawn
