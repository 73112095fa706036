/-
The constructors of handles.  Every one makes the object, hands the loop and
the object to an init stub, and drops its own reference when it raises.  What
the stub keeps belongs to libuv, which gives it back on closing.
-/
import UvMbt.Handle

set_option autoImplicit false

namespace UvMbt.Constructors

/-- A handle object: its count, how often it was freed, `handle->loop`, the
slot, and whether libuv has it on the queue of the loop or is closing it. -/
structure HandleObject where
  kind : Kind
  rc : Nat
  freed : Nat
  loop : Bool
  data : Bool
  queued : Bool
  closing : Bool
  deriving Repr, DecidableEq

/-- How many references to a loop and to closures are given back. -/
structure Released where
  loop : Int
  closures : Int
  deriving Repr, DecidableEq

/-- A loop, by the count of its object; the references that slots own; and the
handles in order of their making. -/
structure World where
  loop : Int
  closures : Int
  handles : List HandleObject
  deriving Repr, DecidableEq

/-- What libuv's init returns, and whether it has set `handle->loop` and put
the handle on the queue by then. -/
structure Answer where
  status : Int
  loop : Bool
  queued : Bool
  deriving Repr, DecidableEq

def Answer.accepted : Answer := ⟨0, true, true⟩

section Objects

/-- The finalizers.  A tty is plain bytes and has none, and the one of a timer
follows `timer.loop` without a test. -/
def finalize (handle : HandleObject) : Option Released :=
  match handle.kind with
  | .tty => some ⟨0, 0⟩
  | .timer => if handle.loop then some ⟨1, handle.data.toNat⟩ else none
  | _ => some ⟨handle.loop.toNat, handle.data.toNat⟩

/-- `moonbit_decref` of a handle. -/
def decref (handle : HandleObject) : Option (HandleObject × Released) :=
  if 1 < handle.rc then
    some ({ handle with rc := handle.rc - 1 }, ⟨0, 0⟩)
  else do
    let released ← finalize handle
    return ({ handle with rc := 0, freed := handle.freed + 1 }, released)

/-- An init stub, by what it does beside calling libuv: whether it puts a
closure into the slot, and which of its arguments it releases. -/
structure InitStub where
  kind : Kind
  setsData : Bool
  releasesLoop : Bool
  releasesHandle : Bool
  deriving Repr, DecidableEq

def InitStub.run (stub : InitStub) (answer : Answer) (handle : HandleObject) :
    Option (HandleObject × Released) := do
  let handle :=
    { handle with
      data := stub.setsData || handle.data
      loop := answer.loop
      queued := answer.queued }
  let (handle, released) ←
    if stub.releasesHandle then decref handle else some (handle, ⟨0, 0⟩)
  return (handle,
    ⟨released.loop + stub.releasesLoop.toNat, released.closures⟩)

/-- `moonbit_uv_*_make`. -/
def make (kind : Kind) : HandleObject :=
  ⟨kind, 1, 0, false, false, false, false⟩

/-- A constructor: the handle, and the error that it raises. -/
def construct (stub : InitStub) (answer : Answer) (world : World) :
    Option (World × Option Int) := do
  let handle := { make stub.kind with rc := 2 }
  let (handle, released) ← stub.run answer handle
  let loop := world.loop + 1 - released.loop
  let closures := world.closures + stub.setsData.toNat - released.closures
  if answer.status < 0 then
    let (handle, released) ← decref handle
    return (⟨loop - released.loop, closures - released.closures,
      world.handles ++ [handle]⟩, some answer.status)
  else
    return (⟨loop, closures, world.handles ++ [handle]⟩, none)

end Objects

section Stubs

/-- The stubs that keep both arguments. -/
def keep (kind : Kind) : InitStub := ⟨kind, false, false, false⟩

def timerInit := keep .timer
def idleInit := keep .idle
def checkInit := keep .check
def prepareInit := keep .prepare
def pollInit := keep .poll
def pollInitSocket := keep .poll
def fsEventInit := keep .fsEvent
def fsPollInit := keep .fsPoll
def pipeInit := keep .pipe
def tcpInit := keep .tcp
def tcpInitEx := keep .tcp
def udpInit := keep .udp
def udpInitEx := keep .udp

/-- `moonbit_uv_signal_init` releases the handle. -/
def signalInit : InitStub := ⟨.signal, false, false, true⟩

/-- `moonbit_uv_async_init` stores its callback and releases the handle. -/
def asyncInit : InitStub := ⟨.async, true, false, true⟩

/-- `moonbit_uv_tty_init` releases both. -/
def ttyInit : InitStub := ⟨.tty, false, true, true⟩

/-- `moonbit_uv_spawn` stores the exit callback of the options, if they still
have one. -/
def spawn (exitCb : Bool) : InitStub := ⟨.process, exitCb, false, false⟩

end Stubs

/-- The constructors that can raise. -/
inductive Constructor where
  | timerNew
  | idleNew
  | checkNew
  | prepareNew
  | pollFile
  | pollSocket
  | signalNew
  | fsEventNew
  | fsPollNew
  | asyncNew
  | pipeNew
  | tcpNew
  | tcpNewEx
  | ttyNew
  | udpNew
  | udpNewEx
  | loopSpawn (exitCb : Bool)
  deriving Repr, DecidableEq

def Constructor.init : Constructor → InitStub
  | .timerNew => timerInit
  | .idleNew => idleInit
  | .checkNew => checkInit
  | .prepareNew => prepareInit
  | .pollFile => pollInit
  | .pollSocket => pollInitSocket
  | .signalNew => signalInit
  | .fsEventNew => fsEventInit
  | .fsPollNew => fsPollInit
  | .asyncNew => asyncInit
  | .pipeNew => pipeInit
  | .tcpNew => tcpInit
  | .tcpNewEx => tcpInitEx
  | .ttyNew => ttyInit
  | .udpNew => udpInit
  | .udpNewEx => udpInitEx
  | .loopSpawn exitCb => spawn exitCb

/-- Nothing is left of a constructor that raises but the trace that its object
was made and freed once. -/
def Undone (before after : World) : Prop :=
  after.loop = before.loop ∧ after.closures = before.closures ∧
    ∃ handle, after.handles = before.handles ++ [handle] ∧
      handle.rc = 0 ∧ handle.freed = 1 ∧ handle.queued = false

/-- A constructor comes to its end, and is undone when it raises. -/
def Undoes (stub : InitStub) (answer : Answer) (before : World) : Prop :=
  ∃ after raised, construct stub answer before = some (after, raised) ∧
    (raised ≠ none → Undone before after)

section Calls

variable (stub : InitStub) (answer : Answer) (world : World)

/-- The object after a call of the stub that keeps it. -/
def initialised (rc : Nat) : HandleObject :=
  ⟨stub.kind, rc, 0, answer.loop, stub.setsData, answer.queued, false⟩

theorem run_make :
    stub.run answer { make stub.kind with rc := 2 } =
      some (initialised stub answer (if stub.releasesHandle then 1 else 2),
        ⟨stub.releasesLoop.toNat, 0⟩) := by
  cases hreleases : stub.releasesHandle with
  | true => simp [InitStub.run, hreleases, decref, make, initialised]
  | false => simp [InitStub.run, hreleases, make, initialised]

/-- A constructor that does not raise. -/
theorem construct_accepted (hstatus : 0 ≤ answer.status) :
    construct stub answer world =
      some (⟨world.loop + 1 - stub.releasesLoop.toNat,
        world.closures + stub.setsData.toNat - 0,
        world.handles ++
          [initialised stub answer (if stub.releasesHandle then 1 else 2)]⟩,
        none) := by
  have hnot : ¬ answer.status < 0 := by omega
  simp only [construct, run_make, Option.bind_eq_bind, Option.bind_some,
    if_neg hnot]
  rfl

/-- The stub keeps the object, which no one frees when the constructor
raises. -/
theorem construct_kept (hstatus : answer.status < 0)
    (hkeeps : stub.releasesHandle = false) :
    construct stub answer world =
      some (⟨world.loop + 1 - stub.releasesLoop.toNat - 0,
        world.closures + stub.setsData.toNat - 0 - 0,
        world.handles ++ [initialised stub answer 1]⟩,
        some answer.status) := by
  simp only [construct, run_make, hkeeps, Option.bind_eq_bind,
    Option.bind_some, if_pos hstatus]
  rfl

/-- The stub releases the object, which is freed when the constructor
raises. -/
theorem construct_released (hstatus : answer.status < 0)
    (hreleases : stub.releasesHandle = true) :
    construct stub answer world =
      (finalize (initialised stub answer 1)).map fun released =>
        (⟨world.loop + 1 - stub.releasesLoop.toNat - released.loop,
          world.closures + stub.setsData.toNat - 0 - released.closures,
          world.handles ++
            [{ initialised stub answer 0 with freed := 1 }]⟩,
          some answer.status) := by
  simp only [construct, run_make, hreleases, if_true, Option.bind_eq_bind,
    Option.bind_some, if_pos hstatus]
  have hlast : ¬ 1 < (initialised stub answer 1).rc := by
    simp [initialised]
  rw [decref, if_neg hlast]
  cases finalize (initialised stub answer 1) with
  | none => rfl
  | some released => rfl

/-- Which stubs undo a constructor that raises. -/
theorem undoes_iff :
    Undoes stub answer world ↔
      0 ≤ answer.status ∨
        stub.releasesHandle = true ∧ answer.queued = false ∧
          finalize (initialised stub answer 1) =
            some ⟨1 - stub.releasesLoop.toNat, stub.setsData.toNat⟩ := by
  by_cases hstatus : answer.status < 0
  · have hnot : ¬ 0 ≤ answer.status := by omega
    rw [or_iff_right hnot]
    cases hreleases : stub.releasesHandle with
    | false =>
        simp only [Bool.false_eq_true, false_and, iff_false]
        rintro ⟨after, raised, hresult, hundone⟩
        rw [construct_kept stub answer world hstatus hreleases] at hresult
        cases hresult
        rcases hundone (by simp) with ⟨_, _, handle, hhandles, hrc, _⟩
        have hhandle := List.append_cancel_left hhandles
        rw [List.cons.injEq] at hhandle
        rw [← hhandle.1] at hrc
        cases hrc
    | true =>
        simp only [true_and]
        have hresult := construct_released stub answer world hstatus hreleases
        constructor
        · rintro ⟨after, raised, hafter, hundone⟩
          rw [hresult] at hafter
          cases hreleased : finalize (initialised stub answer 1) with
          | none =>
              rw [hreleased] at hafter
              cases hafter
          | some released =>
              rw [hreleased] at hafter
              cases hafter
              rcases hundone (by simp) with
                ⟨hloop, hclosures, handle, hhandles, _, _, hqueued⟩
              have hhandle := List.append_cancel_left hhandles
              rw [List.cons.injEq] at hhandle
              rw [← hhandle.1] at hqueued
              refine ⟨hqueued, ?_⟩
              cases released with
              | mk loop closures =>
                  simp only [Option.some.injEq, Released.mk.injEq] at *
                  omega
        · rintro ⟨hqueued, hreleased⟩
          rw [hreleased] at hresult
          refine ⟨_, _, hresult, ?_⟩
          intro _
          refine ⟨?_, ?_, _, rfl, rfl, rfl, hqueued⟩
          · simp only
            omega
          · simp only
            omega
  · have haccepted : 0 ≤ answer.status := by omega
    simp only [haccepted, true_or, iff_true]
    exact ⟨_, _, construct_accepted stub answer world haccepted,
      fun hraised => absurd rfl hraised⟩

end Calls

/-- Of the constructors that raise only the one of a tty is undone whatever
libuv has set; those of a signal and of an async are if it has set the
loop. -/
theorem constructor_undoes_iff (c : Constructor) (answer : Answer)
    (world : World) :
    Undoes c.init answer world ↔
      0 ≤ answer.status ∨
        answer.queued = false ∧
          (c = .ttyNew ∨
            (c = .signalNew ∨ c = .asyncNew) ∧ answer.loop = true) := by
  rw [undoes_iff]
  apply or_congr_right
  rw [and_left_comm]
  apply and_congr_right
  intro _
  cases c <;> cases hloop : answer.loop <;>
    simp [Constructor.init, keep, timerInit, idleInit, checkInit, prepareInit,
      pollInit, pollInitSocket, signalInit, fsEventInit, fsPollInit,
      asyncInit, pipeInit, tcpInit, tcpInitEx, ttyInit, udpInit, udpInitEx,
      spawn, finalize, initialised, hloop]

/-- Polling a bad descriptor: the loop gains a reference, and the object keeps
one. -/
theorem pollFile_leaves_reference :
    construct Constructor.pollFile.init ⟨-9, false, false⟩ ⟨1, 0, []⟩ =
        some (⟨2, 0, [⟨.poll, 1, 0, false, false, false, false⟩]⟩,
          some (-9)) ∧
      ¬ Undoes Constructor.pollFile.init ⟨-9, false, false⟩ ⟨1, 0, []⟩ := by
  constructor
  · rfl
  · rw [undoes_iff]
    decide

end UvMbt.Constructors
