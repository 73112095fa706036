/-
Runs of one handle: the MoonBit code that owns references, the binding's stubs
and trampolines over the heap, and libuv's own record of the handle, which
answers the stubs and decides which trampolines it may call.
-/
import Mathlib.Data.Multiset.Filter
import Mathlib.Data.Multiset.Replicate
import UvMbt.GuardedRun
import UvMbt.Handle

set_option autoImplicit false

namespace UvMbt

open RefHeap

/-- How libuv answers a start: it takes it, fails, returns 0 and goes on as
before, or takes its callback under parameters that it holds on to. -/
inductive Answer where
  | accepted
  | rejected
  | ignored
  | altered (param : Nat)
  deriving Repr, DecidableEq

/-- A start call: its parameters (a path, an event mask, a signal number and
whether it is one-shot) and its callbacks. -/
structure Start where
  param : Nat
  callbacks : List Addr
  deriving Repr, DecidableEq

/-- The start libuv is acting on and the last one that returned normally. -/
structure Watch where
  active : Option Start
  told : Option Start
  deriving Repr, DecidableEq

def Watch.none : Watch := ⟨Option.none, Option.none⟩

def Watch.start (watch : Watch) (start : Start) : Answer → Watch
  | .accepted => ⟨some start, some start⟩
  | .rejected => watch
  | .ignored => ⟨watch.active, some start⟩
  | .altered param => ⟨some { start with param }, some start⟩

def Watch.stop (watch : Watch) (accepted : Bool) : Watch :=
  if accepted then .none else watch

/-- The end of a one-shot watch: a start that returned in its callback is not
taken back. -/
def Watch.expire (watch : Watch) (started : Bool) : Watch :=
  if started then ⟨Option.none, watch.told⟩ else .none

/-- The life of a handle, with the callback that closes it. -/
inductive Life where
  | made
  | failed
  | opened
  | closing (closeCb : Addr)
  | closed (closeCb : Addr)
  deriving Repr, DecidableEq

/-- The close callback of a handle that is closing and not yet closed. -/
def Life.closing? : Life → Option Addr
  | .closing closeCb => some closeCb
  | _ => none

/-- Where libuv is in a read: inside the alloc trampoline, which remembers the
data it found, or between it and the last read trampoline of the batch. -/
inductive Phase where
  | idle
  | allocating (data : Addr)
  | ready
  deriving Repr, DecidableEq

/-- The data the alloc trampoline remembers. -/
def Phase.allocating? : Phase → Option Addr
  | .allocating data => some data
  | _ => none

/-- What libuv is in the middle of, for a process, a UDP handle and a signal:
it has come to the process in a batch of exits and calls its exit trampoline
next, it is in a batch of receives, or it runs the callback of the signal, in
which the handle may have been started. -/
inductive Turn where
  | idle
  | exiting
  | receiving
  | calling (started : Bool)
  deriving Repr, DecidableEq

/-- Whether a start that libuv did not fail came while the callback runs. -/
def Turn.start (turn : Turn) (answer : Answer) : Turn :=
  match turn with
  | .calling started => .calling (started || answer != .rejected)
  | turn => turn

/-- After an event of a kind: the callback of a signal runs. -/
def Turn.afterEvent : Kind → Turn
  | .signal => .calling false
  | _ => .idle

/-- While the callback of a signal runs: whether it was started in it. -/
def Turn.calling? : Turn → Option Bool
  | .calling started => some started
  | .idle | .exiting | .receiving => none

/-- The kind of a handle in a batch. -/
def Turn.kind? : Turn → Option Kind
  | .exiting => some .process
  | .receiving => some .udp
  | .idle | .calling _ => none

/-- The batch of a UDP handle begins with its alloc and ends with its last
receive. -/
def Turn.receive (kind : Kind) (last : Bool) : Turn :=
  if kind = .udp ∧ last = false then .receiving else .idle

/-- libuv leaves a batch of receives that was stopped, and goes on with it when
the handle is only closed. -/
def Turn.afterClose (turn : Turn) (watch : Watch) : Turn :=
  if turn = .receiving ∧ watch.active = none then .idle else turn

structure Call where
  type : CallbackType
  cb : Addr
  deriving Repr, DecidableEq

/-- `user` are the references the MoonBit code owns; `kept` is how many
references to the handle the stubs took and did not release, less those they
released without having taken them; `stale` are the starts of an fs_poll
handle that were stopped while libuv may be waiting for their stat. -/
structure HandleState where
  heap : Heap Obj
  user : Multiset Addr
  kept : Int
  life : Life
  watch : Watch
  listening : Watch
  phase : Phase
  turn : Turn
  stale : List Start
  calls : List Call
  deriving DecidableEq

inductive Label where
  | newClosure (type : CallbackType) (captures : List Addr)
  | newBytes
  | dup (addr : Addr)
  | drop (addr : Addr)
  | walk
  | unpack (closure capture : Addr)
  | init (cb : Option Addr) (accepted : Bool)
  | start (param : Nat) (cb : Addr) (path : Option Addr) (answer : Answer)
  | stop (accepted : Bool)
  | receiveStart (param : Nat) (allocCb readCb : Addr) (answer : Answer)
  | receiveStop (accepted : Bool)
  | listen (param : Nat) (cb : Addr) (accepted : Bool)
  | close (closeCb : Addr)
  | closeReset (closeCb : Addr) (accepted : Bool)
  | send
  | exiting
  | event (ends : Bool)
  | resume (ends : Bool)
  | late (start : Start)
  | discard (start : Start)
  | connection
  | allocEnter
  | allocLeave (buffer : Addr)
  | receive (address last ends : Bool)
  | leave
  | closed
  deriving Repr, DecidableEq

namespace Kind

/-- The receiver data of the kinds that can read. -/
def receiver : Kind → Option ReceiverType
  | .pipe | .tcp | .tty => some .stream
  | .udp => some .udp
  | _ => none

/-- The closure type of the kinds with one start callback. -/
def callback : Kind → Option CallbackType
  | .timer => some .timer
  | .idle => some .idle
  | .check => some .check
  | .prepare => some .prepare
  | .poll => some .poll
  | .signal => some .signal
  | .fsEvent => some .fsEvent
  | .fsPoll => some .fsPoll
  | _ => none

/-- The closure type that init stores, where it stores one. -/
def initCallback : Kind → Option CallbackType
  | .async => some .async
  | .process => some .exit
  | _ => none

/-- How libuv answers a start.  A signal handle that watches the signal already
goes on in its mode, and one that was one-shot may remain so. -/
def Starts (kind : Kind) (answer : Answer) : Prop :=
  if kind = .signal then answer ≠ .ignored
  else answer = .accepted ∨ answer = .rejected

instance (kind : Kind) (answer : Answer) : Decidable (kind.Starts answer) :=
  inferInstanceAs (Decidable (if kind = .signal then answer ≠ .ignored
    else answer = .accepted ∨ answer = .rejected))

/-- How libuv answers a start while an earlier one is active. -/
def Restarts : Kind → Answer → Prop
  | .pipe, answer | .tcp, answer | .tty, answer | .udp, answer
  | .fsEvent, answer => answer = .rejected
  | .fsPoll, answer => answer = .ignored
  | kind, answer => kind.Starts answer

instance (kind : Kind) (answer : Answer) : Decidable (kind.Restarts answer) :=
  match kind with
  | .pipe | .tcp | .tty | .udp | .fsEvent =>
      inferInstanceAs (Decidable (answer = .rejected))
  | .fsPoll => inferInstanceAs (Decidable (answer = .ignored))
  | .timer => inferInstanceAs (Decidable (Kind.timer.Starts answer))
  | .idle => inferInstanceAs (Decidable (Kind.idle.Starts answer))
  | .check => inferInstanceAs (Decidable (Kind.check.Starts answer))
  | .prepare => inferInstanceAs (Decidable (Kind.prepare.Starts answer))
  | .poll => inferInstanceAs (Decidable (Kind.poll.Starts answer))
  | .signal => inferInstanceAs (Decidable (Kind.signal.Starts answer))
  | .async => inferInstanceAs (Decidable (Kind.async.Starts answer))
  | .process => inferInstanceAs (Decidable (Kind.process.Starts answer))

/-- What a start stub releases besides the slot. -/
def startReleases (kind : Kind) (path : Option Addr) : List Addr :=
  if kind = .signal then [] else handleAddr :: path.toList

def stopReleases (kind : Kind) : List Addr :=
  if kind = .signal then [handleAddr, handleAddr] else [handleAddr]

def initReleases : Kind → List Addr
  | .async | .signal => [handleAddr]
  | .tty => [loopAddr, handleAddr]
  | _ => []

/-- Whether a stop stub writes the slot. -/
def stopClears (kind : Kind) : Bool :=
  !(kind = .fsEvent || kind = .fsPoll)

end Kind

section Stubs

variable (kind : Kind) (heap : Heap Obj)

def initOf (cb : Option Addr) (accepted : Bool) : Except Fault (Heap Obj) :=
  match kind, cb with
  | .async, some cb => asyncInit heap cb accepted
  | .process, exitCb => spawn heap exitCb accepted
  | .tty, _ => ttyInit heap accepted
  | .signal, _ => signalInit heap accepted
  | _, _ => handleInit heap accepted

/-- The loop reference of an init that fails is left with nobody, except by a
tty, which has released it. -/
def initForget (accepted : Bool) : Heap Obj :=
  if accepted || kind = .tty then heap else heap.forget loopAddr

def startOf (cb : Addr) (path : Option Addr) : Except Fault (Heap Obj) :=
  match kind, path with
  | .timer, _ => timerStart heap cb
  | .idle, _ => idleStart heap cb
  | .check, _ => checkStart heap cb
  | .prepare, _ => prepareStart heap cb
  | .poll, _ => pollStart heap cb
  | .signal, _ => signalStart heap cb
  | .fsEvent, some path => fsEventStart heap cb path
  | .fsPoll, some path => fsPollStart heap cb path
  | _, _ => .ok heap

def stopOf : Except Fault (Heap Obj) :=
  match kind with
  | .timer => timerStop heap
  | .idle => idleStop heap
  | .check => checkStop heap
  | .prepare => prepareStop heap
  | .poll => pollStop heap
  | .signal => signalStop heap
  | .fsEvent => fsEventStop heap
  | .fsPoll => fsPollStop heap
  | _ => .ok heap

def receiveStartOf (allocCb readCb : Addr) : Except Fault (Heap Obj) :=
  match kind.receiver with
  | some .stream => readStart heap allocCb readCb
  | some .udp => udpRecvStart heap allocCb readCb
  | none => .ok heap

def receiveStopOf : Except Fault (Heap Obj) :=
  match kind.receiver with
  | some .stream => readStop heap
  | some .udp => udpRecvStop heap
  | none => .ok heap

/-- The trampoline of the kind's event, what it calls and the references it
hands over besides the handle and the callback. -/
def eventOf : Except Fault (Heap Obj × Option Call × List Addr) :=
  match kind with
  | .timer => called .timer (timerCb heap)
  | .idle => called .idle (idleCb heap)
  | .check => called .check (checkCb heap)
  | .prepare => called .prepare (prepareCb heap)
  | .poll => called .poll (pollCb heap)
  | .signal => called .signal (signalCb heap)
  | .fsEvent => called .fsEvent (fsEventCb heap)
  | .async => called .async (asyncCb heap)
  | .fsPoll => do
      let (heap, cb, stats) ← fsPollCb heap
      return (heap, some ⟨.fsPoll, cb⟩, handleAddr :: cb :: stats)
  | .process => do
      let (heap, cb?) ← exitCb heap
      match cb? with
      | some cb => return (heap, some ⟨.exit, cb⟩, [handleAddr, cb])
      | none => return (heap, none, [])
  | _ => .ok (heap, none, [])
where
  called (type : CallbackType) (result : Except Fault (Heap Obj × Addr)) :
      Except Fault (Heap Obj × Option Call × List Addr) := do
    let (heap, cb) ← result
    return (heap, some ⟨type, cb⟩, [handleAddr, cb])

def receiveOf (address : Bool) :
    Except Fault (Heap Obj × Option Call × List Addr) :=
  match kind.receiver with
  | some .stream => do
      let (heap, cb, bytes) ← readCb heap .stream
      return (heap, some ⟨.read, cb⟩, handleAddr :: cb :: bytes.toList)
  | some .udp => do
      let (heap, cb, gained) ← udpRecvCb heap address
      return (heap, some ⟨.udpRecv, cb⟩, handleAddr :: cb :: gained)
  | none => .ok (heap, none, [])

end Stubs

namespace HandleState

/-- The loop and a made handle, each with one reference of the user. -/
def initial (kind : Kind) : HandleState where
  heap := ⟨[some ⟨1, .loop⟩, some ⟨1, .handle ⟨kind, none, none⟩⟩], []⟩
  user := {loopAddr, handleAddr}
  kept := 0
  life := .made
  watch := .none
  listening := .none
  phase := .idle
  turn := .idle
  stale := []
  calls := []

def closureType (s : HandleState) (addr : Addr) : Option CallbackType :=
  match s.heap.cell? addr with
  | some ⟨_, .closure type _⟩ => some type
  | _ => none

def isBytes (s : HandleState) (addr : Addr) : Bool :=
  match s.heap.cell? addr with
  | some ⟨_, .bytes⟩ => true
  | _ => false

def captures (s : HandleState) (addr : Addr) : List Addr :=
  match s.heap.cell? addr with
  | some ⟨_, .closure _ captures⟩ => captures
  | _ => []

/-- The handle can be passed to a stub: its init has returned normally. -/
def Usable (s : HandleState) : Prop :=
  match s.life with
  | .made | .failed => False
  | .opened | .closing _ | .closed _ => True

instance (s : HandleState) : Decidable s.Usable :=
  match hlife : s.life with
  | .made | .failed => isFalse (by simp [Usable, hlife])
  | .opened | .closing _ | .closed _ => isTrue (by simp [Usable, hlife])

/-- libuv has the handle on the loop's list, where a walk finds it. -/
def Listed (s : HandleState) : Prop :=
  s.life = .opened ∨ s.life.closing?.isSome

instance (s : HandleState) : Decidable s.Listed :=
  inferInstanceAs (Decidable (_ ∨ _))

end HandleState

/-- An async handle and a process are active from their init on. -/
def initWatch (kind : Kind) (cb : Option Addr) (accepted : Bool) : Watch :=
  if accepted && kind.initCallback.isSome then
    Watch.none.start ⟨0, cb.toList⟩ .accepted
  else .none

/-- The references of the user that a label uses up. -/
def Label.consumed : Label → List Addr
  | .newClosure _ captures => captures
  | .drop addr => [addr]
  | .init cb _ => handleAddr :: loopAddr :: cb.toList
  | .start _ cb path _ => handleAddr :: cb :: path.toList
  | .stop _ | .receiveStop _ | .send => [handleAddr]
  | .receiveStart _ allocCb readCb _ => [handleAddr, allocCb, readCb]
  | .listen _ cb _ | .close cb | .closeReset cb _ => [handleAddr, cb]
  | .allocLeave buffer => [buffer]
  | _ => []

/-- A phase between alloc and read ends when libuv stops reading. -/
def Phase.settle (phase : Phase) (watch : Watch) : Phase :=
  if phase = .ready ∧ watch.active = none then .idle else phase

/-- After the alloc trampoline libuv reads if it is still to read. -/
def Phase.afterAlloc (watch : Watch) : Phase :=
  if watch.active.isSome then .ready else .idle

section Contract

variable (kind : Kind) (s : HandleState)

/-- How libuv may answer a start. -/
def Answers (answer : Answer) : Prop :=
  if s.life = .opened then
    if s.watch.active.isSome then kind.Restarts answer
    else kind.Starts answer
  else answer = .rejected ∨ answer = .ignored

instance (answer : Answer) : Decidable (Answers kind s answer) :=
  inferInstanceAs (Decidable (if s.life = .opened then
    if s.watch.active.isSome then kind.Restarts answer
    else kind.Starts answer
    else answer = .rejected ∨ answer = .ignored))

/-- The events of the kinds that have a turn: the exit trampoline of a process
is called once libuv has come to it, even when it was closed since then, and
the callback of a signal runs before libuv ends a one-shot watch. -/
def TakesTurn (ends : Bool) : Prop :=
  match kind with
  | .process => s.turn = .exiting ∧ ends
  | .signal => s.turn = .idle ∧ ends = false
  | _ => True

instance (ends : Bool) : Decidable (TakesTurn kind s ends) :=
  match kind with
  | .process | .signal => inferInstanceAs (Decidable (_ ∧ _))
  | .pipe | .tcp | .tty | .udp | .fsEvent | .fsPoll | .timer | .idle
  | .check | .prepare | .poll | .async => isTrue trivial

/-- libuv may report on the handle: it is open and active, or it is of a kind
whose batch of reports goes on when it is closed. -/
def Reports (goesOn : Prop) : Prop :=
  s.life = .opened ∧ s.watch.active.isSome ∨ s.life.closing?.isSome ∧ goesOn

instance (goesOn : Prop) [Decidable goesOn] : Decidable (Reports s goesOn) :=
  inferInstanceAs (Decidable (_ ∧ _ ∨ _ ∧ _))

/-- Which labels can come next, apart from the references they use up: the
MoonBit code passes what the compiler checks, and libuv answers and calls as
documented. -/
def Offers : Label → Prop
  | .newClosure _ _ | .newBytes | .drop _ => True
  | .dup addr => addr ∈ s.user
  | .walk => s.Listed
  | .unpack closure capture =>
      closure ∈ s.user ∧ capture ∈ s.captures closure
  | .init cb _ =>
      s.life = .made ∧
        match cb with
        | none => kind ≠ .async
        | some cb => kind.initCallback.isSome ∧
            s.closureType cb = kind.initCallback
  | .start _ cb path answer =>
      s.Usable ∧ kind.callback.isSome ∧ s.closureType cb = kind.callback ∧
        (path.isSome ↔ kind = .fsEvent ∨ kind = .fsPoll) ∧
        path.all s.isBytes ∧ Answers kind s answer
  | .stop accepted =>
      s.Usable ∧ kind.callback.isSome ∧ (s.watch.active = none → accepted)
  | .receiveStart _ allocCb readCb answer =>
      s.Usable ∧ kind.receiver.isSome ∧
        s.closureType allocCb = some .alloc ∧
        s.closureType readCb = some (readType kind) ∧ Answers kind s answer
  | .receiveStop accepted =>
      s.Usable ∧ kind.receiver.isSome ∧ (s.watch.active = none → accepted)
  | .listen _ cb accepted =>
      s.Usable ∧ kind.receiver = some .stream ∧
        s.closureType cb = some .connection ∧ (accepted → s.life = .opened)
  | .close closeCb =>
      s.life = .opened ∧ s.closureType closeCb = some .close
  | .closeReset closeCb _ =>
      s.life = .opened ∧ kind = .tcp ∧ s.closureType closeCb = some .close
  | .send => s.life = .opened ∧ kind = .async
  | .exiting =>
      s.life = .opened ∧ kind = .process ∧ s.watch.active.isSome ∧
        s.turn = .idle
  | .event ends =>
      kind.receiver = none ∧ Reports s (kind = .process) ∧
        TakesTurn kind s ends
  | .resume _ => kind = .signal ∧ s.turn.calling?.isSome
  | .late start =>
      s.life = .opened ∧ kind = .fsPoll ∧ s.watch.active.isSome ∧
        start ∈ s.stale
  | .discard start => s.watch.active = none ∧ start ∈ s.stale
  | .connection =>
      s.life = .opened ∧ kind.receiver = some .stream ∧
        s.listening.active.isSome ∧ s.phase = .idle
  | .allocEnter =>
      s.life = .opened ∧ kind.receiver.isSome ∧ s.watch.active.isSome ∧
        s.phase = .idle ∧ s.turn = .idle
  | .allocLeave buffer =>
      kind.receiver.isSome ∧ s.phase.allocating?.isSome ∧ s.isBytes buffer
  | .receive _ _ _ =>
      kind.receiver.isSome ∧ s.phase.allocating? = none ∧
        Reports s (s.turn = .receiving)
  | .leave =>
      s.life = .opened ∧ s.turn = .receiving ∧ s.watch.active = none
  | .closed =>
      s.life.closing?.isSome ∧ s.phase = .idle ∧ s.turn = .idle
where
  readType : Kind → CallbackType
    | .udp => .udpRecv
    | _ => .read

instance decidableOffers : DecidablePred (Offers kind s)
  | .newClosure _ _ | .newBytes | .drop _ => isTrue trivial
  | .dup _ => inferInstanceAs (Decidable (_ ∈ _))
  | .init none _ => inferInstanceAs (Decidable (_ ∧ _))
  | .init (some _) _ => inferInstanceAs (Decidable (_ ∧ _ ∧ _))
  | .walk => inferInstanceAs (Decidable s.Listed)
  | .unpack _ _ | .send | .close _ | .discard _ =>
      inferInstanceAs (Decidable (_ ∧ _))
  | .resume _ => inferInstanceAs (Decidable (_ ∧ _))
  | .stop _ | .receiveStop _ => inferInstanceAs (Decidable (_ ∧ _ ∧ _))
  | .closeReset _ _ => inferInstanceAs (Decidable (_ ∧ _ ∧ _))
  | .allocLeave _ | .leave | .closed =>
      inferInstanceAs (Decidable (_ ∧ _ ∧ _))
  | .event _ | .receive _ _ _ => inferInstanceAs (Decidable (_ ∧ _ ∧ _))
  | .listen _ _ _ | .connection | .exiting | .late _ =>
      inferInstanceAs (Decidable (_ ∧ _ ∧ _ ∧ _))
  | .receiveStart _ _ _ _ | .allocEnter =>
      inferInstanceAs (Decidable (_ ∧ _ ∧ _ ∧ _ ∧ _))
  | .start _ _ _ _ => inferInstanceAs (Decidable (_ ∧ _ ∧ _ ∧ _ ∧ _ ∧ _))

/-- The labels that can come next: the references they use up are the
user's. -/
def Contract (label : Label) : Prop :=
  ↑label.consumed ≤ s.user ∧ Offers kind s label

instance : DecidablePred (Contract kind s) := fun _ =>
  inferInstanceAs (Decidable (_ ∧ _))

end Contract

section Step

variable (kind : Kind)

namespace HandleState

/-- One stub call of the user: the heap it leaves, with the references it uses
up and those it keeps or gives back. -/
def afterStub (s : HandleState) (label : Label) (heap : Heap Obj)
    (released : List Addr) : HandleState :=
  { s with
    heap
    user := s.user - ↑label.consumed
    kept := s.kept + 1 - released.count handleAddr }

def watched (s : HandleState) (watch : Watch) : HandleState :=
  { s with watch, phase := s.phase.settle watch }

/-- libuv stops every watch of a handle that closes. -/
def closing (s : HandleState) (closeCb : Addr) : HandleState :=
  { s with
    life := .closing closeCb
    watch := .none
    listening := .none
    phase := s.phase.settle .none
    turn := s.turn.afterClose s.watch }

/-- The start that an accepted stop of an fs_poll handle leaves behind. -/
def leaves (s : HandleState) (accepted : Bool) : List Start :=
  if kind = .fsPoll ∧ accepted then s.watch.active.toList else []

/-- A trampoline that has called the user's closure, with the references it
gave to it. -/
def afterCall (s : HandleState) (heap : Heap Obj) (call : Option Call)
    (gained : List Addr) : HandleState :=
  { s with
    heap
    user := ↑gained + s.user
    calls := s.calls ++ call.toList }

end HandleState

open HandleState

def step (s : HandleState) (label : Label) : Except Fault HandleState :=
  match label with
  | .newClosure type captures =>
      let (heap, addr) := s.heap.alloc (.closure type captures)
      .ok { s with heap, user := {addr} + (s.user - ↑captures) }
  | .newBytes =>
      let (heap, addr) := s.heap.alloc .bytes
      .ok { s with heap, user := {addr} + s.user }
  | .dup addr => do
      let heap ← s.heap.incref addr
      return { s with heap, user := {addr} + s.user }
  | .drop addr => do
      let heap ← s.heap.decref addr
      return { s with heap, user := s.user - {addr} }
  | .walk => do
      let heap ← s.heap.incref handleAddr
      return { s with heap, user := {handleAddr} + s.user }
  | .unpack _ capture => do
      let heap ← s.heap.incref capture
      return { s with heap, user := {capture} + s.user }
  | .init cb accepted => do
      let heap ← initOf kind s.heap cb accepted
      let heap := initForget kind heap accepted
      return { afterStub s label heap kind.initReleases with
        life := if accepted then .opened else .failed
        watch := initWatch kind cb accepted }
  | .start param cb path answer => do
      let heap ← startOf kind s.heap cb path
      let after := { afterStub s label heap (kind.startReleases path) with
        turn := s.turn.start answer }
      return after.watched (s.watch.start ⟨param, [cb]⟩ answer)
  | .stop accepted => do
      let heap ← stopOf kind s.heap
      let after := { afterStub s label heap kind.stopReleases with
        stale := leaves kind s accepted ++ s.stale }
      return after.watched (s.watch.stop accepted)
  | .receiveStart param allocCb readCb answer => do
      let heap ← receiveStartOf kind s.heap allocCb readCb
      return (afterStub s label heap [handleAddr]).watched
        (s.watch.start ⟨param, [allocCb, readCb]⟩ answer)
  | .receiveStop accepted => do
      let heap ← receiveStopOf kind s.heap
      return (afterStub s label heap [handleAddr]).watched
        (s.watch.stop accepted)
  | .listen param cb accepted => do
      let heap ← listen s.heap cb
      let answer := if accepted then .accepted else .rejected
      return { afterStub s label heap [handleAddr] with
        listening := s.listening.start ⟨param, [cb]⟩ answer }
  | .close cb => do
      let heap ← close s.heap cb
      return (afterStub s label heap [handleAddr]).closing cb
  | .closeReset cb accepted => do
      let heap ← tcpCloseReset s.heap cb
      let s := afterStub s label heap [handleAddr]
      return if accepted then s.closing cb else s
  | .send => do
      let heap ← asyncSend s.heap
      return afterStub s label heap []
  | .exiting => .ok { s with turn := .exiting }
  | .event ends => do
      let (heap, call, gained) ← eventOf kind s.heap
      let after := { afterCall s heap call gained with
        turn := .afterEvent kind }
      return after.watched (s.watch.stop ends)
  | .resume ends =>
      let watch := if ends then s.watch.expire (s.turn.calling? = some true)
        else s.watch
      .ok (({ s with turn := .idle } : HandleState).watched watch)
  | .late _ => do
      let (heap, call, gained) ← eventOf kind s.heap
      return afterCall s heap call gained
  | .discard start => .ok { s with stale := s.stale.erase start }
  | .connection => do
      let (heap, cb) ← listenCb s.heap
      return afterCall s heap (some ⟨.connection, cb⟩) [handleAddr, cb]
  | .allocEnter =>
      match kind.receiver with
      | none => .ok s
      | some type => do
          let (heap, data, cb) ← allocCbEnter s.heap type
          return { afterCall s heap (some ⟨.alloc, cb⟩) [handleAddr, cb] with
            phase := .allocating data
            turn := .receive kind false }
  | .allocLeave buffer =>
      match kind.receiver, s.phase with
      | some type, .allocating data => do
          let heap ← allocCbLeave s.heap type data buffer
          return { s with
            heap
            user := s.user - {buffer}
            phase := .afterAlloc s.watch }
      | _, _ => .ok s
  | .receive address last ends => do
      let (heap, call, gained) ← receiveOf kind s.heap address
      let after := { afterCall s heap call gained with
        phase := if last then .idle else .ready
        turn := .receive kind last }
      return after.watched (s.watch.stop ends)
  | .leave => .ok { s with turn := .idle }
  | .closed =>
      match s.life with
      | .closing closing => do
          let (heap, cb) ← closeCb s.heap
          return { afterCall s heap (some ⟨.close, cb⟩) [cb] with
            kept := s.kept - 1
            life := .closed closing }
      | _ => .ok s

end Step

end UvMbt
