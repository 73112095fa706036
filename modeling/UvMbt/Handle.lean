/-
A handle, its `data` slot and the C stubs that take it, over the counted heap.
The slot is untyped: every trampoline of the handle casts what it finds there.
-/
import UvMbt.RefHeap

set_option autoImplicit false

namespace UvMbt

open RefHeap

/-- The handle types of libuv that the binding makes. -/
inductive Kind where
  | timer
  | idle
  | check
  | prepare
  | poll
  | signal
  | fsEvent
  | fsPoll
  | async
  | pipe
  | tcp
  | tty
  | udp
  | process
  deriving Repr, DecidableEq

/-- The closure types that C casts a pointer to. -/
inductive CallbackType where
  | close
  | timer
  | idle
  | check
  | prepare
  | poll
  | signal
  | fsEvent
  | fsPoll
  | async
  | alloc
  | read
  | udpRecv
  | connection
  | exit
  deriving Repr, DecidableEq

/-- `moonbit_uv_stream_data_t` and `moonbit_uv_udp_data_t` have the same
fields. -/
inductive ReceiverType where
  | stream
  | udp
  deriving Repr, DecidableEq

/-- The buffer of the last alloc callback and the two callbacks. -/
structure ReceiveData where
  bytes : Option Addr
  allocCb : Addr
  readCb : Addr
  deriving Repr, DecidableEq

/-- The fields of a handle that hold a MoonBit object. -/
structure HandleObj where
  kind : Kind
  loop : Option Addr
  data : Option Addr
  deriving Repr, DecidableEq

/-- The objects a handle can reach. -/
inductive Obj where
  | loop
  | bytes
  | closure (type : CallbackType) (captures : List Addr)
  | receiver (type : ReceiverType) (data : ReceiveData)
  | handle (handle : HandleObj)
  deriving Repr, DecidableEq

/-- The finalizers.  `moonbit_uv_tty_make` makes plain bytes, which have none:
the loop of a tty is a bare pointer and its slot is never released. -/
instance : Ownership Obj where
  drops
    | .loop => []
    | .bytes => []
    | .closure _ captures => captures
    | .receiver _ data => data.bytes.toList ++ [data.readCb, data.allocCb]
    | .handle handle =>
        if handle.kind = .tty then []
        else handle.data.toList ++ handle.loop.toList
  leaks
    | .handle handle => if handle.kind = .tty then handle.data.toList else []
    | _ => []

/-- Where the loop and the handle of a run live. -/
def loopAddr : Addr := 0

def handleAddr : Addr := 1

section Slot

variable (heap : Heap Obj)

def getHandle : Except Fault HandleObj := do
  match ← heap.get handleAddr with
  | .handle handle => return handle
  | _ => throw .typeConfusion

def storeData (handle : HandleObj) (data : Option Addr) :
    Except Fault (Heap Obj) :=
  heap.put handleAddr (.handle { handle with data })

def decrefAll : Heap Obj → List Addr → Except Fault (Heap Obj)
  | heap, [] => .ok heap
  | heap, addr :: rest => do
      let heap ← heap.decref addr
      decrefAll heap rest

/-- `moonbit_uv_handle_set_data` and its copies in every handle file. -/
def handleSetData (data : Option Addr) : Except Fault (Heap Obj) := do
  let handle ← getHandle heap
  let heap ← decrefAll heap handle.data.toList
  storeData heap handle data

/-- A plain assignment to the slot: what it held is not released. -/
def overwriteData (data : Addr) : Except Fault (Heap Obj) := do
  let handle ← getHandle heap
  let heap ← storeData heap handle (some data)
  return handle.data.toList.foldl Heap.forget heap

end Slot

/-- How a stub treats the slot before it calls libuv. -/
inductive SlotWrite where
  | keep
  | set (data : Option Addr)
  | overwrite (data : Addr)
  deriving Repr, DecidableEq

def writeSlot (heap : Heap Obj) : SlotWrite → Except Fault (Heap Obj)
  | .keep => .ok heap
  | .set data => handleSetData heap data
  | .overwrite data => overwriteData heap data

/-- The common shape of the stubs: write the slot, call libuv, which touches no
object, and release the arguments. -/
def slotStub (write : SlotWrite) (released : List Addr) (heap : Heap Obj) :
    Except Fault (Heap Obj) := do
  let heap ← writeSlot heap write
  decrefAll heap released

/-- What libuv's init writes to the handle.  An init that fails writes
nothing, also not the loop. -/
def uvInit (heap : Heap Obj) (accepted : Bool) : Except Fault (Heap Obj) :=
  if accepted then do
    let handle ← getHandle heap
    heap.put handleAddr (.handle { handle with loop := some loopAddr })
  else
    .ok heap

/-- The common shape of the init stubs. -/
def initStub (write : SlotWrite) (released : List Addr) (accepted : Bool)
    (heap : Heap Obj) : Except Fault (Heap Obj) := do
  let heap ← writeSlot heap write
  let heap ← uvInit heap accepted
  decrefAll heap released

section Stubs

variable (heap : Heap Obj)

def timerStart (cb : Addr) := slotStub (.set (some cb)) [handleAddr] heap
def timerStop := slotStub (.set none) [handleAddr] heap
def idleStart (cb : Addr) := slotStub (.set (some cb)) [handleAddr] heap
def idleStop := slotStub (.set none) [handleAddr] heap
def checkStart (cb : Addr) := slotStub (.set (some cb)) [handleAddr] heap
def checkStop := slotStub (.set none) [handleAddr] heap
def prepareStart (cb : Addr) := slotStub (.set (some cb)) [handleAddr] heap
def prepareStop := slotStub (.set none) [handleAddr] heap
def pollStart (cb : Addr) := slotStub (.set (some cb)) [handleAddr] heap
def pollStop := slotStub (.set none) [handleAddr] heap

/-- `moonbit_uv_signal_start` and `_start_oneshot` keep their argument. -/
def signalStart (cb : Addr) := slotStub (.set (some cb)) [] heap

/-- `moonbit_uv_signal_stop` releases its argument twice. -/
def signalStop := slotStub (.set none) [handleAddr, handleAddr] heap

def fsEventStart (cb path : Addr) :=
  slotStub (.set (some cb)) [handleAddr, path] heap

/-- `moonbit_uv_fs_event_stop` leaves the slot alone. -/
def fsEventStop := slotStub .keep [handleAddr] heap

def fsPollStart (cb path : Addr) :=
  slotStub (.set (some cb)) [handleAddr, path] heap

def fsPollStop := slotStub .keep [handleAddr] heap

def asyncInit (cb : Addr) (accepted : Bool) :=
  initStub (.set (some cb)) [handleAddr] accepted heap

/-- `moonbit_uv_async_send` does not release its argument. -/
def asyncSend := slotStub .keep [] heap

/-- `moonbit_uv_tty_init` releases the loop and the handle. -/
def ttyInit (accepted : Bool) :=
  initStub .keep [loopAddr, handleAddr] accepted heap

def signalInit (accepted : Bool) :=
  initStub .keep [handleAddr] accepted heap

/-- `moonbit_uv_spawn` moves the exit callback of the options, if there is one,
to the slot of the process. -/
def spawn (exitCb : Option Addr) (accepted : Bool) :=
  initStub (if exitCb.isSome then .set exitCb else .keep) [] accepted heap

/-- The other init stubs keep the loop and the handle. -/
def handleInit (accepted : Bool) := initStub .keep [] accepted heap

def close (closeCb : Addr) := slotStub (.set (some closeCb)) [handleAddr] heap

def tcpCloseReset (closeCb : Addr) :=
  slotStub (.set (some closeCb)) [handleAddr] heap

/-- `moonbit_uv_listen` assigns to the slot without releasing it. -/
def listen (cb : Addr) := slotStub (.overwrite cb) [handleAddr] heap

/-- `moonbit_uv_read_start` and `moonbit_uv_udp_recv_start`. -/
def receiveStart (type : ReceiverType) (allocCb readCb : Addr) :=
  let made := heap.alloc (.receiver type ⟨none, allocCb, readCb⟩)
  slotStub (.set (some made.2)) [handleAddr] made.1

def readStart := receiveStart heap .stream
def udpRecvStart := receiveStart heap .udp
def readStop := slotStub (.set none) [handleAddr] heap
def udpRecvStop := slotStub (.set none) [handleAddr] heap

end Stubs

section Trampolines

variable (heap : Heap Obj)

/-- Read the slot and follow the pointer. -/
def derefData (data : Option Addr) : Except Fault (Addr × Obj) :=
  match data with
  | none => .error .nullPointer
  | some addr => do
      let obj ← heap.get addr
      return (addr, obj)

/-- A closure of the type the caller casts to. -/
def expectClosure (type : CallbackType) (data : Option Addr) :
    Except Fault Addr := do
  match ← derefData heap data with
  | (addr, .closure found _) =>
      if found = type then return addr else throw .typeConfusion
  | _ => throw .typeConfusion

def expectReceiver (type : ReceiverType) (data : Option Addr) :
    Except Fault (Addr × ReceiveData) := do
  match ← derefData heap data with
  | (addr, .receiver found receive) =>
      if found = type then return (addr, receive) else throw .typeConfusion
  | _ => throw .typeConfusion

/-- The trampolines that read a closure from the slot, take a reference to it
and one to the handle, and call it. -/
def closureCb (type : CallbackType) : Except Fault (Heap Obj × Addr) := do
  let handle ← getHandle heap
  let cb ← expectClosure heap type handle.data
  let heap ← heap.incref cb
  let heap ← heap.incref handleAddr
  return (heap, cb)

def timerCb := closureCb heap .timer
def idleCb := closureCb heap .idle
def checkCb := closureCb heap .check
def prepareCb := closureCb heap .prepare
def pollCb := closureCb heap .poll
def signalCb := closureCb heap .signal
def fsEventCb := closureCb heap .fsEvent
def asyncCb := closureCb heap .async
def listenCb := closureCb heap .connection

/-- `moonbit_uv_fs_poll_cb` also copies both stat structures. -/
def fsPollCb : Except Fault (Heap Obj × Addr × List Addr) := do
  let (heap, cb) ← closureCb heap .fsPoll
  let (heap, prevStat) := heap.alloc .bytes
  let (heap, currStat) := heap.alloc .bytes
  return (heap, cb, [prevStat, currStat])

/-- `moonbit_uv_exit_cb` moves the callback out of the slot, if there is
one. -/
def exitCb : Except Fault (Heap Obj × Option Addr) := do
  let handle ← getHandle heap
  if handle.data.isNone then
    return (heap, none)
  else
    let cb ← expectClosure heap .exit handle.data
    let heap ← storeData heap handle none
    let heap ← heap.incref handleAddr
    return (heap, some cb)

/-- `moonbit_uv_close_cb` moves the callback out of the slot and releases the
loop's reference to the handle. -/
def closeCb : Except Fault (Heap Obj × Addr) := do
  let handle ← getHandle heap
  let heap ← storeData heap handle none
  let heap ← heap.decref handleAddr
  let cb ← expectClosure heap .close handle.data
  return (heap, cb)

/-- The first half of `moonbit_uv_read_start_alloc_cb` and
`moonbit_uv_udp_recv_start_alloc_cb`, up to the call of the user's callback.
Only the stream one takes the data out of the slot. -/
def allocCbEnter (type : ReceiverType) :
    Except Fault (Heap Obj × Addr × Addr) := do
  let handle ← getHandle heap
  let (addr, receive) ← expectReceiver heap type handle.data
  let heap ←
    match type with
    | .stream => storeData heap handle none
    | .udp => pure heap
  let heap ← heap.incref receive.allocCb
  let heap ← heap.incref handleAddr
  return (heap, addr, receive.allocCb)

/-- `data->bytes = buf_base`: what the field held is not released. -/
def storeBytes (type : ReceiverType) (addr : Addr) (bytes : Option Addr) :
    Except Fault (Heap Obj) := do
  match ← heap.get addr with
  | .receiver found receive =>
      if found = type then
        let heap ← heap.put addr (.receiver type { receive with bytes })
        return receive.bytes.toList.foldl Heap.forget heap
      else throw .typeConfusion
  | _ => throw .typeConfusion

/-- The second half, once the user's callback has returned a buffer. -/
def allocCbLeave (type : ReceiverType) (addr buffer : Addr) :
    Except Fault (Heap Obj) := do
  let heap ← storeBytes heap type addr (some buffer)
  match type with
  | .stream => handleSetData heap (some addr)
  | .udp => return heap

/-- `moonbit_uv_read_start_read_cb` and the common part of
`moonbit_uv_udp_recv_start_cb`: the buffer moves to the user's callback. -/
def readCb (type : ReceiverType) :
    Except Fault (Heap Obj × Addr × Option Addr) := do
  let handle ← getHandle heap
  let (addr, receive) ← expectReceiver heap type handle.data
  let heap ← heap.put addr (.receiver type { receive with bytes := none })
  let heap ← heap.incref receive.readCb
  let heap ← heap.incref handleAddr
  return (heap, receive.readCb, receive.bytes)

/-- `moonbit_uv_udp_recv_start_cb` reads the family of the address without a
check and copies it. -/
def udpRecvCb (address : Bool) :
    Except Fault (Heap Obj × Addr × List Addr) := do
  let (heap, cb, bytes) ← readCb heap .udp
  if address then
    let (heap, addrCopied) := heap.alloc .bytes
    return (heap, cb, bytes.toList ++ [addrCopied])
  else throw .nullArgument

end Trampolines

end UvMbt
