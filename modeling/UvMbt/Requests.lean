/-
The asynchronous requests of the binding over the counted heap: what every
operation stores in its request, what it releases before it returns, and the
trampolines that libuv calls when the request is done.
-/
import UvMbt.RefHeap

set_option autoImplicit false

namespace UvMbt.Requests

open RefHeap

/-- The request types of libuv that the binding makes. -/
inductive ReqType where
  | connect
  | write
  | shutdown
  | udpSend
  | fs
  | work
  | getaddrinfo
  | getnameinfo
  | random
  deriving Repr, DecidableEq

namespace ReqType

/-- Whether `req->data` points to a `…_data_t` that holds the callback. -/
def boxed : ReqType → Bool
  | .write | .udpSend | .work | .random => true
  | .connect | .shutdown | .fs | .getaddrinfo | .getnameinfo => false

/-- Whether the finalizer releases `req->loop`. -/
def ownsLoop : ReqType → Bool
  | .fs | .work | .random => true
  | .connect | .write | .shutdown | .udpSend | .getaddrinfo
  | .getnameinfo => false

/-- `moonbit_uv_connect_make` makes plain bytes, which have no finalizer. -/
def finalizes : ReqType → Bool
  | .connect => false
  | .write | .shutdown | .udpSend | .fs | .work | .getaddrinfo
  | .getnameinfo | .random => true

/-- The objects that the completion trampoline makes for the callback: the
address list, or the two names, which are `NULL` on an error. -/
def results (type : ReqType) (status : Int) : Nat :=
  match type with
  | .getaddrinfo => 1
  | .getnameinfo => if status < 0 then 0 else 2
  | .connect | .write | .shutdown | .udpSend | .fs | .work | .random => 0

end ReqType

/-- The fields of a request that point to a MoonBit object. -/
structure Request where
  type : ReqType
  loop : Option Addr
  data : Option Addr
  bufs : Option Addr
  deriving Repr, DecidableEq

/-- A `…_data_t`: the callback, with the buffers of a write or a send, the
buffer of a random request or the work callback. -/
structure Data where
  payload : Option Addr
  cb : Option Addr
  deriving Repr, DecidableEq

/-- Closures, arrays, bytes, handles and loops only differ in what they refer
to. -/
inductive Obj where
  | object (refs : List Addr)
  | data (data : Data)
  | request (request : Request)
  deriving Repr, DecidableEq

def Request.drops (request : Request) : List Addr :=
  (if request.type.ownsLoop then request.loop.toList else []) ++
    (if request.type.finalizes then request.data.toList else []) ++
      request.bufs.toList

/-- The finalizers.  What the data of a connect request points to is no
reference of the request: nothing releases it with the request. -/
instance : Ownership Obj where
  drops
    | .object refs => refs
    | .data data => data.payload.toList ++ data.cb.toList
    | .request request => request.drops
  leaks _ := []

/-- What an operation hands to its stub: `payload` goes into a box with the
callback, `bufs` into the `bufs_base` of an fs request, `loop` is the loop that
libuv writes to the request; `target` and `sent` are the handles it works on.
`released` is what the stub releases before it returns, and an absent argument
is `NULL`. -/
structure Submission (ι : Type) where
  type : ReqType
  cb : ι
  payload : Option ι
  bufs : Option ι
  loop : Option ι
  target : Option ι
  sent : Option ι
  released : List (Option ι)
  deriving Repr, DecidableEq

/-- The operations with a completion callback and their references, which are
addresses, or the names of the parameters they come in. -/
inductive Operation (ι : Type) where
  | write (handle bufs offs lens cb : ι)
  | write2 (handle bufs offs lens sendHandle cb : ι)
  | shutdown (handle cb : ι)
  | tcpConnect (tcp addr cb : ι)
  | pipeConnect2 (handle name cb : ι)
  | udpSend (udp bufs offs lens : ι) (addr : Option ι) (cb : ι)
  | queueWork (loop workCb afterCb : ι)
  | random (loop buffer cb : ι)
  | getaddrinfo (loop cb node service : ι) (hints : Option ι)
  | getnameinfo (loop cb addr : ι)
  | fsOpen (loop path cb : ι)
  | fsClose (loop cb : ι)
  | fsRead (loop bufsBase offs lens cb : ι)
  | fsWrite (loop bufsBase offs lens cb : ι)
  | fsFtruncate (loop cb : ι)
  | fsFsync (loop cb : ι)
  | fsFdatasync (loop cb : ι)
  | fsMkdir (loop path cb : ι)
  | fsRmdir (loop path cb : ι)
  | fsCopyfile (loop path newPath cb : ι)
  | fsUnlink (loop path cb : ι)
  | fsScandir (loop path cb : ι)
  | fsRename (loop path newPath cb : ι)
  | fsStat (loop path cb : ι)
  | fsLstat (loop path cb : ι)
  | fsFstat (loop cb : ι)
  | fsRealpath (loop path cb : ι)
  | fsAccess (loop path cb : ι)
  | fsMkdtemp (loop templatePath cb : ι)
  | fsMkstemp (loop templatePath cb : ι)
  | fsOpendir (loop path cb : ι)
  | fsClosedir (loop cb : ι)
  | fsReaddir (loop cb : ι)
  | fsLink (loop path newPath cb : ι)
  | fsSymlink (loop path newPath cb : ι)
  | fsReadlink (loop path cb : ι)
  | fsChown (loop path cb : ι)
  | fsFchown (loop cb : ι)
  | fsLchown (loop path cb : ι)
  | fsSendfile (loop cb : ι)
  | fsChmod (loop path cb : ι)
  | fsFchmod (loop cb : ι)
  | fsStatfs (loop path cb : ι)
  | fsUtime (loop path cb : ι)
  | fsFutime (loop cb : ι)
  | fsLutime (loop path cb : ι)
  deriving Repr, DecidableEq

namespace Submission

variable {ι : Type}

/-- A request on a handle whose data is the callback. -/
def bare (type : ReqType) (target cb : ι) (released : List (Option ι)) :
    Submission ι :=
  ⟨type, cb, none, none, none, some target, none, released⟩

/-- A request on a handle with its callback and buffers in a box. -/
def buffered (type : ReqType) (target bufs : ι) (sent : Option ι)
    (cb : ι) (released : List (Option ι)) : Submission ι :=
  ⟨type, cb, some bufs, none, none, some target, sent, released⟩

/-- A request on a loop that keeps the loop and a box. -/
def onLoop (type : ReqType) (loop payload cb : ι) : Submission ι :=
  ⟨type, cb, some payload, none, some loop, none, none, []⟩

/-- A request on a loop, which the stub releases. -/
def lookup (type : ReqType) (loop cb : ι) (released : List (Option ι)) :
    Submission ι :=
  ⟨type, cb, none, none, some loop, none, none, some loop :: released⟩

/-- A file system request: it keeps its loop and, when it reads or writes, the
buffers. -/
def fs (loop : ι) (bufsBase : Option ι) (cb : ι)
    (released : List ι) : Submission ι :=
  ⟨.fs, cb, none, bufsBase, some loop, none, none, released.map some⟩

end Submission

open Submission in
/-- The stub of each operation, by what it keeps and releases. -/
def Operation.submission {ι : Type} : Operation ι → Submission ι
  | .write handle bufs offs lens cb =>
      buffered .write handle bufs none cb [some handle, some offs, some lens]
  | .write2 handle bufs offs lens sendHandle cb =>
      buffered .write handle bufs (some sendHandle) cb
        [some handle, some offs, some lens, some sendHandle]
  | .shutdown handle cb => bare .shutdown handle cb [some handle]
  | .tcpConnect tcp addr cb => bare .connect tcp cb [some addr, some tcp]
  | .pipeConnect2 handle name cb =>
      bare .connect handle cb [some handle, some name]
  | .udpSend udp bufs offs lens addr cb =>
      -- the address is released whether it is there or not
      buffered .udpSend udp bufs none cb [some offs, some lens, addr, some udp]
  | .queueWork loop workCb afterCb => onLoop .work loop workCb afterCb
  | .random loop buffer cb => onLoop .random loop buffer cb
  | .getaddrinfo loop cb node service hints =>
      lookup .getaddrinfo loop cb
        ([some node, some service] ++ hints.toList.map some)
  | .getnameinfo loop cb addr => lookup .getnameinfo loop cb [some addr]
  | .fsOpen loop path cb => fs loop none cb [path]
  | .fsClose loop cb => fs loop none cb []
  | .fsRead loop bufsBase offs lens cb => fs loop (some bufsBase) cb [offs, lens]
  | .fsWrite loop bufsBase offs lens cb =>
      fs loop (some bufsBase) cb [offs, lens]
  | .fsFtruncate loop cb => fs loop none cb []
  | .fsFsync loop cb => fs loop none cb []
  | .fsFdatasync loop cb => fs loop none cb []
  | .fsMkdir loop path cb => fs loop none cb [path]
  | .fsRmdir loop path cb => fs loop none cb [path]
  | .fsCopyfile loop path newPath cb => fs loop none cb [path, newPath]
  | .fsUnlink loop path cb => fs loop none cb [path]
  | .fsScandir loop path cb => fs loop none cb [path]
  | .fsRename loop path newPath cb => fs loop none cb [path, newPath]
  | .fsStat loop path cb => fs loop none cb [path]
  | .fsLstat loop path cb => fs loop none cb [path]
  | .fsFstat loop cb => fs loop none cb []
  | .fsRealpath loop path cb => fs loop none cb [path]
  | .fsAccess loop path cb => fs loop none cb [path]
  | .fsMkdtemp loop templatePath cb => fs loop none cb [templatePath]
  | .fsMkstemp loop templatePath cb => fs loop none cb [templatePath]
  | .fsOpendir loop path cb => fs loop none cb [path]
  | .fsClosedir loop cb => fs loop none cb []
  | .fsReaddir loop cb => fs loop none cb []
  | .fsLink loop path newPath cb => fs loop none cb [path, newPath]
  | .fsSymlink loop path newPath cb => fs loop none cb [path, newPath]
  | .fsReadlink loop path cb => fs loop none cb [path]
  | .fsChown loop path cb => fs loop none cb [path]
  | .fsFchown loop cb => fs loop none cb []
  | .fsLchown loop path cb => fs loop none cb [path]
  | .fsSendfile loop cb => fs loop none cb []
  | .fsChmod loop path cb => fs loop none cb [path]
  | .fsFchmod loop cb => fs loop none cb []
  | .fsStatfs loop path cb => fs loop none cb [path]
  | .fsUtime loop path cb => fs loop none cb [path]
  | .fsFutime loop cb => fs loop none cb []
  | .fsLutime loop path cb => fs loop none cb [path]

/-- How libuv answers: it takes the request, or fails before or after it has
written the fields of the request. -/
inductive Answer where
  | accepted
  | rejected (written : Bool)
  deriving Repr, DecidableEq

def Answer.writes : Answer → Bool
  | .accepted => true
  | .rejected written => written

section Stubs

variable (heap : Heap Obj)

def getRequest (req : Addr) : Except Fault Request := do
  match ← heap.get req with
  | .request request => return request
  | _ => throw .typeConfusion

def getData (data : Addr) : Except Fault Data := do
  match ← heap.get data with
  | .data data => return data
  | _ => throw .typeConfusion

/-- `if (old) moonbit_decref(old);` -/
def decrefOld : Option Addr → Except Fault (Heap Obj)
  | some old => heap.decref old
  | none => .ok heap

/-- `moonbit_uv_write_set_data` and its siblings. -/
def setData (req : Addr) (data : Option Addr) : Except Fault (Heap Obj) := do
  let request ← getRequest heap req
  let heap ← decrefOld heap request.data
  heap.put req (.request { request with data })

/-- `moonbit_uv_fs_set_bufs`. -/
def setBufs (req : Addr) (bufs : Option Addr) : Except Fault (Heap Obj) := do
  let request ← getRequest heap req
  let heap ← decrefOld heap request.bufs
  heap.put req (.request { request with bufs })

/-- libuv writes `req->loop`. -/
def setLoop (req : Addr) (loop : Option Addr) : Except Fault (Heap Obj) := do
  let request ← getRequest heap req
  heap.put req (.request { request with loop })

/-- `moonbit_decref` of each argument; it reads the header of the object. -/
def releaseAll : Heap Obj → List (Option Addr) → Except Fault (Heap Obj)
  | heap, [] => .ok heap
  | _, none :: _ => .error .nullArgument
  | heap, some addr :: rest => do
      let heap ← heap.decref addr
      releaseAll heap rest

namespace Submission

variable (sub : Submission Addr)

/-- The data of the request: the callback, or a box made for it. -/
def makeData : Heap Obj × Addr :=
  match sub.payload with
  | some payload => heap.alloc (.data ⟨some payload, some sub.cb⟩)
  | none => (heap, sub.cb)

/-- The buffers of a read or a write of a file. -/
def storeBufs (req : Addr) : Except Fault (Heap Obj) :=
  match sub.bufs with
  | some bufs => setBufs heap req (some bufs)
  | none => .ok heap

/-- libuv's part of a call. -/
def register (req : Addr) (answer : Answer) : Except Fault (Heap Obj) :=
  if answer.writes then setLoop heap req sub.loop else .ok heap

/-- What becomes of the request. -/
def fill (req : Addr) (answer : Answer) : Except Fault (Heap Obj) := do
  let (heap, data) := sub.makeData heap
  let heap ← setData heap req (some data)
  let heap ← sub.storeBufs heap req
  sub.register heap req answer

def stub (req : Addr) (answer : Answer) : Except Fault (Heap Obj) := do
  let heap ← sub.fill heap req answer
  releaseAll heap sub.released

/-- The stub on the request that the MoonBit function makes and keeps a
reference to. -/
def enter (answer : Answer) : Except Fault (Heap Obj × Addr) := do
  let (heap, req) := heap.alloc (.request ⟨sub.type, none, none, none⟩)
  let heap ← heap.incref req
  let heap ← sub.stub heap req answer
  return (heap, req)

/-- The MoonBit function: it returns the request or, when it raises, drops
it. -/
def call (answer : Answer) : Except Fault (Heap Obj × Addr) := do
  let (heap, req) ← sub.enter heap answer
  match answer with
  | .accepted => return (heap, req)
  | .rejected _ => return (← heap.decref req, req)

end Submission

end Stubs

section Trampolines

variable (heap : Heap Obj) (req : Addr)

/-- `cb->code` and `data->cb` read through the pointer. -/
def deref : Option Addr → Except Fault Addr
  | some addr => .ok addr
  | none => .error .nullPointer

/-- `moonbit_uv_connect_cb`, which leaves the slot as it is. -/
def connectCb : Except Fault (Heap Obj × Addr) := do
  let request ← getRequest heap req
  return (heap, ← deref request.data)

/-- `moonbit_uv_shutdown_cb`, `moonbit_uv_fs_cb`, `moonbit_uv_getaddrinfo_cb`
and `moonbit_uv_getnameinfo_cb`. -/
def slotCb : Except Fault (Heap Obj × Addr) := do
  let request ← getRequest heap req
  let heap ← heap.put req (.request { request with data := none })
  return (heap, ← deref request.data)

/-- `moonbit_uv_write_cb`, `moonbit_uv_udp_send_cb` and
`moonbit_uv_after_work_cb`. -/
def boxCb : Except Fault (Heap Obj × Addr) := do
  let request ← getRequest heap req
  let box ← deref request.data
  let data ← getData heap box
  let heap ← heap.put box (.data { data with cb := none })
  return (heap, ← deref data.cb)

/-- `moonbit_uv_random_cb`: the buffer goes to the callback. -/
def randomCb : Except Fault (Heap Obj × Addr × Option Addr) := do
  let request ← getRequest heap req
  let box ← deref request.data
  let data ← getData heap box
  let heap ← heap.put box (.data ⟨none, none⟩)
  return (heap, ← deref data.cb, data.payload)

/-- `moonbit_uv_work_cb` up to its reference to the request: the callback that
it has taken out of the box. -/
def takeWork : Except Fault (Heap Obj × Option Addr) := do
  let request ← getRequest heap req
  let box ← deref request.data
  let data ← getData heap box
  let heap ← heap.put box (.data { data with payload := none })
  return (heap, data.payload)

/-- The rest of `moonbit_uv_work_cb`: the closure that it calls. -/
def callWork (cb : Option Addr) : Except Fault (Heap Obj × Addr) := do
  let heap ← heap.incref req
  return (heap, ← deref cb)

/-- The completion trampoline of a request: the callback that it calls and the
buffer that it passes on. -/
def completionCb (type : ReqType) :
    Except Fault (Heap Obj × Addr × Option Addr) := do
  match type with
  | .connect =>
      let (heap, cb) ← connectCb heap req
      return (heap, cb, none)
  | .shutdown | .fs | .getaddrinfo | .getnameinfo =>
      let (heap, cb) ← slotCb heap req
      return (heap, cb, none)
  | .write | .udpSend | .work =>
      let (heap, cb) ← boxCb heap req
      return (heap, cb, none)
  | .random => randomCb heap req

/-- New objects that refer to nothing. -/
def allocMany : Nat → Heap Obj → Heap Obj × List Addr
  | 0, heap => (heap, [])
  | count + 1, heap =>
      let (heap, addr) := heap.alloc (.object [])
      let (heap, rest) := allocMany count heap
      (heap, addr :: rest)

end Trampolines

/-- Which of the user's callbacks the closure calls. -/
inductive Side where
  | success
  | error
  deriving Repr, DecidableEq

/-- The closures that the MoonBit functions pass to C. -/
def uvCb (status : Int) : Side :=
  if status < 0 then .error else .success

end UvMbt.Requests
