/-
The C stubs as calls that are handed references.  Every reference parameter
has its name in the C function, and the signature says what the extern
declares about it.  Parameters that are no references (numbers, value types
and pointers from `malloc`) are left out, also where an extern marks them.
-/
import UvMbt.RefCall
import UvMbt.Handle
import UvMbt.Requests

set_option autoImplicit false

namespace UvMbt.Stubs

open RefCall
open Requests (ReqType Operation Submission)

/-- The reference parameters of the stubs. -/
inductive Param where
  | addr | addresses | addrs | afterCb | allocCb | args | argv | async | avg
  | barrier | buffer | bufs | bufsBase | bufsLength | bufsOffset | bytes | cb
  | check | client | closeCb | cond | connect | count | cpuInfos | cpumask
  | cwd | dst | env | exitCb | fd | fds | file | filename | fs | group
  | handle | height | hints | idle | ifname | ifsize | interfaceAddr | ip
  | key | length | lib | loop | metrics | multicastAddr | mutex | name
  | newPath | node | oldmask | once | options | osSock | other | passwd | path | poll
  | prepare | priority | process | ptr | random | readCb | req | results | rss
  | rusage | rwlock | self | sem | sendHandle | server | service | signal
  | size | sock | sock0 | sock1 | sourceAddr | src | statPtr | state | statfs
  | stdio | stream | t1 | t2 | tcp | templatePath | thread | timer | timespec
  | timeval | title | udp | uptime | utf16 | value | walkCb | width | workCb
  | wtf8
  deriving Repr, DecidableEq

/-- The places where a reference stays after a call. -/
inductive Slot where
  -- libuv's handles: the close callback gets the handle
  | openHandles
  -- libuv's requests: the completion callback gets the request
  | pendingRequests
  | handleData
  | handleLoop (kind : Kind)
  | requestData
  | requestBufs
  | requestLoop (type : ReqType)
  -- a field of the process options
  | optionsField
  | containerStream
  -- the argument of a new thread, which calls the closure
  | threadEntry
  -- an argument of a callback, which releases it
  | callbackArgument
  deriving Repr, DecidableEq

/-- The loop of a tty is a bare pointer, as is the loop of a request whose
finalizer does not release it. -/
instance : Slots Slot where
  released
    | .handleLoop kind => kind != .tty
    | .requestLoop type => type.ownsLoop
    | .openHandles | .pendingRequests | .handleData | .requestData
    | .requestBufs | .optionsField | .containerStream | .threadEntry
    | .callbackArgument => true

/-- What a stub does not decide itself: how libuv answers, whether `fdopen`
opens a stream, and how often a callback is called before the stub returns. -/
structure Reply where
  answer : Requests.Answer
  opened : Bool
  entries : Nat
  deriving Repr, DecidableEq

abbrev Args := Param → Option Param

abbrev Trace := List (Effect Param Slot)

structure Stub where
  signature : Signature Param
  trace : Args → Reply → Trace

section Pieces

variable (args : Args)

/-- The stub or libuv reads the objects. -/
def use (params : List Param) : Trace :=
  params.map (fun param => .read (args param))

def decref (params : List Param) : Trace :=
  params.map (fun param => .decref (args param))

/-- `if (param) moonbit_decref(param);` -/
def decrefIf (param : Param) : Trace :=
  (args param).toList.map (fun param => .decref (some param))

/-- `if (param)` around a use. -/
def useIf (param : Param) : Trace :=
  (args param).toList.map (fun param => .read (some param))

def keep (slot : Slot) (params : List Param) : Trace :=
  params.map (fun param => .move (args param) slot)

/-- libuv's init: the handle joins the loop's handles, and its `loop` field is
written, by an init that fails perhaps too. -/
def register (kind : Kind) (subject : Param) (answer : Requests.Answer) : Trace :=
  (if answer.writes then keep args (.handleLoop kind) [.loop] else []) ++
    if answer = .accepted then keep args .openHandles [subject] else []

/-- What becomes of the arguments of a request and of the request itself. -/
def submitted (request : Param) (sub : Submission Param) (answer : Requests.Answer) :
    Trace :=
  keep some .requestData (sub.payload.toList ++ [sub.cb]) ++
    keep some .requestBufs sub.bufs.toList ++
    use some (sub.target.toList ++ sub.sent.toList ++ sub.loop.toList ++
      sub.released.filterMap id) ++
    (if answer.writes then keep some (.requestLoop sub.type) sub.loop.toList
      else []) ++
    (if answer = .accepted then keep args .pendingRequests [request] else []) ++
    sub.released.map Effect.decref

end Pieces

section Shapes

/-- Read the arguments, call libuv and release what is owned. -/
def call (owned borrowed : List Param)
    (nodup : (owned ++ borrowed).Nodup := by decide) : Stub where
  signature := ⟨owned, [], borrowed, [], by simpa using nodup⟩
  trace args _ := use args (owned ++ borrowed) ++ decref args owned

/-- Store closures, call libuv and release the other arguments. -/
def store (slot : Slot) (closures owned : List Param)
    (nodup : (owned ++ closures).Nodup := by decide) : Stub where
  signature := ⟨owned, closures, [], [], by simpa using nodup⟩
  trace args _ := keep args slot closures ++ use args owned ++ decref args owned

/-- Store an owned argument and release the others. -/
def transfer (slot : Slot) (moved : Param) (owned : List Param)
    (nodup : (moved :: owned).Nodup := by decide) : Stub where
  signature := ⟨moved :: owned, [], [], [], by simpa using nodup⟩
  trace args _ := use args owned ++ keep args slot [moved] ++ decref args owned

/-- A stub that forgets to release the arguments `left`. -/
def leaving (owned left : List Param)
    (nodup : (owned ++ left).Nodup := by decide) : Stub where
  signature := ⟨owned ++ left, [], [], [], by simpa using nodup⟩
  trace args _ := use args (owned ++ left) ++ decref args owned

/-- An init: the loop and the handle go to libuv, `closures` into the handle
and `others` are released, as is whatever else the stub releases. -/
def initWith (kind : Kind) (subject : Param) (closures released : List Param)
    (others : List Param)
    (nodup : (.loop :: subject :: others ++ closures).Nodup := by decide) :
    Stub where
  signature := ⟨.loop :: subject :: others, closures, [], [],
    by simpa using nodup⟩
  trace args reply := keep args .handleData closures ++
    use args (.loop :: subject :: others) ++
    register args kind subject reply.answer ++ decref args released

def init (kind : Kind) (subject : Param)
    (nodup : [.loop, subject].Nodup := by decide) : Stub :=
  initWith kind subject [] [] [] (by simpa using nodup)

/-- The stub of a request. -/
def submit (request : Param) (owned unmarked optional : List Param)
    (operation : Args → Operation Param)
    (nodup : (request :: owned ++ unmarked).Nodup := by decide) : Stub where
  signature := ⟨request :: owned, unmarked, [], optional, by simpa using nodup⟩
  trace args reply :=
    submitted args request (operation args).submission reply.answer

/-- The stub of a file system request with a callback. -/
def submitFs (request : Param) (others : List Param) (operation : Operation Param)
    (nodup : (request :: .loop :: others ++ [Param.cb]).Nodup := by decide) : Stub :=
  submit request (.loop :: others) [.cb] [] (fun _ => operation) nodup

/-- A file system call without a callback: libuv writes the loop to the
request, and the stub releases the request. -/
def fsSync (request : Param) (kept released : List Param)
    (nodup : (.loop :: request :: kept ++ released).Nodup := by decide) :
    Stub where
  signature := ⟨.loop :: request :: kept ++ released, [], [], [],
    by simpa using nodup⟩
  trace args reply := keep args .requestBufs kept ++
    use args (.loop :: request :: kept ++ released) ++
    (if reply.answer.writes then keep args (.requestLoop .fs) [.loop]
      else []) ++
    decref args (request :: released)

end Shapes

end UvMbt.Stubs
