/-
Runs of a program with any number of requests: the MoonBit code that owns
references, the stubs and trampolines over the heap, libuv's own record of the
requests that are not done, and the pool threads that run the work callbacks
next to the loop.
-/
import Mathlib.Data.Multiset.Filter
import UvMbt.GuardedRun
import UvMbt.RefGraph
import UvMbt.Requests

set_option autoImplicit false

namespace UvMbt.Requests

open RefHeap GuardedRun

namespace Submission

variable (sub : Submission Addr)

/-- What the stub stores: in the box, or in the request. -/
def stored : List Addr :=
  sub.cb :: sub.payload.toList ++ sub.bufs.toList ++
    if sub.type.ownsLoop then sub.loop.toList else []

/-- The references that the call takes from its caller. -/
def given : List Addr :=
  sub.stored ++ sub.released.reduceOption

/-- What libuv points to and nothing on the side of C keeps: the sent handle,
and a loop that the finalizer does not release. -/
def borrowed : List Addr :=
  sub.sent.toList ++ if sub.type.ownsLoop then [] else sub.loop.toList

/-- The references that are libuv's once the stub has returned: the one to the
request, and what the request does not hold because it has no finalizer or
because libuv has not written it. -/
def unheld (req : Addr) (written : Bool) : List Addr :=
  req :: (if sub.type.finalizes then [] else [sub.cb]) ++
    if sub.type.ownsLoop && !written then sub.loop.toList else []

end Submission

/-- A count that MoonBit code changes: it is read, and then written. -/
inductive Action where
  | dup (addr : Addr)
  | drop (addr : Addr)
  | unpack (source target : Addr)
  deriving Repr, DecidableEq

/-- The references that an action makes. -/
def Action.takes : Action → List Addr
  | .dup addr => [addr]
  | .unpack _ target => [target]
  | .drop _ => []

/-- The references that an action gives back. -/
def Action.releases : Action → List Addr
  | .drop addr => [addr]
  | .dup _ | .unpack _ _ => []

/-- How far the pool thread of a request has come: `entered` with the callback
in its hand, `running` MoonBit code, in the middle of an action or not. -/
inductive Phase where
  | queued
  | entered (cb : Option Addr)
  | running (action : Option Action)
  deriving Repr, DecidableEq

def Phase.isEntered : Phase → Bool
  | .entered _ => true
  | .queued | .running _ => false

/-- The callback that the pool thread has taken and not called yet. -/
def Phase.inHand : Phase → List Addr
  | .entered cb => cb.toList
  | .queued | .running _ => []

/-- A request that libuv has taken and not completed. -/
structure Pending where
  operation : Operation Addr
  req : Addr
  phase : Phase
  cancelled : Bool
  deriving Repr, DecidableEq

namespace Pending

variable (pending : Pending)

def sub : Submission Addr :=
  pending.operation.submission

/-- The address that `req->data` holds; a box is made right after its
request. -/
def slot : Addr :=
  if pending.sub.type.boxed then pending.req + 1 else pending.sub.cb

/-- The payload that is still in the box. -/
def payload : Option Addr :=
  if pending.phase = .queued then pending.sub.payload else none

def owned : List Addr :=
  pending.phase.inHand ++ pending.sub.unheld pending.req true

def key : Addr × Addr :=
  (pending.req, pending.sub.cb)

/-- The action that the pool thread is in the middle of: on entry it takes a
reference to the request. -/
def action : Option Action :=
  match pending.phase with
  | .queued => none
  | .entered _ => some (.dup pending.req)
  | .running action => action

end Pending

/-- A call that raised: its request and what libuv had written. -/
structure Raised where
  operation : Operation Addr
  req : Addr
  written : Bool
  deriving Repr, DecidableEq

/-- libuv has not taken the request: nobody is left to release these. -/
def Raised.leaks (raised : Raised) : List Addr :=
  raised.operation.submission.unheld raised.req raised.written

structure Completion where
  req : Addr
  cb : Addr
  side : Side
  deriving Repr, DecidableEq

def Completion.key (completion : Completion) : Addr × Addr :=
  (completion.req, completion.cb)

/-- `user` are the references that the rest of the program owns, the loop's
registrations of handles among them; `returned` and `raised` are the calls made
so far, the former with their callbacks; `done` are the requests that libuv has
completed as cancelled. -/
structure State where
  heap : Heap Obj
  user : Multiset Addr
  pending : List Pending
  returned : List (Addr × Addr)
  raised : List Raised
  completions : List Completion
  done : List Pending
  deriving DecidableEq

def State.initial : State :=
  ⟨Heap.empty, 0, [], [], [], [], []⟩

/-- A new object is nobody else's yet, so any thread may make it.  The other
steps are the loop's thread's, but for those of a work request's pool thread:
it enters its trampoline, calls the callback, begins an action there and ends
it. -/
inductive Label where
  | newObject (refs : List Addr)
  | act (action : Action)
  | submit (operation : Operation Addr) (answer : Answer)
  | work (req : Addr)
  | call (req : Addr)
  | begin (req : Addr) (action : Action)
  | finish (req : Addr) (action : Action)
  | cancel (req : Addr) (accepted : Bool)
  | complete (req : Addr) (status : Int)
  deriving Repr, DecidableEq

/-- The references that a step makes to an object that others may count. -/
def Label.takes : Label → List Addr
  | .act action | .finish _ action => action.takes
  | .call req => [req]
  | .newObject _ | .submit _ _ | .work _ | .begin _ _ | .cancel _ _
  | .complete _ _ => []

/-- The references that a step takes from their owners and does not store. -/
def Label.releases : Label → List Addr
  | .act action | .finish _ action => action.releases
  | .cancel req _ => [req]
  | .submit operation _ => operation.submission.released.reduceOption
  | .newObject _ | .work _ | .call _ | .begin _ _ | .complete _ _ => []

/-- The request whose pool thread takes the step. -/
def Label.pool : Label → Option Addr
  | .work req | .call req | .begin req _ | .finish req _ => some req
  | .newObject _ | .act _ | .submit _ _ | .cancel _ _ | .complete _ _ => none

/-- The submission that a step makes. -/
def Label.submits : Label → List (Submission Addr)
  | .submit operation _ => [operation.submission]
  | _ => []

/-- The submission that a step adds to the pending ones. -/
def Label.accepts : Label → List (Submission Addr)
  | .submit operation .accepted => [operation.submission]
  | _ => []

/-- `UV_ECANCELED`. -/
def uvEcanceled : Int := -125

/-- The handle of `uv_pipe_connect2`, which does not mind that the pipe is
connecting. -/
def Operation.pipe : Operation Addr → Option Addr
  | .pipeConnect2 handle _ _ => some handle
  | _ => none

/-- libuv writes the new request over the one that the pipe connects with. -/
def Operation.Overwrites (operation : Operation Addr) (pending : Pending) :
    Prop :=
  ∃ handle ∈ operation.pipe,
    pending.sub.type = .connect ∧ pending.sub.target = some handle

instance (operation : Operation Addr) : DecidablePred operation.Overwrites :=
  fun _ => inferInstanceAs (Decidable (∃ handle ∈ operation.pipe, _ ∧ _))

namespace State

variable (s : State)

/-- Every reference that something outside the heap owns. -/
def own : Multiset Addr :=
  s.user + ↑(s.pending.flatMap Pending.owned)

def find (req : Addr) : Option Pending :=
  s.pending.find? (fun pending => pending.req = req)

def update (pending : Pending) (change : Pending → Pending) : List Pending :=
  change pending :: s.pending.erase pending

/-- The references that an object which the program owns lets it read. -/
def fields (source : Addr) : List Addr :=
  match s.heap.get source with
  | .ok (.object refs) => refs
  | _ => []

/-- The submissions that libuv holds once a step is done. -/
def held (label : Label) : List (Submission Addr) :=
  s.pending.map Pending.sub ++ label.accepts

/-- An address stays alive without some of the references to it. -/
def Keeps (releases : List Addr) (addr : Addr) : Prop :=
  Held s.heap (s.own - ↑releases) addr

instance (releases : List Addr) (addr : Addr) :
    Decidable (s.Keeps releases addr) :=
  inferInstanceAs (Decidable (Held _ _ _))

/-- The objects that nothing owns once some references are given back. -/
def freed (releases : List Addr) : List Addr :=
  (List.range s.heap.cells.length).filter fun addr =>
    ¬ Held s.heap (s.own - ↑releases + ↑s.heap.lost) addr

/-- The objects whose counts change when some references are made and others
given back: an object that is freed gives back those it holds. -/
def counted (takes releases : List Addr) : List Addr :=
  takes ++ releases ++ (s.freed releases).flatMap s.heap.children

/-- A pool thread is in the middle of counting an object that another thread's
step counts. -/
def Races (label : Label) : Prop :=
  ∃ pending ∈ s.pending, label.pool ≠ some pending.req ∧
    ∃ action ∈ pending.action, ∃ addr ∈ s.counted label.takes label.releases,
      addr ∈ s.counted action.takes action.releases

instance (label : Label) : Decidable (s.Races label) :=
  inferInstanceAs (Decidable (∃ pending ∈ s.pending, _ ∧
    ∃ action ∈ pending.action, _))

/-- The program has what an action needs. -/
def Owns : Action → Prop
  | .dup addr | .drop addr => addr ∈ s.user
  | .unpack source target => source ∈ s.user ∧ target ∈ s.fields source

instance : DecidablePred s.Owns
  | .dup _ | .drop _ => inferInstanceAs (Decidable (_ ∈ _))
  | .unpack _ _ => inferInstanceAs (Decidable (_ ∧ _))

def act : Action → Except Fault State
  | .dup addr | .unpack _ addr => do
      let heap ← s.heap.incref addr
      return { s with heap, user := addr ::ₘ s.user }
  | .drop addr => do
      let heap ← s.heap.decref addr
      return { s with heap, user := s.user.erase addr }

def submit (operation : Operation Addr) (answer : Answer) :
    Except Fault State := do
  let sub := operation.submission
  let (heap, req) ← sub.call s.heap answer
  match answer with
  | .accepted =>
      return { s with
        heap
        user := req ::ₘ (s.user - ↑sub.given)
        pending := ⟨operation, req, .queued, false⟩ ::
          s.pending.filter (fun pending => ¬ operation.Overwrites pending)
        returned := (req, sub.cb) :: s.returned }
  | .rejected written =>
      let raised : Raised := ⟨operation, req, written⟩
      return { s with
        heap := raised.leaks.foldr (fun addr heap => heap.forget addr) heap
        user := s.user - ↑sub.given
        raised := raised :: s.raised }

def enterWork (pending : Pending) : Except Fault State := do
  let (heap, cb) ← takeWork s.heap pending.req
  return { s with
    heap
    pending := s.update pending fun pending =>
      { pending with phase := .entered cb } }

/-- The pool thread begins an action, or has none to end. -/
def turnTo (pending : Pending) (action : Option Action) : State :=
  { s with pending := s.update pending fun pending =>
    { pending with phase := .running action } }

def runWork (pending : Pending) : Except Fault State :=
  match pending.phase with
  | .entered cb => do
      let (heap, cb) ← callWork s.heap pending.req cb
      return { s.turnTo pending none with
        heap, user := cb ::ₘ pending.req ::ₘ s.user }
  | .queued | .running _ => .ok s

/-- libuv puts a request that it cancels among those to complete, one that it
has completed as cancelled once more. -/
def markCancelled (req : Addr) : List Pending :=
  match s.find req with
  | some pending =>
      s.update pending fun pending => { pending with cancelled := true }
  | none => s.done.filter (fun pending => pending.req = req) ++ s.pending

def cancel (req : Addr) (accepted : Bool) : Except Fault State := do
  -- `moonbit_uv_cancel` releases its argument
  let heap ← s.heap.decref req
  return { s with
    heap
    user := s.user.erase req
    pending := if accepted then s.markCancelled req else s.pending }

def complete (pending : Pending) (status : Int) : Except Fault State := do
  let type := pending.sub.type
  let (heap, cb, buffer) ← completionCb s.heap pending.req type
  let (heap, results) := allocMany (type.results status) heap
  return { s with
    heap
    user := cb ::ₘ pending.req ::ₘ (↑(buffer.toList ++ results) + s.user)
    pending := s.pending.erase pending
    completions := ⟨pending.req, cb, uvCb status⟩ :: s.completions
    done := if pending.cancelled then pending :: s.done else s.done }

/-- A step that no other thread disturbs; libuv calls no trampoline for a
request that it does not hold. -/
def apply : Label → Except Fault State
  | .newObject refs =>
      let (heap, addr) := s.heap.alloc (.object refs)
      .ok { s with heap, user := addr ::ₘ (s.user - ↑refs) }
  | .act action => s.act action
  | .submit operation answer => s.submit operation answer
  | .work req =>
      match s.find req with
      | some pending => s.enterWork pending
      | none => .ok s
  | .call req =>
      match s.find req with
      | some pending => s.runWork pending
      | none => .ok s
  | .begin req action =>
      match s.find req with
      | some pending => .ok (s.turnTo pending (some action))
      | none => .ok s
  | .finish req action =>
      match s.find req with
      | some pending => (s.turnTo pending none).act action
      | none => .ok s
  | .cancel req accepted => s.cancel req accepted
  | .complete req status =>
      match s.find req with
      | some pending => s.complete pending status
      | none => .ok s

end State

/-- One step; the counts are plain integers, which no two threads may change at
once. -/
def step (s : State) (label : Label) : Except Fault State :=
  if s.Races label then .error .dataRace else s.apply label

/-- libuv lets a file system or work request be cancelled until it runs. -/
def Pending.Cancelable (pending : Pending) : Prop :=
  (pending.sub.type = .fs ∨ pending.sub.type = .work) ∧
    pending.phase = .queued

instance (pending : Pending) : Decidable pending.Cancelable :=
  inferInstanceAs (Decidable ((_ ∨ _) ∧ _))

/-- A work request is done once its pool thread has left the callback or it is
cancelled; a cancelled request is done with `UV_ECANCELED`. -/
def Pending.Completes (pending : Pending) (status : Int) : Prop :=
  (pending.phase = .running none ∨ pending.phase = .queued ∧
    (pending.sub.type = .work → pending.cancelled)) ∧
      (pending.cancelled → status = uvEcanceled)

instance (pending : Pending) (status : Int) :
    Decidable (pending.Completes status) :=
  inferInstanceAs (Decidable ((_ ∨ _ ∧ (_ → _)) ∧ (_ → _)))

/-- What the MoonBit code and libuv do at most: the program uses what it owns,
and libuv calls back for what it holds. -/
def Possible (s : State) : Label → Prop
  | .newObject refs => (↑refs : Multiset Addr) ≤ s.user
  | .act action => s.Owns action
  | .submit operation _ => (↑operation.submission.given : Multiset Addr) ≤ s.user
  | .work req => ∃ pending ∈ s.find req, pending.sub.type = .work ∧
      pending.phase = .queued ∧ pending.cancelled = false
  | .call req => ∃ pending ∈ s.find req, pending.phase.isEntered
  | .begin req action => s.Owns action ∧
      ∃ pending ∈ s.find req, pending.phase = .running none
  | .finish req action => s.Owns action ∧
      ∃ pending ∈ s.find req, pending.phase = .running (some action)
  | .cancel req accepted => req ∈ s.user ∧ (accepted →
      (∃ pending ∈ s.find req, pending.Cancelable) ∨
        ∃ pending ∈ s.done, pending.req = req)
  | .complete req status => ∃ pending ∈ s.find req, pending.Completes status

instance (s : State) : DecidablePred (Possible s)
  | .newObject _ | .submit _ _ => inferInstanceAs (Decidable (_ ≤ _))
  | .act action => inferInstanceAs (Decidable (s.Owns action))
  | .work req | .call req | .complete req _ =>
      inferInstanceAs (Decidable (∃ pending ∈ s.find req, _))
  | .begin req action | .finish req action =>
      inferInstanceAs (Decidable (s.Owns action ∧
        ∃ pending ∈ s.find req, _))
  | .cancel req accepted =>
      inferInstanceAs (Decidable (_ ∧ (accepted → (∃ pending ∈ s.find req, _) ∨
        ∃ pending ∈ s.done, _)))

/-- libuv completes every request of a handle before it closes it, and until
then the loop's registration keeps the handle. -/
def Contract (s : State) (label : Label) : Prop :=
  Possible s label ∧ ∀ sub ∈ s.held label, ∀ addr ∈ sub.target.toList,
    s.Keeps label.releases addr

instance (s : State) : DecidablePred (Contract s) := fun label =>
  inferInstanceAs (Decidable (_ ∧
    ∀ sub ∈ s.held label, ∀ addr ∈ sub.target.toList, _))

/-- A pipe is not connected again while it connects, and a request is not
cancelled again once libuv has reported that it is. -/
def Once (s : State) : Label → Prop
  | .submit operation .accepted =>
      ∀ pending ∈ s.pending, ¬ operation.Overwrites pending
  | .cancel req _ => ∀ pending ∈ s.done, pending.req ≠ req
  | _ => True

instance (s : State) : DecidablePred (Once s)
  | .submit operation .accepted => inferInstanceAs
      (Decidable (∀ pending ∈ s.pending, ¬ operation.Overwrites pending))
  | .cancel _ _ => inferInstanceAs (Decidable (∀ pending ∈ s.done, _))
  | .submit _ (.rejected _) | .newObject _ | .act _ | .work _ | .call _
  | .begin _ _ | .finish _ _ | .complete _ _ => instDecidableTrue

/-- What the program has to see to: an address for every send, an owner for
what the requests only borrow, no request twice, and that no two threads count
an object at once. -/
structure Rule (s : State) (label : Label) : Prop where
  present : ∀ sub ∈ label.submits, none ∉ sub.released
  kept : ∀ sub ∈ s.held label, ∀ addr ∈ sub.borrowed,
    s.Keeps label.releases addr
  once : Once s label
  apart : ¬ s.Races label

instance (s : State) : DecidablePred (Rule s) := fun label =>
  decidable_of_iff ((∀ sub ∈ label.submits, none ∉ sub.released) ∧
      (∀ sub ∈ s.held label, ∀ addr ∈ sub.borrowed,
        s.Keeps label.releases addr) ∧ Once s label ∧ ¬ s.Races label)
    ⟨fun ⟨present, kept, once, apart⟩ => ⟨present, kept, once, apart⟩,
      fun rule => ⟨rule.present, rule.kept, rule.once, rule.apart⟩⟩

def Allowed (s : State) (label : Label) : Prop :=
  Contract s label ∧ Rule s label

instance (s : State) : DecidablePred (Allowed s) := fun _ =>
  inferInstanceAs (Decidable (_ ∧ _))

end UvMbt.Requests
