/-
Receiving datagrams: the alloc and receive trampolines of a UDP handle with the
buffer they share, against the sequences of calls that libuv documents.
-/
import Mathlib.Algebra.Group.Nat.Defs
import Mathlib.Data.List.Basic

set_option autoImplicit false

namespace UvMbt.UdpReceive

/-- A MoonBit `Bytes` object. -/
structure Bytes where
  id : Nat
  size : Nat
  deriving Repr, DecidableEq

/-- A `BytesView` lies in its object, whose size is an `Int`. -/
structure View where
  data : Bytes
  start : Nat
  length : Nat
  inside : start + length ≤ data.size
  small : data.size < 2 ^ 31
  deriving DecidableEq

/-- A `uv_buf_t`: a pointer into an object, as object and distance, and a
length. -/
structure Buf where
  object : Nat
  offset : Nat
  len : Nat
  deriving Repr, DecidableEq

def View.buf (view : View) : Buf :=
  ⟨view.data.id, view.start, view.length⟩

/-- A socket address: its family and its bytes. -/
structure Sockaddr where
  family : Nat
  bytes : List UInt8
  deriving Repr, DecidableEq

/-- What libuv passes to the receive callback; no address is the `NULL`
pointer. -/
structure Recv where
  nread : Int
  buf : Buf
  addr : Option Sockaddr
  flags : Nat
  deriving Repr, DecidableEq

inductive Event where
  | alloc (view : View)
  | recv (recv : Recv)
  deriving DecidableEq

/-- What reaches the user: a datagram with the memory of its view, or an
error. -/
inductive UserCall where
  | read (nread : Int) (memory : Buf) (addr : List UInt8) (flags : Nat)
  | error (errno : Int)
  deriving Repr, DecidableEq

inductive Fault where
  | nullAddress
  | unwrapNone
  | wrongBase
  | outOfRange
  deriving Repr, DecidableEq

section Trampolines

/-- `bytes` of `moonbit_uv_udp_data_t`. -/
abbrev UdpData := Option Bytes

/-- `moonbit_uv_udp_recv_start_alloc_cb` around the user's view. -/
def allocCb (view : View) : UdpData × Buf :=
  (some view.data, ⟨view.data.id, view.start, view.length⟩)

/-- `buf->base - (char *)buf_base`, a distance only inside the object. -/
def pointerDiff (buf : Buf) (base : Bytes) : Except Fault Nat :=
  if buf.object = base.id then .ok buf.offset else .error .wrongBase

/-- `AF_INET`, `AF_INET6` and the sizes of the address structures. -/
def afInet : Nat := 2
def afInet6 : Nat := 10
def sizeofSockaddr : Nat := 16
def sizeofSockaddrIn : Nat := 16
def sizeofSockaddrIn6 : Nat := 28

/-- The copy of the address: `sizeof(struct sockaddr)` bytes whatever its
family. -/
def copyAddr (addr : Sockaddr) : List UInt8 :=
  let size :=
    if addr.family = afInet then sizeofSockaddrIn
    else if addr.family = afInet6 then sizeofSockaddrIn6
    else sizeofSockaddr
  addr.bytes.take sizeofSockaddr ++
    List.replicate (size - sizeofSockaddr) 0

/-- `bytes[start:end]` of MoonBit, which aborts out of range. -/
def slice (bytes : Bytes) (start stop : Nat) : Except Fault Buf :=
  if start ≤ stop ∧ stop ≤ bytes.size then
    .ok ⟨bytes.id, start, stop - start⟩
  else .error .outOfRange

/-- The closure that `Udp::recv_start` passes to C: the view ends at
`buf_length`. -/
def uvRecvCb (count : Int) (bufData : Option Bytes) (buf : Buf)
    (addr : List UInt8) (flags : Nat) : Except Fault UserCall :=
  if count < 0 then .ok (.error count)
  else do
    match bufData with
    | none => throw .unwrapNone
    | some data =>
        let bufOffset ← pointerDiff buf data
        let memory ← slice data bufOffset buf.len
        return .read count memory addr flags

/-- `moonbit_uv_udp_recv_start_cb`: it takes the buffer out of the data and
reads the family of the address. -/
def recvCb (data : UdpData) (recv : Recv) :
    Except Fault (UdpData × UserCall) := do
  match recv.addr with
  | none => throw .nullAddress
  | some addr =>
      let call ← uvRecvCb recv.nread data recv.buf (copyAddr addr) recv.flags
      return (none, call)

/-- The calls of the user that a sequence of callbacks leads to. -/
def runEvents : UdpData → List Event → Except Fault (List UserCall)
  | _, [] => .ok []
  | _, .alloc view :: rest => runEvents (allocCb view).1 rest
  | data, .recv recv :: rest => do
      let (data, call) ← recvCb data recv
      let calls ← runEvents data rest
      return call :: calls

end Trampolines

section Contract

/-- Where libuv is: between reads, after an alloc, or between the parts of one
buffer. -/
inductive Phase where
  | waiting
  | allocated (view : View)
  | chunks (view : View) (used : Nat)
  deriving DecidableEq

/-- `UV_UDP_MMSG_CHUNK` and `UV_UDP_MMSG_FREE` of the flags. -/
def isChunk (flags : Nat) : Bool := flags.testBit 3
def isFree (flags : Nat) : Bool := flags.testBit 4

/-- `UV_ENOBUFS`. -/
def uvEnobufs : Int := -105

/-- The one receive of an alloc: a datagram, an error, or nothing more. -/
def Single (view : View) (recv : Recv) : Prop :=
  recv.buf = view.buf ∧ isChunk recv.flags = false ∧
    isFree recv.flags = false ∧ recv.nread ≤ view.length ∧
    (view.length = 0 → recv.nread = uvEnobufs) ∧
    (recv.nread < 0 → recv.addr = none) ∧ (0 < recv.nread → recv.addr ≠ none)

/-- A datagram in the next part of the buffer. -/
def Chunk (view : View) (used : Nat) (recv : Recv) : Prop :=
  recv.buf.object = view.data.id ∧ recv.buf.offset = view.start + used ∧
    0 < recv.buf.len ∧ used + recv.buf.len ≤ view.length ∧
    0 ≤ recv.nread ∧ recv.nread ≤ recv.buf.len ∧ recv.addr ≠ none ∧
    isChunk recv.flags

/-- The last receive of a buffer that was read in parts. -/
def Free (view : View) (recv : Recv) : Prop :=
  recv.nread = 0 ∧ recv.buf = view.buf ∧ recv.addr = none ∧ isFree recv.flags

instance (view : View) (recv : Recv) : Decidable (Single view recv) :=
  inferInstanceAs (Decidable (_ ∧ _ ∧ _ ∧ _ ∧ (_ → _) ∧ (_ → _) ∧ (_ → _)))

instance (view : View) (used : Nat) (recv : Recv) :
    Decidable (Chunk view used recv) :=
  inferInstanceAs (Decidable (_ ∧ _ ∧ _ ∧ _ ∧ _ ∧ _ ∧ _ ∧ _))

instance (view : View) (recv : Recv) : Decidable (Free view recv) :=
  inferInstanceAs (Decidable (_ ∧ _ ∧ _ ∧ _))

/-- What libuv's documented contract allows next; `mmsg` says whether the
handle was made with `UV_UDP_RECVMMSG`. -/
def Phase.next (mmsg : Bool) : Phase → Event → Option Phase
  | .waiting, .alloc view => some (.allocated view)
  | .allocated view, .recv recv =>
      if Single view recv then some .waiting
      else if mmsg ∧ Chunk view 0 recv then some (.chunks view recv.buf.len)
      else none
  | .chunks view used, .recv recv =>
      if Chunk view used recv then some (.chunks view (used + recv.buf.len))
      else if Free view recv then some .waiting
      else none
  | _, _ => none

/-- The sequences of callbacks that libuv may make. -/
def Legal (mmsg : Bool) : Phase → List Event → Prop
  | _, [] => True
  | phase, event :: rest =>
      match phase.next mmsg event with
      | none => False
      | some next => Legal mmsg next rest

instance decidableLegal (mmsg : Bool) :
    ∀ phase events, Decidable (Legal mmsg phase events)
  | _, [] => isTrue trivial
  | phase, event :: rest =>
      match hnext : phase.next mmsg event with
      | none => isFalse (by simp [Legal, hnext])
      | some next =>
          have := decidableLegal mmsg next rest
          decidable_of_iff (Legal mmsg next rest) (by simp [Legal, hnext])

/-- The user's call for an event: one for a datagram, with the memory libuv
reports for it, one for an error, and none when there is nothing to report. -/
def due : Event → Option UserCall
  | .alloc _ => none
  | .recv recv =>
      if recv.nread < 0 then some (.error recv.nread)
      else recv.addr.map (fun addr =>
        .read recv.nread recv.buf (copyAddr addr) recv.flags)

/-- No call of the sequence goes wrong, and the user gets what is due. -/
def Sound (data : UdpData) (events : List Event) : Prop :=
  runEvents data events = .ok (events.filterMap due)

/-- Every receive reports an address and is the only one of its alloc, and the
view that alloc returned starts at its object. -/
def OnePerAlloc : List Event → Prop
  | [] => True
  | [.alloc _] => True
  | .alloc view :: .recv recv :: rest =>
      view.start = 0 ∧ recv.addr ≠ none ∧ OnePerAlloc rest
  | _ => False

end Contract

section Proofs

variable {mmsg : Bool} {view : View} {recv : Recv} {rest : List Event}

theorem pointerDiff_of_object {buf : Buf} {base : Bytes}
    (hobject : buf.object = base.id) :
    pointerDiff buf base = .ok buf.offset :=
  if_pos hobject

/-- Without an address the trampoline faults, whatever it was called for. -/
theorem not_sound_of_no_addr (data : UdpData) (haddr : recv.addr = none) :
    ¬ Sound data (.recv recv :: rest) := by
  intro hsound
  simp [Sound, runEvents, recvCb, haddr, bind, Except.bind, throw, throwThe,
    MonadExceptOf.throw] at hsound

/-- A datagram after the buffer was given away faults. -/
theorem not_sound_of_given_away (hnread : 0 ≤ recv.nread) :
    ¬ Sound none (.recv recv :: rest) := by
  intro hsound
  cases haddr : recv.addr with
  | none => exact not_sound_of_no_addr none haddr hsound
  | some addr =>
      simp [Sound, runEvents, recvCb, uvRecvCb, haddr, Int.not_lt.mpr hnread,
        bind, Except.bind, throw, throwThe, MonadExceptOf.throw] at hsound

/-- A receive that does not fault is right when its call is the due one and
the rest is right. -/
theorem sound_cons_iff {data next : UdpData} {call expected : UserCall}
    (hcall : recvCb data recv = .ok (next, call))
    (hdue : due (.recv recv) = some expected) :
    Sound data (.recv recv :: rest) ↔ call = expected ∧ Sound next rest := by
  rw [Sound, List.filterMap_cons_some hdue, Sound]
  cases hrest : runEvents next rest with
  | error fault =>
      simp [runEvents, hcall, hrest, bind, Except.bind]
  | ok calls =>
      simp [runEvents, hcall, hrest, bind, Except.bind, pure, Except.pure]

/-- The first receive of an alloc that reports a datagram is right exactly when
the view starts at its object: the closure takes the length of the memory for
the end of its view. -/
theorem sound_recv_iff {addr : Sockaddr} (haddr : recv.addr = some addr)
    (hnread : 0 ≤ recv.nread) (hobject : recv.buf.object = view.data.id)
    (hoffset : recv.buf.offset = view.start)
    (hlen : recv.buf.len ≤ view.length) (hpos : 0 < recv.buf.len) :
    Sound (some view.data) (.recv recv :: rest) ↔
      view.start = 0 ∧ Sound none rest := by
  have hnot : ¬ recv.nread < 0 := Int.not_lt.mpr hnread
  have hdue : due (.recv recv) =
      some (.read recv.nread recv.buf (copyAddr addr) recv.flags) := by
    simp [due, hnot, haddr]
  have hbuf : recv.buf = ⟨view.data.id, view.start, recv.buf.len⟩ := by
    rw [← hobject, ← hoffset]
  by_cases hslice : view.start ≤ recv.buf.len ∧
      recv.buf.len ≤ view.data.size
  · have hcall : recvCb (some view.data) recv = .ok (none,
        .read recv.nread ⟨view.data.id, view.start,
          recv.buf.len - view.start⟩ (copyAddr addr) recv.flags) := by
      simp [recvCb, uvRecvCb, haddr, hnot, pointerDiff_of_object hobject,
        hoffset, slice, hslice, bind, Except.bind, pure, Except.pure]
    rw [sound_cons_iff hcall hdue, hbuf]
    simp only [UserCall.read.injEq, Buf.mk.injEq, true_and, and_true]
    have hlength : recv.buf.len - view.start = recv.buf.len ↔
        view.start = 0 := by omega
    rw [hlength]
  · have hcall : recvCb (some view.data) recv = .error .outOfRange := by
      simp [recvCb, uvRecvCb, haddr, hnot, pointerDiff_of_object hobject,
        hoffset, slice, hslice, bind, Except.bind]
    have hinside := view.inside
    constructor
    · intro hsound
      simp [Sound, runEvents, hcall, bind, Except.bind] at hsound
    · rintro ⟨hstart, -⟩
      omega

/-- A receive that is not the first of its alloc is never right. -/
theorem not_sound_chunks {used : Nat} {recv : Recv}
    (hlegal : Legal mmsg (.chunks view used) (.recv recv :: rest)) :
    ¬ Sound none (.recv recv :: rest) := by
  simp only [Legal, Phase.next] at hlegal
  by_cases hchunk : Chunk view used recv
  · exact not_sound_of_given_away hchunk.2.2.2.2.1
  · rw [if_neg hchunk] at hlegal
    by_cases hfree : Free view recv
    · exact not_sound_of_no_addr none hfree.2.2.1
    · rw [if_neg hfree] at hlegal
      exact hlegal.elim

/-- After the first part of a buffer only the end of the sequence is right. -/
theorem sound_chunks_iff {used : Nat}
    (hlegal : Legal mmsg (.chunks view used) rest) :
    Sound none rest ↔ OnePerAlloc rest := by
  cases rest with
  | nil => exact ⟨fun _ => trivial, fun _ => rfl⟩
  | cons event rest =>
      cases event with
      | alloc _ => exact hlegal.elim
      | recv recv =>
          refine ⟨fun hsound => absurd hsound (not_sound_chunks hlegal), ?_⟩
          exact fun hone => hone.elim

/-- The calls of the user are right, and none faults, exactly when every
receive has an address and an alloc of its own whose view starts at its
object. -/
theorem sound_iff_onePerAlloc (mmsg : Bool) (data : UdpData)
    (events : List Event) (hlegal : Legal mmsg .waiting events) :
    Sound data events ↔ OnePerAlloc events := by
  fun_induction OnePerAlloc events generalizing data with
  | case1 => exact ⟨fun _ => trivial, fun _ => rfl⟩
  | case2 view => exact ⟨fun _ => trivial, fun _ => rfl⟩
  | case3 view recv rest ih =>
      have halloc : Sound data (.alloc view :: .recv recv :: rest) ↔
          Sound (some view.data) (.recv recv :: rest) := Iff.rfl
      rw [halloc]
      simp only [Legal, Phase.next] at hlegal
      cases haddr : recv.addr with
      | none =>
          refine ⟨fun hsound => absurd hsound (not_sound_of_no_addr _ haddr),
            ?_⟩
          rintro ⟨-, hsome, -⟩
          exact absurd rfl hsome
      | some addr =>
          simp only [ne_eq, reduceCtorEq, not_false_eq_true, true_and]
          by_cases hsingle : Single view recv
          · rw [if_pos hsingle] at hlegal
            obtain ⟨hbuf, -, -, -, hempty, herror, -⟩ := hsingle
            have hnread : 0 ≤ recv.nread := by
              by_contra hneg
              rw [herror (Int.not_le.mp hneg)] at haddr
              cases haddr
            have hpos : 0 < view.length := by
              rcases Nat.eq_zero_or_pos view.length with hzero | hpos
              · rw [hempty hzero, uvEnobufs] at hnread
                exact absurd hnread (by decide)
              · exact hpos
            rw [← ih none hlegal]
            exact sound_recv_iff haddr hnread (by rw [hbuf]; rfl)
              (by rw [hbuf]; rfl) (by rw [hbuf]; exact Nat.le_refl _)
              (by rw [hbuf]; exact hpos)
          · rw [if_neg hsingle] at hlegal
            by_cases hchunk : mmsg ∧ Chunk view 0 recv
            · rw [if_pos hchunk] at hlegal
              obtain ⟨-, hobject, hoffset, hpos, hlen, hnread, -⟩ := hchunk
              rw [← sound_chunks_iff hlegal]
              exact sound_recv_iff haddr hnread hobject hoffset
                (by omega) hpos
            · rw [if_neg hchunk] at hlegal
              exact hlegal.elim
  | case4 events hnil halloc hpair =>
      refine ⟨fun _ => ?_, False.elim⟩
      -- a legal sequence begins with an alloc, and a receive follows it
      match events, hlegal with
      | [], _ => exact hnil rfl
      | .alloc view :: [], _ => exact halloc view rfl
      | .alloc view :: .recv recv :: rest, _ => exact hpair view recv rest rfl

end Proofs

section Runs

/-- A buffer of 100 bytes. -/
def buffer : View := ⟨⟨0, 100⟩, 0, 100, by decide, by decide⟩

def sender : Sockaddr := ⟨afInet, List.replicate 16 0⟩

/-- One datagram. -/
def oneDatagram : List Event :=
  [.alloc buffer, .recv ⟨12, buffer.buf, some sender, 0⟩]

theorem sound_iff_onePerAlloc_oneDatagram : Sound none oneDatagram :=
  (sound_iff_onePerAlloc false none oneDatagram (by decide)).mpr
    ⟨rfl, by decide, trivial⟩

/-- The same datagram, and the further receive that finds nothing queued. -/
def thenNothing : List Event :=
  oneDatagram ++ [.alloc buffer, .recv ⟨0, buffer.buf, none, 0⟩]

theorem thenNothing_faults :
    Legal false .waiting thenNothing ∧
      runEvents none thenNothing = .error .nullAddress := by
  decide

end Runs

end UvMbt.UdpReceive
