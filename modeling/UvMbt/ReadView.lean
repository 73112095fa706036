/-
The view that a read callback gets: what the alloc trampolines of a stream and
of a UDP handle give to libuv, and what the read trampolines make of it.
-/
import UvMbt.UdpReceive

set_option autoImplicit false

namespace UvMbt.ReadView

open UdpReceive (Bytes View Buf Sockaddr pointerDiff slice copyAddr)

/-- `bytes` of `moonbit_uv_stream_data_t`. -/
abbrev StreamData := Option Bytes

/-- What reaches the user of `Stream::read_start`. -/
inductive StreamCall where
  | read (nread : Int) (memory : Buf)
  | error (errno : Int)
  deriving Repr, DecidableEq

section Trampolines

/-- `moonbit_uv_read_start_alloc_cb` around the user's view. -/
def readStartAllocCb (view : View) : StreamData × Buf :=
  (some view.data, ⟨view.data.id, view.start, view.length⟩)

/-- The closure that `Stream::read_start` passes to C: its slice ends at
`buf_length` too. -/
def uvReadCb (count : Int) (bufData : Option Bytes) (buf : Buf) :
    Except UdpReceive.Fault StreamCall :=
  if count < 0 then .ok (.error count)
  else do
    match bufData with
    | none => throw .unwrapNone
    | some data =>
        let bufOffset ← pointerDiff buf data
        let memory ← slice data bufOffset buf.len
        return .read count memory

/-- `moonbit_uv_read_start_read_cb`. -/
def readStartReadCb (data : StreamData) (nread : Int) (buf : Buf) :
    Except UdpReceive.Fault (StreamData × StreamCall) := do
  let call ← uvReadCb nread data buf
  return (none, call)

/-- One buffer of a stream: what libuv gets, and the call it comes back as. -/
def readStart (view : View) (nread : Int) :
    Except UdpReceive.Fault (Buf × StreamCall) := do
  let (data, buf) := readStartAllocCb view
  let (_, call) ← readStartReadCb data nread buf
  return (buf, call)

/-- One buffer of a UDP handle. -/
def recvStart (view : View) (nread : Int) (addr : Option Sockaddr)
    (flags : Nat) : Except UdpReceive.Fault (Buf × UdpReceive.UserCall) := do
  let (data, buf) := UdpReceive.allocCb view
  let (_, call) ← UdpReceive.recvCb data ⟨nread, buf, addr, flags⟩
  return (buf, call)

end Trampolines

/-- What the buffer was read from: a stream, or a socket with the address and
flags libuv reports. -/
inductive Source where
  | stream
  | udp (addr : Option Sockaddr) (flags : Nat)
  deriving Repr, DecidableEq

/-- libuv gets the memory of the view, and the user the view itself. -/
def Delivered (source : Source) (view : View) (nread : Nat) : Prop :=
  match source with
  | .stream => readStart view nread = .ok (view.buf, .read nread view.buf)
  | .udp addr flags => ∃ sender,
      recvStart view nread addr flags =
        .ok (view.buf, .read nread view.buf sender flags)

/-- A stream has no address to report. -/
def Source.Reported : Source → Prop
  | .stream => True
  | .udp addr _ => addr ≠ none

section Proofs

variable (view : View) (nread : Nat)

/-- The slice takes the length of the view for its end. -/
theorem slice_start_length :
    slice view.data view.start view.length =
      if view.start ≤ view.length then
        .ok ⟨view.data.id, view.start, view.length - view.start⟩
      else .error .outOfRange := by
  have hinside := view.inside
  have hsize : view.length ≤ view.data.size := by omega
  simp only [slice, hsize, and_true]

theorem slice_eq_buf_iff :
    slice view.data view.start view.length = .ok view.buf ↔
      view.start = 0 := by
  rw [slice_start_length]
  constructor
  · intro hslice
    split at hslice
    · simp only [View.buf, Except.ok.injEq, Buf.mk.injEq, true_and] at hslice
      omega
    · cases hslice
  · intro hstart
    simp [hstart, View.buf]

theorem readStart_eq :
    readStart view nread =
      (slice view.data view.start view.length).map
        (fun memory => (view.buf, .read nread memory)) := by
  have hcount : ¬ (nread : Int) < 0 := by omega
  cases hslice : slice view.data view.start view.length <;>
    simp [readStart, readStartAllocCb, readStartReadCb, uvReadCb, hcount,
      pointerDiff, hslice, bind, Except.bind, pure, Except.pure, Except.map,
      View.buf]

theorem recvStart_eq (addr : Sockaddr) (flags : Nat) :
    recvStart view nread (some addr) flags =
      (slice view.data view.start view.length).map
        (fun memory =>
          (view.buf, .read nread memory (copyAddr addr) flags)) := by
  have hcount : ¬ (nread : Int) < 0 := by omega
  cases hslice : slice view.data view.start view.length <;>
    simp [recvStart, UdpReceive.allocCb, UdpReceive.recvCb,
      UdpReceive.uvRecvCb, hcount, pointerDiff, hslice, bind, Except.bind,
      pure, Except.pure, Except.map, View.buf]

theorem recvStart_none (flags : Nat) :
    recvStart view nread none flags = .error .nullAddress :=
  rfl

/-- The user gets the view that was allocated exactly when it starts at its
object, and a datagram has an address. -/
theorem delivered_iff (source : Source) :
    Delivered source view nread ↔ view.start = 0 ∧ source.Reported := by
  rw [← slice_eq_buf_iff]
  cases source with
  | stream =>
      rw [Delivered, readStart_eq]
      cases slice view.data view.start view.length <;>
        simp [Except.map, Source.Reported]
  | udp addr flags =>
      cases addr with
      | none => simp [Delivered, recvStart_none, Source.Reported]
      | some addr =>
          simp only [Delivered, recvStart_eq]
          cases slice view.data view.start view.length <;>
            simp [Except.map, Source.Reported]

end Proofs

/-- Bytes 4 to 12 of an object of 16. -/
def inner : View := ⟨⟨0, 16⟩, 4, 8, by decide, by decide⟩

/-- Bytes 8 to 12 of it. -/
def tail : View := ⟨⟨0, 16⟩, 8, 4, by decide, by decide⟩

/-- The first view comes back short, and the second aborts. -/
theorem inner_tail_not_delivered :
    readStart inner 6 = .ok (inner.buf, .read 6 ⟨0, 4, 4⟩) ∧
      ¬ Delivered .stream inner 6 ∧
      readStart tail 2 = .error .outOfRange ∧ ¬ Delivered .stream tail 2 := by
  refine ⟨rfl, ?_, rfl, ?_⟩ <;>
    rw [Delivered] <;> decide

end UvMbt.ReadView
