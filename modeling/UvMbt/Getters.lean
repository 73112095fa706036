/-
The getters that guess the size of a buffer and ask again with the size that
libuv wants.  The value can change between the two calls.
-/
import Mathlib.Algebra.Group.Int.Defs
import Mathlib.Algebra.Group.Nat.Defs
import UvMbt.ArrayHeader
import UvMbt.Errno
import UvMbt.GuardedRun

set_option autoImplicit false

namespace UvMbt.Getters

open ArrayHeader
open GuardedRun (bind_eq_ok)

inductive Fault where
  | negativeLength
  | outOfBounds
  | aborted
  | unlinked
  deriving Repr, DecidableEq

section Libuv

variable (uvValue : Errno → Int)

/-- An error of libuv other than that the buffer is too small. -/
structure Failure where
  status : Int
  negative : status < 0
  other : status ≠ uvValue .ENOBUFS

/-- What libuv finds when it is called. -/
abbrev Moment := Except (Failure uvValue) (List UInt8)

variable {uvValue}

/-- A string and its NUL are written to the front of the buffer. -/
def store (buffer value : List UInt8) : Except Fault (List UInt8) :=
  if value.length < buffer.length then
    .ok (value ++ 0 :: buffer.drop (value.length + 1))
  else .error .outOfBounds

/-- The functions of libuv: the needed size counts the NUL, the length that
is stored with a value does not. -/
def uvGet (moment : Moment uvValue) (size : Nat) (buffer : List UInt8) :
    Except Fault (Int × Nat × List UInt8) :=
  match moment with
  | .error failure => .ok (failure.status, size, buffer)
  | .ok value =>
      if value.length < size then do
        let buffer ← store buffer value
        return (0, value.length, buffer)
      else .ok (uvValue .ENOBUFS, value.length + 1, buffer)

/-- `uv_exepath` of Linux writes as much as there is room for. -/
def uvExepath (moment : Moment uvValue) (size : Nat) (buffer : List UInt8) :
    Except Fault (Int × Nat × List UInt8) :=
  match moment with
  | .error failure => .ok (failure.status, size, buffer)
  | .ok value => do
      let value := value.take (size - 1)
      let buffer ← store buffer value
      return (0, value.length, buffer)

end Libuv

section Binding

/-- The value of an `Int` or an `int32_t`. -/
def wrap (number : Int) : Int := number.bmod (2 ^ 32)

/-- `size_t` from an `int32_t`. -/
def toSize (size : Int) : Nat := (size % 2 ^ 64).toNat

/-- `Bytes::make` and `FixedArray::make`: what is allocated. -/
def makeBytes (size : Int) : Except Fault (List UInt8) :=
  if size < 0 then .error .negativeLength
  else .ok (List.replicate size.toNat 0)

/-- The C stubs: the size goes in and out as an `int32_t`. -/
def stub (uv : Nat → List UInt8 → Except Fault (Int × Nat × List UInt8))
    (size : Int) (buffer : List UInt8) :
    Except Fault (Int × Int × List UInt8) := do
  let (status, size, buffer) ← uv (toSize size) buffer
  return (status, wrap size, buffer)

/-- `Bytes::shrink`. -/
def shrink (buffer : List UInt8) (length : Int) :
    Except Fault (List UInt8) :=
  if 0 ≤ length ∧ length ≤ headerLength buffer.length then
    .ok (buffer.take (length.toNat % maxLength))
  else .error .aborted

/-- `[..buffer[:length]]`. -/
def slice (buffer : List UInt8) (length : Int) : Except Fault (List UInt8) :=
  if 0 ≤ length ∧ length ≤ headerLength buffer.length then
    .ok (buffer.take length.toNat)
  else .error .aborted

/-- The copy that `IfIndex` makes; `unsafe_blit` does not check. -/
def copyOut (buffer : List UInt8) (length : Int) :
    Except Fault (List UInt8) := do
  let _ ← makeBytes length
  if length.toNat ≤ buffer.length then
    return visible (buffer.take length.toNat)
  else .error .outOfBounds

/-- What a getter hands its caller. -/
abbrev Outcome := Except Errno (Option (List UInt8))

/-- The lengths of the buffers that were made, and the outcome. -/
abbrev Answer := List Int × Outcome

variable (uvValue : Errno → Int)

def conclude (finish : List UInt8 → Int → Except Fault (List UInt8))
    (made : List Int) (status length : Int) (buffer : List UInt8) :
    Except Fault Answer :=
  if status < 0 then .ok (made, .error (Errno.ofInt uvValue status))
  else do
    let bytes ← finish buffer length
    return (made, .ok (some bytes))

/-- What follows the first call. -/
def retry (uv : Nat → List UInt8 → Except Fault (Int × Nat × List UInt8))
    (guess : Int) (grow : Int → Int) (tells : Int → List UInt8 → Int)
    (finish : List UInt8 → Int → Except Fault (List UInt8))
    (status length : Int) (buffer : List UInt8) : Except Fault Answer :=
  if status = uvValue .ENOBUFS then do
    let buffer ← makeBytes (grow length)
    let (status, after, buffer) ← stub uv (tells length buffer) buffer
    conclude uvValue finish [guess, grow length] status after buffer
  else conclude uvValue finish [guess] status length buffer

/-- The size that the first call stored is what the second one is told. -/
def stored (length : Int) (_ : List UInt8) : Int := length

/-- The shape of most getters. -/
def growAndRetry
    (uv : Moment uvValue → Nat → List UInt8 →
      Except Fault (Int × Nat × List UInt8))
    (guess : Int) (grow : Int → Int) (tells : Int → List UInt8 → Int)
    (finish : List UInt8 → Int → Except Fault (List UInt8))
    (first second : Moment uvValue) : Except Fault Answer := do
  let buffer ← makeBytes guess
  let (status, length, buffer) ← stub (uv first) guess buffer
  retry uvValue (uv second) guess grow tells finish status length buffer

/-- `os_tmpdir`, whose second buffer has a byte more than it tells libuv. -/
def osTmpdir := growAndRetry uvValue uvGet 64 (fun length => wrap (length + 1))
  stored shrink

/-- `os_homedir`. -/
def osHomedir := growAndRetry uvValue uvGet 256 (fun length => length) stored
  shrink

/-- `os_gethostname`, which tells libuv the length of the new buffer. -/
def osGethostname := growAndRetry uvValue uvGet 257 (fun length => length)
  (fun _ buffer => headerLength buffer.length) shrink

/-- `exepath`. -/
def exepath := growAndRetry uvValue uvExepath 256 (fun length => length) stored
  shrink

/-- `cwd`. -/
def cwd := growAndRetry uvValue uvGet 64 (fun length => length) stored slice

/-- `FsPoll::get_path`. -/
def fsPollGetPath := growAndRetry uvValue uvGet 64 (fun length => length)
  stored shrink

/-- `FsEvent::get_path` declares a stub, `moonbit_uv_fs_event_getpath`, that no
C file defines: a program that calls it is not linked. -/
def fsEventGetPath := growAndRetry uvValue (fun _ _ _ => .error .unlinked) 64
  (fun length => length) stored shrink

/-- `IfIndex::to_name`; the guess is `UV_IF_NAMESIZE`. -/
def ifIndexToName := growAndRetry uvValue uvGet 17 (fun length => length)
  stored copyOut

/-- `os_getenv`, which has a result for a variable that is not set. -/
def osGetenv (first second : Moment uvValue) : Except Fault Answer := do
  let buffer ← makeBytes 256
  let (status, length, buffer) ← stub (uvGet first) 256 buffer
  if status = uvValue .ENOENT then .ok ([256], .ok none)
  else
    retry uvValue (uvGet second) 256 (fun length => length) stored shrink status
      length buffer

/-- The stub of `to_iid`: the size is the return value, and is lost with an
error. -/
def ifIndextoiid (moment : Moment uvValue) (iid : List UInt8) :
    Except Fault (Int × List UInt8) := do
  let (status, size, iid) ← uvGet moment iid.length iid
  if status < 0 then return (status, iid) else return (wrap size, iid)

/-- `IfIndex::to_iid`, which makes the second buffer as long as the status. -/
def ifIndexToIid (first second : Moment uvValue) : Except Fault Answer := do
  let iid ← makeBytes 16
  let (status, iid) ← ifIndextoiid uvValue first iid
  if status = uvValue .ENOBUFS then
    let iid ← makeBytes status
    let (status', iid) ← ifIndextoiid uvValue second iid
    conclude uvValue copyOut [16, status] status' status' iid
  else conclude uvValue copyOut [16] status status iid

end Binding

inductive Getter where
  | osTmpdir | osHomedir | osGethostname | exepath | osGetenv | cwd
  | fsEventGetPath | fsPollGetPath | ifIndexToName | ifIndexToIid
  deriving Repr, DecidableEq

namespace Getter

def run (uvValue : Errno → Int) : Getter → Moment uvValue → Moment uvValue →
    Except Fault Answer
  | .osTmpdir => Getters.osTmpdir uvValue
  | .osHomedir => Getters.osHomedir uvValue
  | .osGethostname => Getters.osGethostname uvValue
  | .exepath => Getters.exepath uvValue
  | .osGetenv => Getters.osGetenv uvValue
  | .cwd => Getters.cwd uvValue
  | .fsEventGetPath => Getters.fsEventGetPath uvValue
  | .fsPollGetPath => Getters.fsPollGetPath uvValue
  | .ifIndexToName => Getters.ifIndexToName uvValue
  | .ifIndexToIid => Getters.ifIndexToIid uvValue

/-- The length of the first buffer. -/
def guess : Getter → Nat
  | .osTmpdir | .cwd | .fsEventGetPath | .fsPollGetPath => 64
  | .osHomedir | .exepath | .osGetenv => 256
  | .osGethostname => 257
  | .ifIndexToName => 17
  | .ifIndexToIid => 16

/-- What the second buffer has beyond the needed size. -/
def extra : Getter → Nat
  | .osTmpdir => 1
  | _ => 0

/-- The size that the second call is told, for the needed size. -/
def told : Getter → Nat → Nat
  | .osGethostname, size => headerLength size
  | _, size => size

/-- The longest value that the last step keeps of a buffer: what the header of
the buffer counts, or what the header of a copy can count. -/
def room : Getter → Nat → Nat
  | .ifIndexToName, _ | .ifIndexToIid, _ => maxLength - 1
  | _, size => headerLength size

end Getter

section Statement

variable {uvValue : Errno → Int}

/-- Either the first call gave the value, or the second one did, into a buffer
of the size that the first one asked for; or there is an error. -/
inductive Sound (guess extra : Nat) (first second : Moment uvValue) :
    Answer → Prop
  | once (value : List UInt8) (hfirst : first = .ok value) :
      Sound guess extra first second ([(guess : Int)], .ok (some value))
  | raised (error : Errno) :
      Sound guess extra first second ([(guess : Int)], .error error)
  | again (old value : List UInt8) (hfirst : first = .ok old)
      (hsecond : second = .ok value) :
      Sound guess extra first second
        ([(guess : Int), ((old.length + 1 + extra : Nat) : Int)],
          .ok (some value))
  | raisedAgain (old : List UInt8) (hfirst : first = .ok old) (error : Errno) :
      Sound guess extra first second
        ([(guess : Int), ((old.length + 1 + extra : Nat) : Int)], .error error)

/-- A variable that is not set. -/
def Getter.Absent (getter : Getter) (first : Moment uvValue) : Prop :=
  getter = .osGetenv ∧
    ∃ failure, first = .error failure ∧ failure.status = uvValue .ENOENT

/-- The getter returns the value, whole and alone, or raises. -/
def Getter.Exact (uvValue : Errno → Int) (getter : Getter)
    (first second : Moment uvValue) : Prop :=
  ∃ answer, getter.run uvValue first second = .ok answer ∧
    (Sound getter.guess getter.extra first second answer ∨
      getter.Absent first ∧ answer = ([(getter.guess : Int)], .ok none))

/-- A first value that the guess has no room for must be short enough for the
`Int` of its size, and one that libuv writes instead for the second buffer. -/
def Regrows (extra : Nat) (told room : Nat → Nat) (old : List UInt8)
    (second : Moment uvValue) : Prop :=
  old.length + 1 + extra < 2 ^ 31 ∧
    ∀ value, second = .ok value → value.length < told (old.length + 1) →
      value.length ≤ room (old.length + 1 + extra)

/-- The values that the getter is right about. -/
def Getter.Fits (getter : Getter) (first second : Moment uvValue) : Prop :=
  match getter with
  | .fsEventGetPath => False
  | .exepath | .ifIndexToIid =>
      ∀ value, first = .ok value → value.length < getter.guess
  | _ =>
      ∀ value, first = .ok value → value.length < getter.guess ∨
        Regrows getter.extra getter.told getter.room value second

/-- The codes of libuv are negative and differ. -/
structure Codes (uvValue : Errno → Int) : Prop where
  enobufs_neg : uvValue .ENOBUFS < 0
  enoent_neg : uvValue .ENOENT < 0
  enoent_ne : uvValue .ENOENT ≠ uvValue .ENOBUFS

end Statement

section Calls

variable {uvValue : Errno → Int} {value buffer : List UInt8} {size : Nat}

theorem wrap_eq {number : Int} (hlow : -2 ^ 31 ≤ number)
    (hhigh : number < 2 ^ 31) : wrap number = number :=
  Int.bmod_eq_of_le (by omega) (by omega)

theorem wrap_lt (number : Int) : wrap number < 2 ^ 31 := by
  have hlt := @Int.bmod_lt number (2 ^ 32) (by decide)
  rw [wrap]
  omega

theorem toSize_natCast (hsize : size < 2 ^ 31) : toSize size = size := by
  rw [toSize]
  omega

theorem makeBytes_natCast (size : Nat) :
    makeBytes (size : Int) = .ok (List.replicate size 0) := by
  rw [makeBytes, if_neg (by omega), Int.toNat_natCast]

theorem stub_value (hfits : value.length < size) (hsize : size < 2 ^ 31)
    (hbuffer : size ≤ buffer.length) :
    stub (uvGet (.ok value : Moment uvValue)) size buffer =
      .ok (0, value.length, value ++ 0 :: buffer.drop (value.length + 1)) := by
  have hwrap : wrap (value.length : Int) = value.length :=
    wrap_eq (by omega) (by omega)
  have hstore : store buffer value =
      .ok (value ++ 0 :: buffer.drop (value.length + 1)) :=
    if_pos (by omega)
  rw [stub, toSize_natCast hsize, uvGet, if_pos hfits, hstore]
  simp only [bind, Except.bind, pure, Except.pure, hwrap]

theorem stub_small (hsmall : size ≤ value.length) (hsize : size < 2 ^ 31) :
    stub (uvGet (.ok value : Moment uvValue)) size buffer =
      .ok (uvValue .ENOBUFS, wrap (value.length + 1), buffer) := by
  rw [stub, toSize_natCast hsize, uvGet, if_neg (by omega)]
  rfl

theorem stub_failure (failure : Failure uvValue) (number : Int) :
    stub (uvGet (.error failure)) number buffer =
      .ok (failure.status, wrap (toSize number), buffer) := rfl

end Calls

section Finish

/-- What the second call is told of a needed size. -/
structure Tells (tells : Int → List UInt8 → Int) (extra : Nat)
    (told : Nat → Nat) : Prop where
  told_le : ∀ size, told size ≤ size
  tells_eq : ∀ size : Nat,
    tells size (List.replicate (size + extra) 0) = (told size : Nat)

theorem stored_tells (extra : Nat) : Tells stored extra fun size => size where
  told_le _ := Nat.le_refl _
  tells_eq _ := rfl

theorem header_tells :
    Tells (fun _ buffer => headerLength buffer.length) 0 headerLength where
  told_le := headerLength_le
  tells_eq size := by rw [List.length_replicate, Nat.add_zero]

variable {finish : List UInt8 → Int → Except Fault (List UInt8)}
  {room : Nat → Nat}

/-- The last step of a getter keeps the value just if there is room. -/
def Keeps (finish : List UInt8 → Int → Except Fault (List UInt8))
    (room : Nat → Nat) : Prop :=
  ∀ value rest, finish (value ++ 0 :: rest) value.length = .ok value ↔
    value.length ≤ room (value ++ 0 :: rest).length

theorem shrink_keeps : Keeps shrink headerLength := by
  intro value rest
  have hle := headerLength_le (value ++ 0 :: rest).length
  have hlt := headerLength_lt (value ++ 0 :: rest).length
  by_cases hroom : value.length ≤ headerLength (value ++ 0 :: rest).length
  · have hmod : value.length % maxLength = value.length :=
      Nat.mod_eq_of_lt (by omega)
    rw [shrink, if_pos (by omega), Int.toNat_natCast, hmod, List.take_left]
    exact iff_of_true rfl hroom
  · rw [shrink, if_neg (by omega)]
    exact iff_of_false (fun h => by cases h) hroom

theorem slice_keeps : Keeps slice headerLength := by
  intro value rest
  by_cases hroom : value.length ≤ headerLength (value ++ 0 :: rest).length
  · rw [slice, if_pos (by omega), Int.toNat_natCast, List.take_left]
    exact iff_of_true rfl hroom
  · rw [slice, if_neg (by omega)]
    exact iff_of_false (fun h => by cases h) hroom

theorem copyOut_keeps : Keeps copyOut fun _ => maxLength - 1 := by
  intro value rest
  have hcopy : copyOut (value ++ 0 :: rest) value.length =
      .ok (visible value) := by
    rw [copyOut, makeBytes_natCast]
    simp [bind, Except.bind, pure, Except.pure]
  have hlast : value.length ≤ maxLength - 1 ↔ value.length < maxLength := by
    unfold maxLength
    omega
  rw [hcopy, Except.ok.injEq, visible_eq_iff, hlast]

/-- A buffer that was filled again. -/
theorem length_filled {value : List UInt8} {size : Nat}
    (hfits : value.length < size) :
    (value ++ 0 :: (List.replicate size 0).drop (value.length + 1)).length =
      size := by
  rw [List.length_append, List.length_cons, List.length_drop,
    List.length_replicate]
  omega

end Finish

section Moments

variable {uvValue : Errno → Int} {holds : List UInt8 → Prop}

/-- Nothing is asked of a call that fails. -/
theorem forall_failure (failure : Failure uvValue) :
    ∀ value, (.error failure : Moment uvValue) = .ok value → holds value := by
  intro value hvalue
  cases hvalue

theorem forall_value {value : List UInt8} :
    (∀ found, (.ok value : Moment uvValue) = .ok found → holds found) ↔
      holds value := by
  constructor
  · intro hall
    exact hall value rfl
  · intro hvalue found hfound
    cases hfound
    exact hvalue

end Moments

section Shape

variable {uvValue : Errno → Int} {guess extra : Nat} {grow : Int → Int}
  {tells : Int → List UInt8 → Int} {told : Nat → Nat}
  {finish : List UInt8 → Int → Except Fault (List UInt8)}
  {room : Nat → Nat}
  {uv : Moment uvValue → Nat → List UInt8 →
    Except Fault (Int × Nat × List UInt8)}
  {first second : Moment uvValue}

theorem conclude_failure (made : List Int) (failure : Failure uvValue)
    (length : Int) (buffer : List UInt8) :
    conclude uvValue finish made failure.status length buffer =
      .ok (made, .error (Errno.ofInt uvValue failure.status)) :=
  if_pos failure.negative

theorem conclude_value (made : List Int) {length : Int}
    {buffer value : List UInt8} (hfinish : finish buffer length = .ok value) :
    conclude uvValue finish made 0 length buffer =
      .ok (made, .ok (some value)) := by
  rw [conclude, if_neg (Int.lt_irrefl 0), hfinish]
  rfl

/-- After a success the answer is what the last step gives. -/
theorem finish_of_conclude {made : List Int} {length : Int}
    {buffer : List UInt8} {answer : Answer}
    (hconclude : conclude uvValue finish made 0 length buffer = .ok answer) :
    ∃ bytes, finish buffer length = .ok bytes ∧
      answer = (made, .ok (some bytes)) := by
  rw [conclude, if_neg (Int.lt_irrefl 0)] at hconclude
  rcases bind_eq_ok hconclude with ⟨bytes, hfinish, hanswer⟩
  cases hanswer
  exact ⟨bytes, hfinish, rfl⟩

/-- The first call gives the value. -/
theorem conclude_once {value rest : List UInt8} (hcodes : Codes uvValue)
    (hstub : stub (uv first) guess (List.replicate guess 0) =
      .ok (0, value.length, value ++ 0 :: rest))
    (hfinish : finish (value ++ 0 :: rest) value.length = .ok value) :
    growAndRetry uvValue uv guess grow tells finish first second =
      .ok ([(guess : Int)], .ok (some value)) := by
  have hcode : (0 : Int) ≠ uvValue .ENOBUFS := Int.ne_of_gt hcodes.enobufs_neg
  rw [growAndRetry, makeBytes_natCast]
  simp only [bind, Except.bind, hstub]
  simp only [retry, if_neg hcode]
  exact conclude_value _ hfinish

theorem grow_once {value : List UInt8} (hguess : guess < 2 ^ 31)
    (hcodes : Codes uvValue) (hfits : value.length < guess)
    (hkeeps : Keeps finish room) (hroom : value.length ≤ room guess) :
    growAndRetry uvValue uvGet guess grow tells finish (.ok value) second =
      .ok ([(guess : Int)], .ok (some value)) := by
  apply conclude_once hcodes (stub_value hfits hguess (by simp))
  rw [hkeeps, length_filled hfits]
  exact hroom

/-- The first call gives an error. -/
theorem grow_failure {failure : Failure uvValue}
    (hcall : ∀ size buffer,
      uv (.error failure) size buffer = .ok (failure.status, size, buffer)) :
    growAndRetry uvValue uv guess grow tells finish (.error failure) second =
      .ok ([(guess : Int)],
        .error (Errno.ofInt uvValue failure.status)) := by
  rw [growAndRetry, makeBytes_natCast]
  simp only [bind, Except.bind, stub, hcall, retry, if_neg failure.other, pure,
    Except.pure]
  exact conclude_failure _ failure _ _

/-- The first call asks for a larger buffer. -/
theorem grow_again {value : List UInt8} (hguess : guess < 2 ^ 31)
    (hsmall : guess ≤ value.length) :
    growAndRetry uvValue uvGet guess grow tells finish (.ok value) second =
      (makeBytes (grow (wrap (value.length + 1)))).bind fun buffer =>
        (stub (uvGet second) (tells (wrap (value.length + 1)) buffer)
          buffer).bind
          fun (status, after, buffer) =>
            conclude uvValue finish
              [(guess : Int), grow (wrap (value.length + 1))] status after
              buffer := by
  rw [growAndRetry, makeBytes_natCast]
  simp only [bind, Except.bind]
  rw [stub_small hsmall hguess]
  simp only [retry, if_true]
  rfl

/-- The needed size fits an `Int`. -/
theorem grow_needed {old : List UInt8} (hguess : guess < 2 ^ 31)
    (htells : Tells tells extra told)
    (hgrow : ∀ number, grow (wrap number) = wrap (wrap number + extra))
    (hsmall : guess ≤ old.length) (hold : old.length + 1 + extra < 2 ^ 31) :
    growAndRetry uvValue uvGet guess grow tells finish (.ok old) second =
      (stub (uvGet second) (told (old.length + 1) : Nat)
        (List.replicate (old.length + 1 + extra) 0)).bind
          fun (status, after, buffer) =>
            conclude uvValue finish
              [(guess : Int), ((old.length + 1 + extra : Nat) : Int)] status
              after buffer := by
  have hlength : wrap ((old.length : Int) + 1) = (old.length + 1 : Nat) :=
    wrap_eq (by omega) (by omega)
  have hsize : grow (wrap ((old.length : Int) + 1)) =
      (old.length + 1 + extra : Nat) := by
    rw [hgrow, hlength, wrap_eq (by omega) (by omega)]
    rfl
  rw [grow_again hguess hsmall, hsize, hlength, makeBytes_natCast]
  simp only [Except.bind, htells.tells_eq]

/-- The second call gives a value. -/
theorem grow_filled {old value : List UInt8} (hguess : guess < 2 ^ 31)
    (htells : Tells tells extra told)
    (hgrow : ∀ number, grow (wrap number) = wrap (wrap number + extra))
    (hsmall : guess ≤ old.length) (hold : old.length + 1 + extra < 2 ^ 31)
    (hfits : value.length < told (old.length + 1)) :
    growAndRetry uvValue uvGet guess grow tells finish (.ok old) (.ok value) =
      conclude uvValue finish
        [(guess : Int), ((old.length + 1 + extra : Nat) : Int)] 0 value.length
        (value ++ 0 ::
          (List.replicate (old.length + 1 + extra) 0).drop
            (value.length + 1)) := by
  have htold := htells.told_le (old.length + 1)
  have hroom : told (old.length + 1) ≤
      (List.replicate (old.length + 1 + extra) (0 : UInt8)).length := by
    rw [List.length_replicate]
    omega
  rw [grow_needed hguess htells hgrow hsmall hold,
    stub_value hfits (by omega) hroom]
  rfl

/-- A longer value, or an error, is an error. -/
theorem again_raises {old : List UInt8} (hguess : guess < 2 ^ 31)
    (hcodes : Codes uvValue) (htells : Tells tells extra told)
    (hgrow : ∀ number, grow (wrap number) = wrap (wrap number + extra))
    (hsmall : guess ≤ old.length) (hold : old.length + 1 + extra < 2 ^ 31)
    (hlong : ∀ value, second = .ok value →
      told (old.length + 1) ≤ value.length) :
    ∃ error, growAndRetry uvValue uvGet guess grow tells finish (.ok old) second =
      .ok ([(guess : Int), ((old.length + 1 + extra : Nat) : Int)],
        .error error) := by
  have htold := htells.told_le (old.length + 1)
  rw [grow_needed hguess htells hgrow hsmall hold]
  cases second with
  | error failure =>
      rw [stub_failure]
      exact ⟨_, conclude_failure _ failure _ _⟩
  | ok value =>
      rw [stub_small (hlong value rfl) (by omega)]
      exact ⟨_, if_pos hcodes.enobufs_neg⟩

/-- A needed size that does not fit is not the one that is made. -/
theorem grow_overflow {old : List UInt8} (hguess : guess < 2 ^ 31)
    (hgrow : ∀ number, grow (wrap number) = wrap (wrap number + extra))
    (hsmall : guess ≤ old.length) {answer : Answer}
    (hrun : growAndRetry uvValue uvGet guess grow tells finish (.ok old) second =
      .ok answer) :
    ∃ size : Int, size < 2 ^ 31 ∧ answer.1 = [(guess : Int), size] := by
  rw [grow_again hguess hsmall] at hrun
  rcases bind_eq_ok hrun with ⟨buffer, -, hrest⟩
  rcases bind_eq_ok hrest with ⟨⟨status, after, buffer'⟩, -, hconclude⟩
  refine ⟨grow (wrap (old.length + 1)), ?_, ?_⟩
  · rw [hgrow]
    exact wrap_lt _
  · dsimp only at hconclude
    rw [conclude] at hconclude
    split at hconclude
    · cases hconclude
      rfl
    · rcases bind_eq_ok hconclude with ⟨bytes, -, hanswer⟩
      cases hanswer
      rfl

/-- The answer of `again` and `raisedAgain` has the needed size. -/
theorem Sound.fits {old : List UInt8} {answer : Answer} {size : Int}
    (hsound : Sound guess extra (.ok old) second answer)
    (hmade : answer.1 = [(guess : Int), size]) :
    size = (old.length + 1 + extra : Nat) := by
  cases hsound with
  | once value hfirst => cases hmade
  | raised error => cases hmade
  | again old' value hfirst hsecond =>
      cases hfirst
      cases hmade
      rfl
  | raisedAgain old' hfirst error =>
      cases hfirst
      cases hmade
      rfl

/-- The bytes of a sound answer are those of one of the two calls. -/
theorem Sound.bytes_once {value bytes : List UInt8}
    (hsound : Sound guess extra (.ok value : Moment uvValue) second
      ([(guess : Int)], .ok (some bytes))) : bytes = value := by
  cases hsound with
  | once value' hfirst =>
      cases hfirst
      rfl

theorem Sound.bytes_again {old value bytes : List UInt8} {size : Int}
    (hsound : Sound guess extra (.ok old : Moment uvValue) (.ok value)
      ([(guess : Int), size], .ok (some bytes))) : bytes = value := by
  cases hsound with
  | again old' value' hfirst hsecond =>
      cases hsecond
      rfl

/-- A getter of this shape when the guess has no room. -/
theorem regrow_sound_iff {old : List UInt8} (hguess : guess < 2 ^ 31)
    (hcodes : Codes uvValue) (htells : Tells tells extra told)
    (hgrow : ∀ number, grow (wrap number) = wrap (wrap number + extra))
    (hkeeps : Keeps finish room) (hsmall : guess ≤ old.length) :
    (∃ answer,
      growAndRetry uvValue uvGet guess grow tells finish (.ok old) second =
          .ok answer ∧
        Sound guess extra (.ok old) second answer) ↔
      Regrows extra told room old second := by
  constructor
  · rintro ⟨answer, hrun, hsound⟩
    have hold : old.length + 1 + extra < 2 ^ 31 := by
      obtain ⟨size, hsize, hmade⟩ := grow_overflow hguess hgrow hsmall hrun
      have hneeded := hsound.fits hmade
      omega
    refine ⟨hold, fun value hsecond hfits => ?_⟩
    subst hsecond
    have htold := htells.told_le (old.length + 1)
    rw [grow_filled hguess htells hgrow hsmall hold hfits] at hrun
    obtain ⟨bytes, hfinish, rfl⟩ := finish_of_conclude hrun
    rw [hsound.bytes_again, hkeeps, length_filled (by omega)] at hfinish
    exact hfinish
  · rintro ⟨hold, hroom⟩
    have htold := htells.told_le (old.length + 1)
    by_cases hfits : ∃ value, second = .ok value ∧
        value.length < told (old.length + 1)
    · obtain ⟨value, rfl, hfits⟩ := hfits
      have hfinish := (hkeeps value
        ((List.replicate (old.length + 1 + extra) 0).drop
          (value.length + 1))).2 (by
            rw [length_filled (by omega)]
            exact hroom value rfl hfits)
      refine ⟨_, ?_, .again old value rfl rfl⟩
      rw [grow_filled hguess htells hgrow hsmall hold hfits]
      exact conclude_value _ hfinish
    · have hlong : ∀ value, second = .ok value →
          told (old.length + 1) ≤ value.length := by
        intro value hsecond
        apply Nat.le_of_not_lt
        intro hlt
        exact hfits ⟨value, hsecond, hlt⟩
      obtain ⟨error, hraises⟩ :=
        @again_raises uvValue guess extra grow tells told finish second old
          hguess hcodes htells hgrow hsmall hold hlong
      exact ⟨_, hraises, .raisedAgain old rfl error⟩

theorem grow_sound_iff (hguess : guess < 2 ^ 31) (hcodes : Codes uvValue)
    (htells : Tells tells extra told)
    (hgrow : ∀ number, grow (wrap number) = wrap (wrap number + extra))
    (hkeeps : Keeps finish room) (hroom : guess ≤ room guess + 1) :
    (∃ answer,
      growAndRetry uvValue uvGet guess grow tells finish first second = .ok answer ∧
        Sound guess extra first second answer) ↔
      ∀ value, first = .ok value →
        value.length < guess ∨ Regrows extra told room value second := by
  rcases first with failure | value
  · exact iff_of_true ⟨_, grow_failure fun _ _ => rfl, .raised _⟩
      (forall_failure failure)
  · rw [forall_value]
    by_cases hfits : value.length < guess
    · have honce :
          growAndRetry uvValue uvGet guess grow tells finish (.ok value) second =
            .ok ([(guess : Int)], .ok (some value)) :=
        grow_once hguess hcodes hfits hkeeps (by omega)
      exact iff_of_true ⟨_, honce, .once value rfl⟩ (.inl hfits)
    · rw [regrow_sound_iff hguess hcodes htells hgrow hkeeps
        (Nat.le_of_not_lt hfits)]
      constructor
      · exact .inr
      · intro hregrows
        exact hregrows.resolve_left hfits

end Shape

section Each

variable {uvValue : Errno → Int} {first second : Moment uvValue}

/-- The size that goes back is the size of the second buffer. -/
theorem wrap_zero (number : Int) :
    wrap number = wrap (wrap number + (0 : Nat)) := by
  rw [wrap, wrap, Int.natCast_zero, Int.add_zero, Int.bmod_bmod]

/-- Only `os_getenv` has an answer without a value. -/
theorem exact_iff_sound {getter : Getter} (hgetter : getter ≠ .osGetenv) :
    getter.Exact uvValue first second ↔
      ∃ answer, getter.run uvValue first second = .ok answer ∧
        Sound getter.guess getter.extra first second answer := by
  constructor
  · rintro ⟨answer, hrun, hsound | ⟨⟨habsent, -⟩, -⟩⟩
    · exact ⟨answer, hrun, hsound⟩
    · exact absurd habsent hgetter
  · rintro ⟨answer, hrun, hsound⟩
    exact ⟨answer, hrun, .inl hsound⟩

/-- With a value, the status is success or the code for a small buffer. -/
theorem stub_status {size : Nat} {value buffer : List UInt8}
    (hsize : size < 2 ^ 31) (hbuffer : size ≤ buffer.length) :
    ∃ status length after,
      stub (uvGet (.ok value : Moment uvValue)) size buffer =
          .ok (status, length, after) ∧
        (status = 0 ∨ status = uvValue .ENOBUFS) := by
  by_cases hfits : value.length < size
  · exact ⟨_, _, _, stub_value hfits hsize hbuffer, .inl rfl⟩
  · exact ⟨_, _, _, stub_small (Nat.le_of_not_lt hfits) hsize, .inr rfl⟩

/-- `os_getenv` of a variable that is set. -/
theorem osGetenv_present (hcodes : Codes uvValue)
    (hpresent : ∀ failure, first = .error failure →
      failure.status ≠ uvValue .ENOENT) :
    osGetenv uvValue first second =
      growAndRetry uvValue uvGet (256 : Nat) (fun length => length) stored
        shrink first second := by
  have hbuffer : makeBytes 256 = .ok (List.replicate 256 0) :=
    makeBytes_natCast 256
  have hguess : ((256 : Nat) : Int) = 256 := rfl
  rw [osGetenv, growAndRetry, hguess, hbuffer]
  simp only [bind, Except.bind]
  rcases first with failure | value
  · simp only [stub_failure, if_neg (hpresent failure rfl)]
  · have hroom : 256 ≤ (List.replicate 256 (0 : UInt8)).length :=
      Nat.le_of_eq List.length_replicate.symm
    obtain ⟨status, length, after, hstub, hstatus⟩ :=
      @stub_status uvValue 256 value _ (by omega) hroom
    have hset : status ≠ uvValue .ENOENT := by
      rcases hstatus with rfl | rfl
      · exact Int.ne_of_gt hcodes.enoent_neg
      · exact hcodes.enoent_ne.symm
    rw [hguess] at hstub
    rw [hstub]
    simp only [if_neg hset]

/-- `os_getenv` of a variable that is not set. -/
theorem osGetenv_absent {failure : Failure uvValue}
    (habsent : failure.status = uvValue .ENOENT) :
    osGetenv uvValue (.error failure) second = .ok ([256], .ok none) := by
  have hbuffer : makeBytes 256 = .ok (List.replicate 256 0) :=
    makeBytes_natCast 256
  rw [osGetenv, hbuffer]
  simp only [bind, Except.bind, stub_failure, if_pos habsent]

theorem osGetenv_exact_iff (hcodes : Codes uvValue) :
    Getter.osGetenv.Exact uvValue first second ↔
      Getter.osGetenv.Fits first second := by
  by_cases habsent :
    ∃ failure, first = .error failure ∧ failure.status = uvValue .ENOENT
  · obtain ⟨failure, rfl, hstatus⟩ := habsent
    have habsent : Getter.osGetenv.Absent (.error failure) :=
      ⟨rfl, failure, rfl, hstatus⟩
    exact iff_of_true ⟨_, osGetenv_absent hstatus, .inr ⟨habsent, rfl⟩⟩
      (forall_failure failure)
  · have hrun := @osGetenv_present uvValue first second hcodes
      fun failure hfirst hstatus => habsent ⟨failure, hfirst, hstatus⟩
    have hshape := @grow_sound_iff uvValue 256 0 (fun length => length) stored
      (fun size => size) shrink headerLength first second (by decide) hcodes
      (stored_tells 0) wrap_zero shrink_keeps (by decide)
    rw [← hrun] at hshape
    constructor
    · rintro ⟨answer, hanswer, hsound | ⟨⟨-, hfailure⟩, -⟩⟩
      · exact hshape.1 ⟨answer, hanswer, hsound⟩
      · exact absurd hfailure habsent
    · intro hfits
      obtain ⟨answer, hanswer, hsound⟩ := hshape.2 hfits
      exact ⟨answer, hanswer, .inl hsound⟩

/-- `uv_exepath` never asks for more. -/
theorem uvExepath_eq {size : Nat} (hsize : 0 < size) (value buffer : List UInt8) :
    uvExepath (.ok value : Moment uvValue) size buffer =
      uvGet (.ok (value.take (size - 1)) : Moment uvValue) size buffer := by
  have hlength : (value.take (size - 1)).length < size := by
    rw [List.length_take]
    omega
  rw [uvGet, if_pos hlength]
  rfl

theorem exepath_value (hcodes : Codes uvValue) (value : List UInt8) :
    exepath uvValue (.ok value) second =
      .ok ([((256 : Nat) : Int)], .ok (some (value.take 255))) := by
  have hlength : (value.take 255).length < 256 := by
    rw [List.length_take]
    omega
  have hroom : 256 ≤ (List.replicate 256 (0 : UInt8)).length :=
    Nat.le_of_eq List.length_replicate.symm
  have hstub := @stub_value uvValue _ _ 256 hlength (by omega) hroom
  have hfinish : shrink (value.take 255 ++
      0 :: (List.replicate 256 0).drop ((value.take 255).length + 1))
        (value.take 255).length = .ok (value.take 255) := by
    have hheader : headerLength 256 = 256 := rfl
    rw [shrink_keeps, length_filled hlength, hheader]
    exact Nat.le_of_lt hlength
  have hcall : stub (uvExepath (.ok value : Moment uvValue)) (256 : Nat)
      (List.replicate 256 0) =
        stub (uvGet (.ok (value.take 255) : Moment uvValue)) (256 : Nat)
          (List.replicate 256 0) := by
    rw [stub, stub, toSize_natCast (by decide), uvExepath_eq (by decide)]
  exact @conclude_once uvValue 256 _ stored shrink uvExepath (.ok value) second _ _
    hcodes (hcall.trans hstub) hfinish

theorem exepath_exact_iff (hcodes : Codes uvValue) :
    Getter.exepath.Exact uvValue first second ↔
      Getter.exepath.Fits first second := by
  rw [exact_iff_sound (by decide)]
  rcases first with failure | value
  · exact iff_of_true ⟨_, grow_failure fun _ _ => rfl, .raised _⟩
      (forall_failure failure)
  · have hrun := @exepath_value uvValue second hcodes value
    rw [Getter.Fits, forall_value]
    constructor
    · rintro ⟨answer, hanswer, hsound⟩
      cases hrun.symm.trans hanswer
      have hwhole := congrArg List.length hsound.bytes_once
      rw [List.length_take] at hwhole
      show value.length < 256
      omega
    · intro hshort
      have hlength : value.length ≤ 255 := Nat.le_of_lt_succ hshort
      rw [List.take_of_length_le hlength] at hrun
      exact ⟨_, hrun, .once value rfl⟩

/-- The first call of `to_iid` when the value fits. -/
theorem ifIndextoiid_value {value iid : List UInt8} {size : Nat}
    (hsize : iid.length = size) (hfits : value.length < size)
    (hsmall : size < 2 ^ 31) :
    ifIndextoiid uvValue (.ok value) iid =
      .ok (value.length, value ++ 0 :: iid.drop (value.length + 1)) := by
  have hstore : store iid value =
      .ok (value ++ 0 :: iid.drop (value.length + 1)) :=
    if_pos (by omega)
  have hwrap : wrap (value.length : Int) = value.length :=
    wrap_eq (by omega) (by omega)
  rw [ifIndextoiid, hsize, uvGet, if_pos hfits, hstore]
  simp only [bind, Except.bind, pure, Except.pure, hwrap, Int.lt_irrefl,
    if_false]

/-- A status below zero is all that an error leaves. -/
theorem ifIndextoiid_small {value iid : List UInt8} {size : Nat}
    (hcodes : Codes uvValue) (hsize : iid.length = size)
    (hsmall : size ≤ value.length) :
    ifIndextoiid uvValue (.ok value) iid = .ok (uvValue .ENOBUFS, iid) := by
  rw [ifIndextoiid, hsize, uvGet, if_neg (by omega)]
  simp only [bind, Except.bind, pure, Except.pure, if_pos hcodes.enobufs_neg]

theorem ifIndextoiid_failure (failure : Failure uvValue) (iid : List UInt8) :
    ifIndextoiid uvValue (.error failure) iid = .ok (failure.status, iid) := by
  rw [ifIndextoiid, uvGet]
  simp only [bind, Except.bind, pure, Except.pure, if_pos failure.negative]

/-- The first call of `to_iid` is the only one unless it wants more. -/
theorem ifIndexToIid_once {status : Int} {after : List UInt8}
    (hcall : ifIndextoiid uvValue first (List.replicate 16 0) =
      .ok (status, after))
    (hcode : status ≠ uvValue .ENOBUFS) :
    ifIndexToIid uvValue first second =
      conclude uvValue copyOut [((16 : Nat) : Int)] status status after := by
  have hbuffer : makeBytes 16 = .ok (List.replicate 16 0) :=
    makeBytes_natCast 16
  rw [ifIndexToIid, hbuffer]
  simp only [bind, Except.bind, hcall, if_neg hcode]
  rfl

theorem ifIndexToIid_value {value : List UInt8} (hcodes : Codes uvValue)
    (hfits : value.length < 16) :
    ifIndexToIid uvValue (.ok value) second =
      .ok ([((16 : Nat) : Int)], .ok (some value)) := by
  have hcode : (value.length : Int) ≠ uvValue .ENOBUFS := by
    have hneg := hcodes.enobufs_neg
    omega
  have hsign : ¬(value.length : Int) < 0 := by omega
  have hcall := @ifIndextoiid_value uvValue value (List.replicate 16 0) 16
    List.length_replicate hfits (by decide)
  have hcopy : copyOut
      (value ++ 0 :: (List.replicate 16 0).drop (value.length + 1))
        value.length = .ok value := by
    rw [copyOut_keeps]
    have hlast : 16 ≤ maxLength - 1 := by decide
    exact Nat.le_trans (Nat.le_of_lt hfits) hlast
  rw [ifIndexToIid_once hcall hcode, conclude, if_neg hsign, hcopy]
  rfl

/-- The second buffer has a negative length. -/
theorem ifIndexToIid_long {value : List UInt8} (hcodes : Codes uvValue)
    (hlong : 16 ≤ value.length) :
    ifIndexToIid uvValue (.ok value) second = .error .negativeLength := by
  have hbuffer : makeBytes 16 = .ok (List.replicate 16 0) :=
    makeBytes_natCast 16
  have hmake : makeBytes (uvValue .ENOBUFS) = .error .negativeLength :=
    if_pos hcodes.enobufs_neg
  rw [ifIndexToIid, hbuffer]
  simp only [bind, Except.bind]
  rw [ifIndextoiid_small hcodes List.length_replicate hlong]
  simp only [if_true, hmake]

theorem ifIndexToIid_failure (failure : Failure uvValue) :
    ifIndexToIid uvValue (.error failure) second =
      .ok ([((16 : Nat) : Int)],
        .error (Errno.ofInt uvValue failure.status)) := by
  have hcall := ifIndextoiid_failure failure (List.replicate 16 0)
  rw [ifIndexToIid_once hcall failure.other]
  exact conclude_failure _ failure _ _

theorem ifIndexToIid_exact_iff (hcodes : Codes uvValue) :
    Getter.ifIndexToIid.Exact uvValue first second ↔
      Getter.ifIndexToIid.Fits first second := by
  rw [exact_iff_sound (by decide)]
  rcases first with failure | value
  · exact iff_of_true ⟨_, ifIndexToIid_failure failure, .raised _⟩
      (forall_failure failure)
  · rw [Getter.Fits, forall_value]
    constructor
    · rintro ⟨answer, hanswer, -⟩
      apply Nat.lt_of_not_le
      intro hlong
      cases (ifIndexToIid_long hcodes hlong).symm.trans hanswer
    · intro hfits
      exact ⟨_, ifIndexToIid_value hcodes hfits, .once value rfl⟩

/-- No program gets a path from `FsEvent::get_path`. -/
theorem fsEventGetPath_unlinked :
    fsEventGetPath uvValue first second = .error .unlinked := rfl

/-- A getter is right about the values that fit it, and about no others. -/
theorem getter_exact_iff (uvValue : Errno → Int) (hcodes : Codes uvValue)
    (getter : Getter) (first second : Moment uvValue) :
    getter.Exact uvValue first second ↔ getter.Fits first second := by
  cases getter with
  | osTmpdir =>
      rw [exact_iff_sound (by decide)]
      exact grow_sound_iff (by decide) hcodes (stored_tells 1) (fun _ => rfl)
        shrink_keeps (by decide)
  | osHomedir =>
      rw [exact_iff_sound (by decide)]
      exact grow_sound_iff (by decide) hcodes (stored_tells 0) wrap_zero
        shrink_keeps (by decide)
  | osGethostname =>
      rw [exact_iff_sound (by decide)]
      exact grow_sound_iff (by decide) hcodes header_tells wrap_zero
        shrink_keeps (by decide)
  | exepath => exact exepath_exact_iff hcodes
  | osGetenv => exact osGetenv_exact_iff hcodes
  | cwd =>
      rw [exact_iff_sound (by decide)]
      exact grow_sound_iff (by decide) hcodes (stored_tells 0) wrap_zero
        slice_keeps (by decide)
  | fsEventGetPath =>
      rw [exact_iff_sound (by decide)]
      constructor
      · rintro ⟨answer, hanswer, -⟩
        cases fsEventGetPath_unlinked.symm.trans hanswer
      · exact False.elim
  | fsPollGetPath =>
      rw [exact_iff_sound (by decide)]
      exact grow_sound_iff (by decide) hcodes (stored_tells 0) wrap_zero
        shrink_keeps (by decide)
  | ifIndexToName =>
      rw [exact_iff_sound (by decide)]
      exact grow_sound_iff (by decide) hcodes (stored_tells 0) wrap_zero
        copyOut_keeps (by decide)
  | ifIndexToIid => exact ifIndexToIid_exact_iff hcodes

/-- The codes of Linux. -/
theorem linux_codes : Codes Errno.linuxValue :=
  ⟨by decide, by decide, by decide⟩

/-- A home directory that is longer than the first buffer, and shorter when it
is asked for again. -/
theorem getter_exact_iff_homedir :
    Codes Errno.linuxValue ∧
      Getter.osHomedir.Exact Errno.linuxValue (.ok (List.replicate 300 47))
        (.ok (List.replicate 290 47)) := by
  refine ⟨linux_codes, ?_⟩
  apply (getter_exact_iff Errno.linuxValue linux_codes .osHomedir _ _).mpr
  intro value hvalue
  cases hvalue
  right
  constructor
  · rw [List.length_replicate]
    decide
  · intro value hvalue _
    cases hvalue
    rw [List.length_replicate, List.length_replicate]
    decide

/-- The path of an executable is cut off, and the identifier of an interface
is asked for again with a buffer of negative length. -/
theorem long_values_lost :
    exepath Errno.linuxValue (.ok (List.replicate 256 47))
        (.ok (List.replicate 256 47)) =
        .ok ([((256 : Nat) : Int)], .ok (some (List.replicate 255 47))) ∧
      ¬Getter.exepath.Exact Errno.linuxValue (.ok (List.replicate 256 47))
        (.ok (List.replicate 256 47)) ∧
      ifIndexToIid Errno.linuxValue (.ok (List.replicate 16 101))
        (.ok (List.replicate 16 101)) = .error .negativeLength := by
  have hexact : ¬Getter.exepath.Exact Errno.linuxValue
      (.ok (List.replicate 256 47)) (.ok (List.replicate 256 47)) := by
    rw [exepath_exact_iff linux_codes]
    intro hfits
    have hlength := hfits (List.replicate 256 47) rfl
    rw [List.length_replicate] at hlength
    exact Nat.lt_irrefl 256 hlength
  have hlong : 16 ≤ (List.replicate 16 (101 : UInt8)).length :=
    Nat.le_of_eq List.length_replicate.symm
  refine ⟨?_, hexact, ifIndexToIid_long linux_codes hlong⟩
  rw [exepath_value linux_codes, List.take_replicate,
    Nat.min_eq_left (by decide)]

end Each

end UvMbt.Getters
