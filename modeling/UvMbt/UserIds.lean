/-
Users and groups on their way to the system: numbers of 64 bits in the binding
that the C stubs take, or cast, to the 32 bits of `uv_uid_t` and `uv_gid_t`.
-/
import Mathlib.Algebra.Group.Nat.Defs
import UvMbt.Errno

set_option autoImplicit false

namespace UvMbt.UserIds

/-- A call of the system about users and groups. -/
inductive SysCall where
  | chown (uid gid : Nat)
  | fchown (uid gid : Nat)
  | lchown (uid gid : Nat)
  | setgid (gid : Nat)
  | setuid (uid : Nat)
  deriving Repr, DecidableEq

section Stubs

/-- The stub that is declared with 32 bits, so that the call cuts the number,
and casts it again. -/
def moonbitUvFsChown (uid gid : UInt32) : SysCall :=
  .chown uid.toNat gid.toNat

def moonbitUvFsChownSync (uid gid : UInt32) : SysCall :=
  .chown uid.toNat gid.toNat

/-- The stubs that take all bits and cast them. -/
def moonbitUvFsFchown (uid gid : UInt64) : SysCall :=
  .fchown uid.toUInt32.toNat gid.toUInt32.toNat

def moonbitUvFsFchownSync (uid gid : UInt64) : SysCall :=
  .fchown uid.toUInt32.toNat gid.toUInt32.toNat

def moonbitUvFsLchown (uid gid : UInt64) : SysCall :=
  .lchown uid.toUInt32.toNat gid.toUInt32.toNat

def moonbitUvFsLchownSync (uid gid : UInt64) : SysCall :=
  .lchown uid.toUInt32.toNat gid.toUInt32.toNat

/-- `uv_process_options_t`, as far as it is about the two. -/
structure ProcessOptions where
  flags : UInt32
  uid : UInt32
  gid : UInt32
  deriving Repr, DecidableEq

def processOptionsSetUid (options : ProcessOptions) (uid : UInt32) :
    ProcessOptions :=
  { options with uid }

def processOptionsSetGid (options : ProcessOptions) (gid : UInt32) :
    ProcessOptions :=
  { options with gid }

def processOptionsSetFlags (options : ProcessOptions) (flags : UInt32) :
    ProcessOptions :=
  { options with flags }

/-- `ProcessFlag`. -/
def setUID : UInt32 := 1
def setGID : UInt32 := 2

/-- `ProcessOptions::new`. -/
def ProcessOptions.new (uid gid : Option UInt64) : ProcessOptions := Id.run do
  let mut flags : UInt32 := 0
  let mut options : ProcessOptions := ⟨0, 0, 0⟩
  if let some uid := uid then
    flags := flags ||| setUID
    options := processOptionsSetUid options uid.toUInt32
  if let some gid := gid then
    flags := flags ||| setGID
    options := processOptionsSetGid options gid.toUInt32
  return processOptionsSetFlags options flags

/-- What the child of `uv_spawn` calls before it becomes the program. -/
def uvSpawn (options : ProcessOptions) : List SysCall :=
  (if options.flags &&& setGID ≠ 0 then [.setgid options.gid.toNat] else []) ++
    if options.flags &&& setUID ≠ 0 then [.setuid options.uid.toNat] else []

end Stubs

/-- The calls of the binding that take a `Uid` and a `Gid`. -/
inductive Call where
  | fsChown (uid gid : UInt64)
  | fsChownSync (uid gid : UInt64)
  | fsFchown (uid gid : UInt64)
  | fsFchownSync (uid gid : UInt64)
  | fsLchown (uid gid : UInt64)
  | fsLchownSync (uid gid : UInt64)
  | spawn (uid gid : Option UInt64)
  deriving Repr, DecidableEq

/-- The calls of the system that the stubs ask libuv for. -/
def Call.passed : Call → List SysCall
  | .fsChown uid gid => [moonbitUvFsChown uid.toUInt32 gid.toUInt32]
  | .fsChownSync uid gid => [moonbitUvFsChownSync uid.toUInt32 gid.toUInt32]
  | .fsFchown uid gid => [moonbitUvFsFchown uid gid]
  | .fsFchownSync uid gid => [moonbitUvFsFchownSync uid gid]
  | .fsLchown uid gid => [moonbitUvFsLchown uid gid]
  | .fsLchownSync uid gid => [moonbitUvFsLchownSync uid gid]
  | .spawn uid gid => uvSpawn (ProcessOptions.new uid gid)

/-- The calls of the system that the caller means. -/
def Call.meant : Call → List SysCall
  | .fsChown uid gid | .fsChownSync uid gid => [.chown uid.toNat gid.toNat]
  | .fsFchown uid gid | .fsFchownSync uid gid => [.fchown uid.toNat gid.toNat]
  | .fsLchown uid gid | .fsLchownSync uid gid => [.lchown uid.toNat gid.toNat]
  | .spawn uid gid =>
      gid.toList.map (fun gid => .setgid gid.toNat) ++
        uid.toList.map (fun uid => .setuid uid.toNat)

/-- How far libuv and the system get, and the status that is returned or left
in the request: they stop for an error only. -/
structure Answer (call : Call) where
  reached : Nat
  status : Int32
  stopped : reached < call.meant.length → status < 0

/-- A negative status is raised, or handed to the error callback. -/
def outcome (uvValue : Errno → Int) (status : Int32) : Except Errno Unit :=
  if status < 0 then .error (Errno.ofInt uvValue status.toInt) else .ok ()

def Call.received (call : Call) (answer : Answer call) : List SysCall :=
  call.passed.take answer.reached

/-- The system receives the numbers that were given, or nothing more and the
call fails. -/
def Call.Exact (uvValue : Errno → Int) (call : Call) (answer : Answer call) :
    Prop :=
  call.received answer <+: call.meant ∧
    (call.received answer = call.meant ∨
      ∃ error, outcome uvValue answer.status = .error error)

def SysCall.Fits : SysCall → Prop
  | .chown uid gid | .fchown uid gid | .lchown uid gid =>
      uid < 2 ^ 32 ∧ gid < 2 ^ 32
  | .setgid number | .setuid number => number < 2 ^ 32

/-- The numbers that get to the system fit its types. -/
def Call.Fits (call : Call) (answer : Answer call) : Prop :=
  ∀ sysCall ∈ call.meant.take answer.reached, sysCall.Fits

section Proofs

/-- What the casts do to a call. -/
def SysCall.narrow : SysCall → SysCall
  | .chown uid gid => .chown (uid % 2 ^ 32) (gid % 2 ^ 32)
  | .fchown uid gid => .fchown (uid % 2 ^ 32) (gid % 2 ^ 32)
  | .lchown uid gid => .lchown (uid % 2 ^ 32) (gid % 2 ^ 32)
  | .setgid gid => .setgid (gid % 2 ^ 32)
  | .setuid uid => .setuid (uid % 2 ^ 32)

/-- The two flags do not overlap. -/
theorem flags_bits :
    setUID &&& setGID = 0 ∧ setGID &&& setUID = 0 ∧
      (setUID ||| setGID) &&& setGID ≠ 0 ∧
      (setUID ||| setGID) &&& setUID ≠ 0 ∧
      setUID ≠ 0 ∧ setGID ≠ 0 := by
  decide

/-- The child changes what the options were given. -/
theorem uvSpawn_new (uid gid : Option UInt64) :
    uvSpawn (ProcessOptions.new uid gid) =
      gid.toList.map (fun gid => .setgid gid.toUInt32.toNat) ++
        uid.toList.map (fun uid => .setuid uid.toUInt32.toNat) := by
  obtain ⟨hgid, huid, hbothGid, hbothUid, hsetUid, hsetGid⟩ := flags_bits
  cases uid <;> cases gid <;>
    simp [uvSpawn, ProcessOptions.new, processOptionsSetUid,
      processOptionsSetGid, processOptionsSetFlags, hgid, huid, hbothGid,
      hbothUid, hsetUid, hsetGid]

theorem Call.passed_eq (call : Call) :
    call.passed = call.meant.map SysCall.narrow := by
  cases call with
  | spawn uid gid =>
      rw [Call.passed, uvSpawn_new, Call.meant, List.map_append, List.map_map,
        List.map_map]
      rfl
  | _ => rfl

theorem mod_eq_self_iff (number : Nat) :
    number % 2 ^ 32 = number ↔ number < 2 ^ 32 :=
  ⟨fun heq => heq ▸ Nat.mod_lt number (Nat.two_pow_pos 32), Nat.mod_eq_of_lt⟩

theorem SysCall.narrow_eq_iff (sysCall : SysCall) :
    sysCall.narrow = sysCall ↔ sysCall.Fits := by
  cases sysCall with
  | chown uid gid | fchown uid gid | lchown uid gid =>
      rw [SysCall.narrow, SysCall.Fits, ← mod_eq_self_iff uid,
        ← mod_eq_self_iff gid]
      simp only [SysCall.chown.injEq, SysCall.fchown.injEq,
        SysCall.lchown.injEq]
  | setgid number | setuid number =>
      rw [SysCall.narrow, SysCall.Fits, ← mod_eq_self_iff number]
      simp only [SysCall.setgid.injEq, SysCall.setuid.injEq]

theorem map_narrow_eq_iff (calls : List SysCall) :
    calls.map SysCall.narrow = calls ↔ ∀ sysCall ∈ calls, sysCall.Fits := by
  induction calls with
  | nil => simp
  | cons sysCall rest ih =>
      rw [List.map_cons, List.cons.injEq, SysCall.narrow_eq_iff, ih,
        List.forall_mem_cons]

theorem Call.received_eq (call : Call) (answer : Answer call) :
    call.received answer =
      (call.meant.take answer.reached).map SysCall.narrow := by
  rw [Call.received, Call.passed_eq, List.map_take]

/-- What is received is a part of what is meant exactly if nothing is cut. -/
theorem Call.prefix_iff (call : Call) (answer : Answer call) :
    call.received answer <+: call.meant ↔ call.Fits answer := by
  rw [Call.Fits, ← map_narrow_eq_iff, ← Call.received_eq]
  constructor
  · intro hsent
    have htake := List.prefix_iff_eq_take.mp hsent
    rw [htake, Call.received_eq, List.length_map, List.length_take,
      ← List.take_eq_take_min]
  · intro heq
    rw [heq]
    exact List.take_prefix answer.reached call.meant

end Proofs

/-- The system receives a user or a group as it was given exactly if the
numbers that get to it are below `2 ^ 32`. -/
theorem ids_exact_iff (uvValue : Errno → Int) (call : Call)
    (answer : Answer call) :
    call.Exact uvValue answer ↔ call.Fits answer := by
  rw [Call.Exact, Call.prefix_iff, and_iff_left_iff_imp]
  intro hfits
  by_cases hreached : answer.reached < call.meant.length
  · right
    exact ⟨_, if_pos (answer.stopped hreached)⟩
  · left
    rw [Call.received_eq, (map_narrow_eq_iff _).mpr hfits,
      List.take_of_length_le (Nat.not_lt.mp hreached)]

/-- The system does what it is asked for. -/
def granted (call : Call) : Answer call where
  reached := call.meant.length
  status := 0
  stopped := fun hlt => absurd hlt (Nat.lt_irrefl _)

/-- A file that is given to user `2 ^ 32` becomes that of user 0. -/
theorem chown_gives_to_root :
    (Call.fsChown 0x100000000 1000).received (granted _) = [.chown 0 1000] ∧
      ¬(Call.fsChown 0x100000000 1000).Exact Errno.linuxValue (granted _) := by
  have hreceived : (Call.fsChown 0x100000000 1000).received (granted _) =
      [.chown 0 1000] := by
    decide
  refine ⟨hreceived, ?_⟩
  rintro ⟨hsent, -⟩
  rw [hreceived] at hsent
  revert hsent
  decide

end UvMbt.UserIds
