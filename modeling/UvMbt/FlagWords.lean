/-
The flag words that the binding hands to libuv: every builder puts in what it
is asked for, and a word tells what that was.
-/
import UvMbt.BitFields

set_option autoImplicit false

namespace UvMbt.FlagWords

open BitFields

inductive AccessHint where
  | random
  | sequential
  deriving Repr, DecidableEq

inductive Sync where
  | data
  | full
  deriving Repr, DecidableEq

inductive CopyOnWrite where
  | no
  | yes
  | force
  deriving Repr, DecidableEq

/-- What `moonbit_uv_fs_O_*` and its siblings return; a flag that a platform
does not know is zero. -/
structure Constants where
  fsOAppend : Nat
  fsOCreat : Nat
  fsODirect : Nat
  fsODirectory : Nat
  fsODsync : Nat
  fsOExcl : Nat
  fsOExlock : Nat
  fsOFilemap : Nat
  fsONoatime : Nat
  fsONoctty : Nat
  fsONofollow : Nat
  fsONonblock : Nat
  fsORandom : Nat
  fsORdonly : Nat
  fsORdwr : Nat
  fsOSequential : Nat
  fsOSymlink : Nat
  fsOSync : Nat
  fsOTemporary : Nat
  fsOTrunc : Nat
  fsOWronly : Nat
  fOk : Nat
  rOk : Nat
  wOk : Nat
  xOk : Nat
  copyfileExcl : Nat
  copyfileFiclone : Nat
  copyfileFicloneForce : Nat
  symlinkDir : Nat
  symlinkJunction : Nat
  aiPassive : Nat
  aiCanonname : Nat
  aiNumerichost : Nat
  aiNumericserv : Nat
  aiAll : Nat
  aiAddrconfig : Nat
  aiV4mapped : Nat

/-- The arguments of `OpenFlags::read_only`. -/
structure ReadOnly where
  accessHint : Option AccessHint
  direct : Bool
  directory : Bool
  exclusiveLock : Bool
  filemap : Bool
  noatime : Bool
  nofollow : Bool
  nonblock : Bool
  symlink : Bool

/-- The arguments of `OpenFlags::write_only`. -/
structure WriteOnly where
  append : Bool
  create : Bool
  direct : Bool
  exclusive : Bool
  exclusiveLock : Bool
  filemap : Bool
  nofollow : Bool
  nonblock : Bool
  sync : Option Sync
  temporary : Bool
  truncate : Bool

/-- The arguments of `OpenFlags::read_write`. -/
structure ReadWrite where
  accessHint : Option AccessHint
  append : Bool
  create : Bool
  direct : Bool
  exclusive : Bool
  exclusiveLock : Bool
  filemap : Bool
  noatime : Bool
  noctty : Bool
  nofollow : Bool
  nonblock : Bool
  symlink : Bool
  sync : Option Sync
  temporary : Bool
  truncate : Bool

/-- The arguments of `AddrInfoFlags::new`. -/
structure AddrInfo where
  passive : Bool
  canonname : Bool
  numericHost : Bool
  numericServ : Bool
  all : Bool
  addrconfig : Bool
  v4mapped : Bool

/-- The arguments of `UdpFlags::new`. -/
structure Udp where
  ipv6Only : Bool
  partialRead : Bool
  reuseAddr : Bool
  mmsgChunk : Bool
  mmsgFree : Bool
  linuxRecvErr : Bool
  reusePort : Bool
  recvmmsg : Bool

def tcpIpv6only : Nat := 1
def tcpReuseport : Nat := 2
def pipeNoTruncate : Nat := 1 <<< 0
def uvFsEventRecursive : Nat := 4
def uvUdpIpv6only : Nat := 1
def uvUdpPartial : Nat := 2
def uvUdpReuseaddr : Nat := 4
def uvUdpMmsgChunk : Nat := 8
def uvUdpMmsgFree : Nat := 16
def uvUdpLinuxRecverr : Nat := 32
def uvUdpReuseport : Nat := 64
def uvUdpRecvmmsg : Nat := 256

section Code

variable (c : Constants)

def setHint (hint : Option AccessHint) (flags : Nat) : Nat :=
  match hint with
  | none => flags
  | some .random => flags ||| c.fsORandom
  | some .sequential => flags ||| c.fsOSequential

def setSync (sync : Option Sync) (flags : Nat) : Nat :=
  match sync with
  | none => flags
  | some .data => flags ||| c.fsODsync
  | some .full => flags ||| c.fsOSync

/-- `OpenFlags::read_only`. -/
def readOnly (o : ReadOnly) : Nat :=
  let flags := c.fsORdonly
  let flags := setHint c o.accessHint flags
  let flags := setIf o.direct c.fsODirect flags
  let flags := setIf o.directory c.fsODirectory flags
  let flags := setIf o.exclusiveLock c.fsOExlock flags
  let flags := setIf o.filemap c.fsOFilemap flags
  let flags := setIf o.noatime c.fsONoatime flags
  let flags := setIf o.nofollow c.fsONofollow flags
  let flags := setIf o.nonblock c.fsONonblock flags
  setIf o.symlink c.fsOSymlink flags

/-- `OpenFlags::write_only`. -/
def writeOnly (o : WriteOnly) : Nat :=
  let flags := c.fsOWronly
  let flags := setIf o.append c.fsOAppend flags
  let flags := setIf o.create c.fsOCreat flags
  let flags := setIf o.direct c.fsODirect flags
  let flags := setIf o.exclusive c.fsOExcl flags
  let flags := setIf o.exclusiveLock c.fsOExlock flags
  let flags := setIf o.filemap c.fsOFilemap flags
  let flags := setIf o.nofollow c.fsONofollow flags
  let flags := setIf o.nonblock c.fsONonblock flags
  let flags := setSync c o.sync flags
  let flags := setIf o.temporary c.fsOTemporary flags
  setIf o.truncate c.fsOTrunc flags

/-- `OpenFlags::read_write`. -/
def readWrite (o : ReadWrite) : Nat :=
  let flags := c.fsORdwr
  let flags := setIf o.append c.fsOAppend flags
  let flags := setHint c o.accessHint flags
  let flags := setIf o.create c.fsOCreat flags
  let flags := setIf o.direct c.fsODirect flags
  let flags := setIf o.exclusive c.fsOExcl flags
  let flags := setIf o.exclusiveLock c.fsOExlock flags
  let flags := setIf o.filemap c.fsOFilemap flags
  let flags := setIf o.noatime c.fsONoatime flags
  let flags := setIf o.noctty c.fsONoctty flags
  let flags := setIf o.nofollow c.fsONofollow flags
  let flags := setIf o.nonblock c.fsONonblock flags
  let flags := setIf o.symlink c.fsOSymlink flags
  let flags := setSync c o.sync flags
  let flags := setIf o.temporary c.fsOTemporary flags
  setIf o.truncate c.fsOTrunc flags

/-- `AccessFlags::new`. -/
def accessFlags (read write execute : Bool) : Nat :=
  if !read && !write && !execute then c.fOk
  else
    let flags := 0
    let flags := setIf read c.rOk flags
    let flags := setIf write c.wOk flags
    setIf execute c.xOk flags

/-- `CopyFileFlags::new`. -/
def copyFileFlags (allowExists : Bool) (copyOnWrite : CopyOnWrite) : Nat :=
  let flags := if allowExists then 0 else c.copyfileExcl
  match copyOnWrite with
  | .no => flags
  | .yes => flags ||| c.copyfileFiclone
  | .force => flags ||| c.copyfileFicloneForce

/-- `SymlinkFlags::new`. -/
def symlinkFlags (dir junction : Bool) : Nat :=
  let flags := 0
  let flags := setIf dir c.symlinkDir flags
  setIf junction c.symlinkJunction flags

/-- `AddrInfoFlags::new`. -/
def addrInfoFlags (o : AddrInfo) : Nat :=
  let flags := 0
  let flags := setIf o.passive c.aiPassive flags
  let flags := setIf o.canonname c.aiCanonname flags
  let flags := setIf o.numericHost c.aiNumerichost flags
  let flags := setIf o.numericServ c.aiNumericserv flags
  let flags := setIf o.all c.aiAll flags
  let flags := setIf o.addrconfig c.aiAddrconfig flags
  setIf o.v4mapped c.aiV4mapped flags

/-- `TcpBindFlags::new`. -/
def tcpBindFlags (ipv6Only reusePort : Bool) : Nat :=
  let flags := 0
  let flags := setIf ipv6Only tcpIpv6only flags
  setIf reusePort tcpReuseport flags

/-- `PipeBindFlags::new`. -/
def pipeBindFlags (truncate : Bool) : Nat :=
  setIf (!truncate) pipeNoTruncate 0

/-- `FsEventFlags::new`. -/
def fsEventFlags (recursive : Bool) : Nat :=
  setIf recursive uvFsEventRecursive 0

/-- `UdpFlags::new`. -/
def udpFlags (o : Udp) : Nat :=
  let flags := 0
  let flags := setIf o.ipv6Only uvUdpIpv6only flags
  let flags := setIf o.partialRead uvUdpPartial flags
  let flags := setIf o.reuseAddr uvUdpReuseaddr flags
  let flags := setIf o.mmsgChunk uvUdpMmsgChunk flags
  let flags := setIf o.mmsgFree uvUdpMmsgFree flags
  let flags := setIf o.linuxRecvErr uvUdpLinuxRecverr flags
  let flags := setIf o.reusePort uvUdpReuseport flags
  setIf o.recvmmsg uvUdpRecvmmsg flags

end Code

/-- What a program asks one of the builders for. -/
inductive Request where
  | readOnly (o : ReadOnly)
  | writeOnly (o : WriteOnly)
  | readWrite (o : ReadWrite)
  | access (read write execute : Bool)
  | copyFile (allowExists : Bool) (copyOnWrite : CopyOnWrite)
  | symlink (dir junction : Bool)
  | addrInfo (o : AddrInfo)
  | tcpBind (ipv6Only reusePort : Bool)
  | pipeBind (truncate : Bool)
  | fsEvent (recursive : Bool)
  | udp (o : Udp)

/-- The kinds of words. -/
inductive Family where
  | opening
  | access
  | copyFile
  | symlink
  | addrInfo
  | tcpBind
  | pipeBind
  | fsEvent
  | udp
  deriving Repr, DecidableEq

def Request.family : Request → Family
  | .readOnly _ | .writeOnly _ | .readWrite _ => .opening
  | .access _ _ _ => .access
  | .copyFile _ _ => .copyFile
  | .symlink _ _ => .symlink
  | .addrInfo _ => .addrInfo
  | .tcpBind _ _ => .tcpBind
  | .pipeBind _ => .pipeBind
  | .fsEvent _ => .fsEvent
  | .udp _ => .udp

def Request.word (c : Constants) : Request → Nat
  | .readOnly o => FlagWords.readOnly c o
  | .writeOnly o => FlagWords.writeOnly c o
  | .readWrite o => FlagWords.readWrite c o
  | .access read write execute => accessFlags c read write execute
  | .copyFile allowExists copyOnWrite =>
      copyFileFlags c allowExists copyOnWrite
  | .symlink dir junction => symlinkFlags c dir junction
  | .addrInfo o => addrInfoFlags c o
  | .tcpBind ipv6Only reusePort => tcpBindFlags ipv6Only reusePort
  | .pipeBind truncate => pipeBindFlags truncate
  | .fsEvent recursive => fsEventFlags recursive
  | .udp o => udpFlags o

section Parts

variable (c : Constants)

def hintPart (hint : Option AccessHint) : Part where
  mask := c.fsORandom ||| c.fsOSequential
  value := match hint with
    | none => 0
    | some .random => c.fsORandom
    | some .sequential => c.fsOSequential

def syncPart (sync : Option Sync) : Part where
  mask := c.fsODsync ||| c.fsOSync
  value := match sync with
    | none => 0
    | some .data => c.fsODsync
    | some .full => c.fsOSync

/-- The part for one of `O_RDONLY`, `O_WRONLY` and `O_RDWR`. -/
def accessPart (access : Nat) : Part :=
  ⟨c.fsORdonly ||| (c.fsOWronly ||| c.fsORdwr), access⟩

/-- What can be asked of a file that is opened; the builders leave some of it
out. -/
def openParts (access : Nat) (o : ReadWrite) (directory : Bool) : List Part :=
  [accessPart c access, .flag c.fsOAppend o.append, hintPart c o.accessHint,
    .flag c.fsOCreat o.create, .flag c.fsODirect o.direct,
    .flag c.fsODirectory directory, .flag c.fsOExcl o.exclusive,
    .flag c.fsOExlock o.exclusiveLock, .flag c.fsOFilemap o.filemap,
    .flag c.fsONoatime o.noatime, .flag c.fsONoctty o.noctty,
    .flag c.fsONofollow o.nofollow, .flag c.fsONonblock o.nonblock,
    .flag c.fsOSymlink o.symlink, syncPart c o.sync,
    .flag c.fsOTemporary o.temporary, .flag c.fsOTrunc o.truncate]

def ReadOnly.all (o : ReadOnly) : ReadWrite where
  accessHint := o.accessHint
  append := false
  create := false
  direct := o.direct
  exclusive := false
  exclusiveLock := o.exclusiveLock
  filemap := o.filemap
  noatime := o.noatime
  noctty := false
  nofollow := o.nofollow
  nonblock := o.nonblock
  symlink := o.symlink
  sync := none
  temporary := false
  truncate := false

def WriteOnly.all (o : WriteOnly) : ReadWrite where
  accessHint := none
  append := o.append
  create := o.create
  direct := o.direct
  exclusive := o.exclusive
  exclusiveLock := o.exclusiveLock
  filemap := o.filemap
  noatime := false
  noctty := false
  nofollow := o.nofollow
  nonblock := o.nonblock
  symlink := false
  sync := o.sync
  temporary := o.temporary
  truncate := o.truncate

/-- What a request asks for, flag by flag. -/
def Request.parts : Request → List Part
  | .readOnly o => openParts c c.fsORdonly o.all o.directory
  | .writeOnly o => openParts c c.fsOWronly o.all false
  | .readWrite o => openParts c c.fsORdwr o false
  | .access read write execute =>
      [.flag c.rOk read, .flag c.wOk write, .flag c.xOk execute]
  | .copyFile allowExists copyOnWrite =>
      [.flag c.copyfileExcl (!allowExists),
        ⟨c.copyfileFiclone ||| c.copyfileFicloneForce,
          match copyOnWrite with
          | .no => 0
          | .yes => c.copyfileFiclone
          | .force => c.copyfileFicloneForce⟩]
  | .symlink dir junction =>
      [.flag c.symlinkDir dir, .flag c.symlinkJunction junction]
  | .addrInfo o =>
      [.flag c.aiPassive o.passive, .flag c.aiCanonname o.canonname,
        .flag c.aiNumerichost o.numericHost,
        .flag c.aiNumericserv o.numericServ, .flag c.aiAll o.all,
        .flag c.aiAddrconfig o.addrconfig, .flag c.aiV4mapped o.v4mapped]
  | .tcpBind ipv6Only reusePort =>
      [.flag tcpIpv6only ipv6Only, .flag tcpReuseport reusePort]
  | .pipeBind truncate => [.flag pipeNoTruncate (!truncate)]
  | .fsEvent recursive => [.flag uvFsEventRecursive recursive]
  | .udp o =>
      [.flag uvUdpIpv6only o.ipv6Only, .flag uvUdpPartial o.partialRead,
        .flag uvUdpReuseaddr o.reuseAddr, .flag uvUdpMmsgChunk o.mmsgChunk,
        .flag uvUdpMmsgFree o.mmsgFree,
        .flag uvUdpLinuxRecverr o.linuxRecvErr,
        .flag uvUdpReuseport o.reusePort, .flag uvUdpRecvmmsg o.recvmmsg]

/-- The masks of a word, which no request changes. -/
def Family.masks : Family → List Nat
  | .opening =>
      [c.fsORdonly ||| (c.fsOWronly ||| c.fsORdwr), c.fsOAppend,
        c.fsORandom ||| c.fsOSequential, c.fsOCreat, c.fsODirect,
        c.fsODirectory, c.fsOExcl, c.fsOExlock, c.fsOFilemap, c.fsONoatime,
        c.fsONoctty, c.fsONofollow, c.fsONonblock, c.fsOSymlink,
        c.fsODsync ||| c.fsOSync, c.fsOTemporary, c.fsOTrunc]
  | .access => [c.rOk, c.wOk, c.xOk]
  | .copyFile =>
      [c.copyfileExcl, c.copyfileFiclone ||| c.copyfileFicloneForce]
  | .symlink => [c.symlinkDir, c.symlinkJunction]
  | .addrInfo =>
      [c.aiPassive, c.aiCanonname, c.aiNumerichost, c.aiNumericserv, c.aiAll,
        c.aiAddrconfig, c.aiV4mapped]
  | .tcpBind => [tcpIpv6only, tcpReuseport]
  | .pipeBind => [pipeNoTruncate]
  | .fsEvent => [uvFsEventRecursive]
  | .udp =>
      [uvUdpIpv6only, uvUdpPartial, uvUdpReuseaddr, uvUdpMmsgChunk,
        uvUdpMmsgFree, uvUdpLinuxRecverr, uvUdpReuseport, uvUdpRecvmmsg]

/-- What a platform has to promise of its constants: no two of a word share a
bit, and `F_OK` is none. -/
structure Constants.Sound : Prop where
  disjoint : ∀ family : Family, (family.masks c).Pairwise
    fun first second => first &&& second = 0
  fOk : c.fOk = 0

end Parts

section Exact

variable {c : Constants}

theorem setHint_eq (hint : Option AccessHint) (flags : Nat) :
    setHint c hint flags = flags ||| (hintPart c hint).value := by
  cases hint with
  | none => exact (Nat.or_zero flags).symm
  | some hint => cases hint <;> rfl

theorem setSync_eq (sync : Option Sync) (flags : Nat) :
    setSync c sync flags = flags ||| (syncPart c sync).value := by
  cases sync with
  | none => exact (Nat.or_zero flags).symm
  | some sync => cases sync <;> rfl

theorem masks_parts (request : Request) :
    (request.parts c).map Part.mask = request.family.masks c := by
  cases request <;> rfl

theorem hintPart_within (hint : Option AccessHint) :
    (hintPart c hint).Within := by
  cases hint with
  | none => exact Nat.zero_and _
  | some hint =>
      cases hint with
      | random => exact absorb_left _ _
      | sequential => exact absorb_right _ _

theorem syncPart_within (sync : Option Sync) : (syncPart c sync).Within := by
  cases sync with
  | none => exact Nat.zero_and _
  | some sync =>
      cases sync with
      | data => exact absorb_left _ _
      | full => exact absorb_right _ _

theorem openParts_within {access : Nat}
    (haccess : (accessPart c access).Within) (o : ReadWrite)
    (directory : Bool) :
    ∀ part ∈ openParts c access o directory, part.Within := by
  simp only [openParts, List.forall_mem_cons, haccess, hintPart_within,
    syncPart_within, Part.flag_within, true_and]
  intro part hpart
  cases hpart

theorem parts_within (request : Request) :
    ∀ part ∈ request.parts c, part.Within := by
  cases request with
  | readOnly o => exact openParts_within (absorb_left _ _) _ _
  | writeOnly o =>
      refine openParts_within ?_ _ _
      change c.fsOWronly &&&
        (c.fsORdonly ||| (c.fsOWronly ||| c.fsORdwr)) = c.fsOWronly
      rw [Nat.or_comm, Nat.or_assoc, absorb_left]
  | readWrite o =>
      refine openParts_within ?_ _ _
      change c.fsORdwr &&&
        (c.fsORdonly ||| (c.fsOWronly ||| c.fsORdwr)) = c.fsORdwr
      rw [← Nat.or_assoc, absorb_right]
  | copyFile allowExists copyOnWrite =>
      simp only [Request.parts, List.forall_mem_cons, Part.flag_within,
        true_and]
      refine ⟨?_, fun part hpart => by cases hpart⟩
      cases copyOnWrite with
      | no => exact Nat.zero_and _
      | yes => exact absorb_left _ _
      | force => exact absorb_right _ _
  | _ =>
      simp only [Request.parts, List.forall_mem_cons, Part.flag_within,
        true_and]
      intro part hpart
      cases hpart

theorem parts_separate (hsound : c.Sound) (request : Request) :
    Separate (request.parts c) :=
  Separate.of_masks (masks_parts request) (hsound.disjoint request.family)
    (parts_within request)

theorem flag_false (mask : Nat) : (Part.flag mask false).value = 0 := rfl

/-- The word of a request is put together from its parts. -/
theorem word_eq (hsound : c.Sound) (request : Request) :
    request.word c = assemble (request.parts c) := by
  have hhint : (hintPart c none).value = 0 := rfl
  have hsync : (syncPart c none).value = 0 := rfl
  cases request with
  | readOnly o =>
      simp only [Request.word, FlagWords.readOnly, Request.parts, openParts,
        accessPart, ReadOnly.all, assemble_cons, assemble_nil, setIf_eq,
        setHint_eq, flag_false, hsync, Nat.or_assoc, Nat.or_zero, Nat.zero_or]
  | writeOnly o =>
      simp only [Request.word, FlagWords.writeOnly, Request.parts, openParts,
        accessPart, WriteOnly.all, assemble_cons, assemble_nil, setIf_eq,
        setSync_eq, flag_false, hhint, Nat.or_assoc, Nat.or_zero, Nat.zero_or]
  | readWrite o =>
      simp only [Request.word, FlagWords.readWrite, Request.parts, openParts,
        accessPart, assemble_cons, assemble_nil, setIf_eq, setHint_eq,
        setSync_eq, flag_false, Nat.or_assoc, Nat.or_zero, Nat.zero_or]
  | access read write execute =>
      have hfOk := hsound.fOk
      cases read <;> cases write <;> cases execute <;>
        simp [Request.word, accessFlags, Request.parts, assemble_cons,
          assemble_nil, setIf, Part.flag, Nat.or_assoc, hfOk]
  | copyFile allowExists copyOnWrite =>
      cases allowExists <;> cases copyOnWrite <;>
        simp [Request.word, copyFileFlags, Request.parts, assemble_cons,
          assemble_nil, Part.flag]
  | symlink dir junction =>
      simp only [Request.word, symlinkFlags, Request.parts, assemble_cons,
        assemble_nil, setIf_eq, Nat.or_zero, Nat.zero_or]
  | addrInfo o =>
      simp only [Request.word, addrInfoFlags, Request.parts, assemble_cons,
        assemble_nil, setIf_eq, Nat.or_assoc, Nat.or_zero, Nat.zero_or]
  | tcpBind ipv6Only reusePort =>
      simp only [Request.word, tcpBindFlags, Request.parts, assemble_cons,
        assemble_nil, setIf_eq, Nat.or_zero, Nat.zero_or]
  | pipeBind truncate =>
      simp only [Request.word, pipeBindFlags, Request.parts, assemble_cons,
        assemble_nil, setIf_eq, Nat.or_zero, Nat.zero_or]
  | fsEvent recursive =>
      simp only [Request.word, fsEventFlags, Request.parts, assemble_cons,
        assemble_nil, setIf_eq, Nat.or_zero, Nat.zero_or]
  | udp o =>
      simp only [Request.word, udpFlags, Request.parts, assemble_cons,
        assemble_nil, setIf_eq, Nat.or_assoc, Nat.or_zero, Nat.zero_or]

/-- The constants of Linux. -/
def linux : Constants where
  fsOAppend := 0o2000
  fsOCreat := 0o100
  fsODirect := 0o40000
  fsODirectory := 0o200000
  fsODsync := 0o10000
  fsOExcl := 0o200
  fsOExlock := 0
  fsOFilemap := 0
  fsONoatime := 0o1000000
  fsONoctty := 0o400
  fsONofollow := 0o400000
  fsONonblock := 0o4000
  fsORandom := 0
  fsORdonly := 0
  fsORdwr := 2
  fsOSequential := 0
  fsOSymlink := 0
  fsOSync := 0o4010000
  fsOTemporary := 0
  fsOTrunc := 0o1000
  fsOWronly := 1
  fOk := 0
  rOk := 4
  wOk := 2
  xOk := 1
  copyfileExcl := 1
  copyfileFiclone := 2
  copyfileFicloneForce := 4
  symlinkDir := 1
  symlinkJunction := 2
  aiPassive := 1
  aiCanonname := 2
  aiNumerichost := 4
  aiNumericserv := 0x400
  aiAll := 0x10
  aiAddrconfig := 0x20
  aiV4mapped := 8

theorem linux_sound : linux.Sound where
  disjoint family := by
    cases family <;> decide
  fOk := rfl

/-- Whatever is asked of a builder, its word shows under the mask of every flag
what was asked about it, and shows nothing else.  Two requests make one word of
a kind only when they ask for the same of all that the platform knows. -/
theorem flagWords_exact (hsound : c.Sound) (request : Request) :
    (∀ part ∈ request.parts c, request.word c &&& part.mask = part.value) ∧
      (∀ mask, (∀ known ∈ request.family.masks c, known &&& mask = 0) →
        request.word c &&& mask = 0) ∧
      ∀ other : Request, other.family = request.family →
        other.word c = request.word c → other.parts c = request.parts c := by
  have hseparate := parts_separate hsound request
  refine ⟨?_, ?_, ?_⟩
  · intro part hpart
    rw [word_eq hsound]
    exact assemble_and hseparate hpart
  · intro mask houtside
    rw [word_eq hsound]
    apply assemble_and_outside hseparate.within
    intro part hpart
    apply houtside
    rw [← masks_parts]
    exact List.mem_map_of_mem hpart
  · intro other hfamily hword
    rw [word_eq hsound, word_eq hsound] at hword
    apply assemble_inj (parts_separate hsound other) hseparate _ hword
    rw [masks_parts, masks_parts, hfamily]

/-- A log that is opened to be appended to. -/
def appendLog : Request :=
  .writeOnly ⟨true, true, false, false, false, false, false, false,
    some .data, false, false⟩

theorem flagWords_exact_appendLog :
    appendLog.word linux &&& linux.fsOCreat = linux.fsOCreat ∧
      appendLog.word linux &&& linux.fsOTrunc = 0 ∧
      appendLog.word linux &&& (linux.fsODsync ||| linux.fsOSync) =
        linux.fsODsync := by
  obtain ⟨hparts, -, -⟩ := flagWords_exact linux_sound appendLog
  exact ⟨hparts (.flag linux.fsOCreat true) (by decide),
    hparts (.flag linux.fsOTrunc false) (by decide),
    hparts (syncPart linux (some .data)) (by decide)⟩

end Exact

end UvMbt.FlagWords
