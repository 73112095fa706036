/-
The sender of a datagram: the bytes of the address structures, what the
receive trampoline copies of them, and what the accessors of `Sockaddr` read
from the copy.
-/
import UvMbt.ByteOrder
import UvMbt.GuardedRun
import UvMbt.UdpReceive

set_option autoImplicit false

namespace UvMbt.SenderAddress

open ByteOrder
open GuardedRun (bind_eq_ok)
open UdpReceive (afInet afInet6 copyAddr)

/-- `struct sockaddr_in`. -/
structure SockaddrIn where
  port : UInt16
  addr : Vector UInt8 4
  zero : Vector UInt8 8
  deriving Repr, DecidableEq

/-- `struct sockaddr_in6`. -/
structure SockaddrIn6 where
  port : UInt16
  flowinfo : UInt32
  addr : Vector UInt8 16
  scopeId : UInt32
  deriving Repr, DecidableEq

/-- The socket address of a sender, of whatever family. -/
inductive Sender where
  | inet (addr : SockaddrIn)
  | inet6 (addr : SockaddrIn6)
  | other (family : UInt16) (data : Vector UInt8 14)
      (unknown : family.toNat ≠ afInet ∧ family.toNat ≠ afInet6)
  deriving DecidableEq

/-- What a `Sockaddr` says about its peer. -/
inductive Peer where
  | inet (port : Nat) (addr : List UInt8)
  | inet6 (port : Nat) (addr : List UInt8) (scopeId : Nat)
  | other (family : Nat)
  deriving Repr, DecidableEq

section Layout

/-- The structure in memory: the family and the numbers in the order of the
host, the port in that of the network. -/
def SockaddrIn.bytes (addr : SockaddrIn) : List UInt8 :=
  littleEndian 2 afInet ++ bigEndian 2 addr.port.toNat ++ addr.addr.toList ++
    addr.zero.toList

def SockaddrIn6.bytes (addr : SockaddrIn6) : List UInt8 :=
  littleEndian 2 afInet6 ++ bigEndian 2 addr.port.toNat ++
    littleEndian 4 addr.flowinfo.toNat ++ addr.addr.toList ++
    littleEndian 4 addr.scopeId.toNat

/-- What libuv passes for the sender. -/
def Sender.sockaddr : Sender → UdpReceive.Sockaddr
  | .inet addr => ⟨afInet, addr.bytes⟩
  | .inet6 addr => ⟨afInet6, addr.bytes⟩
  | .other family data _ =>
      ⟨family.toNat, littleEndian 2 family.toNat ++ data.toList⟩

def Sender.peer : Sender → Peer
  | .inet addr => .inet addr.port.toNat addr.addr.toList
  | .inet6 addr =>
      .inet6 addr.port.toNat addr.addr.toList addr.scopeId.toNat
  | .other family _ _ => .other family.toNat

end Layout

section Accessors

/-- `ntohs` of a host with the lowest byte first. -/
def ntohs (value : Nat) : Nat := value / 256 % 256 + 256 * (value % 256)

def uvSockaddrFamily (addr : List UInt8) : Option Nat :=
  (field addr 0 2).map ofLittleEndian

def uvSockaddrInPort (addr : List UInt8) : Option Nat :=
  (field addr 2 2).map (fun port => ntohs (ofLittleEndian port))

def uvSockaddrInAddr (addr : List UInt8) : Option (List UInt8) :=
  field addr 4 4

def uvSockaddrIn6Port (addr : List UInt8) : Option Nat :=
  (field addr 2 2).map (fun port => ntohs (ofLittleEndian port))

def uvSockaddrIn6ScopeId (addr : List UInt8) : Option Nat :=
  (field addr 24 4).map ofLittleEndian

def uvSockaddrIn6Addr (addr : List UInt8) : Option (List UInt8) :=
  field addr 8 16

/-- `Int16::from_int(port.reinterpret_as_int()).reinterpret_as_uint16()`. -/
def toUInt16 (port : Nat) : Nat := port % 2 ^ 16

/-- `SockaddrIn::of_sockaddr`. -/
def SockaddrIn.ofSockaddr (addr : List UInt8) :
    Option (Option (List UInt8)) := do
  let family ← uvSockaddrFamily addr
  if family = afInet then return some addr else return none

/-- `SockaddrIn6::of_sockaddr`. -/
def SockaddrIn6.ofSockaddr (addr : List UInt8) :
    Option (Option (List UInt8)) := do
  let family ← uvSockaddrFamily addr
  if family = afInet6 then return some addr else return none

/-- Everything a program can read from a `Sockaddr`, tried in the order of its
`ToJson`. -/
def decode (addr : List UInt8) : Option Peer := do
  match ← SockaddrIn.ofSockaddr addr with
  | some addr =>
      let port ← uvSockaddrInPort addr
      let ip ← uvSockaddrInAddr addr
      return .inet (toUInt16 port) ip
  | none =>
      match ← SockaddrIn6.ofSockaddr addr with
      | some addr =>
          let port ← uvSockaddrIn6Port addr
          let ip ← uvSockaddrIn6Addr addr
          let scopeId ← uvSockaddrIn6ScopeId addr
          return .inet6 (toUInt16 port) ip scopeId
      | none =>
          let family ← uvSockaddrFamily addr
          return .other family

end Accessors

/-- What the sender has beyond the generic `struct sockaddr` is all zero. -/
def Sender.Short : Sender → Prop
  | .inet6 addr =>
      addr.addr.toList.drop 8 = List.replicate 8 0 ∧ addr.scopeId = 0
  | _ => True

instance (sender : Sender) : Decidable sender.Short :=
  match sender with
  | .inet _ => isTrue trivial
  | .inet6 _ => inferInstanceAs (Decidable (_ ∧ _))
  | .other _ _ _ => isTrue trivial

section Proofs

/-- Two swaps give back the number. -/
theorem ntohs_ntohs {value : Nat} (hvalue : value < 2 ^ 16) :
    ntohs (ntohs value) = value := by
  have hhigh : value / 256 < 256 := by omega
  have hswap : ntohs value = value / 256 + 256 * (value % 256) := by
    rw [ntohs, Nat.mod_eq_of_lt hhigh]
  rw [hswap, ntohs, Nat.add_mul_div_left _ _ (by decide),
    Nat.div_eq_of_lt hhigh, Nat.add_mul_mod_self_left,
    Nat.mod_eq_of_lt hhigh]
  omega

theorem ntohs_bigEndian {port : Nat} (hport : port < 2 ^ 16) :
    ntohs (ofLittleEndian (bigEndian 2 port)) = port := by
  have hswap : ofLittleEndian (bigEndian 2 port) = ntohs port := by
    simp [bigEndian, littleEndian, ofLittleEndian, ntohs]
  rw [hswap, ntohs_ntohs hport]

theorem uvSockaddrFamily_append {family : Nat} (hfamily : family < 2 ^ 16)
    (rest : List UInt8) :
    uvSockaddrFamily (littleEndian 2 family ++ rest) = some family := by
  have hfield : field (littleEndian 2 family ++ rest) 0 2 =
      some (littleEndian 2 family) :=
    field_append [] _ rest rfl (length_littleEndian 2 family)
  rw [uvSockaddrFamily, hfield, Option.map_some,
    ofLittleEndian_littleEndian_of_lt (by simpa using hfamily)]

theorem field_port (family : Nat) (port : UInt16) (rest : List UInt8) :
    (field (littleEndian 2 family ++ bigEndian 2 port.toNat ++ rest) 2 2).map
      (fun bytes => ntohs (ofLittleEndian bytes)) = some port.toNat := by
  rw [field_append (littleEndian 2 family) _ rest (by simp) (by simp),
    Option.map_some, ntohs_bigEndian port.toNat_lt]

/-- An address of IPv4 has the size of the generic structure. -/
theorem copyAddr_inet (addr : SockaddrIn) :
    copyAddr (Sender.inet addr).sockaddr = addr.bytes := by
  have hlength : addr.bytes.length = 16 := by
    simp [SockaddrIn.bytes]
  simp [copyAddr, Sender.sockaddr, UdpReceive.sizeofSockaddr,
    UdpReceive.sizeofSockaddrIn, List.take_of_length_le, hlength]

/-- Of an address of IPv6 the copy keeps the first half. -/
theorem copyAddr_inet6 (addr : SockaddrIn6) :
    copyAddr (Sender.inet6 addr).sockaddr =
      littleEndian 2 afInet6 ++ bigEndian 2 addr.port.toNat ++
        littleEndian 4 addr.flowinfo.toNat ++
        (addr.addr.toList.take 8 ++ List.replicate 8 0) ++
        littleEndian 4 0 := by
  have hzeros : List.replicate 12 (0 : UInt8) =
      List.replicate 8 0 ++ littleEndian 4 0 := by decide
  simp [copyAddr, Sender.sockaddr, SockaddrIn6.bytes, afInet, afInet6,
    UdpReceive.sizeofSockaddr, UdpReceive.sizeofSockaddrIn6, List.take_append,
    List.take_of_length_le, hzeros]

theorem copyAddr_other {family : UInt16} {data : Vector UInt8 14}
    (unknown : family.toNat ≠ afInet ∧ family.toNat ≠ afInet6) :
    copyAddr (Sender.other family data unknown).sockaddr =
      littleEndian 2 family.toNat ++ data.toList := by
  simp [copyAddr, Sender.sockaddr, UdpReceive.sizeofSockaddr, unknown.1,
    unknown.2, List.take_of_length_le]

theorem decode_inet (addr : SockaddrIn) :
    decode addr.bytes = some (.inet addr.port.toNat addr.addr.toList) := by
  have hfamily : uvSockaddrFamily addr.bytes = some afInet := by
    rw [SockaddrIn.bytes, List.append_assoc, List.append_assoc]
    exact uvSockaddrFamily_append (by decide) _
  have hport : uvSockaddrInPort addr.bytes = some addr.port.toNat := by
    rw [SockaddrIn.bytes, List.append_assoc _ addr.addr.toList]
    exact field_port afInet addr.port _
  have haddr : uvSockaddrInAddr addr.bytes = some addr.addr.toList :=
    field_append _ addr.addr.toList _ (by simp) (by simp)
  simp [decode, SockaddrIn.ofSockaddr, hfamily, hport, haddr, toUInt16]

/-- A copy with some bytes in the place of the address and with no scope. -/
theorem decode_inet6 (port : UInt16) (flowinfo : Nat) {ip : List UInt8}
    (hip : ip.length = 16) :
    decode (littleEndian 2 afInet6 ++ bigEndian 2 port.toNat ++
      littleEndian 4 flowinfo ++ ip ++ littleEndian 4 0) =
        some (.inet6 port.toNat ip 0) := by
  set bytes := littleEndian 2 afInet6 ++ bigEndian 2 port.toNat ++
    littleEndian 4 flowinfo ++ ip ++ littleEndian 4 0 with hbytes
  have hfamily : uvSockaddrFamily bytes = some afInet6 := by
    rw [hbytes, List.append_assoc, List.append_assoc, List.append_assoc]
    exact uvSockaddrFamily_append (by decide) _
  have hport : uvSockaddrIn6Port bytes = some port.toNat := by
    rw [hbytes, List.append_assoc, List.append_assoc]
    exact field_port afInet6 port _
  have haddr : uvSockaddrIn6Addr bytes = some ip :=
    field_append _ ip _ (by simp) hip
  have hscope : uvSockaddrIn6ScopeId bytes = some 0 := by
    have hfield : field (bytes ++ []) 24 4 = some (littleEndian 4 0) :=
      field_append _ (littleEndian 4 0) [] (by simp [hip]) (by simp)
    rw [List.append_nil] at hfield
    rw [uvSockaddrIn6ScopeId, hfield, Option.map_some,
      ofLittleEndian_littleEndian_of_lt (by decide)]
  simp [decode, SockaddrIn.ofSockaddr, SockaddrIn6.ofSockaddr, hfamily, hport,
    haddr, hscope, toUInt16, afInet, afInet6]

theorem decode_other {family : UInt16}
    (unknown : family.toNat ≠ afInet ∧ family.toNat ≠ afInet6)
    (rest : List UInt8) :
    decode (littleEndian 2 family.toNat ++ rest) =
      some (.other family.toNat) := by
  have hfamily := uvSockaddrFamily_append family.toNat_lt rest
  simp [decode, SockaddrIn.ofSockaddr, SockaddrIn6.ofSockaddr, hfamily,
    unknown.1, unknown.2]

/-- The copy names the sender exactly when the sender fits the copy. -/
theorem decode_copyAddr_iff (sender : Sender) :
    decode (copyAddr sender.sockaddr) = some sender.peer ↔ sender.Short := by
  cases sender with
  | inet addr =>
      rw [copyAddr_inet, decode_inet]
      exact ⟨fun _ => trivial, fun _ => rfl⟩
  | inet6 addr =>
      have hsplit := List.take_append_drop 8 addr.addr.toList
      rw [copyAddr_inet6, decode_inet6 _ _ (by simp)]
      simp only [Sender.peer, Sender.Short, Option.some.injEq,
        Peer.inet6.injEq, true_and]
      apply and_congr
      · constructor
        · intro hcopy
          have hparts := hcopy.trans hsplit.symm
          exact (List.append_cancel_left hparts).symm
        · intro hzero
          rw [← hzero, hsplit]
      · rw [eq_comm, ← UInt32.toNat_inj]
        rfl
  | other family data unknown =>
      rw [copyAddr_other unknown, decode_other unknown]
      exact ⟨fun _ => trivial, fun _ => rfl⟩

/-- The user gets the copy of the address that libuv reports. -/
theorem uvRecvCb_addr {count nread : Int} {bufData : Option UdpReceive.Bytes}
    {buf memory : UdpReceive.Buf} {addr found : List UInt8} {flags seen : Nat}
    (hcall : UdpReceive.uvRecvCb count bufData buf found flags =
      .ok (.read nread memory addr seen)) : addr = found := by
  rw [UdpReceive.uvRecvCb.eq_def] at hcall
  split at hcall
  · cases hcall
  · cases bufData with
    | none => cases hcall
    | some data =>
        rcases bind_eq_ok hcall with ⟨offset, -, hread⟩
        rcases bind_eq_ok hread with ⟨view, -, hdone⟩
        cases hdone
        rfl

theorem recvCb_addr {data next : UdpReceive.UdpData} {recv : UdpReceive.Recv}
    {sockaddr : UdpReceive.Sockaddr} {nread : Int} {memory : UdpReceive.Buf}
    {addr : List UInt8} {flags : Nat} (haddr : recv.addr = some sockaddr)
    (hcall : UdpReceive.recvCb data recv =
      .ok (next, .read nread memory addr flags)) :
    addr = copyAddr sockaddr := by
  rw [UdpReceive.recvCb, haddr] at hcall
  rcases bind_eq_ok hcall with ⟨call, huser, hdone⟩
  cases hdone
  exact uvRecvCb_addr huser

end Proofs

/-- Of every datagram that is delivered, the user reads who sent it exactly
when the sender fits the generic `struct sockaddr`. -/
theorem recvCb_sender_iff {data next : UdpReceive.UdpData}
    {recv : UdpReceive.Recv} {sender : Sender} {nread : Int}
    {memory : UdpReceive.Buf} {addr : List UInt8} {flags : Nat}
    (haddr : recv.addr = some sender.sockaddr)
    (hcall : UdpReceive.recvCb data recv =
      .ok (next, .read nread memory addr flags)) :
    decode addr = some sender.peer ↔ sender.Short := by
  rw [recvCb_addr haddr hcall]
  exact decode_copyAddr_iff sender

/-- Port 53 of 127.0.0.1, and of the address 1 of link 2 of IPv6. -/
def loopback : Sender := .inet ⟨53, #v[127, 0, 0, 1], Vector.replicate 8 0⟩

def linkLocal : Sender :=
  .inet6 ⟨53, 0, #v[254, 128, 0, 0, 0, 0, 0, 0, 0, 0, 0, 0, 0, 0, 0, 1], 2⟩

theorem recvCb_sender_iff_loopback :
    decode (copyAddr loopback.sockaddr) = some loopback.peer ↔
      loopback.Short :=
  have hcall : UdpReceive.recvCb (some ⟨0, 100⟩)
      ⟨12, ⟨0, 0, 100⟩, some loopback.sockaddr, 0⟩ =
      .ok (none, .read 12 ⟨0, 0, 100⟩ (copyAddr loopback.sockaddr) 0) := rfl
  recvCb_sender_iff rfl hcall

theorem linkLocal_lost :
    ∃ addr, UdpReceive.recvCb (some ⟨0, 100⟩)
        ⟨12, ⟨0, 0, 100⟩, some linkLocal.sockaddr, 0⟩ =
          .ok (none, .read 12 ⟨0, 0, 100⟩ addr 0) ∧
      decode addr =
        some (.inet6 53 [254, 128, 0, 0, 0, 0, 0, 0, 0, 0, 0, 0, 0, 0, 0, 0] 0) ∧
      decode addr ≠ some linkLocal.peer :=
  ⟨copyAddr linkLocal.sockaddr, rfl, by decide, by decide⟩

end UvMbt.SenderAddress
