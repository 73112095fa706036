/-
Addresses and their text: `ip_name` and `ntop`, which have libuv write the text
into a buffer of their own size, and the parsers that read it back.
-/
import Mathlib.Data.List.TakeWhile
import UvMbt.CString
import UvMbt.Fs
import UvMbt.SenderAddress

set_option autoImplicit false

namespace UvMbt

open ByteOrder
open UdpReceive (afInet afInet6)
open SenderAddress (ntohs uvSockaddrFamily uvSockaddrInAddr uvSockaddrIn6Addr)

/-- The part of libuv that knows the text of an address: `text4` and `text6`
are what it writes, `parse4` and `parse6` what it reads, and `address6` what
`uv_ip6_addr` reads of an address and its zone. -/
structure Inet where
  text4 : List UInt8 → List UInt8
  text6 : List UInt8 → List UInt8
  parse4 : List UInt8 → Option (Vector UInt8 4)
  parse6 : List UInt8 → Option (Vector UInt8 16)
  address6 : List UInt8 → Option (Vector UInt8 16 × UInt32)

/-- `UV_IF_NAMESIZE`, `INET_ADDRSTRLEN` and `INET6_ADDRSTRLEN` of Linux. -/
def ifNamesize : Nat := 17
def inetAddrstrlen : Nat := 16
def inet6Addrstrlen : Nat := 46

section Libuv

variable (uvValue : Errno → Int) (inet : Inet)

/-- A text goes to a buffer with its NUL or not at all. -/
def uvInetNtop (text dst : List UInt8) : Int × List UInt8 :=
  if text.length < dst.length then
    (0, text ++ 0 :: dst.drop (text.length + 1))
  else (uvValue .ENOSPC, dst)

def uvIp4Name (src dst : List UInt8) : Option (Int × List UInt8) := do
  let addr ← field src 4 4
  return uvInetNtop uvValue (inet.text4 addr) dst

def uvIp6Name (src dst : List UInt8) : Option (Int × List UInt8) := do
  let addr ← field src 8 16
  return uvInetNtop uvValue (inet.text6 addr) dst

def uvIpName (src dst : List UInt8) : Option (Int × List UInt8) := do
  let family ← uvSockaddrFamily src
  if family = afInet then uvIp4Name uvValue inet src dst
  else if family = afInet6 then uvIp6Name uvValue inet src dst
  else return (uvValue .EAFNOSUPPORT, dst)

/-- `htons` of an int, of which it takes the lowest 16 bits. -/
def htons (port : Int32) : Nat := ntohs (port.toInt % 2 ^ 16).toNat

/-- The structure that `uv_ip4_addr` fills, or its status. -/
def uvIp4Addr (ip : List UInt8) (port : Int32) : Except Int (List UInt8) :=
  match inet.parse4 (cString ip) with
  | some addr =>
      .ok (littleEndian 2 afInet ++ littleEndian 2 (htons port) ++
        addr.toList ++ List.replicate 8 0)
  | none => .error (uvValue .EINVAL)

def uvIp6Addr (ip : List UInt8) (port : Int32) : Except Int (List UInt8) :=
  match inet.address6 (cString ip) with
  | some (addr, scopeId) =>
      .ok (littleEndian 2 afInet6 ++ littleEndian 2 (htons port) ++
        littleEndian 4 0 ++ addr.toList ++ littleEndian 4 scopeId.toNat)
  | none => .error (uvValue .EINVAL)

end Libuv

section Binding

variable (uvValue : Errno → Int) (inet : Inet)

/-- The body that the three `ip_name` share: the loop up to the first NUL
leaves a buffer without one and aborts. -/
def ipNameWith (uvName : List UInt8 → Option (Int × List UInt8)) :
    Option (Except Errno (List UInt8)) := do
  let (status, bytes) ← uvName (List.replicate ifNamesize 0)
  if status < 0 then return .error (Errno.ofInt uvValue status)
  let length ← CString.strlen bytes
  return .ok (bytes.take length)

/-- `SockaddrIn::ip_name`. -/
def SockaddrIn.ipName (self : List UInt8) :
    Option (Except Errno (List UInt8)) :=
  ipNameWith uvValue (uvIp4Name uvValue inet self)

/-- `SockaddrIn6::ip_name`. -/
def SockaddrIn6.ipName (self : List UInt8) :
    Option (Except Errno (List UInt8)) :=
  ipNameWith uvValue (uvIp6Name uvValue inet self)

/-- `Sockaddr::ip_name`. -/
def Sockaddr.ipName (self : List UInt8) :
    Option (Except Errno (List UInt8)) :=
  ipNameWith uvValue (uvIpName uvValue inet self)

/-- `ip4_addr`. -/
def ip4Addr (ip : List UInt8) (port : Int32) : Except Errno (List UInt8) :=
  (uvIp4Addr uvValue inet ip port).mapError (Errno.ofInt uvValue)

/-- `ip6_addr`. -/
def ip6Addr (ip : List UInt8) (port : Int32) : Except Errno (List UInt8) :=
  (uvIp6Addr uvValue inet ip port).mapError (Errno.ofInt uvValue)

/-- `struct InAddr(UInt)`, the number whose bytes are the address. -/
abbrev InAddr := UInt32

/-- `struct In6Addr(UInt64, UInt64)`. -/
abbrev In6Addr := UInt64 × UInt64

/-- `InAddr::to_bytes`. -/
def InAddr.toBytes (self : InAddr) : List UInt8 := littleEndian 4 self.toNat

/-- `In6Addr::to_bytes`. -/
def In6Addr.toBytes (self : In6Addr) : List UInt8 :=
  littleEndian 8 self.1.toNat ++ littleEndian 8 self.2.toNat

def InAddr.ofBytes (bytes : List UInt8) : InAddr :=
  UInt32.ofNat (ofLittleEndian bytes)

def In6Addr.ofBytes (bytes : List UInt8) : In6Addr :=
  (UInt64.ofNat (ofLittleEndian (bytes.take 8)),
    UInt64.ofNat (ofLittleEndian (bytes.drop 8)))

/-- The body that the two `ntop` share: the text ends at the first NUL, or
with the buffer. -/
def ntopWith (result : Int × List UInt8) : Except Errno (List UInt8) :=
  if result.1 < 0 then .error (Errno.ofInt uvValue result.1)
  else .ok (result.2.take (result.2.findIdx (· == 0)))

/-- `InAddr::ntop`. -/
def InAddr.ntop (self : InAddr) : Except Errno (List UInt8) :=
  ntopWith uvValue (uvInetNtop uvValue (inet.text4 (InAddr.toBytes self))
    (List.replicate inetAddrstrlen 0))

/-- `In6Addr::ntop`. -/
def In6Addr.ntop (self : In6Addr) : Except Errno (List UInt8) :=
  ntopWith uvValue (uvInetNtop uvValue (inet.text6 (In6Addr.toBytes self))
    (List.replicate inet6Addrstrlen 0))

/-- `InAddr::pton`. -/
def InAddr.pton (src : List UInt8) : Except Errno InAddr :=
  match inet.parse4 (cString src) with
  | some addr => .ok (InAddr.ofBytes addr.toList)
  | none => .error (Errno.ofInt uvValue (uvValue .EINVAL))

/-- `In6Addr::pton`. -/
def In6Addr.pton (src : List UInt8) : Except Errno In6Addr :=
  match inet.parse6 (cString src) with
  | some addr => .ok (In6Addr.ofBytes addr.toList)
  | none => .error (Errno.ofInt uvValue (uvValue .EINVAL))

end Binding

/-- The values that have a text. -/
inductive Address where
  | sockaddrIn (self : List UInt8)
  | sockaddrIn6 (self : List UInt8)
  | sockaddr (self : List UInt8)
  | inAddr (self : InAddr)
  | in6Addr (self : In6Addr)
  deriving Repr, DecidableEq

namespace Address

/-- The bytes of an address of IPv4. -/
def addr4 : Address → Option (List UInt8)
  | .sockaddrIn self => uvSockaddrInAddr self
  | .sockaddr self =>
      if uvSockaddrFamily self = some afInet then uvSockaddrInAddr self
      else none
  | .inAddr self => some (InAddr.toBytes self)
  | _ => none

/-- The bytes of an address of IPv6. -/
def addr6 : Address → Option (List UInt8)
  | .sockaddrIn6 self => uvSockaddrIn6Addr self
  | .sockaddr self =>
      if uvSockaddrFamily self = some afInet6 then uvSockaddrIn6Addr self
      else none
  | .in6Addr self => some (In6Addr.toBytes self)
  | _ => none

/-- A structure holds an address, a `Sockaddr` one of the two families. -/
def Valid (address : Address) : Prop :=
  address.addr4.isSome ∨ address.addr6.isSome

/-- `ip_name` or `ntop`. -/
def text (uvValue : Errno → Int) (inet : Inet) :
    Address → Option (Except Errno (List UInt8))
  | .sockaddrIn self => SockaddrIn.ipName uvValue inet self
  | .sockaddrIn6 self => SockaddrIn6.ipName uvValue inet self
  | .sockaddr self => Sockaddr.ipName uvValue inet self
  | .inAddr self => some (InAddr.ntop uvValue inet self)
  | .in6Addr self => some (In6Addr.ntop uvValue inet self)

end Address

section Statement

variable (uvValue : Errno → Int) (inet : Inet)

/-- What libuv documents of an address: the text is a C string, not longer
than the constant says, and is read back. -/
structure Inet.Documents4 (addr : List UInt8) : Prop where
  short : (inet.text4 addr).length < inetAddrstrlen
  noNul : 0 ∉ inet.text4 addr
  parse : (inet.parse4 (inet.text4 addr)).map Vector.toList = some addr

structure Inet.Documents6 (addr : List UInt8) : Prop where
  short : (inet.text6 addr).length < inet6Addrstrlen
  noNul : 0 ∉ inet.text6 addr
  parse : (inet.parse6 (inet.text6 addr)).map Vector.toList = some addr
  address : (inet.address6 (inet.text6 addr)).map
    (fun found => found.1.toList) = some addr

def Address.Documented (address : Address) : Prop :=
  (∀ addr, address.addr4 = some addr → inet.Documents4 addr) ∧
    ∀ addr, address.addr6 = some addr → inet.Documents6 addr

/-- Every parser of IPv4 reads the bytes from the text. -/
def Reads4 (text addr : List UInt8) : Prop :=
  (∀ port, ∃ back, ip4Addr uvValue inet text port = .ok back ∧
    uvSockaddrInAddr back = some addr) ∧
  ∃ back, InAddr.pton uvValue inet text = .ok back ∧
    InAddr.toBytes back = addr

def Reads6 (text addr : List UInt8) : Prop :=
  (∀ port, ∃ back, ip6Addr uvValue inet text port = .ok back ∧
    uvSockaddrIn6Addr back = some addr) ∧
  ∃ back, In6Addr.pton uvValue inet text = .ok back ∧
    In6Addr.toBytes back = addr

/-- The text comes, and the address with it. -/
def Address.RoundTrips (address : Address) : Prop :=
  ∃ text, address.text uvValue inet = some (.ok text) ∧
    (∀ addr, address.addr4 = some addr → Reads4 uvValue inet text addr) ∧
    (∀ addr, address.addr6 = some addr → Reads6 uvValue inet text addr) ∧
    (∀ self, address = .inAddr self → InAddr.pton uvValue inet text = .ok self) ∧
    ∀ self, address = .in6Addr self → In6Addr.pton uvValue inet text = .ok self

/-- The texts that `ip_name` has room for. -/
def Address.Fits : Address → Prop
  | .sockaddrIn6 self => ∀ addr, (Address.sockaddrIn6 self).addr6 = some addr →
      (inet.text6 addr).length < ifNamesize
  | .sockaddr self => ∀ addr, (Address.sockaddr self).addr6 = some addr →
      (inet.text6 addr).length < ifNamesize
  | _ => True

end Statement

section Proofs

variable {uvValue : Errno → Int} {inet : Inet}

theorem cString_of_noNul {text : List UInt8} (hnoNul : 0 ∉ text) :
    cString text = text := by
  rw [cString, List.takeWhile_eq_self_iff]
  intro byte hbyte
  rw [bne_iff_ne]
  rintro rfl
  exact hnoNul hbyte

theorem uvInetNtop_fits {text : List UInt8} {size : Nat}
    (hfits : text.length < size) :
    uvInetNtop uvValue text (List.replicate size 0) =
      (0, text ++ 0 :: List.replicate (size - (text.length + 1)) 0) := by
  rw [uvInetNtop, List.length_replicate, if_pos hfits, List.drop_replicate]

theorem uvInetNtop_long {text : List UInt8} {size : Nat}
    (hlong : size ≤ text.length) :
    uvInetNtop uvValue text (List.replicate size 0) =
      (uvValue .ENOSPC, List.replicate size 0) := by
  rw [uvInetNtop, List.length_replicate, if_neg (Nat.not_lt.mpr hlong)]

/-- `ip_name` returns a text that fits its buffer. -/
theorem ipNameWith_fits {uvName : List UInt8 → Option (Int × List UInt8)}
    {text : List UInt8}
    (hname : ∀ dst, uvName dst = some (uvInetNtop uvValue text dst))
    (hnoNul : 0 ∉ text) (hfits : text.length < ifNamesize) :
    ipNameWith uvValue uvName = some (.ok text) := by
  rw [ipNameWith, hname, uvInetNtop_fits hfits]
  simp only [Option.bind_eq_bind, Option.bind_some, lt_irrefl, if_false,
    CString.strlen_append _ _ hnoNul, List.take_left]
  rfl

/-- `ip_name` raises on a text that does not. -/
theorem ipNameWith_long {uvName : List UInt8 → Option (Int × List UInt8)}
    {text : List UInt8}
    (hname : ∀ dst, uvName dst = some (uvInetNtop uvValue text dst))
    (herror : uvValue .ENOSPC < 0) (hlong : ifNamesize ≤ text.length) :
    ipNameWith uvValue uvName =
      some (.error (Errno.ofInt uvValue (uvValue .ENOSPC))) := by
  rw [ipNameWith, hname, uvInetNtop_long hlong]
  simp only [Option.bind_eq_bind, Option.bind_some, herror, if_true]
  rfl

theorem findIdx_append_nul {text : List UInt8} (hnoNul : 0 ∉ text)
    (rest : List UInt8) :
    (text ++ 0 :: rest).findIdx (· == 0) = text.length := by
  have hnone : text.findIdx (· == 0) = text.length := by
    apply List.findIdx_eq_length_of_false
    intro byte hbyte
    rw [beq_eq_false_iff_ne]
    rintro rfl
    exact hnoNul hbyte
  rw [List.findIdx_append, hnone, if_neg (lt_irrefl _), List.findIdx_cons]
  exact Nat.zero_add _

/-- `ntop` has room for every text. -/
theorem ntopWith_fits {text : List UInt8} {size : Nat} (hnoNul : 0 ∉ text)
    (hfits : text.length < size) :
    ntopWith uvValue (uvInetNtop uvValue text (List.replicate size 0)) =
      .ok text := by
  rw [uvInetNtop_fits hfits, ntopWith, if_neg (lt_irrefl 0),
    findIdx_append_nul hnoNul, List.take_left]

theorem InAddr.toBytes_ofBytes {bytes : List UInt8} (hlength : bytes.length = 4) :
    InAddr.toBytes (InAddr.ofBytes bytes) = bytes := by
  have hpow : 256 ^ 4 = 2 ^ 32 := by norm_num
  have hlt := ofLittleEndian_lt bytes
  rw [hlength, hpow] at hlt
  have hnumber := littleEndian_ofLittleEndian bytes
  rw [hlength] at hnumber
  rw [InAddr.toBytes, InAddr.ofBytes, UInt32.toNat_ofNat',
    Nat.mod_eq_of_lt hlt, hnumber]

theorem InAddr.ofBytes_toBytes (self : InAddr) :
    InAddr.ofBytes (InAddr.toBytes self) = self := by
  have hlt : self.toNat < 256 ^ 4 := self.toNat_lt
  rw [InAddr.toBytes, InAddr.ofBytes, ofLittleEndian_littleEndian_of_lt hlt,
    UInt32.ofNat_toNat]

theorem In6Addr.toBytes_ofBytes {bytes : List UInt8}
    (hlength : bytes.length = 16) :
    In6Addr.toBytes (In6Addr.ofBytes bytes) = bytes := by
  have hhalf : ∀ half : List UInt8, half.length = 8 →
      littleEndian 8 (UInt64.ofNat (ofLittleEndian half)).toNat = half := by
    intro half hhalf
    have hpow : 256 ^ 8 = 2 ^ 64 := by norm_num
    have hlt := ofLittleEndian_lt half
    rw [hhalf, hpow] at hlt
    have hnumber := littleEndian_ofLittleEndian half
    rw [hhalf] at hnumber
    rw [UInt64.toNat_ofNat', Nat.mod_eq_of_lt hlt, hnumber]
  rw [In6Addr.toBytes, In6Addr.ofBytes, hhalf _ (by simp [hlength]),
    hhalf _ (by simp [hlength]), List.take_append_drop]

theorem In6Addr.ofBytes_toBytes (self : In6Addr) :
    In6Addr.ofBytes (In6Addr.toBytes self) = self := by
  have hfirst : self.1.toNat < 256 ^ 8 := self.1.toNat_lt
  have hsecond : self.2.toNat < 256 ^ 8 := self.2.toNat_lt
  rw [In6Addr.toBytes, In6Addr.ofBytes,
    List.take_left' (length_littleEndian 8 self.1.toNat),
    List.drop_left' (length_littleEndian 8 self.1.toNat),
    ofLittleEndian_littleEndian_of_lt hfirst,
    ofLittleEndian_littleEndian_of_lt hsecond, UInt64.ofNat_toNat,
    UInt64.ofNat_toNat]

theorem ip4Addr_eq {ip : List UInt8} {found : Vector UInt8 4}
    (hparse : inet.parse4 (cString ip) = some found) (port : Int32) :
    ip4Addr uvValue inet ip port =
      .ok (littleEndian 2 afInet ++ littleEndian 2 (htons port) ++
        found.toList ++ List.replicate 8 0) := by
  rw [ip4Addr, uvIp4Addr, hparse]
  rfl

theorem ip6Addr_eq {ip : List UInt8} {found : Vector UInt8 16}
    {scopeId : UInt32}
    (haddress : inet.address6 (cString ip) = some (found, scopeId))
    (port : Int32) :
    ip6Addr uvValue inet ip port =
      .ok (littleEndian 2 afInet6 ++ littleEndian 2 (htons port) ++
        littleEndian 4 0 ++ found.toList ++
        littleEndian 4 scopeId.toNat) := by
  rw [ip6Addr, uvIp6Addr, haddress]
  rfl

theorem Inet.Documents4.pton {addr : List UInt8}
    (hdocuments : inet.Documents4 addr) :
    InAddr.pton uvValue inet (inet.text4 addr) = .ok (InAddr.ofBytes addr) := by
  obtain ⟨found, hparse, rfl⟩ := Option.map_eq_some_iff.mp hdocuments.parse
  rw [InAddr.pton, cString_of_noNul hdocuments.noNul, hparse]

theorem Inet.Documents4.reads {addr : List UInt8}
    (hdocuments : inet.Documents4 addr) :
    Reads4 uvValue inet (inet.text4 addr) addr := by
  obtain ⟨found, hparse, hfound⟩ := Option.map_eq_some_iff.mp hdocuments.parse
  constructor
  · intro port
    rw [← cString_of_noNul hdocuments.noNul] at hparse
    refine ⟨_, ip4Addr_eq hparse port, ?_⟩
    rw [← hfound]
    exact field_append _ _ _ (by simp) (by simp)
  · refine ⟨InAddr.ofBytes addr, hdocuments.pton, ?_⟩
    exact InAddr.toBytes_ofBytes (by rw [← hfound, found.length_toList])

theorem Inet.Documents6.pton {addr : List UInt8}
    (hdocuments : inet.Documents6 addr) :
    In6Addr.pton uvValue inet (inet.text6 addr) =
      .ok (In6Addr.ofBytes addr) := by
  obtain ⟨found, hparse, rfl⟩ := Option.map_eq_some_iff.mp hdocuments.parse
  rw [In6Addr.pton, cString_of_noNul hdocuments.noNul, hparse]

theorem Inet.Documents6.reads {addr : List UInt8}
    (hdocuments : inet.Documents6 addr) :
    Reads6 uvValue inet (inet.text6 addr) addr := by
  obtain ⟨⟨found, scopeId⟩, haddress, hfound⟩ :=
    Option.map_eq_some_iff.mp hdocuments.address
  constructor
  · intro port
    rw [← cString_of_noNul hdocuments.noNul] at haddress
    refine ⟨_, ip6Addr_eq haddress port, ?_⟩
    rw [← hfound]
    exact field_append _ _ _ (by simp) (by simp)
  · refine ⟨In6Addr.ofBytes addr, hdocuments.pton, ?_⟩
    exact In6Addr.toBytes_ofBytes (by rw [← hfound, found.length_toList])

/-- A `Sockaddr` has the text of its family. -/
theorem Sockaddr.ipName_inet {self : List UInt8}
    (hfamily : uvSockaddrFamily self = some afInet) :
    Sockaddr.ipName uvValue inet self = SockaddrIn.ipName uvValue inet self := by
  rw [Sockaddr.ipName, SockaddrIn.ipName, ipNameWith, ipNameWith, uvIpName,
    hfamily]
  rfl

theorem Sockaddr.ipName_inet6 {self : List UInt8}
    (hfamily : uvSockaddrFamily self = some afInet6) :
    Sockaddr.ipName uvValue inet self =
      SockaddrIn6.ipName uvValue inet self := by
  rw [Sockaddr.ipName, SockaddrIn6.ipName, ipNameWith, ipNameWith, uvIpName,
    hfamily]
  rfl

theorem SockaddrIn.ipName_eq {self addr : List UInt8}
    (haddr : uvSockaddrInAddr self = some addr)
    (hdocuments : inet.Documents4 addr) :
    SockaddrIn.ipName uvValue inet self = some (.ok (inet.text4 addr)) := by
  apply ipNameWith_fits _ hdocuments.noNul
  · exact lt_trans hdocuments.short (by decide)
  · intro dst
    rw [uvSockaddrInAddr] at haddr
    rw [uvIp4Name, haddr]
    rfl

theorem SockaddrIn6.ipName_eq {self addr : List UInt8}
    (haddr : uvSockaddrIn6Addr self = some addr)
    (hdocuments : inet.Documents6 addr)
    (herror : uvValue .ENOSPC < 0) :
    SockaddrIn6.ipName uvValue inet self =
      some (if (inet.text6 addr).length < ifNamesize then
        .ok (inet.text6 addr)
      else .error (Errno.ofInt uvValue (uvValue .ENOSPC))) := by
  have hname : ∀ dst, uvIp6Name uvValue inet self dst =
      some (uvInetNtop uvValue (inet.text6 addr) dst) := by
    intro dst
    rw [uvSockaddrIn6Addr] at haddr
    rw [uvIp6Name, haddr]
    rfl
  by_cases hfits : (inet.text6 addr).length < ifNamesize
  · rw [if_pos hfits]
    exact ipNameWith_fits hname hdocuments.noNul hfits
  · rw [if_neg hfits]
    exact ipNameWith_long hname herror (Nat.not_lt.mp hfits)

namespace Address

variable {address : Address} {addr : List UInt8}

/-- An address of IPv4 whose text comes round-trips. -/
theorem roundTrips_of_text4 (haddr4 : address.addr4 = some addr)
    (haddr6 : address.addr6 = none) (hdocuments : inet.Documents4 addr)
    (htext : address.text uvValue inet = some (.ok (inet.text4 addr))) :
    address.RoundTrips uvValue inet := by
  refine ⟨inet.text4 addr, htext, ?_, ?_, ?_, ?_⟩
  · intro bytes hbytes
    rw [haddr4, Option.some.injEq] at hbytes
    rw [← hbytes]
    exact hdocuments.reads
  · intro bytes hbytes
    rw [haddr6] at hbytes
    cases hbytes
  · rintro self rfl
    cases haddr4
    rw [hdocuments.pton, InAddr.ofBytes_toBytes]
  · rintro self rfl
    cases haddr6

theorem roundTrips_of_text6 (haddr4 : address.addr4 = none)
    (haddr6 : address.addr6 = some addr) (hdocuments : inet.Documents6 addr)
    (htext : address.text uvValue inet = some (.ok (inet.text6 addr))) :
    address.RoundTrips uvValue inet := by
  refine ⟨inet.text6 addr, htext, ?_, ?_, ?_, ?_⟩
  · intro bytes hbytes
    rw [haddr4] at hbytes
    cases hbytes
  · intro bytes hbytes
    rw [haddr6, Option.some.injEq] at hbytes
    rw [← hbytes]
    exact hdocuments.reads
  · rintro self rfl
    cases haddr4
  · rintro self rfl
    cases haddr6
    rw [hdocuments.pton, In6Addr.ofBytes_toBytes]

/-- Where `ip_name` is asked for the text, it needs the room. -/
theorem roundTrips_iff_fits (haddr4 : address.addr4 = none)
    (haddr6 : address.addr6 = some addr) (hdocuments : inet.Documents6 addr)
    (htext : address.text uvValue inet =
      some (if (inet.text6 addr).length < ifNamesize then
        .ok (inet.text6 addr)
      else .error (Errno.ofInt uvValue (uvValue .ENOSPC)))) :
    address.RoundTrips uvValue inet ↔
      ∀ bytes, address.addr6 = some bytes →
        (inet.text6 bytes).length < ifNamesize := by
  simp only [haddr6, Option.some.injEq, forall_eq']
  constructor
  · rintro ⟨text, hcomes, -⟩
    by_contra hlong
    rw [htext, if_neg hlong] at hcomes
    cases hcomes
  · intro hfits
    rw [if_pos hfits] at htext
    exact roundTrips_of_text6 haddr4 haddr6 hdocuments htext

/-- A `Sockaddr` of IPv4 has no address of IPv6, and the other way round. -/
theorem sockaddr_cases {self : List UInt8}
    (hvalid : (Address.sockaddr self).Valid) :
    (uvSockaddrFamily self = some afInet ∧
      (Address.sockaddr self).addr6 = none ∧
      ∃ addr, (Address.sockaddr self).addr4 = some addr ∧
        uvSockaddrInAddr self = some addr) ∨
    (uvSockaddrFamily self = some afInet6 ∧
      (Address.sockaddr self).addr4 = none ∧
      ∃ addr, (Address.sockaddr self).addr6 = some addr ∧
        uvSockaddrIn6Addr self = some addr) := by
  simp only [Valid, addr4, addr6] at hvalid ⊢
  by_cases hfamily : uvSockaddrFamily self = some afInet
  · have hother : ¬(some afInet = some afInet6) := by decide
    rw [hfamily, if_pos rfl, if_neg hother, Option.isSome_none] at hvalid
    rw [hfamily, if_pos rfl, if_neg hother]
    left
    obtain ⟨addr, haddr⟩ :=
      Option.isSome_iff_exists.mp (hvalid.resolve_right Bool.false_ne_true)
    exact ⟨rfl, rfl, addr, haddr, haddr⟩
  · rw [if_neg hfamily, Option.isSome_none] at hvalid
    have hsome := hvalid.resolve_left Bool.false_ne_true
    split at hsome
    · rename_i hfamily6
      right
      rw [if_neg hfamily, if_pos hfamily6]
      obtain ⟨addr, haddr⟩ := Option.isSome_iff_exists.mp hsome
      exact ⟨hfamily6, rfl, addr, haddr, haddr⟩
    · cases hsome

theorem sockaddr_roundTrips_iff {self : List UInt8}
    (herror : uvValue .ENOSPC < 0) (hvalid : (Address.sockaddr self).Valid)
    (hdocumented : (Address.sockaddr self).Documented inet) :
    (Address.sockaddr self).RoundTrips uvValue inet ↔
      (Address.sockaddr self).Fits inet := by
  rcases sockaddr_cases hvalid with
    ⟨hfamily, haddr6, addr, haddr4, haddr⟩ |
    ⟨hfamily, haddr4, addr, haddr6, haddr⟩
  · have hdocuments := hdocumented.1 addr haddr4
    apply iff_of_true
    · apply roundTrips_of_text4 haddr4 haddr6 hdocuments
      exact (Sockaddr.ipName_inet hfamily).trans
        (SockaddrIn.ipName_eq haddr hdocuments)
    · intro bytes hbytes
      rw [haddr6] at hbytes
      cases hbytes
  · have hdocuments := hdocumented.2 addr haddr6
    apply roundTrips_iff_fits haddr4 haddr6 hdocuments
    exact (Sockaddr.ipName_inet6 hfamily).trans
      (SockaddrIn6.ipName_eq haddr hdocuments herror)

end Address

end Proofs

/-- An address comes back from its text exactly if it need not go through an
`ip_name` that has no room for the text. -/
theorem address_roundTrips_iff (uvValue : Errno → Int) (inet : Inet)
    (herror : uvValue .ENOSPC < 0) (address : Address) (hvalid : address.Valid)
    (hdocumented : address.Documented inet) :
    address.RoundTrips uvValue inet ↔ address.Fits inet := by
  cases address with
  | sockaddrIn self =>
      obtain ⟨addr, haddr⟩ := Option.isSome_iff_exists.mp
        (hvalid.resolve_right Bool.false_ne_true)
      have hdocuments := hdocumented.1 addr haddr
      apply iff_of_true _ trivial
      exact Address.roundTrips_of_text4 haddr rfl hdocuments
        (SockaddrIn.ipName_eq haddr hdocuments)
  | sockaddrIn6 self =>
      obtain ⟨addr, haddr⟩ := Option.isSome_iff_exists.mp
        (hvalid.resolve_left Bool.false_ne_true)
      have hdocuments := hdocumented.2 addr haddr
      exact Address.roundTrips_iff_fits rfl haddr hdocuments
        (SockaddrIn6.ipName_eq haddr hdocuments herror)
  | sockaddr self =>
      exact Address.sockaddr_roundTrips_iff herror hvalid hdocumented
  | inAddr self =>
      have hdocuments := hdocumented.1 _ rfl
      apply iff_of_true _ trivial
      apply Address.roundTrips_of_text4 rfl rfl hdocuments
      rw [Address.text, InAddr.ntop,
        ntopWith_fits hdocuments.noNul hdocuments.short]
  | in6Addr self =>
      have hdocuments := hdocumented.2 _ rfl
      apply iff_of_true _ trivial
      apply Address.roundTrips_of_text6 rfl rfl hdocuments
      rw [Address.text, In6Addr.ntop,
        ntopWith_fits hdocuments.noNul hdocuments.short]

namespace AddressWitness

def ascii (text : List Char) : List UInt8 :=
  text.map (fun char => UInt8.ofNat char.toNat)

theorem size_loopback : #[(127 : UInt8), 0, 0, 1].size = 4 := rfl

/-- `127.0.0.1`. -/
def loopback : Vector UInt8 4 := ⟨#[127, 0, 0, 1], size_loopback⟩

def loopbackText : List UInt8 := ascii [
    '1', '2', '7', '.', '0', '.', '0', '.', '1']

/-- `2001:db8:85a3:8d3:1319:8a2e:370:7348`. -/
def global : Vector UInt8 16 :=
  #v[0x20, 0x01, 0x0d, 0xb8, 0x85, 0xa3, 0x08, 0xd3,
    0x13, 0x19, 0x8a, 0x2e, 0x03, 0x70, 0x73, 0x48]

def globalText : List UInt8 := ascii [
    '2', '0', '0', '1', ':', 'd', 'b', '8', ':', '8', '5', 'a', '3', ':', '8',
    'd', '3', ':', '1', '3', '1', '9', ':', '8', 'a', '2', 'e', ':', '3', '7',
    '0', ':', '7', '3', '4', '8']

/-- The text of the two addresses. -/
def sample : Inet where
  text4 := fun _ => loopbackText
  text6 := fun _ => globalText
  parse4 := fun text => if text = loopbackText then some loopback else none
  parse6 := fun text => if text = globalText then some global else none
  address6 := fun text =>
    if text = globalText then some (global, 0) else none

/-- The structures that hold them. -/
def loopbackAddr : List UInt8 :=
  (SenderAddress.SockaddrIn.mk 8080 loopback (Vector.replicate 8 0)).bytes

def globalAddr : List UInt8 :=
  (SenderAddress.SockaddrIn6.mk 8080 0 global 0).bytes

theorem loopback_documents : sample.Documents4 loopback.toList where
  short := by decide
  noNul := by decide
  parse := by decide

theorem loopback_documented :
    (Address.sockaddrIn loopbackAddr).Documented sample := by
  refine ⟨?_, ?_⟩
  · rintro addr haddr
    cases haddr
    exact loopback_documents
  · rintro addr haddr
    cases haddr

theorem global_documents : sample.Documents6 global.toList where
  short := by decide
  noNul := by decide
  parse := by decide
  address := by decide

theorem global_documented :
    (Address.sockaddrIn6 globalAddr).Documented sample := by
  refine ⟨?_, ?_⟩
  · rintro addr haddr
    cases haddr
  · rintro addr haddr
    cases haddr
    exact global_documents

end AddressWitness

open AddressWitness in
theorem address_roundTrips_loopback :
    (Address.sockaddrIn loopbackAddr).RoundTrips Errno.linuxValue sample ↔
      (Address.sockaddrIn loopbackAddr).Fits sample :=
  address_roundTrips_iff Errno.linuxValue sample (by decide) _
    (Or.inl (by decide)) loopback_documented

open AddressWitness in
/-- The text of most addresses of IPv6 is longer than the name of an
interface. -/
theorem global_name_raises :
    (Address.sockaddrIn6 globalAddr).Valid ∧
      (Address.sockaddrIn6 globalAddr).Documented sample ∧
      SockaddrIn6.ipName Errno.linuxValue sample globalAddr =
        some (.error .ENOSPC) ∧
      ¬(Address.sockaddrIn6 globalAddr).RoundTrips Errno.linuxValue sample := by
  have hraises : SockaddrIn6.ipName Errno.linuxValue sample globalAddr =
      some (.error .ENOSPC) := by
    rfl
  refine ⟨Or.inr (by decide), global_documented, hraises, ?_⟩
  rintro ⟨text, htext, -⟩
  rw [Address.text, hraises] at htext
  cases htext

end UvMbt
