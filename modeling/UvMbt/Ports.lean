/-
The port that goes into an address and the port that is read from it.
-/
import UvMbt.AddressText

set_option autoImplicit false

namespace UvMbt.Ports

open ByteOrder
open UdpReceive (afInet afInet6)
open SenderAddress (ntohs ntohs_ntohs toUInt16 uvSockaddrInPort uvSockaddrIn6Port
  uvSockaddrFamily_append)

section Accessors

/-- `Int16::from_int(port.reinterpret_as_int()).reinterpret_as_uint16()`. -/
def reinterpret (port : Nat) : UInt16 :=
  (UInt32.ofNat port).toInt32.toInt16.toUInt16

/-- `SockaddrIn::port`. -/
def SockaddrIn.port (self : List UInt8) : Option UInt16 :=
  (uvSockaddrInPort self).map reinterpret

/-- `SockaddrIn6::port`. -/
def SockaddrIn6.port (self : List UInt8) : Option UInt16 :=
  (uvSockaddrIn6Port self).map reinterpret

/-- `to_sockaddr`, an identity of either type. -/
def toSockaddr (self : List UInt8) : List UInt8 := self

end Accessors

/-- The two address families. -/
inductive Family where
  | inet | inet6
  deriving Repr, DecidableEq

namespace Family

/-- `ip4_addr` and `ip6_addr`. -/
def addr (uvValue : Errno → Int) (inet : Inet) :
    Family → List UInt8 → Int32 → Except Errno (List UInt8)
  | .inet => ip4Addr uvValue inet
  | .inet6 => ip6Addr uvValue inet

def port : Family → List UInt8 → Option UInt16
  | .inet => SockaddrIn.port
  | .inet6 => SockaddrIn6.port

def ofSockaddr : Family → List UInt8 → Option (Option (List UInt8))
  | .inet => SenderAddress.SockaddrIn.ofSockaddr
  | .inet6 => SenderAddress.SockaddrIn6.ofSockaddr

/-- What libuv calls the family. -/
def code : Family → Nat
  | .inet => afInet
  | .inet6 => afInet6

/-- The text is one that libuv reads. -/
def Reads (inet : Inet) (ip : List UInt8) : Family → Prop
  | .inet => (inet.parse4 (cString ip)).isSome
  | .inet6 => (inet.address6 (cString ip)).isSome

end Family

/-- The port that an address has once it went to a `Sockaddr` and back. -/
def portBack (family : Family) (addr : List UInt8) : Option UInt16 := do
  match ← family.ofSockaddr (toSockaddr addr) with
  | some addr => family.port addr
  | none => none

/-- Whatever address the call returns has the port that was asked for, and a
port that no address can have makes it raise. -/
def Faithful (uvValue : Errno → Int) (inet : Inet) (family : Family)
    (ip : List UInt8) (port : Int32) : Prop :=
  (∀ addr, family.addr uvValue inet ip port = .ok addr →
    (∃ found, family.port addr = some found ∧
      (found.toNat : Int) = port.toInt) ∧
    ∃ found, portBack family addr = some found ∧
      (found.toNat : Int) = port.toInt) ∧
  (¬(0 ≤ port.toInt ∧ port.toInt < 2 ^ 16) →
    ∃ error, family.addr uvValue inet ip port = .error error)

section Swaps

/-- The reinterpretations keep the lowest 16 bits. -/
theorem reinterpret_toNat (port : Nat) :
    (reinterpret port).toNat = toUInt16 port := by
  rw [toUInt16, reinterpret]
  simp

theorem ntohs_lt (value : Nat) : ntohs value < 2 ^ 16 := by
  rw [ntohs]
  omega

/-- The lowest 16 bits of an `Int`. -/
def lowest (port : Int32) : Nat := (port.toInt % 2 ^ 16).toNat

theorem lowest_lt (port : Int32) : lowest port < 2 ^ 16 := by
  rw [lowest]
  omega

theorem lowest_eq_iff (port : Int32) :
    (lowest port : Int) = port.toInt ↔
      0 ≤ port.toInt ∧ port.toInt < 2 ^ 16 := by
  rw [lowest]
  omega

/-- The field behind the family gives back what was stored. -/
theorem field_htons (family : Nat) (port : Int32) (rest : List UInt8) :
    (field (littleEndian 2 family ++ littleEndian 2 (htons port) ++ rest)
        2 2).map (fun bytes => ntohs (ofLittleEndian bytes)) =
      some (lowest port) := by
  have hhtons : htons port < 256 ^ 2 := ntohs_lt (lowest port)
  rw [field_append (littleEndian 2 family) _ rest (by simp) (by simp),
    Option.map_some, ofLittleEndian_littleEndian_of_lt hhtons]
  exact congrArg some (ntohs_ntohs (lowest_lt port))

end Swaps

section Calls

variable {uvValue : Errno → Int} {inet : Inet} {ip : List UInt8}
  {family : Family}

/-- The port does not decide whether the call returns. -/
theorem Family.addr_reads (hreads : family.Reads inet ip) :
    ∃ rest, ∀ port, family.addr uvValue inet ip port =
      .ok (littleEndian 2 family.code ++ littleEndian 2 (htons port) ++
        rest) := by
  cases family with
  | inet =>
      obtain ⟨found, hparse⟩ := Option.isSome_iff_exists.1 hreads
      refine ⟨found.toList ++ List.replicate 8 0, fun port => ?_⟩
      rw [← List.append_assoc]
      exact ip4Addr_eq hparse port
  | inet6 =>
      obtain ⟨⟨found, scopeId⟩, haddress⟩ := Option.isSome_iff_exists.1 hreads
      refine ⟨littleEndian 4 0 ++ found.toList ++
        littleEndian 4 scopeId.toNat, fun port => ?_⟩
      rw [← List.append_assoc, ← List.append_assoc]
      exact ip6Addr_eq haddress port

theorem Family.addr_raises (hreads : ¬family.Reads inet ip) (port : Int32) :
    family.addr uvValue inet ip port =
      .error (Errno.ofInt uvValue (uvValue .EINVAL)) := by
  cases family with
  | inet =>
      have hparse : inet.parse4 (cString ip) = none :=
        Option.not_isSome_iff_eq_none.1 hreads
      rw [Family.addr, ip4Addr, uvIp4Addr, hparse]
      rfl
  | inet6 =>
      have haddress : inet.address6 (cString ip) = none :=
        Option.not_isSome_iff_eq_none.1 hreads
      rw [Family.addr, ip6Addr, uvIp6Addr, haddress]
      rfl

theorem Family.code_lt (family : Family) : family.code < 2 ^ 16 := by
  cases family <;> decide

/-- What an address of the family begins with. -/
theorem Family.port_addr (family : Family) (port : Int32) (rest : List UInt8) :
    ∃ found, family.port (littleEndian 2 family.code ++
        littleEndian 2 (htons port) ++ rest) = some found ∧
      found.toNat = lowest port := by
  have hlowest : (reinterpret (lowest port)).toNat = lowest port := by
    rw [reinterpret_toNat]
    exact Nat.mod_eq_of_lt (lowest_lt port)
  refine ⟨reinterpret (lowest port), ?_, hlowest⟩
  cases family with
  | inet =>
      exact congrArg (Option.map reinterpret) (field_htons afInet port rest)
  | inet6 =>
      exact congrArg (Option.map reinterpret) (field_htons afInet6 port rest)

theorem Family.ofSockaddr_addr (family : Family) (rest : List UInt8) :
    family.ofSockaddr (littleEndian 2 family.code ++ rest) =
      some (some (littleEndian 2 family.code ++ rest)) := by
  have hfamily := uvSockaddrFamily_append family.code_lt rest
  cases family with
  | inet =>
      rw [Family.ofSockaddr, SenderAddress.SockaddrIn.ofSockaddr, hfamily]
      rfl
  | inet6 =>
      rw [Family.ofSockaddr, SenderAddress.SockaddrIn6.ofSockaddr, hfamily]
      rfl

theorem portBack_addr (family : Family) (rest : List UInt8) :
    portBack family (littleEndian 2 family.code ++ rest) =
      family.port (littleEndian 2 family.code ++ rest) := by
  rw [portBack, toSockaddr, family.ofSockaddr_addr]
  rfl

/-- The port that is read is the one modulo 65536. -/
theorem port_addr_lowest {port : Int32} {addr : List UInt8}
    (haddr : family.addr uvValue inet ip port = .ok addr) :
    ∃ found, family.port addr = some found ∧ portBack family addr = some found ∧
      found.toNat = lowest port := by
  by_cases hreads : family.Reads inet ip
  · obtain ⟨rest, hform⟩ := @Family.addr_reads uvValue inet ip family hreads
    rw [hform port] at haddr
    cases haddr
    obtain ⟨found, hport, hfound⟩ := family.port_addr port rest
    refine ⟨found, hport, ?_, hfound⟩
    rw [List.append_assoc, portBack_addr, ← List.append_assoc]
    exact hport
  · rw [Family.addr_raises hreads] at haddr
    cases haddr

/-- Exactly the ports of 16 bits are kept, unless the text is no address. -/
theorem faithful_iff (uvValue : Errno → Int) (inet : Inet) (family : Family)
    (ip : List UInt8) (port : Int32) :
    Faithful uvValue inet family ip port ↔
      0 ≤ port.toInt ∧ port.toInt < 2 ^ 16 ∨ ¬family.Reads inet ip := by
  constructor
  · rintro ⟨hports, -⟩
    by_cases hreads : family.Reads inet ip
    · obtain ⟨rest, hform⟩ := @Family.addr_reads uvValue inet ip family hreads
      obtain ⟨⟨found, hport, hsame⟩, -⟩ := hports _ (hform port)
      obtain ⟨found', hport', hlowest⟩ := family.port_addr port rest
      cases hport.symm.trans hport'
      rw [hlowest] at hsame
      exact .inl ((lowest_eq_iff port).1 hsame)
    · exact .inr hreads
  · rintro (hrange | hreads)
    · refine ⟨fun addr haddr => ?_, fun hout => absurd hrange hout⟩
      obtain ⟨found, hport, hback, hfound⟩ := port_addr_lowest haddr
      have hsame : (found.toNat : Int) = port.toInt := by
        rw [hfound]
        exact (lowest_eq_iff port).2 hrange
      exact ⟨⟨found, hport, hsame⟩, found, hback, hsame⟩
    · have hraises := @Family.addr_raises uvValue inet ip family hreads port
      refine ⟨fun addr haddr => ?_, fun _ => ⟨_, hraises⟩⟩
      rw [hraises] at haddr
      cases haddr

/-- Two ports give one address when, of a text that is read, their lowest 16
bits agree. -/
theorem addr_eq_iff {left right : Int32} (hreads : family.Reads inet ip) :
    family.addr uvValue inet ip left = family.addr uvValue inet ip right ↔
      lowest left = lowest right := by
  obtain ⟨rest, hform⟩ := @Family.addr_reads uvValue inet ip family hreads
  constructor
  · intro hsame
    obtain ⟨found, hport, -, hfound⟩ := port_addr_lowest (hform left)
    obtain ⟨found', hport', -, hfound'⟩ :=
      port_addr_lowest (hsame.symm.trans (hform left))
    cases hport.symm.trans hport'
    exact hfound.symm.trans hfound'
  · intro hsame
    have hhtons : htons left = htons right := congrArg ntohs hsame
    rw [hform, hform, hhtons]

open AddressWitness in
/-- The port 65616 becomes 80. -/
theorem port_reduced :
    ∃ addr, ip4Addr Errno.linuxValue sample loopbackText 65616 = .ok addr ∧
      SockaddrIn.port addr = some 80 ∧
      ¬Faithful Errno.linuxValue sample .inet loopbackText 65616 := by
  have haddr : ip4Addr Errno.linuxValue sample loopbackText 65616 =
      .ok (SenderAddress.SockaddrIn.mk 80 loopback
        (Vector.replicate 8 0)).bytes := by
    decide
  have hport : SockaddrIn.port (SenderAddress.SockaddrIn.mk 80 loopback
      (Vector.replicate 8 0)).bytes = some 80 := by
    decide
  refine ⟨_, haddr, hport, fun hfaithful => ?_⟩
  obtain ⟨⟨found, hfound, hsame⟩, -⟩ := hfaithful.1 _ haddr
  cases hport.symm.trans hfound
  exact absurd hsame (by decide)

end Calls

end UvMbt.Ports
