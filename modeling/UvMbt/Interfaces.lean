/-
The addresses of the network interfaces: the array that libuv allocates, the
copies the program gets of its entries, and the text of a physical address.
-/
import UvMbt.BitFields
import UvMbt.Errno
import UvMbt.HexText
import UvMbt.Outcome
import UvMbt.Snapshots

set_option autoImplicit false

namespace UvMbt.Interfaces

open ForeignBlocks

/-- `uv_interface_address_t`. -/
structure Interface where
  name : Snapshots.Name
  physAddr : Vector UInt8 6
  isInternal : Int
  address : List UInt8
  netmask : List UInt8

structure InterfaceAddress where
  name : List UInt8
  physAddr : UInt64
  isInternal : Bool
  address : List UInt8
  netmask : List UInt8
  deriving Repr, DecidableEq

inductive Fault where
  | store (fault : ForeignBlocks.Fault)
  | text (fault : Marshalling.Fault)
  | nullPointer
  | outOfBounds

/-- No object of the heap takes part. -/
abbrev Memory := Store Empty (List Interface)

section PhysAddr

/-- `moonbit_uv_interface_address_phys_addr`. -/
def physAddr (bytes : Vector UInt8 6) : UInt64 :=
  (0 : UInt64) ||| bytes[0].toUInt64 <<< 40 ||| bytes[1].toUInt64 <<< 32 |||
    bytes[2].toUInt64 <<< 24 ||| bytes[3].toUInt64 <<< 16 |||
    bytes[4].toUInt64 <<< 8 ||| bytes[5].toUInt64 <<< 0

/-- `pad_start`. -/
def padStart (size : Nat) (c : Char) (text : List Char) : List Char :=
  List.replicate (size - text.length) c ++ text

/-- `b.to_string(radix=16).pad_start(2, '0')`. -/
def digits (b : UInt64) : List Char :=
  padStart 2 '0' (Nat.toDigits 16 b.toNat)

/-- `PhysAddr::output`. -/
def output (self : UInt64) : List Char :=
  let b0 := self >>> 40 &&& 0xff
  let b1 := self >>> 32 &&& 0xff
  let b2 := self >>> 24 &&& 0xff
  let b3 := self >>> 16 &&& 0xff
  let b4 := self >>> 8 &&& 0xff
  let b5 := self &&& 0xff
  digits b0 ++ [':'] ++ digits b1 ++ [':'] ++ digits b2 ++ [':'] ++
    digits b3 ++ [':'] ++ digits b4 ++ [':'] ++ digits b5

end PhysAddr

section Code

variable (uvValue : Errno → Int)

/-- `uv_interface_addresses`, which allocates nothing for no interfaces. -/
def uvInterfaceAddresses (list : List Interface) (memory : Memory) :
    Memory × Option Block :=
  match list with
  | [] => (memory, none)
  | _ => ((memory.malloc list).1, some (memory.malloc list).2)

/-- `uv_free_interface_addresses`. -/
def uvFreeInterfaceAddresses (addresses : Option Block) (memory : Memory) :
    Except Fault Memory :=
  match addresses with
  | none => .ok memory
  | some block =>
      match memory.free block with
      | .ok memory => .ok memory
      | .error fault => .error (.store fault)

/-- `InterfaceAddress::load`. -/
def load (entry : Interface) : Except Fault InterfaceAddress :=
  match Marshalling.interfaceAddressName (some entry.name.memory) with
  | .error fault => .error (.text fault)
  | .ok name => .ok
      { name := name, physAddr := physAddr entry.physAddr,
        isInternal := entry.isInternal != 0, address := entry.address,
        netmask := entry.netmask }

/-- `addresses.val[i]`. -/
def loadAt (memory : Memory) (addresses : Option Block) (i : Nat) :
    Except Fault InterfaceAddress :=
  match addresses with
  | none => .error .nullPointer
  | some block =>
      match memory.read block with
      | .error fault => .error (.store fault)
      | .ok list =>
          match list[i]? with
          | some entry => load entry
          | none => .error .outOfBounds

/-- `interface_addresses`, when libuv answers with a status and a list. -/
def interfaceAddresses (status : Int) (list : List Interface)
    (memory : Memory) :
    Except Fault (Except Errno (List InterfaceAddress) × Memory) :=
  if status < 0 then .ok (.error (Errno.ofInt uvValue status), memory)
  else do
    let (memory, addresses) := uvInterfaceAddresses list memory
    let result ← (List.range list.length).mapM (loadAt memory addresses)
    let memory ← uvFreeInterfaceAddresses addresses memory
    .ok (.ok result, memory)

end Code

section Text

open BitFields

variable (bytes : Vector UInt8 6)

/-- Where the bytes of a physical address are. -/
def parts : List Part :=
  [Part.byteAt 40 bytes[0].toNat, Part.byteAt 32 bytes[1].toNat,
    Part.byteAt 24 bytes[2].toNat, Part.byteAt 16 bytes[3].toNat,
    Part.byteAt 8 bytes[4].toNat, Part.byteAt 0 bytes[5].toNat]

theorem parts_separate : Separate (parts bytes) := by
  refine @Separate.of_masks _ [255 <<< 40, 255 <<< 32, 255 <<< 24, 255 <<< 16,
    255 <<< 8, 255 <<< 0] rfl (by decide) ?_
  intro part hpart
  simp only [parts, List.mem_cons, List.not_mem_nil, or_false] at hpart
  rcases hpart with rfl | rfl | rfl | rfl | rfl | rfl <;>
    exact Part.byteAt_within (UInt8.toNat_lt _)

theorem toNat_shifted (byte : UInt8) {shift : UInt64} {n : Nat}
    (hshift : shift.toNat = n) (hn : n ≤ 40) :
    (byte.toUInt64 <<< shift).toNat = byte.toNat <<< n := by
  have hbyte := byte.toNat_lt
  have hpow : 2 ^ n ≤ 2 ^ 40 := Nat.pow_le_pow_right (by decide) hn
  have hmul : byte.toNat * 2 ^ n ≤ 255 * 2 ^ 40 :=
    Nat.mul_le_mul (by omega) hpow
  have hplace : n % 64 = n := Nat.mod_eq_of_lt (by omega)
  rw [UInt64.toNat_shiftLeft, UInt8.toNat_toUInt64, hshift, hplace,
    Nat.shiftLeft_eq, Nat.mod_eq_of_lt]
  omega

theorem physAddr_toNat : (physAddr bytes).toNat = assemble (parts bytes) := by
  simp only [physAddr, UInt64.toNat_or]
  rw [@toNat_shifted _ 40 40 rfl (by decide),
    @toNat_shifted _ 32 32 rfl (by decide),
    @toNat_shifted _ 24 24 rfl (by decide),
    @toNat_shifted _ 16 16 rfl (by decide),
    @toNat_shifted _ 8 8 rfl (by decide), @toNat_shifted _ 0 0 rfl (by decide),
    UInt64.toNat_zero, Nat.zero_or]
  simp only [parts, assemble_cons, assemble_nil, Part.byteAt, Nat.or_assoc,
    Nat.or_zero]

/-- What the mask leaves of a physical address at a byte's place. -/
theorem byte_of_physAddr {shift : UInt64} {n : Nat} {byte : UInt8}
    (hshift : shift.toNat = n) (hn : n ≤ 40)
    (hpart : Part.byteAt n byte.toNat ∈ parts bytes) :
    (physAddr bytes >>> shift &&& 0xff).toNat = byte.toNat := by
  have hplace : n % 64 = n := Nat.mod_eq_of_lt (by omega)
  rw [UInt64.toNat_and, UInt64.toNat_shiftRight, hshift, hplace, physAddr_toNat]
  exact byte_of_assemble (parts_separate bytes) hpart

set_option maxRecDepth 8000 in
theorem digits_small : ∀ value : Fin 256,
    padStart 2 '0' (Nat.toDigits 16 value.val) =
      [Nat.digitChar (value.val / 16), Nat.digitChar (value.val % 16)] := by
  decide

theorem digits_eq {b : UInt64} {byte : UInt8} (hb : b.toNat = byte.toNat) :
    digits b = HexText.pair byte := by
  rw [digits, hb]
  exact digits_small ⟨byte.toNat, byte.toNat_lt⟩

theorem toList_eq : bytes.toList =
    [bytes[0], bytes[1], bytes[2], bytes[3], bytes[4], bytes[5]] := by
  apply List.ext_getElem
  · rw [Vector.length_toList]
    rfl
  · intro i hi hi'
    rw [Vector.getElem_toList]
    rw [Vector.length_toList] at hi
    have hcases : i = 0 ∨ i = 1 ∨ i = 2 ∨ i = 3 ∨ i = 4 ∨ i = 5 := by omega
    rcases hcases with rfl | rfl | rfl | rfl | rfl | rfl <;> rfl

theorem output_physAddr :
    output (physAddr bytes) = HexText.write ':' bytes.toList := by
  have h0 : (physAddr bytes >>> 40 &&& 0xff).toNat = bytes[0].toNat :=
    @byte_of_physAddr bytes 40 40 _ rfl (by decide) (by simp [parts])
  have h1 : (physAddr bytes >>> 32 &&& 0xff).toNat = bytes[1].toNat :=
    @byte_of_physAddr bytes 32 32 _ rfl (by decide) (by simp [parts])
  have h2 : (physAddr bytes >>> 24 &&& 0xff).toNat = bytes[2].toNat :=
    @byte_of_physAddr bytes 24 24 _ rfl (by decide) (by simp [parts])
  have h3 : (physAddr bytes >>> 16 &&& 0xff).toNat = bytes[3].toNat :=
    @byte_of_physAddr bytes 16 16 _ rfl (by decide) (by simp [parts])
  have h4 : (physAddr bytes >>> 8 &&& 0xff).toNat = bytes[4].toNat :=
    @byte_of_physAddr bytes 8 8 _ rfl (by decide) (by simp [parts])
  have h5 : (physAddr bytes &&& 0xff).toNat = bytes[5].toNat := by
    rw [UInt64.toNat_and, physAddr_toNat]
    exact @byte_of_assemble _ (parts_separate bytes) 0 _ (by simp [parts])
  rw [toList_eq, output, digits_eq h0, digits_eq h1, digits_eq h2, digits_eq h3,
    digits_eq h4, digits_eq h5]
  simp only [HexText.write, List.append_assoc, List.cons_append,
    List.nil_append]

/-- The text of a physical address says its bytes, and no other text does. -/
theorem physAddr_text (text : List Char) :
    HexText.read ':' text = some bytes.toList ↔ output (physAddr bytes) = text := by
  rw [output_physAddr]
  exact HexText.read_eq_some_iff

end Text

section Copies

variable {uvValue : Errno → Int} {memory : Memory} {list : List Interface}

/-- What the program learns of an interface. -/
structure Reported (entry : Interface) (result : InterfaceAddress) : Prop where
  name_eq : result.name = entry.name.text
  physAddr_read :
    HexText.read ':' (output result.physAddr) = some entry.physAddr.toList
  isInternal_iff : result.isInternal = true ↔ entry.isInternal ≠ 0
  address_eq : result.address = entry.address
  netmask_eq : result.netmask = entry.netmask

theorem load_reported (entry : Interface) :
    ∃ result, load entry = .ok result ∧ Reported entry result := by
  have hname : Marshalling.interfaceAddressName (some entry.name.memory) =
      .ok entry.name.text := by
    rw [Marshalling.interfaceAddressName,
      Marshalling.copyBytes_text _ entry.name.short]
  refine ⟨⟨entry.name.text, physAddr entry.physAddr, entry.isInternal != 0,
    entry.address, entry.netmask⟩, ?_, ?_⟩
  · rw [load, hname]
  · constructor
    · rfl
    · exact HexText.read_eq_some_iff.mpr (output_physAddr _).symm
    · exact bne_iff_ne
    · rfl
    · rfl

theorem loadAt_reported {block : Block} {i : Nat} {entry : Interface}
    (hblock : memory.content? block = some list) (hentry : list[i]? = some entry) :
    ∃ result, loadAt memory (some block) i = .ok result ∧
      Reported entry result := by
  obtain ⟨result, hload, hreported⟩ := load_reported entry
  refine ⟨result, ?_, hreported⟩
  simp only [loadAt, read_of_content hblock, hentry, hload]

/-- The loop over the entries. -/
theorem mapM_loadAt {block : Block} (hblock : memory.content? block = some list)
    (start : Nat) (rest : List Interface) (hrest : list.drop start = rest) :
    ∃ results, (List.range' start rest.length).mapM
        (loadAt memory (some block)) = .ok results ∧
      List.Forall₂ Reported rest results := by
  induction rest generalizing start with
  | nil => exact ⟨[], rfl, .nil⟩
  | cons entry rest ih =>
      have hentry : list[start]? = some entry := by
        rw [← List.head?_drop, hrest]
        rfl
      have hdrop : list.drop (start + 1) = rest := by
        rw [← List.tail_drop, hrest]
        rfl
      obtain ⟨result, hload, hreported⟩ := loadAt_reported hblock hentry
      obtain ⟨results, hresults, hall⟩ := ih (start + 1) hdrop
      refine ⟨result :: results, ?_, .cons hreported hall⟩
      rw [List.length_cons, List.range'_succ, List.mapM_cons, hload, hresults]
      rfl

/-- A failure raises its error; otherwise every interface is reported, in
order, and the memory is as before. -/
theorem interfaceAddresses_exact (status : Int) (list : List Interface)
    (memory : Memory) :
    ∃ result next, interfaceAddresses uvValue status list memory =
        .ok (result, next) ∧
      (∀ block, next.content? block = memory.content? block) ∧
      if status < 0 then result = .error (Errno.ofInt uvValue status)
      else ∃ results, result = .ok results ∧
        List.Forall₂ Reported list results := by
  rw [interfaceAddresses]
  split
  · exact ⟨_, _, rfl, fun _ => rfl, rfl⟩
  · cases list with
    | nil => exact ⟨_, _, rfl, fun _ => rfl, [], rfl, .nil⟩
    | cons entry rest =>
        obtain ⟨next, hfree, hnext⟩ := free_malloc memory (entry :: rest)
        obtain ⟨results, hresults, hall⟩ := mapM_loadAt
          (@content_malloc_self _ _ memory (entry :: rest)) 0 _ List.drop_zero
        rw [← List.range_eq_range'] at hresults
        have hgiven : uvFreeInterfaceAddresses (some memory.blocks.length)
            (memory.malloc (entry :: rest)).1 = .ok next := by
          simp only [uvFreeInterfaceAddresses, hfree]
        exact ⟨.ok results, next, (Outcome.bind_ok hresults _).trans
          (Outcome.bind_ok hgiven _), hnext, results, rfl, hall⟩

end Copies

end UvMbt.Interfaces
