/-
The `CpuSet` of thread.mbt: a byte array that packs eight CPU indices to a
byte.  An array access out of bounds aborts the program and is `none` here.
-/
import Mathlib.Data.List.Basic
import Mathlib.Tactic.IntervalCases
import UvMbt.PackedBits
import UvMbt.Errno

set_option autoImplicit false

namespace UvMbt

open PackedBits

/-- `Byte << Int`: the byte widens to a 32-bit `Int`, the shift count is taken
modulo 32 and the low eight bits are kept. -/
def shlByte (byte : UInt8) (count : Int) : UInt8 :=
  UInt8.ofNat (byte.toNat <<< (count % 32).toNat)

/-- `struct CpuSet(FixedArray[Byte])`. -/
structure CpuSet where
  bytes : Array UInt8
  deriving Repr, DecidableEq

namespace CpuSet

/-- A bounds-checked array read at a machine index. -/
def get (array : Array UInt8) (index : Int) : Option UInt8 :=
  if 0 ≤ index then array[index.toNat]? else none

/-- A bounds-checked array write at a machine index. -/
def put (array : Array UInt8) (index : Int) (byte : UInt8) :
    Option (Array UInt8) :=
  if 0 ≤ index ∧ index.toNat < array.size then
    some (array.setIfInBounds index.toNat byte)
  else none

/-- `CpuSet::new`: as many zero bytes as `cpumask_size` gives; a negative
size is the code of the error it raises. -/
def new (uvValue : Errno → Int) (cpumaskSize : Int) : Except Errno CpuSet :=
  if cpumaskSize < 0 then .error (Errno.ofInt uvValue cpumaskSize)
  else .ok ⟨Array.replicate cpumaskSize.toNat 0⟩

/-- `CpuSet::set`. -/
def set (self : CpuSet) (cpu : Int) : Option CpuSet := do
  let byte ← get self.bytes (cpu.tdiv 8)
  let bytes ← put self.bytes (cpu.tdiv 8) (byte ||| shlByte 1 (cpu.tmod 8))
  return ⟨bytes⟩

/-- `CpuSet::zero`. -/
def zero (self : CpuSet) : CpuSet :=
  ⟨self.bytes.map (fun _ => 0)⟩

/-- `CpuSet::clear`. -/
def clear (self : CpuSet) (cpu : Int) : Option CpuSet := do
  let byte ← get self.bytes (cpu.tdiv 8)
  let bytes ← put self.bytes (cpu.tdiv 8) (byte &&& ~~~(shlByte 1 (cpu.tmod 8)))
  return ⟨bytes⟩

/-- `CpuSet::is_set`. -/
def isSet (self : CpuSet) (cpu : Int) : Option Bool := do
  let byte ← get self.bytes (cpu.tdiv 8)
  return (byte &&& shlByte 1 (cpu.tmod 8)) != 0

/-- The inner loop of `CpuSet::count` ends: the shift makes the byte smaller. -/
theorem toNat_shiftRight_one_lt {byte : UInt8} (hbyte : ¬byte = 0) :
    (byte >>> 1).toNat < byte.toNat := by
  have hpos : byte.toNat ≠ 0 := by
    intro hzero
    exact hbyte (UInt8.toNat_inj.mp hzero)
  simp only [UInt8.toNat_shiftRight]
  change byte.toNat >>> 1 < byte.toNat
  omega

/-- The inner loop of `CpuSet::count` on one byte. -/
def countByte (count : Nat) (byte : UInt8) : Nat :=
  if _ : byte = 0 then count
  else if (byte &&& 1) != 0 then countByte (count + 1) (byte >>> 1)
  else countByte count (byte >>> 1)
  termination_by byte.toNat
  decreasing_by all_goals exact toNat_shiftRight_one_lt ‹¬byte = 0›

/-- `CpuSet::count`. -/
def count (self : CpuSet) : Nat :=
  self.bytes.foldl countByte 0

/-- The loop `for i in lo..<hi { result[i] = value(i) }`. -/
def fill (value : Int → Option UInt8) (lo hi : Nat) (result : Array UInt8) :
    Option (Array UInt8) :=
  (List.range' lo (hi - lo)).foldlM (fun result (index : Nat) => do
    let byte ← value index
    put result index byte) result

/-- `CpuSet::intersect`. -/
def intersect (self other : CpuSet) : Option CpuSet := do
  let length := min self.bytes.size other.bytes.size
  let result ← fill (fun i => return (← get self.bytes i) &&& (← get other.bytes i))
    0 length (Array.replicate length 0)
  return ⟨result⟩

/-- The shape `CpuSet::union` and `CpuSet::xor` share: the common bytes are
combined, then the rest of either operand is copied to the same indices of a
result that is only as long as the shorter one. -/
def combine (common : UInt8 → UInt8 → UInt8) (rest : UInt8 → UInt8)
    (self other : CpuSet) : Option CpuSet := do
  let length := min self.bytes.size other.bytes.size
  let result ← fill (fun i => return common (← get self.bytes i) (← get other.bytes i))
    0 length (Array.replicate length 0)
  let result ← fill (fun i => return rest (← get self.bytes i))
    length self.bytes.size result
  let result ← fill (fun i => return rest (← get other.bytes i))
    length other.bytes.size result
  return ⟨result⟩

/-- `CpuSet::union`. -/
def union (self other : CpuSet) : Option CpuSet :=
  combine (fun left right => left ||| right) (fun byte => byte) self other

/-- `CpuSet::xor`. -/
def xor (self other : CpuSet) : Option CpuSet :=
  combine (fun left right => left ^^^ right) (fun byte => byte ^^^ 0) self other

/-- The set of CPU indices a `CpuSet` holds. -/
def members (self : CpuSet) : Finset Nat :=
  PackedBits.members self.bytes

theorem get_ofNat (array : Array UInt8) (index : Nat) :
    get array index = array[index]? := by
  simp [get]

theorem put_ofNat {array : Array UInt8} {index : Nat} (byte : UInt8)
    (hindex : index < array.size) :
    put array index byte = some (array.setIfInBounds index byte) := by
  simp [put, hindex]

/-- Inside a byte the shifted one is the power of two of the bit. -/
theorem toNat_shlByte_one {bit : Nat} (hbit : bit < 8) :
    (shlByte 1 bit).toNat = 2 ^ bit := by
  interval_cases bit <;> decide

theorem and_shlByte_ne_zero (byte : UInt8) {bit : Nat} (hbit : bit < 8) :
    (byte &&& shlByte 1 bit) ≠ 0 ↔ byte.toNat.testBit bit = true := by
  have hzero : (byte &&& shlByte 1 bit) = 0 ↔
      (byte &&& shlByte 1 bit).toNat = 0 := by
    rw [← UInt8.toNat_inj]
    rfl
  rw [ne_eq, hzero, UInt8.toNat_and, toNat_shlByte_one hbit, Nat.and_two_pow]
  cases byte.toNat.testBit bit <;> simp

/-- `is_set` on an index inside the set reads the packed bit. -/
theorem isSet_of_lt {self : CpuSet} {cpu : Nat}
    (hcpu : cpu < 8 * self.bytes.size) :
    self.isSet cpu = some (decide (cpu ∈ self.members)) := by
  have hbyte : cpu / 8 < self.bytes.size := by omega
  have hread : get self.bytes ((cpu : Int).tdiv 8) =
      some (byteAt self.bytes (cpu / 8)) := by
    have hdiv : (cpu : Int).tdiv 8 = ((cpu / 8 : Nat) : Int) :=
      (Int.ofNat_tdiv cpu 8).symm
    rw [hdiv, get_ofNat, byteAt_of_lt hbyte]
    simp [hbyte]
  have hmod : (cpu : Int).tmod 8 = ((cpu % 8 : Nat) : Int) :=
    (Int.ofNat_tmod cpu 8).symm
  have hbit := and_shlByte_ne_zero (byteAt self.bytes (cpu / 8))
    (Nat.mod_lt cpu (by decide : 0 < 8))
  simp only [isSet, hread, hmod, Option.bind_eq_bind, Option.bind_some,
    Option.pure_def, Option.some.injEq]
  rw [Bool.eq_iff_iff, bne_iff_ne, hbit, decide_eq_true_iff, members,
    mem_members, testBit]

theorem countByte_eq_add_bitCount (count : Nat) (byte : UInt8) :
    countByte count byte = count + bitCount byte := by
  induction count, byte using countByte.induct with
  | case1 count =>
      rw [countByte]
      rfl
  | case2 count byte hbyte hlow ih =>
      rw [countByte, dif_neg hbyte, if_pos hlow, ih,
        bitCount_eq_add_shiftRight byte, if_pos (by simpa using hlow)]
      omega
  | case3 count byte hbyte hlow ih =>
      rw [countByte, dif_neg hbyte, if_neg hlow, ih,
        bitCount_eq_add_shiftRight byte, if_neg (by simpa using hlow)]
      omega

/-- `count` is the number of members. -/
theorem count_eq_card (self : CpuSet) : self.count = self.members.card := by
  rw [members, card_members, count]
  refine Array.foldl_induction
    (motive := fun done total =>
      total = ∑ index ∈ Finset.range done, bitCount (byteAt self.bytes index))
    rfl ?_
  intro index total htotal
  rw [countByte_eq_add_bitCount, htotal, Finset.sum_range_succ,
    byteAt_of_lt index.isLt]
  rfl

theorem size_put {array result : Array UInt8} {index : Int} {byte : UInt8}
    (hput : put array index byte = some result) :
    result.size = array.size := by
  unfold put at hput
  split at hput
  · cases hput
    exact Array.size_setIfInBounds
  · cases hput

theorem size_fill {value : Int → Option UInt8} {lo hi : Nat}
    {result filled : Array UInt8}
    (hfill : fill value lo hi result = some filled) :
    filled.size = result.size := by
  unfold fill at hfill
  generalize List.range' lo (hi - lo) = indices at hfill
  induction indices generalizing result with
  | nil =>
      cases hfill
      rfl
  | cons index rest ih =>
      simp only [List.foldlM_cons, Option.bind_eq_bind,
        Option.bind_eq_some_iff] at hfill
      obtain ⟨next, ⟨byte, _, hput⟩, hrest⟩ := hfill
      rw [ih hrest, size_put hput]

theorem size_set {self result : CpuSet} {cpu : Int}
    (hset : self.set cpu = some result) :
    result.bytes.size = self.bytes.size := by
  simp only [set, Option.bind_eq_bind, Option.bind_eq_some_iff] at hset
  obtain ⟨byte, _, bytes, hput, hresult⟩ := hset
  cases hresult
  exact size_put hput

theorem size_clear {self result : CpuSet} {cpu : Int}
    (hclear : self.clear cpu = some result) :
    result.bytes.size = self.bytes.size := by
  simp only [clear, Option.bind_eq_bind, Option.bind_eq_some_iff] at hclear
  obtain ⟨byte, _, bytes, hput, hresult⟩ := hclear
  cases hresult
  exact size_put hput

@[simp] theorem size_zero (self : CpuSet) :
    self.zero.bytes.size = self.bytes.size := by
  simp [zero]

theorem size_intersect {self other result : CpuSet}
    (hintersect : self.intersect other = some result) :
    result.bytes.size = min self.bytes.size other.bytes.size := by
  simp only [intersect, Option.bind_eq_bind,
    Option.bind_eq_some_iff] at hintersect
  obtain ⟨bytes, hfill, hresult⟩ := hintersect
  cases hresult
  simpa using size_fill hfill

theorem size_combine {common : UInt8 → UInt8 → UInt8} {rest : UInt8 → UInt8}
    {self other result : CpuSet}
    (hcombine : combine common rest self other = some result) :
    result.bytes.size = min self.bytes.size other.bytes.size := by
  simp only [combine, Option.bind_eq_bind,
    Option.bind_eq_some_iff] at hcombine
  obtain ⟨both, hboth, left, hleft, right, hright, hresult⟩ := hcombine
  cases hresult
  change right.size = _
  rw [size_fill hright, size_fill hleft, size_fill hboth]
  simp

end CpuSet

end UvMbt
