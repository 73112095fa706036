/-
`CpuSet` as a finite set of CPU indices: the operations in place on a set that
others may hold, and those that make a new one.
-/
import Mathlib.Order.SymmDiff
import Mathlib.Data.Finset.SymmDiff
import UvMbt.CpuSet

set_option autoImplicit false

namespace UvMbt

open PackedBits

namespace CpuSet

/-- The operators `&`, `|` and `^`. -/
def land (self other : CpuSet) : Option CpuSet := self.intersect other
def lor (self other : CpuSet) : Option CpuSet := self.union other
def lxor (self other : CpuSet) : Option CpuSet := self.xor other

section Bits

variable {bytes : Array UInt8} {place : Nat} {byte : UInt8}

theorem byteAt_setIfInBounds (hplace : place < bytes.size) (index : Nat) :
    byteAt (bytes.setIfInBounds place byte) index =
      if index = place then byte else byteAt bytes index := by
  by_cases hindex : index < bytes.size
  · rw [byteAt_of_lt (by simpa using hindex),
      Array.getElem_setIfInBounds hindex, byteAt_of_lt hindex]
    simp only [eq_comm]
  · rw [if_neg (by omega), byteAt_of_size_le (by simpa using hindex),
      byteAt_of_size_le (by omega)]

theorem mem_members_setIfInBounds (hplace : place < bytes.size)
    (index : Nat) :
    index ∈ PackedBits.members (bytes.setIfInBounds place byte) ↔
      if index / 8 = place then byte.toNat.testBit (index % 8) = true
      else index ∈ PackedBits.members bytes := by
  rw [mem_members, testBit, byteAt_setIfInBounds hplace]
  split
  · exact Iff.rfl
  · exact mem_members.symm

theorem testBit_or_shlByte {bit : Nat} (hbit : bit < 8) (index : Nat) :
    (byte ||| shlByte 1 bit).toNat.testBit index =
      (byte.toNat.testBit index || decide (bit = index)) := by
  rw [UInt8.toNat_or, toNat_shlByte_one hbit, Nat.testBit_or,
    Nat.testBit_two_pow]

theorem testBit_not_shlByte : ∀ bit < 8, ∀ index < 8,
    (~~~(shlByte 1 (bit : Nat))).toNat.testBit index =
      decide (bit ≠ index) := by
  decide

theorem testBit_and_not_shlByte {bit index : Nat} (hbit : bit < 8)
    (hindex : index < 8) :
    (byte &&& ~~~(shlByte 1 bit)).toNat.testBit index =
      (byte.toNat.testBit index && decide (bit ≠ index)) := by
  rw [UInt8.toNat_and, Nat.testBit_and,
    testBit_not_shlByte bit hbit index hindex]

end Bits

section InPlace

variable {self : CpuSet} {cpu : Nat}

theorem get_byteAt {array : Array UInt8} {index : Nat}
    (hindex : index < array.size) :
    get array index = some (byteAt array index) := by
  rw [get_ofNat, Array.getElem?_eq_getElem hindex, byteAt_of_lt hindex]

/-- Two indices are the same if their byte and their bit are. -/
theorem bit_eq_iff {index : Nat} (hbyte : index / 8 = cpu / 8) :
    cpu % 8 = index % 8 ↔ index = cpu := by
  omega

/-- `set` and `clear` read a byte of the set, change it and write it back. -/
theorem update_eq (change : UInt8 → UInt8 → UInt8)
    (hcpu : cpu < 8 * self.bytes.size) :
    (do
      let byte ← get self.bytes ((cpu : Int).tdiv 8)
      let bytes ← put self.bytes ((cpu : Int).tdiv 8)
        (change byte (shlByte 1 ((cpu : Int).tmod 8)))
      return (⟨bytes⟩ : CpuSet)) =
      some ⟨self.bytes.setIfInBounds (cpu / 8)
        (change (byteAt self.bytes (cpu / 8)) (shlByte 1 (cpu % 8 : Nat)))⟩ := by
  have hplace : cpu / 8 < self.bytes.size := by omega
  have hdiv : (cpu : Int).tdiv 8 = ((cpu / 8 : Nat) : Int) :=
    (Int.ofNat_tdiv cpu 8).symm
  have hmod : (cpu : Int).tmod 8 = ((cpu % 8 : Nat) : Int) :=
    (Int.ofNat_tmod cpu 8).symm
  rw [hdiv, hmod, get_byteAt hplace]
  simp only [Option.bind_eq_bind, Option.bind_some, put_ofNat _ hplace]
  rfl

/-- The members after a change of one bit: `law` says what becomes of a bit,
and of all but the one at `cpu` nothing does. -/
theorem mem_members_update {change : UInt8 → UInt8 → UInt8}
    {law : Bool → Bool → Bool} (hcpu : cpu < 8 * self.bytes.size)
    (hother : ∀ member, law member false = member)
    (hchange : ∀ (byte : UInt8) (bit index : Nat), bit < 8 → index < 8 →
      (change byte (shlByte 1 bit)).toNat.testBit index =
        law (byte.toNat.testBit index) (decide (bit = index)))
    (index : Nat) :
    index ∈ PackedBits.members (self.bytes.setIfInBounds (cpu / 8)
        (change (byteAt self.bytes (cpu / 8)) (shlByte 1 (cpu % 8 : Nat)))) ↔
      law (decide (index ∈ self.members)) (decide (index = cpu)) = true := by
  have hplace : cpu / 8 < self.bytes.size := by omega
  have hmember : decide (index ∈ self.members) =
      testBit self.bytes index := by
    rw [Bool.eq_iff_iff, decide_eq_true_eq]
    exact mem_members
  rw [mem_members_setIfInBounds hplace, hmember,
    hchange _ _ _ (Nat.mod_lt cpu (by decide)) (Nat.mod_lt index (by decide))]
  by_cases hbyte : index / 8 = cpu / 8
  · rw [if_pos hbyte, testBit, hbyte, decide_eq_decide.mpr (bit_eq_iff hbyte)]
  · have hne : index ≠ cpu := fun heq => hbyte (by rw [heq])
    rw [if_neg hbyte, decide_eq_false hne, hother, mem_members]

theorem members_set (hcpu : cpu < 8 * self.bytes.size) :
    ∃ result, self.set cpu = some result ∧
      result.bytes.size = self.bytes.size ∧
      result.members = insert cpu self.members := by
  refine ⟨_, update_eq (fun byte one => byte ||| one) hcpu,
    Array.size_setIfInBounds, ?_⟩
  ext index
  have hupdate := mem_members_update hcpu Bool.or_false
    (fun byte bit index hbit _ => testBit_or_shlByte hbit index) index
  rw [members, hupdate, Finset.mem_insert, Bool.or_eq_true, decide_eq_true_eq,
    decide_eq_true_eq, or_comm]

theorem members_clear (hcpu : cpu < 8 * self.bytes.size) :
    ∃ result, self.clear cpu = some result ∧
      result.bytes.size = self.bytes.size ∧
      result.members = self.members.erase cpu := by
  have hlaw : ∀ (byte : UInt8) (bit index : Nat), bit < 8 → index < 8 →
      (byte &&& ~~~(shlByte 1 bit)).toNat.testBit index =
        (byte.toNat.testBit index && !decide (bit = index)) := by
    intro byte bit index hbit hindex
    rw [testBit_and_not_shlByte hbit hindex, decide_not]
  refine ⟨_, update_eq (fun byte one => byte &&& ~~~one) hcpu,
    Array.size_setIfInBounds, ?_⟩
  ext index
  have hupdate := @mem_members_update self cpu
    (fun byte one => byte &&& ~~~one) (fun member same => member && !same)
    hcpu Bool.and_true hlaw index
  rw [members, hupdate, Finset.mem_erase, Bool.and_eq_true,
    Bool.not_eq_true', decide_eq_true_eq, decide_eq_false_iff_not, and_comm]

theorem members_zero (self : CpuSet) : self.zero.members = ∅ := by
  ext index
  rw [members, mem_members, testBit, zero]
  by_cases hbyte : index / 8 < self.bytes.size
  · rw [byteAt_of_lt (by simpa using hbyte)]
    simp
  · rw [byteAt_of_size_le (by simpa using hbyte)]
    simp

end InPlace

section Fill

variable {value : Int → Option UInt8} {byte : Nat → UInt8}
  {result : Array UInt8} {lo hi : Nat}

theorem fill_cons (hlt : lo < hi) :
    fill value lo hi result =
      (value lo).bind fun byte =>
        (put result lo byte).bind (fill value (lo + 1) hi) := by
  obtain ⟨count, hcount⟩ : ∃ count, hi - lo = count + 1 :=
    ⟨hi - lo - 1, by omega⟩
  have hrest : hi - (lo + 1) = count := by omega
  rw [fill, hcount, List.range'_succ, List.foldlM_cons]
  cases value lo with
  | none => rfl
  | some byte =>
      simp only [Option.bind_eq_bind, Option.bind_some]
      cases put result lo byte with
      | none => rfl
      | some next =>
          rw [Option.bind_some, Option.bind_some, fill, hrest]
          rfl

theorem fill_self (hle : hi ≤ lo) : fill value lo hi result = some result := by
  rw [fill, Nat.sub_eq_zero_of_le hle]
  rfl

/-- The loop stores the values and keeps the bytes outside its range. -/
theorem fill_eq (hhi : hi ≤ result.size)
    (hvalue : ∀ index : Nat, lo ≤ index → index < hi →
      value index = some (byte index)) :
    ∃ filled, fill value lo hi result = some filled ∧
      filled.size = result.size ∧
      ∀ index, byteAt filled index =
        if lo ≤ index ∧ index < hi then byte index
        else byteAt result index := by
  obtain ⟨count, hcount⟩ : ∃ count, hi - lo = count := ⟨_, rfl⟩
  induction count generalizing lo result with
  | zero =>
      refine ⟨result, fill_self (by omega), rfl, ?_⟩
      intro index
      rw [if_neg (by omega)]
  | succ count ih =>
      have hput := put_ofNat (byte lo) (by omega : lo < result.size)
      have hsize : (result.setIfInBounds lo (byte lo)).size = result.size :=
        Array.size_setIfInBounds
      obtain ⟨filled, hfilled, hfsize, hbytes⟩ :=
        ih (hsize.symm ▸ hhi) (fun index hlo => hvalue index (by omega))
          (by omega : hi - (lo + 1) = count)
      refine ⟨filled, ?_, hfsize.trans hsize, ?_⟩
      · rw [fill_cons (by omega), hvalue lo (Nat.le_refl lo) (by omega),
          Option.bind_some, hput, Option.bind_some, hfilled]
      · intro index
        rw [hbytes, byteAt_setIfInBounds (by omega)]
        by_cases hindex : index = lo
        · rw [if_neg (by omega), if_pos hindex, if_pos (by omega), hindex]
        · rw [if_neg hindex]
          congr 1
          simp only [eq_iff_iff]
          omega

/-- The loop aborts where its range is past the end of the result. -/
theorem fill_none (hlt : lo < hi) (hsize : result.size ≤ lo) :
    fill value lo hi result = none := by
  have hput : ∀ byte, put result lo byte = none := by
    intro byte
    rw [put, if_neg]
    rw [Int.toNat_natCast]
    omega
  rw [fill_cons hlt]
  cases value lo with
  | none => rfl
  | some byte => rw [Option.bind_some, hput, Option.bind_none]

end Fill

section Binary

variable {self other : CpuSet}

theorem byteAt_replicate (size index : Nat) :
    byteAt (Array.replicate size 0) index = 0 := by
  by_cases hindex : index < size
  · rw [byteAt_of_lt (by simpa using hindex), Array.getElem_replicate]
  · exact byteAt_of_size_le (by simpa using hindex)

/-- The first loop of the three binary operations. -/
theorem fill_common (self other : CpuSet) (common : UInt8 → UInt8 → UInt8) :
    ∃ filled, fill (fun i => do
        return common (← get self.bytes i) (← get other.bytes i)) 0
        (min self.bytes.size other.bytes.size)
        (Array.replicate (min self.bytes.size other.bytes.size) 0) =
          some filled ∧
      filled.size = min self.bytes.size other.bytes.size ∧
      ∀ index, byteAt filled index =
        if index < min self.bytes.size other.bytes.size then
          common (byteAt self.bytes index) (byteAt other.bytes index)
        else 0 := by
  have hvalue : ∀ index : Nat, 0 ≤ index →
      index < min self.bytes.size other.bytes.size →
      (do return common (← get self.bytes index) (← get other.bytes index)) =
        some (common (byteAt self.bytes index) (byteAt other.bytes index)) := by
    intro index _ hindex
    rw [get_byteAt (lt_of_lt_of_le hindex (Nat.min_le_left _ _)),
      get_byteAt (lt_of_lt_of_le hindex (Nat.min_le_right _ _))]
    rfl
  have hhi : min self.bytes.size other.bytes.size ≤
      (Array.replicate (min self.bytes.size other.bytes.size)
        (0 : UInt8)).size := by
    rw [Array.size_replicate]
  obtain ⟨filled, hfilled, hsize, hbytes⟩ := @fill_eq
    (fun i => do return common (← get self.bytes i) (← get other.bytes i))
    (fun index => common (byteAt self.bytes index) (byteAt other.bytes index))
    _ 0 _ hhi hvalue
  refine ⟨filled, hfilled, hsize.trans Array.size_replicate, ?_⟩
  intro index
  rw [hbytes, byteAt_replicate]
  simp only [Nat.zero_le, true_and]

theorem members_intersect (self other : CpuSet) :
    ∃ result, self.intersect other = some result ∧
      result.members = self.members ∩ other.members := by
  obtain ⟨filled, hfilled, -, hbytes⟩ := fill_common self other
    (fun left right => left &&& right)
  refine ⟨⟨filled⟩, ?_, ?_⟩
  · rw [intersect, hfilled]
    rfl
  · have hand : ∀ index, byteAt filled index =
        byteAt self.bytes index &&& byteAt other.bytes index := by
      intro index
      rw [hbytes]
      split
      · rfl
      · rename_i hindex
        rw [Nat.lt_min, not_and_or, Nat.not_lt, Nat.not_lt] at hindex
        rcases hindex with hindex | hindex
        · rw [byteAt_of_size_le hindex, UInt8.zero_and]
        · rw [byteAt_of_size_le hindex, UInt8.and_zero]
    ext index
    simp only [Finset.mem_inter, members, mem_members, testBit, hand,
      UInt8.toNat_and, Nat.testBit_and, Bool.and_eq_true]

/-- Operands of one length leave nothing for the loops over the rest. -/
theorem combine_eq (common : UInt8 → UInt8 → UInt8) (rest : UInt8 → UInt8)
    (hzero : common 0 0 = 0) (hsize : self.bytes.size = other.bytes.size) :
    ∃ result, combine common rest self other = some result ∧
      ∀ index, byteAt result.bytes index =
        common (byteAt self.bytes index) (byteAt other.bytes index) := by
  obtain ⟨filled, hfilled, -, hbytes⟩ := fill_common self other common
  refine ⟨⟨filled⟩, ?_, ?_⟩
  · rw [combine, hfilled]
    simp only [Option.bind_eq_bind, Option.bind_some]
    rw [fill_self (by omega), Option.bind_some, fill_self (by omega)]
    rfl
  · intro index
    rw [hbytes]
    split
    · rfl
    · rename_i hindex
      rw [hsize, min_self, Nat.not_lt] at hindex
      rw [byteAt_of_size_le hindex, byteAt_of_size_le (hsize ▸ hindex), hzero]

theorem members_union (hsize : self.bytes.size = other.bytes.size) :
    ∃ result, self.union other = some result ∧
      result.members = self.members ∪ other.members := by
  obtain ⟨result, hunion, hbytes⟩ :=
    combine_eq (fun left right => left ||| right) (fun byte => byte) rfl hsize
  refine ⟨result, hunion, ?_⟩
  ext index
  simp only [Finset.mem_union, members, mem_members, testBit, hbytes,
    UInt8.toNat_or, Nat.testBit_or, Bool.or_eq_true]

theorem members_xor (hsize : self.bytes.size = other.bytes.size) :
    ∃ result, self.xor other = some result ∧
      result.members = symmDiff self.members other.members := by
  obtain ⟨result, hxor, hbytes⟩ :=
    combine_eq (fun left right => left ^^^ right) (fun byte => byte ^^^ 0) rfl
      hsize
  refine ⟨result, hxor, ?_⟩
  ext index
  simp only [Finset.mem_symmDiff, members, mem_members, testBit, hbytes,
    UInt8.toNat_xor, Nat.testBit_xor]
  cases (byteAt self.bytes (index / 8)).toNat.testBit (index % 8) <;>
    cases (byteAt other.bytes (index / 8)).toNat.testBit (index % 8) <;>
    decide

/-- The rest of the longer operand does not fit the result. -/
theorem combine_none {common : UInt8 → UInt8 → UInt8} {rest : UInt8 → UInt8}
    (hsize : self.bytes.size ≠ other.bytes.size) :
    combine common rest self other = none := by
  obtain ⟨filled, hfilled, hlength, -⟩ := fill_common self other common
  rw [combine, hfilled]
  simp only [Option.bind_eq_bind, Option.bind_some]
  by_cases hlonger : other.bytes.size < self.bytes.size
  · rw [fill_none (by omega) (by omega), Option.bind_none]
  · rw [fill_self (by omega), Option.bind_some,
      fill_none (by omega) (by omega), Option.bind_none]

end Binary

end CpuSet

namespace CpuSets

/-- The binary operations, by name and by operator. -/
inductive Binary where
  | intersect | union | xor | land | lor | lxor
  deriving Repr, DecidableEq

def Binary.apply : Binary → CpuSet → CpuSet → Option CpuSet
  | .intersect => CpuSet.intersect
  | .union => CpuSet.union
  | .xor => CpuSet.xor
  | .land => CpuSet.land
  | .lor => CpuSet.lor
  | .lxor => CpuSet.lxor

/-- The operation on sets that it stands for. -/
def Binary.meaning : Binary → Finset Nat → Finset Nat → Finset Nat
  | .intersect | .land => fun left right => left ∩ right
  | .union | .lor => fun left right => left ∪ right
  | .xor | .lxor => fun left right => symmDiff left right

/-- A call on `CpuSet`s that are named by their places in the memory. -/
inductive Op where
  | set (self : Nat) (cpu : Int)
  | clear (self : Nat) (cpu : Int)
  | zero (self : Nat)
  | isSet (self : Nat) (cpu : Int)
  | count (self : Nat)
  | binary (operation : Binary) (self other : Nat)
  deriving Repr, DecidableEq

inductive Answer where
  | unit
  | bool (value : Bool)
  | int (value : Int)
  | cpuSet (place : Nat)
  deriving Repr, DecidableEq

/-- A call on the memory; `none` is an abort.  The count is an `Int` of 32
bits. -/
def Op.perform (memory : List CpuSet) : Op → Option (List CpuSet × Answer)
  | .set self cpu => do
      let result ← (← memory[self]?).set cpu
      return (memory.set self result, .unit)
  | .clear self cpu => do
      let result ← (← memory[self]?).clear cpu
      return (memory.set self result, .unit)
  | .zero self => do
      let result := (← memory[self]?).zero
      return (memory.set self result, .unit)
  | .isSet self cpu => do
      let value ← (← memory[self]?).isSet cpu
      return (memory, .bool value)
  | .count self => do
      let cpuSet ← memory[self]?
      return (memory, .int (Int32.ofNat cpuSet.count).toInt)
  | .binary operation self other => do
      let result ← operation.apply (← memory[self]?) (← memory[other]?)
      return (memory ++ [result], .cpuSet memory.length)

/-- The same call on finite sets. -/
def Op.meaning (sets : List (Finset Nat)) :
    Op → Option (List (Finset Nat) × Answer)
  | .set self cpu => do
      let members ← sets[self]?
      return (sets.set self (insert cpu.toNat members), .unit)
  | .clear self cpu => do
      let members ← sets[self]?
      return (sets.set self (members.erase cpu.toNat), .unit)
  | .zero self => do
      let _ ← sets[self]?
      return (sets.set self ∅, .unit)
  | .isSet self cpu => do
      let members ← sets[self]?
      return (sets, .bool (decide (cpu.toNat ∈ members)))
  | .count self => do
      let members ← sets[self]?
      return (sets, .int members.card)
  | .binary operation self other => do
      let left ← sets[self]?
      let right ← sets[other]?
      return (sets ++ [operation.meaning left right], .cpuSet sets.length)

/-- The place that the call changes. -/
def Op.target : Op → Option Nat
  | .set self _ | .clear self _ | .zero self => some self
  | _ => none

/-- The sets exist, and the index is inside. -/
def Op.Valid (memory : List CpuSet) : Op → Prop
  | .set self cpu | .clear self cpu | .isSet self cpu => ∃ cpuSet,
      memory[self]? = some cpuSet ∧ 0 ≤ cpu ∧ cpu < 8 * cpuSet.bytes.size
  | .zero self | .count self => ∃ cpuSet, memory[self]? = some cpuSet
  | .binary _ self other => ∃ left right,
      memory[self]? = some left ∧ memory[other]? = some right

/-- No set changes its length, and only the target changes. -/
def Kept (target : Option Nat) (memory after : List CpuSet) : Prop :=
  ∀ (place : Nat) (cpuSet : CpuSet), memory[place]? = some cpuSet →
    ∃ later, after[place]? = some later ∧
      later.bytes.size = cpuSet.bytes.size ∧
      (target ≠ some place → later = cpuSet)

/-- The call returns, and does to the members what it does to finite sets. -/
def Op.Follows (memory : List CpuSet) (op : Op) : Prop :=
  ∃ after answer, op.perform memory = some (after, answer) ∧
    op.meaning (memory.map CpuSet.members) =
      some (after.map CpuSet.members, answer) ∧
    Kept op.target memory after

/-- The calls that do: the operands of a union or a symmetric difference have
one length, and a count fits an `Int`. -/
def Op.FollowsOn (memory : List CpuSet) : Op → Prop
  | .binary .intersect _ _ | .binary .land _ _ => True
  | .binary _ self other =>
      memory[self]?.map (·.bytes.size) = memory[other]?.map (·.bytes.size)
  | .count self => ∀ cpuSet, memory[self]? = some cpuSet →
      cpuSet.members.card < 2 ^ 31
  | _ => True

section Proofs

variable {memory : List CpuSet}

theorem kept_self (target : Option Nat) : Kept target memory memory :=
  fun _ cpuSet hplace => ⟨cpuSet, hplace, rfl, fun _ => rfl⟩

theorem kept_set {self : Nat} {cpuSet result : CpuSet}
    (hself : memory[self]? = some cpuSet)
    (hsize : result.bytes.size = cpuSet.bytes.size) :
    Kept (some self) memory (memory.set self result) := by
  intro place old hold
  by_cases hplace : self = place
  · subst hplace
    have hlt := (List.getElem?_eq_some_iff.mp hself).choose
    rw [hself] at hold
    cases hold
    exact ⟨result, List.getElem?_set_self hlt, hsize,
      fun hne => absurd rfl hne⟩
  · exact ⟨old, (List.getElem?_set_ne hplace).trans hold, rfl, fun _ => rfl⟩

theorem kept_append (target : Option Nat) (result : CpuSet) :
    Kept target memory (memory ++ [result]) := by
  intro place old hold
  have hlt := (List.getElem?_eq_some_iff.mp hold).choose
  exact ⟨old, (List.getElem?_append_left hlt).trans hold, rfl, fun _ => rfl⟩

theorem toInt_count_iff (count : Nat) :
    (Int32.ofNat count).toInt = count ↔ count < 2 ^ 31 := by
  constructor
  · intro heq
    have hlt := Int32.toInt_lt (Int32.ofNat count)
    rw [heq] at hlt
    exact_mod_cast hlt
  · intro hlt
    exact Int32.toInt_ofNat_of_lt hlt

theorem map_members_set (self : Nat) (result : CpuSet) :
    (memory.set self result).map CpuSet.members =
      (memory.map CpuSet.members).set self result.members :=
  List.map_set

theorem members_getElem? {self : Nat} {cpuSet : CpuSet}
    (hself : memory[self]? = some cpuSet) :
    (memory.map CpuSet.members)[self]? = some cpuSet.members := by
  rw [List.getElem?_map, hself]
  rfl

/-- A call that changes a set in place follows if its members do. -/
theorem inPlace_follows {op : Op} {self : Nat} {cpuSet result : CpuSet}
    (hself : memory[self]? = some cpuSet) (htarget : op.target = some self)
    (hsize : result.bytes.size = cpuSet.bytes.size)
    (hperform : op.perform memory = some (memory.set self result, .unit))
    (hmeaning : op.meaning (memory.map CpuSet.members) =
      some ((memory.map CpuSet.members).set self result.members, .unit)) :
    op.Follows memory := by
  refine ⟨memory.set self result, .unit, hperform, ?_, ?_⟩
  · rw [map_members_set]
    exact hmeaning
  · rw [htarget]
    exact kept_set hself hsize

theorem set_follows {self cpu : Nat} {cpuSet : CpuSet}
    (hself : memory[self]? = some cpuSet)
    (hcpu : cpu < 8 * cpuSet.bytes.size) :
    (Op.set self cpu).Follows memory := by
  obtain ⟨result, hset, hsize, hmembers⟩ := CpuSet.members_set hcpu
  apply inPlace_follows hself rfl hsize
  · simp only [Op.perform, hself, Option.bind_eq_bind, Option.bind_some, hset]
    rfl
  · simp only [Op.meaning, members_getElem? hself, Option.bind_eq_bind,
      Option.bind_some, Int.toNat_natCast, hmembers]
    rfl

theorem clear_follows {self cpu : Nat} {cpuSet : CpuSet}
    (hself : memory[self]? = some cpuSet)
    (hcpu : cpu < 8 * cpuSet.bytes.size) :
    (Op.clear self cpu).Follows memory := by
  obtain ⟨result, hclear, hsize, hmembers⟩ := CpuSet.members_clear hcpu
  apply inPlace_follows hself rfl hsize
  · simp only [Op.perform, hself, Option.bind_eq_bind, Option.bind_some, hclear]
    rfl
  · simp only [Op.meaning, members_getElem? hself, Option.bind_eq_bind,
      Option.bind_some, Int.toNat_natCast, hmembers]
    rfl

theorem zero_follows {self : Nat} {cpuSet : CpuSet}
    (hself : memory[self]? = some cpuSet) :
    (Op.zero self).Follows memory := by
  apply inPlace_follows hself rfl cpuSet.size_zero
  · simp only [Op.perform, hself, Option.bind_eq_bind, Option.bind_some]
    rfl
  · simp only [Op.meaning, members_getElem? hself, Option.bind_eq_bind,
      Option.bind_some, CpuSet.members_zero]
    rfl

theorem isSet_follows {self cpu : Nat} {cpuSet : CpuSet}
    (hself : memory[self]? = some cpuSet)
    (hcpu : cpu < 8 * cpuSet.bytes.size) :
    (Op.isSet self cpu).Follows memory := by
  refine ⟨memory, .bool (decide (cpu ∈ cpuSet.members)), ?_, ?_, kept_self _⟩
  · simp only [Op.perform, hself, Option.bind_eq_bind, Option.bind_some,
      CpuSet.isSet_of_lt hcpu]
    rfl
  · simp only [Op.meaning, members_getElem? hself, Option.bind_eq_bind,
      Option.bind_some, Int.toNat_natCast]
    rfl

theorem count_follows_iff {self : Nat} {cpuSet : CpuSet}
    (hself : memory[self]? = some cpuSet) :
    (Op.count self).Follows memory ↔ cpuSet.members.card < 2 ^ 31 := by
  have hperform : (Op.count self).perform memory =
      some (memory, .int (Int32.ofNat cpuSet.count).toInt) := by
    simp only [Op.perform, hself, Option.bind_eq_bind, Option.bind_some]
    rfl
  have hmeaning : (Op.count self).meaning (memory.map CpuSet.members) =
      some (memory.map CpuSet.members, .int cpuSet.members.card) := by
    simp only [Op.meaning, members_getElem? hself, Option.bind_eq_bind,
      Option.bind_some]
    rfl
  rw [← toInt_count_iff, ← CpuSet.count_eq_card]
  rw [← CpuSet.count_eq_card] at hmeaning
  constructor
  · rintro ⟨after, answer, hafter, hsets, -⟩
    rw [hperform, Option.some.injEq, Prod.mk.injEq] at hafter
    rw [hmeaning, Option.some.injEq, Prod.mk.injEq, ← hafter.2,
      Answer.int.injEq] at hsets
    exact hsets.2.symm
  · intro hfits
    refine ⟨memory, _, hperform, ?_, kept_self _⟩
    rw [hmeaning, hfits]

/-- A binary operation follows if its result is what it stands for; it cannot
if it aborts. -/
theorem binary_follows {operation : Binary} {self other : Nat}
    {left right result : CpuSet} (hself : memory[self]? = some left)
    (hother : memory[other]? = some right)
    (hresult : operation.apply left right = some result)
    (hmembers : result.members =
      operation.meaning left.members right.members) :
    (Op.binary operation self other).Follows memory := by
  refine ⟨memory ++ [result], .cpuSet memory.length, ?_, ?_, kept_append _ _⟩
  · simp only [Op.perform, hself, hother, Option.bind_eq_bind, Option.bind_some,
      hresult]
    rfl
  · rw [List.map_append, List.map_singleton, hmembers]
    simp only [Op.meaning, members_getElem? hself, members_getElem? hother,
      Option.bind_eq_bind, Option.bind_some, List.length_map]
    rfl

theorem binary_not_follows {operation : Binary} {self other : Nat}
    {left right : CpuSet} (hself : memory[self]? = some left)
    (hother : memory[other]? = some right)
    (hresult : operation.apply left right = none) :
    ¬(Op.binary operation self other).Follows memory := by
  rintro ⟨after, answer, hperform, -⟩
  simp [Op.perform, hself, hother, hresult] at hperform

/-- The operations that loop over the rest of the longer operand follow on
operands of one length. -/
theorem rest_follows_iff {operation : Binary} {self other : Nat}
    {left right : CpuSet} (hself : memory[self]? = some left)
    (hother : memory[other]? = some right)
    (hequal : left.bytes.size = right.bytes.size →
      ∃ result, operation.apply left right = some result ∧
        result.members = operation.meaning left.members right.members)
    (hdifferent : left.bytes.size ≠ right.bytes.size →
      operation.apply left right = none) :
    (Op.binary operation self other).Follows memory ↔
      memory[self]?.map (·.bytes.size) = memory[other]?.map (·.bytes.size) := by
  rw [hself, hother, Option.map_some, Option.map_some, Option.some.injEq]
  constructor
  · intro hfollows
    by_contra hsize
    exact binary_not_follows hself hother (hdifferent hsize) hfollows
  · intro hsize
    obtain ⟨result, hresult, hmembers⟩ := hequal hsize
    exact binary_follows hself hother hresult hmembers

theorem binary_follows_iff {operation : Binary} {self other : Nat}
    {left right : CpuSet} (hself : memory[self]? = some left)
    (hother : memory[other]? = some right) :
    (Op.binary operation self other).Follows memory ↔
      (Op.binary operation self other).FollowsOn memory := by
  cases operation with
  | intersect | land =>
      obtain ⟨result, hresult, hmembers⟩ := CpuSet.members_intersect left right
      exact iff_of_true (binary_follows hself hother hresult hmembers) trivial
  | union | lor =>
      exact rest_follows_iff hself hother CpuSet.members_union
        CpuSet.combine_none
  | xor | lxor =>
      exact rest_follows_iff hself hother CpuSet.members_xor
        CpuSet.combine_none

end Proofs

/-- A call on `CpuSet`s is the call on finite sets exactly if it is not a
union or a symmetric difference of different lengths, nor a count that does not
fit. -/
theorem cpuSet_follows_iff (memory : List CpuSet) (op : Op)
    (hvalid : op.Valid memory) :
    op.Follows memory ↔ op.FollowsOn memory := by
  cases op with
  | set self cpu =>
      obtain ⟨cpuSet, hself, hpos, hcpu⟩ := hvalid
      obtain ⟨cpu, rfl⟩ := Int.eq_ofNat_of_zero_le hpos
      exact iff_of_true (set_follows hself (by omega)) trivial
  | clear self cpu =>
      obtain ⟨cpuSet, hself, hpos, hcpu⟩ := hvalid
      obtain ⟨cpu, rfl⟩ := Int.eq_ofNat_of_zero_le hpos
      exact iff_of_true (clear_follows hself (by omega)) trivial
  | zero self =>
      obtain ⟨cpuSet, hself⟩ := hvalid
      exact iff_of_true (zero_follows hself) trivial
  | isSet self cpu =>
      obtain ⟨cpuSet, hself, hpos, hcpu⟩ := hvalid
      obtain ⟨cpu, rfl⟩ := Int.eq_ofNat_of_zero_le hpos
      exact iff_of_true (isSet_follows hself (by omega)) trivial
  | count self =>
      obtain ⟨cpuSet, hself⟩ := hvalid
      rw [count_follows_iff hself, Op.FollowsOn, hself]
      simp only [Option.some.injEq, forall_eq']
  | binary operation self other =>
      obtain ⟨left, right, hself, hother⟩ := hvalid
      exact binary_follows_iff hself hother

namespace Witness

/-- A set of one byte with CPU 1, and one of two bytes with CPU 9. -/
def memory : List CpuSet := [⟨#[2]⟩, ⟨#[0, 2]⟩]

theorem memory_valid (operation : Binary) :
    (Op.binary operation 0 1).Valid memory :=
  ⟨_, _, rfl, rfl⟩

end Witness

open Witness in
theorem cpuSet_follows_intersect :
    (Op.binary .intersect 0 1).Follows memory ↔
      (Op.binary .intersect 0 1).FollowsOn memory :=
  cpuSet_follows_iff memory _ (memory_valid .intersect)

open Witness in
/-- The union of a set of one byte and one of two writes past the end of its
result. -/
theorem union_aborts :
    (Op.binary .union 0 1).Valid memory ∧
      (Op.binary .union 0 1).perform memory = none ∧
      ¬(Op.binary .union 0 1).Follows memory := by
  refine ⟨memory_valid .union, by decide, ?_⟩
  exact binary_not_follows rfl rfl (by decide)

end CpuSets

end UvMbt
