/-
Two ways to write a finite set of indices in a byte array: eight indices to a
byte (packed bits), or one byte to an index (a char mask).  Reading an array
one way after writing it the other way divides every member by eight, so the
two readings agree on almost no set.
-/
import Mathlib.Data.Finset.Max
import Mathlib.Data.Finset.Image
import Mathlib.Data.Nat.Bitwise
import Mathlib.Algebra.BigOperators.Intervals

set_option autoImplicit false

namespace PackedBits

/-- The byte at an index, zero past the end. -/
def byteAt (bytes : Array UInt8) (index : Nat) : UInt8 :=
  bytes.getD index 0

/-- Bit `index % 8` of byte `index / 8`. -/
def testBit (bytes : Array UInt8) (index : Nat) : Bool :=
  (byteAt bytes (index / 8)).toNat.testBit (index % 8)

/-- The set an array stands for when its bits are packed. -/
def members (bytes : Array UInt8) : Finset Nat :=
  (Finset.range (8 * bytes.size)).filter (fun index => testBit bytes index)

/-- The set an array stands for when it is a char mask. -/
def selected (bytes : Array UInt8) : Finset Nat :=
  (Finset.range bytes.size).filter (fun index => byteAt bytes index ≠ 0)

/-- A char mask of `size` bytes for a set; `mark` gives the byte that stands
for a selected index. -/
def charMask (mark : Nat → UInt8) (size : Nat) (set : Finset Nat) :
    Array UInt8 :=
  Array.ofFn (n := size) (fun index =>
    if index.val ∈ set then mark index.val else 0)

/-- The number of bits set in one byte. -/
def bitCount (byte : UInt8) : Nat :=
  ((Finset.range 8).filter (fun bit => byte.toNat.testBit bit)).card

theorem byteAt_of_lt {bytes : Array UInt8} {index : Nat}
    (hindex : index < bytes.size) : byteAt bytes index = bytes[index] := by
  simp [byteAt, Array.getD, hindex]

theorem byteAt_of_size_le {bytes : Array UInt8} {index : Nat}
    (hindex : bytes.size ≤ index) : byteAt bytes index = 0 := by
  simp [byteAt, Array.getD, Nat.not_lt.mpr hindex]

theorem ext_byteAt {left right : Array UInt8}
    (hsize : left.size = right.size)
    (hbyte : ∀ index < left.size, byteAt left index = byteAt right index) :
    left = right := by
  apply Array.ext hsize
  intro index hleft hright
  have h := hbyte index hleft
  rwa [byteAt_of_lt hleft, byteAt_of_lt hright] at h

@[simp] theorem byteAt_charMask (mark : Nat → UInt8) (size : Nat)
    (set : Finset Nat) (index : Nat) :
    byteAt (charMask mark size set) index =
      if index < size ∧ index ∈ set then mark index else 0 := by
  by_cases hindex : index < size
  · have hsize : index < (charMask mark size set).size := by
      simpa [charMask] using hindex
    rw [byteAt_of_lt hsize]
    simp [charMask, hindex]
  · have hsize : (charMask mark size set).size ≤ index := by
      simpa [charMask] using Nat.not_lt.mp hindex
    rw [byteAt_of_size_le hsize]
    simp [hindex]

@[simp] theorem size_charMask (mark : Nat → UInt8) (size : Nat)
    (set : Finset Nat) : (charMask mark size set).size = size := by
  simp [charMask]

@[simp] theorem mem_members {bytes : Array UInt8} {index : Nat} :
    index ∈ members bytes ↔ testBit bytes index = true := by
  simp only [members, Finset.mem_filter, Finset.mem_range,
    and_iff_right_iff_imp]
  intro hbit
  by_contra hindex
  have hzero : byteAt bytes (index / 8) = 0 :=
    byteAt_of_size_le (by omega)
  simp [testBit, hzero] at hbit

@[simp] theorem mem_selected {bytes : Array UInt8} {index : Nat} :
    index ∈ selected bytes ↔ byteAt bytes index ≠ 0 := by
  simp only [selected, Finset.mem_filter, Finset.mem_range,
    and_iff_right_iff_imp]
  intro hbyte
  by_contra hindex
  exact hbyte (byteAt_of_size_le (Nat.not_lt.mp hindex))

theorem mem_members_lt {bytes : Array UInt8} {index : Nat}
    (hindex : index ∈ members bytes) : index < 8 * bytes.size := by
  simpa using (Finset.mem_filter.mp hindex).1

/-- A byte is non-zero exactly when one of its eight bits is set. -/
theorem ne_zero_iff_exists_bit (byte : UInt8) :
    byte ≠ 0 ↔ ∃ bit < 8, byte.toNat.testBit bit = true := by
  constructor
  · intro hbyte
    have hnat : byte.toNat ≠ 0 := by
      intro hzero
      exact hbyte (UInt8.toNat_inj.mp hzero)
    obtain ⟨bit, hbit⟩ := Nat.exists_testBit_of_ne_zero hnat
    refine ⟨bit, ?_, hbit⟩
    by_contra hlarge
    have hlt : byte.toNat < 2 ^ bit :=
      lt_of_lt_of_le byte.toNat_lt
        (Nat.pow_le_pow_right (by decide) (Nat.not_lt.mp hlarge))
    simp [Nat.testBit_eq_false_of_lt hlt] at hbit
  · rintro ⟨bit, _, hbit⟩ rfl
    simp at hbit

/-- Reading packed bits as a char mask divides every member by eight. -/
theorem selected_eq_image_members (bytes : Array UInt8) :
    selected bytes = (members bytes).image (· / 8) := by
  ext index
  simp only [mem_selected, Finset.mem_image, mem_members]
  constructor
  · intro hbyte
    obtain ⟨bit, hlt, hbit⟩ := (ne_zero_iff_exists_bit _).mp hbyte
    refine ⟨8 * index + bit, ?_, by omega⟩
    have hquot : (8 * index + bit) / 8 = index := by omega
    have hrem : (8 * index + bit) % 8 = bit := by omega
    simpa [testBit, hquot, hrem] using hbit
  · rintro ⟨member, hmember, rfl⟩
    exact (ne_zero_iff_exists_bit _).mpr
      ⟨member % 8, Nat.mod_lt _ (by decide), hmember⟩

/-- Division by a number above one fixes only the sets inside `{0}`: the
largest member would have to be its own quotient. -/
theorem image_div_eq_self_iff {divisor : Nat} (hdivisor : 1 < divisor)
    (set : Finset Nat) : set.image (· / divisor) = set ↔ set ⊆ {0} := by
  constructor
  · intro himage member hmember
    have hnonempty : set.Nonempty := ⟨member, hmember⟩
    have hmax : set.max' hnonempty ∈ set.image (· / divisor) := by
      rw [himage]
      exact set.max'_mem hnonempty
    obtain ⟨source, hsource, hquot⟩ := Finset.mem_image.mp hmax
    have hle : source ≤ set.max' hnonempty := set.le_max' source hsource
    have hzero : set.max' hnonempty = 0 := by
      by_contra hpos
      have hsource0 : 0 < source := by
        rcases Nat.eq_zero_or_pos source with rfl | hsource0
        · simp only [Nat.zero_div] at hquot
          exact absurd hquot.symm hpos
        · exact hsource0
      have hdiv : source / divisor < source :=
        Nat.div_lt_self hsource0 hdivisor
      omega
    have hmember0 : member ≤ set.max' hnonempty := set.le_max' member hmember
    rw [Finset.mem_singleton]
    omega
  · intro hsub
    rcases Finset.subset_singleton_iff.mp hsub with rfl | rfl
    · simp
    · simp

/-- The two readings of one array agree only below index one. -/
theorem selected_eq_members_iff (bytes : Array UInt8) :
    selected bytes = members bytes ↔ members bytes ⊆ {0} := by
  rw [selected_eq_image_members]
  exact image_div_eq_self_iff (by decide) (members bytes)

theorem selected_charMask {mark : Nat → UInt8} {size : Nat}
    {set : Finset Nat} (hmark : ∀ index, mark index ≠ 0)
    (hset : set ⊆ Finset.range size) :
    selected (charMask mark size set) = set := by
  ext index
  simp only [mem_selected, byteAt_charMask, ne_eq, ite_eq_right_iff,
    Classical.not_imp]
  constructor
  · rintro ⟨⟨_, hindex⟩, _⟩
    exact hindex
  · intro hindex
    exact ⟨⟨by simpa using hset hindex, hindex⟩, hmark index⟩

/-- Writing back the char-mask reading restores an array exactly when each of
its bytes is zero or the mark. -/
theorem charMask_selected_eq_iff (mark : Nat → UInt8) (bytes : Array UInt8) :
    charMask mark bytes.size (selected bytes) = bytes ↔
      ∀ index < bytes.size,
        byteAt bytes index = 0 ∨ byteAt bytes index = mark index := by
  constructor
  · intro hmask index hindex
    by_cases hzero : byteAt bytes index = 0
    · exact Or.inl hzero
    · right
      have hbyte : byteAt (charMask mark bytes.size (selected bytes)) index =
          mark index := by
        simp [hindex, hzero]
      rwa [hmask] at hbyte
  · intro hbytes
    apply ext_byteAt (by simp)
    intro index hindex
    have hlt : index < bytes.size := by simpa using hindex
    by_cases hzero : byteAt bytes index = 0
    · simp [hzero]
    · have hmark := (hbytes index hlt).resolve_left hzero
      rw [byteAt_charMask, if_pos ⟨hlt, mem_selected.mpr hzero⟩, hmark]

/-- The cardinality of a packed set, byte by byte. -/
theorem card_members (bytes : Array UInt8) :
    (members bytes).card =
      ∑ index ∈ Finset.range bytes.size, bitCount (byteAt bytes index) := by
  have hcount : ∀ size, ((Finset.range (8 * size)).filter
      (fun index => testBit bytes index)).card =
        ∑ index ∈ Finset.range size, bitCount (byteAt bytes index) := by
    intro size
    induction size with
    | zero => rfl
    | succ size ih =>
        rw [Finset.sum_range_succ, ← ih, Finset.card_filter, Finset.card_filter,
          Nat.mul_succ, Finset.sum_range_add, bitCount, Finset.card_filter]
        congr 1
        apply Finset.sum_congr rfl
        intro bit hbit
        have hlt : bit < 8 := Finset.mem_range.mp hbit
        have hquot : (8 * size + bit) / 8 = size := by omega
        have hrem : (8 * size + bit) % 8 = bit := by omega
        rw [testBit, hquot, hrem]
  exact hcount bytes.size

/-- The low bit and the bits of the halved byte make up the whole byte. -/
theorem bitCount_eq_add_shiftRight (byte : UInt8) :
    bitCount byte = (if byte &&& 1 ≠ 0 then 1 else 0) + bitCount (byte >>> 1) := by
  have hall : ∀ value : Fin 256,
      bitCount (UInt8.ofFin value) =
        (if UInt8.ofFin value &&& 1 ≠ 0 then 1 else 0) +
          bitCount (UInt8.ofFin value >>> 1) := by
    decide +kernel
  exact hall byte.toFin

end PackedBits
