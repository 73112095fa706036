/-
Argument packing: `moonbit_uv_setup_args` copies the arguments into one block,
a table of pointers and the strings behind it, which it hands to
`uv_setup_args`.
-/
import Mathlib.Algebra.Group.Nat.Defs
import Mathlib.Data.List.TakeWhile
import UvMbt.ByteOrder
import UvMbt.CString
import UvMbt.CountedLoop
import UvMbt.Errno

set_option autoImplicit false

namespace UvMbt.Args

open ByteOrder

/-- A `Bytes` of MoonBit; its length is an `Int`. -/
structure Bytes where
  contents : List UInt8
  length_lt : contents.length < 2 ^ 31

/-- A `FixedArray[Bytes]`. -/
structure Argv where
  items : List Bytes
  length_lt : items.length < 2 ^ 31

/-- What `malloc` returns for a size, if not `NULL`: the address and the bytes
of a block that ends before the address space does. -/
structure Block (size : Nat) where
  base : Nat
  bytes : List UInt8
  length_bytes : bytes.length = size
  base_pos : 0 < base
  fits : base + size < 2 ^ 64

section Code

/-- What C can read from a `Bytes`: the runtime puts a NUL after the
contents. -/
def Bytes.memory (bytes : Bytes) : List UInt8 := bytes.contents ++ [0]

variable {size : Nat}

/-- A store into the block, which faults outside of it. -/
def Block.store (block : Block size) (address : Nat) (data : List UInt8) :
    Option (Block size) :=
  if hinside : block.base ≤ address ∧
      address + data.length ≤ block.base + size then
    some { block with
      bytes := splice block.bytes (address - block.base) data
      length_bytes := by
        have hbytes := block.length_bytes
        rw [length_splice (by omega), hbytes] }
  else none

/-- Arithmetic of `size_t` and of pointers. -/
def wrap (number : Nat) : Nat := number % 2 ^ 64

/-- `sizeof(char *)`. -/
def sizeofPointer : Nat := 8

/-- The first loop: the lengths of the arrays, each with its NUL. -/
def sumLengths (items : List Bytes) : Nat :=
  items.foldl (fun size item => wrap (size + (item.contents.length + 1))) 0

/-- The size that is asked of `malloc`. -/
def blockSize (argv : Argv) : Nat :=
  wrap (sumLengths argv.items + (argv.items.length + 1) * sizeofPointer)

/-- The state of the second loop: the block and the pointer `s`. -/
structure Filling (size : Nat) where
  block : Block size
  s : Nat

/-- The body of the second loop: it copies a string to `s` and stores `s` in
the table. -/
def copyString (items : List Bytes) (cArgv index : Nat)
    (state : Filling size) : Option (Filling size) := do
  let item ← items[index]?
  let length ← CString.strlen item.memory
  let count := wrap (length + 1)
  let data ← field item.memory 0 count
  let block ← state.block.store state.s data
  let block ← block.store (wrap (cArgv + index * sizeofPointer))
    (littleEndian sizeofPointer state.s)
  return ⟨block, wrap (state.s + count)⟩

/-- What `moonbit_uv_setup_args` returns, and the `argc` and the block that it
hands to `uv_setup_args`. -/
structure Setup (size : Nat) where
  status : Int
  handed : Option (Nat × Block size)

/-- `moonbit_uv_setup_args`; no result is a store or a read out of bounds. -/
def setupArgs (uvValue : Errno → Int)
    (malloc : (size : Nat) → Option (Block size)) (argv : Argv) :
    Option (Setup (blockSize argv)) :=
  let argc := argv.items.length
  match malloc (blockSize argv) with
  | none => some ⟨uvValue .ENOMEM, none⟩
  | some block => do
      let cArgv := block.base
      let block ← block.store cArgv (List.replicate (blockSize argv) 0)
      let filled ← CountedLoop.loop (copyString argv.items cArgv) 0 argc
        ⟨block, wrap (cArgv + (argc + 1) * sizeofPointer)⟩
      let block ← filled.block.store (wrap (cArgv + argc * sizeofPointer))
        (littleEndian sizeofPointer 0)
      return ⟨0, some (argc, block)⟩

end Code

section Reading

variable {size : Nat}

/-- `c_argv[index]`. -/
def Block.pointer (block : Block size) (index : Nat) : Option Nat :=
  (field block.bytes (index * sizeofPointer) sizeofPointer).map
    ofLittleEndian

/-- The string at an address, up to its NUL, all of it in the block. -/
def Block.string (block : Block size) (address : Nat) :
    Option (List UInt8) :=
  if block.base ≤ address then
    let memory := block.bytes.drop (address - block.base)
    (CString.strlen memory).map memory.take
  else none

/-- The vector that `uv_setup_args` asks for: it ends with `NULL`, every
pointer is to an argument up to its first NUL, and the next string begins
where one ends. -/
structure Packs (items : List Bytes) (block : Block size) : Prop where
  last : block.pointer items.length = some 0
  points : ∀ index item, items[index]? = some item →
    ∃ address, block.pointer index = some address ∧
      block.string address = some (item.contents.takeWhile (· != 0))
  contiguous : ∀ index, index + 1 < items.length →
    ∃ address text, block.pointer index = some address ∧
      block.string address = some text ∧
      block.pointer (index + 1) = some (address + text.length + 1)

end Reading

section Sizes

theorem wrap_eq {number : Nat} (hnumber : number < 2 ^ 64) :
    wrap number = number :=
  Nat.mod_eq_of_lt hnumber

/-- The bytes of the string area. -/
def areaSize (items : List Bytes) : Nat :=
  (items.map (fun item => item.contents.length + 1)).sum

theorem areaSize_cons (item : Bytes) (items : List Bytes) :
    areaSize (item :: items) = item.contents.length + 1 + areaSize items := by
  rw [areaSize, areaSize, List.map_cons, List.sum_cons]

theorem areaSize_le (items : List Bytes) :
    areaSize items ≤ items.length * 2 ^ 31 := by
  induction items with
  | nil => exact Nat.zero_le _
  | cons item items ih =>
      have hitem := item.length_lt
      rw [areaSize_cons, List.length_cons, Nat.add_mul]
      omega

theorem foldl_wrap (items : List Bytes) {start : Nat}
    (hfits : start + areaSize items < 2 ^ 64) :
    items.foldl (fun size item => wrap (size + (item.contents.length + 1)))
      start = start + areaSize items := by
  induction items generalizing start with
  | nil => rfl
  | cons item items ih =>
      rw [areaSize_cons] at hfits
      have hwrap : wrap (start + (item.contents.length + 1)) =
          start + (item.contents.length + 1) := by
        apply wrap_eq
        omega
      rw [List.foldl_cons, hwrap, ih (by omega), areaSize_cons]
      omega

/-- Neither sum wraps: the block holds the table and the area. -/
theorem blockSize_eq (argv : Argv) :
    blockSize argv =
      (argv.items.length + 1) * sizeofPointer + areaSize argv.items := by
  have hcount := argv.length_lt
  have harea := areaSize_le argv.items
  have hsum : sumLengths argv.items = areaSize argv.items := by
    rw [sumLengths, foldl_wrap argv.items (by omega), Nat.zero_add]
  rw [blockSize, hsum, wrap_eq, Nat.add_comm]
  rw [sizeofPointer]
  omega

end Sizes

section Strings

/-- The argument as C sees it. -/
def Bytes.text (item : Bytes) : List UInt8 :=
  item.contents.takeWhile (· != 0)

theorem Bytes.zero_notMem_text (item : Bytes) : 0 ∉ item.text := by
  intro hmem
  have hne := List.mem_takeWhile_imp hmem
  simp at hne

theorem Bytes.length_text_le (item : Bytes) :
    item.text.length ≤ item.contents.length :=
  (List.takeWhile_sublist _).length_le

/-- The terminator of an argument is its own first NUL or that of the
runtime. -/
theorem Bytes.memory_eq (item : Bytes) :
    ∃ after, item.memory = item.text ++ 0 :: after := by
  have hsplit : item.text ++ item.contents.dropWhile (· != 0) =
      item.contents := List.takeWhile_append_dropWhile
  cases hrest : item.contents.dropWhile (· != 0) with
  | nil =>
      rw [hrest, List.append_nil] at hsplit
      refine ⟨[], ?_⟩
      rw [Bytes.memory, ← hsplit]
  | cons byte rest =>
      have hbyte : byte = 0 := by
        have hhead := List.head?_dropWhile_not (· != 0) item.contents
        rw [hrest] at hhead
        simpa using hhead
      refine ⟨rest ++ [0], ?_⟩
      rw [Bytes.memory, ← hsplit, hrest, hbyte, List.append_assoc]
      rfl

theorem Bytes.strlen_memory (item : Bytes) :
    CString.strlen item.memory = some item.text.length := by
  obtain ⟨after, hmemory⟩ := item.memory_eq
  rw [hmemory, CString.strlen_append _ _ item.zero_notMem_text]

theorem Bytes.field_memory (item : Bytes) :
    field item.memory 0 (item.text.length + 1) = some (item.text ++ [0]) := by
  obtain ⟨after, hmemory⟩ := item.memory_eq
  have hsplit : item.memory = [] ++ (item.text ++ [0]) ++ after := by
    rw [hmemory, List.nil_append, List.append_assoc]
    rfl
  rw [hsplit]
  apply field_append
  · rfl
  · rw [List.length_append]
    rfl

/-- The strings one behind the other. -/
def packed (items : List Bytes) : List UInt8 :=
  items.flatMap (fun item => item.text ++ [0])

theorem length_packed_le (items : List Bytes) :
    (packed items).length ≤ areaSize items := by
  induction items with
  | nil => exact Nat.zero_le _
  | cons item items ih =>
      have hitem := item.length_text_le
      rw [areaSize_cons, packed, List.flatMap_cons, List.length_append,
        List.length_append]
      have hone : ([0] : List UInt8).length = 1 := rfl
      rw [packed] at ih
      omega

/-- The distance of a string from the first one. -/
def position (items : List Bytes) (index : Nat) : Nat :=
  (packed (items.take index)).length

variable {items : List Bytes} {index : Nat} {item : Bytes}

theorem packed_split (hitem : items[index]? = some item) :
    packed items = packed (items.take index) ++ (item.text ++ [0]) ++
      packed (items.drop (index + 1)) := by
  obtain ⟨hindex, hget⟩ := List.getElem?_eq_some_iff.mp hitem
  have hdrop := List.drop_eq_getElem_cons hindex
  rw [hget] at hdrop
  calc packed items
      = packed (items.take index ++ items.drop index) := by
        rw [List.take_append_drop]
    _ = packed (items.take index) ++ packed (items.drop index) :=
        List.flatMap_append
    _ = _ := by
        rw [hdrop, packed, packed, packed, List.flatMap_cons,
          List.append_assoc, List.append_assoc, List.append_assoc]

theorem packed_take_succ (hitem : items[index]? = some item) :
    packed (items.take (index + 1)) =
      packed (items.take index) ++ (item.text ++ [0]) := by
  obtain ⟨hindex, rfl⟩ := List.getElem?_eq_some_iff.mp hitem
  rw [List.take_succ_eq_append_getElem hindex, packed, List.flatMap_append,
    List.flatMap_singleton]
  rfl

theorem position_succ (hitem : items[index]? = some item) :
    position items (index + 1) =
      position items index + item.text.length + 1 := by
  rw [position, packed_take_succ hitem, List.length_append,
    List.length_append]
  rfl

theorem position_le (items : List Bytes) (index : Nat) :
    position items index ≤ areaSize items := by
  have hsplit : packed items =
      packed (items.take index) ++ packed (items.drop index) := by
    rw [packed, packed, packed, ← List.flatMap_append, List.take_append_drop]
  have hle := length_packed_le items
  rw [hsplit, List.length_append] at hle
  rw [position]
  omega

end Strings

section Image

/-- The pointers that are stored before an index. -/
def table (items : List Bytes) (start index : Nat) : List UInt8 :=
  (List.range index).flatMap (fun earlier =>
    littleEndian sizeofPointer (start + position items earlier))

/-- The block at an index of the loop, zero apart from the pointers and the
strings stored so far. -/
def image (items : List Bytes) (start index : Nat) : List UInt8 :=
  table items start index ++
    List.replicate ((items.length + 1 - index) * sizeofPointer) 0 ++
    packed (items.take index) ++
    List.replicate (areaSize items - position items index) 0

variable {items : List Bytes} {start index : Nat} {item : Bytes}

theorem table_succ :
    table items start (index + 1) = table items start index ++
      littleEndian sizeofPointer (start + position items index) := by
  rw [table, List.range_succ, List.flatMap_append, List.flatMap_singleton]
  rfl

theorem length_table :
    (table items start index).length = index * sizeofPointer := by
  induction index with
  | zero => exact (Nat.zero_mul _).symm
  | succ index ih =>
      rw [table_succ, List.length_append, ih, length_littleEndian,
        Nat.add_mul, Nat.one_mul]

theorem image_zero :
    image items start 0 = List.replicate
      ((items.length + 1) * sizeofPointer + areaSize items) 0 := by
  have htable : table items start 0 = [] := rfl
  have hpacked : packed (items.take 0) = [] := rfl
  have hposition : position items 0 = 0 := rfl
  rw [image, htable, hpacked, hposition, List.nil_append, List.append_nil,
    Nat.sub_zero, Nat.sub_zero, ← List.replicate_add]

theorem length_image (hindex : index ≤ items.length) :
    (image items start index).length =
      (items.length + 1) * sizeofPointer + areaSize items := by
  have hposition := position_le items index
  rw [image, List.length_append, List.length_append, List.length_append,
    length_table, List.length_replicate, List.length_replicate]
  rw [position] at hposition ⊢
  rw [sizeofPointer]
  omega

/-- A table with one more pointer, with the cells left and the end. -/
theorem split_table (hindex : index < items.length + 1) :
    List.replicate ((items.length + 1 - index) * sizeofPointer) 0 =
      List.replicate sizeofPointer (0 : UInt8) ++
        List.replicate ((items.length + 1 - (index + 1)) * sizeofPointer)
          0 := by
  rw [← List.replicate_add, sizeofPointer]
  congr 1
  omega

theorem split_area (hitem : items[index]? = some item) :
    List.replicate (areaSize items - position items index) 0 =
      List.replicate (item.text.length + 1) (0 : UInt8) ++
        List.replicate (areaSize items - position items (index + 1)) 0 := by
  have hposition := position_le items (index + 1)
  have hsucc := position_succ hitem
  rw [← List.replicate_add]
  congr 1
  omega

end Image

section Loop

variable {size : Nat}

theorem Block.store_append {block : Block size}
    (before middle after : List UInt8) {data : List UInt8} {address : Nat}
    (hbytes : block.bytes = before ++ middle ++ after)
    (haddress : address = block.base + before.length)
    (hlength : middle.length = data.length) :
    ∃ next, block.store address data = some next ∧
      next.base = block.base ∧ next.bytes = before ++ data ++ after := by
  have hsize := block.length_bytes
  rw [hbytes, List.length_append, List.length_append] at hsize
  have hoffset : before.length = address - block.base := by omega
  have hinside : block.base ≤ address ∧
      address + data.length ≤ block.base + size := by omega
  rw [Block.store, dif_pos hinside]
  refine ⟨_, rfl, rfl, ?_⟩
  rw [← splice_append before middle after hoffset hlength, ← hbytes]

/-- `&c_argv[argc + 1]`. -/
def areaStart (items : List Bytes) (base : Nat) : Nat :=
  base + (items.length + 1) * sizeofPointer

/-- The state of the second loop at an index. -/
structure Filled (items : List Bytes) (base index : Nat)
    (state : Filling size) : Prop where
  base_eq : state.block.base = base
  bytes_eq : state.block.bytes = image items (areaStart items base) index
  s_eq : state.s = areaStart items base + position items index

variable {items : List Bytes} {base index : Nat} {item : Bytes}
  {state : Filling size}

theorem Filled.fits (hfilled : Filled items base index state)
    (hindex : index ≤ items.length) :
    areaStart items base + areaSize items < 2 ^ 64 := by
  have hsize := state.block.length_bytes
  rw [hfilled.bytes_eq, length_image hindex] at hsize
  have hfits := state.block.fits
  rw [hfilled.base_eq] at hfits
  rw [areaStart]
  omega

/-- The string of an index goes to the front of what is left of the area. -/
theorem Filled.store_string (hfilled : Filled items base index state)
    (hitem : items[index]? = some item) :
    ∃ stored, state.block.store state.s (item.text ++ [0]) = some stored ∧
      stored.base = base ∧ stored.bytes =
        table items (areaStart items base) index ++
          List.replicate ((items.length + 1 - index) * sizeofPointer) 0 ++
          packed (items.take (index + 1)) ++
          List.replicate (areaSize items - position items (index + 1)) 0 := by
  have hindex := (List.getElem?_eq_some_iff.mp hitem).choose
  have hbytes : state.block.bytes =
      (table items (areaStart items base) index ++
        List.replicate ((items.length + 1 - index) * sizeofPointer) 0 ++
        packed (items.take index)) ++
      List.replicate (item.text.length + 1) 0 ++
      List.replicate (areaSize items - position items (index + 1)) 0 := by
    rw [hfilled.bytes_eq, image, split_area hitem, ← List.append_assoc]
  have haddress : state.s = state.block.base +
      (table items (areaStart items base) index ++
        List.replicate ((items.length + 1 - index) * sizeofPointer) 0 ++
        packed (items.take index)).length := by
    rw [hfilled.s_eq, hfilled.base_eq, List.length_append,
      List.length_append, length_table, List.length_replicate, position,
      areaStart, sizeofPointer]
    omega
  have hlength : (List.replicate (item.text.length + 1) (0 : UInt8)).length =
      (item.text ++ [0]).length := by
    rw [List.length_replicate, List.length_append]
    rfl
  obtain ⟨stored, hstore, hbase, hstored⟩ :=
    Block.store_append _ _ _ hbytes haddress hlength
  refine ⟨stored, hstore, hbase.trans hfilled.base_eq, ?_⟩
  rw [hstored, packed_take_succ hitem]
  simp only [List.append_assoc]

/-- The pointer of an index goes to the front of what is left of the table. -/
theorem Block.store_pointer {stored : Block size} {strings : List UInt8}
    (hindex : index < items.length + 1) (hbase : stored.base = base)
    (hbytes : stored.bytes = table items (areaStart items base) index ++
      List.replicate ((items.length + 1 - index) * sizeofPointer) 0 ++
      strings) (value : Nat) :
    ∃ last, stored.store (base + index * sizeofPointer)
        (littleEndian sizeofPointer value) = some last ∧
      last.base = base ∧ last.bytes =
        table items (areaStart items base) index ++
          littleEndian sizeofPointer value ++
          (List.replicate ((items.length + 1 - (index + 1)) * sizeofPointer)
            0 ++ strings) := by
  have hsplit : stored.bytes = table items (areaStart items base) index ++
      List.replicate sizeofPointer 0 ++
      (List.replicate ((items.length + 1 - (index + 1)) * sizeofPointer) 0 ++
        strings) := by
    rw [hbytes, split_table hindex]
    simp only [List.append_assoc]
  have haddress : base + index * sizeofPointer =
      stored.base + (table items (areaStart items base) index).length := by
    rw [hbase, length_table]
  have hlength : (List.replicate sizeofPointer (0 : UInt8)).length =
      (littleEndian sizeofPointer value).length := by
    rw [List.length_replicate, length_littleEndian]
  obtain ⟨last, hstore, hlast, hbytes⟩ :=
    Block.store_append _ _ _ hsplit haddress hlength
  exact ⟨last, hstore, hlast.trans hbase, hbytes⟩

theorem Filled.wrap_cell (hfilled : Filled items base index state)
    (hindex : index ≤ items.length) {cell : Nat}
    (hcell : cell ≤ items.length) :
    wrap (base + cell * sizeofPointer) = base + cell * sizeofPointer := by
  have hfits := hfilled.fits hindex
  apply wrap_eq
  rw [areaStart, sizeofPointer] at hfits
  rw [sizeofPointer]
  omega

theorem Filled.wrap_next (hfilled : Filled items base index state)
    (hitem : items[index]? = some item) :
    wrap (state.s + (item.text.length + 1)) =
      areaStart items base + position items (index + 1) := by
  have hindex := (List.getElem?_eq_some_iff.mp hitem).choose
  have hfits := hfilled.fits (Nat.le_of_lt hindex)
  have hle := position_le items (index + 1)
  have hsum : state.s + (item.text.length + 1) =
      areaStart items base + position items (index + 1) := by
    rw [hfilled.s_eq, position_succ hitem]
    omega
  rw [hsum]
  apply wrap_eq
  omega

/-- One round stores one string and one pointer. -/
theorem copyString_filled (hindex : index < items.length)
    (hfilled : Filled items base index state) :
    ∃ next, copyString items base index state = some next ∧
      Filled items base (index + 1) next := by
  have hitem : items[index]? = some items[index] :=
    List.getElem?_eq_getElem hindex
  generalize items[index] = item at hitem
  have hcount : wrap (item.text.length + 1) = item.text.length + 1 := by
    have hle := item.length_text_le
    have hlt := item.length_lt
    apply wrap_eq
    omega
  obtain ⟨stored, hstore, hbase, hbytes⟩ := hfilled.store_string hitem
  rw [List.append_assoc _ (packed _) _] at hbytes
  obtain ⟨last, hlast, hlastBase, hlastBytes⟩ :=
    Block.store_pointer (by omega) hbase hbytes state.s
  refine ⟨⟨last, wrap (state.s + (item.text.length + 1))⟩, ?_, ?_⟩
  · simp only [copyString, hitem, item.strlen_memory, Option.bind_eq_bind,
      Option.bind_some, hcount, item.field_memory, hstore,
      hfilled.wrap_cell (Nat.le_of_lt hindex) (Nat.le_of_lt hindex), hlast,
      Option.pure_def]
  · constructor
    · exact hlastBase
    · rw [hlastBytes, image, table_succ, hfilled.s_eq]
      simp only [List.append_assoc]
    · exact hfilled.wrap_next hitem

/-- The block that is handed over. -/
def vector (items : List Bytes) (start : Nat) : List UInt8 :=
  table items start items.length ++ littleEndian sizeofPointer 0 ++
    (packed items ++
      List.replicate (areaSize items - (packed items).length) 0)

/-- `c_argv[argc] = NULL` ends the table. -/
theorem Filled.store_null (hfilled : Filled items base items.length state) :
    ∃ last, state.block.store (wrap (base + items.length * sizeofPointer))
        (littleEndian sizeofPointer 0) = some last ∧
      last.base = base ∧
      last.bytes = vector items (areaStart items base) := by
  have hbytes := hfilled.bytes_eq
  rw [image, position, List.take_length, List.append_assoc _ (packed _) _]
    at hbytes
  obtain ⟨last, hstore, hbase, hlast⟩ :=
    Block.store_pointer (Nat.lt_succ_self _) hfilled.base_eq hbytes 0
  refine ⟨last, ?_, hbase, ?_⟩
  · rw [hfilled.wrap_cell (Nat.le_refl _) (Nat.le_refl _)]
    exact hstore
  · rw [hlast, Nat.sub_self, Nat.zero_mul]
    rfl

/-- Every store is inside the block, and what is handed over is the vector. -/
theorem setupArgs_block (uvValue : Errno → Int)
    (malloc : (size : Nat) → Option (Block size)) (argv : Argv)
    {block : Block (blockSize argv)}
    (hmalloc : malloc (blockSize argv) = some block) :
    ∃ last : Block (blockSize argv),
      setupArgs uvValue malloc argv =
        some ⟨0, some (argv.items.length, last)⟩ ∧
      last.base = block.base ∧
      last.bytes = vector argv.items (areaStart argv.items block.base) := by
  have hsize := blockSize_eq argv
  have hbytes : block.bytes = [] ++ block.bytes ++ [] := by simp
  have hlength : block.bytes.length =
      (List.replicate (blockSize argv) (0 : UInt8)).length := by
    rw [block.length_bytes, List.length_replicate]
  obtain ⟨zeros, hzeros, hzerosBase, hzerosBytes⟩ :=
    Block.store_append [] block.bytes [] hbytes (Nat.add_zero _).symm hlength
  have hstart : wrap (block.base + (argv.items.length + 1) * sizeofPointer) =
      areaStart argv.items block.base := by
    have hfits := block.fits
    apply wrap_eq
    omega
  have hfilled : Filled argv.items block.base 0
      (⟨zeros, areaStart argv.items block.base⟩ :
        Filling (blockSize argv)) := by
    constructor
    · exact hzerosBase
    · rw [hzerosBytes, image_zero, ← hsize, List.nil_append, List.append_nil]
    · rfl
  have hloop : ∃ filled,
      CountedLoop.loop (copyString argv.items block.base) 0
        argv.items.length ⟨zeros, areaStart argv.items block.base⟩ =
          some filled ∧
      Filled argv.items block.base (0 + argv.items.length) filled := by
    apply CountedLoop.loop_invariant (Filled argv.items block.base)
    · intro index state _ hindex hstate
      rw [Nat.zero_add] at hindex
      exact copyString_filled hindex hstate
    · exact hfilled
  rw [Nat.zero_add] at hloop
  obtain ⟨filled, hloop, hfilled⟩ := hloop
  obtain ⟨last, hlast, hlastBase, hlastBytes⟩ := hfilled.store_null
  refine ⟨last, ?_, hlastBase, hlastBytes⟩
  simp only [setupArgs, hmalloc, hzeros, Option.bind_eq_bind,
    Option.bind_some, hstart, hloop, hlast, Option.pure_def]

end Loop

section Vector

variable {size : Nat} {items : List Bytes} {block : Block size}
  {index : Nat} {item : Bytes}

theorem Block.pointer_append (before after : List UInt8) {value : Nat}
    (hbytes : block.bytes =
      before ++ littleEndian sizeofPointer value ++ after)
    (hindex : before.length = index * sizeofPointer)
    (hvalue : value < 2 ^ 64) : block.pointer index = some value := by
  rw [Block.pointer, hbytes,
    field_append _ _ _ hindex (length_littleEndian _ _), Option.map_some,
    ofLittleEndian_littleEndian_of_lt hvalue]

theorem Block.string_append (before text after : List UInt8) {address : Nat}
    (hbytes : block.bytes = before ++ (text ++ 0 :: after))
    (haddress : address = block.base + before.length) (hnul : 0 ∉ text) :
    block.string address = some text := by
  have hoffset : address - block.base = before.length := by omega
  have hmemory : block.bytes.drop (address - block.base) =
      text ++ 0 :: after := by
    rw [hoffset, hbytes, List.drop_left]
  rw [Block.string, if_pos (by omega), hmemory]
  simp only [CString.strlen_append text after hnul, Option.map_some,
    List.take_left]

theorem table_split (items : List Bytes) (start : Nat) {count : Nat}
    (hindex : index < count) :
    ∃ rest, table items start count = table items start index ++
      littleEndian sizeofPointer (start + position items index) ++ rest := by
  induction count with
  | zero => exact absurd hindex (Nat.not_lt_zero _)
  | succ count ih =>
      rw [table_succ]
      rcases Nat.lt_succ_iff_lt_or_eq.mp hindex with hlt | rfl
      · obtain ⟨rest, hrest⟩ := ih hlt
        rw [hrest, List.append_assoc]
        exact ⟨_, rfl⟩
      · exact ⟨[], (List.append_nil _).symm⟩

/-- A block with the vector in it. -/
structure Holds (items : List Bytes) (block : Block size) : Prop where
  bytes_eq : block.bytes = vector items (areaStart items block.base)

theorem Holds.address_lt (hholds : Holds items block) (index : Nat) :
    areaStart items block.base + position items index < 2 ^ 64 := by
  have hsize := block.length_bytes
  have hpacked := length_packed_le items
  have hposition := position_le items index
  have hfits := block.fits
  rw [hholds.bytes_eq, vector, List.length_append, List.length_append,
    List.length_append, length_table, length_littleEndian,
    List.length_replicate] at hsize
  rw [areaStart, Nat.add_mul]
  omega

theorem Holds.pointer (hholds : Holds items block)
    (hindex : index < items.length) :
    block.pointer index =
      some (areaStart items block.base + position items index) := by
  obtain ⟨rest, hrest⟩ :=
    table_split items (areaStart items block.base) hindex
  apply Block.pointer_append (table items (areaStart items block.base) index)
    (rest ++ littleEndian sizeofPointer 0 ++ (packed items ++
      List.replicate (areaSize items - (packed items).length) 0))
  · rw [hholds.bytes_eq, vector, hrest]
    simp only [List.append_assoc]
  · exact length_table
  · exact hholds.address_lt index

theorem Holds.pointer_last (hholds : Holds items block) :
    block.pointer items.length = some 0 :=
  Block.pointer_append _ _ hholds.bytes_eq length_table (by decide)

theorem Holds.string (hholds : Holds items block)
    (hitem : items[index]? = some item) :
    block.string (areaStart items block.base + position items index) =
      some item.text := by
  apply Block.string_append
    (table items (areaStart items block.base) items.length ++
      littleEndian sizeofPointer 0 ++ packed (items.take index)) item.text
    (packed (items.drop (index + 1)) ++
      List.replicate (areaSize items - (packed items).length) 0)
  · rw [hholds.bytes_eq, vector]
    nth_rewrite 1 [packed_split hitem]
    simp only [List.append_assoc, List.cons_append, List.nil_append]
  · rw [List.length_append, List.length_append, length_table,
      length_littleEndian, areaStart, position, Nat.add_mul]
    omega
  · exact item.zero_notMem_text

theorem Holds.packs (hholds : Holds items block) : Packs items block where
  last := hholds.pointer_last
  points index item hitem := by
    have hindex := (List.getElem?_eq_some_iff.mp hitem).choose
    exact ⟨_, hholds.pointer hindex, hholds.string hitem⟩
  contiguous index hnext := by
    have hindex := Nat.lt_of_succ_lt hnext
    have hitem : items[index]? = some items[index] :=
      List.getElem?_eq_getElem hindex
    refine ⟨_, _, hholds.pointer hindex, hholds.string hitem, ?_⟩
    rw [hholds.pointer hnext, position_succ hitem]
    congr 1
    omega

end Vector

/-- For every argument vector and every answer of `malloc`, no store and no
read goes out of bounds; the code of `ENOMEM` comes back without a block, and
`uv_setup_args` is handed the arguments in one contiguous vector with one. -/
theorem setupArgs_packs (uvValue : Errno → Int)
    (malloc : (size : Nat) → Option (Block size)) (argv : Argv) :
    match malloc (blockSize argv) with
    | none => setupArgs uvValue malloc argv = some ⟨uvValue .ENOMEM, none⟩
    | some block =>
        ∃ last : Block (blockSize argv),
          setupArgs uvValue malloc argv =
            some ⟨0, some (argv.items.length, last)⟩ ∧
          last.base = block.base ∧ Packs argv.items last := by
  cases hmalloc : malloc (blockSize argv) with
  | none => rw [setupArgs, hmalloc]
  | some block =>
      obtain ⟨last, hsetup, hbase, hbytes⟩ :=
        setupArgs_block uvValue malloc argv hmalloc
      rw [← hbase] at hbytes
      exact ⟨last, hsetup, hbase, (Holds.mk hbytes).packs⟩

/-- A block at an address, as `malloc` leaves it. -/
def freshBlock (base size : Nat) : Option (Block size) :=
  if hfits : 0 < base ∧ base + size < 2 ^ 64 then
    some ⟨base, List.replicate size 7, List.length_replicate, hfits.1,
      hfits.2⟩
  else none

/-- The arguments `ab`, an empty one, and one that C cuts after `c`. -/
def sampleArgv : Argv where
  items :=
    [⟨[97, 98], by decide⟩, ⟨[], by decide⟩, ⟨[99, 0, 100], by decide⟩]
  length_lt := by decide

example : (setupArgs Errno.linuxValue (freshBlock 4096) sampleArgv).map
    (fun setup => setup.handed.map (fun handed =>
      ((List.range 4).map handed.2.pointer, handed.2.bytes.drop 32))) =
    some (some ([some 4128, some 4131, some 4132, some 0],
      [97, 98, 0, 0, 99, 0, 0, 0])) := by
  decide +kernel

end UvMbt.Args
