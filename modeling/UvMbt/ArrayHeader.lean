/-
The length that a run-time object carries: the low 28 bits of its header, the
same for a `String`, a `Bytes` and a `FixedArray`.
-/
import Mathlib.Algebra.Group.Nat.Defs
import Mathlib.Data.List.Basic

set_option autoImplicit false

namespace UvMbt.ArrayHeader

variable {α : Type}

/-- One more than the largest length. -/
def maxLength : Nat := 2 ^ 28

/-- The length in the header of an object that was made with a length. -/
def headerLength (length : Nat) : Nat := length % maxLength

theorem headerLength_lt (length : Nat) : headerLength length < maxLength :=
  Nat.mod_lt length (by decide)

theorem headerLength_le (length : Nat) : headerLength length ≤ length :=
  Nat.mod_le length maxLength

theorem headerLength_of_lt {length : Nat} (hlt : length < maxLength) :
    headerLength length = length :=
  Nat.mod_eq_of_lt hlt

theorem headerLength_eq_iff {length : Nat} :
    headerLength length = length ↔ length < maxLength := by
  constructor
  · intro heq
    rw [← heq]
    exact headerLength_lt length
  · exact headerLength_of_lt

/-- What the program sees of an object that was made for some elements. -/
def visible (elements : List α) : List α :=
  elements.take (headerLength elements.length)

theorem visible_of_lt {elements : List α}
    (hlt : elements.length < maxLength) : visible elements = elements := by
  rw [visible, headerLength_of_lt hlt, List.take_length]

theorem visible_eq_iff {elements : List α} :
    visible elements = elements ↔ elements.length < maxLength := by
  constructor
  · intro hvisible
    have hlength := congrArg List.length hvisible
    rw [visible, List.length_take] at hlength
    have hle := headerLength_le elements.length
    exact headerLength_eq_iff.mp (by omega)
  · exact visible_of_lt

/-- What is written to the front of an object. -/
def overwrite (target written : List α) : List α :=
  written.take target.length ++ target.drop written.length

theorem overwrite_of_length {target written : List α}
    (hlength : written.length = target.length) :
    overwrite target written = written := by
  rw [overwrite, ← hlength, List.take_length, hlength, List.drop_length,
    List.append_nil]

end UvMbt.ArrayHeader
