/-
NUL-terminated strings in memory: what lies at a pointer, and where the string
in it ends.
-/
import Mathlib.Data.List.Basic

set_option autoImplicit false

/-- What can be read from a pointer: a string without a NUL, its terminator,
and whatever comes after. -/
structure CString where
  text : List UInt8
  after : List UInt8
  noNul : 0 ∉ text

namespace CString

def memory (string : CString) : List UInt8 := string.text ++ 0 :: string.after

/-- The index of the first NUL. -/
def strlen : List UInt8 → Option Nat
  | [] => none
  | byte :: rest => if byte = 0 then some 0 else (strlen rest).map (· + 1)

theorem strlen_append (text after : List UInt8) (hnul : 0 ∉ text) :
    strlen (text ++ 0 :: after) = some text.length := by
  induction text with
  | nil => rfl
  | cons byte rest ih =>
      rw [List.mem_cons, not_or] at hnul
      rw [List.cons_append, strlen, if_neg (Ne.symm hnul.1), ih hnul.2]
      rfl

theorem strlen_memory (string : CString) :
    strlen string.memory = some string.text.length :=
  strlen_append string.text string.after string.noNul

theorem take_memory (string : CString) :
    string.memory.take string.text.length = string.text := by
  rw [memory, List.take_left]

theorem take_memory_succ (string : CString) :
    string.memory.take (string.text.length + 1) = string.text ++ [0] := by
  have hlength : (string.text ++ [0]).length = string.text.length + 1 := by
    simp
  have hsplit : string.memory = (string.text ++ [0]) ++ string.after := by
    simp [memory]
  rw [hsplit, ← hlength, List.take_left]

theorem length_memory (string : CString) :
    string.text.length < string.memory.length := by
  simp [memory]

end CString
