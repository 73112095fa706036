/-
Bytes written as pairs of hexadecimal digits with a mark between them, and the
reading of such a text: it reads what was written, and nothing else.
-/
import Mathlib.Data.List.Basic

set_option autoImplicit false

namespace HexText

/-- The two digits of a byte. -/
def pair (byte : UInt8) : List Char :=
  [Nat.digitChar (byte.toNat / 16), Nat.digitChar (byte.toNat % 16)]

/-- The pairs, with the mark between them. -/
def write (mark : Char) : List UInt8 → List Char
  | [] => []
  | [byte] => pair byte
  | byte :: rest => pair byte ++ mark :: write mark rest

/-- The value of a small digit. -/
def digitValue (c : Char) : Option Nat :=
  (List.range 16).find? fun value => Nat.digitChar value == c

def readPair (high low : Char) : Option UInt8 := do
  let high ← digitValue high
  let low ← digitValue low
  return UInt8.ofNat (16 * high + low)

def read (mark : Char) : List Char → Option (List UInt8)
  | [] => some []
  | [high, low] => do return [← readPair high low]
  | high :: low :: c :: rest => do
      let byte ← readPair high low
      if c = mark ∧ rest ≠ [] then
        return byte :: (← read mark rest)
      else none
  | _ => none

section Digits

set_option maxRecDepth 4000 in
theorem digitValue_digitChar : ∀ value : Fin 16,
    digitValue (Nat.digitChar value.val) = some value.val := by
  decide

theorem digitValue_eq_some {c : Char} {value : Nat}
    (hvalue : digitValue c = some value) :
    value < 16 ∧ Nat.digitChar value = c := by
  have hmem := List.mem_of_find?_eq_some hvalue
  have heq := List.find?_some hvalue
  exact ⟨List.mem_range.mp hmem, eq_of_beq heq⟩

theorem readPair_pair (byte : UInt8) :
    readPair (Nat.digitChar (byte.toNat / 16))
      (Nat.digitChar (byte.toNat % 16)) = some byte := by
  have hbyte := byte.toNat_lt
  have hhigh := digitValue_digitChar ⟨byte.toNat / 16, by omega⟩
  have hlow := digitValue_digitChar ⟨byte.toNat % 16, by omega⟩
  have hdigits : 16 * (byte.toNat / 16) + byte.toNat % 16 = byte.toNat :=
    Nat.div_add_mod byte.toNat 16
  simp only [readPair, hhigh, hlow, Option.bind_eq_bind, Option.bind_some,
    hdigits, UInt8.ofNat_toNat]
  rfl

theorem pair_of_readPair {high low : Char} {byte : UInt8}
    (hread : readPair high low = some byte) : pair byte = [high, low] := by
  rw [readPair, Option.bind_eq_bind, Option.bind_eq_some_iff] at hread
  obtain ⟨first, hfirst, hread⟩ := hread
  rw [Option.bind_eq_some_iff] at hread
  obtain ⟨second, hsecond, hread⟩ := hread
  obtain ⟨hfirstLt, rfl⟩ := digitValue_eq_some hfirst
  obtain ⟨hsecondLt, rfl⟩ := digitValue_eq_some hsecond
  cases hread
  have hvalue : (UInt8.ofNat (16 * first + second)).toNat =
      16 * first + second := by
    rw [UInt8.toNat_ofNat']
    omega
  have hdiv : (16 * first + second) / 16 = first := by omega
  have hmod : (16 * first + second) % 16 = second := by omega
  rw [pair, hvalue, hdiv, hmod]

end Digits

section RoundTrip

variable {mark : Char}

theorem write_ne_nil {bytes : List UInt8} (hbytes : bytes ≠ []) :
    write mark bytes ≠ [] := by
  cases bytes with
  | nil => exact absurd rfl hbytes
  | cons byte rest =>
      cases rest with
      | nil => exact List.cons_ne_nil _ _
      | cons next rest => exact List.cons_ne_nil _ _

theorem write_cons {byte : UInt8} {bytes : List UInt8} (hbytes : bytes ≠ []) :
    write mark (byte :: bytes) = pair byte ++ mark :: write mark bytes := by
  cases bytes with
  | nil => exact absurd rfl hbytes
  | cons next rest => rfl

/-- What was written is read. -/
theorem read_write (bytes : List UInt8) :
    read mark (write mark bytes) = some bytes := by
  induction bytes with
  | nil => rfl
  | cons byte rest ih =>
      cases rest with
      | nil =>
          change (do return [← readPair _ _] : Option (List UInt8)) = _
          rw [readPair_pair]
          rfl
      | cons next rest =>
          have hne := @write_ne_nil mark _ (List.cons_ne_nil next rest)
          change (readPair _ _ >>= fun byte =>
            if mark = mark ∧ write mark (next :: rest) ≠ [] then
              read mark (write mark (next :: rest)) >>= fun bytes =>
                some (byte :: bytes)
            else none) = _
          rw [readPair_pair, Option.bind_eq_bind, Option.bind_some,
            if_pos ⟨rfl, hne⟩, ih]
          rfl

/-- What is read was written. -/
theorem write_of_read {text : List Char} {bytes : List UInt8}
    (hread : read mark text = some bytes) : write mark bytes = text := by
  induction text using read.induct generalizing bytes with
  | case1 =>
      cases hread
      rfl
  | case2 high low =>
      rw [read, Option.bind_eq_bind, Option.bind_eq_some_iff] at hread
      obtain ⟨byte, hbyte, hread⟩ := hread
      cases hread
      exact pair_of_readPair hbyte
  | case3 high low c rest ih =>
      rw [read, Option.bind_eq_bind, Option.bind_eq_some_iff] at hread
      obtain ⟨byte, hbyte, hread⟩ := hread
      split at hread
      · rename_i hmark
        obtain ⟨rfl, hrest⟩ := hmark
        rw [Option.bind_eq_bind, Option.bind_eq_some_iff] at hread
        obtain ⟨others, hothers, hread⟩ := hread
        cases hread
        have hwrite := ih hothers
        have hne : others ≠ [] := by
          rintro rfl
          exact hrest hwrite.symm
        rw [write_cons hne, hwrite, pair_of_readPair hbyte]
        rfl
      · cases hread
  | case4 text hnil htwo hmore =>
      rw [read] at hread
      · cases hread
      · exact hnil
      · exact htwo
      · exact hmore

theorem read_eq_some_iff {text : List Char} {bytes : List UInt8} :
    read mark text = some bytes ↔ write mark bytes = text := by
  constructor
  · exact write_of_read
  · rintro rfl
    exact read_write bytes

end RoundTrip

end HexText
