/-
Words that are put together from parts with bits of their own: what is read
back under the mask of a part is the part.
-/
import Mathlib.Data.List.Basic

set_option autoImplicit false

namespace BitFields

/-- Where the bits of a part are, and what they are. -/
structure Part where
  mask : Nat
  value : Nat
  deriving Repr, DecidableEq

/-- A single flag. -/
def Part.flag (mask : Nat) (requested : Bool) : Part :=
  ⟨mask, if requested then mask else 0⟩

/-- A part keeps to its mask. -/
def Part.Within (part : Part) : Prop := part.value &&& part.mask = part.value

/-- A byte that is moved up to its place. -/
def Part.byteAt (shift byte : Nat) : Part := ⟨255 <<< shift, byte <<< shift⟩

def assemble (parts : List Part) : Nat :=
  parts.foldr (fun part word => part.value ||| word) 0

theorem assemble_nil : assemble [] = 0 := rfl

theorem assemble_cons (part : Part) (parts : List Part) :
    assemble (part :: parts) = part.value ||| assemble parts := rfl

/-- Every part keeps to its mask, and no two masks share a bit. -/
structure Separate (parts : List Part) : Prop where
  within : ∀ part ∈ parts, part.Within
  disjoint : parts.Pairwise fun first second => first.mask &&& second.mask = 0

/-- How builders set a flag. -/
def setIf (requested : Bool) (flag word : Nat) : Nat :=
  if requested then word ||| flag else word

theorem setIf_eq (requested : Bool) (flag word : Nat) :
    setIf requested flag word = word ||| (Part.flag flag requested).value := by
  cases requested with
  | false => exact (Nat.or_zero word).symm
  | true => rfl

theorem Part.flag_within (mask : Nat) (requested : Bool) :
    (Part.flag mask requested).Within := by
  cases requested with
  | false => exact Nat.zero_and mask
  | true => exact Nat.and_self mask

theorem Part.byteAt_within {shift byte : Nat} (hbyte : byte < 256) :
    (Part.byteAt shift byte).Within := by
  change byte <<< shift &&& 255 <<< shift = byte <<< shift
  have hmod := Nat.and_two_pow_sub_one_eq_mod byte 8
  rw [← Nat.shiftLeft_and_distrib, hmod, Nat.mod_eq_of_lt hbyte]

theorem absorb_left (value other : Nat) : value &&& (value ||| other) = value := by
  apply Nat.eq_of_testBit_eq
  intro i
  rw [Nat.testBit_and, Nat.testBit_or]
  cases value.testBit i <;> rfl

theorem absorb_right (value other : Nat) :
    value &&& (other ||| value) = value := by
  rw [Nat.or_comm, absorb_left]

theorem and_eq_zero {value mask other : Nat} (hwithin : value &&& mask = value)
    (hdisjoint : mask &&& other = 0) : value &&& other = 0 := by
  rw [← hwithin, Nat.and_assoc, hdisjoint, Nat.and_zero]

theorem Separate.of_masks {parts : List Part} {masks : List Nat}
    (hmasks : parts.map Part.mask = masks)
    (hdisjoint : masks.Pairwise fun first second => first &&& second = 0)
    (hwithin : ∀ part ∈ parts, part.Within) : Separate parts := by
  refine ⟨hwithin, ?_⟩
  rw [← hmasks, List.pairwise_map] at hdisjoint
  exact hdisjoint

/-- Under a mask that is nobody's there is nothing. -/
theorem assemble_and_outside {parts : List Part} {mask : Nat}
    (hwithin : ∀ part ∈ parts, part.Within)
    (houtside : ∀ part ∈ parts, part.mask &&& mask = 0) :
    assemble parts &&& mask = 0 := by
  induction parts with
  | nil => exact Nat.zero_and mask
  | cons part parts ih =>
      have hpart := and_eq_zero (hwithin part List.mem_cons_self)
        (houtside part List.mem_cons_self)
      have hparts := ih
        (fun other hother => hwithin other (List.mem_cons_of_mem part hother))
        (fun other hother => houtside other (List.mem_cons_of_mem part hother))
      rw [assemble_cons, Nat.and_or_distrib_right, hpart, hparts]
      rfl

/-- Under the mask of a part there is the part. -/
theorem assemble_and {parts : List Part} (hseparate : Separate parts)
    {part : Part} (hpart : part ∈ parts) :
    assemble parts &&& part.mask = part.value := by
  obtain ⟨hwithin, hdisjoint⟩ := hseparate
  induction parts with
  | nil => cases hpart
  | cons first rest ih =>
      obtain ⟨hfirst, hrest⟩ := List.pairwise_cons.mp hdisjoint
      have hwithinRest : ∀ other ∈ rest, other.Within := fun other hother =>
        hwithin other (List.mem_cons_of_mem first hother)
      rw [assemble_cons, Nat.and_or_distrib_right]
      rcases List.mem_cons.mp hpart with rfl | hmem
      · have houtside : ∀ other ∈ rest, other.mask &&& part.mask = 0 :=
          fun other hother => by
            rw [Nat.and_comm]
            exact hfirst other hother
        rw [show part.value &&& part.mask = part.value from
            hwithin part List.mem_cons_self,
          assemble_and_outside hwithinRest houtside]
        exact Nat.or_zero part.value
      · rw [and_eq_zero (hwithin first List.mem_cons_self) (hfirst part hmem),
          ih hmem hwithinRest hrest]
        exact Nat.zero_or part.value

/-- A byte comes back from its place. -/
theorem byte_of_assemble {parts : List Part} (hseparate : Separate parts)
    {shift byte : Nat} (hpart : Part.byteAt shift byte ∈ parts) :
    assemble parts >>> shift &&& 255 = byte := by
  have hmask : (255 <<< shift) >>> shift = 255 := Nat.shiftLeft_shiftRight 255 shift
  calc
    assemble parts >>> shift &&& 255
      = (assemble parts &&& 255 <<< shift) >>> shift := by
        rw [Nat.shiftRight_and_distrib, hmask]
    _ = (byte <<< shift) >>> shift := by
        rw [show assemble parts &&& 255 <<< shift = byte <<< shift from
          assemble_and hseparate hpart]
    _ = byte := Nat.shiftLeft_shiftRight byte shift

/-- A word has its parts from one choice only. -/
theorem assemble_inj {first second : List Part} (hfirst : Separate first)
    (hsecond : Separate second)
    (hmasks : first.map Part.mask = second.map Part.mask)
    (hword : assemble first = assemble second) : first = second := by
  have hlength : first.length = second.length := by
    simpa using congrArg List.length hmasks
  apply List.ext_getElem hlength
  intro i hi hi'
  have hmask : first[i].mask = second[i].mask := by
    have hget := List.getElem_of_eq hmasks (by simpa using hi)
    simpa using hget
  have hvalue : first[i].value = second[i].value := by
    rw [← assemble_and hfirst (List.getElem_mem hi),
      ← assemble_and hsecond (List.getElem_mem hi'), hword, hmask]
  calc
    first[i] = ⟨first[i].mask, first[i].value⟩ := rfl
    _ = ⟨second[i].mask, second[i].value⟩ := by rw [hmask, hvalue]
    _ = second[i] := rfl

end BitFields
