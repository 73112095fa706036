/-
`string_to_wtf8` and `wtf8_to_string`, over the conversions of libuv: the one
takes a length, the other ends at the first NUL.
-/
import Mathlib.Algebra.Group.Int.Defs
import Mathlib.Algebra.Group.Nat.Defs
import Mathlib.Data.List.TakeWhile
import Mathlib.Data.Option.Basic
import UvMbt.ArrayHeader
import UvMbt.Wtf8

set_option autoImplicit false

namespace UvMbt.StringCodec

open ArrayHeader Wtf8

/-- A `String`: code units, as many as an object can hold. -/
abbrev MoonString := { units : List UInt16 // units.length < maxLength }

/-- A `Bytes`, without the NUL that the run-time keeps behind it. -/
abbrev MoonBytes := { bytes : List UInt8 // bytes.length < maxLength }

/-- A string object: what was allocated for it, and the length in its
header. -/
structure StringObject where
  units : List UInt16
  length : Nat
  deriving Repr, DecidableEq

/-- The units of an object, if they lie inside it. -/
def StringObject.contents (object : StringObject) : Option (List UInt16) :=
  if object.length ≤ object.units.length then
    some (object.units.take object.length)
  else none

/-- What a reader up to the first NUL sees of `Bytes`. -/
def text (bytes : List UInt8) : List UInt8 := bytes.takeWhile (· ≠ 0)

/-- The conversions of libuv.  `uv_utf16_to_wtf8` gives its status and what it
writes, with the terminator. -/
structure Libuv where
  utf16LengthAsWtf8 : List UInt16 → Nat
  utf16ToWtf8 : List UInt16 → Nat → Int × List UInt8
  wtf8LengthAsUtf16 : List UInt8 → Int
  wtf8ToUtf16 : List UInt8 → Nat → List UInt16

/-- What is documented of them: the length is exact and without the
terminator, all units are converted and the bytes end with a NUL, or there is
an error when the room is too small; the other length counts the terminator,
ends at the first NUL and is negative, as errors are, for what is not WTF-8,
and as many units are written as are asked for. -/
structure Documented (libuv : Libuv) : Prop where
  exact : ∀ units, libuv.utf16LengthAsWtf8 units = (encode units).length
  converts : ∀ units room, (encode units).length ≤ room →
    libuv.utf16ToWtf8 units room = (0, encode units ++ [0])
  tooSmall : ∀ units room, room < (encode units).length →
    (libuv.utf16ToWtf8 units room).1 ≠ 0
  counts : ∀ bytes units, encode units = text bytes →
    libuv.wtf8LengthAsUtf16 bytes = units.length + 1
  refuses : ∀ bytes, ¬ Valid (text bytes) →
    -2 ^ 31 ≤ libuv.wtf8LengthAsUtf16 bytes ∧
      libuv.wtf8LengthAsUtf16 bytes < 0
  fills : ∀ bytes units length, encode units = text bytes →
    libuv.wtf8ToUtf16 bytes length = (units ++ [0]).take length

section Code

variable (libuv : Libuv)

/-- `to_int` of a 64-bit number. -/
def toInt (value : Int) : Int := value.bmod (2 ^ 32)

/-- `Bytes::make` and `String::make`: what is allocated, for a length that is
not negative. -/
def make {α : Type} (length : Int) (value : α) : Option (List α) :=
  if length < 0 then none else some (List.replicate length.toNat value)

/-- `moonbit_uv_utf16_to_wtf8`. -/
def uvUtf16ToWtf8 (utf16 : List UInt16) (wtf8 : List UInt8) :
    Int × List UInt8 :=
  let (status, written) := libuv.utf16ToWtf8 utf16 (headerLength wtf8.length)
  (status, overwrite wtf8 written)

def stringToWtf8 (utf16 : MoonString) : Option (List UInt8) := do
  let length := toInt (libuv.utf16LengthAsWtf8 utf16.1)
  let wtf8 ← make length (0 : UInt8)
  let (result, wtf8) := uvUtf16ToWtf8 libuv utf16.1 wtf8
  guard (result = 0)
  return wtf8

/-- `moonbit_uv_wtf8_to_utf16`, with the length that it stores in the
header. -/
def uvWtf8ToUtf16 (wtf8 : List UInt8) (utf16 : List UInt16) : StringObject :=
  let length := headerLength utf16.length
  ⟨overwrite utf16 (libuv.wtf8ToUtf16 wtf8 length),
    (length + (maxLength - 1)) % maxLength⟩

/-- `wtf8_to_string`; `stopped` says for which bytes `String::make` with a
negative length, or an assertion of libuv, ends the process.  Where it does
not, the string has no units. -/
def wtf8ToString (stopped : MoonBytes → Bool) (wtf8 : MoonBytes) :
    Option StringObject := do
  let length := toInt (libuv.wtf8LengthAsUtf16 wtf8.1)
  let utf16 ←
    if length < 0 then if stopped wtf8 then none else some []
    else make length 0
  return uvWtf8ToUtf16 libuv wtf8.1 utf16

end Code

section Statement

variable (libuv : Libuv) (stopped : MoonBytes → Bool)

/-- A string that is encoded, and is what comes back. -/
def RoundTrips (utf16 : MoonString) : Prop :=
  ∃ wtf8 : MoonBytes, stringToWtf8 libuv utf16 = some wtf8.1 ∧
    ∃ object, wtf8ToString libuv stopped wtf8 = some object ∧
      object.contents = some utf16.1

/-- Bytes that are decoded, and are what comes back. -/
def RoundTripsBack (wtf8 : MoonBytes) : Prop :=
  ∃ (object : StringObject) (utf16 : MoonString),
    wtf8ToString libuv stopped wtf8 = some object ∧
      object.contents = some utf16.1 ∧
      stringToWtf8 libuv utf16 = some wtf8.1

/-- A string that is returned holds what was decoded. -/
def StaysInside (wtf8 : MoonBytes) : Prop :=
  ∀ object, wtf8ToString libuv stopped wtf8 = some object →
    ∃ units, encode units = text wtf8.1 ∧ object.contents = some units

end Statement

section Proofs

variable {libuv : Libuv}

theorem toInt_of_le {value : Int} (hlow : -2 ^ 31 ≤ value)
    (hhigh : value < 2 ^ 31) : toInt value = value :=
  Int.bmod_eq_of_le (by omega) (by omega)

theorem make_natCast {α : Type} (length : Nat) (value : α) :
    make (length : Int) value = some (List.replicate length value) := by
  rw [make, if_neg (by omega), Int.toNat_natCast]

/-- No encoding is too long for an `Int`. -/
theorem length_encode_lt (utf16 : MoonString) :
    ((encode utf16.1).length : Int) < 2 ^ 31 := by
  have hencode := length_encode_le utf16.1
  have hunits := utf16.2
  unfold maxLength at hunits
  omega

theorem uvUtf16ToWtf8_fits (hlibuv : Documented libuv) {units : List UInt16}
    (hfits : (encode units).length < maxLength) :
    uvUtf16ToWtf8 libuv units (List.replicate (encode units).length 0) =
      (0, encode units) := by
  have hwritten : overwrite (List.replicate (encode units).length 0)
      (encode units ++ [0]) = encode units := by
    simp [overwrite]
  rw [uvUtf16ToWtf8, List.length_replicate, headerLength_of_lt hfits,
    hlibuv.converts _ _ (Nat.le_refl _)]
  simp only [hwritten]

/-- A length that does not fit the header is one that libuv finds too
small. -/
theorem uvUtf16ToWtf8_fails (hlibuv : Documented libuv) {units : List UInt16}
    (hlong : maxLength ≤ (encode units).length) :
    (uvUtf16ToWtf8 libuv units
      (List.replicate (encode units).length 0)).1 ≠ 0 := by
  have hroom : headerLength (encode units).length < (encode units).length :=
    Nat.lt_of_lt_of_le (headerLength_lt _) hlong
  rw [uvUtf16ToWtf8, List.length_replicate]
  exact hlibuv.tooSmall _ _ hroom

/-- Encoding works exactly for encodings that an object can hold. -/
theorem stringToWtf8_eq (hlibuv : Documented libuv) (utf16 : MoonString) :
    stringToWtf8 libuv utf16 =
      if (encode utf16.1).length < maxLength then some (encode utf16.1)
      else none := by
  have hlength : toInt (libuv.utf16LengthAsWtf8 utf16.1) =
      ((encode utf16.1).length : Nat) := by
    rw [hlibuv.exact]
    exact toInt_of_le (by omega) (length_encode_lt utf16)
  simp only [stringToWtf8, hlength, make_natCast, Option.bind_eq_bind,
    Option.bind_some]
  by_cases hfits : (encode utf16.1).length < maxLength
  · rw [if_pos hfits, uvUtf16ToWtf8_fits hlibuv hfits]
    rfl
  · have hfails := uvUtf16ToWtf8_fails hlibuv (Nat.le_of_not_lt hfits)
    rw [if_neg hfits, guard, if_neg hfails]
    rfl

/-- Only what stands before the first NUL is decoded. -/
theorem wtf8ToString_eq (hlibuv : Documented libuv)
    (stopped : MoonBytes → Bool) {wtf8 : MoonBytes} {units : List UInt16}
    (htext : encode units = text wtf8.1) :
    wtf8ToString libuv stopped wtf8 =
      some (uvWtf8ToUtf16 libuv wtf8.1
        (List.replicate (units.length + 1) 0)) ∧
      units.length + 1 ≤ maxLength := by
  have hbytes : (text wtf8.1).length ≤ wtf8.1.length :=
    (List.takeWhile_prefix _).length_le
  have hunits := length_le_length_encode units
  have hwtf8 := wtf8.2
  rw [htext] at hunits
  have hroom : units.length + 1 ≤ maxLength := by omega
  have hlength : toInt (libuv.wtf8LengthAsUtf16 wtf8.1) =
      ((units.length + 1 : Nat) : Int) := by
    rw [hlibuv.counts _ _ htext]
    unfold maxLength at hroom
    exact toInt_of_le (by omega) (by omega)
  refine ⟨?_, hroom⟩
  simp only [wtf8ToString, hlength]
  rw [if_neg (by omega), make_natCast]
  rfl

/-- A string with room for its terminator holds the units. -/
theorem contents_uvWtf8ToUtf16 (hlibuv : Documented libuv) {wtf8 : List UInt8}
    {units : List UInt16} (htext : encode units = text wtf8)
    (hroom : units.length + 1 < maxLength) :
    (uvWtf8ToUtf16 libuv wtf8
      (List.replicate (units.length + 1) 0)).contents = some units := by
  have hheader : (units.length + 1 + (maxLength - 1)) % maxLength =
      units.length := by
    unfold maxLength at *
    omega
  have htake : (units ++ [0]).take (units.length + 1) = units ++ [0] := by
    apply List.take_of_length_le
    simp
  have hwritten : overwrite (List.replicate (units.length + 1) 0)
      (units ++ [0]) = units ++ [0] :=
    overwrite_of_length (by simp)
  simp only [uvWtf8ToUtf16, List.length_replicate, headerLength_of_lt hroom,
    hlibuv.fills _ _ _ htext, htake, hwritten, hheader,
    StringObject.contents]
  simp

/-- Without that room the header says that the string is full, and nothing is
in it. -/
theorem contents_full (hlibuv : Documented libuv) {wtf8 : List UInt8}
    {units : List UInt16} (htext : encode units = text wtf8)
    (hfull : units.length + 1 = maxLength) :
    (uvWtf8ToUtf16 libuv wtf8
      (List.replicate (units.length + 1) 0)).contents =
      some (List.replicate units.length 0) := by
  have hheader : headerLength (units.length + 1) = 0 := by
    rw [hfull]
    exact Nat.mod_self maxLength
  have hlast : (0 + (maxLength - 1)) % maxLength = units.length := by
    unfold maxLength at *
    omega
  simp only [uvWtf8ToUtf16, List.length_replicate, hheader,
    hlibuv.fills _ _ _ htext, List.take_zero, overwrite, List.take_nil,
    List.length_nil, List.drop_zero, List.nil_append, hlast,
    StringObject.contents]
  simp

/-- What comes back is the units, if the terminator has room. -/
theorem contents_wtf8ToString (hlibuv : Documented libuv)
    {stopped : MoonBytes → Bool} {wtf8 : MoonBytes} {units found : List UInt16}
    (htext : encode units = text wtf8.1) {object : StringObject}
    (hobject : wtf8ToString libuv stopped wtf8 = some object)
    (hcontents : object.contents = some found) :
    (units.length + 1 < maxLength ∧ found = units) ∨
      found = List.replicate units.length 0 := by
  have hdecode := wtf8ToString_eq hlibuv stopped htext
  rw [hdecode.1, Option.some.injEq] at hobject
  rw [← hobject] at hcontents
  by_cases hroom : units.length + 1 < maxLength
  · rw [contents_uvWtf8ToUtf16 hlibuv htext hroom, Option.some.injEq] at hcontents
    exact .inl ⟨hroom, hcontents.symm⟩
  · have hfull : units.length + 1 = maxLength := by omega
    rw [contents_full hlibuv htext hfull, Option.some.injEq] at hcontents
    exact .inr hcontents.symm

/-- Decoding what libuv refuses. -/
theorem wtf8ToString_refused (hlibuv : Documented libuv)
    (stopped : MoonBytes → Bool) {wtf8 : MoonBytes}
    (htext : ¬ Valid (text wtf8.1)) :
    wtf8ToString libuv stopped wtf8 =
      if stopped wtf8 then none
      else some (uvWtf8ToUtf16 libuv wtf8.1 []) := by
  have hbounds := hlibuv.refuses _ htext
  have hlength := toInt_of_le hbounds.1 (Int.lt_trans hbounds.2 (by decide))
  simp only [wtf8ToString]
  rw [hlength, if_pos hbounds.2]
  cases hstopped : stopped wtf8 <;> rfl

theorem text_of_zero_not_mem {bytes : List UInt8} (hbytes : 0 ∉ bytes) :
    text bytes = bytes := by
  apply List.takeWhile_eq_self_iff.mpr
  intro byte hbyte
  simpa using fun hzero : byte = 0 => hbytes (hzero ▸ hbyte)

theorem text_append_zero {before : List UInt8} (hbefore : 0 ∉ before)
    (after : List UInt8) : text (before ++ 0 :: after) = before := by
  have hkeeps : ∀ byte ∈ before, (decide (byte ≠ 0)) = true := by
    intro byte hbyte
    simpa using fun hzero : byte = 0 => hbefore (hzero ▸ hbyte)
  rw [text, List.takeWhile_append_of_pos hkeeps]
  simp

/-- Of the encoding of units with a zero among them, only what stands before
the first zero is read. -/
theorem exists_text_encode {units : List UInt16} (hzero : 0 ∈ units) :
    ∃ before after, units = before ++ 0 :: after ∧
      encode before = text (encode units) := by
  rcases List.eq_append_cons_of_mem hzero with ⟨before, after, rfl, hbefore⟩
  refine ⟨before, after, rfl, ?_⟩
  rw [encode_append_zero]
  exact (text_append_zero (zero_not_mem_encode hbefore) _).symm

/-- Units that came back from their own encoding. -/
theorem fits_of_contents (hlibuv : Documented libuv)
    {stopped : MoonBytes → Bool} {wtf8 : MoonBytes} {utf16 : List UInt16}
    (hbytes : encode utf16 = wtf8.1) {object : StringObject}
    (hobject : wtf8ToString libuv stopped wtf8 = some object)
    (hcontents : object.contents = some utf16) :
    0 ∉ utf16 ∧ utf16.length + 1 < maxLength := by
  by_cases hzero : 0 ∈ utf16
  · exfalso
    rcases exists_text_encode hzero with ⟨before, after, heq, htext⟩
    rw [hbytes] at htext
    have hlength := congrArg List.length heq
    rw [List.length_append, List.length_cons] at hlength
    rcases contents_wtf8ToString hlibuv htext hobject hcontents with
      ⟨-, hfound⟩ | hfound
    · rw [← hfound] at hlength
      omega
    · rw [hfound, List.length_replicate] at hlength
      omega
  · refine ⟨hzero, ?_⟩
    have htext : encode utf16 = text wtf8.1 := by
      rw [← hbytes, text_of_zero_not_mem (zero_not_mem_encode hzero)]
    rcases contents_wtf8ToString hlibuv htext hobject hcontents with
      ⟨hroom, -⟩ | hfound
    · exact hroom
    · have hempty : utf16.length = 0 := by
        cases utf16 with
        | nil => rfl
        | cons unit rest =>
            rw [hfound] at hzero
            simp at hzero
      unfold maxLength
      omega

theorem roundTrips_iff (hlibuv : Documented libuv)
    (stopped : MoonBytes → Bool) (utf16 : MoonString) :
    RoundTrips libuv stopped utf16 ↔
      0 ∉ utf16.1 ∧ (encode utf16.1).length < maxLength ∧
        utf16.1.length + 1 < maxLength := by
  constructor
  · rintro ⟨wtf8, hwtf8, object, hobject, hcontents⟩
    rw [stringToWtf8_eq hlibuv] at hwtf8
    by_cases hfits : (encode utf16.1).length < maxLength
    · rw [if_pos hfits, Option.some.injEq] at hwtf8
      rcases fits_of_contents hlibuv hwtf8 hobject hcontents with ⟨hzero, hroom⟩
      exact ⟨hzero, hfits, hroom⟩
    · rw [if_neg hfits] at hwtf8
      cases hwtf8
  · rintro ⟨hzero, hfits, hroom⟩
    have htext : encode utf16.1 = text (encode utf16.1) :=
      (text_of_zero_not_mem (zero_not_mem_encode hzero)).symm
    refine ⟨⟨encode utf16.1, hfits⟩, ?_, _, ?_,
      contents_uvWtf8ToUtf16 hlibuv htext hroom⟩
    · rw [stringToWtf8_eq hlibuv, if_pos hfits]
    · exact (wtf8ToString_eq hlibuv stopped htext).1

theorem roundTripsBack_iff (hlibuv : Documented libuv)
    (stopped : MoonBytes → Bool) {wtf8 : MoonBytes} (hvalid : Valid wtf8.1) :
    RoundTripsBack libuv stopped wtf8 ↔
      0 ∉ wtf8.1 ∧
        ∀ units, encode units = wtf8.1 → units.length + 1 < maxLength := by
  rcases valid_iff_encode.mp hvalid with ⟨units, hunits⟩
  constructor
  · rintro ⟨object, utf16, hobject, hcontents, hback⟩
    rw [stringToWtf8_eq hlibuv] at hback
    by_cases hfits : (encode utf16.1).length < maxLength
    · rw [if_pos hfits, Option.some.injEq] at hback
      rcases fits_of_contents hlibuv hback hobject hcontents with ⟨hzero, hroom⟩
      have hbytes := zero_not_mem_encode hzero
      rw [hback] at hbytes
      refine ⟨hbytes, ?_⟩
      intro units' hunits'
      rw [encode_injective (hunits'.trans hback.symm)]
      exact hroom
    · rw [if_neg hfits] at hback
      cases hback
  · rintro ⟨hzero, hroom⟩
    have hlength := hroom units hunits
    have htext : encode units = text wtf8.1 := by
      rw [text_of_zero_not_mem hzero, hunits]
    refine ⟨_, ⟨units, by omega⟩, (wtf8ToString_eq hlibuv stopped htext).1,
      contents_uvWtf8ToUtf16 hlibuv htext hlength, ?_⟩
    rw [stringToWtf8_eq hlibuv, hunits, if_pos wtf8.2]

theorem staysInside_iff (hlibuv : Documented libuv)
    (stopped : MoonBytes → Bool) {wtf8 : MoonBytes}
    (hinvalid : ¬ Valid wtf8.1) :
    StaysInside libuv stopped wtf8 ↔
      Valid (text wtf8.1) ∨ stopped wtf8 := by
  by_cases hvalid : Valid (text wtf8.1)
  · refine iff_of_true ?_ (.inl hvalid)
    rcases valid_iff_encode.mp hvalid with ⟨units, htext⟩
    have hshorter : (text wtf8.1).length < wtf8.1.length := by
      apply Nat.lt_of_le_of_ne (List.takeWhile_prefix _).length_le
      intro hlength
      apply hinvalid
      rwa [← (List.takeWhile_prefix _).eq_of_length hlength]
    have hunits := length_le_length_encode units
    have hwtf8 := wtf8.2
    rw [htext] at hunits
    intro object hobject
    rw [(wtf8ToString_eq hlibuv stopped htext).1, Option.some.injEq] at hobject
    rw [← hobject]
    exact ⟨units, htext, contents_uvWtf8ToUtf16 hlibuv htext (by omega)⟩
  · simp only [hvalid, false_or]
    constructor
    · intro hinside
      cases hstopped : stopped wtf8 with
      | true => rfl
      | false =>
          have hobject := wtf8ToString_refused hlibuv stopped hvalid
          rw [hstopped] at hobject
          rcases hinside _ hobject with ⟨units, hunits, -⟩
          exact absurd (valid_iff_encode.mpr ⟨units, hunits⟩) hvalid
    · intro hstopped object hobject
      rw [wtf8ToString_refused hlibuv stopped hvalid, if_pos hstopped] at hobject
      cases hobject

/-- Strings come back exactly when they have no U+0000 and both objects can
hold what is made for them, and bytes likewise; bytes that libuv refuses must
end the process. -/
theorem wtf8_round_trip (libuv : Libuv) (hlibuv : Documented libuv)
    (stopped : MoonBytes → Bool) :
    (∀ utf16, RoundTrips libuv stopped utf16 ↔
      0 ∉ utf16.1 ∧ (encode utf16.1).length < maxLength ∧
        utf16.1.length + 1 < maxLength) ∧
    (∀ wtf8 : MoonBytes, Valid wtf8.1 →
      (RoundTripsBack libuv stopped wtf8 ↔
        0 ∉ wtf8.1 ∧
          ∀ units, encode units = wtf8.1 → units.length + 1 < maxLength)) ∧
    ∀ wtf8 : MoonBytes, ¬ Valid wtf8.1 →
      (StaysInside libuv stopped wtf8 ↔
        Valid (text wtf8.1) ∨ stopped wtf8) := by
  refine ⟨roundTrips_iff hlibuv stopped, ?_, ?_⟩
  · intro wtf8 hvalid
    exact roundTripsBack_iff hlibuv stopped hvalid
  · intro wtf8 hinvalid
    exact staysInside_iff hlibuv stopped hinvalid

/-- The WTF-8 conversions by themselves. -/
def strict : Libuv where
  utf16LengthAsWtf8 units := (encode units).length
  utf16ToWtf8 units room :=
    if (encode units).length ≤ room then (0, encode units ++ [0])
    else (-105, (encode units).take room)
  wtf8LengthAsUtf16 bytes :=
    match (decode (text bytes)).filter fun units => encode units = text bytes with
    | some units => units.length + 1
    | none => -22
  wtf8ToUtf16 bytes length :=
    (((decode (text bytes)).getD []) ++ [0]).take length

theorem documented_strict : Documented strict where
  exact _ := rfl
  converts _ _ hroom := if_pos hroom
  tooSmall units room hroom := by
    simp only [strict, if_neg (Nat.not_le_of_lt hroom)]
    exact fun hzero => by cases hzero
  counts bytes units htext := by
    have hsome : (decode (text bytes)).filter
        (fun found => encode found = text bytes) = some units := by
      rw [← htext, decode_encode]
      simp
    simp only [strict, hsome]
  refuses bytes hinvalid := by
    have hnone : (decode (text bytes)).filter
        (fun units => encode units = text bytes) = none := by
      rw [Option.filter_eq_none_iff]
      intro units _ hunits
      exact hinvalid (valid_iff_encode.mpr ⟨units, by simpa using hunits⟩)
    simp only [strict, hnone]
    decide
  fills bytes units length htext := by
    simp only [strict, ← htext, decode_encode]
    rfl

/-- `"A"`, an unpaired surrogate. -/
def unpairedBytes : MoonBytes := ⟨[0x41, 0xED, 0xA0, 0x80], by decide⟩

theorem wtf8_round_trip_unpaired :
    Documented strict ∧
      RoundTripsBack strict (fun _ => true) unpairedBytes := by
  have hunits : encode [0x41, 0xD800] = unpairedBytes.1 := by decide
  have hvalid : Valid unpairedBytes.1 := valid_iff_encode.mpr ⟨_, hunits⟩
  refine ⟨documented_strict, ?_⟩
  apply ((wtf8_round_trip strict documented_strict fun _ => true).2.1
    unpairedBytes hvalid).mpr
  constructor
  · decide
  · intro units hback
    rw [encode_injective (hback.trans hunits.symm)]
    decide

/-- A string with U+0000 inside. -/
def zeroInside : MoonString := ⟨[0x41, 0, 0x42], by decide⟩

theorem zero_cuts_string :
    stringToWtf8 strict zeroInside = some [0x41, 0, 0x42] ∧
      (∀ hlength, wtf8ToString strict (fun _ => true)
        ⟨[0x41, 0, 0x42], hlength⟩ = some ⟨[0x41, 0], 1⟩) ∧
      ¬ RoundTrips strict (fun _ => true) zeroInside := by
  refine ⟨?_, ?_, ?_⟩
  · rw [stringToWtf8_eq documented_strict]
    decide
  · intro hlength
    have htext : encode [0x41] = text [0x41, 0, 0x42] := by decide
    rw [(wtf8ToString_eq documented_strict _ htext).1]
    rfl
  · rw [roundTrips_iff documented_strict]
    decide

end Proofs

end UvMbt.StringCodec
