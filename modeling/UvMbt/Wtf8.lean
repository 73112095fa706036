/-
WTF-8: sequences of 16-bit code units, with surrogates in pairs or alone, as
bytes.  A pair is one code point of four bytes, and a surrogate alone one of
three.
-/
import Mathlib.Data.List.Basic

set_option autoImplicit false

namespace Wtf8

/-- The first and the second half of a surrogate pair. -/
def Lead (value : Nat) : Prop := 0xD800 ≤ value ∧ value < 0xDC00

def Trail (value : Nat) : Prop := 0xDC00 ≤ value ∧ value < 0xE000

instance (value : Nat) : Decidable (Lead value) := inferInstanceAs
  (Decidable (_ ∧ _))

instance (value : Nat) : Decidable (Trail value) := inferInstanceAs
  (Decidable (_ ∧ _))

/-- The code points of a sequence of units, a pair being one of them. -/
def codePoints : List UInt16 → List Nat
  | [] => []
  | [unit] => [unit.toNat]
  | first :: second :: rest =>
      if Lead first.toNat ∧ Trail second.toNat then
        (0x10000 + (first.toNat - 0xD800) * 0x400 +
          (second.toNat - 0xDC00)) :: codePoints rest
      else first.toNat :: codePoints (second :: rest)

/-- The units of a code point. -/
def unitsOf (point : Nat) : List UInt16 :=
  if point < 0x10000 then [UInt16.ofNat point]
  else [UInt16.ofNat (0xD800 + (point - 0x10000) / 0x400),
    UInt16.ofNat (0xDC00 + (point - 0x10000) % 0x400)]

/-- The bytes of a code point. -/
def encodePoint (point : Nat) : List UInt8 :=
  if point < 0x80 then [UInt8.ofNat point]
  else if point < 0x800 then
    [UInt8.ofNat (0xC0 + point / 0x40), UInt8.ofNat (0x80 + point % 0x40)]
  else if point < 0x10000 then
    [UInt8.ofNat (0xE0 + point / 0x1000),
      UInt8.ofNat (0x80 + point / 0x40 % 0x40),
      UInt8.ofNat (0x80 + point % 0x40)]
  else
    [UInt8.ofNat (0xF0 + point / 0x40000),
      UInt8.ofNat (0x80 + point / 0x1000 % 0x40),
      UInt8.ofNat (0x80 + point / 0x40 % 0x40),
      UInt8.ofNat (0x80 + point % 0x40)]

def encode (units : List UInt16) : List UInt8 :=
  (codePoints units).flatMap encodePoint

/-- A continuation byte. -/
def Continues (byte : UInt8) : Prop := 0x80 ≤ byte.toNat ∧ byte.toNat < 0xC0

instance (byte : UInt8) : Decidable (Continues byte) := inferInstanceAs
  (Decidable (_ ∧ _))

/-- The first code point of a sequence of bytes, in its shortest form, and the
bytes after it. -/
def decodeOne : List UInt8 → Option (Nat × List UInt8)
  | [] => none
  | first :: rest =>
      if first.toNat < 0x80 then some (first.toNat, rest)
      else if first.toNat < 0xC0 then none
      else if first.toNat < 0xE0 then
        match rest with
        | second :: rest =>
            let point := (first.toNat - 0xC0) * 0x40 + (second.toNat - 0x80)
            if Continues second ∧ 0x80 ≤ point then some (point, rest)
            else none
        | _ => none
      else if first.toNat < 0xF0 then
        match rest with
        | second :: third :: rest =>
            let point := (first.toNat - 0xE0) * 0x1000 +
              (second.toNat - 0x80) * 0x40 + (third.toNat - 0x80)
            if Continues second ∧ Continues third ∧ 0x800 ≤ point then
              some (point, rest)
            else none
        | _ => none
      else
        match rest with
        | second :: third :: fourth :: rest =>
            let point := (first.toNat - 0xF0) * 0x40000 +
              (second.toNat - 0x80) * 0x1000 + (third.toNat - 0x80) * 0x40 +
              (fourth.toNat - 0x80)
            if Continues second ∧ Continues third ∧ Continues fourth ∧
                0x10000 ≤ point ∧ point < 0x110000 then
              some (point, rest)
            else none
        | _ => none

def decodePoints : Nat → List UInt8 → Option (List Nat)
  | _, [] => some []
  | 0, _ :: _ => none
  | fuel + 1, bytes =>
      match decodeOne bytes with
      | none => none
      | some (point, rest) => (decodePoints fuel rest).map (point :: ·)

/-- The units that bytes stand for; surrogates may be anywhere. -/
def decode (bytes : List UInt8) : Option (List UInt16) :=
  (decodePoints bytes.length bytes).map (·.flatMap unitsOf)

/-- No first half of a pair is followed by a second one. -/
def Unpaired (points : List Nat) : Prop :=
  points.IsChain fun point next => ¬ (Lead point ∧ Trail next)

/-- Bytes whose code points are in shortest form and include no pair of
surrogates. -/
def Valid (bytes : List UInt8) : Prop :=
  ∃ points, decodePoints bytes.length bytes = some points ∧ Unpaired points

section Points

theorem toNat_ofNat8 {value : Nat} (hvalue : value < 256) :
    (UInt8.ofNat value).toNat = value := by
  rw [UInt8.toNat_ofNat']
  exact Nat.mod_eq_of_lt hvalue

theorem toNat_ofNat16 {value : Nat} (hvalue : value < 65536) :
    (UInt16.ofNat value).toNat = value := by
  rw [UInt16.toNat_ofNat']
  exact Nat.mod_eq_of_lt hvalue

theorem decodeOne_encodePoint {point : Nat} (hpoint : point < 0x110000)
    (rest : List UInt8) :
    decodeOne (encodePoint point ++ rest) = some (point, rest) := by
  by_cases hone : point < 0x80
  · simp [encodePoint, hone, decodeOne, toNat_ofNat8 (show point < 256 by omega)]
  · by_cases htwo : point < 0x800
    · have hfirst := toNat_ofNat8 (show 0xC0 + point / 0x40 < 256 by omega)
      have hsecond := toNat_ofNat8 (show 0x80 + point % 0x40 < 256 by omega)
      have hvalue : (0xC0 + point / 0x40 - 0xC0) * 0x40 +
          (0x80 + point % 0x40 - 0x80) = point := by omega
      simp only [encodePoint, hone, htwo, if_false, if_true, List.cons_append,
        List.nil_append, decodeOne, Continues, hfirst, hsecond, hvalue]
      rw [if_neg (by omega), if_neg (by omega), if_pos (by omega),
        if_pos (by omega)]
    · by_cases hthree : point < 0x10000
      · have hfirst := toNat_ofNat8
          (show 0xE0 + point / 0x1000 < 256 by omega)
        have hsecond := toNat_ofNat8
          (show 0x80 + point / 0x40 % 0x40 < 256 by omega)
        have hthird := toNat_ofNat8 (show 0x80 + point % 0x40 < 256 by omega)
        have hvalue : (0xE0 + point / 0x1000 - 0xE0) * 0x1000 +
            (0x80 + point / 0x40 % 0x40 - 0x80) * 0x40 +
            (0x80 + point % 0x40 - 0x80) = point := by omega
        simp only [encodePoint, hone, htwo, hthree, if_false, if_true,
          List.cons_append, List.nil_append, decodeOne, Continues, hfirst,
          hsecond, hthird, hvalue]
        rw [if_neg (by omega), if_neg (by omega), if_neg (by omega),
          if_pos (by omega), if_pos (by omega)]
      · have hfirst := toNat_ofNat8
          (show 0xF0 + point / 0x40000 < 256 by omega)
        have hsecond := toNat_ofNat8
          (show 0x80 + point / 0x1000 % 0x40 < 256 by omega)
        have hthird := toNat_ofNat8
          (show 0x80 + point / 0x40 % 0x40 < 256 by omega)
        have hfourth := toNat_ofNat8 (show 0x80 + point % 0x40 < 256 by omega)
        have hvalue : (0xF0 + point / 0x40000 - 0xF0) * 0x40000 +
            (0x80 + point / 0x1000 % 0x40 - 0x80) * 0x1000 +
            (0x80 + point / 0x40 % 0x40 - 0x80) * 0x40 +
            (0x80 + point % 0x40 - 0x80) = point := by omega
        simp only [encodePoint, hone, htwo, hthree, if_false, List.cons_append,
          List.nil_append, decodeOne, Continues, hfirst, hsecond, hthird,
          hfourth, hvalue]
        rw [if_neg (by omega), if_neg (by omega), if_neg (by omega),
          if_neg (by omega), if_pos (by omega)]

theorem ofNat_eq8 (byte : UInt8) {value : Nat} (hvalue : value = byte.toNat) :
    UInt8.ofNat value = byte := by
  rw [hvalue, UInt8.ofNat_toNat]

theorem encodePoint_two {first second : UInt8} (hlow : 0xC0 ≤ first.toNat)
    (hhigh : first.toNat < 0xE0) (hsecond : Continues second)
    (hshortest : 0x80 ≤
      (first.toNat - 0xC0) * 0x40 + (second.toNat - 0x80)) :
    encodePoint ((first.toNat - 0xC0) * 0x40 + (second.toNat - 0x80)) =
      [first, second] := by
  rcases hsecond with ⟨hsecond, hsecond'⟩
  rw [encodePoint, if_neg (by omega), if_pos (by omega),
    ofNat_eq8 first (by omega),
    ofNat_eq8 second (by omega)]

theorem encodePoint_three {first second third : UInt8}
    (hlow : 0xE0 ≤ first.toNat) (hhigh : first.toNat < 0xF0)
    (hsecond : Continues second) (hthird : Continues third)
    (hshortest : 0x800 ≤ (first.toNat - 0xE0) * 0x1000 +
      (second.toNat - 0x80) * 0x40 + (third.toNat - 0x80)) :
    encodePoint ((first.toNat - 0xE0) * 0x1000 +
        (second.toNat - 0x80) * 0x40 + (third.toNat - 0x80)) =
      [first, second, third] := by
  rcases hsecond with ⟨hsecond, hsecond'⟩
  rcases hthird with ⟨hthird, hthird'⟩
  rw [encodePoint, if_neg (by omega), if_neg (by omega), if_pos (by omega),
    ofNat_eq8 first (by omega),
    ofNat_eq8 second (by omega),
    ofNat_eq8 third (by omega)]

theorem encodePoint_four {first second third fourth : UInt8}
    (hlow : 0xF0 ≤ first.toNat) (hsecond : Continues second)
    (hthird : Continues third) (hfourth : Continues fourth)
    (hshortest : 0x10000 ≤ (first.toNat - 0xF0) * 0x40000 +
      (second.toNat - 0x80) * 0x1000 + (third.toNat - 0x80) * 0x40 +
      (fourth.toNat - 0x80)) :
    encodePoint ((first.toNat - 0xF0) * 0x40000 +
        (second.toNat - 0x80) * 0x1000 + (third.toNat - 0x80) * 0x40 +
        (fourth.toNat - 0x80)) =
      [first, second, third, fourth] := by
  rcases hsecond with ⟨hsecond, hsecond'⟩
  rcases hthird with ⟨hthird, hthird'⟩
  rcases hfourth with ⟨hfourth, hfourth'⟩
  rw [encodePoint, if_neg (by omega), if_neg (by omega), if_neg (by omega),
    ofNat_eq8 first (by omega),
    ofNat_eq8 second (by omega),
    ofNat_eq8 third (by omega),
    ofNat_eq8 fourth (by omega)]

/-- What is decoded is what would be encoded. -/
theorem decodeOne_sound {bytes rest : List UInt8} {point : Nat}
    (hdecode : decodeOne bytes = some (point, rest)) :
    bytes = encodePoint point ++ rest ∧ point < 0x110000 := by
  cases bytes with
  | nil => simp [decodeOne] at hdecode
  | cons first tail =>
      simp only [decodeOne] at hdecode
      split at hdecode
      · next hone =>
          cases hdecode
          refine ⟨?_, by omega⟩
          rw [encodePoint, if_pos hone, UInt8.ofNat_toNat]
          rfl
      · split at hdecode
        · cases hdecode
        · split at hdecode
          · split at hdecode
            · split at hdecode
              · next hlow hhigh _ second after hpoint =>
                  simp only [Option.some.injEq, Prod.mk.injEq] at hdecode
                  rcases hdecode with ⟨rfl, rfl⟩
                  rcases hpoint with ⟨hsecond, hshortest⟩
                  refine ⟨?_, ?_⟩
                  · rw [encodePoint_two (by omega) hhigh hsecond hshortest]
                    rfl
                  · have hbound := hsecond.2
                    omega
              · cases hdecode
            · cases hdecode
          · split at hdecode
            · split at hdecode
              · split at hdecode
                · next hlow hhigh _ second third after hpoint =>
                    simp only [Option.some.injEq, Prod.mk.injEq] at hdecode
                    rcases hdecode with ⟨rfl, rfl⟩
                    rcases hpoint with ⟨hsecond, hthird, hshortest⟩
                    refine ⟨?_, ?_⟩
                    · rw [encodePoint_three (by omega) hhigh hsecond hthird
                        hshortest]
                      rfl
                    · have hbound := hsecond.2
                      have hbound' := hthird.2
                      omega
                · cases hdecode
              · cases hdecode
            · split at hdecode
              · split at hdecode
                · next hlow _ second third fourth after hpoint =>
                    simp only [Option.some.injEq, Prod.mk.injEq] at hdecode
                    rcases hdecode with ⟨rfl, rfl⟩
                    rcases hpoint with
                      ⟨hsecond, hthird, hfourth, hshortest, hlast⟩
                    refine ⟨?_, hlast⟩
                    rw [encodePoint_four (by omega) hsecond hthird hfourth
                      hshortest]
                    rfl
                · cases hdecode
              · cases hdecode

theorem encodePoint_ne_nil (point : Nat) : encodePoint point ≠ [] := by
  unfold encodePoint
  split
  · simp
  · split
    · simp
    · split
      · simp
      · simp

end Points

section Sequences

theorem decodePoints_succ {bytes rest : List UInt8} {point : Nat}
    (hdecode : decodeOne bytes = some (point, rest)) (fuel : Nat) :
    decodePoints (fuel + 1) bytes =
      (decodePoints fuel rest).map (point :: ·) := by
  cases bytes with
  | nil => simp [decodeOne] at hdecode
  | cons first tail => simp [decodePoints, hdecode]

theorem decodePoints_encode {points : List Nat}
    (hpoints : ∀ point ∈ points, point < 0x110000) {fuel : Nat}
    (hfuel : points.length ≤ fuel) :
    decodePoints fuel (points.flatMap encodePoint) = some points := by
  induction points generalizing fuel with
  | nil => simp [decodePoints]
  | cons point rest ih =>
      cases fuel with
      | zero => simp at hfuel
      | succ fuel =>
          have hfirst := decodeOne_encodePoint (hpoints point (by simp))
            (rest.flatMap encodePoint)
          rw [List.flatMap_cons, decodePoints_succ hfirst, ih]
          · rfl
          · intro other hother
            exact hpoints other (by simp [hother])
          · simpa using hfuel

theorem decodePoints_sound {fuel : Nat} {bytes : List UInt8}
    {points : List Nat} (hdecode : decodePoints fuel bytes = some points) :
    points.flatMap encodePoint = bytes ∧
      ∀ point ∈ points, point < 0x110000 := by
  induction fuel generalizing bytes points with
  | zero =>
      cases bytes with
      | nil =>
          cases hdecode
          simp
      | cons first tail => simp [decodePoints] at hdecode
  | succ fuel ih =>
      cases hone : decodeOne bytes with
      | none =>
          cases bytes with
          | nil =>
              simp only [decodePoints, Option.some.injEq] at hdecode
              subst hdecode
              simp
          | cons first tail => simp [decodePoints, hone] at hdecode
      | some found =>
          rcases found with ⟨point, rest⟩
          rw [decodePoints_succ hone, Option.map_eq_some_iff] at hdecode
          rcases hdecode with ⟨later, hlater, rfl⟩
          rcases ih hlater with ⟨hrest, hbounds⟩
          rcases decodeOne_sound hone with ⟨rfl, hpoint⟩
          constructor
          · rw [List.flatMap_cons, hrest]
          · intro other hother
            rcases List.mem_cons.mp hother with rfl | hmem
            · exact hpoint
            · exact hbounds other hmem

theorem length_le_encode (points : List Nat) :
    points.length ≤ (points.flatMap encodePoint).length := by
  induction points with
  | nil => simp
  | cons point rest ih =>
      have hpos := List.length_pos_iff.mpr (encodePoint_ne_nil point)
      rw [List.flatMap_cons, List.length_append, List.length_cons]
      omega

theorem codePoints_lt (units : List UInt16) :
    ∀ point ∈ codePoints units, point < 0x110000 := by
  induction units using codePoints.induct with
  | case1 => simp [codePoints]
  | case2 unit =>
      have hunit := unit.toNat_lt
      simp only [codePoints, List.mem_singleton]
      rintro point rfl
      omega
  | case3 first second rest hpair ih =>
      rcases hpair with ⟨⟨hlead, hlead'⟩, htrail, htrail'⟩
      have hpair : Lead first.toNat ∧ Trail second.toNat :=
        ⟨⟨hlead, hlead'⟩, htrail, htrail'⟩
      rw [codePoints, if_pos hpair]
      intro point hpoint
      rcases List.mem_cons.mp hpoint with heq | hmem
      · omega
      · exact ih point hmem
  | case4 first second rest hpair ih =>
      have hfirst := first.toNat_lt
      rw [codePoints, if_neg hpair]
      intro point hpoint
      rcases List.mem_cons.mp hpoint with rfl | hmem
      · omega
      · exact ih point hmem

theorem unitsOf_toNat (unit : UInt16) : unitsOf unit.toNat = [unit] := by
  rw [unitsOf, if_pos unit.toNat_lt, UInt16.ofNat_toNat]

theorem unitsOf_pair {first second : UInt16} (hlead : Lead first.toNat)
    (htrail : Trail second.toNat) :
    unitsOf (0x10000 + (first.toNat - 0xD800) * 0x400 +
      (second.toNat - 0xDC00)) = [first, second] := by
  rcases hlead with ⟨hlead, hlead'⟩
  rcases htrail with ⟨htrail, htrail'⟩
  have hfirst : 0xD800 + (0x10000 + (first.toNat - 0xD800) * 0x400 +
      (second.toNat - 0xDC00) - 0x10000) / 0x400 = first.toNat := by omega
  have hsecond : 0xDC00 + (0x10000 + (first.toNat - 0xD800) * 0x400 +
      (second.toNat - 0xDC00) - 0x10000) % 0x400 = second.toNat := by omega
  rw [unitsOf, if_neg (by omega), hfirst, hsecond, UInt16.ofNat_toNat,
    UInt16.ofNat_toNat]

/-- The units come back from their code points. -/
theorem codePoints_flatMap (units : List UInt16) :
    (codePoints units).flatMap unitsOf = units := by
  induction units using codePoints.induct with
  | case1 => rfl
  | case2 unit =>
      rw [codePoints, List.flatMap_cons, unitsOf_toNat]
      rfl
  | case3 first second rest hpair ih =>
      rw [codePoints, if_pos hpair, List.flatMap_cons,
        unitsOf_pair hpair.1 hpair.2, ih]
      rfl
  | case4 first second rest hpair ih =>
      rw [codePoints, if_neg hpair, List.flatMap_cons, unitsOf_toNat, ih]
      rfl

/-- Decoding inverts encoding, whatever the units are. -/
theorem decode_encode (units : List UInt16) :
    decode (encode units) = some units := by
  rw [decode, encode,
    decodePoints_encode (codePoints_lt units) (length_le_encode _),
    Option.map_some, codePoints_flatMap]

/-- The first unit of a code point is the second half of a pair only if the
code point is. -/
theorem trail_head_unitsOf {point : Nat} (hpoint : point < 0x110000)
    (rest : List UInt16) :
    ∃ unit tail, unitsOf point ++ rest = unit :: tail ∧
      (Trail unit.toNat → Trail point) := by
  by_cases hsmall : point < 0x10000
  · refine ⟨UInt16.ofNat point, rest, ?_, ?_⟩
    · rw [unitsOf, if_pos hsmall]
      rfl
    · rw [toNat_ofNat16 hsmall]
      exact id
  · have hlead := toNat_ofNat16
      (show 0xD800 + (point - 0x10000) / 0x400 < 65536 by omega)
    refine ⟨UInt16.ofNat (0xD800 + (point - 0x10000) / 0x400),
      UInt16.ofNat (0xDC00 + (point - 0x10000) % 0x400) :: rest, ?_, ?_⟩
    · rw [unitsOf, if_neg hsmall]
      rfl
    · rw [hlead]
      rintro ⟨htrail, _⟩
      omega

theorem codePoints_unitsOf {point : Nat} (hpoint : point < 0x110000)
    {rest : List UInt16}
    (hrest : ∀ unit tail, rest = unit :: tail →
      ¬ (Lead point ∧ Trail unit.toNat)) :
    codePoints (unitsOf point ++ rest) = point :: codePoints rest := by
  by_cases hsmall : point < 0x10000
  · rw [unitsOf, if_pos hsmall, List.singleton_append]
    have hunit := toNat_ofNat16 hsmall
    cases rest with
    | nil => simp [codePoints, hunit]
    | cons unit tail =>
        rw [codePoints, if_neg, hunit]
        rw [hunit]
        exact hrest unit tail rfl
  · have hlead := toNat_ofNat16
      (show 0xD800 + (point - 0x10000) / 0x400 < 65536 by omega)
    have htrail := toNat_ofNat16
      (show 0xDC00 + (point - 0x10000) % 0x400 < 65536 by omega)
    have hpair : Lead (0xD800 + (point - 0x10000) / 0x400) ∧
        Trail (0xDC00 + (point - 0x10000) % 0x400) := by
      unfold Lead Trail
      omega
    have hpointEq : 0x10000 +
        (0xD800 + (point - 0x10000) / 0x400 - 0xD800) * 0x400 +
        (0xDC00 + (point - 0x10000) % 0x400 - 0xDC00) = point := by omega
    rw [unitsOf, if_neg hsmall, List.cons_append, List.singleton_append,
      codePoints, hlead, htrail, if_pos hpair, hpointEq]

/-- Code points without pairs come back from their units. -/
theorem codePoints_flatMap_unitsOf {points : List Nat}
    (hpoints : ∀ point ∈ points, point < 0x110000)
    (hunpaired : Unpaired points) :
    codePoints (points.flatMap unitsOf) = points := by
  induction points with
  | nil => rfl
  | cons point rest ih =>
      have hrest := ih (fun other hother => hpoints other (by simp [hother]))
        hunpaired.of_cons
      rw [List.flatMap_cons, codePoints_unitsOf (hpoints point (by simp)),
        hrest]
      intro unit tail htail
      cases rest with
      | nil => cases htail
      | cons next others =>
          have hnext := (List.isChain_cons_cons.mp hunpaired).1
          rcases trail_head_unitsOf (hpoints next (by simp))
            (others.flatMap unitsOf) with ⟨first, after, hunits, htrail⟩
          rw [List.flatMap_cons, hunits] at htail
          cases htail
          rintro ⟨hlead, hunit⟩
          exact hnext ⟨hlead, htrail hunit⟩

/-- Encoding inverts decoding on valid bytes. -/
theorem encode_decode {bytes : List UInt8} (hvalid : Valid bytes) :
    ∃ units, decode bytes = some units ∧ encode units = bytes := by
  rcases hvalid with ⟨points, hpoints, hunpaired⟩
  rcases decodePoints_sound hpoints with ⟨hbytes, hbounds⟩
  refine ⟨points.flatMap unitsOf, ?_, ?_⟩
  · rw [decode, hpoints]
    rfl
  · rw [encode, codePoints_flatMap_unitsOf hbounds hunpaired, hbytes]

theorem not_trail_head_codePoints {unit : UInt16} {rest : List UInt16}
    {point : Nat} {later : List Nat}
    (hpoints : codePoints (unit :: rest) = point :: later)
    (hunit : ¬ Trail unit.toNat) : ¬ Trail point := by
  cases rest with
  | nil =>
      rw [codePoints, List.cons.injEq] at hpoints
      rw [← hpoints.1]
      exact hunit
  | cons next tail =>
      rw [codePoints] at hpoints
      split at hpoints
      · rw [List.cons.injEq] at hpoints
        rw [← hpoints.1]
        rintro ⟨_, htrail⟩
        omega
      · rw [List.cons.injEq] at hpoints
        rw [← hpoints.1]
        exact hunit

theorem unpaired_codePoints (units : List UInt16) :
    Unpaired (codePoints units) := by
  unfold Unpaired
  induction units using codePoints.induct with
  | case1 => exact List.IsChain.nil
  | case2 unit => exact List.IsChain.singleton _
  | case3 first second rest hpair ih =>
      rw [codePoints, if_pos hpair]
      cases hrest : codePoints rest with
      | nil => exact List.IsChain.singleton _
      | cons point later =>
          rw [hrest] at ih
          refine List.isChain_cons_cons.mpr ⟨?_, ih⟩
          rintro ⟨⟨_, hlead⟩, _⟩
          omega
  | case4 first second rest hpair ih =>
      rw [codePoints, if_neg hpair]
      cases hrest : codePoints (second :: rest) with
      | nil => exact List.IsChain.singleton _
      | cons point later =>
          rw [hrest] at ih
          refine List.isChain_cons_cons.mpr ⟨?_, ih⟩
          rintro ⟨hlead, htrail⟩
          have hsecond : ¬ Trail second.toNat :=
            fun htrail => hpair ⟨hlead, htrail⟩
          exact not_trail_head_codePoints hrest hsecond htrail

/-- Valid bytes are those that some units are encoded as. -/
theorem valid_iff_encode {bytes : List UInt8} :
    Valid bytes ↔ ∃ units, encode units = bytes := by
  constructor
  · intro hvalid
    rcases encode_decode hvalid with ⟨units, _, hunits⟩
    exact ⟨units, hunits⟩
  · rintro ⟨units, rfl⟩
    exact ⟨codePoints units,
      decodePoints_encode (codePoints_lt units) (length_le_encode _),
      unpaired_codePoints units⟩

theorem length_unitsOf_le (point : Nat) :
    (unitsOf point).length ≤ (encodePoint point).length := by
  by_cases hplane : point < 0x10000
  · have hunits : (unitsOf point).length = 1 := by
      rw [unitsOf, if_pos hplane]
      rfl
    rw [hunits]
    exact List.length_pos_iff.mpr (encodePoint_ne_nil point)
  · have hunits : (unitsOf point).length = 2 := by
      rw [unitsOf, if_neg hplane]
      rfl
    have hbytes : (encodePoint point).length = 4 := by
      rw [encodePoint, if_neg (by omega), if_neg (by omega), if_neg hplane]
      rfl
    omega

theorem length_decode_le {bytes : List UInt8} {units : List UInt16}
    (hdecode : decode bytes = some units) : units.length ≤ bytes.length := by
  rw [decode, Option.map_eq_some_iff] at hdecode
  rcases hdecode with ⟨points, hpoints, rfl⟩
  rw [← (decodePoints_sound hpoints).1]
  clear hpoints
  induction points with
  | nil => simp
  | cons point rest ih =>
      have hfirst := length_unitsOf_le point
      rw [List.flatMap_cons, List.flatMap_cons, List.length_append,
        List.length_append]
      omega

/-- An encoding is no shorter than the units. -/
theorem length_le_length_encode (units : List UInt16) :
    units.length ≤ (encode units).length :=
  length_decode_le (decode_encode units)

theorem length_encodePoint_le (point : Nat) :
    (encodePoint point).length ≤ 4 ∧
      (point < 0x10000 → (encodePoint point).length ≤ 3) := by
  unfold encodePoint
  split
  · simp
  · split
    · simp
    · split
      · simp
      · next hplane => exact ⟨by simp, fun hlt => absurd hlt hplane⟩

/-- A unit has at most three bytes, and a pair four. -/
theorem length_encode_le (units : List UInt16) :
    (encode units).length ≤ 3 * units.length := by
  unfold encode
  induction units using codePoints.induct with
  | case1 => simp [codePoints]
  | case2 unit =>
      have hfirst := (length_encodePoint_le unit.toNat).2 unit.toNat_lt
      simpa [codePoints] using hfirst
  | case3 first second rest hpair ih =>
      have hfirst := (length_encodePoint_le (0x10000 +
        (first.toNat - 0xD800) * 0x400 + (second.toNat - 0xDC00))).1
      rw [codePoints, if_pos hpair, List.flatMap_cons, List.length_append,
        List.length_cons, List.length_cons]
      omega
  | case4 first second rest hpair ih =>
      have hfirst := (length_encodePoint_le first.toNat).2 first.toNat_lt
      rw [codePoints, if_neg hpair, List.flatMap_cons, List.length_append,
        List.length_cons]
      omega

theorem encode_injective {units units' : List UInt16}
    (hencode : encode units = encode units') : units = units' := by
  have hdecode := decode_encode units
  rw [hencode, decode_encode, Option.some.injEq] at hdecode
  exact hdecode.symm

end Sequences

section Nul

theorem codePoints_append_zero (before after : List UInt16) :
    codePoints (before ++ 0 :: after) =
      codePoints before ++ 0 :: codePoints after := by
  have hzero : ¬ Trail (0 : UInt16).toNat := by decide
  have hzero' : ¬ Lead (0 : UInt16).toNat := by decide
  have hcons : codePoints (0 :: after) = 0 :: codePoints after := by
    cases after with
    | nil => rfl
    | cons next tail =>
        rw [codePoints, if_neg (fun hpair => hzero' hpair.1)]
        rfl
  induction before using codePoints.induct with
  | case1 => exact hcons
  | case2 unit =>
      have hunit : codePoints (unit :: 0 :: after) =
          unit.toNat :: codePoints (0 :: after) := by
        rw [codePoints, if_neg (fun hpair => hzero hpair.2)]
      rw [List.singleton_append, hunit, hcons]
      rfl
  | case3 first second rest hpair ih =>
      rw [List.cons_append, List.cons_append, codePoints, if_pos hpair, ih,
        codePoints, if_pos hpair]
      rfl
  | case4 first second rest hpair ih =>
      rw [List.cons_append] at ih
      rw [List.cons_append, List.cons_append, codePoints, if_neg hpair, ih,
        codePoints, if_neg hpair]
      rfl

theorem encode_append_zero (before after : List UInt16) :
    encode (before ++ 0 :: after) = encode before ++ 0 :: encode after := by
  rw [encode, codePoints_append_zero, List.flatMap_append, List.flatMap_cons]
  rfl

theorem ofNat_ne_zero {value : Nat} (hpos : value ≠ 0) (hvalue : value < 256) :
    (0 : UInt8) ≠ UInt8.ofNat value := by
  intro heq
  have hnat := congrArg UInt8.toNat heq
  rw [toNat_ofNat8 hvalue] at hnat
  exact hpos hnat.symm

theorem zero_not_mem_encodePoint {point : Nat} (hpoint : point < 0x110000)
    (hpos : point ≠ 0) : 0 ∉ encodePoint point := by
  unfold encodePoint
  split
  · rw [List.mem_singleton]
    exact ofNat_ne_zero hpos (by omega)
  · split
    · simp only [List.mem_cons, List.not_mem_nil, or_false, not_or]
      exact ⟨ofNat_ne_zero (by omega) (by omega),
        ofNat_ne_zero (by omega) (by omega)⟩
    · split
      · simp only [List.mem_cons, List.not_mem_nil, or_false, not_or]
        exact ⟨ofNat_ne_zero (by omega) (by omega),
          ofNat_ne_zero (by omega) (by omega),
          ofNat_ne_zero (by omega) (by omega)⟩
      · simp only [List.mem_cons, List.not_mem_nil, or_false, not_or]
        exact ⟨ofNat_ne_zero (by omega) (by omega),
          ofNat_ne_zero (by omega) (by omega),
          ofNat_ne_zero (by omega) (by omega),
          ofNat_ne_zero (by omega) (by omega)⟩

theorem zero_mem_of_codePoints {units : List UInt16}
    (hzero : 0 ∈ codePoints units) : 0 ∈ units := by
  induction units using codePoints.induct with
  | case1 => simp [codePoints] at hzero
  | case2 unit =>
      rw [codePoints, List.mem_singleton] at hzero
      rw [List.mem_singleton]
      exact UInt16.toNat_inj.mp hzero
  | case3 first second rest hpair ih =>
      rw [codePoints, if_pos hpair] at hzero
      rcases List.mem_cons.mp hzero with heq | hmem
      · omega
      · have hrest := ih hmem
        simp [hrest]
  | case4 first second rest hpair ih =>
      rw [codePoints, if_neg hpair] at hzero
      rcases List.mem_cons.mp hzero with heq | hmem
      · have hfirst : 0 = first := UInt16.toNat_inj.mp heq
        simp [hfirst]
      · have hrest := ih hmem
        exact List.mem_cons_of_mem first hrest

/-- Only a zero unit has a zero byte. -/
theorem zero_not_mem_encode {units : List UInt16} (hunits : 0 ∉ units) :
    0 ∉ encode units := by
  intro hzero
  rcases List.mem_flatMap.mp hzero with ⟨point, hpoint, hmem⟩
  by_cases hpos : point = 0
  · rw [hpos] at hpoint
    exact hunits (zero_mem_of_codePoints hpoint)
  · exact zero_not_mem_encodePoint (codePoints_lt units point hpoint) hpos
      hmem

end Nul

end Wtf8
