/-
The tables that `fn init` fills for `Errno`, and the table of messages that
`Errno::to_bytes` fills as it goes.
-/
import UvMbt.Errno
import UvMbt.OrderedMap
import UvMbt.CString
import Mathlib.Logic.Basic

set_option autoImplicit false

namespace UvMbt.Errno

section Tables

variable (uvValue : Errno → Int)

/-- `errno_errors`. -/
def errorTable : List (Int × Errno) :=
  OrderedMap.fill (all.map fun error => (uvValue error, error))

/-- `errno_values`, filled from `errno_errors`. -/
def valueTable : List (Errno × Int) :=
  OrderedMap.turn (errorTable uvValue)

/-- `Errno::to_int`. -/
def toInt (error : Errno) : Int :=
  match List.lookup error (valueTable uvValue) with
  | some value => value
  | none => uvValue .UNKNOWN

end Tables

section Messages

/-- What `uv_strerror_r` leaves in a buffer: as much of the message as fits,
and a NUL. -/
def strerrorR (message : CString) (size : Nat) : List UInt8 :=
  let written := message.text.take (size - 1)
  written ++ List.replicate (size - written.length) 0

/-- `strerror`. -/
def strerror (uvMessage : Int → CString) (errno : Int) : List UInt8 :=
  (strerrorR (uvMessage errno) 256).takeWhile (· ≠ 0)

/-- `errno_messages`, and what libuv was asked for. -/
structure Messages where
  table : List (Errno × List UInt8)
  asked : List Int

variable (uvValue : Errno → Int) (uvMessage : Int → CString)

/-- `Errno::to_bytes`. -/
def toBytes (error : Errno) (messages : Messages) : List UInt8 × Messages :=
  match List.lookup error messages.table with
  | some message => (message, messages)
  | none =>
      let message := strerror uvMessage (toInt uvValue error)
      (message,
        { table := OrderedMap.set messages.table error message,
          asked := messages.asked ++ [toInt uvValue error] })

/-- Some calls of `Errno::to_bytes`, one after the other. -/
def toBytesAll : List Errno → Messages → List (List UInt8) × Messages
  | [], messages => ([], messages)
  | error :: errors, messages =>
      let (message, messages) := toBytes uvValue uvMessage error messages
      let (rest, messages) := toBytesAll errors messages
      (message :: rest, messages)

end Messages

section Lookup

variable {uvValue : Errno → Int} {errno : Int} {error : Errno}

theorem lookup_map (errors : List Errno) :
    List.lookup errno (errors.map fun error => (uvValue error, error)) =
      errors.find? fun error => uvValue error == errno := by
  induction errors with
  | nil => rfl
  | cons error errors ih =>
      rw [List.map_cons, OrderedMap.lookup_cons, List.find?_cons]
      by_cases hvalue : errno = uvValue error
      · rw [if_pos hvalue, beq_iff_eq.mpr hvalue.symm]
      · rw [if_neg hvalue, beq_false_of_ne (Ne.symm hvalue)]
        exact ih

/-- The table of the code is the search that `Errno::of_int` makes. -/
theorem lookup_errorTable :
    List.lookup errno (errorTable uvValue) = errnoErrors uvValue errno := by
  rw [errorTable, OrderedMap.lookup_fill, ← List.map_reverse, lookup_map]
  rfl

theorem nodup_errorTable : ((errorTable uvValue).map Prod.fst).Nodup :=
  OrderedMap.nodup_fill _

/-- An error is in the table under its own code. -/
theorem code_of_mem {entry : Int × Errno} (hentry : entry ∈ errorTable uvValue) :
    uvValue entry.2 = entry.1 := by
  have hlookup : List.lookup entry.1 (errorTable uvValue) = some entry.2 :=
    (OrderedMap.lookup_eq_some_iff nodup_errorTable).mpr hentry
  rw [lookup_errorTable] at hlookup
  exact errnoErrors_sound hlookup

theorem nodup_errors : ((errorTable uvValue).map Prod.snd).Nodup := by
  have hcodes : ((errorTable uvValue).map Prod.snd).map uvValue =
      (errorTable uvValue).map Prod.fst := by
    rw [List.map_map]
    exact List.map_congr_left fun entry hentry => code_of_mem hentry
  apply List.Nodup.of_map uvValue
  rw [hcodes]
  exact nodup_errorTable

theorem lookup_valueTable :
    List.lookup error (valueTable uvValue) = some errno ↔
      errnoErrors uvValue errno = some error := by
  rw [valueTable, OrderedMap.lookup_turn nodup_errorTable nodup_errors,
    lookup_errorTable]

/-- An error that another one has replaced has no value. -/
theorem toInt_eq (uvValue : Errno → Int) (error : Errno) :
    toInt uvValue error =
      if errnoErrors uvValue (uvValue error) = some error then uvValue error
      else uvValue .UNKNOWN := by
  rw [toInt]
  by_cases hfound : errnoErrors uvValue (uvValue error) = some error
  · rw [if_pos hfound, lookup_valueTable.mpr hfound]
  · rw [if_neg hfound]
    cases hvalue : List.lookup error (valueTable uvValue) with
    | none => rfl
    | some value =>
        rw [lookup_valueTable] at hvalue
        rw [errnoErrors_sound hvalue] at hfound
        exact absurd hvalue hfound

end Lookup

section Order

variable {uvValue : Errno → Int} {errno : Int} {error : Errno}

theorem mem_all (error : Errno) : error ∈ all := by
  cases error <;> decide

/-- No error that is listed later has the same code. -/
def Last (uvValue : Errno → Int) (error : Errno) : Prop :=
  ∃ earlier later, all = earlier ++ error :: later ∧
    ∀ other ∈ later, uvValue other ≠ uvValue error

theorem errnoErrors_eq_some_iff :
    errnoErrors uvValue errno = some error ↔
      uvValue error = errno ∧ Last uvValue error := by
  rw [errnoErrors, List.find?_eq_some_iff_append, beq_iff_eq]
  refine and_congr_right fun hvalue => ?_
  constructor
  · rintro ⟨later, earlier, hall, hlater⟩
    refine ⟨earlier.reverse, later.reverse, ?_, ?_⟩
    · rw [← List.reverse_reverse all, hall]
      simp
    · intro other hother hsame
      have hnot := hlater other (List.mem_reverse.mp hother)
      rw [Bool.not_eq_true', beq_eq_false_iff_ne] at hnot
      exact hnot (hsame.trans hvalue)
  · rintro ⟨earlier, later, hall, hlater⟩
    refine ⟨later.reverse, earlier.reverse, ?_, ?_⟩
    · rw [hall]
      simp
    · intro other hother
      rw [Bool.not_eq_true', beq_eq_false_iff_ne, ← hvalue]
      exact hlater other (List.mem_reverse.mp hother)

/-- A code of some error is in the table. -/
theorem errnoErrors_ne_none (uvValue : Errno → Int) (error : Errno) :
    ∃ found, errnoErrors uvValue (uvValue error) = some found := by
  cases hfound : errnoErrors uvValue (uvValue error) with
  | some found => exact ⟨found, rfl⟩
  | none =>
      have hnone := List.find?_eq_none.mp hfound error
        (List.mem_reverse.mpr (mem_all error))
      exact absurd (beq_self_eq_true (uvValue error)) hnone

theorem toInt_of_last (hlast : Last uvValue error) :
    toInt uvValue error = uvValue error := by
  rw [toInt_eq, if_pos (errnoErrors_eq_some_iff.mpr ⟨rfl, hlast⟩)]

theorem toInt_of_not_last (hlast : ¬ Last uvValue error) :
    toInt uvValue error = uvValue .UNKNOWN := by
  rw [toInt_eq, if_neg]
  intro hfound
  exact hlast (errnoErrors_eq_some_iff.mp hfound).2

theorem ofInt_of_some (hfound : errnoErrors uvValue errno = some error) :
    ofInt uvValue errno = error := by
  rw [ofInt, hfound]

theorem toInt_unknown (uvValue : Errno → Int) :
    toInt uvValue .UNKNOWN = uvValue .UNKNOWN := by
  by_cases hlast : Last uvValue .UNKNOWN
  · exact toInt_of_last hlast
  · exact toInt_of_not_last hlast

/-- A code comes back if some error has it, and as the code of `UNKNOWN`
otherwise. -/
theorem toInt_ofInt (uvValue : Errno → Int) (errno : Int) :
    toInt uvValue (ofInt uvValue errno) =
      if errno ∈ all.map uvValue then errno else uvValue .UNKNOWN := by
  by_cases hmem : errno ∈ all.map uvValue
  · obtain ⟨error, -, rfl⟩ := List.mem_map.mp hmem
    obtain ⟨found, hfound⟩ := errnoErrors_ne_none uvValue error
    obtain ⟨hvalue, hlast⟩ := errnoErrors_eq_some_iff.mp hfound
    rw [if_pos hmem, ofInt_of_some hfound, toInt_of_last hlast, hvalue]
  · rw [if_neg hmem]
    cases hfound : errnoErrors uvValue errno with
    | none => rw [ofInt, hfound, toInt_unknown]
    | some found =>
        obtain ⟨hvalue, -⟩ := errnoErrors_eq_some_iff.mp hfound
        exact absurd (List.mem_map.mpr ⟨found, mem_all found, hvalue⟩) hmem

/-- An error comes back exactly if no later one has its code. -/
theorem ofInt_toInt_iff (uvValue : Errno → Int) (error : Errno) :
    ofInt uvValue (toInt uvValue error) = error ↔ Last uvValue error := by
  constructor
  · intro hback
    by_contra hlast
    rw [toInt_of_not_last hlast] at hback
    obtain ⟨found, hfound⟩ := errnoErrors_ne_none uvValue .UNKNOWN
    rw [ofInt_of_some hfound] at hback
    rw [hback] at hfound
    exact hlast (errnoErrors_eq_some_iff.mp hfound).2
  · intro hlast
    rw [toInt_of_last hlast]
    exact ofInt_of_some (errnoErrors_eq_some_iff.mpr ⟨rfl, hlast⟩)

/-- The two tables undo each other as far as the codes of the platform allow:
every code of an error comes back, and an error does exactly if no error that
is listed later has its code. -/
theorem tables_round_trip (uvValue : Errno → Int) :
    (∀ errno, toInt uvValue (ofInt uvValue errno) =
      if errno ∈ all.map uvValue then errno else uvValue .UNKNOWN) ∧
    ∀ error, ofInt uvValue (toInt uvValue error) = error ↔
      Last uvValue error :=
  ⟨toInt_ofInt uvValue, ofInt_toInt_iff uvValue⟩

end Order

section Answers

variable {uvValue : Errno → Int} {uvMessage : Int → CString}

/-- The buffer of 256 bytes cuts a message, and its NUL ends it. -/
theorem strerror_eq (uvMessage : Int → CString) (errno : Int) :
    strerror uvMessage errno = (uvMessage errno).text.take 255 := by
  have hpositive : ∀ byte ∈ (uvMessage errno).text.take 255,
      decide (byte ≠ 0) = true := by
    intro byte hbyte
    rw [decide_eq_true_eq]
    rintro rfl
    exact (uvMessage errno).noNul (List.mem_of_mem_take hbyte)
  have hlength : 256 - ((uvMessage errno).text.take 255).length =
      (255 - ((uvMessage errno).text.take 255).length) + 1 := by
    have hle : ((uvMessage errno).text.take 255).length ≤ 255 :=
      List.length_take_le 255 _
    omega
  change ((uvMessage errno).text.take 255 ++ List.replicate
    (256 - ((uvMessage errno).text.take 255).length) 0).takeWhile (· ≠ 0) = _
  rw [hlength, List.replicate_succ, List.takeWhile_append_of_pos hpositive,
    List.takeWhile_cons_of_neg (by decide), List.append_nil]

/-- The table holds what libuv would answer again, and libuv was asked for one
message for each error that is in it. -/
structure Kept (uvValue : Errno → Int) (uvMessage : Int → CString)
    (messages : Messages) : Prop where
  answers : ∀ error message, List.lookup error messages.table = some message →
    message = strerror uvMessage (toInt uvValue error)
  nodup : (messages.table.map Prod.fst).Nodup
  asked : messages.asked = (messages.table.map Prod.fst).map (toInt uvValue)

theorem kept_empty : Kept uvValue uvMessage ⟨[], []⟩ where
  answers _ _ hlookup := by cases hlookup
  nodup := List.nodup_nil
  asked := rfl

/-- A call answers what libuv would, and keeps the answer. -/
theorem Kept.toBytes {messages : Messages} (hkept : Kept uvValue uvMessage messages)
    (error : Errno) :
    (toBytes uvValue uvMessage error messages).1 =
        strerror uvMessage (toInt uvValue error) ∧
      Kept uvValue uvMessage (toBytes uvValue uvMessage error messages).2 ∧
      ∀ other, other ∈ (Errno.toBytes uvValue uvMessage error
          messages).2.table.map Prod.fst ↔
        other = error ∨ other ∈ messages.table.map Prod.fst := by
  rw [Errno.toBytes]
  cases hlookup : List.lookup error messages.table with
  | some message =>
      refine ⟨hkept.answers error message hlookup, hkept, fun other => ?_⟩
      have hmem : error ∈ messages.table.map Prod.fst :=
        List.mem_map_of_mem
          ((OrderedMap.lookup_eq_some_iff hkept.nodup).mp hlookup)
      constructor
      · exact Or.inr
      · rintro (rfl | hother)
        · exact hmem
        · exact hother
  | none =>
      refine ⟨rfl, ⟨?_, OrderedMap.nodup_set hkept.nodup _ _, ?_⟩,
        fun other => OrderedMap.mem_keys_set _ _ _⟩
      · intro other message hother
        by_cases heq : other = error
        · rw [heq, OrderedMap.lookup_set_self, Option.some.injEq] at hother
          rw [heq, hother]
        · rw [OrderedMap.lookup_set_ne _ _ heq] at hother
          exact hkept.answers other message hother
      · change messages.asked ++ [Errno.toInt uvValue error] =
          ((OrderedMap.set messages.table error _).map Prod.fst).map _
        rw [OrderedMap.set_of_lookup_none hlookup, List.map_append,
          List.map_append, hkept.asked]
        rfl

theorem Kept.toBytesAll {messages : Messages}
    (hkept : Kept uvValue uvMessage messages) (errors : List Errno) :
    (toBytesAll uvValue uvMessage errors messages).1 =
        errors.map (fun error => strerror uvMessage (toInt uvValue error)) ∧
      Kept uvValue uvMessage (toBytesAll uvValue uvMessage errors messages).2 ∧
      ∀ other, other ∈ (Errno.toBytesAll uvValue uvMessage errors
          messages).2.table.map Prod.fst ↔
        other ∈ errors ∨ other ∈ messages.table.map Prod.fst := by
  induction errors generalizing messages with
  | nil => exact ⟨rfl, hkept, fun other => by simp [Errno.toBytesAll]⟩
  | cons error errors ih =>
      obtain ⟨hanswer, hnext, hkeys⟩ := hkept.toBytes error
      obtain ⟨hanswers, hlast, hrest⟩ := ih hnext
      refine ⟨?_, hlast, fun other => ?_⟩
      · rw [List.map_cons, ← hanswer, ← hanswers]
        rfl
      · refine (hrest other).trans ?_
        rw [hkeys other, List.mem_cons]
        tauto

/-- Whatever was called before, a message is the one libuv has for the code of
the error, cut to the buffer; and libuv is asked once for each error. -/
theorem messages_exact (uvValue : Errno → Int) (uvMessage : Int → CString)
    (errors : List Errno) :
    (toBytesAll uvValue uvMessage errors ⟨[], []⟩).1 =
        errors.map (fun error =>
          (uvMessage (toInt uvValue error)).text.take 255) ∧
      ∃ order : List Errno, order.Nodup ∧
        (∀ error, error ∈ order ↔ error ∈ errors) ∧
        (toBytesAll uvValue uvMessage errors ⟨[], []⟩).2.asked =
          order.map (toInt uvValue) := by
  obtain ⟨hanswers, hkept, hkeys⟩ :=
    Kept.toBytesAll (kept_empty : Kept uvValue uvMessage ⟨[], []⟩) errors
  refine ⟨?_, _, hkept.nodup, fun error => ?_, ?_⟩
  · rw [hanswers]
    apply List.map_congr_left
    intro error _
    rw [strerror_eq]
  · rw [hkeys error]
    exact or_iff_left List.not_mem_nil
  · exact hkept.asked

end Answers

end UvMbt.Errno
