/-
C strings turned into `Bytes`, in C by `strlen` and a copy, and in MoonBit by
a loop over a pointer.
-/
import Mathlib.Algebra.Group.Nat.Defs
import UvMbt.ArrayHeader
import UvMbt.CountedLoop
import UvMbt.CString

set_option autoImplicit false

namespace UvMbt.Marshalling

open ArrayHeader CountedLoop

/-- The bytes from an address on, or the `NULL` pointer. -/
abbrev Pointer := Option (List UInt8)

inductive Fault where
  | nullPointer
  | outOfBounds
  | badLength
  deriving Repr, DecidableEq

section Code

def deref : Pointer → Except Fault (List UInt8)
  | none => .error .nullPointer
  | some memory => .ok memory

def strlen (memory : List UInt8) : Except Fault Nat :=
  match CString.strlen memory with
  | none => .error .outOfBounds
  | some length => .ok length

/-- `moonbit_make_bytes`, whose size is an `int32_t`. -/
def makeBytes (size : Nat) : Except Fault (List UInt8) :=
  if size < 2 ^ 31 then .ok (List.replicate size 0) else .error .badLength

def memcpy (target source : List UInt8) (length : Nat) :
    Except Fault (List UInt8) :=
  if length ≤ target.length ∧ length ≤ source.length then
    .ok (source.take length ++ target.drop length)
  else .error .outOfBounds

/-- The copy that the stubs write out, `extra` bytes beyond the length, as the
program sees it. -/
def copyBytes (extra : Nat) (pointer : Pointer) :
    Except Fault (List UInt8) := do
  let memory ← deref pointer
  let length ← strlen memory
  let bytes ← makeBytes (length + extra)
  let copied ← memcpy bytes memory (length + extra)
  return visible copied

/-- `moonbit_uv_getnameinfo_cb`. -/
def getnameinfoCb (hostname service : Pointer) :
    Except Fault (Option (List UInt8) × Option (List UInt8)) := do
  let host ← if hostname.isSome then some <$> copyBytes 1 hostname
    else .ok none
  let serv ← if service.isSome then some <$> copyBytes 1 service
    else .ok none
  return (host, serv)

def copyStep (path : List UInt8) (i : Nat) (bytes : List UInt8) :
    Option (List UInt8) := do
  let byte ← path[i]?
  setAt bytes i byte

/-- `moonbit_uv_fs_get_path`. -/
def fsGetPath (path : Pointer) : Except Fault (List UInt8) := do
  let memory ← deref path
  let length ← strlen memory
  let bytes ← makeBytes length
  match loop (copyStep memory) 0 length bytes with
  | none => .error .outOfBounds
  | some bytes => .ok (visible bytes)

/-- `moonbit_uv_passwd_get_username`. -/
def passwdGetUsername : Pointer → Except Fault (List UInt8) := copyBytes 0

/-- `moonbit_uv_passwd_get_homedir`. -/
def passwdGetHomedir : Pointer → Except Fault (List UInt8) := copyBytes 0

/-- `moonbit_uv_passwd_get_shell`. -/
def passwdGetShell (shell : Pointer) : Except Fault (List UInt8) :=
  if shell.isSome then copyBytes 0 shell else .ok []

/-- `moonbit_uv_group_get_groupname`. -/
def groupGetGroupname : Pointer → Except Fault (List UInt8) := copyBytes 0

/-- `moonbit_uv_group_get_members`, on a table that ends with `NULL`. -/
def groupGetMembers (members : List Pointer) :
    Except Fault (List (List UInt8)) :=
  (members.takeWhile Option.isSome).mapM (copyBytes 0)

/-- `moonbit_uv_interface_address_name`. -/
def interfaceAddressName : Pointer → Except Fault (List UInt8) := copyBytes 0

/-- `for i = 0; ptr[i] != 0; i = i + 1 { buf.write_byte(ptr[i]) }` from an
index on, which is an `Int`. -/
def readFrom : List UInt8 → Nat → List UInt8 → Except Fault (List UInt8)
  | [], _, _ => .error .outOfBounds
  | byte :: rest, i, buf =>
      if i < 2 ^ 31 then
        if byte ≠ 0 then readFrom rest (i + 1) (buf ++ [byte])
        else .ok (visible buf)
      else .error .badLength

/-- `read_c_string` and its copies. -/
def readCString (pointer : Pointer) : Except Fault (List UInt8) := do
  let memory ← deref pointer
  readFrom memory 0 []

/-- The loop behind a test for `NULL`. -/
def readNullable (pointer : Pointer) : Except Fault (Option (List UInt8)) :=
  if pointer.isSome then some <$> readCString pointer else .ok none

end Code

/-- The places where a C string becomes `Bytes`; `path` is that of `mkdtemp`
and `mkstemp` in both forms. -/
inductive Place where
  | host
  | service
  | path
  | readlink
  | readlinkSync
  | realpath
  | realpathSync
  | direntName
  | canonname
  | username
  | homedir
  | shell
  | groupname
  | member
  | interfaceName
  | environName
  | environValue
  | fsEventFilename
  deriving Repr, DecidableEq

def Place.convert : Place → Pointer → Except Fault (Option (List UInt8))
  | .host, pointer => Prod.fst <$> getnameinfoCb pointer none
  | .service, pointer => Prod.snd <$> getnameinfoCb none pointer
  | .path, pointer => some <$> fsGetPath pointer
  | .canonname, pointer | .fsEventFilename, pointer => readNullable pointer
  | .username, pointer => some <$> passwdGetUsername pointer
  | .homedir, pointer => some <$> passwdGetHomedir pointer
  | .shell, pointer => some <$> passwdGetShell pointer
  | .groupname, pointer => some <$> groupGetGroupname pointer
  | .member, pointer => some <$> copyBytes 0 pointer
  | .interfaceName, pointer => some <$> interfaceAddressName pointer
  | .readlink, pointer | .readlinkSync, pointer | .realpath, pointer
  | .realpathSync, pointer | .direntName, pointer | .environName, pointer
  | .environValue, pointer => some <$> readCString pointer

/-- `NULL` becomes nothing or an empty value, and a string its bytes. -/
def Exact (string : Option CString)
    (result : Except Fault (Option (List UInt8))) : Prop :=
  match string with
  | none => result = .ok none ∨ result = .ok (some [])
  | some string => result = .ok (some string.text)

/-- The places with a test for `NULL`. -/
def Place.Nullable (place : Place) : Prop :=
  place = .host ∨ place = .service ∨ place = .canonname ∨ place = .shell ∨
    place = .fsEventFilename

/-- `NULL` where it is tested for, or a string, that `Bytes` can hold, which
is not a name of `getnameinfo`. -/
def Convertible (place : Place) (string : Option CString) : Prop :=
  match string with
  | none => place.Nullable
  | some string =>
      place ≠ .host ∧ place ≠ .service ∧ string.text.length < maxLength

section Conversions

variable (string : CString)

theorem copyBytes_null (extra : Nat) :
    copyBytes extra none = .error .nullPointer := rfl

theorem copyBytes_memory (extra : Nat) (hextra : extra ≤ 1) :
    copyBytes extra (some string.memory) =
      if string.text.length + extra < 2 ^ 31 then
        .ok (visible (string.memory.take (string.text.length + extra)))
      else .error .badLength := by
  have hlength := string.length_memory
  by_cases hfits : string.text.length + extra < 2 ^ 31
  · have hroom : string.text.length + extra ≤ string.memory.length := by omega
    simp [-Nat.reducePow, copyBytes, deref, strlen, CString.strlen_memory,
      makeBytes, hfits, memcpy, hroom, bind, Except.bind, pure, Except.pure]
  · simp [-Nat.reducePow, copyBytes, deref, strlen, CString.strlen_memory,
      makeBytes, hfits, bind, Except.bind]

theorem copyBytes_zero :
    copyBytes 0 (some string.memory) =
      if string.text.length < 2 ^ 31 then .ok (visible string.text)
      else .error .badLength := by
  rw [copyBytes_memory string 0 (Nat.zero_le _), Nat.add_zero,
    CString.take_memory]

theorem lt_of_short {length : Nat} (hshort : length < maxLength) :
    length < 2 ^ 31 := by
  unfold maxLength at hshort
  omega

/-- A string that `Bytes` can hold is copied. -/
theorem copyBytes_text (hshort : string.text.length < maxLength) :
    copyBytes 0 (some string.memory) = .ok string.text := by
  rw [copyBytes_zero, if_pos (lt_of_short hshort), visible_of_lt hshort]

/-- The copies of `getnameinfo` keep the terminator. -/
theorem copyBytes_one :
    copyBytes 1 (some string.memory) =
      if string.text.length + 1 < 2 ^ 31 then
        .ok (visible (string.text ++ [0]))
      else .error .badLength := by
  rw [copyBytes_memory string 1 (Nat.le_refl _), CString.take_memory_succ]

theorem readFrom_append (text after : List UInt8) (hnul : 0 ∉ text)
    (i : Nat) (buf : List UInt8) :
    readFrom (text ++ 0 :: after) i buf =
      if i + text.length < 2 ^ 31 then .ok (visible (buf ++ text))
      else .error .badLength := by
  induction text generalizing i buf with
  | nil => simp [readFrom]
  | cons byte rest ih =>
      rw [List.mem_cons, not_or] at hnul
      have hlength : i + 1 + rest.length = i + (rest.length + 1) := by omega
      rw [List.cons_append, readFrom, if_pos (Ne.symm hnul.1), ih hnul.2,
        List.length_cons, hlength, List.append_assoc]
      split
      · rfl
      · rw [if_neg (by omega)]

theorem readCString_memory :
    readCString (some string.memory) =
      if string.text.length < 2 ^ 31 then .ok (visible string.text)
      else .error .badLength := by
  have hread := readFrom_append string.text string.after string.noNul 0 []
  rw [Nat.zero_add, List.nil_append] at hread
  exact hread

theorem readCString_text (hshort : string.text.length < maxLength) :
    readCString (some string.memory) = .ok string.text := by
  rw [readCString_memory, if_pos (lt_of_short hshort), visible_of_lt hshort]

theorem fsGetPath_memory :
    fsGetPath (some string.memory) =
      if string.text.length < 2 ^ 31 then .ok (visible string.text)
      else .error .badLength := by
  have hloop := loop_eq (copyStep string.memory)
    (progress id (fun _ => 0) string.text) string.text.length (by
    intro i hi
    have hbyte : string.text[i]? = some string.text[i] :=
      List.getElem?_eq_getElem hi
    have hread : string.memory[i]? = some string.text[i] := by
      rw [CString.memory, List.getElem?_append_left hi, hbyte]
    have hset := setAt_progress id (fun _ => 0) hbyte
    simp only [copyStep, hread, bind, Option.bind]
    exact hset)
  rw [progress_zero, progress_length, List.map_const', List.map_id] at hloop
  by_cases hfits : string.text.length < 2 ^ 31
  · simp [-Nat.reducePow, fsGetPath, deref, strlen, CString.strlen_memory,
      makeBytes, hfits, hloop, bind, Except.bind]
  · simp [-Nat.reducePow, fsGetPath, deref, strlen, CString.strlen_memory,
      makeBytes, hfits, bind, Except.bind]

/-- What a conversion gives for a string when it keeps the text. -/
def textResult (string : CString) : Except Fault (Option (List UInt8)) :=
  if string.text.length < 2 ^ 31 then .ok (some (visible string.text))
  else .error .badLength

theorem convert_name {place : Place}
    (hplace : place = .host ∨ place = .service) :
    place.convert (some string.memory) =
      if string.text.length + 1 < 2 ^ 31 then
        .ok (some (visible (string.text ++ [0])))
      else .error .badLength := by
  rcases hplace with rfl | rfl <;>
    by_cases hfits : string.text.length + 1 < 2 ^ 31 <;>
      simp [-Nat.reducePow, Place.convert, getnameinfoCb, copyBytes_one,
        hfits, bind, Except.bind, pure, Except.pure, Functor.map, Except.map]

theorem convert_text {place : Place} (hhost : place ≠ .host)
    (hservice : place ≠ .service) :
    place.convert (some string.memory) = textResult string := by
  by_cases hfits : string.text.length < 2 ^ 31
  · cases place <;> first | contradiction |
      simp [-Nat.reducePow, Place.convert, textResult, passwdGetUsername,
        passwdGetHomedir, passwdGetShell, groupGetGroupname, interfaceAddressName, readNullable,
        copyBytes_zero, readCString_memory, fsGetPath_memory, hfits,
        Functor.map, Except.map]
  · cases place <;> first | contradiction |
      simp [-Nat.reducePow, Place.convert, textResult, passwdGetUsername,
        passwdGetHomedir, passwdGetShell, groupGetGroupname, interfaceAddressName, readNullable,
        copyBytes_zero, readCString_memory, fsGetPath_memory, hfits,
        Functor.map, Except.map]

theorem textResult_of_lt (hshort : string.text.length < maxLength) :
    textResult string = .ok (some string.text) := by
  rw [textResult, if_pos (lt_of_short hshort), visible_of_lt hshort]

theorem textResult_exact_iff :
    textResult string = .ok (some string.text) ↔
      string.text.length < maxLength := by
  constructor
  · intro hresult
    unfold textResult at hresult
    split at hresult
    · simp only [Except.ok.injEq, Option.some.injEq] at hresult
      exact visible_eq_iff.mp hresult
    · cases hresult
  · exact textResult_of_lt string

/-- No length leaves out just the terminator. -/
theorem visible_name_ne : visible (string.text ++ [0]) ≠ string.text := by
  intro hvisible
  have hlength := congrArg List.length hvisible
  rw [visible, List.length_take, List.length_append, List.length_singleton] at hlength
  unfold headerLength maxLength at hlength
  omega

theorem exact_null_iff (place : Place) :
    Exact none (place.convert none) ↔ place.Nullable := by
  cases place <;>
    simp [Exact, Place.convert, Place.Nullable, getnameinfoCb, readNullable,
      passwdGetShell, passwdGetUsername, passwdGetHomedir, groupGetGroupname,
      interfaceAddressName, copyBytes_null, readCString, fsGetPath, deref,
      bind, Except.bind, pure, Except.pure, Functor.map, Except.map]

theorem mapM_copyBytes {strings : List CString}
    (hshort : ∀ string ∈ strings, string.text.length < maxLength) :
    (strings.map fun string => some string.memory).mapM (copyBytes 0) =
      .ok (strings.map CString.text) := by
  induction strings with
  | nil => rfl
  | cons string rest ih =>
      rw [List.map_cons, List.mapM_cons,
        copyBytes_text string (hshort string (by simp)), ih]
      · rfl
      · intro other hother
        exact hshort other (by simp [hother])

theorem short_of_mapM_copyBytes {strings : List CString}
    (hresult : (strings.map fun string => some string.memory).mapM
      (copyBytes 0) = .ok (strings.map CString.text)) :
    ∀ string ∈ strings, string.text.length < maxLength := by
  induction strings with
  | nil => simp
  | cons first rest ih =>
      rw [List.map_cons, List.mapM_cons, copyBytes_zero] at hresult
      by_cases hfirst : first.text.length < 2 ^ 31
      · rw [if_pos hfirst] at hresult
        cases hrest : (rest.map fun string => some string.memory).mapM
            (copyBytes 0) with
        | error fault => simp [hrest, bind, Except.bind] at hresult
        | ok others =>
            simp only [hrest, bind, Except.bind, pure, Except.pure,
              List.map_cons, Except.ok.injEq, List.cons.injEq] at hresult
            intro string hstring
            rcases List.mem_cons.mp hstring with rfl | hmem
            · exact visible_eq_iff.mp hresult.1
            · rw [hresult.2] at hrest
              exact ih hrest string hmem
      · simp [-Nat.reducePow, hfirst, bind, Except.bind] at hresult

theorem groupGetMembers_eq (strings : List CString) (rest : List Pointer) :
    groupGetMembers
        ((strings.map fun string => some string.memory) ++ none :: rest) =
      (strings.map fun string => some string.memory).mapM (copyBytes 0) := by
  rw [groupGetMembers, List.takeWhile_append_of_pos]
  · simp
  · intro pointer hpointer
    rcases List.mem_map.mp hpointer with ⟨string, _, rfl⟩
    rfl

end Conversions

/-- Every conversion is exact just where the pointer is `NULL` and tested for
it, or a string of a length that `Bytes` has and not a host or service name;
there equal bytes come from equal strings. The members of a group are
converted one by one. -/
theorem conversion_exact_iff (place : Place) :
    (∀ string : Option CString,
      Exact string (place.convert (string.map CString.memory)) ↔
        Convertible place string) ∧
    (∀ left right : CString,
      Convertible place (some left) → Convertible place (some right) →
      (place.convert (some left.memory) = place.convert (some right.memory) ↔
        left.text = right.text)) ∧
    ∀ (strings : List CString) (rest : List Pointer),
      groupGetMembers
          ((strings.map fun string => some string.memory) ++ none :: rest) =
        .ok (strings.map CString.text) ↔
      ∀ string ∈ strings, Convertible .member (some string) := by
  refine ⟨?_, ?_, ?_⟩
  · intro string
    cases string with
    | none => exact exact_null_iff place
    | some string =>
        simp only [Option.map_some, Exact, Convertible]
        by_cases hname : place = .host ∨ place = .service
        · rw [convert_name string hname]
          constructor
          · intro hexact
            split at hexact
            · simp only [Except.ok.injEq, Option.some.injEq] at hexact
              exact absurd hexact (visible_name_ne string)
            · cases hexact
          · rintro ⟨hhost, hservice, _⟩
            rcases hname with hname | hname
            · exact absurd hname hhost
            · exact absurd hname hservice
        · rw [not_or] at hname
          rw [convert_text string hname.1 hname.2, textResult_exact_iff]
          exact ⟨fun hfits => ⟨hname.1, hname.2, hfits⟩,
            fun hconvertible => hconvertible.2.2⟩
  · rintro left right ⟨hhost, hservice, hleft⟩ ⟨_, _, hright⟩
    rw [convert_text left hhost hservice, convert_text right hhost hservice,
      textResult_of_lt left hleft, textResult_of_lt right hright]
    simp
  · intro strings rest
    rw [groupGetMembers_eq]
    constructor
    · intro hmembers string hstring
      refine ⟨by decide, by decide, ?_⟩
      exact short_of_mapM_copyBytes hmembers string hstring
    · intro hfits
      apply mapM_copyBytes
      intro string hstring
      exact (hfits string hstring).2.2

/-- A host name of one letter gets two bytes. -/
theorem host_keeps_terminator :
    Place.host.convert (some [97, 0]) = .ok (some [97, 0]) ∧
      ¬ Exact (some ⟨[97], [], by decide⟩)
        (Place.host.convert (some [97, 0])) := by
  constructor
  · rfl
  · intro hexact
    have hbytes : (Except.ok (some [97, 0]) :
        Except Fault (Option (List UInt8))) = .ok (some [97]) := hexact
    simp at hbytes

/-- An environment value and a member of a group of its name. -/
theorem conversion_exact_value :
    Place.environValue.convert (some [98, 0, 7]) = .ok (some [98]) ∧
      groupGetMembers [some [98, 0, 7], none] = .ok [[98]] := by
  constructor
  · exact ((conversion_exact_iff .environValue).1
      (some ⟨[98], [7], by decide⟩)).mpr ⟨by decide, by decide, by decide⟩
  · apply ((conversion_exact_iff .member).2.2 [⟨[98], [7], by decide⟩] []).mpr
    intro string hstring
    rw [List.mem_singleton.mp hstring]
    exact ⟨by decide, by decide, by decide⟩

end UvMbt.Marshalling
