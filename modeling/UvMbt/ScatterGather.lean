/-
Views given to libuv as buffer descriptors: the three parallel arrays that the
MoonBit side makes, and the loops in C that put them together again.
-/
import UvMbt.CountedLoop
import UvMbt.UdpReceive

set_option autoImplicit false

namespace UvMbt.ScatterGather

open CountedLoop
open UdpReceive (Bytes View Buf Sockaddr)

section Code

/-- `bufs_base`, `bufs_offset` and `bufs_length`. -/
structure Parts where
  base : List Bytes
  offset : List Nat
  length : List Nat
  deriving Repr, DecidableEq

/-- The literal `[]` or `""`. -/
def noBytes : Bytes := ⟨0, 0⟩

def splitStep (bufs : List View) (i : Nat) (parts : Parts) : Option Parts := do
  let view ← bufs[i]?
  let base ← setAt parts.base i view.data
  let offset ← setAt parts.offset i view.start
  let length ← setAt parts.length i view.length
  return ⟨base, offset, length⟩

/-- The arrays as every sender makes and fills them. -/
def split (bufs : List View) : Option Parts :=
  let bufsSize := bufs.length
  loop (splitStep bufs) 0 bufsSize
    ⟨List.replicate bufsSize noBytes, List.replicate bufsSize 0,
      List.replicate bufsSize 0⟩

def bufInit (parts : Parts) (i : Nat) (bufsData : List (Option Buf)) :
    Option (List (Option Buf)) := do
  let base ← parts.base[i]?
  let offset ← parts.offset[i]?
  let length ← parts.length[i]?
  setAt bufsData i (some ⟨base.id, offset, length⟩)

/-- The `malloc` and the loop of `moonbit_uv_write` and the other stubs; a
descriptor that was not initialised is `none`. -/
def bufsData (parts : Parts) : Option (List (Option Buf)) :=
  let bufsSize := parts.base.length
  loop (bufInit parts) 0 bufsSize (List.replicate bufsSize none)

/-- What libuv gets. -/
def handOver (bufs : List View) : Option (List Buf) := do
  let parts ← split bufs
  let data ← bufsData parts
  data.mapM id

/-- `Stream::write` and `moonbit_uv_write`. -/
def write : List View → Option (List Buf) := handOver

/-- `Stream::write2` and `moonbit_uv_write2`. -/
def write2 : List View → Option (List Buf) := handOver

/-- `Udp::send` and `moonbit_uv_udp_send`. -/
def udpSend : List View → Option (List Buf) := handOver

/-- `Udp::try_send` and `moonbit_uv_udp_try_send`. -/
def udpTrySend : List View → Option (List Buf) := handOver

/-- `Loop::fs_write` and `moonbit_uv_fs_write`. -/
def fsWrite : List View → Option (List Buf) := handOver

/-- `Loop::fs_write_sync` and `moonbit_uv_fs_write_sync`. -/
def fsWriteSync : List View → Option (List Buf) := handOver

/-- `Loop::fs_read` and `moonbit_uv_fs_read`. -/
def fsRead : List View → Option (List Buf) := handOver

/-- `Loop::fs_read_sync` and `moonbit_uv_fs_read_sync`. -/
def fsReadSync : List View → Option (List Buf) := handOver

/-- The arrays of arrays of `Udp::try_send2`, and its addresses. -/
structure Parts2 where
  base : List (List Bytes)
  offset : List (List Nat)
  length : List (List Nat)
  addrs : List (Option Sockaddr)
  deriving Repr, DecidableEq

/-- `array[i][j] = value`. -/
def setAt2 {Value : Type} (values : List (List Value)) (i j : Nat)
    (value : Value) : Option (List (List Value)) := do
  let row ← values[i]?
  let row ← setAt row j value
  setAt values i row

def splitInner (bufs : List View) (i j : Nat) (parts : Parts2) :
    Option Parts2 := do
  let view ← bufs[j]?
  let base ← setAt2 parts.base i j view.data
  let offset ← setAt2 parts.offset i j view.start
  let length ← setAt2 parts.length i j view.length
  return { parts with base, offset, length }

def splitOuter (data : List (List View × Option Sockaddr)) (i : Nat)
    (parts : Parts2) : Option Parts2 := do
  let message ← data[i]?
  let parts ← loop (splitInner message.1 i) 0 message.1.length parts
  let addrs ← setAt parts.addrs i message.2
  return { parts with addrs }

def split2 (data : List (List View × Option Sockaddr)) : Option Parts2 :=
  loop (splitOuter data) 0 data.length
    ⟨data.map fun message => List.replicate message.1.length noBytes,
      data.map fun message => List.replicate message.1.length 0,
      data.map fun message => List.replicate message.1.length 0,
      List.replicate data.length none⟩

/-- The body of the outer loop of `moonbit_uv_udp_try_send2`: one message. -/
def bufsInit (parts : Parts2) (i : Nat)
    (data : List (Option (List (Option Buf)))) :
    Option (List (Option (List (Option Buf)))) := do
  let base ← parts.base[i]?
  let offset ← parts.offset[i]?
  let length ← parts.length[i]?
  let row ← bufsData ⟨base, offset, length⟩
  setAt data i (some row)

/-- `Udp::try_send2` and `moonbit_uv_udp_try_send2`: the messages and their
addresses. -/
def udpTrySend2 (data : List (List View × Option Sockaddr)) :
    Option (List (List Buf) × List (Option Sockaddr)) := do
  let parts ← split2 data
  let rows ← loop (bufsInit parts) 0 parts.base.length
    (List.replicate parts.base.length none)
  let rows ← rows.mapM id
  let messages ← rows.mapM fun row => row.mapM id
  return (messages, parts.addrs)

end Code

section Memory

/-- The bytes of every object. -/
abbrev Heap := Nat → List UInt8

/-- A view of an object of this heap. -/
def Within (heap : Heap) (view : View) : Prop :=
  (heap view.data.id).length = view.data.size

def viewBytes (heap : Heap) (view : View) : List UInt8 :=
  ((heap view.data.id).drop view.start).take view.length

/-- The places that a descriptor covers, in order. -/
def places (buf : Buf) : List (Nat × Nat) :=
  (List.range buf.len).map fun i => (buf.object, buf.offset + i)

/-- What libuv writes out of descriptors; a place outside its object has no
byte. -/
def gather (heap : Heap) (bufs : List Buf) : List (Option UInt8) :=
  (bufs.flatMap places).map fun place => (heap place.1)[place.2]?

def store (heap : Heap) (place : Nat × Nat) (byte : UInt8) : Heap :=
  fun object =>
    if object = place.1 then (heap object).set place.2 byte else heap object

/-- What libuv does to descriptors that it reads so many bytes into. -/
def scatter (heap : Heap) (bufs : List Buf) (data : List UInt8) : Heap :=
  ((bufs.flatMap places).zip data).foldl
    (fun heap write => store heap write.1 write.2) heap

end Memory

section Loops

theorem mapM_id_map_some {α : Type} (values : List α) :
    (values.map some).mapM id = some values := by
  induction values with
  | nil => rfl
  | cons value rest ih => simp [ih]

theorem map_const_eq_replicate {α β : Type} (values : List α) (value : β) :
    List.replicate values.length value = values.map fun _ => value :=
  List.map_const'.symm

theorem split_eq (bufs : List View) :
    split bufs = some ⟨bufs.map View.data, bufs.map View.start,
      bufs.map View.length⟩ := by
  have hloop := loop_eq (splitStep bufs)
    (fun i => ⟨progress View.data (fun _ => noBytes) bufs i,
      progress View.start (fun _ => 0) bufs i,
      progress View.length (fun _ => 0) bufs i⟩) bufs.length (by
    intro i hi
    have hview : bufs[i]? = some bufs[i] := List.getElem?_eq_getElem hi
    simp only [splitStep, hview, setAt_progress _ _ hview, bind, Option.bind,
      pure])
  simp only [progress_zero, progress_length] at hloop
  rw [split, map_const_eq_replicate, map_const_eq_replicate]
  exact hloop

theorem bufsData_eq (bufs : List View) :
    bufsData ⟨bufs.map View.data, bufs.map View.start,
      bufs.map View.length⟩ = some (bufs.map fun view => some view.buf) := by
  have hloop := loop_eq (bufInit ⟨bufs.map View.data, bufs.map View.start,
      bufs.map View.length⟩)
    (progress (fun view => some view.buf) (fun _ => none) bufs)
    bufs.length (by
    intro i hi
    have hview : bufs[i]? = some bufs[i] := List.getElem?_eq_getElem hi
    have hset := setAt_progress (fun view : View => some view.buf)
      (fun _ => none) hview
    simp only [bufInit, List.getElem?_map, hview, Option.map_some, bind,
      Option.bind]
    exact hset)
  rw [progress_zero, progress_length] at hloop
  simp only [bufsData, List.length_map]
  rw [map_const_eq_replicate]
  exact hloop

theorem mapM_id_bufs (bufs : List View) :
    (bufs.map fun view => some view.buf).mapM id =
      some (bufs.map View.buf) := by
  rw [← mapM_id_map_some, List.map_map]
  rfl

/-- Every sender hands over the descriptors of its views. -/
theorem handOver_eq (bufs : List View) :
    handOver bufs = some (bufs.map View.buf) := by
  simp only [handOver, split_eq, bufsData_eq, bind, Option.bind]
  exact mapM_id_bufs bufs

theorem setAt2_progress {α β : Type} (done todo : α → β) {row : List α}
    {values : List (List β)} {i j : Nat} {value : α} (hi : i < values.length)
    (hvalue : row[j]? = some value) :
    setAt2 (values.set i (progress done todo row j)) i j (done value) =
      some (values.set i (progress done todo row (j + 1))) := by
  have hrow : (values.set i (progress done todo row j))[i]? =
      some (progress done todo row j) :=
    List.getElem?_set_self hi
  have hlength : i < (values.set i (progress done todo row j)).length := by
    rw [List.length_set]
    exact hi
  simp only [setAt2, hrow, setAt_progress _ _ hvalue, bind, Option.bind]
  rw [setAt, if_pos hlength, List.set_set]

/-- The three fields after so many messages. -/
def reached2 (data : List (List View × Option Sockaddr)) (i : Nat) : Parts2 :=
  ⟨progress (fun message => message.1.map View.data)
      (fun message => message.1.map fun _ => noBytes) data i,
    progress (fun message => message.1.map View.start)
      (fun message => message.1.map fun _ => 0) data i,
    progress (fun message => message.1.map View.length)
      (fun message => message.1.map fun _ => 0) data i,
    progress Prod.snd (fun _ => none) data i⟩

section Rows

variable {β : Type} (done : View → β) (todo : β)
  {data : List (List View × Option Sockaddr)} {i : Nat}
  {message : List View × Option Sockaddr}

/-- A row that the inner loop fills is the next row of the outer one. -/
theorem set_row (hmessage : data[i]? = some message) :
    (progress (fun message => message.1.map done)
        (fun message => message.1.map fun _ => todo) data i).set i
          (progress done (fun _ => todo) message.1 message.1.length) =
      progress (fun message => message.1.map done)
        (fun message => message.1.map fun _ => todo) data (i + 1) := by
  rw [progress_length]
  exact set_progress hmessage

theorem set_row_zero (hmessage : data[i]? = some message) :
    (progress (fun message => message.1.map done)
        (fun message => message.1.map fun _ => todo) data i).set i
          (progress done (fun _ => todo) message.1 0) =
      progress (fun message => message.1.map done)
        (fun message => message.1.map fun _ => todo) data i := by
  rw [progress_zero]
  exact set_self (getElem?_progress hmessage)

end Rows

theorem splitOuter_eq (data : List (List View × Option Sockaddr)) {i : Nat}
    (hi : i < data.length) :
    splitOuter data i (reached2 data i) = some (reached2 data (i + 1)) := by
  have hmessage : data[i]? = some data[i] := List.getElem?_eq_getElem hi
  have hinner := loop_eq (splitInner data[i].1 i)
    (fun j =>
      ⟨(reached2 data i).base.set i
          (progress View.data (fun _ => noBytes) data[i].1 j),
        (reached2 data i).offset.set i
          (progress View.start (fun _ => 0) data[i].1 j),
        (reached2 data i).length.set i
          (progress View.length (fun _ => 0) data[i].1 j),
        (reached2 data i).addrs⟩) data[i].1.length (by
    intro j hj
    have hview : data[i].1[j]? = some data[i].1[j] :=
      List.getElem?_eq_getElem hj
    have hbase : i < (reached2 data i).base.length := by
      simpa [reached2, length_progress] using hi
    have hoffset : i < (reached2 data i).offset.length := by
      simpa [reached2, length_progress] using hi
    have hlength : i < (reached2 data i).length.length := by
      simpa [reached2, length_progress] using hi
    simp only [splitInner, hview, setAt2_progress _ _ hbase hview,
      setAt2_progress _ _ hoffset hview, setAt2_progress _ _ hlength hview,
      bind, Option.bind, pure])
  simp only [reached2, set_row _ _ hmessage, set_row_zero _ _ hmessage]
    at hinner
  simp only [splitOuter, hmessage, reached2, hinner,
    setAt_progress _ _ hmessage, bind, Option.bind, pure]

theorem split2_eq (data : List (List View × Option Sockaddr)) :
    split2 data = some ⟨data.map fun message => message.1.map View.data,
      data.map fun message => message.1.map View.start,
      data.map fun message => message.1.map View.length,
      data.map Prod.snd⟩ := by
  have hloop := loop_eq (splitOuter data) (reached2 data) data.length
    (fun i hi => splitOuter_eq data hi)
  simp only [reached2, progress_zero, progress_length] at hloop
  rw [split2, map_const_eq_replicate]
  simp only [map_const_eq_replicate]
  exact hloop

theorem mapM_messages (data : List (List View × Option Sockaddr)) :
    (data.map fun message => message.1.map fun view => some view.buf).mapM
        (fun row => row.mapM id) =
      some (data.map fun message => message.1.map View.buf) := by
  induction data with
  | nil => rfl
  | cons message rest ih =>
      rw [List.map_cons, List.mapM_cons, mapM_id_bufs, ih]
      rfl

/-- `try_send2` hands over the descriptors of each message's views, and the
address of each. -/
theorem udpTrySend2_eq (data : List (List View × Option Sockaddr)) :
    udpTrySend2 data =
      some (data.map fun message => message.1.map View.buf,
        data.map Prod.snd) := by
  let rows : Parts2 := ⟨data.map fun message => message.1.map View.data,
    data.map fun message => message.1.map View.start,
    data.map fun message => message.1.map View.length, data.map Prod.snd⟩
  have hloop := loop_eq (bufsInit rows)
    (progress
      (fun message => some (message.1.map fun view => some view.buf))
      (fun _ => none) data) data.length (by
    intro i hi
    have hmessage : data[i]? = some data[i] := List.getElem?_eq_getElem hi
    have hset := setAt_progress
      (fun message : List View × Option Sockaddr =>
        some (message.1.map fun view => some view.buf))
      (fun _ => none) hmessage
    simp only [bufsInit, rows, List.getElem?_map, hmessage, Option.map_some,
      bufsData_eq, bind, Option.bind]
    exact hset)
  rw [progress_zero, progress_length] at hloop
  have hrows : (data.map fun message =>
      some (message.1.map fun view => some view.buf)).mapM id =
        some (data.map fun message =>
          message.1.map fun view => some view.buf) := by
    rw [← mapM_id_map_some, List.map_map]
    rfl
  simp only [udpTrySend2, split2_eq, bind, Option.bind, List.length_map]
  rw [map_const_eq_replicate, hloop]
  simp only [hrows, mapM_messages, pure]

end Loops

section Bytes

/-- The places that a view covers, in order. -/
def viewPlaces (view : View) : List (Nat × Nat) :=
  (List.range view.length).map fun i => (view.data.id, view.start + i)

theorem mem_viewPlaces {view : View} {object index : Nat} :
    (object, index) ∈ viewPlaces view ↔
      object = view.data.id ∧ view.start ≤ index ∧
        index < view.start + view.length := by
  simp only [viewPlaces, List.mem_map, List.mem_range, Prod.mk.injEq]
  constructor
  · rintro ⟨i, hi, rfl, rfl⟩
    omega
  · rintro ⟨rfl, hlow, hhigh⟩
    exact ⟨index - view.start, by omega, rfl, by omega⟩

theorem flatMap_places (bufs : List View) :
    (bufs.map View.buf).flatMap places = bufs.flatMap viewPlaces := by
  rw [List.flatMap_map]
  rfl

theorem gather_view {heap : Heap} {view : View} (hwithin : Within heap view) :
    (viewPlaces view).map (fun place => (heap place.1)[place.2]?) =
      (viewBytes heap view).map some := by
  have hinside := view.inside
  unfold Within at hwithin
  apply List.ext_getElem?
  intro i
  by_cases hi : i < view.length
  · have hbyte : view.start + i < (heap view.data.id).length := by omega
    simp [viewPlaces, viewBytes, hi, hbyte]
  · have hplaces : (List.range view.length)[i]? = none :=
      List.getElem?_eq_none (by simpa using hi)
    simp only [viewPlaces, viewBytes, List.getElem?_map, List.getElem?_take,
      hplaces, hi, if_false, Option.map_none]

/-- The bytes handed over are those of the views, in order. -/
theorem gather_eq {heap : Heap} {bufs : List View}
    (hwithin : ∀ view ∈ bufs, Within heap view) :
    gather heap (bufs.map View.buf) =
      (bufs.flatMap (viewBytes heap)).map some := by
  rw [gather, flatMap_places]
  induction bufs with
  | nil => rfl
  | cons view rest ih =>
      rw [List.flatMap_cons, List.flatMap_cons, List.map_append,
        List.map_append, gather_view (hwithin view (by simp)), ih]
      intro other hother
      exact hwithin other (by simp [hother])

theorem length_store (heap : Heap) (place : Nat × Nat) (byte : UInt8)
    (object : Nat) :
    (store heap place byte object).length = (heap object).length := by
  unfold store
  split
  · exact List.length_set
  · rfl

theorem store_other (heap : Heap) {place : Nat × Nat} (byte : UInt8)
    {object index : Nat} (hplace : (object, index) ≠ place) :
    (store heap place byte object)[index]? = (heap object)[index]? := by
  unfold store
  split
  · next hobject =>
      subst hobject
      rw [List.getElem?_set_ne]
      rintro rfl
      exact hplace rfl
  · rfl

theorem store_self (heap : Heap) (place : Nat × Nat) (byte : UInt8)
    (hinside : place.2 < (heap place.1).length) :
    (store heap place byte place.1)[place.2]? = some byte := by
  rw [store, if_pos rfl, List.getElem?_set_self hinside]

/-- What the stores of a list of writes leave alone, and what they set. -/
theorem fold_store (writes : List ((Nat × Nat) × UInt8)) (heap : Heap) :
    let after := writes.foldl
      (fun heap write => store heap write.1 write.2) heap
    (∀ object, (after object).length = (heap object).length) ∧
    (∀ object index, (object, index) ∉ writes.map Prod.fst →
      (after object)[index]? = (heap object)[index]?) ∧
    ∀ before place byte later, writes = before ++ (place, byte) :: later →
      place ∉ later.map Prod.fst → place.2 < (heap place.1).length →
      (after place.1)[place.2]? = some byte := by
  induction writes generalizing heap with
  | nil =>
      refine ⟨fun _ => rfl, fun _ _ _ => rfl, ?_⟩
      intro before place byte later hwrites
      simp at hwrites
  | cons write rest ih =>
      rcases ih (store heap write.1 write.2) with ⟨hlength, hother, hset⟩
      refine ⟨?_, ?_, ?_⟩
      · intro object
        rw [List.foldl_cons, hlength, length_store]
      · intro object index hnot
        rw [List.map_cons, List.mem_cons, not_or] at hnot
        rw [List.foldl_cons, hother object index hnot.2,
          store_other heap write.2 hnot.1]
      · intro before place byte later hwrites hlast hinside
        rw [List.foldl_cons]
        cases before with
        | nil =>
            rw [List.nil_append, List.cons.injEq] at hwrites
            rcases hwrites with ⟨rfl, rfl⟩
            rw [hother place.1 place.2 hlast, store_self heap place byte hinside]
        | cons first before =>
            rw [List.cons_append, List.cons.injEq] at hwrites
            apply hset before place byte later hwrites.2 hlast
            rw [length_store]
            exact hinside

theorem map_fst_zip_take {α β : Type} (left : List α) (right : List β) :
    (left.zip right).map Prod.fst = left.take right.length := by
  induction left generalizing right with
  | nil => simp
  | cons value rest ih =>
      cases right with
      | nil => rfl
      | cons first others => simp [ih]

/-- A place of a view lies in its object. -/
theorem place_inside {heap : Heap} {bufs : List View}
    (hwithin : ∀ view ∈ bufs, Within heap view) {place : Nat × Nat}
    (hplace : place ∈ bufs.flatMap viewPlaces) :
    place.2 < (heap place.1).length := by
  rcases List.mem_flatMap.mp hplace with ⟨view, hview, hmem⟩
  rcases mem_viewPlaces.mp hmem with ⟨hobject, _, hhigh⟩
  have hlength := hwithin view hview
  have hinside := view.inside
  unfold Within at hlength
  rw [hobject, hlength]
  omega

end Bytes

/-- The functions that write, or send, what views hold. -/
def senders : List (List View → Option (List Buf)) :=
  [write, write2, udpSend, udpTrySend, fsWrite, fsWriteSync]

/-- The functions that read into views. -/
def readers : List (List View → Option (List Buf)) := [fsRead, fsReadSync]

theorem sender_eq {send : List View → Option (List Buf)}
    (hsend : send ∈ senders ++ readers) (bufs : List View) :
    send bufs = some (bufs.map View.buf) := by
  have hall : ∀ other ∈ senders ++ readers, other = handOver := by
    intro other hother
    simpa [senders, readers, write, write2, udpSend, udpTrySend, fsWrite,
      fsWriteSync, fsRead, fsReadSync] using hother
  rw [hall send hsend]
  exact handOver_eq bufs

/-- What is sent is the concatenation of the views, for `try_send2` of each
message; and a read changes the places of the views, in order and up to its
count, and no other. -/
theorem scatter_gather (heap : Heap) :
    (∀ send ∈ senders, ∀ bufs : List View,
      (∀ view ∈ bufs, Within heap view) →
      ∃ handed, send bufs = some handed ∧
        gather heap handed = (bufs.flatMap (viewBytes heap)).map some) ∧
    (∀ data : List (List View × Option Sockaddr),
      (∀ message ∈ data, ∀ view ∈ message.1, Within heap view) →
      ∃ handed, udpTrySend2 data = some (handed, data.map Prod.snd) ∧
        handed.map (gather heap) =
          data.map fun message =>
            (message.1.flatMap (viewBytes heap)).map some) ∧
    ∀ receive ∈ readers, ∀ bufs : List View,
      (∀ view ∈ bufs, Within heap view) →
      ∃ handed, receive bufs = some handed ∧
        ∀ data : List UInt8,
          data.length ≤ (bufs.flatMap viewPlaces).length →
          (∀ object, (scatter heap handed data object).length =
            (heap object).length) ∧
          (∀ object index,
            (object, index) ∉ (bufs.flatMap viewPlaces).take data.length →
            (scatter heap handed data object)[index]? =
              (heap object)[index]?) ∧
          ∀ before place byte later,
            ((bufs.flatMap viewPlaces).zip data) =
              before ++ (place, byte) :: later →
            place ∉ later.map Prod.fst →
            (scatter heap handed data place.1)[place.2]? = some byte := by
  refine ⟨?_, ?_, ?_⟩
  · intro send hsend bufs hwithin
    exact ⟨_, sender_eq (by simp [hsend]) bufs, gather_eq hwithin⟩
  · intro data hwithin
    refine ⟨_, udpTrySend2_eq data, ?_⟩
    rw [List.map_map]
    apply List.map_congr_left
    intro message hmessage
    exact gather_eq (hwithin message hmessage)
  · intro receive hreceive bufs hwithin
    refine ⟨_, sender_eq (by simp [hreceive]) bufs, ?_⟩
    intro data hdata
    rcases fold_store ((bufs.flatMap viewPlaces).zip data) heap with
      ⟨hlength, hother, hset⟩
    rw [map_fst_zip_take] at hother
    rw [scatter, flatMap_places]
    refine ⟨hlength, hother, ?_⟩
    intro before place byte later hwrites hlast
    apply hset before place byte later hwrites hlast
    apply place_inside hwithin
    have hmem : (place, byte) ∈ (bufs.flatMap viewPlaces).zip data := by
      rw [hwrites]
      simp
    exact (List.of_mem_zip hmem).1

/-- Two views of one object, the second inside the first. -/
theorem scatter_gather_overlap :
    let heap : Heap := fun _ => [1, 2, 3, 4]
    let bufs : List View :=
      [⟨⟨1, 4⟩, 1, 3, by decide, by decide⟩,
        ⟨⟨1, 4⟩, 2, 1, by decide, by decide⟩]
    ∃ handed, write bufs = some handed ∧
      gather heap handed = [some 2, some 3, some 4, some 3] := by
  intro heap bufs
  have hwithin : ∀ view ∈ bufs, Within heap view := by
    intro view hview
    simp only [bufs, List.mem_cons, List.not_mem_nil, or_false] at hview
    rcases hview with rfl | rfl <;> rfl
  rcases (scatter_gather heap).1 write (by simp [senders]) bufs hwithin with
    ⟨handed, hhanded, hgather⟩
  exact ⟨handed, hhanded, hgather⟩

end UvMbt.ScatterGather
