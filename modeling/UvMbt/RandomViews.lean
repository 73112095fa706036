/-
`Loop::random` on views of the arrays of a program: any number of requests at
once, whose workers write byte by byte while the loop calls the callbacks.
-/
import UvMbt.Errno
import UvMbt.GuardedRun
import Mathlib.Algebra.Group.Nat.Defs

set_option autoImplicit false

namespace UvMbt.RandomViews

open GuardedRun

/-- The arrays, and their bytes. -/
abbrev Memory := List (List UInt8)

/-- `BytesView`. -/
structure View where
  data : Nat
  start : Nat
  length : Nat
  deriving DecidableEq

/-- What `moonbit_uv_random` keeps and what it gives to `uv_random`, the bytes
that the worker has made for it, and the status libuv has reported. -/
structure Request where
  buffer : Nat
  start : Int
  length : Nat
  view : View
  produced : List UInt8
  reported : Option Int

/-- A call of a callback; a view comes with the bytes it shows then. -/
inductive Answer where
  | delivered (view : View) (bytes : List UInt8)
  | failed (error : Errno)

inductive Fault where
  | noRequest
  | outOfBounds
  deriving DecidableEq

structure State where
  memory : Memory
  requests : List Request
  log : List (Nat × Answer)

def State.start (memory : Memory) : State := ⟨memory, [], []⟩

section Code

def readAt (memory : Memory) (data index : Nat) : Option UInt8 :=
  memory[data]? >>= fun bytes => bytes[index]?

def writeAt (memory : Memory) (data : Nat) (index : Int) (byte : UInt8) :
    Except Fault Memory :=
  match memory[data]? with
  | some bytes =>
      if 0 ≤ index ∧ index < bytes.length then
        .ok (memory.set data (bytes.set index.toNat byte))
      else .error .outOfBounds
  | none => .error .outOfBounds

/-- `bytes[first:last]`. -/
def slice (memory : Memory) (data : Nat) (first last : Int32) :
    Except Fault (View × List UInt8) :=
  match memory[data]? with
  | some bytes =>
      if 0 ≤ first.toInt ∧ first.toInt ≤ last.toInt ∧
          last.toInt ≤ bytes.length then
        .ok (⟨data, first.toInt.toNat, (last.toInt - first.toInt).toNat⟩,
          (bytes.drop first.toInt.toNat).take
            (last.toInt - first.toInt).toNat)
      else .error .outOfBounds
  | none => .error .outOfBounds

/-- `Loop::random` with a status of `uv_random`. -/
def random (view : View) (status : Int) (s : State) : State :=
  if status < 0 then s
  else
    { s with requests := s.requests ++ [{
        buffer := view.data, start := view.start, length := view.length,
        view := view, produced := [], reported := none }] }

/-- The worker of a request writes its next byte. -/
def work (i : Nat) (byte : UInt8) (s : State) : Except Fault State :=
  match s.requests[i]? with
  | some request => do
      let memory ← writeAt s.memory request.buffer
        (request.start + request.produced.length) byte
      .ok { s with
        memory := memory,
        requests := s.requests.set i
          { request with produced := request.produced ++ [byte] } }
  | none => .error .noRequest

/-- `moonbit_uv_random_cb` and the `uv_random_cb` that it calls. -/
def randomCb (uvValue : Errno → Int) (i : Nat) (status : Int) (s : State) :
    Except Fault State :=
  match s.requests[i]? with
  | some request => do
      let offset := Int32.ofInt request.start
      let length := Int32.ofNat request.length
      let answer ←
        if status < 0 then .ok (.failed (Errno.ofInt uvValue status))
        else do
          let (view, bytes) ← slice s.memory request.buffer offset
            (offset + length)
          .ok (.delivered view bytes)
      .ok { s with
        requests := s.requests.set i { request with reported := some status },
        log := s.log ++ [(i, answer)] }
  | none => .error .noRequest

inductive Label where
  | random (view : View) (status : Int)
  | work (i : Nat) (byte : UInt8)
  | report (i : Nat) (status : Int)

def step (uvValue : Errno → Int) (s : State) : Label → Except Fault State
  | .random view status => .ok (random view status s)
  | .work i byte => work i byte s
  | .report i status => randomCb uvValue i status s

end Code

/-- A view of an array of the program. -/
def View.Fits (memory : Memory) (view : View) : Prop :=
  (memory[view.data]?).any (fun bytes =>
    view.start + view.length ≤ bytes.length ∧ bytes.length < 2 ^ 31) = true

instance (memory : Memory) (view : View) : Decidable (view.Fits memory) :=
  inferInstanceAs (Decidable (_ = true))

/-- libuv writes what it was asked for and no more, and reports once: success
only after all of it. -/
def Allowed (s : State) : Label → Prop
  | .random view _ => view.Fits s.memory
  | .work i _ => (s.requests[i]?).any (fun request =>
      request.reported = none ∧
        request.produced.length < request.length) = true
  | .report i status => (s.requests[i]?).any (fun request =>
      request.reported = none ∧
        (0 ≤ status → request.produced.length = request.length)) = true

instance (s : State) (label : Label) : Decidable (Allowed s label) :=
  match label with
  | .random view _ => inferInstanceAs (Decidable (view.Fits s.memory))
  | .work _ _ => inferInstanceAs (Decidable (_ = true))
  | .report _ _ => inferInstanceAs (Decidable (_ = true))

/-- The views that were asked for, one for each request. -/
def State.views (s : State) : List View := s.requests.map Request.view

/-- The view that a call asks for, unless `uv_random` refuses it. -/
def Label.asks : Label → Option View
  | .random view status => if status < 0 then none else some view
  | .work _ _ | .report _ _ => none

def State.answers (s : State) (i : Nat) : List Answer :=
  (s.log.filter fun entry => entry.1 = i).map Prod.snd

def View.Covers (view : View) (data index : Nat) : Prop :=
  view.data = data ∧ view.start ≤ index ∧ index < view.start + view.length

/-- No request but one has asked for a place. -/
def Alone (views : List View) (i data index : Nat) : Prop :=
  ∀ j view, views[j]? = some view → j ≠ i → ¬ view.Covers data index

/-- What a callback has to be told of a status: the errno of an error, or of a
success the view itself, with what the worker has made wherever nobody else
writes. -/
def Answer.Right (uvValue : Errno → Int) (views : List View) (i : Nat)
    (request : Request) (status : Int) : Answer → Prop
  | .failed error => status < 0 ∧ error = Errno.ofInt uvValue status
  | .delivered view bytes => 0 ≤ status ∧ view = request.view ∧
      request.produced.length = view.length ∧ bytes.length = view.length ∧
      ∀ index, Alone views i view.data (view.start + index) →
        bytes[index]? = request.produced[index]?

/-- What is true of a request until it is dropped. -/
structure Served (uvValue : Errno → Int) (s : State) (i : Nat)
    (request : Request) : Prop where
  buffer : request.buffer = request.view.data
  start : request.start = request.view.start
  length : request.length = request.view.length
  fits : request.view.Fits s.memory
  produced_le : request.produced.length ≤ request.view.length
  kept : ∀ index byte, request.produced[index]? = some byte →
    Alone s.views i request.view.data (request.view.start + index) →
      readAt s.memory request.view.data (request.view.start + index) = some byte
  waiting : request.reported = none → s.answers i = []
  answered : ∀ status, request.reported = some status →
    ∃ answer, s.answers i = [answer] ∧
      answer.Right uvValue s.views i request status

structure Good (uvValue : Errno → Int) (memory : Memory) (s : State) :
    Prop where
  shape : s.memory.map List.length = memory.map List.length
  served : ∀ i request, s.requests[i]? = some request →
    Served uvValue s i request
  untouched : ∀ data index,
    (∀ view ∈ s.views, ¬ view.Covers data index) →
      readAt s.memory data index = readAt memory data index
  logged : ∀ entry ∈ s.log, entry.1 < s.requests.length

section Memory

variable {memory : Memory} {data index : Nat} {view : View}

theorem View.fits_iff : view.Fits memory ↔ ∃ bytes,
    memory[view.data]? = some bytes ∧
      view.start + view.length ≤ bytes.length ∧ bytes.length < 2 ^ 31 := by
  rw [View.Fits, Option.any_eq_true]
  simp only [decide_eq_true_eq]

/-- Only the lengths of the arrays decide. -/
theorem View.Fits.of_shape {memory' : Memory} (hfits : view.Fits memory)
    (hshape : memory'.map List.length = memory.map List.length) :
    view.Fits memory' := by
  obtain ⟨bytes, hbytes, hle, hlt⟩ := View.fits_iff.mp hfits
  have hlength : (memory'.map List.length)[view.data]? = some bytes.length := by
    rw [hshape, List.getElem?_map, hbytes]
    rfl
  rw [List.getElem?_map, Option.map_eq_some_iff] at hlength
  obtain ⟨bytes', hbytes', heq⟩ := hlength
  exact View.fits_iff.mpr ⟨bytes', hbytes', heq ▸ hle, heq ▸ hlt⟩

/-- A write inside of an array changes one place. -/
theorem writeAt_spec {bytes : List UInt8} (hbytes : memory[data]? = some bytes)
    (hindex : index < bytes.length) (byte : UInt8) :
    ∃ memory', writeAt memory data index byte = .ok memory' ∧
      memory'.map List.length = memory.map List.length ∧
      readAt memory' data index = some byte ∧
      ∀ data' index', (data' = data → index' ≠ index) →
        readAt memory' data' index' = readAt memory data' index' := by
  obtain ⟨hdata, hget⟩ := List.getElem?_eq_some_iff.mp hbytes
  refine ⟨memory.set data (bytes.set index byte), ?_, ?_, ?_, ?_⟩
  · rw [writeAt, hbytes]
    exact if_pos ⟨Int.natCast_nonneg index, Int.ofNat_lt.mpr hindex⟩
  · rw [List.map_set, List.length_set]
    apply List.ext_getElem?
    intro place
    rw [List.getElem?_set]
    by_cases hplace : data = place
    · rw [if_pos hplace, ← hplace, List.getElem?_map, hbytes]
      simp [hdata]
    · rw [if_neg hplace]
  · rw [readAt, List.getElem?_set_self hdata]
    exact List.getElem?_set_self hindex
  · intro data' index' hother
    by_cases hsame : data' = data
    · rw [readAt, readAt, hsame, List.getElem?_set_self hdata, hbytes]
      exact List.getElem?_set_ne (Ne.symm (hother hsame))
    · rw [readAt, readAt, List.getElem?_set_ne (Ne.symm hsame)]

/-- A slice inside of an array is the view itself. -/
theorem slice_spec {bytes : List UInt8} (hbytes : memory[view.data]? = some bytes)
    (hle : view.start + view.length ≤ bytes.length)
    (hlt : bytes.length < 2 ^ 31) :
    slice memory view.data (Int32.ofInt view.start)
        (Int32.ofInt view.start + Int32.ofNat view.length) =
      .ok (view, (bytes.drop view.start).take view.length) := by
  have hfirst : (Int32.ofInt view.start).toInt = view.start :=
    Int32.toInt_ofInt_of_le (by omega) (by omega)
  have hlast : (Int32.ofInt view.start + Int32.ofNat view.length).toInt =
      view.start + view.length := by
    have hsum : Int32.ofInt view.start + Int32.ofNat view.length =
        Int32.ofInt (view.start + view.length : Nat) := by
      rw [Int32.ofInt_eq_ofNat, Int32.ofInt_eq_ofNat, Int32.ofNat_add]
    rw [hsum, Int32.toInt_ofInt_of_le (by omega) (by omega)]
    exact Int.natCast_add _ _
  rw [slice, hbytes, hfirst, hlast]
  have hlength : (view.start + view.length - view.start : Int).toNat =
      view.length := by omega
  rw [hlength, Int.toNat_natCast]
  exact if_pos ⟨by omega, by omega, by omega⟩

end Memory

section Views

variable {views : List View} {i data index : Nat}

theorem Alone.of_append {more : List View}
    (halone : Alone (views ++ more) i data index) :
    Alone views i data index := by
  intro j view hview
  apply halone j view
  rw [List.getElem?_append_left (List.getElem?_eq_some_iff.mp hview).1]
  exact hview

theorem Answer.Right.of_append {uvValue : Errno → Int} {request : Request}
    {status : Int} {answer : Answer} {more : List View}
    (hright : answer.Right uvValue views i request status) :
    answer.Right uvValue (views ++ more) i request status := by
  cases answer with
  | failed error => exact hright
  | delivered view bytes =>
      obtain ⟨hstatus, hview, hproduced, hbytes, hsame⟩ := hright
      exact ⟨hstatus, hview, hproduced, hbytes,
        fun index halone => hsame index halone.of_append⟩

/-- Another request cannot write where one is alone. -/
theorem Alone.ne_place {s : State} {j place : Nat} {other : Request}
    (hother : s.requests[j]? = some other) (hne : j ≠ i)
    (halone : Alone s.views i data index)
    (hplace : other.view.start ≤ place ∧
      place < other.view.start + other.view.length) :
    data = other.view.data → index ≠ place := by
  rintro rfl rfl
  refine halone j other.view ?_ hne ⟨rfl, hplace⟩
  rw [State.views, List.getElem?_map, hother]
  rfl

end Views

section Answers

variable {s : State} {i j : Nat}

theorem answers_fresh (hlogged : ∀ entry ∈ s.log, entry.1 < i) :
    s.answers i = [] := by
  rw [State.answers, List.filter_eq_nil_iff.mpr]
  · rfl
  · intro entry hentry
    rw [decide_eq_true_eq]
    exact Nat.ne_of_lt (hlogged entry hentry)

theorem answers_append_self (s : State) (requests : List Request) (i : Nat)
    (answer : Answer) :
    State.answers { s with requests := requests, log := s.log ++ [(i, answer)] }
      i = s.answers i ++ [answer] := by
  rw [State.answers, State.answers, List.filter_append, List.map_append,
    List.filter_cons_of_pos (by rw [decide_eq_true_eq])]
  rfl

theorem answers_append_ne (s : State) (requests : List Request)
    (answer : Answer) (hne : j ≠ i) :
    State.answers { s with requests := requests, log := s.log ++ [(i, answer)] }
      j = s.answers j := by
  rw [State.answers, State.answers, List.filter_append, List.map_append,
    List.filter_cons_of_neg (by
      rw [decide_eq_true_eq]
      exact Ne.symm hne)]
  exact List.append_nil _

end Answers

section Steps

variable {uvValue : Errno → Int} {memory : Memory} {s : State} {i : Nat}
  {request : Request}

theorem views_set (hrequest : s.requests[i]? = some request)
    {request' : Request} (hview : request'.view = request.view) :
    (s.requests.set i request').map Request.view = s.views := by
  rw [List.map_set, hview, State.views]
  apply List.ext_getElem?
  intro place
  rw [List.getElem?_set]
  by_cases hplace : i = place
  · rw [if_pos hplace, ← hplace, List.getElem?_map, hrequest]
    simp [(List.getElem?_eq_some_iff.mp hrequest).1]
  · rw [if_neg hplace]

theorem good_start (uvValue : Errno → Int) (memory : Memory) :
    Good uvValue memory (State.start memory) where
  shape := rfl
  served i request hrequest := by cases hrequest
  untouched data index _ := rfl
  logged entry hentry := by cases hentry

/-- A request for a view starts with nothing made and nothing answered. -/
theorem random_good (hgood : Good uvValue memory s) {view : View}
    (hfits : view.Fits s.memory) (status : Int) :
    Good uvValue memory (random view status s) := by
  rw [random]
  by_cases hstatus : status < 0
  · rw [if_pos hstatus]
    exact hgood
  rw [if_neg hstatus]
  refine ⟨hgood.shape, ?_, ?_, ?_⟩
  · intro j request hrequest
    by_cases hlt : j < s.requests.length
    · rw [List.getElem?_append_left hlt] at hrequest
      have hserved := hgood.served j request hrequest
      refine ⟨hserved.buffer, hserved.start, hserved.length, hserved.fits,
        hserved.produced_le, ?_, hserved.waiting, ?_⟩
      · intro index byte hbyte halone
        apply hserved.kept index byte hbyte
        rw [State.views, List.map_append] at halone
        exact halone.of_append
      · intro status hreported
        obtain ⟨answer, hanswer, hright⟩ := hserved.answered status hreported
        refine ⟨answer, hanswer, ?_⟩
        rw [State.views, List.map_append]
        exact hright.of_append
    · have hlast : j = s.requests.length := by
        have hlength := (List.getElem?_eq_some_iff.mp hrequest).1
        rw [List.length_append, List.length_singleton] at hlength
        omega
      rw [hlast, List.getElem?_concat_length, Option.some.injEq] at hrequest
      rw [← hrequest, hlast]
      refine ⟨rfl, rfl, rfl, hfits, Nat.zero_le _, ?_, ?_, ?_⟩
      · intro index byte hbyte
        cases hbyte
      · intro _
        exact answers_fresh hgood.logged
      · intro status hreported
        cases hreported
  · intro data index hcovers
    apply hgood.untouched data index
    intro other hother
    apply hcovers other
    rw [State.views, List.map_append]
    exact List.mem_append_left _ hother
  · intro entry hentry
    rw [List.length_append]
    exact Nat.lt_add_right _ (hgood.logged entry hentry)

/-- A byte of a worker changes its own place, where no other request is
alone. -/
theorem work_good (hgood : Good uvValue memory s)
    (hrequest : s.requests[i]? = some request)
    (hwaits : request.reported = none)
    (hmore : request.produced.length < request.length) (byte : UInt8) :
    ∃ s', work i byte s = .ok s' ∧ Good uvValue memory s' := by
  have hserved := hgood.served i request hrequest
  obtain ⟨bytes, hbytes, hle, hlt⟩ := View.fits_iff.mp hserved.fits
  rw [hserved.length] at hmore
  have hindex : request.view.start + request.produced.length < bytes.length := by
    omega
  obtain ⟨memory', hwrite, hshape, hself, hother⟩ :=
    writeAt_spec hbytes hindex byte
  have hviews : (s.requests.set i
      { request with produced := request.produced ++ [byte] }).map Request.view =
        s.views := views_set hrequest rfl
  have hi := (List.getElem?_eq_some_iff.mp hrequest).1
  refine ⟨⟨memory', s.requests.set i
    { request with produced := request.produced ++ [byte] }, s.log⟩, ?_, ?_⟩
  · rw [work]
    simp only [hrequest]
    rw [hserved.buffer, hserved.start, ← Int.natCast_add, hwrite]
    rfl
  · refine ⟨hshape.trans hgood.shape, ?_, ?_, ?_⟩
    · intro j other hget
      by_cases hj : j = i
      · rw [hj, List.getElem?_set_self hi, Option.some.injEq] at hget
        rw [hj, ← hget]
        refine ⟨hserved.buffer, hserved.start, hserved.length,
          hserved.fits.of_shape hshape, ?_, ?_, hserved.waiting, ?_⟩
        · rw [List.length_append, List.length_singleton]
          exact hmore
        · intro index found hfound halone
          rw [State.views, hviews] at halone
          by_cases hold : index < request.produced.length
          · rw [List.getElem?_append_left hold] at hfound
            have hne : request.view.start + index ≠
                request.view.start + request.produced.length := by omega
            rw [hother _ _ fun _ => hne]
            exact hserved.kept index found hfound halone
          · have hlast : index = request.produced.length := by
              have hlength := (List.getElem?_eq_some_iff.mp hfound).1
              rw [List.length_append, List.length_singleton] at hlength
              omega
            rw [hlast, List.getElem?_concat_length] at hfound
            rw [hlast, hself]
            exact hfound
        · intro status hreported
          rw [hwaits] at hreported
          cases hreported
      · rw [List.getElem?_set_ne (Ne.symm hj)] at hget
        have hserved' := hgood.served j other hget
        refine ⟨hserved'.buffer, hserved'.start, hserved'.length,
          hserved'.fits.of_shape hshape, hserved'.produced_le, ?_,
          hserved'.waiting, ?_⟩
        · intro index found hfound halone
          rw [State.views, hviews] at halone
          rw [hother _ _ (halone.ne_place hrequest (Ne.symm hj)
            ⟨Nat.le_add_right _ _, Nat.add_lt_add_left hmore _⟩)]
          exact hserved'.kept index found hfound halone
        · intro status hreported
          rw [State.views, hviews]
          exact hserved'.answered status hreported
    · intro data index hcovers
      rw [State.views, hviews] at hcovers
      rw [hother data index ?_]
      · exact hgood.untouched data index hcovers
      · rintro rfl rfl
        refine hcovers request.view ?_
          ⟨rfl, Nat.le_add_right _ _, Nat.add_lt_add_left hmore _⟩
        exact List.mem_map_of_mem (List.mem_of_getElem? hrequest)
    · intro entry hentry
      rw [List.length_set]
      exact hgood.logged entry hentry

/-- The callback of a request gets its view, which shows what was made for it
wherever it is alone. -/
theorem randomCb_good (hgood : Good uvValue memory s)
    (hrequest : s.requests[i]? = some request)
    (hwaits : request.reported = none) {status : Int}
    (hdone : 0 ≤ status → request.produced.length = request.length) :
    ∃ s', randomCb uvValue i status s = .ok s' ∧ Good uvValue memory s' := by
  have hserved := hgood.served i request hrequest
  obtain ⟨bytes, hbytes, hle, hlt⟩ := View.fits_iff.mp hserved.fits
  have hviews : (s.requests.set i
      { request with reported := some status }).map Request.view = s.views :=
    views_set hrequest rfl
  have hi := (List.getElem?_eq_some_iff.mp hrequest).1
  obtain ⟨answer, hrun, hright⟩ : ∃ answer : Answer,
      randomCb uvValue i status s = .ok { s with
        requests := s.requests.set i { request with reported := some status },
        log := s.log ++ [(i, answer)] } ∧
      answer.Right uvValue s.views i request status := by
    by_cases hstatus : status < 0
    · refine ⟨.failed (Errno.ofInt uvValue status), ?_, hstatus, rfl⟩
      rw [randomCb]
      simp only [hrequest, if_pos hstatus]
      rfl
    · refine ⟨.delivered request.view
        ((bytes.drop request.view.start).take request.view.length), ?_, ?_⟩
      · rw [randomCb]
        simp only [hrequest, if_neg hstatus]
        rw [hserved.buffer, hserved.start, hserved.length,
          slice_spec hbytes hle hlt]
        rfl
      · have hproduced := hdone (Int.not_lt.mp hstatus)
        rw [hserved.length] at hproduced
        refine ⟨Int.not_lt.mp hstatus, rfl, hproduced, ?_, ?_⟩
        · rw [List.length_take, List.length_drop]
          omega
        · intro index halone
          by_cases hlt : index < request.view.length
          · have hmade : index < request.produced.length := by
              rw [hproduced]
              exact hlt
            have hfound : request.produced[index]? =
                some request.produced[index] := List.getElem?_eq_getElem hmade
            have hread := hserved.kept index _ hfound halone
            rw [readAt, hbytes] at hread
            rw [hfound, List.getElem?_take_of_lt hlt, List.getElem?_drop]
            exact hread
          · rw [List.getElem?_eq_none, List.getElem?_eq_none]
            · rw [hproduced]
              exact Nat.not_lt.mp hlt
            · rw [List.length_take]
              exact Nat.le_trans (Nat.min_le_left _ _) (Nat.not_lt.mp hlt)
  refine ⟨_, hrun, hgood.shape, ?_, ?_, ?_⟩
  · intro j other hget
    by_cases hj : j = i
    · rw [hj, List.getElem?_set_self hi, Option.some.injEq] at hget
      rw [hj, ← hget]
      refine ⟨hserved.buffer, hserved.start, hserved.length, hserved.fits,
        hserved.produced_le, ?_, ?_, ?_⟩
      · intro index found hfound halone
        rw [State.views, hviews] at halone
        exact hserved.kept index found hfound halone
      · intro hnow
        cases hnow
      · intro found hfound
        cases hfound
        rw [answers_append_self, hserved.waiting hwaits, State.views, hviews]
        exact ⟨answer, rfl, hright⟩
    · rw [List.getElem?_set_ne (Ne.symm hj)] at hget
      have hserved' := hgood.served j other hget
      refine ⟨hserved'.buffer, hserved'.start, hserved'.length, hserved'.fits,
        hserved'.produced_le, ?_, ?_, ?_⟩
      · intro index found hfound halone
        rw [State.views, hviews] at halone
        exact hserved'.kept index found hfound halone
      · rw [answers_append_ne _ _ _ hj]
        exact hserved'.waiting
      · rw [answers_append_ne _ _ _ hj, State.views, hviews]
        exact hserved'.answered
  · intro data index hcovers
    rw [State.views, hviews] at hcovers
    exact hgood.untouched data index hcovers
  · intro entry hentry
    rw [List.length_set]
    rcases List.mem_append.mp hentry with hold | hlast
    · exact hgood.logged entry hold
    · rw [List.mem_singleton.mp hlast]
      exact hi

theorem step_good (hgood : Good uvValue memory s)
    {label : Label} (hallowed : Allowed s label) :
    ∃ s', step uvValue s label = .ok s' ∧ Good uvValue memory s' := by
  cases label with
  | random view status => exact ⟨_, rfl, random_good hgood hallowed status⟩
  | work i byte =>
      obtain ⟨request, hrequest, hmore⟩ := Option.any_eq_true .. |>.mp hallowed
      obtain ⟨hwaits, hlt⟩ := of_decide_eq_true hmore
      exact work_good hgood hrequest hwaits hlt byte
  | report i status =>
      obtain ⟨request, hrequest, hdone⟩ := Option.any_eq_true .. |>.mp hallowed
      obtain ⟨hwaits, hlength⟩ := of_decide_eq_true hdone
      exact randomCb_good hgood hrequest hwaits hlength

/-- libuv has reported a status for a request. -/
def State.Reported (s : State) (i : Nat) (status : Int) : Prop :=
  ∃ request, s.requests[i]? = some request ∧ request.reported = some status

theorem reported_set {requests : List Request}
    (hrequest : requests[i]? = some request) {request' : Request} {j : Nat}
    {status : Int} :
    (∃ found, (requests.set i request')[j]? = some found ∧
        found.reported = some status) ↔
      (j = i ∧ request'.reported = some status) ∨
        j ≠ i ∧ ∃ found, requests[j]? = some found ∧
          found.reported = some status := by
  have hi := (List.getElem?_eq_some_iff.mp hrequest).1
  by_cases hj : j = i
  · rw [hj, List.getElem?_set_self hi]
    simp
  · rw [List.getElem?_set_ne (Ne.symm hj)]
    simp [hj]

/-- Whatever it answers, a callback leaves its status behind. -/
theorem randomCb_state (hrequest : s.requests[i]? = some request)
    {status : Int} {s' : State} (hrun : randomCb uvValue i status s = .ok s') :
    s'.requests = s.requests.set i { request with reported := some status } := by
  simp only [randomCb, hrequest] at hrun
  by_cases hstatus : status < 0
  · rw [if_pos hstatus] at hrun
    cases hrun
    rfl
  · rw [if_neg hstatus] at hrun
    obtain ⟨shown, -, hrest⟩ := bind_eq_ok hrun
    cases hrest
    rfl

/-- Only a report counts as one, and it is the only one. -/
theorem step_reported {s' : State} {label : Label}
    (hallowed : Allowed s label) (hstep : step uvValue s label = .ok s')
    (j : Nat) (status : Int) :
    s'.Reported j status ↔ s.Reported j status ∨ label = .report j status := by
  cases label with
  | random view answer =>
      cases hstep
      rw [random]
      by_cases hanswer : answer < 0
      · simp [hanswer]
      · rw [if_neg hanswer]
        simp only [State.Reported, reduceCtorEq, or_false]
        constructor
        · rintro ⟨found, hfound, hreported⟩
          by_cases hlt : j < s.requests.length
          · rw [List.getElem?_append_left hlt] at hfound
            exact ⟨found, hfound, hreported⟩
          · rw [List.getElem?_append_right (Nat.not_lt.mp hlt),
              List.getElem?_singleton] at hfound
            split at hfound
            · cases hfound
              cases hreported
            · cases hfound
        · rintro ⟨found, hfound, hreported⟩
          have hlt := (List.getElem?_eq_some_iff.mp hfound).1
          rw [List.getElem?_append_left hlt]
          exact ⟨found, hfound, hreported⟩
  | work i byte =>
      obtain ⟨request, hrequest, hmore⟩ := Option.any_eq_true .. |>.mp hallowed
      have hwaits := (of_decide_eq_true hmore).1
      simp only [step, work, hrequest] at hstep
      obtain ⟨memory', -, hstate⟩ := bind_eq_ok hstep
      cases hstate
      simp only [State.Reported, reduceCtorEq, or_false]
      rw [reported_set hrequest]
      by_cases hj : j = i
      · rw [hj, hrequest]
        simp [hwaits]
      · simp [hj]
  | report i found =>
      obtain ⟨request, hrequest, hmore⟩ := Option.any_eq_true .. |>.mp hallowed
      have hwaits := (of_decide_eq_true hmore).1
      simp only [State.Reported, Label.report.injEq]
      rw [randomCb_state hrequest hstep, reported_set hrequest]
      by_cases hj : j = i
      · rw [hj, hrequest]
        simp [hwaits]
      · simp [hj, Ne.symm hj]

/-- A request records the view of its call. -/
theorem step_views {s' : State} {label : Label}
    (hstep : step uvValue s label = .ok s') :
    s'.views = s.views ++ label.asks.toList := by
  cases label with
  | random view status =>
      cases hstep
      rw [random, Label.asks]
      by_cases hstatus : status < 0
      · simp [hstatus]
      · rw [if_neg hstatus, if_neg hstatus, State.views, List.map_append]
        rfl
  | work i byte =>
      cases hrequest : s.requests[i]? with
      | none => simp [step, work, hrequest] at hstep
      | some request =>
          simp only [step, work, hrequest] at hstep
          obtain ⟨memory', -, hstate⟩ := bind_eq_ok hstep
          cases hstate
          have hviews : (s.requests.set i { request with
              produced := request.produced ++ [byte] }).map Request.view =
                s.views :=
            views_set hrequest rfl
          rw [State.views, hviews, Label.asks, Option.toList, List.append_nil]
  | report i status =>
      cases hrequest : s.requests[i]? with
      | none => simp [step, randomCb, hrequest] at hstep
      | some request =>
          have hviews : (s.requests.set i { request with
              reported := some status }).map Request.view = s.views :=
            views_set hrequest rfl
          rw [State.views, randomCb_state hrequest hstep, hviews, Label.asks,
            Option.toList, List.append_nil]

theorem run_views {labels : List Label} {s' : State}
    (hrun : run (step uvValue) s labels = .ok s') :
    s'.views = s.views ++ labels.filterMap Label.asks := by
  induction labels generalizing s with
  | nil =>
      cases hrun
      simp
  | cons label rest ih =>
      rw [run] at hrun
      cases hstep : step uvValue s label with
      | error fault => simp [hstep] at hrun
      | ok next =>
          rw [hstep] at hrun
          rw [ih hrun, step_views hstep, List.append_assoc]
          cases hasks : label.asks with
          | none => simp [hasks]
          | some view => simp [hasks]

theorem run_reported {labels : List Label} {s' : State}
    (hadmissible : Admissible Allowed (step uvValue) s labels)
    (hrun : run (step uvValue) s labels = .ok s') (j : Nat) (status : Int) :
    s'.Reported j status ↔
      s.Reported j status ∨ Label.report j status ∈ labels := by
  induction labels generalizing s with
  | nil =>
      cases hrun
      simp
  | cons label rest ih =>
      obtain ⟨hallowed, hrest⟩ := hadmissible
      rw [run] at hrun
      cases hstep : step uvValue s label with
      | error fault => simp [hstep] at hrun
      | ok next =>
          rw [hstep] at hrest hrun
          rw [ih hrest hrun, step_reported hallowed hstep, List.mem_cons,
            or_assoc, @eq_comm _ label]

end Steps

section Runs

variable {uvValue : Errno → Int} {memory : Memory} {labels : List Label}

/-- Any number of requests on views of the same arrays, in any order of their
workers' writes and of the callbacks: a request is for the view of its call;
for each report of libuv one callback runs, which gets the errno of a failure,
or else that view, and finds in it what the worker has made wherever no other
request was for the same place; and no other byte ever changes. -/
theorem random_delivers
    (hadmissible : Admissible Allowed (step uvValue) (State.start memory)
      labels) :
    ∃ s, run (step uvValue) (State.start memory) labels = .ok s ∧
      s.views = labels.filterMap Label.asks ∧
      (∀ i status, Label.report i status ∈ labels → ∃ request answer,
        s.requests[i]? = some request ∧ s.answers i = [answer] ∧
          answer.Right uvValue s.views i request status) ∧
      (∀ i request, s.requests[i]? = some request →
        (∀ status, Label.report i status ∉ labels) → s.answers i = []) ∧
      ∀ data index, (∀ view ∈ s.views, ¬ view.Covers data index) →
        readAt s.memory data index = readAt memory data index := by
  obtain ⟨s, hrun, hgood⟩ := run_safe
    (fun _ _ hgood hallowed => step_good hgood hallowed)
    (good_start uvValue memory) hadmissible
  have hreports := run_reported hadmissible hrun
  have hviews : s.views = labels.filterMap Label.asks := run_views hrun
  refine ⟨s, hrun, hviews, ?_, ?_, hgood.untouched⟩
  · intro i status hmem
    obtain ⟨request, hrequest, hreported⟩ :=
      (hreports i status).mpr (Or.inr hmem)
    obtain ⟨answer, hanswer, hright⟩ :=
      (hgood.served i request hrequest).answered status hreported
    exact ⟨request, answer, hrequest, hanswer, hright⟩
  · intro i request hrequest hnone
    apply (hgood.served i request hrequest).waiting
    cases hreported : request.reported with
    | none => rfl
    | some status =>
        rcases (hreports i status).mp ⟨request, hrequest, hreported⟩ with
          ⟨found, hfound, -⟩ | hmem
        · cases hfound
        · exact absurd hmem (hnone status)

/-- Three requests on one array of four bytes, whose workers take turns, and
the last of which is cancelled. -/
def turns : List Label :=
  [.random ⟨0, 0, 2⟩ 0, .random ⟨0, 2, 2⟩ 0, .random ⟨0, 0, 4⟩ 0, .work 1 7,
    .work 0 5, .work 0 6, .report 0 0, .work 1 8, .report 2 (-125), .report 1 0]

theorem random_delivers_turns :
    ∃ s, run (step Errno.linuxValue) (State.start [[0, 0, 0, 0]]) turns = .ok s ∧
      s.views = [⟨0, 0, 2⟩, ⟨0, 2, 2⟩, ⟨0, 0, 4⟩] ∧ ∀ i status, Label.report i status ∈ turns → ∃ request answer,
        s.requests[i]? = some request ∧ s.answers i = [answer] ∧
          answer.Right Errno.linuxValue s.views i request status := by
  have hadmissible : Admissible Allowed (step Errno.linuxValue)
      (State.start [[0, 0, 0, 0]]) turns := by decide
  obtain ⟨s, hrun, hviews, hreports, -⟩ := random_delivers hadmissible
  exact ⟨s, hrun, hviews, hreports⟩

end Runs

end UvMbt.RandomViews
