/-
`Loop::fs_readdir` of fs.mbt on one `Dir`.  The result array is not in the
request but in the shared directory object: each call replaces it, each worker
fills what it finds there, and each completion resets it.
-/
import Mathlib.Data.List.Perm.Basic
import UvMbt.Fs
import UvMbt.GuardedRun

set_option autoImplicit false

namespace UvMbt

/-- An array made by `moonbit_uv_dirent_make`; a slot without an entry has a
NULL name. -/
structure DirentArray where
  slots : List (Option Dirent)
  deleted : Bool
  deriving Repr, DecidableEq

/-- Where a request stands: waiting for a worker, finished by a worker with
`req->result`, or past its callback with what the callback was given. -/
inductive ReaddirPhase where
  | queued
  | worked (result : Int)
  | completed (result : Int) (outcome : Except Int (List Dirent))
  deriving Repr, DecidableEq

/-- A `fs_readdir` request with the array its callback captured and the
entries its own libuv call read. -/
structure ReaddirCall where
  uvDirents : Nat
  phase : ReaddirPhase
  produced : List Dirent
  deriving Repr, DecidableEq

/-- A `uv_dir_t`, the entries the system has still to list, the arrays made
for it and the requests on it. -/
structure Dir where
  stream : List Dirent
  dirents : Option Nat
  nentries : Nat
  arrays : List DirentArray
  calls : List ReaddirCall
  deriving Repr, DecidableEq

inductive DirFault where
  | nullPointer
  | useAfterFree
  | outOfBounds
  deriving Repr, DecidableEq

/-- What can happen on a `Dir`: a call with the status libuv gives it, a
worker that reads `count` entries or fails, and a completion on the loop. -/
inductive DirLabel where
  | fsReaddir (n : Int) (status : Int)
  | work (call : Nat) (count : Nat)
  | workError (call : Nat) (error : Int)
  | complete (call : Nat)
  deriving Repr, DecidableEq

namespace Dir

/-- The directory as `moonbit_uv_fs_get_dir` leaves it. -/
def opened (entries : List Dirent) : Dir where
  stream := entries
  dirents := none
  nentries := 0
  arrays := []
  calls := []

/-- `moonbit_uv_dir_set`. -/
def dirSet (self : Dir) (dirents : Option Nat) (nentries : Nat) : Dir :=
  { self with dirents, nentries }

def setPhase (self : Dir) (index : Nat) (phase : ReaddirPhase)
    (produced : List Dirent) : Dir :=
  { self with
    calls := self.calls.modify index
      (fun call => { call with phase, produced }) }

/-- An access to an array: it must be allocated and not yet deleted. -/
def array (self : Dir) (index : Nat) : Except DirFault DirentArray :=
  match self.arrays[index]? with
  | none => .error .outOfBounds
  | some array => if array.deleted then .error .useAfterFree else .ok array

def setArray (self : Dir) (index : Nat) (array : DirentArray) : Dir :=
  { self with arrays := self.arrays.set index array }

/-- `moonbit_uv_dirent_make` and the rest of `fs_readdir` up to its return.
The size of a negative `n` wraps to one no allocation satisfies, and the NULL
is cleared.  A call that raises leaves its array where it is. -/
def fsReaddir (self : Dir) (n status : Int) : Except DirFault Dir :=
  if n < 0 then .error .nullPointer
  else
    let uvDirents := self.arrays.length
    let made := { self with
      arrays := self.arrays ++
        [DirentArray.mk (List.replicate n.toNat none) false] }
    let set := made.dirSet (some uvDirents) n.toNat
    if status < 0 then .ok set
    else .ok { set with
      calls := set.calls ++ [ReaddirCall.mk uvDirents .queued []] }

/-- The worker of `uv_fs_readdir` writes to the array it finds in the
directory. -/
def work (self : Dir) (call count : Nat) : Except DirFault Dir :=
  let produced := self.stream.take count
  let rest := { self with stream := self.stream.drop count }
  match self.dirents with
  | none =>
      if count = 0 then .ok (rest.setPhase call (.worked count) produced)
      else .error .nullPointer
  | some target => do
      let array ← self.array target
      let slots := produced.map some ++ array.slots.drop count
      return (rest.setArray target { array with slots }).setPhase call
        (.worked count) produced

/-- A worker that fails reads nothing. -/
def workError (self : Dir) (call : Nat) (error : Int) : Dir :=
  self.setPhase call (.worked error) []

/-- `uv_fs_req_cleanup` frees the first `result` names of the array in the
directory. -/
def reqCleanup (self : Dir) (result : Int) : Except DirFault Dir :=
  match self.dirents with
  | none => .ok self
  | some target =>
      if result ≤ 0 then .ok self
      else do
        let array ← self.array target
        if array.slots.length < result.toNat then .error .outOfBounds
        else
          let slots := List.replicate result.toNat none ++
            array.slots.drop result.toNat
          return self.setArray target { array with slots }

/-- `moonbit_uv_dirent_delete`. -/
def direntDelete (self : Dir) (index : Nat) : Except DirFault Dir := do
  let array ← self.array index
  return self.setArray index { array with deleted := true }

/-- The loop that loads `uv_dirents[0..status]`: reading a NULL name faults. -/
def loadDirents (slots : List (Option Dirent)) :
    Nat → Except DirFault (List Dirent)
  | 0 => .ok []
  | count + 1 =>
      match slots with
      | [] => .error .outOfBounds
      | none :: _ => .error .nullPointer
      | some dirent :: rest => do
          let dirents ← loadDirents rest count
          return dirent :: dirents

/-- What the callback does after the entries are loaded: clean up, reset the
directory, delete the captured array, report. -/
def finish (self : Dir) (index : Nat) (call : ReaddirCall) (result : Int)
    (outcome : Except Int (List Dirent)) : Except DirFault Dir := do
  let cleaned ← self.reqCleanup result
  let deleted ← (cleaned.dirSet none 0).direntDelete call.uvDirents
  return deleted.setPhase index (.completed result outcome) call.produced

/-- The callback of a request. -/
def complete (self : Dir) (index : Nat) : Except DirFault Dir :=
  match self.calls[index]? with
  | some call =>
      match call.phase with
      | .worked result =>
          if result < 0 then self.finish index call result (.error result)
          else do
            let array ← self.array call.uvDirents
            let dirents ← loadDirents array.slots result.toNat
            self.finish index call result (.ok dirents)
      | _ => .ok self
  | none => .ok self

def step (self : Dir) : DirLabel → Except DirFault Dir
  | .fsReaddir n status => self.fsReaddir n status
  | .work call count => self.work call count
  | .workError call error => .ok (self.workError call error)
  | .complete call => self.complete call

/-- The phase of a request. -/
def phase? (self : Dir) (index : Nat) : Option ReaddirPhase :=
  self.calls[index]?.map ReaddirCall.phase

/-- What libuv promises: a worker takes a queued request and reads no more
entries than the directory asks for; a completion comes after its worker. -/
def Delivers (self : Dir) : DirLabel → Prop
  | .fsReaddir _ _ => True
  | .work call count =>
      self.phase? call = some .queued ∧ count ≤ self.nentries ∧
        count ≤ self.stream.length
  | .workError call error =>
      self.phase? call = some .queued ∧ error < 0
  | .complete call => ∃ result, self.phase? call = some (.worked result)

instance (d : Dir) : DecidablePred d.Delivers := fun label =>
  match label with
  | .fsReaddir _ _ => isTrue trivial
  | .work _ _ => inferInstanceAs (Decidable (_ ∧ _ ∧ _))
  | .workError _ _ => inferInstanceAs (Decidable (_ ∧ _))
  | .complete call =>
      match hphase : d.phase? call with
      | some (.worked result) => isTrue ⟨result, hphase⟩
      | some .queued => isFalse (by simp [Delivers, hphase])
      | some (.completed _ _) => isFalse (by simp [Delivers, hphase])
      | none => isFalse (by simp [Delivers, hphase])

end Dir

/-- A request that is past its callback. -/
def ReaddirCall.Completed (call : ReaddirCall) : Prop :=
  ∃ result outcome, call.phase = .completed result outcome

instance : DecidablePred ReaddirCall.Completed := fun call =>
  match hphase : call.phase with
  | .completed result outcome => isTrue ⟨result, outcome, hphase⟩
  | .queued => isFalse (by simp [ReaddirCall.Completed, hphase])
  | .worked _ => isFalse (by simp [ReaddirCall.Completed, hphase])

/-- A callback got what its own libuv call produced. -/
def ReaddirCall.Faithful (call : ReaddirCall) : Prop :=
  ∀ result outcome, call.phase = .completed result outcome →
    outcome = if result < 0 then .error result else .ok call.produced

namespace Dir

/-- What the requests on a `Dir` opened on `entries` are meant to do: every
callback gets its own entries, no entry is lost or read twice, every array
belongs to a request and is deleted exactly when that is completed, and the
array libuv may write to is not deleted. -/
structure Sound (entries : List Dirent) (dir : Dir) : Prop where
  faithful : ∀ call ∈ dir.calls, call.Faithful
  partitioned : ((dir.calls.flatMap ReaddirCall.produced) ++ dir.stream).Perm
    entries
  released : ∀ index array, dir.arrays[index]? = some array →
    ∃ call ∈ dir.calls, call.uvDirents = index ∧
      (array.deleted = true ↔ call.Completed)
  writable : ∀ index array, dir.dirents = some index →
    dir.arrays[index]? = some array → array.deleted = false

/-- The condition on a step: a call is made with a size that can be allocated
while no other request on the directory is pending, and libuv takes it. -/
def Alone (self : Dir) : DirLabel → Prop
  | .fsReaddir n status =>
      0 ≤ n ∧ 0 ≤ status ∧ ∀ call ∈ self.calls, call.Completed
  | _ => True

instance (d : Dir) : DecidablePred d.Alone := fun label =>
  match label with
  | .fsReaddir n status =>
      inferInstanceAs (Decidable (0 ≤ n ∧ 0 ≤ status ∧
        ∀ call ∈ d.calls, call.Completed))
  | .work _ _ | .workError _ _ | .complete _ => isTrue trivial

/-- The requests and arrays once every request is completed. -/
structure Settled (entries stream : List Dirent) (arrays : List DirentArray)
    (calls : List ReaddirCall) : Prop where
  length_eq : arrays.length = calls.length
  completed : ∀ call ∈ calls, call.Completed
  faithful : ∀ call ∈ calls, call.Faithful
  deleted : ∀ array ∈ arrays, array.deleted = true
  owned : ∀ index (call : ReaddirCall), calls[index]? = some call →
    call.uvDirents = index
  partitioned : (calls.flatMap ReaddirCall.produced ++ stream).Perm entries

/-- The three shapes a run of calls made one after the other goes through. -/
inductive Sequential (entries : List Dirent) : Dir → Prop
  | idle {stream : List Dirent} {arrays : List DirentArray}
      {calls : List ReaddirCall}
      (hsettled : Settled entries stream arrays calls) :
      Sequential entries ⟨stream, none, 0, arrays, calls⟩
  | queued {stream : List Dirent} {arrays : List DirentArray}
      {calls : List ReaddirCall} (n : Nat)
      (hsettled : Settled entries stream arrays calls) :
      Sequential entries ⟨stream, some arrays.length, n,
        arrays ++ [⟨List.replicate n none, false⟩],
        calls ++ [⟨arrays.length, .queued, []⟩]⟩
  | worked {stream : List Dirent} {arrays : List DirentArray}
      {calls : List ReaddirCall} (n : Nat) (result : Int)
      (produced : List Dirent) (rest : List (Option Dirent))
      (hsettled : Settled entries (produced ++ stream) arrays calls)
      (hresult : result < 0 ∧ produced = [] ∨ result = produced.length) :
      Sequential entries ⟨stream, some arrays.length, n,
        arrays ++ [⟨produced.map some ++ rest, false⟩],
        calls ++ [⟨arrays.length, .worked result, produced⟩]⟩

private theorem modify_length_append {α : Type} (xs : List α) (x : α)
    (f : α → α) : (xs ++ [x]).modify xs.length f = xs ++ [f x] := by
  induction xs with
  | nil => rfl
  | cons head tail ih => simp [ih]

section Steps

variable {entries stream : List Dirent} {arrays : List DirentArray}
  {calls : List ReaddirCall}

/-- Among completed requests no phase is short of completion. -/
theorem Settled.not_pending
    (hsettled : Settled entries stream arrays calls) {index : Nat}
    {phase : ReaddirPhase}
    (hphase : calls[index]?.map ReaddirCall.phase = some phase)
    (hpending : ∀ result outcome, phase ≠ .completed result outcome) :
    False := by
  obtain ⟨call, hcall, hphase⟩ := Option.map_eq_some_iff.mp hphase
  obtain ⟨result, outcome, hcompleted⟩ :=
    hsettled.completed call (List.mem_of_getElem? hcall)
  exact hpending result outcome (hphase ▸ hcompleted)

/-- After completed requests, a phase short of completion is that of the one
request that follows them. -/
theorem Settled.pending_last
    (hsettled : Settled entries stream arrays calls) {last : ReaddirCall}
    {index : Nat} {phase : ReaddirPhase}
    (hphase : (calls ++ [last])[index]?.map ReaddirCall.phase = some phase)
    (hpending : ∀ result outcome, phase ≠ .completed result outcome) :
    index = arrays.length ∧ last.phase = phase := by
  rw [hsettled.length_eq]
  by_cases hindex : index < calls.length
  · rw [List.getElem?_append_left hindex] at hphase
    exact (hsettled.not_pending hphase hpending).elim
  · rw [List.getElem?_append_right (Nat.not_lt.mp hindex)] at hphase
    obtain ⟨call, hcall, hphase⟩ := Option.map_eq_some_iff.mp hphase
    have hzero : index - calls.length = 0 := by
      by_contra hpos
      rw [List.getElem?_eq_none (by simp; omega)] at hcall
      cases hcall
    rw [hzero] at hcall
    simp only [List.getElem?_cons_zero, Option.some.injEq] at hcall
    subst hcall
    exact ⟨by omega, hphase⟩

theorem not_all_completed {last : ReaddirCall}
    (hpending : ¬last.Completed) :
    ¬∀ call ∈ calls ++ [last], call.Completed := by
  intro hall
  exact hpending (hall last (by simp))

/-- A call made on its own is taken and queued. -/
theorem Sequential.fsReaddir_idle
    (hsettled : Settled entries stream arrays calls) {n status : Int}
    (hn : 0 ≤ n) (hstatus : 0 ≤ status) :
    ∃ next, fsReaddir ⟨stream, none, 0, arrays, calls⟩ n status = .ok next ∧
      Sequential entries next := by
  refine ⟨_, ?_, Sequential.queued n.toNat hsettled⟩
  simp only [fsReaddir, dirSet, if_neg (Int.not_lt.mpr hn),
    if_neg (Int.not_lt.mpr hstatus)]

section Last

variable {dirents : Option Nat} {n : Nat} {slots : List (Option Dirent)}
  {last : ReaddirCall}

@[simp] theorem array_last :
    array ⟨stream, dirents, n, arrays ++ [⟨slots, false⟩], calls⟩
      arrays.length = .ok ⟨slots, false⟩ := by
  simp [array]

@[simp] theorem setArray_last (old new : DirentArray) :
    setArray ⟨stream, dirents, n, arrays ++ [old], calls⟩ arrays.length new =
      ⟨stream, dirents, n, arrays ++ [new], calls⟩ := by
  simp [setArray]

theorem setPhase_last (hlength : arrays.length = calls.length)
    (arrays' : List DirentArray) (phase : ReaddirPhase)
    (produced : List Dirent) :
    setPhase ⟨stream, dirents, n, arrays', calls ++ [last]⟩ arrays.length
        phase produced =
      ⟨stream, dirents, n, arrays',
        calls ++ [{ last with phase, produced }]⟩ := by
  rw [hlength, setPhase]
  simp only [modify_length_append]

theorem direntDelete_last :
    direntDelete ⟨stream, dirents, n, arrays ++ [⟨slots, false⟩], calls⟩
      arrays.length =
        .ok ⟨stream, dirents, n, arrays ++ [⟨slots, true⟩], calls⟩ := by
  rw [direntDelete, array_last]
  exact congrArg Except.ok (setArray_last _ _)

theorem reqCleanup_last (stream : List Dirent) (arrays : List DirentArray)
    (calls : List ReaddirCall) (n : Nat) {result : Int}
    (hslots : result.toNat ≤ slots.length) :
    ∃ slots', reqCleanup
        ⟨stream, some arrays.length, n, arrays ++ [⟨slots, false⟩], calls⟩
          result =
      .ok ⟨stream, some arrays.length, n, arrays ++ [⟨slots', false⟩],
        calls⟩ := by
  by_cases hpos : result ≤ 0
  · exact ⟨slots, by simp [reqCleanup, hpos]⟩
  · refine ⟨List.replicate result.toNat none ++ slots.drop result.toNat, ?_⟩
    simp only [reqCleanup, if_neg hpos, array_last]
    change (if slots.length < result.toNat then _ else _) = _
    rw [if_neg (Nat.not_lt.mpr hslots)]
    exact congrArg Except.ok (setArray_last _ _)

end Last

/-- Its worker fills the array the call made. -/
theorem Sequential.work_queued {n count : Nat}
    (hsettled : Settled entries stream arrays calls)
    (hstream : count ≤ stream.length) :
    ∃ next,
      work ⟨stream, some arrays.length, n,
        arrays ++ [⟨List.replicate n none, false⟩],
        calls ++ [⟨arrays.length, .queued, []⟩]⟩ arrays.length count =
          .ok next ∧ Sequential entries next := by
  have hsettled' : Settled entries (stream.take count ++ stream.drop count)
      arrays calls := by
    rwa [List.take_append_drop]
  refine ⟨_, ?_, Sequential.worked n count (stream.take count)
    ((List.replicate n none).drop count) hsettled'
    (Or.inr (by simp [hstream]))⟩
  simp only [work, array_last]
  change Except.ok (setPhase (setArray _ _ _) _ _ _) = _
  rw [setArray_last, setPhase_last hsettled.length_eq]

theorem Sequential.workError_queued {n : Nat} {error : Int}
    (hsettled : Settled entries stream arrays calls) (herror : error < 0) :
    Sequential entries
      (workError ⟨stream, some arrays.length, n,
        arrays ++ [⟨List.replicate n none, false⟩],
        calls ++ [⟨arrays.length, .queued, []⟩]⟩ arrays.length error) := by
  rw [workError, setPhase_last hsettled.length_eq]
  exact Sequential.worked n error [] (List.replicate n none) hsettled
    (Or.inl ⟨herror, rfl⟩)

theorem loadDirents_append (produced : List Dirent)
    (rest : List (Option Dirent)) :
    loadDirents (produced.map some ++ rest) produced.length =
      .ok produced := by
  induction produced with
  | nil => simp [loadDirents]
  | cons head tail ih =>
      simp only [List.map_cons, List.cons_append, List.length_cons,
        loadDirents, ih]
      rfl

/-- The requests once the last one is completed as well. -/
theorem Settled.append {produced : List Dirent}
    {outcome : Except Int (List Dirent)} (slots : List (Option Dirent))
    (result : Int)
    (hsettled : Settled entries (produced ++ stream) arrays calls)
    (houtcome : outcome = if result < 0 then .error result else .ok produced) :
    Settled entries stream (arrays ++ [⟨slots, true⟩])
      (calls ++ [⟨arrays.length, .completed result outcome, produced⟩]) where
  length_eq := by simp [hsettled.length_eq]
  completed := by
    intro call hcall
    rcases List.mem_append.mp hcall with hcall | hcall
    · exact hsettled.completed call hcall
    · rw [List.mem_singleton.mp hcall]
      exact ⟨result, outcome, rfl⟩
  faithful := by
    intro call hcall
    rcases List.mem_append.mp hcall with hcall | hcall
    · exact hsettled.faithful call hcall
    · rw [List.mem_singleton.mp hcall]
      intro result' outcome' hphase
      cases hphase
      exact houtcome
  deleted := by
    intro array harray
    rcases List.mem_append.mp harray with harray | harray
    · exact hsettled.deleted array harray
    · rw [List.mem_singleton.mp harray]
  owned := by
    intro index call hcall
    by_cases hindex : index < calls.length
    · rw [List.getElem?_append_left hindex] at hcall
      exact hsettled.owned index call hcall
    · have hlt : index < (calls ++ [_]).length :=
        (List.getElem?_eq_some_iff.mp hcall).1
      have heq : index = calls.length := by
        simp only [List.length_append, List.length_singleton] at hlt
        omega
      subst heq
      rw [List.getElem?_concat_length] at hcall
      cases hcall
      exact hsettled.length_eq
  partitioned := by
    have h := hsettled.partitioned
    simpa [List.flatMap_append, List.append_assoc] using h

/-- The end of the callback of the last request: its names are freed, its
array is deleted, the directory is reset. -/
theorem finish_last (stream : List Dirent) (n : Nat) {last : ReaddirCall}
    {slots : List (Option Dirent)} {result : Int}
    (outcome : Except Int (List Dirent))
    (hlength : arrays.length = calls.length)
    (hlast : last.uvDirents = arrays.length)
    (hslots : result.toNat ≤ slots.length) :
    ∃ slots' : List (Option Dirent),
      finish ⟨stream, some arrays.length, n, arrays ++ [⟨slots, false⟩],
          calls ++ [last]⟩ arrays.length last result outcome =
        .ok ⟨stream, none, 0, arrays ++ [⟨slots', true⟩],
          calls ++ [{ last with phase := .completed result outcome }]⟩ := by
  obtain ⟨slots', hcleanup⟩ :=
    reqCleanup_last stream arrays (calls ++ [last]) n hslots
  refine ⟨slots', ?_⟩
  rw [finish, hcleanup]
  change (direntDelete ⟨stream, none, 0, _, _⟩ last.uvDirents).bind _ = _
  rw [hlast, direntDelete_last]
  change Except.ok (setPhase _ _ _ _) = _
  rw [setPhase_last hlength, hlast]

/-- Its completion reads, cleans up and deletes that array. -/
theorem Sequential.complete_worked {n : Nat} {result : Int}
    {produced : List Dirent} {rest : List (Option Dirent)}
    (hsettled : Settled entries (produced ++ stream) arrays calls)
    (hresult : result < 0 ∧ produced = [] ∨ result = produced.length) :
    ∃ next,
      complete ⟨stream, some arrays.length, n,
        arrays ++ [⟨produced.map some ++ rest, false⟩],
        calls ++ [⟨arrays.length, .worked result, produced⟩]⟩
        arrays.length = .ok next ∧ Sequential entries next := by
  have hlast : (calls ++
      [ReaddirCall.mk arrays.length (.worked result) produced])[
        arrays.length]? = some ⟨arrays.length, .worked result, produced⟩ := by
    rw [hsettled.length_eq]
    exact List.getElem?_concat_length
  have hslots : result.toNat ≤ (produced.map some ++ rest).length := by
    rcases hresult with ⟨hneg, _⟩ | rfl
    · omega
    · simp
  have howner : (ReaddirCall.mk arrays.length (.worked result)
      produced).uvDirents = arrays.length := rfl
  obtain ⟨slots, hfinish⟩ := finish_last stream n
    (if result < 0 then .error result else .ok produced)
    hsettled.length_eq howner hslots
  refine ⟨_, ?_, Sequential.idle (hsettled.append slots result rfl)⟩
  simp only [complete, hlast]
  rcases hresult with ⟨hneg, rfl⟩ | rfl
  · simp only [if_pos hneg] at hfinish ⊢
    exact hfinish
  · have hpos : ¬(produced.length : Int) < 0 := by omega
    simp only [if_neg hpos, array_last, Int.toNat_natCast] at hfinish ⊢
    change ((loadDirents (produced.map some ++ rest) produced.length).bind
      _) = _
    rw [loadDirents_append]
    exact hfinish

/-- What one allowed step does to the three shapes. -/
theorem Sequential.step {d : Dir} {label : DirLabel}
    (hshape : Sequential entries d) (hdelivers : d.Delivers label)
    (halone : d.Alone label) :
    ∃ next, d.step label = .ok next ∧ Sequential entries next := by
  cases hshape with
  | idle hsettled =>
      cases label with
      | fsReaddir n status =>
          exact Sequential.fsReaddir_idle hsettled halone.1 halone.2.1
      | work call count =>
          exact (hsettled.not_pending hdelivers.1 (by simp)).elim
      | workError call error =>
          exact (hsettled.not_pending hdelivers.1 (by simp)).elim
      | complete call =>
          obtain ⟨result, hphase⟩ := hdelivers
          exact (hsettled.not_pending hphase (by simp)).elim
  | queued n hsettled =>
      cases label with
      | fsReaddir m status =>
          refine (not_all_completed ?_ halone.2.2).elim
          simp [ReaddirCall.Completed]
      | work call count =>
          obtain ⟨hphase, _, hstream⟩ := hdelivers
          obtain ⟨rfl, _⟩ := hsettled.pending_last hphase (by simp)
          exact Sequential.work_queued hsettled hstream
      | workError call error =>
          obtain ⟨hphase, herror⟩ := hdelivers
          obtain ⟨rfl, _⟩ := hsettled.pending_last hphase (by simp)
          exact ⟨_, rfl, Sequential.workError_queued hsettled herror⟩
      | complete call =>
          obtain ⟨result, hphase⟩ := hdelivers
          obtain ⟨_, hlast⟩ := hsettled.pending_last hphase (by simp)
          cases hlast
  | worked n result produced rest hsettled hresult =>
      cases label with
      | fsReaddir m status =>
          refine (not_all_completed ?_ halone.2.2).elim
          simp [ReaddirCall.Completed]
      | work call count =>
          obtain ⟨_, hlast⟩ := hsettled.pending_last hdelivers.1 (by simp)
          cases hlast
      | workError call error =>
          obtain ⟨_, hlast⟩ := hsettled.pending_last hdelivers.1 (by simp)
          cases hlast
      | complete call =>
          obtain ⟨result', hphase⟩ := hdelivers
          obtain ⟨rfl, _⟩ := hsettled.pending_last hphase (by simp)
          exact Sequential.complete_worked hsettled hresult

theorem Settled.sound (hsettled : Settled entries stream arrays calls) :
    Sound entries ⟨stream, none, 0, arrays, calls⟩ where
  faithful := hsettled.faithful
  partitioned := hsettled.partitioned
  released := by
    intro index array harray
    have hindex : index < calls.length := by
      rw [← hsettled.length_eq]
      exact (List.getElem?_eq_some_iff.mp harray).1
    have hcall := List.getElem?_eq_getElem hindex
    refine ⟨calls[index], List.getElem_mem hindex,
      hsettled.owned index _ hcall, ?_⟩
    exact iff_of_true
      (hsettled.deleted array (List.mem_of_getElem? harray))
      (hsettled.completed _ (List.getElem_mem hindex))
  writable := by
    intro index array hindex
    cases hindex

/-- One more request that is not completed, with its array, keeps the
directory sound. -/
theorem Settled.sound_pending {n : Nat} {last : ReaddirCall}
    {slots : List (Option Dirent)}
    (hsettled : Settled entries (last.produced ++ stream) arrays calls)
    (hlast : last.uvDirents = arrays.length) (hpending : ¬last.Completed) :
    Sound entries ⟨stream, some arrays.length, n, arrays ++ [⟨slots, false⟩],
      calls ++ [last]⟩ where
  faithful := by
    intro call hcall
    rcases List.mem_append.mp hcall with hcall | hcall
    · exact hsettled.faithful call hcall
    · rw [List.mem_singleton.mp hcall]
      intro result outcome hphase
      exact (hpending ⟨result, outcome, hphase⟩).elim
  partitioned := by
    have h := hsettled.partitioned
    simpa [List.flatMap_append, List.append_assoc] using h
  released := by
    intro index array harray
    by_cases hindex : index < arrays.length
    · rw [List.getElem?_append_left hindex] at harray
      obtain ⟨call, hcall, howned, hdeleted⟩ :=
        hsettled.sound.released index array harray
      exact ⟨call, List.mem_append_left _ hcall, howned, hdeleted⟩
    · have hlt := (List.getElem?_eq_some_iff.mp harray).1
      have heq : index = arrays.length := by
        simp only [List.length_append, List.length_singleton] at hlt
        omega
      subst heq
      rw [List.getElem?_concat_length] at harray
      cases harray
      exact ⟨last, by simp, hlast, iff_of_false (by simp) hpending⟩
  writable := by
    intro index array hindex harray
    cases hindex
    rw [List.getElem?_concat_length] at harray
    cases harray
    rfl

/-- Each shape is what the requests are meant to do. -/
theorem Sequential.sound {d : Dir} (hshape : Sequential entries d) :
    Sound entries d := by
  cases hshape with
  | idle hsettled => exact hsettled.sound
  | queued n hsettled =>
      exact Settled.sound_pending hsettled rfl
        (by simp [ReaddirCall.Completed])
  | worked n result produced rest hsettled hresult =>
      exact Settled.sound_pending hsettled rfl
        (by simp [ReaddirCall.Completed])

theorem Sequential.opened (entries : List Dirent) :
    Sequential entries (opened entries) :=
  Sequential.idle ⟨rfl, by simp, by simp, by simp, by simp, by simp⟩

end Steps

/-- In every run in which each `fs_readdir` is made while no other is pending
on the directory, with a size that can be allocated, and is taken by libuv, no
step faults and the directory is sound in the state reached. -/
theorem readdir_sound_of_alone (entries : List Dirent)
    (labels : List DirLabel)
    (hrun : GuardedRun.Admissible
      (fun d label => d.Delivers label ∧ d.Alone label) Dir.step
      (opened entries) labels) :
    ∃ d, GuardedRun.run Dir.step (opened entries) labels = .ok d ∧
      d.Sound entries := by
  obtain ⟨d, hd, hshape⟩ := GuardedRun.run_safe
    (fun d label hshape hallowed =>
      Sequential.step hshape hallowed.1 hallowed.2)
    (Sequential.opened entries) hrun
  exact ⟨d, hd, hshape.sound⟩

end Dir

namespace ReaddirWitness

def first : Dirent := ⟨[97], .file⟩
def second : Dirent := ⟨[98], .dir⟩

/-- Two calls of one entry each, the second made before the first is
completed. -/
def overlapping : List DirLabel :=
  [.fsReaddir 1 0, .fsReaddir 1 0, .work 0 1, .work 1 1, .complete 0]

/-- A call of two entries, its completion, and a call that finds no more. -/
def sequential : List DirLabel :=
  [.fsReaddir 2 0, .work 0 2, .complete 0, .fsReaddir 2 0, .work 1 0,
    .complete 1]

end ReaddirWitness

open ReaddirWitness in
/-- Overlapping calls: both workers write to the array of the second call, and
the first completion reads the NULL names of its own. -/
theorem readdir_overlapping_faults :
    GuardedRun.Admissible Dir.Delivers Dir.step (Dir.opened [first, second])
        overlapping ∧
      GuardedRun.run Dir.step (Dir.opened [first, second]) overlapping =
        .error .nullPointer ∧
      ¬∃ d, GuardedRun.run Dir.step (Dir.opened [first, second])
        overlapping = .ok d ∧ d.Sound [first, second] := by
  have hfault : GuardedRun.run Dir.step (Dir.opened [first, second])
      overlapping = .error .nullPointer := by decide
  refine ⟨by decide, hfault, ?_⟩
  rintro ⟨d, hd, _⟩
  rw [hfault] at hd
  cases hd

open ReaddirWitness in
theorem readdir_sound_of_alone_sequential :
    ∃ d, GuardedRun.run Dir.step (Dir.opened [first, second]) sequential =
        .ok d ∧ d.Sound [first, second] :=
  Dir.readdir_sound_of_alone [first, second] sequential (by decide)

end UvMbt
