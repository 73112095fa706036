/-
The descriptors that the system opens for `fs_open` and `fs_mkstemp`.  A
descriptor is the non-negative result of the request; what becomes of it is up
to the form that reports the result.
-/
import UvMbt.FsAgreement
import UvMbt.GuardedRun
import UvMbt.Ledger

set_option autoImplicit false

namespace UvMbt

namespace Descriptors

/-- The operations that open and close descriptors. -/
inductive Call where
  | «open»
  | mkstemp
  | close (file : Int32)
  deriving Repr, DecidableEq

def Call.op : Call → FsOp
  | .open => .open
  | .mkstemp => .mkstemp
  | .close _ => .close

/-- A finished request of one of them: the system calls return an int. -/
abbrev Answer := { req : Completion // req.result.toInt32.toInt64 = req.result }

/-- A request of a callback form; `finished` once its worker has run. -/
structure Request where
  call : Call
  finished : Option Answer

/-- The descriptors that are open in the process, the `File`s that the caller
has and has not closed, and the requests that have not reported. -/
structure State where
  descriptors : List Int32
  files : List Int32
  requests : List Request

def State.initial (before : List Int32) : State := ⟨before, [], []⟩

inductive Fault where
  | noSuchFile
  | noSuchRequest
  | descriptorInUse
  deriving Repr, DecidableEq

inductive Submission where
  | rejected (status : Int32) (hstatus : status < 0)
  | accepted (answer : Answer)

def Submission.toFs : Submission → FsSubmission
  | .rejected status hstatus => .rejected status hstatus
  | .accepted answer => .accepted answer.1

/-- What can happen: a callback form is called and libuv returns a status, a
worker runs a request, a request reports, a `_sync` form is called. -/
inductive Label where
  | start (call : Call) (status : Int32)
  | work (index : Nat) (answer : Answer)
  | report (index : Nat)
  | sync (call : Call) (submission : Submission)

/-- The caller closes only `File`s that it has. -/
def Call.takeFile (call : Call) (files : List Int32) :
    Except Fault (List Int32) :=
  match call with
  | .close file =>
      if file ∈ files then .ok (files.erase file) else .error .noSuchFile
  | _ => .ok files

/-- The system call: a descriptor that it opens was not in use. -/
def Call.perform (call : Call) (answer : Answer) (descriptors : List Int32) :
    Except Fault (List Int32) :=
  let result := answer.1.result.toInt32
  if result < 0 then .ok descriptors
  else
    match call with
    | .close file => .ok (descriptors.erase file)
    | _ =>
        if result ∈ descriptors then .error .descriptorInUse
        else .ok (result :: descriptors)

/-- The `File`s that the caller has from an outcome; one that could not be
closed stays with it. -/
def Call.returned (call : Call) (outcome : Option (Except Errno FsInfo)) :
    List Int32 :=
  match call, outcome with
  | .close file, some (.error _) => [file]
  | _, some (.ok (.file fd)) => [fd]
  | _, _ => []

section Step

variable (uvValue : Errno → Int) (blank : Completion)

def step (state : State) : Label → Except Fault State
  | .start call status =>
      if status < 0 then .ok state
      else do
        let files ← call.takeFile state.files
        .ok { state with files, requests := state.requests ++ [⟨call, none⟩] }
  | .work index answer =>
      match state.requests[index]? with
      | some ⟨call, none⟩ => do
          let descriptors ← call.perform answer state.descriptors
          .ok { state with
            descriptors
            requests := state.requests.set index ⟨call, some answer⟩ }
      | _ => .error .noSuchRequest
  | .report index =>
      match state.requests[index]? with
      | some ⟨call, some answer⟩ =>
          let outcome := call.op.callbackOutcome uvValue answer.1
          .ok { state with
            files := call.returned outcome ++ state.files
            requests := state.requests.eraseIdx index }
      | _ => .error .noSuchRequest
  | .sync call submission => do
      let files ← call.takeFile state.files
      let descriptors ←
        match submission with
        | .rejected _ _ => .ok state.descriptors
        | .accepted answer => call.perform answer state.descriptors
      let outcome := call.op.callSync uvValue blank submission.toFs
      .ok { state with descriptors, files := call.returned outcome ++ files }

end Step

/-- The descriptors that a call answers for before its worker has run, and
after. -/
def Call.held : Call → List Int32
  | .close file => [file]
  | _ => []

def Call.heldAfter (call : Call) (answer : Answer) : List Int32 :=
  if answer.1.result.toInt32 < 0 then call.held
  else
    match call with
    | .close _ => []
    | _ => [answer.1.result.toInt32]

def Request.held (request : Request) : List Int32 :=
  match request.finished with
  | none => request.call.held
  | some answer => request.call.heldAfter answer

/-- Every descriptor, beside those that were open before, is with the caller
as a `File` or with a request that has not reported. -/
def Accounted (before : List Int32) (state : State) : Prop :=
  state.descriptors.Perm
    (before ++ (state.files ++ state.requests.flatMap Request.held))

/-- The system closes the descriptor. -/
def closed : Answer where
  val :=
    { result := 0
      ptr := []
      path := []
      statbuf := []
      statfs := []
      dirents := []
      le_result := by decide }
  property := by decide

/-- `fs_close_sync` on every `File` that the caller has. -/
def closeAll (files : List Int32) : List Label :=
  files.map fun file => .sync (.close file) (.accepted closed)

/-- No descriptor is lost; and once every request has reported, closing the
`File`s leaves as many descriptors as before. -/
def Conserves (uvValue : Errno → Int) (blank : Completion)
    (before : List Int32) (state : State) : Prop :=
  Accounted before state ∧
    (state.requests = [] → ∃ after,
      GuardedRun.run (step uvValue blank) state (closeAll state.files) =
        .ok after ∧
      after.files = [] ∧ after.descriptors.length = before.length)

/-- The step does not report a file that `fs_mkstemp` has made. -/
def MakesNoTemp (state : State) : Label → Prop
  | .report index => ∀ answer,
      state.requests[index]? = some ⟨.mkstemp, some answer⟩ →
        answer.1.result.toInt32 < 0
  | .sync .mkstemp (.accepted answer) => answer.1.result.toInt32 < 0
  | _ => True

/-- The descriptor that is lost when a request reports. -/
def Call.dropped (call : Call) (answer : Answer) : List Int32 :=
  match call with
  | .mkstemp =>
      if answer.1.result.toInt32 < 0 then [] else [answer.1.result.toInt32]
  | _ => []

def State.dropped (state : State) : Label → List Int32
  | .report index =>
      match state.requests[index]? with
      | some ⟨call, some answer⟩ => call.dropped answer
      | _ => []
  | .sync call (.accepted answer) => call.dropped answer
  | _ => []

/-- The ledger: what is accounted for, and what was lost on the way. -/
def Balanced (before lost : List Int32) (state : State) : Prop :=
  state.descriptors.Perm
    (before ++ (state.files ++ state.requests.flatMap Request.held) ++ lost)

section Calls

variable {uvValue : Errno → Int} {blank : Completion} {call : Call}

theorem Answer.result_neg_iff (answer : Answer) :
    answer.1.result < 0 ↔ answer.1.result.toInt32 < 0 := by
  have hresult := congrArg Int64.toInt answer.2
  rw [Int32.toInt_toInt64] at hresult
  rw [toInt64_lt_zero, toInt32_lt_zero, hresult]

theorem Call.takeFile_perm {files rest : List Int32}
    (htake : call.takeFile files = .ok rest) :
    files.Perm (call.held ++ rest) := by
  cases call with
  | close file =>
      rw [Call.takeFile] at htake
      split at htake
      · rename_i hmem
        cases htake
        exact List.perm_cons_erase hmem
      · cases htake
  | _ =>
      cases htake
      exact List.Perm.refl _

/-- A system call turns what the call answered for into what it answers for
now. -/
theorem Call.perform_perm {answer : Answer}
    {descriptors after rest : List Int32}
    (hperform : call.perform answer descriptors = .ok after)
    (hbefore : descriptors.Perm (call.held ++ rest)) :
    after.Perm (call.heldAfter answer ++ rest) := by
  simp only [Call.perform] at hperform
  unfold Call.heldAfter
  by_cases hfailed : answer.1.result.toInt32 < 0
  · rw [if_pos hfailed] at hperform ⊢
    cases hperform
    exact hbefore
  · rw [if_neg hfailed] at hperform ⊢
    cases call with
    | close file =>
        cases hperform
        have herase := hbefore.erase file
        rwa [Call.held, List.singleton_append, List.erase_cons_head] at herase
    | _ =>
        simp only at hperform
        split at hperform
        · cases hperform
        · cases hperform
          exact hbefore.cons answer.1.result.toInt32

/-- What a request answered for goes to the caller, but for the descriptor of
`fs_mkstemp`. -/
theorem Call.returned_callback (answer : Answer) :
    call.returned (call.op.callbackOutcome uvValue answer.1) ++
      call.dropped answer = call.heldAfter answer := by
  unfold Call.heldAfter
  cases call with
  | close file =>
      have hform : FsOp.close.callback uvValue =
          wideCallback uvValue [.cleanup] [.cleanup] (fun _ _ => .unit) := rfl
      rw [Call.op, FsOp.callbackOutcome_of_wide hform]
      simp only [Answer.result_neg_iff]
      split <;> rfl
  | «open» =>
      have hform : FsOp.open.callback uvValue =
          narrowCallback uvValue [.cleanup] [.cleanup]
            (fun result _ => .file result) := rfl
      rw [Call.op, FsOp.callbackOutcome_of_narrow hform]
      split <;> rfl
  | mkstemp =>
      have hform : FsOp.mkstemp.callback uvValue =
          narrowCallback uvValue [] [.getPath, .cleanup]
            (fun _ req => .bytes (cString req.path)) := rfl
      rw [Call.op, FsOp.callbackOutcome_of_narrow hform, Call.dropped]
      split <;> rfl

theorem Call.returned_sync (answer : Answer) :
    call.returned (call.op.callSync uvValue blank (.accepted answer.1)) ++
      call.dropped answer = call.heldAfter answer := by
  rw [FsOp.callSync]
  unfold Call.heldAfter
  cases call with
  | mkstemp =>
      rw [Call.op, FsOp.syncOutcome_of_syncReturn rfl, Call.dropped]
      split <;> rfl
  | _ =>
      rw [Call.op, FsOp.syncOutcome_of_syncReturn rfl]
      split <;> rfl

theorem Call.returned_rejected (status : Int32) (hstatus : status < 0) :
    call.returned (call.op.callSync uvValue blank (.rejected status hstatus)) =
      call.held := by
  rw [(FsOp.callSync_rejected uvValue call.op blank status hstatus).1]
  cases call <;> rfl

end Calls

section Run

variable {uvValue : Errno → Int} {blank : Completion}
  {before lost : List Int32} {state next : State}

theorem step_start {call : Call} {files : List Int32}
    (hbalanced : Balanced before lost state)
    (htake : call.takeFile state.files = .ok files) :
    Balanced before lost
      { state with files, requests := state.requests ++ [⟨call, none⟩] } := by
  have hperm := Call.takeFile_perm htake
  rw [Balanced, List.perm_iff_count] at hbalanced ⊢
  rw [List.perm_iff_count] at hperm
  intro fd
  have hfd := hbalanced fd
  have hheld := hperm fd
  simp only [List.flatMap_append, List.flatMap_cons, List.flatMap_nil,
    List.append_nil, List.count_append, Request.held] at hfd hheld ⊢
  omega

theorem step_work {index : Nat} {call : Call} {answer : Answer}
    {descriptors : List Int32} (hbalanced : Balanced before lost state)
    (hrequest : state.requests[index]? = some ⟨call, none⟩)
    (hperform : call.perform answer state.descriptors = .ok descriptors) :
    Balanced before lost
      { state with
        descriptors
        requests := state.requests.set index ⟨call, some answer⟩ } := by
  have hheld := Ledger.perm_eraseIdx Request.held hrequest
  have hset := Ledger.perm_set Request.held ⟨call, some answer⟩ hrequest
  have hbefore : state.descriptors.Perm (call.held ++ (before ++
      (state.files ++ (state.requests.eraseIdx index).flatMap Request.held) ++
        lost)) := by
    rw [Balanced, List.perm_iff_count] at hbalanced
    rw [List.perm_iff_count] at hheld ⊢
    intro fd
    have hfd := hbalanced fd
    have hrequests := hheld fd
    simp only [List.count_append, Request.held] at hfd hrequests ⊢
    omega
  have hafter := Call.perform_perm hperform hbefore
  rw [List.perm_iff_count] at hset hafter
  rw [Balanced, List.perm_iff_count]
  intro fd
  have hfd := hafter fd
  have hrequests := hset fd
  simp only [List.count_append, Request.held] at hfd hrequests ⊢
  omega

theorem step_report {index : Nat} {call : Call} {answer : Answer}
    (hbalanced : Balanced before lost state)
    (hrequest : state.requests[index]? = some ⟨call, some answer⟩) :
    Balanced before (call.dropped answer ++ lost)
      { state with
        files := call.returned (call.op.callbackOutcome uvValue answer.1) ++
          state.files
        requests := state.requests.eraseIdx index } := by
  have hheld := Ledger.perm_eraseIdx Request.held hrequest
  have hreturned := @Call.returned_callback uvValue call answer
  rw [Balanced, List.perm_iff_count] at hbalanced ⊢
  rw [List.perm_iff_count] at hheld
  intro fd
  have hfd := hbalanced fd
  have hrequests := hheld fd
  have hfiles := congrArg (List.count fd) hreturned
  simp only [List.count_append, Request.held] at hfd hrequests hfiles ⊢
  omega

theorem step_sync_rejected {call : Call} {files : List Int32} {status : Int32}
    (hstatus : status < 0) (hbalanced : Balanced before lost state)
    (htake : call.takeFile state.files = .ok files) :
    Balanced before lost
      { state with
        files := call.returned (call.op.callSync uvValue blank
          (.rejected status hstatus)) ++ files } := by
  have hperm := Call.takeFile_perm htake
  rw [Call.returned_rejected]
  rw [Balanced, List.perm_iff_count] at hbalanced ⊢
  rw [List.perm_iff_count] at hperm
  intro fd
  have hfd := hbalanced fd
  have hheld := hperm fd
  simp only [List.count_append] at hfd hheld ⊢
  omega

theorem step_sync_accepted {call : Call} {files descriptors : List Int32}
    {answer : Answer} (hbalanced : Balanced before lost state)
    (htake : call.takeFile state.files = .ok files)
    (hperform : call.perform answer state.descriptors = .ok descriptors) :
    Balanced before (call.dropped answer ++ lost)
      { state with
        descriptors
        files := call.returned (call.op.callSync uvValue blank
          (.accepted answer.1)) ++ files } := by
  have hperm := Call.takeFile_perm htake
  have hreturned := @Call.returned_sync uvValue blank call answer
  have hbefore : state.descriptors.Perm (call.held ++ (before ++
      (files ++ state.requests.flatMap Request.held) ++ lost)) := by
    rw [Balanced, List.perm_iff_count] at hbalanced
    rw [List.perm_iff_count] at hperm ⊢
    intro fd
    have hfd := hbalanced fd
    have hheld := hperm fd
    simp only [List.count_append] at hfd hheld ⊢
    omega
  have hafter := Call.perform_perm hperform hbefore
  rw [List.perm_iff_count] at hafter
  rw [Balanced, List.perm_iff_count]
  intro fd
  have hfd := hafter fd
  have hfiles := congrArg (List.count fd) hreturned
  simp only [List.count_append] at hfd hfiles ⊢
  omega

theorem step_balanced {label : Label} (hbalanced : Balanced before lost state)
    (hstep : step uvValue blank state label = .ok next) :
    Balanced before (state.dropped label ++ lost) next := by
  cases label with
  | start call status =>
      rw [step] at hstep
      split at hstep
      · cases hstep
        exact hbalanced
      · rcases GuardedRun.bind_eq_ok hstep with ⟨files, htake, hnext⟩
        cases hnext
        exact step_start hbalanced htake
  | work index answer =>
      rw [step] at hstep
      split at hstep
      · rename_i call hrequest
        rcases GuardedRun.bind_eq_ok hstep with
          ⟨descriptors, hperform, hnext⟩
        cases hnext
        exact step_work hbalanced hrequest hperform
      · cases hstep
  | report index =>
      rw [step] at hstep
      split at hstep
      · rename_i call answer hrequest
        cases hstep
        simp only [State.dropped, hrequest]
        exact step_report hbalanced hrequest
      · cases hstep
  | sync call submission =>
      rw [step] at hstep
      rcases GuardedRun.bind_eq_ok hstep with ⟨files, htake, hrest⟩
      cases submission with
      | rejected status hstatus =>
          cases hrest
          exact step_sync_rejected hstatus hbalanced htake
      | accepted answer =>
          rcases GuardedRun.bind_eq_ok hrest with
            ⟨descriptors, hperform, hnext⟩
          cases hnext
          exact step_sync_accepted hbalanced htake hperform

/-- The ledger balances without a loss exactly if nothing was lost. -/
theorem accounted_iff (hbalanced : Balanced before lost state) :
    Accounted before state ↔ lost = [] := by
  constructor
  · intro haccounted
    have hlength := haccounted.length_eq.symm.trans hbalanced.length_eq
    simp only [List.length_append] at hlength
    apply List.eq_nil_of_length_eq_zero
    omega
  · rintro rfl
    rwa [Balanced, List.append_nil] at hbalanced

theorem Call.dropped_mkstemp_iff (answer : Answer) :
    Call.mkstemp.dropped answer = [] ↔ answer.1.result.toInt32 < 0 := by
  rw [Call.dropped]
  by_cases hfailed : answer.1.result.toInt32 < 0
  · simp only [hfailed, if_true]
  · simp only [hfailed, if_false, List.cons_ne_nil]

theorem makesNoTemp_iff (state : State) (label : Label) :
    MakesNoTemp state label ↔ state.dropped label = [] := by
  cases label with
  | start call status => exact iff_of_true trivial rfl
  | work index answer => exact iff_of_true trivial rfl
  | report index =>
      rw [MakesNoTemp, State.dropped]
      split
      · rename_i call answer hrequest
        simp only [hrequest, Option.some.injEq, Request.mk.injEq]
        cases call with
        | mkstemp => simp [Call.dropped_mkstemp_iff]
        | _ => simp [Call.dropped]
      · rename_i hother
        simp only [iff_true]
        intro answer hrequest
        exact absurd hrequest (hother _ _)
  | sync call submission =>
      cases submission with
      | rejected status hstatus => cases call <;> exact iff_of_true trivial rfl
      | accepted answer =>
          cases call with
          | mkstemp => exact (Call.dropped_mkstemp_iff answer).symm
          | _ => exact iff_of_true trivial rfl

theorem step_good {label : Label}
    (hbalanced : ∃ lost, Balanced before lost state)
    (hstep : step uvValue blank state label = .ok next) :
    (∃ lost, Balanced before lost next) ∧
      (Accounted before next ↔
        Accounted before state ∧ MakesNoTemp state label) := by
  obtain ⟨lost, hbalanced⟩ := hbalanced
  have hnext := step_balanced hbalanced hstep
  refine ⟨⟨_, hnext⟩, ?_⟩
  rw [accounted_iff hnext, accounted_iff hbalanced, makesNoTemp_iff,
    List.append_eq_nil_iff, and_comm]

theorem run_accounted {labels : List Label} {final : State}
    (hrun : GuardedRun.run (step uvValue blank) (State.initial before) labels =
      .ok final) :
    Accounted before final ↔
      GuardedRun.Admissible MakesNoTemp (step uvValue blank)
        (State.initial before) labels := by
  have hinitial : Accounted before (State.initial before) := by
    simp [Accounted, State.initial]
  have hbalanced : Balanced before [] (State.initial before) := by
    rwa [Balanced, List.append_nil]
  have hiff := (GuardedRun.run_iff
    (fun _ _ _ hinvariant hstep => step_good hinvariant hstep)
    ⟨[], hbalanced⟩ hrun).2
  rw [hiff, and_iff_right hinitial]

theorem step_closeAll (descriptors files : List Int32) (file : Int32) :
    step uvValue blank ⟨descriptors, file :: files, []⟩
        (.sync (.close file) (.accepted closed)) =
      .ok ⟨descriptors.erase file, files, []⟩ := by
  have htake : (Call.close file).takeFile (file :: files) = .ok files := by
    rw [Call.takeFile, if_pos List.mem_cons_self, List.erase_cons_head]
  simp only [step, htake]
  rfl

/-- Closing every `File` leaves the descriptors that were open before. -/
theorem closeAll_closes (files : List Int32) {descriptors : List Int32}
    (hopen : descriptors.Perm (before ++ files)) :
    ∃ after, GuardedRun.run (step uvValue blank) ⟨descriptors, files, []⟩
        (closeAll files) = .ok after ∧
      after.files = [] ∧ after.descriptors.length = before.length := by
  induction files generalizing descriptors with
  | nil =>
      rw [List.append_nil] at hopen
      exact ⟨_, rfl, rfl, hopen.length_eq⟩
  | cons file rest ih =>
      have hfront : descriptors.Perm (file :: (before ++ rest)) :=
        hopen.trans List.perm_middle
      have hclosed := hfront.erase file
      rw [List.erase_cons_head] at hclosed
      obtain ⟨after, hrun, hafter⟩ := ih hclosed
      refine ⟨after, ?_, hafter⟩
      rw [closeAll, List.map_cons, GuardedRun.run, step_closeAll]
      exact hrun

end Run

/-- In every run, the process loses no descriptor exactly as long as no step
reports a file that `fs_mkstemp` has made. -/
theorem descriptors_conserved_iff (uvValue : Errno → Int) (blank : Completion)
    (before : List Int32) (labels : List Label) (final : State)
    (hrun : GuardedRun.run (step uvValue blank) (State.initial before) labels =
      .ok final) :
    Conserves uvValue blank before final ↔
      GuardedRun.Admissible MakesNoTemp (step uvValue blank)
        (State.initial before) labels := by
  rw [← run_accounted hrun]
  constructor
  · rintro ⟨haccounted, -⟩
    exact haccounted
  · intro haccounted
    refine ⟨haccounted, ?_⟩
    intro hreported
    cases final with
    | mk descriptors files requests =>
        cases hreported
        rw [Accounted, List.flatMap_nil, List.append_nil] at haccounted
        exact closeAll_closes files haccounted

namespace Witness

theorem le_three : -2 ^ 31 ≤ (3 : Int64).toInt := by
  decide

/-- The system opens descriptor 3. -/
def three : Answer where
  val :=
    { result := 3
      ptr := []
      path := []
      statbuf := []
      statfs := []
      dirents := []
      le_result := le_three }
  property := by decide

/-- The standard streams, a file that is opened and one that is closed. -/
def openAndClose : List Label :=
  [.start .open 0, .work 0 three, .report 0, .start (.close 3) 0,
    .work 0 closed, .report 0]

end Witness

open Witness in
theorem descriptors_conserved_openAndClose :
    ∃ final, GuardedRun.run (step Errno.linuxValue closed.1)
        (State.initial [0, 1, 2]) openAndClose = .ok final ∧
      (Conserves Errno.linuxValue closed.1 [0, 1, 2] final ↔
        GuardedRun.Admissible MakesNoTemp (step Errno.linuxValue closed.1)
          (State.initial [0, 1, 2]) openAndClose) :=
  ⟨_, rfl, descriptors_conserved_iff _ _ _ _ _ rfl⟩

open Witness in
/-- `fs_mkstemp_sync` returns the path of the file that it made; its
descriptor stays open. -/
theorem mkstemp_loses_descriptor :
    GuardedRun.run (step Errno.linuxValue closed.1) (State.initial [0, 1, 2])
        [.sync .mkstemp (.accepted three)] = .ok ⟨[3, 0, 1, 2], [], []⟩ ∧
      ¬Conserves Errno.linuxValue closed.1 [0, 1, 2]
        ⟨[3, 0, 1, 2], [], []⟩ := by
  refine ⟨rfl, ?_⟩
  rintro ⟨haccounted, -⟩
  exact absurd haccounted.length_eq (by decide)

end Descriptors

end UvMbt
