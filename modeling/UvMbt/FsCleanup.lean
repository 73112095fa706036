/-
What libuv owns for a file request, and when the forms of fs.mbt have it given
back.  `uv_fs_req_cleanup` is called by hand in every branch of every form.
-/
import UvMbt.FsAgreement

set_option autoImplicit false

namespace UvMbt

section Forms

variable (uvValue : Errno → Int)

/-! The operations that fs.mbt offers with a callback only. -/

def fsFtruncate : FsCallback := unitCallback uvValue

def fsFstat : FsCallback :=
  narrowCallback uvValue [.cleanup] [.getStatbuf, .cleanup]
    (fun _ req => .stat req.statbuf)

/-- The `Dir` that it hands over is not looked at here. -/
def fsOpendir : FsCallback :=
  narrowCallback uvValue [.cleanup] [.getPtr, .cleanup] (fun _ _ => .unit)

/-- The entries have names that libuv owns. -/
def fsReaddir : FsCallback :=
  narrowCallback uvValue [.cleanup] [.getPtr, .cleanup]
    (fun _ req => .scandir req.dirents)

def fsClosedir : FsCallback := unitCallback uvValue

end Forms

/-- A call of one of the forms. -/
inductive FsForm where
  | callback (op : FsOp)
  | sync (op : FsOp)
  | ftruncate
  | fstat
  | opendir
  | readdir
  | closedir
  deriving Repr, DecidableEq

namespace FsForm

/-- What a form does with a finished request. -/
def finished (uvValue : Errno → Int) : FsForm → Completion → List FsAction
  | .callback op => op.callback uvValue
  | .sync op => fun req => op.sync uvValue req.result.toInt32 req
  | .ftruncate => fsFtruncate uvValue
  | .fstat => fsFstat uvValue
  | .opendir => fsOpendir uvValue
  | .readdir => fsReaddir uvValue
  | .closedir => fsClosedir uvValue

/-- What a form does when libuv rejects the arguments; the callback forms
raise. -/
def rejected (uvValue : Errno → Int) (blank : Completion) (status : Int32) :
    FsForm → List FsAction
  | .sync op => op.sync uvValue status blank
  | _ => [.finish (.error (Errno.ofInt uvValue status.toInt))]

end FsForm

section Libuv

/-- What libuv has allocated for a request, beside what it has freed already:
the copies of the arguments and the result; whether the request was cleaned
up; and whether there was something left when the callback was called, or the
call returned or raised. -/
structure FsOwned where
  inputs : Bool
  result : Bool
  cleaned : Bool
  late : Bool
  deriving Repr, DecidableEq

/-- The operations on an open file. -/
def FsOp.onFile : FsOp → Bool
  | .close | .sendfile | .fchmod | .read | .write | .fsync | .fdatasync
  | .fchown | .futime => true
  | _ => false

/-- A request that goes to a thread has a copy of its path, and of the list of
buffers until it has run; a template is copied always. -/
def FsForm.copiesInputs : FsForm → Bool
  | .callback op => !op.onFile || op = .read || op = .write
  | .sync op => op = .mkdtemp || op = .mkstemp
  | .opendir => true
  | _ => false

/-- The operations whose result is in memory of libuv that the request owns. -/
def FsForm.ownsResult : FsForm → Bool
  | .callback op | .sync op =>
      op = .readlink || op = .realpath || op = .scandir || op = .statfs
  | .readdir => true
  | _ => false

/-- A `closedir` that was cancelled did not free the directory; one that ran
never fails. -/
def FsForm.keepsDir : FsForm → Bool
  | .closedir => true
  | _ => false

/-- What a request owns by whether it failed. -/
def FsForm.owns (form : FsForm) (failed : Bool) : FsOwned :=
  ⟨form.copiesInputs, (form.ownsResult && !failed) || (form.keepsDir && failed),
    false, false⟩

/-- What a request that has finished owns. -/
def FsForm.owned (form : FsForm) (req : Completion) : FsOwned :=
  form.owns (decide (req.result.toInt32 < 0))

/-- `uv_fs_req_cleanup`. -/
def FsOwned.cleanup (owned : FsOwned) : FsOwned :=
  { owned with inputs := false, result := false, cleaned := true }

/-- The callback is called, or the call returns or raises. -/
def FsOwned.report (owned : FsOwned) : FsOwned :=
  { owned with late := owned.late || owned.inputs || owned.result }

/-- A step of a form; the stat block is in the request itself. -/
def FsOwned.step (owned : FsOwned) : FsAction → Option FsOwned
  | .getPtr | .getPath | .getStatfs =>
      if owned.cleaned then none else some owned
  | .getStatbuf => some owned
  | .cleanup => some owned.cleanup
  | .finish _ => some owned.report

def FsOwned.steps : FsOwned → List FsAction → Option FsOwned
  | owned, [] => some owned
  | owned, action :: rest => (owned.step action).bind (FsOwned.steps · rest)

end Libuv

section Scandir

/-- A `Scandir`: the entries that are left, and what its request owns. -/
structure Scandir where
  entries : List Dirent
  owned : FsOwned
  deriving Repr, DecidableEq

/-- `Scandir::next`: `uv_fs_scandir_next` frees the entries at the end, where
`next` cleans the request up and raises. -/
def Scandir.next (scandir : Scandir) : Scandir × Option Dirent :=
  match scandir.entries with
  | entry :: rest => (⟨rest, scandir.owned⟩, some entry)
  | [] => (⟨[], scandir.owned.cleanup⟩, none)

def Scandir.nexts : Nat → Scandir → Scandir
  | 0, scandir => scandir
  | count + 1, scandir => Scandir.nexts count scandir.next.1

/-- `moonbit_uv_fs_finalize` releases what the binding has stored in the
request, and nothing of libuv's. -/
def Scandir.drop (scandir : Scandir) : FsOwned := scandir.owned

def FsForm.scans : FsForm → Bool
  | .callback op | .sync op => op = .scandir
  | _ => false

end Scandir

/-- A successful scan hands a `Scandir` over. -/
def FsForm.handsOver (form : FsForm) (req : Completion) : Bool :=
  form.scans && decide (0 ≤ req.result.toInt32)

/-- What a call leaves: its `Scandir`, if it hands one over, is asked for so
many entries and then dropped. -/
def FsForm.leaves (uvValue : Errno → Int) (blank : Completion) (form : FsForm)
    (nexts : Nat) : FsSubmission → Option FsOwned
  | .rejected status _ =>
      FsOwned.steps ⟨false, false, false, false⟩
        (form.rejected uvValue blank status)
  | .accepted req =>
      (FsOwned.steps (form.owned req) (form.finished uvValue req)).map
        fun owned =>
          if form.handsOver req then
            (Scandir.nexts nexts ⟨req.dirents, owned⟩).drop
          else owned

/-- The call hands no `Scandir` over. -/
def FsForm.Ends (form : FsForm) : FsSubmission → Prop
  | .rejected _ _ => True
  | .accepted req => form.handsOver req = false

/-- Nothing is read after the cleanup, nothing is left, and unless there is a
`Scandir` nothing was left when the callback was called, or the call returned
or raised. -/
def FsForm.CleansUp (uvValue : Errno → Int) (blank : Completion)
    (form : FsForm) (nexts : Nat) (submission : FsSubmission) : Prop :=
  ∃ owned, form.leaves uvValue blank nexts submission = some owned ∧
    owned.inputs = false ∧ owned.result = false ∧
    (form.Ends submission → owned.late = false)

/-- The calls that clean up: not a failed `fs_mkdtemp_sync` or `fs_mkstemp`,
and no `Scandir` that is dropped before its end. -/
def FsForm.CleansUpOn (form : FsForm) (nexts : Nat) : FsSubmission → Prop
  | .rejected _ _ => True
  | .accepted req =>
      (req.result.toInt32 < 0 →
        form ≠ .sync .mkdtemp ∧ form ≠ .callback .mkstemp) ∧
      (0 ≤ req.result.toInt32 → form.scans = true →
        req.dirents.length < nexts)

section Proofs

variable (uvValue : Errno → Int)

theorem FsOwned.steps_append (owned : FsOwned) (first second : List FsAction) :
    owned.steps (first ++ second) =
      (owned.steps first).bind (FsOwned.steps · second) := by
  induction first generalizing owned with
  | nil => rfl
  | cons action rest ih =>
      rw [List.cons_append, FsOwned.steps, FsOwned.steps]
      cases owned.step action with
      | none => rfl
      | some next => exact ih next

/-- The steps of a branch and the report. -/
def FsOwned.reports (owned : FsOwned) (actions : List FsAction) :
    Option FsOwned :=
  (owned.steps actions).map FsOwned.report

theorem FsOwned.steps_finish (owned : FsOwned) (actions : List FsAction)
    (outcome : Except Errno FsInfo) :
    owned.steps (actions ++ [.finish outcome]) = owned.reports actions := by
  rw [FsOwned.steps_append, FsOwned.reports]
  cases owned.steps actions <;> rfl

theorem FsOwned.steps_narrow (owned : FsOwned)
    (onError onSuccess : List FsAction)
    (info : Int32 → Completion → FsInfo) (req : Completion) :
    owned.steps (narrowCallback uvValue onError onSuccess info req) =
      owned.reports (if req.result.toInt32 < 0 then onError else onSuccess) := by
  by_cases hfailed : req.result.toInt32 < 0
  · simp only [narrowCallback, hfailed, if_true, FsOwned.steps_finish]
  · simp only [narrowCallback, hfailed, if_false, FsOwned.steps_finish]

theorem FsOwned.steps_sync (owned : FsOwned)
    (onError onSuccess : List FsAction)
    (info : Int32 → Completion → FsInfo) (status : Int32)
    (req : Completion) :
    owned.steps (syncReturn uvValue onError onSuccess info status req) =
      owned.reports (if status < 0 then onError else onSuccess) := by
  by_cases hfailed : status < 0
  · simp only [syncReturn, hfailed, if_true, FsOwned.steps_finish]
  · simp only [syncReturn, hfailed, if_false, FsOwned.steps_finish]

theorem FsOwned.steps_wide (owned : FsOwned) (actions : List FsAction)
    (info : Int64 → Completion → FsInfo) (req : Completion) :
    owned.steps (wideCallback uvValue actions actions info req) =
      owned.reports actions := by
  by_cases hfailed : req.result < 0
  · simp only [wideCallback, hfailed, if_true, FsOwned.steps_finish]
  · simp only [wideCallback, hfailed, if_false, FsOwned.steps_finish]

/-- What a form does before it reports an error or a success. -/
def FsForm.branch (failed : Bool) : FsForm → List FsAction
  | .callback .scandir => if failed then [.cleanup] else []
  | .callback .mkstemp => if failed then [] else [.getPath, .cleanup]
  | .callback .mkdtemp => if failed then [.cleanup] else [.getPath, .cleanup]
  | .callback .stat | .callback .lstat | .fstat =>
      if failed then [.cleanup] else [.getStatbuf, .cleanup]
  | .callback .realpath | .callback .readlink | .opendir | .readdir =>
      if failed then [.cleanup] else [.getPtr, .cleanup]
  | .callback .statfs => if failed then [.cleanup] else [.getStatfs, .cleanup]
  | .callback _ | .ftruncate | .closedir => [.cleanup]
  | .sync .scandir => if failed then [.cleanup] else []
  | .sync .mkstemp => if failed then [.cleanup] else [.getPath, .cleanup]
  | .sync .mkdtemp => if failed then [] else [.getPath, .cleanup]
  | .sync .stat | .sync .lstat =>
      if failed then [.cleanup] else [.getStatbuf, .cleanup]
  | .sync .realpath | .sync .readlink =>
      if failed then [] else [.getPtr, .cleanup]
  | .sync .statfs => if failed then [.cleanup] else [.getStatfs, .cleanup]
  | .sync .rename | .sync .utime | .sync .futime | .sync .lutime => [.cleanup]
  | .sync _ => []

/-- The forms take their branch by the sign of the status, or take the same
steps in both. -/
theorem FsForm.steps_of_narrow {form : FsForm} {callback : FsCallback}
    {onError onSuccess : List FsAction} {info : Int32 → Completion → FsInfo}
    (hcallback : callback = narrowCallback uvValue onError onSuccess info)
    (hbranch : ∀ failed, form.branch failed =
      if failed = true then onError else onSuccess)
    (owned : FsOwned) (req : Completion) :
    owned.steps (callback req) =
      owned.reports (form.branch (decide (req.result.toInt32 < 0))) := by
  rw [hcallback, hbranch, FsOwned.steps_narrow]
  simp only [decide_eq_true_eq]

theorem FsForm.steps_of_sync {op : FsOp} {onError onSuccess : List FsAction}
    {info : Int32 → Completion → FsInfo}
    (hform : op.sync uvValue = syncReturn uvValue onError onSuccess info)
    (hbranch : ∀ failed, (FsForm.sync op).branch failed =
      if failed = true then onError else onSuccess)
    (owned : FsOwned) (req : Completion) :
    owned.steps ((FsForm.sync op).finished uvValue req) =
      owned.reports ((FsForm.sync op).branch
        (decide (req.result.toInt32 < 0))) := by
  rw [FsForm.finished, hform, hbranch, FsOwned.steps_sync]
  simp only [decide_eq_true_eq]

theorem FsForm.steps_of_wide {form : FsForm} {callback : FsCallback}
    {actions : List FsAction} {info : Int64 → Completion → FsInfo}
    (hcallback : callback = wideCallback uvValue actions actions info)
    (hbranch : ∀ failed, form.branch failed = actions)
    (owned : FsOwned) (req : Completion) :
    owned.steps (callback req) =
      owned.reports (form.branch (decide (req.result.toInt32 < 0))) := by
  rw [hcallback, hbranch, FsOwned.steps_wide]

theorem FsForm.steps_of_unit {form : FsForm} (hbranch : ∀ failed,
      form.branch failed = [.cleanup])
    (owned : FsOwned) (req : Completion) :
    owned.steps (unitCallback uvValue req) =
      owned.reports (form.branch (decide (req.result.toInt32 < 0))) := by
  rw [unitCallback, FsOwned.steps_narrow, hbranch, ite_self]

theorem FsForm.steps_callback (op : FsOp) (owned : FsOwned)
    (req : Completion) :
    owned.steps (op.callback uvValue req) =
      owned.reports ((FsForm.callback op).branch
        (decide (req.result.toInt32 < 0))) := by
  cases op with
  | close | sendfile | read | fsync | fdatasync =>
      rw [FsOp.callback]
      apply steps_of_wide uvValue rfl
      intro failed
      rfl
  | «open» | write | scandir | stat | lstat | realpath | mkdtemp | mkstemp
  | readlink | statfs =>
      rw [FsOp.callback]
      apply steps_of_narrow uvValue rfl
      intro failed
      cases failed <;> rfl
  | _ =>
      rw [FsOp.callback]
      apply steps_of_unit
      intro failed
      rfl

theorem FsForm.steps_finished (form : FsForm) (owned : FsOwned)
    (req : Completion) :
    owned.steps (form.finished uvValue req) =
      owned.reports (form.branch (decide (req.result.toInt32 < 0))) := by
  cases form with
  | callback op => exact steps_callback uvValue op owned req
  | sync op =>
      cases op with
      | _ =>
          apply steps_of_sync uvValue (by rw [FsOp.sync]; rfl)
          intro failed
          cases failed <;> rfl
  | ftruncate | closedir =>
      rw [FsForm.finished]
      apply steps_of_unit
      intro failed
      rfl
  | _ =>
      rw [FsForm.finished]
      apply steps_of_narrow uvValue rfl
      intro failed
      cases failed <;> rfl

/-- What a branch leaves of what the request owned. -/
theorem FsForm.reports_branch (form : FsForm) (failed : Bool) :
    ∃ owned, (form.owns failed).reports (form.branch failed) = some owned ∧
      (owned.inputs = false ∧ owned.result = false ∧
          ((form.scans && !failed) = false → owned.late = false) ↔
        (failed = true →
          form ≠ .sync .mkdtemp ∧ form ≠ .callback .mkstemp) ∧
        (form.scans && !failed) = false) := by
  cases form with
  | callback op =>
      cases op <;> cases failed <;> exact ⟨_, rfl, by decide⟩
  | sync op =>
      cases op <;> cases failed <;> exact ⟨_, rfl, by decide⟩
  | _ => cases failed <;> exact ⟨_, rfl, by decide⟩

/-- A `Scandir` that is not exhausted keeps what the request owns. -/
theorem Scandir.owned_nexts (nexts : Nat) (entries : List Dirent)
    (owned : FsOwned) :
    (Scandir.nexts nexts ⟨entries, owned⟩).owned =
      if entries.length < nexts then owned.cleanup else owned := by
  induction nexts generalizing entries owned with
  | zero => rfl
  | succ count ih =>
      rw [Scandir.nexts]
      cases entries with
      | nil =>
          have hagain : owned.cleanup.cleanup = owned.cleanup := rfl
          simp only [Scandir.next]
          rw [ih, hagain, ite_self, if_pos]
          exact Nat.succ_pos count
      | cons entry rest =>
          simp only [Scandir.next]
          rw [ih, List.length_cons]
          simp only [Nat.succ_lt_succ_iff]

/-- A form that is rejected cleans up at most, and it owned nothing. -/
theorem FsForm.steps_rejected (blank : Completion) {status : Int32}
    (hstatus : status < 0) (form : FsForm) :
    ∃ owned, FsOwned.steps ⟨false, false, false, false⟩
        (form.rejected uvValue blank status) = some owned ∧
      owned.inputs = false ∧ owned.result = false ∧ owned.late = false := by
  cases form with
  | sync op =>
      have hform : ∃ onError onSuccess info,
          (onError = [] ∨ onError = [.cleanup]) ∧
          op.sync uvValue = syncReturn uvValue onError onSuccess info := by
        cases op <;>
          first
          | exact ⟨_, _, _, Or.inl rfl, rfl⟩
          | exact ⟨_, _, _, Or.inr rfl, rfl⟩
      obtain ⟨onError, onSuccess, info, hsteps, hform⟩ := hform
      rw [FsForm.rejected, hform, FsOwned.steps_sync, if_pos hstatus]
      rcases hsteps with rfl | rfl
      · exact ⟨_, rfl, rfl, rfl, rfl⟩
      · exact ⟨_, rfl, rfl, rfl, rfl⟩
  | _ => exact ⟨_, rfl, rfl, rfl, rfl⟩

/-- What a finished request leaves once its `Scandir`, if any, is dropped. -/
theorem FsForm.leaves_accepted (blank : Completion) (form : FsForm)
    (nexts : Nat) (req : Completion) :
    ∃ owned, form.leaves uvValue blank nexts (.accepted req) = some owned ∧
      (owned.inputs = false ∧ owned.result = false ∧
          (form.handsOver req = false → owned.late = false) ↔
        form.CleansUpOn nexts (.accepted req)) := by
  obtain ⟨owned, hsteps, hkept⟩ :=
    form.reports_branch (decide (req.result.toInt32 < 0))
  rw [FsForm.leaves, steps_finished, FsForm.owned, hsteps, Option.map_some]
  refine ⟨_, rfl, ?_⟩
  rw [FsForm.CleansUpOn, FsForm.handsOver]
  by_cases hfailed : req.result.toInt32 < 0
  · have hpos : ¬0 ≤ req.result.toInt32 := Int32.not_le.mpr hfailed
    simp only [hfailed, hpos, decide_false, Bool.and_false, Bool.false_eq_true,
      if_false, true_implies, false_implies, and_true]
    simpa [hfailed] using hkept
  · have hpos : 0 ≤ req.result.toInt32 := Int32.not_lt.mp hfailed
    simp only [hfailed, hpos, decide_true, Bool.and_true, true_implies,
      false_implies, true_and]
    simp only [hfailed, decide_false, Bool.not_false, Bool.and_true,
      Bool.false_eq_true, false_implies, true_and] at hkept
    cases hscans : form.scans with
    | false => simpa [hscans] using hkept
    | true =>
        simp only [if_true, Scandir.drop, Scandir.owned_nexts, true_implies]
        by_cases hend : req.dirents.length < nexts
        · simp [hend, FsOwned.cleanup]
        · simpa [hend, hscans] using hkept

end Proofs

/-- A call has everything given back that libuv owned for it exactly if it is
not a failed `fs_mkdtemp_sync` or `fs_mkstemp`, and its `Scandir`, if it hands
one over, is read to the end before it is dropped. -/
theorem fsForm_cleansUp_iff (uvValue : Errno → Int) (blank : Completion)
    (form : FsForm) (nexts : Nat) (submission : FsSubmission) :
    form.CleansUp uvValue blank nexts submission ↔
      form.CleansUpOn nexts submission := by
  cases submission with
  | rejected status hstatus =>
      obtain ⟨owned, hleaves, hinputs, hresult, hlate⟩ :=
        form.steps_rejected uvValue blank hstatus
      exact iff_of_true ⟨owned, hleaves, hinputs, hresult, fun _ => hlate⟩
        trivial
  | accepted req =>
      obtain ⟨owned, hleaves, hkept⟩ :=
        form.leaves_accepted uvValue blank nexts req
      rw [FsForm.CleansUp, ← hkept, hleaves]
      constructor
      · rintro ⟨left, hleft, hempty⟩
        rw [Option.some.injEq] at hleft
        rw [hleft]
        exact hempty
      · intro hempty
        exact ⟨owned, rfl, hempty⟩

namespace FsCleanupWitness

/-- A template that no directory could be made from. -/
def noEntry : Completion where
  result := -2
  ptr := []
  path := []
  statbuf := []
  statfs := []
  dirents := []
  le_result := by decide

/-- A directory with one entry. -/
def oneEntry : Completion where
  result := 1
  ptr := []
  path := []
  statbuf := []
  statfs := []
  dirents := [⟨[97], .file⟩]
  le_result := by decide

end FsCleanupWitness

open FsCleanupWitness in
/-- A failed `fs_mkdtemp_sync` keeps the template, a failed `fs_mkstemp` too,
and a `Scandir` that is dropped unread keeps the entries. -/
theorem mkdtempSync_leaks :
    (FsForm.sync .mkdtemp).leaves Errno.linuxValue noEntry 0
        (.accepted noEntry) = some ⟨true, false, false, true⟩ ∧
      (FsForm.callback .mkstemp).leaves Errno.linuxValue noEntry 0
        (.accepted noEntry) = some ⟨true, false, false, true⟩ ∧
      (FsForm.sync .scandir).leaves Errno.linuxValue noEntry 0
        (.accepted oneEntry) = some ⟨false, true, false, true⟩ ∧
      ¬(FsForm.sync .mkdtemp).CleansUp Errno.linuxValue noEntry 0
        (.accepted noEntry) := by
  refine ⟨rfl, rfl, rfl, ?_⟩
  rintro ⟨owned, hleaves, hinputs, -⟩
  cases hleaves
  cases hinputs

end UvMbt
