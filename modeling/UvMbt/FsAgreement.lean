/-
What the two forms of a file operation hand their caller for one result of
libuv.  The callback form tests and narrows the 64-bit result in its own way
for each operation; the `_sync` form always sees the int the call returns.
-/
import UvMbt.Fs

set_option autoImplicit false

namespace UvMbt

/-- What a form hands its caller. -/
def finalOutcome (actions : List FsAction) : Option (Except Errno FsInfo) :=
  match actions.getLast? with
  | some (.finish outcome) => some outcome
  | _ => none

@[simp] theorem finalOutcome_append_finish (actions : List FsAction)
    (outcome : Except Errno FsInfo) :
    finalOutcome (actions ++ [.finish outcome]) = some outcome := by
  simp [finalOutcome]

theorem finalOutcome_narrowCallback (uvValue : Errno → Int)
    (onError onSuccess : List FsAction)
    (info : Int32 → Completion → FsInfo) (req : Completion) :
    finalOutcome (narrowCallback uvValue onError onSuccess info req) =
      some (if req.result.toInt32 < 0 then
        .error (Errno.ofInt uvValue req.result.toInt32.toInt)
      else .ok (info req.result.toInt32 req)) := by
  unfold narrowCallback
  split <;> simp [*]

theorem finalOutcome_wideCallback (uvValue : Errno → Int)
    (onError onSuccess : List FsAction)
    (info : Int64 → Completion → FsInfo) (req : Completion) :
    finalOutcome (wideCallback uvValue onError onSuccess info req) =
      some (if req.result < 0 then
        .error (Errno.ofInt uvValue req.result.toInt32.toInt)
      else .ok (info req.result req)) := by
  unfold wideCallback
  split <;> simp [*]

theorem finalOutcome_syncReturn (uvValue : Errno → Int)
    (onError onSuccess : List FsAction)
    (info : Int32 → Completion → FsInfo) (status : Int32)
    (req : Completion) :
    finalOutcome (syncReturn uvValue onError onSuccess info status req) =
      some (if status < 0 then
        .error (Errno.ofInt uvValue status.toInt)
      else .ok (info status req)) := by
  unfold syncReturn
  split <;> simp [*]

namespace FsOp

/-- The operations whose result is a number of bytes. -/
def Counts : FsOp → Prop
  | .read | .write | .sendfile => True
  | _ => False

/-- The outcome of the callback form once libuv has finished the request. -/
def callbackOutcome (uvValue : Errno → Int) (op : FsOp) (req : Completion) :
    Option (Except Errno FsInfo) :=
  finalOutcome (op.callback uvValue req)

/-- The outcome of the `_sync` form: its C stub returns the result as an
int. -/
def syncOutcome (uvValue : Errno → Int) (op : FsOp) (req : Completion) :
    Option (Except Errno FsInfo) :=
  finalOutcome (op.sync uvValue req.result.toInt32 req)

/-- The two forms agree on a finished request: the same errors, the same
information, and a byte count as libuv reported it. -/
def Agrees (uvValue : Errno → Int) (op : FsOp) (req : Completion) : Prop :=
  (∀ error, op.syncOutcome uvValue req = some (.error error) ↔
    op.callbackOutcome uvValue req = some (.error error)) ∧
  (∀ info, op.syncOutcome uvValue req = some (.ok info) ↔
    op.callbackOutcome uvValue req = some (.ok info)) ∧
  (op.Counts → 0 ≤ req.result.toInt →
    op.callbackOutcome uvValue req = some (.ok (.count req.result.toInt)) ∧
    op.syncOutcome uvValue req = some (.ok (.count req.result.toInt)))

/-- The results on which the two forms agree. -/
def AgreesOn (op : FsOp) (result : Int64) : Prop :=
  match op with
  | .write => result.toInt < 0
  | .read | .sendfile => result.toInt < 2 ^ 31
  | .close | .fsync | .fdatasync =>
      result.toInt < 2 ^ 31 ∨ 0 ≤ result.toInt32.toInt
  | _ => True

end FsOp

section Narrowing

variable {req : Completion}

theorem toInt32_lt_zero {value : Int32} : value < 0 ↔ value.toInt < 0 :=
  Int32.lt_iff_toInt_lt

theorem toInt64_lt_zero {value : Int64} : value < 0 ↔ value.toInt < 0 :=
  Int64.lt_iff_toInt_lt

/-- A result in the range of an int survives the narrowing. -/
theorem toInt_toInt32_of_lt (hlt : req.result.toInt < 2 ^ 31) :
    req.result.toInt32.toInt = req.result.toInt := by
  have hle := req.le_result
  rw [Int64.toInt_toInt32]
  exact Int.bmod_eq_of_le (by omega) (by omega)

/-- A larger result does not: an int stays below `2 ^ 31`. -/
theorem toInt32_toInt_lt (value : Int32) : value.toInt < 2 ^ 31 :=
  Int32.toInt_lt value

end Narrowing

variable {uvValue : Errno → Int} {op : FsOp} {req : Completion}

/-- Two equal outcomes agree; for a counting operation the count must also be
the one libuv reported. -/
theorem FsOp.agrees_iff_eq
    (hsync : (op.syncOutcome uvValue req).isSome)
    (hcallback : (op.callbackOutcome uvValue req).isSome) :
    op.Agrees uvValue req ↔
      op.syncOutcome uvValue req = op.callbackOutcome uvValue req ∧
      (op.Counts → 0 ≤ req.result.toInt →
        op.syncOutcome uvValue req =
          some (.ok (.count req.result.toInt))) := by
  obtain ⟨sync, hsync⟩ := Option.isSome_iff_exists.mp hsync
  obtain ⟨callback, hcallback⟩ := Option.isSome_iff_exists.mp hcallback
  unfold FsOp.Agrees
  rw [hsync, hcallback]
  constructor
  · rintro ⟨herror, hok, hcount⟩
    refine ⟨?_, fun hcounts hpos => (hcount hcounts hpos).2⟩
    cases callback with
    | error error => exact (herror error).mpr rfl
    | ok info => exact (hok info).mpr rfl
  · rintro ⟨heq, hcount⟩
    rw [heq] at hcount ⊢
    exact ⟨fun _ => Iff.rfl, fun _ => Iff.rfl,
      fun hcounts hpos => ⟨hcount hcounts hpos, hcount hcounts hpos⟩⟩

section Outcomes

variable {onError onSuccess : List FsAction}

theorem FsOp.callbackOutcome_of_narrow
    {info : Int32 → Completion → FsInfo}
    (hform : op.callback uvValue =
      narrowCallback uvValue onError onSuccess info) (req : Completion) :
    op.callbackOutcome uvValue req =
      some (if req.result.toInt32 < 0 then
        .error (Errno.ofInt uvValue req.result.toInt32.toInt)
      else .ok (info req.result.toInt32 req)) := by
  rw [FsOp.callbackOutcome, hform, finalOutcome_narrowCallback]

theorem FsOp.callbackOutcome_of_wide
    {info : Int64 → Completion → FsInfo}
    (hform : op.callback uvValue =
      wideCallback uvValue onError onSuccess info) (req : Completion) :
    op.callbackOutcome uvValue req =
      some (if req.result < 0 then
        .error (Errno.ofInt uvValue req.result.toInt32.toInt)
      else .ok (info req.result req)) := by
  rw [FsOp.callbackOutcome, hform, finalOutcome_wideCallback]

theorem FsOp.syncOutcome_of_syncReturn
    {info : Int32 → Completion → FsInfo}
    (hform : op.sync uvValue = syncReturn uvValue onError onSuccess info)
    (req : Completion) :
    op.syncOutcome uvValue req =
      some (if req.result.toInt32 < 0 then
        .error (Errno.ofInt uvValue req.result.toInt32.toInt)
      else .ok (info req.result.toInt32 req)) := by
  rw [FsOp.syncOutcome, hform, finalOutcome_syncReturn]

end Outcomes

/-- An operation whose forms narrow first and read the same information
agrees on every result. -/
theorem FsOp.agrees_of_narrow {onError onSuccess onErrorSync onSuccessSync :
      List FsAction} {info : Int32 → Completion → FsInfo}
    (hcallback : op.callback uvValue =
      narrowCallback uvValue onError onSuccess info)
    (hsync : op.sync uvValue =
      syncReturn uvValue onErrorSync onSuccessSync info)
    (hcounts : ¬op.Counts) : op.Agrees uvValue req := by
  have hcallback' := FsOp.callbackOutcome_of_narrow hcallback req
  have hsync' := FsOp.syncOutcome_of_syncReturn hsync req
  rw [FsOp.agrees_iff_eq (by simp [hsync']) (by simp [hcallback']), hsync',
    hcallback']
  exact ⟨rfl, fun h => absurd h hcounts⟩

/-- An operation whose callback tests the 64-bit result and reports success
alone agrees unless the narrowed result turns negative. -/
theorem FsOp.agrees_iff_of_wide {onError onSuccess onErrorSync onSuccessSync :
      List FsAction}
    (hcallback : op.callback uvValue =
      wideCallback uvValue onError onSuccess (fun _ _ => .unit))
    (hsync : op.sync uvValue =
      syncReturn uvValue onErrorSync onSuccessSync (fun _ _ => .unit))
    (hcounts : ¬op.Counts) :
    op.Agrees uvValue req ↔
      req.result.toInt < 2 ^ 31 ∨ 0 ≤ req.result.toInt32.toInt := by
  have hcallback' := FsOp.callbackOutcome_of_wide hcallback req
  have hsync' := FsOp.syncOutcome_of_syncReturn hsync req
  rw [FsOp.agrees_iff_eq (by simp [hsync']) (by simp [hcallback']), hsync',
    hcallback']
  simp only [toInt32_lt_zero, toInt64_lt_zero, hcounts, false_implies,
    and_true, Option.some.injEq]
  constructor
  · intro heq
    by_contra hnot
    rw [if_pos (by omega), if_neg (by omega)] at heq
    cases heq
  · rintro (hlt | hpos)
    · rw [toInt_toInt32_of_lt hlt]
    · rw [if_neg (by omega)]
      by_cases hneg : req.result.toInt < 0
      · rw [toInt_toInt32_of_lt (by omega)] at hpos
        omega
      · rw [if_neg hneg]

/-- An operation whose forms both report a count agrees on the counts that an
int holds. -/
theorem FsOp.agrees_iff_of_count {onError onSuccess onErrorSync onSuccessSync :
      List FsAction} {count : Int64 → Int} {countSync : Int32 → Int}
    (hcallback : op.callback uvValue =
      wideCallback uvValue onError onSuccess
        (fun result _ => .count (count result)))
    (hsync : op.sync uvValue =
      syncReturn uvValue onErrorSync onSuccessSync
        (fun status _ => .count (countSync status)))
    (hcounts : op.Counts)
    (hcount : req.result.toInt < 2 ^ 31 →
      count req.result = req.result.toInt)
    (hcountSync : ∀ status, countSync status = status.toInt) :
    op.Agrees uvValue req ↔ req.result.toInt < 2 ^ 31 := by
  have hcallback' := FsOp.callbackOutcome_of_wide hcallback req
  have hsync' := FsOp.syncOutcome_of_syncReturn hsync req
  rw [FsOp.agrees_iff_eq (by simp [hsync']) (by simp [hcallback']), hsync',
    hcallback']
  simp only [toInt32_lt_zero, toInt64_lt_zero, hcounts, true_implies,
    Option.some.injEq, hcountSync]
  constructor
  · rintro ⟨_, hsame⟩
    by_contra hlarge
    have heq := hsame (by omega)
    have hsmall := toInt32_toInt_lt req.result.toInt32
    split at heq
    · cases heq
    · simp only [Except.ok.injEq, FsInfo.count.injEq] at heq
      omega
  · intro hlt
    rw [toInt_toInt32_of_lt hlt, hcount hlt]
    exact ⟨rfl, fun hpos => if_neg (by omega)⟩

theorem FsOp.read_agrees_iff :
    FsOp.read.Agrees uvValue req ↔ req.result.toInt < 2 ^ 31 := by
  have hcallback : FsOp.read.callback uvValue =
      wideCallback uvValue [.cleanup] [.cleanup]
        (fun result _ => .count result.toInt32.toInt) := rfl
  have hsync : FsOp.read.sync uvValue =
      syncReturn uvValue [] [] (fun status _ => .count status.toInt) := rfl
  apply FsOp.agrees_iff_of_count hcallback hsync trivial
  · intro hlt
    exact toInt_toInt32_of_lt hlt
  · intro status
    rfl

theorem FsOp.sendfile_agrees_iff :
    FsOp.sendfile.Agrees uvValue req ↔ req.result.toInt < 2 ^ 31 := by
  have hcallback : FsOp.sendfile.callback uvValue =
      wideCallback uvValue [.cleanup] [.cleanup]
        (fun result _ => .count result.toInt) := rfl
  have hsync : FsOp.sendfile.sync uvValue =
      syncReturn uvValue [] [] (fun status _ => .count status.toInt64.toInt) :=
    rfl
  apply FsOp.agrees_iff_of_count hcallback hsync trivial
  · intro _
    rfl
  · intro status
    exact Int32.toInt_toInt64 status

/-- `fs_write_sync` returns nothing where `fs_write` reports the count, so the
forms agree on errors alone. -/
theorem FsOp.write_agrees_iff :
    FsOp.write.Agrees uvValue req ↔ req.result.toInt < 0 := by
  have hcallback := FsOp.callbackOutcome_of_narrow
    (show FsOp.write.callback uvValue =
      narrowCallback uvValue [.cleanup] [.cleanup]
        (fun result _ => .count result.toInt) from rfl) req
  have hsync := FsOp.syncOutcome_of_syncReturn
    (show FsOp.write.sync uvValue = syncReturn uvValue _ _ _ from rfl) req
  rw [FsOp.agrees_iff_eq (by simp [hsync]) (by simp [hcallback]), hsync,
    hcallback]
  simp only [toInt32_lt_zero, FsOp.Counts, true_implies, Option.some.injEq]
  constructor
  · rintro ⟨_, hcount⟩
    by_contra hpos
    have heq := hcount (by omega)
    split at heq
    · cases heq
    · cases heq
  · intro hneg
    rw [toInt_toInt32_of_lt (by omega), if_pos hneg, if_pos hneg]
    exact ⟨rfl, fun hpos => absurd hpos (by omega)⟩

theorem FsOp.agrees_iff_agreesOn :
    op.Agrees uvValue req ↔ op.AgreesOn req.result := by
  cases op with
  | read => exact FsOp.read_agrees_iff
  | write => exact FsOp.write_agrees_iff
  | sendfile => exact FsOp.sendfile_agrees_iff
  | close | fsync | fdatasync =>
      exact FsOp.agrees_iff_of_wide rfl rfl (fun h => h)
  | _ =>
      exact iff_of_true (FsOp.agrees_of_narrow rfl rfl (fun h => h)) trivial

/-- What the C stub of a callback form returns: libuv rejects the arguments
with a status, or takes the request and finishes it later. -/
inductive FsSubmission where
  | rejected (status : Int32) (hstatus : status < 0)
  | accepted (req : Completion)

/-- A call of the callback form raises, or its callback runs later. -/
def FsOp.call (uvValue : Errno → Int) (op : FsOp) :
    FsSubmission → Except Errno (Option (Except Errno FsInfo))
  | .rejected status _ => .error (Errno.ofInt uvValue status.toInt)
  | .accepted req => .ok (op.callbackOutcome uvValue req)

/-- A call of the `_sync` form; a rejected request is left as `blank`. -/
def FsOp.callSync (uvValue : Errno → Int) (op : FsOp) (blank : Completion) :
    FsSubmission → Option (Except Errno FsInfo)
  | .rejected status _ => finalOutcome (op.sync uvValue status blank)
  | .accepted req => op.syncOutcome uvValue req

/-- Arguments that libuv rejects make both forms raise the same error. -/
theorem FsOp.callSync_rejected (uvValue : Errno → Int) (op : FsOp)
    (blank : Completion) (status : Int32) (hstatus : status < 0) :
    op.callSync uvValue blank (.rejected status hstatus) =
        some (.error (Errno.ofInt uvValue status.toInt)) ∧
      op.call uvValue (.rejected status hstatus) =
        .error (Errno.ofInt uvValue status.toInt) := by
  refine ⟨?_, rfl⟩
  have hform : ∃ onError onSuccess info,
      op.sync uvValue = syncReturn uvValue onError onSuccess info := by
    cases op <;> exact ⟨_, _, _, rfl⟩
  obtain ⟨onError, onSuccess, info, hform⟩ := hform
  rw [FsOp.callSync, hform, finalOutcome_syncReturn, if_pos hstatus]

/-- The two forms agree on a call: they raise the same error where libuv
rejects the arguments, and agree on the result where it takes them. -/
def FsOp.FormsAgree (uvValue : Errno → Int) (op : FsOp) (blank : Completion) :
    FsSubmission → Prop
  | .rejected status hstatus => ∃ error,
      op.callSync uvValue blank (.rejected status hstatus) =
        some (.error error) ∧
      op.call uvValue (.rejected status hstatus) = .error error
  | .accepted req => op.Agrees uvValue req

/-- The calls on which the two forms agree. -/
def FsOp.FormsAgreeOn (op : FsOp) : FsSubmission → Prop
  | .rejected _ _ => True
  | .accepted req => op.AgreesOn req.result

/-- The callback form and the `_sync` form of an operation agree on a call
exactly when the result keeps its sign in an int, fits one where it is a byte
count, and is an error where the operation is `write`. -/
theorem fsForms_agree_iff (uvValue : Errno → Int) (op : FsOp)
    (blank : Completion) (submission : FsSubmission) :
    op.FormsAgree uvValue blank submission ↔ op.FormsAgreeOn submission := by
  cases submission with
  | rejected status hstatus =>
      exact iff_of_true
        ⟨_, FsOp.callSync_rejected uvValue op blank status hstatus⟩ trivial
  | accepted req => exact FsOp.agrees_iff_agreesOn

namespace FsWitness

/-- A write that stored three bytes of a longer buffer. -/
def shortWrite : Completion where
  result := 3
  ptr := []
  path := []
  statbuf := []
  statfs := []
  dirents := []
  le_result := by decide

end FsWitness

open FsWitness in
/-- A short write: `fs_write` reports three bytes, `fs_write_sync` returns as
if all had been written. -/
theorem fsWrite_forms_disagree :
    FsOp.write.callbackOutcome Errno.linuxValue shortWrite =
        some (.ok (.count 3)) ∧
      FsOp.write.syncOutcome Errno.linuxValue shortWrite =
        some (.ok .unit) ∧
      ¬FsOp.write.FormsAgree Errno.linuxValue shortWrite
        (.accepted shortWrite) := by
  refine ⟨rfl, rfl, ?_⟩
  intro hagree
  exact absurd (FsOp.write_agrees_iff.mp hagree) (by decide)

end UvMbt
