/-
The title of the process: `get_process_title` doubles its buffer as long as
libuv answers `ENOBUFS`, which libuv also does when the setup of the arguments
left it without any title.
-/
import UvMbt.Args
import UvMbt.Getters
import UvMbt.WhileLoop

set_option autoImplicit false

namespace UvMbt.ProcessTitle

open Getters (Failure Fault store wrap makeBytes)
open GuardedRun (bind_eq_ok)

/-- A title ends at its NUL. -/
structure Title where
  text : List UInt8
  noNul : 0 ∉ text

section Libuv

variable (uvValue : Errno → Int)

/-- What libuv finds when it is called: the title at that time, or an error. -/
abbrev Moment := Except (Failure uvValue) Title

/-- A process: whether `fn init` has run, what it starts from, whether libuv
has memory for a copy of the arguments, and what each call will find.
`uv_library_shutdown`, after which libuv allows no call, is not called
before. -/
structure Process where
  ran : Bool
  argv : Args.Argv
  malloc : (size : Nat) → Option (Args.Block size)
  copies : Bool
  moments : Nat → Moment uvValue

variable {uvValue}

/-- `uv_setup_args`: whether `args_mem` is set. -/
def uvSetupArgs (argc : Nat) (copies : Bool) : Bool :=
  decide (0 < argc) && copies

/-- `args_mem` after `fn init`, which drops the status of the stub. -/
def Process.argsMem (process : Process uvValue) : Bool :=
  process.ran &&
    match Args.setupArgs uvValue process.malloc process.argv with
    | some ⟨_, some (argc, _)⟩ => uvSetupArgs argc process.copies
    | _ => false

/-- `uv_get_process_title` at one of the calls. -/
def uvGetProcessTitle (process : Process uvValue) (call : Nat)
    (buffer : List UInt8) : Except Fault (Int × List UInt8) :=
  if buffer.length = 0 then .ok (uvValue .EINVAL, buffer)
  else if process.argsMem = false then .ok (uvValue .ENOBUFS, buffer)
  else
    match process.moments call with
    | .error failure => .ok (failure.status, buffer)
    | .ok title =>
        if buffer.length ≤ title.text.length then
          .ok (uvValue .ENOBUFS, buffer)
        else do
          let buffer ← store buffer title.text
          return (0, buffer)

end Libuv

section Binding

variable {uvValue : Errno → Int}

/-- The lengths asked of `FixedArray::make`, each with the length of the array
that it made, and the result. -/
structure Answer where
  made : List (Int × Nat)
  outcome : Except Errno (List UInt8)

/-- The variables of the loop, with the arrays made so far. -/
structure Attempt where
  made : List (Int × Nat)
  buffer : List UInt8
  status : Int

/-- A new buffer and a call with it. -/
def attempt (make : Int → Except Fault (List UInt8))
    (process : Process uvValue) (made : List (Int × Nat)) (size : Int) :
    Except Fault Attempt := do
  let buffer ← make size
  let (status, after) ← uvGetProcessTitle process made.length buffer
  return ⟨made ++ [(size, buffer.length)], after, status⟩

/-- What follows the loop: the title is what lies before the first NUL. -/
def conclude (uvValue : Errno → Int) (status : Int) (buffer : List UInt8) :
    Except Errno (List UInt8) :=
  if status < 0 then .error (Errno.ofInt uvValue status)
  else .ok (buffer.take ((CString.strlen buffer).getD buffer.length))

/-- `while status == _ENOBUFS`. -/
def round (make : Int → Except Fault (List UInt8))
    (process : Process uvValue) (state : Attempt) :
    Sum Attempt (Except Fault Answer) :=
  if state.status = uvValue .ENOBUFS then
    match attempt make process state.made
      (wrap ((state.buffer.length : Int) * 2)) with
    | .ok next => .inl next
    | .error fault => .inr (.error fault)
  else .inr (.ok ⟨state.made, conclude uvValue state.status state.buffer⟩)

/-- `get_process_title`, with `FixedArray::make` of the runtime. -/
def getProcessTitle (make : Int → Except Fault (List UInt8))
    (process : Process uvValue) (fuel : Nat) : Option (Except Fault Answer) :=
  match attempt make process [] 512 with
  | .error fault => some (.error fault)
  | .ok first => WhileLoop.run (round make process) fuel first

end Binding

section Statement

variable {uvValue : Errno → Int}

/-- The length of a buffer, before any arithmetic of the machine. -/
def doubled (tries : Nat) : Nat := 512 * 2 ^ tries

/-- Every buffer was asked for and made with twice the length of the one
before. -/
def Fair (made : List (Int × Nat)) : Prop :=
  ∀ index entry, made[index]? = some entry →
    entry = ((doubled index : Int), doubled index)

/-- The title that a call found, or the error that it met. -/
def Process.Exact (process : Process uvValue) (call : Nat) :
    Except Errno (List UInt8) → Prop
  | .error error => ∃ failure, process.moments call = .error failure ∧
      error = Errno.ofInt uvValue failure.status
  | .ok text => ∃ title, process.moments call = .ok title ∧ text = title.text

/-- An answer without a length that is not the double of the one before, with
what the last call found. -/
def Process.Right (process : Process uvValue) (answer : Answer) : Prop :=
  ∃ last, answer.made.length = last + 1 ∧ Fair answer.made ∧
    process.Exact last answer.outcome

/-- The function returns, and rightly so. -/
def Process.Sound (make : Int → Except Fault (List UInt8))
    (process : Process uvValue) : Prop :=
  ∃ answer, WhileLoop.Ends (getProcessTitle make process) (.ok answer) ∧
    process.Right answer

/-- The setup has run, with at least one argument and with memory for both
copies. -/
def Process.Prepared (process : Process uvValue) : Prop :=
  process.ran = true ∧ process.argv.items ≠ [] ∧
    (process.malloc (Args.blockSize process.argv)).isSome = true ∧
    process.copies = true

/-- A call with a buffer of some size does not find the buffer too small. -/
def Process.Answers (process : Process uvValue) (call size : Nat) : Prop :=
  process.Prepared ∧
    ∀ title, process.moments call = .ok title → title.text.length < size

/-- The array that a call needs can be made, and its length fits an `Int`. -/
def Makes (make : Int → Except Fault (List UInt8)) (call : Nat) : Prop :=
  doubled call < 2 ^ 31 ∧
    ∃ buffer, make (doubled call) = .ok buffer ∧ buffer.length = doubled call

/-- One of the calls has a buffer that can be made and is large enough. -/
def Process.Fits (make : Int → Except Fault (List UInt8))
    (process : Process uvValue) : Prop :=
  ∃ tries, (∀ call, call ≤ tries → Makes make call) ∧
    process.Answers tries (doubled tries)

end Statement

section Calls

variable {uvValue : Errno → Int} {process : Process uvValue} {call : Nat}
  {buffer : List UInt8}

/-- libuv has the arguments exactly after a setup that worked. -/
theorem argsMem_iff : process.argsMem = true ↔ process.Prepared := by
  rw [Process.argsMem, Process.Prepared, Bool.and_eq_true]
  cases hmalloc : process.malloc (Args.blockSize process.argv) with
  | none =>
      rw [Args.setupArgs, hmalloc]
      simp
  | some block =>
      obtain ⟨last, hsetup, _⟩ :=
        Args.setupArgs_block uvValue process.malloc process.argv hmalloc
      rw [hsetup]
      simp [uvSetupArgs, List.length_pos_iff]

theorem uv_refuses (hsize : 0 < buffer.length)
    (hnot : ¬ process.Answers call buffer.length) :
    uvGetProcessTitle process call buffer =
      .ok (uvValue .ENOBUFS, buffer) := by
  rw [uvGetProcessTitle, if_neg (by omega)]
  by_cases hprepared : process.Prepared
  · have hmem := argsMem_iff.mpr hprepared
    rw [if_neg (by rw [hmem]; decide)]
    cases hmoment : process.moments call with
    | error failure =>
        refine absurd ⟨hprepared, ?_⟩ hnot
        intro title htitle
        rw [hmoment] at htitle
        cases htitle
    | ok title =>
        by_cases hle : buffer.length ≤ title.text.length
        · exact if_pos hle
        · refine absurd ⟨hprepared, ?_⟩ hnot
          intro found hfound
          rw [hmoment] at hfound
          cases hfound
          omega
  · have hmem : process.argsMem = false := by
      rw [← Bool.not_eq_true, argsMem_iff]
      exact hprepared
    exact if_pos hmem

theorem conclude_title (title : Title) (rest : List UInt8) :
    conclude uvValue 0 (title.text ++ 0 :: rest) = .ok title.text := by
  rw [conclude, if_neg (by omega),
    CString.strlen_append title.text rest title.noNul, Option.getD_some,
    List.take_left]

theorem uv_answers (henobufs : uvValue .ENOBUFS < 0)
    (hsize : 0 < buffer.length)
    (hanswers : process.Answers call buffer.length) :
    ∃ status after, uvGetProcessTitle process call buffer =
        .ok (status, after) ∧ status ≠ uvValue .ENOBUFS ∧
      process.Exact call (conclude uvValue status after) := by
  obtain ⟨hprepared, hfits⟩ := hanswers
  have hmem := argsMem_iff.mpr hprepared
  rw [uvGetProcessTitle, if_neg (by omega), if_neg (by rw [hmem]; decide)]
  cases hmoment : process.moments call with
  | error failure =>
      refine ⟨failure.status, buffer, rfl, failure.other, ?_⟩
      rw [conclude, if_pos failure.negative]
      exact ⟨failure, hmoment, rfl⟩
  | ok title =>
      have hlt := hfits title hmoment
      have hstore : store buffer title.text =
          .ok (title.text ++ 0 :: buffer.drop (title.text.length + 1)) :=
        if_pos hlt
      refine ⟨0, title.text ++ 0 :: buffer.drop (title.text.length + 1), ?_,
        by omega, ?_⟩
      · simp only [if_neg (Nat.not_le.mpr hlt), hstore]
        rfl
      · rw [conclude_title]
        exact ⟨title, hmoment, rfl⟩

/-- Every call returns. -/
theorem uv_returns (henobufs : uvValue .ENOBUFS < 0)
    (hsize : 0 < buffer.length) :
    ∃ status after, uvGetProcessTitle process call buffer =
      .ok (status, after) := by
  by_cases hanswers : process.Answers call buffer.length
  · obtain ⟨status, after, huv, _⟩ := uv_answers henobufs hsize hanswers
    exact ⟨status, after, huv⟩
  · exact ⟨_, _, uv_refuses hsize hanswers⟩

end Calls

section Lengths

theorem doubled_pos (tries : Nat) : 0 < doubled tries :=
  Nat.mul_pos (by omega) (Nat.two_pow_pos _)

theorem doubled_succ (tries : Nat) :
    doubled (tries + 1) = doubled tries * 2 := by
  rw [doubled, doubled, Nat.pow_succ, Nat.mul_assoc]

theorem wrap_double {tries : Nat} (hfits : doubled (tries + 1) < 2 ^ 31) :
    wrap ((doubled tries : Int) * 2) = doubled (tries + 1) := by
  rw [doubled_succ] at hfits ⊢
  rw [Getters.wrap_eq (by omega) (by omega)]
  omega

variable {made more : List (Int × Nat)}

theorem Fair.concat (hmade : Fair made) :
    Fair (made ++ [((doubled made.length : Int), doubled made.length)]) := by
  intro index entry hentry
  rcases Nat.lt_trichotomy index made.length with hlt | rfl | hgt
  · rw [List.getElem?_append_left hlt] at hentry
    exact hmade index entry hentry
  · rw [List.getElem?_concat_length] at hentry
    exact (Option.some.inj hentry).symm
  · rw [List.getElem?_eq_none (by simp; omega)] at hentry
    cases hentry

theorem Fair.of_prefix (hmore : Fair more) (hmade : made <+: more) :
    Fair made := by
  obtain ⟨rest, rfl⟩ := hmade
  intro index entry hentry
  have hlt := (List.getElem?_eq_some_iff.mp hentry).choose
  apply hmore
  rw [List.getElem?_append_left hlt]
  exact hentry

theorem Fair.last {entry : Int × Nat} (hfair : Fair (made ++ [entry])) :
    entry = ((doubled made.length : Int), doubled made.length) :=
  hfair made.length entry List.getElem?_concat_length

end Lengths

section Loop

variable {uvValue : Errno → Int} {process : Process uvValue}
  {make : Int → Except Fault (List UInt8)} {tries : Nat}
  {made : List (Int × Nat)} {state : Attempt}

theorem attempt_eq_ok {size : Int}
    (hattempt : attempt make process made size = .ok state) :
    ∃ buffer, make size = .ok buffer ∧
      uvGetProcessTitle process made.length buffer =
        .ok (state.status, state.buffer) ∧
      state.made = made ++ [(size, buffer.length)] := by
  obtain ⟨buffer, hmake, hattempt⟩ := bind_eq_ok hattempt
  obtain ⟨⟨status, after⟩, huv, hstate⟩ := bind_eq_ok hattempt
  cases hstate
  exact ⟨buffer, hmake, huv, rfl⟩

/-- The loop after a number of tries, none of which went wrong. -/
structure Held (make : Int → Except Fault (List UInt8))
    (process : Process uvValue) (tries : Nat) (state : Attempt) : Prop where
  length_made : state.made.length = tries + 1
  fair : Fair state.made
  makes : ∀ call, call ≤ tries → Makes make call
  called : ∃ buffer, buffer.length = doubled tries ∧
    uvGetProcessTitle process tries buffer = .ok (state.status, state.buffer)

theorem attempt_held (henobufs : uvValue .ENOBUFS < 0) (hfair : Fair made)
    (hmakes : ∀ call, call ≤ made.length → Makes make call) :
    ∃ next, attempt make process made (doubled made.length) = .ok next ∧
      Held make process made.length next := by
  obtain ⟨_, buffer, hmake, hlength⟩ := hmakes _ (Nat.le_refl _)
  have hsize : 0 < buffer.length := by
    rw [hlength]
    exact doubled_pos _
  obtain ⟨status, after, huv⟩ :=
    @uv_returns uvValue process made.length buffer henobufs hsize
  refine ⟨⟨made ++ [((doubled made.length : Int), buffer.length)], after,
    status⟩, ?_, ?_⟩
  · simp only [attempt, hmake, huv, bind, Except.bind, pure, Except.pure]
  · constructor
    · exact List.length_append
    · rw [hlength]
      exact hfair.concat
    · exact hmakes
    · exact ⟨buffer, hlength, huv⟩

/-- An attempt that is fair held on to the lengths. -/
theorem held_of_attempt {size : Int} (hsize : size < 2 ^ 31)
    (hmakes : ∀ call, call < made.length → Makes make call)
    (hattempt : attempt make process made size = .ok state)
    (hfair : Fair state.made) : Held make process made.length state := by
  obtain ⟨buffer, hmake, huv, hmade⟩ := attempt_eq_ok hattempt
  have hlast := hfair
  rw [hmade] at hlast
  obtain ⟨hrequest, hlength⟩ := Prod.mk.inj hlast.last
  constructor
  · rw [hmade]
    exact List.length_append
  · exact hfair
  · intro call hcall
    rcases Nat.lt_or_eq_of_le hcall with hlt | rfl
    · exact hmakes call hlt
    · rw [hrequest] at hmake hsize
      exact ⟨by omega, buffer, hmake, hlength⟩
  · exact ⟨buffer, hlength, huv⟩

theorem Held.status_of_not (hheld : Held make process tries state)
    (hnot : ¬ process.Answers tries (doubled tries)) :
    state.status = uvValue .ENOBUFS ∧
      state.buffer.length = doubled tries := by
  obtain ⟨buffer, hlength, huv⟩ := hheld.called
  rw [← hlength] at hnot
  rw [uv_refuses (by rw [hlength]; exact doubled_pos _) hnot] at huv
  obtain ⟨hstatus, hbuffer⟩ := Prod.mk.inj (Except.ok.inj huv)
  exact ⟨hstatus.symm, hbuffer ▸ hlength⟩

theorem Held.status_of_answers (hheld : Held make process tries state)
    (henobufs : uvValue .ENOBUFS < 0)
    (hanswers : process.Answers tries (doubled tries)) :
    state.status ≠ uvValue .ENOBUFS ∧
      process.Exact tries (conclude uvValue state.status state.buffer) := by
  obtain ⟨buffer, hlength, huv⟩ := hheld.called
  rw [← hlength] at hanswers
  obtain ⟨status, after, hresult, hstatus⟩ :=
    uv_answers henobufs (by rw [hlength]; exact doubled_pos _) hanswers
  rw [hresult] at huv
  cases huv
  exact hstatus

/-- A round after a buffer that was too small. -/
theorem Held.round_of_not (hheld : Held make process tries state)
    (hnot : ¬ process.Answers tries (doubled tries)) :
    round make process state =
      match attempt make process state.made
        (wrap ((doubled tries : Int) * 2)) with
      | .ok next => .inl next
      | .error fault => .inr (.error fault) := by
  obtain ⟨hstatus, hlength⟩ := hheld.status_of_not hnot
  rw [round, if_pos hstatus, hlength]

theorem Held.run_now (hheld : Held make process tries state)
    (henobufs : uvValue .ENOBUFS < 0)
    (hanswers : process.Answers tries (doubled tries)) :
    ∃ answer, WhileLoop.run (round make process) 1 state =
        some (.ok answer) ∧ process.Right answer := by
  obtain ⟨hstatus, hexact⟩ := hheld.status_of_answers henobufs hanswers
  refine ⟨⟨state.made, conclude uvValue state.status state.buffer⟩, ?_, tries,
    hheld.length_made, hheld.fair, hexact⟩
  rw [WhileLoop.run, round, if_neg hstatus]

/-- A loop that holds on to the lengths ends at the first buffer that is large
enough. -/
theorem Held.run_ends (henobufs : uvValue .ENOBUFS < 0)
    {count : Nat} (hheld : Held make process tries state)
    (hmakes : ∀ call, call ≤ tries + count → Makes make call)
    (hanswers : process.Answers (tries + count) (doubled (tries + count))) :
    ∃ fuel answer, WhileLoop.run (round make process) fuel state =
        some (.ok answer) ∧ process.Right answer := by
  induction count generalizing tries state with
  | zero => exact ⟨1, hheld.run_now henobufs hanswers⟩
  | succ count ih =>
      by_cases hnow : process.Answers tries (doubled tries)
      · exact ⟨1, hheld.run_now henobufs hnow⟩
      · have hsum : tries + (count + 1) = tries + 1 + count := by omega
        rw [hsum] at hmakes hanswers
        have hmakesNext : ∀ call, call ≤ state.made.length →
            Makes make call := by
          intro call hcall
          rw [hheld.length_made] at hcall
          exact hmakes call (by omega)
        obtain ⟨next, hattempt, hnext⟩ :=
          @attempt_held uvValue process make state.made henobufs hheld.fair
            hmakesNext
        rw [hheld.length_made] at hattempt hnext
        have hround := hheld.round_of_not hnow
        rw [wrap_double (hmakes _ (by omega)).1, hattempt] at hround
        obtain ⟨fuel, hrun⟩ := ih hnext hmakes hanswers
        refine ⟨fuel + 1, ?_⟩
        rw [WhileLoop.run, hround]
        exact hrun

/-- Arrays are only added to those made. -/
theorem prefix_of_run {fuel : Nat} {answer : Answer}
    (hrun : WhileLoop.run (round make process) fuel state =
      some (.ok answer)) : state.made <+: answer.made := by
  induction fuel generalizing state with
  | zero => cases hrun
  | succ fuel ih =>
      rw [WhileLoop.run, round] at hrun
      by_cases hstatus : state.status = uvValue .ENOBUFS
      · rw [if_pos hstatus] at hrun
        cases hattempt : attempt make process state.made
            (wrap ((state.buffer.length : Int) * 2)) with
        | error fault =>
            rw [hattempt] at hrun
            cases hrun
        | ok next =>
            rw [hattempt] at hrun
            obtain ⟨buffer, _, _, hmade⟩ := attempt_eq_ok hattempt
            exact (hmade ▸ List.prefix_append _ _).trans (ih hrun)
      · rw [if_neg hstatus] at hrun
        cases hrun
        exact List.prefix_rfl

/-- A loop that ended with fair lengths came to a buffer large enough. -/
theorem Held.fits_of_run {fuel : Nat} {answer : Answer}
    (hheld : Held make process tries state)
    (hrun : WhileLoop.run (round make process) fuel state =
      some (.ok answer)) (hfair : Fair answer.made) : process.Fits make := by
  induction fuel generalizing tries state with
  | zero => cases hrun
  | succ fuel ih =>
      by_cases hnow : process.Answers tries (doubled tries)
      · exact ⟨tries, hheld.makes, hnow⟩
      · rw [WhileLoop.run, hheld.round_of_not hnow] at hrun
        cases hattempt : attempt make process state.made
            (wrap ((doubled tries : Int) * 2)) with
        | error fault =>
            rw [hattempt] at hrun
            cases hrun
        | ok next =>
            rw [hattempt] at hrun
            have hnext : Held make process state.made.length next := by
              apply held_of_attempt (Getters.wrap_lt _) _ hattempt
              · exact hfair.of_prefix (prefix_of_run hrun)
              · intro call hcall
                rw [hheld.length_made] at hcall
                exact hheld.makes call (Nat.lt_succ_iff.mp hcall)
            exact ih hnext hrun

end Loop

section Result

variable {uvValue : Errno → Int} {process : Process uvValue}
  {make : Int → Except Fault (List UInt8)}

theorem fair_nil : Fair [] := by
  intro index entry hentry
  cases hentry

theorem sound_of_fits (henobufs : uvValue .ENOBUFS < 0)
    (hfits : process.Fits make) : process.Sound make := by
  obtain ⟨tries, hmakes, hanswers⟩ := hfits
  obtain ⟨first, hattempt, hheld⟩ :=
    @attempt_held uvValue process make [] henobufs fair_nil
      (fun call hcall => hmakes call (Nat.le_trans hcall (Nat.zero_le _)))
  rw [← Nat.zero_add tries] at hmakes hanswers
  obtain ⟨fuel, answer, hrun, hright⟩ :=
    hheld.run_ends henobufs hmakes hanswers
  refine ⟨answer, ?_, hright⟩
  have hstart : attempt make process [] 512 = .ok first := hattempt
  have hends := WhileLoop.ends_of_run hrun
  simp only [WhileLoop.Ends, getProcessTitle, hstart]
  exact hends

theorem fits_of_sound (hsound : process.Sound make) : process.Fits make := by
  obtain ⟨answer, ⟨fuel, hends⟩, last, hlength, hfair, _⟩ := hsound
  have hrun := hends fuel (Nat.le_refl _)
  rw [getProcessTitle] at hrun
  cases hattempt : attempt make process [] 512 with
  | error fault =>
      rw [hattempt] at hrun
      cases hrun
  | ok first =>
      rw [hattempt] at hrun
      have hheld : Held make process 0 first := by
        apply held_of_attempt _ _ hattempt
        · exact hfair.of_prefix (prefix_of_run hrun)
        · omega
        · intro call hcall
          exact absurd hcall (Nat.not_lt_zero _)
      exact hheld.fits_of_run hrun hfair

end Result

/-- The title is returned, or an error is raised, exactly when libuv was set up
and some buffer that the loop can still make is longer than the title. -/
theorem sound_iff_fits {uvValue : Errno → Int}
    (make : Int → Except Fault (List UInt8)) (process : Process uvValue)
    (henobufs : uvValue .ENOBUFS < 0) :
    process.Sound make ↔ process.Fits make :=
  ⟨fits_of_sound, sound_of_fits henobufs⟩

/-- A process with some arguments, all of whose calls find a title that the
first buffer has no room for. -/
def sampleProcess (items : List Args.Bytes) (hlength : items.length < 2 ^ 31) :
    Process Errno.linuxValue where
  ran := true
  argv := ⟨items, hlength⟩
  malloc := Args.freshBlock 4096
  copies := true
  moments _ := .ok ⟨List.replicate 600 97, fun hzero => by
    cases List.eq_of_mem_replicate hzero⟩

theorem sampleProcess_sound :
    (sampleProcess [⟨[97], by decide⟩] (by decide)).Sound makeBytes := by
  apply (sound_iff_fits makeBytes _ (by decide)).mpr
  refine ⟨1, ?_, ⟨rfl, List.cons_ne_nil _ _, by decide, rfl⟩, ?_⟩
  · intro call hcall
    have hdoubled : doubled call < 2 ^ 31 := by
      rcases Nat.le_one_iff_eq_zero_or_eq_one.mp hcall with rfl | rfl
      · decide
      · decide
    exact ⟨hdoubled, _, Getters.makeBytes_natCast _, List.length_replicate⟩
  · intro title htitle
    cases htitle
    rw [List.length_replicate]
    decide

section Wrapped

variable {uvValue : Errno → Int} {process : Process uvValue}

/-- The loop after a number of tries with plain arrays. -/
def refused (uvValue : Errno → Int) (tries : Nat) : Attempt where
  made := (List.range (tries + 1)).map
    (fun call => ((doubled call : Int), doubled call))
  buffer := List.replicate (doubled tries) 0
  status := uvValue .ENOBUFS

theorem attempt_refused (hprepared : ¬ process.Prepared) {tries : Nat}
    {made : List (Int × Nat)} (hmade : made = (List.range tries).map
      (fun call => ((doubled call : Int), doubled call))) :
    attempt makeBytes process made (doubled tries) =
      .ok (refused uvValue tries) := by
  subst hmade
  have hlength : (List.replicate (doubled tries) (0 : UInt8)).length =
      doubled tries := List.length_replicate
  have huv := @uv_refuses uvValue process
    ((List.range tries).map
      (fun call => ((doubled call : Int), doubled call))).length
    (List.replicate (doubled tries) 0)
    (by rw [hlength]; exact doubled_pos tries)
    (fun hanswers => hprepared hanswers.1)
  rw [attempt, Getters.makeBytes_natCast]
  simp only [bind, Except.bind, pure, Except.pure, huv, hlength, refused,
    List.range_succ, List.map_append, List.map_cons, List.map_nil]

theorem round_refused (tries : Nat) :
    round makeBytes process (refused uvValue tries) =
      match attempt makeBytes process (refused uvValue tries).made
        (wrap ((doubled tries : Int) * 2)) with
      | .ok next => .inl next
      | .error fault => .inr (.error fault) := by
  have hlength : (refused uvValue tries).buffer.length = doubled tries :=
    List.length_replicate
  have hstatus : (refused uvValue tries).status = uvValue .ENOBUFS := rfl
  rw [round, if_pos hstatus, hlength]

/-- Without a setup that worked, the length doubles until it is negative. -/
theorem ends_negative (hprepared : ¬ process.Prepared) :
    WhileLoop.Ends (getProcessTitle makeBytes process)
      (.error .negativeLength) := by
  have hrounds : ∀ tries, tries < 21 →
      round makeBytes process (refused uvValue tries) =
        .inl (refused uvValue (tries + 1)) := by
    intro tries htries
    have hpow : 2 ^ (tries + 1) ≤ 2 ^ 21 :=
      Nat.pow_le_pow_right (by omega) htries
    have hfits : doubled (tries + 1) < 2 ^ 31 := by
      rw [doubled]
      omega
    have hnext : attempt makeBytes process (refused uvValue tries).made
        (doubled (tries + 1)) = .ok (refused uvValue (tries + 1)) :=
      attempt_refused hprepared rfl
    rw [round_refused, wrap_double hfits, hnext]
  have hlast : round makeBytes process (refused uvValue 21) =
      .inr (.error .negativeLength) := by
    have hwrap : wrap ((doubled 21 : Int) * 2) = -2 ^ 31 := by decide
    have hmake : makeBytes (-2 ^ 31) = .error .negativeLength := rfl
    rw [round_refused, hwrap, attempt, hmake]
    rfl
  have hrun := WhileLoop.run_of_follows _ hrounds hlast
  have hstart : attempt makeBytes process [] 512 =
      .ok (refused uvValue 0) :=
    @attempt_refused uvValue process hprepared 0 [] rfl
  have hends := WhileLoop.ends_of_run hrun
  simp only [WhileLoop.Ends, getProcessTitle, hstart]
  exact hends

/-- A process without arguments: no title and no error, but a buffer of
negative length. -/
theorem no_arguments_negative :
    ¬ (sampleProcess [] (by decide)).Sound makeBytes ∧
      WhileLoop.Ends
        (getProcessTitle makeBytes (sampleProcess [] (by decide)))
        (.error .negativeLength) := by
  have hends := @ends_negative Errno.linuxValue
    (sampleProcess [] (by decide)) (fun hprepared => hprepared.2.1 rfl)
  refine ⟨?_, hends⟩
  rintro ⟨answer, hanswer, _⟩
  cases hanswer.unique hends

end Wrapped

end UvMbt.ProcessTitle
