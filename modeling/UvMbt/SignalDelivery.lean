/-
Which deliveries of a signal reach the callback: the stubs that
`Signal::start` chooses between, against what its `oneshot` promises.
-/
import UvMbt.MealyRun

set_option autoImplicit false

namespace UvMbt.SignalDelivery

open MealyRun

variable {Callback : Type}

/-- A signal handle: its `data`, the signal that libuv watches for, and its
`UV_SIGNAL_ONE_SHOT` flag. -/
structure Signal (Callback : Type) where
  data : Option Callback
  signum : Option Int
  oneshot : Bool
  deriving Repr, DecidableEq

/-- How libuv answers a start.  An accepted plain start may forget an earlier
one-shot start or leave the flag set; a watch that is there may outlive a
refused start. -/
inductive Answer where
  | accepted (forgets : Bool)
  | refused (kept : Bool)
  deriving Repr, DecidableEq

inductive Op (Callback : Type) where
  | start (cb : Callback) (signum : Int) (oneshot : Bool) (answer : Answer)
  | stop
  deriving Repr, DecidableEq

/-- A call of the program, or a signal that libuv hands to the handle, with
the calls that the callback makes. -/
inductive Event (Callback : Type) where
  | call (op : Op Callback)
  | deliver (signum : Int) (during : List (Op Callback))
  deriving Repr, DecidableEq

/-- What a delivery leads to.  The trampoline does not check that there is a
callback. -/
inductive Reaction (Callback : Type) where
  | silent
  | called (cb : Callback) (signum : Int)
  | nullCallback
  deriving Repr, DecidableEq

section Libuv

/-- `uv_signal_start` and `uv_signal_start_oneshot`.  For the signal that is
watched for already they replace the trampoline and nothing else. -/
def Signal.uvStart (signal : Signal Callback) (signum : Int) (oneshot : Bool) :
    Answer → Signal Callback
  | .accepted forgets =>
      if signal.signum = some signum then signal
      else { signal with
        signum := some signum
        oneshot := oneshot || (signal.oneshot && !forgets) }
  | .refused true => signal
  | .refused false => { signal with signum := none }

/-- `uv_signal_stop`. -/
def Signal.uvStop (signal : Signal Callback) : Signal Callback :=
  { signal with signum := none }

/-- What libuv does once it has handled a signal, whether or not the handle
still watched for it. -/
def Signal.dispatched (signal : Signal Callback) : Signal Callback :=
  if signal.oneshot then signal.uvStop else signal

end Libuv

section Code

/-- `moonbit_uv_handle_set_data`. -/
def Signal.setData (signal : Signal Callback) (data : Option Callback) :
    Signal Callback :=
  { signal with data }

/-- `moonbit_uv_signal_start`. -/
def uvSignalStart (signal : Signal Callback) (cb : Callback) (signum : Int)
    (answer : Answer) : Signal Callback :=
  (signal.setData (some cb)).uvStart signum false answer

/-- `moonbit_uv_signal_start_oneshot`. -/
def uvSignalStartOneshot (signal : Signal Callback) (cb : Callback)
    (signum : Int) (answer : Answer) : Signal Callback :=
  (signal.setData (some cb)).uvStart signum true answer

/-- `Signal::start`. -/
def Signal.start (signal : Signal Callback) (cb : Callback) (signum : Int)
    (oneshot : Bool) (answer : Answer) : Signal Callback :=
  if oneshot then uvSignalStart signal cb signum answer
  else uvSignalStartOneshot signal cb signum answer

/-- `Signal::stop` and `moonbit_uv_signal_stop`. -/
def Signal.stop (signal : Signal Callback) : Signal Callback :=
  (signal.setData none).uvStop

/-- `moonbit_uv_signal_cb`. -/
def Signal.signalCb (signal : Signal Callback) (signum : Int) :
    Reaction Callback :=
  match signal.data with
  | some cb => .called cb signum
  | none => .nullCallback

def Signal.perform (signal : Signal Callback) : Op Callback → Signal Callback
  | .start cb signum oneshot answer => signal.start cb signum oneshot answer
  | .stop => signal.stop

/-- libuv hands a signal over: it calls the trampoline if the handle watches
for it, and resets a one-shot watch afterwards. -/
def Signal.deliver (signal : Signal Callback) (signum : Int)
    (during : List (Op Callback)) : Signal Callback × Reaction Callback :=
  if signal.signum = some signum then
    ((during.foldl Signal.perform signal).dispatched, signal.signalCb signum)
  else (signal.dispatched, .silent)

def step (signal : Signal Callback) :
    Event Callback → Signal Callback × Reaction Callback
  | .call op => (signal.perform op, .silent)
  | .deliver signum during => signal.deliver signum during

/-- A handle after `Signal::new`. -/
def Signal.new : Signal Callback := ⟨none, none, false⟩

end Code

section Promise

/-- The callback that is due at the next delivery of a signal, and whether it
is due at that one only. -/
structure Due (Callback : Type) where
  cb : Callback
  signum : Int
  oneshot : Bool
  deriving Repr, DecidableEq

/-- A start that returned is in force until stop. -/
def promiseOp (due : Option (Due Callback)) :
    Op Callback → Option (Due Callback)
  | .start cb signum oneshot (.accepted _) => some ⟨cb, signum, oneshot⟩
  | .start _ _ _ (.refused _) => due
  | .stop => none

/-- What the arguments promise: the last start that returned is in force until
stop, a one-shot start until its first delivery. -/
def promise (due : Option (Due Callback)) :
    Event Callback → Option (Due Callback) × Reaction Callback
  | .call op => (promiseOp due op, .silent)
  | .deliver signum during =>
      match due with
      | some start =>
          if start.signum = signum then
            (during.foldl promiseOp (if start.oneshot then none else some start),
              .called start.cb signum)
          else (some start, .silent)
      | none => (none, .silent)

/-- Every delivery calls the callback the promise names, and no other. -/
def Kept (events : List (Event Callback)) : Prop :=
  outputs step Signal.new events = outputs promise none events

/-- A handle by its last start or stop: nothing is due, a start is in force as
far as it was asked for, or its signal must not be delivered any more. -/
inductive Since where
  | idle
  | started (signum : Int) (oneshot : Bool)
  | spent (signum : Int)
  deriving Repr, DecidableEq

/-- Calls of the program, with libuv's flag after the call.  A one-shot watch
started in the callback is reset as soon as the callback returns. -/
def Since.perform (calling flag : Bool) : Since → Op Callback → Since
  | _, .start _ signum oneshot (.accepted _) =>
      if calling && flag then .spent signum else .started signum oneshot
  | .idle, .start _ _ _ (.refused _) => .idle
  | .started signum _, .start _ _ _ (.refused _)
  | .spent signum, .start _ _ _ (.refused _) => .spent signum
  | _, .stop => .idle

/-- Calls of the callback. -/
def Since.during : Since → Signal Callback → List (Op Callback) → Since
  | since, _, [] => since
  | since, signal, op :: rest =>
      (since.perform true (signal.perform op).oneshot op).during
        (signal.perform op) rest

/-- After the delivery of its signal a start lasts as it was asked to if
libuv's flag is what was asked for. -/
def Since.delivered (signal : Signal Callback) (signum : Int)
    (oneshot : Bool) : Since :=
  if signal.oneshot = oneshot then
    if oneshot then .idle else .started signum false
  else .spent signum

/-- Forbids a delivery when the start before it is spent. -/
def Since.next (signal : Signal Callback) : Since → Event Callback → Option Since
  | since, .call op => some (since.perform false (signal.perform op).oneshot op)
  | .idle, .deliver _ _ => some .idle
  | .started signum oneshot, .deliver other during =>
      some (
        if signum = other then
          (Since.delivered signal signum oneshot).during signal during
        else if signal.oneshot then .spent signum
        else .started signum oneshot)
  | .spent signum, .deliver other _ =>
      if signum = other then none else some (.spent signum)

/-- What `Since.next` allows, beside the handle. -/
def watch (monitor : Since × Signal Callback) (event : Event Callback) :
    Option (Since × Signal Callback) :=
  (monitor.1.next monitor.2 event).map fun after =>
    (after, (step monitor.2 event).1)

/-- No delivery comes after the start before it is spent. -/
def NoneSpent (events : List (Event Callback)) : Prop :=
  Along watch (.idle, Signal.new) events

/-- The starts among the calls are accepted. -/
def Op.Accepted : Op Callback → Prop
  | .start _ _ _ (.accepted _) | .stop => True
  | .start _ _ _ (.refused _) => False

def Event.Accepted : Event Callback → Prop
  | .call op => op.Accepted
  | .deliver _ during => ∀ op ∈ during, op.Accepted

end Promise

section Proofs

/-- A start is in force: libuv watches for its signal, and its callback is the
handle's. -/
def Live (signal : Signal Callback) (due : Option (Due Callback))
    (signum : Int) (oneshot : Bool) : Prop :=
  ∃ cb, signal.data = some cb ∧ signal.signum = some signum ∧
    due = some ⟨cb, signum, oneshot⟩

/-- What is known of the handle and the promise once a start is spent. -/
abbrev Spent (Callback : Type) :=
  Int → Signal Callback → Option (Due Callback) → Prop

/-- The handle and the promise between two events. -/
def Agree (spent : Spent Callback) :
    Since → Signal Callback → Option (Due Callback) → Prop
  | .idle, signal, due => signal.signum = none ∧ due = none
  | .started signum oneshot, signal, due => Live signal due signum oneshot
  | .spent signum, signal, due => spent signum signal due

/-- The handle and the promise while the callback runs. -/
def Midway (spent : Spent Callback) :
    Since → Signal Callback → Option (Due Callback) → Prop
  | .idle, signal, due =>
      (signal.oneshot = true ∨ signal.signum = none) ∧ due = none
  | .started signum oneshot, signal, due =>
      Live signal due signum oneshot ∧ signal.oneshot = false
  | .spent signum, signal, due => spent signum signal due

/-- A refused start leaves a start spent. -/
def Refuses (usual : Op Callback → Prop) (spent : Spent Callback) : Prop :=
  ∀ ⦃cb other oneshot kept⦄, usual (.start cb other oneshot (.refused kept)) →
    ∀ ⦃signum signal due⦄,
      (spent signum signal due ∨ ∃ asked, Live signal due signum asked) →
      spent signum (signal.start cb other oneshot (.refused kept)) due

/-- What a spent start has to satisfy between two events and while the
callback runs. -/
structure SpentRules (usual : Op Callback → Prop)
    (outside inside : Spent Callback) : Prop where
  refuses : Refuses usual outside
  refusesDuring : Refuses usual inside
  reset : ∀ ⦃signum signal due oneshot⦄, Live signal due signum oneshot →
    signal.oneshot = true → inside signum signal due
  exchanged : ∀ ⦃cb signum oneshot⦄ ⦃signal : Signal Callback⦄,
    signal.signum = some signum → signal.oneshot ≠ oneshot →
    inside signum signal (if oneshot then none else some ⟨cb, signum, oneshot⟩)
  returns : ∀ ⦃signum signal due⦄, inside signum signal due →
    outside signum signal.dispatched due
  stale : ∀ ⦃signum signal due⦄, outside signum signal due →
    outside signum signal.dispatched due
  only : ∀ ⦃signum signal due⦄, outside signum signal due →
    (∀ other, signal.signum = some other → other = signum) ∧
      ∀ start, due = some start → start.signum = signum

/-- An accepted start watches for its signal, with its own callback. -/
theorem live_start (signal : Signal Callback) (cb : Callback) (signum : Int)
    (oneshot forgets : Bool) :
    Live (signal.start cb signum oneshot (.accepted forgets))
      (some ⟨cb, signum, oneshot⟩) signum oneshot := by
  refine ⟨cb, ?_, ?_, rfl⟩
  · cases oneshot <;>
      simp [Signal.start, uvSignalStart, uvSignalStartOneshot, Signal.uvStart,
        Signal.setData] <;>
      split <;> rfl
  · cases oneshot <;>
      simp [Signal.start, uvSignalStart, uvSignalStartOneshot, Signal.uvStart,
        Signal.setData] <;>
      split <;> simp_all

theorem start_refused (signal : Signal Callback) (cb : Callback) (signum : Int)
    (oneshot kept : Bool) :
    signal.start cb signum oneshot (.refused kept) =
      ⟨some cb, if kept then signal.signum else none, signal.oneshot⟩ := by
  cases oneshot <;> cases kept <;> rfl

theorem dispatched_signum (signal : Signal Callback) :
    signal.dispatched.signum =
      if signal.oneshot then none else signal.signum := by
  unfold Signal.dispatched
  split <;> rfl

theorem dispatched_of_not {signal : Signal Callback}
    (hflag : signal.oneshot = false) : signal.dispatched = signal := by
  simp [Signal.dispatched, hflag]

variable {usual : Op Callback → Prop} {outside inside : Spent Callback}

theorem Agree.perform (hrefuses : Refuses usual outside) {since : Since}
    {signal : Signal Callback} {due : Option (Due Callback)}
    (hagree : Agree outside since signal due) {op : Op Callback}
    (husual : usual op) :
    Agree outside (since.perform false (signal.perform op).oneshot op)
      (signal.perform op) (promiseOp due op) := by
  cases op with
  | stop => cases since <;> exact ⟨rfl, rfl⟩
  | start cb signum oneshot answer =>
      cases answer with
      | accepted forgets =>
          have hlive := live_start signal cb signum oneshot forgets
          cases since <;> exact hlive
      | refused kept =>
          cases since with
          | idle =>
              refine ⟨?_, hagree.2⟩
              rw [Signal.perform, start_refused]
              simp [hagree.1]
          | started started asked => exact hrefuses husual (.inr ⟨asked, hagree⟩)
          | spent spent => exact hrefuses husual (.inl hagree)

theorem Midway.perform (hrules : SpentRules usual outside inside)
    {since : Since} {signal : Signal Callback} {due : Option (Due Callback)}
    (hmidway : Midway inside since signal due) {op : Op Callback}
    (husual : usual op) :
    Midway inside (since.perform true (signal.perform op).oneshot op)
      (signal.perform op) (promiseOp due op) := by
  cases op with
  | stop => cases since <;> exact ⟨.inr rfl, rfl⟩
  | start cb signum oneshot answer =>
      cases answer with
      | accepted forgets =>
          have hlive := live_start signal cb signum oneshot forgets
          cases hflag :
            (signal.perform (.start cb signum oneshot (.accepted forgets))).oneshot with
          | true => cases since <;> exact hrules.reset hlive hflag
          | false => cases since <;> exact ⟨hlive, hflag⟩
      | refused kept =>
          cases since with
          | idle =>
              refine ⟨?_, hmidway.2⟩
              rw [Signal.perform, start_refused]
              rcases hmidway.1 with hflag | hnone
              · exact .inl hflag
              · right
                simp [hnone]
          | started started asked =>
              exact hrules.refusesDuring husual (.inr ⟨asked, hmidway.1⟩)
          | spent spent => exact hrules.refusesDuring husual (.inl hmidway)

theorem Midway.during (hrules : SpentRules usual outside inside)
    {ops : List (Op Callback)} (husual : ∀ op ∈ ops, usual op)
    {since : Since} {signal : Signal Callback} {due : Option (Due Callback)}
    (hmidway : Midway inside since signal due) :
    Midway inside (since.during signal ops) (ops.foldl Signal.perform signal)
      (ops.foldl promiseOp due) := by
  induction ops generalizing since signal due with
  | nil => exact hmidway
  | cons op rest ih =>
      have hop := hmidway.perform hrules (husual op (by simp))
      exact ih (fun later hlater => husual later (by simp [hlater])) hop

/-- The callback returns, and libuv resets a one-shot watch. -/
theorem Midway.returns (hrules : SpentRules usual outside inside)
    {since : Since} {signal : Signal Callback} {due : Option (Due Callback)}
    (hmidway : Midway inside since signal due) :
    Agree outside since signal.dispatched due := by
  cases since with
  | idle =>
      refine ⟨?_, hmidway.2⟩
      rw [dispatched_signum]
      rcases hmidway.1 with hflag | hnone
      · simp [hflag]
      · simp [hnone]
  | started signum oneshot =>
      rw [Agree, dispatched_of_not hmidway.2]
      exact hmidway.1
  | spent signum => exact hrules.returns hmidway

/-- The signal of a start in force is delivered. -/
theorem Live.delivered (hrules : SpentRules usual outside inside)
    {signal : Signal Callback} {cb : Callback} {signum : Int} (oneshot : Bool)
    (hdata : signal.data = some cb) (hsignum : signal.signum = some signum) :
    Midway inside (Since.delivered signal signum oneshot) signal
      (if oneshot then none else some ⟨cb, signum, oneshot⟩) := by
  unfold Since.delivered
  by_cases hflag : signal.oneshot = oneshot
  · rw [if_pos hflag]
    cases oneshot with
    | true => exact ⟨.inl hflag, rfl⟩
    | false => exact ⟨⟨cb, hdata, hsignum, rfl⟩, hflag⟩
  · rw [if_neg hflag]
    exact hrules.exchanged hsignum hflag

theorem deliver_ne {signal : Signal Callback} {signum : Int}
    (hne : signal.signum ≠ some signum) (during : List (Op Callback)) :
    signal.deliver signum during = (signal.dispatched, .silent) := by
  rw [Signal.deliver, if_neg hne]

theorem promise_ne {due : Option (Due Callback)} {signum : Int}
    (hne : ∀ start, due = some start → start.signum ≠ signum)
    (during : List (Op Callback)) :
    promise due (.deliver signum during) = (due, .silent) := by
  cases due with
  | none => rfl
  | some start => simp [promise, hne start rfl]

/-- The events whose calls are usual. -/
def Event.Usual (usual : Op Callback → Prop) : Event Callback → Prop
  | .call op => usual op
  | .deliver _ ops => ∀ op ∈ ops, usual op

/-- An event that is allowed is answered as promised. -/
theorem agree_step (hrules : SpentRules usual outside inside)
    {since after : Since} {event : Event Callback} (husual : event.Usual usual)
    {signal : Signal Callback} {due : Option (Due Callback)}
    (hagree : Agree outside since signal due)
    (hnext : since.next signal event = some after) :
    (step signal event).2 = (promise due event).2 ∧
      Agree outside after (step signal event).1 (promise due event).1 := by
  cases event with
  | call op =>
      cases hnext
      exact ⟨rfl, hagree.perform hrules.refuses husual⟩
  | deliver signum ops =>
      cases since with
      | idle =>
          cases hnext
          rcases hagree with ⟨hnone, rfl⟩
          rw [step, deliver_ne (by simp [hnone])]
          exact ⟨rfl, by simp [dispatched_signum, hnone], rfl⟩
      | started started oneshot =>
          rcases hagree with ⟨cb, hdata, hsignum, rfl⟩
          cases hnext
          by_cases heq : started = signum
          · subst heq
            have hmidway := Live.delivered hrules oneshot hdata hsignum
            rw [step, Signal.deliver, if_pos hsignum, promise, if_pos rfl, if_pos rfl]
            refine ⟨by simp [Signal.signalCb, hdata], ?_⟩
            exact (hmidway.during hrules husual).returns hrules
          · rw [step, deliver_ne (by simp [hsignum, heq]),
              promise_ne (by simp [heq]), if_neg heq]
            refine ⟨rfl, ?_⟩
            have hlive : Live signal (some ⟨cb, started, oneshot⟩) started oneshot :=
              ⟨cb, hdata, hsignum, rfl⟩
            cases hflag : signal.oneshot with
            | true => exact hrules.returns (hrules.reset hlive hflag)
            | false =>
                rw [dispatched_of_not hflag]
                exact hlive
      | spent spent =>
          by_cases heq : spent = signum
          · simp [Since.next, heq] at hnext
          · rw [Since.next, if_neg heq] at hnext
            cases hnext
            have honly := hrules.only hagree
            have hsignum : signal.signum ≠ some signum := fun hsome =>
              heq (honly.1 signum hsome).symm
            rw [step, deliver_ne hsignum, promise_ne fun start hstart =>
              honly.2 start hstart ▸ heq]
            exact ⟨rfl, hrules.stale hagree⟩

/-- Nothing is left of a spent start but its signal. -/
def Within (signum : Int) (signal : Signal Callback)
    (due : Option (Due Callback)) : Prop :=
  (∀ other, signal.signum = some other → other = signum) ∧
    ∀ start, due = some start → start.signum = signum

theorem Within.dispatched {signum : Int} {signal : Signal Callback}
    {due : Option (Due Callback)} (hwithin : Within signum signal due) :
    Within signum signal.dispatched due := by
  refine ⟨fun other hother => hwithin.1 other ?_, hwithin.2⟩
  rw [dispatched_signum] at hother
  cases hflag : signal.oneshot with
  | true => simp [hflag] at hother
  | false => simpa [hflag] using hother

theorem Live.within {signum : Int} {oneshot : Bool} {signal : Signal Callback}
    {due : Option (Due Callback)} (hlive : Live signal due signum oneshot) :
    Within signum signal due := by
  rcases hlive with ⟨cb, -, hsignum, rfl⟩
  constructor
  · intro other hother
    exact (Option.some.inj (hsignum.symm.trans hother)).symm
  · intro start hstart
    cases hstart
    rfl

theorem within_refuses : Refuses (fun _ : Op Callback => True) Within := by
  intro cb other oneshot kept _ signum signal due hbefore
  have hwithin : Within signum signal due := by
    rcases hbefore with hwithin | ⟨asked, hlive⟩
    · exact hwithin
    · exact hlive.within
  refine ⟨fun watched hwatched => hwithin.1 watched ?_, hwithin.2⟩
  rw [start_refused] at hwatched
  cases kept with
  | true => exact hwatched
  | false => simp at hwatched

theorem within_rules :
    SpentRules (fun _ : Op Callback => True) Within Within where
  refuses := within_refuses
  refusesDuring := within_refuses
  reset _ _ _ _ hlive _ := hlive.within
  exchanged cb signum oneshot signal hsignum _ := by
    constructor
    · intro other hother
      exact (Option.some.inj (hsignum.symm.trans hother)).symm
    · intro start hstart
      cases oneshot with
      | true => simp at hstart
      | false =>
          cases hstart
          rfl
  returns _ _ _ hwithin := hwithin.dispatched
  stale _ _ _ hwithin := hwithin.dispatched
  only _ _ _ hwithin := hwithin

/-- One of libuv and the promise has the start in force, and the other has
not. -/
def Apart (signum : Int) (signal : Signal Callback)
    (due : Option (Due Callback)) : Prop :=
  (signal.signum = some signum ∧ signal.oneshot = false ∧ due = none) ∨
    signal.signum = none ∧ ∃ start, due = some start ∧ start.signum = signum

/-- They will be apart when the callback has returned. -/
def Parting (signum : Int) (signal : Signal Callback)
    (due : Option (Due Callback)) : Prop :=
  (signal.signum = some signum ∧ signal.oneshot = false ∧ due = none) ∨
    signal.oneshot = true ∧ ∃ start, due = some start ∧ start.signum = signum

theorem apart_rules :
    SpentRules (@Op.Accepted Callback) Apart Parting where
  refuses _ _ _ _ hrefused := hrefused.elim
  refusesDuring _ _ _ _ hrefused := hrefused.elim
  reset signum signal due oneshot hlive hflag := by
    rcases hlive with ⟨cb, -, -, rfl⟩
    exact .inr ⟨hflag, _, rfl, rfl⟩
  exchanged cb signum oneshot _ hsignum hflag := by
    cases oneshot with
    | true => exact .inl ⟨hsignum, by simpa using hflag, rfl⟩
    | false => exact .inr ⟨by simpa using hflag, _, rfl, rfl⟩
  returns signum signal due hparting := by
    rcases hparting with ⟨hsignum, hflag, hdue⟩ | ⟨hflag, hdue⟩
    · rw [dispatched_of_not hflag]
      exact .inl ⟨hsignum, hflag, hdue⟩
    · exact .inr ⟨by simp [dispatched_signum, hflag], hdue⟩
  stale signum signal due hapart := by
    rcases hapart with ⟨hsignum, hflag, hdue⟩ | ⟨hnone, hdue⟩
    · rw [dispatched_of_not hflag]
      exact .inl ⟨hsignum, hflag, hdue⟩
    · exact .inr ⟨by simp [dispatched_signum, hnone], hdue⟩
  only signum signal due hapart := by
    rcases hapart with ⟨hsignum, -, rfl⟩ | ⟨hnone, start, rfl, hstart⟩
    · exact ⟨by simp [hsignum], by simp⟩
    · exact ⟨by simp [hnone], by simp [hstart]⟩

/-- A delivery while they are apart tells them apart. -/
theorem Apart.deliver_ne {signum : Int} {signal : Signal Callback}
    {due : Option (Due Callback)} (hapart : Apart signum signal due)
    (ops : List (Op Callback)) :
    (signal.deliver signum ops).2 ≠ (promise due (.deliver signum ops)).2 := by
  rcases hapart with ⟨hsignum, -, rfl⟩ | ⟨hnone, start, rfl, rfl⟩
  · rw [Signal.deliver, if_pos hsignum, promise, Signal.signalCb]
    cases signal.data <;> simp
  · rw [SignalDelivery.deliver_ne (by simp [hnone]), promise, if_pos rfl]
    simp

/-- What agrees, beside the handle that `watch` follows. -/
def Follows (spent : Spent Callback) (monitor : Since × Signal Callback)
    (signal : Signal Callback) (due : Option (Due Callback)) : Prop :=
  monitor.2 = signal ∧ Agree spent monitor.1 signal due

theorem follows_new (spent : Spent Callback) :
    Follows spent (.idle, Signal.new) Signal.new none :=
  ⟨rfl, rfl, rfl⟩

theorem within_step (monitor after : Since × Signal Callback)
    (event : Event Callback) (signal : Signal Callback)
    (due : Option (Due Callback)) (hfollows : Follows Within monitor signal due)
    (hnext : watch monitor event = some after) :
    (step signal event).2 = (promise due event).2 ∧
      Follows Within after (step signal event).1 (promise due event).1 := by
  rcases monitor with ⟨since, _⟩
  rcases hfollows with ⟨rfl, hagree⟩
  rcases Option.map_eq_some_iff.mp hnext with ⟨since', hsince, rfl⟩
  have husual : event.Usual (fun _ : Op Callback => True) := by
    cases event with
    | call op => trivial
    | deliver signum ops => exact fun _ _ => trivial
  have hstep := agree_step within_rules husual hagree hsince
  exact ⟨hstep.1, rfl, hstep.2⟩

theorem apart_step (monitor : Since × Signal Callback)
    (event : Event Callback) (signal : Signal Callback)
    (due : Option (Due Callback)) (hfollows : Follows Apart monitor signal due)
    (haccepted : event.Accepted)
    (hsame : (step signal event).2 = (promise due event).2) :
    ∃ after, watch monitor event = some after ∧
      Follows Apart after (step signal event).1 (promise due event).1 := by
  rcases monitor with ⟨since, handle⟩
  rcases hfollows with ⟨rfl, hagree⟩
  have husual : event.Usual Op.Accepted := by
    cases event with
    | call op => exact haccepted
    | deliver signum ops => exact haccepted
  cases hsince : since.next handle event with
  | some since' =>
      have hstep := agree_step apart_rules husual hagree hsince
      exact ⟨(since', (step handle event).1), by simp [watch, hsince], rfl,
        hstep.2⟩
  | none =>
      exfalso
      cases event with
      | call op => cases since <;> simp [Since.next] at hsince
      | deliver signum ops =>
          cases since with
          | idle => simp [Since.next] at hsince
          | started started oneshot => simp [Since.next] at hsince
          | spent spent =>
              by_cases heq : spent = signum
              · subst heq
                exact hagree.deliver_ne ops hsame
              · simp [Since.next, heq] at hsince

/-- The promise is kept in every run in which no delivery comes after the start
before it is spent, and, if libuv accepts every start, only then. -/
theorem signal_delivery (events : List (Event Callback)) :
    (NoneSpent events → Kept events) ∧
      ((∀ event ∈ events, event.Accepted) →
        (Kept events ↔ NoneSpent events)) := by
  have hkept : NoneSpent events → Kept events := fun hnone =>
    outputs_eq_of_along (Follows Within) within_step (follows_new Within) hnone
  refine ⟨hkept, fun haccepted => ⟨fun houtputs => ?_, hkept⟩⟩
  exact along_of_outputs_eq (Follows Apart) apart_step (follows_new Apart)
    haccepted houtputs

end Proofs

/-- SIGHUP arrives twice after a start that is to last. -/
def hangUpTwice : List (Event Nat) :=
  [.call (.start 0 1 false (.accepted true)), .deliver 1 [], .deliver 1 []]

theorem hangUpTwice_misses :
    outputs step Signal.new hangUpTwice =
        [.silent, .called 0 1, .silent] ∧
      outputs promise none hangUpTwice =
        [.silent, .called 0 1, .called 0 1] ∧
      ¬ Kept hangUpTwice := by
  refine ⟨rfl, rfl, ?_⟩
  rw [Kept]
  decide

/-- The callback of a start that is to last starts the handle again, which
libuv undoes when it returns. -/
def startedAgain : List (Event Nat) :=
  [.call (.start 0 1 false (.accepted true)),
    .deliver 1 [.start 5 1 false (.accepted true)], .deliver 1 []]

example : ¬ NoneSpent startedAgain ∧ ¬ Kept startedAgain := by
  refine ⟨?_, ?_⟩
  · rw [NoneSpent]
    decide
  · rw [Kept]
    decide

end UvMbt.SignalDelivery
