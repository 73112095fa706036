/-
Starts and the events that follow them: in every run that keeps to the rules,
each event is delivered to the callback of the start libuv is acting on, and
that is the last start that returned normally.
-/
import UvMbt.SlotAgreement

set_option autoImplicit false

namespace UvMbt

open RefHeap HandleState GuardedRun

/-- The callbacks of the start libuv is acting on. -/
def Watch.callbacks (watch : Watch) : List Addr :=
  (watch.active.map Start.callbacks).getD []

/-- The trampolines. -/
def Label.fromLibuv : Label → Bool
  | .event _ | .late _ | .connection | .allocEnter | .receive _ _ _
  | .closed => true
  | _ => false

section Due

variable (kind : Kind) (s : HandleState)

/-- The call that an event of libuv is due: that of the start it is acting
on, which for the result of an fs_poll stat is the one that asked for it.  A
process that was spawned without an exit callback is due none. -/
def dueCalls : Label → List Call
  | .event _ =>
      kind.event.toList.flatMap
        (fun type => s.watch.callbacks.map (Call.mk type))
  | .late start => start.callbacks.map (Call.mk .fsPoll)
  | .connection => s.listening.callbacks.map (Call.mk .connection)
  | .allocEnter => (s.watch.callbacks.take 1).map (Call.mk .alloc)
  | .receive _ _ _ =>
      (s.watch.callbacks.drop 1).map (Call.mk (Offers.readType kind))
  | .closed => s.life.closing?.toList.map (Call.mk .close)
  | _ => []

/-- The start libuv is acting on is the one it was last told of, and every
event it may report now is delivered to that start's callback and to no
other. -/
structure Delivers : Prop where
  watch_told : s.watch.told = s.watch.active
  listening_told : s.listening.told = s.listening.active
  delivers : ∀ label, label.fromLibuv → Contract kind s label →
    BackedRule kind s label →
      Settles (fun fault => fault = .nullArgument)
        (fun next => next.calls = s.calls ++ dueCalls kind s label)
        (step kind s label)

/-- A step of a run that keeps to the slot rule and in which no start fails or
is ignored while another is active, is taken under other parameters, follows a
stop whose stat is pending, or comes in the last callback of a signal watch. -/
def AgreeAllowed (label : Label) : Prop :=
  SlotAllowed kind s label ∧ AgreeRule s label

instance : DecidablePred (AgreeAllowed kind s) := fun _ =>
  inferInstanceAs (Decidable (_ ∧ _))

variable {kind s}

theorem AgreeAllowed.allowed {label : Label}
    (hallowed : AgreeAllowed kind s label) : Allowed kind True False s label :=
  ⟨hallowed.1.1, hallowed.1.2.1, hallowed.1.2.2, fun _ => hallowed.2,
    False.elim⟩

theorem Watch.callbacks_of_active {watch : Watch} {start : Start}
    (hactive : watch.active = some start) :
    watch.callbacks = start.callbacks := by
  simp [Watch.callbacks, hactive]

end Due

section Silent

variable {kind : Kind} {s next : HandleState} {label : Label}

/-- Nothing but a trampoline calls the user. -/
theorem step_silent (hlabel : label.fromLibuv = false)
    (hstep : step kind s label = .ok next) : next.calls = s.calls := by
  cases label with
  | event _ | late _ | connection | allocEnter | receive _ _ _ | closed =>
      cases hlabel
  | exiting | resume _ | discard _ | leave => cases hstep; rfl
  | newClosure type captures => cases hstep; rfl
  | newBytes => cases hstep; rfl
  | allocLeave buffer =>
      simp only [step] at hstep
      split at hstep
      · obtain ⟨heap, -, hnext⟩ := bind_eq_ok hstep
        cases hnext
        rfl
      · cases hstep
        rfl
  | closeReset closeCb accepted =>
      obtain ⟨heap, -, hnext⟩ := bind_eq_ok hstep
      cases accepted <;> cases hnext <;> rfl
  | _ =>
      obtain ⟨heap, -, hnext⟩ := bind_eq_ok hstep
      cases hnext
      rfl

end Silent

section Delivery

variable {kind : Kind} {s : HandleState}

theorem readType_stream (hkind : kind.receiver = some .stream) :
    Offers.readType kind = .read := by
  cases kind <;> first | rfl | cases hkind

theorem readType_udp (hkind : kind.receiver = some .udp) :
    Offers.readType kind = .udpRecv := by
  cases kind <;> first | rfl | cases hkind

theorem expectClosure_addr {heap : Heap Obj} {type : CallbackType}
    {addr found : Addr}
    (hrun : expectClosure heap type (some addr) = .ok found) :
    found = addr := by
  obtain ⟨value, hvalue, hfound⟩ := bind_eq_ok hrun
  obtain ⟨obj, -, hpure⟩ := bind_eq_ok hvalue
  cases hpure
  cases obj with
  | closure type' captures =>
      by_cases htype : type' = type
      · simp only [htype, ↓reduceIte] at hfound
        cases hfound
        rfl
      · simp only [htype, ↓reduceIte] at hfound
        cases hfound
  | _ => cases hfound

/-- The close trampoline calls what the slot held. -/
theorem closeCb_data {heap : Heap Obj} {handle : HandleObj} {data : Addr}
    {result : Heap Obj × Addr}
    (hobj : ObjAt heap handleAddr (.handle handle))
    (hdata : handle.data = some data) (hrun : closeCb heap = .ok result) :
    result.2 = data := by
  obtain ⟨handle', hget, hrun⟩ := bind_eq_ok hrun
  rw [getHandle_eq hobj] at hget
  cases hget
  obtain ⟨first, -, hrun⟩ := bind_eq_ok hrun
  obtain ⟨second, -, hrun⟩ := bind_eq_ok hrun
  obtain ⟨cb, hcb, hpure⟩ := bind_eq_ok hrun
  cases hpure
  rw [hdata] at hcb
  exact expectClosure_addr hcb

/-- The trampoline of an event calls the closure it finds. -/
theorem eventOf_calls {heap : Heap Obj} {own : Multiset Addr}
    {handle : HandleObj} {cb : Addr} {type : CallbackType}
    {captures : List Addr} (hevent : kind.event = some type)
    (hbalanced : Balanced heap own)
    (hobj : ObjAt heap handleAddr (.handle handle))
    (hdata : handle.data = some cb)
    (hcb : ObjAt heap cb (.closure type captures)) :
    ∃ next gained, eventOf kind heap = .ok (next, some ⟨type, cb⟩, gained) := by
  by_cases hfsPoll : kind = .fsPoll
  · subst hfsPoll
    cases hevent
    obtain ⟨next, stats, hrun, -⟩ := fsPollCb_spec hbalanced hobj hdata hcb
    exact ⟨next, _, by
      simp [eventOf, hrun, bind, Except.bind, pure, Except.pure]; rfl⟩
  · by_cases hprocess : kind = .process
    · subst hprocess
      cases hevent
      obtain ⟨next, hrun, -⟩ := exitCb_spec hbalanced hobj hdata hcb
      exact ⟨next, _, by
        simp [eventOf, hrun, bind, Except.bind, pure, Except.pure]; rfl⟩
    · obtain ⟨next, hrun, -⟩ := closureCb_spec hbalanced hobj hdata hcb
      exact ⟨next, _, by
        simp [eventOf_eq heap hevent hfsPoll hprocess, eventOf.called, hrun,
          bind, Except.bind, pure, Except.pure]; rfl⟩

theorem Inv.delivers_event (hinv : Inv kind True False s) {ends : Bool}
    (hallowed : Allowed kind True False s (.event ends)) {next : HandleState}
    (hstep : step kind s (.event ends) = .ok next) :
    next.calls = s.calls ++ dueCalls kind s (.event ends) := by
  obtain ⟨handle, hobj, hok⟩ := hinv.trampoline hallowed rfl
  obtain ⟨-, hnone, hreports, hturn⟩ := hallowed.contract
  obtain ⟨start, hstart⟩ := Option.isSome_iff_exists.mp
    (hinv.event_opened hreports hturn).2
  have hidle : s.phase = .idle := hinv.control.plain hnone
  have hregistered := hok.watch (by rw [hidle]; rfl) start hstart
  have hcallbacks := Watch.callbacks_of_active hstart
  obtain ⟨result, hrun, hnext⟩ := bind_eq_ok hstep
  cases hdata : handle.data with
  | none =>
      rw [hdata] at hregistered
      cases hregistered with
      | exit hkind hempty =>
          subst hkind
          have hexit : eventOf .process s.heap = .ok (s.heap, none, []) := by
            simp [eventOf, exitCb_none hobj hdata, bind, Except.bind, pure,
              Except.pure]
          rw [hexit] at hrun
          cases hrun
          cases hnext
          simp [dueCalls, hcallbacks, hempty, HandleState.watched,
            HandleState.afterCall]
  | some cb =>
      rw [hdata] at hregistered
      cases hregistered with
      | receiver hkind => rw [hnone] at hkind; cases hkind
      | closure hevent hcb hagree =>
          obtain ⟨heap, gained, hcalls⟩ :=
            eventOf_calls hevent hinv.base.balanced hobj hdata hcb
          rw [hcalls] at hrun
          cases hrun
          cases hnext
          simp [dueCalls, hevent, hcallbacks, hagree trivial,
            HandleState.watched, HandleState.afterCall]

/-- No stopped start is reported while another one is active. -/
theorem Inv.delivers_late (hinv : Inv kind True False s) {start : Start}
    (hallowed : Allowed kind True False s (.late start)) : False := by
  obtain ⟨-, -, -, hactive, hmem⟩ := hallowed.contract
  rcases hinv.control.fresh with hnil | ⟨-, hnone⟩
  · simp [hnil] at hmem
  · simp [hnone trivial] at hactive

theorem Inv.delivers_connection (hinv : Inv kind True False s)
    (hallowed : Allowed kind True False s .connection) {next : HandleState}
    (hstep : step kind s .connection = .ok next) :
    next.calls = s.calls ++ dueCalls kind s .connection := by
  obtain ⟨handle, hobj, hok⟩ := hinv.trampoline hallowed rfl
  obtain ⟨-, -, -, hactive, hidle⟩ := hallowed.contract
  obtain ⟨start, hstart⟩ := Option.isSome_iff_exists.mp hactive
  obtain ⟨cb, captures, hdata, hcb, hagree⟩ :=
    hok.listening (by rw [hidle]; rfl) start hstart
  obtain ⟨heap, hrun, -⟩ :=
    closureCb_spec hinv.base.balanced hobj hdata hcb
  obtain ⟨result, hcalls, hnext⟩ := bind_eq_ok hstep
  rw [listenCb, hrun] at hcalls
  cases hcalls
  cases hnext
  simp [dueCalls, Watch.callbacks_of_active hstart, hagree trivial,
    HandleState.afterCall]

theorem Inv.delivers_allocEnter (hinv : Inv kind True False s)
    (hallowed : Allowed kind True False s .allocEnter) {next : HandleState}
    (hstep : step kind s .allocEnter = .ok next) :
    next.calls = s.calls ++ dueCalls kind s .allocEnter := by
  obtain ⟨handle, hobj, -⟩ := hinv.trampoline hallowed rfl
  obtain ⟨-, -, hsome, hactive, hidle, -⟩ := hallowed.contract
  obtain ⟨type, hkind⟩ := Option.isSome_iff_exists.mp hsome
  obtain ⟨data, receive, hdata, hreceive, -, hagree⟩ :=
    receiver_of_watch hinv hkind hactive (by rw [hidle]; rfl) hobj
  obtain ⟨start, hstart⟩ := Option.isSome_iff_exists.mp hactive
  obtain ⟨heap, hrun, -⟩ :=
    allocCbEnter_spec hinv.base.balanced hobj hdata hreceive
  simp only [step, hkind, hrun, bind, Except.bind, pure, Except.pure] at hstep
  cases hstep
  simp [dueCalls, Watch.callbacks_of_active hstart,
    hagree trivial start hstart, HandleState.afterCall]

theorem Inv.delivers_receive (hinv : Inv kind True False s)
    {address last ends : Bool}
    (hallowed : Allowed kind True False s (.receive address last ends))
    {next : HandleState}
    (hstep : step kind s (.receive address last ends) = .ok next) :
    next.calls = s.calls ++ dueCalls kind s (.receive address last ends) := by
  obtain ⟨handle, hobj, -⟩ := hinv.trampoline hallowed rfl
  obtain ⟨-, hsome, hphase, hreports⟩ := hallowed.contract
  have hactive := (hinv.receive_opened hreports).2
  obtain ⟨type, hkind⟩ := Option.isSome_iff_exists.mp hsome
  obtain ⟨data, receive, hdata, hreceive, -, hagree⟩ :=
    receiver_of_watch hinv hkind hactive hphase hobj
  obtain ⟨start, hstart⟩ := Option.isSome_iff_exists.mp hactive
  have hcallbacks := hagree trivial start hstart
  obtain ⟨result, hresult, hnext⟩ := bind_eq_ok hstep
  have hcall : result.2.1 =
      some ⟨Offers.readType kind, receive.readCb⟩ := by
    cases type with
    | stream =>
        obtain ⟨heap, hrun, -⟩ :=
          readCb_spec hinv.base.balanced hobj hdata hreceive
        simp only [receiveOf, hkind, hrun, bind, Except.bind, pure,
          Except.pure] at hresult
        cases hresult
        rw [readType_stream hkind]
    | udp =>
        cases address with
        | false =>
            have hrun := udpRecvCb_no_address hinv.base.balanced hobj hdata
              hreceive
            simp only [receiveOf, hkind, hrun, bind, Except.bind] at hresult
            cases hresult
        | true =>
            obtain ⟨heap, copied, hrun, -⟩ :=
              udpRecvCb_spec hinv.base.balanced hobj hdata hreceive
            simp only [receiveOf, hkind, hrun, bind, Except.bind, pure,
              Except.pure] at hresult
            cases hresult
            rw [readType_udp hkind]
  cases hnext
  simp [dueCalls, Watch.callbacks_of_active hstart, hcallbacks, hcall,
    HandleState.watched, HandleState.afterCall]

theorem Inv.delivers_closed (hinv : Inv kind True False s)
    (hallowed : Allowed kind True False s .closed) {next : HandleState}
    (hstep : step kind s .closed = .ok next) :
    next.calls = s.calls ++ dueCalls kind s .closed := by
  obtain ⟨handle, hobj, hok⟩ := hinv.trampoline hallowed rfl
  obtain ⟨-, hclosing, -⟩ := hallowed.contract
  cases hlife : s.life with
  | closing closing =>
      obtain ⟨hdata, captures, hcb⟩ := hok.closing closing hlife
      simp only [step, hlife] at hstep
      obtain ⟨result, hrun, hnext⟩ := bind_eq_ok hstep
      have hcall := closeCb_data hobj hdata hrun
      cases hnext
      simp [dueCalls, hlife, Life.closing?, hcall, HandleState.afterCall]
  | made | failed | opened | closed _ =>
      rw [hlife] at hclosing
      cases hclosing

/-- What an event is due is what it delivers. -/
theorem Inv.delivers (hinv : Inv kind True False s) {label : Label}
    (hlabel : label.fromLibuv) (hcontract : Contract kind s label)
    (hbacked : BackedRule kind s label) :
    Settles (fun fault => fault = .nullArgument)
      (fun next => next.calls = s.calls ++ dueCalls kind s label)
      (step kind s label) := by
  have hallowed : Allowed kind True False s label := by
    cases label with
    | event _ | late _ | connection | allocEnter | receive _ _ _ | closed =>
        exact ⟨hcontract, hbacked, trivial, fun _ => trivial, False.elim⟩
    | _ => cases hlabel
  have hsettles := step_settles False.elim label hinv hallowed
  cases hstep : step kind s label with
  | error fault => rwa [hstep] at hsettles
  | ok next =>
      cases label with
      | event ends => exact hinv.delivers_event hallowed hstep
      | late start => exact (hinv.delivers_late hallowed).elim
      | connection => exact hinv.delivers_connection hallowed hstep
      | allocEnter => exact hinv.delivers_allocEnter hallowed hstep
      | receive address last ends => exact hinv.delivers_receive hallowed hstep
      | closed => exact hinv.delivers_closed hallowed hstep
      | _ => cases hlabel

theorem Inv.delivers_all (hinv : Inv kind True False s) : Delivers kind s where
  watch_told := (hinv.control.told trivial).1
  listening_told := (hinv.control.told trivial).2
  delivers _ hlabel hcontract hbacked := hinv.delivers hlabel hcontract hbacked

end Delivery

section Runs

/-- A file that is watched, with one event. -/
def watchFile : List Label :=
  [.dup loopAddr, .dup handleAddr, .init none true, .newClosure .fsEvent [],
    .newBytes, .dup handleAddr, .start 7 2 (some 3) .accepted, .event false]

/-- A second `read_start` on a stream that reads, which libuv rejects. -/
def readTwice : List Label :=
  [.dup loopAddr, .dup handleAddr, .init none true, .newClosure .alloc [],
    .newClosure .read [], .dup handleAddr, .receiveStart 0 2 3 .accepted,
    .newClosure .alloc [], .newClosure .read [], .dup handleAddr,
    .receiveStart 0 5 6 .rejected]

end Runs

end UvMbt
