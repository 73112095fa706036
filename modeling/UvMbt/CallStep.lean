/-
Every trampoline that libuv may call keeps the invariant, and with it the
induction over runs.
-/
import UvMbt.StubStep

set_option autoImplicit false

namespace UvMbt

open RefHeap HandleState GuardedRun

section Calls

variable {kind : Kind} {agree counted : Prop} {s : HandleState}

theorem Base.afterCall (hbase : Base kind s) {heap : Heap Obj}
    (call : Option Call) {gained changed lost : List Addr}
    (hbalanced : Balanced heap (↑gained + s.own kind))
    (hframe : Frame changed lost s.heap heap)
    (htyped : handleAddr ∈ changed → ∀ obj, ObjAt heap handleAddr obj →
      ∃ handle, obj = .handle handle) :
    Base kind (s.afterCall heap call gained) := by
  refine hbase.of_frame (hbalanced.congr ?_) ?_ hframe htyped
  · exact (own_gain kind hbase.backed heap ↑gained).symm
  · exact backed_gain hbase.backed heap ↑gained

theorem Control.afterCall (hcontrol : Control kind agree s) (heap : Heap Obj)
    (call : Option Call) (gained : List Addr)
    (hcall : ∀ c, call = some c → c.type ≠ .close) :
    Control kind agree (s.afterCall heap call gained) := by
  refine ⟨hcontrol.plain, hcontrol.stream, hcontrol.apart, hcontrol.stopped,
    hcontrol.allocating, hcontrol.told, ?_, hcontrol.turned, hcontrol.fresh⟩
  refine Eq.trans ?_ hcontrol.calls
  cases call with
  | none => simp [HandleState.afterCall]
  | some call => simp [HandleState.afterCall, hcall call rfl]

theorem afterEvent_kind? (kind : Kind) : (Turn.afterEvent kind).kind? = none := by
  cases kind <;> rfl

/-- libuv comes to no process that is closed, so that it reports on an open
handle. -/
theorem Inv.event_opened (hinv : Inv kind agree counted s) {ends : Bool}
    (hreports : Reports s (kind = .process))
    (hturn : TakesTurn kind s ends) :
    s.life = .opened ∧ s.watch.active.isSome := by
  rcases hreports with hopened | ⟨hclosing, hkind⟩
  · exact hopened
  · subst hkind
    have hexiting : s.turn.kind? = some .process := by
      rw [hturn.1]
      rfl
    rw [(hinv.control.turned _ hexiting).2] at hclosing
    cases hclosing

/-- Nor is a UDP handle closed in a batch of receives. -/
theorem Inv.receive_opened (hinv : Inv kind agree counted s)
    (hreports : Reports s (s.turn = .receiving)) :
    s.life = .opened ∧ s.watch.active.isSome := by
  rcases hreports with hopened | ⟨hclosing, hreceiving⟩
  · exact hopened
  · have hbatch : s.turn.kind? = some .udp := by
      rw [hreceiving]
      rfl
    rw [(hinv.control.turned _ hbatch).2] at hclosing
    cases hclosing

theorem event_ne_close {type : CallbackType} (hevent : kind.event = some type) :
    type ≠ .close := by
  rintro rfl
  cases kind <;> simp [Kind.event, Kind.callback, Kind.initCallback] at hevent

theorem eventOf_eq (heap : Heap Obj) {type : CallbackType}
    (hevent : kind.event = some type) (hfsPoll : kind ≠ .fsPoll)
    (hprocess : kind ≠ .process) :
    eventOf kind heap = eventOf.called type (closureCb heap type) := by
  cases kind <;> simp_all [Kind.event, Kind.callback, Kind.initCallback] <;>
    subst hevent <;> rfl

/-- A call that leaves the handle alone. -/
theorem Inv.afterCall (hinv : Inv kind agree counted s)
    (hcounted : counted → kind ≠ .tty) {heap : Heap Obj}
    (call : Option Call) (gained : List Addr) (ends : Bool)
    (hbalanced : Balanced heap (↑gained + s.own kind))
    (hframe : Frame [] [] s.heap heap)
    (hcall : ∀ c, call = some c → c.type ≠ .close)
    (hphase : s.phase = .idle)
    (hnew : ∀ addr obj, s.heap.cells.length ≤ addr → ObjAt heap addr obj →
      refs obj = []) :
    Inv kind agree counted
      ((s.afterCall heap call gained).watched (s.watch.stop ends)) := by
  have hcontrol := hinv.control
  refine hinv.of_frame
    ((hinv.base.afterCall call hbalanced hframe (by simp)).watched _)
    ((hcontrol.afterCall heap call gained hcall).watched _ ?_
      (fun hlife => stop_none (hcontrol.stopped hlife).1 ends)
      (fun h => stop_told (hcontrol.told h).1 ends)
      (stop_fresh hcontrol ends))
    hframe ?_ (fun h => hinv.base.noTty (hcounted h)) rfl ?_
    (fun _ => rfl) (fun _ h => (stop_active h).2) (fun _ h => h)
  · rcases hcontrol.apart with hnone | hnone
    · exact Or.inl (stop_none hnone ends)
    · exact Or.inr hnone
  · intro _ addr obj hle hobj target htarget
    rw [hnew addr obj hle hobj] at htarget
    cases htarget
  · simp [HandleState.watched, HandleState.afterCall, hphase]

theorem refs_new {old new : Heap Obj}
    (hlength : new.cells.length = old.cells.length) :
    ∀ addr obj, old.cells.length ≤ addr → ObjAt new addr obj →
      refs obj = [] := by
  intro addr obj hle hobj
  have hlt := hobj.lt_length
  rw [hlength] at hlt
  exact absurd hlt (Nat.not_lt.mpr hle)

/-- The exit trampoline empties the slot, and no other exit follows. -/
theorem Inv.exit (hinv : Inv .process agree counted s)
    (hcounted : counted → Kind.process ≠ .tty) {handle : HandleObj}
    {cb : Addr} {captures : List Addr} {ends : Bool}
    (hobj : ObjAt s.heap handleAddr (.handle handle))
    (hdata : handle.data = some cb)
    (hcb : ObjAt s.heap cb (.closure .exit captures))
    (hidle : s.phase = .idle) (hlife : s.life = .opened) (hends : ends) :
    ∃ next, step .process s (.event ends) = .ok next ∧
      Inv .process agree counted next := by
  have hcontrol := hinv.control
  obtain ⟨heap, hrun, hbalanced, hobj', hframe, hlength⟩ :=
    exitCb_spec hinv.base.balanced hobj hdata hcb
  have hbase : Base .process
      (s.afterCall heap (some ⟨.exit, cb⟩) [handleAddr, cb]) :=
    hinv.base.afterCall _ (hbalanced.congr (by simp [← Multiset.cons_coe]))
      hframe (fun _ obj hnew => ⟨_, hnew.unique hobj'⟩)
  have hstep : step .process s (.event ends) = .ok
      (({ s.afterCall heap (some ⟨.exit, cb⟩) [handleAddr, cb] with
        turn := .idle } : HandleState).watched (s.watch.stop ends)) := by
    simp [step, eventOf, hrun, bind, Except.bind, pure, Except.pure,
      Turn.afterEvent]
  have hok := hinv.slot handle hobj
  have hstopped : s.watch.stop ends = .none := by
    simp [Watch.stop, hends]
  refine ⟨_, hstep, (hinv.of_write hcounted []
    { handle with data := none } (hbase.watched (s.watch.stop ends)) ?_
    (fun _ => hobj') hframe ?_ hinv.kept (fun _ h => ⟨rfl, h⟩)
    (fun _ => no_new hlength)).turn .idle s.stale (fun _ h => by cases h)
    (stop_fresh hcontrol ends)⟩
  · rw [hstopped]
    exact (hcontrol.afterCall _ _ _ (by simp)).watched _ (Or.inl rfl)
      (fun _ => rfl) (fun _ => rfl)
      (hcontrol.fresh.imp id (fun h => ⟨h.1, fun _ => rfl⟩))
  · intro _
    constructor
    · exact fun _ => rfl
    · exact hok.loop_eq
    · intro _ start hactive
      rw [hstopped] at hactive
      cases hactive
    · have hnone := listening_none_of_receiver hcontrol
        (by simp [Kind.receiver])
      exact fun _ => forall_active_of_none hnone
    · intro data hphase
      simp [HandleState.watched, HandleState.afterCall, hidle] at hphase
    · intro closeCb hclosing
      have hclosing' : s.life = .closing closeCb := hclosing
      rw [hlife] at hclosing'
      cases hclosing'
    · exact fun _ _ _ => rfl

/-- A process without an exit callback has nothing to call. -/
theorem exit_preserves (hinv : Inv .process agree counted s)
    (hcounted : counted → Kind.process ≠ .tty) {ends : Bool}
    (hallowed : Allowed .process agree counted s (.event ends)) :
    ∃ next, step .process s (.event ends) = .ok next ∧
      Inv .process agree counted next := by
  obtain ⟨-, hreceiver, hreports, hturn⟩ := hallowed.contract
  obtain ⟨hlife, hactive⟩ := hinv.event_opened hreports hturn
  have hidle := hinv.control.plain hreceiver
  obtain ⟨start, hstart⟩ := Option.isSome_iff_exists.mp hactive
  obtain ⟨handle, hobj, -⟩ := hinv.base.handle (hinv.backed hallowed)
  have hregistered := (hinv.slot handle hobj).watch
    (by simp [hidle, Phase.allocating?]) start hstart
  cases hdata : handle.data with
  | none =>
      refine ⟨_, ?_, (hinv.afterCall hcounted none [] ends
        (hinv.base.balanced.congr (by simp)) (Frame.refl [] s.heap) (by simp)
        hidle (refs_new rfl)).turn .idle s.stale (fun _ h => by cases h)
        (stop_fresh hinv.control ends)⟩
      simp [step, eventOf, exitCb_none hobj hdata, bind, Except.bind,
        pure, Except.pure, Turn.afterEvent]
      rfl
  | some cb =>
      rw [hdata] at hregistered
      cases hregistered with
      | receiver hkind => cases hkind
      | closure hevent hcb _ =>
          cases hevent
          exact hinv.exit hcounted hobj hdata hcb hidle hlife hturn.2

/-- What an event of the other handles finds in the slot and calls. -/
theorem Inv.called (hinv : Inv kind agree counted s)
    (hcounted : counted → kind ≠ .tty) (hone : s.Backed 1)
    (hreceiver : kind.receiver = none) (hprocess : kind ≠ .process)
    (hactive : s.watch.active.isSome) :
    ∃ heap call gained, eventOf kind s.heap = .ok (heap, call, gained) ∧
      ∀ ends, Inv kind agree counted
        ((s.afterCall heap call gained).watched (s.watch.stop ends)) := by
  have hidle := hinv.control.plain hreceiver
  obtain ⟨start, hstart⟩ := Option.isSome_iff_exists.mp hactive
  obtain ⟨handle, hobj, -⟩ := hinv.base.handle hone
  have hregistered := (hinv.slot handle hobj).watch
    (by simp [hidle, Phase.allocating?]) start hstart
  cases hdata : handle.data with
  | none =>
      rw [hdata] at hregistered
      cases hregistered with
      | exit hkind => exact absurd hkind hprocess
  | some cb =>
      rw [hdata] at hregistered
      cases hregistered with
      | receiver hkind => simp [hreceiver] at hkind
      | closure hevent hcb _ =>
          by_cases hfsPoll : kind = .fsPoll
          · subst hfsPoll
            cases hevent
            obtain ⟨heap, stats, hrun, hbalanced, hext, hbytes⟩ :=
              fsPollCb_spec hinv.base.balanced hobj hdata hcb
            refine ⟨heap, some ⟨.fsPoll, cb⟩, handleAddr :: cb :: stats, ?_,
              fun ends => hinv.afterCall hcounted _ _ ends hbalanced
                hext.frame (by simp) hidle hbytes⟩
            simp [eventOf, hrun, bind, Except.bind, pure, Except.pure]
          · obtain ⟨heap, hrun, hbalanced, hext, hlength⟩ :=
              closureCb_spec hinv.base.balanced hobj hdata hcb
            refine ⟨heap, some ⟨_, cb⟩, [handleAddr, cb], ?_, fun ends =>
              hinv.afterCall hcounted _ _ ends
                (hbalanced.congr (by simp [← Multiset.cons_coe])) hext.frame
                (by
                  intro c hc
                  cases hc
                  exact event_ne_close hevent) hidle (refs_new hlength)⟩
            simp [eventOf_eq s.heap hevent hfsPoll hprocess,
              eventOf.called, hrun, bind, Except.bind, pure, Except.pure]

theorem event_preserves (hinv : Inv kind agree counted s)
    (hcounted : counted → kind ≠ .tty) {ends : Bool}
    (hallowed : Allowed kind agree counted s (.event ends)) :
    ∃ next, step kind s (.event ends) = .ok next ∧
      Inv kind agree counted next := by
  by_cases hprocess : kind = .process
  · subst hprocess
    exact exit_preserves hinv hcounted hallowed
  · obtain ⟨-, hreceiver, hreports, hturn⟩ := hallowed.contract
    obtain ⟨heap, call, gained, hrun, hnext⟩ := hinv.called hcounted
      (hinv.backed hallowed) hreceiver hprocess
      (hinv.event_opened hreports hturn).2
    refine ⟨_, ?_, (hnext ends).turn (.afterEvent kind) s.stale
      (fun _ h => by cases (afterEvent_kind? kind).symm.trans h)
      (stop_fresh hinv.control ends)⟩
    simp only [step, hrun, bind, Except.bind, pure, Except.pure]
    rfl

/-- A call that stops nothing. -/
theorem watched_afterCall (heap : Heap Obj) (call : Option Call)
    (gained : List Addr) (hidle : s.phase = .idle) :
    (s.afterCall heap call gained).watched (s.watch.stop false) =
      s.afterCall heap call gained := by
  simp [HandleState.watched, HandleState.afterCall, Watch.stop, hidle]

/-- The result of a stopped start goes to the callback that the slot holds. -/
theorem late_preserves (hinv : Inv kind agree counted s)
    (hcounted : counted → kind ≠ .tty) {start : Start}
    (hallowed : Allowed kind agree counted s (.late start)) :
    ∃ next, step kind s (.late start) = .ok next ∧
      Inv kind agree counted next := by
  obtain ⟨-, -, hkind, hactive, -⟩ := hallowed.contract
  have hreceiver : kind.receiver = none := by
    rw [hkind]
    rfl
  obtain ⟨heap, call, gained, hrun, hnext⟩ := hinv.called hcounted
    (hinv.backed hallowed) hreceiver (by rw [hkind]; simp) hactive
  have hfalse := hnext false
  rw [watched_afterCall heap call gained
    (hinv.control.plain hreceiver)] at hfalse
  refine ⟨_, ?_, hfalse⟩
  simp only [step, hrun, bind, Except.bind, pure, Except.pure]

/-- What libuv does between its calls. -/
def Label.betweenCalls : Label → Bool
  | .exiting | .resume _ | .discard _ | .leave => true
  | _ => false

theorem expire_active {watch : Watch} {ends started : Bool} {active : Start}
    (hactive : (if ends then watch.expire started else watch).active =
      some active) : watch.active = some active := by
  cases ends with
  | false => exact hactive
  | true => cases started <;> cases hactive

/-- When the callback of a signal returns, libuv ends a one-shot watch. -/
theorem resume_preserves (hinv : Inv kind agree counted s) {ends : Bool}
    (hallowed : Allowed kind agree counted s (.resume ends)) :
    ∃ next, step kind s (.resume ends) = .ok next ∧
      Inv kind agree counted next := by
  obtain ⟨-, hkind, -⟩ := hallowed.contract
  have hcontrol := hinv.control
  have hidle := hcontrol.plain (by rw [hkind]; rfl)
  have hlistening := listening_none_of_receiver hcontrol (by simp [hkind,
    Kind.receiver])
  have hstale : s.stale = [] := hcontrol.fresh.resolve_right (fun h => by
    rw [hkind] at h
    cases h.1)
  have hturned := hinv.turn .idle s.stale (fun _ h => by cases h) hcontrol.fresh
  refine ⟨_, rfl, hturned.of_frame (hturned.base.watched _)
    (hturned.control.watched _ (Or.inr hlistening) ?_ ?_ (Or.inl hstale))
    (Frame.refl [] s.heap) (fun _ => no_new rfl)
    (fun _ => hinv.base.noTty (by simp [hkind])) rfl ?_ (fun _ => rfl)
    (fun _ h => expire_active h) (fun _ h => h)⟩
  · intro hlife
    cases hactive : (if ends then s.watch.expire
        (s.turn.calling? = some true) else s.watch).active with
    | none => rfl
    | some start =>
        have hwas := expire_active hactive
        rw [(hcontrol.stopped hlife).1] at hwas
        cases hwas
  · intro h
    cases ends with
    | false => exact (hcontrol.told h).1
    | true =>
        have hcalling : s.turn.calling? = some false := hallowed.agree h rfl
        simp [hcalling, Watch.expire, Watch.none]
  · simp [HandleState.watched, hidle]

/-- What libuv does between its calls leaves the heap alone. -/
theorem turn_preserves (hinv : Inv kind agree counted s) {label : Label}
    (hlabel : label.betweenCalls) (hallowed : Allowed kind agree counted s label) :
    ∃ next, step kind s label = .ok next ∧ Inv kind agree counted next := by
  cases label with
  | exiting =>
      obtain ⟨-, hlife, hkind, -, -⟩ := hallowed.contract
      refine ⟨_, rfl, hinv.turn .exiting s.stale ?_ hinv.control.fresh⟩
      intro type htype
      cases htype
      exact ⟨hkind, hlife⟩
  | discard start =>
      obtain ⟨-, hnone, hmem⟩ := hallowed.contract
      refine ⟨_, rfl, hinv.turn s.turn (s.stale.erase start)
        hinv.control.turned ?_⟩
      rcases hinv.control.fresh with hnil | ⟨hkind, -⟩
      · simp [hnil] at hmem
      · exact Or.inr ⟨hkind, fun _ => hnone⟩
  | resume ends => exact resume_preserves hinv hallowed
  | leave =>
      exact ⟨_, rfl, hinv.turn .idle s.stale (fun _ h => by cases h)
        hinv.control.fresh⟩
  | _ => cases hlabel

theorem connection_preserves (hinv : Inv kind agree counted s)
    (hcounted : counted → kind ≠ .tty)
    (hallowed : Allowed kind agree counted s .connection) :
    ∃ next, step kind s .connection = .ok next ∧
      Inv kind agree counted next := by
  obtain ⟨-, hlife, hreceiver, hactive, hidle⟩ := hallowed.contract
  obtain ⟨start, hstart⟩ := Option.isSome_iff_exists.mp hactive
  obtain ⟨handle, hobj, -⟩ := hinv.base.handle (hinv.backed hallowed)
  have hok := hinv.slot handle hobj
  obtain ⟨cb, captures, hdata, hcb, -⟩ :=
    hok.listening (by simp [hidle, Phase.allocating?]) start hstart
  obtain ⟨heap, hrun, hbalanced, hext, hlength⟩ :=
    closureCb_spec hinv.base.balanced hobj hdata hcb
  have hnext := hinv.afterCall hcounted (some ⟨.connection, cb⟩)
    [handleAddr, cb] false
    (hbalanced.congr (by simp [← Multiset.cons_coe])) hext.frame (by simp)
    hidle (refs_new hlength)
  rw [watched_afterCall heap _ _ hidle] at hnext
  refine ⟨_, ?_, hnext⟩
  simp [step, listenCb, hrun, bind, Except.bind, pure, Except.pure]

theorem receiver_of_watch (hinv : Inv kind agree counted s)
    {type : ReceiverType} (hkind : kind.receiver = some type)
    (hactive : s.watch.active.isSome) (hphase : s.phase.allocating? = none)
    {handle : HandleObj} (hobj : ObjAt s.heap handleAddr (.handle handle)) :
    ∃ data receive, handle.data = some data ∧
      ObjAt s.heap data (.receiver type receive) ∧
      (s.phase = .idle → receive.bytes = none) ∧
      (agree → ∀ start, s.watch.active = some start →
        start.callbacks = [receive.allocCb, receive.readCb]) := by
  obtain ⟨start, hstart⟩ := Option.isSome_iff_exists.mp hactive
  have hregistered := (hinv.slot handle hobj).watch hphase start hstart
  cases hdata : handle.data with
  | none =>
      rw [hdata] at hregistered
      cases hregistered with
      | exit hprocess => simp [hprocess, Kind.receiver] at hkind
  | some data =>
      rw [hdata] at hregistered
      cases hregistered with
      | receiver hkind' hreceive hbytes hagree =>
          rw [hkind] at hkind'
          cases hkind'
          refine ⟨data, _, rfl, hreceive, hbytes, ?_⟩
          intro h start' hstart'
          rw [hstart] at hstart'
          cases hstart'
          exact hagree h
      | closure hevent _ _ =>
          cases kind <;> simp [Kind.event, Kind.callback, Kind.initCallback,
            Kind.receiver] at hevent hkind

/-- Only a UDP handle is in a batch of receives. -/
theorem receive_turned (hlife : s.life = .opened) {last : Bool} (type : Kind)
    (hturn : (Turn.receive kind last).kind? = some type) :
    kind = type ∧ s.life = .opened := by
  rw [Turn.receive] at hturn
  split at hturn
  · rename_i hbatch
    cases hturn
    exact ⟨hbatch.1, hlife⟩
  · cases hturn

theorem allocEnter_preserves (hinv : Inv kind agree counted s)
    (hcounted : counted → kind ≠ .tty)
    (hallowed : Allowed kind agree counted s .allocEnter) :
    ∃ next, step kind s .allocEnter = .ok next ∧
      Inv kind agree counted next := by
  obtain ⟨-, hlife, hsome, hactive, hidle, -⟩ := hallowed.contract
  obtain ⟨type, hkind⟩ := Option.isSome_iff_exists.mp hsome
  have hcontrol := hinv.control
  have hlistening : s.listening.active = none := by
    rcases hcontrol.apart with hnone | hnone
    · simp [hnone] at hactive
    · exact hnone
  obtain ⟨handle, hobj, -⟩ := hinv.base.handle (hinv.backed hallowed)
  have hok := hinv.slot handle hobj
  obtain ⟨data, receive, hdata, hreceive, hbytes, hagree⟩ :=
    receiver_of_watch hinv hkind hactive (by simp [hidle, Phase.allocating?])
      hobj
  obtain ⟨heap, hrun, hbalanced, hobj', hreceive', hframe, hlength⟩ :=
    allocCbEnter_spec hinv.base.balanced hobj hdata hreceive
  have hstep : step kind s .allocEnter = .ok
      { s.afterCall heap (some ⟨.alloc, receive.allocCb⟩)
          [handleAddr, receive.allocCb] with
        phase := .allocating data
        turn := .receive kind false } := by
    simp [step, hkind, hrun, bind, Except.bind, pure, Except.pure]
  have hbase : Base kind
      { s.afterCall heap (some ⟨.alloc, receive.allocCb⟩)
          [handleAddr, receive.allocCb] with
        phase := .allocating data
        turn := .receive kind false } := by
    refine hinv.base.of_frame (hbalanced.congr ?_)
      (backed_gain hinv.base.backed heap
        ↑[handleAddr, receive.allocCb]) hframe
      (fun _ obj hnew => ⟨_, hnew.unique hobj'⟩)
    have hgain := own_gain kind hinv.base.backed heap
      ↑[handleAddr, receive.allocCb]
    simp only [HandleState.own, HandleState.saved, hidle, hkind,
      Phase.allocating?, HandleState.afterCall, Multiset.coe_nil,
      zero_add] at hgain ⊢
    rw [hgain]
    simp [← Multiset.cons_coe]
  refine ⟨_, hstep, hinv.of_write hcounted [] _ hbase ?_
    (fun _ => hobj') hframe ?_ hinv.kept (fun _ h => ⟨rfl, h⟩)
    (fun _ => no_new hlength)⟩
  · have hcontrol' := hcontrol.afterCall heap
      (some ⟨.alloc, receive.allocCb⟩) [handleAddr, receive.allocCb] (by simp)
    refine ⟨fun hnone => ?_, hcontrol'.stream, hcontrol'.apart, ?_,
      fun _ => hlistening, hcontrol'.told, hcontrol'.calls,
      receive_turned hlife, hcontrol'.fresh⟩
    · rw [hkind] at hnone
      cases hnone
    · exact fun hclosed => absurd hlife hclosed
  · intro _
    refine .of_opened hlife hok.loop_eq ?_ ?_ ?_
    · intro hnone
      cases hnone
    · intro hnone
      cases hnone
    · intro data' hphase
      cases hphase
      refine ⟨type, receive, hkind, hreceive', hbytes hidle, ?_, hagree⟩
      intro hudp
      subst hudp
      rfl

/-- The state in which the alloc callback leaves a handle, with some heap. -/
abbrev HandleState.left (s : HandleState) (heap : Heap Obj) (buffer : Addr) :
    HandleState :=
  { s with heap, user := s.user - {buffer}, phase := .afterAlloc s.watch }

theorem step_allocLeave {type : ReceiverType} {data buffer : Addr}
    {heap : Heap Obj} (hkind : kind.receiver = some type)
    (hphase : s.phase = .allocating data)
    (hrun : allocCbLeave s.heap type data buffer = .ok heap) :
    step kind s (.allocLeave buffer) = .ok (s.left heap buffer) := by
  simp [step, hkind, hphase, hrun, bind, Except.bind, pure, Except.pure]

/-- The ledger when the alloc callback has returned its buffer. -/
theorem own_allocLeave {buffer data : Addr} {type : ReceiverType}
    (hkind : kind.receiver = some type) (hphase : s.phase = .allocating data)
    (hle : {buffer} ≤ s.user) (hone : s.Backed 1) (heap : Heap Obj)
    (phase : Phase) (hphase' : phase.allocating? = none)
    (hne : buffer ≠ handleAddr) :
    s.own kind = buffer ::ₘ (↑(savedData type data) +
        ({ s with heap, user := s.user - {buffer}, phase } :
          HandleState).own kind) ∧
      ({ s with heap, user := s.user - {buffer}, phase } :
        HandleState).Backed 1 := by
  have hzero : Multiset.count handleAddr {buffer} = 0 :=
    Multiset.count_eq_zero.mpr (by simpa using Ne.symm hne)
  have hledger := ledger_sub s.kept hle (by
    simp only [HandleState.Backed] at hone
    omega)
  have hsaved : s.phase.allocating? = some data := by
    rw [hphase]
    rfl
  constructor
  · simp only [HandleState.own, HandleState.saved, hkind, hsaved, hphase',
      hledger, ← Multiset.singleton_add, Multiset.coe_nil]
    abel
  · simpa only [HandleState.Backed, Multiset.count_sub, hzero,
      Nat.sub_zero] using hone

theorem allocating_opened (hcontrol : Control kind agree s) {data : Addr}
    (hphase : s.phase = .allocating data) : s.life = .opened := by
  by_contra hlife
  have hidle := (hcontrol.stopped hlife).2.2
  rw [hphase] at hidle
  cases hidle

theorem afterAlloc_allocating? (watch : Watch) :
    (Phase.afterAlloc watch).allocating? = none := by
  simp only [Phase.afterAlloc]
  split <;> rfl

theorem afterAlloc_not_idle {watch : Watch} {start : Start}
    (hactive : watch.active = some start) :
    Phase.afterAlloc watch ≠ .idle := by
  simp [Phase.afterAlloc, hactive]

/-- Receiver data keeps its rank when a buffer is stored in it. -/
theorem ranked_receiver {old new : Heap Obj} {own : Multiset Addr}
    {changed lost : List Addr} {type : ReceiverType} {data : Addr}
    {receive : ReceiveData} {bytes : Option Addr}
    (hranked : Ranked old) (hframe : Frame changed lost old new)
    (hbalanced : Balanced new own)
    (hunchanged : ∀ addr ∈ changed, ¬ ObjAt old addr .bytes)
    (hold : ObjAt old data (.receiver type receive))
    (hne : data ≠ handleAddr)
    (hnew : ObjAt new data (.receiver type { receive with bytes }))
    (hbytes : ∀ addr, bytes = some addr → ObjAt old addr .bytes) :
    ∀ target ∈ refs (Obj.receiver type { receive with bytes }),
      target < data ∨ ObjAt new target .bytes := by
  intro target htarget
  have hkept : ObjAt old target .bytes → ObjAt new target .bytes :=
    fun hbytes' => hframe.keeps.objAt hbytes'
      (fun hmem => hunchanged _ hmem hbytes')
      (hbalanced.live_of_refs hnew htarget)
  rw [refs_receiver, List.mem_append] at htarget
  rcases htarget with hbuffer | hcallback
  · exact Or.inr (hkept (hbytes target (by simpa using hbuffer)))
  · rcases hranked data _ hold hne target (by
      rw [refs_receiver, List.mem_append]
      exact Or.inr hcallback) with hlt | hbytes'
    · exact Or.inl hlt
    · exact Or.inr (hkept hbytes')

theorem not_bytes_of_objAt {heap : Heap Obj} {addr : Addr} {obj : Obj}
    (hobj : ObjAt heap addr obj) (hne : obj ≠ .bytes) :
    ¬ ObjAt heap addr .bytes :=
  fun hbytes => hne (hobj.unique hbytes)

theorem Control.left (hcontrol : Control kind agree s)
    (hlife : s.life = .opened) (hkind : kind.receiver.isSome) (heap : Heap Obj)
    (buffer : Addr) : Control kind agree (s.left heap buffer) := by
  refine ⟨fun h => ?_, hcontrol.stream, hcontrol.apart,
    fun h => absurd hlife h, fun h => ?_, hcontrol.told, hcontrol.calls,
    hcontrol.turned, hcontrol.fresh⟩
  · rw [h] at hkind
    cases hkind
  · simp [afterAlloc_allocating?] at h

/-- The slot holds the receiver data, which holds the buffer. -/
theorem SlotOk.left {type : ReceiverType} {data buffer : Addr}
    {receive : ReceiveData} {handle : HandleObj} {heap : Heap Obj}
    (hok : SlotOk kind agree counted s handle)
    (hcontrol : Control kind agree s) (hlife : s.life = .opened)
    (hkind : kind.receiver = some type) (hphase : s.phase = .allocating data)
    (hagree : agree → ∀ start, s.watch.active = some start →
      start.callbacks = [receive.allocCb, receive.readCb])
    (hreceive : ObjAt heap data
      (.receiver type { receive with bytes := some buffer })) :
    SlotOk kind agree counted (s.left heap buffer)
      { handle with data := some data } := by
  refine .of_opened hlife hok.loop_eq ?_ ?_ ?_
  · intro _ start hactive
    exact .receiver hkind hreceive
      (fun hidle => absurd hidle (afterAlloc_not_idle hactive))
      (fun h => hagree h start hactive)
  · have hnone := hcontrol.allocating (by simp [hphase, Phase.allocating?])
    exact fun _ => forall_active_of_none hnone
  · intro data' hdata
    have hnone := afterAlloc_allocating? s.watch
    have hdata' : Phase.afterAlloc s.watch = .allocating data' := hdata
    rw [hdata'] at hnone
    cases hnone

theorem Base.left {buffer : Addr} {heap : Heap Obj} {changed lost : List Addr}
    {handle : HandleObj} (hbase : Base kind s)
    (hbacked : (s.left s.heap buffer).Backed 1)
    (hbalanced : Balanced heap ((s.left heap buffer).own kind))
    (hframe : Frame changed lost s.heap heap)
    (hobj : ObjAt heap handleAddr (.handle handle)) :
    Base kind (s.left heap buffer) := by
  refine hbase.of_frame hbalanced ?_ hframe
    (fun _ obj hnew => ⟨_, hnew.unique hobj⟩)
  simp only [HandleState.Backed] at hbacked ⊢
  omega

/-- Of the changed objects only the receiver data may point to a later one, to
the buffer. -/
theorem ranked_left {type : ReceiverType} {data buffer : Addr}
    {receive : ReceiveData} {heap : Heap Obj} {own : Multiset Addr}
    {changed lost : List Addr} (hranked : Ranked s.heap)
    (hreceive : ObjAt s.heap data (.receiver type receive))
    (hne : data ≠ handleAddr) (hbytes : ObjAt s.heap buffer .bytes)
    (hframe : Frame changed lost s.heap heap) (hbalanced : Balanced heap own)
    (hunchanged : ∀ addr ∈ changed, ¬ ObjAt s.heap addr .bytes)
    (hlength : heap.cells.length = s.heap.cells.length)
    (hchanged : ∀ addr ∈ changed, addr = handleAddr ∨ addr = data)
    (hreceive' : ObjAt heap data
      (.receiver type { receive with bytes := some buffer })) :
    ∀ addr obj, ObjAt heap addr obj → addr ≠ handleAddr →
      addr ∈ changed ∨ s.heap.cells.length ≤ addr →
        ∀ target ∈ refs obj, target < addr ∨ ObjAt heap target .bytes := by
  intro addr obj hobj hother hwas
  rcases hwas with hmem | hle
  · obtain rfl := (hchanged addr hmem).resolve_left hother
    rw [hobj.unique hreceive']
    refine ranked_receiver hranked hframe hbalanced hunchanged hreceive hne
      hreceive' ?_
    intro addr' haddr'
    cases haddr'
    exact hbytes
  · exact no_new hlength addr obj hle hobj

theorem allocLeave_preserves (hinv : Inv kind agree counted s)
    (hcounted : counted → kind ≠ .tty) {buffer : Addr}
    (hallowed : Allowed kind agree counted s (.allocLeave buffer)) :
    ∃ next, step kind s (.allocLeave buffer) = .ok next ∧
      Inv kind agree counted next := by
  obtain ⟨hle, hsome, hallocating, hbuffer⟩ := hallowed.contract
  obtain ⟨type, hkind⟩ := Option.isSome_iff_exists.mp hsome
  obtain ⟨data, hphase⟩ : ∃ data, s.phase = .allocating data := by
    cases hp : s.phase with
    | allocating data => exact ⟨data, rfl⟩
    | idle | ready => simp [hp, Phase.allocating?] at hallocating
  have hcontrol := hinv.control
  have hlife := allocating_opened hcontrol hphase
  have hone : s.Backed 1 := hinv.backed hallowed
  have hbytes := isBytes_objAt hbuffer
  obtain ⟨handle, hobj, -⟩ := hinv.base.handle hone
  have hok := hinv.slot handle hobj
  obtain ⟨type', receive, hkind', hreceive, hnone, hudp, hagree⟩ :=
    hok.allocating data hphase
  rw [hkind] at hkind'
  cases hkind'
  have hne := ObjAt.ne_handleAddr hobj hreceive (by intro _ h; cases h)
  obtain ⟨hown, hbacked⟩ := own_allocLeave hkind hphase hle hone s.heap
    (.afterAlloc s.watch) (afterAlloc_allocating? s.watch)
    (ObjAt.ne_handleAddr hobj hbytes (by intro _ h; cases h))
  have hlost : counted → s.life ≠ .failed →
      receive.bytes.toList = [] ∧ s.life ≠ .failed :=
    fun _ h => ⟨by simp [hnone], h⟩
  have hnot_data : ¬ ObjAt s.heap data .bytes :=
    not_bytes_of_objAt hreceive (by intro h; cases h)
  cases type with
  | stream =>
      obtain ⟨heap, hrun, hbalanced, hobj', hreceive', hframe, hlength⟩ :=
        allocCbLeave_stream_spec (hinv.base.balanced.congr hown) hobj hreceive
          (mem_own kind hbacked)
      have hunchanged : ∀ addr ∈ [handleAddr, data],
          ¬ ObjAt s.heap addr .bytes := by
        intro addr hmem
        simp only [List.mem_cons, List.not_mem_nil, or_false] at hmem
        rcases hmem with rfl | rfl
        · exact hinv.base.handle_not_bytes
        · exact hnot_data
      have hbase := hinv.base.left hbacked (hbalanced.congr rfl) hframe hobj'
      exact ⟨_, step_allocLeave hkind hphase hrun,
        hinv.of_change hcounted _ hbase
          (hcontrol.left hlife hsome heap buffer) (fun _ => hobj') hframe
          (fun _ => hok.left hcontrol hlife hkind hphase hagree hreceive')
          hinv.kept hlost hunchanged
          (fun h => ranked_left (hinv.ranked h) hreceive hne hbytes hframe
            hbalanced hunchanged hlength (by simp) hreceive')⟩
  | udp =>
      obtain ⟨heap, hrun, hbalanced, hreceive', hframe, hsame, hlength⟩ :=
        allocCbLeave_udp_spec (hinv.base.balanced.congr hown) hreceive
      have hobj' := hsame _ _ hne.symm hobj
      have hdata : handle = { handle with data := some data } := by
        rw [← hudp rfl]
      rw [hdata] at hobj'
      have hunchanged : ∀ addr ∈ [data], ¬ ObjAt s.heap addr .bytes := by
        intro addr hmem
        rw [List.mem_singleton] at hmem
        subst hmem
        exact hnot_data
      have hbalanced' : Balanced heap ((s.left heap buffer).own kind) :=
        hbalanced.congr (by
          simp only [savedData, Multiset.coe_nil, zero_add]; rfl)
      have hbase := hinv.base.left hbacked hbalanced' hframe hobj'
      exact ⟨_, step_allocLeave hkind hphase hrun,
        hinv.of_change hcounted _ hbase
          (hcontrol.left hlife hsome heap buffer) (fun _ => hobj') hframe
          (fun _ => hok.left hcontrol hlife hkind hphase hagree hreceive')
          hinv.kept hlost hunchanged
          (fun h => ranked_left (hinv.ranked h) hreceive hne hbytes hframe
            hbalanced hunchanged hlength (by simp) hreceive')⟩

theorem Control.received (hcontrol : Control kind agree s)
    {type : ReceiverType} {heap : Heap Obj} {gained : List Addr} (call : Call)
    (last ends : Bool) (hkind : kind.receiver = some type)
    (hlife : s.life = .opened) (hlistening : s.listening.active = none)
    (hcall : call.type ≠ .close) :
    Control kind agree
      (({ s.afterCall heap (some call) gained with
        phase := if last then .idle else .ready
        turn := .receive kind last } : HandleState).watched
          (s.watch.stop ends)) := by
  have hcontrol' := hcontrol.afterCall heap (some call) gained (by
    intro c hc
    cases hc
    exact hcall)
  have hready : Control kind agree
      { s.afterCall heap (some call) gained with
        phase := if last then .idle else .ready
        turn := .receive kind last } := by
    refine ⟨fun h => ?_, hcontrol'.stream, hcontrol'.apart,
      fun h => absurd hlife h, fun _ => hlistening, hcontrol'.told,
      hcontrol'.calls, receive_turned hlife, hcontrol'.fresh⟩
    rw [hkind] at h
    cases h
  exact hready.watched _ (Or.inr hlistening)
    (fun h => absurd hlife h)
    (fun h => stop_told (hcontrol.told h).1 ends)
    (stop_fresh hcontrol ends)

/-- The read trampolines: the buffer goes to the user, the slot stays. -/
theorem Inv.receive (hinv : Inv kind agree counted s)
    (hcounted : counted → kind ≠ .tty) {type : ReceiverType} {data : Addr}
    {receive : ReceiveData} {handle : HandleObj} {heap : Heap Obj}
    {gained : List Addr} (call : Call) (last ends : Bool)
    (hkind : kind.receiver = some type) (hlife : s.life = .opened)
    (hlistening : s.listening.active = none)
    (hphase : s.phase.allocating? = none)
    (hobj : ObjAt s.heap handleAddr (.handle handle))
    (hdata : handle.data = some data)
    (hreceive : ObjAt s.heap data (.receiver type receive))
    (hagree : agree → ∀ start, s.watch.active = some start →
      start.callbacks = [receive.allocCb, receive.readCb])
    (hcall : call.type ≠ .close)
    (hbalanced : Balanced heap (↑gained + s.own kind))
    (hobj' : ObjAt heap handleAddr (.handle handle))
    (hreceive' : ObjAt heap data
      (.receiver type { receive with bytes := none }))
    (hframe : Frame [data] [] s.heap heap)
    (hnew : ∀ addr obj, s.heap.cells.length ≤ addr → ObjAt heap addr obj →
      refs obj = []) :
    Inv kind agree counted
      (({ s.afterCall heap (some call) gained with
        phase := if last then .idle else .ready
        turn := .receive kind last } : HandleState).watched
          (s.watch.stop ends)) := by
  have hcontrol := hinv.control
  have hok := hinv.slot handle hobj
  have hne := ObjAt.ne_handleAddr hobj hreceive (by intro _ h; cases h)
  have hphase' : (if last then Phase.idle else .ready).allocating? = none := by
    cases last <;> rfl
  have hbase : Base kind
      ({ s.afterCall heap (some call) gained with
        phase := if last then .idle else .ready
        turn := .receive kind last } : HandleState) := by
    refine (hinv.base.afterCall (some call) hbalanced hframe ?_).congr
      rfl rfl rfl ?_
    · intro hmem
      exact absurd (List.mem_singleton.mp hmem).symm hne
    · simp only [HandleState.saved, HandleState.afterCall, hkind, hphase,
        hphase']
  have hunchanged : ∀ addr ∈ [data], ¬ ObjAt s.heap addr .bytes := by
    intro addr hmem
    rw [List.mem_singleton] at hmem
    subst hmem
    exact not_bytes_of_objAt hreceive (by intro h; cases h)
  refine hinv.of_change hcounted [] (hbase.watched _) ?_
    (fun _ => hobj') hframe ?_ hinv.kept (fun _ h => ⟨rfl, h⟩) hunchanged ?_
  · exact hinv.control.received call last ends hkind hlife hlistening hcall
  · intro _
    refine .of_opened hlife hok.loop_eq ?_ ?_ ?_
    · intro _ start hactive
      have hwas : s.watch.active = some start := (stop_active hactive).2
      rw [hdata]
      exact .receiver hkind hreceive' (fun _ => rfl)
        (fun h => hagree h start hwas)
    · exact fun _ => forall_active_of_none hlistening
    · intro data' hdata'
      have hnone := settle_allocating? (if last then .idle else .ready)
        (s.watch.stop ends)
      have hdata'' : (if last then Phase.idle else .ready).settle
          (s.watch.stop ends) = .allocating data' := hdata'
      rw [hdata'', hphase'] at hnone
      cases hnone
  · intro h addr obj hobj'' hne' hwas
    rcases hwas with hmem | hle
    · rw [List.mem_singleton] at hmem
      subst hmem
      rw [hobj''.unique hreceive']
      refine ranked_receiver (hinv.ranked h) hframe hbalanced hunchanged
        hreceive hne hreceive' ?_
      intro addr haddr
      cases haddr
    · intro target htarget
      rw [hnew addr obj hle hobj''] at htarget
      cases htarget

/-- A UDP receive without an address is the one call that faults. -/
theorem receive_settles (hinv : Inv kind agree counted s)
    (hcounted : counted → kind ≠ .tty) {address last ends : Bool}
    (hallowed : Allowed kind agree counted s (.receive address last ends)) :
    Settles (fun fault => fault = .nullArgument) (Inv kind agree counted)
      (step kind s (.receive address last ends)) := by
  obtain ⟨-, hsome, hphase, hreports⟩ := hallowed.contract
  obtain ⟨hlife, hactive⟩ := hinv.receive_opened hreports
  obtain ⟨type, hkind⟩ := Option.isSome_iff_exists.mp hsome
  have hlistening : s.listening.active = none := by
    rcases hinv.control.apart with hnone | hnone
    · simp [hnone] at hactive
    · exact hnone
  obtain ⟨handle, hobj, -⟩ := hinv.base.handle (hinv.backed hallowed)
  obtain ⟨data, receive, hdata, hreceive, -, hagree⟩ :=
    receiver_of_watch hinv hkind hactive hphase hobj
  cases type with
  | stream =>
      obtain ⟨heap, hrun, hbalanced, hobj', hreceive', hframe, hlength⟩ :=
        readCb_spec hinv.base.balanced hobj hdata hreceive
      have hnext := hinv.receive hcounted ⟨.read, receive.readCb⟩ last ends
        hkind hlife hlistening hphase
        hobj hdata hreceive hagree (by simp) hbalanced hobj' hreceive' hframe
        (refs_new hlength)
      simpa [step, receiveOf, hkind, hrun, bind, Except.bind, pure,
        Except.pure, Settles] using hnext
  | udp =>
      cases address with
      | false =>
          have hrun := udpRecvCb_no_address hinv.base.balanced hobj hdata
            hreceive
          simp [step, receiveOf, hkind, hrun, bind, Except.bind, Settles]
      | true =>
          obtain ⟨heap, copied, hrun, hbalanced, hobj', hreceive', hframe,
            hnew⟩ := udpRecvCb_spec hinv.base.balanced hobj hdata hreceive
          have hnext := hinv.receive hcounted ⟨.udpRecv, receive.readCb⟩ last
            ends hkind hlife hlistening
            hphase hobj hdata hreceive hagree (by simp) hbalanced hobj'
            hreceive' hframe hnew
          simpa [step, receiveOf, hkind, hrun, bind, Except.bind, pure,
            Except.pure, Settles] using hnext

/-- Without the reference that libuv kept for the close callback. -/
abbrev HandleState.released (s : HandleState) : HandleState :=
  { s with kept := s.kept - 1 }

theorem own_released (kind : Kind) (hone : s.Backed 1) :
    s.released.Backed 0 ∧
      s.own kind = handleAddr ::ₘ s.released.own kind := by
  simp only [HandleState.Backed] at hone ⊢
  refine ⟨by omega, ?_⟩
  have hledger : ledger s.user s.kept =
      handleAddr ::ₘ ledger s.user (s.kept - 1) := by
    ext addr
    rw [Multiset.count_cons, count_ledger, count_ledger]
    by_cases haddr : addr = handleAddr
    · simp only [haddr, ↓reduceIte]
      omega
    · simp [haddr]
  simp only [HandleState.own, hledger, Multiset.add_cons]
  rfl

theorem exists_closing (hclosing : s.life.closing?.isSome) :
    ∃ closeCb, s.life = .closing closeCb := by
  cases hlife : s.life with
  | closing closeCb => exact ⟨closeCb, rfl⟩
  | made | failed | opened | closed _ =>
      simp [hlife, Life.closing?] at hclosing

/-- The close trampoline finds the close callback and calls it once. -/
theorem closed_preserves (hinv : Inv kind agree counted s)
    (hcounted : counted → kind ≠ .tty)
    (hallowed : Allowed kind agree counted s .closed) :
    ∃ next, step kind s .closed = .ok next ∧ Inv kind agree counted next := by
  obtain ⟨-, hclosing, hidle, -⟩ := hallowed.contract
  have hcontrol := hinv.control
  obtain ⟨closeCb, hlife⟩ := exists_closing hclosing
  obtain ⟨hwatch, hlistening, -⟩ :=
    hcontrol.stopped (by rw [hlife]; intro h; cases h)
  have hone : s.Backed 1 := hinv.backed hallowed
  obtain ⟨handle, hobj, -⟩ := hinv.base.handle hone
  have hok := hinv.slot handle hobj
  obtain ⟨hdata, captures, hcb⟩ := hok.closing closeCb hlife
  obtain ⟨hbacked, hown⟩ := own_released kind hone
  obtain ⟨heap, hrun, hbalanced, hhandle, hframe, hlength⟩ :=
    closeCb_spec (hinv.base.balanced.congr hown) hobj hdata hcb
  have hstep : step kind s .closed = .ok
      { s.afterCall heap (some ⟨.close, closeCb⟩) [closeCb] with
        kept := s.kept - 1
        life := .closed closeCb } := by
    simp [step, hlife, hrun, bind, Except.bind, pure, Except.pure]
  have hbase : Base kind
      { s.afterCall heap (some ⟨.close, closeCb⟩) [closeCb] with
        kept := s.kept - 1
        life := .closed closeCb } := by
    refine hinv.base.of_frame (hbalanced.congr ?_)
      (backed_gain hbacked heap ↑[closeCb]) hframe
      (fun _ obj hnew => ⟨_, hnew.unique (hhandle hnew.live)⟩)
    rw [← Multiset.singleton_add]
    exact (own_gain kind hbacked heap ↑[closeCb]).symm
  refine ⟨_, hstep, hinv.of_write hcounted [] _ hbase ?_ hhandle
    hframe ?_ ?_ ?_ (fun _ => no_new hlength)⟩
  · refine ⟨hcontrol.plain, hcontrol.stream, hcontrol.apart,
      fun _ => ⟨hwatch, hlistening, hidle⟩, hcontrol.allocating,
      hcontrol.told, ?_, ?_, hcontrol.fresh⟩
    rotate_left
    · intro type h
      have hopened := (hcontrol.turned type h).2
      rw [hlife] at hopened
      cases hopened
    have hcalls := hcontrol.calls
    rw [hlife] at hcalls
    simp [HandleState.afterCall, hcalls]
  · intro _
    constructor
    · exact fun hmade => by cases hmade
    · have hloop := hok.loop_eq
      simp only [hlife] at hloop
      simpa using hloop
    · exact fun _ => forall_active_of_none hwatch
    · exact fun _ => forall_active_of_none hlistening
    · intro data hphase
      have hphase' : Phase.idle = .allocating data := hidle.symm.trans hphase
      cases hphase'
    · intro closeCb' hclosing'
      cases hclosing'
    · exact fun _ _ _ => rfl
  · intro hproper
    have hkept := hinv.kept hproper
    rw [hlife] at hkept
    simp [hkept, Life.kept]
  · intro _ _
    exact ⟨rfl, by rw [hlife]; intro h; cases h⟩

theorem settles_of_preserves {label : Label}
    (hpreserves : ∃ next, step kind s label = .ok next ∧
      Inv kind agree counted next) :
    Settles (fun fault => fault = .nullArgument) (Inv kind agree counted)
      (step kind s label) := by
  obtain ⟨next, hstep, hnext⟩ := hpreserves
  rw [hstep]
  exact hnext

/-- One step that follows the rules keeps the invariant. -/
theorem step_settles (hcounted : counted → kind ≠ .tty) (label : Label)
    (hinv : Inv kind agree counted s)
    (hallowed : Allowed kind agree counted s label) :
    Settles (fun fault => fault = .nullArgument) (Inv kind agree counted)
      (step kind s label) := by
  cases label with
  | receive address last ends => exact receive_settles hinv hcounted hallowed
  | newClosure _ _ | newBytes | dup _ | drop _ | walk | unpack _ _ =>
      exact settles_of_preserves (object_preserves hinv hcounted rfl hallowed)
  | init cb accepted =>
      exact settles_of_preserves (init_preserves hinv hcounted hallowed)
  | start param cb path answer =>
      exact settles_of_preserves (start_preserves hinv hcounted hallowed)
  | stop accepted =>
      exact settles_of_preserves (stop_preserves hinv hcounted hallowed)
  | receiveStart param allocCb readCb answer =>
      exact settles_of_preserves (receiveStart_preserves hinv hcounted hallowed)
  | receiveStop accepted =>
      exact settles_of_preserves (receiveStop_preserves hinv hcounted hallowed)
  | listen param cb accepted =>
      exact settles_of_preserves (listen_preserves hinv hcounted hallowed)
  | close closeCb =>
      exact settles_of_preserves (close_preserves hinv hcounted hallowed)
  | closeReset closeCb accepted =>
      exact settles_of_preserves (closeReset_preserves hinv hcounted hallowed)
  | send => exact settles_of_preserves (send_preserves hinv hcounted hallowed)
  | exiting | resume _ | discard _ | leave =>
      exact settles_of_preserves (turn_preserves hinv rfl hallowed)
  | event ends =>
      exact settles_of_preserves (event_preserves hinv hcounted hallowed)
  | late start =>
      exact settles_of_preserves (late_preserves hinv hcounted hallowed)
  | connection =>
      exact settles_of_preserves (connection_preserves hinv hcounted hallowed)
  | allocEnter =>
      exact settles_of_preserves (allocEnter_preserves hinv hcounted hallowed)
  | allocLeave buffer =>
      exact settles_of_preserves (allocLeave_preserves hinv hcounted hallowed)
  | closed =>
      exact settles_of_preserves (closed_preserves hinv hcounted hallowed)

end Calls

end UvMbt
