/-
Every stub call that follows the rules keeps the invariant.
-/
import UvMbt.HandleStep

set_option autoImplicit false

namespace UvMbt

open RefHeap HandleState

section Stubs

variable {kind : Kind} {agree counted : Prop} {s : HandleState}

theorem receiver_none_of_callback (hkind : kind.callback.isSome) :
    kind.receiver = none := by
  cases kind <;> simp_all [Kind.callback, Kind.receiver]

theorem event_of_callback {type : CallbackType}
    (hkind : kind.callback = some type) : kind.event = some type := by
  simp [Kind.event, hkind]

theorem startOf_eq (heap : Heap Obj) (cb : Addr) {path : Option Addr}
    (hkind : kind.callback.isSome)
    (hpath : path.isSome ↔ kind = .fsEvent ∨ kind = .fsPoll) :
    startOf kind heap cb path =
      slotStub (.set (some cb)) (kind.startReleases path) heap := by
  cases kind <;> cases path <;>
    simp_all [startOf, Kind.startReleases, Kind.callback, timerStart,
      idleStart, checkStart, prepareStart, pollStart, signalStart,
      fsEventStart, fsPollStart]

theorem stopOf_eq (heap : Heap Obj) (hkind : kind.callback.isSome) :
    stopOf kind heap =
      slotStub (if kind.stopClears then .set none else .keep)
        kind.stopReleases heap := by
  cases kind <;>
    simp_all [stopOf, Kind.stopReleases, Kind.stopClears, Kind.callback,
      timerStop, idleStop, checkStop, prepareStop, pollStop, signalStop,
      fsEventStop, fsPollStop]

theorem startReleases_eq {path : Option Addr}
    (hpath : path.isSome ↔ kind = .fsEvent ∨ kind = .fsPoll) :
    (↑(kind.startReleases path) : Multiset Addr) =
      Multiset.replicate (if kind = .signal then 0 else 1) handleAddr +
        ↑path.toList := by
  by_cases hsignal : kind = .signal
  · subst hsignal
    cases path with
    | none => simp [Kind.startReleases]
    | some path => simp at hpath
  · simp [Kind.startReleases, hsignal, ← Multiset.cons_coe]

theorem proper_startReleases {path : Option Addr} (hproper : kind.Proper)
    (hnot : path ≠ some handleAddr) :
    (kind.startReleases path).count handleAddr = 1 := by
  have hzero : path.toList.count handleAddr = 0 :=
    List.count_eq_zero.mpr (by simpa using hnot)
  simp [Kind.startReleases, hproper.2.2, hzero]

theorem Control.afterStub (hcontrol : Control kind agree s) (label : Label)
    (heap : Heap Obj) (released : List Addr) :
    Control kind agree (s.afterStub label heap released) :=
  ⟨hcontrol.plain, hcontrol.stream, hcontrol.apart, hcontrol.stopped,
    hcontrol.allocating, hcontrol.told, hcontrol.calls, hcontrol.turned,
    hcontrol.fresh⟩

/-- libuv goes on to another turn, or remembers other stopped starts. -/
theorem Control.turn (hcontrol : Control kind agree s) (turn : Turn)
    (stale : List Start)
    (hturned : ∀ type, turn.kind? = some type →
      kind = type ∧ s.life = .opened)
    (hfresh : stale = [] ∨
      kind = .fsPoll ∧ (agree → s.watch.active = none)) :
    Control kind agree { s with turn, stale } :=
  ⟨hcontrol.plain, hcontrol.stream, hcontrol.apart, hcontrol.stopped,
    hcontrol.allocating, hcontrol.told, hcontrol.calls, hturned, hfresh⟩

theorem Inv.turn (hinv : Inv kind agree counted s) (turn : Turn)
    (stale : List Start)
    (hturned : ∀ type, turn.kind? = some type →
      kind = type ∧ s.life = .opened)
    (hfresh : stale = [] ∨
      kind = .fsPoll ∧ (agree → s.watch.active = none)) :
    Inv kind agree counted { s with turn, stale } where
  base := hinv.base.congr rfl rfl rfl rfl
  control := hinv.control.turn turn stale hturned hfresh
  slot handle hobj := (hinv.slot handle hobj).transfer
    (fun _ _ _ haddr => haddr) rfl rfl (fun _ h => h) (fun _ h => h)
  kept := hinv.kept
  lost := hinv.lost
  ranked := hinv.ranked

theorem Control.watched (hcontrol : Control kind agree s) (watch : Watch)
    (hapart : watch.active = none ∨ s.listening.active = none)
    (hstopped : s.life ≠ .opened → watch.active = none)
    (htold : agree → watch.told = watch.active)
    (hfresh : s.stale = [] ∨
      kind = .fsPoll ∧ (agree → watch.active = none)) :
    Control kind agree (s.watched watch) where
  plain hkind := by simp [HandleState.watched, hcontrol.plain hkind]
  stream := hcontrol.stream
  apart := hapart
  stopped hlife := by
    obtain ⟨-, hlistening, hphase⟩ := hcontrol.stopped hlife
    exact ⟨hstopped hlife, hlistening, by simp [HandleState.watched, hphase]⟩
  allocating hphase := by
    refine hcontrol.allocating ?_
    simpa [HandleState.watched] using hphase
  told h := ⟨htold h, (hcontrol.told h).2⟩
  calls := hcontrol.calls
  turned := hcontrol.turned
  fresh := hfresh

/-- What a start that is taken, or not, leaves active. -/
theorem start_active {watch : Watch} {start active : Start} {answer : Answer}
    (hanswer : answer = .accepted ∨ answer = .rejected)
    (hactive : (watch.start start answer).active = some active) :
    answer = .accepted ∧ active = start ∨
      answer ≠ .accepted ∧ watch.active = some active := by
  rcases hanswer with rfl | rfl
  · cases hactive
    exact Or.inl ⟨rfl, rfl⟩
  · exact Or.inr ⟨by simp, hactive⟩

/-- A start that libuv takes is the active one from then on. -/
theorem start_taken (watch : Watch) {start : Start} {answer : Answer}
    (htaken : answer = .accepted ∨ answer = .altered start.param) :
    watch.start start answer = ⟨some start, some start⟩ := by
  rcases htaken with rfl | rfl <;> rfl

theorem start_stopped (hcontrol : Control kind agree s) {start : Start}
    {answer : Answer} (hanswers : Answers kind s answer)
    (hlife : s.life ≠ .opened) :
    (s.watch.start start answer).active = none := by
  rw [Answers, if_neg hlife] at hanswers
  have hnone := (hcontrol.stopped hlife).1
  rcases hanswers with rfl | rfl <;> exact hnone

theorem start_told (hcontrol : Control kind agree s) {start : Start}
    {answer : Answer} (hagree : agree → (answer = .accepted ∨
      answer = .altered start.param) ∨ answer = .rejected) (h : agree) :
    (s.watch.start start answer).told =
      (s.watch.start start answer).active := by
  rcases hagree h with htaken | rfl
  · rw [start_taken s.watch htaken]
  · exact (hcontrol.told h).1

/-- A start that is taken finds no stopped start whose stat is pending. -/
theorem start_fresh (hcontrol : Control kind agree s) {start : Start}
    {answer : Answer} (hagree : agree →
      (answer = .accepted ∨ answer = .altered start.param) ∧ s.stale = [] ∨
        answer = .rejected ∧ s.watch.active = none) :
    s.stale = [] ∨ kind = .fsPoll ∧
      (agree → (s.watch.start start answer).active = none) := by
  rcases hcontrol.fresh with hstale | ⟨hkind, hinactive⟩
  · exact Or.inl hstale
  by_cases hstale : s.stale = []
  · exact Or.inl hstale
  refine Or.inr ⟨hkind, fun h => ?_⟩
  rcases hagree h with ⟨-, hnil⟩ | ⟨rfl, hnone⟩
  · exact absurd hnil hstale
  · exact hnone

theorem stop_fresh (hcontrol : Control kind agree s) (accepted : Bool) :
    s.stale = [] ∨ kind = .fsPoll ∧
      (agree → (s.watch.stop accepted).active = none) := by
  refine hcontrol.fresh.imp id (fun h => ⟨h.1, fun hagree => ?_⟩)
  cases accepted with
  | true => rfl
  | false => exact h.2 hagree

theorem leaves_of_ne (kind : Kind) (hkind : kind ≠ .fsPoll)
    (accepted : Bool) : s.leaves kind accepted = [] := by
  simp [HandleState.leaves, hkind]

/-- Only the stop of an fs_poll handle leaves a start behind. -/
theorem leaves_fresh (hcontrol : Control kind agree s) (accepted : Bool) :
    s.leaves kind accepted ++ s.stale = [] ∨ kind = .fsPoll ∧
      (agree → (s.watch.stop accepted).active = none) := by
  by_cases hleaves : kind = .fsPoll ∧ accepted
  · refine Or.inr ⟨hleaves.1, fun _ => ?_⟩
    rw [hleaves.2]
    rfl
  · rw [HandleState.leaves, if_neg hleaves]
    exact stop_fresh hcontrol accepted

theorem turn_start (turn : Turn) (answer : Answer) :
    (turn.start answer).kind? = turn.kind? := by
  cases turn <;> rfl

theorem stop_active {watch : Watch} {active : Start} {accepted : Bool}
    (hactive : (watch.stop accepted).active = some active) :
    accepted = false ∧ watch.active = some active := by
  cases accepted <;> simp_all [Watch.stop, Watch.none]

theorem stop_none {watch : Watch} (hnone : watch.active = none)
    (accepted : Bool) : (watch.stop accepted).active = none := by
  cases accepted <;> simp [Watch.stop, Watch.none, hnone]

theorem stop_told {watch : Watch} (htold : watch.told = watch.active)
    (accepted : Bool) :
    (watch.stop accepted).told = (watch.stop accepted).active := by
  cases accepted <;> simp [Watch.stop, Watch.none, htold]

theorem ne_closing (hclosing : s.life.closing? = none) (closeCb : Addr) :
    s.life ≠ .closing closeCb := by
  intro hlife
  simp [hlife, Life.closing?] at hclosing

theorem ne_closed (hclosed : s.life.closed? = none) (closeCb : Addr) :
    s.life ≠ .closed closeCb := by
  intro hlife
  simp [hlife, Life.closed?] at hclosed

theorem ne_made (husable : s.Usable) : s.life ≠ .made := by
  intro hlife
  simp [HandleState.Usable, hlife] at husable

theorem listening_none_of_receiver (hcontrol : Control kind agree s)
    (hreceiver : kind.receiver ≠ some .stream) :
    s.listening.active = none := by
  by_contra hsome
  exact hreceiver (hcontrol.stream (Option.ne_none_iff_isSome.mp hsome))

theorem start_preserves (hinv : Inv kind agree counted s)
    (hcounted : counted → kind ≠ .tty) {param : Nat} {cb : Addr}
    {path : Option Addr} {answer : Answer}
    (hallowed : Allowed kind agree counted s (.start param cb path answer)) :
    ∃ next, step kind s (.start param cb path answer) = .ok next ∧
      Inv kind agree counted next := by
  obtain ⟨hle, husable, hkind, htype, hpath, hbytes, hanswers⟩ :=
    hallowed.contract
  have hagree : agree →
      (answer = .accepted ∨ answer = .altered param) ∧ s.stale = [] ∨
        answer = .rejected ∧ s.watch.active = none := hallowed.agree
  have hone : s.Backed 1 := hinv.backed hallowed
  have hreceiver := receiver_none_of_callback hkind
  have hidle := hinv.control.plain hreceiver
  have hlistening := listening_none_of_receiver hinv.control
    (by simp [hreceiver])
  obtain ⟨type, hcallback⟩ := Option.isSome_iff_exists.mp hkind
  rw [hcallback] at htype
  have hne := hinv.base.closure_ne hone htype
  have hpath_ne : path ≠ some handleAddr := by
    intro heq
    subst heq
    exact hinv.base.bytes_ne hone (by simpa using hbytes) rfl
  obtain ⟨captures, hcb⟩ := closureType_objAt htype
  obtain ⟨heap, handle, hobj, hrun, hbase, hhandle, hframe, hlength⟩ :=
    hinv.base.stub hle (.set (some cb)) (kind.startReleases path)
      ↑path.toList _
      (by simp [Label.consumed, SlotWrite.moved, ← Multiset.cons_coe])
      (startReleases_eq hpath)
      (by simpa [SlotWrite.moved, hne] using hpath_ne)
      hone
      (by
        simp only [HandleState.Backed] at hone ⊢
        split <;> omega)
  have hok := hinv.slot handle hobj
  have hstep : step kind s (.start param cb path answer) = .ok
      (({ s.afterStub (.start param cb path answer) heap
        (kind.startReleases path) with
          turn := s.turn.start answer } : HandleState).watched
            (s.watch.start ⟨param, [cb]⟩ answer)) := by
    simp [step, startOf_eq s.heap cb hkind hpath, hrun, bind, Except.bind,
      pure, Except.pure]
  have hbase' : Base kind { s.afterStub (.start param cb path answer) heap
      (kind.startReleases path) with turn := s.turn.start answer } :=
    hbase.congr rfl rfl rfl rfl
  have hfresh := @start_fresh kind agree s hinv.control ⟨param, [cb]⟩ answer hagree
  refine ⟨_, hstep, hinv.of_write hcounted []
    { handle with data := some cb }
    (hbase'.watched _) ?_ hhandle hframe ?_ ?_ (fun _ h => ⟨rfl, h⟩) ?_⟩
  · refine ((hinv.control.afterStub _ _ _).turn _ _
      (turn_start s.turn answer ▸ hinv.control.turned)
      hinv.control.fresh).watched _ (Or.inr hlistening)
      (start_stopped hinv.control hanswers)
      (start_told hinv.control (fun h => (hagree h).imp And.left And.left))
      hfresh
  · intro hobj'
    have hcb' := hframe.closure (hbase'.watched _) hobj' rfl hcb hne
    constructor
    · exact fun hmade => absurd hmade (ne_made husable)
    · exact hok.loop_eq
    · intro _ active hactive
      refine .closure (event_of_callback hcallback) hcb' ?_
      intro h
      rcases hagree h with ⟨htaken, -⟩ | ⟨rfl, hnone⟩
      · have htaken' : (s.watch.start ⟨param, [cb]⟩ answer).active =
            some active := hactive
        rw [start_taken s.watch htaken] at htaken'
        cases htaken'
        rfl
      · have hwas : s.watch.active = some active := hactive
        rw [hnone] at hwas
        cases hwas
    · exact fun _ => forall_active_of_none hlistening
    · intro data hdata
      simp [HandleState.watched, HandleState.afterStub, hidle] at hdata
    · exact fun closeCb hlife =>
        absurd hlife (ne_closing hallowed.slot closeCb)
    · exact fun h closeCb hlife =>
        absurd hlife (ne_closed (hallowed.counted h) closeCb)
  · intro hproper
    have hone' := proper_startReleases hproper hpath_ne
    have hkept := hinv.kept hproper
    simp only [HandleState.watched, HandleState.afterStub, hone']
    omega
  · exact fun _ => no_new hlength

/-- A stop that empties the slot. -/
theorem Inv.clear (hinv : Inv kind agree counted s)
    (hcounted : counted → kind ≠ .tty) {label : Label}
    (hle : ↑label.consumed ≤ s.user) (hused : label.consumed = [handleAddr])
    {refs : Nat} (hone : s.Backed 1) (hrefs : s.Backed refs)
    (hproper : kind.Proper → refs = 1) {accepted : Bool}
    (hclosing : s.life.closing? = none)
    (hlistening : s.listening.active = none)
    (hudp : kind = .udp → s.phase.allocating? = none)
    (haccepted : s.phase.allocating? = none → s.watch.active.isSome →
      accepted) :
    ∃ heap, slotStub (.set none) (List.replicate refs handleAddr) s.heap =
        .ok heap ∧
      Inv kind agree counted
        ((s.afterStub label heap (List.replicate refs handleAddr)).watched
          (s.watch.stop accepted)) := by
  obtain ⟨heap, handle, hobj, hrun, hbase, hhandle, hframe, hlength⟩ :=
    hinv.base.stub hle (.set none) (List.replicate refs handleAddr) 0 refs
      (by simp [hused, SlotWrite.moved])
      (by rw [Multiset.coe_replicate, add_zero]) (by simp [SlotWrite.moved])
      hone hrefs
  have hok := hinv.slot handle hobj
  refine ⟨heap, hrun, hinv.of_write hcounted []
    { handle with data := none }
    (hbase.watched _) ?_ hhandle hframe ?_ ?_ (fun _ h => ⟨rfl, h⟩) ?_⟩
  · exact (hinv.control.afterStub _ _ _).watched _ (Or.inr hlistening)
      (fun hlife => stop_none (hinv.control.stopped hlife).1 accepted)
      (fun h => stop_told (hinv.control.told h).1 accepted)
      (stop_fresh hinv.control accepted)
  · intro hobj'
    constructor
    · exact fun _ => rfl
    · exact hok.loop_eq
    · intro hnone active hactive
      obtain ⟨hnot, hwas⟩ := stop_active hactive
      have htrue := haccepted (by simpa [HandleState.watched,
        HandleState.afterStub] using hnone) (by simp [hwas])
      simp [hnot] at htrue
    · exact fun _ => forall_active_of_none hlistening
    · apply hok.allocating_write hobj hframe (hbase.watched _) hobj' hudp
      · intro data hdata
        simpa [HandleState.watched, HandleState.afterStub] using hdata
      · exact fun _ _ start hstart => (stop_active hstart).2
    · exact fun closeCb hlife => absurd hlife (ne_closing hclosing closeCb)
    · exact fun _ _ _ => rfl
  · intro hkind
    have hkept := hinv.kept hkind
    simp only [HandleState.watched, HandleState.afterStub,
      List.count_replicate_self, hproper hkind]
    omega
  · exact fun _ => no_new hlength

theorem stop_preserves (hinv : Inv kind agree counted s)
    (hcounted : counted → kind ≠ .tty) {accepted : Bool}
    (hallowed : Allowed kind agree counted s (.stop accepted)) :
    ∃ next, step kind s (.stop accepted) = .ok next ∧
      Inv kind agree counted next := by
  obtain ⟨hle, -, hkind, -⟩ := hallowed.contract
  have hreceiver := receiver_none_of_callback hkind
  have hidle := hinv.control.plain hreceiver
  have hlistening := listening_none_of_receiver hinv.control
    (by simp [hreceiver])
  have hrefs := hinv.backed hallowed
  have hreleases : kind.stopReleases = List.replicate
      (if kind = .signal then 2 else 1) handleAddr := by
    by_cases hsignal : kind = .signal <;> simp [Kind.stopReleases, hsignal]
  simp only [Label.handleRefs, hreleases, List.count_replicate_self] at hrefs
  have hone : s.Backed 1 := by
    simp only [HandleState.Backed] at hrefs ⊢
    split at hrefs <;> omega
  cases hclears : kind.stopClears with
  | true =>
      obtain ⟨hclosing, haccepted⟩ := hallowed.slot hclears
      obtain ⟨heap, hrun, hnext⟩ := hinv.clear hcounted hle rfl hone hrefs
        (fun hproper => by simp [hproper.2.2]) hclosing hlistening
        (fun _ => by simp [hidle, Phase.allocating?]) (fun _ => haccepted)
      have hleaves := @leaves_of_ne s kind
        (by intro h; simp [h, Kind.stopClears] at hclears) accepted
      refine ⟨_, ?_, hnext⟩
      simp only [step, stopOf_eq s.heap hkind, hclears, hreleases, hrun,
        hleaves, ↓reduceIte, List.nil_append, bind, Except.bind, pure,
        Except.pure]
      rfl
  | false =>
      -- the stops of fs_event and fs_poll leave the slot as it is
      have hsignal : kind ≠ .signal := by
        intro h
        simp [h, Kind.stopClears] at hclears
      obtain ⟨heap, handle, hobj, hrun, hbase, hhandle, hframe, hlength⟩ :=
        hinv.base.stub hle .keep kind.stopReleases 0 1
          (by simp [Label.consumed, SlotWrite.moved])
          (by simp [hreleases, hsignal]) (by simp [SlotWrite.moved]) hone hone
      have hok := hinv.slot handle hobj
      have hstep : step kind s (.stop accepted) = .ok
          (({ s.afterStub (.stop accepted) heap kind.stopReleases with
            stale := s.leaves kind accepted ++ s.stale } :
              HandleState).watched (s.watch.stop accepted)) := by
        simp [step, stopOf_eq s.heap hkind, hclears, hrun, bind, Except.bind,
          pure, Except.pure]
      have hbase' : Base kind
          { s.afterStub (.stop accepted) heap kind.stopReleases with
            stale := s.leaves kind accepted ++ s.stale } :=
        hbase.congr rfl rfl rfl rfl
      have hwatched := (hinv.control.afterStub (.stop accepted) heap
        kind.stopReleases).watched (s.watch.stop accepted)
          (Or.inr hlistening)
          (fun hlife => stop_none (hinv.control.stopped hlife).1 accepted)
          (fun h => stop_told (hinv.control.told h).1 accepted)
          (stop_fresh hinv.control accepted)
      refine ⟨_, hstep, hinv.of_write hcounted [] handle
        (hbase'.watched _) ?_ hhandle hframe ?_ ?_ (fun _ h => ⟨rfl, h⟩) ?_⟩
      · exact hwatched.turn s.turn _ hinv.control.turned
          (leaves_fresh hinv.control accepted)
      · intro hobj'
        refine hok.transfer ?_ rfl ?_ (fun _ h => (stop_active h).2)
          (fun _ h => h)
        · intro addr obj hmem haddr
          rcases hmem with hdata | hphase
          · by_cases hne : handleAddr = addr
            · subst hne
              obtain ⟨handle', rfl⟩ := hinv.base.typed _ haddr
              cases haddr.unique hobj
              exact hobj'
            · exact hframe.closure (hbase'.watched _) hobj' hdata haddr hne
          · rw [hidle] at hphase
            cases hphase
        · simp [HandleState.watched, HandleState.afterStub, hidle]
      · intro hproper
        have hkept := hinv.kept hproper
        simp only [HandleState.watched, HandleState.afterStub, hreleases,
          hsignal, ↓reduceIte, List.count_replicate_self]
        omega
      · exact fun _ => no_new hlength

theorem receiveStopOf_eq (heap : Heap Obj) (hkind : kind.receiver.isSome) :
    receiveStopOf kind heap = slotStub (.set none) [handleAddr] heap := by
  cases kind <;> simp_all [receiveStopOf, Kind.receiver, readStop, udpRecvStop]

theorem receiveStop_preserves (hinv : Inv kind agree counted s)
    (hcounted : counted → kind ≠ .tty) {accepted : Bool}
    (hallowed : Allowed kind agree counted s (.receiveStop accepted)) :
    ∃ next, step kind s (.receiveStop accepted) = .ok next ∧
      Inv kind agree counted next := by
  obtain ⟨hle, -, hkind, -⟩ := hallowed.contract
  obtain ⟨hclosing, hlistening, hudp, haccepted⟩ := hallowed.slot
  have hone : s.Backed 1 := hinv.backed hallowed
  obtain ⟨heap, hrun, hnext⟩ := hinv.clear hcounted hle rfl hone hone
    (fun _ => rfl) hclosing hlistening hudp haccepted
  refine ⟨_, ?_, hnext⟩
  rw [List.replicate_one] at hrun
  simp [step, receiveStopOf_eq s.heap hkind, hrun, bind, Except.bind, pure,
    Except.pure]

theorem receiveStartOf_eq (heap : Heap Obj) (allocCb readCb : Addr)
    {type : ReceiverType} (hkind : kind.receiver = some type) :
    receiveStartOf kind heap allocCb readCb =
      slotStub (.set (some heap.cells.length)) [handleAddr]
        (heap.alloc (.receiver type ⟨none, allocCb, readCb⟩)).1 := by
  cases type <;>
    simp [receiveStartOf, hkind, readStart, udpRecvStart, receiveStart,
      Heap.alloc]

/-- The callbacks of a receive start leave the ledger for the new object. -/
theorem own_receiveStart (kind : Kind) {param : Nat} {allocCb readCb : Addr}
    {answer : Answer}
    (hle : ↑(Label.consumed (.receiveStart param allocCb readCb answer)) ≤
      s.user)
    (hnot : handleAddr ∉ (↑[readCb, allocCb] : Multiset Addr) + 0)
    (hone : s.Backed 1) :
    s.own kind = ↑[readCb, allocCb] + (↑[handleAddr] +
      (s.afterStub (.receiveStart param allocCb readCb answer) s.heap
        [handleAddr]).own kind) ∧
    ∀ heap, (s.afterStub (.receiveStart param allocCb readCb answer) heap
      [handleAddr]).Backed 0 := by
  have hused : (↑(Label.consumed
      (.receiveStart param allocCb readCb answer)) : Multiset Addr) =
        handleAddr ::ₘ (↑[readCb, allocCb] + 0) := by
    rw [add_zero, Multiset.cons_coe]
    exact Multiset.coe_eq_coe.mpr (.cons _ (.swap _ _ _))
  constructor
  · have hledger := ledger_stub _ _ _ _ hle hused hnot hone
    simp only [HandleState.own, HandleState.afterStub, HandleState.saved,
      hledger, List.count_singleton_self, Multiset.replicate_one,
      Multiset.coe_singleton]
    abel
  · intro heap
    have hcount := Multiset.count_le_of_le handleAddr hle
    simp only [HandleState.Backed, HandleState.afterStub,
      List.count_singleton_self, Multiset.count_sub, hused,
      Multiset.count_cons_self,
      Multiset.count_eq_zero.mpr hnot] at hcount hone ⊢
    omega

/-- What a receive start does, whatever the slot held: the slot gets new
receiver data with the two callbacks. -/
theorem Base.receiveStart (hbase : Base kind s) {param : Nat}
    {allocCb readCb : Addr} {answer : Answer} {type : ReceiverType}
    (hreceiver : kind.receiver = some type) (hone : s.Backed 1)
    (hcontract : Contract kind s (.receiveStart param allocCb readCb answer)) :
    ∃ heap handle, ObjAt s.heap handleAddr (.handle handle) ∧
      step kind s (.receiveStart param allocCb readCb answer) = .ok
        ((s.afterStub (.receiveStart param allocCb readCb answer) heap
          [handleAddr]).watched
            (s.watch.start ⟨param, [allocCb, readCb]⟩ answer)) ∧
      Base kind (s.afterStub (.receiveStart param allocCb readCb answer) heap
        [handleAddr]) ∧
      (Live heap handleAddr → ObjAt heap handleAddr
        (.handle { handle with data := some s.heap.cells.length })) ∧
      Frame [handleAddr] [] s.heap heap ∧
      (Live heap s.heap.cells.length → ObjAt heap s.heap.cells.length
        (.receiver type ⟨none, allocCb, readCb⟩)) ∧
      ∀ addr obj, s.heap.cells.length ≤ addr → ObjAt heap addr obj →
        ∀ target ∈ refs obj, target < addr ∨ ObjAt heap target .bytes := by
  obtain ⟨hle, -, -, halloc, hread, -⟩ := hcontract
  have hne_alloc := hbase.closure_ne hone halloc
  have hne_read := hbase.closure_ne hone hread
  have hnot : handleAddr ∉ (↑[readCb, allocCb] : Multiset Addr) + 0 := by
    simp [hne_alloc, hne_read]
  obtain ⟨hown, hbacked⟩ := own_receiveStart kind hle hnot hone
  have hrefs : refs (Obj.receiver type ⟨none, allocCb, readCb⟩) =
      [readCb, allocCb] := refs_receiver _ _
  have hbalanced := hbase.balanced.congr hown
  rw [← hrefs] at hbalanced
  obtain ⟨hmade, hnew, hext⟩ :=
    alloc_extends hbalanced (by intro _ h; cases h)
  obtain ⟨heap, handle, hobj, hrun, hnext, hhandle, hframe, hframe', hlength⟩ :=
    hbase.stub_of _ hext (.receiveStart param allocCb readCb answer)
      (.set (some s.heap.cells.length)) [handleAddr]
      ((s.afterStub (.receiveStart param allocCb readCb answer) s.heap
        [handleAddr]).own kind) (fun _ => rfl)
      (hmade.congr (Multiset.singleton_add _ _).symm)
      (by simp) hone hbacked
  have hfresh : s.heap.cells.length ∉ [handleAddr] := by
    rw [List.mem_singleton]
    exact Nat.ne_of_gt hbase.handleAddr_lt
  refine ⟨heap, handle, hobj, ?_, hnext, hhandle, hframe,
    hframe'.keeps.objAt hnew hfresh, ?_⟩
  · simp only [step, receiveStartOf_eq s.heap allocCb readCb hreceiver, hrun,
      bind, Except.bind, pure, Except.pure]
  · intro addr obj hle' hobj' target htarget
    obtain rfl := alloc_new hlength hle' hobj'
    have hback := hframe'.keeps.objAt_old _ obj
      (by rw [← hlength]; exact hobj'.lt_length) hfresh hobj'
    rw [hback.unique hnew] at htarget
    exact Or.inl (alloc_refs_lt hbalanced htarget)

theorem receiveStart_preserves (hinv : Inv kind agree counted s)
    (hcounted : counted → kind ≠ .tty) {param : Nat} {allocCb readCb : Addr}
    {answer : Answer}
    (hallowed : Allowed kind agree counted s
      (.receiveStart param allocCb readCb answer)) :
    ∃ next, step kind s (.receiveStart param allocCb readCb answer) =
        .ok next ∧ Inv kind agree counted next := by
  obtain ⟨-, husable, hkind, -, -, hanswers⟩ := hallowed.contract
  obtain ⟨hclosing, hlistening, hudp⟩ := hallowed.slot
  obtain ⟨type, hreceiver⟩ := Option.isSome_iff_exists.mp hkind
  obtain ⟨heap, handle, hobj, hstep, hbase, hhandle, hframe, hmade, hranked⟩ :=
    hinv.base.receiveStart hreceiver (hinv.backed hallowed) hallowed.contract
  have hok := hinv.slot handle hobj
  have hagree : agree → answer = .rejected ∨ answer = .accepted ∧
      s.phase.allocating? = none := by
    intro h
    have hrule := hallowed.agree h
    simp only [AgreeRule] at hrule
    split at hrule
    · exact Or.inl hrule
    · next hphase =>
        rcases hrule with haccepted | ⟨hrejected, -⟩
        · exact Or.inr ⟨haccepted, by simpa using hphase⟩
        · exact Or.inl hrejected
  have hanswer : agree → answer = .accepted ∨ answer = .rejected := by
    intro h
    rcases hagree h with hrejected | ⟨haccepted, -⟩
    · exact Or.inr hrejected
    · exact Or.inl haccepted
  have hstale : s.stale = [] :=
    hinv.control.fresh.resolve_right (fun hfsPoll => by
      rw [hfsPoll.1] at hreceiver
      cases hreceiver)
  refine ⟨_, hstep, hinv.of_write hcounted []
    { handle with data := some s.heap.cells.length }
    (hbase.watched _) ?_ hhandle hframe ?_ ?_ (fun _ h => ⟨rfl, h⟩) ?_⟩
  · refine (hinv.control.afterStub _ _ _).watched _ (Or.inr hlistening)
      (start_stopped hinv.control hanswers)
      (start_told hinv.control (fun h => (hanswer h).imp Or.inl id))
      (Or.inl hstale)
  · intro hobj'
    have hdata : ObjAt heap s.heap.cells.length
        (.receiver type ⟨none, allocCb, readCb⟩) :=
      hmade ((hbase.watched _).data_live hobj' rfl)
    constructor
    · exact fun hmade => absurd hmade (ne_made husable)
    · exact hok.loop_eq
    · intro hnone active hactive
      refine .receiver hreceiver hdata (fun _ => rfl) ?_
      intro h
      have hnone' : s.phase.allocating? = none := by
        simpa [HandleState.watched, HandleState.afterStub] using hnone
      have hrule := hallowed.agree h
      simp only [AgreeRule, hnone', Option.isSome_none, Bool.false_eq_true,
        ↓reduceIte] at hrule
      rcases start_active (hanswer h) hactive with ⟨-, rfl⟩ | ⟨hnot', hwas⟩
      · rfl
      · rcases hrule with haccepted | ⟨-, hidle⟩
        · exact absurd haccepted hnot'
        · rw [hidle] at hwas
          cases hwas
    · exact fun _ => forall_active_of_none hlistening
    · apply hok.allocating_write hobj hframe (hbase.watched _) hobj' hudp
      · intro data hdata
        simpa [HandleState.watched, HandleState.afterStub] using hdata
      · intro h hphase start hstart
        rcases start_active (hanswer h) hstart with
          ⟨haccepted, -⟩ | ⟨-, hwas⟩
        · rcases hagree h with hrejected | ⟨-, hnone⟩
          · rw [haccepted] at hrejected
            cases hrejected
          · simp [hnone] at hphase
        · exact hwas
    · exact fun closeCb hlife => absurd hlife (ne_closing hclosing closeCb)
    · exact fun h closeCb hlife =>
        absurd hlife (ne_closed (hallowed.counted h) closeCb)
  · intro hproper
    have hkept := hinv.kept hproper
    simp only [HandleState.watched, HandleState.afterStub,
      List.count_singleton_self]
    omega
  · exact fun _ => hranked

theorem listen_preserves (hinv : Inv kind agree counted s)
    (hcounted : counted → kind ≠ .tty) {param : Nat} {cb : Addr}
    {accepted : Bool}
    (hallowed : Allowed kind agree counted s (.listen param cb accepted)) :
    ∃ next, step kind s (.listen param cb accepted) = .ok next ∧
      Inv kind agree counted next := by
  obtain ⟨hle, husable, hreceiver, htype, hopened⟩ := hallowed.contract
  obtain ⟨hclosing, hwatch, hrejected⟩ := hallowed.slot
  have hcontrol := hinv.control
  have hone : s.Backed 1 := hinv.backed hallowed
  have hne := hinv.base.closure_ne hone htype
  obtain ⟨captures, hcb⟩ := closureType_objAt htype
  obtain ⟨heap, handle, hobj, hrun, hbase, hhandle, hframe, hlength⟩ :=
    hinv.base.stub hle (.overwrite cb) [handleAddr] 0 1
      (by simp [Label.consumed, SlotWrite.moved, ← Multiset.cons_coe])
      (by simp) (by simp [SlotWrite.moved, hne]) hone hone
  have hok := hinv.slot handle hobj
  have hstep : step kind s (.listen param cb accepted) = .ok
      { s.afterStub (.listen param cb accepted) heap [handleAddr] with
        listening := s.listening.start ⟨param, [cb]⟩
          (if accepted then .accepted else .rejected) } := by
    simp [step, listen, hrun, bind, Except.bind, pure, Except.pure]
  have hudp : kind = .udp → s.phase.allocating? = none := by
    intro hkind
    simp [hkind, Kind.receiver] at hreceiver
  refine ⟨_, hstep, hinv.of_write hcounted handle.data.toList
    { handle with data := some cb }
    (hbase.congr rfl rfl rfl rfl) ?_ hhandle hframe ?_ ?_ ?_ ?_⟩
  · refine ⟨hcontrol.plain, fun _ => hreceiver, ?_, ?_, ?_, ?_,
      hcontrol.calls, hcontrol.turned, hcontrol.fresh⟩
    · cases hphase : s.phase.allocating? with
      | none => exact Or.inl (hwatch hphase)
      | some data =>
          right
          have hfalse := hrejected (by simp [hphase])
          have hnone := hcontrol.allocating (by simp [hphase])
          simpa [hfalse, Watch.start] using hnone
    · intro hlife
      have hfalse : accepted = false := by
        by_contra haccepted
        exact hlife (hopened (by simpa using haccepted))
      obtain ⟨hnone, hlistening, hidle⟩ := hcontrol.stopped hlife
      exact ⟨hnone, by simpa [hfalse, Watch.start] using hlistening, hidle⟩
    · intro hphase
      have hfalse := hrejected hphase
      simpa [hfalse, Watch.start] using hcontrol.allocating hphase
    · intro h
      refine ⟨(hcontrol.told h).1, ?_⟩
      cases accepted with
      | true => rfl
      | false => exact (hcontrol.told h).2
  · intro hobj'
    have hcb' := hframe.closure (hbase.congr rfl rfl rfl rfl) hobj' rfl hcb hne
    constructor
    · exact fun hmade => absurd hmade (ne_made husable)
    · exact hok.loop_eq
    · exact fun hnone => forall_active_of_none (hwatch hnone)
    · intro _ active hactive
      refine ⟨cb, captures, rfl, hcb', ?_⟩
      intro h
      rcases start_active (by cases accepted <;> simp) hactive with
        ⟨-, rfl⟩ | ⟨hnot, hwas⟩
      · rfl
      · cases accepted with
        | true => exact absurd rfl hnot
        | false =>
            rcases hallowed.agree h with htrue | hnone
            · cases htrue
            · rw [hnone] at hwas
              cases hwas
    · exact hok.allocating_write hobj hframe (hbase.congr rfl rfl rfl rfl)
        hobj' hudp (fun _ hdata => hdata) (fun _ _ _ hstart => hstart)
    · exact fun closeCb hlife => absurd hlife (ne_closing hclosing closeCb)
    · exact fun h closeCb hlife =>
        absurd hlife (ne_closed (hallowed.counted h).1 closeCb)
  · intro hproper
    have hkept := hinv.kept hproper
    simp only [HandleState.afterStub, List.count_singleton_self]
    omega
  · intro h hlife
    refine ⟨?_, hlife⟩
    have hslot := (hallowed.counted h).2
    rw [slot_eq hobj] at hslot
    simp [hslot]
  · exact fun _ => no_new hlength

/-- Closing: libuv stops every watch, and the slot holds the close callback. -/
theorem Inv.close (hinv : Inv kind agree counted s)
    (hcounted : counted → kind ≠ .tty) {label : Label} {closeCb : Addr}
    (hle : ↑label.consumed ≤ s.user)
    (hused : label.consumed = [handleAddr, closeCb]) (hone : s.Backed 1)
    (hlife : s.life = .opened)
    (htype : s.closureType closeCb = some .close)
    (hphase : s.phase.allocating? = none)
    (hturn : (s.turn.afterClose s.watch).kind? = none) :
    ∃ heap, slotStub (.set (some closeCb)) [handleAddr] s.heap = .ok heap ∧
      Inv kind agree counted
        ((s.afterStub label heap [handleAddr]).closing closeCb) := by
  have hcontrol := hinv.control
  have hne := hinv.base.closure_ne hone htype
  obtain ⟨captures, hcb⟩ := closureType_objAt htype
  obtain ⟨heap, handle, hobj, hrun, hbase, hhandle, hframe, hlength⟩ :=
    hinv.base.stub hle (.set (some closeCb)) [handleAddr] 0 1
      (by simp [hused, SlotWrite.moved, ← Multiset.cons_coe])
      (by simp) (by simp [SlotWrite.moved, hne]) hone hone
  have hok := hinv.slot handle hobj
  have hidle : s.phase.settle .none = .idle := by
    cases hp : s.phase with
    | allocating data => simp [hp, Phase.allocating?] at hphase
    | idle | ready => simp [Phase.settle, Watch.none]
  refine ⟨heap, hrun, hinv.of_write hcounted []
    { handle with data := some closeCb }
    (hbase.closing closeCb) ?_ hhandle hframe ?_ ?_ ?_ ?_⟩
  · refine ⟨fun _ => hidle, (fun h => by cases h), Or.inl rfl,
      fun _ => ⟨rfl, rfl, hidle⟩, fun _ => rfl, fun _ => ⟨rfl, rfl⟩, ?_,
      (fun type h => by cases hturn.symm.trans h),
      hcontrol.fresh.imp id (fun h => ⟨h.1, fun _ => rfl⟩)⟩
    have hcalls := hcontrol.calls
    rw [hlife] at hcalls
    exact hcalls
  · intro hobj'
    have hcb' := hframe.closure (hbase.closing closeCb) hobj' rfl hcb hne
    refine ⟨(fun h => by cases h), ?_, (fun _ _ h => by cases h),
      (fun _ _ h => by cases h), ?_, ?_, (fun _ _ h => by cases h)⟩
    · have hloop := hok.loop_eq
      simp only [hlife] at hloop
      simpa [HandleState.closing] using hloop
    · intro data hdata
      have hdata' : s.phase.settle .none = .allocating data := hdata
      rw [hidle] at hdata'
      cases hdata'
    · intro closeCb' hclosing
      cases hclosing
      exact ⟨rfl, captures, hcb'⟩
  · intro hproper
    have hkept := hinv.kept hproper
    rw [hlife] at hkept
    simp only [HandleState.closing, HandleState.afterStub,
      List.count_singleton_self, hkept, Life.kept]
    omega
  · intro _ _
    exact ⟨rfl, by simp [hlife]⟩
  · exact fun _ => no_new hlength

theorem kind_afterClose {turn : Turn} {watch : Watch} (hne : turn ≠ .exiting)
    (hstopped : turn = .receiving → watch.active = none) :
    (turn.afterClose watch).kind? = none := by
  cases turn with
  | idle | calling started => rfl
  | exiting => exact absurd rfl hne
  | receiving => simp [Turn.afterClose, hstopped rfl, Turn.kind?]

theorem close_preserves (hinv : Inv kind agree counted s)
    (hcounted : counted → kind ≠ .tty) {closeCb : Addr}
    (hallowed : Allowed kind agree counted s (.close closeCb)) :
    ∃ next, step kind s (.close closeCb) = .ok next ∧
      Inv kind agree counted next := by
  obtain ⟨hle, hlife, htype⟩ := hallowed.contract
  obtain ⟨hphase, hexiting, hreceiving⟩ := hallowed.slot
  obtain ⟨heap, hrun, hnext⟩ := hinv.close hcounted hle rfl
    (hinv.backed hallowed) hlife htype hphase
    (kind_afterClose hexiting hreceiving)
  refine ⟨_, ?_, hnext⟩
  simp [step, close, hrun, bind, Except.bind, pure, Except.pure]

theorem closeReset_preserves (hinv : Inv kind agree counted s)
    (hcounted : counted → kind ≠ .tty) {closeCb : Addr} {accepted : Bool}
    (hallowed : Allowed kind agree counted s (.closeReset closeCb accepted)) :
    ∃ next, step kind s (.closeReset closeCb accepted) = .ok next ∧
      Inv kind agree counted next := by
  obtain ⟨hle, hlife, hkind, htype⟩ := hallowed.contract
  obtain ⟨hrejected, hinactive⟩ := hallowed.slot
  have hone : s.Backed 1 := hinv.backed hallowed
  have hbatch : ∀ type, kind ≠ type → s.turn.kind? ≠ some type :=
    fun type hne h => hne (hinv.control.turned type h).1
  cases accepted with
  | true =>
      obtain ⟨heap, hrun, hnext⟩ := hinv.close hcounted hle rfl hone hlife
        htype (by
          by_contra hsome
          have hfalse := hrejected (Option.ne_none_iff_isSome.mp hsome)
          cases hfalse)
        (kind_afterClose
          (fun h => hbatch .process (by simp [hkind]) (by rw [h]; rfl))
          (fun h => absurd (by rw [h]; rfl) (hbatch .udp (by simp [hkind]))))
      refine ⟨_, ?_, hnext⟩
      simp [step, tcpCloseReset, hrun, bind, Except.bind, pure, Except.pure]
  | false =>
      -- a reset that fails leaves the handle open with the close callback in
      -- its slot
      have hne := hinv.base.closure_ne hone htype
      obtain ⟨heap, handle, hobj, hrun, hbase, hhandle, hframe, hlength⟩ :=
        hinv.base.stub hle (.set (some closeCb)) [handleAddr] 0 1
          (by simp [Label.consumed, SlotWrite.moved, ← Multiset.cons_coe])
          (by simp) (by simp [SlotWrite.moved, hne]) hone hone
      have hok := hinv.slot handle hobj
      have hstep : step kind s (.closeReset closeCb false) = .ok
          (s.afterStub (.closeReset closeCb false) heap [handleAddr]) := by
        simp [step, tcpCloseReset, hrun, bind, Except.bind, pure, Except.pure]
      refine ⟨_, hstep, hinv.of_write hcounted []
        { handle with data := some closeCb }
        hbase (hinv.control.afterStub _ _ _) hhandle hframe ?_ ?_
        (fun _ h => ⟨rfl, h⟩) (fun _ => no_new hlength)⟩
      · intro hobj'
        refine .of_opened hlife hok.loop_eq ?_ ?_ ?_
        · exact fun hnone => forall_active_of_none (hinactive hnone rfl).1
        · exact fun hnone => forall_active_of_none (hinactive hnone rfl).2
        · exact hok.allocating_write hobj hframe hbase hobj'
            (fun h => by rw [hkind] at h; cases h) (fun _ hdata => hdata)
            (fun _ _ _ hstart => hstart)
      · intro hproper
        have hkept := hinv.kept hproper
        simp only [HandleState.afterStub, List.count_singleton_self]
        omega

/-- `async_send` keeps the reference it is given. -/
theorem send_preserves (hinv : Inv kind agree counted s)
    (hcounted : counted → kind ≠ .tty)
    (hallowed : Allowed kind agree counted s .send) :
    ∃ next, step kind s .send = .ok next ∧ Inv kind agree counted next := by
  obtain ⟨hle, hlife, hkind⟩ := hallowed.contract
  have hone : s.Backed 1 := hinv.backed hallowed
  obtain ⟨heap, handle, hobj, hrun, hbase, hhandle, hframe, hlength⟩ :=
    hinv.base.stub hle .keep [] 0 0
      (by simp [Label.consumed, SlotWrite.moved]) (by simp)
      (by simp [SlotWrite.moved]) hone hinv.base.backed
  have hheap : heap = s.heap := by
    simpa [slotStub, writeSlot, decrefAll, bind, Except.bind] using hrun.symm
  subst hheap
  refine ⟨s.afterStub .send s.heap [], ?_, hinv.of_frame hbase
    (hinv.control.afterStub _ _ _) (Frame.refl [] s.heap)
    (fun _ => no_new rfl) (fun h => hinv.base.noTty (hcounted h)) rfl rfl
    (fun hproper => absurd hkind hproper.1) (fun _ h => h) (fun _ h => h)⟩
  simp [step, asyncSend, slotStub, writeSlot, decrefAll, bind, Except.bind,
    pure, Except.pure]

/-- The slot write of an init stub. -/
def initWrite (cb : Option Addr) : SlotWrite :=
  if cb.isSome then .set cb else .keep

theorem initWrite_moved (cb : Option Addr) :
    (initWrite cb).moved = cb.toList := by
  cases cb <;> rfl

theorem initWrite_result (cb : Option Addr) :
    (initWrite cb).result none = cb := by
  cases cb <;> rfl

theorem initWrite_loses (cb old : Option Addr) :
    (initWrite cb).loses old = [] := by
  cases cb <;> rfl

theorem initOf_eq (heap : Heap Obj) (cb : Option Addr) (accepted : Bool)
    (hcb : cb.isSome → kind.initCallback.isSome)
    (hasync : cb = none → kind ≠ .async) :
    initOf kind heap cb accepted =
      initStub (initWrite cb) kind.initReleases accepted heap := by
  cases kind <;> cases cb <;>
    simp_all [initOf, initWrite, Kind.initReleases, Kind.initCallback,
      asyncInit, ttyInit, signalInit, spawn, handleInit]

/-- What init stubs do with their references: the loop goes to the handle, but
a tty releases it and a failure leaves it with nobody. -/
def initLoop (kind : Kind) (accepted : Bool) : Multiset Addr :=
  if accepted ∧ kind ≠ .tty then {loopAddr} else 0

def initForgets (kind : Kind) (accepted : Bool) : Multiset Addr :=
  if accepted ∨ kind = .tty then 0 else {loopAddr}

theorem initReleases_eq (kind : Kind) (accepted : Bool) :
    ({loopAddr} : Multiset Addr) +
        Multiset.replicate (kind.initReleases.count handleAddr) handleAddr =
      ↑kind.initReleases + initLoop kind accepted +
        initForgets kind accepted := by
  cases kind <;> cases accepted <;> decide

theorem initReleases_le (kind : Kind) :
    kind.initReleases.count handleAddr ≤ 1 := by
  cases kind <;> decide

theorem own_init (kind : Kind) {cb : Option Addr} (accepted : Bool)
    (hone : s.Backed 1)
    (hle : ↑(Label.consumed (.init cb accepted)) ≤ s.user)
    (hcb : cb ≠ some handleAddr) (heap : Heap Obj) :
    s.own kind = ↑cb.toList + (↑kind.initReleases +
      (initForgets kind accepted +
        (s.afterStub (.init cb accepted) heap kind.initReleases).own kind) +
      initLoop kind accepted) := by
  have hledger := ledger_stub s.kept ({loopAddr} + ↑cb.toList) 0
    (kind.initReleases.count handleAddr) hle
    (by
      rw [Multiset.singleton_add, add_zero]
      rfl)
    (by
      have hloop : handleAddr ≠ loopAddr := by decide
      simpa [hloop] using hcb)
    (by
      have h := initReleases_le kind
      simp only [HandleState.Backed] at hone
      omega)
  have hreleases := initReleases_eq kind accepted
  simp only [HandleState.own, HandleState.afterStub, HandleState.saved,
    hledger]
  calc _ = ↑(HandleState.saved kind s) + (({loopAddr} + Multiset.replicate
          (kind.initReleases.count handleAddr) handleAddr) + ↑cb.toList +
        ledger (s.user - ↑(Label.consumed (.init cb accepted)))
          (s.kept + 1 - kind.initReleases.count handleAddr)) := by
        simp only [HandleState.saved]
        abel
    _ = _ := by
        rw [hreleases]
        simp only [HandleState.saved]
        abel

theorem initForget_spec {heap heap' : Heap Obj} {own : Multiset Addr}
    {accepted : Bool}
    (hbalanced : Balanced heap' (initForgets kind accepted + own))
    (hframe : Frame [handleAddr] [] heap heap') :
    Balanced (initForget kind heap' accepted) own ∧
      (initForget kind heap' accepted).cells = heap'.cells ∧
      ∃ lost, Frame [handleAddr] lost heap (initForget kind heap' accepted) ∧
        (accepted → lost = []) := by
  by_cases hkept : accepted ∨ kind = .tty
  · have hsame : initForget kind heap' accepted = heap' := by
      simp [initForget, hkept]
    rw [initForgets, if_pos hkept, zero_add] at hbalanced
    rw [hsame]
    exact ⟨hbalanced, rfl, [], hframe, fun _ => rfl⟩
  · have hforget : initForget kind heap' accepted =
        heap'.forget loopAddr := by
      simp [initForget, hkept]
    rw [initForgets, if_neg hkept, Multiset.singleton_add] at hbalanced
    rw [hforget]
    refine ⟨hbalanced.forget, rfl, [loopAddr],
      forget_frame hframe rfl rfl, ?_⟩
    exact fun haccepted => absurd (Or.inl haccepted) hkept

/-- The state after an init stub, with some heap. -/
abbrev HandleState.afterInit (s : HandleState) (kind : Kind) (cb : Option Addr)
    (accepted : Bool) (heap : Heap Obj) : HandleState :=
  { s.afterStub (.init cb accepted) heap kind.initReleases with
    life := if accepted then .opened else .failed
    watch := initWatch kind cb accepted }

theorem step_init {cb : Option Addr} {accepted : Bool} {heap : Heap Obj}
    (hcb : cb.isSome → kind.initCallback.isSome)
    (hasync : cb = none → kind ≠ .async)
    (hrun : initStub (initWrite cb) kind.initReleases accepted s.heap =
      .ok heap) :
    step kind s (.init cb accepted) =
      .ok (s.afterInit kind cb accepted (initForget kind heap accepted)) := by
  simp [step, initOf_eq s.heap cb accepted hcb hasync, hrun, bind,
    Except.bind, pure, Except.pure]

theorem backed_afterInit {cb : Option Addr} {accepted : Bool}
    (hone : s.Backed 1)
    (hle : ↑(Label.consumed (.init cb accepted)) ≤ s.user)
    (hne : cb ≠ some handleAddr) (heap : Heap Obj) :
    (s.afterInit kind cb accepted heap).Backed 0 := by
  have hcount := Multiset.count_le_of_le handleAddr hle
  have hused : Multiset.count handleAddr
      ↑(Label.consumed (.init cb accepted)) = 1 := by
    have hloop : loopAddr ≠ handleAddr := by decide
    have hzero : cb.toList.count handleAddr = 0 :=
      List.count_eq_zero.mpr (by simpa using hne)
    simp [Label.consumed, hloop, hzero]
  have hreleases := initReleases_le kind
  simp only [HandleState.Backed, HandleState.afterStub, Multiset.count_sub,
    hused] at hcount hone ⊢
  omega

theorem Control.afterInit (hcontrol : Control kind agree s)
    (hlife : s.life = .made) (cb : Option Addr) (accepted : Bool)
    (heap : Heap Obj) :
    Control kind agree (s.afterInit kind cb accepted heap) := by
  obtain ⟨-, hlistening, hidle⟩ :=
    hcontrol.stopped (by rw [hlife]; intro h; cases h)
  have hturned : ∀ type, s.turn.kind? ≠ some type := by
    intro type h
    have hopened := (hcontrol.turned type h).2
    rw [hlife] at hopened
    cases hopened
  have hstarted : kind = .fsPoll →
      (initWatch kind cb accepted).active = none := by
    rintro rfl
    cases accepted <;> rfl
  refine ⟨hcontrol.plain, hcontrol.stream, Or.inr hlistening, ?_,
    hcontrol.allocating, ?_, ?_, fun type h => absurd h (hturned type),
    hcontrol.fresh.imp id (fun h => ⟨h.1, fun _ => hstarted h.1⟩)⟩
  · intro hopened
    have hfalse : accepted = false := by
      cases accepted with
      | true => exact absurd rfl hopened
      | false => rfl
    exact ⟨by simp [initWatch, hfalse, Watch.none], hlistening, hidle⟩
  · intro h
    refine ⟨?_, (hcontrol.told h).2⟩
    by_cases hwatched : accepted && kind.initCallback.isSome <;>
      simp [initWatch, hwatched, Watch.none, Watch.start]
  · have hcalls := hcontrol.calls
    rw [hlife] at hcalls
    cases accepted <;> exact hcalls

/-- An init stub that starts the handle does so with its callback. -/
theorem initWatch_active {cb : Option Addr} {accepted : Bool} {start : Start}
    (hactive : (initWatch kind cb accepted).active = some start) :
    kind.initCallback.isSome ∧ start = ⟨0, cb.toList⟩ := by
  by_cases hwatched : accepted && kind.initCallback.isSome
  · rw [initWatch, if_pos hwatched] at hactive
    cases hactive
    exact ⟨(Bool.and_eq_true _ _ ▸ hwatched).2, rfl⟩
  · rw [initWatch, if_neg hwatched] at hactive
    cases hactive

theorem SlotOk.afterInit {cb : Option Addr} {accepted : Bool} {heap : Heap Obj}
    (hcontrol : Control kind agree s) (hlife : s.life = .made)
    (hasync : cb = none → kind ≠ .async)
    (htyped : ∀ addr, cb = some addr → ∃ type captures,
      kind.event = some type ∧ ObjAt heap addr (.closure type captures)) :
    SlotOk kind agree counted (s.afterInit kind cb accepted heap)
      ⟨kind, if accepted then some loopAddr else none, cb⟩ := by
  obtain ⟨-, hlistening, hidle⟩ :=
    hcontrol.stopped (by rw [hlife]; intro h; cases h)
  constructor
  · intro hmade
    cases accepted <;> cases hmade
  · cases accepted <;> rfl
  · intro _ start hactive
    obtain ⟨hinit, hstart⟩ := initWatch_active hactive
    subst hstart
    cases hcase : cb with
    | none =>
        refine .exit ?_ rfl
        have hasync' := hasync hcase
        cases kind <;> simp_all [Kind.initCallback]
    | some addr =>
        obtain ⟨type, captures, hevent, hclosure⟩ := htyped addr hcase
        exact .closure hevent hclosure (fun _ => rfl)
  · exact fun _ => forall_active_of_none hlistening
  · intro data hphase
    have hphase' : Phase.idle = .allocating data := hidle.symm.trans hphase
    cases hphase'
  · intro closeCb hclosing
    cases accepted <;> cases hclosing
  · intro _ closeCb hclosed
    cases accepted <;> cases hclosed

theorem kept_afterInit (hproper : kind.Proper) (hkept : s.kept = s.life.kept)
    (hlife : s.life = .made) (cb : Option Addr) (accepted : Bool)
    (heap : Heap Obj) :
    (s.afterInit kind cb accepted heap).kept =
      (s.afterInit kind cb accepted heap).life.kept := by
  rw [hlife] at hkept
  have hzero : kind.initReleases.count handleAddr = 0 := by
    cases kind <;> simp_all [Kind.initReleases, Kind.Proper]
  simp only [HandleState.afterStub, hkept, hzero, Life.kept]
  cases accepted <;> rfl

/-- What the user gives an init: an async handle its callback, the others a
callback of the type that they call, or none. -/
theorem init_callback {cb : Option Addr}
    (hoffers : match cb with
      | none => kind ≠ .async
      | some cb => kind.initCallback.isSome ∧
          s.closureType cb = kind.initCallback) :
    (cb = none → kind ≠ .async) ∧
      ∀ addr, cb = some addr → ∃ type, kind.initCallback = some type ∧
        kind.event = some type ∧ s.closureType addr = some type := by
  cases cb with
  | none =>
      refine ⟨fun _ => hoffers, ?_⟩
      intro addr haddr
      cases haddr
  | some cb =>
      obtain ⟨hsome, htype⟩ := hoffers
      obtain ⟨type, hinit⟩ := Option.isSome_iff_exists.mp hsome
      refine ⟨(fun hnone => by cases hnone), ?_⟩
      intro addr haddr
      cases haddr
      refine ⟨type, hinit, ?_, htype.trans hinit⟩
      cases kind <;> simp_all [Kind.event, Kind.callback, Kind.initCallback]

theorem init_preserves (hinv : Inv kind agree counted s)
    (hcounted : counted → kind ≠ .tty) {cb : Option Addr} {accepted : Bool}
    (hallowed : Allowed kind agree counted s (.init cb accepted)) :
    ∃ next, step kind s (.init cb accepted) = .ok next ∧
      Inv kind agree counted next := by
  obtain ⟨hle, hlife, hoffers⟩ := hallowed.contract
  have hone : s.Backed 1 := hinv.backed hallowed
  have hcontrol := hinv.control
  obtain ⟨hasync, htyped⟩ := init_callback hoffers
  have hcb : cb.isSome → kind.initCallback.isSome := by
    intro hsome
    obtain ⟨addr, rfl⟩ := Option.isSome_iff_exists.mp hsome
    obtain ⟨type, hinit, -⟩ := htyped addr rfl
    exact Option.isSome_iff_exists.mpr ⟨type, hinit⟩
  have hne : cb ≠ some handleAddr := by
    intro heq
    obtain ⟨type, -, -, hclosure⟩ := htyped handleAddr heq
    exact hinv.base.closure_ne hone hclosure rfl
  obtain ⟨handle, hobj, hkind⟩ := hinv.base.handle hone
  have hok := hinv.slot handle hobj
  have hloop : handle.loop = none := by simpa [hlife] using hok.loop_eq
  have hdata := hok.made hlife
  have hown := own_init kind accepted hone hle hne s.heap
  have hmem : handleAddr ∈ (↑kind.initReleases + (initForgets kind accepted +
      (s.afterStub (.init cb accepted) s.heap kind.initReleases).own kind) +
        initLoop kind accepted : Multiset Addr) := by
    have hmem := mem_own kind hone
    rw [hown, add_assoc, Multiset.mem_add, ← add_assoc] at hmem
    refine hmem.resolve_left ?_
    simpa using hne
  obtain ⟨heap, hrun, hbalanced, hhandle, hframe, hlength⟩ :=
    initStub_spec (initWrite cb) kind.initReleases accepted
      (hinv.base.balanced.congr (by rw [hown, initWrite_moved, add_assoc]))
      hobj hloop (by rw [hkind]; rfl) hmem
  rw [initWrite_loses] at hframe
  rw [hdata, initWrite_result, hkind] at hhandle
  obtain ⟨hbalanced', hcells, lost, hframe', hlost⟩ :=
    initForget_spec hbalanced hframe
  have hlength' : (initForget kind heap accepted).cells.length =
      s.heap.cells.length := by
    rw [hcells, hlength]
  have hhandle' : Live (initForget kind heap accepted) handleAddr →
      ObjAt (initForget kind heap accepted) handleAddr
        (.handle ⟨kind, if accepted then some loopAddr else none, cb⟩) := by
    rintro ⟨obj, hlive⟩
    exact (objAt_congr hcells).mpr
      (hhandle ⟨obj, (objAt_congr hcells).mp hlive⟩)
  have hbase : Base kind
      (s.afterInit kind cb accepted (initForget kind heap accepted)) :=
    hinv.base.of_frame (hbalanced'.congr rfl)
      (backed_afterInit hone hle hne _) hframe'
      (fun _ obj hnew => ⟨_, hnew.unique (hhandle' hnew.live)⟩)
  have hclosures : ObjAt (initForget kind heap accepted) handleAddr
      (.handle ⟨kind, if accepted then some loopAddr else none, cb⟩) →
      ∀ addr, cb = some addr → ∃ type captures, kind.event = some type ∧
        ObjAt (initForget kind heap accepted) addr
          (.closure type captures) := by
    intro hobj' addr haddr
    obtain ⟨type, -, hevent, htype⟩ := htyped addr haddr
    obtain ⟨captures, hclosure⟩ := closureType_objAt htype
    exact ⟨type, captures, hevent, hframe'.closure hbase hobj' haddr hclosure
      (fun h => hne (by rw [haddr, h]))⟩
  have hlost' : counted → (if accepted then Life.opened else .failed) ≠
      .failed → lost = [] ∧ s.life ≠ .failed := by
    intro _ hopened
    cases accepted with
    | true => exact ⟨hlost rfl, by rw [hlife]; intro h; cases h⟩
    | false => exact absurd rfl hopened
  exact ⟨_, step_init hcb hasync hrun, hinv.of_write hcounted lost _ hbase
    (hcontrol.afterInit hlife cb accepted _) hhandle' hframe'
    (fun hobj' => .afterInit hcontrol hlife hasync (hclosures hobj'))
    (fun hproper => kept_afterInit hproper (hinv.kept hproper) hlife cb
      accepted _) hlost' (fun _ => no_new hlength')⟩

end Stubs

end UvMbt
