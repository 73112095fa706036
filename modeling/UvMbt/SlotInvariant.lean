/-
The second layer of the invariant: what the `data` slot holds, by what libuv
may call next.  `agree` adds that it is the callback of the start libuv acts
on, `counted` that no reference is lost.
-/
import UvMbt.HandleInvariant

set_option autoImplicit false

namespace UvMbt

open RefHeap HandleState

/-- The closure type of the kind's event. -/
def Kind.event (kind : Kind) : Option CallbackType :=
  kind.callback.or kind.initCallback

/-- The kinds whose stubs keep the loop's reference: init takes one and the
close trampoline releases it. -/
def Kind.Proper (kind : Kind) : Prop :=
  kind ≠ .async ∧ kind ≠ .tty ∧ kind ≠ .signal

instance : DecidablePred Kind.Proper := fun _ =>
  inferInstanceAs (Decidable (_ ∧ _ ∧ _))

/-- How many references a proper handle's loop has kept. -/
def Life.kept : Life → Int
  | .made | .closed _ => 0
  | .failed | .opened | .closing _ => 1

/-- The slot holds what the trampolines of a start need. -/
inductive Registered (kind : Kind) (agree quiet : Prop) (heap : Heap Obj) :
    Option Addr → Start → Prop where
  | receiver {type : ReceiverType} {addr : Addr} {receive : ReceiveData}
      {start : Start} (hkind : kind.receiver = some type)
      (hobj : ObjAt heap addr (.receiver type receive))
      (hquiet : quiet → receive.bytes = none)
      (hagree : agree → start.callbacks = [receive.allocCb, receive.readCb]) :
      Registered kind agree quiet heap (some addr) start
  | closure {type : CallbackType} {cb : Addr} {captures : List Addr}
      {start : Start} (hkind : kind.event = some type)
      (hobj : ObjAt heap cb (.closure type captures))
      (hagree : agree → start.callbacks = [cb]) :
      Registered kind agree quiet heap (some cb) start
  | exit {start : Start} (hkind : kind = .process)
      (hcallbacks : start.callbacks = []) :
      Registered kind agree quiet heap none start

/-- Below the handle references go to older objects or to bytes. -/
def Ranked (heap : Heap Obj) : Prop :=
  ∀ addr obj, ObjAt heap addr obj → addr ≠ handleAddr →
    ∀ target ∈ refs obj, target < addr ∨ ObjAt heap target .bytes

/-- What libuv does with a handle apart from its slot. -/
structure Control (kind : Kind) (agree : Prop) (s : HandleState) : Prop where
  plain : kind.receiver = none → s.phase = .idle
  stream : s.listening.active.isSome → kind.receiver = some .stream
  apart : s.watch.active = none ∨ s.listening.active = none
  stopped : s.life ≠ .opened →
    s.watch.active = none ∧ s.listening.active = none ∧ s.phase = .idle
  allocating : s.phase.allocating?.isSome → s.listening.active = none
  told : agree → s.watch.told = s.watch.active ∧
    s.listening.told = s.listening.active
  calls : s.calls.filter (fun call => call.type = .close) =
    match s.life with
    | .closed closeCb => [⟨.close, closeCb⟩]
    | _ => []
  turned : ∀ type, s.turn.kind? = some type →
    kind = type ∧ s.life = .opened
  fresh : s.stale = [] ∨ kind = .fsPoll ∧ (agree → s.watch.active = none)

/-- What the slot holds. -/
structure SlotOk (kind : Kind) (agree counted : Prop) (s : HandleState)
    (handle : HandleObj) : Prop where
  made : s.life = .made → handle.data = none
  loop_eq : handle.loop =
    if s.life = .made ∨ s.life = .failed then none else some loopAddr
  watch : s.phase.allocating? = none →
    ∀ start, s.watch.active = some start →
      Registered kind agree (s.phase = .idle) s.heap handle.data start
  listening : s.phase.allocating? = none →
    ∀ start, s.listening.active = some start →
      ∃ cb captures, handle.data = some cb ∧
        ObjAt s.heap cb (.closure .connection captures) ∧
        (agree → start.callbacks = [cb])
  allocating : ∀ data, s.phase = .allocating data →
    ∃ type receive, kind.receiver = some type ∧
      ObjAt s.heap data (.receiver type receive) ∧ receive.bytes = none ∧
      (type = .udp → handle.data = some data) ∧
      (agree → ∀ start, s.watch.active = some start →
        start.callbacks = [receive.allocCb, receive.readCb])
  closing : ∀ closeCb, s.life = .closing closeCb →
    handle.data = some closeCb ∧
      ∃ captures, ObjAt s.heap closeCb (.closure .close captures)
  closed : counted → ∀ closeCb, s.life = .closed closeCb →
    handle.data = none

/-- The invariant of a run of one handle. -/
structure Inv (kind : Kind) (agree counted : Prop) (s : HandleState) :
    Prop where
  base : Base kind s
  control : Control kind agree s
  slot : ∀ handle, ObjAt s.heap handleAddr (.handle handle) →
    SlotOk kind agree counted s handle
  kept : kind.Proper → s.kept = s.life.kept
  lost : counted → s.life ≠ .failed → s.heap.lost = []
  ranked : counted → Ranked s.heap

section Transfer

variable {kind : Kind} {agree counted : Prop} {s s' : HandleState}
  {handle : HandleObj}

theorem Registered.mono {quiet quiet' : Prop} {heap heap' : Heap Obj}
    {data : Option Addr} {start : Start}
    (hregistered : Registered kind agree quiet heap data start)
    (hquiet : quiet' → quiet)
    (hobj : ∀ addr obj, data = some addr → ObjAt heap addr obj →
      ObjAt heap' addr obj) :
    Registered kind agree quiet' heap' data start := by
  cases hregistered with
  | receiver hkind hold hbytes hagree =>
      exact .receiver hkind (hobj _ _ rfl hold)
        (fun h => hbytes (hquiet h)) hagree
  | closure hkind hold hagree =>
      exact .closure hkind (hobj _ _ rfl hold) hagree
  | exit hkind hcallbacks => exact .exit hkind hcallbacks

/-- The slot stays right when nothing it refers to changes and no start is
added. -/
theorem SlotOk.transfer (hok : SlotOk kind agree counted s handle)
    (hobj : ∀ addr obj, handle.data = some addr ∨
      s.phase = .allocating addr → ObjAt s.heap addr obj →
        ObjAt s'.heap addr obj)
    (hlife : s'.life = s.life) (hphase : s'.phase = s.phase)
    (hwatch : ∀ start, s'.watch.active = some start →
      s.watch.active = some start)
    (hlistening : ∀ start, s'.listening.active = some start →
      s.listening.active = some start) :
    SlotOk kind agree counted s' handle where
  made hmade := hok.made (hlife ▸ hmade)
  loop_eq := by rw [hlife, hok.loop_eq]
  watch hnone start hstart := by
    rw [hphase] at hnone ⊢
    exact (hok.watch hnone start (hwatch start hstart)).mono id
      (fun addr obj haddr => hobj addr obj (Or.inl haddr))
  listening hnone start hstart := by
    rw [hphase] at hnone
    obtain ⟨cb, captures, hdata, hcb, hagree⟩ :=
      hok.listening hnone start (hlistening start hstart)
    exact ⟨cb, captures, hdata, hobj _ _ (Or.inl hdata) hcb, hagree⟩
  allocating data hdata := by
    rw [hphase] at hdata
    obtain ⟨type, receive, hkind, hreceive, hbytes, hudp, hagree⟩ :=
      hok.allocating data hdata
    exact ⟨type, receive, hkind, hobj _ _ (Or.inr hdata) hreceive, hbytes,
      hudp, fun h start hstart => hagree h start (hwatch start hstart)⟩
  closing closeCb hclosing := by
    obtain ⟨hdata, captures, hcb⟩ := hok.closing closeCb (hlife ▸ hclosing)
    exact ⟨hdata, captures, hobj _ _ (Or.inl hdata) hcb⟩
  closed hcounted closeCb hclosed :=
    hok.closed hcounted closeCb (hlife ▸ hclosed)

/-- Of an open handle the slot says what libuv may call of its starts. -/
theorem SlotOk.of_opened (hlife : s.life = .opened)
    (hloop : handle.loop =
      if s.life = .made ∨ s.life = .failed then none else some loopAddr)
    (hwatch : s.phase.allocating? = none →
      ∀ start, s.watch.active = some start →
        Registered kind agree (s.phase = .idle) s.heap handle.data start)
    (hlistening : s.phase.allocating? = none →
      ∀ start, s.listening.active = some start →
        ∃ cb captures, handle.data = some cb ∧
          ObjAt s.heap cb (.closure .connection captures) ∧
          (agree → start.callbacks = [cb]))
    (hallocating : ∀ data, s.phase = .allocating data →
      ∃ type receive, kind.receiver = some type ∧
        ObjAt s.heap data (.receiver type receive) ∧ receive.bytes = none ∧
        (type = .udp → handle.data = some data) ∧
        (agree → ∀ start, s.watch.active = some start →
          start.callbacks = [receive.allocCb, receive.readCb])) :
    SlotOk kind agree counted s handle where
  made hmade := by
    rw [hlife] at hmade
    cases hmade
  loop_eq := hloop
  watch := hwatch
  listening := hlistening
  allocating := hallocating
  closing closeCb hclosing := by
    rw [hlife] at hclosing
    cases hclosing
  closed _ closeCb hclosed := by
    rw [hlife] at hclosed
    cases hclosed

/-- What the slot refers to is alive. -/
theorem Base.data_live (hbase : Base kind s)
    (hobj : ObjAt s.heap handleAddr (.handle handle)) {addr : Addr}
    (hdata : handle.data = some addr) : Live s.heap addr :=
  hbase.balanced.live_of_refs hobj (by simp [refs_handle, hdata])

/-- So is the data that the alloc trampoline remembers. -/
theorem Base.allocating_live (hbase : Base kind s)
    (hobj : ObjAt s.heap handleAddr (.handle handle)) {data : Addr}
    (hphase : s.phase = .allocating data) {type : ReceiverType}
    (hkind : kind.receiver = some type)
    (hudp : type = .udp → handle.data = some data) : Live s.heap data := by
  cases type with
  | udp => exact hbase.data_live hobj (hudp rfl)
  | stream =>
      refine hbase.balanced.live ?_
      simp [HandleState.own, HandleState.saved, hkind, hphase, savedData,
        Phase.allocating?]

theorem Ranked.of_frame {old new : Heap Obj} {changed lost : List Addr}
    {own : Multiset Addr} (hranked : Ranked old)
    (hframe : Frame changed lost old new) (hbalanced : Balanced new own)
    (hbytes : ∀ addr ∈ changed, ¬ ObjAt old addr .bytes)
    (hwritten : ∀ addr obj, ObjAt new addr obj → addr ≠ handleAddr →
      addr ∈ changed ∨ old.cells.length ≤ addr → ∀ target ∈ refs obj,
        target < addr ∨ ObjAt new target .bytes) : Ranked new := by
  intro addr obj hobj hne target htarget
  by_cases hwas : addr ∈ changed ∨ old.cells.length ≤ addr
  · exact hwritten addr obj hobj hne hwas target htarget
  · rw [not_or, Nat.not_le] at hwas
    have hold := hframe.keeps.objAt_old addr obj hwas.2 hwas.1 hobj
    rcases hranked addr obj hold hne target htarget with hlt | hold'
    · exact Or.inl hlt
    · right
      refine hframe.keeps.objAt hold' (fun hmem => hbytes _ hmem hold') ?_
      exact hbalanced.live_of_refs hobj htarget

/-- A step that leaves the handle alone and adds only ranked objects. -/
theorem Inv.of_frame (hinv : Inv kind agree counted s) (hbase : Base kind s')
    (hcontrol : Control kind agree s') (hframe : Frame [] [] s.heap s'.heap)
    (hnew : counted → ∀ addr obj, s.heap.cells.length ≤ addr →
      ObjAt s'.heap addr obj → ∀ target ∈ refs obj,
        target < addr ∨ ObjAt s'.heap target .bytes)
    (hno : counted → NoTty s.heap)
    (hlife : s'.life = s.life) (hphase : s'.phase = s.phase)
    (hkept : kind.Proper → s'.kept = s.kept)
    (hwatch : ∀ start, s'.watch.active = some start →
      s.watch.active = some start)
    (hlistening : ∀ start, s'.listening.active = some start →
      s.listening.active = some start) :
    Inv kind agree counted s' where
  base := hbase
  control := hcontrol
  slot handle hobj := by
    have hold := hframe.keeps.objAt_old _ _ hinv.base.handleAddr_lt
      (by simp) hobj
    have hok := hinv.slot handle hold
    refine hok.transfer ?_ hlife hphase hwatch hlistening
    intro addr obj hmem haddr
    refine hframe.keeps.objAt haddr (by simp) ?_
    rcases hmem with hdata | hdata
    · exact hbase.data_live hobj hdata
    · obtain ⟨type, receive, hkind, -, -, hudp, -⟩ := hok.allocating addr hdata
      exact hbase.allocating_live hobj (hphase.trans hdata) hkind hudp
  kept hproper := by rw [hkept hproper, hlife, hinv.kept hproper]
  lost hcounted hfailed := by
    rw [hframe.lost_eq (hno hcounted),
      hinv.lost hcounted (hlife ▸ hfailed)]
    rfl
  ranked hcounted := by
    refine (hinv.ranked hcounted).of_frame hframe hbase.balanced (by simp) ?_
    intro addr obj hobj _ hwas
    rcases hwas with hmem | hle
    · exact absurd hmem (by simp)
    · exact hnew hcounted addr obj hle hobj

theorem Base.noTty (hbase : Base kind s) (hkind : kind ≠ .tty) :
    NoTty s.heap := by
  intro addr handle hobj
  rw [(hbase.handles addr handle hobj).2]
  exact hkind

end Transfer

end UvMbt
