/-
The slot of a handle and the trampolines that read it: in every run that keeps
to the slot rule, each trampoline libuv may call finds an object of its type.
-/
import UvMbt.CallStep

set_option autoImplicit false

namespace UvMbt

open RefHeap HandleState GuardedRun

section Initial

variable (kind : Kind)

theorem initial_cell? (addr : Addr) :
    (HandleState.initial kind).heap.cell? addr =
      if addr = loopAddr then some ⟨1, .loop⟩
      else if addr = handleAddr then some ⟨1, .handle ⟨kind, none, none⟩⟩
      else none := by
  match addr with
  | 0 => rfl
  | 1 => rfl
  | addr + 2 => rfl

theorem initial_objAt {addr : Addr} {obj : Obj}
    (hobj : ObjAt (HandleState.initial kind).heap addr obj) :
    addr = loopAddr ∧ obj = .loop ∨
      addr = handleAddr ∧ obj = .handle ⟨kind, none, none⟩ := by
  obtain ⟨rc, hcell⟩ := hobj
  rw [initial_cell?] at hcell
  by_cases hloop : addr = loopAddr
  · rw [if_pos hloop] at hcell
    cases hcell
    exact Or.inl ⟨hloop, rfl⟩
  · by_cases hhandle : addr = handleAddr
    · rw [if_neg hloop, if_pos hhandle] at hcell
      cases hcell
      exact Or.inr ⟨hhandle, rfl⟩
    · rw [if_neg hloop, if_neg hhandle] at hcell
      cases hcell

theorem initial_edges : (HandleState.initial kind).heap.edges = [] := by
  simp [HandleState.initial, Heap.edges, refs_handle, HandleObj.loopRefs]

theorem initial_base : Base kind (HandleState.initial kind) where
  balanced := by
    constructor
    · intro addr
      have hown : (HandleState.initial kind).own kind =
          {loopAddr, handleAddr} := by
        have hsaved : (HandleState.initial kind).saved kind = [] := by
          cases kind <;> rfl
        rw [HandleState.own, hsaved]
        rfl
      have hlost : (HandleState.initial kind).heap.lost = [] := rfl
      rw [initial_edges, hown, hlost, Heap.rc, initial_cell?]
      cases addr with
      | zero => rfl
      | succ addr =>
          cases addr with
          | zero => rfl
          | succ addr => rfl
    · intro addr cell hcell
      rw [initial_cell?] at hcell
      by_cases hloop : addr = loopAddr
      · rw [if_pos hloop] at hcell
        cases hcell
        exact Nat.one_pos
      · by_cases hhandle : addr = handleAddr
        · rw [if_neg hloop, if_pos hhandle] at hcell
          cases hcell
          exact Nat.one_pos
        · rw [if_neg hloop, if_neg hhandle] at hcell
          cases hcell
  backed := by
    simp [HandleState.Backed, HandleState.initial]
  handles addr handle hobj := by
    rcases initial_objAt kind hobj with ⟨-, h⟩ | ⟨haddr, h⟩
    · cases h
    · cases h
      exact ⟨haddr, rfl⟩
  typed obj hobj := by
    rcases initial_objAt kind hobj with ⟨h, -⟩ | ⟨-, h⟩
    · cases h
    · exact ⟨_, h⟩
  two_le := Nat.le_refl 2

theorem initial_inv (agree counted : Prop) :
    Inv kind agree counted (HandleState.initial kind) where
  base := initial_base kind
  control := by
    refine ⟨fun _ => rfl, (fun h => by cases h), Or.inl rfl,
      fun _ => ⟨rfl, rfl, rfl⟩, fun _ => rfl, fun _ => ⟨rfl, rfl⟩, rfl,
      (fun _ h => by cases h), Or.inl rfl⟩
  slot handle hobj := by
    rcases initial_objAt kind hobj with ⟨h, -⟩ | ⟨-, h⟩
    · cases h
    · cases h
      refine ⟨fun _ => rfl, rfl, ?_, ?_, ?_, ?_, ?_⟩
      · exact fun _ _ h => by cases h
      · exact fun _ _ h => by cases h
      · exact fun _ h => by cases h
      · exact fun _ h => by cases h
      · exact fun _ _ h => by cases h
  kept _ := rfl
  lost _ _ := rfl
  ranked _ addr obj hobj hne target htarget := by
    rcases initial_objAt kind hobj with ⟨-, h⟩ | ⟨haddr, -⟩
    · subst h
      cases htarget
    · exact absurd haddr hne

end Initial

section Agreement

variable (kind : Kind) (s : HandleState)

/-- The slot holds a closure of a type. -/
def HoldsClosure (type : CallbackType) : Prop :=
  ∃ cb captures, s.slot = some cb ∧ ObjAt s.heap cb (.closure type captures)

/-- The slot holds receiver data of a type. -/
def HoldsReceiver (type : ReceiverType) : Prop :=
  ∃ data receive, s.slot = some data ∧
    ObjAt s.heap data (.receiver type receive)

/-- What the trampoline of a label must find.  The exit trampoline alone takes
an empty slot, which it finds when the process was spawned without an exit
callback. -/
def Finds : Label → Prop
  | .event _ =>
      (∃ type, kind.event = some type ∧ HoldsClosure s type) ∨
        kind = .process ∧ s.slot = none ∧
          ∃ start, s.watch.active = some start ∧ start.callbacks = []
  | .late _ => HoldsClosure s .fsPoll
  | .connection => HoldsClosure s .connection
  | .allocEnter | .receive _ _ _ =>
      ∃ type, kind.receiver = some type ∧ HoldsReceiver s type
  | .closed =>
      ∃ closeCb captures, s.life = .closing closeCb ∧
        s.slot = some closeCb ∧
        ObjAt s.heap closeCb (.closure .close captures)
  | _ => True

/-- Every trampoline that libuv may call now finds what it casts to, and the
close callback has been called once if the handle is closed, and not
before. -/
structure SlotAgrees : Prop where
  finds : ∀ label, Contract kind s label → BackedRule kind s label →
    Finds kind s label
  closeCalls : s.calls.filter (fun call => call.type = .close) =
    match s.life with
    | .closed closeCb => [⟨.close, closeCb⟩]
    | _ => []

/-- A step of a run that keeps to the slot rule. -/
def SlotAllowed (label : Label) : Prop :=
  Contract kind s label ∧ BackedRule kind s label ∧ SlotRule kind s label

instance : DecidablePred (SlotAllowed kind s) := fun _ =>
  inferInstanceAs (Decidable (_ ∧ _ ∧ _))

variable {kind s}

theorem SlotAllowed.allowed {label : Label}
    (hallowed : SlotAllowed kind s label) :
    Allowed kind False False s label :=
  ⟨hallowed.1, hallowed.2.1, hallowed.2.2, False.elim, False.elim⟩

/-- The handle a trampoline goes through is alive. -/
theorem Inv.trampoline {agree counted : Prop}
    (hinv : Inv kind agree counted s) {label : Label}
    (hallowed : Allowed kind agree counted s label)
    (hrefs : label.handleRefs kind = 1) :
    ∃ handle, ObjAt s.heap handleAddr (.handle handle) ∧
      SlotOk kind agree counted s handle := by
  have hone := hinv.backed hallowed
  rw [hrefs] at hone
  obtain ⟨handle, hobj, -⟩ := hinv.base.handle hone
  exact ⟨handle, hobj, hinv.slot handle hobj⟩

/-- What an active handle that reads nothing holds. -/
theorem Inv.finds_active (hinv : Inv kind False False s)
    (hone : s.Backed 1) (hreceiver : kind.receiver = none)
    (hactive : s.watch.active.isSome) :
    (∃ type, kind.event = some type ∧ HoldsClosure s type) ∨
      kind = .process ∧ s.slot = none ∧
        ∃ start, s.watch.active = some start ∧ start.callbacks = [] := by
  obtain ⟨handle, hobj, -⟩ := hinv.base.handle hone
  obtain ⟨start, hstart⟩ := Option.isSome_iff_exists.mp hactive
  have hidle : s.phase = .idle := hinv.control.plain hreceiver
  have hregistered := (hinv.slot handle hobj).watch (by rw [hidle]; rfl)
    start hstart
  rw [← HandleState.slot_eq hobj] at hregistered
  cases hslot : s.slot with
  | none =>
      rw [hslot] at hregistered
      cases hregistered with
      | exit hkind hcallbacks =>
          exact Or.inr ⟨hkind, rfl, start, hstart, hcallbacks⟩
  | some cb =>
      rw [hslot] at hregistered
      cases hregistered with
      | receiver hkind => rw [hreceiver] at hkind; cases hkind
      | closure hkind hcb =>
          exact Or.inl ⟨_, hkind, cb, _, hslot, hcb⟩

theorem Inv.finds_event (hinv : Inv kind False False s) {ends : Bool}
    (hcontract : Contract kind s (.event ends))
    (hbacked : BackedRule kind s (.event ends)) :
    Finds kind s (.event ends) := by
  have hone := hinv.backed
    ⟨hcontract, hbacked, trivial, False.elim, False.elim⟩
  obtain ⟨-, hreceiver, hreports, hturn⟩ := hcontract
  exact hinv.finds_active hone hreceiver
    (hinv.event_opened hreports hturn).2

theorem Inv.finds_late (hinv : Inv kind False False s) {start : Start}
    (hcontract : Contract kind s (.late start))
    (hbacked : BackedRule kind s (.late start)) :
    Finds kind s (.late start) := by
  have hone := hinv.backed
    ⟨hcontract, hbacked, trivial, False.elim, False.elim⟩
  obtain ⟨-, -, hkind, hactive, -⟩ := hcontract
  subst hkind
  rcases hinv.finds_active hone rfl hactive with ⟨type, htype, hholds⟩ | h
  · cases htype
    exact hholds
  · cases h.1

theorem Inv.finds_connection (hinv : Inv kind False False s)
    (hcontract : Contract kind s .connection)
    (hbacked : BackedRule kind s .connection) :
    Finds kind s .connection := by
  obtain ⟨handle, hobj, hok⟩ := hinv.trampoline
    ⟨hcontract, hbacked, trivial, False.elim, False.elim⟩ rfl
  obtain ⟨-, -, -, hactive, hidle⟩ := hcontract
  obtain ⟨start, hstart⟩ := Option.isSome_iff_exists.mp hactive
  obtain ⟨cb, captures, hdata, hcb, -⟩ :=
    hok.listening (by rw [hidle]; rfl) start hstart
  exact ⟨cb, captures, (HandleState.slot_eq hobj).trans hdata, hcb⟩

theorem Inv.finds_receiver (hinv : Inv kind False False s) {label : Label}
    (hcontract : Contract kind s label) (hbacked : BackedRule kind s label)
    (hrule : SlotRule kind s label) (hrefs : label.handleRefs kind = 1)
    (hkind : kind.receiver.isSome) (hactive : s.watch.active.isSome)
    (hphase : s.phase.allocating? = none) :
    ∃ type, kind.receiver = some type ∧ HoldsReceiver s type := by
  obtain ⟨handle, hobj, -⟩ := hinv.trampoline
    ⟨hcontract, hbacked, hrule, False.elim, False.elim⟩ hrefs
  obtain ⟨type, hkind⟩ := Option.isSome_iff_exists.mp hkind
  obtain ⟨data, receive, hdata, hreceive, -⟩ :=
    receiver_of_watch hinv hkind hactive hphase hobj
  exact ⟨type, hkind, data, receive, (HandleState.slot_eq hobj).trans hdata,
    hreceive⟩

theorem Inv.finds_closed (hinv : Inv kind False False s)
    (hcontract : Contract kind s .closed)
    (hbacked : BackedRule kind s .closed) : Finds kind s .closed := by
  obtain ⟨handle, hobj, hok⟩ := hinv.trampoline
    ⟨hcontract, hbacked, trivial, False.elim, False.elim⟩ rfl
  obtain ⟨-, hclosing, -⟩ := hcontract
  cases hlife : s.life with
  | closing closeCb =>
      obtain ⟨hdata, captures, hcb⟩ := hok.closing closeCb hlife
      exact ⟨closeCb, captures, hlife,
        (HandleState.slot_eq hobj).trans hdata, hcb⟩
  | made | failed | opened | closed _ =>
      rw [hlife] at hclosing
      cases hclosing

theorem Inv.slotAgrees (hinv : Inv kind False False s) :
    SlotAgrees kind s where
  finds label hcontract hbacked := by
    cases label with
    | event ends => exact hinv.finds_event hcontract hbacked
    | late start => exact hinv.finds_late hcontract hbacked
    | connection => exact hinv.finds_connection hcontract hbacked
    | closed => exact hinv.finds_closed hcontract hbacked
    | allocEnter =>
        obtain ⟨-, -, hkind, hactive, hidle, -⟩ := id hcontract
        exact hinv.finds_receiver hcontract hbacked trivial rfl hkind hactive
          (by rw [hidle]; rfl)
    | receive address last ends =>
        obtain ⟨-, hkind, hphase, hreports⟩ := id hcontract
        exact hinv.finds_receiver hcontract hbacked trivial rfl hkind
          (hinv.receive_opened hreports).2 hphase
    | _ => trivial
  closeCalls := hinv.control.calls

end Agreement

section Runs

/-- A connection that is read once and closed. -/
def readAndClose : List Label :=
  [.dup loopAddr, .dup handleAddr, .init none true, .newClosure .alloc [],
    .newClosure .read [], .dup handleAddr, .receiveStart 0 2 3 .accepted,
    .allocEnter, .newBytes, .allocLeave 5, .receive true true false,
    .newClosure .close [], .dup handleAddr, .close 6, .closed]

/-- Stopping a timer that closes takes the close callback out of the slot. -/
def closeThenStop : List Label :=
  [.dup handleAddr, .init none true, .newClosure .close [], .dup handleAddr,
    .close 2, .dup handleAddr, .stop true]

end Runs

end UvMbt
