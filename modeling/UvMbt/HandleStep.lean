/-
The rules under which the slot stays right, and that every step that follows
them keeps the invariant.
-/
import UvMbt.SlotInvariant

set_option autoImplicit false

namespace UvMbt

open RefHeap HandleState GuardedRun

/-- How many references to the handle a label uses up or goes through. -/
def Label.handleRefs (kind : Kind) : Label → Nat
  | .newClosure _ captures => captures.count handleAddr
  | .newBytes | .unpack _ _ | .exiting | .resume _ | .discard _ | .leave => 0
  | .dup addr | .drop addr => if addr = handleAddr then 1 else 0
  | .stop _ => kind.stopReleases.count handleAddr
  | _ => 1

section Rules

variable (kind : Kind) (s : HandleState)

/-- Async, tty and signal handles: the references the stubs released and never
took are not used again. -/
def BackedRule (label : Label) : Prop :=
  ¬ kind.Proper → s.Backed (label.handleRefs kind)

instance : DecidablePred (BackedRule kind s) := fun _ =>
  inferInstanceAs (Decidable (_ → _))

/-- The orders of calls in which the slot is not taken from the trampoline that
needs it: nothing writes it while the handle closes, reading and listening do
not meet, a `close_reset` or a stop that fails finds nothing active, the alloc
callback of a stream neither closes nor listens, that of a UDP handle does not
write the slot, a UDP handle that receives is not closed within a batch, and a
process is not closed when libuv has come to it in a batch of exits. -/
def SlotRule : Label → Prop
  | .start _ _ _ _ => s.life.closing? = none
  | .stop accepted =>
      kind.stopClears →
        s.life.closing? = none ∧ (s.watch.active.isSome → accepted)
  | .receiveStart _ _ _ _ =>
      s.life.closing? = none ∧ s.listening.active = none ∧
        (kind = .udp → s.phase.allocating? = none)
  | .receiveStop accepted =>
      s.life.closing? = none ∧ s.listening.active = none ∧
        (kind = .udp → s.phase.allocating? = none) ∧
        (s.phase.allocating? = none → s.watch.active.isSome → accepted)
  | .listen _ _ accepted =>
      s.life.closing? = none ∧
        (s.phase.allocating? = none → s.watch.active = none) ∧
        (s.phase.allocating?.isSome → accepted = false)
  | .close _ =>
      s.phase.allocating? = none ∧ s.turn ≠ .exiting ∧
        (s.turn = .receiving → s.watch.active = none)
  | .closeReset _ accepted =>
      (s.phase.allocating?.isSome → accepted = false) ∧
        (s.phase.allocating? = none → accepted = false →
          s.watch.active = none ∧ s.listening.active = none)
  | _ => True

instance : DecidablePred (SlotRule kind s)
  | .start _ _ _ _ => inferInstanceAs (Decidable (_ = _))
  | .stop _ => inferInstanceAs (Decidable (_ → _ ∧ _))
  | .receiveStart _ _ _ _ => inferInstanceAs (Decidable (_ ∧ _ ∧ (_ → _)))
  | .receiveStop _ =>
      inferInstanceAs (Decidable (_ ∧ _ ∧ (_ → _) ∧ (_ → _ → _)))
  | .listen _ _ _ => inferInstanceAs (Decidable (_ ∧ (_ → _) ∧ (_ → _)))
  | .close _ => inferInstanceAs (Decidable (_ ∧ _ ∧ (_ → _)))
  | .closeReset _ _ =>
      inferInstanceAs (Decidable ((_ → _) ∧ (_ → _ → _ ∧ _)))
  | .newClosure _ _ | .newBytes | .dup _ | .drop _ | .walk | .unpack _ _
  | .init _ _ | .send | .exiting | .event _ | .resume _ | .late _ | .discard _
  | .connection | .allocEnter | .allocLeave _ | .receive _ _ _ | .leave
  | .closed => isTrue trivial

/-- Starts that fail or are ignored find nothing active, one that libuv takes
keeps its parameters and comes when no stat of a stopped start is pending, the
alloc callback does not start again, and the callback of a signal that libuv
ends does not either. -/
def AgreeRule : Label → Prop
  | .start param _ _ answer =>
      (answer = .accepted ∨ answer = .altered param) ∧ s.stale = [] ∨
        answer = .rejected ∧ s.watch.active = none
  | .receiveStart _ _ _ answer =>
      if s.phase.allocating?.isSome then answer = .rejected
      else answer = .accepted ∨ answer = .rejected ∧ s.watch.active = none
  | .listen _ _ accepted => accepted ∨ s.listening.active = none
  | .resume ends => ends → s.turn.calling? = some false
  | _ => True

instance : DecidablePred (AgreeRule s)
  | .start _ _ _ _ => inferInstanceAs (Decidable ((_ ∨ _) ∧ _ ∨ _ ∧ _))
  | .receiveStart _ _ _ answer =>
      inferInstanceAs (Decidable (if s.phase.allocating?.isSome
        then answer = .rejected
        else answer = .accepted ∨ answer = .rejected ∧ s.watch.active = none))
  | .listen _ _ _ => inferInstanceAs (Decidable (_ ∨ _))
  | .resume _ => inferInstanceAs (Decidable (_ → _))
  | .newClosure _ _ | .newBytes | .dup _ | .drop _ | .walk | .unpack _ _
  | .init _ _ | .stop _ | .receiveStop _ | .close _ | .closeReset _ _ | .send
  | .exiting | .event _ | .late _ | .discard _ | .connection | .allocEnter
  | .allocLeave _ | .receive _ _ _ | .leave | .closed => isTrue trivial

/-- The contents of the slot. -/
def HandleState.slot (s : HandleState) : Option Addr :=
  match s.heap.cell? handleAddr with
  | some ⟨_, .handle handle⟩ => handle.data
  | _ => none

def Life.closed? : Life → Option Addr
  | .closed closeCb => some closeCb
  | _ => none

/-- A listen finds the slot empty, and nothing is started on a closed
handle. -/
def CountRule : Label → Prop
  | .start _ _ _ _ | .receiveStart _ _ _ _ => s.life.closed? = none
  | .listen _ _ _ => s.life.closed? = none ∧ s.slot = none
  | _ => True

instance : DecidablePred (CountRule s)
  | .start _ _ _ _ | .receiveStart _ _ _ _ =>
      inferInstanceAs (Decidable (_ = _))
  | .listen _ _ _ => inferInstanceAs (Decidable (_ ∧ _))
  | .newClosure _ _ | .newBytes | .dup _ | .drop _ | .walk | .unpack _ _
  | .init _ _ | .stop _ | .receiveStop _ | .close _ | .closeReset _ _ | .send
  | .exiting | .event _ | .resume _ | .late _ | .discard _ | .connection
  | .allocEnter | .allocLeave _ | .receive _ _ _ | .leave | .closed =>
      isTrue trivial

end Rules

theorem HandleState.slot_eq {s : HandleState} {handle : HandleObj}
    (hobj : ObjAt s.heap handleAddr (.handle handle)) :
    s.slot = handle.data := by
  obtain ⟨rc, hcell⟩ := hobj
  simp [HandleState.slot, hcell]

/-- What a step is allowed to be. -/
structure Allowed (kind : Kind) (agree counted : Prop) (s : HandleState)
    (label : Label) : Prop where
  contract : Contract kind s label
  backed : BackedRule kind s label
  slot : SlotRule kind s label
  agree : agree → AgreeRule s label
  counted : counted → CountRule s label

section Objects

variable {kind : Kind} {agree counted : Prop} {s : HandleState}

theorem Life.kept_nonneg (life : Life) : 0 ≤ life.kept := by
  cases life <;> simp [Life.kept]

/-- What a label uses up it also goes through. -/
theorem handleRefs_le (hproper : kind.Proper) (label : Label) :
    label.handleRefs kind ≤ label.consumed.count handleAddr ∨
      label.consumed = [] ∧ label.handleRefs kind ≤ 1 ∨
        ∃ buffer, label = .allocLeave buffer := by
  cases label with
  | newClosure type captures => exact Or.inl (Nat.le_refl _)
  | drop addr =>
      left
      simp [Label.handleRefs, Label.consumed, List.count_singleton]
  | dup addr =>
      right; left
      refine ⟨rfl, ?_⟩
      simp only [Label.handleRefs]
      split <;> omega
  | stop accepted =>
      left
      simp [Label.handleRefs, Label.consumed, Kind.stopReleases,
        hproper.2.2]
  | newBytes | unpack _ _ | walk | exiting | event _ | resume _ | late _
  | discard _ | connection | allocEnter | receive _ _ _ | leave | closed =>
      right; left
      exact ⟨rfl, by simp [Label.handleRefs]⟩
  | allocLeave buffer => exact Or.inr (Or.inr ⟨buffer, rfl⟩)
  | init _ _ | start _ _ _ _ | receiveStart _ _ _ _ | receiveStop _
  | listen _ _ _ | close _ | closeReset _ _ | send =>
      left
      simp [Label.handleRefs, Label.consumed]

/-- With the invariant, only async, tty and signal handles can run out of
references. -/
theorem Inv.backed (hinv : Inv kind agree counted s) {label : Label}
    (hallowed : Allowed kind agree counted s label) :
    s.Backed (label.handleRefs kind) := by
  by_cases hproper : kind.Proper
  · obtain ⟨hle, hoffers⟩ := hallowed.contract
    have hcount := Multiset.count_le_of_le handleAddr hle
    rw [Multiset.coe_count] at hcount
    have hkept := hinv.kept hproper
    have hnonneg := Life.kept_nonneg s.life
    rw [HandleState.Backed]
    have hopened : s.life = .opened → s.kept = 1 := by
      intro hlife
      rw [hkept, hlife]
      rfl
    have hclosing : s.life.closing?.isSome → s.kept = 1 := by
      intro hsome
      rw [hkept]
      cases hlife : s.life with
      | closing closeCb => rfl
      | made | failed | opened | closed _ =>
          simp [hlife, Life.closing?] at hsome
    rcases handleRefs_le hproper label with hrefs | ⟨hnil, hrefs⟩ | ⟨b, rfl⟩
    · omega
    · cases label with
      | newBytes | unpack _ _ | exiting | resume _ | discard _ | leave =>
          simp only [Label.handleRefs]
          omega
      | dup addr =>
          simp only [Label.handleRefs]
          split
          · next haddr =>
              subst haddr
              have hpos := Multiset.count_pos.mpr hoffers
              omega
          · omega
      | connection | allocEnter | late _ =>
          have hone := hopened hoffers.1
          omega
      | walk =>
          have hone := hoffers.elim hopened hclosing
          omega
      | event _ =>
          have hone := hoffers.2.1.elim (fun h => hopened h.1)
            (fun h => hclosing h.1)
          omega
      | receive _ _ _ =>
          have hone := hoffers.2.2.elim (fun h => hopened h.1)
            (fun h => hclosing h.1)
          omega
      | closed =>
          have hone := hclosing hoffers.1
          omega
      | newClosure _ _ =>
          simp only [Label.consumed] at hnil
          simp [Label.handleRefs, hnil]
          omega
      | _ => simp [Label.consumed] at hnil
    · have hlife : s.life = .opened := by
        by_contra hlife
        have hidle := (hinv.control.stopped hlife).2.2
        have hphase := hoffers.2.1
        simp [hidle, Phase.allocating?] at hphase
      have hone := hopened hlife
      simp only [Label.handleRefs]
      omega
  · exact hallowed.backed hproper

/-- The ledger of a state that differs in its heap and its user's references. -/
theorem own_gain (kind : Kind) {s : HandleState} (hbacked : s.Backed 0)
    (heap : Heap Obj) (gained : Multiset Addr) :
    ({ s with heap, user := gained + s.user } : HandleState).own kind =
      gained + s.own kind := by
  have hbacked' : 0 ≤ s.user.count handleAddr + s.kept := by
    simpa [HandleState.Backed] using hbacked
  simp only [HandleState.own, HandleState.saved, ledger_add _ _ gained hbacked']
  abel

theorem backed_gain (hbacked : s.Backed 0) (heap : Heap Obj)
    (gained : Multiset Addr) :
    ({ s with heap, user := gained + s.user } : HandleState).Backed 0 := by
  simp only [HandleState.Backed, Multiset.count_add] at hbacked ⊢
  omega

theorem own_use {used : Multiset Addr} (hle : used ≤ s.user)
    (hbacked : s.Backed (used.count handleAddr)) (heap : Heap Obj) :
    s.own kind = used +
      ({ s with heap, user := s.user - used } : HandleState).own kind := by
  rw [HandleState.own, ledger_sub _ hle hbacked]
  simp only [HandleState.own, HandleState.saved]
  abel

theorem backed_use {used : Multiset Addr} (hle : used ≤ s.user)
    (hbacked : s.Backed (used.count handleAddr)) (heap : Heap Obj) :
    ({ s with heap, user := s.user - used } : HandleState).Backed 0 := by
  have hcount := Multiset.count_le_of_le handleAddr hle
  simp only [HandleState.Backed, Multiset.count_sub] at hbacked ⊢
  omega

/-- References of a new object are older than it. -/
theorem alloc_refs_lt {heap : Heap Obj} {own : Multiset Addr} {obj : Obj}
    (hbalanced : Balanced heap (↑(refs obj) + own)) {target : Addr}
    (htarget : target ∈ refs obj) : target < heap.cells.length := by
  obtain ⟨_, hlive⟩ := hbalanced.live
    (Multiset.mem_add.mpr (Or.inl htarget))
  exact hlive.lt_length

theorem alloc_ranked {heap : Heap Obj} {obj : Obj} (own : Multiset Addr)
    (hbalanced : Balanced heap (↑(refs obj) + own))
    (hnew : ObjAt (heap.alloc obj).1 heap.cells.length obj) :
    ∀ addr obj', heap.cells.length ≤ addr →
      ObjAt (heap.alloc obj).1 addr obj' → ∀ target ∈ refs obj',
        target < addr ∨ ObjAt (heap.alloc obj).1 target .bytes := by
  intro addr obj' hle hobj target htarget
  obtain rfl := alloc_new rfl hle hobj
  rw [hobj.unique hnew] at htarget
  exact Or.inl (alloc_refs_lt hbalanced htarget)

theorem no_new {old new : Heap Obj}
    (hlength : new.cells.length = old.cells.length) :
    ∀ addr obj, old.cells.length ≤ addr → ObjAt new addr obj →
      ∀ target ∈ refs obj, target < addr ∨ ObjAt new target .bytes := by
  intro addr obj hle hobj
  have hlt := hobj.lt_length
  rw [hlength] at hlt
  exact absurd hlt (Nat.not_lt.mpr hle)

/-- The labels of the MoonBit code that call no stub. -/
def Label.onObjects : Label → Bool
  | .newClosure _ _ | .newBytes | .dup _ | .drop _ | .walk | .unpack _ _ =>
      true
  | _ => false

/-- A step on objects alone: the handle and libuv's record stay. -/
structure ObjectStep (kind : Kind) (s : HandleState) (heap : Heap Obj)
    (user : Multiset Addr) : Prop where
  base : Base kind { s with heap, user }
  frame : Frame [] [] s.heap heap
  ranked : ∀ addr obj, s.heap.cells.length ≤ addr → ObjAt heap addr obj →
    ∀ target ∈ refs obj, target < addr ∨ ObjAt heap target .bytes

theorem newClosure_objects (hbase : Base kind s) {type : CallbackType}
    {captures : List Addr} (hle : ↑captures ≤ s.user)
    (hbacked : s.Backed (Multiset.count handleAddr ↑captures)) :
    ∃ heap user, step kind s (.newClosure type captures) =
        .ok { s with heap, user } ∧ ObjectStep kind s heap user := by
  have hbalanced := hbase.balanced.congr (own_use hle hbacked s.heap)
  have hbacked' := backed_use hle hbacked s.heap
  rw [← refs_closure type captures] at hbalanced
  obtain ⟨hnext, hnew, hext⟩ :=
    alloc_extends hbalanced (by intro _ h; cases h)
  refine ⟨_, _, rfl, ?_, hext.frame, alloc_ranked _ hbalanced hnew⟩
  refine hbase.of_frame (hnext.congr ?_) ?_ hext.frame (by simp)
  · rw [own_gain kind hbacked' _, Multiset.singleton_add, refs_closure]
  · exact backed_gain hbacked' _ _

theorem newBytes_objects (hbase : Base kind s) :
    ∃ heap user, step kind s .newBytes = .ok { s with heap, user } ∧
      ObjectStep kind s heap user := by
  obtain ⟨hnext, hnew, hext⟩ := alloc_bytes_spec hbase.balanced
  refine ⟨_, _, rfl, ?_, hext.frame, alloc_ranked (s.own kind)
    (hbase.balanced.congr (by simp)) hnew⟩
  refine hbase.of_frame (hnext.congr ?_) ?_ hext.frame (by simp)
  · rw [own_gain kind hbase.backed _, Multiset.singleton_add]
  · exact backed_gain hbase.backed _ _

/-- One more reference to a live object goes to the user. -/
theorem incref_objects (hbase : Base kind s) {addr : Addr}
    (hlive : Live s.heap addr) :
    ∃ heap, s.heap.incref addr = .ok heap ∧
      ObjectStep kind s heap ({addr} + s.user) := by
  obtain ⟨heap, hrun, hnext, hext, hlength⟩ :=
    incref_extends hbase.balanced hlive
  refine ⟨heap, hrun, ?_, hext.frame, no_new hlength⟩
  refine hbase.of_frame (hnext.congr ?_) ?_ hext.frame (by simp)
  · rw [own_gain kind hbase.backed _, Multiset.singleton_add]
  · exact backed_gain hbase.backed _ _

theorem dup_objects (hbase : Base kind s) {addr : Addr} (hmem : addr ∈ s.user)
    (hbacked : s.Backed ((Label.dup addr).handleRefs kind)) :
    ∃ heap user, step kind s (.dup addr) = .ok { s with heap, user } ∧
      ObjectStep kind s heap user := by
  have hown : addr ∈ s.own kind := by
    by_cases haddr : addr = handleAddr
    · subst haddr
      exact mem_own kind (by simpa [Label.handleRefs] using hbacked)
    · rw [HandleState.own, Multiset.mem_add,
        ← Multiset.count_pos (s := ledger _ _), count_ledger, if_neg haddr]
      exact Or.inr (Multiset.count_pos.mpr hmem)
  obtain ⟨heap, hrun, hnext⟩ :=
    incref_objects hbase (hbase.balanced.live hown)
  exact ⟨heap, _, by simp [step, hrun, bind, Except.bind, pure, Except.pure],
    hnext⟩

theorem walk_objects (hbase : Base kind s) (hone : s.Backed 1) :
    ∃ heap user, step kind s .walk = .ok { s with heap, user } ∧
      ObjectStep kind s heap user := by
  obtain ⟨handle, hobj, -⟩ := hbase.handle hone
  obtain ⟨heap, hrun, hnext⟩ := incref_objects hbase hobj.live
  exact ⟨heap, _, by simp [step, hrun, bind, Except.bind, pure, Except.pure],
    hnext⟩

theorem unpack_objects (hbase : Base kind s) {closure capture : Addr}
    (hcaptures : capture ∈ s.captures closure) :
    ∃ heap user, step kind s (.unpack closure capture) =
        .ok { s with heap, user } ∧ ObjectStep kind s heap user := by
  have hlive : Live s.heap capture := by
    cases hcell : s.heap.cell? closure with
    | none => simp [HandleState.captures, hcell] at hcaptures
    | some cell =>
        obtain ⟨rc, obj⟩ := cell
        cases obj with
        | closure type captures =>
            simp only [HandleState.captures, hcell] at hcaptures
            exact hbase.balanced.live_of_refs ⟨rc, hcell⟩
              (by rwa [refs_closure])
        | _ => simp [HandleState.captures, hcell] at hcaptures
  obtain ⟨heap, hrun, hnext⟩ := incref_objects hbase hlive
  exact ⟨heap, _, by simp [step, hrun, bind, Except.bind, pure, Except.pure],
    hnext⟩

theorem drop_objects (hbase : Base kind s) {addr : Addr}
    (hle : {addr} ≤ s.user)
    (hbacked : s.Backed (Multiset.count handleAddr {addr})) :
    ∃ heap user, step kind s (.drop addr) = .ok { s with heap, user } ∧
      ObjectStep kind s heap user := by
  have hbalanced := hbase.balanced.congr (own_use hle hbacked s.heap)
  rw [Multiset.singleton_add] at hbalanced
  obtain ⟨heap, hrun, hnext, hframe, hlength⟩ := decref_frame addr _ hbalanced
  refine ⟨heap, s.user - {addr}, ?_, ?_, hframe, no_new hlength⟩
  · simp [step, hrun, bind, Except.bind, pure, Except.pure]
  · exact hbase.of_frame (hnext.congr rfl) (backed_use hle hbacked heap)
      hframe (by simp)

/-- The labels on objects never fault, whatever the slot holds. -/
theorem object_step (hbase : Base kind s) {label : Label}
    (hlabel : label.onObjects) (hcontract : Contract kind s label)
    (hbacked : s.Backed (label.handleRefs kind)) :
    ∃ heap user, step kind s label = .ok { s with heap, user } ∧
      ObjectStep kind s heap user := by
  cases label with
  | newClosure type captures =>
      refine newClosure_objects hbase hcontract.1 ?_
      rw [Multiset.coe_count]
      exact hbacked
  | newBytes => exact newBytes_objects hbase
  | dup addr => exact dup_objects hbase hcontract.2 hbacked
  | walk => exact walk_objects hbase hbacked
  | unpack closure capture => exact unpack_objects hbase hcontract.2.2
  | drop addr =>
      refine drop_objects hbase (by simpa [Label.consumed] using hcontract.1) ?_
      simpa [Label.handleRefs, Multiset.count_singleton, eq_comm] using hbacked
  | _ => cases hlabel

theorem object_preserves (hinv : Inv kind agree counted s)
    (hcounted : counted → kind ≠ .tty) {label : Label}
    (hlabel : label.onObjects)
    (hallowed : Allowed kind agree counted s label) :
    ∃ next, step kind s label = .ok next ∧ Inv kind agree counted next := by
  obtain ⟨heap, user, hstep, hobjects⟩ := object_step hinv.base hlabel
    hallowed.contract (hinv.backed hallowed)
  have hcontrol := hinv.control
  refine ⟨_, hstep, hinv.of_frame hobjects.base
    ⟨hcontrol.plain, hcontrol.stream, hcontrol.apart, hcontrol.stopped,
      hcontrol.allocating, hcontrol.told, hcontrol.calls, hcontrol.turned,
      hcontrol.fresh⟩
    hobjects.frame (fun _ => hobjects.ranked)
    (fun h => hinv.base.noTty (hcounted h)) rfl rfl (fun _ => rfl)
    (fun _ h => h) (fun _ h => h)⟩

end Objects

section Stubs

variable {kind : Kind} {agree counted : Prop} {s : HandleState}

theorem closureType_objAt {addr : Addr} {type : CallbackType}
    (htype : s.closureType addr = some type) :
    ∃ captures, ObjAt s.heap addr (.closure type captures) := by
  cases hcell : s.heap.cell? addr with
  | none => simp [HandleState.closureType, hcell] at htype
  | some cell =>
      obtain ⟨rc, obj⟩ := cell
      cases obj with
      | closure type' captures =>
          simp only [HandleState.closureType, hcell, Option.some.injEq] at htype
          exact ⟨captures, rc, htype ▸ hcell⟩
      | _ => simp [HandleState.closureType, hcell] at htype

theorem isBytes_objAt {addr : Addr} (hbytes : s.isBytes addr) :
    ObjAt s.heap addr .bytes := by
  cases hcell : s.heap.cell? addr with
  | none => simp [HandleState.isBytes, hcell] at hbytes
  | some cell =>
      obtain ⟨rc, obj⟩ := cell
      cases obj with
      | bytes => exact ⟨rc, hcell⟩
      | _ => simp [HandleState.isBytes, hcell] at hbytes

theorem Base.closure_ne (hbase : Base kind s) (hone : s.Backed 1)
    {addr : Addr} {type : CallbackType}
    (htype : s.closureType addr = some type) : handleAddr ≠ addr := by
  obtain ⟨handle, hobj, -⟩ := hbase.handle hone
  obtain ⟨captures, haddr⟩ := closureType_objAt htype
  exact (ObjAt.ne_handleAddr hobj haddr (by intro _ h; cases h)).symm

theorem Base.bytes_ne (hbase : Base kind s) (hone : s.Backed 1) {addr : Addr}
    (hbytes : s.isBytes addr) : handleAddr ≠ addr := by
  obtain ⟨handle, hobj, -⟩ := hbase.handle hone
  exact (ObjAt.ne_handleAddr hobj (isBytes_objAt hbytes)
    (by intro _ h; cases h)).symm

theorem Base.congr (hbase : Base kind s) {s' : HandleState}
    (hheap : s'.heap = s.heap) (huser : s'.user = s.user)
    (hkept : s'.kept = s.kept) (hsaved : s'.saved kind = s.saved kind) :
    Base kind s' where
  balanced := by
    rw [HandleState.own, huser, hkept, hsaved, hheap]
    exact hbase.balanced
  backed := by
    rw [HandleState.Backed, huser, hkept]
    exact hbase.backed
  handles := hheap ▸ hbase.handles
  typed := hheap ▸ hbase.typed
  two_le := hheap ▸ hbase.two_le

@[simp] theorem settle_allocating? (phase : Phase) (watch : Watch) :
    (phase.settle watch).allocating? = phase.allocating? := by
  cases phase <;> simp only [Phase.settle]
  · rfl
  · rfl
  · split <;> rfl

@[simp] theorem settle_idle (watch : Watch) :
    Phase.idle.settle watch = .idle := rfl

@[simp] theorem settle_eq_allocating (phase : Phase) (watch : Watch)
    (data : Addr) :
    phase.settle watch = .allocating data ↔ phase = .allocating data := by
  by_cases hready : phase = .ready ∧ watch.active = none
  · simp [Phase.settle, hready]
  · rw [Phase.settle, if_neg hready]

theorem saved_watched (watch : Watch) :
    (s.watched watch).saved kind = s.saved kind := by
  simp [HandleState.saved, HandleState.watched]

theorem Base.watched (hbase : Base kind s) (watch : Watch) :
    Base kind (s.watched watch) :=
  hbase.congr rfl rfl rfl (saved_watched watch)

theorem Base.closing (hbase : Base kind s) (closeCb : Addr) :
    Base kind (s.closing closeCb) :=
  hbase.congr rfl rfl rfl (by
    simp [HandleState.saved, HandleState.closing])

/-- After a change of objects the invariant holds once the slot is right. -/
theorem Inv.of_change (hinv : Inv kind agree counted s)
    (hcounted : counted → kind ≠ .tty) {s' : HandleState}
    {changed : List Addr} (lost : List Addr) {handle : HandleObj}
    (hbase : Base kind s') (hcontrol : Control kind agree s')
    (hhandle : Live s'.heap handleAddr →
      ObjAt s'.heap handleAddr (.handle handle))
    (hframe : Frame changed lost s.heap s'.heap)
    (hslot : ObjAt s'.heap handleAddr (.handle handle) →
      SlotOk kind agree counted s' handle)
    (hkept : kind.Proper → s'.kept = s'.life.kept)
    (hlost : counted → s'.life ≠ .failed → lost = [] ∧ s.life ≠ .failed)
    (hbytes : ∀ addr ∈ changed, ¬ ObjAt s.heap addr .bytes)
    (hwritten : counted → ∀ addr obj, ObjAt s'.heap addr obj →
      addr ≠ handleAddr → addr ∈ changed ∨ s.heap.cells.length ≤ addr →
        ∀ target ∈ refs obj, target < addr ∨ ObjAt s'.heap target .bytes) :
    Inv kind agree counted s' where
  base := hbase
  control := hcontrol
  slot handle' hobj := by
    have hobj' := hhandle hobj.live
    cases hobj'.unique hobj
    exact hslot hobj'
  kept := hkept
  lost h hfailed := by
    obtain ⟨hnil, hwas⟩ := hlost h hfailed
    rw [hframe.lost_eq (hinv.base.noTty (hcounted h)), hinv.lost h hwas,
      hnil]
    rfl
  ranked h :=
    (hinv.ranked h).of_frame hframe hbase.balanced hbytes (hwritten h)

theorem Base.handle_not_bytes (hbase : Base kind s) :
    ¬ ObjAt s.heap handleAddr .bytes := by
  intro hbytes
  obtain ⟨handle, hhandle⟩ := hbase.typed _ hbytes
  cases hhandle

/-- After a slot write the invariant holds once the new contents are right. -/
theorem Inv.of_write (hinv : Inv kind agree counted s)
    (hcounted : counted → kind ≠ .tty) {s' : HandleState} (lost : List Addr)
    (handle : HandleObj)
    (hbase : Base kind s') (hcontrol : Control kind agree s')
    (hhandle : Live s'.heap handleAddr →
      ObjAt s'.heap handleAddr (.handle handle))
    (hframe : Frame [handleAddr] lost s.heap s'.heap)
    (hslot : ObjAt s'.heap handleAddr (.handle handle) →
      SlotOk kind agree counted s' handle)
    (hkept : kind.Proper → s'.kept = s'.life.kept)
    (hlost : counted → s'.life ≠ .failed → lost = [] ∧ s.life ≠ .failed)
    (hnew : counted → ∀ addr obj, s.heap.cells.length ≤ addr →
      ObjAt s'.heap addr obj → ∀ target ∈ refs obj,
        target < addr ∨ ObjAt s'.heap target .bytes) :
    Inv kind agree counted s' := by
  refine hinv.of_change hcounted lost hbase hcontrol hhandle hframe hslot
    hkept hlost ?_ ?_
  · intro addr hmem
    rw [List.mem_singleton] at hmem
    subst hmem
    exact hinv.base.handle_not_bytes
  · intro h addr obj hobj hne hwas
    rcases hwas with hmem | hle
    · exact absurd (List.mem_singleton.mp hmem) hne
    · exact hnew h addr obj hle hobj

/-- A closure that a slot write has stored keeps its type. -/
theorem Frame.closure {lost : List Addr} {s' : HandleState}
    {handle : HandleObj} {addr : Addr} {obj : Obj}
    (hframe : Frame [handleAddr] lost s.heap s'.heap) (hbase : Base kind s')
    (hobj : ObjAt s'.heap handleAddr (.handle handle))
    (hdata : handle.data = some addr) (hold : ObjAt s.heap addr obj)
    (hne : handleAddr ≠ addr) : ObjAt s'.heap addr obj :=
  hframe.keeps.objAt hold (by simpa using Ne.symm hne)
    (hbase.data_live hobj hdata)

/-- Nothing is asked of a watch that is not active. -/
theorem forall_active_of_none {watch : Watch} {holds : Start → Prop}
    (hnone : watch.active = none) :
    ∀ start, watch.active = some start → holds start := by
  intro start hstart
  rw [hnone] at hstart
  cases hstart

/-- The data a stream's alloc trampoline remembers survives a slot write. -/
theorem SlotOk.allocating_write {lost : List Addr} {s' : HandleState}
    {handle handle' : HandleObj} (hok : SlotOk kind agree counted s handle)
    (hold : ObjAt s.heap handleAddr (.handle handle))
    (hframe : Frame [handleAddr] lost s.heap s'.heap) (hbase : Base kind s')
    (hobj : ObjAt s'.heap handleAddr (.handle handle'))
    (hudp : kind = .udp → s.phase.allocating? = none)
    (hphase : ∀ data, s'.phase = .allocating data →
      s.phase = .allocating data)
    (hactive : agree → s.phase.allocating?.isSome → ∀ start,
      s'.watch.active = some start → s.watch.active = some start) :
    ∀ data, s'.phase = .allocating data →
      ∃ type receive, kind.receiver = some type ∧
        ObjAt s'.heap data (.receiver type receive) ∧ receive.bytes = none ∧
        (type = .udp → handle'.data = some data) ∧
        (agree → ∀ start, s'.watch.active = some start →
          start.callbacks = [receive.allocCb, receive.readCb]) := by
  intro data hdata
  have hwas := hphase data hdata
  obtain ⟨type, receive, hkind, hreceive, hbytes, -, hagree⟩ :=
    hok.allocating data hwas
  have htype : type = .stream := by
    cases type with
    | stream => rfl
    | udp =>
        have hudp' : kind = .udp := by
          cases kind <;> simp_all [Kind.receiver]
        simp [hwas, Phase.allocating?] at hudp
        exact absurd hudp' hudp
  subst htype
  have hne := ObjAt.ne_handleAddr hold hreceive (by intro _ h; cases h)
  refine ⟨.stream, receive, hkind, ?_, hbytes, (by intro h; cases h), ?_⟩
  · exact hframe.keeps.objAt hreceive (by simpa using hne)
      (hbase.allocating_live hobj hdata hkind (by intro h; cases h))
  · intro h start hstart
    exact hagree h start
      (hactive h (by simp [hwas, Phase.allocating?]) start hstart)

end Stubs

end UvMbt
