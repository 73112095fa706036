/-
The user's alloc callback runs inside a trampoline and may call any operation
on the handle.  What it did is still in force after the trampoline has written
its buffer exactly when it left alone what the trampoline goes on to use.
-/
import UvMbt.Registration

set_option autoImplicit false

namespace UvMbt

open RefHeap HandleState GuardedRun

/-- The operations that write the slot. -/
def Label.writesSlot : Label → Bool
  | .receiveStart _ _ _ _ | .receiveStop _ | .close _ => true
  | _ => false

/-- What the user's alloc callback can do with the handle. -/
def Label.inAlloc (label : Label) : Bool :=
  label.onObjects || label.writesSlot

section Survival

variable (kind : Kind)

/-- The slot holds what is in force: the close callback of a handle that
closes, the callbacks of the active start, and nothing once it has stopped. -/
def InForce (s : HandleState) : Prop :=
  match s.life.closing?, s.watch.active with
  | some closeCb, _ => s.slot = some closeCb
  | none, some start => ∃ data type receive, s.slot = some data ∧
      kind.receiver = some type ∧
      ObjAt s.heap data (.receiver type receive) ∧
      start.callbacks = [receive.allocCb, receive.readCb]
  | none, none => s.slot = none

/-- The alloc trampoline returns well: somebody still owns the data it writes
its buffer to, and what was in force before is so afterwards. -/
structure Survives (mid : HandleState) (buffer : Addr) : Prop where
  owned : ∀ data, mid.phase = .allocating data →
    data ∈ mid.saved kind ∨ mid.slot = some data
  inForce : ∃ next, step kind mid (.allocLeave buffer) = .ok next ∧
    InForce kind next

/-- The alloc callback of a stream leaves libuv reading with the same
callbacks; that of a UDP handle does not start, stop or close. -/
def Undisturbed (ops : List Label) (before mid : HandleState) : Prop :=
  match kind.receiver with
  | some .stream => mid.life.closing? = none ∧ mid.watch.active.isSome ∧
      mid.watch.callbacks = before.watch.callbacks
  | some .udp => ∀ op ∈ ops, op.writesSlot = false
  | none => True

/-- What can happen next. -/
def Offered (s : HandleState) (label : Label) : Prop :=
  Contract kind s label ∧ BackedRule kind s label

instance (s : HandleState) : DecidablePred (Offered kind s) := fun _ =>
  inferInstanceAs (Decidable (_ ∧ _))

end Survival

/-- While the user's alloc callback runs: the data that the trampoline
remembers is not written, wherever the slot has gone. -/
structure During (kind : Kind) (callbacks : List Addr) (data : Addr)
    (s : HandleState) : Prop where
  base : Base kind s
  phase : s.phase = .allocating data
  kept : kind.Proper → s.kept = 1
  data_lt : data < s.heap.cells.length
  data_ne : data ≠ handleAddr
  receiver : ∀ obj, ObjAt s.heap data obj → ∃ type receive,
    obj = .receiver type receive ∧ kind.receiver = some type ∧
      callbacks = [receive.allocCb, receive.readCb]
  life : s.life = .opened ∨
    ∃ closeCb, s.life = .closing closeCb ∧ closeCb ≠ data

section During

variable {kind : Kind} {callbacks : List Addr} {data : Addr}
  {s : HandleState}

theorem During.backed (hduring : During kind callbacks data s) {label : Label}
    (hoffered : Offered kind s label) :
    s.Backed (label.handleRefs kind) := by
  obtain ⟨⟨hle, -⟩, hrule⟩ := hoffered
  by_cases hproper : kind.Proper
  · have hkept := hduring.kept hproper
    have hcount := Multiset.count_le_of_le handleAddr hle
    rw [Multiset.coe_count] at hcount
    rw [HandleState.Backed]
    rcases handleRefs_le hproper label with hrefs | ⟨-, hrefs⟩ | ⟨b, rfl⟩
    · omega
    · omega
    · simp only [Label.handleRefs]
      omega
  · exact hrule hproper

/-- What operations did to the slot, as far as the remembered data goes. -/
structure Tracks (kind : Kind) (data : Addr) (ops : List Label)
    (s next : HandleState) : Prop where
  slot : next.slot = some data →
    (∀ op ∈ ops, op.writesSlot = false) ∧ s.slot = some data
  same : (∀ op ∈ ops, op.writesSlot = false) → next.life = s.life ∧
    next.watch = s.watch ∧ (kind.Proper → next.slot = s.slot)

theorem Tracks.cons {op : Label} {ops : List Label} {next last : HandleState}
    (hfirst : Tracks kind data [op] s next)
    (hrest : Tracks kind data ops next last) :
    Tracks kind data (op :: ops) s last where
  slot hdata := by
    obtain ⟨hops, hnext⟩ := hrest.slot hdata
    obtain ⟨hop, hs⟩ := hfirst.slot hnext
    refine ⟨?_, hs⟩
    intro other hmem
    rcases List.mem_cons.mp hmem with rfl | hmem
    · exact hop _ (List.mem_singleton_self _)
    · exact hops other hmem
  same hops := by
    obtain ⟨hlife, hwatch, hslot⟩ :=
      hrest.same (fun other hmem => hops other (List.mem_cons_of_mem _ hmem))
    obtain ⟨hlife', hwatch', hslot'⟩ := hfirst.same (fun other hmem => by
      rw [List.mem_singleton.mp hmem]
      exact hops op List.mem_cons_self)
    exact ⟨hlife.trans hlife', hwatch.trans hwatch',
      fun hproper => (hslot hproper).trans (hslot' hproper)⟩

theorem Tracks.of_write {op : Label} {next : HandleState}
    (hwrites : op.writesSlot) (hslot : next.slot ≠ some data) :
    Tracks kind data [op] s next where
  slot hdata := absurd hdata hslot
  same hops := by
    rw [hops op (List.mem_singleton_self op)] at hwrites
    cases hwrites

/-- A frame that writes the handle alone leaves the remembered data alone. -/
theorem During.of_frame (hduring : During kind callbacks data s)
    {next : HandleState} {changed lost : List Addr} (hbase : Base kind next)
    (hphase : next.phase = .allocating data)
    (hkept : kind.Proper → next.kept = s.kept)
    (hframe : Frame changed lost s.heap next.heap)
    (hchanged : changed ⊆ [handleAddr])
    (hlife : next.life = .opened ∨
      ∃ closeCb, next.life = .closing closeCb ∧ closeCb ≠ data) :
    During kind callbacks data next where
  base := hbase
  phase := hphase
  kept hproper := (hkept hproper).trans (hduring.kept hproper)
  data_lt := Nat.lt_of_lt_of_le hduring.data_lt hframe.keeps.length_le
  data_ne := hduring.data_ne
  receiver obj hobj := by
    refine hduring.receiver obj (hframe.keeps.objAt_old data obj
      hduring.data_lt ?_ hobj)
    intro hmem
    exact hduring.data_ne (List.mem_singleton.mp (hchanged hmem))
  life := hlife

theorem HandleState.slot_eq_none (hdead : ¬ Live s.heap handleAddr) :
    s.slot = none := by
  rw [HandleState.slot]
  cases hcell : s.heap.cell? handleAddr with
  | none => rfl
  | some cell => exact absurd ⟨cell.obj, cell.rc, hcell⟩ hdead

/-- After a slot write the slot holds the new contents or the handle is
gone. -/
theorem slot_of_write {heap : Heap Obj} {handle : HandleObj}
    (hheap : s.heap = heap)
    (hhandle : Live heap handleAddr →
      ObjAt heap handleAddr (.handle handle)) (hdata : s.slot = some data) :
    handle.data = some data := by
  subst hheap
  by_cases hlive : Live s.heap handleAddr
  · rw [← HandleState.slot_eq (hhandle hlive)]
    exact hdata
  · rw [HandleState.slot_eq_none hlive] at hdata
    cases hdata

theorem During.object (hduring : During kind callbacks data s) {op : Label}
    (hop : op.onObjects) (hwrites : op.writesSlot = false)
    (hoffered : Offered kind s op) :
    ∃ next, step kind s op = .ok next ∧ During kind callbacks data next ∧
      Tracks kind data [op] s next := by
  obtain ⟨heap, user, hstep, hobjects⟩ := object_step hduring.base hop
    hoffered.1 (hduring.backed hoffered)
  -- no step on objects writes the handle
  have hslot : Live heap handleAddr →
      ({ s with heap, user } : HandleState).slot = s.slot := by
    rintro ⟨obj, hobj⟩
    obtain ⟨handle, rfl⟩ := hobjects.base.typed obj hobj
    have hold := hobjects.frame.keeps.objAt_old _ _ hduring.base.handleAddr_lt
      (by simp) hobj
    rw [HandleState.slot_eq hobj, HandleState.slot_eq hold]
  refine ⟨_, hstep, hduring.of_frame hobjects.base hduring.phase
    (fun _ => rfl) hobjects.frame (List.nil_subset _) hduring.life, ?_, ?_⟩
  · intro hdata
    refine ⟨fun other hmem => by rwa [List.mem_singleton.mp hmem], ?_⟩
    by_cases hlive : Live heap handleAddr
    · rw [← hslot hlive]
      exact hdata
    · rw [HandleState.slot_eq_none hlive] at hdata
      cases hdata
  · intro _
    refine ⟨rfl, rfl, fun hproper => hslot ?_⟩
    have hkept : s.kept = 1 := hduring.kept hproper
    obtain ⟨handle, hobj, -⟩ := hobjects.base.handle (by
      simp only [HandleState.Backed]
      omega)
    exact hobj.live

theorem During.receiveStart (hduring : During kind callbacks data s)
    {param : Nat} {allocCb readCb : Addr} {answer : Answer}
    (hoffered : Offered kind s (.receiveStart param allocCb readCb answer)) :
    ∃ next, step kind s (.receiveStart param allocCb readCb answer) =
        .ok next ∧
      During kind callbacks data next ∧
      Tracks kind data [.receiveStart param allocCb readCb answer] s next := by
  obtain ⟨-, -, hkind, -⟩ := id hoffered.1
  obtain ⟨type, hreceiver⟩ := Option.isSome_iff_exists.mp hkind
  obtain ⟨heap, handle, hobj, hstep, hbase, hhandle, hframe, -⟩ :=
    hduring.base.receiveStart hreceiver (hduring.backed hoffered) hoffered.1
  refine ⟨_, hstep, hduring.of_frame (hbase.watched _)
    ((settle_eq_allocating _ _ _).mpr hduring.phase) ?_ hframe
    (List.Subset.refl _) hduring.life, .of_write rfl ?_⟩
  · intro _
    simp [HandleState.watched, HandleState.afterStub]
  · intro hdata
    -- the new receiver data is younger than the remembered one
    have hnew := slot_of_write rfl hhandle hdata
    cases hnew
    exact absurd hduring.data_lt (Nat.lt_irrefl _)

theorem During.receiveStop (hduring : During kind callbacks data s)
    {accepted : Bool} (hoffered : Offered kind s (.receiveStop accepted)) :
    ∃ next, step kind s (.receiveStop accepted) = .ok next ∧
      During kind callbacks data next ∧
      Tracks kind data [.receiveStop accepted] s next := by
  obtain ⟨hle, -, hkind, -⟩ := id hoffered.1
  have hone : s.Backed 1 := hduring.backed hoffered
  obtain ⟨heap, handle, hobj, hrun, hbase, hhandle, hframe, -⟩ :=
    hduring.base.stub hle (.set none) [handleAddr] 0 1
      (by simp [Label.consumed, SlotWrite.moved]) (by simp)
      (by simp [SlotWrite.moved]) hone hone
  refine ⟨_, ?_, hduring.of_frame (hbase.watched (s.watch.stop accepted))
    ((settle_eq_allocating _ _ _).mpr hduring.phase) ?_ hframe
    (List.Subset.refl _) hduring.life, .of_write rfl ?_⟩
  · simp [step, receiveStopOf_eq s.heap hkind, hrun, bind, Except.bind, pure,
      Except.pure]
  · intro _
    simp [HandleState.watched, HandleState.afterStub]
  · intro hdata
    have hnew := slot_of_write rfl hhandle hdata
    cases hnew

theorem During.close (hduring : During kind callbacks data s) {closeCb : Addr}
    (hoffered : Offered kind s (.close closeCb)) :
    ∃ next, step kind s (.close closeCb) = .ok next ∧
      During kind callbacks data next ∧
      Tracks kind data [.close closeCb] s next := by
  obtain ⟨hle, hlife, htype⟩ := id hoffered.1
  have hone : s.Backed 1 := hduring.backed hoffered
  have hne := hduring.base.closure_ne hone htype
  obtain ⟨captures, hcb⟩ := closureType_objAt htype
  have hcb_ne : closeCb ≠ data := by
    rintro rfl
    obtain ⟨type, receive, hobj, -⟩ := hduring.receiver _ hcb
    cases hobj
  obtain ⟨heap, handle, hobj, hrun, hbase, hhandle, hframe, -⟩ :=
    hduring.base.stub hle (.set (some closeCb)) [handleAddr] 0 1
      (by simp [Label.consumed, SlotWrite.moved, ← Multiset.cons_coe])
      (by simp) (by simp [SlotWrite.moved, hne]) hone hone
  refine ⟨_, ?_, hduring.of_frame (hbase.closing closeCb)
    ((settle_eq_allocating _ _ _).mpr hduring.phase) ?_ hframe
    (List.Subset.refl _) (Or.inr ⟨closeCb, rfl, hcb_ne⟩), .of_write rfl ?_⟩
  · simp [step, UvMbt.close, hrun, bind, Except.bind, pure, Except.pure]
  · intro _
    simp [HandleState.closing, HandleState.afterStub]
  · intro hdata
    have hnew := slot_of_write rfl hhandle hdata
    cases hnew
    exact absurd rfl hcb_ne

/-- One operation of the user's alloc callback. -/
theorem During.op (hduring : During kind callbacks data s) {op : Label}
    (hop : op.inAlloc) (hoffered : Offered kind s op) :
    ∃ next, step kind s op = .ok next ∧ During kind callbacks data next ∧
      Tracks kind data [op] s next := by
  cases op with
  | receiveStart param allocCb readCb answer =>
      exact hduring.receiveStart hoffered
  | receiveStop accepted => exact hduring.receiveStop hoffered
  | close closeCb => exact hduring.close hoffered
  | newClosure _ _ | newBytes | dup _ | drop _ | walk | unpack _ _ =>
      exact hduring.object rfl rfl hoffered
  | _ => cases hop

/-- All that the user's alloc callback does. -/
theorem During.ops {ops rest : List Label}
    (hduring : During kind callbacks data s)
    (hops : ∀ op ∈ ops, op.inAlloc)
    (hadmissible : Admissible (Offered kind) (step kind) s
      (ops ++ rest)) :
    ∃ mid, run (step kind) s ops = .ok mid ∧
      During kind callbacks data mid ∧ Tracks kind data ops s mid ∧
      Admissible (Offered kind) (step kind) mid rest := by
  induction ops generalizing s with
  | nil =>
      refine ⟨s, rfl, hduring, ⟨?_, ?_⟩, hadmissible⟩
      · exact fun hdata => ⟨List.forall_mem_nil _, hdata⟩
      · exact fun _ => ⟨rfl, rfl, fun _ => rfl⟩
  | cons op ops ih =>
      obtain ⟨hoffered, hrest⟩ := hadmissible
      obtain ⟨next, hstep, hnext, htracks⟩ :=
        hduring.op (hops op List.mem_cons_self) hoffered
      rw [hstep] at hrest
      obtain ⟨mid, hrun, hmid, htracks', hadmissible'⟩ := ih hnext
        (fun other hmem => hops other (List.mem_cons_of_mem _ hmem)) hrest
      refine ⟨mid, ?_, hmid, htracks.cons htracks', hadmissible'⟩
      simp only [GuardedRun.run, hstep, hrun]

/-- The alloc trampoline is entered. -/
theorem Inv.enter (hinv : Inv kind True False s) {type : ReceiverType}
    (hkind : kind.receiver = some type)
    (hoffered : Offered kind s .allocEnter) :
    ∃ data next, step kind s .allocEnter = .ok next ∧
      During kind s.watch.callbacks data next ∧ next.life = .opened ∧
      next.watch = s.watch ∧ (type = .udp → next.slot = some data) := by
  have hallowed : Allowed kind True False s .allocEnter :=
    ⟨hoffered.1, hoffered.2, trivial, fun _ => trivial, False.elim⟩
  have hone : s.Backed 1 := hinv.backed hallowed
  obtain ⟨-, hlife, -, hactive, -⟩ := hoffered.1
  obtain ⟨start, hstart⟩ := Option.isSome_iff_exists.mp hactive
  obtain ⟨next, hstep, hnext⟩ :=
    allocEnter_preserves hinv False.elim hallowed
  obtain ⟨data, hphase, hlife', hwatch, hone'⟩ : ∃ data,
      next.phase = .allocating data ∧ next.life = s.life ∧
        next.watch = s.watch ∧ next.Backed 1 := by
    have hrun := hstep
    simp only [step, hkind] at hrun
    obtain ⟨result, -, hresult⟩ := bind_eq_ok hrun
    cases hresult
    refine ⟨result.2.1, rfl, rfl, rfl, ?_⟩
    simp only [HandleState.Backed, HandleState.afterCall,
      Multiset.count_add] at hone ⊢
    omega
  obtain ⟨handle, hobj, -⟩ := hnext.base.handle hone'
  obtain ⟨type', receive, hkind', hreceive, -, hudp, hagree⟩ :=
    (hnext.slot handle hobj).allocating data hphase
  rw [hkind] at hkind'
  cases hkind'
  refine ⟨data, next, hstep, ⟨hnext.base, hphase, ?_, hreceive.lt_length,
    ObjAt.ne_handleAddr hobj hreceive (by intro _ h; cases h), ?_,
    Or.inl (hlife'.trans hlife)⟩, hlife'.trans hlife, hwatch, ?_⟩
  · intro hproper
    rw [hnext.kept hproper, hlife', hlife]
    rfl
  · intro obj hdata
    refine ⟨type, receive, hdata.unique hreceive, hkind, ?_⟩
    rw [Watch.callbacks_of_active hstart]
    exact hagree trivial start (hwatch ▸ hstart)
  · intro htype
    rw [HandleState.slot_eq hobj, hudp htype]

theorem objAt_of_slot (hslot : s.slot = some data) :
    ∃ handle, ObjAt s.heap handleAddr (.handle handle) ∧
      handle.data = some data := by
  rw [HandleState.slot] at hslot
  cases hcell : s.heap.cell? handleAddr with
  | none => simp [hcell] at hslot
  | some cell =>
      obtain ⟨rc, obj⟩ := cell
      cases obj with
      | handle handle => exact ⟨handle, ⟨rc, hcell⟩, by simpa [hcell] using hslot⟩
      | _ => simp [hcell] at hslot

/-- What the trampoline leaves: the remembered data in the slot. -/
structure Returned (kind : Kind) (callbacks : List Addr) (data : Addr)
    (mid next : HandleState) : Prop where
  life : next.life = mid.life
  watch : next.watch = mid.watch
  slot : next.slot = some data
  data : ∃ type receive, kind.receiver = some type ∧
    ObjAt next.heap data (.receiver type receive) ∧
    callbacks = [receive.allocCb, receive.readCb]

/-- The buffer goes to the trampoline, and the handle keeps its reference. -/
theorem During.own_leave {type : ReceiverType} {buffer : Addr}
    (hduring : During kind callbacks data s)
    (hkind : kind.receiver = some type)
    (hoffered : Offered kind s (.allocLeave buffer)) :
    s.own kind = buffer ::ₘ (↑(savedData type data) +
        (s.left s.heap buffer).own kind) ∧
      (s.left s.heap buffer).Backed 1 := by
  obtain ⟨hle, -, -, hbytes⟩ := id hoffered.1
  have hone : s.Backed 1 := hduring.backed hoffered
  have hle' : {buffer} ≤ s.user := by simpa [Label.consumed] using hle
  exact own_allocLeave hkind hduring.phase hle' hone s.heap
    (.afterAlloc s.watch) (afterAlloc_allocating? _)
    (Ne.symm (hduring.base.bytes_ne hone hbytes))

/-- A stream's trampoline puts the data back, whatever happened. -/
theorem During.leave_stream (hduring : During kind callbacks data s)
    (hkind : kind.receiver = some .stream) {buffer : Addr}
    (hoffered : Offered kind s (.allocLeave buffer)) :
    ∃ next, step kind s (.allocLeave buffer) = .ok next ∧
      Returned kind callbacks data s next := by
  obtain ⟨handle, hobj, -⟩ := hduring.base.handle (hduring.backed hoffered)
  have hsaved : data ∈ s.own kind := by
    simp [HandleState.own, HandleState.saved, hkind, hduring.phase,
      Phase.allocating?, savedData]
  obtain ⟨obj, hdata⟩ := hduring.base.balanced.live hsaved
  obtain ⟨type, receive, rfl, hkind', hcallbacks⟩ :=
    hduring.receiver obj hdata
  rw [hkind] at hkind'
  cases hkind'
  obtain ⟨hown, hone'⟩ := hduring.own_leave hkind hoffered
  obtain ⟨heap, hrun, -, hobj', hdata', -⟩ :=
    allocCbLeave_stream_spec (hduring.base.balanced.congr hown) hobj hdata
      (mem_own kind hone')
  refine ⟨_, step_allocLeave hkind hduring.phase hrun, rfl, rfl, ?_, .stream, _, hkind,
    hdata', hcallbacks⟩
  exact HandleState.slot_eq (s := s.left heap buffer) hobj'

/-- A UDP trampoline finds its data as long as the slot still holds it. -/
theorem During.leave_udp (hduring : During kind callbacks data s)
    (hkind : kind.receiver = some .udp) (hslot : s.slot = some data)
    {buffer : Addr} (hoffered : Offered kind s (.allocLeave buffer)) :
    ∃ next, step kind s (.allocLeave buffer) = .ok next ∧
      Returned kind callbacks data s next := by
  obtain ⟨handle, hobj, hheld⟩ := objAt_of_slot hslot
  obtain ⟨obj, hdata⟩ := hduring.base.data_live hobj hheld
  obtain ⟨type, receive, rfl, hkind', hcallbacks⟩ :=
    hduring.receiver obj hdata
  rw [hkind] at hkind'
  cases hkind'
  obtain ⟨hown, -⟩ := hduring.own_leave hkind hoffered
  obtain ⟨heap, hrun, -, hdata', -, hsame, -⟩ :=
    allocCbLeave_udp_spec (hduring.base.balanced.congr hown) hdata
  refine ⟨_, step_allocLeave hkind hduring.phase hrun, rfl, rfl, ?_, .udp, _, hkind,
    hdata', hcallbacks⟩
  rw [← hheld]
  exact HandleState.slot_eq (s := s.left heap buffer)
    (hsame _ _ (Ne.symm hduring.data_ne) hobj)

/-- With the remembered data in the slot, what is in force is that libuv is
reading with its callbacks. -/
theorem Returned.inForce_iff {next : HandleState}
    (hreturned : Returned kind callbacks data s next)
    (hlife : s.life = .opened ∨
      ∃ closeCb, s.life = .closing closeCb ∧ closeCb ≠ data) :
    InForce kind next ↔ s.life.closing? = none ∧ s.watch.active.isSome ∧
      s.watch.callbacks = callbacks := by
  obtain ⟨type, receive, hkind, hdata, hcallbacks⟩ := hreturned.data
  rw [InForce, hreturned.life, hreturned.watch, hreturned.slot]
  rcases hlife with hopened | ⟨closeCb, hclosing, hne⟩
  · cases hactive : s.watch.active with
    | none => simp [hopened, Life.closing?]
    | some start =>
        simp only [hopened, Life.closing?, Option.isSome_some, true_and,
          Watch.callbacks_of_active hactive]
        constructor
        · rintro ⟨data', type', receive', hslot, -, hdata', hstart⟩
          cases hslot
          cases hdata.unique hdata'
          exact hstart.trans hcallbacks.symm
        · intro hstart
          exact ⟨data, type, receive, rfl, hkind, hdata,
            hstart.trans hcallbacks⟩
  · simp [hclosing, Life.closing?, Ne.symm hne]

end During

section Main

variable {kind : Kind} {s mid : HandleState} {data : Addr}

theorem survives_iff_of_returned {callbacks : List Addr} {buffer : Addr}
    (hduring : During kind callbacks data mid)
    (howned : data ∈ mid.saved kind ∨ mid.slot = some data)
    {next : HandleState}
    (hleave : step kind mid (.allocLeave buffer) = .ok next)
    (hreturned : Returned kind callbacks data mid next) :
    Survives kind mid buffer ↔ mid.life.closing? = none ∧
      mid.watch.active.isSome ∧ mid.watch.callbacks = callbacks := by
  rw [← hreturned.inForce_iff hduring.life]
  constructor
  · rintro ⟨-, other, hstep, hforce⟩
    rw [hleave] at hstep
    cases hstep
    exact hforce
  · intro hforce
    refine ⟨?_, next, hleave, hforce⟩
    intro data' hphase
    rw [hduring.phase] at hphase
    cases hphase
    exact howned

/-- In a reading state of any run that keeps to the rules: whatever the user's
alloc callback does, it ends, and its effect survives the return of the
trampoline exactly when it left the trampoline's data alone. -/
theorem alloc_return_survives_iff {kind : Kind} {type : ReceiverType}
    (hkind : kind.receiver = some type) {labels : List Label}
    (ops : List Label) (buffer : Addr) {s : HandleState}
    (hlabels : Admissible (AgreeAllowed kind) (step kind)
      (HandleState.initial kind) labels)
    (hrun : run (step kind) (HandleState.initial kind) labels = .ok s)
    (hops : ∀ op ∈ ops, op.inAlloc)
    (hadmissible : Admissible (Offered kind) (step kind) s
      (.allocEnter :: (ops ++ [.allocLeave buffer]))) :
    ∃ mid, run (step kind) s (.allocEnter :: ops) = .ok mid ∧
      (Survives kind mid buffer ↔ Undisturbed kind ops s mid) := by
  have hsettles := run_settles
    (fun state label hinv (hallowed : AgreeAllowed kind state label) =>
      step_settles False.elim label hinv hallowed.allowed)
    (initial_inv kind True False) hlabels
  rw [hrun] at hsettles
  have hinv : Inv kind True False s := hsettles
  obtain ⟨hoffered, hrest⟩ := hadmissible
  obtain ⟨data, next, hstep, hduring, hlife, hwatch, hudp⟩ :=
    hinv.enter hkind hoffered
  rw [hstep] at hrest
  obtain ⟨mid, hmid, hduring', htracks, hleave, -⟩ :=
    hduring.ops hops hrest
  refine ⟨mid, by simp only [run, hstep, hmid], ?_⟩
  cases type with
  | stream =>
      obtain ⟨last, hlast, hreturned⟩ := hduring'.leave_stream hkind hleave
      rw [Undisturbed, hkind]
      refine survives_iff_of_returned hduring' (Or.inl ?_) hlast hreturned
      simp [HandleState.saved, hkind, hduring'.phase, Phase.allocating?,
        savedData]
  | udp =>
      have hproper : kind.Proper := by
        cases kind <;> first | decide | cases hkind
      rw [Undisturbed, hkind]
      constructor
      · rintro ⟨howned, -⟩
        refine (htracks.slot ((howned data hduring'.phase).resolve_left ?_)).1
        simp [HandleState.saved, hkind, hduring'.phase, Phase.allocating?,
          savedData]
      · intro hquiet
        obtain ⟨hlife', hwatch', hslot⟩ := htracks.same hquiet
        have hheld := (hslot hproper).trans (hudp rfl)
        obtain ⟨last, hlast, hreturned⟩ :=
          hduring'.leave_udp hkind hheld hleave
        refine (survives_iff_of_returned hduring' (Or.inr hheld) hlast
          hreturned).mpr ⟨?_, ?_, ?_⟩
        · rw [hlife', hlife]
          rfl
        · rw [hwatch', hwatch]
          exact hoffered.1.2.2.2.1
        · rw [hwatch', hwatch]

end Main

section Runs

/-- A connection that reads. -/
def reading : List Label :=
  [.dup loopAddr, .dup handleAddr, .init none true, .newClosure .alloc [],
    .newClosure .read [], .dup handleAddr, .receiveStart 0 2 3 .accepted]

/-- An alloc callback that only makes a buffer. -/
theorem alloc_return_survives_newBytes :
    ∃ s mid, run (step .tcp) (HandleState.initial .tcp) reading = .ok s ∧
      run (step .tcp) s [.allocEnter, .newBytes] = .ok mid ∧
      Survives .tcp mid 5 := by
  have hreading : Admissible (AgreeAllowed .tcp) (step .tcp)
      (HandleState.initial .tcp) reading := by decide
  obtain ⟨mid, hmid, hiff⟩ :=
    alloc_return_survives_iff rfl [.newBytes] 5 hreading rfl (by decide)
      (by decide)
  refine ⟨_, mid, rfl, hmid, hiff.mpr ?_⟩
  cases hmid
  exact ⟨rfl, rfl, rfl⟩

/-- An alloc callback that closes the stream. -/
def closeInAlloc : List Label :=
  [.allocEnter, .newClosure .close [], .dup handleAddr, .close 5, .newBytes,
    .allocLeave 6]

/-- A UDP handle that receives, and an alloc callback that stops it. -/
def stopInAlloc : List Label :=
  [.dup loopAddr, .dup handleAddr, .init none true, .newClosure .alloc [],
    .newClosure .udpRecv [], .dup handleAddr, .receiveStart 0 2 3 .accepted,
    .allocEnter, .dup handleAddr, .receiveStop true, .newBytes]

/-- The trampoline of the stream puts the old data over the close callback,
that of the UDP handle writes to data that was released. -/
theorem alloc_return_disturbed :
    (Admissible (Offered .tcp) (step .tcp) (HandleState.initial .tcp)
        (reading ++ closeInAlloc ++ [.closed]) ∧
      run (step .tcp) (HandleState.initial .tcp)
        (reading ++ closeInAlloc ++ [.closed]) = .error .typeConfusion) ∧
    Admissible (Offered .udp) (step .udp) (HandleState.initial .udp)
        (stopInAlloc ++ [.allocLeave 5]) ∧
      run (step .udp) (HandleState.initial .udp)
        (stopInAlloc ++ [.allocLeave 5]) = .error .useAfterFree := by
  decide

end Runs

end UvMbt
