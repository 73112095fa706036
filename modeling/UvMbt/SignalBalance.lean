/-
The references of a signal handle, whose stubs have a scheme of their own: init
releases the handle, start keeps it and stop releases it twice.  No call of the
signal API closes the handle, so libuv links it for good.
-/
import UvMbt.LoopReference
import UvMbt.RefGraph

set_option autoImplicit false

namespace UvMbt

open RefHeap HandleState GuardedRun

section Keeping

variable {heap next : Heap Obj}

theorem decrefAll_keeps {released : List Addr}
    (hrun : decrefAll heap released = .ok next) : Keeps [] heap next := by
  induction released generalizing heap with
  | nil =>
      cases hrun
      exact Keeps.refl _ _
  | cons addr rest ih =>
      rcases bind_eq_ok hrun with ⟨middle, hdecref, hrest⟩
      exact (decref_keeps hdecref).1.trans (ih hrest)

theorem handleSetData_keeps {data : Option Addr}
    (hrun : handleSetData heap data = .ok next) :
    Keeps [handleAddr] heap next := by
  rcases bind_eq_ok hrun with ⟨handle, -, hrun⟩
  rcases bind_eq_ok hrun with ⟨middle, hdecref, hput⟩
  exact ((decrefAll_keeps hdecref).mono (List.nil_subset _)).trans
    (put_keeps hput)

theorem uvInit_keeps {accepted : Bool}
    (hrun : uvInit heap accepted = .ok next) :
    Keeps [handleAddr] heap next := by
  cases accepted with
  | false =>
      cases hrun
      exact Keeps.refl _ _
  | true =>
      rcases bind_eq_ok hrun with ⟨handle, -, hput⟩
      exact put_keeps hput

theorem signalStop_keeps (hrun : signalStop heap = .ok next) :
    Keeps [handleAddr] heap next := by
  rcases bind_eq_ok hrun with ⟨middle, hset, hdecref⟩
  exact (handleSetData_keeps hset).trans
    ((decrefAll_keeps hdecref).mono (List.nil_subset _))

theorem signalInit_keeps {accepted : Bool}
    (hrun : signalInit heap accepted = .ok next) :
    Keeps [handleAddr] heap next := by
  rcases bind_eq_ok hrun with ⟨middle, hkeep, hrun⟩
  cases hkeep
  rcases bind_eq_ok hrun with ⟨middle, hinit, hdecref⟩
  exact (uvInit_keeps hinit).trans
    ((decrefAll_keeps hdecref).mono (List.nil_subset _))

end Keeping

namespace SignalBalance

section Statement

variable (s : HandleState)

/-- `uv_loop_close` answers `UV_EBUSY` while a handle is linked. -/
def LoopCloses : Prop := s.life.registered = 0

/-- Every start is stopped, and no reference of the program is left. -/
def GivenUp : Prop :=
  s.kept = 0 ∧ s.user.count handleAddr = 0 ∧
    s.heap.edges.count handleAddr = 0

instance : Decidable (LoopCloses s) := inferInstanceAs (Decidable (_ = _))

instance : Decidable (GivenUp s) := inferInstanceAs (Decidable (_ ∧ _ ∧ _))

/-- What the references of a signal handle should be.  `count_eq` says that a
callback that was replaced has lost exactly the reference of the slot. -/
structure SignalSound : Prop where
  taken : 0 ≤ s.kept
  count_eq : s.life ≠ .failed → ∀ addr, (s.heap.rc addr : Int) =
    s.user.count addr + s.heap.edges.count addr +
      if addr = handleAddr then s.kept else 0
  linked : s.life = .opened → Live s.heap handleAddr
  closes : GivenUp s → LoopCloses s

/-- A stop ends a start that no stop has ended, the signal is kept by what the
program still owns or by another start, and it is not walked to or closed,
which no call of the signal API does. -/
def Matched : Label → Prop
  | .stop _ => 1 ≤ s.kept ∧
      Held s.heap (ledger (s.user - {handleAddr}) (s.kept - 1)) handleAddr
  | .drop addr => s.life = .opened →
      Held s.heap (ledger (s.user - {addr}) s.kept) handleAddr
  | .init _ accepted => accepted →
      Held s.heap (ledger (s.user - {handleAddr, loopAddr}) 0) handleAddr
  | .walk | .close _ => False
  | _ => True

instance : DecidablePred (Matched s)
  | .stop _ => inferInstanceAs (Decidable (_ ∧ _))
  | .drop _ | .init _ _ => inferInstanceAs (Decidable (_ → _))
  | .walk | .close _ => isFalse id
  | .newClosure _ _ | .newBytes | .dup _ | .unpack _ _
  | .start _ _ _ _ | .receiveStart _ _ _ _ | .receiveStop _ | .listen _ _ _
  | .closeReset _ _ | .send | .exiting | .event _ | .resume _ | .late _
  | .discard _ | .connection | .allocEnter | .allocLeave _ | .receive _ _ _
  | .leave | .closed => isTrue trivial

/-- A step of a run that keeps to the rules. -/
def SignalAllowed (label : Label) : Prop :=
  Contract .signal s label ∧ SlotRule .signal s label ∧ Matched s label

instance : DecidablePred (SignalAllowed s) := fun _ =>
  inferInstanceAs (Decidable (_ ∧ _ ∧ _))

/-- The invariant of such a run. -/
structure SignalInv : Prop where
  inv : Inv .signal False True s
  made : s.life = .made → s.kept = 0
  unclosed : s.life.closing? = none ∧ s.life.closed? = none
  taken : 0 ≤ s.kept
  active : s.watch.active.isSome → 1 ≤ s.kept
  linked : s.life = .opened → Live s.heap handleAddr

end Statement

variable {s next : HandleState}

theorem initial_signalInv : SignalInv (HandleState.initial .signal) where
  inv := initial_inv .signal False True
  made _ := rfl
  unclosed := ⟨rfl, rfl⟩
  taken := Int.le_refl 0
  active hactive := by cases hactive
  linked hlife := by cases hlife

/-- The labels that a signal handle takes. -/
inductive SignalLabel : Label → Prop where
  | objects {label : Label} (hobjects : label.onObjects)
      (hwalk : label ≠ .walk) : SignalLabel label
  | init (accepted : Bool) : SignalLabel (.init none accepted)
  | start (param : Nat) (cb : Addr) (answer : Answer) :
      SignalLabel (.start param cb none answer)
  | stop (accepted : Bool) : SignalLabel (.stop accepted)
  | event (ends : Bool) : SignalLabel (.event ends)
  | resume (ends : Bool) : SignalLabel (.resume ends)

theorem SignalInv.label (hinv : SignalInv s) {label : Label}
    (hallowed : SignalAllowed s label) : SignalLabel label := by
  rcases hallowed with ⟨⟨-, hoffers⟩, -, hmatched⟩
  cases label with
  | newClosure _ _ | newBytes | dup _ | drop _ | unpack _ _ =>
      exact .objects rfl (by simp)
  | init cb accepted =>
      cases cb with
      | none => exact .init accepted
      | some cb => simp [Offers, Kind.initCallback] at hoffers
  | start param cb path answer =>
      cases path with
      | none => exact .start param cb answer
      | some path => simp [Offers] at hoffers
  | stop accepted => exact .stop accepted
  | event ends => exact .event ends
  | resume ends => exact .resume ends
  | walk | close _ => cases hmatched
  | closed => simp [Offers, hinv.unclosed.1] at hoffers
  | discard start =>
      have hstale : s.stale = [] :=
        hinv.inv.control.fresh.resolve_right (by simp)
      simp [Offers, hstale] at hoffers
  | leave =>
      have hkind := hinv.inv.control.turned .udp (by rw [hoffers.2.1]; rfl)
      cases hkind.1
  | receiveStart _ _ _ _ | receiveStop _ | listen _ _ _ | closeReset _ _
  | send | exiting | late _ | connection | allocEnter | allocLeave _
  | receive _ _ _ => simp [Offers, Kind.receiver] at hoffers

/-- Enough references are there for every label the rules allow. -/
theorem SignalInv.backed (hinv : SignalInv s) {label : Label}
    (hallowed : SignalAllowed s label) :
    s.Backed (label.handleRefs .signal) := by
  have hcontract := hallowed.1
  have hcount := Multiset.count_le_of_le handleAddr hcontract.1
  rw [Multiset.coe_count] at hcount
  have htaken := hinv.taken
  have hlabel := hinv.label hallowed
  rw [HandleState.Backed]
  cases hlabel with
  | objects hobjects hwalk =>
      cases label with
      | newClosure type captures =>
          simp only [Label.consumed, Label.handleRefs] at hcount ⊢
          omega
      | newBytes | unpack _ _ =>
          simp only [Label.handleRefs]
          omega
      | walk => exact absurd rfl hwalk
      | dup addr =>
          simp only [Label.handleRefs]
          split
          · next haddr =>
              subst haddr
              have hpos := Multiset.count_pos.mpr hcontract.2
              omega
          · omega
      | drop addr =>
          simp only [Label.consumed, List.count_singleton, beq_iff_eq,
            Label.handleRefs] at hcount ⊢
          omega
      | _ => cases hobjects
  | init accepted | start param cb answer =>
      simp only [Label.consumed, List.count_cons_self] at hcount
      simp only [Label.handleRefs]
      omega
  | stop accepted =>
      have hone := hallowed.2.2.1
      simp only [Label.consumed, List.count_cons_self] at hcount
      simp only [Label.handleRefs, Kind.stopReleases, ↓reduceIte,
        List.count_cons_self, List.count_nil]
      omega
  | event ends =>
      rcases hcontract with ⟨-, -, hreports, hturn⟩
      have hone := hinv.active (hinv.inv.event_opened hreports hturn).2
      simp only [Label.handleRefs]
      omega
  | resume ends =>
      simp only [Label.handleRefs]
      omega

theorem SignalInv.allowed (hinv : SignalInv s) {label : Label}
    (hallowed : SignalAllowed s label) :
    Allowed .signal False True s label := by
  refine ⟨hallowed.1, fun _ => hinv.backed hallowed, hallowed.2.1,
    False.elim, fun _ => ?_⟩
  have hlabel := hinv.label hallowed
  cases hlabel with
  | objects hobjects => cases label <;> trivial
  | start _ _ _ => exact hinv.unclosed.2
  | init _ | stop _ | event _ | resume _ => trivial

@[simp] theorem own_signal (s : HandleState) :
    s.own .signal = ledger s.user s.kept := by
  simp [HandleState.own, HandleState.saved, Kind.receiver]

/-- A step that leaves a reference of the program or of a start. -/
theorem live_of_backed (hbase : Base .signal next) (hone : next.Backed 1) :
    Live next.heap handleAddr := by
  rcases hbase.handle hone with ⟨handle, hobj, -⟩
  exact hobj.live

theorem object_live {label : Label} (hlabel : label.onObjects)
    (hwalk : label ≠ .walk) (hstep : step .signal s label = .ok next)
    (hlive : Live s.heap handleAddr)
    (hdrop : ∀ addr, label = .drop addr →
      Held s.heap (ledger (s.user - {addr}) s.kept) handleAddr)
    (hbase : Base .signal next) : Live next.heap handleAddr := by
  cases label with
  | newClosure type captures =>
      cases hstep
      exact alloc_live hlive
  | newBytes =>
      cases hstep
      exact alloc_live hlive
  | dup addr | unpack _ addr =>
      rcases bind_eq_ok hstep with ⟨heap, hincref, hnext⟩
      cases hnext
      exact incref_live hincref hlive
  | drop addr =>
      rcases bind_eq_ok hstep with ⟨heap, hdecref, hnext⟩
      cases hnext
      apply Held.live_of_rewritten (hdrop addr rfl)
        ((decref_keeps hdecref).1.mono (List.nil_subset _)) hbase.balanced
      rw [own_signal]
  | walk => exact absurd rfl hwalk
  | _ => cases hlabel

theorem object_signalInv (hinv : SignalInv s) {label : Label}
    (hlabel : label.onObjects) (hwalk : label ≠ .walk) (hallowed : SignalAllowed s label) :
    ∃ next, step .signal s label = .ok next ∧ SignalInv next := by
  rcases object_preserves hinv.inv (fun _ => by decide) hlabel
    (hinv.allowed hallowed) with ⟨next, hstep, hnext⟩
  rcases object_step hinv.inv.base hlabel hallowed.1 (hinv.backed hallowed)
    with ⟨heap, user, hobjects, -⟩
  have hshape := Except.ok.inj (hstep.symm.trans hobjects)
  refine ⟨next, hstep, hnext, ?_, ?_, ?_, ?_, ?_⟩
  · rw [hshape]
    exact hinv.made
  · rw [hshape]
    exact hinv.unclosed
  · rw [hshape]
    exact hinv.taken
  · rw [hshape]
    exact hinv.active
  · intro hlife
    have hopened : s.life = .opened := by simpa [hshape] using hlife
    apply object_live hlabel hwalk hstep (hinv.linked hopened) ?_ hnext.base
    rintro addr rfl
    exact hallowed.2.2 hopened

theorem init_signalInv (hinv : SignalInv s) {accepted : Bool}
    (hallowed : SignalAllowed s (.init none accepted)) :
    ∃ next, step .signal s (.init none accepted) = .ok next ∧
      SignalInv next := by
  rcases init_preserves hinv.inv (fun _ => by decide)
    (hinv.allowed hallowed) with ⟨next, hstep, hnext⟩
  rcases bind_eq_ok hstep with ⟨heap, hinit, hshape⟩
  have hzero := hinv.made hallowed.1.2.1
  cases hshape
  refine ⟨_, hstep, hnext, ?_, ?_, ?_, ?_, ?_⟩
  · intro hmade
    cases accepted <;> cases hmade
  · cases accepted <;> exact ⟨rfl, rfl⟩
  · simp [HandleState.afterStub, Kind.initReleases, hzero]
  · intro hactive
    simp [initWatch, Kind.initCallback, Watch.none] at hactive
  · intro hlife
    cases accepted with
    | false => cases hlife
    | true =>
        apply Held.live_of_rewritten (hallowed.2.2 rfl)
          (signalInit_keeps hinit) hnext.base.balanced
        rw [own_signal]
        simp [HandleState.afterStub, Kind.initReleases, hzero, Label.consumed,
          ← Multiset.cons_coe]

theorem start_signalInv (hinv : SignalInv s) {param : Nat} {cb : Addr}
    {answer : Answer}
    (hallowed : SignalAllowed s (.start param cb none answer)) :
    ∃ next, step .signal s (.start param cb none answer) = .ok next ∧
      SignalInv next := by
  rcases start_preserves hinv.inv (fun _ => by decide)
    (hinv.allowed hallowed) with ⟨next, hstep, hnext⟩
  rcases bind_eq_ok hstep with ⟨heap, -, hshape⟩
  have husable := hallowed.1.2.1
  have htaken := hinv.taken
  have hkept : next.kept = s.kept + 1 := by
    cases hshape
    simp [HandleState.watched, HandleState.afterStub, Kind.startReleases]
  have hlife : next.life = s.life := by
    cases hshape
    rfl
  refine ⟨next, hstep, hnext, ?_, hlife ▸ hinv.unclosed, ?_, ?_, ?_⟩
  · intro hmade
    exact absurd (hlife ▸ hmade) (ne_made husable)
  · omega
  · intro _
    omega
  · intro _
    apply live_of_backed hnext.base
    rw [HandleState.Backed]
    omega

theorem stop_signalInv (hinv : SignalInv s) {accepted : Bool}
    (hallowed : SignalAllowed s (.stop accepted)) :
    ∃ next, step .signal s (.stop accepted) = .ok next ∧ SignalInv next := by
  rcases stop_preserves hinv.inv (fun _ => by decide)
    (hinv.allowed hallowed) with ⟨next, hstep, hnext⟩
  rcases bind_eq_ok hstep with ⟨heap, hstop, hshape⟩
  have husable := hallowed.1.2.1
  rcases hallowed.2.2 with ⟨hone, hheld⟩
  have hstopped : (s.watch.stop accepted).active = none := by
    cases hactive : s.watch.active with
    | none => exact stop_none hactive accepted
    | some start =>
        have htrue := (hallowed.2.1 rfl).2 (by simp [hactive])
        subst htrue
        rfl
  cases hshape
  refine ⟨_, hstep, hnext, ?_, hinv.unclosed, ?_, ?_, ?_⟩
  · intro hmade
    exact absurd hmade (ne_made husable)
  · simp [HandleState.watched, HandleState.afterStub, Kind.stopReleases]
    omega
  · intro hactive
    simp [HandleState.watched, hstopped] at hactive
  · intro _
    apply Held.live_of_rewritten hheld (signalStop_keeps hstop)
      hnext.base.balanced
    have hkept : s.kept + 1 - 2 = s.kept - 1 := by omega
    rw [own_signal]
    simp [HandleState.watched, HandleState.afterStub, Kind.stopReleases,
      Label.consumed, hkept]

theorem event_signalInv (hinv : SignalInv s) {ends : Bool}
    (hallowed : SignalAllowed s (.event ends)) :
    ∃ next, step .signal s (.event ends) = .ok next ∧ SignalInv next := by
  rcases event_preserves hinv.inv (fun _ => by decide)
    (hinv.allowed hallowed) with ⟨next, hstep, hnext⟩
  rcases bind_eq_ok hstep with ⟨⟨heap, call, gained⟩, hevent, hshape⟩
  rcases bind_eq_ok hevent with ⟨⟨heap', cb⟩, -, hcalled⟩
  cases hcalled
  cases hshape
  have htaken := hinv.taken
  refine ⟨_, hstep, hnext, hinv.made, hinv.unclosed, htaken, ?_, ?_⟩
  · intro hactive
    rcases Option.isSome_iff_exists.mp hactive with ⟨start, hstart⟩
    exact hinv.active (by simp [(stop_active hstart).2])
  · intro _
    apply live_of_backed hnext.base
    simp [HandleState.Backed, HandleState.watched, HandleState.afterCall]
    omega

theorem resume_signalInv (hinv : SignalInv s) {ends : Bool}
    (hallowed : SignalAllowed s (.resume ends)) :
    ∃ next, step .signal s (.resume ends) = .ok next ∧ SignalInv next := by
  rcases resume_preserves hinv.inv (hinv.allowed hallowed) with
    ⟨next, hstep, hnext⟩
  have hshape := hstep
  cases hshape
  refine ⟨_, hstep, hnext, hinv.made, hinv.unclosed, hinv.taken, ?_,
    hinv.linked⟩
  intro hactive
  rcases Option.isSome_iff_exists.mp hactive with ⟨start, hstart⟩
  have hwas : s.watch.active = some start := expire_active hstart
  exact hinv.active (by simp [hwas])

theorem step_signalInv (label : Label) (hinv : SignalInv s)
    (hallowed : SignalAllowed s label) :
    ∃ next, step .signal s label = .ok next ∧ SignalInv next := by
  have hlabel := hinv.label hallowed
  cases hlabel with
  | objects hobjects hwalk =>
      exact object_signalInv hinv hobjects hwalk hallowed
  | init accepted => exact init_signalInv hinv hallowed
  | start param cb answer => exact start_signalInv hinv hallowed
  | stop accepted => exact stop_signalInv hinv hallowed
  | event ends => exact event_signalInv hinv hallowed
  | resume ends => exact resume_signalInv hinv hallowed

theorem SignalInv.sound (hinv : SignalInv s) : SignalSound s := by
  have htaken := hinv.taken
  have hcount : s.life ≠ .failed → ∀ addr, (s.heap.rc addr : Int) =
      s.user.count addr + s.heap.edges.count addr +
        if addr = handleAddr then s.kept else 0 := by
    intro hlife addr
    have hbalanced := hinv.inv.base.balanced.count_eq addr
    rw [hinv.inv.lost trivial hlife, own_signal, count_ledger] at hbalanced
    by_cases haddr : addr = handleAddr
    · subst haddr
      simp only [↓reduceIte, List.count_nil] at hbalanced ⊢
      omega
    · simp only [haddr, ↓reduceIte, List.count_nil] at hbalanced ⊢
      omega
  refine ⟨htaken, hcount, hinv.linked, ?_⟩
  rintro ⟨hkept, huser, hedges⟩
  rw [LoopCloses]
  cases hlife : s.life with
  | opened =>
      rcases hinv.linked hlife with ⟨obj, rc, hcell⟩
      have hzero := hcount (by simp [hlife]) handleAddr
      have hpos := hinv.inv.base.balanced.pos handleAddr _ hcell
      rw [rc_of_cell hcell] at hzero
      simp only [hkept, huser, hedges, ↓reduceIte] at hzero hpos
      omega
  | closing closeCb => simpa [hlife, Life.closing?] using hinv.unclosed.1
  | made | failed | closed _ => rfl

/-- In every run of a signal handle in which each stop ends a start and the
program keeps the signal, no stub releases what it has not taken, every count
is the number of owners and the signal outlives libuv's link to it. -/
theorem signal_balanced (labels : List Label)
    (hadmissible : Admissible SignalAllowed (step .signal)
      (HandleState.initial .signal) labels) :
    ∃ final, run (step .signal) (HandleState.initial .signal) labels =
        .ok final ∧ SignalSound final := by
  rcases run_safe (fun state label hinv hallowed =>
    step_signalInv label hinv hallowed) initial_signalInv hadmissible with
    ⟨final, hrun, hinv⟩
  exact ⟨final, hrun, hinv.sound⟩

section Runs

/-- A one-shot signal that is started and restarted, fires, and is stopped
twice. -/
def restartAndStop : List Label :=
  [.dup loopAddr, .dup handleAddr, .init none true, .newClosure .signal [],
    .dup handleAddr, .start 1 2 none .accepted, .newClosure .signal [],
    .dup handleAddr, .start 1 3 none (.altered 1), .event false, .drop 3,
    .drop handleAddr, .resume true, .dup handleAddr, .stop true,
    .dup handleAddr, .stop true]

theorem signal_balanced_restartAndStop :
    ∃ final, run (step .signal) (HandleState.initial .signal)
        restartAndStop = .ok final ∧ SignalSound final :=
  signal_balanced restartAndStop (by decide)

/-- A signal that is started, stopped and dropped. -/
def stopAndDrop : List Label :=
  [.dup loopAddr, .dup handleAddr, .init none true, .newClosure .signal [],
    .dup handleAddr, .start 1 2 none .accepted, .dup handleAddr, .stop true,
    .drop handleAddr]

theorem stopAndDrop_frees :
    Admissible (Contract .signal) (step .signal)
        (HandleState.initial .signal) stopAndDrop ∧
      ∃ s, run (step .signal) (HandleState.initial .signal) stopAndDrop =
          .ok s ∧
        GivenUp s ∧ s.life = .opened ∧ s.heap.cell? handleAddr = none ∧
          ¬ LoopCloses s :=
  ⟨by decide, _, rfl, by decide, rfl, by decide, by decide⟩

end Runs

end SignalBalance

end UvMbt
