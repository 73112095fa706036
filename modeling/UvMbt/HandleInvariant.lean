/-
The invariant of a run of one handle.  Its first layer is the counting: the
heap is balanced for the user's references and the kept ones, whatever the
slot holds.
-/
import UvMbt.HandleRun
import UvMbt.HandleSpec

set_option autoImplicit false

namespace UvMbt

open RefHeap

section Ledger

variable (user : Multiset Addr) (kept : Int)

/-- The owned references: those of the user, and as many more references to
the handle as are kept. -/
def ledger : Multiset Addr :=
  user.filter (· ≠ handleAddr) +
    Multiset.replicate (user.count handleAddr + kept).toNat handleAddr

variable {user kept}

theorem count_ledger (addr : Addr) :
    (ledger user kept).count addr =
      if addr = handleAddr then (user.count handleAddr + kept).toNat
      else user.count addr := by
  by_cases haddr : addr = handleAddr
  · subst haddr
    simp [ledger]
  · simp [ledger, haddr, Multiset.count_replicate, Ne.symm haddr]

theorem ledger_add (user : Multiset Addr) (kept : Int)
    (gained : Multiset Addr)
    (hbacked : 0 ≤ user.count handleAddr + kept) :
    ledger (gained + user) kept = gained + ledger user kept := by
  ext addr
  rw [Multiset.count_add, count_ledger, count_ledger]
  by_cases haddr : addr = handleAddr
  · subst haddr
    simp only [↓reduceIte, Multiset.count_add]
    omega
  · simp [haddr]

theorem ledger_sub (kept : Int) {used : Multiset Addr} (hle : used ≤ user)
    (hbacked : (used.count handleAddr : Int) ≤
      user.count handleAddr + kept) :
    ledger user kept = used + ledger (user - used) kept := by
  have hcount := Multiset.count_le_of_le handleAddr hle
  have hsplit : used + (user - used) = user := by
    rw [add_comm, Multiset.sub_add_cancel hle]
  have hadd := ledger_add (user - used) kept used (by
    rw [Multiset.count_sub]
    omega)
  rwa [hsplit] at hadd

/-- A stub uses up its arguments: the slot takes some of them, and the stub
releases others, the handle `refs` times. -/
theorem ledger_stub {used : Multiset Addr} (kept : Int)
    (moved rest : Multiset Addr) (refs : Nat) (hle : used ≤ user)
    (hused : used = handleAddr ::ₘ (moved + rest))
    (hnot : handleAddr ∉ moved + rest)
    (hbacked : (refs : Int) ≤ user.count handleAddr + kept) :
    ledger user kept = moved + ((Multiset.replicate refs handleAddr + rest) +
      ledger (user - used) (kept + 1 - refs)) := by
  have hzero : (moved + rest).count handleAddr = 0 :=
    Multiset.count_eq_zero.mpr hnot
  rw [Multiset.count_add] at hzero
  ext addr
  simp only [Multiset.count_add, count_ledger]
  by_cases haddr : addr = handleAddr
  · subst haddr
    have hcount := Multiset.count_le_of_le handleAddr hle
    rw [hused, Multiset.count_cons_self, Multiset.count_add] at hcount
    simp only [↓reduceIte, Multiset.count_replicate_self, Multiset.count_sub,
      hused, Multiset.count_cons_self, Multiset.count_add]
    omega
  · have hcount := Multiset.count_le_of_le addr hle
    rw [hused, Multiset.count_cons_of_ne haddr, Multiset.count_add] at hcount
    simp only [haddr, ↓reduceIte, Multiset.count_replicate, Ne.symm haddr,
      Multiset.count_sub, hused, Multiset.count_cons_of_ne haddr,
      Multiset.count_add]
    omega

end Ledger

namespace HandleState

/-- The reference the alloc trampoline of a stream holds. -/
def saved (kind : Kind) (s : HandleState) : List Addr :=
  match kind.receiver, s.phase.allocating? with
  | some type, some data => savedData type data
  | _, _ => []

/-- Every reference that is not held by an object. -/
def own (kind : Kind) (s : HandleState) : Multiset Addr :=
  ↑(s.saved kind) + ledger s.user s.kept

/-- Enough references to the handle are there for `refs` uses. -/
def Backed (s : HandleState) (refs : Nat) : Prop :=
  (refs : Int) ≤ s.user.count handleAddr + s.kept

instance (s : HandleState) (refs : Nat) : Decidable (s.Backed refs) :=
  inferInstanceAs (Decidable (_ ≤ _))

end HandleState

open HandleState

/-- The counting layer: it does not depend on what the slot holds. -/
structure Base (kind : Kind) (s : HandleState) : Prop where
  balanced : Balanced s.heap (s.own kind)
  backed : s.Backed 0
  handles : ∀ addr handle, ObjAt s.heap addr (.handle handle) →
    addr = handleAddr ∧ handle.kind = kind
  typed : ∀ obj, ObjAt s.heap handleAddr obj → ∃ handle, obj = .handle handle
  two_le : 2 ≤ s.heap.cells.length

section Base

variable {kind : Kind} {s : HandleState}

theorem mem_own (kind : Kind) {s : HandleState} (hbacked : s.Backed 1) :
    handleAddr ∈ s.own kind := by
  rw [HandleState.own, Multiset.mem_add]
  right
  rw [← Multiset.count_pos, count_ledger, if_pos rfl]
  rw [HandleState.Backed] at hbacked
  omega

theorem Base.handleAddr_lt (hbase : Base kind s) :
    handleAddr < s.heap.cells.length :=
  hbase.two_le

theorem Base.handle (hbase : Base kind s) (hbacked : s.Backed 1) :
    ∃ handle, ObjAt s.heap handleAddr (.handle handle) ∧
      handle.kind = kind := by
  obtain ⟨obj, hobj⟩ := hbase.balanced.live (mem_own kind hbacked)
  obtain ⟨handle, rfl⟩ := hbase.typed obj hobj
  exact ⟨handle, hobj, (hbase.handles _ _ hobj).2⟩

/-- The counting layer holds again once the ledger is balanced. -/
theorem Base.of_frame (hbase : Base kind s) {s' : HandleState}
    {changed lost : List Addr} (hbalanced : Balanced s'.heap (s'.own kind))
    (hbacked : s'.Backed 0) (hframe : Frame changed lost s.heap s'.heap)
    (htyped : handleAddr ∈ changed → ∀ obj, ObjAt s'.heap handleAddr obj →
      ∃ handle, obj = .handle handle) : Base kind s' where
  balanced := hbalanced
  backed := hbacked
  handles addr handle hobj := by
    obtain ⟨handle', hold, hkind⟩ := hframe.same addr handle hobj
    obtain ⟨haddr, hkind'⟩ := hbase.handles addr handle' hold
    exact ⟨haddr, hkind ▸ hkind'⟩
  typed obj hobj := by
    by_cases hmem : handleAddr ∈ changed
    · exact htyped hmem obj hobj
    · exact hbase.typed obj
        (hframe.keeps.objAt_old _ obj hbase.handleAddr_lt hmem hobj)
  two_le := Nat.le_trans hbase.two_le hframe.keeps.length_le

/-- The counting of one stub call on a heap that extends the state's. -/
theorem Base.stub_of (hbase : Base kind s) (made : Heap Obj)
    (hext : Extends s.heap made) (label : Label) (write : SlotWrite)
    (released : List Addr) (own' : Multiset Addr)
    (hown : ∀ heap, (s.afterStub label heap released).own kind = own')
    (hbalanced : Balanced made (↑write.moved + (↑released + own')))
    (hmem : handleAddr ∈ (↑released + own' : Multiset Addr))
    (hone : s.Backed 1)
    (hbacked : ∀ heap, (s.afterStub label heap released).Backed 0) :
    ∃ heap handle, ObjAt s.heap handleAddr (.handle handle) ∧
      slotStub write released made = .ok heap ∧
      Base kind (s.afterStub label heap released) ∧
      (Live heap handleAddr → ObjAt heap handleAddr
        (.handle { handle with data := write.result handle.data })) ∧
      Frame [handleAddr] (write.loses handle.data) s.heap heap ∧
      Frame [handleAddr] (write.loses handle.data) made heap ∧
      heap.cells.length = made.cells.length := by
  obtain ⟨handle, hobj, -⟩ := hbase.handle hone
  obtain ⟨heap, hrun, hnext, hhandle, hframe, hlength⟩ :=
    slotStub_spec write released hbalanced (hext.objAt _ _ hobj) hmem
  have hframe' : Frame [handleAddr] (write.loses handle.data) s.heap heap := by
    simpa using (hext.frame.mono (List.nil_subset _)).trans hframe
  refine ⟨heap, handle, hobj, hrun, ?_, hhandle, hframe', hframe, hlength⟩
  refine hbase.of_frame (hnext.congr (hown heap).symm) (hbacked heap) hframe'
    ?_
  intro _ obj hnew
  exact ⟨_, hnew.unique (hhandle hnew.live)⟩

/-- The counting of a stub call whose arguments go to the slot or are
released. -/
theorem Base.stub (hbase : Base kind s) {label : Label}
    (hle : ↑label.consumed ≤ s.user) (write : SlotWrite)
    (released : List Addr) (rest : Multiset Addr) (refs : Nat)
    (hused : (↑label.consumed : Multiset Addr) =
      handleAddr ::ₘ (↑write.moved + rest))
    (hreleased : (↑released : Multiset Addr) =
      Multiset.replicate refs handleAddr + rest)
    (hnot : handleAddr ∉ ↑write.moved + rest)
    (hone : s.Backed 1) (hrefs : s.Backed refs) :
    ∃ heap handle, ObjAt s.heap handleAddr (.handle handle) ∧
      slotStub write released s.heap = .ok heap ∧
      Base kind (s.afterStub label heap released) ∧
      (Live heap handleAddr → ObjAt heap handleAddr
        (.handle { handle with data := write.result handle.data })) ∧
      Frame [handleAddr] (write.loses handle.data) s.heap heap ∧
      heap.cells.length = s.heap.cells.length := by
  have hcount : released.count handleAddr = refs := by
    have hrest : rest.count handleAddr = 0 := Multiset.count_eq_zero.mpr
      (fun hmem => hnot (Multiset.mem_add.mpr (Or.inr hmem)))
    rw [← Multiset.coe_count, hreleased, Multiset.count_add, hrest]
    simp
  have hown : s.own kind = ↑write.moved + (↑released +
      (↑(s.saved kind) +
        ledger (s.user - ↑label.consumed) (s.kept + 1 - refs))) := by
    rw [HandleState.own, ledger_stub _ _ _ _ hle hused hnot hrefs, hreleased]
    abel
  obtain ⟨heap, handle, hobj, hrun, hnext, hhandle, hframe, -, hlength⟩ :=
    hbase.stub_of s.heap
      ⟨Frame.refl [] s.heap, fun _ _ hobj => hobj⟩ label write released _
      (fun _ => by
        simp only [HandleState.own, HandleState.afterStub, hcount]
        rfl)
      (hbase.balanced.congr hown)
      (by
        have hmem := mem_own kind hone
        rw [hown, Multiset.mem_add] at hmem
        exact hmem.resolve_left
          (fun h => hnot (Multiset.mem_add.mpr (Or.inl h))))
      hone
      (fun _ => by
        have hle' := Multiset.count_le_of_le handleAddr hle
        simp only [HandleState.Backed, HandleState.afterStub, hcount,
          Multiset.count_sub] at hrefs ⊢
        rw [Multiset.coe_count] at hle'
        have hone' : Multiset.count handleAddr (↑label.consumed) = 1 := by
          rw [hused, Multiset.count_cons_self,
            Multiset.count_eq_zero.mpr hnot]
        rw [hone']
        rw [Multiset.coe_count] at hone'
        omega)
  exact ⟨heap, handle, hobj, hrun, hnext, hhandle, hframe, hlength⟩

end Base

end UvMbt
