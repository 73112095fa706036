/-
What each stub and each trampoline does to a balanced heap: which references it
moves between the ledger and the slot, and that everything else stays.
-/
import UvMbt.Handle

set_option autoImplicit false

namespace UvMbt

open RefHeap

/-- The references a handle object counts for besides the slot. -/
def HandleObj.loopRefs (handle : HandleObj) : List Addr :=
  if handle.kind = .tty then [] else handle.loop.toList

@[simp] theorem HandleObj.loopRefs_with (handle : HandleObj)
    (data : Option Addr) :
    HandleObj.loopRefs { handle with data } = handle.loopRefs := rfl

theorem refs_handle (handle : HandleObj) :
    refs (Obj.handle handle) = handle.data.toList ++ handle.loopRefs := by
  by_cases htty : handle.kind = .tty <;>
    simp [refs, Ownership.drops, Ownership.leaks, HandleObj.loopRefs, htty]

theorem coe_refs_handle (handle : HandleObj) :
    (↑(refs (Obj.handle handle)) : Multiset Addr) =
      ↑handle.data.toList + ↑handle.loopRefs := by
  rw [refs_handle, Multiset.coe_add]

@[simp] theorem refs_receiver (type : ReceiverType) (receive : ReceiveData) :
    refs (Obj.receiver type receive) =
      receive.bytes.toList ++ [receive.readCb, receive.allocCb] := by
  simp [refs, Ownership.drops, Ownership.leaks]

theorem allocCb_mem (type : ReceiverType) (receive : ReceiveData) :
    receive.allocCb ∈ refs (Obj.receiver type receive) := by simp

theorem readCb_mem (type : ReceiverType) (receive : ReceiveData) :
    receive.readCb ∈ refs (Obj.receiver type receive) := by simp

@[simp] theorem refs_closure (type : CallbackType) (captures : List Addr) :
    refs (Obj.closure type captures) = captures := by
  simp [refs, Ownership.drops, Ownership.leaks]

@[simp] theorem refs_bytes : refs Obj.bytes = [] := rfl

@[simp] theorem refs_loop : refs Obj.loop = [] := rfl

/-- No handle of the heap is a tty, whose slot is lost with it. -/
def NoTty (heap : Heap Obj) : Prop :=
  ∀ addr handle, ObjAt heap addr (.handle handle) → handle.kind ≠ .tty

theorem NoTty.sealed {heap : Heap Obj} (hno : NoTty heap) : Sealed heap := by
  intro addr obj hobj
  cases obj with
  | handle handle => simp [Ownership.leaks, hno addr handle hobj]
  | _ => rfl

/-- Every handle of the new heap is one of the old heap, up to its slot and its
loop. -/
def SameHandles (old new : Heap Obj) : Prop :=
  ∀ addr handle, ObjAt new addr (.handle handle) →
    ∃ handle', ObjAt old addr (.handle handle') ∧ handle'.kind = handle.kind

theorem SameHandles.refl (heap : Heap Obj) : SameHandles heap heap :=
  fun _ handle hobj => ⟨handle, hobj, rfl⟩

theorem SameHandles.trans {first second third : Heap Obj}
    (hfirst : SameHandles first second) (hsecond : SameHandles second third) :
    SameHandles first third := by
  intro addr handle hobj
  obtain ⟨handle₂, hobj₂, hkind₂⟩ := hsecond addr handle hobj
  obtain ⟨handle₁, hobj₁, hkind₁⟩ := hfirst addr handle₂ hobj₂
  exact ⟨handle₁, hobj₁, hkind₁.trans hkind₂⟩

theorem NoTty.of_same {old new : Heap Obj} (hno : NoTty old)
    (hsame : SameHandles old new) : NoTty new := by
  intro addr handle hobj
  obtain ⟨handle', hobj', hkind⟩ := hsame addr handle hobj
  exact hkind ▸ hno addr handle' hobj'

/-- The frame of an operation: only the objects at `changed` are written, no
handle is made, and `lost` is what is lost unless a tty dies. -/
structure Frame (changed lost : List Addr) (old new : Heap Obj) : Prop where
  keeps : Keeps changed old new
  same : SameHandles old new
  lost_eq : NoTty old → new.lost = lost ++ old.lost

theorem Frame.refl (changed : List Addr) (heap : Heap Obj) :
    Frame changed [] heap heap :=
  ⟨Keeps.refl changed heap, SameHandles.refl heap, fun _ => rfl⟩

theorem Frame.trans {changed lost lost' : List Addr}
    {first second third : Heap Obj} (hfirst : Frame changed lost first second)
    (hsecond : Frame changed lost' second third) :
    Frame changed (lost' ++ lost) first third where
  keeps := hfirst.keeps.trans hsecond.keeps
  same := hfirst.same.trans hsecond.same
  lost_eq hno := by
    rw [hsecond.lost_eq (hno.of_same hfirst.same), hfirst.lost_eq hno,
      List.append_assoc]

theorem Frame.mono {changed more lost : List Addr} {old new : Heap Obj}
    (hframe : Frame changed lost old new) (hsub : changed ⊆ more) :
    Frame more lost old new :=
  ⟨hframe.keeps.mono hsub, hframe.same, hframe.lost_eq⟩

/-- A heap in which every object of the old one is still there, unchanged. -/
structure Extends (old new : Heap Obj) : Prop where
  frame : Frame [] [] old new
  objAt : ∀ addr obj, ObjAt old addr obj → ObjAt new addr obj

theorem Extends.trans {first second third : Heap Obj}
    (hfirst : Extends first second) (hsecond : Extends second third) :
    Extends first third :=
  ⟨hfirst.frame.trans hsecond.frame, fun addr obj hobj =>
    hsecond.objAt addr obj (hfirst.objAt addr obj hobj)⟩

section Basic

variable {heap : Heap Obj} {own : Multiset Addr} {handle : HandleObj}

theorem getHandle_eq (hobj : ObjAt heap handleAddr (.handle handle)) :
    getHandle heap = .ok handle := by
  simp [getHandle, hobj.get, bind, Except.bind, pure, Except.pure]

theorem incref_extends {addr : Addr} (hbalanced : Balanced heap own)
    (hlive : Live heap addr) :
    ∃ next, heap.incref addr = .ok next ∧ Balanced next (addr ::ₘ own) ∧
      Extends heap next ∧ next.cells.length = heap.cells.length := by
  obtain ⟨next, hrun, hnext, hiff, hlength, hlost⟩ :=
    incref_spec hbalanced hlive
  refine ⟨next, hrun, hnext, ⟨⟨⟨by omega, ?_⟩, ?_, fun _ => hlost⟩, ?_⟩,
    hlength⟩
  · exact fun other obj _ _ hobj => (hiff other obj).mp hobj
  · exact fun other handle hobj => ⟨handle, (hiff other _).mp hobj, rfl⟩
  · exact fun other obj hobj => (hiff other obj).mpr hobj

/-- A new object that is not a handle. -/
theorem alloc_extends {obj : Obj}
    (hbalanced : Balanced heap (↑(refs obj) + own))
    (hobj : ∀ handle, obj ≠ .handle handle) :
    Balanced (heap.alloc obj).1 (heap.cells.length ::ₘ own) ∧
      ObjAt (heap.alloc obj).1 heap.cells.length obj ∧
      Extends heap (heap.alloc obj).1 := by
  obtain ⟨hnext, hnew, hiff⟩ := alloc_spec hbalanced
  have hlength : (heap.alloc obj).1.cells.length = heap.cells.length + 1 := by
    simp [Heap.alloc]
  refine ⟨hnext, hnew, ⟨⟨by omega, ?_⟩, ?_, fun _ => rfl⟩, ?_⟩
  · exact fun other obj' hlt _ hother => (hiff other obj' hlt).mp hother
  · intro other handle hother
    have hlt := hother.lt_length
    rw [hlength] at hlt
    have hle : other ≤ heap.cells.length := Nat.lt_succ_iff.mp hlt
    rcases Nat.lt_or_eq_of_le hle with hlt | hnewer
    · exact ⟨handle, (hiff other _ hlt).mp hother, rfl⟩
    · subst hnewer
      exact absurd (hnew.unique hother) (hobj handle)
  · exact fun other obj' hother => (hiff other obj' hother.lt_length).mpr hother

theorem alloc_bytes_spec (hbalanced : Balanced heap own) :
    Balanced (heap.alloc .bytes).1 (heap.cells.length ::ₘ own) ∧
      ObjAt (heap.alloc .bytes).1 heap.cells.length .bytes ∧
      Extends heap (heap.alloc .bytes).1 :=
  alloc_extends (hbalanced.congr (by simp)) (by intro _ h; cases h)

theorem sameHandles_of_keeps {old new : Heap Obj} (hkeeps : Keeps [] old new)
    (hlength : new.cells.length = old.cells.length) : SameHandles old new :=
  fun addr handle hobj => ⟨handle, hkeeps.objAt_old addr _
    (hlength ▸ hobj.lt_length) (by simp) hobj, rfl⟩

theorem decref_frame (addr : Addr) (own : Multiset Addr)
    (hbalanced : Balanced heap (addr ::ₘ own)) :
    ∃ next, heap.decref addr = .ok next ∧ Balanced next own ∧
      Frame [] [] heap next ∧ next.cells.length = heap.cells.length := by
  obtain ⟨next, hrun, hnext⟩ := decref_spec hbalanced
  obtain ⟨hkeeps, hlength, hlost⟩ := decref_keeps hrun
  exact ⟨next, hrun, hnext, ⟨hkeeps, sameHandles_of_keeps hkeeps hlength,
    fun hno => hlost hno.sealed⟩, hlength⟩

theorem decrefAll_spec (released : List Addr)
    (hbalanced : Balanced heap (↑released + own)) :
    ∃ next, decrefAll heap released = .ok next ∧ Balanced next own ∧
      Frame [] [] heap next ∧ next.cells.length = heap.cells.length := by
  induction released generalizing heap with
  | nil => exact ⟨heap, rfl, hbalanced.congr (by simp), Frame.refl [] heap, rfl⟩
  | cons addr rest ih =>
      obtain ⟨mid, hmid, hbalanced₁, hframe₁, hlength₁⟩ :=
        decref_frame addr (↑rest + own) (hbalanced.congr (by
          rw [← Multiset.cons_coe, Multiset.cons_add]))
      obtain ⟨next, hnext, hbalanced₂, hframe₂, hlength₂⟩ := ih hbalanced₁
      exact ⟨next, by simp [decrefAll, hmid, bind, Except.bind, hnext],
        hbalanced₂, hframe₁.trans hframe₂, hlength₂.trans hlength₁⟩

/-- Writing an object that stays what it is up to its references. -/
theorem put_frame {addr : Addr} {old : Obj} (new : Obj)
    (own' : Multiset Addr)
    (hbalanced : Balanced heap own) (hobj : ObjAt heap addr old)
    (hmove : own' + ↑(refs new) = own + ↑(refs old))
    (hkind : ∀ handle, new = .handle handle →
      ∃ handle', old = .handle handle' ∧ handle'.kind = handle.kind) :
    ∃ next, heap.put addr new = .ok next ∧ Balanced next own' ∧
      ObjAt next addr new ∧ Frame [addr] [] heap next ∧
      (∀ other obj, other ≠ addr → ObjAt heap other obj →
        ObjAt next other obj) ∧
      next.cells.length = heap.cells.length := by
  obtain ⟨next, hrun, hnext, hnew, hiff, hlength, hlost⟩ :=
    put_spec new own' hbalanced hobj hmove
  refine ⟨next, hrun, hnext, hnew, ⟨⟨by omega, ?_⟩, ?_, fun _ => hlost⟩,
    fun other obj' hne => (hiff other obj' hne).mpr, hlength⟩
  · intro other obj' _ hnot hother
    exact (hiff other obj' (by simpa using hnot)).mp hother
  · intro other handle hother
    by_cases hne : other = addr
    · subst hne
      obtain ⟨handle', hold, hkind⟩ := hkind handle (hnew.unique hother)
      exact ⟨handle', hold ▸ hobj, hkind⟩
    · exact ⟨handle, (hiff other _ hne).mp hother, rfl⟩

end Basic

section Slot

variable {heap : Heap Obj} {own : Multiset Addr} {handle : HandleObj}

/-- A stub's slot write takes the new reference from the ledger and releases
the old one. -/
theorem handleSetData_spec (data : Option Addr) (own : Multiset Addr)
    (hbalanced : Balanced heap (↑data.toList + own))
    (hobj : ObjAt heap handleAddr (.handle handle)) (hown : handleAddr ∈ own) :
    ∃ next, handleSetData heap data = .ok next ∧ Balanced next own ∧
      ObjAt next handleAddr (.handle { handle with data }) ∧
      Frame [handleAddr] [] heap next ∧
      next.cells.length = heap.cells.length := by
  have hkind : ∀ handle', Obj.handle { handle with data } = .handle handle' →
      ∃ handle'', Obj.handle handle = .handle handle'' ∧
        handle''.kind = handle'.kind := by
    intro handle' heq
    cases heq
    exact ⟨handle, rfl, rfl⟩
  cases hdata : handle.data with
  | none =>
      obtain ⟨next, hput, hnext, hnew, hframe, -, hlength⟩ :=
        put_frame (.handle { handle with data }) own
          hbalanced hobj (by
            rw [coe_refs_handle, coe_refs_handle, hdata]
            simp only [HandleObj.loopRefs_with, Option.toList_none,
              Multiset.coe_nil]
            abel) hkind
      refine ⟨next, ?_, hnext, hnew, hframe, hlength⟩
      simp [handleSetData, getHandle_eq hobj, hdata, decrefAll, storeData,
        bind, Except.bind, hput]
  | some old =>
      obtain ⟨mid, next, hmid, hput, hnext, hnew, hkeeps, hlength, hlost⟩ :=
        decref_put_spec (.handle { handle with data := none })
          (.handle { handle with data }) old own hbalanced hobj
          (by rw [refs_handle, refs_handle, hdata]; simp)
          (by
            rw [coe_refs_handle, coe_refs_handle]
            simp only [HandleObj.loopRefs_with, Option.toList_none,
              Multiset.coe_nil]
            abel)
          (Multiset.mem_add.mpr (Or.inr hown))
      refine ⟨next, ?_, hnext, hnew, ⟨hkeeps, ?_, ?_⟩, hlength⟩
      · simp [handleSetData, getHandle_eq hobj, hdata, decrefAll, storeData,
          bind, Except.bind, hmid, hput]
      · intro addr handle' hother
        by_cases haddr : addr = handleAddr
        · subst haddr
          obtain ⟨handle'', hold, hkind⟩ :=
            hkind handle' (hnew.unique hother)
          exact ⟨handle'', hold ▸ hobj, hkind⟩
        · exact ⟨handle', hkeeps.objAt_old addr _
            (hlength ▸ hother.lt_length) (by simpa using haddr) hother, rfl⟩
      · intro hno
        refine hlost hno.sealed ?_
        simp [Ownership.leaks]

theorem foldl_forget_spec (lost : List Addr)
    (hbalanced : Balanced heap (↑lost + own)) :
    Balanced (lost.foldl Heap.forget heap) own ∧
      (lost.foldl Heap.forget heap).cells = heap.cells ∧
      (lost.foldl Heap.forget heap).lost = lost.reverse ++ heap.lost := by
  induction lost generalizing heap with
  | nil => exact ⟨hbalanced.congr (by simp), rfl, rfl⟩
  | cons addr rest ih =>
      have hforget : Balanced (heap.forget addr) (↑rest + own) :=
        Balanced.forget (hbalanced.congr (by
          rw [← Multiset.cons_coe, Multiset.cons_add]))
      obtain ⟨hnext, hcells, hlost⟩ := ih hforget
      refine ⟨hnext, hcells, ?_⟩
      rw [List.foldl_cons, hlost, List.reverse_cons, List.append_assoc]
      rfl

theorem objAt_congr {heap' : Heap Obj} (hcells : heap.cells = heap'.cells)
    {addr : Addr} {obj : Obj} : ObjAt heap addr obj ↔ ObjAt heap' addr obj := by
  simp only [ObjAt, Heap.cell?, hcells]

theorem toList_reverse {α : Type} (opt : Option α) :
    opt.toList.reverse = opt.toList := by
  cases opt <;> rfl

/-- Forgetting references changes no object. -/
theorem forget_frame {heap' next : Heap Obj} {changed lost : List Addr}
    (hframe : Frame changed [] heap heap') (hcells : next.cells = heap'.cells)
    (hlost : next.lost = lost ++ heap'.lost) :
    Frame changed lost heap next := by
  have hobj : ∀ addr obj, ObjAt next addr obj ↔ ObjAt heap' addr obj :=
    fun _ _ => objAt_congr hcells
  refine ⟨⟨hcells ▸ hframe.keeps.length_le, ?_⟩, ?_, ?_⟩
  · intro addr obj hlt hnot hnew
    exact hframe.keeps.objAt_old addr obj hlt hnot ((hobj addr obj).mp hnew)
  · exact fun addr handle hnew => hframe.same addr handle ((hobj _ _).mp hnew)
  · intro hno
    rw [hlost, hframe.lost_eq hno]
    rfl

theorem overwriteData_spec {data : Addr}
    (hbalanced : Balanced heap (data ::ₘ own))
    (hobj : ObjAt heap handleAddr (.handle handle)) :
    ∃ next, overwriteData heap data = .ok next ∧ Balanced next own ∧
      ObjAt next handleAddr (.handle { handle with data := some data }) ∧
      Frame [handleAddr] handle.data.toList heap next ∧
      next.cells.length = heap.cells.length := by
  obtain ⟨mid, hput, hmid, hnew, hframe, -, hlength⟩ :=
    put_frame (.handle { handle with data := some data })
      (↑handle.data.toList + own) hbalanced hobj
      (by
        rw [coe_refs_handle, coe_refs_handle, ← Multiset.singleton_add]
        simp only [HandleObj.loopRefs_with, Option.toList_some,
          Multiset.coe_singleton]
        abel)
      (fun _ heq => ⟨handle, rfl, by cases heq; rfl⟩)
  obtain ⟨hnext, hcells, hlost⟩ := foldl_forget_spec handle.data.toList hmid
  rw [toList_reverse] at hlost
  refine ⟨handle.data.toList.foldl Heap.forget mid, ?_, hnext, ?_,
    forget_frame hframe hcells hlost, by rw [hcells, hlength]⟩
  · simp [overwriteData, getHandle_eq hobj, storeData, bind, Except.bind,
      hput, pure, Except.pure]
  · exact (objAt_congr hcells).mpr hnew

/-- What a stub's slot write takes from the ledger. -/
def SlotWrite.moved : SlotWrite → List Addr
  | .keep => []
  | .set data => data.toList
  | .overwrite data => [data]

/-- What the slot holds after a write. -/
def SlotWrite.result (old : Option Addr) : SlotWrite → Option Addr
  | .keep => old
  | .set data => data
  | .overwrite data => some data

/-- What a write loses. -/
def SlotWrite.loses (old : Option Addr) : SlotWrite → List Addr
  | .overwrite _ => old.toList
  | _ => []

theorem writeSlot_spec (write : SlotWrite)
    (hbalanced : Balanced heap (↑write.moved + own))
    (hobj : ObjAt heap handleAddr (.handle handle)) (hown : handleAddr ∈ own) :
    ∃ next, writeSlot heap write = .ok next ∧ Balanced next own ∧
      ObjAt next handleAddr
        (.handle { handle with data := write.result handle.data }) ∧
      Frame [handleAddr] (write.loses handle.data) heap next ∧
      next.cells.length = heap.cells.length := by
  cases write with
  | keep =>
      exact ⟨heap, rfl, hbalanced.congr (by simp [SlotWrite.moved]), hobj,
        Frame.refl _ heap, rfl⟩
  | set data => exact handleSetData_spec data own hbalanced hobj hown
  | overwrite data =>
      exact overwriteData_spec (hbalanced.congr (by simp [SlotWrite.moved]))
        hobj

/-- What a stub does: the slot is written, the arguments are released. -/
theorem slotStub_spec (write : SlotWrite) (released : List Addr)
    (hbalanced : Balanced heap (↑write.moved + (↑released + own)))
    (hobj : ObjAt heap handleAddr (.handle handle))
    (hown : handleAddr ∈ (↑released + own : Multiset Addr)) :
    ∃ next, slotStub write released heap = .ok next ∧ Balanced next own ∧
      (Live next handleAddr → ObjAt next handleAddr
        (.handle { handle with data := write.result handle.data })) ∧
      Frame [handleAddr] (write.loses handle.data) heap next ∧
      next.cells.length = heap.cells.length := by
  obtain ⟨mid, hmid, hbalanced₁, hobj₁, hframe₁, hlength₁⟩ :=
    writeSlot_spec write hbalanced hobj hown
  obtain ⟨next, hnext, hbalanced₂, hframe₂, hlength₂⟩ :=
    decrefAll_spec released hbalanced₁
  refine ⟨next, ?_, hbalanced₂, ?_,
    hframe₁.trans (hframe₂.mono (List.nil_subset _)),
    hlength₂.trans hlength₁⟩
  · simp [slotStub, bind, Except.bind, hmid, hnext]
  · exact fun hlive => hframe₂.keeps.objAt hobj₁ (by simp) hlive

/-- A made handle takes the loop when libuv accepts it. -/
theorem uvInit_spec (accepted : Bool) (hbalanced : Balanced heap own)
    (hobj : ObjAt heap handleAddr (.handle handle))
    (hloop : handle.loop = none) {own' : Multiset Addr}
    (hown : own' + (if accepted ∧ handle.kind ≠ .tty then {loopAddr} else 0) =
      own) :
    ∃ next, uvInit heap accepted = .ok next ∧ Balanced next own' ∧
      ObjAt next handleAddr (.handle { handle with
        loop := if accepted then some loopAddr else none }) ∧
      Frame [handleAddr] [] heap next ∧
      next.cells.length = heap.cells.length := by
  cases accepted with
  | false =>
      obtain ⟨kind, loop, data⟩ := handle
      subst hloop
      exact ⟨heap, rfl, hbalanced.congr (by simpa using hown.symm), hobj,
        Frame.refl _ heap, rfl⟩
  | true =>
      obtain ⟨next, hput, hnext, hnew, hframe, -, hlength⟩ :=
        put_frame (.handle { handle with loop := some loopAddr })
          own' hbalanced hobj
          (by
            rw [coe_refs_handle, coe_refs_handle, ← hown]
            by_cases htty : handle.kind = .tty
            · simp [HandleObj.loopRefs, htty]
            · simp only [HandleObj.loopRefs, htty, hloop, ne_eq,
                not_false_eq_true, and_self, ↓reduceIte, Option.toList_some,
                Option.toList_none, Multiset.coe_singleton, Multiset.coe_nil]
              abel)
          (fun _ heq => ⟨handle, rfl, by cases heq; rfl⟩)
      refine ⟨next, ?_, hnext, hnew, hframe, hlength⟩
      simp [uvInit, getHandle_eq hobj, bind, Except.bind, hput]

theorem initStub_spec (write : SlotWrite) (released : List Addr)
    (accepted : Bool) {own' : Multiset Addr}
    (hbalanced : Balanced heap (↑write.moved + own'))
    (hobj : ObjAt heap handleAddr (.handle handle))
    (hloop : handle.loop = none)
    (hown : (↑released + own) +
      (if accepted ∧ handle.kind ≠ .tty then {loopAddr} else 0) = own')
    (hmem : handleAddr ∈ own') :
    ∃ next, initStub write released accepted heap = .ok next ∧
      Balanced next own ∧
      (Live next handleAddr → ObjAt next handleAddr
        (.handle ⟨handle.kind, if accepted then some loopAddr else none,
          write.result handle.data⟩)) ∧
      Frame [handleAddr] (write.loses handle.data) heap next ∧
      next.cells.length = heap.cells.length := by
  obtain ⟨first, hfirst, hbalanced₁, hobj₁, hframe₁, hlength₁⟩ :=
    writeSlot_spec write hbalanced hobj hmem
  obtain ⟨second, hsecond, hbalanced₂, hobj₂, hframe₂, hlength₂⟩ :=
    uvInit_spec accepted hbalanced₁ hobj₁ hloop hown
  obtain ⟨next, hnext, hbalanced₃, hframe₃, hlength₃⟩ :=
    decrefAll_spec released hbalanced₂
  refine ⟨next, ?_, hbalanced₃, ?_,
    (hframe₁.trans hframe₂).trans (hframe₃.mono (List.nil_subset _)), by omega⟩
  · simp [initStub, bind, Except.bind, hfirst, hsecond, hnext]
  · exact fun hlive => hframe₃.keeps.objAt hobj₂ (by simp) hlive

end Slot

section Trampolines

variable {heap : Heap Obj} {own : Multiset Addr} {handle : HandleObj}

theorem expectClosure_eq {type : CallbackType} {cb : Addr}
    {captures : List Addr} (hcb : ObjAt heap cb (.closure type captures)) :
    expectClosure heap type (some cb) = .ok cb := by
  simp [expectClosure, derefData, hcb.get, bind, Except.bind, pure,
    Except.pure]

theorem expectReceiver_eq {type : ReceiverType} {addr : Addr}
    {receive : ReceiveData} (hdata : ObjAt heap addr (.receiver type receive)) :
    expectReceiver heap type (some addr) = .ok (addr, receive) := by
  simp [expectReceiver, derefData, hdata.get, bind, Except.bind, pure,
    Except.pure]

/-- Two references are taken: one to the closure, one to the handle. -/
theorem increfBoth_spec {cb : Addr} (hbalanced : Balanced heap own)
    (hcb : Live heap cb) (hobj : ObjAt heap handleAddr (.handle handle)) :
    ∃ mid next, heap.incref cb = .ok mid ∧ mid.incref handleAddr = .ok next ∧
      Balanced next (handleAddr ::ₘ cb ::ₘ own) ∧ Extends heap next ∧
      next.cells.length = heap.cells.length := by
  obtain ⟨mid, hmid, hbalanced₁, hext₁, hlength₁⟩ :=
    incref_extends hbalanced hcb
  obtain ⟨next, hnext, hbalanced₂, hext₂, hlength₂⟩ :=
    incref_extends hbalanced₁ (hext₁.objAt _ _ hobj).live
  exact ⟨mid, next, hmid, hnext, hbalanced₂, hext₁.trans hext₂,
    hlength₂.trans hlength₁⟩

theorem closureCb_spec {type : CallbackType} {cb : Addr}
    {captures : List Addr} (hbalanced : Balanced heap own)
    (hobj : ObjAt heap handleAddr (.handle handle))
    (hdata : handle.data = some cb)
    (hcb : ObjAt heap cb (.closure type captures)) :
    ∃ next, closureCb heap type = .ok (next, cb) ∧
      Balanced next (handleAddr ::ₘ cb ::ₘ own) ∧ Extends heap next ∧
      next.cells.length = heap.cells.length := by
  obtain ⟨mid, next, hmid, hnext, hbalanced', hext, hlength⟩ :=
    increfBoth_spec hbalanced hcb.live hobj
  refine ⟨next, ?_, hbalanced', hext, hlength⟩
  simp [closureCb, getHandle_eq hobj, hdata, expectClosure_eq hcb, bind,
    Except.bind, hmid, hnext, pure, Except.pure]

theorem alloc_new {heap heap' : Heap Obj} {obj obj' : Obj} {addr : Addr}
    (hlength : heap'.cells.length = (heap.alloc obj).1.cells.length)
    (hle : heap.cells.length ≤ addr) (hobj : ObjAt heap' addr obj') :
    addr = heap.cells.length := by
  have hlt := hobj.lt_length
  rw [hlength] at hlt
  simp only [Heap.alloc, List.length_append, List.length_singleton] at hlt
  exact Nat.le_antisymm (Nat.lt_succ_iff.mp hlt) hle

theorem fsPollCb_spec {cb : Addr} {captures : List Addr}
    (hbalanced : Balanced heap own)
    (hobj : ObjAt heap handleAddr (.handle handle))
    (hdata : handle.data = some cb)
    (hcb : ObjAt heap cb (.closure .fsPoll captures)) :
    ∃ next stats, fsPollCb heap = .ok (next, cb, stats) ∧
      Balanced next (↑(handleAddr :: cb :: stats) + own) ∧
      Extends heap next ∧
      ∀ addr obj, heap.cells.length ≤ addr → ObjAt next addr obj →
        refs obj = [] := by
  obtain ⟨first, hfirst, hbalanced₁, hext₁, hlength₁⟩ :=
    closureCb_spec hbalanced hobj hdata hcb
  obtain ⟨hbalanced₂, hnew₂, hext₂⟩ := alloc_bytes_spec hbalanced₁
  obtain ⟨hbalanced₃, hnew₃, hext₃⟩ := alloc_bytes_spec hbalanced₂
  refine ⟨((first.alloc .bytes).1.alloc .bytes).1,
    [first.cells.length, (first.alloc .bytes).1.cells.length], ?_, ?_,
    (hext₁.trans hext₂).trans hext₃, ?_⟩
  · simp [fsPollCb, hfirst, bind, Except.bind, pure, Except.pure, Heap.alloc]
  · refine hbalanced₃.congr ?_
    simp only [← Multiset.cons_coe, ← Multiset.singleton_add,
      Multiset.coe_nil]
    abel
  · intro addr obj hle hobj
    rw [← hlength₁] at hle
    by_cases hsecond : (first.alloc .bytes).1.cells.length ≤ addr
    · obtain rfl := alloc_new rfl hsecond hobj
      rw [hobj.unique hnew₃]
      rfl
    · have hback := hext₃.frame.keeps.objAt_old addr obj
        (Nat.not_le.mp hsecond) (by simp) hobj
      obtain rfl := alloc_new rfl hle hback
      rw [hback.unique hnew₂]
      rfl

/-- Taking the contents of the slot: the reference moves to the ledger. -/
theorem takeData_spec {data : Addr} (hbalanced : Balanced heap own)
    (hobj : ObjAt heap handleAddr (.handle handle))
    (hdata : handle.data = some data) :
    ∃ next, storeData heap handle none = .ok next ∧
      Balanced next (data ::ₘ own) ∧
      ObjAt next handleAddr (.handle { handle with data := none }) ∧
      Frame [handleAddr] [] heap next ∧
      (∀ other obj, other ≠ handleAddr → ObjAt heap other obj →
        ObjAt next other obj) ∧
      next.cells.length = heap.cells.length :=
  put_frame _ _ hbalanced hobj
    (by
      rw [coe_refs_handle, coe_refs_handle, hdata, ← Multiset.singleton_add]
      simp only [HandleObj.loopRefs_with, Option.toList_some,
        Option.toList_none, Multiset.coe_singleton, Multiset.coe_nil]
      abel)
    (fun _ heq => ⟨handle, rfl, by cases heq; rfl⟩)

theorem ObjAt.ne_handleAddr {addr : Addr} {obj : Obj}
    (hobj : ObjAt heap handleAddr (.handle handle))
    (hother : ObjAt heap addr obj) (hne : ∀ handle, obj ≠ .handle handle) :
    addr ≠ handleAddr := by
  intro heq
  subst heq
  exact hne handle (hother.unique hobj)

theorem exitCb_none (hobj : ObjAt heap handleAddr (.handle handle))
    (hdata : handle.data = none) : exitCb heap = .ok (heap, none) := by
  simp [exitCb, getHandle_eq hobj, hdata, bind, Except.bind, pure,
    Except.pure]

theorem exitCb_spec {cb : Addr} {captures : List Addr}
    (hbalanced : Balanced heap own)
    (hobj : ObjAt heap handleAddr (.handle handle))
    (hdata : handle.data = some cb)
    (hcb : ObjAt heap cb (.closure .exit captures)) :
    ∃ next, exitCb heap = .ok (next, some cb) ∧
      Balanced next (handleAddr ::ₘ cb ::ₘ own) ∧
      ObjAt next handleAddr (.handle { handle with data := none }) ∧
      Frame [handleAddr] [] heap next ∧
      next.cells.length = heap.cells.length := by
  obtain ⟨mid, hmid, hbalanced₁, hobj₁, hframe₁, -, hlength₁⟩ :=
    takeData_spec hbalanced hobj hdata
  obtain ⟨next, hnext, hbalanced₂, hext₂, hlength₂⟩ :=
    incref_extends hbalanced₁ hobj₁.live
  refine ⟨next, ?_, hbalanced₂, hext₂.objAt _ _ hobj₁,
    hframe₁.trans (hext₂.frame.mono (List.nil_subset _)),
    hlength₂.trans hlength₁⟩
  simp [exitCb, getHandle_eq hobj, hdata, expectClosure_eq hcb, bind,
    Except.bind, hmid, hnext, pure, Except.pure]

/-- The close trampoline releases one reference to the handle. -/
theorem closeCb_spec {cb : Addr} {captures : List Addr}
    (hbalanced : Balanced heap (handleAddr ::ₘ own))
    (hobj : ObjAt heap handleAddr (.handle handle))
    (hdata : handle.data = some cb)
    (hcb : ObjAt heap cb (.closure .close captures)) :
    ∃ next, closeCb heap = .ok (next, cb) ∧ Balanced next (cb ::ₘ own) ∧
      (Live next handleAddr →
        ObjAt next handleAddr (.handle { handle with data := none })) ∧
      Frame [handleAddr] [] heap next ∧
      next.cells.length = heap.cells.length := by
  obtain ⟨mid, hmid, hbalanced₁, hobj₁, hframe₁, hsame₁, hlength₁⟩ :=
    takeData_spec hbalanced hobj hdata
  obtain ⟨next, hnext, hbalanced₂, hframe₂, hlength₂⟩ :=
    decref_frame handleAddr (cb ::ₘ own)
      (hbalanced₁.congr (Multiset.cons_swap _ _ _))
  have hne : cb ≠ handleAddr :=
    ObjAt.ne_handleAddr hobj hcb (by intro _ h; cases h)
  have hcb₂ : ObjAt next cb (.closure .close captures) :=
    hframe₂.keeps.objAt (hsame₁ _ _ hne hcb) (by simp)
      (hbalanced₂.live (Multiset.mem_cons_self cb own))
  refine ⟨next, ?_, hbalanced₂,
    fun hlive => hframe₂.keeps.objAt hobj₁ (by simp) hlive,
    hframe₁.trans (hframe₂.mono (List.nil_subset _)),
    hlength₂.trans hlength₁⟩
  simp [closeCb, getHandle_eq hobj, hdata, expectClosure_eq hcb₂, bind,
    Except.bind, hmid, hnext, pure, Except.pure]

/-- The reference that the stream trampoline takes out of the slot while the
user's alloc callback runs. -/
def savedData (type : ReceiverType) (data : Addr) : List Addr :=
  match type with
  | .stream => [data]
  | .udp => []

/-- What the slot holds meanwhile. -/
def slotWhileAllocating (type : ReceiverType) (data : Addr) : Option Addr :=
  match type with
  | .stream => none
  | .udp => some data

theorem allocCbEnter_spec {type : ReceiverType} {data : Addr}
    {receive : ReceiveData} (hbalanced : Balanced heap own)
    (hobj : ObjAt heap handleAddr (.handle handle))
    (hdata : handle.data = some data)
    (hreceive : ObjAt heap data (.receiver type receive)) :
    ∃ next, allocCbEnter heap type = .ok (next, data, receive.allocCb) ∧
      Balanced next (↑(savedData type data) +
        handleAddr ::ₘ receive.allocCb ::ₘ own) ∧
      ObjAt next handleAddr
        (.handle { handle with data := slotWhileAllocating type data }) ∧
      ObjAt next data (.receiver type receive) ∧
      Frame [handleAddr] [] heap next ∧
      next.cells.length = heap.cells.length := by
  have hne : data ≠ handleAddr :=
    ObjAt.ne_handleAddr hobj hreceive (by intro _ h; cases h)
  cases type with
  | stream =>
      obtain ⟨first, hfirst, hbalanced₁, hobj₁, hframe₁, hsame₁, hlength₁⟩ :=
        takeData_spec hbalanced hobj hdata
      have hreceive₁ := hsame₁ _ _ hne hreceive
      obtain ⟨mid, next, hmid, hnext, hbalanced₂, hext, hlength₂⟩ :=
        increfBoth_spec hbalanced₁
          (hbalanced₁.live_of_refs hreceive₁ (allocCb_mem .stream receive)) hobj₁
      refine ⟨next, ?_, hbalanced₂.congr ?_, hext.objAt _ _ hobj₁,
        hext.objAt _ _ hreceive₁,
        hframe₁.trans (hext.frame.mono (List.nil_subset _)),
        hlength₂.trans hlength₁⟩
      · simp [allocCbEnter, getHandle_eq hobj, hdata,
          expectReceiver_eq hreceive, bind, Except.bind, hfirst, hmid, hnext,
          pure, Except.pure]
      · simp only [savedData, Multiset.coe_singleton,
          ← Multiset.singleton_add]
        abel
  | udp =>
      obtain ⟨mid, next, hmid, hnext, hbalanced₂, hext, hlength₂⟩ :=
        increfBoth_spec hbalanced
          (hbalanced.live_of_refs hreceive (allocCb_mem .udp receive)) hobj
      refine ⟨next, ?_, hbalanced₂.congr (by simp [savedData]), ?_,
        hext.objAt _ _ hreceive, hext.frame.mono (List.nil_subset _), hlength₂⟩
      · simp [allocCbEnter, getHandle_eq hobj, hdata,
          expectReceiver_eq hreceive, bind, Except.bind, hmid, hnext,
          pure, Except.pure]
      · rw [slotWhileAllocating, ← hdata]
        exact hext.objAt _ _ hobj

/-- Writing the buffer field of receiver data; what it held is lost. -/
theorem storeBytes_spec {type : ReceiverType} {data buffer : Addr}
    {receive : ReceiveData} (hbalanced : Balanced heap (buffer ::ₘ own))
    (hreceive : ObjAt heap data (.receiver type receive)) :
    ∃ next, storeBytes heap type data (some buffer) = .ok next ∧
      Balanced next own ∧
      ObjAt next data (.receiver type { receive with bytes := some buffer }) ∧
      Frame [data] receive.bytes.toList heap next ∧
      (∀ other obj, other ≠ data → ObjAt heap other obj →
        ObjAt next other obj) ∧
      next.cells.length = heap.cells.length := by
  obtain ⟨mid, hput, hmid, hnew, hframe, hsame, hlength⟩ :=
    put_frame (.receiver type { receive with bytes := some buffer })
      (↑receive.bytes.toList + own) hbalanced hreceive
      (by
        rw [refs_receiver, refs_receiver, ← Multiset.singleton_add]
        simp only [← Multiset.coe_add, Option.toList_some,
          Multiset.coe_singleton]
        abel)
      (by intro _ h; cases h)
  obtain ⟨hnext, hcells, hlost⟩ := foldl_forget_spec receive.bytes.toList hmid
  rw [toList_reverse] at hlost
  refine ⟨receive.bytes.toList.foldl Heap.forget mid, ?_, hnext,
    (objAt_congr hcells).mpr hnew, forget_frame hframe hcells hlost,
    fun other obj hne hother => (objAt_congr hcells).mpr
      (hsame other obj hne hother), by rw [hcells, hlength]⟩
  simp [storeBytes, hreceive.get, bind, Except.bind, hput, pure, Except.pure]

theorem allocCbLeave_udp_spec {data buffer : Addr} {receive : ReceiveData}
    (hbalanced : Balanced heap (buffer ::ₘ own))
    (hreceive : ObjAt heap data (.receiver .udp receive)) :
    ∃ next, allocCbLeave heap .udp data buffer = .ok next ∧
      Balanced next own ∧
      ObjAt next data (.receiver .udp { receive with bytes := some buffer }) ∧
      Frame [data] receive.bytes.toList heap next ∧
      (∀ other obj, other ≠ data → ObjAt heap other obj →
        ObjAt next other obj) ∧
      next.cells.length = heap.cells.length := by
  obtain ⟨next, hrun, hnext⟩ := storeBytes_spec hbalanced hreceive
  refine ⟨next, ?_, hnext⟩
  simp [allocCbLeave, hrun, bind, Except.bind, pure, Except.pure]

/-- The stream trampoline puts the data it remembered back. -/
theorem allocCbLeave_stream_spec {data buffer : Addr} {receive : ReceiveData}
    (hbalanced : Balanced heap (buffer ::ₘ data ::ₘ own))
    (hobj : ObjAt heap handleAddr (.handle handle))
    (hreceive : ObjAt heap data (.receiver .stream receive))
    (hown : handleAddr ∈ own) :
    ∃ next, allocCbLeave heap .stream data buffer = .ok next ∧
      Balanced next own ∧
      ObjAt next handleAddr (.handle { handle with data := some data }) ∧
      ObjAt next data
        (.receiver .stream { receive with bytes := some buffer }) ∧
      Frame [handleAddr, data] receive.bytes.toList heap next ∧
      next.cells.length = heap.cells.length := by
  have hne : data ≠ handleAddr :=
    ObjAt.ne_handleAddr hobj hreceive (by intro _ h; cases h)
  obtain ⟨mid, hmid, hbalanced₁, hreceive₁, hframe₁, hsame₁, hlength₁⟩ :=
    storeBytes_spec hbalanced hreceive
  obtain ⟨next, hnext, hbalanced₂, hobj₂, hframe₂, hlength₂⟩ :=
    handleSetData_spec (some data) own
      (hbalanced₁.congr (by simp)) (hsame₁ _ _ hne.symm hobj) hown
  have hlive : Live next data := hbalanced₂.live_of_refs hobj₂ (by
    rw [refs_handle]
    simp)
  refine ⟨next, ?_, hbalanced₂, hobj₂,
    hframe₂.keeps.objAt hreceive₁ (by simpa using hne) hlive,
    (hframe₁.mono (by simp)).trans (hframe₂.mono (by simp)), by omega⟩
  simp [allocCbLeave, hmid, hnext, bind, Except.bind]

/-- The read trampolines move the buffer to the user. -/
theorem readCb_spec {type : ReceiverType} {data : Addr}
    {receive : ReceiveData} (hbalanced : Balanced heap own)
    (hobj : ObjAt heap handleAddr (.handle handle))
    (hdata : handle.data = some data)
    (hreceive : ObjAt heap data (.receiver type receive)) :
    ∃ next, readCb heap type = .ok (next, receive.readCb, receive.bytes) ∧
      Balanced next (↑(handleAddr :: receive.readCb ::
        receive.bytes.toList) + own) ∧
      ObjAt next handleAddr (.handle handle) ∧
      ObjAt next data (.receiver type { receive with bytes := none }) ∧
      Frame [data] [] heap next ∧
      next.cells.length = heap.cells.length := by
  have hne : data ≠ handleAddr :=
    ObjAt.ne_handleAddr hobj hreceive (by intro _ h; cases h)
  obtain ⟨first, hfirst, hbalanced₁, hreceive₁, hframe₁, hsame₁, hlength₁⟩ :=
    put_frame (.receiver type { receive with bytes := none })
      (↑receive.bytes.toList + own) hbalanced hreceive
      (by
        rw [refs_receiver, refs_receiver]
        simp only [← Multiset.coe_add, Option.toList_none, Multiset.coe_nil]
        abel)
      (by intro _ h; cases h)
  have hobj₁ := hsame₁ _ _ hne.symm hobj
  obtain ⟨mid, next, hmid, hnext, hbalanced₂, hext, hlength₂⟩ :=
    increfBoth_spec hbalanced₁
      (hbalanced₁.live_of_refs hreceive₁ (readCb_mem type _)) hobj₁
  refine ⟨next, ?_, hbalanced₂.congr ?_, hext.objAt _ _ hobj₁,
    hext.objAt _ _ hreceive₁,
    hframe₁.trans (hext.frame.mono (List.nil_subset _)),
    hlength₂.trans hlength₁⟩
  · simp [readCb, getHandle_eq hobj, hdata, expectReceiver_eq hreceive, bind,
      Except.bind, hfirst, hmid, hnext, pure, Except.pure]
  · simp [← Multiset.cons_coe]

/-- The UDP trampoline needs an address. -/
theorem udpRecvCb_no_address {data : Addr} {receive : ReceiveData}
    (hbalanced : Balanced heap own)
    (hobj : ObjAt heap handleAddr (.handle handle))
    (hdata : handle.data = some data)
    (hreceive : ObjAt heap data (.receiver .udp receive)) :
    udpRecvCb heap false = .error .nullArgument := by
  obtain ⟨next, hrun, -⟩ := readCb_spec hbalanced hobj hdata hreceive
  simp [udpRecvCb, hrun, bind, Except.bind, throw, throwThe,
    MonadExceptOf.throw]

theorem udpRecvCb_spec {data : Addr} {receive : ReceiveData}
    (hbalanced : Balanced heap own)
    (hobj : ObjAt heap handleAddr (.handle handle))
    (hdata : handle.data = some data)
    (hreceive : ObjAt heap data (.receiver .udp receive)) :
    ∃ next copied, udpRecvCb heap true =
        .ok (next, receive.readCb, receive.bytes.toList ++ [copied]) ∧
      Balanced next (↑(handleAddr :: receive.readCb ::
        (receive.bytes.toList ++ [copied])) + own) ∧
      ObjAt next handleAddr (.handle handle) ∧
      ObjAt next data (.receiver .udp { receive with bytes := none }) ∧
      Frame [data] [] heap next ∧
      ∀ addr obj, heap.cells.length ≤ addr → ObjAt next addr obj →
        refs obj = [] := by
  obtain ⟨mid, hmid, hbalanced₁, hobj₁, hreceive₁, hframe₁, hlength₁⟩ :=
    readCb_spec hbalanced hobj hdata hreceive
  obtain ⟨hbalanced₂, hnew₂, hext₂⟩ := alloc_bytes_spec hbalanced₁
  refine ⟨(mid.alloc .bytes).1, mid.cells.length, ?_, hbalanced₂.congr ?_,
    hext₂.objAt _ _ hobj₁, hext₂.objAt _ _ hreceive₁,
    hframe₁.trans (hext₂.frame.mono (List.nil_subset _)), ?_⟩
  · simp [udpRecvCb, hmid, bind, Except.bind, pure, Except.pure, Heap.alloc]
  · simp only [← Multiset.cons_coe, ← Multiset.singleton_add,
      ← Multiset.coe_add, Multiset.coe_nil]
    abel
  · intro addr obj hle hobj
    obtain rfl := alloc_new rfl (hlength₁ ▸ hle) hobj
    rw [hobj.unique hnew₂]
    rfl

end Trampolines

end UvMbt
