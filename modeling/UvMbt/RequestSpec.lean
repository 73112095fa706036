/-
What each stub and each trampoline of a request does to a balanced heap: which
references move between the ledger, the request and its box.
-/
import Mathlib.Data.List.ReduceOption
import UvMbt.RequestRun

set_option autoImplicit false

namespace UvMbt.Requests

open RefHeap

@[simp] theorem refs_object (held : List Addr) :
    refs (Obj.object held) = held := by
  simp [refs, Ownership.drops, Ownership.leaks]

@[simp] theorem refs_data (data : Data) :
    refs (Obj.data data) = data.payload.toList ++ data.cb.toList := by
  simp [refs, Ownership.drops, Ownership.leaks]

@[simp] theorem refs_request (request : Request) :
    refs (Obj.request request) = request.drops := by
  simp [refs, Ownership.drops, Ownership.leaks]

theorem sealed (heap : Heap Obj) : Sealed heap :=
  fun _ _ _ => rfl

theorem boxed_finalizes {type : ReqType} (hboxed : type.boxed = true) :
    type.finalizes = true := by
  cases type <;> simp_all [ReqType.boxed, ReqType.finalizes]

theorem ownsLoop_finalizes {type : ReqType} (howns : type.ownsLoop = true) :
    type.finalizes = true := by
  cases type <;> simp_all [ReqType.ownsLoop, ReqType.finalizes]

/-- A request has a payload exactly when its type has a box. -/
theorem Operation.payload_isSome (operation : Operation Addr) :
    operation.submission.payload.isSome = operation.submission.type.boxed := by
  cases operation <;> rfl

variable {heap : Heap Obj} {own : Multiset Addr} {req : Addr}

section Stubs

theorem getRequest_eq {request : Request}
    (hobj : ObjAt heap req (.request request)) :
    getRequest heap req = .ok request := by
  simp [getRequest, hobj.get, bind, Except.bind, pure, Except.pure]

theorem getData_eq {data : Data} (hobj : ObjAt heap req (.data data)) :
    getData heap req = .ok data := by
  simp [getData, hobj.get, bind, Except.bind, pure, Except.pure]

/-- Releasing what the ledger owns, when no argument is `NULL`. -/
theorem releaseAll_spec {released : List (Option Addr)}
    (hbalanced : Balanced heap (↑released.reduceOption + own))
    (hsome : none ∉ released) :
    ∃ next, releaseAll heap released = .ok next ∧ Balanced next own ∧
      Keeps [] heap next ∧ next.cells.length = heap.cells.length ∧
        next.lost = heap.lost := by
  induction released generalizing heap with
  | nil =>
      exact ⟨heap, rfl, hbalanced.congr (by simp [List.reduceOption]),
        Keeps.refl [] heap, rfl, rfl⟩
  | cons head rest ih =>
      cases head with
      | none => simp at hsome
      | some addr =>
          have hhead : Balanced heap
              (addr ::ₘ (↑rest.reduceOption + own)) :=
            hbalanced.congr (by simp [← Multiset.cons_coe])
          obtain ⟨mid, hmid, hbalanced'⟩ := decref_spec hhead
          obtain ⟨hkeeps, hlength, hlost⟩ := decref_keeps hmid
          obtain ⟨next, hnext, hbalanced'', hkeeps', hlength', hlost'⟩ :=
            ih hbalanced' (fun hmem => hsome (List.mem_cons_of_mem _ hmem))
          refine ⟨next, ?_, hbalanced'', hkeeps.trans hkeeps',
            hlength'.trans hlength, hlost'.trans (hlost (sealed heap))⟩
          simp [releaseAll, hmid, hnext, bind, Except.bind]

/-- Writing a field of a request that was `NULL`: what the request now owns
comes out of the ledger. -/
theorem put_request {old : Request} (new : Request) (gain : List Addr)
    (hbalanced : Balanced heap (↑gain + own))
    (hobj : ObjAt heap req (.request old))
    (hdrops : (↑new.drops : Multiset Addr) = ↑gain + ↑old.drops) :
    ∃ next, heap.put req (.request new) = .ok next ∧ Balanced next own ∧
      ObjAt next req (.request new) ∧ Rewrites [req] heap next ∧
        next.cells.length = heap.cells.length := by
  refine put_rewrites (.request new) own hbalanced hobj ?_
  rw [refs_request, refs_request, hdrops]
  abel

/-- What the data field counts for. -/
def dataRefs (type : ReqType) (data : Addr) : List Addr :=
  if type.finalizes then [data] else []

theorem setData_spec {type : ReqType} {data : Addr}
    (hbalanced : Balanced heap (↑(dataRefs type data) + own))
    (hobj : ObjAt heap req (.request ⟨type, none, none, none⟩)) :
    ∃ next, setData heap req (some data) = .ok next ∧ Balanced next own ∧
      ObjAt next req (.request ⟨type, none, some data, none⟩) ∧
        Rewrites [req] heap next ∧ next.cells.length = heap.cells.length := by
  obtain ⟨next, hput, hnext⟩ := put_request ⟨type, none, some data, none⟩
    (dataRefs type data) hbalanced hobj (by
      cases htype : type.finalizes <;>
        simp [Request.drops, dataRefs, htype])
  refine ⟨next, ?_, hnext⟩
  simp [setData, getRequest_eq hobj, decrefOld, hput, bind, Except.bind]

theorem storeBufs_spec {sub : Submission Addr} {type : ReqType} {data : Addr}
    (hbalanced : Balanced heap (↑sub.bufs.toList + own))
    (hobj : ObjAt heap req (.request ⟨type, none, some data, none⟩)) :
    ∃ next, sub.storeBufs heap req = .ok next ∧ Balanced next own ∧
      ObjAt next req (.request ⟨type, none, some data, sub.bufs⟩) ∧
        Rewrites [req] heap next ∧ next.cells.length = heap.cells.length := by
  cases hbufs : sub.bufs with
  | none =>
      exact ⟨heap, by simp [Submission.storeBufs, hbufs],
        hbalanced.congr (by simp [hbufs]), hobj, Rewrites.refl [req] heap, rfl⟩
  | some bufs =>
      have hgain : Balanced heap (↑[bufs] + own) :=
        hbalanced.congr (by simp [hbufs])
      obtain ⟨next, hput, hnext⟩ :=
        put_request ⟨type, none, some data, some bufs⟩ [bufs] hgain hobj
          (by simp [Request.drops, ← Multiset.coe_add, add_comm])
      refine ⟨next, ?_, hnext⟩
      simp [Submission.storeBufs, hbufs, setBufs, getRequest_eq hobj,
        decrefOld, hput, bind, Except.bind]

/-- What the loop field counts for. -/
def loopRefs (type : ReqType) (loop : Option Addr) : List Addr :=
  if type.ownsLoop then loop.toList else []

theorem register_spec {sub : Submission Addr} {data : Addr} {bufs : Option Addr}
    (answer : Answer) (hbalanced : Balanced heap
      (↑(if answer.writes then loopRefs sub.type sub.loop else []) + own))
    (hobj : ObjAt heap req (.request ⟨sub.type, none, some data, bufs⟩)) :
    ∃ next, sub.register heap req answer = .ok next ∧ Balanced next own ∧
      ObjAt next req (.request
        ⟨sub.type, if answer.writes then sub.loop else none, some data, bufs⟩) ∧
        Rewrites [req] heap next ∧ next.cells.length = heap.cells.length := by
  cases hwrites : answer.writes with
  | false =>
      exact ⟨heap, by simp [Submission.register, hwrites],
        hbalanced.congr (by simp [hwrites]), hobj, Rewrites.refl [req] heap,
        rfl⟩
  | true =>
      have hgain : Balanced heap (↑(loopRefs sub.type sub.loop) + own) :=
        hbalanced.congr (by simp [hwrites])
      obtain ⟨next, hput, hnext⟩ :=
        put_request ⟨sub.type, sub.loop, some data, bufs⟩
          (loopRefs sub.type sub.loop) hgain hobj (by
            cases htype : sub.type.ownsLoop <;>
              simp [Request.drops, loopRefs, htype, ← Multiset.coe_add])
      refine ⟨next, ?_, hnext⟩
      simp [Submission.register, setLoop, hwrites, getRequest_eq hobj, hput,
        bind, Except.bind]

/-- What the request and its box take from the ledger. -/
def Submission.takes (sub : Submission Addr) (written : Bool) : List Addr :=
  sub.payload.toList ++ (if sub.type.finalizes then [sub.cb] else []) ++
    sub.bufs.toList ++ if written then loopRefs sub.type sub.loop else []

/-- The box of a submission, where it has one. -/
def Submission.box (sub : Submission Addr) : Option Data :=
  sub.payload.map fun payload => ⟨some payload, some sub.cb⟩

theorem box_boxed {sub : Submission Addr}
    (hboxed : sub.payload.isSome = sub.type.boxed) {box : Data}
    (hbox : box ∈ sub.box) : sub.type.boxed = true := by
  cases hpayload : sub.payload with
  | none => simp [Submission.box, hpayload] at hbox
  | some payload => rw [← hboxed, hpayload]; rfl

theorem makeData_spec (sub : Submission Addr)
    (hboxed : sub.payload.isSome = sub.type.boxed)
    (hbalanced : Balanced heap (↑sub.payload.toList +
      ↑(if sub.type.finalizes then [sub.cb] else []) + own)) :
    ∃ next data, sub.makeData heap = (next, data) ∧
      Balanced next (↑(dataRefs sub.type data) + own) ∧
      Rewrites [] heap next ∧
      data = (if sub.type.boxed then heap.cells.length else sub.cb) ∧
      next.cells.length = heap.cells.length + sub.box.toList.length ∧
      ∀ box ∈ sub.box, ObjAt next heap.cells.length (.data box) := by
  cases hpayload : sub.payload with
  | none =>
      have hbare : sub.type.boxed = false := by rw [← hboxed, hpayload]; rfl
      refine ⟨heap, sub.cb, by simp [Submission.makeData, hpayload], ?_,
        Rewrites.refl [] heap, by simp [hbare],
        by simp [Submission.box, hpayload], by simp [Submission.box, hpayload]⟩
      refine hbalanced.congr ?_
      simp [hpayload, dataRefs]
  | some payload =>
      have hbox : sub.type.boxed = true := by rw [← hboxed, hpayload]; rfl
      have hfinal := boxed_finalizes hbox
      have halloc : Balanced heap
          (↑(refs (Obj.data ⟨some payload, some sub.cb⟩)) + own) := by
        refine hbalanced.congr ?_
        simp [hpayload, hfinal, ← Multiset.cons_coe]
      obtain ⟨hnext, hobj, hrewrites⟩ := alloc_rewrites halloc
      refine ⟨_, _, by simp [Submission.makeData, hpayload]; rfl,
        hnext.congr (by simp [dataRefs, hfinal]), hrewrites, by simp [hbox],
        by simp [Heap.alloc, Submission.box, hpayload], ?_⟩
      intro box hmem
      simp only [Submission.box, hpayload, Option.map_some,
        Option.mem_some_iff] at hmem
      exact hmem ▸ hobj

/-- What a filled request looks like. -/
def Submission.filled (sub : Submission Addr) (data : Addr) (written : Bool) :
    Request :=
  ⟨sub.type, if written then sub.loop else none, some data, sub.bufs⟩

theorem fill_spec (sub : Submission Addr)
    (hboxed : sub.payload.isSome = sub.type.boxed) (answer : Answer)
    (hbalanced : Balanced heap (↑(sub.takes answer.writes) + own))
    (hobj : ObjAt heap req (.request ⟨sub.type, none, none, none⟩)) :
    ∃ next, sub.fill heap req answer = .ok next ∧ Balanced next own ∧
      Rewrites [req] heap next ∧
      next.cells.length = heap.cells.length + sub.box.toList.length ∧
      ObjAt next req (.request (sub.filled
        (if sub.type.boxed then heap.cells.length else sub.cb)
          answer.writes)) ∧
      ∀ box ∈ sub.box, ObjAt next heap.cells.length (.data box) := by
  have hstart : Balanced heap (↑sub.payload.toList +
      ↑(if sub.type.finalizes then [sub.cb] else []) +
        (↑sub.bufs.toList + (↑(if answer.writes then loopRefs sub.type sub.loop
          else []) + own))) := by
    refine hbalanced.congr ?_
    simp only [Submission.takes, ← Multiset.coe_add]
    abel
  obtain ⟨boxed, data, hmake, hboxed₁, hrewrites₁, hdata, hlength₁, hbox⟩ :=
    makeData_spec sub hboxed hstart
  obtain ⟨set, hset, hset₂, hobj₂, hrewrites₂, hlength₂⟩ :=
    setData_spec hboxed₁ (hrewrites₁.objAt hobj (by simp))
  obtain ⟨stored, hstore, hstored₃, hobj₃, hrewrites₃, hlength₃⟩ :=
    storeBufs_spec hset₂ hobj₂
  obtain ⟨next, hregister, hnext₄, hobj₄, hrewrites₄, hlength₄⟩ :=
    register_spec answer hstored₃ hobj₃
  have hafter := (hrewrites₂.trans hrewrites₃).trans hrewrites₄
  refine ⟨next, ?_, hnext₄,
    (hrewrites₁.mono (List.nil_subset _)).trans hafter, by omega,
    by simpa [Submission.filled, hdata] using hobj₄, ?_⟩
  · simp [Submission.fill, hmake, hset, hstore, hregister, bind, Except.bind]
  · intro box hmem
    refine hafter.objAt (hbox box hmem) ?_
    intro hreq
    exact Nat.ne_of_lt hobj.lt_length (List.mem_singleton.mp hreq).symm

/-- What the call takes is what the request takes, what libuv is left with and
what the stub releases. -/
theorem given_eq (sub : Submission Addr) (req : Addr) (written : Bool) :
    (req ::ₘ ↑sub.given : Multiset Addr) = ↑(sub.takes written) +
      (↑sub.released.reduceOption + ↑(sub.unheld req written)) := by
  simp only [Submission.given, Submission.stored, Submission.takes,
    Submission.unheld, loopRefs]
  cases hloop : sub.type.ownsLoop with
  | true =>
      have hfinal := ownsLoop_finalizes hloop
      cases written <;>
        simp only [hfinal, ↓reduceIte, Bool.not_true, Bool.not_false,
          Bool.and_false, Bool.and_true, Bool.false_eq_true, ← Multiset.coe_add,
          ← Multiset.cons_coe, Multiset.coe_nil, ← Multiset.singleton_add] <;>
        abel
  | false =>
      cases hfinal : sub.type.finalizes <;> cases written <;>
        simp only [↓reduceIte, Bool.false_and, Bool.false_eq_true,
          ← Multiset.coe_add, ← Multiset.cons_coe, Multiset.coe_nil,
          ← Multiset.singleton_add] <;>
        abel

theorem mem_drops_filled {sub : Submission Addr} {data : Addr} {written : Bool}
    {target : Addr} (hmem : target ∈ (sub.filled data written).drops) :
    target = data ∨ target ∈ sub.stored := by
  simp only [Submission.filled, Request.drops, List.mem_append] at hmem
  simp only [Submission.stored, List.mem_append, List.mem_cons]
  rcases hmem with (hloop | hdata) | hbufs
  · right; right
    cases howns : sub.type.ownsLoop <;> cases written <;> simp_all
  · cases hfinal : sub.type.finalizes <;> simp_all
  · exact Or.inr (Or.inl (Or.inr hbufs))

theorem mem_refs_box {sub : Submission Addr} {box : Data} (hbox : box ∈ sub.box)
    {target : Addr} (hmem : target ∈ refs (Obj.data box)) :
    target ∈ sub.stored := by
  cases hpayload : sub.payload with
  | none => simp [Submission.box, hpayload] at hbox
  | some payload =>
      simp only [Submission.box, hpayload, Option.map_some,
        Option.mem_some_iff] at hbox
      subst hbox
      simp only [refs_data, Option.toList_some, List.cons_append,
        List.nil_append, List.mem_cons, List.not_mem_nil, or_false] at hmem
      simp only [Submission.stored, hpayload, Option.toList_some,
        List.mem_append, List.mem_cons]
      rcases hmem with rfl | rfl
      · exact Or.inl (Or.inl (Or.inr (Or.inl rfl)))
      · exact Or.inl (Or.inl (Or.inl rfl))

/-- What a call leaves: the new request with its box, next to what there
was. -/
structure Entered (sub : Submission Addr) (written : Bool) (own : Multiset Addr)
    (heap next : Heap Obj) : Prop where
  balanced : Balanced next (↑(sub.unheld heap.cells.length written) + own)
  acyclic : Acyclic next
  keeps : Keeps [] heap next
  length_lt : heap.cells.length < next.cells.length
  lost_eq : next.lost = heap.lost
  request : ObjAt next heap.cells.length (.request (sub.filled
    (if sub.type.boxed then heap.cells.length + 1 else sub.cb) written))
  box : ∀ box ∈ sub.box, ObjAt next (heap.cells.length + 1) (.data box)

/-- The request ranks above its box, and both above what they were given. -/
theorem acyclic_filled {sub : Submission Addr} {filled : Heap Obj}
    (written : Bool) (hacyclic : Acyclic heap)
    (hbalanced : Balanced heap (↑sub.given + own))
    (hframe : Rewrites [] heap filled)
    (hlength : filled.cells.length =
      heap.cells.length + 1 + sub.box.toList.length)
    (hrequest : ObjAt filled heap.cells.length (.request (sub.filled
      (if sub.type.boxed then heap.cells.length + 1 else sub.cb) written)))
    (hbox : ∀ box ∈ sub.box,
      ObjAt filled (heap.cells.length + 1) (.data box)) : Acyclic filled := by
  have hold : ∀ target ∈ sub.stored, target < heap.cells.length :=
    fun target htarget => hbalanced.lt_of_mem
      (by simp [Submission.given, htarget])
  refine hacyclic.of_fresh hbalanced hframe
    (fun addr => if addr = heap.cells.length then 1 else 0) ?_
  intro source obj hle hobj target htarget
  by_cases hsource : source = heap.cells.length
  · subst hsource
    cases hobj.unique hrequest
    rcases mem_drops_filled (by simpa using htarget) with rfl | hstored
    · cases hboxed' : sub.type.boxed with
      | true => simp
      | false => exact Or.inl (hold _ (by simp [Submission.stored]))
    · exact Or.inl (hold target hstored)
  · have hlt := hobj.lt_length
    cases hpayload : sub.box with
    | none =>
        simp only [hlength, hpayload, Option.toList_none,
          List.length_nil, Nat.add_zero] at hlt
        exact absurd (Nat.le_antisymm (Nat.lt_succ_iff.mp hlt) hle) hsource
    | some box =>
        simp only [hlength, hpayload, Option.toList_some,
          List.length_singleton] at hlt
        have hsource' : source = heap.cells.length + 1 :=
          Nat.le_antisymm (Nat.lt_succ_iff.mp hlt)
            (Nat.lt_of_le_of_ne hle (Ne.symm hsource))
        subst hsource'
        cases hobj.unique (hbox box hpayload)
        exact Or.inl (hold target (mem_refs_box hpayload htarget))

theorem enter_spec (sub : Submission Addr)
    (hboxed : sub.payload.isSome = sub.type.boxed) (answer : Answer)
    (hsome : none ∉ sub.released) (hacyclic : Acyclic heap)
    (hbalanced : Balanced heap (↑sub.given + own)) :
    ∃ next, sub.enter heap answer = .ok (next, heap.cells.length) ∧
      Entered sub answer.writes (heap.cells.length ::ₘ own) heap next := by
  have hempty : Balanced heap
      (↑(refs (Obj.request ⟨sub.type, none, none, none⟩)) +
        (↑sub.given + own)) := by
    refine hbalanced.congr ?_
    simp [Request.drops]
  obtain ⟨hmade, hobj, hrewrites⟩ := alloc_rewrites hempty
  obtain ⟨kept, hincref, hkept, hrewrites', hlength⟩ :=
    incref_rewrites hmade hobj.live
  have hlengthMade : kept.cells.length = heap.cells.length + 1 := by
    rw [hlength]
    simp [Heap.alloc]
  have hledger : Balanced kept (↑(sub.takes answer.writes) +
      (↑sub.released.reduceOption +
        (↑(sub.unheld heap.cells.length answer.writes) +
          (heap.cells.length ::ₘ own)))) := by
    refine hkept.congr ?_
    have hgiven := given_eq sub heap.cells.length answer.writes
    calc heap.cells.length ::ₘ heap.cells.length ::ₘ (↑sub.given + own)
        = heap.cells.length ::ₘ ((heap.cells.length ::ₘ ↑sub.given) + own) := by
          rw [Multiset.cons_add]
      _ = _ := by
          rw [hgiven]
          simp only [← Multiset.singleton_add]
          abel
  obtain ⟨filled, hfill, hfilled, hrewrites₂, hlength₂, hrequest, hbox⟩ :=
    fill_spec sub hboxed answer hledger (hrewrites'.objAt hobj (by simp))
  obtain ⟨next, hrelease, hnext, hkeeps₃, hlength₃, hlost₃⟩ :=
    releaseAll_spec hfilled hsome
  have hframe : Rewrites [] heap filled :=
    (((hrewrites.trans hrewrites').mono (List.nil_subset _)).trans
      hrewrites₂).of_new (by simp)
  rw [hlengthMade] at hrequest hbox hlength₂
  have hacyclicFilled : Acyclic filled :=
    acyclic_filled answer.writes hacyclic hbalanced hframe hlength₂
      hrequest hbox
  have hlive : ObjAt next heap.cells.length _ :=
    hkeeps₃.objAt hrequest (by simp)
      (hnext.live (by simp [Submission.unheld]))
  refine ⟨next, ?_, hnext, hacyclicFilled.of_keeps hkeeps₃ hlength₃,
    hframe.keeps.trans hkeeps₃, by omega,
    hlost₃.trans hframe.lost_eq, hlive, ?_⟩
  · simp [Submission.enter, Submission.stub, hincref, hfill, hrelease, bind,
      Except.bind, pure, Except.pure]
  · intro box hmem
    refine hkeeps₃.objAt (hbox box hmem) (by simp)
      (hnext.live_of_refs hlive ?_)
    have hboxed' := box_boxed hboxed hmem
    simp [Submission.filled, Request.drops, hboxed', boxed_finalizes hboxed']

/-- The caller's reference to the request goes. -/
theorem Entered.decref {sub : Submission Addr} {written : Bool} {entered : Heap Obj}
    (hboxed : sub.payload.isSome = sub.type.boxed)
    (hentered : Entered sub written (heap.cells.length ::ₘ own) heap entered) :
    ∃ next, entered.decref heap.cells.length = .ok next ∧
      Entered sub written own heap next := by
  have hsplit : Balanced entered (heap.cells.length ::ₘ
      (↑(sub.unheld heap.cells.length written) + own)) := by
    refine hentered.balanced.congr ?_
    simp only [← Multiset.singleton_add]
    abel
  obtain ⟨next, hrun, hnext⟩ := decref_spec hsplit
  obtain ⟨hkeeps, hlength, hlost⟩ := decref_keeps hrun
  have hrequest : ObjAt next heap.cells.length _ :=
    hkeeps.objAt hentered.request (by simp)
      (hnext.live (by simp [Submission.unheld]))
  refine ⟨next, hrun, hnext, hentered.acyclic.of_keeps hkeeps hlength,
    hentered.keeps.trans hkeeps, hlength ▸ hentered.length_lt,
    (hlost (sealed _)).trans hentered.lost_eq, hrequest, ?_⟩
  intro box hmem
  refine hkeeps.objAt (hentered.box box hmem) (by simp)
    (hnext.live_of_refs hrequest ?_)
  have hboxed' := box_boxed hboxed hmem
  simp [Submission.filled, Request.drops, hboxed', boxed_finalizes hboxed']

/-- What the call stores is held by the request, by its box or by libuv. -/
theorem stored_cases {sub : Submission Addr}
    (hboxed : sub.payload.isSome = sub.type.boxed) (req : Addr)
    (written : Bool) {addr : Addr} (hmem : addr ∈ sub.stored) :
    addr ∈ sub.unheld req written ∨
      addr ∈ (sub.filled (if sub.type.boxed then req + 1 else sub.cb)
        written).drops ∨ ∃ box ∈ sub.box, addr ∈ refs (Obj.data box) := by
  simp only [Submission.stored, List.mem_append, List.mem_cons] at hmem
  rcases hmem with ((rfl | hpayload) | hbufs) | hloop
  · cases hpayload : sub.payload with
    | some payload => simp [Submission.box, hpayload]
    | none =>
        have hbare : sub.type.boxed = false := by rw [← hboxed, hpayload]; rfl
        cases hfinal : sub.type.finalizes <;>
          simp [Submission.unheld, Submission.filled, Request.drops, hbare,
            hfinal]
  · right; right
    simp only [Option.mem_toList] at hpayload
    exact ⟨_, by rw [Submission.box, hpayload]; rfl, by simp⟩
  · right; left
    simp [Submission.filled, Request.drops, hbufs]
  · cases howns : sub.type.ownsLoop with
    | false => simp [howns] at hloop
    | true =>
        simp only [howns, ↓reduceIte] at hloop
        cases written <;>
          simp [Submission.unheld, Submission.filled, Request.drops, howns,
            hloop]

theorem Entered.stored_live {sub : Submission Addr} {written : Bool}
    {next : Heap Obj} (hboxed : sub.payload.isSome = sub.type.boxed)
    (hentered : Entered sub written own heap next) {addr : Addr}
    (hmem : addr ∈ sub.stored) : Live next addr := by
  have hbalanced := hentered.balanced
  rcases stored_cases hboxed heap.cells.length written hmem with
    hunheld | hrequest | ⟨box, hbox, hrefs⟩
  · exact hbalanced.live (Multiset.mem_add.mpr (Or.inl hunheld))
  · exact hbalanced.live_of_refs hentered.request (by simpa using hrequest)
  · exact hbalanced.live_of_refs (hentered.box box hbox) hrefs

/-- References that nobody releases any more. -/
theorem forget_all (leaks : List Addr)
    (hbalanced : Balanced heap (↑leaks + own)) :
    ∃ next, leaks.foldr (fun addr heap => heap.forget addr) heap = next ∧
      Balanced next own ∧ next.cells = heap.cells ∧
        next.lost = leaks ++ heap.lost := by
  induction leaks generalizing own with
  | nil => exact ⟨heap, rfl, hbalanced.congr (by simp), rfl, rfl⟩
  | cons addr rest ih =>
      have hrest : Balanced heap (↑rest + (addr ::ₘ own)) := by
        refine hbalanced.congr ?_
        simp [← Multiset.cons_coe]
      obtain ⟨next, hnext, hbalanced', hcells, hlost⟩ := ih hrest
      refine ⟨next.forget addr, by rw [List.foldr_cons, hnext],
        hbalanced'.forget, hcells, ?_⟩
      rw [Heap.forget, hlost, List.cons_append]

end Stubs

section Trampolines

/-- What the trampolines of a pending request find. -/
structure Shape (heap : Heap Obj) (pending : Pending) : Prop where
  request : ObjAt heap pending.req (.request ⟨pending.sub.type,
    pending.sub.loop, some pending.slot, pending.sub.bufs⟩)
  box : pending.sub.type.boxed → ObjAt heap (pending.req + 1)
    (.data ⟨pending.payload, some pending.sub.cb⟩)
  inHand : ∀ cb, pending.phase = .entered cb → cb.isSome

/-- The buffer that the completion trampoline passes on. -/
def Pending.buffer (pending : Pending) : Option Addr :=
  if pending.sub.type = .random then pending.payload else none

/-- The references that a completion takes out of the request. -/
def Pending.freed (pending : Pending) : List Addr :=
  (if pending.sub.type.finalizes then [pending.sub.cb] else []) ++
    pending.buffer.toList

variable {pending : Pending}

theorem slotCb_spec (hbalanced : Balanced heap own) (hacyclic : Acyclic heap)
    (hshape : Shape heap pending) (hbare : pending.sub.type.boxed = false)
    (hfinal : pending.sub.type.finalizes = true) :
    ∃ next, slotCb heap pending.req = .ok (next, pending.sub.cb) ∧
      Balanced next (↑[pending.sub.cb] + own) ∧ Acyclic next ∧
        Rewrites [pending.req] heap next ∧ Live next pending.req := by
  have hslot : pending.slot = pending.sub.cb := by simp [Pending.slot, hbare]
  have hobj := hshape.request
  rw [hslot] at hobj
  obtain ⟨next, hput, hnext, hacyclic', hobj', hrewrites, -⟩ := put_shrink
    (.request ⟨pending.sub.type, pending.sub.loop, none, pending.sub.bufs⟩)
    [pending.sub.cb] hbalanced hacyclic hobj (by
      simp only [refs_request, Request.drops, hfinal, ↓reduceIte,
        Option.toList_none, Option.toList_some, ← Multiset.coe_add]
      abel)
  refine ⟨next, ?_, hnext, hacyclic', hrewrites, hobj'.live⟩
  simp [slotCb, getRequest_eq hobj, hput, deref, bind, Except.bind, pure,
    Except.pure]

theorem connectCb_eq (hshape : Shape heap pending)
    (hbare : pending.sub.type.boxed = false) :
    connectCb heap pending.req = .ok (heap, pending.sub.cb) := by
  have hslot : pending.slot = pending.sub.cb := by simp [Pending.slot, hbare]
  simp [connectCb, getRequest_eq hshape.request, hslot, deref, bind,
    Except.bind, pure, Except.pure]

section Boxed

variable (hbalanced : Balanced heap own) (hacyclic : Acyclic heap)
  (hshape : Shape heap pending) (hboxed : pending.sub.type.boxed = true)

include hshape hboxed in
theorem getBox_eq :
    getRequest heap pending.req = .ok ⟨pending.sub.type, pending.sub.loop,
        some (pending.req + 1), pending.sub.bufs⟩ ∧
      getData heap (pending.req + 1) =
        .ok ⟨pending.payload, some pending.sub.cb⟩ := by
  have hslot : pending.slot = pending.req + 1 := by
    simp [Pending.slot, hboxed]
  have hobj := hshape.request
  rw [hslot] at hobj
  exact ⟨getRequest_eq hobj, getData_eq (hshape.box hboxed)⟩

include hbalanced hacyclic hshape hboxed in
theorem boxCb_spec :
    ∃ next, boxCb heap pending.req = .ok (next, pending.sub.cb) ∧
      Balanced next (↑[pending.sub.cb] + own) ∧ Acyclic next ∧
        Rewrites [pending.req + 1] heap next ∧
          Live next (pending.req + 1) := by
  obtain ⟨hrequest, hdata⟩ := getBox_eq hshape hboxed
  obtain ⟨next, hput, hnext, hacyclic', hobj', hrewrites, -⟩ := put_shrink
    (.data ⟨pending.payload, none⟩) [pending.sub.cb] hbalanced hacyclic
    (hshape.box hboxed) (by
      simp only [refs_data, Option.toList_none, Option.toList_some,
        ← Multiset.coe_add]
      abel)
  refine ⟨next, ?_, hnext, hacyclic', hrewrites, hobj'.live⟩
  simp [boxCb, hrequest, hdata, hput, deref, bind, Except.bind, pure,
    Except.pure]

include hbalanced hacyclic hshape hboxed in
theorem randomCb_spec :
    ∃ next, randomCb heap pending.req =
        .ok (next, pending.sub.cb, pending.payload) ∧
      Balanced next (↑([pending.sub.cb] ++ pending.payload.toList) + own) ∧
        Acyclic next ∧ Rewrites [pending.req + 1] heap next ∧
          Live next (pending.req + 1) := by
  obtain ⟨hrequest, hdata⟩ := getBox_eq hshape hboxed
  obtain ⟨next, hput, hnext, hacyclic', hobj', hrewrites, -⟩ := put_shrink
    (.data ⟨none, none⟩) ([pending.sub.cb] ++ pending.payload.toList)
    hbalanced hacyclic (hshape.box hboxed) (by
      simp only [refs_data, Option.toList_none, Option.toList_some,
        ← Multiset.coe_add, Multiset.coe_nil]
      abel)
  refine ⟨next, ?_, hnext, hacyclic', hrewrites, hobj'.live⟩
  simp [randomCb, hrequest, hdata, hput, deref, bind, Except.bind, pure,
    Except.pure]

include hbalanced hacyclic hshape hboxed in
theorem takeWork_spec :
    ∃ next, takeWork heap pending.req = .ok (next, pending.payload) ∧
      Balanced next (↑pending.payload.toList + own) ∧ Acyclic next ∧
        Rewrites [pending.req + 1] heap next ∧
          ObjAt next (pending.req + 1) (.data ⟨none, some pending.sub.cb⟩) := by
  obtain ⟨hrequest, hdata⟩ := getBox_eq hshape hboxed
  obtain ⟨next, hput, hnext, hacyclic', hobj', hrewrites, -⟩ := put_shrink
    (.data ⟨none, some pending.sub.cb⟩) pending.payload.toList hbalanced
    hacyclic (hshape.box hboxed) (by simp [← Multiset.coe_add])
  refine ⟨next, ?_, hnext, hacyclic', hrewrites, hobj'⟩
  simp [takeWork, hrequest, hdata, hput, deref, bind, Except.bind, pure,
    Except.pure]

end Boxed

theorem callWork_spec (hbalanced : Balanced heap own) (hlive : Live heap req)
    (cb : Addr) :
    ∃ next, callWork heap req (some cb) = .ok (next, cb) ∧
      Balanced next (req ::ₘ own) ∧ Rewrites [] heap next ∧
        next.cells.length = heap.cells.length := by
  obtain ⟨next, hincref, hnext, hrewrites, hlength⟩ :=
    incref_rewrites hbalanced hlive
  refine ⟨next, ?_, hnext, hrewrites, hlength⟩
  simp [callWork, hincref, deref, bind, Except.bind, pure, Except.pure]

/-- A completion hands the callback over, and rewrites the request or its box
without freeing anything. -/
theorem completionCb_spec (hbalanced : Balanced heap own)
    (hacyclic : Acyclic heap) (hshape : Shape heap pending) :
    ∃ next, completionCb heap pending.req pending.sub.type =
        .ok (next, pending.sub.cb, pending.buffer) ∧
      Balanced next (↑pending.freed + own) ∧ Acyclic next ∧
        ∃ changed, changed ⊆ [pending.req, pending.req + 1] ∧
          (pending.req + 1 ∈ changed → pending.sub.type.boxed) ∧
          Rewrites changed heap next ∧ ∀ addr ∈ changed, Live next addr := by
  cases htype : pending.sub.type with
  | connect =>
      have hrun := connectCb_eq hshape (by rw [htype]; rfl)
      refine ⟨heap, ?_, hbalanced.congr ?_, hacyclic, [], by simp, by simp,
        Rewrites.refl [] heap, by simp⟩
      · simp [completionCb, hrun, Pending.buffer, htype, bind, Except.bind,
          pure, Except.pure]
      · simp [Pending.freed, Pending.buffer, htype, ReqType.finalizes]
  | shutdown | fs | getaddrinfo | getnameinfo =>
      obtain ⟨next, hrun, hnext, hacyclic', hrewrites, hlive⟩ :=
        slotCb_spec hbalanced hacyclic hshape (by rw [htype]; rfl)
          (by rw [htype]; rfl)
      refine ⟨next, ?_, hnext.congr ?_, hacyclic', [pending.req], by simp,
        by simp, hrewrites, by simpa using hlive⟩
      · simp [completionCb, hrun, Pending.buffer, htype, bind, Except.bind,
          pure, Except.pure]
      · simp [Pending.freed, Pending.buffer, htype, ReqType.finalizes]
  | write | udpSend | work =>
      obtain ⟨next, hrun, hnext, hacyclic', hrewrites, hlive⟩ :=
        boxCb_spec hbalanced hacyclic hshape (by rw [htype]; rfl)
      refine ⟨next, ?_, hnext.congr ?_, hacyclic', [pending.req + 1],
        by simp, fun _ => rfl, hrewrites, by simpa using hlive⟩
      · simp [completionCb, hrun, Pending.buffer, htype, bind, Except.bind,
          pure, Except.pure]
      · simp [Pending.freed, Pending.buffer, htype, ReqType.finalizes]
  | random =>
      obtain ⟨next, hrun, hnext, hacyclic', hrewrites, hlive⟩ :=
        randomCb_spec hbalanced hacyclic hshape (by rw [htype]; rfl)
      refine ⟨next, ?_, hnext.congr ?_, hacyclic', [pending.req + 1],
        by simp, fun _ => rfl, hrewrites, by simpa using hlive⟩
      · simp [completionCb, hrun, Pending.buffer, htype]
      · simp [Pending.freed, Pending.buffer, htype, ReqType.finalizes]

theorem allocMany_spec (count : Nat) (hbalanced : Balanced heap own)
    (hacyclic : Acyclic heap) :
    Balanced (allocMany count heap).1 (↑(allocMany count heap).2 + own) ∧
      Acyclic (allocMany count heap).1 ∧
        Rewrites [] heap (allocMany count heap).1 := by
  induction count generalizing heap own with
  | zero =>
      exact ⟨hbalanced.congr (by simp [allocMany]), hacyclic,
        Rewrites.refl [] heap⟩
  | succ count ih =>
      have hempty : Balanced heap (↑(refs (Obj.object [])) + own) :=
        hbalanced.congr (by simp)
      obtain ⟨hnext, -, hrewrites⟩ := alloc_rewrites hempty
      obtain ⟨hrest, hacyclic', hrewrites'⟩ :=
        ih hnext (hacyclic.alloc hempty)
      refine ⟨hrest.congr ?_, hacyclic', hrewrites.trans hrewrites'⟩
      simp [allocMany, ← Multiset.cons_coe]

end Trampolines

end UvMbt.Requests
