/-
The life of a request: in every run in which no argument is missing, what a
request only borrows stays owned, no pipe is connected and no request cancelled
twice and no two threads count an object at once, every call raises or is
completed once, what libuv points to lives as long as it does so, and no
reference is lost but those of the calls that raise.
-/
import UvMbt.RequestSpec

set_option autoImplicit false

namespace UvMbt.Requests

open RefHeap GuardedRun

/-- The objects that libuv works on and does not own. -/
def Submission.outside (sub : Submission Addr) : List Addr :=
  sub.target.toList ++ sub.borrowed

structure Inv (s : State) : Prop where
  balanced : Balanced s.heap s.own
  lost_eq : s.heap.lost = s.raised.flatMap Raised.leaks
  acyclic : Acyclic s.heap
  shaped : ∀ pending ∈ s.pending, Shape s.heap pending
  outside : ∀ pending ∈ s.pending, ∀ addr ∈ pending.sub.outside,
    Live s.heap addr
  once : (s.completions.map Completion.key ++ s.pending.map Pending.key).Perm
    s.returned
  apart : (s.returned.map Prod.fst ++ s.raised.map Raised.req).Nodup
  fresh : ∀ req ∈ s.returned.map Prod.fst ++ s.raised.map Raised.req,
    req < s.heap.cells.length

theorem initial_inv : Inv State.initial where
  balanced := ⟨fun _ => rfl, fun _ _ hcell => by cases hcell⟩
  lost_eq := rfl
  acyclic := acyclic_empty
  shaped := by simp [State.initial]
  outside := by simp [State.initial]
  once := List.Perm.refl _
  apart := List.nodup_nil
  fresh := by simp [State.initial]

variable {s : State}

section Pending

variable {pending : Pending}

theorem req_mem_owned : pending.req ∈ pending.owned := by
  simp [Pending.owned, Submission.unheld]

theorem owned_le_own (hmem : pending ∈ s.pending) {addr : Addr}
    (haddr : addr ∈ pending.owned) : addr ∈ s.own := by
  refine Multiset.mem_add.mpr (Or.inr (Multiset.mem_coe.mpr ?_))
  exact List.mem_flatMap.mpr ⟨pending, hmem, haddr⟩

theorem user_le_own {addr : Addr} (haddr : addr ∈ s.user) : addr ∈ s.own :=
  Multiset.mem_add.mpr (Or.inl haddr)

/-- The ledger with one pending request set apart. -/
theorem own_of_mem (hmem : pending ∈ s.pending) :
    s.own = ↑pending.owned +
      (s.user + ↑((s.pending.erase pending).flatMap Pending.owned)) := by
  have hperm := (List.perm_cons_erase hmem).flatMap_right Pending.owned
  rw [State.own, Multiset.coe_eq_coe.mpr hperm, List.flatMap_cons,
    ← Multiset.coe_add]
  abel

theorem find_spec {req : Addr} (hfind : s.find req = some pending) :
    pending ∈ s.pending ∧ pending.req = req :=
  ⟨List.mem_of_find?_eq_some hfind, by simpa using List.find?_some hfind⟩

theorem Inv.pending_nodup (hinv : Inv s) :
    (s.pending.map Pending.req).Nodup := by
  have hreturned := (List.nodup_append.mp hinv.apart).1
  have hkeys := (hinv.once.map Prod.fst).nodup_iff.mpr hreturned
  rw [List.map_append, List.map_map, List.map_map] at hkeys
  exact (List.nodup_append.mp hkeys).2.1

/-- Pending requests differ in their addresses. -/
theorem Inv.req_ne (hinv : Inv s) (hmem : pending ∈ s.pending)
    {other : Pending} (hother : other ∈ s.pending.erase pending) :
    other.req ≠ pending.req := by
  have hperm := (List.perm_cons_erase hmem).map Pending.req
  have hnodup := hperm.nodup_iff.mp hinv.pending_nodup
  rw [List.map_cons, List.nodup_cons] at hnodup
  intro heq
  exact hnodup.1 (heq ▸ List.mem_map_of_mem hother)

/-- A request keeps its shape where it is not rewritten. -/
theorem Shape.of_keeps {heap next : Heap Obj} {changed : List Addr}
    {own : Multiset Addr} (hshape : Shape heap pending)
    (hkeeps : Keeps changed heap next) (hbalanced : Balanced next own)
    (hown : pending.req ∈ own) (hreq : pending.req ∉ changed)
    (hbox : pending.sub.type.boxed → pending.req + 1 ∉ changed) :
    Shape next pending := by
  have hobj := hkeeps.objAt hshape.request hreq (hbalanced.live hown)
  refine ⟨hobj, ?_, hshape.inHand⟩
  intro hboxed
  refine hkeeps.objAt (hshape.box hboxed) (hbox hboxed)
    (hbalanced.live_of_refs hobj ?_)
  simp [Request.drops, Pending.slot, hboxed, boxed_finalizes hboxed]

/-- Where a request is rewritten, no other one changes its shape. -/
theorem Inv.shape_apart (hinv : Inv s) (hmem : pending ∈ s.pending)
    {other : Pending} (hother : other ∈ s.pending.erase pending)
    {next : Heap Obj} {changed : List Addr} {own : Multiset Addr}
    (hchanged : changed ⊆ [pending.req, pending.req + 1])
    (hbox : pending.req + 1 ∈ changed → pending.sub.type.boxed)
    (hkeeps : Keeps changed s.heap next) (hbalanced : Balanced next own)
    (hown : other.req ∈ own) : Shape next other := by
  have hne := hinv.req_ne hmem hother
  have hshape := hinv.shaped other (List.mem_of_mem_erase hother)
  refine hshape.of_keeps hkeeps hbalanced hown ?_ ?_
  · intro hin
    rcases List.mem_pair.mp (hchanged hin) with heq | heq
    · exact hne heq
    · have hdata := (hinv.shaped pending hmem).box (hbox (heq ▸ hin))
      rw [← heq] at hdata
      cases hdata.unique hshape.request
  · intro hboxed hin
    rcases List.mem_pair.mp (hchanged hin) with heq | heq
    · have hdata := hshape.box hboxed
      rw [heq] at hdata
      cases hdata.unique (hinv.shaped pending hmem).request
    · exact hne (Nat.succ.inj heq)

end Pending

section Steps

/-- A step that only changes the heap and what the program owns. -/
theorem Inv.with_heap (hinv : Inv s) {heap : Heap Obj} {user : Multiset Addr}
    (hbalanced : Balanced heap (user + ↑(s.pending.flatMap Pending.owned)))
    (hacyclic : Acyclic heap) (hkeeps : Keeps [] s.heap heap)
    (hlost : heap.lost = s.heap.lost)
    (houtside : ∀ pending ∈ s.pending, ∀ addr ∈ pending.sub.outside,
      Live heap addr) : Inv { s with heap, user } where
  balanced := hbalanced
  lost_eq := hlost.trans hinv.lost_eq
  acyclic := hacyclic
  shaped pending hmem := by
    have hown : pending.req ∈ State.own { s with heap, user } :=
      owned_le_own hmem req_mem_owned
    exact (hinv.shaped pending hmem).of_keeps hkeeps hbalanced hown (by simp)
      (fun _ => by simp)
  outside := houtside
  once := hinv.once
  apart := hinv.apart
  fresh req hreq := Nat.lt_of_lt_of_le (hinv.fresh req hreq) hkeeps.length_le

theorem Inv.grow (hinv : Inv s) {heap : Heap Obj} {user : Multiset Addr}
    (hbalanced : Balanced heap (user + ↑(s.pending.flatMap Pending.owned)))
    (hacyclic : Acyclic heap) (hrewrites : Rewrites [] s.heap heap) :
    Inv { s with heap, user } :=
  hinv.with_heap hbalanced hacyclic hrewrites.keeps hrewrites.lost_eq
    fun pending hmem addr haddr =>
      hrewrites.live (hinv.outside pending hmem addr haddr) (by simp)

theorem newObject_preserves (hinv : Inv s) {held : List Addr}
    (hown : (↑held : Multiset Addr) ≤ s.user) :
    ∃ next, s.apply (.newObject held) = .ok next ∧ Inv next := by
  have halloc : Balanced s.heap (↑(refs (Obj.object held)) +
      (s.user - ↑held + ↑(s.pending.flatMap Pending.owned))) := by
    refine hinv.balanced.congr ?_
    rw [refs_object, ← add_assoc, add_comm (↑held : Multiset Addr),
      Multiset.sub_add_cancel hown, State.own]
  obtain ⟨hnext, -, hrewrites⟩ := alloc_rewrites halloc
  exact ⟨_, rfl, hinv.grow (hnext.congr (Multiset.cons_add _ _ _).symm)
    (hinv.acyclic.alloc halloc) hrewrites⟩

theorem incref_preserves (hinv : Inv s) {addr : Addr}
    (hlive : Live s.heap addr) :
    ∃ heap, s.heap.incref addr = .ok heap ∧
      Inv { s with heap, user := addr ::ₘ s.user } := by
  obtain ⟨heap, hrun, hnext, hrewrites, hlength⟩ :=
    incref_rewrites hinv.balanced hlive
  refine ⟨heap, hrun, hinv.grow (hnext.congr ?_)
    (hinv.acyclic.of_keeps hrewrites.keeps hlength) hrewrites⟩
  rw [Multiset.cons_add, State.own]

/-- What the program lets go may free objects, but none that libuv works on
while other references hold it. -/
theorem decref_preserves (hinv : Inv s) {addr : Addr} (hmem : addr ∈ s.user)
    (hheld : ∀ pending ∈ s.pending, ∀ target ∈ pending.sub.outside,
      Held s.heap (s.own - ↑[addr]) target) :
    ∃ heap, s.heap.decref addr = .ok heap ∧
      Inv { s with heap, user := s.user.erase addr } := by
  have hsplit : s.own = addr ::ₘ
      (s.user.erase addr + ↑(s.pending.flatMap Pending.owned)) := by
    rw [← Multiset.cons_add, Multiset.cons_erase hmem, State.own]
  have hrest : s.own - ↑[addr] =
      s.user.erase addr + ↑(s.pending.flatMap Pending.owned) := by
    rw [hsplit, Multiset.coe_singleton, Multiset.sub_singleton,
      Multiset.erase_cons_head]
  obtain ⟨heap, hrun, hnext⟩ := decref_spec (hinv.balanced.congr hsplit)
  obtain ⟨hkeeps, hlength, hlost⟩ := decref_keeps hrun
  refine ⟨heap, hrun, hinv.with_heap hnext
    (hinv.acyclic.of_keeps hkeeps hlength) hkeeps (hlost (sealed _)) ?_⟩
  intro pending hpending target htarget
  refine (hheld pending hpending target htarget).live_of_keeps hkeeps hnext
    ?_ (by simp)
  intro owned howned
  exact hnext.live (hrest ▸ howned)

theorem fields_live (hinv : Inv s) {source target : Addr}
    (htarget : target ∈ s.fields source) : Live s.heap target := by
  unfold State.fields at htarget
  split at htarget
  · rename_i held hget
    obtain ⟨cell, hcell⟩ : ∃ cell, s.heap.cell? source = some cell := by
      cases hcell : s.heap.cell? source with
      | none => simp [Heap.get, hcell] at hget
      | some cell => exact ⟨cell, rfl⟩
    have hobj : cell.obj = .object held := by
      simpa [Heap.get, hcell] using hget
    exact hinv.balanced.live_of_refs ⟨cell.rc, hcell⟩
      (by rw [hobj, refs_object]; exact htarget)
  · simp at htarget

/-- An action of the program, on whatever thread. -/
theorem act_preserves (hinv : Inv s) {action : Action} (howns : s.Owns action)
    (hheld : ∀ pending ∈ s.pending, ∀ target ∈ pending.sub.outside,
      s.Keeps action.releases target) :
    ∃ next, s.act action = .ok next ∧ Inv next := by
  cases action with
  | dup addr =>
      obtain ⟨heap, hrun, hnext⟩ :=
        incref_preserves hinv (hinv.balanced.live (user_le_own howns))
      exact ⟨_, by simp [State.act, hrun, bind, Except.bind, pure,
        Except.pure], hnext⟩
  | unpack source target =>
      obtain ⟨heap, hrun, hnext⟩ :=
        incref_preserves hinv (fields_live hinv howns.2)
      exact ⟨_, by simp [State.act, hrun, bind, Except.bind, pure,
        Except.pure], hnext⟩
  | drop addr =>
      obtain ⟨heap, hrun, hnext⟩ := decref_preserves hinv howns hheld
      exact ⟨_, by simp [State.act, hrun, bind, Except.bind, pure,
        Except.pure], hnext⟩

section Update

variable {pending : Pending} {change : Pending → Pending}

/-- libuv's record of one request changes, and with it at most the request. -/
theorem Inv.update (hinv : Inv s) (hmem : pending ∈ s.pending)
    (hoperation : (change pending).operation = pending.operation)
    (hreq : (change pending).req = pending.req) {heap : Heap Obj}
    {user : Multiset Addr}
    (hbalanced : Balanced heap (↑(change pending).owned +
      (user + ↑((s.pending.erase pending).flatMap Pending.owned))))
    (hacyclic : Acyclic heap) (hlength : s.heap.cells.length ≤ heap.cells.length)
    (hlost : heap.lost = s.heap.lost) (hshape : Shape heap (change pending))
    (hothers : ∀ other ∈ s.pending.erase pending, Shape heap other)
    (hlive : ∀ addr, Live s.heap addr → Live heap addr) :
    Inv { s with heap, user, pending := s.update pending change } := by
  have hsub : (change pending).sub = pending.sub := by
    rw [Pending.sub, hoperation, Pending.sub]
  have hkey : (change pending).key = pending.key := by
    rw [Pending.key, hsub, hreq, Pending.key]
  constructor
  · refine hbalanced.congr ?_
    rw [State.own, State.update, List.flatMap_cons, ← Multiset.coe_add]
    abel
  · exact hlost.trans hinv.lost_eq
  · exact hacyclic
  · intro other hother
    rcases List.mem_cons.mp hother with rfl | hother
    · exact hshape
    · exact hothers other hother
  · intro other hother addr haddr
    rcases List.mem_cons.mp hother with rfl | hother
    · rw [hsub] at haddr
      exact hlive addr (hinv.outside pending hmem addr haddr)
    · exact hlive addr
        (hinv.outside other (List.mem_of_mem_erase hother) addr haddr)
  · have hkeys : (s.pending.map Pending.key).Perm
        ((s.update pending change).map Pending.key) := by
      simpa [State.update, hkey] using
        (List.perm_cons_erase hmem).map Pending.key
    exact (hkeys.symm.append_left _).trans hinv.once
  · exact hinv.apart
  · exact fun req hreq => Nat.lt_of_lt_of_le (hinv.fresh req hreq) hlength

/-- Only libuv's record of the request changes. -/
theorem Inv.remark (hinv : Inv s) (hmem : pending ∈ s.pending)
    (hoperation : (change pending).operation = pending.operation)
    (hreq : (change pending).req = pending.req)
    (hinHand : (change pending).phase.inHand = pending.phase.inHand)
    (hshape : Shape s.heap (change pending)) :
    Inv { s with pending := s.update pending change } := by
  refine hinv.update hmem hoperation hreq (hinv.balanced.congr ?_) hinv.acyclic
    (Nat.le_refl _) rfl hshape
    (fun other hother => hinv.shaped other (List.mem_of_mem_erase hother))
    (fun _ hlive => hlive)
  have hsub : (change pending).sub = pending.sub := by
    rw [Pending.sub, hoperation, Pending.sub]
  rw [own_of_mem hmem, Pending.owned, Pending.owned, hinHand, hreq, hsub]

end Update

section Pool

variable {pending : Pending}

theorem work_preserves (hinv : Inv s) (hmem : pending ∈ s.pending)
    (hwork : pending.sub.type = .work) (hqueued : pending.phase = .queued) :
    ∃ next, s.enterWork pending = .ok next ∧ Inv next := by
  have hboxed : pending.sub.type.boxed = true := by rw [hwork]; rfl
  obtain ⟨heap, hrun, hnext, hacyclic, hrewrites, hbox⟩ := takeWork_spec
    hinv.balanced hinv.acyclic (hinv.shaped pending hmem) hboxed
  refine ⟨_, by simp [State.enterWork, hrun, bind, Except.bind, pure,
    Except.pure]; rfl, ?_⟩
  refine hinv.update hmem rfl rfl (hnext.congr ?_) hacyclic
    hrewrites.length_le hrewrites.lost_eq ?_ ?_ ?_
  · rw [own_of_mem hmem, Pending.owned, Pending.owned, hqueued]
    simp only [Phase.inHand, Pending.sub, List.nil_append, ← Multiset.coe_add]
    abel
  · refine ⟨hrewrites.objAt (hinv.shaped pending hmem).request (by simp),
      fun _ => hbox, ?_⟩
    intro cb hentered
    cases hentered
    rw [Pending.payload, if_pos hqueued]
    exact (pending.operation.payload_isSome).trans hboxed
  · intro other hother
    refine hinv.shape_apart hmem hother (by simp) (fun _ => hboxed)
      hrewrites.keeps hnext ?_
    have hown := owned_le_own (List.mem_of_mem_erase hother) req_mem_owned
    exact Multiset.mem_add.mpr (Or.inr hown)
  · exact fun addr hlive => hrewrites.live hlive (by simpa using hbox.live)

/-- The pool thread has its reference to the request and calls the closure. -/
theorem call_preserves (hinv : Inv s) (hmem : pending ∈ s.pending)
    (hentered : pending.phase.isEntered) :
    ∃ next, s.runWork pending = .ok next ∧ Inv next := by
  have hshape := hinv.shaped pending hmem
  obtain ⟨cb, hphase⟩ : ∃ cb, pending.phase = .entered (some cb) := by
    cases hphase : pending.phase with
    | queued | running => simp [hphase, Phase.isEntered] at hentered
    | entered cb =>
        obtain ⟨cb, rfl⟩ :=
          Option.isSome_iff_exists.mp (hshape.inHand cb hphase)
        exact ⟨cb, rfl⟩
  obtain ⟨heap, hrun, hnext, hrewrites, hlength⟩ :=
    callWork_spec hinv.balanced hshape.request.live cb
  refine ⟨_, by simp [State.runWork, hphase, hrun, bind, Except.bind, pure,
    Except.pure]; rfl, ?_⟩
  have hothers : ∀ other ∈ s.pending, Shape heap other := by
    intro other hother
    exact (hinv.shaped other hother).of_keeps hrewrites.keeps hnext
      (Multiset.mem_cons_of_mem (owned_le_own hother req_mem_owned)) (by simp)
      (fun _ => by simp)
  have hafter := hothers pending hmem
  change Inv { s with
    heap, user := cb ::ₘ pending.req ::ₘ s.user
    pending := s.update pending fun pending =>
      { pending with phase := .running none } }
  refine hinv.update hmem rfl rfl (hnext.congr ?_)
    (hinv.acyclic.of_keeps hrewrites.keeps hlength) (Nat.le_of_eq hlength.symm)
    hrewrites.lost_eq ?_
    (fun other hother => hothers other (List.mem_of_mem_erase hother))
    (fun addr hlive => hrewrites.live hlive (by simp))
  · rw [own_of_mem hmem, Pending.owned, Pending.owned, hphase]
    simp only [Phase.inHand, Pending.sub, Option.toList_some, List.nil_append,
      List.singleton_append, ← Multiset.cons_coe, ← Multiset.singleton_add]
    abel
  · refine ⟨hafter.request, ?_, by simp⟩
    intro hboxed
    have hbox := hafter.box hboxed
    rw [Pending.payload, if_neg (by simp [hphase])] at hbox
    exact hbox

/-- A pool thread between two actions begins one, or has ended it. -/
theorem turnTo_preserves (hinv : Inv s) (hmem : pending ∈ s.pending)
    {before : Option Action} (hphase : pending.phase = .running before)
    (action : Option Action) : Inv (s.turnTo pending action) := by
  have hshape := hinv.shaped pending hmem
  refine hinv.remark hmem rfl rfl (by rw [hphase]; rfl)
    ⟨hshape.request, ?_, by simp⟩
  intro hboxed
  have hbox := hshape.box hboxed
  rw [Pending.payload, if_neg (by simp [hphase])] at hbox
  exact hbox

theorem turnTo_own (hmem : pending ∈ s.pending) {before : Option Action}
    (hphase : pending.phase = .running before) (action : Option Action) :
    (s.turnTo pending action).own = s.own := by
  rw [own_of_mem hmem, State.own, State.turnTo, State.update,
    List.flatMap_cons, ← Multiset.coe_add, Pending.owned, Pending.owned, hphase]
  simp only [Phase.inHand, Pending.sub]
  abel

theorem finish_preserves (hinv : Inv s) (hmem : pending ∈ s.pending)
    {action : Action} (hphase : pending.phase = .running (some action))
    (howns : s.Owns action)
    (hheld : ∀ pending ∈ s.pending, ∀ target ∈ pending.sub.outside,
      s.Keeps action.releases target) :
    ∃ next, (s.turnTo pending none).act action = .ok next ∧ Inv next := by
  refine act_preserves (turnTo_preserves hinv hmem hphase none) ?_ ?_
  · cases action <;> exact howns
  · intro other hother target htarget
    rw [State.Keeps, turnTo_own hmem hphase]
    rcases List.mem_cons.mp hother with rfl | hother
    · exact hheld pending hmem target htarget
    · exact hheld other (List.mem_of_mem_erase hother) target htarget

end Pool

theorem markCancelled_preserves (hinv : Inv s) {req : Addr}
    (honce : ∀ pending ∈ s.done, pending.req ≠ req) :
    Inv { s with pending := s.markCancelled req } := by
  unfold State.markCancelled
  split
  · rename_i pending hfind
    have hpending := (find_spec hfind).1
    have hshape := hinv.shaped pending hpending
    exact hinv.remark hpending rfl rfl rfl
      ⟨hshape.request, hshape.box, hshape.inHand⟩
  · rw [List.filter_eq_nil_iff.mpr (by simpa using honce), List.nil_append]
    exact hinv

theorem cancel_preserves (hinv : Inv s) {req : Addr} {accepted : Bool}
    (hmem : req ∈ s.user) (honce : ∀ pending ∈ s.done, pending.req ≠ req)
    (hheld : ∀ pending ∈ s.pending, ∀ target ∈ pending.sub.outside,
      s.Keeps [req] target) :
    ∃ next, s.cancel req accepted = .ok next ∧ Inv next := by
  obtain ⟨heap, hrun, hinv'⟩ := decref_preserves hinv hmem hheld
  refine ⟨_, by simp [State.cancel, hrun, bind, Except.bind, pure,
    Except.pure]; rfl, ?_⟩
  cases accepted with
  | false => exact hinv'
  | true => exact markCancelled_preserves hinv' honce

/-- What the trampoline takes out of the request and what libuv owned. -/
theorem freed_owned (pending : Pending) (hleft : pending.phase.inHand = []) :
    (↑pending.freed + ↑pending.owned : Multiset Addr) =
      pending.sub.cb ::ₘ pending.req ::ₘ ↑pending.buffer.toList := by
  cases hfinal : pending.sub.type.finalizes <;>
    simp only [Pending.freed, Pending.owned, Submission.unheld, hfinal, hleft,
      List.nil_append,
      ↓reduceIte, Bool.false_eq_true, Bool.not_true, Bool.and_false,
      ← Multiset.coe_add, ← Multiset.cons_coe, Multiset.coe_nil,
      ← Multiset.singleton_add] <;>
    abel

/-- A completion takes the request from libuv and gives what libuv owned to the
program. -/
theorem complete_preserves (hinv : Inv s) {pending : Pending}
    (hmem : pending ∈ s.pending) {status : Int}
    (hcompletes : pending.Completes status) :
    ∃ next, s.complete pending status = .ok next ∧ Inv next := by
  have hleft : pending.phase.inHand = [] := by
    rcases hcompletes.1 with hphase | ⟨hphase, -⟩ <;> rw [hphase] <;> rfl
  obtain ⟨called, hrun, hcalled, hacyclic, changed, hchanged, hbox, hrewrites,
    hlive⟩ := completionCb_spec hinv.balanced hinv.acyclic
      (hinv.shaped pending hmem)
  obtain ⟨hnext, hacyclic', hrewrites'⟩ :=
    allocMany_spec (pending.sub.type.results status) hcalled hacyclic
  have hframe := hrewrites.trans (hrewrites'.mono (List.nil_subset _))
  have hlives : ∀ addr, Live s.heap addr →
      Live (allocMany (pending.sub.type.results status) called).1 addr :=
    fun addr haddr =>
      hrewrites'.live (hrewrites.live haddr hlive) (by simp)
  refine ⟨_, by simp [State.complete, hrun, bind, Except.bind, pure,
    Except.pure]; rfl, ?_⟩
  constructor
  · refine hnext.congr ?_
    have hgiven := freed_owned pending hleft
    calc _ = ↑(allocMany (pending.sub.type.results status) called).2 +
          ((↑pending.freed + ↑pending.owned) + (s.user +
            ↑((s.pending.erase pending).flatMap Pending.owned))) := by
          rw [own_of_mem hmem]
          abel
      _ = _ := by
          rw [hgiven, State.own, ← Multiset.coe_add]
          simp only [← Multiset.singleton_add]
          abel
  · exact hframe.lost_eq.trans hinv.lost_eq
  · exact hacyclic'
  · intro other hother
    refine hinv.shape_apart hmem hother hchanged hbox hframe.keeps hnext ?_
    have hown := owned_le_own (List.mem_of_mem_erase hother) req_mem_owned
    exact Multiset.mem_add.mpr (Or.inr (Multiset.mem_add.mpr (Or.inr hown)))
  · intro other hother addr haddr
    exact hlives addr
      (hinv.outside other (List.mem_of_mem_erase hother) addr haddr)
  · have hkeys := (List.perm_cons_erase hmem).map Pending.key
    exact ((List.perm_middle.symm.trans
      (hkeys.symm.append_left _)).trans hinv.once)
  · exact hinv.apart
  · exact fun req hreq =>
      Nat.lt_of_lt_of_le (hinv.fresh req hreq) hframe.length_le

section Submit

variable {operation : Operation Addr} {answer : Answer}

/-- The ledger with the references of a call set apart. -/
theorem own_of_given
    (hgiven : (↑operation.submission.given : Multiset Addr) ≤ s.user) :
    s.own = ↑operation.submission.given +
      (s.user - ↑operation.submission.given +
        ↑(s.pending.flatMap Pending.owned)) := by
  rw [← add_assoc, add_comm (↑operation.submission.given : Multiset Addr),
    Multiset.sub_add_cancel hgiven, State.own]

/-- What stays held without the references that the stub releases is alive when
the call returns: those that it stores lead to the same objects. -/
theorem held_live
    (hgiven : (↑operation.submission.given : Multiset Addr) ≤ s.user)
    {written : Bool} {own : Multiset Addr} {next : Heap Obj}
    (hentered : Entered operation.submission written own s.heap next)
    (hown : s.user - ↑operation.submission.given +
      ↑(s.pending.flatMap Pending.owned) ≤ own) {addr : Addr}
    (hheld : s.Keeps (Label.submit operation answer).releases addr) : Live next addr := by
  refine Held.live_of_keeps hheld hentered.keeps hentered.balanced ?_ (by simp)
  intro owned howned
  have hsplit : s.own - ↑operation.submission.released.reduceOption =
      ↑operation.submission.stored + (s.user - ↑operation.submission.given +
        ↑(s.pending.flatMap Pending.owned)) := by
    refine (Multiset.eq_sub_of_add_eq ?_).symm
    have hstored : (↑operation.submission.given : Multiset Addr) =
        ↑operation.submission.stored +
          ↑operation.submission.released.reduceOption := by
      rw [Submission.given, ← Multiset.coe_add]
    rw [own_of_given hgiven]
    generalize s.user - ↑operation.submission.given = rest
    rw [hstored]
    abel
  rw [Label.releases, hsplit, Multiset.mem_add] at howned
  rcases howned with hstored | hrest
  · exact hentered.stored_live operation.payload_isSome hstored
  · exact hentered.balanced.live
      (Multiset.mem_add.mpr (Or.inr (Multiset.mem_of_le hown hrest)))

theorem Inv.req_fresh (hinv : Inv s) :
    s.heap.cells.length ∉
      s.returned.map Prod.fst ++ s.raised.map Raised.req :=
  fun hmem => Nat.lt_irrefl _ (hinv.fresh _ hmem)

theorem accepted_preserves (hinv : Inv s)
    (hgiven : (↑operation.submission.given : Multiset Addr) ≤ s.user)
    (hsome : none ∉ operation.submission.released)
    (honce : ∀ pending ∈ s.pending, ¬ operation.Overwrites pending)
    (hheld : ∀ sub ∈ s.held (.submit operation .accepted),
      ∀ addr ∈ sub.outside, s.Keeps (Label.submit operation .accepted).releases addr) :
    ∃ next, s.submit operation .accepted = .ok next ∧ Inv next := by
  have hboxed := operation.payload_isSome
  obtain ⟨heap, hrun, hentered⟩ := enter_spec operation.submission hboxed
    .accepted hsome hinv.acyclic
    (hinv.balanced.congr (own_of_given hgiven))
  have hlives : ∀ sub ∈ s.held (.submit operation .accepted),
      ∀ addr ∈ sub.outside, Live heap addr := fun sub hsub addr haddr =>
    held_live hgiven hentered (Multiset.le_cons_self _ _)
      (hheld sub hsub addr haddr)
  have hkept : s.pending.filter
      (fun pending => ¬ operation.Overwrites pending) = s.pending :=
    List.filter_eq_self.mpr (by simpa using honce)
  refine ⟨_, by simp only [State.submit, Submission.call, hrun, hkept, bind,
    Except.bind, pure, Except.pure]; rfl, ?_⟩
  constructor
  · refine hentered.balanced.congr ?_
    simp only [State.own, List.flatMap_cons, Pending.owned, Pending.sub,
      Phase.inHand, List.nil_append,
      Answer.writes, ← Multiset.coe_add, ← Multiset.singleton_add]
    generalize s.user - ↑operation.submission.given = rest
    abel
  · exact hentered.lost_eq.trans hinv.lost_eq
  · exact hentered.acyclic
  · intro pending hmem
    rcases List.mem_cons.mp hmem with rfl | hmem
    · refine ⟨hentered.request, ?_, by simp⟩
      intro hbox
      obtain ⟨payload, hpayload⟩ :=
        Option.isSome_iff_exists.mp (hboxed.trans hbox)
      have hobj := hentered.box ⟨some payload, some operation.submission.cb⟩
        (by simp [Submission.box, hpayload])
      simpa [Pending.payload, Pending.sub, hpayload] using hobj
    · refine (hinv.shaped pending hmem).of_keeps hentered.keeps
        hentered.balanced ?_ (by simp) (fun _ => by simp)
      have hown : pending.req ∈ (↑(s.pending.flatMap Pending.owned) :
          Multiset Addr) :=
        List.mem_flatMap.mpr ⟨pending, hmem, req_mem_owned⟩
      exact Multiset.mem_add.mpr (Or.inr (Multiset.mem_cons_of_mem
        (Multiset.mem_add.mpr (Or.inr hown))))
  · intro pending hmem addr haddr
    rcases List.mem_cons.mp hmem with rfl | hmem
    · exact hlives _ (List.mem_append_right _ (List.mem_singleton_self _)) addr
        haddr
    · exact hlives pending.sub (List.mem_append_left _
        (List.mem_map_of_mem hmem)) addr haddr
  · exact List.perm_middle.trans (hinv.once.cons _)
  · exact List.nodup_cons.mpr ⟨hinv.req_fresh, hinv.apart⟩
  · intro req hreq
    rcases List.mem_cons.mp hreq with rfl | hreq
    · exact hentered.length_lt
    · exact Nat.lt_trans (hinv.fresh req hreq) hentered.length_lt

theorem rejected_preserves (hinv : Inv s) {written : Bool}
    (hgiven : (↑operation.submission.given : Multiset Addr) ≤ s.user)
    (hsome : none ∉ operation.submission.released)
    (hheld : ∀ sub ∈ s.held (.submit operation (.rejected written)),
      ∀ addr ∈ sub.outside,
        s.Keeps (Label.submit operation (.rejected written)).releases addr) :
    ∃ next, s.submit operation (.rejected written) = .ok next ∧ Inv next := by
  have hboxed := operation.payload_isSome
  obtain ⟨entered, hrun, hentered⟩ := enter_spec operation.submission hboxed
    (.rejected written) hsome hinv.acyclic
    (hinv.balanced.congr (own_of_given hgiven))
  obtain ⟨dropped, hdrop, hentered'⟩ := hentered.decref hboxed
  let raised : Raised := ⟨operation, s.heap.cells.length, written⟩
  have hleaks : Balanced dropped (↑raised.leaks +
      (s.user - ↑operation.submission.given +
        ↑(s.pending.flatMap Pending.owned))) := hentered'.balanced
  obtain ⟨heap, hforget, hbalanced, hcells, hlost⟩ := forget_all _ hleaks
  have hobj : ∀ addr obj, ObjAt heap addr obj ↔ ObjAt dropped addr obj := by
    intro addr obj
    rw [ObjAt, ObjAt, Heap.cell?, Heap.cell?, hcells]
  have hlives : ∀ pending ∈ s.pending, ∀ addr ∈ pending.sub.outside,
      Live heap addr := by
    intro pending hmem addr haddr
    obtain ⟨obj, hlive⟩ := held_live hgiven hentered' (le_refl _)
      (hheld pending.sub (List.mem_append_left _ (List.mem_map_of_mem hmem))
        addr haddr)
    exact ⟨obj, (hobj addr obj).mpr hlive⟩
  have hlength : s.heap.cells.length < heap.cells.length :=
    hcells ▸ hentered'.length_lt
  refine ⟨{ s with
    heap
    user := s.user - ↑operation.submission.given
    raised := raised :: s.raised }, ?_, ?_⟩
  · simp [State.submit, Submission.call, hrun, hdrop, ← hforget, raised, bind,
      Except.bind, pure, Except.pure]
  constructor
  · exact hbalanced
  · rw [hlost, hentered'.lost_eq, hinv.lost_eq, List.flatMap_cons]
  · exact hentered'.acyclic.of_refs fun source obj hsource =>
      ⟨obj, (hobj source obj).mp hsource, List.Subset.refl _⟩
  · intro pending hmem
    have hown : pending.req ∈ (↑(s.pending.flatMap Pending.owned) :
        Multiset Addr) :=
      List.mem_flatMap.mpr ⟨pending, hmem, req_mem_owned⟩
    have hkeeps : Keeps [] s.heap heap :=
      ⟨Nat.le_of_lt hlength, fun addr obj hlt hnot hobj' =>
        hentered'.keeps.objAt_old addr obj hlt hnot ((hobj addr obj).mp hobj')⟩
    exact (hinv.shaped pending hmem).of_keeps hkeeps hbalanced
      (Multiset.mem_add.mpr (Or.inr hown)) (by simp) (fun _ => by simp)
  · exact hlives
  · exact hinv.once
  · exact List.perm_middle.nodup_iff.mpr
      (List.nodup_cons.mpr ⟨hinv.req_fresh, hinv.apart⟩)
  · intro req hreq
    rcases List.mem_cons.mp (List.perm_middle.mem_iff.mp hreq) with rfl | hreq
    · exact hlength
    · exact Nat.lt_trans (hinv.fresh req hreq) hlength

end Submit

end Steps

section Runs

theorem Allowed.keeps {label : Label} (hallowed : Allowed s label) :
    ∀ sub ∈ s.held label, ∀ addr ∈ sub.outside,
      s.Keeps label.releases addr := by
  obtain ⟨⟨-, htargets⟩, hrule⟩ := hallowed
  intro sub hsub addr haddr
  rcases List.mem_append.mp haddr with htarget | hborrow
  · exact htargets sub hsub addr htarget
  · exact hrule.kept sub hsub addr hborrow

theorem Allowed.keeps_pending {label : Label} (hallowed : Allowed s label) :
    ∀ pending ∈ s.pending, ∀ addr ∈ pending.sub.outside,
      s.Keeps label.releases addr :=
  fun pending hmem => hallowed.keeps pending.sub
    (List.mem_append_left _ (List.mem_map_of_mem hmem))

/-- One allowed step. -/
theorem step_preserves (hinv : Inv s) {label : Label}
    (hallowed : Allowed s label) :
    ∃ next, step s label = .ok next ∧ Inv next := by
  have hpossible := hallowed.1.1
  rw [step, if_neg hallowed.2.apart]
  cases label with
  | newObject held => exact newObject_preserves hinv hpossible
  | act action => exact act_preserves hinv hpossible hallowed.keeps_pending
  | submit operation answer =>
      have hsome := hallowed.2.present operation.submission
        (by simp [Label.submits])
      cases answer with
      | accepted =>
          exact accepted_preserves hinv hpossible hsome hallowed.2.once
            hallowed.keeps
      | rejected written =>
          exact rejected_preserves hinv hpossible hsome hallowed.keeps
  | work req =>
      obtain ⟨pending, hfind, hwork, hqueued, -⟩ := hpossible
      rw [State.apply, hfind]
      exact work_preserves hinv (find_spec hfind).1 hwork hqueued
  | call req =>
      obtain ⟨pending, hfind, hentered⟩ := hpossible
      rw [State.apply, hfind]
      exact call_preserves hinv (find_spec hfind).1 hentered
  | begin req action =>
      obtain ⟨-, pending, hfind, hphase⟩ := hpossible
      rw [State.apply, hfind]
      exact ⟨_, rfl, turnTo_preserves hinv (find_spec hfind).1 hphase _⟩
  | finish req action =>
      obtain ⟨howns, pending, hfind, hphase⟩ := hpossible
      rw [State.apply, hfind]
      exact finish_preserves hinv (find_spec hfind).1 hphase howns
        hallowed.keeps_pending
  | cancel req accepted =>
      exact cancel_preserves hinv hpossible.1 hallowed.2.once
        hallowed.keeps_pending
  | complete req status =>
      obtain ⟨pending, hfind, hcompletes⟩ := hpossible
      rw [State.apply, hfind]
      exact complete_preserves hinv (find_spec hfind).1 hcompletes

/-- What libuv points to for a request. -/
def Pending.pointsTo (pending : Pending) : List Addr :=
  pending.req :: pending.sub.cb :: (pending.phase.inHand ++
    pending.payload.toList ++ pending.sub.bufs.toList ++
      pending.sub.loop.toList ++ pending.sub.outside)

/-- What the binding promises of its requests.  `once` says that the calls that
returned are the completed ones and the pending ones, with the callbacks they
were given; `reached` is about the buffers of an array and the loop of a
handle. -/
structure Lifecycle (s : State) : Prop where
  once : (s.completions.map Completion.key ++ s.pending.map Pending.key).Perm
    s.returned
  single : (s.completions.map Completion.req).Nodup
  silent : ∀ raised ∈ s.raised, ∀ completion ∈ s.completions,
    completion.req ≠ raised.req
  alive : ∀ pending ∈ s.pending, ∀ addr ∈ pending.pointsTo, Live s.heap addr
  reached : ∀ pending ∈ s.pending, ∀ addr ∈ pending.pointsTo,
    ∀ target ∈ s.heap.children addr, Live s.heap target
  count_eq : ∀ addr, s.heap.rc addr = s.user.count addr +
    (s.pending.flatMap Pending.owned).count addr + s.heap.edges.count addr +
      (s.raised.flatMap Raised.leaks).count addr
  freed : s.raised = [] → s.pending = [] → s.user = 0 →
    ∀ addr, s.heap.cell? addr = none

theorem Inv.alive (hinv : Inv s) {pending : Pending}
    (hmem : pending ∈ s.pending) {addr : Addr}
    (haddr : addr ∈ pending.pointsTo) : Live s.heap addr := by
  have hshape := hinv.shaped pending hmem
  have howned : ∀ addr ∈ pending.owned, Live s.heap addr := fun addr hown =>
    hinv.balanced.live (owned_le_own hmem hown)
  have hrequest : ∀ target ∈ Request.drops ⟨pending.sub.type,
      pending.sub.loop, some pending.slot, pending.sub.bufs⟩,
      Live s.heap target := fun target htarget =>
    hinv.balanced.live_of_refs hshape.request (by simpa using htarget)
  simp only [Pending.pointsTo, List.mem_cons, List.mem_append] at haddr
  rcases haddr with
    rfl | rfl | (((hinHand | hpayload) | hbufs) | hloop) | houtside
  · exact howned _ req_mem_owned
  · cases hboxed : pending.sub.type.boxed with
    | true =>
        exact hinv.balanced.live_of_refs (hshape.box hboxed) (by simp)
    | false =>
        cases hfinal : pending.sub.type.finalizes with
        | true =>
            exact hrequest _ (by
              simp [Request.drops, hfinal, Pending.slot, hboxed])
        | false =>
            exact howned _ (by
              simp [Pending.owned, Submission.unheld, hfinal])
  · exact howned _ (List.mem_append_left _ hinHand)
  · have hboxed : pending.sub.type.boxed = true := by
      rw [Pending.sub, ← pending.operation.payload_isSome]
      cases hsome : pending.operation.submission.payload with
      | none => simp [Pending.payload, Pending.sub, hsome] at hpayload
      | some payload => rfl
    exact hinv.balanced.live_of_refs (hshape.box hboxed) (by
      rw [refs_data]
      exact List.mem_append_left _ hpayload)
  · exact hrequest _ (List.mem_append_right _ hbufs)
  · cases howns : pending.sub.type.ownsLoop with
    | true =>
        refine hrequest _ (List.mem_append_left _ (List.mem_append_left _ ?_))
        simpa [howns] using hloop
    | false =>
        refine hinv.outside pending hmem addr (List.mem_append_right _
          (List.mem_append_right _ ?_))
        simpa [howns] using hloop
  · exact hinv.outside pending hmem addr houtside

theorem Inv.completed (hinv : Inv s) {completion : Completion}
    (hmem : completion ∈ s.completions) :
    completion.req ∈ s.returned.map Prod.fst :=
  List.mem_map.mpr ⟨completion.key, hinv.once.mem_iff.mp
    (List.mem_append_left _ (List.mem_map_of_mem hmem)), rfl⟩

theorem Inv.lifecycle (hinv : Inv s) : Lifecycle s where
  once := hinv.once
  single := by
    have hreturned := (List.nodup_append.mp hinv.apart).1
    have hkeys := (hinv.once.map Prod.fst).nodup_iff.mpr hreturned
    rw [List.map_append, List.map_map, List.map_map] at hkeys
    exact (List.nodup_append.mp hkeys).1
  silent raised hraised completion hcompletion :=
    (List.nodup_append.mp hinv.apart).2.2 _ (hinv.completed hcompletion) _
      (List.mem_map_of_mem hraised)
  alive pending hmem addr haddr := hinv.alive hmem haddr
  reached pending hmem addr haddr target htarget := by
    obtain ⟨obj, hobj, hrefs⟩ := exists_objAt_of_mem_children htarget
    exact hinv.balanced.live_of_refs hobj hrefs
  count_eq addr := by
    have hcount := hinv.balanced.count_eq addr
    rw [hinv.lost_eq, State.own, Multiset.count_add, Multiset.coe_count]
      at hcount
    omega
  freed hraised hpending huser addr := by
    refine hinv.acyclic.all_freed (hinv.balanced.congr ?_) ?_ addr
    · simp [State.own, hpending, huser]
    · rw [hinv.lost_eq, hraised, List.flatMap_nil]

/-- A loop, a buffer and a closure; a file read and a lookup that overlap, a
work request that runs, and one that is cancelled. -/
def readAndLookup : List Label :=
  [.newObject [], .newObject [], .act (.dup 1), .newObject [1], .newObject [],
    .newObject [], .newObject [], .act (.dup 0),
    .submit (.fsRead 0 2 3 4 5) .accepted, .act (.drop 6), .newObject [],
    .newObject [], .newObject [], .act (.dup 0),
    .submit (.getaddrinfo 0 7 8 9 none) .accepted, .newObject [],
    .newObject [], .act (.dup 0), .submit (.queueWork 0 11 12) .accepted,
    .cancel 13 true, .complete 6 4, .act (.drop 5), .act (.drop 6),
    .act (.drop 1), .complete 10 (-3008), .act (.drop 7), .act (.drop 10),
    .newObject [], .newObject [], .act (.dup 0),
    .submit (.queueWork 0 16 17) .accepted, .work 18, .act (.drop 15),
    .call 18, .begin 18 (.drop 16), .act (.drop 10), .finish 18 (.drop 16),
    .begin 18 (.drop 18), .complete 13 (-125), .finish 18 (.drop 18),
    .act (.drop 18), .complete 18 0, .act (.drop 12), .act (.drop 13),
    .act (.drop 17), .act (.drop 18), .act (.drop 0)]

/-- `Loop::random` with flags that libuv refuses before it has written the
request; then the program drops what it owns. -/
def randomWithFlags : List Label :=
  [.newObject [], .newObject [], .newObject [], .act (.dup 0),
    .submit (.random 0 1 2) (.rejected false), .act (.drop 0)]

/-- `Udp::send` on a connected handle, without an address. -/
example : run step State.initial
    [.newObject [], .newObject [], .newObject [], .newObject [], .newObject [],
      .submit (.udpSend 0 1 2 3 none 4) .accepted] =
    .error .nullArgument := rfl

/-- A lookup that is the last to use its loop: libuv is left with the address
of a freed loop. -/
example : (run step State.initial
    [.newObject [], .newObject [], .newObject [], .newObject [],
      .submit (.getaddrinfo 0 1 2 3 none) .accepted]).toOption.map
        (fun s => (s.pending.map Pending.req, s.heap.cell? 0)) =
    some ([4], none) := rfl

/-- The program drops what `Loop::queue_work` returned while the pool thread
takes its reference. -/
example : run step State.initial
    [.newObject [], .newObject [], .newObject [],
      .submit (.queueWork 0 1 2) .accepted, .work 3, .act (.drop 3)] =
    .error .dataRace := rfl

/-- A request that is cancelled again completes again, without a callback. -/
example : run step State.initial
    [.newObject [], .newObject [], .submit (.fsClose 0 1) .accepted,
      .act (.dup 2), .act (.dup 2), .cancel 2 true, .complete 2 (-125),
      .cancel 2 true, .complete 2 (-125)] =
    .error .nullPointer := rfl

end Runs

end UvMbt.Requests
