/-
The loop's reference to a handle and the handle's to its loop: in every run of
a proper kind that keeps to the rules, every count is the number of owners, the
loop owns the handle until the close trampoline, and nothing is left once the
handle is closed and dropped.
-/
import UvMbt.SlotAgreement

set_option autoImplicit false

namespace UvMbt

open RefHeap HandleState GuardedRun

/-- How many references libuv's registration of a handle stands for. -/
def Life.registered : Life → Nat
  | .opened | .closing _ => 1
  | .made | .failed | .closed _ => 0

section Counted

variable (kind : Kind) (s : HandleState)

/-- What the ownership model says of a state: `count_eq` is about the owners of
every object, the user, other objects, a running alloc trampoline and libuv. -/
structure OwnsReferences : Prop where
  count_eq : s.life ≠ .failed → ∀ addr, s.heap.rc addr =
    s.user.count addr + s.heap.edges.count addr + (s.saved kind).count addr +
      if addr = handleAddr then s.life.registered else 0
  held : s.life.registered = 1 → ∃ handle,
    ObjAt s.heap handleAddr (.handle handle) ∧ handle.loop = some loopAddr ∧
      Live s.heap loopAddr
  freed : ∀ closeCb, s.life = .closed closeCb → s.user = 0 →
    ∀ addr, s.heap.cell? addr = none

/-- A step of a run that keeps to the slot rule, in which a listen finds the
slot empty and nothing is started on a closed handle. -/
def CountAllowed (label : Label) : Prop :=
  Contract kind s label ∧ SlotRule kind s label ∧ CountRule s label

instance : DecidablePred (CountAllowed kind s) := fun _ =>
  inferInstanceAs (Decidable (_ ∧ _ ∧ _))

variable {kind s}

theorem CountAllowed.allowed (hproper : kind.Proper) {label : Label}
    (hallowed : CountAllowed kind s label) :
    Allowed kind False True s label :=
  ⟨hallowed.1, fun hnot => absurd hproper hnot, hallowed.2.1, False.elim,
    fun _ => hallowed.2.2⟩

theorem Life.kept_eq_registered {life : Life} (hlife : life ≠ .failed) :
    life.kept = life.registered := by
  cases life with
  | failed => exact absurd rfl hlife
  | made | opened | closing _ | closed _ => rfl

theorem Inv.count_eq (hinv : Inv kind False True s) (hproper : kind.Proper)
    (hlife : s.life ≠ .failed) (addr : Addr) :
    s.heap.rc addr = s.user.count addr + s.heap.edges.count addr +
      (s.saved kind).count addr +
        if addr = handleAddr then s.life.registered else 0 := by
  have hcount := hinv.base.balanced.count_eq addr
  have hkept := (hinv.kept hproper).trans (Life.kept_eq_registered hlife)
  rw [hinv.lost trivial hlife, HandleState.own, Multiset.count_add,
    Multiset.coe_count, count_ledger, hkept] at hcount
  by_cases haddr : addr = handleAddr
  · subst haddr
    simp only [↓reduceIte, List.count_nil] at hcount ⊢
    omega
  · simp only [haddr, ↓reduceIte, List.count_nil] at hcount ⊢
    omega

theorem Inv.held (hinv : Inv kind False True s) (hproper : kind.Proper)
    (hlife : s.life.registered = 1) :
    ∃ handle, ObjAt s.heap handleAddr (.handle handle) ∧
      handle.loop = some loopAddr ∧ Live s.heap loopAddr := by
  have hopen : s.life ≠ .made ∧ s.life ≠ .failed := by
    constructor <;>
    · intro h
      rw [h] at hlife
      cases hlife
  have hkept := (hinv.kept hproper).trans (Life.kept_eq_registered hopen.2)
  have hone : s.Backed 1 := by
    rw [HandleState.Backed]
    omega
  obtain ⟨handle, hobj, hkind⟩ := hinv.base.handle hone
  have hloop : handle.loop = some loopAddr := by
    rw [(hinv.slot handle hobj).loop_eq, if_neg]
    rintro (h | h)
    · exact hopen.1 h
    · exact hopen.2 h
  refine ⟨handle, hobj, hloop, hinv.base.balanced.live_of_refs hobj ?_⟩
  rw [refs_handle, HandleObj.loopRefs, hkind, if_neg hproper.2.1, hloop]
  simp

/-- References go down: bytes lie lowest, and the handle holds only its loop
once its slot is empty. -/
theorem Inv.refs_lt (hinv : Inv kind False True s) {closeCb : Addr}
    (hclosed : s.life = .closed closeCb) :
    ∀ source obj, ObjAt s.heap source obj → ∀ target ∈ refs obj,
      (if s.isBytes target then 0 else target + 1) <
        if s.isBytes source then 0 else source + 1 := by
  intro source obj hobj target htarget
  have hsource : s.isBytes source = false := by
    cases hbytes : s.isBytes source with
    | false => rfl
    | true =>
        rw [hobj.unique (isBytes_objAt hbytes)] at htarget
        cases htarget
  rw [hsource]
  by_cases hhandle : source = handleAddr
  · subst hhandle
    obtain ⟨handle, rfl⟩ := hinv.base.typed _ hobj
    have hempty := (hinv.slot handle hobj).closed trivial closeCb hclosed
    have hloop := (hinv.slot handle hobj).loop_eq
    rw [if_neg (by simp [hclosed])] at hloop
    rw [refs_handle, hempty, HandleObj.loopRefs, hloop] at htarget
    have hlow : target = loopAddr := by
      by_cases htty : handle.kind = .tty
      · simp [htty] at htarget
      · simpa [htty] using htarget
    subst hlow
    split
    · exact Nat.succ_pos _
    · exact Nat.lt_succ_self _
  · rcases hinv.ranked trivial source obj hobj hhandle target htarget with
      hlt | hbytes
    · split
      · exact Nat.succ_pos _
      · exact Nat.succ_lt_succ hlt
    · obtain ⟨rc, hcell⟩ := hbytes
      simp [HandleState.isBytes, hcell]

/-- Once the handle is closed and the user owns nothing, the heap is empty. -/
theorem Inv.freed (hinv : Inv kind False True s) (hproper : kind.Proper)
    {closeCb : Addr} (hclosed : s.life = .closed closeCb) (huser : s.user = 0)
    (addr : Addr) : s.heap.cell? addr = none := by
  have hidle : s.phase = .idle :=
    (hinv.control.stopped (by simp [hclosed])).2.2
  have hkept : s.kept = 0 := by
    rw [hinv.kept hproper, hclosed]
    rfl
  have hown : s.own kind = 0 := by
    have hsaved : s.saved kind = [] := by
      simp only [HandleState.saved, hidle]
      cases kind.receiver <;> rfl
    rw [HandleState.own, hsaved, huser, hkept]
    rfl
  exact (hinv.base.balanced.congr hown).all_freed
    (hinv.lost trivial (by simp [hclosed])) _ (hinv.refs_lt hclosed) addr

theorem Inv.ownsReferences (hinv : Inv kind False True s)
    (hproper : kind.Proper) : OwnsReferences kind s where
  count_eq hlife addr := hinv.count_eq hproper hlife addr
  held hlife := hinv.held hproper hlife
  freed _ hclosed huser addr := hinv.freed hproper hclosed huser addr

/-- In every run of a handle that is no async, tty or signal handle and that
keeps to the rules, libuv's registration owns one reference from init to the
close trampoline, the handle owns its loop, every count is the number of
owners, and nothing is left once the handle is closed and dropped. -/
theorem owns_references (kind : Kind) (hproper : kind.Proper)
    (labels : List Label)
    (hadmissible : Admissible (CountAllowed kind) (step kind)
      (HandleState.initial kind) labels) :
    Settles (fun fault => fault = .nullArgument) (OwnsReferences kind)
      (run (step kind) (HandleState.initial kind) labels) := by
  have hsettles := run_settles
    (fun state label hinv (hallowed : CountAllowed kind state label) =>
      step_settles (fun _ => hproper.2.1) label hinv (hallowed.allowed hproper))
    (initial_inv kind False True) hadmissible
  cases hrun : run (step kind) (HandleState.initial kind) labels with
  | error fault => rwa [hrun] at hsettles
  | ok final =>
      rw [hrun] at hsettles
      exact hsettles.ownsReferences hproper

end Counted

section Runs

/-- A timer that fires, is closed and then dropped. -/
def fireAndClose : List Label :=
  [.dup loopAddr, .dup handleAddr, .init none true, .newClosure .timer [],
    .dup handleAddr, .start 0 2 none .accepted, .event true, .drop 2,
    .drop handleAddr, .newClosure .close [], .dup handleAddr, .close 3,
    .drop handleAddr, .closed, .drop 3, .drop loopAddr]

theorem owns_references_fireAndClose :
    Settles (fun fault => fault = .nullArgument) (OwnsReferences .timer)
      (run (step .timer) (HandleState.initial .timer) fireAndClose) :=
  owns_references .timer (by decide) fireAndClose (by decide)

/-- An async handle whose last reference the user drops while it is open. -/
def dropOpenAsync : List Label :=
  [.newClosure .async [], .dup loopAddr, .dup handleAddr, .init (some 2) true,
    .drop handleAddr]

theorem dropOpenAsync_frees :
    Admissible (Contract .async) (step .async) (HandleState.initial .async)
        dropOpenAsync ∧
      ∃ s, run (step .async) (HandleState.initial .async) dropOpenAsync =
          .ok s ∧
        s.life = .opened ∧ s.heap.cell? handleAddr = none :=
  ⟨by decide, _, rfl, rfl, by decide⟩

end Runs

end UvMbt
