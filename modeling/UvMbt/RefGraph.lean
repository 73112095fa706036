/-
The graph of references between the objects of a heap: what a set of owned
references keeps alive, and heaps in which references do not go round.
-/
import Mathlib.Algebra.Order.Group.Nat
import UvMbt.RefHeap

set_option autoImplicit false

namespace RefHeap

universe u

variable {β : Type u}

/-- A part of the new heap is the old one: only the objects at some addresses
are rewritten, and nothing is freed. -/
structure Rewrites (changed : List Addr) (old new : Heap β) : Prop where
  length_le : old.cells.length ≤ new.cells.length
  objAt_iff : ∀ addr obj, addr < old.cells.length → addr ∉ changed →
    (ObjAt new addr obj ↔ ObjAt old addr obj)
  lost_eq : new.lost = old.lost

theorem Rewrites.refl (changed : List Addr) (heap : Heap β) :
    Rewrites changed heap heap :=
  ⟨Nat.le_refl _, fun _ _ _ _ => Iff.rfl, rfl⟩

theorem Rewrites.trans {changed : List Addr} {first second third : Heap β}
    (hfirst : Rewrites changed first second)
    (hsecond : Rewrites changed second third) :
    Rewrites changed first third where
  length_le := Nat.le_trans hfirst.length_le hsecond.length_le
  objAt_iff addr obj hlt hnot :=
    (hsecond.objAt_iff addr obj (Nat.lt_of_lt_of_le hlt hfirst.length_le)
      hnot).trans (hfirst.objAt_iff addr obj hlt hnot)
  lost_eq := hsecond.lost_eq.trans hfirst.lost_eq

theorem Rewrites.mono {changed more : List Addr} {old new : Heap β}
    (hrewrites : Rewrites changed old new) (hsub : changed ⊆ more) :
    Rewrites more old new :=
  ⟨hrewrites.length_le, fun addr obj hlt hnot =>
    hrewrites.objAt_iff addr obj hlt (fun hmem => hnot (hsub hmem)),
    hrewrites.lost_eq⟩

theorem Rewrites.keeps {changed : List Addr} {old new : Heap β}
    (hrewrites : Rewrites changed old new) : Keeps changed old new :=
  ⟨hrewrites.length_le, fun addr obj hlt hnot =>
    (hrewrites.objAt_iff addr obj hlt hnot).mp⟩

theorem Rewrites.objAt {changed : List Addr} {old new : Heap β} {addr : Addr}
    {obj : β} (hrewrites : Rewrites changed old new) (hobj : ObjAt old addr obj)
    (hnot : addr ∉ changed) : ObjAt new addr obj :=
  (hrewrites.objAt_iff addr obj hobj.lt_length hnot).mpr hobj

/-- Rewriting objects that the old heap does not have. -/
theorem Rewrites.of_new {changed : List Addr} {old new : Heap β}
    (hrewrites : Rewrites changed old new)
    (hnew : ∀ addr ∈ changed, old.cells.length ≤ addr) : Rewrites [] old new :=
  ⟨hrewrites.length_le, fun addr obj hlt _ =>
    hrewrites.objAt_iff addr obj hlt
      (fun hmem => Nat.not_lt.mpr (hnew addr hmem) hlt), hrewrites.lost_eq⟩

/-- Nothing dies when the rewritten objects do not. -/
theorem Rewrites.live {changed : List Addr} {old new : Heap β} {addr : Addr}
    (hrewrites : Rewrites changed old new) (hlive : Live old addr)
    (hchanged : ∀ target ∈ changed, Live new target) : Live new addr := by
  by_cases hmem : addr ∈ changed
  · exact hchanged addr hmem
  · obtain ⟨obj, hobj⟩ := hlive
    exact (hrewrites.objAt hobj hmem).live

theorem put_keeps {heap next : Heap β} {addr : Addr} {obj : β}
    (hrun : heap.put addr obj = .ok next) :
    Keeps [addr] heap next := by
  cases hcell : heap.cell? addr with
  | none => simp [Heap.put, hcell] at hrun
  | some cell =>
      simp only [Heap.put, hcell, Except.ok.injEq] at hrun
      subst hrun
      constructor
      · simp [Heap.setCell]
      · intro other found _ hnot hobj
        exact (objAt_setCell_of_ne (by simpa using hnot)).mp hobj

theorem incref_live {heap next : Heap β} {addr other : Addr}
    (hrun : heap.incref addr = .ok next)
    (hlive : Live heap other) : Live next other := by
  rcases hlive with ⟨obj, rc, hother⟩
  cases hcell : heap.cell? addr with
  | none => simp [Heap.incref, hcell] at hrun
  | some cell =>
      simp only [Heap.incref, hcell, Except.ok.injEq] at hrun
      subst hrun
      by_cases heq : other = addr
      · subst heq
        exact ⟨cell.obj, cell.rc + 1,
          cell?_setCell_self (ObjAt.lt_length ⟨rc, hother⟩)⟩
      · exact ⟨obj, rc, (cell?_setCell_of_ne heq).trans hother⟩

theorem alloc_live {heap : Heap β} {obj : β} {other : Addr}
    (hlive : Live heap other) :
    Live (heap.alloc obj).1 other := by
  rcases hlive with ⟨found, rc, hother⟩
  have hlt : other < heap.cells.length := ObjAt.lt_length ⟨rc, hother⟩
  refine ⟨found, rc, ?_⟩
  rw [Heap.cell?] at hother ⊢
  rw [Heap.alloc, List.getElem?_append_left hlt, hother]

@[simp] theorem alloc_snd (heap : Heap β) (obj : β) :
    (heap.alloc obj).2 = heap.cells.length := rfl

variable [Ownership β]

/-- The references that the object at an address holds. -/
def Heap.children (heap : Heap β) (source : Addr) : List Addr :=
  ((heap.cell? source).map (fun cell => refs cell.obj)).getD []

/-- Some chain of at most so many references leads from an owned one to the
address. -/
def Heap.HeldWithin (heap : Heap β) (own : Multiset Addr) : Nat → Addr → Prop
  | 0, addr => addr ∈ own
  | fuel + 1, addr => addr ∈ own ∨ ∃ source ∈ List.range heap.cells.length,
      heap.HeldWithin own fuel source ∧ addr ∈ heap.children source

/-- The owned references keep the address alive. -/
def Held (heap : Heap β) (own : Multiset Addr) (addr : Addr) : Prop :=
  heap.HeldWithin own heap.cells.length addr

instance decidableHeldWithin (heap : Heap β) (own : Multiset Addr) :
    ∀ fuel addr, Decidable (heap.HeldWithin own fuel addr)
  | 0, addr => inferInstanceAs (Decidable (addr ∈ own))
  | fuel + 1, addr =>
      have := decidableHeldWithin heap own fuel
      inferInstanceAs (Decidable (addr ∈ own ∨
        ∃ source ∈ List.range heap.cells.length,
          heap.HeldWithin own fuel source ∧ addr ∈ heap.children source))

instance (heap : Heap β) (own : Multiset Addr) (addr : Addr) :
    Decidable (Held heap own addr) :=
  decidableHeldWithin heap own heap.cells.length addr

variable {heap : Heap β} {own : Multiset Addr} {addr : Addr}

theorem exists_objAt_of_mem_children {target : Addr}
    (hmem : target ∈ heap.children addr) :
    ∃ obj, ObjAt heap addr obj ∧ target ∈ refs obj := by
  cases hcell : heap.cell? addr with
  | none => simp [Heap.children, hcell] at hmem
  | some cell =>
      refine ⟨cell.obj, ⟨cell.rc, hcell⟩, ?_⟩
      simpa [Heap.children, hcell] using hmem

/-- What holds of the owned references and goes from an object to what it
refers to holds of everything they keep alive. -/
theorem Held.rule {property : Addr → Prop}
    (hown : ∀ owned ∈ own, property owned)
    (hchild : ∀ source obj, ObjAt heap source obj → property source →
      ∀ target ∈ refs obj, property target)
    (hheld : Held heap own addr) : property addr := by
  have hwithin : ∀ fuel target, heap.HeldWithin own fuel target →
      property target := by
    intro fuel
    induction fuel with
    | zero => exact fun target htarget => hown target htarget
    | succ fuel ih =>
        intro target htarget
        rcases htarget with howned | ⟨source, -, hsource, hmem⟩
        · exact hown target howned
        · obtain ⟨obj, hobj, hrefs⟩ := exists_objAt_of_mem_children hmem
          exact hchild source obj hobj (ih source hsource) target hrefs
  exact hwithin _ addr hheld

/-- What stays held by a part of the ledger whose references live on survives
a step that frees nothing else. -/
theorem Held.live_of_keeps {next : Heap β} {changed : List Addr}
    {own' : Multiset Addr} (hheld : Held heap own addr)
    (hkeeps : Keeps changed heap next) (hbalanced : Balanced next own')
    (hown : ∀ owned ∈ own, Live next owned)
    (hchanged : ∀ source ∈ changed, ∀ obj, ObjAt heap source obj →
      ∀ target ∈ refs obj, Live next target) : Live next addr := by
  refine Held.rule hown ?_ hheld
  intro source obj hobj hlive target htarget
  by_cases hsource : source ∈ changed
  · exact hchanged source hsource obj hobj target htarget
  · exact hbalanced.live_of_refs (hkeeps.objAt hobj hsource hlive) htarget

/-- What a part of the owned references keeps alive stays alive, if only the
object itself is rewritten. -/
theorem Held.live_of_rewritten {next : Heap β} {own' : Multiset Addr}
    (hheld : Held heap own addr) (hkeeps : Keeps [addr] heap next)
    (hbalanced : Balanced next own') (hle : own ≤ own') : Live next addr := by
  -- a chain of references may pass through the rewritten object
  let survives : Addr → Prop := fun target => Live next addr ∨ Live next target
  have hreached : survives addr := by
    apply Held.rule ?_ ?_ hheld
    · intro owned howned
      exact Or.inr (hbalanced.live (Multiset.mem_of_le hle howned))
    · intro source obj hobj hsource target htarget
      rcases hsource with hlive | hlive
      · exact Or.inl hlive
      · by_cases heq : source = addr
        · subst heq
          exact Or.inl hlive
        · have hkept := hkeeps.objAt hobj (by simpa using heq) hlive
          exact Or.inr (hbalanced.live_of_refs hkept htarget)
  exact hreached.elim id id

theorem incref_rewrites (hbalanced : Balanced heap own)
    (hlive : Live heap addr) :
    ∃ next, heap.incref addr = .ok next ∧ Balanced next (addr ::ₘ own) ∧
      Rewrites [] heap next ∧ next.cells.length = heap.cells.length := by
  obtain ⟨next, hrun, hnext, hiff, hlength, hlost⟩ :=
    incref_spec hbalanced hlive
  exact ⟨next, hrun, hnext, ⟨Nat.le_of_eq hlength.symm,
    fun other obj _ _ => hiff other obj, hlost⟩, hlength⟩

theorem put_rewrites {old : β} (new : β) (own' : Multiset Addr)
    (hbalanced : Balanced heap own) (hobj : ObjAt heap addr old)
    (hmove : own' + ↑(refs new) = own + ↑(refs old)) :
    ∃ next, heap.put addr new = .ok next ∧ Balanced next own' ∧
      ObjAt next addr new ∧ Rewrites [addr] heap next ∧
      next.cells.length = heap.cells.length := by
  obtain ⟨next, hrun, hnext, hobj', hiff, hlength, hlost⟩ :=
    put_spec new own' hbalanced hobj hmove
  refine ⟨next, hrun, hnext, hobj', ⟨Nat.le_of_eq hlength.symm, ?_, hlost⟩,
    hlength⟩
  intro other obj _ hnot
  exact hiff other obj (List.ne_of_not_mem_cons hnot)

theorem alloc_rewrites {obj : β} (hbalanced : Balanced heap (↑(refs obj) + own)) :
    Balanced (heap.alloc obj).1 (heap.cells.length ::ₘ own) ∧
      ObjAt (heap.alloc obj).1 heap.cells.length obj ∧
      Rewrites [] heap (heap.alloc obj).1 := by
  obtain ⟨hnext, hobj, hiff⟩ := alloc_spec hbalanced
  refine ⟨hnext, hobj, ⟨?_, fun other obj' hlt _ => hiff other obj' hlt, rfl⟩⟩
  simp [Heap.alloc]

/-- References point into the heap. -/
theorem Balanced.lt_of_refs (hbalanced : Balanced heap own) {obj : β}
    (hobj : ObjAt heap addr obj) {target : Addr} (htarget : target ∈ refs obj) :
    target < heap.cells.length := by
  obtain ⟨_, hlive⟩ := hbalanced.live_of_refs hobj htarget
  exact hlive.lt_length

theorem Balanced.lt_of_mem (hbalanced : Balanced heap own) (hmem : addr ∈ own) :
    addr < heap.cells.length := by
  obtain ⟨_, hlive⟩ := hbalanced.live hmem
  exact hlive.lt_length

/-- References do not go round: they lower some rank. -/
def Acyclic (heap : Heap β) : Prop :=
  ∃ rank : Addr → Nat, ∀ source obj, ObjAt heap source obj →
    ∀ target ∈ refs obj, rank target < rank source

theorem acyclic_empty : Acyclic (Heap.empty : Heap β) := by
  refine ⟨id, ?_⟩
  intro source obj hobj
  exact absurd hobj.lt_length (Nat.not_lt_zero source)

/-- Nothing that is live at an address refers to more than before. -/
theorem Acyclic.of_refs {next : Heap β} (hacyclic : Acyclic heap)
    (hrefs : ∀ source obj, ObjAt next source obj →
      ∃ old, ObjAt heap source old ∧ refs obj ⊆ refs old) : Acyclic next := by
  obtain ⟨rank, hrank⟩ := hacyclic
  refine ⟨rank, ?_⟩
  intro source obj hobj target htarget
  obtain ⟨old, hold, hsub⟩ := hrefs source obj hobj
  exact hrank source old hold target (hsub htarget)

theorem Acyclic.of_keeps {next : Heap β} (hacyclic : Acyclic heap)
    (hkeeps : Keeps [] heap next)
    (hlength : next.cells.length = heap.cells.length) : Acyclic next := by
  refine hacyclic.of_refs ?_
  intro source obj hobj
  have hlt : source < heap.cells.length := hlength ▸ hobj.lt_length
  exact ⟨obj, hkeeps.objAt_old source obj hlt (by simp) hobj,
    List.Subset.refl _⟩

/-- An object hands references over to the ledger. -/
theorem put_shrink {old : β} (new : β) (gain : List Addr)
    (hbalanced : Balanced heap own) (hacyclic : Acyclic heap)
    (hobj : ObjAt heap addr old)
    (hmove : (↑gain + ↑(refs new) : Multiset Addr) = ↑(refs old)) :
    ∃ next, heap.put addr new = .ok next ∧ Balanced next (↑gain + own) ∧
      Acyclic next ∧ ObjAt next addr new ∧ Rewrites [addr] heap next ∧
      next.cells.length = heap.cells.length := by
  obtain ⟨next, hput, hnext, hobj', hrewrites, hlength⟩ :=
    put_rewrites new (↑gain + own) hbalanced hobj (by rw [← hmove]; abel)
  refine ⟨next, hput, hnext, hacyclic.of_refs ?_, hobj', hrewrites, hlength⟩
  intro source obj hsource
  by_cases hne : source = addr
  · subst hne
    cases hsource.unique hobj'
    refine ⟨old, hobj, fun target htarget => ?_⟩
    rw [← Multiset.mem_coe, ← hmove]
    exact Multiset.mem_add.mpr (Or.inr (Multiset.mem_coe.mpr htarget))
  · have hlt : source < heap.cells.length := hlength ▸ hsource.lt_length
    exact ⟨obj, (hrewrites.objAt_iff source obj hlt (by simpa using hne)).mp
      hsource, List.Subset.refl _⟩

/-- New objects that refer to old ones, or to new ones that rank lower. -/
theorem Acyclic.of_fresh {next : Heap β} (hacyclic : Acyclic heap)
    (hbalanced : Balanced heap own) (hrewrites : Rewrites [] heap next)
    (fresh : Addr → Nat)
    (hfresh : ∀ source obj, heap.cells.length ≤ source →
      ObjAt next source obj → ∀ target ∈ refs obj,
        target < heap.cells.length ∨ fresh target < fresh source) :
    Acyclic next := by
  obtain ⟨rank, hrank⟩ := hacyclic
  let bound := (Finset.range heap.cells.length).sup rank
  have hbound : ∀ target, target < heap.cells.length → rank target ≤ bound :=
    fun target hlt => Finset.le_sup (Finset.mem_range.mpr hlt)
  refine ⟨fun addr => if addr < heap.cells.length then rank addr
    else bound + 1 + fresh addr, ?_⟩
  intro source obj hobj target htarget
  by_cases hsource : source < heap.cells.length
  · have hold := (hrewrites.objAt_iff source obj hsource (by simp)).mp hobj
    have hlt := hbalanced.lt_of_refs hold htarget
    simp only [hsource, hlt, ↓reduceIte]
    exact hrank source obj hold target htarget
  · simp only [hsource, ↓reduceIte]
    by_cases hlt : target < heap.cells.length
    · have hle := hbound target hlt
      simp only [hlt, ↓reduceIte]
      omega
    · have hlower := (hfresh source obj (Nat.not_lt.mp hsource) hobj target
        htarget).resolve_left hlt
      simp only [hlt, ↓reduceIte]
      omega

theorem Acyclic.alloc {obj : β} (hacyclic : Acyclic heap)
    (hbalanced : Balanced heap (↑(refs obj) + own)) :
    Acyclic (heap.alloc obj).1 := by
  obtain ⟨-, hnew, hrewrites⟩ := alloc_rewrites hbalanced
  refine hacyclic.of_fresh hbalanced hrewrites (fun _ => 0) ?_
  intro source obj' hle hobj target htarget
  have hlt := hobj.lt_length
  simp only [Heap.alloc, List.length_append, List.length_singleton] at hlt
  cases Nat.le_antisymm (Nat.lt_succ_iff.mp hlt) hle
  cases hobj.unique hnew
  exact Or.inl (hbalanced.lt_of_mem
    (Multiset.mem_add.mpr (Or.inl (Multiset.mem_coe.mpr htarget))))

/-- Once nobody outside owns a reference, a heap without lost references in
which references do not go round is empty. -/
theorem Acyclic.all_freed (hacyclic : Acyclic heap)
    (hbalanced : Balanced heap 0) (hlost : heap.lost = []) (addr : Addr) :
    heap.cell? addr = none := by
  obtain ⟨rank, hrank⟩ := hacyclic
  exact hbalanced.all_freed hlost rank hrank addr

end RefHeap
