/-
A heap of reference-counted objects.  Every object says which references its
finalizer releases and which ones it holds without releasing them.  A ledger is
a multiset of addresses: the references that something outside the heap owns.
The heap is balanced for a ledger when every count is the number of its owners.
-/
import Mathlib.Data.Multiset.AddSub
import Mathlib.Data.Finset.Max
import Mathlib.Algebra.Order.BigOperators.Group.List
import Mathlib.Tactic.Abel

set_option autoImplicit false

namespace RefHeap

universe u

/-- An object's address: the order of its allocation. -/
abbrev Addr := Nat

inductive Fault where
  | useAfterFree
  | nullPointer
  | typeConfusion
  | nullArgument
  | dataRace
  deriving Repr, DecidableEq

/-- The references an object holds: those its finalizer releases, and those
that are lost with it. -/
class Ownership (β : Type u) where
  drops : β → List Addr
  leaks : β → List Addr

structure Cell (β : Type u) where
  rc : Nat
  obj : β
  deriving Repr, DecidableEq

/-- The cells in order of allocation, `none` once freed, and the references
that no owner is left to release. -/
structure Heap (β : Type u) where
  cells : List (Option (Cell β))
  lost : List Addr
  deriving Repr, DecidableEq

open Ownership

variable {β : Type u}

/-- Every reference an object holds. -/
def refs [Ownership β] (obj : β) : List Addr :=
  drops obj ++ leaks obj

namespace Heap

def empty : Heap β := ⟨[], []⟩

/-- The live cell at an address. -/
def cell? (heap : Heap β) (addr : Addr) : Option (Cell β) :=
  heap.cells[addr]?.join

/-- The count of an address, zero once it is freed. -/
def rc (heap : Heap β) (addr : Addr) : Nat :=
  ((heap.cell? addr).map Cell.rc).getD 0

/-- Read an object. -/
def get (heap : Heap β) (addr : Addr) : Except Fault β :=
  match heap.cell? addr with
  | some cell => .ok cell.obj
  | none => .error .useAfterFree

/-- Replace the cell at an address. -/
def setCell (heap : Heap β) (addr : Addr) (cell : Option (Cell β)) : Heap β :=
  ⟨heap.cells.set addr cell, heap.lost⟩

/-- A new object with one reference, owned by the caller. -/
def alloc (heap : Heap β) (obj : β) : Heap β × Addr :=
  (⟨heap.cells ++ [some ⟨1, obj⟩], heap.lost⟩, heap.cells.length)

def incref (heap : Heap β) (addr : Addr) : Except Fault (Heap β) :=
  match heap.cell? addr with
  | some cell => .ok (heap.setCell addr (some ⟨cell.rc + 1, cell.obj⟩))
  | none => .error .useAfterFree

/-- Overwrite an object; the references it held and holds are the caller's
concern. -/
def put (heap : Heap β) (addr : Addr) (obj : β) : Except Fault (Heap β) :=
  match heap.cell? addr with
  | some cell => .ok (heap.setCell addr (some ⟨cell.rc, obj⟩))
  | none => .error .useAfterFree

/-- Forget an owned reference without releasing it. -/
def forget (heap : Heap β) (addr : Addr) : Heap β :=
  ⟨heap.cells, addr :: heap.lost⟩

/-- The sum of all counts, which bounds the number of releases. -/
def weight (heap : Heap β) : Nat :=
  (heap.cells.map (fun cell => (cell.map Cell.rc).getD 0)).sum

variable [Ownership β]

/-- The references held by the objects of the heap. -/
def edges (heap : Heap β) : List Addr :=
  heap.cells.flatMap (fun cell => (cell.map (fun c => refs c.obj)).getD [])

/-- Free a cell whose last reference goes. -/
def free (heap : Heap β) (addr : Addr) (obj : β) : Heap β :=
  ⟨heap.cells.set addr none, leaks obj ++ heap.lost⟩

/-- Release a list of references: a count that is not the last is lowered, the
last one frees the object and releases what its finalizer releases. -/
def release : Nat → Heap β → List Addr → Except Fault (Heap β)
  | _, heap, [] => .ok heap
  | 0, _, _ :: _ => .error .useAfterFree
  | fuel + 1, heap, addr :: rest =>
      match heap.cell? addr with
      | none => .error .useAfterFree
      | some cell =>
          if cell.rc ≤ 1 then
            release fuel (heap.free addr cell.obj) (drops cell.obj ++ rest)
          else
            release fuel (heap.setCell addr (some ⟨cell.rc - 1, cell.obj⟩))
              rest

/-- Release one reference. -/
def decref (heap : Heap β) (addr : Addr) : Except Fault (Heap β) :=
  release heap.weight heap [addr]

end Heap

/-- The object at a live address. -/
def ObjAt (heap : Heap β) (addr : Addr) (obj : β) : Prop :=
  ∃ rc, heap.cell? addr = some ⟨rc, obj⟩

def Live (heap : Heap β) (addr : Addr) : Prop :=
  ∃ obj, ObjAt heap addr obj

theorem ObjAt.live {heap : Heap β} {addr : Addr} {obj : β}
    (hobj : ObjAt heap addr obj) : Live heap addr :=
  ⟨obj, hobj⟩

theorem ObjAt.unique {heap : Heap β} {addr : Addr} {left right : β}
    (hleft : ObjAt heap addr left) (hright : ObjAt heap addr right) :
    left = right := by
  obtain ⟨_, hleft⟩ := hleft
  obtain ⟨_, hright⟩ := hright
  rw [hleft] at hright
  cases hright
  rfl

theorem ObjAt.get {heap : Heap β} {addr : Addr} {obj : β}
    (hobj : ObjAt heap addr obj) : heap.get addr = .ok obj := by
  obtain ⟨rc, hcell⟩ := hobj
  simp [Heap.get, hcell]

theorem ObjAt.of_get {heap : Heap β} {addr : Addr} {obj : β}
    (hget : heap.get addr = .ok obj) : ObjAt heap addr obj := by
  unfold Heap.get at hget
  split at hget
  · rename_i cell hcell
    cases hget
    exact ⟨cell.rc, hcell⟩
  · cases hget

theorem ObjAt.lt_length {heap : Heap β} {addr : Addr} {obj : β}
    (hobj : ObjAt heap addr obj) : addr < heap.cells.length := by
  obtain ⟨rc, hcell⟩ := hobj
  by_contra hle
  have hnone : heap.cells[addr]? = none :=
    List.getElem?_eq_none (Nat.not_lt.mp hle)
  simp [Heap.cell?, hnone] at hcell

/-- Every count is the number of owners in the ledger, among the lost
references and among the objects; no live cell has count zero. -/
structure Balanced [Ownership β] (heap : Heap β) (own : Multiset Addr) :
    Prop where
  count_eq : ∀ addr, heap.rc addr =
    own.count addr + heap.lost.count addr + heap.edges.count addr
  pos : ∀ addr cell, heap.cell? addr = some cell → 0 < cell.rc

/-- A heap keeps another off some addresses: outside them, every object of the
new one that is not newer than the old heap was there before. -/
structure Keeps (changed : List Addr) (old new : Heap β) : Prop where
  length_le : old.cells.length ≤ new.cells.length
  objAt_old : ∀ addr obj, addr < old.cells.length → addr ∉ changed →
    ObjAt new addr obj → ObjAt old addr obj

theorem Keeps.refl (changed : List Addr) (heap : Heap β) :
    Keeps changed heap heap :=
  ⟨Nat.le_refl _, fun _ _ _ _ hobj => hobj⟩

theorem Keeps.trans {changed : List Addr} {first second third : Heap β}
    (hfirst : Keeps changed first second)
    (hsecond : Keeps changed second third) : Keeps changed first third where
  length_le := Nat.le_trans hfirst.length_le hsecond.length_le
  objAt_old addr obj hlt hnot hobj :=
    hfirst.objAt_old addr obj hlt hnot
      (hsecond.objAt_old addr obj (Nat.lt_of_lt_of_le hlt hfirst.length_le)
        hnot hobj)

theorem Keeps.mono {changed more : List Addr} {old new : Heap β}
    (hkeeps : Keeps changed old new) (hsub : changed ⊆ more) :
    Keeps more old new :=
  ⟨hkeeps.length_le, fun addr obj hlt hnot =>
    hkeeps.objAt_old addr obj hlt (fun hmem => hnot (hsub hmem))⟩

/-- What is kept and still live is unchanged. -/
theorem Keeps.objAt {changed : List Addr} {old new : Heap β}
    (hkeeps : Keeps changed old new) {addr : Addr} {obj : β}
    (hold : ObjAt old addr obj) (hnot : addr ∉ changed)
    (hlive : Live new addr) : ObjAt new addr obj := by
  obtain ⟨obj', hnew⟩ := hlive
  have hback := hkeeps.objAt_old addr obj' hold.lt_length hnot hnew
  rwa [hold.unique hback]

section Cells

variable {heap : Heap β} {addr other : Addr}

theorem cell?_setCell_self {cell : Option (Cell β)}
    (hlt : addr < heap.cells.length) :
    (heap.setCell addr cell).cell? addr = cell := by
  simp [Heap.cell?, Heap.setCell, hlt]

theorem cell?_setCell_of_ne {cell : Option (Cell β)} (hne : other ≠ addr) :
    (heap.setCell addr cell).cell? other = heap.cell? other := by
  simp [Heap.cell?, Heap.setCell, List.getElem?_set_ne hne.symm]

theorem objAt_setCell_self {rc : Nat} {obj : β}
    (hlt : addr < heap.cells.length) :
    ObjAt (heap.setCell addr (some ⟨rc, obj⟩)) addr obj :=
  ⟨rc, cell?_setCell_self hlt⟩

theorem objAt_setCell_of_ne {cell : Option (Cell β)} {obj : β}
    (hne : other ≠ addr) :
    ObjAt (heap.setCell addr cell) other obj ↔ ObjAt heap other obj := by
  simp [ObjAt, cell?_setCell_of_ne hne]

end Cells

section Sums

private theorem sum_map_set {α : Type u} (f : α → Nat) (xs : List α)
    {index : Nat} (hindex : index < xs.length) (x : α) :
    ((xs.set index x).map f).sum + f xs[index] = (xs.map f).sum + f x := by
  induction xs generalizing index with
  | nil => simp at hindex
  | cons head tail ih =>
      cases index with
      | zero =>
          simp only [List.set_cons_zero, List.map_cons, List.sum_cons,
            List.getElem_cons_zero]
          omega
      | succ index =>
          have htail := ih (Nat.lt_of_succ_lt_succ hindex)
          simp only [List.set_cons_succ, List.map_cons, List.sum_cons,
            List.getElem_cons_succ]
          omega

variable {heap : Heap β} {addr : Addr}

theorem cells_getElem {cell : Cell β} (hcell : heap.cell? addr = some cell) :
    ∃ hlt : addr < heap.cells.length, heap.cells[addr] = some cell := by
  have hlt : addr < heap.cells.length := ObjAt.lt_length ⟨cell.rc, hcell⟩
  refine ⟨hlt, ?_⟩
  simpa [Heap.cell?, List.getElem?_eq_getElem hlt] using hcell

theorem weight_setCell {cell : Cell β} (hcell : heap.cell? addr = some cell)
    (new : Option (Cell β)) :
    (heap.setCell addr new).weight + cell.rc =
      heap.weight + (new.map Cell.rc).getD 0 := by
  obtain ⟨hlt, hget⟩ := cells_getElem hcell
  have h := sum_map_set (fun cell : Option (Cell β) =>
    (cell.map Cell.rc).getD 0) heap.cells hlt new
  simpa [Heap.weight, Heap.setCell, hget] using h

theorem rc_of_cell {cell : Cell β} (hcell : heap.cell? addr = some cell) :
    heap.rc addr = cell.rc := by
  simp [Heap.rc, hcell]

theorem rc_le_weight (heap : Heap β) (addr : Addr) :
    heap.rc addr ≤ heap.weight := by
  cases hcell : heap.cell? addr with
  | none => simp [Heap.rc, hcell]
  | some cell =>
      have h := weight_setCell hcell none
      simp only [Heap.rc, hcell, Option.map_some, Option.getD_some]
      simp at h
      omega

variable [Ownership β]

theorem count_edges_setCell {cell : Cell β}
    (hcell : heap.cell? addr = some cell) (new : Option (Cell β))
    (target : Addr) :
    (heap.setCell addr new).edges.count target +
        (refs cell.obj).count target =
      heap.edges.count target +
        ((new.map (fun c => refs c.obj)).getD []).count target := by
  obtain ⟨hlt, hget⟩ := cells_getElem hcell
  have h := sum_map_set (fun cell : Option (Cell β) =>
    ((cell.map (fun c => refs c.obj)).getD []).count target) heap.cells hlt new
  simpa [Heap.edges, Heap.setCell, List.count_flatMap, Function.comp_def,
    hget] using h

end Sums

section Balance

variable [Ownership β] {heap : Heap β} {own : Multiset Addr} {addr : Addr}

/-- An owned reference points to a live object. -/
theorem Balanced.live (hbalanced : Balanced heap own) (hown : addr ∈ own) :
    Live heap addr := by
  have hcount := hbalanced.count_eq addr
  have hpos : 0 < own.count addr := Multiset.count_pos.mpr hown
  cases hcell : heap.cell? addr with
  | none =>
      simp only [Heap.rc, hcell, Option.map_none, Option.getD_none] at hcount
      omega
  | some cell => exact ⟨cell.obj, cell.rc, hcell⟩

/-- A reference held by a live object points to a live object. -/
theorem Balanced.live_of_refs (hbalanced : Balanced heap own) {obj : β}
    (hobj : ObjAt heap addr obj) {target : Addr}
    (htarget : target ∈ refs obj) : Live heap target := by
  obtain ⟨rc, hobj⟩ := hobj
  have hedges := count_edges_setCell hobj none target
  have hpos : 0 < (refs obj).count target := List.count_pos_iff.mpr htarget
  have hcount := hbalanced.count_eq target
  cases hcell : heap.cell? target with
  | none =>
      simp only [Heap.rc, hcell, Option.map_none, Option.getD_none] at hcount
      simp only [Option.map_none, Option.getD_none, List.count_nil] at hedges
      omega
  | some cell => exact ⟨cell.obj, cell.rc, hcell⟩

/-- The one accounting rule: replacing a cell keeps the balance when the
references that appear and disappear, in the ledger, among the lost ones and
in the object, match the change of the cell's count. -/
theorem Balanced.setCell (hbalanced : Balanced heap own) {cell : Cell β}
    (hcell : heap.cell? addr = some cell) (new : Option (Cell β))
    (lost : List Addr) (own' : Multiset Addr)
    (hpos : ∀ cell', new = some cell' → 0 < cell'.rc)
    (hmove : ∀ target,
      own'.count target + lost.count target +
          ((new.map (fun c => refs c.obj)).getD []).count target +
          (if target = addr then cell.rc else 0) =
        own.count target + heap.lost.count target +
          (refs cell.obj).count target +
          (if target = addr then (new.map Cell.rc).getD 0 else 0)) :
    Balanced ⟨heap.cells.set addr new, lost⟩ own' := by
  have hlt : addr < heap.cells.length := ObjAt.lt_length ⟨cell.rc, hcell⟩
  constructor
  · intro target
    have hcount := hbalanced.count_eq target
    have hedges := count_edges_setCell hcell new target
    have hmove := hmove target
    change (heap.setCell addr new).rc target = own'.count target +
      lost.count target + (heap.setCell addr new).edges.count target
    by_cases htarget : target = addr
    · subst htarget
      rw [rc_of_cell hcell] at hcount
      have hself : (heap.setCell target new).rc target =
          (new.map Cell.rc).getD 0 := by
        simp [Heap.rc, cell?_setCell_self hlt]
      simp only [↓reduceIte] at hmove
      omega
    · have hother : (heap.setCell addr new).rc target = heap.rc target := by
        simp [Heap.rc, cell?_setCell_of_ne htarget]
      simp only [htarget, ↓reduceIte] at hmove
      omega
  · intro target cell' hcell'
    by_cases htarget : target = addr
    · subst htarget
      exact hpos cell' ((cell?_setCell_self hlt).symm.trans hcell')
    · exact hbalanced.pos target cell'
        ((cell?_setCell_of_ne htarget).symm.trans hcell')

/-- Balance only depends on the references in the ledger. -/
theorem Balanced.congr (hbalanced : Balanced heap own)
    {own' : Multiset Addr} (heq : own = own') : Balanced heap own' :=
  heq ▸ hbalanced

theorem Balanced.forget (hbalanced : Balanced heap (addr ::ₘ own)) :
    Balanced (heap.forget addr) own where
  count_eq target := by
    have hcount := hbalanced.count_eq target
    have hrc : (heap.forget addr).rc target = heap.rc target := rfl
    have hedges : (heap.forget addr).edges = heap.edges := rfl
    rw [hrc, hedges, hcount]
    simp only [Heap.forget, Multiset.count_cons, List.count_cons]
    by_cases htarget : target = addr
    · subst htarget
      simp only [↓reduceIte, beq_self_eq_true]
      omega
    · have hne : ¬ addr = target := fun h => htarget h.symm
      simp [htarget, hne]
  pos := hbalanced.pos

end Balance

section Operations

variable [Ownership β] {heap : Heap β} {own : Multiset Addr} {addr : Addr}

theorem incref_spec (hbalanced : Balanced heap own) (hlive : Live heap addr) :
    ∃ next, heap.incref addr = .ok next ∧ Balanced next (addr ::ₘ own) ∧
      (∀ other obj, ObjAt next other obj ↔ ObjAt heap other obj) ∧
      next.cells.length = heap.cells.length ∧ next.lost = heap.lost := by
  obtain ⟨obj, rc, hcell⟩ := hlive
  have hlt : addr < heap.cells.length := ObjAt.lt_length ⟨rc, hcell⟩
  refine ⟨heap.setCell addr (some ⟨rc + 1, obj⟩), ?_, ?_, ?_, ?_, rfl⟩
  · simp [Heap.incref, hcell]
  · refine hbalanced.setCell hcell _ heap.lost _ ?_ ?_
    · intro cell' hcell'
      cases hcell'
      exact Nat.succ_pos rc
    · intro target
      by_cases htarget : target = addr
      · subst htarget
        simp only [Multiset.count_cons_self, Option.map_some,
          Option.getD_some, ↓reduceIte]
        omega
      · simp [htarget]
  · intro other obj'
    by_cases hother : other = addr
    · subst hother
      constructor
      · intro hobj
        rw [hobj.unique (objAt_setCell_self hlt)]
        exact ⟨rc, hcell⟩
      · intro hobj
        rw [hobj.unique ⟨rc, hcell⟩]
        exact objAt_setCell_self hlt
    · exact objAt_setCell_of_ne hother
  · simp [Heap.setCell]

/-- Writing an object moves references between it and the ledger. -/
theorem put_spec {old : β} (new : β) (own' : Multiset Addr)
    (hbalanced : Balanced heap own) (hobj : ObjAt heap addr old)
    (hmove : own' + ↑(refs new) = own + ↑(refs old)) :
    ∃ next, heap.put addr new = .ok next ∧ Balanced next own' ∧
      ObjAt next addr new ∧
      (∀ other obj, other ≠ addr →
        (ObjAt next other obj ↔ ObjAt heap other obj)) ∧
      next.cells.length = heap.cells.length ∧ next.lost = heap.lost := by
  obtain ⟨rc, hcell⟩ := hobj
  have hlt : addr < heap.cells.length := ObjAt.lt_length ⟨rc, hcell⟩
  refine ⟨heap.setCell addr (some ⟨rc, new⟩), ?_, ?_,
    objAt_setCell_self hlt, fun other obj hne => objAt_setCell_of_ne hne,
    ?_, rfl⟩
  · simp [Heap.put, hcell]
  · refine hbalanced.setCell hcell _ heap.lost _ ?_ ?_
    · intro cell' hcell'
      cases hcell'
      exact hbalanced.pos addr ⟨rc, old⟩ hcell
    · intro target
      have hcount := congrArg (Multiset.count target) hmove
      simp only [Multiset.count_add, Multiset.coe_count] at hcount
      simp only [Option.map_some, Option.getD_some]
      omega
  · simp [Heap.setCell]

/-- A new object takes the references it holds from the ledger. -/
theorem alloc_spec {obj : β} (hbalanced : Balanced heap (↑(refs obj) + own)) :
    Balanced (heap.alloc obj).1 (heap.cells.length ::ₘ own) ∧
      ObjAt (heap.alloc obj).1 heap.cells.length obj ∧
      (∀ other obj', other < heap.cells.length →
        (ObjAt (heap.alloc obj).1 other obj' ↔ ObjAt heap other obj')) := by
  have hnew : (heap.alloc obj).1.cell? heap.cells.length =
      some ⟨1, obj⟩ := by
    simp [Heap.alloc, Heap.cell?]
  have hold : ∀ other, other < heap.cells.length →
      (heap.alloc obj).1.cell? other = heap.cell? other := by
    intro other hlt
    simp [Heap.alloc, Heap.cell?, List.getElem?_append_left hlt]
  have hedges : (heap.alloc obj).1.edges = heap.edges ++ refs obj := by
    simp [Heap.alloc, Heap.edges]
  refine ⟨⟨?_, ?_⟩, ⟨1, hnew⟩, ?_⟩
  · intro target
    have hcount := hbalanced.count_eq target
    have hlost : (heap.alloc obj).1.lost = heap.lost := rfl
    rw [hedges, hlost]
    simp only [Multiset.count_add, Multiset.coe_count] at hcount
    simp only [Multiset.count_cons, List.count_append]
    rcases Nat.lt_trichotomy target heap.cells.length with hlt | heq | hgt
    · have hrc : (heap.alloc obj).1.rc target = heap.rc target := by
        simp [Heap.rc, hold target hlt]
      simp only [hrc, Nat.ne_of_lt hlt, ↓reduceIte]
      omega
    · subst heq
      have hrc : (heap.alloc obj).1.rc heap.cells.length = 1 := by
        simp [Heap.rc, hnew]
      have hnone : heap.rc heap.cells.length = 0 := by
        simp [Heap.rc, Heap.cell?]
      simp only [hrc, ↓reduceIte]
      omega
    · have hrc : (heap.alloc obj).1.rc target = 0 := by
        have hle : (heap.alloc obj).1.cells.length ≤ target := by
          simp only [Heap.alloc, List.length_append, List.length_singleton]
          omega
        simp [Heap.rc, Heap.cell?, List.getElem?_eq_none hle]
      have hnone : heap.rc target = 0 := by
        simp [Heap.rc, Heap.cell?, List.getElem?_eq_none (Nat.le_of_lt hgt)]
      simp only [hrc, Nat.ne_of_gt hgt, ↓reduceIte]
      omega
  · intro target cell hcell
    by_cases hlt : target < heap.cells.length
    · exact hbalanced.pos target cell ((hold target hlt).symm.trans hcell)
    · have hlen : target < (heap.alloc obj).1.cells.length :=
        ObjAt.lt_length ⟨cell.rc, hcell⟩
      simp only [Heap.alloc, List.length_append,
        List.length_singleton] at hlen
      have heq : target = heap.cells.length :=
        Nat.le_antisymm (Nat.lt_succ_iff.mp hlen) (Nat.not_lt.mp hlt)
      rw [heq, hnew] at hcell
      cases hcell
      exact Nat.one_pos
  · intro other obj' hlt
    simp [ObjAt, hold other hlt]

end Operations

section Rewrites

variable {heap : Heap β} {addr other : Addr}

theorem setCell_comm (hne : addr ≠ other) (cell cell' : Option (Cell β)) :
    (heap.setCell addr cell).setCell other cell' =
      (heap.setCell other cell').setCell addr cell := by
  simp [Heap.setCell, List.set_comm _ _ hne]

@[simp] theorem setCell_setCell (cell cell' : Option (Cell β)) :
    (heap.setCell addr cell).setCell addr cell' = heap.setCell addr cell' := by
  simp [Heap.setCell]

theorem setCell_self {cell : Cell β} (hcell : heap.cell? addr = some cell) :
    heap.setCell addr (some cell) = heap := by
  obtain ⟨hlt, hget⟩ := cells_getElem hcell
  simp [Heap.setCell, ← hget]

theorem lower_keeps {rc : Nat} (rc' : Nat) {obj : β}
    (hcell : heap.cell? addr = some ⟨rc, obj⟩) :
    Keeps [] heap (heap.setCell addr (some ⟨rc', obj⟩)) := by
  refine ⟨by simp [Heap.setCell], ?_⟩
  intro other obj' _ _ hother
  have hobj : ObjAt heap addr obj := ⟨rc, hcell⟩
  by_cases heq : other = addr
  · subst heq
    rwa [hother.unique (objAt_setCell_self hobj.lt_length)]
  · exact (objAt_setCell_of_ne heq).mp hother

theorem not_live_setCell_none (hlt : addr < heap.cells.length) :
    ¬ Live (heap.setCell addr none) addr := by
  intro hlive
  obtain ⟨obj, rc, hcell⟩ := hlive
  rw [cell?_setCell_self hlt] at hcell
  cases hcell

end Rewrites

section Release

variable [Ownership β] {heap : Heap β} {own : Multiset Addr} {addr : Addr}

/-- No object of the heap holds a reference that dies with it unreleased. -/
def Sealed (heap : Heap β) : Prop :=
  ∀ addr obj, ObjAt heap addr obj → leaks obj = []

theorem free_keeps (obj : β) (hlt : addr < heap.cells.length) :
    Keeps [] heap (heap.free addr obj) := by
  refine ⟨by simp [Heap.free], ?_⟩
  intro other obj' _ _ hother
  by_cases heq : other = addr
  · subst heq
    exact absurd ⟨obj', hother⟩ (not_live_setCell_none hlt)
  · exact (objAt_setCell_of_ne heq).mp hother

theorem Sealed.of_keeps {old new : Heap β} (hsealed : Sealed old)
    (hkeeps : Keeps [] old new)
    (hlength : new.cells.length = old.cells.length) : Sealed new := by
  intro addr obj hobj
  refine hsealed addr obj (hkeeps.objAt_old addr obj ?_ (by simp) hobj)
  exact hlength ▸ hobj.lt_length

/-- The ledger of a heap is the only one. -/
theorem Balanced.ledger_unique {own' : Multiset Addr}
    (hbalanced : Balanced heap own) (hother : Balanced heap own') :
    own = own' := by
  apply Multiset.ext.mpr
  intro target
  have hcount := hbalanced.count_eq target
  rw [hother.count_eq target] at hcount
  omega

/-- What a release does, by cases on the count of the first address. -/
theorem release_cons {fuel : Nat} {rest : List Addr} {rc : Nat} {obj : β}
    (hcell : heap.cell? addr = some ⟨rc, obj⟩) :
    Heap.release (fuel + 1) heap (addr :: rest) =
      if rc ≤ 1 then
        Heap.release fuel (heap.free addr obj) (drops obj ++ rest)
      else
        Heap.release fuel (heap.setCell addr (some ⟨rc - 1, obj⟩)) rest := by
  simp [Heap.release, hcell]

/-- The frame of a release: it writes no object and brings none back. -/
theorem release_keeps (fuel : Nat) (pending : List Addr) {next : Heap β}
    (hrun : Heap.release fuel heap pending = .ok next) :
    Keeps [] heap next ∧ next.cells.length = heap.cells.length ∧
      (Sealed heap → next.lost = heap.lost) := by
  induction fuel generalizing heap pending with
  | zero =>
      cases pending with
      | nil =>
          cases hrun
          exact ⟨Keeps.refl [] next, rfl, fun _ => rfl⟩
      | cons head rest => cases hrun
  | succ fuel ih =>
      cases pending with
      | nil =>
          cases hrun
          exact ⟨Keeps.refl [] next, rfl, fun _ => rfl⟩
      | cons head rest =>
          cases hcell : heap.cell? head with
          | none => simp [Heap.release, hcell] at hrun
          | some cell =>
              obtain ⟨rc, obj⟩ := cell
              have hlt : head < heap.cells.length :=
                ObjAt.lt_length ⟨rc, hcell⟩
              rw [release_cons hcell] at hrun
              by_cases hlast : rc ≤ 1
              · rw [if_pos hlast] at hrun
                obtain ⟨hkeeps, hlength, hlost⟩ := ih _ hrun
                have hfree := free_keeps obj hlt
                have hlength' : (heap.free head obj).cells.length =
                    heap.cells.length := by simp [Heap.free]
                refine ⟨hfree.trans hkeeps, hlength.trans hlength', ?_⟩
                intro hsealed
                rw [hlost (hsealed.of_keeps hfree hlength')]
                simp [Heap.free, hsealed head obj ⟨rc, hcell⟩]
              · rw [if_neg hlast] at hrun
                obtain ⟨hkeeps, hlength, hlost⟩ := ih _ hrun
                have hlower := lower_keeps (rc - 1) hcell
                have hlength' : (heap.setCell head
                    (some ⟨rc - 1, obj⟩)).cells.length =
                      heap.cells.length := by simp [Heap.setCell]
                exact ⟨hlower.trans hkeeps, hlength.trans hlength',
                  fun hsealed => hlost (hsealed.of_keeps hlower hlength')⟩

theorem Balanced.free {rest : List Addr} {obj : β}
    (hbalanced : Balanced heap (↑(addr :: rest) + own))
    (hcell : heap.cell? addr = some ⟨1, obj⟩) :
    Balanced (heap.free addr obj) (↑(drops obj ++ rest) + own) := by
  refine hbalanced.setCell hcell none _ _ (by simp) ?_
  intro target
  simp only [refs, Multiset.count_add, Multiset.coe_count,
    List.count_append, List.count_cons, Option.map_none, Option.getD_none,
    List.count_nil, beq_iff_eq]
  by_cases htarget : target = addr
  · simp only [htarget, ↓reduceIte]
    omega
  · have hne : ¬ addr = target := fun h => htarget h.symm
    simp only [htarget, hne, ↓reduceIte]
    omega

theorem Balanced.lower {rest : List Addr} {rc : Nat} {obj : β}
    (hbalanced : Balanced heap (↑(addr :: rest) + own))
    (hcell : heap.cell? addr = some ⟨rc + 2, obj⟩) :
    Balanced (heap.setCell addr (some ⟨rc + 1, obj⟩)) (↑rest + own) := by
  refine hbalanced.setCell hcell _ heap.lost _ ?_ ?_
  · intro cell' hcell'
    cases hcell'
    exact Nat.succ_pos rc
  · intro target
    simp only [Multiset.count_add, Multiset.coe_count, List.count_cons,
      Option.map_some, Option.getD_some, beq_iff_eq]
    by_cases htarget : target = addr
    · simp only [htarget, ↓reduceIte]
      omega
    · have hne : ¬ addr = target := fun h => htarget h.symm
      simp only [htarget, hne, ↓reduceIte]
      omega

theorem own_head (head : Addr) (rest : List Addr) :
    head ∈ (↑(head :: rest) + own : Multiset Addr) :=
  Multiset.mem_add.mpr (Or.inl (List.mem_cons_self ..))

/-- Releasing references that the ledger owns never faults, whatever objects
it frees on the way. -/
theorem release_spec (fuel : Nat) (pending : List Addr)
    (hfuel : heap.weight ≤ fuel) (hbalanced : Balanced heap (↑pending + own)) :
    ∃ next, Heap.release fuel heap pending = .ok next ∧ Balanced next own := by
  induction fuel generalizing heap pending with
  | zero =>
      cases pending with
      | nil => exact ⟨heap, rfl, hbalanced.congr (by simp)⟩
      | cons head rest =>
          obtain ⟨obj, rc, hcell⟩ := hbalanced.live (own_head head rest)
          have hpos : 0 < rc := hbalanced.pos head _ hcell
          have hle := rc_le_weight heap head
          rw [rc_of_cell hcell] at hle
          simp only at hle
          omega
  | succ fuel ih =>
      cases pending with
      | nil => exact ⟨heap, rfl, hbalanced.congr (by simp)⟩
      | cons head rest =>
          obtain ⟨obj, rc, hcell⟩ := hbalanced.live (own_head head rest)
          have hpos : 0 < rc := hbalanced.pos head _ hcell
          match rc, hpos with
          | 1, _ =>
              have hweight := weight_setCell hcell none
              have hfree : (heap.free head obj).weight =
                (heap.setCell head none).weight := rfl
              simp only [Option.map_none, Option.getD_none] at hweight
              obtain ⟨next, hrun, hnext⟩ :=
                ih (drops obj ++ rest) (by omega) (hbalanced.free hcell)
              exact ⟨next, by rw [release_cons hcell]; exact hrun, hnext⟩
          | rc + 2, _ =>
              have hweight := weight_setCell hcell (some ⟨rc + 1, obj⟩)
              simp only [Option.map_some, Option.getD_some] at hweight
              obtain ⟨next, hrun, hnext⟩ :=
                ih rest (by omega) (hbalanced.lower hcell)
              exact ⟨next, by simpa [release_cons hcell] using hrun, hnext⟩

theorem decref_keeps {next : Heap β} (hrun : heap.decref addr = .ok next) :
    Keeps [] heap next ∧ next.cells.length = heap.cells.length ∧
      (Sealed heap → next.lost = heap.lost) :=
  release_keeps heap.weight [addr] hrun

theorem decref_spec (hbalanced : Balanced heap (addr ::ₘ own)) :
    ∃ next, heap.decref addr = .ok next ∧ Balanced next own :=
  release_spec heap.weight [addr] (Nat.le_refl _)
    (hbalanced.congr (by simp))

/-- A reference that is taken and given back leaves no trace. -/
theorem incref_decref (hbalanced : Balanced heap own) (hown : addr ∈ own) :
    ∃ mid, heap.incref addr = .ok mid ∧ mid.decref addr = .ok heap := by
  obtain ⟨obj, rc, hcell⟩ := hbalanced.live hown
  have hpos : 0 < rc := hbalanced.pos addr _ hcell
  have hself : (heap.setCell addr (some ⟨rc + 1, obj⟩)).cell? addr =
      some ⟨rc + 1, obj⟩ := cell?_setCell_self (ObjAt.lt_length ⟨rc, hcell⟩)
  have hweight := rc_le_weight (heap.setCell addr (some ⟨rc + 1, obj⟩)) addr
  rw [rc_of_cell hself] at hweight
  obtain ⟨fuel, hfuel⟩ := Nat.exists_eq_add_of_le' hweight
  refine ⟨heap.setCell addr (some ⟨rc + 1, obj⟩), ?_, ?_⟩
  · simp [Heap.incref, hcell]
  · have hsucc : (heap.setCell addr (some ⟨rc + 1, obj⟩)).weight =
        fuel + rc + 1 := hfuel
    rw [Heap.decref, hsucc, release_cons hself, if_neg (by omega),
      Nat.add_sub_cancel, setCell_setCell, setCell_self hcell]
    cases fuel + rc <;> rfl

/-- A release does not look at the object of a cell that survives it. -/
theorem release_setCell (fuel : Nat) (pending : List Addr) {rc : Nat}
    {old new : β} (hcell : heap.cell? addr = some ⟨rc, old⟩) {next : Heap β}
    (hrun : Heap.release fuel (heap.setCell addr (some ⟨rc, new⟩)) pending =
      .ok next)
    (hlive : Live next addr) :
    ∃ rc', next.cell? addr = some ⟨rc', new⟩ ∧
      Heap.release fuel heap pending =
        .ok (next.setCell addr (some ⟨rc', old⟩)) := by
  induction fuel generalizing heap pending rc with
  | zero =>
      cases pending with
      | nil =>
          cases hrun
          refine ⟨rc, cell?_setCell_self (ObjAt.lt_length ⟨rc, hcell⟩), ?_⟩
          rw [setCell_setCell, setCell_self hcell]
          rfl
      | cons head rest => cases hrun
  | succ fuel ih =>
      have hlt : addr < heap.cells.length := ObjAt.lt_length ⟨rc, hcell⟩
      cases pending with
      | nil =>
          cases hrun
          refine ⟨rc, cell?_setCell_self hlt, ?_⟩
          rw [setCell_setCell, setCell_self hcell]
          rfl
      | cons head rest =>
          by_cases hhead : head = addr
          · subst hhead
            rw [release_cons (cell?_setCell_self hlt)] at hrun
            rw [release_cons hcell]
            by_cases hlast : rc ≤ 1
            · -- the last reference frees the cell, and freed cells stay free
              simp only [hlast, ↓reduceIte] at hrun
              obtain ⟨hkeeps, -, -⟩ := release_keeps fuel _ hrun
              obtain ⟨obj, hobj⟩ := hlive
              have hback := hkeeps.objAt_old head obj
                (by simpa [Heap.free, Heap.setCell] using hlt) (by simp) hobj
              exact absurd ⟨obj, hback⟩ (not_live_setCell_none
                (by simpa [Heap.setCell] using hlt))
            · simp only [hlast, ↓reduceIte] at hrun ⊢
              refine ih rest (cell?_setCell_self hlt) ?_
              simpa using hrun
          · have hsame : (heap.setCell addr (some ⟨rc, new⟩)).cell? head =
                heap.cell? head := cell?_setCell_of_ne hhead
            cases hother : heap.cell? head with
            | none => simp [Heap.release, hsame, hother] at hrun
            | some cell =>
                obtain ⟨rc₁, obj₁⟩ := cell
                have hne : addr ≠ head := fun h => hhead h.symm
                rw [release_cons (hsame.trans hother)] at hrun
                rw [release_cons hother]
                by_cases hlast : rc₁ ≤ 1
                · rw [if_pos hlast] at hrun ⊢
                  refine ih _ ((cell?_setCell_of_ne hne).trans hcell) ?_
                  rw [← hrun]
                  congr 1
                  simp [Heap.free, Heap.setCell, List.set_comm _ _ hne]
                · rw [if_neg hlast] at hrun ⊢
                  refine ih _ ((cell?_setCell_of_ne hne).trans hcell) ?_
                  rw [setCell_comm (Ne.symm hne)]
                  exact hrun

/-- The idiom "release what the slot holds, then write the slot": between the
two steps the object still holds the released reference, but no finalizer looks
at it. -/
theorem decref_put_spec {old : β} (cleared new : β) (released : Addr)
    (own' : Multiset Addr) (hbalanced : Balanced heap own)
    (hobj : ObjAt heap addr old)
    (hold : (↑(refs old) : Multiset Addr) = released ::ₘ ↑(refs cleared))
    (hnew : own' + ↑(refs new) = own + ↑(refs cleared)) (hown : addr ∈ own) :
    ∃ mid next, heap.decref released = .ok mid ∧ mid.put addr new = .ok next ∧
      Balanced next own' ∧ ObjAt next addr new ∧ Keeps [addr] heap next ∧
      next.cells.length = heap.cells.length ∧
      (Sealed heap → leaks cleared = [] → next.lost = heap.lost) := by
  obtain ⟨first, hfirst, hbalanced₁, hobj₁, hsame₁, hlength₁, hlost₁⟩ :=
    put_spec cleared (released ::ₘ own) hbalanced hobj
      (by rw [hold, Multiset.cons_add, Multiset.add_cons])
  obtain ⟨second, hsecond, hbalanced₂⟩ := decref_spec hbalanced₁
  obtain ⟨hkeeps₂, hlength₂, hlost₂⟩ := decref_keeps hsecond
  have hobj₂ : ObjAt second addr cleared :=
    hkeeps₂.objAt hobj₁ (by simp) (hbalanced₂.live hown)
  obtain ⟨next, hnext, hbalanced₃, hobj₃, hsame₃, hlength₃, hlost₃⟩ :=
    put_spec new own' hbalanced₂ hobj₂ hnew
  obtain ⟨rc, hcell⟩ := hobj
  have hset : first = heap.setCell addr (some ⟨rc, cleared⟩) := by
    simpa [Heap.put, hcell] using hfirst.symm
  have hweight : first.weight = heap.weight := by
    have h := weight_setCell hcell (some ⟨rc, cleared⟩)
    simp only [Option.map_some, Option.getD_some] at h
    rw [hset]
    omega
  rw [Heap.decref, hweight, hset] at hsecond
  obtain ⟨rc', hcell₂, hrun⟩ :=
    release_setCell heap.weight [released] hcell hsecond hobj₂.live
  refine ⟨_, next, hrun, ?_, hbalanced₃, hobj₃, ?_, ?_, ?_⟩
  · rw [← hnext]
    have hlt : addr < second.cells.length := ObjAt.lt_length ⟨rc', hcell₂⟩
    simp [Heap.put, cell?_setCell_self hlt, hcell₂]
  · refine ⟨by omega, ?_⟩
    intro other obj hlt hnot hother
    have hne : other ≠ addr := by simpa using hnot
    exact (hsame₁ other obj hne).mp (hkeeps₂.objAt_old other obj
      (hlength₁ ▸ hlt) (by simp) ((hsame₃ other obj hne).mp hother))
  · omega
  · intro hsealed hcleared
    have hsealed₁ : Sealed first := by
      intro other obj hother
      by_cases hne : other = addr
      · subst hne
        rwa [hother.unique hobj₁]
      · exact hsealed other obj ((hsame₁ other obj hne).mp hother)
    rw [hlost₃, hlost₂ hsealed₁, hlost₁]

theorem exists_of_mem_edges (hmem : addr ∈ heap.edges) :
    ∃ source obj, ObjAt heap source obj ∧ addr ∈ refs obj := by
  obtain ⟨cell, hcell, hmem⟩ := List.mem_flatMap.mp hmem
  obtain ⟨source, hlt, hget⟩ := List.getElem_of_mem hcell
  cases cell with
  | none => simp at hmem
  | some cell =>
      refine ⟨source, cell.obj, ⟨cell.rc, ?_⟩, hmem⟩
      simp [Heap.cell?, List.getElem?_eq_getElem hlt, hget]

/-- Every object of a heap that nobody outside it owns, and in which references
only go down, has been freed. -/
theorem Balanced.all_freed (hbalanced : Balanced heap 0)
    (hlost : heap.lost = []) (rank : Addr → Nat)
    (hrank : ∀ source obj, ObjAt heap source obj → ∀ target ∈ refs obj,
      rank target < rank source) :
    ∀ addr, heap.cell? addr = none := by
  intro addr
  by_contra hcell
  -- a live object of the highest rank would need an owner of a higher one
  let live := (Finset.range heap.cells.length).filter
    (fun target => (heap.cell? target).isSome)
  have hmem : ∀ target obj, ObjAt heap target obj → target ∈ live := by
    intro target obj hobj
    obtain ⟨rc, hobj'⟩ := hobj
    simp [live, hobj', ObjAt.lt_length ⟨rc, hobj'⟩]
  obtain ⟨cell, hcell⟩ := Option.ne_none_iff_exists'.mp hcell
  obtain ⟨top, htop, hmax⟩ := live.exists_max_image rank
    ⟨addr, hmem addr cell.obj ⟨cell.rc, hcell⟩⟩
  obtain ⟨cell', hcell'⟩ : ∃ cell', heap.cell? top = some cell' := by
    simpa [live, Option.isSome_iff_exists] using (Finset.mem_filter.mp htop).2
  have hpos := hbalanced.pos top cell' hcell'
  have hcount := hbalanced.count_eq top
  rw [rc_of_cell hcell', hlost] at hcount
  simp only [Multiset.count_zero, List.count_nil, Nat.zero_add] at hcount
  have hedge : top ∈ heap.edges := List.count_pos_iff.mp (by omega)
  obtain ⟨source, obj, hsource, hrefs⟩ := exists_of_mem_edges hedge
  have hlt := hrank source obj hsource top hrefs
  have hle := hmax source (hmem source obj hsource)
  omega

end Release

end RefHeap
