/-
Memory outside a reference-counted heap, that objects of the heap hold and
their finalizers free.  A ledger says which blocks nobody on the heap holds;
the store is sound when every allocated block has exactly one holder.
-/
import UvMbt.RefHeap
import UvMbt.Ledger

set_option autoImplicit false

namespace ForeignBlocks

open RefHeap

/-- A block: the order of its allocation. -/
abbrev Block := Nat

inductive Fault where
  | heap (fault : RefHeap.Fault)
  | useAfterFree
  | doubleFree
  deriving Repr, DecidableEq

/-- The blocks that an object's finalizer frees. -/
class Holds (β : Type) where
  held : β → List Block

open Holds

/-- A heap and the contents of the blocks, `none` once freed. -/
structure Store (β γ : Type) where
  heap : Heap β
  blocks : List (Option γ)

variable {β γ : Type}

/-- The blocks held by the objects of a heap. -/
def heldBlocks [Holds β] (heap : Heap β) : List Block :=
  heap.cells.flatMap (fun cell => (cell.map (fun c => held c.obj)).getD [])

/-- The blocks of the objects that are in one heap and no longer in another. -/
def dead [Holds β] : List (Option (Cell β)) → List (Option (Cell β)) →
    List Block
  | some cell :: old, none :: new => held cell.obj ++ dead old new
  | _ :: old, _ :: new => dead old new
  | _, _ => []

namespace Store

/-- The content of an allocated block. -/
def content? (store : Store β γ) (block : Block) : Option γ :=
  store.blocks[block]?.join

def read (store : Store β γ) (block : Block) : Except Fault γ :=
  match store.content? block with
  | some content => .ok content
  | none => .error .useAfterFree

/-- A block that was allocated and is not any more. -/
def Freed (store : Store β γ) (block : Block) : Prop :=
  block < store.blocks.length ∧ store.content? block = none

def malloc (store : Store β γ) (content : γ) : Store β γ × Block :=
  (⟨store.heap, store.blocks ++ [some content]⟩, store.blocks.length)

def free (store : Store β γ) (block : Block) : Except Fault (Store β γ) :=
  match store.content? block with
  | some _ => .ok ⟨store.heap, store.blocks.set block none⟩
  | none => .error .doubleFree

def freeAll : Store β γ → List Block → Except Fault (Store β γ)
  | store, [] => .ok store
  | store, block :: rest => do freeAll (← store.free block) rest

/-- A new object with one reference. -/
def alloc (store : Store β γ) (obj : β) : Store β γ × Addr :=
  (⟨(store.heap.alloc obj).1, store.blocks⟩, store.heap.cells.length)

/-- Run on the heap alone. -/
def onHeap (store : Store β γ)
    (change : Heap β → Except RefHeap.Fault (Heap β)) :
    Except Fault (Store β γ) :=
  match change store.heap with
  | .ok heap => .ok ⟨heap, store.blocks⟩
  | .error fault => .error (.heap fault)

/-- Release a reference.  The finalizers of one release read no block, so
their order does not matter. -/
def decref [Ownership β] [Holds β] (store : Store β γ) (addr : Addr) :
    Except Fault (Store β γ) := do
  let next ← store.onHeap (fun heap => heap.decref addr)
  next.freeAll (dead store.heap.cells next.heap.cells)

end Store

/-- Every count is right, and every allocated block has one holder: an object
or the ledger. -/
structure Sound [Ownership β] [Holds β] (store : Store β γ)
    (own : Multiset Addr) (loose : Multiset Block) : Prop where
  balanced : Balanced store.heap own
  counted : ∀ block, loose.count block + (heldBlocks store.heap).count block =
    if (store.content? block).isSome then 1 else 0

/-- What every operation keeps: apart from some addresses no object is new or
different, no block gets another content or comes back, and, when no object
leaks, nothing is lost. -/
structure Evolves [Ownership β] (changed : Addr → Prop) (old new : Store β γ) :
    Prop where
  objects : ∀ source obj, ¬ changed source → ObjAt new.heap source obj →
    ObjAt old.heap source obj
  contents : ∀ block content, block < old.blocks.length →
    new.content? block = some content → old.content? block = some content
  blocks_le : old.blocks.length ≤ new.blocks.length
  cells_le : old.heap.cells.length ≤ new.heap.cells.length
  lost : (∀ obj : β, Ownership.leaks obj = []) → new.heap.lost = old.heap.lost

theorem Evolves.refl [Ownership β] (changed : Addr → Prop)
    (store : Store β γ) : Evolves changed store store where
  objects _ _ _ hobj := hobj
  contents _ _ _ hcontent := hcontent
  blocks_le := Nat.le_refl _
  cells_le := Nat.le_refl _
  lost _ := rfl

theorem Evolves.trans [Ownership β] {changed changed' : Addr → Prop}
    {first second third : Store β γ} (hfirst : Evolves changed first second)
    (hsecond : Evolves changed' second third) :
    Evolves (fun source => changed source ∨ changed' source) first third where
  objects source obj hnot hobj := by
    rw [not_or] at hnot
    exact hfirst.objects source obj hnot.1
      (hsecond.objects source obj hnot.2 hobj)
  contents block content hlt hcontent :=
    hfirst.contents block content hlt (hsecond.contents block content
      (Nat.lt_of_lt_of_le hlt hfirst.blocks_le) hcontent)
  blocks_le := Nat.le_trans hfirst.blocks_le hsecond.blocks_le
  cells_le := Nat.le_trans hfirst.cells_le hsecond.cells_le
  lost hleaks := (hsecond.lost hleaks).trans (hfirst.lost hleaks)

/-- An operation that changes no object behind another one. -/
theorem Evolves.after [Ownership β] {changed : Addr → Prop}
    {first second third : Store β γ} (hfirst : Evolves changed first second)
    (hsecond : Evolves (fun _ => False) second third) :
    Evolves changed first third where
  objects source obj hnot hobj :=
    hfirst.objects source obj hnot (hsecond.objects source obj id hobj)
  contents := (hfirst.trans hsecond).contents
  blocks_le := (hfirst.trans hsecond).blocks_le
  cells_le := (hfirst.trans hsecond).cells_le
  lost := (hfirst.trans hsecond).lost

theorem Evolves.mono [Ownership β] {changed more : Addr → Prop}
    {old new : Store β γ} (hevolves : Evolves changed old new)
    (hmore : ∀ source, changed source → more source) : Evolves more old new where
  objects source obj hnot :=
    hevolves.objects source obj (fun hchanged => hnot (hmore source hchanged))
  contents := hevolves.contents
  blocks_le := hevolves.blocks_le
  cells_le := hevolves.cells_le
  lost := hevolves.lost

/-- An object that is still there is the same. -/
theorem Evolves.freed_kept [Ownership β] {changed : Addr → Prop}
    {old new : Store β γ} (hevolves : Evolves changed old new) {block : Block}
    (hfreed : old.Freed block) : new.Freed block := by
  refine ⟨Nat.lt_of_lt_of_le hfreed.1 hevolves.blocks_le, ?_⟩
  cases hcontent : new.content? block with
  | none => rfl
  | some content =>
      have hold := hevolves.contents block content hfreed.1 hcontent
      rw [hfreed.2] at hold
      cases hold

theorem Evolves.live_kept [Ownership β] {changed : Addr → Prop}
    {old new : Store β γ} {addr : Addr} {target : β}
    (hevolves : Evolves changed old new) (hlive : Live new.heap addr)
    (hnot : ¬ changed addr) (htarget : ObjAt old.heap addr target) :
    ObjAt new.heap addr target := by
  obtain ⟨target', hnew⟩ := hlive
  have hold := hevolves.objects addr target' hnot hnew
  rw [hold.unique htarget] at hnew
  exact hnew

section Contents

variable {store : Store β γ} {block other : Block} {content : γ}

theorem lt_of_content (hcontent : store.content? block = some content) :
    block < store.blocks.length := by
  by_contra hle
  rw [Store.content?, List.getElem?_eq_none (Nat.not_lt.mp hle)] at hcontent
  cases hcontent

theorem read_of_content (hcontent : store.content? block = some content) :
    store.read block = .ok content := by
  rw [Store.read, hcontent]

theorem content_malloc_self :
    (store.malloc content).1.content? store.blocks.length = some content := by
  simp [Store.malloc, Store.content?]

theorem content_malloc_ne (hne : block ≠ store.blocks.length) :
    (store.malloc content).1.content? block = store.content? block := by
  rcases Nat.lt_or_gt_of_ne hne with hlt | hgt
  · simp [Store.malloc, Store.content?, List.getElem?_append_left hlt]
  · have hlength : (store.malloc content).1.blocks.length ≤ block := by
      simp only [Store.malloc, List.length_append, List.length_singleton]
      exact hgt
    rw [Store.content?, Store.content?, List.getElem?_eq_none hlength,
      List.getElem?_eq_none (Nat.le_of_lt hgt)]

theorem content_set_self (hlt : block < store.blocks.length) :
    (⟨store.heap, store.blocks.set block none⟩ : Store β γ).content? block =
      none := by
  simp [Store.content?, List.getElem?_set_self hlt]

theorem content_set_ne (hne : other ≠ block) :
    (⟨store.heap, store.blocks.set block none⟩ : Store β γ).content? other =
      store.content? other := by
  simp [Store.content?, List.getElem?_set_ne (Ne.symm hne)]

/-- A block that is freed right after its allocation leaves nothing behind. -/
theorem free_malloc (store : Store β γ) (content : γ) :
    ∃ next, (store.malloc content).1.free store.blocks.length = .ok next ∧
      ∀ block, next.content? block = store.content? block := by
  refine ⟨⟨(store.malloc content).1.heap,
    (store.malloc content).1.blocks.set store.blocks.length none⟩, ?_, ?_⟩
  · rw [Store.free, content_malloc_self]
  · intro block
    by_cases hblock : block = store.blocks.length
    · rw [hblock]
      have hself := lt_of_content (@content_malloc_self _ _ store content)
      rw [content_set_self hself, Store.content?,
        List.getElem?_eq_none (Nat.le_refl _)]
      rfl
    · rw [content_set_ne hblock]
      exact content_malloc_ne hblock

theorem malloc_evolves [Ownership β] (store : Store β γ) (content : γ) :
    Evolves (fun _ => False) store (store.malloc content).1 where
  objects source obj _ := id
  contents block content' hlt := by
    rw [content_malloc_ne (Nat.ne_of_lt hlt)]
    exact id
  blocks_le := by simp [Store.malloc]
  cells_le := Nat.le_refl _
  lost _ := rfl

end Contents

section Counting

variable {heap : Heap β} {addr : Addr} {old new : β}

/-- Cells whose objects are those of other cells, or freed. -/
def Shrinks : List (Option (Cell β)) → List (Option (Cell β)) → Prop :=
  List.Forall₂ fun old new => ∀ cell, new = some cell →
    ∃ rc, old = some ⟨rc, cell.obj⟩

theorem shrinks_of_keeps {next : Heap β} (hkeeps : Keeps [] heap next)
    (hlength : next.cells.length = heap.cells.length) :
    Shrinks heap.cells next.cells := by
  apply List.forall₂_iff_get.mpr
  refine ⟨hlength.symm, ?_⟩
  intro index hold hnew cell hcell
  have hobj : ObjAt next index cell.obj := by
    refine ⟨cell.rc, ?_⟩
    rw [Heap.cell?, List.getElem?_eq_getElem hnew]
    rw [List.get_eq_getElem] at hcell
    rw [hcell]
    rfl
  obtain ⟨rc, hcell'⟩ := hkeeps.objAt_old index cell.obj hold
    List.not_mem_nil hobj
  obtain ⟨hlt, hget⟩ := cells_getElem hcell'
  exact ⟨rc, by rw [List.get_eq_getElem]; exact hget⟩

variable [Holds β]

theorem count_held_alloc (obj : β) (block : Block) :
    (heldBlocks (heap.alloc obj).1).count block =
      (heldBlocks heap).count block + (held obj).count block := by
  simp [heldBlocks, Heap.alloc]

theorem count_held_setCell {cell : Cell β} (hcell : heap.cell? addr = some cell)
    (new : Option (Cell β)) (block : Block) :
    (heldBlocks (heap.setCell addr new)).count block +
        (held cell.obj).count block =
      (heldBlocks heap).count block +
        ((new.map (fun c => held c.obj)).getD []).count block := by
  obtain ⟨hlt, hget⟩ := cells_getElem hcell
  have hold : heap.cells[addr]? = some (some cell) := by
    rw [List.getElem?_eq_getElem hlt, hget]
  exact Ledger.count_set (fun cell : Option (Cell β) =>
    (cell.map (fun c => held c.obj)).getD []) new hold block

theorem exists_of_held {block : Block} (hmem : block ∈ heldBlocks heap) :
    ∃ source obj, ObjAt heap source obj ∧ block ∈ held obj := by
  obtain ⟨cell, hcell, hmem⟩ := List.mem_flatMap.mp hmem
  obtain ⟨source, hlt, hget⟩ := List.getElem_of_mem hcell
  cases cell with
  | none => cases hmem
  | some cell =>
      refine ⟨source, cell.obj, ⟨cell.rc, ?_⟩, hmem⟩
      rw [Heap.cell?, List.getElem?_eq_getElem hlt, hget]
      rfl

theorem mem_held (hobj : ObjAt heap addr old) {block : Block}
    (hblock : block ∈ held old) : block ∈ heldBlocks heap := by
  obtain ⟨rc, hcell⟩ := hobj
  obtain ⟨hlt, hget⟩ := cells_getElem hcell
  apply List.mem_flatMap.mpr
  refine ⟨some ⟨rc, old⟩, ?_, hblock⟩
  rw [← hget]
  exact List.getElem_mem hlt

theorem count_dead {old new : List (Option (Cell β))} (hshrinks : Shrinks old new)
    (block : Block) :
    (old.flatMap (fun cell => (cell.map (fun c => held c.obj)).getD [])).count
        block =
      (dead old new).count block +
        (new.flatMap (fun cell =>
          (cell.map (fun c => held c.obj)).getD [])).count block := by
  induction hshrinks with
  | nil => rfl
  | @cons first second old new hhead htail ih =>
      rw [List.flatMap_cons, List.flatMap_cons, List.count_append,
        List.count_append, ih]
      cases second with
      | some cell =>
          obtain ⟨rc, rfl⟩ := hhead cell rfl
          simp only [dead, Option.map_some, Option.getD_some]
          omega
      | none =>
          cases first with
          | some cell =>
              simp only [dead, Option.map_some, Option.getD_some,
                Option.map_none, Option.getD_none, List.count_append,
                List.count_nil]
              omega
          | none =>
              simp only [dead, Option.map_none, Option.getD_none,
                List.count_nil]
              omega

theorem dead_eq_nil (hheld : ∀ obj : β, held obj = [])
    (old new : List (Option (Cell β))) : dead old new = [] := by
  induction old generalizing new with
  | nil => cases new <;> rfl
  | cons cell rest ih =>
      cases new with
      | nil => cases cell <;> rfl
      | cons cell' rest' =>
          cases cell with
          | none => exact ih rest'
          | some cell =>
              cases cell' with
              | none =>
                  rw [dead, hheld, ih]
                  rfl
              | some cell' => exact ih rest'

theorem heldBlocks_eq_nil (hheld : ∀ obj : β, held obj = []) (heap : Heap β) :
    heldBlocks heap = [] := by
  rw [heldBlocks, List.flatMap_eq_nil_iff]
  intro cell _
  cases cell with
  | none => rfl
  | some cell => exact hheld cell.obj

end Counting

section Operations

variable [Ownership β] [Holds β] {store : Store β γ} {own : Multiset Addr}
  {loose : Multiset Block} {addr : Addr} {block : Block} {content : γ}

theorem Sound.empty : Sound (⟨Heap.empty, []⟩ : Store β γ) 0 0 where
  balanced := {
    count_eq := fun addr => rfl
    pos := fun addr cell hcell => by cases hcell }
  counted block := rfl

/-- A block that somebody holds is allocated. -/
theorem Sound.content_of_held (hsound : Sound store own loose)
    (hheld : block ∈ loose ∨ block ∈ heldBlocks store.heap) :
    ∃ content, store.content? block = some content := by
  have hcount := hsound.counted block
  cases hcontent : store.content? block with
  | some content => exact ⟨content, rfl⟩
  | none =>
      rw [hcontent, Option.isSome_none, if_neg Bool.false_ne_true,
        Nat.add_eq_zero_iff, Multiset.count_eq_zero, List.count_eq_zero] at hcount
      rcases hheld with hloose | hheap
      · exact absurd hloose hcount.1
      · exact absurd hheap hcount.2

/-- An allocated block is held by an object that is there, or by the ledger. -/
theorem Sound.holder (hsound : Sound store own loose)
    (hcontent : store.content? block = some content) :
    block ∈ loose ∨ ∃ source obj, ObjAt store.heap source obj ∧
      block ∈ held obj := by
  have hcount := hsound.counted block
  rw [hcontent, Option.isSome_some, if_pos rfl] at hcount
  by_cases hloose : block ∈ loose
  · exact Or.inl hloose
  · right
    rw [Multiset.count_eq_zero_of_notMem hloose, Nat.zero_add] at hcount
    apply exists_of_held
    apply List.count_pos_iff.mp
    rw [hcount]
    exact Nat.one_pos

theorem malloc_spec (hsound : Sound store own loose) (content : γ) :
    Sound (store.malloc content).1 own (store.blocks.length ::ₘ loose) where
  balanced := hsound.balanced
  counted block := by
    have hcount := hsound.counted block
    by_cases hnew : block = store.blocks.length
    · have hnone : store.content? block = none := by
        rw [Store.content?, hnew, List.getElem?_eq_none (Nat.le_refl _)]
        rfl
      rw [hnone, Option.isSome_none, if_neg Bool.false_ne_true] at hcount
      rw [hnew] at hcount ⊢
      rw [content_malloc_self, Multiset.count_cons_self, Option.isSome_some,
        if_pos rfl]
      have hheap : heldBlocks (store.malloc content).1.heap =
        heldBlocks store.heap := rfl
      rw [hheap]
      omega
    · rw [content_malloc_ne hnew, Multiset.count_cons_of_ne hnew]
      exact hcount

theorem free_spec (hsound : Sound store own (block ::ₘ loose)) :
    ∃ next, store.free block = .ok next ∧ Sound next own loose ∧
      next.heap = store.heap ∧ next.blocks.length = store.blocks.length ∧
      ∀ other, other ≠ block → next.content? other = store.content? other := by
  obtain ⟨content, hcontent⟩ :=
    hsound.content_of_held (Or.inl (Multiset.mem_cons_self block loose))
  have hlt := lt_of_content hcontent
  refine ⟨⟨store.heap, store.blocks.set block none⟩, ?_, ?_, rfl,
    List.length_set, fun other hne => content_set_ne hne⟩
  · rw [Store.free, hcontent]
  · refine ⟨hsound.balanced, fun other => ?_⟩
    have hcount := hsound.counted other
    by_cases hother : other = block
    · rw [hother] at hcount ⊢
      rw [hcontent, Multiset.count_cons_self, Option.isSome_some,
        if_pos rfl] at hcount
      rw [content_set_self hlt, Option.isSome_none, if_neg Bool.false_ne_true]
      change Multiset.count block loose + (heldBlocks store.heap).count block = 0
      omega
    · rw [Multiset.count_cons_of_ne hother] at hcount
      rw [content_set_ne hother]
      exact hcount

theorem freeAll_spec {blocks : List Block}
    (hsound : Sound store own (↑blocks + loose)) :
    ∃ next, store.freeAll blocks = .ok next ∧ Sound next own loose ∧
      next.heap = store.heap ∧ next.blocks.length = store.blocks.length ∧
      ∀ other, other ∉ blocks → next.content? other = store.content? other := by
  induction blocks generalizing store with
  | nil =>
      rw [Multiset.coe_nil, Multiset.zero_add] at hsound
      exact ⟨store, rfl, hsound, rfl, rfl, fun other _ => rfl⟩
  | cons block rest ih =>
      rw [← Multiset.cons_coe, Multiset.cons_add] at hsound
      obtain ⟨middle, hfree, hmiddle, hheap, hlength, hsame⟩ := free_spec hsound
      obtain ⟨next, hrest, hnext, hheap', hlength', hsame'⟩ := ih hmiddle
      refine ⟨next, ?_, hnext, hheap'.trans hheap, hlength'.trans hlength, ?_⟩
      · rw [Store.freeAll, hfree]
        exact hrest
      · intro other hother
        rw [List.mem_cons, not_or] at hother
        rw [hsame' other hother.2, hsame other hother.1]

/-- A new object takes the references and the blocks it holds. -/
theorem alloc_store {obj : β}
    (hsound : Sound store (↑(refs obj) + own) (↑(held obj) + loose)) :
    Sound (store.alloc obj).1 (store.heap.cells.length ::ₘ own) loose ∧
      ObjAt (store.alloc obj).1.heap store.heap.cells.length obj ∧
      Evolves (fun source => source = store.heap.cells.length) store
        (store.alloc obj).1 := by
  obtain ⟨hbalanced, hself, hsame⟩ := alloc_spec hsound.balanced
  have hcells : (store.alloc obj).1.heap.cells.length =
      store.heap.cells.length + 1 := by
    simp [Store.alloc, Heap.alloc]
  refine ⟨⟨hbalanced, fun block => ?_⟩, hself, ⟨?_, fun block content _ => id,
    Nat.le_refl _, by rw [hcells]; exact Nat.le_succ _, fun _ => rfl⟩⟩
  · have hcount := hsound.counted block
    rw [Multiset.count_add, Multiset.coe_count] at hcount
    change loose.count block + (heldBlocks (store.heap.alloc obj).1).count block =
      if (store.content? block).isSome then 1 else 0
    rw [count_held_alloc]
    omega
  · intro source obj' hne hobj
    have hlt := hobj.lt_length
    rw [hcells] at hlt
    exact (hsame source obj' (Nat.lt_of_le_of_ne (Nat.le_of_lt_succ hlt) hne)).mp
      hobj

/-- What a change that leaves the blocks alone needs. -/
theorem Sound.onHeap {next : Heap β} {own' : Multiset Addr}
    (hsound : Sound store own loose) (hbalanced : Balanced next own')
    (hheld : ∀ block, (heldBlocks next).count block =
      (heldBlocks store.heap).count block) :
    Sound (⟨next, store.blocks⟩ : Store β γ) own' loose where
  balanced := hbalanced
  counted block := by
    rw [hheld block]
    exact hsound.counted block

theorem incref_store (hsound : Sound store own loose)
    (hlive : Live store.heap addr) :
    ∃ next, store.onHeap (fun heap => heap.incref addr) = .ok next ∧
      Sound next (addr ::ₘ own) loose ∧
      (∀ source obj, ObjAt next.heap source obj ↔
        ObjAt store.heap source obj) ∧
      next.heap.cells.length = store.heap.cells.length ∧
      Evolves (fun _ => False) store next := by
  obtain ⟨next, hincref, hbalanced, hsame, hlength, hlost⟩ :=
    incref_spec hsound.balanced hlive
  refine ⟨⟨next, store.blocks⟩, ?_, ?_, hsame, hlength,
    ⟨fun source obj _ => (hsame source obj).mp, fun block content _ => id,
      Nat.le_refl _, Nat.le_of_eq hlength.symm, fun _ => hlost⟩⟩
  · rw [Store.onHeap, hincref]
  · apply hsound.onHeap hbalanced
    intro block
    obtain ⟨obj, rc, hcell⟩ := hlive
    rw [Heap.incref, hcell, Except.ok.injEq] at hincref
    have hcount := count_held_setCell hcell (some ⟨rc + 1, obj⟩) block
    rw [← hincref]
    simp only [Option.map_some, Option.getD_some] at hcount
    exact Nat.add_right_cancel hcount

/-- Writing an object moves references and blocks between it and the
ledgers. -/
theorem put_store {old : β} (new : β) (own' : Multiset Addr)
    (loose' : Multiset Block) (hsound : Sound store own loose)
    (hobj : ObjAt store.heap addr old)
    (hmove : own' + ↑(refs new) = own + ↑(refs old))
    (hblocks : loose' + ↑(held new) = loose + ↑(held old)) :
    ∃ next, store.onHeap (fun heap => heap.put addr new) = .ok next ∧
      Sound next own' loose' ∧ ObjAt next.heap addr new ∧
      next.blocks = store.blocks ∧
      next.heap.cells.length = store.heap.cells.length ∧
      Evolves (fun source => source = addr) store next := by
  obtain ⟨next, hput, hbalanced, hself, hsame, hlength, hlost⟩ :=
    put_spec new own' hsound.balanced hobj hmove
  refine ⟨⟨next, store.blocks⟩, ?_, ?_, hself, rfl, hlength,
    ⟨fun source obj hne => (hsame source obj hne).mp,
      fun block content _ => id, Nat.le_refl _, Nat.le_of_eq hlength.symm,
      fun _ => hlost⟩⟩
  · rw [Store.onHeap, hput]
  · refine ⟨hbalanced, fun block => ?_⟩
    obtain ⟨rc, hcell⟩ := hobj
    rw [Heap.put, hcell, Except.ok.injEq] at hput
    have hcount := count_held_setCell hcell (some ⟨rc, new⟩) block
    have hold := hsound.counted block
    have hloose := congrArg (Multiset.count block) hblocks
    rw [Multiset.count_add, Multiset.count_add, Multiset.coe_count,
      Multiset.coe_count] at hloose
    rw [← hput]
    simp only [Option.map_some, Option.getD_some] at hcount
    change loose'.count block +
      (heldBlocks (store.heap.setCell addr (some ⟨rc, new⟩))).count block =
        if (store.content? block).isSome then 1 else 0
    omega

/-- Releasing a reference frees the blocks of exactly the objects that go. -/
theorem decref_store (hsound : Sound store (addr ::ₘ own) loose) :
    ∃ next, store.decref addr = .ok next ∧ Sound next own loose ∧
      next.heap.cells.length = store.heap.cells.length ∧
      Evolves (fun _ => False) store next := by
  obtain ⟨heap, hdecref, hbalanced⟩ := decref_spec hsound.balanced
  obtain ⟨hkeeps, hlength, hlost⟩ := decref_keeps hdecref
  have hcount := count_dead (shrinks_of_keeps hkeeps hlength)
  have hmiddle : Sound (⟨heap, store.blocks⟩ : Store β γ) own
      (↑(dead store.heap.cells heap.cells) + loose) := by
    refine ⟨hbalanced, fun block => ?_⟩
    have hold := hsound.counted block
    have hblock : (heldBlocks store.heap).count block =
        (dead store.heap.cells heap.cells).count block +
          (heldBlocks heap).count block := hcount block
    rw [Multiset.count_add, Multiset.coe_count]
    change _ = if (store.content? block).isSome then 1 else 0
    change _ + (heldBlocks heap).count block = _
    omega
  obtain ⟨next, hfree, hnext, hheap, hblocks, hsame⟩ := freeAll_spec hmiddle
  have hcells : next.heap.cells.length = store.heap.cells.length := by
    rw [hheap]
    exact hlength
  refine ⟨next, ?_, hnext, hcells, ⟨?_, ?_, Nat.le_of_eq hblocks.symm,
    Nat.le_of_eq hcells.symm, ?_⟩⟩
  · rw [Store.decref, Store.onHeap, hdecref]
    exact hfree
  · intro source obj _ hobj
    rw [hheap] at hobj
    have hlt : source < store.heap.cells.length := by
      rw [← hlength]
      exact hobj.lt_length
    exact hkeeps.objAt_old source obj hlt List.not_mem_nil hobj
  · intro block content _ hcontent
    by_cases hdead : block ∈ dead store.heap.cells heap.cells
    · have hcontents := hnext.counted block
      have hbefore := hmiddle.counted block
      rw [Multiset.count_add, Multiset.coe_count] at hbefore
      rw [hcontent, Option.isSome_some, if_pos rfl, hheap] at hcontents
      have hpos : 0 < (dead store.heap.cells heap.cells).count block :=
        List.count_pos_iff.mpr hdead
      have hle : (if ((⟨heap, store.blocks⟩ : Store β γ).content? block).isSome
          then 1 else 0) ≤ 1 := by
        split
        · exact Nat.le_refl 1
        · exact Nat.zero_le 1
      change _ + (heldBlocks heap).count block = _ at hcontents
      change _ + (heldBlocks heap).count block = _ at hbefore
      omega
    · rw [← hcontent]
      exact (hsame block hdead).symm
  · intro hleaks
    rw [hheap]
    exact hlost (fun source obj _ => hleaks obj)

/-- The idiom of a slot, where no object has blocks: what it holds is released
before the new value is written. -/
theorem decref_put_store (hheld : ∀ obj : β, held obj = []) {old : β}
    (cleared new : β) (released : Addr) (own' : Multiset Addr)
    (hsound : Sound store own loose) (hobj : ObjAt store.heap addr old)
    (hold : (↑(refs old) : Multiset Addr) = released ::ₘ ↑(refs cleared))
    (hnew : own' + ↑(refs new) = own + ↑(refs cleared)) (hown : addr ∈ own) :
    ∃ mid next, store.decref released = .ok mid ∧
      mid.onHeap (fun heap => heap.put addr new) = .ok next ∧
      Sound next own' loose ∧ ObjAt next.heap addr new ∧
      next.heap.cells.length = store.heap.cells.length ∧
      Evolves (fun source => source = addr) store next := by
  obtain ⟨mid, next, hdecref, hput, hbalanced, hself, hkeeps, hlength, hlost⟩ :=
    decref_put_spec cleared new released own' hsound.balanced hobj hold hnew hown
  refine ⟨⟨mid, store.blocks⟩, ⟨next, store.blocks⟩, ?_, ?_, ?_, hself, hlength,
    ⟨?_, fun block content _ => id, Nat.le_refl _, Nat.le_of_eq hlength.symm,
      ?_⟩⟩
  · rw [Store.decref, Store.onHeap, hdecref]
    change Store.freeAll ⟨mid, store.blocks⟩ (dead store.heap.cells mid.cells) = _
    rw [dead_eq_nil hheld]
    rfl
  · rw [Store.onHeap, hput]
  · apply hsound.onHeap hbalanced
    intro block
    rw [heldBlocks_eq_nil hheld, heldBlocks_eq_nil hheld]
  · intro source obj hne hobj'
    have hlt := hobj'.lt_length
    rw [hlength] at hlt
    exact hkeeps.objAt_old source obj hlt
      (fun hmem => hne (List.mem_singleton.mp hmem)) hobj'
  · intro hleaks
    exact hlost (fun _ obj _ => hleaks obj) (hleaks cleared)

/-- What a live object holds keeps its content. -/
theorem Evolves.content_kept {changed : Addr → Prop} {new : Store β γ} {obj : β}
    (hevolves : Evolves changed store new) (hsound : Sound new own loose)
    (hobj : ObjAt new.heap addr obj) (hheld : block ∈ held obj)
    (hcontent : store.content? block = some content) :
    new.content? block = some content := by
  obtain ⟨content', hcontent'⟩ :=
    hsound.content_of_held (Or.inr (mem_held hobj hheld))
  have hold := hevolves.contents block content' (lt_of_content hcontent) hcontent'
  rw [hcontent, Option.some.injEq] at hold
  rw [hcontent', hold]

/-- What a live object refers to is still there. -/
theorem Evolves.ref_kept {changed : Addr → Prop} {new : Store β γ}
    {obj target : β} {source : Addr} (hevolves : Evolves changed store new)
    (hsound : Sound new own loose) (hobj : ObjAt new.heap source obj)
    (href : addr ∈ refs obj) (hnot : ¬ changed addr)
    (htarget : ObjAt store.heap addr target) : ObjAt new.heap addr target :=
  hevolves.live_kept (hsound.balanced.live_of_refs hobj href) hnot htarget

/-- What is owned is still there. -/
theorem Evolves.own_kept {changed : Addr → Prop} {new : Store β γ} {target : β}
    (hevolves : Evolves changed store new) (hsound : Sound new own loose)
    (hown : addr ∈ own) (hnot : ¬ changed addr)
    (htarget : ObjAt store.heap addr target) : ObjAt new.heap addr target :=
  hevolves.live_kept (hsound.balanced.live hown) hnot htarget

/-- An object that nobody owns or refers to is not there. -/
theorem Sound.not_live (hsound : Sound store own loose) (hown : addr ∉ own)
    (hlost : addr ∉ store.heap.lost)
    (hrefs : ∀ source obj, ObjAt store.heap source obj → addr ∉ refs obj) :
    ¬ Live store.heap addr := by
  rintro ⟨obj, rc, hcell⟩
  have hcount := hsound.balanced.count_eq addr
  have hpos := hsound.balanced.pos addr ⟨rc, obj⟩ hcell
  have hedges : store.heap.edges.count addr = 0 := by
    rw [List.count_eq_zero]
    intro hmem
    obtain ⟨source, obj', hobj, hin⟩ := exists_of_mem_edges hmem
    exact hrefs source obj' hobj hin
  rw [rc_of_cell hcell, Multiset.count_eq_zero_of_notMem hown,
    List.count_eq_zero_of_not_mem hlost, hedges] at hcount
  exact absurd hcount (Nat.ne_of_gt hpos)

/-- Nothing is left when nobody outside owns anything and references only go
down. -/
theorem Sound.all_freed (hsound : Sound store 0 0)
    (hlost : store.heap.lost = []) (rank : Addr → Nat)
    (hrank : ∀ source obj, ObjAt store.heap source obj →
      ∀ target ∈ refs obj, rank target < rank source) (block : Block) :
    store.content? block = none := by
  have hheap := hsound.balanced.all_freed hlost rank hrank
  cases hcontent : store.content? block with
  | none => rfl
  | some content =>
      rcases hsound.holder hcontent with hloose | ⟨source, obj, ⟨rc, hcell⟩, -⟩
      · exact absurd hloose (Multiset.notMem_zero block)
      · rw [hheap source] at hcell
        cases hcell

end Operations

end ForeignBlocks
