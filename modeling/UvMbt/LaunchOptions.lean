/-
What `ProcessOptions::new` makes of its arguments, and what `uv_spawn` reads of
it: the options refer to all that they were asked for.
-/
import UvMbt.Launch
import UvMbt.Outcome

set_option autoImplicit false

namespace UvMbt.Launch

open RefHeap ForeignBlocks GuardedRun Args
open StdioContainers (Config Container Pointer)

section Objects

variable {store : Objects} {addr : Addr} {object : Object}
  {own : Multiset Addr}

theorem lift_ok {α : Type} {result : Except ForeignBlocks.Fault α} {value : α}
    (hresult : result = .ok value) : lift result = .ok value := by
  rw [hresult]
  rfl

theorem get_ok (hobj : ObjAt store.heap addr object) :
    get store addr = .ok object := by
  rw [get, hobj.get]

theorem getOptions_ok {options : Options}
    (hobj : ObjAt store.heap addr (.options options)) :
    getOptions store addr = .ok options := by
  rw [getOptions, Outcome.bind_ok (get_ok hobj)]

theorem getBytes_ok {bytes : Bytes}
    (hobj : ObjAt store.heap addr (.bytes bytes)) :
    getBytes store addr = .ok bytes := by
  rw [getBytes, Outcome.bind_ok (get_ok hobj)]

theorem getContainer_ok {built : Config} {content : Container}
    (hobj : ObjAt store.heap addr (.container built content)) :
    getContainer store addr = .ok (built, content) := by
  rw [getContainer, Outcome.bind_ok (get_ok hobj)]

theorem getStream_ok (hobj : ObjAt store.heap addr .stream) :
    getStream store addr = .ok () := by
  rw [getStream, Outcome.bind_ok (get_ok hobj)]

/-- A reference more. -/
theorem incref_ok (hsound : Sound store own 0) (hlive : Live store.heap addr) :
    ∃ next, incref store addr = .ok next ∧ Sound next (addr ::ₘ own) 0 ∧
      (∀ source object, ObjAt next.heap source object ↔
        ObjAt store.heap source object) ∧
      next.heap.cells.length = store.heap.cells.length ∧
      Evolves (fun _ => False) store next := by
  obtain ⟨next, hincref, hnext, hsame, hcells, hevolves⟩ :=
    incref_store hsound hlive
  exact ⟨next, lift_ok hincref, hnext, hsame, hcells, hevolves⟩

/-- An object with other references. -/
theorem put_ok {old : Object} (new : Object) (own' : Multiset Addr)
    (hsound : Sound store own 0) (hobj : ObjAt store.heap addr old)
    (hmove : own' + ↑(refs new) = own + ↑(refs old)) :
    ∃ next, put store addr new = .ok next ∧ Sound next own' 0 ∧
      ObjAt next.heap addr new ∧
      next.heap.cells.length = store.heap.cells.length ∧
      Evolves (fun source => source = addr) store next := by
  obtain ⟨next, hput, hnext, hself, -, hcells, hevolves⟩ :=
    put_store new own' 0 hsound hobj hmove rfl
  exact ⟨next, lift_ok hput, hnext, hself, hcells, hevolves⟩

theorem decref_ok (hsound : Sound store (addr ::ₘ own) 0) :
    ∃ next, decref store addr = .ok next ∧ Sound next own 0 ∧
      next.heap.cells.length = store.heap.cells.length ∧
      Evolves (fun _ => False) store next := by
  obtain ⟨next, hdecref, hnext, hcells, hevolves⟩ := decref_store hsound
  exact ⟨next, lift_ok hdecref, hnext, hcells, hevolves⟩

theorem alloc_ok (object : Object) {own' : Multiset Addr}
    (hsound : Sound store own' 0) (hmove : own' = ↑(refs object) + own) :
    Sound (store.alloc object).1 (store.heap.cells.length ::ₘ own) 0 ∧
      ObjAt (store.alloc object).1.heap store.heap.cells.length object ∧
      Evolves (fun source => source = store.heap.cells.length) store
        (store.alloc object).1 := by
  rw [hmove] at hsound
  exact alloc_store hsound

/-- The slot of a process gets another callback, and gives up the old one. -/
theorem handleSetData_ok {process cb : Addr} {data : Option Addr}
    (hsound : Sound store (cb ::ₘ own) 0)
    (hobj : ObjAt store.heap process (.process data)) (hown : process ∈ own) :
    ∃ next, handleSetData process cb store = .ok next ∧ Sound next own 0 ∧
      ObjAt next.heap process (.process (some cb)) ∧
      Evolves (fun source => source = process) store next := by
  have hrefs : ∀ addr : Addr,
      (↑(refs (Object.process (some addr))) : Multiset Addr) = addr ::ₘ 0 :=
    fun _ => rfl
  have hmove : own + ↑(refs (Object.process (some cb))) =
      (cb ::ₘ own) + ↑(refs (Object.process none)) := by
    rw [hrefs, Multiset.add_cons, Multiset.cons_add]
    rfl
  cases data with
  | none =>
      obtain ⟨next, hput, hnext, hself, -, hevolves⟩ :=
        put_ok (.process (some cb)) own hsound hobj hmove
      refine ⟨next, ?_, hnext, hself, hevolves⟩
      rw [handleSetData, Outcome.bind_ok (get_ok hobj)]
      exact hput
  | some old =>
      obtain ⟨mid, next, hdecref, hput, hnext, hself, -, hevolves⟩ :=
        decref_put_store (fun _ => rfl) (Object.process none)
          (Object.process (some cb)) old own hsound hobj (hrefs old) hmove
          (Multiset.mem_cons_of_mem hown)
      refine ⟨next, ?_, hnext, hself, hevolves⟩
      rw [handleSetData, Outcome.bind_ok (get_ok hobj)]
      exact (Outcome.bind_ok (lift_ok hdecref) _).trans (lift_ok hput)

theorem refs_vector (items : List Addr) :
    refs (Object.array (items.map some ++ [none])) = items := by
  change (items.map some ++ [none]).filterMap id ++ [] = items
  rw [List.append_nil, List.filterMap_append, List.filterMap_map]
  simp

/-- A pointer between others is one reference. -/
theorem refs_pointer (before after : List (Option Addr)) (value : Addr) :
    ((before ++ some value :: after).filterMap id).Perm
      (value :: (before ++ none :: after).filterMap id) := by
  rw [List.filterMap_append, List.filterMap_append]
  exact List.perm_middle

theorem refs_set (options : Options) (field : Field) (value : Addr)
    (hnone : options.get field = none) :
    (↑(refs (Object.options (options.set field (some value)))) :
        Multiset Addr) =
      value ::ₘ ↑(refs (Object.options options)) := by
  have hstreams : (options.set field (some value)).streams =
      options.streams := by
    cases field <;> rfl
  rw [Multiset.cons_coe, Multiset.coe_eq_coe]
  change ((options.set field (some value)).pointers.filterMap id ++
    (options.set field (some value)).streams ++ []).Perm
      (value :: (options.pointers.filterMap id ++ options.streams ++ []))
  rw [hstreams, List.append_nil, List.append_nil, ← List.cons_append]
  apply List.Perm.append_right
  obtain ⟨exitCb, file, args, env, cwd, stdio, ids⟩ := options
  cases field with
  | exitCb =>
      cases hnone
      exact refs_pointer [] [file, args, env, cwd] value
  | file =>
      cases hnone
      exact refs_pointer [exitCb] [args, env, cwd] value
  | args =>
      cases hnone
      exact refs_pointer [exitCb, file] [env, cwd] value
  | env =>
      cases hnone
      exact refs_pointer [exitCb, file, args] [cwd] value
  | cwd =>
      cases hnone
      exact refs_pointer [exitCb, file, args, env] [] value

theorem streams_make (config : Config) :
    containerRefs config.make = config.acquired ∧
      config.make.finalizeMoved.filterMap target? = config.acquired := by
  have hobjects : (config.acquired.map Pointer.object).filterMap target? =
      config.acquired := by
    rw [List.filterMap_map]
    exact List.filterMap_some
  constructor
  · rcases StdioContainers.finalize_make config with ⟨-, heq⟩ | ⟨fd, -, rfl, heq⟩
    · rw [containerRefs, heq, hobjects]
    · rw [containerRefs, heq]
      rfl
  · rw [StdioContainers.finalizeMoved_make, hobjects]

/-- Options refer to the streams of their containers. -/
theorem streams_map_make (stdio : List Config) (current : Options)
    (hstdio : current.stdio = stdio.map Config.make) :
    current.streams = stdio.flatMap Config.acquired := by
  rw [Options.streams, hstdio, List.flatMap_map]
  congr 1
  funext config
  exact (streams_make config).2

theorem refs_options (current : Options) :
    refs (Object.options current) =
      current.pointers.filterMap id ++ current.streams :=
  List.append_nil _

end Objects

section Building

theorem forall₂_imp_of_mem {α β : Type} {first second : α → β → Prop}
    {as : List α} {bs : List β} (hfirst : List.Forall₂ first as bs)
    (himp : ∀ a ∈ as, ∀ b, first a b → second a b) :
    List.Forall₂ second as bs := by
  induction hfirst with
  | nil => exact List.Forall₂.nil
  | cons hhead _ ih =>
      exact List.Forall₂.cons (himp _ List.mem_cons_self _ hhead)
        (ih fun a ha => himp a (List.mem_cons_of_mem _ ha))

theorem forall₂_left {α β : Type} {rel : α → β → Prop} {as : List α}
    {bs : List β} (hrel : List.Forall₂ rel as bs) {a : α} (hmem : a ∈ as) :
    ∃ b, b ∈ bs ∧ rel a b := by
  induction hrel with
  | nil => cases hmem
  | @cons head b as bs hhead _ ih =>
      rcases List.mem_cons.mp hmem with rfl | hmem
      · exact ⟨b, List.mem_cons_self, hhead⟩
      · obtain ⟨other, hother, hrel⟩ := ih hmem
        exact ⟨other, List.mem_cons_of_mem b hother, hrel⟩

/-- Everything but some options, some containers and what is new is as it
was. -/
def Touches (options : Addr) (moved : List Addr) (old new : Objects) : Prop :=
  Evolves (fun addr => addr = options ∨ addr ∈ moved ∨
    old.heap.cells.length ≤ addr) old new

theorem Touches.trans {options : Addr} {moved : List Addr}
    {first second third : Objects} (hfirst : Touches options moved first second)
    (hsecond : Touches options moved second third) :
    Touches options moved first third := by
  apply (Evolves.trans hfirst hsecond).mono
  rintro addr (hchanged | heq | hmoved | hnew)
  · exact hchanged
  · exact Or.inl heq
  · exact Or.inr (Or.inl hmoved)
  · exact Or.inr (Or.inr (Nat.le_trans hfirst.cells_le hnew))

theorem Touches.of_none {options : Addr} {moved : List Addr}
    {old new : Objects} (hevolves : Evolves (fun _ => False) old new) :
    Touches options moved old new :=
  hevolves.mono fun _ hfalse => hfalse.elim

theorem Touches.more {options : Addr} {old new : Objects}
    (htouches : Touches options [] old new) (moved : List Addr) :
    Touches options moved old new := by
  apply Evolves.mono htouches
  rintro addr (heq | hmem | hnew)
  · exact Or.inl heq
  · cases hmem
  · exact Or.inr (Or.inr hnew)

variable {store : Objects} {options value : Addr} {own : Multiset Addr}
  {current : Options} {field : Field}

/-- A setter of an empty field moves a reference into the options. -/
theorem setField_spec (hsound : Sound store (value ::ₘ own) 0)
    (hoptions : ObjAt store.heap options (.options current))
    (hown : options ∈ own) (hnone : current.get field = none) :
    ∃ next, setField field options value store = .ok next ∧
      Sound next own 0 ∧
      ObjAt next.heap options (.options (current.set field (some value))) ∧
      next.heap.cells.length = store.heap.cells.length ∧
      Touches options [] store next := by
  obtain ⟨taken, hincref, htaken, hsame, hcells₁, hevolves₁⟩ :=
    incref_ok hsound hoptions.live
  have hcurrent := (hsame _ _).mpr hoptions
  obtain ⟨placed, hput, hplaced, hself, hcells₂, hevolves₂⟩ :=
    put_ok (.options (current.set field (some value))) (options ::ₘ own) htaken
      hcurrent (by
        rw [refs_set current field value hnone, Multiset.add_cons,
          Multiset.cons_add, Multiset.cons_add, Multiset.cons_add,
          Multiset.cons_swap])
  obtain ⟨next, hdecref, hnext, hcells₃, hevolves₃⟩ := decref_ok hplaced
  refine ⟨next, ?_, hnext, hevolves₃.own_kept hnext hown id hself,
    hcells₃.trans (hcells₂.trans hcells₁), ?_⟩
  · rw [setField, Outcome.bind_ok hincref,
      Outcome.bind_ok (getOptions_ok hcurrent), hnone]
    exact (Outcome.bind_ok hput _).trans hdecref
  · apply ((hevolves₁.trans hevolves₂).after hevolves₃).mono
    rintro addr (hfalse | heq)
    · exact hfalse.elim
    · exact Or.inl heq

/-- A reference more to each of some objects. -/
theorem increfAll_spec (items : List Addr) (hsound : Sound store own 0)
    (hitems : ∀ item ∈ items, item ∈ own) :
    ∃ next, items.foldlM incref store = .ok next ∧
      Sound next (↑items + own) 0 ∧
      next.heap.cells.length = store.heap.cells.length ∧
      Evolves (fun _ => False) store next := by
  induction items generalizing store own with
  | nil =>
      refine ⟨store, rfl, ?_, rfl, Evolves.refl _ _⟩
      rw [Multiset.coe_nil, Multiset.zero_add]
      exact hsound
  | cons item rest ih =>
      have hown : item ∈ own := hitems item List.mem_cons_self
      obtain ⟨taken, hincref, htaken, -, hcells, hevolves₁⟩ :=
        incref_ok hsound (hsound.balanced.live hown)
      obtain ⟨next, hrest, hnext, hcells', hevolves₂⟩ := ih htaken
        (fun other hother => Multiset.mem_cons_of_mem
          (hitems other (List.mem_cons_of_mem item hother)))
      refine ⟨next, ?_, ?_, hcells'.trans hcells, hevolves₁.after hevolves₂⟩
      · rw [List.foldlM_cons, Outcome.bind_ok hincref]
        exact hrest
      · rw [← Multiset.cons_coe, Multiset.cons_add, ← Multiset.add_cons]
        exact hnext

theorem makeVector_spec (items : List Addr) (hsound : Sound store own 0)
    (hitems : ∀ item ∈ items, item ∈ own) :
    ∃ next vector, makeVector items store = .ok (next, vector) ∧
      Sound next (vector ::ₘ own) 0 ∧
      ObjAt next.heap vector (.array (items.map some ++ [none])) ∧
      vector = store.heap.cells.length ∧
      next.heap.cells.length = vector + 1 ∧
      Evolves (fun addr => addr = store.heap.cells.length) store next := by
  obtain ⟨taken, hfold, htaken, hcells, hevolves₁⟩ :=
    increfAll_spec items hsound hitems
  obtain ⟨hnext, hself, hevolves₂⟩ :=
    alloc_ok (.array (items.map some ++ [none])) htaken (by rw [refs_vector])
  refine ⟨_, _, ?_, hnext, hself, hcells, ?_, ?_⟩
  · rw [makeVector, Outcome.bind_ok hfold]
    rfl
  · simp [Store.alloc, Heap.alloc]
  · apply (hevolves₁.trans hevolves₂).mono
    rintro addr (hfalse | heq)
    · exact hfalse.elim
    · rw [heq, hcells]

/-- A container that is as it was built gives its stream to the options. -/
theorem moveContainer_spec {container : Addr} {built : Config}
    (hsound : Sound store own 0)
    (hoptions : ObjAt store.heap options (.options current))
    (hcontainer : ObjAt store.heap container (.container built built.make))
    (hown : options ∈ own) (hown' : container ∈ own) :
    ∃ next, moveContainer options store container = .ok next ∧
      Sound next own 0 ∧
      ObjAt next.heap options (.options { current with
        stdio := current.stdio ++ [built.make] }) ∧
      ObjAt next.heap container (.container built .zeroed) ∧
      next.heap.cells.length = store.heap.cells.length ∧
      Evolves (fun addr => addr = options ∨ addr = container) store next := by
  have hne : options ≠ container := by
    rintro rfl
    cases hoptions.unique hcontainer
  have hrefs : refs (Object.container built built.make) = built.acquired :=
    (List.append_nil _).trans (streams_make built).1
  obtain ⟨emptied, hput, hemptied, hzeroed, hcells₁, hevolves₁⟩ :=
    put_ok (.container built .zeroed) (own + ↑built.acquired) hsound hcontainer
      (by rw [hrefs]; exact Multiset.add_zero _)
  have hcurrent := hevolves₁.own_kept hemptied
    (Multiset.mem_add.mpr (Or.inl hown)) hne hoptions
  obtain ⟨next, hput', hnext, hself, hcells₂, hevolves₂⟩ :=
    put_ok (.options { current with
      stdio := current.stdio ++ [built.make] }) own hemptied hcurrent (by
        rw [refs_options, refs_options, Options.streams, Options.streams,
          List.flatMap_append, List.flatMap_singleton, (streams_make built).2,
          ← List.append_assoc, ← Multiset.coe_add _ built.acquired,
          Multiset.add_assoc,
          Multiset.add_comm (built.acquired : Multiset Addr)]
        rfl)
  refine ⟨next, ?_, hnext, hself,
    hevolves₂.own_kept hnext hown' (Ne.symm hne) hzeroed,
    hcells₂.trans hcells₁, (hevolves₁.trans hevolves₂).mono ?_⟩
  · rw [moveContainer, Outcome.bind_ok (getContainer_ok hcontainer)]
    exact (Outcome.bind_ok hput _).trans
      ((Outcome.bind_ok (getOptions_ok hcurrent) _).trans hput')
  · rintro addr (heq | heq)
    · exact Or.inr heq
    · exact Or.inl heq

/-- A container as it was built. -/
def BuiltAs (store : Objects) (container : Addr) (built : Config) : Prop :=
  ObjAt store.heap container (.container built built.make)

/-- A container that has given its stream away. -/
def Emptied (store : Objects) (container : Addr) : Prop :=
  ∃ built, ObjAt store.heap container (.container built .zeroed)

theorem moveAll_spec {items : List Addr} {builts : List Config}
    (hsound : Sound store own 0)
    (hoptions : ObjAt store.heap options (.options current))
    (hitems : List.Forall₂ (BuiltAs store) items builts) (hnodup : items.Nodup)
    (hown : options ∈ own) (hown' : ∀ item ∈ items, item ∈ own) :
    ∃ next, items.foldlM (moveContainer options) store = .ok next ∧
      Sound next own 0 ∧
      ObjAt next.heap options (.options { current with
        stdio := current.stdio ++ builts.map Config.make }) ∧
      (∀ item ∈ items, Emptied next item) ∧
      next.heap.cells.length = store.heap.cells.length ∧
      Evolves (fun addr => addr = options ∨ addr ∈ items) store next := by
  induction items generalizing store current builts with
  | nil =>
      cases hitems
      refine ⟨store, rfl, hsound, ?_, List.forall_mem_nil _, rfl,
        Evolves.refl _ _⟩
      rw [List.map_nil, List.append_nil]
      exact hoptions
  | cons item items ih =>
      obtain ⟨built, builts, hitem, hrest, rfl⟩ :=
        List.forall₂_cons_left_iff.mp hitems
      obtain ⟨hnot, hnodup⟩ := List.nodup_cons.mp hnodup
      obtain ⟨mid, hmove, hmid, hcurrent, hzeroed, hcells₁, hevolves₁⟩ :=
        moveContainer_spec hsound hoptions hitem hown
          (hown' item List.mem_cons_self)
      have hrestOwn : ∀ other ∈ items, other ∈ own := fun other hother =>
        hown' other (List.mem_cons_of_mem item hother)
      have hkept : ∀ other ∈ items, ∀ built, BuiltAs store other built →
          BuiltAs mid other built := by
        intro other hother built hbuilt
        apply hevolves₁.own_kept hmid (hrestOwn other hother) _ hbuilt
        rintro (rfl | rfl)
        · cases hbuilt.unique hoptions
        · exact hnot hother
      obtain ⟨next, hfold, hnext, hself, hemptied, hcells₂, hevolves₂⟩ :=
        ih hmid hcurrent (forall₂_imp_of_mem hrest hkept) hnodup hrestOwn
      refine ⟨next, ?_, hnext, ?_, ?_, hcells₂.trans hcells₁,
        (hevolves₁.trans hevolves₂).mono ?_⟩
      · rw [List.foldlM_cons, Outcome.bind_ok hmove]
        exact hfold
      · rw [List.map_cons]
        rw [List.append_assoc, List.singleton_append] at hself
        exact hself
      · intro other hother
        rcases List.mem_cons.mp hother with rfl | hother
        · refine ⟨built, hevolves₂.own_kept hnext
            (hown' other List.mem_cons_self) ?_ hzeroed⟩
          rintro (rfl | hmem)
          · cases hzeroed.unique hcurrent
          · exact hnot hmem
        · exact hemptied other hother
      · rintro addr ((heq | rfl) | (heq | hmem))
        · exact Or.inl heq
        · exact Or.inr List.mem_cons_self
        · exact Or.inl heq
        · exact Or.inr (List.mem_cons_of_mem item hmem)

/-- A reference less to each of some objects. -/
theorem decrefAll_spec (items : List Addr)
    (hsound : Sound store (↑items + own) 0) :
    ∃ next, items.foldlM decref store = .ok next ∧ Sound next own 0 ∧
      next.heap.cells.length = store.heap.cells.length ∧
      Evolves (fun _ => False) store next := by
  induction items generalizing store with
  | nil =>
      rw [Multiset.coe_nil, Multiset.zero_add] at hsound
      exact ⟨store, rfl, hsound, rfl, Evolves.refl _ _⟩
  | cons item rest ih =>
      rw [← Multiset.cons_coe, Multiset.cons_add] at hsound
      obtain ⟨less, hdecref, hless, hcells₁, hevolves₁⟩ := decref_ok hsound
      obtain ⟨next, hrest, hnext, hcells₂, hevolves₂⟩ := ih hless
      refine ⟨next, ?_, hnext, hcells₂.trans hcells₁,
        hevolves₁.after hevolves₂⟩
      rw [List.foldlM_cons, Outcome.bind_ok hdecref]
      exact hrest

/-- The setter of an empty `stdio` takes what is in the containers. -/
theorem setStdio_spec {items : List Addr} {builts : List Config}
    (hsound : Sound store (↑items + own) 0)
    (hoptions : ObjAt store.heap options (.options current))
    (hnone : current.stdio = [])
    (hitems : List.Forall₂ (BuiltAs store) items builts) (hnodup : items.Nodup)
    (hown : options ∈ own) (hown' : ∀ item ∈ items, item ∈ own) :
    ∃ next, processOptionsSetStdio options items store = .ok next ∧
      Sound next own 0 ∧
      ObjAt next.heap options
        (.options { current with stdio := builts.map Config.make }) ∧
      (∀ item ∈ items, Emptied next item) ∧
      next.heap.cells.length = store.heap.cells.length ∧
      Evolves (fun addr => addr = options ∨ addr ∈ items) store next := by
  obtain ⟨taken, hincref, htaken, hsame, hcells₁, hevolves₁⟩ :=
    incref_ok hsound hoptions.live
  have hcurrent := (hsame _ _).mpr hoptions
  have hcleared : { current with stdio := [] } = current := by
    rw [← hnone]
  obtain ⟨placed, hput, hplaced, hself₂, hcells₂, hevolves₂⟩ :=
    put_ok (.options { current with stdio := [] }) _ htaken hcurrent
      (by rw [hcleared])
  have hitems₂ : List.Forall₂ (BuiltAs placed) items builts := by
    apply forall₂_imp_of_mem hitems
    intro item hitem built hbuilt
    apply hevolves₂.own_kept hplaced
      (Multiset.mem_cons_of_mem (Multiset.mem_add.mpr (Or.inl hitem))) _
      ((hsame _ _).mpr hbuilt)
    rintro rfl
    cases hbuilt.unique hoptions
  obtain ⟨moved, hmove, hmoved, hself₃, hemptied, hcells₃, hevolves₃⟩ :=
    moveAll_spec hplaced hself₂ hitems₂ hnodup (Multiset.mem_cons_self _ _)
      fun item hitem => Multiset.mem_cons_of_mem
        (Multiset.mem_add.mpr (Or.inl hitem))
  rw [← Multiset.add_cons] at hmoved
  obtain ⟨less, hdecrefs, hless, hcells₄, hevolves₄⟩ :=
    decrefAll_spec items hmoved
  obtain ⟨next, hdecref, hnext, hcells₅, hevolves₅⟩ := decref_ok hless
  have hafter := hevolves₄.after hevolves₅
  refine ⟨next, ?_, hnext, ?_, ?_, ?_, ?_⟩
  · rw [processOptionsSetStdio, Outcome.bind_ok hincref,
      Outcome.bind_ok (getOptions_ok hcurrent)]
    exact (Outcome.bind_ok hput _).trans ((Outcome.bind_ok hmove _).trans
      ((Outcome.bind_ok hdecrefs _).trans hdecref))
  · exact hafter.own_kept hnext hown id hself₃
  · intro item hitem
    obtain ⟨built, hzeroed⟩ := hemptied item hitem
    exact ⟨built, hafter.own_kept hnext (hown' item hitem) id hzeroed⟩
  · rw [hcells₅, hcells₄, hcells₃, hcells₂, hcells₁]
  · apply (((hevolves₁.trans hevolves₂).trans hevolves₃).after hafter).mono
    rintro addr ((hfalse | heq) | hchanged)
    · exact hfalse.elim
    · exact Or.inl heq
    · exact hchanged

end Building

theorem mem_refs_of_get {options : Options} (field : Field) {value : Addr}
    (hget : options.get field = some value) :
    value ∈ refs (Object.options options) := by
  rw [refs_options]
  apply List.mem_append_left
  rw [List.mem_filterMap]
  refine ⟨some value, ?_, rfl⟩
  rw [← hget]
  cases field <;> simp [Options.pointers, Options.get]

theorem mem_refs_of_stream {options : Options} {stdio : List Config}
    (hstdio : options.stdio = stdio.map Config.make) {config : Config}
    (hconfig : config ∈ stdio) {stream : Addr}
    (hstream : stream ∈ config.acquired) :
    stream ∈ refs (Object.options options) := by
  rw [refs_options, streams_map_make stdio options hstdio]
  exact List.mem_append_right _ (List.mem_flatMap.mpr ⟨config, hconfig, hstream⟩)

theorem get_set_self (options : Options) (field : Field)
    (value : Option Addr) : (options.set field value).get field = value := by
  cases field <;> rfl

theorem set_none {options : Options} (field : Field)
    (hnone : options.get field = none) : options.set field none = options := by
  obtain ⟨exitCb, file, args, env, cwd, stdio, ids⟩ := options
  cases field <;> cases hnone <;> rfl

section New

variable {s : State} {moved : List Addr} {store : Objects} {current : Options}
  {field : Field}

theorem mem_own {addr : Addr} (huser : addr ∈ s.user) : addr ∈ s.own :=
  Multiset.mem_add.mpr (Or.inl huser)

/-- Options that are being made next to the objects of a state, of which some
containers were emptied. -/
structure Built (s : State) (moved : List Addr) (store : Objects)
    (current : Options) : Prop where
  sound : Sound store (s.store.heap.cells.length ::ₘ s.own) 0
  object : ObjAt store.heap s.store.heap.cells.length (.options current)
  evolves : Evolves (fun addr => addr ∈ moved ∨
    s.store.heap.cells.length ≤ addr) s.store store
  fresh : ∀ addr object, s.store.heap.cells.length < addr →
    ObjAt store.heap addr object → ∃ items : List Addr,
      object = .array (items.map some ++ [none]) ∧ ∀ item ∈ items, Has s item
  owned : ∀ addr ∈ moved, addr ∈ s.user
  emptied : ∀ addr ∈ moved, Emptied store addr

theorem Built.start (hsound : Sound s.store s.own 0) :
    Built s [] (s.store.alloc (.options Options.zeroed)).1 Options.zeroed := by
  obtain ⟨hmade, hobj, hevolves⟩ := alloc_ok (.options Options.zeroed) hsound
    (Multiset.zero_add s.own).symm
  refine ⟨hmade, hobj, hevolves.mono ?_, ?_, List.forall_mem_nil _,
    List.forall_mem_nil _⟩
  · rintro addr rfl
    exact Or.inr (Nat.le_refl _)
  · intro addr object hlt hnew
    have hold := hevolves.objects addr object (Nat.ne_of_gt hlt) hnew
    exact absurd hold.lt_length (Nat.not_lt.mpr (Nat.le_of_lt hlt))

theorem Built.touch {next : Objects} {current' : Options}
    (hbuilt : Built s moved store current)
    (hsound : Sound next (s.store.heap.cells.length ::ₘ s.own) 0)
    (hobject : ObjAt next.heap s.store.heap.cells.length (.options current'))
    (htouches : Touches s.store.heap.cells.length [] store next)
    (hfresh : ∀ addr object, store.heap.cells.length ≤ addr →
      ObjAt next.heap addr object → ∃ items : List Addr,
        object = .array (items.map some ++ [none]) ∧
          ∀ item ∈ items, Has s item) :
    Built s moved next current' := by
  refine ⟨hsound, hobject, (hbuilt.evolves.trans htouches).mono ?_, ?_,
    hbuilt.owned, ?_⟩
  · rintro addr (hchanged | rfl | hmem | hle)
    · exact hchanged
    · exact Or.inr (Nat.le_refl _)
    · cases hmem
    · exact Or.inr (Nat.le_trans hbuilt.evolves.cells_le hle)
  · intro addr object hlt hobj
    by_cases hle : store.heap.cells.length ≤ addr
    · exact hfresh addr object hle hobj
    · apply hbuilt.fresh addr object hlt
      apply htouches.objects addr object _ hobj
      exact not_or.mpr ⟨Nat.ne_of_gt hlt, not_or.mpr ⟨List.not_mem_nil, hle⟩⟩
  · intro addr hmem
    obtain ⟨built, hzeroed⟩ := hbuilt.emptied addr hmem
    refine ⟨built, Evolves.own_kept htouches hsound
      (Multiset.mem_cons_of_mem (mem_own (hbuilt.owned addr hmem))) ?_ hzeroed⟩
    rintro (rfl | hnil | hle)
    · cases hzeroed.unique hbuilt.object
    · cases hnil
    · exact Nat.not_le.mpr hzeroed.lt_length hle

/-- Nothing new is made. -/
theorem Built.touch_same {next : Objects} {current' : Options}
    (hbuilt : Built s moved store current)
    (hsound : Sound next (s.store.heap.cells.length ::ₘ s.own) 0)
    (hobject : ObjAt next.heap s.store.heap.cells.length (.options current'))
    (htouches : Touches s.store.heap.cells.length [] store next)
    (hcells : next.heap.cells.length = store.heap.cells.length) :
    Built s moved next current' := by
  apply hbuilt.touch hsound hobject htouches
  intro addr object hle hobj
  rw [← hcells] at hle
  exact absurd hobj.lt_length (Nat.not_lt.mpr hle)

/-- What the program owns stays as it is while options are made. -/
theorem Built.kept (hbuilt : Built s moved store current) {addr : Addr}
    {object : Object} (huser : addr ∈ s.user) (hnot : addr ∉ moved)
    (hobj : ObjAt s.store.heap addr object) : ObjAt store.heap addr object :=
  hbuilt.evolves.own_kept hbuilt.sound
    (Multiset.mem_cons_of_mem (mem_own huser))
    (not_or.mpr ⟨hnot, Nat.not_le.mpr hobj.lt_length⟩) hobj

theorem Built.setObject (hbuilt : Built s moved store current) (field : Field)
    {value : Addr} (huser : value ∈ s.user) (hnone : current.get field = none) :
    ∃ taken next, incref store value = .ok taken ∧
      setField field s.store.heap.cells.length value taken = .ok next ∧
      Built s moved next (current.set field (some value)) ∧
      Touches s.store.heap.cells.length [] store next := by
  obtain ⟨taken, hincref, htaken, hsame, hcells, hevolves⟩ :=
    incref_ok hbuilt.sound
      (hbuilt.sound.balanced.live
        (Multiset.mem_cons_of_mem (mem_own huser)))
  obtain ⟨next, hset, hnext, hobject, hcells', htouches⟩ :=
    setField_spec htaken ((hsame _ _).mpr hbuilt.object)
      (Multiset.mem_cons_self _ _) hnone
  have htouches' := (Touches.of_none hevolves).trans htouches
  exact ⟨taken, next, hincref, hset, hbuilt.touch_same hnext hobject htouches'
    (hcells'.trans hcells), htouches'⟩

theorem Built.setVector (hbuilt : Built s moved store current) (field : Field)
    {items : List Addr} (hitems : ∀ item ∈ items, Has s item)
    (hnone : current.get field = none) :
    ∃ made vector next, makeVector items store = .ok (made, vector) ∧
      setField field s.store.heap.cells.length vector made = .ok next ∧
      Built s moved next (current.set field (some vector)) ∧
      Touches s.store.heap.cells.length [] store next ∧
      ObjAt next.heap vector (.array (items.map some ++ [none])) := by
  obtain ⟨made, vector, hmake, hmade, hvector, heq, hcells, hevolves⟩ :=
    makeVector_spec items hbuilt.sound
      (fun item hitem =>
        Multiset.mem_cons_of_mem (mem_own (hitems item hitem).1))
  have hlt : s.store.heap.cells.length < vector := by
    rw [heq]
    exact hbuilt.object.lt_length
  have hoptions := hevolves.own_kept hmade
    (Multiset.mem_cons_of_mem (Multiset.mem_cons_self _ _))
    (Nat.ne_of_lt hbuilt.object.lt_length) hbuilt.object
  obtain ⟨next, hset, hnext, hobject, hcells', htouches⟩ :=
    setField_spec hmade hoptions (Multiset.mem_cons_self _ _) hnone
  have htouches' : Touches s.store.heap.cells.length [] store next := by
    apply Touches.trans _ htouches
    apply hevolves.mono
    rintro addr rfl
    exact Or.inr (Or.inr (Nat.le_refl _))
  have hvector' : ObjAt next.heap vector
      (.array (items.map some ++ [none])) := by
    apply Evolves.ref_kept htouches hnext hobject
      (mem_refs_of_get field (get_set_self current field (some vector))) _
      hvector
    rintro (heq | hmem | hle)
    · exact Nat.ne_of_gt hlt heq
    · cases hmem
    · exact Nat.not_le.mpr hvector.lt_length hle
  refine ⟨made, vector, next, hmake, hset,
    hbuilt.touch hnext hobject htouches' ?_, htouches', hvector'⟩
  intro addr object hle hobj
  have haddr : addr = vector := by
    have hlength := hobj.lt_length
    rw [hcells', hcells] at hlength
    rw [← heq] at hle
    exact Nat.le_antisymm (Nat.le_of_lt_succ hlength) hle
  rw [haddr] at hobj
  exact ⟨items, hobj.unique hvector', hitems⟩

/-- A vector of the options, if there is one. -/
def VectorIn (store : Objects) (pointer : Option Addr) :
    Option (List Addr) → Prop
  | none => pointer = none
  | some items => ∃ vector, pointer = some vector ∧
      ObjAt store.heap vector (.array (items.map some ++ [none]))

theorem VectorIn.touch (field : Field) {next : Objects} {more : List Addr}
    {current' : Options} {pointer : Option Addr} {items : Option (List Addr)}
    (hvector : VectorIn store pointer items)
    (hbuilt : Built s moved store current)
    (htouches : Touches s.store.heap.cells.length more store next)
    (hbuilt' : Built s more next current')
    (hmore : ∀ addr ∈ more, ∃ built content,
      ObjAt store.heap addr (.container built content))
    (hget : current'.get field = pointer) : VectorIn next pointer items := by
  cases items with
  | none => exact hvector
  | some items =>
      obtain ⟨vector, rfl, hobj⟩ := hvector
      refine ⟨vector, rfl, ?_⟩
      apply Evolves.ref_kept htouches hbuilt'.sound hbuilt'.object
        (mem_refs_of_get field hget) _ hobj
      rintro (rfl | hmem | hle)
      · cases hobj.unique hbuilt.object
      · obtain ⟨built, content, hcontainer⟩ := hmore vector hmem
        cases hobj.unique hcontainer
      · exact Nat.not_le.mpr hobj.lt_length hle

theorem Built.setEnv (hbuilt : Built s moved store current)
    (env : Option (List Addr))
    (hitems : ∀ items ∈ env, ∀ item ∈ items, Has s item)
    (hnone : current.get .env = none) :
    ∃ next pointer,
      passEnv s.store.heap.cells.length env store = .ok next ∧
      Built s moved next (current.set .env pointer) ∧
      Touches s.store.heap.cells.length [] store next ∧
      VectorIn next pointer env := by
  cases env with
  | none =>
      refine ⟨store, none, rfl, ?_, Evolves.refl _ _, rfl⟩
      rw [set_none _ hnone]
      exact hbuilt
  | some items =>
      obtain ⟨made, vector, next, hmake, hset, hnext, htouches, hvector⟩ :=
        hbuilt.setVector .env (hitems items rfl) hnone
      exact ⟨next, some vector, (Outcome.bind_ok hmake _).trans hset, hnext,
        htouches, vector, rfl, hvector⟩

theorem Built.setCwd (hbuilt : Built s moved store current) (cwd : Option Addr)
    (huser : ∀ addr ∈ cwd, addr ∈ s.user)
    (hnone : current.get .cwd = none) :
    ∃ next, passCwd s.store.heap.cells.length cwd store = .ok next ∧
      Built s moved next (current.set .cwd cwd) ∧
      Touches s.store.heap.cells.length [] store next := by
  cases cwd with
  | none =>
      refine ⟨store, rfl, ?_, Evolves.refl _ _⟩
      rw [set_none _ hnone]
      exact hbuilt
  | some addr =>
      obtain ⟨taken, next, hincref, hset, hnext, htouches⟩ :=
        hbuilt.setObject .cwd (huser addr rfl) hnone
      exact ⟨next, (Outcome.bind_ok hincref _).trans hset, hnext, htouches⟩

/-- The containers of `stdio` give what they were built with to the options. -/
theorem Built.setStdio (hbuilt : Built s [] store current)
    (stdio : Option (List Addr)) {builts : List Config}
    (hitems : List.Forall₂ (BuiltAs s.store) (stdio.getD []) builts)
    (huser : ∀ item ∈ stdio.getD [], item ∈ s.user)
    (hnodup : (stdio.getD []).Nodup) (hnone : current.stdio = []) :
    ∃ next, passStdio s.store.heap.cells.length stdio store = .ok next ∧
      Built s (stdio.getD []) next
        { current with stdio := builts.map Config.make } ∧
      Touches s.store.heap.cells.length (stdio.getD []) store next := by
  cases stdio with
  | none =>
      cases hitems
      refine ⟨store, rfl, ?_, Evolves.refl _ _⟩
      rw [List.map_nil, ← hnone]
      exact hbuilt
  | some items =>
      have hown : ∀ item ∈ items,
          item ∈ s.store.heap.cells.length ::ₘ s.own := fun item hitem =>
        Multiset.mem_cons_of_mem (mem_own (huser item hitem))
      obtain ⟨taken, hincrefs, htaken, hcells₁, hevolves₁⟩ :=
        increfAll_spec items hbuilt.sound hown
      have hoptions := hevolves₁.own_kept htaken
        (Multiset.mem_add.mpr (Or.inr (Multiset.mem_cons_self _ _))) id
        hbuilt.object
      have hitems₁ : List.Forall₂ (BuiltAs taken) items builts := by
        apply forall₂_imp_of_mem hitems
        intro item hitem built hitemBuilt
        exact hevolves₁.own_kept htaken
          (Multiset.mem_add.mpr (Or.inl hitem)) id
          (hbuilt.kept (huser item hitem) List.not_mem_nil hitemBuilt)
      obtain ⟨next, hset, hnext, hself, hemptied, hcells₂, hevolves₂⟩ :=
        setStdio_spec htaken hoptions hnone hitems₁ hnodup
          (Multiset.mem_cons_self _ _) hown
      have hevolves : Evolves (fun addr =>
          addr = s.store.heap.cells.length ∨ addr ∈ items) store next := by
        apply (hevolves₁.trans hevolves₂).mono
        rintro addr (hfalse | hchanged)
        · exact hfalse.elim
        · exact hchanged
      refine ⟨next, (Outcome.bind_ok hincrefs _).trans hset,
        ⟨hnext, hself, (hbuilt.evolves.trans hevolves).mono ?_, ?_, huser,
          hemptied⟩, hevolves.mono ?_⟩
      · rintro addr ((hnil | hle) | rfl | hmem)
        · cases hnil
        · exact Or.inr hle
        · exact Or.inr (Nat.le_refl _)
        · exact Or.inl hmem
      · intro addr object hlt hobj
        apply hbuilt.fresh addr object hlt
        apply hevolves.objects addr object _ hobj
        rintro (heq | hmem)
        · exact Nat.ne_of_gt hlt heq
        · obtain ⟨built, -, hitem⟩ := forall₂_left hitems hmem
          exact Nat.lt_asymm hlt hitem.lt_length
      · rintro addr (heq | hmem)
        · exact Or.inl heq
        · exact Or.inr (Or.inl hmem)

theorem Built.setIds (hbuilt : Built s moved store current)
    (ids : UserIds.ProcessOptions) :
    ∃ next, setIds s.store.heap.cells.length ids store = .ok next ∧
      Built s moved next { current with ids := ids } ∧
      Touches s.store.heap.cells.length [] store next := by
  obtain ⟨next, hput, hnext, hobject, hcells, hevolves⟩ :=
    put_ok (.options { current with ids := ids }) _ hbuilt.sound hbuilt.object
      (by rw [refs_options, refs_options]; rfl)
  have htouches : Touches s.store.heap.cells.length [] store next :=
    hevolves.mono fun _ heq => Or.inl heq
  refine ⟨next, ?_, hbuilt.touch_same hnext hobject htouches hcells, htouches⟩
  rw [Launch.setIds, Outcome.bind_ok (getOptions_ok hbuilt.object)]
  exact hput

end New

section Contents

variable {s : State} {store new : Objects} {changed : Addr → Prop}
  {own : Multiset Addr} {addr : Addr} {current : Options} {asked : Asked}

theorem rel_imp_of_mem {α β : Type} {first second : α → β → Prop}
    {a : Option α} {b : Option β} (hfirst : Option.Rel first a b)
    (himp : ∀ x ∈ a, ∀ y, first x y → second x y) : Option.Rel second a b := by
  cases hfirst with
  | none => exact Option.Rel.none
  | some hrel => exact Option.Rel.some (himp _ rfl _ hrel)

theorem mem_refs_array {item : Addr} {items : List (Option Addr)}
    (hitem : some item ∈ items) : item ∈ refs (Object.array items) := by
  change item ∈ items.filterMap id ++ []
  rw [List.append_nil, List.mem_filterMap]
  exact ⟨some item, hitem, rfl⟩

/-- A vector that something live refers to keeps its items and their bytes. -/
theorem Vector.evolve {list : List Bytes} (hvector : Vector store addr list)
    (hevolves : Evolves changed store new) (hsound : Sound new own 0)
    {source : Addr} {object : Object} (hobj : ObjAt new.heap source object)
    (href : addr ∈ refs object)
    (hchanged : ∀ addr object, changed addr → ObjAt store.heap addr object →
      object.constant = false) : Vector new addr list := by
  obtain ⟨items, harray, hitems⟩ := hvector
  have harray' := hevolves.ref_kept hsound hobj href (fun hnow => by
    cases hchanged _ _ hnow harray) harray
  refine ⟨items, harray', forall₂_imp_of_mem hitems ?_⟩
  intro item hitem bytes hbytes
  apply hevolves.ref_kept hsound harray' (mem_refs_array _) _ hbytes
  · exact List.mem_append_left _ (List.mem_map_of_mem hitem)
  · intro hnow
    cases hchanged _ _ hnow hbytes

theorem Shows.evolve (hshows : Shows store current asked)
    (hevolves : Evolves changed store new) (hsound : Sound new own 0)
    (hobj : ObjAt new.heap addr (.options current))
    (hchanged : ∀ addr object, changed addr → ObjAt store.heap addr object →
      object.constant = false) : Shows new current asked where
  file := rel_imp_of_mem hshows.file fun file hfile bytes hbytes =>
    hevolves.ref_kept hsound hobj (mem_refs_of_get .file hfile)
      (fun hnow => by cases hchanged _ _ hnow hbytes) hbytes
  args := rel_imp_of_mem hshows.args fun args hargs list hlist =>
    hlist.evolve hevolves hsound hobj (mem_refs_of_get .args hargs)
      hchanged
  env := rel_imp_of_mem hshows.env fun env henv list hlist =>
    hlist.evolve hevolves hsound hobj (mem_refs_of_get .env henv)
      hchanged
  cwd := rel_imp_of_mem hshows.cwd fun cwd hcwd bytes hbytes =>
    hevolves.ref_kept hsound hobj (mem_refs_of_get .cwd hcwd)
      (fun hnow => by cases hchanged _ _ hnow hbytes) hbytes
  stdio := hshows.stdio
  streams config hconfig stream hstream := by
    have hold := hshows.streams config hconfig stream hstream
    refine hevolves.ref_kept hsound hobj ?_
      (fun hnow => by cases hchanged _ _ hnow hold) hold
    exact mem_refs_of_stream hshows.stdio hconfig hstream
  ids := hshows.ids

end Contents

section Making

variable {s : State} {arguments : Arguments}

/-- An optional step that is made where there is something. -/
theorem mapM_rel {α β : Type} {a : Option α} {step : α → Except Fault β}
    {rel : α → β → Prop}
    (hstep : ∀ x ∈ a, ∃ y, step x = .ok y ∧ rel x y) :
    ∃ b, a.mapM step = .ok b ∧ Option.Rel rel a b := by
  cases a with
  | none => exact ⟨none, rfl, Option.Rel.none⟩
  | some x =>
      obtain ⟨y, hy, hrel⟩ := hstep x rfl
      refine ⟨some y, ?_, Option.Rel.some hrel⟩
      rw [Option.mapM_some, hy]
      rfl

theorem getBytes_of_has {addr : Addr} (hhas : Has s addr) :
    ∃ bytes, getBytes s.store addr = .ok bytes ∧
      Contains s.store addr bytes := by
  obtain ⟨-, bytes, hbytes⟩ := hhas
  exact ⟨bytes, getBytes_ok hbytes, hbytes⟩

theorem mapM_getBytes {items : List Addr}
    (hitems : ∀ item ∈ items, Has s item) :
    ∃ list, items.mapM (getBytes s.store) = .ok list ∧
      List.Forall₂ (Contains s.store) items list := by
  induction items with
  | nil => exact ⟨[], rfl, List.Forall₂.nil⟩
  | cons item rest ih =>
      obtain ⟨-, bytes, hbytes⟩ := hitems item List.mem_cons_self
      obtain ⟨list, hrest, hlist⟩ := ih fun other hother =>
        hitems other (List.mem_cons_of_mem _ hother)
      refine ⟨bytes :: list, ?_, List.Forall₂.cons hbytes hlist⟩
      rw [List.mapM_cons, Outcome.bind_ok (getBytes_ok hbytes), hrest]
      rfl

theorem mapM_builtOf {items : List Addr}
    (hitems : ∀ item ∈ items, Fresh s item) :
    ∃ builts, items.mapM (builtOf s.store) = .ok builts ∧
      List.Forall₂ (BuiltAs s.store) items builts := by
  induction items with
  | nil => exact ⟨[], rfl, List.Forall₂.nil⟩
  | cons item rest ih =>
      obtain ⟨built, hbuilt⟩ := hitems item List.mem_cons_self
      obtain ⟨builts, hrest, hbuilts⟩ := ih fun other hother =>
        hitems other (List.mem_cons_of_mem _ hother)
      refine ⟨built :: builts, ?_, List.Forall₂.cons hbuilt hbuilts⟩
      rw [List.mapM_cons, builtOf, Outcome.bind_ok (getContainer_ok hbuilt),
        hrest]
      rfl

theorem mem_stdio {stdio : Option (List Addr)} {property : List Addr → Prop}
    (hnil : property []) (hstdio : ∀ items ∈ stdio, property items) :
    property (stdio.getD []) := by
  cases stdio with
  | none => exact hnil
  | some items => exact hstdio items rfl

/-- What the arguments of `ProcessOptions::new` ask for. -/
structure Given (store : Objects) (arguments : Arguments) (asked : Asked) :
    Prop where
  file : Contains store arguments.file asked.file
  args : List.Forall₂ (Contains store) arguments.args asked.args
  env : Option.Rel (List.Forall₂ (Contains store)) arguments.env asked.env
  cwd : Option.Rel (Contains store) arguments.cwd asked.cwd
  stdio : List.Forall₂ (BuiltAs store) (arguments.stdio.getD []) asked.stdio
  uid : arguments.uid = asked.uid
  gid : arguments.gid = asked.gid

theorem askedOf_spec (hallowed : Allowed s (.new arguments)) :
    ∃ asked, askedOf s.store arguments = .ok asked ∧
      Given s.store arguments asked := by
  obtain ⟨⟨⟨-, file, hfile⟩, hargs, henv, hcwd, -⟩, hrule⟩ := hallowed
  have hfresh : ∀ item ∈ arguments.stdio.getD [], Fresh s item :=
    mem_stdio (List.forall_mem_nil _) fun items hmem => (hrule items hmem).2
  obtain ⟨stdio, hmapStdio, hstdio⟩ := mapM_builtOf hfresh
  obtain ⟨args, hmap, hargs⟩ := mapM_getBytes hargs
  obtain ⟨env, hmapEnv, henv⟩ := mapM_rel (a := arguments.env)
    fun env hmem => mapM_getBytes (henv env hmem)
  obtain ⟨cwd, hmapCwd, hcwd⟩ := mapM_rel (a := arguments.cwd)
    fun cwd hmem => getBytes_of_has (hcwd cwd hmem)
  refine ⟨⟨file, args, env, cwd, stdio, arguments.uid, arguments.gid⟩, ?_,
    ⟨hfile, hargs, henv, hcwd, hstdio, rfl, rfl⟩⟩
  exact (Outcome.bind_ok (getBytes_ok hfile) _).trans
    ((Outcome.bind_ok hmap _).trans
      ((Outcome.bind_ok hmapEnv _).trans
        ((Outcome.bind_ok hmapCwd _).trans (Outcome.bind_ok hmapStdio _))))

theorem VectorIn.rel {store : Objects} {pointer : Option Addr}
    {items : Option (List Addr)} {lists : Option (List Bytes)}
    (hvector : VectorIn store pointer items)
    (hlists : Option.Rel (List.Forall₂ (Contains store)) items lists) :
    Option.Rel (Vector store) pointer lists := by
  cases hlists with
  | none =>
      rw [show pointer = none from hvector]
      exact Option.Rel.none
  | some hlist =>
      obtain ⟨vector, rfl, hobj⟩ := hvector
      exact Option.Rel.some ⟨_, hobj, hlist⟩

/-- `ProcessOptions::new` makes options that show what it was asked for. -/
theorem new_built (hsound : Sound s.store s.own 0)
    (hstreams : ∀ addr built, BuiltAs s.store addr built →
      ∀ stream ∈ built.acquired, ObjAt s.store.heap stream .stream)
    (hallowed : Allowed s (.new arguments)) :
    ∃ asked final current, new arguments s = .ok { s with
        store := final, user := s.store.heap.cells.length ::ₘ s.user,
        asked := (s.store.heap.cells.length, asked) :: s.asked } ∧
      Built s (arguments.stdio.getD []) final current ∧
      Shows final current asked ∧
      current.exitCb = some arguments.exitCb := by
  obtain ⟨asked, hasked, hgiven⟩ := askedOf_spec hallowed
  obtain ⟨⟨⟨hfile, -⟩, hargs, henv, hcwd, hstdio, hexitCb, -⟩, hrule⟩ :=
    hallowed
  have hcontainers : ∀ item ∈ arguments.stdio.getD [], HasContainer s item :=
    mem_stdio (List.forall_mem_nil _) hstdio
  have hnodup : (arguments.stdio.getD []).Nodup :=
    mem_stdio List.nodup_nil fun items hmem => (hrule items hmem).1
  have hnot : ∀ addr object, ObjAt s.store.heap addr object →
      (∀ built content, object ≠ .container built content) →
        addr ∉ arguments.stdio.getD [] := by
    intro addr object hobj hother hmem
    obtain ⟨-, built, content, hcontainer⟩ := hcontainers addr hmem
    exact hother built content (hobj.unique hcontainer)
  have h₀ := Built.start hsound
  obtain ⟨_, _, hincref₁, hset₁, h₁, -⟩ := h₀.setObject .exitCb hexitCb rfl
  obtain ⟨_, _, hincref₂, hset₂, h₂, -⟩ := h₁.setObject .file hfile rfl
  obtain ⟨_, _, _, hmake₃, hset₃, h₃, -, harray⟩ :=
    h₂.setVector .args hargs rfl
  obtain ⟨_, pointer, hpass₄, h₄, ht₄, hvector⟩ :=
    h₃.setEnv arguments.env henv rfl
  obtain ⟨_, hpass₅, h₅, ht₅⟩ := h₄.setCwd arguments.cwd
    (fun cwd hmem => (hcwd cwd hmem).1) rfl
  obtain ⟨_, hpass₆, h₆, ht₆⟩ := h₅.setStdio arguments.stdio hgiven.stdio
    (fun item hmem => (hcontainers item hmem).1) hnodup rfl
  obtain ⟨final, hids, h₇, ht₇⟩ := h₆.setIds
    (UserIds.ProcessOptions.new arguments.uid arguments.gid)
  have hkeptContainer : ∀ {current store}, Built s [] store current →
      ∀ addr ∈ arguments.stdio.getD [], ∃ built content,
        ObjAt store.heap addr (.container built content) := by
    intro current store hbuilt addr hmem
    obtain ⟨huser, built, content, hcontainer⟩ := hcontainers addr hmem
    exact ⟨built, content, hbuilt.kept huser List.not_mem_nil hcontainer⟩
  have ht₆₇ := ht₆.trans (ht₇.more _)
  have hargsIn := VectorIn.touch .args
    (show VectorIn _ _ (some arguments.args) from ⟨_, rfl, harray⟩) h₃
    (((ht₄.trans ht₅).more _).trans ht₆₇) h₇ (hkeptContainer h₃) rfl
  have henvIn := hvector.touch .env h₄ ((ht₅.more _).trans ht₆₇) h₇
    (hkeptContainer h₄) rfl
  have hkeptBytes : ∀ addr bytes, addr ∈ s.user →
      Contains s.store addr bytes → Contains final addr bytes :=
    fun addr bytes huser hbytes => h₇.kept huser
      (hnot addr _ hbytes fun _ _ heq => by cases heq) hbytes
  have hkept : ∀ items list, (∀ item ∈ items, Has s item) →
      List.Forall₂ (Contains s.store) items list →
        List.Forall₂ (Contains final) items list := fun items list hhas hlist =>
    forall₂_imp_of_mem hlist fun item hitem bytes hbytes =>
      hkeptBytes item bytes (hhas item hitem).1 hbytes
  refine ⟨asked, final, _, ?_, h₇, ?_, rfl⟩
  · rw [new, Outcome.bind_ok hasked]
    exact (Outcome.bind_ok hincref₁ _).trans
      ((Outcome.bind_ok hset₁ _).trans
      ((Outcome.bind_ok hincref₂ _).trans
      ((Outcome.bind_ok hset₂ _).trans
      ((Outcome.bind_ok hmake₃ _).trans
      ((Outcome.bind_ok hset₃ _).trans
      ((Outcome.bind_ok hpass₄ _).trans
      ((Outcome.bind_ok hpass₅ _).trans
      ((Outcome.bind_ok hpass₆ _).trans
      (Outcome.bind_ok hids _)))))))))
  · refine ⟨Option.Rel.some (hkeptBytes _ _ hfile hgiven.file),
      hargsIn.rel (Option.Rel.some (hkept _ _ hargs hgiven.args)),
      henvIn.rel (rel_imp_of_mem hgiven.env fun env hmem list hlist =>
        hkept env list (henv env hmem) hlist),
      rel_imp_of_mem hgiven.cwd fun cwd hmem bytes hbytes =>
        hkeptBytes cwd bytes (hcwd cwd hmem).1 hbytes, rfl, ?_, ?_⟩
    · intro config hconfig stream hstream
      obtain ⟨item, -, hitem⟩ := forall₂_left hgiven.stdio.flip hconfig
      have hold := hstreams item config hitem stream hstream
      refine h₇.evolves.ref_kept h₇.sound h₇.object
        (mem_refs_of_stream rfl hconfig hstream) ?_ hold
      exact not_or.mpr ⟨hnot stream _ hold (fun _ _ heq => by cases heq),
        Nat.not_le.mpr hold.lt_length⟩
    · rw [← hgiven.uid, ← hgiven.gid]

end Making

section Reading

variable {store : Objects} {addr : Addr}

theorem readString_ok {bytes : Bytes} (hbytes : Contains store addr bytes) :
    readString store addr = .ok bytes.text := by
  obtain ⟨after, hmemory⟩ := bytes.memory_eq
  rw [readString, Outcome.bind_ok (getBytes_ok hbytes), bytes.strlen_memory]
  change Except.ok (bytes.memory.take bytes.text.length) = _
  rw [hmemory, List.take_left]

theorem readVector_ok {items : List Addr} {list : List Bytes}
    (hitems : List.Forall₂ (Contains store) items list) :
    readVector store (items.map some ++ [none]) =
      .ok (list.map Bytes.text) := by
  induction hitems with
  | nil => rfl
  | cons hbytes _ ih =>
      rw [List.map_cons, List.cons_append, readVector,
        Outcome.bind_ok (readString_ok hbytes), Outcome.bind_ok ih]
      rfl

theorem readArray_ok {list : List Bytes} (hvector : Vector store addr list) :
    readArray store addr = .ok (list.map Bytes.text) := by
  obtain ⟨items, harray, hitems⟩ := hvector
  rw [readArray, Outcome.bind_ok (get_ok harray)]
  exact readVector_ok hitems

theorem mapM_of_rel {α β γ : Type} {rel : α → β → Prop} {a : Option α}
    {b : Option β} {step : α → Except Fault γ} {value : β → γ}
    (hrel : Option.Rel rel a b)
    (hstep : ∀ x y, rel x y → step x = .ok (value y)) :
    a.mapM step = .ok (b.map value) := by
  cases hrel with
  | none => rfl
  | some hxy =>
      rw [Option.mapM_some, hstep _ _ hxy]
      rfl

theorem forM_getStream {store : Objects} {streams : List Addr}
    (hstreams : ∀ stream ∈ streams, ObjAt store.heap stream .stream) :
    streams.forM (getStream store) = .ok () := by
  induction streams with
  | nil => rfl
  | cons stream rest ih =>
      refine (Outcome.bind_ok
        (getStream_ok (hstreams stream List.mem_cons_self)) _).trans ?_
      exact ih fun other hother => hstreams other (List.mem_cons_of_mem _ hother)

theorem mapM_readContainer {store : Objects} {stdio : List Config}
    (hstreams : Streams store stdio) :
    (stdio.map Config.make).mapM (readContainer store) = .ok stdio := by
  induction stdio with
  | nil => rfl
  | cons config rest ih =>
      have hread : readContainer store config.make = .ok config := by
        rw [readContainer, StdioContainers.config_make]
        exact Outcome.bind_ok
          (forM_getStream (hstreams config List.mem_cons_self)) _
      rw [List.map_cons, List.mapM_cons, Outcome.bind_ok hread,
        ih fun other hother => hstreams other (List.mem_cons_of_mem _ hother)]
      rfl

/-- `uv_spawn` finds what the options show. -/
theorem uvSpawn_ok {current : Options} {asked : Asked}
    (hshows : Shows store current asked) :
    ∃ child, uvSpawn store current = .ok child ∧ child.Starts asked := by
  obtain ⟨hfile, hargs, henv, hcwd, hstdio, hstreams, hids⟩ := hshows
  have henvRead := mapM_of_rel henv fun _ _ => readArray_ok
  have hcwdRead := mapM_of_rel hcwd fun _ _ => readString_ok
  have hstdioRead := mapM_readContainer hstreams
  rw [← hstdio] at hstdioRead
  have hcalls : UserIds.uvSpawn current.ids =
      asked.calls.map UserIds.SysCall.narrow := by
    rw [hids]
    exact (UserIds.Call.spawn asked.uid asked.gid).passed_eq
  refine ⟨⟨asked.file.text, asked.args.map Bytes.text,
    asked.env.map fun env => env.map Bytes.text, asked.cwd.map Bytes.text,
    asked.stdio, UserIds.uvSpawn current.ids⟩, ?_, rfl, rfl, rfl, rfl, rfl, ?_⟩
  · obtain ⟨exitCb, file, args, env, cwd, stdio, ids⟩ := current
    cases hfile with
    | some hfile =>
        cases hargs with
        | some hargs =>
            exact (Outcome.bind_ok (readString_ok hfile) _).trans
              ((Outcome.bind_ok (readArray_ok hargs) _).trans
                ((Outcome.bind_ok henvRead _).trans
                  ((Outcome.bind_ok hcwdRead _).trans
                    (Outcome.bind_ok hstdioRead _))))
  · rw [hcalls]
    exact UserIds.map_narrow_eq_iff asked.calls

end Reading

end UvMbt.Launch
