/-
Every call of a program keeps the objects behind its process options: a child
is started with what the options were made for, however often and whatever the
program has dropped, and nothing is left when it has dropped all.
-/
import UvMbt.LaunchOptions

set_option autoImplicit false

namespace UvMbt.Launch

open RefHeap ForeignBlocks GuardedRun Args
open StdioContainers (Config Container)

section Keeping

variable {s s' : State} {changed : Addr → Prop} {addr : Addr}
  {object : Object}

theorem Typed.evolve (htyped : Typed s addr object)
    (hevolves : Evolves changed s.store s'.store)
    (hsound : Sound s'.store s'.own 0) (hasked : s.asked ⊆ s'.asked)
    (hobj : ObjAt s'.store.heap addr object)
    (hchanged : ∀ addr object, changed addr →
      ObjAt s.store.heap addr object → object.constant = false) :
    Typed s' addr object := by
  have hclosure : ∀ cb ∈ refs object, ObjAt s.store.heap cb .closure →
      ObjAt s'.store.heap cb .closure := fun cb hcb hold =>
    hevolves.ref_kept hsound hobj hcb
      (fun hnow => by cases hchanged _ _ hnow hold) hold
  cases object with
  | bytes | closure | stream => trivial
  | container built content =>
      refine ⟨htyped.1, ?_⟩
      intro stream hstream
      have hold := htyped.2 stream hstream
      exact hevolves.ref_kept hsound hobj (List.mem_append_left _ hstream)
        (fun hnow => by cases hchanged _ _ hnow hold) hold
  | array items =>
      intro item hitem
      obtain ⟨bytes, hbytes⟩ := htyped item hitem
      exact ⟨bytes, hevolves.ref_kept hsound hobj (mem_refs_array hitem)
        (fun hnow => by cases hchanged _ _ hnow hbytes) hbytes⟩
  | options current =>
      obtain ⟨⟨asked, hmem, hshows⟩, hcb⟩ := htyped
      refine ⟨⟨asked, hasked hmem, hshows.evolve hevolves hsound hobj hchanged⟩,
        ?_⟩
      intro cb hexit
      exact hclosure cb (mem_refs_of_get .exitCb hexit) (hcb cb hexit)
  | process data =>
      intro cb hdata
      refine hclosure cb ?_ (htyped cb hdata)
      change cb ∈ data.toList ++ []
      rw [List.append_nil, Option.mem_toList]
      exact hdata

theorem mem_own_of_loop (hmem : addr ∈ s.loop + s.closing) : addr ∈ s.own :=
  Multiset.mem_add.mpr (Or.inr (Multiset.mem_add.mpr (Or.inl hmem)))

theorem mem_own_of_walk {walk : Walk} (hwalk : s.walk = some walk) :
    walk.cb ∈ s.own := by
  refine Multiset.mem_add.mpr (Or.inr (Multiset.mem_add.mpr (Or.inr ?_)))
  rw [hwalk]
  exact Multiset.mem_singleton_self walk.cb

theorem Attached.process (hattached : Attached s)
    (hmem : addr ∈ s.loop + s.closing) :
    ∃ data, ObjAt s.store.heap addr (.process data) := by
  rcases Multiset.mem_add.mp hmem with hloop | hclosing
  · exact hattached.running addr hloop
  · obtain ⟨cb, hobj⟩ := hattached.closing addr hclosing
    exact ⟨some cb, hobj⟩

theorem Attached.disjoint (hattached : Attached s) (hloop : addr ∈ s.loop)
    (hclosing : addr ∈ s.closing) : False :=
  Multiset.disjoint_left.mp (Multiset.nodup_add.mp hattached.nodup).2.2 hloop
    hclosing

/-- The processes that the loop still has are as they were, or were made. -/
theorem Attached.evolve (hattached : Attached s)
    (hevolves : Evolves changed s.store s'.store)
    (hsound : Sound s'.store s'.own 0) (hnodup : (s'.loop + s'.closing).Nodup)
    (hrunning : ∀ addr ∈ s'.loop, (addr ∈ s.loop ∧ ¬ changed addr) ∨
      ∃ data, ObjAt s'.store.heap addr (.process data))
    (hclosing : ∀ addr ∈ s'.closing, (addr ∈ s.closing ∧ ¬ changed addr) ∨
      ∃ cb, ObjAt s'.store.heap addr (.process (some cb))) : Attached s' where
  nodup := hnodup
  running addr hmem := by
    rcases hrunning addr hmem with ⟨hloop, hnot⟩ | hobj
    · obtain ⟨data, hobj⟩ := hattached.running addr hloop
      have hown := mem_own_of_loop (Multiset.mem_add.mpr (Or.inl hmem))
      exact ⟨data, hevolves.own_kept hsound hown hnot hobj⟩
    · exact hobj
  closing addr hmem := by
    rcases hclosing addr hmem with ⟨hloop, hnot⟩ | hobj
    · obtain ⟨cb, hobj⟩ := hattached.closing addr hloop
      have hown := mem_own_of_loop (Multiset.mem_add.mpr (Or.inr hmem))
      exact ⟨cb, hevolves.own_kept hsound hown hnot hobj⟩
    · exact hobj

/-- The loop has the same processes, and none of them changed. -/
theorem Attached.same (hattached : Attached s)
    (hevolves : Evolves changed s.store s'.store)
    (hsound : Sound s'.store s'.own 0) (hloop : s'.loop = s.loop)
    (hclosing : s'.closing = s.closing)
    (hchanged : ∀ addr data, changed addr →
      ¬ ObjAt s.store.heap addr (.process data)) : Attached s' := by
  apply hattached.evolve hevolves hsound
  · rw [hloop, hclosing]
    exact hattached.nodup
  · intro addr hmem
    rw [hloop] at hmem
    obtain ⟨data, hobj⟩ := hattached.running addr hmem
    exact Or.inl ⟨hmem, fun hnow => hchanged addr data hnow hobj⟩
  · intro addr hmem
    rw [hclosing] at hmem
    obtain ⟨cb, hobj⟩ := hattached.closing addr hmem
    exact Or.inl ⟨hmem, fun hnow => hchanged addr (some cb) hnow hobj⟩

theorem Keyed.same (hkeyed : Keyed s)
    (hevolves : Evolves changed s.store s'.store)
    (hasked : s'.asked = s.asked) : Keyed s' where
  nodup := by
    rw [hasked]
    exact hkeyed.nodup
  lt entry hentry := by
    rw [hasked] at hentry
    exact Nat.lt_of_lt_of_le (hkeyed.lt entry hentry) hevolves.cells_le

/-- The walk goes on. -/
theorem Walking.same (hwalking : Walking s)
    (hevolves : Evolves changed s.store s'.store)
    (hsound : Sound s'.store s'.own 0) (hwalk : s'.walk = s.walk)
    (hmem : ∀ process ∈ s.loop + s.closing, process ∈ s'.loop + s'.closing)
    (hchanged : ∀ addr object, changed addr →
      ObjAt s.store.heap addr object → object.constant = false) :
    Walking s' := by
  intro walk hgoing
  have hown := mem_own_of_walk hgoing
  rw [hwalk] at hgoing
  obtain ⟨hcb, hrest⟩ := hwalking walk hgoing
  exact ⟨hevolves.own_kept hsound hown
      (fun hnow => by cases hchanged _ _ hnow hcb) hcb,
    fun process hprocess => hmem process (hrest process hprocess)⟩

/-- What a call has to show: the references are right again, and the objects it
has made or changed are well typed. -/
theorem Good.evolve (hgood : Good s)
    (hevolves : Evolves changed s.store s'.store)
    (hsound : Sound s'.store s'.own 0) (hattached : Attached s')
    (hwalking : Walking s') (hdue : ∀ process ∈ s'.next, process ∈ s'.loop)
    (hkeyed : Keyed s') (hasked : s.asked ⊆ s'.asked)
    (hchanged : ∀ addr object, changed addr →
      ObjAt s.store.heap addr object → object.constant = false)
    (hlogged : ∀ entry ∈ s'.log, ∃ asked, (entry.1, asked) ∈ s'.asked ∧
      entry.2.Starts asked)
    (htyped : ∀ addr object, changed addr →
      ObjAt s'.store.heap addr object → Typed s' addr object) : Good s' where
  sound := hsound
  typed addr object hobj := by
    by_cases haddr : changed addr
    · exact htyped addr object haddr hobj
    · have hold := hevolves.objects addr object haddr hobj
      exact (hgood.typed addr object hold).evolve hevolves hsound hasked hobj
        hchanged
  attached := hattached
  walking := hwalking
  due := hdue
  keyed := hkeyed
  lost := by
    rw [hevolves.lost (fun _ => rfl), hgood.lost]
  logged := hlogged

/-- A change of the references of the program alone. -/
theorem Good.of_refs (hgood : Good s) {store : Objects} {user : Multiset Addr}
    (hevolves : Evolves (fun _ => False) s.store store)
    (hsound : Sound store (user + (s.loop + s.closing + walkRefs s.walk)) 0) :
    Good { s with store := store, user := user } :=
  hgood.evolve hevolves hsound
    (hgood.attached.same hevolves hsound rfl rfl fun _ _ => False.elim)
    (hgood.walking.same hevolves hsound rfl (fun _ => id)
      fun _ _ => False.elim) hgood.due
    (hgood.keyed.same hevolves rfl) (List.Subset.refl _)
    (fun _ _ => False.elim) hgood.logged (fun _ _ => False.elim)

/-- An object is made of references that were taken for it. -/
theorem make_good (hgood : Good s) {store : Objects} (object : Object)
    (hsound : Sound store (↑(refs object) + s.own) 0)
    (hevolves : Evolves (fun _ => False) s.store store)
    (hcells : store.heap.cells.length = s.store.heap.cells.length)
    (htyped : ∀ s' : State, (∀ addr ∈ refs object, ∀ target,
      ObjAt s.store.heap addr target → ObjAt s'.store.heap addr target) →
        Typed s' s.store.heap.cells.length object) :
    Good ({ s with store := store }.alloc object) ∧
      ObjAt ({ s with store := store }.alloc object).store.heap
        s.store.heap.cells.length object ∧
      Evolves (fun addr => addr = s.store.heap.cells.length) s.store
        ({ s with store := store }.alloc object).store := by
  obtain ⟨hmade, hself, hevolves'⟩ := alloc_ok object hsound rfl
  rw [hcells] at hmade hself hevolves'
  have hafter : Evolves (fun addr => addr = s.store.heap.cells.length) s.store
      ({ s with store := store }.alloc object).store := by
    apply (hevolves.trans hevolves').mono
    rintro addr (hfalse | heq)
    · exact hfalse.elim
    · exact heq
  have hnew : ∀ addr object, addr = s.store.heap.cells.length →
      ¬ ObjAt s.store.heap addr object := by
    rintro addr old rfl hobj
    exact Nat.lt_irrefl _ hobj.lt_length
  have hsound' : Sound ({ s with store := store }.alloc object).store
      ({ s with store := store }.alloc object).own 0 := by
    have hown : ({ s with store := store }.alloc object).own =
        s.store.heap.cells.length ::ₘ s.own := by
      rw [← hcells]
      exact Multiset.cons_add _ _ _
    rw [hown]
    exact hmade
  have hchanged : ∀ addr object, addr = s.store.heap.cells.length →
      ObjAt s.store.heap addr object → object.constant = false :=
    fun addr object heq hobj => absurd hobj (hnew addr object heq)
  refine ⟨hgood.evolve hafter hsound'
    (hgood.attached.same hafter hsound' rfl rfl fun addr data heq =>
      hnew addr (.process data) heq)
    (hgood.walking.same hafter hsound' rfl (fun _ => id) hchanged) hgood.due
    (hgood.keyed.same hafter rfl) (List.Subset.refl _) hchanged
    hgood.logged ?_, hself, hafter⟩
  rintro addr new rfl hobj
  rw [hobj.unique hself]
  apply htyped
  intro addr haddr target htarget
  exact hafter.ref_kept hmade hself haddr
    (fun heq => hnew addr target heq htarget) htarget

/-- A constant without references is made. -/
theorem alloc_good (hgood : Good s) (object : Object) (hrefs : refs object = [])
    (htyped : ∀ s' addr, Typed s' addr object) : Good (s.alloc object) ∧
      ObjAt (s.alloc object).store.heap s.store.heap.cells.length object ∧
      Evolves (fun addr => addr = s.store.heap.cells.length) s.store
        (s.alloc object).store :=
  make_good hgood object
    (by rw [hrefs, Multiset.coe_nil, Multiset.zero_add]; exact hgood.sound)
    (Evolves.refl _ _) rfl fun s' _ => htyped s' _

theorem container_good (hgood : Good s) {config : Config}
    (hstreams : ∀ stream ∈ config.acquired, stream ∈ s.user ∧
      ObjAt s.store.heap stream .stream) :
    ∃ s', container config s = .ok s' ∧ Good s' ∧ s'.log = s.log := by
  obtain ⟨store, hincrefs, hsound, hcells, hevolves⟩ :=
    increfAll_spec config.acquired hgood.sound fun stream hstream =>
      mem_own (hstreams stream hstream).1
  have hrefs : refs (Object.container config config.make) = config.acquired :=
    (List.append_nil _).trans (streams_make config).1
  rw [← hrefs] at hsound
  refine ⟨_, Outcome.bind_ok hincrefs _,
    (make_good hgood _ hsound hevolves hcells ?_).1, rfl⟩
  intro s' hkept
  refine ⟨Or.inl rfl, ?_⟩
  intro stream hstream
  have hacquired := hstream
  rw [(streams_make config).1] at hacquired
  exact hkept stream (List.mem_append_left _ hstream) _
    (hstreams stream hacquired).2

theorem dup_good (hgood : Good s) (huser : addr ∈ s.user) :
    ∃ s', step s (.dup addr) = .ok s' ∧ Good s' ∧ s'.log = s.log := by
  obtain ⟨next, hincref, hsound, -, -, hevolves⟩ :=
    incref_ok hgood.sound (hgood.sound.balanced.live (mem_own huser))
  refine ⟨_, Outcome.bind_ok hincref _, hgood.of_refs hevolves ?_, rfl⟩
  rw [Multiset.cons_add]
  exact hsound

theorem drop_good (hgood : Good s) (huser : addr ∈ s.user)
    (htame : isWild s.store addr = false) :
    ∃ store, step s (.drop addr) = .ok { s with
        store := store, user := s.user.erase addr } ∧
      Good { s with store := store, user := s.user.erase addr } ∧
      Evolves (fun _ => False) s.store store := by
  have hsound := hgood.sound
  rw [State.own, ← Multiset.cons_erase huser, Multiset.cons_add] at hsound
  obtain ⟨next, hdecref, hnext, -, hevolves⟩ := decref_ok hsound
  refine ⟨next, ?_, hgood.of_refs hevolves hnext, hevolves⟩
  rw [step, drop, htame, if_neg Bool.false_ne_true]
  exact Outcome.bind_ok hdecref _

/-- A container that is as it was built leads to the streams it was built
with. -/
theorem Good.streams (hgood : Good s) {built : Config}
    (hbuilt : BuiltAs s.store addr built) :
    ∀ stream ∈ built.acquired, ObjAt s.store.heap stream .stream := by
  have htyped := (hgood.typed addr _ hbuilt).2
  rw [(streams_make built).1] at htyped
  exact htyped

theorem new_good (hgood : Good s) {arguments : Arguments}
    (hallowed : Allowed s (.new arguments)) :
    ∃ store asked, new arguments s = .ok { s with
        store := store, user := s.store.heap.cells.length ::ₘ s.user,
        asked := (s.store.heap.cells.length, asked) :: s.asked } ∧
      Good { s with
        store := store, user := s.store.heap.cells.length ::ₘ s.user,
        asked := (s.store.heap.cells.length, asked) :: s.asked } ∧
      Evolves (fun addr => addr ∈ arguments.stdio.getD [] ∨
        s.store.heap.cells.length ≤ addr) s.store store ∧
      (∀ addr ∈ arguments.stdio.getD [], Emptied store addr) ∧
      ∃ current, ObjAt store.heap s.store.heap.cells.length
        (.options current) := by
  obtain ⟨asked, final, current, hnew, hbuilt, hshows, hexit⟩ :=
    new_built hgood.sound (fun _ _ hbuilt => hgood.streams hbuilt) hallowed
  obtain ⟨⟨-, -, -, -, hstdio, huser, hclosure⟩, -⟩ := hallowed
  have hcontainers : ∀ item ∈ arguments.stdio.getD [], HasContainer s item :=
    mem_stdio (List.forall_mem_nil _) hstdio
  have hchanged : ∀ addr object, (addr ∈ arguments.stdio.getD [] ∨
      s.store.heap.cells.length ≤ addr) → ObjAt s.store.heap addr object →
        ∃ built content, object = .container built content := by
    rintro addr object (hmem | hle) hobj
    · obtain ⟨-, built, content, hcontainer⟩ := hcontainers addr hmem
      exact ⟨built, content, hobj.unique hcontainer⟩
    · exact absurd hobj.lt_length (Nat.not_lt.mpr hle)
  have hconstant : ∀ addr object, (addr ∈ arguments.stdio.getD [] ∨
      s.store.heap.cells.length ≤ addr) → ObjAt s.store.heap addr object →
        object.constant = false := by
    intro addr object hnow hobj
    obtain ⟨built, content, rfl⟩ := hchanged addr object hnow hobj
    rfl
  have hkept : ∀ addr object, addr ∈ s.user → ObjAt s.store.heap addr object →
      object.constant = true → ObjAt final.heap addr object := by
    intro addr object huser hobj hobject
    refine hbuilt.kept huser ?_ hobj
    intro hmem
    rw [hconstant addr object (Or.inl hmem) hobj] at hobject
    cases hobject
  have hsound : Sound final ((s.store.heap.cells.length ::ₘ s.user) +
      (s.loop + s.closing + walkRefs s.walk)) 0 := by
    rw [Multiset.cons_add]
    exact hbuilt.sound
  refine ⟨final, asked, hnew, hgood.evolve hbuilt.evolves hsound
    (hgood.attached.same hbuilt.evolves hsound rfl rfl ?_)
    (hgood.walking.same hbuilt.evolves hsound rfl (fun _ => id) hconstant)
    hgood.due ⟨?_, ?_⟩ (List.subset_cons_self _ _) hconstant ?_ ?_,
    hbuilt.evolves, hbuilt.emptied, _, hbuilt.object⟩
  · intro addr data hnow hobj
    obtain ⟨built, content, heq⟩ := hchanged addr _ hnow hobj
    cases heq
  · rw [List.map_cons, List.nodup_cons]
    refine ⟨?_, hgood.keyed.nodup⟩
    intro hmem
    obtain ⟨entry, hentry, heq⟩ := List.mem_map.mp hmem
    exact Nat.ne_of_lt (hgood.keyed.lt entry hentry) heq
  · intro entry hentry
    have hlt := hbuilt.object.lt_length
    rcases List.mem_cons.mp hentry with rfl | hold
    · exact hlt
    · exact Nat.lt_trans (hgood.keyed.lt entry hold) hlt
  · intro entry hentry
    obtain ⟨asked', hmem, hchild⟩ := hgood.logged entry hentry
    exact ⟨asked', List.mem_cons_of_mem _ hmem, hchild⟩
  · rintro addr object (hmem | hle) hobj
    · obtain ⟨built, hzeroed⟩ := hbuilt.emptied addr hmem
      rw [hobj.unique hzeroed]
      exact ⟨Or.inr rfl, List.forall_mem_nil _⟩
    · rcases Nat.eq_or_lt_of_le hle with heq | hlt
      · rw [← heq] at hobj ⊢
        rw [hobj.unique hbuilt.object]
        refine ⟨⟨asked, List.mem_cons_self, hshows⟩, ?_⟩
        intro cb hcb
        rw [hexit, Option.mem_some_iff] at hcb
        rw [← hcb]
        exact hkept _ _ huser hclosure rfl
      · obtain ⟨items, rfl, hitems⟩ := hbuilt.fresh addr object hlt hobj
        intro item hitem
        have hmem : item ∈ items := by simpa using hitem
        obtain ⟨huser, bytes, hbytes⟩ := hitems item hmem
        exact ⟨bytes, hkept _ _ huser hbytes rfl⟩

end Keeping

section Spawning

variable {s : State} {options process : Addr} {current : Options}

/-- The callback goes from the options to the process. -/
theorem moveExitCb_ok {store : Objects} {own : Multiset Addr}
    (hsound : Sound store own 0)
    (hoptions : ObjAt store.heap options (.options current))
    (hprocess : ObjAt store.heap process (.process none))
    (hown : options ∈ own) (hown' : process ∈ own) :
    ∃ moved, moveExitCb options current process store = .ok moved ∧
      Sound moved own 0 ∧
      ObjAt moved.heap options (.options (current.set .exitCb none)) ∧
      ObjAt moved.heap process (.process current.exitCb) ∧
      Evolves (fun addr => addr = options ∨ addr = process) store moved := by
  have hne : process ≠ options := by
    rintro rfl
    cases hprocess.unique hoptions
  cases hcb : current.exitCb with
  | none =>
      refine ⟨store, ?_, hsound, ?_, hprocess, Evolves.refl _ _⟩
      · rw [moveExitCb, hcb]
      · rw [set_none .exitCb hcb]
        exact hoptions
  | some cb =>
      have hback : (current.set .exitCb none).set .exitCb (some cb) =
          current := by
        obtain ⟨exitCb, file, args, env, cwd, stdio, ids⟩ := current
        cases hcb
        rfl
      have hrefs := refs_set (current.set .exitCb none) .exitCb cb rfl
      rw [hback] at hrefs
      obtain ⟨mid, hput, hmid, hself, -, hevolves₁⟩ :=
        put_ok (.options (current.set .exitCb none)) (cb ::ₘ own) hsound
          hoptions (by rw [hrefs, Multiset.cons_add, Multiset.add_cons])
      have hprocess' := hevolves₁.own_kept hmid
        (Multiset.mem_cons_of_mem hown') hne hprocess
      obtain ⟨moved, hput', hmoved, hself', -, hevolves₂⟩ :=
        put_ok (.process (some cb)) own hmid hprocess' (by
          change own + {cb} = cb ::ₘ own + 0
          rw [Multiset.add_zero, Multiset.add_comm, Multiset.singleton_add])
      refine ⟨moved, ?_, hmoved,
        hevolves₂.own_kept hmoved hown (Ne.symm hne) hself, hself',
        hevolves₁.trans hevolves₂⟩
      rw [moveExitCb, hcb]
      exact (Outcome.bind_ok hput _).trans hput'

/-- What is left of the options and the process after a spawn, however it
ended. -/
theorem Good.of_spawn (hgood : Good s) {asked : Asked} {child : Child}
    {final : Objects} {user : Multiset Addr}
    (hoptions : ObjAt s.store.heap options (.options current))
    (hasked : (options, asked) ∈ s.asked)
    (hshows : Shows s.store current asked) (hstarts : child.Starts asked)
    (hcurrent : ∀ object, ObjAt final.heap options object →
      object = .options (current.set .exitCb none))
    (hprocess : ∀ object, ObjAt final.heap s.store.heap.cells.length object →
      object = .process current.exitCb)
    (hevolves : Evolves (fun addr => addr = options ∨
      addr = s.store.heap.cells.length) s.store final)
    (hsound : Sound final (user + ((s.store.heap.cells.length ::ₘ s.loop) +
      s.closing + walkRefs s.walk)) 0) :
    Good { s with store := final, user := user,
                  loop := s.store.heap.cells.length ::ₘ s.loop,
                  log := s.log ++ [(options, child)] } := by
  have hchanged : ∀ addr object,
      (addr = options ∨ addr = s.store.heap.cells.length) →
      ObjAt s.store.heap addr object → object.constant = false := by
    rintro addr object (rfl | rfl) hobj
    · rw [hobj.unique hoptions]
      rfl
    · exact absurd hobj.lt_length (Nat.lt_irrefl _)
  have hother : ∀ addr ∈ s.loop + s.closing,
      ¬ (addr = options ∨ addr = s.store.heap.cells.length) := by
    intro addr hmem hnow
    obtain ⟨data, hobj⟩ := hgood.attached.process hmem
    rcases hnow with rfl | rfl
    · cases hobj.unique hoptions
    · exact Nat.lt_irrefl _ hobj.lt_length
  have hattached : Attached { s with
      store := final, user := user,
      loop := s.store.heap.cells.length ::ₘ s.loop,
      log := s.log ++ [(options, child)] } := by
    refine hgood.attached.evolve hevolves hsound ?_ ?_ ?_
    · rw [Multiset.cons_add, Multiset.nodup_cons]
      exact ⟨fun hmem => hother _ hmem (Or.inr rfl), hgood.attached.nodup⟩
    · intro addr hmem
      rcases Multiset.mem_cons.mp hmem with rfl | hloop
      · obtain ⟨object, hobj⟩ := hsound.balanced.live
          (Multiset.mem_add.mpr (Or.inr (Multiset.mem_add.mpr
            (Or.inl (Multiset.mem_add.mpr (Or.inl hmem))))))
        rw [hprocess object hobj] at hobj
        exact Or.inr ⟨_, hobj⟩
      · exact Or.inl ⟨hloop, hother addr (Multiset.mem_add.mpr (Or.inl hloop))⟩
    · intro addr hmem
      exact Or.inl ⟨hmem, hother addr (Multiset.mem_add.mpr (Or.inr hmem))⟩
  refine hgood.evolve hevolves hsound hattached
    (hgood.walking.same hevolves hsound rfl ?_ hchanged)
    (fun other hother => Multiset.mem_cons_of_mem (hgood.due other hother))
    (hgood.keyed.same hevolves rfl) (List.Subset.refl _) hchanged ?_ ?_
  · intro other hother
    change other ∈ (s.store.heap.cells.length ::ₘ s.loop) + s.closing
    rw [Multiset.cons_add]
    exact Multiset.mem_cons_of_mem hother
  · intro entry hentry
    rcases List.mem_append.mp hentry with hold | hlast
    · exact hgood.logged entry hold
    · rw [List.mem_singleton.mp hlast]
      exact ⟨asked, hasked, hstarts⟩
  · rintro addr object (rfl | rfl) hobj
    · have hobject := hcurrent object hobj
      rw [hobject] at hobj ⊢
      have hcleared : Shows s.store (current.set .exitCb none) asked :=
        ⟨hshows.file, hshows.args, hshows.env, hshows.cwd, hshows.stdio,
          hshows.streams, hshows.ids⟩
      refine ⟨⟨asked, hasked,
        hcleared.evolve hevolves hsound hobj hchanged⟩, ?_⟩
      intro cb hcb
      cases hcb
    · have hobject := hprocess object hobj
      rw [hobject] at hobj ⊢
      intro cb hcb
      obtain ⟨-, hclosure⟩ := hgood.typed options _ hoptions
      refine hevolves.ref_kept hsound hobj ?_ (fun hnow => by
        cases hchanged _ _ hnow (hclosure cb hcb)) (hclosure cb hcb)
      change cb ∈ current.exitCb.toList ++ []
      rw [List.append_nil, Option.mem_toList]
      exact hcb

theorem spawn_good (hgood : Good s) {status : Int}
    (huser : options ∈ s.user)
    (hoptions : ObjAt s.store.heap options (.options current)) :
    ∃ s' child, spawn options status s = .ok s' ∧ Good s' ∧
      s'.log = s.log ++ [(options, child)] := by
  obtain ⟨⟨asked, hasked, hshows⟩, -⟩ := hgood.typed options _ hoptions
  obtain ⟨hmade, hprocess, hevolves₁⟩ := alloc_ok (.process none) hgood.sound
    (Multiset.zero_add s.own).symm
  have hoptions₁ := hevolves₁.own_kept hmade
    (Multiset.mem_cons_of_mem (mem_own huser))
    (Nat.ne_of_lt hoptions.lt_length) hoptions
  obtain ⟨shared, hincref₁, hshared, hsame₁, -, hevolves₂⟩ :=
    incref_ok hmade hprocess.live
  have hoptions₂ := (hsame₁ _ _).mpr hoptions₁
  obtain ⟨taken, hincref₂, htaken, hsame₂, -, hevolves₃⟩ :=
    incref_ok hshared hoptions₂.live
  have hoptions₃ := (hsame₂ _ _).mpr hoptions₂
  obtain ⟨moved, hmove, hmoved, hcleared, hstarted, hevolves₄⟩ :=
    moveExitCb_ok htaken hoptions₃
      ((hsame₂ _ _).mpr ((hsame₁ _ _).mpr hprocess))
      (Multiset.mem_cons_self _ _)
      (Multiset.mem_cons_of_mem (Multiset.mem_cons_self _ _))
  have hevolves : Evolves (fun addr => addr = options ∨
      addr = s.store.heap.cells.length) s.store moved := by
    apply (((hevolves₁.after hevolves₂).after hevolves₃).trans hevolves₄).mono
    rintro addr (heq | heq)
    · exact Or.inr heq
    · exact heq
  obtain ⟨child, hread, hstarts⟩ : ∃ child,
      uvSpawn moved current = .ok child ∧ child.Starts asked := by
    have hcurrent : Shows s.store (current.set .exitCb none) asked :=
      ⟨hshows.file, hshows.args, hshows.env, hshows.cwd, hshows.stdio,
          hshows.streams, hshows.ids⟩
    have hmovedShows := hcurrent.evolve hevolves hmoved hcleared (by
      rintro addr object (rfl | rfl) hobj
      · rw [hobj.unique hoptions]
        rfl
      · exact absurd hobj.lt_length (Nat.lt_irrefl _))
    exact uvSpawn_ok ⟨hmovedShows.file, hmovedShows.args, hmovedShows.env,
      hmovedShows.cwd, hmovedShows.stdio, hmovedShows.streams,
      hmovedShows.ids⟩
  obtain ⟨less, hdecref, hless, -, hevolves₅⟩ := decref_ok hmoved
  have hkept := hevolves.after hevolves₅
  have hrun : spawn options status s =
      if status < 0 then do
        let store ← decref less s.store.heap.cells.length
        .ok { s with store := store,
                     loop := s.store.heap.cells.length ::ₘ s.loop,
                     log := s.log ++ [(options, child)] }
      else .ok { s with store := less,
                        user := s.store.heap.cells.length ::ₘ s.user,
                        loop := s.store.heap.cells.length ::ₘ s.loop,
                        log := s.log ++ [(options, child)] } :=
    (Outcome.bind_ok hincref₁ _).trans
      ((Outcome.bind_ok hincref₂ _).trans
        ((Outcome.bind_ok (getOptions_ok hoptions₃) _).trans
          ((Outcome.bind_ok hmove _).trans
            ((Outcome.bind_ok hread _).trans (Outcome.bind_ok hdecref _)))))
  rw [hrun]
  by_cases hstatus : status < 0
  · obtain ⟨final, hdecref', hfinal, -, hevolves₆⟩ := decref_ok hless
    have hsound : Sound final (s.user + ((s.store.heap.cells.length ::ₘ s.loop)
        + s.closing + walkRefs s.walk)) 0 := by
      rw [Multiset.cons_add, Multiset.cons_add, Multiset.add_cons]
      exact hfinal
    refine ⟨_, child, ?_, hgood.of_spawn hoptions hasked hshows hstarts ?_ ?_
      (hkept.after hevolves₆) hsound, rfl⟩
    · rw [if_pos hstatus]
      exact Outcome.bind_ok hdecref' _
    · intro object hobj
      exact (hevolves₅.objects _ _ id (hevolves₆.objects _ _ id hobj)).unique
        hcleared
    · intro object hobj
      exact (hevolves₅.objects _ _ id (hevolves₆.objects _ _ id hobj)).unique
        hstarted
  · refine ⟨_, child, if_neg hstatus, hgood.of_spawn hoptions hasked hshows
      hstarts ?_ ?_ hkept ?_, rfl⟩
    · intro object hobj
      exact (hevolves₅.objects _ _ id hobj).unique hcleared
    · intro object hobj
      exact (hevolves₅.objects _ _ id hobj).unique hstarted
    · rw [Multiset.cons_add, Multiset.cons_add, Multiset.cons_add,
        Multiset.add_cons]
      exact hless

end Spawning

section Closing

variable {s s' : State} {process cb : Addr} {data data' : Option Addr}

/-- What an exit or a step of a close has to show. -/
theorem Good.of_process (hgood : Good s)
    (hprocess : ObjAt s.store.heap process (.process data))
    (hevolves : Evolves (fun addr => addr = process) s.store s'.store)
    (hsound : Sound s'.store s'.own 0) (hattached : Attached s')
    (hwalking : Walking s') (hdue : ∀ other ∈ s'.next, other ∈ s'.loop)
    (hasked : s'.asked = s.asked) (hlog : s'.log = s.log)
    (hself : ∀ object, ObjAt s'.store.heap process object →
      object = .process data' ∧
        ∀ cb ∈ data', ObjAt s'.store.heap cb .closure) : Good s' := by
  refine hgood.evolve hevolves hsound hattached hwalking hdue
    (hgood.keyed.same hevolves hasked) ?_ ?_ ?_ ?_
  · rw [hasked]
    exact List.Subset.refl _
  · rintro addr object rfl hobj
    rw [hobj.unique hprocess]
    rfl
  · rw [hasked, hlog]
    exact hgood.logged
  · rintro addr object rfl hobj
    obtain ⟨hobject, hclosure⟩ := hself object hobj
    rw [hobject]
    exact hclosure

theorem not_constant (hprocess : ObjAt s.store.heap process (.process data)) :
    ∀ addr object, addr = process → ObjAt s.store.heap addr object →
      object.constant = false := by
  rintro addr object rfl hobj
  rw [hobj.unique hprocess]
  rfl

/-- The slot of a process gives up its callback. -/
theorem takeData_ok (hgood : Good s)
    (hprocess : ObjAt s.store.heap process (.process (some cb))) :
    ∃ next, put s.store process (.process none) = .ok next ∧
      Sound next (cb ::ₘ s.own) 0 ∧ ObjAt next.heap process (.process none) ∧
      ObjAt next.heap cb .closure ∧
      Evolves (fun addr => addr = process) s.store next := by
  obtain ⟨next, hput, hnext, hself, -, hevolves⟩ :=
    put_ok (.process none) (cb ::ₘ s.own) hgood.sound hprocess (by
      change (cb ::ₘ s.own) + 0 = s.own + {cb}
      rw [Multiset.add_zero, Multiset.add_comm, Multiset.singleton_add])
  have hclosure := hgood.typed process _ hprocess cb rfl
  refine ⟨next, hput, hnext, hself, ?_, hevolves⟩
  apply hevolves.own_kept hnext (Multiset.mem_cons_self cb _) _ hclosure
  rintro rfl
  cases hclosure.unique hprocess

/-- A callback is called. -/
theorem callClosure_ok {store : Objects} {own : Multiset Addr}
    (hsound : Sound store (cb ::ₘ own) 0)
    (hclosure : ObjAt store.heap cb .closure) :
    ∃ next, callClosure cb store = .ok next ∧ Sound next own 0 ∧
      Evolves (fun _ => False) store next := by
  obtain ⟨next, hdecref, hnext, -, hevolves⟩ := decref_ok hsound
  refine ⟨next, ?_, hnext, hevolves⟩
  rw [callClosure, Outcome.bind_ok (get_ok hclosure)]
  exact hdecref

/-- The exit of a child takes the callback out of its process. -/
theorem exit_good (hgood : Good s) {next : Option Addr}
    (hloop : process ∈ s.loop) (hnext : ∀ other ∈ next, other ∈ s.loop) :
    ∃ store user, exit process next s = .ok { s with
        store := store, user := user, next := next } ∧
      Good { s with store := store, user := user, next := next } := by
  obtain ⟨data, hprocess⟩ := hgood.attached.running process hloop
  cases data with
  | none =>
      have hsame := Evolves.refl (fun addr => addr = process) s.store
      have htyped := hgood.typed process _ hprocess
      refine ⟨s.store, s.user, Outcome.bind_ok ?_ _,
        hgood.of_process hprocess hsame hgood.sound
          (hgood.attached.evolve hsame hgood.sound
            hgood.attached.nodup ?_ ?_)
        (hgood.walking.same hsame hgood.sound rfl (fun _ => id)
          (not_constant hprocess)) hnext rfl rfl fun object hobj =>
          ⟨hobj.unique hprocess, htyped⟩⟩
      · rw [exitCb, Outcome.bind_ok (get_ok hprocess)]
      · intro addr hmem
        exact Or.inr (hgood.attached.running addr hmem)
      · intro addr hmem
        exact Or.inr (hgood.attached.closing addr hmem)
  | some cb =>
      obtain ⟨placed, hput, hplaced, hself, hclosure, hevolves₁⟩ :=
        takeData_ok hgood hprocess
      obtain ⟨taken, hincref, htaken, hsame₂, -, hevolves₂⟩ :=
        incref_ok hplaced hself.live
      rw [Multiset.cons_swap] at htaken
      obtain ⟨final, hcall, hless, hevolves₃⟩ :=
        callClosure_ok htaken ((hsame₂ _ _).mpr hclosure)
      have hsame := hevolves₂.after hevolves₃
      have hevolves := hevolves₁.after hsame
      have hfinal : Sound final (process ::ₘ s.user +
          (s.loop + s.closing + walkRefs s.walk)) 0 := by
        rw [Multiset.cons_add]
        exact hless
      have hself' := hsame.own_kept hless (Multiset.mem_cons_self process _) id
        hself
      have hexit : exitCb process s = .ok
          { s with store := final, user := process ::ₘ s.user } := by
        rw [exitCb, Outcome.bind_ok (get_ok hprocess)]
        exact (Outcome.bind_ok hput _).trans
          ((Outcome.bind_ok hincref _).trans (Outcome.bind_ok hcall _))
      refine ⟨final, process ::ₘ s.user, ?_,
        hgood.of_process hprocess hevolves hfinal ?_
          (hgood.walking.same hevolves hfinal rfl (fun _ => id)
            (not_constant hprocess)) hnext rfl rfl fun object hobj =>
          ⟨hobj.unique hself', fun cb hcb => by cases hcb⟩⟩
      · rw [exit, hexit]
        rfl
      · refine hgood.attached.evolve hevolves hfinal hgood.attached.nodup ?_ ?_
        · intro addr hmem
          by_cases heq : addr = process
          · rw [heq]
            exact Or.inr ⟨none, hself'⟩
          · exact Or.inl ⟨hmem, heq⟩
        · intro addr hmem
          refine Or.inl ⟨hmem, ?_⟩
          rintro rfl
          exact hgood.attached.disjoint hloop hmem

/-- `Handle::close` gives the process the callback that the close is reported
to. -/
theorem close_good (hgood : Good s) (huser : process ∈ s.user)
    (hloop : process ∈ s.loop) (hcb : cb ∈ s.user)
    (hclosure : ObjAt s.store.heap cb .closure)
    (hnext : s.next ≠ some process) :
    ∃ store, close process cb s = .ok { s with
        store := store, loop := s.loop.erase process,
        closing := process ::ₘ s.closing } ∧
      Good { s with store := store, loop := s.loop.erase process,
                    closing := process ::ₘ s.closing } ∧
      ObjAt store.heap cb .closure := by
  obtain ⟨data, hprocess⟩ := hgood.attached.running process hloop
  obtain ⟨shared, hincref₁, hshared, hsame₁, -, hevolves₁⟩ :=
    incref_ok hgood.sound hprocess.live
  obtain ⟨taken, hincref₂, htaken, hsame₂, -, hevolves₂⟩ :=
    incref_ok hshared ((hsame₁ _ _).mpr hclosure).live
  have hprocess₂ := (hsame₂ _ _).mpr ((hsame₁ _ _).mpr hprocess)
  obtain ⟨placed, hset, hplaced, hself, hevolves₃⟩ :=
    handleSetData_ok htaken hprocess₂ (Multiset.mem_cons_self _ _)
  obtain ⟨final, hdecref, hfinal, -, hevolves₄⟩ := decref_ok hplaced
  have hevolves : Evolves (fun addr => addr = process) s.store final := by
    apply (((hevolves₁.after hevolves₂).trans hevolves₃).after hevolves₄).mono
    rintro addr (hfalse | heq)
    · exact hfalse.elim
    · exact heq
  have hself' := hevolves₄.own_kept hfinal (mem_own huser) id hself
  have hmoved : s.loop.erase process + (process ::ₘ s.closing) =
      s.loop + s.closing := by
    rw [Multiset.add_cons, ← Multiset.cons_add, Multiset.cons_erase hloop]
  have hsound : Sound final (s.user + (s.loop.erase process +
      (process ::ₘ s.closing) + walkRefs s.walk)) 0 := by
    rw [hmoved]
    exact hfinal
  have hcb' : ObjAt final.heap cb .closure := by
    apply hevolves.own_kept hfinal (mem_own hcb) _ hclosure
    rintro rfl
    cases hclosure.unique hprocess
  have hdata : ∀ object, ObjAt final.heap process object →
      object = .process (some cb) ∧
        ∀ other ∈ some cb, ObjAt final.heap other .closure := by
    intro object hobj
    refine ⟨hobj.unique hself', ?_⟩
    intro other hother
    cases hother
    exact hcb'
  refine ⟨final, ?_, hgood.of_process hprocess hevolves hsound ?_
    (hgood.walking.same hevolves hsound rfl ?_ (not_constant hprocess)) ?_ rfl
    rfl hdata, hcb'⟩
  · exact (Outcome.bind_ok hincref₁ _).trans
      ((Outcome.bind_ok hincref₂ _).trans
        ((Outcome.bind_ok hset _).trans (Outcome.bind_ok hdecref _)))
  · refine hgood.attached.evolve hevolves hsound ?_ ?_ ?_
    · change (s.loop.erase process + (process ::ₘ s.closing)).Nodup
      rw [hmoved]
      exact hgood.attached.nodup
    · intro addr hmem
      have hnodup := (Multiset.nodup_add.mp hgood.attached.nodup).1
      obtain ⟨heq, hold⟩ := hnodup.mem_erase_iff.mp hmem
      exact Or.inl ⟨hold, heq⟩
    · intro addr hmem
      rcases Multiset.mem_cons.mp hmem with rfl | hold
      · exact Or.inr ⟨cb, hself'⟩
      · refine Or.inl ⟨hold, ?_⟩
        rintro rfl
        exact hgood.attached.disjoint hloop hold
  · intro other hother
    change other ∈ s.loop.erase process + (process ::ₘ s.closing)
    rw [hmoved]
    exact hother
  · intro other hother
    refine (Multiset.mem_erase_of_ne ?_).mpr (hgood.due other hother)
    rintro rfl
    exact hnext hother

/-- The end of a close gives back the reference of the loop. -/
theorem closeCb_good (hgood : Good s) (hclosing : process ∈ s.closing)
    (hwalk : s.walk.isNone = true) :
    ∃ store, closeCb process s = .ok { s with
        store := store, closing := s.closing.erase process } ∧
      Good { s with store := store, closing := s.closing.erase process } := by
  obtain ⟨cb, hprocess⟩ := hgood.attached.closing process hclosing
  obtain ⟨placed, hput, hplaced, hself, hclosure, hevolves₁⟩ :=
    takeData_ok hgood hprocess
  rw [State.own, ← Multiset.cons_erase hclosing, Multiset.add_cons,
    Multiset.cons_add, Multiset.add_cons, Multiset.cons_swap] at hplaced
  obtain ⟨less, hdecref, hless, -, hevolves₂⟩ := decref_ok hplaced
  have hclosure' := hevolves₂.own_kept hless (Multiset.mem_cons_self cb _) id
    hclosure
  obtain ⟨final, hcall, hfinal, hevolves₃⟩ := callClosure_ok hless hclosure'
  have hsame := hevolves₂.after hevolves₃
  have hevolves := hevolves₁.after hsame
  have hnodup := (Multiset.nodup_add.mp hgood.attached.nodup).2.1
  refine ⟨final, ?_, hgood.of_process hprocess hevolves hfinal ?_ ?_ hgood.due
    rfl rfl fun object hobj => ⟨(hsame.objects _ _ id hobj).unique hself,
      fun cb hcb => by cases hcb⟩⟩
  · rw [closeCb, Outcome.bind_ok (get_ok hprocess)]
    exact (Outcome.bind_ok hput _).trans
      ((Outcome.bind_ok hdecref _).trans (Outcome.bind_ok hcall _))
  · refine hgood.attached.evolve hevolves hfinal ?_ ?_ ?_
    · exact Multiset.nodup_of_le
        (Multiset.add_le_add_left (Multiset.erase_le _ _))
        hgood.attached.nodup
    · intro addr hmem
      refine Or.inl ⟨hmem, ?_⟩
      rintro rfl
      exact hgood.attached.disjoint hmem hclosing
    · intro addr hmem
      obtain ⟨heq, hold⟩ := hnodup.mem_erase_iff.mp hmem
      exact Or.inl ⟨hold, heq⟩
  · intro walk hgoing
    rw [Option.isNone_iff_eq_none] at hwalk
    rw [show s.walk = some walk from hgoing] at hwalk
    cases hwalk

end Closing

section Walks

variable {s : State} {process cb : Addr} {walk : Walk}

/-- Only the program, the walk and counts change. -/
theorem Good.of_walk (hgood : Good s) {store : Objects} {user : Multiset Addr}
    {walk : Option Walk} (hevolves : Evolves (fun _ => False) s.store store)
    (hsound : Sound store (user + (s.loop + s.closing + walkRefs walk)) 0)
    (hwalking : Walking
      { s with store := store, user := user, walk := walk }) :
    Good { s with store := store, user := user, walk := walk } :=
  hgood.evolve hevolves hsound
    (hgood.attached.same hevolves hsound rfl rfl fun _ _ => False.elim)
    hwalking hgood.due (hgood.keyed.same hevolves rfl) (List.Subset.refl _)
    (fun _ _ => False.elim) hgood.logged (fun _ _ => False.elim)

theorem walk_good (hgood : Good s) (hnone : s.walk.isNone = true)
    (hclosure : ObjAt s.store.heap cb .closure) :
    ∃ store, Launch.walk cb s = .ok { s with
        store := store, walk := some ⟨cb, s.loop + s.closing⟩ } ∧
      Good { s with store := store, walk := some ⟨cb, s.loop + s.closing⟩ } ∧
      ObjAt store.heap cb .closure := by
  obtain ⟨store, hincref, hsound, hsame, -, hevolves⟩ :=
    incref_ok hgood.sound hclosure.live
  have hclosure' := (hsame _ _).mpr hclosure
  rw [Option.isNone_iff_eq_none] at hnone
  refine ⟨store, Outcome.bind_ok hincref _, hgood.of_walk hevolves ?_ ?_,
    hclosure'⟩
  · rw [State.own, hnone, show walkRefs none = 0 from rfl,
      Multiset.add_zero] at hsound
    rw [show walkRefs (some ⟨cb, s.loop + s.closing⟩) = {cb} from rfl,
      ← Multiset.add_assoc, Multiset.add_comm, Multiset.singleton_add]
    exact hsound
  · intro walk hgoing
    cases hgoing
    exact ⟨hclosure', fun _ => id⟩

/-- The walk shows a process that the loop still has. -/
theorem visit_good (hgood : Good s) (hwalk : s.walk = some walk)
    (hrest : process ∈ walk.rest) :
    ∃ store, walkCb process s = .ok { s with
        store := store, user := process ::ₘ s.user,
        walk := some ⟨walk.cb, walk.rest.erase process⟩ } ∧
      Good { s with store := store, user := process ::ₘ s.user,
                    walk := some ⟨walk.cb, walk.rest.erase process⟩ } ∧
      Evolves (fun _ => False) s.store store := by
  obtain ⟨hclosure, hloop⟩ := hgood.walking walk hwalk
  have hown := mem_own_of_loop (hloop process hrest)
  obtain ⟨shared, hincref₁, hshared, hsame₁, -, hevolves₁⟩ :=
    incref_ok hgood.sound hclosure.live
  obtain ⟨taken, hincref₂, htaken, hsame₂, -, hevolves₂⟩ :=
    incref_ok hshared (hshared.balanced.live (Multiset.mem_cons_of_mem hown))
  rw [Multiset.cons_swap] at htaken
  obtain ⟨final, hcall, hfinal, hevolves₃⟩ := callClosure_ok htaken
    ((hsame₂ _ _).mpr ((hsame₁ _ _).mpr hclosure))
  have hevolves := (hevolves₁.after hevolves₂).after hevolves₃
  have hkept := hevolves.own_kept hfinal
    (Multiset.mem_cons_of_mem (mem_own_of_walk hwalk)) id hclosure
  refine ⟨final, ?_, hgood.of_walk hevolves ?_ ?_, hevolves⟩
  · rw [walkCb, hwalk]
    exact (Outcome.bind_ok hincref₁ _).trans
      ((Outcome.bind_ok hincref₂ _).trans (Outcome.bind_ok hcall _))
  · rw [State.own, hwalk] at hfinal
    rw [Multiset.cons_add]
    exact hfinal
  · intro going hgoing
    cases hgoing
    exact ⟨hkept, fun other hother => hloop other
      (Multiset.mem_of_mem_erase hother)⟩

theorem walked_good (hgood : Good s) (hwalk : s.walk = some walk) :
    ∃ store, walked s = .ok { s with store := store, walk := none } ∧
      Good { s with store := store, walk := none } ∧
      Evolves (fun _ => False) s.store store := by
  have hsound := hgood.sound
  rw [State.own, hwalk, show walkRefs (some walk) = {walk.cb} from rfl,
    ← Multiset.add_assoc, Multiset.add_comm,
    Multiset.singleton_add] at hsound
  obtain ⟨store, hdecref, hnext, -, hevolves⟩ := decref_ok hsound
  refine ⟨store, ?_, hgood.of_walk hevolves ?_ ?_, hevolves⟩
  · rw [walked, hwalk]
    exact Outcome.bind_ok hdecref _
  · rw [show walkRefs none = 0 from rfl, Multiset.add_zero]
    exact hnext
  · intro going hgoing
    cases hgoing

end Walks

section Runs

variable {s : State} {labels : List Label}

theorem step_good (hgood : Good s) {label : Label} (hallowed : Allowed s label) :
    ∃ s', step s label = .ok s' ∧ Good s' ∧
      s'.log.map Prod.fst = s.log.map Prod.fst ++ label.spawned := by
  have hnil : s.log.map Prod.fst = s.log.map Prod.fst ++ [] :=
    (List.append_nil _).symm
  obtain ⟨hpossible, hrule⟩ := hallowed
  cases label with
  | bytes bytes =>
      exact ⟨_, rfl, (alloc_good hgood (.bytes bytes) rfl
        fun _ _ => trivial).1, hnil⟩
  | closure =>
      exact ⟨_, rfl, (alloc_good hgood .closure rfl fun _ _ => trivial).1,
        hnil⟩
  | stream =>
      exact ⟨_, rfl, (alloc_good hgood .stream rfl fun _ _ => trivial).1,
        hnil⟩
  | container config =>
      obtain ⟨s', hstep, hnext, hlog⟩ := container_good hgood hpossible
      exact ⟨s', hstep, hnext, (congrArg _ hlog).trans hnil⟩
  | new arguments =>
      obtain ⟨store, asked, hstep, hnext, -⟩ :=
        new_good hgood ⟨hpossible, hrule⟩
      exact ⟨_, hstep, hnext, hnil⟩
  | spawn options status =>
      obtain ⟨huser, current, hoptions⟩ := hpossible
      obtain ⟨s', child, hstep, hnext, hlog⟩ := spawn_good hgood huser hoptions
      refine ⟨s', hstep, hnext, ?_⟩
      rw [hlog, List.map_append]
      rfl
  | exit process next =>
      obtain ⟨hprocess, hnext⟩ := hpossible
      have hloop : process ∈ s.loop := by
        rcases hprocess with hloop | ⟨-, hdue⟩
        · exact hloop
        · exact hgood.due process hdue
      obtain ⟨store, user, hstep, hgood'⟩ := exit_good hgood hloop hnext
      exact ⟨_, hstep, hgood', hnil⟩
  | close process cb =>
      obtain ⟨huser, hloop, hcb, hclosure⟩ := hpossible
      obtain ⟨store, hstep, hnext, -⟩ :=
        close_good hgood huser hloop hcb hclosure hrule
      exact ⟨_, hstep, hnext, hnil⟩
  | closed process =>
      obtain ⟨store, hstep, hnext⟩ :=
        closeCb_good hgood hpossible.1 hpossible.2
      exact ⟨_, hstep, hnext, hnil⟩
  | walk cb =>
      obtain ⟨hnone, -, hclosure⟩ := hpossible
      obtain ⟨store, hstep, hnext, -⟩ := walk_good hgood hnone hclosure
      exact ⟨_, hstep, hnext, hnil⟩
  | visit process =>
      obtain ⟨walk, hwalk, hrest⟩ := hpossible
      obtain ⟨store, hstep, hnext, -⟩ := visit_good hgood hwalk hrest
      exact ⟨_, hstep, hnext, hnil⟩
  | walked =>
      obtain ⟨walk, hwalk, -⟩ := hpossible
      obtain ⟨store, hstep, hnext, -⟩ := walked_good hgood hwalk
      exact ⟨_, hstep, hnext, hnil⟩
  | dup object =>
      obtain ⟨s', hstep, hnext, hlog⟩ := dup_good hgood hpossible
      exact ⟨s', hstep, hnext, (congrArg _ hlog).trans hnil⟩
  | drop object =>
      obtain ⟨store, hstep, hnext, -⟩ := drop_good hgood hpossible hrule
      exact ⟨_, hstep, hnext, hnil⟩

theorem good_empty : Good State.empty where
  sound := Sound.empty
  typed addr object hobj := by
    obtain ⟨rc, hcell⟩ := hobj
    cases hcell
  attached :=
    { nodup := Multiset.nodup_zero
      running := fun _ hmem => absurd hmem (Multiset.notMem_zero _)
      closing := fun _ hmem => absurd hmem (Multiset.notMem_zero _) }
  walking _ hgoing := by cases hgoing
  due _ hnext := by cases hnext
  keyed :=
    { nodup := List.nodup_nil
      lt := fun entry hentry => by cases hentry }
  lost := rfl
  logged entry hentry := by cases hentry

/-- Options and processes refer to arrays and constants, arrays to `Bytes`,
and containers to streams. -/
def rank (store : Objects) (addr : Addr) : Nat :=
  match get store addr with
  | .ok (.options _) | .ok (.process _) => 2
  | .ok (.array _) | .ok (.container _ _) => 1
  | _ => 0

theorem rank_of_objAt {store : Objects} {addr : Addr} {object : Object}
    (hobj : ObjAt store.heap addr object) :
    rank store addr = match object with
      | .options _ | .process _ => 2
      | .array _ | .container _ _ => 1
      | _ => 0 := by
  rw [rank, get_ok hobj]
  cases object <;> rfl

theorem get_of_mem_pointers {options : Options} {value : Addr}
    (hmem : value ∈ options.pointers.filterMap id) :
    ∃ field, options.get field = some value := by
  rw [List.mem_filterMap] at hmem
  obtain ⟨pointer, hpointer, hvalue⟩ := hmem
  rw [show pointer = some value from hvalue] at hpointer
  simp only [Options.pointers, List.mem_cons, List.not_mem_nil,
    or_false] at hpointer
  rcases hpointer with heq | heq | heq | heq | heq
  · exact ⟨.exitCb, heq.symm⟩
  · exact ⟨.file, heq.symm⟩
  · exact ⟨.args, heq.symm⟩
  · exact ⟨.env, heq.symm⟩
  · exact ⟨.cwd, heq.symm⟩

theorem exists_of_rel {α β : Type} {rel : α → β → Prop} {a : Option α}
    {b : Option β} (hrel : Option.Rel rel a b) {x : α} (heq : a = some x) :
    ∃ y, rel x y := by
  cases hrel with
  | none => cases heq
  | some hxy =>
      cases heq
      exact ⟨_, hxy⟩

/-- The pointers of options lead to constants. -/
theorem Good.rank_field (hgood : Good s) {options target : Addr}
    {current : Options} {field : Field}
    (hobj : ObjAt s.store.heap options (.options current))
    (hget : current.get field = some target) : rank s.store target < 2 := by
  obtain ⟨⟨asked, -, hshows⟩, hcb⟩ := hgood.typed options _ hobj
  have hbytes : ∀ bytes, Contains s.store target bytes →
      rank s.store target < 2 := fun bytes hbytes => by
    rw [rank_of_objAt hbytes]
    exact Nat.two_pos
  have hvector : ∀ list, Vector s.store target list →
      rank s.store target < 2 := by
    rintro list ⟨items, harray, -⟩
    rw [rank_of_objAt harray]
    exact Nat.one_lt_two
  cases field with
  | exitCb =>
      rw [rank_of_objAt (hcb target hget)]
      exact Nat.two_pos
  | file =>
      obtain ⟨bytes, hfile⟩ := exists_of_rel hshows.file hget
      exact hbytes bytes hfile
  | args =>
      obtain ⟨list, hargs⟩ := exists_of_rel hshows.args hget
      exact hvector list hargs
  | env =>
      obtain ⟨list, henv⟩ := exists_of_rel hshows.env hget
      exact hvector list henv
  | cwd =>
      obtain ⟨bytes, hcwd⟩ := exists_of_rel hshows.cwd hget
      exact hbytes bytes hcwd

theorem rank_stream {store : Objects} {addr : Addr}
    (hstream : ObjAt store.heap addr .stream) : rank store addr = 0 :=
  rank_of_objAt hstream

theorem Good.rank_options (hgood : Good s) {options target : Addr}
    {current : Options} (hobj : ObjAt s.store.heap options (.options current))
    (htarget : target ∈ refs (Object.options current)) :
    rank s.store target < 2 := by
  rw [refs_options, List.mem_append] at htarget
  rcases htarget with hpointer | hstream
  · obtain ⟨field, hget⟩ := get_of_mem_pointers hpointer
    exact hgood.rank_field hobj hget
  · obtain ⟨⟨asked, -, hshows⟩, -⟩ := hgood.typed options _ hobj
    rw [streams_map_make asked.stdio current hshows.stdio] at hstream
    obtain ⟨config, hconfig, hacquired⟩ := List.mem_flatMap.mp hstream
    rw [rank_stream (hshows.streams config hconfig target hacquired)]
    exact Nat.two_pos

theorem Good.rank_lt (hgood : Good s) {source target : Addr} {object : Object}
    (hobj : ObjAt s.store.heap source object) (htarget : target ∈ refs object) :
    rank s.store target < rank s.store source := by
  have htyped := hgood.typed source object hobj
  rw [rank_of_objAt hobj]
  cases object with
  | bytes bytes => cases htarget
  | closure => cases htarget
  | stream => cases htarget
  | container built content =>
      change target ∈ containerRefs content ++ [] at htarget
      rw [List.append_nil] at htarget
      rw [rank_stream (htyped.2 target htarget)]
      exact Nat.one_pos
  | array items =>
      change target ∈ items.filterMap id ++ [] at htarget
      rw [List.append_nil, List.mem_filterMap] at htarget
      obtain ⟨item, hitem, rfl⟩ := htarget
      obtain ⟨bytes, hbytes⟩ := htyped target hitem
      rw [rank_of_objAt hbytes]
      exact Nat.one_pos
  | options current =>
      exact hgood.rank_options hobj htarget
  | process data =>
      change target ∈ data.toList ++ [] at htarget
      rw [List.append_nil, Option.mem_toList] at htarget
      rw [rank_of_objAt (htyped target htarget)]
      exact Nat.two_pos

theorem Good.freed (hgood : Good s) (hown : s.own = 0) (addr : Addr) :
    s.store.heap.cell? addr = none := by
  have hsound := hgood.sound
  rw [hown] at hsound
  exact hsound.balanced.all_freed hgood.lost (rank s.store)
    (fun source object hobj target htarget => hgood.rank_lt hobj htarget) addr

theorem run_good (hgood : Good s)
    (hadmissible : Admissible Allowed step s labels) :
    ∃ final, run step s labels = .ok final ∧ Good final ∧
      final.log.map Prod.fst =
        s.log.map Prod.fst ++ labels.flatMap Label.spawned := by
  induction labels generalizing s with
  | nil => exact ⟨s, rfl, hgood, (List.append_nil _).symm⟩
  | cons label rest ih =>
      obtain ⟨hallowed, hrest⟩ := hadmissible
      obtain ⟨next, hstep, hnext, hlog⟩ := step_good hgood hallowed
      rw [hstep] at hrest
      obtain ⟨final, hrun, hfinal, hlogs⟩ := ih hnext hrest
      refine ⟨final, ?_, hfinal, ?_⟩
      · rw [run, hstep]
        exact hrun
      · rw [hlogs, hlog, List.flatMap_cons, List.append_assoc]

def sh : Bytes := ⟨[115, 104], by decide⟩

def arguments : Arguments :=
  ⟨0, [0], none, none, some [3, 4], some 1000, none, 1⟩

/-- The program drops its `Bytes`, its containers and its callback before it
spawns, a second spawn fails, and a walk finds the process of it after the exit
of the first. -/
def launch : List Label :=
  [.bytes sh, .closure, .stream, .container (.inheritStream 2),
    .container (.inheritFd 5), .new arguments, .drop 0, .drop 1, .drop 2,
    .drop 3, .drop 4, .spawn 5 0, .spawn 5 (-2), .drop 5, .exit 7 none,
    .closure, .walk 9, .visit 8, .visit 7, .walked, .close 7 9, .close 8 9,
    .drop 7, .drop 7, .drop 7, .drop 8, .drop 9, .closed 8, .closed 7]

/-- The state before the options are made. -/
def prepared : State :=
  ⟨⟨⟨[some ⟨1, .bytes sh⟩, some ⟨1, .closure⟩, some ⟨2, .stream⟩,
      some ⟨1, .container (.inheritStream 2) (.inheritStream 2)⟩,
      some ⟨1, .container (.inheritFd 5) (.inheritFd 5)⟩], []⟩, []⟩,
    {4, 3, 2, 1, 0}, 0, 0, none, none, [], []⟩

theorem has_sh : Has prepared 0 :=
  ⟨(show 0 ∈ ({4, 3, 2, 1, 0} : Multiset Addr) by decide), sh, 1, rfl⟩

theorem fresh_stdio : ∀ item ∈ [3, 4],
    HasContainer prepared item ∧ Fresh prepared item := by
  intro item hitem
  rcases List.mem_cons.mp hitem with rfl | hitem
  · exact ⟨⟨(show 3 ∈ ({4, 3, 2, 1, 0} : Multiset Addr) by decide), _, _, 1,
      rfl⟩, .inheritStream 2, 1, rfl⟩
  · rw [List.mem_singleton.mp hitem]
    exact ⟨⟨(show 4 ∈ ({4, 3, 2, 1, 0} : Multiset Addr) by decide), _, _, 1,
      rfl⟩, .inheritFd 5, 1, rfl⟩

theorem launch_new : Allowed prepared (.new arguments) := by
  refine ⟨⟨has_sh, ?_, ?_, ?_, ?_,
    (show 1 ∈ ({4, 3, 2, 1, 0} : Multiset Addr) by decide), 1, rfl⟩, ?_⟩
  · intro arg harg
    rw [show arg = 0 from List.mem_singleton.mp harg]
    exact has_sh
  · intro env henv
    cases henv
  · intro cwd hcwd
    cases hcwd
  · intro stdio hstdio item hitem
    cases hstdio
    exact (fresh_stdio item hitem).1
  · intro stdio hstdio
    cases hstdio
    exact ⟨by decide, fun item hitem => (fresh_stdio item hitem).2⟩

theorem launch_admissible : Admissible Allowed step State.empty launch := by
  refine And.intro ⟨trivial, trivial⟩ (And.intro ⟨trivial, trivial⟩
    (And.intro ⟨trivial, trivial⟩ (And.intro ⟨?_, trivial⟩
      (And.intro ⟨?_, trivial⟩ (And.intro launch_new ?_)))))
  · intro stream hstream
    rw [List.mem_singleton.mp hstream]
    exact ⟨(show 2 ∈ ({2, 1, 0} : Multiset Addr) by decide), 1, rfl⟩
  · exact List.forall_mem_nil _
  refine And.intro ⟨(show 0 ∈ ({5, 4, 3, 2, 1, 0} : Multiset Addr) by decide),
      rfl⟩
    (And.intro ⟨(show 1 ∈ ({5, 4, 3, 2, 1} : Multiset Addr) by decide), rfl⟩
    (And.intro ⟨(show 2 ∈ ({5, 4, 3, 2} : Multiset Addr) by decide), rfl⟩
    (And.intro ⟨(show 3 ∈ ({5, 4, 3} : Multiset Addr) by decide), rfl⟩
    (And.intro ⟨(show 4 ∈ ({5, 4} : Multiset Addr) by decide), rfl⟩ ?_))))
  refine And.intro ⟨⟨(show 5 ∈ ({5} : Multiset Addr) by decide), _, _, rfl⟩,
      trivial⟩
    (And.intro ⟨⟨(show 5 ∈ ({7, 5} : Multiset Addr) by decide), _, _, rfl⟩,
      trivial⟩
    (And.intro ⟨(show 5 ∈ ({7, 5} : Multiset Addr) by decide), rfl⟩
    (And.intro ⟨⟨Or.inl (show 7 ∈ ({8, 7} : Multiset Addr) by decide),
      fun _ hnext => by cases hnext⟩, trivial⟩ ?_)))
  refine And.intro ⟨trivial, trivial⟩ (And.intro
      ⟨⟨rfl, (show 9 ∈ ({9, 7, 7} : Multiset Addr) by decide), _, rfl⟩, trivial⟩
    (And.intro ⟨⟨_, rfl, (show 8 ∈ ({8, 7} : Multiset Addr) by decide)⟩,
      trivial⟩
    (And.intro ⟨⟨_, rfl, (show 7 ∈ ({7} : Multiset Addr) by decide)⟩, trivial⟩
    (And.intro ⟨⟨_, rfl, rfl⟩, trivial⟩ ?_))))
  refine And.intro ⟨⟨(show 7 ∈ ({7, 8, 9, 7, 7} : Multiset Addr) by decide),
      (show 7 ∈ ({8, 7} : Multiset Addr) by decide),
      (show 9 ∈ ({7, 8, 9, 7, 7} : Multiset Addr) by decide), _, rfl⟩,
      fun hnext => by cases hnext⟩
    (And.intro ⟨⟨(show 8 ∈ ({7, 8, 9, 7, 7} : Multiset Addr) by decide),
      (show 8 ∈ ({8} : Multiset Addr) by decide),
      (show 9 ∈ ({7, 8, 9, 7, 7} : Multiset Addr) by decide), _, rfl⟩,
      fun hnext => by cases hnext⟩ ?_)
  exact And.intro ⟨(show 7 ∈ ({7, 8, 9, 7, 7} : Multiset Addr) by decide), rfl⟩
    (And.intro ⟨(show 7 ∈ ({8, 9, 7, 7} : Multiset Addr) by decide), rfl⟩
    (And.intro ⟨(show 7 ∈ ({8, 9, 7} : Multiset Addr) by decide), rfl⟩
    (And.intro ⟨(show 8 ∈ ({8, 9} : Multiset Addr) by decide), rfl⟩
    (And.intro ⟨(show 9 ∈ ({9} : Multiset Addr) by decide), rfl⟩
    (And.intro ⟨⟨(show 8 ∈ ({8, 7} : Multiset Addr) by decide), rfl⟩, trivial⟩
    (And.intro ⟨⟨(show 7 ∈ ({7} : Multiset Addr) by decide), rfl⟩, trivial⟩
      trivial))))))

/-- No run of allowed calls touches an object that is gone.  Every spawn asks
for one child, with what its options were made for, whatever the program has
dropped, and once it has dropped all and the loop has closed its processes
nothing is left. -/
theorem launch_safe
    (hadmissible : Admissible Allowed step State.empty labels) :
    ∃ s, run step State.empty labels = .ok s ∧
      (s.asked.map Prod.fst).Nodup ∧
      s.log.map Prod.fst = labels.flatMap Label.spawned ∧
      (∀ entry ∈ s.log, ∃ asked, (entry.1, asked) ∈ s.asked ∧
        entry.2.Starts asked) ∧
      (s.own = 0 → ∀ addr, s.store.heap.cell? addr = none) := by
  obtain ⟨s, hrun, hgood, hlog⟩ := run_good good_empty hadmissible
  exact ⟨s, hrun, hgood.keyed.nodup, hlog, hgood.logged, hgood.freed⟩

theorem launch_safe_launch : ∃ s,
    run step State.empty launch = .ok s ∧
      s.log.map Prod.fst = [5, 5] ∧
      (∀ entry ∈ s.log, ∃ asked, (entry.1, asked) ∈ s.asked ∧
        entry.2.Starts asked) ∧
      ∀ addr, s.store.heap.cell? addr = none := by
  obtain ⟨s, hrun, -, hspawns, hlog, hfreed⟩ := launch_safe launch_admissible
  refine ⟨s, hrun, hspawns, hlog, hfreed ?_⟩
  cases hrun
  decide

/-- The exit of a process that was closed in the callback of the exit before
takes the callback that the close is reported to. -/
example : run step State.empty
    [.bytes sh, .closure, .new ⟨0, [0], none, none, none, none, none, 1⟩,
      .spawn 2 0, .spawn 2 0, .closure, .exit 4 (some 5), .close 5 6,
      .exit 5 none, .closed 5] = .error .nullPointer := rfl

end Runs

end UvMbt.Launch
