/-
Giving everything back.  Whatever a program has done with its processes, and
also after spawns that failed, a walk over the loop shows it what to close.
-/
import UvMbt.LaunchRuns

set_option autoImplicit false

namespace UvMbt.Launch

open RefHeap ForeignBlocks GuardedRun

/-- Some allowed calls lead there. -/
abbrev Leads : State → State → Prop := Reaches Allowed step

/-- How much a walk has still to show. -/
def remaining (s : State) : Nat :=
  match s.walk with
  | some walk => walk.rest.card + 1
  | none => 0

/-- No exit that was looked up, and no walk. -/
structure Quiet (s : State) : Prop where
  good : Good s
  next : s.next = none
  walk : s.walk.isNone = true

section Phases

variable {s : State} {cb object : Addr}

theorem leads_single {s' : State} (label : Label) (hallowed : Allowed s label)
    (hstep : step s label = .ok s') : Leads s s' :=
  Reaches.single hallowed hstep

theorem leads_until (invariant done : State → Prop) (measure : State → Nat)
    (hstep : ∀ s, invariant s → ¬ done s → ∃ label s', Allowed s label ∧
      step s label = .ok s' ∧ invariant s' ∧ measure s' < measure s)
    (hinvariant : invariant s) :
    ∃ s', Leads s s' ∧ invariant s' ∧ done s' :=
  drains invariant done measure hstep hinvariant

/-- The exit that libuv has looked up is reported. -/
theorem finishBatch (hgood : Good s) :
    ∃ s', Leads s s' ∧ Good s' ∧ s'.next = none := by
  cases hnext : s.next with
  | none => exact ⟨s, Reaches.refl s, hgood, hnext⟩
  | some process =>
      have hloop := hgood.due process hnext
      have hnone : ∀ other ∈ (none : Option Addr), other ∈ s.loop :=
        fun other hother => by cases hother
      obtain ⟨store, user, hstep, hgood'⟩ := exit_good hgood hloop hnone
      exact ⟨_, leads_single (.exit process none)
        ⟨⟨Or.inl hloop, hnone⟩, trivial⟩ hstep, hgood', rfl⟩

/-- A walk can always go on to its end. -/
theorem finishWalk (hgood : Good s) (hnext : s.next = none) :
    ∃ s', Leads s s' ∧ Quiet s' := by
  obtain ⟨final, hreaches, ⟨hfinal, hnext'⟩, hdone⟩ := leads_until
    (fun s => Good s ∧ s.next = none) (fun s => s.walk.isNone = true)
    remaining (by
      rintro s ⟨hgood, hnext⟩ hgoing
      cases hwalk : s.walk with
      | none =>
          rw [hwalk] at hgoing
          exact absurd rfl hgoing
      | some walk =>
          by_cases hrest : walk.rest = 0
          · obtain ⟨store, hstep, hgood', -⟩ := walked_good hgood hwalk
            refine ⟨.walked, _, ⟨⟨walk, hwalk, hrest⟩, trivial⟩, hstep,
              ⟨hgood', hnext⟩, ?_⟩
            rw [remaining, remaining, hwalk]
            exact Nat.succ_pos _
          · obtain ⟨process, hmem⟩ := Multiset.exists_mem_of_ne_zero hrest
            obtain ⟨store, hstep, hgood', -⟩ := visit_good hgood hwalk hmem
            refine ⟨.visit process, _, ⟨⟨walk, hwalk, hmem⟩, trivial⟩, hstep,
              ⟨hgood', hnext⟩, ?_⟩
            rw [remaining, remaining, hwalk]
            exact Nat.succ_lt_succ (Multiset.card_erase_lt_of_mem hmem))
    ⟨hgood, hnext⟩
  exact ⟨final, hreaches, hfinal, hnext', hdone⟩

/-- The program has a callback, and every process that the loop has and that
the walk has not still to show. -/
structure Finds (cb : Addr) (s : State) : Prop where
  good : Good s
  next : s.next = none
  user : cb ∈ s.user
  closure : ObjAt s.store.heap cb .closure
  found : ∀ process ∈ s.loop, process ∈ s.user ∨
    ∃ walk, s.walk = some walk ∧ process ∈ walk.rest

theorem Finds.visit (hfinds : Finds cb s) {walk : Walk}
    (hwalk : s.walk = some walk) {process : Addr} (hmem : process ∈ walk.rest) :
    ∃ s', step s (.visit process) = .ok s' ∧ Finds cb s' ∧
      remaining s' < remaining s := by
  obtain ⟨store, hstep, hnext, hevolves⟩ := visit_good hfinds.good hwalk hmem
  have huser : cb ∈ process ::ₘ s.user := Multiset.mem_cons_of_mem hfinds.user
  refine ⟨_, hstep, ⟨hnext, hfinds.next, huser, ?_, ?_⟩, ?_⟩
  · exact hevolves.own_kept hnext.sound (mem_own huser) id hfinds.closure
  · intro other hother
    by_cases heq : other = process
    · rw [heq]
      exact Or.inl (Multiset.mem_cons_self process s.user)
    · rcases hfinds.found other hother with hold | ⟨walk', hwalk', hrest⟩
      · exact Or.inl (Multiset.mem_cons_of_mem hold)
      · rw [hwalk, Option.some.injEq] at hwalk'
        rw [← hwalk'] at hrest
        exact Or.inr ⟨_, rfl, (Multiset.mem_erase_of_ne heq).mpr hrest⟩
  · rw [remaining, remaining, hwalk]
    exact Nat.succ_lt_succ (Multiset.card_erase_lt_of_mem hmem)

theorem Finds.walked (hfinds : Finds cb s) {walk : Walk}
    (hwalk : s.walk = some walk) (hrest : walk.rest = 0) :
    ∃ s', step s .walked = .ok s' ∧ Finds cb s' ∧
      remaining s' < remaining s := by
  obtain ⟨store, hstep, hnext, hevolves⟩ := walked_good hfinds.good hwalk
  refine ⟨_, hstep, ⟨hnext, hfinds.next, hfinds.user, ?_, ?_⟩, ?_⟩
  · exact hevolves.own_kept hnext.sound (mem_own hfinds.user) id
      hfinds.closure
  · intro other hother
    rcases hfinds.found other hother with hold | ⟨walk', hwalk', hmem⟩
    · exact Or.inl hold
    · rw [hwalk, Option.some.injEq] at hwalk'
      rw [← hwalk', hrest] at hmem
      exact absurd hmem (Multiset.notMem_zero other)
  · rw [remaining, remaining, hwalk]
    exact Nat.succ_pos _

/-- A walk over the whole loop finds all that it has. -/
theorem findAll (hquiet : Quiet s) :
    ∃ s' cb, Leads s s' ∧ Finds cb s' ∧ s'.walk.isNone = true := by
  obtain ⟨hmade, hclosure, -⟩ :=
    alloc_good hquiet.good .closure rfl fun _ _ => trivial
  have huser : s.store.heap.cells.length ∈ (s.alloc .closure).user :=
    Multiset.mem_cons_self _ s.user
  have halloc : Leads s (s.alloc .closure) :=
    leads_single .closure ⟨trivial, trivial⟩ rfl
  obtain ⟨store, hstep, hnext, hclosure'⟩ :=
    walk_good hmade hquiet.walk hclosure
  have hwalk := leads_single (s := s.alloc .closure)
    (.walk s.store.heap.cells.length)
    ⟨⟨hquiet.walk, huser, hclosure⟩, trivial⟩ hstep
  have hfinds : Finds s.store.heap.cells.length
      { s.alloc .closure with
        store := store
        walk := some ⟨s.store.heap.cells.length, s.loop + s.closing⟩ } :=
    ⟨hnext, hquiet.next, huser, hclosure', fun process hprocess =>
      Or.inr ⟨_, rfl, Multiset.mem_add.mpr (Or.inl hprocess)⟩⟩
  obtain ⟨final, hreaches, hfinal, hdone⟩ := leads_until
    (Finds s.store.heap.cells.length) (fun s => s.walk.isNone = true)
    remaining (by
      intro s hfinds hgoing
      cases hwalk : s.walk with
      | none =>
          rw [hwalk] at hgoing
          exact absurd rfl hgoing
      | some walk =>
          by_cases hrest : walk.rest = 0
          · obtain ⟨next, hstep, hnext⟩ := hfinds.walked hwalk hrest
            exact ⟨.walked, next, ⟨⟨walk, hwalk, hrest⟩, trivial⟩, hstep,
              hnext⟩
          · obtain ⟨process, hmem⟩ := Multiset.exists_mem_of_ne_zero hrest
            obtain ⟨next, hstep, hnext⟩ := hfinds.visit hwalk hmem
            exact ⟨.visit process, next, ⟨⟨walk, hwalk, hmem⟩, trivial⟩,
              hstep, hnext⟩)
    hfinds
  exact ⟨final, _, (halloc.trans hwalk).trans hreaches, hfinal, hdone⟩

/-- The program closes all that it has found. -/
theorem closeAll (hfinds : Finds cb s) (hnone : s.walk.isNone = true) :
    ∃ s', Leads s s' ∧ Quiet s' ∧ s'.loop = 0 := by
  obtain ⟨final, hreaches, ⟨hfinal, hnone'⟩, hdone⟩ := leads_until
    (fun s => Finds cb s ∧ s.walk.isNone = true)
    (fun s => s.loop = 0) (fun s => s.loop.card) (by
      rintro s ⟨hfinds, hnone⟩ hleft
      obtain ⟨process, hmem⟩ := Multiset.exists_mem_of_ne_zero hleft
      have huser : process ∈ s.user := by
        rcases hfinds.found process hmem with huser | ⟨walk, hwalk, -⟩
        · exact huser
        · rw [hwalk] at hnone
          cases hnone
      have hnext : s.next ≠ some process := by
        rw [hfinds.next]
        exact (Option.some_ne_none process).symm
      obtain ⟨store, hstep, hgood, hclosure⟩ :=
        close_good hfinds.good huser hmem hfinds.user hfinds.closure hnext
      refine ⟨.close process cb, _,
        ⟨⟨huser, hmem, hfinds.user, hfinds.closure⟩, hnext⟩, hstep,
        ⟨⟨hgood, hfinds.next, hfinds.user, hclosure, ?_⟩, hnone⟩,
        Multiset.card_erase_lt_of_mem hmem⟩
      intro other hother
      exact hfinds.found other (Multiset.mem_of_mem_erase hother))
    ⟨hfinds, hnone⟩
  exact ⟨final, hreaches, ⟨hfinal.good, hfinal.next, hnone'⟩, hdone⟩

/-- A container that has a descriptor. -/
def Armed (store : Objects) (addr : Addr) : Prop :=
  ∃ built content fd, ObjAt store.heap addr (.container built content) ∧
    content.data.pointer = .descriptor fd

theorem Armed.isWild (hwild : isWild s.store object = true) :
    Armed s.store object := by
  unfold Launch.isWild at hwild
  split at hwild
  · rename_i built content hget
    split at hwild
    · rename_i fd hpointer
      exact ⟨built, content, fd, ObjAt.of_get hget, hpointer⟩
    · cases hwild
    · cases hwild
  · cases hwild

/-- What has a descriptor is as it was built. -/
theorem Good.fresh (hgood : Good s) (harmed : Armed s.store object) :
    Fresh s object := by
  obtain ⟨built, content, fd, hobj, hpointer⟩ := harmed
  rcases (hgood.typed object _ hobj).1 with rfl | rfl
  · exact ⟨built, hobj⟩
  · cases hpointer

theorem Armed.evolve {changed : Addr → Prop} {s' : State}
    (harmed : Armed s'.store object) (hnot : ¬ changed object)
    (hevolves : Evolves changed s.store s'.store) : Armed s.store object := by
  obtain ⟨built, content, fd, hobj, hpointer⟩ := harmed
  exact ⟨built, content, fd, hevolves.objects object _ hnot hobj, hpointer⟩

theorem Emptied.not_armed (hemptied : Emptied s.store object) :
    ¬ Armed s.store object := by
  rintro ⟨built, content, fd, hobj, hpointer⟩
  obtain ⟨built', hzeroed⟩ := hemptied
  cases hobj.unique hzeroed
  cases hpointer

/-- A program can make a `Bytes` and a callback. -/
theorem supply (hquiet : Quiet s) :
    ∃ s' file cb, Leads s s' ∧ Quiet s' ∧ s'.loop = s.loop ∧ Has s' file ∧
      cb ∈ s'.user ∧ ObjAt s'.store.heap cb .closure := by
  obtain ⟨hgood₁, hbytes, -⟩ :=
    alloc_good hquiet.good (.bytes sh) rfl fun _ _ => trivial
  obtain ⟨hgood₂, hclosure, hevolves⟩ :=
    alloc_good hgood₁ .closure rfl fun _ _ => trivial
  have hmem : s.store.heap.cells.length ∈
      ((s.alloc (.bytes sh)).alloc .closure).user :=
    Multiset.mem_cons_of_mem (Multiset.mem_cons_self _ s.user)
  have hbytes' := hevolves.own_kept hgood₂.sound (mem_own hmem)
    (Nat.ne_of_lt hbytes.lt_length) hbytes
  exact ⟨_, _, _, (leads_single (.bytes sh) ⟨trivial, trivial⟩ rfl).trans
      (leads_single .closure ⟨trivial, trivial⟩ rfl),
    ⟨hgood₂, hquiet.next, hquiet.walk⟩, rfl, ⟨hmem, sh, hbytes'⟩,
    Multiset.mem_cons_self _ _, hclosure⟩

/-- Options can take over every container that has a descriptor. -/
theorem disarm (hquiet : Quiet s) (hloop : s.loop = 0) :
    ∃ s', Leads s s' ∧ Quiet s' ∧ s'.loop = 0 ∧
      ∀ addr ∈ s'.user, ¬ Armed s'.store addr := by
  classical
  obtain ⟨middle, file, cb, hleads, hquiet', hsame, hfile, hcb, hclosure⟩ :=
    supply hquiet
  have hstdio : ∀ addr, addr ∈
      (middle.user.filter (Armed middle.store)).dedup.toList ↔
        addr ∈ middle.user ∧ Armed middle.store addr := by
    intro addr
    rw [Multiset.mem_toList, Multiset.mem_dedup, Multiset.mem_filter]
  have hallowed : Allowed middle (.new ⟨file, [], none, none,
      some (middle.user.filter (Armed middle.store)).dedup.toList, none, none,
      cb⟩) := by
    refine ⟨⟨hfile, List.forall_mem_nil _, ?_, ?_, ?_, hcb, hclosure⟩, ?_⟩
    · intro env henv
      cases henv
    · intro cwd hcwd
      cases hcwd
    · intro stdio hitems item hitem
      cases hitems
      obtain ⟨huser, built, content, fd, hobj, -⟩ := (hstdio item).mp hitem
      exact ⟨huser, built, content, hobj⟩
    · intro stdio hitems
      cases hitems
      refine ⟨?_, fun item hitem =>
        hquiet'.good.fresh ((hstdio item).mp hitem).2⟩
      rw [← Multiset.coe_nodup, Multiset.coe_toList]
      exact Multiset.nodup_dedup _
  obtain ⟨store, asked, hstep, hgood, hevolves, hemptied, current, hobj⟩ :=
    new_good hquiet'.good hallowed
  refine ⟨_, hleads.trans (leads_single _ hallowed hstep),
    ⟨hgood, hquiet'.next, hquiet'.walk⟩, hsame.trans hloop, ?_⟩
  intro addr hmem harmed
  rcases Multiset.mem_cons.mp hmem with rfl | huser
  · obtain ⟨built, content, fd, hcontainer, -⟩ := harmed
    cases hobj.unique hcontainer
  · by_cases hold : Armed middle.store addr
    · exact (hemptied addr ((hstdio addr).mpr ⟨huser, hold⟩)).not_armed harmed
    · obtain ⟨object, hlive⟩ :=
        hquiet'.good.sound.balanced.live (mem_own huser)
      refine hold (harmed.evolve ?_ hevolves)
      rintro (hitem | hle)
      · exact hold ((hstdio addr).mp hitem).2
      · exact Nat.not_le.mpr hlive.lt_length hle

/-- The program drops all that it has. -/
theorem dropAll (hquiet : Quiet s) (hloop : s.loop = 0)
    (htame : ∀ addr ∈ s.user, ¬ Armed s.store addr) :
    ∃ s', Leads s s' ∧ Quiet s' ∧ s'.loop = 0 ∧ s'.user = 0 := by
  obtain ⟨final, hreaches, ⟨hfinal, hloop', -⟩, hdone⟩ := leads_until
    (fun s => Quiet s ∧ s.loop = 0 ∧ ∀ addr ∈ s.user, ¬ Armed s.store addr)
    (fun s => s.user = 0) (fun s => s.user.card) (by
      rintro s ⟨hquiet, hloop, htame⟩ hleft
      obtain ⟨object, hmem⟩ := Multiset.exists_mem_of_ne_zero hleft
      have hrule : isWild s.store object = false := by
        rw [← Bool.not_eq_true]
        exact fun hwild => htame object hmem (Armed.isWild hwild)
      obtain ⟨store, hstep, hgood, hevolves⟩ :=
        drop_good hquiet.good hmem hrule
      refine ⟨.drop object, _, ⟨hmem, hrule⟩, hstep,
        ⟨⟨hgood, hquiet.next, hquiet.walk⟩, hloop, ?_⟩,
        Multiset.card_erase_lt_of_mem hmem⟩
      intro addr haddr harmed
      exact htame addr (Multiset.mem_of_mem_erase haddr)
        (harmed.evolve id hevolves))
    ⟨hquiet, hloop, htame⟩
  exact ⟨final, hreaches, hfinal, hloop', hdone⟩

/-- The loop ends every close. -/
theorem endAll (hquiet : Quiet s) (hloop : s.loop = 0) (huser : s.user = 0) :
    ∃ s', Leads s s' ∧ Good s' ∧ s'.own = 0 := by
  obtain ⟨final, hreaches, ⟨hfinal, hloop', huser'⟩, hdone⟩ := leads_until
    (fun s => Quiet s ∧ s.loop = 0 ∧ s.user = 0)
    (fun s => s.closing = 0) (fun s => s.closing.card) (by
      rintro s ⟨hquiet, hloop, huser⟩ hleft
      obtain ⟨process, hmem⟩ := Multiset.exists_mem_of_ne_zero hleft
      obtain ⟨store, hstep, hgood⟩ :=
        closeCb_good hquiet.good hmem hquiet.walk
      exact ⟨.closed process, _, ⟨⟨hmem, hquiet.walk⟩, trivial⟩, hstep,
        ⟨⟨hgood, hquiet.next, hquiet.walk⟩, hloop, huser⟩,
        Multiset.card_erase_lt_of_mem hmem⟩)
    ⟨hquiet, hloop, huser⟩
  refine ⟨final, hreaches, hfinal.good, ?_⟩
  have hnone := hfinal.walk
  rw [Option.isNone_iff_eq_none] at hnone
  rw [State.own, huser', hloop', hdone, hnone]
  rfl

end Phases

/-- After every run, also one in which spawns failed, a program can get
everything given back. -/
theorem recovers {labels : List Label}
    (hadmissible : Admissible Allowed step State.empty labels) :
    ∃ more s, Admissible Allowed step State.empty (labels ++ more) ∧
      run step State.empty (labels ++ more) = .ok s ∧
      ∀ addr, s.store.heap.cell? addr = none := by
  obtain ⟨s, hrun, hgood, -⟩ := run_good good_empty hadmissible
  obtain ⟨s₁, hleads₁, hgood₁, hnext₁⟩ := finishBatch hgood
  obtain ⟨s₂, hleads₂, hquiet₂⟩ := finishWalk hgood₁ hnext₁
  obtain ⟨s₃, cb, hleads₃, hfinds, hnone₃⟩ := findAll hquiet₂
  obtain ⟨s₄, hleads₄, hquiet₄, hloop₄⟩ := closeAll hfinds hnone₃
  obtain ⟨s₅, hleads₅, hquiet₅, hloop₅, htame⟩ := disarm hquiet₄ hloop₄
  obtain ⟨s₆, hleads₆, hquiet₆, hloop₆, huser₆⟩ :=
    dropAll hquiet₅ hloop₅ htame
  obtain ⟨final, hleads₇, hfinal, hown⟩ := endAll hquiet₆ hloop₆ huser₆
  obtain ⟨more, hmore, hrunMore⟩ := (((((hleads₁.trans hleads₂).trans
    hleads₃).trans hleads₄).trans hleads₅).trans hleads₆).trans hleads₇
  refine ⟨more, final, hadmissible.append hrun hmore, ?_, hfinal.freed hown⟩
  rw [run_append, hrun]
  exact hrunMore

/-- The run stops in its walk, with a container of a descriptor. -/
def abandoned : List Label := launch.take 17 ++ [.container (.inheritFd 7)]

theorem abandoned_admissible :
    Admissible Allowed step State.empty abandoned := by
  have hwhole := launch_admissible
  rw [← List.take_append_drop 17 launch] at hwhole
  obtain ⟨s, hrun, -⟩ := run_good good_empty hwhole.left
  exact hwhole.left.append hrun
    (Admissible.single ⟨List.forall_mem_nil _, trivial⟩)

theorem recovers_abandoned : ∃ more s,
    run step State.empty (abandoned ++ more) = .ok s ∧
      ∀ addr, s.store.heap.cell? addr = none := by
  obtain ⟨more, s, -, hrun, hfreed⟩ := recovers abandoned_admissible
  exact ⟨more, s, hrun, hfreed⟩

end UvMbt.Launch
