/-
Every call of a program keeps the invariant of the snapshots: no memory of
libuv is read after it was given back, none is given back twice, and an
iterator answers with each entry once.
-/
import UvMbt.Snapshots
import UvMbt.Outcome

set_option autoImplicit false

namespace UvMbt.Snapshots

open RefHeap ForeignBlocks GuardedRun

section Reading

theorem text_name (name : Name) : text name = .ok name.text := by
  rw [text, Marshalling.readCString_text _ name.short]

theorem load_node (node : Node) : load node = .ok node.info := by
  obtain ⟨family, socktype, protocol, addr, canonname⟩ := node
  cases canonname with
  | none => rfl
  | some name =>
      simp only [load, text_name]
      rfl

theorem mapM_load (list : List Node) :
    list.mapM load = .ok (list.map Node.info) := by
  induction list with
  | nil => rfl
  | cons node rest ih =>
      rw [List.mapM_cons, load_node, ih]
      rfl

theorem passwdGetUsername_name (name : Name) :
    Marshalling.passwdGetUsername (some name.memory) = .ok name.text := by
  rw [Marshalling.passwdGetUsername,
    Marshalling.copyBytes_text _ name.short]

theorem passwdGetShell_name (shell : Option Name) :
    Marshalling.passwdGetShell (shell.map fun name => name.memory) =
      .ok ((shell.map fun name => name.text).getD []) := by
  cases shell with
  | none => rfl
  | some name =>
      have hcopy := Marshalling.copyBytes_text name.toCString name.short
      exact hcopy

theorem mapM_copyBytes (members : List Name) :
    (members.map fun name => some name.memory).mapM (Marshalling.copyBytes 0) =
      .ok (members.map fun name => name.text) := by
  induction members with
  | nil => rfl
  | cons name rest ih =>
      rw [List.map_cons, List.mapM_cons,
        Marshalling.copyBytes_text _ name.short, ih]
      rfl

theorem groupGetMembers_names (members : List Name) :
    Marshalling.groupGetMembers
        (members.map (fun name => some name.memory) ++ [none]) =
      .ok (members.map fun name => name.text) := by
  have htake : (members.map (fun name => some name.memory) ++
      [(none : Marshalling.Pointer)]).takeWhile Option.isSome =
        members.map fun name => some name.memory := by
    rw [List.takeWhile_append_of_pos]
    · exact List.append_nil _
    · intro pointer hpointer
      obtain ⟨name, -, rfl⟩ := List.mem_map.mp hpointer
      rfl
  rw [Marshalling.groupGetMembers, htake, mapM_copyBytes]

end Reading

section Answers

variable {entries : List Entry} {i : Nat} {answers : List (Option Entry)}

theorem Yielded.start (entries : List Entry) : Yielded entries 0 [] where
  answers_eq := rfl
  index_eq := (Nat.zero_min _).symm

/-- At an index below the end there were as many answers. -/
theorem Yielded.length_eq (hyielded : Yielded entries i answers)
    (hlt : i < entries.length) : answers.length = i := by
  have hindex := hyielded.index_eq
  omega

theorem Yielded.next_some (hyielded : Yielded entries i answers)
    {entry : Entry} (hentry : entries[i]? = some entry) :
    Yielded entries (i + 1) (answers ++ [some entry]) where
  answers_eq := by
    obtain ⟨hlt, -⟩ := List.getElem?_eq_some_iff.mp hentry
    have hlength := hyielded.length_eq hlt
    rw [List.length_append, List.length_singleton, List.range_succ,
      List.map_append, ← hyielded.answers_eq, hlength, List.map_singleton,
      hentry]
  index_eq := by
    obtain ⟨hlt, -⟩ := List.getElem?_eq_some_iff.mp hentry
    have hlength := hyielded.length_eq hlt
    rw [List.length_append, List.length_singleton, hlength]
    omega

theorem Yielded.next_none (hyielded : Yielded entries i answers)
    (hend : entries.length ≤ i) : Yielded entries i (answers ++ [none]) where
  answers_eq := by
    have hindex := hyielded.index_eq
    have hnone : entries[answers.length]? = none :=
      List.getElem?_eq_none (by omega)
    rw [List.length_append, List.length_singleton, List.range_succ,
      List.map_append, ← hyielded.answers_eq, List.map_singleton, hnone]
  index_eq := by
    have hindex := hyielded.index_eq
    rw [List.length_append, List.length_singleton]
    omega

variable {s : State} {addr : Addr}

/-- An address that is not in the log has not answered. -/
theorem answers_fresh (hlogged : ∀ entry ∈ s.log, entry.1 < addr) :
    s.answers addr = [] := by
  rw [State.answers, List.filter_eq_nil_iff.mpr]
  · rfl
  · intro entry hentry
    rw [decide_eq_true_eq]
    exact Nat.ne_of_lt (hlogged entry hentry)

theorem answers_append (store : Store Object Content) (entry : Option Entry) :
    State.answers { s with store := store, log := s.log ++ [(addr, entry)] }
      addr = s.answers addr ++ [entry] := by
  rw [State.answers, State.answers, List.filter_append, List.map_append,
    List.filter_cons_of_pos (by rw [decide_eq_true_eq])]
  rfl

theorem answers_append_ne (store : Store Object Content) (entry : Option Entry)
    {other : Addr} (hne : other ≠ addr) :
    State.answers { s with store := store, log := s.log ++ [(addr, entry)] }
      other = s.answers other := by
  rw [State.answers, State.answers, List.filter_append, List.map_append,
    List.filter_cons_of_neg (by
      rw [decide_eq_true_eq]
      exact Ne.symm hne)]
  exact List.append_nil _

end Answers

section Keeping

variable {s s' : State} {changed : Addr → Prop} {own : Multiset Addr}
  {loose : Multiset Block} {addr : Addr} {object : Object}

theorem Typed.evolve (htyped : Typed s addr object)
    (hevolves : Evolves changed s.store s'.store)
    (hsound : Sound s'.store own loose) (hobj : ObjAt s'.store.heap addr object)
    (hanswers : s'.answers addr = s.answers addr)
    (hgiven : s.given ⊆ s'.given)
    (hchanged : ∀ environ, changed environ → ∀ items count,
      ¬ ObjAt s.store.heap environ (.environ items count)) :
    Typed s' addr object := by
  cases object with
  | results addrinfo => exact htyped
  | environ items count =>
      obtain ⟨block, list, rfl, hcontent, hcount⟩ := htyped
      exact ⟨block, list, rfl, hevolves.content_kept hsound hobj
        List.mem_cons_self hcontent, hcount⟩
  | passwd passwd =>
      obtain ⟨block, username, shell, rfl, hcontent⟩ := htyped
      exact ⟨block, username, shell, rfl, hevolves.content_kept hsound
        hobj List.mem_cons_self hcontent⟩
  | group group =>
      obtain ⟨block, groupname, members, rfl, hcontent⟩ := htyped
      exact ⟨block, groupname, members, rfl, hevolves.content_kept hsound
        hobj List.mem_cons_self hcontent⟩
  | iter items i =>
      obtain ⟨⟨block, list, hlist, hfreed, hitems⟩, hyielded⟩ := htyped
      rw [Typed, hanswers]
      exact ⟨⟨block, list, hgiven hlist, hevolves.freed_kept hfreed, hitems⟩,
        hyielded⟩
  | iter2 environ i count =>
      obtain ⟨block, list, hlt, hold, hcontent, hcount, hyielded⟩ := htyped
      have hnew := hevolves.ref_kept hsound hobj
        (show environ ∈ refs (Object.iter2 environ i count) from
          List.mem_cons_self)
        (fun henviron => hchanged environ henviron (some block) count hold) hold
      refine ⟨block, list, hlt, hnew, ?_, hcount, ?_⟩
      · exact hevolves.content_kept hsound hnew List.mem_cons_self hcontent
      · rw [hanswers]
        exact hyielded

/-- What a call has to show: the ledgers are right again, and the objects it
has made or changed are well typed. -/
theorem Good.evolve (hgood : Good s)
    (hevolves : Evolves changed s.store s'.store)
    (hsound : Sound s'.store s'.user 0)
    (hanswers : ∀ addr, ¬ changed addr → s'.answers addr = s.answers addr)
    (hgiven : s.given ⊆ s'.given)
    (hlogged : ∀ entry ∈ s'.log, entry.1 < s'.store.heap.cells.length)
    (hchanged : ∀ environ, changed environ → ∀ items count,
      ¬ ObjAt s.store.heap environ (.environ items count))
    (htyped : ∀ addr object, changed addr →
      ObjAt s'.store.heap addr object → Typed s' addr object) : Good s' where
  sound := hsound
  typed addr object hobj := by
    by_cases haddr : changed addr
    · exact htyped addr object haddr hobj
    · have hold := hevolves.objects addr object haddr hobj
      exact (hgood.typed addr object hold).evolve hevolves hsound hobj
        (hanswers addr haddr) hgiven hchanged
  lost := by
    rw [hevolves.lost (fun _ => rfl), hgood.lost]
  logged := hlogged

/-- An address that is new holds no environment yet. -/
theorem not_environ_of_fresh (hle : s.store.heap.cells.length ≤ addr)
    (items : Option Block) (count : Nat) :
    ¬ ObjAt s.store.heap addr (.environ items count) := by
  intro hobj
  exact absurd hobj.lt_length (Nat.not_lt.mpr hle)

end Keeping

section Steps

variable {s : State} {addr : Addr}

theorem lift_ok {α : Type} {result : Except ForeignBlocks.Fault α} {value : α}
    (hresult : result = .ok value) : lift result = .ok value := by
  rw [hresult]
  rfl

/-- A change that only releases references of the program, or takes some. -/
theorem Good.of_same_log (hgood : Good s) {store : Store Object Content}
    {user : Multiset Addr}
    (hevolves : Evolves (fun _ => False) s.store store)
    (hsound : Sound store user 0) : Good ⟨store, user, s.log, s.given⟩ := by
  refine hgood.evolve hevolves hsound (fun addr _ => rfl)
    (List.Subset.refl _) ?_ ?_ ?_
  · intro entry hentry
    exact Nat.lt_of_lt_of_le (hgood.logged entry hentry) hevolves.cells_le
  · intro environ hfalse
    exact hfalse.elim
  · intro addr object hfalse
    exact hfalse.elim

/-- A change that makes one object. -/
theorem Good.of_fresh (hgood : Good s) {store : Store Object Content}
    {user : Multiset Addr} {given : List (Addr × Block × List Node)}
    {changed : Addr → Prop}
    (hevolves : Evolves changed s.store store) (hsound : Sound store user 0)
    (hgiven : s.given ⊆ given)
    (hfresh : ∀ addr, changed addr → s.store.heap.cells.length ≤ addr)
    (htyped : ∀ addr object, changed addr → ObjAt store.heap addr object →
      s.answers addr = [] → Typed ⟨store, user, s.log, given⟩ addr object) :
    Good ⟨store, user, s.log, given⟩ := by
  refine hgood.evolve hevolves hsound (fun addr _ => rfl) hgiven ?_ ?_ ?_
  · intro entry hentry
    exact Nat.lt_of_lt_of_le (hgood.logged entry hentry) hevolves.cells_le
  · intro environ hchanged
    exact not_environ_of_fresh (hfresh environ hchanged)
  · intro addr object hchanged hobj
    apply htyped addr object hchanged hobj
    apply answers_fresh
    intro entry hentry
    exact Nat.lt_of_lt_of_le (hgood.logged entry hentry) (hfresh addr hchanged)

/-- An object that was made and released on the way is not there at the end. -/
theorem Good.gone (hgood : Good s) {store : Store Object Content}
    {user : Multiset Addr} {changed : Addr → Prop}
    (hevolves : Evolves changed s.store store) (hsound : Sound store user 0)
    (hchanged : ∀ source, changed source → ∀ object,
      ObjAt store.heap source object → refs object = [])
    (hfresh : s.store.heap.cells.length ≤ addr) (huser : addr ∉ user) :
    ¬ Live store.heap addr := by
  apply hsound.not_live huser
  · rw [hevolves.lost (fun _ => rfl), hgood.lost]
    exact List.not_mem_nil
  · intro source object hobj hmem
    by_cases hsource : changed source
    · rw [hchanged source hsource object hobj] at hmem
      cases hmem
    · have hold := hevolves.objects source object hsource hobj
      obtain ⟨object', hlive⟩ :=
        hgood.sound.balanced.live_of_refs hold hmem
      exact absurd hlive.lt_length (Nat.not_lt.mpr hfresh)

/-- No object that was there before holds a block of afterwards. -/
theorem Good.holds_old (hgood : Good s) {store : Store Object Content}
    {changed : Addr → Prop} (hevolves : Evolves changed s.store store)
    (hchanged : ∀ source, changed source → ∀ object,
      ObjAt store.heap source object → Holds.held object = [])
    {source : Addr} {object : Object} (hobj : ObjAt store.heap source object)
    (hheld : s.store.blocks.length ∈ Holds.held object) : False := by
  by_cases hsource : changed source
  · rw [hchanged source hsource object hobj] at hheld
    cases hheld
  · have hold := hevolves.objects source object hsource hobj
    obtain ⟨content, hcontent⟩ :=
      hgood.sound.content_of_held (Or.inr (mem_held hold hheld))
    exact Nat.lt_irrefl _ (lt_of_content hcontent)

/-- What the program owns is not new. -/
theorem Good.not_fresh (hgood : Good s) (huser : addr ∈ s.user) :
    addr < s.store.heap.cells.length := by
  obtain ⟨object, hobj⟩ := hgood.sound.balanced.live huser
  exact hobj.lt_length

/-- A fetch makes an object around what libuv has allocated, or nothing. -/
theorem fetch_good (hgood : Good s) {vacant : Object} {filled : Block → Object}
    {answer : Option Content} (hvacant : refs vacant = [])
    (hholds : Holds.held vacant = []) (hrefs : ∀ block, refs (filled block) = [])
    (hheld : ∀ block, Holds.held (filled block) = [block])
    (htyped : ∀ s' addr block content, answer = some content →
      s'.store.content? block = some content →
        Typed s' addr (filled block)) :
    ∃ s', fetch vacant filled answer s = .ok s' ∧ Good s' := by
  have hstart : Sound s.store (↑(refs vacant) + s.user)
      (↑(Holds.held vacant) + 0) := by
    rw [hvacant, hholds]
    simpa using hgood.sound
  obtain ⟨hmade, hobj, hevolves₁⟩ := alloc_store hstart
  obtain ⟨taken, hincref, htaken, hsame, hcells, hevolves₂⟩ :=
    incref_store hmade ⟨vacant, hobj⟩
  have hevolved := hevolves₁.after hevolves₂
  cases answer with
  | none =>
      obtain ⟨less, hdecref, hless, -, hevolves₃⟩ := decref_store htaken
      obtain ⟨final, hdecref', hfinal, -, hevolves₄⟩ := decref_store hless
      refine ⟨⟨final, s.user, s.log, s.given⟩, ?_, ?_⟩
      · exact (Outcome.bind_ok (lift_ok hincref) _).trans
          ((Outcome.bind_ok (lift_ok hdecref) _).trans
            (Outcome.bind_ok (lift_ok hdecref') _))
      · have hevolves := (hevolved.after hevolves₃).after hevolves₄
        refine hgood.of_fresh hevolves hfinal (List.Subset.refl _) ?_ ?_
        · rintro addr rfl
          exact Nat.le_refl _
        · rintro addr object rfl hlive -
          refine absurd (show Live final.heap _ from ⟨object, hlive⟩)
            (hgood.gone hevolves hfinal ?_ (Nat.le_refl _) ?_)
          · rintro source rfl object' hobj'
            have htaken' := (hevolves₃.after hevolves₄).objects _ _ id hobj'
            rw [((hsame _ _).mp htaken').unique hobj, hvacant]
          · intro huser
            exact Nat.lt_irrefl _ (hgood.not_fresh huser)
  | some content =>
      have hmalloc := malloc_spec htaken content
      have hobj' : ObjAt (taken.malloc content).1.heap s.store.heap.cells.length
          vacant := (hsame _ _).mpr hobj
      obtain ⟨placed, hput, hplaced, hself, hblocks, -, hevolves₄⟩ :=
        put_store (filled taken.blocks.length) _ 0 hmalloc hobj'
          (by rw [hvacant, hrefs])
          (by rw [hholds, hheld]; simp)
      obtain ⟨final, hdecref, hfinal, -, hevolves₅⟩ := decref_store hplaced
      refine ⟨⟨final, s.store.heap.cells.length ::ₘ s.user, s.log, s.given⟩, ?_, ?_⟩
      · exact (Outcome.bind_ok (lift_ok hincref) _).trans
          ((Outcome.bind_ok (lift_ok hput) _).trans
            (Outcome.bind_ok (lift_ok hdecref) _))
      · have hevolves := ((hevolved.after (malloc_evolves taken content)).trans
          hevolves₄).after hevolves₅
        refine hgood.of_fresh hevolves hfinal (List.Subset.refl _) ?_ ?_
        · rintro addr (rfl | rfl) <;> exact Nat.le_refl _
        · intro addr object haddr hlive _
          have hplaced' := hevolves₅.objects _ _ id hlive
          have haddr' : addr = s.store.heap.cells.length := by
            rcases haddr with haddr | haddr <;> exact haddr
          rw [haddr'] at hplaced' hlive ⊢
          have hobject := hplaced'.unique hself
          rw [hobject] at hlive ⊢
          apply htyped _ _ _ content rfl
          have hmalloced : placed.content? taken.blocks.length = some content := by
            rw [Store.content?, hblocks]
            exact content_malloc_self
          have hblock : taken.blocks.length ∈
              Holds.held (filled taken.blocks.length) := by
            rw [hheld]
            exact List.mem_cons_self
          exact hevolves₅.content_kept hfinal hlive hblock hmalloced

end Steps

section Calls

variable {s : State} {addr : Addr}

theorem osEnviron_good (hgood : Good s) (answer : Option (List (Name × Name))) :
    ∃ s', osEnviron answer s = .ok s' ∧ Good s' := by
  apply fetch_good hgood rfl rfl (fun _ => rfl) (fun _ => rfl)
  intro s' addr block content hanswer hcontent
  obtain ⟨list, rfl, rfl⟩ := Option.map_eq_some_iff.mp hanswer
  exact ⟨block, list, rfl, hcontent, rfl⟩

theorem osGetPasswd_good (hgood : Good s)
    (answer : Option (Name × Option Name)) :
    ∃ s', osGetPasswd answer s = .ok s' ∧ Good s' := by
  apply fetch_good hgood rfl rfl (fun _ => rfl) (fun _ => rfl)
  intro s' addr block content hanswer hcontent
  obtain ⟨entry, -, rfl⟩ := Option.map_eq_some_iff.mp hanswer
  exact ⟨block, entry.1, entry.2, rfl, hcontent⟩

theorem osGetGroup_good (hgood : Good s) (answer : Option (Name × List Name)) :
    ∃ s', osGetGroup answer s = .ok s' ∧ Good s' := by
  apply fetch_good hgood rfl rfl (fun _ => rfl) (fun _ => rfl)
  intro s' addr block content hanswer hcontent
  obtain ⟨entry, -, rfl⟩ := Option.map_eq_some_iff.mp hanswer
  exact ⟨block, entry.1, entry.2, rfl, hcontent⟩

theorem get_ok {store : Store Object Content} {object : Object}
    (hobj : ObjAt store.heap addr object) : get store addr = .ok object := by
  rw [get, hobj.get]

theorem iter2_good (hgood : Good s) {items : Option Block} {count : Nat}
    (hobj : ObjAt s.store.heap addr (.environ items count)) :
    ∃ s', iter2 addr s = .ok s' ∧ Good s' := by
  obtain ⟨taken, hincref, htaken, hsame, hcells, hevolves₁⟩ :=
    incref_store hgood.sound hobj.live
  have htaken' : Sound taken (↑(refs (Object.iter2 addr 0 count)) + s.user)
      (↑(Holds.held (Object.iter2 addr 0 count)) + 0) := by
    simpa [refs, Ownership.drops, Ownership.leaks, Holds.held] using htaken
  obtain ⟨hsound, hself, hevolves₂⟩ := alloc_store htaken'
  have hevolves : Evolves (fun source => source = s.store.heap.cells.length)
      s.store (taken.alloc (.iter2 addr 0 count)).1 := by
    apply (hevolves₁.trans hevolves₂).mono
    rintro source (hfalse | heq)
    · exact hfalse.elim
    · rw [heq, hcells]
  refine ⟨⟨(taken.alloc (.iter2 addr 0 count)).1,
    taken.heap.cells.length ::ₘ s.user, s.log, s.given⟩, ?_, ?_⟩
  · exact (Outcome.bind_ok (get_ok hobj) _).trans
      (Outcome.bind_ok (lift_ok hincref) _)
  · refine hgood.of_fresh hevolves hsound (List.Subset.refl _) ?_ ?_
    · rintro source rfl
      exact Nat.le_refl _
    · rintro source object rfl hlive hanswers
      rw [← hcells] at hlive
      have hobject := hlive.unique hself
      obtain ⟨block, list, rfl, hcontent, hcount⟩ := hgood.typed addr _ hobj
      have hnew := hevolves.ref_kept hsound hself
        (show addr ∈ refs (Object.iter2 addr 0 count) from List.mem_cons_self)
        (Nat.ne_of_lt hobj.lt_length) hobj
      rw [hobject]
      refine ⟨block, list, hobj.lt_length, hnew, ?_, hcount, ?_⟩
      · exact hevolves.content_kept hsound hnew List.mem_cons_self hcontent
      · have hanswers' : State.answers ⟨(taken.alloc (.iter2 addr 0 count)).1,
            taken.heap.cells.length ::ₘ s.user, s.log, s.given⟩
              s.store.heap.cells.length = [] := hanswers
        rw [hanswers']
        exact Yielded.start _

theorem dup_good (hgood : Good s) (huser : addr ∈ s.user) :
    ∃ s', step s (.dup addr) = .ok s' ∧ Good s' := by
  obtain ⟨next, hincref, hsound, -, -, hevolves⟩ :=
    incref_store hgood.sound (hgood.sound.balanced.live huser)
  refine ⟨⟨next, addr ::ₘ s.user, s.log, s.given⟩, ?_,
    hgood.of_same_log hevolves hsound⟩
  exact Outcome.bind_ok (lift_ok hincref) _

theorem drop_good (hgood : Good s) (huser : addr ∈ s.user) :
    ∃ s', step s (.drop addr) = .ok s' ∧ Good s' := by
  have hsound := hgood.sound
  rw [← Multiset.cons_erase huser] at hsound
  obtain ⟨next, hdecref, hnext, -, hevolves⟩ := decref_store hsound
  refine ⟨⟨next, s.user.erase addr, s.log, s.given⟩, ?_,
    hgood.of_same_log hevolves hnext⟩
  exact Outcome.bind_ok (lift_ok hdecref) _

/-- A getter of a live object gives what it extracts, and changes nothing. -/
theorem getter_good (hgood : Good s) {object : Object}
    (hobj : ObjAt s.store.heap addr object) {block? : Object → Option Block}
    {block : Block} (hblock : block? object = some block)
    {content : Content} (hcontent : s.store.content? block = some content)
    {extract : Content → Except Fault (List (List UInt8))}
    {value : List (List UInt8)} (hextract : extract content = .ok value)
    (hheld : block ∈ Holds.held object) :
    ∃ s', getter block? extract addr s = .ok (value, s') ∧ Good s' := by
  obtain ⟨taken, hincref, htaken, hsame, -, hevolves₁⟩ :=
    incref_store hgood.sound hobj.live
  have hobj' := (hsame addr object).mpr hobj
  have hcontent' := hevolves₁.content_kept htaken hobj' hheld hcontent
  obtain ⟨final, hdecref, hfinal, -, hevolves₂⟩ := decref_store htaken
  refine ⟨⟨final, s.user, s.log, s.given⟩, ?_,
    hgood.of_same_log (hevolves₁.after hevolves₂) hfinal⟩
  have htake : incref s.store addr = .ok taken := lift_ok hincref
  rw [getter, Outcome.bind_ok htake, Outcome.bind_ok (get_ok hobj'), hblock]
  exact (Outcome.bind_ok (lift_ok (read_of_content hcontent')) _).trans
    ((Outcome.bind_ok hextract _).trans
      (Outcome.bind_ok (lift_ok hdecref) _))

/-- The answer of `next`, and the index it goes on from. -/
theorem next_good_of_put (hgood : Good s) {old : Object} (new : Object)
    (hobj : ObjAt s.store.heap addr old) (entry : Entry)
    (hrefs : refs new = refs old) (hheld : Holds.held new = Holds.held old)
    (hkind : ∀ items count, old ≠ .environ items count)
    (htyped : ∀ store, ObjAt store.heap addr new →
      Evolves (fun source => source = addr) s.store store →
      Sound store s.user 0 →
        Typed ⟨store, s.user, s.log ++ [(addr, some entry)], s.given⟩ addr new) :
    ∃ store, put s.store addr new = .ok store ∧
      Good ⟨store, s.user, s.log ++ [(addr, some entry)], s.given⟩ := by
  obtain ⟨store, hput, hsound, hself, -, hcells, hevolves⟩ :=
    put_store new s.user 0 hgood.sound hobj (by rw [hrefs]) (by rw [hheld])
  refine ⟨store, lift_ok hput, ?_⟩
  refine hgood.evolve hevolves hsound ?_ (List.Subset.refl _) ?_ ?_ ?_
  · intro other hne
    exact answers_append_ne store (some entry) hne
  · intro logged hlogged
    rw [hcells]
    rcases List.mem_append.mp hlogged with hold | hlast
    · exact hgood.logged logged hold
    · rw [List.mem_singleton.mp hlast]
      exact hobj.lt_length
  · rintro environ rfl items count henviron
    exact hkind items count (hobj.unique henviron)
  · rintro source object rfl hlive
    rw [hlive.unique hself]
    exact htyped store hself hevolves hsound

/-- An iterator at its end changes nothing but the log. -/
theorem next_good_of_end (hgood : Good s) {object : Object}
    (hobj : ObjAt s.store.heap addr object)
    (hkind : ∀ items count, object ≠ .environ items count)
    (htyped : Typed { s with log := s.log ++ [(addr, none)] } addr object) :
    Good { s with log := s.log ++ [(addr, none)] } := by
  have hevolves : Evolves (fun source => source = addr) s.store s.store :=
    Evolves.refl _ _
  refine hgood.evolve hevolves hgood.sound ?_ (List.Subset.refl _) ?_ ?_ ?_
  · intro other hne
    exact answers_append_ne s.store none hne
  · intro logged hlogged
    rcases List.mem_append.mp hlogged with hold | hlast
    · exact hgood.logged logged hold
    · rw [List.mem_singleton.mp hlast]
      exact hobj.lt_length
  · rintro environ rfl items count henviron
    exact hkind items count (hobj.unique henviron)
  · rintro source object' rfl hlive
    rw [hlive.unique hobj]
    exact htyped

theorem next_iter_good (hgood : Good s) {items : List AddrInfo} {i : Nat}
    (hobj : ObjAt s.store.heap addr (.iter items i)) :
    ∃ s', next addr s = .ok s' ∧ Good s' := by
  obtain ⟨⟨block, list, hlist, hfreed, hitems⟩, hyielded⟩ :
      Typed s addr (.iter items i) := hgood.typed addr _ hobj
  cases hitem : items[i]? with
  | some info =>
      have hentry : (items.map Entry.info)[i]? = some (.info info) := by
        rw [List.getElem?_map, hitem]
        rfl
      obtain ⟨store, hput, hnext⟩ := next_good_of_put hgood
        (.iter items (i + 1)) hobj (.info info) rfl rfl
        (fun _ _ heq => by cases heq) (by
          intro store _ hevolves _
          rw [Typed, answers_append]
          exact ⟨⟨block, list, hlist, hevolves.freed_kept hfreed, hitems⟩,
            hyielded.next_some hentry⟩)
      refine ⟨_, ?_, hnext⟩
      rw [next, Outcome.bind_ok (get_ok hobj)]
      simp only [hitem]
      exact Outcome.bind_ok hput _
  | none =>
      refine ⟨_, ?_, next_good_of_end hgood hobj
        (fun _ _ heq => by cases heq) ?_⟩
      · rw [next, Outcome.bind_ok (get_ok hobj)]
        simp only [hitem]
      · rw [Typed, answers_append]
        refine ⟨⟨block, list, hlist, hfreed, hitems⟩, hyielded.next_none ?_⟩
        rw [List.length_map]
        exact List.getElem?_eq_none_iff.mp hitem

theorem variableAt_ok {environ : Addr} {block : Block} {count i : Nat}
    {list : List (Name × Name)} {item : Name × Name}
    (henviron : ObjAt s.store.heap environ (.environ (some block) count))
    (hcontent : s.store.content? block = some (.environ list))
    (hitem : list[i]? = some item) :
    variableAt s.store environ i = .ok (.ofItem item) := by
  rw [variableAt, Outcome.bind_ok (get_ok henviron)]
  change (lift (s.store.read block) >>= _) = _
  rw [Outcome.bind_ok (lift_ok (read_of_content hcontent))]
  simp only [hitem]
  exact (Outcome.bind_ok (text_name item.1) _).trans
    (Outcome.bind_ok (text_name item.2) _)

theorem next_iter2_good (hgood : Good s) {environ : Addr} {i count : Nat}
    (hobj : ObjAt s.store.heap addr (.iter2 environ i count)) :
    ∃ s', next addr s = .ok s' ∧ Good s' := by
  obtain ⟨block, list, hlt, henviron, hcontent, rfl, hyielded⟩ :=
    hgood.typed addr _ hobj
  by_cases hi : i < list.length
  · have hitem : list[i]? = some list[i] := List.getElem?_eq_getElem hi
    have hentry : (list.map Entry.ofItem)[i]? = some (.ofItem list[i]) := by
      rw [List.getElem?_map, hitem]
      rfl
    obtain ⟨store, hput, hnext⟩ := next_good_of_put hgood
      (.iter2 environ (i + 1) list.length) hobj (.ofItem list[i]) rfl rfl
      (fun _ _ heq => by cases heq) (by
        intro store hself hevolves hsound
        have hnew := hevolves.ref_kept hsound hself
          (show environ ∈ refs (Object.iter2 environ (i + 1) list.length) from
            List.mem_cons_self) (Nat.ne_of_lt hlt) henviron
        refine ⟨block, list, hlt, hnew, ?_, rfl, ?_⟩
        · exact hevolves.content_kept hsound hnew List.mem_cons_self hcontent
        · rw [answers_append]
          exact hyielded.next_some hentry)
    refine ⟨_, ?_, hnext⟩
    rw [next, Outcome.bind_ok (get_ok hobj)]
    simp only [if_pos hi]
    exact (Outcome.bind_ok (variableAt_ok henviron hcontent hitem) _).trans
      (Outcome.bind_ok hput _)
  · refine ⟨_, ?_, next_good_of_end hgood hobj (fun _ _ heq => by cases heq) ?_⟩
    · rw [next, Outcome.bind_ok (get_ok hobj)]
      simp only [if_neg hi]
    · refine ⟨block, list, hlt, henviron, hcontent, rfl, ?_⟩
      rw [answers_append]
      apply hyielded.next_none
      rw [List.length_map]
      exact Nat.not_lt.mp hi

end Calls

section Results

variable {s : State} {addr : Addr}

theorem getaddrinfoCb_none_good (hgood : Good s) :
    ∃ s', getaddrinfoCb none s = .ok s' ∧ Good s' := by
  have hstart : Sound s.store (↑(refs (Object.results none)) + s.user)
      (↑(Holds.held (Object.results none)) + 0) := by
    simpa [refs, Ownership.drops, Ownership.leaks, Holds.held] using hgood.sound
  obtain ⟨hmade, hself, hevolves₁⟩ := alloc_store hstart
  obtain ⟨final, hdecref, hfinal, -, hevolves₂⟩ := decref_store hmade
  have hevolves := hevolves₁.after hevolves₂
  refine ⟨⟨final, s.user, s.log, s.given⟩, Outcome.bind_ok (lift_ok hdecref) _, ?_⟩
  refine hgood.of_fresh hevolves hfinal (List.Subset.refl _) ?_ ?_
  · rintro source rfl
    exact Nat.le_refl _
  · rintro source object rfl hlive -
    refine absurd (show Live final.heap _ from ⟨object, hlive⟩)
      (hgood.gone hevolves hfinal ?_ (Nat.le_refl _) ?_)
    · rintro source rfl object' hobj'
      rw [(hevolves₂.objects _ _ id hobj').unique hself]
      rfl
    · intro huser
      exact Nat.lt_irrefl _ (hgood.not_fresh huser)

/-- The results are copied into the array of the iterator and given back. -/
theorem getaddrinfoCb_some_good (hgood : Good s) (list : List Node) :
    ∃ s' iterator, getaddrinfoCb (some list) s = .ok s' ∧ Good s' ∧
      s'.user = iterator ::ₘ s.user ∧
      ObjAt s'.store.heap iterator (.iter (list.map Node.info) 0) := by
  have hmalloc := malloc_spec hgood.sound (Content.addrinfo list)
  have hstart : Sound (s.store.malloc (.addrinfo list)).1
      (↑(refs (Object.results (some s.store.blocks.length))) + s.user)
      (↑(Holds.held (Object.results (some s.store.blocks.length))) + 0) := by
    simpa [refs, Ownership.drops, Ownership.leaks, Holds.held] using hmalloc
  obtain ⟨hmade, hself, hevolves₁⟩ := alloc_store hstart
  have hread : ((s.store.malloc (.addrinfo list)).1.alloc
      (.results (some s.store.blocks.length))).1.read s.store.blocks.length =
        .ok (.addrinfo list) := read_of_content content_malloc_self
  obtain ⟨rest, hdecref, hrest, hcells, hevolves₂⟩ := decref_store hmade
  have hlength : rest.heap.cells.length = s.store.heap.cells.length + 1 := by
    rw [hcells]
    simp [Store.alloc, Store.malloc, Heap.alloc]
  have hrest' : Sound rest
      (↑(refs (Object.iter (list.map Node.info) 0)) + s.user)
      (↑(Holds.held (Object.iter (list.map Node.info) 0)) + 0) := by
    simpa [refs, Ownership.drops, Ownership.leaks, Holds.held] using hrest
  obtain ⟨hfinal, hiterator, hevolves₃⟩ := alloc_store hrest'
  have hresults := ((malloc_evolves s.store (Content.addrinfo list)).trans
    hevolves₁).after hevolves₂
  have hevolves : Evolves (fun source =>
      source = s.store.heap.cells.length ∨ source = rest.heap.cells.length)
      s.store (rest.alloc (.iter (list.map Node.info) 0)).1 := by
    apply (hresults.trans hevolves₃).mono
    rintro source ((hfalse | hresult) | hnew)
    · exact hfalse.elim
    · exact Or.inl hresult
    · exact Or.inr hnew
  refine ⟨⟨(rest.alloc (.iter (list.map Node.info) 0)).1,
    rest.heap.cells.length ::ₘ s.user, s.log,
    (rest.heap.cells.length, s.store.blocks.length, list) :: s.given⟩,
    rest.heap.cells.length,
    ?_, ?_, rfl, hiterator⟩
  · exact (Outcome.bind_ok (lift_ok hread) _).trans
      ((Outcome.bind_ok (mapM_load list) _).trans
        (Outcome.bind_ok (lift_ok hdecref) _))
  · have hgone : ∀ object, ¬ ObjAt
        (rest.alloc (.iter (list.map Node.info) 0)).1.heap
          s.store.heap.cells.length object := by
      intro object hlive
      refine hgood.gone hevolves hfinal ?_ (Nat.le_refl _) ?_ ⟨object, hlive⟩
      · rintro source (rfl | rfl) object' hobj'
        · have hrest' := hevolves₃.objects _ _ (by
            rw [hlength]
            exact Nat.ne_of_lt (Nat.lt_succ_self _)) hobj'
          rw [(hevolves₂.objects _ _ id hrest').unique hself]
          rfl
        · rw [hobj'.unique hiterator]
          rfl
      · rw [Multiset.mem_cons, not_or, hlength]
        exact ⟨Nat.ne_of_lt (Nat.lt_succ_self _),
          fun huser => Nat.lt_irrefl _ (hgood.not_fresh huser)⟩
    have hfreed : (rest.alloc (.iter (list.map Node.info) 0)).1.Freed
        s.store.blocks.length := by
      constructor
      · apply Nat.lt_of_lt_of_le _ hevolves₃.blocks_le
        apply Nat.lt_of_lt_of_le _ hevolves₂.blocks_le
        simp [Store.alloc, Store.malloc]
      · cases hcontent :
            (rest.alloc (.iter (list.map Node.info) 0)).1.content?
              s.store.blocks.length with
        | none => rfl
        | some content =>
            rcases hfinal.holder hcontent with
              hnone | ⟨source, object, hobj, hheld⟩
            · cases Multiset.notMem_zero _ hnone
            · exact (hgood.holds_old hevolves (by
                rintro source (rfl | rfl) object' hobj'
                · exact absurd hobj' (hgone object')
                · rw [hobj'.unique hiterator]
                  rfl) hobj hheld).elim
    refine hgood.of_fresh hevolves hfinal (List.subset_cons_self _ _) ?_ ?_
    · rintro source (rfl | rfl)
      · exact Nat.le_refl _
      · rw [hlength]
        exact Nat.le_succ _
    · rintro source object (rfl | rfl) hlive hanswers
      · exact absurd hlive (hgone object)
      · rw [hlive.unique hiterator]
        have hanswers' : State.answers
            ⟨(rest.alloc (.iter (list.map Node.info) 0)).1,
              rest.heap.cells.length ::ₘ s.user, s.log,
              (rest.heap.cells.length, s.store.blocks.length, list) :: s.given⟩
            rest.heap.cells.length = [] := hanswers
        rw [Typed, hanswers']
        exact ⟨⟨_, list, List.mem_cons_self, hfreed, rfl⟩, Yielded.start _⟩

section Getters

variable {block : Block}

theorem username_ok (hgood : Good s) {name : Name} {shell : Option Name}
    (hobj : ObjAt s.store.heap addr (.passwd (some block)))
    (hcontent : s.store.content? block = some (.passwd name shell)) :
    ∃ s', username addr s = .ok ([name.text], s') ∧ Good s' := by
  rw [username]
  apply getter_good hgood hobj rfl hcontent _ List.mem_cons_self
  exact congrArg marshal (Outcome.bind_ok (passwdGetUsername_name name) _)

theorem shell_ok (hgood : Good s) {name : Name} {shell : Option Name}
    (hobj : ObjAt s.store.heap addr (.passwd (some block)))
    (hcontent : s.store.content? block = some (.passwd name shell)) :
    ∃ s', Snapshots.shell addr s =
      .ok ([(shell.map fun name => name.text).getD []], s') ∧ Good s' := by
  rw [Snapshots.shell]
  apply getter_good hgood hobj rfl hcontent _ List.mem_cons_self
  exact congrArg marshal (Outcome.bind_ok (passwdGetShell_name shell) _)

theorem groupName_ok (hgood : Good s) {name : Name} {members : List Name}
    (hobj : ObjAt s.store.heap addr (.group (some block)))
    (hcontent : s.store.content? block = some (.group name members)) :
    ∃ s', groupName addr s = .ok ([name.text], s') ∧ Good s' := by
  rw [groupName]
  apply getter_good hgood hobj rfl hcontent _ List.mem_cons_self
  exact congrArg marshal (Outcome.bind_ok (passwdGetUsername_name name) _)

theorem members_ok (hgood : Good s) {name : Name} {members : List Name}
    (hobj : ObjAt s.store.heap addr (.group (some block)))
    (hcontent : s.store.content? block = some (.group name members)) :
    ∃ s', Snapshots.members addr s =
      .ok (members.map fun name => name.text, s') ∧ Good s' := by
  rw [Snapshots.members]
  apply getter_good hgood hobj rfl hcontent _ List.mem_cons_self
  exact congrArg marshal (groupGetMembers_names members)

end Getters

theorem step_good (hgood : Good s) {label : Label} (hallowed : Allowed s label) :
    ∃ s', step s label = .ok s' ∧ Good s' := by
  cases label with
  | osEnviron answer => exact osEnviron_good hgood answer
  | osGetPasswd answer => exact osGetPasswd_good hgood answer
  | osGetGroup answer => exact osGetGroup_good hgood answer
  | getaddrinfo answer =>
      cases answer with
      | none => exact getaddrinfoCb_none_good hgood
      | some list =>
          obtain ⟨s', _, hrun, hgood', -⟩ := getaddrinfoCb_some_good hgood list
          exact ⟨s', hrun, hgood'⟩
  | iter2 environ =>
      obtain ⟨-, items, count, hobj⟩ := hallowed
      exact iter2_good hgood hobj
  | next iterator =>
      obtain ⟨-, ⟨environ, i, count, hobj⟩ | ⟨items, i, hobj⟩⟩ := hallowed
      · exact next_iter2_good hgood hobj
      · exact next_iter_good hgood hobj
  | username passwd =>
      obtain ⟨-, block?, hobj⟩ := hallowed
      obtain ⟨block, username, shell, rfl, hcontent⟩ := hgood.typed _ _ hobj
      obtain ⟨s', hrun, hgood'⟩ := username_ok hgood hobj hcontent
      exact ⟨s', congrArg (Prod.snd <$> ·) hrun, hgood'⟩
  | shell passwd =>
      obtain ⟨-, block?, hobj⟩ := hallowed
      obtain ⟨block, username, shell, rfl, hcontent⟩ := hgood.typed _ _ hobj
      obtain ⟨s', hrun, hgood'⟩ := shell_ok hgood hobj hcontent
      exact ⟨s', congrArg (Prod.snd <$> ·) hrun, hgood'⟩
  | groupName group =>
      obtain ⟨-, block?, hobj⟩ := hallowed
      obtain ⟨block, groupname, members, rfl, hcontent⟩ := hgood.typed _ _ hobj
      obtain ⟨s', hrun, hgood'⟩ := groupName_ok hgood hobj hcontent
      exact ⟨s', congrArg (Prod.snd <$> ·) hrun, hgood'⟩
  | members group =>
      obtain ⟨-, block?, hobj⟩ := hallowed
      obtain ⟨block, groupname, members, rfl, hcontent⟩ := hgood.typed _ _ hobj
      obtain ⟨s', hrun, hgood'⟩ := members_ok hgood hobj hcontent
      exact ⟨s', congrArg (Prod.snd <$> ·) hrun, hgood'⟩
  | dup object => exact dup_good hgood hallowed
  | drop object => exact drop_good hgood hallowed

end Results

section Runs

variable {s : State} {labels : List Label}

theorem good_empty : Good State.empty where
  sound := Sound.empty
  typed addr object hobj := by
    obtain ⟨rc, hcell⟩ := hobj
    cases hcell
  lost := rfl
  logged entry hentry := by cases hentry

theorem run_good (hadmissible : Admissible Allowed step State.empty labels) :
    ∃ s, run step State.empty labels = .ok s ∧ Good s :=
  run_safe (fun _ _ hgood hallowed => step_good hgood hallowed) good_empty
    hadmissible

theorem good_of_run (hadmissible : Admissible Allowed step State.empty labels)
    (hrun : run step State.empty labels = .ok s) : Good s := by
  obtain ⟨s', hrun', hgood⟩ := run_good hadmissible
  rw [hrun, Except.ok.injEq] at hrun'
  rw [hrun']
  exact hgood

/-- The only references between objects go from an iterator to an environment
that is older. -/
theorem Good.refs_lt (hgood : Good s) {source target : Addr} {object : Object}
    (hobj : ObjAt s.store.heap source object) (htarget : target ∈ refs object) :
    target < source := by
  have htyped := hgood.typed source object hobj
  cases object with
  | iter2 environ i count =>
      obtain ⟨block, list, hlt, -⟩ := htyped
      rw [show refs (Object.iter2 environ i count) = [environ] from rfl,
        List.mem_singleton] at htarget
      rw [htarget]
      exact hlt
  | environ items count => cases htarget
  | results addrinfo => cases htarget
  | passwd passwd => cases htarget
  | group group => cases htarget
  | iter items i => cases htarget

def user : Name where
  text := [85, 83, 69, 82]
  after := []
  noNul := by decide
  short := by decide

/-- The program drops its environment before it asks the iterator. -/
def walk : List Label :=
  [.osEnviron (some [(user, user)]), .iter2 0, .drop 0, .next 1]

theorem walk_run : ∃ s, run step State.empty walk = .ok s ∧ s.user = {1} ∧
    ObjAt s.store.heap 1 (.iter2 0 1 1) :=
  ⟨_, rfl, by decide, _, rfl⟩

theorem walk_admissible : Admissible Allowed step State.empty walk :=
  And.intro trivial
    (And.intro ⟨by decide, _, _, _, rfl⟩
      (And.intro (show 0 ∈ ({1, 0} : Multiset Addr) by decide)
        (And.intro ⟨by decide, Or.inl ⟨_, _, _, _, rfl⟩⟩ trivial)))

/-- An address of one host, and the iterator that is asked twice for it. -/
def lookup : List Label :=
  [.getaddrinfo (some [⟨2, 1, 6, [127, 0, 0, 1], none⟩]), .next 1, .next 1]

theorem lookup_run : ∃ s, run step State.empty lookup = .ok s ∧
    ∃ items, ObjAt s.store.heap 1 (.iter items 1) :=
  ⟨_, rfl, _, _, rfl⟩

theorem lookup_admissible : Admissible Allowed step State.empty lookup :=
  And.intro trivial
    (And.intro ⟨by decide, Or.inr ⟨_, _, _, rfl⟩⟩
      (And.intro ⟨by decide, Or.inr ⟨_, _, _, rfl⟩⟩ trivial))

/-- No run of allowed calls touches memory of libuv that was given back, or
gives it back again.  What is allocated has exactly one object that holds it,
and nothing is allocated once the program has dropped all it had. -/
theorem memory_safe
    (hadmissible : Admissible Allowed step State.empty labels) :
    ∃ s, run step State.empty labels = .ok s ∧
      (∀ block, (heldBlocks s.store.heap).count block =
        if (s.store.content? block).isSome then 1 else 0) ∧
      (s.user = 0 → ∀ block, s.store.content? block = none) := by
  obtain ⟨s, hrun, hgood⟩ := run_good hadmissible
  refine ⟨s, hrun, ?_, ?_⟩
  · intro block
    rw [← hgood.sound.counted block, Multiset.count_zero, Nat.zero_add]
  · intro huser
    have hsound := hgood.sound
    rw [huser] at hsound
    exact hsound.all_freed hgood.lost id fun source object hobj target htarget =>
      hgood.refs_lt hobj htarget

theorem memory_safe_walk : ∃ s,
    run step State.empty (walk ++ [.drop 1]) = .ok s ∧
      ∀ block, s.store.content? block = none := by
  obtain ⟨middle, hwalk, hmiddle, -⟩ := walk_run
  have hdrop : Admissible Allowed step middle [.drop 1] := by
    refine And.intro ?_ ?_
    · rw [Allowed, hmiddle]
      decide
    · cases step middle (.drop 1) <;> trivial
  obtain ⟨s, hrun, -, hfreed⟩ := memory_safe (walk_admissible.append hwalk hdrop)
  refine ⟨s, hrun, hfreed ?_⟩
  cases hrun
  decide

/-- An iterator of an environment keeps it alive: whatever else was called, its
answers are the variables in order, each one once, and then nothing. -/
theorem iter2_answers {iterator environ : Addr} {i count : Nat}
    (hadmissible : Admissible Allowed step State.empty labels)
    (hrun : run step State.empty labels = .ok s)
    (hiterator : ObjAt s.store.heap iterator (.iter2 environ i count)) :
    ∃ block list,
      ObjAt s.store.heap environ (.environ (some block) list.length) ∧
      s.store.content? block = some (.environ list) ∧
      s.answers iterator = (List.range (s.answers iterator).length).map
        fun call => list[call]?.map Entry.ofItem := by
  obtain ⟨block, list, -, henviron, hcontent, rfl, hyielded⟩ :=
    (good_of_run hadmissible hrun).typed _ _ hiterator
  refine ⟨block, list, henviron, hcontent, hyielded.answers_eq.trans ?_⟩
  simp only [List.getElem?_map]

theorem iter2_answers_walk : ∃ s, run step State.empty walk = .ok s ∧
    ∃ list : List (Name × Name),
      s.answers 1 = (List.range (s.answers 1).length).map
        fun call => list[call]?.map Entry.ofItem := by
  obtain ⟨s, hrun, -, hiterator⟩ := walk_run
  obtain ⟨_, list, -, -, hanswers⟩ :=
    iter2_answers walk_admissible hrun hiterator
  exact ⟨s, hrun, list, hanswers⟩

/-- The answers of an iterator of `getaddrinfo` are the nodes of the list that
libuv has given to it, and the list is given back as soon as there is an
iterator to ask. -/
theorem getaddrinfo_answers {iterator : Addr} {items : List AddrInfo} {i : Nat}
    (hadmissible : Admissible Allowed step State.empty labels)
    (hrun : run step State.empty labels = .ok s)
    (hiterator : ObjAt s.store.heap iterator (.iter items i)) :
    ∃ block list, (iterator, block, list) ∈ s.given ∧ s.store.Freed block ∧
      s.answers iterator = (List.range (s.answers iterator).length).map
        fun call => list[call]?.map fun node => .info node.info := by
  obtain ⟨⟨block, list, hlist, hfreed, rfl⟩, hyielded⟩ :=
    (good_of_run hadmissible hrun).typed _ _ hiterator
  refine ⟨block, list, hlist, hfreed, hyielded.answers_eq.trans ?_⟩
  simp only [List.getElem?_map, Option.map_map]
  rfl

theorem getaddrinfo_answers_lookup :
    ∃ s, run step State.empty lookup = .ok s ∧
      ∃ block list, (1, block, list) ∈ s.given ∧ s.store.Freed block ∧
        s.answers 1 = (List.range (s.answers 1).length).map
          fun call => list[call]?.map fun node => .info node.info := by
  obtain ⟨s, hrun, items, hiterator⟩ := lookup_run
  exact ⟨s, hrun, getaddrinfo_answers lookup_admissible hrun hiterator⟩

end Runs

end UvMbt.Snapshots
