/-
The results about whole runs of `scripts/prepare.py`: when one succeeds, what
it leaves, that the order of the sources does not matter, that a second run
changes nothing, and that no relocated include is left dangling.
-/
import UvMbt.PrepareTarget

set_option autoImplicit false

namespace UvMbt.Prepare

/-- Two files that include each other, one of them also a header that is not
in the tree, and a third that includes one of them. -/
def circle : Project where
  source := ["r".toList]
  tree := {
    files := [(["a.c".toList], "#include \"b.h\"\n".toList),
      (["b.h".toList], "# include \"a.c\"\n#include \"./z.h\"\n".toList),
      (["d.c".toList], "#include \"b.h\"\n".toList)]
    directories := [[]]
    plain_files := by decide
    plain_directories := by decide }
  includes := []
  prefixName := "uv".toList
  clean_prefixName := by decide
  name_prefixName := by decide

def circleSources : Sources := [(["d.c".toList], none),
  (["a.c".toList], some "defined(_WIN32)".toList)]

/-- The same sources the other way round. -/
def circleSwapped : Sources := [(["a.c".toList], some "defined(_WIN32)".toList),
  (["d.c".toList], none)]

/-- An empty target directory. -/
def emptyTarget : State where
  target _ := none
  copied := ∅

theorem settled_emptyTarget (project : Project) (sources : Sources) :
    project.Settled sources emptyTarget :=
  Project.Settled.of_fresh fun _ _ => rfl

set_option maxRecDepth 10000 in
theorem circle_isOk :
    (circle.configure 4 circleSources emptyTarget).toOption.isSome = true := by
  decide +kernel

theorem circle_run :
    ∃ t, circle.configure 4 circleSources emptyTarget = .ok t := by
  have hok := circle_isOk
  cases hrun : circle.configure 4 circleSources emptyTarget with
  | ok t => exact ⟨t, rfl⟩
  | error error =>
      rw [hrun] at hok
      cases hok

namespace Project

variable {project : Project} {sources sources' : Sources} {fuel fuel' : Nat}
  {s t : State}

theorem configured_of_ok (hsettled : project.Settled sources s)
    (hdistinct : (sources.map Prod.fst).Nodup)
    (hfuel : project.tree.files.length < fuel)
    (hrun : project.configure fuel sources s = .ok t) :
    project.Configured sources s sources t := by
  have hspec := configure_spec hsettled hdistinct hfuel
  rw [hrun] at hspec
  exact hspec

theorem ok_of_readable (hsettled : project.Settled sources s)
    (hdistinct : (sources.map Prod.fst).Nodup)
    (hfuel : project.tree.files.length < fuel)
    (hreadable : ∀ source, project.Reached sources source →
      project.Readable source) :
    ∃ t, project.configure fuel sources s = .ok t := by
  have hspec := configure_spec hsettled hdistinct hfuel
  cases hrun : project.configure fuel sources s with
  | ok t => exact ⟨t, rfl⟩
  | error error =>
      rw [hrun] at hspec
      obtain ⟨source, hreached, hunreadable⟩ := hspec
      exact absurd (hreadable source hreached) hunreadable

/-- Two runs that agree on what they leave end in the same state. -/
theorem state_eq_of_configured {s' t' : State}
    (hleft : project.Configured sources s sources t)
    (hright : project.Configured sources' s' sources' t')
    (hreached : ∀ source, project.Reached sources source ↔
      project.Reached sources' source)
    (hlookup : ∀ source, sources.lookup source = sources'.lookup source)
    (htarget : ∀ name, (∀ source, project.Reached sources source →
      name ≠ project.mangle source) → s.target name = s'.target name)
    (hcopied : t.copied = t'.copied) : t = t' := by
  have hsame : t.target = t'.target := by
    funext name
    by_cases hname : ∃ source, project.Reached sources source ∧
        name = project.mangle source
    · obtain ⟨source, hsource, rfl⟩ := hname
      obtain ⟨content, hread, -⟩ := (hleft.finished hsource).readable
      rw [hleft.target_reached hsource hread,
        hright.target_reached ((hreached source).mp hsource) hread, final, final,
        hlookup source]
    · have hother : ∀ source, project.Reached sources source →
          name ≠ project.mangle source := by
        intro source hsource heq
        exact hname ⟨source, hsource, heq⟩
      rw [hleft.target_other hother, htarget name hother, hright.target_other]
      intro source hsource
      exact hother source ((hreached source).mpr hsource)
  cases t
  cases t'
  rw [State.mk.injEq]
  exact ⟨hsame, hcopied⟩

end Project

namespace Project

/-- What a run puts before the content of a file of the tree. -/
def front (sources : Sources) (source : SourcePath) : Text :=
  match sources.lookup source with
  | some condition => opening condition ++ defines
  | none => []

/-- What it puts behind it. -/
def back (sources : Sources) (source : SourcePath) : Text :=
  match sources.lookup source with
  | some condition => closing condition
  | none => []

theorem scan_final {project : Project} {sources : Sources}
    {source : SourcePath} (hhash : ∀ condition,
      sources.lookup source = some condition →
        ∀ text, condition = some text → '#' ∉ text) (content : Text) :
    scan (project.final sources source content) =
      (front sources source).map Piece.char ++
        (scan content).map (Piece.mapHeader (project.newHeader source)) ++
        (back sources source).map Piece.char := by
  rw [final, front, back]
  cases hlookup : sources.lookup source with
  | some condition =>
      change scan (project.written source true condition content) =
        (opening condition ++ defines).map Piece.char ++ _ ++ _
      rw [scan_written source true (hhash condition hlookup), List.map_append]
      simp only [List.append_assoc]
      rfl
  | none =>
      change scan (project.written source false none content) = _
      rw [scan_written source false (fun text heq => by cases heq)]
      rfl

end Project

/-- The order of the listed sources changes nothing: not whether the run ends,
not what it leaves. -/
theorem configure_perm {project : Project} {sources sources' : Sources}
    {fuel fuel' : Nat} {s t : State} (hsettled : project.Settled sources s)
    (hdistinct : (sources.map Prod.fst).Nodup)
    (hfuel : project.tree.files.length < fuel)
    (hfuel' : project.tree.files.length < fuel')
    (hperm : sources.Perm sources')
    (hrun : project.configure fuel sources s = .ok t) :
    project.configure fuel' sources' s = .ok t := by
  have hsettled' : project.Settled sources' s := by
    intro source hexists hpresent
    rcases hsettled source hexists hpresent with
      hheader | ⟨condition, hmem, hlisted⟩
    · exact Or.inl hheader
    · exact Or.inr ⟨condition, hperm.mem_iff.mp hmem, hlisted⟩
  have hdistinct' : (sources'.map Prod.fst).Nodup :=
    (hperm.map Prod.fst).nodup_iff.mp hdistinct
  have hreached : ∀ source, project.Reached sources source ↔
      project.Reached sources' source := Project.reached_perm hperm
  have hleft := Project.configured_of_ok hsettled hdistinct hfuel hrun
  obtain ⟨t', hrun'⟩ := Project.ok_of_readable hsettled' hdistinct' hfuel'
    (fun source hsource =>
      (hleft.finished ((hreached source).mpr hsource)).readable)
  have hright := Project.configured_of_ok hsettled' hdistinct' hfuel' hrun'
  rw [hrun']
  congr 1
  symm
  apply Project.state_eq_of_configured hleft hright hreached
    (Project.lookup_perm hperm hdistinct) (fun name _ => rfl)
  apply Finset.ext
  intro name
  rw [hleft.mem_copied, hright.mem_copied]
  apply or_congr_right
  apply or_congr
  · apply exists_congr
    intro source
    rw [(hperm.map Prod.fst).mem_iff]
  · apply and_congr_right
    intro _
    apply exists_congr
    intro source
    rw [hreached source]

theorem configure_perm_circle : ∃ t,
    circle.configure 4 circleSources emptyTarget = .ok t ∧
      circle.configure 5 circleSwapped emptyTarget = .ok t := by
  obtain ⟨t, hrun⟩ := circle_run
  exact ⟨t, hrun, configure_perm (settled_emptyTarget circle circleSources)
    (by decide) (by decide) (by decide) (List.Perm.swap _ _ _) hrun⟩

/-- A second run over what the first left changes nothing. -/
theorem configure_again {project : Project} {sources : Sources} {fuel : Nat}
    {s t : State} (hsettled : project.Settled sources s)
    (hdistinct : (sources.map Prod.fst).Nodup)
    (hfuel : project.tree.files.length < fuel)
    (hrun : project.configure fuel sources s = .ok t) :
    project.configure fuel sources t = .ok t := by
  have hfirst := Project.configured_of_ok hsettled hdistinct hfuel hrun
  obtain ⟨t', hrun'⟩ := Project.ok_of_readable hfirst.settled hdistinct hfuel
    (fun source hsource => (hfirst.finished hsource).readable)
  have hsecond := Project.configured_of_ok hfirst.settled hdistinct hfuel hrun'
  rw [hrun']
  congr 1
  symm
  apply Project.state_eq_of_configured hfirst hsecond (fun source => Iff.rfl)
    (fun source => rfl)
  · intro name hother
    exact (hfirst.target_other hother).symm
  · apply Finset.ext
    intro name
    rw [hsecond.mem_copied]
    constructor
    · exact Or.inl
    · rintro (hmem | hroot | ⟨habsent, source, hsource, rfl⟩)
      · exact hmem
      · rw [hfirst.mem_copied]
        exact Or.inr (Or.inl hroot)
      · rw [(hfirst.finished hsource).has] at habsent
        cases habsent

theorem configure_again_circle : ∃ t,
    circle.configure 4 circleSources emptyTarget = .ok t ∧
      circle.configure 4 circleSources t = .ok t := by
  obtain ⟨t, hrun⟩ := circle_run
  exact ⟨t, hrun, configure_again (settled_emptyTarget circle circleSources)
    (by decide) (by decide) hrun⟩

/-- The stubs a run lists: the copies of the C files it reached, in order and
each once, then `uv.c`. -/
theorem nativeStubs_configure {project : Project} {sources : Sources}
    {fuel : Nat} {s t : State} (hsettled : project.Settled sources s)
    (hdistinct : (sources.map Prod.fst).Nodup)
    (hfuel : project.tree.files.length < fuel)
    (hempty : s.copied = ∅) (hnone : ∀ name, s.has name = false)
    (hrun : project.configure fuel sources s = .ok t) :
    ∃ stubs, nativeStubs t.copied = stubs ++ ["uv.c".toList] ∧
      stubs.Pairwise (· < ·) ∧
      ∀ name, name ∈ stubs ↔ isC name = true ∧
        ∃ source, project.Reached sources source ∧
          name = project.mangle source := by
  have hconfigured := Project.configured_of_ok hsettled hdistinct hfuel hrun
  refine ⟨_, rfl, (Finset.sortedLT_sort _).pairwise, ?_⟩
  intro name
  rw [Finset.mem_sort, Finset.mem_filter, and_comm, hconfigured.mem_copied,
    hempty, hnone]
  apply and_congr_right
  intro _
  constructor
  · rintro (hmem | ⟨source, hsource, rfl⟩ | ⟨-, hsome⟩)
    · exact absurd hmem (Finset.notMem_empty name)
    · exact ⟨source, Reach.From.root hsource, rfl⟩
    · exact hsome
  · intro hsome
    exact Or.inr (Or.inr ⟨rfl, hsome⟩)

theorem nativeStubs_configure_circle : ∃ t stubs,
    circle.configure 4 circleSources emptyTarget = .ok t ∧
      nativeStubs t.copied = stubs ++ ["uv.c".toList] ∧
      stubs.Pairwise (· < ·) ∧
      "uv#a.c".toList ∈ stubs ∧ "uv#d.c".toList ∈ stubs := by
  obtain ⟨t, hrun⟩ := circle_run
  obtain ⟨stubs, hstubs, hsorted, hmem⟩ := nativeStubs_configure
    (settled_emptyTarget circle circleSources) (by decide) (by decide) rfl
    (fun name => rfl) hrun
  refine ⟨t, stubs, hrun, hstubs, hsorted, ?_, ?_⟩
  · exact (hmem _).mpr ⟨by decide, ["a.c".toList],
      Reach.From.root (by decide), by decide⟩
  · exact (hmem _).mpr ⟨by decide, ["d.c".toList],
      Reach.From.root (by decide), by decide⟩

end UvMbt.Prepare
