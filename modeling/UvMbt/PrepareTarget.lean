/-
What a run of `configure` leaves in the target, as a function of the tree, the
listed sources and what was there before.
-/
import UvMbt.PrepareConfigure
import Mathlib.Data.Char
import Mathlib.Data.List.Lex
import Mathlib.Data.Finset.Sort

set_option autoImplicit false

namespace UvMbt.Prepare

/-- `copied.suffix == ".c"`. -/
def isC (name : Name) : Bool := ".c".toList.isSuffixOf name && 2 < name.length

/-- The `native-stub` list of `update_moon_pkg_json`. -/
def nativeStubs (copied : Finset Name) : List Name :=
  (copied.filter fun name => isC name).sort ++ ["uv.c".toList]

namespace Project

variable {project : Project} {sources : Sources} {s t : State}

theorem lookup_of_mem {source : SourcePath} {condition : Option Text}
    (hdistinct : (sources.map Prod.fst).Nodup)
    (hmem : (source, condition) ∈ sources) :
    sources.lookup source = some condition := by
  induction sources with
  | nil => cases hmem
  | cons entry rest ih =>
      rw [List.map_cons, List.nodup_cons] at hdistinct
      rw [List.lookup_cons]
      rcases List.mem_cons.mp hmem with heq | htail
      · rw [← heq, beq_self_eq_true]
      · have hne : source ≠ entry.1 := by
          rintro rfl
          exact hdistinct.1 (List.mem_map.mpr ⟨_, htail, rfl⟩)
        rw [beq_false_of_ne hne]
        exact ih hdistinct.2 htail

theorem lookup_perm {sources' : Sources} (hperm : sources.Perm sources')
    (hdistinct : (sources.map Prod.fst).Nodup) (source : SourcePath) :
    sources.lookup source = sources'.lookup source := by
  have hdistinct' : (sources'.map Prod.fst).Nodup :=
    (hperm.map Prod.fst).nodup_iff.mp hdistinct
  cases hleft : sources.lookup source with
  | some condition =>
      have hmem := hperm.mem_iff.mp (mem_of_lookup hleft)
      exact (lookup_of_mem hdistinct' hmem).symm
  | none =>
      cases hright : sources'.lookup source with
      | none => rfl
      | some condition =>
          have hmem := hperm.mem_iff.mpr (mem_of_lookup hright)
          rw [lookup_of_mem hdistinct hmem] at hleft
          cases hleft

theorem mem_of_lookup_none {source : SourcePath}
    (hnone : sources.lookup source = none) (condition : Option Text) :
    (source, condition) ∉ sources := by
  intro hmem
  rw [List.lookup_eq_none_iff] at hnone
  have hne := hnone (source, condition) hmem
  rw [bne_self_eq_false] at hne
  cases hne

theorem reached_perm {sources' : Sources} (hperm : sources.Perm sources')
    (source : SourcePath) :
    project.Reached sources source ↔ project.Reached sources' source := by
  have hroots : (fun source => source ∈ sources.map Prod.fst) =
      fun source => source ∈ sources'.map Prod.fst := by
    funext source
    exact propext (hperm.map Prod.fst).mem_iff
  rw [Reached, Reached, hroots]

/-- A run of `configure` reaches its end, or stops at a file it cannot read. -/
theorem configure_spec {fuel : Nat} (hsettled : project.Settled sources s)
    (hdistinct : (sources.map Prod.fst).Nodup)
    (hfuel : project.tree.files.length < fuel) :
    Outcome.Meets (project.Configured sources s sources)
      (fun _ => ∃ source, project.Reached sources source ∧
        ¬ project.Readable source)
      (project.configure fuel sources s) := by
  apply Outcome.meets_foldlM (Configured.start hsettled)
  intro seen entry rest t hsplit hconfigured
  apply (copy_spec fuel entry.1 true entry.2 t).mono
  · intro t' hcopied
    exact hconfigured.step hdistinct hsplit hcopied
  · intro error hblame
    rcases hblame with ⟨-, hlimit⟩ | ⟨resolved, hreaches, hunreadable⟩
    · have hmissing : project.missing t ≤ project.tree.files.length :=
        List.countP_le_length
      exact absurd hlimit (Nat.not_le.mpr (Nat.lt_of_le_of_lt hmissing hfuel))
    · refine ⟨resolved, ?_, hunreadable⟩
      have hroot : project.Reached sources entry.1 := by
        apply Reach.From.root
        rw [hsplit, List.map_append, List.map_cons]
        exact List.mem_append_right _ List.mem_cons_self
      exact hroot.trans hreaches

/-- What a run leaves of a reached file. -/
def Finished (project : Project) (sources : Sources) (t : State)
    (source : SourcePath) : Prop :=
  project.Complete false none t source ∨
    ∃ condition, (source, condition) ∈ sources ∧
      project.Complete true condition t source

theorem Finished.readable {source : SourcePath}
    (hfinished : project.Finished sources t source) : project.Readable source := by
  rcases hfinished with hheader | ⟨condition, -, hlisted⟩
  · exact hheader.readable
  · exact hlisted.readable

theorem Finished.has {source : SourcePath}
    (hfinished : project.Finished sources t source) :
    t.has (project.mangle source) = true := by
  rcases hfinished with hheader | ⟨condition, -, hlisted⟩
  · exact hheader.has
  · exact hlisted.has

theorem Finished.expanded {source resolved : SourcePath}
    (hfinished : project.Finished sources t source)
    (hincludes : project.Includes source resolved) :
    t.has (project.mangle resolved) = true := by
  rcases hfinished with hheader | ⟨condition, -, hlisted⟩
  · exact hheader.expanded resolved hincludes
  · exact hlisted.expanded resolved hincludes

/-- The finished copies hold the listed sources and are closed under
inclusion. -/
theorem Configured.finished
    (hconfigured : project.Configured sources s sources t) {source : SourcePath}
    (hreached : project.Reached sources source) :
    project.Finished sources t source := by
  apply Reach.From.mem_of_closed _ _ hreached
  · intro root hroot
    obtain ⟨entry, hentry, rfl⟩ := List.mem_map.mp hroot
    exact Or.inr ⟨entry.2, hentry, hconfigured.done entry hentry⟩
  · intro node next hnode hincludes
    exact hconfigured.settled next (exists_of_includes hincludes)
      (hnode.expanded hincludes)

theorem Configured.target_reached
    (hconfigured : project.Configured sources s sources t) {source : SourcePath}
    {content : Text} (hreached : project.Reached sources source)
    (hread : project.tree.read source = .ok content) :
    t.target (project.mangle source) =
      some (project.final sources source content) := by
  rw [final]
  cases hlookup : sources.lookup source with
  | some condition =>
      have hdone := hconfigured.done (source, condition) (mem_of_lookup hlookup)
      exact hdone.text content hread
  | none =>
      rcases hconfigured.finished hreached with hheader | ⟨condition, hmem, -⟩
      · exact hheader.text content hread
      · exact absurd hmem (mem_of_lookup_none hlookup condition)

theorem Configured.target_other
    (hconfigured : project.Configured sources s sources t) {name : Name}
    (hother : ∀ source, project.Reached sources source →
      name ≠ project.mangle source) : t.target name = s.target name := by
  cases hs : s.has name with
  | true =>
      apply hconfigured.kept name hs
      intro entry hentry
      exact hother entry.1 (Reach.From.root (List.mem_map_of_mem hentry))
  | false =>
      cases ht : t.has name with
      | true =>
          obtain ⟨source, hname, hreached⟩ := hconfigured.added name hs ht
          exact absurd hname (hother source hreached)
      | false => rw [State.target_eq_none hs, State.target_eq_none ht]

theorem Configured.mem_copied
    (hconfigured : project.Configured sources s sources t) (name : Name) :
    name ∈ t.copied ↔ name ∈ s.copied ∨
      (∃ source ∈ sources.map Prod.fst, name = project.mangle source) ∨
      (s.has name = false ∧ ∃ source, project.Reached sources source ∧
        name = project.mangle source) := by
  rw [hconfigured.listed name]
  apply or_congr_right
  apply or_congr
  · constructor
    · rintro ⟨entry, hentry, heq⟩
      exact ⟨entry.1, List.mem_map_of_mem hentry, heq⟩
    · rintro ⟨source, hsource, heq⟩
      obtain ⟨entry, hentry, rfl⟩ := List.mem_map.mp hsource
      exact ⟨entry, hentry, heq⟩
  · apply and_congr_right
    intro habsent
    constructor
    · intro hpresent
      obtain ⟨source, hname, hreached⟩ := hconfigured.added name habsent hpresent
      exact ⟨source, hreached, hname⟩
    · rintro ⟨source, hreached, rfl⟩
      exact (hconfigured.finished hreached).has

section Runs

variable {project : Project} {sources : Sources} {fuel : Nat} {s t : State}

/-- What `condition` puts before the content. -/
def opening : Option Text → Text
  | none => []
  | some condition => "#if ".toList ++ (condition ++ ['\n'])

/-- What it puts behind it. -/
def closing : Option Text → Text
  | none => []
  | some _ => "\n#endif\n".toList

/-- The defines, when they are asked for. -/
def definesWhen (prepareDefines : Bool) : Text :=
  if prepareDefines then defines else []

theorem scan_input (prepareDefines : Bool) (content : Text) :
    scan (input prepareDefines content) =
      (definesWhen prepareDefines).map Piece.char ++ scan content := by
  cases prepareDefines with
  | false => rfl
  | true => exact scan_inert inert_defines content

theorem scan_if {condition : Text} (hhash : '#' ∉ condition) (content : Text) :
    scan ("#if ".toList ++ (condition ++ ['\n']) ++ content) =
      ("#if ".toList ++ (condition ++ ['\n'])).map Piece.char ++ scan content := by
  apply scan_inert
  have hrest : '#' ∉ condition ++ ['\n'] := by
    rw [List.mem_append, not_or]
    exact ⟨hhash, by decide⟩
  have hif : inert ("#if ".toList ++ (condition ++ ['\n'])) =
      inert (condition ++ ['\n']) := rfl
  rw [hif]
  exact inert_of_not_mem hrest

theorem written_none (source : SourcePath) (prepareDefines : Bool)
    (content : Text) : project.written source prepareDefines none content =
      substitute (project.newHeader source) (input prepareDefines content) := rfl

theorem written_some (source : SourcePath) (prepareDefines : Bool)
    (condition content : Text) :
    project.written source prepareDefines (some condition) content =
      conditioned condition (substitute (project.newHeader source)
        (input prepareDefines content)) := rfl

theorem conditioned_eq (condition content : Text) :
    conditioned condition content =
      "#if ".toList ++ (condition ++ ['\n']) ++
        (content ++ "\n#endif\n".toList) := by
  change "#if ".toList ++ condition ++ ['\n'] ++ content ++
    "\n#endif\n".toList = _
  simp only [List.append_assoc]

theorem newline_hash_endif :
    "\n#endif\n".toList = '\n' :: '#' :: "endif\n".toList := by decide

theorem scan_substituted (source : SourcePath) (prepareDefines : Bool)
    (content : Text) :
    scan (substitute (project.newHeader source) (input prepareDefines content)) =
      (definesWhen prepareDefines).map Piece.char ++
        (scan content).map (Piece.mapHeader (project.newHeader source)) := by
  have hchars : ∀ text : Text, (text.map Piece.char).map
      (Piece.mapHeader (project.newHeader source)) = text.map Piece.char := by
    intro text
    rw [List.map_map]
    rfl
  rw [scan_substitute (fun header => clean_newHeader source), scan_input,
    List.map_append, hchars]

theorem scan_conditioned {condition : Text} (hhash : '#' ∉ condition)
    (content : Text) : scan (conditioned condition content) =
      (opening (some condition)).map Piece.char ++
        (scan content ++ (closing (some condition)).map Piece.char) := by
  have hclosing : scan "\n#endif\n".toList =
      "\n#endif\n".toList.map Piece.char := by decide
  have hback := scan_newline_hash content "endif\n".toList
  rw [← newline_hash_endif, hclosing] at hback
  rw [conditioned_eq, scan_if hhash, hback]
  rfl

/-- The directives of a copy are those of its source, at the same places and
with the new headers; everything else is the source's text. -/
theorem scan_written (source : SourcePath) (prepareDefines : Bool)
    {condition : Option Text} (hhash : ∀ text, condition = some text → '#' ∉ text)
    (content : Text) :
    scan (project.written source prepareDefines condition content) =
      (opening condition).map Piece.char ++
        ((definesWhen prepareDefines).map Piece.char ++
          (scan content).map (Piece.mapHeader (project.newHeader source)) ++
          (closing condition).map Piece.char) := by
  cases condition with
  | none =>
      rw [written_none, scan_substituted]
      exact (List.append_nil _).symm
  | some condition =>
      rw [written_some, scan_conditioned (hhash condition rfl), scan_substituted]

end Runs

end Project

end UvMbt.Prepare
