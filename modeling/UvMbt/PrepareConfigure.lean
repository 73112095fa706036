/-
Whole runs of `configure`.  The target is closed: a copy of the tree in it has
beside it the copies of all it includes.  From that what a run leaves is known,
whatever the order of the listed sources.
-/
import UvMbt.PrepareClosure
import Mathlib.Data.List.Nodup

set_option autoImplicit false

namespace UvMbt.Prepare

namespace Project

variable (project : Project)

/-- What the listed sources include, at any depth, and they themselves. -/
def Reached (sources : Sources) : SourcePath → Prop :=
  Reach.From project.Includes fun source => source ∈ sources.map Prod.fst

/-- Every copy of the tree in the target is finished, in one of the two forms
`copy` gives it. -/
def Settled (sources : Sources) (s : State) : Prop :=
  ∀ source, project.tree.exists? source = true →
    s.has (project.mangle source) = true →
      project.Complete false none s source ∨
        ∃ condition, (source, condition) ∈ sources ∧
          project.Complete true condition s source

/-- The text a run leaves for a file of the tree. -/
def final (sources : Sources) (source : SourcePath) (content : Text) : Text :=
  match sources.lookup source with
  | some condition => project.written source true condition content
  | none => project.written source false none content

/-- After the sources in `seen`. -/
structure Configured (sources : Sources) (s : State) (seen : Sources)
    (t : State) : Prop where
  settled : project.Settled sources t
  done : ∀ entry ∈ seen, project.Complete true entry.2 t entry.1
  kept : ∀ name, s.has name = true →
    (∀ entry ∈ sources, name ≠ project.mangle entry.1) →
      t.target name = s.target name
  has : ∀ name, s.has name = true → t.has name = true
  added : ∀ name, s.has name = false → t.has name = true →
    ∃ source, name = project.mangle source ∧ project.Reached sources source
  listed : ∀ name, name ∈ t.copied ↔ name ∈ s.copied ∨
    (∃ entry ∈ seen, name = project.mangle entry.1) ∨
      (s.has name = false ∧ t.has name = true)

variable {project} {sources seen : Sources} {s t t' : State}

/-- A target without copies of the tree. -/
theorem Settled.of_fresh (hfresh : ∀ source,
    project.tree.exists? source = true →
      s.has (project.mangle source) = false) : project.Settled sources s := by
  intro source hexists hpresent
  rw [hfresh source hexists] at hpresent
  cases hpresent

theorem Configured.start (hsettled : project.Settled sources s) :
    project.Configured sources s [] s where
  settled := hsettled
  done entry hentry := by cases hentry
  kept name _ _ := rfl
  has name hname := hname
  added name habsent hpresent := by
    rw [habsent] at hpresent
    cases hpresent
  listed name := by
    constructor
    · exact Or.inl
    · rintro (hmem | ⟨entry, hentry, -⟩ | ⟨habsent, hpresent⟩)
      · exact hmem
      · cases hentry
      · rw [habsent] at hpresent
        cases hpresent

/-- One call of `copy` keeps the target closed. -/
theorem Settled.copied {item : SourcePath} {condition : Option Text}
    (hsettled : project.Settled sources t) (hitem : (item, condition) ∈ sources)
    (hcopied : project.Copied item true condition t t') :
    project.Settled sources t' := by
  intro source hexists hpresent
  by_cases hsame : source = item
  · right
    rw [hsame]
    exact ⟨condition, hitem, hcopied.complete⟩
  · cases ht : t.has (project.mangle source) with
    | true =>
        rcases hsettled source hexists ht with
          hheader | ⟨condition', hmem, hlisted⟩
        · exact Or.inl (hcopied.complete_other hheader hsame)
        · exact Or.inr ⟨condition', hmem,
            hcopied.complete_other hlisted hsame⟩
    | false =>
        left
        have hne : project.mangle source ≠ project.mangle item := by
          intro heq
          exact hsame (mangle_inj_of_exists hexists
            hcopied.complete.readable.exists heq)
        obtain ⟨resolved, hname, -, hcomplete⟩ :=
          hcopied.added (project.mangle source) hne ht hpresent
        rw [mangle_inj_of_exists hexists hcomplete.readable.exists hname]
        exact hcomplete

theorem Configured.step {entry : SourcePath × Option Text} {rest : Sources}
    (hdistinct : (sources.map Prod.fst).Nodup)
    (hsplit : sources = seen ++ entry :: rest)
    (hconfigured : project.Configured sources s seen t)
    (hcopied : project.Copied entry.1 true entry.2 t t') :
    project.Configured sources s (seen ++ [entry]) t' where
  settled := by
    apply hconfigured.settled.copied _ hcopied
    rw [hsplit]
    exact List.mem_append_right seen List.mem_cons_self
  done other hother := by
    rcases List.mem_append.mp hother with hseen | hlast
    · apply hcopied.complete_other (hconfigured.done other hseen)
      intro hsame
      rw [hsplit, List.map_append, List.nodup_append] at hdistinct
      exact hdistinct.2.2 other.1 (List.mem_map_of_mem hseen) entry.1
        (List.mem_map_of_mem List.mem_cons_self) hsame
    · rw [List.mem_singleton.mp hlast]
      exact hcopied.complete
  kept name hname hnot := by
    have hentry : entry ∈ sources := by
      rw [hsplit]
      exact List.mem_append_right seen List.mem_cons_self
    rw [hcopied.kept name (hnot entry hentry) (hconfigured.has name hname),
      hconfigured.kept name hname hnot]
  has name hname := hcopied.has name (hconfigured.has name hname)
  added name habsent hpresent := by
    have hroot : project.Reached sources entry.1 := by
      apply Reach.From.root
      rw [hsplit, List.map_append, List.map_cons]
      exact List.mem_append_right _ List.mem_cons_self
    by_cases hself : name = project.mangle entry.1
    · exact ⟨entry.1, hself, hroot⟩
    · cases ht : t.has name with
      | true => exact hconfigured.added name habsent ht
      | false =>
          obtain ⟨resolved, hname, hreaches, -⟩ :=
            hcopied.added name hself ht hpresent
          exact ⟨resolved, hname, hroot.trans hreaches⟩
  listed name := by
    rw [hcopied.listed name, hconfigured.listed name]
    constructor
    · rintro ((hmem | ⟨other, hother, heq⟩ | ⟨habsent, ht⟩) | heq | ⟨ht, hpresent⟩)
      · exact Or.inl hmem
      · exact Or.inr (Or.inl ⟨other, List.mem_append_left _ hother, heq⟩)
      · exact Or.inr (Or.inr ⟨habsent, hcopied.has name ht⟩)
      · exact Or.inr (Or.inl ⟨entry, List.mem_append_right _
          (List.mem_singleton_self entry), heq⟩)
      · refine Or.inr (Or.inr ⟨?_, hpresent⟩)
        rw [Bool.eq_false_iff] at ht ⊢
        intro hbefore
        exact ht (hconfigured.has name hbefore)
    · rintro (hmem | ⟨other, hother, heq⟩ | ⟨habsent, hpresent⟩)
      · exact Or.inl (Or.inl hmem)
      · rcases List.mem_append.mp hother with hseen | hlast
        · exact Or.inl (Or.inr (Or.inl ⟨other, hseen, heq⟩))
        · rw [List.mem_singleton.mp hlast] at heq
          exact Or.inr (Or.inl heq)
      · cases ht : t.has name with
        | true => exact Or.inl (Or.inr (Or.inr ⟨habsent, rfl⟩))
        | false => exact Or.inr (Or.inr ⟨rfl, hpresent⟩)

end Project

end UvMbt.Prepare
