/-
What one call of `Project.copy` leaves in the target, and what can stop it.
The recursion stops because a header is copied once before its own headers are
looked at: each level has one file less to copy.
-/
import UvMbt.PrepareCopy

set_option autoImplicit false

namespace UvMbt.Prepare

namespace Project

variable (project : Project)

/-- `resolved` is included by `source`, at any depth. -/
def Reaches : SourcePath → SourcePath → Prop :=
  Relation.ReflTransGen project.Includes

/-- One finished call of `copy`. -/
structure Copied (source : SourcePath) (prepareDefines : Bool)
    (condition : Option Text) (s s' : State) : Prop where
  complete : project.Complete prepareDefines condition s' source
  kept : ∀ name, name ≠ project.mangle source → s.has name = true →
    s'.target name = s.target name
  added : ∀ name, name ≠ project.mangle source → s.has name = false →
    s'.has name = true → ∃ resolved, name = project.mangle resolved ∧
      project.Reaches source resolved ∧ project.Complete false none s' resolved
  listed : ∀ name, name ∈ s'.copied ↔ name ∈ s.copied ∨
    name = project.mangle source ∨ (s.has name = false ∧ s'.has name = true)

/-- Why a call of `copy` stopped. -/
def CopyBlame (fuel : Nat) (source : SourcePath) (s : State) (error : Raise) :
    Prop :=
  (error = .recursionLimit ∧ fuel ≤ project.missing s) ∨
    ∃ resolved, project.Reaches source resolved ∧ ¬ project.Readable resolved

/-- The loop over the new headers: those seen are finished, the others are
unchanged copies. -/
structure Spread (source : SourcePath) (fresh : List SourcePath)
    (s middle : State) (seen : List SourcePath) (t : State) : Prop where
  kept : ∀ name, s.has name = true → t.target name = s.target name
  has : ∀ name, middle.has name = true → t.has name = true
  complete : ∀ resolved ∈ seen, project.Complete false none t resolved
  added : ∀ name, s.has name = false → t.has name = true →
    (∃ resolved ∈ fresh, name = project.mangle resolved) ∨
      ∃ resolved, name = project.mangle resolved ∧
        project.Reaches source resolved ∧ project.Complete false none t resolved
  listed : ∀ name, name ∈ t.copied ↔ name ∈ s.copied ∨
    (s.has name = false ∧ t.has name = true)

variable {project} {source : SourcePath}

theorem Copied.has {prepareDefines : Bool} {condition : Option Text}
    {s s' : State} (hcopied : project.Copied source prepareDefines condition s s')
    (name : Name) (hname : s.has name = true) : s'.has name = true := by
  by_cases hself : name = project.mangle source
  · rw [hself]
    exact hcopied.complete.has
  · rw [State.has, hcopied.kept name hself hname]
    exact hname

/-- A finished copy of another file stays one. -/
theorem Copied.complete_other {prepareDefines prepareDefines' : Bool}
    {condition condition' : Option Text} {s s' : State} {other : SourcePath}
    (hcopied : project.Copied source prepareDefines condition s s')
    (hother : project.Complete prepareDefines' condition' s other)
    (hne : other ≠ source) : project.Complete prepareDefines' condition' s' other := by
  apply hother.mono _ hcopied.has
  apply hcopied.kept _ _ hother.has
  intro hsame
  exact hne (mangle_inj_of_exists hother.readable.exists
    hcopied.complete.readable.exists hsame)

section Loop

variable {fresh seen : List SourcePath} {s middle t t' : State}
  {item : SourcePath}

theorem Spread.start
    (hkept : ∀ name, s.has name = true → middle.target name = s.target name)
    (hadded : ∀ name, s.has name = false → middle.has name = true →
      ∃ resolved ∈ fresh, name = project.mangle resolved)
    (hlisted : ∀ name, name ∈ middle.copied ↔ name ∈ s.copied ∨
      (s.has name = false ∧ middle.has name = true)) :
    project.Spread source fresh s middle [] middle where
  kept := hkept
  has name hname := hname
  complete resolved hresolved := by cases hresolved
  added name habsent hpresent := Or.inl (hadded name habsent hpresent)
  listed := hlisted

theorem Spread.step (hspread : project.Spread source fresh s middle seen t)
    (hitem : item ∈ fresh) (habsent : s.has (project.mangle item) = false)
    (hpresent : middle.has (project.mangle item) = true)
    (hincludes : project.Includes source item)
    (hcopied : project.Copied item false none t t') :
    project.Spread source fresh s middle (seen ++ [item]) t' where
  kept name hname := by
    have hne : name ≠ project.mangle item := by
      rintro rfl
      rw [habsent] at hname
      cases hname
    have ht : t.has name = true := by
      rw [State.has, hspread.kept name hname]
      exact hname
    rw [hcopied.kept name hne ht, hspread.kept name hname]
  has name hname := hcopied.has name (hspread.has name hname)
  complete resolved hresolved := by
    by_cases hsame : resolved = item
    · rw [hsame]
      exact hcopied.complete
    · rcases List.mem_append.mp hresolved with hseen | hlast
      · exact hcopied.complete_other (hspread.complete resolved hseen) hsame
      · exact absurd (List.mem_singleton.mp hlast) hsame
  added name hbefore hafter := by
    by_cases hself : name = project.mangle item
    · exact Or.inl ⟨item, hitem, hself⟩
    · cases ht : t.has name with
      | true =>
          rcases hspread.added name hbefore ht with
            hfresh | ⟨resolved, rfl, hreaches, hcomplete⟩
          · exact Or.inl hfresh
          · right
            refine ⟨resolved, rfl, hreaches, ?_⟩
            apply hcopied.complete_other hcomplete
            rintro rfl
            exact hself rfl
      | false =>
          obtain ⟨resolved, hname, hreaches, hcomplete⟩ :=
            hcopied.added name hself ht hafter
          exact Or.inr ⟨resolved, hname, .head hincludes hreaches, hcomplete⟩
  listed name := by
    rw [hcopied.listed name, hspread.listed name, or_assoc]
    apply or_congr_right
    constructor
    · rintro (⟨hbefore, ht⟩ | rfl | ⟨ht, hafter⟩)
      · exact ⟨hbefore, hcopied.has name ht⟩
      · exact ⟨habsent, hcopied.complete.has⟩
      · refine ⟨?_, hafter⟩
        rw [Bool.eq_false_iff] at ht ⊢
        intro hbefore
        apply ht
        rw [State.has, hspread.kept name hbefore]
        exact hbefore
    · rintro ⟨hbefore, hafter⟩
      cases ht : t.has name with
      | true => exact Or.inl ⟨hbefore, rfl⟩
      | false => exact Or.inr (Or.inr ⟨rfl, hafter⟩)

/-- When every new header is finished, so is all that was added. -/
theorem Spread.all_complete
    (hspread : project.Spread source fresh s middle fresh t)
    (hincludes : ∀ resolved ∈ fresh, project.Includes source resolved)
    (name : Name) (habsent : s.has name = false) (hpresent : t.has name = true) :
    ∃ resolved, name = project.mangle resolved ∧
      project.Reaches source resolved ∧
      project.Complete false none t resolved := by
  rcases hspread.added name habsent hpresent with ⟨resolved, hfresh, hname⟩ | hall
  · exact ⟨resolved, hname, .single (hincludes resolved hfresh),
      hspread.complete resolved hfresh⟩
  · exact hall

end Loop

end Project

namespace Project

variable {project : Project} {source : SourcePath}

/-- What `copy` relocates: the content it has read, behind the defines when it
is asked to put them there. -/
def input (prepareDefines : Bool) (content : Text) : Text :=
  if prepareDefines then defines ++ content else content

theorem headersOf_input (prepareDefines : Bool) (content : Text) :
    headersOf (scan (input prepareDefines content)) =
      headersOf (scan content) := by
  cases prepareDefines with
  | false => rfl
  | true => exact headersOf_defines content

/-- The last step of `copy`, over what the loop has left. -/
theorem Copied.of_spread {prepareDefines : Bool} {condition : Option Text}
    {content : Text} {s t : State} {result : Text × List SourcePath × State}
    {fresh : List SourcePath}
    (hread : project.tree.read source = .ok content)
    (hreplaced : project.Replaced source (scan (input prepareDefines content))
      [] s result)
    (hincludes : ∀ resolved ∈ fresh, project.Includes source resolved)
    (hspread : project.Spread source fresh s result.2.2 fresh t) :
    project.Copied source prepareDefines condition s
      (t.write (project.mangle source)
        (project.written source prepareDefines condition content)) where
  complete := {
    readable := by
      refine ⟨content, hread, fun header hheader => ?_⟩
      rw [← headersOf_input prepareDefines] at hheader
      exact hreplaced.answered header hheader
    text := by
      intro content' hcontent
      rw [hread, Except.ok.injEq] at hcontent
      rw [State.target_write_self, hcontent]
    expanded := by
      intro resolved hresolved
      obtain ⟨content', hcontent, header, hheader, hfound⟩ := hresolved
      rw [hread, Except.ok.injEq] at hcontent
      rw [← hcontent, ← headersOf_input prepareDefines] at hheader
      apply State.has_write
      exact hspread.has _ (hreplaced.copied header hheader resolved hfound)
  }
  kept name hne hname := by
    rw [State.target_write_ne hne, hspread.kept name hname]
  added name hne habsent hpresent := by
    rw [State.has, State.target_write_ne hne] at hpresent
    obtain ⟨resolved, rfl, hreaches, hcomplete⟩ :=
      hspread.all_complete hincludes name habsent hpresent
    refine ⟨resolved, rfl, hreaches, ?_⟩
    exact hcomplete.mono (State.target_write_ne hne)
      (fun name hname => State.has_write hname)
  listed name := by
    rw [State.mem_copied_write, hspread.listed name]
    by_cases hself : name = project.mangle source
    · constructor
      · intro _
        exact Or.inr (Or.inl hself)
      · intro _
        exact Or.inl hself
    · rw [State.has, State.has, State.has, State.target_write_ne hself]
      constructor
      · rintro (heq | hmem | hnew)
        · exact absurd heq hself
        · exact Or.inl hmem
        · exact Or.inr (Or.inr hnew)
      · rintro (hmem | heq | hnew)
        · exact Or.inr (Or.inl hmem)
        · exact absurd heq hself
        · exact Or.inr (Or.inr hnew)

/-- The relocation of `copy`: the substitution, then the new headers. -/
def relocated (project : Project) (fuel : Nat) (source : SourcePath) (content : Text) (s : State) :
    Except Raise (Text × State) := do
  let (content, headers, s) ←
    project.replaceAll (project.directories source) (scan content) [] s
  let s ← headers.foldlM (fun s header => project.copy fuel header false none s) s
  .ok (content, s)

theorem copy_succ (fuel : Nat) (source : SourcePath) (prepareDefines : Bool)
    (condition : Option Text) (s : State) :
    project.copy (fuel + 1) source prepareDefines condition s =
      project.copyWith (project.relocated fuel source) source
        prepareDefines condition s := rfl

theorem not_readable_of_blame {content : Text} {error : Raise}
    {prepareDefines : Bool} (hread : project.tree.read source = .ok content)
    (hblame : project.ReplaceBlame source (scan (input prepareDefines content))
      error) : ∃ resolved, project.Reaches source resolved ∧
        ¬ project.Readable resolved := by
  obtain ⟨-, header, hheader, hwhy⟩ := hblame
  rw [headersOf_input] at hheader
  rcases hwhy with hno | ⟨resolved, hfound, hno⟩
  · refine ⟨source, .refl, ?_⟩
    rintro ⟨content', hcontent, hanswers⟩
    rw [hread, Except.ok.injEq] at hcontent
    rw [← hcontent] at hanswers
    obtain ⟨answer, hanswer⟩ := hanswers header hheader
    exact hno answer hanswer
  · refine ⟨resolved, .single ⟨content, hread, header, hheader, hfound⟩, ?_⟩
    rintro ⟨content', hcontent, -⟩
    exact hno content' hcontent

/-- The relocation fails like the calls it makes. -/
theorem CopyBlame.lift {fuel : Nat} {item : SourcePath} {s t : State}
    {error : Raise} (hblame : project.CopyBlame fuel item t error)
    (hmissing : project.missing t < project.missing s)
    (hincludes : project.Includes source item) :
    project.CopyBlame (fuel + 1) source s error := by
  rcases hblame with ⟨rfl, hfuel⟩ | ⟨resolved, hreaches, hunreadable⟩
  · exact Or.inl ⟨rfl, Nat.lt_of_le_of_lt hfuel hmissing⟩
  · exact Or.inr ⟨resolved, .head hincludes hreaches, hunreadable⟩

/-- One level of `copy`, when the level below meets its specification. -/
theorem relocated_spec {fuel : Nat} {content : Text}
    (hcopy : ∀ item t, Outcome.Meets (project.Copied item false none t)
      (project.CopyBlame fuel item t) (project.copy fuel item false none t))
    (hread : project.tree.read source = .ok content) (prepareDefines : Bool)
    (condition : Option Text) (s : State) :
    Outcome.Meets (fun result =>
        project.Copied source prepareDefines condition s
          (result.2.write (project.mangle source)
            (project.written source prepareDefines condition content)) ∧
        result.1 = substitute (project.newHeader source)
          (input prepareDefines content))
      (project.CopyBlame (fuel + 1) source s)
      (project.relocated fuel source (input prepareDefines content) s) := by
  rw [relocated]
  apply Outcome.Meets.bind ((replaceAll_spec
    (scan (input prepareDefines content)) [] s).mono (fun _ hgood => hgood) _)
  · rintro ⟨text, headers, middle⟩ hreplaced
    obtain ⟨fresh, hheaders, hfresh, hadded⟩ := hreplaced.grown
    obtain rfl : headers = fresh := hheaders
    have hincludes : ∀ item ∈ headers, project.Includes source item := by
      intro item hitem
      obtain ⟨-, -, -, header, hheader, hfound⟩ := hfresh item hitem
      rw [headersOf_input] at hheader
      exact ⟨content, hread, header, hheader, hfound⟩
    have hstart : project.Spread source headers s middle [] middle :=
      Spread.start hreplaced.kept hadded hreplaced.listed
    apply Outcome.Meets.bind (Outcome.meets_foldlM hstart _)
    · intro t hspread
      exact ⟨Copied.of_spread hread hreplaced hincludes hspread,
        hreplaced.content⟩
    · intro seen item rest t hsplit hspread
      have hitem : item ∈ headers := by
        rw [hsplit]
        exact List.mem_append_right seen List.mem_cons_self
      obtain ⟨habsent, hpresent, ⟨old, hold⟩, -⟩ := hfresh item hitem
      have hmissing : project.missing t < project.missing s :=
        Nat.lt_of_le_of_lt (missing_le hspread.has)
          (missing_lt hreplaced.has hold habsent hpresent)
      apply (hcopy item t).mono
      · intro t' hcopied
        exact hspread.step hitem habsent hpresent (hincludes item hitem) hcopied
      · intro error hblame
        exact hblame.lift hmissing (hincludes item hitem)
  · intro error hblame
    exact Or.inr (not_readable_of_blame hread hblame)

/-- A call of `copy` finishes its source and all that it adds, and it fails
only for a file it reaches or for want of fuel. -/
theorem copy_spec (fuel : Nat) (source : SourcePath) (prepareDefines : Bool)
    (condition : Option Text) (s : State) :
    Outcome.Meets (project.Copied source prepareDefines condition s)
      (project.CopyBlame fuel source s)
      (project.copy fuel source prepareDefines condition s) := by
  induction fuel generalizing source prepareDefines condition s with
  | zero => exact Or.inl ⟨rfl, Nat.zero_le _⟩
  | succ fuel ih =>
      rw [copy_succ, copyWith]
      cases hread : project.tree.read source with
      | error error =>
          right
          refine ⟨source, .refl, ?_⟩
          rintro ⟨content, hcontent, -⟩
          rw [hread] at hcontent
          cases hcontent
      | ok content =>
          change Outcome.Meets _ _
            (project.relocated fuel source (input prepareDefines content) s >>= _)
          apply Outcome.Meets.bind (relocated_spec
            (fun item t => ih item false none t) hread prepareDefines condition s)
          rintro ⟨text, t⟩ ⟨hcopied, rfl⟩
          exact hcopied

end Project

end UvMbt.Prepare
