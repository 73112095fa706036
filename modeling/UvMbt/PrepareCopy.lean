/-
One call of `Project.copy`, with the copies it makes on the way.  A header is
first copied as it is, so that a second directive that names it, also one in a
file that it includes itself, finds its copy; then it is copied again with its
own headers relocated.
-/
import UvMbt.PrepareNames
import UvMbt.Outcome

set_option autoImplicit false

namespace UvMbt.Prepare

/-- The headers of the directives, in order. -/
def headersOf : List Piece → List Text
  | [] => []
  | .char _ :: pieces => headersOf pieces
  | .directive _ header :: pieces => header :: headersOf pieces

theorem headersOf_append (left right : List Piece) :
    headersOf (left ++ right) = headersOf left ++ headersOf right := by
  induction left with
  | nil => rfl
  | cons piece left ih =>
      cases piece with
      | char c => exact ih
      | directive indent header => exact congrArg (header :: ·) ih

theorem headersOf_chars (text : Text) : headersOf (text.map Piece.char) = [] := by
  induction text with
  | nil => rfl
  | cons c text ih => exact ih

set_option maxRecDepth 4000 in
theorem inert_defines : inert defines = true := by decide

theorem headersOf_defines (content : Text) :
    headersOf (scan (defines ++ content)) = headersOf (scan content) := by
  rw [scan_inert inert_defines, headersOf_append, headersOf_chars]
  rfl

namespace State

/-- Whether the target has a file of that name. -/
def has (s : State) (name : Name) : Bool := (s.target name).isSome

variable {s : State} {name other : Name} {content : Text}

theorem target_write_self : (s.write name content).target name = some content :=
  if_pos rfl

theorem target_write_ne (hne : other ≠ name) :
    (s.write name content).target other = s.target other := if_neg hne

theorem has_write_self : (s.write name content).has name = true := by
  rw [has, target_write_self]
  rfl

theorem has_write (hother : s.has other = true) :
    (s.write name content).has other = true := by
  by_cases heq : other = name
  · rw [heq, has_write_self]
  · rw [has, target_write_ne heq]
    exact hother

theorem mem_copied_write : other ∈ (s.write name content).copied ↔
    other = name ∨ other ∈ s.copied := Finset.mem_insert

theorem target_eq_none (hnone : s.has name = false) : s.target name = none := by
  rw [has] at hnone
  exact Option.isSome_eq_false_iff.mp hnone |> Option.isNone_iff_eq_none.mp

end State

namespace Project

variable (project : Project)

/-- One file of the tree includes another one, or itself. -/
def Includes (source resolved : SourcePath) : Prop :=
  ∃ content, project.tree.read source = .ok content ∧
    ∃ header ∈ headersOf (scan content),
      project.found source header = .ok (some resolved)

/-- The file can be read, and no search for one of its headers leaves the
tree. -/
def Readable (source : SourcePath) : Prop :=
  ∃ content, project.tree.read source = .ok content ∧
    ∀ header ∈ headersOf (scan content),
      ∃ answer, project.found source header = .ok answer

/-- A finished copy, with the copies of all it includes. -/
structure Complete (prepareDefines : Bool) (condition : Option Text) (s : State)
    (source : SourcePath) : Prop where
  readable : project.Readable source
  text : ∀ content, project.tree.read source = .ok content →
    s.target (project.mangle source) =
      some (project.written source prepareDefines condition content)
  expanded : ∀ resolved, project.Includes source resolved →
    s.has (project.mangle resolved) = true

/-- The files of the tree that have no copy yet. -/
def missing (s : State) : Nat :=
  project.tree.files.countP fun file => !s.has (project.mangle file.1)

variable {project}

theorem exists_of_includes {source resolved : SourcePath}
    (hincludes : project.Includes source resolved) :
    project.tree.exists? resolved = true := by
  obtain ⟨content, -, header, -, hfound⟩ := hincludes
  exact search_exists hfound

theorem Readable.exists {source : SourcePath} (hreadable : project.Readable source) :
    project.tree.exists? source = true := by
  obtain ⟨content, hread, -⟩ := hreadable
  exact Tree.exists_of_read hread

theorem mangle_inj_of_exists {left right : SourcePath}
    (hleft : project.tree.exists? left = true)
    (hright : project.tree.exists? right = true)
    (hsame : project.mangle left = project.mangle right) : left = right :=
  mangle_injective (Tree.plain_of_exists hleft) (Tree.plain_of_exists hright) hsame

/-- A finished copy stays one while it is not written and no copy is lost. -/
theorem Complete.mono {prepareDefines : Bool} {condition : Option Text}
    {s s' : State} {source : SourcePath}
    (hcomplete : project.Complete prepareDefines condition s source)
    (htext : s'.target (project.mangle source) = s.target (project.mangle source))
    (hhas : ∀ name, s.has name = true → s'.has name = true) :
    project.Complete prepareDefines condition s' source where
  readable := hcomplete.readable
  text content hread := by rw [htext, hcomplete.text content hread]
  expanded resolved hincludes := hhas _ (hcomplete.expanded resolved hincludes)

theorem Complete.has {prepareDefines : Bool} {condition : Option Text}
    {s : State} {source : SourcePath}
    (hcomplete : project.Complete prepareDefines condition s source) :
    s.has (project.mangle source) = true := by
  obtain ⟨content, hread, -⟩ := hcomplete.readable
  rw [State.has, hcomplete.text content hread]
  rfl

theorem missing_le {s s' : State}
    (hhas : ∀ name, s.has name = true → s'.has name = true) :
    project.missing s' ≤ project.missing s :=
  Unmarked.countP_le (fun file => hhas (project.mangle file.1))

theorem missing_lt {s s' : State} {source : SourcePath} {content : Text}
    (hhas : ∀ name, s.has name = true → s'.has name = true)
    (hread : project.tree.read source = .ok content)
    (hbefore : s.has (project.mangle source) = false)
    (hafter : s'.has (project.mangle source) = true) :
    project.missing s' < project.missing s :=
  Unmarked.countP_lt (fun file => hhas (project.mangle file.1))
    (Tree.read_eq_ok hread) hbefore hafter

/-- What the substitution did: the copies that were there are the same, and
each new one is the unchanged copy of a file that a directive names. -/
structure Replaced (source : SourcePath) (pieces : List Piece)
    (headers : List SourcePath) (s : State)
    (result : Text × List SourcePath × State) : Prop where
  content : result.1 =
    render (pieces.map (Piece.mapHeader (project.newHeader source)))
  answered : ∀ header ∈ headersOf pieces,
    ∃ answer, project.found source header = .ok answer
  copied : ∀ header ∈ headersOf pieces, ∀ resolved,
    project.found source header = .ok (some resolved) →
      result.2.2.has (project.mangle resolved) = true
  kept : ∀ name, s.has name = true → result.2.2.target name = s.target name
  grown : ∃ fresh, result.2.1 = headers ++ fresh ∧
    (∀ resolved ∈ fresh, s.has (project.mangle resolved) = false ∧
      result.2.2.has (project.mangle resolved) = true ∧
      (∃ content, project.tree.read resolved = .ok content) ∧
      ∃ header ∈ headersOf pieces,
        project.found source header = .ok (some resolved)) ∧
    ∀ name, s.has name = false → result.2.2.has name = true →
      ∃ resolved ∈ fresh, name = project.mangle resolved
  listed : ∀ name, name ∈ result.2.2.copied ↔ name ∈ s.copied ∨
    (s.has name = false ∧ result.2.2.has name = true)

/-- Why the substitution stopped. -/
def ReplaceBlame (source : SourcePath) (pieces : List Piece) (error : Raise) :
    Prop :=
  error ≠ .recursionLimit ∧ ∃ header ∈ headersOf pieces,
    (∀ answer, project.found source header ≠ .ok answer) ∨
    ∃ resolved, project.found source header = .ok (some resolved) ∧
      ∀ content, project.tree.read resolved ≠ .ok content

end Project

namespace Project

variable {project : Project} {source : SourcePath}

theorem Replaced.has {pieces : List Piece} {headers : List SourcePath}
    {s : State} {result : Text × List SourcePath × State}
    (hreplaced : project.Replaced source pieces headers s result) (name : Name)
    (hname : s.has name = true) : result.2.2.has name = true := by
  rw [State.has, hreplaced.kept name hname]
  exact hname

/-- Pieces that make no copy. -/
theorem Replaced.unchanged {pieces : List Piece} {content : Text}
    (headers : List SourcePath) (s : State)
    (hcontent : content =
      render (pieces.map (Piece.mapHeader (project.newHeader source))))
    (hanswered : ∀ header ∈ headersOf pieces,
      ∃ answer, project.found source header = .ok answer)
    (hcopied : ∀ header ∈ headersOf pieces, ∀ resolved,
      project.found source header = .ok (some resolved) →
        s.has (project.mangle resolved) = true) :
    project.Replaced source pieces headers s (content, headers, s) where
  content := hcontent
  answered := hanswered
  copied := hcopied
  kept name _ := rfl
  grown := by
    refine ⟨[], (List.append_nil headers).symm, ?_, ?_⟩
    · intro resolved hresolved
      cases hresolved
    · intro name habsent hpresent
      rw [habsent] at hpresent
      cases hpresent
  listed name := by
    constructor
    · exact Or.inl
    · rintro (hmem | ⟨habsent, hpresent⟩)
      · exact hmem
      · rw [habsent] at hpresent
        cases hpresent

theorem Replaced.undirected {pieces : List Piece} {content : Text}
    (headers : List SourcePath) (s : State) (hnone : headersOf pieces = [])
    (hcontent : content =
      render (pieces.map (Piece.mapHeader (project.newHeader source)))) :
    project.Replaced source pieces headers s (content, headers, s) := by
  apply Replaced.unchanged headers s hcontent
  · intro header hheader
    rw [hnone] at hheader
    cases hheader
  · intro header hheader
    rw [hnone] at hheader
    cases hheader

theorem Replaced.append {left right : List Piece} {headers : List SourcePath}
    {s : State} {first second : Text × List SourcePath × State}
    (hfirst : project.Replaced source left headers s first)
    (hsecond : project.Replaced source right first.2.1 first.2.2 second) :
    project.Replaced source (left ++ right) headers s
      (first.1 ++ second.1, second.2) where
  content := by
    rw [hfirst.content, hsecond.content, List.map_append, render, render,
      render, List.flatMap_append]
  answered header hheader := by
    rw [headersOf_append, List.mem_append] at hheader
    rcases hheader with hleft | hright
    · exact hfirst.answered header hleft
    · exact hsecond.answered header hright
  copied header hheader resolved hfound := by
    rw [headersOf_append, List.mem_append] at hheader
    rcases hheader with hleft | hright
    · exact hsecond.has _ (hfirst.copied header hleft resolved hfound)
    · exact hsecond.copied header hright resolved hfound
  kept name hname := by
    rw [hsecond.kept name (hfirst.has name hname), hfirst.kept name hname]
  grown := by
    obtain ⟨fresh, hheaders, hfresh, hall⟩ := hfirst.grown
    obtain ⟨fresh', hheaders', hfresh', hall'⟩ := hsecond.grown
    refine ⟨fresh ++ fresh', ?_, ?_, ?_⟩
    · rw [hheaders', hheaders, List.append_assoc]
    · intro resolved hresolved
      rcases List.mem_append.mp hresolved with hleft | hright
      · obtain ⟨habsent, hpresent, hread, header, hheader, hfound⟩ :=
          hfresh resolved hleft
        refine ⟨habsent, hsecond.has _ hpresent, hread, header, ?_, hfound⟩
        rw [headersOf_append]
        exact List.mem_append_left _ hheader
      · obtain ⟨habsent, hpresent, hread, header, hheader, hfound⟩ :=
          hfresh' resolved hright
        refine ⟨?_, hpresent, hread, header, ?_, hfound⟩
        · rw [Bool.eq_false_iff] at habsent ⊢
          intro hbefore
          exact habsent (hfirst.has _ hbefore)
        · rw [headersOf_append]
          exact List.mem_append_right _ hheader
    · intro name habsent hpresent
      cases hmiddle : first.2.2.has name with
      | true =>
          obtain ⟨resolved, hresolved, heq⟩ := hall name habsent hmiddle
          exact ⟨resolved, List.mem_append_left _ hresolved, heq⟩
      | false =>
          obtain ⟨resolved, hresolved, heq⟩ := hall' name hmiddle hpresent
          exact ⟨resolved, List.mem_append_right _ hresolved, heq⟩
  listed name := by
    rw [hsecond.listed name, hfirst.listed name, or_assoc]
    apply or_congr_right
    constructor
    · rintro (⟨habsent, hmiddle⟩ | ⟨hmiddle, hpresent⟩)
      · exact ⟨habsent, hsecond.has name hmiddle⟩
      · refine ⟨?_, hpresent⟩
        rw [Bool.eq_false_iff] at hmiddle ⊢
        intro hbefore
        exact hmiddle (hfirst.has name hbefore)
    · rintro ⟨habsent, hpresent⟩
      cases hmiddle : first.2.2.has name with
      | true => exact Or.inl ⟨habsent, rfl⟩
      | false => exact Or.inr ⟨rfl, hpresent⟩

/-- A directive whose header is left alone, or already has a copy. -/
theorem Replaced.same (indent header : Text) (headers : List SourcePath)
    (s : State) {answer : Option SourcePath}
    (hfound : project.found source header = .ok answer)
    (hpresent : ∀ resolved, answer = some resolved →
      s.has (project.mangle resolved) = true) :
    project.Replaced source [.directive indent header] headers s
      ((Piece.directive indent (project.newHeader source header)).render,
        headers, s) := by
  apply Replaced.unchanged headers s (List.append_nil _).symm
  · intro other hother
    rw [List.mem_singleton.mp hother]
    exact ⟨answer, hfound⟩
  · intro other hother resolved hresolved
    rw [List.mem_singleton.mp hother, hfound, Except.ok.injEq] at hresolved
    exact hpresent resolved hresolved

/-- A directive whose file is copied as it is. -/
theorem Replaced.fresh (indent header : Text) (headers : List SourcePath)
    (s : State) {resolved : SourcePath} {content : Text}
    (hfound : project.found source header = .ok (some resolved))
    (hread : project.tree.read resolved = .ok content)
    (habsent : s.has (project.mangle resolved) = false) :
    project.Replaced source [.directive indent header] headers s
      ((Piece.directive indent (project.newHeader source header)).render,
        headers ++ [resolved], s.write (project.mangle resolved) content) where
  content := (List.append_nil _).symm
  answered other hother := by
    rw [List.mem_singleton.mp hother]
    exact ⟨some resolved, hfound⟩
  copied other hother resolved' hresolved := by
    rw [List.mem_singleton.mp hother, hfound, Except.ok.injEq,
      Option.some.injEq] at hresolved
    rw [← hresolved]
    exact State.has_write_self
  kept name hname := by
    apply State.target_write_ne
    rintro rfl
    rw [habsent] at hname
    cases hname
  grown := by
    refine ⟨[resolved], rfl, ?_, ?_⟩
    · intro resolved' hresolved
      rw [List.mem_singleton.mp hresolved]
      exact ⟨habsent, State.has_write_self, ⟨content, hread⟩, header,
        List.mem_singleton_self header, hfound⟩
    · intro name hname hpresent
      refine ⟨resolved, List.mem_singleton_self resolved, ?_⟩
      by_contra hne
      rw [State.has, State.target_write_ne hne] at hpresent
      rw [State.has, hpresent] at hname
      cases hname
  listed name := by
    rw [State.mem_copied_write, or_comm]
    apply or_congr_right
    constructor
    · rintro rfl
      exact ⟨habsent, State.has_write_self⟩
    · rintro ⟨hname, hpresent⟩
      by_contra hne
      rw [State.has, State.target_write_ne hne] at hpresent
      rw [State.has, hpresent] at hname
      cases hname

end Project

namespace Project

variable {project : Project} {source : SourcePath}

theorem newHeader_of_found {header : Text} {resolved : SourcePath}
    (hfound : project.found source header = .ok (some resolved)) :
    project.newHeader source header = project.mangle resolved := by
  rw [newHeader, hfound]

theorem newHeader_of_none {header : Text}
    (hfound : project.found source header = .ok none) :
    project.newHeader source header = (Path.ofText header).asPosix := by
  rw [newHeader, hfound]

theorem copyRaw_eq (resolved : SourcePath) (s : State) :
    project.copyRaw resolved s = (project.tree.read resolved).map
      fun content => s.write (project.mangle resolved) content := by
  rw [copyRaw, copyWith]
  cases project.tree.read resolved with
  | error error => rfl
  | ok content => rfl

theorem relocateHeader_spec (indent header : Text) (headers : List SourcePath)
    (s : State) :
    Outcome.Meets
      (fun result => project.Replaced source [.directive indent header] headers s
        ((Piece.directive indent result.1).render, result.2))
      (project.ReplaceBlame source [.directive indent header])
      (project.relocateHeader (project.directories source) (Path.ofText header)
        headers s) := by
  have hmem : header ∈ headersOf [Piece.directive indent header] :=
    List.mem_singleton_self header
  have hlimit : project.search (project.directories source)
      (Path.ofText header) ≠ .error .recursionLimit :=
    search_ne_recursionLimit _ _
  rw [relocateHeader]
  cases hfound : project.search (project.directories source)
      (Path.ofText header) with
  | error error =>
      refine ⟨?_, header, hmem, Or.inl ?_⟩
      · rintro rfl
        exact hlimit hfound
      · intro answer hanswer
        rw [found, hfound] at hanswer
        cases hanswer
  | ok answer =>
      cases answer with
      | none =>
          have hsame := Replaced.same indent header headers s hfound (by
            intro resolved hnone
            cases hnone)
          rw [newHeader_of_none hfound] at hsame
          exact hsame
      | some resolved =>
          change Outcome.Meets _ _ (if s.has (project.mangle resolved) = true
            then Except.ok (project.mangle resolved, headers, s)
            else project.copyRaw resolved s >>= fun s' =>
              Except.ok (project.mangle resolved, headers ++ [resolved], s'))
          by_cases hpresent : s.has (project.mangle resolved) = true
          · rw [if_pos hpresent]
            have hsame := Replaced.same indent header headers s hfound (by
              intro other hother
              cases hother
              exact hpresent)
            rw [newHeader_of_found hfound] at hsame
            exact hsame
          · rw [if_neg hpresent, copyRaw_eq]
            rw [Bool.not_eq_true] at hpresent
            cases hread : project.tree.read resolved with
            | error error =>
                refine ⟨?_, header, hmem, Or.inr ⟨resolved, hfound, ?_⟩⟩
                · rintro rfl
                  exact Tree.read_ne_recursionLimit hread
                · intro content hcontent
                  rw [hread] at hcontent
                  cases hcontent
            | ok content =>
                have hfresh := Replaced.fresh indent header headers s hfound
                  hread hpresent
                rw [newHeader_of_found hfound] at hfresh
                exact hfresh

theorem ReplaceBlame.mono {pieces more : List Piece} {error : Raise}
    (hblame : project.ReplaceBlame source pieces error)
    (hsub : ∀ header ∈ headersOf pieces, header ∈ headersOf more) :
    project.ReplaceBlame source more error := by
  obtain ⟨hlimit, header, hheader, hwhy⟩ := hblame
  exact ⟨hlimit, header, hsub header hheader, hwhy⟩

theorem replaceAll_spec (pieces : List Piece) (headers : List SourcePath)
    (s : State) :
    Outcome.Meets (project.Replaced source pieces headers s)
      (project.ReplaceBlame source pieces)
      (project.replaceAll (project.directories source) pieces headers s) := by
  induction pieces generalizing headers s with
  | nil => exact Replaced.undirected headers s rfl rfl
  | cons piece pieces ih =>
      cases piece with
      | char c =>
          have hchar : project.Replaced source [.char c] headers s
              ([c], headers, s) := Replaced.undirected headers s rfl rfl
          rw [replaceAll]
          apply Outcome.Meets.bind (ih headers s)
          intro result hresult
          exact hchar.append hresult
      | directive indent header =>
          rw [replaceAll]
          apply Outcome.Meets.bind ((relocateHeader_spec indent header headers
            s).mono (fun _ hgood => hgood) _)
          · intro first hfirst
            apply Outcome.Meets.bind ((ih first.2.1 first.2.2).mono
              (fun _ hgood => hgood) _)
            · intro second hsecond
              exact hfirst.append hsecond
            · intro error hblame
              apply hblame.mono
              intro other hother
              exact List.mem_cons_of_mem header hother
          · intro error hblame
            apply hblame.mono
            intro other hother
            rw [List.mem_singleton.mp hother]
            exact List.mem_cons_self

end Project

end UvMbt.Prepare
