/-
The names of the copies, and what a copied source becomes: every directive the
search finds a file for names that file's copy, every other one is untouched
but for the spelling of its path, and nothing else changes.
-/
import UvMbt.Prepare

set_option autoImplicit false

namespace UvMbt.Prepare

theorem mem_intercalate_of_mem {separator c : Char} {part : Part}
    {parts : List Part} (hpart : part ∈ parts) (hc : c ∈ part) :
    c ∈ [separator].intercalate parts := by
  induction parts with
  | nil => cases hpart
  | cons first rest ih =>
      by_cases hrest : rest = []
      · rw [hrest] at hpart ⊢
        rw [List.mem_singleton] at hpart
        rw [List.intercalate_singleton, ← hpart]
        exact hc
      · rw [List.intercalate_cons_of_ne_nil hrest, List.append_assoc]
        rcases List.mem_cons.mp hpart with rfl | htail
        · exact List.mem_append_left _ hc
        · apply List.mem_append_right
          exact List.mem_append_right _ (ih htail)

theorem mem_of_mem_intercalate {separator c : Char} {parts : List Part}
    (hc : c ∈ [separator].intercalate parts) :
    c = separator ∨ ∃ part ∈ parts, c ∈ part := by
  induction parts with
  | nil => cases hc
  | cons first rest ih =>
      by_cases hrest : rest = []
      · rw [hrest, List.intercalate_singleton] at hc
        exact Or.inr ⟨first, List.mem_cons_self, hc⟩
      · rw [List.intercalate_cons_of_ne_nil hrest, List.append_assoc,
          List.mem_append, List.mem_append, List.mem_singleton] at hc
        rcases hc with hfirst | hseparator | htail
        · exact Or.inr ⟨first, List.mem_cons_self, hfirst⟩
        · exact Or.inl hseparator
        · rcases ih htail with hseparator | ⟨part, hpart, hmem⟩
          · exact Or.inl hseparator
          · exact Or.inr ⟨part, List.mem_cons_of_mem first hpart, hmem⟩

theorem clean_intercalate {separator : Char} {parts : List Part}
    (hquote : quote ≠ separator) (hnewline : '\n' ≠ separator)
    (hparts : ∀ part ∈ parts, Clean part) :
    Clean ([separator].intercalate parts) := by
  constructor
  · intro hmem
    rcases mem_of_mem_intercalate hmem with heq | ⟨part, hpart, hc⟩
    · exact hquote heq
    · exact (hparts part hpart).1 hc
  · intro hmem
    rcases mem_of_mem_intercalate hmem with heq | ⟨part, hpart, hc⟩
    · exact hnewline heq
    · exact (hparts part hpart).2 hc

theorem eq_slash_of_mem_rootOf {text : Text} {c : Char}
    (hmem : c ∈ rootOf text) : c = '/' := by
  have hslashes : c ∈ text.takeWhile (· = '/') := by
    rw [rootOf] at hmem
    by_cases htwo : (text.takeWhile (· = '/')).length = 2
    · rw [if_pos htwo] at hmem
      exact hmem
    · rw [if_neg htwo] at hmem
      exact List.mem_of_mem_take hmem
  have hslash := List.mem_takeWhile_imp hslashes
  exact of_decide_eq_true hslash

theorem clean_asPosix {header : Text} (hclean : Clean header) :
    Clean (Path.ofText header).asPosix := by
  have hheader : ['/'].intercalate (header.splitOn '/') = header :=
    List.intercalate_splitOn '/'
  have hparts : ∀ part ∈ (Path.ofText header).parts, Clean part := by
    intro part hpart
    have hsplit : part ∈ header.splitOn '/' := (List.mem_filter.mp hpart).1
    constructor
    · intro hmem
      apply hclean.1
      rw [← hheader]
      exact mem_intercalate_of_mem hsplit hmem
    · intro hmem
      apply hclean.2
      rw [← hheader]
      exact mem_intercalate_of_mem hsplit hmem
  have hjoined : Clean (['/'].intercalate (Path.ofText header).parts) :=
    clean_intercalate (by decide) (by decide) hparts
  rw [Path.asPosix]
  by_cases hnil : (Path.ofText header).root = [] ∧ (Path.ofText header).parts = []
  · rw [if_pos hnil]
    exact ⟨by decide, by decide⟩
  · rw [if_neg hnil]
    constructor
    · rw [List.mem_append, not_or]
      exact ⟨fun hmem => absurd (eq_slash_of_mem_rootOf hmem) (by decide), hjoined.1⟩
    · rw [List.mem_append, not_or]
      exact ⟨fun hmem => absurd (eq_slash_of_mem_rootOf hmem) (by decide), hjoined.2⟩

theorem mem_of_lookup {Key Value : Type} [BEq Key] [LawfulBEq Key]
    {entries : List (Key × Value)} {key : Key} {value : Value}
    (hlookup : entries.lookup key = some value) : (key, value) ∈ entries := by
  induction entries with
  | nil => cases hlookup
  | cons entry entries ih =>
      rw [List.lookup_cons] at hlookup
      by_cases hkey : key = entry.1
      · rw [hkey, beq_self_eq_true] at hlookup
        cases hlookup
        rw [hkey]
        exact List.mem_cons_self
      · rw [beq_false_of_ne hkey] at hlookup
        exact List.mem_cons_of_mem entry (ih hlookup)

namespace Tree

variable {tree : Tree} {path : SourcePath}

theorem plain_of_exists (hexists : tree.exists? path = true) :
    ∀ part ∈ path, Plain part := by
  rw [Tree.exists?, Bool.or_eq_true, decide_eq_true_eq,
    Option.isSome_iff_exists] at hexists
  rcases hexists with ⟨content, hlookup⟩ | hdirectory
  · exact tree.plain_files _ (mem_of_lookup hlookup)
  · exact tree.plain_directories path hdirectory

theorem read_eq_ok {content : Text} (hread : tree.read path = .ok content) :
    (path, content) ∈ tree.files := by
  rw [Tree.read] at hread
  cases hlookup : tree.files.lookup path with
  | some found =>
      rw [hlookup, Except.ok.injEq] at hread
      rw [← hread]
      exact mem_of_lookup hlookup
  | none =>
      rw [hlookup] at hread
      cases hread

theorem exists_of_read {content : Text} (hread : tree.read path = .ok content) :
    tree.exists? path = true := by
  rw [Tree.exists?, Bool.or_eq_true]
  left
  rw [Tree.read] at hread
  cases hlookup : tree.files.lookup path with
  | some found => rfl
  | none =>
      rw [hlookup] at hread
      cases hread

theorem read_ne_recursionLimit : tree.read path ≠ .error .recursionLimit := by
  rw [Tree.read]
  cases tree.files.lookup path with
  | some found =>
      intro heq
      cases heq
  | none =>
      by_cases hdirectory : path ∈ tree.directories
      · rw [if_pos hdirectory]
        intro heq
        cases heq
      · rw [if_neg hdirectory]
        intro heq
        cases heq

end Tree

namespace Project

variable {project : Project}

theorem mangle_injective {left right : SourcePath}
    (hleft : ∀ part ∈ left, Plain part) (hright : ∀ part ∈ right, Plain part)
    (hsame : project.mangle left = project.mangle right) : left = right := by
  have hsplit : ∀ path : SourcePath, (∀ part ∈ path, Plain part) → path ≠ [] →
      (['#'].intercalate path).splitOn '#' = path := by
    intro path hpath hne
    exact List.splitOn_intercalate '#' (fun part hpart => (hpath part hpart).1) hne
  have hmangle : ∀ path : SourcePath, path ≠ [] → project.mangle path =
      project.prefixName ++ '#' :: ['#'].intercalate path := by
    intro path hne
    rw [mangle, List.intercalate_cons_of_ne_nil hne, List.append_assoc]
    rfl
  by_cases hl : left = []
  · by_cases hr : right = []
    · rw [hl, hr]
    · rw [hmangle right hr, hl, mangle, List.intercalate_singleton] at hsame
      have hlength := congrArg List.length hsame
      rw [List.length_append, List.length_cons] at hlength
      omega
  · by_cases hr : right = []
    · rw [hmangle left hl, hr, mangle, List.intercalate_singleton] at hsame
      have hlength := congrArg List.length hsame
      rw [List.length_append, List.length_cons] at hlength
      omega
    · rw [hmangle left hl, hmangle right hr, List.append_right_inj,
        List.cons.injEq] at hsame
      rw [← hsplit left hleft hl, hsame.2, hsplit right hright hr]

theorem clean_mangle {path : SourcePath} (hpath : ∀ part ∈ path, Plain part) :
    Clean (project.mangle path) := by
  apply clean_intercalate (by decide) (by decide)
  intro part hpart
  rcases List.mem_cons.mp hpart with rfl | htail
  · exact project.clean_prefixName
  · exact (hpath part htail).2

variable (project)

/-- The file the search finds for a header of a source. -/
def found (source : SourcePath) (header : Text) :
    Except Raise (Option SourcePath) :=
  project.search (project.directories source) (Path.ofText header)

/-- What is written for a header: the name of the found file's copy, or the
header with its path spelled the usual way. -/
def newHeader (source : SourcePath) (header : Text) : Text :=
  match project.found source header with
  | .ok (some resolved) => project.mangle resolved
  | _ => (Path.ofText header).asPosix

/-- What `copy` writes for a content it has read. -/
def written (source : SourcePath) (prepareDefines : Bool)
    (condition : Option Text) (content : Text) : Text :=
  let content := if prepareDefines then defines ++ content else content
  let content := substitute (project.newHeader source) content
  match condition with
  | none => content
  | some condition => conditioned condition content

variable {project}

theorem search_exists {directories : List SourcePath} {header : Path}
    {resolved : SourcePath}
    (hsearch : project.search directories header = .ok (some resolved)) :
    project.tree.exists? resolved = true := by
  induction directories with
  | nil => cases hsearch
  | cons directory directories ih =>
      rw [search] at hsearch
      cases hresolve : project.resolveIn directory header with
      | error error =>
          rw [hresolve] at hsearch
          cases hsearch
      | ok candidate =>
          rw [hresolve] at hsearch
          change (if project.tree.exists? candidate = true
            then Except.ok (some candidate)
            else project.search directories header) = _ at hsearch
          by_cases hexists : project.tree.exists? candidate = true
          · rw [if_pos hexists, Except.ok.injEq, Option.some.injEq] at hsearch
            rw [← hsearch]
            exact hexists
          · rw [if_neg hexists] at hsearch
            exact ih hsearch

theorem search_ne_recursionLimit (directories : List SourcePath)
    (header : Path) :
    project.search directories header ≠ .error .recursionLimit := by
  induction directories with
  | nil =>
      intro heq
      cases heq
  | cons directory directories ih =>
      rw [search, resolveIn]
      cases project.source.isPrefixOf? (resolve
        (if header.root = []
          then project.source ++ directory ++ header.parts
          else header.parts)) with
      | none =>
          intro heq
          cases heq
      | some candidate =>
          change (if project.tree.exists? candidate = true
            then Except.ok (some candidate)
            else project.search directories header) ≠ _
          by_cases hexists : project.tree.exists? candidate = true
          · rw [if_pos hexists]
            intro heq
            cases heq
          · rw [if_neg hexists]
            exact ih

theorem clean_newHeader (source : SourcePath) {header : Text}
    (hclean : Clean header) : Clean (project.newHeader source header) := by
  rw [newHeader]
  cases hfound : project.found source header with
  | error error => exact clean_asPosix hclean
  | ok answer =>
      cases answer with
      | none => exact clean_asPosix hclean
      | some resolved =>
          exact clean_mangle (Tree.plain_of_exists (search_exists hfound))

end Project

end UvMbt.Prepare
