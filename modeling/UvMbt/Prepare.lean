/-
`scripts/prepare.py` copies a tree of C sources into one flat directory.  The
name of a copy is the path of its source with `#` between the components, and
every `#include "…"` that names a file of the tree is changed to the name of
that file's copy, which is made when it is not there yet.
-/
import Mathlib.Data.Finset.Insert
import UvMbt.IncludeScan

set_option autoImplicit false

namespace UvMbt.Prepare

/-- One component of a path. -/
abbrev Part := Text

/-- A file or directory of the source tree, from the tree's root. -/
abbrev SourcePath := List Part

/-- A file name in the flat target directory. -/
abbrev Name := Text

/-- A `Path` made from the text of a header. -/
structure Path where
  root : Text
  parts : List Part
deriving DecidableEq

/-- The root of a path is its leading slash; exactly two of them stay two. -/
def rootOf (text : Text) : Text :=
  let slashes := text.takeWhile (· = '/')
  if slashes.length = 2 then slashes else slashes.take 1

/-- `Path(text)`: doubled slashes and `.` components disappear, `..` stays. -/
def Path.ofText (text : Text) : Path where
  root := rootOf text
  parts := (text.splitOn '/').filter fun part => part ≠ [] ∧ part ≠ ['.']

/-- `path.as_posix()`. -/
def Path.asPosix (path : Path) : Text :=
  if path.root = [] ∧ path.parts = [] then ['.']
  else path.root ++ ['/'].intercalate path.parts

/-- `Path.resolve()` on the components of an absolute path, in a tree without
symbolic links. -/
def resolve (parts : List Part) : List Part :=
  parts.foldl (fun resolved part =>
    if part = ['.', '.'] then resolved.dropLast else resolved ++ [part]) []

inductive Raise where
  | valueError
  | isADirectory
  | fileNotFound
  | recursionLimit
deriving DecidableEq

/-- The text a directive can hold, in a path component: the scan finds it
again, and `#` separates components. -/
def Plain (part : Part) : Prop := '#' ∉ part ∧ Clean part

instance (part : Part) : Decidable (Plain part) :=
  inferInstanceAs (Decidable ('#' ∉ part ∧ Clean part))

/-- The source tree. -/
structure Tree where
  files : List (SourcePath × Text)
  directories : List SourcePath
  plain_files : ∀ file ∈ files, ∀ part ∈ file.1, Plain part
  plain_directories : ∀ path ∈ directories, ∀ part ∈ path, Plain part

namespace Tree

variable (tree : Tree)

/-- `read_text`. -/
def read (path : SourcePath) : Except Raise Text :=
  match tree.files.lookup path with
  | some content => .ok content
  | none =>
      .error (if path ∈ tree.directories then .isADirectory else .fileNotFound)

def exists? (path : SourcePath) : Bool :=
  (tree.files.lookup path).isSome || decide (path ∈ tree.directories)

end Tree

/-- The sources `configure` lists, each with its condition. -/
abbrev Sources := List (SourcePath × Option Text)

/-- The attributes of a `Project` that its methods never change: `source`
resolved, what is under it, the `include` directories below it and `prefix`. -/
structure Project where
  source : List Part
  tree : Tree
  includes : List SourcePath
  prefixName : Part
  clean_prefixName : Clean prefixName
  name_prefixName : Path.ofText prefixName = ⟨[], [prefixName]⟩

/-- The target directory and `Project.copied`. -/
structure State where
  target : Name → Option Text
  copied : Finset Name

/-- `(self.target / target).write_text(content)` and `self.copied.add`. -/
def State.write (s : State) (name : Name) (content : Text) : State where
  target other := if other = name then some content else s.target other
  copied := insert name s.copied

/-- The `defines` every listed source starts with. -/
def defines : Text :=
  ["#ifdef _WIN32", "#define WIN32_LEAN_AND_MEAN",
    "#define _WIN32_WINNT 0x0A00", "#define _CRT_DECLARE_NONSTDC_NAMES 0",
    "#else", "#define _FILE_OFFSET_BITS 64", "#define _LARGEFILE_SOURCE",
    "#endif", "", "#ifdef __APPLE__", "#define _DARWIN_UNLIMITED_SELECT 1",
    "#define _DARWIN_USE_64_BIT_INODE 1", "#endif", "", "#ifdef __linux__",
    "#define _GNU_SOURCE", "#define _POSIX_C_SOURCE 200112",
    "#endif"].flatMap fun line => line.toList ++ ['\n']

/-- `Project.condition`. -/
def conditioned (condition content : Text) : Text :=
  "#if ".toList ++ condition ++ ['\n'] ++ content ++ "\n#endif\n".toList

namespace Project

variable (project : Project)

/-- `Project.mangle`. -/
def mangle (source : SourcePath) : Name :=
  ['#'].intercalate (project.prefixName :: source)

/-- `((directory / header).resolve()).relative_to(self.source.resolve())`. -/
def resolveIn (directory : SourcePath) (header : Path) :
    Except Raise SourcePath :=
  let parts := if header.root = []
    then project.source ++ directory ++ header.parts else header.parts
  match project.source.isPrefixOf? (resolve parts) with
  | some resolved => .ok resolved
  | none => .error .valueError

/-- The loop over `include_directories`. -/
def search : List SourcePath → Path → Except Raise (Option SourcePath)
  | [], _ => .ok none
  | directory :: directories, header => do
      let resolved ← project.resolveIn directory header
      if project.tree.exists? resolved then .ok (some resolved)
      else search directories header

/-- `copy`, with what it does to the content between reading and writing. -/
def copyWith (relocate : Text → State → Except Raise (Text × State))
    (source : SourcePath) (prepareDefines : Bool) (condition : Option Text)
    (s : State) : Except Raise State := do
  let content ← project.tree.read source
  let content := if prepareDefines then defines ++ content else content
  let (content, s) ← relocate content s
  let content := match condition with
    | none => content
    | some condition => conditioned condition content
  .ok (s.write (project.mangle source) content)

/-- `copy` with `prepare_defines=False` and `relocate=False`. -/
def copyRaw (source : SourcePath) (s : State) : Except Raise State :=
  project.copyWith (fun content s => .ok (content, s)) source false none s

/-- The function `relocate(header)` inside `Project.relocate`. -/
def relocateHeader (directories : List SourcePath) (header : Path)
    (headers : List SourcePath) (s : State) :
    Except Raise (Text × List SourcePath × State) := do
  match ← project.search directories header with
  | none => .ok (header.asPosix, headers, s)
  | some resolved =>
      let relocated := project.mangle resolved
      if (s.target relocated).isSome then .ok (relocated, headers, s)
      else do
        let s ← project.copyRaw resolved s
        .ok (relocated, headers ++ [resolved], s)

/-- `re.sub(…, replace, content)` over the pieces of the content. -/
def replaceAll (directories : List SourcePath) :
    List Piece → List SourcePath → State →
      Except Raise (Text × List SourcePath × State)
  | [], headers, s => .ok ([], headers, s)
  | .char c :: pieces, headers, s => do
      let (content, headers, s) ← replaceAll directories pieces headers s
      .ok (c :: content, headers, s)
  | .directive indent header :: pieces, headers, s => do
      let (relocated, headers, s) ←
        project.relocateHeader directories (Path.ofText header) headers s
      let (content, headers, s) ← replaceAll directories pieces headers s
      .ok ((Piece.directive indent relocated).render ++ content, headers, s)

/-- `include_directories` of a source: its own directory comes first. -/
def directories (source : SourcePath) : List SourcePath :=
  source.dropLast :: project.includes

/-- `Project.copy` with `relocate=True`, and `Project.relocate` inside it.  The
fuel bounds the depth of the recursion. -/
def copy : Nat → SourcePath → Bool → Option Text → State → Except Raise State
  | 0, _, _, _, _ => .error .recursionLimit
  | fuel + 1, source, prepareDefines, condition, s =>
      project.copyWith (fun content s => do
        let (content, headers, s) ←
          project.replaceAll (project.directories source) (scan content) [] s
        let s ← headers.foldlM
          (fun s header => copy fuel header false none s) s
        .ok (content, s)) source prepareDefines condition s

/-- `configure`: the listed sources in turn, each with its condition. -/
def configure (fuel : Nat) (sources : Sources) (s : State) :
    Except Raise State :=
  sources.foldlM (fun s source => project.copy fuel source.1 true source.2 s) s

end Project

end UvMbt.Prepare
