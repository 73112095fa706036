/-
The stdio of child processes: containers whose union holds a stream or a
descriptor, options that take over what their containers hold, and the
finalizers of both.
-/
import UvMbt.GuardedRun
import UvMbt.Ledger

set_option autoImplicit false

namespace UvMbt.StdioContainers

open GuardedRun

/-- `uv_stdio_flags`. -/
def uvIgnore : Nat := 0x00
def uvCreatePipe : Nat := 0x01
def uvInheritFd : Nat := 0x02
def uvInheritStream : Nat := 0x04
def uvReadablePipe : Nat := 0x10
def uvWritablePipe : Nat := 0x20
def uvNonblockPipe : Nat := 0x40

/-- A word read as a pointer. -/
inductive Pointer where
  | null
  | object (addr : Nat)
  | descriptor (fd : Int)
  deriving Repr, DecidableEq

/-- The bytes of the union of `stream` and `fd`. -/
inductive Data where
  | zero
  | stream (addr : Nat)
  | descriptor (value : Int) (nonzero : value ≠ 0)
  deriving DecidableEq

/-- What a container is asked to be. -/
inductive Config where
  | ignore
  | createPipe (stream : Nat) (readable writable nonBlock : Bool)
  | inheritFd (fd : Int)
  | inheritStream (stream : Nat)
  deriving Repr, DecidableEq

/-- `uv_stdio_container_t`. -/
structure Container where
  flags : Nat
  data : Data
  deriving DecidableEq

section Containers

/-- `data.stream` of the union. -/
def Data.pointer : Data → Pointer
  | .zero => .null
  | .stream addr => .object addr
  | .descriptor value _ => .descriptor value

/-- `data.fd`, unless the bytes are those of an address. -/
def Data.fd? : Data → Option Int
  | .zero => some 0
  | .stream _ => none
  | .descriptor value _ => some value

/-- Storing a descriptor over zero bytes. -/
def Data.ofFd (fd : Int) : Data :=
  if nonzero : fd = 0 then .zero else .descriptor fd nonzero

/-- A container after `memset`. -/
def Container.zeroed : Container := ⟨0, .zero⟩

/-- `moonbit_uv_stdio_container_ignore`. -/
def Container.ignore : Container := { Container.zeroed with flags := uvIgnore }

/-- `moonbit_uv_stdio_container_create_pipe`. -/
def Container.createPipe (stream : Nat) (readable writable nonBlock : Bool) :
    Container :=
  let flags := uvCreatePipe
  let flags := if readable then flags ||| uvReadablePipe else flags
  let flags := if writable then flags ||| uvWritablePipe else flags
  let flags := if nonBlock then flags ||| uvNonblockPipe else flags
  ⟨flags, .stream stream⟩

/-- `moonbit_uv_stdio_container_inherit_fd`. -/
def Container.inheritFd (fd : Int) : Container := ⟨uvInheritFd, .ofFd fd⟩

/-- `moonbit_uv_stdio_container_inherit_stream`. -/
def Container.inheritStream (stream : Nat) : Container :=
  ⟨uvInheritStream, .stream stream⟩

def Config.make : Config → Container
  | .ignore => .ignore
  | .createPipe stream readable writable nonBlock =>
      .createPipe stream readable writable nonBlock
  | .inheritFd fd => .inheritFd fd
  | .inheritStream stream => .inheritStream stream

/-- The stream references that a constructor takes. -/
def Config.acquired : Config → List Nat
  | .createPipe stream _ _ _ | .inheritStream stream => [stream]
  | .ignore | .inheritFd _ => []

/-- What libuv reads from a container. -/
def Container.config (container : Container) : Option Config :=
  let mask := container.flags &&&
    (uvIgnore ||| uvCreatePipe ||| uvInheritFd ||| uvInheritStream)
  if mask = uvIgnore then some .ignore
  else if mask = uvCreatePipe then
    match container.data.pointer with
    | .object stream => some (.createPipe stream
        (container.flags &&& uvReadablePipe ≠ 0)
        (container.flags &&& uvWritablePipe ≠ 0)
        (container.flags &&& uvNonblockPipe ≠ 0))
    | _ => none
  else if mask = uvInheritFd then container.data.fd?.map .inheritFd
  else if mask = uvInheritStream then
    match container.data.pointer with
    | .object stream => some (.inheritStream stream)
    | _ => none
  else none

/-- `moonbit_uv_stdio_container_finalize`: the pointers it releases. -/
def Container.finalize (container : Container) : List Pointer :=
  if container.data.pointer = .null then [] else [container.data.pointer]

/-- The part of `moonbit_uv_process_options_finalize` for one descriptor. -/
def Container.finalizeMoved (container : Container) : List Pointer :=
  if container.flags &&& (uvInheritStream ||| uvCreatePipe) ≠ 0 then
    [container.data.pointer]
  else []

end Containers

section Runs

/-- A container object with what it was built as. -/
structure Cell where
  built : Config
  content : Container
  alive : Bool
  deriving DecidableEq

/-- A `ProcessOptions` object with the containers it was given. -/
structure Options where
  stdio : List Container
  used : List Nat
  alive : Bool
  deriving DecidableEq

/-- `acquired` and `released` are the stream references that constructors took
and finalizers gave back. -/
structure State where
  containers : List Cell
  options : List Options
  acquired : List Nat
  released : List Pointer
  deriving DecidableEq

inductive Label where
  | make (config : Config)
  | newOptions (used : List Nat)
  | dropContainer (container : Nat)
  | dropOptions (options : Nat)
  deriving Repr, DecidableEq

inductive Fault where
  | dropped
  deriving Repr, DecidableEq

def State.empty : State := ⟨[], [], [], []⟩

def getCell (cells : List Cell) (container : Nat) : Except Fault Cell :=
  match cells[container]? with
  | some cell => if cell.alive then .ok cell else .error .dropped
  | none => .error .dropped

/-- The loop of `moonbit_uv_process_options_set_stdio`: each container in turn
is copied to the options and set to zero. -/
def setStdio : List Cell → List Nat → Except Fault (List Container × List Cell)
  | cells, [] => .ok ([], cells)
  | cells, container :: rest => do
      let cell ← getCell cells container
      let (stdio, cells) ← setStdio
        (cells.set container { cell with content := .zeroed }) rest
      return (cell.content :: stdio, cells)

def step (s : State) : Label → Except Fault State
  | .make config => .ok { s with
      containers := s.containers ++ [⟨config, config.make, true⟩]
      acquired := s.acquired ++ config.acquired }
  | .newOptions used => do
      let (stdio, containers) ← setStdio s.containers used
      return { s with
        containers, options := s.options ++ [⟨stdio, used, true⟩] }
  | .dropContainer container => do
      let cell ← getCell s.containers container
      return { s with
        containers := s.containers.set container { cell with alive := false }
        released := s.released ++ cell.content.finalize }
  | .dropOptions index =>
      match s.options[index]? with
      | some options =>
          if options.alive then
            .ok { s with
              options := s.options.set index { options with alive := false }
              released := s.released ++
                options.stdio.flatMap Container.finalizeMoved }
          else .error .dropped
      | none => .error .dropped

end Runs

section Statement

variable (s : State)

/-- What a container was built as. -/
def built (cells : List Cell) (container : Nat) : Option Config :=
  cells[container]?.map Cell.built

/-- What the drop of a container, or of options, is still to release. -/
def Cell.pending (cell : Cell) : List Pointer :=
  if cell.alive then cell.content.finalize else []

def Options.pending (options : Options) : List Pointer :=
  if options.alive then options.stdio.flatMap Container.finalizeMoved else []

/-- Child descriptors are what the containers at their places were built as. -/
def Configured : Prop :=
  ∀ options ∈ s.options,
    options.stdio.map Container.config = options.used.map (built s.containers)

/-- No number was released as a pointer. -/
def OnlyStreams : Prop :=
  ∀ pointer ∈ s.released, ∃ stream, pointer = .object stream

/-- Every reference that was acquired is released, or is to be released by the
drop of one container or of one `ProcessOptions`. -/
def Accounted : Prop :=
  ∀ stream, s.acquired.count stream = s.released.count (.object stream) +
    ((s.containers.flatMap Cell.pending).count (.object stream) +
      (s.options.flatMap Options.pending).count (.object stream))

def Sound : Prop := Configured s ∧ OnlyStreams s ∧ Accounted s

/-- The containers that some options were given. -/
def State.seen : List Nat := s.options.flatMap Options.used

/-- Of the containers of a list, none is used again that does not stand for
`ignore`. -/
def FirstUses (cells : List Cell) : List Nat → List Nat → Prop
  | _, [] => True
  | seen, container :: rest =>
      (container ∈ seen → built cells container = some .ignore) ∧
        FirstUses cells (container :: seen) rest

instance decidableFirstUses (cells : List Cell) :
    ∀ seen used, Decidable (FirstUses cells seen used)
  | _, [] => isTrue trivial
  | seen, container :: rest =>
      have := decidableFirstUses cells (container :: seen) rest
      inferInstanceAs (Decidable (_ ∧ _))

/-- A descriptor other than 0, which a finalizer would take for an address. -/
def HoldsNumber : Option Config → Prop
  | some (.inheritFd fd) => fd ≠ 0
  | _ => False

instance : DecidablePred HoldsNumber
  | some (.inheritFd _) => inferInstanceAs (Decidable (_ ≠ _))
  | none | some .ignore | some (.createPipe _ _ _ _)
  | some (.inheritStream _) => isFalse False.elim

/-- A container is not used again, and one with a descriptor is not dropped
before it was used. -/
def UsedOnce : Label → Prop
  | .newOptions used => FirstUses s.containers s.seen used
  | .dropContainer container =>
      container ∈ s.seen ∨ ¬ HoldsNumber (built s.containers container)
  | .make _ | .dropOptions _ => True

instance : DecidablePred (UsedOnce s)
  | .newOptions used => inferInstanceAs (Decidable (FirstUses _ _ used))
  | .dropContainer _ => inferInstanceAs (Decidable (_ ∨ ¬ _))
  | .make _ | .dropOptions _ => isTrue trivial

end Statement

section Contents

/-- libuv reads from a container what it was built as. -/
theorem config_make (config : Config) : config.make.config = some config := by
  cases config with
  | ignore => rfl
  | createPipe stream readable writable nonBlock =>
      cases readable <;> cases writable <;> cases nonBlock <;>
        simp [Config.make, Container.createPipe, Container.config, Data.pointer,
          uvIgnore, uvCreatePipe, uvInheritFd, uvInheritStream, uvReadablePipe,
          uvWritablePipe, uvNonblockPipe]
  | inheritFd fd =>
      by_cases hzero : fd = 0
      · subst hzero
        rfl
      · simp [Config.make, Container.inheritFd, Data.ofFd, hzero,
          Container.config, Data.fd?, uvIgnore, uvCreatePipe, uvInheritFd,
          uvInheritStream]
  | inheritStream stream =>
      simp [Config.make, Container.inheritStream, Container.config,
        Data.pointer, uvIgnore, uvCreatePipe, uvInheritFd, uvInheritStream]

theorem config_zeroed : Container.zeroed.config = some .ignore := rfl

theorem finalize_zeroed : Container.zeroed.finalize = [] := rfl

/-- The options release the stream that the container took. -/
theorem finalizeMoved_make (config : Config) :
    config.make.finalizeMoved = config.acquired.map .object := by
  cases config with
  | createPipe stream readable writable nonBlock =>
      cases readable <;> cases writable <;> cases nonBlock <;>
        simp [Config.make, Container.createPipe, Container.finalizeMoved,
          Data.pointer, Config.acquired, uvCreatePipe, uvInheritStream,
          uvReadablePipe, uvWritablePipe, uvNonblockPipe]
  | ignore => rfl
  | inheritFd fd =>
      simp [Config.make, Container.inheritFd, Container.finalizeMoved,
        Config.acquired, uvCreatePipe, uvInheritFd, uvInheritStream]
  | inheritStream stream =>
      simp [Config.make, Container.inheritStream, Container.finalizeMoved,
        Data.pointer, Config.acquired, uvCreatePipe, uvInheritStream]

/-- The container itself would release a descriptor as well. -/
theorem finalize_make (config : Config) :
    ¬ HoldsNumber (some config) ∧
        config.make.finalize = config.acquired.map .object ∨
      ∃ fd, fd ≠ 0 ∧ config = .inheritFd fd ∧
        config.make.finalize = [.descriptor fd] := by
  cases config with
  | ignore => exact Or.inl ⟨id, rfl⟩
  | createPipe stream readable writable nonBlock => exact Or.inl ⟨id, rfl⟩
  | inheritStream stream => exact Or.inl ⟨id, rfl⟩
  | inheritFd fd =>
      by_cases hzero : fd = 0
      · subst hzero
        exact Or.inl ⟨fun hne => hne rfl, rfl⟩
      · right
        refine ⟨fd, hzero, rfl, ?_⟩
        simp [Config.make, Container.inheritFd, Data.ofFd, hzero,
          Container.finalize, Data.pointer]

theorem count_map_object (streams : List Nat) (stream : Nat) :
    (streams.map Pointer.object).count (.object stream) =
      streams.count stream := by
  have hinjective : Function.Injective Pointer.object := by
    intro left right heq
    exact Pointer.object.inj heq
  exact List.count_map_of_injective streams _ hinjective stream

theorem count_finalize_make (config : Config) (stream : Nat) :
    config.make.finalize.count (.object stream) =
      config.acquired.count stream := by
  rcases finalize_make config with ⟨-, heq⟩ | ⟨fd, -, rfl, heq⟩
  · rw [heq, count_map_object]
  · rw [heq]
    rfl

theorem finalize_make_only (config : Config) :
    (∀ pointer ∈ config.make.finalize, ∃ stream, pointer = .object stream) ↔
      ¬ HoldsNumber (some config) := by
  rcases finalize_make config with ⟨hnot, heq⟩ | ⟨fd, hfd, rfl, heq⟩
  · rw [heq]
    refine ⟨fun _ => hnot, fun _ => ?_⟩
    intro pointer hpointer
    rcases List.mem_map.mp hpointer with ⟨stream, -, rfl⟩
    exact ⟨stream, rfl⟩
  · rw [heq]
    simp [HoldsNumber, hfd]

/-- What was moved to the options is what a container was built as, or
nothing. -/
def Moved (container : Container) : Prop :=
  container = .zeroed ∨ ∃ config : Config, container = config.make

theorem Moved.count_eq {container : Container} (hmoved : Moved container)
    (stream : Nat) :
    container.finalize.count (.object stream) =
      container.finalizeMoved.count (.object stream) := by
  rcases hmoved with rfl | ⟨config, rfl⟩
  · rfl
  · rw [count_finalize_make, finalizeMoved_make, count_map_object]

theorem Moved.only {container : Container} (hmoved : Moved container) :
    ∀ pointer ∈ container.finalizeMoved, ∃ stream, pointer = .object stream := by
  rcases hmoved with rfl | ⟨config, rfl⟩
  · intro pointer hpointer
    cases hpointer
  · rw [finalizeMoved_make]
    intro pointer hpointer
    rcases List.mem_map.mp hpointer with ⟨stream, -, rfl⟩
    exact ⟨stream, rfl⟩

/-- A container that was used is empty, and any other is as it was built. -/
def Contents (cells : List Cell) (seen : List Nat) : Prop :=
  ∀ container cell, cells[container]? = some cell →
    cell.content =
      if container ∈ seen then .zeroed else cell.built.make

theorem Contents.moved {cells : List Cell} {seen : List Nat}
    (hcontents : Contents cells seen) {container : Nat} {cell : Cell}
    (hcell : cells[container]? = some cell) : Moved cell.content := by
  rw [hcontents container cell hcell]
  split
  · exact Or.inl rfl
  · exact Or.inr ⟨_, rfl⟩

theorem getCell_ok {cells : List Cell} {container : Nat} {cell : Cell}
    (hget : getCell cells container = .ok cell) :
    cells[container]? = some cell ∧ cell.alive = true := by
  cases hcell : cells[container]? with
  | none => simp [getCell, hcell] at hget
  | some found =>
      rw [getCell, hcell] at hget
      by_cases halive : found.alive = true
      · simp only [halive, if_true, Except.ok.injEq] at hget
        subst hget
        exact ⟨rfl, halive⟩
      · simp [halive] at hget

end Contents

section SetStdio

variable {cells after : List Cell} {used seen : List Nat}
  {stdio : List Container}

theorem setStdio_cons {container : Nat} {rest : List Nat}
    (hrun : setStdio cells (container :: rest) = .ok (stdio, after)) :
    ∃ cell moved, cells[container]? = some cell ∧ cell.alive = true ∧
      setStdio (cells.set container { cell with content := .zeroed }) rest =
        .ok (moved, after) ∧
      stdio = cell.content :: moved := by
  rcases bind_eq_ok hrun with ⟨cell, hget, hrun⟩
  rcases bind_eq_ok hrun with ⟨⟨moved, cells'⟩, hrest, hdone⟩
  rcases getCell_ok hget with ⟨hcell, halive⟩
  cases hdone
  exact ⟨cell, moved, hcell, halive, hrest, rfl⟩

theorem built_set {container : Nat} {cell : Cell}
    (hcell : cells[container]? = some cell) (content : Container) (alive : Bool)
    (other : Nat) :
    built (cells.set container ⟨cell.built, content, alive⟩) other =
      built cells other := by
  have hlt := (List.getElem?_eq_some_iff.mp hcell).1
  by_cases heq : container = other
  · subst heq
    rw [built, built, hcell, List.getElem?_set_self hlt]
    rfl
  · simp [built, heq]

theorem Contents.set (hcontents : Contents cells seen) {container : Nat}
    {cell : Cell} (hcell : cells[container]? = some cell) :
    Contents (cells.set container { cell with content := .zeroed })
      (container :: seen) := by
  have hlt := (List.getElem?_eq_some_iff.mp hcell).1
  intro other found hfound
  by_cases heq : container = other
  · subst heq
    simp only [List.getElem?_set_self hlt, Option.some.injEq] at hfound
    subst hfound
    simp
  · rw [List.getElem?_set_ne heq] at hfound
    rw [hcontents other found hfound]
    simp [Ne.symm heq]

theorem setStdio_built (hrun : setStdio cells used = .ok (stdio, after)) :
    built after = built cells := by
  induction used generalizing cells stdio with
  | nil =>
      cases hrun
      rfl
  | cons container rest ih =>
      rcases setStdio_cons hrun with ⟨cell, moved, hcell, -, hrest, -⟩
      rw [ih hrest]
      funext other
      exact built_set hcell .zeroed cell.alive other

theorem setStdio_length (hrun : setStdio cells used = .ok (stdio, after)) :
    after.length = cells.length ∧ ∀ container ∈ used,
      container < cells.length := by
  induction used generalizing cells stdio with
  | nil =>
      cases hrun
      exact ⟨rfl, by simp⟩
  | cons container rest ih =>
      rcases setStdio_cons hrun with ⟨cell, moved, hcell, -, hrest, -⟩
      have hlt := (List.getElem?_eq_some_iff.mp hcell).1
      simpa [hlt] using ih hrest

theorem setStdio_contents (hcontents : Contents cells seen)
    (hrun : setStdio cells used = .ok (stdio, after)) :
    Contents after (used.reverse ++ seen) ∧
      ∀ container ∈ stdio, Moved container := by
  induction used generalizing cells stdio seen with
  | nil =>
      cases hrun
      exact ⟨hcontents, by simp⟩
  | cons container rest ih =>
      rcases setStdio_cons hrun with ⟨cell, moved, hcell, -, hrest, rfl⟩
      have hlater := ih (hcontents.set hcell) hrest
      constructor
      · simpa using hlater.1
      · intro other hother
        rcases List.mem_cons.mp hother with rfl | hmem
        · exact hcontents.moved hcell
        · exact hlater.2 other hmem

/-- What the containers were to release is now for the options. -/
theorem setStdio_pending (hcontents : Contents cells seen)
    (hrun : setStdio cells used = .ok (stdio, after)) (stream : Nat) :
    (cells.flatMap Cell.pending).count (.object stream) =
      (after.flatMap Cell.pending).count (.object stream) +
        (stdio.flatMap Container.finalizeMoved).count (.object stream) := by
  induction used generalizing cells stdio seen with
  | nil =>
      cases hrun
      simp
  | cons container rest ih =>
      rcases setStdio_cons hrun with ⟨cell, moved, hcell, halive, hrest, rfl⟩
      have hlater := ih (hcontents.set hcell) hrest
      have hset := Ledger.count_set Cell.pending
        { cell with content := .zeroed } hcell (.object stream)
      have hmoved := (hcontents.moved hcell).count_eq stream
      have hold : cell.pending = cell.content.finalize := if_pos halive
      have hnew : Cell.pending { cell with content := .zeroed } = [] :=
        if_pos halive
      rw [hold, hnew, List.count_nil] at hset
      rw [List.flatMap_cons, List.count_append]
      omega

theorem firstUses_congr {other : List Cell} (hbuilt : built cells = built other)
    (used seen : List Nat) :
    FirstUses cells seen used ↔ FirstUses other seen used := by
  induction used generalizing seen with
  | nil => exact Iff.rfl
  | cons container rest ih => rw [FirstUses, FirstUses, hbuilt, ih]

/-- The children get what the containers were built as exactly when none but
`ignore` is used again. -/
theorem setStdio_config_iff (hcontents : Contents cells seen)
    (hrun : setStdio cells used = .ok (stdio, after)) :
    stdio.map Container.config = used.map (built cells) ↔
      FirstUses cells seen used := by
  induction used generalizing cells stdio seen with
  | nil =>
      cases hrun
      exact iff_of_true rfl trivial
  | cons container rest ih =>
      rcases setStdio_cons hrun with ⟨cell, moved, hcell, -, hrest, rfl⟩
      have hbuilt : built (cells.set container
          { cell with content := .zeroed }) = built cells := by
        funext other
        exact built_set hcell .zeroed cell.alive other
      have hlater := ih (hcontents.set hcell) hrest
      rw [hbuilt, firstUses_congr hbuilt] at hlater
      have hfirst : cell.content.config = built cells container ↔
          (container ∈ seen → built cells container = some .ignore) := by
        rw [hcontents container cell hcell, built, hcell, Option.map_some]
        by_cases hseen : container ∈ seen
        · simp [hseen, config_zeroed, eq_comm]
        · simp [hseen, config_make]
      rw [List.map_cons, List.map_cons, List.cons.injEq, hlater, hfirst,
        FirstUses]

end SetStdio

section Steps

variable {s next : State}

/-- The invariant of every run, whatever the containers are used for. -/
structure Inv (s : State) : Prop where
  contents : Contents s.containers s.seen
  seen_lt : ∀ container ∈ s.seen, container < s.containers.length
  moved : ∀ options ∈ s.options, ∀ container ∈ options.stdio, Moved container
  accounted : Accounted s

/-- What can go wrong, and stays wrong. -/
def Right (s : State) : Prop := Configured s ∧ OnlyStreams s

theorem Inv.sound_iff (hinv : Inv s) : Sound s ↔ Right s := by
  rw [Sound, Right, and_iff_left hinv.accounted]

theorem inv_empty : Inv .empty where
  contents _ _ hcell := by simp [State.empty] at hcell
  seen_lt _ hmem := by simp [State.seen, State.empty] at hmem
  moved _ hmem := by simp [State.empty] at hmem
  accounted _ := rfl

theorem make_step (config : Config) (hinv : Inv s)
    (hstep : step s (.make config) = .ok next) :
    Inv next ∧ (Right next ↔ Right s) := by
  cases hstep
  have hlookup : ∀ container, container < s.containers.length →
      (s.containers ++ [(⟨config, config.make, true⟩ : Cell)])[container]? =
        s.containers[container]? := fun container hlt =>
    List.getElem?_append_left hlt
  constructor
  · constructor
    · intro container cell hcell
      rcases Nat.lt_or_ge container s.containers.length with hlt | hge
      · rw [hlookup container hlt] at hcell
        exact hinv.contents container cell hcell
      · have hfresh : container ∉ s.seen := by
          intro hmem
          exact absurd (hinv.seen_lt container hmem) (Nat.not_lt.mpr hge)
        have hlast := (List.getElem?_eq_some_iff.mp hcell).1
        rw [List.length_append, List.length_singleton] at hlast
        have heq : container = s.containers.length := by omega
        subst heq
        rw [List.getElem?_concat_length, Option.some.injEq] at hcell
        subst hcell
        exact (if_neg hfresh).symm
    · intro container hmem
      have hlt := hinv.seen_lt container hmem
      rw [List.length_append]
      omega
    · exact hinv.moved
    · intro stream
      have hbefore := hinv.accounted stream
      have hmade := count_finalize_make config stream
      have hnew : Cell.pending ⟨config, config.make, true⟩ =
          config.make.finalize := rfl
      simp only [List.count_append, List.flatMap_append, List.flatMap_cons,
        List.flatMap_nil, List.append_nil, hnew]
      omega
  · rw [Right, Right]
    apply and_congr ?_ Iff.rfl
    apply forall₂_congr
    intro options hoptions
    have hsame : options.used.map (built
        (s.containers ++ [(⟨config, config.make, true⟩ : Cell)])) =
        options.used.map (built s.containers) := by
      apply List.map_congr_left
      intro container hmem
      have hlt := hinv.seen_lt container
        (List.mem_flatMap.mpr ⟨options, hoptions, hmem⟩)
      rw [built, built, hlookup container hlt]
    rw [hsame]

theorem newOptions_step (used : List Nat) (hinv : Inv s)
    (hstep : step s (.newOptions used) = .ok next) :
    Inv next ∧
      (Right next ↔ Right s ∧ FirstUses s.containers s.seen used) := by
  rcases bind_eq_ok hstep with ⟨⟨stdio, containers⟩, hrun, hdone⟩
  cases hdone
  rcases setStdio_contents hinv.contents hrun with ⟨hcontents, hmoved⟩
  rcases setStdio_length hrun with ⟨hlength, hused⟩
  have hseen : State.seen { s with
      containers, options := s.options ++ [⟨stdio, used, true⟩] } =
        s.seen ++ used := by
    simp [State.seen]
  constructor
  · constructor
    · intro container cell hcell
      rw [hcontents container cell hcell, hseen]
      simp [or_comm]
    · intro container hmem
      rw [hseen, List.mem_append] at hmem
      rw [hlength]
      rcases hmem with hmem | hmem
      · exact hinv.seen_lt container hmem
      · exact hused container hmem
    · intro options hoptions
      rcases List.mem_append.mp hoptions with hold | hnew
      · exact hinv.moved options hold
      · rw [List.mem_singleton.mp hnew]
        exact hmoved
    · intro stream
      have hbefore := hinv.accounted stream
      have hpending := setStdio_pending hinv.contents hrun stream
      have hnew : Options.pending ⟨stdio, used, true⟩ =
          stdio.flatMap Container.finalizeMoved := rfl
      simp only [List.count_append, List.flatMap_append, List.flatMap_cons,
        List.flatMap_nil, List.append_nil, hnew]
      omega
  · rw [← setStdio_config_iff hinv.contents hrun, Right, Right, Configured,
      Configured]
    simp only [setStdio_built hrun, List.mem_append, List.mem_singleton]
    constructor
    · rintro ⟨hconfigured, honly⟩
      refine ⟨⟨fun options hold => hconfigured options (Or.inl hold), honly⟩, ?_⟩
      exact hconfigured _ (Or.inr rfl)
    · rintro ⟨⟨hconfigured, honly⟩, hnew⟩
      refine ⟨?_, honly⟩
      rintro options (hold | rfl)
      · exact hconfigured options hold
      · exact hnew

/-- Releasing more keeps what was right exactly when what is released is. -/
theorem onlyStreams_append (released more : List Pointer) :
    (∀ pointer ∈ released ++ more, ∃ stream, pointer = .object stream) ↔
      (∀ pointer ∈ released, ∃ stream, pointer = .object stream) ∧
        ∀ pointer ∈ more, ∃ stream, pointer = .object stream :=
  List.forall_mem_append

theorem dropContainer_step (container : Nat) (hinv : Inv s)
    (hstep : step s (.dropContainer container) = .ok next) :
    Inv next ∧ (Right next ↔ Right s ∧
      (container ∈ s.seen ∨ ¬ HoldsNumber (built s.containers container))) := by
  rcases bind_eq_ok hstep with ⟨cell, hget, hdone⟩
  rcases getCell_ok hget with ⟨hcell, halive⟩
  cases hdone
  have hlt := (List.getElem?_eq_some_iff.mp hcell).1
  have hbuilt : built (s.containers.set container
      { cell with alive := false }) = built s.containers := by
    funext other
    exact built_set hcell cell.content false other
  constructor
  · constructor
    · intro other found hfound
      by_cases heq : container = other
      · subst heq
        simp only [List.getElem?_set_self hlt, Option.some.injEq] at hfound
        subst hfound
        exact hinv.contents container cell hcell
      · rw [List.getElem?_set_ne heq] at hfound
        exact hinv.contents other found hfound
    · intro other hmem
      rw [List.length_set]
      exact hinv.seen_lt other hmem
    · exact hinv.moved
    · intro stream
      have hbefore := hinv.accounted stream
      have hset := Ledger.count_set Cell.pending
        { cell with alive := false } hcell (.object stream)
      have hold : cell.pending = cell.content.finalize := if_pos halive
      have hnew : Cell.pending { cell with alive := false } = [] := rfl
      rw [hold, hnew, List.count_nil] at hset
      simp only [List.count_append]
      omega
  · have hcontent : (∀ pointer ∈ cell.content.finalize,
        ∃ stream, pointer = .object stream) ↔
        (container ∈ s.seen ∨
          ¬ HoldsNumber (built s.containers container)) := by
      rw [hinv.contents container cell hcell, built, hcell, Option.map_some,
        ← finalize_make_only]
      by_cases hseen : container ∈ s.seen
      · simp [hseen, finalize_zeroed]
      · simp [hseen]
    rw [← hcontent, Right, Right, Configured, Configured, OnlyStreams,
      OnlyStreams, hbuilt, onlyStreams_append, and_assoc]

theorem configured_iff (s : State) :
    Configured s ↔ ∀ pair ∈ s.options.map (fun options =>
      (options.stdio, options.used)),
        pair.1.map Container.config = pair.2.map (built s.containers) := by
  simp [Configured]

theorem dropOptions_step (index : Nat) (hinv : Inv s)
    (hstep : step s (.dropOptions index) = .ok next) :
    Inv next ∧ (Right next ↔ Right s) := by
  cases hoptions : s.options[index]? with
  | none => simp [step, hoptions] at hstep
  | some options =>
      by_cases halive : options.alive = true
      · simp only [step, hoptions, halive, if_true, Except.ok.injEq] at hstep
        subst hstep
        have hmoved := hinv.moved options (List.mem_of_getElem? hoptions)
        have hused := Ledger.map_set Options.used
          { options with alive := false } hoptions rfl
        have hpairs := Ledger.map_set (fun options : Options =>
          (options.stdio, options.used)) { options with alive := false }
          hoptions rfl
        constructor
        · constructor
          · intro container cell hcell
            rw [State.seen, List.flatMap_def, hused, ← List.flatMap_def]
            exact hinv.contents container cell hcell
          · intro container hmem
            rw [State.seen, List.flatMap_def, hused, ← List.flatMap_def] at hmem
            exact hinv.seen_lt container hmem
          · intro changed hchanged
            rcases List.mem_or_eq_of_mem_set hchanged with hmem | rfl
            · exact hinv.moved changed hmem
            · exact hmoved
          · intro stream
            have hbefore := hinv.accounted stream
            have hset := Ledger.count_set Options.pending
              { options with alive := false } hoptions (.object stream)
            have hold : options.pending =
                options.stdio.flatMap Container.finalizeMoved := if_pos halive
            have hnew : Options.pending { options with alive := false } = [] :=
              rfl
            rw [hold, hnew, List.count_nil] at hset
            simp only [List.count_append]
            omega
        · have honly : ∀ pointer ∈
              options.stdio.flatMap Container.finalizeMoved,
                ∃ stream, pointer = .object stream := by
            intro pointer hpointer
            rcases List.mem_flatMap.mp hpointer with ⟨container, hmem, hin⟩
            exact (hmoved container hmem).only pointer hin
          rw [Right, Right, configured_iff, configured_iff, hpairs, OnlyStreams,
            OnlyStreams, onlyStreams_append, and_iff_left honly]
      · simp [step, hoptions, halive] at hstep

theorem step_right (s : State) (label : Label) (next : State) (hinv : Inv s)
    (hstep : step s label = .ok next) :
    Inv next ∧ (Right next ↔ Right s ∧ UsedOnce s label) := by
  cases label with
  | make config =>
      rcases make_step config hinv hstep with ⟨hnext, hright⟩
      exact ⟨hnext, hright.trans (and_iff_left trivial).symm⟩
  | newOptions used => exact newOptions_step used hinv hstep
  | dropContainer container => exact dropContainer_step container hinv hstep
  | dropOptions index =>
      rcases dropOptions_step index hinv hstep with ⟨hnext, hright⟩
      exact ⟨hnext, hright.trans (and_iff_left trivial).symm⟩

end Steps

/-- Whatever is built, used and dropped: the references are accounted for.  The
children get what was asked for and no number is released as a pointer exactly
when no container but `ignore` is used twice and none with a descriptor other
than 0 is dropped unused. -/
theorem sound_iff_usedOnce (labels : List Label) {final : State}
    (hrun : run step .empty labels = .ok final) :
    Accounted final ∧
      (Sound final ↔ Admissible UsedOnce step .empty labels) := by
  have hright : Right .empty := by
    constructor <;> intro _ hmem <;> simp [State.empty] at hmem
  rcases run_iff step_right inv_empty hrun with ⟨hinv, hiff⟩
  rw [and_iff_right hright] at hiff
  exact ⟨hinv.accounted, hinv.sound_iff.trans hiff⟩

/-- A pipe, an inherited descriptor and `ignore`, the last one twice, and all
dropped. -/
def eachOnce : List Label :=
  [.make (.createPipe 5 true false false), .make (.inheritFd 1), .make .ignore,
    .newOptions [0, 1, 2], .newOptions [2], .dropContainer 0,
    .dropContainer 1, .dropContainer 2, .dropOptions 0, .dropOptions 1]

theorem sound_iff_usedOnce_eachOnce :
    ∃ final, run step .empty eachOnce = .ok final ∧ Sound final := by
  have hrun : run step .empty eachOnce = .ok _ := rfl
  exact ⟨_, hrun, (sound_iff_usedOnce eachOnce hrun).2.mpr (by decide)⟩

/-- One stream for both stdout and stderr. -/
def sharedStream : List Label :=
  [.make (.inheritStream 5), .newOptions [0, 0]]

/-- Standard output, dropped before any process was spawned. -/
def unusedDescriptor : List Label := [.make (.inheritFd 1), .dropContainer 0]

theorem sharedStream_unusedDescriptor_wrong :
    (∃ s, run step .empty sharedStream = .ok s ∧ s.options.map (fun options =>
        options.stdio.map Container.config) =
          [[some (.inheritStream 5), some .ignore]] ∧ ¬ Configured s) ∧
      ∃ s, run step .empty unusedDescriptor = .ok s ∧
        s.released = [.descriptor 1] ∧ ¬ OnlyStreams s := by
  refine ⟨⟨_, rfl, by decide, ?_⟩, ⟨_, rfl, rfl, ?_⟩⟩
  · intro hconfigured
    exact absurd (hconfigured _ (List.mem_singleton.mpr rfl)) (by decide)
  · intro honly
    rcases honly _ (List.mem_singleton.mpr rfl) with ⟨stream, hstream⟩
    cases hstream

end UvMbt.StdioContainers
