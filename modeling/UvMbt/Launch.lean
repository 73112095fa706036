/-
The options of processes and the processes started with them: what
`ProcessOptions::new` keeps of its arguments and takes out of the containers of
its stdio, what `uv_spawn` finds when a program has dropped them, and who gives
it all back.
-/
import UvMbt.ForeignBlocks
import UvMbt.GuardedRun
import UvMbt.CString
import UvMbt.Args
import UvMbt.StdioContainers
import UvMbt.UserIds

set_option autoImplicit false

namespace UvMbt.Launch

open RefHeap ForeignBlocks GuardedRun Args
open StdioContainers (Config Container Pointer)

/-- The pointers of `uv_process_options_t` to objects. -/
inductive Field where
  | exitCb
  | file
  | args
  | env
  | cwd
  deriving DecidableEq

/-- `uv_process_options_t`, with the array that `stdio` points to. -/
structure Options where
  exitCb : Option Addr
  file : Option Addr
  args : Option Addr
  env : Option Addr
  cwd : Option Addr
  stdio : List Container
  ids : UserIds.ProcessOptions

def Options.zeroed : Options := ⟨none, none, none, none, none, [], ⟨0, 0, 0⟩⟩

def Options.get (options : Options) : Field → Option Addr
  | .exitCb => options.exitCb
  | .file => options.file
  | .args => options.args
  | .env => options.env
  | .cwd => options.cwd

def Options.set (options : Options) (field : Field) (value : Option Addr) :
    Options :=
  match field with
  | .exitCb => { options with exitCb := value }
  | .file => { options with file := value }
  | .args => { options with args := value }
  | .env => { options with env := value }
  | .cwd => { options with cwd := value }

def Options.pointers (options : Options) : List (Option Addr) :=
  [options.exitCb, options.file, options.args, options.env, options.cwd]

/-- The object that a pointer of a container leads to. -/
def target? : Pointer → Option Addr
  | .object addr => some addr
  | .null | .descriptor _ => none

/-- The streams that a container has, and those that options have. -/
def containerRefs (content : Container) : List Addr :=
  content.finalize.filterMap target?

def Options.streams (options : Options) : List Addr :=
  options.stdio.flatMap fun content => content.finalizeMoved.filterMap target?

/-- The objects; a container still has what it was built as, or nothing; a
process has the callback of its options once it is started, and the one it is
closed with after that. -/
inductive Object where
  | bytes (bytes : Bytes)
  | array (items : List (Option Addr))
  | closure
  | stream
  | container (built : Config) (content : Container)
  | options (options : Options)
  | process (data : Option Addr)

instance : Ownership Object where
  drops object := match object with
    | .array items => items.filterMap id
    | .container _ content => containerRefs content
    | .options options => options.pointers.filterMap id ++ options.streams
    | .process data => data.toList
    | .bytes _ | .closure | .stream => []
  leaks _ := []

/-- None of them has memory of libuv. -/
instance : Holds Object where
  held _ := []

abbrev Objects := Store Object Empty

inductive Fault where
  | store (fault : ForeignBlocks.Fault)
  | wrongType
  | nullPointer
  | wildPointer
  | outOfBounds

/-- What `uv_spawn` starts a child with. -/
structure Child where
  file : List UInt8
  args : List (List UInt8)
  env : Option (List (List UInt8))
  cwd : Option (List UInt8)
  stdio : List Config
  calls : List UserIds.SysCall

/-- What `ProcessOptions::new` was asked for. -/
structure Asked where
  file : Bytes
  args : List Bytes
  env : Option (List Bytes)
  cwd : Option Bytes
  stdio : List Config
  uid : Option UInt64
  gid : Option UInt64

/-- A `Loop::walk` that is going on: its callback, and the processes that it
has still to show. -/
structure Walk where
  cb : Addr
  rest : Multiset Addr

/-- The objects, the references of the program and those of the loop to
processes that it has and that it is closing, the walk, the process whose exit
libuv will report next of several, what each `ProcessOptions` was asked for,
and the children that were tried to start with it. -/
structure State where
  store : Objects
  user : Multiset Addr
  loop : Multiset Addr
  closing : Multiset Addr
  walk : Option Walk
  next : Option Addr
  asked : List (Addr × Asked)
  log : List (Addr × Child)

def State.empty : State := ⟨⟨Heap.empty, []⟩, 0, 0, 0, none, none, [], []⟩

/-- A walk has a reference to its callback. -/
def walkRefs : Option Walk → Multiset Addr
  | some walk => {walk.cb}
  | none => 0

def State.own (s : State) : Multiset Addr :=
  s.user + (s.loop + s.closing + walkRefs s.walk)

section Code

def lift {α : Type} : Except ForeignBlocks.Fault α → Except Fault α
  | .ok value => .ok value
  | .error fault => .error (.store fault)

def get (store : Objects) (addr : Addr) : Except Fault Object :=
  match store.heap.get addr with
  | .ok object => .ok object
  | .error fault => .error (.store (.heap fault))

def incref (store : Objects) (addr : Addr) : Except Fault Objects :=
  lift (store.onHeap fun heap => heap.incref addr)

def put (store : Objects) (addr : Addr) (object : Object) :
    Except Fault Objects :=
  lift (store.onHeap fun heap => heap.put addr object)

def decref (store : Objects) (addr : Addr) : Except Fault Objects :=
  lift (store.decref addr)

def getOptions (store : Objects) (addr : Addr) : Except Fault Options := do
  match ← get store addr with
  | .options options => .ok options
  | _ => .error .wrongType

def getBytes (store : Objects) (addr : Addr) : Except Fault Bytes := do
  match ← get store addr with
  | .bytes bytes => .ok bytes
  | _ => .error .wrongType

def getContainer (store : Objects) (addr : Addr) :
    Except Fault (Config × Container) := do
  match ← get store addr with
  | .container built content => .ok (built, content)
  | _ => .error .wrongType

def getStream (store : Objects) (addr : Addr) : Except Fault Unit := do
  match ← get store addr with
  | .stream => .ok ()
  | _ => .error .wrongType

/-- The setters of `uv_process_options_t` for objects, with the reference to
the options that each one is handed and gives back. -/
def setField (field : Field) (options value : Addr) (store : Objects) :
    Except Fault Objects := do
  let store ← incref store options
  let current ← getOptions store options
  let store ← match current.get field with
    | some old => decref store old
    | none => pure store
  let store ← put store options (.options (current.set field (some value)))
  decref store options

/-- `moonbit_uv_process_options_set_exit_cb`. -/
def processOptionsSetExitCb : Addr → Addr → Objects → Except Fault Objects :=
  setField .exitCb

/-- `moonbit_uv_process_options_set_file`. -/
def processOptionsSetFile : Addr → Addr → Objects → Except Fault Objects :=
  setField .file

/-- `moonbit_uv_process_options_set_args`. -/
def processOptionsSetArgs : Addr → Addr → Objects → Except Fault Objects :=
  setField .args

/-- `moonbit_uv_process_options_set_env`. -/
def processOptionsSetEnv : Addr → Addr → Objects → Except Fault Objects :=
  setField .env

/-- `moonbit_uv_process_options_set_cwd`. -/
def processOptionsSetCwd : Addr → Addr → Objects → Except Fault Objects :=
  setField .cwd

/-- What `moonbit_uv_process_options_set_stdio` does with one container: the
options get what it has, and it is set to zero. -/
def moveContainer (options : Addr) (store : Objects) (container : Addr) :
    Except Fault Objects := do
  let (built, content) ← getContainer store container
  let store ← put store container (.container built .zeroed)
  let current ← getOptions store options
  put store options (.options { current with
    stdio := current.stdio ++ [content] })

/-- `moonbit_uv_process_options_set_stdio`; of the array of containers, which
is gone when it returns, there are only the items. -/
def processOptionsSetStdio (options : Addr) (items : List Addr)
    (store : Objects) : Except Fault Objects := do
  let store ← incref store options
  let current ← getOptions store options
  let store ← put store options (.options { current with stdio := [] })
  let store ← items.foldlM (moveContainer options) store
  let store ← items.foldlM decref store
  decref store options

/-- The setters of the flags and of the ids. -/
def setIds (options : Addr) (ids : UserIds.ProcessOptions) (store : Objects) :
    Except Fault Objects := do
  let current ← getOptions store options
  put store options (.options { current with ids := ids })

/-- `FixedArray::makei` with the items of an array and `None` after them. -/
def makeVector (items : List Addr) (store : Objects) :
    Except Fault (Objects × Addr) := do
  let store ← items.foldlM incref store
  .ok (store.alloc (.array (items.map some ++ [none])))

/-- What a program passes to `ProcessOptions::new`. -/
structure Arguments where
  file : Addr
  args : List Addr
  env : Option (List Addr)
  cwd : Option Addr
  stdio : Option (List Addr)
  uid : Option UInt64
  gid : Option UInt64
  exitCb : Addr

/-- What a container was built as. -/
def builtOf (store : Objects) (container : Addr) : Except Fault Config := do
  let (built, _) ← getContainer store container
  .ok built

def askedOf (store : Objects) (arguments : Arguments) : Except Fault Asked := do
  let file ← getBytes store arguments.file
  let args ← arguments.args.mapM (getBytes store)
  let env ← arguments.env.mapM fun env => env.mapM (getBytes store)
  let cwd ← arguments.cwd.mapM (getBytes store)
  let stdio ← (arguments.stdio.getD []).mapM (builtOf store)
  .ok ⟨file, args, env, cwd, stdio, arguments.uid, arguments.gid⟩

/-- The branch of `ProcessOptions::new` for `env`. -/
def passEnv (options : Addr) (env : Option (List Addr)) (store : Objects) :
    Except Fault Objects :=
  match env with
  | some env => do
      let (store, env) ← makeVector env store
      processOptionsSetEnv options env store
  | none => .ok store

/-- The branch of `ProcessOptions::new` for `cwd`. -/
def passCwd (options : Addr) (cwd : Option Addr) (store : Objects) :
    Except Fault Objects :=
  match cwd with
  | some cwd => do
      let store ← incref store cwd
      processOptionsSetCwd options cwd store
  | none => .ok store

/-- The branch of `ProcessOptions::new` for `stdio`. -/
def passStdio (options : Addr) (stdio : Option (List Addr)) (store : Objects) :
    Except Fault Objects :=
  match stdio with
  | some items => do
      let store ← items.foldlM incref store
      processOptionsSetStdio options items store
  | none => .ok store

/-- `ProcessOptions::new`; what a program passes it can keep. -/
def new (arguments : Arguments) (s : State) : Except Fault State := do
  let asked ← askedOf s.store arguments
  let (store, options) := s.store.alloc (.options Options.zeroed)
  let store ← incref store arguments.exitCb
  let store ← processOptionsSetExitCb options arguments.exitCb store
  let store ← incref store arguments.file
  let store ← processOptionsSetFile options arguments.file store
  let (store, args) ← makeVector arguments.args store
  let store ← processOptionsSetArgs options args store
  let store ← passEnv options arguments.env store
  let store ← passCwd options arguments.cwd store
  let store ← passStdio options arguments.stdio store
  let store ← setIds options
    (UserIds.ProcessOptions.new arguments.uid arguments.gid) store
  .ok { s with store := store, user := options ::ₘ s.user,
               asked := (options, asked) :: s.asked }

/-- A C string from the memory of a `Bytes`. -/
def readString (store : Objects) (addr : Addr) : Except Fault (List UInt8) := do
  let bytes ← getBytes store addr
  match CString.strlen bytes.memory with
  | some length => .ok (bytes.memory.take length)
  | none => .error .outOfBounds

/-- The C strings of a vector up to its `NULL`. -/
def readVector (store : Objects) :
    List (Option Addr) → Except Fault (List (List UInt8))
  | [] => .error .outOfBounds
  | none :: _ => .ok []
  | some item :: rest => do
      let text ← readString store item
      let texts ← readVector store rest
      .ok (text :: texts)

def readArray (store : Objects) (addr : Addr) :
    Except Fault (List (List UInt8)) := do
  match ← get store addr with
  | .array items => readVector store items
  | _ => .error .wrongType

def notNull : Option Addr → Except Fault Addr
  | some addr => .ok addr
  | none => .error .nullPointer

/-- What libuv reads of a container, with the stream that it uses. -/
def readContainer (store : Objects) (content : Container) :
    Except Fault Config :=
  match content.config with
  | some config => do
      config.acquired.forM (getStream store)
      .ok config
  | none => .error .wrongType

/-- What `uv_spawn` reads of the options. -/
def uvSpawn (store : Objects) (options : Options) : Except Fault Child := do
  let file ← notNull options.file >>= readString store
  let args ← notNull options.args >>= readArray store
  let env ← options.env.mapM (readArray store)
  let cwd ← options.cwd.mapM (readString store)
  let stdio ← options.stdio.mapM (readContainer store)
  .ok ⟨file, args, env, cwd, stdio, UserIds.uvSpawn options.ids⟩

/-- What `moonbit_uv_spawn` does before `uv_spawn`: the callback goes from the
options to the process. -/
def moveExitCb (options : Addr) (current : Options) (process : Addr)
    (store : Objects) : Except Fault Objects :=
  match current.exitCb with
  | some exitCb => do
      let store ← put store options (.options (current.set .exitCb none))
      put store process (.process (some exitCb))
  | none => .ok store

/-- `Loop::spawn` with a status of `uv_spawn`.  The loop keeps the reference
that it is handed, whatever the status is. -/
def spawn (options : Addr) (status : Int) (s : State) : Except Fault State := do
  let (store, process) := s.store.alloc (.process none)
  let store ← incref store process
  let store ← incref store options
  let current ← getOptions store options
  let store ← moveExitCb options current process store
  let child ← uvSpawn store current
  let store ← decref store options
  let s := { s with loop := process ::ₘ s.loop,
                    log := s.log ++ [(options, child)] }
  if status < 0 then do
    let store ← decref store process
    .ok { s with store := store }
  else .ok { s with store := store, user := process ::ₘ s.user }

/-- The call of a callback, which drops itself. -/
def callClosure (cb : Addr) (store : Objects) : Except Fault Objects := do
  match ← get store cb with
  | .closure => decref store cb
  | _ => .error .wrongType

/-- `moonbit_uv_exit_cb` and the callback, which keeps the process. -/
def exitCb (process : Addr) (s : State) : Except Fault State := do
  match ← get s.store process with
  | .process (some cb) =>
      let store ← put s.store process (.process none)
      let store ← incref store process
      let store ← callClosure cb store
      .ok { s with store := store, user := process ::ₘ s.user }
  | .process none => .ok s
  | _ => .error .wrongType

/-- libuv reports an exit; before it calls back it has looked up the process
whose exit it reports next. -/
def exit (process : Addr) (next : Option Addr) (s : State) :
    Except Fault State := do
  .ok { ← exitCb process s with next := next }

/-- `moonbit_uv_handle_set_data` of a process. -/
def handleSetData (process cb : Addr) (store : Objects) :
    Except Fault Objects := do
  match ← get store process with
  | .process (some old) =>
      let store ← decref store old
      put store process (.process (some cb))
  | .process none => put store process (.process (some cb))
  | _ => .error .wrongType

/-- `Handle::close` of a process. -/
def close (process cb : Addr) (s : State) : Except Fault State := do
  let store ← incref s.store process
  let store ← incref store cb
  let store ← handleSetData process cb store
  let store ← decref store process
  .ok { s with store := store, loop := s.loop.erase process,
               closing := process ::ₘ s.closing }

/-- `moonbit_uv_close_cb` and the callback. -/
def closeCb (process : Addr) (s : State) : Except Fault State := do
  match ← get s.store process with
  | .process data =>
      let cb ← notNull data
      let store ← put s.store process (.process none)
      let store ← decref store process
      let store ← callClosure cb store
      .ok { s with store := store, closing := s.closing.erase process }
  | _ => .error .wrongType

/-- `Loop::walk` before the first handle. -/
def walk (cb : Addr) (s : State) : Except Fault State := do
  .ok { s with store := ← incref s.store cb,
               walk := some ⟨cb, s.loop + s.closing⟩ }

/-- `moonbit_uv_walk_cb` and the callback, which keeps the process. -/
def walkCb (process : Addr) (s : State) : Except Fault State :=
  match s.walk with
  | some walk => do
      let store ← incref s.store walk.cb
      let store ← incref store process
      let store ← callClosure walk.cb store
      .ok { s with store := store, user := process ::ₘ s.user,
                   walk := some ⟨walk.cb, walk.rest.erase process⟩ }
  | none => .ok s

/-- `moonbit_uv_walk` after the last handle. -/
def walked (s : State) : Except Fault State :=
  match s.walk with
  | some walk => do
      .ok { s with store := ← decref s.store walk.cb, walk := none }
  | none => .ok s

/-- Whether the last reference to a container with a descriptor goes: its
finalizer releases the number as a pointer. -/
def isWild (store : Objects) (addr : Addr) : Bool :=
  match store.heap.get addr with
  | .ok (.container _ content) =>
      match content.data.pointer with
      | .descriptor _ => store.heap.rc addr ≤ 1
      | .null | .object _ => false
  | _ => false

/-- The program drops an object; nothing but the program refers to a
container. -/
def drop (object : Addr) (s : State) : Except Fault State :=
  if isWild s.store object then .error .wildPointer
  else do
    .ok { s with store := ← decref s.store object,
                 user := s.user.erase object }

/-- What a program can do, and what the loop does with its processes. -/
inductive Label where
  | bytes (bytes : Bytes)
  | closure
  | stream
  | container (config : Config)
  | new (arguments : Arguments)
  | spawn (options : Addr) (status : Int)
  | exit (process : Addr) (next : Option Addr)
  | close (process cb : Addr)
  | closed (process : Addr)
  | walk (cb : Addr)
  | visit (process : Addr)
  | walked
  | dup (object : Addr)
  | drop (object : Addr)

/-- The spawns of a step. -/
def Label.spawned : Label → List Addr
  | .spawn options _ => [options]
  | _ => []

def State.alloc (s : State) (object : Object) : State :=
  { s with store := (s.store.alloc object).1,
           user := (s.store.alloc object).2 ::ₘ s.user }

/-- A constructor of containers, which gets a reference to the stream of its
own. -/
def container (config : Config) (s : State) : Except Fault State := do
  let store ← config.acquired.foldlM incref s.store
  .ok ({ s with store := store }.alloc (.container config config.make))

def step (s : State) : Label → Except Fault State
  | .bytes bytes => .ok (s.alloc (.bytes bytes))
  | .closure => .ok (s.alloc .closure)
  | .stream => .ok (s.alloc .stream)
  | .container config => container config s
  | .new arguments => new arguments s
  | .spawn options status => spawn options status s
  | .exit process next => exit process next s
  | .close process cb => close process cb s
  | .closed process => closeCb process s
  | .walk cb => walk cb s
  | .visit process => walkCb process s
  | .walked => walked s
  | .dup object => do
      .ok { s with store := ← incref s.store object, user := object ::ₘ s.user }
  | .drop object => drop object s

end Code

/-- The program has a `Bytes`. -/
def Has (s : State) (addr : Addr) : Prop :=
  addr ∈ s.user ∧ ∃ bytes, ObjAt s.store.heap addr (.bytes bytes)

/-- The program has a container of some content. -/
def HasContainer (s : State) (addr : Addr) : Prop :=
  addr ∈ s.user ∧
    ∃ built content, ObjAt s.store.heap addr (.container built content)

/-- A call on objects the program has, of the right types, and what libuv does
with a process that it has: it closes it once, and not while it is walking, and
it reports the exits of several in a row, also that of one that has been closed
since it was looked up. -/
def Possible (s : State) : Label → Prop
  | .container config => ∀ stream ∈ config.acquired, stream ∈ s.user ∧
      ObjAt s.store.heap stream .stream
  | .new arguments => Has s arguments.file ∧
      (∀ arg ∈ arguments.args, Has s arg) ∧
      (∀ env ∈ arguments.env, ∀ item ∈ env, Has s item) ∧
      (∀ cwd ∈ arguments.cwd, Has s cwd) ∧
      (∀ stdio ∈ arguments.stdio, ∀ item ∈ stdio, HasContainer s item) ∧
      arguments.exitCb ∈ s.user ∧
      ObjAt s.store.heap arguments.exitCb .closure
  | .spawn options _ => options ∈ s.user ∧
      ∃ current, ObjAt s.store.heap options (.options current)
  | .exit process next =>
      (process ∈ s.loop ∨ process ∈ s.closing ∧ s.next = some process) ∧
        ∀ other ∈ next, other ∈ s.loop
  | .close process cb => process ∈ s.user ∧ process ∈ s.loop ∧
      cb ∈ s.user ∧ ObjAt s.store.heap cb .closure
  | .closed process => process ∈ s.closing ∧ s.walk.isNone = true
  | .walk cb => s.walk.isNone = true ∧ cb ∈ s.user ∧
      ObjAt s.store.heap cb .closure
  | .visit process => ∃ walk, s.walk = some walk ∧ process ∈ walk.rest
  | .walked => ∃ walk, s.walk = some walk ∧ walk.rest = 0
  | .dup object | .drop object => object ∈ s.user
  | .bytes _ | .closure | .stream => True

/-- A container that no options have emptied. -/
def Fresh (s : State) (addr : Addr) : Prop :=
  ∃ built, ObjAt s.store.heap addr (.container built built.make)

/-- What the program has to see to: a container is handed over once, one with
a descriptor before it is dropped, and a process is not closed in the callback
of the exit before its own. -/
def Rule (s : State) : Label → Prop
  | .new arguments => ∀ stdio ∈ arguments.stdio, stdio.Nodup ∧
      ∀ item ∈ stdio, Fresh s item
  | .close process _ => s.next ≠ some process
  | .drop object => isWild s.store object = false
  | _ => True

def Allowed (s : State) (label : Label) : Prop :=
  Possible s label ∧ Rule s label

/-- The calls of the system that the ids stand for. -/
def Asked.calls (asked : Asked) : List UserIds.SysCall :=
  (UserIds.Call.spawn asked.uid asked.gid).meant

/-- The child is what was asked for; its ids are exactly if they fit 32
bits. -/
structure Child.Starts (child : Child) (asked : Asked) : Prop where
  file : child.file = asked.file.text
  args : child.args = asked.args.map Bytes.text
  env : child.env = asked.env.map fun env => env.map Bytes.text
  cwd : child.cwd = asked.cwd.map Bytes.text
  stdio : child.stdio = asked.stdio
  calls : child.calls = asked.calls ↔ ∀ call ∈ asked.calls, call.Fits

section Invariant

def Contains (store : Objects) (addr : Addr) (bytes : Bytes) : Prop :=
  ObjAt store.heap addr (.bytes bytes)

/-- A vector of some `Bytes` with `NULL` after them. -/
def Vector (store : Objects) (addr : Addr) (list : List Bytes) : Prop :=
  ∃ items, ObjAt store.heap addr (.array (items.map some ++ [none])) ∧
    List.Forall₂ (Contains store) items list

/-- Some containers lead to the streams that they were built with. -/
def Streams (store : Objects) (stdio : List Config) : Prop :=
  ∀ config ∈ stdio, ∀ stream ∈ config.acquired,
    ObjAt store.heap stream .stream

/-- Options that lead to what they were asked for. -/
structure Shows (store : Objects) (options : Options) (asked : Asked) :
    Prop where
  file : Option.Rel (Contains store) options.file (some asked.file)
  args : Option.Rel (Vector store) options.args (some asked.args)
  env : Option.Rel (Vector store) options.env asked.env
  cwd : Option.Rel (Contains store) options.cwd asked.cwd
  stdio : options.stdio = asked.stdio.map Config.make
  streams : Streams store asked.stdio
  ids : options.ids = UserIds.ProcessOptions.new asked.uid asked.gid

/-- The objects that no call changes. -/
def Object.constant : Object → Bool
  | .bytes _ | .array _ | .closure | .stream => true
  | .container _ _ | .options _ | .process _ => false

/-- What is true of a live object between two calls. -/
def Typed (s : State) (addr : Addr) : Object → Prop
  | .options options =>
      (∃ asked, (addr, asked) ∈ s.asked ∧ Shows s.store options asked) ∧
        ∀ cb ∈ options.exitCb, ObjAt s.store.heap cb .closure
  | .array items => ∀ item, some item ∈ items →
      ∃ bytes, Contains s.store item bytes
  | .container built content =>
      (content = built.make ∨ content = .zeroed) ∧
        ∀ stream ∈ containerRefs content, ObjAt s.store.heap stream .stream
  | .process data => ∀ cb ∈ data, ObjAt s.store.heap cb .closure
  | .bytes _ | .closure | .stream => True

/-- The processes of the loop; one that it is closing has a callback. -/
structure Attached (s : State) : Prop where
  nodup : (s.loop + s.closing).Nodup
  running : ∀ addr ∈ s.loop, ∃ data, ObjAt s.store.heap addr (.process data)
  closing : ∀ addr ∈ s.closing, ∃ cb,
    ObjAt s.store.heap addr (.process (some cb))

/-- A walk has its callback, and the loop still has what it will show. -/
def Walking (s : State) : Prop :=
  ∀ walk ∈ s.walk, ObjAt s.store.heap walk.cb .closure ∧
    ∀ process ∈ walk.rest, process ∈ s.loop + s.closing

/-- No `ProcessOptions` was asked for twice. -/
structure Keyed (s : State) : Prop where
  nodup : (s.asked.map Prod.fst).Nodup
  lt : ∀ entry ∈ s.asked, entry.1 < s.store.heap.cells.length

structure Good (s : State) : Prop where
  sound : Sound s.store s.own 0
  typed : ∀ addr object, ObjAt s.store.heap addr object → Typed s addr object
  attached : Attached s
  walking : Walking s
  due : ∀ process ∈ s.next, process ∈ s.loop
  keyed : Keyed s
  lost : s.store.heap.lost = []
  logged : ∀ entry ∈ s.log, ∃ asked, (entry.1, asked) ∈ s.asked ∧
    entry.2.Starts asked

end Invariant

end UvMbt.Launch
