/-
What libuv allocates for `Environ`, the results of `getaddrinfo`, `Passwd` and
`Group`, and the iterators that read it.  The objects hold the memory of libuv
and their finalizers give it back; an iterator of an environment holds its
object, one of `getaddrinfo` has copied everything before it is made.
-/
import UvMbt.ForeignBlocks
import UvMbt.Marshalling
import UvMbt.GuardedRun

set_option autoImplicit false

namespace UvMbt.Snapshots

open RefHeap ForeignBlocks GuardedRun

/-- A C string that fits into `Bytes`. -/
structure Name extends CString where
  short : text.length < ArrayHeader.maxLength

/-- One `struct addrinfo` of the list. -/
structure Node where
  family : Int
  socktype : Int
  protocol : Int
  addr : List UInt8
  canonname : Option Name

/-- What libuv allocates. -/
inductive Content where
  | environ (items : List (Name × Name))
  | addrinfo (list : List Node)
  | passwd (username : Name) (shell : Option Name)
  | group (groupname : Name) (members : List Name)

structure AddrInfo where
  family : Int
  socktype : Int
  protocol : Int
  addr : List UInt8
  canonname : Option (List UInt8)

/-- What `next` answers with. -/
inductive Entry where
  | pair (name value : List UInt8)
  | info (info : AddrInfo)

/-- The objects on the MoonBit heap; the last two are the closures of `Iter2`
and `Iter`. -/
inductive Object where
  | environ (items : Option Block) (count : Nat)
  | results (addrinfo : Option Block)
  | passwd (passwd : Option Block)
  | group (group : Option Block)
  | iter2 (environ : Addr) (i count : Nat)
  | iter (items : List AddrInfo) (i : Nat)

instance : Ownership Object where
  drops object := match object with
    | .iter2 environ _ _ => [environ]
    | _ => []
  leaks _ := []

instance : Holds Object where
  held object := match object with
    | .environ items _ => items.toList
    | .results addrinfo => addrinfo.toList
    | .passwd passwd => passwd.toList
    | .group group => group.toList
    | _ => []

inductive Fault where
  | store (fault : ForeignBlocks.Fault)
  | text (fault : Marshalling.Fault)
  | wrongType
  | outOfBounds

/-- The objects and the memory behind them, the references the program owns,
what each iterator has answered so far, and the list that libuv gave for each
iterator of `getaddrinfo`, with its block. -/
structure State where
  store : Store Object Content
  user : Multiset Addr
  log : List (Addr × Option Entry)
  given : List (Addr × Block × List Node)

def State.empty : State := ⟨⟨Heap.empty, []⟩, 0, [], []⟩

def State.answers (s : State) (iterator : Addr) : List (Option Entry) :=
  (s.log.filter fun entry => entry.1 = iterator).map Prod.snd

section Code

def lift {α : Type} : Except ForeignBlocks.Fault α → Except Fault α
  | .ok value => .ok value
  | .error fault => .error (.store fault)

/-- `read_c_string` and the loops like it. -/
def text (name : Name) : Except Fault (List UInt8) :=
  match Marshalling.readCString (some name.memory) with
  | .ok bytes => .ok bytes
  | .error fault => .error (.text fault)

def get (store : Store Object Content) (addr : Addr) : Except Fault Object :=
  match store.heap.get addr with
  | .ok object => .ok object
  | .error fault => .error (.store (.heap fault))

def incref (store : Store Object Content) (addr : Addr) :
    Except Fault (Store Object Content) :=
  lift (store.onHeap fun heap => heap.incref addr)

def put (store : Store Object Content) (addr : Addr) (object : Object) :
    Except Fault (Store Object Content) :=
  lift (store.onHeap fun heap => heap.put addr object)

def decref (store : Store Object Content) (addr : Addr) :
    Except Fault (Store Object Content) :=
  lift (store.decref addr)

/-- `os_environ`, `os_get_passwd`, `os_get_passwd2` and `os_get_group`: an
empty object that the stub fills, or drops with the error. -/
def fetch (vacant : Object) (filled : Block → Object) (answer : Option Content)
    (s : State) : Except Fault State := do
  let (store, object) := s.store.alloc vacant
  let store ← incref store object
  match answer with
  | some content =>
      let (store, block) := store.malloc content
      let store ← put store object (filled block)
      let store ← decref store object
      .ok { s with store := store, user := object ::ₘ s.user }
  | none =>
      let store ← decref store object
      let store ← decref store object
      .ok { s with store := store }

/-- `os_environ`. -/
def osEnviron (answer : Option (List (Name × Name))) : State →
    Except Fault State :=
  fetch (.environ none 0)
    (fun block => .environ (some block) ((answer.getD []).length))
    (answer.map Content.environ)

/-- `os_get_passwd` and `os_get_passwd2`. -/
def osGetPasswd (answer : Option (Name × Option Name)) : State →
    Except Fault State :=
  fetch (.passwd none) (fun block => .passwd (some block))
    (answer.map fun entry => .passwd entry.1 entry.2)

/-- `os_get_group`. -/
def osGetGroup (answer : Option (Name × List Name)) : State →
    Except Fault State :=
  fetch (.group none) (fun block => .group (some block))
    (answer.map fun entry => .group entry.1 entry.2)

/-- `Environ::iter2`, whose closure keeps `self`. -/
def iter2 (environ : Addr) (s : State) : Except Fault State := do
  match ← get s.store environ with
  | .environ _ count =>
      let store ← incref s.store environ
      let (store, iterator) := store.alloc (.iter2 environ 0 count)
      .ok { s with store := store, user := iterator ::ₘ s.user }
  | _ => .error .wrongType

/-- The closure that `moonbit_uv_addrinfo_results_iterate` calls for a node. -/
def load (node : Node) : Except Fault AddrInfo := do
  let canonname ← match node.canonname with
    | none => pure none
    | some name => some <$> text name
  .ok { family := node.family, socktype := node.socktype,
        protocol := node.protocol, addr := node.addr, canonname := canonname }

/-- `moonbit_uv_getaddrinfo_cb` and the `uv_cb` it calls, with the results of
libuv or, after an error, without. -/
def getaddrinfoCb (answer : Option (List Node)) (s : State) :
    Except Fault State :=
  match answer with
  | none => do
      let (store, results) := s.store.alloc (.results none)
      let store ← decref store results
      .ok { s with store := store }
  | some list => do
      let (store, addrinfo) := s.store.malloc (.addrinfo list)
      let (store, results) := store.alloc (.results (some addrinfo))
      let items ← match ← lift (store.read addrinfo) with
        | .addrinfo list => list.mapM load
        | _ => .error .wrongType
      let store ← decref store results
      let (store, iterator) := store.alloc (.iter items 0)
      .ok { s with store := store, user := iterator ::ₘ s.user,
                   given := (iterator, addrinfo, list) :: s.given }

/-- The item of an environment at an index: `moonbit_uv_environ_get_name` and
`moonbit_uv_environ_get_value`, each followed by `read_c_string`. -/
def variableAt (store : Store Object Content) (environ : Addr) (i : Nat) :
    Except Fault Entry := do
  match ← get store environ with
  | .environ (some items) _ =>
      match ← lift (store.read items) with
      | .environ items =>
          match items[i]? with
          | some item => do
              let name ← text item.1
              let value ← text item.2
              .ok (.pair name value)
          | none => .error .outOfBounds
      | _ => .error .wrongType
  | _ => .error .wrongType

/-- `next` of both kinds of iterators. -/
def next (iterator : Addr) (s : State) : Except Fault State := do
  match ← get s.store iterator with
  | .iter2 environ i count =>
      if i < count then do
        let entry ← variableAt s.store environ i
        let store ← put s.store iterator (.iter2 environ (i + 1) count)
        .ok { s with store := store, log := s.log ++ [(iterator, some entry)] }
      else .ok { s with log := s.log ++ [(iterator, none)] }
  | .iter items i =>
      match items[i]? with
      | some info => do
          let store ← put s.store iterator (.iter items (i + 1))
          .ok { s with store := store,
                       log := s.log ++ [(iterator, some (.info info))] }
      | none => .ok { s with log := s.log ++ [(iterator, none)] }
  | _ => .error .wrongType

/-- A getter: what it reads from the memory of libuv, with the reference it is
handed and gives back. -/
def getter (block? : Object → Option Block)
    (extract : Content → Except Fault (List (List UInt8))) (object : Addr)
    (s : State) : Except Fault (List (List UInt8) × State) := do
  let store ← incref s.store object
  match block? (← get store object) with
  | none => .error (.text .nullPointer)
  | some block =>
      let value ← extract (← lift (store.read block))
      let store ← decref store object
      .ok (value, { s with store := store })

def marshal {α : Type} : Except Marshalling.Fault α → Except Fault α
  | .ok value => .ok value
  | .error fault => .error (.text fault)

def passwd? : Object → Option Block
  | .passwd passwd => passwd
  | _ => none

def group? : Object → Option Block
  | .group group => group
  | _ => none

/-- `Passwd::username`. -/
def username : Addr → State → Except Fault (List (List UInt8) × State) :=
  getter passwd? fun content => match content with
    | .passwd username _ => marshal do
        .ok [← Marshalling.passwdGetUsername (some username.memory)]
    | _ => .error .wrongType

/-- `Passwd::shell`. -/
def shell : Addr → State → Except Fault (List (List UInt8) × State) :=
  getter passwd? fun content => match content with
    | .passwd _ shell => marshal do
        .ok [← Marshalling.passwdGetShell (shell.map fun name => name.memory)]
    | _ => .error .wrongType

/-- `Group::name`. -/
def groupName : Addr → State → Except Fault (List (List UInt8) × State) :=
  getter group? fun content => match content with
    | .group groupname _ => marshal do
        .ok [← Marshalling.groupGetGroupname (some groupname.memory)]
    | _ => .error .wrongType

/-- `Group::members`, whose table ends with `NULL`. -/
def members : Addr → State → Except Fault (List (List UInt8) × State) :=
  getter group? fun content => match content with
    | .group _ members => marshal (Marshalling.groupGetMembers
        (members.map (fun name => some name.memory) ++ [none]))
    | _ => .error .wrongType

/-- What a program can do. -/
inductive Label where
  | osEnviron (answer : Option (List (Name × Name)))
  | osGetPasswd (answer : Option (Name × Option Name))
  | osGetGroup (answer : Option (Name × List Name))
  | getaddrinfo (answer : Option (List Node))
  | iter2 (environ : Addr)
  | next (iterator : Addr)
  | username (passwd : Addr)
  | shell (passwd : Addr)
  | groupName (group : Addr)
  | members (group : Addr)
  | dup (object : Addr)
  | drop (object : Addr)

def step (s : State) : Label → Except Fault State
  | .osEnviron answer => osEnviron answer s
  | .osGetPasswd answer => osGetPasswd answer s
  | .osGetGroup answer => osGetGroup answer s
  | .getaddrinfo answer => getaddrinfoCb answer s
  | .iter2 environ => iter2 environ s
  | .next iterator => next iterator s
  | .username passwd => Prod.snd <$> username passwd s
  | .shell passwd => Prod.snd <$> shell passwd s
  | .groupName group => Prod.snd <$> groupName group s
  | .members group => Prod.snd <$> members group s
  | .dup object => do
      .ok { s with store := ← incref s.store object, user := object ::ₘ s.user }
  | .drop object => do
      .ok { s with store := ← decref s.store object,
                   user := s.user.erase object }

end Code

/-- A call on objects the program has, of the right types. -/
def Allowed (s : State) : Label → Prop
  | .iter2 environ => environ ∈ s.user ∧
      ∃ items count, ObjAt s.store.heap environ (.environ items count)
  | .next iterator => iterator ∈ s.user ∧
      ((∃ environ i count,
          ObjAt s.store.heap iterator (.iter2 environ i count)) ∨
        ∃ items i, ObjAt s.store.heap iterator (.iter items i))
  | .username passwd | .shell passwd => passwd ∈ s.user ∧
      ∃ block, ObjAt s.store.heap passwd (.passwd block)
  | .groupName group | .members group => group ∈ s.user ∧
      ∃ block, ObjAt s.store.heap group (.group block)
  | .dup object | .drop object => object ∈ s.user
  | _ => True

/-- The entries of an environment. -/
def Entry.ofItem (item : Name × Name) : Entry :=
  .pair item.1.text item.2.text

def Node.info (node : Node) : AddrInfo where
  family := node.family
  socktype := node.socktype
  protocol := node.protocol
  addr := node.addr
  canonname := node.canonname.map fun name => name.text

/-- The answers of an iterator over some entries that is at an index: the
entries in order, then nothing. -/
structure Yielded (entries : List Entry) (i : Nat)
    (answers : List (Option Entry)) : Prop where
  answers_eq : answers =
    (List.range answers.length).map fun call => entries[call]?
  index_eq : i = min answers.length entries.length

/-- What is true of a live object between two calls. -/
def Typed (s : State) (addr : Addr) : Object → Prop
  | .environ items count => ∃ block list, items = some block ∧
      s.store.content? block = some (.environ list) ∧ count = list.length
  | .results _ => False
  | .passwd passwd => ∃ block username shell, passwd = some block ∧
      s.store.content? block = some (.passwd username shell)
  | .group group => ∃ block groupname members, group = some block ∧
      s.store.content? block = some (.group groupname members)
  | .iter2 environ i count => ∃ block list, environ < addr ∧
      ObjAt s.store.heap environ (.environ (some block) count) ∧
      s.store.content? block = some (.environ list) ∧ count = list.length ∧
      Yielded (list.map Entry.ofItem) i (s.answers addr)
  | .iter items i => (∃ block list, (addr, block, list) ∈ s.given ∧
      s.store.Freed block ∧ items = list.map Node.info) ∧
        Yielded (items.map Entry.info) i (s.answers addr)

structure Good (s : State) : Prop where
  sound : Sound s.store s.user 0
  typed : ∀ addr object, ObjAt s.store.heap addr object → Typed s addr object
  lost : s.store.heap.lost = []
  logged : ∀ entry ∈ s.log, entry.1 < s.store.heap.cells.length

end UvMbt.Snapshots
