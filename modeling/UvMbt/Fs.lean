/-
The two forms of the file operations of fs.mbt.  A form is the list of what
it does to a finished request, ending in what it hands the caller: the
callback form runs on the request in its trampoline, the `_sync` form on the
int that the libuv call returned.
-/
import Mathlib.Algebra.Group.Int.Defs
import UvMbt.Errno

set_option autoImplicit false

namespace UvMbt

/-- `DirentType`. -/
inductive DirentType where
  | unknown | file | dir | link | fifo | socket | char | block
  deriving Repr, DecidableEq

/-- `Dirent`. -/
structure Dirent where
  name : List UInt8
  type : DirentType
  deriving Repr, DecidableEq

/-- What libuv leaves in a finished `uv_fs_t`: `result`, the memory that `ptr`
and `path` point to, the stat and statfs blocks, and the scanned entries. An
error result is a negated errno, so it is never below the range of an int. -/
structure Completion where
  result : Int64
  ptr : List UInt8
  path : List UInt8
  statbuf : List UInt8
  statfs : List UInt8
  dirents : List Dirent
  le_result : -2 ^ 31 ≤ result.toInt

/-- What an operation hands its caller when it succeeds. -/
inductive FsInfo where
  | unit
  | file (fd : Int32)
  | count (count : Int)
  | bytes (bytes : List UInt8)
  | stat (statbuf : List UInt8)
  | statFs (statfs : List UInt8)
  | scandir (dirents : List Dirent)
  deriving Repr, DecidableEq

/-- One step of a form: a read of what libuv owns or copied into the request,
`uv_fs_req_cleanup`, or the end. -/
inductive FsAction where
  | getPtr
  | getPath
  | getStatbuf
  | getStatfs
  | cleanup
  | finish (outcome : Except Errno FsInfo)

/-- The bytes before the first NUL. -/
def cString (memory : List UInt8) : List UInt8 :=
  memory.takeWhile (fun byte => byte != 0)

/-- A callback on the finished request. -/
abbrev FsCallback := Completion → List FsAction

/-- A `_sync` form on the status its C stub returned and the request. -/
abbrev FsSyncForm := Int32 → Completion → List FsAction

section Forms

variable (uvValue : Errno → Int)

/-- The callback of the operations that narrow the result to `Int` first. -/
def narrowCallback (onError onSuccess : List FsAction)
    (info : Int32 → Completion → FsInfo) : FsCallback := fun req =>
  let status := req.result.toInt32
  if status < 0 then
    onError ++ [.finish (.error (Errno.ofInt uvValue status.toInt))]
  else onSuccess ++ [.finish (.ok (info status req))]

/-- The callback of the operations that test the 64-bit result. -/
def wideCallback (onError onSuccess : List FsAction)
    (info : Int64 → Completion → FsInfo) : FsCallback := fun req =>
  let result := req.result
  if result < 0 then
    onError ++ [.finish (.error (Errno.ofInt uvValue result.toInt32.toInt))]
  else onSuccess ++ [.finish (.ok (info result req))]

/-- A `_sync` form on the status its C stub returned. -/
def syncReturn (onError onSuccess : List FsAction)
    (info : Int32 → Completion → FsInfo) : FsSyncForm := fun status req =>
  if status < 0 then
    onError ++ [.finish (.error (Errno.ofInt uvValue status.toInt))]
  else onSuccess ++ [.finish (.ok (info status req))]

/-- The callback of the operations that report success alone. -/
def unitCallback : FsCallback :=
  narrowCallback uvValue [.cleanup] [.cleanup] (fun _ _ => .unit)

def fsOpen : FsCallback :=
  narrowCallback uvValue [.cleanup] [.cleanup] (fun result _ => .file result)
def fsOpenSync : FsSyncForm :=
  syncReturn uvValue [] [] (fun status _ => .file status)

def fsClose : FsCallback :=
  wideCallback uvValue [.cleanup] [.cleanup] (fun _ _ => .unit)
def fsCloseSync : FsSyncForm :=
  syncReturn uvValue [] [] (fun _ _ => .unit)

def fsSendfile : FsCallback :=
  wideCallback uvValue [.cleanup] [.cleanup]
    (fun result _ => .count result.toInt)
def fsSendfileSync : FsSyncForm :=
  syncReturn uvValue [] [] (fun status _ => .count status.toInt64.toInt)

def fsChmod : FsCallback := unitCallback uvValue
def fsChmodSync : FsSyncForm :=
  syncReturn uvValue [] [] (fun _ _ => .unit)

def fsFchmod : FsCallback := unitCallback uvValue
def fsFchmodSync : FsSyncForm :=
  syncReturn uvValue [] [] (fun _ _ => .unit)

def fsRead : FsCallback :=
  wideCallback uvValue [.cleanup] [.cleanup]
    (fun result _ => .count result.toInt32.toInt)
def fsReadSync : FsSyncForm :=
  syncReturn uvValue [] [] (fun status _ => .count status.toInt)

def fsWrite : FsCallback :=
  narrowCallback uvValue [.cleanup] [.cleanup]
    (fun result _ => .count result.toInt)
def fsWriteSync : FsSyncForm :=
  syncReturn uvValue [] [] (fun _ _ => .unit)

def fsFsync : FsCallback :=
  wideCallback uvValue [.cleanup] [.cleanup] (fun _ _ => .unit)
def fsFsyncSync : FsSyncForm :=
  syncReturn uvValue [] [] (fun _ _ => .unit)

def fsFdatasync : FsCallback :=
  wideCallback uvValue [.cleanup] [.cleanup] (fun _ _ => .unit)
def fsFdatasyncSync : FsSyncForm :=
  syncReturn uvValue [] [] (fun _ _ => .unit)

def fsUnlink : FsCallback := unitCallback uvValue
def fsUnlinkSync : FsSyncForm :=
  syncReturn uvValue [] [] (fun _ _ => .unit)

def fsChown : FsCallback := unitCallback uvValue
def fsChownSync : FsSyncForm :=
  syncReturn uvValue [] [] (fun _ _ => .unit)

def fsFchown : FsCallback := unitCallback uvValue
def fsFchownSync : FsSyncForm :=
  syncReturn uvValue [] [] (fun _ _ => .unit)

def fsLchown : FsCallback := unitCallback uvValue
def fsLchownSync : FsSyncForm :=
  syncReturn uvValue [] [] (fun _ _ => .unit)

def fsMkdir : FsCallback := unitCallback uvValue
def fsMkdirSync : FsSyncForm :=
  syncReturn uvValue [] [] (fun _ _ => .unit)

def fsRmdir : FsCallback := unitCallback uvValue
def fsRmdirSync : FsSyncForm :=
  syncReturn uvValue [] [] (fun _ _ => .unit)

/-- The `Scandir` keeps the request, so a success is not cleaned up here. -/
def fsScandir : FsCallback :=
  narrowCallback uvValue [.cleanup] [] (fun _ req => .scandir req.dirents)
def fsScandirSync : FsSyncForm :=
  syncReturn uvValue [.cleanup] [] (fun _ req => .scandir req.dirents)

def fsRename : FsCallback := unitCallback uvValue
def fsRenameSync : FsSyncForm :=
  syncReturn uvValue [.cleanup] [.cleanup] (fun _ _ => .unit)

def fsCopyfile : FsCallback := unitCallback uvValue
def fsCopyfileSync : FsSyncForm :=
  syncReturn uvValue [] [] (fun _ _ => .unit)

def fsStat : FsCallback :=
  narrowCallback uvValue [.cleanup] [.getStatbuf, .cleanup]
    (fun _ req => .stat req.statbuf)
def fsStatSync : FsSyncForm :=
  syncReturn uvValue [.cleanup] [.getStatbuf, .cleanup]
    (fun _ req => .stat req.statbuf)

def fsLstat : FsCallback :=
  narrowCallback uvValue [.cleanup] [.getStatbuf, .cleanup]
    (fun _ req => .stat req.statbuf)
def fsLstatSync : FsSyncForm :=
  syncReturn uvValue [.cleanup] [.getStatbuf, .cleanup]
    (fun _ req => .stat req.statbuf)

def fsRealpath : FsCallback :=
  narrowCallback uvValue [.cleanup] [.getPtr, .cleanup]
    (fun _ req => .bytes (cString req.ptr))
def fsRealpathSync : FsSyncForm :=
  syncReturn uvValue [] [.getPtr, .cleanup]
    (fun _ req => .bytes (cString req.ptr))

def fsAccess : FsCallback := unitCallback uvValue
def fsAccessSync : FsSyncForm :=
  syncReturn uvValue [] [] (fun _ _ => .unit)

def fsMkdtemp : FsCallback :=
  narrowCallback uvValue [.cleanup] [.getPath, .cleanup]
    (fun _ req => .bytes (cString req.path))
def fsMkdtempSync : FsSyncForm :=
  syncReturn uvValue [] [.getPath, .cleanup]
    (fun _ req => .bytes (cString req.path))

def fsMkstemp : FsCallback :=
  narrowCallback uvValue [] [.getPath, .cleanup]
    (fun _ req => .bytes (cString req.path))
def fsMkstempSync : FsSyncForm :=
  syncReturn uvValue [.cleanup] [.getPath, .cleanup]
    (fun _ req => .bytes (cString req.path))

def fsLink : FsCallback := unitCallback uvValue
def fsLinkSync : FsSyncForm :=
  syncReturn uvValue [] [] (fun _ _ => .unit)

def fsSymlink : FsCallback := unitCallback uvValue
def fsSymlinkSync : FsSyncForm :=
  syncReturn uvValue [] [] (fun _ _ => .unit)

def fsReadlink : FsCallback :=
  narrowCallback uvValue [.cleanup] [.getPtr, .cleanup]
    (fun _ req => .bytes (cString req.ptr))
def fsReadlinkSync : FsSyncForm :=
  syncReturn uvValue [] [.getPtr, .cleanup]
    (fun _ req => .bytes (cString req.ptr))

def fsStatfs : FsCallback :=
  narrowCallback uvValue [.cleanup] [.getStatfs, .cleanup]
    (fun _ req => .statFs req.statfs)
def fsStatfsSync : FsSyncForm :=
  syncReturn uvValue [.cleanup] [.getStatfs, .cleanup]
    (fun _ req => .statFs req.statfs)

def fsUtime : FsCallback := unitCallback uvValue
def fsUtimeSync : FsSyncForm :=
  syncReturn uvValue [.cleanup] [.cleanup] (fun _ _ => .unit)

def fsFutime : FsCallback := unitCallback uvValue
def fsFutimeSync : FsSyncForm :=
  syncReturn uvValue [.cleanup] [.cleanup] (fun _ _ => .unit)

def fsLutime : FsCallback := unitCallback uvValue
def fsLutimeSync : FsSyncForm :=
  syncReturn uvValue [.cleanup] [.cleanup] (fun _ _ => .unit)

end Forms

/-- The operations that fs.mbt offers in both forms. -/
inductive FsOp where
  | open | close | sendfile | chmod | fchmod | read | write | fsync
  | fdatasync | unlink | chown | fchown | lchown | mkdir | rmdir | scandir
  | rename | copyfile | stat | lstat | realpath | access | mkdtemp | mkstemp
  | link | symlink | readlink | statfs | utime | futime | lutime
  deriving Repr, DecidableEq

namespace FsOp

/-- The callback that the callback form gives libuv. -/
def callback (uvValue : Errno → Int) : FsOp → FsCallback
  | .open => fsOpen uvValue
  | .close => fsClose uvValue
  | .sendfile => fsSendfile uvValue
  | .chmod => fsChmod uvValue
  | .fchmod => fsFchmod uvValue
  | .read => fsRead uvValue
  | .write => fsWrite uvValue
  | .fsync => fsFsync uvValue
  | .fdatasync => fsFdatasync uvValue
  | .unlink => fsUnlink uvValue
  | .chown => fsChown uvValue
  | .fchown => fsFchown uvValue
  | .lchown => fsLchown uvValue
  | .mkdir => fsMkdir uvValue
  | .rmdir => fsRmdir uvValue
  | .scandir => fsScandir uvValue
  | .rename => fsRename uvValue
  | .copyfile => fsCopyfile uvValue
  | .stat => fsStat uvValue
  | .lstat => fsLstat uvValue
  | .realpath => fsRealpath uvValue
  | .access => fsAccess uvValue
  | .mkdtemp => fsMkdtemp uvValue
  | .mkstemp => fsMkstemp uvValue
  | .link => fsLink uvValue
  | .symlink => fsSymlink uvValue
  | .readlink => fsReadlink uvValue
  | .statfs => fsStatfs uvValue
  | .utime => fsUtime uvValue
  | .futime => fsFutime uvValue
  | .lutime => fsLutime uvValue

/-- The `_sync` form after its C stub has returned. -/
def sync (uvValue : Errno → Int) : FsOp → FsSyncForm
  | .open => fsOpenSync uvValue
  | .close => fsCloseSync uvValue
  | .sendfile => fsSendfileSync uvValue
  | .chmod => fsChmodSync uvValue
  | .fchmod => fsFchmodSync uvValue
  | .read => fsReadSync uvValue
  | .write => fsWriteSync uvValue
  | .fsync => fsFsyncSync uvValue
  | .fdatasync => fsFdatasyncSync uvValue
  | .unlink => fsUnlinkSync uvValue
  | .chown => fsChownSync uvValue
  | .fchown => fsFchownSync uvValue
  | .lchown => fsLchownSync uvValue
  | .mkdir => fsMkdirSync uvValue
  | .rmdir => fsRmdirSync uvValue
  | .scandir => fsScandirSync uvValue
  | .rename => fsRenameSync uvValue
  | .copyfile => fsCopyfileSync uvValue
  | .stat => fsStatSync uvValue
  | .lstat => fsLstatSync uvValue
  | .realpath => fsRealpathSync uvValue
  | .access => fsAccessSync uvValue
  | .mkdtemp => fsMkdtempSync uvValue
  | .mkstemp => fsMkstempSync uvValue
  | .link => fsLinkSync uvValue
  | .symlink => fsSymlinkSync uvValue
  | .readlink => fsReadlinkSync uvValue
  | .statfs => fsStatfsSync uvValue
  | .utime => fsUtimeSync uvValue
  | .futime => fsFutimeSync uvValue
  | .lutime => fsLutimeSync uvValue

end FsOp

end UvMbt
