/-
The error values of the binding and the table `Errno::of_int` reads.  The
libuv codes differ from platform to platform, so they are a parameter.
-/
import Mathlib.Data.List.Basic

set_option autoImplicit false

namespace UvMbt

/-- `suberror Errno`. -/
inductive Errno where
  | E2BIG | EACCES | EADDRINUSE | EADDRNOTAVAIL | EAFNOSUPPORT | EAGAIN
  | EAI_ADDRFAMILY | EAI_AGAIN | EAI_BADFLAGS | EAI_BADHINTS | EAI_CANCELED
  | EAI_FAIL | EAI_FAMILY | EAI_MEMORY | EAI_NODATA | EAI_NONAME
  | EAI_OVERFLOW | EAI_PROTOCOL | EAI_SERVICE | EAI_SOCKTYPE | EALREADY
  | EBADF | EBUSY | ECANCELED | ECHARSET | ECONNABORTED | ECONNREFUSED
  | ECONNRESET | EDESTADDRREQ | EEXIST | EFAULT | EFBIG | EHOSTUNREACH
  | EINTR | EINVAL | EIO | EISCONN | EISDIR | ELOOP | EMFILE | EMSGSIZE
  | ENAMETOOLONG | ENETDOWN | ENETUNREACH | ENFILE | ENOBUFS | ENODEV
  | ENOENT | ENOMEM | ENONET | ENOPROTOOPT | ENOSPC | ENOSYS | ENOTCONN
  | ENOTDIR | ENOTEMPTY | ENOTSOCK | ENOTSUP | EOVERFLOW | EPERM | EPIPE
  | EPROTO | EPROTONOSUPPORT | EPROTOTYPE | ERANGE | EROFS | ESHUTDOWN
  | ESPIPE | ESRCH | ETIMEDOUT | ETXTBSY | EXDEV | UNKNOWN | EOF | ENXIO
  | EMLINK | EHOSTDOWN | EREMOTEIO | ENOTTY | EFTYPE | EILSEQ
  | ESOCKTNOSUPPORT | ENODATA | EUNATCH | ENOEXEC
  deriving Repr, DecidableEq

namespace Errno

/-- The order in which `fn init` fills `errno_errors`. -/
def all : List Errno :=
  [E2BIG, EACCES, EADDRINUSE, EADDRNOTAVAIL, EAFNOSUPPORT, EAGAIN,
    EAI_ADDRFAMILY, EAI_AGAIN, EAI_BADFLAGS, EAI_BADHINTS, EAI_CANCELED,
    EAI_FAIL, EAI_FAMILY, EAI_MEMORY, EAI_NODATA, EAI_NONAME, EAI_OVERFLOW,
    EAI_PROTOCOL, EAI_SERVICE, EAI_SOCKTYPE, EALREADY, EBADF, EBUSY,
    ECANCELED, ECHARSET, ECONNABORTED, ECONNREFUSED, ECONNRESET,
    EDESTADDRREQ, EEXIST, EFAULT, EFBIG, EHOSTUNREACH, EINTR, EINVAL, EIO,
    EISCONN, EISDIR, ELOOP, EMFILE, EMSGSIZE, ENAMETOOLONG, ENETDOWN,
    ENETUNREACH, ENFILE, ENOBUFS, ENODEV, ENOENT, ENOMEM, ENONET,
    ENOPROTOOPT, ENOSPC, ENOSYS, ENOTCONN, ENOTDIR, ENOTEMPTY, ENOTSOCK,
    ENOTSUP, EOVERFLOW, EPERM, EPIPE, EPROTO, EPROTONOSUPPORT, EPROTOTYPE,
    ERANGE, EROFS, ESHUTDOWN, ESPIPE, ESRCH, ETIMEDOUT, ETXTBSY, EXDEV,
    UNKNOWN, EOF, ENXIO, EMLINK, EHOSTDOWN, EREMOTEIO, ENOTTY, EFTYPE,
    EILSEQ, ESOCKTNOSUPPORT, ENODATA, EUNATCH, ENOEXEC]

/-- The codes on Linux, most of them the negated errno of the system. -/
def linuxValue : Errno → Int
  | E2BIG => -7 | EACCES => -13 | EADDRINUSE => -98 | EADDRNOTAVAIL => -99
  | EAFNOSUPPORT => -97 | EAGAIN => -11 | EAI_ADDRFAMILY => -3000
  | EAI_AGAIN => -3001 | EAI_BADFLAGS => -3002 | EAI_BADHINTS => -3013
  | EAI_CANCELED => -3003 | EAI_FAIL => -3004 | EAI_FAMILY => -3005
  | EAI_MEMORY => -3006 | EAI_NODATA => -3007 | EAI_NONAME => -3008
  | EAI_OVERFLOW => -3009 | EAI_PROTOCOL => -3014 | EAI_SERVICE => -3010
  | EAI_SOCKTYPE => -3011 | EALREADY => -114 | EBADF => -9 | EBUSY => -16
  | ECANCELED => -125 | ECHARSET => -4080 | ECONNABORTED => -103
  | ECONNREFUSED => -111 | ECONNRESET => -104 | EDESTADDRREQ => -89
  | EEXIST => -17 | EFAULT => -14 | EFBIG => -27 | EHOSTUNREACH => -113
  | EINTR => -4 | EINVAL => -22 | EIO => -5 | EISCONN => -106
  | EISDIR => -21 | ELOOP => -40 | EMFILE => -24 | EMSGSIZE => -90
  | ENAMETOOLONG => -36 | ENETDOWN => -100 | ENETUNREACH => -101
  | ENFILE => -23 | ENOBUFS => -105 | ENODEV => -19 | ENOENT => -2
  | ENOMEM => -12 | ENONET => -64 | ENOPROTOOPT => -92 | ENOSPC => -28
  | ENOSYS => -38 | ENOTCONN => -107 | ENOTDIR => -20 | ENOTEMPTY => -39
  | ENOTSOCK => -88 | ENOTSUP => -95 | EOVERFLOW => -75 | EPERM => -1
  | EPIPE => -32 | EPROTO => -71 | EPROTONOSUPPORT => -93
  | EPROTOTYPE => -91 | ERANGE => -34 | EROFS => -30 | ESHUTDOWN => -108
  | ESPIPE => -29 | ESRCH => -3 | ETIMEDOUT => -110 | ETXTBSY => -26
  | EXDEV => -18 | UNKNOWN => -4094 | EOF => -4095 | ENXIO => -6
  | EMLINK => -31 | EHOSTDOWN => -112 | EREMOTEIO => -121 | ENOTTY => -25
  | EFTYPE => -4028 | EILSEQ => -84 | ESOCKTNOSUPPORT => -94
  | ENODATA => -61 | EUNATCH => -49 | ENOEXEC => -8

/-- `errno_errors.get`: a later assignment to the same code replaces an
earlier one, so the last error with this code is found. -/
def errnoErrors (uvValue : Errno → Int) (errno : Int) : Option Errno :=
  all.reverse.find? (fun error => uvValue error == errno)

/-- `Errno::of_int`. -/
def ofInt (uvValue : Errno → Int) (errno : Int) : Errno :=
  match errnoErrors uvValue errno with
  | some error => error
  | none => .UNKNOWN

/-- An error found in the table has the code that was looked up. -/
theorem errnoErrors_sound {uvValue : Errno → Int} {errno : Int}
    {error : Errno} (hfound : errnoErrors uvValue errno = some error) :
    uvValue error = errno := by
  have h := List.find?_some hfound
  simpa using h

/-- Where the platform's codes are distinct, every error is found back under
its own code. -/
theorem ofInt_uvValue {uvValue : Errno → Int}
    (hinjective : Function.Injective uvValue) (error : Errno) :
    ofInt uvValue (uvValue error) = error := by
  have hmem : error ∈ all.reverse := by
    cases error <;> decide
  cases hfound : errnoErrors uvValue (uvValue error) with
  | none =>
      have hnone := List.find?_eq_none.mp hfound error hmem
      simp at hnone
  | some found =>
      have hcode := errnoErrors_sound hfound
      simp only [ofInt, hfound]
      exact hinjective hcode

end Errno

end UvMbt
