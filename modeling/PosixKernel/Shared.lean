import PosixKernel.Lib.SlotTable
import Mathlib.Data.List.AList

/-!
# Shared Constants

Error numbers, open flags, descriptor flags and the other numeric constants that the
kernel crates share (`crates/shared`), with the byte-string type used for paths and
arguments.
-/

namespace PosixKernel

/-- Paths, arguments and file contents are byte strings. -/
abbrev Bytes := List UInt8

/-- The bytes of an ASCII literal. -/
def ascii (s : String) : Bytes := s.toList.map fun c => UInt8.ofNat c.toNat

/-- The error numbers of the kernel. -/
inductive Errno
  | EPERM | ENOENT | ESRCH | EINTR | EIO | ENXIO | E2BIG | EBADF | ECHILD | EAGAIN
  | ENOMEM | EACCES | EFAULT | EBUSY | EEXIST | EXDEV | ENOTDIR | EISDIR | EINVAL
  | ENFILE | EMFILE | ENOTTY | EFBIG | ENOSPC | ESPIPE | EROFS | EMLINK | EPIPE | ERANGE
  | EDEADLK | ENAMETOOLONG | ENOSYS | ENOTEMPTY | ELOOP | ENOMSG | EIDRM | ENODATA
  | EOVERFLOW | ENOTSOCK | EDESTADDRREQ | EMSGSIZE | EPROTOTYPE | ENOPROTOOPT
  | EPROTONOSUPPORT | EOPNOTSUPP | EAFNOSUPPORT | EADDRINUSE | EADDRNOTAVAIL
  | ENETUNREACH | ECONNABORTED | ECONNRESET | ECONNREFUSED | EISCONN | ENOTCONN
  | ESHUTDOWN | ETIMEDOUT | EALREADY | EINPROGRESS
  deriving DecidableEq

/-! ### Open flags -/

def O_RDONLY : UInt32 := 0
def O_WRONLY : UInt32 := 1
def O_RDWR : UInt32 := 2
def O_ACCMODE : UInt32 := 3
def O_CREAT : UInt32 := 0o100
def O_EXCL : UInt32 := 0o200
def O_TRUNC : UInt32 := 0o1000
def O_APPEND : UInt32 := 0o2000
def O_NONBLOCK : UInt32 := 0o4000
def O_DIRECTORY : UInt32 := 0o200000
def O_NOFOLLOW : UInt32 := 0o400000
def O_CLOEXEC : UInt32 := 0o2000000
def O_CLOFORK : UInt32 := 0o40000000

/-- Flags that act at open time only and are stripped from the stored status flags. -/
def CREATION_FLAGS : UInt32 :=
  O_CREAT ||| O_EXCL ||| O_TRUNC ||| O_CLOEXEC ||| O_CLOFORK ||| O_DIRECTORY ||| O_NOFOLLOW

/-! ### Descriptor flags -/

def FD_CLOEXEC : UInt32 := 1
def FD_CLOFORK : UInt32 := 2

/-- Whether any bit of `mask` is set in `flags`. -/
def hasFlag (flags mask : UInt32) : Bool := flags &&& mask != 0

/-- The descriptor flags that a set of open flags asks for. -/
def oflagsToFdFlags (oflags : UInt32) : UInt32 :=
  (if hasFlag oflags O_CLOEXEC then FD_CLOEXEC else 0) |||
    (if hasFlag oflags O_CLOFORK then FD_CLOFORK else 0)

def SEEK_SET : UInt32 := 0
def SEEK_CUR : UInt32 := 1
def SEEK_END : UInt32 := 2

/-! ### File modes -/

def S_IFMT : UInt32 := 0o170000
def S_IFDIR : UInt32 := 0o040000

/-! ### Sockets -/

def AF_UNIX : UInt32 := 1
def AF_INET : UInt32 := 2
def AF_INET6 : UInt32 := 10
def SOCK_STREAM : UInt32 := 1
def SOCK_DGRAM : UInt32 := 2
def SOCK_NONBLOCK : UInt32 := 0o4000
def SOCK_CLOEXEC : UInt32 := 0o2000000
def SHUT_RD : UInt32 := 0
def SHUT_WR : UInt32 := 1
def SHUT_RDWR : UInt32 := 2

/-! ### Signals -/

/-- One past the highest signal number. -/
def NSIG : ℕ := 65
def SIGKILL : ℕ := 9
def SIGCHLD : ℕ := 17
def SIGCONT : ℕ := 18
def SIGSTOP : ℕ := 19
def SIGTSTP : ℕ := 20
def SIGWINCH : ℕ := 28
def SIGRTMIN : ℕ := 32
def SIG_DFL : UInt32 := 0
def SIG_IGN : UInt32 := 1

theorem returned_eq {α β : Type} {a a' : α} {b b' : β} (h : some (a, b) = some (a', b')) : b = b' :=
  (Prod.mk.inj (Option.some.inj h)).2

end PosixKernel
