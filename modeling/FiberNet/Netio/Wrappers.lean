import FiberNet.Netio.Hook
import FiberNet.Scheduler.DescriptorTables

/-! # The wrappers around the C library

Each hooked function has the name and the parameters of the original, which is called through
a pointer. The wrappers are given as they run on a thread whose hook state is `false`.
`fcntl`, `ioctl`, `dup2` and `dup3` do not look at it before they act.
-/

namespace FiberNet

/-- A C `int`. -/
abbrev CInt := BitVec 32

/-- The address in a pointer. -/
abbrev Pointer := Nat

def O_NONBLOCK : CInt := 0o4000

/-- The commands of `fcntl` with an `int` argument. -/
inductive IntCommand
  | dupFD
  | dupFDCloexec
  | setFD
  | setOwn
  | setSig
  | setLease
  | notify
  | setPipeSz
  deriving DecidableEq, Repr

/-- The commands of `fcntl` without an argument, besides `F_GETFL`. -/
inductive GetCommand
  | getFD
  | getOwn
  | getSig
  | getLease
  | getPipeSz
  deriving DecidableEq, Repr

inductive LockCommand
  | setLk
  | setLkw
  | getLk
  deriving DecidableEq, Repr

inductive OwnerCommand
  | getOwnEx
  | setOwnEx
  deriving DecidableEq, Repr

/-- `cmd` and what follows it in a call of `fcntl`. `other` are the numbers without a `case`. -/
inductive FcntlCommand
  | setFL (arg : CInt)
  | getFL
  | int (cmd : IntCommand) (arg : CInt)
  | get (cmd : GetCommand)
  | lock (cmd : LockCommand) (arg : Pointer)
  | owner (cmd : OwnerCommand) (arg : Pointer)
  | other (cmd : CInt) (args : List (BitVec 64))
  deriving DecidableEq, Repr

/-- What `ioctl` passes on as the third argument. -/
inductive IoctlArg
  | pointer (address : Pointer)
  | int (value : CInt)
  deriving DecidableEq, Repr

inductive IoctlRequest
  | fionbio (arg : IoctlArg)
  | other (request : BitVec 64) (arg : IoctlArg)
  deriving DecidableEq, Repr

/-- A call of a hooked function or of its original. -/
inductive LibcCall
  | sleep (seconds : BitVec 32)
  | usleep (usec : BitVec 32)
  | nanosleep (req rem : Pointer)
  | socket (domain type protocol : CInt)
  | connect (sockfd : CInt) (addr : Pointer) (addrlen : BitVec 32)
  | accept (sockfd : CInt) (addr addrlen : Pointer)
  | read (fd : CInt) (buf : Pointer) (count : BitVec 64)
  | readv (fd : CInt) (iov : Pointer) (iovcnt : CInt)
  | recv (sockfd : CInt) (buf : Pointer) (len : BitVec 64) (flags : CInt)
  | recvfrom (sockfd : CInt) (buf : Pointer) (len : BitVec 64) (flags : CInt)
      (srcAddr addrlen : Pointer)
  | recvmsg (sockfd : CInt) (msg : Pointer) (flags : CInt)
  | write (fd : CInt) (buf : Pointer) (count : BitVec 64)
  | writev (fd : CInt) (iov : Pointer) (iovcnt : CInt)
  | send (sockfd : CInt) (buf : Pointer) (len : BitVec 64) (flags : CInt)
  | sendto (sockfd : CInt) (buf : Pointer) (len : BitVec 64) (flags : CInt)
      (destAddr : Pointer) (addrlen : BitVec 32)
  | sendmsg (sockfd : CInt) (msg : Pointer) (flags : CInt)
  | close (fd : CInt)
  | fcntl (fd : CInt) (cmd : FcntlCommand)
  | ioctl (fd : CInt) (request : IoctlRequest)
  | setsockopt (sockfd level optname : CInt) (optval : Pointer) (optlen : BitVec 32)
  | pipe (pipefd : Pointer)
  | pipe2 (pipefd : Pointer) (flags : CInt)
  | dup (oldfd : CInt)
  | dup2 (oldfd newfd : CInt)
  | dup3 (oldfd newfd flags : CInt)
  deriving DecidableEq, Repr

/-- What the register that a function answers in means: an `int`, an `unsigned int` or a
`ssize_t`. -/
def LibcCall.returns : LibcCall → BitVec 64 → Int
  | .read _ _ _ | .readv _ _ _ | .recv _ _ _ _ | .recvfrom _ _ _ _ _ _ | .recvmsg _ _ _
  | .write _ _ _ | .writev _ _ _ | .send _ _ _ _ | .sendto _ _ _ _ _ _ | .sendmsg _ _ _ =>
      BitVec.toInt
  | .sleep _ => fun answer => (answer.setWidth 32).toNat
  | _ => fun answer => (answer.setWidth 32).toInt

/-- The process outside the library: the originals, `fstat`, and the memory that a pointer
can be followed into. -/
structure Libc (Kernel : Type) where
  call : Kernel → LibcCall → BitVec 64 × Kernel
  fdType : Kernel → CInt → FdType
  read : Kernel → Pointer → Option CInt

/-- An `FdInfo` with the fields that `init` sets. -/
structure ManagedFd extends FdInfo where
  sysBlocking : Bool
  fdType : FdType
  deriving DecidableEq

namespace ManagedFd

def isSysNonBlock (info : ManagedFd) : Bool :=
  !info.sysBlocking

/-- `FdInfo::setUserNonBlock`. -/
def setNonBlock (info : ManagedFd) (state : Bool) : ManagedFd :=
  { info with toFdInfo := info.setUserNonBlock state }

end ManagedFd

/-- `calls` is the record of the calls of originals. -/
structure Process (Kernel : Type) where
  fds : FdTable ManagedFd
  kernel : Kernel
  calls : List LibcCall

namespace Process

variable {Kernel : Type}

/-- A call of an original. -/
def call (libc : Libc Kernel) (process : Process Kernel) (call : LibcCall) :
    BitVec 64 × Process Kernel :=
  ((libc.call process.kernel call).1,
    { process with
      kernel := (libc.call process.kernel call).2
      calls := process.calls ++ [call] })

/-- A call of an original that answers an `int`. -/
def callInt (libc : Libc Kernel) (process : Process Kernel) (call : LibcCall) :
    CInt × Process Kernel :=
  ((process.call libc call).1.setWidth 32, (process.call libc call).2)

/-- `FdManager::lookUp(fd, false)`. -/
def info (process : Process Kernel) (fd : CInt) : Option ManagedFd :=
  if fd.toInt < 0 then none else process.fds.fds[fd.toNat]?.join

def setInfo (process : Process Kernel) (fd : CInt) (info : ManagedFd) : Process Kernel :=
  { process with fds := { fds := process.fds.fds.set fd.toNat (some info) } }

/-- `FdInfo::FdInfo` with `init`. -/
def init (libc : Libc Kernel) (process : Process Kernel) (fd : CInt) :
    ManagedFd × Process Kernel :=
  let fdType := libc.fdType process.kernel fd
  let failed := { userBlocking := true, closed := true, sysBlocking := true, fdType := fdType }
  if fdType ≠ .none then
    let (flags, process) := process.callInt libc (.fcntl fd .getFL)
    if flags ≠ -1 then
      let (rt, process) := process.callInt libc (.fcntl fd (.setFL (flags ||| O_NONBLOCK)))
      if rt.toInt < 0 then (failed, process)
      else ({ failed with sysBlocking := false, closed := false }, process)
    else ({ failed with sysBlocking := false, closed := false }, process)
  else ({ failed with closed := false }, process)

/-- `FdManager::lookUp(fd, true)`. It throws where the table cannot grow to `fd`. -/
def register (libc : Libc Kernel) (process : Process Kernel) (fd : CInt) :
    Option (Process Kernel) :=
  if fd.toInt < 0 then some process
  else
    let (info, process) := process.init libc fd
    (process.fds.lookUp fd.toNat true info).map fun (fds, _) => { process with fds := fds }

/-- The test in `fcntl` and `ioctl`: an entry that is not closed, for a socket. -/
def managed (libc : Libc Kernel) (process : Process Kernel) (fd : CInt) : Option ManagedFd :=
  (process.info fd).filter fun info =>
    !info.closed && libc.fdType process.kernel fd == .socket

end Process

/-! ## The wrappers -/

namespace Wrapper

variable {Kernel : Type} (libc : Libc Kernel) (process : Process Kernel)

/-- `if (isHookEnable() == false) return name_f(..)`. -/
def original (call : LibcCall) : Option (Int × Process Kernel) :=
  let (answer, process) := process.call libc call
  some (call.returns answer, process)

/-- `do_io`, whose result is an `int` whatever the original answers. -/
def doIo (call : LibcCall) : Option (Int × Process Kernel) :=
  let (n, process) := process.callInt libc call
  some (n.toInt, process)

def sleep (seconds : BitVec 32) := original libc process (.sleep seconds)

def usleep (usec : BitVec 32) := original libc process (.usleep usec)

def nanosleep (req rem : Pointer) := original libc process (.nanosleep req rem)

def socket (domain type protocol : CInt) :=
  original libc process (.socket domain type protocol)

def connect (sockfd : CInt) (addr : Pointer) (addrlen : BitVec 32) :=
  original libc process (.connect sockfd addr addrlen)

/-- The new descriptor is registered whether or not hooks are enabled. -/
def accept (sockfd : CInt) (addr addrlen : Pointer) : Option (Int × Process Kernel) :=
  let (fd, process) := process.callInt libc (.accept sockfd addr addrlen)
  if 0 ≤ fd.toInt then (process.register libc fd).map fun process => (fd.toInt, process)
  else some (fd.toInt, process)

def read (fd : CInt) (buf : Pointer) (count : BitVec 64) :=
  doIo libc process (.read fd buf count)

def readv (fd : CInt) (iov : Pointer) (iovcnt : CInt) :=
  doIo libc process (.readv fd iov iovcnt)

def recv (sockfd : CInt) (buf : Pointer) (len : BitVec 64) (flags : CInt) :=
  doIo libc process (.recv sockfd buf len flags)

def recvfrom (sockfd : CInt) (buf : Pointer) (len : BitVec 64) (flags : CInt)
    (srcAddr addrlen : Pointer) :=
  doIo libc process (.recvfrom sockfd buf len flags srcAddr addrlen)

def recvmsg (sockfd : CInt) (msg : Pointer) (flags : CInt) :=
  doIo libc process (.recvmsg sockfd msg flags)

def write (fd : CInt) (buf : Pointer) (count : BitVec 64) :=
  doIo libc process (.write fd buf count)

def writev (fd : CInt) (iov : Pointer) (iovcnt : CInt) :=
  doIo libc process (.writev fd iov iovcnt)

def send (sockfd : CInt) (buf : Pointer) (len : BitVec 64) (flags : CInt) :=
  doIo libc process (.send sockfd buf len flags)

def sendto (sockfd : CInt) (buf : Pointer) (len : BitVec 64) (flags : CInt)
    (destAddr : Pointer) (addrlen : BitVec 32) :=
  doIo libc process (.sendto sockfd buf len flags destAddr addrlen)

def sendmsg (sockfd : CInt) (msg : Pointer) (flags : CInt) :=
  doIo libc process (.sendmsg sockfd msg flags)

def close (fd : CInt) := original libc process (.close fd)

/-- The `case`s of the locks and of the owners, and `default`, call the wrapper again;
`default` without the arguments. -/
def fcntl : Nat → Process Kernel → CInt → FcntlCommand → Option (Int × Process Kernel)
  | 0, _, _, _ => none
  | _ + 1, process, fd, .setFL arg =>
      match process.managed libc fd with
      | none => original libc process (.fcntl fd (.setFL arg))
      | some info =>
          let process := process.setInfo fd (info.setNonBlock (arg &&& O_NONBLOCK != 0))
          original libc process (.fcntl fd (.setFL
            (if info.isSysNonBlock then arg ||| O_NONBLOCK else arg &&& ~~~O_NONBLOCK)))
  | _ + 1, process, fd, .getFL =>
      let (arg, process) := process.callInt libc (.fcntl fd .getFL)
      match process.managed libc fd with
      | none => some (arg.toInt, process)
      | some info =>
          some ((if info.isUserNonBlock then arg ||| O_NONBLOCK else arg &&& ~~~O_NONBLOCK).toInt,
            process)
  | _ + 1, process, fd, .int cmd arg => original libc process (.fcntl fd (.int cmd arg))
  | _ + 1, process, fd, .get cmd => original libc process (.fcntl fd (.get cmd))
  | fuel + 1, process, fd, .lock cmd arg => fcntl fuel process fd (.lock cmd arg)
  | fuel + 1, process, fd, .owner cmd arg => fcntl fuel process fd (.owner cmd arg)
  | fuel + 1, process, fd, .other cmd _ => fcntl fuel process fd (.other cmd [])

/-- `*(int*)arg`. -/
def followed (arg : IoctlArg) : Option CInt :=
  match arg with
  | .pointer address => libc.read process.kernel address
  | .int _ => none

/-- For a descriptor that is not managed, `FIONBIO` is passed on with the value in place of
the pointer. -/
def ioctl (fd : CInt) : IoctlRequest → Option (Int × Process Kernel)
  | .fionbio arg =>
      match followed libc process arg with
      | none => none
      | some value =>
          let setNb := value != 0
          match process.managed libc fd with
          | none =>
              original libc process (.ioctl fd (.fionbio (.int (if setNb then 1 else 0))))
          | some info =>
              original libc (process.setInfo fd (info.setNonBlock setNb))
                (.ioctl fd (.fionbio arg))
  | .other request arg => original libc process (.ioctl fd (.other request arg))

def setsockopt (sockfd level optname : CInt) (optval : Pointer) (optlen : BitVec 32) :=
  original libc process (.setsockopt sockfd level optname optval optlen)

def pipe (pipefd : Pointer) := original libc process (.pipe pipefd)

def pipe2 (pipefd : Pointer) (flags : CInt) := original libc process (.pipe2 pipefd flags)

def dup (oldfd : CInt) := original libc process (.dup oldfd)

/-- The call inside is a call of the wrapper. -/
def dup2 : Nat → Process Kernel → CInt → CInt → Option (Int × Process Kernel)
  | 0, _, _, _ => none
  | fuel + 1, process, oldfd, newfd =>
      (dup2 fuel process oldfd newfd).map fun (_, process) => (newfd.toInt, process)

/-- `newfd` is returned before `dup3_f` is called, and -1 where there is no `dup3_f`. -/
def dup3 (found : Bool) (_oldfd newfd _flags : CInt) : Option (Int × Process Kernel) :=
  if found then some (newfd.toInt, process) else some (-1, process)

/-- The wrapper of a function, with so many nested calls of wrappers. -/
def wrapper (dup3Found : Bool) (fuel : Nat) : LibcCall → Option (Int × Process Kernel)
  | .sleep seconds => sleep libc process seconds
  | .usleep usec => usleep libc process usec
  | .nanosleep req rem => nanosleep libc process req rem
  | .socket domain type protocol => socket libc process domain type protocol
  | .connect sockfd addr addrlen => connect libc process sockfd addr addrlen
  | .accept sockfd addr addrlen => accept libc process sockfd addr addrlen
  | .read fd buf count => read libc process fd buf count
  | .readv fd iov iovcnt => readv libc process fd iov iovcnt
  | .recv sockfd buf len flags => recv libc process sockfd buf len flags
  | .recvfrom sockfd buf len flags srcAddr addrlen =>
      recvfrom libc process sockfd buf len flags srcAddr addrlen
  | .recvmsg sockfd msg flags => recvmsg libc process sockfd msg flags
  | .write fd buf count => write libc process fd buf count
  | .writev fd iov iovcnt => writev libc process fd iov iovcnt
  | .send sockfd buf len flags => send libc process sockfd buf len flags
  | .sendto sockfd buf len flags destAddr addrlen =>
      sendto libc process sockfd buf len flags destAddr addrlen
  | .sendmsg sockfd msg flags => sendmsg libc process sockfd msg flags
  | .close fd => close libc process fd
  | .fcntl fd cmd => fcntl libc fuel process fd cmd
  | .ioctl fd request => ioctl libc process fd request
  | .setsockopt sockfd level optname optval optlen =>
      setsockopt libc process sockfd level optname optval optlen
  | .pipe pipefd => pipe libc process pipefd
  | .pipe2 pipefd flags => pipe2 libc process pipefd flags
  | .dup oldfd => dup libc process oldfd
  | .dup2 oldfd newfd => dup2 fuel process oldfd newfd
  | .dup3 oldfd newfd flags => dup3 process dup3Found oldfd newfd flags

end Wrapper

end FiberNet
