import FiberNet.Scheduler.Reactor
import FiberNet.Scheduler.TimerManager

/-! # The hooked system calls

Fibers inside `do_io`, `connect`, `accept`, `socket` and `close`, the callbacks of their
timeouts, the Reactor and the kernel's descriptors. What a fiber does between two accesses
to something shared is part of one of the steps next to it.
-/

namespace FiberNet

/-- `FdInfo::Type`. -/
inductive FdType
  | none
  | socket
  | pipe
  deriving DecidableEq, Repr

structure FdInfo where
  userBlocking : Bool := true
  rdtimeout : UInt64 := -1
  wrtimeout : UInt64 := -1
  closed : Bool := false
  deriving DecidableEq

namespace FdInfo

/-- `SO_RCVTIMEO` goes with `READ`, `SO_SNDTIMEO` with `WRITE`. -/
def getTimeout (info : FdInfo) : EventType → UInt64
  | .read => info.rdtimeout
  | .write => info.wrtimeout

def setTimeout (info : FdInfo) (type : EventType) (timeout : UInt64) : FdInfo :=
  match type with
  | .read => { info with rdtimeout := timeout }
  | .write => { info with wrtimeout := timeout }

def isUserNonBlock (info : FdInfo) : Bool :=
  !info.userBlocking

def setUserNonBlock (info : FdInfo) (state : Bool) : FdInfo :=
  { info with userBlocking := !state }

end FdInfo

structure FdManager where
  size : Nat := 4096
  fds : Nat → Option FdInfo := fun _ => none

namespace FdManager

/-- `lookUp(fd, false)`. -/
def lookUp (manager : FdManager) (fd : Nat) : Option FdInfo :=
  if fd ≥ manager.size then none else manager.fds fd

/-- `lookUp(fd, true)`, which always builds a new object. -/
def create (manager : FdManager) (fd : Nat) (info : FdInfo) : FdManager where
  size := if fd ≥ manager.size then fd * 2 else manager.size
  fds := Function.update manager.fds fd (some info)

/-- Throws on a number out of range. -/
def del (manager : FdManager) (fd : Nat) : Option FdManager :=
  if fd ≥ manager.size then none
  else some { manager with fds := Function.update manager.fds fd none }

def modify (manager : FdManager) (fd : Nat) (change : FdInfo → FdInfo) : FdManager :=
  { manager with
    fds := Function.update manager.fds fd ((manager.lookUp fd).map change) }

end FdManager

/-- A descriptor number in the kernel. -/
structure Descriptor where
  generation : Nat := 0
  isOpen : Bool := false
  nonblock : Bool := false
  type : FdType := .none
  deriving DecidableEq

namespace Descriptor

def openAs (descriptor : Descriptor) (type : FdType) : Descriptor where
  generation := descriptor.generation + 1
  isOpen := true
  nonblock := false
  type := type

/-- `close_f`. -/
def close (descriptor : Descriptor) : Descriptor :=
  if descriptor.isOpen then
    { descriptor with generation := descriptor.generation + 1, isOpen := false }
  else descriptor

def setNonb (descriptor : Descriptor) (succeeds : Bool) : Descriptor :=
  if descriptor.isOpen && succeeds then { descriptor with nonblock := true } else descriptor

/-- `FdInfo::isSocket`, by `fstat`. -/
def isSocket (descriptor : Descriptor) : Bool :=
  descriptor.isOpen && descriptor.type == .socket

def isPipe (descriptor : Descriptor) : Bool :=
  descriptor.isOpen && descriptor.type == .pipe

end Descriptor

/-- `transfer` is `read`, `write`, `recv`, `send` and their variants. -/
inductive Operation
  | transfer
  | accept
  | connect
  deriving DecidableEq, Repr

/-- What the system call answers: `EAGAIN` (`EINPROGRESS` for `connect`), `EINTR`, another
error, or a result. -/
inductive Outcome
  | again
  | interrupted
  | failed
  | done (n : Nat)
  deriving DecidableEq, Repr

/-- A call of `do_io` or `connect`. `began` is the generation of `fd` at its start. -/
structure Call where
  operation : Operation
  fd : Nat
  event : EventType
  timeout : UInt64
  began : Nat
  deriving DecidableEq

/-- One turn of a call's loop, with the number of its `TimerInfo` and its timer. -/
structure Turn where
  call : Call
  tinfo : Nat
  deriving DecidableEq

/-- `(uint64_t)-1` stands for no timeout. -/
def Turn.timed (turn : Turn) : Bool :=
  turn.call.timeout != -1

/-- A `TimerInfo` with what the callback of its timer captured. `owner` is the fiber that
holds it while the turn lasts. -/
structure TimerInfo (Fiber : Type) where
  cancled : Bool := false
  owner : Fiber
  fd : Nat
  event : EventType
  deriving DecidableEq

/-- What the scheduler runs: a fiber, or the callback of a timeout. -/
inductive Task (Fiber : Type)
  | fiber (fiber : Fiber)
  | timeout (tinfo : Nat)
  deriving DecidableEq

/-- Where a fiber is, named by its next shared access. -/
inductive IoPosition
  | outside
  | direct (call : Call)
  | invoke (call : Call)
  | addTimer (turn : Turn)
  | addEvent (turn : Turn)
  | yield (turn : Turn)
  | parked (turn : Turn)
  | resumed (turn : Turn)
  | testCancled (turn : Turn)
  | failed (turn : Turn)
  | create (fd : Nat)
  | cancelAll (fd : Nat)
  | del (fd : Nat)
  | close (fd : Nat)
  deriving DecidableEq

namespace IoPosition

/-- The turn whose `TimerInfo` the fiber owns. -/
def turn : IoPosition → Option Turn
  | .addTimer turn | .addEvent turn | .yield turn | .parked turn | .resumed turn
  | .testCancled turn | .failed turn => some turn
  | _ => none

end IoPosition

/-- Where the callback of a timeout is. -/
inductive CallbackPosition
  | lock
  | mark
  | cancel
  deriving DecidableEq, Repr

/-- An execution of the underlying system call by `do_io`. -/
structure Invocation where
  began : Nat
  generation : Nat
  deriving DecidableEq

/-- A return of `do_io`. -/
structure Answer where
  began : Nat
  generation : Nat
  result : Int
  deriving DecidableEq

/-- The run queues of the Processers are the Reactor's list of fibers it handed over: a
fiber leaves it when a Processer resumes it. `invocations` and `answers` record the run. -/
structure Hook (Fiber : Type) where
  fdManager : FdManager
  kernel : Nat → Descriptor
  reactor : Reactor (Task Fiber)
  timers : TimerManager (Task Fiber)
  position : Fiber → IoPosition
  fresh : Nat
  tinfos : Nat → Option (TimerInfo Fiber)
  callback : Nat → Option CallbackPosition
  invocations : List Invocation
  answers : List Answer

inductive HookAction (Fiber : Type)
  | begin (fiber : Fiber) (operation : Operation) (fd : Nat) (event : EventType)
      (hookEnable : Bool) (connectTimeOut : UInt64)
  | invoke (fiber : Fiber) (outcome : Outcome)
  | addTimer (fiber : Fiber) (now : UInt64)
  | addEvent (fiber : Fiber) (setNonb epollCtl : Bool)
  | yieldToHold (fiber : Fiber)
  | resume (fiber : Fiber)
  | cancelTimer (fiber : Fiber)
  | testCancled (fiber : Fiber) (error : Bool)
  | socket (fiber : Fiber) (fd : Nat)
  | create (fiber : Fiber) (setNonb : Bool)
  | close (fiber : Fiber) (fd : Nat) (hookEnable : Bool)
  | cancelAll (fiber : Fiber) (epollCtl : Bool)
  | del (fiber : Fiber)
  | closeFd (fiber : Fiber)
  | setTimeout (fd : Nat) (type : EventType) (timeout : UInt64)
  | setUserNonBlock (fd : Nat) (state : Bool)
  | expire (now : UInt64)
  | runCallback (tinfo : Nat)
  | callback (tinfo : Nat) (epollCtl : Bool)
  | epollWait (ready : List (Nat × Ready))
  | dispatch (epollCtl : Bool)
  deriving DecidableEq

namespace Hook

variable {Fiber : Type}

def start (Fiber : Type) : Hook Fiber where
  fdManager := {}
  kernel _ := {}
  reactor := Reactor.new _
  timers := { heap := fun _ => {}, timers := [] }
  position _ := .outside
  fresh := 0
  tinfos _ := none
  callback _ := none
  invocations := []
  answers := []

/-- `accept` waits to read, `connect` to write. -/
def eventOf (operation : Operation) (event : EventType) : EventType :=
  match operation with
  | .transfer => event
  | .accept => .read
  | .connect => .write

/-- Whether the kernel may answer so: a closed number is `EBADF`, and `accept` gives its
new descriptor a free number. -/
def permits (hook : Hook Fiber) (call : Call) : Outcome → Bool
  | .failed => true
  | .done n =>
      (hook.kernel call.fd).isOpen &&
        (call.operation != .accept || !(hook.kernel n).isOpen)
  | _ => (hook.kernel call.fd).isOpen

def setKernel (hook : Hook Fiber) (fd : Nat) (descriptor : Descriptor) : Hook Fiber :=
  { hook with kernel := Function.update hook.kernel fd descriptor }

/-- `do_io` calls the underlying function. -/
def execute (hook : Hook Fiber) (call : Call) : Hook Fiber :=
  if call.operation = .connect then hook
  else { hook with
    invocations :=
      hook.invocations ++ [⟨call.began, (hook.kernel call.fd).generation⟩] }

def setCallback (hook : Hook Fiber) (tinfo : Nat) (position : Option CallbackPosition) :
    Hook Fiber :=
  { hook with callback := Function.update hook.callback tinfo position }

/-- `m_sched->addFiber` for the fibers of the expired timers. -/
def addFibers (hook : Hook Fiber) (tasks : List (Task Fiber)) : Hook Fiber :=
  { hook with reactor := { hook.reactor with handed := hook.reactor.handed ++ tasks } }

/-- `tinfo->cancled`. -/
def isCancled (hook : Hook Fiber) (tinfo : Nat) : Bool :=
  (hook.tinfos tinfo).any TimerInfo.cancled

/-- `if(timer) timer->cancel()`. -/
def cancelTimers (hook : Hook Fiber) (turn : Turn) : Option (Hook Fiber) :=
  if turn.timed then
    (hook.timers.cancel turn.tinfo).map fun answer => { hook with timers := answer.1 }
  else some hook

section

variable [DecidableEq Fiber]

def goTo (hook : Hook Fiber) (fiber : Fiber) (position : IoPosition) : Hook Fiber :=
  { hook with position := Function.update hook.position fiber position }

/-- `do_io` returns. -/
def record (hook : Hook Fiber) (call : Call) (result : Int) : Hook Fiber :=
  if call.operation = .connect then hook
  else { hook with
    answers := hook.answers ++ [⟨call.began, (hook.kernel call.fd).generation, result⟩] }

/-- A descriptor from `accept` still has to be looked up. -/
def finish (hook : Hook Fiber) (fiber : Fiber) (call : Call) (result : Int) : Hook Fiber :=
  let hook := hook.record call result
  match call.operation, result with
  | .accept, .ofNat fd =>
      hook.setKernel fd ((hook.kernel fd).openAs .socket) |>.goTo fiber (.create fd)
  | _, _ => hook.goTo fiber .outside

/-- `do_io` and `connect` up to the system call. -/
def begin (hook : Hook Fiber) (fiber : Fiber) (operation : Operation) (fd : Nat)
    (event : EventType) (hookEnable : Bool) (connectTimeOut : UInt64) :
    Option (Hook Fiber) :=
  match hook.position fiber with
  | .outside =>
      let descriptor := hook.kernel fd
      let event := eventOf operation event
      let call (timeout : UInt64) : Call :=
        { operation, fd, event, timeout, began := descriptor.generation }
      match hookEnable, hook.fdManager.lookUp fd with
      | true, some info =>
          let timeout :=
            if operation = .connect then connectTimeOut else info.getTimeout event
          if info.closed then some (hook.finish fiber (call timeout) (-1))
          else if info.isUserNonBlock then some (hook.goTo fiber (.direct (call timeout)))
          else if descriptor.isSocket || (operation != .connect && descriptor.isPipe) then
            some (hook.goTo fiber (.invoke (call timeout)))
          else some (hook.goTo fiber (.direct (call timeout)))
      | _, _ => some (hook.goTo fiber (.direct (call (-1))))
  | _ => none

/-- After `EAGAIN` or `EINPROGRESS`. -/
def newTurn (hook : Hook Fiber) (fiber : Fiber) (call : Call) : Hook Fiber :=
  { hook with
    fresh := hook.fresh + 1
    tinfos := Function.update hook.tinfos hook.fresh
      (some { owner := fiber, fd := call.fd, event := call.event }) }
    |>.goTo fiber (.addTimer ⟨call, hook.fresh⟩)

/-- The system call. On a blocking descriptor `do_io` fails its `assert` and the process
ends. -/
def invoke (hook : Hook Fiber) (fiber : Fiber) (outcome : Outcome) : Option (Hook Fiber) :=
  match hook.position fiber with
  | .direct call =>
      if hook.permits call outcome then
        let hook := hook.execute call
        match outcome with
        | .done n => some (hook.finish fiber call n)
        | _ => some (hook.finish fiber call (-1))
      else none
  | .invoke call =>
      let descriptor := hook.kernel call.fd
      if call.operation ≠ .connect ∧ descriptor.isOpen ∧ descriptor.nonblock = false then none
      else if hook.permits call outcome then
        let hook := hook.execute call
        match outcome with
        | .done n => some (hook.finish fiber call n)
        | .again => some (hook.newTurn fiber call)
        | .interrupted =>
            if call.operation = .connect then some (hook.finish fiber call (-1))
            else some hook
        | .failed => some (hook.finish fiber call (-1))
      else none
  | _ => none

/-- The timer is armed before the event is registered. -/
def addTimer (hook : Hook Fiber) (fiber : Fiber) (now : UInt64) : Option (Hook Fiber) :=
  match hook.position fiber with
  | .addTimer turn =>
      if turn.timed then
        let timer := Timer.new 0 turn.call.timeout 0 0 now
        let timers := { hook.timers with
          heap := Function.update hook.timers.heap turn.tinfo timer }
        (timers.addTimer turn.tinfo (.timeout turn.tinfo) .single).map fun answer =>
          { hook with timers := answer.1 }.goTo fiber (.addEvent turn)
      else some (hook.goTo fiber (.addEvent turn))
  | _ => none

/-- `addReadEvent` or `addWriteEvent` for the calling fiber. -/
def addEvent (hook : Hook Fiber) (fiber : Fiber) (setNonb epollCtl : Bool) :
    Option (Hook Fiber) :=
  match hook.position fiber with
  | .addEvent turn =>
      let fd := turn.call.fd
      (hook.reactor.addEvent fd (.fiber fiber) turn.call.event setNonb epollCtl).map
        fun answer =>
          { hook with reactor := answer.1 }
            |>.setKernel fd ((hook.kernel fd).setNonb setNonb)
            |>.goTo fiber (if answer.2 = 0 then .yield turn else .failed turn)
  | _ => none

def yieldToHold (hook : Hook Fiber) (fiber : Fiber) : Option (Hook Fiber) :=
  match hook.position fiber with
  | .yield turn => some (hook.goTo fiber (.parked turn))
  | _ => none

/-- A Processer runs the queued fiber. It does so only after the fiber has switched out. -/
def resume (hook : Hook Fiber) (fiber : Fiber) : Option (Hook Fiber) :=
  match hook.position fiber with
  | .parked turn =>
      if .fiber fiber ∈ hook.reactor.handed then
        some ({ hook with reactor := { hook.reactor with
          handed := hook.reactor.handed.erase (.fiber fiber) } }.goTo fiber (.resumed turn))
      else none
  | _ => none

def cancelTimer (hook : Hook Fiber) (fiber : Fiber) : Option (Hook Fiber) :=
  match hook.position fiber with
  | .resumed turn =>
      (hook.cancelTimers turn).map fun hook => hook.goTo fiber (.testCancled turn)
  | .failed turn =>
      (hook.cancelTimers turn).map fun hook => hook.finish fiber turn.call (-1)
  | _ => none

/-- `do_io` goes round its loop, with the number it was given. `connect` asks for
`SO_ERROR`. -/
def testCancled (hook : Hook Fiber) (fiber : Fiber) (error : Bool) : Option (Hook Fiber) :=
  match hook.position fiber with
  | .testCancled turn =>
      if hook.isCancled turn.tinfo then some (hook.finish fiber turn.call (-1))
      else if turn.call.operation = .connect then
        some (hook.finish fiber turn.call (if error then -1 else 0))
      else some (hook.goTo fiber (.invoke turn.call))
  | _ => none

def socket (hook : Hook Fiber) (fiber : Fiber) (fd : Nat) : Option (Hook Fiber) :=
  match hook.position fiber with
  | .outside =>
      if (hook.kernel fd).isOpen then none
      else some (hook.setKernel fd ((hook.kernel fd).openAs .socket) |>.goTo fiber (.create fd))
  | _ => none

/-- `lookUp(fd, true)` with the constructor of `FdInfo`: without `O_NONBLOCK` the new object
stays closed. -/
def create (hook : Hook Fiber) (fiber : Fiber) (setNonb : Bool) : Option (Hook Fiber) :=
  match hook.position fiber with
  | .create fd =>
      let descriptor := hook.kernel fd
      if descriptor.isSocket || descriptor.isPipe then
        some ({ hook with
          fdManager := hook.fdManager.create fd { closed := !setNonb } }
          |>.setKernel fd (descriptor.setNonb setNonb)
          |>.goTo fiber .outside)
      else
        some ({ hook with fdManager := hook.fdManager.create fd {} }.goTo fiber .outside)
  | _ => none

def close (hook : Hook Fiber) (fiber : Fiber) (fd : Nat) (hookEnable : Bool) :
    Option (Hook Fiber) :=
  match hook.position fiber with
  | .outside =>
      if hookEnable = false then some (hook.goTo fiber (.close fd))
      else if (hook.fdManager.lookUp fd).isSome then some (hook.goTo fiber (.cancelAll fd))
      else some (hook.goTo fiber (.del fd))
  | _ => none

def cancelAll (hook : Hook Fiber) (fiber : Fiber) (epollCtl : Bool) : Option (Hook Fiber) :=
  match hook.position fiber with
  | .cancelAll fd =>
      some ({ hook with reactor := (hook.reactor.cancelAll fd epollCtl).1 }.goTo fiber (.del fd))
  | _ => none

/-- An exception leaves `close` before `close_f`. -/
def del (hook : Hook Fiber) (fiber : Fiber) : Option (Hook Fiber) :=
  match hook.position fiber with
  | .del fd =>
      match hook.fdManager.del fd with
      | some fdManager => some ({ hook with fdManager }.goTo fiber (.close fd))
      | none => some (hook.goTo fiber .outside)
  | _ => none

/-- `close_f`. The kernel also stops watching the descriptor. -/
def closeFd (hook : Hook Fiber) (fiber : Fiber) : Option (Hook Fiber) :=
  match hook.position fiber with
  | .close fd =>
      some ({ hook with reactor := hook.reactor.setInterest fd .none }
        |>.setKernel fd (hook.kernel fd).close
        |>.goTo fiber .outside)
  | _ => none

/-- A Processer takes the callback's fiber. -/
def runCallback (hook : Hook Fiber) (tinfo : Nat) : Option (Hook Fiber) :=
  if .timeout tinfo ∈ hook.reactor.handed ∧ hook.callback tinfo = none then
    some ({ hook with reactor := { hook.reactor with
      handed := hook.reactor.handed.erase (.timeout tinfo) } }.setCallback tinfo (some .lock))
  else none

/-- `winfo.lock()` succeeds while the turn that made the `TimerInfo` lasts. -/
def locks (hook : Hook Fiber) (tinfo : Nat) : Bool :=
  match hook.tinfos tinfo with
  | some info => (hook.position info.owner).turn.map Turn.tinfo == some tinfo
  | none => false

def callbackStep (hook : Hook Fiber) (tinfo : Nat) (epollCtl : Bool) : Option (Hook Fiber) :=
  match hook.callback tinfo, hook.tinfos tinfo with
  | some .lock, some _ =>
      some (hook.setCallback tinfo (if hook.locks tinfo then some .mark else none))
  | some .mark, some info =>
      if info.cancled then some (hook.setCallback tinfo none)
      else
        some ({ hook with
          tinfos := Function.update hook.tinfos tinfo (some { info with cancled := true }) }
          |>.setCallback tinfo (some .cancel))
  | some .cancel, some info =>
      some ({ hook with
        reactor := (hook.reactor.cancelEvent info.fd info.event epollCtl).1 }
        |>.setCallback tinfo none)
  | _, _ => none

def step (hook : Hook Fiber) : HookAction Fiber → Option (Hook Fiber)
  | .begin fiber operation fd event hookEnable connectTimeOut =>
      hook.begin fiber operation fd event hookEnable connectTimeOut
  | .invoke fiber outcome => hook.invoke fiber outcome
  | .addTimer fiber now => hook.addTimer fiber now
  | .addEvent fiber setNonb epollCtl => hook.addEvent fiber setNonb epollCtl
  | .yieldToHold fiber => hook.yieldToHold fiber
  | .resume fiber => hook.resume fiber
  | .cancelTimer fiber => hook.cancelTimer fiber
  | .testCancled fiber error => hook.testCancled fiber error
  | .socket fiber fd => hook.socket fiber fd
  | .create fiber setNonb => hook.create fiber setNonb
  | .close fiber fd hookEnable => hook.close fiber fd hookEnable
  | .cancelAll fiber epollCtl => hook.cancelAll fiber epollCtl
  | .del fiber => hook.del fiber
  | .closeFd fiber => hook.closeFd fiber
  | .setTimeout fd type timeout =>
      some { hook with
        fdManager := hook.fdManager.modify fd (·.setTimeout type timeout) }
  | .setUserNonBlock fd state =>
      some { hook with fdManager := hook.fdManager.modify fd (·.setUserNonBlock state) }
  | .expire now =>
      let (timers, fibers) := hook.timers.getExpiredTasks now
      some ({ hook with timers }.addFibers (fibers.filterMap id))
  | .runCallback tinfo => hook.runCallback tinfo
  | .callback tinfo epollCtl => hook.callbackStep tinfo epollCtl
  | .epollWait ready =>
      if hook.reactor.ready = [] ∧ hook.reactor.Reported ready = true then
        some { hook with reactor := { hook.reactor with ready } }
      else none
  | .dispatch epollCtl =>
      match hook.reactor.ready with
      | [] => none
      | (fd, ready) :: rest =>
          some { hook with
            reactor := { hook.reactor with ready := rest }.handle fd ready epollCtl }

def machine (Fiber : Type) [DecidableEq Fiber] : Machine (Hook Fiber) (HookAction Fiber) where
  initial hook := hook = start Fiber
  step := step

end

end Hook

end FiberNet
