import FiberNet.Foundation.Machine
import Mathlib.Algebra.Group.Nat.Defs
import Mathlib.Data.List.Basic
import Mathlib.Logic.Function.Basic

/-! # Fiber

A fiber's callback stops in `YieldToReady` and `YieldToHold` and goes on when a thread takes the
fiber again. `jump_fcontext` saves where one stack goes on and goes on with another.
-/

namespace FiberNet

namespace Concurrent

/-- What is left of a callback. An event is a call of anything else. -/
inductive Callback (Event : Type)
  | call (event : Event) (rest : Callback Event)
  | getFid (rest : Nat → Callback Event)
  | yieldToReady (rest : Callback Event)
  | yieldToHold (rest : Callback Event)
  | returns
  | throws

namespace Callback

variable {Event : Type}

/-- Its calls, when nothing stops it. -/
def events (fid : Nat) : Callback Event → List Event
  | call event rest => event :: rest.events fid
  | getFid rest => (rest fid).events fid
  | yieldToReady rest | yieldToHold rest => rest.events fid
  | returns | throws => []

end Callback

inductive State
  | init
  | ready
  | hold
  | exec
  | term
  | except
  deriving DecidableEq, Repr

namespace State

def ended : State → Bool
  | term | except => true
  | init | ready | hold | exec => false

end State

/-- How a callback ends. -/
def Callback.ends {Event : Type} (fid : Nat) : Callback Event → State
  | call _ rest | yieldToReady rest | yieldToHold rest => rest.ends fid
  | getFid rest => (rest fid).ends fid
  | returns => .term
  | throws => .except

inductive Stack
  | thread (thread : Nat)
  | fiber (object : Nat)

inductive Point (Event : Type)
  /-- `Processer::run`, before a fiber is fetched. -/
  | loop
  /-- The state of the fetched fiber was no `EXEC`, the next step is `setState(READY)`. -/
  | fetched (fiber : Nat)
  /-- At the beginning of `swapIn`. -/
  | ready (fiber : Nat)
  /-- `swapIn` before its jump. -/
  | entering (fiber : Nat)
  /-- `Processer::run` behind `swapIn`. -/
  | back (fiber : Nat)
  /-- The state was `EXEC`, the next step is `_state = HOLD`. -/
  | holding (fiber : Nat)
  /-- The beginning of `Fiber::run`. -/
  | run
  /-- In the callback. The local variable of `Fiber::run` is `cur`. -/
  | callback (cur : Nat) (rest : Callback Event)
  /-- `YieldToReady` with the state set. -/
  | yielding (self cur : Nat) (rest : Callback Event)
  /-- `Fiber::run` before its `swapOut`. -/
  | ended (raw_ptr : Nat)
  /-- `Fiber::run` behind it: the process ends. -/
  | returned

def Point.exits {Event : Type} : Point Event → Bool
  | .returned => true
  | _ => false

structure Context (Event : Type) where
  stack : Stack
  point : Point Event

/-- A context that is not there was never made or is in use. -/
structure Fiber (Event : Type) where
  cb : Option (Callback Event)
  fid : Nat
  ctx : Option (Context Event)
  state : State
  isMain : Bool

/-- `_this_fiber`, `_main_fiber` and what the thread executes. -/
structure Thread (Event : Type) where
  this_fiber : Option Nat
  main_fiber : Option Nat
  context : Context Event

/-- The callback that each object was `given` last and what has been `called` since are there
for the statements. -/
structure Fibers (Event : Type) where
  objects : Nat → Option (Fiber Event)
  threads : Nat → Option (Thread Event)
  fresh : Nat
  fiber_id : Nat
  given : Nat → Option (Callback Event)
  called : Nat → List Event

namespace Fibers

variable {Event : Type}

def new : Fibers Event where
  objects _ := none
  threads _ := none
  fresh := 0
  fiber_id := 0
  given _ := none
  called _ := []

def setObject (world : Fibers Event) (object : Nat) (fiber : Fiber Event) : Fibers Event :=
  { world with objects := Function.update world.objects object (some fiber) }

def setThread (world : Fibers Event) (thread : Nat) (executing : Thread Event) : Fibers Event :=
  { world with threads := Function.update world.threads thread (some executing) }

def setState (world : Fibers Event) (object : Nat) (state : State) : Option (Fibers Event) :=
  (world.objects object).map fun fiber => world.setObject object { fiber with state }

def setThis (world : Fibers Event) (thread object : Nat) : Option (Fibers Event) :=
  (world.threads thread).map fun executing =>
    world.setThread thread { executing with this_fiber := some object }

/-- The constructor for the fiber of a thread. -/
def newMain (world : Fibers Event) (thread : Nat) (executing : Thread Event) : Fibers Event :=
  { world.setObject world.fresh ⟨none, 0, none, .exec, true⟩ with
    threads := Function.update world.threads thread (some { executing with
      this_fiber := some world.fresh, main_fiber := some world.fresh })
    fresh := world.fresh + 1 }

def getThis (world : Fibers Event) (thread : Nat) : Option (Nat × Fibers Event) :=
  (world.threads thread).map fun executing =>
    match executing.this_fiber with
    | some fiber => (fiber, world)
    | none => (world.fresh, world.newMain thread executing)

def getFid (world : Fibers Event) (thread : Nat) : Option Nat :=
  (world.threads thread).bind fun executing =>
    match executing.this_fiber with
    | some object => (world.objects object).map Fiber.fid
    | none => some 0

/-- The thread goes on at another point of its stack. -/
def goTo (world : Fibers Event) (thread : Nat) (point : Point Event) : Option (Fibers Event) :=
  if point.exits then none
  else (world.threads thread).map fun executing =>
    world.setThread thread { executing with context := { executing.context with point } }

/-- `point` is where the stack that is left goes on. -/
def jump_fcontext (world : Fibers Event) (thread octx : Nat) (point : Point Event) (nctx : Nat) :
    Option (Fibers Event) := do
  let executing ← world.threads thread
  let new ← world.objects nctx
  let context ← new.ctx
  let world := world.setObject nctx { new with ctx := none }
  let old ← world.objects octx
  let world := world.setObject octx { old with ctx := some ⟨executing.context.stack, point⟩ }
  if context.point.exits then none
  else some (world.setThread thread { executing with context })

/-- The constructor. -/
def create (world : Fibers Event) (cb : Option (Callback Event)) : Fibers Event :=
  let fid := (world.fiber_id + 1) % 2 ^ 32
  { world.setObject world.fresh ⟨cb, fid, some ⟨.fiber world.fresh, .run⟩, .init, false⟩ with
    fresh := world.fresh + 1
    fiber_id := fid
    given := Function.update world.given world.fresh cb
    called := Function.update world.called world.fresh [] }

/-- There is no new context on a stack in use. -/
def reset (world : Fibers Event) (object : Nat) (cb : Option (Callback Event)) :
    Option (Fibers Event) := do
  let fiber ← world.objects object
  if fiber.isMain || fiber.ctx.isNone then none
  else some { world.setObject object
      { fiber with cb, ctx := some ⟨.fiber object, .run⟩, state := .init } with
    given := Function.update world.given object cb
    called := Function.update world.called object [] }

/-- `swapIn` up to its jump. -/
def swapIn (world : Fibers Event) (thread self : Nat) : Option (Fibers Event) := do
  let world ← world.setThis thread self
  (← world.setState self .exec).goTo thread (.entering self)

/-- The jump of `swapIn`. -/
def enter (world : Fibers Event) (thread self : Nat) : Option (Fibers Event) := do
  let executing ← world.threads thread
  let main ← executing.main_fiber
  world.jump_fcontext thread main (.back self) self

/-- `behind` is where its caller goes on. -/
def swapOut (world : Fibers Event) (thread self : Nat) (behind : Point Event) :
    Option (Fibers Event) := do
  let (this, world) ← world.getThis thread
  let executing ← world.threads thread
  let main ← executing.main_fiber
  if this = main then world.goTo thread behind
  else (← world.setThis thread main).jump_fcontext thread self behind main

def yieldToReady (world : Fibers Event) (thread cur : Nat) (rest : Callback Event) :
    Option (Fibers Event) := do
  let (self, world) ← world.getThis thread
  (← world.setState self .ready).goTo thread (.yielding self cur rest)

def yieldToHold (world : Fibers Event) (thread cur : Nat) (rest : Callback Event) :
    Option (Fibers Event) := do
  let (self, world) ← world.getThis thread
  world.swapOut thread self (.callback cur rest)

/-- `Fiber::run` up to the callback. Without one `std::bad_function_call` is thrown. -/
def run (world : Fibers Event) (thread : Nat) : Option (Fibers Event) := do
  let (cur, world) ← world.getThis thread
  let fiber ← world.objects cur
  match fiber.cb with
  | some callback => world.goTo thread (.callback cur callback)
  | none => (← world.setState cur .except).goTo thread (.ended cur)

/-- What comes next in the callback. -/
def callback (world : Fibers Event) (thread cur : Nat) : Callback Event → Option (Fibers Event)
  | .call event rest =>
      { world with called := Function.update world.called cur (world.called cur ++ [event]) }.goTo
        thread (.callback cur rest)
  | .getFid rest => do
      let fid ← world.getFid thread
      world.goTo thread (.callback cur (rest fid))
  | .yieldToReady rest => world.yieldToReady thread cur rest
  | .yieldToHold rest => world.yieldToHold thread cur rest
  | .returns => do
      let fiber ← world.objects cur
      (world.setObject cur { fiber with cb := none, state := .term }).goTo thread (.ended cur)
  | .throws => do (← world.setState cur .except).goTo thread (.ended cur)

/-- `Processer::run` behind `swapIn`. Of its tests of the state the last one decides. -/
def swappedOut (world : Fibers Event) (thread object : Nat) : Option (Fibers Event) := do
  let fiber ← world.objects object
  world.goTo thread (if fiber.state = .exec then .holding object else .loop)

/-- What the thread executes next. -/
def execute (world : Fibers Event) (thread : Nat) : Point Event → Option (Fibers Event)
  | .loop => some world
  | .fetched fiber => do (← world.setState fiber .ready).goTo thread (.ready fiber)
  | .ready fiber => world.swapIn thread fiber
  | .entering fiber => world.enter thread fiber
  | .back fiber => world.swappedOut thread fiber
  | .holding fiber => do (← world.setState fiber .hold).goTo thread .loop
  | .run => world.run thread
  | .callback cur rest => world.callback thread cur rest
  | .yielding self cur rest => world.swapOut thread self (.callback cur rest)
  | .ended raw_ptr => world.swapOut thread raw_ptr .returned
  | .returned => none

/-- `Processer::run` with a fiber from the queue, where the last test decides as well. One that
is still about to hold is put back. -/
def fetch (world : Fibers Event) (thread object : Nat) : Option (Fibers Event) := do
  let fiber ← world.objects object
  if fiber.state = .exec then some world else world.goTo thread (.fetched object)

/-- `Processer::run` before its loop. -/
def start (world : Fibers Event) (thread : Nat) : Option (Fibers Event) :=
  ((world.setThread thread ⟨none, none, ⟨.thread thread, .loop⟩⟩).getThis thread).map Prod.snd

end Fibers

/-- What can happen. The queues can hold any fiber at any time, several times over. Nobody locks a
fiber, so each test of a state, each change of one and each jump is a step; only a reset is one
as a whole. -/
inductive FiberAction (Event : Type)
  | start (thread : Nat)
  | create (cb : Option (Callback Event))
  | reset (object : Nat) (cb : Option (Callback Event))
  | fetch (thread object : Nat)
  | execute (thread : Nat)

namespace Fibers

variable {Event : Type}

/-- The thread executes its loop. -/
def looping (world : Fibers Event) (thread : Nat) : Bool :=
  match world.threads thread with
  | some ⟨_, _, ⟨_, .loop⟩⟩ => true
  | _ => false

def enabled (world : Fibers Event) : FiberAction Event → Bool
  | .start thread => (world.threads thread).isNone
  | .create _ => true
  | .reset object _ => (world.objects object).isSome
  | .fetch thread object => world.looping thread && (world.objects object).isSome
  | .execute thread => (world.threads thread).isSome

/-- Without a result something undefined happens. -/
def perform (world : Fibers Event) : FiberAction Event → Option (Fibers Event)
  | .start thread => world.start thread
  | .create cb => some (world.create cb)
  | .reset object cb => world.reset object cb
  | .fetch thread object => world.fetch thread object
  | .execute thread =>
      (world.threads thread).bind fun executing => world.execute thread executing.context.point

/-- Nothing happens any more when something undefined has happened. -/
def machine : Machine (Option (Fibers Event)) (FiberAction Event) where
  initial state := state = some new
  step state action :=
    state.bind fun world => if world.enabled action then some (world.perform action) else none

end Fibers

end Concurrent

end FiberNet
