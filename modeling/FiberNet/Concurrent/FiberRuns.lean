import FiberNet.Concurrent.Fiber

/-! # The runs of fibers

The place where a fiber goes on is at any time either with one thread or in the fiber's context.
How far its callback is there, and what it has called on the way, is the invariant.
-/

namespace FiberNet

namespace Concurrent

namespace Callback

variable {Event : Type}

def eventsOf (cb : Option (Callback Event)) (fid : Nat) : List Event :=
  cb.elim [] (events fid)

/-- A call without a callback throws. -/
def endOf (cb : Option (Callback Event)) (fid : Nat) : State :=
  cb.elim .except (ends fid)

theorem ended_ends (fid : Nat) (callback : Callback Event) : (callback.ends fid).ended = true := by
  induction callback with
  | call event rest induction => exact induction
  | getFid rest induction => exact induction fid
  | yieldToReady rest induction => exact induction
  | yieldToHold rest induction => exact induction
  | returns => rfl
  | throws => rfl

end Callback

/-! ## What is kept -/

namespace Fibers

variable {Event : Type} {world next : Fibers Event}

/-- A thread is on the fiber's stack. -/
def Executed (world : Fibers Event) (object : Nat) : Prop :=
  ∃ thread executing, world.threads thread = some executing ∧
    executing.context.stack = .fiber object

structure Kept (world : Fibers Event) : Prop where
  /-- What a fiber has called is what its callback calls first, and all of it when the fiber has
  ended, as the callback does. -/
  called : ∀ {object fiber}, world.objects object = some fiber → fiber.isMain = false →
    ∃ left, Callback.eventsOf (world.given object) fiber.fid = world.called object ++ left ∧
      (fiber.state.ended = true →
        left = [] ∧ fiber.state = Callback.endOf (world.given object) fiber.fid)
  /-- The code on a fiber's stack finds the fiber as its own, and on one thread only. -/
  current : ∀ {thread executing object}, world.threads thread = some executing →
    executing.context.stack = .fiber object → executing.this_fiber = some object ∧
      ∀ {other another}, world.threads other = some another →
        another.context.stack = .fiber object → other = thread
  /-- Otherwise a thread executes its own loop, with its own fiber or the one it is entering. -/
  loops : ∀ {thread executing other}, world.threads thread = some executing →
    executing.context.stack = .thread other →
      other = thread ∧ (executing.this_fiber = executing.main_fiber ∨
        ∃ object, executing.context.point = .entering object ∧
          executing.this_fiber = some object)
  /-- A fiber that no thread executes has a context to go on with. -/
  waits : ∀ {object fiber}, world.objects object = some fiber → fiber.isMain = false →
    ¬world.Executed object → ∃ context, fiber.ctx = some context ∧
      context.stack = .fiber object

/-- `Fiber::run` has come to its end. -/
def Finished (world : Fibers Event) (object : Nat) : Prop :=
  ∃ fiber ∈ world.objects object, ∃ context ∈ fiber.ctx, context.point.exits = true

/-- Nobody jumps to a fiber that is executed or has ended, or gives one that is executed another
callback. -/
def Heeds (world : Fibers Event) : FiberAction Event → Prop
  | .reset object _ => ∀ fiber ∈ world.objects object,
      fiber.isMain = false ∧ ¬world.Executed object
  | .execute thread => ∀ executing ∈ world.threads thread, ∀ object,
      executing.context.point = .entering object →
        ¬world.Executed object ∧ ¬world.Finished object
  | _ => True

/-! ## The invariant -/

/-- How far the callback of a fiber is that goes on at a point. -/
def Progress (given : Option (Callback Event)) (called : List Event) (object : Nat)
    (fiber : Fiber Event) : Point Event → Prop
  | .run => called = [] ∧ fiber.cb = given ∧ fiber.state.ended = false
  | .callback cur rest => cur = object ∧ Halfway rest
  | .yielding self cur rest => self = object ∧ cur = object ∧ Halfway rest
  | .ended raw_ptr => raw_ptr = object ∧ Done
  | .returned => Done
  | .loop | .fetched _ | .ready _ | .entering _ | .back _ | .holding _ => False
where
  Halfway (rest : Callback Event) : Prop :=
    Callback.eventsOf given fiber.fid = called ++ rest.events fiber.fid ∧
      Callback.endOf given fiber.fid = rest.ends fiber.fid ∧ fiber.state.ended = false
  Done : Prop :=
    called = Callback.eventsOf given fiber.fid ∧
      -- Another thread that has fetched the fiber can set the state again.
      (fiber.state.ended = true → fiber.state = Callback.endOf given fiber.fid)

/-- Where a thread in its loop is, and which fiber is the current one there. -/
def InLoop (world : Fibers Event) (this main : Option Nat) : Point Event → Prop
  | .loop => this = main
  | .fetched object | .ready object | .back object | .holding object =>
      this = main ∧ (world.objects object).map Fiber.isMain = some false
  | .entering object =>
      this = some object ∧ (world.objects object).map Fiber.isMain = some false
  | .run | .callback _ _ | .yielding _ _ _ | .ended _ | .returned => False

theorem InLoop.this {this main : Option Nat} {point : Point Event}
    (inLoop : world.InLoop this main point) :
    this = main ∨ ∃ object, point = .entering object ∧ this = some object := by
  cases point with
  | loop => exact .inl inLoop
  | fetched _ | ready _ | back _ | holding _ => exact .inl inLoop.1
  | entering object => exact .inr ⟨object, rfl, inLoop.1⟩
  | run | callback _ _ | yielding _ _ _ | ended _ | returned => exact inLoop.elim

/-- The thread is in its loop. -/
structure Idle (world : Fibers Event) (thread : Nat) (executing : Thread Event)
    (main : Fiber Event) : Prop where
  stack : executing.context.stack = .thread thread
  point : world.InLoop executing.this_fiber executing.main_fiber executing.context.point
  context : main.ctx = none

/-- The thread is on the stack of a fiber. -/
structure Runs (world : Fibers Event) (thread : Nat) (executing : Thread Event)
    (main : Fiber Event) (object : Nat) : Prop where
  stack : executing.context.stack = .fiber object
  this : executing.this_fiber = some object
  context : main.ctx = some ⟨.thread thread, .back object⟩
  fiber : ∃ fiber, world.objects object = some fiber ∧ fiber.isMain = false ∧ fiber.ctx = none ∧
    Progress (world.given object) (world.called object) object fiber executing.context.point
  stays : executing.context.point.exits = false

def Holds (world : Fibers Event) (thread : Nat) (executing : Thread Event) : Prop :=
  ∃ main fiber, executing.main_fiber = some main ∧ world.objects main = some fiber ∧
    fiber.isMain = true ∧ fiber.state = .exec ∧
    (world.Idle thread executing fiber ∨ ∃ object, world.Runs thread executing fiber object)

structure Stands (world : Fibers Event) (object : Nat) (fiber : Fiber Event) : Prop where
  main : fiber.isMain = true → fiber.state = .exec
  executed : fiber.isMain = false → fiber.ctx = none → world.Executed object
  saved : fiber.isMain = false → ∀ context ∈ fiber.ctx, context.stack = .fiber object ∧
    Progress (world.given object) (world.called object) object fiber context.point ∧
      (fiber.state.ended = true → context.point.exits = true)

structure Sound (world : Fibers Event) : Prop where
  fresh : ∀ {object}, world.fresh ≤ object → world.objects object = none
  holds : ∀ {thread executing}, world.threads thread = some executing →
    world.Holds thread executing
  mains : ∀ {thread other executing another}, world.threads thread = some executing →
    world.threads other = some another → executing.main_fiber = another.main_fiber →
      other = thread
  single : ∀ {thread other executing another object}, world.threads thread = some executing →
    world.threads other = some another → executing.context.stack = .fiber object →
      another.context.stack = .fiber object → other = thread
  stands : ∀ {object fiber}, world.objects object = some fiber → world.Stands object fiber

/-! ### Frames -/

theorem InLoop.frame {this main : Option Nat} {point : Point Event}
    (others : ∀ object, (world.objects object).map Fiber.isMain = some false →
      (next.objects object).map Fiber.isMain = some false)
    (inLoop : world.InLoop this main point) : next.InLoop this main point := by
  cases point with
  | loop => exact inLoop
  | fetched object | ready object | back object | holding object | entering object =>
      exact ⟨inLoop.1, others object inLoop.2⟩
  | run | callback _ _ | yielding _ _ _ | ended _ | returned => exact inLoop

theorem Holds.frame {thread : Nat} {executing : Thread Event}
    (holds : world.Holds thread executing)
    (main : ∀ main, executing.main_fiber = some main → next.objects main = world.objects main)
    (fiber : ∀ object, executing.context.stack = .fiber object →
      next.objects object = world.objects object ∧ next.given object = world.given object ∧
        next.called object = world.called object)
    (others : ∀ object, (world.objects object).map Fiber.isMain = some false →
      (next.objects object).map Fiber.isMain = some false) :
    next.Holds thread executing := by
  rcases holds with ⟨own, mine, known, found, isMain, state, idle | ⟨object, runs⟩⟩
  · refine ⟨own, mine, known, (main own known).trans found, isMain, state, .inl ?_⟩
    exact { idle with point := idle.point.frame others }
  · refine ⟨own, mine, known, (main own known).trans found, isMain, state, .inr ⟨object, ?_⟩⟩
    rcases fiber object runs.stack with ⟨same, given, called⟩
    refine { runs with fiber := ?_ }
    rw [same, given, called]
    exact runs.fiber

theorem Stands.frame {object : Nat} {fiber : Fiber Event} (stands : world.Stands object fiber)
    (given : next.given object = world.given object)
    (called : next.called object = world.called object)
    (executed : world.Executed object → next.Executed object) : next.Stands object fiber where
  main := stands.main
  executed other absent := executed (stands.executed other absent)
  saved := by
    rw [given, called]
    exact stands.saved

/-! ### A thread moves -/

/-- A thread moves with its fiber, all the rest is as before. -/
structure Moves (world next : Fibers Event) (thread main object : Nat)
    (executing moved : Thread Event) (fiber : Fiber Event) : Prop where
  found : world.threads thread = some executing
  known : executing.main_fiber = some main
  present : (world.objects object).map Fiber.isMain = some false
  alone : ∀ {other another}, world.threads other = some another →
    another.context.stack = .fiber object → other = thread
  left : ∀ other, executing.context.stack = .fiber other → other = object
  threads : next.threads = Function.update world.threads thread (some moved)
  objects : ∀ other, other ≠ main → other ≠ object → next.objects other = world.objects other
  ghosts : ∀ other, other ≠ object → next.given other = world.given other ∧
    next.called other = world.called other
  fresh : next.fresh = world.fresh
  same : moved.main_fiber = some main
  entered : ∀ other, moved.context.stack = .fiber other → other = object
  placed : next.objects object = some fiber
  other : fiber.isMain = false

namespace Moves

variable {thread main object : Nat} {executing moved : Thread Event} {fiber : Fiber Event}

theorem mine (moves : world.Moves next thread main object executing moved fiber) :
    next.threads thread = some moved := by
  rw [moves.threads, Function.update_self]

theorem theirs (moves : world.Moves next thread main object executing moved fiber)
    {another : Nat} (different : another ≠ thread) :
    next.threads another = world.threads another := by
  rw [moves.threads, Function.update_of_ne different]

theorem own (moves : world.Moves next thread main object executing moved fiber)
    (sound : world.Sound) : ∃ old, world.objects main = some old ∧ old.isMain = true := by
  rcases sound.holds moves.found with ⟨_, old, named, there, isMain, _⟩
  cases moves.known.symm.trans named
  exact ⟨old, there, isMain⟩

/-- Where a thread was, and which stack it has come to. -/
theorem before (moves : world.Moves next thread main object executing moved fiber)
    {other : Nat} {now : Thread Event} (running : next.threads other = some now) :
    ∃ was, world.threads other = some was ∧ was.main_fiber = now.main_fiber ∧
      ∀ current, now.context.stack = .fiber current →
        was.context.stack = .fiber current ∨ other = thread ∧ current = object := by
  by_cases equal : other = thread
  · rw [equal, moves.mine] at running
    cases running
    rw [equal]
    exact ⟨executing, moves.found, moves.known.trans moves.same.symm,
      fun current stack => .inr ⟨rfl, moves.entered current stack⟩⟩
  · rw [moves.theirs equal] at running
    exact ⟨now, running, rfl, fun current stack => .inl stack⟩

theorem absent (moves : world.Moves next thread main object executing moved fiber)
    (sound : world.Sound) {unused : Nat} (above : next.fresh ≤ unused) :
    next.objects unused = none := by
  rcases moves.own sound with ⟨old, there, _⟩
  have present := moves.present
  rw [moves.fresh] at above
  have absent := sound.fresh above
  rw [moves.objects unused _ _]
  · exact absent
  · intro equal
    rw [equal, there] at absent
    cases absent
  · intro equal
    rw [equal] at absent
    rw [absent] at present
    cases present

theorem marks (moves : world.Moves next thread main object executing moved fiber)
    (sound : world.Sound) (current : Nat)
    (mark : (world.objects current).map Fiber.isMain = some false) :
    (next.objects current).map Fiber.isMain = some false := by
  rcases moves.own sound with ⟨old, there, isMain⟩
  by_cases same : current = object
  · rw [same, moves.placed, Option.map_some, moves.other]
  · rw [moves.objects current _ same]
    · exact mark
    · intro same
      rw [same, there, Option.map_some, isMain] at mark
      cases mark

/-- The other threads keep their own fibers and those they execute. -/
theorem others_hold (moves : world.Moves next thread main object executing moved fiber)
    (sound : world.Sound) {another : Nat} {now : Thread Event} (different : another ≠ thread)
    (running : world.threads another = some now) : next.Holds another now := by
  rcases moves.own sound with ⟨old, there, isMain⟩
  have present := moves.present
  apply (sound.holds running).frame
  · intro own named
    apply moves.objects
    · intro same
      apply different
      apply sound.mains moves.found running
      rw [named, same, moves.known]
    · intro same
      rcases sound.holds running with ⟨place, there, named', present', isMain', _⟩
      cases named.symm.trans named'
      rw [same] at present'
      rw [present', Option.map_some, isMain'] at present
      cases present
  · intro current stack
    have distinct : current ≠ object := by
      intro same
      rw [same] at stack
      exact different (moves.alone running stack)
    refine ⟨moves.objects current ?_ distinct, moves.ghosts current distinct⟩
    intro same
    rcases sound.holds running with ⟨_, _, _, _, _, _, idle | ⟨place, runs⟩⟩
    · rw [idle.stack] at stack
      cases stack
    · cases runs.stack.symm.trans stack
      rcases runs.fiber with ⟨fiber', present', other', _⟩
      rw [same, there] at present'
      cases present'
      rw [isMain] at other'
      cases other'
  · exact moves.marks sound

theorem mains (moves : world.Moves next thread main object executing moved fiber)
    (sound : world.Sound) {one two : Nat} {first second : Thread Event}
    (running : next.threads one = some first) (running' : next.threads two = some second)
    (equal : first.main_fiber = second.main_fiber) : two = one := by
  rcases moves.before running with ⟨_, running, same, _⟩
  rcases moves.before running' with ⟨_, running', same', _⟩
  exact sound.mains running running' (same.trans (equal.trans same'.symm))

theorem single (moves : world.Moves next thread main object executing moved fiber)
    (sound : world.Sound) {one two current : Nat} {first second : Thread Event}
    (running : next.threads one = some first) (running' : next.threads two = some second)
    (stack : first.context.stack = .fiber current)
    (stack' : second.context.stack = .fiber current) : two = one := by
  rcases moves.before running with ⟨_, running, _, here⟩
  rcases moves.before running' with ⟨_, running', _, there⟩
  rcases here current stack with stack | ⟨equal, same⟩
  · rcases there current stack' with stack' | ⟨equal, same⟩
    · exact sound.single running running' stack stack'
    · rw [same] at stack
      exact equal.trans (moves.alone running stack).symm
  · rcases there current stack' with stack' | ⟨equal', _⟩
    · rw [same] at stack'
      exact (moves.alone running' stack').trans equal.symm
    · exact equal'.trans equal.symm

theorem others_stand (moves : world.Moves next thread main object executing moved fiber)
    (sound : world.Sound) {current : Nat} {fiber' : Fiber Event} (notMain : current ≠ main)
    (different : current ≠ object) (present : next.objects current = some fiber') :
    next.Stands current fiber' := by
  rw [moves.objects current notMain different] at present
  rcases moves.ghosts current different with ⟨given, called⟩
  apply (sound.stands present).frame given called
  rintro ⟨another, running, there, stack⟩
  have distinct : another ≠ thread := by
    intro same
    rw [same, moves.found] at there
    cases there
    exact different (moves.left current stack)
  exact ⟨another, running, (moves.theirs distinct).trans there, stack⟩

end Moves

theorem Holds.main_stands {thread main : Nat} {executing : Thread Event} {fiber : Fiber Event}
    (holds : world.Holds thread executing) (known : executing.main_fiber = some main)
    (present : world.objects main = some fiber) : world.Stands main fiber := by
  rcases holds with ⟨own, mine, named, there, isMain, state, _⟩
  cases known.symm.trans named
  cases there.symm.trans present
  constructor
  · intro _
    exact state
  · intro other
    rw [isMain] at other
    cases other
  · intro other
    rw [isMain] at other
    cases other

theorem Sound.move (sound : world.Sound) {thread main object : Nat}
    {executing moved : Thread Event} {fiber : Fiber Event}
    (moves : world.Moves next thread main object executing moved fiber)
    (holds : next.Holds thread moved) (stands : next.Stands object fiber) : next.Sound where
  fresh above := moves.absent sound above
  holds := by
    intro another now running
    by_cases equal : another = thread
    · rw [equal, moves.mine] at running
      cases running
      rw [equal]
      exact holds
    · rw [moves.theirs equal] at running
      exact moves.others_hold sound equal running
  mains running running' equal := moves.mains sound running running' equal
  single running running' stack stack' := moves.single sound running running' stack stack'
  stands := by
    intro current fiber present
    by_cases equal : current = object
    · rw [equal, moves.placed] at present
      cases present
      rw [equal]
      exact stands
    by_cases equal' : current = main
    · rw [equal'] at present
      rw [equal']
      exact holds.main_stands moves.same present
    · exact moves.others_stand sound equal' equal present

/-! ### What the functions do -/

theorem setObject_self {object : Nat} {fiber : Fiber Event} :
    (world.setObject object fiber).objects object = some fiber := Function.update_self _ _ _

theorem setObject_other {object other : Nat} {fiber : Fiber Event} (different : other ≠ object) :
    (world.setObject object fiber).objects other = world.objects other :=
  Function.update_of_ne different _ _

theorem setThread_self {thread : Nat} {executing : Thread Event} :
    (world.setThread thread executing).threads thread = some executing := Function.update_self _ _ _

theorem setState_eq {object : Nat} {fiber : Fiber Event} {state : State}
    (present : world.objects object = some fiber) :
    world.setState object state = some (world.setObject object { fiber with state }) := by
  rw [setState, present, Option.map_some]

theorem goTo_eq {thread : Nat} {executing : Thread Event} {point : Point Event}
    (found : world.threads thread = some executing) (stays : point.exits = false) :
    world.goTo thread point = some (world.setThread thread
      { executing with context := { executing.context with point } }) := by
  simp only [goTo, stays, found, Bool.false_eq_true, if_false, Option.map_some]

theorem getThis_eq {thread object : Nat} {executing : Thread Event}
    (found : world.threads thread = some executing) (this : executing.this_fiber = some object) :
    world.getThis thread = some (object, world) := by
  simp only [getThis, found, Option.map_some, this]

/-- The two contexts change places. -/
theorem jump_eq {thread octx nctx : Nat} {point : Point Event} {executing : Thread Event}
    {old new : Fiber Event} {context : Context Event}
    (found : world.threads thread = some executing) (left : world.objects octx = some old)
    (entered : world.objects nctx = some new) (different : octx ≠ nctx)
    (saved : new.ctx = some context) (stays : context.point.exits = false) :
    world.jump_fcontext thread octx point nctx =
      some (((world.setObject nctx { new with ctx := none }).setObject octx
        { old with ctx := some ⟨executing.context.stack, point⟩ }).setThread thread
          { executing with context }) := by
  have old : (world.setObject nctx { new with ctx := none }).objects octx = some old :=
    (setObject_other different).trans left
  simp only [jump_fcontext, found, entered, saved, old, stays, Option.bind_eq_bind,
    Option.bind_some, Bool.false_eq_true, if_false]

theorem jump_refused {thread octx nctx : Nat} {point : Point Event} {new : Fiber Event}
    (entered : world.objects nctx = some new)
    (lost : ∀ context, new.ctx = some context → context.point.exits = true) :
    world.jump_fcontext thread octx point nctx = none := by
  apply Option.bind_eq_none_iff.mpr
  intro executing _
  simp only [entered, Option.bind_eq_bind, Option.bind_some]
  apply Option.bind_eq_none_iff.mpr
  intro context saved
  apply Option.bind_eq_none_iff.mpr
  intro old _
  rw [lost context saved, if_pos rfl]

/-- A thread on the stack of a fiber. -/
structure Running (world : Fibers Event) (thread : Nat) (executing : Thread Event)
    (main : Nat) (mainFiber : Fiber Event) (object : Nat) (fiber : Fiber Event) : Prop where
  found : world.threads thread = some executing
  known : executing.main_fiber = some main
  own : world.objects main = some mainFiber
  isMain : mainFiber.isMain = true
  state : mainFiber.state = .exec
  runs : world.Runs thread executing mainFiber object
  present : world.objects object = some fiber
  other : fiber.isMain = false
  absent : fiber.ctx = none
  progress : Progress (world.given object) (world.called object) object fiber
    executing.context.point

section Running

variable {thread main object : Nat} {executing : Thread Event} {mainFiber fiber : Fiber Event}

theorem Running.apart
    (running : world.Running thread executing main mainFiber object fiber) : main ≠ object := by
  intro equal
  have same := running.own
  rw [equal, running.present] at same
  cases same
  cases running.other.symm.trans running.isMain

theorem Running.left (running : world.Running thread executing main mainFiber object fiber)
    (other : Nat) (stack : executing.context.stack = .fiber other) : other = object := by
  cases running.runs.stack.symm.trans stack
  rfl

/-- The thread goes on on the stack of its fiber. -/
theorem Sound.advance (sound : world.Sound)
    (running : world.Running thread executing main mainFiber object fiber)
    {point : Point Event} {moved : Fiber Event}
    (threads : next.threads = Function.update world.threads thread
      (some { executing with context := { executing.context with point } }))
    (objects : ∀ other, other ≠ object → next.objects other = world.objects other)
    (given : next.given = world.given)
    (called : ∀ other, other ≠ object → next.called other = world.called other)
    (fresh : next.fresh = world.fresh) (placed : next.objects object = some moved)
    (other : moved.isMain = false) (absent : moved.ctx = none)
    (progress : Progress (world.given object) (next.called object) object moved point)
    (stays : point.exits = false) : next.Sound := by
  have runs := running.runs
  have mine : next.threads thread =
      some { executing with context := { executing.context with point } } := by
    rw [threads, Function.update_self]
  have moves : world.Moves next thread main object executing _ moved := {
    found := running.found
    known := running.known
    present := by rw [running.present, Option.map_some, running.other]
    alone := fun there stack => sound.single running.found there runs.stack stack
    left := running.left
    threads
    objects := fun other _ different => objects other different
    ghosts := fun other different => ⟨by rw [given], called other different⟩
    fresh
    same := running.known
    entered := running.left
    placed
    other }
  apply sound.move moves
  · refine ⟨main, mainFiber, running.known, ?_, running.isMain, running.state, .inr
      ⟨object, runs.stack, runs.this, runs.context, ⟨moved, placed, other, absent, ?_⟩, stays⟩⟩
    · rw [objects main running.apart]
      exact running.own
    · rw [given]
      exact progress
  · constructor
    · intro isMain
      rw [other] at isMain
      cases isMain
    · intro _ _
      exact ⟨thread, _, mine, runs.stack⟩
    · intro _ context saved
      rw [absent] at saved
      cases saved

/-- The thread jumps back to its loop. -/
theorem Sound.leave (sound : world.Sound)
    (running : world.Running thread executing main mainFiber object fiber)
    (behind : Point Event)
    (progress : Progress (world.given object) (world.called object) object fiber behind)
    (last : fiber.state.ended = true → behind.exits = true) :
    ∃ next, world.swapOut thread object behind = some next ∧ next.Sound := by
  have runs := running.runs
  have apart := running.apart
  have moved : (world.setThread thread { executing with this_fiber := some main }).threads thread =
      some { executing with this_fiber := some main } := setThread_self
  have jumped := @jump_eq _ _ thread object main behind _ _ _ _ moved running.present running.own
    apart.symm runs.context rfl
  have swapped : world.swapOut thread object behind =
      (world.setThread thread { executing with this_fiber := some main }).jump_fcontext thread
        object behind main := by
    simp only [swapOut, getThis_eq running.found runs.this, running.found, running.known,
      Option.bind_eq_bind, Option.bind_some, if_neg apart.symm, setThis, Option.map_some]
  refine ⟨_, swapped.trans jumped, ?_⟩
  refine @Sound.move _ world _ sound thread main object executing
    { executing with this_fiber := some main, context := ⟨.thread thread, .back object⟩ }
    { fiber with ctx := some ⟨executing.context.stack, behind⟩ } {
    found := running.found
    known := running.known
    present := by rw [running.present, Option.map_some, running.other]
    alone := fun there stack => sound.single running.found there runs.stack stack
    left := running.left
    threads := Function.update_idem _ _ _
    objects := by
      intro other notMain different
      exact (Function.update_of_ne different _ _).trans (Function.update_of_ne notMain _ _)
    ghosts := fun other _ => ⟨rfl, rfl⟩
    fresh := rfl
    same := running.known
    entered := nofun
    placed := Function.update_self _ _ _
    other := running.other } ?_ ?_
  · refine ⟨main, { mainFiber with ctx := none }, running.known, ?_, running.isMain,
      running.state, .inl ?_⟩
    · exact (Function.update_of_ne apart _ _).trans (Function.update_self _ _ _)
    · refine ⟨rfl, ⟨running.known.symm, ?_⟩, rfl⟩
      have placed := Function.update_self object
        (some { fiber with ctx := some ⟨executing.context.stack, behind⟩ })
        (Function.update world.objects main (some { mainFiber with ctx := none }))
      exact (congrArg (Option.map Fiber.isMain) placed).trans (congrArg some running.other)
  · constructor
    · intro isMain
      cases running.other.symm.trans isMain
    · intro _ absent
      cases absent
    · intro _ context saved
      cases saved
      exact ⟨runs.stack, progress, last⟩

/-- The thread sets its fiber's state or callback and goes on. -/
theorem Sound.change (sound : world.Sound)
    (running : world.Running thread executing main mainFiber object fiber)
    (point : Point Event) (moved : Fiber Event) (other : moved.isMain = false)
    (absent : moved.ctx = none)
    (progress : Progress (world.given object) (world.called object) object moved point)
    (stays : point.exits = false) :
    ∃ next, (world.setObject object moved).goTo thread point = some next ∧ next.Sound := by
  refine ⟨_, goTo_eq running.found stays, ?_⟩
  exact sound.advance running rfl (fun other different => Function.update_of_ne different _ _) rfl
    (fun _ _ => rfl) rfl (Function.update_self _ _ _) other absent progress stays

theorem Sound.goTo (sound : world.Sound)
    (running : world.Running thread executing main mainFiber object fiber) {point : Point Event}
    (progress : Progress (world.given object) (world.called object) object fiber point)
    (stays : point.exits = false) :
    ∃ next, world.goTo thread point = some next ∧ next.Sound := by
  refine ⟨_, goTo_eq running.found stays, ?_⟩
  exact sound.advance running rfl (fun _ _ => rfl) rfl (fun _ _ => rfl) rfl running.present
    running.other running.absent progress stays

/-- `Fiber::run` calls the callback of the object whose stack it is on. -/
theorem Sound.run (sound : world.Sound)
    (running : world.Running thread executing main mainFiber object fiber)
    (point : executing.context.point = .run) :
    ∃ next, world.run thread = some next ∧ next.Sound := by
  have progress := running.progress
  rw [point] at progress
  rcases progress with ⟨nothing, same, going⟩
  have this := getThis_eq running.found running.runs.this
  cases cb : fiber.cb with
  | none =>
      simp only [Fibers.run, this, running.present, cb, setState_eq running.present,
        Option.bind_eq_bind, Option.bind_some]
      apply sound.change running (.ended object) { fiber with cb := none, state := .except }
        running.other running.absent _ rfl
      rw [← same, cb]
      exact ⟨rfl, nothing, fun _ => rfl⟩
  | some callback =>
      simp only [Fibers.run, this, running.present, cb, Option.bind_eq_bind, Option.bind_some]
      apply sound.goTo running _ rfl
      rw [← same, cb, nothing]
      exact ⟨rfl, rfl, rfl, going⟩

theorem Sound.callback (sound : world.Sound)
    (running : world.Running thread executing main mainFiber object fiber) {cur : Nat}
    {rest : Callback Event} (point : executing.context.point = .callback cur rest) :
    ∃ next, world.callback thread cur rest = some next ∧ next.Sound := by
  have progress := running.progress
  rw [point] at progress
  rcases progress with ⟨same, events, ends, going⟩
  rw [same]
  have this := getThis_eq running.found running.runs.this
  cases rest with
  | call event rest =>
      refine ⟨_, goTo_eq running.found rfl, ?_⟩
      apply sound.advance running
      · rfl
      · exact fun _ _ => rfl
      · rfl
      · exact fun other different => Function.update_of_ne different _ _
      · rfl
      · exact running.present
      · exact running.other
      · exact running.absent
      · change Progress _ (Function.update world.called object _ object) _ _ _
        rw [Function.update_self]
        refine ⟨rfl, ?_, ends, going⟩
        rw [events, List.append_assoc]
        rfl
      · rfl
  | getFid rest =>
      have fid : world.getFid thread = some fiber.fid := by
        simp only [Fibers.getFid, running.found, Option.bind_some, running.runs.this,
          running.present, Option.map_some]
      simp only [Fibers.callback, fid, Option.bind_eq_bind, Option.bind_some]
      exact sound.goTo running ⟨rfl, events, ends, going⟩ rfl
  | yieldToReady rest =>
      simp only [Fibers.callback, Fibers.yieldToReady, this, setState_eq running.present,
        Option.bind_eq_bind, Option.bind_some]
      exact sound.change running (.yielding object object rest) { fiber with state := .ready }
        running.other running.absent ⟨rfl, rfl, events, ends, rfl⟩ rfl
  | yieldToHold rest =>
      simp only [Fibers.callback, Fibers.yieldToHold, this, Option.bind_eq_bind, Option.bind_some]
      apply sound.leave running (.callback object rest) ⟨rfl, events, ends, going⟩
      intro ended
      cases going.symm.trans ended
  | returns =>
      simp only [Fibers.callback, running.present, Option.bind_eq_bind, Option.bind_some]
      apply sound.change running (.ended object) { fiber with cb := none, state := .term }
        running.other running.absent _ rfl
      exact ⟨rfl, (events.trans (List.append_nil _)).symm, fun _ => ends.symm⟩
  | throws =>
      simp only [Fibers.callback, setState_eq running.present, Option.bind_eq_bind,
        Option.bind_some]
      apply sound.change running (.ended object) { fiber with state := .except } running.other
        running.absent _ rfl
      exact ⟨rfl, (events.trans (List.append_nil _)).symm, fun _ => ends.symm⟩

end Running

/-! ### The loop -/

/-- A thread in its loop. -/
structure Looping (world : Fibers Event) (thread : Nat) (executing : Thread Event)
    (main : Nat) (mainFiber : Fiber Event) : Prop where
  found : world.threads thread = some executing
  known : executing.main_fiber = some main
  own : world.objects main = some mainFiber
  isMain : mainFiber.isMain = true
  state : mainFiber.state = .exec
  idle : world.Idle thread executing mainFiber

theorem Sound.thread_cases (sound : world.Sound) {thread : Nat} {executing : Thread Event}
    (found : world.threads thread = some executing) :
    (∃ main mainFiber, world.Looping thread executing main mainFiber) ∨
      ∃ main mainFiber object fiber,
        world.Running thread executing main mainFiber object fiber := by
  rcases sound.holds found with ⟨main, mainFiber, known, own, isMain, state, idle | ⟨object, runs⟩⟩
  · exact .inl ⟨main, mainFiber, found, known, own, isMain, state, idle⟩
  · rcases runs.fiber with ⟨fiber, present, other, absent, progress⟩
    exact .inr ⟨main, mainFiber, object, fiber, found, known, own, isMain, state, runs, present,
      other, absent, progress⟩

theorem Progress.setState {given : Option (Callback Event)} {called : List Event} {object : Nat}
    {fiber : Fiber Event} {point : Point Event} (state : State)
    (progress : Progress given called object fiber point) (going : state.ended = false) :
    Progress given called object { fiber with state } point := by
  have never : ∀ {goal : Prop}, state.ended = true → goal := by
    intro goal ended
    cases going.symm.trans ended
  cases point with
  | loop | fetched _ | ready _ | entering _ | back _ | holding _ => exact progress
  | run => exact ⟨progress.1, progress.2.1, going⟩
  | callback cur rest => exact ⟨progress.1, progress.2.1, progress.2.2.1, going⟩
  | yielding self cur rest =>
      exact ⟨progress.1, progress.2.1, progress.2.2.1, progress.2.2.2.1, going⟩
  | ended raw_ptr => exact ⟨progress.1, progress.2.1, never⟩
  | returned => exact ⟨progress.1, never⟩

theorem mark_setState {object : Nat} {fiber : Fiber Event} {state : State}
    (other : fiber.isMain = false) (last : Nat)
    (mark : (world.objects last).map Fiber.isMain = some false) :
    ((world.setObject object { fiber with state }).objects last).map Fiber.isMain =
      some false := by
  by_cases equal : last = object
  · rw [equal, setObject_self, Option.map_some, other]
  · rw [setObject_other equal]
    exact mark

/-- The state of a fiber is set, whoever executes it and even if it has ended. -/
theorem Sound.setState (sound : world.Sound) {object : Nat} {fiber : Fiber Event} {state : State}
    (present : world.objects object = some fiber) (other : fiber.isMain = false)
    (going : state.ended = false) : (world.setObject object { fiber with state }).Sound := by
  have placed : (world.setObject object { fiber with state }).objects object =
      some { fiber with state } := setObject_self
  have elsewhere : ∀ {another}, another ≠ object →
      (world.setObject object { fiber with state }).objects another = world.objects another :=
    setObject_other
  constructor
  · intro unused above
    have absent := sound.fresh above
    rw [elsewhere]
    · exact absent
    · intro equal
      rw [equal, present] at absent
      cases absent
  · intro thread executing found
    rcases sound.holds found with ⟨main, mainFiber, known, own, isMain, exec, standing⟩
    have apart : main ≠ object := by
      intro equal
      rw [equal, present] at own
      cases own
      cases other.symm.trans isMain
    refine ⟨main, mainFiber, known, (elsewhere apart).trans own, isMain, exec, ?_⟩
    rcases standing with idle | ⟨current, runs⟩
    · exact .inl { idle with point := idle.point.frame (mark_setState other) }
    · refine .inr ⟨current, { runs with fiber := ?_ }⟩
      rcases runs.fiber with ⟨fiber', there, nonMain, absent, progress⟩
      by_cases equal : current = object
      · rw [equal] at there progress ⊢
        cases present.symm.trans there
        exact ⟨_, placed, nonMain, absent, progress.setState state going⟩
      · exact ⟨_, (elsewhere equal).trans there, nonMain, absent, progress⟩
  · exact sound.mains
  · exact sound.single
  · intro current now there
    by_cases equal : current = object
    · rw [equal, placed] at there
      cases there
      rw [equal]
      have stands := sound.stands present
      constructor
      · intro isMain
        cases other.symm.trans isMain
      · exact stands.executed
      · intro nonMain context saved
        rcases stands.saved nonMain context saved with ⟨stack, progress, _⟩
        refine ⟨stack, progress.setState state going, ?_⟩
        intro ended
        cases going.symm.trans ended
    · rw [elsewhere equal] at there
      exact (sound.stands there).frame rfl rfl fun executed => executed

/-- A thread in its loop goes on there. -/
theorem Sound.pass (sound : world.Sound) {thread main : Nat} {executing moved : Thread Event}
    {mainFiber : Fiber Event} (looping : world.Looping thread executing main mainFiber)
    (threads : next.threads = Function.update world.threads thread (some moved))
    (objects : next.objects = world.objects) (fresh : next.fresh = world.fresh)
    (given : next.given = world.given) (called : next.called = world.called)
    (same : moved.main_fiber = executing.main_fiber)
    (stack : moved.context.stack = executing.context.stack)
    (point : next.InLoop moved.this_fiber moved.main_fiber moved.context.point) : next.Sound := by
  have mine : next.threads thread = some moved := by rw [threads, Function.update_self]
  have theirs : ∀ {other}, other ≠ thread → next.threads other = world.threads other := by
    intro other different
    rw [threads, Function.update_of_ne different]
  have before : ∀ {other now}, next.threads other = some now →
      ∃ was, world.threads other = some was ∧ was.main_fiber = now.main_fiber ∧
        was.context.stack = now.context.stack := by
    intro other now running
    by_cases equal : other = thread
    · rw [equal, mine] at running
      cases running
      rw [equal]
      exact ⟨executing, looping.found, same.symm, stack.symm⟩
    · exact ⟨now, (theirs equal).symm.trans running, rfl, rfl⟩
  constructor
  · rw [fresh, objects]
    exact sound.fresh
  · intro other now running
    by_cases equal : other = thread
    · rw [equal, mine] at running
      cases running
      rw [equal]
      refine ⟨main, mainFiber, same.trans looping.known, ?_, looping.isMain, looping.state, .inl ?_⟩
      · rw [objects]
        exact looping.own
      · exact ⟨stack.trans looping.idle.stack, point, looping.idle.context⟩
    · have running := (theirs equal).symm.trans running
      apply (sound.holds running).frame
      · intro _ _
        rw [objects]
      · intro _ _
        rw [objects, given, called]
        exact ⟨rfl, rfl, rfl⟩
      · rw [objects]
        exact fun _ mark => mark
  · intro one two first second running running' equal
    rcases before running with ⟨_, running, same, _⟩
    rcases before running' with ⟨_, running', same', _⟩
    exact sound.mains running running' (same.trans (equal.trans same'.symm))
  · intro one two first second current running running' stack stack'
    rcases before running with ⟨_, running, _, same⟩
    rcases before running' with ⟨_, running', _, same'⟩
    exact sound.single running running' (same.trans stack) (same'.trans stack')
  · intro object fiber present
    rw [objects] at present
    refine (sound.stands present).frame (by rw [given]) (by rw [called]) ?_
    rintro ⟨other, was, running, stack⟩
    by_cases equal : other = thread
    · rw [equal, looping.found] at running
      cases running
      rw [looping.idle.stack] at stack
      cases stack
    · exact ⟨other, was, (theirs equal).trans running, stack⟩

theorem Sound.goOn (sound : world.Sound) {thread main : Nat} {executing : Thread Event}
    {mainFiber : Fiber Event} (looping : world.Looping thread executing main mainFiber)
    {point : Point Event} (stays : point.exits = false)
    (inLoop : world.InLoop executing.this_fiber executing.main_fiber point) :
    ∃ next, world.goTo thread point = some next ∧ next.Sound := by
  refine ⟨_, goTo_eq looping.found stays, ?_⟩
  exact sound.pass looping rfl rfl rfl rfl rfl rfl rfl inLoop

/-- The fibers with a context that does not lead out of `Fiber::run`. -/
theorem Sound.resumable_iff (sound : world.Sound) {object : Nat} {fiber : Fiber Event}
    (present : world.objects object = some fiber) (other : fiber.isMain = false) :
    (∃ context, fiber.ctx = some context ∧ context.point.exits = false) ↔
      ¬world.Executed object ∧ ¬world.Finished object := by
  have stands := sound.stands present
  constructor
  · rintro ⟨context, saved, stays⟩
    constructor
    · rintro ⟨thread, executing, found, stack⟩
      rcases sound.holds found with ⟨_, _, _, _, _, _, idle | ⟨current, runs⟩⟩
      · rw [idle.stack] at stack
        cases stack
      · cases runs.stack.symm.trans stack
        rcases runs.fiber with ⟨_, there, _, absent, _⟩
        cases present.symm.trans there
        rw [absent] at saved
        cases saved
    · rintro ⟨_, there, _, saved', exits⟩
      cases present.symm.trans there
      cases saved.symm.trans saved'
      cases stays.symm.trans exits
  · rintro ⟨waiting, going⟩
    cases saved : fiber.ctx with
    | none => exact absurd (stands.executed other saved) waiting
    | some context =>
        refine ⟨context, rfl, Bool.eq_false_iff.mpr fun exits => ?_⟩
        exact going ⟨fiber, present, context, saved, exits⟩

theorem Looping.apart {thread main object : Nat} {executing : Thread Event}
    {mainFiber fiber : Fiber Event} (looping : world.Looping thread executing main mainFiber)
    (present : world.objects object = some fiber) (other : fiber.isMain = false) :
    main ≠ object := by
  intro equal
  have own := looping.own
  rw [equal, present] at own
  cases own
  cases other.symm.trans looping.isMain

theorem Looping.setState {thread main object : Nat} {executing : Thread Event}
    {mainFiber fiber : Fiber Event} (state : State)
    (looping : world.Looping thread executing main mainFiber)
    (present : world.objects object = some fiber) (other : fiber.isMain = false) :
    (world.setObject object { fiber with state }).Looping thread executing main mainFiber :=
  { looping with
    own := (setObject_other (looping.apart present other)).trans looping.own
    idle := { looping.idle with
      point := looping.idle.point.frame (mark_setState other) } }

section Looping

variable {thread main object : Nat} {executing : Thread Event} {mainFiber fiber : Fiber Event}
  (looping : world.Looping thread executing main mainFiber)
  (present : world.objects object = some fiber) (other : fiber.isMain = false)

include looping present other

/-- A thread in its loop sets the state of a fiber. -/
theorem Sound.setAndGo (sound : world.Sound) {state : State} (going : state.ended = false)
    {point : Point Event} (stays : point.exits = false)
    (inLoop : world.InLoop executing.this_fiber executing.main_fiber point) :
    ∃ next, (world.setObject object { fiber with state }).goTo thread point = some next ∧
      next.Sound :=
  (sound.setState present other going).goOn (looping.setState state present other) stays
    (inLoop.frame (mark_setState other))

theorem Sound.swapIn (sound : world.Sound) :
    ∃ next, world.swapIn thread object = some next ∧ next.Sound := by
  have found : ((world.setThread thread { executing with this_fiber := some object }).setObject
      object { fiber with state := .exec }).threads thread =
        some { executing with this_fiber := some object } := setThread_self
  have placed : (world.setThread thread
      { executing with this_fiber := some object }).objects object = some fiber := present
  simp only [Fibers.swapIn, setThis, looping.found, Option.map_some, Option.bind_eq_bind,
    Option.bind_some, setState_eq placed]
  refine ⟨_, goTo_eq found rfl, ?_⟩
  apply (sound.setState present other rfl).pass (looping.setState .exec present other)
  · exact Function.update_idem _ _ _
  · rfl
  · rfl
  · rfl
  · rfl
  · rfl
  · rfl
  · refine ⟨rfl, mark_setState other object ?_⟩
    exact (congrArg (Option.map Fiber.isMain) present).trans (congrArg some other)

/-- The jump. Nothing has kept others from the fiber since its state was tested. -/
theorem Sound.enter (sound : world.Sound) (this : executing.this_fiber = some object) :
    (∀ next, world.enter thread object = some next → next.Sound) ∧
      ((world.enter thread object).isSome ↔
        ¬world.Executed object ∧ ¬world.Finished object) := by
  have apart := looping.apart present other
  have enters : world.enter thread object =
      world.jump_fcontext thread main (.back object) object := by
    simp only [Fibers.enter, looping.found, looping.known, Option.bind_eq_bind, Option.bind_some]
  rw [← sound.resumable_iff present other, enters]
  by_cases resumable : ∃ context, fiber.ctx = some context ∧ context.point.exits = false
  · have waiting := ((sound.resumable_iff present other).mp resumable).1
    rcases resumable with ⟨context, saved, stays⟩
    rcases (sound.stands present).saved other context saved with ⟨stack, progress, _⟩
    have jumped := @jump_eq _ world thread main object (.back object) _ _ _ context looping.found
      looping.own present apart saved stays
    rw [jumped]
    refine ⟨?_, iff_of_true rfl ⟨context, saved, stays⟩⟩
    rintro _ ⟨⟩
    refine @Sound.move _ world _ sound thread main object executing { executing with context }
      { fiber with ctx := none } {
      found := looping.found
      known := looping.known
      present := by rw [present, Option.map_some, other]
      alone := fun there stack => absurd ⟨_, _, there, stack⟩ waiting
      left := by
        intro _ stack
        rw [looping.idle.stack] at stack
        cases stack
      threads := rfl
      objects := by
        intro another notMain different
        exact (setObject_other notMain).trans (setObject_other different)
      ghosts := fun another _ => ⟨rfl, rfl⟩
      fresh := rfl
      same := looping.known
      entered := by
        intro another entered
        cases stack.symm.trans entered
        rfl
      placed := (setObject_other apart.symm).trans setObject_self
      other } ?_ ?_
    · refine ⟨main, _, looping.known, setObject_self, looping.isMain, looping.state,
        .inr ⟨object, stack, this, ?_, ?_, stays⟩⟩
      · rw [looping.idle.stack]
      · exact ⟨{ fiber with ctx := none }, (setObject_other apart.symm).trans setObject_self,
          other, rfl, progress⟩
    · constructor
      · intro isMain
        cases other.symm.trans isMain
      · intro _ _
        exact ⟨thread, _, setThread_self, stack⟩
      · intro _ context saved
        cases saved
  · rw [jump_refused present]
    · constructor
      · intro _ impossible
        cases impossible
      · exact iff_of_false (fun impossible => Bool.noConfusion impossible) resumable
    · intro context saved
      rw [← Bool.not_eq_false]
      intro stays
      exact resumable ⟨context, saved, stays⟩

end Looping

/-! ### The actions -/

/-- The test of the state. Nothing of the fiber is changed yet. -/
theorem Sound.fetch (sound : world.Sound) {thread main object : Nat} {executing : Thread Event}
    {mainFiber fiber : Fiber Event} (looping : world.Looping thread executing main mainFiber)
    (loop : executing.context.point = .loop) (present : world.objects object = some fiber) :
    ∃ next, world.fetch thread object = some next ∧ next.Sound := by
  have this := looping.idle.point
  rw [loop] at this
  simp only [Fibers.fetch, present, Option.bind_eq_bind, Option.bind_some]
  split
  · exact ⟨world, rfl, sound⟩
  · rename_i notExec
    have other : fiber.isMain = false := by
      rw [Bool.eq_false_iff]
      intro isMain
      exact notExec ((sound.stands present).main isMain)
    exact sound.goOn looping rfl ⟨this, by rw [present, Option.map_some, other]⟩

theorem Sound.swappedOut (sound : world.Sound) {thread main object : Nat}
    {executing : Thread Event} {mainFiber fiber : Fiber Event}
    (looping : world.Looping thread executing main mainFiber)
    (present : world.objects object = some fiber)
    (inLoop : world.InLoop executing.this_fiber executing.main_fiber (.back object)) :
    ∃ next, world.swappedOut thread object = some next ∧ next.Sound := by
  simp only [Fibers.swappedOut, present, Option.bind_eq_bind, Option.bind_some]
  split
  · exact sound.goOn looping rfl inLoop
  · exact sound.goOn looping rfl inLoop.1

/-- What a thread in its loop executes up to the jump. -/
theorem Sound.loop (sound : world.Sound) {thread main : Nat} {executing : Thread Event}
    {mainFiber : Fiber Event} (looping : world.Looping thread executing main mainFiber)
    (stays : ∀ object, executing.context.point ≠ .entering object) :
    ∃ next, world.execute thread executing.context.point = some next ∧ next.Sound := by
  have inLoop := looping.idle.point
  have fiber : ∀ {object}, (world.objects object).map Fiber.isMain = some false →
      ∃ fiber, world.objects object = some fiber ∧ fiber.isMain = false :=
    fun mark => Option.map_eq_some_iff.mp mark
  cases point : executing.context.point with
  | loop => exact ⟨world, rfl, sound⟩
  | fetched object =>
      rw [point] at inLoop
      rcases fiber inLoop.2 with ⟨fiber, present, other⟩
      simp only [execute, setState_eq present, Option.bind_eq_bind, Option.bind_some]
      exact sound.setAndGo looping present other rfl rfl inLoop
  | ready object =>
      rw [point] at inLoop
      rcases fiber inLoop.2 with ⟨fiber, present, other⟩
      exact sound.swapIn looping present other
  | entering object => exact absurd point (stays object)
  | back object =>
      rw [point] at inLoop
      rcases fiber inLoop.2 with ⟨fiber, present, _⟩
      exact sound.swappedOut looping present inLoop
  | holding object =>
      rw [point] at inLoop
      rcases fiber inLoop.2 with ⟨fiber, present, other⟩
      simp only [execute, setState_eq present, Option.bind_eq_bind, Option.bind_some]
      exact sound.setAndGo looping present other rfl rfl inLoop.1
  | run | callback _ _ | yielding _ _ _ | ended _ | returned =>
      rw [point] at inLoop
      exact inLoop.elim

/-- What a thread executes is defined, unless it is a jump. -/
theorem Sound.execute (sound : world.Sound) {thread : Nat} {executing : Thread Event}
    (found : world.threads thread = some executing)
    (stands : ∀ object, executing.context.point ≠ .entering object) :
    ∃ next, world.execute thread executing.context.point = some next ∧ next.Sound := by
  rcases sound.thread_cases found with
    ⟨main, mainFiber, looping⟩ | ⟨main, mainFiber, object, fiber, running⟩
  · exact sound.loop looping stands
  · have progress := running.progress
    have stays := running.runs.stays
    cases point : executing.context.point with
    | loop | fetched _ | ready _ | entering _ | back _ | holding _ =>
        rw [point] at progress
        exact progress.elim
    | run => exact sound.run running point
    | callback cur rest => exact sound.callback running point
    | yielding self cur rest =>
        rw [point] at progress
        rcases progress with ⟨same, same', events, ends, going⟩
        rw [same, same']
        apply sound.leave running (.callback object rest) ⟨rfl, events, ends, going⟩
        intro ended
        cases going.symm.trans ended
    | ended raw_ptr =>
        rw [point] at progress
        rcases progress with ⟨same, done⟩
        rw [same]
        exact sound.leave running .returned done fun _ => rfl
    | returned =>
        rw [point] at stays
        cases stays

theorem Sound.jump (sound : world.Sound) {thread object : Nat} {executing : Thread Event}
    (found : world.threads thread = some executing)
    (point : executing.context.point = .entering object) :
    (∀ next, world.enter thread object = some next → next.Sound) ∧
      ((world.enter thread object).isSome ↔ world.Heeds (.execute thread)) := by
  have heeds : world.Heeds (.execute thread) ↔
      ¬world.Executed object ∧ ¬world.Finished object := by
    constructor
    · intro heeds
      exact heeds executing found object point
    · intro heeds another there object' point'
      cases found.symm.trans there
      cases point.symm.trans point'
      exact heeds
  rw [heeds]
  rcases sound.thread_cases found with
    ⟨main, mainFiber, looping⟩ | ⟨main, mainFiber, current, fiber, running⟩
  · have inLoop := looping.idle.point
    rw [point] at inLoop
    rcases Option.map_eq_some_iff.mp inLoop.2 with ⟨fiber, present, other⟩
    exact sound.enter looping present other inLoop.1
  · have progress := running.progress
    rw [point] at progress
    exact progress.elim

/-- An object that no thread is at is constructed or given another context. -/
theorem Sound.place (sound : world.Sound) {object : Nat} {fiber : Fiber Event}
    (objects : next.objects = Function.update world.objects object (some fiber))
    (threads : next.threads = world.threads)
    (fresh : ∀ {other}, next.fresh ≤ other → world.fresh ≤ other ∧ other ≠ object)
    (given : ∀ other, other ≠ object → next.given other = world.given other)
    (called : ∀ other, other ≠ object → next.called other = world.called other)
    (mark : ∀ old, world.objects object = some old → old.isMain = false ∧ fiber.isMain = false)
    (waiting : ¬world.Executed object) (stands : next.Stands object fiber) : next.Sound := by
  have placed : next.objects object = some fiber := by rw [objects, Function.update_self]
  have elsewhere : ∀ {other}, other ≠ object → next.objects other = world.objects other := by
    intro other different
    rw [objects, Function.update_of_ne different]
  constructor
  · intro unused above
    rcases fresh above with ⟨above, different⟩
    rw [elsewhere different]
    exact sound.fresh above
  · intro thread executing found
    rw [threads] at found
    apply (sound.holds found).frame
    · intro main known
      apply elsewhere
      intro equal
      rcases sound.holds found with ⟨_, _, known', own, isMain, _⟩
      cases known.symm.trans known'
      rw [equal] at own
      cases (mark _ own).1.symm.trans isMain
    · intro current stack
      have different : current ≠ object := by
        intro equal
        rw [equal] at stack
        exact waiting ⟨thread, executing, found, stack⟩
      exact ⟨elsewhere different, given current different, called current different⟩
    · intro other nonMain
      by_cases equal : other = object
      · rw [equal] at nonMain ⊢
        rcases Option.map_eq_some_iff.mp nonMain with ⟨old, there, _⟩
        rw [placed, Option.map_some, (mark old there).2]
      · rw [elsewhere equal]
        exact nonMain
  · rw [threads]
    exact sound.mains
  · rw [threads]
    exact sound.single
  · intro other now there
    by_cases equal : other = object
    · rw [equal, placed] at there
      cases there
      rw [equal]
      exact stands
    · rw [elsewhere equal] at there
      apply (sound.stands there).frame (given other equal) (called other equal)
      rintro ⟨thread, executing, found, stack⟩
      exact ⟨thread, executing, by rw [threads]; exact found, stack⟩

theorem Sound.executed_iff (sound : world.Sound) {object : Nat} {fiber : Fiber Event}
    (present : world.objects object = some fiber) (other : fiber.isMain = false) :
    world.Executed object ↔ fiber.ctx = none := by
  constructor
  · rintro ⟨thread, executing, found, stack⟩
    rcases sound.holds found with ⟨_, _, _, _, _, _, idle | ⟨current, runs⟩⟩
    · rw [idle.stack] at stack
      cases stack
    · cases runs.stack.symm.trans stack
      rcases runs.fiber with ⟨_, there, _, absent, _⟩
      cases present.symm.trans there
      exact absent
  · exact (sound.stands present).executed other

theorem Sound.construct (sound : world.Sound) {fiber : Fiber Event}
    (objects : next.objects = Function.update world.objects world.fresh (some fiber))
    (threads : next.threads = world.threads) (fresh : next.fresh = world.fresh + 1)
    (given : ∀ other, other ≠ world.fresh → next.given other = world.given other)
    (called : ∀ other, other ≠ world.fresh → next.called other = world.called other)
    (stands : next.Stands world.fresh fiber) : next.Sound := by
  have nobody := sound.fresh (Nat.le_refl world.fresh)
  apply sound.place objects threads _ given called _ _ stands
  · intro other above
    rw [fresh] at above
    exact ⟨Nat.le_of_lt above, Nat.ne_of_gt above⟩
  · intro old there
    rw [nobody] at there
    cases there
  · rintro ⟨thread, executing, found, stack⟩
    rcases sound.holds found with ⟨_, _, _, _, _, _, idle | ⟨current, runs⟩⟩
    · rw [idle.stack] at stack
      cases stack
    · cases runs.stack.symm.trans stack
      rcases runs.fiber with ⟨_, there, _⟩
      rw [nobody] at there
      cases there

theorem Sound.create (sound : world.Sound) (cb : Option (Callback Event)) :
    (world.create cb).Sound := by
  apply sound.construct
  · rfl
  · rfl
  · rfl
  · exact fun other different => Function.update_of_ne different _ _
  · exact fun other different => Function.update_of_ne different _ _
  · constructor
    · intro isMain
      cases isMain
    · intro _ absent
      cases absent
    · intro _ context saved
      cases saved
      refine ⟨rfl, ⟨Function.update_self _ _ _, ?_, rfl⟩, fun ended => Bool.noConfusion ended⟩
      exact (Function.update_self world.fresh cb world.given).symm

theorem Sound.reset (sound : world.Sound) {object : Nat} {fiber : Fiber Event}
    (present : world.objects object = some fiber) (cb : Option (Callback Event)) :
    (∀ next, world.reset object cb = some next → next.Sound) ∧
      ((world.reset object cb).isSome ↔ world.Heeds (.reset object cb)) := by
  have heeds : world.Heeds (.reset object cb) ↔
      fiber.isMain = false ∧ ¬world.Executed object := by
    constructor
    · intro heeds
      exact heeds fiber present
    · intro heeds another there
      cases present.symm.trans there
      exact heeds
  rw [heeds]
  by_cases fits : fiber.isMain = false ∧ ¬world.Executed object
  · rcases fits with ⟨other, waiting⟩
    have saved : fiber.ctx.isNone = false := by
      rw [Bool.eq_false_iff, ne_eq, Option.isNone_iff_eq_none, ← sound.executed_iff present other]
      exact waiting
    simp only [Fibers.reset, present, Option.bind_eq_bind, Option.bind_some, other, saved,
      Bool.or_self, Bool.false_eq_true, if_false, Option.isSome_some, true_iff]
    refine ⟨?_, trivial, waiting⟩
    intro next same
    cases same
    apply sound.place
    · rfl
    · rfl
    · intro another above
      refine ⟨above, ?_⟩
      intro equal
      have absent := sound.fresh above
      rw [equal, present] at absent
      cases absent
    · exact fun other different => Function.update_of_ne different _ _
    · exact fun other different => Function.update_of_ne different _ _
    · intro old there
      cases present.symm.trans there
      exact ⟨other, rfl⟩
    · exact waiting
    · constructor
      · intro isMain
        cases isMain
      · intro _ absent
        cases absent
      · intro _ context saved
        cases saved
        refine ⟨rfl, ⟨Function.update_self _ _ _, ?_, rfl⟩, fun ended => Bool.noConfusion ended⟩
        exact (Function.update_self object cb world.given).symm
  · have refused : world.reset object cb = none := by
      simp only [Fibers.reset, present, Option.bind_eq_bind, Option.bind_some]
      apply if_pos
      rw [Bool.or_eq_true, Option.isNone_iff_eq_none]
      by_cases isMain : fiber.isMain = true
      · exact .inl isMain
      · have other := Bool.eq_false_iff.mpr isMain
        rw [← sound.executed_iff present other]
        exact .inr (Classical.not_not.mp fun waiting => fits ⟨other, waiting⟩)
    rw [refused]
    constructor
    · intro _ impossible
      cases impossible
    · exact iff_of_false (fun impossible => Bool.noConfusion impossible) fits

/-- A thread is there from its own fiber on. -/
theorem Sound.spawn (sound : world.Sound) {thread main : Nat} {executing : Thread Event}
    {mainFiber : Fiber Event} (absent : world.threads thread = none)
    (threads : next.threads = Function.update world.threads thread (some executing))
    (objects : next.objects = world.objects) (fresh : next.fresh = world.fresh)
    (given : next.given = world.given) (called : next.called = world.called)
    (known : executing.main_fiber = some main) (own : world.objects main = some mainFiber)
    (isMain : mainFiber.isMain = true) (state : mainFiber.state = .exec)
    (idle : next.Idle thread executing mainFiber)
    (unused : ∀ {other another}, world.threads other = some another →
      another.main_fiber ≠ some main) : next.Sound := by
  have before : ∀ {other now}, next.threads other = some now →
      other = thread ∧ now = executing ∨ world.threads other = some now := by
    intro other now found
    rw [threads] at found
    by_cases equal : other = thread
    · rw [equal, Function.update_self] at found
      cases found
      exact .inl ⟨equal, rfl⟩
    · rw [Function.update_of_ne equal] at found
      exact .inr found
  constructor
  · rw [fresh, objects]
    exact sound.fresh
  · intro other now found
    rcases before found with ⟨same, same'⟩ | found
    · rw [same, same']
      refine ⟨main, mainFiber, known, ?_, isMain, state, .inl idle⟩
      rw [objects]
      exact own
    · apply (sound.holds found).frame
      · intro _ _
        rw [objects]
      · intro _ _
        rw [objects, given, called]
        exact ⟨rfl, rfl, rfl⟩
      · rw [objects]
        exact fun _ mark => mark
  · intro one two first second found found' equal
    rcases before found with ⟨same, same'⟩ | found
    · rcases before found' with ⟨other, _⟩ | found'
      · exact other.trans same.symm
      · rw [same', known] at equal
        exact absurd equal.symm (unused found')
    · rcases before found' with ⟨other, other'⟩ | found'
      · rw [other', known] at equal
        exact absurd equal (unused found)
      · exact sound.mains found found' equal
  · intro one two first second object found found' stack stack'
    rcases before found with ⟨_, same⟩ | found
    · rw [same, idle.stack] at stack
      cases stack
    · rcases before found' with ⟨_, same⟩ | found'
      · rw [same, idle.stack] at stack'
        cases stack'
      · exact sound.single found found' stack stack'
  · intro object fiber present
    rw [objects] at present
    apply (sound.stands present).frame (by rw [given]) (by rw [called])
    rintro ⟨other, now, found, stack⟩
    have different : other ≠ thread := by
      intro equal
      rw [equal, absent] at found
      cases found
    refine ⟨other, now, ?_, stack⟩
    rw [threads, Function.update_of_ne different]
    exact found

theorem Sound.start (sound : world.Sound) {thread : Nat}
    (absent : world.threads thread = none) :
    ∃ next, world.start thread = some next ∧ next.Sound := by
  have constructed : ({ world.setObject world.fresh ⟨none, 0, none, .exec, true⟩ with
      fresh := world.fresh + 1 } : Fibers Event).Sound := by
    apply sound.construct
    · rfl
    · rfl
    · rfl
    · exact fun _ _ => rfl
    · exact fun _ _ => rfl
    · constructor
      · intro _
        rfl
      · intro other
        cases other
      · intro other
        cases other
  have done : world.start thread =
      some ((world.setThread thread ⟨none, none, ⟨.thread thread, .loop⟩⟩).newMain thread
        ⟨none, none, ⟨.thread thread, .loop⟩⟩) := by
    simp only [Fibers.start, getThis, setThread_self, Option.map_some]
  refine ⟨_, done, ?_⟩
  apply @Sound.spawn _ _ ((world.setThread thread ⟨none, none, ⟨.thread thread, .loop⟩⟩).newMain
      thread ⟨none, none, ⟨.thread thread, .loop⟩⟩) constructed thread world.fresh
    ⟨some world.fresh, some world.fresh, ⟨.thread thread, .loop⟩⟩ ⟨none, 0, none, .exec, true⟩
    absent (Function.update_idem _ _ _) rfl rfl rfl rfl rfl setObject_self rfl rfl
  · exact ⟨rfl, rfl, rfl⟩
  · intro other another found known
    rcases sound.holds found with ⟨main, _, known', own, _⟩
    cases known.symm.trans known'
    rw [sound.fresh (Nat.le_refl _)] at own
    cases own

theorem Sound.looping (sound : world.Sound) {thread : Nat}
    (loops : world.looping thread = true) :
    ∃ executing main mainFiber, world.Looping thread executing main mainFiber ∧
      executing.context.point = .loop := by
  rw [Fibers.looping] at loops
  split at loops
  · rename_i this main stack found
    rcases sound.thread_cases found with ⟨main, mainFiber, looping⟩ | ⟨_, _, _, _, running⟩
    · exact ⟨_, main, mainFiber, looping, rfl⟩
    · exact running.progress.elim
  · cases loops

theorem Sound.perform (sound : world.Sound) {action : FiberAction Event}
    (enabled : world.enabled action = true) :
    (∀ next, world.perform action = some next → next.Sound) ∧
      ((world.perform action).isSome ↔ world.Heeds action) := by
  have always : ∀ {performed : Option (Fibers Event)},
      (∃ next, performed = some next ∧ next.Sound) →
        (∀ next, performed = some next → next.Sound) ∧ (performed.isSome ↔ True) := by
    rintro performed ⟨next, done, kept⟩
    rw [done]
    constructor
    · intro _ same
      cases same
      exact kept
    · exact iff_of_true rfl trivial
  cases action with
  | start thread => exact always (sound.start (Option.isNone_iff_eq_none.mp enabled))
  | create cb => exact always ⟨_, rfl, sound.create cb⟩
  | reset object cb =>
      rcases Option.isSome_iff_exists.mp enabled with ⟨fiber, present⟩
      exact sound.reset present cb
  | fetch thread object =>
      rcases (Bool.and_eq_true_iff.mp enabled) with ⟨looping, present⟩
      rcases Option.isSome_iff_exists.mp present with ⟨fiber, present⟩
      rcases sound.looping looping with ⟨executing, main, mainFiber, looping, loop⟩
      exact always (sound.fetch looping loop present)
  | execute thread =>
      rcases Option.isSome_iff_exists.mp enabled with ⟨executing, found⟩
      simp only [Fibers.perform, found, Option.bind_some]
      by_cases entering : ∃ object, executing.context.point = .entering object
      · rcases entering with ⟨object, point⟩
        rw [point]
        exact sound.jump found point
      · have elsewhere : world.Heeds (.execute thread) ↔ True := by
          refine iff_of_true ?_ trivial
          intro another there object point
          cases found.symm.trans there
          exact absurd ⟨object, point⟩ entering
        rw [elsewhere]
        exact always (sound.execute found fun object point => entering ⟨object, point⟩)

theorem sound_new : (new : Fibers Event).Sound where
  fresh _ := rfl
  holds found := by cases found
  mains found := by cases found
  single found := by cases found
  stands present := by cases present

theorem Progress.called {given : Option (Callback Event)} {called : List Event} {object : Nat}
    {fiber : Fiber Event} {point : Point Event}
    (progress : Progress given called object fiber point) :
    ∃ left, Callback.eventsOf given fiber.fid = called ++ left ∧
      (fiber.state.ended = true → left = [] ∧ fiber.state = Callback.endOf given fiber.fid) := by
  have halfway : ∀ {rest}, Progress.Halfway given called fiber rest →
      ∃ left, Callback.eventsOf given fiber.fid = called ++ left ∧
        (fiber.state.ended = true → left = [] ∧ fiber.state = Callback.endOf given fiber.fid) := by
    rintro rest ⟨events, _, going⟩
    refine ⟨_, events, ?_⟩
    intro ended
    cases going.symm.trans ended
  have done : Progress.Done given called fiber →
      ∃ left, Callback.eventsOf given fiber.fid = called ++ left ∧
        (fiber.state.ended = true → left = [] ∧ fiber.state = Callback.endOf given fiber.fid) := by
    rintro ⟨events, state⟩
    exact ⟨[], by rw [events, List.append_nil], fun ended => ⟨rfl, state ended⟩⟩
  cases point with
  | loop | fetched _ | ready _ | entering _ | back _ | holding _ => exact progress.elim
  | run =>
      rcases progress with ⟨nothing, _, going⟩
      refine ⟨_, by rw [nothing, List.nil_append], ?_⟩
      intro ended
      cases going.symm.trans ended
  | callback cur rest => exact halfway progress.2
  | yielding self cur rest => exact halfway progress.2.2
  | ended raw_ptr => exact done progress.2
  | returned => exact done progress

theorem Sound.kept (sound : world.Sound) : world.Kept where
  called := by
    intro object fiber present other
    cases saved : fiber.ctx with
    | none =>
        rcases (sound.stands present).executed other saved with ⟨thread, executing, found, stack⟩
        rcases sound.thread_cases found with ⟨_, _, looping⟩ | ⟨_, _, current, _, running⟩
        · rw [looping.idle.stack] at stack
          cases stack
        · cases running.runs.stack.symm.trans stack
          cases present.symm.trans running.present
          exact running.progress.called
    | some context => exact ((sound.stands present).saved other context saved).2.1.called
  current := by
    intro thread executing object found stack
    refine ⟨?_, fun found' stack' => sound.single found found' stack stack'⟩
    rcases sound.thread_cases found with ⟨_, _, looping⟩ | ⟨_, _, current, _, running⟩
    · rw [looping.idle.stack] at stack
      cases stack
    · cases running.runs.stack.symm.trans stack
      exact running.runs.this
  loops := by
    intro thread executing other found stack
    rcases sound.thread_cases found with ⟨_, _, looping⟩ | ⟨_, _, current, _, running⟩
    · cases looping.idle.stack.symm.trans stack
      exact ⟨rfl, looping.idle.point.this⟩
    · rw [running.runs.stack] at stack
      cases stack
  waits := by
    intro object fiber present other waiting
    cases saved : fiber.ctx with
    | none => exact absurd ((sound.executed_iff present other).mpr saved) waiting
    | some context =>
        exact ⟨context, rfl, ((sound.stands present).saved other context saved).1⟩

/-- In every run on any number of threads, whoever fetches a fiber, each fiber calls what its
callback calls, in its order and once, and ends as the callback does; its code finds the fiber
as the current one. Everything that happens is defined in exactly the runs that heed the
condition at every step. -/
theorem fibers_kept {actions : List (FiberAction Event)} {final : Option (Fibers Event)}
    (executed : machine.run (some new) actions = some final) :
    (∀ world ∈ final, world.Kept) ∧ (final.isSome ↔
      machine.Meets (fun state action => ∀ world ∈ state, world.Heeds action) (some new)
        actions) := by
  have whole := @Machine.meets_iff _ _ machine
    (fun state (action : FiberAction Event) => ∀ world ∈ state, world.Heeds action)
    (fun state => ∀ world ∈ state, world.Sound) (fun state => state.isSome = true) ?_ _ _ actions
    (by rintro world ⟨⟩; exact sound_new) executed
  · exact ⟨fun world reached => (whole.1 world reached).kept, whole.2.trans (and_iff_right rfl)⟩
  · intro state action next sound taken
    rcases Option.bind_eq_some_iff.mp taken with ⟨world, same, taken⟩
    rcases Option.ite_none_right_eq_some.mp taken with ⟨enabled, performed⟩
    cases same
    cases performed
    rcases (sound world rfl).perform enabled with ⟨kept, defined⟩
    refine ⟨kept, defined.trans ?_⟩
    constructor
    · intro heeds
      refine ⟨rfl, ?_⟩
      intro _ same
      cases same
      exact heeds
    · intro heeds
      exact heeds.2 world rfl

/-- Two fibers on two threads. The first holds, is woken and goes on on the other thread. -/
def sampleRun : List (FiberAction Nat) :=
  [.start 0, .start 1, .create (some (.call 1 (.yieldToHold (.getFid fun fid =>
    .call fid .returns)))), .create (some (.yieldToReady .throws)),
    .fetch 0 2, .execute 0, .execute 0, .execute 0, .execute 0, .execute 0, .execute 0,
    .execute 0, .execute 0, .fetch 1 2, .execute 1, .fetch 0 3, .execute 1, .execute 1,
    .execute 0, .execute 1, .execute 1, .execute 1]

theorem fibers_kept_sample : ∃ final, machine.run (some new) sampleRun = some final ∧
    (∀ world ∈ final, world.Kept) ∧ (final.isSome ↔ machine.Meets
      (fun state action => ∀ world ∈ state, world.Heeds action) (some new) sampleRun) :=
  ⟨_, rfl, fibers_kept rfl⟩

end Fibers

end Concurrent

end FiberNet
