import FiberNet.Netio.Hook
import FiberNet.Scheduler.Registration

/-! # A waiting fiber is in its slot or in the run queue

From `addEvent` to its resumption a fiber is held by exactly one of the two, whatever the
Reactor, other fibers and the callbacks of timeouts do.
-/

namespace FiberNet

theorem FdEvent.task_put {Fiber : Type} (fdEvent : FdEvent Fiber) (task : Option Fiber)
    (type other : EventType) :
    (fdEvent.put task type).task other = if other = type then task else fdEvent.task other := by
  cases type <;> cases other <;> rfl

namespace Reactor

variable {Fiber : Type}

theorem eventMap_release (reactor : Reactor Fiber) (fd : Nat) (type : EventType) :
    (reactor.release fd type).eventMap =
      Function.update reactor.eventMap fd ((reactor.eventMap fd).put none type) := by
  simp only [Reactor.release, triggerEvent, assert, setFdEvent]
  repeat' split
  all_goals rfl

theorem handed_release (reactor : Reactor Fiber) (fd : Nat) (type : EventType) :
    (reactor.release fd type).handed =
      reactor.handed ++ ((reactor.eventMap fd).task type).toList := by
  simp only [Reactor.release, triggerEvent, assert, setFdEvent]
  repeat' split
  all_goals rfl

theorem size_release (reactor : Reactor Fiber) (fd : Nat) (type : EventType) :
    (reactor.release fd type).size = reactor.size := by
  simp only [Reactor.release, triggerEvent, assert, setFdEvent]
  repeat' split
  all_goals rfl

/-- A registration that fails changes nothing but the size of the table. -/
theorem addEvent_cases {reactor next : Reactor Fiber} {fd : Nat} {fiber : Fiber}
    {type : EventType} {setNonb epollCtl : Bool} {result : Int}
    (answered : reactor.addEvent fd fiber type setNonb epollCtl = some (next, result)) :
    next.handed = reactor.handed ∧ reactor.size ≤ next.size ∧
    (result ≠ 0 ∧ next.eventMap = reactor.eventMap ∨
      result = 0 ∧ fd < next.size ∧ (reactor.eventMap fd).event.has type = false ∧
        next.eventMap = Function.update reactor.eventMap fd
          ((reactor.eventMap fd).put (some fiber) type)) := by
  unfold addEvent at answered
  have grown : reactor.size ≤ (if fd < reactor.size then reactor
      else reactor.resizeMap (reactor.size * 2)).size := by
    split
    · exact Nat.le_refl _
    · simp only [resizeMap]
      omega
  have table : (if fd < reactor.size then reactor
      else reactor.resizeMap (reactor.size * 2)).eventMap = reactor.eventMap := by
    split <;> rfl
  have handed : (if fd < reactor.size then reactor
      else reactor.resizeMap (reactor.size * 2)).handed = reactor.handed := by
    split <;> rfl
  generalize (if fd < reactor.size then reactor
    else reactor.resizeMap (reactor.size * 2)) = grownReactor at *
  simp only at answered
  repeat' split at answered
  all_goals cases answered
  · exact ⟨handed, grown, .inl ⟨by decide, table⟩⟩
  · exact ⟨handed, grown, .inl ⟨by decide, table⟩⟩
  · exact ⟨handed, grown, .inl ⟨by decide, table⟩⟩
  · rename_i inside _ free _
    rw [table] at free
    have eventMap := congrArg (fun map => Function.update map fd
      ((map fd).put (some fiber) type)) table
    refine ⟨?_, ?_, .inr ⟨rfl, ?_, by simpa using free, Eq.trans ?_ eventMap⟩⟩ <;>
      simp only [assert, setInterest, setFdEvent] <;> split <;>
        first
        | exact handed
        | exact grown
        | exact inside
        | rfl

end Reactor

namespace IoPosition

/-- Between a successful `addEvent` and the resumption. -/
def waiting : IoPosition → Option Turn
  | .yield turn | .parked turn => some turn
  | _ => none

end IoPosition

variable {Fiber : Type} [DecidableEq Fiber]

structure Parking (position : Fiber → IoPosition) (reactor : Reactor (Task Fiber)) : Prop where
  agrees : ∀ fd, (reactor.eventMap fd).Matches
  outside : ∀ fd, reactor.size ≤ fd → (reactor.eventMap fd).event = .none
  slots : ∀ fd type task, (reactor.eventMap fd).task type = some task →
    ∃ fiber turn, task = .fiber fiber ∧ (position fiber).waiting = some turn ∧
      turn.call.fd = fd ∧ turn.call.event = type ∧ task ∉ reactor.handed
  queued : ∀ fiber, .fiber fiber ∈ reactor.handed → (position fiber).waiting.isSome = true
  once : ∀ fiber, reactor.handed.count (.fiber fiber) ≤ 1
  waits : ∀ fiber turn, (position fiber).waiting = some turn →
    (reactor.eventMap turn.call.fd).task turn.call.event = some (.fiber fiber) ∨
      .fiber fiber ∈ reactor.handed

namespace Parking

variable {position : Fiber → IoPosition} {reactor next : Reactor (Task Fiber)} {fd : Nat}

theorem start : Parking (Hook.start Fiber).position (Hook.start Fiber).reactor where
  agrees := by
    intro fd type
    cases type <;> rfl
  outside := by
    intro fd _
    rfl
  slots := by
    intro fd type task taken
    cases type <;> cases taken
  queued := by simp [Hook.start, Reactor.new]
  once := by simp [Hook.start, Reactor.new]
  waits := by simp [Hook.start, IoPosition.waiting]

/-- The steps of a fiber before it waits and after. -/
theorem move (parking : Parking position reactor) {position' : Fiber → IoPosition}
    (same : ∀ fiber, (position' fiber).waiting = (position fiber).waiting) :
    Parking position' reactor where
  agrees := parking.agrees
  outside := parking.outside
  slots := by
    simp only [same]
    exact parking.slots
  queued := by
    simp only [same]
    exact parking.queued
  once := parking.once
  waits := by
    simp only [same]
    exact parking.waits

/-- The callbacks in the run queue come and go. -/
theorem same (parking : Parking position reactor) (size : next.size = reactor.size)
    (eventMap : next.eventMap = reactor.eventMap)
    (handed : ∀ fiber, next.handed.count (.fiber fiber) =
      reactor.handed.count (.fiber fiber)) : Parking position next where
  agrees := by
    rw [eventMap]
    exact parking.agrees
  outside := by
    rw [eventMap, size]
    exact parking.outside
  slots := by
    intro fd type task taken
    rw [eventMap] at taken
    rcases parking.slots fd type task taken with ⟨fiber, turn, rfl, waiting, here, fits, free⟩
    refine ⟨fiber, turn, rfl, waiting, here, fits, ?_⟩
    rw [← List.count_eq_zero, handed, List.count_eq_zero]
    exact free
  queued := by
    intro fiber queued
    rw [← List.count_pos_iff, handed, List.count_pos_iff] at queued
    exact parking.queued fiber queued
  once := by
    intro fiber
    rw [handed]
    exact parking.once fiber
  waits := by
    intro fiber turn waiting
    rw [← List.count_pos_iff, handed, List.count_pos_iff, eventMap]
    exact parking.waits fiber turn waiting

omit [DecidableEq Fiber] in
theorem task_release (reactor : Reactor (Task Fiber)) (fd other : Nat)
    (type type' : EventType) :
    ((reactor.release fd type).eventMap other).task type' =
      if other = fd ∧ type' = type then none else (reactor.eventMap other).task type' := by
  rw [Reactor.eventMap_release, Function.update_apply]
  split
  · subst other
    rw [FdEvent.task_put]
    simp
  · simp [*]

/-- The fiber of a slot waits for just this event, and is not in the run queue. -/
theorem slot_of_fiber (parking : Parking position reactor) {type : EventType} {fiber : Fiber}
    (taken : (reactor.eventMap fd).task type = some (.fiber fiber)) :
    ∃ turn, (position fiber).waiting = some turn ∧ turn.call.fd = fd ∧
      turn.call.event = type ∧ .fiber fiber ∉ reactor.handed := by
  rcases parking.slots fd type _ taken with ⟨other, turn, equal, rest⟩
  cases equal
  exact ⟨turn, rest⟩

/-- A slot is emptied into the run queue. -/
theorem release (parking : Parking position reactor) (fd : Nat) (type : EventType) :
    Parking position (reactor.release fd type) where
  agrees := by
    intro other
    rw [Reactor.eventMap_release, Function.update_apply]
    split
    · exact FdEvent.matches_put (parking.agrees fd) none type
    · exact parking.agrees other
  outside := by
    intro other beyond
    rw [Reactor.size_release] at beyond
    have outside := parking.outside
    rw [Reactor.Registered.event_release]
    split
    · subst other
      rw [outside fd beyond]
      cases type <;> rfl
    · exact outside other beyond
  slots := by
    intro other type' task taken
    rw [task_release] at taken
    split at taken
    · cases taken
    · rename_i elsewhere
      rcases parking.slots other type' task taken with
        ⟨fiber, turn, rfl, waiting, here, fits, free⟩
      refine ⟨fiber, turn, rfl, waiting, here, fits, ?_⟩
      rw [Reactor.handed_release, List.mem_append, Option.mem_toList]
      rintro (member | released)
      · exact free member
      · rcases parking.slot_of_fiber released with ⟨turn', waiting', here', fits', _⟩
        rw [waiting] at waiting'
        cases waiting'
        exact elsewhere ⟨here ▸ here'.symm ▸ rfl, fits ▸ fits'.symm ▸ rfl⟩
  queued := by
    intro fiber queued
    rw [Reactor.handed_release, List.mem_append, Option.mem_toList] at queued
    rcases queued with before | released
    · exact parking.queued fiber before
    · rcases parking.slot_of_fiber released with ⟨turn, waiting, _⟩
      rw [waiting]
      rfl
  once := by
    intro fiber
    have once := parking.once fiber
    rw [Reactor.handed_release, List.count_append]
    cases slot : (reactor.eventMap fd).task type with
    | none => simpa using once
    | some task =>
        by_cases equal : task = .fiber fiber
        · subst equal
          rcases parking.slot_of_fiber slot with ⟨_, _, _, _, free⟩
          rw [List.count_eq_zero.mpr free]
          simp
        · simp [equal, once]
  waits := by
    intro fiber turn waiting
    rw [task_release, Reactor.handed_release, List.mem_append, Option.mem_toList]
    rcases parking.waits fiber turn waiting with slot | queued
    · split
      · rename_i here
        rw [here.1, here.2] at slot
        exact .inr (.inr slot)
      · exact .inl slot
    · exact .inr (.inl queued)

theorem releaseIf (parking : Parking position reactor) (fd : Nat) (type : EventType)
    (taken : Bool) : Parking position (reactor.releaseIf fd type taken) := by
  unfold Reactor.releaseIf
  split
  · exact parking.release fd type
  · exact parking

theorem setInterest (parking : Parking position reactor) (fd : Nat) (events : Events) :
    Parking position (reactor.setInterest fd events) :=
  parking.same rfl rfl fun _ => rfl

theorem cancelEvent (parking : Parking position reactor) (fd : Nat) (type : EventType)
    (epollCtl : Bool) : Parking position (reactor.cancelEvent fd type epollCtl).1 := by
  unfold Reactor.cancelEvent
  simp only
  repeat' split
  · exact parking
  · exact parking
  · exact parking
  · exact (parking.setInterest fd _).release fd type

theorem cancelAll (parking : Parking position reactor) (fd : Nat) (epollCtl : Bool) :
    Parking position (reactor.cancelAll fd epollCtl).1 := by
  unfold Reactor.cancelAll
  simp only
  repeat' split
  · exact parking
  · exact parking
  · exact parking
  · exact ((parking.setInterest fd _).releaseIf fd .read _).releaseIf fd .write _

theorem handle (parking : Parking position reactor) (fd : Nat) (ready : Ready)
    (epollCtl : Bool) : Parking position (reactor.handle fd ready epollCtl) := by
  unfold Reactor.handle
  simp only
  repeat' split
  · exact parking
  · exact parking
  · exact ((parking.setInterest fd _).releaseIf fd .read _).releaseIf fd .write _

/-- Only fibers join the run queue. -/
structure Woken (reactor next : Reactor (Task Fiber)) : Prop where
  callbacks : ∀ tinfo, .timeout tinfo ∈ next.handed ↔ .timeout tinfo ∈ reactor.handed
  queued : ∀ fiber, .fiber fiber ∈ reactor.handed → .fiber fiber ∈ next.handed

omit [DecidableEq Fiber] in
theorem Woken.of_same (handed : next.handed = reactor.handed) : Woken reactor next where
  callbacks := by simp [handed]
  queued := by simp [handed]

omit [DecidableEq Fiber] in
theorem Woken.trans {final : Reactor (Task Fiber)} (first : Woken reactor next)
    (second : Woken next final) : Woken reactor final where
  callbacks := fun tinfo => (second.callbacks tinfo).trans (first.callbacks tinfo)
  queued := fun fiber member => second.queued fiber (first.queued fiber member)

theorem woken_releaseIf (parking : Parking position reactor) (fd : Nat) (type : EventType)
    (taken : Bool) : Woken reactor (reactor.releaseIf fd type taken) := by
  unfold Reactor.releaseIf
  split
  · constructor
    · intro tinfo
      rw [Reactor.handed_release, List.mem_append, Option.mem_toList]
      constructor
      · rintro (before | released)
        · exact before
        · rcases parking.slots fd type _ released with ⟨fiber, _, equal, _⟩
          cases equal
      · exact .inl
    · intro fiber member
      rw [Reactor.handed_release]
      exact List.mem_append_left _ member
  · exact .of_same rfl

theorem woken_cancelEvent (parking : Parking position reactor) (fd : Nat) (type : EventType)
    (epollCtl : Bool) : Woken reactor (reactor.cancelEvent fd type epollCtl).1 := by
  unfold Reactor.cancelEvent
  simp only
  repeat' split
  · exact .of_same rfl
  · exact .of_same rfl
  · exact .of_same rfl
  · have told := parking.setInterest fd ((reactor.eventMap fd).event.remove type)
    have same : Woken reactor
        (reactor.setInterest fd ((reactor.eventMap fd).event.remove type)) := .of_same rfl
    exact same.trans (told.woken_releaseIf fd type true)

/-- `cancelAll` and the loop release both slots of a descriptor. -/
theorem woken_releases (parking : Parking position reactor) (fd : Nat) (events : Events)
    (read write : Bool) : Woken reactor
      (((reactor.setInterest fd events).releaseIf fd .read read).releaseIf fd .write write) := by
  have told := parking.setInterest fd events
  have first := told.woken_releaseIf fd .read read
  have second := (told.releaseIf fd .read read).woken_releaseIf fd .write write
  have same : Woken reactor (reactor.setInterest fd events) := .of_same rfl
  exact (same.trans first).trans second

theorem woken_cancelAll (parking : Parking position reactor) (fd : Nat) (epollCtl : Bool) :
    Woken reactor (reactor.cancelAll fd epollCtl).1 := by
  unfold Reactor.cancelAll
  simp only
  repeat' split
  · exact .of_same rfl
  · exact .of_same rfl
  · exact .of_same rfl
  · exact parking.woken_releases fd _ _ _

theorem woken_handle (parking : Parking position reactor) (fd : Nat) (ready : Ready)
    (epollCtl : Bool) : Woken reactor (reactor.handle fd ready epollCtl) := by
  unfold Reactor.handle
  simp only
  repeat' split
  · exact .of_same rfl
  · exact .of_same rfl
  · exact parking.woken_releases fd _ _ _

/-- A cancel that gets through leaves nobody waiting in the slot. -/
theorem queued_of_cancelEvent (parking : Parking position reactor) {fiber : Fiber}
    {turn : Turn} (waiting : (position fiber).waiting = some turn) :
    .fiber fiber ∈ (reactor.cancelEvent turn.call.fd turn.call.event true).1.handed := by
  have after := (parking.cancelEvent turn.call.fd turn.call.event true).waits fiber turn waiting
  rcases after with slot | queued
  · have agrees := parking.agrees turn.call.fd turn.call.event
    unfold Reactor.cancelEvent at slot ⊢
    simp only at slot ⊢
    split at slot
    · rename_i beyond
      have none : (reactor.eventMap turn.call.fd).event.has turn.call.event = false := by
        rw [parking.outside _ beyond]
        cases turn.call.event <;> rfl
      rw [none, slot] at agrees
      cases agrees
    · split at slot
      · rename_i none
        rw [none, slot] at agrees
        cases agrees
      · rw [if_neg (by decide), task_release] at slot
        simp at slot
  · exact queued

/-- The calling fiber gets the slot, or nothing changes. -/
theorem addEvent (parking : Parking position reactor) {fiber : Fiber} {type : EventType}
    {setNonb epollCtl : Bool} {result : Int}
    (running : (position fiber).waiting = none)
    (answered : reactor.addEvent fd (.fiber fiber) type setNonb epollCtl =
      some (next, result)) {position' : Fiber → IoPosition}
    (others : ∀ other, other ≠ fiber → (position' other).waiting = (position other).waiting)
    (registered : result = 0 → ∃ turn, (position' fiber).waiting = some turn ∧
      turn.call.fd = fd ∧ turn.call.event = type)
    (failed : result ≠ 0 → (position' fiber).waiting = none) : Parking position' next := by
  rcases Reactor.addEvent_cases answered with
    ⟨handed, grown, ⟨refused, eventMap⟩ | ⟨accepted, inside, free, eventMap⟩⟩
  · have unmoved : ∀ other, (position' other).waiting = (position other).waiting := by
      intro other
      rcases eq_or_ne other fiber with equal | different
      · rw [equal, running, failed refused]
      · exact others other different
    have moved := parking.move unmoved
    refine ⟨?_, ?_, ?_, ?_, ?_, ?_⟩
    · rw [eventMap]
      exact moved.agrees
    · rw [eventMap]
      exact fun other beyond => moved.outside other (Nat.le_trans grown beyond)
    · rw [eventMap, handed]
      exact moved.slots
    · rw [handed]
      exact moved.queued
    · rw [handed]
      exact moved.once
    · rw [eventMap, handed]
      exact moved.waits
  · rcases registered accepted with ⟨turn, waiting, here, fits⟩
    have unqueued : .fiber fiber ∉ reactor.handed := by
      intro queued
      have waits := parking.queued fiber queued
      rw [running] at waits
      cases waits
    have elsewhere : ∀ other turn', other ≠ fiber → (position other).waiting = some turn' →
        (reactor.eventMap turn'.call.fd).task turn'.call.event = some (.fiber other) →
        ¬(turn'.call.fd = fd ∧ turn'.call.event = type) := by
      rintro other turn' _ _ slot ⟨equal, sameType⟩
      rw [equal, sameType] at slot
      have agrees := parking.agrees fd type
      rw [free, slot] at agrees
      cases agrees
    have slotAt : ∀ other type', (next.eventMap other).task type' =
        if other = fd ∧ type' = type then some (.fiber fiber)
        else (reactor.eventMap other).task type' := by
      intro other type'
      rw [eventMap, Function.update_apply]
      split
      · subst other
        rw [FdEvent.task_put]
        simp
      · simp [*]
    refine ⟨?_, ?_, ?_, ?_, ?_, ?_⟩
    · intro other
      rw [eventMap, Function.update_apply]
      split
      · exact FdEvent.matches_put (parking.agrees fd) _ type
      · exact parking.agrees other
    · intro other beyond
      rw [eventMap, Function.update_of_ne (by omega)]
      exact parking.outside other (Nat.le_trans grown beyond)
    · intro other type' task taken
      rw [slotAt] at taken
      rw [handed]
      split at taken
      · cases taken
        rename_i place
        exact ⟨fiber, turn, rfl, waiting, here.trans place.1.symm, fits.trans place.2.symm,
          unqueued⟩
      · rcases parking.slots other type' task taken with
          ⟨waiter, turn', rfl, waiting', here', fits', unqueued'⟩
        refine ⟨waiter, turn', rfl, ?_, here', fits', unqueued'⟩
        rw [others waiter _]
        · exact waiting'
        · rintro rfl
          rw [running] at waiting'
          cases waiting'
    · intro other queued
      rw [handed] at queued
      rw [others other _]
      · exact parking.queued other queued
      · rintro rfl
        exact unqueued queued
    · rw [handed]
      exact parking.once
    · intro other turn' waiting'
      rw [slotAt, handed]
      rcases eq_or_ne other fiber with equal | different
      · subst other
        rw [waiting] at waiting'
        cases waiting'
        rw [if_pos ⟨here, fits⟩]
        exact .inl rfl
      · rw [others other different] at waiting'
        rcases parking.waits other turn' waiting' with slot | queued
        · rw [if_neg (elsewhere other turn' different waiting' slot)]
          exact .inl slot
        · exact .inr queued

/-- A Processer takes a waiting fiber out of the run queue. -/
theorem resume (parking : Parking position reactor) {fiber : Fiber}
    (queued : .fiber fiber ∈ reactor.handed) {position' : Fiber → IoPosition}
    (others : ∀ other, other ≠ fiber → (position' other).waiting = (position other).waiting)
    (running : (position' fiber).waiting = none) :
    Parking position' { reactor with handed := reactor.handed.erase (.fiber fiber) } where
  agrees := parking.agrees
  outside := parking.outside
  slots := by
    intro fd type task taken
    rcases parking.slots fd type task taken with ⟨waiter, turn, rfl, waiting, here, fits, free⟩
    refine ⟨waiter, turn, rfl, ?_, here, fits, fun member => free (List.mem_of_mem_erase member)⟩
    rw [others waiter _]
    · exact waiting
    · rintro rfl
      exact free queued
  queued := by
    intro other member
    rw [others other _]
    · exact parking.queued other (List.mem_of_mem_erase member)
    · rintro rfl
      have once := parking.once other
      have positive : 0 < (reactor.handed.erase (.fiber other)).count (.fiber other) :=
        List.count_pos_iff.mpr member
      rw [List.count_erase_self] at positive
      omega
  once := by
    intro other
    exact Nat.le_trans (List.erase_sublist.count_le _) (parking.once other)
  waits := by
    intro other turn waiting
    rcases eq_or_ne other fiber with equal | different
    · rw [equal, running] at waiting
      cases waiting
    · rw [others other different] at waiting
      rw [List.mem_erase_of_ne (by simpa using different)]
      exact parking.waits other turn waiting

end Parking

end FiberNet
