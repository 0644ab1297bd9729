import Mathlib.Data.List.Count
import FiberNet.Foundation.Totals
import FiberNet.Scheduler.Reactor

/-! # Registered events, task slots and the hold count agree

The invariant is kept by every operation. The loop keeps it when the mask it handles has
not been torn: since `epoll_wait`, its events were all left registered or all cancelled.
-/

namespace FiberNet

namespace FdEvent

variable {Fiber : Type}

/-- A task slot is taken exactly when the bit is set. -/
def Matches (fdEvent : FdEvent Fiber) : Prop :=
  ∀ type, (fdEvent.task type).isSome = fdEvent.event.has type

/-- How often a fiber is in the slots. -/
def slots [DecidableEq Fiber] (fdEvent : FdEvent Fiber) (fiber : Fiber) : Nat :=
  (if fdEvent.rdtask = some fiber then 1 else 0) +
    if fdEvent.wrtask = some fiber then 1 else 0

/-- The slot and the bit of one type replaced together. -/
def put (fdEvent : FdEvent Fiber) (task : Option Fiber) (type : EventType) : FdEvent Fiber :=
  { fdEvent with
    event := if task.isSome then fdEvent.event.add type else fdEvent.event.remove type }.setTask
      task type

theorem matches_put {fdEvent : FdEvent Fiber} (agrees : fdEvent.Matches)
    (task : Option Fiber) (type : EventType) : (fdEvent.put task type).Matches := by
  intro other
  have kept := agrees other
  cases type <;> cases other <;> cases task <;>
    simp_all [put, setTask, FdEvent.task, Events.has, Events.add, Events.remove]

theorem count_put (fdEvent : FdEvent Fiber) (task : Option Fiber) (type : EventType) :
    (fdEvent.put task type).event.count + (fdEvent.event.has type).toNat =
      fdEvent.event.count + task.isSome.toNat := by
  rcases fdEvent with ⟨⟨read, write⟩, rdtask, wrtask⟩
  cases type <;> cases task <;>
    simp [put, setTask, Events.has, Events.add, Events.remove, Events.count] <;> omega

theorem slots_put [DecidableEq Fiber] (fdEvent : FdEvent Fiber) (task : Option Fiber)
    (type : EventType) (fiber : Fiber) :
    (fdEvent.put task type).slots fiber + (if fdEvent.task type = some fiber then 1 else 0) =
      fdEvent.slots fiber + if task = some fiber then 1 else 0 := by
  cases type <;> simp only [put, setTask, slots, FdEvent.task] <;> grind

end FdEvent

namespace Reactor

variable {Fiber : Type}

/-- A weight summed over the table. -/
def total (reactor : Reactor Fiber) (weight : FdEvent Fiber → Nat) : Nat :=
  ∑ fd ∈ Finset.range reactor.size, weight (reactor.eventMap fd)

/-- The number of set bits. -/
def bits (reactor : Reactor Fiber) : Nat :=
  reactor.total fun fdEvent => fdEvent.event.count

theorem total_setFdEvent (reactor : Reactor Fiber) (weight : FdEvent Fiber → Nat) {fd : Nat}
    (inside : fd < reactor.size) (fdEvent : FdEvent Fiber) :
    (reactor.setFdEvent fd fdEvent).total weight + weight (reactor.eventMap fd) =
      reactor.total weight + weight fdEvent :=
  sum_update _ _ weight (Finset.mem_range.mpr inside) fdEvent

section

variable {reactor next : Reactor Fiber}

/-- Neither slots and bits nor the kernel's interest, the hold count or what was handed to
the scheduler differ. -/
def SameRegistration (reactor next : Reactor Fiber) : Prop :=
  next.eventMap = reactor.eventMap ∧ next.interest = reactor.interest ∧
    next.holdCount = reactor.holdCount ∧ next.handed = reactor.handed

theorem addEvent_failed {fd : Nat} {fiber : Fiber} {type : EventType}
    {setNonb epollCtl : Bool} {result : Int}
    (answered : reactor.addEvent fd fiber type setNonb epollCtl = some (next, result))
    (failed : result ≠ 0) : reactor.SameRegistration next := by
  unfold addEvent at answered
  simp only at answered
  repeat' split at answered
  all_goals
    cases answered <;> first
      | exact ⟨rfl, rfl, rfl, rfl⟩
      | exact absurd rfl failed

theorem delEvent_failed {fd : Nat} {type : EventType} {epollCtl : Bool} {result : Int}
    (answered : reactor.delEvent fd type epollCtl = (next, result)) (failed : result ≠ 0) :
    reactor.SameRegistration next := by
  unfold delEvent at answered
  simp only at answered
  repeat' split at answered
  all_goals
    cases answered
    first
      | exact ⟨rfl, rfl, rfl, rfl⟩
      | exact absurd rfl failed

theorem cancelEvent_failed {fd : Nat} {type : EventType} {epollCtl : Bool} {result : Int}
    (answered : reactor.cancelEvent fd type epollCtl = (next, result))
    (failed : result ≠ 0) : reactor.SameRegistration next := by
  unfold cancelEvent at answered
  simp only at answered
  repeat' split at answered
  all_goals
    cases answered
    first
      | exact ⟨rfl, rfl, rfl, rfl⟩
      | exact absurd rfl failed

theorem cancelAll_failed {fd : Nat} {epollCtl : Bool} {result : Int}
    (answered : reactor.cancelAll fd epollCtl = (next, result)) (failed : result ≠ 0) :
    reactor.SameRegistration next := by
  unfold cancelAll at answered
  simp only at answered
  repeat' split at answered
  all_goals
    cases answered
    first
      | exact ⟨rfl, rfl, rfl, rfl⟩
      | exact absurd rfl failed

/-- The loop's own `epoll_ctl`. -/
theorem handle_failed (fd : Nat) (ready : Ready) :
    reactor.SameRegistration (reactor.handle fd ready false) := by
  unfold handle
  simp only [ite_true, ite_self]
  exact ⟨rfl, rfl, rfl, rfl⟩

end

variable [DecidableEq Fiber]

/-- What the kernel watches is not part of it: an operation asks the kernel first. -/
structure Registered (reactor : Reactor Fiber) : Prop where
  agrees : ∀ fd, (reactor.eventMap fd).Matches
  outside : ∀ fd, reactor.size ≤ fd → (reactor.eventMap fd).event = .none
  holds : reactor.holdCount = reactor.bits + reactor.addedHolds
  conserved : ∀ fiber, reactor.registered.count fiber =
    reactor.total (fun fdEvent => fdEvent.slots fiber) + reactor.deleted.count fiber +
      reactor.handed.count fiber
  asserted : reactor.failures = 0

theorem registered_new : (new Fiber).Registered where
  agrees := by
    intro fd type
    cases type <;> rfl
  outside := by
    intro fd _
    rfl
  holds := by simp [new, bits, total, Events.count, Events.none]
  conserved := by simp [new, total, FdEvent.slots]
  asserted := rfl

/-- The mask that the loop handles: all its events are still registered, or none is. -/
def untorn (ready : Ready) (event : Events) : Bool :=
  (realEvent ready event).inter event == .none || (realEvent ready event).subset event

namespace Registered

variable {reactor : Reactor Fiber} {fd : Nat}

theorem inside_of_has (registered : reactor.Registered) {type : EventType}
    (has : (reactor.eventMap fd).event.has type = true) : fd < reactor.size := by
  apply Classical.byContradiction
  intro outside
  rw [registered.outside fd (by omega)] at has
  cases type <;> cases has

/-- The kernel's interest and the pending entries play no part. -/
theorem same (registered : reactor.Registered) {next : Reactor Fiber}
    (size : next.size = reactor.size) (eventMap : next.eventMap = reactor.eventMap)
    (holdCount : next.holdCount - next.addedHolds = reactor.holdCount - reactor.addedHolds)
    (failures : next.failures = reactor.failures)
    (recorded : next.registered = reactor.registered ∧ next.deleted = reactor.deleted ∧
      next.handed = reactor.handed) : next.Registered where
  agrees := by
    rw [eventMap]
    exact registered.agrees
  outside := by
    rw [eventMap, size]
    exact registered.outside
  holds := by
    have holds := registered.holds
    simp only [bits, total, size, eventMap] at *
    omega
  conserved := by
    intro fiber
    have conserved := registered.conserved fiber
    simp only [total, size, eventMap, recorded.1, recorded.2.1, recorded.2.2] at *
    exact conserved
  asserted := by
    rw [failures]
    exact registered.asserted

/-- One slot is filled or emptied with its bit, and the counter and the records follow. -/
theorem put (registered : reactor.Registered) (inside : fd < reactor.size)
    (task : Option Fiber) (type : EventType) {next : Reactor Fiber}
    (size : next.size = reactor.size)
    (eventMap : next.eventMap = Function.update reactor.eventMap fd
      ((reactor.eventMap fd).put task type))
    (holdCount : next.holdCount + ((reactor.eventMap fd).event.has type).toNat =
      reactor.holdCount + task.isSome.toNat)
    (addedHolds : next.addedHolds = reactor.addedHolds)
    (failures : next.failures = reactor.failures)
    (recorded : ∀ fiber, next.registered.count fiber +
        (reactor.deleted.count fiber + reactor.handed.count fiber) +
        (if (reactor.eventMap fd).task type = some fiber then 1 else 0) =
      reactor.registered.count fiber +
        (next.deleted.count fiber + next.handed.count fiber) +
        if task = some fiber then 1 else 0) : next.Registered where
  agrees := by
    intro other
    rw [eventMap, Function.update_apply]
    split
    · exact FdEvent.matches_put (registered.agrees fd) task type
    · exact registered.agrees other
  outside := by
    intro other beyond
    rw [size] at beyond
    rw [eventMap, Function.update_of_ne (by omega)]
    exact registered.outside other beyond
  holds := by
    have holds := registered.holds
    have counted := reactor.total_setFdEvent (fun fdEvent => fdEvent.event.count) inside
      ((reactor.eventMap fd).put task type)
    have changed := FdEvent.count_put (reactor.eventMap fd) task type
    simp only [bits, total, setFdEvent, size, eventMap] at *
    omega
  conserved := by
    intro fiber
    have conserved := registered.conserved fiber
    have counted := reactor.total_setFdEvent (fun fdEvent => fdEvent.slots fiber) inside
      ((reactor.eventMap fd).put task type)
    have changed := FdEvent.slots_put (reactor.eventMap fd) task type fiber
    have recorded := recorded fiber
    simp only [total, setFdEvent, size, eventMap] at *
    omega
  asserted := by
    rw [failures]
    exact registered.asserted

theorem release (registered : reactor.Registered) {type : EventType}
    (has : (reactor.eventMap fd).event.has type = true) :
    (reactor.release fd type).Registered := by
  have inside := registered.inside_of_has has
  have taken := registered.agrees fd type
  rw [has] at taken
  have asserts : (type != .read || (reactor.eventMap fd).rdtask.isSome) = true := by
    cases type with
    | read => exact taken
    | write => rfl
  refine registered.put inside none type ?_ ?_ ?_ ?_ ?_ ?_ <;>
    simp only [Reactor.release, triggerEvent, assert, has, asserts, ite_true, setFdEvent]
  · rfl
  · simp
  · intro fiber
    cases slot : (reactor.eventMap fd).task type with
    | none => simp [slot] at taken
    | some task =>
        simp only [List.count_append, Option.toList_some, List.count_singleton',
          Option.some.injEq, eq_comm (a := task), reduceCtorEq, ite_false]
        omega

theorem has_remove_other {events : Events} {type other : EventType} (different : other ≠ type) :
    (events.remove type).has other = events.has other := by
  cases type <;> cases other <;> first | rfl | exact absurd rfl different

omit [DecidableEq Fiber] in
theorem event_release (reactor : Reactor Fiber) (fd other : Nat) (type : EventType) :
    ((reactor.release fd type).eventMap other).event =
      if other = fd then (reactor.eventMap fd).event.remove type
      else (reactor.eventMap other).event := by
  simp only [Reactor.release, triggerEvent, assert, setFdEvent]
  repeat' split
  all_goals cases type <;> simp_all [FdEvent.setTask]

theorem releaseIf (registered : reactor.Registered) {type : EventType} {taken : Bool}
    (has : taken = true → (reactor.eventMap fd).event.has type = true) :
    (reactor.releaseIf fd type taken).Registered := by
  unfold Reactor.releaseIf
  split
  · exact registered.release (has ‹_›)
  · exact registered

theorem slots_outside (registered : reactor.Registered) (outside : reactor.size ≤ fd)
    (fiber : Fiber) : (reactor.eventMap fd).slots fiber = 0 := by
  have agrees := registered.agrees fd
  have empty := registered.outside fd outside
  have read := agrees .read
  have write := agrees .write
  simp_all [FdEvent.slots, FdEvent.task, Events.has, Events.none]

/-- The new entries are empty. -/
theorem resizeMap (registered : reactor.Registered) {size : Nat} (grows : reactor.size ≤ size) :
    (reactor.resizeMap size).Registered := by
  have same : ∀ weight : FdEvent Fiber → Nat,
      (∀ fd, reactor.size ≤ fd → weight (reactor.eventMap fd) = 0) →
      (reactor.resizeMap size).total weight = reactor.total weight := by
    intro weight empty
    apply (Finset.sum_subset (Finset.range_mono grows) _).symm
    intro fd _ outside
    apply empty
    simpa using outside
  constructor
  · exact registered.agrees
  · intro fd outside
    exact registered.outside fd (Nat.le_trans grows outside)
  · have holds := registered.holds
    have bits := same (fun fdEvent => fdEvent.event.count) fun fd outside => by
      simp [registered.outside fd outside, Events.count, Events.none]
    simp only [Reactor.bits] at *
    rw [bits]
    exact holds
  · intro fiber
    rw [same _ fun fd outside => registered.slots_outside outside fiber]
    exact registered.conserved fiber
  · exact registered.asserted

theorem addEvent (registered : reactor.Registered) {fiber : Fiber} {type : EventType}
    {setNonb epollCtl : Bool} {next : Reactor Fiber} {result : Int}
    (answered : reactor.addEvent fd fiber type setNonb epollCtl = some (next, result)) :
    next.Registered := by
  unfold Reactor.addEvent at answered
  have grown : (if fd < reactor.size then reactor
      else reactor.resizeMap (reactor.size * 2)).Registered := by
    split
    · exact registered
    · exact registered.resizeMap (by omega)
  generalize (if fd < reactor.size then reactor
    else reactor.resizeMap (reactor.size * 2)) = table at *
  simp only at answered
  split at answered
  · rename_i inside
    split at answered
    · cases answered
      exact grown
    · split at answered
      · cases answered
        exact grown
      · rename_i free
        split at answered
        · cases answered
          exact grown
        · cases answered
          have empty := grown.agrees fd type
          have absent : (table.eventMap fd).event.has type = false := by simpa using free
          rw [absent] at empty
          have asserts : ((table.eventMap fd).task type).isNone = true := by
            cases slot : (table.eventMap fd).task type <;> simp_all
          refine grown.put inside (some fiber) type ?_ ?_ ?_ ?_ ?_ ?_ <;>
            simp only [assert, asserts, ite_true, setFdEvent, setInterest]
          · rfl
          · simp [absent]
          · intro other
            have noTask : (table.eventMap fd).task type = none := by
              cases slot : (table.eventMap fd).task type <;> simp_all
            simp only [noTask, List.count_append, List.count_singleton', Option.some.injEq,
              eq_comm (a := fiber), reduceCtorEq, ite_false]
            omega
  · cases answered

theorem setInterest (registered : reactor.Registered) (events : Events) :
    (reactor.setInterest fd events).Registered :=
  registered.same rfl rfl rfl rfl ⟨rfl, rfl, rfl⟩

theorem delEvent (registered : reactor.Registered) (type : EventType) (epollCtl : Bool) :
    (reactor.delEvent fd type epollCtl).1.Registered := by
  unfold Reactor.delEvent
  simp only
  split
  · exact registered
  · rename_i inside
    split
    · exact registered
    · rename_i present
      split
      · exact registered
      · have has : (reactor.eventMap fd).event.has type = true := by simpa using present
        have taken := registered.agrees fd type
        rw [has] at taken
        refine registered.put (Nat.lt_of_not_le inside) none type ?_ ?_ ?_ ?_ ?_ ?_ <;>
          simp only [setFdEvent, Reactor.setInterest]
        · rfl
        · simp [has]
        · intro fiber
          cases slot : (reactor.eventMap fd).task type with
          | none => simp [slot] at taken
          | some task =>
              simp only [List.count_append, Option.toList_some, List.count_singleton',
                Option.some.injEq, eq_comm (a := task), reduceCtorEq, ite_false]
              omega

theorem cancelEvent (registered : reactor.Registered) (type : EventType) (epollCtl : Bool) :
    (reactor.cancelEvent fd type epollCtl).1.Registered := by
  unfold Reactor.cancelEvent
  simp only
  split
  · exact registered
  · split
    · exact registered
    · rename_i present
      split
      · exact registered
      · have has : (reactor.eventMap fd).event.has type = true := by simpa using present
        exact (registered.setInterest _).release has

theorem cancelAll (registered : reactor.Registered) (epollCtl : Bool) :
    (reactor.cancelAll fd epollCtl).1.Registered := by
  unfold Reactor.cancelAll
  split
  · exact registered
  · split
    · exact registered
    · split
      · exact registered
      · exact ((registered.setInterest .none).releaseIf fun has => has).releaseIf
          fun has => has

theorem has_of_subset {left right : Events} (subset : left.subset right = true) :
    (left.read = true → right.read = true) ∧ (left.write = true → right.write = true) := by
  rcases left with ⟨_ | _, _ | _⟩ <;> rcases right with ⟨_ | _, _ | _⟩ <;>
    simp_all [Events.subset, Events.diff, Events.none]

omit [DecidableEq Fiber] in
theorem has_releaseIf (reactor : Reactor Fiber) (fd : Nat) {type other : EventType}
    (different : other ≠ type) (taken : Bool) :
    ((reactor.releaseIf fd type taken).eventMap fd).event.has other =
      (reactor.eventMap fd).event.has other := by
  unfold Reactor.releaseIf
  split
  · rw [event_release, if_pos rfl, has_remove_other different]
  · rfl

theorem handle (registered : reactor.Registered) {ready : Ready}
    {epollCtl : Bool} (untorn : epollCtl = true →
      untorn ready (reactor.eventMap fd).event = true) :
    (reactor.handle fd ready epollCtl).Registered := by
  unfold Reactor.handle
  simp only
  split
  · exact registered
  · rename_i meets
    split
    · exact registered
    · rename_i due
      rcases Bool.or_eq_true_iff.mp (untorn (by simpa using due)) with disjoint | subset
      · exact absurd (eq_of_beq disjoint) meets
      · have has := has_of_subset subset
        apply ((registered.setInterest _).releaseIf has.1).releaseIf
        intro write
        rw [has_releaseIf _ _ (by decide)]
        exact has.2 write

end Registered

/-! ## The kernel watches what is registered -/

/-- The interest of the kernel is the set of bits. -/
def Watched (reactor : Reactor Fiber) : Prop :=
  ∀ fd, reactor.interest fd = (reactor.eventMap fd).event

omit [DecidableEq Fiber]

theorem interest_releaseIf (reactor : Reactor Fiber) (fd : Nat) (type : EventType)
    (taken : Bool) : (reactor.releaseIf fd type taken).interest = reactor.interest := by
  unfold releaseIf release triggerEvent assert setFdEvent
  simp only
  repeat' split
  all_goals rfl

theorem event_releaseIf (reactor : Reactor Fiber) (fd other : Nat) (type : EventType)
    (taken : Bool) : ((reactor.releaseIf fd type taken).eventMap other).event =
      if other = fd ∧ taken = true then (reactor.eventMap other).event.remove type
      else (reactor.eventMap other).event := by
  unfold releaseIf
  split
  · rw [Registered.event_release]
    split <;> simp_all
  · simp_all

namespace Watched

variable {reactor next : Reactor Fiber} {fd : Nat}

theorem update (watched : reactor.Watched) (fd : Nat) (events : Events)
    (interest : next.interest = Function.update reactor.interest fd events)
    (event : ∀ other, (next.eventMap other).event =
      if other = fd then events else (reactor.eventMap other).event) : next.Watched := by
  intro other
  rw [interest, event, Function.update_apply, watched other]

theorem addEvent (watched : reactor.Watched) {fiber : Fiber} {type : EventType}
    {setNonb epollCtl : Bool} {result : Int}
    (answered : reactor.addEvent fd fiber type setNonb epollCtl = some (next, result)) :
    next.Watched := by
  unfold Reactor.addEvent at answered
  have grown : (if fd < reactor.size then reactor
      else reactor.resizeMap (reactor.size * 2)).Watched := by
    split <;> exact watched
  generalize (if fd < reactor.size then reactor
    else reactor.resizeMap (reactor.size * 2)) = table at *
  simp only at answered
  repeat' split at answered
  all_goals cases answered
  · exact grown
  · exact grown
  · exact grown
  · apply grown.update fd ((table.eventMap fd).event.add type)
    · simp only [assert, setInterest, setFdEvent]
      split <;> rfl
    · intro other
      simp only [assert, setInterest, setFdEvent]
      split <;> simp only [Function.update_apply] <;> split <;> cases type <;>
        simp_all [FdEvent.setTask]

theorem delEvent (watched : reactor.Watched) (type : EventType) (epollCtl : Bool) :
    (reactor.delEvent fd type epollCtl).1.Watched := by
  unfold Reactor.delEvent
  simp only
  repeat' split
  · exact watched
  · exact watched
  · exact watched
  · apply watched.update fd ((reactor.eventMap fd).event.remove type) rfl
    intro other
    simp only [setInterest, setFdEvent, Function.update_apply]
    split <;> cases type <;> simp_all [FdEvent.setTask]

theorem cancelEvent (watched : reactor.Watched) (type : EventType) (epollCtl : Bool) :
    (reactor.cancelEvent fd type epollCtl).1.Watched := by
  unfold Reactor.cancelEvent
  simp only
  repeat' split
  · exact watched
  · exact watched
  · exact watched
  · apply watched.update fd ((reactor.eventMap fd).event.remove type)
    · exact interest_releaseIf _ fd type true
    · intro other
      exact Registered.event_release _ fd other type

/-- Both releases of one descriptor, after the kernel was told. -/
theorem releases (watched : reactor.Watched) (fd : Nat) (events taken : Events)
    (left : ((reactor.eventMap fd).event.diff taken) = events) :
    (((reactor.setInterest fd events).releaseIf fd .read taken.read).releaseIf fd .write
      taken.write).Watched := by
  apply watched.update fd events
  · rw [interest_releaseIf, interest_releaseIf]
    rfl
  · intro other
    rw [event_releaseIf, event_releaseIf]
    simp only [setInterest]
    rcases taken with ⟨read, write⟩
    rcases eq_or_ne other fd with equal | different
    · subst other
      rw [← left]
      cases read <;> cases write <;> simp [Events.diff, Events.remove]
    · simp [different]

theorem cancelAll (watched : reactor.Watched) (epollCtl : Bool) :
    (reactor.cancelAll fd epollCtl).1.Watched := by
  unfold Reactor.cancelAll
  repeat' split
  · exact watched
  · exact watched
  · exact watched
  · have released := watched.releases fd .none (reactor.eventMap fd).event
      (by simp [Events.diff, Events.none])
    simp only
    rw [Registered.has_releaseIf _ _ (by decide)]
    exact released

theorem handle (watched : reactor.Watched) (ready : Ready) (epollCtl : Bool) :
    (reactor.handle fd ready epollCtl).Watched := by
  unfold Reactor.handle
  simp only
  repeat' split
  · exact watched
  · exact watched
  · exact watched.releases _ _ _ rfl

end Watched

/-! ## A torn mask -/

theorem failures_assert (reactor : Reactor Fiber) (holds : Bool) :
    (reactor.assert holds).failures = reactor.failures + if holds then 0 else 1 := by
  unfold assert
  split <;> simp [*]

theorem failures_release (reactor : Reactor Fiber) (fd : Nat) (type : EventType) :
    (reactor.release fd type).failures = reactor.failures +
      (if (reactor.eventMap fd).event.has type then 0 else 1) +
      if type != .read || (reactor.eventMap fd).rdtask.isSome then 0 else 1 := by
  simp only [release, triggerEvent, setFdEvent, failures_assert]

theorem failures_release_lt {reactor : Reactor Fiber} {fd : Nat} {type : EventType}
    (absent : (reactor.eventMap fd).event.has type = false) :
    reactor.failures < (reactor.release fd type).failures := by
  rw [failures_release, absent]
  simp only [Bool.false_eq_true, ite_false]
  omega

theorem failures_releaseIf_le (reactor : Reactor Fiber) (fd : Nat) (type : EventType)
    (taken : Bool) : reactor.failures ≤ (reactor.releaseIf fd type taken).failures := by
  unfold releaseIf
  split
  · rw [failures_release]
    omega
  · exact Nat.le_refl _

theorem failures_releaseIf_lt {reactor : Reactor Fiber} {fd : Nat} {type : EventType}
    (absent : (reactor.eventMap fd).event.has type = false) :
    reactor.failures < (reactor.releaseIf fd type true).failures :=
  failures_release_lt absent

/-- The condition is exact: a torn mask triggers an event that is not registered. -/
theorem failures_torn {reactor : Reactor Fiber} {fd : Nat} {ready : Ready}
    (torn : untorn ready (reactor.eventMap fd).event = false) :
    reactor.failures < (reactor.handle fd ready true).failures := by
  rcases Bool.or_eq_false_iff.mp torn with ⟨meets, exceeds⟩
  have meets : (realEvent ready (reactor.eventMap fd).event).inter
      (reactor.eventMap fd).event ≠ .none := by simpa using meets
  have stray : (realEvent ready (reactor.eventMap fd).event).read = true ∧
        (reactor.eventMap fd).event.has .read = false ∨
      (realEvent ready (reactor.eventMap fd).event).write = true ∧
        (reactor.eventMap fd).event.has .write = false := by
    generalize realEvent ready (reactor.eventMap fd).event = real at exceeds
    generalize (reactor.eventMap fd).event = event at exceeds
    rcases real with ⟨_ | _, _ | _⟩ <;> rcases event with ⟨_ | _, _ | _⟩ <;>
      simp_all [Events.subset, Events.diff, Events.none, Events.has]
  unfold handle
  simp only [meets, ite_false, reduceCtorEq]
  generalize told : reactor.setInterest fd ((reactor.eventMap fd).event.diff
    (realEvent ready (reactor.eventMap fd).event)) = table
  have failures : table.failures = reactor.failures := by rw [← told]; rfl
  have eventMap : table.eventMap = reactor.eventMap := by rw [← told]; rfl
  rw [← failures]
  rw [← eventMap] at stray ⊢
  rcases stray with ⟨read, absent⟩ | ⟨write, absent⟩
  · rw [read]
    exact Nat.lt_of_lt_of_le (failures_releaseIf_lt absent) (failures_releaseIf_le _ fd .write _)
  · rw [write]
    refine Nat.lt_of_le_of_lt (failures_releaseIf_le table fd .read _)
      (failures_releaseIf_lt ?_)
    rw [Registered.has_releaseIf _ _ (by decide)]
    exact absent

/-! ## Runs -/

/-- The entry the loop handles next is not torn. Where the `epoll_ctl` fails, nothing is
triggered. -/
def DispatchesUntorn (reactor : Reactor Fiber) : ReactorAction Fiber → Prop
  | .dispatch true => reactor.ready.head?.all (fun (fd, ready) =>
      untorn ready (reactor.eventMap fd).event) = true
  | _ => True

instance (reactor : Reactor Fiber) : ∀ action, Decidable (reactor.DispatchesUntorn action)
  | .dispatch true => inferInstanceAs (Decidable (_ = true))
  | .dispatch false | .addEvent .. | .delEvent .. | .cancelEvent .. | .cancelAll .. | .addHold
  | .delHold | .epollWait _ => inferInstanceAs (Decidable True)

variable {reactor next : Reactor Fiber}

theorem Watched.step (watched : reactor.Watched) {action : ReactorAction Fiber}
    (taken : reactor.step action = some next) : next.Watched := by
  cases action with
  | addEvent fd fiber type setNonb epollCtl =>
      simp only [Reactor.step, Option.map_eq_some_iff] at taken
      rcases taken with ⟨⟨_, result⟩, answered, rfl⟩
      exact watched.addEvent answered
  | delEvent fd type epollCtl =>
      cases taken
      exact watched.delEvent type epollCtl
  | cancelEvent fd type epollCtl =>
      cases taken
      exact watched.cancelEvent type epollCtl
  | cancelAll fd epollCtl =>
      cases taken
      exact watched.cancelAll epollCtl
  | addHold | delHold =>
      cases taken
      exact watched
  | epollWait ready =>
      simp only [Reactor.step, Option.ite_none_right_eq_some, Option.some.injEq] at taken
      rcases taken with ⟨_, rfl⟩
      exact watched
  | dispatch epollCtl =>
      simp only [Reactor.step] at taken
      split at taken <;> cases taken
      rename_i rest _
      have kept : Watched { reactor with ready := rest } := watched
      exact kept.handle _ epollCtl

variable [DecidableEq Fiber]

theorem Registered.step (registered : reactor.Registered) {action : ReactorAction Fiber}
    (allowed : reactor.DispatchesUntorn action) (taken : reactor.step action = some next) :
    next.Registered := by
  cases action with
  | addEvent fd fiber type setNonb epollCtl =>
      simp only [Reactor.step, Option.map_eq_some_iff] at taken
      rcases taken with ⟨⟨_, result⟩, answered, rfl⟩
      exact registered.addEvent answered
  | delEvent fd type epollCtl =>
      cases taken
      exact registered.delEvent type epollCtl
  | cancelEvent fd type epollCtl =>
      cases taken
      exact registered.cancelEvent type epollCtl
  | cancelAll fd epollCtl =>
      cases taken
      exact registered.cancelAll epollCtl
  | addHold | delHold =>
      cases taken
      refine registered.same rfl rfl ?_ rfl ⟨rfl, rfl, rfl⟩
      simp only
      omega
  | epollWait ready =>
      simp only [Reactor.step, Option.ite_none_right_eq_some, Option.some.injEq] at taken
      rcases taken with ⟨_, rfl⟩
      exact registered.same rfl rfl rfl rfl ⟨rfl, rfl, rfl⟩
  | dispatch epollCtl =>
      simp only [Reactor.step] at taken
      split at taken
      · cases taken
      · rename_i fd ready rest pending
        cases taken
        have untorn : epollCtl = true → untorn ready (reactor.eventMap fd).event = true := by
          rintro rfl
          simpa [DispatchesUntorn, pending] using allowed
        have kept : Registered { reactor with ready := rest } :=
          registered.same rfl rfl rfl rfl ⟨rfl, rfl, rfl⟩
        exact kept.handle untorn

theorem registered_of_reachable
    (reachable : (machine Fiber).ReachableWhere DispatchesUntorn reactor) :
    reactor.Registered ∧ reactor.Watched := by
  constructor
  · apply reachable.invariant
    · intro reactor starts
      rw [starts]
      exact registered_new
    · intro reactor action next _ registered allowed taken
      exact registered.step allowed taken
  · apply reachable.invariant
    · intro reactor starts fd
      rw [starts]
      rfl
    · intro reactor action next _ watched _ taken
      exact watched.step taken

/-- In every run in which the loop handles no torn mask, the bits, the slots and the hold
count agree, each fiber is where it was put or was handed over once, and every assertion
holds. Operations that fail change nothing. -/
theorem registration_invariant
    (reachable : (machine Fiber).ReachableWhere DispatchesUntorn reactor) :
    (∀ fd, ((reactor.eventMap fd).rdtask.isSome = (reactor.eventMap fd).event.read) ∧
      (reactor.eventMap fd).wrtask.isSome = (reactor.eventMap fd).event.write ∧
      reactor.interest fd = (reactor.eventMap fd).event) ∧
    reactor.holdCount = reactor.bits + reactor.addedHolds ∧
    (∀ fiber, reactor.registered.count fiber =
      reactor.total (fun fdEvent => fdEvent.slots fiber) + reactor.deleted.count fiber +
        reactor.handed.count fiber) ∧
    reactor.failures = 0 ∧
    (∀ fd fiber type setNonb epollCtl next result,
      reactor.addEvent fd fiber type setNonb epollCtl = some (next, result) → result ≠ 0 →
      reactor.SameRegistration next) ∧
    (∀ fd type epollCtl next result, reactor.delEvent fd type epollCtl = (next, result) →
      result ≠ 0 → reactor.SameRegistration next) ∧
    (∀ fd type epollCtl next result, reactor.cancelEvent fd type epollCtl = (next, result) →
      result ≠ 0 → reactor.SameRegistration next) ∧
    (∀ fd epollCtl next result, reactor.cancelAll fd epollCtl = (next, result) →
      result ≠ 0 → reactor.SameRegistration next) ∧
    ∀ fd ready, reactor.SameRegistration (reactor.handle fd ready false) := by
  rcases registered_of_reachable reachable with ⟨registered, watched⟩
  refine ⟨?_, registered.holds, registered.conserved, registered.asserted, ?_, ?_, ?_, ?_, ?_⟩
  · intro fd
    exact ⟨registered.agrees fd .read, registered.agrees fd .write, watched fd⟩
  · intro fd fiber type setNonb epollCtl next result answered failed
    exact addEvent_failed answered failed
  · intro fd type epollCtl next result answered failed
    exact delEvent_failed answered failed
  · intro fd type epollCtl next result answered failed
    exact cancelEvent_failed answered failed
  · intro fd epollCtl next result answered failed
    exact cancelAll_failed answered failed
  · intro fd ready
    exact handle_failed fd ready

/-- Both events of descriptor 5 are ready, both are cancelled before the loop comes to it,
and one of them is registered again. -/
theorem registration_invariant_reregistered :
    ∃ reactor : Reactor Nat, reactor.handed = [1, 2] ∧ reactor.failures = 0 ∧
      reactor.holdCount = reactor.bits + reactor.addedHolds := by
  have starts : (machine Nat).initial (new Nat) := rfl
  rcases Machine.exists_reachableWhere_of_run (machine Nat) DispatchesUntorn starts
    [.addEvent 5 1 .read true true, .addEvent 5 2 .write true true,
      .epollWait [(5, ⟨⟨true, true⟩, false⟩)], .cancelAll 5 true, .dispatch true,
      .addEvent 5 3 .read true true]
    (fun reactor => reactor.handed == [1, 2]) (by decide)
    with ⟨reactor, reachable, handed⟩
  have invariant := registration_invariant reachable
  exact ⟨reactor, eq_of_beq handed, invariant.2.2.2.1, invariant.2.1⟩

/-- Descriptor 5 is ready for both events, reading is cancelled before the loop takes the
lock, and the loop triggers it all the same. -/
theorem torn_mask_drifts :
    ∃ reactor : Reactor Nat, (machine Nat).Reachable reactor ∧ reactor.failures ≠ 0 ∧
      reactor.holdCount ≠ reactor.bits + reactor.addedHolds := by
  have starts : (machine Nat).initial (new Nat) := rfl
  rcases Machine.exists_reachable_of_run (machine Nat) starts
    [.addEvent 5 1 .read true true, .addEvent 5 2 .write true true,
      .epollWait [(5, ⟨⟨true, true⟩, false⟩)], .cancelEvent 5 .read true, .dispatch true]
    (fun reactor => reactor.failures == 2 && reactor.holdCount == -1 &&
      reactor.addedHolds == 0) (by decide)
    with ⟨reactor, reachable, passes⟩
  simp only [Bool.and_eq_true, beq_iff_eq] at passes
  rcases passes with ⟨⟨failures, holdCount⟩, addedHolds⟩
  exact ⟨reactor, reachable, by omega, by omega⟩

end Reactor

end FiberNet
