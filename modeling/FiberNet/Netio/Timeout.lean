import FiberNet.Netio.Parking

/-! # A timeout is not forgotten while its fiber waits

The timer of a turn is armed before the event is registered. When its callback cancels
only afterwards, the timer is pending, the callback is on its way to the cancel, or the
cancel has put the fiber into the run queue.
-/

namespace FiberNet

variable {Fiber : Type}

/-! ## The timers of the turns -/

/-- Each pending timer is that of a turn and has the callback of this turn. -/
structure Alarms (timers : TimerManager (Task Fiber)) : Prop where
  sorted : OrderedSet.Sorted (TimerManager.before timers.heap) timers.timers
  closure : ∀ timer ∈ timers.timers, (timers.heap timer).fiber = some (.timeout timer) ∧
    (timers.heap timer).type = .single

namespace Alarms

variable {timers next : TimerManager (Task Fiber)} {tinfo : Nat}

theorem arm (alarms : Alarms timers) (unarmed : tinfo ∉ timers.timers)
    {object : Timer (Task Fiber)} (fresh : object.Fresh) {headTag : Bool}
    (armed : TimerManager.addTimer { timers with heap := Function.update timers.heap tinfo object }
      tinfo (.timeout tinfo) .single = some (next, headTag)) :
    Alarms next ∧ ∀ timer, timer ∈ next.timers ↔ timer = tinfo ∨ timer ∈ timers.timers := by
  have different : ∀ timer ∈ timers.timers, timer ≠ tinfo := by
    rintro timer member rfl
    exact unarmed member
  have sorted : OrderedSet.Sorted
      (TimerManager.before (Function.update timers.heap tinfo object)) timers.timers := by
    refine alarms.sorted.imp_of_mem fun {first second} firstIn secondIn ordered => ?_
    rw [TimerManager.before_iff] at ordered ⊢
    rwa [Function.update_of_ne (different first firstIn),
      Function.update_of_ne (different second secondIn)]
  have inserted : OrderedSet.Sorted _ (OrderedSet.insert _ tinfo timers.timers) :=
    OrderedSet.insert_sorted sorted
  rw [TimerManager.addTimer_eq _ _ (by simp [fresh.started])] at armed
  cases armed
  refine ⟨⟨?_, ?_⟩, fun timer => OrderedSet.mem_insert⟩
  · simp only
    rw [TimerManager.before_update _ _ _ (by simp [TimerManager.armed])]
    exact inserted
  · intro timer member
    rcases OrderedSet.mem_insert.mp member with equal | older
    · subst timer
      simp [TimerManager.armed, fresh.type]
    · simpa [different timer older] using alarms.closure timer older

theorem cancel (alarms : Alarms timers) {result : Bool}
    (answered : timers.cancel tinfo = some (next, result)) :
    Alarms next ∧ (∀ timer ∈ next.timers, timer ∈ timers.timers) ∧
      ∀ timer ∈ timers.timers, timer ≠ tinfo → timer ∈ next.timers := by
  simp only [TimerManager.cancel] at answered
  split at answered
  · cases answered
  · split at answered
    · cases answered
      exact ⟨alarms, fun _ member => member, fun _ member _ => member⟩
    · split at answered
      · rename_i hasManager notCancelled hasFiber
        rcases Option.map_eq_some_iff.mp answered with ⟨position, found, isNext⟩
        cases isNext
        rw [TimerManager.before_markCancelled] at found
        have member := OrderedSet.mem_of_find found
        rcases OrderedSet.find_of_mem alarms.sorted member with ⟨position', found', here⟩
        rw [found] at found'
        cases found'
        have members := OrderedSet.mem_eraseIdx_iff alarms.sorted here
        refine ⟨⟨?_, ?_⟩, ?_, ?_⟩
        · simp only [TimerManager.before_markCancelled]
          exact alarms.sorted.sublist (List.eraseIdx_sublist _ _)
        · intro timer kept
          rcases (members timer).mp kept with ⟨pending, different⟩
          simpa [different] using alarms.closure timer pending
        · intro timer kept
          exact ((members timer).mp kept).1
        · intro timer pending different
          exact (members timer).mpr ⟨pending, different⟩
      · cases answered
        exact ⟨alarms, fun _ member => member, fun _ member _ => member⟩

theorem expire (alarms : Alarms timers) (now : UInt64) :
    Alarms (timers.getExpiredTasks now).1 ∧
    (∀ timer ∈ (timers.getExpiredTasks now).1.timers, timer ∈ timers.timers) ∧
    (∀ timer ∈ timers.timers, timer ∈ (timers.getExpiredTasks now).1.timers ∨
      some (.timeout timer) ∈ (timers.getExpiredTasks now).2) ∧
    ∀ task ∈ (timers.getExpiredTasks now).2, ∃ timer ∈ timers.timers,
      task = some (.timeout timer) := by
  have spec := TimerManager.getExpiredTasks_spec timers now alarms.sorted
  rcases spec with ⟨tasks, heap, kept⟩
  refine ⟨⟨?_, ?_⟩, ?_, ?_, ?_⟩
  · exact TimerManager.getExpiredTasks_sorted now alarms.sorted
  · intro timer member
    rw [kept, List.mem_filter] at member
    have closure := alarms.closure timer member.1
    have unexpired : timer ∉ timers.expiredTimers now := by
      rw [TimerManager.mem_expiredTimers alarms.sorted]
      simp_all
    rwa [heap timer, if_neg fun both => unexpired both.1]
  · intro timer member
    rw [kept, List.mem_filter] at member
    exact member.1
  · intro timer member
    have closure := alarms.closure timer member
    rw [kept, tasks, List.mem_filter, List.mem_map]
    cases expires : timers.expired now timer with
    | false => exact .inl ⟨member, by simp⟩
    | true =>
        right
        refine ⟨timer, ?_, closure.1⟩
        exact (TimerManager.mem_expiredTimers alarms.sorted timer).mpr ⟨member, expires⟩
  · intro task member
    rw [tasks, List.mem_map] at member
    rcases member with ⟨timer, expired, rfl⟩
    have pending := ((TimerManager.mem_expiredTimers alarms.sorted timer).mp expired).1
    exact ⟨timer, pending, (alarms.closure timer pending).1⟩

end Alarms

/-! ## The turns -/

namespace IoPosition

/-- From the return of `addTimer` to the resumption. -/
def armed : IoPosition → Option Turn
  | .addEvent turn | .yield turn | .parked turn => some turn
  | _ => none

/-- On its way to register the event, with its timer armed. -/
def registering : IoPosition → Option Nat
  | .addEvent turn => some turn.tinfo
  | _ => none

theorem turn_of_armed {position : IoPosition} {turn : Turn} (armed : position.armed = some turn) :
    position.turn = some turn := by
  cases position <;> first | exact armed | cases armed

theorem waiting_of_turn {position : IoPosition} (none : position.turn = none) :
    position.waiting = Option.none := by
  cases position <;> first | rfl | cases none

/-- The fiber goes on with its turn, or ends it. -/
structure Follows (old new : IoPosition) : Prop where
  turn : ∀ turn, new.turn = some turn → old.turn = some turn
  armed : ∀ turn, new.armed = some turn → old.armed = some turn ∧
    (old.waiting = some turn → new.waiting = some turn)
  begun : ∀ turn, new ≠ .addTimer turn

theorem Follows.of_idle (old : IoPosition) {new : IoPosition} (idle : new.turn = none) :
    old.Follows new where
  turn := by simp [idle]
  armed := by
    intro turn armed
    rw [turn_of_armed armed] at idle
    cases idle
  begun := by
    rintro turn rfl
    cases idle

end IoPosition

namespace Hook

/-- The callback is queued or running, and it still comes to its cancel. -/
def CallbackDue (hook : Hook Fiber) (tinfo : Nat) : Prop :=
  hook.callback tinfo = some .cancel ∨ hook.isCancled tinfo = false ∧
    (.timeout tinfo ∈ hook.reactor.handed ∨ (hook.callback tinfo).isSome = true)

def Awaited (hook : Hook Fiber) (fiber : Fiber) (turn : Turn) : Prop :=
  turn.tinfo ∈ hook.timers.timers ∧ hook.isCancled turn.tinfo = false ∨
    hook.CallbackDue turn.tinfo ∨
    (hook.position fiber).waiting = some turn ∧ .fiber fiber ∈ hook.reactor.handed

/-- No timer was ever armed under this number. -/
def Unarmed (hook : Hook Fiber) (tinfo : Nat) : Prop :=
  hook.fresh ≤ tinfo ∨ ∃ fiber turn, hook.position fiber = .addTimer turn ∧ turn.tinfo = tinfo

structure Timeouts [DecidableEq Fiber] (hook : Hook Fiber) : Prop where
  parking : Parking hook.position hook.reactor
  alarms : Alarms hook.timers
  owned : ∀ fiber turn, (hook.position fiber).turn = some turn → turn.tinfo < hook.fresh ∧
    ∃ info, hook.tinfos turn.tinfo = some info ∧ info.owner = fiber ∧
      info.fd = turn.call.fd ∧ info.event = turn.call.event
  unarmed : ∀ tinfo, hook.Unarmed tinfo → hook.callback tinfo = none ∧
    tinfo ∉ hook.timers.timers ∧ .timeout tinfo ∉ hook.reactor.handed ∧
    hook.isCancled tinfo = false
  awaited : ∀ fiber turn, (hook.position fiber).armed = some turn → turn.timed = true →
    hook.Awaited fiber turn

/-- What neither the bookkeeping of descriptors nor that of calls is about. -/
structure SameTimeouts (hook next : Hook Fiber) : Prop where
  timers : next.timers = hook.timers
  fresh : next.fresh = hook.fresh
  tinfos : next.tinfos = hook.tinfos
  callback : next.callback = hook.callback

namespace Timeouts

variable [DecidableEq Fiber] {hook next : Hook Fiber}

theorem start : (start Fiber).Timeouts where
  parking := Parking.start
  alarms := ⟨List.Pairwise.nil, by simp [Hook.start]⟩
  owned := by simp [Hook.start, IoPosition.turn]
  unarmed := by simp [Hook.start, isCancled, Reactor.new]
  awaited := by simp [Hook.start, IoPosition.armed]

/-- The timers stay, and a fiber's turn goes on or ends. -/
theorem same (timeouts : hook.Timeouts) (same : SameTimeouts hook next)
    (parking : Parking next.position next.reactor)
    (callbacks : ∀ tinfo, .timeout tinfo ∈ next.reactor.handed ↔
      .timeout tinfo ∈ hook.reactor.handed)
    (queued : ∀ fiber turn, (next.position fiber).waiting = some turn →
      .fiber fiber ∈ hook.reactor.handed → .fiber fiber ∈ next.reactor.handed)
    (turns : ∀ fiber turn, (next.position fiber).turn = some turn →
      (hook.position fiber).turn = some turn)
    (armed : ∀ fiber turn, (next.position fiber).armed = some turn →
      (hook.position fiber).armed = some turn)
    (waiting : ∀ fiber turn, (next.position fiber).armed = some turn →
      (hook.position fiber).waiting = some turn → (next.position fiber).waiting = some turn)
    (unarmed : ∀ fiber turn, next.position fiber = .addTimer turn →
      hook.position fiber = .addTimer turn) : next.Timeouts where
  parking := parking
  alarms := by
    rw [same.timers]
    exact timeouts.alarms
  owned := by
    intro fiber turn has
    rw [same.fresh, same.tinfos]
    exact timeouts.owned fiber turn (turns fiber turn has)
  unarmed := by
    intro tinfo unarmedNext
    have before : hook.Unarmed tinfo := by
      rcases unarmedNext with fresh | ⟨fiber, turn, position, number⟩
      · rw [same.fresh] at fresh
        exact .inl fresh
      · exact .inr ⟨fiber, turn, unarmed fiber turn position, number⟩
    rw [same.callback, same.timers, callbacks, isCancled, same.tinfos]
    exact timeouts.unarmed tinfo before
  awaited := by
    intro fiber turn isArmed timed
    have before := timeouts.awaited fiber turn (armed fiber turn isArmed) timed
    unfold Awaited CallbackDue isCancled at *
    rw [same.timers, same.tinfos, same.callback, callbacks]
    rcases before with pending | due | ⟨waits, isQueued⟩
    · exact .inl pending
    · exact .inr (.inl due)
    · have waits := waiting fiber turn isArmed waits
      exact .inr (.inr ⟨waits, queued fiber turn waits isQueued⟩)

/-- One fiber moves. -/
theorem moves (timeouts : hook.Timeouts) {fiber : Fiber} {position : IoPosition}
    (same : SameTimeouts hook next)
    (moved : next.position = Function.update hook.position fiber position)
    (follows : (hook.position fiber).Follows position)
    (parking : Parking next.position next.reactor)
    (callbacks : ∀ tinfo, .timeout tinfo ∈ next.reactor.handed ↔
      .timeout tinfo ∈ hook.reactor.handed)
    (queued : ∀ other, other ≠ fiber ∨ position.waiting ≠ none →
      .fiber other ∈ hook.reactor.handed → .fiber other ∈ next.reactor.handed) :
    next.Timeouts := by
  have at' : ∀ other, next.position other =
      if other = fiber then position else hook.position other := by
    intro other
    rw [moved, Function.update_apply]
  apply timeouts.same same parking callbacks
  · intro other turn waiting
    apply queued
    rw [at'] at waiting
    split at waiting
    · right
      simp [waiting]
    · exact .inl ‹_›
  · intro other turn has
    rw [at'] at has
    split at has
    · subst other
      exact follows.turn turn has
    · exact has
  · intro other turn armed
    rw [at'] at armed
    split at armed
    · subst other
      exact (follows.armed turn armed).1
    · exact armed
  · intro other turn armed waiting
    rw [at'] at armed ⊢
    split at armed
    · subst other
      rw [if_pos rfl]
      exact (follows.armed turn armed).2 waiting
    · rw [if_neg ‹_›]
      exact waiting
  · intro other turn begins
    rw [at'] at begins
    split at begins
    · exact absurd begins (follows.begun turn)
    · exact begins

/-- One fiber moves and leaves the Reactor alone. -/
theorem quiet (timeouts : hook.Timeouts) {fiber : Fiber} {position : IoPosition}
    (same : SameTimeouts hook next)
    (moved : next.position = Function.update hook.position fiber position)
    (follows : (hook.position fiber).Follows position)
    (waiting : position.waiting = (hook.position fiber).waiting)
    (reactor : next.reactor = hook.reactor) : next.Timeouts := by
  apply timeouts.moves same moved follows
  · rw [reactor, moved]
    apply timeouts.parking.move
    intro other
    rw [Function.update_apply]
    split
    · subst other
      exact waiting
    · rfl
  · simp [reactor]
  · simp [reactor]

/-- A fiber that owns no turn ends up without one. -/
theorem idle (timeouts : hook.Timeouts) {fiber : Fiber} {position : IoPosition}
    (same : SameTimeouts hook next)
    (moved : next.position = Function.update hook.position fiber position)
    (before : (hook.position fiber).waiting = none) (after : position.turn = none)
    (reactor : next.reactor = hook.reactor) : next.Timeouts := by
  apply timeouts.quiet same moved (.of_idle _ after) _ reactor
  rw [before, IoPosition.waiting_of_turn after]

/-- Descriptors, requests and the records of a run play no part. -/
theorem bookkeeping (timeouts : hook.Timeouts) (same : SameTimeouts hook next)
    (position : next.position = hook.position) (reactor : next.reactor = hook.reactor) :
    next.Timeouts := by
  apply timeouts.same same
  · rw [position, reactor]
    exact timeouts.parking
  · simp [reactor]
  · simp [reactor]
  · simp [position]
  · simp [position]
  · simp [position]
  · simp [position]

theorem finish (timeouts : hook.Timeouts) {fiber : Fiber} (call : Call) (result : Int)
    (before : (hook.position fiber).waiting = none) :
    (hook.finish fiber call result).Timeouts := by
  have position : (hook.record call result).position = hook.position := by
    unfold record
    split <;> rfl
  have recorded : (hook.record call result).Timeouts := by
    unfold record
    split
    · exact timeouts
    · exact timeouts.bookkeeping ⟨rfl, rfl, rfl, rfl⟩ rfl rfl
  rw [← position] at before
  unfold Hook.finish
  simp only
  split <;> exact recorded.idle ⟨rfl, rfl, rfl, rfl⟩ rfl before rfl rfl

theorem begin (timeouts : hook.Timeouts) {fiber : Fiber} {operation : Operation} {fd : Nat}
    {event : EventType} {hookEnable : Bool} {connectTimeOut : UInt64}
    (taken : hook.begin fiber operation fd event hookEnable connectTimeOut = some next) :
    next.Timeouts := by
  unfold Hook.begin at taken
  split at taken
  · rename_i outside
    have before : (hook.position fiber).waiting = none := by rw [outside]; rfl
    simp only at taken
    repeat' split at taken
    all_goals
      cases taken
      first
      | exact timeouts.finish _ _ before
      | exact timeouts.idle ⟨rfl, rfl, rfl, rfl⟩ rfl before rfl rfl
  · cases taken

/-- The new turn gets a number that was never used. -/
theorem newTurn (timeouts : hook.Timeouts) {fiber : Fiber} {call : Call}
    (before : (hook.position fiber).turn = none) : (hook.newTurn fiber call).Timeouts := by
  have others : ∀ other turn, other ≠ fiber → (hook.position other).turn = some turn →
      turn.tinfo ≠ hook.fresh := by
    intro other turn _ has
    exact Nat.ne_of_lt (timeouts.owned other turn has).1
  have position : ∀ other, (hook.newTurn fiber call).position other =
      if other = fiber then .addTimer ⟨call, hook.fresh⟩ else hook.position other := by
    intro other
    simp only [Hook.newTurn, goTo, Function.update_apply]
  constructor
  · apply timeouts.parking.move
    intro other
    rw [position]
    split
    · subst other
      rw [IoPosition.waiting_of_turn before]
      rfl
    · rfl
  · exact timeouts.alarms
  · intro other turn has
    rw [position] at has
    simp only [Hook.newTurn, goTo, Function.update_apply]
    split at has
    · subst other
      cases has
      exact ⟨Nat.lt_succ_self _, _, if_pos rfl, rfl, rfl, rfl⟩
    · rename_i different
      rcases timeouts.owned other turn has with ⟨below, owned⟩
      rw [if_neg (others other turn different has)]
      exact ⟨Nat.lt_succ_of_lt below, owned⟩
  · intro tinfo unarmed
    have wasUnarmed : hook.Unarmed tinfo := by
      rcases unarmed with fresh | ⟨other, turn, begins, rfl⟩
      · exact .inl (Nat.le_of_succ_le fresh)
      · rw [position] at begins
        split at begins
        · cases begins
          exact .inl (Nat.le_refl _)
        · exact .inr ⟨other, turn, begins, rfl⟩
    rcases timeouts.unarmed tinfo wasUnarmed with ⟨idle, absent, unqueued, unmarked⟩
    refine ⟨idle, absent, unqueued, ?_⟩
    simp only [isCancled, Hook.newTurn, goTo, Function.update_apply] at unmarked ⊢
    split
    · rfl
    · exact unmarked
  · intro other turn armed timed
    rw [position] at armed
    split at armed
    · cases armed
    · rename_i different
      have number := others other turn different (IoPosition.turn_of_armed armed)
      have before := timeouts.awaited other turn armed timed
      unfold Awaited CallbackDue isCancled at *
      rw [position, if_neg different]
      simpa [Hook.newTurn, goTo, number] using before

theorem invoke (timeouts : hook.Timeouts) {fiber : Fiber} {outcome : Outcome}
    (taken : hook.invoke fiber outcome = some next) : next.Timeouts := by
  have executed : ∀ call, (hook.execute call).Timeouts ∧
      (hook.execute call).position = hook.position := by
    intro call
    unfold execute
    split
    · exact ⟨timeouts, rfl⟩
    · exact ⟨timeouts.bookkeeping ⟨rfl, rfl, rfl, rfl⟩ rfl rfl, rfl⟩
  unfold Hook.invoke at taken
  split at taken
  · rename_i call position
    rcases executed call with ⟨timeouts, same⟩
    have before : ((hook.execute call).position fiber).waiting = none := by
      rw [same, position]
      rfl
    simp only at taken
    repeat' split at taken
    all_goals
      cases taken
      try exact timeouts.finish _ _ before
  · rename_i call position
    rcases executed call with ⟨timeouts, same⟩
    have before : ((hook.execute call).position fiber).turn = none := by
      rw [same, position]
      rfl
    have waits := IoPosition.waiting_of_turn before
    simp only at taken
    repeat' split at taken
    all_goals
      cases taken
      try first
        | exact timeouts.finish _ _ waits
        | exact timeouts.newTurn before
        | exact timeouts
  · cases taken

theorem addEvent (timeouts : hook.Timeouts) {fiber : Fiber} {setNonb epollCtl : Bool}
    (taken : hook.addEvent fiber setNonb epollCtl = some next) : next.Timeouts := by
  unfold Hook.addEvent at taken
  split at taken
  · rename_i turn position
    rcases Option.map_eq_some_iff.mp taken with ⟨⟨reactor, result⟩, answered, rfl⟩
    have handed := (Reactor.addEvent_cases answered).1
    refine timeouts.moves ⟨rfl, rfl, rfl, rfl⟩ rfl ?_ ?_ ?_ ?_
    · rw [position]
      simp only
      split <;> exact ⟨by simp [IoPosition.turn], by simp [IoPosition.armed, IoPosition.waiting],
        by simp⟩
    · apply timeouts.parking.addEvent (by rw [position]; rfl) answered
      · intro other different
        simp [goTo, setKernel, different]
      · rintro rfl
        exact ⟨turn, by simp [goTo, IoPosition.waiting], rfl, rfl⟩
      · intro refused
        simp [goTo, refused, IoPosition.waiting]
    · simp [goTo, setKernel, handed]
    · simp [goTo, setKernel, handed]
  · cases taken

theorem yieldToHold (timeouts : hook.Timeouts) {fiber : Fiber}
    (taken : hook.yieldToHold fiber = some next) : next.Timeouts := by
  unfold Hook.yieldToHold at taken
  split at taken
  · rename_i turn position
    cases taken
    refine timeouts.quiet ⟨rfl, rfl, rfl, rfl⟩ rfl ?_ (by rw [position]; rfl) rfl
    rw [position]
    exact ⟨by simp [IoPosition.turn], by simp [IoPosition.armed, IoPosition.waiting], by simp⟩
  · cases taken

theorem resume (timeouts : hook.Timeouts) {fiber : Fiber}
    (taken : hook.resume fiber = some next) : next.Timeouts := by
  unfold Hook.resume at taken
  split at taken
  · rename_i turn position
    split at taken
    · rename_i queued
      cases taken
      refine timeouts.moves ⟨rfl, rfl, rfl, rfl⟩ rfl ?_ ?_ ?_ ?_
      · rw [position]
        exact ⟨by simp [IoPosition.turn], by simp [IoPosition.armed], by simp⟩
      · apply timeouts.parking.resume queued
        · intro other different
          simp [goTo, different]
        · simp [goTo, IoPosition.waiting]
      · intro tinfo
        simp only [goTo]
        rw [List.mem_erase_of_ne (by simp)]
      · rintro other (different | waits) member
        · simp only [goTo]
          rwa [List.mem_erase_of_ne (by simpa using different)]
        · exact absurd rfl waits
    · cases taken
  · cases taken

theorem testCancled (timeouts : hook.Timeouts) {fiber : Fiber} {error : Bool}
    (taken : hook.testCancled fiber error = some next) : next.Timeouts := by
  unfold Hook.testCancled at taken
  split at taken
  · rename_i turn position
    have before : (hook.position fiber).waiting = none := by rw [position]; rfl
    repeat' split at taken
    all_goals
      cases taken
      first
      | exact timeouts.finish _ _ before
      | exact timeouts.idle ⟨rfl, rfl, rfl, rfl⟩ rfl before rfl rfl
  · cases taken

/-- Two fibers never have one `TimerInfo`. -/
theorem owner_unique (timeouts : hook.Timeouts) {fiber other : Fiber} {turn turn' : Turn}
    (first : (hook.position fiber).turn = some turn)
    (second : (hook.position other).turn = some turn') (same : turn.tinfo = turn'.tinfo) :
    fiber = other := by
  rcases timeouts.owned fiber turn first with ⟨_, info, known, owner, _⟩
  rcases timeouts.owned other turn' second with ⟨_, info', known', owner', _⟩
  rw [same, known'] at known
  cases known
  rw [← owner, ← owner']

/-- A fiber that was resumed cancels its own timer, and no other fiber waits for that. -/
theorem cancelTimers (timeouts : hook.Timeouts) {fiber : Fiber} {turn : Turn}
    (has : (hook.position fiber).turn = some turn) (disarmed : (hook.position fiber).armed = none)
    (taken : hook.cancelTimers turn = some next) :
    next.Timeouts ∧ next.position = hook.position := by
  unfold Hook.cancelTimers at taken
  split at taken
  · rcases Option.map_eq_some_iff.mp taken with ⟨⟨timers, result⟩, answered, rfl⟩
    rcases timeouts.alarms.cancel answered with ⟨alarms, older, kept⟩
    refine ⟨⟨timeouts.parking, alarms, timeouts.owned, ?_, ?_⟩, rfl⟩
    · intro tinfo unarmed
      rcases timeouts.unarmed tinfo unarmed with ⟨idle, absent, rest⟩
      exact ⟨idle, fun member => absent (older tinfo member), rest⟩
    · intro other turn' armed timed
      rcases timeouts.awaited other turn' armed timed with ⟨pending, unmarked⟩ | due
      · left
        refine ⟨kept _ pending ?_, unmarked⟩
        intro same
        have equal := timeouts.owner_unique (IoPosition.turn_of_armed armed) has same
        rw [equal, disarmed] at armed
        cases armed
      · exact .inr due
  · cases taken
    exact ⟨timeouts, rfl⟩

theorem cancelTimer (timeouts : hook.Timeouts) {fiber : Fiber}
    (taken : hook.cancelTimer fiber = some next) : next.Timeouts := by
  unfold Hook.cancelTimer at taken
  split at taken
  · rename_i turn position
    rcases Option.map_eq_some_iff.mp taken with ⟨mid, cancelled, rfl⟩
    rcases timeouts.cancelTimers (by rw [position]; rfl) (by rw [position]; rfl) cancelled with
      ⟨timeouts, same⟩
    refine timeouts.quiet ⟨rfl, rfl, rfl, rfl⟩ rfl ?_ (by rw [same, position]; rfl) rfl
    rw [same, position]
    exact ⟨by simp [IoPosition.turn], by simp [IoPosition.armed], by simp⟩
  · rename_i turn position
    rcases Option.map_eq_some_iff.mp taken with ⟨mid, cancelled, rfl⟩
    rcases timeouts.cancelTimers (by rw [position]; rfl) (by rw [position]; rfl) cancelled with
      ⟨timeouts, same⟩
    exact timeouts.finish _ _ (by rw [same, position]; rfl)
  · cases taken

/-- The turn's timer joins the pending ones, if it has one. -/
theorem arms (timeouts : hook.Timeouts) {fiber : Fiber} {turn : Turn}
    (position : hook.position fiber = .addTimer turn) {timers : TimerManager (Task Fiber)}
    (alarms : Alarms timers)
    (older : ∀ timer ∈ hook.timers.timers, timer ∈ timers.timers)
    (newer : ∀ timer ∈ timers.timers, timer = turn.tinfo ∨ timer ∈ hook.timers.timers)
    (pending : turn.timed = true → turn.tinfo ∈ timers.timers) :
    (Hook.goTo { hook with timers } fiber (.addEvent turn)).Timeouts := by
  have has : (hook.position fiber).turn = some turn := by rw [position]; rfl
  rcases timeouts.unarmed turn.tinfo (.inr ⟨fiber, turn, position, rfl⟩) with
    ⟨_, _, _, unmarked⟩
  have at' : ∀ other, (Hook.goTo { hook with timers } fiber (.addEvent turn)).position other =
      if other = fiber then .addEvent turn else hook.position other := by
    intro other
    simp only [goTo, Function.update_apply]
  constructor
  · apply timeouts.parking.move
    intro other
    rw [at']
    split
    · subst other
      rw [position]
      rfl
    · rfl
  · exact alarms
  · intro other turn' has'
    rw [at'] at has'
    split at has'
    · subst other
      cases has'
      exact timeouts.owned fiber turn has
    · exact timeouts.owned other turn' has'
  · intro tinfo unarmed
    have wasUnarmed : hook.Unarmed tinfo ∧ tinfo ≠ turn.tinfo := by
      rcases unarmed with fresh | ⟨other, turn', begins, rfl⟩
      · have below := Nat.lt_of_lt_of_le (timeouts.owned fiber turn has).1 fresh
        exact ⟨.inl fresh, (Nat.ne_of_lt below).symm⟩
      · rw [at'] at begins
        split at begins
        · cases begins
        · rename_i different
          refine ⟨.inr ⟨other, turn', begins, rfl⟩, ?_⟩
          intro same
          exact different (timeouts.owner_unique (by rw [begins]; rfl) has same)
    rcases timeouts.unarmed tinfo wasUnarmed.1 with ⟨idle, absent, rest⟩
    refine ⟨idle, ?_, rest⟩
    intro member
    rcases newer tinfo member with equal | before
    · exact wasUnarmed.2 equal
    · exact absent before
  · intro other turn' armed timed
    rw [at'] at armed
    split at armed
    · subst other
      cases armed
      exact .inl ⟨pending timed, unmarked⟩
    · rename_i different
      rcases timeouts.awaited other turn' armed timed with ⟨before, unmarked'⟩ | due | queued
      · exact .inl ⟨older _ before, unmarked'⟩
      · exact .inr (.inl due)
      · refine .inr (.inr ?_)
        rw [at', if_neg different]
        exact queued

theorem addTimer (timeouts : hook.Timeouts) {fiber : Fiber} {now : UInt64}
    (taken : hook.addTimer fiber now = some next) : next.Timeouts := by
  unfold Hook.addTimer at taken
  split at taken
  · rename_i turn position
    rcases timeouts.unarmed turn.tinfo (.inr ⟨fiber, turn, position, rfl⟩) with
      ⟨_, absent, _, _⟩
    split at taken
    · rcases Option.map_eq_some_iff.mp taken with ⟨⟨timers, headTag⟩, armed, rfl⟩
      rcases timeouts.alarms.arm absent (Timer.new_fresh _ _ _ _ _) armed with
        ⟨alarms, members⟩
      apply timeouts.arms position alarms
      · exact fun timer member => (members timer).mpr (.inr member)
      · exact fun timer member => (members timer).mp member
      · exact fun _ => (members _).mpr (.inl rfl)
    · rename_i untimed
      cases taken
      apply timeouts.arms position timeouts.alarms
      · exact fun _ member => member
      · exact fun _ member => .inr member
      · exact fun timed => absurd timed untimed
  · cases taken

theorem expire (timeouts : hook.Timeouts) (now : UInt64) :
    (Hook.addFibers { hook with timers := (hook.timers.getExpiredTasks now).1 }
      ((hook.timers.getExpiredTasks now).2.filterMap id)).Timeouts := by
  rcases timeouts.alarms.expire now with ⟨alarms, older, left, tasks⟩
  have fibers : ∀ task ∈ (hook.timers.getExpiredTasks now).2.filterMap id,
      ∃ timer ∈ hook.timers.timers, task = .timeout timer := by
    intro task member
    simp only [List.mem_filterMap, id] at member
    rcases member with ⟨_, expired, rfl⟩
    rcases tasks _ expired with ⟨timer, pending, equal⟩
    exact ⟨timer, pending, by simpa using equal⟩
  constructor
  · refine timeouts.parking.same rfl rfl ?_
    intro fiber
    have absent : .fiber fiber ∉ (hook.timers.getExpiredTasks now).2.filterMap id := by
      intro member
      rcases fibers _ member with ⟨timer, _, equal⟩
      cases equal
    simp only [Hook.addFibers, List.count_append, List.count_eq_zero.mpr absent, Nat.add_zero]
  · exact alarms
  · exact timeouts.owned
  · intro tinfo unarmed
    rcases timeouts.unarmed tinfo unarmed with ⟨idle, absent, unqueued, unmarked⟩
    refine ⟨idle, fun member => absent (older tinfo member), ?_, unmarked⟩
    simp only [Hook.addFibers, List.mem_append]
    rintro (before | expired)
    · exact unqueued before
    · rcases fibers _ expired with ⟨timer, pending, equal⟩
      cases equal
      exact absent pending
  · intro fiber turn armed timed
    rcases timeouts.awaited fiber turn armed timed with
      ⟨pending, unmarked⟩ | (cancels | ⟨unmarked, queued | runs⟩) | ⟨waits, queued⟩
    · rcases left _ pending with still | expired
      · exact .inl ⟨still, unmarked⟩
      · refine .inr (.inl (.inr ⟨unmarked, .inl ?_⟩))
        simp only [Hook.addFibers, List.mem_append, List.mem_filterMap]
        exact .inr ⟨_, expired, rfl⟩
    · exact .inr (.inl (.inl cancels))
    · exact .inr (.inl (.inr ⟨unmarked, .inl (List.mem_append_left _ queued)⟩))
    · exact .inr (.inl (.inr ⟨unmarked, .inr runs⟩))
    · exact .inr (.inr ⟨waits, List.mem_append_left _ queued⟩)

theorem runCallback (timeouts : hook.Timeouts) {tinfo : Nat}
    (taken : hook.runCallback tinfo = some next) : next.Timeouts := by
  unfold Hook.runCallback at taken
  split at taken
  · rename_i enabled
    rcases enabled with ⟨queued, idle⟩
    cases taken
    have callbackAt : ∀ other, Function.update hook.callback tinfo (some .lock) other =
        if other = tinfo then some .lock else hook.callback other := by
      intro other
      rw [Function.update_apply]
    constructor
    · refine timeouts.parking.same rfl rfl ?_
      intro fiber
      simp only [Hook.setCallback]
      rw [List.count_erase_of_ne (by simp)]
    · exact timeouts.alarms
    · exact timeouts.owned
    · intro other unarmed
      rcases timeouts.unarmed other unarmed with ⟨idle', absent, unqueued, unmarked⟩
      have different : other ≠ tinfo := by
        rintro rfl
        exact unqueued queued
      refine ⟨?_, absent, fun member => unqueued (List.mem_of_mem_erase member), unmarked⟩
      simp only [Hook.setCallback, callbackAt, if_neg different, idle']
    · intro fiber turn armed timed
      rcases timeouts.awaited fiber turn armed timed with
        pending | (cancels | ⟨unmarked, isQueued | runs⟩) | ⟨waits, isQueued⟩
      · exact .inl pending
      · refine .inr (.inl (.inl ?_))
        simp only [Hook.setCallback, callbackAt]
        split
        · simp_all
        · exact cancels
      · refine .inr (.inl (.inr ⟨unmarked, ?_⟩))
        simp only [Hook.setCallback, callbackAt]
        by_cases equal : turn.tinfo = tinfo
        · rw [if_pos equal]
          exact .inr rfl
        · rw [List.mem_erase_of_ne (by simpa using equal)]
          exact .inl isQueued
      · refine .inr (.inl (.inr ⟨unmarked, .inr ?_⟩))
        simp only [Hook.setCallback, callbackAt]
        split
        · rfl
        · exact runs
      · refine .inr (.inr ⟨waits, ?_⟩)
        simp only [Hook.setCallback]
        rwa [List.mem_erase_of_ne (by simp)]
  · cases taken

end Timeouts

/-- The fiber of the turn has its timer armed and its event not registered yet. -/
def registers (hook : Hook Fiber) (tinfo : Nat) : Bool :=
  (hook.tinfos tinfo).any fun info =>
    (hook.position info.owner).registering == some tinfo

/-- The cancel of a timeout's callback gets through to the kernel, and it does not come
before the event is registered. -/
def CancelsRegistered (hook : Hook Fiber) : HookAction Fiber → Prop
  | .callback tinfo epollCtl =>
      hook.callback tinfo = some .cancel → epollCtl = true ∧ hook.registers tinfo = false
  | _ => True

instance (hook : Hook Fiber) (action : HookAction Fiber) :
    Decidable (hook.CancelsRegistered action) := by
  cases action <;> unfold CancelsRegistered <;> infer_instance

namespace Timeouts

variable [DecidableEq Fiber] {hook next : Hook Fiber}

/-- A callback that comes while its turn lasts can lock the `TimerInfo`. -/
theorem locks_of_armed (timeouts : hook.Timeouts) {fiber : Fiber} {turn : Turn}
    (armed : (hook.position fiber).armed = some turn) : hook.locks turn.tinfo = true := by
  have has := IoPosition.turn_of_armed armed
  rcases timeouts.owned fiber turn has with ⟨_, info, known, owner, _⟩
  simp [locks, known, owner, has]

/-- The turns of other callbacks do not notice. -/
theorem setCallback (timeouts : hook.Timeouts) {tinfo : Nat}
    (position : Option CallbackPosition) (runs : hook.callback tinfo ≠ none)
    (awaited : ∀ fiber turn, (hook.position fiber).armed = some turn → turn.timed = true →
      turn.tinfo = tinfo → (hook.setCallback tinfo position).Awaited fiber turn) :
    (hook.setCallback tinfo position).Timeouts := by
  refine ⟨timeouts.parking, timeouts.alarms, timeouts.owned, ?_, ?_⟩
  · intro other unarmed
    rcases timeouts.unarmed other unarmed with ⟨idle, rest⟩
    have different : other ≠ tinfo := by
      rintro rfl
      exact runs idle
    refine ⟨?_, rest⟩
    simp only [Hook.setCallback]
    rw [Function.update_of_ne different, idle]
  · intro fiber turn armed timed
    by_cases equal : turn.tinfo = tinfo
    · exact awaited fiber turn armed timed equal
    · have before := timeouts.awaited fiber turn armed timed
      unfold Awaited CallbackDue at *
      simp only [Hook.setCallback]
      rw [Function.update_of_ne equal]
      exact before

/-- The mark is set by the callback that goes on to cancel. -/
theorem mark (timeouts : hook.Timeouts) {tinfo : Nat} {info : TimerInfo Fiber}
    (known : hook.tinfos tinfo = some info) (cancels : hook.callback tinfo = some .cancel) :
    Timeouts { hook with
      tinfos := Function.update hook.tinfos tinfo (some { info with cancled := true }) } := by
  refine ⟨timeouts.parking, timeouts.alarms, ?_, ?_, ?_⟩
  · intro fiber turn has
    rcases timeouts.owned fiber turn has with ⟨below, info', known', owned⟩
    refine ⟨below, ?_⟩
    simp only [Function.update_apply]
    split
    · rename_i equal
      rw [equal, known] at known'
      cases known'
      exact ⟨_, rfl, owned⟩
    · exact ⟨info', known', owned⟩
  · intro other unarmed
    rcases timeouts.unarmed other unarmed with ⟨idle, absent, unqueued, unmarked⟩
    have different : other ≠ tinfo := by
      rintro rfl
      rw [cancels] at idle
      cases idle
    refine ⟨idle, absent, unqueued, ?_⟩
    simp only [isCancled] at unmarked ⊢
    rw [Function.update_of_ne different]
    exact unmarked
  · intro fiber turn armed timed
    by_cases equal : turn.tinfo = tinfo
    · refine .inr (.inl (.inl ?_))
      rw [equal]
      exact cancels
    · have before := timeouts.awaited fiber turn armed timed
      unfold Awaited CallbackDue isCancled at *
      simp only
      rw [Function.update_of_ne equal]
      exact before

/-- The Reactor wakes fibers. -/
theorem woken (timeouts : hook.Timeouts) {reactor : Reactor (Task Fiber)}
    (parking : Parking hook.position reactor) (woken : Parking.Woken hook.reactor reactor) :
    Timeouts { hook with reactor } :=
  timeouts.same ⟨rfl, rfl, rfl, rfl⟩ parking woken.callbacks
    (fun fiber _ _ queued => woken.queued fiber queued) (fun _ _ has => has)
    (fun _ _ armed => armed) (fun _ _ _ waiting => waiting) (fun _ _ begins => begins)

theorem callbackStep (timeouts : hook.Timeouts) {tinfo : Nat} {epollCtl : Bool}
    (cancels : hook.CancelsRegistered (.callback tinfo epollCtl))
    (taken : hook.callbackStep tinfo epollCtl = some next) : next.Timeouts := by
  unfold Hook.callbackStep at taken
  split at taken
  · rename_i info position known
    cases taken
    apply timeouts.setCallback _ (by simp [position])
    rintro fiber turn armed timed rfl
    rw [timeouts.locks_of_armed armed]
    have before := timeouts.awaited fiber turn armed timed
    unfold Awaited CallbackDue at *
    rw [position] at before
    simp only [Hook.setCallback, isCancled, Function.update_self] at *
    grind
  · rename_i info position known
    split at taken
    · rename_i marked
      cases taken
      apply timeouts.setCallback _ (by simp [position])
      rintro fiber turn armed timed rfl
      have before := timeouts.awaited fiber turn armed timed
      have isMarked : hook.isCancled turn.tinfo = true := by simp [isCancled, known, marked]
      unfold Awaited CallbackDue at *
      rw [position, isMarked] at before
      rcases before with ⟨_, unmarked⟩ | (cancelling | ⟨unmarked, _⟩) | queued
      · cases unmarked
      · cases cancelling
      · cases unmarked
      · exact .inr (.inr queued)
    · cases taken
      have cancelling : (hook.setCallback tinfo (some .cancel)).Timeouts := by
        apply timeouts.setCallback _ (by simp [position])
        rintro fiber turn _ _ rfl
        exact .inr (.inl (.inl (by simp [Hook.setCallback])))
      exact cancelling.mark known (by simp [Hook.setCallback])
  · rename_i info position known
    cases taken
    rcases cancels position with ⟨rfl, registered⟩
    have parking := timeouts.parking.cancelEvent info.fd info.event true
    have cancelled := timeouts.woken parking
      (timeouts.parking.woken_cancelEvent info.fd info.event true)
    apply cancelled.setCallback _ (by simp [position])
    rintro fiber turn armed timed rfl
    rcases timeouts.owned fiber turn (IoPosition.turn_of_armed armed) with
      ⟨_, info', known', owner, fd, event⟩
    rw [known] at known'
    cases known'
    refine .inr (.inr ?_)
    cases here : hook.position fiber with
    | addEvent other =>
        simp only [here] at armed
        cases armed
        simp [registers, known, owner, here, IoPosition.registering] at registered
    | yield other | parked other =>
        simp only [here] at armed
        cases armed
        have waits : (hook.position fiber).waiting = some turn := by rw [here]; rfl
        have queued := timeouts.parking.queued_of_cancelEvent waits
        rw [← fd, ← event] at queued
        exact ⟨waits, queued⟩
    | _ =>
        simp only [here] at armed
        cases armed
  · cases taken

/-- A fiber that is not in a turn handles descriptors. -/
theorem socket (timeouts : hook.Timeouts) {fiber : Fiber} {fd : Nat}
    (taken : hook.socket fiber fd = some next) : next.Timeouts := by
  unfold Hook.socket at taken
  split at taken
  · rename_i position
    split at taken <;> cases taken
    exact timeouts.idle ⟨rfl, rfl, rfl, rfl⟩ rfl (by rw [position]; rfl) rfl rfl
  · cases taken

theorem create (timeouts : hook.Timeouts) {fiber : Fiber} {setNonb : Bool}
    (taken : hook.create fiber setNonb = some next) : next.Timeouts := by
  unfold Hook.create at taken
  split at taken
  · rename_i fd position
    simp only at taken
    split at taken <;> cases taken <;>
      exact timeouts.idle ⟨rfl, rfl, rfl, rfl⟩ rfl (by rw [position]; rfl) rfl rfl
  · cases taken

theorem close (timeouts : hook.Timeouts) {fiber : Fiber} {fd : Nat} {hookEnable : Bool}
    (taken : hook.close fiber fd hookEnable = some next) : next.Timeouts := by
  unfold Hook.close at taken
  split at taken
  · rename_i position
    have before : (hook.position fiber).waiting = none := by rw [position]; rfl
    repeat' split at taken
    all_goals
      cases taken
      exact timeouts.idle ⟨rfl, rfl, rfl, rfl⟩ rfl before rfl rfl
  · cases taken

theorem cancelAll (timeouts : hook.Timeouts) {fiber : Fiber} {epollCtl : Bool}
    (taken : hook.cancelAll fiber epollCtl = some next) : next.Timeouts := by
  unfold Hook.cancelAll at taken
  split at taken
  · rename_i fd position
    cases taken
    have woken := timeouts.woken (timeouts.parking.cancelAll fd epollCtl)
      (timeouts.parking.woken_cancelAll fd epollCtl)
    exact woken.idle ⟨rfl, rfl, rfl, rfl⟩ rfl (by rw [position]; rfl) rfl rfl
  · cases taken

theorem del (timeouts : hook.Timeouts) {fiber : Fiber}
    (taken : hook.del fiber = some next) : next.Timeouts := by
  unfold Hook.del at taken
  split at taken
  · rename_i fd position
    split at taken <;> cases taken <;>
      exact timeouts.idle ⟨rfl, rfl, rfl, rfl⟩ rfl (by rw [position]; rfl) rfl rfl
  · cases taken

theorem closeFd (timeouts : hook.Timeouts) {fiber : Fiber}
    (taken : hook.closeFd fiber = some next) : next.Timeouts := by
  unfold Hook.closeFd at taken
  split at taken
  · rename_i fd position
    cases taken
    have told := timeouts.woken (timeouts.parking.setInterest fd .none) (.of_same rfl)
    exact told.idle ⟨rfl, rfl, rfl, rfl⟩ rfl (by rw [position]; rfl) rfl rfl
  · cases taken

theorem step (timeouts : hook.Timeouts) {action : HookAction Fiber}
    (cancels : hook.CancelsRegistered action) (taken : hook.step action = some next) :
    next.Timeouts := by
  cases action with
  | begin fiber operation fd event hookEnable connectTimeOut => exact timeouts.begin taken
  | invoke fiber outcome => exact timeouts.invoke taken
  | addTimer fiber now => exact timeouts.addTimer taken
  | addEvent fiber setNonb epollCtl => exact timeouts.addEvent taken
  | yieldToHold fiber => exact timeouts.yieldToHold taken
  | resume fiber => exact timeouts.resume taken
  | cancelTimer fiber => exact timeouts.cancelTimer taken
  | testCancled fiber error => exact timeouts.testCancled taken
  | socket fiber fd => exact timeouts.socket taken
  | create fiber setNonb => exact timeouts.create taken
  | close fiber fd hookEnable => exact timeouts.close taken
  | cancelAll fiber epollCtl => exact timeouts.cancelAll taken
  | del fiber => exact timeouts.del taken
  | closeFd fiber => exact timeouts.closeFd taken
  | setTimeout fd type timeout =>
      cases taken
      exact timeouts.bookkeeping ⟨rfl, rfl, rfl, rfl⟩ rfl rfl
  | setUserNonBlock fd state =>
      cases taken
      exact timeouts.bookkeeping ⟨rfl, rfl, rfl, rfl⟩ rfl rfl
  | expire now =>
      cases taken
      exact timeouts.expire now
  | runCallback tinfo => exact timeouts.runCallback taken
  | callback tinfo epollCtl => exact timeouts.callbackStep cancels taken
  | epollWait ready =>
      simp only [Hook.step, Option.ite_none_right_eq_some, Option.some.injEq] at taken
      rcases taken with ⟨_, rfl⟩
      exact timeouts.woken (timeouts.parking.same rfl rfl fun _ => rfl) (.of_same rfl)
  | dispatch epollCtl =>
      simp only [Hook.step] at taken
      split at taken
      · cases taken
      · rename_i fd ready rest _
        cases taken
        have popped : Parking hook.position { hook.reactor with ready := rest } :=
          timeouts.parking.same rfl rfl fun _ => rfl
        have same : Parking.Woken hook.reactor { hook.reactor with ready := rest } := .of_same rfl
        exact timeouts.woken (popped.handle fd ready epollCtl)
          (same.trans (popped.woken_handle fd ready epollCtl))

end Timeouts

/-! ## Runs -/

variable [DecidableEq Fiber] {hook : Hook Fiber}

theorem timeouts_of_reachable
    (reachable : (machine Fiber).ReachableWhere CancelsRegistered hook) : hook.Timeouts := by
  apply reachable.invariant
  · rintro hook rfl
    exact Timeouts.start
  · intro hook action next _ timeouts cancels taken
    exact timeouts.step cancels taken

/-- The event of the turn is registered for the fiber. -/
def Registered (hook : Hook Fiber) (fiber : Fiber) (turn : Turn) : Prop :=
  (hook.reactor.eventMap turn.call.fd).event.has turn.call.event = true ∧
    (hook.reactor.eventMap turn.call.fd).task turn.call.event = some (.fiber fiber)

/-- A fiber parked in `do_io` or `connect` with a finite timeout has been woken, or its
timer is pending, or the callback is on its way to the cancel. -/
theorem timeout_not_forgotten
    (reachable : (machine Fiber).ReachableWhere CancelsRegistered hook)
    {fiber : Fiber} {turn : Turn} (parked : hook.position fiber = .parked turn)
    (finite : turn.call.timeout ≠ -1) :
    (¬ hook.Registered fiber turn ∧ .fiber fiber ∈ hook.reactor.handed) ∨
      turn.tinfo ∈ hook.timers.timers ∨ hook.CallbackDue turn.tinfo := by
  have timeouts := timeouts_of_reachable reachable
  have timed : turn.timed = true := by simpa [Turn.timed] using finite
  rcases timeouts.awaited fiber turn (by rw [parked]; rfl) timed with
    ⟨pending, _⟩ | due | ⟨_, queued⟩
  · exact .inr (.inl pending)
  · exact .inr (.inr due)
  · left
    refine ⟨?_, queued⟩
    rintro ⟨_, slot⟩
    rcases timeouts.parking.slot_of_fiber slot with ⟨_, _, _, _, unqueued⟩
    exact unqueued queued

/-- The timeout of a `read` that waits: its callback has done the cancel. -/
theorem timeout_not_forgotten_after_cancel :
    ∃ hook : Hook Nat, hook.position 0 = .parked ⟨⟨.transfer, 5, .read, 20, 1⟩, 0⟩ ∧
      hook.timers.timers = [] ∧ hook.callback 0 = none ∧ .fiber 0 ∈ hook.reactor.handed := by
  rcases Machine.exists_reachableWhere_of_run (machine Nat) CancelsRegistered rfl
    [.socket 0 5, .create 0 true, .setTimeout 5 .read 20, .begin 0 .transfer 5 .read true 0,
      .invoke 0 .again, .addTimer 0 100, .addEvent 0 true true, .yieldToHold 0, .expire 120,
      .runCallback 0, .callback 0 true, .callback 0 true, .callback 0 true]
    (fun hook => decide (hook.position 0 = .parked ⟨⟨.transfer, 5, .read, 20, 1⟩, 0⟩ ∧
      hook.timers.timers = [] ∧ hook.callback 0 = none ∧ .timeout 0 ∉ hook.reactor.handed))
    (by decide) with ⟨hook, reachable, tested⟩
  rcases of_decide_eq_true tested with ⟨parked, spent, idle, unqueued⟩
  refine ⟨hook, parked, spent, idle, ?_⟩
  rcases timeout_not_forgotten reachable parked (by decide) with
    ⟨_, queued⟩ | pending | cancels | ⟨_, queued | runs⟩
  · exact queued
  · simp [spent] at pending
  · simp [idle] at cancels
  · exact absurd queued unqueued
  · simp [idle] at runs

/-- A timeout that is over before the event is registered: the callback has nothing to
cancel, and the fiber parks with its timeout spent. -/
theorem spent_timeout_parks :
    ∃ hook : Hook Nat, (machine Nat).Reachable hook ∧
      hook.position 0 = .parked ⟨⟨.transfer, 5, .read, 0, 1⟩, 0⟩ ∧
      hook.Registered 0 ⟨⟨.transfer, 5, .read, 0, 1⟩, 0⟩ ∧
      .fiber 0 ∉ hook.reactor.handed ∧ hook.timers.timers = [] ∧
      .timeout 0 ∉ hook.reactor.handed ∧ hook.callback 0 = none := by
  rcases Machine.exists_reachable_of_run (machine Nat) rfl
    [.socket 0 5, .create 0 true, .setTimeout 5 .read 0, .begin 0 .transfer 5 .read true 0,
      .invoke 0 .again, .addTimer 0 100, .expire 100, .runCallback 0, .callback 0 true,
      .callback 0 true, .callback 0 true, .addEvent 0 true true, .yieldToHold 0]
    (fun hook => decide (hook.position 0 = .parked ⟨⟨.transfer, 5, .read, 0, 1⟩, 0⟩ ∧
      ((hook.reactor.eventMap 5).event.has .read = true ∧
        (hook.reactor.eventMap 5).task .read = some (.fiber 0)) ∧
      .fiber 0 ∉ hook.reactor.handed ∧ hook.timers.timers = [] ∧
      .timeout 0 ∉ hook.reactor.handed ∧ hook.callback 0 = none))
    (by decide) with ⟨hook, reachable, tested⟩
  have facts := of_decide_eq_true tested
  exact ⟨hook, reachable, facts⟩

end Hook

end FiberNet
