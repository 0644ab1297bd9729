import FiberNet.Scheduler.Scheduler
import FiberNet.Scheduler.TimerLifecycle

/-! # Periodic timers

Runs in which timers are added as they are constructed, expiry checks hand their fibers to
the Processers and these run them. `getExpiredTasks` puts a LOOP timer back without calling
`setNextExpireTime`, and with the fiber it has already delivered.
-/

namespace FiberNet

namespace TimerManager

variable {Fiber : Type}

/-- A fiber that an expiry check took from a timer, with the timer's expiry time before and
after the check. -/
structure Delivery where
  timer : Nat
  now : UInt64
  before : UInt64
  after : UInt64
  state : Option FiberState
  deriving DecidableEq

structure Periods (Fiber : Type) where
  life : Lifecycle Fiber
  /-- The time of `addTimer`, for a timer that was added. -/
  addedAt : Nat → UInt64
  state : Fiber → FiberState
  /-- Newest first. -/
  deliveries : List Delivery

inductive PeriodsAction (Fiber : Type)
  | addTimer (timer : Nat) (task : Fiber) (type : TimerType) (now : UInt64)
  | cancel (timer : Nat)
  | getExpiredTasks (now : UInt64)
  /-- A Processer has resumed the fiber, which comes back in the given state. -/
  | resume (fiber : Fiber) (state : FiberState)

namespace Periods

def step [DecidableEq Fiber] (periods : Periods Fiber) : PeriodsAction Fiber → Option (Periods Fiber)
  | .addTimer timer task type now =>
      -- the timer is constructed for the call, the fiber is a new or the calling one
      if periods.life.clock ≤ now ∧
          (periods.state task = .init ∨ periods.state task = .exec) ∧
          (periods.life.manager.heap timer).nxtExpireTime =
            (periods.life.manager.heap timer).interval + now then
        (periods.life.step (.addTimer timer task type)).map fun life =>
          { periods with life, addedAt := Function.update periods.addedAt timer now }
      else none
  | .cancel timer =>
      (periods.life.step (.cancel timer)).map fun life => { periods with life }
  | .getExpiredTasks now =>
      (periods.life.step (.getExpiredTasks now)).map fun life =>
        { periods with
          life
          deliveries := (periods.life.manager.expiredTimers now).map (fun timer =>
            { timer
              now
              before := (periods.life.manager.heap timer).nxtExpireTime
              after := (life.manager.heap timer).nxtExpireTime
              state := (periods.life.manager.heap timer).fiber.map periods.state }) ++
            periods.deliveries }
  | .resume fiber state =>
      if periods.state fiber ≠ .term ∧ periods.state fiber ≠ .except ∧ state ≠ .init then
        some { periods with state := Function.update periods.state fiber state }
      else none

def initial (periods : Periods Fiber) : Prop :=
  Lifecycle.initial periods.life ∧ periods.deliveries = []

@[reducible] def machine (Fiber : Type) [DecidableEq Fiber] :
    Machine (Periods Fiber) (PeriodsAction Fiber) where
  initial := initial
  step := step

/-- A LOOP timer with a positive interval. -/
def Periodic (periods : Periods Fiber) (timer : Nat) : Prop :=
  (periods.life.manager.heap timer).type = .loop ∧
    0 < (periods.life.manager.heap timer).interval

/-- How often the timer was delivered up to a time. -/
def deliveredUntil (periods : Periods Fiber) (timer : Nat) (time : UInt64) : Nat :=
  periods.deliveries.countP fun delivery =>
    delivery.timer == timer && decide (delivery.now ≤ time)

/-- A fiber that a Processer may not resume. -/
def Ended (state : Option FiberState) : Prop :=
  state = some .term ∨ state = some .except

/-- What LOOP timers promise. -/
structure Regular (periods : Periods Fiber) : Prop where
  ordered : OrderedSet.Sorted (before periods.life.manager.heap) periods.life.manager.timers
  moved : ∀ delivery ∈ periods.deliveries, periods.Periodic delivery.timer →
    delivery.before.toNat + (periods.life.manager.heap delivery.timer).interval.toNat ≤
      delivery.after.toNat
  counted : ∀ timer time, periods.Periodic timer →
    periods.deliveredUntil timer time ≤
      (time.toNat - (periods.addedAt timer).toNat) /
        (periods.life.manager.heap timer).interval.toNat
  resumable : periods.deliveries.Pairwise fun later earlier =>
    periods.Periodic later.timer → later.timer = earlier.timer → ¬Ended later.state

/-- An expiry check that finds no periodic timer expired. -/
def Quiet (periods : Periods Fiber) : PeriodsAction Fiber → Prop
  | .getExpiredTasks now => ∀ timer ∈ periods.life.manager.timers, periods.Periodic timer →
      now < (periods.life.manager.heap timer).nxtExpireTime
  | _ => True

/-! ## Which runs are regular -/

/-- What holds in every state: the timers are in order, and no delivery has moved its timer. -/
structure Sound (periods : Periods Fiber) : Prop where
  life : Lifecycle.Inv periods.life
  started : ∀ delivery ∈ periods.deliveries,
    (periods.life.manager.heap delivery.timer).started = true
  still : ∀ delivery ∈ periods.deliveries, delivery.after = delivery.before

/-- What no call changes about a timer that was added. -/
structure SameTimer (timer next : Timer Fiber) : Prop where
  type : next.type = timer.type
  interval : next.interval = timer.interval
  started : next.started = timer.started
  nxtExpireTime : next.nxtExpireTime = timer.nxtExpireTime

theorem SameTimer.refl (timer : Timer Fiber) : SameTimer timer timer :=
  ⟨rfl, rfl, rfl, rfl⟩

theorem cancel_same {manager next : TimerManager Fiber} {timer : Nat} {result : Bool}
    (answered : manager.cancel timer = some (next, result)) (other : Nat) :
    SameTimer (manager.heap other) (next.heap other) := by
  unfold TimerManager.cancel at answered
  simp only at answered
  split at answered
  · cases answered
  · split at answered
    · cases answered
      exact .refl _
    · split at answered
      · rcases Option.map_eq_some_iff.mp answered with ⟨position, _, is_next⟩
        cases is_next
        simp only
        rcases eq_or_ne other timer with rfl | different
        · rw [Function.update_self]
          exact ⟨rfl, rfl, rfl, rfl⟩
        · rw [Function.update_of_ne different]
          exact .refl _
      · cases answered
        exact .refl _

theorem getExpiredTasks_same {life : Lifecycle Fiber} (inv : Lifecycle.Inv life) (now : UInt64)
    (timer : Nat) :
    SameTimer (life.manager.heap timer) ((life.manager.getExpiredTasks now).1.heap timer) := by
  rw [(getExpiredTasks_spec life.manager now inv.sorted).2.1 timer]
  split
  · exact ⟨rfl, rfl, rfl, rfl⟩
  · exact .refl _

theorem step_same {life next : Lifecycle Fiber} {call : Call Fiber}
    (inv : Lifecycle.Inv life) (taken : life.step call = some next) {timer : Nat}
    (started : (life.manager.heap timer).started = true) :
    SameTimer (life.manager.heap timer) (next.manager.heap timer) := by
  cases call with
  | addTimer other task type =>
      simp only [Lifecycle.step] at taken
      split at taken
      · rename_i fresh
        rw [addTimer_eq task type fresh] at taken
        cases taken
        have different : timer ≠ other := by
          rintro rfl
          rw [fresh] at started
          cases started
        simp only
        rw [Function.update_of_ne different]
        exact .refl _
      · cases taken
  | cancel other =>
      simp only [Lifecycle.step] at taken
      split at taken
      · rcases Option.map_eq_some_iff.mp taken with ⟨answer, answered, is_next⟩
        cases is_next
        exact cancel_same answered timer
      · cases taken
  | getExpiredTasks now =>
      simp only [Lifecycle.step] at taken
      split at taken
      · cases taken
        exact getExpiredTasks_same inv now timer
      · cases taken

/-- No periodic timer has been delivered. -/
def Clean (periods : Periods Fiber) : Prop :=
  ∀ delivery ∈ periods.deliveries, ¬periods.Periodic delivery.timer

theorem sound_of_initial {periods : Periods Fiber} (starts : initial periods) :
    Sound periods where
  life := Lifecycle.Inv.of_initial starts.1
  started := by simp [starts.2]
  still := by simp [starts.2]

theorem clean_of_initial {periods : Periods Fiber} (starts : initial periods) :
    Clean periods := by
  simp [Clean, starts.2]

theorem regular_iff_clean {periods : Periods Fiber} (sound : Sound periods) :
    Regular periods ↔ Clean periods := by
  constructor
  · intro regular delivery member periodic
    have moved := regular.moved delivery member periodic
    have positive := UInt64.lt_iff_toNat_lt.mp periodic.2
    rw [sound.still delivery member] at moved
    simp at positive
    omega
  · intro clean
    refine ⟨sound.life.sorted, fun delivery member periodic =>
      absurd periodic (clean delivery member), fun timer time periodic => ?_, ?_⟩
    · have never : periods.deliveredUntil timer time = 0 := by
        apply List.countP_eq_zero.mpr
        intro delivery member
        simp only [Bool.and_eq_true, beq_iff_eq, not_and]
        rintro rfl
        exact absurd periodic (clean delivery member)
      rw [never]
      exact Nat.zero_le _
    · apply List.pairwise_of_forall_mem_list
      intro later member earlier _ periodic
      exact absurd periodic (clean later member)

theorem periodic_iff_of_same {periods next : Periods Fiber} {timer : Nat}
    (same : SameTimer (periods.life.manager.heap timer) (next.life.manager.heap timer)) :
    next.Periodic timer ↔ periods.Periodic timer := by
  rw [Periodic, Periodic, same.type, same.interval]

/-- A call that delivers nothing. -/
theorem kept_of_call {periods next : Periods Fiber} {call : Call Fiber}
    (sound : Sound periods) (taken : periods.life.step call = some next.life)
    (deliveries : next.deliveries = periods.deliveries) :
    Sound next ∧ (Clean next ↔ Clean periods) := by
  have same : ∀ delivery ∈ periods.deliveries,
      SameTimer (periods.life.manager.heap delivery.timer)
        (next.life.manager.heap delivery.timer) :=
    fun delivery member => step_same sound.life taken (sound.started delivery member)
  refine ⟨⟨sound.life.step taken, ?_, ?_⟩, ?_⟩
  · intro delivery member
    rw [deliveries] at member
    rw [(same delivery member).started]
    exact sound.started delivery member
  · rw [deliveries]
    exact sound.still
  · rw [Clean, Clean, deliveries]
    exact forall₂_congr fun delivery member =>
      not_congr (periodic_iff_of_same (same delivery member))

theorem kept_getExpiredTasks [DecidableEq Fiber] {periods next : Periods Fiber} {now : UInt64}
    (sound : Sound periods) (taken : periods.step (.getExpiredTasks now) = some next) :
    Sound next ∧ (Clean next ↔ Clean periods ∧ Quiet periods (.getExpiredTasks now)) := by
  rcases Option.map_eq_some_iff.mp taken with ⟨life, checked, rfl⟩
  have same := fun timer => @step_same _ _ _ _ sound.life checked timer
  have expired_iff := fun timer => @mem_expiredTimers _ periods.life.manager now
    sound.life.sorted timer
  have expired_started : ∀ timer ∈ periods.life.manager.expiredTimers now,
      (periods.life.manager.heap timer).started = true :=
    fun timer expired => ((sound.life.member timer).mp ((expired_iff timer).mp expired).1).1
  have rest := @kept_of_call _ periods { periods with life } _ sound checked rfl
  refine ⟨⟨rest.1.life, ?_, ?_⟩, ?_⟩
  · intro delivery member
    rcases List.mem_append.mp member with new | old
    · rcases List.mem_map.mp new with ⟨timer, expired, rfl⟩
      simp only
      rw [(same timer (expired_started timer expired)).started]
      exact expired_started timer expired
    · exact rest.1.started delivery old
  · intro delivery member
    rcases List.mem_append.mp member with new | old
    · rcases List.mem_map.mp new with ⟨timer, expired, rfl⟩
      exact (same timer (expired_started timer expired)).nxtExpireTime
    · exact sound.still delivery old
  · have quiet_iff : Quiet periods (.getExpiredTasks now) ↔
        ∀ timer ∈ periods.life.manager.expiredTimers now, ¬periods.Periodic timer := by
      simp only [Quiet, expired_iff, expired, Timer.new_now, decide_eq_true_eq, and_imp,
        UInt64.lt_iff_toNat_lt, UInt64.le_iff_toNat_le]
      constructor
      · intro quiet timer member expires periodic
        exact absurd (quiet timer member periodic) (Nat.not_lt.mpr expires)
      · intro never timer member periodic
        exact Nat.lt_of_not_le fun expires => never timer member expires periodic
    rw [quiet_iff, ← rest.2]
    simp only [Clean, List.forall_mem_append, List.forall_mem_map]
    rw [and_comm]
    refine and_congr Iff.rfl (forall₂_congr fun timer expired => ?_)
    exact not_congr (periodic_iff_of_same (same timer (expired_started timer expired)))

theorem kept_step [DecidableEq Fiber] {periods next : Periods Fiber}
    {action : PeriodsAction Fiber} (sound : Sound periods)
    (taken : periods.step action = some next) :
    Sound next ∧ (Clean next ↔ Clean periods ∧ Quiet periods action) := by
  cases action with
  | getExpiredTasks now => exact kept_getExpiredTasks sound taken
  | addTimer timer task type now =>
      simp only [step] at taken
      split at taken
      · rcases Option.map_eq_some_iff.mp taken with ⟨life, added, rfl⟩
        have kept := @kept_of_call _ periods
          { periods with life, addedAt := Function.update periods.addedAt timer now } _
          sound added rfl
        exact ⟨kept.1, kept.2.trans (and_iff_left trivial).symm⟩
      · cases taken
  | cancel timer =>
      rcases Option.map_eq_some_iff.mp taken with ⟨life, cancelled, rfl⟩
      have kept := @kept_of_call _ periods { periods with life } _ sound cancelled rfl
      exact ⟨kept.1, kept.2.trans (and_iff_left trivial).symm⟩
  | resume fiber state =>
      simp only [step] at taken
      split at taken
      · cases taken
        exact ⟨⟨sound.life, sound.started, sound.still⟩, (and_iff_left trivial).symm⟩
      · cases taken

/-- LOOP timers keep their promise in exactly the runs in which no expiry check finds one of
them expired. -/
theorem regular_iff [DecidableEq Fiber] {start final : Periods Fiber}
    {actions : List (PeriodsAction Fiber)} (starts : initial start)
    (executed : (machine Fiber).run start actions = some final) :
    Regular final ↔ (machine Fiber).Meets Quiet start actions := by
  rcases @Machine.meets_iff _ _ (machine Fiber) Quiet Sound Clean kept_step _ _ actions
    (sound_of_initial starts) executed with ⟨sound, clean⟩
  rw [regular_iff_clean sound, clean]
  exact and_iff_right (clean_of_initial starts)

/-- Constructed timers of two seconds and new fibers. -/
def twoSeconds : Periods Nat where
  life := { manager := { heap := fun _ => Timer.new 2 0 0 0 0, timers := [] }
            clock := 0, history := [] }
  addedAt := fun _ => 0
  state := fun _ => .init
  deliveries := []

theorem twoSeconds_initial : initial twoSeconds :=
  ⟨⟨fun _ => Timer.new_fresh 2 0 0 0 0, rfl, rfl⟩, rfl⟩

/-- Before its first expiry the timer is regular. -/
theorem regular_iff_early :
    ∃ final, (machine Nat).run twoSeconds
        [.addTimer 0 7 .loop 0, .getExpiredTasks 1999] = some final ∧ Regular final := by
  have added : ((machine Nat).step twoSeconds (.addTimer 0 7 .loop 0)).map (fun next =>
      (next.life.manager.timers, (next.life.manager.heap 0).nxtExpireTime)) =
      some ([0], 2000) := by decide
  have runs : ((machine Nat).run twoSeconds
      [.addTimer 0 7 .loop 0, .getExpiredTasks 1999]).isSome = true := by decide
  rcases Option.isSome_iff_exists.mp runs with ⟨final, executed⟩
  refine ⟨final, executed, (regular_iff twoSeconds_initial executed).mpr
    ⟨trivial, fun next taken => ⟨?_, fun _ _ => trivial⟩⟩⟩
  rw [taken] at added
  simp only [Option.map_some, Option.some.injEq, Prod.mk.injEq] at added
  intro timer member _
  rw [added.1, List.mem_singleton] at member
  rw [member, added.2]
  decide

/-- Two checks at two seconds deliver the timer twice, the second time with the fiber that
has ended in between. -/
theorem loop_timer_delivered_twice :
    ∃ periods, (machine Nat).Reachable periods ∧ periods.Periodic 0 ∧
      periods.deliveredUntil 0 2000 = 2 ∧
      periods.deliveries = [⟨0, 2000, 2000, 2000, some .term⟩, ⟨0, 2000, 2000, 2000, some .init⟩] ∧
      ¬Regular periods := by
  rcases Machine.exists_reachable_of_run (machine Nat) twoSeconds_initial
    [.addTimer 0 7 .loop 0, .getExpiredTasks 2000, .resume 7 .term, .getExpiredTasks 2000]
    (fun periods => decide ((periods.life.manager.heap 0).type = .loop) &&
      decide ((periods.life.manager.heap 0).interval = 2000) &&
      decide (periods.deliveries =
        [⟨0, 2000, 2000, 2000, some .term⟩, ⟨0, 2000, 2000, 2000, some .init⟩])) (by decide)
    with ⟨periods, reachable, passes⟩
  simp only [Bool.and_eq_true, decide_eq_true_eq] at passes
  rcases passes with ⟨⟨loop, interval⟩, deliveries⟩
  have periodic : periods.Periodic 0 := ⟨loop, by rw [interval]; decide⟩
  refine ⟨periods, reachable, periodic, by rw [deliveredUntil, deliveries]; rfl, deliveries,
    fun regular => ?_⟩
  have moved := regular.moved ⟨0, 2000, 2000, 2000, some .term⟩ (by simp [deliveries]) periodic
  rw [interval] at moved
  exact absurd moved (by decide)

end Periods

end TimerManager

end FiberNet
