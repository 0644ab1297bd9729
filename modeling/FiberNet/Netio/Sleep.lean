import FiberNet.Foundation.Machine
import FiberNet.Netio.Hook
import Mathlib.Algebra.Group.Nat.Defs

/-! # Hooked sleeping

`sleep`, `usleep` and `nanosleep` give the fiber to a timer and hold. Between them and the run
queues stand the Reactor's checks, other timers and the clock. The callbacks of the other timers
do not sleep.
-/

namespace FiberNet

/-- The times of `nanosleep` are any values of `time_t`. -/
inductive SleepCall
  | sleep (seconds : UInt32)
  | usleep (usec : UInt32)
  | nanosleep (tv_sec tv_nsec : Int)

namespace SleepCall

/-- `nanosleep` refuses what is out of range. -/
def accepted : SleepCall → Bool
  | nanosleep tv_sec tv_nsec =>
      !(tv_nsec < 0 || tv_nsec > 1000000000 || tv_sec < 0 || tv_sec > 1000000000)
  | _ => true

/-- `Timer(sec,msec)` of the call. -/
def timer {Task : Type} (now : UInt64) : SleepCall → Timer Task
  | sleep seconds => .new seconds.toUInt64 0 0 0 now
  | usleep usec => .new 0 (usec / 1000).toUInt64 0 0 now
  | nanosleep tv_sec tv_nsec =>
      .new (UInt64.ofNat tv_sec.toNat) (UInt64.ofNat (tv_nsec / 1000000).toNat) 0 0 now

/-- What is asked for, in nanoseconds. -/
def duration : SleepCall → Nat
  | sleep seconds => seconds.toNat * 1000000000
  | usleep usec => usec.toNat * 1000
  | nanosleep tv_sec tv_nsec => tv_sec.toNat * 1000000000 + tv_nsec.toNat

end SleepCall

/-- A call that sleeps, with the address of its timer and the time when it began. -/
structure Nap where
  timer : Nat
  began : Nat
  call : SleepCall

/-- Where a fiber is, named by its next shared access. -/
inductive SleepPosition
  | awake
  | addTimer (nap : Nap)
  | yield (nap : Nap)
  | held (nap : Nap)

namespace SleepPosition

def nap : SleepPosition → Option Nap
  | awake => none
  | addTimer nap | yield nap | held nap => some nap

/-- With the timer added. -/
def asleep : SleepPosition → Option Nap
  | awake | addTimer _ => none
  | yield nap | held nap => some nap

end SleepPosition

/-- `clock` counts nanoseconds. `wakes` records the naps that are over and when. -/
structure Sleepers (Fiber : Type) where
  clock : Nat
  timers : TimerManager (Task Fiber)
  fresh : Nat
  ready : List (Task Fiber)
  position : Fiber → SleepPosition
  wakes : List (Nap × Nat)

/-- `arm` is a timer with a callback, and `cancel` cancels such. -/
inductive SleepAction (Fiber : Type)
  | tick (later : Nat)
  | call (fiber : Fiber) (call : SleepCall)
  | addTimer (fiber : Fiber)
  | yieldToHold (fiber : Fiber)
  | check
  | resume (fiber : Fiber)
  | arm (sec msec : UInt64) (callback : Nat) (type : TimerType)
  | cancel (timer : Nat)
  | runCallback (callback : Nat)

namespace Sleepers

variable {Fiber : Type}

def start (Fiber : Type) : Sleepers Fiber where
  clock := 0
  timers := { heap := fun _ => {}, timers := [] }
  fresh := 0
  ready := []
  position _ := .awake
  wakes := []

/-- `CLOCK_MONOTONIC` in milliseconds. -/
def getCurrentTime (world : Sleepers Fiber) : UInt64 :=
  UInt64.ofNat (world.clock / 1000000)

/-- A new timer object. -/
def construct (world : Sleepers Fiber) (timer : Timer (Task Fiber)) : Sleepers Fiber :=
  { world with
    timers := { world.timers with
      heap := Function.update world.timers.heap world.fresh timer }
    fresh := world.fresh + 1 }

/-- `getExpiredTasks` of the Reactor, and the run queues that get the fibers. -/
def check (world : Sleepers Fiber) : Sleepers Fiber :=
  let (timers, fibers) := world.timers.getExpiredTasks world.getCurrentTime
  { world with timers, ready := world.ready ++ fibers.filterMap id }

/-- Only what has a callback is cancelled, nobody else has the timer of a sleeper. -/
def cancel (world : Sleepers Fiber) (timer : Nat) : Option (Sleepers Fiber) :=
  match (world.timers.heap timer).fiber with
  | some (.fiber _) => none
  | _ => (world.timers.cancel timer).map fun answer => { world with timers := answer.1 }

/-- A timer that was just constructed gets its callback, which does not sleep. `Timer::setTask`
makes a fiber for it, and a LOOP timer delivers that fiber at every check. -/
def arm (world : Sleepers Fiber) (sec msec : UInt64) (callback : Nat) (type : TimerType) :
    Option (Sleepers Fiber) :=
  let made := world.construct (.new sec msec 0 0 world.getCurrentTime)
  (made.timers.addTimer world.fresh (.timeout callback) type).map fun answer =>
    { made with timers := answer.1 }

section

variable [DecidableEq Fiber]

def goTo (world : Sleepers Fiber) (fiber : Fiber) (position : SleepPosition) :
    Sleepers Fiber :=
  { world with position := Function.update world.position fiber position }

/-- A call out of range returns at once. -/
def call (world : Sleepers Fiber) (fiber : Fiber) (call : SleepCall) :
    Option (Sleepers Fiber) :=
  match world.position fiber with
  | .awake =>
      if call.accepted then
        some ((world.construct (call.timer world.getCurrentTime)).goTo fiber
          (.addTimer ⟨world.fresh, world.clock, call⟩))
      else some world
  | _ => none

def addTimer (world : Sleepers Fiber) (fiber : Fiber) : Option (Sleepers Fiber) :=
  match world.position fiber with
  | .addTimer nap =>
      (world.timers.addTimer nap.timer (.fiber fiber) .single).map fun answer =>
        { world with timers := answer.1 }.goTo fiber (.yield nap)
  | _ => none

def yieldToHold (world : Sleepers Fiber) (fiber : Fiber) : Option (Sleepers Fiber) :=
  match world.position fiber with
  | .yield nap => some (world.goTo fiber (.held nap))
  | _ => none

/-- A Processer runs the queued fiber. It does so only after the fiber has switched out. -/
def resume (world : Sleepers Fiber) (fiber : Fiber) : Option (Sleepers Fiber) :=
  match world.position fiber with
  | .held nap =>
      if world.ready.contains (.fiber fiber) then
        some ({ world with
          ready := world.ready.erase (.fiber fiber)
          wakes := world.wakes ++ [(nap, world.clock)] }.goTo fiber .awake)
      else none
  | _ => none

/-- The clock does not run for 292 years. -/
def step (world : Sleepers Fiber) : SleepAction Fiber → Option (Sleepers Fiber)
  | .tick later =>
      if world.clock ≤ later ∧ later < 2 ^ 63 then some { world with clock := later } else none
  | .call fiber call => world.call fiber call
  | .addTimer fiber => world.addTimer fiber
  | .yieldToHold fiber => world.yieldToHold fiber
  | .check => some world.check
  | .resume fiber => world.resume fiber
  | .arm sec msec callback type => world.arm sec msec callback type
  | .cancel timer => world.cancel timer
  | .runCallback callback =>
      if world.ready.contains (.timeout callback) then
        some { world with ready := world.ready.erase (.timeout callback) }
      else none

def machine (Fiber : Type) [DecidableEq Fiber] :
    Machine (Sleepers Fiber) (SleepAction Fiber) where
  initial world := world = start Fiber
  step := step

end

/-! ## What is kept -/

/-- A fiber that sleeps is with its timer or, once, in a run queue. Nobody else is in one, and
nobody has been woken two milliseconds before the time. -/
structure Rests [DecidableEq Fiber] (world : Sleepers Fiber) : Prop where
  sleeps : ∀ {fiber nap}, (world.position fiber).asleep = some nap →
    nap.timer ∈ world.timers.timers ∧ world.ready.count (.fiber fiber) = 0 ∨
      nap.timer ∉ world.timers.timers ∧ world.ready.count (.fiber fiber) = 1
  others : ∀ {fiber}, (world.position fiber).asleep = none →
    world.ready.count (.fiber fiber) = 0
  wakes : ∀ {nap ended}, (nap, ended) ∈ world.wakes →
    nap.began + nap.call.duration < ended + 2000000

end Sleepers

/-! ## The times -/

namespace SleepCall

theorem nxtExpireTime_new {Task : Type} {sec msec now : UInt64}
    (bound : msec.toNat + sec.toNat * 1000 + now.toNat < 2 ^ 64) :
    (Timer.new sec msec 0 0 now : Timer Task).nxtExpireTime.toNat =
      msec.toNat + sec.toNat * 1000 + now.toNat := by
  have fraction : msec + (0 + 0 / 1000) / 1000 = msec := UInt64.add_zero msec
  have thousand : (1000 : UInt64).toNat = 1000 := rfl
  simp only [Timer.new, fraction, UInt64.toNat_add, UInt64.toNat_mul, thousand]
  omega

/-- The timer is due after the whole milliseconds of both. -/
theorem nxtExpireTime_timer {Task : Type} {call : SleepCall} (accepted : call.accepted = true)
    {clock : Nat} (bound : clock < 2 ^ 63) :
    (call.timer (UInt64.ofNat (clock / 1000000)) : Timer Task).nxtExpireTime.toNat =
      call.duration / 1000000 + clock / 1000000 := by
  have now : (UInt64.ofNat (clock / 1000000)).toNat = clock / 1000000 := by
    rw [UInt64.toNat_ofNat', Nat.mod_eq_of_lt (by omega)]
  cases call with
  | sleep seconds =>
      have small := seconds.toNat_lt
      have sec : seconds.toUInt64.toNat = seconds.toNat := UInt32.toNat_toUInt64 seconds
      have msec : (0 : UInt64).toNat = 0 := rfl
      rw [timer, nxtExpireTime_new (by omega), sec, msec, now, duration]
      omega
  | usleep usec =>
      have small := usec.toNat_lt
      have sec : (0 : UInt64).toNat = 0 := rfl
      have msec : (usec / 1000).toUInt64.toNat = usec.toNat / 1000 :=
        (UInt32.toNat_toUInt64 _).trans (UInt32.toNat_div usec 1000)
      rw [timer, nxtExpireTime_new (by omega), sec, msec, now, duration]
      omega
  | nanosleep tv_sec tv_nsec =>
      have range : ¬(tv_nsec < 0 ∨ tv_nsec > 1000000000 ∨ tv_sec < 0 ∨ tv_sec > 1000000000) := by
        intro outside
        simp only [SleepCall.accepted, Bool.not_eq_eq_eq_not, Bool.not_true, Bool.or_eq_false_iff,
          decide_eq_false_iff_not] at accepted
        omega
      have sec : (UInt64.ofNat tv_sec.toNat).toNat = tv_sec.toNat := by
        rw [UInt64.toNat_ofNat', Nat.mod_eq_of_lt (by omega)]
      have msec : (UInt64.ofNat (tv_nsec / 1000000).toNat).toNat = tv_nsec.toNat / 1000000 := by
        rw [UInt64.toNat_ofNat', Nat.mod_eq_of_lt (by omega)]
        omega
      rw [timer, nxtExpireTime_new (by omega), sec, msec, now, duration]
      omega

theorem fresh_timer {Task : Type} (call : SleepCall) (now : UInt64) :
    (call.timer now : Timer Task).Fresh := by
  cases call with
  | sleep seconds => exact Timer.new_fresh _ _ _ _ _
  | usleep usec => exact Timer.new_fresh _ _ _ _ _
  | nanosleep tv_sec tv_nsec => exact Timer.new_fresh _ _ _ _ _

end SleepCall

namespace Sleepers

open TimerManager

variable {Fiber : Type} {world next : Sleepers Fiber}

theorem toNat_getCurrentTime (bound : world.clock < 2 ^ 63) :
    world.getCurrentTime.toNat = world.clock / 1000000 := by
  rw [getCurrentTime, UInt64.toNat_ofNat', Nat.mod_eq_of_lt (by omega)]

/-- A timer in the set. -/
structure Armed (timer : Timer (Task Fiber)) : Prop where
  hasManager : timer.hasManager = true
  notCancelled : timer.cancelled = false
  started : timer.started = true
  hasFiber : timer.fiber.isSome = true

variable [DecidableEq Fiber]

/-- Where a sleeper is. -/
def Placed (world : Sleepers Fiber) (fiber : Fiber) (nap : Nap) : Prop :=
  nap.timer ∈ world.timers.timers ∧
      (world.timers.heap nap.timer).fiber = some (.fiber fiber) ∧
      world.ready.count (.fiber fiber) = 0 ∨
    nap.timer ∉ world.timers.timers ∧ world.ready.count (.fiber fiber) = 1 ∧
      (world.timers.heap nap.timer).nxtExpireTime.toNat ≤ world.clock / 1000000

structure Sound (world : Sleepers Fiber) : Prop where
  clock : world.clock < 2 ^ 63
  sorted : OrderedSet.Sorted (before world.timers.heap) world.timers.timers
  made : ∀ {timer}, timer ∈ world.timers.timers → timer < world.fresh
  armed : ∀ {timer}, timer ∈ world.timers.timers → Armed (world.timers.heap timer)
  sleeper : ∀ {timer fiber}, timer ∈ world.timers.timers →
    (world.timers.heap timer).fiber = some (.fiber fiber) →
      ∃ nap, (world.position fiber).asleep = some nap ∧ nap.timer = timer
  nap : ∀ {fiber nap}, (world.position fiber).nap = some nap →
    nap.timer < world.fresh ∧ nap.began ≤ world.clock ∧
      (world.timers.heap nap.timer).type = .single ∧
      (world.timers.heap nap.timer).nxtExpireTime.toNat =
        nap.call.duration / 1000000 + nap.began / 1000000
  own : ∀ {fiber other nap another}, (world.position fiber).nap = some nap →
    (world.position other).nap = some another → nap.timer = another.timer → fiber = other
  idle : ∀ {fiber nap}, world.position fiber = .addTimer nap →
    (world.timers.heap nap.timer).Fresh
  sleeps : ∀ {fiber nap}, (world.position fiber).asleep = some nap → world.Placed fiber nap
  others : ∀ {fiber}, (world.position fiber).asleep = none →
    world.ready.count (.fiber fiber) = 0
  wakes : ∀ {nap ended}, (nap, ended) ∈ world.wakes →
    nap.began + nap.call.duration < ended + 2000000

theorem sound_start : (start Fiber).Sound where
  clock := Nat.two_pow_pos 63
  sorted := List.Pairwise.nil
  made member := by cases member
  armed member := by cases member
  sleeper member := by cases member
  nap found := by cases found
  own found := by cases found
  idle found := by cases found
  sleeps found := by cases found
  others _ := rfl
  wakes member := by cases member

theorem Sound.rests (sound : world.Sound) : world.Rests where
  sleeps asleep := (sound.sleeps asleep).imp (fun here => ⟨here.1, here.2.2⟩)
    fun there => ⟨there.1, there.2.1⟩
  others := sound.others
  wakes := sound.wakes

omit [DecidableEq Fiber] in
theorem nap_of_asleep {position : SleepPosition} {nap : Nap}
    (asleep : position.asleep = some nap) : position.nap = some nap := by
  cases position with
  | awake => cases asleep
  | addTimer nap => cases asleep
  | yield nap => exact asleep
  | held nap => exact asleep

theorem Sound.tick (sound : world.Sound) {later : Nat} (runs : world.clock ≤ later)
    (bound : later < 2 ^ 63) : ({ world with clock := later } : Sleepers Fiber).Sound := by
  refine { sound with clock := bound, nap := ?_, sleeps := ?_ }
  · intro fiber nap found
    rcases sound.nap found with ⟨made, began, rest⟩
    exact ⟨made, began.trans runs, rest⟩
  · intro fiber nap asleep
    rcases sound.sleeps asleep with here | ⟨gone, once, due⟩
    · exact .inl here
    · exact .inr ⟨gone, once, due.trans (Nat.div_le_div_right runs)⟩

theorem Sound.construct (sound : world.Sound) {timer : Timer (Task Fiber)} :
    (world.construct timer).Sound := by
  have old : ∀ {address}, address < world.fresh →
      (world.construct timer).timers.heap address = world.timers.heap address :=
    fun made => Function.update_of_ne (Nat.ne_of_lt made) _ _
  constructor
  · exact sound.clock
  · apply sound.sorted.imp_of_mem
    intro first second member member' ordered
    rw [before_iff, old (sound.made member), old (sound.made member')]
    exact (before_iff _ _ _).mp ordered
  · exact fun member => Nat.lt_succ_of_lt (sound.made member)
  · intro address member
    rw [old (sound.made member)]
    exact sound.armed member
  · intro address fiber member holds
    rw [old (sound.made member)] at holds
    exact sound.sleeper member holds
  · intro fiber nap found
    rcases sound.nap found with ⟨made, rest⟩
    rw [old made]
    exact ⟨Nat.lt_succ_of_lt made, rest⟩
  · exact sound.own
  · intro fiber nap found
    rw [old (sound.nap (congrArg SleepPosition.nap found)).1]
    exact sound.idle found
  · intro fiber nap asleep
    have made := (sound.nap (nap_of_asleep asleep)).1
    rw [Placed, old made]
    exact sound.sleeps asleep
  · exact sound.others
  · exact sound.wakes

/-! ### A timer joins the set -/

/-- The world with a timer that has got its task. -/
def inserted (world : Sleepers Fiber) (timer : Nat) (task : Task Fiber) (type : TimerType)
    (position : Fiber → SleepPosition) : Sleepers Fiber :=
  { world with
    timers :=
      { heap := Function.update world.timers.heap timer
          (TimerManager.armed (world.timers.heap timer) task type)
        timers := OrderedSet.insert (before world.timers.heap) timer world.timers.timers }
    position }

/-- The fiber among the sleepers whose timer it is is the task. -/
structure Inserts (world : Sleepers Fiber) (timer : Nat) (task : Task Fiber) (type : TimerType)
    (position : Fiber → SleepPosition) : Prop where
  made : timer < world.fresh
  fresh : (world.timers.heap timer).Fresh
  naps : ∀ fiber, (position fiber).nap = (world.position fiber).nap
  mine : ∀ fiber, task = .fiber fiber → type = .single ∧ ∃ nap,
    world.position fiber = .addTimer nap ∧ nap.timer = timer ∧ position fiber = .yield nap
  others : ∀ fiber, task ≠ .fiber fiber → position fiber = world.position fiber ∧
    ∀ nap, (world.position fiber).nap = some nap → nap.timer ≠ timer

namespace Inserts

variable {timer : Nat} {task : Task Fiber} {type : TimerType}
  {position : Fiber → SleepPosition}

omit [DecidableEq Fiber] in
theorem new : (world.inserted timer task type position).timers.heap timer =
    TimerManager.armed (world.timers.heap timer) task type := Function.update_self _ _ _

omit [DecidableEq Fiber] in
theorem old {address : Nat} (different : address ≠ timer) :
    (world.inserted timer task type position).timers.heap address =
      world.timers.heap address := Function.update_of_ne different _ _

omit [DecidableEq Fiber] in
theorem members {address : Nat} :
    address ∈ (world.inserted timer task type position).timers.timers ↔
      address = timer ∨ address ∈ world.timers.timers := OrderedSet.mem_insert

theorem sleeper (inserts : world.Inserts timer task type position) (sound : world.Sound)
    {address : Nat} {fiber : Fiber}
    (member : address ∈ (world.inserted timer task type position).timers.timers)
    (holds : ((world.inserted timer task type position).timers.heap address).fiber =
      some (.fiber fiber)) :
    ∃ nap, (position fiber).asleep = some nap ∧ nap.timer = address := by
  by_cases equal : address = timer
  · rw [equal, new] at holds
    cases holds
    rcases (inserts.mine fiber rfl).2 with ⟨nap, _, same, moved⟩
    refine ⟨nap, ?_, same.trans equal.symm⟩
    rw [moved]
    rfl
  · rw [old equal] at holds
    rcases sound.sleeper ((members.mp member).resolve_left equal) holds with
      ⟨nap, asleep, same⟩
    refine ⟨nap, ?_, same⟩
    by_cases own : task = .fiber fiber
    · rcases (inserts.mine fiber own).2 with ⟨_, before, _⟩
      rw [before] at asleep
      cases asleep
    · rw [(inserts.others fiber own).1]
      exact asleep

theorem nap (inserts : world.Inserts timer task type position) (sound : world.Sound)
    {fiber : Fiber} {nap : Nap} (found : (position fiber).nap = some nap) :
    nap.timer < world.fresh ∧ nap.began ≤ world.clock ∧
      ((world.inserted timer task type position).timers.heap nap.timer).type = .single ∧
      ((world.inserted timer task type position).timers.heap
        nap.timer).nxtExpireTime.toNat = nap.call.duration / 1000000 + nap.began / 1000000 := by
  have found := (inserts.naps fiber).symm.trans found
  rcases sound.nap found with ⟨bound, began, single, due⟩
  refine ⟨bound, began, ?_⟩
  by_cases equal : nap.timer = timer
  · have own : task = .fiber fiber := by
      by_contra other
      exact (inserts.others fiber other).2 nap found equal
    rw [equal] at single due ⊢
    rw [new, TimerManager.armed, (inserts.mine fiber own).1]
    exact ⟨single, due⟩
  · rw [old equal]
    exact ⟨single, due⟩

theorem idle (inserts : world.Inserts timer task type position) (sound : world.Sound)
    {fiber : Fiber} {nap : Nap} (found : position fiber = .addTimer nap) :
    ((world.inserted timer task type position).timers.heap nap.timer).Fresh := by
  by_cases own : task = .fiber fiber
  · rcases (inserts.mine fiber own).2 with ⟨_, _, _, moved⟩
    cases moved.symm.trans found
  · have before : world.position fiber = .addTimer nap :=
      (inserts.others fiber own).1.symm.trans found
    rw [old ((inserts.others fiber own).2 nap (congrArg SleepPosition.nap before))]
    exact sound.idle before

theorem sleeps (inserts : world.Inserts timer task type position) (sound : world.Sound)
    {fiber : Fiber} {nap : Nap} (asleep : (position fiber).asleep = some nap) :
    (world.inserted timer task type position).Placed fiber nap := by
  by_cases own : task = .fiber fiber
  · rcases (inserts.mine fiber own).2 with ⟨_, before, same, moved⟩
    cases (congrArg SleepPosition.asleep moved).symm.trans asleep
    refine .inl ⟨members.mpr (.inl same), ?_, ?_⟩
    · rw [same, new, ← own]
      rfl
    · apply sound.others
      rw [before]
      rfl
  · have asleep : (world.position fiber).asleep = some nap :=
      (inserts.others fiber own).1 ▸ asleep
    have different := (inserts.others fiber own).2 nap (nap_of_asleep asleep)
    have member : nap.timer ∈ (world.inserted timer task type position).timers.timers ↔
        nap.timer ∈ world.timers.timers := members.trans (or_iff_right different)
    rw [Placed, old different, member]
    exact sound.sleeps asleep

end Inserts

theorem Sound.insert (sound : world.Sound) {timer : Nat} {task : Task Fiber} {type : TimerType}
    {position : Fiber → SleepPosition} (inserts : world.Inserts timer task type position) :
    (world.inserted timer task type position).Sound where
  clock := sound.clock
  sorted := by
    have order := before_update world.timers.heap timer
      (TimerManager.armed (world.timers.heap timer) task type) rfl
    rw [inserted, order]
    exact OrderedSet.insert_sorted sound.sorted
  made member := by
    rcases Inserts.members.mp member with equal | member
    · exact equal ▸ inserts.made
    · exact sound.made member
  armed := by
    intro address member
    by_cases equal : address = timer
    · rw [equal, Inserts.new]
      exact ⟨rfl, rfl, rfl, rfl⟩
    · rw [Inserts.old equal]
      exact sound.armed ((Inserts.members.mp member).resolve_left equal)
  sleeper member holds := inserts.sleeper sound member holds
  nap found := inserts.nap sound found
  own := by
    intro fiber other nap another found found' same
    exact sound.own ((inserts.naps fiber).symm.trans found)
      ((inserts.naps other).symm.trans found') same
  idle found := inserts.idle sound found
  sleeps asleep := inserts.sleeps sound asleep
  others := by
    intro fiber none
    by_cases own : task = .fiber fiber
    · rcases (inserts.mine fiber own).2 with ⟨_, _, _, moved⟩
      cases (congrArg SleepPosition.asleep moved).symm.trans none
    · apply sound.others
      rw [← (inserts.others fiber own).1]
      exact none
  wakes := sound.wakes

/-! ### The actions -/

/-- The timer of a call, and the fiber on its way to add it. -/
theorem Sound.begin (sound : world.Sound) {fiber : Fiber} {call : SleepCall}
    (awake : world.position fiber = .awake) (accepted : call.accepted = true) :
    ((world.construct (call.timer world.getCurrentTime)).goTo fiber
      (.addTimer ⟨world.fresh, world.clock, call⟩)).Sound := by
  have made : (world.construct (call.timer world.getCurrentTime)).Sound := sound.construct
  have object : (world.construct (call.timer world.getCurrentTime)).timers.heap world.fresh =
      call.timer world.getCurrentTime := Function.update_self _ _ _
  have moved : ∀ other, other ≠ fiber → Function.update world.position fiber
      (.addTimer ⟨world.fresh, world.clock, call⟩) other = world.position other :=
    fun other different => Function.update_of_ne different _ _
  have here : Function.update world.position fiber
      (.addTimer ⟨world.fresh, world.clock, call⟩) fiber =
        .addTimer ⟨world.fresh, world.clock, call⟩ := Function.update_self _ _ _
  have asleep : ∀ other, (Function.update world.position fiber
      (.addTimer ⟨world.fresh, world.clock, call⟩) other).asleep =
        (world.position other).asleep := by
    intro other
    by_cases equal : other = fiber
    · rw [equal, here, awake]
      rfl
    · rw [moved other equal]
  refine { made with sleeper := ?_, nap := ?_, own := ?_, idle := ?_, sleeps := ?_, others := ?_ }
  · intro timer other member holds
    rcases made.sleeper member holds with ⟨nap, found, rest⟩
    exact ⟨nap, (asleep other).trans found, rest⟩
  · intro other nap found
    change (Function.update world.position fiber _ other).nap = some nap at found
    by_cases equal : other = fiber
    · rw [equal, here] at found
      cases found
      refine ⟨Nat.lt_succ_self _, le_rfl, ?_⟩
      change ((world.construct _).timers.heap world.fresh).type = _ ∧
        ((world.construct _).timers.heap world.fresh).nxtExpireTime.toNat = _
      rw [object]
      exact ⟨(SleepCall.fresh_timer call _).type,
        SleepCall.nxtExpireTime_timer accepted sound.clock⟩
    · rw [moved other equal] at found
      exact made.nap found
  · intro first second nap another found found' same
    change (Function.update world.position fiber _ first).nap = some nap at found
    change (Function.update world.position fiber _ second).nap = some another at found'
    by_cases equal : first = fiber
    · by_cases equal' : second = fiber
      · exact equal.trans equal'.symm
      · rw [moved second equal'] at found'
        rw [equal, here] at found
        cases found
        exact absurd (sound.nap found').1 (same ▸ Nat.lt_irrefl _)
    · rw [moved first equal] at found
      by_cases equal' : second = fiber
      · rw [equal', here] at found'
        cases found'
        exact absurd (sound.nap found).1 (same ▸ Nat.lt_irrefl _)
      · rw [moved second equal'] at found'
        exact sound.own found found' same
  · intro other nap found
    change Function.update world.position fiber _ other = .addTimer nap at found
    by_cases equal : other = fiber
    · rw [equal, here] at found
      cases found
      change ((world.construct _).timers.heap world.fresh).Fresh
      rw [object]
      exact SleepCall.fresh_timer call _
    · rw [moved other equal] at found
      exact made.idle found
  · intro other nap found
    exact made.sleeps ((asleep other).symm.trans found)
  · intro other none
    exact made.others ((asleep other).symm.trans none)

theorem Sound.call (sound : world.Sound) {fiber : Fiber} {call : SleepCall}
    (taken : world.call fiber call = some next) : next.Sound := by
  unfold Sleepers.call at taken
  split at taken
  · rename_i awake
    split at taken
    · rename_i accepted
      cases taken
      exact sound.begin awake accepted
    · cases taken
      exact sound
  · cases taken

theorem Sound.addTimer (sound : world.Sound) {fiber : Fiber}
    (taken : world.addTimer fiber = some next) : next.Sound := by
  unfold Sleepers.addTimer at taken
  split at taken
  · rename_i nap found
    have fresh := sound.idle found
    rw [addTimer_eq _ _ fresh.started] at taken
    cases taken
    have here : (world.position fiber).nap = some nap := congrArg SleepPosition.nap found
    have elsewhere : ∀ other, Task.fiber fiber ≠ .fiber other →
        (Function.update world.position fiber (.yield nap)) other = world.position other :=
      fun other different => Function.update_of_ne
        (fun same => different (congrArg Task.fiber same.symm)) _ _
    refine sound.insert ⟨(sound.nap here).1, fresh, ?_, ?_, ?_⟩
    · intro other
      by_cases equal : other = fiber
      · rw [equal, Function.update_self, here]
        rfl
      · rw [Function.update_of_ne equal]
    · intro other same
      cases same
      exact ⟨rfl, nap, found, rfl, Function.update_self _ _ _⟩
    · intro other different
      refine ⟨elsewhere other different, ?_⟩
      intro another found' same
      have equal := sound.own found' here same
      exact different (equal ▸ rfl)
  · cases taken

theorem Sound.yieldToHold (sound : world.Sound) {fiber : Fiber}
    (taken : world.yieldToHold fiber = some next) : next.Sound := by
  unfold Sleepers.yieldToHold at taken
  split at taken
  · rename_i nap found
    cases taken
    have same : ∀ other, (Function.update world.position fiber (.held nap) other).nap =
        (world.position other).nap ∧
          (Function.update world.position fiber (.held nap) other).asleep =
            (world.position other).asleep := by
      intro other
      by_cases equal : other = fiber
      · rw [equal, Function.update_self, found]
        exact ⟨rfl, rfl⟩
      · rw [Function.update_of_ne equal]
        exact ⟨rfl, rfl⟩
    refine { sound with sleeper := ?_, nap := ?_, own := ?_, idle := ?_, sleeps := ?_,
                        others := ?_ }
    · intro timer other member holds
      rcases sound.sleeper member holds with ⟨nap, asleep, rest⟩
      exact ⟨nap, (same other).2.trans asleep, rest⟩
    · intro other nap found
      exact sound.nap ((same other).1.symm.trans found)
    · intro other another nap nap' found found' equal
      exact sound.own ((same other).1.symm.trans found) ((same another).1.symm.trans found') equal
    · intro other nap' found'
      by_cases equal : other = fiber
      · rw [equal] at found'
        cases (Function.update_self fiber _ world.position).symm.trans found'
      · exact sound.idle ((Function.update_of_ne equal _ _).symm.trans found')
    · intro other nap asleep
      exact sound.sleeps ((same other).2.symm.trans asleep)
    · intro other none
      exact sound.others ((same other).2.symm.trans none)
  · cases taken

theorem Sound.arm (sound : world.Sound) {sec msec : UInt64} {callback : Nat} {type : TimerType}
    (taken : world.arm sec msec callback type = some next) : next.Sound := by
  have made : (world.construct (.new sec msec 0 0 world.getCurrentTime)).timers.heap world.fresh =
      .new sec msec 0 0 world.getCurrentTime := Function.update_self _ _ _
  have fresh : ((world.construct (.new sec msec 0 0 world.getCurrentTime)).timers.heap
      world.fresh).Fresh := by
    rw [made]
    exact Timer.new_fresh _ _ _ _ _
  change (TimerManager.addTimer (world.construct _).timers world.fresh _ _).map _ = _ at taken
  rw [addTimer_eq _ _ fresh.started] at taken
  cases taken
  refine sound.construct.insert ⟨Nat.lt_succ_self _, fresh, ?_, ?_, ?_⟩
  · exact fun _ => rfl
  · intro fiber same
    cases same
  · intro fiber _
    refine ⟨rfl, ?_⟩
    intro nap found equal
    exact Nat.lt_irrefl _ (equal ▸ (sound.nap found).1)

/-- A timer leaves the set, it is not the one of a sleeper. -/
theorem Sound.remove (sound : world.Sound) {timer : Nat} {timers : TimerManager (Task Fiber)}
    (member : timer ∈ world.timers.timers)
    (noSleeper : ∀ fiber, (world.timers.heap timer).fiber ≠ some (.fiber fiber))
    (heap : timers.heap = Function.update world.timers.heap timer
      (world.timers.heap timer).markCancelled)
    (sublist : timers.timers.Sublist world.timers.timers)
    (members : ∀ other, other ∈ timers.timers ↔ other ∈ world.timers.timers ∧ other ≠ timer) :
    ({ world with timers } : Sleepers Fiber).Sound := by
  have old : ∀ {address}, address ≠ timer → timers.heap address = world.timers.heap address := by
    intro address different
    rw [heap, Function.update_of_ne different]
  have different : ∀ {fiber nap}, (world.position fiber).nap = some nap → nap.timer ≠ timer := by
    intro fiber nap found same
    have armed := sound.armed member
    cases place : world.position fiber with
    | awake =>
        rw [place] at found
        cases found
    | addTimer here =>
        rw [place] at found
        cases found
        have fresh := sound.idle place
        rw [same] at fresh
        cases fresh.started.symm.trans armed.started
    | yield _ | held _ =>
        have asleep : (world.position fiber).asleep = some nap := by
          rw [place] at found ⊢
          exact found
        rcases sound.sleeps asleep with ⟨_, holds, _⟩ | ⟨gone, _⟩
        · exact noSleeper fiber (same ▸ holds)
        · exact gone (same ▸ member)
  refine { sound with sorted := ?_, made := ?_, armed := ?_, sleeper := ?_, nap := ?_, idle := ?_,
                      sleeps := ?_ }
  · change OrderedSet.Sorted (before timers.heap) timers.timers
    rw [heap, before_markCancelled]
    exact sound.sorted.sublist sublist
  · exact fun kept => sound.made ((members _).mp kept).1
  · intro address kept
    have parts := (members address).mp kept
    change Armed (timers.heap address)
    rw [old parts.2]
    exact sound.armed parts.1
  · intro address fiber kept holds
    have parts := (members address).mp kept
    exact sound.sleeper parts.1 ((congrArg Timer.fiber (old parts.2)).symm.trans holds)
  · intro fiber nap found
    change _ ∧ _ ∧ (timers.heap nap.timer).type = _ ∧
      (timers.heap nap.timer).nxtExpireTime.toNat = _
    rw [old (different found)]
    exact sound.nap found
  · intro fiber nap found
    change (timers.heap nap.timer).Fresh
    rw [old (different (congrArg SleepPosition.nap found))]
    exact sound.idle found
  · intro fiber nap asleep
    have other := different (nap_of_asleep asleep)
    have placed := sound.sleeps asleep
    unfold Placed at placed ⊢
    change nap.timer ∈ timers.timers ∧ (timers.heap nap.timer).fiber = _ ∧ _ ∨
      nap.timer ∉ timers.timers ∧ _ ∧ (timers.heap nap.timer).nxtExpireTime.toNat ≤ _
    rw [members, and_iff_left other, old other]
    exact placed

theorem Sound.cancel (sound : world.Sound) {timer : Nat}
    (taken : world.cancel timer = some next) : next.Sound := by
  unfold Sleepers.cancel at taken
  split at taken
  · cases taken
  · rename_i noSleeper
    rcases Option.map_eq_some_iff.mp taken with ⟨⟨timers, result⟩, answered, rfl⟩
    by_cases member : timer ∈ world.timers.timers
    · have armed := sound.armed member
      rcases cancel_of_mem armed.hasManager armed.notCancelled armed.hasFiber sound.sorted
        member with ⟨after, cancelled, heap, sublist, members⟩
      cases answered.symm.trans cancelled
      exact sound.remove member noSleeper heap sublist members
    · have same : timers = world.timers := by
        simp only [TimerManager.cancel] at answered
        split at answered
        · cases answered
        · split at answered
          · cases answered
            rfl
          · split at answered
            · rcases Option.map_eq_some_iff.mp answered with ⟨position, found, _⟩
              exact absurd (OrderedSet.mem_of_find found) member
            · cases answered
              rfl
      exact same ▸ sound

omit [DecidableEq Fiber] in
theorem expired_iff (bound : world.clock < 2 ^ 63) (timer : Nat) :
    world.timers.expired world.getCurrentTime timer = true ↔
      (world.timers.heap timer).nxtExpireTime.toNat ≤ world.clock / 1000000 := by
  rw [expired, Timer.new_now, decide_eq_true_eq, UInt64.le_iff_toNat_le,
    toNat_getCurrentTime bound]

/-- The fiber of one timer is delivered once. -/
theorem count_delivered {heap : Nat → Timer (Task Fiber)} {task : Task Fiber} {timer : Nat}
    {items : List Nat} (nodup : items.Nodup)
    (only : ∀ item ∈ items, (heap item).fiber = some task → item = timer) :
    (items.filterMap fun item => (heap item).fiber).count task =
      if timer ∈ items ∧ (heap timer).fiber = some task then 1 else 0 := by
  induction items with
  | nil => simp
  | cons item items induction =>
      rcases List.nodup_cons.mp nodup with ⟨absent, rest⟩
      have tail := induction rest fun other member => only other (List.mem_cons_of_mem item member)
      by_cases own : (heap item).fiber = some task
      · have same := only item List.mem_cons_self own
        subst same
        rw [if_neg fun both => absent both.1] at tail
        simp [own, tail]
      · have members : timer ∈ item :: items ∧ (heap timer).fiber = some task ↔
            timer ∈ items ∧ (heap timer).fiber = some task := by
          refine and_congr_left fun holds => List.mem_cons.trans (or_iff_right ?_)
          intro same
          exact own (same ▸ holds)
        rw [if_congr members rfl rfl, ← tail]
        cases holds : (heap item).fiber with
        | none => rw [List.filterMap_cons, holds]
        | some other =>
            rw [List.filterMap_cons, holds, List.count_cons_of_ne]
            intro same
            exact own (same ▸ holds)

theorem Sound.check (sound : world.Sound) : world.check.Sound := by
  have spec := getExpiredTasks_spec world.timers world.getCurrentTime sound.sorted
  rcases spec with ⟨tasks, heap, kept⟩
  have expires := fun timer => expired_iff sound.clock timer
  have due : ∀ timer, timer ∈ world.timers.expiredTimers world.getCurrentTime ↔
      timer ∈ world.timers.timers ∧
        (world.timers.heap timer).nxtExpireTime.toNat ≤ world.clock / 1000000 := by
    intro timer
    rw [mem_expiredTimers sound.sorted, expires]
  have members : ∀ timer, timer ∈ world.check.timers.timers ↔ timer ∈ world.timers.timers ∧
      ¬((world.timers.heap timer).nxtExpireTime.toNat ≤ world.clock / 1000000 ∧
        (world.timers.heap timer).type = .single) := by
    intro timer
    change timer ∈ (world.timers.getExpiredTasks world.getCurrentTime).1.timers ↔ _
    rw [kept, List.mem_filter, Bool.not_eq_true', ← Bool.not_eq_true, Bool.and_eq_true, expires,
      beq_iff_eq]
  have stays : ∀ {timer}, timer ∈ world.check.timers.timers ∨ timer ∉ world.timers.timers →
      world.check.timers.heap timer = world.timers.heap timer := by
    intro timer inside
    refine (heap timer).trans (if_neg ?_)
    intro both
    have expired := (due timer).mp both.1
    rcases inside with inside | outside
    · exact ((members timer).mp inside).2 ⟨expired.2, both.2⟩
    · exact outside expired.1
  have times : ∀ timer, (world.check.timers.heap timer).type = (world.timers.heap timer).type ∧
      (world.check.timers.heap timer).nxtExpireTime = (world.timers.heap timer).nxtExpireTime := by
    intro timer
    have equal : world.check.timers.heap timer = _ := heap timer
    rw [equal]
    split
    · exact ⟨rfl, rfl⟩
    · exact ⟨rfl, rfl⟩
  have nodup : (world.timers.expiredTimers world.getCurrentTime).Nodup :=
    List.Nodup.sublist (List.takeWhile_sublist _) <| sound.sorted.imp fun ordered same => by
      rw [same, OrderedSet.less_irrefl (before world.timers.heap)] at ordered
      cases ordered
  have ready : world.check.ready = world.ready ++
      (world.timers.expiredTimers world.getCurrentTime).filterMap fun timer =>
        (world.timers.heap timer).fiber := by
    change world.ready ++ (world.timers.getExpiredTasks world.getCurrentTime).2.filterMap id = _
    rw [tasks, List.filterMap_map, Function.id_comp]
  refine { clock := sound.clock, sorted := getExpiredTasks_sorted _ sound.sorted, made := ?_,
           armed := ?_, sleeper := ?_, nap := ?_, own := sound.own, idle := ?_, sleeps := ?_,
           others := ?_, wakes := sound.wakes }
  · exact fun member => sound.made ((members _).mp member).1
  · intro timer member
    rw [stays (.inl member)]
    exact sound.armed ((members timer).mp member).1
  · intro timer fiber member holds
    rw [stays (.inl member)] at holds
    exact sound.sleeper ((members timer).mp member).1 holds
  · intro fiber nap found
    rw [(times nap.timer).1, (times nap.timer).2]
    exact sound.nap found
  · intro fiber nap found
    have fresh := sound.idle found
    rw [stays (.inr fun member => by cases (sound.armed member).started.symm.trans fresh.started)]
    exact fresh
  · intro fiber nap asleep
    have single := (sound.nap (nap_of_asleep asleep)).2.2.1
    have only : ∀ item ∈ world.timers.expiredTimers world.getCurrentTime,
        (world.timers.heap item).fiber = some (.fiber fiber) → item = nap.timer := by
      intro item member holds
      rcases sound.sleeper ((due item).mp member).1 holds with ⟨another, asleep', same⟩
      cases asleep.symm.trans asleep'
      exact same.symm
    have delivered := count_delivered nodup only
    have count : world.check.ready.count (.fiber fiber) = world.ready.count (.fiber fiber) +
        if nap.timer ∈ world.timers.expiredTimers world.getCurrentTime ∧
          (world.timers.heap nap.timer).fiber = some (.fiber fiber) then 1 else 0 := by
      rw [ready, List.count_append, delivered]
    rcases sound.sleeps asleep with ⟨member, holds, none⟩ | ⟨gone, once, past⟩
    · by_cases expired : (world.timers.heap nap.timer).nxtExpireTime.toNat ≤ world.clock / 1000000
      · refine .inr ⟨fun kept => ((members _).mp kept).2 ⟨expired, single⟩, ?_, ?_⟩
        · rw [count, none, if_pos ⟨(due _).mpr ⟨member, expired⟩, holds⟩]
        · rw [(times nap.timer).2]
          exact expired
      · have kept := (members nap.timer).mpr ⟨member, fun both => expired both.1⟩
        refine .inl ⟨kept, ?_, ?_⟩
        · rw [stays (.inl kept)]
          exact holds
        · rw [count, none, if_neg fun both => expired ((due _).mp both.1).2]
    · refine .inr ⟨fun kept => gone ((members _).mp kept).1, ?_, ?_⟩
      · rw [count, once, if_neg fun both => gone ((due _).mp both.1).1]
      · rw [(times nap.timer).2]
        exact past
  · intro fiber none
    rw [ready, List.count_append, sound.others none, Nat.zero_add, List.count_eq_zero]
    intro delivered
    rcases List.mem_filterMap.mp delivered with ⟨timer, expired, holds⟩
    rcases sound.sleeper ((due timer).mp expired).1 holds with ⟨nap, asleep, _⟩
    cases none.symm.trans asleep

/-- The fiber leaves the run queue and goes on. -/
theorem Sound.wake (sound : world.Sound) {fiber : Fiber} {nap : Nap}
    (held : world.position fiber = .held nap) (queued : .fiber fiber ∈ world.ready) :
    (({ world with
      ready := world.ready.erase (.fiber fiber)
      wakes := world.wakes ++ [(nap, world.clock)] } : Sleepers Fiber).goTo fiber
        .awake).Sound := by
  have asleep : (world.position fiber).asleep = some nap := by
    rw [held]
    rfl
  rcases sound.sleeps asleep with ⟨_, _, none⟩ | ⟨gone, once, due⟩
  · exact absurd queued (List.count_eq_zero.mp none)
  · have moved : ∀ other, other ≠ fiber →
        Function.update world.position fiber .awake other = world.position other :=
      fun other different => Function.update_of_ne different _ _
    have here : Function.update world.position fiber .awake fiber = .awake :=
      Function.update_self _ _ _
    have count : ∀ other, other ≠ fiber →
        (world.ready.erase (.fiber fiber)).count (.fiber other) =
          world.ready.count (.fiber other) :=
      fun other different => List.count_erase_of_ne fun same => different (by cases same; rfl)
    have old : ∀ {other position}, Function.update world.position fiber .awake other = position →
        position ≠ .awake → other ≠ fiber ∧ world.position other = position := by
      intro other position found moves
      by_cases equal : other = fiber
      · rw [equal, here] at found
        exact absurd found.symm moves
      · exact ⟨equal, (moved other equal).symm.trans found⟩
    refine { sound with sleeper := ?_, nap := ?_, own := ?_, idle := ?_, sleeps := ?_,
                        others := ?_, wakes := ?_ }
    · intro timer other member holds
      rcases sound.sleeper member holds with ⟨nap', asleep', same⟩
      have different : other ≠ fiber := by
        intro equal
        rw [equal] at asleep'
        cases asleep.symm.trans asleep'
        exact gone (same ▸ member)
      refine ⟨nap', ?_, same⟩
      change (Function.update world.position fiber .awake other).asleep = _
      rw [moved other different]
      exact asleep'
    · intro other nap' found
      rcases old rfl (fun awake => by cases (congrArg SleepPosition.nap awake).symm.trans found)
        with ⟨_, same⟩
      exact sound.nap ((congrArg SleepPosition.nap same).trans found)
    · intro first second nap' another found found' equal
      rcases old rfl (fun awake => by cases (congrArg SleepPosition.nap awake).symm.trans found)
        with ⟨_, same⟩
      rcases old rfl (fun awake => by cases (congrArg SleepPosition.nap awake).symm.trans found')
        with ⟨_, same'⟩
      exact sound.own ((congrArg SleepPosition.nap same).trans found)
        ((congrArg SleepPosition.nap same').trans found') equal
    · intro other nap' found
      rcases old found (fun awake => by cases awake) with ⟨_, same⟩
      exact sound.idle same
    · intro other nap' found
      rcases old rfl (fun awake => by cases (congrArg SleepPosition.asleep awake).symm.trans found)
        with ⟨different, same⟩
      rcases sound.sleeps ((congrArg SleepPosition.asleep same).trans found) with
        ⟨member, holds, none⟩ | ⟨gone, once, due⟩
      · exact .inl ⟨member, holds, (count other different).trans none⟩
      · exact .inr ⟨gone, (count other different).trans once, due⟩
    · intro other none
      change (world.ready.erase (.fiber fiber)).count (.fiber other) = 0
      by_cases equal : other = fiber
      · rw [equal, List.count_erase_self, once]
      · rw [count other equal]
        apply sound.others
        rw [← moved other equal]
        exact none
    · intro nap' ended member
      rcases List.mem_append.mp member with member | member
      · exact sound.wakes member
      · cases List.mem_singleton.mp member
        rcases sound.nap (nap_of_asleep asleep) with ⟨_, _, _, expires⟩
        omega

theorem Sound.resume (sound : world.Sound) {fiber : Fiber}
    (taken : world.resume fiber = some next) : next.Sound := by
  unfold Sleepers.resume at taken
  split at taken
  · rename_i nap held
    split at taken
    · rename_i queued
      cases taken
      exact sound.wake held (List.contains_iff_mem.mp queued)
    · cases taken
  · cases taken

theorem Sound.runCallback (sound : world.Sound) {callback : Nat} :
    ({ world with ready := world.ready.erase (.timeout callback) } : Sleepers Fiber).Sound := by
  have count : ∀ fiber, (world.ready.erase (.timeout callback)).count (.fiber fiber) =
      world.ready.count (.fiber fiber) :=
    fun fiber => List.count_erase_of_ne (fun same => by cases same)
  refine { sound with sleeps := ?_, others := ?_ }
  · intro fiber nap asleep
    unfold Placed
    rw [count]
    exact sound.sleeps asleep
  · intro fiber none
    exact (count fiber).trans (sound.others none)

theorem Sound.step (sound : world.Sound) {action : SleepAction Fiber}
    (taken : world.step action = some next) : next.Sound := by
  cases action with
  | tick later =>
      rcases Option.ite_none_right_eq_some.mp taken with ⟨runs, same⟩
      cases same
      exact sound.tick runs.1 runs.2
  | call fiber call => exact sound.call taken
  | addTimer fiber => exact sound.addTimer taken
  | yieldToHold fiber => exact sound.yieldToHold taken
  | check =>
      cases taken
      exact sound.check
  | resume fiber => exact sound.resume taken
  | arm sec msec callback type => exact sound.arm taken
  | cancel timer => exact sound.cancel taken
  | runCallback callback =>
      rcases Option.ite_none_right_eq_some.mp taken with ⟨_, same⟩
      cases same
      exact sound.runCallback

theorem sound_of_reachable (reached : (machine Fiber).Reachable world) : world.Sound := by
  apply reached.invariant
  · intro state starts
    cases starts
    exact sound_start
  · intro state action next _ sound _ taken
    exact sound.step taken

/-- A timer that a check leaves in the set is of a call whose time is not over. -/
theorem Sound.check_leaves (sound : world.Sound) {fiber : Fiber} {nap : Nap}
    (asleep : (world.position fiber).asleep = some nap)
    (left : nap.timer ∈ world.check.timers.timers) :
    world.clock < nap.began + nap.call.duration := by
  have spec := getExpiredTasks_spec world.timers world.getCurrentTime sound.sorted
  rcases sound.nap (nap_of_asleep asleep) with ⟨_, _, single, expires⟩
  have kept := left
  change nap.timer ∈ (world.timers.getExpiredTasks world.getCurrentTime).1.timers at kept
  rw [spec.2.2, List.mem_filter, Bool.not_eq_true', Bool.and_eq_false_iff, single] at kept
  rcases kept.2 with notExpired | loop
  · rw [← Bool.not_eq_true, expired_iff sound.clock] at notExpired
    omega
  · cases loop

/-- Whatever timers come and go between, a sleeper is in one place, is not woken two milliseconds
or more before its time, and is not left when a check comes after it. -/
theorem sleeps_as_asked (reached : (machine Fiber).Reachable world) :
    world.Rests ∧ ∀ {fiber nap}, (world.position fiber).asleep = some nap →
      nap.timer ∈ world.check.timers.timers →
        world.clock < nap.began + nap.call.duration :=
  have sound := sound_of_reachable reached
  ⟨sound.rests, sound.check_leaves⟩

/-- One fiber sleeps on while the other is due. -/
theorem sleeps_as_asked_sample : ∃ world : Sleepers Nat,
    (world.check.timers.timers == [0] && world.check.ready == [.fiber 1]) = true ∧
      world.Rests ∧ ∀ {fiber nap}, (world.position fiber).asleep = some nap →
        nap.timer ∈ world.check.timers.timers →
          world.clock < nap.began + nap.call.duration := by
  rcases Machine.exists_reachable_of_run (machine Nat) rfl
    [.call 0 (.usleep 5000), .call 1 (.nanosleep 0 2000000), .addTimer 1, .addTimer 0,
      .yieldToHold 0, .tick 3000000]
    (fun world => world.check.timers.timers == [0] && world.check.ready == [.fiber 1])
    (by decide) with ⟨world, reached, here⟩
  exact ⟨world, here, sleeps_as_asked reached⟩

end Sleepers

end FiberNet
