import FiberNet.Foundation.Machine
import FiberNet.Scheduler.TimerManager

/-! # The life of a timer

Runs of atomic calls on one `TimerManager`. The history records what each call
was asked and what it answered, newest call first.
-/

namespace FiberNet

namespace TimerManager

variable {Fiber : Type}

inductive Call (Fiber : Type)
  | addTimer (timer : Nat) (task : Fiber) (type : TimerType)
  | cancel (timer : Nat)
  | getExpiredTasks (now : UInt64)

/-- A completed call with its answer. An expiry check also names the timers it
took the fibers from. -/
inductive Event (Fiber : Type)
  | added (timer : Nat) (task : Fiber)
  | cancelled (timer : Nat) (result : Bool)
  | expired (now : UInt64) (timers : List Nat) (tasks : List (Option Fiber))
  deriving DecidableEq

/-- The timers whose fibers a call returned. -/
def Event.delivered : Event Fiber → List Nat
  | .expired _ timers _ => timers
  | _ => []

structure Lifecycle (Fiber : Type) where
  manager : TimerManager Fiber
  /-- The time of the last expiry check. -/
  clock : UInt64
  history : List (Event Fiber)

namespace Lifecycle

def WasAdded (history : List (Event Fiber)) (timer : Nat) : Prop :=
  ∃ task, Event.added timer task ∈ history

def WasCancelled (history : List (Event Fiber)) (timer : Nat) : Prop :=
  Event.cancelled timer true ∈ history

/-- How often the fiber of a timer was returned. -/
def deliveries (history : List (Event Fiber)) (timer : Nat) : Nat :=
  (history.flatMap Event.delivered).count timer

/-- The fiber `task` was returned on behalf of a timer added with that fiber. -/
def Returns (history : List (Event Fiber)) (timer : Nat) (task : Option Fiber) : Prop :=
  ∃ fiber, task = some fiber ∧ Event.added timer fiber ∈ history

/-- Added, not cancelled, and not a SINGLE timer that was already delivered. -/
def Pending (life : Lifecycle Fiber) (timer : Nat) : Prop :=
  WasAdded life.history timer ∧ ¬ WasCancelled life.history timer ∧
    ¬ ((life.manager.heap timer).type = .single ∧ 0 < deliveries life.history timer)

def step (life : Lifecycle Fiber) : Call Fiber → Option (Lifecycle Fiber)
  | .addTimer timer task type =>
      -- each object is added at most once
      if (life.manager.heap timer).started = false then
        (life.manager.addTimer timer task type).map fun (manager, _) =>
          { life with manager, history := .added timer task :: life.history }
      else none
  | .cancel timer =>
      if (life.manager.heap timer).started = true then
        (life.manager.cancel timer).map fun (manager, result) =>
          { life with manager, history := .cancelled timer result :: life.history }
      else none
  | .getExpiredTasks now =>
      if life.clock ≤ now then
        let (manager, tasks) := life.manager.getExpiredTasks now
        some
          { manager
            clock := now
            history := .expired now (life.manager.expiredTimers now) tasks :: life.history }
      else none

/-- Every object has been constructed, with any expiry time, and none is added. -/
def initial (life : Lifecycle Fiber) : Prop :=
  (∀ timer, (life.manager.heap timer).Fresh) ∧ life.manager.timers = [] ∧
    life.history = []

@[reducible] def machine (Fiber : Type) : Machine (Lifecycle Fiber) (Call Fiber) where
  initial := initial
  step := step

/-! ## The hidden invariant -/

/-- What ties the fields of a timer object, its place in the ordered set and the
calls made so far together. -/
structure Inv (life : Lifecycle Fiber) : Prop where
  sorted : OrderedSet.Sorted (before life.manager.heap) life.manager.timers
  added : ∀ timer, WasAdded life.history timer ↔
    (life.manager.heap timer).started = true
  fresh : ∀ timer, (life.manager.heap timer).started = false →
    (life.manager.heap timer).Fresh
  managed : ∀ timer, (life.manager.heap timer).started = true →
    (life.manager.heap timer).hasManager = true
  cancelled : ∀ timer, WasCancelled life.history timer ↔
    (life.manager.heap timer).cancelled = true
  member : ∀ timer, timer ∈ life.manager.timers ↔
    (life.manager.heap timer).started = true ∧
    (life.manager.heap timer).cancelled = false ∧
    (life.manager.heap timer).fiber.isSome = true
  taken : ∀ timer, (life.manager.heap timer).started = true →
    ((life.manager.heap timer).fiber = none ↔
      (life.manager.heap timer).type = .single ∧ 0 < deliveries life.history timer)
  once : ∀ timer, (life.manager.heap timer).type = .single →
    deliveries life.history timer ≤ 1
  never : ∀ timer, (life.manager.heap timer).started = false →
    deliveries life.history timer = 0
  final : life.history.Pairwise fun later earlier =>
    ∀ timer, earlier = .cancelled timer true → timer ∉ later.delivered
  task : ∀ timer fiber, (life.manager.heap timer).fiber = some fiber →
    Event.added timer fiber ∈ life.history
  returned : ∀ now timers tasks, Event.expired now timers tasks ∈ life.history →
    List.Forall₂ (Returns life.history) timers tasks

theorem Inv.of_initial {life : Lifecycle Fiber} (starts : initial life) : Inv life := by
  rcases starts with ⟨fresh, noTimers, noHistory⟩
  have notStarted : ∀ timer, (life.manager.heap timer).started = false :=
    fun timer => (fresh timer).started
  constructor <;>
    simp [noTimers, noHistory, WasAdded, WasCancelled, deliveries, notStarted,
      fun timer => (fresh timer).cancelled, fun timer => (fresh timer).fiber]
  exact fresh

/-- The set holds exactly the pending timers. -/
theorem Inv.mem_timers_iff {life : Lifecycle Fiber} (inv : Inv life) (timer : Nat) :
    timer ∈ life.manager.timers ↔ life.Pending timer := by
  rw [inv.member, Pending, inv.added, inv.cancelled]
  constructor
  · rintro ⟨started, notCancelled, hasFiber⟩
    refine ⟨started, by simp [notCancelled], fun spent => ?_⟩
    simp [(inv.taken timer started).mpr spent] at hasFiber
  · rintro ⟨started, notCancelled, notOver⟩
    refine ⟨started, by simpa using notCancelled, ?_⟩
    cases fiber : (life.manager.heap timer).fiber with
    | some _ => rfl
    | none => exact absurd ((inv.taken timer started).mp fiber) notOver

/-- Past answers stay explained as the history grows. -/
theorem Inv.returned_cons {life : Lifecycle Fiber} (inv : Inv life) (event : Event Fiber)
    (now : UInt64) (timers : List Nat) (tasks : List (Option Fiber))
    (answered : Event.expired now timers tasks ∈ life.history) :
    List.Forall₂ (Returns (event :: life.history)) timers tasks :=
  (inv.returned now timers tasks answered).imp
    fun _ _ ⟨fiber, isTask, added⟩ => ⟨fiber, isTask, List.mem_cons_of_mem _ added⟩

theorem expiredTimers_nodup {life : Lifecycle Fiber} (inv : Inv life) (now : UInt64) :
    (life.manager.expiredTimers now).Nodup := by
  have nodup : life.manager.timers.Nodup :=
    inv.sorted.imp fun {first second} ordered equal => by
      rw [equal, OrderedSet.less_irrefl (before life.manager.heap)] at ordered
      cases ordered
  exact nodup.sublist (List.takeWhile_sublist _)

/-! ## One step -/

theorem Inv.addTimer {life : Lifecycle Fiber} (inv : Inv life) {timer : Nat}
    (task : Fiber) (type : TimerType)
    (notStarted : (life.manager.heap timer).started = false) :
    Inv { life with
      manager :=
        { heap := Function.update life.manager.heap timer
            (armed (life.manager.heap timer) task type)
          timers := OrderedSet.insert (before life.manager.heap) timer life.manager.timers }
      history := .added timer task :: life.history } := by
  have sameOrder := before_update life.manager.heap timer
    (armed (life.manager.heap timer) task type) rfl
  have notCancelled : ¬ WasCancelled life.history timer := by
    rw [inv.cancelled, (inv.fresh timer notStarted).cancelled]
    simp
  constructor
  case sorted => simpa [sameOrder] using OrderedSet.insert_sorted inv.sorted
  case added =>
    intro other
    by_cases equal : other = timer
    · subst equal
      simp [WasAdded, armed]
    · simpa [WasAdded, equal] using inv.added other
  case fresh =>
    intro other
    by_cases equal : other = timer
    · subst equal
      simp [armed]
    · simpa [equal] using inv.fresh other
  case managed =>
    intro other
    by_cases equal : other = timer
    · subst equal
      simp [armed]
    · simpa [equal] using inv.managed other
  case cancelled =>
    intro other
    by_cases equal : other = timer
    · subst equal
      simpa [WasCancelled, armed] using notCancelled
    · simpa [WasCancelled, equal] using inv.cancelled other
  case member =>
    intro other
    by_cases equal : other = timer
    · subst equal
      simp [OrderedSet.mem_insert, armed]
    · simpa [OrderedSet.mem_insert, equal] using inv.member other
  case taken =>
    intro other
    by_cases equal : other = timer
    · subst equal
      simp [armed, deliveries, Event.delivered,
        show (life.history.flatMap Event.delivered).count other = 0 from
          inv.never other notStarted]
    · simpa [equal, deliveries, Event.delivered] using inv.taken other
  case once =>
    intro other
    by_cases equal : other = timer
    · subst equal
      simp [deliveries, Event.delivered,
        show (life.history.flatMap Event.delivered).count other = 0 from
          inv.never other notStarted]
    · simpa [equal, deliveries, Event.delivered] using inv.once other
  case never =>
    intro other
    by_cases equal : other = timer
    · subst equal
      simp [armed]
    · simpa [equal, deliveries, Event.delivered] using inv.never other
  case final =>
    exact List.pairwise_cons.mpr ⟨by simp [Event.delivered], inv.final⟩
  case task =>
    intro other fiber hasFiber
    by_cases equal : other = timer
    · subst equal
      simp only [Function.update_self, armed, Option.some.injEq] at hasFiber
      simp [hasFiber]
    · simp only [ne_eq, equal, not_false_eq_true, Function.update_of_ne] at hasFiber
      exact List.mem_cons_of_mem _ (inv.task other fiber hasFiber)
  case returned =>
    intro now timers tasks answered
    exact inv.returned_cons _ now timers tasks (by simpa using answered)

/-- A cancel of an added timer is answered, and answers true exactly on a
pending one. -/
theorem Inv.cancel_eq {life : Lifecycle Fiber} (inv : Inv life) {timer : Nat}
    (started : (life.manager.heap timer).started = true) :
    ∃ next result, life.manager.cancel timer = some (next, result) ∧
      (result = true ↔ timer ∈ life.manager.timers) := by
  by_cases member : timer ∈ life.manager.timers
  · rcases (inv.member timer).mp member with ⟨_, notCancelled, hasFiber⟩
    rcases cancel_of_mem (inv.managed timer started) notCancelled hasFiber inv.sorted
      member with ⟨next, answered, _⟩
    exact ⟨next, true, answered, by simp [member]⟩
  · refine ⟨life.manager, false, cancel_refused (inv.managed timer started) ?_,
      by simp [member]⟩
    by_contra notOver
    apply member
    rw [inv.member]
    simp only [not_or, Bool.not_eq_true, ← ne_eq, Option.ne_none_iff_isSome] at notOver
    exact ⟨started, notOver⟩

theorem Inv.cancel {life : Lifecycle Fiber} (inv : Inv life) {timer : Nat}
    {next : TimerManager Fiber} {result : Bool}
    (started : (life.manager.heap timer).started = true)
    (answered : life.manager.cancel timer = some (next, result)) :
    Inv { life with
      manager := next, history := .cancelled timer result :: life.history } := by
  by_cases member : timer ∈ life.manager.timers
  · rcases (inv.member timer).mp member with ⟨_, notCancelled, hasFiber⟩
    rcases cancel_of_mem (inv.managed timer started) notCancelled hasFiber inv.sorted
      member with ⟨next, erased, heap, sublist, mem⟩
    rw [erased] at answered
    cases answered
    rcases next with ⟨nextHeap, nextTimers⟩
    subst heap
    constructor
    case sorted => simpa using inv.sorted.sublist sublist
    case added =>
      intro other
      by_cases equal : other = timer
      · subst equal
        simpa [WasAdded, Timer.markCancelled] using inv.added other
      · simpa [WasAdded, equal] using inv.added other
    case fresh =>
      intro other
      by_cases equal : other = timer
      · subst equal
        simp [Timer.markCancelled, started]
      · simpa [equal] using inv.fresh other
    case managed =>
      intro other
      by_cases equal : other = timer
      · subst equal
        simpa [Timer.markCancelled] using inv.managed other
      · simpa [equal] using inv.managed other
    case cancelled =>
      intro other
      by_cases equal : other = timer
      · subst equal
        simp [WasCancelled, Timer.markCancelled]
      · simpa [WasCancelled, equal] using inv.cancelled other
    case member =>
      intro other
      rw [mem other]
      by_cases equal : other = timer
      · subst equal
        simp [Timer.markCancelled]
      · simpa [equal] using inv.member other
    case taken =>
      intro other
      by_cases equal : other = timer
      · subst equal
        simpa [Timer.markCancelled, deliveries, Event.delivered] using inv.taken other
      · simpa [equal, deliveries, Event.delivered] using inv.taken other
    case once =>
      intro other
      by_cases equal : other = timer
      · subst equal
        simpa [Timer.markCancelled, deliveries, Event.delivered] using inv.once other
      · simpa [equal, deliveries, Event.delivered] using inv.once other
    case never =>
      intro other
      by_cases equal : other = timer
      · subst equal
        simpa [Timer.markCancelled, deliveries, Event.delivered] using inv.never other
      · simpa [equal, deliveries, Event.delivered] using inv.never other
    case final =>
      exact List.pairwise_cons.mpr ⟨by simp [Event.delivered], inv.final⟩
    case task =>
      intro other fiber hasFiber
      apply List.mem_cons_of_mem
      apply inv.task other fiber
      by_cases equal : other = timer
      · subst equal
        simpa [Timer.markCancelled] using hasFiber
      · simpa [equal] using hasFiber
    case returned =>
      intro now timers tasks answered
      exact inv.returned_cons _ now timers tasks (by simpa using answered)
  · have spent : (life.manager.heap timer).cancelled = true ∨
        (life.manager.heap timer).fiber = none := by
      by_contra notOver
      simp only [not_or, Bool.not_eq_true, ← ne_eq, Option.ne_none_iff_isSome] at notOver
      exact member ((inv.member timer).mpr ⟨started, notOver⟩)
    rw [cancel_refused (inv.managed timer started) spent] at answered
    cases answered
    exact
      { inv with
        added := by simpa [WasAdded] using inv.added
        cancelled := by simpa [WasCancelled] using inv.cancelled
        taken := by simpa [deliveries, Event.delivered] using inv.taken
        once := by simpa [deliveries, Event.delivered] using inv.once
        never := by simpa [deliveries, Event.delivered] using inv.never
        final := List.pairwise_cons.mpr ⟨by simp [Event.delivered], inv.final⟩
        task := fun other fiber hasFiber =>
          List.mem_cons_of_mem _ (inv.task other fiber hasFiber)
        returned := fun now timers tasks answered =>
          inv.returned_cons _ now timers tasks (by simpa using answered) }

/-! ### The expiry check -/

theorem deliveries_expired (history : List (Event Fiber)) (now : UInt64) (timers : List Nat)
    (tasks : List (Option Fiber)) (timer : Nat) :
    deliveries (.expired now timers tasks :: history) timer =
      timers.count timer + deliveries history timer := by
  simp [deliveries, Event.delivered]

/-- A timer whose fiber is taken was pending. -/
theorem Inv.of_expired {life : Lifecycle Fiber} (inv : Inv life) {now : UInt64} {timer : Nat}
    (expires : timer ∈ life.manager.expiredTimers now) :
    (life.manager.heap timer).started = true ∧ (life.manager.heap timer).cancelled = false ∧
      (life.manager.heap timer).fiber.isSome = true :=
  (inv.member timer).mp ((mem_expiredTimers inv.sorted timer).mp expires).1

theorem Inv.not_expired {life : Lifecycle Fiber} (inv : Inv life) {now : UInt64} {timer : Nat}
    (notStarted : (life.manager.heap timer).started = false) :
    timer ∉ life.manager.expiredTimers now := by
  intro expires
  simp [(inv.of_expired expires).1] at notStarted

/-- What a check makes of the objects and of the set. -/
structure Checked (life : Lifecycle Fiber) (now : UInt64) (manager : TimerManager Fiber)
    (tasks : List (Option Fiber)) : Prop where
  tasks : tasks =
    (life.manager.expiredTimers now).map fun timer => (life.manager.heap timer).fiber
  object : ∀ timer, manager.heap timer =
    if timer ∈ life.manager.expiredTimers now ∧ (life.manager.heap timer).type = .single then
      (life.manager.heap timer).dropFiber
    else life.manager.heap timer
  timers : manager.timers = life.manager.timers.filter fun timer =>
    !(life.manager.expired now timer && (life.manager.heap timer).type == .single)

namespace Checked

variable {life : Lifecycle Fiber} {now : UInt64} {manager : TimerManager Fiber}
  {tasks : List (Option Fiber)}

theorem of_getExpiredTasks (inv : Inv life) (now : UInt64) :
    Checked life now (life.manager.getExpiredTasks now).1
      (life.manager.getExpiredTasks now).2 :=
  have spec := getExpiredTasks_spec life.manager now inv.sorted
  ⟨spec.1, spec.2.1, spec.2.2⟩

theorem before_eq (checked : Checked life now manager tasks) :
    before manager.heap = before life.manager.heap := by
  apply before_congr
  intro timer
  rw [checked.object timer]
  split <;> rfl

theorem started (checked : Checked life now manager tasks) (timer : Nat) :
    (manager.heap timer).started = (life.manager.heap timer).started := by
  rw [checked.object timer]
  split <;> rfl

theorem cancelled (checked : Checked life now manager tasks) (timer : Nat) :
    (manager.heap timer).cancelled = (life.manager.heap timer).cancelled := by
  rw [checked.object timer]
  split <;> rfl

theorem type (checked : Checked life now manager tasks) (timer : Nat) :
    (manager.heap timer).type = (life.manager.heap timer).type := by
  rw [checked.object timer]
  split <;> rfl

theorem hasManager (checked : Checked life now manager tasks) (timer : Nat) :
    (manager.heap timer).hasManager = (life.manager.heap timer).hasManager := by
  rw [checked.object timer]
  split <;> rfl

theorem member (checked : Checked life now manager tasks) (inv : Inv life) (timer : Nat) :
    timer ∈ manager.timers ↔ (manager.heap timer).started = true ∧
      (manager.heap timer).cancelled = false ∧ (manager.heap timer).fiber.isSome = true := by
  simp only [checked.timers, List.mem_filter, checked.started, checked.cancelled]
  rw [checked.object timer]
  simp only [mem_expiredTimers inv.sorted]
  by_cases member : timer ∈ life.manager.timers
  · have fields := (inv.member timer).mp member
    cases typeIs : (life.manager.heap timer).type <;>
      cases expires : life.manager.expired now timer <;>
      simp [member, fields, Timer.dropFiber]
  · simpa [member] using (inv.member timer).not.mp member

theorem taken (checked : Checked life now manager tasks) (inv : Inv life) (timer : Nat)
    (isStarted : (manager.heap timer).started = true) :
    (manager.heap timer).fiber = none ↔ (manager.heap timer).type = .single ∧
      0 < deliveries (.expired now (life.manager.expiredTimers now) tasks :: life.history)
        timer := by
  rw [checked.started] at isStarted
  have before := inv.taken timer isStarted
  rw [checked.type, deliveries_expired]
  simp only [checked.object timer]
  by_cases expires : timer ∈ life.manager.expiredTimers now
  · have positive := List.count_pos_iff.mpr expires
    cases typeIs : (life.manager.heap timer).type with
    | single =>
        simp only [expires, and_self, if_true, Timer.dropFiber, true_and, true_iff]
        omega
    | loop => simpa [typeIs] using before
  · simpa [expires, List.count_eq_zero_of_not_mem expires] using before

theorem once (checked : Checked life now manager tasks) (inv : Inv life) (timer : Nat)
    (isSingle : (manager.heap timer).type = .single) :
    deliveries (.expired now (life.manager.expiredTimers now) tasks :: life.history) timer ≤
      1 := by
  rw [checked.type] at isSingle
  rw [deliveries_expired]
  by_cases expires : timer ∈ life.manager.expiredTimers now
  · have fields := inv.of_expired expires
    have notBefore : deliveries life.history timer = 0 := by
      by_contra positive
      have taken := (inv.taken timer fields.1).mpr ⟨isSingle, Nat.pos_of_ne_zero positive⟩
      simp [taken] at fields
    rw [List.count_eq_one_of_mem (expiredTimers_nodup inv now) expires, notBefore]
  · rw [List.count_eq_zero_of_not_mem expires, Nat.zero_add]
    exact inv.once timer isSingle

theorem task (checked : Checked life now manager tasks) (inv : Inv life) {timer : Nat}
    {fiber : Fiber} (hasFiber : (manager.heap timer).fiber = some fiber) :
    Event.added timer fiber ∈ life.history := by
  apply inv.task timer fiber
  simp only [checked.object timer] at hasFiber
  split at hasFiber
  · simp [Timer.dropFiber] at hasFiber
  · exact hasFiber

/-- Every fiber in the answer was added with its timer. -/
theorem answer (checked : Checked life now manager tasks) (inv : Inv life)
    (event : Event Fiber) :
    List.Forall₂ (Returns (event :: life.history)) (life.manager.expiredTimers now) tasks := by
  rw [checked.tasks, List.forall₂_map_right_iff]
  refine List.forall₂_same.mpr fun timer expires => ?_
  rcases Option.isSome_iff_exists.mp (inv.of_expired expires).2.2 with ⟨fiber, isFiber⟩
  exact ⟨fiber, isFiber, List.mem_cons_of_mem _ (inv.task timer fiber isFiber)⟩

end Checked

theorem Inv.getExpiredTasks {life : Lifecycle Fiber} (inv : Inv life) (now : UInt64) :
    Inv
      { manager := (life.manager.getExpiredTasks now).1
        clock := now
        history := .expired now (life.manager.expiredTimers now)
          (life.manager.getExpiredTasks now).2 :: life.history } := by
  have checked := Checked.of_getExpiredTasks inv now
  constructor
  case sorted =>
    simp only [checked.timers, checked.before_eq]
    exact inv.sorted.sublist List.filter_sublist
  case added => simpa [WasAdded, checked.started] using inv.added
  case fresh =>
    intro timer notStarted
    simp only [checked.started] at notStarted
    simpa [checked.object timer, inv.not_expired notStarted] using inv.fresh timer notStarted
  case managed => simpa [checked.started, checked.hasManager] using inv.managed
  case cancelled => simpa [WasCancelled, checked.cancelled] using inv.cancelled
  case member => exact checked.member inv
  case taken => exact checked.taken inv
  case once => exact checked.once inv
  case never =>
    intro timer notStarted
    simp only [checked.started] at notStarted
    rw [deliveries_expired, List.count_eq_zero_of_not_mem (inv.not_expired notStarted),
      Nat.zero_add]
    exact inv.never timer notStarted
  case final =>
    refine List.pairwise_cons.mpr ⟨fun event isEarlier timer wasCancelled expires => ?_,
      inv.final⟩
    have fields := inv.of_expired expires
    subst wasCancelled
    have marked := (inv.cancelled timer).mp isEarlier
    simp [marked] at fields
  case task =>
    intro timer fiber hasFiber
    exact List.mem_cons_of_mem _ (checked.task inv hasFiber)
  case returned =>
    intro moment timers' tasks' answered
    rcases List.mem_cons.mp answered with isNew | isOld
    · cases isNew
      exact checked.answer inv _
    · exact inv.returned_cons _ moment timers' tasks' isOld

/-- Every call keeps the invariant. -/
theorem Inv.step {life next : Lifecycle Fiber} {call : Call Fiber} (inv : Inv life)
    (taken : life.step call = some next) : Inv next := by
  cases call with
  | addTimer timer task type =>
      simp only [Lifecycle.step] at taken
      split at taken
      · rename_i notStarted
        rw [addTimer_eq task type notStarted] at taken
        cases taken
        exact inv.addTimer task type notStarted
      · cases taken
  | cancel timer =>
      simp only [Lifecycle.step] at taken
      split at taken
      · rename_i started
        rcases Option.map_eq_some_iff.mp taken with ⟨⟨manager, result⟩, answered, rfl⟩
        exact inv.cancel started answered
      · cases taken
  | getExpiredTasks now =>
      simp only [Lifecycle.step] at taken
      split at taken
      · cases taken
        exact inv.getExpiredTasks now
      · cases taken

theorem Inv.of_reachable {life : Lifecycle Fiber}
    (reachable : (machine Fiber).Reachable life) : Inv life :=
  reachable.invariant (fun _ => Inv.of_initial) fun _ _ _ _ inv _ taken => inv.step taken

end Lifecycle

open Lifecycle

end TimerManager

end FiberNet
