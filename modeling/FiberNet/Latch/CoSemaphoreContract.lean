import Mathlib.Data.List.Count
import FiberNet.Latch.CoSemaphore

/-! # Permits of the coroutine semaphore

A permit is counted in `_value` or handed over to a waiting fiber. The invariant follows
it through the steps under `m_mx`, and follows the one reference of a waiting fiber from
the queue to the notifier and on to the scheduler.
-/

namespace FiberNet

namespace CoPosition

variable {Fiber : Type}

/-- Under `m_mx`. -/
def inside : CoPosition Fiber → Bool
  | .tryTest | .waitTest | .addHold | .notifyTest | .activate _ | .delHold | .unlock _ _ =>
      true
  | _ => false

/-- In a `wait` that found no permit, from the push to the return. -/
def waiting : CoPosition Fiber → Bool
  | .addHold | .unlock .wait false | .yielding | .parked => true
  | _ => false

/-- The fiber that was popped and not passed on yet. -/
def handing : CoPosition Fiber → Option Fiber
  | .activate fiber => some fiber
  | _ => none

/-- What the hold count has too much for the queue. -/
def owed : CoPosition Fiber → Int
  | .addHold => -1
  | .activate _ | .delHold => 1
  | _ => 0

end CoPosition

namespace CoSemaphore

variable {Fiber : Type}

/-- The fiber in the hands of the notifier that holds `m_mx`. -/
def handing (semaphore : CoSemaphore Fiber) : Option Fiber :=
  semaphore.mutex.bind fun holder => (semaphore.position holder).handing

def owed (semaphore : CoSemaphore Fiber) : Int :=
  semaphore.mutex.elim 0 fun holder => (semaphore.position holder).owed

variable [DecidableEq Fiber]

structure Inv (value : Int) (semaphore : CoSemaphore Fiber) : Prop where
  inside : ∀ fiber, semaphore.mutex = some fiber ↔ (semaphore.position fiber).inside = true
  conserved : semaphore.granted + semaphore.tried + semaphore.value =
    value + semaphore.notified
  nonneg : 0 ≤ semaphore.value
  drained : 0 < semaphore.value → semaphore.holdQue = []
  fifo : semaphore.queued = semaphore.handed ++ semaphore.holdQue
  /-- A waiting fiber has exactly one reference, the others have none. -/
  refs : ∀ fiber, semaphore.holdQue.count fiber + semaphore.activated fiber +
    (if semaphore.handing = some fiber then 1 else 0) =
      if (semaphore.position fiber).waiting then 1 else 0
  holds : semaphore.holdCount - semaphore.others = semaphore.holdQue.length + semaphore.owed

/-! ## What a step leaves alone -/

section

variable {semaphore next : CoSemaphore Fiber} {fiber : Fiber} {position : CoPosition Fiber}
  (moved : next.position = Function.update semaphore.position fiber position)

include moved

theorem handing_of_holder (holder : next.mutex = some fiber) :
    next.handing = position.handing := by
  simp [handing, holder, moved]

theorem owed_of_holder (holder : next.mutex = some fiber) : next.owed = position.owed := by
  simp [owed, holder, moved]

theorem handing_of_outsider (mutex : next.mutex = semaphore.mutex)
    (outsider : semaphore.mutex ≠ some fiber) : next.handing = semaphore.handing := by
  rw [handing, handing, mutex]
  cases mutexHolder : semaphore.mutex with
  | none => rfl
  | some holder =>
      have different : holder ≠ fiber := by
        intro equal
        rw [mutexHolder, equal] at outsider
        exact outsider rfl
      simp [moved, different]

theorem owed_of_outsider (mutex : next.mutex = semaphore.mutex)
    (outsider : semaphore.mutex ≠ some fiber) : next.owed = semaphore.owed := by
  rw [owed, owed, mutex]
  cases mutexHolder : semaphore.mutex with
  | none => rfl
  | some holder =>
      have different : holder ≠ fiber := by
        intro equal
        rw [mutexHolder, equal] at outsider
        exact outsider rfl
      simp [moved, different]

/-- The holder of `m_mx` goes from one place under the lock to another. -/
theorem inside_of_holder
    (inside : ∀ fiber, semaphore.mutex = some fiber ↔ (semaphore.position fiber).inside = true)
    (holder : semaphore.mutex = some fiber) (mutex : next.mutex = semaphore.mutex)
    (after : position.inside = true) (other : Fiber) :
    next.mutex = some other ↔ (next.position other).inside = true := by
  rw [mutex, inside other, moved]
  rcases eq_or_ne other fiber with equal | different
  · subst other
    rw [Function.update_self, after, ← inside fiber, holder]
    simp
  · rw [Function.update_of_ne different]

/-- A fiber without the lock goes from one place outside it to another. -/
theorem inside_of_outsider
    (inside : ∀ fiber, semaphore.mutex = some fiber ↔ (semaphore.position fiber).inside = true)
    (outsider : semaphore.mutex ≠ some fiber) (mutex : next.mutex = semaphore.mutex)
    (after : position.inside = false) (other : Fiber) :
    next.mutex = some other ↔ (next.position other).inside = true := by
  rw [mutex, moved]
  rcases eq_or_ne other fiber with equal | different
  · subst other
    simp [after, outsider]
  · rw [Function.update_of_ne different, inside other]

end

theorem inv_new {value : Int} (nonneg : 0 ≤ value) : Inv value (new Fiber value) where
  inside := by simp [new, CoPosition.inside]
  conserved := by simp [new]
  nonneg := nonneg
  drained := by simp [new]
  fifo := rfl
  refs := by simp [new, handing, CoPosition.waiting]
  holds := by simp [new, owed]

namespace Inv

variable {value : Int} {semaphore : CoSemaphore Fiber} {fiber : Fiber}

theorem mutex_of_inside (inv : Inv value semaphore) {position : CoPosition Fiber}
    (equal : semaphore.position fiber = position) (inside : position.inside = true) :
    semaphore.mutex = some fiber := by
  apply (inv.inside fiber).mpr
  rw [equal, inside]

theorem handing_eq (inv : Inv value semaphore) {position : CoPosition Fiber}
    (equal : semaphore.position fiber = position) (inside : position.inside = true) :
    semaphore.handing = position.handing := by
  simp [handing, inv.mutex_of_inside equal inside, equal]

theorem owed_eq (inv : Inv value semaphore) {position : CoPosition Fiber}
    (equal : semaphore.position fiber = position) (inside : position.inside = true) :
    semaphore.owed = position.owed := by
  simp [owed, inv.mutex_of_inside equal inside, equal]

/-- One fiber moves; its references are as many as its new place needs, those of the
others as before. -/
theorem refs_moved (inv : Inv value semaphore) {old new : CoPosition Fiber}
    {next : CoSemaphore Fiber} {before after : Option Fiber}
    (position : semaphore.position fiber = old)
    (moved : next.position = Function.update semaphore.position fiber new)
    (handing : semaphore.handing = before) (handing' : next.handing = after)
    (refs : ∀ other, next.holdQue.count other + next.activated other +
        (if after = some other then 1 else 0) +
        (if other = fiber ∧ old.waiting = true then 1 else 0) =
      semaphore.holdQue.count other + semaphore.activated other +
        (if before = some other then 1 else 0) +
        (if other = fiber ∧ new.waiting = true then 1 else 0)) (other : Fiber) :
    next.holdQue.count other + next.activated other +
        (if next.handing = some other then 1 else 0) =
      if (next.position other).waiting then 1 else 0 := by
  have counted := inv.refs other
  have change := refs other
  rw [handing] at counted
  rw [handing', moved]
  rcases eq_or_ne other fiber with equal | different
  · subst other
    rw [Function.update_self]
    rw [position] at counted
    simp only [true_and] at change
    omega
  · rw [Function.update_of_ne different]
    simp only [different, false_and, ite_false] at change
    omega

theorem holds_moved (inv : Inv value semaphore) {next : CoSemaphore Fiber} {before after : Int}
    (owed : semaphore.owed = before) (owed' : next.owed = after)
    (change : next.holdCount - next.others - next.holdQue.length - after =
      semaphore.holdCount - semaphore.others - semaphore.holdQue.length - before) :
    next.holdCount - next.others = next.holdQue.length + next.owed := by
  have holds := inv.holds
  omega

theorem wait (inv : Inv value semaphore) (position : semaphore.position fiber = .waitTest) :
    Inv value (semaphore.wait fiber) := by
  have holder := inv.mutex_of_inside position rfl
  have handing := inv.handing_eq position rfl
  have conserved := inv.conserved
  have owed := inv.owed_eq position rfl
  unfold CoSemaphore.wait
  split
  · rename_i available
    constructor
    · exact inside_of_holder rfl inv.inside holder rfl rfl
    · simp only [goTo]
      omega
    · simp only [goTo]
      omega
    · intro _
      exact inv.drained available
    · exact inv.fifo
    · exact inv.refs_moved position rfl handing (handing_of_holder rfl holder) fun _ => rfl
    · exact inv.holds_moved owed (owed_of_holder rfl holder) rfl
  · rename_i exhausted
    constructor
    · exact inside_of_holder rfl inv.inside holder rfl rfl
    · exact conserved
    · exact inv.nonneg
    · intro available
      exact absurd available exhausted
    · simp [goTo, inv.fifo]
    · refine inv.refs_moved position rfl handing (handing_of_holder rfl holder) fun other => ?_
      simp only [goTo, CoPosition.handing, CoPosition.waiting, List.count_append,
        List.count_singleton', eq_comm (a := fiber)]
      simp
      omega
    · refine inv.holds_moved owed (owed_of_holder rfl holder) ?_
      simp [goTo, CoPosition.owed]
      omega

theorem tryWait (inv : Inv value semaphore) (position : semaphore.position fiber = .tryTest) :
    Inv value (semaphore.tryWait fiber) := by
  have holder := inv.mutex_of_inside position rfl
  have handing := inv.handing_eq position rfl
  have conserved := inv.conserved
  have owed := inv.owed_eq position rfl
  unfold CoSemaphore.tryWait
  split
  · rename_i available
    constructor
    · exact inside_of_holder rfl inv.inside holder rfl rfl
    · simp only [goTo]
      omega
    · simp only [goTo]
      omega
    · intro _
      exact inv.drained available
    · exact inv.fifo
    · exact inv.refs_moved position rfl handing (handing_of_holder rfl holder) fun _ => rfl
    · exact inv.holds_moved owed (owed_of_holder rfl holder) rfl
  · constructor
    · exact inside_of_holder rfl inv.inside holder rfl rfl
    · exact conserved
    · exact inv.nonneg
    · exact inv.drained
    · exact inv.fifo
    · exact inv.refs_moved position rfl handing (handing_of_holder rfl holder) fun _ => rfl
    · exact inv.holds_moved owed (owed_of_holder rfl holder) rfl

theorem notify (inv : Inv value semaphore) (position : semaphore.position fiber = .notifyTest) :
    Inv value (semaphore.notify fiber) := by
  have holder := inv.mutex_of_inside position rfl
  have handing := inv.handing_eq position rfl
  have conserved := inv.conserved
  have nonneg := inv.nonneg
  have owed := inv.owed_eq position rfl
  unfold CoSemaphore.notify
  split
  · rename_i waiter rest waiting
    have exhausted : ¬0 < semaphore.value := by
      intro available
      rw [inv.drained available] at waiting
      cases waiting
    constructor
    · exact inside_of_holder rfl inv.inside holder rfl rfl
    · simp only [goTo, setLocked]
      omega
    · exact nonneg
    · intro available
      exact absurd available exhausted
    · simp [goTo, setLocked, inv.fifo, waiting]
    · refine inv.refs_moved position rfl handing (handing_of_holder rfl holder) fun other => ?_
      simp only [goTo, setLocked, CoPosition.handing, CoPosition.waiting, waiting,
        List.count_cons, beq_iff_eq, Option.some.injEq]
      simp
      omega
    · refine inv.holds_moved owed (owed_of_holder rfl holder) ?_
      simp [goTo, setLocked, CoPosition.owed, waiting]
      omega
  · rename_i empty
    constructor
    · exact inside_of_holder rfl inv.inside holder rfl rfl
    · simp only [goTo, setLocked]
      omega
    · simp only [goTo, setLocked]
      omega
    · intro _
      exact empty
    · exact inv.fifo
    · exact inv.refs_moved position rfl handing (handing_of_holder rfl holder) fun _ => rfl
    · exact inv.holds_moved owed (owed_of_holder rfl holder) rfl

/-- A step under the lock that touches neither value nor queue. -/
theorem underLock (inv : Inv value semaphore) {old : CoPosition Fiber}
    (new : CoPosition Fiber) (holds : Int) {activated : Fiber → Nat} (position : semaphore.position fiber = old)
    (inside : old.inside = true ∧ new.inside = true) (waiting : new.waiting = old.waiting)
    (refs : ∀ other, activated other + (if new.handing = some other then 1 else 0) =
      semaphore.activated other + if old.handing = some other then 1 else 0)
    (owed : new.owed = old.owed + holds) :
    Inv value ({ semaphore with
      holdCount := semaphore.holdCount + holds
      activated := activated }.goTo fiber new) := by
  have holder := inv.mutex_of_inside position inside.1
  constructor
  · exact inside_of_holder rfl inv.inside holder rfl inside.2
  · exact inv.conserved
  · exact inv.nonneg
  · exact inv.drained
  · exact inv.fifo
  · refine inv.refs_moved position rfl (inv.handing_eq position inside.1)
      (handing_of_holder rfl holder) fun other => ?_
    have counted := refs other
    rw [waiting]
    simp only [goTo]
    omega
  · refine inv.holds_moved (inv.owed_eq position inside.1) (owed_of_holder rfl holder) ?_
    simp only [goTo]
    omega

/-- A step without the lock. -/
theorem outsideLock (inv : Inv value semaphore) {old : CoPosition Fiber}
    (new : CoPosition Fiber) (activated : Nat) (position : semaphore.position fiber = old)
    (outside : old.inside = false ∧ new.inside = false)
    (refs : activated + (if old.waiting then 1 else 0) =
      semaphore.activated fiber + if new.waiting then 1 else 0) :
    Inv value ((semaphore.setActivated fiber activated).goTo fiber new) := by
  have outsider : semaphore.mutex ≠ some fiber := by
    rw [Ne, inv.inside fiber, position, outside.1]
    simp
  constructor
  · exact inside_of_outsider rfl inv.inside outsider rfl outside.2
  · exact inv.conserved
  · exact inv.nonneg
  · exact inv.drained
  · exact inv.fifo
  · have handing : ((semaphore.setActivated fiber activated).goTo fiber new).handing =
        semaphore.handing := handing_of_outsider rfl rfl outsider
    refine inv.refs_moved position rfl rfl handing fun other => ?_
    simp only [goTo, setActivated, Function.update_apply]
    split
    · subst other
      simp only [true_and]
      omega
    · simp_all
  · have owed : ((semaphore.setActivated fiber activated).goTo fiber new).owed =
        semaphore.owed := owed_of_outsider rfl rfl outsider
    exact inv.holds_moved rfl owed rfl

/-- The lock is taken. -/
theorem acquire (inv : Inv value semaphore) {call : SemaphoreCall} {new : CoPosition Fiber}
    (position : semaphore.position fiber = .acquire call) (free : semaphore.mutex = none)
    (inside : new.inside = true) (waiting : new.waiting = false)
    (handing : new.handing = none) (owed : new.owed = 0) :
    Inv value ({ semaphore with mutex := some fiber }.goTo fiber new) := by
  have before : semaphore.handing = none := by simp [CoSemaphore.handing, free]
  have owedBefore : semaphore.owed = 0 := by simp [CoSemaphore.owed, free]
  constructor
  · intro other
    have others := inv.inside other
    rw [free] at others
    rcases eq_or_ne other fiber with equal | different
    · subst other
      simp [goTo, inside]
    · simp [goTo, different, different.symm, ← others]
  · exact inv.conserved
  · exact inv.nonneg
  · exact inv.drained
  · exact inv.fifo
  · refine inv.refs_moved position rfl before (handing_of_holder rfl rfl) fun other => ?_
    rw [handing, waiting]
    rfl
  · refine inv.holds_moved owedBefore (owed_of_holder rfl rfl) ?_
    rw [owed]
    rfl

/-- The end of the guard's scope. -/
theorem unlock (inv : Inv value semaphore) {call : SemaphoreCall} {granted : Bool}
    (new : CoPosition Fiber) (position : semaphore.position fiber = .unlock call granted)
    (outside : new.inside = false)
    (waiting : new.waiting = (CoPosition.unlock call granted : CoPosition Fiber).waiting) :
    Inv value ({ semaphore with mutex := none }.goTo fiber new) := by
  have holder := inv.mutex_of_inside position rfl
  constructor
  · intro other
    have others := inv.inside other
    rw [holder] at others
    rcases eq_or_ne other fiber with equal | different
    · subst other
      simp [goTo, outside]
    · simp [goTo, different, ← others, different.symm]
  · exact inv.conserved
  · exact inv.nonneg
  · exact inv.drained
  · exact inv.fifo
  · refine inv.refs_moved position rfl (inv.handing_eq position rfl) rfl fun other => ?_
    rw [waiting]
    rfl
  · exact inv.holds_moved (inv.owed_eq position rfl) rfl rfl

/-- What only records the run plays no part. -/
theorem setLocked (inv : Inv value semaphore) (locked : Bool) :
    Inv value (semaphore.setLocked fiber locked) :=
  ⟨inv.inside, inv.conserved, inv.nonneg, inv.drained, inv.fifo, inv.refs, inv.holds⟩

theorem run (inv : Inv value semaphore) {next : CoSemaphore Fiber}
    (taken : semaphore.run fiber = some next) : Inv value next := by
  cases position : semaphore.position fiber with
  | outside => simp [CoSemaphore.run, position] at taken
  | acquire call =>
      simp only [CoSemaphore.run, position, Option.ite_none_right_eq_some,
        Option.some.injEq] at taken
      rcases taken with ⟨free, rfl⟩
      cases call <;> exact inv.acquire position free rfl rfl rfl rfl
  | tryTest =>
      simp only [CoSemaphore.run, position] at taken
      cases taken
      exact inv.tryWait position
  | waitTest =>
      simp only [CoSemaphore.run, position] at taken
      cases taken
      exact inv.wait position
  | addHold =>
      simp only [CoSemaphore.run, position] at taken
      cases taken
      exact inv.underLock (.unlock .wait false) 1 position ⟨rfl, rfl⟩ rfl (fun _ => rfl) rfl
  | notifyTest =>
      simp only [CoSemaphore.run, position] at taken
      cases taken
      exact inv.notify position
  | activate waiter =>
      simp only [CoSemaphore.run, position] at taken
      cases taken
      have activated : ∀ other, Function.update semaphore.activated waiter
          (semaphore.activated waiter + 1) other +
            (if (CoPosition.delHold : CoPosition Fiber).handing = some other then 1 else 0) =
          semaphore.activated other +
            if (CoPosition.activate waiter).handing = some other then 1 else 0 := by
        intro other
        simp only [CoPosition.handing, Function.update_apply, Option.some.injEq]
        split
        · subst other
          simp
        · rename_i different
          simp [Ne.symm different]
      have kept := inv.underLock .delHold 0 position ⟨rfl, rfl⟩ rfl activated rfl
      simpa [setActivated, goTo] using kept
  | delHold =>
      simp only [CoSemaphore.run, position] at taken
      cases taken
      exact inv.underLock (.unlock .notify true) (-1) position ⟨rfl, rfl⟩ rfl
        (fun _ => rfl) rfl
  | unlock call granted =>
      cases call with
      | wait =>
          cases granted with
          | true =>
              simp only [CoSemaphore.run, position] at taken
              cases taken
              exact (inv.unlock .outside position rfl rfl).setLocked true
          | false =>
              simp only [CoSemaphore.run, position] at taken
              cases taken
              exact inv.unlock .yielding position rfl rfl
      | tryWait | notify =>
          simp only [CoSemaphore.run, position] at taken
          cases taken
          exact inv.unlock .outside position rfl rfl
  | yielding =>
      simp only [CoSemaphore.run, position] at taken
      cases taken
      have kept := inv.outsideLock .parked (semaphore.activated fiber) position ⟨rfl, rfl⟩ rfl
      simpa [setActivated] using kept
  | parked =>
      simp only [CoSemaphore.run, position] at taken
      split at taken
      · cases taken
      · cases taken
        have kept := inv.outsideLock .outside (semaphore.activated fiber - 1) position
          ⟨rfl, rfl⟩ (by simp [CoPosition.waiting]; omega)
        exact kept.setLocked true

theorem step (inv : Inv value semaphore) {action : CoAction Fiber}
    {next : CoSemaphore Fiber} (taken : semaphore.step action = some next) :
    Inv value next := by
  cases action with
  | call fiber call =>
      simp only [CoSemaphore.step, Option.ite_none_right_eq_some, Option.some.injEq] at taken
      rcases taken with ⟨position, rfl⟩
      have kept := inv.outsideLock (.acquire call) (semaphore.activated fiber) position
        ⟨rfl, rfl⟩ rfl
      simpa [setActivated] using kept
  | run fiber => exact inv.run taken
  | elsewhere holds =>
      simp only [CoSemaphore.step, Option.some.injEq] at taken
      subst next
      have before := inv.holds
      refine ⟨inv.inside, inv.conserved, inv.nonneg, inv.drained, inv.fifo, inv.refs, ?_⟩
      have same : semaphore.owed = CoSemaphore.owed { semaphore with
        holdCount := semaphore.holdCount + holds
        others := semaphore.others + holds } := rfl
      rw [← same]
      simp only
      omega

end Inv

/-! ## The mutex -/

/-- `CoMutex` has one permit, offers no `tryWait`, and its user unlocks only what it has
locked. -/
def MutexUse (semaphore : CoSemaphore Fiber) : CoAction Fiber → Prop
  | .call fiber .notify => semaphore.locked fiber = true
  | .call _ .tryWait => False
  | _ => True

/-- The fiber has the permit: it is between `lock` and `unlock`, or its `lock` is about
to return. -/
def Owns (semaphore : CoSemaphore Fiber) (fiber : Fiber) : Prop :=
  semaphore.locked fiber = true ∨ semaphore.position fiber = .unlock .wait true ∨
    (semaphore.position fiber).waiting = true ∧ fiber ∉ semaphore.holdQue

structure MutexInv (semaphore : CoSemaphore Fiber) : Prop where
  inv : Inv 1 semaphore
  noTry : ∀ fiber, semaphore.position fiber ≠ .acquire .tryWait ∧
    semaphore.position fiber ≠ .tryTest
  unlocks : ∀ fiber, semaphore.position fiber = .acquire .notify ∨
    semaphore.position fiber = .notifyTest → semaphore.locked fiber = true
  owner : (semaphore.value = 1 ∧ ∀ fiber, ¬semaphore.Owns fiber) ∨
    semaphore.value = 0 ∧ ∃ owner, ∀ fiber, semaphore.Owns fiber → fiber = owner

theorem mutexInv_new : MutexInv (new Fiber 1) where
  inv := inv_new (by decide)
  noTry := by simp [new]
  unlocks := by simp [new]
  owner := by simp [new, Owns, CoPosition.waiting]

namespace MutexInv

variable {semaphore next : CoSemaphore Fiber} {fiber : Fiber}

/-- A step that moves one fiber and gives nobody the permit. -/
theorem moved (mutex : MutexInv semaphore) (inv : Inv 1 next) {new : CoPosition Fiber}
    (position : next.position = Function.update semaphore.position fiber new)
    (value : next.value = semaphore.value)
    (locked : ∀ other, other ≠ fiber → next.locked other = semaphore.locked other)
    (holdQue : ∀ other, other ≠ fiber → other ∉ next.holdQue → other ∉ semaphore.holdQue)
    (noTry : new ≠ .acquire .tryWait ∧ new ≠ .tryTest)
    (unlocks : new = .acquire .notify ∨ new = .notifyTest → next.locked fiber = true)
    (owns : next.Owns fiber → semaphore.Owns fiber) : MutexInv next where
  inv := inv
  noTry := by
    intro other
    rw [position, Function.update_apply]
    split
    · exact noTry
    · exact mutex.noTry other
  unlocks := by
    intro other
    rw [position, Function.update_apply]
    split
    · subst other
      exact unlocks
    · rename_i different
      rw [locked other different]
      exact mutex.unlocks other
  owner := by
    have kept : ∀ other, next.Owns other → semaphore.Owns other := by
      intro other
      rcases eq_or_ne other fiber with equal | different
      · subst other
        exact owns
      · unfold Owns
        rw [position, Function.update_of_ne different, locked other different]
        have queued := holdQue other different
        tauto
    rw [value]
    rcases mutex.owner with ⟨free, nobody⟩ | ⟨taken, owner, only⟩
    · exact .inl ⟨free, fun other owns => nobody other (kept other owns)⟩
    · exact .inr ⟨taken, owner, fun other owns => only other (kept other owns)⟩

theorem wait (mutex : MutexInv semaphore) (position : semaphore.position fiber = .waitTest) :
    MutexInv (semaphore.wait fiber) := by
  have inv := mutex.inv.wait position
  unfold CoSemaphore.wait at inv ⊢
  split at inv
  · rename_i available
    simp only [available, ite_true]
    rcases mutex.owner with ⟨free, nobody⟩ | ⟨taken, _⟩
    · refine ⟨inv, ?_, ?_, .inr ⟨?_, fiber, ?_⟩⟩
      · intro other
        have noTry := mutex.noTry other
        simp only [goTo, Function.update_apply]
        split <;> simp_all
      · intro other
        have unlocks := mutex.unlocks other
        simp only [goTo, Function.update_apply]
        split <;> simp_all
      · simp only [goTo]
        omega
      · intro other owns
        apply Classical.byContradiction
        intro different
        apply nobody other
        simpa [Owns, goTo, different] using owns
    · omega
  · rename_i exhausted
    simp only [exhausted, ite_false]
    refine mutex.moved inv rfl rfl (fun _ _ => rfl) ?_ (by simp) (by simp) ?_
    · intro other _ absent
      simp only [goTo, List.mem_append, not_or] at absent
      exact absent.1
    · intro owns
      left
      simpa [Owns, goTo] using owns

theorem notify (mutex : MutexInv semaphore)
    (position : semaphore.position fiber = .notifyTest) :
    MutexInv (semaphore.notify fiber) := by
  have inv := mutex.inv.notify position
  have locked := mutex.unlocks fiber (.inr position)
  have owned : semaphore.value = 0 ∧ ∀ other, semaphore.Owns other → other = fiber := by
    rcases mutex.owner with ⟨_, nobody⟩ | ⟨taken, owner, only⟩
    · exact absurd (.inl locked) (nobody fiber)
    · rw [only fiber (.inl locked)]
      exact ⟨taken, only⟩
  rcases owned with ⟨taken, only⟩
  unfold CoSemaphore.notify at inv ⊢
  split at inv
  · rename_i waiter rest waiting
    refine ⟨inv, ?_, ?_, .inr ⟨taken, waiter, ?_⟩⟩
    · intro other
      have noTry := mutex.noTry other
      simp only [goTo, setLocked, Function.update_apply]
      split <;> simp_all
    · intro other
      have unlocks := mutex.unlocks other
      simp only [goTo, setLocked, Function.update_apply]
      split <;> simp_all
    · intro other owns
      have different : other ≠ fiber := by
        intro equal
        subst other
        simp [Owns, goTo, setLocked, CoPosition.waiting] at owns
      have before := mt (only other) different
      simp [Owns, goTo, setLocked, different, waiting] at owns before
      grind
  · refine ⟨inv, ?_, ?_, .inl ⟨?_, ?_⟩⟩
    · intro other
      have noTry := mutex.noTry other
      simp only [goTo, setLocked, Function.update_apply]
      split <;> simp_all
    · intro other
      have unlocks := mutex.unlocks other
      simp only [goTo, setLocked, Function.update_apply]
      split <;> simp_all
    · simp only [goTo, setLocked]
      omega
    · intro other owns
      have different : other ≠ fiber := by
        intro equal
        subst other
        simp [Owns, goTo, setLocked, CoPosition.waiting] at owns
      apply different
      apply only
      simpa [Owns, goTo, setLocked, different] using owns

theorem run (mutex : MutexInv semaphore) (taken : semaphore.run fiber = some next) :
    MutexInv next := by
  have inv := mutex.inv.run taken
  cases position : semaphore.position fiber with
  | outside => simp [CoSemaphore.run, position] at taken
  | acquire call =>
      simp only [CoSemaphore.run, position, Option.ite_none_right_eq_some,
        Option.some.injEq] at taken
      rcases taken with ⟨_, rfl⟩
      cases call with
      | tryWait => exact absurd position (mutex.noTry fiber).1
      | wait =>
          refine mutex.moved inv rfl rfl (fun _ _ => rfl) (fun _ _ => id) (by simp) (by simp) ?_
          simp [Owns, goTo, CoPosition.waiting]
          tauto
      | notify =>
          have locked := mutex.unlocks fiber (.inl position)
          exact mutex.moved inv rfl rfl (fun _ _ => rfl) (fun _ _ => id) (by simp)
            (fun _ => locked) (fun _ => .inl locked)
  | tryTest => exact absurd position (mutex.noTry fiber).2
  | waitTest =>
      simp only [CoSemaphore.run, position] at taken
      cases taken
      exact mutex.wait position
  | notifyTest =>
      simp only [CoSemaphore.run, position] at taken
      cases taken
      exact mutex.notify position
  | addHold | activate waiter | delHold | yielding =>
      simp only [CoSemaphore.run, position] at taken
      cases taken
      refine mutex.moved inv rfl rfl (fun _ _ => rfl) (fun _ _ => id) (by simp) (by simp) ?_
      simp [Owns, goTo, setActivated, CoPosition.waiting, position]
  | unlock call granted =>
      cases call <;> cases granted <;> simp only [CoSemaphore.run, position] at taken <;>
        cases taken
      all_goals
        refine mutex.moved inv rfl rfl ?_ (fun _ _ => id) (by simp) (by simp) ?_
        · intro other different
          simp [goTo, setLocked, different]
        · simp [Owns, goTo, setLocked, CoPosition.waiting, position]
  | parked =>
      simp only [CoSemaphore.run, position] at taken
      split at taken
      · cases taken
      · rename_i activated
        cases taken
        refine mutex.moved inv rfl rfl ?_ (fun _ _ => id) (by simp) (by simp) ?_
        · intro other different
          simp [goTo, setLocked, setActivated, different]
        · intro _
          right; right
          have refs := mutex.inv.refs fiber
          rw [position] at refs
          simp only [CoPosition.waiting, ite_true] at refs
          exact ⟨by rw [position]; rfl, by rw [← List.count_eq_zero]; omega⟩

theorem step (mutex : MutexInv semaphore) {action : CoAction Fiber}
    (allowed : semaphore.MutexUse action) (taken : semaphore.step action = some next) :
    MutexInv next := by
  have inv := mutex.inv.step taken
  cases action with
  | call fiber call =>
      simp only [CoSemaphore.step, Option.ite_none_right_eq_some, Option.some.injEq] at taken
      rcases taken with ⟨position, rfl⟩
      cases call with
      | tryWait => cases allowed
      | wait =>
          refine mutex.moved inv rfl rfl (fun _ _ => rfl) (fun _ _ => id) (by simp) (by simp) ?_
          simp [Owns, goTo, CoPosition.waiting]
          tauto
      | notify =>
          exact mutex.moved inv rfl rfl (fun _ _ => rfl) (fun _ _ => id) (by simp)
            (fun _ => allowed) (fun _ => .inl allowed)
  | run fiber => exact mutex.run taken
  | elsewhere holds =>
      simp only [CoSemaphore.step, Option.some.injEq] at taken
      subst next
      exact ⟨inv, mutex.noTry, mutex.unlocks, mutex.owner⟩

end MutexInv

/-! ## Runs -/

section

variable {value : Int} {semaphore : CoSemaphore Fiber}

theorem inv_of_reachable (nonneg : 0 ≤ value)
    (reachable : (machine Fiber value).Reachable semaphore) : Inv value semaphore := by
  apply reachable.invariant
  · intro semaphore starts
    rw [starts]
    exact inv_new nonneg
  · intro semaphore action next _ inv _ taken
    exact inv.step taken

theorem mutexInv_of_reachable
    (reachable : (machine Fiber 1).ReachableWhere MutexUse semaphore) :
    MutexInv semaphore := by
  apply reachable.invariant
  · intro semaphore starts
    rw [starts]
    exact mutexInv_new
  · intro semaphore action next _ mutex allowed taken
    exact mutex.step allowed taken

instance (semaphore : CoSemaphore Fiber) : ∀ action, Decidable (semaphore.MutexUse action)
  | .call fiber .notify => inferInstanceAs (Decidable (semaphore.locked fiber = true))
  | .call _ .tryWait => inferInstanceAs (Decidable False)
  | .call _ .wait | .run _ | .elsewhere _ => inferInstanceAs (Decidable True)

end

end CoSemaphore

end FiberNet
