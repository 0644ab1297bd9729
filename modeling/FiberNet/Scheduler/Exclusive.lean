import FiberNet.Scheduler.Scheduler

/-! # A fiber is executed by one Processer at a time

A fiber may be published, passed to `addFiber` and even fetched while the
Processer that runs it has not switched out yet. Two things are therefore tracked
for each fiber: where its one reference is (`place`), and which Processer has
swapped it in and not let go of it (`runner`). The two are independent exactly
while the fiber is `EXEC`.
-/

namespace FiberNet

namespace Position

variable {Fiber : Type}

/-- The fiber that was fetched and not run yet. -/
def front : Position Fiber → Option Fiber
  | .checkHold fiber | .checkReady fiber | .checkExec fiber | .requeue fiber
  | .setReady fiber | .swapIn fiber => some fiber
  | _ => none

/-- The fiber that was swapped in and whose state may still be written. -/
def back : Position Fiber → Option Fiber
  | .inside fiber _ | .testReady fiber | .addReady fiber | .testExec fiber
  | .setHold fiber | .testHold fiber | .testTerm fiber | .testExcept fiber
  | .subtract (some fiber) | .retire fiber => some fiber
  | _ => none

/-- The fiber the Processer has made its own: past the test for `EXEC`, or
swapped in. -/
def claim : Position Fiber → Option Fiber
  | .setReady fiber | .swapIn fiber => some fiber
  | position => position.back

theorem claim_of_back {position : Position Fiber} {fiber : Fiber}
    (back : position.back = some fiber) : position.claim = some fiber := by
  cases position <;> first | exact back | cases back

def carried : Position Fiber → List Fiber
  | .subtractStolen fibers | .store fibers => fibers
  | _ => []

end Position

/-- The fiber about to be pushed. -/
def Submission.fiber {n : Nat} {Fiber : Type} : Submission n Fiber → Option Fiber
  | .push fiber _ _ => some fiber
  | _ => none

/-- Where the reference through which a fiber will be run can be. -/
inductive Place (n : Nat) (Producer : Type)
  | source
  | producer (producer : Producer)
  | queue (processer : Fin n)
  | carried (processer : Fin n)
  | front (processer : Fin n)
  deriving DecidableEq

namespace Scheduler

variable {n : Nat} {Fiber Producer : Type} [DecidableEq Fiber] [DecidableEq Producer]

/-- How many references to a fiber a place holds. -/
def refs (scheduler : Scheduler n Fiber Producer) (fiber : Fiber) :
    Place n Producer → Nat
  | .source => if (scheduler.published fiber).isSome then 1 else 0
  | .producer producer => if (scheduler.submission producer).fiber = some fiber then 1 else 0
  | .queue p => (scheduler.que p).count fiber
  | .carried p => (scheduler.position p).carried.count fiber
  | .front p => if (scheduler.position p).front = some fiber then 1 else 0

/-- What a position says about its fiber. -/
def Settled (state : Fiber → FiberState) (place : Fiber → Option (Place n Producer))
    (runner : Fiber → Option (Fin n)) : Position Fiber → Prop
  | .setReady fiber => runner fiber = none
  | .swapIn fiber => runner fiber = none ∧ state fiber = .ready
  | .inside fiber .running => place fiber = none ∧ state fiber = .exec
  | .inside fiber .published => state fiber = .exec
  | .inside fiber .yielding => place fiber = none ∧ state fiber = .ready
  | .inside fiber .ended =>
      place fiber = none ∧ (state fiber = .term ∨ state fiber = .except)
  | .testReady fiber =>
      state fiber = .exec ∨ place fiber = none ∧
        (state fiber = .ready ∨ state fiber = .term ∨ state fiber = .except)
  | .addReady fiber => place fiber = none ∧ state fiber = .ready
  | .testExec fiber =>
      state fiber = .exec ∨ place fiber = none ∧
        (state fiber = .term ∨ state fiber = .except)
  | .setHold fiber => state fiber = .exec
  | .testHold fiber | .testTerm fiber | .subtract (some fiber) | .retire fiber =>
      place fiber = none ∧ (state fiber = .term ∨ state fiber = .except)
  | .testExcept fiber => place fiber = none ∧ state fiber = .except
  | _ => True

structure Custody (scheduler : Scheduler n Fiber Producer)
    (place : Fiber → Option (Place n Producer)) (runner : Fiber → Option (Fin n)) :
    Prop where
  placed : ∀ fiber spot,
    scheduler.refs fiber spot = if place fiber = some spot then 1 else 0
  backed : ∀ p fiber, (scheduler.position p).back = some fiber ↔ runner fiber = some p
  settled : ∀ p, Settled scheduler.state place runner (scheduler.position p)
  fresh : ∀ fiber, scheduler.created fiber = false →
    place fiber = none ∧ runner fiber = none
  unlimited : ∀ p, (scheduler.que p).Unlimited

theorem custody_start : Custody (start n Fiber Producer) (fun _ => none) (fun _ => none) where
  placed := by
    intro fiber spot
    cases spot <;>
      simp [refs, start, Submission.fiber, WorkQueue.count, Position.carried, Position.front]
  backed := by simp [start, Position.back]
  settled := by simp [start, Settled]
  fresh := by simp
  unlimited := by simp [start, WorkQueue.Unlimited]

namespace Custody

variable {scheduler : Scheduler n Fiber Producer}
  {place : Fiber → Option (Place n Producer)} {runner : Fiber → Option (Fin n)}

theorem place_of_refs (custody : Custody scheduler place runner) {fiber : Fiber}
    {spot : Place n Producer} (holds : scheduler.refs fiber spot ≠ 0) :
    place fiber = some spot := by
  have counted := custody.placed fiber spot
  split at counted
  · assumption
  · exact absurd counted holds

theorem place_of_front (custody : Custody scheduler place runner) {p : Fin n}
    {fiber : Fiber} (front : (scheduler.position p).front = some fiber) :
    place fiber = some (.front p) := by
  apply custody.place_of_refs
  simp [refs, front]

theorem place_of_position (custody : Custody scheduler place runner) {p : Fin n}
    {position : Position Fiber} {fiber : Fiber} (equal : scheduler.position p = position)
    (front : position.front = some fiber) : place fiber = some (.front p) := by
  apply custody.place_of_front
  rw [equal, front]

/-- A fiber is claimed by the Processer that runs it, or by the one that fetched it
when nobody runs it. -/
theorem claimed (custody : Custody scheduler place runner) {p : Fin n} {fiber : Fiber}
    (claim : (scheduler.position p).claim = some fiber) :
    runner fiber = some p ∨ place fiber = some (.front p) ∧ runner fiber = none := by
  have settled := custody.settled p
  cases position : scheduler.position p with
  | setReady other =>
      rw [position] at claim settled
      cases claim
      exact .inr ⟨custody.place_of_front (by rw [position]; rfl), settled⟩
  | swapIn other =>
      rw [position] at claim settled
      cases claim
      exact .inr ⟨custody.place_of_front (by rw [position]; rfl), settled.1⟩
  | _ =>
      left
      apply (custody.backed p fiber).mp
      rw [position] at claim ⊢
      exact claim

theorem claim_unique (custody : Custody scheduler place runner) {p q : Fin n}
    {fiber : Fiber} (first : (scheduler.position p).claim = some fiber)
    (second : (scheduler.position q).claim = some fiber) : p = q := by
  rcases custody.claimed first with runs | ⟨fetched, idle⟩ <;>
    rcases custody.claimed second with runs' | ⟨fetched', idle'⟩
  · rw [runs] at runs'
    exact Option.some.inj runs'
  · rw [runs] at idle'
    cases idle'
  · rw [idle] at runs'
    cases runs'
  · rw [fetched] at fetched'
    simpa using fetched'

omit [DecidableEq Fiber] [DecidableEq Producer] in
/-- What a position says stays true while nobody writes the state of the claimed
fiber, gives it a place or gives it a runner. -/
theorem settled_of_same {position : Position Fiber} {state state' : Fiber → FiberState}
    {place place' : Fiber → Option (Place n Producer)}
    {runner runner' : Fiber → Option (Fin n)}
    (same : ∀ fiber, position.claim = some fiber → state' fiber = state fiber ∧
      (place fiber = none → place' fiber = none) ∧
      (runner fiber = none → runner' fiber = none))
    (settled : Settled state place runner position) :
    Settled state' place' runner' position := by
  cases position with
  | inside fiber activity =>
      rcases same fiber rfl with ⟨unwritten, unplaced, _⟩
      cases activity <;> simp_all [Settled]
  | subtract ended =>
      cases ended with
      | none => trivial
      | some fiber =>
          rcases same fiber rfl with ⟨unwritten, unplaced, _⟩
          simp only [Settled, unwritten] at settled ⊢
          tauto
  | setReady fiber | swapIn fiber | testReady fiber | addReady fiber | testExec fiber
  | setHold fiber | testHold fiber | testTerm fiber | testExcept fiber | retire fiber =>
      rcases same fiber rfl with ⟨unwritten, unplaced, unrun⟩
      simp only [Settled, unwritten] at settled ⊢
      tauto
  | _ => trivial

theorem unclaimed_of_fresh (custody : Custody scheduler place runner) {fiber : Fiber}
    (fresh : scheduler.created fiber = false) (p : Fin n) :
    (scheduler.position p).claim ≠ some fiber := by
  intro claim
  rcases custody.fresh fiber fresh with ⟨unplaced, unrun⟩
  rcases custody.claimed claim with runs | ⟨fetched, _⟩
  · rw [unrun] at runs
    cases runs
  · rw [unplaced] at fetched
    cases fetched

/-! ## Steps that move no fiber -/

theorem same (custody : Custody scheduler place runner)
    {next : Scheduler n Fiber Producer} (same : SameFibers scheduler next) :
    Custody next place runner where
  placed := by
    intro fiber spot
    rw [← custody.placed fiber spot]
    cases spot <;> simp only [refs, same.published, same.que, same.position, same.submission]
  backed := by
    rw [same.position]
    exact custody.backed
  settled := by
    rw [same.position, same.state]
    exact custody.settled
  fresh := by
    rw [same.created]
    exact custody.fresh
  unlimited := by
    rw [same.que]
    exact custody.unlimited

/-- A thread moves on inside `addFiber` with no fiber in hand. -/
theorem resubmit (custody : Custody scheduler place runner) {producer : Producer}
    {submission : Submission n Fiber}
    (before : (scheduler.submission producer).fiber = none)
    (after : submission.fiber = none) :
    Custody (scheduler.setSubmission producer submission) place runner where
  placed := by
    intro fiber spot
    rw [← custody.placed fiber spot]
    cases spot <;> simp only [refs, setSubmission, Function.update_apply] <;> grind
  backed := custody.backed
  settled := custody.settled
  fresh := custody.fresh
  unlimited := custody.unlimited

/-- A Processer moves on with the same fiber in hand. -/
theorem reposition (custody : Custody scheduler place runner) (p : Fin n)
    {position : Position Fiber}
    (front : position.front = (scheduler.position p).front)
    (back : position.back = (scheduler.position p).back)
    (carried : position.carried = (scheduler.position p).carried)
    (settled : Settled scheduler.state place runner position) :
    Custody (scheduler.goTo p position) place runner where
  placed := by
    intro fiber spot
    rw [← custody.placed fiber spot]
    cases spot <;> simp only [refs, goTo, Function.update_apply] <;> grind
  backed := by
    intro q fiber
    rw [← custody.backed q fiber]
    simp only [goTo, Function.update_apply]
    split <;> simp_all
  settled := by
    intro q
    simp only [goTo, Function.update_apply]
    split
    · exact settled
    · exact custody.settled q
  fresh := custody.fresh
  unlimited := custody.unlimited

omit [DecidableEq Fiber] [DecidableEq Producer] in
theorem settled_of_unclaimed {position : Position Fiber} {state : Fiber → FiberState}
    (unclaimed : position.claim = none) : Settled state place runner position := by
  cases position with
  | subtract ended =>
      cases ended with
      | none => trivial
      | some fiber => cases unclaimed
  | _ => trivial

/-! ## Steps that move a reference -/

theorem move (custody : Custody scheduler place runner)
    {next : Scheduler n Fiber Producer} {place' : Fiber → Option (Place n Producer)}
    (state : next.state = scheduler.state) (created : next.created = scheduler.created)
    (kept : ∀ fiber, place fiber = none ↔ place' fiber = none)
    (placed : ∀ fiber spot, next.refs fiber spot = if place' fiber = some spot then 1 else 0)
    (position : ∀ p, next.position p = scheduler.position p ∨
      (next.position p).claim = none ∧ (next.position p).back = (scheduler.position p).back)
    (unlimited : ∀ p, (next.que p).Unlimited) : Custody next place' runner where
  placed := placed
  backed := by
    intro p fiber
    rw [← custody.backed p fiber]
    rcases position p with same | ⟨_, same⟩ <;> rw [same]
  settled := by
    intro p
    rw [state]
    rcases position p with same | ⟨unclaimed, _⟩
    · rw [same]
      exact settled_of_same (fun fiber _ => ⟨rfl, (kept fiber).mp, id⟩) (custody.settled p)
    · exact settled_of_unclaimed unclaimed
  fresh := by
    intro fiber fresh
    rw [created] at fresh
    rcases custody.fresh fiber fresh with ⟨unplaced, unrun⟩
    exact ⟨(kept fiber).mp unplaced, unrun⟩
  unlimited := unlimited

theorem unlimited_setQue (custody : Custody scheduler place runner) {p : Fin n}
    {que : WorkQueue Fiber} (unlimited : que.Unlimited) (q : Fin n) :
    ((scheduler.setQue p que).que q).Unlimited := by
  simp only [setQue, Function.update_apply]
  split
  · exact unlimited
  · exact custody.unlimited q

omit [DecidableEq Producer] in
theorem kept_of_placed {fiber : Fiber} {spot spot' : Place n Producer}
    (placed : place fiber = some spot) (other : Fiber) :
    place other = none ↔ Function.update place fiber (some spot') other = none := by
  rw [Function.update_apply]
  split
  · subst other
    simp [placed]
  · rfl

theorem fetch (custody : Custody scheduler place runner) {p : Fin n} {prio : Priority}
    {fiber : Fiber} {rest : WorkQueue Fiber}
    (position : scheduler.position p = .fetch)
    (fetched : (scheduler.que p).fetchFiber = some (prio, fiber, rest)) :
    Custody ((scheduler.setQue p rest).goTo p (.checkHold fiber))
      (Function.update place fiber (some (.front p))) runner := by
  have queued : place fiber = some (.queue p) := by
    apply custody.place_of_refs
    simp [refs, WorkQueue.count_fetchFiber fetched]
  refine custody.move rfl rfl (kept_of_placed queued) ?_ ?_ ?_
  · intro other spot
    have counted := WorkQueue.count_fetchFiber fetched other
    have placed := custody.placed other spot
    cases spot <;> simp only [refs, goTo, setQue, Function.update_apply] at * <;>
      grind [Position.front, Position.carried]
  · intro q
    simp only [goTo, setQue, Function.update_apply]
    grind [Position.claim, Position.back]
  · exact custody.unlimited_setQue (WorkQueue.unlimited_fetchFiber (custody.unlimited p) fetched)

theorem requeue (custody : Custody scheduler place runner) {p : Fin n} {fiber : Fiber}
    (position : scheduler.position p = .requeue fiber) :
    Custody ((scheduler.setQue p ((scheduler.que p).addFiber (some fiber)).1).goTo p .fetch)
      (Function.update place fiber (some (.queue p))) runner := by
  have fetched := custody.place_of_position position rfl
  refine custody.move rfl rfl (kept_of_placed fetched) ?_ ?_ ?_
  · intro other spot
    have counted := WorkQueue.count_addFiber (custody.unlimited p) fiber other
    have placed := custody.placed other spot
    cases spot <;> simp only [refs, goTo, setQue, Function.update_apply] at * <;>
      grind [Position.front, Position.carried]
  · intro q
    simp only [goTo, setQue, Function.update_apply]
    grind [Position.claim, Position.back]
  · exact custody.unlimited_setQue (WorkQueue.unlimited_addFiber (custody.unlimited p) fiber)

/-- Several fibers at once, from the queue to the Processer's own list. -/
theorem steal (custody : Custody scheduler place runner) {p : Fin n} {nr : Nat}
    (position : scheduler.position p = .steal nr) (next : Position Fiber)
    (carried : next.carried = ((scheduler.que p).fetchFibers nr).1)
    (front : next.front = none) (claim : next.claim = none) (back : next.back = none) :
    Custody ((scheduler.setQue p ((scheduler.que p).fetchFibers nr).2).goTo p next)
      (fun fiber => if fiber ∈ ((scheduler.que p).fetchFibers nr).1 then some (.carried p)
        else place fiber) runner := by
  have queued : ∀ fiber ∈ ((scheduler.que p).fetchFibers nr).1,
      place fiber = some (.queue p) := by
    intro fiber member
    apply custody.place_of_refs
    have counted := WorkQueue.count_fetchFibers (scheduler.que p) nr fiber
    have positive := List.count_pos_iff.mpr member
    simp only [refs]
    omega
  refine custody.move rfl rfl ?_ ?_ ?_ ?_
  · intro fiber
    split
    · simp [queued fiber ‹_›]
    · rfl
  · intro fiber spot
    have counted := WorkQueue.count_fetchFibers (scheduler.que p) nr fiber
    have placed := custody.placed fiber spot
    have queued := custody.placed fiber (.queue p)
    have absent := @List.count_eq_zero _ _ _ fiber ((scheduler.que p).fetchFibers nr).1
    cases spot <;> simp only [refs, goTo, setQue, Function.update_apply] at * <;>
      grind [Position.front, Position.carried]
  · intro q
    simp only [goTo, setQue, Function.update_apply]
    grind [Position.back]
  · exact custody.unlimited_setQue (WorkQueue.unlimited_fetchFibers (custody.unlimited p) nr)

theorem store (custody : Custody scheduler place runner) {p : Fin n} {fibers : List Fiber}
    (position : scheduler.position p = .store fibers) (nr sz : Nat) :
    Custody ((scheduler.setQue p ((scheduler.que p).addFibers (fibers.map some)).1).goTo p
      (.addStored nr sz))
      (fun fiber => if fiber ∈ fibers then some (.queue p) else place fiber) runner := by
  have carried : ∀ fiber ∈ fibers, place fiber = some (.carried p) := by
    intro fiber member
    apply custody.place_of_refs
    have positive := List.count_pos_iff.mpr member
    simp only [refs, position, Position.carried]
    omega
  refine custody.move rfl rfl ?_ ?_ ?_ ?_
  · intro fiber
    split
    · simp [carried fiber ‹_›]
    · rfl
  · intro fiber spot
    have counted := WorkQueue.count_addFibers (custody.unlimited p) fibers fiber
    have placed := custody.placed fiber spot
    have carried := custody.placed fiber (.carried p)
    have absent := @List.count_eq_zero _ _ _ fiber fibers
    cases spot <;> simp only [refs, goTo, setQue, Function.update_apply] at * <;>
      grind [Position.front, Position.carried]
  · intro q
    simp only [goTo, setQue, Function.update_apply]
    grind [Position.claim, Position.back]
  · exact custody.unlimited_setQue (WorkQueue.unlimited_addFibers (custody.unlimited p) fibers)

theorem wake (custody : Custody scheduler place runner) {producer : Producer}
    {fiber : Fiber} {p : Fin n} {holds : Int}
    (idle : scheduler.submission producer = .idle)
    (published : (scheduler.published fiber).isSome = true) :
    Custody ((scheduler.setPublished fiber none).setSubmission producer (.push fiber p holds))
      (Function.update place fiber (some (.producer producer))) runner := by
  have source : place fiber = some .source := by
    apply custody.place_of_refs
    simp [refs, published]
  refine custody.move rfl rfl (kept_of_placed source) ?_ ?_ ?_
  · intro other spot
    have placed := custody.placed other spot
    cases spot <;>
      simp only [refs, setPublished, setSubmission, Function.update_apply] at * <;>
      grind [Submission.fiber]
  · intro q
    exact .inl rfl
  · exact custody.unlimited

theorem push (custody : Custody scheduler place runner) {producer : Producer}
    {fiber : Fiber} {p : Fin n} {holds : Int}
    (pushing : scheduler.submission producer = .push fiber p holds) :
    Custody ((scheduler.setQue p ((scheduler.que p).addFiber (some fiber)).1).setSubmission
        producer (.count p holds))
      (Function.update place fiber (some (.queue p))) runner := by
  have held : place fiber = some (.producer producer) := by
    apply custody.place_of_refs
    simp [refs, pushing, Submission.fiber]
  refine custody.move rfl rfl (kept_of_placed held) ?_ ?_ ?_
  · intro other spot
    have counted := WorkQueue.count_addFiber (custody.unlimited p) fiber other
    have placed := custody.placed other spot
    cases spot <;>
      simp only [refs, setQue, setSubmission, Function.update_apply] at * <;>
      grind [Submission.fiber]
  · intro q
    exact .inl rfl
  · exact custody.unlimited_setQue (WorkQueue.unlimited_addFiber (custody.unlimited p) fiber)

/-! ## Steps on a claimed fiber -/

/-- The Processer that claims a fiber may write its state and move it. No other
position says anything about that fiber. -/
theorem act (custody : Custody scheduler place runner) (swapped : Bool) {p : Fin n}
    {fiber : Fiber} (claim : (scheduler.position p).claim = some fiber)
    {next : Scheduler n Fiber Producer} {position : Position Fiber} {state : FiberState}
    {spot : Option (Place n Producer)}
    (written : next.state = Function.update scheduler.state fiber state)
    (created : next.created = scheduler.created)
    (moved : next.position = Function.update scheduler.position p position)
    (placed : ∀ other at', next.refs other at' =
      if Function.update place fiber spot other = some at' then 1 else 0)
    (back : position.back = if swapped then some fiber else none)
    (settled : Settled next.state (Function.update place fiber spot)
      (Function.update runner fiber (if swapped then some p else none)) position)
    (unlimited : ∀ q, (next.que q).Unlimited) :
    Custody next (Function.update place fiber spot)
      (Function.update runner fiber (if swapped then some p else none)) where
  placed := placed
  backed := by
    intro q other
    rw [moved]
    rcases eq_or_ne q p with equal | differentProcesser
    · subst equal
      rw [Function.update_self, back]
      rcases eq_or_ne other fiber with equal | differentFiber
      · subst equal
        rw [Function.update_self]
        cases swapped <;> simp
      · rw [Function.update_of_ne differentFiber, ← custody.backed q other]
        constructor
        · intro isOther
          split at isOther <;> simp_all
        · intro behind
          rw [Position.claim_of_back behind] at claim
          exact absurd (Option.some.inj claim) differentFiber
    · rw [Function.update_of_ne differentProcesser, custody.backed q other]
      rcases eq_or_ne other fiber with equal | differentFiber
      · subst equal
        rw [Function.update_self]
        constructor
        · intro runs
          have claims := Position.claim_of_back ((custody.backed q other).mpr runs)
          exact absurd (custody.claim_unique claims claim) differentProcesser
        · intro runs
          split at runs
          · exact absurd (Option.some.inj runs).symm differentProcesser
          · cases runs
      · rw [Function.update_of_ne differentFiber]
  settled := by
    intro q
    rw [moved]
    rcases eq_or_ne q p with equal | different
    · subst equal
      rw [Function.update_self]
      exact settled
    · rw [Function.update_of_ne different]
      apply settled_of_same _ (custody.settled q)
      intro other claims
      have distinct : other ≠ fiber := by
        intro equal
        subst other
        exact different (custody.claim_unique claims claim)
      rw [written, Function.update_of_ne distinct, Function.update_of_ne distinct,
        Function.update_of_ne distinct]
      exact ⟨rfl, id, id⟩
  fresh := by
    intro other fresh
    rw [created] at fresh
    have distinct : other ≠ fiber := by
      intro equal
      subst other
      exact custody.unclaimed_of_fresh fresh p claim
    rw [Function.update_of_ne distinct, Function.update_of_ne distinct]
    exact custody.fresh other fresh
  unlimited := unlimited

omit [DecidableEq Fiber] [DecidableEq Producer] in
theorem claim_of_position {p : Fin n} {fiber : Fiber} {position : Position Fiber}
    (equal : scheduler.position p = position) (claim : position.claim = some fiber) :
    (scheduler.position p).claim = some fiber := by
  rw [equal, claim]

theorem setReady (custody : Custody scheduler place runner) {p : Fin n} {fiber : Fiber}
    (position : scheduler.position p = .setReady fiber) :
    Custody ((scheduler.setState fiber .ready).goTo p (.swapIn fiber))
      (Function.update place fiber (some (.front p))) (Function.update runner fiber none) := by
  have fetched := custody.place_of_position position rfl
  refine custody.act false (claim_of_position position rfl) rfl rfl rfl ?_ rfl ?_
    custody.unlimited
  · intro other spot
    have placed := custody.placed other spot
    cases spot <;> simp only [refs, goTo, setState, Function.update_apply] at * <;>
      grind [Position.front, Position.carried]
  · simp [Settled, goTo, setState]

theorem swapIn (custody : Custody scheduler place runner) {p : Fin n} {fiber : Fiber}
    (position : scheduler.position p = .swapIn fiber) :
    Custody ((scheduler.setState fiber .exec).goTo p (.inside fiber .running))
      (Function.update place fiber none) (Function.update runner fiber (some p)) := by
  have fetched := custody.place_of_position position rfl
  refine custody.act true (claim_of_position position rfl) rfl rfl rfl ?_ rfl ?_
    custody.unlimited
  · intro other spot
    have placed := custody.placed other spot
    cases spot <;> simp only [refs, goTo, setState, Function.update_apply] at * <;>
      grind [Position.front, Position.carried]
  · simp [Settled, goTo, setState]

theorem publish (custody : Custody scheduler place runner) {p : Fin n} {fiber : Fiber}
    (position : scheduler.position p = .inside fiber .running) (source : Source) :
    Custody ((scheduler.setPublished fiber (some source)).goTo p (.inside fiber .published))
      (Function.update place fiber (some .source)) (Function.update runner fiber (some p)) := by
  have settled := custody.settled p
  rw [position] at settled
  rcases settled with ⟨unplaced, executing⟩
  refine custody.act true (claim_of_position position rfl)
    (Function.update_eq_self fiber scheduler.state).symm rfl rfl ?_ rfl executing
    custody.unlimited
  intro other spot
  have placed := custody.placed other spot
  cases spot <;> simp only [refs, goTo, setPublished, Function.update_apply] at * <;>
    grind [Position.front, Position.carried]

/-- The running fiber stores a state that is not `EXEC`. -/
theorem storeState (custody : Custody scheduler place runner) {p : Fin n} {fiber : Fiber}
    (position : scheduler.position p = .inside fiber .running) {state : FiberState}
    {activity : Activity}
    (settled : activity = .yielding ∧ state = .ready ∨
      activity = .ended ∧ (state = .term ∨ state = .except)) :
    Custody ((scheduler.setState fiber state).goTo p (.inside fiber activity))
      (Function.update place fiber none) (Function.update runner fiber (some p)) := by
  have unplaced := custody.settled p
  rw [position] at unplaced
  refine custody.act true (claim_of_position position rfl) rfl rfl rfl ?_ rfl ?_
    custody.unlimited
  · intro other spot
    have placed := custody.placed other spot
    have absent := unplaced.1
    cases spot <;> simp only [refs, goTo, setState, Function.update_apply] at * <;>
      grind [Position.front, Position.carried]
  · rcases settled with ⟨rfl, rfl⟩ | ⟨rfl, rfl | rfl⟩ <;> simp [Settled, goTo, setState]

theorem addReady (custody : Custody scheduler place runner) {p : Fin n} {fiber : Fiber}
    (position : scheduler.position p = .addReady fiber) :
    Custody ((scheduler.setQue p ((scheduler.que p).addFiber (some fiber)).1).goTo p .fetch)
      (Function.update place fiber (some (.queue p))) (Function.update runner fiber none) := by
  have settled := custody.settled p
  rw [position] at settled
  rcases settled with ⟨unplaced, _⟩
  refine custody.act false (claim_of_position position rfl)
    (Function.update_eq_self fiber scheduler.state).symm rfl rfl ?_ rfl trivial ?_
  · intro other spot
    have counted := WorkQueue.count_addFiber (custody.unlimited p) fiber other
    have placed := custody.placed other spot
    cases spot <;> simp only [refs, goTo, setQue, Function.update_apply] at * <;>
      grind [Position.front, Position.carried]
  · exact custody.unlimited_setQue (WorkQueue.unlimited_addFiber (custody.unlimited p) fiber)

theorem setHold (custody : Custody scheduler place runner) {p : Fin n} {fiber : Fiber}
    (position : scheduler.position p = .setHold fiber) :
    Custody ((scheduler.setState fiber .hold).goTo p (.subtract none))
      (Function.update place fiber (place fiber)) (Function.update runner fiber none) := by
  refine custody.act false (claim_of_position position rfl) rfl rfl rfl ?_ rfl trivial
    custody.unlimited
  intro other spot
  have placed := custody.placed other spot
  cases spot <;> simp only [refs, goTo, setState, Function.update_apply] at * <;>
    grind [Position.front, Position.carried]

/-- The Processer lets go of a fiber that ended. -/
theorem drop (custody : Custody scheduler place runner) {p : Fin n} {fiber : Fiber}
    (claim : (scheduler.position p).claim = some fiber)
    (front : (scheduler.position p).front = none)
    (carried : (scheduler.position p).carried = []) {position : Position Fiber}
    (empty : position.front = none ∧ position.back = none ∧ position.carried = [])
    (settled : position.claim = none) :
    Custody (scheduler.goTo p position)
      (Function.update place fiber (place fiber)) (Function.update runner fiber none) := by
  rcases empty with ⟨noFront, noBack, noneCarried⟩
  refine custody.act false claim (Function.update_eq_self fiber scheduler.state).symm
    rfl rfl ?_ (by simpa using noBack) (settled_of_unclaimed settled) custody.unlimited
  intro other spot
  have placed := custody.placed other spot
  cases spot <;> simp only [refs, goTo, Function.update_apply] at * <;> grind

/-! ## Fibers that come and go -/

/-- A fiber that nobody has gets its first place. -/
theorem create (custody : Custody scheduler place runner) {fiber : Fiber}
    (fresh : scheduler.created fiber = false) {next : Scheduler n Fiber Producer}
    {spot : Place n Producer} (state : next.state = scheduler.state)
    (created : next.created = Function.update scheduler.created fiber true)
    (position : next.position = scheduler.position) (que : next.que = scheduler.que)
    (placed : ∀ other at', next.refs other at' =
      if Function.update place fiber (some spot) other = some at' then 1 else 0) :
    Custody next (Function.update place fiber (some spot)) runner where
  placed := placed
  backed := by
    rw [position]
    exact custody.backed
  settled := by
    intro p
    rw [position, state]
    apply settled_of_same _ (custody.settled p)
    intro other claim
    have distinct : other ≠ fiber := by
      intro equal
      subst other
      exact custody.unclaimed_of_fresh fresh p claim
    rw [Function.update_of_ne distinct]
    exact ⟨rfl, id, id⟩
  fresh := by
    intro other unborn
    rw [created, Function.update_apply] at unborn
    split at unborn
    · cases unborn
    · rw [Function.update_of_ne ‹_›]
      exact custody.fresh other unborn
  unlimited := by
    rw [que]
    exact custody.unlimited

theorem addNew (custody : Custody scheduler place runner) {producer : Producer}
    {fiber : Fiber} (p : Fin n) (holds : Int)
    (idle : scheduler.submission producer = .idle)
    (fresh : scheduler.created fiber = false) :
    Custody ({ scheduler with
        created := Function.update scheduler.created fiber true }.setSubmission producer
          (.push fiber p holds))
      (Function.update place fiber (some (.producer producer))) runner := by
  refine custody.create fresh rfl rfl rfl rfl ?_
  intro other spot
  have placed := custody.placed other spot
  have unplaced := (custody.fresh fiber fresh).1
  cases spot <;> simp only [refs, setSubmission, Function.update_apply] at * <;>
    grind [Submission.fiber]

theorem register (custody : Custody scheduler place runner) {fiber : Fiber}
    (source : Source) (fresh : scheduler.created fiber = false) :
    Custody ({ scheduler with
        created := Function.update scheduler.created fiber true }.setPublished fiber
          (some source))
      (Function.update place fiber (some .source)) runner := by
  refine custody.create fresh rfl rfl rfl rfl ?_
  intro other spot
  have placed := custody.placed other spot
  have unplaced := (custody.fresh fiber fresh).1
  cases spot <;> simp only [refs, setPublished, Function.update_apply] at * <;> grind

theorem withdraw (custody : Custody scheduler place runner) {fiber : Fiber}
    (published : (scheduler.published fiber).isSome = true) :
    Custody (scheduler.setPublished fiber none) (Function.update place fiber none) runner where
  placed := by
    intro other spot
    have placed := custody.placed other spot
    have source : place fiber = some .source := by
      apply custody.place_of_refs
      simp [refs, published]
    cases spot <;> simp only [refs, setPublished, Function.update_apply] at * <;> grind
  backed := custody.backed
  settled := by
    intro p
    apply settled_of_same _ (custody.settled p)
    intro other _
    rw [Function.update_apply]
    exact ⟨rfl, by split <;> simp, id⟩
  fresh := by
    intro other fresh
    have before := custody.fresh other fresh
    rw [Function.update_apply]
    exact ⟨by split <;> simp [before.1], before.2⟩
  unlimited := custody.unlimited

/-! ## Every step keeps custody -/

/-- A fiber that has a place and is not `EXEC` is not run by anybody. This is what the
reads of `_state` in `Processer::run` rely on. -/
theorem runner_none (custody : Custody scheduler place runner) {fiber : Fiber}
    {spot : Place n Producer} (placed : place fiber = some spot)
    (suspended : scheduler.state fiber ≠ .exec) : runner fiber = none := by
  cases runs : runner fiber with
  | none => rfl
  | some p =>
      have behind := (custody.backed p fiber).mpr runs
      have settled := custody.settled p
      cases position : scheduler.position p with
      | inside other activity =>
          rw [position] at behind settled
          cases behind
          cases activity <;> simp_all [Settled]
      | testReady other | addReady other | testExec other | setHold other | testHold other
      | testTerm other | testExcept other | retire other =>
          rw [position] at behind settled
          cases behind
          simp_all [Settled]
      | subtract ended =>
          rw [position] at behind settled
          cases ended with
          | none => cases behind
          | some other =>
              cases behind
              simp_all [Settled]
      | _ =>
          rw [position] at behind
          cases behind

theorem advance (custody : Custody scheduler place runner) {p : Fin n}
    {old new : Position Fiber} (position : scheduler.position p = old)
    (hands : new.front = old.front ∧ new.back = old.back ∧ new.carried = old.carried)
    (settled : Settled scheduler.state place runner new) :
    ∃ place runner, Custody (scheduler.goTo p new) place runner := by
  subst old
  exact ⟨place, runner, custody.reposition p hands.1 hands.2.1 hands.2.2 settled⟩

theorem addPayLoad (custody : Custody scheduler place runner) (p : Fin n) (load : Int) :
    Custody (scheduler.addPayLoad p load) place runner :=
  custody.same ⟨rfl, rfl, rfl, rfl, rfl, rfl⟩

/-! ### The positions of a Processer -/

section

variable {p : Fin n} {fiber : Fiber} {old : Position Fiber} {next : Scheduler n Fiber Producer}

/-- The tests in front of the jump. A fetched fiber that is not in `EXEC` runs nowhere. -/
theorem run_check (custody : Custody scheduler place runner)
    (position : scheduler.position p = old)
    (check : old = .checkHold fiber ∨ old = .checkReady fiber ∨ old = .checkExec fiber)
    (taken : scheduler.run p = some next) : ∃ place runner, Custody next place runner := by
  have front : old.front = some fiber := by rcases check with rfl | rfl | rfl <;> rfl
  have alone := custody.runner_none (custody.place_of_position position front)
  rcases check with rfl | rfl | rfl
  · simp only [Scheduler.run, position] at taken
    cases taken
    split
    · have suspended : scheduler.state fiber ≠ .exec := by simp_all
      exact custody.advance position ⟨rfl, rfl, rfl⟩ (alone suspended)
    · exact custody.advance position ⟨rfl, rfl, rfl⟩ trivial
  · simp only [Scheduler.run, position] at taken
    cases taken
    split
    · have suspended : scheduler.state fiber ≠ .exec := by simp_all
      exact custody.advance position ⟨rfl, rfl, rfl⟩ (alone suspended)
    · exact custody.advance position ⟨rfl, rfl, rfl⟩ trivial
  · simp only [Scheduler.run, position] at taken
    cases taken
    split
    · exact custody.advance position ⟨rfl, rfl, rfl⟩ trivial
    · exact custody.advance position ⟨rfl, rfl, rfl⟩ (alone ‹_›)

/-- The jump back from a fiber. -/
theorem run_inside (custody : Custody scheduler place runner) {activity : Activity}
    (position : scheduler.position p = .inside fiber activity)
    (taken : scheduler.run p = some next) : ∃ place runner, Custody next place runner := by
  have settled := custody.settled p
  rw [position] at settled
  cases activity with
  | running => simp [Scheduler.run, position] at taken
  | published =>
      simp only [Scheduler.run, position] at taken
      cases taken
      exact custody.advance position ⟨rfl, rfl, rfl⟩ (.inl settled)
  | yielding =>
      simp only [Scheduler.run, position] at taken
      cases taken
      exact custody.advance position ⟨rfl, rfl, rfl⟩ (.inr ⟨settled.1, .inl settled.2⟩)
  | ended =>
      simp only [Scheduler.run, position] at taken
      cases taken
      exact custody.advance position ⟨rfl, rfl, rfl⟩ (.inr ⟨settled.1, .inr settled.2⟩)

/-- The tests behind the jump. -/
theorem run_test (custody : Custody scheduler place runner)
    (position : scheduler.position p = old)
    (test : old = .testReady fiber ∨ old = .testExec fiber ∨ old = .testHold fiber ∨
      old = .testTerm fiber ∨ old = .testExcept fiber)
    (taken : scheduler.run p = some next) : ∃ place runner, Custody next place runner := by
  have settled := custody.settled p
  rw [position] at settled
  rcases test with rfl | rfl | rfl | rfl | rfl
  · simp only [Scheduler.run, position] at taken
    cases taken
    split
    · exact custody.advance position ⟨rfl, rfl, rfl⟩ (by simp_all [Settled])
    · exact custody.advance position ⟨rfl, rfl, rfl⟩ (by simp_all [Settled])
  · simp only [Scheduler.run, position] at taken
    cases taken
    split
    · exact custody.advance position ⟨rfl, rfl, rfl⟩ (by simp_all [Settled])
    · exact custody.advance position ⟨rfl, rfl, rfl⟩ (by simp_all [Settled])
  · simp only [Scheduler.run, position] at taken
    cases taken
    split
    · exact ⟨_, _, custody.drop (claim_of_position position rfl) (by rw [position]; rfl)
        (by rw [position]; rfl) ⟨rfl, rfl, rfl⟩ rfl⟩
    · exact custody.advance position ⟨rfl, rfl, rfl⟩ settled
  · simp only [Scheduler.run, position] at taken
    cases taken
    split
    · exact custody.advance position ⟨rfl, rfl, rfl⟩ settled
    · exact custody.advance position ⟨rfl, rfl, rfl⟩ (by simp_all [Settled])
  · simp only [Scheduler.run, position] at taken
    cases taken
    split
    · exact custody.advance position ⟨rfl, rfl, rfl⟩ ⟨settled.1, .inr settled.2⟩
    · exact ⟨_, _, custody.drop (claim_of_position position rfl) (by rw [position]; rfl)
        (by rw [position]; rfl) ⟨rfl, rfl, rfl⟩ rfl⟩

/-- `--m_payLoad` behind the jump. -/
theorem run_subtract (custody : Custody scheduler place runner) {ended : Option Fiber}
    (position : scheduler.position p = .subtract ended)
    (taken : scheduler.run p = some next) : ∃ place runner, Custody next place runner := by
  have settled := custody.settled p
  rw [position] at settled
  have counted := custody.addPayLoad p (-1)
  cases ended with
  | none =>
      simp only [Scheduler.run, position] at taken
      cases taken
      exact counted.advance position ⟨rfl, rfl, rfl⟩ trivial
  | some fiber =>
      simp only [Scheduler.run, position] at taken
      cases taken
      exact counted.advance position ⟨rfl, rfl, rfl⟩ settled

/-- The fibers of another Processer are taken and put into the own queue. -/
theorem run_stolen (custody : Custody scheduler place runner)
    (position : scheduler.position p = old)
    (stolen : (∃ nr, old = .steal nr) ∨ (∃ fibers, old = .subtractStolen fibers) ∨
      (∃ fibers, old = .store fibers) ∨ ∃ nr sz, old = .addStored nr sz)
    (taken : scheduler.run p = some next) : ∃ place runner, Custody next place runner := by
  rcases stolen with ⟨nr, rfl⟩ | ⟨fibers, rfl⟩ | ⟨fibers, rfl⟩ | ⟨nr, sz, rfl⟩
  · simp only [Scheduler.run, position] at taken
    cases taken
    split
    · exact ⟨_, _, custody.steal position (.store []) (by simp_all [Position.carried]) rfl rfl
        rfl⟩
    · exact ⟨_, _, custody.steal position (.subtractStolen _) rfl rfl rfl rfl⟩
  · simp only [Scheduler.run, position] at taken
    cases taken
    exact (custody.addPayLoad p (-fibers.length)).advance position ⟨rfl, rfl, rfl⟩ trivial
  · simp only [Scheduler.run, position] at taken
    cases taken
    exact ⟨_, _, custody.store position _ _⟩
  · simp only [Scheduler.run, position] at taken
    cases taken
    split <;> exact (custody.addPayLoad p nr).advance position ⟨rfl, rfl, rfl⟩ trivial

/-- The Processer leaves its loop. -/
theorem run_leave (custody : Custody scheduler place runner) {waited : Bool}
    (position : scheduler.position p = .leave waited)
    (taken : scheduler.run p = some next) : ∃ place runner, Custody next place runner := by
  have counted : Custody { scheduler with currentThread := scheduler.currentThread - 1 }
      place runner := custody.same ⟨rfl, rfl, rfl, rfl, rfl, rfl⟩
  simp only [Scheduler.run, position] at taken
  split at taken
  · cases taken
    exact counted.advance position ⟨rfl, rfl, rfl⟩ trivial
  · cases taken
    exact custody.advance position ⟨rfl, rfl, rfl⟩ trivial

theorem run_wait (custody : Custody scheduler place runner)
    (position : scheduler.position p = .wait)
    (taken : scheduler.run p = some next) : ∃ place runner, Custody next place runner := by
  have waited : Custody { scheduler with
      sem := Function.update scheduler.sem p (scheduler.sem p - 1) } place runner :=
    custody.same ⟨rfl, rfl, rfl, rfl, rfl, rfl⟩
  simp only [Scheduler.run, position] at taken
  split at taken
  · cases taken
  · cases taken
    exact waited.advance position ⟨rfl, rfl, rfl⟩ trivial

theorem run (custody : Custody scheduler place runner) (taken : scheduler.run p = some next) :
    ∃ place runner, Custody next place runner := by
  cases position : scheduler.position p with
  | fetch =>
      simp only [Scheduler.run, position] at taken
      split at taken
      · cases taken
        exact ⟨_, _, custody.fetch position ‹_›⟩
      · cases taken
        exact custody.advance position ⟨rfl, rfl, rfl⟩ trivial
  | checkHold fiber => exact custody.run_check position (.inl rfl) taken
  | checkReady fiber => exact custody.run_check position (.inr (.inl rfl)) taken
  | checkExec fiber => exact custody.run_check position (.inr (.inr rfl)) taken
  | requeue fiber =>
      simp only [Scheduler.run, position] at taken
      cases taken
      exact ⟨_, _, custody.requeue position⟩
  | setReady fiber =>
      simp only [Scheduler.run, position] at taken
      cases taken
      exact ⟨_, _, custody.setReady position⟩
  | swapIn fiber =>
      simp only [Scheduler.run, position] at taken
      cases taken
      exact ⟨_, _, custody.swapIn position⟩
  | inside fiber activity => exact custody.run_inside position taken
  | testReady fiber => exact custody.run_test position (.inl rfl) taken
  | testExec fiber => exact custody.run_test position (.inr (.inl rfl)) taken
  | testHold fiber => exact custody.run_test position (.inr (.inr (.inl rfl))) taken
  | testTerm fiber => exact custody.run_test position (.inr (.inr (.inr (.inl rfl)))) taken
  | testExcept fiber => exact custody.run_test position (.inr (.inr (.inr (.inr rfl)))) taken
  | addReady fiber =>
      simp only [Scheduler.run, position] at taken
      cases taken
      exact ⟨_, _, custody.addReady position⟩
  | setHold fiber =>
      simp only [Scheduler.run, position] at taken
      cases taken
      exact ⟨_, _, custody.setHold position⟩
  | subtract ended => exact custody.run_subtract position taken
  | retire fiber =>
      simp only [Scheduler.run, position] at taken
      cases taken
      have counted : Custody { scheduler with totalFibers := scheduler.totalFibers - 1 }
          place runner := custody.same ⟨rfl, rfl, rfl, rfl, rfl, rfl⟩
      exact ⟨_, _, counted.drop (claim_of_position position rfl) (by rw [position]; rfl)
        (by rw [position]; rfl) ⟨rfl, rfl, rfl⟩ rfl⟩
  | balance => simp [Scheduler.run, position] at taken
  | steal nr => exact custody.run_stolen position (.inl ⟨nr, rfl⟩) taken
  | subtractStolen fibers => exact custody.run_stolen position (.inr (.inl ⟨fibers, rfl⟩)) taken
  | store fibers => exact custody.run_stolen position (.inr (.inr (.inl ⟨fibers, rfl⟩))) taken
  | addStored nr sz =>
      exact custody.run_stolen position (.inr (.inr (.inr ⟨nr, sz, rfl⟩))) taken
  | testStopping waited | testTotal waited | testQueue waited | testHolds waited =>
      simp only [Scheduler.run, position] at taken
      cases taken
      split
      · exact custody.advance position ⟨rfl, rfl, rfl⟩ trivial
      · split <;> exact custody.advance position ⟨rfl, rfl, rfl⟩ trivial
  | leave waited => exact custody.run_leave position taken
  | wait => exact custody.run_wait position taken
  | returned => simp [Scheduler.run, position] at taken

end

theorem step (custody : Custody scheduler place runner)
    {action : SchedulerAction n Fiber Producer} {next : Scheduler n Fiber Producer}
    (taken : scheduler.step action = some next) :
    ∃ place runner, Custody next place runner := by
  cases action with
  | run p => exact custody.run taken
  | balance p maxPrc =>
      simp only [Scheduler.step, Scheduler.balance] at taken
      split at taken
      · rename_i position
        split at taken <;> cases taken <;>
          exact custody.advance position ⟨rfl, rfl, rfl⟩ trivial
      · cases taken
  | interrupt p =>
      simp only [Scheduler.step, Scheduler.interrupt] at taken
      split at taken
      · rename_i position
        cases taken
        exact custody.advance position ⟨rfl, rfl, rfl⟩ trivial
      · cases taken
  | publish p source =>
      simp only [Scheduler.step, Scheduler.publish] at taken
      split at taken
      · cases taken
        exact ⟨_, _, (custody.publish ‹_› source).same ⟨rfl, rfl, rfl, rfl, rfl, rfl⟩⟩
      · cases taken
  | yieldToReady p =>
      simp only [Scheduler.step, Scheduler.yieldToReady] at taken
      split at taken
      · cases taken
        exact ⟨_, _, custody.storeState ‹_› (.inl ⟨rfl, rfl⟩)⟩
      · cases taken
  | finish p thrown =>
      simp only [Scheduler.step, Scheduler.finish] at taken
      split at taken
      · cases taken
        exact ⟨_, _, custody.storeState ‹_› (.inr ⟨rfl, by cases thrown <;> simp⟩)⟩
      · cases taken
  | addCallback producer fiber p =>
      simp only [Scheduler.step, Scheduler.addCallback, Option.ite_none_right_eq_some,
        Option.some.injEq] at taken
      rcases taken with ⟨⟨idle, fresh⟩, rfl⟩
      exact ⟨_, _, (custody.addNew p 0 idle fresh).same ⟨rfl, rfl, rfl, rfl, rfl, rfl⟩⟩
  | addNew producer fiber p =>
      simp only [Scheduler.step, Scheduler.addNew, Option.ite_none_right_eq_some,
        Option.some.injEq] at taken
      rcases taken with ⟨⟨idle, fresh⟩, rfl⟩
      exact ⟨_, _, custody.addNew p 0 idle fresh⟩
  | register fiber source =>
      simp only [Scheduler.step, Scheduler.register, Option.ite_none_right_eq_some,
        Option.some.injEq] at taken
      rcases taken with ⟨⟨fresh, _⟩, rfl⟩
      exact ⟨_, _, (custody.register source fresh).same ⟨rfl, rfl, rfl, rfl, rfl, rfl⟩⟩
  | withdraw fiber =>
      simp only [Scheduler.step, Scheduler.withdraw] at taken
      split at taken
      · cases taken
        have published : (scheduler.published fiber).isSome = true := by simp [*]
        exact ⟨_, _, (custody.withdraw published).same ⟨rfl, rfl, rfl, rfl, rfl, rfl⟩⟩
      · cases taken
  | wake producer fiber p =>
      simp only [Scheduler.step, Scheduler.wake] at taken
      split at taken
      · cases taken
        have published : (scheduler.published fiber).isSome = true := by simp [*]
        exact ⟨_, _, custody.wake ‹_› published⟩
      · cases taken
  | proceed producer =>
      simp only [Scheduler.step, Scheduler.proceed] at taken
      cases submission : scheduler.submission producer with
      | idle => simp [submission] at taken
      | push fiber p holds =>
          simp only [submission] at taken
          cases taken
          exact ⟨_, _, custody.push submission⟩
      | count p holds | post p holds | release holds =>
          simp only [submission] at taken
          cases taken
          have before : (scheduler.submission producer).fiber = none := by
            rw [submission]
            rfl
          exact ⟨_, _, (custody.resubmit before rfl).same
            ⟨rfl, rfl, rfl, rfl, rfl, rfl⟩⟩
  | dispatch => exact ⟨_, _, custody.same (sameFibers_dispatch taken)⟩
  | stop => exact ⟨_, _, custody.same (sameFibers_stop taken)⟩
  | endReactor =>
      simp only [Scheduler.step, Scheduler.endReactor, Option.ite_none_right_eq_some,
        Option.some.injEq] at taken
      rcases taken with ⟨_, rfl⟩
      exact ⟨_, _, custody.same ⟨rfl, rfl, rfl, rfl, rfl, rfl⟩⟩

end Custody

/-! ## Runs -/

variable {scheduler : Scheduler n Fiber Producer}

theorem exists_custody (reachable : (machine n Fiber Producer).Reachable scheduler) :
    ∃ place runner, Custody scheduler place runner := by
  let Kept := fun scheduler : Scheduler n Fiber Producer =>
    ∃ place runner, Custody scheduler place runner
  have starts : ∀ scheduler, (machine n Fiber Producer).initial scheduler →
      Kept scheduler := by
    intro scheduler starts
    rw [starts]
    exact ⟨_, _, custody_start⟩
  exact reachable.invariant starts fun _ _ _ _ kept _ taken =>
    kept.elim fun _ kept => kept.elim fun _ custody => custody.step taken

/-- The assertions on `_state` in `Processer::run` and `swapIn`: a fiber about to be
swapped in is `READY`, a fiber that came back is not `INIT`, and no state falls through
to the last branch. -/
theorem state_assertions (reachable : (machine n Fiber Producer).Reachable scheduler)
    (p : Fin n) (fiber : Fiber) :
    (scheduler.position p = .swapIn fiber → scheduler.state fiber = .ready) ∧
    (scheduler.position p = .testReady fiber → scheduler.state fiber ≠ .init) ∧
    (scheduler.position p = .testExcept fiber → scheduler.state fiber = .except) := by
  rcases exists_custody reachable with ⟨place, runner, custody⟩
  have settled := custody.settled p
  refine ⟨?_, ?_, ?_⟩ <;> intro position <;> rw [position] at settled
  · exact settled.2
  · rcases settled with executing | ⟨_, ready | ended | thrown⟩ <;> simp_all
  · exact settled.2

/-- A fiber is taken off `m_totalFibers` as `TERM` or `EXCEPT`, and nobody can run it
again. -/
theorem ended_of_retire (reachable : (machine n Fiber Producer).Reachable scheduler)
    {p : Fin n} {fiber : Fiber} (position : scheduler.position p = .retire fiber) :
    (scheduler.state fiber = .term ∨ scheduler.state fiber = .except) ∧
      ∀ spot, scheduler.refs fiber spot = 0 := by
  rcases exists_custody reachable with ⟨place, runner, custody⟩
  have settled := custody.settled p
  rw [position] at settled
  refine ⟨settled.2, ?_⟩
  intro spot
  rw [custody.placed fiber spot, settled.1]
  simp

/-- No two Processers execute one fiber, and a Processer at the call of `swapIn` finds
the fiber swapped out everywhere. -/
theorem exclusive_execution (reachable : (machine n Fiber Producer).Reachable scheduler)
    (fiber : Fiber) :
    (∀ p q activity activity', scheduler.position p = .inside fiber activity →
      scheduler.position q = .inside fiber activity' → p = q) ∧
    ∀ p, scheduler.position p = .swapIn fiber →
      ∀ q activity, scheduler.position q ≠ .inside fiber activity := by
  rcases exists_custody reachable with ⟨place, runner, custody⟩
  constructor
  · intro p q activity activity' first second
    have claims := Custody.claim_of_position first rfl
    have claims' := Custody.claim_of_position second rfl
    exact custody.claim_unique claims claims'
  · intro p swapping q activity inside
    have claims := Custody.claim_of_position swapping rfl
    have claims' := Custody.claim_of_position inside rfl
    rw [custody.claim_unique claims claims', inside] at swapping
    cases swapping

/-- The second Processer fetched the fiber while it was still `EXEC`, put it back, and
fetched it again after the first one stored `HOLD`. -/
theorem exclusive_execution_after_requeue :
    ∃ scheduler : Scheduler 2 Nat Nat, scheduler.position 1 = .swapIn 7 ∧
      ∀ q activity, scheduler.position q ≠ .inside 7 activity := by
  have starts : (machine 2 Nat Nat).initial (start 2 Nat Nat) := rfl
  rcases Machine.exists_reachable_of_run (machine 2 Nat Nat) starts
    [.addCallback 0 7 0, .proceed 0, .run 0, .run 0, .run 0, .run 0, .run 0, .run 0,
      .publish 0 .semaphore, .wake 1 7 1, .proceed 1, .run 1, .run 1, .run 1, .run 1,
      .run 1, .run 0, .run 0, .run 0, .run 0, .run 1, .run 1, .run 1]
    (fun scheduler => scheduler.position 1 == .swapIn 7) (by decide)
    with ⟨scheduler, reachable, swapping⟩
  have swapping := eq_of_beq swapping
  exact ⟨scheduler, swapping, (exclusive_execution reachable 7).2 1 swapping⟩

end Scheduler

end FiberNet
