import FiberNet.Scheduler.Scheduler
import Mathlib.Algebra.BigOperators.Group.Finset.Basic
import Mathlib.Data.Finset.Powerset

/-! # The blocking batch queue

`TSQueue` is one deque under a spin lock, so what an operation does between `lock` and
`unlock` is one step. A blocking pop that finds the deque empty unlocks and calls
`m_nput.wait()`, outside the lock.
-/

namespace FiberNet

/-- What a pop asks for. The `k` of the source is an `int`. -/
inductive Pop
  | front
  | back
  | kFront (k : Int)
  | kBack (k : Int)
  deriving DecidableEq, Repr

namespace Pop

variable {Value : Type}

def popkFront : Nat → List Value → List Value × List Value
  | 0, deq => ([], deq)
  | _ + 1, [] => ([], [])
  | k + 1, value :: deq =>
      let (c, rest) := popkFront k deq
      (value :: c, rest)

def popkBack : Nat → List Value → List Value × List Value
  | 0, deq => ([], deq)
  | k + 1, deq =>
      match deq.getLast? with
      | none => ([], deq)
      | some value =>
          let (c, rest) := popkBack k deq.dropLast
          (value :: c, rest)

/-- What a pop takes from the deque, in the order in which it takes it, and what it
leaves. -/
def take (pop : Pop) (deq : List Value) : List Value × List Value :=
  match pop with
  | .front => popkFront 1 deq
  | .back => popkBack 1 deq
  | .kFront k => popkFront k.toNat deq
  | .kBack k => popkBack k.toNat deq

/-- How many elements a pop takes when they are there. -/
def demand : Pop → Nat
  | .front | .back => 1
  | .kFront k | .kBack k => k.toNat

end Pop

/-- Which end a push is at, and what it puts there: one element, or a whole list. -/
inductive Push (Value : Type)
  | front (value : Value)
  | back (value : Value)
  | kFront (values : List Value)
  | kBack (values : List Value)
  deriving DecidableEq, Repr

namespace Push

variable {Value : Type}

def put (push : Push Value) (deq : List Value) : List Value :=
  match push with
  | .front value => value :: deq
  | .back value => deq ++ [value]
  | .kFront values => values.foldl (fun deq value => value :: deq) deq
  | .kBack values => values.foldl (fun deq value => deq ++ [value]) deq

def values : Push Value → List Value
  | .front value | .back value => [value]
  | .kFront values | .kBack values => values

end Push

/-- `waiting` are the consumers from their `unlock` to the return of `m_nput.wait()`,
`woken` those that returned from it and wait for the lock, `pop` is what each of them
called. The last three fields only record the run. -/
structure TSQueue (Value Thread : Type) where
  deq : List Value
  nput : Nat
  waiting : Finset Thread
  woken : Finset Thread
  pop : Thread → Pop
  pushed : List Value
  popped : List Value
  cleared : List Value

inductive TSQueueAction (Value Thread : Type)
  | push (push : Push Value)
  | tryPop (pop : Pop)
  /-- A blocking pop, up to its first look at the deque. -/
  | pop (thread : Thread) (pop : Pop)
  | wait (thread : Thread)
  /-- `sem_wait` fails, and `wait` throws out of the pop. -/
  | interrupt (thread : Thread)
  | lock (thread : Thread)
  | clear
  deriving DecidableEq, Repr

namespace TSQueue

variable {Value Thread : Type}

def new (pop : Thread → Pop) : TSQueue Value Thread where
  deq := []
  nput := 0
  waiting := ∅
  woken := ∅
  pop := pop
  pushed := []
  popped := []
  cleared := []

/-- However long the list is, `m_nput.notify()` is called once. It throws at
`SEM_VALUE_MAX`, when the elements are already there. -/
def push (queue : TSQueue Value Thread) (push : Push Value) : TSQueue Value Thread :=
  { queue with
    deq := push.put queue.deq
    nput := Scheduler.semPost queue.nput
    pushed := queue.pushed ++ push.values }

def takes (queue : TSQueue Value Thread) (pop : Pop) : TSQueue Value Thread :=
  { queue with
    deq := (pop.take queue.deq).2
    popped := queue.popped ++ (pop.take queue.deq).1 }

def clear (queue : TSQueue Value Thread) : TSQueue Value Thread :=
  { queue with
    deq := []
    cleared := queue.cleared ++ queue.deq }

variable [DecidableEq Thread]

/-- The `while` of a blocking pop, from `lock` to the end or to `unlock`. -/
def attempt (queue : TSQueue Value Thread) (thread : Thread) (pop : Pop) :
    TSQueue Value Thread :=
  match queue.deq with
  | [] =>
      { queue with
        waiting := insert thread queue.waiting
        pop := Function.update queue.pop thread pop }
  | _ :: _ => queue.takes pop

def step (queue : TSQueue Value Thread) :
    TSQueueAction Value Thread → Option (TSQueue Value Thread)
  | .push push => some (queue.push push)
  | .tryPop pop =>
      match queue.deq with
      | [] => some queue
      | _ :: _ => some (queue.takes pop)
  | .pop thread pop =>
      if thread ∈ queue.waiting ∪ queue.woken then none
      else some (queue.attempt thread pop)
  | .wait thread =>
      if thread ∈ queue.waiting ∧ 0 < queue.nput then
        some { queue with
          nput := queue.nput - 1
          waiting := queue.waiting.erase thread
          woken := insert thread queue.woken }
      else none
  | .interrupt thread =>
      if thread ∈ queue.waiting then
        some { queue with waiting := queue.waiting.erase thread }
      else none
  | .lock thread =>
      if thread ∈ queue.woken then
        some ({ queue with woken := queue.woken.erase thread }.attempt thread
          (queue.pop thread))
      else none
  | .clear => some queue.clear

def machine (Value Thread : Type) [DecidableEq Thread] :
    Machine (TSQueue Value Thread) (TSQueueAction Value Thread) where
  initial queue := ∃ pop, queue = new pop
  step := step

/-! ## The promise -/

/-- Nobody sleeps beside elements, once all but the sleepers are done. -/
def Drained (queue : TSQueue Value Thread) : Prop :=
  queue.woken = ∅ → queue.nput = 0 → queue.deq = [] ∨ queue.waiting = ∅

/-- What was pushed is what was popped, cleared or is still there, each once. -/
def Conserves (queue : TSQueue Value Thread) : Prop :=
  (queue.popped ++ queue.cleared ++ queue.deq).Perm queue.pushed

def asked (queue : TSQueue Value Thread) (threads : Finset Thread) : Nat :=
  ∑ thread ∈ threads, (queue.pop thread).demand

/-- Whichever sleepers the posts wake, they and those already awake ask for all the elements,
unless nobody else sleeps. -/
def Covered (queue : TSQueue Value Thread) : Prop :=
  ∀ chosen ∈ queue.waiting.powersetCard queue.nput, chosen ≠ queue.waiting →
    queue.deq.length ≤ queue.asked chosen + queue.asked queue.woken

/-- The consumers that the posts let through, with the post of this push, ask for all that
is in the deque and all that comes. -/
def Feeds (queue : TSQueue Value Thread) : TSQueueAction Value Thread → Prop
  | .push push =>
      ∀ chosen ∈ queue.waiting.powersetCard (Scheduler.semPost queue.nput),
        chosen ≠ queue.waiting →
        queue.deq.length + push.values.length ≤ queue.asked chosen + queue.asked queue.woken
  | _ => True

instance (queue : TSQueue Value Thread) (action : TSQueueAction Value Thread) :
    Decidable (queue.Feeds action) := by
  cases action <;> unfold Feeds <;> infer_instance

end TSQueue

/-! ## One operation -/

namespace Pop

variable {Value : Type}

theorem popkFront_eq (k : Nat) (deq : List Value) :
    popkFront k deq = (deq.take k, deq.drop k) := by
  induction k generalizing deq with
  | zero => rfl
  | succ k induction =>
      cases deq with
      | nil => rfl
      | cons value deq => rw [popkFront, induction]; rfl

theorem popkBack_eq (k : Nat) (deq : List Value) :
    popkBack k deq = ((deq.drop (deq.length - k)).reverse, deq.take (deq.length - k)) := by
  induction k generalizing deq with
  | zero => simp [popkBack]
  | succ k induction =>
      induction deq using List.reverseRecOn with
      | nil => simp [popkBack]
      | append_singleton deq value _ =>
          have shorter : (deq ++ [value]).length - (k + 1) = deq.length - k := by simp
          have inside : deq.length - k ≤ deq.length := Nat.sub_le _ _
          rw [popkBack, List.getLast?_concat]
          dsimp only
          rw [List.dropLast_concat, induction, shorter, List.drop_append_of_le_length inside,
            List.take_append_of_le_length inside, List.reverse_concat]

theorem length_take (pop : Pop) (deq : List Value) :
    (pop.take deq).2.length = deq.length - pop.demand := by
  cases pop <;> simp [take, demand, popkFront_eq, popkBack_eq]

theorem perm_take (pop : Pop) (deq : List Value) :
    ((pop.take deq).1 ++ (pop.take deq).2).Perm deq := by
  have front : ∀ k, ((popkFront k deq).1 ++ (popkFront k deq).2).Perm deq := by
    intro k
    rw [popkFront_eq, List.take_append_drop]
  have back : ∀ k, ((popkBack k deq).1 ++ (popkBack k deq).2).Perm deq := by
    intro k
    rw [popkBack_eq]
    have ordered := List.perm_append_comm.trans
      (.of_eq (List.take_append_drop (deq.length - k) deq))
    exact ((List.reverse_perm _).append_right _).trans ordered
  cases pop with
  | front => exact front 1
  | back => exact back 1
  | kFront k => exact front k.toNat
  | kBack k => exact back k.toNat

end Pop

namespace Push

variable {Value : Type}

theorem perm_put (push : Push Value) (deq : List Value) :
    (push.put deq).Perm (deq ++ push.values) := by
  cases push with
  | front value => exact (List.perm_append_singleton value deq).symm
  | back value => exact .refl _
  | kFront values =>
      show (values.foldl (fun deq value => value :: deq) deq).Perm (deq ++ values)
      induction values generalizing deq with
      | nil => simp
      | cons value values induction =>
          exact (induction (value :: deq)).trans List.perm_middle.symm
  | kBack values =>
      show (values.foldl (fun deq value => deq ++ [value]) deq).Perm (deq ++ values)
      induction values generalizing deq with
      | nil => simp
      | cons value values induction => simpa using induction (deq ++ [value])

end Push

namespace TSQueue

variable {Value Thread : Type} [DecidableEq Thread]
  {queue next : TSQueue Value Thread} {action : TSQueueAction Value Thread}

omit [DecidableEq Thread] in
theorem Conserves.takes (conserves : queue.Conserves) (pop : Pop) :
    (queue.takes pop).Conserves := by
  have swapped : (queue.popped ++ (pop.take queue.deq).1 ++ queue.cleared).Perm
      (queue.popped ++ queue.cleared ++ (pop.take queue.deq).1) := by
    rw [List.append_assoc, List.append_assoc]
    exact List.perm_append_comm.append_left _
  have whole := (swapped.append_right (pop.take queue.deq).2).trans
    (.of_eq (List.append_assoc _ _ _))
  exact (whole.trans ((Pop.perm_take pop queue.deq).append_left _)).trans conserves

theorem Conserves.attempt (conserves : queue.Conserves) (thread : Thread) (pop : Pop) :
    (queue.attempt thread pop).Conserves := by
  unfold TSQueue.attempt
  split
  · exact conserves
  · exact conserves.takes pop

theorem Conserves.step (conserves : queue.Conserves) (taken : queue.step action = some next) :
    next.Conserves := by
  cases action with
  | push push =>
      cases taken
      have more := (Push.perm_put push queue.deq).append_left (queue.popped ++ queue.cleared)
      rw [← List.append_assoc] at more
      exact more.trans (conserves.append_right _)
  | tryPop pop =>
      simp only [TSQueue.step] at taken
      split at taken <;> cases taken
      · exact conserves
      · exact conserves.takes pop
  | pop thread pop =>
      simp only [TSQueue.step, Option.ite_none_left_eq_some, Option.some.injEq] at taken
      rcases taken with ⟨_, rfl⟩
      exact conserves.attempt thread pop
  | wait thread =>
      simp only [TSQueue.step, Option.ite_none_right_eq_some, Option.some.injEq] at taken
      rcases taken with ⟨_, rfl⟩
      exact conserves
  | interrupt thread =>
      simp only [TSQueue.step, Option.ite_none_right_eq_some, Option.some.injEq] at taken
      rcases taken with ⟨_, rfl⟩
      exact conserves
  | lock thread =>
      simp only [TSQueue.step, Option.ite_none_right_eq_some, Option.some.injEq] at taken
      rcases taken with ⟨_, rfl⟩
      apply attempt
      exact conserves
  | clear =>
      cases taken
      show (queue.popped ++ (queue.cleared ++ queue.deq) ++ []).Perm queue.pushed
      rw [List.append_nil, ← List.append_assoc]
      exact conserves

/-! ## Who is woken for what -/

/-- Nobody is asleep and awake. -/
structure Sound (queue : TSQueue Value Thread) : Prop where
  apart : Disjoint queue.waiting queue.woken
  covered : queue.Covered

omit [DecidableEq Thread] in
theorem covered_of_nil (empty : queue.deq = []) : queue.Covered := by
  intro chosen _ _
  rw [empty]
  exact Nat.zero_le _

omit [DecidableEq Thread] in
theorem Sound.takes (sound : queue.Sound) (pop : Pop) : (queue.takes pop).Sound where
  apart := sound.apart
  covered := by
    intro chosen inside others
    have fewer : (pop.take queue.deq).2.length ≤ queue.deq.length := by
      rw [Pop.length_take]
      exact Nat.sub_le _ _
    exact fewer.trans (sound.covered chosen inside others)

theorem Sound.attempt (sound : queue.Sound) {thread : Thread} (outside : thread ∉ queue.woken)
    (pop : Pop) : (queue.attempt thread pop).Sound := by
  unfold TSQueue.attempt
  split
  · rename_i empty
    refine ⟨?_, covered_of_nil empty⟩
    rw [Finset.disjoint_insert_left]
    exact ⟨outside, sound.apart⟩
  · exact sound.takes pop

/-- A consumer that was let through takes its place among those awake. -/
theorem Sound.wait (sound : queue.Sound) {thread : Thread} (member : thread ∈ queue.waiting)
    (posted : 0 < queue.nput) :
    Sound { queue with
      nput := queue.nput - 1
      waiting := queue.waiting.erase thread
      woken := insert thread queue.woken } where
  apart := by
    rw [Finset.disjoint_insert_right]
    exact ⟨Finset.notMem_erase _ _, sound.apart.mono_left (Finset.erase_subset _ _)⟩
  covered := by
    intro chosen inside others
    rcases Finset.mem_powersetCard.mp inside with ⟨subset, card⟩
    dsimp only at subset card others
    have absent : thread ∉ chosen := fun own => Finset.notMem_erase _ _ (subset own)
    have awake : thread ∉ queue.woken := Finset.disjoint_left.mp sound.apart member
    have covered := sound.covered (insert thread chosen)
      (by
        rw [Finset.mem_powersetCard, Finset.card_insert_of_notMem absent]
        refine ⟨Finset.insert_subset member (subset.trans (Finset.erase_subset _ _)), ?_⟩
        omega)
      (by
        intro whole
        rw [← whole, Finset.erase_insert absent] at others
        exact others rfl)
    simp only [asked] at covered ⊢
    rw [Finset.sum_insert absent] at covered
    rw [Finset.sum_insert awake]
    omega

theorem Sound.interrupt (sound : queue.Sound) {thread : Thread}
    (member : thread ∈ queue.waiting) :
    Sound { queue with waiting := queue.waiting.erase thread } where
  apart := sound.apart.mono_left (Finset.erase_subset _ _)
  covered := by
    intro chosen inside _
    rcases Finset.mem_powersetCard.mp inside with ⟨subset, card⟩
    apply sound.covered chosen
    · rw [Finset.mem_powersetCard]
      exact ⟨subset.trans (Finset.erase_subset _ _), card⟩
    · intro whole
      rw [whole] at subset
      exact Finset.notMem_erase _ _ (subset member)

/-- A consumer that got the lock takes what it asked for, or all there is. -/
theorem Sound.lock (sound : queue.Sound) {thread : Thread} (member : thread ∈ queue.woken) :
    ({ queue with woken := queue.woken.erase thread }.attempt thread
      (queue.pop thread)).Sound := by
  have apart : Disjoint queue.waiting (queue.woken.erase thread) :=
    sound.apart.mono_right (Finset.erase_subset _ _)
  unfold TSQueue.attempt
  dsimp only
  split
  · rename_i empty
    refine ⟨?_, covered_of_nil empty⟩
    rw [Finset.disjoint_insert_left]
    exact ⟨Finset.notMem_erase _ _, apart⟩
  · refine ⟨apart, ?_⟩
    intro chosen inside others
    have covered := sound.covered chosen inside others
    have left := Pop.length_take (queue.pop thread) queue.deq
    have split := Finset.add_sum_erase queue.woken
      (fun thread => (queue.pop thread).demand) member
    simp only [TSQueue.takes, asked] at covered ⊢
    omega

theorem Sound.step (sound : queue.Sound) (feeds : queue.Feeds action)
    (taken : queue.step action = some next) : next.Sound := by
  cases action with
  | push push =>
      cases taken
      refine ⟨sound.apart, ?_⟩
      intro chosen inside others
      have length := (Push.perm_put push queue.deq).length_eq
      rw [List.length_append] at length
      exact length.le.trans (feeds chosen inside others)
  | tryPop pop =>
      simp only [TSQueue.step] at taken
      split at taken <;> cases taken
      · exact sound
      · exact sound.takes pop
  | pop thread pop =>
      simp only [TSQueue.step, Option.ite_none_left_eq_some, Option.some.injEq] at taken
      rcases taken with ⟨outside, rfl⟩
      apply sound.attempt
      intro awake
      exact outside (Finset.mem_union_right _ awake)
  | wait thread =>
      simp only [TSQueue.step, Option.ite_none_right_eq_some, Option.some.injEq] at taken
      rcases taken with ⟨⟨member, posted⟩, rfl⟩
      exact sound.wait member posted
  | interrupt thread =>
      simp only [TSQueue.step, Option.ite_none_right_eq_some, Option.some.injEq] at taken
      rcases taken with ⟨member, rfl⟩
      exact sound.interrupt member
  | lock thread =>
      simp only [TSQueue.step, Option.ite_none_right_eq_some, Option.some.injEq] at taken
      rcases taken with ⟨member, rfl⟩
      exact sound.lock member
  | clear =>
      cases taken
      exact ⟨sound.apart, covered_of_nil rfl⟩

theorem Sound.drained (sound : queue.Sound) : queue.Drained := by
  intro awake posts
  by_cases asleep : queue.waiting = ∅
  · exact .inr asleep
  · left
    have covered := sound.covered ∅ (by simp [posts]) (Ne.symm asleep)
    rw [awake] at covered
    exact List.length_eq_zero_iff.mp (Nat.le_zero.mp covered)

/-! ## Every run -/

theorem conserves_of_reachable (reachable : (machine Value Thread).Reachable queue) :
    queue.Conserves := by
  have starts : ∀ queue : TSQueue Value Thread, (machine Value Thread).initial queue →
      queue.Conserves := by
    rintro queue ⟨pop, rfl⟩
    exact .refl _
  exact reachable.invariant starts fun _ _ _ _ conserves _ taken => conserves.step taken

theorem sound_of_reachable (reachable : (machine Value Thread).ReachableWhere Feeds queue) :
    queue.Sound := by
  have starts : ∀ queue : TSQueue Value Thread, (machine Value Thread).initial queue →
      queue.Sound := by
    rintro queue ⟨pop, rfl⟩
    exact ⟨Finset.disjoint_empty_left _, covered_of_nil rfl⟩
  exact reachable.invariant starts fun _ _ _ _ sound feeds taken => sound.step feeds taken

/-- Nothing is lost or popped twice in any run, and nobody sleeps beside elements in the runs
that push no more than the consumers they wake ask for. -/
theorem batch_queue (Value Thread : Type) [DecidableEq Thread] :
    (∀ {queue : TSQueue Value Thread}, (machine Value Thread).Reachable queue →
      queue.Conserves) ∧
    ∀ {queue : TSQueue Value Thread}, (machine Value Thread).ReachableWhere Feeds queue →
      queue.Drained :=
  ⟨conserves_of_reachable, fun reachable => (sound_of_reachable reachable).drained⟩

/-- Two consumers sleep, three elements come one by one, and one is left when both are
served. -/
theorem batch_queue_single :
    ∃ queue : TSQueue Nat Nat, queue.deq = [3] ∧ queue.Conserves ∧ queue.Drained := by
  have starts : (machine Nat Nat).initial (new fun _ => .front) := ⟨_, rfl⟩
  rcases Machine.exists_reachableWhere_of_run (machine Nat Nat) Feeds starts
    [.pop 0 .front, .pop 1 (.kFront 1), .push (.back 1), .push (.back 2), .push (.kBack [3]),
      .wait 1, .wait 0, .lock 0, .lock 1]
    (fun queue => queue.deq == [3]) (by decide) with ⟨queue, reachable, left⟩
  exact ⟨queue, eq_of_beq left, (batch_queue Nat Nat).1 reachable.reachable,
    (batch_queue Nat Nat).2 reachable⟩

/-- Two consumers sleep when a list of two is pushed. One wakes and takes one. -/
theorem not_batch_queue :
    ¬ ∀ queue : TSQueue Nat Nat, (machine Nat Nat).Reachable queue →
      queue.Drained ∧ queue.Conserves := by
  intro holds
  have starts : (machine Nat Nat).initial (new fun _ => .front) := ⟨_, rfl⟩
  rcases Machine.exists_reachable_of_run (machine Nat Nat) starts
    [.pop 0 .front, .pop 1 .front, .push (.kBack [1, 2]), .wait 0, .lock 0]
    (fun queue => queue.woken == ∅ && queue.nput == 0 && queue.deq == [2] &&
      queue.waiting == {1}) (by decide) with ⟨queue, reachable, tested⟩
  simp only [Bool.and_eq_true, beq_iff_eq] at tested
  rcases tested with ⟨⟨⟨awake, posts⟩, left⟩, asleep⟩
  rcases (holds queue reachable).1 awake posts with none | none
  · rw [left] at none
    cases none
  · rw [asleep] at none
    exact Finset.singleton_ne_empty 1 none

end TSQueue

end FiberNet
