import FiberNet.Netio.Hook
import Mathlib.Data.Fintype.Basic

/-! # Calls on a descriptor that is closed and reused

A call keeps the number it was given. As long as no descriptor changes hands under a call
that may still go to the kernel, every system call of `do_io` meets the descriptor with
which it began.
-/

namespace FiberNet

variable {Fiber : Type}

namespace IoPosition

/-- The call that may still execute the system call: no timeout was marked, and the
registration has not failed. -/
def pendingCall (position : IoPosition) (isCancled : Nat → Bool) : Option Call :=
  match position with
  | .direct call | .invoke call => some call
  | .addTimer turn | .addEvent turn | .yield turn | .parked turn | .resumed turn
  | .testCancled turn => if isCancled turn.tinfo then none else some turn.call
  | _ => none

end IoPosition

namespace Hook

/-- The call of `do_io` with which a fiber may still go to the kernel. -/
def mayInvoke (hook : Hook Fiber) (fiber : Fiber) : Option Call :=
  ((hook.position fiber).pendingCall hook.isCancled).filter (·.operation != .connect)

/-- The descriptor number whose generation an action changes. -/
def recycles (hook : Hook Fiber) : HookAction Fiber → Option Nat
  | .closeFd fiber =>
      match hook.position fiber with
      | .close fd => if (hook.kernel fd).isOpen then some fd else none
      | _ => none
  | .socket _ fd => some fd
  | .invoke fiber (.done fd) =>
      match hook.position fiber with
      | .direct call | .invoke call => if call.operation = .accept then some fd else none
      | _ => none
  | _ => none

/-- No descriptor is closed or given out while a call may still go to the kernel with its
number. A call whose registration fails later, or whose timeout is marked before it resumes,
is among them, although it returns -1 without a further system call. -/
def KeepsDescriptors (hook : Hook Fiber) (action : HookAction Fiber) : Prop :=
  ∀ fiber, ∀ call ∈ hook.mayInvoke fiber, hook.recycles action ≠ some call.fd

instance [Fintype Fiber] (hook : Hook Fiber) (action : HookAction Fiber) :
    Decidable (hook.KeepsDescriptors action) := by
  unfold KeepsDescriptors
  infer_instance

/-- The calls that may still go to the kernel, and what the run has recorded. -/
structure Current (hook : Hook Fiber) : Prop where
  pending : ∀ fiber, ∀ call ∈ hook.mayInvoke fiber,
    (hook.kernel call.fd).generation = call.began
  below : ∀ fiber turn, (hook.position fiber).turn = some turn → turn.tinfo < hook.fresh
  invocations : ∀ invocation ∈ hook.invocations, invocation.generation = invocation.began
  answers : ∀ answer ∈ hook.answers, answer.generation ≠ answer.began → answer.result = -1

namespace Current

variable {hook next : Hook Fiber} {fiber : Fiber} {call : Call}

theorem start : (start Fiber).Current where
  pending := by simp [Hook.start, mayInvoke, IoPosition.pendingCall]
  below := by simp [Hook.start, IoPosition.turn]
  invocations := by simp [Hook.start]
  answers := by simp [Hook.start]

theorem pendingCall_mono {position : IoPosition} {before after : Nat → Bool}
    (marked : ∀ turn, position.turn = some turn → before turn.tinfo = true →
      after turn.tinfo = true) (call : Call) (may : position.pendingCall after = some call) :
    position.pendingCall before = some call := by
  unfold IoPosition.pendingCall at *
  split at may <;> grind [IoPosition.turn]

/-- No fiber moves, and the marks of the turns are only set. -/
theorem same (current : hook.Current) (position : next.position = hook.position)
    (fresh : hook.fresh ≤ next.fresh)
    (marked : ∀ tinfo < hook.fresh, hook.isCancled tinfo = true →
      next.isCancled tinfo = true)
    (generation : ∀ fd, (next.kernel fd).generation = (hook.kernel fd).generation)
    (invocations : next.invocations = hook.invocations) (answers : next.answers = hook.answers) :
    next.Current where
  pending := by
    intro other call may
    rw [generation]
    apply current.pending other
    simp only [mayInvoke, position, Option.mem_def, Option.filter_eq_some_iff] at may ⊢
    refine ⟨pendingCall_mono (fun turn has => ?_) call may.1, may.2⟩
    exact marked turn.tinfo (current.below other turn has)
  below := by
    rw [position]
    exact fun other turn has => Nat.lt_of_lt_of_le (current.below other turn has) fresh
  invocations := by
    rw [invocations]
    exact current.invocations
  answers := by
    rw [answers]
    exact current.answers

/-- Nothing moves that the calls depend on. -/
theorem keep (current : hook.Current) (position : next.position = hook.position)
    (fresh : next.fresh = hook.fresh) (tinfos : next.tinfos = hook.tinfos)
    (kernel : next.kernel = hook.kernel) (invocations : next.invocations = hook.invocations)
    (answers : next.answers = hook.answers) : next.Current := by
  apply current.same position (Nat.le_of_eq fresh.symm) _ _ invocations answers
  · intro tinfo _ marked
    rw [isCancled, tinfos]
    exact marked
  · simp [kernel]

theorem execute_kernel : (hook.execute call).kernel = hook.kernel := by
  unfold Hook.execute
  split <;> rfl

theorem execute_mayInvoke : (hook.execute call).mayInvoke = hook.mayInvoke := by
  unfold Hook.execute
  split <;> rfl

theorem record_mayInvoke {result : Int} :
    (hook.record call result).mayInvoke = hook.mayInvoke := by
  unfold Hook.record
  split <;> rfl

/-- The record of one more system call. -/
theorem execute (current : hook.Current)
    (here : call.operation ≠ .connect → (hook.kernel call.fd).generation = call.began) :
    (hook.execute call).Current := by
  unfold Hook.execute
  split
  · exact current
  · refine ⟨current.pending, current.below, ?_, current.answers⟩
    intro invocation member
    rcases List.mem_append.mp member with before | added
    · exact current.invocations invocation before
    · rw [List.mem_singleton.mp added]
      exact here ‹_›

/-- The record of one more return. -/
theorem record (current : hook.Current) {result : Int}
    (here : result ≠ -1 → call.operation ≠ .connect →
      (hook.kernel call.fd).generation = call.began) :
    (hook.record call result).Current := by
  unfold Hook.record
  split
  · exact current
  · refine ⟨current.pending, current.below, current.invocations, ?_⟩
    intro answer member
    rcases List.mem_append.mp member with before | added
    · exact current.answers answer before
    · rw [List.mem_singleton.mp added]
      intro changed
      apply Classical.byContradiction
      intro succeeded
      exact changed (here succeeded ‹_›)

/-- A number changes hands that no pending call has. -/
theorem setKernel (current : hook.Current) {fd : Nat} {descriptor : Descriptor}
    (unused : descriptor.generation = (hook.kernel fd).generation ∨
      ∀ fiber, ∀ call ∈ hook.mayInvoke fiber, call.fd ≠ fd) :
    (hook.setKernel fd descriptor).Current := by
  refine ⟨?_, current.below, current.invocations, current.answers⟩
  intro fiber call may
  have before := current.pending fiber call may
  simp only [Hook.setKernel, Function.update_apply]
  split
  · rename_i equal
    rcases unused with same | others
    · rw [same, ← equal]
      exact before
    · exact absurd equal (others fiber call may)
  · exact before

variable [DecidableEq Fiber]

/-- A fiber gets to a position whose call, if it may still go to the kernel, is current. -/
theorem goTo (current : hook.Current) {position : IoPosition}
    (pending : ∀ call, position.pendingCall hook.isCancled = some call →
      call.operation ≠ .connect → (hook.kernel call.fd).generation = call.began)
    (below : ∀ turn, position.turn = some turn → turn.tinfo < hook.fresh) :
    (hook.goTo fiber position).Current := by
  refine ⟨?_, ?_, current.invocations, current.answers⟩
  · intro other call may
    rcases eq_or_ne other fiber with equal | different
    · simp only [mayInvoke, Hook.goTo, equal, Function.update_self, Option.mem_def,
        Option.filter_eq_some_iff, bne_iff_ne] at may
      exact pending call may.1 may.2
    · have same : (hook.goTo fiber position).mayInvoke other = hook.mayInvoke other := by
        simp only [mayInvoke, Hook.goTo, Function.update_of_ne different]
        rfl
      rw [same] at may
      exact current.pending other call may
  · intro other turn has
    simp only [Hook.goTo, Function.update_apply] at has
    split at has
    · exact below turn has
    · exact current.below other turn has

/-- A fiber goes on with its turn. -/
theorem advance (current : hook.Current) {position : IoPosition}
    (calls : ∀ call, position.pendingCall hook.isCancled = some call →
      (hook.position fiber).pendingCall hook.isCancled = some call)
    (turns : ∀ turn, position.turn = some turn → (hook.position fiber).turn = some turn) :
    (hook.goTo fiber position).Current := by
  apply current.goTo
  · intro call may transfers
    apply current.pending fiber
    simp only [mayInvoke, Option.mem_def, Option.filter_eq_some_iff, bne_iff_ne]
    exact ⟨calls call may, transfers⟩
  · intro turn has
    exact current.below fiber turn (turns turn has)

/-- The next position of the same turn, with the same call. -/
theorem follow (current : hook.Current) {before after : IoPosition}
    (position : hook.position fiber = before)
    (calls : after.pendingCall hook.isCancled = before.pendingCall hook.isCancled)
    (turns : after.turn = before.turn) : (hook.goTo fiber after).Current := by
  apply current.advance
  · intro call may
    rw [position, ← calls]
    exact may
  · intro turn has
    rw [position, ← turns]
    exact has

/-- A fiber leaves its calls. -/
theorem idle (current : hook.Current) {position : IoPosition}
    (free : position.pendingCall hook.isCancled = none ∧ position.turn = none) :
    (hook.goTo fiber position).Current := by
  apply current.goTo
  · simp [free.1]
  · simp [free.2]

/-- A call returns. Its result is -1 or comes from the descriptor it began with. -/
theorem finish (current : hook.Current) {result : Int}
    (here : result ≠ -1 → call.operation ≠ .connect →
      (hook.kernel call.fd).generation = call.began)
    (unused : ∀ fd : Nat, call.operation = .accept → result = fd →
      ∀ fiber, ∀ call ∈ hook.mayInvoke fiber, call.fd ≠ fd) :
    (hook.finish fiber call result).Current := by
  have recorded := current.record here
  unfold Hook.finish
  simp only
  split
  · rename_i fd accepts
    have free : ∀ fiber, ∀ call' ∈ (hook.record call (Int.ofNat fd)).mayInvoke fiber,
        call'.fd ≠ fd := by
      rw [record_mayInvoke]
      exact unused fd accepts rfl
    exact (recorded.setKernel (.inr free)).idle ⟨rfl, rfl⟩
  · exact recorded.idle ⟨rfl, rfl⟩

theorem begin (current : hook.Current) {operation : Operation} {fd : Nat}
    {event : EventType} {hookEnable : Bool} {connectTimeOut : UInt64}
    (taken : hook.begin fiber operation fd event hookEnable connectTimeOut = some next) :
    next.Current := by
  unfold Hook.begin at taken
  split at taken
  · simp only at taken
    repeat' split at taken
    all_goals
      cases taken
      first
      | exact current.finish (fun failed => absurd rfl failed) (fun fd _ equal => by
          omega)
      | exact current.goTo (by rintro call ⟨⟩ _; rfl) (by rintro turn ⟨⟩)
  · cases taken

theorem newTurn (current : hook.Current)
    (here : call.operation ≠ .connect → (hook.kernel call.fd).generation = call.began) :
    (hook.newTurn fiber call).Current := by
  have numbered : Current { hook with
      fresh := hook.fresh + 1
      tinfos := Function.update hook.tinfos hook.fresh
        (some { owner := fiber, fd := call.fd, event := call.event }) } := by
    refine current.same rfl (Nat.le_succ _) ?_ (fun _ => rfl) rfl rfl
    intro tinfo below marked
    simp only [isCancled] at marked ⊢
    rw [Function.update_of_ne (Nat.ne_of_lt below)]
    exact marked
  apply numbered.goTo
  · intro call' may transfers
    simp only [IoPosition.pendingCall] at may
    split at may <;> cases may
    exact here transfers
  · rintro turn ⟨⟩
    exact Nat.lt_succ_self _

omit [DecidableEq Fiber] in
theorem current_of_pendingCall (current : hook.Current)
    (may : (hook.position fiber).pendingCall hook.isCancled = some call)
    (transfers : call.operation ≠ .connect) :
    (hook.kernel call.fd).generation = call.began := by
  apply current.pending fiber
  simp only [mayInvoke, Option.mem_def, Option.filter_eq_some_iff, bne_iff_ne]
  exact ⟨may, transfers⟩

/-- The system call and, where it ends the call, the return. -/
theorem executes (current : hook.Current) {outcome : Outcome}
    (keeps : hook.KeepsDescriptors (.invoke fiber outcome))
    (position : hook.position fiber = .direct call ∨ hook.position fiber = .invoke call) :
    (hook.execute call).Current ∧ ((hook.execute call).finish fiber call (-1)).Current ∧
      ∀ n : Nat, outcome = .done n → ((hook.execute call).finish fiber call n).Current := by
  have may : (hook.position fiber).pendingCall hook.isCancled = some call := by
    rcases position with position | position <;> rw [position] <;> rfl
  have here := current.current_of_pendingCall may
  have executed := current.execute here
  refine ⟨executed, ?_, ?_⟩
  · apply executed.finish (fun failed => absurd rfl failed)
    intro fd _ equal
    omega
  · intro n succeeds
    apply executed.finish
    · intro _ transfers
      rw [execute_kernel]
      exact here transfers
    · intro fd accepts equal other call' may' same
      rw [execute_mayInvoke] at may'
      apply keeps other call' may'
      rw [succeeds, same, ← Int.ofNat.inj equal]
      rcases position with position | position <;> simp [recycles, position, accepts]

theorem invoke (current : hook.Current) {outcome : Outcome}
    (keeps : hook.KeepsDescriptors (.invoke fiber outcome))
    (taken : hook.invoke fiber outcome = some next) : next.Current := by
  unfold Hook.invoke at taken
  split at taken
  · rename_i call position
    rcases current.executes keeps (.inl position) with ⟨_, failed, succeeded⟩
    simp only at taken
    split at taken
    · split at taken <;> cases taken
      · exact succeeded _ rfl
      · exact failed
    · cases taken
  · rename_i call position
    rcases current.executes keeps (.inr position) with ⟨executed, failed, succeeded⟩
    simp only at taken
    split at taken
    · cases taken
    · split at taken
      · split at taken
        · cases taken
          exact succeeded _ rfl
        · cases taken
          apply executed.newTurn
          rw [execute_kernel]
          apply current.current_of_pendingCall
          rw [position]
          rfl
        · split at taken <;> cases taken
          · exact failed
          · exact executed
        · cases taken
          exact failed
      · cases taken
  · cases taken

/-- Timers, registrations and descriptors' options move no descriptor. -/
theorem addTimer (current : hook.Current) {now : UInt64}
    (taken : hook.addTimer fiber now = some next) : next.Current := by
  unfold Hook.addTimer at taken
  split at taken
  · rename_i turn position
    split at taken
    · rcases Option.map_eq_some_iff.mp taken with ⟨⟨timers, headTag⟩, _, rfl⟩
      have armed : Current { hook with timers } :=
        current.keep rfl rfl rfl rfl rfl rfl
      exact armed.follow position rfl rfl
    · cases taken
      exact current.follow position rfl rfl
  · cases taken

omit [DecidableEq Fiber] in
theorem generation_setNonb (descriptor : Descriptor) (succeeds : Bool) :
    (descriptor.setNonb succeeds).generation = descriptor.generation := by
  unfold Descriptor.setNonb
  split <;> rfl

theorem addEvent (current : hook.Current) {setNonb epollCtl : Bool}
    (taken : hook.addEvent fiber setNonb epollCtl = some next) : next.Current := by
  unfold Hook.addEvent at taken
  split at taken
  · rename_i turn position
    rcases Option.map_eq_some_iff.mp taken with ⟨⟨reactor, result⟩, _, rfl⟩
    have registered : Current { hook with reactor } :=
      current.keep rfl rfl rfl rfl rfl rfl
    have nonblocking := registered.setKernel
      (.inl (generation_setNonb (hook.kernel turn.call.fd) setNonb))
    have has : ({ hook with reactor } : Hook Fiber).position fiber = .addEvent turn := position
    apply nonblocking.advance
    · intro call may
      simp only [Hook.setKernel] at may ⊢
      rw [has]
      split at may
      · exact may
      · cases may
    · intro turn' mine
      simp only [Hook.setKernel]
      rw [has]
      split at mine <;> exact mine
  · cases taken

theorem yieldToHold (current : hook.Current)
    (taken : hook.yieldToHold fiber = some next) : next.Current := by
  unfold Hook.yieldToHold at taken
  split at taken
  · rename_i turn position
    cases taken
    exact current.follow position rfl rfl
  · cases taken

theorem resume (current : hook.Current)
    (taken : hook.resume fiber = some next) : next.Current := by
  unfold Hook.resume at taken
  split at taken
  · rename_i turn position
    split at taken
    · cases taken
      have dequeued : Current { hook with reactor := { hook.reactor with
          handed := hook.reactor.handed.erase (.fiber fiber) } } :=
        current.keep rfl rfl rfl rfl rfl rfl
      exact dequeued.follow position rfl rfl
    · cases taken
  · cases taken

omit [DecidableEq Fiber] in
theorem cancelTimers (current : hook.Current) {turn : Turn}
    (taken : hook.cancelTimers turn = some next) :
    next.Current ∧ next.position = hook.position := by
  unfold Hook.cancelTimers at taken
  split at taken
  · rcases Option.map_eq_some_iff.mp taken with ⟨⟨timers, result⟩, _, rfl⟩
    exact ⟨current.keep rfl rfl rfl rfl rfl rfl,
      rfl⟩
  · cases taken
    exact ⟨current, rfl⟩

/-- A failed registration returns -1. -/
theorem cancelTimer (current : hook.Current)
    (taken : hook.cancelTimer fiber = some next) : next.Current := by
  unfold Hook.cancelTimer at taken
  split at taken
  · rename_i turn position
    rcases Option.map_eq_some_iff.mp taken with ⟨mid, cancelled, rfl⟩
    rcases current.cancelTimers cancelled with ⟨current, same⟩
    rw [← same] at position
    exact current.follow position rfl rfl
  · rename_i turn position
    rcases Option.map_eq_some_iff.mp taken with ⟨mid, cancelled, rfl⟩
    rcases current.cancelTimers cancelled with ⟨current, _⟩
    exact current.finish (fun failed => absurd rfl failed) (fun fd _ equal => by omega)
  · cases taken

/-- A marked turn returns -1, another one goes back to the system call. -/
theorem testCancled (current : hook.Current) {error : Bool}
    (taken : hook.testCancled fiber error = some next) : next.Current := by
  unfold Hook.testCancled at taken
  split at taken
  · rename_i turn position
    split at taken
    · cases taken
      exact current.finish (fun failed => absurd rfl failed) (fun fd _ equal => by omega)
    · rename_i unmarked
      split at taken
      · rename_i connects
        cases taken
        apply current.finish
        · exact fun _ transfers => absurd connects transfers
        · intro _ accepts
          rw [connects] at accepts
          cases accepts
      · cases taken
        apply current.advance
        · rintro call ⟨⟩
          rw [position]
          simp [IoPosition.pendingCall, unmarked]
        · rintro turn' ⟨⟩
  · cases taken

theorem socket (current : hook.Current) {fd : Nat}
    (keeps : hook.KeepsDescriptors (.socket fiber fd))
    (taken : hook.socket fiber fd = some next) : next.Current := by
  unfold Hook.socket at taken
  split at taken
  · split at taken <;> cases taken
    have unused : ∀ other, ∀ call ∈ hook.mayInvoke other, call.fd ≠ fd := by
      rintro other call may rfl
      exact keeps other call may rfl
    exact (current.setKernel (.inr unused)).idle ⟨rfl, rfl⟩
  · cases taken

theorem create (current : hook.Current) {setNonb : Bool}
    (taken : hook.create fiber setNonb = some next) : next.Current := by
  unfold Hook.create at taken
  split at taken
  · rename_i fd position
    simp only at taken
    split at taken <;> cases taken
    · have looked : Current { hook with
          fdManager := hook.fdManager.create fd { closed := !setNonb } } :=
        current.keep rfl rfl rfl rfl rfl rfl
      have nonblocking := looked.setKernel (.inl (generation_setNonb (hook.kernel fd) setNonb))
      exact nonblocking.idle ⟨rfl, rfl⟩
    · have looked : Current { hook with fdManager := hook.fdManager.create fd {} } :=
        current.keep rfl rfl rfl rfl rfl rfl
      exact looked.idle ⟨rfl, rfl⟩
  · cases taken

theorem close (current : hook.Current) {fd : Nat} {hookEnable : Bool}
    (taken : hook.close fiber fd hookEnable = some next) : next.Current := by
  unfold Hook.close at taken
  split at taken
  · repeat' split at taken
    all_goals
      cases taken
      exact current.idle ⟨rfl, rfl⟩
  · cases taken

theorem cancelAll (current : hook.Current) {epollCtl : Bool}
    (taken : hook.cancelAll fiber epollCtl = some next) : next.Current := by
  unfold Hook.cancelAll at taken
  split at taken
  · rename_i fd position
    cases taken
    have woken : Current { hook with reactor := (hook.reactor.cancelAll fd epollCtl).1 } :=
      current.keep rfl rfl rfl rfl rfl rfl
    exact woken.idle ⟨rfl, rfl⟩
  · cases taken

theorem del (current : hook.Current) (taken : hook.del fiber = some next) : next.Current := by
  unfold Hook.del at taken
  split at taken
  · split at taken <;> cases taken
    · rename_i fdManager _
      have deleted : Current { hook with fdManager } :=
        current.keep rfl rfl rfl rfl rfl rfl
      exact deleted.idle ⟨rfl, rfl⟩
    · exact current.idle ⟨rfl, rfl⟩
  · cases taken

theorem closeFd (current : hook.Current) (keeps : hook.KeepsDescriptors (.closeFd fiber))
    (taken : hook.closeFd fiber = some next) : next.Current := by
  unfold Hook.closeFd at taken
  split at taken
  · rename_i fd position
    cases taken
    have told : Current { hook with reactor := hook.reactor.setInterest fd .none } :=
      current.keep rfl rfl rfl rfl rfl rfl
    have unused : (hook.kernel fd).close.generation = (hook.kernel fd).generation ∨
        ∀ other, ∀ call ∈ hook.mayInvoke other, call.fd ≠ fd := by
      cases isOpen : (hook.kernel fd).isOpen with
      | false => exact .inl (by simp [Descriptor.close, isOpen])
      | true =>
          right
          rintro other call may rfl
          apply keeps other call may
          simp [recycles, position, isOpen]
    exact (told.setKernel unused).idle ⟨rfl, rfl⟩
  · cases taken

omit [DecidableEq Fiber] in
theorem callbackStep (current : hook.Current) {tinfo : Nat} {epollCtl : Bool}
    (taken : hook.callbackStep tinfo epollCtl = some next) : next.Current := by
  unfold Hook.callbackStep at taken
  split at taken
  · cases taken
    exact current.keep rfl rfl rfl rfl rfl rfl
  · split at taken
    · cases taken
      exact current.keep rfl rfl rfl rfl rfl rfl
    · cases taken
      refine current.same rfl (Nat.le_refl _) ?_ (fun _ => rfl) rfl rfl
      intro other _ marked
      simp only [isCancled, Hook.setCallback, Function.update_apply] at marked ⊢
      split
      · rfl
      · exact marked
  · cases taken
    exact current.keep rfl rfl rfl rfl rfl rfl
  · cases taken

theorem step (current : hook.Current) {action : HookAction Fiber}
    (keeps : hook.KeepsDescriptors action) (taken : hook.step action = some next) :
    next.Current := by
  cases action with
  | begin fiber operation fd event hookEnable connectTimeOut => exact current.begin taken
  | invoke fiber outcome => exact current.invoke keeps taken
  | addTimer fiber now => exact current.addTimer taken
  | addEvent fiber setNonb epollCtl => exact current.addEvent taken
  | yieldToHold fiber => exact current.yieldToHold taken
  | resume fiber => exact current.resume taken
  | cancelTimer fiber => exact current.cancelTimer taken
  | testCancled fiber error => exact current.testCancled taken
  | socket fiber fd => exact current.socket keeps taken
  | create fiber setNonb => exact current.create taken
  | close fiber fd hookEnable => exact current.close taken
  | cancelAll fiber epollCtl => exact current.cancelAll taken
  | del fiber => exact current.del taken
  | closeFd fiber => exact current.closeFd keeps taken
  | setTimeout fd type timeout | setUserNonBlock fd state | expire now =>
      cases taken
      exact current.keep rfl rfl rfl rfl rfl rfl
  | runCallback tinfo =>
      simp only [Hook.step, Hook.runCallback, Option.ite_none_right_eq_some,
        Option.some.injEq] at taken
      rcases taken with ⟨_, rfl⟩
      exact current.keep rfl rfl rfl rfl rfl rfl
  | callback tinfo epollCtl => exact current.callbackStep taken
  | epollWait ready =>
      simp only [Hook.step, Option.ite_none_right_eq_some, Option.some.injEq] at taken
      rcases taken with ⟨_, rfl⟩
      exact current.keep rfl rfl rfl rfl rfl rfl
  | dispatch epollCtl =>
      simp only [Hook.step] at taken
      split at taken
      · cases taken
      · cases taken
        exact current.keep rfl rfl rfl rfl rfl rfl

end Current

/-! ## Runs -/

variable [DecidableEq Fiber] {hook : Hook Fiber}

/-- While no descriptor changes hands under a call that may still go to the kernel, every
system call of `do_io` meets the generation with which it began, and a call whose
descriptor was closed returns -1. -/
theorem no_io_on_recycled
    (reachable : (machine Fiber).ReachableWhere KeepsDescriptors hook) :
    (∀ invocation ∈ hook.invocations, invocation.generation = invocation.began) ∧
      ∀ answer ∈ hook.answers, answer.generation ≠ answer.began → answer.result = -1 := by
  have current : hook.Current := by
    apply reachable.invariant
    · rintro hook rfl
      exact Current.start
    · intro hook action next _ current keeps taken
      exact current.step keeps taken
  exact ⟨current.invocations, current.answers⟩

/-- A reader whose timeout was marked before the descriptor was closed and given out
again. -/
theorem no_io_on_recycled_marked :
    ∃ hook : Hook (Fin 2), hook.invocations.length = 1 ∧
      ∃ answer ∈ hook.answers, answer.generation = 3 ∧ answer.began = 1 ∧
        answer.result = -1 := by
  rcases Machine.exists_reachableWhere_of_run (machine (Fin 2)) KeepsDescriptors rfl
    [.socket 0 5, .create 0 true, .setTimeout 5 .read 20, .begin 0 .transfer 5 .read true 0,
      .invoke 0 .again, .addTimer 0 100, .addEvent 0 true true, .yieldToHold 0, .expire 120,
      .runCallback 0, .callback 0 true, .callback 0 true, .close 1 5 true, .cancelAll 1 true,
      .del 1, .closeFd 1, .socket 1 5, .create 1 true, .resume 0, .cancelTimer 0,
      .testCancled 0 false]
    (fun hook => decide (hook.invocations.length = 1 ∧
      ∃ answer ∈ hook.answers, answer.generation = 3 ∧ answer.began = 1))
    (by decide) with ⟨hook, reachable, tested⟩
  rcases of_decide_eq_true tested with ⟨once, answer, member, after, before⟩
  have refused := (no_io_on_recycled reachable).2 answer member (by rw [after, before]; decide)
  exact ⟨hook, once, answer, member, after, before, refused⟩

/-- `close` wakes a reader, the number is given out again, and the reader reads from the
new descriptor. -/
theorem reader_reads_recycled :
    ∃ hook : Hook (Fin 2), (machine (Fin 2)).Reachable hook ∧
      hook.invocations = [⟨1, 1⟩, ⟨1, 3⟩] ∧ hook.answers = [⟨1, 3, 42⟩] := by
  rcases Machine.exists_reachable_of_run (machine (Fin 2)) rfl
    [.socket 0 5, .create 0 true, .begin 0 .transfer 5 .read true 0, .invoke 0 .again,
      .addTimer 0 100, .addEvent 0 true true, .yieldToHold 0, .close 1 5 true,
      .cancelAll 1 true, .del 1, .closeFd 1, .socket 1 5, .create 1 true, .resume 0,
      .cancelTimer 0, .testCancled 0 false, .invoke 0 (.done 42)]
    (fun hook => decide (hook.invocations = [⟨1, 1⟩, ⟨1, 3⟩] ∧ hook.answers = [⟨1, 3, 42⟩]))
    (by decide) with ⟨hook, reachable, tested⟩
  have facts := of_decide_eq_true tested
  exact ⟨hook, reachable, facts⟩

end Hook

end FiberNet
