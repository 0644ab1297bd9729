import FiberNet.Foundation.Machine
import FiberNet.Log.Event
import Mathlib.Logic.Function.Basic

/-! # The log thread

The senders, the loop of the thread and the call of `close` take turns at the accesses to
the queue and to `m_close`. The pipe only wakes the loop, which goes on after ten
milliseconds in any case.
-/

namespace FiberNet

namespace Log

/-- Where the thread is, with `last` in the second call of `work`. -/
inductive LoopPosition (Event : Type)
  /-- Before the test of the queue. -/
  | empty (last : Bool)
  | pop (last : Bool)
  | log (last : Bool) (events : List Event)
  /-- Before the test of `m_close`. -/
  | testClose
  | wait
  | exited
  /-- An assertion has ended the process, before the rest of the events. -/
  | aborted (events : List Event)

/-- The events that have left the queue and are not passed on yet. -/
def LoopPosition.batch {Event : Type} : LoopPosition Event → List Event
  | .log _ events | .aborted events => events
  | .empty _ | .pop _ | .testClose | .wait | .exited => []

def LoopPosition.isAborted {Event : Type} : LoopPosition Event → Bool
  | .aborted _ => true
  | .empty _ | .pop _ | .log _ _ | .testClose | .wait | .exited => false

def LoopPosition.isExited {Event : Type} : LoopPosition Event → Bool
  | .exited => true
  | .empty _ | .pop _ | .log _ _ | .testClose | .wait | .aborted _ => false

inductive ClosePosition
  | notCalled
  | set
  | notify
  | join
  | returned
  deriving DecidableEq

inductive SendPosition (Event : Type)
  | outside
  | push (event : Event)
  | notify

def SendPosition.pushes {Event : Type} : SendPosition Event → Bool
  | .push _ => true
  | .outside | .notify => false

/-- `started` holds at the end of `start`. The last two fields record the run. -/
structure LogThread (Sender Event : Type) where
  m_que : List Event
  m_close : Bool
  started : Bool
  loop : LoopPosition Event
  closing : ClosePosition
  sending : Sender → SendPosition Event
  pushed : List Event
  passed : List Event

inductive LogAction (Sender Event : Type)
  /-- `m_close = false` in `start`, when the thread runs already. -/
  | start
  | sendLog (sender : Sender) (event : Event)
  | send (sender : Sender)
  | run
  | close

namespace LogThread

variable {Sender Event : Type} (level : Event → LogLevel)

/-- `start` has made the thread. -/
def new (Sender Event : Type) : LogThread Sender Event where
  m_que := []
  m_close := true
  started := false
  loop := .empty false
  closing := .notCalled
  sending _ := .outside
  pushed := []
  passed := []

/-- The next step of `run`. -/
def run (thread : LogThread Sender Event) : Option (LogThread Sender Event) :=
  match thread.loop with
  | .empty last =>
      some {
        thread with
        loop :=
          if thread.m_que.isEmpty then if last then .exited else .testClose else .pop last }
  | .pop last =>
      some {
        thread with
        m_que := thread.m_que.drop 10
        loop := .log last (thread.m_que.take 10) }
  | .log last [] => some { thread with loop := .empty last }
  | .log last (event :: events) =>
      some {
        thread with
        passed := thread.passed ++ [event]
        loop := if level event = LogLevel.fatal then .aborted events else .log last events }
  | .testClose =>
      some { thread with loop := if thread.m_close then .empty true else .wait }
  | .wait => some { thread with loop := .empty false }
  | .exited | .aborted _ => none

/-- The next step of `close`. -/
def close (thread : LogThread Sender Event) : Option (LogThread Sender Event) :=
  match thread.closing with
  | .notCalled => some { thread with closing := if thread.m_close then .returned else .set }
  | .set => some { thread with m_close := true, closing := .notify }
  | .notify => some { thread with closing := .join }
  | .join =>
      if thread.loop.isExited then some { thread with closing := .returned } else none
  | .returned => none

variable [DecidableEq Sender]

/-- The test at the start of `sendLog`. -/
def sendLog (sender : Sender) (event : Event) (thread : LogThread Sender Event) :
    Option (LogThread Sender Event) :=
  match thread.sending sender with
  | .outside =>
      if thread.m_close then some thread
      else some { thread with sending := Function.update thread.sending sender (.push event) }
  | .push _ | .notify => none

/-- The next step of `sendLog`. -/
def send (sender : Sender) (thread : LogThread Sender Event) :
    Option (LogThread Sender Event) :=
  match thread.sending sender with
  | .outside => none
  | .push event =>
      some {
        thread with
        m_que := thread.m_que ++ [event]
        pushed := thread.pushed ++ [event]
        sending := Function.update thread.sending sender .notify }
  | .notify => some { thread with sending := Function.update thread.sending sender .outside }

/-- The constructor has ended and the process has not. -/
def running (thread : LogThread Sender Event) : Bool :=
  thread.started && !thread.loop.isAborted

/-- The constructor comes first, and nothing comes after an assertion that fails. -/
def step (thread : LogThread Sender Event) :
    LogAction Sender Event → Option (LogThread Sender Event)
  | .start =>
      if thread.started then none else some { thread with started := true, m_close := false }
  | .run => thread.run level
  | .close => if thread.running then thread.close else none
  | .sendLog sender event =>
      if thread.running then thread.sendLog sender event else none
  | .send sender =>
      if thread.running then thread.send sender else none

def machine : Machine (LogThread Sender Event) (LogAction Sender Event) where
  initial thread := thread = new Sender Event
  step := step level

/-- `close` has returned and every sender has finished. -/
def Settled (thread : LogThread Sender Event) : Prop :=
  thread.closing = .returned ∧ ∀ sender, thread.sending sender = .outside

/-- An event is pushed only while the thread still looks at the queue. -/
def PushesInTime (thread : LogThread Sender Event) : LogAction Sender Event → Prop
  | .send sender => (thread.sending sender).pushes = true → thread.loop.isExited = false
  | .start | .run | .close | .sendLog _ _ => True

instance (thread : LogThread Sender Event) (action : LogAction Sender Event) :
    Decidable (thread.PushesInTime action) := by
  cases action with
  | send => exact inferInstanceAs (Decidable (_ → _))
  | start | run | close | sendLog => exact isTrue trivial

/-! ## What every step keeps -/

structure Sound (thread : LogThread Sender Event) : Prop where
  order : thread.pushed = thread.passed ++ (thread.loop.batch ++ thread.m_que)
  joined : thread.closing = .returned → thread.loop.isExited = true
  opened : thread.started = true → thread.closing = .notCalled → thread.m_close = false

/-- The queue that the thread has left is empty. -/
def Clean (thread : LogThread Sender Event) : Prop :=
  thread.loop.isExited = true → thread.m_que = []

variable {level}

omit [DecidableEq Sender] in
theorem new_sound : (new Sender Event).Sound where
  order := rfl
  joined returned := by cases returned
  opened started := by cases started

omit [DecidableEq Sender] in
/-- The loop may move events on while it is not over. -/
theorem Sound.advance {thread : LogThread Sender Event} (sound : thread.Sound)
    (inside : thread.loop.isExited = false) {m_que passed : List Event}
    {loop : LoopPosition Event} (order : thread.pushed = passed ++ (loop.batch ++ m_que)) :
    ({ thread with m_que, passed, loop } : LogThread Sender Event).Sound where
  order := order
  joined returned := by
    rw [sound.joined returned] at inside
    cases inside
  opened := sound.opened

omit [DecidableEq Sender] in
theorem clean_of_inside {thread : LogThread Sender Event}
    (inside : thread.loop.isExited = false) : thread.Clean := by
  intro exited
  rw [inside] at exited
  cases exited

omit [DecidableEq Sender] in
/-- The loop takes events from the front of the queue, passes them on in this order and
leaves an empty queue. -/
theorem run_kept {thread next : LogThread Sender Event} (sound : thread.Sound)
    (taken : thread.run level = some next) :
    next.Sound ∧ next.Clean ∧ thread.loop.isExited = false := by
  have order := sound.order
  have inside : thread.loop.isExited = false := by
    cases position : thread.loop with
    | exited =>
        rw [LogThread.run, position] at taken
        cases taken
    | empty | pop | log | testClose | wait | aborted => rfl
  rw [LogThread.run] at taken
  split at taken
  case h_1 last position =>
    cases taken
    rw [position] at order
    cases queue : thread.m_que with
    | nil =>
        refine ⟨sound.advance inside ?_, fun _ => rfl, inside⟩
        rw [order, queue]
        cases last <;> rfl
    | cons event rest =>
        refine ⟨sound.advance inside ?_, clean_of_inside rfl, inside⟩
        rw [order, queue]
        rfl
  case h_2 last position =>
    cases taken
    rw [position] at order
    refine ⟨sound.advance inside ?_, clean_of_inside rfl, inside⟩
    rw [order]
    exact congrArg (thread.passed ++ ·) (List.take_append_drop 10 thread.m_que).symm
  case h_3 last position =>
    cases taken
    rw [position] at order
    exact ⟨sound.advance inside order, clean_of_inside rfl, inside⟩
  case h_4 last event events position =>
    cases taken
    rw [position] at order
    refine ⟨sound.advance inside ?_, clean_of_inside ?_, inside⟩
    · rw [order, List.append_assoc]
      split <;> rfl
    · split <;> rfl
  case h_5 position =>
    cases taken
    rw [position] at order
    refine ⟨sound.advance inside ?_, clean_of_inside ?_, inside⟩
    · rw [order]
      split <;> rfl
    · split <;> rfl
  case h_6 position =>
    cases taken
    rw [position] at order
    exact ⟨sound.advance inside order, clean_of_inside rfl, inside⟩
  case h_7 => cases taken
  case h_8 => cases taken

omit [DecidableEq Sender] in
/-- `close` may go on until it returns. -/
theorem Sound.closes {thread : LogThread Sender Event} (sound : thread.Sound)
    (m_close : Bool) (closing : ClosePosition) (called : closing ≠ .notCalled)
    (unreturned : closing ≠ .returned) : ({ thread with m_close, closing } : LogThread Sender Event).Sound where
  order := sound.order
  joined returned := absurd returned unreturned
  opened _ uncalled := absurd uncalled called

omit [DecidableEq Sender] in
theorem close_kept {thread next : LogThread Sender Event} (sound : thread.Sound)
    (running : thread.running = true) (taken : thread.close = some next) :
    next.Sound ∧ next.loop = thread.loop ∧ next.m_que = thread.m_que := by
  have started : thread.started = true := (Bool.and_eq_true_iff.mp running).1
  rw [LogThread.close] at taken
  split at taken
  case h_1 closing =>
    rw [sound.opened started closing] at taken
    cases taken
    exact ⟨sound.closes false .set (by decide) (by decide), rfl, rfl⟩
  case h_2 =>
    cases taken
    exact ⟨sound.closes true .notify (by decide) (by decide), rfl, rfl⟩
  case h_3 =>
    cases taken
    exact ⟨sound.closes thread.m_close .join (by decide) (by decide), rfl, rfl⟩
  case h_4 =>
    split at taken
    case isTrue exited =>
      cases taken
      exact ⟨⟨sound.order, fun _ => exited, fun _ uncalled => by cases uncalled⟩, rfl, rfl⟩
    case isFalse => cases taken
  case h_5 => cases taken

theorem sendLog_kept {thread next : LogThread Sender Event} (sound : thread.Sound)
    {sender : Sender} {event : Event} (taken : thread.sendLog sender event = some next) :
    next.Sound ∧ next.loop = thread.loop ∧ next.m_que = thread.m_que := by
  rw [LogThread.sendLog] at taken
  split at taken
  · split at taken
    · cases taken
      exact ⟨sound, rfl, rfl⟩
    · cases taken
      exact ⟨⟨sound.order, sound.joined, sound.opened⟩, rfl, rfl⟩
  · cases taken
  · cases taken

theorem send_kept {thread next : LogThread Sender Event} (sound : thread.Sound)
    {sender : Sender} (taken : thread.send sender = some next) :
    next.Sound ∧ next.loop = thread.loop ∧
      ((next.m_que = thread.m_que ∧ (thread.sending sender).pushes = false) ∨
        ∃ event, next.m_que = thread.m_que ++ [event] ∧
          (thread.sending sender).pushes = true) := by
  rw [LogThread.send] at taken
  split at taken
  case h_1 => cases taken
  case h_2 event sending =>
    cases taken
    refine ⟨⟨?_, sound.joined, sound.opened⟩, rfl, .inr ⟨event, rfl, by rw [sending]; rfl⟩⟩
    change thread.pushed ++ [event] = _
    rw [sound.order, List.append_assoc, List.append_assoc]
  case h_3 sending =>
    cases taken
    exact ⟨⟨sound.order, sound.joined, sound.opened⟩, rfl, .inl ⟨rfl, by rw [sending]; rfl⟩⟩

omit [DecidableEq Sender] in
/-- Once the thread has ended, everything is passed on exactly if its queue is empty. -/
theorem Sound.passed_iff {thread : LogThread Sender Event} (sound : thread.Sound)
    (exited : thread.loop.isExited = true) :
    thread.passed = thread.pushed ↔ thread.Clean := by
  have nothing : thread.loop.batch = [] := by
    cases position : thread.loop with
    | exited => rfl
    | empty | pop | log | testClose | wait | aborted =>
        rw [position] at exited
        cases exited
  rw [sound.order, nothing, List.nil_append, List.self_eq_append_right]
  exact ⟨fun empty _ => empty, fun clean => clean exited⟩

/-! ## Runs -/

theorem kept {thread next : LogThread Sender Event} {action : LogAction Sender Event}
    (sound : thread.Sound) (taken : (machine level).step thread action = some next) :
    next.Sound ∧ (next.Clean ↔ thread.Clean ∧ thread.PushesInTime action) := by
  have unchanged : next.loop = thread.loop → next.m_que = thread.m_que →
      (next.Clean ↔ thread.Clean) := by
    intro loop queue
    rw [Clean, Clean, loop, queue]
  cases action with
  | start =>
      simp only [machine, step] at taken
      split at taken
      · cases taken
      · cases taken
        exact ⟨⟨sound.order, sound.joined, fun _ _ => rfl⟩, (and_iff_left trivial).symm⟩
  | run =>
      rcases run_kept sound taken with ⟨next_sound, clean, inside⟩
      exact ⟨next_sound, iff_of_true clean ⟨clean_of_inside inside, trivial⟩⟩
  | close =>
      simp only [machine, step, Option.ite_none_right_eq_some] at taken
      rcases close_kept sound taken.1 taken.2 with ⟨next_sound, loop, queue⟩
      exact ⟨next_sound, (unchanged loop queue).trans (and_iff_left trivial).symm⟩
  | sendLog sender event =>
      simp only [machine, step, Option.ite_none_right_eq_some] at taken
      rcases sendLog_kept sound taken.2 with ⟨next_sound, loop, queue⟩
      exact ⟨next_sound, (unchanged loop queue).trans (and_iff_left trivial).symm⟩
  | send sender =>
      simp only [machine, step, Option.ite_none_right_eq_some] at taken
      rcases send_kept sound taken.2 with
        ⟨next_sound, loop, ⟨queue, silent⟩ | ⟨event, queue, pushing⟩⟩
      · refine ⟨next_sound, (unchanged loop queue).trans (and_iff_left ?_).symm⟩
        intro pushing
        rw [silent] at pushing
        cases pushing
      · refine ⟨next_sound, ?_⟩
        -- A push fills the queue, so it is clean exactly if the thread still looks.
        rw [Clean, loop, queue]
        constructor
        · intro clean
          have inside : thread.loop.isExited = false := by
            apply eq_false_of_ne_true
            intro exited
            exact List.append_ne_nil_of_right_ne_nil _ (List.cons_ne_nil _ _) (clean exited)
          exact ⟨clean_of_inside inside, fun _ => inside⟩
        · rintro ⟨_, inTime⟩ exited
          rw [inTime pushing] at exited
          cases exited

theorem noLostEvent_iff {actions : List (LogAction Sender Event)}
    {final : LogThread Sender Event}
    (executed : (machine level).run (new Sender Event) actions = some final) :
    final.passed <+: final.pushed ∧
      (final.Settled → (final.passed = final.pushed ↔
        (machine level).Meets PushesInTime (new Sender Event) actions)) := by
  rcases Machine.meets_iff kept actions new_sound executed with ⟨sound, clean⟩
  refine ⟨⟨_, sound.order.symm⟩, ?_⟩
  intro settled
  rw [sound.passed_iff (sound.joined settled.1), clean]
  exact and_iff_right (clean_of_inside rfl)

/-- One event is sent and passed on before the thread is closed. -/
def drained : List (LogAction Unit Nat) :=
  [.start, .sendLog () 7, .send (), .send (), .run, .run, .run, .run, .run, .run, .close,
    .close, .run, .run, .run, .close, .run, .close]

theorem noLostEvent_drained :
    ∃ final, (machine fun _ => LogLevel.info).run (new Unit Nat) drained = some final ∧
      final.Settled ∧ final.passed = final.pushed := by
  have ended : ∃ final,
      (machine fun _ => LogLevel.info).run (new Unit Nat) drained = some final ∧
        final.Settled := ⟨_, rfl, rfl, fun _ => rfl⟩
  rcases ended with ⟨final, executed, settled⟩
  exact ⟨final, executed, settled, ((noLostEvent_iff executed).2 settled).mpr (by decide)⟩

/-- A sender has found the thread open and pushes once the thread has been joined. -/
def lateSender : List (LogAction Unit Nat) :=
  [.start, .sendLog () 7, .run, .close, .close, .run, .run, .close, .close, .send (), .send ()]

/-- The thread finds `m_close` as the constructor has set it, before `start` clears it. -/
def earlyThread : List (LogAction Unit Nat) :=
  [.run, .run, .run, .start, .sendLog () 7, .send (), .send (), .close, .close, .close, .close]

theorem not_noLostEvent :
    (∃ final, (machine fun _ => LogLevel.info).run (new Unit Nat) lateSender = some final ∧
      final.Settled ∧ final.pushed = [7] ∧ final.passed = []) ∧
    ∃ final, (machine fun _ => LogLevel.info).run (new Unit Nat) earlyThread = some final ∧
      final.Settled ∧ final.pushed = [7] ∧ final.passed = [] :=
  ⟨⟨_, rfl, ⟨rfl, fun _ => rfl⟩, rfl, rfl⟩, ⟨_, rfl, ⟨rfl, fun _ => rfl⟩, rfl, rfl⟩⟩

end LogThread

end Log

end FiberNet
