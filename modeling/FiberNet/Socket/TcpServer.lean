import FiberNet.Foundation.Machine
import Mathlib.Data.List.Nodup
import Mathlib.Data.List.Range
import Mathlib.Logic.Function.Basic

/-! # Stopping a server

The caller of `stop`, the fiber that it posts and the `startAccept` fibers of the bound
sockets. The sockets are made in a fiber, so that their descriptors are registered and do
not block, and no descriptor number is used again.
-/

namespace FiberNet

/-! ## The state -/

/-- Where a `startAccept` fiber is. -/
inductive AcceptPosition
  /-- Before the test of `m_stop`. -/
  | testStop
  | accept
  /-- In the loop of `do_io`, before `accept_f`. -/
  | tryAccept
  /-- `accept_f` has answered `EAGAIN`. -/
  | addReadEvent
  | parked
  | finished
  deriving DecidableEq

/-- What `accept_f` answers for an open descriptor. -/
inductive AcceptOutcome
  | connection
  | again
  | failed
  deriving DecidableEq

/-- A bound socket. `fdInfo` says that its descriptor is registered, `sockfd` that
`m_sockfd` is not -1. `cancelled` only records the run. -/
structure Listener where
  fdInfo : Bool
  isOpen : Bool
  sockfd : Bool
  cancelled : Bool
  accept : AcceptPosition
  deriving DecidableEq

namespace Listener

def new (started : Bool) : Listener where
  fdInfo := true
  isOpen := true
  sockfd := true
  cancelled := false
  accept := if started then .testStop else .finished

/-- `cancelAllEvent` of its descriptor. -/
def cancelAllEvent (listener : Listener) : Listener :=
  { listener with accept := if listener.accept = .parked then .tryAccept else listener.accept }

/-- The next step of `startAccept`. -/
def run (m_stop : Bool) (outcome : AcceptOutcome) (listener : Listener) : Option Listener :=
  match listener.accept with
  | .testStop => some { listener with accept := if m_stop then .finished else .accept }
  | .accept =>
      -- A call for an unregistered descriptor returns at once.
      some {
        listener with
        accept := if listener.sockfd && listener.fdInfo then .tryAccept else .testStop }
  | .tryAccept =>
      some {
        listener with
        accept := if listener.isOpen ∧ outcome = .again then .addReadEvent else .testStop }
  | .addReadEvent =>
      some { listener with accept := if listener.isOpen then .parked else .testStop }
  | .parked | .finished => none

/-- A connection arrives or the timer goes off. Both need the descriptor. -/
def wake (timer : Bool) (listener : Listener) : Option Listener :=
  if listener.accept = .parked ∧ listener.isOpen then
    some { listener with accept := if timer then .testStop else .tryAccept }
  else none

end Listener

inductive StopPosition
  /-- Before `m_stop = true`. -/
  | set
  | post
  | clear
  | returned
  deriving DecidableEq

/-- The calls of the fiber for one socket. -/
inductive StopCall
  | cancelAllEvent
  /-- `cancelAllEvent` in the hooked `close`. -/
  | closeCancel
  | closeDel
  | close_f
  /-- `m_sockfd = -1`. -/
  | reset
  deriving DecidableEq

/-- The fiber that `stop` posts. -/
inductive StopFiber
  | unposted
  | posted
  /-- Before the test of the loop, with the sockets that are left. -/
  | loop (socks : List Nat)
  | body (call : StopCall) (sock : Nat) (rest : List Nat)
  | ended
  /-- The list has been cleared under the loop. -/
  | undefined
  deriving DecidableEq

/-- The sockets are numbered in the order of the list. -/
structure TcpServer where
  bound : Nat
  m_socks : List Nat
  m_stop : Bool
  stopping : StopPosition
  fiber : StopFiber
  listeners : Nat → Listener

inductive TcpAction
  | stop
  | fiber
  | accept (sock : Nat) (outcome : AcceptOutcome)
  | wake (sock : Nat) (timer : Bool)
  deriving DecidableEq

namespace TcpServer

def new (bound : Nat) (started : Bool) : TcpServer where
  bound := bound
  m_socks := List.range bound
  m_stop := !started
  stopping := .set
  fiber := .unposted
  listeners _ := .new started

def update (server : TcpServer) (sock : Nat) (listener : Listener) : TcpServer :=
  { server with listeners := Function.update server.listeners sock listener }

/-- The sockets that the fiber has still to close. -/
def pending (server : TcpServer) : List Nat :=
  match server.fiber with
  | .unposted | .posted => server.m_socks
  | .loop socks => socks
  | .body _ sock rest => sock :: rest
  | .ended | .undefined => []

/-- `m_socks.clear()`, which a loop over the list does not survive. -/
def clear (server : TcpServer) : TcpServer :=
  { server with
    m_socks := []
    fiber :=
      match server.fiber with
      | .loop (_ :: _) | .body _ _ _ => .undefined
      | .unposted | .posted | .loop [] | .ended | .undefined => server.fiber }

/-- The next step of `stop`. -/
def stop (server : TcpServer) : Option TcpServer :=
  match server.stopping with
  | .set => some { server with m_stop := true, stopping := .post }
  | .post => some { server with fiber := .posted, stopping := .clear }
  | .clear => some { server.clear with stopping := .returned }
  | .returned => none

def performed (call : StopCall) (listener : Listener) : Listener :=
  match call with
  | .cancelAllEvent => { listener.cancelAllEvent with cancelled := true }
  | .closeCancel => if listener.fdInfo then listener.cancelAllEvent else listener
  | .closeDel => { listener with fdInfo := false }
  | .close_f => { listener with isOpen := false }
  | .reset => { listener with sockfd := false }

def afterCall (sock : Nat) (rest : List Nat) : StopCall → StopFiber
  | .cancelAllEvent => .body .closeCancel sock rest
  | .closeCancel => .body .closeDel sock rest
  | .closeDel => .body .close_f sock rest
  | .close_f => .body .reset sock rest
  | .reset => .loop rest

/-- The next step of the posted fiber. -/
def runFiber (server : TcpServer) : Option TcpServer :=
  match server.fiber with
  | .posted => some { server with fiber := .loop server.m_socks }
  | .loop [] => some { server with fiber := .ended }
  | .loop (sock :: rest) => some { server with fiber := .body .cancelAllEvent sock rest }
  | .body call sock rest =>
      some {
        server.update sock (performed call (server.listeners sock)) with
        fiber := afterCall sock rest call }
  | .unposted | .ended | .undefined => none

def accepts (server : TcpServer) (sock : Nat) : Bool :=
  sock < server.bound && server.fiber ≠ .undefined

def step (server : TcpServer) : TcpAction → Option TcpServer
  | .stop => server.stop
  | .fiber => server.runFiber
  | .accept sock outcome =>
      if server.accepts sock then
        ((server.listeners sock).run server.m_stop outcome).map (server.update sock)
      else none
  | .wake sock timer =>
      if server.accepts sock then
        ((server.listeners sock).wake timer).map (server.update sock)
      else none

def machine : Machine TcpServer TcpAction where
  initial server := ∃ bound started, server = new bound started
  step := step

/-! ## What stopping is for -/

/-- `stop` has returned and the fiber has run, as far as this is defined. -/
def Over (server : TcpServer) : Prop :=
  server.stopping = .returned ∧ (server.fiber = .ended ∨ server.fiber = .undefined)

structure ListenersClosed (server : TcpServer) : Prop where
  defined : server.fiber = .ended
  cancelled : ∀ sock < server.bound, (server.listeners sock).cancelled = true
  closed : ∀ sock < server.bound, (server.listeners sock).isOpen = false
  unparked : ∀ sock < server.bound, (server.listeners sock).accept ≠ .parked

/-- The socket whose descriptor the next step of the fiber closes. -/
def closing (server : TcpServer) : Option Nat :=
  match server.fiber with
  | .body .close_f sock _ => some sock
  | .body _ _ _ | .unposted | .posted | .loop _ | .ended | .undefined => none

/-- The list is cleared after the loop over it, and a descriptor is closed while nobody is
parked on it. -/
def Heeds (server : TcpServer) : TcpAction → Prop
  | .stop => server.stopping = .clear → server.pending = []
  | .fiber => server.closing.all fun sock => (server.listeners sock).accept ≠ .parked
  | .accept _ _ | .wake _ _ => True

instance (server : TcpServer) (action : TcpAction) : Decidable (server.Heeds action) := by
  cases action with
  | stop => exact inferInstanceAs (Decidable (_ → _))
  | fiber => exact inferInstanceAs (Decidable (_ = true))
  | accept | wake => exact isTrue trivial

/-! ## What every step keeps -/

structure Sound (server : TcpServer) : Prop where
  listed : server.stopping ≠ .returned → server.m_socks = List.range server.bound
  unposted : server.stopping = .set ∨ server.stopping = .post → server.fiber = .unposted
  nodup : server.pending.Nodup
  below : ∀ sock ∈ server.pending, sock < server.bound
  opened : ∀ sock ∈ server.pending, (∀ rest, server.fiber ≠ .body .reset sock rest) →
    (server.listeners sock).isOpen = true
  called : ∀ {call sock rest}, server.fiber = .body call sock rest →
    (call ≠ .cancelAllEvent → (server.listeners sock).cancelled = true) ∧
      (call = .reset → (server.listeners sock).isOpen = false)

/-- Every socket is still to be closed or has been, and nobody is parked on a closed one. -/
structure Clean (server : TcpServer) : Prop where
  defined : server.fiber ≠ .undefined
  covered : ∀ sock < server.bound, sock ∈ server.pending ∨
    ((server.listeners sock).cancelled = true ∧ (server.listeners sock).isOpen = false)
  unparked : ∀ sock < server.bound, (server.listeners sock).isOpen = false →
    (server.listeners sock).accept ≠ .parked

theorem new_sound (bound : Nat) (started : Bool) : (new bound started).Sound where
  listed _ := rfl
  unposted _ := rfl
  nodup := List.nodup_range
  below _ member := List.mem_range.mp member
  opened _ _ _ := rfl
  called body := by cases body

theorem new_clean (bound : Nat) (started : Bool) : (new bound started).Clean where
  defined := by
    intro undefined
    cases undefined
  covered _ below := .inl (List.mem_range.mpr below)
  unparked _ _ closed := by cases closed

/-! ## The accepting fibers -/

/-- A fiber parks only on an open descriptor. -/
theorem run_listener {listener next : Listener} {m_stop : Bool} {outcome : AcceptOutcome}
    (taken : listener.run m_stop outcome = some next) :
    next.isOpen = listener.isOpen ∧ next.cancelled = listener.cancelled ∧
      (listener.isOpen = false → listener.accept ≠ .parked ∧ next.accept ≠ .parked) := by
  rw [Listener.run] at taken
  split at taken
  case h_1 position =>
    cases taken
    refine ⟨rfl, rfl, fun _ => ⟨by rw [position]; decide, fun parked => ?_⟩⟩
    cases m_stop <;> cases parked
  case h_2 position =>
    cases taken
    refine ⟨rfl, rfl, fun _ => ⟨by rw [position]; decide, fun parked => ?_⟩⟩
    cases registered : listener.sockfd && listener.fdInfo <;> rw [registered] at parked <;>
      cases parked
  case h_3 position =>
    cases taken
    refine ⟨rfl, rfl, fun closed => ⟨by rw [position]; decide, fun parked => ?_⟩⟩
    rw [closed] at parked
    cases parked
  case h_4 position =>
    cases taken
    refine ⟨rfl, rfl, fun closed => ⟨by rw [position]; decide, fun parked => ?_⟩⟩
    rw [closed] at parked
    cases parked
  case h_5 => cases taken
  case h_6 => cases taken

theorem wake_listener {listener next : Listener} {timer : Bool}
    (taken : listener.wake timer = some next) :
    next.isOpen = listener.isOpen ∧ next.cancelled = listener.cancelled ∧
      (listener.isOpen = false → listener.accept ≠ .parked ∧ next.accept ≠ .parked) := by
  rw [Listener.wake, Option.ite_none_right_eq_some] at taken
  rcases taken with ⟨⟨_, opened⟩, same⟩
  cases same
  refine ⟨rfl, rfl, fun closed => ?_⟩
  rw [opened] at closed
  cases closed

theorem update_listeners (server : TcpServer) (sock : Nat) (listener : Listener) (other : Nat) :
    (server.update sock listener).listeners other =
      if other = sock then listener else server.listeners other :=
  Function.update_apply _ _ _ _

/-- A step of one accepting fiber changes nothing for the sockets that are closed. -/
theorem update_kept {server : TcpServer} (sound : server.Sound) {sock : Nat}
    {listener : Listener}
    (kept : listener.isOpen = (server.listeners sock).isOpen ∧
      listener.cancelled = (server.listeners sock).cancelled ∧
      ((server.listeners sock).isOpen = false →
        (server.listeners sock).accept ≠ .parked ∧ listener.accept ≠ .parked)) :
    (server.update sock listener).Sound ∧
      ((server.update sock listener).Clean ↔ server.Clean) := by
  have isOpen (other : Nat) : ((server.update sock listener).listeners other).isOpen =
      (server.listeners other).isOpen := by
    rw [update_listeners]
    split
    case isTrue same => rw [kept.1, same]
    case isFalse => rfl
  have cancelled (other : Nat) : ((server.update sock listener).listeners other).cancelled =
      (server.listeners other).cancelled := by
    rw [update_listeners]
    split
    case isTrue same => rw [kept.2.1, same]
    case isFalse => rfl
  have parked (other : Nat) (closed : (server.listeners other).isOpen = false) :
      ((server.update sock listener).listeners other).accept ≠ .parked ↔
        (server.listeners other).accept ≠ .parked := by
    rw [update_listeners]
    split
    case isTrue same =>
      rw [same] at closed ⊢
      exact iff_of_true (kept.2.2 closed).2 (kept.2.2 closed).1
    case isFalse => rfl
  constructor
  · exact {
      listed := sound.listed
      unposted := sound.unposted
      nodup := sound.nodup
      below := sound.below
      opened := fun other member unreset =>
        (isOpen other).trans (sound.opened other member unreset)
      called := fun body => ⟨fun later => (cancelled _).trans ((sound.called body).1 later),
        fun last => (isOpen _).trans ((sound.called body).2 last)⟩ }
  · constructor
    · intro clean
      refine ⟨clean.defined, fun other below => ?_, fun other below closed => ?_⟩
      · rw [← isOpen other, ← cancelled other]
        exact clean.covered other below
      · exact (parked other closed).mp
          (clean.unparked other below ((isOpen other).trans closed))
    · intro clean
      refine ⟨clean.defined, fun other below => ?_, fun other below closed => ?_⟩
      · rw [isOpen other, cancelled other]
        exact clean.covered other below
      · rw [isOpen other] at closed
        exact (parked other closed).mpr (clean.unparked other below closed)

/-! ## The caller -/

/-- The fiber moves on between two sockets, or is posted. -/
theorem move_kept {server : TcpServer} (sound : server.Sound)
    (outside : ∀ call sock rest, server.fiber ≠ .body call sock rest)
    (defined : server.fiber ≠ .undefined) {stopping : StopPosition} {fiber : StopFiber}
    (same : ({ server with stopping, fiber } : TcpServer).pending = server.pending)
    (begins : ∀ {call sock rest}, fiber = .body call sock rest → call = .cancelAllEvent)
    (next_defined : fiber ≠ .undefined)
    (listed : stopping ≠ .returned → server.stopping ≠ .returned)
    (unposted : stopping = .set ∨ stopping = .post → fiber = .unposted) :
    ({ server with stopping, fiber } : TcpServer).Sound ∧
      (({ server with stopping, fiber } : TcpServer).Clean ↔ server.Clean) := by
  constructor
  · exact {
      listed := fun unreturned => sound.listed (listed unreturned)
      unposted := unposted
      nodup := by
        rw [same]
        exact sound.nodup
      below := by
        rw [same]
        exact sound.below
      opened := by
        rw [same]
        exact fun sock member _ => sound.opened sock member (outside _ _)
      called := by
        intro call sock rest body
        rw [begins body]
        exact ⟨fun later => absurd rfl later, fun last => by cases last⟩ }
  · constructor
    · intro clean
      refine ⟨defined, ?_, clean.unparked⟩
      rw [← same]
      exact clean.covered
    · intro clean
      refine ⟨next_defined, ?_, clean.unparked⟩
      rw [same]
      exact clean.covered

theorem pending_clear (server : TcpServer) : server.clear.pending = [] := by
  rw [pending, clear]
  cases server.fiber with
  | loop socks => cases socks <;> rfl
  | unposted | posted | body | ended | undefined => rfl

theorem clear_defined {server : TcpServer} (defined : server.clear.fiber ≠ .undefined) :
    server.fiber ≠ .undefined ∧ ∀ call sock rest, server.fiber ≠ .body call sock rest := by
  rw [clear] at defined
  constructor
  · intro undefined
    rw [undefined] at defined
    exact defined rfl
  · intro call sock rest body
    rw [body] at defined
    exact defined rfl

theorem clear_fiber {server : TcpServer} (nothing : server.pending = []) :
    server.clear.fiber = server.fiber := by
  rw [pending] at nothing
  rw [clear]
  cases position : server.fiber with
  | loop socks =>
      rw [position] at nothing
      cases nothing
      rfl
  | body call sock rest =>
      rw [position] at nothing
      cases nothing
  | unposted | posted | ended | undefined => rfl

theorem clear_kept {server : TcpServer} (sound : server.Sound) :
    ({ server.clear with stopping := .returned } : TcpServer).Sound ∧
      (({ server.clear with stopping := .returned } : TcpServer).Clean ↔
        server.Clean ∧ server.pending = []) := by
  have nothing : ({ server.clear with stopping := .returned } : TcpServer).pending = [] :=
    pending_clear server
  constructor
  · exact {
      listed := fun unreturned => absurd rfl unreturned
      unposted := by rintro (early | early) <;> cases early
      nodup := by
        rw [nothing]
        exact List.nodup_nil
      below := by
        rw [nothing]
        exact fun _ member => absurd member List.not_mem_nil
      opened := by
        rw [nothing]
        exact fun _ member => absurd member List.not_mem_nil
      called := by
        intro call sock rest body
        rw [pending, body] at nothing
        cases nothing }
  · constructor
    · intro clean
      rcases clear_defined clean.defined with ⟨defined, outside⟩
      have covered (sock : Nat) (below : sock < server.bound) :
          (server.listeners sock).cancelled = true ∧ (server.listeners sock).isOpen = false := by
        have covered := clean.covered sock below
        rw [nothing] at covered
        exact covered.resolve_left List.not_mem_nil
      refine ⟨⟨defined, fun sock below => .inr (covered sock below), clean.unparked⟩, ?_⟩
      apply List.eq_nil_iff_forall_not_mem.mpr
      intro sock member
      have opened := sound.opened sock member (outside _ _)
      rw [(covered sock (sound.below sock member)).2] at opened
      cases opened
    · rintro ⟨clean, empty⟩
      refine ⟨?_, fun sock below => .inr ?_, clean.unparked⟩
      · change server.clear.fiber ≠ .undefined
        rw [clear_fiber empty]
        exact clean.defined
      · have covered := clean.covered sock below
        rw [empty] at covered
        exact covered.resolve_left List.not_mem_nil

theorem stop_kept {server next : TcpServer} (sound : server.Sound)
    (taken : server.stop = some next) :
    next.Sound ∧ (next.Clean ↔ server.Clean ∧ server.Heeds .stop) := by
  rw [stop] at taken
  split at taken
  case h_1 position =>
    cases taken
    have early : server.Heeds .stop := by
      intro clearing
      rw [position] at clearing
      cases clearing
    refine ⟨?_, ?_⟩
    · exact {
        listed := fun _ => sound.listed (by rw [position]; decide)
        unposted := fun _ => sound.unposted (.inl position)
        nodup := sound.nodup
        below := sound.below
        opened := sound.opened
        called := sound.called }
    · rw [and_iff_left early]
      exact ⟨fun clean => ⟨clean.defined, clean.covered, clean.unparked⟩,
        fun clean => ⟨clean.defined, clean.covered, clean.unparked⟩⟩
  case h_2 position =>
    cases taken
    have early : server.Heeds .stop := by
      intro clearing
      rw [position] at clearing
      cases clearing
    have unposted := sound.unposted (.inr position)
    rw [and_iff_left early]
    refine move_kept sound ?_ ?_ ?_ ?_ ?_ ?_ ?_
    · simp [unposted]
    · simp [unposted]
    · simp [pending, unposted]
    · simp
    · simp
    · simp [position]
    · simp
  case h_3 position =>
    cases taken
    rcases clear_kept sound with ⟨next_sound, clean⟩
    refine ⟨next_sound, clean.trans (and_congr_right fun _ => ?_)⟩
    exact ⟨fun empty _ => empty, fun heeded => heeded position⟩
  case h_4 => cases taken

/-! ## The fiber -/

theorem loop_kept {server : TcpServer} (sound : server.Sound)
    (position : server.fiber = .posted ∨ ∃ socks, server.fiber = .loop socks) {fiber : StopFiber}
    (same : ({ server with fiber } : TcpServer).pending = server.pending)
    (begins : ∀ {call sock rest}, fiber = .body call sock rest → call = .cancelAllEvent)
    (next_defined : fiber ≠ .undefined) :
    ({ server with fiber } : TcpServer).Sound ∧
      (({ server with fiber } : TcpServer).Clean ↔ server.Clean ∧ server.Heeds .fiber) := by
  have idle : server.Heeds .fiber := by
    rcases position with position | ⟨socks, position⟩ <;> rw [Heeds, closing, position] <;> rfl
  rw [and_iff_left idle]
  apply move_kept sound
  · rcases position with position | ⟨socks, position⟩ <;> simp [position]
  · rcases position with position | ⟨socks, position⟩ <;> simp [position]
  · exact same
  · exact begins
  · exact next_defined
  · exact id
  · intro early
    have unposted := sound.unposted early
    rcases position with position | ⟨socks, position⟩ <;> rw [unposted] at position <;>
      cases position

theorem performed_isOpen (call : StopCall) (listener : Listener) :
    (performed call listener).isOpen = (listener.isOpen && call ≠ .close_f) := by
  cases call with
  | closeCancel =>
      rw [performed]
      split <;> simp [Listener.cancelAllEvent]
  | cancelAllEvent | closeDel | close_f | reset => simp [performed, Listener.cancelAllEvent]

theorem performed_cancelled (call : StopCall) (listener : Listener) :
    (performed call listener).cancelled = (listener.cancelled || call = .cancelAllEvent) := by
  cases call with
  | closeCancel =>
      rw [performed]
      split <;> simp [Listener.cancelAllEvent]
  | cancelAllEvent | closeDel | close_f | reset => simp [performed]

/-- The state behind a call of the fiber. -/
def afterBody (server : TcpServer) (call : StopCall) (sock : Nat) (rest : List Nat) : TcpServer :=
  { server.update sock (performed call (server.listeners sock)) with
    fiber := afterCall sock rest call }

theorem afterBody_self (server : TcpServer) (call : StopCall) (sock : Nat) (rest : List Nat) :
    (server.afterBody call sock rest).listeners sock =
      performed call (server.listeners sock) :=
  Function.update_self _ _ _

theorem afterBody_others (server : TcpServer) (call : StopCall) {sock other : Nat}
    (rest : List Nat) (different : other ≠ sock) :
    (server.afterBody call sock rest).listeners other = server.listeners other :=
  Function.update_of_ne different _ _

theorem pending_afterBody (server : TcpServer) (call : StopCall) (sock : Nat)
    (rest : List Nat) :
    (server.afterBody call sock rest).pending =
      if call = .reset then rest else sock :: rest := by
  cases call <;> rfl

theorem afterCall_body {call next : StopCall} {sock other : Nat} {rest later : List Nat}
    (body : afterCall sock rest call = .body next other later) :
    other = sock ∧ (next = .reset → call = .close_f) ∧ next ≠ .cancelAllEvent := by
  cases call <;> cases body <;> simp

theorem body_sound {server : TcpServer} (sound : server.Sound) {call : StopCall} {sock : Nat}
    {rest : List Nat} (position : server.fiber = .body call sock rest) :
    (server.afterBody call sock rest).Sound := by
  have pending_eq : server.pending = sock :: rest := by rw [pending, position]
  have nodup := sound.nodup
  have below := sound.below
  rw [pending_eq] at nodup below
  exact {
    listed := sound.listed
    unposted := by
      intro early
      rw [sound.unposted early] at position
      cases position
    nodup := by
      rw [pending_afterBody]
      split
      · exact (List.nodup_cons.mp nodup).2
      · exact nodup
    below := by
      intro other member
      rw [pending_afterBody] at member
      split at member
      · exact below other (List.mem_cons_of_mem _ member)
      · exact below other member
    opened := by
      intro other member unreset
      rw [pending_afterBody] at member
      by_cases same : other = sock
      · rw [same] at member unreset ⊢
        have unfinished : call ≠ .reset := by
          intro last
          rw [if_pos last] at member
          exact (List.nodup_cons.mp nodup).1 member
        have unclosed : call ≠ .close_f := by
          rintro rfl
          exact unreset rest rfl
        have opened := sound.opened sock (by rw [pending_eq]; exact List.mem_cons_self) (by
          intro later body
          cases position.symm.trans body
          exact unfinished rfl)
        rw [afterBody_self, performed_isOpen, opened, Bool.true_and, decide_eq_true_iff]
        exact unclosed
      · rw [afterBody_others _ _ _ same]
        apply sound.opened other
        · rw [pending_eq]
          split at member
          · exact List.mem_cons_of_mem _ member
          · exact member
        · intro later body
          cases position.symm.trans body
          exact same rfl
    called := by
      intro next other later body
      rcases afterCall_body body with ⟨rfl, last, continued⟩
      rw [afterBody_self, performed_cancelled, performed_isOpen]
      constructor
      · intro _
        by_cases first : call = .cancelAllEvent
        · simp [first]
        · rw [(sound.called position).1 first, Bool.true_or]
      · intro reset
        simp [last reset] }

/-- A socket in the hands of the fiber is open until `close_f`. -/
theorem body_isOpen {server : TcpServer} (sound : server.Sound) {call : StopCall} {sock : Nat}
    {rest : List Nat} (position : server.fiber = .body call sock rest) :
    (server.listeners sock).isOpen = (call ≠ .reset : Bool) := by
  by_cases last : call = .reset
  · rw [(sound.called position).2 last, last]
    rfl
  · rw [decide_eq_true last]
    apply sound.opened sock
    · rw [pending, position]
      exact List.mem_cons_self
    · intro later body
      cases position.symm.trans body
      exact last rfl

theorem body_unparked {server : TcpServer} (sound : server.Sound) {call : StopCall}
    {sock : Nat} {rest : List Nat} (position : server.fiber = .body call sock rest) :
    ((performed call (server.listeners sock)).isOpen = false →
        (performed call (server.listeners sock)).accept ≠ .parked) ↔
      ((server.listeners sock).isOpen = false → (server.listeners sock).accept ≠ .parked) ∧
        (call = .close_f → (server.listeners sock).accept ≠ .parked) := by
  have opened := body_isOpen sound position
  rw [performed_isOpen, opened]
  cases call with
  | cancelAllEvent | closeCancel | closeDel => simp
  | close_f | reset => simp [performed]

theorem body_covered {server : TcpServer} (sound : server.Sound) {call : StopCall}
    {sock : Nat} {rest : List Nat} (position : server.fiber = .body call sock rest)
    (other : Nat) :
    (other ∈ (server.afterBody call sock rest).pending ∨
        (((server.afterBody call sock rest).listeners other).cancelled = true ∧
          ((server.afterBody call sock rest).listeners other).isOpen = false)) ↔
      (other ∈ server.pending ∨ ((server.listeners other).cancelled = true ∧
        (server.listeners other).isOpen = false)) := by
  have pending_eq : server.pending = sock :: rest := by rw [pending, position]
  rw [pending_afterBody, pending_eq]
  by_cases same : other = sock
  · rw [same]
    apply iff_of_true
    · split
      case isTrue last =>
        apply Or.inr
        rw [afterBody_self, performed_cancelled, performed_isOpen]
        have called := sound.called position
        rw [called.1 (by rw [last]; decide), called.2 last]
        exact ⟨rfl, rfl⟩
      case isFalse => exact .inl List.mem_cons_self
    · exact .inl List.mem_cons_self
  · rw [afterBody_others _ _ _ same]
    split
    · rw [List.mem_cons, or_iff_right same]
    · rfl

theorem body_clean {server : TcpServer} (sound : server.Sound) {call : StopCall} {sock : Nat}
    {rest : List Nat} (position : server.fiber = .body call sock rest) :
    (server.afterBody call sock rest).Clean ↔ server.Clean ∧ server.Heeds .fiber := by
  have heeds : server.Heeds .fiber ↔
      (call = .close_f → (server.listeners sock).accept ≠ .parked) := by
    rw [Heeds, closing, position]
    cases call <;> simp
  have unparked := body_unparked sound position
  have inside : sock < server.bound := by
    apply sound.below
    rw [pending, position]
    exact List.mem_cons_self
  rw [heeds]
  constructor
  · intro clean
    have here := clean.unparked sock inside
    rw [afterBody_self] at here
    rcases unparked.mp here with ⟨kept, heeded⟩
    refine ⟨⟨?_, ?_, ?_⟩, heeded⟩
    · rw [position]
      intro undefined
      cases undefined
    · exact fun other below => (body_covered sound position other).mp (clean.covered other below)
    · intro other below closed
      by_cases same : other = sock
      · rw [same] at closed ⊢
        exact kept closed
      · have elsewhere := clean.unparked other below
        rw [afterBody_others _ _ _ same] at elsewhere
        exact elsewhere closed
  · rintro ⟨clean, heeded⟩
    refine ⟨?_, ?_, ?_⟩
    · intro undefined
      cases call <;> cases undefined
    · exact fun other below => (body_covered sound position other).mpr (clean.covered other below)
    · intro other below
      by_cases same : other = sock
      · rw [same, afterBody_self]
        exact unparked.mpr ⟨clean.unparked sock inside, heeded⟩
      · rw [afterBody_others _ _ _ same]
        exact clean.unparked other below

theorem runFiber_kept {server next : TcpServer} (sound : server.Sound)
    (taken : server.runFiber = some next) :
    next.Sound ∧ (next.Clean ↔ server.Clean ∧ server.Heeds .fiber) := by
  rw [runFiber] at taken
  split at taken
  case h_1 position =>
    cases taken
    exact loop_kept sound (.inl position) (by simp [pending, position]) (by simp) (by simp)
  case h_2 position =>
    cases taken
    exact loop_kept sound (.inr ⟨_, position⟩) (by simp [pending, position]) (by simp) (by simp)
  case h_3 sock rest position =>
    cases taken
    exact loop_kept sound (.inr ⟨_, position⟩) (by simp [pending, position]) (by simp) (by simp)
  case h_4 call sock rest position =>
    cases taken
    exact ⟨body_sound sound position, body_clean sound position⟩
  case h_5 => cases taken
  case h_6 => cases taken
  case h_7 => cases taken

/-! ## Runs -/

theorem kept {server next : TcpServer} {action : TcpAction} (sound : server.Sound)
    (taken : machine.step server action = some next) :
    next.Sound ∧ (next.Clean ↔ server.Clean ∧ server.Heeds action) := by
  cases action with
  | stop => exact stop_kept sound taken
  | fiber => exact runFiber_kept sound taken
  | accept sock outcome =>
      simp only [machine, step, Option.ite_none_right_eq_some] at taken
      rcases Option.map_eq_some_iff.mp taken.2 with ⟨listener, moved, rfl⟩
      rcases update_kept sound (run_listener moved) with ⟨next_sound, clean⟩
      exact ⟨next_sound, clean.trans (and_iff_left trivial).symm⟩
  | wake sock timer =>
      simp only [machine, step, Option.ite_none_right_eq_some] at taken
      rcases Option.map_eq_some_iff.mp taken.2 with ⟨listener, moved, rfl⟩
      rcases update_kept sound (wake_listener moved) with ⟨next_sound, clean⟩
      exact ⟨next_sound, clean.trans (and_iff_left trivial).symm⟩

theorem clean_iff_of_over {server : TcpServer} (isOver : server.Over) :
    server.ListenersClosed ↔ server.Clean := by
  constructor
  · intro done
    refine ⟨?_, ?_, ?_⟩
    · rw [done.defined]
      decide
    · exact fun sock below => .inr ⟨done.cancelled sock below, done.closed sock below⟩
    · exact fun sock below _ => done.unparked sock below
  · intro clean
    have ended := isOver.2.resolve_right clean.defined
    have nothing : server.pending = [] := by rw [pending, ended]
    have covered (sock : Nat) (below : sock < server.bound) :
        (server.listeners sock).cancelled = true ∧ (server.listeners sock).isOpen = false := by
      have covered := clean.covered sock below
      rw [nothing] at covered
      exact covered.resolve_left List.not_mem_nil
    exact {
      defined := ended
      cancelled := fun sock below => (covered sock below).1
      closed := fun sock below => (covered sock below).2
      unparked := fun sock below => clean.unparked sock below (covered sock below).2 }

theorem listenersClosed_iff {bound : Nat} {started : Bool} {actions : List TcpAction}
    {final : TcpServer} (executed : machine.run (new bound started) actions = some final)
    (isOver : final.Over) :
    final.ListenersClosed ↔ machine.Meets Heeds (new bound started) actions := by
  rw [clean_iff_of_over isOver,
    (Machine.meets_iff kept actions (new_sound bound started) executed).2]
  exact and_iff_right (new_clean bound started)

/-- The fiber of one socket is parked, then the server is stopped and the posted fiber runs
before the list is cleared. -/
def stopped : List TcpAction :=
  [.accept 0 .again, .accept 0 .again, .accept 0 .again, .accept 0 .again, .stop, .stop,
    .fiber, .fiber, .fiber, .fiber, .fiber, .fiber, .fiber, .fiber, .stop]

theorem listenersClosed_stopped :
    ∃ final, machine.run (new 1 true) stopped = some final ∧ final.ListenersClosed := by
  have ended : ∃ final, machine.run (new 1 true) stopped = some final ∧ final.Over :=
    ⟨_, rfl, rfl, .inl rfl⟩
  rcases ended with ⟨final, executed, isOver⟩
  exact ⟨final, executed, (listenersClosed_iff executed isOver).mpr (by decide)⟩

/-- The list is cleared before the posted fiber begins. -/
def clearedFirst : List TcpAction :=
  [.accept 0 .again, .accept 0 .again, .accept 0 .again, .accept 0 .again, .stop, .stop,
    .stop, .fiber, .fiber]

/-- The fiber of the socket parks again between the last `cancelAllEvent` and `close_f`. -/
def parkedAgain : List TcpAction :=
  [.accept 0 .again, .accept 0 .again, .accept 0 .again, .accept 0 .again, .stop, .stop,
    .fiber, .fiber, .fiber, .fiber, .accept 0 .again, .accept 0 .again, .fiber, .fiber,
    .fiber, .fiber, .stop]

theorem not_listenersClosed :
    (∃ final, machine.run (new 1 true) clearedFirst = some final ∧ final.Over ∧
      (final.listeners 0).isOpen = true ∧ (final.listeners 0).accept = .parked) ∧
    ∃ final, machine.run (new 1 true) parkedAgain = some final ∧ final.Over ∧
      (final.listeners 0).isOpen = false ∧ (final.listeners 0).accept = .parked :=
  ⟨⟨_, rfl, ⟨rfl, .inl rfl⟩, rfl, rfl⟩, ⟨_, rfl, ⟨rfl, .inl rfl⟩, rfl, rfl⟩⟩

end TcpServer

end FiberNet
