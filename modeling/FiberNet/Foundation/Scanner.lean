import Mathlib.Data.List.Basic

/-! # Table-driven scanners

A scanner walks over bytes with a transition table whose edges carry actions. A
scan ends at the end of the bytes, at a byte without an edge, or behind an edge
with an action that stops it; the next scan goes on in the state it left.
-/

namespace FiberNet

/-- One edge of a row: the ranges of bytes that take it, the actions it performs
and the state it leads to. A guarded edge exists only under the condition of the
scanner. -/
structure Edge (Action : Type u) where
  bytes : List (Nat × Nat)
  guarded : Bool
  actions : List Action
  target : Nat

def Edge.accepts {Action : Type u} (edge : Edge Action) (condition : Bool) (byte : UInt8) : Bool :=
  (!edge.guarded || condition) &&
    edge.bytes.any fun range => range.1 ≤ byte.toNat && byte.toNat ≤ range.2

structure Scanner (Action : Type u) where
  rows : List (Nat × List (Edge Action))
  /-- The actions behind which a scan ends. -/
  stops : Action → Bool
  error : Nat
  condition : Bool

/-- Where a scan ended: the state, the position, the actions on the way with
their positions, and whether it ended only because the bytes did. -/
structure Scan (Action : Type u) where
  state : Nat
  position : Nat
  events : List (Nat × Action)
  running : Bool
  deriving DecidableEq

namespace Scan

variable {Action : Type u}

/-- A scan with the actions of the bytes before it. -/
def after (events : List (Nat × Action)) (scan : Scan Action) : Scan Action :=
  { scan with events := events ++ scan.events }

/-- The same scan of bytes that lie further behind. -/
def shift (offset : Nat) (scan : Scan Action) : Scan Action :=
  { scan with
    position := scan.position + offset
    events := scan.events.map fun event => (event.1 + offset, event.2) }

@[simp] theorem after_state (events : List (Nat × Action)) (scan : Scan Action) :
    (scan.after events).state = scan.state := rfl

@[simp] theorem after_position (events : List (Nat × Action)) (scan : Scan Action) :
    (scan.after events).position = scan.position := rfl

@[simp] theorem after_running (events : List (Nat × Action)) (scan : Scan Action) :
    (scan.after events).running = scan.running := rfl

@[simp] theorem after_events (events : List (Nat × Action)) (scan : Scan Action) :
    (scan.after events).events = events ++ scan.events := rfl

theorem after_after (first second : List (Nat × Action)) (scan : Scan Action) :
    (scan.after second).after first = scan.after (first ++ second) := by
  simp [after]

end Scan

namespace Scanner

variable {Action : Type u} (scanner : Scanner Action)

/-- The first edge of the row that a byte can take. -/
def edge (state : Nat) (byte : UInt8) : Option (Edge Action) :=
  ((scanner.rows.lookup state).getD []).find? (·.accepts scanner.condition byte)

def scan (state position : Nat) : List UInt8 → Scan Action
  | [] => ⟨state, position, [], true⟩
  | byte :: bytes =>
      match scanner.edge state byte with
      | none => ⟨scanner.error, position, [], false⟩
      | some edge =>
          let events := edge.actions.map fun action => (position, action)
          if edge.actions.any scanner.stops then ⟨edge.target, position + 1, events, false⟩
          else (scan edge.target (position + 1) bytes).after events

variable {scanner}

theorem scan_cons_error {state : Nat} {byte : UInt8} (rejected : scanner.edge state byte = none)
    (position : Nat) (bytes : List UInt8) :
    scanner.scan state position (byte :: bytes) = ⟨scanner.error, position, [], false⟩ := by
  rw [scan, rejected]

theorem scan_cons_stop {state : Nat} {byte : UInt8} {edge : Edge Action}
    (taken : scanner.edge state byte = some edge)
    (stopped : edge.actions.any scanner.stops = true) (position : Nat) (bytes : List UInt8) :
    scanner.scan state position (byte :: bytes) =
      ⟨edge.target, position + 1, edge.actions.map fun action => (position, action), false⟩ := by
  rw [scan, taken]
  simp [stopped]

theorem scan_cons_step {state : Nat} {byte : UInt8} {edge : Edge Action}
    (taken : scanner.edge state byte = some edge)
    (onward : edge.actions.any scanner.stops = false) (position : Nat) (bytes : List UInt8) :
    scanner.scan state position (byte :: bytes) =
      (scanner.scan edge.target (position + 1) bytes).after
        (edge.actions.map fun action => (position, action)) := by
  rw [scan, taken]
  simp [onward]

/-- The three ways a scan of at least one byte can go. -/
theorem scan_cons_cases (scanner : Scanner Action) (state position : Nat) (byte : UInt8)
    (bytes : List UInt8) :
    (scanner.edge state byte = none ∧
      scanner.scan state position (byte :: bytes) = ⟨scanner.error, position, [], false⟩) ∨
    ∃ edge, scanner.edge state byte = some edge ∧
      ((edge.actions.any scanner.stops = true ∧
        scanner.scan state position (byte :: bytes) =
          ⟨edge.target, position + 1, edge.actions.map fun action => (position, action),
            false⟩) ∨
      (edge.actions.any scanner.stops = false ∧
        scanner.scan state position (byte :: bytes) =
          (scanner.scan edge.target (position + 1) bytes).after
            (edge.actions.map fun action => (position, action)))) := by
  cases taken : scanner.edge state byte with
  | none => exact .inl ⟨rfl, scan_cons_error taken position bytes⟩
  | some edge =>
      refine .inr ⟨edge, rfl, ?_⟩
      cases stopped : edge.actions.any scanner.stops with
      | true => exact .inl ⟨rfl, scan_cons_stop taken stopped position bytes⟩
      | false => exact .inr ⟨rfl, scan_cons_step taken stopped position bytes⟩

variable (scanner) in
theorem le_scan_position : ∀ (state position : Nat) (bytes : List UInt8),
    position ≤ (scanner.scan state position bytes).position
  | _, _, [] => Nat.le_refl _
  | state, position, byte :: bytes => by
      rcases scan_cons_cases scanner state position byte bytes with
        ⟨-, scanned⟩ | ⟨edge, -, ⟨-, scanned⟩ | ⟨-, scanned⟩⟩
      · exact Nat.le_of_eq (congrArg Scan.position scanned).symm
      · rw [scanned]
        exact Nat.le_succ position
      · have later := le_scan_position edge.target (position + 1) bytes
        rw [scanned, Scan.after_position]
        omega

variable (scanner) in
theorem scan_position_le : ∀ (state position : Nat) (bytes : List UInt8),
    (scanner.scan state position bytes).position ≤ position + bytes.length
  | _, _, [] => Nat.le_refl _
  | state, position, byte :: bytes => by
      rw [List.length_cons]
      rcases scan_cons_cases scanner state position byte bytes with
        ⟨-, scanned⟩ | ⟨edge, -, ⟨-, scanned⟩ | ⟨-, scanned⟩⟩
      · rw [scanned]
        exact Nat.le_add_right position _
      · rw [scanned]
        show position + 1 ≤ _
        omega
      · have later := scan_position_le edge.target (position + 1) bytes
        rw [scanned, Scan.after_position]
        omega

/-- A scan that ended with its bytes has consumed them all. -/
theorem position_of_running : ∀ {state position : Nat} {bytes : List UInt8},
    (scanner.scan state position bytes).running = true →
      (scanner.scan state position bytes).position = position + bytes.length
  | _, _, [], _ => rfl
  | state, position, byte :: bytes, running => by
      rcases scan_cons_cases scanner state position byte bytes with
        ⟨-, scanned⟩ | ⟨edge, -, ⟨-, scanned⟩ | ⟨-, scanned⟩⟩ <;>
        rw [scanned] at running ⊢
      · cases running
      · cases running
      · rw [Scan.after_running] at running
        rw [Scan.after_position, position_of_running running, List.length_cons]
        omega

theorem scan_shift (offset : Nat) : ∀ (state position : Nat) (bytes : List UInt8),
    scanner.scan state (position + offset) bytes =
      (scanner.scan state position bytes).shift offset
  | _, _, [] => rfl
  | state, position, byte :: bytes => by
      rcases scan_cons_cases scanner state position byte bytes with
        ⟨rejected, scanned⟩ | ⟨edge, taken, ⟨stopped, scanned⟩ | ⟨onward, scanned⟩⟩
      · rw [scanned, scan_cons_error rejected]
        rfl
      · rw [scanned, scan_cons_stop taken stopped]
        simp [Scan.shift, Nat.add_right_comm]
      · rw [scanned, scan_cons_step taken onward, Nat.add_right_comm,
          scan_shift offset edge.target (position + 1) bytes]
        simp [Scan.shift, Scan.after]

/-- The bytes behind the end of a scan do not matter. -/
theorem scan_append_of_ended : ∀ {state position : Nat} {bytes : List UInt8}
    (_ : (scanner.scan state position bytes).running = false) (more : List UInt8),
    scanner.scan state position (bytes ++ more) = scanner.scan state position bytes
  | _, _, [], ended, _ => by cases ended
  | state, position, byte :: bytes, ended, more => by
      rw [List.cons_append]
      rcases scan_cons_cases scanner state position byte bytes with
        ⟨rejected, scanned⟩ | ⟨edge, taken, ⟨stopped, scanned⟩ | ⟨onward, scanned⟩⟩
      · rw [scanned, scan_cons_error rejected]
      · rw [scanned, scan_cons_stop taken stopped]
      · rw [scanned, Scan.after_running] at ended
        rw [scanned, scan_cons_step taken onward, scan_append_of_ended ended]

/-- A scan goes on where the scan of the bytes before ended. -/
theorem scan_append_of_running : ∀ {state position : Nat} {bytes : List UInt8}
    (_ : (scanner.scan state position bytes).running = true) (more : List UInt8),
    scanner.scan state position (bytes ++ more) =
      (scanner.scan (scanner.scan state position bytes).state
        (position + bytes.length) more).after (scanner.scan state position bytes).events
  | state, position, [], _, more => by simp [scan, Scan.after]
  | state, position, byte :: bytes, running, more => by
      rcases scan_cons_cases scanner state position byte bytes with
        ⟨rejected, scanned⟩ | ⟨edge, taken, ⟨stopped, scanned⟩ | ⟨onward, scanned⟩⟩
      · rw [scanned] at running
        cases running
      · rw [scanned] at running
        cases running
      · rw [scanned, Scan.after_running] at running
        rw [List.cons_append, scan_cons_step taken onward, scan_append_of_running running,
          scanned, List.length_cons, Scan.after_after]
        simp only [Scan.after_state, Scan.after_events]
        congr 2
        omega

theorem edge_row {state : Nat} {byte : UInt8} {edge : Edge Action}
    (taken : scanner.edge state byte = some edge) :
    ∃ edges, (state, edges) ∈ scanner.rows ∧ edge ∈ edges := by
  have found := List.mem_of_find?_eq_some taken
  cases row : scanner.rows.lookup state with
  | none => simp [row] at found
  | some edges =>
      simp only [row, Option.getD_some] at found
      rcases List.lookup_eq_some_iff.mp row with ⟨before, behind, rows, -⟩
      exact ⟨edges, rows ▸ by simp, found⟩

theorem edge_mem {state : Nat} {byte : UInt8} {edge : Edge Action}
    (taken : scanner.edge state byte = some edge) :
    ∃ row ∈ scanner.rows, edge ∈ row.2 := by
  rcases edge_row taken with ⟨edges, row, member⟩
  exact ⟨(state, edges), row, member⟩

variable (scanner) in
/-- The actions lie between the start and the end of the scan. -/
theorem event_bounds : ∀ (state position : Nat) (bytes : List UInt8),
    ∀ event ∈ (scanner.scan state position bytes).events,
      position ≤ event.1 ∧ event.1 < (scanner.scan state position bytes).position
  | _, _, [], _, member => by cases member
  | state, position, byte :: bytes, event, member => by
      rcases scan_cons_cases scanner state position byte bytes with
        ⟨-, scanned⟩ | ⟨edge, -, ⟨-, scanned⟩ | ⟨-, scanned⟩⟩ <;> rw [scanned] at member ⊢
      · cases member
      · rcases List.mem_map.mp member with ⟨action, -, rfl⟩
        exact ⟨Nat.le_refl _, Nat.lt_succ_self position⟩
      · have forward := scanner.le_scan_position edge.target (position + 1) bytes
        rw [Scan.after_position]
        rcases List.mem_append.mp member with member | member
        · rcases List.mem_map.mp member with ⟨action, -, rfl⟩
          exact ⟨Nat.le_refl _, forward⟩
        · have bounds := event_bounds edge.target (position + 1) bytes event member
          exact ⟨Nat.le_of_succ_le bounds.1, bounds.2⟩

/-- A scan that ended early is in the error state or behind a stopping edge. -/
theorem state_of_ended : ∀ {state position : Nat} {bytes : List UInt8},
    (scanner.scan state position bytes).running = false →
      (scanner.scan state position bytes).state = scanner.error ∨
        ∃ row ∈ scanner.rows, ∃ edge ∈ row.2, edge.actions.any scanner.stops = true ∧
          (scanner.scan state position bytes).state = edge.target
  | _, _, [], ended => by cases ended
  | state, position, byte :: bytes, ended => by
      rcases scan_cons_cases scanner state position byte bytes with
        ⟨-, scanned⟩ | ⟨edge, taken, ⟨stopped, scanned⟩ | ⟨-, scanned⟩⟩ <;>
        rw [scanned] at ended ⊢
      · exact .inl rfl
      · rcases edge_mem taken with ⟨row, row_mem, edge_mem⟩
        exact .inr ⟨row, row_mem, edge, edge_mem, stopped, rfl⟩
      · exact state_of_ended ended

/-- What every edge that does not stop leads to holds where a scan ends with its bytes. -/
theorem state_of_running {Holds : Nat → Prop}
    (kept : ∀ row ∈ scanner.rows, ∀ edge ∈ row.2,
      edge.actions.any scanner.stops = false → Holds edge.target) :
    ∀ {state position : Nat} {bytes : List UInt8}, Holds state →
      (scanner.scan state position bytes).running = true →
      Holds (scanner.scan state position bytes).state
  | _, _, [], holds, _ => holds
  | state, position, byte :: bytes, holds, running => by
      rcases scan_cons_cases scanner state position byte bytes with
        ⟨-, scanned⟩ | ⟨edge, taken, ⟨-, scanned⟩ | ⟨onward, scanned⟩⟩ <;>
        rw [scanned] at running ⊢
      · cases running
      · cases running
      · rcases edge_mem taken with ⟨row, row_mem, edge_mem⟩
        exact state_of_running kept (kept row row_mem edge edge_mem onward) running

/-- Outside the error state a scan consumes at least one byte. -/
theorem lt_scan_position {state : Nat} (position : Nat) {bytes : List UInt8}
    (nonempty : bytes ≠ [])
    (accepted : (scanner.scan state position bytes).state ≠ scanner.error) :
    position < (scanner.scan state position bytes).position := by
  cases bytes with
  | nil => exact absurd rfl nonempty
  | cons byte bytes =>
      rcases scan_cons_cases scanner state position byte bytes with
        ⟨-, scanned⟩ | ⟨edge, -, ⟨-, scanned⟩ | ⟨-, scanned⟩⟩ <;> rw [scanned] at accepted ⊢
      · exact absurd rfl accepted
      · exact Nat.lt_succ_self position
      · exact scanner.le_scan_position edge.target (position + 1) bytes

/-! ## Walks

A scan of bytes that it does not end in. Walks are put together piece by piece. -/

variable (scanner) in
/-- What a byte does in a state. -/
def move (state : Nat) (byte : UInt8) : Option (List Action × Nat) :=
  (scanner.edge state byte).map fun edge => (edge.actions, edge.target)

variable (scanner) in
/-- A scan of the bytes goes from `state` to `target` and performs `events`. -/
def Walks (state position : Nat) (bytes : List UInt8) (target : Nat)
    (events : List (Nat × Action)) : Prop :=
  scanner.scan state position bytes = ⟨target, position + bytes.length, events, true⟩

instance [DecidableEq Action] (state position : Nat) (bytes : List UInt8) (target : Nat)
    (events : List (Nat × Action)) :
    Decidable (scanner.Walks state position bytes target events) :=
  inferInstanceAs (Decidable (_ = _))

theorem walks_nil (state position : Nat) : scanner.Walks state position [] state [] :=
  rfl

theorem Walks.append {state position middle target : Nat} {left right : List UInt8}
    {first second : List (Nat × Action)} (before : scanner.Walks state position left middle first)
    (behind : scanner.Walks middle (position + left.length) right target second) :
    scanner.Walks state position (left ++ right) target (first ++ second) := by
  unfold Walks at before behind ⊢
  rw [scan_append_of_running (by rw [before]), before, behind, List.length_append]
  simp [Scan.after, Nat.add_assoc]

theorem walks_byte {state target : Nat} {byte : UInt8} {actions : List Action}
    (taken : scanner.move state byte = some (actions, target))
    (onward : actions.any scanner.stops = false) (position : Nat) :
    scanner.Walks state position [byte] target
      (actions.map fun action => (position, action)) := by
  rcases Option.map_eq_some_iff.mp taken with ⟨edge, found, same⟩
  cases same
  unfold Walks
  rw [scan_cons_step found onward]
  simp [scan, Scan.after]

/-- Bytes that lead from a state back to it. -/
theorem walks_loop {state : Nat} {bytes : List UInt8}
    (stays : ∀ byte ∈ bytes, scanner.move state byte = some ([], state)) (position : Nat) :
    scanner.Walks state position bytes state [] := by
  induction bytes generalizing position with
  | nil => exact walks_nil state position
  | cons byte bytes induction =>
      have head := walks_byte (stays byte List.mem_cons_self) rfl position
      apply head.append
      exact induction (fun byte member => stays byte (List.mem_cons_of_mem _ member)) _

/-- A walk whose bytes are known, at another position. -/
theorem walks_at {state target : Nat} {bytes : List UInt8} {events : List (Nat × Action)}
    (walks : scanner.Walks state 0 bytes target events) (position : Nat) :
    scanner.Walks state position bytes target
      (events.map fun event => (event.1 + position, event.2)) := by
  unfold Walks at walks ⊢
  have shifted := scanner.scan_shift position state 0 bytes
  rw [Nat.zero_add] at shifted
  rw [shifted, walks, Scan.shift, Nat.zero_add, Nat.add_comm position]

/-- The scan of bytes that begin with a walk. -/
theorem Walks.scan_append {state position target : Nat} {bytes : List UInt8}
    {events : List (Nat × Action)} (walks : scanner.Walks state position bytes target events)
    (more : List UInt8) :
    scanner.scan state position (bytes ++ more) =
      (scanner.scan target (position + bytes.length) more).after events := by
  unfold Walks at walks
  rw [scan_append_of_running (by rw [walks]), walks]

theorem scan_stop {state target : Nat} {byte : UInt8} {actions : List Action}
    (taken : scanner.move state byte = some (actions, target))
    (stopped : actions.any scanner.stops = true) (position : Nat) (bytes : List UInt8) :
    scanner.scan state position (byte :: bytes) =
      ⟨target, position + 1, actions.map fun action => (position, action), false⟩ := by
  rcases Option.map_eq_some_iff.mp taken with ⟨edge, found, same⟩
  cases same
  exact scan_cons_stop found stopped position bytes

theorem scan_error {state : Nat} {byte : UInt8} (rejected : scanner.move state byte = none)
    (position : Nat) (bytes : List UInt8) :
    scanner.scan state position (byte :: bytes) = ⟨scanner.error, position, [], false⟩ :=
  scan_cons_error (Option.map_eq_none_iff.mp rejected) position bytes

end Scanner

/-! ## Classes of bytes

What a whole class of bytes does in a state is decided on the ranges of the class. -/

def within (ranges : List (Nat × Nat)) (byte : UInt8) : Bool :=
  ranges.any fun range => range.1 ≤ byte.toNat && byte.toNat ≤ range.2

namespace Edge

variable {Action : Type u} (edge : Edge Action) (condition : Bool) (range : Nat × Nat)

/-- All bytes of the range can take the edge. -/
def covers : Bool :=
  (!edge.guarded || condition) &&
    edge.bytes.any fun other => other.1 ≤ range.1 && range.2 ≤ other.2

/-- No byte of the range can take the edge. -/
def misses : Bool :=
  (edge.guarded && !condition) ||
    edge.bytes.all fun other => other.2 < range.1 || range.2 < other.1

variable {edge condition range} {byte : UInt8} (first : range.1 ≤ byte.toNat)
  (last : byte.toNat ≤ range.2)

include first last

theorem accepts_of_covers (covered : edge.covers condition range = true) :
    edge.accepts condition byte = true := by
  unfold covers at covered
  unfold accepts
  simp only [Bool.and_eq_true, List.any_eq_true, decide_eq_true_eq] at covered ⊢
  rcases covered with ⟨allowed, other, member, below, above⟩
  exact ⟨allowed, other, member, by omega, by omega⟩

theorem not_accepts_of_misses (missed : edge.misses condition range = true) :
    edge.accepts condition byte = false := by
  unfold misses at missed
  unfold accepts
  simp only [Bool.or_eq_true, Bool.and_eq_true, List.all_eq_true, decide_eq_true_eq,
    Bool.and_eq_false_iff, List.any_eq_false, not_and, Bool.not_eq_true'] at missed ⊢
  rcases missed with ⟨guarded, refused⟩ | missed
  · exact .inl (by simp [guarded, refused])
  · refine .inr fun other member below above => ?_
    have apart := missed other member
    omega

end Edge

namespace Scanner

variable {Action : Type u} {scanner : Scanner Action} {state : Nat} {byte : UInt8}

variable (scanner) in
/-- What all bytes of a range do in a state, if one edge has them all. -/
def leads (state : Nat) (range : Nat × Nat) : Option (List Action × Nat) :=
  (((scanner.rows.lookup state).getD []).find? (!·.misses scanner.condition range)).bind
    fun edge =>
      if edge.covers scanner.condition range then some (edge.actions, edge.target) else none

theorem find?_accepts {edges : List (Edge Action)} {condition : Bool} {range : Nat × Nat}
    {edge : Edge Action} (first : range.1 ≤ byte.toNat) (last : byte.toNat ≤ range.2)
    (found : edges.find? (!·.misses condition range) = some edge)
    (covered : edge.covers condition range = true) :
    edges.find? (·.accepts condition byte) = some edge := by
  induction edges with
  | nil => cases found
  | cons head edges induction =>
      cases missed : head.misses condition range with
      | true =>
          rw [List.find?_cons_of_neg (by simp [missed])] at found
          rw [List.find?_cons_of_neg (by simp [Edge.not_accepts_of_misses first last missed])]
          exact induction found
      | false =>
          rw [List.find?_cons_of_pos (by simp [missed])] at found
          cases found
          exact List.find?_cons_of_pos (Edge.accepts_of_covers first last covered)

theorem move_of_leads {ranges : List (Nat × Nat)} {result : List Action × Nat}
    (leads : ∀ range ∈ ranges, scanner.leads state range = some result)
    (member : within ranges byte = true) : scanner.move state byte = some result := by
  rcases List.any_eq_true.mp member with ⟨range, listed, bounds⟩
  simp only [Bool.and_eq_true, decide_eq_true_eq] at bounds
  rcases Option.bind_eq_some_iff.mp (leads range listed) with ⟨edge, found, chosen⟩
  split at chosen
  · rename_i covered
    cases chosen
    unfold move Scanner.edge
    rw [find?_accepts bounds.1 bounds.2 found covered]
    rfl
  · cases chosen

variable (scanner) in
/-- Every byte of the ranges takes an edge of a kind. -/
def takes (state : Nat) (ranges : List (Nat × Nat)) (kind : Edge Action → Bool) : Bool :=
  ((scanner.rows.lookup state).getD []).all
      (fun edge => kind edge || ranges.all (edge.misses scanner.condition ·)) &&
    ranges.all fun range =>
      ((scanner.rows.lookup state).getD []).any (·.covers scanner.condition range)

theorem edge_of_takes {ranges : List (Nat × Nat)} {kind : Edge Action → Bool}
    (takes : scanner.takes state ranges kind = true) (member : within ranges byte = true) :
    ∃ edge, scanner.edge state byte = some edge ∧ kind edge = true ∧
      edge.accepts scanner.condition byte = true := by
  rcases List.any_eq_true.mp member with ⟨range, listed, bounds⟩
  simp only [Bool.and_eq_true, decide_eq_true_eq] at bounds
  rcases (Bool.and_eq_true _ _).mp takes with ⟨kinds, covers⟩
  rcases List.any_eq_true.mp (List.all_eq_true.mp covers range listed) with
    ⟨edge, inside, covered⟩
  have accepted := Edge.accepts_of_covers bounds.1 bounds.2 covered
  cases found : scanner.edge state byte with
  | none =>
      have refused := List.find?_eq_none.mp found edge inside
      exact absurd accepted refused
  | some taken =>
      have takes_it := List.find?_some found
      refine ⟨taken, rfl, ?_, takes_it⟩
      have listed_edge := List.all_eq_true.mp kinds taken (List.mem_of_find?_eq_some found)
      rcases (Bool.or_eq_true _ _).mp listed_edge with kind | missed
      · exact kind
      · have refused := Edge.not_accepts_of_misses bounds.1 bounds.2
          (List.all_eq_true.mp missed range listed)
        exact absurd (takes_it.symm.trans refused) Bool.noConfusion

theorem move_of_edge {edge : Edge Action} (taken : scanner.edge state byte = some edge) :
    scanner.move state byte = some (edge.actions, edge.target) := by
  rw [move, taken, Option.map_some]

end Scanner

end FiberNet
