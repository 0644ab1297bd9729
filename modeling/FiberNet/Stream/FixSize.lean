import Mathlib.Algebra.BigOperators.Group.List.Basic
import Mathlib.Algebra.Group.Int.Defs
import Mathlib.Algebra.Group.Nat.Defs
import Mathlib.Algebra.GroupWithZero.Nat
import Mathlib.Data.List.Basic
import Mathlib.Data.Nat.Basic

/-! # Transfers of a fixed size

`readFixSize` and `writeFixSize` call `read` and `write` until everything is transferred.
What a call transfers is up to the stream.
-/

namespace FiberNet

namespace Stream

/-- `read` and `write`, on a buffer and on a `ByteArray`. -/
inductive Operation
  | readBuffer | readArray | writeBuffer | writeArray
  deriving DecidableEq, Repr

structure Call where
  operation : Operation
  requested : Nat
  result : Int32
  deriving DecidableEq, Repr

/-- What a call returns, given those before it. No call transfers more than it is asked to. -/
structure Behaviour where
  result : List Call → Operation → Nat → Int32
  bounded : ∀ log operation requested, (result log operation requested).toInt ≤ requested

/-- The peer's bytes and how many of them have been received, the bytes sent, the buffer,
the `ByteArray` with its position, and the calls so far. -/
structure World where
  incoming : Nat → UInt8
  received : Nat
  sent : List UInt8
  buffer : Nat → UInt8
  content : Nat → UInt8
  position : Nat
  log : List Call

/-- `count` of the peer's bytes in the places from `start` on. -/
def World.arrived (world : World) (places : Nat → UInt8) (start count : Nat) : Nat → UInt8 :=
  fun index =>
    if start ≤ index ∧ index < start + count then
      world.incoming (world.received + (index - start))
    else places index

/-- What a call does that transfers `count` bytes. The offset is the one into the buffer. -/
def World.move (world : World) : Operation → (offset count : Nat) → World
  | .readBuffer, offset, count =>
      { world with
        buffer := world.arrived world.buffer offset count
        received := world.received + count }
  | .readArray, _, count =>
      { world with
        content := world.arrived world.content world.position count
        position := world.position + count
        received := world.received + count }
  | .writeBuffer, offset, count =>
      { world with sent := world.sent ++ (List.range' offset count).map world.buffer }
  | .writeArray, _, count =>
      { world with
        sent := world.sent ++ (List.range' world.position count).map world.content
        position := world.position + count }

def World.logged (world : World) (log : List Call) : World :=
  { world with log := log }

def call (behaviour : Behaviour) (operation : Operation) (offset requested : Nat)
    (world : World) : Int32 × World :=
  let result := behaviour.result world.log operation requested
  (result, (world.move operation offset result.toInt.toNat).logged
    (world.log ++ [⟨operation, requested, result⟩]))

/-- The loop of all four. `left` keeps the length, to be returned as an `int`. -/
def fixSize (behaviour : Behaviour) (operation : Operation) (left : Nat) :
    (turns offset length : Nat) → World → Option (Int32 × World)
  | 0, _, length, world => if length = 0 then some (.ofNat left, world) else none
  | turns + 1, offset, length, world =>
      if length = 0 then some (.ofNat left, world)
      else
        let (len, world) := call behaviour operation offset length world
        if len.toInt ≤ 0 then some (len, world)
        else
          fixSize behaviour operation left turns (offset + len.toInt.toNat)
            (length - len.toInt.toNat) world

def readFixSize (behaviour : Behaviour) (length : Nat) : World → Option (Int32 × World) :=
  fixSize behaviour .readBuffer length length 0 length

def readFixSizeArray (behaviour : Behaviour) (length : Nat) : World → Option (Int32 × World) :=
  fixSize behaviour .readArray length length 0 length

def writeFixSize (behaviour : Behaviour) (length : Nat) : World → Option (Int32 × World) :=
  fixSize behaviour .writeBuffer length length 0 length

/-- It calls `read`. -/
def writeFixSizeArray (behaviour : Behaviour) (length : Nat) : World → Option (Int32 × World) :=
  fixSize behaviour .readArray length length 0 length

/-! ## What the loops should do -/

/-- How many bytes the calls have transferred. -/
def moved (trace : List Call) : Nat :=
  (trace.map fun call => call.result.toInt.toNat).sum

/-- The calls are of the named operation, and together they do what one call would do that
transfers as many bytes. Exactly if these are all `length` bytes, the length is returned and
positive. If there are fewer, the result is that of the one call that is not positive. -/
structure Faithful (operation : Operation) (length : Nat) (start finish : World)
    (result : Int32) (trace : List Call) : Prop where
  named : ∀ call ∈ trace, call.operation = operation
  within : moved trace ≤ length
  state : finish = (start.move operation 0 (moved trace)).logged (start.log ++ trace)
  whole : 0 < result.toInt ∧ result.toInt = length ↔ 0 < length ∧ moved trace = length
  stopped : moved trace < length → ∃ done requested,
    trace = done ++ [⟨operation, requested, result⟩] ∧ result.toInt ≤ 0 ∧
      ∀ call ∈ done, 0 < call.result.toInt

/-- The loop ends, and it is faithful. -/
def Transfers (operation : Operation) (length : Nat) (start : World)
    (outcome : Option (Int32 × World)) : Prop :=
  ∃ result finish trace, outcome = some (result, finish) ∧
    Faithful operation length start finish result trace

/-- The stream stops before `length` bytes are transferred. -/
inductive Cut (behaviour : Behaviour) (operation : Operation) : List Call → Nat → Prop
  | now {log : List Call} {length : Nat} (more : 0 < length)
      (ends : (behaviour.result log operation length).toInt ≤ 0) : Cut behaviour operation log length
  | later {log : List Call} {length : Nat}
      (goes : 0 < (behaviour.result log operation length).toInt)
      (rest : Cut behaviour operation
        (log ++ [⟨operation, length, behaviour.result log operation length⟩])
        (length - (behaviour.result log operation length).toInt.toNat)) :
      Cut behaviour operation log length

/-! ## Transfers one after the other -/

@[simp] theorem moved_nil : moved [] = 0 := rfl

@[simp] theorem moved_cons (call : Call) (trace : List Call) :
    moved (call :: trace) = call.result.toInt.toNat + moved trace := by
  simp [moved]

theorem arrived_zero (world : World) (places : Nat → UInt8) (start : Nat) :
    world.arrived places start 0 = places := by
  funext index
  rw [World.arrived, if_neg (by omega)]

/-- A second arrival behind the first. -/
theorem arrived_arrived (world next : World) (places : Nat → UInt8) (start first second : Nat)
    (incoming : next.incoming = world.incoming)
    (received : next.received = world.received + first) :
    next.arrived (world.arrived places start first) (start + first) second =
      world.arrived places start (first + second) := by
  funext index
  simp only [World.arrived, incoming, received]
  by_cases behind : start + first ≤ index ∧ index < start + first + second
  · rw [if_pos behind, if_pos (by omega)]
    congr 1
    omega
  · rw [if_neg behind]
    by_cases before : start ≤ index ∧ index < start + first
    · rw [if_pos before, if_pos (by omega)]
    · rw [if_neg before, if_neg (by omega)]

theorem move_zero (world : World) (operation : Operation) (offset : Nat) :
    world.move operation offset 0 = world := by
  cases operation <;> simp [World.move, arrived_zero]

theorem move_log (world : World) (log : List Call) (operation : Operation)
    (offset count : Nat) :
    (world.logged log).move operation offset count =
      (world.move operation offset count).logged log := by
  cases operation <;> rfl

theorem logged_nil (world : World) : world.logged (world.log ++ []) = world := by
  rw [List.append_nil]
  rfl

theorem move_move (world : World) (operation : Operation) (offset first second : Nat) :
    (world.move operation offset first).move operation (offset + first) second =
      world.move operation offset (first + second) := by
  cases operation with
  | readBuffer =>
      simp only [World.move, Nat.add_assoc]
      congr 1
      exact arrived_arrived world _ _ offset first second rfl rfl
  | readArray =>
      simp only [World.move, Nat.add_assoc]
      congr 1
      exact arrived_arrived world _ _ world.position first second rfl rfl
  | writeBuffer =>
      simp only [World.move, List.append_assoc, ← List.map_append, List.range'_append_1]
  | writeArray =>
      simp only [World.move, List.append_assoc, ← List.map_append, List.range'_append_1,
        Nat.add_assoc]

/-! ## The loop -/

/-- How the loop ends: with all bytes transferred, or with the result at which the stream
has stopped. -/
structure Ran (behaviour : Behaviour) (operation : Operation) (left length : Nat)
    (log trace : List Call) (result : Int32) : Prop where
  named : ∀ call ∈ trace, call.operation = operation
  ended : (¬Cut behaviour operation log length ∧ moved trace = length ∧
      result = Int32.ofNat left) ∨
    (Cut behaviour operation log length ∧ moved trace < length ∧ ∃ done requested,
      trace = done ++ [⟨operation, requested, result⟩] ∧ result.toInt ≤ 0 ∧
        ∀ call ∈ done, 0 < call.result.toInt)

theorem not_cut_zero {behaviour : Behaviour} {operation : Operation} {log : List Call} :
    ¬Cut behaviour operation log 0 := by
  intro cut
  have bound := behaviour.bounded log operation 0
  cases cut with
  | now more ends => exact Nat.lt_irrefl 0 more
  | later goes rest => omega

theorem ran_zero (behaviour : Behaviour) (operation : Operation) (left : Nat)
    (log : List Call) : Ran behaviour operation left 0 log [] (.ofNat left) where
  named := by
    intro call member
    cases member
  ended := .inl ⟨not_cut_zero, rfl, rfl⟩

theorem ran_stop {behaviour : Behaviour} {operation : Operation} {length : Nat}
    {log : List Call} (left : Nat) (more : 0 < length)
    (ends : (behaviour.result log operation length).toInt ≤ 0) :
    Ran behaviour operation left length log
      [⟨operation, length, behaviour.result log operation length⟩]
      (behaviour.result log operation length) where
  named := by
    intro call member
    rw [List.mem_singleton.mp member]
  ended := by
    right
    refine ⟨.now more ends, ?_, [], length, rfl, ends, ?_⟩
    · rw [moved_cons, moved_nil, Int.toNat_of_nonpos ends]
      exact more
    · intro call member
      cases member

theorem ran_step {behaviour : Behaviour} {operation : Operation} {left length : Nat}
    {log trace : List Call} {result : Int32}
    (goes : 0 < (behaviour.result log operation length).toInt)
    (ran : Ran behaviour operation left
      (length - (behaviour.result log operation length).toInt.toNat)
      (log ++ [⟨operation, length, behaviour.result log operation length⟩]) trace result) :
    Ran behaviour operation left length log
      (⟨operation, length, behaviour.result log operation length⟩ :: trace) result := by
  have bound := behaviour.bounded log operation length
  constructor
  · intro call member
    rcases List.mem_cons.mp member with rfl | later
    · rfl
    · exact ran.named call later
  · rcases ran.ended with ⟨uncut, whole, returned⟩ |
      ⟨cut, short, done, requested, rfl, stops, positive⟩
    · left
      refine ⟨?_, ?_, returned⟩
      · intro cut
        cases cut with
        | now more ends => omega
        | later goes rest => exact uncut rest
      · rw [moved_cons]
        simp only
        omega
    · right
      refine ⟨.later goes cut, ?_, _ :: done, requested, rfl, stops, ?_⟩
      · rw [moved_cons]
        simp only
        omega
      · intro call member
        rcases List.mem_cons.mp member with rfl | later
        · exact goes
        · exact positive call later

/-- The loop ends within as many turns as there are bytes. -/
theorem fixSize_ran (behaviour : Behaviour) (operation : Operation) (left turns : Nat) :
    ∀ {offset length : Nat} (world : World), length ≤ turns → ∃ result finish trace,
      fixSize behaviour operation left turns offset length world = some (result, finish) ∧
      finish = (world.move operation offset (moved trace)).logged (world.log ++ trace) ∧
      Ran behaviour operation left length world.log trace result := by
  induction turns with
  | zero =>
      intro offset length world enough
      rw [Nat.le_zero.mp enough]
      refine ⟨_, world, [], rfl, ?_, ran_zero behaviour operation left world.log⟩
      rw [moved_nil, move_zero, logged_nil]
  | succ turns ih =>
      intro offset length world enough
      unfold fixSize
      split
      · rename_i done
        rw [done]
        refine ⟨_, world, [], rfl, ?_, ran_zero behaviour operation left world.log⟩
        rw [moved_nil, move_zero, logged_nil]
      · rename_i more
        rw [call]
        simp only
        by_cases ends : (behaviour.result world.log operation length).toInt ≤ 0
        · rw [if_pos ends]
          refine ⟨_, _, _, rfl, ?_, ran_stop left (Nat.pos_of_ne_zero more) ends⟩
          rw [moved_cons, moved_nil, Nat.add_zero]
        · rw [if_neg ends]
          rcases @ih (offset + (behaviour.result world.log operation length).toInt.toNat)
            (length - (behaviour.result world.log operation length).toInt.toNat)
            ((world.move operation offset
              (behaviour.result world.log operation length).toInt.toNat).logged (world.log ++
                [⟨operation, length, behaviour.result world.log operation length⟩]))
            (by omega) with ⟨result, finish, trace, returned, state, ran⟩
          refine ⟨result, finish, _ :: trace, returned, ?_, ran_step (Int.lt_of_not_ge ends) ran⟩
          rw [state, moved_cons, move_log, move_move]
          simp only [World.logged, List.append_assoc, List.singleton_append]

/-! ## The four loops -/

/-- The length as an `int`. -/
theorem toInt_length_iff (length : Nat) :
    (0 < (Int32.ofNat length).toInt ∧ (Int32.ofNat length).toInt = length) ↔
      0 < length ∧ length < 2 ^ 31 := by
  have value : (Int32.ofNat length).toInt = (length : Int).bmod (2 ^ 32) := Int32.toInt_ofNat'
  rw [value, Int.bmod_def]
  split <;> omega

/-- A loop of the named operation is faithful if and only if the length is an `int` or the
stream stops before it. -/
theorem transfers_iff (behaviour : Behaviour) (operation : Operation) (length : Nat)
    (start : World) :
    Transfers operation length start
        (fixSize behaviour operation length length 0 length start) ↔
      length < 2 ^ 31 ∨ Cut behaviour operation start.log length := by
  rcases @fixSize_ran behaviour operation length length 0 length start (Nat.le_refl _)
    with ⟨result, finish, trace, returned, state, ran⟩
  have number := toInt_length_iff length
  constructor
  · rintro ⟨result', finish', trace', same, faithful⟩
    rw [returned] at same
    cases same
    rcases ran.ended with ⟨_, whole, rfl⟩ | ⟨cut, _⟩
    · left
      have logs := faithful.state
      rw [state] at logs
      have traces : trace = trace' := List.append_cancel_left (congrArg World.log logs)
      subst traces
      by_contra long
      have kept := faithful.whole.mpr ⟨by omega, whole⟩
      exact long (number.mp kept).2
    · exact .inr cut
  · intro holds
    refine ⟨result, finish, trace, returned, ran.named, ?_, state, ?_, ?_⟩
    · rcases ran.ended with ⟨_, whole, _⟩ | ⟨_, short, _⟩ <;> omega
    · rcases ran.ended with ⟨uncut, whole, rfl⟩ | ⟨_, short, done, requested, _, stops, _⟩
      · have fits := holds.resolve_right uncut
        rw [number]
        exact ⟨fun given => ⟨given.1, whole⟩, fun given => ⟨given.1, fits⟩⟩
      · constructor
        · rintro ⟨positive, _⟩
          omega
        · rintro ⟨_, whole⟩
          omega
    · intro short
      rcases ran.ended with ⟨_, whole, _⟩ | ⟨_, _, stopped⟩
      · omega
      · exact stopped

/-- The loop that calls `read` writes nothing. -/
theorem writeFixSizeArray_iff (behaviour : Behaviour) (length : Nat) (start : World) :
    Transfers .writeArray length start (writeFixSizeArray behaviour length start) ↔
      length = 0 := by
  rcases @fixSize_ran behaviour .readArray length length 0 length start (Nat.le_refl _)
    with ⟨result, finish, trace, returned, state, ran⟩
  constructor
  · rintro ⟨result', finish', trace', same, faithful⟩
    rw [writeFixSizeArray, returned] at same
    cases same
    have logs := faithful.state
    rw [state] at logs
    have traces : trace = trace' := List.append_cancel_left (congrArg World.log logs)
    subst traces
    cases trace with
    | nil =>
        rcases ran.ended with ⟨_, whole, _⟩ | ⟨_, _, done, requested, ends, _⟩
        · exact whole.symm
        · simp at ends
    | cons call trace =>
        have reads := ran.named call List.mem_cons_self
        have writes := faithful.named call List.mem_cons_self
        rw [reads] at writes
        cases writes
  · rintro rfl
    refine ⟨_, start, [], rfl, ?_, Nat.le_refl _, ?_, ?_, ?_⟩
    · intro call member
      cases member
    · rw [moved_nil, move_zero, logged_nil]
    · constructor
      · rintro ⟨positive, zero⟩
        omega
      · rintro ⟨positive, _⟩
        omega
    · intro short
      exact absurd short (Nat.lt_irrefl 0)

theorem fixSize_iff (behaviour : Behaviour) (length : Nat) (start : World) :
    (Transfers .readBuffer length start (readFixSize behaviour length start) ↔
      length < 2 ^ 31 ∨ Cut behaviour .readBuffer start.log length) ∧
    (Transfers .readArray length start (readFixSizeArray behaviour length start) ↔
      length < 2 ^ 31 ∨ Cut behaviour .readArray start.log length) ∧
    (Transfers .writeBuffer length start (writeFixSize behaviour length start) ↔
      length < 2 ^ 31 ∨ Cut behaviour .writeBuffer start.log length) ∧
    (Transfers .writeArray length start (writeFixSizeArray behaviour length start) ↔
      length = 0) :=
  ⟨transfers_iff behaviour .readBuffer length start,
    transfers_iff behaviour .readArray length start,
    transfers_iff behaviour .writeBuffer length start,
    writeFixSizeArray_iff behaviour length start⟩

/-- A stream that transfers a byte at a time. -/
def byteAtATime : Behaviour where
  result := fun _ _ requested => if requested = 0 then 0 else 1
  bounded := by
    intro log operation requested
    split
    · exact Int.natCast_nonneg requested
    · have one : (1 : Int32).toInt = 1 := by decide
      rw [one]
      omega

/-- One byte to be sent is received in its place. -/
theorem not_transfers : ¬∀ start : World,
    Transfers .writeArray 1 start (writeFixSizeArray byteAtATime 1 start) := by
  intro transfers
  have zero := (writeFixSizeArray_iff byteAtATime 1
    ⟨fun _ => 0, 0, [], fun _ => 0, fun _ => 0, 0, []⟩).mp (transfers _)
  cases zero

end Stream

end FiberNet
