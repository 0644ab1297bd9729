import FiberNet.Bytes.Overwrite
import FiberNet.Bytes.Receiving
import FiberNet.Foundation.Refinement

/-! # The array as a tape

For its users a `ByteArray` is a row of cells with a size and a position. Nodes are not to be
seen, but for the capacity.
-/

namespace FiberNet

namespace ByteArray

/-- What a `recv` for some bytes has put into the segments. -/
structure Arriving where
  size : Nat
  data : List UInt8
  some : data ≠ []
  part : data.length ≤ size

inductive ArrayAction
  | write (buff : List UInt8)
  | read (size : Nat)
  | dump
  | setPosition (v : Nat)
  | clear
  /-- `SocketStream::read`. -/
  | receive (arriving : Arriving)
  /-- One that gets nothing. -/
  | receiveNothing (rt : Int) (size : Nat)

/-- What is read, or the exception. -/
abbrev Outcome := Except Failure (List (Option UInt8))

/-- An operation that returns nothing to compare. -/
def quiet {Value : Type} (ended : EStateM.Result Failure ByteArray Value) : Outcome × ByteArray :=
  match ended with
  | .ok _ array => (.ok [], array)
  | .error failure array => (.error failure, array)

def perform (action : ArrayAction) (array : ByteArray) : Outcome × ByteArray :=
  match action with
  | .write buff => quiet (write buff array)
  | .read size =>
      match read size array with
      | .ok buff array => (.ok buff, array)
      | .error failure array => (.error failure, array)
  | .dump => (array.dump, array)
  | .setPosition v => quiet (setPosition v array)
  | .clear => (.ok [], array.clear)
  | .receive arriving => quiet (SocketStream.read (.bytes arriving.data) arriving.size array)
  | .receiveNothing rt size => quiet (SocketStream.read (.failed rt) size array)

/-! ## The tape -/

/-- `blocks` have been reserved. The cursor is not `seated` behind a write that ends inside of
a block. -/
structure Tape where
  cells : Nat → Option UInt8
  size : Nat
  position : Nat
  blocks : Nat
  seated : Bool

namespace Tape

/-- The cells from the position on. -/
def window (tape : Tape) (size : Nat) : List (Option UInt8) :=
  (List.range' tape.position size).map tape.cells

/-- Bytes at the position, which moves behind them. -/
def put (tape : Tape) (bytes : List UInt8) (blocks : Nat) (seated : Bool) : Tape where
  cells index :=
    if tape.position ≤ index ∧ index < tape.position + bytes.length then
      bytes[index - tape.position]?
    else tape.cells index
  size := max tape.size (tape.position + bytes.length)
  position := tape.position + bytes.length
  blocks := max tape.blocks blocks
  seated := seated

def perform (blockSize : Nat) (action : ArrayAction) (tape : Tape) : Outcome × Tape :=
  match action with
  | .write [] => (.ok [], tape)
  | .write buff =>
      (.ok [], tape.put buff (ByteArray.blocks blockSize (tape.position + buff.length) + 1)
        (blockSize ∣ tape.position + buff.length))
  | .read size =>
      if size > tape.size - tape.position then (.error .outOfRange, tape)
      else (.ok (tape.window size), { tape with position := tape.position + size })
  | .dump => (.ok (tape.window (tape.size - tape.position)), tape)
  | .setPosition v =>
      if v > blockSize * tape.blocks then (.error .outOfRange, tape)
      else (.ok [], { tape with position := v, size := max tape.size v, seated := true })
  | .clear =>
      (.ok [], {
        cells index := if index < blockSize then tape.cells index else none
        size := 0
        position := 0
        blocks := 1
        seated := true })
  | .receive arriving =>
      (.ok [], tape.put arriving.data
        (ByteArray.blocks blockSize (tape.position + arriving.size)) true)
  | .receiveNothing _ size =>
      (.ok [], { tape with
        blocks := max tape.blocks (ByteArray.blocks blockSize (tape.position + size)) })

/-- The cursor is in the last block. -/
def AtEnd (blockSize : Nat) (tape : Tape) : Prop :=
  tape.position / blockSize + 1 = tape.blocks

/-- The nodes are not to be seen: a cursor that is not seated is set before it is used, what
does not fit is written from the last block on, and the cursor does not go to its end. -/
def Heeds (blockSize : Nat) (tape : Tape) : ArrayAction → Prop
  | .write buff => tape.seated = true ∧
      (tape.position + buff.length ≤ blockSize * tape.blocks ∨ tape.AtEnd blockSize)
  | .read size => tape.seated = true ∧
      (tape.position + size ≤ tape.size → tape.position + size < blockSize * tape.blocks)
  | .dump => tape.position < tape.size → tape.size < blockSize * tape.blocks
  | .setPosition v => v ≠ blockSize * tape.blocks
  | .clear => True
  | .receive arriving => tape.seated = true ∧
      (tape.position + arriving.size ≤ blockSize * tape.blocks ∧
          tape.position + arriving.data.length < blockSize * tape.blocks ∨
        blockSize * tape.blocks < tape.position + arriving.size ∧ tape.AtEnd blockSize ∧
          (arriving.data.length < arriving.size ∨ ¬blockSize ∣ tape.position + arriving.size))
  | .receiveNothing _ size => tape.seated = true ∧
      (tape.position + size ≤ blockSize * tape.blocks ∨ tape.AtEnd blockSize)

instance (blockSize : Nat) (tape : Tape) : Decidable (tape.AtEnd blockSize) :=
  inferInstanceAs (Decidable (_ = _))

instance decidableHeeds (blockSize : Nat) (tape : Tape) :
    ∀ action, Decidable (tape.Heeds blockSize action)
  | .write _ => inferInstanceAs (Decidable (_ ∧ _))
  | .read _ => inferInstanceAs (Decidable (_ ∧ _))
  | .dump => inferInstanceAs (Decidable (_ → _))
  | .setPosition _ => inferInstanceAs (Decidable (_ ≠ _))
  | .clear => inferInstanceAs (Decidable True)
  | .receive _ => inferInstanceAs (Decidable (_ ∧ _))
  | .receiveNothing _ _ => inferInstanceAs (Decidable (_ ∧ _))

end Tape

def tape (array : ByteArray) : Tape where
  cells := array.cell
  size := array.totalSize
  position := array.position
  blocks := array.chain.length
  seated := array.cur = array.position / array.blockSize

/-! ## The array and its tape -/

structure Whole (blockSize : Nat) (array : ByteArray) : Prop extends array.Bounded where
  blockSize : array.blockSize = blockSize
  node : array.position / array.blockSize < array.chain.length
  full : array.capacity = array.blockSize * array.chain.length

namespace Whole

variable {blockSize : Nat} {array : ByteArray}

theorem inside (whole : array.Whole blockSize) : array.position < array.capacity := by
  rw [whole.full, Nat.mul_comm]
  exact (Nat.div_lt_iff_lt_mul array.blockSize_pos).mp whole.node

theorem capacity_eq (whole : array.Whole blockSize) :
    blockSize * array.tape.blocks = array.capacity := by
  rw [whole.full, whole.blockSize]
  rfl

theorem current (seated : array.tape.seated = true) :
    array.cur = array.position / array.blockSize :=
  of_decide_eq_true seated

theorem atEnd_iff (whole : array.Whole blockSize) (seated : array.tape.seated = true) :
    array.tape.AtEnd blockSize ↔ array.cur + 1 = array.chain.length := by
  rw [current seated, whole.blockSize]
  rfl

theorem receiving (whole : array.Whole blockSize) (seated : array.tape.seated = true) :
    array.Receiving where
  current := current seated
  reached := current seated ▸ whole.node
  readable := whole.readable
  held := whole.held
  whole := by
    rw [whole.full, Nat.mul_div_cancel_left _ array.blockSize_pos]
  nodes := by
    rw [whole.full, Nat.mul_div_cancel_left _ array.blockSize_pos]
    exact .inl rfl

end Whole

/-- One operation is the operation of the tape. -/
structure Agrees (blockSize : Nat) (action : ArrayAction) (array : ByteArray) : Prop where
  outcome : (perform action array).1 = (Tape.perform blockSize action array.tape).1
  state : (perform action array).2.tape = (Tape.perform blockSize action array.tape).2
  whole : (perform action array).2.Whole blockSize

theorem Agrees.of_eq {blockSize : Nat} {action : ArrayAction} {array next : ByteArray}
    {outcome : Outcome} {moved : Tape} (performed : perform action array = (outcome, next))
    (specified : Tape.perform blockSize action array.tape = (outcome, moved))
    (state : next.tape = moved) (whole : next.Whole blockSize) :
    Agrees blockSize action array where
  outcome := by rw [performed, specified]
  state := by rw [performed, specified, state]
  whole := by
    rw [performed]
    exact whole

/-- Where the cursor goes behind the last byte. -/
theorem next_node {blockSize size : Nat} (positive : 0 < size) :
    size / blockSize = (size - 1) / blockSize + if blockSize ∣ size then 1 else 0 := by
  have split : (size - 1 + 1) / blockSize =
      (size - 1) / blockSize + if blockSize ∣ size - 1 + 1 then 1 else 0 := Nat.succ_div
  rw [Nat.sub_add_cancel positive] at split
  exact split

theorem next_node_iff {blockSize size : Nat} (positive : 0 < size) :
    (size - 1) / blockSize + 1 = size / blockSize ↔ blockSize ∣ size := by
  rw [next_node positive]
  split <;> simp [*]

namespace Whole

variable {blockSize : Nat} {array : ByteArray}

theorem written (whole : array.Whole blockSize) {buff : List UInt8}
    (heeds : array.tape.Heeds blockSize (.write buff)) :
    Agrees blockSize (.write buff) array := by
  cases buff with
  | nil => exact .of_eq rfl rfl rfl whole
  | cons byte rest =>
      rcases heeds with ⟨seated, room⟩
      rw [whole.capacity_eq, whole.atEnd_iff seated] at room
      have reached := current seated ▸ whole.node
      rcases write_written (List.cons_ne_nil byte rest) (current seated) reached whole.full room
        with ⟨next, done, written⟩
      have positive := array.blockSize_pos
      have performed : perform (.write (byte :: rest)) array = (.ok [], next) := by
        simp only [perform, done, quiet]
      apply Agrees.of_eq performed rfl
      · rw [tape, Tape.put, written.cur, written.position, written.totalSize, written.length,
          written.blockSize, whole.blockSize]
        congr
        · funext index
          exact written.cell index
        · exact propext (next_node_iff (by simp))
      · constructor
        · exact whole.toBounded.write done
        · exact written.blockSize.trans whole.blockSize
        · rw [written.position, written.length, written.blockSize]
          exact Nat.lt_of_lt_of_le (Nat.lt_succ_of_le (div_le_blocks positive _))
            (Nat.le_max_right _ _)
        · exact written.capacity

/-! ### Reading -/

theorem tape_seek (position : Nat) :
    (array.seek position).tape = { array.tape with position, seated := true } := by
  simp only [tape, ByteArray.seek, decide_true]
  rfl

theorem seek_self (seated : array.tape.seated = true) : array.seek array.position = array := by
  rw [ByteArray.seek, ← current seated]

theorem node_of_lt (whole : array.Whole blockSize) {position : Nat}
    (inside : position < array.capacity) :
    position / array.blockSize < array.chain.length := by
  apply (Nat.div_lt_iff_lt_mul array.blockSize_pos).mpr
  rw [Nat.mul_comm, ← whole.full]
  exact inside

theorem seek (whole : array.Whole blockSize) {position : Nat}
    (bounded : (array.seek position).Bounded) (inside : position < array.capacity) :
    (array.seek position).Whole blockSize where
  toBounded := bounded
  blockSize := whole.blockSize
  node := whole.node_of_lt inside
  full := whole.full

theorem read (whole : array.Whole blockSize) {size : Nat}
    (heeds : array.tape.Heeds blockSize (.read size)) :
    Agrees blockSize (.read size) array := by
  rcases heeds with ⟨seated, room⟩
  rw [whole.capacity_eq] at room
  have readable := whole.readable
  have moved := seek_self seated
  by_cases fits : array.position + size ≤ array.totalSize
  · have done := read_eq fits (whole.node_of_lt (room fits))
    rw [moved] at done
    have performed : perform (.read size) array =
        (.ok (array.slice array.position size), array.seek (array.position + size)) := by
      simp only [perform, done]
    have specified : Tape.perform blockSize (.read size) array.tape =
        (.ok (array.slice array.position size),
          { array.tape with position := array.position + size }) := by
      rw [Tape.perform, if_neg]
      · rfl
      · simp only [tape]
        omega
    apply Agrees.of_eq performed specified
    · rw [tape_seek, ← seated]
    · exact whole.seek (whole.toBounded.read done) (room fits)
  · have done := read_beyond (Nat.lt_of_not_le fits) readable
    rw [moved] at done
    have performed : perform (.read size) array = (.error .outOfRange, array) := by
      simp only [perform, done]
    have specified : Tape.perform blockSize (.read size) array.tape =
        (.error .outOfRange, array.tape) := by
      rw [Tape.perform, if_pos]
      simp only [tape]
      omega
    exact .of_eq performed specified rfl whole

theorem dump (whole : array.Whole blockSize)
    (heeds : array.tape.Heeds blockSize .dump) : Agrees blockSize .dump array := by
  have readable := whole.readable
  have performed : perform .dump array =
      (.ok (array.slice array.position (array.totalSize - array.position)), array) := by
    rw [perform, ByteArray.dump, getReadableSize]
    split
    · rename_i none
      rw [none, slice_zero]
    · rename_i some
      have room : array.totalSize < array.capacity := by
        rw [← whole.capacity_eq]
        apply heeds
        simp only [tape]
        omega
      rw [readAt_eq (Nat.le_refl _)]
      rw [Nat.add_sub_cancel' readable]
      exact whole.node_of_lt room
  exact .of_eq performed rfl rfl whole

theorem setPosition (whole : array.Whole blockSize) {v : Nat}
    (heeds : array.tape.Heeds blockSize (.setPosition v)) :
    Agrees blockSize (.setPosition v) array := by
  have different : v ≠ array.capacity := by
    rw [← whole.capacity_eq]
    exact heeds
  by_cases beyond : v > array.capacity
  · have performed : perform (.setPosition v) array = (.error .outOfRange, array) := by
      rw [perform, ByteArray.setPosition, if_pos beyond]
      rfl
    have specified : Tape.perform blockSize (.setPosition v) array.tape =
        (.error .outOfRange, array.tape) := by
      rw [Tape.perform, if_pos (whole.capacity_eq ▸ beyond)]
    exact .of_eq performed specified rfl whole
  · have inside : v < array.capacity := by omega
    have moved : ByteArray.setPosition v array = .ok () (array.landed v) :=
      setPosition_landed (by omega) (whole.node_of_lt inside)
    have performed : perform (.setPosition v) array = (.ok [], array.landed v) := by
      rw [perform, moved]
      rfl
    have specified : Tape.perform blockSize (.setPosition v) array.tape =
        (.ok [], { array.tape with
          position := v, size := max array.tape.size v, seated := true }) := by
      rw [Tape.perform, if_neg (whole.capacity_eq ▸ beyond)]
    apply Agrees.of_eq performed specified
    · simp only [tape, landed, ByteArray.seek, decide_true]
      rfl
    · constructor
      · exact whole.toBounded.setPosition moved
      · exact whole.blockSize
      · exact whole.node_of_lt inside
      · exact whole.full

theorem clear (whole : array.Whole blockSize) : Agrees blockSize .clear array := by
  have length : (array.chain.take 1).length = 1 := by
    have positive := array.chain_pos
    rw [List.length_take]
    omega
  have positive := array.blockSize_pos
  apply Agrees.of_eq rfl rfl
  · simp only [tape, ByteArray.clear, length, Nat.zero_div, decide_true]
    congr
    funext index
    rw [← whole.blockSize]
    simp only [cell]
    split
    · rename_i inside
      rw [Nat.div_eq_of_lt inside, List.getElem?_take_of_lt Nat.zero_lt_one]
    · rename_i outside
      have beyond : 1 ≤ index / array.blockSize :=
        (Nat.one_le_div_iff positive).mpr (Nat.le_of_not_lt outside)
      rw [List.getElem?_eq_none (by rw [length]; exact beyond), Option.bind_none]
  · constructor
    · exact bounded_clear array
    · exact whole.blockSize
    · change 0 / array.blockSize < (array.chain.take 1).length
      rw [length, Nat.zero_div]
      exact Nat.zero_lt_one
    · change array.blockSize = array.blockSize * (array.chain.take 1).length
      rw [length, Nat.mul_one]

/-! ### Receiving -/

/-- The array behind `allocate`. -/
def roomy (array : ByteArray) (size : Nat) : ByteArray :=
  array.extend array.cur (array.added size)

theorem last_of_room (whole : array.Whole blockSize) (seated : array.tape.seated = true)
    {size : Nat} (room : array.tape.position + size ≤ blockSize * array.tape.blocks ∨
      array.tape.AtEnd blockSize) :
    array.added size = 0 ∨ array.cur + 1 = array.chain.length := by
  rw [whole.capacity_eq, whole.atEnd_iff seated] at room
  exact room.imp_left added_eq_zero

theorem length_roomy (whole : array.Whole blockSize) {size : Nat}
    (last : array.added size = 0 ∨ array.cur + 1 = array.chain.length) :
    (roomy array size).chain.length =
      max array.chain.length (blocks blockSize (array.position + size)) := by
  rw [roomy, length_extend last, ← whole.blockSize]
  exact length_allocated whole.full (Nat.le_of_lt whole.inside)

theorem tape_roomy (whole : array.Whole blockSize) {size : Nat}
    (last : array.added size = 0 ∨ array.cur + 1 = array.chain.length) :
    (roomy array size).tape = { array.tape with
      blocks := max array.tape.blocks (blocks blockSize (array.tape.position + size)) } := by
  have length := whole.length_roomy last
  have cells : (roomy array size).cell = array.cell := cell_extend last
  rw [tape, length, cells]
  rfl

theorem whole_roomy (whole : array.Whole blockSize) {size : Nat}
    (last : array.added size = 0 ∨ array.cur + 1 = array.chain.length) :
    (roomy array size).Whole blockSize where
  blockSize := whole.blockSize
  node := by
    rw [whole.length_roomy last]
    exact Nat.lt_of_lt_of_le whole.node (Nat.le_max_left _ _)
  readable := whole.readable
  held := by
    have held := whole.held
    rw [roomy, extend_capacity, extend_totalSize]
    omega
  full := by
    have length : (roomy array size).chain.length = array.chain.length + array.added size :=
      length_extend last
    rw [length, Nat.mul_add]
    change array.capacity + array.blockSize * array.added size = _
    rw [whole.full]
    rfl

/-- The condition of the receiving functions. -/
theorem enough (whole : array.Whole blockSize) (seated : array.tape.seated = true) {size : Nat}
    (room : array.tape.position + size ≤ blockSize * array.tape.blocks ∨
      array.tape.AtEnd blockSize) :
    array.position + size ≤ array.capacity ∨
      array.capacity ≤ array.blockSize * (array.position / array.blockSize + 1) := by
  rw [whole.capacity_eq, whole.atEnd_iff seated] at room
  refine room.imp_right fun last => ?_
  rw [(whole.receiving seated).near_iff, whole.full,
    Nat.mul_div_cancel_left _ array.blockSize_pos]
  exact Nat.le_of_eq last.symm

theorem getWriteBuffers_roomy (whole : array.Whole blockSize)
    (seated : array.tape.seated = true) {size : Nat}
    (room : array.tape.position + size ≤ blockSize * array.tape.blocks ∨
      array.tape.AtEnd blockSize) :
    ∃ segments, getWriteBuffers [] size array = .ok (size, segments) (roomy array size) := by
  have receiving := whole.receiving seated
  rcases Nat.eq_zero_or_pos size with none | some
  · rw [none, getWriteBuffers_eq receiving.reached]
    cases (array.extend array.cur (array.added 0)).chain.length - array.cur with
    | zero => exact ⟨[], rfl⟩
    | succ nodes => exact ⟨[], rfl⟩
  · rcases receiving.getWriteBuffers_ok [] some (whole.enough seated room) with
      ⟨segments, returned, _⟩
    exact ⟨segments, returned⟩

theorem receiveNothing (whole : array.Whole blockSize) {rt : Int} {size : Nat}
    (heeds : array.tape.Heeds blockSize (.receiveNothing rt size)) :
    Agrees blockSize (.receiveNothing rt size) array := by
  rcases heeds with ⟨seated, room⟩
  have last := whole.last_of_room seated room
  rcases whole.getWriteBuffers_roomy seated room with ⟨segments, returned⟩
  have performed : perform (.receiveNothing rt size) array = (.ok [], roomy array size) := by
    simp only [perform, SocketStream.read, bind, EStateM.bind, returned]
    rfl
  exact .of_eq performed rfl (whole.tape_roomy last) (whole.whole_roomy last)

theorem receivable (whole : array.Whole blockSize) {arriving : Arriving}
    (heeds : array.tape.Heeds blockSize (.receive arriving)) :
    array.Receivable arriving.size arriving.data.length := by
  rcases heeds with ⟨seated, room⟩
  rw [whole.capacity_eq, whole.atEnd_iff seated] at room
  rcases room with ⟨fits, inside⟩ | ⟨beyond, last, more⟩
  · exact .inl ⟨fits, whole.full ▸ inside⟩
  · refine .inr ⟨beyond, ?_, .inr (whole.blockSize ▸ more)⟩
    rw [(whole.receiving seated).near_iff, whole.full,
      Nat.mul_div_cancel_left _ array.blockSize_pos]
    exact Nat.le_of_eq last.symm

theorem receive (whole : array.Whole blockSize) {arriving : Arriving}
    (heeds : array.tape.Heeds blockSize (.receive arriving)) :
    Agrees blockSize (.receive arriving) array := by
  have receivable := whole.receivable heeds
  rcases heeds with ⟨seated, room⟩
  have receiving := whole.receiving seated
  have some := List.length_pos_iff.mpr arriving.some
  have last : array.added arriving.size = 0 ∨ array.cur + 1 = array.chain.length :=
    whole.last_of_room seated (room.imp And.left fun beyond => beyond.2.1)
  rcases receiving.receive_ok [] (Nat.lt_of_lt_of_le some arriving.part) arriving.part receivable
    with ⟨segments, next, returned, window, moved, arrived⟩
  have filled : (roomy array arriving.size).Received
      (fill segments arriving.data (roomy array arriving.size)) array.position arriving.data :=
    fill_received window arriving.part
  have held : array.position + arriving.data.length ≤
      (fill segments arriving.data (roomy array arriving.size)).capacity := by
    rw [filled.capacity]
    exact (Nat.add_le_add_left arriving.part _).trans (receiving.capacity_room arriving.size)
  have node := node_of_setPosition moved
  have landed := setPosition_landed held node
  rw [roomy, moved] at landed
  cases landed
  have performed : perform (.receive arriving) array =
      (.ok [], (fill segments arriving.data (roomy array arriving.size)).landed
        (array.position + arriving.data.length)) := by
    rw [perform, socket_read_eq arriving.some returned, List.nil_append, extend_position, moved]
    rfl
  have base := whole.whole_roomy last
  have length : ((fill segments arriving.data (roomy array arriving.size)).landed
      (array.position + arriving.data.length)).chain.length =
        (roomy array arriving.size).chain.length := filled.length
  apply Agrees.of_eq performed rfl
  · rw [tape, Tape.put, length, whole.length_roomy last]
    congr
    · funext index
      change (fill segments arriving.data (roomy array arriving.size)).cell index = _
      have same : (roomy array arriving.size).cell = array.cell := cell_extend last
      rw [filled.cell, same]
      rfl
    · exact congrArg (max · _) filled.totalSize
    · exact decide_eq_true rfl
  · constructor
    · constructor
      · exact Nat.le_max_right _ _
      · apply Nat.max_le.mpr
        constructor
        · rw [filled.totalSize]
          change _ ≤ (fill segments arriving.data (roomy array arriving.size)).capacity
          rw [filled.capacity]
          exact base.held
        · exact held
    · exact filled.blockSize.trans base.blockSize
    · exact node
    · change (fill segments arriving.data (roomy array arriving.size)).capacity =
        (fill segments arriving.data (roomy array arriving.size)).blockSize *
          (fill segments arriving.data (roomy array arriving.size)).chain.length
      rw [filled.capacity, filled.blockSize, filled.length]
      exact base.full

end Whole

/-- Every operation that meets its condition is the operation of the tape. -/
theorem Whole.agrees {blockSize : Nat} {array : ByteArray} {action : ArrayAction}
    (whole : array.Whole blockSize) (heeds : array.tape.Heeds blockSize action) :
    Agrees blockSize action array := by
  cases action with
  | write buff => exact whole.written heeds
  | read size => exact whole.read heeds
  | dump => exact whole.dump heeds
  | setPosition v => exact whole.setPosition heeds
  | clear => exact whole.clear
  | receive arriving => exact whole.receive heeds
  | receiveNothing rt size => exact whole.receiveNothing heeds

theorem refines_tape (blockSize : Nat) :
    Refinement.Refines perform (Tape.perform blockSize) (Whole blockSize) tape
      (Tape.Heeds blockSize) where
  outcome whole heeds := (whole.agrees heeds).outcome
  state whole heeds := (whole.agrees heeds).state
  sound whole heeds := (whole.agrees heeds).whole

theorem whole_new {blockSize : Nat} (positive : 0 < blockSize) :
    (new blockSize).Whole blockSize where
  toBounded := bounded_new blockSize
  blockSize := if_neg (Nat.ne_of_gt positive)
  node := by
    change 0 / (if blockSize = 0 then 4096 else blockSize) < 1
    rw [Nat.zero_div]
    exact Nat.zero_lt_one
  full := by
    change blockSize = (if blockSize = 0 then 4096 else blockSize) * 1
    rw [if_neg (Nat.ne_of_gt positive), Nat.mul_one]

/-- Any array that has been cleared is a whole one. -/
theorem whole_clear (array : ByteArray) : array.clear.Whole array.blockSize where
  toBounded := bounded_clear array
  blockSize := rfl
  node := by
    change 0 / array.blockSize < array.clear.chain.length
    rw [Nat.zero_div]
    exact array.clear.chain_pos
  full := by
    have positive := array.chain_pos
    change array.blockSize = array.blockSize * (array.chain.take 1).length
    rw [List.length_take, Nat.min_eq_left positive, Nat.mul_one]

/-- In every run of operations on a new array with blocks of a given size, or on any array that
has been cleared, that meets the conditions of the tape at every step, each operation reads and
throws what it does on the tape, and the array goes on holding what the tape does. -/
theorem behaves_as_tape {array : ByteArray} {blockSize : Nat}
    (starts : 0 < blockSize ∧ array = new blockSize ∨
      ∃ old : ByteArray, old.blockSize = blockSize ∧ array = old.clear)
    {actions : List ArrayAction}
    (heeded : Refinement.Heeded (Tape.perform blockSize) (Tape.Heeds blockSize) actions
      array.tape) :
    Refinement.outcomes perform actions array =
        Refinement.outcomes (Tape.perform blockSize) actions array.tape ∧
      (Refinement.after perform actions array).tape =
        Refinement.after (Tape.perform blockSize) actions array.tape ∧
      (Refinement.after perform actions array).Whole blockSize := by
  have whole : array.Whole blockSize := by
    rcases starts with ⟨positive, same⟩ | ⟨old, size, same⟩
    · rw [same]
      exact whole_new positive
    · rw [same, ← size]
      exact whole_clear old
  exact (refines_tape blockSize).run whole heeded

/-- Three bytes, of which two are read again, and one more from the socket. -/
def sampleActions : List ArrayAction :=
  [.write [1, 2, 3], .setPosition 0, .read 2, .receive ⟨4, [7], by decide, by decide⟩, .read 1]

theorem behaves_as_tape_sample :
    Refinement.outcomes perform sampleActions (new 4).clear =
        Refinement.outcomes (Tape.perform 4) sampleActions (new 4).clear.tape ∧
      (Refinement.after perform sampleActions (new 4).clear).tape =
        Refinement.after (Tape.perform 4) sampleActions (new 4).clear.tape ∧
      (Refinement.after perform sampleActions (new 4).clear).Whole 4 :=
  behaves_as_tape (.inr ⟨new 4, rfl, rfl⟩) (by decide)

end ByteArray

end FiberNet
