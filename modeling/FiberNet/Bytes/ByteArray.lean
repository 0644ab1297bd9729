import Mathlib.Data.Nat.Basic
import Mathlib.Logic.Function.Basic

/-! # ByteArray

A chain of blocks of one size with a cursor. A block is the content of a node's buffer; a
byte of it that was never written has no value. Sizes are natural numbers: `Bounded` says
that the differences the code forms never go below zero.
-/

namespace FiberNet

/-- How an operation ends that does not return: with `std::out_of_range`, with
`std::logic_error`, at a null pointer or behind the end of a buffer. -/
inductive Failure
  | outOfRange
  | logicError
  | nullPointer
  | overflow
  deriving DecidableEq, Repr

/-- The buffer of a node. -/
abbrev Block := Nat → Option UInt8

namespace Block

/-- `new char[size]`. -/
def fresh : Block := fun _ => none

/-- `memcpy` to the buffer. -/
def store (block : Block) (start : Nat) (bytes : List UInt8) : Block := fun index =>
  if start ≤ index ∧ index < start + bytes.length then bytes[index - start]?
  else block index

/-- `memcpy` from the buffer. -/
def load (block : Block) (start size : Nat) : List (Option UInt8) :=
  (List.range size).map fun index => block (start + index)

end Block

/-- The nodes from `m_head` on, and the number of `m_cur` among them: `chain.length` is the
null pointer. -/
structure ByteArray where
  totalSize : Nat
  blockSize : Nat
  position : Nat
  capacity : Nat
  chain : List Block
  cur : Nat
  blockSize_pos : 0 < blockSize
  chain_pos : 0 < chain.length

/-- What an operation returns with the array it leaves, also when it throws. -/
abbrev ByteArrayM := EStateM Failure ByteArray

theorem ByteArrayM.get_run (array : ByteArray) :
    (get : ByteArrayM ByteArray) array = .ok array array := rfl

theorem ByteArrayM.modify_run (change : ByteArray → ByteArray) (array : ByteArray) :
    (modify change : ByteArrayM PUnit) array = .ok ⟨⟩ (change array) := rfl

namespace ByteArray

/-- The constructor. -/
def new (blockSize : Nat) : ByteArray where
  totalSize := blockSize
  blockSize := if blockSize = 0 then 4096 else blockSize
  position := 0
  capacity := blockSize
  chain := [Block.fresh]
  cur := 0
  blockSize_pos := by split <;> omega
  chain_pos := Nat.zero_lt_one

def getReadableSize (array : ByteArray) : Nat :=
  array.totalSize - array.position

def getRemain (array : ByteArray) : Nat :=
  array.capacity - array.position

/-- `memcpy` to the current node at the cursor, which moves on. -/
def put (array : ByteArray) (bytes : List UInt8) : ByteArray :=
  { array with
    position := array.position + bytes.length
    chain := array.chain.modify array.cur
      (·.store (array.position % array.blockSize) bytes)
    chain_pos := by simpa using array.chain_pos }

/-- `m_cur = m_cur->m_next`. -/
def advance (array : ByteArray) : ByteArray :=
  { array with cur := array.cur + 1 }

/-- `m_totalSize` follows the cursor. -/
def grow (array : ByteArray) : ByteArray :=
  if array.position ≥ array.totalSize then { array with totalSize := array.position }
  else array

@[simp] theorem grow_totalSize (array : ByteArray) :
    array.grow.totalSize = max array.totalSize array.position := by
  unfold grow
  split
  · exact (Nat.max_eq_right ‹_›).symm
  · exact (Nat.max_eq_left (by omega)).symm

@[simp] theorem grow_blockSize (array : ByteArray) : array.grow.blockSize = array.blockSize := by
  unfold grow
  split <;> rfl

@[simp] theorem grow_position (array : ByteArray) : array.grow.position = array.position := by
  unfold grow
  split <;> rfl

@[simp] theorem grow_capacity (array : ByteArray) : array.grow.capacity = array.capacity := by
  unfold grow
  split <;> rfl

@[simp] theorem grow_chain (array : ByteArray) : array.grow.chain = array.chain := by
  unfold grow
  split <;> rfl

@[simp] theorem grow_cur (array : ByteArray) : array.grow.cur = array.cur := by
  unfold grow
  split <;> rfl

/-- The loop of `allocate`, behind the node number `cur`. Each new node becomes the last
one. -/
def addNodes : (turns cur size : Nat) → ByteArray → ByteArray
  | 0, _, _, array => array
  | turns + 1, cur, size, array =>
      if size = 0 then array
      else
        addNodes turns (cur + 1) (size - min size array.blockSize)
          { array with
            capacity := array.capacity + array.blockSize
            chain := array.chain.take (cur + 1) ++ [Block.fresh]
            chain_pos := by simp }

def allocate (size : Nat) : ByteArrayM Unit := fun array =>
  if array.getRemain > size then .ok () array
  else
    let size := size - array.getRemain
    if size ≠ 0 ∧ array.cur ≥ array.chain.length then .error .nullPointer array
    else .ok () (addNodes size array.cur size array)

/-- The loop of `write`. A turn writes at least one byte. -/
def writeLoop : (turns : Nat) → (buff : List UInt8) → ByteArrayM Unit
  | 0, _, array => .ok () array
  | turns + 1, buff, array =>
      if buff.length = 0 then .ok () array
      else if array.cur ≥ array.chain.length then .error .nullPointer array
      else
        let rm := array.blockSize - array.position % array.blockSize
        let nblockPos := array.position % array.blockSize
        let nwrite := min buff.length rm
        let rest := buff.drop nwrite
        let array := array.put (buff.take nwrite)
        let array :=
          if array.blockSize ≤ nwrite + nblockPos ∧ rest.length ≠ 0 then array.advance
          else array
        if array.cur ≥ array.chain.length then .error .logicError array
        else writeLoop turns rest array

/-- `newtag` is 1 from the start and is only ever set to 1, so every write goes on to
allocate a block and to leave the one it wrote to. -/
def write (buff : List UInt8) : ByteArrayM Unit := do
  if buff.length = 0 then
    return
  allocate buff.length
  writeLoop buff.length buff
  modify grow
  allocate (← get).blockSize
  modify advance

/-- The loop of `read`. `buff` holds what has been read. -/
def readLoop : (turns size : Nat) → (buff : List (Option UInt8)) →
    ByteArrayM (List (Option UInt8))
  | 0, _, buff, array => .ok buff array
  | turns + 1, size, buff, array =>
      if size = 0 then .ok buff array
      else
        match array.chain[array.cur]? with
        | none => .error .nullPointer array
        | some block =>
            let rm := array.blockSize - array.position % array.blockSize
            let nblockPos := array.position % array.blockSize
            let nread := min size rm
            let buff := buff ++ block.load nblockPos nread
            let array := { array with position := array.position + nread }
            let array :=
              if array.blockSize ≤ nread + nblockPos then array.advance else array
            if array.cur ≥ array.chain.length then .error .logicError array
            else readLoop turns (size - nread) buff array

def read (size : Nat) : ByteArrayM (List (Option UInt8)) := fun array =>
  if size > array.getReadableSize then .error .outOfRange array
  else readLoop size size [] array

/-- The loop of the positional `read`, which has a node and a position of its own. -/
def readAtLoop (array : ByteArray) : (turns cur size pos : Nat) →
    (buff : List (Option UInt8)) → Except Failure (List (Option UInt8))
  | 0, _, _, _, buff => .ok buff
  | turns + 1, cur, size, pos, buff =>
      if size = 0 then .ok buff
      else
        match array.chain[cur]? with
        | none => .error .nullPointer
        | some block =>
            let rm := array.blockSize - pos % array.blockSize
            let nblockPos := pos % array.blockSize
            let nread := min size rm
            let buff := buff ++ block.load nblockPos nread
            let cur := if array.blockSize ≤ nread + nblockPos then cur + 1 else cur
            if cur ≥ array.chain.length then .error .logicError
            else readAtLoop array turns cur (size - nread) (pos + nread) buff

def readAt (array : ByteArray) (size pos : Nat) : Except Failure (List (Option UInt8)) :=
  if size > array.totalSize - pos then .error .outOfRange
  else if pos / array.blockSize ≥ array.chain.length then .error .logicError
  else readAtLoop array size (pos / array.blockSize) size pos []

/-- The data size grows before the node is looked up. -/
def setPosition (v : Nat) : ByteArrayM Unit := fun array =>
  if v > array.capacity then .error .outOfRange array
  else
    let array := if v ≥ array.totalSize then { array with totalSize := v } else array
    if v / array.blockSize ≥ array.chain.length then .error .logicError array
    else .ok () { array with cur := v / array.blockSize, position := v }

theorem take_chain_pos (array : ByteArray) : 0 < (array.chain.take 1).length := by
  have := array.chain_pos
  simp
  omega

def clear (array : ByteArray) : ByteArray :=
  { array with
    totalSize := 0
    position := 0
    capacity := array.blockSize
    chain := array.chain.take 1
    cur := 0
    chain_pos := array.take_chain_pos }

def dump (array : ByteArray) : Except Failure (List (Option UInt8)) :=
  if array.getReadableSize = 0 then .ok []
  else array.readAt array.getReadableSize array.position

/-! ## The cursor stays in bounds -/

/-- The differences of `getReadableSize` and `getRemain` are not negative. -/
structure Bounded (array : ByteArray) : Prop where
  readable : array.position ≤ array.totalSize
  held : array.totalSize ≤ array.capacity

theorem bounded_new (blockSize : Nat) : (new blockSize).Bounded :=
  ⟨Nat.zero_le _, Nat.le_refl _⟩

theorem bounded_clear (array : ByteArray) : array.clear.Bounded :=
  ⟨Nat.le_refl _, Nat.zero_le _⟩

theorem Bounded.setPosition {array next : ByteArray} {v : Nat} (bounded : array.Bounded)
    (moved : setPosition v array = .ok () next) : next.Bounded := by
  have held := bounded.held
  unfold ByteArray.setPosition at moved
  split at moved
  · cases moved
  · split at moved
    · simp only at moved
      split at moved
      · cases moved
      · cases moved
        exact ⟨Nat.le_refl _, by simp only; omega⟩
    · simp only at moved
      split at moved
      · cases moved
      · cases moved
        exact ⟨by simp only; omega, held⟩

theorem readLoop_moves : ∀ {turns size : Nat} {buff result : List (Option UInt8)}
    {array next : ByteArray}, size ≤ turns → readLoop turns size buff array = .ok result next →
    next.position = array.position + size ∧ next.totalSize = array.totalSize ∧
      next.capacity = array.capacity
  | 0, size, buff, result, array, next, enough, done => by
      cases done
      exact ⟨by omega, rfl, rfl⟩
  | turns + 1, size, buff, result, array, next, enough, done => by
      have below := Nat.mod_lt array.position array.blockSize_pos
      unfold readLoop at done
      by_cases stop : size = 0
      · rw [if_pos stop] at done
        cases done
        exact ⟨by omega, rfl, rfl⟩
      · rw [if_neg stop] at done
        cases found : array.chain[array.cur]? with
        | none =>
            simp only [found] at done
            cases done
        | some block =>
            simp only [found] at done
            by_cases leaves : array.blockSize ≤
                min size (array.blockSize - array.position % array.blockSize) +
                  array.position % array.blockSize
            · simp only [leaves, ↓reduceIte] at done
              split at done
              · cases done
              · rcases readLoop_moves (by omega) done with ⟨position, totalSize, capacity⟩
                exact ⟨by rw [position]; simp only [advance]; omega, totalSize, capacity⟩
            · simp only [leaves, ↓reduceIte] at done
              split at done
              · cases done
              · rcases readLoop_moves (by omega) done with ⟨position, totalSize, capacity⟩
                exact ⟨by rw [position]; simp only; omega, totalSize, capacity⟩

theorem Bounded.read {array next : ByteArray} {size : Nat} {result : List (Option UInt8)}
    (bounded : array.Bounded) (done : read size array = .ok result next) : next.Bounded := by
  have readable := bounded.readable
  have held := bounded.held
  unfold ByteArray.read at done
  split at done
  · cases done
  · rename_i available
    rcases readLoop_moves (Nat.le_refl size) done with ⟨position, totalSize, capacity⟩
    simp only [getReadableSize] at available
    constructor <;> omega

theorem addNodes_room : ∀ {turns cur size : Nat} {array : ByteArray}, size ≤ turns →
    array.capacity + size ≤ (addNodes turns cur size array).capacity ∧
      (addNodes turns cur size array).position = array.position ∧
      (addNodes turns cur size array).totalSize = array.totalSize
  | 0, cur, size, array, enough => ⟨by simp only [addNodes]; omega, rfl, rfl⟩
  | turns + 1, cur, size, array, enough => by
      have positive := array.blockSize_pos
      unfold addNodes
      split
      · exact ⟨by omega, rfl, rfl⟩
      · rcases @addNodes_room turns (cur + 1) (size - min size array.blockSize)
            { array with
              capacity := array.capacity + array.blockSize
              chain := array.chain.take (cur + 1) ++ [Block.fresh]
              chain_pos := by simp } (by omega) with ⟨capacity, position, totalSize⟩
        exact ⟨by simp only at capacity; omega, position, totalSize⟩

/-- After `allocate` the bytes to write fit. -/
theorem allocate_room {array next : ByteArray} {size : Nat}
    (held : array.position ≤ array.capacity) (done : allocate size array = .ok () next) :
    array.capacity ≤ next.capacity ∧ array.position + size ≤ next.capacity ∧
      next.position = array.position ∧ next.totalSize = array.totalSize := by
  unfold allocate at done
  split at done
  · rename_i room
    cases done
    simp only [getRemain] at room
    exact ⟨Nat.le_refl _, by omega, rfl, rfl⟩
  · simp only at done
    split at done
    · cases done
    · cases done
      rcases @addNodes_room (size - array.getRemain) array.cur (size - array.getRemain) array
        (Nat.le_refl _) with ⟨capacity, position, totalSize⟩
      simp only [getRemain] at capacity ⊢
      exact ⟨by omega, by omega, position, totalSize⟩

theorem writeLoop_moves : ∀ {turns : Nat} {buff : List UInt8} {array next : ByteArray},
    buff.length ≤ turns → writeLoop turns buff array = .ok () next →
    next.position = array.position + buff.length ∧ next.totalSize = array.totalSize ∧
      next.capacity = array.capacity
  | 0, buff, array, next, enough, done => by
      cases done
      exact ⟨by omega, rfl, rfl⟩
  | turns + 1, buff, array, next, enough, done => by
      have below := Nat.mod_lt array.position array.blockSize_pos
      unfold writeLoop at done
      split at done
      · cases done
        exact ⟨by omega, rfl, rfl⟩
      · split at done
        · cases done
        · simp only at done
          split at done
          · split at done
            · cases done
            · rcases writeLoop_moves (by rw [List.length_drop]; omega) done
                with ⟨position, totalSize, capacity⟩
              refine ⟨?_, totalSize, capacity⟩
              rw [position]
              simp only [advance, put, List.length_take, List.length_drop]
              omega
          · split at done
            · cases done
            · rcases writeLoop_moves (by rw [List.length_drop]; omega) done
                with ⟨position, totalSize, capacity⟩
              refine ⟨?_, totalSize, capacity⟩
              rw [position]
              simp only [put, List.length_take, List.length_drop]
              omega

theorem Bounded.write {array next : ByteArray} {buff : List UInt8} (bounded : array.Bounded)
    (done : write buff array = .ok () next) : next.Bounded := by
  have readable := bounded.readable
  have held := bounded.held
  unfold ByteArray.write at done
  split at done
  · cases done
    exact bounded
  · simp only [bind, EStateM.bind] at done
    cases first : allocate buff.length array with
    | error failure failed =>
        rw [first] at done
        cases done
    | ok _ room =>
        rw [first] at done
        simp only at done
        cases loop : writeLoop buff.length buff room with
        | error failure failed =>
            rw [loop] at done
            cases done
        | ok _ filled =>
            rw [loop] at done
            simp only [ByteArrayM.modify_run, ByteArrayM.get_run] at done
            cases last : allocate filled.grow.blockSize filled.grow with
            | error failure failed =>
                rw [last] at done
                cases done
            | ok _ spare =>
                rw [last] at done
                cases done
                rcases allocate_room (by omega) first with ⟨_, room_held, position, totalSize⟩
                rcases writeLoop_moves (Nat.le_refl _) loop with ⟨moved, kept, capacity⟩
                have grown : filled.grow.position ≤ filled.grow.capacity := by
                  rw [grow_position, grow_capacity]
                  omega
                rcases allocate_room grown last with ⟨spare_capacity, _, stays, total⟩
                simp only [grow_capacity, grow_position, grow_totalSize] at spare_capacity stays total
                constructor
                · change spare.position ≤ spare.totalSize
                  omega
                · change spare.totalSize ≤ spare.capacity
                  omega

end ByteArray

end FiberNet
