import FiberNet.Bytes.ByteArray
import Mathlib.Data.Nat.Init
import Mathlib.Tactic.Ring

/-! # What the operations do to the cells

A byte is named by its position in the data, whatever block holds it. `write` and `read`
are then a change of a range of positions and its observation, as long as the current node
is the one the cursor points into and the chain reaches far enough.
-/

namespace FiberNet

namespace ByteArray

/-! ## Positions and blocks -/

/-- How many blocks hold `size` bytes. -/
def blocks (blockSize size : Nat) : Nat :=
  (size + blockSize - 1) / blockSize

/-- A range that stays in one block. -/
theorem range_in_block {blockSize start count index : Nat}
    (fits : start % blockSize + count ≤ blockSize) :
    (index / blockSize = start / blockSize ∧ start % blockSize ≤ index % blockSize ∧
      index % blockSize < start % blockSize + count) ↔
    start ≤ index ∧ index < start + count := by
  have indexParts := Nat.div_add_mod index blockSize
  have startParts := Nat.div_add_mod start blockSize
  constructor
  · rintro ⟨sameBlock, above, below⟩
    rw [sameBlock] at indexParts
    omega
  · rintro ⟨above, below⟩
    have lower := Nat.div_le_div_right (c := blockSize) above
    have upper : index / blockSize < start / blockSize + 1 := by
      apply Nat.div_lt_of_lt_mul
      rw [Nat.mul_add]
      omega
    have sameBlock : index / blockSize = start / blockSize := by omega
    rw [sameBlock] at indexParts
    refine ⟨sameBlock, ?_, ?_⟩ <;> omega

theorem blocks_step {blockSize size : Nat} (positive : 0 < blockSize) (more : 0 < size) :
    blocks blockSize (size - min size blockSize) + 1 = blocks blockSize size := by
  unfold blocks
  rcases Nat.le_total size blockSize with fits | exceeds
  · rw [Nat.min_eq_left fits]
    have none : (size - size + blockSize - 1) / blockSize = 0 :=
      Nat.div_eq_of_lt (by omega)
    have one : (size + blockSize - 1) / blockSize = 1 :=
      Nat.div_eq_of_lt_le (by omega) (by omega)
    rw [none, one]
  · rw [Nat.min_eq_right exceeds, ← Nat.add_div_right _ positive]
    congr 1
    omega

theorem blocks_zero {blockSize : Nat} (positive : 0 < blockSize) : blocks blockSize 0 = 0 :=
  Nat.div_eq_of_lt (by omega)

/-- The last byte of `size` bytes lies in the last of their blocks. -/
theorem blocks_eq_last {blockSize size : Nat} (positive : 0 < blockSize) (more : 0 < size) :
    blocks blockSize size = (size - 1) / blockSize + 1 := by
  unfold blocks
  rw [← Nat.add_div_right _ positive]
  congr 1
  omega

theorem div_le_blocks {blockSize : Nat} (positive : 0 < blockSize) (size : Nat) :
    size / blockSize ≤ blocks blockSize size :=
  Nat.div_le_div_right (by omega)

theorem le_mul_blocks {blockSize : Nat} (positive : 0 < blockSize) (size : Nat) :
    size ≤ blockSize * blocks blockSize size := by
  have parts := Nat.div_add_mod (size + blockSize - 1) blockSize
  have below := Nat.mod_lt (size + blockSize - 1) positive
  unfold blocks
  omega

theorem mul_blocks_lt {blockSize : Nat} (positive : 0 < blockSize) (size : Nat) :
    blockSize * blocks blockSize size < size + blockSize := by
  have parts := Nat.div_add_mod (size + blockSize - 1) blockSize
  unfold blocks
  omega

theorem blocks_le_iff {blockSize size count : Nat} (positive : 0 < blockSize) :
    blocks blockSize size ≤ count ↔ size ≤ blockSize * count := by
  constructor
  · intro few
    exact Nat.le_trans (le_mul_blocks positive size) (Nat.mul_le_mul_left blockSize few)
  · intro fits
    by_contra many
    have more := Nat.mul_le_mul_left blockSize (Nat.lt_of_not_le many)
    have less := mul_blocks_lt positive size
    rw [Nat.mul_succ] at more
    omega

/-! ## Cells -/

/-- The byte at a position of the data. -/
def cell (array : ByteArray) (index : Nat) : Option UInt8 :=
  array.chain[index / array.blockSize]?.bind (· (index % array.blockSize))

/-- What the array holds. -/
def contents (array : ByteArray) : List (Option UInt8) :=
  (List.range array.totalSize).map array.cell

theorem getElem?_contents (array : ByteArray) (index : Nat) :
    array.contents[index]? = if index < array.totalSize then some (array.cell index) else none := by
  rw [contents, List.getElem?_map]
  split
  · rename_i inside
    rw [List.getElem?_range inside]
    rfl
  · rename_i outside
    rw [List.getElem?_eq_none (by simpa using outside)]
    rfl

/-- `bytes` in the place of as many elements from `position` on. -/
theorem getElem?_replaced {Element : Type} {content : List Element} {position : Nat}
    (bytes : List Element) (inside : position ≤ content.length) (index : Nat) :
    (content.take position ++ bytes ++ content.drop (position + bytes.length))[index]? =
      if position ≤ index ∧ index < position + bytes.length then bytes[index - position]?
      else content[index]? := by
  have head : (content.take position).length = position := by
    rw [List.length_take, Nat.min_eq_left inside]
  rcases Nat.lt_or_ge index position with before | from_position
  · rw [if_neg (by omega), List.append_assoc, List.getElem?_append_left (by omega),
      List.getElem?_take_of_lt before]
  · rcases Nat.lt_or_ge index (position + bytes.length) with covered | behind
    · rw [if_pos ⟨from_position, covered⟩, List.append_assoc,
        List.getElem?_append_right (by omega), head, List.getElem?_append_left (by omega)]
    · have cut : (content.take position ++ bytes).length = position + bytes.length := by
        rw [List.length_append, head]
      rw [if_neg (by omega), List.getElem?_append_right (by omega), cut, List.getElem?_drop]
      congr 1
      omega

theorem cell_put_elsewhere {array : ByteArray} {bytes : List UInt8} {index : Nat}
    (elsewhere : array.cur ≠ index / array.blockSize) :
    (array.put bytes).cell index = array.cell index := by
  simp [put, cell, elsewhere]

theorem cell_put {array : ByteArray} {bytes : List UInt8}
    (current : array.cur = array.position / array.blockSize)
    (reached : array.cur < array.chain.length)
    (fits : array.position % array.blockSize + bytes.length ≤ array.blockSize) (index : Nat) :
    (array.put bytes).cell index =
      if array.position ≤ index ∧ index < array.position + bytes.length then
        bytes[index - array.position]?
      else array.cell index := by
  have inRange := @range_in_block _ _ _ index fits
  rcases eq_or_ne array.cur (index / array.blockSize) with here | elsewhere
  · have within : index / array.blockSize < array.chain.length := by rwa [← here]
    simp only [put, cell, List.getElem?_modify]
    rw [List.getElem?_eq_getElem within]
    simp only [here, ↓reduceIte, Option.map_eq_map, Option.map_some, Option.bind_some, Block.store]
    have sameBlock : index / array.blockSize = array.position / array.blockSize := by
      rw [← here, current]
    split
    · rename_i stored
      have covered := inRange.mp ⟨sameBlock, stored⟩
      have indexParts := Nat.div_add_mod index array.blockSize
      have startParts := Nat.div_add_mod array.position array.blockSize
      rw [if_pos covered]
      rw [sameBlock] at indexParts
      congr 1
      omega
    · rename_i untouched
      rw [if_neg]
      exact fun covered => untouched (inRange.mpr covered).2
  · rw [cell_put_elsewhere elsewhere, if_neg]
    intro covered
    rw [current] at elsewhere
    exact elsewhere (inRange.mpr covered).1.symm

/-! ## `allocate` -/

/-- The chain with `count` more nodes behind the node number `cur`. -/
def linked (chain : List Block) (cur count : Nat) : List Block :=
  if count = 0 then chain else chain.take (cur + 1) ++ List.replicate count Block.fresh

theorem linked_succ (chain : List Block) (cur count : Nat) (reached : cur < chain.length) :
    linked (chain.take (cur + 1) ++ [Block.fresh]) (cur + 1) count =
      linked chain cur (count + 1) := by
  have length : (chain.take (cur + 1) ++ [Block.fresh]).length = cur + 2 := by
    simp
    omega
  unfold linked
  rw [List.take_of_length_le (Nat.le_of_eq length), if_neg (Nat.succ_ne_zero count)]
  split
  · rename_i last
    rw [last]
    rfl
  · rw [List.replicate_succ, List.append_assoc]
    rfl

theorem linked_pos {chain : List Block} (nonempty : 0 < chain.length) (cur count : Nat) :
    0 < (linked chain cur count).length := by
  unfold linked
  split
  · exact nonempty
  · simp
    omega

/-- The array with `count` more nodes behind the current one. -/
def extend (array : ByteArray) (cur count : Nat) : ByteArray :=
  { array with
    capacity := array.capacity + array.blockSize * count
    chain := linked array.chain cur count
    chain_pos := linked_pos array.chain_pos cur count }

@[simp] theorem extend_capacity (array : ByteArray) (cur count : Nat) :
    (array.extend cur count).capacity = array.capacity + array.blockSize * count :=
  rfl

@[simp] theorem extend_blockSize (array : ByteArray) (cur count : Nat) :
    (array.extend cur count).blockSize = array.blockSize :=
  rfl

@[simp] theorem extend_position (array : ByteArray) (cur count : Nat) :
    (array.extend cur count).position = array.position :=
  rfl

@[simp] theorem extend_totalSize (array : ByteArray) (cur count : Nat) :
    (array.extend cur count).totalSize = array.totalSize :=
  rfl

@[simp] theorem extend_cur (array : ByteArray) (cur count : Nat) :
    (array.extend cur count).cur = array.cur :=
  rfl

@[simp] theorem extend_zero (array : ByteArray) (cur : Nat) : array.extend cur 0 = array := by
  simp [extend, linked]

theorem addNodes_eq : ∀ (turns cur size : Nat) (array : ByteArray), size ≤ turns →
    cur < array.chain.length →
    addNodes turns cur size array = array.extend cur (blocks array.blockSize size)
  | 0, cur, size, array, enough, _ => by
      rw [Nat.le_zero.mp enough, blocks_zero array.blockSize_pos, extend_zero]
      rfl
  | turns + 1, cur, size, array, enough, reached => by
      unfold addNodes
      split
      · rename_i done
        rw [done, blocks_zero array.blockSize_pos, extend_zero]
      · rename_i more
        have positive := array.blockSize_pos
        have steps := blocks_step positive (Nat.pos_of_ne_zero more)
        rw [addNodes_eq turns (cur + 1) _ _ (by omega) (by simp; omega)]
        simp only [extend, linked_succ _ _ _ reached, ← steps, Nat.mul_succ]
        congr 1
        omega

/-- The nodes that `allocate` adds for a write. -/
def added (array : ByteArray) (size : Nat) : Nat :=
  blocks array.blockSize (size - array.getRemain)

theorem added_eq_zero {array : ByteArray} {size : Nat}
    (fits : array.position + size ≤ array.capacity) : array.added size = 0 := by
  rw [added, getRemain, Nat.sub_eq_zero_of_le (by omega), blocks_zero array.blockSize_pos]

theorem allocate_eq {array : ByteArray} (reached : array.cur < array.chain.length)
    (size : Nat) : allocate size array = .ok () (array.extend array.cur (array.added size)) := by
  unfold allocate added
  split
  · rename_i room
    rw [Nat.sub_eq_zero_of_le (Nat.le_of_lt room), blocks_zero array.blockSize_pos, extend_zero]
  · simp only
    rw [if_neg (by omega), addNodes_eq _ _ _ _ (Nat.le_refl _) reached]

/-! ## The loop of `write` -/

/-- `bytes` have replaced what was at the cursor, and the cursor is behind them. -/
structure Stored (array next : ByteArray) (bytes : List UInt8) : Prop where
  totalSize : next.totalSize = array.totalSize
  blockSize : next.blockSize = array.blockSize
  capacity : next.capacity = array.capacity
  position : next.position = array.position + bytes.length
  length : next.chain.length = array.chain.length
  cell : ∀ index, next.cell index =
    if array.position ≤ index ∧ index < array.position + bytes.length then
      bytes[index - array.position]?
    else array.cell index

theorem Stored.trans {array middle next : ByteArray} {first second : List UInt8}
    (before : Stored array middle first) (after : Stored middle next second) :
    Stored array next (first ++ second) where
  totalSize := after.totalSize.trans before.totalSize
  blockSize := after.blockSize.trans before.blockSize
  capacity := after.capacity.trans before.capacity
  position := by
    rw [after.position, before.position, List.length_append, Nat.add_assoc]
  length := after.length.trans before.length
  cell := by
    intro index
    rw [after.cell, before.cell, before.position, List.length_append]
    by_cases later : array.position + first.length ≤ index
    · by_cases covered : index < array.position + first.length + second.length
      · rw [if_pos ⟨later, covered⟩, if_pos (by omega),
          List.getElem?_append_right (by omega)]
        congr 1
        omega
      · rw [if_neg (by omega), if_neg (by omega), if_neg (by omega)]
    · rw [if_neg (by omega)]
      by_cases covered : array.position ≤ index
      · rw [if_pos (by omega), if_pos (by omega), List.getElem?_append_left (by omega)]
      · rw [if_neg (by omega), if_neg (by omega)]

/-- The bytes fit in the current block. -/
theorem writeLoop_within {turns : Nat} {buff : List UInt8} {array : ByteArray}
    (enough : buff.length ≤ turns) (nonempty : buff ≠ []) (reached : array.cur < array.chain.length)
    (fits : array.position % array.blockSize + buff.length ≤ array.blockSize) :
    writeLoop turns buff array = .ok () (array.put buff) := by
  have more := List.length_pos_iff.mpr nonempty
  cases turns with
  | zero => omega
  | succ turns =>
      have whole : min buff.length (array.blockSize - array.position % array.blockSize) =
          buff.length := Nat.min_eq_left (by omega)
      unfold writeLoop
      rw [if_neg (by omega), if_neg (by omega)]
      simp only [whole, List.drop_length, List.take_length, List.length_nil, ne_eq,
        not_true_eq_false, and_false, ↓reduceIte]
      rw [if_neg (by simpa [put] using reached)]
      cases turns <;> rfl

/-- One turn of the loop with more bytes than the current block takes. -/
theorem writeLoop_beyond {turns : Nat} {buff : List UInt8} {array : ByteArray}
    (reached : array.cur < array.chain.length)
    (exceeds : array.blockSize < array.position % array.blockSize + buff.length) :
    writeLoop (turns + 1) buff array =
      if array.cur + 1 ≥ array.chain.length then
        .error .logicError
          (array.put (buff.take (array.blockSize - array.position % array.blockSize))).advance
      else
        writeLoop turns (buff.drop (array.blockSize - array.position % array.blockSize))
          (array.put (buff.take (array.blockSize - array.position % array.blockSize))).advance := by
  have below := Nat.mod_lt array.position array.blockSize_pos
  have full : min buff.length (array.blockSize - array.position % array.blockSize) =
      array.blockSize - array.position % array.blockSize := Nat.min_eq_right (by omega)
  have leaves : array.blockSize ≤ array.blockSize - array.position % array.blockSize +
      array.position % array.blockSize ∧
      buff.length - (array.blockSize - array.position % array.blockSize) ≠ 0 := by omega
  rw [writeLoop, if_neg (by omega), if_neg (by omega)]
  simp only [full, List.length_drop, put, leaves, ne_eq, not_false_eq_true, and_self,
    ↓reduceIte, advance, List.length_modify]

theorem next_block {blockSize position : Nat} (positive : 0 < blockSize) :
    (position + (blockSize - position % blockSize)) / blockSize = position / blockSize + 1 := by
  have parts := Nat.div_add_mod position blockSize
  have below := Nat.mod_lt position positive
  have sum : position + (blockSize - position % blockSize) =
      blockSize * (position / blockSize + 1) := by
    rw [Nat.mul_succ]
    omega
  rw [sum, Nat.mul_div_cancel_left _ positive]

/-- A turn fills the current block up and goes on to the next. -/
theorem stored_turn {buff : List UInt8} {array : ByteArray}
    (current : array.cur = array.position / array.blockSize)
    (reached : array.cur < array.chain.length)
    (exceeds : array.blockSize < array.position % array.blockSize + buff.length) :
    Stored array
        (array.put (buff.take (array.blockSize - array.position % array.blockSize))).advance
        (buff.take (array.blockSize - array.position % array.blockSize)) ∧
      array.cur + 1 = (array.position +
        (buff.take (array.blockSize - array.position % array.blockSize)).length) /
          array.blockSize := by
  have below := Nat.mod_lt array.position array.blockSize_pos
  have size : (buff.take (array.blockSize - array.position % array.blockSize)).length =
      array.blockSize - array.position % array.blockSize := by
    rw [List.length_take, Nat.min_eq_left (by omega)]
  constructor
  · refine ⟨rfl, rfl, rfl, rfl, by simp [put, advance], ?_⟩
    exact cell_put current reached (by rw [size]; omega)
  · rw [size, next_block array.blockSize_pos, current]

theorem writeLoop_stored : ∀ (turns : Nat) (buff : List UInt8) (array : ByteArray),
    buff.length ≤ turns → buff ≠ [] → array.cur = array.position / array.blockSize →
    (array.position + buff.length - 1) / array.blockSize < array.chain.length →
    ∃ next, writeLoop turns buff array = .ok () next ∧ Stored array next buff ∧
      next.cur = (array.position + buff.length - 1) / array.blockSize
  | 0, buff, _, enough, nonempty, _, _ =>
      absurd (List.length_eq_zero_iff.mp (Nat.le_zero.mp enough)) nonempty
  | turns + 1, buff, array, enough, nonempty, current, room => by
      have positive := array.blockSize_pos
      have more := List.length_pos_iff.mpr nonempty
      have reached : array.cur < array.chain.length := by
        rw [current]
        exact Nat.lt_of_le_of_lt (Nat.div_le_div_right (by omega)) room
      by_cases fits : array.position % array.blockSize + buff.length ≤ array.blockSize
      · refine ⟨_, writeLoop_within enough nonempty reached fits, ?_, ?_⟩
        · exact ⟨rfl, rfl, rfl, rfl, by simp [put], cell_put current reached fits⟩
        · have last := (@range_in_block _ _ _ (array.position + buff.length - 1) fits).mpr
            (by omega)
          exact current.trans last.1.symm
      · rcases @stored_turn buff array current reached (by omega) with ⟨first, next_cur⟩
        generalize cut : array.blockSize - array.position % array.blockSize = size at *
        have below := Nat.mod_lt array.position positive
        have ends : array.position + (buff.take size).length + (buff.drop size).length - 1 =
            array.position + buff.length - 1 := by
          rw [Nat.add_assoc, ← List.length_append, List.take_append_drop]
        have further : array.cur + 1 < array.chain.length := by
          rw [next_cur]
          refine Nat.lt_of_le_of_lt (Nat.div_le_div_right ?_) room
          rw [← ends, List.length_drop]
          omega
        rcases writeLoop_stored turns (buff.drop size) (array.put (buff.take size)).advance
            (by rw [List.length_drop]; omega) (by rw [ne_eq, List.drop_eq_nil_iff]; omega)
            next_cur (by rw [first.length, first.blockSize, first.position, ends]; exact room)
            with ⟨next, loop, rest, cur⟩
        refine ⟨next, ?_, ?_, ?_⟩
        · rw [writeLoop_beyond reached (by omega), if_neg (by omega), cut, loop]
        · have whole := first.trans rest
          rwa [List.take_append_drop] at whole
        · rw [cur, first.position, first.blockSize, ends]

/-- Without a node for the last byte the write throws. The current node may be ahead of the
cursor. -/
theorem writeLoop_short : ∀ (turns shift : Nat) (buff : List UInt8) (array : ByteArray),
    buff.length ≤ turns → buff ≠ [] → array.cur = array.position / array.blockSize + shift →
    array.cur < array.chain.length →
    array.chain.length ≤ (array.position + buff.length - 1) / array.blockSize + shift →
    ∃ next, writeLoop turns buff array = .error .logicError next
  | 0, _, buff, _, enough, nonempty, _, _, _ =>
      absurd (List.length_eq_zero_iff.mp (Nat.le_zero.mp enough)) nonempty
  | turns + 1, shift, buff, array, enough, nonempty, current, reached, short => by
      have positive := array.blockSize_pos
      have more := List.length_pos_iff.mpr nonempty
      have exceeds : array.blockSize < array.position % array.blockSize + buff.length := by
        by_contra fits
        have last := (@range_in_block _ _ _ (array.position + buff.length - 1)
          (Nat.le_of_not_lt fits)).mpr (by omega)
        rw [last.1, ← current] at short
        omega
      rw [writeLoop_beyond reached exceeds]
      split
      · exact ⟨_, rfl⟩
      · rename_i further
        have below := Nat.mod_lt array.position positive
        have next_cur := @next_block array.blockSize array.position positive
        generalize cut : array.blockSize - array.position % array.blockSize = size at *
        have position : (array.put (buff.take size)).advance.position =
            array.position + size := by
          simp only [advance, put, List.length_take]
          omega
        have ends : array.position + size + (buff.drop size).length - 1 =
            array.position + buff.length - 1 := by
          rw [List.length_drop]
          omega
        apply writeLoop_short turns shift (buff.drop size) (array.put (buff.take size)).advance
        · rw [List.length_drop]
          omega
        · rw [ne_eq, List.drop_eq_nil_iff]
          omega
        · rw [position]
          simp only [advance, put]
          omega
        · simp only [advance, put, List.length_modify]
          omega
        · rw [position, ends]
          simpa [advance, put] using short

/-! ## `write` -/

theorem blocks_add {blockSize : Nat} (positive : 0 < blockSize) (count size : Nat) :
    blocks blockSize (blockSize * count + size) = count + blocks blockSize size := by
  have parts : blockSize * count + size + blockSize - 1 =
      size + blockSize - 1 + blockSize * count := by omega
  unfold blocks
  rw [parts, Nat.add_mul_div_left _ _ positive, Nat.add_comm]

theorem blocks_aligned {blockSize size : Nat} (positive : 0 < blockSize)
    (aligned : blockSize ∣ size) : blocks blockSize size = size / blockSize := by
  rcases aligned with ⟨count, rfl⟩
  have parts := blocks_add positive count 0
  rw [blocks_zero positive, Nat.add_zero, Nat.add_zero] at parts
  rw [parts, Nat.mul_div_cancel_left count positive]

theorem blocks_eq_one {blockSize size : Nat} (positive : 0 < size) (fits : size ≤ blockSize) :
    blocks blockSize size = 1 :=
  Nat.div_eq_of_lt_le (by omega) (by omega)

theorem length_extend {array : ByteArray} {count : Nat}
    (last : count = 0 ∨ array.cur + 1 = array.chain.length) :
    (array.extend array.cur count).chain.length = array.chain.length + count := by
  rcases last with rfl | last
  · simp
  · simp only [extend, linked]
    split
    · simp [*]
    · rw [List.length_append, List.length_take, List.length_replicate, last, Nat.min_self]

theorem length_extend_cut {array : ByteArray} {cur count : Nat} (some : count ≠ 0)
    (reached : cur < array.chain.length) :
    (array.extend cur count).chain.length = cur + 1 + count := by
  simp only [extend, linked, some, ↓reduceIte, List.length_append, List.length_take,
    List.length_replicate]
  omega

/-- New nodes hold nothing, and what was behind the node they are linked to is gone. -/
theorem cell_extend_cut {array : ByteArray} {cur count : Nat} (some : count ≠ 0)
    (reached : cur < array.chain.length) (index : Nat) :
    (array.extend cur count).cell index =
      if index / array.blockSize ≤ cur then array.cell index else none := by
  have length : (array.chain.take (cur + 1)).length = cur + 1 := by
    rw [List.length_take, Nat.min_eq_left reached]
  simp only [extend, linked, cell, some, ↓reduceIte]
  split
  · rw [List.getElem?_append_left (by omega), List.getElem?_take_of_lt (by omega)]
  · rw [List.getElem?_append_right (by omega), List.getElem?_replicate]
    split <;> rfl

/-- New nodes behind the last one change nothing. -/
theorem cell_extend {array : ByteArray} {count : Nat}
    (last : count = 0 ∨ array.cur + 1 = array.chain.length) :
    (array.extend array.cur count).cell = array.cell := by
  rcases Nat.eq_zero_or_pos count with rfl | some
  · rw [extend_zero]
  · funext index
    have at_end : array.cur + 1 = array.chain.length := by omega
    rw [cell_extend_cut (by omega) (by omega)]
    split
    · rfl
    · rw [cell, List.getElem?_eq_none (by omega)]
      rfl

/-- What a write leaves behind that went through. -/
structure Written (array next : ByteArray) (bytes : List UInt8) : Prop where
  totalSize : next.totalSize = max array.totalSize (array.position + bytes.length)
  blockSize : next.blockSize = array.blockSize
  position : next.position = array.position + bytes.length
  capacity : next.capacity = next.blockSize * next.chain.length
  length : next.chain.length =
    max array.chain.length (blocks array.blockSize (array.position + bytes.length) + 1)
  cur : next.cur = (array.position + bytes.length - 1) / array.blockSize + 1
  cell : ∀ index, next.cell index =
    if array.position ≤ index ∧ index < array.position + bytes.length then
      bytes[index - array.position]?
    else array.cell index

/-- A write from the last node ends in a new last node. -/
theorem Written.behind {array next : ByteArray} {bytes : List UInt8}
    (written : Written array next bytes) (nonempty : bytes ≠ [])
    (current : array.cur = array.position / array.blockSize)
    (last : array.cur + 1 = array.chain.length) :
    next.chain.length = blocks array.blockSize (array.position + bytes.length) + 1 ∧
      next.cur + 1 = next.chain.length := by
  have more := List.length_pos_iff.mpr nonempty
  have total := @blocks_eq_last array.blockSize (array.position + bytes.length)
    array.blockSize_pos (by omega)
  have before : array.position / array.blockSize ≤
      (array.position + bytes.length - 1) / array.blockSize :=
    Nat.div_le_div_right (by omega)
  have length := written.length
  have cur := written.cur
  omega

theorem write_nil (array : ByteArray) : write [] array = .ok () array := rfl

theorem write_eq {array room filled spare : ByteArray} {buff : List UInt8}
    (nonempty : buff ≠ []) (allocated : allocate buff.length array = .ok () room)
    (looped : writeLoop buff.length buff room = .ok () filled)
    (spared : allocate filled.blockSize filled.grow = .ok () spare) :
    write buff array = .ok () spare.advance := by
  have some : ¬buff.length = 0 := by simpa using nonempty
  simp [write, some, bind, EStateM.bind, allocated, looped, ByteArrayM.modify_run,
    ByteArrayM.get_run, spared]

theorem write_refused {array next : ByteArray} {buff : List UInt8} {failure : Failure}
    (nonempty : buff ≠ []) (refused : allocate buff.length array = .error failure next) :
    write buff array = .error failure next := by
  have some : ¬buff.length = 0 := by simpa using nonempty
  simp [write, some, bind, EStateM.bind, refused]

theorem write_error {array room next : ByteArray} {buff : List UInt8} {failure : Failure}
    (nonempty : buff ≠ []) (allocated : allocate buff.length array = .ok () room)
    (looped : writeLoop buff.length buff room = .error failure next) :
    write buff array = .error failure next := by
  have some : ¬buff.length = 0 := by simpa using nonempty
  simp [write, some, bind, EStateM.bind, allocated, looped]

theorem cell_congr {left right : ByteArray} (chain : left.chain = right.chain)
    (blockSize : left.blockSize = right.blockSize) : left.cell = right.cell := by
  funext index
  rw [cell, cell, chain, blockSize]

/-- From the last node, `allocate` reaches as far as the write does. -/
theorem length_allocated {array : ByteArray} {size : Nat}
    (full : array.capacity = array.blockSize * array.chain.length)
    (inside : array.position ≤ array.capacity) :
    array.chain.length + array.added size =
      max array.chain.length (blocks array.blockSize (array.position + size)) := by
  have positive := array.blockSize_pos
  unfold added getRemain
  rcases Nat.le_total (array.position + size) array.capacity with fits | exceeds
  · rw [Nat.sub_eq_zero_of_le (by omega), blocks_zero positive]
    have few := (blocks_le_iff positive).mpr (full ▸ fits)
    omega
  · have excess : size - (array.capacity - array.position) =
        array.position + size - array.capacity := by omega
    have whole : array.position + size =
        array.blockSize * array.chain.length + (array.position + size - array.capacity) := by
      omega
    rw [excess]
    conv => rhs; rw [whole, blocks_add positive]
    omega

/-- The block that every write allocates at its end. -/
theorem added_spare {array : ByteArray}
    (full : array.capacity = array.blockSize * array.chain.length)
    (inside : array.position ≤ array.capacity) :
    array.added array.blockSize =
      if blocks array.blockSize array.position = array.chain.length then 1 else 0 := by
  have positive := array.blockSize_pos
  have few := (blocks_le_iff positive).mpr (full ▸ inside)
  unfold added getRemain
  split
  · rename_i all
    have less := mul_blocks_lt positive array.position
    rw [all, ← full] at less
    exact blocks_eq_one (by omega) (by omega)
  · rename_i spare
    have more : blocks array.blockSize array.position + 1 ≤ array.chain.length := by omega
    have reaches := le_mul_blocks positive array.position
    have further := Nat.mul_le_mul_left array.blockSize more
    rw [Nat.mul_succ, ← full] at further
    rw [Nat.sub_eq_zero_of_le (by omega), blocks_zero positive]

/-- The last `allocate` of a write, from the node of the last byte written. -/
theorem allocate_spare {array : ByteArray}
    (full : array.capacity = array.blockSize * array.chain.length)
    (inside : array.position ≤ array.capacity) (some : 0 < array.position)
    (cur : array.cur = (array.position - 1) / array.blockSize) :
    ∃ count, allocate array.blockSize array = .ok () (array.extend array.cur count) ∧
      (array.extend array.cur count).chain.length = array.chain.length + count ∧
      array.chain.length + count =
        max array.chain.length (blocks array.blockSize array.position + 1) ∧
      (array.extend array.cur count).cell = array.cell := by
  have positive := array.blockSize_pos
  have few := (blocks_le_iff positive).mpr (full ▸ inside)
  have next := blocks_eq_last positive some
  rw [← cur] at next
  have spare := added_spare full inside
  have last : array.added array.blockSize = 0 ∨ array.cur + 1 = array.chain.length := by
    rw [spare]
    split
    · right
      omega
    · left
      rfl
  refine ⟨_, allocate_eq (by omega) _, length_extend last, ?_, cell_extend last⟩
  rw [spare]
  split <;> omega

/-- A write goes through that stays inside the chain or starts in its last block. -/
theorem write_written {array : ByteArray} {buff : List UInt8} (nonempty : buff ≠ [])
    (current : array.cur = array.position / array.blockSize)
    (reached : array.cur < array.chain.length)
    (full : array.capacity = array.blockSize * array.chain.length)
    (room : array.position + buff.length ≤ array.capacity ∨
      array.cur + 1 = array.chain.length) :
    ∃ next, write buff array = .ok () next ∧ Written array next buff := by
  have positive := array.blockSize_pos
  have more := List.length_pos_iff.mpr nonempty
  have inside : array.position < array.capacity := by
    rw [full, Nat.mul_comm]
    rw [current] at reached
    exact (Nat.div_lt_iff_lt_mul positive).mp reached
  have last : array.added buff.length = 0 ∨ array.cur + 1 = array.chain.length :=
    room.imp_left added_eq_zero
  have reaches := @length_allocated array buff.length full (Nat.le_of_lt inside)
  have roomy : array.position + buff.length ≤
      array.blockSize * (array.chain.length + array.added buff.length) := by
    apply (blocks_le_iff positive).mp
    rw [reaches]
    exact Nat.le_max_right _ _
  rcases writeLoop_stored buff.length buff (array.extend array.cur (array.added buff.length))
      (Nat.le_refl _) nonempty current
      (by
        rw [extend_position, extend_blockSize, length_extend last]
        apply (Nat.div_lt_iff_lt_mul positive).mpr
        rw [Nat.mul_comm]
        omega) with ⟨filled, looped, stored, cur⟩
  have whole : filled.grow.capacity = filled.grow.blockSize * filled.grow.chain.length := by
    simp only [grow_capacity, grow_blockSize, grow_chain, stored.capacity, stored.blockSize,
      stored.length, length_extend last, extend_capacity, extend_blockSize]
    rw [Nat.mul_add, ← full]
  have position : filled.grow.position = array.position + buff.length := by
    rw [grow_position, stored.position, extend_position]
  have blockSize : filled.grow.blockSize = array.blockSize := by
    rw [grow_blockSize, stored.blockSize, extend_blockSize]
  have length : filled.grow.chain.length = array.chain.length + array.added buff.length := by
    rw [grow_chain, stored.length, length_extend last]
  rcases allocate_spare whole (by rw [whole, position, blockSize, length]; exact roomy)
      (by omega) (by rw [grow_cur, cur, position, blockSize, extend_position, extend_blockSize])
      with ⟨count, spared, spare_length, total, cells⟩
  rw [grow_blockSize] at spared
  refine ⟨_, write_eq nonempty (allocate_eq reached _) looped spared, ?_⟩
  constructor
  · simp [advance, stored.totalSize, stored.position]
  · exact blockSize
  · exact position
  · change filled.grow.capacity + filled.grow.blockSize * count =
      filled.grow.blockSize * (filled.grow.extend filled.grow.cur count).chain.length
    rw [spare_length, Nat.mul_add, ← whole]
  · change (filled.grow.extend filled.grow.cur count).chain.length = _
    rw [spare_length, total, length, position, blockSize, reaches]
    omega
  · change filled.grow.cur + 1 = _
    rw [grow_cur, cur, extend_position, extend_blockSize]
  · intro index
    change (filled.grow.extend filled.grow.cur count).cell index = _
    rw [cells, cell_congr (grow_chain filled) (grow_blockSize filled), stored.cell,
      extend_position, cell_extend last]

/-! ## `read` -/

/-- The bytes at `size` positions from `start` on. -/
def slice (array : ByteArray) (start size : Nat) : List (Option UInt8) :=
  (List.range' start size).map array.cell

@[simp] theorem slice_zero (array : ByteArray) (start : Nat) : array.slice start 0 = [] :=
  rfl

@[simp] theorem length_slice (array : ByteArray) (start size : Nat) :
    (array.slice start size).length = size := by
  simp [slice]

theorem slice_append (array : ByteArray) (start first second : Nat) :
    array.slice start first ++ array.slice (start + first) second =
      array.slice start (first + second) := by
  rw [slice, slice, slice, ← List.map_append, List.range'_append_1]

theorem slice_contents (array : ByteArray) : array.slice 0 array.totalSize = array.contents := by
  rw [slice, contents, List.range_eq_range']

theorem getElem?_slice {array : ByteArray} {start size index : Nat} (inside : index < size) :
    (array.slice start size)[index]? = some (array.cell (start + index)) := by
  simp [slice, inside]

theorem slice_eq_map {array : ByteArray} {data : List UInt8}
    (cells : ∀ index < data.length, array.cell index = data[index]?) :
    array.slice 0 data.length = data.map some := by
  apply List.ext_getElem?
  intro index
  rcases Nat.lt_or_ge index data.length with inside | outside
  · rw [getElem?_slice inside, Nat.zero_add, cells index inside, List.getElem?_map,
      List.getElem?_eq_getElem inside, Option.map_some]
  · rw [List.getElem?_eq_none (by simpa using outside),
      List.getElem?_eq_none (by simpa using outside)]

/-- What is loaded from the block the cursor points into. -/
theorem load_eq {array : ByteArray} {block : Block} {position count : Nat}
    (found : array.chain[position / array.blockSize]? = some block)
    (fits : position % array.blockSize + count ≤ array.blockSize) :
    block.load (position % array.blockSize) count = array.slice position count := by
  rw [Block.load, slice, List.range'_eq_map_range, List.map_map]
  apply List.map_congr_left
  intro index member
  have below := List.mem_range.mp member
  have here := (@range_in_block _ _ _ (position + index) fits).mpr (by omega)
  have indexParts := Nat.div_add_mod (position + index) array.blockSize
  have startParts := Nat.div_add_mod position array.blockSize
  rw [here.1] at indexParts
  rw [Function.comp_apply, cell, here.1, found, Option.bind_some]
  congr 1
  omega

/-- Where the cursor stands after a turn of a reading loop. -/
theorem turn_cur {blockSize position size : Nat} (positive : 0 < blockSize) :
    (if blockSize ≤ min size (blockSize - position % blockSize) + position % blockSize then
      position / blockSize + 1 else position / blockSize) =
      (position + min size (blockSize - position % blockSize)) / blockSize := by
  have below := Nat.mod_lt position positive
  have parts := Nat.div_add_mod position blockSize
  split
  · have full : min size (blockSize - position % blockSize) =
        blockSize - position % blockSize := by omega
    rw [full, next_block positive]
  · symm
    apply Nat.div_eq_of_lt_le
    · rw [Nat.mul_comm]
      omega
    · rw [Nat.mul_comm, Nat.mul_succ]
      omega

/-- The positional `read` throws where its last byte is the last of the chain. -/
theorem readAtLoop_eq (array : ByteArray) : ∀ (turns size pos : Nat)
    (buff : List (Option UInt8)), size ≤ turns →
    pos / array.blockSize < array.chain.length →
    array.readAtLoop turns (pos / array.blockSize) size pos buff =
      if (pos + size) / array.blockSize < array.chain.length then
        .ok (buff ++ array.slice pos size)
      else .error .logicError
  | 0, size, pos, buff, enough, reached => by
      rw [Nat.le_zero.mp enough, Nat.add_zero, if_pos reached, slice_zero, List.append_nil]
      rfl
  | turns + 1, size, pos, buff, enough, reached => by
      have positive := array.blockSize_pos
      have below := Nat.mod_lt pos positive
      unfold readAtLoop
      split
      · rename_i done
        rw [done, Nat.add_zero, if_pos reached, slice_zero, List.append_nil]
      · simp only [List.getElem?_eq_getElem reached]
        rw [load_eq (List.getElem?_eq_getElem reached) (by omega), turn_cur positive]
        generalize taken : min size (array.blockSize - pos % array.blockSize) = count
        have rest : pos + count + (size - count) = pos + size := by omega
        split
        · rename_i outside
          rw [if_neg]
          exact fun inside => absurd (Nat.lt_of_le_of_lt (Nat.div_le_div_right (by omega)) inside)
            (Nat.not_lt.mpr outside)
        · rename_i inside
          rw [readAtLoop_eq array turns _ _ _ (by omega) (Nat.lt_of_not_le inside), rest,
            List.append_assoc, slice_append, Nat.add_sub_cancel' (by omega)]

theorem readAt_eq {array : ByteArray} {size pos : Nat} (present : size ≤ array.totalSize - pos)
    (reached : (pos + size) / array.blockSize < array.chain.length) :
    array.readAt size pos = .ok (array.slice pos size) := by
  have start : pos / array.blockSize < array.chain.length :=
    Nat.lt_of_le_of_lt (Nat.div_le_div_right (Nat.le_add_right pos size)) reached
  rw [readAt, if_neg (by omega), if_neg (by omega),
    readAtLoop_eq array size size pos [] (Nat.le_refl size) start, if_pos reached, List.nil_append]

/-- What the positional `read` returns are the bytes at the positions asked for. -/
theorem readAt_ok {array : ByteArray} {size pos : Nat} {buff : List (Option UInt8)}
    (returned : array.readAt size pos = .ok buff) : buff = array.slice pos size := by
  unfold readAt at returned
  split at returned
  · cases returned
  · split at returned
    · cases returned
    · rename_i reached
      rw [readAtLoop_eq array size size pos [] (Nat.le_refl size) (by omega)] at returned
      split at returned
      · simpa using returned.symm
      · cases returned

/-- The array with its cursor at `position`. -/
def seek (array : ByteArray) (position : Nat) : ByteArray :=
  { array with
    position := position
    cur := position / array.blockSize }

@[simp] theorem cell_seek (array : ByteArray) (position : Nat) :
    (array.seek position).cell = array.cell :=
  rfl

@[simp] theorem slice_seek (array : ByteArray) (position start size : Nat) :
    (array.seek position).slice start size = array.slice start size :=
  rfl

/-- One turn of the loop of `read`. -/
theorem readLoop_turn {turns size position : Nat} {array : ByteArray}
    {buff : List (Option UInt8)} (more : size ≠ 0)
    (start : position / array.blockSize < array.chain.length)
    (further : (position + min size (array.blockSize - position % array.blockSize)) /
      array.blockSize < array.chain.length) :
    readLoop (turns + 1) size buff (array.seek position) =
      readLoop turns (size - min size (array.blockSize - position % array.blockSize))
        (buff ++ array.slice position
          (min size (array.blockSize - position % array.blockSize)))
        (array.seek (position + min size (array.blockSize - position % array.blockSize))) := by
  have below := Nat.mod_lt position array.blockSize_pos
  have found := List.getElem?_eq_getElem start
  have loaded := @load_eq array _ position
    (min size (array.blockSize - position % array.blockSize)) found (by omega)
  have cur := @turn_cur array.blockSize position size array.blockSize_pos
  rw [← cur] at further
  rw [readLoop]
  simp only [seek, more, ↓reduceIte, found, loaded, ← cur]
  by_cases leaves : array.blockSize ≤
      min size (array.blockSize - position % array.blockSize) + position % array.blockSize
  · simp only [leaves, ↓reduceIte, advance] at further ⊢
    rw [if_neg (Nat.not_le_of_lt further)]
  · simp only [leaves, ↓reduceIte] at further ⊢
    rw [if_neg (Nat.not_le_of_lt further)]

theorem readLoop_eq : ∀ (turns size : Nat) (array : ByteArray) (position : Nat)
    (buff : List (Option UInt8)), size ≤ turns →
    (position + size) / array.blockSize < array.chain.length →
    readLoop turns size buff (array.seek position) =
      .ok (buff ++ array.slice position size) (array.seek (position + size))
  | 0, size, array, position, buff, enough, _ => by
      rw [Nat.le_zero.mp enough, slice_zero, List.append_nil]
      rfl
  | turns + 1, size, array, position, buff, enough, reached => by
      have positive := array.blockSize_pos
      have below := Nat.mod_lt position positive
      have start : position / array.blockSize < array.chain.length :=
        Nat.lt_of_le_of_lt (Nat.div_le_div_right (Nat.le_add_right position size)) reached
      by_cases done : size = 0
      · rw [done, slice_zero, List.append_nil, readLoop, if_pos rfl]
        rfl
      · rw [readLoop_turn done start
          (Nat.lt_of_le_of_lt (Nat.div_le_div_right (by omega)) reached)]
        generalize taken : min size (array.blockSize - position % array.blockSize) = count
        have rest : position + count + (size - count) = position + size := by omega
        rw [readLoop_eq turns (size - count) array (position + count) _ (by omega) (by rwa [rest]),
          rest, List.append_assoc, slice_append, Nat.add_sub_cancel' (by omega)]

theorem read_eq {array : ByteArray} {position size : Nat}
    (present : position + size ≤ array.totalSize)
    (reached : (position + size) / array.blockSize < array.chain.length) :
    read size (array.seek position) =
      .ok (array.slice position size) (array.seek (position + size)) := by
  have readable : ¬size > (array.seek position).getReadableSize := by
    simp only [getReadableSize, seek]
    omega
  rw [read, if_neg readable, readLoop_eq size size array position [] (Nat.le_refl size) reached,
    List.nil_append]

theorem read_beyond {array : ByteArray} {position size : Nat}
    (beyond : array.totalSize < position + size) (inside : position ≤ array.totalSize) :
    read size (array.seek position) = .error .outOfRange (array.seek position) := by
  have readable : size > (array.seek position).getReadableSize := by
    simp only [getReadableSize, seek]
    omega
  rw [read, if_pos readable]

theorem setPosition_eq {array : ByteArray} {position : Nat}
    (inside : position ≤ array.totalSize) (held : position ≤ array.capacity)
    (reached : position / array.blockSize < array.chain.length) :
    setPosition position array = .ok () (array.seek position) := by
  rw [setPosition, if_neg (Nat.not_lt.mpr held)]
  split
  · rename_i whole
    have same : position = array.totalSize := Nat.le_antisymm inside whole
    subst same
    rw [if_neg (Nat.not_le_of_lt reached)]
    rfl
  · rw [if_neg (Nat.not_le_of_lt reached)]
    rfl

end ByteArray

end FiberNet
