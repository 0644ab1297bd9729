import FiberNet.Bytes.Buffers

/-! # Receiving into a ByteArray

The bytes go to segments of the array from the cursor on, and the cursor follows them. What
can go wrong are the ends: nodes are added behind the current one, also when it is not the
last, and the cursor may have to go behind the last node.
-/

namespace FiberNet

namespace ByteArray

/-- `nodes` is how many nodes there are from `cur` on. -/
def writeBuffersLoop (blockSize : Nat) : (nodes cur size pos : Nat) →
    (buffers : List Iovec) → Except Failure (List Iovec)
  | 0, _, size, _, buffers => if size = 0 then .ok buffers else .error .nullPointer
  | nodes + 1, cur, size, pos, buffers =>
      if size = 0 then .ok buffers
      else
        let nblockPos := pos % blockSize
        let rm := blockSize - pos % blockSize
        let nread := min size rm
        writeBuffersLoop blockSize nodes (cur + 1) (size - nread) (pos + nread)
          (buffers ++ [⟨cur, nblockPos, nread⟩])

def getWriteBuffers (buffers : List Iovec) (size : Nat) : ByteArrayM (Nat × List Iovec) := do
  allocate size
  let array ← get
  match writeBuffersLoop array.blockSize (array.chain.length - array.cur) array.cur size
      array.position buffers with
  | .ok buffers => return (size, buffers)
  | .error failure => throw failure

end ByteArray

/-- What one call of `read` meets: no connection, a `recv` that returns 0 or less, or bytes.
A `recvmsg` of more than 1024 segments is refused, which is a failure here. -/
inductive Arrival
  | unconnected
  | failed (rt : Int)
  | bytes (data : List UInt8)

namespace SocketStream

/-- `recv` transfers less than 2^31 bytes at once. -/
def read : Arrival → (length : Nat) → ByteArrayM Int
  | .unconnected, _ => return -1
  | .failed rt, length => do
      let _ ← ByteArray.getWriteBuffers [] length
      return rt
  | .bytes data, length => do
      let (_, iovs) ← ByteArray.getWriteBuffers [] length
      modify (ByteArray.fill iovs data)
      if data.length > 0 then
        ByteArray.setPosition ((← get).position + data.length)
      return data.length

/-- The loop of `Stream::readFixSize`. It waits when no more bytes arrive. -/
def readFixSizeLoop (left : Int) : List Arrival → (length : Nat) → ByteArrayM (Option Int)
  | [], length => return if length = 0 then some left else none
  | arrival :: rest, length =>
      if length = 0 then return some left
      else do
        let len ← read arrival length
        if len ≤ 0 then return some len
        else readFixSizeLoop left rest (length - len.toNat)

def readFixSize (arrivals : List Arrival) (length : Nat) : ByteArrayM (Option Int) :=
  readFixSizeLoop (BitVec.ofNat 32 length).toInt arrivals length

end SocketStream

namespace ByteArray

/-- The content is the old one with `data` in its place at the old position, and the cursor
is behind it. -/
structure Delivered (array next : ByteArray) (data : List UInt8) : Prop where
  position : next.position = array.position + data.length
  contents : next.contents = array.contents.take array.position ++ data.map some ++
    array.contents.drop (array.position + data.length)

/-- A request for `size` bytes that `data` answers. -/
def Receives (array : ByteArray) (buffers : List Iovec) (size : Nat) (data : List UInt8) :
    Prop :=
  ∃ segments room next,
    getWriteBuffers buffers size array = .ok (size, buffers ++ segments) room ∧
    room.Window array.position size segments ∧
    segments.Pairwise Iovec.Disjoint ∧ (segments.map (·.len)).sum = size ∧
    setPosition (array.position + data.length) (fill segments data room) = .ok () next ∧
    Delivered array next data

/-- The arrays that receives leave, and moves to a position already passed. -/
inductive Reached (blockSize : Nat) : ByteArray → Prop
  | new : Reached blockSize (new blockSize)
  | receive {array room next buffers segments count size data} : Reached blockSize array →
      0 < size → data.length ≤ size →
      getWriteBuffers buffers size array = .ok (count, buffers ++ segments) room →
      setPosition (room.position + data.length) (fill segments data room) = .ok () next →
      Reached blockSize next
  | back {array next v} : Reached blockSize array → v ≤ array.position →
      setPosition v array = .ok () next → Reached blockSize next

/-- The request fits in the capacity, and there is a node where the cursor goes. Or the
cursor is in the last block of the capacity, so that the new nodes come behind all that are
needed, and it does not go to the end of the last new one. -/
def Receivable (array : ByteArray) (size count : Nat) : Prop :=
  array.position + size ≤ array.capacity ∧
      array.position + count < array.blockSize * array.chain.length ∨
    array.capacity < array.position + size ∧
      array.capacity ≤ array.blockSize * (array.position / array.blockSize + 1) ∧
      (array.position = array.capacity ∨ count < size ∨
        ¬array.blockSize ∣ array.position + size)

/-! ## The loop -/

theorem writeBuffersLoop_window {array : ByteArray} {nodes cur size pos : Nat}
    {buffers : List Iovec} (some : 0 < size) (current : cur = pos / array.blockSize)
    (nodes_eq : cur + nodes = array.chain.length)
    (reached : (pos + size - 1) / array.blockSize < array.chain.length) :
    ∃ segments, writeBuffersLoop array.blockSize nodes cur size pos buffers =
        .ok (buffers ++ segments) ∧ array.Window pos size segments := by
  have positive := array.blockSize_pos
  induction nodes generalizing cur size pos buffers with
  | zero =>
      have here : pos / array.blockSize ≤ (pos + size - 1) / array.blockSize :=
        Nat.div_le_div_right (by omega)
      omega
  | succ nodes induction =>
      have below := Nat.mod_lt pos positive
      have parts := Nat.div_add_mod pos array.blockSize
      unfold writeBuffersLoop
      rw [if_neg (by omega)]
      simp only
      generalize taken : min size (array.blockSize - pos % array.blockSize) = count
      have window (segments : List Iovec)
          (tail : array.Window (pos + count) (size - count) segments) :
          array.Window pos size (⟨cur, pos % array.blockSize, count⟩ :: segments) := by
        apply window_cons_iff.mpr
        simp only
        refine ⟨⟨by omega, by omega⟩, by omega, fun _ => ?_, tail⟩
        rw [current]
        exact parts
      by_cases last : size ≤ array.blockSize - pos % array.blockSize
      · have none : size - count = 0 := by omega
        refine ⟨_, ?_, window [] ?_⟩
        · rw [none]
          cases nodes <;> rfl
        · rw [none]
          exact window_nil array _
      · have next := @next_block array.blockSize pos positive
        rw [← current, show array.blockSize - pos % array.blockSize = count by omega] at next
        rcases @induction (cur + 1) (size - count) (pos + count)
            (buffers ++ [⟨cur, pos % array.blockSize, count⟩]) (by omega) next.symm (by omega)
            (by rwa [show pos + count + (size - count) - 1 = pos + size - 1 by omega])
            with ⟨segments, done, tail⟩
        refine ⟨⟨cur, pos % array.blockSize, count⟩ :: segments, ?_, window segments tail⟩
        rw [done, List.append_assoc, List.singleton_append]

/-- Without a node for the last byte, the loop goes on at the null pointer. -/
theorem writeBuffersLoop_short {blockSize nodes cur size pos : Nat} {buffers : List Iovec}
    (positive : 0 < blockSize) (some : 0 < size) (current : cur = pos / blockSize)
    (short : cur + nodes ≤ (pos + size - 1) / blockSize) :
    writeBuffersLoop blockSize nodes cur size pos buffers = .error .nullPointer := by
  induction nodes generalizing cur size pos buffers with
  | zero => rw [writeBuffersLoop, if_neg (by omega)]
  | succ nodes induction =>
      have below := Nat.mod_lt pos positive
      have more : blockSize - pos % blockSize < size := by
        by_contra fits
        have last := (@range_in_block blockSize pos size (pos + size - 1) (by omega)).mpr
          (by omega)
        omega
      have next := @next_block blockSize pos positive
      unfold writeBuffersLoop
      rw [if_neg (by omega)]
      simp only
      rw [Nat.min_eq_right (Nat.le_of_lt more)]
      apply induction
      · omega
      · rw [next, current]
      · rw [show pos + (blockSize - pos % blockSize) +
          (size - (blockSize - pos % blockSize)) - 1 = pos + size - 1 by omega]
        omega

/-! ## The nodes -/

theorem div_lt_blocks_iff {blockSize size : Nat} (positive : 0 < blockSize) :
    size / blockSize < blocks blockSize size ↔ ¬blockSize ∣ size := by
  have parts := Nat.div_add_mod size blockSize
  rw [Nat.dvd_iff_mod_eq_zero, ← Nat.not_le, blocks_le_iff positive]
  omega

/-- How many nodes `allocate` leaves. -/
theorem length_room {array : ByteArray} (reached : array.cur < array.chain.length)
    (inside : array.position ≤ array.capacity) (size : Nat) :
    (array.extend array.cur (array.added size)).chain.length =
      if array.position + size ≤ array.capacity then array.chain.length
      else array.cur + 1 + blocks array.blockSize (size - array.getRemain) := by
  split
  · rename_i fits
    rw [added_eq_zero fits, extend_zero]
  · rename_i beyond
    have more : 0 < size - array.getRemain := by
      unfold getRemain
      omega
    have last := @blocks_eq_last _ (size - array.getRemain) array.blockSize_pos more
    have some : array.added size ≠ 0 := by
      rw [added, last]
      exact Nat.succ_ne_zero _
    rw [length_extend_cut some reached]
    rfl

/-- What the receives keep. The capacity is counted in whole blocks; there is a node more
than it says if the block size given was 0. -/
structure Receiving (array : ByteArray) : Prop where
  current : array.cur = array.position / array.blockSize
  reached : array.cur < array.chain.length
  readable : array.position ≤ array.totalSize
  held : array.totalSize ≤ array.capacity
  whole : array.capacity = array.blockSize * (array.capacity / array.blockSize)
  nodes : array.chain.length = array.capacity / array.blockSize ∨
    array.chain.length = array.capacity / array.blockSize + 1

theorem receiving_new (blockSize : Nat) : (new blockSize).Receiving where
  current := (Nat.zero_div _).symm
  reached := Nat.zero_lt_one
  readable := Nat.zero_le _
  held := Nat.le_refl _
  whole := by
    simp only [new]
    split
    · rename_i none
      rw [none, Nat.zero_div]
    · rw [Nat.div_self (by omega), Nat.mul_one]
  nodes := by
    simp only [new]
    split
    · rename_i none
      right
      rw [none, Nat.zero_div]
      rfl
    · left
      rw [Nat.div_self (by omega)]
      rfl

namespace Receiving

variable {array : ByteArray}

theorem inside (receiving : array.Receiving) : array.position ≤ array.capacity :=
  Nat.le_trans receiving.readable receiving.held

theorem cur_le (receiving : array.Receiving) :
    array.cur ≤ array.capacity / array.blockSize := by
  rw [receiving.current]
  exact Nat.div_le_div_right receiving.inside

/-- The blocks of a request for more than the capacity. -/
theorem blocks_beyond (receiving : array.Receiving) {size : Nat}
    (beyond : array.capacity < array.position + size) :
    blocks array.blockSize (array.position + size) =
      array.capacity / array.blockSize +
        blocks array.blockSize (size - array.getRemain) := by
  have inside := receiving.inside
  have sum : array.position + size =
      array.blockSize * (array.capacity / array.blockSize) + (size - array.getRemain) := by
    rw [← receiving.whole, getRemain]
    omega
  conv => lhs; rw [sum]
  exact blocks_add array.blockSize_pos _ _

theorem near_iff (receiving : array.Receiving) :
    array.capacity ≤ array.blockSize * (array.position / array.blockSize + 1) ↔
      array.capacity / array.blockSize ≤ array.cur + 1 := by
  rw [receiving.current]
  conv => lhs; rw [receiving.whole]
  exact Nat.mul_le_mul_left_iff array.blockSize_pos

/-- After `allocate` there are nodes for the whole request. -/
theorem room_iff (receiving : array.Receiving) {size : Nat} (some : 0 < size) :
    (array.position + size - 1) / array.blockSize <
        (array.extend array.cur (array.added size)).chain.length ↔
      array.position + size ≤ array.capacity ∨
        array.capacity ≤ array.blockSize * (array.position / array.blockSize + 1) := by
  have positive := array.blockSize_pos
  have nodes := receiving.nodes
  rw [length_room receiving.reached receiving.inside]
  split
  · rename_i fits
    have last : (array.position + size - 1) / array.blockSize <
        array.capacity / array.blockSize := by
      apply (Nat.div_lt_iff_lt_mul positive).mpr
      rw [Nat.mul_comm, ← receiving.whole]
      omega
    exact iff_of_true (by omega) (.inl fits)
  · rename_i beyond
    have last := @blocks_eq_last _ (array.position + size) positive (by omega)
    have sum := receiving.blocks_beyond (Nat.lt_of_not_le beyond)
    rw [receiving.near_iff]
    omega

/-- Then there is a node for the cursor to go to in exactly these cases. -/
theorem landing_iff (receiving : array.Receiving) {size count : Nat}
    (part : count ≤ size)
    (room : array.position + size ≤ array.capacity ∨
      array.capacity ≤ array.blockSize * (array.position / array.blockSize + 1)) :
    (array.position + count) / array.blockSize <
        (array.extend array.cur (array.added size)).chain.length ↔
      array.Receivable size count := by
  have positive := array.blockSize_pos
  have cur_le := receiving.cur_le
  rw [length_room receiving.reached receiving.inside]
  unfold Receivable
  split
  · rename_i fits
    rw [Nat.div_lt_iff_lt_mul positive, Nat.mul_comm array.chain.length]
    constructor
    · exact fun lands => .inl ⟨fits, lands⟩
    · rintro (⟨_, lands⟩ | ⟨beyond, _⟩)
      · exact lands
      · omega
  · rename_i beyond
    have near := room.resolve_left beyond
    have close := receiving.near_iff.mp near
    have sum := receiving.blocks_beyond (Nat.lt_of_not_le beyond)
    have last := @blocks_eq_last _ (array.position + size) positive (by omega)
    have few := div_le_blocks positive (array.position + size)
    have ends := @div_lt_blocks_iff array.blockSize (array.position + size) positive
    have landing : (array.position + count) / array.blockSize ≤
        (array.position + size) / array.blockSize := Nat.div_le_div_right (by omega)
    have partial_landing (less : count < size) : (array.position + count) / array.blockSize ≤
        (array.position + size - 1) / array.blockSize := Nat.div_le_div_right (by omega)
    rcases Nat.lt_or_eq_of_le cur_le with before | spare
    · -- The cursor is in the last block of the capacity.
      have elsewhere : array.position ≠ array.capacity := by
        intro same
        rw [receiving.current, same] at before
        omega
      rcases Nat.lt_or_eq_of_le part with less | all
      · have := partial_landing less
        exact iff_of_true (by omega) (.inr ⟨by omega, near, .inr (.inl less)⟩)
      · rw [all]
        constructor
        · intro lands
          exact .inr ⟨by omega, near, .inr (.inr (ends.mp (by omega)))⟩
        · rintro (⟨fits, _⟩ | ⟨_, _, same | less | ragged⟩)
          · omega
          · exact absurd same elsewhere
          · omega
          · have := ends.mpr ragged
            omega
    · -- The cursor is at the end of the capacity, in the node too many.
      have same : array.position = array.capacity := by
        apply Nat.le_antisymm receiving.inside
        rw [receiving.whole, ← spare, receiving.current]
        exact Nat.mul_div_le _ _
      exact iff_of_true (by omega) (.inr ⟨by omega, near, .inl same⟩)

end Receiving

/-! ## One receive -/

theorem getWriteBuffers_eq {array : ByteArray} (reached : array.cur < array.chain.length)
    (buffers : List Iovec) (size : Nat) :
    getWriteBuffers buffers size array =
      match writeBuffersLoop array.blockSize
        ((array.extend array.cur (array.added size)).chain.length - array.cur) array.cur size
        array.position buffers with
      | .ok buffers => .ok (size, buffers) (array.extend array.cur (array.added size))
      | .error failure => .error failure (array.extend array.cur (array.added size)) := by
  simp only [getWriteBuffers, bind, EStateM.bind, allocate_eq reached, ByteArrayM.get_run,
    extend_blockSize, extend_cur, extend_position]
  generalize writeBuffersLoop _ _ _ _ _ _ = looped
  cases looped <;> rfl

/-- The array with its cursor at `position`, which the data reaches. -/
def landed (array : ByteArray) (position : Nat) : ByteArray :=
  { array.seek position with totalSize := max array.totalSize position }

theorem setPosition_landed {array : ByteArray} {position : Nat}
    (held : position ≤ array.capacity)
    (node : position / array.blockSize < array.chain.length) :
    setPosition position array = .ok () (array.landed position) := by
  unfold setPosition landed
  rw [if_neg (Nat.not_lt.mpr held)]
  split
  · rename_i further
    rw [if_neg (Nat.not_le_of_lt node), Nat.max_eq_right further]
    rfl
  · rename_i earlier
    rw [if_neg (Nat.not_le_of_lt node), Nat.max_eq_left (by omega)]
    rfl

theorem node_of_setPosition {array next : ByteArray} {position : Nat}
    (moved : setPosition position array = .ok () next) :
    position / array.blockSize < array.chain.length := by
  unfold setPosition at moved
  split at moved
  · cases moved
  · split at moved <;>
    · simp only at moved
      split at moved
      · cases moved
      · rename_i node
        exact Nat.lt_of_not_le node

@[simp] theorem fill_blockSize (buffers : List Iovec) (data : List UInt8) (array : ByteArray) :
    (fill buffers data array).blockSize = array.blockSize := by
  induction buffers generalizing data array with
  | nil => rfl
  | cons iov rest induction => rw [fill, induction]

@[simp] theorem length_fill (buffers : List Iovec) (data : List UInt8) (array : ByteArray) :
    (fill buffers data array).chain.length = array.chain.length := by
  induction buffers generalizing data array with
  | nil => rfl
  | cons iov rest induction => rw [fill, induction, List.length_modify]

theorem delivered_of_cells {array next : ByteArray} {data : List UInt8}
    (inside : array.position ≤ array.totalSize)
    (position : next.position = array.position + data.length)
    (totalSize : next.totalSize = max array.totalSize (array.position + data.length))
    (cells : ∀ index < next.totalSize, next.cell index =
      if array.position ≤ index ∧ index < array.position + data.length then
        data[index - array.position]?
      else array.cell index) : Delivered array next data := by
  refine ⟨position, List.ext_getElem? fun index => ?_⟩
  have replaced := @getElem?_replaced (Option UInt8) array.contents array.position
    (data.map some) (by simpa [contents] using inside) index
  rw [List.length_map] at replaced
  rw [replaced, getElem?_contents, getElem?_contents, totalSize]
  by_cases covered : array.position ≤ index ∧ index < array.position + data.length
  · have within : index - array.position < data.length := by omega
    rw [if_pos covered, if_pos (by omega), cells index (by omega), if_pos covered,
      List.getElem?_map, List.getElem?_eq_getElem within]
    rfl
  · rw [if_neg covered]
    split
    · rw [if_pos (by omega), cells index (by omega), if_neg covered]
    · rw [if_neg (by omega)]

/-- What a receive leaves that went through. -/
structure Arrived (array next : ByteArray) (size : Nat) (data : List UInt8) : Prop where
  receiving : next.Receiving
  delivered : Delivered array next data
  blockSize : next.blockSize = array.blockSize
  capacity : next.capacity = (array.extend array.cur (array.added size)).capacity
  length : next.chain.length = (array.extend array.cur (array.added size)).chain.length

namespace Receiving

variable {array : ByteArray}

/-- New nodes do not change the content, although one may come in the place of another: that
one is behind the capacity. -/
theorem cell_room (receiving : array.Receiving) {size index : Nat}
    (room : array.position + size ≤ array.capacity ∨
      array.capacity ≤ array.blockSize * (array.position / array.blockSize + 1))
    (inside : index < array.totalSize) :
    (array.extend array.cur (array.added size)).cell index = array.cell index := by
  have held := receiving.held
  rcases Nat.eq_zero_or_pos (array.added size) with none | some
  · rw [none, extend_zero]
  · rw [cell_extend_cut (by omega) receiving.reached, if_pos]
    have near : array.capacity ≤ array.blockSize * (array.position / array.blockSize + 1) := by
      apply room.resolve_left
      intro fits
      rw [added_eq_zero fits] at some
      omega
    rw [← receiving.current] at near
    apply Nat.le_of_lt_succ
    apply (Nat.div_lt_iff_lt_mul array.blockSize_pos).mpr
    rw [Nat.mul_comm]
    exact Nat.lt_of_lt_of_le (Nat.lt_of_lt_of_le inside held) near

theorem capacity_room (receiving : array.Receiving) (size : Nat) :
    array.position + size ≤ (array.extend array.cur (array.added size)).capacity := by
  have inside := receiving.inside
  have enough := le_mul_blocks array.blockSize_pos (size - array.getRemain)
  rw [extend_capacity, added]
  unfold getRemain at enough ⊢
  omega

theorem blocks_room (receiving : array.Receiving) (size : Nat) :
    (array.extend array.cur (array.added size)).capacity =
      array.blockSize * (array.capacity / array.blockSize + array.added size) := by
  rw [extend_capacity, Nat.mul_add, ← receiving.whole]

/-- The capacity and the nodes stay in step. -/
theorem nodes_room (receiving : array.Receiving) {size : Nat}
    (room : array.position + size ≤ array.capacity ∨
      array.capacity ≤ array.blockSize * (array.position / array.blockSize + 1)) :
    (array.extend array.cur (array.added size)).chain.length =
        array.capacity / array.blockSize + array.added size ∨
      (array.extend array.cur (array.added size)).chain.length =
        array.capacity / array.blockSize + array.added size + 1 := by
  have nodes := receiving.nodes
  have reached := receiving.reached
  have cur_le := receiving.cur_le
  rw [length_room reached receiving.inside]
  split
  · rename_i fits
    rw [added_eq_zero fits]
    exact nodes
  · rename_i beyond
    have close := receiving.near_iff.mp (room.resolve_left beyond)
    rw [← added]
    omega

theorem getWriteBuffers_ok (receiving : array.Receiving) (buffers : List Iovec) {size : Nat}
    (some : 0 < size)
    (room : array.position + size ≤ array.capacity ∨
      array.capacity ≤ array.blockSize * (array.position / array.blockSize + 1)) :
    ∃ segments, getWriteBuffers buffers size array =
        .ok (size, buffers ++ segments) (array.extend array.cur (array.added size)) ∧
      (array.extend array.cur (array.added size)).Window array.position size segments := by
  have node := (receiving.room_iff some).mpr room
  have here : array.cur ≤ (array.position + size - 1) / array.blockSize := by
    rw [receiving.current]
    exact Nat.div_le_div_right (by omega)
  rcases @writeBuffersLoop_window (array.extend array.cur (array.added size))
      ((array.extend array.cur (array.added size)).chain.length - array.cur) array.cur size
      array.position buffers some receiving.current (by omega) node with
    ⟨segments, looped, window⟩
  rw [extend_blockSize] at looped
  refine ⟨segments, ?_, window⟩
  rw [getWriteBuffers_eq receiving.reached, looped]

theorem getWriteBuffers_error (receiving : array.Receiving) (buffers : List Iovec) {size : Nat}
    (some : 0 < size)
    (short : ¬(array.position + size ≤ array.capacity ∨
      array.capacity ≤ array.blockSize * (array.position / array.blockSize + 1))) :
    getWriteBuffers buffers size array =
      .error .nullPointer (array.extend array.cur (array.added size)) := by
  rw [← receiving.room_iff some] at short
  have reached : array.cur < (array.extend array.cur (array.added size)).chain.length := by
    have reached := receiving.reached
    rw [length_room reached receiving.inside]
    split <;> omega
  rw [getWriteBuffers_eq receiving.reached, writeBuffersLoop_short array.blockSize_pos some
    receiving.current (by omega)]

theorem room_of_receivable {size count : Nat} (receivable : array.Receivable size count) :
    array.position + size ≤ array.capacity ∨
      array.capacity ≤ array.blockSize * (array.position / array.blockSize + 1) := by
  rcases receivable with ⟨fits, _⟩ | ⟨_, near, _⟩
  · exact .inl fits
  · exact .inr near

/-- A receive in these cases goes through. -/
theorem receive_ok (receiving : array.Receiving) (buffers : List Iovec) {size : Nat}
    {data : List UInt8} (some : 0 < size) (part : data.length ≤ size)
    (receivable : array.Receivable size data.length) :
    ∃ segments next,
      getWriteBuffers buffers size array =
        .ok (size, buffers ++ segments) (array.extend array.cur (array.added size)) ∧
      (array.extend array.cur (array.added size)).Window array.position size segments ∧
      setPosition (array.position + data.length)
        (fill segments data (array.extend array.cur (array.added size))) = .ok () next ∧
      Arrived array next size data := by
  have room := room_of_receivable receivable
  have positive := array.blockSize_pos
  have capacity := receiving.capacity_room size
  have blocks := receiving.blocks_room size
  have nodes := receiving.nodes_room room
  have node := (receiving.landing_iff part room).mpr receivable
  rcases receiving.getWriteBuffers_ok buffers some room with ⟨segments, returned, window⟩
  have filled := fill_received window part
  have readable := receiving.readable
  have held := receiving.held
  have grown := extend_capacity array array.cur (array.added size)
  refine ⟨segments, _, returned, window,
    setPosition_landed (by rw [filled.capacity]; omega)
      (by rw [filled.length, filled.blockSize]; exact node), ?_⟩
  constructor
  · constructor
    · rfl
    · change (array.position + data.length) / (fill segments data _).blockSize <
        (fill segments data _).chain.length
      rw [filled.length, filled.blockSize]
      exact node
    · exact Nat.le_max_right _ _
    · change max (fill segments data _).totalSize (array.position + data.length) ≤
        (fill segments data _).capacity
      rw [filled.totalSize, filled.capacity, extend_totalSize]
      omega
    · change (fill segments data _).capacity = (fill segments data _).blockSize *
        ((fill segments data _).capacity / (fill segments data _).blockSize)
      rw [filled.capacity, filled.blockSize, blocks, extend_blockSize,
        Nat.mul_div_cancel_left _ positive]
    · change (fill segments data _).chain.length =
          (fill segments data _).capacity / (fill segments data _).blockSize ∨
        (fill segments data _).chain.length =
          (fill segments data _).capacity / (fill segments data _).blockSize + 1
      rw [filled.length, filled.capacity, filled.blockSize, blocks, extend_blockSize,
        Nat.mul_div_cancel_left _ positive]
      exact nodes
  · apply delivered_of_cells receiving.readable
    · rfl
    · change max (fill segments data _).totalSize _ = _
      rw [filled.totalSize, extend_totalSize]
    · intro index inside
      change index < max (fill segments data _).totalSize _ at inside
      rw [filled.totalSize, extend_totalSize] at inside
      change (fill segments data _).cell index = _
      rw [filled.cell]
      split
      · rfl
      · exact receiving.cell_room room (by omega)
  · exact filled.blockSize
  · exact filled.capacity
  · exact filled.length

/-- In the others it does not. -/
theorem receivable_of (receiving : array.Receiving) {buffers result : List Iovec}
    {segments : List Iovec} {size count : Nat} {data : List UInt8} {room next : ByteArray}
    (some : 0 < size) (part : data.length ≤ size)
    (returned : getWriteBuffers buffers size array = .ok (count, result) room)
    (moved : setPosition (array.position + data.length) (fill segments data room) =
      .ok () next) : array.Receivable size data.length := by
  by_cases enough : array.position + size ≤ array.capacity ∨
      array.capacity ≤ array.blockSize * (array.position / array.blockSize + 1)
  · rcases receiving.getWriteBuffers_ok buffers some enough with ⟨_, returned', _⟩
    rw [returned] at returned'
    cases returned'
    have node := node_of_setPosition moved
    rw [length_fill, fill_blockSize, extend_blockSize] at node
    exact (receiving.landing_iff part enough).mp node
  · rw [receiving.getWriteBuffers_error buffers some enough] at returned
    cases returned

theorem receives_iff (receiving : array.Receiving) (buffers : List Iovec) {size : Nat}
    {data : List UInt8} (some : 0 < size) (part : data.length ≤ size) :
    Receives array buffers size data ↔ array.Receivable size data.length := by
  constructor
  · rintro ⟨segments, room, next, returned, _, _, _, moved, _⟩
    exact receiving.receivable_of some part returned moved
  · intro receivable
    rcases receiving.receive_ok buffers some part receivable with
      ⟨segments, next, returned, window, moved, arrived⟩
    exact ⟨segments, _, next, returned, window, window.disjoint, window.length, moved,
      arrived.delivered⟩

theorem back (receiving : array.Receiving) {next : ByteArray} {v : Nat}
    (earlier : v ≤ array.position) (moved : setPosition v array = .ok () next) :
    next.Receiving := by
  have readable := receiving.readable
  have held := receiving.held
  have node := node_of_setPosition moved
  rw [setPosition_landed (by omega) node] at moved
  cases moved
  have total : (array.landed v).totalSize = array.totalSize := Nat.max_eq_left (by omega)
  constructor
  · rfl
  · exact node
  · exact Nat.le_max_right _ _
  · rw [total]
    exact held
  · exact receiving.whole
  · exact receiving.nodes

end Receiving

theorem Reached.receiving {blockSize : Nat} {array : ByteArray}
    (reached : Reached blockSize array) : array.Receiving := by
  induction reached with
  | new => exact receiving_new blockSize
  | @receive array room next buffers segments count size data _ some part returned moved
      receiving =>
      have position : room.position = array.position := by
        rw [getWriteBuffers_eq receiving.reached] at returned
        split at returned
        · cases returned
          rfl
        · cases returned
      rw [position] at moved
      have receivable := receiving.receivable_of some part returned moved
      rcases receiving.receive_ok buffers some part receivable with
        ⟨segments', next', returned', _, moved', arrived⟩
      rw [returned] at returned'
      simp only [EStateM.Result.ok.injEq, Prod.mk.injEq, List.append_cancel_left_eq]
        at returned'
      rcases returned' with ⟨⟨_, rfl⟩, rfl⟩
      rw [moved] at moved'
      cases moved'
      exact arrived.receiving
  | back _ earlier moved receiving => exact receiving.back earlier moved

/-! ## Reading from a stream -/

@[simp] theorem fill_position (buffers : List Iovec) (data : List UInt8) (array : ByteArray) :
    (fill buffers data array).position = array.position := by
  induction buffers generalizing data array with
  | nil => rfl
  | cons iov rest induction => rw [fill, induction]

theorem Delivered.trans {array next last : ByteArray} {first second : List UInt8}
    (inside : array.position ≤ array.totalSize) (before : Delivered array next first)
    (after : Delivered next last second) : Delivered array last (first ++ second) where
  position := by
    rw [after.position, before.position, List.length_append, Nat.add_assoc]
  contents := by
    have length : array.contents.length = array.totalSize := by
      rw [ByteArray.contents, List.length_map, List.length_range]
    have head : (array.contents.take array.position ++ first.map some).length =
        array.position + first.length := by
      rw [List.length_append, List.length_take, List.length_map, length,
        Nat.min_eq_left inside]
    rw [after.contents, before.contents, before.position, List.take_left' head,
      List.drop_append, head, List.drop_of_length_le (by omega), List.nil_append,
      List.drop_drop, List.map_append, List.length_append]
    simp only [List.append_assoc]
    congr 4
    omega

theorem Delivered.nothing (array : ByteArray) : Delivered array array [] where
  position := rfl
  contents := by
    rw [List.map_nil, List.append_nil, List.length_nil, Nat.add_zero, List.take_append_drop]

theorem socket_read_eq {array room : ByteArray} {size count : Nat} {data : List UInt8}
    {iovs : List Iovec} (some : data ≠ [])
    (returned : getWriteBuffers [] size array = .ok (count, iovs) room) :
    SocketStream.read (.bytes data) size array =
      match setPosition (room.position + data.length) (fill iovs data room) with
      | .ok _ next => .ok data.length next
      | .error failure next => .error failure next := by
  have more : data.length > 0 := List.length_pos_iff.mpr some
  simp only [SocketStream.read, bind, EStateM.bind, returned, ByteArrayM.modify_run, more,
    ↓reduceIte, ByteArrayM.get_run, fill_position]
  generalize setPosition _ _ = moved
  cases moved <;> rfl

namespace Receiving

variable {array : ByteArray}

theorem read_ok (receiving : array.Receiving) {size : Nat} {data : List UInt8}
    (some : data ≠ []) (part : data.length ≤ size)
    (receivable : array.Receivable size data.length) :
    ∃ next, SocketStream.read (.bytes data) size array = .ok data.length next ∧
      Arrived array next size data := by
  have more := List.length_pos_iff.mpr some
  rcases receiving.receive_ok [] (by omega) part receivable with
    ⟨segments, next, returned, _, moved, arrived⟩
  refine ⟨next, ?_, arrived⟩
  rw [socket_read_eq some returned, List.nil_append, extend_position, moved]

theorem receivable_of_read (receiving : array.Receiving) {size : Nat} {data : List UInt8}
    {rt : Int} {next : ByteArray} (some : data ≠ []) (part : data.length ≤ size)
    (done : SocketStream.read (.bytes data) size array = .ok rt next) :
    array.Receivable size data.length := by
  have more := List.length_pos_iff.mpr some
  cases returned : getWriteBuffers [] size array with
  | error failure room =>
      simp only [SocketStream.read, bind, EStateM.bind, returned] at done
      cases done
  | ok result room =>
      have position : room.position = array.position := by
        rw [getWriteBuffers_eq receiving.reached] at returned
        split at returned
        · cases returned
          rfl
        · cases returned
      rw [socket_read_eq some returned, position] at done
      split at done
      · rename_i moved
        exact receiving.receivable_of (by omega) part returned moved
      · cases done

theorem receivable_nothing (receiving : array.Receiving) : array.Receivable 0 0 := by
  have reached := receiving.reached
  refine .inl ⟨receiving.inside, ?_⟩
  rw [receiving.current] at reached
  rw [Nat.mul_comm]
  exact (Nat.div_lt_iff_lt_mul array.blockSize_pos).mp reached

/-- The rest of a request needs no further node, so that it depends on the first receive
whether the cursor can go to its end. -/
theorem receivable_rest (receiving : array.Receiving) {next : ByteArray} {size : Nat}
    {data : List UInt8} (part : data.length ≤ size)
    (receivable : array.Receivable size data.length) (arrived : Arrived array next size data) :
    next.Receivable (size - data.length) (size - data.length) ↔
      array.Receivable size size := by
  have room := room_of_receivable receivable
  have capacity := receiving.capacity_room size
  have ends : array.position + data.length + (size - data.length) = array.position + size := by
    omega
  rw [← receiving.landing_iff (Nat.le_refl size) room,
    Nat.div_lt_iff_lt_mul array.blockSize_pos, Nat.mul_comm]
  unfold Receivable
  rw [arrived.delivered.position, arrived.capacity, arrived.length, arrived.blockSize, ends]
  constructor
  · rintro (⟨_, lands⟩ | ⟨beyond, _⟩)
    · exact lands
    · omega
  · exact fun lands => .inl ⟨capacity, lands⟩

theorem receivable_part {size count : Nat} (part : count ≤ size)
    (receivable : array.Receivable size size) : array.Receivable size count := by
  rcases receivable with ⟨fits, lands⟩ | ⟨beyond, near, rest⟩
  · exact .inl ⟨fits, by omega⟩
  · refine .inr ⟨beyond, near, ?_⟩
    rcases Nat.lt_or_eq_of_le part with less | all
    · exact .inr (.inl less)
    · rw [all]
      exact rest

end Receiving

theorem readFixSizeLoop_cons {array next : ByteArray} {left rt : Int} {arrival : Arrival}
    {rest : List Arrival} {length : Nat} (more : length ≠ 0)
    (done : SocketStream.read arrival length array = .ok rt next) (some : 0 < rt) :
    SocketStream.readFixSizeLoop left (arrival :: rest) length array =
      SocketStream.readFixSizeLoop left rest (length - rt.toNat) next := by
  rw [SocketStream.readFixSizeLoop, if_neg more]
  simp only [bind, EStateM.bind, done]
  rw [if_neg (Int.not_le.mpr some)]

theorem readFixSizeLoop_error {array next : ByteArray} {left : Int} {arrival : Arrival}
    {rest : List Arrival} {length : Nat} {failure : Failure} (more : length ≠ 0)
    (failed : SocketStream.read arrival length array = .error failure next) :
    SocketStream.readFixSizeLoop left (arrival :: rest) length array = .error failure next := by
  rw [SocketStream.readFixSizeLoop, if_neg more]
  simp only [bind, EStateM.bind, failed]

namespace Receiving

/-- However the bytes are cut, the request as a whole decides. -/
theorem readFixSizeLoop_delivers {array : ByteArray} (receiving : array.Receiving) (left : Int)
    {chunks : List (List UInt8)} (some : ∀ chunk ∈ chunks, chunk ≠ [])
    (receivable : array.Receivable chunks.flatten.length chunks.flatten.length) :
    ∃ next, SocketStream.readFixSizeLoop left (chunks.map .bytes) chunks.flatten.length array =
        .ok (.some left) next ∧ Delivered array next chunks.flatten := by
  induction chunks generalizing array with
  | nil => exact ⟨array, rfl, Delivered.nothing array⟩
  | cons chunk rest induction =>
      rcases List.forall_mem_cons.mp some with ⟨first, others⟩
      have more := List.length_pos_iff.mpr first
      rw [List.flatten_cons, List.length_append] at receivable ⊢
      have part : chunk.length ≤ chunk.length + rest.flatten.length := Nat.le_add_right _ _
      have start := receivable_part part receivable
      rcases receiving.read_ok first part start with ⟨next, done, arrived⟩
      have remaining := (receiving.receivable_rest part start arrived).mpr receivable
      rw [Nat.add_sub_cancel_left] at remaining
      rcases induction arrived.receiving others remaining with ⟨last, looped, delivered⟩
      refine ⟨last, ?_, arrived.delivered.trans receiving.readable delivered⟩
      rw [List.map_cons, readFixSizeLoop_cons (by omega) done (by omega), Int.toNat_natCast,
        Nat.add_sub_cancel_left, looped]

theorem receivable_of_readFixSizeLoop {array last : ByteArray} (receiving : array.Receiving)
    {left : Int} {result : Option Int} {chunks : List (List UInt8)}
    (some : ∀ chunk ∈ chunks, chunk ≠ [])
    (looped : SocketStream.readFixSizeLoop left (chunks.map .bytes) chunks.flatten.length array =
      .ok result last) :
    array.Receivable chunks.flatten.length chunks.flatten.length := by
  induction chunks generalizing array with
  | nil => exact receiving.receivable_nothing
  | cons chunk rest induction =>
      rcases List.forall_mem_cons.mp some with ⟨first, others⟩
      have more := List.length_pos_iff.mpr first
      rw [List.flatten_cons, List.length_append] at looped ⊢
      have part : chunk.length ≤ chunk.length + rest.flatten.length := Nat.le_add_right _ _
      rw [List.map_cons] at looped
      cases done : SocketStream.read (.bytes chunk) (chunk.length + rest.flatten.length)
          array with
      | error failure failed =>
          rw [readFixSizeLoop_error (by omega) done] at looped
          cases looped
      | ok rt next =>
          have start := receiving.receivable_of_read first part done
          rcases receiving.read_ok first part start with ⟨_, done', arrived⟩
          rw [done] at done'
          cases done'
          rw [readFixSizeLoop_cons (by omega) done (by omega), Int.toNat_natCast,
            Nat.add_sub_cancel_left] at looped
          have remaining := induction arrived.receiving others looped
          apply (receiving.receivable_rest part start arrived).mp
          rwa [Nat.add_sub_cancel_left]

end Receiving

/-- The three ways to receive put exactly the bytes received in their place in exactly the
same cases, `readFixSize` whatever the pieces are in which the bytes arrive. -/
theorem receiving_iff {blockSize : Nat} {array : ByteArray} (reached : Reached blockSize array) :
    (∀ buffers size data, 0 < size → data.length ≤ size →
      (Receives array buffers size data ↔ array.Receivable size data.length)) ∧
    (∀ size data, data ≠ [] → data.length ≤ size →
      ((∃ next, SocketStream.read (.bytes data) size array = .ok data.length next ∧
        Delivered array next data) ↔ array.Receivable size data.length)) ∧
    (∀ chunks : List (List UInt8), (∀ chunk ∈ chunks, chunk ≠ []) →
      ((∃ next, SocketStream.readFixSize (chunks.map .bytes) chunks.flatten.length array =
          .ok (some (BitVec.ofNat 32 chunks.flatten.length).toInt) next ∧
        Delivered array next chunks.flatten) ↔
      array.Receivable chunks.flatten.length chunks.flatten.length)) := by
  have receiving := reached.receiving
  refine ⟨?_, ?_, ?_⟩
  · intro buffers size data some part
    exact receiving.receives_iff buffers some part
  · intro size data some part
    constructor
    · rintro ⟨next, done, _⟩
      exact receiving.receivable_of_read some part done
    · intro receivable
      rcases receiving.read_ok some part receivable with ⟨next, done, arrived⟩
      exact ⟨next, done, arrived.delivered⟩
  · intro chunks some
    constructor
    · rintro ⟨next, done, _⟩
      exact receiving.receivable_of_readFixSizeLoop some done
    · exact receiving.readFixSizeLoop_delivers _ some

theorem receives_new : Receives (new 4) [] 3 [1, 2] :=
  ((receiving_iff (@Reached.new 4)).1 [] 3 [1, 2] (by decide) (by decide)).mpr
    (.inl (by decide))

/-- Four bytes fill the first block up: there is no node for the cursor to go to. After five
bytes and a move back to the start, nine bytes need a third node, which comes in the place of
the second. -/
theorem not_receives : Reached 4 (new 4) ∧ ¬Receives (new 4) [] 4 [1, 2, 3, 4] ∧
    ∃ array room, Reached 4 array ∧ getWriteBuffers [] 9 array = .error .nullPointer room := by
  refine ⟨Reached.new, ?_, ?_⟩
  · rintro ⟨segments, room, next, returned, _, _, _, moved, _⟩
    cases returned
    cases moved
  · have first := @Reached.receive 4 (new 4) _ _ [] _ _ 5 [1, 2, 3, 4, 5] Reached.new
      (by decide) (by decide) rfl rfl
    exact ⟨_, _, Reached.back first (Nat.zero_le _) rfl, rfl⟩

end ByteArray

end FiberNet
