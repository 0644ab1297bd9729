import FiberNet.Bytes.Blocks

/-! # Overwriting

A write links the nodes it needs behind the node it starts in. That cuts off the nodes that
follow, unless there are none.
-/

namespace FiberNet

namespace ByteArray

/-- `bytes` in the place of as many bytes from `position` on. -/
def splice (content : List UInt8) (position : Nat) (bytes : List UInt8) : List UInt8 :=
  content.take position ++ bytes ++ content.drop (position + bytes.length)

/-- A write at `position` replaces the bytes there and nothing else. -/
def Splices (array : ByteArray) (content : List UInt8) (position : Nat)
    (bytes : List UInt8) : Prop :=
  ∃ loaded moved next,
    write content array.clear = .ok () loaded ∧
    setPosition position loaded = .ok () moved ∧
    write bytes moved = .ok () next ∧
    next.contents = (splice content position bytes).map some ∧
    next.totalSize = max content.length (position + bytes.length) ∧
    (∀ index, index < position ∨ position + bytes.length ≤ index →
      next.cell index = loaded.cell index) ∧
    next.capacity / next.blockSize ≤ next.chain.length

/-- The nodes that a write on a cleared array leaves: one more than its bytes need. -/
def nodes (blockSize size : Nat) : Nat :=
  blocks blockSize size + 1

/-- What a write leaves on a cleared array. -/
structure Filled (array : ByteArray) (content : List UInt8) : Prop where
  totalSize : array.totalSize = content.length
  capacity : array.capacity = array.blockSize * array.chain.length
  length : array.chain.length = nodes array.blockSize content.length
  cell : ∀ index < content.length, array.cell index = content[index]?

theorem write_clear (array : ByteArray) (content : List UInt8) :
    ∃ loaded, write content array.clear = .ok () loaded ∧ Filled loaded content ∧
      loaded.blockSize = array.blockSize := by
  have positive := array.blockSize_pos
  have root : array.clear.chain.length = 1 := by
    have some := array.chain_pos
    simp only [clear, List.length_take]
    omega
  have full : array.clear.capacity = array.clear.blockSize * array.clear.chain.length := by
    rw [root, Nat.mul_one]
    rfl
  rcases eq_or_ne content [] with rfl | nonempty
  · refine ⟨_, write_nil array.clear, ⟨rfl, full, ?_, fun _ inside => absurd inside (Nat.not_lt_zero _)⟩, rfl⟩
    rw [root, nodes, List.length_nil, blocks_zero array.clear.blockSize_pos]
  · rcases write_written nonempty (Nat.zero_div _).symm (by rw [root]; exact Nat.zero_lt_one)
      full (.inr root.symm) with ⟨loaded, done, written⟩
    have position : array.clear.position = 0 := rfl
    refine ⟨loaded, done, ⟨?_, written.capacity, ?_, ?_⟩, written.blockSize⟩
    · rw [written.totalSize, position, Nat.zero_add]
      exact Nat.max_eq_right (Nat.zero_le _)
    · rw [written.length, root, position, Nat.zero_add, written.blockSize, nodes]
      omega
    · intro index inside
      rw [written.cell, position, if_pos (by omega), Nat.sub_zero]

theorem length_splice {content : List UInt8} {position : Nat} (bytes : List UInt8)
    (inside : position ≤ content.length) :
    (splice content position bytes).length =
      max content.length (position + bytes.length) := by
  simp only [splice, List.length_append, List.length_take, List.length_drop]
  omega

theorem getElem?_splice {content : List UInt8} {position : Nat} (bytes : List UInt8)
    (inside : position ≤ content.length) (index : Nat) :
    (splice content position bytes)[index]? =
      if position ≤ index ∧ index < position + bytes.length then bytes[index - position]?
      else content[index]? :=
  getElem?_replaced bytes inside index

theorem contents_splice {loaded next : ByteArray} {content : List UInt8} {position : Nat}
    {bytes : List UInt8} (filled : Filled loaded content) (inside : position ≤ content.length)
    (totalSize : next.totalSize = max content.length (position + bytes.length))
    (cells : ∀ index, next.cell index =
      if position ≤ index ∧ index < position + bytes.length then bytes[index - position]?
      else loaded.cell index) :
    next.contents = (splice content position bytes).map some := by
  rw [← slice_contents, totalSize, ← length_splice bytes inside]
  apply slice_eq_map
  intro index below
  rw [length_splice bytes inside] at below
  rw [cells, getElem?_splice bytes inside]
  split
  · rfl
  · exact filled.cell index (by omega)

/-- A write from the right node on that needs more nodes than there are, but does not start
in the last of them, throws. -/
theorem write_cut {array : ByteArray} {bytes : List UInt8}
    (current : array.cur = array.position / array.blockSize)
    (full : array.capacity = array.blockSize * array.chain.length)
    (beyond : array.capacity < array.position + bytes.length)
    (early : array.cur + 1 < array.chain.length) :
    ∃ next, write bytes array = .error .logicError next := by
  have positive := array.blockSize_pos
  have before : array.position < array.blockSize * array.chain.length := by
    rw [Nat.mul_comm]
    apply (Nat.div_lt_iff_lt_mul positive).mp
    omega
  have nonempty : bytes ≠ [] := by
    rintro rfl
    simp only [List.length_nil] at beyond
    omega
  have reaches := @length_allocated array bytes.length full (by omega)
  have last := @blocks_eq_last array.blockSize (array.position + bytes.length) positive
    (by omega)
  have more : array.added bytes.length ≠ 0 := by
    intro none
    rw [none, Nat.add_zero] at reaches
    have few := (@blocks_le_iff _ (array.position + bytes.length) array.chain.length positive).mp
      (by omega)
    omega
  have reached : array.cur < array.chain.length := by omega
  have cut := length_extend_cut more reached
  rcases writeLoop_short bytes.length 0 bytes
      (array.extend array.cur (array.added bytes.length)) (Nat.le_refl _) nonempty current
      (by rw [cut, extend_cur]; omega)
      (by rw [cut, extend_position, extend_blockSize]; omega) with ⟨next, looped⟩
  exact ⟨next, write_error nonempty (allocate_eq reached _) looped⟩

/-- Exactly the writes splice that stay inside the nodes there are or start in the last of
them. -/
theorem splices_iff (array : ByteArray) (content : List UInt8) (position : Nat)
    (bytes : List UInt8) (inside : position ≤ content.length) :
    Splices array content position bytes ↔
      position + bytes.length ≤ array.blockSize * nodes array.blockSize content.length ∨
        position / array.blockSize + 1 = nodes array.blockSize content.length := by
  rcases write_clear array content with ⟨loaded, done, filled, blockSize⟩
  have positive := loaded.blockSize_pos
  have length := filled.length
  have capacity := filled.capacity
  have few := div_le_blocks positive content.length
  have within : position / loaded.blockSize ≤ content.length / loaded.blockSize :=
    Nat.div_le_div_right inside
  have fits := le_mul_blocks positive content.length
  rw [← blockSize, ← length, ← capacity]
  have reached : position / loaded.blockSize < loaded.chain.length := by
    rw [length, nodes]
    omega
  have held : position ≤ loaded.capacity := by
    rw [capacity, length, nodes, Nat.mul_succ]
    omega
  have moved := setPosition_eq (by rwa [filled.totalSize]) held reached
  constructor
  · rintro ⟨loaded', moved', next, done', position', write', _⟩
    rw [done] at done'
    cases done'
    rw [moved] at position'
    cases position'
    by_contra bad
    rcases not_or.mp bad with ⟨beyond, early⟩
    rcases @write_cut (loaded.seek position) bytes rfl capacity (Nat.lt_of_not_le beyond)
      (Nat.lt_of_le_of_ne reached early) with ⟨failed, refused⟩
    rw [refused] at write'
    cases write'
  · intro room
    refine ⟨loaded, loaded.seek position, ?_⟩
    rcases eq_or_ne bytes [] with rfl | nonempty
    · have same : ∀ index, (loaded.seek position).cell index =
          if position ≤ index ∧ index < position + ([] : List UInt8).length then
            ([] : List UInt8)[index - position]?
          else loaded.cell index := by
        intro index
        rw [List.length_nil, if_neg (by omega), cell_seek]
      have total : (loaded.seek position).totalSize =
          max content.length (position + ([] : List UInt8).length) := by
        rw [List.length_nil, Nat.add_zero, Nat.max_eq_left inside]
        exact filled.totalSize
      refine ⟨loaded.seek position, done, moved, write_nil _,
        contents_splice filled inside total same, total, fun _ _ => rfl, ?_⟩
      exact Nat.le_of_eq (Nat.div_eq_of_eq_mul_right positive capacity)
    · rcases @write_written (loaded.seek position) bytes nonempty rfl reached capacity room
        with ⟨next, went, written⟩
      have total : next.totalSize = max content.length (position + bytes.length) := by
        rw [written.totalSize, ← filled.totalSize]
        rfl
      refine ⟨next, done, moved, went, contents_splice filled inside total written.cell, total,
        ?_, ?_⟩
      · intro index outside
        rw [written.cell, if_neg (by simp only [seek]; omega), cell_seek]
      · exact Nat.le_of_eq (Nat.div_eq_of_eq_mul_right next.blockSize_pos written.capacity)

/-- Three bytes leave four nodes of one byte. Four bytes from the second on need a fifth,
which is linked behind the second. -/
theorem not_splices_tail : ¬Splices (new 1) [1, 2, 3] 1 [4, 5, 6, 7] := by
  rintro ⟨loaded, moved, next, done, position, went, _⟩
  cases done
  cases position
  cases went

theorem splices_inside : Splices (new 1) [1, 2, 3] 1 [4, 5] :=
  (splices_iff (new 1) [1, 2, 3] 1 [4, 5] (by decide)).mpr (by decide)

end ByteArray

end FiberNet
