import FiberNet.Bytes.Blocks

/-! # Append and read back

Every write ends in a block of its own: the next one starts in the block after the last
byte, at the offset the position has. Appended data is therefore whole as long as every
write but the last fills its blocks.
-/

namespace FiberNet

namespace ByteArray

/-- The bytes of several reads, one after the other. -/
def readEach : List Nat → ByteArrayM (List (Option UInt8))
  | [] => pure []
  | size :: sizes => do
      let buff ← read size
      let rest ← readEach sizes
      pure (buff ++ rest)

/-- The writes go through on a fresh array and, from the start, exactly their bytes can be
read. -/
def ReadsBack (blockSize : Nat) (writes : List (List UInt8)) : Prop :=
  ∃ written home,
    writes.forM write (new blockSize) = .ok ⟨⟩ written ∧
    written.position = writes.flatten.length ∧
    setPosition 0 written = .ok () home ∧
    home.getReadableSize = writes.flatten.length ∧
    home.dump = .ok (writes.flatten.map some) ∧
    ∀ sizes : List Nat, sizes.sum = writes.flatten.length →
      ∃ done, readEach sizes home = .ok (writes.flatten.map some) done ∧
        read 1 done = .error .outOfRange done

/-- The array holds `data` and its cursor is behind it, in the last node. -/
structure Loaded (blockSize : Nat) (array : ByteArray) (data : List UInt8) : Prop where
  totalSize : array.totalSize = max blockSize data.length
  blockSize : array.blockSize = (new blockSize).blockSize
  position : array.position = data.length
  capacity : array.capacity = array.blockSize * array.chain.length
  length : array.chain.length = blocks array.blockSize data.length + 1
  cur : array.cur + 1 = array.chain.length
  cell : ∀ index, array.cell index = data[index]?

theorem cell_new (blockSize index : Nat) : (new blockSize).cell index = none := by
  simp only [cell, new]
  cases index / (if blockSize = 0 then 4096 else blockSize) with
  | zero => rfl
  | succ number => rfl

theorem loaded_new {blockSize : Nat} (positive : 0 < blockSize) :
    Loaded blockSize (new blockSize) [] where
  totalSize := (Nat.max_eq_left (Nat.zero_le blockSize)).symm
  blockSize := rfl
  position := rfl
  capacity := by
    have given : blockSize ≠ 0 := by omega
    simp [new, given]
  length := by
    rw [List.length_nil, blocks_zero (new blockSize).blockSize_pos]
    rfl
  cur := rfl
  cell := cell_new blockSize

/-- The bytes before the cursor and those written behind them. -/
theorem getElem?_appended (data bytes : List UInt8) (index : Nat) :
    (if data.length ≤ index ∧ index < data.length + bytes.length then
      bytes[index - data.length]?
    else data[index]?) = (data ++ bytes)[index]? := by
  rcases Nat.lt_or_ge index data.length with before | behind
  · rw [if_neg (by omega), List.getElem?_append_left before]
  · rw [List.getElem?_append_right behind]
    split
    · rfl
    · rw [List.getElem?_eq_none (by omega), List.getElem?_eq_none (by omega)]

theorem loaded_write {blockSize : Nat} {array : ByteArray} {data bytes : List UInt8}
    (loaded : Loaded blockSize array data) (aligned : array.blockSize ∣ data.length)
    (nonempty : bytes ≠ []) :
    ∃ next, write bytes array = .ok () next ∧ Loaded blockSize next (data ++ bytes) := by
  have cur := loaded.cur
  have length := loaded.length
  rw [blocks_aligned array.blockSize_pos aligned] at length
  have current : array.cur = array.position / array.blockSize := by
    rw [loaded.position]
    omega
  rcases write_written nonempty current (by omega) loaded.capacity (.inr cur)
    with ⟨next, done, written⟩
  rcases written.behind nonempty current cur with ⟨nodes_next, cur_next⟩
  refine ⟨next, done, ?_⟩
  constructor
  · rw [written.totalSize, loaded.totalSize, loaded.position, List.length_append]
    omega
  · rw [written.blockSize, loaded.blockSize]
  · rw [written.position, loaded.position, List.length_append]
  · exact written.capacity
  · rw [nodes_next, written.blockSize, loaded.position, List.length_append]
  · exact cur_next
  · intro index
    rw [written.cell, loaded.position, loaded.cell, getElem?_appended]

/-- A write in the middle of a block leaves the byte it starts at unwritten, or throws. -/
theorem loaded_write_misaligned {blockSize : Nat} {array : ByteArray}
    {data bytes : List UInt8} (loaded : Loaded blockSize array data)
    (misaligned : ¬array.blockSize ∣ data.length) (nonempty : bytes ≠ []) :
    (∃ failure next, write bytes array = .error failure next) ∨
    ∃ next, write bytes array = .ok () next ∧ next.cur = next.chain.length ∧
      next.cell data.length = none := by
  have positive := array.blockSize_pos
  have more := List.length_pos_iff.mpr nonempty
  have length := loaded.length
  have cur := loaded.cur
  have capacity := loaded.capacity
  have parts := Nat.div_add_mod data.length array.blockSize
  have offset : data.length % array.blockSize ≠ 0 :=
    fun none => misaligned (Nat.dvd_of_mod_eq_zero none)
  have below := Nat.mod_lt data.length positive
  have ahead : blocks array.blockSize data.length = data.length / array.blockSize + 1 := by
    rw [← parts, blocks_add positive, parts,
      blocks_eq_one (Nat.pos_of_ne_zero offset) (Nat.le_of_lt below)]
  have reached : array.cur < array.chain.length := by omega
  have allocated := allocate_eq reached bytes.length
  have reaches := @length_extend array (array.added bytes.length) (.inr cur)
  have fills := @length_allocated array bytes.length capacity
    (by rw [capacity, length, loaded.position, ahead, Nat.mul_succ, Nat.mul_succ]; omega)
  rcases Nat.lt_or_ge array.blockSize (data.length % array.blockSize + bytes.length)
    with exceeds | fits
  · left
    have beyond : array.blockSize * (data.length / array.blockSize + 1) <
        data.length + bytes.length := by
      rw [Nat.mul_succ]
      omega
    have further : data.length / array.blockSize + 1 <
        blocks array.blockSize (data.length + bytes.length) := by
      by_contra short
      exact absurd ((blocks_le_iff positive).mp (Nat.le_of_not_lt short))
        (Nat.not_le_of_lt beyond)
    have last := @blocks_eq_last array.blockSize (data.length + bytes.length) positive
      (by omega)
    rcases writeLoop_short bytes.length 1 bytes
        (array.extend array.cur (array.added bytes.length)) (Nat.le_refl _) nonempty
        (by rw [extend_cur, extend_position, extend_blockSize, loaded.position]; omega)
        (by rw [reaches, extend_cur]; omega)
        (by rw [reaches, fills, extend_position, extend_blockSize, loaded.position]; omega)
        with ⟨next, looped⟩
    exact ⟨_, next, write_error nonempty allocated looped⟩
  · right
    have room : array.capacity = data.length - data.length % array.blockSize +
        2 * array.blockSize := by
      rw [capacity, length, ahead, Nat.mul_succ, Nat.mul_succ]
      omega
    have position := loaded.position
    rw [added_eq_zero (by omega), extend_zero] at allocated
    have looped := writeLoop_within (Nat.le_refl _) nonempty reached (by rwa [position])
    have spared := @allocate_eq (array.put bytes).grow
      (by rw [grow_cur, grow_chain]; simpa [put] using reached) (array.put bytes).blockSize
    rw [added_eq_zero (by
      rw [grow_position, grow_capacity]
      simp only [put]
      omega)] at spared
    refine ⟨_, write_eq nonempty allocated looped spared, ?_, ?_⟩
    · simp only [advance, extend_zero, grow_cur, grow_chain, put, List.length_modify]
      exact cur
    · have kept := @cell_congr (array.put bytes).grow.advance (array.put bytes)
        (grow_chain _) (grow_blockSize _)
      rw [extend_zero, kept, cell_put_elsewhere (by omega), loaded.cell,
        List.getElem?_eq_none (Nat.le_refl _)]

theorem allocate_behind {array : ByteArray} (behind : array.cur = array.chain.length)
    (size : Nat) :
    allocate size array = .ok () array ∨ allocate size array = .error .nullPointer array := by
  unfold allocate
  split
  · exact .inl rfl
  · simp only
    split
    · exact .inr rfl
    · have exact : size - array.getRemain = 0 := by omega
      rw [exact]
      exact .inl rfl

/-- Behind the last node nothing can be written. -/
theorem write_behind {array : ByteArray} {bytes : List UInt8}
    (behind : array.cur = array.chain.length) (nonempty : bytes ≠ []) :
    ∃ failure next, write bytes array = .error failure next := by
  have more := List.length_pos_iff.mpr nonempty
  rcases allocate_behind behind bytes.length with allocated | refused
  · have looped : writeLoop bytes.length bytes array = .error .nullPointer array := by
      rw [← Nat.sub_add_cancel more, writeLoop, if_neg (by omega), if_pos (by omega)]
    exact ⟨_, _, write_error nonempty allocated looped⟩
  · exact ⟨_, _, write_refused nonempty refused⟩

/-! ## The first write on an array of block size 0 -/

/-- The capacity of the first node is not counted. The first write makes up for it. -/
theorem write_new_zero {bytes : List UInt8} (nonempty : bytes ≠ []) :
    ∃ next, write bytes (new 0) = .ok () next ∧ Loaded 0 next bytes := by
  have more := List.length_pos_iff.mpr nonempty
  have last : blocks 4096 bytes.length = _ := blocks_eq_last (by decide) more
  have fits : _ ≤ 4096 * blocks 4096 bytes.length := le_mul_blocks (by decide) bytes.length
  have tight : 4096 * blocks 4096 bytes.length < _ := mul_blocks_lt (by decide) bytes.length
  have added : (new 0).added bytes.length = blocks 4096 bytes.length := rfl
  generalize count_eq : blocks 4096 bytes.length = count at last fits tight added
  have allocated := @allocate_eq (new 0) Nat.zero_lt_one bytes.length
  have length := @length_extend (new 0) count (.inr rfl)
  have empty := @cell_extend (new 0) count (.inr rfl)
  rw [added] at allocated
  rcases writeLoop_stored bytes.length bytes ((new 0).extend (new 0).cur count)
      (Nat.le_refl _) nonempty (Nat.zero_div _).symm
      (by
        rw [length]
        change (0 + bytes.length - 1) / 4096 < 1 + count
        rw [Nat.zero_add]
        omega)
      with ⟨filled, looped, stored, cur⟩
  have blockSize : filled.blockSize = 4096 := stored.blockSize
  have position : filled.position = bytes.length := by
    rw [stored.position, extend_position]
    exact Nat.zero_add _
  have capacity : filled.capacity = 4096 * count := by
    rw [stored.capacity, extend_capacity]
    exact Nat.zero_add _
  have chain : filled.chain.length = count + 1 := by
    rw [stored.length, length]
    exact Nat.add_comm 1 count
  have current : filled.cur + 1 = count := by
    rw [cur, last, extend_position, extend_blockSize]
    change (0 + bytes.length - 1) / 4096 + 1 = _
    rw [Nat.zero_add]
  have reached : filled.grow.cur < filled.grow.chain.length := by
    rw [grow_cur, grow_chain]
    omega
  have spared := allocate_eq reached filled.blockSize
  have one : filled.grow.added filled.blockSize = 1 := by
    rw [ByteArray.added, getRemain, grow_blockSize, grow_capacity, grow_position]
    exact blocks_eq_one (by omega) (by omega)
  rw [one] at spared
  refine ⟨_, write_eq nonempty allocated looped spared, ?_⟩
  have total : filled.grow.totalSize = bytes.length := by
    rw [grow_totalSize, position, stored.totalSize]
    exact Nat.max_eq_right (Nat.zero_le _)
  have final : (filled.grow.extend filled.grow.cur 1).chain.length = count + 1 := by
    simp only [extend, linked, grow_chain, grow_cur, List.length_append, List.length_take,
      List.length_replicate, Nat.one_ne_zero, ↓reduceIte]
    omega
  constructor
  · change filled.grow.totalSize = _
    rw [total]
    exact (Nat.max_eq_right (Nat.zero_le _)).symm
  · change filled.grow.blockSize = _
    rw [grow_blockSize, blockSize]
    rfl
  · change filled.grow.position = _
    rw [grow_position, position]
  · change filled.grow.capacity + filled.grow.blockSize * 1 =
      filled.grow.blockSize * (filled.grow.extend filled.grow.cur 1).chain.length
    rw [final, grow_capacity, grow_blockSize, blockSize, capacity]
    omega
  · change (filled.grow.extend filled.grow.cur 1).chain.length =
      blocks filled.grow.blockSize bytes.length + 1
    rw [final, grow_blockSize, blockSize, count_eq]
  · change filled.grow.cur + 1 + 1 = (filled.grow.extend filled.grow.cur 1).chain.length
    rw [final, grow_cur, current]
  · intro index
    change (filled.grow.extend filled.grow.cur 1).cell index = _
    rw [cell_extend_cut Nat.one_ne_zero reached, grow_blockSize, grow_cur, blockSize,
      cell_congr (grow_chain filled) (grow_blockSize filled), stored.cell, empty, cell_new,
      extend_position]
    change (if _ then if 0 ≤ index ∧ index < 0 + bytes.length then bytes[index - 0]? else none
      else none) = _
    rw [Nat.sub_zero, Nat.zero_add]
    rcases Nat.lt_or_ge index bytes.length with inside | outside
    · rw [if_pos (by omega), if_pos ⟨Nat.zero_le _, inside⟩]
    · rw [List.getElem?_eq_none outside]
      split <;> simp

theorem write_new {blockSize : Nat} {bytes : List UInt8} (nonempty : bytes ≠ []) :
    ∃ next, write bytes (new blockSize) = .ok () next ∧ Loaded blockSize next bytes := by
  rcases Nat.eq_zero_or_pos blockSize with rfl | positive
  · exact write_new_zero nonempty
  · exact loaded_write (loaded_new positive) (Nat.dvd_zero _) nonempty

/-! ## All writes -/

theorem forM_cons_ok {bytes : List UInt8} {writes : List (List UInt8)} {array next : ByteArray}
    (first : write bytes array = .ok () next) :
    (bytes :: writes).forM write array = writes.forM write next := by
  change EStateM.bind (write bytes) (fun _ => writes.forM write) array = _
  rw [EStateM.bind, first]

theorem forM_cons_error {bytes : List UInt8} {writes : List (List UInt8)}
    {array next : ByteArray} {failure : Failure} (first : write bytes array = .error failure next) :
    (bytes :: writes).forM write array = .error failure next := by
  change EStateM.bind (write bytes) (fun _ => writes.forM write) array = _
  rw [EStateM.bind, first]

/-- Every write but the last fills its blocks. -/
def FillsBlocks (blockSize : Nat) (writes : List (List UInt8)) : Prop :=
  ∀ bytes ∈ writes.dropLast, blockSize ∣ bytes.length

theorem fillsBlocks_cons {blockSize : Nat} {first second : List UInt8}
    {rest : List (List UInt8)} :
    FillsBlocks blockSize (first :: second :: rest) ↔
      blockSize ∣ first.length ∧ FillsBlocks blockSize (second :: rest) := by
  simp [FillsBlocks]

theorem fillsBlocks_append {blockSize : Nat} {data bytes : List UInt8}
    (aligned : blockSize ∣ data.length) (rest : List (List UInt8)) :
    FillsBlocks blockSize ((data ++ bytes) :: rest) ↔ FillsBlocks blockSize (bytes :: rest) := by
  cases rest with
  | nil => simp [FillsBlocks]
  | cons second rest =>
      rw [fillsBlocks_cons, fillsBlocks_cons, List.length_append, Nat.dvd_add_right aligned]

theorem loaded_writes : ∀ {blockSize : Nat} {array : ByteArray} {data : List UInt8}
    (writes : List (List UInt8)), Loaded blockSize array data →
    (∀ bytes ∈ writes, bytes ≠ []) → FillsBlocks array.blockSize (data :: writes) →
    ∃ written, writes.forM write array = .ok ⟨⟩ written ∧
      Loaded blockSize written (data ++ writes.flatten)
  | _, array, data, [], loaded, _, _ =>
      ⟨array, rfl, by rwa [List.flatten_nil, List.append_nil]⟩
  | _, array, data, bytes :: rest, loaded, nonempty, fills => by
      rcases fillsBlocks_cons.mp fills with ⟨aligned, rest_fills⟩
      rcases loaded_write loaded aligned (nonempty bytes List.mem_cons_self)
        with ⟨next, done, appended⟩
      have blockSize : next.blockSize = array.blockSize :=
        appended.blockSize.trans loaded.blockSize.symm
      rcases loaded_writes rest appended
        (fun later member => nonempty later (List.mem_cons_of_mem _ member))
        (by rwa [blockSize, fillsBlocks_append aligned]) with ⟨written, run, whole⟩
      refine ⟨written, by rw [forM_cons_ok done, run], ?_⟩
      rwa [List.append_assoc, ← List.flatten_cons] at whole

/-- Otherwise writes that go through leave a byte of the data unwritten. -/
theorem gap_of_writes : ∀ {blockSize : Nat} {array written : ByteArray} {data : List UInt8}
    (writes : List (List UInt8)), Loaded blockSize array data →
    (∀ bytes ∈ writes, bytes ≠ []) → ¬FillsBlocks array.blockSize (data :: writes) →
    writes.forM write array = .ok ⟨⟩ written →
    ∃ index < (data ++ writes.flatten).length, written.cell index = none
  | _, _, _, _, [], _, _, gap, _ => absurd (by simp [FillsBlocks]) gap
  | _, array, written, data, bytes :: rest, loaded, nonempty, gap, run => by
      have bytes_nonempty := nonempty bytes List.mem_cons_self
      by_cases aligned : array.blockSize ∣ data.length
      · rcases loaded_write loaded aligned bytes_nonempty with ⟨next, done, appended⟩
        have blockSize : next.blockSize = array.blockSize :=
          appended.blockSize.trans loaded.blockSize.symm
        rw [forM_cons_ok done] at run
        rcases gap_of_writes rest appended
          (fun later member => nonempty later (List.mem_cons_of_mem _ member))
          (by
            rw [blockSize, fillsBlocks_append aligned]
            exact fun fills => gap (fillsBlocks_cons.mpr ⟨aligned, fills⟩))
          run with ⟨index, inside, unwritten⟩
        refine ⟨index, ?_, unwritten⟩
        rwa [List.append_assoc, ← List.flatten_cons] at inside
      · rcases loaded_write_misaligned loaded aligned bytes_nonempty
          with ⟨failure, failed, refused⟩ | ⟨skipped, went, behind, unwritten⟩
        · rw [forM_cons_error refused] at run
          cases run
        · rw [forM_cons_ok went] at run
          cases rest with
          | nil =>
              cases run
              refine ⟨_, ?_, unwritten⟩
              have more := List.length_pos_iff.mpr bytes_nonempty
              simp only [List.flatten_cons, List.length_append]
              omega
          | cons second rest =>
              rcases write_behind behind (nonempty second (by simp))
                with ⟨failure, failed, refused⟩
              rw [forM_cons_error refused] at run
              cases run

theorem readEach_eq : ∀ (sizes : List Nat) {array : ByteArray} {position : Nat},
    position + sizes.sum ≤ array.totalSize →
    (position + sizes.sum) / array.blockSize < array.chain.length →
    readEach sizes (array.seek position) =
      .ok (array.slice position sizes.sum) (array.seek (position + sizes.sum))
  | [], array, position, _, _ => rfl
  | size :: sizes, array, position, present, reached => by
      rw [List.sum_cons] at present reached ⊢
      rw [← Nat.add_assoc] at present reached
      have first := @read_eq array position size (by omega)
        (Nat.lt_of_le_of_lt (Nat.div_le_div_right (by omega)) reached)
      have rest := readEach_eq sizes present reached
      simp only [readEach, bind, EStateM.bind, first, rest, pure, EStateM.pure, slice_append,
        Nat.add_assoc]

/-- Data of the size the array says can be read back in every way. -/
theorem loaded_readsBack {blockSize : Nat} {writes : List (List UInt8)} {written : ByteArray}
    (run : writes.forM write (new blockSize) = .ok ⟨⟩ written)
    (totalSize : written.totalSize = writes.flatten.length)
    (position : written.position = writes.flatten.length)
    (held : writes.flatten.length / written.blockSize < written.chain.length)
    (cells : ∀ index, written.cell index = writes.flatten[index]?) :
    ReadsBack blockSize writes := by
  have start : 0 / written.blockSize < written.chain.length := by
    rw [Nat.zero_div]
    exact written.chain_pos
  have whole : written.slice 0 writes.flatten.length = writes.flatten.map some :=
    slice_eq_map fun index _ => cells index
  refine ⟨written, written.seek 0, run, position,
    setPosition_eq (Nat.zero_le _) (Nat.zero_le _) start, totalSize, ?_, ?_⟩
  · have readable : (written.seek 0).getReadableSize = writes.flatten.length := totalSize
    rw [dump, readable]
    split
    · rename_i empty
      rw [List.length_eq_zero_iff.mp empty]
      rfl
    · rw [← whole]
      exact @readAt_eq (written.seek 0) _ 0 (by rw [← totalSize]; rfl) (by rwa [Nat.zero_add])
  · intro sizes sum
    have read := @readEach_eq sizes written 0 (by rw [sum, totalSize, Nat.zero_add])
      (by rwa [sum, Nat.zero_add])
    rw [sum, whole] at read
    exact ⟨_, read, read_beyond (by omega) (by omega)⟩

theorem ReadsBack.totalSize {blockSize : Nat} {writes : List (List UInt8)}
    (reads : ReadsBack blockSize writes) (written : ByteArray)
    (run : writes.forM write (new blockSize) = .ok ⟨⟩ written) :
    written.totalSize = writes.flatten.length := by
  rcases reads with ⟨_, home, same, position, moved, readable, _⟩
  rw [run] at same
  cases same
  rw [setPosition_eq (Nat.zero_le _) (Nat.zero_le _)
    (by rw [Nat.zero_div]; exact written.chain_pos)] at moved
  cases moved
  exact readable

theorem ReadsBack.cell {blockSize : Nat} {writes : List (List UInt8)}
    (reads : ReadsBack blockSize writes) (written : ByteArray)
    (run : writes.forM write (new blockSize) = .ok ⟨⟩ written) {index : Nat}
    (inside : index < writes.flatten.length) :
    written.cell index = writes.flatten[index]? := by
  rcases reads with ⟨_, home, same, position, moved, readable, dumped, _⟩
  rw [run] at same
  cases same
  rw [setPosition_eq (Nat.zero_le _) (Nat.zero_le _)
    (by rw [Nat.zero_div]; exact written.chain_pos)] at moved
  cases moved
  rw [dump, if_neg (by omega), readable] at dumped
  have found := @getElem?_slice written 0 _ _ inside
  have same : writes.flatten.map some = written.slice 0 writes.flatten.length :=
    @readAt_ok (written.seek 0) _ 0 _ dumped
  rw [← same, Nat.zero_add, List.getElem?_map, List.getElem?_eq_getElem inside] at found
  rw [List.getElem?_eq_getElem inside]
  exact (Option.some.inj found).symm

/-- Exactly the data that is not shorter than the first block and of which every write but
the last fills its blocks can be read back. -/
theorem readsBack_iff (blockSize : Nat) (writes : List (List UInt8))
    (nonempty : ∀ bytes ∈ writes, bytes ≠ []) :
    ReadsBack blockSize writes ↔
      blockSize ≤ writes.flatten.length ∧ FillsBlocks (new blockSize).blockSize writes := by
  constructor
  · intro reads
    have total := reads.totalSize
    cases writes with
    | nil => exact ⟨by simpa [new] using total _ rfl, by simp [FillsBlocks]⟩
    | cons first rest =>
        rcases write_new (nonempty first List.mem_cons_self) with ⟨next, done, loaded⟩
        have rest_nonempty : ∀ bytes ∈ rest, bytes ≠ [] :=
          fun bytes member => nonempty bytes (List.mem_cons_of_mem _ member)
        rw [← loaded.blockSize]
        by_cases fills : FillsBlocks next.blockSize (first :: rest)
        · rcases loaded_writes rest loaded rest_nonempty fills with ⟨written, run, whole⟩
          rw [← List.flatten_cons] at whole
          have covers := whole.totalSize
          rw [total written (by rw [forM_cons_ok done, run])] at covers
          exact ⟨by omega, fills⟩
        · have went := reads
          rcases went with ⟨written, home, run, _⟩
          have rest_run := run
          rw [forM_cons_ok done] at rest_run
          rcases gap_of_writes rest loaded rest_nonempty fills rest_run
            with ⟨index, inside, unwritten⟩
          rw [← List.flatten_cons] at inside
          rw [reads.cell written run inside, List.getElem?_eq_getElem inside] at unwritten
          cases unwritten
  · rintro ⟨covers, fills⟩
    cases writes with
    | nil =>
        cases Nat.le_zero.mp covers
        exact loaded_readsBack rfl rfl rfl (by decide) fun index => cell_new 0 index
    | cons first rest =>
        rcases @write_new blockSize first (nonempty first List.mem_cons_self)
          with ⟨next, done, loaded⟩
        rw [← loaded.blockSize] at fills
        rcases loaded_writes rest loaded
          (fun later member => nonempty later (List.mem_cons_of_mem _ member)) fills
          with ⟨written, run, whole⟩
        rw [← List.flatten_cons] at whole
        have length := whole.length
        have total := whole.totalSize
        rw [Nat.max_eq_right covers] at total
        refine loaded_readsBack (by rw [forM_cons_ok done, run]) total whole.position ?_ whole.cell
        have last := div_le_blocks written.blockSize_pos (first :: rest).flatten.length
        omega

/-- Four bytes in two writes to blocks of four: the second write goes to the second
block. -/
theorem not_readsBack_two_writes : ¬ReadsBack 4 [[1], [2, 3, 4]] := by
  intro reads
  have second := @ReadsBack.cell 4 [[1], [2, 3, 4]] reads _ rfl 1 (by decide)
  exact absurd second (by decide)

theorem readsBack_two_blocks : ReadsBack 1 [[1], [2]] :=
  (readsBack_iff 1 [[1], [2]] (by decide)).mpr ⟨by decide, by unfold FillsBlocks; decide⟩

end ByteArray

end FiberNet
