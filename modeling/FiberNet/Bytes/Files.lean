import FiberNet.Bytes.Overwrite
import FiberNet.Bytes.ReadBack

/-! # Files

`loadFromFile` appends a file block by block. `dumpToFile` leaves a node after every piece
it writes, also after the last one.
-/

namespace FiberNet

namespace ByteArray

/-- The loop of `loadFromFile`. The stream is at its end once it gives less than asked for. -/
def loadLoop : (turns : Nat) → (rest : List UInt8) → ByteArrayM Unit
  | 0, _ => return
  | turns + 1, rest => do
      let blockSize := (← get).blockSize
      write (rest.take blockSize)
      if rest.length < blockSize then
        return
      loadLoop turns (rest.drop blockSize)

/-- `file` is the content, unless the file cannot be opened. -/
def loadFromFile (file : Option (List UInt8)) : ByteArrayM Bool := do
  match file with
  | none => return false
  | some content =>
      loadLoop (content.length + 1) content
      return true

/-- The loop of `dumpToFile`. `file` holds what has been written. -/
def dumpLoop (array : ByteArray) : (turns cur size pos : Nat) →
    (file : List (Option UInt8)) → List (Option UInt8) × Except Failure Bool
  | 0, _, _, _, file => (file, .ok true)
  | turns + 1, cur, size, pos, file =>
      if size = 0 then (file, .ok true)
      else
        match array.chain[cur]? with
        | none => (file, .error .nullPointer)
        | some block =>
            let rm := array.blockSize - pos % array.blockSize
            let nblockPos := pos % array.blockSize
            let nwrite := min rm size
            let file := file ++ block.load nblockPos nwrite
            if cur + 1 ≥ array.chain.length then (file, .error .logicError)
            else dumpLoop array turns (cur + 1) (size - nwrite) (pos + nwrite) file

/-- The new content of the file, if it has been opened, and what is returned. -/
def dumpToFile (array : ByteArray) (opens : Bool) :
    Option (List (Option UInt8)) × Except Failure Bool :=
  if array.position = array.totalSize then (none, .ok true)
  else if opens then
    let (file, result) := array.dumpLoop array.getReadableSize array.cur
      array.getReadableSize array.position []
    (some file, result)
  else (none, .ok false)

/-! ## Loading -/

/-- The array holds `content` and its cursor is behind it, in the last node. -/
structure Appended (array : ByteArray) (content : List UInt8) : Prop
    extends Filled array content where
  position : array.position = content.length
  cur : array.cur + 1 = array.chain.length

theorem appended_clear (array : ByteArray) : Appended array.clear [] := by
  have root : array.clear.chain.length = 1 := by
    have nonempty := array.chain_pos
    simp only [clear, List.length_take]
    omega
  refine ⟨⟨rfl, ?_, ?_, ?_⟩, rfl, root.symm⟩
  · rw [root, Nat.mul_one]
    rfl
  · rw [root, nodes, List.length_nil, blocks_zero array.clear.blockSize_pos]
  · intro index inside
    exact absurd inside (Nat.not_lt_zero index)

theorem appended_write {array : ByteArray} {content bytes : List UInt8}
    (appended : Appended array content) (aligned : array.blockSize ∣ content.length)
    (nonempty : bytes ≠ []) :
    ∃ next, write bytes array = .ok () next ∧ Appended next (content ++ bytes) ∧
      next.blockSize = array.blockSize := by
  have cur := appended.cur
  have length := appended.length
  rw [nodes, blocks_aligned array.blockSize_pos aligned] at length
  have current : array.cur = array.position / array.blockSize := by
    rw [appended.position]
    omega
  rcases write_written nonempty current (by omega) appended.capacity (.inr cur)
    with ⟨next, done, written⟩
  rcases written.behind nonempty current cur with ⟨nodes_next, cur_next⟩
  refine ⟨next, done, ⟨⟨?_, written.capacity, ?_, ?_⟩, ?_, cur_next⟩, written.blockSize⟩
  · rw [written.totalSize, appended.totalSize, appended.position, List.length_append]
    omega
  · rw [nodes_next, appended.position, nodes, List.length_append, written.blockSize]
  · intro index inside
    rw [written.cell, appended.position, ← getElem?_appended]
    split
    · rfl
    · rename_i outside
      apply appended.cell
      rw [List.length_append] at inside
      omega
  · rw [written.position, appended.position, List.length_append]

theorem loadLoop_succ {turns : Nat} {rest : List UInt8} {array next : ByteArray}
    (first : write (rest.take array.blockSize) array = .ok () next) :
    loadLoop (turns + 1) rest array =
      if rest.length < array.blockSize then .ok () next
      else loadLoop turns (rest.drop array.blockSize) next := by
  simp only [loadLoop, ByteArrayM.get_run, bind, EStateM.bind, first]
  split <;> rfl

/-- The pieces before the last one fill their blocks. -/
theorem appended_loadLoop (turns : Nat) : ∀ {rest content : List UInt8} {array : ByteArray},
    rest.length < turns → Appended array content → array.blockSize ∣ content.length →
    ∃ next, loadLoop turns rest array = .ok () next ∧ Appended next (content ++ rest) := by
  induction turns with
  | zero =>
      intro rest content array enough
      omega
  | succ turns ih =>
      intro rest content array enough appended aligned
      have positive := array.blockSize_pos
      cases rest with
      | nil =>
          have done : write (([] : List UInt8).take array.blockSize) array = .ok () array := by
            rw [List.take_nil]
            exact write_nil array
          refine ⟨array, ?_, by rwa [List.append_nil]⟩
          rw [loadLoop_succ done]
          exact if_pos positive
      | cons byte rest =>
          have piece : (byte :: rest).take array.blockSize ≠ [] := by
            rw [ne_eq, List.take_eq_nil_iff]
            simp only [reduceCtorEq, or_false]
            omega
          rcases appended_write appended aligned piece with ⟨next, done, further, same⟩
          rw [loadLoop_succ done]
          split
          · rename_i short
            rw [List.take_of_length_le (Nat.le_of_lt short)] at further
            exact ⟨next, rfl, further⟩
          · rename_i full
            have whole : ((byte :: rest).take array.blockSize).length = array.blockSize := by
              rw [List.length_take]
              omega
            have shorter : ((byte :: rest).drop array.blockSize).length < turns := by
              rw [List.length_drop]
              omega
            have still : next.blockSize ∣
                (content ++ (byte :: rest).take array.blockSize).length := by
              rw [List.length_append, whole, same]
              exact Nat.dvd_add aligned (Nat.dvd_refl _)
            rcases ih shorter further still with ⟨last, looped, final⟩
            rw [List.append_assoc, List.take_append_drop] at final
            exact ⟨last, looped, final⟩

theorem loadFromFile_clear (array : ByteArray) (content : List UInt8) :
    ∃ loaded, loadFromFile (some content) array.clear = .ok true loaded ∧
      Appended loaded content := by
  rcases appended_loadLoop (content.length + 1) (Nat.lt_succ_self content.length)
    (appended_clear array) (Nat.dvd_zero _) with ⟨loaded, looped, appended⟩
  refine ⟨loaded, ?_, appended⟩
  simp only [loadFromFile, bind, EStateM.bind, looped]
  rfl

/-! ## Dumping -/

/-- There is a node behind the last byte to be written. -/
theorem dumpLoop_eq (array : ByteArray) (turns : Nat) : ∀ {cur size pos : Nat}
    {file : List (Option UInt8)}, size ≤ turns → (size ≠ 0 → cur = pos / array.blockSize) →
    (size ≠ 0 → (pos + size - 1) / array.blockSize + 1 < array.chain.length) →
    array.dumpLoop turns cur size pos file = (file ++ array.slice pos size, .ok true) := by
  induction turns with
  | zero =>
      intro cur size pos file enough current behind
      rw [Nat.le_zero.mp enough, slice_zero, List.append_nil]
      rfl
  | succ turns ih =>
      intro cur size pos file enough current behind
      have positive := array.blockSize_pos
      have below := Nat.mod_lt pos positive
      unfold dumpLoop
      split
      · rename_i done
        rw [done, slice_zero, List.append_nil]
      · rename_i more
        have last := behind more
        have start : pos / array.blockSize ≤ (pos + size - 1) / array.blockSize :=
          Nat.div_le_div_right (by omega)
        have found := List.getElem?_eq_getElem
          (show pos / array.blockSize < array.chain.length by omega)
        rw [current more]
        simp only [found]
        rw [load_eq found (by omega), if_neg (by omega)]
        generalize taken : min (array.blockSize - pos % array.blockSize) size = count
        have rest : pos + count + (size - count) = pos + size := by omega
        rw [ih (by omega), List.append_assoc, slice_append, Nat.add_sub_cancel' (by omega)]
        · intro further
          have full : count = array.blockSize - pos % array.blockSize := by omega
          rw [full, next_block positive]
        · intro further
          rwa [rest]

theorem dumpToFile_eq {array : ByteArray} (readable : array.position < array.totalSize)
    (current : array.cur = array.position / array.blockSize)
    (behind : (array.totalSize - 1) / array.blockSize + 1 < array.chain.length) :
    array.dumpToFile true =
      (some (array.slice array.position array.getReadableSize), .ok true) := by
  have whole : array.position + array.getReadableSize = array.totalSize :=
    Nat.add_sub_cancel' (Nat.le_of_lt readable)
  have looped := @dumpLoop_eq array array.getReadableSize array.cur array.getReadableSize
    array.position [] (Nat.le_refl _) (fun _ => current) (fun _ => by rwa [whole])
  rw [dumpToFile, if_neg (Nat.ne_of_lt readable), if_pos rfl, looped, List.nil_append]

/-! ## Load and dump -/

/-- A file that is loaded comes out as it was. -/
structure FileKept (content : List UInt8) (loaded home : ByteArray) : Prop where
  position : loaded.position = content.length
  totalSize : loaded.totalSize = content.length
  start : setPosition 0 loaded = .ok () home
  dump : home.dump = .ok (content.map some)
  read : ∃ done, read content.length home = .ok (content.map some) done
  dumpToFile : content ≠ [] → home.dumpToFile true = (some (content.map some), .ok true)

theorem file_kept (array : ByteArray) (content : List UInt8) :
    ∃ loaded home, loadFromFile (some content) array.clear = .ok true loaded ∧
      FileKept content loaded home := by
  rcases loadFromFile_clear array content with ⟨loaded, done, appended⟩
  have positive := loaded.blockSize_pos
  have length := appended.length
  rw [nodes] at length
  have slice := slice_eq_map appended.cell
  have readable : (loaded.seek 0).getReadableSize = content.length := appended.totalSize
  have behind : content.length / loaded.blockSize < loaded.chain.length := by
    have few := div_le_blocks positive content.length
    omega
  refine ⟨loaded, loaded.seek 0, done, appended.position, appended.totalSize, ?_, ?_, ?_, ?_⟩
  · apply setPosition_eq (Nat.zero_le _) (Nat.zero_le _)
    rw [Nat.zero_div]
    exact loaded.chain_pos
  · rw [ByteArray.dump, readable]
    split
    · rename_i empty
      rw [List.length_eq_zero_iff.mp empty]
      rfl
    · rw [readAt_eq (Nat.le_of_eq readable.symm) (by
        change (0 + content.length) / loaded.blockSize < loaded.chain.length
        rwa [Nat.zero_add])]
      exact congrArg Except.ok slice
  · refine ⟨loaded.seek (0 + content.length), ?_⟩
    rw [read_eq (by rw [appended.totalSize, Nat.zero_add]) (by rwa [Nat.zero_add]), slice]
  · intro nonempty
    have more := List.length_pos_iff.mpr nonempty
    have last := @blocks_eq_last loaded.blockSize content.length positive more
    rw [dumpToFile_eq, readable]
    · exact congrArg (fun file => (some file, Except.ok true)) slice
    · change 0 < loaded.totalSize
      rwa [appended.totalSize]
    · rfl
    · change (loaded.totalSize - 1) / loaded.blockSize + 1 < loaded.chain.length
      rw [appended.totalSize]
      omega

end ByteArray

end FiberNet
