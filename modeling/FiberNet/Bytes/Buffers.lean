import FiberNet.Bytes.Blocks
import Mathlib.Data.List.Nodup
import Mathlib.Data.List.Range

/-! # Segments of a ByteArray

What `recv` and `send` are given: parts of the buffers of the nodes. A list of segments is a
window if it shows the bytes of a range of positions, each once and in order.
-/

namespace FiberNet

/-- `len` bytes of the buffer of the node number `node`, from `base` on. -/
structure Iovec where
  node : Nat
  base : Nat
  len : Nat
  deriving DecidableEq, Repr

namespace Iovec

/-- The positions of the bytes. -/
def positions (blockSize : Nat) (iov : Iovec) : List Nat :=
  List.range' (blockSize * iov.node + iov.base) iov.len

/-- No byte belongs to both. -/
def Disjoint (iov other : Iovec) : Prop :=
  ∀ offset, ¬(iov.node = other.node ∧
    iov.base ≤ offset ∧ offset < iov.base + iov.len ∧
    other.base ≤ offset ∧ offset < other.base + other.len)

end Iovec

namespace ByteArray

/-- The bytes that `send` takes from the segments. -/
def gather (array : ByteArray) (buffers : List Iovec) : List (Option UInt8) :=
  buffers.flatMap fun iov =>
    match array.chain[iov.node]? with
    | none => []
    | some block => block.load iov.base iov.len

/-- `recv` fills one segment after the other. -/
def fill : (buffers : List Iovec) → (data : List UInt8) → ByteArray → ByteArray
  | [], _, array => array
  | iov :: rest, data, array =>
      fill rest (data.drop iov.len)
        { array with
          chain := array.chain.modify iov.node (·.store iov.base (data.take iov.len))
          chain_pos := by simpa using array.chain_pos }

/-- The segments lie in the nodes and are the bytes at `size` positions from `start` on. -/
structure Window (array : ByteArray) (start size : Nat) (buffers : List Iovec) : Prop where
  inside : ∀ iov ∈ buffers, iov.node < array.chain.length ∧
    iov.base + iov.len ≤ array.blockSize
  positions : buffers.flatMap (Iovec.positions array.blockSize) = List.range' start size

/-! ## Windows -/

/-- How a range of positions begins. -/
theorem range'_eq_append_iff {first len start size : Nat} {rest : List Nat} :
    List.range' first len ++ rest = List.range' start size ↔
      len ≤ size ∧ (len ≠ 0 → first = start) ∧
        rest = List.range' (start + len) (size - len) := by
  have split (fits : len ≤ size) : List.range' start size =
      List.range' start len ++ List.range' (start + len) (size - len) := by
    rw [List.range'_append_1, Nat.add_sub_cancel' fits]
  constructor
  · intro whole
    have lengths := congrArg List.length whole
    simp only [List.length_append, List.length_range'] at lengths
    have fits : len ≤ size := by omega
    rw [split fits] at whole
    rcases List.append_inj whole (by simp) with ⟨head, tail⟩
    refine ⟨fits, fun some => ?_, tail⟩
    cases len with
    | zero => exact absurd rfl some
    | succ len =>
        simp only [List.range'_succ, List.cons.injEq] at head
        exact head.1
  · rintro ⟨fits, starts, tail⟩
    rw [split fits, tail]
    cases len with
    | zero => rfl
    | succ len => rw [starts (Nat.succ_ne_zero len)]

theorem window_nil (array : ByteArray) (start : Nat) : array.Window start 0 [] :=
  ⟨fun _ member => absurd member List.not_mem_nil, rfl⟩

theorem window_cons_iff {array : ByteArray} {start size : Nat} {iov : Iovec}
    {rest : List Iovec} :
    array.Window start size (iov :: rest) ↔
      (iov.node < array.chain.length ∧ iov.base + iov.len ≤ array.blockSize) ∧
      iov.len ≤ size ∧ (iov.len ≠ 0 → array.blockSize * iov.node + iov.base = start) ∧
      array.Window (start + iov.len) (size - iov.len) rest := by
  constructor
  · rintro ⟨inside, positions⟩
    rw [List.flatMap_cons, Iovec.positions, range'_eq_append_iff] at positions
    rcases positions with ⟨fits, starts, tail⟩
    exact ⟨inside iov List.mem_cons_self, fits, starts,
      fun other member => inside other (List.mem_cons_of_mem iov member), tail⟩
  · rintro ⟨head, fits, starts, inside, tail⟩
    refine ⟨List.forall_mem_cons.mpr ⟨head, inside⟩, ?_⟩
    rw [List.flatMap_cons, Iovec.positions, range'_eq_append_iff]
    exact ⟨fits, starts, tail⟩

/-- Where in its block the byte at a position lies. -/
theorem place_of_position {blockSize node base start : Nat}
    (place : blockSize * node + base = start) (within : base < blockSize) :
    node = start / blockSize ∧ base = start % blockSize := by
  subst place
  rw [Nat.mul_add_div (by omega), Nat.mul_add_mod, Nat.div_eq_of_lt within,
    Nat.mod_eq_of_lt within]
  exact ⟨rfl, rfl⟩

theorem Window.length {array : ByteArray} {start size : Nat} {buffers : List Iovec}
    (window : array.Window start size buffers) : (buffers.map (·.len)).sum = size := by
  have lengths := congrArg List.length window.positions
  simpa [List.length_flatMap, Iovec.positions] using lengths

/-- The same byte has the same position. -/
theorem Window.disjoint {array : ByteArray} {start size : Nat} {buffers : List Iovec}
    (window : array.Window start size buffers) : buffers.Pairwise Iovec.Disjoint := by
  have nodup : (buffers.flatMap (Iovec.positions array.blockSize)).Nodup := by
    rw [window.positions]
    exact List.nodup_range'
  apply (List.nodup_flatMap.mp nodup).2.imp
  rintro iov other apart offset ⟨node, above, below, above', below'⟩
  have member : array.blockSize * iov.node + offset ∈ iov.positions array.blockSize := by
    rw [Iovec.positions, List.mem_range'_1]
    omega
  have member' : array.blockSize * iov.node + offset ∈ other.positions array.blockSize := by
    rw [Iovec.positions, List.mem_range'_1, node]
    omega
  exact apart member member'

/-- What a window shows. -/
theorem Window.gather {array : ByteArray} {start size : Nat} {buffers : List Iovec}
    (window : array.Window start size buffers) :
    array.gather buffers = array.slice start size := by
  induction buffers generalizing start size with
  | nil =>
      have none := window.length
      rw [← none]
      rfl
  | cons iov rest induction =>
      rcases window_cons_iff.mp window with ⟨⟨node, base⟩, fits, starts, tail⟩
      have found := List.getElem?_eq_getElem node
      have head : (array.chain[iov.node]).load iov.base iov.len = array.slice start iov.len := by
        rcases Nat.eq_zero_or_pos iov.len with none | some
        · rw [none]
          rfl
        · rcases place_of_position (starts (by omega)) (by omega) with ⟨node_eq, base_eq⟩
          rw [base_eq] at base ⊢
          apply load_eq _ base
          rw [← node_eq, found]
      have more : array.gather (iov :: rest) =
          (array.chain[iov.node]).load iov.base iov.len ++ array.gather rest := by
        simp only [ByteArray.gather, List.flatMap_cons, found]
      rw [more, head, induction tail, slice_append, Nat.add_sub_cancel' fits]

/-! ## Filling a window -/

/-- What `recv` changes: the bytes of the window, from its start on. -/
structure Received (array next : ByteArray) (start : Nat) (data : List UInt8) : Prop where
  totalSize : next.totalSize = array.totalSize
  blockSize : next.blockSize = array.blockSize
  position : next.position = array.position
  capacity : next.capacity = array.capacity
  cur : next.cur = array.cur
  length : next.chain.length = array.chain.length
  cell : ∀ index, next.cell index =
    if start ≤ index ∧ index < start + data.length then data[index - start]?
    else array.cell index

/-- One segment. An empty one takes nothing. -/
theorem cell_store {array next : ByteArray} {iov : Iovec} {start : Nat} {bytes : List UInt8}
    (chain : next.chain = array.chain.modify iov.node (·.store iov.base bytes))
    (blockSize : next.blockSize = array.blockSize)
    (node : iov.node < array.chain.length) (fits : bytes.length ≤ iov.len)
    (base : iov.base + iov.len ≤ array.blockSize)
    (starts : iov.len ≠ 0 → array.blockSize * iov.node + iov.base = start) (index : Nat) :
    next.cell index =
      if start ≤ index ∧ index < start + bytes.length then bytes[index - start]?
      else array.cell index := by
  rcases Nat.eq_zero_or_pos iov.len with none | some
  · have nil : bytes = [] := List.length_eq_zero_iff.mp (by omega)
    have same : (fun block : Block => block.store iov.base []) = id := by
      funext block offset
      rw [Block.store, List.length_nil, if_neg (by omega)]
      rfl
    subst nil
    rw [same, List.modify_id] at chain
    rw [List.length_nil, if_neg (by omega), cell_congr chain blockSize]
  · rcases place_of_position (starts (by omega)) (by omega) with ⟨node_eq, base_eq⟩
    rw [node_eq] at node
    have stored := @cell_put (array.seek start) bytes rfl node (by
      rw [base_eq] at base
      exact Nat.le_trans (Nat.add_le_add_left fits _) base) index
    rw [cell_seek] at stored
    have same : next.chain = ((array.seek start).put bytes).chain := by
      rw [chain, node_eq, base_eq]
      rfl
    rw [cell_congr same blockSize]
    exact stored

theorem fill_received {array : ByteArray} {start size : Nat} {buffers : List Iovec}
    {data : List UInt8} (window : array.Window start size buffers)
    (fits : data.length ≤ size) : Received array (fill buffers data array) start data := by
  induction buffers generalizing array start size data with
  | nil =>
      have none : size = 0 := window.length.symm
      have nil : data = [] := List.length_eq_zero_iff.mp (by omega)
      subst nil
      refine ⟨rfl, rfl, rfl, rfl, rfl, rfl, fun index => ?_⟩
      rw [List.length_nil, if_neg (by omega)]
      rfl
  | cons iov rest induction =>
      rcases window_cons_iff.mp window with ⟨⟨node, base⟩, within, starts, tail⟩
      let stored : ByteArray :=
        { array with
          chain := array.chain.modify iov.node (·.store iov.base (data.take iov.len))
          chain_pos := by simpa using array.chain_pos }
      have length : stored.chain.length = array.chain.length := List.length_modify ..
      have cells := @cell_store array stored iov start (data.take iov.len) rfl rfl node
        (List.length_take_le _ _) base starts
      have remaining : stored.Window (start + iov.len) (size - iov.len) rest := by
        constructor
        · rw [length]
          exact tail.inside
        · exact tail.positions
      have later := @induction stored _ _ (data.drop iov.len) remaining (by
        rw [List.length_drop]
        omega)
      refine ⟨later.totalSize, later.blockSize, later.position, later.capacity, later.cur,
        later.length.trans length, fun index => ?_⟩
      rw [fill, later.cell, cells, List.length_drop, List.length_take]
      by_cases behind : start + iov.len ≤ index
      · by_cases covered : index < start + data.length
        · rw [if_pos (by omega), if_pos (by omega), List.getElem?_drop]
          congr 1
          omega
        · rw [if_neg (by omega), if_neg (by omega), if_neg (by omega)]
      · rw [if_neg (by omega)]
        by_cases covered : start ≤ index ∧ index < start + data.length
        · rw [if_pos (by omega), if_pos covered, List.getElem?_take_of_lt (by omega)]
        · rw [if_neg (by omega), if_neg covered]

end ByteArray

end FiberNet
