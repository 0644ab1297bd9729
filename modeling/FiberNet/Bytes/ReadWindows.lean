import FiberNet.Bytes.Buffers

/-! # Read windows

`getReadBuffers` shows the bytes to send without copying them. The overload with a position
of its own starts in the node of the cursor all the same.
-/

namespace FiberNet

namespace ByteArray

/-- An `int` that is used as a `size_t`. -/
def narrow (count : Nat) : Nat :=
  if count % 2 ^ 32 < 2 ^ 31 then count % 2 ^ 32 else count % 2 ^ 32 + (2 ^ 64 - 2 ^ 32)

/-- The loop of both overloads. `nodes` is how many nodes there are from `cur` on. -/
def readBuffersLoop (blockSize : Nat) : (nodes cur size pos : Nat) →
    (buffers : List Iovec) → Except Failure (List Iovec)
  | 0, _, size, _, buffers => if size = 0 then .ok buffers else .error .nullPointer
  | nodes + 1, cur, size, pos, buffers =>
      if size = 0 then .ok buffers
      else
        let nblockPos := pos % blockSize
        let rm := blockSize - pos % blockSize
        let nread := narrow (min size rm)
        readBuffersLoop blockSize nodes (cur + 1) ((size + 2 ^ 64 - nread) % 2 ^ 64)
          ((pos + nread) % 2 ^ 64) (buffers ++ [⟨cur, nblockPos, nread⟩])

def getReadBuffers (array : ByteArray) (buffers : List Iovec) (size : Nat) :
    Except Failure (Nat × List Iovec) :=
  let size := if size > array.getReadableSize then array.getReadableSize else size
  if size = 0 then .ok (0, buffers)
  else
    (readBuffersLoop array.blockSize (array.chain.length - array.cur) array.cur size
      array.position buffers).map fun buffers => (size, buffers)

/-- The overload with a position: a request for too much is cut to what is readable from the
cursor on. -/
def getReadBuffersAt (array : ByteArray) (buffers : List Iovec) (size pos : Nat) :
    Except Failure (Nat × List Iovec) :=
  if pos ≥ array.totalSize then .ok (0, buffers)
  else
    let size := if size > array.totalSize - pos then array.getReadableSize else size
    if size = 0 then .ok (0, buffers)
    else
      (readBuffersLoop array.blockSize (array.chain.length - array.cur) array.cur size pos
        buffers).map fun buffers => (size, buffers)

/-- The current node is the one the cursor points into, and there are nodes for the data. -/
structure Consistent (array : ByteArray) : Prop where
  current : array.cur = array.position / array.blockSize
  reached : array.cur < array.chain.length
  readable : array.position ≤ array.totalSize
  covered : array.totalSize ≤ array.blockSize * array.chain.length
  total_word : array.totalSize < 2 ^ 64
  block_word : array.blockSize < 2 ^ 63

/-- How many of the bytes asked for there are. -/
def available (array : ByteArray) (size start : Nat) : Nat :=
  min size (array.totalSize - start)

/-- The segments appended are the bytes from `start` on, and the positional `read` returns
the same. -/
def Shows (array : ByteArray) (buffers : List Iovec) (size start : Nat)
    (result : Except Failure (Nat × List Iovec)) : Prop :=
  ∃ segments, result = .ok (array.available size start, buffers ++ segments) ∧
    array.Window start (array.available size start) segments ∧
    array.gather segments = array.slice start (array.available size start) ∧
    array.readAt (array.available size start) start = .ok (array.gather segments)

/-- Both overloads show the data. Nothing in the array changes, because they are `const`. -/
structure ReadWindows (array : ByteArray) (buffers : List Iovec) (size pos : Nat) :
    Prop where
  current : array.Shows buffers size array.position (array.getReadBuffers buffers size)
  positional : pos < array.totalSize →
    array.Shows buffers size pos (array.getReadBuffersAt buffers size pos)
  agree : pos = array.position →
    array.getReadBuffersAt buffers size pos = array.getReadBuffers buffers size
  dump : ∀ segments, array.getReadBuffers buffers size =
      .ok (array.getReadableSize, buffers ++ segments) →
    array.dump = .ok (array.gather segments)

/-- No node holds so much of the range that its length is no `int`. -/
def Narrow (blockSize start size : Nat) : Prop :=
  min size (blockSize - start % blockSize) < 2 ^ 31 ∧
    min (size - (blockSize - start % blockSize)) blockSize < 2 ^ 31

/-- The range is cut into segments of `int` length, and a node follows it. -/
def Showable (array : ByteArray) (start size : Nat) : Prop :=
  Narrow array.blockSize start size ∧
    (start + size) / array.blockSize < array.chain.length

instance (blockSize start size : Nat) : Decidable (Narrow blockSize start size) :=
  inferInstanceAs (Decidable (_ ∧ _))

instance (array : ByteArray) (start size : Nat) : Decidable (array.Showable start size) :=
  inferInstanceAs (Decidable (_ ∧ _))

/-! ## The loop -/

theorem narrow_eq {count : Nat} (fits : count < 2 ^ 31) : narrow count = count := by
  unfold narrow
  rw [if_pos (by omega)]
  omega

theorem narrow_eq_iff {count : Nat} (word : count < 2 ^ 63) :
    narrow count = count ↔ count < 2 ^ 31 := by
  constructor
  · intro kept
    unfold narrow at kept
    split at kept <;> omega
  · exact narrow_eq

theorem readBuffersLoop_appends {blockSize nodes cur size pos : Nat}
    {buffers result : List Iovec}
    (done : readBuffersLoop blockSize nodes cur size pos buffers = .ok result) :
    ∃ segments, result = buffers ++ segments := by
  induction nodes generalizing cur size pos buffers with
  | zero =>
      unfold readBuffersLoop at done
      split at done
      · cases done
        exact ⟨[], (List.append_nil result).symm⟩
      · cases done
  | succ nodes induction =>
      unfold readBuffersLoop at done
      split at done
      · cases done
        exact ⟨[], (List.append_nil result).symm⟩
      · rcases induction done with ⟨segments, same⟩
        exact ⟨_, same.trans (List.append_assoc ..)⟩

/-- The range behind the first block of a narrow one. -/
theorem narrow_rest {blockSize start size : Nat} (positive : 0 < blockSize)
    (more : blockSize - start % blockSize < size) :
    Narrow blockSize start size ↔
      blockSize - start % blockSize < 2 ^ 31 ∧
        Narrow blockSize (start + (blockSize - start % blockSize))
          (size - (blockSize - start % blockSize)) := by
  have parts := Nat.div_add_mod start blockSize
  have below := Nat.mod_lt start positive
  have aligned : (start + (blockSize - start % blockSize)) % blockSize = 0 := by
    have sum : start + (blockSize - start % blockSize) =
        blockSize * (start / blockSize + 1) := by
      rw [Nat.mul_succ]
      omega
    rw [sum, Nat.mul_mod_right]
  unfold Narrow
  rw [aligned]
  omega

/-- From the node of the position on, the loop appends a window. -/
theorem readBuffersLoop_window {array : ByteArray} {nodes cur size pos : Nat}
    {buffers : List Iovec} (some : 0 < size) (current : cur = pos / array.blockSize)
    (nodes_eq : cur + nodes = array.chain.length)
    (reached : (pos + size - 1) / array.blockSize < array.chain.length)
    (word : pos + size < 2 ^ 64) (slim : Narrow array.blockSize pos size) :
    ∃ segments, readBuffersLoop array.blockSize nodes cur size pos buffers =
        .ok (buffers ++ segments) ∧ array.Window pos size segments := by
  have positive := array.blockSize_pos
  induction nodes generalizing cur size pos buffers with
  | zero =>
      have here : pos / array.blockSize ≤ (pos + size - 1) / array.blockSize :=
        Nat.div_le_div_right (by omega)
      omega
  | succ nodes induction =>
      have below := Nat.mod_lt pos positive
      have parts := Nat.div_add_mod pos array.blockSize
      have kept := narrow_eq slim.1
      unfold readBuffersLoop
      rw [if_neg (by omega)]
      simp only [kept]
      generalize taken : min size (array.blockSize - pos % array.blockSize) = count at kept ⊢
      have rest_size : (size + 2 ^ 64 - count) % 2 ^ 64 = size - count := by omega
      have rest_pos : (pos + count) % 2 ^ 64 = pos + count := by omega
      rw [rest_size, rest_pos]
      have window (segments : List Iovec)
          (tail : array.Window (pos + count) (size - count) segments) :
          array.Window pos size (⟨cur, pos % array.blockSize, count⟩ :: segments) := by
        apply window_cons_iff.mpr
        simp only
        refine ⟨⟨by omega, by omega⟩, by omega, fun _ => ?_, tail⟩
        rw [current]
        exact parts
      by_cases last : size ≤ array.blockSize - pos % array.blockSize
      · have none : size - count = 0 := by omega
        have stops : readBuffersLoop array.blockSize nodes (cur + 1) (size - count)
            (pos + count) (buffers ++ [⟨cur, pos % array.blockSize, count⟩]) =
            .ok (buffers ++ [⟨cur, pos % array.blockSize, count⟩]) := by
          rw [none]
          cases nodes <;> rfl
        refine ⟨_, stops, window [] ?_⟩
        rw [none]
        exact window_nil array _
      · have whole : count = array.blockSize - pos % array.blockSize := by omega
        have next := @next_block array.blockSize pos positive
        rw [narrow_rest positive (by omega), ← whole] at slim
        rw [← whole, ← current] at next
        rcases @induction (cur + 1) (size - count) (pos + count)
            (buffers ++ [⟨cur, pos % array.blockSize, count⟩]) (by omega) next.symm (by omega)
            (by rwa [show pos + count + (size - count) - 1 = pos + size - 1 by omega])
            (by omega) slim.2 with ⟨segments, done, tail⟩
        refine ⟨⟨cur, pos % array.blockSize, count⟩ :: segments, ?_, window segments tail⟩
        rw [done, List.append_assoc, List.singleton_append]

/-- From another node, or with a length that is no `int`, it does not: what is left of the
range is then behind the node the loop goes on with. -/
theorem current_of_window {array : ByteArray} {nodes cur size pos : Nat}
    {buffers segments : List Iovec} (some : 0 < size) (word : pos + size < 2 ^ 64)
    (block_word : array.blockSize < 2 ^ 63)
    (done : readBuffersLoop array.blockSize nodes cur size pos buffers =
      .ok (buffers ++ segments)) (window : array.Window pos size segments) :
    cur = pos / array.blockSize ∧ Narrow array.blockSize pos size := by
  have positive := array.blockSize_pos
  induction nodes generalizing cur size pos buffers segments with
  | zero =>
      rw [readBuffersLoop, if_neg (by omega)] at done
      cases done
  | succ nodes induction =>
      have below := Nat.mod_lt pos positive
      have parts := Nat.div_add_mod pos array.blockSize
      unfold readBuffersLoop at done
      rw [if_neg (by omega)] at done
      simp only at done
      have kept := @narrow_eq_iff
        (min size (array.blockSize - pos % array.blockSize)) (by omega)
      generalize narrow (min size (array.blockSize - pos % array.blockSize)) = count
        at kept done
      rcases readBuffersLoop_appends done with ⟨rest, same⟩
      rw [same] at done
      rw [List.append_assoc, List.singleton_append, List.append_cancel_left_eq] at same
      subst same
      rcases window_cons_iff.mp window with ⟨⟨_, base⟩, fits, starts, tail⟩
      simp only at base fits starts tail
      have rest_size : (size + 2 ^ 64 - count) % 2 ^ 64 = size - count := by omega
      have rest_pos : (pos + count) % 2 ^ 64 = pos + count := by omega
      rw [rest_size, rest_pos] at done
      have here (taken : count ≠ 0) : cur = pos / array.blockSize :=
        (place_of_position (starts taken) below).1
      by_cases whole : count = min size (array.blockSize - pos % array.blockSize)
      · have int := kept.mp whole
        refine ⟨here (by omega), ?_⟩
        by_cases last : size ≤ array.blockSize - pos % array.blockSize
        · exact ⟨int, by omega⟩
        · have full : count = array.blockSize - pos % array.blockSize := by omega
          rw [narrow_rest positive (by omega), ← full]
          exact ⟨by omega, (induction (by omega) (by omega) done tail).2⟩
      · rcases induction (by omega) (by omega) done tail with ⟨further, slim⟩
        have stays : (pos + count) / array.blockSize = pos / array.blockSize := by
          apply Nat.div_eq_of_lt_le
          · rw [Nat.mul_comm]
            omega
          · rw [Nat.mul_comm, Nat.mul_succ]
            omega
        rcases Nat.eq_zero_or_pos count with none | taken
        · rw [none] at slim
          exact absurd (kept.mpr slim.1) whole
        · have there := here (by omega)
          omega

/-! ## Both overloads -/

/-- The copying reader wants a node behind what it reads. -/
theorem readAt_slice_iff {array : ByteArray} {size start : Nat}
    (present : size ≤ array.totalSize - start)
    (reached : start / array.blockSize < array.chain.length) :
    array.readAt size start = .ok (array.slice start size) ↔
      (start + size) / array.blockSize < array.chain.length := by
  constructor
  · intro returned
    rw [readAt, if_neg (by omega), if_neg (by omega),
      readAtLoop_eq array size size start [] (Nat.le_refl size) reached] at returned
    split at returned
    · assumption
    · cases returned
  · exact readAt_eq present

theorem available_le (array : ByteArray) (size start : Nat) :
    array.available size start ≤ array.totalSize - start :=
  Nat.min_le_right _ _

theorem Consistent.node {array : ByteArray} (consistent : array.Consistent) {index : Nat}
    (inside : index < array.totalSize) : index / array.blockSize < array.chain.length := by
  apply (Nat.div_lt_iff_lt_mul array.blockSize_pos).mpr
  rw [Nat.mul_comm]
  exact Nat.lt_of_lt_of_le inside consistent.covered

theorem showable_zero {array : ByteArray} {start : Nat}
    (reached : start / array.blockSize < array.chain.length) : array.Showable start 0 := by
  refine ⟨⟨?_, ?_⟩, reached⟩
  · rw [Nat.zero_min]
    exact Nat.two_pow_pos 31
  · rw [Nat.zero_sub, Nat.zero_min]
    exact Nat.two_pow_pos 31

/-- Nothing is asked for, or there is nothing. -/
theorem shows_nothing {array : ByteArray} {buffers : List Iovec} {size start : Nat}
    (none : array.available size start = 0)
    (reached : start / array.blockSize < array.chain.length) :
    array.Shows buffers size start (.ok (0, buffers)) := by
  unfold Shows
  rw [none]
  refine ⟨[], by rw [List.append_nil], window_nil array start, rfl, ?_⟩
  exact readAt_eq (Nat.zero_le _) reached

/-- A call that asks for what there is. -/
theorem shows_iff {array : ByteArray} (consistent : array.Consistent)
    (buffers : List Iovec) {size start count : Nat} (some : 0 < count)
    (all : array.available size start = count) :
    array.Shows buffers size start
        ((readBuffersLoop array.blockSize (array.chain.length - array.cur) array.cur count start
          buffers).map fun buffers => (count, buffers)) ↔
      array.cur = start / array.blockSize ∧ array.Showable start count := by
  have cur := consistent.reached
  have total := consistent.total_word
  have within : start + count ≤ array.totalSize := by
    have := array.available_le size start
    omega
  have first := @Consistent.node array consistent start (by omega)
  have last := @Consistent.node array consistent (start + count - 1) (by omega)
  have copied := @readAt_slice_iff array count start (by omega) first
  unfold Shows
  rw [all]
  constructor
  · rintro ⟨segments, returned, window, shown, read⟩
    cases looped : readBuffersLoop array.blockSize (array.chain.length - array.cur) array.cur
        count start buffers with
    | error failure =>
        rw [looped] at returned
        cases returned
    | ok result =>
        rw [looped] at returned
        simp only [Except.map, Except.ok.injEq, Prod.mk.injEq, true_and] at returned
        rw [returned] at looped
        have here := current_of_window some (by omega) consistent.block_word looped window
        rw [shown] at read
        exact ⟨here.1, here.2, copied.mp read⟩
  · rintro ⟨here, slim, behind⟩
    rcases @readBuffersLoop_window array (array.chain.length - array.cur) array.cur count start
        buffers some here (by omega) last (by omega) slim with ⟨segments, looped, window⟩
    have shown := window.gather
    refine ⟨segments, by rw [looped]; rfl, window, shown, ?_⟩
    rw [shown]
    exact copied.mpr behind

theorem getReadBuffers_shows_iff {array : ByteArray} (consistent : array.Consistent)
    (buffers : List Iovec) (size : Nat) :
    array.Shows buffers size array.position (array.getReadBuffers buffers size) ↔
      array.Showable array.position (array.available size array.position) := by
  have current := consistent.current
  have reached := consistent.reached
  have same : (if size > array.getReadableSize then array.getReadableSize else size) =
      array.available size array.position := by
    unfold available getReadableSize
    split <;> omega
  unfold getReadBuffers
  simp only [same]
  rw [current] at reached
  split
  · rename_i none
    have zero := showable_zero reached
    rw [← none] at zero
    exact iff_of_true (shows_nothing none reached) zero
  · rename_i some
    rw [shows_iff consistent buffers (Nat.pos_of_ne_zero some) rfl]
    exact and_iff_right current

theorem getReadBuffersAt_shows_iff {array : ByteArray} (consistent : array.Consistent)
    (buffers : List Iovec) {size pos : Nat} (inside : pos < array.totalSize) :
    array.Shows buffers size pos (array.getReadBuffersAt buffers size pos) ↔
      size = 0 ∨ pos / array.blockSize = array.position / array.blockSize ∧
        (size ≤ array.totalSize - pos ∨ pos = array.position) ∧
        array.Showable pos (array.available size pos) := by
  have readable := consistent.readable
  unfold getReadBuffersAt
  rw [if_neg (by omega)]
  simp only
  by_cases cut : size > array.totalSize - pos
  · rw [if_pos cut]
    have all : array.available size pos = array.totalSize - pos :=
      Nat.min_eq_right (Nat.le_of_lt cut)
    by_cases same : pos = array.position
    · have count : array.getReadableSize = array.totalSize - pos := by
        rw [getReadableSize, same]
      rw [count, if_neg (by omega), all, shows_iff consistent buffers (by omega) all,
        consistent.current]
      constructor
      · rintro ⟨here, showable⟩
        exact .inr ⟨here.symm, .inr same, showable⟩
      · rintro (none | ⟨here, _, showable⟩)
        · omega
        · exact ⟨here.symm, showable⟩
    · -- The count returned is that of another start.
      have other : array.getReadableSize ≠ array.totalSize - pos := by
        rw [getReadableSize]
        omega
      apply iff_of_false
      · rintro ⟨segments, returned, _⟩
        rw [all] at returned
        split at returned
        · simp only [Except.ok.injEq, Prod.mk.injEq] at returned
          omega
        · generalize readBuffersLoop _ _ _ _ _ _ = looped at returned
          cases looped with
          | error failure => cases returned
          | ok result =>
              simp only [Except.map, Except.ok.injEq, Prod.mk.injEq] at returned
              exact other returned.1
      · rintro (none | ⟨_, enough | moved, _⟩)
        · omega
        · omega
        · exact same moved
  · rw [if_neg cut]
    have all : array.available size pos = size := Nat.min_eq_left (Nat.le_of_not_lt cut)
    split
    · rename_i none
      exact iff_of_true (shows_nothing (all.trans none) (consistent.node inside)) (.inl none)
    · rename_i some
      rw [all, shows_iff consistent buffers (Nat.pos_of_ne_zero some) all, consistent.current]
      constructor
      · rintro ⟨here, showable⟩
        exact .inr ⟨here.symm, .inl (by omega), showable⟩
      · rintro (none | ⟨here, _, showable⟩)
        · exact absurd none some
        · exact ⟨here.symm, showable⟩

/-- At the position of the cursor the overloads are the same function. -/
theorem getReadBuffersAt_position {array : ByteArray} (consistent : array.Consistent)
    (buffers : List Iovec) (size : Nat) :
    array.getReadBuffersAt buffers size array.position = array.getReadBuffers buffers size := by
  have readable := consistent.readable
  unfold getReadBuffersAt getReadBuffers
  split
  · rename_i nothing
    have none : (if size > array.getReadableSize then array.getReadableSize else size) = 0 := by
      unfold getReadableSize
      split <;> omega
    rw [none, if_pos rfl]
  · rfl

theorem Shows.dump {array : ByteArray} {buffers segments : List Iovec} {size : Nat}
    (shows : array.Shows buffers size array.position (array.getReadBuffers buffers size))
    (returned : array.getReadBuffers buffers size =
      .ok (array.getReadableSize, buffers ++ segments)) :
    array.dump = .ok (array.gather segments) := by
  rcases shows with ⟨shown, result, window, _, read⟩
  rw [returned] at result
  simp only [Except.ok.injEq, Prod.mk.injEq, List.append_cancel_left_eq] at result
  rcases result with ⟨count, rfl⟩
  rw [← count] at read window
  unfold ByteArray.dump
  split
  · rename_i none
    rw [none] at window
    rw [window.gather]
    rfl
  · exact read

/-- The data is shown from the cursor on where it is cut into segments of `int` length and
another node follows, and from any other position where moreover the position lies in the
node of the cursor and not more than there is is asked for. -/
theorem readWindows_iff {array : ByteArray} (consistent : array.Consistent)
    (buffers : List Iovec) (size pos : Nat) :
    ReadWindows array buffers size pos ↔
      array.Showable array.position (array.available size array.position) ∧
      (pos < array.totalSize → size = 0 ∨
        pos / array.blockSize = array.position / array.blockSize ∧
          (size ≤ array.totalSize - pos ∨ pos = array.position) ∧
          array.Showable pos (array.available size pos)) := by
  constructor
  · intro windows
    refine ⟨(getReadBuffers_shows_iff consistent buffers size).mp windows.current, ?_⟩
    intro inside
    exact (getReadBuffersAt_shows_iff consistent buffers inside).mp (windows.positional inside)
  · rintro ⟨current, positional⟩
    have shows := (getReadBuffers_shows_iff consistent buffers size).mpr current
    constructor
    · exact shows
    · intro inside
      exact (getReadBuffersAt_shows_iff consistent buffers inside).mpr (positional inside)
    · intro here
      rw [here]
      exact getReadBuffersAt_position consistent buffers size
    · intro segments returned
      exact shows.dump returned

/-- Six bytes in two nodes, with the cursor on the fourth: three bytes from the cursor and
three from the third one lie in both nodes. -/
theorem readWindows_written : ∃ loaded array,
    write [1, 2, 3, 4, 5, 6] (new 4) = .ok () loaded ∧ setPosition 3 loaded = .ok () array ∧
      ReadWindows array [] 3 2 := by
  refine ⟨_, _, rfl, rfl, ?_⟩
  apply (readWindows_iff _ [] 3 2).mpr
  · decide
  · exact ⟨rfl, by decide, by decide, by decide, by decide, by decide⟩

/-- Two bytes in two nodes, with the cursor in the first: for the second byte, the first one
is shown. -/
theorem not_readWindows : ∃ loaded array,
    write [7, 8] (new 1) = .ok () loaded ∧ setPosition 0 loaded = .ok () array ∧
      array.Consistent ∧
      array.getReadBuffersAt [] 1 1 = .ok (1, [⟨0, 0, 1⟩]) ∧
      array.gather [⟨0, 0, 1⟩] = [some 7] ∧ array.slice 1 1 = [some 8] ∧
      ¬ReadWindows array [] 1 1 := by
  refine ⟨_, _, rfl, rfl, ⟨rfl, by decide, by decide, by decide, by decide, by decide⟩,
    rfl, rfl, rfl, fun windows => ?_⟩
  rcases windows.positional (by decide) with ⟨segments, returned, _, shown, _⟩
  cases returned
  cases shown

end ByteArray

end FiberNet
