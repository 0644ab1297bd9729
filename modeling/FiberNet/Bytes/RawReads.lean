import FiberNet.Bytes.Blocks
import FiberNet.Bytes.CodecRoundTrip

/-! # Readers made of raw reads

A reader is the tree of the raw operations it makes. On a list of bytes it is a function of
the codec. On a `ByteArray` every raw read moves the cursor, and nothing moves it back.
-/

namespace FiberNet

/-- The raw operations of a reader. `string` is the code that the string readers share: the
string gets its size, then `read` fills it. -/
inductive RawReader (α : Type)
  | done (value : α)
  | fail (failure : Failure)
  | read (size : Nat) (next : List UInt8 → RawReader α)
  | string (length : Nat) (next : List UInt8 → RawReader α)

namespace RawReader

def bind {α β : Type} : RawReader α → (α → RawReader β) → RawReader β
  | done value, f => f value
  | fail failure, _ => fail failure
  | read size next, f => read size fun bytes => (next bytes).bind f
  | string length next, f => string length fun bytes => (next bytes).bind f

instance : Monad RawReader where
  pure := done
  bind := bind

/-- The reader on the bytes that are readable. -/
def onBytes {α : Type} : RawReader α → Reader α
  | done value => return value
  | fail failure => throw failure
  | read size next => do
      let bytes ← Reader.read size
      (next bytes).onBytes
  | string length next => do
      let bytes ← Reader.read length
      (next bytes).onBytes

/-- What a reader leaves behind: the value unless it throws, the array, and the largest
size it asked a string to have. -/
structure Run (α : Type) where
  value : Option α
  array : ByteArray
  allocated : Nat

/-- The bytes at `position` and behind it that `read` has copied. `heap` is what is in the
bytes of the buffers that were never written. -/
def known (heap : Nat → UInt8) (position : Nat) (buff : List (Option UInt8)) : List UInt8 :=
  buff.mapIdx fun index byte => byte.getD (heap (position + index))

/-- The reader on an array. `granted` tells for which sizes there is memory, because
`resize` throws for the others. -/
def onArray {α : Type} (heap : Nat → UInt8) (granted : Nat → Bool) :
    RawReader α → ByteArray → Run α
  | done value, array => ⟨some value, array, 0⟩
  | fail _, array => ⟨none, array, 0⟩
  | read size next, array =>
      match array.read size with
      | .error _ moved => ⟨none, moved, 0⟩
      | .ok buff moved => (next (known heap array.position buff)).onArray heap granted moved
  | string length next, array =>
      if granted length then
        match array.read length with
        | .error _ moved => ⟨none, moved, length⟩
        | .ok buff moved =>
            let run := (next (known heap array.position buff)).onArray heap granted moved
            { run with allocated := max length run.allocated }
      else ⟨none, array, 0⟩

theorem onBytes_read {α : Type} (size : Nat) (next : List UInt8 → RawReader α)
    (data : List UInt8) :
    (read size next).onBytes data =
      if data.length < size then .error .outOfRange
      else (next (data.take size)).onBytes (data.drop size) := by
  rw [onBytes]
  simp only [Bind.bind, StateT.bind, Reader.read, gt_iff_lt]
  split <;> rfl

theorem onBytes_string {α : Type} (length : Nat) (next : List UInt8 → RawReader α)
    (data : List UInt8) :
    (string length next).onBytes data =
      if data.length < length then .error .outOfRange
      else (next (data.take length)).onBytes (data.drop length) :=
  onBytes_read length next data

theorem onBytes_bind {α β : Type} (reader : RawReader α) (f : α → RawReader β) :
    (reader >>= f).onBytes = reader.onBytes >>= fun value => (f value).onBytes := by
  induction reader with
  | done value => rfl
  | fail failure => rfl
  | read size next ih =>
      change (Reader.read size >>= fun bytes => (next bytes >>= f).onBytes) =
        (Reader.read size >>= fun bytes => (next bytes).onBytes) >>= fun value =>
          (f value).onBytes
      rw [bind_assoc]
      congr 1
      funext bytes
      exact ih bytes
  | string length next ih =>
      change (Reader.read length >>= fun bytes => (next bytes >>= f).onBytes) =
        (Reader.read length >>= fun bytes => (next bytes).onBytes) >>= fun value =>
          (f value).onBytes
      rw [bind_assoc]
      congr 1
      funext bytes
      exact ih bytes

end RawReader

namespace ByteArray

/-! ## One raw read -/

/-- The current node is the one of the position, and there are nodes for the data. -/
structure Ready (array : ByteArray) : Prop where
  current : array.cur = array.position / array.blockSize
  readable : array.position ≤ array.totalSize
  covered : array.totalSize ≤ array.blockSize * array.chain.length

theorem Ready.seek_self {array : ByteArray} (ready : array.Ready) :
    array.seek array.position = array := by
  rw [seek, ← ready.current]

theorem Ready.seek {array : ByteArray} (ready : array.Ready) {position : Nat}
    (inside : position ≤ array.totalSize) : (array.seek position).Ready :=
  ⟨rfl, inside, ready.covered⟩

/-- The last turn of a reading loop that goes to the end of the chain. -/
theorem readLoop_end {turns size position : Nat} {array : ByteArray}
    {buff : List (Option UInt8)} (more : size ≠ 0)
    (start : position / array.blockSize < array.chain.length)
    (out : array.chain.length ≤
      (position + min size (array.blockSize - position % array.blockSize)) / array.blockSize) :
    readLoop (turns + 1) size buff (array.seek position) = .error .logicError
      (array.seek (position + min size (array.blockSize - position % array.blockSize))) := by
  have found := List.getElem?_eq_getElem start
  have cur := @turn_cur array.blockSize position size array.blockSize_pos
  rw [← cur] at out
  rw [readLoop]
  simp only [ByteArray.seek, more, ↓reduceIte, found, ← cur]
  by_cases leaves : array.blockSize ≤
      min size (array.blockSize - position % array.blockSize) + position % array.blockSize
  · simp only [leaves, ↓reduceIte, advance] at out ⊢
    rw [if_pos out]
  · simp only [leaves, ↓reduceIte] at out ⊢
    rw [if_pos out]

/-- A read up to the end of the chain throws, after the cursor has moved. -/
theorem readLoop_short (array : ByteArray) (turns : Nat) : ∀ {size position : Nat}
    {buff : List (Option UInt8)}, size ≤ turns →
    position / array.blockSize < array.chain.length →
    array.chain.length ≤ (position + size) / array.blockSize →
    ∃ further, position < further ∧ further ≤ position + size ∧
      readLoop turns size buff (array.seek position) =
        .error .logicError (array.seek further) := by
  induction turns with
  | zero =>
      intro size position buff enough start out
      rw [Nat.le_zero.mp enough, Nat.add_zero] at out
      omega
  | succ turns ih =>
      intro size position buff enough start out
      have positive := array.blockSize_pos
      have below := Nat.mod_lt position positive
      have more : size ≠ 0 := by
        rintro rfl
        rw [Nat.add_zero] at out
        omega
      rcases Nat.lt_or_ge ((position +
          min size (array.blockSize - position % array.blockSize)) / array.blockSize)
          array.chain.length with inside | beyond
      · rw [readLoop_turn more start inside]
        generalize taken : min size (array.blockSize - position % array.blockSize) = count
          at inside ⊢
        have rest : position + count + (size - count) = position + size := by omega
        rcases @ih (size - count) (position + count) (buff ++ array.slice position count)
          (by omega) inside (by rwa [rest]) with ⟨further, ahead, within, failed⟩
        exact ⟨further, by omega, by omega, failed⟩
      · refine ⟨_, ?_, ?_, readLoop_end more start beyond⟩
        · omega
        · omega

/-- What a raw read does. -/
theorem read_cases {array : ByteArray} (ready : array.Ready) (size : Nat) :
    (array.getReadableSize < size ∧ array.read size = .error .outOfRange array) ∨
    (size ≤ array.getReadableSize ∧
      (size = 0 ∨ (array.position + size) / array.blockSize < array.chain.length) ∧
      array.read size =
        .ok (array.slice array.position size) (array.seek (array.position + size))) ∨
    (0 < size ∧ size ≤ array.getReadableSize ∧
      array.chain.length ≤ (array.position + size) / array.blockSize ∧
      ∃ further, array.position < further ∧ further ≤ array.totalSize ∧
        array.read size = .error .logicError (array.seek further)) := by
  have readable := ready.readable
  rcases Nat.lt_or_ge array.getReadableSize size with beyond | present
  · left
    refine ⟨beyond, ?_⟩
    rw [read, if_pos beyond]
  · right
    have available : array.position + size ≤ array.totalSize := by
      rw [getReadableSize] at present
      omega
    by_cases none : size = 0
    · left
      refine ⟨present, .inl none, ?_⟩
      rw [none, read, if_neg (Nat.not_lt_zero _), Nat.add_zero, ready.seek_self]
      rfl
    · rcases Nat.lt_or_ge ((array.position + size) / array.blockSize) array.chain.length
        with inside | out
      · left
        have done := read_eq available inside
        rw [ready.seek_self] at done
        exact ⟨present, .inr inside, done⟩
      · right
        have start : array.position / array.blockSize < array.chain.length := by
          apply Nat.div_lt_of_lt_mul
          have covered := ready.covered
          omega
        rcases readLoop_short array size (Nat.le_refl size) start out
          with ⟨further, ahead, within, failed⟩
        refine ⟨by omega, present, out, further, ahead, by omega, ?_⟩
        rw [ready.seek_self] at failed
        rw [read, if_neg (Nat.not_lt.mpr present)]
        exact failed

/-! ## The bytes ahead of the cursor -/

/-- What is readable. -/
def ahead (heap : Nat → UInt8) (array : ByteArray) : List UInt8 :=
  RawReader.known heap array.position (array.slice array.position array.getReadableSize)

theorem known_append (heap : Nat → UInt8) (position : Nat) (left right : List (Option UInt8)) :
    RawReader.known heap position (left ++ right) =
      RawReader.known heap position left ++
        RawReader.known heap (position + left.length) right := by
  rw [RawReader.known, List.mapIdx_append, RawReader.known, RawReader.known]
  congr 2
  funext index byte
  rw [Nat.add_assoc, Nat.add_comm index]

@[simp] theorem length_ahead (heap : Nat → UInt8) (array : ByteArray) :
    (array.ahead heap).length = array.getReadableSize := by
  rw [ahead, RawReader.known, List.length_mapIdx, length_slice]

theorem getReadableSize_seek (array : ByteArray) (size : Nat) :
    (array.seek (array.position + size)).getReadableSize = array.getReadableSize - size :=
  Nat.sub_add_eq array.totalSize array.position size

theorem ahead_eq_append (heap : Nat → UInt8) {array : ByteArray} {size : Nat}
    (present : size ≤ array.getReadableSize) :
    array.ahead heap = RawReader.known heap array.position (array.slice array.position size) ++
      (array.seek (array.position + size)).ahead heap := by
  have parts := array.slice_append array.position size (array.getReadableSize - size)
  rw [Nat.add_sub_cancel' present] at parts
  rw [ahead, ← parts, known_append, length_slice, ahead, getReadableSize_seek, slice_seek]
  rfl

theorem take_ahead (heap : Nat → UInt8) {array : ByteArray} {size : Nat}
    (present : size ≤ array.getReadableSize) :
    (array.ahead heap).take size =
      RawReader.known heap array.position (array.slice array.position size) := by
  rw [ahead_eq_append heap present, List.take_left']
  rw [RawReader.known, List.length_mapIdx, length_slice]

theorem drop_ahead (heap : Nat → UInt8) {array : ByteArray} {size : Nat}
    (present : size ≤ array.getReadableSize) :
    (array.ahead heap).drop size = (array.seek (array.position + size)).ahead heap := by
  rw [ahead_eq_append heap present, List.drop_left']
  rw [RawReader.known, List.length_mapIdx, length_slice]

end ByteArray

namespace RawReader

/-! ## A whole reader -/

variable {α : Type} {heap : Nat → UInt8} {granted : Nat → Bool}

theorem onArray_string {length : Nat} (next : List UInt8 → RawReader α)
    (grants : granted length = true) (array : ByteArray) :
    (string length next).onArray heap granted array =
      { (read length next).onArray heap granted array with
        allocated := max length ((read length next).onArray heap granted array).allocated } := by
  unfold onArray
  rw [if_pos grants]
  cases array.read length with
  | error failure moved => exact congrArg (Run.mk none moved) (Nat.max_zero length).symm
  | ok buff moved => rfl

theorem onArray_denied {length : Nat} (next : List UInt8 → RawReader α)
    (denies : ¬granted length = true) (array : ByteArray) :
    (string length next).onArray heap granted array = ⟨none, array, 0⟩ := by
  rw [onArray, if_neg denies]

theorem read_refused {array : ByteArray} {size : Nat} (next : List UInt8 → RawReader α)
    (beyond : array.getReadableSize < size) :
    (read size next).onArray heap granted array = ⟨none, array, 0⟩ := by
  rw [onArray, ByteArray.read, if_pos beyond]

/-- A raw read that is not refused moves the cursor, and the rest does not move it back. -/
theorem read_position {array : ByteArray} {size : Nat} {next : List UInt8 → RawReader α}
    (forward : ∀ bytes (array : ByteArray), array.Ready →
      array.position ≤ ((next bytes).onArray heap granted array).array.position)
    (ready : array.Ready) (present : size ≤ array.getReadableSize) :
    array.position ≤ ((read size next).onArray heap granted array).array.position ∧
      (0 < size →
        array.position < ((read size next).onArray heap granted array).array.position) := by
  rw [onArray]
  rcases ByteArray.read_cases ready size with ⟨beyond, _⟩ | ⟨_, _, done⟩ |
    ⟨_, _, _, further, moves, _, failed⟩
  · omega
  · have inside : array.position + size ≤ array.totalSize := by
      have readable := ready.readable
      rw [ByteArray.getReadableSize] at present
      omega
    have rest : array.position + size ≤ _ :=
      forward (known heap array.position (array.slice array.position size)) _ (ready.seek inside)
    rw [done]
    constructor
    · exact Nat.le_trans (Nat.le_add_right _ size) rest
    · intro more
      exact Nat.lt_of_lt_of_le (Nat.lt_add_of_pos_right more) rest
  · rw [failed]
    exact ⟨Nat.le_of_lt moves, fun _ => moves⟩

theorem onArray_position (reader : RawReader α) : ∀ array : ByteArray, array.Ready →
    array.position ≤ (reader.onArray heap granted array).array.position := by
  induction reader with
  | done value =>
      intro array ready
      exact Nat.le_refl _
  | fail failure =>
      intro array ready
      exact Nat.le_refl _
  | read size next ih =>
      intro array ready
      rcases Nat.lt_or_ge array.getReadableSize size with beyond | present
      · rw [read_refused next beyond]
      · exact (read_position ih ready present).1
  | string length next ih =>
      intro array ready
      by_cases grants : granted length = true
      · rw [onArray_string next grants]
        rcases Nat.lt_or_ge array.getReadableSize length with beyond | present
        · rw [read_refused next beyond]
        · exact (read_position ih ready present).1
      · rw [onArray_denied next grants]

/-- Where the reader gives a value for the readable bytes, it asks for no more memory than
they are, and it returns the value, unless it meets the end of the chain or of the memory. -/
structure Follows (run : Run α) (array : ByteArray) (granted : Nat → Bool) (value : α) :
    Prop where
  allocated : run.allocated ≤ array.getReadableSize
  returned : array.totalSize / array.blockSize < array.chain.length →
    (∀ length ≤ array.getReadableSize, granted length = true) → run.value = some value

theorem read_follows {array : ByteArray} {size : Nat} {next : List UInt8 → RawReader α}
    {value : α} {rest : List UInt8}
    (follows : ∀ bytes (array : ByteArray), array.Ready →
      (next bytes).onBytes (array.ahead heap) = .ok (value, rest) →
      Follows ((next bytes).onArray heap granted array) array granted value)
    (ready : array.Ready) (present : size ≤ array.getReadableSize)
    (gives : (next ((array.ahead heap).take size)).onBytes ((array.ahead heap).drop size) =
      .ok (value, rest)) :
    Follows ((read size next).onArray heap granted array) array granted value := by
  rw [onArray]
  rcases ByteArray.read_cases ready size with ⟨beyond, _⟩ | ⟨_, _, done⟩ |
    ⟨_, _, out, further, _, _, failed⟩
  · omega
  · have inside : array.position + size ≤ array.totalSize := by
      have readable := ready.readable
      rw [ByteArray.getReadableSize] at present
      omega
    rw [ByteArray.take_ahead heap present, ByteArray.drop_ahead heap present] at gives
    have later := follows _ _ (ready.seek inside) gives
    have less := ByteArray.getReadableSize_seek array size
    rw [done]
    constructor
    · exact Nat.le_trans later.allocated (less ▸ Nat.sub_le _ size)
    · intro reached grants
      apply later.returned reached
      intro length fits
      exact grants length (by omega)
  · rw [failed]
    constructor
    · exact Nat.zero_le _
    · intro reached
      have short : (array.position + size) / array.blockSize ≤
          array.totalSize / array.blockSize := by
        apply Nat.div_le_div_right
        have readable := ready.readable
        rw [ByteArray.getReadableSize] at present
        omega
      omega

theorem onArray_follows (reader : RawReader α) {value : α} {rest : List UInt8} :
    ∀ array : ByteArray, array.Ready →
    reader.onBytes (array.ahead heap) = .ok (value, rest) →
    Follows (reader.onArray heap granted array) array granted value := by
  induction reader with
  | done result =>
      intro array ready gives
      cases gives
      exact ⟨Nat.zero_le _, fun _ _ => rfl⟩
  | fail failure =>
      intro array ready gives
      cases gives
  | read size next ih =>
      intro array ready gives
      rw [onBytes_read, ByteArray.length_ahead] at gives
      split at gives
      · cases gives
      · rename_i present
        exact read_follows ih ready (Nat.le_of_not_lt present) gives
  | string length next ih =>
      intro array ready gives
      rw [onBytes_string, ByteArray.length_ahead] at gives
      split at gives
      · cases gives
      · rename_i present
        by_cases grants : granted length = true
        · have follows := read_follows ih ready (Nat.le_of_not_lt present) gives
          rw [onArray_string next grants]
          exact ⟨Nat.max_le.mpr ⟨Nat.le_of_not_lt present, follows.allocated⟩, follows.returned⟩
        · rw [onArray_denied next grants]
          constructor
          · exact Nat.zero_le _
          · intro reached granted_all
            exact absurd (granted_all length (Nat.le_of_not_lt present)) grants

/-! ## Failed reads -/

/-- The readable bytes are not what the reader expects, or not all of it. -/
def Fails (reader : RawReader α) (data : List UInt8) : Prop :=
  ∃ failure, reader.onBytes data = .error failure

/-- A reader that throws because of the readable bytes leaves the array as it was, and
succeeds once the missing bytes have been appended. It asks for no more memory than there
are readable bytes. -/
structure Atomic (heap : Nat → UInt8) (granted : Nat → Bool) (reader : RawReader α)
    (array : ByteArray) : Prop where
  unchanged : reader.Fails (array.ahead heap) →
    (reader.onArray heap granted array).value = none ∧
      (reader.onArray heap granted array).array = array
  resumed : reader.Fails (array.ahead heap) → ∀ (appended : ByteArray) missing value rest,
    appended.Ready → appended.totalSize / appended.blockSize < appended.chain.length →
    (∀ length ≤ appended.getReadableSize, granted length = true) →
    appended.position = (reader.onArray heap granted array).array.position →
    appended.ahead heap = array.ahead heap ++ missing →
    reader.onBytes (array.ahead heap ++ missing) = .ok (value, rest) →
    (reader.onArray heap granted appended).value = some value
  allocated : (reader.onArray heap granted array).allocated ≤ array.getReadableSize

/-- The first raw read decides. -/
theorem atomic_read_iff {first : Nat} {next : List UInt8 → RawReader α} {array : ByteArray}
    (ready : array.Ready) (nonzero : 0 < first) :
    Atomic heap granted (read first next) array ↔
      array.getReadableSize < first ∨ ¬(read first next).Fails (array.ahead heap) := by
  constructor
  · intro atomic
    by_contra bad
    rcases not_or.mp bad with ⟨present, fails⟩
    have moves := (@read_position α heap granted array first next
      (fun bytes => onArray_position (next bytes)) ready (Nat.le_of_not_lt present)).2 nonzero
    rw [(atomic.unchanged (not_not.mp fails)).2] at moves
    exact Nat.lt_irrefl _ moves
  · rintro (beyond | gives)
    · have refused := @read_refused α heap granted array first next beyond
      constructor
      · intro fails
        rw [refused]
        exact ⟨rfl, rfl⟩
      · intro fails appended missing value rest ready' reached grants _ ahead gives
        rw [← ahead] at gives
        exact (onArray_follows _ appended ready' gives).returned reached grants
      · rw [refused]
        exact Nat.zero_le _
    · constructor
      · intro fails
        exact absurd fails gives
      · intro fails
        exact absurd fails gives
      · cases result : (read first next).onBytes (array.ahead heap) with
        | error failure => exact absurd ⟨failure, result⟩ gives
        | ok pair => exact (onArray_follows _ array ready result).allocated

end RawReader

end FiberNet
