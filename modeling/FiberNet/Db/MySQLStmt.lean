import FiberNet.Bytes.CodecRoundTrip
import FiberNet.Foundation.Custody
import FiberNet.Foundation.Machine

/-! # The parameters of prepared statements

The statements, the heap that they share with other code and what the client library, which is
a parameter, reads when a statement is executed. `malloc` returns an address that is not in use
or fails. What each parameter was last bound to is only recorded.
-/

namespace FiberNet

namespace Db

/-! ## Parameters -/

/-- The types that the statement uses. A parameter that was never bound has the first one. -/
inductive FieldType
  | decimal
  | tiny
  | short
  | long
  | longlong
  | float
  | double
  | null
  | blob
  | string
  deriving DecidableEq

/-- The `sizeof(v)` that `BIND_VALUE` is given with a type, `none` for texts. -/
def FieldType.sizeof : FieldType → Option Nat
  | .tiny => some 1
  | .short => some 2
  | .long | .float => some 4
  | .longlong | .double => some 8
  | .decimal | .null | .blob | .string => none

/-- What `BIND_VALUE` is given. -/
structure Value where
  type : FieldType
  bytes : List UInt8
  unsign : Bool
  present : type ≠ .null ∧ type ≠ .decimal
  size : ∀ size ∈ type.sizeof, bytes.length = size

section

variable (host : Endian)

def bindInt8 (v : BitVec 8) : Value :=
  ⟨.tiny, memory host 1 v, false, by decide, by simp [FieldType.sizeof]⟩

def bindInt16 (v : BitVec 16) : Value :=
  ⟨.short, memory host 2 v, false, by decide, by simp [FieldType.sizeof]⟩

def bindInt32 (v : BitVec 32) : Value :=
  ⟨.long, memory host 4 v, false, by decide, by simp [FieldType.sizeof]⟩

def bindInt64 (v : BitVec 64) : Value :=
  ⟨.longlong, memory host 8 v, false, by decide, by simp [FieldType.sizeof]⟩

def bindUint8 (v : BitVec 8) : Value :=
  ⟨.tiny, memory host 1 v, true, by decide, by simp [FieldType.sizeof]⟩

def bindUint16 (v : BitVec 16) : Value :=
  ⟨.short, memory host 2 v, true, by decide, by simp [FieldType.sizeof]⟩

def bindUint32 (v : BitVec 32) : Value :=
  ⟨.long, memory host 4 v, true, by decide, by simp [FieldType.sizeof]⟩

def bindUint64 (v : BitVec 64) : Value :=
  ⟨.longlong, memory host 8 v, true, by decide, by simp [FieldType.sizeof]⟩

/-- The bits of the number. -/
def bindFloat (v : BitVec 32) : Value :=
  ⟨.float, memory host 4 v, false, by decide, by simp [FieldType.sizeof]⟩

def bindDouble (v : BitVec 64) : Value :=
  ⟨.double, memory host 8 v, false, by decide, by simp [FieldType.sizeof]⟩

end

def bindString (v : List UInt8) : Value :=
  ⟨.string, v, false, by decide, by simp [FieldType.sizeof]⟩

/-- `bindString(const char*)` with the bytes behind the pointer. -/
def bindCString (v : List UInt8) : Value :=
  ⟨.string, v.takeWhile (· ≠ 0), false, by decide, by simp [FieldType.sizeof]⟩

def bindBlob (v : List UInt8) : Value :=
  ⟨.blob, v, false, by decide, by simp [FieldType.sizeof]⟩

/-- `bindTime`, given what `time2Str` returns. -/
def bindTime (timeStr : List UInt8) : Value :=
  bindString timeStr

/-- A `MYSQL_BIND`, filled with zeros by `Create`. -/
structure MySQLBind where
  buffer : Option Nat := none
  buffer_length : Nat := 0
  buffer_type : FieldType := .decimal
  is_unsigned : Bool := false
  deriving DecidableEq

/-- What a parameter is sent as. -/
inductive Param
  | null
  | value (type : FieldType) (unsign : Bool) (bytes : List UInt8)
  deriving DecidableEq

def Value.param (value : Value) : Param :=
  .value value.type value.unsign value.bytes

/-! ## The heap -/

/-- A live block. `statement` says that a statement has allocated it. -/
structure Block where
  statement : Bool
  bytes : List UInt8
  deriving DecidableEq

namespace Heap

variable (heap : Nat → Option Block)

/-- An address that is in use is no answer. -/
def malloc (answer : Option Nat) (size : Nat) : (Nat → Option Block) × Option Nat :=
  match answer with
  | none => (heap, none)
  | some address =>
      if heap address = none then
        (Function.update heap address (some ⟨true, .replicate size 0⟩), some address)
      else (heap, none)

/-- Anything but a live block is undefined. -/
def free (address : Nat) : Option (Nat → Option Block) :=
  (heap address).map fun _ => Function.update heap address none

/-- A copy over the end of the block is undefined. -/
def memcpy (address : Nat) (bytes : List UInt8) : Option (Nat → Option Block) :=
  (heap address).bind fun block =>
    if bytes.length ≤ block.bytes.length then
      some (Function.update heap address
        (some { block with bytes := bytes ++ block.bytes.drop bytes.length }))
    else none

/-- The first bytes behind a pointer. -/
def read (buffer : Option Nat) (size : Nat) : Option (List UInt8) :=
  if size = 0 then some []
  else
    (buffer.bind heap).bind fun block =>
      if size ≤ block.bytes.length then some (block.bytes.take size) else none

end Heap

/-- The client library: how many bytes of a buffer it reads for a type, `none` where
`buffer_length` says it, and what it sends for a parameter, `none` where it reads what is no
live block. -/
structure Client where
  width : FieldType → Option Nat
  read : (Nat → Option Block) → MySQLBind → Option Param

/-- The number of bytes that are read for a parameter. -/
def Client.size (client : Client) (bind : MySQLBind) : Nat :=
  (client.width bind.buffer_type).getD bind.buffer_length

/-- What the library says of `mysql_stmt_bind_param`: a null has no value, a number is read with
the size of its C type, a text or blob with its length, and nothing else is read. -/
structure Client.Documented (client : Client) : Prop where
  number : ∀ {type size}, type.sizeof = some size → client.width type = some size
  string : client.width .string = none
  blob : client.width .blob = none
  null : ∀ {heap bind}, bind.buffer_type = .null → client.read heap bind = some .null
  value : ∀ {heap bind}, bind.buffer_type ≠ .null → client.read heap bind =
    (Heap.read heap bind.buffer (client.size bind)).map (.value bind.buffer_type bind.is_unsigned)

namespace MySQLBind

/-- The new block, `none` for the exception. -/
def allocate (heap : Nat → Option Block) (bytes : List UInt8) (answer : Option Nat) :
    Option ((Nat → Option Block) × Option Nat) :=
  match Heap.malloc heap answer bytes.length with
  | (heap, none) => some (heap, none)
  | (heap, some address) => (Heap.memcpy heap address bytes).map fun heap => (heap, some address)

/-- `ALLOC_AND_COPY`: the heap and the buffer. -/
def allocAndCopy (heap : Nat → Option Block) (bind : MySQLBind) (bytes : List UInt8)
    (answer : Option Nat) : Option ((Nat → Option Block) × Option Nat) :=
  match bind.buffer with
  | none => allocate heap bytes answer
  | some buffer =>
      if bind.buffer_length < bytes.length then
        (Heap.free heap buffer).bind fun heap => allocate heap bytes answer
      else (Heap.memcpy heap buffer bytes).map fun heap => (heap, some buffer)

/-- `BIND_VALUE`. The type is set before the buffer, the length behind it. -/
def bindValue (heap : Nat → Option Block) (bind : MySQLBind) (value : Value)
    (answer : Option Nat) : Option ((Nat → Option Block) × MySQLBind × Bool) :=
  (allocAndCopy heap bind value.bytes answer).map fun copied =>
    match copied.2 with
    | none => (copied.1, { bind with buffer_type := value.type, buffer := none }, false)
    | some buffer =>
        (copied.1,
          { buffer := some buffer, buffer_length := value.bytes.length, buffer_type := value.type,
            is_unsigned := value.unsign }, true)

def bindNull (bind : MySQLBind) : MySQLBind :=
  { bind with buffer_type := .null }

end MySQLBind

/-! ## Statements -/

/-- `bound` records the values of the last calls, `none` for one that threw or for no call. -/
structure MySQLStmt where
  m_binds : List MySQLBind
  bound : List (Option Param)

namespace MySQLStmt

/-- `Create` with the number of parameters. There is no `m_binds[0]` without one. -/
def create (count : Nat) : Option MySQLStmt :=
  if count = 0 then none
  else some { m_binds := .replicate count {}, bound := .replicate count none }

def set (stmt : MySQLStmt) (idx : Nat) (bind : MySQLBind) (param : Option Param) : MySQLStmt where
  m_binds := stmt.m_binds.set idx bind
  bound := stmt.bound.set idx param

/-- What `execute` sends. -/
def params (client : Client) (heap : Nat → Option Block) (stmt : MySQLStmt) :
    Option (List Param) :=
  if stmt.m_binds = [] then none else stmt.m_binds.mapM (client.read heap)

/-- The loop of the destructor. -/
def freeAll : (Nat → Option Block) → List MySQLBind → Option (Nat → Option Block)
  | heap, [] => some heap
  | heap, item :: rest =>
      match item.buffer with
      | none => freeAll heap rest
      | some buffer => (Heap.free heap buffer).bind (freeAll · rest)

end MySQLStmt

/-- `fault` says that something undefined has happened. -/
structure Statements where
  statements : Nat → Option MySQLStmt
  heap : Nat → Option Block
  fault : Bool

inductive StmtAction
  | create (object count : Nat)
  | bind (object : Nat) (idx : Int) (value : Value) (answer : Option Nat)
  | bindNull (object : Nat) (idx : Int)
  | execute (object : Nat)
  | destroy (object : Nat)
  | otherMalloc (address : Nat) (bytes : List UInt8)
  | otherWrites (address : Nat) (bytes : List UInt8)
  | otherFree (address : Nat)

namespace Statements

def new : Statements where
  statements _ := none
  heap _ := none
  fault := false

def set (state : Statements) (object : Nat) (stmt : Option MySQLStmt) : Statements :=
  { state with statements := Function.update state.statements object stmt }

/-- `m_binds[idx]`. -/
def item (stmt : MySQLStmt) (idx : Int) : Option MySQLBind :=
  if idx < 0 then none else stmt.m_binds[idx.toNat]?

/-- Other code keeps to its own blocks. -/
def others (state : Statements) (address : Nat) : Bool :=
  (state.heap address).any fun block => !block.statement

def step (client : Client) (state : Statements) (action : StmtAction) : Option Statements :=
  if state.fault then none
  else
    match action with
    | .create object count =>
        if (state.statements object).isNone then
          match MySQLStmt.create count with
          | none => some { state with fault := true }
          | some stmt => some (state.set object (some stmt))
        else none
    | .bind object idx value answer =>
        (state.statements object).map fun stmt =>
          match (item stmt idx).bind fun bind =>
              bind.bindValue state.heap value answer with
          | none => { state with fault := true }
          | some (heap, bind, returned) =>
              { state.set object
                  (some (stmt.set idx.toNat bind (if returned then some value.param else none)))
                with heap }
    | .bindNull object idx =>
        (state.statements object).map fun stmt =>
          match item stmt idx with
          | none => { state with fault := true }
          | some bind => state.set object (some (stmt.set idx.toNat bind.bindNull (some .null)))
    | .execute object =>
        (state.statements object).map fun stmt =>
          { state with fault := (stmt.params client state.heap).isNone }
    | .destroy object =>
        (state.statements object).map fun stmt =>
          match MySQLStmt.freeAll state.heap stmt.m_binds with
          | none => { state with fault := true }
          | some heap => { state.set object none with heap }
    | .otherMalloc address bytes =>
        if state.heap address = none then
          some { state with heap := Function.update state.heap address (some ⟨false, bytes⟩) }
        else none
    | .otherWrites address bytes =>
        if state.others address then
          some { state with heap := Function.update state.heap address (some ⟨false, bytes⟩) }
        else none
    | .otherFree address =>
        if state.others address then
          some { state with heap := Function.update state.heap address none }
        else none

def machine (client : Client) : Machine Statements StmtAction where
  initial state := state = new
  step := step client

/-! ## What is kept -/

structure Safe (client : Client) (state : Statements) : Prop where
  /-- A buffer is a live block with room for its length, and no other parameter has it. -/
  buffers : ∀ {object idx : Nat} {stmt : MySQLStmt} {bind : MySQLBind} {buffer : Nat},
    state.statements object = some stmt → stmt.m_binds[idx]? = some bind →
    bind.buffer = some buffer →
      (∃ block, state.heap buffer = some block ∧ block.statement = true ∧
        bind.buffer_length ≤ block.bytes.length) ∧
      ∀ {other place : Nat} {another : MySQLStmt} {left : MySQLBind},
        state.statements other = some another → another.m_binds[place]? = some left →
        left.buffer = some buffer → other = object ∧ place = idx
  /-- Every block of the statements is the buffer of a parameter. -/
  leaks : ∀ {address block}, state.heap address = some block → block.statement = true →
    ∃ object stmt bind, state.statements object = some stmt ∧ bind ∈ stmt.m_binds ∧
      bind.buffer = some address
  /-- `execute` sends what the parameters were last bound to. -/
  sends : ∀ {object stmt params}, state.statements object = some stmt →
    stmt.bound = params.map some → stmt.params client state.heap = some params

/-- A statement has parameters, an index is that of one, and a parameter without a buffer is not
read. -/
def Heeds (client : Client) (state : Statements) : StmtAction → Prop
  | .create _ count => count ≠ 0
  | .bind object idx _ _ | .bindNull object idx =>
      ∀ stmt ∈ state.statements object, 0 ≤ idx ∧ idx < stmt.m_binds.length
  | .execute object =>
      ∀ stmt ∈ state.statements object, ∀ bind ∈ stmt.m_binds, bind.buffer = none →
        bind.buffer_type = .null ∨ client.size bind = 0
  | _ => True

end Statements

/-! ## One parameter -/

/-- The blocks that the parameters hold. -/
def view (holds : Nat × Nat → Option Nat) (heap : Nat → Option Block) :
    Custody (Nat × Nat) Nat where
  holds := holds
  live address := ∃ block, heap address = some block ∧ block.statement = true
  lost _ := False

namespace MySQLBind

/-- What is known of a parameter. -/
structure Fits (client : Client) (heap : Nat → Option Block) (bind : MySQLBind)
    (param : Option Param) : Prop where
  room : ∀ {buffer}, bind.buffer = some buffer →
    ∃ block, heap buffer = some block ∧ block.statement = true ∧
      bind.buffer_length ≤ block.bytes.length
  size : ∀ {buffer}, bind.buffer = some buffer →
    bind.buffer_type = .null ∨ client.size bind = bind.buffer_length
  reads : ∀ {sent}, param = some sent → client.read heap bind = some sent

variable {client : Client} {heap next : Nat → Option Block} {bind : MySQLBind}
  {param : Option Param}

theorem fits_new : Fits client heap {} none where
  room held := by cases held
  size held := by cases held
  reads same := by cases same

section

variable (documented : client.Documented)

include documented

theorem Fits.null (fits : bind.Fits client heap param) :
    bind.bindNull.Fits client heap (some .null) where
  room := fits.room
  size _ := .inl rfl
  reads same := by
    cases same
    exact documented.null rfl

/-- The heap elsewhere does not matter. -/
theorem Fits.frame (fits : bind.Fits client heap param)
    (same : ∀ buffer ∈ bind.buffer, next buffer = heap buffer) :
    bind.Fits client next param where
  room := by
    intro buffer held
    rw [same buffer held]
    exact fits.room held
  size := fits.size
  reads := by
    intro sent equal
    rw [← fits.reads equal]
    by_cases null : bind.buffer_type = .null
    · rw [documented.null null, documented.null null]
    · rw [documented.value null, documented.value null]
      cases held : bind.buffer with
      | none => rfl
      | some buffer =>
          simp only [Heap.read, Option.bind_some]
          rw [same buffer held]

/-- A parameter can be read unless it has no buffer. -/
theorem Fits.read_isNone (fits : bind.Fits client heap param) :
    client.read heap bind = none ↔ bind.buffer = none ∧ bind.buffer_type ≠ .null ∧
      client.size bind ≠ 0 := by
  by_cases null : bind.buffer_type = .null
  · simp [null, documented.null null]
  · rw [documented.value null]
    unfold Heap.read
    by_cases empty : client.size bind = 0
    · simp [null, empty]
    · cases held : bind.buffer with
      | none => simp [null, empty]
      | some buffer =>
          rcases fits.room held with ⟨block, found, _, room⟩
          have size := (fits.size held).resolve_left null
          simp [null, found, size, room, show bind.buffer_length ≠ 0 by omega]

/-- The length of a value is what is read of it. -/
theorem size_value (value : Value) (buffer : Option Nat) : client.size
    ⟨buffer, value.bytes.length, value.type, value.unsign⟩ = value.bytes.length := by
  have sized := value.size
  have present := value.present
  unfold Client.size
  dsimp only
  cases type : value.type with
  | decimal => exact absurd type present.2
  | null => exact absurd type present.1
  | blob => rw [documented.blob, Option.getD_none]
  | string => rw [documented.string, Option.getD_none]
  | tiny | short | long | longlong | float | double =>
      rw [type] at sized
      rw [documented.number rfl, Option.getD_some, sized _ rfl]

end

/-- What `allocate` does: it fails, or there is a new block. -/
theorem allocate_cases (heap : Nat → Option Block) (bytes : List UInt8) (answer : Option Nat) :
    allocate heap bytes answer = some (heap, none) ∨
    ∃ address, heap address = none ∧ allocate heap bytes answer =
      some (Function.update heap address (some ⟨true, bytes⟩), some address) := by
  cases answer with
  | none => exact .inl rfl
  | some address =>
      by_cases free : heap address = none
      · refine .inr ⟨address, free, ?_⟩
        simp [allocate, Heap.malloc, Heap.memcpy, free]
      · refine .inl ?_
        simp [allocate, Heap.malloc, free]

variable {holds : Nat × Nat → Option Nat} {owner : Nat × Nat}

theorem exact_free (exact : (view holds heap).Exact) {buffer : Nat}
    (held : holds owner = some buffer) :
    (view (Function.update holds owner none) (Function.update heap buffer none)).Exact := by
  apply (exact.release held).congr
  · intro other
    rfl
  · intro address
    simp only [view, Custody.release, Function.update_apply]
    split
    · rename_i same
      simp [same]
    · rename_i different
      simp [different]
  · intro address
    rfl

theorem exact_malloc (exact : (view holds heap).Exact) (empty : holds owner = none)
    {address : Nat} (free : heap address = none) (bytes : List UInt8) :
    (view (Function.update holds owner (some address))
      (Function.update heap address (some ⟨true, bytes⟩))).Exact := by
  have unused : ¬(view holds heap).live address := by
    rintro ⟨block, found, _⟩
    cases free.symm.trans found
  apply (exact.acquire empty unused).congr
  · intro other
    rfl
  · intro other
    simp only [view, Custody.acquire, Function.update_apply]
    split
    · rename_i same
      simp [same]
    · rename_i different
      simp [different]
  · intro other
    rfl

/-- A block with other bytes. -/
theorem exact_write (exact : (view holds heap).Exact) {address : Nat} {block : Block}
    (found : heap address = some block) (bytes : List UInt8) :
    (view holds (Function.update heap address (some { block with bytes }))).Exact := by
  apply exact.congr
  · intro other
    rfl
  · intro other
    simp only [view, Function.update_apply]
    split
    · rename_i same
      simp [same, found]
    · rfl
  · intro other
    rfl

/-- What `ALLOC_AND_COPY` does. -/
structure Copies (holds : Nat × Nat → Option Nat) (owner : Nat × Nat)
    (heap : Nat → Option Block) (bytes : List UInt8) (next : Nat → Option Block)
    (buffer : Option Nat) : Prop where
  exact : (view (Function.update holds owner buffer) next).Exact
  /-- The bytes are at the start of the buffer. -/
  copied : ∀ {address}, buffer = some address → ∃ block, next address = some block ∧
    block.statement = true ∧ ∃ rest, block.bytes = bytes ++ rest
  others : ∀ {address}, heap address ≠ none → holds owner ≠ some address →
    next address = heap address

theorem copies_allocate (exact : (view holds heap).Exact) (empty : holds owner = none)
    (bytes : List UInt8) (answer : Option Nat) :
    ∃ next buffer, allocate heap bytes answer = some (next, buffer) ∧
      Copies holds owner heap bytes next buffer := by
  rcases allocate_cases heap bytes answer with failed | ⟨address, free, allocated⟩
  · refine ⟨heap, none, failed, ?_, ?_, ?_⟩
    · rw [← empty, Function.update_eq_self]
      exact exact
    · intro _ absent
      cases absent
    · intro _ _ _
      rfl
  · refine ⟨_, _, allocated, exact_malloc exact empty free bytes, ?_, ?_⟩
    · intro other same
      cases same
      exact ⟨⟨true, bytes⟩, Function.update_self _ _ _, rfl, [], (List.append_nil _).symm⟩
    · intro other used _
      apply Function.update_of_ne
      intro same
      exact used (same ▸ free)

theorem copies_allocAndCopy (exact : (view holds heap).Exact)
    (held : holds owner = bind.buffer) (fits : bind.Fits client heap param) (bytes : List UInt8)
    (answer : Option Nat) :
    ∃ next buffer, allocAndCopy heap bind bytes answer = some (next, buffer) ∧
      Copies holds owner heap bytes next buffer := by
  unfold allocAndCopy
  cases own : bind.buffer with
  | none => exact copies_allocate exact (held.trans own) bytes answer
  | some buffer =>
      have held := held.trans own
      rcases fits.room own with ⟨block, found, mine, room⟩
      by_cases short : bind.buffer_length < bytes.length
      · have freed := exact_free exact held
        have empty : Function.update holds owner none owner = none :=
          Function.update_self _ _ _
        rcases copies_allocate freed empty bytes answer with ⟨next, left, allocated, copies⟩
        refine ⟨next, left, ?_, ?_, copies.copied, ?_⟩
        · simp only [if_pos short, Heap.free, found, Option.map_some, Option.bind_some]
          exact allocated
        · have exact := copies.exact
          rw [Function.update_idem] at exact
          exact exact
        · intro address used other
          have different : address ≠ buffer := by
            intro same
            exact other (same ▸ held)
          have kept : Function.update heap buffer none address = heap address :=
            Function.update_of_ne different _ _
          rw [← kept]
          apply copies.others
          · rw [kept]
            exact used
          · rw [empty]
            intro absent
            cases absent
      · have fit : bytes.length ≤ block.bytes.length := by omega
        let written : Block := { block with bytes := bytes ++ block.bytes.drop bytes.length }
        refine ⟨Function.update heap buffer (some written), some buffer, ?_, ?_, ?_, ?_⟩
        · simp only [if_neg short, Heap.memcpy, found, Option.bind_some, if_pos fit,
            Option.map_some]
          rfl
        · rw [← held, Function.update_eq_self]
          exact exact_write exact found _
        · intro address same
          cases same
          exact ⟨_, Function.update_self _ _ _, mine, _, rfl⟩
        · intro address _ other
          apply Function.update_of_ne
          intro same
          exact other (same ▸ held)

/-- `BIND_VALUE` keeps to the buffer of its parameter, which then holds the value. -/
theorem bindValue_spec (documented : client.Documented) (exact : (view holds heap).Exact)
    (held : holds owner = bind.buffer) (fits : bind.Fits client heap param) (value : Value)
    (answer : Option Nat) :
    ∃ next left returned, bindValue heap bind value answer = some (next, left, returned) ∧
      (view (Function.update holds owner left.buffer) next).Exact ∧
      left.Fits client next (if returned then some value.param else none) ∧
      ∀ {address}, heap address ≠ none → holds owner ≠ some address →
        next address = heap address := by
  rcases copies_allocAndCopy exact held fits value.bytes answer with
    ⟨next, buffer, done, copies⟩
  unfold bindValue
  rw [done, Option.map_some]
  cases buffer with
  | none =>
      refine ⟨_, _, _, rfl, copies.exact, ?_, copies.others⟩
      constructor
      · intro _ absent
        cases absent
      · intro _ absent
        cases absent
      · intro _ absent
        cases absent
  | some buffer =>
      rcases copies.copied rfl with ⟨block, found, mine, rest, bytes⟩
      have size := size_value documented value (some buffer)
      have room : value.bytes.length ≤ block.bytes.length := by
        rw [bytes, List.length_append]
        omega
      refine ⟨_, _, _, rfl, copies.exact, ?_, copies.others⟩
      constructor
      · intro other same
        cases same
        exact ⟨block, found, mine, room⟩
      · intro _ _
        exact .inr size
      · intro sent same
        cases same
        rw [documented.value value.present.1, size]
        simp only [Heap.read, Option.bind_some, found]
        by_cases empty : value.bytes.length = 0
        · rw [if_pos empty, Option.map_some, Value.param, List.eq_nil_of_length_eq_zero empty]
        · rw [if_neg empty, if_pos room, Option.map_some, Value.param, bytes, List.take_left]

end MySQLBind

/-! ## All parameters -/

section

variable {First Second : Type} {convert : First → Option Second}

theorem mapM_eq_none (values : List First) :
    values.mapM convert = none ↔ ∃ value ∈ values, convert value = none := by
  induction values with
  | nil => simp
  | cons value rest induction =>
      rw [List.mapM_cons]
      cases converted : convert value with
      | none => simp [converted]
      | some result =>
          cases later : rest.mapM convert with
          | none => simp [converted, ← induction, later]
          | some results => simp [converted, ← induction, later]

theorem mapM_eq_some {values : List First} {results : List Second}
    (length : values.length = results.length)
    (each : ∀ {idx : Nat} {value : First} {result : Second},
      values[idx]? = some value → results[idx]? = some result →
      convert value = some result) : values.mapM convert = some results := by
  induction values generalizing results with
  | nil =>
      rw [List.eq_nil_of_length_eq_zero length.symm]
      rfl
  | cons value rest induction =>
      cases results with
      | nil => cases length
      | cons result results =>
          have first : convert value = some result := @each 0 _ _ rfl rfl
          have later : rest.mapM convert = some results := by
            apply induction (Nat.succ.inj length)
            intro idx value result left right
            exact @each (idx + 1) value result left right
          rw [List.mapM_cons, first, later]
          rfl

end

namespace MySQLStmt

variable {holds : Nat × Nat → Option Nat} {heap : Nat → Option Block} {object : Nat}

/-- The blocks of the parameters from an index on. -/
theorem freeAll_spec {items : List MySQLBind} {start : Nat}
    (exact : (view holds heap).Exact)
    (held : ∀ idx, holds (object, start + idx) = items[idx]?.bind MySQLBind.buffer) :
    ∃ next, freeAll heap items = some next ∧
      (view (fun owner => if owner.1 = object ∧ start ≤ owner.2 ∧
        owner.2 < start + items.length then none else holds owner) next).Exact ∧
      ∀ {address}, heap address ≠ none → (∀ idx, holds (object, idx) ≠ some address) →
        next address = heap address := by
  induction items generalizing holds heap start with
  | nil =>
      refine ⟨heap, rfl, ?_, fun _ _ => rfl⟩
      apply exact.congr
      · intro owner
        apply if_neg
        intro inside
        simp only [List.length_nil] at inside
        omega
      · intro address
        rfl
      · intro address
        rfl
  | cons item rest induction =>
      have first : holds (object, start) = item.buffer := held 0
      have rest_held : ∀ idx, holds (object, start + 1 + idx) =
          rest[idx]?.bind MySQLBind.buffer := by
        intro idx
        have shifted := held (idx + 1)
        rw [List.getElem?_cons_succ] at shifted
        rw [← shifted]
        congr 2
        omega
      have given : ∃ middle, (match item.buffer with
          | none => some heap
          | some buffer => Heap.free heap buffer) = some middle ∧
          (view (Function.update holds (object, start) none) middle).Exact ∧
          ∀ {address}, holds (object, start) ≠ some address → middle address = heap address := by
        cases own : item.buffer with
        | none =>
            refine ⟨heap, rfl, ?_, fun _ => rfl⟩
            rw [← own, ← first, Function.update_eq_self]
            exact exact
        | some buffer =>
            have held := first.trans own
            rcases exact.live held with ⟨block, found, _⟩
            refine ⟨Function.update heap buffer none, ?_, MySQLBind.exact_free exact held, ?_⟩
            · simp only [Heap.free, found, Option.map_some]
            intro address other
            apply Function.update_of_ne
            intro same
            exact other (same ▸ held)
      rcases given with ⟨middle, freed, middle_exact, middle_others⟩
      have later_held : ∀ idx, Function.update holds (object, start) none
          (object, start + 1 + idx) = rest[idx]?.bind MySQLBind.buffer := by
        intro idx
        rw [Function.update_of_ne (by simp; omega)]
        exact rest_held idx
      rcases induction middle_exact later_held with ⟨next, done, next_exact, next_others⟩
      refine ⟨next, ?_, ?_, ?_⟩
      · rw [freeAll]
        cases own : item.buffer with
        | none =>
            rw [own] at freed
            cases freed
            exact done
        | some buffer =>
            rw [own] at freed
            dsimp only at freed ⊢
            rw [freed]
            exact done
      · apply next_exact.congr
        · rintro ⟨other, idx⟩
          simp only [view, Function.update_apply, Prod.mk.injEq, List.length_cons]
          by_cases same : other = object
          · by_cases at_start : idx = start
            · simp [same, at_start]
            · have shifted : (start ≤ idx ∧ idx < start + (rest.length + 1)) ↔
                  start + 1 ≤ idx ∧ idx < start + 1 + rest.length := by omega
              simp only [same, at_start, shifted, true_and, if_false]
          · simp only [same, false_and, if_false]
        · intro address
          rfl
        · intro address
          rfl
      · intro address used apart
        rw [next_others, middle_others (apart start)]
        · rw [middle_others (apart start)]
          exact used
        · intro idx
          rw [Function.update_apply]
          split
          · intro absent
            cases absent
          · exact apart idx

end MySQLStmt

namespace Statements

variable {state : Statements}

def holds (state : Statements) (owner : Nat × Nat) : Option Nat :=
  (state.statements owner.1).bind fun stmt => stmt.m_binds[owner.2]?.bind MySQLBind.buffer

structure Sound (client : Client) (state : Statements) : Prop where
  exact : (view state.holds state.heap).Exact
  lengths : ∀ {object stmt}, state.statements object = some stmt →
    stmt.bound.length = stmt.m_binds.length
  fits : ∀ {object stmt} {idx : Nat} {bind : MySQLBind} {param : Option Param},
    state.statements object = some stmt → stmt.m_binds[idx]? = some bind →
    stmt.bound[idx]? = some param → bind.Fits client state.heap param
  nonempty : ∀ {object stmt}, state.statements object = some stmt → stmt.m_binds ≠ []

variable {client : Client}

theorem holds_of_item {object idx : Nat} {stmt : MySQLStmt} {bind : MySQLBind}
    (present : state.statements object = some stmt) (found : stmt.m_binds[idx]? = some bind) :
    state.holds (object, idx) = bind.buffer := by
  simp only [holds, present, Option.bind_some, found]

/-- A statement without other buffers than its own has them at its indices. -/
theorem holds_of_statement {object : Nat} {stmt : MySQLStmt}
    (present : state.statements object = some stmt) (idx : Nat) :
    state.holds (object, idx) = stmt.m_binds[idx]?.bind MySQLBind.buffer := by
  simp only [holds, present, Option.bind_some]

theorem Sound.param (sound : state.Sound client) {object idx : Nat} {stmt : MySQLStmt}
    {bind : MySQLBind} (present : state.statements object = some stmt)
    (found : stmt.m_binds[idx]? = some bind) : ∃ param, stmt.bound[idx]? = some param := by
  rcases List.getElem?_eq_some_iff.mp found with ⟨small, _⟩
  exact ⟨_, List.getElem?_eq_getElem (sound.lengths present ▸ small)⟩

section

variable (documented : client.Documented)

include documented

/-- The heap changes where the parameter has no buffer. -/
theorem Sound.frame (sound : state.Sound client) {next : Nat → Option Block} {object idx : Nat}
    {stmt : MySQLStmt} {bind : MySQLBind} {param : Option Param}
    (others : ∀ {address block}, state.heap address = some block → block.statement = true →
      state.holds (object, idx) = some address → next address = state.heap address)
    (present : state.statements object = some stmt) (found : stmt.m_binds[idx]? = some bind)
    (bound : stmt.bound[idx]? = some param) : bind.Fits client next param := by
  have fits := sound.fits present found bound
  apply fits.frame documented
  intro buffer held
  rcases fits.room held with ⟨block, live, mine, _⟩
  exact others live mine ((holds_of_item present found).trans held)

/-- One parameter changes. -/
theorem Sound.place (sound : state.Sound client) {object idx : Nat} {stmt : MySQLStmt}
    {bind left : MySQLBind} {param : Option Param} {next : Nat → Option Block}
    (present : state.statements object = some stmt) (found : stmt.m_binds[idx]? = some bind)
    (exact : (view (Function.update state.holds (object, idx) left.buffer) next).Exact)
    (fits : left.Fits client next param)
    (others : ∀ {address}, state.heap address ≠ none → bind.buffer ≠ some address →
      next address = state.heap address) :
    ({ state.set object (some (stmt.set idx left param)) with heap := next } :
      Statements).Sound client where
  exact := by
    apply exact.congr
    · rintro ⟨other, place⟩
      change ((Function.update state.statements object _) other).bind _ = _
      simp only [view, Function.update_apply, Prod.mk.injEq]
      by_cases same : other = object
      · simp only [same, true_and, if_true, Option.bind_some, MySQLStmt.set,
          List.getElem?_set, holds_of_statement present]
        rcases List.getElem?_eq_some_iff.mp found with ⟨small, _⟩
        by_cases here : place = idx
        · simp only [here, if_true, small, Option.bind_some]
        · simp only [here, if_false, if_neg (Ne.symm here)]
      · simp only [same, false_and, if_false]
        rfl
    · intro address
      rfl
    · intro address
      rfl
  lengths := by
    intro other another present'
    change Function.update state.statements object _ other = _ at present'
    rw [Function.update_apply] at present'
    split at present'
    · cases present'
      simp only [MySQLStmt.set, List.length_set]
      exact sound.lengths present
    · exact sound.lengths present'
  fits := by
    intro other another place item sent present' found' bound'
    change Function.update state.statements object _ other = _ at present'
    rw [Function.update_apply] at present'
    have apart : ∀ {address block}, (other, place) ≠ (object, idx) →
        state.heap address = some block → block.statement = true →
        state.holds (other, place) = some address → next address = state.heap address := by
      intro address block different live _ held
      apply others
      · rw [live]
        exact Option.some_ne_none _
      · intro own
        exact different (sound.exact.single held ((holds_of_item present found).trans own))
    split at present'
    · rename_i same
      cases present'
      simp only [MySQLStmt.set, List.getElem?_set] at found' bound'
      by_cases here : idx = place
      · rcases List.getElem?_eq_some_iff.mp found with ⟨small, _⟩
        have known : idx < stmt.bound.length := by
          rw [sound.lengths present]
          exact small
        rw [if_pos here, if_pos small] at found'
        rw [if_pos here, if_pos known] at bound'
        cases found'
        cases bound'
        exact fits
      · rw [if_neg here] at found' bound'
        apply sound.frame documented (apart ?_) (same ▸ present) found' bound'
        intro equal
        exact here (Prod.mk.inj equal).2.symm
    · rename_i different
      apply sound.frame documented (apart ?_) present' found' bound'
      intro equal
      exact different (Prod.mk.inj equal).1
  nonempty := by
    intro other another present'
    change Function.update state.statements object _ other = _ at present'
    rw [Function.update_apply] at present'
    split at present'
    · cases present'
      have some := sound.nonempty present
      rwa [MySQLStmt.set, Ne, List.set_eq_nil_iff]
    · exact sound.nonempty present'

omit documented

theorem item_eq_some {stmt : MySQLStmt} {idx : Int} {bind : MySQLBind} :
    item stmt idx = some bind ↔ 0 ≤ idx ∧ stmt.m_binds[idx.toNat]? = some bind := by
  unfold item
  split
  · rename_i negative
    simp [Int.not_le.mpr negative]
  · rename_i positive
    rw [Int.not_lt] at positive
    simp [positive]

theorem item_isSome {stmt : MySQLStmt} {idx : Int} :
    (∃ bind, item stmt idx = some bind) ↔ 0 ≤ idx ∧ idx < stmt.m_binds.length := by
  simp only [item_eq_some, exists_and_left, List.getElem?_eq_some_iff]
  apply and_congr_right
  intro positive
  constructor
  · rintro ⟨_, small, _⟩
    omega
  · intro small
    exact ⟨_, by omega, rfl⟩

variable {next : Statements}

theorem Sound.fault (sound : state.Sound client) (fault : Bool) :
    ({ state with fault } : Statements).Sound client :=
  ⟨sound.exact, sound.lengths, sound.fits, sound.nonempty⟩

include documented

theorem Sound.bind (sound : state.Sound client) (clean : state.fault = false) {object : Nat}
    {idx : Int} {value : Value} {answer : Option Nat}
    (taken : state.step client (.bind object idx value answer) = some next) :
    next.Sound client ∧
      (next.fault = false ↔ state.Heeds client (.bind object idx value answer)) := by
  simp only [step, clean, Bool.false_eq_true, if_false] at taken
  rcases Option.map_eq_some_iff.mp taken with ⟨stmt, present, equal⟩
  subst equal
  have heeds : state.Heeds client (.bind object idx value answer) ↔
      0 ≤ idx ∧ idx < stmt.m_binds.length := by
    simp [Heeds, present]
  rw [heeds, ← item_isSome]
  cases found : item stmt idx with
  | none => exact ⟨sound.fault true, by simp⟩
  | some bind =>
      have found := (item_eq_some.mp found).2
      rcases sound.param present found with ⟨param, bound⟩
      rcases MySQLBind.bindValue_spec documented sound.exact (holds_of_item present found)
        (sound.fits present found bound) value answer with
        ⟨heap, left, returned, done, exact, fits, others⟩
      rw [Option.bind_some, done]
      refine ⟨sound.place documented present found exact fits ?_, by simp [set, clean]⟩
      intro address used apart
      apply others used
      rw [holds_of_item present found]
      exact apart

theorem Sound.bindNull (sound : state.Sound client) (clean : state.fault = false) {object : Nat}
    {idx : Int} (taken : state.step client (.bindNull object idx) = some next) :
    next.Sound client ∧ (next.fault = false ↔ state.Heeds client (.bindNull object idx)) := by
  simp only [step, clean, Bool.false_eq_true, if_false] at taken
  rcases Option.map_eq_some_iff.mp taken with ⟨stmt, present, equal⟩
  subst equal
  have heeds : state.Heeds client (.bindNull object idx) ↔ 0 ≤ idx ∧ idx < stmt.m_binds.length := by
    simp [Heeds, present]
  rw [heeds, ← item_isSome]
  cases found : item stmt idx with
  | none => exact ⟨sound.fault true, by simp⟩
  | some bind =>
      have found := (item_eq_some.mp found).2
      rcases sound.param present found with ⟨param, bound⟩
      refine ⟨sound.place documented present found ?_
        ((sound.fits present found bound).null documented) fun _ _ => rfl, by simp [set, clean]⟩
      change (view (Function.update state.holds (object, idx.toNat) bind.buffer) state.heap).Exact
      rw [← holds_of_item present found, Function.update_eq_self]
      exact sound.exact

theorem Sound.execute (sound : state.Sound client) (clean : state.fault = false) {object : Nat}
    (taken : state.step client (.execute object) = some next) :
    next.Sound client ∧ (next.fault = false ↔ state.Heeds client (.execute object)) := by
  simp only [step, clean, Bool.false_eq_true, if_false] at taken
  rcases Option.map_eq_some_iff.mp taken with ⟨stmt, present, equal⟩
  subst equal
  refine ⟨sound.fault _, ?_⟩
  have unread : ∀ bind ∈ stmt.m_binds, client.read state.heap bind = none ↔
      ¬(bind.buffer = none → bind.buffer_type = .null ∨ client.size bind = 0) := by
    intro bind member
    rcases List.getElem?_of_mem member with ⟨idx, found⟩
    rcases sound.param present found with ⟨param, bound⟩
    rw [(sound.fits present found bound).read_isNone documented]
    tauto
  have reads : (stmt.params client state.heap).isNone = false ↔
      ∀ bind ∈ stmt.m_binds, bind.buffer = none →
        bind.buffer_type = .null ∨ client.size bind = 0 := by
    rw [← Bool.not_eq_true, Option.isNone_iff_eq_none, MySQLStmt.params,
      if_neg (sound.nonempty present), mapM_eq_none]
    constructor
    · intro all bind member
      by_contra broken
      exact all ⟨bind, member, (unread bind member).mpr broken⟩
    · rintro all ⟨bind, member, broken⟩
      exact (unread bind member).mp broken (all bind member)
  simp only [Heeds, present, Option.mem_def, Option.some.injEq, forall_eq']
  exact reads

omit documented

theorem Sound.create (sound : state.Sound client) {object count : Nat} {made : MySQLStmt}
    (absent : state.statements object = none) (done : MySQLStmt.create count = some made) :
    (state.set object (some made)).Sound client := by
  rcases Option.ite_none_left_eq_some.mp done with ⟨positive, same⟩
  cases same
  constructor
  · apply sound.exact.congr
    · rintro ⟨other, idx⟩
      change ((Function.update state.statements object _) other).bind _ = _
      rw [Function.update_apply]
      split
      · rename_i same
        simp only [view, holds, same, absent, Option.bind_none, Option.bind_some,
          List.getElem?_replicate]
        split <;> rfl
      · rfl
    · intro address
      rfl
    · intro address
      rfl
  · intro other stmt present
    change Function.update state.statements object _ other = _ at present
    rw [Function.update_apply] at present
    split at present
    · cases present
      simp only [List.length_replicate]
    · exact sound.lengths present
  · intro other stmt idx bind param present found bound
    change Function.update state.statements object _ other = _ at present
    rw [Function.update_apply] at present
    split at present
    · cases present
      simp only [List.getElem?_replicate] at found bound
      split at found
      · rename_i small
        rw [if_pos small] at bound
        cases found
        cases bound
        exact MySQLBind.fits_new
      · cases found
    · exact sound.fits present found bound
  · intro other stmt present
    change Function.update state.statements object _ other = _ at present
    rw [Function.update_apply] at present
    split at present
    · cases present
      rw [Ne, List.replicate_eq_nil_iff]
      exact positive
    · exact sound.nonempty present

include documented

theorem Sound.destroy (sound : state.Sound client) (clean : state.fault = false) {object : Nat}
    (taken : state.step client (.destroy object) = some next) :
    next.Sound client ∧ next.fault = false := by
  simp only [step, clean, Bool.false_eq_true, if_false] at taken
  rcases Option.map_eq_some_iff.mp taken with ⟨stmt, present, equal⟩
  subst equal
  have held : ∀ idx, state.holds (object, 0 + idx) =
      stmt.m_binds[idx]?.bind MySQLBind.buffer := by
    intro idx
    rw [Nat.zero_add]
    exact holds_of_statement present idx
  rcases MySQLStmt.freeAll_spec sound.exact held with ⟨heap, done, exact, others⟩
  rw [done]
  refine ⟨?_, by simp [set, clean]⟩
  constructor
  · apply exact.congr
    · rintro ⟨other, idx⟩
      change ((Function.update state.statements object _) other).bind _ = _
      rw [Function.update_apply]
      by_cases same : other = object
      · have beyond : stmt.m_binds.length ≤ idx →
            state.holds (object, idx) = none := by
          intro beyond
          rw [holds_of_statement present, List.getElem?_eq_none beyond, Option.bind_none]
        simp only [view, same, if_true, Option.bind_none, true_and, Nat.zero_le, Nat.zero_add]
        split
        · rfl
        · rename_i outside
          exact (beyond (Nat.le_of_not_lt outside)).symm
      · simp only [view, same, if_false, false_and]
        rfl
    · intro address
      rfl
    · intro address
      rfl
  · intro other another present'
    change Function.update state.statements object _ other = _ at present'
    rw [Function.update_apply] at present'
    split at present'
    · cases present'
    · exact sound.lengths present'
  · intro other another idx bind param present' found bound
    change Function.update state.statements object _ other = _ at present'
    rw [Function.update_apply] at present'
    split at present'
    · cases present'
    · rename_i different
      apply sound.frame documented ?_ present' found bound
      intro address block live _ own
      apply others
      · rw [live]
        exact Option.some_ne_none _
      · intro place held
        exact different (Prod.mk.inj (sound.exact.single own held)).1
  · intro other another present'
    change Function.update state.statements object _ other = _ at present'
    rw [Function.update_apply] at present'
    split at present'
    · cases present'
    · exact sound.nonempty present'

/-- Other code changes a block of its own. -/
theorem Sound.other (sound : state.Sound client) {address : Nat} {block : Option Block}
    (foreign : ∀ old ∈ state.heap address, old.statement = false)
    (other : ∀ new ∈ block, new.statement = false) :
    ({ state with heap := Function.update state.heap address block } :
      Statements).Sound client where
  exact := by
    apply sound.exact.congr
    · intro owner
      rfl
    · intro place
      simp only [view, Function.update_apply]
      split
      · rename_i same
        rw [same]
        constructor
        · rintro ⟨new, found, mine⟩
          cases (other new found).symm.trans mine
        · rintro ⟨old, found, mine⟩
          cases (foreign old found).symm.trans mine
      · rfl
    · intro place
      rfl
  lengths := sound.lengths
  fits := by
    intro object stmt idx bind param present found bound
    apply sound.frame documented ?_ present found bound
    intro place live found mine _
    apply Function.update_of_ne
    intro same
    cases (foreign live (same ▸ found)).symm.trans mine
  nonempty := sound.nonempty

omit documented in
theorem foreign_of_others {address : Nat} (others : state.others address = true) :
    ∀ old ∈ state.heap address, old.statement = false := by
  intro old found
  simpa [Statements.others, Option.mem_def.mp found] using others

theorem Sound.step (sound : state.Sound client) {action : StmtAction}
    (taken : state.step client action = some next) :
    next.Sound client ∧
      (next.fault = false ↔ state.fault = false ∧ state.Heeds client action) := by
  have clean : state.fault = false := by
    by_contra broken
    rw [Bool.not_eq_false] at broken
    simp [Statements.step, broken] at taken
  rw [clean, eq_self, true_and]
  cases action with
  | create object count =>
      simp only [Statements.step, clean, Bool.false_eq_true, if_false] at taken
      rcases Option.ite_none_right_eq_some.mp taken with ⟨absent, equal⟩
      cases made : MySQLStmt.create count with
      | none =>
          rw [made] at equal
          cases equal
          have empty : count = 0 := by
            by_contra positive
            simp [MySQLStmt.create, positive] at made
          exact ⟨sound.fault true, iff_of_false Bool.noConfusion fun positive => positive empty⟩
      | some stmt =>
          rw [made] at equal
          cases equal
          refine ⟨sound.create (Option.isNone_iff_eq_none.mp absent) made, ?_⟩
          exact iff_of_true clean (Option.ite_none_left_eq_some.mp made).1
  | bind object idx value answer => exact sound.bind documented clean taken
  | bindNull object idx => exact sound.bindNull documented clean taken
  | execute object => exact sound.execute documented clean taken
  | destroy object =>
      rcases sound.destroy documented clean taken with ⟨kept, still⟩
      exact ⟨kept, iff_of_true still trivial⟩
  | otherMalloc address bytes =>
      simp only [Statements.step, clean, Bool.false_eq_true, if_false] at taken
      rcases Option.ite_none_right_eq_some.mp taken with ⟨free, equal⟩
      cases equal
      refine ⟨(sound.other documented ?_ ?_).fault false, iff_of_true rfl trivial⟩
      · intro old found
        cases free.symm.trans found
      · intro new same
        cases same
        rfl
  | otherWrites address bytes =>
      simp only [Statements.step, clean, Bool.false_eq_true, if_false] at taken
      rcases Option.ite_none_right_eq_some.mp taken with ⟨others, equal⟩
      cases equal
      refine ⟨(sound.other documented (foreign_of_others others) ?_).fault false, iff_of_true rfl trivial⟩
      intro new same
      cases same
      rfl
  | otherFree address =>
      simp only [Statements.step, clean, Bool.false_eq_true, if_false] at taken
      rcases Option.ite_none_right_eq_some.mp taken with ⟨others, equal⟩
      cases equal
      refine ⟨(sound.other documented (foreign_of_others others) ?_).fault false, iff_of_true rfl trivial⟩
      intro new absent
      cases absent

end

theorem sound_new : new.Sound client where
  exact := {
    live := fun held => by cases held
    single := fun held => by cases held
    accounted := by
      rintro address ⟨block, found, _⟩
      cases found
    apart := fun held => by cases held
    kept := fun lost => lost.elim }
  lengths present := by cases present
  fits present := by cases present
  nonempty present := by cases present

theorem Sound.safe (sound : state.Sound client) : state.Safe client where
  buffers := by
    intro object idx stmt bind buffer present found held
    have own := (holds_of_item present found).trans held
    rcases sound.param present found with ⟨param, bound⟩
    refine ⟨(sound.fits present found bound).room held, ?_⟩
    intro other place another left present' found' held'
    exact Prod.mk.inj
      (sound.exact.single ((holds_of_item present' found').trans held') own)
  leaks := by
    intro address block found mine
    rcases sound.exact.accounted ⟨block, found, mine⟩ with ⟨⟨object, idx⟩, held⟩ | lost
    · rcases Option.bind_eq_some_iff.mp held with ⟨stmt, present, held⟩
      rcases Option.bind_eq_some_iff.mp held with ⟨bind, item, held⟩
      exact ⟨object, stmt, bind, present, List.mem_of_getElem? item, held⟩
    · exact lost.elim
  sends := by
    intro object stmt params present bound
    have length := sound.lengths present
    rw [bound, List.length_map] at length
    rw [MySQLStmt.params, if_neg (sound.nonempty present)]
    apply mapM_eq_some length.symm
    intro idx bind param found sent
    have known : stmt.bound[idx]? = some (some param) := by
      rw [bound, List.getElem?_map, sent]
      rfl
    exact (sound.fits present found known).reads rfl

/-- In every run the buffers of the parameters are live blocks of their own with room for
their values, nothing else that the statements allocated is left, and a statement all of whose
parameters were last bound without an exception sends exactly those values. Nothing undefined
happens in exactly the runs that heed the condition at every step. -/
theorem parameters_kept {client : Client} (documented : client.Documented)
    {actions : List StmtAction} {final : Statements}
    (executed : (machine client).run new actions = some final) :
    final.Safe client ∧
      (final.fault = false ↔ (machine client).Meets (Heeds client) new actions) := by
  have whole := @Machine.meets_iff _ _ (machine client) (Heeds client) (Sound client)
    (fun state => state.fault = false) (fun sound taken => sound.step documented taken) _ _
    actions sound_new executed
  exact ⟨whole.1.safe, whole.2.trans (and_iff_right rfl)⟩

/-- A parameter is bound to a longer text, so that its buffer moves, and a second statement
takes the address that is free then. -/
def rebound : List StmtAction :=
  [.create 0 2, .bind 0 0 (bindString [97]) (some 8), .bind 0 1 (bindUint8 .little 7) (some 9),
    .bind 0 0 (bindString [97, 98]) (some 10), .create 1 1,
    .bind 1 0 (bindBlob [1, 2, 3]) (some 8), .execute 0, .execute 1, .bindNull 0 0,
    .execute 0, .destroy 0]

/-- A library that reads what it documents. -/
def connector : Client where
  width := FieldType.sizeof
  read heap bind :=
    if bind.buffer_type = .null then some .null
    else
      (Heap.read heap bind.buffer ((FieldType.sizeof bind.buffer_type).getD bind.buffer_length)).map
        (.value bind.buffer_type bind.is_unsigned)

theorem connector_documented : connector.Documented where
  number same := same
  string := rfl
  blob := rfl
  null isNull := if_pos isNull
  value other := if_neg other

theorem parameters_kept_rebound : ∃ final, (machine connector).run new rebound = some final ∧
    final.Safe connector ∧
    (final.fault = false ↔ (machine connector).Meets (Heeds connector) new rebound) :=
  ⟨_, rfl, parameters_kept connector_documented rfl⟩

end Statements

end Db

end FiberNet
