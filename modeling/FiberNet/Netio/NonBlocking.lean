import FiberNet.Foundation.Machine
import FiberNet.Netio.Transparent

/-! # The non-blocking mode of a registered descriptor

A registered socket or pipe is non-blocking in the kernel, whatever the user asked for; what
the user asked for is the mode in its `FdInfo`. The two are changed by `fcntl` and by `ioctl`.
-/

namespace FiberNet

/-- What the kernel knows of the descriptor: its type, its status flags, whether the next
change of them succeeds. `memory` is the `int` that a `FIONBIO` points to. -/
structure OpenFile where
  fdType : FdType
  nonblock : Bool
  others : CInt
  succeeds : Bool
  memory : CInt
  deriving DecidableEq, Repr

/-- Does an `int` of status flags have `O_NONBLOCK`? -/
def asks (flags : CInt) : Bool :=
  flags &&& O_NONBLOCK != 0

namespace OpenFile

def flags (file : OpenFile) : CInt :=
  if file.nonblock then file.others ||| O_NONBLOCK else file.others &&& ~~~O_NONBLOCK

/-- A third argument of `FIONBIO` that is no pointer into the memory is refused. -/
def call (file : OpenFile) : LibcCall → BitVec 64 × OpenFile
  | .fcntl _ (.setFL arg) =>
      if file.succeeds then
        (0, { file with nonblock := asks arg, others := arg &&& ~~~O_NONBLOCK })
      else (-1, file)
  | .fcntl _ .getFL => (file.flags.setWidth 64, file)
  | .ioctl _ (.fionbio (.pointer _)) =>
      if file.succeeds then (0, { file with nonblock := file.memory != 0 }) else (-1, file)
  | .ioctl _ (.fionbio (.int _)) => (-1, file)
  | _ => (0, file)

def libc : Libc OpenFile where
  call := call
  fdType file _ := file.fdType
  read file _ := some file.memory

end OpenFile

/-- `asked` records what the user asked for last, at first by the mode in which the
descriptor was registered. -/
structure UserMode where
  process : Process OpenFile
  asked : Bool

inductive ModeAction
  | setFL (arg : CInt) (succeeds : Bool)
  | getFL
  /-- `ioctl(fd, FIONBIO, address)`, with a value at the address. -/
  | fionbio (address : Pointer) (value : CInt) (succeeds : Bool)
  deriving DecidableEq, Repr

namespace UserMode

/-- The process before the kernel is asked for a change. -/
def facing (process : Process OpenFile) (succeeds : Bool) (memory : CInt) :
    Process OpenFile :=
  { process with kernel := { process.kernel with succeeds := succeeds, memory := memory } }

def step (fd : CInt) (mode : UserMode) : ModeAction → Option UserMode
  | .setFL arg succeeds =>
      (Wrapper.fcntl OpenFile.libc 1 (facing mode.process succeeds 0) fd (.setFL arg)).map
        fun (_, process) => { process := process, asked := asks arg }
  | .getFL =>
      (Wrapper.fcntl OpenFile.libc 1 mode.process fd .getFL).map
        fun (_, process) => { mode with process := process }
  | .fionbio address value succeeds =>
      (Wrapper.ioctl OpenFile.libc (facing mode.process succeeds value) fd
        (.fionbio (.pointer address))).map
        fun (_, process) => { process := process, asked := value != 0 }

/-- A socket or a pipe whose `FdInfo::init` succeeded. -/
structure Registered (fd : CInt) (mode : UserMode) (info : ManagedFd) : Prop where
  known : mode.process.info fd = some info
  sysBlocking : info.sysBlocking = false
  opened : info.closed = false
  fdType : mode.process.kernel.fdType ≠ .none

def machine (fd : CInt) : Machine UserMode ModeAction where
  initial mode := ∃ info, Registered fd mode info ∧ mode.process.kernel.nonblock = true ∧
    mode.asked = !info.userBlocking
  step := step fd

/-- `do_io`'s assertion holds, and `F_GETFL` reports what the user asked for. -/
structure Good (fd : CInt) (mode : UserMode) : Prop where
  nonblock : ∀ info, mode.process.info fd = some info → info.userBlocking = true →
    mode.process.kernel.nonblock = true
  reports : ∀ flags after,
    Wrapper.fcntl OpenFile.libc 1 mode.process fd .getFL = some (flags, after) →
    asks (BitVec.ofInt 32 flags) = mode.asked

def KeepsGood (fd : CInt) (mode : UserMode) (action : ModeAction) : Prop :=
  ∀ next, step fd mode action = some next → Good fd next

/-- A socket is not set to blocking by `FIONBIO`. Of a pipe, `FIONBIO` and a change that fails
ask for the mode that the kernel has. -/
def Heeds (mode : UserMode) : ModeAction → Prop
  | .setFL arg succeeds =>
      mode.process.kernel.fdType = .pipe → succeeds = false →
        mode.process.kernel.nonblock = asks arg
  | .getFL => True
  | .fionbio _ value succeeds =>
      match mode.process.kernel.fdType with
      | .pipe => mode.process.kernel.nonblock = (value != 0)
      | _ => value = 0 → succeeds = false

/-- A pipe is registered for a user who wants it non-blocking. -/
def Suits (fd : CInt) (mode : UserMode) : Prop :=
  ∀ info, mode.process.info fd = some info → mode.process.kernel.fdType = .pipe →
    info.userBlocking = false

/-! ## One call -/

theorem asks_or (flags : CInt) : asks (flags ||| O_NONBLOCK) = true := by
  rw [asks, bne_iff_ne, ← Wrapper.set_flag_iff, BitVec.or_assoc, BitVec.or_self]

theorem asks_and_not (flags : CInt) : asks (flags &&& ~~~O_NONBLOCK) = false := by
  rw [asks, bne_eq_false_iff_eq, BitVec.and_assoc, BitVec.and_comm (~~~O_NONBLOCK),
    BitVec.and_not_self]
  exact BitVec.and_zero

theorem asks_put (flags : CInt) (nonblock : Bool) :
    asks (if nonblock then flags ||| O_NONBLOCK else flags &&& ~~~O_NONBLOCK) = nonblock := by
  cases nonblock
  · exact asks_and_not flags
  · exact asks_or flags

theorem info_setInfo {process : Process OpenFile} {fd : CInt} {info : ManagedFd}
    (known : process.info fd = some info) (changed : ManagedFd) :
    (process.setInfo fd changed).info fd = some changed := by
  simp only [Process.info, Option.ite_none_left_eq_some] at known ⊢
  rcases known with ⟨nonneg, found⟩
  refine ⟨nonneg, ?_⟩
  have inside : fd.toNat < process.fds.fds.length := by
    by_contra outside
    rw [List.getElem?_eq_none (Nat.not_lt.mp outside)] at found
    cases found
  simp [Process.setInfo, inside]

variable {fd : CInt} {mode : UserMode} {info : ManagedFd}

theorem Registered.managed_socket (registered : Registered fd mode info)
    (socket : mode.process.kernel.fdType = .socket) (succeeds : Bool) (memory : CInt) :
    (facing mode.process succeeds memory).managed OpenFile.libc fd = some info := by
  have known : (facing mode.process succeeds memory).info fd = some info := registered.known
  rw [Process.managed, known]
  simp [facing, OpenFile.libc, socket, registered.opened]

theorem Registered.managed_pipe (registered : Registered fd mode info)
    (pipe : mode.process.kernel.fdType = .pipe) (succeeds : Bool) (memory : CInt) :
    (facing mode.process succeeds memory).managed OpenFile.libc fd = none := by
  have known : (facing mode.process succeeds memory).info fd = some info := registered.known
  rw [Process.managed, known]
  simp [facing, OpenFile.libc, pipe]

theorem asks_flags (file : OpenFile) : asks file.flags = file.nonblock := by
  rw [OpenFile.flags]
  cases file.nonblock
  · exact asks_and_not _
  · exact asks_or _

/-- What `F_GETFL` reports of a socket is the user's mode, of a pipe the kernel's. -/
theorem Registered.getFL (registered : Registered fd mode info) :
    ∃ flags after, Wrapper.fcntl OpenFile.libc 1 mode.process fd .getFL = some (flags, after) ∧
      after.kernel = mode.process.kernel ∧ after.fds = mode.process.fds ∧
      asks (BitVec.ofInt 32 flags) =
        if mode.process.kernel.fdType = .pipe then mode.process.kernel.nonblock
        else !info.userBlocking := by
  have answer : (mode.process.callInt OpenFile.libc (.fcntl fd .getFL)).1 =
      mode.process.kernel.flags := by
    show (mode.process.kernel.flags.setWidth 64).setWidth 32 = mode.process.kernel.flags
    simp
  have managed : (mode.process.callInt OpenFile.libc (.fcntl fd .getFL)).2.managed
      OpenFile.libc fd = mode.process.managed OpenFile.libc fd := rfl
  rw [Wrapper.fcntl_getFL, managed]
  cases fdType : mode.process.kernel.fdType with
  | none => exact absurd fdType registered.fdType
  | socket =>
      have socket : mode.process.managed OpenFile.libc fd = some info :=
        registered.managed_socket fdType mode.process.kernel.succeeds
          mode.process.kernel.memory
      rw [socket]
      refine ⟨_, _, rfl, rfl, rfl, ?_⟩
      rw [BitVec.ofInt_toInt, asks_put, if_neg (by decide)]
      rfl
  | pipe =>
      have pipe : mode.process.managed OpenFile.libc fd = none :=
        registered.managed_pipe fdType mode.process.kernel.succeeds
          mode.process.kernel.memory
      rw [pipe]
      refine ⟨_, _, rfl, rfl, rfl, ?_⟩
      rw [BitVec.ofInt_toInt, answer, asks_flags, if_pos rfl]

/-- The promise in terms of the two modes. -/
theorem Registered.good_iff (registered : Registered fd mode info) :
    Good fd mode ↔
      (info.userBlocking = true → mode.process.kernel.nonblock = true) ∧
        (if mode.process.kernel.fdType = .pipe then mode.process.kernel.nonblock
          else !info.userBlocking) = mode.asked := by
  rcases registered.getFL with ⟨flags, after, called, _, _, reported⟩
  rw [← reported]
  constructor
  · intro good
    exact ⟨good.nonblock info registered.known, good.reports flags after called⟩
  · rintro ⟨nonblock, reports⟩
    refine ⟨?_, ?_⟩
    · intro other known
      rw [registered.known] at known
      cases known
      exact nonblock
    · intro other last again
      rw [called] at again
      cases again
      exact reports

/-- One step leaves the descriptor registered, with these modes. -/
structure Becomes (fd : CInt) (mode next : UserMode) (userBlocking nonblock asked : Bool) :
    Prop where
  registered : ∃ info, Registered fd next info ∧ info.userBlocking = userBlocking
  fdType : next.process.kernel.fdType = mode.process.kernel.fdType
  nonblock : next.process.kernel.nonblock = nonblock
  asked : next.asked = asked

/-- A descriptor is registered with whatever mode the user gave it. -/
theorem Registered.change {next : UserMode} (registered : Registered fd mode info)
    {nonblock : Bool}
    (known : next.process.info fd = some (info.setNonBlock nonblock))
    (fdType : next.process.kernel.fdType = mode.process.kernel.fdType) :
    ∃ changed, Registered fd next changed ∧ changed.userBlocking = !nonblock := by
  refine ⟨_, ⟨known, registered.sysBlocking, registered.opened, ?_⟩, rfl⟩
  rw [fdType]
  exact registered.fdType

theorem Registered.keep {next : UserMode} (registered : Registered fd mode info)
    (known : next.process.info fd = mode.process.info fd)
    (fdType : next.process.kernel.fdType = mode.process.kernel.fdType) :
    ∃ kept, Registered fd next kept ∧ kept.userBlocking = info.userBlocking := by
  refine ⟨info, ⟨known.trans registered.known, registered.sysBlocking, registered.opened, ?_⟩,
    rfl⟩
  rw [fdType]
  exact registered.fdType

theorem Registered.setFL_socket (registered : Registered fd mode info)
    (socket : mode.process.kernel.fdType = .socket) (arg : CInt) (succeeds : Bool) :
    ∃ next, step fd mode (.setFL arg succeeds) = some next ∧
      Becomes fd mode next (!asks arg) (succeeds || mode.process.kernel.nonblock)
        (asks arg) := by
  have managed := registered.managed_socket socket succeeds 0
  have known : (facing mode.process succeeds 0).info fd = some info := registered.known
  have flagged := asks_or arg
  simp only [step, Wrapper.fcntl, managed, ManagedFd.isSysNonBlock, registered.sysBlocking,
    Bool.not_false, if_true]
  refine ⟨_, rfl, registered.change (info_setInfo known _) ?_, ?_, ?_, rfl⟩
  · cases succeeds <;> rfl
  · cases succeeds <;> rfl
  · cases succeeds
    · rfl
    · exact flagged

theorem Registered.setFL_pipe (registered : Registered fd mode info)
    (pipe : mode.process.kernel.fdType = .pipe) (arg : CInt) (succeeds : Bool) :
    ∃ next, step fd mode (.setFL arg succeeds) = some next ∧
      Becomes fd mode next info.userBlocking
        (if succeeds then asks arg else mode.process.kernel.nonblock) (asks arg) := by
  have managed := registered.managed_pipe pipe succeeds 0
  simp only [step, Wrapper.fcntl, managed]
  refine ⟨_, rfl, registered.keep rfl ?_, ?_, ?_, rfl⟩ <;> cases succeeds <;> rfl

theorem Registered.fionbio_socket (registered : Registered fd mode info)
    (socket : mode.process.kernel.fdType = .socket) (address : Pointer) (value : CInt)
    (succeeds : Bool) :
    ∃ next, step fd mode (.fionbio address value succeeds) = some next ∧
      Becomes fd mode next (!(value != 0))
        (if succeeds then value != 0 else mode.process.kernel.nonblock) (value != 0) := by
  have managed := registered.managed_socket socket succeeds value
  have known : (facing mode.process succeeds value).info fd = some info := registered.known
  have read : Wrapper.followed OpenFile.libc (facing mode.process succeeds value)
      (.pointer address) = some value := rfl
  simp only [step, Wrapper.ioctl, read, managed]
  refine ⟨_, rfl, registered.change (info_setInfo known _) ?_, ?_, ?_, rfl⟩ <;>
    cases succeeds <;> rfl

theorem Registered.fionbio_pipe (registered : Registered fd mode info)
    (pipe : mode.process.kernel.fdType = .pipe) (address : Pointer) (value : CInt)
    (succeeds : Bool) :
    ∃ next, step fd mode (.fionbio address value succeeds) = some next ∧
      Becomes fd mode next info.userBlocking mode.process.kernel.nonblock (value != 0) := by
  have managed := registered.managed_pipe pipe succeeds value
  have read : Wrapper.followed OpenFile.libc (facing mode.process succeeds value)
      (.pointer address) = some value := rfl
  simp only [step, Wrapper.ioctl, read, managed]
  exact ⟨_, rfl, registered.keep rfl rfl, rfl, rfl, rfl⟩

theorem Registered.step_getFL (registered : Registered fd mode info) :
    ∃ next, step fd mode .getFL = some next ∧
      Becomes fd mode next info.userBlocking mode.process.kernel.nonblock mode.asked := by
  rcases registered.getFL with ⟨flags, after, called, kernel, fds, _⟩
  refine ⟨{ mode with process := after }, ?_, ?_⟩
  · rw [step, called]
    rfl
  · have known : after.info fd = mode.process.info fd := by
      rw [Process.info, Process.info, fds]
    have fdType : after.kernel.fdType = mode.process.kernel.fdType := by rw [kernel]
    have nonblock : after.kernel.nonblock = mode.process.kernel.nonblock := by rw [kernel]
    exact ⟨registered.keep known fdType, fdType, nonblock, rfl⟩

/-! ## Every run -/

/-- What a run that was good so far is at. -/
structure Sound (fd : CInt) (mode : UserMode) : Prop where
  registered : ∃ info, Registered fd mode info ∧
    (mode.process.kernel.fdType = .pipe → info.userBlocking = false)
  nonblock : mode.process.kernel.fdType = .socket → mode.process.kernel.nonblock = true
  good : Good fd mode

theorem Becomes.good_iff {next : UserMode} {userBlocking nonblock asked : Bool}
    (becomes : Becomes fd mode next userBlocking nonblock asked) :
    Good fd next ↔
      (userBlocking = true → nonblock = true) ∧
        (if mode.process.kernel.fdType = .pipe then nonblock else !userBlocking) = asked := by
  rcases becomes.registered with ⟨info, registered, same⟩
  rw [registered.good_iff, same, becomes.fdType, becomes.nonblock, becomes.asked]

theorem keepsGood_iff_of_step {next : UserMode} {action : ModeAction}
    (taken : step fd mode action = some next) : KeepsGood fd mode action ↔ Good fd next := by
  simp [KeepsGood, taken]

theorem keepsGood_iff (sound : Sound fd mode) (action : ModeAction) :
    KeepsGood fd mode action ↔ Heeds mode action := by
  rcases sound.registered with ⟨info, registered, user⟩
  have good := registered.good_iff.mp sound.good
  cases fdType : mode.process.kernel.fdType with
  | none => exact absurd fdType registered.fdType
  | socket =>
      have nonblock := sound.nonblock fdType
      cases action with
      | getFL =>
          rcases registered.step_getFL with ⟨next, taken, becomes⟩
          rw [keepsGood_iff_of_step taken, becomes.good_iff]
          exact iff_of_true good trivial
      | setFL arg succeeds =>
          rcases registered.setFL_socket fdType arg succeeds with ⟨next, taken, becomes⟩
          rw [keepsGood_iff_of_step taken, becomes.good_iff]
          simp [Heeds, fdType, nonblock]
      | fionbio address value succeeds =>
          rcases registered.fionbio_socket fdType address value succeeds with
            ⟨next, taken, becomes⟩
          rw [keepsGood_iff_of_step taken, becomes.good_iff]
          by_cases zero : value = 0 <;> cases succeeds <;> simp [Heeds, fdType, nonblock, zero]
  | pipe =>
      have wanted := user fdType
      cases action with
      | getFL =>
          rcases registered.step_getFL with ⟨next, taken, becomes⟩
          rw [keepsGood_iff_of_step taken, becomes.good_iff]
          exact iff_of_true good trivial
      | setFL arg succeeds =>
          rcases registered.setFL_pipe fdType arg succeeds with ⟨next, taken, becomes⟩
          rw [keepsGood_iff_of_step taken, becomes.good_iff]
          cases succeeds <;> simp [Heeds, fdType, wanted]
      | fionbio address value succeeds =>
          rcases registered.fionbio_pipe fdType address value succeeds with
            ⟨next, taken, becomes⟩
          rw [keepsGood_iff_of_step taken, becomes.good_iff]
          simp [Heeds, fdType, wanted]

/-- A good state that a sound one becomes is sound. -/
theorem Sound.becomes {next : UserMode} {userBlocking nonblock asked : Bool}
    (becomes : Becomes fd mode next userBlocking nonblock asked)
    (user : mode.process.kernel.fdType = .pipe → userBlocking = false)
    (kernel : mode.process.kernel.fdType = .socket → nonblock = true)
    (good : Good fd next) : Sound fd next := by
  rcases becomes.registered with ⟨info, registered, same⟩
  refine ⟨⟨info, registered, ?_⟩, ?_, good⟩
  · rw [becomes.fdType, same]
    exact user
  · rw [becomes.fdType, becomes.nonblock]
    exact kernel

theorem Sound.step (sound : Sound fd mode) {action : ModeAction} {next : UserMode}
    (heeds : Heeds mode action) (taken : step fd mode action = some next) : Sound fd next := by
  have good := (keepsGood_iff_of_step taken).mp ((keepsGood_iff sound action).mpr heeds)
  rcases sound.registered with ⟨info, registered, user⟩
  cases action with
  | getFL =>
      rcases registered.step_getFL with ⟨other, took, becomes⟩
      cases took.symm.trans taken
      exact .becomes becomes user sound.nonblock good
  | setFL arg succeeds =>
      cases fdType : mode.process.kernel.fdType with
      | none => exact absurd fdType registered.fdType
      | socket =>
          rcases registered.setFL_socket fdType arg succeeds with ⟨other, took, becomes⟩
          cases took.symm.trans taken
          exact .becomes becomes (by simp [fdType]) (by simp [sound.nonblock fdType]) good
      | pipe =>
          rcases registered.setFL_pipe fdType arg succeeds with ⟨other, took, becomes⟩
          cases took.symm.trans taken
          exact .becomes becomes user (by simp [fdType]) good
  | fionbio address value succeeds =>
      cases fdType : mode.process.kernel.fdType with
      | none => exact absurd fdType registered.fdType
      | socket =>
          rcases registered.fionbio_socket fdType address value succeeds with
            ⟨other, took, becomes⟩
          cases took.symm.trans taken
          refine .becomes becomes (by simp [fdType]) ?_ good
          intro _
          have kept := heeds
          simp only [Heeds, fdType] at kept
          cases succeeds with
          | false => exact sound.nonblock fdType
          | true => simpa using kept
      | pipe =>
          rcases registered.fionbio_pipe fdType address value succeeds with
            ⟨other, took, becomes⟩
          cases took.symm.trans taken
          exact .becomes becomes user (by simp [fdType]) good

/-- The entry that `FdInfo::init` leaves when it succeeds. -/
def opened (fdType : FdType) : ManagedFd where
  userBlocking := true
  closed := false
  sysBlocking := false
  fdType := fdType

/-- `FdInfo::init` that succeeds leaves the flag set in the kernel. -/
theorem init_of_succeeds {process : Process OpenFile}
    (fdType : process.kernel.fdType ≠ .none) (succeeds : process.kernel.succeeds = true)
    (flags : process.kernel.flags ≠ -1) (fd : CInt) :
    (process.init OpenFile.libc fd).1 = opened process.kernel.fdType ∧
      (process.init OpenFile.libc fd).2.fds = process.fds ∧
      (process.init OpenFile.libc fd).2.kernel.fdType = process.kernel.fdType ∧
      (process.init OpenFile.libc fd).2.kernel.nonblock = true := by
  have asked := asks_or process.kernel.flags
  have flags : process.kernel.flags ≠ 4294967295#32 := flags
  simp [Process.init, Process.callInt, Process.call, OpenFile.libc, OpenFile.call, opened,
    fdType, succeeds, flags, asked]

/-- Where a run starts: the descriptor was registered as a socket or a pipe. -/
theorem initial_of_register {process after : Process OpenFile} {fd : CInt}
    (nonneg : 0 ≤ fd.toInt) (fdType : process.kernel.fdType ≠ .none)
    (succeeds : process.kernel.succeeds = true) (flags : process.kernel.flags ≠ -1)
    (registered : process.register OpenFile.libc fd = some after) :
    (machine fd).initial ⟨after, false⟩ := by
  rcases init_of_succeeds fdType succeeds flags fd with ⟨info, fds, type, nonblock⟩
  rw [Wrapper.register_of_nonneg nonneg, info] at registered
  rcases Option.map_eq_some_iff.mp registered with ⟨⟨table, entry⟩, found, rfl⟩
  simp only [FdTable.lookUp, Bool.true_eq_false, if_false] at found
  split at found
  · cases found
  · rename_i grown _
    split at found
    · rename_i inside
      cases found
      refine ⟨opened process.kernel.fdType, ⟨?_, rfl, rfl, ?_⟩, nonblock, rfl⟩
      · rw [Process.info, if_neg (Int.not_lt.mpr nonneg)]
        simp [inside]
      · show (process.init OpenFile.libc fd).2.kernel.fdType ≠ .none
        rw [type]
        exact fdType
    · cases found

/-- A registered descriptor is good when it is registered, and through every call of a run, in
exactly the runs that heed these modes. -/
theorem non_blocking_iff {fd : CInt} {start : UserMode} (starts : (machine fd).initial start)
    (actions : List ModeAction) :
    Good fd start ∧ (machine fd).Meets (KeepsGood fd) start actions ↔
      Suits fd start ∧ (machine fd).Meets Heeds start actions := by
  rcases starts with ⟨info, registered, nonblock, asked⟩
  have suits : Good fd start ↔ Suits fd start := by
    rw [registered.good_iff, nonblock, asked]
    constructor
    · rintro ⟨_, reports⟩ other known pipe
      rw [registered.known] at known
      cases known
      rw [if_pos pipe] at reports
      simpa using reports.symm
    · intro suits
      refine ⟨fun _ => rfl, ?_⟩
      split
      · rename_i pipe
        rw [suits info registered.known pipe]
        rfl
      · rfl
  rw [suits]
  apply and_congr_right
  intro suited
  have sound : Sound fd start := by
    refine ⟨⟨info, registered, suited info registered.known⟩, fun _ => nonblock, ?_⟩
    exact suits.mpr suited
  exact Machine.meets_congr (fun sound => keepsGood_iff sound _)
    (fun sound heeds taken => sound.step heeds taken) actions sound

/-- Descriptor 5, a socket that has just been registered. -/
def accepted : UserMode where
  process := {
    fds := { fds := (FdTable.new ManagedFd).fds.set 5 (some (opened .socket)) }
    kernel := {
      fdType := .socket, nonblock := true, others := 2, succeeds := true, memory := 0 }
    calls := [] }
  asked := false

theorem accepted_initial : (machine 5).initial accepted := by
  refine ⟨opened .socket, ⟨?_, rfl, rfl, by decide⟩, rfl, rfl⟩
  have length := length_resize ([] : List (Option ManagedFd)) 4096
  simp [Process.info, accepted, FdTable.new, length]

theorem non_blocking_of_request :
    Good 5 accepted ∧ (machine 5).Meets (KeepsGood 5) accepted
      [.setFL 0o4002 true, .getFL, .setFL 2 true] := by
  rw [non_blocking_iff accepted_initial]
  constructor
  · intro info _ pipe
    cases pipe
  · simp [Machine.Meets, Heeds]

/-- A socket is asked to block by `FIONBIO`. -/
theorem not_non_blocking :
    ¬ ∀ (fd : CInt) (start : UserMode) (actions : List ModeAction),
      (machine fd).initial start →
      Good fd start ∧ (machine fd).Meets (KeepsGood fd) start actions := by
  intro holds
  have kept := ((holds 5 accepted [.fionbio 64 0 true] accepted_initial).2).1
  rcases accepted_initial with ⟨info, registered, _⟩
  rcases registered.fionbio_socket rfl 64 0 true with ⟨next, taken, becomes⟩
  have good := becomes.good_iff.mp (kept next taken)
  exact absurd (good.1 rfl) (by decide)

end UserMode

end FiberNet
