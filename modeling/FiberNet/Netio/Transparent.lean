import FiberNet.Netio.Wrappers

/-! # Wrappers with hooks off

Which wrappers are the function they wrap on a thread whose hook state is `false`, and for
which arguments.
-/

namespace FiberNet

/-- Which function a call is of. -/
def LibcCall.function (call : LibcCall) : Nat :=
  call.ctorIdx

namespace Wrapper

variable {Kernel : Type} {libc : Libc Kernel} {process : Process Kernel}

/-- The wrapper terminates, makes the one call of the original that it was given, and
answers what that call answers. -/
def Transparent (libc : Libc Kernel) (dup3Found : Bool) (process : Process Kernel)
    (call : LibcCall) : Prop :=
  ∃ fuel result after, wrapper libc process dup3Found fuel call = some (result, after) ∧
    after.calls.filter (fun other => other.function = call.function) =
      (process.calls ++ [call]).filter (fun other => other.function = call.function) ∧
    result = call.returns (libc.call process.kernel call).1

/-- An answer that is still the same after `int do_io`. -/
def FitsInt (answer : BitVec 64) : Prop :=
  (answer.setWidth 32).toInt = answer.toInt

/-- The answer `fd` of `accept` has a place in the table of descriptors. -/
def HasPlace (process : Process Kernel) (fd : CInt) : Prop :=
  0 ≤ fd.toInt → fd.toNat < process.fds.fds.length ∨ 0 < fd.toNat ∧ fd.toNat < 2 ^ 30

def Harmless (libc : Libc Kernel) (process : Process Kernel) (call : LibcCall) : Prop :=
  match call with
  | .accept _ _ _ => HasPlace process (process.callInt libc call).1
  | .read _ _ _ | .readv _ _ _ | .recv _ _ _ _ | .recvfrom _ _ _ _ _ _ | .recvmsg _ _ _
  | .write _ _ _ | .writev _ _ _ | .send _ _ _ _ | .sendto _ _ _ _ _ _ | .sendmsg _ _ _ =>
      FitsInt (libc.call process.kernel call).1
  | .fcntl fd (.setFL arg) =>
      ∀ info, process.managed libc fd = some info →
        (arg &&& O_NONBLOCK ≠ 0 ↔ info.isSysNonBlock = true)
  | .fcntl fd .getFL =>
      ∀ info, (process.callInt libc call).2.managed libc fd = some info →
        ((process.callInt libc call).1 &&& O_NONBLOCK ≠ 0 ↔ info.isUserNonBlock = true)
  | .fcntl _ (.lock _ _) | .fcntl _ (.owner _ _) | .fcntl _ (.other _ _) => False
  | .ioctl fd (.fionbio arg) =>
      (process.managed libc fd).isSome ∧ (followed libc process arg).isSome
  | .dup2 _ _ | .dup3 _ _ _ => False
  | _ => True

/-! ## The flag -/

theorem O_NONBLOCK_eq : O_NONBLOCK = BitVec.twoPow 32 11 := by decide

theorem flag_iff (flags : CInt) : flags &&& O_NONBLOCK ≠ 0 ↔ flags.getLsbD 11 = true := by
  rw [O_NONBLOCK_eq, BitVec.and_twoPow]
  split
  · rename_i flag
    exact iff_of_true (by decide) flag
  · rename_i flag
    exact iff_of_false (fun none => none rfl) flag

theorem set_flag_iff (flags : CInt) :
    flags ||| O_NONBLOCK = flags ↔ flags &&& O_NONBLOCK ≠ 0 := by
  rw [flag_iff, O_NONBLOCK_eq]
  constructor
  · intro same
    have flag := congrArg (BitVec.getLsbD · 11) same
    simpa using flag
  · intro flag
    apply BitVec.eq_of_getLsbD_eq
    intro index inside
    rw [BitVec.getLsbD_or, BitVec.getLsbD_twoPow]
    rcases eq_or_ne index 11 with equal | different
    · simp [equal, flag]
    · simp [different.symm]

theorem clear_flag_iff (flags : CInt) :
    flags &&& ~~~O_NONBLOCK = flags ↔ ¬ flags &&& O_NONBLOCK ≠ 0 := by
  rw [flag_iff, O_NONBLOCK_eq]
  constructor
  · intro same flag
    rw [← same, BitVec.getLsbD_and, BitVec.getLsbD_not, BitVec.getLsbD_twoPow] at flag
    simp at flag
  · intro flag
    apply BitVec.eq_of_getLsbD_eq
    intro index inside
    rw [BitVec.getLsbD_and, BitVec.getLsbD_not, BitVec.getLsbD_twoPow]
    rcases eq_or_ne index 11 with equal | different
    · rw [equal, (Bool.not_eq_true _).mp flag, Bool.false_and]
    · simp [different.symm, inside]

/-- The flag set or cleared as told leaves the flags that have it so. -/
theorem put_flag_iff (flags : CInt) (nonblock : Bool) :
    (if nonblock then flags ||| O_NONBLOCK else flags &&& ~~~O_NONBLOCK) = flags ↔
      (flags &&& O_NONBLOCK ≠ 0 ↔ nonblock = true) := by
  cases nonblock with
  | false =>
      rw [if_neg Bool.false_ne_true, clear_flag_iff]
      simp
  | true =>
      rw [if_pos rfl, set_flag_iff]
      exact (iff_true_right rfl).symm

/-! ## One wrapper -/

/-- A wrapper that ends in one way is judged by that way. -/
theorem transparent_iff {dup3Found : Bool} {call : LibcCall} {result : Int}
    {after : Process Kernel}
    (ends : ∀ fuel, wrapper libc process dup3Found (fuel + 1) call = some (result, after))
    (starts : ∀ other, wrapper libc process dup3Found 0 call = some other →
      other = (result, after)) :
    Transparent libc dup3Found process call ↔
      after.calls.filter (fun other => other.function = call.function) =
        (process.calls ++ [call]).filter (fun other => other.function = call.function) ∧
      result = call.returns (libc.call process.kernel call).1 := by
  constructor
  · rintro ⟨fuel, other, last, ran, once, answered⟩
    cases fuel with
    | zero =>
        cases starts _ ran
        exact ⟨once, answered⟩
    | succ fuel =>
        rw [ends] at ran
        cases ran
        exact ⟨once, answered⟩
  · rintro ⟨once, answered⟩
    exact ⟨1, result, after, ends 0, once, answered⟩

theorem eq_of_once {calls : List LibcCall} {other call : LibcCall}
    (once : (calls ++ [other]).filter (fun other => other.function = call.function) =
      (calls ++ [call]).filter (fun other => other.function = call.function))
    (same : other.function = call.function) : other = call := by
  simpa [List.filter_append, same] using once

/-- A wrapper that does not count its nested calls. -/
theorem transparent_iff_of_const {dup3Found : Bool} {call : LibcCall} {result : Int}
    {after : Process Kernel}
    (ends : ∀ fuel, wrapper libc process dup3Found fuel call = some (result, after)) :
    Transparent libc dup3Found process call ↔
      after.calls.filter (fun other => other.function = call.function) =
        (process.calls ++ [call]).filter (fun other => other.function = call.function) ∧
      result = call.returns (libc.call process.kernel call).1 := by
  apply transparent_iff fun fuel => ends (fuel + 1)
  intro other ran
  rw [ends 0] at ran
  exact (Option.some.inj ran).symm

theorem transparent_original {dup3Found : Bool} {call : LibcCall}
    (ends : ∀ fuel, wrapper libc process dup3Found fuel call = original libc process call) :
    Transparent libc dup3Found process call := by
  rw [transparent_iff_of_const ends]
  exact ⟨rfl, rfl⟩

theorem transparent_doIo {dup3Found : Bool} {call : LibcCall}
    (ends : ∀ fuel, wrapper libc process dup3Found fuel call = doIo libc process call)
    (returns : call.returns = BitVec.toInt) :
    Transparent libc dup3Found process call ↔ FitsInt (libc.call process.kernel call).1 := by
  rw [transparent_iff_of_const ends, returns]
  exact and_iff_right rfl

/-! ## The wrappers that call themselves -/

theorem fcntl_lock (fuel : Nat) (fd : CInt) (cmd : LockCommand) (arg : Pointer) :
    fcntl libc fuel process fd (.lock cmd arg) = none := by
  induction fuel with
  | zero => rfl
  | succ fuel induction => exact induction

theorem fcntl_owner (fuel : Nat) (fd : CInt) (cmd : OwnerCommand) (arg : Pointer) :
    fcntl libc fuel process fd (.owner cmd arg) = none := by
  induction fuel with
  | zero => rfl
  | succ fuel induction => exact induction

theorem fcntl_other (fuel : Nat) (fd cmd : CInt) (args : List (BitVec 64)) :
    fcntl libc fuel process fd (.other cmd args) = none := by
  induction fuel generalizing args with
  | zero => rfl
  | succ fuel induction => exact induction []

theorem dup2_none (fuel : Nat) (oldfd newfd : CInt) :
    dup2 fuel process oldfd newfd = none := by
  induction fuel with
  | zero => rfl
  | succ fuel induction => rw [dup2, induction, Option.map_none]

theorem not_transparent_of_none {dup3Found : Bool} {call : LibcCall}
    (never : ∀ fuel, wrapper libc process dup3Found fuel call = none) :
    ¬ Transparent libc dup3Found process call := by
  rintro ⟨fuel, result, after, ran, _⟩
  rw [never fuel] at ran
  cases ran

/-! ## `fcntl` -/

theorem transparent_fcntl (dup3Found : Bool) {fd : CInt} {cmd : FcntlCommand} {result : Int}
    {after : Process Kernel}
    (ends : ∀ fuel, fcntl libc (fuel + 1) process fd cmd = some (result, after)) :
    Transparent libc dup3Found process (.fcntl fd cmd) ↔
      after.calls.filter (fun other => other.function = (LibcCall.fcntl fd cmd).function) =
        (process.calls ++ [LibcCall.fcntl fd cmd]).filter
          (fun other => other.function = (LibcCall.fcntl fd cmd).function) ∧
      result = ((libc.call process.kernel (.fcntl fd cmd)).1.setWidth 32).toInt := by
  have ends : ∀ fuel, wrapper libc process dup3Found (fuel + 1) (.fcntl fd cmd) =
      some (result, after) := ends
  apply transparent_iff ends
  intro other ran
  cases ran

theorem fcntl_getFL (fuel : Nat) (fd : CInt) :
    fcntl libc (fuel + 1) process fd .getFL =
      match (process.callInt libc (.fcntl fd .getFL)).2.managed libc fd with
      | none =>
          some ((process.callInt libc (.fcntl fd .getFL)).1.toInt,
            (process.callInt libc (.fcntl fd .getFL)).2)
      | some info =>
          some ((if info.isUserNonBlock then
              (process.callInt libc (.fcntl fd .getFL)).1 ||| O_NONBLOCK
            else (process.callInt libc (.fcntl fd .getFL)).1 &&& ~~~O_NONBLOCK).toInt,
            (process.callInt libc (.fcntl fd .getFL)).2) := rfl

theorem transparent_setFL (dup3Found : Bool) (fd arg : CInt) :
    Transparent libc dup3Found process (.fcntl fd (.setFL arg)) ↔
      Harmless libc process (.fcntl fd (.setFL arg)) := by
  cases managed : process.managed libc fd with
  | none =>
      rw [transparent_fcntl dup3Found fun fuel => by simp only [fcntl, managed]; rfl]
      exact iff_of_true ⟨rfl, rfl⟩ (by simp [Harmless, managed])
  | some info =>
      rw [transparent_fcntl dup3Found fun fuel => by simp only [fcntl, managed]; rfl]
      simp only [Harmless, managed, Option.some.injEq, forall_eq']
      rw [← put_flag_iff]
      constructor
      · rintro ⟨once, _⟩
        have same := eq_of_once once rfl
        simpa using same
      · intro same
        rw [same]
        exact ⟨rfl, rfl⟩

theorem transparent_getFL (dup3Found : Bool) (fd : CInt) :
    Transparent libc dup3Found process (.fcntl fd .getFL) ↔
      Harmless libc process (.fcntl fd .getFL) := by
  cases managed : (process.callInt libc (.fcntl fd .getFL)).2.managed libc fd with
  | none =>
      rw [transparent_fcntl dup3Found fun fuel => by rw [fcntl_getFL, managed]]
      exact iff_of_true ⟨rfl, rfl⟩ (by simp [Harmless, managed])
  | some info =>
      rw [transparent_fcntl dup3Found fun fuel => by rw [fcntl_getFL, managed]]
      simp only [Harmless, managed, Option.some.injEq, forall_eq']
      rw [← put_flag_iff]
      constructor
      · rintro ⟨_, same⟩
        exact BitVec.eq_of_toInt_eq same
      · intro same
        rw [same]
        exact ⟨rfl, rfl⟩

/-! ## `ioctl` -/

theorem transparent_fionbio (dup3Found : Bool) (fd : CInt) (arg : IoctlArg) :
    Transparent libc dup3Found process (.ioctl fd (.fionbio arg)) ↔
      Harmless libc process (.ioctl fd (.fionbio arg)) := by
  cases read : followed libc process arg with
  | none =>
      refine iff_of_false (not_transparent_of_none fun fuel => ?_) ?_
      · simp only [wrapper, ioctl, read]
      · simp [Harmless, read]
  | some value =>
      cases managed : process.managed libc fd with
      | none =>
          have passes : ∀ fuel, wrapper libc process dup3Found fuel (.ioctl fd (.fionbio arg)) =
              original libc process
                (.ioctl fd (.fionbio (.int (if value != 0 then 1 else 0)))) := by
            intro fuel
            simp only [wrapper, ioctl, read, managed]
          rw [transparent_iff_of_const passes]
          refine iff_of_false ?_ (by simp [Harmless, managed])
          rintro ⟨once, _⟩
          have same := eq_of_once once rfl
          cases arg with
          | pointer address => simp at same
          | int value => cases read
      | some info =>
          have passes : ∀ fuel, wrapper libc process dup3Found fuel (.ioctl fd (.fionbio arg)) =
              original libc (process.setInfo fd (info.setNonBlock (value != 0)))
                (.ioctl fd (.fionbio arg)) := by
            intro fuel
            simp only [wrapper, ioctl, read, managed]
          rw [transparent_iff_of_const passes]
          exact iff_of_true ⟨rfl, rfl⟩ (by simp [Harmless, managed, read])

/-! ## `accept` -/

/-- `FdInfo::init` calls nothing but `fcntl_f` for the new descriptor. -/
theorem init_calls (libc : Libc Kernel) (process : Process Kernel) (fd : CInt) :
    (process.init libc fd).2.fds = process.fds ∧
      ∃ cmds : List FcntlCommand, (process.init libc fd).2.calls =
        process.calls ++ cmds.map (.fcntl fd) := by
  simp only [Process.init]
  split
  · split
    · split
      · exact ⟨rfl, [.getFL, .setFL _], List.append_assoc ..⟩
      · exact ⟨rfl, [.getFL, .setFL _], List.append_assoc ..⟩
    · exact ⟨rfl, [.getFL], rfl⟩
  · exact ⟨rfl, [], (List.append_nil _).symm⟩

theorem lookUp_isSome_iff (manager : FdTable ManagedFd) (fd : Nat) (info : ManagedFd) :
    (manager.lookUp fd true info).isSome ↔
      fd < manager.fds.length ∨ 0 < fd ∧ fd < 2 ^ 30 := by
  simp only [FdTable.lookUp, FdTable.grow, Bool.true_eq_false, if_false]
  split
  · rename_i grows
    split at grows
    · cases grows
    · split at grows
      · cases grows
      · simp only [Option.isSome_none, Bool.false_eq_true, false_iff, not_or, not_and]
        omega
  · rename_i grown grows
    split at grows
    · rename_i inside
      cases grows
      rw [if_pos inside]
      exact iff_of_true rfl (.inl inside)
    · split at grows <;> cases grows
      rw [length_resize]
      split
      · simp only [Option.isSome_some, true_iff]
        omega
      · simp only [Option.isSome_none, Bool.false_eq_true, false_iff, not_or, not_and]
        omega

theorem accept_of_neg {sockfd : CInt} {addr addrlen : Pointer}
    (failed : (process.callInt libc (.accept sockfd addr addrlen)).1.toInt < 0) :
    accept libc process sockfd addr addrlen =
      some ((process.callInt libc (.accept sockfd addr addrlen)).1.toInt,
        (process.callInt libc (.accept sockfd addr addrlen)).2) :=
  if_neg (Int.not_le.mpr failed)

theorem accept_of_nonneg {sockfd : CInt} {addr addrlen : Pointer}
    (accepted : 0 ≤ (process.callInt libc (.accept sockfd addr addrlen)).1.toInt) :
    accept libc process sockfd addr addrlen =
      ((process.callInt libc (.accept sockfd addr addrlen)).2.register libc
        (process.callInt libc (.accept sockfd addr addrlen)).1).map fun process' =>
          ((process.callInt libc (.accept sockfd addr addrlen)).1.toInt, process') :=
  if_pos accepted

theorem register_of_nonneg {fd : CInt} (nonneg : 0 ≤ fd.toInt) :
    process.register libc fd =
      ((process.init libc fd).2.fds.lookUp fd.toNat true (process.init libc fd).1).map
        fun found => { (process.init libc fd).2 with fds := found.1 } :=
  if_neg (Int.not_lt.mpr nonneg)

/-- Registering ends where the table can have the descriptor, with calls of `fcntl_f` only. -/
theorem register_isSome_iff (libc : Libc Kernel) (process : Process Kernel) {fd : CInt}
    (nonneg : 0 ≤ fd.toInt) :
    (process.register libc fd).isSome ↔ HasPlace process fd := by
  have place := lookUp_isSome_iff process.fds fd.toNat (process.init libc fd).1
  rw [register_of_nonneg nonneg, Option.isSome_map, (init_calls libc process fd).1, place]
  exact ⟨fun place _ => place, fun fits => fits nonneg⟩

theorem register_calls {fd : CInt} (nonneg : 0 ≤ fd.toInt) {after : Process Kernel}
    (registered : process.register libc fd = some after) :
    ∃ cmds : List FcntlCommand, after.calls = process.calls ++ cmds.map (.fcntl fd) := by
  rw [register_of_nonneg nonneg] at registered
  rcases Option.map_eq_some_iff.mp registered with ⟨found, _, rfl⟩
  exact (init_calls libc process fd).2

theorem transparent_accept (dup3Found : Bool) (sockfd : CInt) (addr addrlen : Pointer) :
    Transparent libc dup3Found process (.accept sockfd addr addrlen) ↔
      Harmless libc process (.accept sockfd addr addrlen) := by
  have wraps : ∀ fuel, wrapper libc process dup3Found fuel (.accept sockfd addr addrlen) =
      accept libc process sockfd addr addrlen := fun _ => rfl
  rcases Int.lt_or_le (process.callInt libc (.accept sockfd addr addrlen)).1.toInt 0 with
    failed | accepted
  · rw [transparent_iff_of_const fun fuel => (wraps fuel).trans (accept_of_neg failed)]
    refine iff_of_true ⟨rfl, rfl⟩ ?_
    intro accepted
    exact absurd failed (Int.not_lt.mpr accepted)
  · have ran := accept_of_nonneg accepted
    have place := register_isSome_iff libc
      (process.callInt libc (.accept sockfd addr addrlen)).2 accepted
    cases registered : (process.callInt libc (.accept sockfd addr addrlen)).2.register libc
        (process.callInt libc (.accept sockfd addr addrlen)).1 with
    | none =>
        rw [registered, Option.map_none] at ran
        rw [registered, Option.isSome_none] at place
        exact iff_of_false (not_transparent_of_none fun fuel => (wraps fuel).trans ran)
          fun fits => Bool.false_ne_true (place.mpr fits)
    | some after =>
        rw [registered, Option.map_some] at ran
        rw [registered, Option.isSome_some] at place
        rcases register_calls accepted registered with ⟨cmds, calls⟩
        rw [transparent_iff_of_const fun fuel => (wraps fuel).trans ran]
        refine iff_of_true ⟨?_, rfl⟩ (place.mp rfl)
        rw [calls, List.filter_append]
        have others : (cmds.map (LibcCall.fcntl
            (process.callInt libc (.accept sockfd addr addrlen)).1)).filter
            (fun other => other.function = (LibcCall.accept sockfd addr addrlen).function) = [] := by
          rw [List.filter_eq_nil_iff]
          intro other member
          rcases List.mem_map.mp member with ⟨cmd, _, rfl⟩
          simp [LibcCall.function, LibcCall.ctorIdx]
        rw [others, List.append_nil]
        rfl

/-- Which functions are wrapped transparently, and for which arguments. -/
theorem transparent_iff_harmless (libc : Libc Kernel) (dup3Found : Bool)
    (process : Process Kernel) (call : LibcCall) :
    Transparent libc dup3Found process call ↔ Harmless libc process call := by
  cases call with
  | accept sockfd addr addrlen => exact transparent_accept dup3Found sockfd addr addrlen
  | read | readv | recv | recvfrom | recvmsg | write | writev | send | sendto | sendmsg =>
      exact transparent_doIo (fun _ => rfl) rfl
  | fcntl fd cmd =>
      cases cmd with
      | setFL arg => exact transparent_setFL dup3Found fd arg
      | getFL => exact transparent_getFL dup3Found fd
      | int cmd arg =>
          rw [transparent_fcntl dup3Found fun fuel => rfl]
          exact iff_of_true ⟨rfl, rfl⟩ trivial
      | get cmd =>
          rw [transparent_fcntl dup3Found fun fuel => rfl]
          exact iff_of_true ⟨rfl, rfl⟩ trivial
      | lock cmd arg =>
          exact iff_of_false (not_transparent_of_none fun fuel => fcntl_lock fuel fd cmd arg) id
      | owner cmd arg =>
          exact iff_of_false (not_transparent_of_none fun fuel => fcntl_owner fuel fd cmd arg) id
      | other cmd args =>
          exact iff_of_false (not_transparent_of_none fun fuel => fcntl_other fuel fd cmd args) id
  | ioctl fd request =>
      cases request with
      | fionbio arg => exact transparent_fionbio dup3Found fd arg
      | other request arg => exact iff_of_true (transparent_original fun _ => rfl) trivial
  | dup2 oldfd newfd =>
      exact iff_of_false (not_transparent_of_none fun fuel => dup2_none fuel oldfd newfd) id
  | dup3 oldfd newfd flags =>
      refine iff_of_false ?_ id
      rintro ⟨fuel, result, after, ran, once, _⟩
      have same : after = process := by
        cases dup3Found <;> cases ran <;> rfl
      have more := congrArg List.length once
      rw [same, List.filter_append, List.length_append] at more
      simp at more
  | _ => exact iff_of_true (transparent_original fun _ => rfl) trivial

/-! ## The other originals -/

/-- An original that a wrapper may call: its own, and for `accept` also `fcntl_f` with the new
descriptor. -/
def Calls (libc : Libc Kernel) (process : Process Kernel) (call other : LibcCall) : Prop :=
  other.function = call.function ∨
    (∃ sockfd addr addrlen, call = .accept sockfd addr addrlen) ∧
      ∃ cmd, other = .fcntl (process.callInt libc call).1 cmd

theorem calls_one {call own : LibcCall} {after : Process Kernel}
    (same : own.function = call.function) (calls : after.calls = process.calls ++ [own]) :
    ∃ calls, after.calls = process.calls ++ calls ∧
      ∀ other ∈ calls, Calls libc process call other :=
  ⟨[own], calls, fun _ member => .inl (List.mem_singleton.mp member ▸ same)⟩

theorem fcntl_calls {fuel : Nat} {fd : CInt} {cmd : FcntlCommand} {result : Int}
    {after : Process Kernel} (ran : fcntl libc fuel process fd cmd = some (result, after)) :
    ∃ own, own.function = (LibcCall.fcntl fd cmd).function ∧
      after.calls = process.calls ++ [own] := by
  cases fuel with
  | zero => cases ran
  | succ fuel =>
      cases cmd with
      | setFL arg =>
          simp only [fcntl] at ran
          split at ran
          · cases ran
            exact ⟨_, rfl, rfl⟩
          · rename_i info _
            cases ran
            exact ⟨.fcntl fd (.setFL
              (if info.isSysNonBlock then arg ||| O_NONBLOCK else arg &&& ~~~O_NONBLOCK)),
              rfl, rfl⟩
      | getFL =>
          simp only [fcntl] at ran
          split at ran <;> cases ran
          · exact ⟨_, rfl, rfl⟩
          · exact ⟨_, rfl, rfl⟩
      | int cmd arg => cases ran; exact ⟨_, rfl, rfl⟩
      | get cmd => cases ran; exact ⟨_, rfl, rfl⟩
      | lock cmd arg => rw [fcntl_lock] at ran; cases ran
      | owner cmd arg => rw [fcntl_owner] at ran; cases ran
      | other cmd args => rw [fcntl_other] at ran; cases ran

theorem ioctl_calls {fd : CInt} {request : IoctlRequest} {result : Int}
    {after : Process Kernel} (ran : ioctl libc process fd request = some (result, after)) :
    ∃ own, own.function = (LibcCall.ioctl fd request).function ∧
      after.calls = process.calls ++ [own] := by
  cases request with
  | fionbio arg =>
      simp only [ioctl] at ran
      split at ran
      · cases ran
      · split at ran <;> cases ran
        · exact ⟨.ioctl fd (.fionbio (.int _)), rfl, rfl⟩
        · exact ⟨_, rfl, rfl⟩
  | other request arg => cases ran; exact ⟨_, rfl, rfl⟩

theorem accept_calls {sockfd : CInt} {addr addrlen : Pointer} {result : Int}
    {after : Process Kernel}
    (ran : accept libc process sockfd addr addrlen = some (result, after)) :
    ∃ cmds : List FcntlCommand, after.calls = process.calls ++
      .accept sockfd addr addrlen ::
        cmds.map (.fcntl (process.callInt libc (.accept sockfd addr addrlen)).1) := by
  rcases Int.lt_or_le (process.callInt libc (.accept sockfd addr addrlen)).1.toInt 0 with
    failed | accepted
  · rw [accept_of_neg failed] at ran
    cases ran
    exact ⟨[], rfl⟩
  · rw [accept_of_nonneg accepted] at ran
    rcases Option.map_eq_some_iff.mp ran with ⟨last, registered, same⟩
    cases same
    rcases register_calls accepted registered with ⟨cmds, calls⟩
    exact ⟨cmds, calls.trans (List.append_assoc ..)⟩

/-- No wrapper calls an original but its own, besides `accept`, which makes the new descriptor
non-blocking. -/
theorem wrapper_calls {dup3Found : Bool} {fuel : Nat} {call : LibcCall} {result : Int}
    {after : Process Kernel}
    (ran : wrapper libc process dup3Found fuel call = some (result, after)) :
    ∃ calls, after.calls = process.calls ++ calls ∧
      ∀ other ∈ calls, Calls libc process call other := by
  cases call with
  | accept sockfd addr addrlen =>
      rcases accept_calls ran with ⟨cmds, calls⟩
      refine ⟨_, calls, fun other member => ?_⟩
      rcases List.mem_cons.mp member with rfl | member
      · exact .inl rfl
      · rcases List.mem_map.mp member with ⟨cmd, _, rfl⟩
        exact .inr ⟨⟨sockfd, addr, addrlen, rfl⟩, cmd, rfl⟩
  | fcntl fd cmd =>
      rcases fcntl_calls ran with ⟨own, same, calls⟩
      exact calls_one same calls
  | ioctl fd request =>
      rcases ioctl_calls ran with ⟨own, same, calls⟩
      exact calls_one same calls
  | dup2 oldfd newfd =>
      have never : wrapper libc process dup3Found fuel (.dup2 oldfd newfd) = none :=
        dup2_none fuel oldfd newfd
      rw [never] at ran
      cases ran
  | dup3 oldfd newfd flags =>
      have same : after = process := by
        cases dup3Found <;> cases ran <;> rfl
      exact ⟨[], by rw [same, List.append_nil], nofun⟩
  | _ =>
      cases ran
      exact calls_one rfl rfl

/-- A thread without hooks calls `dup2(5, 6)`. -/
theorem not_transparent :
    ¬ ∀ (libc : Libc Unit) (process : Process Unit) (call : LibcCall),
      Transparent libc true process call := by
  intro holds
  let libc : Libc Unit := {
    call := fun _ _ => (6, ())
    fdType := fun _ _ => .socket
    read := fun _ _ => none }
  have never : ∀ fuel, wrapper libc ⟨.new ManagedFd, (), []⟩ true fuel (.dup2 5 6) = none :=
    fun fuel => dup2_none fuel 5 6
  exact not_transparent_of_none never (holds libc _ _)

end Wrapper

end FiberNet
