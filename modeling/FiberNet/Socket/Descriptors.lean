import FiberNet.Foundation.Custody
import FiberNet.Foundation.Machine
import FiberNet.Socket.Address

/-! # Sockets and their descriptors

The calls of one `Socket` do not overlap. What the system calls answer is part of the action.
A `close` that fails leaves the descriptor as it is.
-/

set_option linter.dupNamespace false

namespace FiberNet

namespace Socket

inductive SocketType
  | stream
  | dgram
  deriving DecidableEq

/-- `m_sockfd` is `none` for -1. -/
structure Socket where
  sockfd : Option Nat := none
  family : BitVec 16
  type : SocketType
  protocol : Nat := 0
  isConnected : Bool := false
  localAddr : Option IAddress := none
  remoteAddr : Option IAddress := none
  deriving DecidableEq

/-- A system call that has opened or closed a descriptor number. -/
inductive DescriptorCall
  | opened (fd : Nat)
  | closed (fd : Nat)
  deriving DecidableEq

/-- A call of a `Socket`: what it leaves, the descriptors it opened and closed, and what it
returns. -/
structure Returned where
  socket : Socket
  calls : List DescriptorCall
  result : Bool
  deriving DecidableEq

namespace Socket

def newTCPSocket : Socket where
  family := AF_INET
  type := .stream

def newTCPSocketv6 : Socket where
  family := AF_INET6
  type := .stream

def newUDPSocket : Socket where
  family := AF_INET
  type := .dgram

def newUDPSocketv6 : Socket where
  family := AF_INET6
  type := .dgram

def newUnixTCPSocket : Socket where
  family := AF_UNIX
  type := .stream

def newUnixUDPSocket : Socket where
  family := AF_UNIX
  type := .dgram

/-- `init()`, where `socket` answers. -/
def init (socket : Socket) (answer : Option Nat) : Returned :=
  match answer with
  | none => ⟨{ socket with sockfd := none }, [], false⟩
  | some fd => ⟨{ socket with sockfd := some fd }, [.opened fd], true⟩

/-- `init` where there is no descriptor yet. -/
def initOnce (socket : Socket) (answer : Option Nat) : Returned :=
  if socket.sockfd.isNone then socket.init answer else ⟨socket, [], true⟩

def bind (socket : Socket) (addr : IAddress) (answer : Option Nat) (succeeds : Bool) :
    Returned :=
  let opened := socket.initOnce answer
  if opened.socket.sockfd.isNone then { opened with result := false }
  else if addr.getFamily ≠ opened.socket.family then { opened with result := false }
  else if succeeds = false then { opened with result := false }
  else ⟨{ opened.socket with localAddr := some addr }, opened.calls, true⟩

def listen (socket : Socket) (succeeds : Bool) : Returned :=
  if socket.sockfd.isNone then ⟨socket, [], false⟩ else ⟨socket, [], succeeds⟩

/-- `setRecvTimeout`, where `setsockopt` succeeds or not. -/
def setRecvTimeout (socket : Socket) (succeeds : Bool) : Returned :=
  if socket.sockfd.isNone then ⟨socket, [], false⟩ else ⟨socket, [], succeeds⟩

def close (socket : Socket) (succeeds : Bool) : Returned :=
  if !socket.isConnected && socket.sockfd.isNone then ⟨socket, [], true⟩
  else
    match socket.sockfd with
    | none => ⟨{ socket with isConnected := false }, [], false⟩
    | some fd =>
        if succeeds then
          ⟨{ socket with isConnected := false, sockfd := none }, [.closed fd], true⟩
        else ⟨{ socket with isConnected := false }, [], false⟩

/-- `getpeername` is asked for the address once. -/
def getRemoteAddr (socket : Socket) (answer : Option IAddress) : Socket :=
  { socket with remoteAddr := socket.remoteAddr.or answer }

def getLocalAddr (socket : Socket) (answer : Option IAddress) : Socket :=
  { socket with localAddr := socket.localAddr.or answer }

def connect (socket : Socket) (addr : IAddress) (answer : Option Nat)
    (succeeds closes : Bool) (name : Option IAddress) : Returned :=
  let socket := { socket with remoteAddr := some addr }
  if socket.isConnected then ⟨socket, [], false⟩
  else
    let opened := socket.initOnce answer
    if opened.socket.sockfd.isNone then { opened with result := false }
    else if addr.getFamily ≠ opened.socket.family then { opened with result := false }
    else if succeeds = false then
      let closed := opened.socket.close closes
      ⟨closed.socket, opened.calls ++ closed.calls, false⟩
    else ⟨{ opened.socket with isConnected := true }.getLocalAddr name, opened.calls, true⟩

def reconnect (socket : Socket) (answer : Option Nat) (succeeds closes : Bool)
    (name : Option IAddress) : Returned :=
  match socket.remoteAddr with
  | none => ⟨socket, [], false⟩
  | some addr =>
      { socket with localAddr := none }.connect addr answer succeeds closes name

/-- `init(sockfd)`, where `FdManager` knows an open socket under the number or not. -/
def initFd (socket : Socket) (fd : Nat) (known : Bool) (peer name : Option IAddress) :
    Socket × Bool :=
  if socket.sockfd.isSome then (socket, false)
  else if known = false then (socket, false)
  else
    let taken := { socket with sockfd := some fd, isConnected := true }.getRemoteAddr peer
    if taken.remoteAddr.isNone then (taken, false)
    else
      let named := taken.getLocalAddr name
      (named, named.localAddr.isSome)

/-- The descriptor that `send`, `recv`, `sendTo` and `recvFrom` of a type of sockets hand to
the kernel, if they do not return -1 at once. -/
def transfer (socket : Socket) (type : SocketType) : Option (Option Nat) :=
  if socket.type ≠ type then none
  else if socket.isConnected then some socket.sockfd
  else none

end Socket

/-- What `accept` returns, and the descriptor that is left open if the client's `Socket` goes
away without closing it. -/
structure Accepted where
  client : Option Socket
  calls : List DescriptorCall
  lost : Option Nat
  deriving DecidableEq

/-- The client's `Socket` is destroyed where its `init` fails. -/
def Socket.accept (listener : Socket) (answer : Option Nat) (known : Bool)
    (peer name : Option IAddress) (closes : Bool) : Accepted :=
  match answer with
  | none => ⟨none, [], none⟩
  | some fd =>
      let client : Socket :=
        { family := listener.family, type := listener.type, protocol := listener.protocol }
      let taken := client.initFd fd known peer name
      if taken.2 then ⟨some taken.1, [.opened fd], none⟩
      else
        let ended := taken.1.close closes
        ⟨none, .opened fd :: ended.calls, if ended.calls = [] then some fd else none⟩

/-! ## All sockets -/

/-- Who has opened a descriptor. -/
inductive Opener
  | socket
  | other
  deriving DecidableEq

/-- The `Socket` objects and the kernel's descriptor numbers. `lost` records the descriptors
whose object is gone. -/
structure Sockets where
  objects : Nat → Option Socket
  fresh : Nat
  kernel : Nat → Option Opener
  lost : List Nat

inductive SocketAction
  | create (family : BitVec 16) (type : SocketType) (protocol : Nat)
  | bind (object : Nat) (addr : IAddress) (answer : Option Nat) (succeeds : Bool)
  | listen (object : Nat) (succeeds : Bool)
  | setRecvTimeout (object : Nat) (succeeds : Bool)
  | connect (object : Nat) (addr : IAddress) (answer : Option Nat) (succeeds closes : Bool)
      (name : Option IAddress)
  | reconnect (object : Nat) (answer : Option Nat) (succeeds closes : Bool)
      (name : Option IAddress)
  | accept (object : Nat) (answer : Option Nat) (known : Bool) (peer name : Option IAddress)
      (closes : Bool)
  | getRemoteAddr (object : Nat) (answer : Option IAddress)
  | getLocalAddr (object : Nat) (answer : Option IAddress)
  | close (object : Nat) (succeeds : Bool)
  | destroy (object : Nat) (closes : Bool)
  | otherOpens (fd : Nat)
  | otherCloses (fd : Nat)
  deriving DecidableEq

namespace Sockets

def new : Sockets where
  objects _ := none
  fresh := 0
  kernel _ := none
  lost := []

/-- The kernel gives out numbers that are not in use. -/
def perform (kernel : Nat → Option Opener) :
    List DescriptorCall → Option (Nat → Option Opener)
  | [] => some kernel
  | .opened fd :: calls =>
      if kernel fd = none then perform (Function.update kernel fd (some .socket)) calls else none
  | .closed fd :: calls => perform (Function.update kernel fd none) calls

def set (world : Sockets) (object : Nat) (socket : Option Socket) : Sockets :=
  { world with objects := Function.update world.objects object socket }

/-- A new object. -/
def create (world : Sockets) (socket : Socket) : Sockets :=
  { world.set world.fresh (some socket) with fresh := world.fresh + 1 }

/-- A call of an object's method. -/
def call (world : Sockets) (object : Nat) (method : Socket → Returned) :
    Option (Sockets × Bool) :=
  (world.objects object).bind fun socket =>
    (perform world.kernel (method socket).calls).map fun kernel =>
      ({ world.set object (some (method socket).socket) with kernel }, (method socket).result)

def accept (world : Sockets) (object : Nat) (answer : Option Nat) (known : Bool)
    (peer name : Option IAddress) (closes : Bool) : Option Sockets :=
  (world.objects object).bind fun listener =>
    let accepted := listener.accept answer known peer name closes
    (perform world.kernel accepted.calls).map fun kernel =>
      let world := { world with kernel, lost := accepted.lost.toList ++ world.lost }
      match accepted.client with
      | none => world
      | some client => world.create client

/-- `~Socket` closes. -/
def destroy (world : Sockets) (object : Nat) (closes : Bool) : Option Sockets :=
  (world.objects object).bind fun socket =>
    let ended := socket.close closes
    (perform world.kernel ended.calls).map fun kernel =>
      { world.set object none with
        kernel, lost := ended.socket.sockfd.toList ++ world.lost }

def step (world : Sockets) : SocketAction → Option Sockets
  | .create family type protocol => some (world.create { family, type, protocol })
  | .bind object addr answer succeeds =>
      (world.call object fun socket => socket.bind addr answer succeeds).map Prod.fst
  | .listen object succeeds =>
      (world.call object fun socket => socket.listen succeeds).map Prod.fst
  | .setRecvTimeout object succeeds =>
      (world.call object fun socket => socket.setRecvTimeout succeeds).map Prod.fst
  | .connect object addr answer succeeds closes name =>
      (world.call object fun socket =>
        socket.connect addr answer succeeds closes name).map Prod.fst
  | .reconnect object answer succeeds closes name =>
      (world.call object fun socket =>
        socket.reconnect answer succeeds closes name).map Prod.fst
  | .accept object answer known peer name closes =>
      world.accept object answer known peer name closes
  | .getRemoteAddr object answer =>
      (world.call object fun socket => ⟨socket.getRemoteAddr answer, [], true⟩).map Prod.fst
  | .getLocalAddr object answer =>
      (world.call object fun socket => ⟨socket.getLocalAddr answer, [], true⟩).map Prod.fst
  | .close object succeeds =>
      (world.call object fun socket => socket.close succeeds).map Prod.fst
  | .destroy object closes => world.destroy object closes
  | .otherOpens fd =>
      if world.kernel fd = none then
        some { world with kernel := Function.update world.kernel fd (some .other) }
      else none
  | .otherCloses fd =>
      if world.kernel fd = some .other then
        some { world with kernel := Function.update world.kernel fd none }
      else none

def machine : Machine Sockets SocketAction where
  initial world := world = new
  step := step

/-! ## What is kept -/

structure Kept (world : Sockets) : Prop where
  /-- An object's descriptor is open, and no other object has it. -/
  held : ∀ {object socket fd}, world.objects object = some socket → socket.sockfd = some fd →
    world.kernel fd = some .socket ∧
      ∀ {other another}, world.objects other = some another → another.sockfd = some fd →
        other = object
  /-- Every descriptor that was opened for a `Socket` belongs to one or is lost. -/
  accounted : ∀ {fd}, world.kernel fd = some .socket → fd ∈ world.lost ∨
    ∃ object socket, world.objects object = some socket ∧ socket.sockfd = some fd
  /-- What is lost stays open, and nobody has it. -/
  leaked : ∀ fd ∈ world.lost, world.kernel fd = some .socket ∧
    ∀ {object socket}, world.objects object = some socket → socket.sockfd ≠ some fd
  /-- Reading and writing reach an open descriptor, the object's own. -/
  transfers : ∀ {object socket type descriptor}, world.objects object = some socket →
    socket.transfer type = some descriptor →
      ∃ fd, descriptor = some fd ∧ socket.sockfd = some fd ∧ world.kernel fd = some .socket

/-- No object goes away with its descriptor open, and `FdManager` knows what `accept` gets. -/
def Heeds (world : Sockets) : SocketAction → Prop
  | .accept _ answer known peer name closes =>
      answer.isSome = true →
        known = true ∧ (closes = true ∨ peer.isSome = true ∧ name.isSome = true)
  | .destroy object closes =>
      closes = true ∨ ∀ socket ∈ world.objects object, socket.sockfd = none
  | _ => True

end Sockets

/-! ## The calls of one socket -/

/-- A holder of at most one descriptor performs the calls. -/
def Trades : Option Nat → List DescriptorCall → Option Nat → Prop
  | held, [], last => held = last
  | none, .opened fd :: calls, last => Trades (some fd) calls last
  | some fd, .closed other :: calls, last => other = fd ∧ Trades none calls last
  | _, _, _ => False

theorem Trades.append {held middle last : Option Nat} {calls more : List DescriptorCall}
    (first : Trades held calls middle) (second : Trades middle more last) :
    Trades held (calls ++ more) last := by
  induction calls generalizing held with
  | nil =>
      cases first
      exact second
  | cons call calls induction =>
      cases call with
      | opened fd =>
          cases held with
          | none => exact induction first
          | some _ => exact first.elim
      | closed fd =>
          cases held with
          | none => exact first.elim
          | some _ => exact ⟨first.1, induction first.2⟩

/-- A method opens a descriptor where there is none and closes its own, and what it leaves
connected has one. -/
structure Returned.Keeps (returned : Returned) (socket : Socket) : Prop where
  trades : Trades socket.sockfd returned.calls returned.socket.sockfd
  connected : (socket.isConnected = true → socket.sockfd ≠ none) →
    returned.socket.isConnected = true → returned.socket.sockfd ≠ none

theorem Returned.Keeps.result {returned : Returned} {socket : Socket}
    (keeps : returned.Keeps socket) (result : Bool) :
    Returned.Keeps { returned with result } socket :=
  ⟨keeps.trades, keeps.connected⟩

namespace Socket

variable (socket : Socket)

theorem keeps_same (result : Bool) : Returned.Keeps ⟨socket, [], result⟩ socket :=
  ⟨rfl, id⟩

theorem keeps_getRemoteAddr (answer : Option IAddress) :
    Returned.Keeps ⟨socket.getRemoteAddr answer, [], true⟩ socket :=
  ⟨rfl, id⟩

theorem keeps_getLocalAddr (answer : Option IAddress) :
    Returned.Keeps ⟨socket.getLocalAddr answer, [], true⟩ socket :=
  ⟨rfl, id⟩

theorem keeps_initOnce (answer : Option Nat) : (socket.initOnce answer).Keeps socket := by
  unfold initOnce
  split
  · rename_i closed
    have none : socket.sockfd = none := Option.isNone_iff_eq_none.mp closed
    cases answer with
    | none =>
        constructor
        · exact none
        · intro sound connected
          exact absurd none (sound connected)
    | some fd =>
        constructor
        · change Trades socket.sockfd [.opened fd] (some fd)
          rw [none]
          rfl
        · intro _ _ absent
          cases absent
  · exact socket.keeps_same true

theorem keeps_bind (addr : IAddress) (answer : Option Nat) (succeeds : Bool) :
    (socket.bind addr answer succeeds).Keeps socket := by
  have opened := socket.keeps_initOnce answer
  unfold bind
  dsimp only
  split
  · exact opened.result false
  · split
    · exact opened.result false
    · split
      · exact opened.result false
      · exact ⟨opened.trades, opened.connected⟩

theorem keeps_listen (succeeds : Bool) : (socket.listen succeeds).Keeps socket := by
  unfold listen
  split <;> exact socket.keeps_same _

theorem keeps_setRecvTimeout (succeeds : Bool) :
    (socket.setRecvTimeout succeeds).Keeps socket := by
  unfold setRecvTimeout
  split <;> exact socket.keeps_same _

theorem keeps_close (succeeds : Bool) : (socket.close succeeds).Keeps socket := by
  unfold close
  split
  · exact socket.keeps_same true
  · cases held : socket.sockfd with
    | none =>
        constructor
        · exact held
        · intro _ connected
          cases connected
    | some fd =>
        cases succeeds with
        | true =>
            constructor
            · rw [held]
              exact ⟨rfl, rfl⟩
            · intro _ connected
              cases connected
        | false =>
            constructor
            · rw [held]
              exact rfl
            · intro _ connected
              cases connected

theorem keeps_connect (addr : IAddress) (answer : Option Nat) (succeeds closes : Bool)
    (name : Option IAddress) :
    (socket.connect addr answer succeeds closes name).Keeps socket := by
  unfold connect
  dsimp only
  split
  · exact ⟨rfl, id⟩
  · have opened := keeps_initOnce { socket with remoteAddr := some addr } answer
    generalize { socket with remoteAddr := some addr }.initOnce answer = begun at opened ⊢
    split
    · exact ⟨opened.trades, opened.connected⟩
    · rename_i present
      split
      · exact ⟨opened.trades, opened.connected⟩
      · split
        · have closed := begun.socket.keeps_close closes
          exact ⟨opened.trades.append closed.trades,
            fun sound => closed.connected (opened.connected sound)⟩
        · refine ⟨opened.trades, ?_⟩
          intro _ _ absent
          apply present
          exact Option.isNone_iff_eq_none.mpr absent

theorem keeps_reconnect (answer : Option Nat) (succeeds closes : Bool)
    (name : Option IAddress) : (socket.reconnect answer succeeds closes name).Keeps socket := by
  unfold reconnect
  split
  · exact socket.keeps_same false
  · rename_i addr _
    have keeps := keeps_connect { socket with localAddr := none } addr answer succeeds
      closes name
    exact ⟨keeps.trades, keeps.connected⟩

/-- What becomes of a descriptor that `accept` gets. -/
theorem accept_cases (known : Bool) (peer name : Option IAddress) (closes : Bool) (fd : Nat) :
    (∃ client, socket.accept (some fd) known peer name closes =
        ⟨some client, [.opened fd], none⟩ ∧
      client.sockfd = some fd ∧
        known = true ∧ (closes = true ∨ peer.isSome = true ∧ name.isSome = true)) ∨
    (socket.accept (some fd) known peer name closes =
        ⟨none, [.opened fd, .closed fd], none⟩ ∧
      known = true ∧ (closes = true ∨ peer.isSome = true ∧ name.isSome = true)) ∨
    (socket.accept (some fd) known peer name closes = ⟨none, [.opened fd], some fd⟩ ∧
      ¬(known = true ∧ (closes = true ∨ peer.isSome = true ∧ name.isSome = true))) := by
  cases known with
  | false => exact .inr (.inr ⟨rfl, fun taken => Bool.noConfusion taken.1⟩)
  | true =>
      cases peer with
      | none =>
          cases closes with
          | false => exact .inr (.inr ⟨rfl, by simp⟩)
          | true => exact .inr (.inl ⟨rfl, rfl, .inl rfl⟩)
      | some peer =>
          cases name with
          | none =>
              cases closes with
              | false => exact .inr (.inr ⟨rfl, by simp⟩)
              | true => exact .inr (.inl ⟨rfl, rfl, .inl rfl⟩)
          | some name => exact .inl ⟨_, rfl, rfl, rfl, .inr ⟨rfl, rfl⟩⟩

theorem close_sockfd (closes : Bool) :
    (socket.close closes).socket.sockfd = if closes then none else socket.sockfd := by
  unfold close
  split
  · rename_i closed
    have none : socket.sockfd = none := by
      simp only [Bool.and_eq_true, Option.isNone_iff_eq_none] at closed
      exact closed.2
    rw [none, ite_self]
  · cases held : socket.sockfd with
    | none => rw [ite_self]
    | some fd => cases closes <;> rfl

end Socket

/-! ## What every step keeps -/

namespace Sockets

def custody (world : Sockets) : Custody Nat Nat where
  holds object := (world.objects object).bind Socket.sockfd
  live fd := world.kernel fd = some .socket
  lost fd := fd ∈ world.lost

structure Sound (world : Sockets) : Prop where
  exact : world.custody.Exact
  fresh : ∀ object, world.fresh ≤ object → world.objects object = none
  connected : ∀ {object socket}, world.objects object = some socket →
    socket.isConnected = true → socket.sockfd ≠ none

variable {world next : Sockets}

theorem holds_of_object {object : Nat} {socket : Socket}
    (found : world.objects object = some socket) :
    world.custody.holds object = socket.sockfd := by
  change (world.objects object).bind Socket.sockfd = socket.sockfd
  rw [found]
  rfl

theorem custody_set (object : Nat) (socket : Option Socket) :
    (world.set object socket).custody.holds =
      Function.update world.custody.holds object (socket.bind Socket.sockfd) := by
  funext other
  simp only [custody, set, Function.update_apply]
  split <;> rfl

/-- The custody of a table of holders, a kernel and a list of lost descriptors. -/
def view (holds : Nat → Option Nat) (kernel : Nat → Option Opener) (lost : List Nat) :
    Custody Nat Nat where
  holds := holds
  live fd := kernel fd = some .socket
  lost fd := fd ∈ lost

theorem exact_perform {object : Nat} {last : Option Nat} {lost : List Nat}
    {calls : List DescriptorCall} {holds : Nat → Option Nat}
    {kernel final : Nat → Option Opener} (exact : (view holds kernel lost).Exact)
    (trades : Trades (holds object) calls last) (performed : perform kernel calls = some final) :
    (view (Function.update holds object last) final lost).Exact := by
  induction calls generalizing holds kernel with
  | nil =>
      cases performed
      cases trades
      rw [Function.update_eq_self]
      exact exact
  | cons call calls induction =>
      cases call with
      | opened fd =>
          cases held : holds object with
          | some _ =>
              rw [held] at trades
              exact trades.elim
          | none =>
              rw [held] at trades
              rw [perform, Option.ite_none_right_eq_some] at performed
              rcases performed with ⟨free, performed⟩
              have unused : ¬(view holds kernel lost).live fd := by
                intro live
                cases free.symm.trans live
              have taken : (view (Function.update holds object (some fd))
                  (Function.update kernel fd (some .socket)) lost).Exact := by
                apply (exact.acquire held unused).congr
                · intro other
                  rfl
                · intro other
                  simp only [view, Custody.acquire, Function.update_apply]
                  split <;> simp [*]
                · intro other
                  rfl
              have later := induction taken (by rw [Function.update_self]; exact trades) performed
              rw [Function.update_idem] at later
              exact later
      | closed fd =>
          cases held : holds object with
          | none =>
              rw [held] at trades
              exact trades.elim
          | some own =>
              rw [held] at trades
              rcases trades with ⟨same, trades⟩
              subst same
              have given : (view (Function.update holds object none)
                  (Function.update kernel fd none) lost).Exact := by
                apply (exact.release held).congr
                · intro other
                  rfl
                · intro other
                  simp only [view, Custody.release, Function.update_apply]
                  split <;> simp [*]
                · intro other
                  rfl
              have later := induction given (by rw [Function.update_self]; exact trades) performed
              rw [Function.update_idem] at later
              exact later

theorem lt_fresh (sound : world.Sound) {object : Nat} {socket : Socket}
    (found : world.objects object = some socket) : object < world.fresh := by
  by_contra beyond
  cases (sound.fresh object (Nat.le_of_not_lt beyond)).symm.trans found

/-- A table of objects changed at one place. -/
theorem Sound.update (sound : world.Sound) {object : Nat} {socket : Option Socket}
    (old : object < next.fresh) (grows : world.fresh ≤ next.fresh)
    (objects : next.objects = Function.update world.objects object socket)
    (exact : (view (Function.update world.custody.holds object (socket.bind Socket.sockfd))
      next.kernel next.lost).Exact)
    (connected : ∀ left ∈ socket, left.isConnected = true → left.sockfd ≠ none) :
    next.Sound where
  exact := by
    apply exact.congr
    · intro other
      change (next.objects other).bind Socket.sockfd =
        Function.update world.custody.holds object (socket.bind Socket.sockfd) other
      rw [objects, ← custody_set]
      rfl
    · intro fd
      rfl
    · intro fd
      rfl
  fresh := by
    intro other beyond
    have different : other ≠ object := by omega
    rw [objects, Function.update_of_ne different]
    exact sound.fresh other (grows.trans beyond)
  connected := by
    intro other left found
    rw [objects, Function.update_apply] at found
    split at found
    · exact connected left found
    · exact sound.connected found

theorem Sound.call (sound : world.Sound) {object : Nat} {method : Socket → Returned}
    {result : Bool} (keeps : ∀ socket, (method socket).Keeps socket)
    (called : world.call object method = some (next, result)) :
    next.Sound ∧ next.lost = world.lost := by
  rcases Option.bind_eq_some_iff.mp called with ⟨socket, found, called⟩
  rcases Option.map_eq_some_iff.mp called with ⟨kernel, performed, equal⟩
  cases equal
  refine ⟨?_, rfl⟩
  have held := holds_of_object found
  refine sound.update ?_ ?_ rfl ?_ ?_
  · exact lt_fresh sound found
  · exact Nat.le_refl _
  · exact exact_perform sound.exact (held ▸ (keeps socket).trades) performed
  · intro left equal
    cases equal
    exact (keeps socket).connected (sound.connected found)

theorem Sound.create (sound : world.Sound) {socket : Socket} {kernel : Nat → Option Opener}
    {lost : List Nat}
    (exact : (view (Function.update world.custody.holds world.fresh socket.sockfd) kernel
      lost).Exact)
    (connected : socket.isConnected = true → socket.sockfd ≠ none) :
    ({ world with kernel, lost }.create socket).Sound := by
  refine sound.update ?_ ?_ rfl exact ?_
  · exact Nat.lt_succ_self _
  · exact Nat.le_succ _
  intro left equal
  cases equal
  exact connected

theorem holds_fresh (sound : world.Sound) : world.custody.holds world.fresh = none := by
  change (world.objects world.fresh).bind Socket.sockfd = none
  rw [sound.fresh _ (Nat.le_refl _)]
  rfl

theorem Sound.accept (sound : world.Sound) {object : Nat} {answer : Option Nat} {known : Bool}
    {peer name : Option IAddress} {closes : Bool}
    (accepted : world.accept object answer known peer name closes = some next) :
    next.Sound ∧ (next.lost = [] ↔
      world.lost = [] ∧ world.Heeds (.accept object answer known peer name closes)) := by
  rcases Option.bind_eq_some_iff.mp accepted with ⟨listener, found, accepted⟩
  rcases Option.map_eq_some_iff.mp accepted with ⟨kernel, performed, equal⟩
  subst equal
  have empty := holds_fresh sound
  cases answer with
  | none =>
      cases performed
      refine ⟨⟨sound.exact, sound.fresh, sound.connected⟩, ?_⟩
      simp [Socket.accept, Heeds]
  | some fd =>
      rcases listener.accept_cases known peer name closes fd with
        ⟨client, equal, taken, heeds⟩ | ⟨equal, heeds⟩ | ⟨equal, careless⟩
      · rw [equal] at performed ⊢
        have trades : Trades (world.custody.holds world.fresh) [.opened fd] client.sockfd := by
          rw [empty, taken]
          rfl
        refine ⟨sound.create (exact_perform sound.exact trades performed) ?_, ?_⟩
        · intro _ absent
          cases taken.symm.trans absent
        · exact (and_iff_left fun _ => heeds).symm
      · rw [equal] at performed ⊢
        have trades : Trades (world.custody.holds world.fresh) [.opened fd, .closed fd] none := by
          rw [empty]
          exact ⟨rfl, rfl⟩
        have same : Function.update world.custody.holds world.fresh none =
            world.custody.holds := by
          rw [← empty]
          exact Function.update_eq_self _ _
        have exact : (view (Function.update world.custody.holds world.fresh none) kernel
            world.lost).Exact := exact_perform sound.exact trades performed
        rw [same] at exact
        refine ⟨⟨exact, sound.fresh, sound.connected⟩, ?_⟩
        exact (and_iff_left fun _ => heeds).symm
      · rw [equal] at performed ⊢
        have trades : Trades (world.custody.holds world.fresh) [.opened fd] (some fd) := by
          rw [empty]
          rfl
        have opened : (view (Function.update world.custody.holds world.fresh (some fd)) kernel
            world.lost).Exact := exact_perform sound.exact trades performed
        have own : (view (Function.update world.custody.holds world.fresh (some fd)) kernel
            world.lost).holds world.fresh = some fd := Function.update_self _ _ _
        have lost := opened.lose own
        refine ⟨⟨?_, sound.fresh, sound.connected⟩, ?_⟩
        · apply lost.congr
          · intro other
            simp only [Custody.lose_holds, view, Function.update_apply]
            split
            · rename_i same
              rw [same]
              exact empty
            · rfl
          · intro other
            rfl
          · intro other
            exact List.mem_cons
        · apply iff_of_false
          · exact List.cons_ne_nil _ _
          · intro both
            exact careless (both.2 rfl)

theorem Sound.destroy (sound : world.Sound) {object : Nat} {closes : Bool}
    (destroyed : world.destroy object closes = some next) :
    next.Sound ∧ (next.lost = [] ↔
      world.lost = [] ∧ world.Heeds (.destroy object closes)) := by
  rcases Option.bind_eq_some_iff.mp destroyed with ⟨socket, found, destroyed⟩
  rcases Option.map_eq_some_iff.mp destroyed with ⟨kernel, performed, equal⟩
  subst equal
  have held := holds_of_object found
  have keeps := socket.keeps_close closes
  have exact := exact_perform sound.exact (held ▸ keeps.trades) performed
  have heeds : world.Heeds (.destroy object closes) ↔
      (socket.close closes).socket.sockfd = none := by
    rw [socket.close_sockfd, Heeds, found]
    cases closes <;> simp
  cases left : (socket.close closes).socket.sockfd with
  | none =>
      rw [left] at exact heeds
      refine ⟨sound.update ?_ ?_ rfl exact ?_, ?_⟩
      · exact lt_fresh sound found
      · exact Nat.le_refl _
      · intro _ absent
        cases absent
      · exact (and_iff_left (heeds.mpr rfl)).symm
  | some fd =>
      rw [left] at exact heeds
      have own : (view (Function.update world.custody.holds object (some fd)) kernel
          world.lost).holds object = some fd := Function.update_self _ _ _
      have lost := exact.lose own
      refine ⟨sound.update ?_ ?_ rfl ?_ ?_, ?_⟩
      · exact lt_fresh sound found
      · exact Nat.le_refl _
      · apply lost.congr
        · intro other
          simp only [Custody.lose_holds, view, Function.update_apply]
          split <;> rfl
        · intro other
          rfl
        · intro other
          exact List.mem_cons
      · intro _ absent
        cases absent
      · apply iff_of_false
        · exact List.cons_ne_nil _ _
        · intro both
          cases heeds.mp both.2

/-- A method of an object loses nothing. -/
theorem Sound.method (sound : world.Sound) {object : Nat} {method : Socket → Returned}
    (keeps : ∀ socket, (method socket).Keeps socket)
    (taken : (world.call object method).map Prod.fst = some next) :
    next.Sound ∧ (next.lost = [] ↔ world.lost = [] ∧ True) := by
  rcases Option.map_eq_some_iff.mp taken with ⟨outcome, called, equal⟩
  cases outcome
  cases equal
  rcases sound.call keeps called with ⟨kept, lost⟩
  exact ⟨kept, by rw [lost, and_true]⟩

/-- Other code opens and closes its own descriptors. -/
theorem Sound.other (sound : world.Sound) {fd : Nat} {opener : Option Opener}
    (foreign : world.kernel fd ≠ some .socket) (other : opener ≠ some .socket) :
    ({ world with kernel := Function.update world.kernel fd opener } : Sockets).Sound where
  exact := by
    apply sound.exact.congr
    · intro object
      rfl
    · intro number
      simp only [custody, Function.update_apply]
      split
      · rename_i same
        rw [same]
        exact iff_of_false other foreign
      · rfl
    · intro number
      rfl
  fresh := sound.fresh
  connected := sound.connected

theorem Sound.step (sound : world.Sound) {action : SocketAction}
    (taken : world.step action = some next) :
    next.Sound ∧ (next.lost = [] ↔ world.lost = [] ∧ world.Heeds action) := by
  cases action with
  | create family type protocol =>
      cases taken
      have same : Function.update world.custody.holds world.fresh none =
          world.custody.holds := by
        rw [← holds_fresh sound]
        exact Function.update_eq_self _ _
      refine ⟨sound.create ?_ ?_, (and_iff_left trivial).symm⟩
      · change (view (Function.update world.custody.holds world.fresh none) world.kernel
          world.lost).Exact
        rw [same]
        exact sound.exact
      · intro connected
        cases connected
  | bind object addr answer succeeds =>
      exact sound.method (fun socket => socket.keeps_bind addr answer succeeds) taken
  | listen object succeeds =>
      exact sound.method (fun socket => socket.keeps_listen succeeds) taken
  | setRecvTimeout object succeeds =>
      exact sound.method (fun socket => socket.keeps_setRecvTimeout succeeds) taken
  | connect object addr answer succeeds closes name =>
      exact sound.method (fun socket => socket.keeps_connect addr answer succeeds closes name)
        taken
  | reconnect object answer succeeds closes name =>
      exact sound.method (fun socket => socket.keeps_reconnect answer succeeds closes name) taken
  | accept object answer known peer name closes => exact sound.accept taken
  | getRemoteAddr object answer =>
      exact sound.method (fun socket => socket.keeps_getRemoteAddr answer) taken
  | getLocalAddr object answer =>
      exact sound.method (fun socket => socket.keeps_getLocalAddr answer) taken
  | close object succeeds =>
      exact sound.method (fun socket => socket.keeps_close succeeds) taken
  | destroy object closes => exact sound.destroy taken
  | otherOpens fd =>
      rcases Option.ite_none_right_eq_some.mp taken with ⟨free, equal⟩
      cases equal
      refine ⟨sound.other ?_ ?_, (and_iff_left trivial).symm⟩
      · rw [free]
        intro socket
        cases socket
      · intro socket
        cases socket
  | otherCloses fd =>
      rcases Option.ite_none_right_eq_some.mp taken with ⟨foreign, equal⟩
      cases equal
      refine ⟨sound.other ?_ ?_, (and_iff_left trivial).symm⟩
      · rw [foreign]
        intro socket
        cases socket
      · intro socket
        cases socket

theorem sound_new : new.Sound where
  exact := {
    live := fun held => by cases held
    single := fun held => by cases held
    accounted := fun live => by cases live
    apart := fun held => by cases held
    kept := fun lost => by cases lost }
  fresh _ _ := rfl
  connected found := by cases found

theorem Sound.kept (sound : world.Sound) : world.Kept where
  held := by
    intro object socket fd found descriptor
    have holds := (holds_of_object found).trans descriptor
    refine ⟨sound.exact.live holds, ?_⟩
    intro other another found descriptor
    exact sound.exact.single ((holds_of_object found).trans descriptor) holds
  accounted := by
    intro fd live
    rcases sound.exact.accounted live with ⟨object, held⟩ | lost
    · rcases Option.bind_eq_some_iff.mp held with ⟨socket, found, descriptor⟩
      exact .inr ⟨object, socket, found, descriptor⟩
    · exact .inl lost
  leaked := by
    intro fd lost
    refine ⟨sound.exact.kept lost, ?_⟩
    intro object socket found descriptor
    exact sound.exact.apart ((holds_of_object found).trans descriptor) lost
  transfers := by
    intro object socket type descriptor found given
    unfold Socket.transfer at given
    split at given
    · cases given
    · split at given
      · rename_i connected
        cases given
        have present := sound.connected found connected
        rcases Option.ne_none_iff_exists'.mp present with ⟨fd, descriptor⟩
        exact ⟨fd, descriptor, descriptor,
          sound.exact.live ((holds_of_object found).trans descriptor)⟩
      · cases given

/-- In every run each descriptor that was opened for a `Socket` belongs to exactly one object
or is lost, and reading and writing reach the object's own open descriptor. Nothing is lost in
exactly the runs that heed the condition at every step. -/
theorem descriptors_kept {actions : List SocketAction} {final : Sockets}
    (executed : machine.run new actions = some final) :
    final.Kept ∧ (final.lost = [] ↔ machine.Meets Heeds new actions) := by
  have whole := @Machine.meets_iff _ _ machine Heeds Sound (fun world => world.lost = [])
    (fun sound taken => sound.step taken) _ _ actions sound_new executed
  exact ⟨whole.1.kept, whole.2.trans (and_iff_right rfl)⟩

/-- A listener with two clients. One of them is closed, the other goes away and the kernel does
not close its descriptor. -/
def session : List SocketAction :=
  [.create AF_INET .stream 0, .bind 0 (.ipv4 {}) (some 3) true, .listen 0 true,
    .accept 0 (some 4) true (some (.ipv4 {})) (some (.ipv4 {})) true,
    .accept 0 (some 5) true (some (.ipv4 {})) (some (.ipv4 {})) true,
    .close 1 true, .destroy 1 true, .destroy 2 false]

theorem descriptors_kept_session : ∃ final, machine.run new session = some final ∧
    final.Kept ∧ (final.lost = [] ↔ machine.Meets Heeds new session) :=
  ⟨_, rfl, descriptors_kept rfl⟩

end Sockets

end Socket

end FiberNet
