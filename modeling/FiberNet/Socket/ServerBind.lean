import FiberNet.Socket.Descriptors
import Mathlib.Data.List.Nodup

/-! # Binding the sockets of a server

Nobody else holds the sockets of a server before `start`, so a socket that is dropped from
the list is destroyed.
-/

namespace FiberNet

namespace Socket

/-- What the kernel answers to the calls for one address, `closes` for the destructor. -/
structure Answers where
  fd : Option Nat
  binds : Bool
  listens : Bool
  setsTimeout : Bool
  closes : Bool
  deriving DecidableEq

/-- The sockets of the list are given by their objects. -/
structure TcpServer where
  sockets : Sockets
  m_socks : List Nat

inductive ServerAction
  | bind (address : IAddress) (answers : Answers)
  | bindList (attempts : List (IAddress × Answers)) (closes : Nat → Bool)
  | destroy (closes : Nat → Bool) (again : Nat → Bool)
  /-- Other sockets, and what `startAccept` does with those of the server. -/
  | other (action : SocketAction)

/-- The object that an action changes. -/
def SocketAction.changes : SocketAction → Option Nat
  | .bind object .. | .listen object .. | .setRecvTimeout object .. | .connect object ..
  | .reconnect object .. | .getRemoteAddr object .. | .getLocalAddr object ..
  | .close object .. | .destroy object .. => some object
  | .create .. | .accept .. | .otherOpens .. | .otherCloses .. => none

namespace TcpServer

def new : TcpServer where
  sockets := .new
  m_socks := []

/-- `bind(family)`. -/
def bindFamily (family : BitVec 16) : Option Socket :=
  if family = AF_INET then some Socket.newTCPSocket
  else if family = AF_INET6 then some Socket.newTCPSocketv6
  else if family = AF_UNIX then some Socket.newUnixTCPSocket
  else none

/-- A call that destroys the object where it returns false. -/
def attempt (world : Sockets) (object : Nat) (closes : Bool) (method : Socket → Returned)
    (next : Sockets → Option (Sockets × Option Nat)) : Option (Sockets × Option Nat) :=
  (world.call object method).bind fun called =>
    if called.2 then next called.1
    else (called.1.destroy object closes).map fun world => (world, none)

/-- The socket of one address, `none` where a call returns false. -/
def bindSocket (world : Sockets) (address : IAddress) (answers : Answers) :
    Option (Sockets × Option Nat) :=
  match bindFamily address.getFamily with
  | none => some (world, none)
  | some socket =>
      let object := world.fresh
      attempt (world.create socket) object answers.closes
          (fun socket => socket.bind address answers.fd answers.binds) fun world =>
        attempt world object answers.closes (fun socket => socket.listen answers.listens)
            fun world =>
          attempt world object answers.closes
              (fun socket => socket.setRecvTimeout answers.setsTimeout) fun world =>
            some (world, some object)

def bind (server : TcpServer) (address : IAddress) (answers : Answers) :
    Option (TcpServer × Bool) :=
  (bindSocket server.sockets address answers).map fun bound =>
    match bound.2 with
    | none => ({ server with sockets := bound.1 }, false)
    | some object => (⟨bound.1, server.m_socks ++ [object]⟩, true)

/-- What the loop of `bind(address,failed)` leaves. -/
structure Loop where
  server : TcpServer
  failed : List IAddress
  rt : Bool

def bindEach (loop : Loop) : List (IAddress × Answers) → Option Loop
  | [] => some loop
  | (address, answers) :: rest =>
      (bindSocket loop.server.sockets address answers).bind fun bound =>
        match bound.2 with
        | none =>
            bindEach ⟨{ loop.server with sockets := bound.1 }, loop.failed ++ [address], false⟩
              rest
        | some object =>
            bindEach { loop with server := ⟨bound.1, loop.server.m_socks ++ [object]⟩ } rest

/-- The list is emptied and its sockets are destroyed. -/
def clear (closes : Nat → Bool) : Sockets → List Nat → Option Sockets
  | world, [] => some world
  | world, object :: rest => (world.destroy object (closes object)).bind (clear closes · rest)

/-- `bind(address,failed)`. -/
def bindList (server : TcpServer) (attempts : List (IAddress × Answers)) (closes : Nat → Bool)
    (failed : List IAddress) : Option Loop :=
  (bindEach ⟨server, failed, true⟩ attempts).bind fun loop =>
    if loop.rt then some loop
    else
      (clear closes loop.server.sockets loop.server.m_socks).map fun world =>
        { loop with server := ⟨world, []⟩ }

/-- The loop of the destructor. -/
def closeEach (closes : Nat → Bool) : Sockets → List Nat → Option Sockets
  | world, [] => some world
  | world, object :: rest =>
      (world.call object fun socket => socket.close (closes object)).bind fun called =>
        closeEach closes called.1 rest

def destroy (server : TcpServer) (closes again : Nat → Bool) : Option TcpServer :=
  ((closeEach closes server.sockets server.m_socks).bind (clear again · server.m_socks)).map
    fun world => ⟨world, []⟩

def step (server : TcpServer) : ServerAction → Option TcpServer
  | .bind address answers => (server.bind address answers).map Prod.fst
  | .bindList attempts closes => (server.bindList attempts closes []).map Loop.server
  | .destroy closes again => server.destroy closes again
  | .other action =>
      if action.changes.any (· ∈ server.m_socks) then none
      else (server.sockets.step action).map fun sockets => { server with sockets }

def machine : Machine TcpServer ServerAction where
  initial server := server = new
  step := step

/-- One of the calls for an address does not succeed. -/
def Fails (address : IAddress) (answers : Answers) : Bool :=
  (bindFamily address.getFamily).isNone || answers.fd.isNone || !answers.binds ||
    !answers.listens || !answers.setsTimeout

/-- An object has an open descriptor bound to an address. That `listen` has succeeded is not
recorded in it: an object is only kept where it has. -/
def Bound (world : Sockets) (address : IAddress) (object : Nat) : Prop :=
  ∃ socket fd, world.objects object = some socket ∧ socket.localAddr = some address ∧
    socket.sockfd = some fd ∧ world.kernel fd = some .socket

/-! ## The socket of one address -/

theorem bindFamily_socket {family : BitVec 16} {socket : Socket}
    (found : bindFamily family = some socket) : socket = { family, type := .stream } := by
  unfold bindFamily at found
  split at found
  · cases found
    subst family
    rfl
  · split at found
    · cases found
      subst family
      rfl
    · split at found
      · cases found
        subst family
        rfl
      · cases found

/-- A world with one more object. -/
def spawned (world : Sockets) (socket : Option Socket) (kernel : Nat → Option Opener)
    (lost : List Nat) : Sockets where
  objects := Function.update world.objects world.fresh socket
  fresh := world.fresh + 1
  kernel := kernel
  lost := lost

variable {world next : Sockets}

theorem spawned_self (socket : Option Socket) (kernel : Nat → Option Opener)
    (lost : List Nat) : (spawned world socket kernel lost).objects world.fresh = socket := by
  simp only [spawned, Function.update_self]

theorem call_spawned (socket : Socket) (kernel : Nat → Option Opener) (lost : List Nat)
    (method : Socket → Returned) :
    (spawned world (some socket) kernel lost).call world.fresh method =
      (Sockets.perform kernel (method socket).calls).map fun kernel =>
        (spawned world (some (method socket).socket) kernel lost, (method socket).result) := by
  rw [Sockets.call, spawned_self, Option.bind_some]
  congr 1
  funext kernel
  simp only [spawned, Sockets.set, Function.update_idem]

theorem destroy_spawned (socket : Socket) (kernel : Nat → Option Opener) (lost : List Nat)
    (closes : Bool) :
    (spawned world (some socket) kernel lost).destroy world.fresh closes =
      (Sockets.perform kernel (socket.close closes).calls).map fun kernel =>
        spawned world none kernel ((socket.close closes).socket.sockfd.toList ++ lost) := by
  rw [Sockets.destroy, spawned_self, Option.bind_some]
  dsimp only
  congr 1
  funext kernel
  simp only [spawned, Sockets.set, Function.update_idem]

/-- What becomes of the world with the socket of one address. -/
inductive Spawns (world : Sockets) (address : IAddress) (answers : Answers) :
    Sockets → Option Nat → Prop
  | family (unknown : bindFamily address.getFamily = none) : Spawns world address answers world none
  | refused (empty : answers.fd = none) :
      Spawns world address answers (spawned world none world.kernel world.lost) none
  | bound {socket : Socket} {fd : Nat} (opened : answers.fd = some fd)
      (free : world.kernel fd = none) (succeeds : Fails address answers = false)
      (addr : socket.localAddr = some address) (descriptor : socket.sockfd = some fd) :
      Spawns world address answers
        (spawned world (some socket) (Function.update world.kernel fd (some .socket)) world.lost)
        (some world.fresh)
  | closed {fd : Nat} (opened : answers.fd = some fd) (free : world.kernel fd = none)
      (fails : Fails address answers = true) (closes : answers.closes = true) :
      Spawns world address answers (spawned world none world.kernel world.lost) none
  | lost {fd : Nat} (opened : answers.fd = some fd) (free : world.kernel fd = none)
      (fails : Fails address answers = true) (leaves : answers.closes = false) :
      Spawns world address answers
        (spawned world none (Function.update world.kernel fd (some .socket)) (fd :: world.lost))
        none

theorem bindSocket_spawns {address : IAddress} {answers : Answers} {found : Option Nat}
    (taken : bindSocket world address answers = some (next, found)) :
    Spawns world address answers next found := by
  unfold bindSocket at taken
  split at taken
  · rename_i unknown
    cases taken
    exact .family unknown
  · rename_i socket known
    have shape := bindFamily_socket known
    subst shape
    rcases answers with ⟨fd, binds, listens, setsTimeout, closes⟩
    change attempt (spawned world (some _) world.kernel world.lost) _ _ _ _ = _ at taken
    cases fd with
    | none =>
        simp [attempt, call_spawned, destroy_spawned, Socket.bind, Socket.initOnce, Socket.init,
          Sockets.perform, Socket.close] at taken
        rw [← taken.1, ← taken.2]
        exact .refused rfl
    | some fd =>
        by_cases free : world.kernel fd = none
        · have same : Function.update world.kernel fd none = world.kernel := by
            rw [← free, Function.update_eq_self]
          -- One case for the call that fails, if one does, and what `close` does then.
          cases binds <;> cases listens <;> cases setsTimeout <;> cases closes
          all_goals
            simp [attempt, call_spawned, destroy_spawned, Socket.bind, Socket.initOnce,
              Socket.init, Sockets.perform, Socket.close, Socket.listen, Socket.setRecvTimeout,
              free, same] at taken
            rw [← taken.1, ← taken.2]
            first
              | exact .lost rfl free (by simp [Fails]) rfl
              | exact .closed rfl free (by simp [Fails]) rfl
              | exact .bound rfl free (by simp [Fails, known]) rfl rfl
        · cases binds
          all_goals
            simp [attempt, call_spawned, Socket.bind, Socket.initOnce, Socket.init,
              Sockets.perform, free] at taken

namespace Spawns

variable {address : IAddress} {answers : Answers} {found : Option Nat}

theorem fails_iff (spawns : Spawns world address answers next found) :
    Fails address answers = found.isNone := by
  cases spawns with
  | family unknown => simp [Fails, unknown]
  | refused empty => simp [Fails, empty]
  | bound _ _ succeeds => exact succeeds
  | closed _ _ fails => exact fails
  | lost _ _ fails => exact fails

theorem fresh_le (spawns : Spawns world address answers next found) :
    world.fresh ≤ next.fresh := by
  cases spawns with
  | family => exact Nat.le_refl _
  | _ => exact Nat.le_succ _

theorem others (spawns : Spawns world address answers next found) {object : Nat}
    (old : object < world.fresh) : next.objects object = world.objects object := by
  cases spawns with
  | family => rfl
  | _ => exact Function.update_of_ne (Nat.ne_of_lt old) _ _

theorem found_fresh {object : Nat} (spawns : Spawns world address answers next (some object)) :
    object = world.fresh ∧ next.fresh = world.fresh + 1 := by
  cases spawns with
  | bound => exact ⟨rfl, rfl⟩

theorem foreign (spawns : Spawns world address answers next found) (fd : Nat) :
    next.kernel fd = some .other ↔ world.kernel fd = some .other := by
  cases spawns with
  | family | refused | closed => rfl
  | bound _ free | lost _ free =>
      simp only [spawned, Function.update_apply]
      split
      · rename_i same
        simp [same, free]
      · rfl

theorem keeps_lost (spawns : Spawns world address answers next found)
    (closes : answers.closes = true) : next.lost = world.lost := by
  cases spawns with
  | lost _ _ _ leaves => cases leaves.symm.trans closes
  | _ => rfl

theorem found_bound {object : Nat} (spawns : Spawns world address answers next (some object)) :
    Bound next address object := by
  cases spawns with
  | @bound socket fd _ _ _ addr descriptor =>
      refine ⟨socket, fd, spawned_self _ _ _, addr, descriptor, ?_⟩
      simp only [spawned, Function.update_self]

theorem added_none (spawns : Spawns world address answers next none) {object : Nat}
    (empty : world.objects object = none) : next.objects object = none := by
  cases spawns with
  | family => exact empty
  | _ =>
      simp only [spawned, Function.update_apply]
      split
      · rfl
      · exact empty

end Spawns

/-! ## The sockets stay accounted for -/

theorem sound_attempt {object : Nat} {closes : Bool} {method : Socket → Returned}
    {following : Sockets → Option (Sockets × Option Nat)} {result : Sockets × Option Nat}
    (sound : world.Sound) (keeps : ∀ socket, (method socket).Keeps socket)
    (follows : ∀ {world}, Sockets.Sound world → following world = some result → result.1.Sound)
    (taken : attempt world object closes method following = some result) : result.1.Sound := by
  rcases Option.bind_eq_some_iff.mp taken with ⟨called, answered, taken⟩
  have kept := (sound.call keeps answered).1
  split at taken
  · exact follows kept taken
  · rcases Option.map_eq_some_iff.mp taken with ⟨left, destroyed, equal⟩
    subst equal
    exact (kept.destroy destroyed).1

theorem sound_bindSocket {address : IAddress} {answers : Answers}
    {result : Sockets × Option Nat} (sound : world.Sound)
    (taken : bindSocket world address answers = some result) : result.1.Sound := by
  unfold bindSocket at taken
  split at taken
  · cases taken
    exact sound
  · rename_i socket known
    have created : (world.create socket).Sound := by
      rw [bindFamily_socket known]
      exact (@Sockets.Sound.step _ _ sound (.create address.getFamily .stream 0) rfl).1
    refine sound_attempt created (fun socket => socket.keeps_bind _ _ _) ?_ taken
    intro world sound taken
    refine sound_attempt sound (fun socket => socket.keeps_listen _) ?_ taken
    intro world sound taken
    refine sound_attempt sound (fun socket => socket.keeps_setRecvTimeout _) ?_ taken
    intro world sound taken
    cases taken
    exact sound

/-! ## Emptying the list -/

theorem destroy_objects {object : Nat} {closes : Bool}
    (destroyed : world.destroy object closes = some next) :
    next.objects = Function.update world.objects object none ∧ next.fresh = world.fresh := by
  rcases Option.bind_eq_some_iff.mp destroyed with ⟨socket, _, destroyed⟩
  rcases Option.map_eq_some_iff.mp destroyed with ⟨kernel, _, equal⟩
  subst equal
  exact ⟨rfl, rfl⟩

theorem destroy_lost {object : Nat} (destroyed : world.destroy object true = some next) :
    next.lost = world.lost := by
  rcases Option.bind_eq_some_iff.mp destroyed with ⟨socket, _, destroyed⟩
  rcases Option.map_eq_some_iff.mp destroyed with ⟨kernel, _, equal⟩
  subst equal
  simp [Socket.close_sockfd]

theorem destroy_foreign (sound : world.Sound) {object : Nat} {closes : Bool}
    (destroyed : world.destroy object closes = some next) (fd : Nat) :
    next.kernel fd = some .other ↔ world.kernel fd = some .other := by
  rcases Option.bind_eq_some_iff.mp destroyed with ⟨socket, found, destroyed⟩
  rcases Option.map_eq_some_iff.mp destroyed with ⟨kernel, performed, equal⟩
  subst equal
  have open_ : ∀ {own}, socket.sockfd = some own → world.kernel own = some .socket :=
    fun descriptor => sound.exact.live ((Sockets.holds_of_object found).trans descriptor)
  change kernel fd = some .other ↔ _
  unfold Socket.close at performed
  split at performed
  · cases performed
    rfl
  · split at performed
    · cases performed
      rfl
    · rename_i own descriptor
      split at performed
      · cases performed
        rw [Function.update_apply]
        split
        · rename_i same
          simp [same, open_ descriptor]
        · rfl
      · cases performed
        rfl

structure Cleared (world next : Sockets) (socks : List Nat) : Prop where
  objects : ∀ object, next.objects object =
    if object ∈ socks then none else world.objects object
  fresh : next.fresh = world.fresh
  foreign : ∀ fd, next.kernel fd = some .other ↔ world.kernel fd = some .other
  sound : next.Sound

theorem cleared {closes : Nat → Bool} {socks : List Nat} (sound : world.Sound)
    (emptied : clear closes world socks = some next) : Cleared world next socks := by
  induction socks generalizing world with
  | nil =>
      cases emptied
      exact ⟨fun _ => rfl, rfl, fun _ => Iff.rfl, sound⟩
  | cons object rest induction =>
      rcases Option.bind_eq_some_iff.mp emptied with ⟨middle, destroyed, emptied⟩
      rcases destroy_objects destroyed with ⟨objects, fresh⟩
      have later := induction (sound.destroy destroyed).1 emptied
      constructor
      · intro other
        rw [later.objects, objects, Function.update_apply]
        by_cases same : other = object
        · simp [same]
        · simp [same]
      · exact later.fresh.trans fresh
      · intro fd
        exact (later.foreign fd).trans (destroy_foreign sound destroyed fd)
      · exact later.sound

theorem clear_lost {closes : Nat → Bool} {socks : List Nat}
    (closed : ∀ object ∈ socks, closes object = true)
    (emptied : clear closes world socks = some next) : next.lost = world.lost := by
  induction socks generalizing world with
  | nil =>
      cases emptied
      rfl
  | cons object rest induction =>
      rcases Option.bind_eq_some_iff.mp emptied with ⟨middle, destroyed, emptied⟩
      rw [closed object List.mem_cons_self] at destroyed
      have later := induction (fun other member => closed other (List.mem_cons_of_mem _ member))
        emptied
      exact later.trans (destroy_lost destroyed)

theorem sound_closeEach {closes : Nat → Bool} {socks : List Nat} (sound : world.Sound)
    (closed : closeEach closes world socks = some next) : next.Sound := by
  induction socks generalizing world with
  | nil =>
      cases closed
      exact sound
  | cons object rest induction =>
      rcases Option.bind_eq_some_iff.mp closed with ⟨called, answered, closed⟩
      exact induction (sound.call (fun socket => socket.keeps_close _) answered).1 closed

/-! ## The loop -/

/-- The addresses of the attempts that fail or do not. -/
def attempted (fails : Bool) (attempts : List (IAddress × Answers)) : List IAddress :=
  (attempts.filter fun attempt => Fails attempt.1 attempt.2 == fails).map Prod.fst

theorem attempted_cons (fails : Bool) (address : IAddress) (answers : Answers)
    (rest : List (IAddress × Answers)) :
    attempted fails ((address, answers) :: rest) =
      if Fails address answers = fails then address :: attempted fails rest
      else attempted fails rest := by
  simp only [attempted, List.filter_cons, beq_iff_eq]
  split <;> rfl

/-- What the loop adds. -/
structure Adds (loop final : Loop) (attempts : List (IAddress × Answers)) (added : List Nat) :
    Prop where
  socks : final.server.m_socks = loop.server.m_socks ++ added
  failed : final.failed = loop.failed ++ attempted true attempts
  rt : final.rt = (loop.rt && (attempted true attempts).isEmpty)
  fresh : loop.server.sockets.fresh ≤ final.server.sockets.fresh
  others : ∀ object < loop.server.sockets.fresh,
    final.server.sockets.objects object = loop.server.sockets.objects object
  bound : List.Forall₂ (Bound final.server.sockets) (attempted false attempts) added
  new : ∀ object ∈ added, loop.server.sockets.fresh ≤ object
  between : ∀ object ≥ loop.server.sockets.fresh, object ∉ added →
    final.server.sockets.objects object = none
  increasing : added.Pairwise (· < ·)
  foreign : ∀ fd, final.server.sockets.kernel fd = some .other ↔
    loop.server.sockets.kernel fd = some .other
  sound : final.server.sockets.Sound

/-- An object with a descriptor has it open. -/
theorem bound_of_sound {address : IAddress} {object : Nat} (bound : Bound world address object)
    (sound : next.Sound) (same : next.objects object = world.objects object) :
    Bound next address object := by
  rcases bound with ⟨socket, fd, found, addr, descriptor, _⟩
  have found := same.trans found
  exact ⟨socket, fd, found, addr, descriptor,
    sound.exact.live ((Sockets.holds_of_object found).trans descriptor)⟩

theorem bindEach_adds {loop final : Loop} {attempts : List (IAddress × Answers)}
    (sound : loop.server.sockets.Sound) (executed : bindEach loop attempts = some final) :
    ∃ added, Adds loop final attempts added := by
  induction attempts generalizing loop with
  | nil =>
      cases executed
      refine ⟨[], ?_⟩
      constructor
      · exact (List.append_nil _).symm
      · exact (List.append_nil _).symm
      · exact (Bool.and_true _).symm
      · exact Nat.le_refl _
      · intro _ _
        rfl
      · exact .nil
      · intro _ absent
        cases absent
      · intro object beyond _
        exact sound.fresh object beyond
      · exact .nil
      · intro _
        rfl
      · exact sound
  | cons attempt rest induction =>
      rcases attempt with ⟨address, answers⟩
      rcases Option.bind_eq_some_iff.mp executed with ⟨⟨middle, found⟩, taken, executed⟩
      have spawns := bindSocket_spawns taken
      cases found with
      | none =>
          have fails : Fails address answers = true := spawns.fails_iff
          let left : Loop :=
            ⟨{ loop.server with sockets := middle }, loop.failed ++ [address], false⟩
          have kept : left.server.sockets.Sound := sound_bindSocket sound taken
          rcases induction kept executed with ⟨added, adds⟩
          refine ⟨added, ?_⟩
          constructor
          · exact adds.socks
          · rw [adds.failed, attempted_cons, if_pos fails]
            exact List.append_assoc _ _ _
          · rw [adds.rt, attempted_cons, if_pos fails]
            simp [left]
          · exact spawns.fresh_le.trans adds.fresh
          · intro object old
            exact (adds.others object (old.trans_le spawns.fresh_le)).trans (spawns.others old)
          · rw [attempted_cons, if_neg (by simp [fails])]
            exact adds.bound
          · intro object member
            exact spawns.fresh_le.trans (adds.new object member)
          · intro object beyond absent
            by_cases later : middle.fresh ≤ object
            · exact adds.between object later absent
            · rw [adds.others object (Nat.lt_of_not_le later)]
              exact spawns.added_none (sound.fresh object beyond)
          · exact adds.increasing
          · intro fd
            exact (adds.foreign fd).trans (spawns.foreign fd)
          · exact adds.sound
      | some object =>
          have fails : Fails address answers = false := spawns.fails_iff
          let left : Loop := { loop with server := ⟨middle, loop.server.m_socks ++ [object]⟩ }
          have kept : left.server.sockets.Sound := sound_bindSocket sound taken
          rcases induction kept executed with ⟨added, adds⟩
          rcases spawns.found_fresh with ⟨first, fresh⟩
          have next_fresh : object < middle.fresh := by omega
          refine ⟨object :: added, ?_⟩
          constructor
          · rw [adds.socks]
            exact List.append_assoc _ _ _
          · rw [adds.failed, attempted_cons, if_neg (by simp [fails])]
          · rw [adds.rt, attempted_cons, if_neg (by simp [fails])]
          · exact spawns.fresh_le.trans adds.fresh
          · intro other old
            exact (adds.others other (old.trans_le spawns.fresh_le)).trans (spawns.others old)
          · rw [attempted_cons, if_pos fails]
            exact .cons (bound_of_sound spawns.found_bound adds.sound
              (adds.others object next_fresh)) adds.bound
          · intro other member
            rcases List.mem_cons.mp member with same | member
            · rw [same, first]
            · exact spawns.fresh_le.trans (adds.new other member)
          · intro other beyond absent
            rw [List.mem_cons, not_or] at absent
            apply adds.between other ?_ absent.2
            change middle.fresh ≤ other
            omega
          · refine .cons ?_ adds.increasing
            intro other member
            exact next_fresh.trans_le (adds.new other member)
          · intro fd
            exact (adds.foreign fd).trans (spawns.foreign fd)
          · exact adds.sound

theorem bindEach_lost {loop final : Loop} {attempts : List (IAddress × Answers)}
    (closed : ∀ attempt ∈ attempts, attempt.2.closes = true)
    (executed : bindEach loop attempts = some final) :
    final.server.sockets.lost = loop.server.sockets.lost := by
  induction attempts generalizing loop with
  | nil =>
      cases executed
      rfl
  | cons attempt rest induction =>
      rcases attempt with ⟨address, answers⟩
      rcases Option.bind_eq_some_iff.mp executed with ⟨⟨middle, found⟩, taken, executed⟩
      have same := (bindSocket_spawns taken).keeps_lost (closed _ List.mem_cons_self)
      have rest_closed : ∀ attempt ∈ rest, attempt.2.closes = true :=
        fun attempt member => closed attempt (List.mem_cons_of_mem _ member)
      cases found with
      | none => exact (induction rest_closed executed).trans same
      | some object => exact (induction rest_closed executed).trans same

/-! ## Runs -/

structure Sound (server : TcpServer) : Prop where
  sockets : server.sockets.Sound
  nodup : server.m_socks.Nodup
  bound : ∀ object ∈ server.m_socks, ∃ address, Bound server.sockets address object

theorem Sound.lt_fresh {server : TcpServer} (sound : server.Sound) {object : Nat}
    (member : object ∈ server.m_socks) : object < server.sockets.fresh := by
  rcases sound.bound object member with ⟨_, socket, _, found, _⟩
  exact Sockets.lt_fresh sound.sockets found

/-- A list with sockets behind it. -/
theorem Sound.append {server : TcpServer} (sound : server.Sound) {sockets : Sockets}
    {added : List Nat} (kept : sockets.Sound)
    (others : ∀ object < server.sockets.fresh,
      sockets.objects object = server.sockets.objects object)
    (new : ∀ object ∈ added, server.sockets.fresh ≤ object) (nodup : added.Nodup)
    (bound : ∀ object ∈ added, ∃ address, Bound sockets address object) :
    Sound ⟨sockets, server.m_socks ++ added⟩ where
  sockets := kept
  nodup := by
    apply List.nodup_append.mpr
    refine ⟨sound.nodup, nodup, ?_⟩
    intro left first right second same
    have below := sound.lt_fresh first
    have above := new right second
    omega
  bound := by
    intro object member
    rcases List.mem_append.mp member with old | member
    · rcases sound.bound object old with ⟨address, bound⟩
      exact ⟨address, bound_of_sound bound kept (others object (sound.lt_fresh old))⟩
    · exact bound object member

theorem call_objects {object other : Nat} {method : Socket → Returned} {called : Sockets × Bool}
    (answered : world.call object method = some called) (different : object ≠ other) :
    called.1.objects other = world.objects other := by
  rcases Option.bind_eq_some_iff.mp answered with ⟨socket, _, answered⟩
  rcases Option.map_eq_some_iff.mp answered with ⟨kernel, _, equal⟩
  subst equal
  exact Function.update_of_ne different.symm _ _

theorem accept_objects {object other : Nat} {answer : Option Nat} {known : Bool}
    {peer name : Option IAddress} {closes : Bool}
    (accepted : world.accept object answer known peer name closes = some next)
    (old : other < world.fresh) : next.objects other = world.objects other := by
  rcases Option.bind_eq_some_iff.mp accepted with ⟨listener, _, accepted⟩
  rcases Option.map_eq_some_iff.mp accepted with ⟨kernel, _, equal⟩
  subst equal
  dsimp only
  split
  · rfl
  · exact Function.update_of_ne (Nat.ne_of_lt old) _ _

/-- What an action does not change stays. -/
theorem step_others {action : SocketAction} (taken : world.step action = some next)
    {other : Nat} (old : other < world.fresh) (different : action.changes ≠ some other) :
    next.objects other = world.objects other := by
  have apart : ∀ {object}, action.changes = some object → object ≠ other :=
    fun equal same => different (same ▸ equal)
  cases action with
  | create =>
      cases taken
      exact Function.update_of_ne (Nat.ne_of_lt old) _ _
  | accept => exact accept_objects taken old
  | destroy =>
      rw [(destroy_objects taken).1]
      exact Function.update_of_ne (apart rfl).symm _ _
  | otherOpens | otherCloses =>
      rcases Option.ite_none_right_eq_some.mp taken with ⟨_, equal⟩
      cases equal
      rfl
  | _ =>
      rcases Option.map_eq_some_iff.mp taken with ⟨called, answered, equal⟩
      subst equal
      exact call_objects answered (apart rfl)

theorem sound_new : new.Sound where
  sockets := Sockets.sound_new
  nodup := .nil
  bound _ absent := by cases absent

theorem sound_empty {sockets : Sockets} (sound : sockets.Sound) : Sound ⟨sockets, []⟩ where
  sockets := sound
  nodup := .nil
  bound _ absent := by cases absent

/-- The list where its sockets have not changed. -/
theorem Sound.others {server : TcpServer} (sound : server.Sound) {sockets : Sockets}
    (kept : sockets.Sound) (others : ∀ object ∈ server.m_socks,
      sockets.objects object = server.sockets.objects object) :
    Sound { server with sockets } where
  sockets := kept
  nodup := sound.nodup
  bound := by
    intro object member
    rcases sound.bound object member with ⟨address, bound⟩
    exact ⟨address, bound_of_sound bound kept (others object member)⟩

theorem Sound.bind {server next : TcpServer} {address : IAddress} {answers : Answers}
    {result : Bool} (sound : server.Sound)
    (taken : server.bind address answers = some (next, result)) : next.Sound := by
  rcases Option.map_eq_some_iff.mp taken with ⟨⟨sockets, found⟩, bound, equal⟩
  have spawns := bindSocket_spawns bound
  have kept := sound_bindSocket sound.sockets bound
  cases found with
  | none =>
      cases equal
      exact sound.others kept fun object member => spawns.others (sound.lt_fresh member)
  | some object =>
      cases equal
      apply sound.append kept
      · exact fun other old => spawns.others old
      · intro other member
        rw [List.mem_singleton.mp member, spawns.found_fresh.1]
      · exact List.nodup_singleton object
      · intro other member
        rw [List.mem_singleton.mp member]
        exact ⟨address, spawns.found_bound⟩

theorem Sound.bindList {server : TcpServer} {loop : Loop}
    {attempts : List (IAddress × Answers)} {closes : Nat → Bool} {failed : List IAddress}
    (sound : server.Sound) (taken : server.bindList attempts closes failed = some loop) :
    loop.server.Sound := by
  rcases Option.bind_eq_some_iff.mp taken with ⟨final, executed, taken⟩
  rcases bindEach_adds sound.sockets executed with ⟨added, adds⟩
  split at taken
  · cases taken
    have whole : loop.server = ⟨loop.server.sockets, server.m_socks ++ added⟩ := by
      rw [← adds.socks]
    rw [whole]
    apply sound.append adds.sound adds.others adds.new
    · exact adds.increasing.imp Nat.ne_of_lt
    · intro object member
      rcases List.forall₂_iff_get.mp adds.bound with ⟨length, bound⟩
      rcases List.get_of_mem member with ⟨index, equal⟩
      have small : index.val < (attempted false attempts).length := by omega
      rw [← equal]
      exact ⟨_, bound index small index.isLt⟩
  · rcases Option.map_eq_some_iff.mp taken with ⟨sockets, emptied, equal⟩
    subst equal
    exact sound_empty (cleared adds.sound emptied).sound

theorem Sound.step {server next : TcpServer} {action : ServerAction} (sound : server.Sound)
    (taken : server.step action = some next) : next.Sound := by
  cases action with
  | bind address answers =>
      rcases Option.map_eq_some_iff.mp taken with ⟨⟨left, result⟩, bound, equal⟩
      cases equal
      exact sound.bind bound
  | bindList attempts closes =>
      rcases Option.map_eq_some_iff.mp taken with ⟨loop, bound, equal⟩
      subst equal
      exact sound.bindList bound
  | destroy closes again =>
      rcases Option.map_eq_some_iff.mp taken with ⟨sockets, emptied, equal⟩
      rcases Option.bind_eq_some_iff.mp emptied with ⟨middle, closed, emptied⟩
      subst equal
      exact sound_empty (cleared (sound_closeEach sound.sockets closed) emptied).sound
  | other action =>
      rcases Option.ite_none_left_eq_some.mp taken with ⟨apart, taken⟩
      rcases Option.map_eq_some_iff.mp taken with ⟨sockets, stepped, equal⟩
      subst equal
      apply sound.others (sound.sockets.step stepped).1
      intro object member
      apply step_others stepped (sound.lt_fresh member)
      intro same
      simp [same, member] at apart

/-! ## The kernel's table -/

theorem kernel_congr {left right : Option Opener}
    (socket : left = some .socket ↔ right = some .socket)
    (other : left = some .other ↔ right = some .other) : left = right := by
  cases left with
  | none =>
      cases right with
      | none => rfl
      | some opener => cases opener <;> simp at socket other
  | some opener =>
      cases opener with
      | socket => exact (socket.mp rfl).symm
      | other => exact (other.mp rfl).symm

/-- Where nothing is lost, the objects that are gone took their descriptors with them. -/
theorem released (socks : List Nat) (before : world.Sound) (after : next.Sound)
    (objects : ∀ object, next.objects object =
      if object ∈ socks then none else world.objects object)
    (lost : next.lost = world.lost)
    (foreign : ∀ fd, next.kernel fd = some .other ↔ world.kernel fd = some .other) (fd : Nat) :
    next.kernel fd =
      if ∃ object ∈ socks, (world.objects object).bind Socket.sockfd = some fd then none
      else world.kernel fd := by
  have owner_before : ∀ {object}, next.custody.holds object = some fd →
      object ∉ socks ∧ world.custody.holds object = some fd := by
    intro object held
    change (next.objects object).bind Socket.sockfd = some fd at held
    rw [objects] at held
    split at held
    · cases held
    · rename_i absent
      exact ⟨absent, held⟩
  have live_before : next.kernel fd = some .socket → world.kernel fd = some .socket := by
    intro live
    rcases after.exact.accounted live with ⟨object, held⟩ | gone
    · exact before.exact.live (owner_before held).2
    · exact before.exact.kept (lost ▸ gone : fd ∈ world.lost)
  split
  · rename_i dropped
    rcases dropped with ⟨object, member, held⟩
    have opened : world.kernel fd = some .socket := before.exact.live held
    apply kernel_congr
    · apply iff_of_false
      · intro live
        rcases after.exact.accounted live with ⟨owner, kept⟩ | gone
        · rcases owner_before kept with ⟨absent, old⟩
          exact absent (before.exact.single old held ▸ member)
        · exact before.exact.apart held (lost ▸ gone : fd ∈ world.lost)
      · intro absent
        cases absent
    · rw [foreign, opened]
      simp
  · rename_i others
    apply kernel_congr
    · refine ⟨live_before, ?_⟩
      intro live
      rcases before.exact.accounted live with ⟨object, held⟩ | gone
      · have stays : next.custody.holds object = some fd := by
          change (next.objects object).bind Socket.sockfd = some fd
          rw [objects, if_neg fun member => others ⟨object, member, held⟩]
          exact held
        exact after.exact.live stays
      · exact after.exact.kept (lost ▸ gone : fd ∈ next.lost)
    · exact foreign fd

theorem attempted_false {attempts : List (IAddress × Answers)}
    (succeeds : ∀ attempt ∈ attempts, Fails attempt.1 attempt.2 = false) :
    attempted false attempts = attempts.map Prod.fst := by
  have whole : (attempts.filter fun attempt => Fails attempt.1 attempt.2 == false) = attempts := by
    apply List.filter_eq_self.mpr
    intro attempt member
    rw [succeeds attempt member]
    rfl
  rw [attempted, whole]

theorem attempted_true_isEmpty (attempts : List (IAddress × Answers)) :
    (attempted true attempts).isEmpty = true ↔
      ∀ attempt ∈ attempts, Fails attempt.1 attempt.2 = false := by
  simp [attempted, List.isEmpty_iff, List.filter_eq_nil_iff]

theorem sound_of_reachable {server : TcpServer} (reached : machine.Reachable server) :
    server.Sound := by
  apply reached.invariant
  · intro server start
    cases start
    exact sound_new
  · intro server action next _ sound _ taken
    exact sound.step taken

/-- In every run the sockets of the list are distinct and each has an open descriptor bound to
an address. `bind` for several addresses reports those that fail. If none does it adds a bound
socket for every address, in the order of the addresses. Otherwise no socket is left, the old
ones neither, and where the kernel closes what it is told to no descriptor of the server is left
and no other is touched. -/
theorem bindList_all_or_nothing {server : TcpServer} {loop : Loop}
    {attempts : List (IAddress × Answers)} {closes : Nat → Bool} {failed : List IAddress}
    (reached : machine.Reachable server)
    (taken : server.bindList attempts closes failed = some loop) :
    loop.failed = failed ++ attempted true attempts ∧
    (loop.rt = true ↔ ∀ attempt ∈ attempts, Fails attempt.1 attempt.2 = false) ∧
    (loop.rt = true → ∃ added, loop.server.m_socks = server.m_socks ++ added ∧
      List.Forall₂ (Bound loop.server.sockets) (attempts.map Prod.fst) added ∧
      ∀ object ∈ server.m_socks,
        loop.server.sockets.objects object = server.sockets.objects object) ∧
    (loop.rt = false → loop.server.m_socks = [] ∧
      ((∀ object, closes object = true) → (∀ attempt ∈ attempts, attempt.2.closes = true) →
        ∀ fd, loop.server.sockets.kernel fd =
          if ∃ object ∈ server.m_socks,
            (server.sockets.objects object).bind Socket.sockfd = some fd
          then none else server.sockets.kernel fd)) ∧
    loop.server.sockets.Kept ∧ loop.server.m_socks.Nodup ∧
    ∀ object ∈ loop.server.m_socks, ∃ address, Bound loop.server.sockets address object := by
  have sound := sound_of_reachable reached
  have kept := sound.bindList taken
  rcases Option.bind_eq_some_iff.mp taken with ⟨final, looped, taken⟩
  rcases bindEach_adds sound.sockets looped with ⟨added, adds⟩
  have rt : final.rt = true ↔ ∀ attempt ∈ attempts, Fails attempt.1 attempt.2 = false := by
    rw [adds.rt, Bool.true_and, attempted_true_isEmpty]
  split at taken
  · rename_i succeeds
    cases taken
    refine ⟨adds.failed, rt, ?_, ?_, kept.sockets.kept, kept.nodup, kept.bound⟩
    · intro _
      refine ⟨added, adds.socks, ?_, ?_⟩
      · rw [← attempted_false (rt.mp succeeds)]
        exact adds.bound
      · intro object member
        exact adds.others object (sound.lt_fresh member)
    · intro fails
      cases succeeds.symm.trans fails
  · rename_i fails
    rcases Option.map_eq_some_iff.mp taken with ⟨sockets, emptied, equal⟩
    subst equal
    refine ⟨adds.failed, rt, fun succeeds => absurd succeeds fails, ?_, kept.sockets.kept,
      kept.nodup, kept.bound⟩
    intro _
    refine ⟨rfl, ?_⟩
    intro closes closed
    have gone := cleared adds.sound emptied
    have lost : sockets.lost = server.sockets.lost :=
      (clear_lost (fun object _ => closes object) emptied).trans (bindEach_lost closed looped)
    apply released server.m_socks sound.sockets gone.sound ?_ lost
    · exact fun fd => (gone.foreign fd).trans (adds.foreign fd)
    intro object
    have members : object ∈ final.server.m_socks ↔ object ∈ server.m_socks ∨ object ∈ added := by
      rw [adds.socks, List.mem_append]
    rw [gone.objects]
    by_cases member : object ∈ server.m_socks
    · rw [if_pos (members.mpr (.inl member)), if_pos member]
    · rw [if_neg member]
      by_cases old : object < server.sockets.fresh
      · have absent : object ∉ added :=
          fun fresh => absurd (adds.new object fresh) (Nat.not_le_of_lt old)
        rw [if_neg (by simp [members, member, absent]), adds.others object old]
      · rw [sound.sockets.fresh object (Nat.le_of_not_lt old)]
        split
        · rfl
        · rename_i absent
          rw [members, not_or] at absent
          exact adds.between object (Nat.le_of_not_lt old) absent.2

/-- The second `bind` fails at the second of its addresses. -/
theorem bindList_all_or_nothing_second : ∃ server loop,
    machine.Reachable server ∧ server.m_socks = [0] ∧
    server.bindList [(.ipv6 {}, ⟨some 4, true, true, true, true⟩),
      (.ipv4 { port := 1 }, ⟨some 5, true, false, true, true⟩)] (fun _ => true) [] = some loop ∧
    loop.failed = [.ipv4 { port := 1 }] ∧ loop.rt = false ∧ loop.server.m_socks = [] := by
  have reached : machine.Reachable _ :=
    Machine.Reachable.run (.initial rfl)
      (rfl : machine.run new [.bind (.ipv4 {}) ⟨some 3, true, true, true, true⟩] = some _)
  have whole := bindList_all_or_nothing reached (rfl : bindList _
    [(.ipv6 {}, ⟨some 4, true, true, true, true⟩),
      (.ipv4 { port := 1 }, ⟨some 5, true, false, true, true⟩)] (fun _ => true) [] = some _)
  exact ⟨_, _, reached, rfl, rfl, whole.1, rfl, (whole.2.2.2.1 rfl).1⟩

end TcpServer

end Socket

end FiberNet
