import FiberNet.Foundation.Machine
import FiberNet.Http.Message
import Mathlib.Logic.Function.Basic

/-! # The connection pool

Connections are objects that are shared by reference, so the pools and the users hold
their numbers. Which connections are in use, and which ones a full pool has refused, is
only recorded.
-/

namespace FiberNet

namespace Db

/-! ## Connections -/

/-- `m_mysql` is the number of a handle. -/
structure MySQLConn where
  m_mysql : Option Nat
  m_hasError : Bool
  m_connect : Bool
  m_name : List UInt8
  deriving DecidableEq

namespace MySQLConn

def new : MySQLConn where
  m_mysql := none
  m_hasError := false
  m_connect := false
  m_name := Http.text "root"

/-- The handle is what `mysql_init` returns if it is called. -/
def connect (handle : Option Nat) (conn : MySQLConn) : MySQLConn × Bool :=
  if conn.m_mysql ≠ none ∧ conn.m_hasError = false then (conn, true)
  else
    match handle with
    | none => ({ conn with m_mysql := none, m_hasError := true }, false)
    | some handle =>
        ({ conn with m_mysql := some handle, m_hasError := false, m_connect := true }, true)

def ping (answers : Bool) (conn : MySQLConn) : MySQLConn × Bool :=
  if conn.m_connect = false ∨ conn.m_mysql = none then (conn, false)
  else ({ conn with m_hasError := !answers }, answers)

/-- The handles are those that `mysql_close` is called with. -/
def close (conn : MySQLConn) : MySQLConn × List Nat :=
  if conn.m_connect then (conn, [])
  else ({ conn with m_connect := true }, conn.m_mysql.toList)

/-- The two tests behind the lock of `getConn`. -/
def available (handle : Option Nat) (answers : Bool) (conn : MySQLConn) : MySQLConn × Bool :=
  let connected := conn.connect handle
  if connected.2 then connected.1.ping answers else connected

end MySQLConn

/-! ## The manager -/

structure MySQLManager where
  m_maxConns : Nat
  m_conns : List UInt8 → Option (List Nat)
  conns : Nat → MySQLConn
  created : Nat
  handles : Nat
  closed : List Nat
  inUse : List (Nat × List UInt8)
  refused : List Nat

namespace MySQLManager

def new (max_conns : UInt32) : MySQLManager where
  m_maxConns := if max_conns = 0 then 30 else max_conns.toNat
  m_conns _ := none
  conns _ := .new
  created := 0
  handles := 0
  closed := []
  inUse := []
  refused := []

/-- The part of `getConn` under the lock. -/
def takeConn (name : List UInt8) (newName : Bool) (mgr : MySQLManager) :
    Option (Nat × MySQLManager) :=
  match mgr.m_conns name with
  | none =>
      if newName = false then none
      else
        -- The new connection keeps the name of the constructor here.
        some (mgr.created, { mgr with
          m_conns := Function.update mgr.m_conns name (some [])
          conns := Function.update mgr.conns mgr.created .new
          created := mgr.created + 1 })
  | some [] =>
      some (mgr.created, { mgr with
        conns := Function.update mgr.conns mgr.created { MySQLConn.new with m_name := name }
        created := mgr.created + 1 })
  | some (conn :: deq) =>
      some (conn, { mgr with m_conns := Function.update mgr.m_conns name (some deq) })

/-- `connects` and `answers` are the outcomes of the calls of the library. -/
def getConn (name : List UInt8) (newName connects answers : Bool) (mgr : MySQLManager) :
    MySQLManager × Option Nat :=
  match takeConn name newName mgr with
  | none => (mgr, none)
  | some (conn, mgr) =>
      let handle := if connects then some mgr.handles else none
      let (object, usable) := (mgr.conns conn).available handle answers
      ({ mgr with
        conns := Function.update mgr.conns conn object
        handles := mgr.handles + 1 }, if usable then some conn else none)

def addConn (name : List UInt8) (conn : Nat) (newName : Bool) (mgr : MySQLManager) :
    MySQLManager × Bool :=
  match mgr.m_conns name with
  | none =>
      if newName then
        ({ mgr with m_conns := Function.update mgr.m_conns name (some [conn]) }, true)
      else (mgr, false)
  | some deq =>
      if mgr.m_maxConns < deq.length then
        let (object, handles) := (mgr.conns conn).close
        ({ mgr with
          conns := Function.update mgr.conns conn object
          closed := mgr.closed ++ handles }, false)
      else
        ({ mgr with m_conns := Function.update mgr.m_conns name (some (deq ++ [conn])) }, true)

end MySQLManager

inductive PoolAction
  | getConn (name : List UInt8) (connects answers : Bool)
  | giveBack (conn : Nat)

namespace MySQLManager

def users (mgr : MySQLManager) : List Nat :=
  mgr.inUse.map (·.1)

def step (mgr : MySQLManager) : PoolAction → Option MySQLManager
  | .getConn name connects answers =>
      let (next, conn) := mgr.getConn name true connects answers
      some { next with inUse := (conn.toList.map fun conn => (conn, name)) ++ next.inUse }
  | .giveBack conn =>
      if conn ∈ mgr.users then
        let (next, kept) := mgr.addConn (mgr.conns conn).m_name conn true
        some {
          next with
          inUse := next.inUse.filter (·.1 ≠ conn)
          refused := if kept then next.refused else conn :: next.refused }
      else none

def machine : Machine MySQLManager PoolAction where
  initial mgr := ∃ max_conns, mgr = new max_conns
  step := step

/-! ## The contract -/

/-- No connection is in two places. -/
structure Owned (mgr : MySQLManager) : Prop where
  once : mgr.users.Nodup
  apart : ∀ {name pool}, mgr.m_conns name = some pool → ∀ conn ∈ pool, conn ∉ mgr.users
  distinct : ∀ {name pool}, mgr.m_conns name = some pool → pool.Nodup
  disjoint : ∀ {name other first second}, name ≠ other → mgr.m_conns name = some first →
    mgr.m_conns other = some second → ∀ conn ∈ first, conn ∉ second

structure PoolContract (mgr : MySQLManager) : Prop where
  named : ∀ user ∈ mgr.inUse, (mgr.conns user.1).m_name = user.2
  bounded : ∀ {name pool}, mgr.m_conns name = some pool → pool.length ≤ mgr.m_maxConns
  owned : mgr.Owned
  closed : ∀ conn ∈ mgr.refused, ∃ handle, (mgr.conns conn).m_mysql = some handle ∧
    mgr.closed.count handle = 1

/-- The pool that is asked exists, unless the request fails or is for the default name,
and there is room where a connection goes back to. -/
def Fits (mgr : MySQLManager) : PoolAction → Prop
  | .getConn name connects answers =>
      mgr.m_conns name ≠ none ∨ name = Http.text "root" ∨ connects = false ∨ answers = false
  | .giveBack conn =>
      ((mgr.m_conns (mgr.conns conn).m_name).getD []).length < mgr.m_maxConns

instance (mgr : MySQLManager) (action : PoolAction) : Decidable (mgr.Fits action) := by
  cases action with
  | getConn => exact inferInstanceAs (Decidable (_ ∨ _))
  | giveBack => exact inferInstanceAs (Decidable (_ < _))

/-! ## One connection -/

theorem connect_name (handle : Option Nat) (conn : MySQLConn) :
    (conn.connect handle).1.m_name = conn.m_name := by
  cases handle <;> simp only [MySQLConn.connect] <;> split <;> rfl

theorem ping_name (answers : Bool) (conn : MySQLConn) :
    (conn.ping answers).1.m_name = conn.m_name := by
  rw [MySQLConn.ping]
  split <;> rfl

theorem ping_connected {answers : Bool} {conn : MySQLConn}
    (alive : (conn.ping answers).2 = true) : (conn.ping answers).1.m_connect = true := by
  rw [MySQLConn.ping] at alive ⊢
  split at alive
  case isTrue => cases alive
  case isFalse usable =>
    rw [if_neg usable]
    exact eq_true_of_ne_false fun unconnected => usable (.inl unconnected)

theorem available_name (handle : Option Nat) (answers : Bool) (conn : MySQLConn) :
    (conn.available handle answers).1.m_name = conn.m_name := by
  rw [MySQLConn.available]
  split
  · exact (ping_name _ _).trans (connect_name handle conn)
  · exact connect_name handle conn

/-- A connection that answers is connected, so that `close` leaves it alone. -/
theorem available_connected {handle : Option Nat} {answers : Bool} {conn : MySQLConn}
    (usable : (conn.available handle answers).2 = true) :
    (conn.available handle answers).1.m_connect = true := by
  rw [MySQLConn.available] at usable ⊢
  split at usable
  case isTrue connected =>
    rw [if_pos connected]
    exact ping_connected usable
  case isFalse failed => exact absurd usable failed

theorem available_new (connects answers : Bool) (handle : Nat) :
    (MySQLConn.new.available (if connects then some handle else none) answers).2 =
      (connects && answers) := by
  cases connects <;> rfl

/-! ## What every step keeps -/

structure Sound (mgr : MySQLManager) : Prop where
  once : mgr.users.Nodup
  held : ∀ conn ∈ mgr.users, conn < mgr.created ∧ (mgr.conns conn).m_connect = true
  distinct : ∀ {name pool}, mgr.m_conns name = some pool → pool.Nodup
  pooled : ∀ {name pool}, mgr.m_conns name = some pool → ∀ conn ∈ pool,
    conn < mgr.created ∧ (mgr.conns conn).m_name = name ∧
      (mgr.conns conn).m_connect = true ∧ conn ∉ mgr.users
  unclosed : mgr.closed = []
  positive : 0 < mgr.m_maxConns

theorem Sound.owned {mgr : MySQLManager} (sound : mgr.Sound) : mgr.Owned where
  once := sound.once
  apart found conn member := (sound.pooled found conn member).2.2.2
  distinct := sound.distinct
  disjoint := by
    intro name other first second different found other_found conn member also
    apply different
    rw [← (sound.pooled found conn member).2.1]
    exact (sound.pooled other_found conn also).2.1

theorem new_sound (max_conns : UInt32) : (new max_conns).Sound where
  once := List.nodup_nil
  held _ member := absurd member List.not_mem_nil
  distinct found := by cases found
  pooled found := by cases found
  unclosed := rfl
  positive := by
    change 0 < if max_conns = 0 then 30 else max_conns.toNat
    split
    · decide
    · rename_i nonzero
      exact Nat.pos_of_ne_zero fun zero => nonzero (UInt32.toNat_inj.mp zero)

/-- A connection has been taken out for a request. -/
structure Takes (mgr : MySQLManager) (name : List UInt8) (conn : Nat)
    (next : MySQLManager) : Prop where
  below : conn < next.created
  created : mgr.created ≤ next.created
  free : conn ∉ mgr.users
  pools : ∀ {other pool}, next.m_conns other = some pool →
    conn ∉ pool ∧ (pool = [] ∨ ∃ old, mgr.m_conns other = some old ∧ pool.Sublist old)
  others : ∀ other, other ≠ conn → next.conns other = mgr.conns other
  inUse : next.inUse = mgr.inUse
  refused : next.refused = mgr.refused
  closed : next.closed = mgr.closed
  m_maxConns : next.m_maxConns = mgr.m_maxConns
  unknown : mgr.m_conns name = none → next.conns conn = .new
  known : mgr.m_conns name ≠ none → (next.conns conn).m_name = name

theorem takeConn_spec {mgr : MySQLManager} (sound : mgr.Sound) (name : List UInt8) :
    ∃ conn next, takeConn name true mgr = some (conn, next) ∧ Takes mgr name conn next := by
  have unused : mgr.created ∉ mgr.users := fun member =>
    Nat.lt_irrefl _ (sound.held _ member).1
  have unpooled : ∀ {other pool}, mgr.m_conns other = some pool → mgr.created ∉ pool :=
    fun found member => Nat.lt_irrefl _ (sound.pooled found _ member).1
  cases found : mgr.m_conns name with
  | none =>
      refine ⟨mgr.created, _, by rw [takeConn, found]; rfl, ?_⟩
      exact {
        below := Nat.lt_succ_self _
        created := Nat.le_succ _
        free := unused
        pools := by
          intro other pool present
          by_cases same : other = name
          · rw [same] at present
            simp only [Function.update_self, Option.some.injEq] at present
            rw [← present]
            exact ⟨List.not_mem_nil, .inl rfl⟩
          · simp only [Function.update_of_ne same] at present
            exact ⟨unpooled present, .inr ⟨pool, present, .refl _⟩⟩
        others := fun other different => Function.update_of_ne different _ _
        inUse := rfl
        refused := rfl
        closed := rfl
        m_maxConns := rfl
        unknown := fun _ => Function.update_self _ _ _
        known := fun present => absurd found present }
  | some deq =>
      cases deq with
      | nil =>
          refine ⟨mgr.created, _, by rw [takeConn, found], ?_⟩
          exact {
            below := Nat.lt_succ_self _
            created := Nat.le_succ _
            free := unused
            pools := fun present => ⟨unpooled present, .inr ⟨_, present, .refl _⟩⟩
            others := fun other different => Function.update_of_ne different _ _
            inUse := rfl
            refused := rfl
            closed := rfl
            m_maxConns := rfl
            unknown := by
              intro missing
              rw [found] at missing
              cases missing
            known := by
              intro _
              simp only [Function.update_self] }
      | cons conn deq =>
          have inside := sound.pooled found conn List.mem_cons_self
          refine ⟨conn, _, by rw [takeConn, found], ?_⟩
          exact {
            below := inside.1
            created := Nat.le_refl _
            free := inside.2.2.2
            pools := by
              intro other pool present
              by_cases same : other = name
              · rw [same] at present
                simp only [Function.update_self, Option.some.injEq] at present
                rw [← present, same]
                exact ⟨(List.nodup_cons.mp (sound.distinct found)).1,
                  .inr ⟨_, found, List.sublist_cons_self _ _⟩⟩
              · simp only [Function.update_of_ne same] at present
                refine ⟨?_, .inr ⟨pool, present, .refl _⟩⟩
                exact sound.owned.disjoint (Ne.symm same) found present conn List.mem_cons_self
            others := fun _ _ => rfl
            inUse := rfl
            refused := rfl
            closed := rfl
            m_maxConns := rfl
            unknown := by
              intro missing
              rw [found] at missing
              cases missing
            known := fun _ => inside.2.1 }

/-- The end of a request for a connection that has been taken out. -/
def finish (conn : Nat) (object : MySQLConn) (user : Option (List UInt8))
    (mgr : MySQLManager) : MySQLManager :=
  { mgr with
    conns := Function.update mgr.conns conn object
    handles := mgr.handles + 1
    inUse := (user.toList.map fun name => (conn, name)) ++ mgr.inUse }

theorem mem_finish_users {conn : Nat} {object : MySQLConn} {user : Option (List UInt8)}
    {mgr : MySQLManager} {other : Nat} (member : other ∈ (mgr.finish conn object user).users) :
    (user.isSome = true ∧ other = conn) ∨ other ∈ mgr.users := by
  cases user with
  | none => exact .inr member
  | some name =>
      rcases List.mem_cons.mp member with same | member
      · exact .inl ⟨rfl, same⟩
      · exact .inr member

theorem Takes.users {mgr next : MySQLManager} {name : List UInt8} {conn : Nat}
    (takes : Takes mgr name conn next) : next.users = mgr.users := by
  rw [MySQLManager.users, takes.inUse, MySQLManager.users]

/-- A request keeps what is sound, if it hands out only what is connected. -/
theorem Takes.finish_sound {mgr next : MySQLManager} {name : List UInt8} {conn : Nat}
    (takes : Takes mgr name conn next) (sound : mgr.Sound) {object : MySQLConn}
    {user : Option (List UInt8)} (connected : user.isSome = true → object.m_connect = true) :
    (next.finish conn object user).Sound where
  once := by
    cases user with
    | none =>
        change next.users.Nodup
        rw [takes.users]
        exact sound.once
    | some name =>
        change (conn :: next.users).Nodup
        rw [takes.users]
        exact List.nodup_cons.mpr ⟨takes.free, sound.once⟩
  held := by
    intro other member
    change other < next.created ∧ (Function.update next.conns conn object other).m_connect = true
    rcases mem_finish_users member with ⟨handed, same⟩ | member
    · rw [same, Function.update_self]
      exact ⟨takes.below, connected handed⟩
    · rw [takes.users] at member
      have different : other ≠ conn := fun same => takes.free (same ▸ member)
      rcases sound.held other member with ⟨below, linked⟩
      rw [Function.update_of_ne different, takes.others other different]
      exact ⟨Nat.lt_of_lt_of_le below takes.created, linked⟩
  distinct := by
    intro other pool found
    rcases (takes.pools found).2 with empty | ⟨old, before, part⟩
    · rw [empty]
      exact List.nodup_nil
    · exact (sound.distinct before).sublist part
  pooled := by
    intro key pool found other member
    change other < next.created ∧ (Function.update next.conns conn object other).m_name = key ∧
      (Function.update next.conns conn object other).m_connect = true ∧
      other ∉ (next.finish conn object user).users
    rcases takes.pools found with ⟨absent, empty | ⟨old, before, part⟩⟩
    · rw [empty] at member
      cases member
    · have different : other ≠ conn := fun same => absent (same ▸ member)
      rcases sound.pooled before other (part.subset member) with
        ⟨below, named, linked, unused⟩
      rw [Function.update_of_ne different, takes.others other different]
      refine ⟨Nat.lt_of_lt_of_le below takes.created, named, linked, ?_⟩
      intro used
      rcases mem_finish_users used with ⟨_, same⟩ | used
      · exact different same
      · rw [takes.users] at used
        exact unused used
  unclosed := takes.closed.trans sound.unclosed
  positive := by
    change 0 < next.m_maxConns
    rw [takes.m_maxConns]
    exact sound.positive

/-- A request is finished for the connection that is taken out, and it is handed out if it
is usable. -/
theorem step_getConn {mgr : MySQLManager} (sound : mgr.Sound) (name : List UInt8)
    (connects answers : Bool) :
    ∃ conn next object usable, Takes mgr name conn next ∧
      (next.conns conn).available (if connects then some next.handles else none) answers =
        (object, usable) ∧
      mgr.step (.getConn name connects answers) =
        some (next.finish conn object (if usable then some name else none)) := by
  rcases takeConn_spec sound name with ⟨conn, next, taken, takes⟩
  cases result : (next.conns conn).available (if connects then some next.handles else none)
    answers with
  | mk object usable =>
      refine ⟨conn, next, object, usable, takes, result, ?_⟩
      simp only [step, getConn, taken, result]
      cases usable <;> rfl

theorem getConn_sound {mgr next : MySQLManager} (sound : mgr.Sound) {name : List UInt8}
    {connects answers : Bool} (taken : mgr.step (.getConn name connects answers) = some next) :
    next.Sound := by
  rcases step_getConn sound name connects answers with
    ⟨conn, middle, object, usable, takes, result, executed⟩
  cases taken.symm.trans executed
  apply takes.finish_sound sound
  intro handed
  cases usable with
  | false => cases handed
  | true =>
      have connected := available_connected (congrArg (·.2) result)
      rw [result] at connected
      exact connected

/-- Nothing has been refused while the contract holds, as no handle is ever closed. -/
theorem refused_eq_nil {mgr : MySQLManager} (sound : mgr.Sound) (contract : mgr.PoolContract) :
    mgr.refused = [] := by
  apply List.eq_nil_iff_forall_not_mem.mpr
  intro conn member
  rcases contract.closed conn member with ⟨handle, _, once⟩
  rw [sound.unclosed] at once
  cases once

/-- A new connection is usable exactly if both calls succeed. -/
theorem Takes.usable_eq {mgr middle : MySQLManager} {name : List UInt8} {conn : Nat}
    (takes : Takes mgr name conn middle) (missing : mgr.m_conns name = none)
    {connects answers usable : Bool} {object : MySQLConn}
    (result : (middle.conns conn).available
      (if connects then some middle.handles else none) answers = (object, usable)) :
    usable = (connects && answers) := by
  have outcome := available_new connects answers middle.handles
  rw [← takes.unknown missing, result] at outcome
  exact outcome

/-- The connection that a request hands out has the name exactly if the request fits. -/
theorem Takes.handed_name {mgr middle : MySQLManager} {name : List UInt8} {conn : Nat}
    (takes : Takes mgr name conn middle) {connects answers : Bool} {object : MySQLConn}
    (result : (middle.conns conn).available
      (if connects then some middle.handles else none) answers = (object, true)) :
    object.m_name = name ↔ mgr.Fits (.getConn name connects answers) := by
  have named := available_name (if connects then some middle.handles else none) answers
    (middle.conns conn)
  rw [result] at named
  by_cases missing : mgr.m_conns name = none
  · rcases Bool.and_eq_true_iff.mp (takes.usable_eq missing result).symm with
      ⟨connected, answered⟩
    rw [named, takes.unknown missing]
    constructor
    · intro root
      exact .inr (.inl root.symm)
    · rintro (known | root | refused | refused)
      · exact absurd missing known
      · exact root.symm
      · rw [connected] at refused
        cases refused
      · rw [answered] at refused
        cases refused
  · exact iff_of_true (named.trans (takes.known missing)) (.inl missing)

/-- A request keeps the contract exactly if the connection that it hands out, if any, has
the name. -/
theorem Takes.contract_iff {mgr next : MySQLManager} {name : List UInt8} {conn : Nat}
    (takes : Takes mgr name conn next) (sound : mgr.Sound) (contract : mgr.PoolContract)
    {object : MySQLConn} {user : Option (List UInt8)}
    (finished : (next.finish conn object user).Sound) :
    (next.finish conn object user).PoolContract ↔ ∀ name ∈ user, object.m_name = name := by
  constructor
  · rintro kept name rfl
    have named := kept.named (conn, name) List.mem_cons_self
    change (Function.update next.conns conn object conn).m_name = name at named
    rw [Function.update_self] at named
    exact named
  · intro fits
    exact {
      named := by
        intro entry member
        change (Function.update next.conns conn object entry.1).m_name = entry.2
        rcases List.mem_append.mp member with handed | before
        · rcases List.mem_map.mp handed with ⟨name, given, rfl⟩
          rw [Function.update_self]
          exact fits name (Option.mem_toList.mp given)
        · rw [takes.inUse] at before
          have different : entry.1 ≠ conn := fun same =>
            takes.free (same ▸ List.mem_map_of_mem before)
          rw [Function.update_of_ne different, takes.others _ different]
          exact contract.named entry before
      bounded := by
        intro other pool found
        change pool.length ≤ next.m_maxConns
        rw [takes.m_maxConns]
        rcases (takes.pools found).2 with empty | ⟨old, before, part⟩
        · rw [empty]
          exact Nat.zero_le _
        · exact Nat.le_trans part.length_le (contract.bounded before)
      owned := finished.owned
      closed := by
        intro refused member
        change refused ∈ next.refused at member
        rw [takes.refused, refused_eq_nil sound contract] at member
        cases member }

theorem getConn_contract {mgr next : MySQLManager} (sound : mgr.Sound)
    (contract : mgr.PoolContract) {name : List UInt8} {connects answers : Bool}
    (taken : mgr.step (.getConn name connects answers) = some next) :
    next.PoolContract ↔ mgr.Fits (.getConn name connects answers) := by
  have finished := getConn_sound sound taken
  rcases step_getConn sound name connects answers with
    ⟨conn, middle, object, usable, takes, result, executed⟩
  cases taken.symm.trans executed
  rw [takes.contract_iff sound contract finished]
  cases usable with
  | true =>
      rw [← takes.handed_name result]
      constructor
      · intro named
        exact named name rfl
      · rintro named _ ⟨⟩
        exact named
  | false =>
      apply iff_of_true
      · rintro _ ⟨⟩
      · by_cases missing : mgr.m_conns name = none
        · rcases Bool.and_eq_false_iff.mp (takes.usable_eq missing result).symm with
            refused | refused
          · exact .inr (.inr (.inl refused))
          · exact .inr (.inr (.inr refused))
        · exact .inl missing

/-! ## Returns -/

theorem close_connected {conn : MySQLConn} (connected : conn.m_connect = true) :
    conn.close = (conn, []) := by
  rw [MySQLConn.close, if_pos connected]

/-- The state behind the return of a connection, to the end of a pool or to nowhere. -/
def returned (conn : Nat) (m_conns : List UInt8 → Option (List Nat)) (refused : List Nat)
    (mgr : MySQLManager) : MySQLManager :=
  { mgr with m_conns, inUse := mgr.inUse.filter (·.1 ≠ conn), refused }

theorem returned_users (conn : Nat) (m_conns : List UInt8 → Option (List Nat))
    (refused : List Nat) (mgr : MySQLManager) :
    (mgr.returned conn m_conns refused).users = mgr.users.filter (· ≠ conn) := by
  rw [MySQLManager.users, returned, MySQLManager.users, List.filter_map]
  rfl

/-- A connection goes back to the end of the pool of its name, unless that pool holds more
than it may. Then it is neither kept nor closed. -/
theorem step_giveBack {mgr next : MySQLManager} (sound : mgr.Sound) {conn : Nat}
    (taken : mgr.step (.giveBack conn) = some next) :
    conn ∈ mgr.users ∧
      let name := (mgr.conns conn).m_name
      let deq := (mgr.m_conns name).getD []
      (deq.length ≤ mgr.m_maxConns ∧
          next = mgr.returned conn (Function.update mgr.m_conns name (some (deq ++ [conn])))
            mgr.refused) ∨
        (mgr.m_maxConns < deq.length ∧
          next = mgr.returned conn mgr.m_conns (conn :: mgr.refused)) := by
  rw [step] at taken
  split at taken
  case isFalse => cases taken
  case isTrue used =>
    refine ⟨used, ?_⟩
    cases taken
    cases found : mgr.m_conns (mgr.conns conn).m_name with
    | none =>
        refine .inl ⟨by rw [found]; exact Nat.zero_le _, ?_⟩
        simp only [found]
        rfl
    | some deq =>
        simp only [found, Option.getD_some]
        by_cases full : mgr.m_maxConns < deq.length
        · refine .inr ⟨full, ?_⟩
          rw [if_pos full, close_connected (sound.held conn used).2, Function.update_eq_self,
            List.append_nil]
          rfl
        · refine .inl ⟨Nat.le_of_not_lt full, ?_⟩
          rw [if_neg full]
          rfl

theorem mem_returned_users {conn other : Nat} {m_conns : List UInt8 → Option (List Nat)}
    {refused : List Nat} {mgr : MySQLManager}
    (member : other ∈ (mgr.returned conn m_conns refused).users) :
    other ∈ mgr.users ∧ other ≠ conn := by
  rw [returned_users, List.mem_filter, decide_eq_true_iff] at member
  exact member

/-- A return keeps what is sound, if every pool is one from before or has got the
connection of its name at the end. -/
theorem returned_sound {mgr : MySQLManager} (sound : mgr.Sound) {conn : Nat}
    (used : conn ∈ mgr.users) {m_conns : List UInt8 → Option (List Nat)} {refused : List Nat}
    (pools : ∀ {name pool}, m_conns name = some pool → mgr.m_conns name = some pool ∨
      (name = (mgr.conns conn).m_name ∧ ((mgr.m_conns name = none ∧ pool = [conn]) ∨
        ∃ deq, mgr.m_conns name = some deq ∧ pool = deq ++ [conn]))) :
    (mgr.returned conn m_conns refused).Sound where
  once := by
    rw [returned_users]
    exact sound.once.filter _
  held other member := sound.held other (mem_returned_users member).1
  distinct := by
    intro name pool found
    rcases pools found with before | ⟨_, ⟨_, rfl⟩ | ⟨deq, before, rfl⟩⟩
    · exact sound.distinct before
    · exact List.nodup_cons.mpr ⟨List.not_mem_nil, List.nodup_nil⟩
    · apply List.nodup_append.mpr
      refine ⟨sound.distinct before, List.nodup_cons.mpr ⟨List.not_mem_nil, List.nodup_nil⟩, ?_⟩
      rintro other member _ last rfl
      rw [List.mem_singleton.mp last] at member
      exact (sound.pooled before conn member).2.2.2 used
  pooled := by
    have kept : ∀ {name deq other}, mgr.m_conns name = some deq → other ∈ deq →
        other < mgr.created ∧ (mgr.conns other).m_name = name ∧
          (mgr.conns other).m_connect = true ∧
          other ∉ (mgr.returned conn m_conns refused).users := by
      intro name deq other before member
      rcases sound.pooled before other member with ⟨below, named, linked, unused⟩
      exact ⟨below, named, linked, fun again => unused (mem_returned_users again).1⟩
    have back : conn < mgr.created ∧ (mgr.conns conn).m_connect = true ∧
        conn ∉ (mgr.returned conn m_conns refused).users :=
      ⟨(sound.held conn used).1, (sound.held conn used).2,
        fun again => (mem_returned_users again).2 rfl⟩
    intro name pool found other member
    rcases pools found with before | ⟨named, ⟨_, rfl⟩ | ⟨deq, before, rfl⟩⟩
    · exact kept before member
    · rw [List.mem_singleton.mp member]
      exact ⟨back.1, named.symm, back.2⟩
    · rcases List.mem_append.mp member with inside | last
      · exact kept before inside
      · rw [List.mem_singleton.mp last]
        exact ⟨back.1, named.symm, back.2⟩
  unclosed := sound.unclosed
  positive := sound.positive

theorem giveBack_sound {mgr next : MySQLManager} (sound : mgr.Sound) {conn : Nat}
    (taken : mgr.step (.giveBack conn) = some next) : next.Sound := by
  rcases step_giveBack sound taken with ⟨used, ⟨_, rfl⟩ | ⟨_, rfl⟩⟩
  · apply returned_sound sound used
    intro name pool found
    by_cases same : name = (mgr.conns conn).m_name
    · rw [same, Function.update_self, Option.some.injEq] at found
      refine .inr ⟨same, ?_⟩
      rw [same, ← found]
      cases before : mgr.m_conns (mgr.conns conn).m_name with
      | none => exact .inl ⟨rfl, rfl⟩
      | some deq => exact .inr ⟨deq, rfl, rfl⟩
    · rw [Function.update_of_ne same] at found
      exact .inl found
  · exact returned_sound sound used .inl

theorem giveBack_contract {mgr next : MySQLManager} (sound : mgr.Sound)
    (contract : mgr.PoolContract) {conn : Nat}
    (taken : mgr.step (.giveBack conn) = some next) :
    next.PoolContract ↔ mgr.Fits (.giveBack conn) := by
  have next_sound := giveBack_sound sound taken
  rcases step_giveBack sound taken with ⟨used, ⟨room, rfl⟩ | ⟨full, rfl⟩⟩
  · constructor
    · intro kept
      have bound := kept.bounded (Function.update_self _ _ mgr.m_conns)
      rw [List.length_append] at bound
      exact bound
    · intro fits
      exact {
        named := fun user member => contract.named user (List.mem_filter.mp member).1
        bounded := by
          intro name pool found
          change Function.update mgr.m_conns _ _ name = some pool at found
          by_cases same : name = (mgr.conns conn).m_name
          · rw [same, Function.update_self, Option.some.injEq] at found
            rw [← found, List.length_append]
            exact fits
          · rw [Function.update_of_ne same] at found
            exact contract.bounded found
        owned := next_sound.owned
        closed := contract.closed }
  · -- No pool holds more than it may while the contract holds.
    cases found : mgr.m_conns (mgr.conns conn).m_name with
    | none =>
        rw [found] at full
        exact absurd full (Nat.not_lt_zero _)
    | some deq =>
        rw [found] at full
        exact absurd (contract.bounded found) (Nat.not_le_of_lt full)

/-! ## Runs -/

theorem kept {mgr next : MySQLManager} {action : PoolAction} (sound : mgr.Sound)
    (contract : mgr.PoolContract) (taken : machine.step mgr action = some next) :
    next.Sound ∧ (next.PoolContract ↔ mgr.Fits action) := by
  cases action with
  | getConn => exact ⟨getConn_sound sound taken, getConn_contract sound contract taken⟩
  | giveBack => exact ⟨giveBack_sound sound taken, giveBack_contract sound contract taken⟩

theorem new_contract (max_conns : UInt32) : (new max_conns).PoolContract where
  named _ member := absurd member List.not_mem_nil
  bounded found := by cases found
  owned := (new_sound max_conns).owned
  closed _ member := absurd member List.not_mem_nil

theorem sound_of_reachable {mgr : MySQLManager} (reachable : machine.Reachable mgr) :
    mgr.Sound := by
  apply reachable.invariant
  · rintro _ ⟨max_conns, rfl⟩
    exact new_sound max_conns
  · intro state action next _ sound _ taken
    cases action with
    | getConn => exact getConn_sound sound taken
    | giveBack => exact giveBack_sound sound taken

/-- In no run is a connection in two places or a handle closed, be it that of a refused
connection. -/
theorem owned_of_reachable {mgr : MySQLManager} (reachable : machine.Reachable mgr) :
    mgr.Owned ∧ mgr.closed = [] :=
  ⟨(sound_of_reachable reachable).owned, (sound_of_reachable reachable).unclosed⟩

theorem poolContract_iff (max_conns : UInt32) {actions : List PoolAction}
    {final : MySQLManager} (executed : machine.run (new max_conns) actions = some final) :
    machine.Always PoolContract (new max_conns) actions ↔
      machine.Meets Fits (new max_conns) actions :=
  Machine.always_iff kept actions (new_sound max_conns) (new_contract max_conns) executed

/-- One connection is asked for, given back and asked for again. -/
theorem poolContract_root :
    machine.Always PoolContract (new 1) [
      .getConn (Http.text "root") true true, .giveBack 0,
      .getConn (Http.text "root") true false] :=
  (poolContract_iff 1 rfl).mpr (by decide)

/-- The first connection for another name keeps the name of the default pool, and a pool
takes one connection more than it may hold. -/
theorem not_poolContract :
    ¬machine.Always PoolContract (new 1) [.getConn (Http.text "a") true true] ∧
      ¬machine.Always PoolContract (new 1) [
        .getConn (Http.text "root") true true, .getConn (Http.text "root") true true,
        .giveBack 0, .giveBack 1] := by
  constructor
  · rw [Machine.always_iff kept _ (new_sound 1) (new_contract 1) rfl]
    decide
  · rw [Machine.always_iff kept _ (new_sound 1) (new_contract 1) rfl]
    decide

end MySQLManager

end Db

end FiberNet
