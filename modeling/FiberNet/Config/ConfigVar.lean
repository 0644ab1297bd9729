import FiberNet.Foundation.Machine
import FiberNet.Foundation.OrderedMap
import Mathlib.Data.List.Chain
import Mathlib.Order.Nat

/-! # Configuration variables

A variable with a value, and listeners that are called before the value changes. A listener
may throw a `std::exception`, which ends the calls.
-/

namespace FiberNet

namespace Config

/-- Whether a listener throws for an old and a new value. -/
abbrev OnChangeCb (T : Type u) := T → T → Bool

/-- Identifiers are given out in increasing order. -/
structure ConfigVar (T : Type u) where
  val : T
  cbs : OrderedMap (fun id : Nat => id) (OnChangeCb T)
  funcId : Nat
  numbered : ∀ entry ∈ cbs.entries, entry.1 ≤ funcId

/-- The call of a listener, and whether it returned. -/
structure Notification (T : Type u) where
  id : Nat
  oldVal : T
  newVal : T
  returned : Bool
  deriving DecidableEq

namespace ConfigVar

variable {T : Type u} (var : ConfigVar T)

/-- A variable without listeners. -/
def make (val : T) : ConfigVar T where
  val := val
  cbs := ∅
  funcId := 0
  numbered := List.forall_mem_nil _

theorem entries_set_next (cb : OnChangeCb T) :
    (var.cbs.set (var.funcId + 1) cb).entries = var.cbs.entries ++ [(var.funcId + 1, cb)] :=
  OrderedMap.assign_of_above fun entry member => Nat.lt_succ_of_le (var.numbered entry member)

def addCb (cb : OnChangeCb T) : ConfigVar T where
  val := var.val
  cbs := var.cbs.set (var.funcId + 1) cb
  funcId := var.funcId + 1
  numbered := by
    rw [entries_set_next]
    intro entry member
    rcases List.mem_append.mp member with old | new
    · exact Nat.le_succ_of_le (var.numbered entry old)
    · rw [List.mem_singleton.mp new]

/-- The loop of `setVal` over the listeners. -/
def notify (oldVal newVal : T) : List (Nat × OnChangeCb T) → List (Notification T)
  | [] => []
  | (id, cb) :: entries =>
      if cb oldVal newVal then [⟨id, oldVal, newVal, false⟩]
      else ⟨id, oldVal, newVal, true⟩ :: notify oldVal newVal entries

/-- `setVal`: whether it returns, and the calls on the way. -/
def setVal [DecidableEq T] (v : T) : Bool × ConfigVar T × List (Notification T) :=
  if var.val = v then (true, var, [])
  else
    let called := notify var.val v var.cbs.entries
    if called.all (·.returned) then (true, { var with val := v }, called)
    else (false, var, called)

/-- `fromStr`, where `parse` is the conversion and `none` its exception. -/
def fromStr [DecidableEq T] (parse : List UInt8 → Option T) (text : List UInt8) :
    Bool × ConfigVar T × List (Notification T) :=
  match parse text with
  | some v => var.setVal v
  | none => (false, var, [])

/-- The identifiers of the listeners. -/
def ids : List Nat := var.cbs.entries.map (·.1)

/-! ## What a call does -/

variable {var}

theorem notify_of_returns {oldVal newVal : T} {entries : List (Nat × OnChangeCb T)}
    (returns : ∀ entry ∈ entries, entry.2 oldVal newVal = false) :
    notify oldVal newVal entries = entries.map fun entry => ⟨entry.1, oldVal, newVal, true⟩ := by
  induction entries with
  | nil => rfl
  | cons entry entries induction =>
      rcases List.forall_mem_cons.mp returns with ⟨first, rest⟩
      rw [notify, if_neg (by simp [first]), induction rest, List.map_cons]

/-- A listener that throws is called, or one before it throws. -/
theorem not_all_notify {oldVal newVal : T} {entries : List (Nat × OnChangeCb T)}
    (throws : ¬∀ entry ∈ entries, entry.2 oldVal newVal = false) :
    (notify oldVal newVal entries).all (·.returned) = false := by
  induction entries with
  | nil => exact absurd (List.forall_mem_nil _) throws
  | cons entry entries induction =>
      rw [notify]
      split
      · rfl
      · rename_i first
        rw [List.all_cons, Bool.true_and]
        apply induction
        intro rest
        exact throws (List.forall_mem_cons.mpr ⟨by simpa using first, rest⟩)

theorem mem_notify {oldVal newVal : T} {notification : Notification T}
    {entries : List (Nat × OnChangeCb T)}
    (member : notification ∈ notify oldVal newVal entries) :
    notification.id ∈ entries.map (·.1) ∧ notification.newVal = newVal := by
  induction entries with
  | nil => cases member
  | cons entry entries induction =>
      rw [notify] at member
      split at member
      · rw [List.mem_singleton.mp member]
        exact ⟨List.mem_cons_self, rfl⟩
      · rcases List.mem_cons.mp member with here | later
        · rw [here]
          exact ⟨List.mem_cons_self, rfl⟩
        · exact ⟨List.mem_cons_of_mem _ (induction later).1, (induction later).2⟩

variable [DecidableEq T]

theorem setVal_same : var.setVal var.val = (true, var, []) :=
  if_pos rfl

theorem setVal_returns {v : T} (different : var.val ≠ v)
    (returns : ∀ entry ∈ var.cbs.entries, entry.2 var.val v = false) :
    var.setVal v = (true, { var with val := v },
      var.cbs.entries.map fun entry => ⟨entry.1, var.val, v, true⟩) := by
  rw [setVal, if_neg different, notify_of_returns returns]
  apply if_pos
  rw [List.all_map]
  exact List.all_eq_true.mpr fun entry member => rfl

theorem setVal_throws {v : T} (different : var.val ≠ v)
    (throws : ¬∀ entry ∈ var.cbs.entries, entry.2 var.val v = false) :
    var.setVal v = (false, var, notify var.val v var.cbs.entries) := by
  rw [setVal, if_neg different]
  exact if_neg (by simp [not_all_notify throws])

end ConfigVar

/-! ## Runs of calls -/

/-- What one call of `setVal` or `fromStr` did. -/
structure Call (T : Type u) where
  before : T
  after : T
  listeners : List Nat
  /-- The call is a `fromStr` that returned false. -/
  rejected : Bool
  called : List (Notification T)

inductive Operation (T : Type u)
  | addCb (cb : OnChangeCb T)
  | setVal (v : T)
  | fromStr (text : List UInt8)

section

variable {T : Type u} [DecidableEq T] (parse : List UInt8 → Option T)

def perform (state : ConfigVar T × List (Call T)) :
    Operation T → ConfigVar T × List (Call T)
  | .addCb cb => (state.1.addCb cb, state.2)
  | .setVal v =>
      let (_, var, called) := state.1.setVal v
      (var, state.2 ++ [⟨state.1.val, var.val, state.1.ids, false, called⟩])
  | .fromStr text =>
      let (returned, var, called) := state.1.fromStr parse text
      (var, state.2 ++ [⟨state.1.val, var.val, state.1.ids, !returned, called⟩])

/-- A variable with any listeners, before the calls. -/
def variableMachine : Machine (ConfigVar T × List (Call T)) (Operation T) where
  initial state := state.2 = []
  step state operation := some (perform parse state operation)

end

/-! ## Listeners in step -/

section

variable {T : Type u}

/-- The calls of listeners that count: all of them, or those that returned. -/
def counted (all : Bool) (called : List (Notification T)) : List (Notification T) :=
  called.filter fun notification => all || notification.returned

/-- The calls of one listener so far. -/
def received (all : Bool) (calls : List (Call T)) (id : Nat) : List (Notification T) :=
  (calls.flatMap fun call => counted all call.called).filter fun notification =>
    notification.id = id

structure InStep (all : Bool) (state : ConfigVar T × List (Call T)) : Prop where
  /-- A listener has last received the value. -/
  last : ∀ id, ∀ notification ∈ (received all state.2 id).getLast?,
    notification.newVal = state.1.val
  chain : ∀ id, (received all state.2 id).IsChain fun earlier later =>
    earlier.newVal = later.oldVal
  once : ∀ call ∈ state.2, call.before ≠ call.after → ∀ id ∈ call.listeners,
    (counted all call.called).filter (fun notification => notification.id = id) =
      [⟨id, call.before, call.after, true⟩]
  rejected : ∀ call ∈ state.2, call.rejected = true →
    call.after = call.before ∧ counted all call.called = []

/-- No listener throws for the value, or only before any call that counts. -/
def Accepted (all : Bool) (var : ConfigVar T) (v : T) : Prop :=
  v = var.val ∨ (∀ entry ∈ var.cbs.entries, entry.2 var.val v = false) ∨
    (all = false ∧ ∃ entry, var.cbs.entries.head? = some entry ∧ entry.2 var.val v = true)

def AcceptedOperation (parse : List UInt8 → Option T) (all : Bool)
    (state : ConfigVar T × List (Call T)) : Operation T → Prop
  | .addCb _ => True
  | .setVal v => Accepted all state.1 v
  | .fromStr text => ∀ v, parse text = some v → Accepted all state.1 v

/-- Only listeners have been called. -/
def Known (state : ConfigVar T × List (Call T)) : Prop :=
  ∀ call ∈ state.2, ∀ notification ∈ call.called, notification.id ∈ state.1.ids

/-! ## One more call -/

variable {all : Bool} {var : ConfigVar T} {calls : List (Call T)}

theorem received_append (call : Call T) (id : Nat) :
    received all (calls ++ [call]) id = received all calls id ++
      (counted all call.called).filter fun notification => notification.id = id := by
  rw [received, List.flatMap_append, List.filter_append, List.flatMap_singleton]
  rfl

theorem counted_map {oldVal newVal : T} (entries : List (Nat × OnChangeCb T)) :
    counted all (entries.map fun entry => (⟨entry.1, oldVal, newVal, true⟩ : Notification T)) =
      entries.map fun entry => ⟨entry.1, oldVal, newVal, true⟩ := by
  apply List.filter_eq_self.mpr
  rw [List.forall_mem_map]
  intro entry member
  exact Bool.or_true all

/-- Each of the calls is for another listener. -/
theorem filter_map_id {oldVal newVal : T} {id : Nat} {entries : List (Nat × OnChangeCb T)}
    (sorted : entries.Pairwise fun earlier later => earlier.1 < later.1) :
    (entries.map fun entry => (⟨entry.1, oldVal, newVal, true⟩ : Notification T)).filter
        (fun notification => notification.id = id) =
      if id ∈ entries.map (·.1) then [⟨id, oldVal, newVal, true⟩] else [] := by
  induction entries with
  | nil => rfl
  | cons entry entries induction =>
      rcases List.pairwise_cons.mp sorted with ⟨first, rest⟩
      rw [List.map_cons, List.map_cons, List.filter_cons, induction rest]
      by_cases here : entry.1 = id
      · have absent : id ∉ entries.map (·.1) := by
          intro member
          rcases List.mem_map.mp member with ⟨other, later, same⟩
          have below := first other later
          omega
        rw [if_neg absent, if_pos (by simpa using here), here, if_pos List.mem_cons_self]
      · have later : id ∈ entry.1 :: entries.map (·.1) ↔ id ∈ entries.map (·.1) :=
          List.mem_cons.trans (or_iff_right (Ne.symm here))
        rw [if_neg (by simpa using here)]
        exact (if_congr later rfl rfl).symm

theorem Known.registered (known : Known (var, calls)) {id : Nat}
    {notification : Notification T} (member : notification ∈ received all calls id) :
    id ∈ var.ids := by
  rcases List.mem_filter.mp member with ⟨inside, same⟩
  rcases List.mem_flatMap.mp inside with ⟨call, made, counts⟩
  have listener := known call made notification (List.mem_of_mem_filter counts)
  rw [of_decide_eq_true same] at listener
  exact listener

/-- A call that reaches no listener and changes nothing. -/
theorem inStep_quiet {call : Call T} (same : call.after = call.before)
    (quiet : counted all call.called = []) :
    InStep all (var, calls ++ [call]) ↔ InStep all (var, calls) := by
  have unchanged : ∀ id, received all (calls ++ [call]) id = received all calls id := by
    intro id
    rw [received_append, quiet]
    exact List.append_nil _
  constructor
  · intro holds
    constructor
    · intro id
      rw [← unchanged]
      exact holds.last id
    · intro id
      rw [← unchanged]
      exact holds.chain id
    · exact (List.forall_mem_append.mp holds.once).1
    · exact (List.forall_mem_append.mp holds.rejected).1
  · intro holds
    constructor
    · intro id
      rw [unchanged]
      exact holds.last id
    · intro id
      rw [unchanged]
      exact holds.chain id
    · apply List.forall_mem_append.mpr ⟨holds.once, ?_⟩
      intro other member changed
      rw [List.mem_singleton.mp member] at changed
      exact absurd same.symm changed
    · apply List.forall_mem_append.mpr ⟨holds.rejected, ?_⟩
      intro other member rejected
      rw [List.mem_singleton.mp member]
      exact ⟨same, quiet⟩

/-- A value that was passed to a listener but not assigned. -/
theorem not_inStep {call : Call T} {v : T} (different : var.val ≠ v)
    (passed : ∀ notification ∈ counted all call.called, notification.newVal = v)
    (called : counted all call.called ≠ []) : ¬InStep all (var, calls ++ [call]) := by
  intro holds
  rcases List.exists_mem_of_ne_nil _ called with ⟨notification, member⟩
  have chosen : notification ∈ (counted all call.called).filter fun other =>
      other.id = notification.id := List.mem_filter.mpr ⟨member, by simp⟩
  have last := holds.last notification.id
  rw [received_append] at last
  have nonempty := List.ne_nil_of_mem chosen
  rw [List.getLast?_append_of_ne_nil _ nonempty, List.getLast?_eq_some_getLast nonempty] at last
  have value := last _ rfl
  rw [passed _ (List.mem_of_mem_filter (List.getLast_mem nonempty))] at value
  exact different value.symm

/-- The call of every listener before the assignment. -/
theorem inStep_change {v : T} (known : Known (var, calls)) {call : Call T}
    (shape : call = ⟨var.val, v, var.ids, false,
      var.cbs.entries.map fun entry => ⟨entry.1, var.val, v, true⟩⟩) :
    InStep all ({ var with val := v }, calls ++ [call]) ↔ InStep all (var, calls) := by
  have extended : ∀ id, received all (calls ++ [call]) id = received all calls id ++
      if id ∈ var.ids then [⟨id, var.val, v, true⟩] else [] := by
    intro id
    rw [received_append, shape, counted_map, filter_map_id var.cbs.sorted]
    rfl
  have registered : ∀ id, ∀ notification ∈ received all calls id, id ∈ var.ids :=
    fun id notification member => known.registered member
  constructor
  · intro holds
    constructor
    · intro id notification member
      have listener := registered id notification (List.mem_of_getLast? member)
      have chain := holds.chain id
      rw [extended, if_pos listener, List.isChain_append] at chain
      exact chain.2.2 notification member _ rfl
    · intro id
      have chain := holds.chain id
      rw [extended] at chain
      exact chain.left_of_append
    · exact (List.forall_mem_append.mp holds.once).1
    · exact (List.forall_mem_append.mp holds.rejected).1
  · intro holds
    constructor
    · intro id notification member
      rw [extended] at member
      by_cases listener : id ∈ var.ids
      · rw [if_pos listener, List.getLast?_concat] at member
        cases member
        rfl
      · rw [if_neg listener, List.append_nil] at member
        exact absurd (registered id notification (List.mem_of_getLast? member)) listener
    · intro id
      rw [extended]
      by_cases listener : id ∈ var.ids
      · rw [if_pos listener]
        apply (holds.chain id).append (List.isChain_singleton _)
        intro notification member later first
        cases first
        exact holds.last id notification member
      · rw [if_neg listener, List.append_nil]
        exact holds.chain id
    · apply List.forall_mem_append.mpr ⟨holds.once, ?_⟩
      intro other member changed id listener
      rw [List.mem_singleton.mp member, shape] at listener ⊢
      rw [counted_map, filter_map_id var.cbs.sorted]
      exact if_pos listener
    · apply List.forall_mem_append.mpr ⟨holds.rejected, ?_⟩
      intro other member rejected
      rw [List.mem_singleton.mp member, shape] at rejected
      cases rejected

theorem Known.append (known : Known (var, calls)) {call : Call T} {next : ConfigVar T}
    (ids : next.ids = var.ids)
    (called : ∀ notification ∈ call.called, notification.id ∈ var.ids) :
    Known (next, calls ++ [call]) := by
  intro other member notification listed
  show notification.id ∈ next.ids
  rw [ids]
  rcases List.mem_append.mp member with old | new
  · exact known other old notification listed
  · rw [List.mem_singleton.mp new] at listed
    exact called notification listed

theorem known_addCb (known : Known (var, calls)) (cb : OnChangeCb T) :
    Known (var.addCb cb, calls) := by
  intro call member notification listed
  show notification.id ∈ (var.cbs.set (var.funcId + 1) cb).entries.map (·.1)
  rw [ConfigVar.entries_set_next, List.map_append]
  exact List.mem_append_left _ (known call member notification listed)

/-- A listener throws, but only the first one does so before any call that counts. -/
theorem counted_notify {v : T} (throws : ¬∀ entry ∈ var.cbs.entries, entry.2 var.val v = false) :
    counted all (ConfigVar.notify var.val v var.cbs.entries) = [] ↔
      all = false ∧ ∃ entry, var.cbs.entries.head? = some entry ∧ entry.2 var.val v = true := by
  cases entries : var.cbs.entries with
  | nil =>
      rw [entries] at throws
      exact absurd (List.forall_mem_nil _) throws
  | cons entry rest =>
      rw [ConfigVar.notify]
      cases thrown : entry.2 var.val v with
      | true => simp [counted, thrown]
      | false => simp [counted, thrown]

variable [DecidableEq T]

/-- One call of `setVal`, alone or in `fromStr`. -/
theorem inStep_setVal (known : Known (var, calls)) (v : T) {rejected : Bool}
    (refused : rejected = true → (var.setVal v).1 = false) {next : ConfigVar T × List (Call T)}
    (shape : next = ((var.setVal v).2.1, calls ++ [⟨var.val, (var.setVal v).2.1.val, var.ids,
      rejected, (var.setVal v).2.2⟩])) :
    Known next ∧ (InStep all next ↔ InStep all (var, calls) ∧ Accepted all var v) := by
  subst shape
  by_cases same : var.val = v
  · subst same
    rw [ConfigVar.setVal_same]
    constructor
    · exact known.append rfl (List.forall_mem_nil _)
    · rw [inStep_quiet rfl rfl]
      exact (and_iff_left (.inl rfl)).symm
  · by_cases returns : ∀ entry ∈ var.cbs.entries, entry.2 var.val v = false
    · rw [ConfigVar.setVal_returns same returns] at refused ⊢
      have accepted : rejected = false := Bool.eq_false_iff.mpr fun flag => by
        cases refused flag
      rw [accepted]
      constructor
      · apply known.append rfl
        rw [List.forall_mem_map]
        exact fun entry member => List.mem_map_of_mem member
      · rw [inStep_change known rfl]
        exact (and_iff_left (.inr (.inl returns))).symm
    · rw [ConfigVar.setVal_throws same returns]
      constructor
      · exact known.append rfl fun notification member => (ConfigVar.mem_notify member).1
      · by_cases quiet : counted all (ConfigVar.notify var.val v var.cbs.entries) = []
        · rw [inStep_quiet rfl quiet]
          exact (and_iff_left (.inr (.inr ((counted_notify returns).mp quiet)))).symm
        · have refusedValue : ¬Accepted all var v := by
            intro accepted
            rcases accepted with equal | allReturn | first
            · exact same equal.symm
            · exact returns allReturn
            · exact quiet ((counted_notify returns).mpr first)
          have passed : ∀ notification ∈
              counted all (ConfigVar.notify var.val v var.cbs.entries),
              notification.newVal = v := fun notification member =>
            (ConfigVar.mem_notify (List.mem_of_mem_filter member)).2
          apply iff_of_false (not_inStep same passed quiet)
          intro both
          exact refusedValue both.2

/-- What one operation keeps. -/
theorem variable_step {parse : List UInt8 → Option T} {state next : ConfigVar T × List (Call T)}
    {operation : Operation T} (known : Known state)
    (taken : (variableMachine parse).step state operation = some next) :
    Known next ∧
      (InStep all next ↔ InStep all state ∧ AcceptedOperation parse all state operation) := by
  cases taken
  cases operation with
  | addCb cb =>
      constructor
      · exact known_addCb known cb
      · constructor
        · intro holds
          exact ⟨⟨holds.last, holds.chain, holds.once, holds.rejected⟩, trivial⟩
        · intro both
          exact ⟨both.1.last, both.1.chain, both.1.once, both.1.rejected⟩
  | setVal v =>
      exact @inStep_setVal _ all state.1 state.2 _ known v false (fun flag => by cases flag) _ rfl
  | fromStr text =>
      rw [perform, ConfigVar.fromStr]
      cases parsed : parse text with
      | none =>
          constructor
          · exact Known.append known rfl (List.forall_mem_nil _)
          · rw [inStep_quiet rfl rfl]
            apply (and_iff_left _).symm
            intro v found
            rw [parsed] at found
            cases found
      | some v =>
          have step := @inStep_setVal _ all state.1 state.2 _ known v (!(state.1.setVal v).1)
            (by simp) _ rfl
          refine ⟨step.1, step.2.trans (and_congr_right' ?_)⟩
          constructor
          · intro accepted other found
            rw [parsed] at found
            cases found
            exact accepted
          · intro accepted
            exact accepted v parsed

/-- Listeners and value stay in step in exactly the runs in which every change is accepted. -/
theorem inStep_iff (parse : List UInt8 → Option T) (var : ConfigVar T)
    (operations : List (Operation T)) {final : ConfigVar T × List (Call T)}
    (executed : (variableMachine parse).run (var, []) operations = some final) (all : Bool) :
    InStep all final ↔
      (variableMachine parse).Meets (AcceptedOperation parse all) (var, []) operations := by
  have known : Known (var, []) := List.forall_mem_nil _
  have start : InStep all (var, []) := by
    constructor
    · intro id notification member
      cases member
    · intro id
      exact .nil
    · exact List.forall_mem_nil _
    · exact List.forall_mem_nil _
  rw [(Machine.meets_iff variable_step operations known executed).2]
  exact and_iff_right start

end

/-- A variable with a listener that returns and one that throws for 2. -/
def watched : ConfigVar Nat :=
  ((ConfigVar.make 0).addCb fun _ _ => false).addCb fun _ newVal => newVal = 2

theorem inStep_watched :
    ∃ final, (variableMachine fun _ => none).run (watched, []) [.setVal 1, .setVal 1] =
        some final ∧ InStep true final := by
  have executed : ∃ final, (variableMachine fun _ => none).run (watched, [])
      [.setVal 1, .setVal 1] = some final := ⟨_, rfl⟩
  rcases executed with ⟨final, executed⟩
  refine ⟨final, executed, (inStep_iff _ watched _ executed true).mpr ?_⟩
  constructor
  · apply Or.inr
    apply Or.inl
    decide
  · intro next taken
    cases taken
    constructor
    · exact .inl rfl
    · intro last taken
      trivial

/-- The first listener has received 2, but the value is still 0. -/
theorem not_inStep_watched :
    (¬∀ operations final, (variableMachine fun _ => none).run (watched, []) operations =
      some final → InStep true final) ∧
    ¬∀ operations final, (variableMachine fun _ => none).run (watched, []) operations =
      some final → InStep false final := by
  constructor
  · intro holds
    have last := (holds [.setVal 2] _ rfl).last 1 ⟨1, 0, 2, true⟩ (by decide)
    exact absurd last (by decide)
  · intro holds
    have last := (holds [.setVal 2] _ rfl).last 1 ⟨1, 0, 2, true⟩ (by decide)
    exact absurd last (by decide)

end Config

end FiberNet
