import FiberNet.Foundation.Machine
import Mathlib.Algebra.Group.Int.Defs
import Mathlib.Algebra.Group.Nat.Defs
import Mathlib.Logic.Function.Basic

/-! # The tables indexed by descriptors

A descriptor is any number the kernel gives out. `Reactor::m_eventMap` is doubled once, under
a lock taken after the one under which its size was compared. `FdManager::_fds` is resized to
twice the descriptor, under one lock.
-/

namespace FiberNet

variable {Entry Info Thread : Type}

/-- `std::vector::resize` on a vector of pointers: the new ones are null. -/
def resize (table : List (Option Entry)) (size : Nat) : List (Option Entry) :=
  table.take size ++ List.replicate (size - table.length) none

theorem length_resize (table : List (Option Entry)) (size : Nat) :
    (resize table size).length = size := by
  simp only [resize, List.length_append, List.length_take, List.length_replicate]
  omega

theorem resize_of_le {table : List (Option Entry)} {size : Nat} (larger : table.length ≤ size) :
    resize table size = table ++ List.replicate (size - table.length) none := by
  rw [resize, List.take_of_length_le larger]

/-- An `FdEvent` of the table: which allocation it is, and the descriptor it is for. -/
structure EventEntry where
  allocation : Nat
  fd : Nat
  deriving DecidableEq, Repr

/-- Where a thread is in `Reactor::addEvent`, as far as the table is concerned. `epEv` is
`none` where `m_eventMap[fd]` is out of range or null. -/
inductive EventCall
  | idle
  /-- Between the two locks. -/
  | grow (fd : Nat)
  | found (fd : Nat) (epEv : Option EventEntry)
  deriving DecidableEq, Repr

structure EventMap (Thread : Type) where
  map : List (Option EventEntry)
  allocated : Nat
  call : Thread → EventCall

inductive EventMapAction (Thread : Type)
  | addEvent (thread : Thread) (fd : Nat)
  | grow (thread : Thread)
  deriving DecidableEq, Repr

namespace EventMap

/-- The loop of `resizeMap` from an index on: a null pointer gets a new `FdEvent`. -/
def fill : Nat → Nat → List (Option EventEntry) → List (Option EventEntry) × Nat
  | _, allocated, [] => ([], allocated)
  | index, allocated, some entry :: rest =>
      let (filled, after) := fill (index + 1) allocated rest
      (some entry :: filled, after)
  | index, allocated, none :: rest =>
      let (filled, after) := fill (index + 1) (allocated + 1) rest
      (some ⟨allocated, index⟩ :: filled, after)

/-- `size` is a `uint32_t`. -/
def resizeMap (eventMap : EventMap Thread) (size : Nat) : EventMap Thread :=
  let filled := fill 0 eventMap.allocated (resize eventMap.map (size % 2 ^ 32))
  { eventMap with map := filled.1, allocated := filled.2 }

def new (Thread : Type) : EventMap Thread :=
  resizeMap { map := [], allocated := 0, call := fun _ => .idle } 4096

/-- `m_eventMap[fd]`. -/
def entry (eventMap : EventMap Thread) (fd : Nat) : Option EventEntry :=
  eventMap.map[fd]?.join

variable [DecidableEq Thread]

def setCall (eventMap : EventMap Thread) (thread : Thread) (call : EventCall) :
    EventMap Thread :=
  { eventMap with call := Function.update eventMap.call thread call }

def step (eventMap : EventMap Thread) :
    EventMapAction Thread → Option (EventMap Thread)
  | .addEvent thread fd =>
      match eventMap.call thread with
      | .grow _ => none
      | _ =>
          if fd < eventMap.map.length then
            some (eventMap.setCall thread (.found fd (eventMap.entry fd)))
          else some (eventMap.setCall thread (.grow fd))
  | .grow thread =>
      match eventMap.call thread with
      | .grow fd =>
          let eventMap := eventMap.resizeMap (eventMap.map.length * 2)
          some (eventMap.setCall thread (.found fd (eventMap.entry fd)))
      | _ => none

def machine (Thread : Type) [DecidableEq Thread] :
    Machine (EventMap Thread) (EventMapAction Thread) where
  initial eventMap := eventMap = new Thread
  step := step

/-- The `FdEvent` that a call goes on with exists and is for its descriptor, and the earlier
ones are still there. -/
def Grown (eventMap : EventMap Thread) (action : EventMapAction Thread) : Prop :=
  ∀ next, eventMap.step action = some next →
    eventMap.map <+: next.map ∧
      ∀ thread fd epEv, action = .addEvent thread fd ∨ action = .grow thread →
        next.call thread = .found fd epEv →
        fd < next.map.length ∧ ∃ entry, epEv = some entry ∧ entry.fd = fd

/-- The table is doubled for a descriptor below twice its size, and the doubled size is a
`uint32_t`. -/
def Doubles (eventMap : EventMap Thread) : EventMapAction Thread → Prop
  | .addEvent _ _ => True
  | .grow thread =>
      ∀ fd, eventMap.call thread = .grow fd →
        fd < eventMap.map.length * 2 ∧ eventMap.map.length * 2 < 2 ^ 32

end EventMap

/-- `_fds`, of which only the null pointers matter here. -/
structure FdTable (Info : Type) where
  fds : List (Option Info)

inductive FdTableAction (Info : Type)
  /-- `info` is the `FdInfo` that the call makes when it is to create one. -/
  | lookUp (fd : Nat) (create : Bool) (info : Info)
  | del (fd : Nat)
  deriving DecidableEq, Repr

namespace FdTable

def new (Info : Type) : FdTable Info where
  fds := resize [] 4096

/-- The growth step of `lookUp`. `fd*2` is an `int`: above its range it is no size that
`resize` takes. -/
def grow (manager : FdTable Info) (fd : Nat) : Option (FdTable Info) :=
  if fd < manager.fds.length then some manager
  else if fd * 2 < 2 ^ 31 then some { fds := resize manager.fds (fd * 2) }
  else none

def lookUp (manager : FdTable Info) (fd : Nat) (create : Bool) (info : Info) :
    Option (FdTable Info × Option Info) :=
  if create = false then some (manager, manager.fds[fd]?.join)
  else
    match manager.grow fd with
    | none => none
    | some manager =>
        if fd < manager.fds.length then
          some ({ fds := manager.fds.set fd (some info) }, some info)
        else none

/-- `std::out_of_range` is thrown where there is no entry. -/
def del (manager : FdTable Info) (fd : Nat) : FdTable Info :=
  { fds := manager.fds.set fd none }

/-- A call that throws leaves the table. -/
def step (manager : FdTable Info) : FdTableAction Info → Option (FdTable Info)
  | .lookUp fd create info =>
      match manager.lookUp fd create info with
      | none => some manager
      | some (manager, _) => some manager
  | .del fd => some (manager.del fd)

def machine (Info : Type) : Machine (FdTable Info) (FdTableAction Info) where
  initial manager := manager = new Info
  step := step

/-- A call that is to create an entry finds a place for it. -/
def Grown (manager : FdTable Info) : FdTableAction Info → Prop
  | .lookUp fd true _ => ∃ grown, manager.grow fd = some grown ∧ fd < grown.fds.length
  | _ => True

/-- A descriptor outside the table is below 2^30. -/
def Doubles (manager : FdTable Info) : FdTableAction Info → Prop
  | .lookUp fd true _ => fd < manager.fds.length ∨ fd < 2 ^ 30
  | _ => True

end FdTable

/-! ## The event table -/

namespace EventMap

theorem length_fill (index allocated : Nat) (table : List (Option EventEntry)) :
    (fill index allocated table).1.length = table.length := by
  induction table generalizing index allocated with
  | nil => rfl
  | cons entry rest induction =>
      cases entry <;> simp only [fill, List.length_cons, induction]

theorem fill_append {table : List (Option EventEntry)} (full : ∀ entry ∈ table, entry ≠ none)
    (index allocated : Nat) (rest : List (Option EventEntry)) :
    (fill index allocated (table ++ rest)).1 =
      table ++ (fill (index + table.length) allocated rest).1 := by
  induction table generalizing index with
  | nil => rfl
  | cons entry table induction =>
      have shift : index + 1 + table.length = index + (entry :: table).length := by
        rw [List.length_cons]
        omega
      cases entry with
      | none => exact absurd rfl (full none (List.mem_cons_self ..))
      | some entry =>
          have filled := induction (fun entry member => full entry (.tail _ member)) (index + 1)
          rw [shift] at filled
          simp only [List.cons_append, fill, filled]

theorem fill_replicate (index allocated count : Nat) {place : Nat} (inside : place < count) :
    ∃ entry, (fill index allocated (List.replicate count none)).1[place]? =
      some (some entry) ∧ entry.fd = index + place := by
  induction count generalizing index allocated place with
  | zero => omega
  | succ count induction =>
      rw [List.replicate_succ, fill]
      cases place with
      | zero => exact ⟨_, rfl, rfl⟩
      | succ place =>
          rcases induction (index + 1) (allocated + 1) (Nat.lt_of_succ_lt_succ inside) with
            ⟨entry, found, same⟩
          exact ⟨entry, found, by omega⟩

/-- Every place of the table has its `FdEvent`. -/
structure Sound (eventMap : EventMap Thread) : Prop where
  entries : ∀ fd < eventMap.map.length, ∃ entry, eventMap.map[fd]? = some (some entry) ∧
    entry.fd = fd
  size : eventMap.map.length < 2 ^ 32

theorem Sound.full {eventMap : EventMap Thread} (sound : eventMap.Sound) :
    ∀ entry ∈ eventMap.map, entry ≠ none := by
  intro entry member
  rcases List.mem_iff_getElem?.mp member with ⟨fd, found⟩
  rcases sound.entries fd (List.getElem?_eq_some_iff.mp found).1 with ⟨_, known, _⟩
  rw [found] at known
  rw [Option.some.inj known]
  exact Option.some_ne_none _

theorem length_resizeMap (eventMap : EventMap Thread) (size : Nat) :
    (eventMap.resizeMap size).map.length = size % 2 ^ 32 := by
  show (fill 0 eventMap.allocated (resize eventMap.map (size % 2 ^ 32))).1.length = _
  rw [length_fill, length_resize]

/-- A table that grows keeps what it has. -/
theorem Sound.resizeMap {eventMap : EventMap Thread} (sound : eventMap.Sound) {size : Nat}
    (larger : eventMap.map.length ≤ size % 2 ^ 32) :
    eventMap.map <+: (eventMap.resizeMap size).map ∧ (eventMap.resizeMap size).Sound := by
  have whole : (eventMap.resizeMap size).map =
      eventMap.map ++ (fill eventMap.map.length eventMap.allocated
        (List.replicate (size % 2 ^ 32 - eventMap.map.length) none)).1 := by
    show (fill 0 eventMap.allocated (resize eventMap.map (size % 2 ^ 32))).1 = _
    rw [resize_of_le larger, fill_append sound.full, Nat.zero_add]
  refine ⟨⟨_, whole.symm⟩, ?_, ?_⟩
  · intro fd inside
    rw [length_resizeMap] at inside
    rw [whole]
    rcases Nat.lt_or_ge fd eventMap.map.length with old | new
    · rw [List.getElem?_append_left old]
      exact sound.entries fd old
    · rw [List.getElem?_append_right new]
      have place : fd - eventMap.map.length < size % 2 ^ 32 - eventMap.map.length := by omega
      rcases fill_replicate eventMap.map.length eventMap.allocated _ place with
        ⟨entry, found, same⟩
      exact ⟨entry, found, by omega⟩
  · rw [length_resizeMap]
    exact Nat.mod_lt _ (by omega)

theorem sound_new : (new Thread).Sound := by
  have empty : Sound { map := [], allocated := 0, call := fun _ : Thread => .idle } :=
    ⟨by simp, by simp⟩
  exact (empty.resizeMap (Nat.zero_le _)).2

theorem Sound.entry {eventMap : EventMap Thread} (sound : eventMap.Sound) {fd : Nat}
    (inside : fd < eventMap.map.length) :
    ∃ entry, eventMap.entry fd = some entry ∧ entry.fd = fd := by
  rcases sound.entries fd inside with ⟨entry, found, same⟩
  refine ⟨entry, ?_, same⟩
  rw [EventMap.entry, found]
  rfl

variable [DecidableEq Thread] {eventMap : EventMap Thread}

theorem step_addEvent {thread : Thread} {fd : Nat} (idle : eventMap.call thread = .idle)
    (outside : eventMap.map.length ≤ fd) :
    eventMap.step (.addEvent thread fd) = some (eventMap.setCall thread (.grow fd)) := by
  simp only [step, idle]
  rw [if_neg (Nat.not_lt.mpr outside)]

theorem grown_addEvent (sound : eventMap.Sound) (thread : Thread) (fd : Nat) :
    eventMap.Grown (.addEvent thread fd) := by
  intro next taken
  simp only [step] at taken
  split at taken
  · cases taken
  · split at taken
    · rename_i inside
      cases taken
      refine ⟨List.prefix_refl _, ?_⟩
      rintro caller own epEv (same | same) found
      · cases same
        simp only [setCall, Function.update_self, EventCall.found.injEq] at found
        rcases found with ⟨_, rfl⟩
        exact ⟨inside, sound.entry inside⟩
      · cases same
    · cases taken
      refine ⟨List.prefix_refl _, ?_⟩
      rintro caller own epEv (same | same) found
      · cases same
        simp [setCall] at found
      · cases same

/-- The growth step finds its entry exactly when doubling the table once is enough. -/
theorem grown_iff (sound : eventMap.Sound) (action : EventMapAction Thread) :
    eventMap.Grown action ↔ eventMap.Doubles action := by
  cases action with
  | addEvent thread fd => exact iff_of_true (grown_addEvent sound thread fd) trivial
  | grow thread =>
      have length := length_resizeMap eventMap (eventMap.map.length * 2)
      have small := sound.size
      constructor
      · intro grown fd call
        rcases grown _ (by rw [step, call]) with ⟨⟨more, kept⟩, entries⟩
        have place := (entries thread fd _ (.inr rfl) (Function.update_self ..)).1
        have longer := congrArg List.length kept
        simp only [setCall, List.length_append, length] at place longer
        omega
      · intro doubles next taken
        simp only [step] at taken
        split at taken
        · rename_i fd call
          cases taken
          rcases doubles fd call with ⟨enough, fits⟩
          rw [Nat.mod_eq_of_lt fits] at length
          have larger : eventMap.map.length ≤ eventMap.map.length * 2 % 2 ^ 32 := by
            rw [Nat.mod_eq_of_lt fits]
            omega
          rcases sound.resizeMap larger with ⟨kept, grown⟩
          refine ⟨kept, ?_⟩
          rintro caller own epEv (same | same) found
          · cases same
          · cases same
            simp only [setCall, Function.update_self, EventCall.found.injEq] at found
            rcases found with ⟨rfl, rfl⟩
            have inside : fd < (eventMap.resizeMap (eventMap.map.length * 2)).map.length := by
              rw [length]
              exact enough
            exact ⟨inside, grown.entry inside⟩
        · cases taken

/-- A jump in the descriptors past twice the size finds no entry. -/
theorem not_grown_of_jump (sound : eventMap.Sound) {thread : Thread} {fd : Nat}
    (idle : eventMap.call thread = .idle) (jump : eventMap.map.length * 2 ≤ fd) :
    ¬ (machine Thread).Meets Grown eventMap [.addEvent thread fd, .grow thread] := by
  rintro ⟨_, later⟩
  have compared := step_addEvent idle (show eventMap.map.length ≤ fd by omega)
  have grown := (later _ compared).1
  have kept : (eventMap.setCall thread (.grow fd)).Sound := ⟨sound.entries, sound.size⟩
  have enough := ((grown_iff kept _).mp grown fd (Function.update_self ..)).1
  exact absurd enough (Nat.not_lt.mpr jump)

theorem Sound.step (sound : eventMap.Sound) {action : EventMapAction Thread}
    {next : EventMap Thread} (doubles : eventMap.Doubles action)
    (taken : eventMap.step action = some next) : next.Sound := by
  cases action with
  | addEvent thread fd =>
      simp only [EventMap.step] at taken
      split at taken
      · cases taken
      · split at taken <;> cases taken <;> exact ⟨sound.entries, sound.size⟩
  | grow thread =>
      simp only [EventMap.step] at taken
      split at taken
      · rename_i fd call
        cases taken
        rcases doubles fd call with ⟨_, fits⟩
        have larger : eventMap.map.length ≤ eventMap.map.length * 2 % 2 ^ 32 := by
          rw [Nat.mod_eq_of_lt fits]
          omega
        have grown := (sound.resizeMap larger).2
        exact ⟨grown.entries, grown.size⟩
      · cases taken

end EventMap

/-! ## The table of descriptor infos -/

namespace FdTable

variable {manager : FdTable Info}

theorem grown_iff (large : 4096 ≤ manager.fds.length) (action : FdTableAction Info) :
    manager.Grown action ↔ manager.Doubles action := by
  cases action with
  | del fd => exact Iff.rfl
  | lookUp fd create info =>
      cases create with
      | false => exact Iff.rfl
      | true =>
          simp only [Grown, Doubles, grow]
          split
          · rename_i inside
            exact iff_of_true ⟨_, rfl, inside⟩ (.inl inside)
          · rename_i outside
            split
            · rename_i fits
              refine iff_of_true ⟨_, rfl, ?_⟩ (.inr (by omega))
              simp only [length_resize]
              omega
            · simp only [reduceCtorEq, false_and, exists_false, false_iff, not_or]
              omega

theorem large_grow (large : 4096 ≤ manager.fds.length) {fd : Nat} {grown : FdTable Info}
    (grows : manager.grow fd = some grown) : 4096 ≤ grown.fds.length := by
  unfold grow at grows
  split at grows
  · cases grows
    exact large
  · split at grows <;> cases grows
    rw [length_resize]
    omega

theorem large_step (large : 4096 ≤ manager.fds.length) {action : FdTableAction Info}
    {next : FdTable Info} (taken : manager.step action = some next) :
    4096 ≤ next.fds.length := by
  cases action with
  | del fd =>
      cases taken
      simpa [del] using large
  | lookUp fd create info =>
      simp only [step, lookUp] at taken
      cases create with
      | false =>
          cases taken
          exact large
      | true =>
          cases grows : manager.grow fd with
          | none =>
              simp only [grows, Bool.true_eq_false, if_false] at taken
              cases taken
              exact large
          | some grown =>
              have grown_large := large_grow large grows
              simp only [grows, Bool.true_eq_false, if_false] at taken
              split at taken
              · cases taken
                exact large
              · rename_i found
                split at found <;> cases found
                cases taken
                rwa [List.length_set]

end FdTable

/-- In exactly the runs in which one doubling reaches the descriptor, `addEvent` goes on with
the entry for it, and in exactly those in which twice the descriptor is an `int`, `lookUp` has
a place for it. -/
theorem tables_grow_iff (Info Thread : Type) [DecidableEq Thread] :
    (∀ actions : List (EventMapAction Thread),
      (EventMap.machine Thread).Meets EventMap.Grown (.new Thread) actions ↔
        (EventMap.machine Thread).Meets EventMap.Doubles (.new Thread) actions) ∧
    ∀ actions : List (FdTableAction Info),
      (FdTable.machine Info).Meets FdTable.Grown (.new Info) actions ↔
        (FdTable.machine Info).Meets FdTable.Doubles (.new Info) actions := by
  constructor
  · intro actions
    exact Machine.meets_congr (fun sound => EventMap.grown_iff sound _)
      (fun sound doubles taken => sound.step doubles taken) actions EventMap.sound_new
  · intro actions
    refine @Machine.meets_congr _ _ (FdTable.machine Info) _ _
      (fun manager => 4096 ≤ manager.fds.length) (fun large => FdTable.grown_iff large _)
      (fun large _ taken => FdTable.large_step large taken) _ actions ?_
    exact Nat.le_of_eq (length_resize [] 4096).symm

/-- The first descriptor is 8192. -/
theorem not_tables_grow :
    ¬ ∀ actions : List (EventMapAction Nat),
      (EventMap.machine Nat).Meets EventMap.Grown (.new Nat) actions := by
  intro holds
  have length : (EventMap.new Nat).map.length = 4096 := EventMap.length_resizeMap _ _
  have idle : (EventMap.new Nat).call 0 = .idle := rfl
  have jump : (EventMap.new Nat).map.length * 2 ≤ 8192 := by omega
  exact EventMap.not_grown_of_jump EventMap.sound_new idle jump (holds _)

end FiberNet
