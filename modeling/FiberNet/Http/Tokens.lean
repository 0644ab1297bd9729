import FiberNet.Http.Grammar
import Mathlib.Data.List.Forall2

/-! # Tokens and cuts

A callback reads the bytes between a mark and its position. The marks are offsets into
the buffer of one read and are reset for the next one, so a callback sees what it
would see in one contiguous buffer exactly where no cut lies inside the token it reads.
-/

namespace FiberNet

namespace Http

/-- The marks that an action reads for a callback that matters. -/
inductive Reads
  | nothing
  | mark
  | field
  | query

/-- The marks together with the start that the length of the field was measured from. -/
structure Traced where
  marks : Marks
  lenStart : Nat

def Traced.after (traced : Traced) (position : Nat) (effect : MarkEffect) : Traced where
  marks := traced.marks.after position effect
  lenStart := if effect = .writeField then traced.marks.fieldStart else traced.lenStart

/-- The first byte that the callback depends on and the end of what it reads. -/
def Traced.token (traced : Traced) (position : Nat) : Reads → Option (Nat × Nat)
  | .nothing => none
  | .mark => some (traced.marks.mark, position)
  | .query => some (traced.marks.queryStart, position)
  | .field =>
      some (min position
          (min traced.marks.mark (min traced.marks.fieldStart traced.lenStart)),
        max position (traced.marks.fieldStart + traced.marks.fieldLen))

section

variable {Action : Type u} (effect : Action → MarkEffect) (reads : Action → Reads)

def tokens (traced : Traced) : List (Nat × Action) → List (Nat × Nat)
  | [] => []
  | (position, action) :: events =>
      (traced.token position (reads action)).toList ++
        tokens (traced.after position (effect action)) events

def tracedAfter (traced : Traced) : List (Nat × Action) → Traced
  | [] => traced
  | (position, action) :: events =>
      tracedAfter (traced.after position (effect action)) events

theorem tokens_append (later : List (Nat × Action)) :
    ∀ (events : List (Nat × Action)) (traced : Traced),
      tokens effect reads traced (events ++ later) =
        tokens effect reads traced events ++
          tokens effect reads (tracedAfter effect traced events) later
  | [], _ => rfl
  | (position, action) :: events, traced => by
      rw [List.cons_append, tokens, tokens, tracedAfter, tokens_append later events,
        List.append_assoc]

theorem tracedAfter_marks : ∀ (events : List (Nat × Action)) (traced : Traced),
    (tracedAfter effect traced events).marks = marksAfter effect traced.marks events
  | [], _ => rfl
  | (_, _) :: events, _ => tracedAfter_marks events _

end

theorem event_of_mem_occurrences {Action : Type u} (effect : Action → MarkEffect)
    {occurrence : Occurrence Action} :
    ∀ {events : List (Nat × Action)} {marks : Marks},
      occurrence ∈ occurrences effect marks events →
        (occurrence.position, occurrence.action) ∈ events
  | [], _, member => by cases member
  | (_, _) :: _, _, member => by
      rcases List.mem_cons.mp member with equal | member
      · subst equal
        exact List.mem_cons_self
      · exact List.mem_cons_of_mem _ (event_of_mem_occurrences effect member)

/-- All marks lie before an offset. -/
def Traced.Below (limit : Nat) (traced : Traced) : Prop :=
  traced.marks.mark < limit ∧ traced.marks.fieldStart < limit ∧ traced.lenStart < limit ∧
    traced.marks.queryStart < limit

theorem Traced.Below.after {limit position : Nat} {traced : Traced}
    (below : traced.Below limit) (before : position < limit) (effect : MarkEffect) :
    (traced.after position effect).Below limit := by
  rcases below with ⟨mark, fieldStart, lenStart, queryStart⟩
  cases effect with
  | none => exact ⟨mark, fieldStart, lenStart, queryStart⟩
  | mark => exact ⟨before, fieldStart, lenStart, queryStart⟩
  | startField => exact ⟨mark, before, lenStart, queryStart⟩
  | writeField => exact ⟨mark, fieldStart, fieldStart, queryStart⟩
  | startQuery => exact ⟨mark, fieldStart, lenStart, before⟩

theorem tracedAfter_below {Action : Type u} (effect : Action → MarkEffect) {limit : Nat} :
    ∀ {events : List (Nat × Action)} {traced : Traced}, traced.Below limit →
      (∀ event ∈ events, event.1 < limit) → (tracedAfter effect traced events).Below limit
  | [], _, below, _ => below
  | (position, action) :: events, traced, below, before => by
      rw [tracedAfter]
      apply tracedAfter_below effect
      · exact below.after (before (position, action) List.mem_cons_self) (effect action)
      · exact fun event member => before event (List.mem_cons_of_mem _ member)

/-- The marks of a buffer that starts at an offset of the whole follow the marks of the
whole: those set behind the offset are the same bytes. -/
structure Follows (offset : Nat) (whole : Traced) (marks : Marks) : Prop where
  mark : offset ≤ whole.marks.mark → whole.marks.mark = marks.mark + offset
  fieldStart : offset ≤ whole.marks.fieldStart →
    whole.marks.fieldStart = marks.fieldStart + offset
  fieldLen : offset ≤ whole.lenStart → whole.marks.fieldLen = marks.fieldLen
  queryStart : offset ≤ whole.marks.queryStart →
    whole.marks.queryStart = marks.queryStart + offset

theorem follows_of_below {offset : Nat} {whole : Traced} (below : whole.Below offset)
    (marks : Marks) : Follows offset whole marks where
  mark live := absurd below.1 (Nat.not_lt_of_le live)
  fieldStart live := absurd below.2.1 (Nat.not_lt_of_le live)
  fieldLen live := absurd below.2.2.1 (Nat.not_lt_of_le live)
  queryStart live := absurd below.2.2.2 (Nat.not_lt_of_le live)

theorem Follows.after {offset : Nat} {whole : Traced} {marks : Marks}
    (follows : Follows offset whole marks) (position : Nat) (effect : MarkEffect) :
    Follows offset (whole.after (position + offset) effect) (marks.after position effect) := by
  cases effect with
  | none => exact follows
  | mark => exact { follows with mark := fun _ => rfl }
  | startField => exact { follows with fieldStart := fun _ => rfl }
  | writeField =>
      refine { follows with fieldLen := fun live => ?_ }
      have start := follows.fieldStart live
      show position + offset - whole.marks.fieldStart = position - marks.fieldStart
      omega
  | startQuery => exact { follows with queryStart := fun _ => rfl }

/-- The marks that an action reads are the same bytes. -/
def Agrees (offset : Nat) (whole marks : Marks) : Reads → Prop
  | .nothing => True
  | .mark => whole.mark = marks.mark + offset
  | .query => whole.queryStart = marks.queryStart + offset
  | .field =>
      whole.mark = marks.mark + offset ∧ whole.fieldStart = marks.fieldStart + offset ∧
        whole.fieldLen = marks.fieldLen

theorem Follows.agrees {offset position : Nat} {whole : Traced} {marks : Marks}
    (follows : Follows offset whole marks) (reads : Reads)
    (kept : ∀ token ∈ whole.token position reads, offset ≤ token.1) :
    Agrees offset whole.marks marks reads := by
  cases reads with
  | nothing => trivial
  | mark => exact follows.mark (kept _ rfl)
  | query => exact follows.queryStart (kept _ rfl)
  | field =>
      have live : offset ≤ min position (min whole.marks.mark
          (min whole.marks.fieldStart whole.lenStart)) := kept _ rfl
      exact ⟨follows.mark (by omega), follows.fieldStart (by omega), follows.fieldLen (by omega)⟩

/-- One action in the whole and in the buffer. -/
structure Matches {Action : Type u} (reads : Action → Reads) (offset limit : Nat)
    (whole part : Occurrence Action) : Prop where
  action : whole.action = part.action
  position : whole.position = part.position + offset
  agrees : Agrees offset whole.marks part.marks (reads part.action)
  inside : reads part.action = .field → part.marks.fieldStart + part.marks.fieldLen < limit

/-- A cut behind the first byte of a token and not behind its end. -/
def Torn (token : Nat × Nat) (cut : Nat) : Prop :=
  token.1 < cut ∧ cut ≤ token.2

instance (token : Nat × Nat) (cut : Nat) : Decidable (Torn token cut) :=
  inferInstanceAs (Decidable (_ ∧ _))

def shifted {Action : Type u} (offset : Nat) (events : List (Nat × Action)) :
    List (Nat × Action) :=
  events.map fun event => (event.1 + offset, event.2)

theorem matches_of_whole {Action : Type u} {reads : Action → Reads}
    {offset limit position : Nat} {action : Action} {whole : Traced} {marks : Marks}
    (follows : Follows offset whole marks) (inside : position < limit)
    (kept : ∀ token ∈ whole.token (position + offset) (reads action),
      ¬ Torn token offset ∧ ¬ Torn token (limit + offset)) :
    Matches reads offset limit ⟨action, position + offset, whole.marks⟩
      ⟨action, position, marks⟩ := by
  have agrees : Agrees offset whole.marks marks (reads action) := by
    apply follows.agrees (reads action)
    intro token member
    have whole_token := (kept token member).1
    have behind : position + offset ≤ token.2 := by
      cases reading : reads action with
      | nothing => rw [reading] at member; cases member
      | mark => rw [reading] at member; cases member; exact Nat.le_refl _
      | query => rw [reading] at member; cases member; exact Nat.le_refl _
      | field => rw [reading] at member; cases member; exact Nat.le_max_left _ _
    unfold Torn at whole_token
    omega
  refine ⟨rfl, rfl, agrees, fun reading => ?_⟩
  rw [show reads action = Reads.field from reading] at kept agrees
  have untorn := (kept _ rfl).2
  unfold Torn at untorn
  rcases agrees with ⟨-, start, length⟩
  have first : min (position + offset) (min whole.marks.mark
      (min whole.marks.fieldStart whole.lenStart)) ≤ position + offset := Nat.min_le_left _ _
  have last : whole.marks.fieldStart + whole.marks.fieldLen ≤
      max (position + offset) (whole.marks.fieldStart + whole.marks.fieldLen) :=
    Nat.le_max_right _ _
  show marks.fieldStart + marks.fieldLen < limit
  omega

theorem occurrences_match {Action : Type u} (effect : Action → MarkEffect)
    (reads : Action → Reads) {offset limit : Nat} :
    ∀ {events : List (Nat × Action)} {whole : Traced} {marks : Marks},
      Follows offset whole marks → (∀ event ∈ events, event.1 < limit) →
      (∀ token ∈ tokens effect reads whole (shifted offset events),
        ¬ Torn token offset ∧ ¬ Torn token (limit + offset)) →
      List.Forall₂ (Matches reads offset limit)
        (occurrences effect whole.marks (shifted offset events))
        (occurrences effect marks events)
  | [], _, _, _, _, _ => .nil
  | (position, action) :: events, whole, marks, follows, inside, kept => by
      refine .cons (matches_of_whole follows (inside _ List.mem_cons_self) fun token member => ?_)
        (occurrences_match effect reads (follows.after position (effect action))
          (fun event member => inside event (List.mem_cons_of_mem _ member))
          fun token member => ?_)
      · exact kept token (List.mem_append_left _ (Option.mem_toList.mpr member))
      · exact kept token (List.mem_append_right _ member)

/-- A slice inside a part of the data. -/
theorem slice_part (before part behind : List UInt8) {first last : Nat}
    (inside : last ≤ part.length) :
    slice (before ++ part ++ behind) (first + before.length) (last + before.length) =
      slice part first last := by
  unfold slice
  rw [List.append_assoc, Nat.add_comm last, List.take_length_add_append,
    List.take_append_of_le_length inside, Nat.add_comm first, List.drop_length_add_append]

end Http

end FiberNet
