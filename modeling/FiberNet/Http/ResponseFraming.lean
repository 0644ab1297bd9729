import FiberNet.Http.Framing
import FiberNet.Http.HeaderSection
import FiberNet.Http.ResponseRoundTrip

/-! # Header sections cut into reads

Where no cut tears the version or a header line, the header loop of `recvResponse` ends with
the headers that one contiguous buffer gives. The status and the reason may be torn.
-/

namespace FiberNet

namespace Http

def ResponseAction.reads : ResponseAction → Reads
  | .httpVersion => .mark
  | .writeValue => .field
  | _ => .nothing

namespace HttpResponseParser

/-- A parser without the status and the reason, and without what the next `execute` for a
chunk sets anew. -/
def core (parser : HttpResponseParser) : HttpResponseParser :=
  { parser with
    cs := responseStart, contentLen := -1, chunksDone := false
    data := { parser.data with status := 200, reason := [] } }

theorem core_onResponseVersion (parser : HttpResponseParser) (value : List UInt8) :
    (parser.onResponseVersion value).core = parser.core.onResponseVersion value := by
  unfold onResponseVersion
  split
  · rfl
  · split <;> rfl

theorem core_onResponseHttpField (parser : HttpResponseParser) (field value : List UInt8) :
    (parser.onResponseHttpField field value).core =
      parser.core.onResponseHttpField field value := by
  unfold onResponseHttpField
  split <;> rfl

/-- Announcing chunks is the same for what is left of two parsers. -/
theorem core_chunked {parser own : HttpResponseParser} (same : own.core = parser.core) :
    HttpResponseParser.core { own with chunked := true } =
      HttpResponseParser.core { parser with chunked := true } :=
  congrArg (fun parser : HttpResponseParser => { parser with chunked := true }) same

section

variable {before part behind : List UInt8} {whole own : Occurrence ResponseAction}
  (matching : Matches ResponseAction.reads before.length part.length whole own)
  (inside : own.position ≤ part.length)

include matching inside

/-- An action on the buffer of one read does what it does on the whole. -/
theorem perform_core {parser ownParser : HttpResponseParser}
    (same : ownParser.core = parser.core) :
    (perform part ownParser own).core =
      (perform (before ++ part ++ behind) parser whole).core := by
  have action := matching.action
  have agrees := matching.agrees
  have room := matching.inside
  have position := matching.position
  rcases own with ⟨act, ownPosition, marks⟩
  dsimp only at action agrees room position inside
  unfold perform
  rw [action]
  cases act with
  | httpVersion =>
      have value : slice (before ++ part ++ behind) whole.marks.mark whole.position =
          slice part marks.mark ownPosition := by
        rw [show whole.marks.mark = marks.mark + before.length from agrees, position]
        exact slice_part before part behind inside
      dsimp only
      rw [core_onResponseVersion, core_onResponseVersion, same, value]
  | writeValue =>
      rcases agrees with ⟨mark, start, length⟩
      have value : slice (before ++ part ++ behind) whole.marks.mark whole.position =
          slice part marks.mark ownPosition := by
        rw [mark, position]
        exact slice_part before part behind inside
      have field : slice (before ++ part ++ behind) whole.marks.fieldStart
          (whole.marks.fieldStart + whole.marks.fieldLen) =
            slice part marks.fieldStart (marks.fieldStart + marks.fieldLen) := by
        rw [start, length, Nat.add_right_comm]
        exact slice_part before part behind (Nat.le_of_lt (room rfl))
      dsimp only
      rw [core_onResponseHttpField, core_onResponseHttpField, same, value, field]
  | transChunked => exact core_chunked same
  | chunkSize => exact core_chunked same
  | _ => exact same

end

theorem performs_core {before part behind : List UInt8}
    {whole owns : List (Occurrence ResponseAction)}
    (matching : List.Forall₂ (Matches ResponseAction.reads before.length part.length) whole owns)
    (inside : ∀ occurrence ∈ owns, occurrence.position ≤ part.length)
    {parser ownParser : HttpResponseParser} (same : ownParser.core = parser.core) :
    (owns.foldl (perform part) ownParser).core =
      (whole.foldl (perform (before ++ part ++ behind)) parser).core := by
  induction matching generalizing parser ownParser with
  | nil => exact same
  | cons matching rest induction =>
      exact induction (fun occurrence member => inside occurrence (List.mem_cons_of_mem _ member))
        (perform_core matching (inside _ List.mem_cons_self) same)

/-! ## Cuts -/

/-- The marks of the whole behind the bytes before a cut. -/
def tracedAt (before : List UInt8) : Traced :=
  tracedAfter ResponseAction.effect HttpRequestParser.noMarks
    (({} : HttpResponseParser).scan before).events

/-- The parser that has read the bytes of one contiguous buffer. -/
def readWhole (stream before : List UInt8) : HttpResponseParser :=
  (occurrences ResponseAction.effect marks (({} : HttpResponseParser).scan before).events).foldl
    (perform stream) {}

/-- The tokens of a stream that the callbacks read. -/
def headerTokens (stream : List UInt8) : List (Nat × Nat) :=
  tokens ResponseAction.effect ResponseAction.reads HttpRequestParser.noMarks
    (({} : HttpResponseParser).scan stream).events

/-- A parser at a cut. -/
structure At (stream before : List UInt8) (own : HttpResponseParser) : Prop where
  running : (({} : HttpResponseParser).scan before).running = true
  cs : own.cs = (({} : HttpResponseParser).scan before).state
  same : own.core = (readWhole stream before).core

theorem at_start (stream : List UInt8) : At stream [] {} where
  running := rfl
  cs := rfl
  same := rfl

section

variable {stream before part behind : List UInt8} {own : HttpResponseParser}

/-- The marks of each read begin anew. -/
theorem follows_at (before : List UInt8) : Follows before.length (tracedAt before) marks := by
  cases before with
  | nil => exact ⟨fun _ => rfl, fun _ => rfl, fun _ => rfl, fun _ => rfl⟩
  | cons byte bytes =>
      apply follows_of_below
      apply tracedAfter_below
      · exact HttpRequestParser.noMarks_below (Nat.succ_pos _)
      · intro event member
        have bounds := responseScanner.event_bounds responseStart 0 (byte :: bytes) event member
        have total := responseScanner.scan_position_le responseStart 0 (byte :: bytes)
        omega

/-- The scan of the whole goes on over the bytes behind a cut as the buffer is scanned. -/
theorem At.scan_append (cut : At stream before own) (part : List UInt8) :
    ({} : HttpResponseParser).scan (before ++ part) =
      ((own.scan part).shift before.length).after
        (({} : HttpResponseParser).scan before).events := by
  have shifting := responseScanner.scan_shift before.length own.cs 0 part
  have whole := Scanner.scan_append_of_running cut.running part
  rw [Nat.zero_add] at shifting whole
  show responseScanner.scan _ 0 (before ++ part) =
    ((responseScanner.scan own.cs 0 part).shift before.length).after _
  rw [← shifting, cut.cs]
  exact whole

/-- The scan of the whole begins with what has been read. -/
theorem events_prefix (stream behind : List UInt8) :
    ∃ later, (({} : HttpResponseParser).scan (stream ++ behind)).events =
      (({} : HttpResponseParser).scan stream).events ++ later := by
  cases running : (({} : HttpResponseParser).scan stream).running with
  | true =>
      have whole := Scanner.scan_append_of_running running behind
      exact ⟨_, congrArg Scan.events whole⟩
  | false =>
      have whole := Scanner.scan_append_of_ended running behind
      exact ⟨[], (congrArg Scan.events whole).trans (List.append_nil _).symm⟩

/-- One `execute` on the buffer of a read whose tokens are whole. -/
theorem At.run (cut : At stream before own) (split : stream = before ++ part ++ behind)
    (untorn : ∀ token ∈ headerTokens stream,
      ¬Torn token before.length ∧ ¬Torn token (part.length + before.length)) :
    (own.run part).1.cs = (({} : HttpResponseParser).scan (before ++ part)).state ∧
      (own.run part).1.core = (readWhole stream (before ++ part)).core := by
  have segment : (({} : HttpResponseParser).scan (before ++ part)).events =
      (({} : HttpResponseParser).scan before).events ++
        shifted before.length (own.scan part).events := by
    rw [cut.scan_append part]
    rfl
  have inside : ∀ event ∈ (own.scan part).events, event.1 < part.length := by
    intro event member
    have bounds := responseScanner.event_bounds own.cs 0 part event member
    have total := responseScanner.scan_position_le own.cs 0 part
    omega
  have kept : ∀ token ∈ tokens ResponseAction.effect ResponseAction.reads (tracedAt before)
      (shifted before.length (own.scan part).events),
        ¬Torn token before.length ∧ ¬Torn token (part.length + before.length) := by
    intro token member
    apply untorn
    rcases events_prefix (before ++ part) behind with ⟨later, events⟩
    rw [headerTokens, split, events, segment, tokens_append, tokens_append]
    exact List.mem_append_left _ (List.mem_append_right _ member)
  have matching := occurrences_match ResponseAction.effect ResponseAction.reads
    (follows_at before) inside kept
  constructor
  · rw [cut.scan_append part]
    rfl
  · have done := @performs_core before part behind _ _ matching
      (fun occurrence member =>
        Nat.le_of_lt (inside _ (event_of_mem_occurrences ResponseAction.effect member)))
      _ _ cut.same
    rw [tracedAt, tracedAfter_marks] at done
    rw [readWhole, segment, occurrences_append, List.foldl_append]
    rw [split] at done ⊢
    exact done

end

set_option maxRecDepth 4000 in
/-- Only `done` leads to the final state. -/
theorem responseRows_onward : ∀ row ∈ responseRows, ∀ edge ∈ row.2,
    edge.actions.any (fun action => decide (action = .done)) = false →
      edge.target ≠ responseError ∧ edge.target ≠ responseFirstFinal := by
  decide

theorem scan_inside {bytes : List UInt8}
    (running : (({} : HttpResponseParser).scan bytes).running = true) :
    (({} : HttpResponseParser).scan bytes).state ≠ responseError ∧
      (({} : HttpResponseParser).scan bytes).state ≠ responseFirstFinal :=
  @Scanner.state_of_running _ responseScanner
    (fun state => state ≠ responseError ∧ state ≠ responseFirstFinal) responseRows_onward
    responseStart 0 bytes (by decide) running

end HttpResponseParser

namespace HeaderSection.Parsed

open HttpResponseParser

variable {head : HeaderSection} {stream before behind : List UInt8} {state : Nat}
  {events : List (Nat × ResponseAction)} {parser : HttpResponseParser}
  (parsed : head.Parsed stream state events parser) (split : stream = before ++ behind)

include parsed

theorem readWhole_eq : readWhole stream stream = parser := by
  rw [← parsed.performed]
  exact congrArg (fun scan : Scan ResponseAction =>
    (occurrences ResponseAction.effect HttpResponseParser.marks scan.events).foldl
      (perform stream) {}) parsed.scan

include split

/-- The callbacks of a part of the header find no mistake. -/
theorem error_part : (readWhole stream before).error = .ok := by
  rcases events_prefix before behind with ⟨later, events⟩
  have whole := parsed.readWhole_eq
  rw [readWhole] at whole
  rw [← split] at events
  rw [events, occurrences_append, List.foldl_append] at whole
  by_contra failed
  have kept := @foldl_error stream (readWhole stream before)
    (occurrences ResponseAction.effect (marksAfter ResponseAction.effect HttpResponseParser.marks
      (({} : HttpResponseParser).scan before).events) later) failed
  rw [readWhole, whole] at kept
  exact kept parsed.error

/-- The scan of a part runs to its end exactly inside the section. -/
theorem scan_part :
    ((({} : HttpResponseParser).scan before).running = true ∧ before.length < head.bytes.length) ∨
    (({} : HttpResponseParser).scan before = ⟨state, head.bytes.length, events, false⟩ ∧
      head.bytes.length ≤ before.length) := by
  have scanned := parsed.scan
  cases running : (({} : HttpResponseParser).scan before).running with
  | true =>
      left
      refine ⟨rfl, ?_⟩
      have whole := Scanner.scan_append_of_running running behind
      rw [← split, Nat.zero_add] at whole
      rw [show responseScanner.scan (({} : HttpResponseParser)).cs 0 stream = _
        from scanned] at whole
      cases behind with
      | nil =>
          have ended := congrArg Scan.running whole
          cases ended
      | cons byte bytes =>
          have accepted := congrArg Scan.state whole
          have position := congrArg Scan.position whole
          rw [Scan.after_state] at accepted
          rw [Scan.after_position] at position
          dsimp only at accepted position
          rw [position]
          apply Scanner.lt_scan_position _ (List.cons_ne_nil _ _)
          rw [← accepted]
          exact parsed.accepted
  | false =>
      right
      have whole := Scanner.scan_append_of_ended running behind
      rw [← split] at whole
      have same : ({} : HttpResponseParser).scan before =
          ⟨state, head.bytes.length, events, false⟩ :=
        whole.symm.trans scanned
      refine ⟨same, ?_⟩
      have bound := responseScanner.scan_position_le responseStart 0 before
      rw [Nat.zero_add] at bound
      exact (congrArg Scan.position same).symm.le.trans bound

end HeaderSection.Parsed

namespace ResponseCall

open HttpResponseParser

variable {settings : Settings} {head : HeaderSection} {stream before part behind : List UInt8}
  {events : List (Nat × ResponseAction)} {parser own : HttpResponseParser}

/-- A read that cuts no token leads to the next one or ends the header section. -/
theorem parseHeader_cut (parsed : head.Parsed stream responseFirstFinal events parser)
    (positive : 0 < settings.responseHeaderSize) (small : settings.responseHeaderSize < 2 ^ 31)
    (cut : At stream before own) (split : stream = before ++ part ++ behind)
    (nonempty : part ≠ []) (fits : part.length ≤ settings.responseHeaderSize)
    (untorn : ∀ token ∈ headerTokens stream,
      ¬Torn token before.length ∧ ¬Torn token (part.length + before.length)) :
    (∃ next, parseHeader settings own part = .header next [] ∧ At stream (before ++ part) next) ∨
    ∃ next, parseHeader settings own part =
        afterHeader settings next ((before ++ part).drop head.bytes.length) ∧
      head.bytes.length ≤ (before ++ part).length ∧ next.core = parser.core := by
  rcases cut.run split untorn with ⟨state, same⟩
  have executed : own.execute part false = ((own.run part).1, ((own.scan part).position : Int)) :=
    congrArg (Prod.mk (own.run part).1) (execute_position own nonempty false)
  have error : (own.run part).1.error = .ok := by
    have errors := congrArg HttpResponseParser.error same
    exact errors.trans (parsed.error_part split)
  have position := congrArg Scan.position (cut.scan_append part)
  rw [Scan.after_position] at position
  change _ = (own.scan part).position + before.length at position
  rw [parseHeader_eq nonempty fits (Nat.lt_of_le_of_lt fits small) executed]
  rcases parsed.scan_part split with ⟨running, inside⟩ | ⟨ended, whole⟩
  · left
    rcases scan_inside running with ⟨accepted, unfinished⟩
    have all := Scanner.position_of_running running
    rw [show responseScanner.scan (({} : HttpResponseParser)).cs 0 (before ++ part) =
      ({} : HttpResponseParser).scan (before ++ part) from rfl, position, List.length_append] at all
    have dropped : part.drop (own.scan part).position = [] := by
      apply List.drop_eq_nil_of_le
      omega
    rw [if_neg (by simp [hasError, error, state, accepted]),
      if_neg (by simp [isFinished, state, accepted, unfinished]), dropped, awaitHeader,
      checked_of_inBounds (by simpa [Access.inBounds] using positive)]
    exact ⟨_, rfl, running, state, same⟩
  · right
    rw [ended] at state position
    have start : before.length < head.bytes.length := by
      rcases parsed.scan_part (split.trans (List.append_assoc _ _ _)) with early | late
      · exact early.2
      · have running := cut.running
        rw [late.1] at running
        cases running
    have dropped : part.drop (own.scan part).position =
        (before ++ part).drop head.bytes.length := by
      dsimp only at position
      rw [position, Nat.add_comm, List.drop_length_add_append]
    rw [if_neg (by simp [hasError, error, state, responseFirstFinal, responseError]),
      if_pos (by simp [isFinished, state, responseFirstFinal, responseError]), dropped]
    refine ⟨_, rfl, whole, ?_⟩
    rw [same]
    have ends : readWhole stream (before ++ part) = readWhole stream stream := by
      rw [readWhole, readWhole, ended]
      rw [show ({} : HttpResponseParser).scan stream = _ from parsed.scan]
    rw [ends, parsed.readWhole_eq]

end ResponseCall

end Http

end FiberNet
