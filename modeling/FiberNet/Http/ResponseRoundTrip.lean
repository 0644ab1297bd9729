import FiberNet.Http.ResponsePieces
import FiberNet.Http.Tokens

/-! # A response that is printed and received

`HttpResponse::dump` misspells the header that tells the length of a body, so that the parser
finds no length. The rest is what the grammar reads, but for reasons with line ends and for
headers that announce chunks.
-/

namespace FiberNet

namespace Http

namespace HttpResponseParser

/-! ## Reasons that the parser can report -/

variable {data before bytes : List UInt8} {state : Nat} {marks : Marks}
  {parser : HttpResponseParser}

/-- The bytes since the mark are a reason so far. -/
structure Spoken (data : List UInt8) (mark position : Nat) : Prop where
  marked : mark ≤ position
  nonempty : slice data mark position ≠ []
  plain : PlainReason (slice data mark position)

theorem rows_reason : ∀ row ∈ responseRows, ∀ edge ∈ row.2,
    (.reasonPhrase ∈ edge.actions → row.1 = 19 ∧ edge.actions = [.reasonPhrase]) ∧
    (edge.target = 19 → (row.1 = 18 ∧ edge.actions = [.mark]) ∨
      (row.1 = 19 ∧ edge.actions = [])) := by
  decide

theorem move_break : responseScanner.move 18 10 = none ∧
    (responseScanner.move 19 10).map (·.2) = some 20 ∧
    (responseScanner.move 19 13).map (·.2) = some 24 := by
  decide

/-- A reason does not go on at the end of a line. -/
theorem not_break {byte : UInt8} {edge : Edge ResponseAction}
    (taken : responseScanner.edge state byte = some edge) (speaks : edge.target = 19) :
    (state = 18 → byte ≠ 10) ∧ (state = 19 → byte ≠ 10 ∧ byte ≠ 13) := by
  have moved := Scanner.move_of_edge taken
  have leads : (responseScanner.move state byte).map (·.2) = some 19 := by
    rw [moved, Option.map_some, speaks]
  refine ⟨?_, fun again => ⟨?_, ?_⟩⟩
  · intro first same
    rw [first, same, move_break.1] at leads
    cases leads
  · intro same
    rw [again, same, move_break.2.1] at leads
    cases leads
  · intro same
    rw [again, same, move_break.2.2] at leads
    cases leads

theorem slice_succ {byte : UInt8} {mark : Nat} (split : data = before ++ byte :: bytes)
    (marked : mark ≤ before.length) :
    slice data mark (before.length + 1) = slice data mark before.length ++ [byte] := by
  have longer : data.take (before.length + 1) = before ++ [byte] := by
    rw [split, List.append_cons, List.take_left' (by simp)]
  have shorter : data.take before.length = before := by
    rw [split, List.take_left]
  rw [slice, slice, longer, shorter, List.drop_append_of_le_length marked]

/-- What an edge does to a reason that is being read. -/
theorem spoken_edge {byte : UInt8} {edge : Edge ResponseAction}
    (split : data = before ++ byte :: bytes)
    (spoken : state = 19 → Spoken data marks.mark before.length)
    (taken : responseScanner.edge state byte = some edge) (speaks : edge.target = 19) :
    Spoken data (marksAfter ResponseAction.effect marks
      (edge.actions.map fun action => (before.length, action))).mark (before.length + 1) := by
  rcases Scanner.edge_row taken with ⟨edges, listed, member⟩
  have move := not_break taken speaks
  rcases (rows_reason _ listed edge member).2 speaks with ⟨first, actions⟩ | ⟨again, actions⟩
  · rw [actions]
    have here : state = 18 := first
    have feed := move.1 here
    have alone : slice data before.length (before.length + 1) = [byte] := by
      rw [slice_succ split (Nat.le_refl _), slice, split, List.take_left, List.drop_length]
      rfl
    constructor
    · exact Nat.le_succ _
    · show slice data before.length (before.length + 1) ≠ []
      rw [alone]
      exact List.cons_ne_nil byte []
    · show PlainReason (slice data before.length (before.length + 1))
      rw [alone]
      constructor
      · intro inside
        exact feed (List.mem_singleton.mp inside).symm
      · exact List.not_mem_nil
  · rw [actions]
    have here : state = 19 := again
    have so_far := spoken here
    have other := move.2 here
    have longer := slice_succ split so_far.marked
    constructor
    · exact Nat.le_succ_of_le so_far.marked
    · show slice data marks.mark (before.length + 1) ≠ []
      rw [longer]
      exact List.append_ne_nil_of_left_ne_nil so_far.nonempty [byte]
    · show PlainReason (slice data marks.mark (before.length + 1))
      rw [longer]
      constructor
      · intro inside
        rcases List.mem_append.mp inside with earlier | last
        · exact so_far.plain.feeds earlier
        · exact other.1 (List.mem_singleton.mp last).symm
      · rw [List.tail_append_of_ne_nil so_far.nonempty]
        intro inside
        rcases List.mem_append.mp inside with earlier | last
        · exact so_far.plain.returns earlier
        · exact other.2 (List.mem_singleton.mp last).symm

/-- Only one action sets the reason. -/
theorem perform_reason {occurrence : Occurrence ResponseAction}
    (other : occurrence.action ≠ .reasonPhrase) :
    (perform data parser occurrence).data.reason = parser.data.reason := by
  unfold perform
  cases action : occurrence.action with
  | reasonPhrase => exact absurd action other
  | httpVersion =>
      dsimp only
      unfold onResponseVersion
      split
      · rfl
      · split
        · rfl
        · rfl
  | writeValue =>
      dsimp only
      unfold onResponseHttpField
      split
      · rfl
      · rfl
  | _ => rfl

theorem foldl_reason {events : List (Nat × ResponseAction)}
    (other : ∀ event ∈ events, event.2 ≠ .reasonPhrase) :
    ((occurrences ResponseAction.effect marks events).foldl (perform data)
      parser).data.reason = parser.data.reason := by
  induction events generalizing marks parser with
  | nil => rfl
  | cons event events induction =>
      rw [occurrences, List.foldl_cons,
        induction fun later member => other later (List.mem_cons_of_mem _ member)]
      exact perform_reason (other event List.mem_cons_self)

/-- The actions of one edge keep the reason plain. -/
theorem plainReason_edge {byte : UInt8} {edge : Edge ResponseAction}
    (spoken : state = 19 → Spoken data marks.mark before.length)
    (taken : responseScanner.edge state byte = some edge)
    (plain : PlainReason parser.data.reason) :
    PlainReason ((occurrences ResponseAction.effect marks
      (edge.actions.map fun action => (before.length, action))).foldl (perform data)
        parser).data.reason := by
  rcases Scanner.edge_row taken with ⟨edges, listed, member⟩
  by_cases speaks : .reasonPhrase ∈ edge.actions
  · rcases (rows_reason _ listed edge member).1 speaks with ⟨here, actions⟩
    rw [actions]
    exact (spoken here).plain
  · rw [foldl_reason]
    · exact plain
    · intro event inside
      rcases List.mem_map.mp inside with ⟨action, performed, same⟩
      rw [← same]
      intro reason
      have named : action = .reasonPhrase := reason
      rw [named] at performed
      exact speaks performed

/-- The induction over the buffer. -/
theorem plainReason_scan (split : data = before ++ bytes)
    (spoken : state = 19 → Spoken data marks.mark before.length)
    (plain : PlainReason parser.data.reason) :
    PlainReason ((occurrences ResponseAction.effect marks
      (responseScanner.scan state before.length bytes).events).foldl (perform data)
        parser).data.reason := by
  induction bytes generalizing before state marks parser with
  | nil => exact plain
  | cons byte bytes induction =>
      rcases Scanner.scan_cons_cases responseScanner state before.length byte bytes with
        ⟨rejected, scanned⟩ | ⟨edge, taken, ⟨stopped, scanned⟩ | ⟨onward, scanned⟩⟩
      · rw [scanned]
        exact plain
      · rw [scanned]
        exact plainReason_edge spoken taken plain
      · rw [scanned, Scan.after_events, occurrences_append, List.foldl_append]
        have next := @induction (before ++ [byte]) edge.target
          (marksAfter ResponseAction.effect marks
            (edge.actions.map fun action => (before.length, action))) _
          (by rw [split, List.append_cons])
          (fun speaks => by
            rw [List.length_append]
            exact spoken_edge split spoken taken speaks)
          (plainReason_edge spoken taken plain)
        rwa [List.length_append] at next

theorem plainReason_run (starts : parser.cs = responseStart)
    (plain : PlainReason parser.data.reason) :
    PlainReason (parser.run data).1.data.reason := by
  have scanned := @plainReason_scan data [] data parser.cs HttpResponseParser.marks parser rfl
    (fun speaks => by
      rw [starts] at speaks
      exact absurd speaks (by decide)) plain
  exact scanned

/-! ## Versions that are refused -/

/-- No action takes an error back. -/
theorem perform_error {occurrence : Occurrence ResponseAction} (failed : parser.error ≠ .ok) :
    (perform data parser occurrence).error ≠ .ok := by
  unfold perform
  cases occurrence.action with
  | httpVersion =>
      dsimp only
      unfold onResponseVersion
      split
      · exact failed
      · split
        · exact failed
        · exact HttpError.noConfusion
  | writeValue =>
      dsimp only
      unfold onResponseHttpField
      split
      · exact failed
      · exact failed
  | _ => exact failed

theorem foldl_error {done : List (Occurrence ResponseAction)} (failed : parser.error ≠ .ok) :
    (done.foldl (perform data) parser).error ≠ .ok := by
  induction done generalizing parser with
  | nil => exact failed
  | cons occurrence done induction => exact induction (perform_error failed)

/-- A version that the callback does not know. -/
theorem run_unknown {version : UInt8} (unknown : version ∉ [(10 : UInt8), 11])
    (split : data = versionLead version ++ text " " ++ bytes) :
    (({} : HttpResponseParser).run data).1.hasError = true := by
  rcases consumed_version version split with ⟨_, earlier, walks, performed, _⟩
  have scanned := walks.scan_append bytes
  rw [← split] at scanned
  have first := Option.some.inj ((foldlM_perform _ _ _).symm.trans performed)
  rw [onResponseVersion_unknown _ unknown] at first
  have kept : (({} : HttpResponseParser).run data).1.error ≠ .ok := by
    show ((occurrences ResponseAction.effect _
      (responseScanner.scan responseStart 0 data).events).foldl (perform data) {}).error ≠ .ok
    have whole : (responseScanner.scan responseStart 0 data).events =
        earlier ++ _ := congrArg Scan.events scanned
    rw [whole, occurrences_append, List.foldl_append]
    apply foldl_error
    show ((occurrences (responseRun data).effect (responseRun data).marks earlier).foldl
      (perform data) (responseRun data).parser).error ≠ .ok
    rw [first]
    exact HttpError.noConfusion
  rw [hasError, Bool.or_eq_true, decide_eq_true_iff]
  exact .inl kept

end HttpResponseParser

namespace ResponseCall

variable {settings : Settings} {received : HttpResponse}

theorem checked_returned {accesses : List Access} {next : ResponseCall}
    (returned : checked settings accesses next = .finished (.returned received)) :
    next = .finished (.returned received) := by
  rw [checked] at returned
  split at returned
  · exact returned
  · cases returned

/-- Chunks are shorter than their code, and what is read on the way has a plain reason. -/
theorem chunkLoop_returned {fuel : Nat} {parser : HttpResponseParser} {body buffer : List UInt8}
    (plain : HttpResponseParser.PlainReason parser.data.reason)
    (returned : chunkLoop settings fuel parser body buffer = .finished (.returned received)) :
    received.body.length < body.length + buffer.length ∧
      HttpResponseParser.PlainReason received.reason := by
  induction fuel generalizing parser body buffer with
  | zero => cases returned
  | succ fuel induction =>
      unfold chunkLoop at returned
      split at returned
      · have waits := checked_returned returned
        cases waits
      · rename_i some
        have nonempty : buffer ≠ [] := fun equal => some (equal ▸ rfl)
        have bounds := parser.execute_bounds nonempty true
        have progress := parser.execute_progress nonempty true
        have spoken : HttpResponseParser.PlainReason
            (parser.execute buffer true).1.data.reason :=
          @HttpResponseParser.plainReason_run buffer parser.init rfl plain
        revert returned bounds progress spoken
        generalize parser.execute buffer true = executed
        rcases executed with ⟨performed, nparser⟩
        intro returned bounds progress spoken
        dsimp only at returned bounds progress spoken
        have inside := checked_returned returned
        split at inside
        · cases inside
        · rename_i accepted
          have forward := progress (by simpa using accepted)
          have shorter : (buffer.drop nparser.toNat).length < buffer.length := by
            rw [List.length_drop]
            omega
          generalize buffer.drop nparser.toNat = data at inside shorter
          split at inside
          · cases inside
          · split at inside
            · have later := induction spoken inside
              exact ⟨by omega, later.2⟩
            · split at inside
              · have whole := checked_returned inside
                have taken : (data.take performed.contentLen.toNat).length ≤ data.length :=
                  List.length_take_le' _ _
                split at whole
                · cases whole
                  refine ⟨?_, spoken⟩
                  show (body ++ data.take performed.contentLen.toNat).length < _
                  rw [List.length_append]
                  omega
                · have later := induction spoken whole
                  rw [List.length_append, List.length_drop, List.length_take] at later
                  exact ⟨by omega, later.2⟩
              · have short := checked_returned inside
                split at short
                · have waits := checked_returned short
                  cases waits
                · have last := checked_returned short
                  split at last
                  · cases last
                    refine ⟨?_, spoken⟩
                    show ((body ++ data).take ((body ++ data).length - 2)).length < _
                    rw [List.length_take, List.length_append]
                    omega
                  · have later := induction spoken last
                    rw [List.length_take, List.length_append, List.length_nil] at later
                    exact ⟨by omega, later.2⟩

end ResponseCall

/-! ## What is sent -/

/-- The responses of the round trip. -/
structure HttpResponse.Sendable (response : HttpResponse) : Prop where
  status : ∃ entry ∈ statusMap, response.status = entry.1
  headers : ∀ entry ∈ response.headers.entries, PlainHeader entry.1 entry.2
  connection : ∀ entry ∈ response.headers.entries, folded entry.1 ≠ folded (text "connection")
  length : ∀ entry ∈ response.headers.entries,
    folded entry.1 ≠ folded (text "content-length")
  cookies : response.cookies = []

namespace HttpResponse

/-- The value of the connection header that `dump` adds. -/
def connectionValue (response : HttpResponse) : List UInt8 :=
  text (if response.close then "close" else "keep-alive")

/-- The headers that `dump` writes, without the length. -/
def sentHeaders (response : HttpResponse) : MapType :=
  if response.webSocket then response.headers
  else response.headers.set (text "connection") response.connectionValue

/-- The status line and the header lines. -/
def headerSection (response : HttpResponse) : List UInt8 :=
  response.startLine ++
    (response.headers.entries.map fun entry => headerLine entry.1 entry.2).flatten ++
    (if response.webSocket then [] else headerLine (text "connection") response.connectionValue)

theorem dump_eq {response : HttpResponse} (sendable : response.Sendable) :
    response.dump = response.headerSection ++
      (if response.body.isEmpty then text "\r\n"
      else headerLine (text "content-lentgh") (decimal response.body.length) ++ text "\r\n" ++
        response.body) := by
  rw [dump, headerSection, headerLines_eq sendable.connection, sendable.cookies, List.map_nil,
    List.flatten_nil, List.append_nil]
  congr 1
  split
  · rfl
  · simp only [headerLine, List.append_assoc]
    rfl

end HttpResponse

theorem folded_token {name : List UInt8} (letters : ∀ byte ∈ name, within token byte = true) :
    folded name = name.map toLower := by
  have whole : ∀ byte ∈ name, decide (byte ≠ 0) = true := by
    intro byte member
    have inside := letters byte member
    rw [decide_eq_true_iff]
    intro zero
    rw [zero] at inside
    exact absurd inside (by decide)
  have taken := @List.takeWhile_append_of_pos _ (fun byte => decide (byte ≠ 0)) name [] whole
  rw [List.append_nil, List.takeWhile_nil, List.append_nil] at taken
  rw [folded, taken]

namespace HttpResponseParser

section

variable {data before behind : List UInt8} {state : Nat} {marks : Marks}
  {parser : HttpResponseParser} {response : HttpResponse}

/-- The state behind the connection line. -/
def behindConnection (close : Bool) : Nat := if close then 43 else 20

theorem connection_codes :
    text "connection" = [99, 111, 110, 110, 101, 99, 116, 105, 111, 110] ∧
    text "close" = [99, 108, 111, 115, 101] ∧
    text "keep-alive" = [107, 101, 101, 112, 45, 97, 108, 105, 118, 101] ∧
    text ": " = [58, 32] ∧ text "\r\n" = [13, 10] := by
  decide

theorem walks_connection : ∀ state ∈ [20, 62], ∀ close ∈ [true, false],
    responseScanner.Walks state 0
      (headerLine (text "connection") (text (if close then "close" else "keep-alive")))
      (behindConnection close)
      ((if state = 62 then [(0, .startValue), (0, .startField)] else [(0, .startField)]) ++
        [(10, .writeField), (11, .startValue), (12, .startValue),
          (12 + (text (if close then "close" else "keep-alive")).length, .writeValue)]) := by
  simp only [headerLine, apply_ite text, connection_codes]
  decide

theorem consumed_connection (begins : state ∈ [20, 62]) (response : HttpResponse)
    (consumed : (responseRun data).Consumed before state marks parser)
    (split : data = before ++ headerLine (text "connection") response.connectionValue ++ behind) :
    ∃ marks, (responseRun data).Consumed
      (before ++ headerLine (text "connection") response.connectionValue)
      (behindConnection response.close) marks
      { parser with
        data := parser.data.setHeader (text "connection") response.connectionValue } := by
  have listed : response.close ∈ [true, false] := by
    cases response.close <;> decide
  have walks := Scanner.walks_at (walks_connection state begins response.close listed)
    before.length
  have whole : data = before ++ text "connection" ++ text ": " ++ response.connectionValue ++
      (text "\r\n" ++ behind) := by
    rw [split, headerLine]
    simp only [List.append_assoc]
  have place : 12 + response.connectionValue.length + before.length =
      (before ++ text "connection" ++ text ": " ++ response.connectionValue).length := by
    simp only [List.length_append]
    have ten : (text "connection").length = 10 := by decide
    have two : (text ": ").length = 2 := by decide
    omega
  have stored {last : Marks} := @performed_value data before (text "\r\n" ++ behind) parser
    (text "connection") response.connectionValue (by decide) whole last
  rw [← place] at stored
  have mark : 12 + before.length = (before ++ text "connection" ++ text ": ").length := by
    simp only [List.length_append]
    have ten : (text "connection").length = 10 := by decide
    have two : (text ": ").length = 2 := by decide
    omega
  have long : 10 + before.length - (0 + before.length) = (text "connection").length := by
    have ten : (text "connection").length = 10 := by decide
    omega
  rcases List.mem_pair.mp begins with same | same
  · subst same
    exact ⟨_, consumed.append walks (congrArg some (stored (Nat.zero_add _) long mark))⟩
  · subst same
    exact ⟨_, consumed.append walks (congrArg some (stored (Nat.zero_add _) long mark))⟩

/-- What the parser makes of a response before it knows of the body. -/
def parsed (response : HttpResponse) : HttpResponseParser where
  chunked := response.headers.entries.any fun entry => announces entry.1 entry.2
  data := { version := response.version, status := response.status,
            reason := sentReason response, headers := response.sentHeaders }

/-- The state behind the header lines. -/
def behindHeaders (response : HttpResponse) : Nat :=
  if response.webSocket then behindLines 20 response.headers.entries
  else behindConnection response.close

theorem behindLines_cases (entries : List (List UInt8 × List UInt8)) :
    behindLines 20 entries ∈ [20, 62] := by
  have cases : ∀ (state : Nat), state ∈ [20, 62] → behindLines state entries ∈ [20, 62] := by
    induction entries with
    | nil => exact fun state begins => begins
    | cons entry entries induction =>
        intro state begins
        have line : behindLine entry.1 entry.2 ∈ [20, 62] := by
          rw [behindLine]
          split
          · decide
          · decide
        exact induction _ line
  exact cases 20 (by decide)

theorem text_eq_nil (literal : String) : text literal = [] ↔ literal = "" := by
  rw [text, List.map_eq_nil_iff, String.toList_eq_nil_iff]

theorem statusMap_named : ∀ entry ∈ statusMap, entry.2 ≠ [] := by
  simp only [statusMap, List.forall_mem_cons, text_eq_nil, ne_eq, String.reduceEq,
    not_false_eq_true, List.not_mem_nil, false_implies, implies_true, and_true]

theorem sentReason_ne_nil (response : HttpResponse) : sentReason response ≠ [] := by
  rw [sentReason]
  split
  · rw [httpStatusToString]
    cases found : statusMap.lookup response.status with
    | none => decide
    | some reason =>
        rcases List.lookup_eq_some_iff.mp found with ⟨before, behind, listed, _⟩
        have named := statusMap_named (response.status, reason) (by rw [listed]; simp)
        exact named
  · rename_i some
    intro none
    exact some (none ▸ rfl)

theorem consumed_headerSection (sendable : response.Sendable)
    (known : response.version ∈ [(10 : UInt8), 11]) (plain : PlainReason (sentReason response))
    (split : data = response.headerSection ++ behind) :
    ∃ marks, (responseRun data).Consumed response.headerSection (behindHeaders response) marks
      (parsed response) := by
  rcases sendable.status with ⟨entry, listed, status⟩
  have names : ∀ entry ∈ response.headers.entries, folded entry.1 = entry.1.map toLower :=
    fun entry member => folded_token (sendable.headers entry member).letters
  have start := @consumed_startLine data
    ((response.headers.entries.map fun entry => headerLine entry.1 entry.2).flatten ++
      ((if response.webSocket then []
        else headerLine (text "connection") response.connectionValue) ++ behind)) response known
    entry listed status (sentReason_ne_nil response) plain
    (by rw [split, HttpResponse.headerSection]; simp only [List.append_assoc])
  rcases start with ⟨_, start⟩
  have lines := @consumed_entries data response.startLine
    ((if response.webSocket then []
      else headerLine (text "connection") response.connectionValue) ++ behind) 20 _ _
    response.headers.entries sendable.headers
    (fun entry member => names entry member ▸ sendable.connection entry member)
    (fun entry member => names entry member ▸ sendable.length entry member) (by decide) start
    (by rw [split, HttpResponse.headerSection]; simp only [List.append_assoc])
  rcases lines with ⟨_, lines⟩
  rw [foldl_withHeader, OrderedMap.foldl_set_empty, Bool.false_or] at lines
  unfold parsed behindHeaders
  unfold HttpResponse.headerSection HttpResponse.sentHeaders at *
  cases webSocket : response.webSocket with
  | true =>
      rw [if_pos rfl, if_pos rfl, if_pos rfl, List.append_nil]
      exact ⟨_, lines⟩
  | false =>
      rw [webSocket] at split
      exact consumed_connection (behindLines_cases _) response lines split

theorem move_end : ∀ state ∈ lineStates,
    ∃ actions ∈ [[], [.connectionClose]], ∃ next,
      responseScanner.move state 13 = some (actions, next) ∧
      responseScanner.move next 10 = some ([.done], if state = 62 then 121 else 120) := by
  intro state begins
  simp only [lineStates, List.mem_cons, List.not_mem_nil, or_false] at begins
  rcases begins with same | same | same
  · subst same
    exact ⟨[], by decide, 3, by decide, by decide⟩
  · subst same
    exact ⟨[.connectionClose], by decide, 3, by decide, by decide⟩
  · subst same
    exact ⟨[], by decide, 72, by decide, by decide⟩

/-- The empty line ends the header section. -/
theorem run_complete (consumed : (responseRun data).Consumed before state marks parser)
    (begins : state ∈ lineStates) (split : data = before ++ text "\r\n" ++ behind) :
    ({} : HttpResponseParser).run data =
      ({ parser with cs := if state = 62 then 121 else 120 }, ((before.length + 2 : Nat) : Int)) := by
  rcases move_end state begins with ⟨actions, listed, next, first, last⟩
  have ended : ∃ marks, (responseRun data).Consumed (before ++ [13]) next marks parser := by
    rcases List.mem_pair.mp listed with same | same
    · subst same
      exact ⟨_, consumed.append (Scanner.walks_byte first rfl _) rfl⟩
    · subst same
      exact ⟨_, consumed.append (Scanner.walks_byte first rfl _) rfl⟩
  rcases ended with ⟨_, ended⟩
  rcases ended.stop last rfl rfl behind with ⟨events, scanned, performed, -⟩
  have whole : before ++ [13] ++ 10 :: behind = data := by
    rw [split]
    simp only [List.append_assoc]
    rfl
  rw [whole] at scanned
  have folded : (occurrences ResponseAction.effect HttpResponseParser.marks events).foldl
      (perform data) {} = parser := by
    exact Option.some.inj ((foldlM_perform _ _ _).symm.trans performed)
  have nonempty : data.isEmpty = false := by
    rw [← whole]
    simp
  have scan : ({} : HttpResponseParser).scan data =
      ⟨if state = 62 then 121 else 120, (before ++ [13]).length + 1, events, false⟩ := scanned
  rw [run, scan]
  simp only [folded, nonempty, Bool.false_eq_true, if_false]
  rw [List.length_append]
  rfl

/-! ## The two forms of a printed response -/

theorem plain_length (response : HttpResponse) :
    PlainHeader (text "content-lentgh") (decimal response.body.length) := by
  have digits : ∀ byte ∈ decimal response.body.length, 48 ≤ byte.toNat ∧ byte.toNat ≤ 57 :=
    fun byte member => isDigit_ten (isDigit_of_mem_numeral (by decide) (by decide) member)
  constructor
  · decide
  · exact List.all_eq_true.mp (by decide)
  · intro byte member
    have range := digits byte member
    simp [within]
    omega
  · intro blank
    have range := digits 32 (List.mem_of_mem_head? blank)
    exact absurd range.1 (by decide)

theorem behindHeaders_mem (response : HttpResponse) : behindHeaders response ∈ lineStates := by
  rw [behindHeaders]
  split
  · exact behindLines_mem (by decide)
  · rw [behindConnection]
    split
    · decide
    · decide

/-- Without a body nothing is left behind the empty line. -/
theorem execute_empty (sendable : response.Sendable)
    (known : response.version ∈ [(10 : UInt8), 11]) (plain : PlainReason (sentReason response))
    (empty : response.body = []) :
    ({} : HttpResponseParser).execute response.dump false =
      ({ parsed response with cs := if behindHeaders response = 62 then 121 else 120 },
        (response.dump.length : Int)) := by
  have split : response.dump = response.headerSection ++ text "\r\n" := by
    rw [HttpResponse.dump_eq sendable, empty]
    rfl
  rcases consumed_headerSection sendable known plain split with ⟨_, lines⟩
  have ran := @run_complete _ _ [] _ _ _ lines (behindHeaders_mem response)
    (split.trans (List.append_nil _).symm)
  rw [execute, if_neg Bool.false_ne_true, ran, split, List.length_append]
  rfl

/-- A body is left behind the empty line, and the line of its length is a header. -/
theorem execute_body (sendable : response.Sendable)
    (known : response.version ∈ [(10 : UInt8), 11]) (plain : PlainReason (sentReason response))
    (some : response.body ≠ []) :
    ∃ nparser : Nat, ({} : HttpResponseParser).execute response.dump false =
        ({ parsed response with
            cs := 120
            data := (parsed response).data.setHeader (text "content-lentgh")
              (decimal response.body.length) }, (nparser : Int)) ∧
      response.dump.drop nparser = response.body := by
  have split : response.dump = response.headerSection ++
      headerLine (text "content-lentgh") (decimal response.body.length) ++
      (text "\r\n" ++ response.body) := by
    rw [HttpResponse.dump_eq sendable, List.isEmpty_eq_false_iff.mpr some,
      if_neg Bool.false_ne_true]
    simp only [List.append_assoc]
  rcases consumed_headerSection sendable known plain (split.trans (List.append_assoc _ _ _))
    with ⟨_, lines⟩
  rcases consumed_headerLine (plain_length response) (behindHeaders_mem response) (by decide)
    (by decide) lines split with ⟨_, line⟩
  have other : announces (text "content-lentgh") (decimal response.body.length) = false := by
    rw [announces, Bool.and_eq_false_iff]
    exact .inl (by decide)
  have behind : behindLine (text "content-lentgh") (decimal response.body.length) = 20 :=
    if_neg fun both => absurd both.1 (by decide)
  have ran := run_complete line (behindLine_mem _ _) (split.trans (List.append_assoc _ _ _).symm)
  rw [behind, withHeader_plain other] at ran
  have two : (text "\r\n").length = 2 := by decide
  refine ⟨_, ran, ?_⟩
  rw [split, ← List.append_assoc, ← two, ← List.length_append, List.drop_left]

end

end HttpResponseParser

/-! ## One read -/

section

variable {settings : Settings} {response received : HttpResponse} {data : List UInt8}

theorem ResponseCall.start_eq (positive : 0 < settings.responseHeaderSize) :
    ResponseCall.start settings = .header {} [] := by
  rw [ResponseCall.start, ResponseCall.awaitHeader, ResponseCall.checked_of_inBounds]
  simpa [Access.inBounds] using positive

/-- One read of all the bytes, and what `recvResponse` makes of it. -/
theorem runUntil_response (nonempty : data ≠ [])
    (fits : data.length ≤ settings.responseHeaderSize) :
    (recvResponse settings).runUntil ResponseCall.outcome (ResponseCall.start settings)
        [.bytes data] = some (.returned received, []) ↔
      ResponseCall.parseHeader settings {} data = .finished (.returned received) := by
  have positive := List.length_pos_of_ne_nil nonempty
  have counted : ¬(Read.bytes data).count ≤ 0 := by
    simp only [Read.count]
    omega
  have step : (recvResponse settings).step (.header {} []) (.bytes data) =
      some (ResponseCall.parseHeader settings {} data) := by
    have taken : (recvResponse settings).step (.header {} []) (.bytes data) =
        some (ResponseCall.onHeader settings {} [] (.bytes data)) := if_pos fits
    rw [taken, ResponseCall.onHeader, if_neg counted]
    rfl
  rw [ResponseCall.start_eq (Nat.lt_of_lt_of_le positive fits),
    Machine.runUntil_step rfl step, Machine.runUntil]
  cases ResponseCall.parseHeader settings {} data with
  | finished outcome => simp [ResponseCall.outcome]
  | header parser remain => simp [ResponseCall.outcome]
  | chunkLine parser body buffer => simp [ResponseCall.outcome]
  | chunkData parser body left nread received => simp [ResponseCall.outcome]
  | fixedBody parser body asked left => simp [ResponseCall.outcome]

/-- What happens behind an `execute` of the header loop. -/
theorem ResponseCall.parseHeader_eq {own parser : HttpResponseParser} {nparser : Nat}
    (nonempty : data ≠ []) (fits : data.length ≤ settings.responseHeaderSize)
    (small : data.length < 2 ^ 31)
    (executed : own.execute data false = (parser, (nparser : Int))) :
    ResponseCall.parseHeader settings own data =
      if parser.hasError then .finished (.null true)
      else if parser.isFinished ≠ 0 then
        ResponseCall.afterHeader settings parser (data.drop nparser)
      else ResponseCall.awaitHeader settings parser (data.drop nparser) := by
  have bounds := own.execute_bounds nonempty false
  have progress := own.execute_progress nonempty false
  rw [executed] at bounds progress
  have exact := @toInt32_of_lt data.length (Int.natCast_nonneg _) (by omega)
  rw [ResponseCall.parseHeader, executed]
  dsimp only at bounds progress ⊢
  rw [exact, ResponseCall.checked_of_inBounds (by simp [Access.inBounds]; omega)]
  split
  · rfl
  · rename_i accepted
    have forward := progress (by simpa using accepted)
    have room : (data.drop nparser).length < settings.responseHeaderSize := by
      rw [List.length_drop]
      omega
    rw [Int.toNat_natCast, ResponseCall.checked_of_inBounds (by
      simp [Access.inBounds]
      rw [List.length_drop] at room
      omega), if_neg room.ne]

/-- What is behind the first `execute` of a response that is returned. -/
theorem ResponseCall.parseHeader_returned {parser : HttpResponseParser} {nparser : Int}
    (executed : ({} : HttpResponseParser).execute data false = (parser, nparser))
    (returned : ResponseCall.parseHeader settings {} data = .finished (.returned received)) :
    parser.hasError = false ∧ parser.isFinished ≠ 0 ∧
      ResponseCall.afterHeader settings parser (data.drop nparser.toNat) =
        .finished (.returned received) := by
  rw [ResponseCall.parseHeader, executed] at returned
  have moved := ResponseCall.checked_returned returned
  split at moved
  · cases moved
  · rename_i accepted
    have stored := ResponseCall.checked_returned moved
    split at stored
    · cases stored
    · split at stored
      · rename_i finished
        exact ⟨by simpa using accepted, finished, stored⟩
      · have waits := ResponseCall.checked_returned stored
        cases waits

section

variable {parser : HttpResponseParser} {remain : List UInt8}

theorem ResponseCall.afterHeader_chunked
    (returned : ResponseCall.afterHeader settings parser remain = .finished (.returned received))
    (chunked : parser.chunked = true)
    (plain : HttpResponseParser.PlainReason parser.data.reason) :
    received.body.length < remain.length ∧ HttpResponseParser.PlainReason received.reason := by
  rw [ResponseCall.afterHeader, if_pos chunked] at returned
  have decoded := @ResponseCall.chunkLoop_returned settings received _
    { parser with data := parser.data.delHeader (text "Transfer-Encoding") } [] remain plain
    returned
  rwa [List.length_nil, Nat.zero_add] at decoded

/-- Without chunks the headers are returned as they are. -/
theorem ResponseCall.afterHeader_plain
    (returned : ResponseCall.afterHeader settings parser remain = .finished (.returned received))
    (whole : parser.chunked = false) : received.reason = parser.data.reason := by
  rw [ResponseCall.afterHeader, whole, if_neg Bool.false_ne_true] at returned
  generalize toInt64 (parser.getContentLength settings.lexicalCast).toNat = length at returned
  dsimp only at returned
  generalize (if (remain.length : Int) ≤ length then remain else remain.take length.toNat) =
    taken at returned
  split at returned
  · split at returned
    · have waits := ResponseCall.checked_returned returned
      cases waits
    · have finished := ResponseCall.checked_returned returned
      cases finished
      rfl
  · cases returned
    rfl

theorem ResponseCall.afterHeader_reason
    (returned : ResponseCall.afterHeader settings parser remain = .finished (.returned received))
    (plain : HttpResponseParser.PlainReason parser.data.reason) :
    HttpResponseParser.PlainReason received.reason := by
  cases chunked : parser.chunked with
  | true => exact (ResponseCall.afterHeader_chunked returned chunked plain).2
  | false => exact ResponseCall.afterHeader_plain returned chunked ▸ plain

/-- Without a length header there is no body. -/
theorem ResponseCall.afterHeader_absent (whole : parser.chunked = false)
    (absent : parser.data.headers.find (text "content-length") = none) :
    ResponseCall.afterHeader settings parser remain = ResponseCall.finish parser [] := by
  have named : folded (text "Content-Length") = folded (text "content-length") := by decide
  have zero : parser.getContentLength settings.lexicalCast = 0 := by
    rw [HttpResponseParser.getContentLength, getAs, OrderedMap.find_congr named, absent]
    rfl
  have length := toInt64_le 0
  rw [ResponseCall.afterHeader, whole, if_neg Bool.false_ne_true, zero]
  exact if_neg (Int.not_lt.mpr length)

end

/-! ## The round trip -/

namespace HttpResponse

/-- What a received response has of the response that was sent. The connection and the length
header may have been added. -/
structure GivenBack (response received : HttpResponse) : Prop where
  status : received.status = response.status
  version : received.version = response.version
  reason : received.reason = HttpResponseParser.sentReason response
  body : received.body = response.body
  headers : (received.headers.erase (text "connection")).erase (text "content-length") =
    response.headers

/-- A response that is sent and received in one read is given back. -/
def RoundTrips (settings : Settings) (response : HttpResponse) : Prop :=
  ∃ received, (recvResponse settings).runUntil ResponseCall.outcome (ResponseCall.start settings)
      [.bytes response.dump] = some (.returned received, []) ∧
    response.GivenBack received

/-- The last line is an encoding without a value, behind which the automaton still looks for
the word. -/
def OpenEncoding (response : HttpResponse) : Prop :=
  response.webSocket = true ∧ ∃ entry, response.headers.entries.getLast? = some entry ∧
    entry.1.map toLower = encodingName ∧ entry.2 = []

theorem dump_ne_nil (response : HttpResponse) : response.dump ≠ [] := by
  intro empty
  have length := congrArg List.length empty
  unfold dump startLine at length
  simp [text] at length

theorem dump_version (sendable : response.Sendable) : ∃ behind,
    response.dump = HttpResponseParser.versionLead response.version ++ text " " ++ behind := by
  rw [dump_eq sendable, headerSection, HttpResponseParser.startLine_eq]
  simp only [List.append_assoc]
  exact ⟨_, rfl⟩

theorem find_sentHeaders (sendable : response.Sendable) :
    response.sentHeaders.find (text "content-length") = none := by
  unfold sentHeaders
  split
  · exact OrderedMap.find_of_absent sendable.length
  · rw [OrderedMap.find_set_other _ _ (by decide)]
    exact OrderedMap.find_of_absent sendable.length

theorem headers_received (sendable : response.Sendable) :
    (response.sentHeaders.erase (text "connection")).erase (text "content-length") =
      response.headers := by
  have erased : response.sentHeaders.erase (text "connection") = response.headers := by
    unfold sentHeaders
    split
    · exact OrderedMap.erase_of_absent sendable.connection
    · rw [OrderedMap.erase_set]
      exact OrderedMap.erase_of_absent sendable.connection
  rw [erased, OrderedMap.erase_of_absent sendable.length]

theorem openEncoding_iff :
    response.OpenEncoding ↔ HttpResponseParser.behindHeaders response = 62 := by
  unfold OpenEncoding HttpResponseParser.behindHeaders
  cases response.webSocket with
  | false =>
      rw [if_neg Bool.false_ne_true]
      unfold HttpResponseParser.behindConnection
      cases response.close <;> simp
  | true =>
      rw [if_pos rfl]
      rcases List.eq_nil_or_concat response.headers.entries with none | ⟨before, last, ends⟩
      · rw [none]
        simp [HttpResponseParser.behindLines]
      · rw [ends, List.concat_eq_append, HttpResponseParser.behindLines, List.foldl_append,
          List.foldl_cons, List.foldl_nil, HttpResponseParser.behindLine]
        split
        · rename_i both
          simp [both]
        · rename_i other
          simpa using other

end HttpResponse

section

variable
  (returned : ResponseCall.parseHeader settings {} response.dump = .finished (.returned received))

include returned

theorem known_of_returned (sendable : response.Sendable) :
    response.version ∈ [(10 : UInt8), 11] := by
  by_contra unknown
  rcases HttpResponse.dump_version sendable with ⟨behind, split⟩
  have failed := HttpResponseParser.run_unknown unknown split
  have accepted := (ResponseCall.parseHeader_returned rfl returned).1
  exact absurd (accepted.symm.trans failed) Bool.false_ne_true

theorem plain_of_returned : HttpResponseParser.PlainReason received.reason := by
  have spoken := @HttpResponseParser.plainReason_run response.dump {} rfl
    ⟨List.not_mem_nil, List.not_mem_nil⟩
  exact ResponseCall.afterHeader_reason (ResponseCall.parseHeader_returned rfl returned).2.2 spoken

variable (sendable : response.Sendable) (known : response.version ∈ [(10 : UInt8), 11])
  (plain : HttpResponseParser.PlainReason (HttpResponseParser.sentReason response))

include sendable known plain

/-- A body is lost, or read as chunks and shortened. -/
theorem body_shortened (some : response.body ≠ []) :
    received.body.length < response.body.length := by
  rcases HttpResponseParser.execute_body sendable known plain some with
    ⟨nparser, executed, rest⟩
  have behind := (ResponseCall.parseHeader_returned executed returned).2.2
  rw [Int.toNat_natCast, rest] at behind
  cases chunked : (HttpResponseParser.parsed response).chunked with
  | true => exact (ResponseCall.afterHeader_chunked behind chunked plain).1
  | false =>
      rw [ResponseCall.afterHeader_absent] at behind
      · cases behind
        exact List.length_pos_of_ne_nil some
      · exact chunked
      · exact (OrderedMap.find_set_other _ _ (by decide)).trans
          (HttpResponse.find_sentHeaders sendable)

/-- Without a body neither chunks nor the rest of a header are waited for. -/
theorem settled_of_returned (empty : response.body = []) :
    (HttpResponseParser.parsed response).chunked = false ∧ ¬ response.OpenEncoding := by
  have executed := HttpResponseParser.execute_empty sendable known plain empty
  rcases ResponseCall.parseHeader_returned executed returned with ⟨_, finished, behind⟩
  constructor
  · by_contra chunked
    have shorter := (ResponseCall.afterHeader_chunked behind
      (eq_true_of_ne_false chunked) plain).1
    rw [Int.toNat_natCast, List.drop_length] at shorter
    exact Nat.not_lt_zero _ shorter
  · intro opened
    rw [if_pos (HttpResponse.openEncoding_iff.mp opened)] at finished
    exact finished rfl

end

/-- What is returned for a response without a body. -/
theorem parseHeader_dump (sendable : response.Sendable)
    (fits : response.dump.length ≤ settings.responseHeaderSize)
    (small : response.dump.length < 2 ^ 31) (known : response.version ∈ [(10 : UInt8), 11])
    (plain : HttpResponseParser.PlainReason (HttpResponseParser.sentReason response))
    (empty : response.body = []) (whole : (HttpResponseParser.parsed response).chunked = false)
    (closed : ¬ response.OpenEncoding) :
    ResponseCall.parseHeader settings {} response.dump =
      .finished (.returned (HttpResponseParser.parsed response).data) := by
  have executed := HttpResponseParser.execute_empty sendable known plain empty
  rw [if_neg (mt HttpResponse.openEncoding_iff.mpr closed)] at executed
  have accepted : { HttpResponseParser.parsed response with cs := 120 }.hasError = false := rfl
  have finished : { HttpResponseParser.parsed response with cs := 120 }.isFinished ≠ 0 :=
    Int.one_ne_zero
  rw [ResponseCall.parseHeader_eq (HttpResponse.dump_ne_nil response) fits small executed,
    accepted, if_neg Bool.false_ne_true, if_pos finished, ResponseCall.afterHeader_absent]
  · rfl
  · exact whole
  · exact HttpResponse.find_sentHeaders sendable

theorem parsed_chunked_iff :
    (HttpResponseParser.parsed response).chunked = false ↔
      ∀ entry ∈ response.headers.entries,
        HttpResponseParser.announces entry.1 entry.2 = false := by
  simp [HttpResponseParser.parsed]

/-- A response that fits one read is given back if and only if it has no body, its version and
its reason are in the grammar, and no header leads on to chunks. -/
theorem responseRoundTrips_iff (sendable : response.Sendable)
    (fits : response.dump.length ≤ settings.responseHeaderSize)
    (small : response.dump.length < 2 ^ 31) :
    response.RoundTrips settings ↔
      response.body = [] ∧ (response.version = 10 ∨ response.version = 11) ∧
        HttpResponseParser.PlainReason (HttpResponseParser.sentReason response) ∧
        (∀ entry ∈ response.headers.entries,
          HttpResponseParser.announces entry.1 entry.2 = false) ∧
        ¬ response.OpenEncoding := by
  constructor
  · rintro ⟨received, ran, given⟩
    have returned := (runUntil_response (HttpResponse.dump_ne_nil response) fits).mp ran
    have known := known_of_returned returned sendable
    have plain := given.reason ▸ plain_of_returned returned
    have empty : response.body = [] := by
      by_contra some
      have shorter := body_shortened returned sendable known plain some
      rw [given.body] at shorter
      exact Nat.lt_irrefl _ shorter
    rcases settled_of_returned returned sendable known plain empty with ⟨whole, closed⟩
    exact ⟨empty, List.mem_pair.mp known, plain, parsed_chunked_iff.mp whole, closed⟩
  · rintro ⟨empty, version, plain, whole, closed⟩
    have returned := parseHeader_dump sendable fits small (List.mem_pair.mpr version) plain empty
      (parsed_chunked_iff.mpr whole) closed
    refine ⟨_, (runUntil_response (HttpResponse.dump_ne_nil response) fits).mpr returned, ?_⟩
    constructor
    · rfl
    · rfl
    · rfl
    · exact empty.symm
    · exact HttpResponse.headers_received sendable

end

/-- A page with any body. -/
def page (body : List UInt8) : HttpResponse where
  headers := (∅ : MapType).set (text "Server") (text "zhuyh/1.0")
  body := body

theorem page_sendable (body : List UInt8) : (page body).Sendable where
  status := ⟨(200, text "OK"), by decide, rfl⟩
  headers := by
    intro entry member
    cases List.mem_singleton.mp member
    exact ⟨by decide, List.all_eq_true.mp (by decide), List.all_eq_true.mp (by decide), by decide⟩
  connection := by
    intro entry member
    cases List.mem_singleton.mp member
    decide
  length := by
    intro entry member
    cases List.mem_singleton.mp member
    decide
  cookies := rfl

theorem responseRoundTrips_page : (page []).RoundTrips defaultSettings := by
  apply (responseRoundTrips_iff (page_sendable []) (by decide) (by decide)).mpr
  refine ⟨rfl, .inr rfl, ⟨by decide, by decide⟩, ?_, ?_⟩
  · decide
  · exact fun opened => Bool.false_ne_true opened.1

/-- With a body the same page comes back without it. -/
theorem not_responseRoundTrips :
    (page (text "Hello World")).Sendable ∧
    (page (text "Hello World")).dump.length ≤ defaultSettings.responseHeaderSize ∧
    (page (text "Hello World")).dump.length < 2 ^ 31 ∧
    ¬ (page (text "Hello World")).RoundTrips defaultSettings := by
  refine ⟨page_sendable _, by decide, by decide, ?_⟩
  rintro ⟨received, ran, given⟩
  have returned := (runUntil_response (HttpResponse.dump_ne_nil _) (by decide)).mp ran
  have shorter := body_shortened returned (page_sendable _) (by decide)
    ⟨by decide, by decide⟩ (by decide)
  rw [given.body] at shorter
  exact Nat.lt_irrefl _ shorter

end Http

end FiberNet
