import FiberNet.Http.Bounds
import FiberNet.Http.Tokens

/-! # Requests cut into reads

The state of the automaton survives from one read to the next, the marks do not, and
the bytes behind a request are dropped with the buffer. Where no cut tears a token and
no read of a header reaches beyond its request, the calls return what one contiguous
buffer gives.
-/

namespace FiberNet

namespace Http

/-- A request without its raw URI and scheme, which a cut may tear. -/
def HttpRequest.core (request : HttpRequest) : HttpRequest :=
  { request with uri := [], scheme := [] }

def RequestAction.reads : RequestAction → Reads
  | .requestMethod | .requestPath | .fragment | .httpVersion => .mark
  | .queryString => .query
  | .writeValue => .field
  | _ => .nothing

namespace HttpRequestParser

def core (parser : HttpRequestParser) : HttpRequestParser :=
  { parser with cs := requestStart, queryStart := 0, data := parser.data.core }

theorem core_onRequestMethod (parser : HttpRequestParser) (value : List UInt8) :
    (parser.onRequestMethod value).core = parser.core.onRequestMethod value := rfl

theorem core_onRequestPath (parser : HttpRequestParser) (value : List UInt8) :
    (parser.onRequestPath value).core = parser.core.onRequestPath value := rfl

theorem core_onRequestVersion (parser : HttpRequestParser) (value : List UInt8) :
    (parser.onRequestVersion value).core = parser.core.onRequestVersion value := by
  unfold onRequestVersion
  split
  · rfl
  · split <;> rfl

theorem core_onRequestHttpField (parser : HttpRequestParser) (field value : List UInt8) :
    (parser.onRequestHttpField field value).core =
      parser.core.onRequestHttpField field value := by
  unfold onRequestHttpField
  split <;> rfl

theorem core_fragment {parser part : HttpRequestParser} (same : part.core = parser.core)
    (value : List UInt8) :
    HttpRequestParser.core
        { part with data := { part.data with fragment := value } } =
      HttpRequestParser.core
        { parser with data := { parser.data with fragment := value } } :=
  congrArg (fun parser : HttpRequestParser =>
    { parser with data := { parser.data with fragment := value } }) same

theorem core_query {parser part : HttpRequestParser} (same : part.core = parser.core)
    (value : List UInt8) :
    HttpRequestParser.core { part with data := { part.data with query := value } } =
      HttpRequestParser.core { parser with data := { parser.data with query := value } } :=
  congrArg (fun parser : HttpRequestParser =>
    { parser with data := { parser.data with query := value } }) same

section

variable {before part behind : List UInt8} {whole own : Occurrence RequestAction}
  (matching : Matches RequestAction.reads before.length part.length whole own)
  (inside : own.position ≤ part.length)

include matching inside

theorem slice_mark (reading : own.action.reads = .mark) :
    slice (before ++ part ++ behind) whole.marks.mark whole.position =
      slice part own.marks.mark own.position := by
  have agrees := matching.agrees
  rw [reading] at agrees
  rw [agrees, matching.position, slice_part before part behind inside]

theorem slice_query (reading : own.action.reads = .query) :
    slice (before ++ part ++ behind) whole.marks.queryStart whole.position =
      slice part own.marks.queryStart own.position := by
  have agrees := matching.agrees
  rw [reading] at agrees
  rw [agrees, matching.position, slice_part before part behind inside]

theorem slice_field (reading : own.action.reads = .field) :
    slice (before ++ part ++ behind) whole.marks.fieldStart
        (whole.marks.fieldStart + whole.marks.fieldLen) =
      slice part own.marks.fieldStart
        (own.marks.fieldStart + own.marks.fieldLen) ∧
    slice (before ++ part ++ behind) whole.marks.mark whole.position =
      slice part own.marks.mark own.position := by
  have agrees := matching.agrees
  have room := matching.inside reading
  rw [reading] at agrees
  rcases agrees with ⟨mark, start, length⟩
  constructor
  · rw [start, length, Nat.add_right_comm,
      slice_part before part behind (Nat.le_of_lt room)]
  · rw [mark, matching.position, slice_part before part behind inside]

/-- An action on the buffer of one read does what it does on the whole. -/
theorem perform_core {parser ownParser next : HttpRequestParser}
    (same : ownParser.core = parser.core)
    (performed : perform (before ++ part ++ behind) parser whole = some next) :
    ∃ ownNext, perform part ownParser own = some ownNext ∧
      ownNext.core = next.core := by
  have action := matching.action
  rcases own with ⟨act, position, marks⟩
  dsimp only at action
  unfold perform at performed ⊢
  rw [action] at performed
  cases act with
  | requestMethod =>
      cases performed
      refine ⟨_, rfl, ?_⟩
      rw [slice_mark matching inside rfl, core_onRequestMethod, core_onRequestMethod, same]
  | requestPath =>
      cases performed
      refine ⟨_, rfl, ?_⟩
      rw [slice_mark matching inside rfl, core_onRequestPath, core_onRequestPath, same]
  | httpVersion =>
      cases performed
      refine ⟨_, rfl, ?_⟩
      rw [slice_mark matching inside rfl, core_onRequestVersion, core_onRequestVersion, same]
  | fragment =>
      cases performed
      refine ⟨_, rfl, ?_⟩
      rw [slice_mark matching inside rfl]
      exact core_fragment same _
  | queryString =>
      have agrees : whole.marks.queryStart = marks.queryStart + before.length :=
        matching.agrees
      have place : whole.position = position + before.length := matching.position
      dsimp only at performed ⊢
      split at performed
      · rename_i ordered
        cases performed
        rw [if_pos (by omega)]
        refine ⟨_, rfl, ?_⟩
        rw [slice_query matching inside rfl]
        exact core_query same _
      · cases performed
  | writeValue =>
      cases performed
      refine ⟨_, rfl, ?_⟩
      rcases slice_field matching inside rfl with ⟨name, value⟩
      rw [name, value, core_onRequestHttpField, core_onRequestHttpField, same]
  | requestUri => cases performed; exact ⟨_, rfl, same⟩
  | saveScheme => cases performed; exact ⟨_, rfl, same⟩
  | mark => cases performed; exact ⟨_, rfl, same⟩
  | startField => cases performed; exact ⟨_, rfl, same⟩
  | writeField => cases performed; exact ⟨_, rfl, same⟩
  | startValue => cases performed; exact ⟨_, rfl, same⟩
  | startQuery => cases performed; exact ⟨_, rfl, same⟩
  | xml => cases performed; exact ⟨_, rfl, same⟩
  | json => cases performed; exact ⟨_, rfl, same⟩
  | done => cases performed; exact ⟨_, rfl, same⟩

end

theorem performs_core {before part behind : List UInt8} :
    ∀ {whole owns : List (Occurrence RequestAction)}
      {parser ownParser next : HttpRequestParser},
      List.Forall₂ (Matches RequestAction.reads before.length part.length) whole owns →
      (∀ occurrence ∈ owns, occurrence.position ≤ part.length) →
      ownParser.core = parser.core →
      whole.foldlM (perform (before ++ part ++ behind)) parser = some next →
      ∃ ownNext, owns.foldlM (perform part) ownParser = some ownNext ∧
        ownNext.core = next.core
  | _, _, parser, ownParser, _, .nil, _, same, performed => by
      cases performed
      exact ⟨ownParser, rfl, same⟩
  | _, _, parser, ownParser, next, .cons matching rest, inside, same, performed => by
      rw [List.foldlM_cons] at performed
      rcases Option.bind_eq_some_iff.mp performed with ⟨middle, first, later⟩
      rcases perform_core matching (inside _ List.mem_cons_self) same first with
        ⟨ownMiddle, ownFirst, middle_same⟩
      rcases performs_core rest
        (fun occurrence member => inside occurrence (List.mem_cons_of_mem _ member))
        middle_same later with ⟨ownNext, ownLater, next_same⟩
      refine ⟨ownNext, ?_, next_same⟩
      rw [List.foldlM_cons]
      exact Option.bind_eq_some_iff.mpr ⟨ownMiddle, ownFirst, ownLater⟩

/-- The parser of a new call. -/
def fresh (uriRelaxed : Bool) : HttpRequestParser := { uriRelaxed }

/-- The marks of a new parser. -/
def noMarks : Traced := ⟨⟨0, 0, 0, 0⟩, 0⟩

theorem noMarks_below {limit : Nat} (positive : 0 < limit) : noMarks.Below limit :=
  ⟨positive, positive, positive, positive⟩

/-- The marks of the whole behind the bytes before a cut. -/
def tracedAt (uriRelaxed : Bool) (before : List UInt8) : Traced :=
  tracedAfter RequestAction.effect noMarks ((fresh uriRelaxed).scan before).events

/-- A parser at a cut, and beside it the parser that has read the same bytes of one
contiguous buffer. -/
structure At (uriRelaxed : Bool) (request before : List UInt8)
    (parser own : HttpRequestParser) : Prop where
  running : ((fresh uriRelaxed).scan before).running = true
  performed : (occurrences RequestAction.effect noMarks.marks
    ((fresh uriRelaxed).scan before).events).foldlM (perform request) (fresh uriRelaxed) =
      some parser
  cs : own.cs = ((fresh uriRelaxed).scan before).state
  relaxed : own.uriRelaxed = uriRelaxed
  same : own.core = parser.core
  follows : Follows before.length (tracedAt uriRelaxed before) own.marks

theorem at_start (uriRelaxed : Bool) (request : List UInt8) :
    At uriRelaxed request [] (fresh uriRelaxed) (fresh uriRelaxed) where
  running := rfl
  performed := rfl
  cs := rfl
  relaxed := rfl
  same := rfl
  follows := ⟨fun _ => rfl, fun _ => rfl, fun _ => rfl, fun _ => rfl⟩

section

variable {uriRelaxed : Bool} {request before part behind : List UInt8}
  {parser own : HttpRequestParser}

/-- The scan of the whole goes on over the bytes behind a cut as the buffer is scanned. -/
theorem At.scan_append (cut : At uriRelaxed request before parser own) (part : List UInt8) :
    (fresh uriRelaxed).scan (before ++ part) =
      ((own.scan part).shift before.length).after ((fresh uriRelaxed).scan before).events := by
  have shifting := (requestScanner uriRelaxed).scan_shift before.length own.cs 0 part
  have whole := Scanner.scan_append_of_running cut.running part
  rw [Nat.zero_add] at shifting whole
  show (requestScanner uriRelaxed).scan _ 0 (before ++ part) =
    (((requestScanner own.uriRelaxed).scan own.cs 0 part).shift before.length).after _
  rw [cut.relaxed, ← shifting, cut.cs]
  exact whole

/-- One `execute` on the buffer of a read whose tokens are whole. -/
theorem At.execute (cut : At uriRelaxed request before parser own)
    (split : request = before ++ part ++ behind)
    {later : List (Nat × RequestAction)}
    (events : ((fresh uriRelaxed).scan request).events =
      ((fresh uriRelaxed).scan (before ++ part)).events ++ later)
    {final : HttpRequestParser}
    (whole : (occurrences RequestAction.effect noMarks.marks
      ((fresh uriRelaxed).scan request).events).foldlM (perform request) (fresh uriRelaxed) =
        some final)
    (untorn : ∀ token ∈ tokens RequestAction.effect RequestAction.reads noMarks
      ((fresh uriRelaxed).scan request).events,
      ¬ Torn token before.length ∧ ¬ Torn token (part.length + before.length)) :
    ∃ middle ownMiddle, own.execute part = some (ownMiddle, (own.scan part).position) ∧
      ownMiddle.cs = (own.scan part).state ∧
      ownMiddle.uriRelaxed = uriRelaxed ∧ ownMiddle.core = middle.core ∧
      (occurrences RequestAction.effect noMarks.marks
        ((fresh uriRelaxed).scan (before ++ part)).events).foldlM (perform request)
          (fresh uriRelaxed) = some middle ∧
      (occurrences RequestAction.effect
        (marksAfter RequestAction.effect noMarks.marks
          ((fresh uriRelaxed).scan (before ++ part)).events) later).foldlM (perform request)
          middle = some final := by
  rw [events, occurrences_append, List.foldlM_append] at whole
  rcases Option.bind_eq_some_iff.mp whole with ⟨middle, reached, rest⟩
  have segment : ((fresh uriRelaxed).scan (before ++ part)).events =
      ((fresh uriRelaxed).scan before).events ++
        shifted before.length (own.scan part).events := by
    rw [cut.scan_append part]
    rfl
  have performed := reached
  rw [segment, occurrences_append, List.foldlM_append, cut.performed] at performed
  rw [events, segment, tokens_append, tokens_append] at untorn
  have inside : ∀ event ∈ (own.scan part).events, event.1 < part.length := by
    intro event member
    have bounds := (requestScanner own.uriRelaxed).event_bounds own.cs 0 part event member
    have total := (requestScanner own.uriRelaxed).scan_position_le own.cs 0 part
    omega
  have matching := occurrences_match RequestAction.effect RequestAction.reads cut.follows inside
    fun token member => untorn token (List.mem_append_left _ (List.mem_append_right _ member))
  rw [tracedAt, tracedAfter_marks] at matching
  rw [split] at performed
  rcases performs_core matching
    (fun occurrence member =>
      Nat.le_of_lt (inside _ (event_of_mem_occurrences RequestAction.effect member)))
    cut.same performed with ⟨ownNext, ownPerformed, same⟩
  refine ⟨middle,
    { ownNext with
      cs := (own.scan part).state
      queryStart :=
        (marksAfter RequestAction.effect own.marks (own.scan part).events).queryStart },
    ?_, rfl, ?_, same, reached, rest⟩
  · exact Option.map_eq_some_iff.mpr ⟨ownNext, ownPerformed, rfl⟩
  · exact (performs_frame ownPerformed).uriRelaxed.trans cut.relaxed

/-- Behind a read that does not end the header the parser is again at a cut. -/
theorem At.advance (cut : At uriRelaxed request before parser own)
    (nonempty : part ≠ []) (running : (own.scan part).running = true)
    {middle ownMiddle : HttpRequestParser}
    (state : ownMiddle.cs = (own.scan part).state) (relaxed : ownMiddle.uriRelaxed = uriRelaxed)
    (same : ownMiddle.core = middle.core)
    (performed : (occurrences RequestAction.effect noMarks.marks
      ((fresh uriRelaxed).scan (before ++ part)).events).foldlM (perform request)
        (fresh uriRelaxed) = some middle) :
    At uriRelaxed request (before ++ part) middle ownMiddle := by
  have whole := cut.scan_append part
  have whole_running : ((fresh uriRelaxed).scan (before ++ part)).running = true := by
    rw [whole]
    exact running
  refine ⟨whole_running, performed, ?_, relaxed, same, follows_of_below ?_ _⟩
  · rw [state, whole]
    rfl
  · apply tracedAfter_below
    · apply noMarks_below
      have positive := List.length_pos_of_ne_nil nonempty
      rw [List.length_append]
      omega
    · intro event member
      have bounds := (requestScanner uriRelaxed).event_bounds requestStart 0 (before ++ part)
        event member
      have total := (requestScanner uriRelaxed).scan_position_le requestStart 0 (before ++ part)
      omega

end

set_option maxRecDepth 4000 in
/-- Only `done` leads to a final state. -/
theorem requestRows_onward : ∀ row ∈ requestRows, ∀ edge ∈ row.2,
    edge.actions.any (fun action => decide (action = .done)) = false →
      requestError < edge.target ∧ edge.target < requestFirstFinal := by
  decide

theorem state_of_running {parser : HttpRequestParser} {data : List UInt8}
    (inside : requestError < parser.cs ∧ parser.cs < requestFirstFinal)
    (running : (parser.scan data).running = true) :
    requestError < (parser.scan data).state ∧ (parser.scan data).state < requestFirstFinal :=
  @Scanner.state_of_running _ (requestScanner parser.uriRelaxed)
    (fun state => requestError < state ∧ state < requestFirstFinal)
    requestRows_onward _ _ _ inside running

theorem At.inside {uriRelaxed : Bool} {request before : List UInt8}
    {parser own : HttpRequestParser} (cut : At uriRelaxed request before parser own) :
    requestError < own.cs ∧ own.cs < requestFirstFinal := by
  rw [cut.cs]
  exact @state_of_running (fresh uriRelaxed) before
    (show requestError < requestStart ∧ requestStart < requestFirstFinal by decide) cut.running

/-- What the scan of the whole does behind the bytes of a read. -/
theorem At.events {uriRelaxed : Bool} {before part behind : List UInt8}
    {parser own : HttpRequestParser}
    (cut : At uriRelaxed (before ++ part ++ behind) before parser own) :
    ∃ later, ((fresh uriRelaxed).scan (before ++ part ++ behind)).events =
      ((fresh uriRelaxed).scan (before ++ part)).events ++ later ∧
      ((own.scan part).running = false → later = [] ∧
        (fresh uriRelaxed).scan (before ++ part ++ behind) =
          (fresh uriRelaxed).scan (before ++ part)) := by
  have whole : ((fresh uriRelaxed).scan (before ++ part)).running = (own.scan part).running := by
    rw [cut.scan_append part]
    rfl
  cases running : (own.scan part).running with
  | true =>
      have onward := Scanner.scan_append_of_running (whole.trans running) behind
      exact ⟨_, congrArg Scan.events onward, nofun⟩
  | false =>
      have ended := Scanner.scan_append_of_ended (whole.trans running) behind
      exact ⟨[], (congrArg Scan.events ended).trans (List.append_nil _).symm,
        fun _ => ⟨rfl, ended⟩⟩

/-- The actions behind an `execute` and what it sets beside them. -/
theorem execute_performs {parser final : HttpRequestParser} {data : List UInt8} {header : Nat}
    (executed : parser.execute data = some (final, header)) :
    ∃ performed, (occurrences RequestAction.effect parser.marks
        (parser.scan data).events).foldlM (perform data) parser = some performed ∧
      final.core = performed.core := by
  rcases Option.map_eq_some_iff.mp executed with ⟨performed, reached, result⟩
  cases result
  exact ⟨performed, reached, rfl⟩

theorem error_core {own parser : HttpRequestParser} (same : own.core = parser.core) :
    own.error = parser.error := by
  have errors := congrArg (fun parser : HttpRequestParser => parser.error) same
  exact errors

theorem getContentLength_core (cast : List UInt8 → Option UInt64)
    {own parser : HttpRequestParser} (same : own.core = parser.core) :
    own.getContentLength cast = parser.getContentLength cast := by
  have headers := congrArg (fun parser : HttpRequestParser => parser.data.headers) same
  exact congrArg (fun headers => getAs cast headers (text "content-length") 0) headers

end HttpRequestParser

namespace HttpRequest

theorem core_init (request : HttpRequest) : request.init.core = request.core.init := by
  unfold init
  split
  · rename_i empty
    rw [if_pos (show (request.core.getHeader (text "connection")).isEmpty from empty)]
  · rename_i named
    rw [if_neg (show ¬ (request.core.getHeader (text "connection")).isEmpty from named)]
    rfl

theorem core_initQueryParam (request : HttpRequest) :
    request.initQueryParam.core = request.core.initQueryParam := by
  rcases request with ⟨_, _, _, _, _ | _⟩ <;> rfl

theorem core_initBodyParam (request : HttpRequest) :
    request.initBodyParam.core = request.core.initBodyParam := by
  unfold initBodyParam
  by_cases parsed : request.bodyDone
  · rw [if_pos parsed, if_pos (show request.core.bodyDone from parsed)]
  · rw [if_neg parsed, if_neg (show ¬ request.core.bodyDone from parsed)]
    split
    · rename_i other
      exact (if_pos other).symm
    · rename_i form
      exact (if_neg form).symm

theorem core_initCookies (request : HttpRequest) :
    request.initCookies.core = request.core.initCookies := by
  unfold initCookies
  by_cases parsed : request.cookiesDone
  · rw [if_pos parsed, if_pos (show request.core.cookiesDone from parsed)]
  · rw [if_neg parsed, if_neg (show ¬ request.core.cookiesDone from parsed)]
    split
    · rename_i empty
      exact (if_pos empty).symm
    · rename_i named
      exact (if_neg named).symm

theorem core_initParam (request : HttpRequest) :
    request.initParam.core = request.core.initParam := by
  rw [initParam, initParam, core_initCookies, core_initBodyParam, core_initQueryParam]

end HttpRequest

namespace RequestCall

variable {settings : Settings}

theorem core_finish {own parser : HttpRequestParser} (same : own.core = parser.core)
    (body : List UInt8) :
    (setBody own body).init.initParam.core = (setBody parser body).init.initParam.core := by
  have bodies : (setBody own body).core = (setBody parser body).core :=
    congrArg (fun parser : HttpRequestParser => { parser.data with body }) same
  rw [HttpRequest.core_initParam, HttpRequest.core_initParam, HttpRequest.core_init,
    HttpRequest.core_init, bodies]

theorem count_pos {content : List UInt8} (nonempty : content ≠ []) :
    ¬ (Read.bytes content).count ≤ 0 := by
  have positive := List.length_pos_of_ne_nil nonempty
  show ¬ (content.length : Int) ≤ 0
  omega

theorem onBody_short {parser : HttpRequestParser} {body content : List UInt8} {asked left : Nat}
    (nonempty : content ≠ []) (short : content.length < left) :
    onBody parser body asked left (.bytes content) =
      .fixedBody parser (body ++ content) asked (left - content.length) := by
  rw [onBody, if_neg (count_pos nonempty), if_pos (show (Read.bytes content).content.length < left
    from short)]
  rfl

theorem onBody_full {parser : HttpRequestParser} {body content : List UInt8} {asked left : Nat}
    (nonempty : content ≠ []) (full : left ≤ content.length) (asks : 0 < toInt32 asked) :
    onBody parser body asked left (.bytes content) =
      finish (setBody parser (body ++ content)) := by
  have complete : ¬ (Read.bytes content).content.length < left := Nat.not_lt_of_le full
  rw [onBody, if_neg (count_pos nonempty), if_neg complete, if_neg (Int.not_le.mpr asks)]
  rfl

theorem no_reads {reads : List (List UInt8)} (nonempty : ∀ read ∈ reads, read ≠ [])
    (none_left : reads.flatten.length = 0) : reads = [] := by
  cases reads with
  | nil => rfl
  | cons read reads =>
      have positive := List.length_pos_of_ne_nil (nonempty read List.mem_cons_self)
      rw [List.flatten_cons, List.length_append] at none_left
      omega

/-- The reads of a body, down to the last byte. -/
theorem runUntil_fixedBody {parser : HttpRequestParser} {asked : Nat}
    (asks : 0 < toInt32 asked) (rest : List Read) :
    ∀ {reads : List (List UInt8)} {body : List UInt8} {left : Nat},
      (∀ read ∈ reads, read ≠ []) → reads.flatten.length = left → 0 < left →
      (recvRequest settings).runUntil outcome (.fixedBody parser body asked left)
        (reads.map .bytes ++ rest) =
          some (.returned (setBody parser (body ++ reads.flatten)).init.initParam, rest)
  | [], _, _, _, total, more => by
      rw [List.flatten_nil, List.length_nil] at total
      omega
  | read :: reads, body, left, nonempty, total, more => by
      have here := nonempty read List.mem_cons_self
      have later : ∀ read ∈ reads, read ≠ [] :=
        fun read member => nonempty read (List.mem_cons_of_mem _ member)
      rw [List.flatten_cons, List.length_append] at total
      have taken : (recvRequest settings).step (.fixedBody parser body asked left)
          (.bytes read) = some (onBody parser body asked left (.bytes read)) :=
        if_pos (show read.length ≤ left by omega)
      rw [List.map_cons, List.cons_append, Machine.runUntil_step rfl taken]
      by_cases short : read.length < left
      · rw [onBody_short here short, runUntil_fixedBody asks rest later (by omega) (by omega),
          List.append_assoc, List.flatten_cons]
      · have none_left : reads = [] := no_reads later (by omega)
        subst none_left
        rw [onBody_full here (Nat.le_of_not_lt short) asks,
          Machine.runUntil_result (show outcome (finish _) = some _ from rfl),
          List.flatten_cons, List.flatten_nil, List.append_nil]
        rfl

/-- Behind the header: the part of the body that came with it and the reads of the rest. -/
theorem runUntil_afterHeader {parser : HttpRequestParser} {remain : List UInt8}
    {reads : List (List UInt8)} (rest : List Read) (no_body : parser.data.body = [])
    (nonempty : ∀ read ∈ reads, read ≠ [])
    (total : ((remain ++ reads.flatten).length : Int) =
      max 0 (toInt64 (parser.getContentLength settings.lexicalCast).toNat))
    (small : (remain ++ reads.flatten).length < 2 ^ 31) :
    (recvRequest settings).runUntil outcome (afterHeader settings parser remain)
      (reads.map .bytes ++ rest) =
        some (.returned (setBody parser (remain ++ reads.flatten)).init.initParam, rest) := by
  unfold afterHeader
  generalize toInt64 (parser.getContentLength settings.lexicalCast).toNat = length at total ⊢
  rw [List.length_append] at total small
  dsimp only
  by_cases announced : 0 < length
  · have fits : (remain.length : Int) ≤ length := by omega
    rw [if_pos announced, if_pos fits]
    by_cases more : 0 < length - remain.length
    · have left : (length - remain.length).toNat = reads.flatten.length := by omega
      have asks : 0 < toInt32 ((length - remain.length).toNat : Nat) := by
        rw [toInt32_of_lt (by omega) (by omega)]
        omega
      rw [if_pos more, checked_of_inBounds (by simp [Access.inBounds]; omega),
        runUntil_fixedBody asks rest nonempty left.symm (by omega)]
    · have none_left : reads = [] := no_reads nonempty (by omega)
      subst none_left
      rw [if_neg more, checked_of_inBounds (by simp [Access.inBounds]; omega),
        Machine.runUntil_result (show outcome (finish _) = some _ from rfl),
        List.flatten_nil, List.append_nil]
      rfl
  · have none_left : reads = [] := no_reads nonempty (by omega)
    have empty : remain = [] := List.eq_nil_of_length_eq_zero (by omega)
    subst none_left empty
    rw [if_neg announced, Machine.runUntil_result (show outcome (finish _) = some _ from rfl),
      List.flatten_nil, List.append_nil, setBody, ← no_body]
    rfl

end RequestCall

/-- The request that one contiguous buffer gives: header and body are within the limits, and
no bytes lie behind them. -/
def parseContiguous (settings : Settings) (bytes : List UInt8) : Option HttpRequest :=
  match (HttpRequestParser.fresh settings.uriRelaxed).execute bytes with
  | none => none
  | some (parser, header) =>
      let length := toInt64 (parser.getContentLength settings.lexicalCast).toNat
      if parser.hasError = false ∧ parser.isFinished ≠ 0 ∧
          header ≤ settings.requestHeaderSize ∧ length ≤ settings.requestBodySize ∧
          ((bytes.drop header).length : Int) = max 0 length then
        some (RequestCall.setBody parser (bytes.drop header)).init.initParam
      else none

/-- The tokens of a request that its callbacks read. -/
def requestTokens (uriRelaxed : Bool) (request : List UInt8) : List (Nat × Nat) :=
  tokens RequestAction.effect RequestAction.reads HttpRequestParser.noMarks
    ((HttpRequestParser.fresh uriRelaxed).scan request).events

/-- The reads with their offsets. -/
def places (offset : Nat) : List (List UInt8) → List (Nat × List UInt8)
  | [] => []
  | read :: reads => (offset, read) :: places (read.length + offset) reads

/-- The reads cut no token, and those of the header have room in the buffer. -/
def Harmless (settings : Settings) (request : List UInt8) (place : Nat × List UInt8) : Prop :=
  (∀ token ∈ requestTokens settings.uriRelaxed request,
    ¬ Torn token place.1 ∧ ¬ Torn token (place.2.length + place.1)) ∧
  (place.1 < ((HttpRequestParser.fresh settings.uriRelaxed).scan request).position →
    place.2.length ≤ settings.requestHeaderSize)

instance (settings : Settings) (request : List UInt8) (place : Nat × List UInt8) :
    Decidable (Harmless settings request place) :=
  inferInstanceAs (Decidable (_ ∧ _))

namespace RequestCall

variable {settings : Settings}

theorem parseHeader_eq {parser next : HttpRequestParser} {data : List UInt8} {nparser : Nat}
    (executed : parser.execute data = some (next, nparser)) (accepted : next.hasError = false)
    (progress : 0 < nparser) (fits : data.length ≤ settings.requestHeaderSize) :
    parseHeader settings parser data =
      if next.isFinished ≠ 0 then afterHeader settings next (data.drop nparser)
      else awaitHeader settings next (data.drop nparser) := by
  have bound := HttpRequestParser.execute_le executed
  have room : (data.drop nparser).length ≠ settings.requestHeaderSize := by
    rw [List.length_drop]
    omega
  rw [parseHeader, executed]
  dsimp only
  rw [checked_of_inBounds (by simp [Access.inBounds]; omega), accepted,
    if_neg Bool.false_ne_true, if_neg room]

theorem start_eq (positive : 0 < settings.requestHeaderSize) :
    start settings = .header (.fresh settings.uriRelaxed) [] := by
  rw [start, awaitHeader, checked_of_inBounds]
  · rfl
  · simpa [Access.inBounds] using positive

theorem step_header {parser : HttpRequestParser} {content : List UInt8}
    (nonempty : content ≠ []) (fits : content.length ≤ settings.requestHeaderSize) :
    (recvRequest settings).step (.header parser []) (.bytes content) =
      some (parseHeader settings parser content) := by
  have taken : (recvRequest settings).step (.header parser []) (.bytes content) =
      some (onHeader settings parser [] (.bytes content)) := if_pos fits
  rw [taken, onHeader, if_neg (count_pos nonempty),
    checked_of_inBounds (by simpa [Access.inBounds, Read.count] using fits), List.nil_append,
    List.set_eq_of_length_le (Nat.le_refl _)]
  rfl

section

variable {request : List UInt8} {final : HttpRequestParser} {header : Nat}
  (parsed : (HttpRequestParser.fresh settings.uriRelaxed).execute request = some (final, header))
  (accepted : final.hasError = false) (complete : final.isFinished ≠ 0)

include parsed accepted

/-- A parser at a cut with bytes behind it has not yet read the header. -/
theorem before_header {before bytes : List UInt8} {parser own : HttpRequestParser}
    (split : request = before ++ bytes)
    (cut : HttpRequestParser.At settings.uriRelaxed request before parser own)
    (nonempty : bytes ≠ []) : before.length < header := by
  rcases HttpRequestParser.execute_scan parsed with ⟨state, position⟩
  simp only [HttpRequestParser.hasError, Bool.or_eq_false_iff, decide_eq_false_iff_not]
    at accepted
  subst split
  rw [cut.scan_append bytes] at state position
  have forward : 0 < (own.scan bytes).position :=
    Scanner.lt_scan_position 0 nonempty (state ▸ accepted.2)
  rw [position]
  exact Nat.lt_add_of_pos_left forward

include complete

/-- One read of the header: the loop goes on at the next cut, or the header is complete. -/
theorem parseHeader_part {before part behind : List UInt8} {parser own : HttpRequestParser}
    (split : request = before ++ part ++ behind)
    (cut : HttpRequestParser.At settings.uriRelaxed request before parser own)
    (no_body : own.data.body = []) (nonempty : part ≠ [])
    (harmless : Harmless settings request (before.length, part)) :
    (∃ middle next, HttpRequestParser.At settings.uriRelaxed request (before ++ part) middle next ∧
      next.data.body = [] ∧ parseHeader settings own part = .header next []) ∨
    (∃ next nparser, next.core = final.core ∧ next.data.body = [] ∧
      parseHeader settings own part = afterHeader settings next (part.drop nparser) ∧
      nparser ≤ part.length ∧ header = nparser + before.length) := by
  have forward := before_header parsed accepted (split.trans (List.append_assoc _ _ _))
    cut (by simp [nonempty])
  rcases HttpRequestParser.execute_performs parsed with ⟨performed, reached, core⟩
  rcases HttpRequestParser.execute_scan parsed with ⟨state, position⟩
  simp only [HttpRequestParser.hasError, Bool.or_eq_false_iff, decide_eq_false_iff_not,
    not_not] at accepted
  subst split
  rcases cut.events with ⟨later, events, ended⟩
  rcases cut.execute rfl events reached harmless.1 with
    ⟨middle, next, executed, cs, relaxed, same, performs, rest⟩
  have error : next.error = .ok := by
    rw [HttpRequestParser.error_core same]
    apply (HttpRequestParser.performs_frame rest).error
    rw [← HttpRequestParser.error_core core, accepted.1]
  have body : next.data.body = [] :=
    (HttpRequestParser.execute_frame executed).body.trans no_body
  have fits : part.length ≤ settings.requestHeaderSize := harmless.2 (position ▸ forward)
  cases running : (own.scan part).running with
  | true =>
      have inside := HttpRequestParser.state_of_running cut.inside running
      have consumed : (own.scan part).position = part.length := by
        rw [HttpRequestParser.scan, Scanner.position_of_running running, Nat.zero_add]
      have progress := List.length_pos_of_ne_nil nonempty
      have unfinished : next.isFinished = 0 := by
        rw [HttpRequestParser.isFinished, cs, if_neg (Nat.ne_of_gt inside.1),
          if_neg (Nat.not_le.mpr inside.2)]
      have onward : next.hasError = false := by
        simp [HttpRequestParser.hasError, error, cs, Nat.ne_of_gt inside.1]
      refine .inl ⟨middle, next, cut.advance nonempty running cs relaxed same performs, body, ?_⟩
      rw [parseHeader_eq executed onward (by omega) fits, unfinished, if_neg (not_not.mpr rfl),
        consumed, List.drop_length, awaitHeader, checked_of_inBounds]
      simp [Access.inBounds]
      omega
  | false =>
      rcases ended running with ⟨none_later, same_scan⟩
      subst none_later
      cases rest
      have part_scan := same_scan.trans (cut.scan_append part)
      have part_state : next.cs = final.cs := by
        rw [cs, state, part_scan]
        rfl
      have part_position : header = (own.scan part).position + before.length := by
        rw [position, part_scan]
        rfl
      have done : next.isFinished ≠ 0 := by
        rw [HttpRequestParser.isFinished, part_state]
        exact complete
      have sound : next.hasError = false := by
        simp [HttpRequestParser.hasError, error, part_state, accepted.2]
      refine .inr ⟨next, (own.scan part).position, same.trans core.symm, body, ?_,
        HttpRequestParser.execute_le executed, part_position⟩
      rw [parseHeader_eq executed sound (by omega) fits, if_pos done]

/-- The induction over the reads of a request. -/
theorem runUntil_header
    (total : ((request.drop header).length : Int) =
      max 0 (toInt64 (final.getContentLength settings.lexicalCast).toNat))
    (small : (request.drop header).length < 2 ^ 31) (rest : List Read) :
    ∀ {reads : List (List UInt8)} {before : List UInt8} {parser own : HttpRequestParser},
      request = before ++ reads.flatten →
      HttpRequestParser.At settings.uriRelaxed request before parser own →
      own.data.body = [] → (∀ read ∈ reads, read ≠ []) →
      (∀ place ∈ places before.length reads, Harmless settings request place) →
      ∃ received, (recvRequest settings).runUntil outcome (.header own [])
          (reads.map .bytes ++ rest) = some (.returned received, rest) ∧
        received.core = (setBody final (request.drop header)).init.initParam.core
  | [], before, parser, own, split, cut, _, _, _ => by
      rw [List.flatten_nil, List.append_nil] at split
      subst split
      have inside := @HttpRequestParser.state_of_running (.fresh settings.uriRelaxed) request
        (show requestError < requestStart ∧ requestStart < requestFirstFinal by decide)
        cut.running
      rw [← (HttpRequestParser.execute_scan parsed).1] at inside
      refine absurd ?_ complete
      rw [HttpRequestParser.isFinished, if_neg (Nat.ne_of_gt inside.1),
        if_neg (Nat.not_le.mpr inside.2)]
  | part :: reads, before, parser, own, split, cut, no_body, nonempty, harmless => by
      have here := nonempty part List.mem_cons_self
      have later : ∀ read ∈ reads, read ≠ [] :=
        fun read member => nonempty read (List.mem_cons_of_mem _ member)
      have place : Harmless settings request (before.length, part) :=
        harmless _ List.mem_cons_self
      rw [List.flatten_cons, ← List.append_assoc] at split
      have forward := before_header parsed accepted
        (split.trans (List.append_assoc _ _ _)) cut (by simp [here])
      have fits : part.length ≤ settings.requestHeaderSize :=
        place.2 ((HttpRequestParser.execute_scan parsed).2 ▸ forward)
      rw [List.map_cons, List.cons_append, Machine.runUntil_step rfl (step_header here fits)]
      rcases parseHeader_part parsed accepted complete split cut no_body here place with
        ⟨middle, next, advanced, body, parses⟩ |
        ⟨next, nparser, core, body, parses, bound, position⟩
      · rw [parses]
        apply runUntil_header total small rest split advanced body later
        intro place member
        apply harmless
        rw [List.length_append, Nat.add_comm] at member
        exact List.mem_cons_of_mem _ member
      · have behind : request.drop header = part.drop nparser ++ reads.flatten := by
          rw [split, position, List.append_assoc, Nat.add_comm, List.drop_length_add_append,
            List.drop_append_of_le_length bound]
        rw [behind] at total small ⊢
        rw [← HttpRequestParser.getContentLength_core settings.lexicalCast core] at total
        rw [parses, runUntil_afterHeader rest body later total small]
        exact ⟨_, rfl, core_finish core _⟩

end

end RequestCall

/-- How the bytes of one request arrive: in reads that end with it and cut no token. -/
structure Delivered (settings : Settings) (request : List UInt8) (reads : List (List UInt8)) :
    Prop where
  whole : reads.flatten = request
  nonempty : ∀ read ∈ reads, read ≠ []
  harmless : ∀ place ∈ places 0 reads, Harmless settings request place

/-- A request within the limits and what one contiguous buffer makes of it. -/
structure Contiguous (settings : Settings) (request : List UInt8) (value : HttpRequest) :
    Prop where
  parsed : parseContiguous settings request = some value
  small : value.body.length < 2 ^ 31

theorem recvRequest_delivered {settings : Settings} {request : List UInt8} {value : HttpRequest}
    {reads : List (List UInt8)} (contiguous : Contiguous settings request value)
    (delivered : Delivered settings request reads) (rest : List Read) :
    ∃ received, (recvRequest settings).runUntil RequestCall.outcome (.start settings)
        (reads.map .bytes ++ rest) = some (.returned received, rest) ∧
      received.core = value.core := by
  rcases contiguous with ⟨parsed, small⟩
  unfold parseContiguous at parsed
  split at parsed
  · cases parsed
  · rename_i final header executed
    dsimp only at parsed
    split at parsed
    · rename_i wellFormed
      rcases wellFormed with ⟨accepted, complete, inside, -, total⟩
      cases parsed
      rw [(HttpRequest.unchanged_received _).body] at small
      have nonempty : request ≠ [] := by
        intro empty
        subst empty
        cases executed
        exact complete rfl
      have forward := RequestCall.before_header executed accepted
        (show request = [] ++ request from rfl)
        (HttpRequestParser.at_start settings.uriRelaxed request) nonempty
      rw [RequestCall.start_eq (by omega)]
      exact RequestCall.runUntil_header executed accepted complete total small rest
        delivered.whole.symm (HttpRequestParser.at_start settings.uriRelaxed request) rfl
        delivered.nonempty delivered.harmless
    · cases parsed

/-- Successive calls return the requests that one contiguous buffer each gives, in order. -/
theorem framing_independent {settings : Settings} {requests : List (List UInt8)}
    {values : List HttpRequest} {deliveries : List (List (List UInt8))}
    (contiguous : List.Forall₂ (Contiguous settings) requests values)
    (delivered : List.Forall₂ (Delivered settings) requests deliveries) (rest : List Read) :
    (recvRequests settings requests.length (deliveries.flatten.map .bytes ++ rest)).map
      (·.map HttpRequest.core) = some (values.map HttpRequest.core) := by
  induction contiguous generalizing deliveries with
  | nil =>
      cases delivered
      rfl
  | cons first _ induction =>
      cases delivered with
      | cons delivery later =>
          rename_i reads deliveries
          rcases recvRequest_delivered first delivery
            (deliveries.flatten.map .bytes ++ rest) with ⟨received, ran, same⟩
          rw [List.flatten_cons, List.map_append, List.append_assoc, List.length_cons,
            recvRequests, ran]
          dsimp only
          rcases Option.map_eq_some_iff.mp (induction later) with ⟨others, returned, equal⟩
          rw [returned, Option.map_some, Option.map_some, List.map_cons, List.map_cons, same, equal]

def postReads : List (List UInt8) :=
  [text "POST ", text "/a?b=1 ", text "HTTP/1.1\r\n", text "Host: x\r\nContent-Length: 4\r\n\r",
    text "\nbo", text "dy"]

def getRequest : List UInt8 :=
  text "GET / HTTP/1.0\r\nHost: x\r\n\r\n"

/-- What one contiguous buffer makes of a request that it accepts. -/
def contiguousValue (request : List UInt8) : HttpRequest :=
  (parseContiguous defaultSettings request).getD {}

theorem framing_independent_two :
    (contiguousValue postReads.flatten).body = text "body" ∧
    (recvRequests defaultSettings 2
      ([postReads, [getRequest]].flatten.map .bytes ++ [.bytes []])).map
        (·.map HttpRequest.core) =
      some ([contiguousValue postReads.flatten, contiguousValue getRequest].map
        HttpRequest.core) :=
  ⟨by with_unfolding_all decide,
    @framing_independent defaultSettings [postReads.flatten, getRequest] _ _
      (.cons ⟨by with_unfolding_all decide, by with_unfolding_all decide⟩
        (.cons ⟨by with_unfolding_all decide, by with_unfolding_all decide⟩ .nil))
      (.cons ⟨by with_unfolding_all decide, by with_unfolding_all decide, by with_unfolding_all decide⟩
        (.cons ⟨by with_unfolding_all decide, by with_unfolding_all decide, by with_unfolding_all decide⟩ .nil)) _⟩

/-- A cut inside the name of a header gives another header, and of two requests in one read
the second is lost. -/
theorem framing_depends :
    (∃ value, Contiguous defaultSettings getRequest value ∧
      (getRequest.take 18 ++ getRequest.drop 18 = getRequest ∧
        (recvRequests defaultSettings 1
          [.bytes (getRequest.take 18), .bytes (getRequest.drop 18)]).map
            (·.map HttpRequest.core) ≠ some [value.core])) ∧
    recvRequests defaultSettings 2 [.bytes (getRequest ++ getRequest), .bytes []] = none ∧
    (recvRequests defaultSettings 2 [.bytes getRequest, .bytes getRequest]).isSome :=
  ⟨⟨contiguousValue getRequest, ⟨by with_unfolding_all decide, by with_unfolding_all decide⟩, by with_unfolding_all decide⟩,
    by with_unfolding_all decide⟩

end Http

end FiberNet
