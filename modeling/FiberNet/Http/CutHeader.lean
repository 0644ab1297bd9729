import FiberNet.Http.Bounds

/-! # Header sections cut into pieces

What has come of a header section, from its bytes and the cuts between them alone: the
automaton goes on where it was, and a callback is given a slice of the piece it is in.
The parsers of both calls follow this reading of the pieces.
-/

namespace FiberNet

namespace Http

/-- What one callback is given. -/
inductive Reading
  | method (name : List UInt8)
  | version (name : List UInt8)
  | field (name value : List UInt8)
  /-- A string whose end lies before its start. -/
  | backwards
  /-- The number that `content_len` is set to. -/
  | length (value : Int)
  /-- The size of a chunk. -/
  | size (value : Int)
  | chunked
  deriving DecidableEq

namespace Reading

def setHeader (headers : MapType) : Reading → MapType
  | .field name value => if name.isEmpty then headers else headers.set name value
  | _ => headers

def setLength (length : Int) : Reading → Int
  | .length value | .size value => value
  | _ => length

/-- A chunk without bytes is the last one. -/
def setLast (last : Bool) : Reading → Bool
  | .size value => value ≤ 0
  | _ => last

def isChunked : Reading → Bool
  | .size _ | .chunked => true
  | _ => false

/-- A reading that is no error, given the versions that are known. -/
def Good (known : List UInt8 → Bool) : Reading → Prop
  | .method name => stringToHttpMethod name ≠ .invalidMethod
  | .version name => known name = true
  | .backwards => False
  | _ => True

instance (known : List UInt8 → Bool) (reading : Reading) : Decidable (reading.Good known) :=
  match reading with
  | .method name => inferInstanceAs (Decidable (stringToHttpMethod name ≠ .invalidMethod))
  | .version name => inferInstanceAs (Decidable (known name = true))
  | .backwards => inferInstanceAs (Decidable False)
  | .field _ _ | .length _ | .size _ | .chunked => inferInstanceAs (Decidable True)

end Reading

/-- What has come of a header section. -/
structure Header where
  state : Nat
  queryStart : Nat
  /-- How many bytes the automaton has gone over, and those behind them. -/
  bytes : Nat
  remain : List UInt8
  readings : List Reading

namespace Header

def headers (header : Header) : MapType :=
  header.readings.foldl Reading.setHeader ∅

def length (header : Header) : Int :=
  header.readings.foldl Reading.setLength (-1)

def last (header : Header) : Bool :=
  header.readings.foldl Reading.setLast false

def chunked (header : Header) : Bool :=
  header.readings.any Reading.isChunked

/-- The body that a header announces under a name. -/
def declared (header : Header) (cast : List UInt8 → Option UInt64) (name : List UInt8) :
    UInt64 :=
  getAs cast header.headers name 0

end Header

/-- A grammar of headers: its automaton, what its actions read, the states that end a
header and the versions it knows. -/
structure HeaderGrammar (Action : Type u) where
  scanner : Scanner Action
  effect : Action → MarkEffect
  reading : List UInt8 → Occurrence Action → Option Reading
  start : Nat
  complete : Nat → Bool
  known : List UInt8 → Bool

namespace HeaderGrammar

variable {Action : Type u} (grammar : HeaderGrammar Action)

/-- The marks at the start of a piece. -/
def marks (header : Header) : Marks :=
  ⟨0, 0, 0, header.queryStart⟩

/-- Behind the end of the header or an error nothing is read. -/
def Ended (header : Header) : Prop :=
  header.state = grammar.scanner.error ∨ grammar.complete header.state = true

instance (header : Header) : Decidable (grammar.Ended header) :=
  inferInstanceAs (Decidable (_ ∨ _))

/-- One piece more. -/
def next (header : Header) (piece : List UInt8) : Header :=
  if grammar.Ended header then header
  else
    let data := header.remain ++ piece
    let scanned := grammar.scanner.scan header.state 0 data
    { state := scanned.state
      queryStart := (marksAfter grammar.effect (marks header) scanned.events).queryStart
      bytes := header.bytes + scanned.position
      remain := data.drop scanned.position
      readings := header.readings ++
        (occurrences grammar.effect (marks header) scanned.events).filterMap
          (grammar.reading data) }

/-- What the pieces are together. -/
def header (pieces : List (List UInt8)) : Header :=
  pieces.foldl grammar.next ⟨grammar.start, 0, 0, [], []⟩

/-- A whole header without an error. -/
def Accepts (header : Header) : Prop :=
  grammar.complete header.state = true ∧
    ∀ reading ∈ header.readings, reading.Good grammar.known

instance (header : Header) : Decidable (grammar.Accepts header) :=
  inferInstanceAs (Decidable (_ ∧ _))

theorem header_append (pieces : List (List UInt8)) (piece : List UInt8) :
    grammar.header (pieces ++ [piece]) = grammar.next (grammar.header pieces) piece := by
  rw [header, List.foldl_append]
  rfl

variable {grammar}

/-- What comes behind a header is not read. -/
theorem Accepts.header_append {pieces : List (List UInt8)}
    (accepts : grammar.Accepts (grammar.header pieces)) (piece : List UInt8) :
    grammar.header (pieces ++ [piece]) = grammar.header pieces := by
  rw [HeaderGrammar.header_append, next, if_pos (.inr accepts.1)]

theorem Accepts.append {pieces : List (List UInt8)}
    (accepts : grammar.Accepts (grammar.header pieces)) (piece : List UInt8) :
    grammar.Accepts (grammar.header (pieces ++ [piece])) := by
  rwa [accepts.header_append piece]

end HeaderGrammar

theorem toList_append_filterMap {Element : Type u} {Result : Type v}
    (reading : Element → Option Result) (head : Element) (tail : List Element) :
    (reading head).toList ++ tail.filterMap reading = (head :: tail).filterMap reading := by
  cases read : reading head with
  | none => rw [List.filterMap_cons_none read]; rfl
  | some result => rw [List.filterMap_cons_some read]; rfl

/-! ## Requests -/

def RequestAction.reading (data : List UInt8) (occurrence : Occurrence RequestAction) :
    Option Reading :=
  let marks := occurrence.marks
  let value := slice data marks.mark occurrence.position
  match occurrence.action with
  | .requestMethod => some (.method value)
  | .httpVersion => some (.version value)
  | .queryString => if marks.queryStart ≤ occurrence.position then none else some .backwards
  | .writeValue =>
      some (.field (slice data marks.fieldStart (marks.fieldStart + marks.fieldLen)) value)
  | _ => none

def requestGrammar (uriRelaxed : Bool) : HeaderGrammar RequestAction where
  scanner := requestScanner uriRelaxed
  effect := RequestAction.effect
  reading := RequestAction.reading
  start := requestStart
  complete state := requestFirstFinal ≤ state
  known name :=
    sameText name.length (text "HTTP/1.1") name || sameText name.length (text "HTTP/1.0") name

namespace HttpRequestParser

/-- What a parser has taken from readings. -/
structure Took (known : List UInt8 → Bool) (parser : HttpRequestParser)
    (readings : List Reading) (next : HttpRequestParser) : Prop where
  error : next.error = .ok ↔ parser.error = .ok ∧ ∀ reading ∈ readings, reading.Good known
  headers : next.data.headers = readings.foldl Reading.setHeader parser.data.headers

variable {known : List UInt8 → Bool} {uriRelaxed : Bool} {parser next : HttpRequestParser}

theorem took_nothing {same : HttpRequestParser} (error : same.error = parser.error)
    (headers : same.data.headers = parser.data.headers) : Took known parser [] same where
  error := by simp [error]
  headers := headers

theorem Took.trans {first second third : HttpRequestParser} {before behind : List Reading}
    (took : Took known first before second) (later : Took known second behind third) :
    Took known first (before ++ behind) third where
  error := by rw [later.error, took.error, List.forall_mem_append, and_assoc]
  headers := by rw [later.headers, took.headers, List.foldl_append]

theorem took_method (parser : HttpRequestParser) (value : List UInt8) :
    Took known parser [.method value] (parser.onRequestMethod value) := by
  refine ⟨?_, rfl⟩
  unfold onRequestMethod
  rw [List.forall_mem_singleton, Reading.Good]
  by_cases invalid : stringToHttpMethod value = .invalidMethod
  · simp [invalid]
  · simp [invalid]

theorem took_version (parser : HttpRequestParser) (value : List UInt8) :
    Took (requestGrammar uriRelaxed).known parser [.version value]
      (parser.onRequestVersion value) := by
  unfold onRequestVersion
  constructor
  · rw [List.forall_mem_singleton, Reading.Good, requestGrammar, Bool.or_eq_true]
    split
    · rename_i first
      simp [first]
    · rename_i other
      split
      · rename_i second
        simp [second]
      · rename_i unknown
        simp [other, unknown]
  · split
    · rfl
    · split <;> rfl

theorem took_field (parser : HttpRequestParser) (field value : List UInt8) :
    Took known parser [.field field value] (parser.onRequestHttpField field value) := by
  unfold onRequestHttpField
  constructor
  · rw [List.forall_mem_singleton]
    split <;> exact (and_iff_left trivial).symm
  · rw [List.foldl_cons, List.foldl_nil, Reading.setHeader]
    split <;> rfl

theorem perform_took {data : List UInt8} {occurrence : Occurrence RequestAction}
    (performed : perform data parser occurrence = some next) :
    Took (requestGrammar uriRelaxed).known parser
      (RequestAction.reading data occurrence).toList next := by
  unfold perform at performed
  unfold RequestAction.reading
  cases action : occurrence.action with
  | requestMethod =>
      simp only [action, Option.some.injEq] at performed
      exact performed ▸ took_method parser _
  | httpVersion =>
      simp only [action, Option.some.injEq] at performed
      exact performed ▸ took_version parser _
  | writeValue =>
      simp only [action, Option.some.injEq] at performed
      exact performed ▸ took_field parser _ _
  | queryString =>
      simp only [action] at performed ⊢
      split at performed
      · rename_i forward
        cases performed
        rw [if_pos forward]
        exact took_nothing rfl rfl
      · cases performed
  | _ =>
      simp only [action, Option.some.injEq] at performed
      exact performed ▸ took_nothing rfl rfl

/-- The only action that throws is that of a query that ends before its start. -/
theorem perform_none {data : List UInt8} {occurrence : Occurrence RequestAction}
    (threw : perform data parser occurrence = none) :
    RequestAction.reading data occurrence = some .backwards := by
  unfold perform at threw
  unfold RequestAction.reading
  cases action : occurrence.action with
  | queryString =>
      simp only [action] at threw ⊢
      split at threw
      · cases threw
      · rename_i behind
        exact if_neg behind
  | _ =>
      simp only [action] at threw
      cases threw

theorem performs_took {data : List UInt8} : ∀ {occurrences : List (Occurrence RequestAction)}
    {parser next : HttpRequestParser}, occurrences.foldlM (perform data) parser = some next →
      Took (requestGrammar uriRelaxed).known parser
        (occurrences.filterMap (RequestAction.reading data)) next
  | [], _, _, performed => by
      cases performed
      exact took_nothing rfl rfl
  | occurrence :: occurrences, parser, next, performed => by
      rw [List.foldlM_cons] at performed
      rcases Option.bind_eq_some_iff.mp performed with ⟨middle, first, rest⟩
      have took := (perform_took first).trans (performs_took rest)
      rwa [toList_append_filterMap] at took

theorem performs_none {data : List UInt8} : ∀ {occurrences : List (Occurrence RequestAction)}
    {parser : HttpRequestParser}, occurrences.foldlM (perform data) parser = none →
      .backwards ∈ occurrences.filterMap (RequestAction.reading data)
  | [], _, threw => by cases threw
  | occurrence :: occurrences, parser, threw => by
      rw [List.foldlM_cons] at threw
      cases first : perform data parser occurrence with
      | none =>
          rw [List.filterMap_cons_some (perform_none first)]
          exact List.mem_cons_self
      | some middle =>
          rw [first] at threw
          rw [← toList_append_filterMap]
          exact List.mem_append_right _ (performs_none threw)

/-- A parser of the header loop beside what has come. -/
structure Reflects (uriRelaxed : Bool) (parser : HttpRequestParser) (header : Header) :
    Prop where
  relaxed : parser.uriRelaxed = uriRelaxed
  cs : parser.cs = header.state
  queryStart : parser.queryStart = header.queryStart
  took : Took (requestGrammar uriRelaxed).known { uriRelaxed } header.readings parser

theorem reflects_start (uriRelaxed : Bool) :
    Reflects uriRelaxed { uriRelaxed } ((requestGrammar uriRelaxed).header []) :=
  ⟨rfl, rfl, rfl, took_nothing rfl rfl⟩

variable {header : Header} {piece : List UInt8}

theorem Reflects.getContentLength (reflects : Reflects uriRelaxed parser header)
    (cast : List UInt8 → Option UInt64) :
    parser.getContentLength cast = header.declared cast (text "content-length") := by
  rw [HttpRequestParser.getContentLength, reflects.took.headers]
  rfl

theorem Reflects.accepts (reflects : Reflects uriRelaxed parser header)
    (accepted : parser.hasError = false) (complete : parser.isFinished ≠ 0) :
    (requestGrammar uriRelaxed).Accepts header := by
  simp only [hasError, Bool.or_eq_false_iff, decide_eq_false_iff_not, not_not] at accepted
  rw [isFinished, if_neg accepted.2] at complete
  have final : requestFirstFinal ≤ parser.cs := by
    by_contra running
    exact complete (if_neg running)
  exact ⟨decide_eq_true (reflects.cs ▸ final), (reflects.took.error.mp accepted.1).2⟩

/-- One `execute` takes one piece more. -/
theorem Reflects.execute (reflects : Reflects uriRelaxed parser header)
    (waiting : ¬ ((requestGrammar uriRelaxed).Ended header)) {nparser : Nat}
    (executed : parser.execute (header.remain ++ piece) = some (next, nparser)) :
    Reflects uriRelaxed next ((requestGrammar uriRelaxed).next header piece) ∧
      ((requestGrammar uriRelaxed).next header piece).remain =
        (header.remain ++ piece).drop nparser := by
  rcases reflects with ⟨rfl, cs, queryStart, took⟩
  rcases Option.map_eq_some_iff.mp executed with ⟨performed, reached, result⟩
  cases result
  have marks_eq : parser.marks = HeaderGrammar.marks header := by
    rw [marks, queryStart]
    rfl
  have frame := performs_frame reached
  have performs := @performs_took parser.uriRelaxed _ _ _ _ reached
  rw [HeaderGrammar.next, if_neg waiting]
  rw [scan, cs, marks_eq] at reached performs ⊢
  refine ⟨⟨frame.uriRelaxed, rfl, ?_, ?_⟩, rfl⟩
  · rfl
  · have whole := took.trans performs
    exact ⟨whole.error, whole.headers⟩

theorem Reflects.execute_none (reflects : Reflects uriRelaxed parser header)
    (waiting : ¬ (requestGrammar uriRelaxed).Ended header)
    (threw : parser.execute (header.remain ++ piece) = none) :
    .backwards ∈ ((requestGrammar uriRelaxed).next header piece).readings := by
  rcases reflects with ⟨rfl, cs, queryStart, -⟩
  have marks_eq : parser.marks = HeaderGrammar.marks header := by
    rw [marks, queryStart]
    rfl
  have backwards := performs_none (Option.map_eq_none_iff.mp threw)
  rw [HeaderGrammar.next, if_neg waiting]
  rw [scan, cs, marks_eq] at backwards
  exact List.mem_append_right _ backwards

/-- A parser that is neither wrong nor finished waits for more. -/
theorem Reflects.waits (reflects : Reflects uriRelaxed parser header)
    (accepted : parser.hasError = false) (unfinished : parser.isFinished = 0) :
    ¬ (requestGrammar uriRelaxed).Ended header := by
  simp only [hasError, Bool.or_eq_false_iff, decide_eq_false_iff_not] at accepted
  rw [isFinished, if_neg accepted.2] at unfinished
  rintro (wrong | complete)
  · exact accepted.2 (reflects.cs.trans wrong)
  · rw [if_pos (reflects.cs ▸ of_decide_eq_true complete)] at unfinished
    cases unfinished

end HttpRequestParser

/-! ## Responses -/

def ResponseAction.reading (data : List UInt8) (occurrence : Occurrence ResponseAction) :
    Option Reading :=
  let marks := occurrence.marks
  let value := slice data marks.mark occurrence.position
  match occurrence.action with
  | .httpVersion => some (.version value)
  | .writeContentLen => some (.length (toInt32 (strtol 10 (data.drop marks.mark))))
  | .writeValue =>
      some (.field (slice data marks.fieldStart (marks.fieldStart + marks.fieldLen)) value)
  | .chunkSize => some (.size (toInt32 (strtol 16 (data.drop marks.mark))))
  | .transChunked => some .chunked
  | _ => none

/-- The grammar of response headers and of chunk-size lines. -/
def responseGrammar : HeaderGrammar ResponseAction where
  scanner := responseScanner
  effect := ResponseAction.effect
  reading := ResponseAction.reading
  start := responseStart
  complete state := state = responseFirstFinal
  known name :=
    sameText name.length name (text "HTTP/1.1") || sameText name.length name (text "HTTP/1.0")

namespace HttpResponseParser

/-- What a parser has taken from readings. -/
structure Took (parser : HttpResponseParser) (readings : List Reading)
    (next : HttpResponseParser) : Prop where
  error : next.error = .ok ↔
    parser.error = .ok ∧ ∀ reading ∈ readings, reading.Good responseGrammar.known
  headers : next.data.headers = readings.foldl Reading.setHeader parser.data.headers
  length : next.contentLen = readings.foldl Reading.setLength parser.contentLen
  last : next.chunksDone = readings.foldl Reading.setLast parser.chunksDone
  chunked : next.chunked = (parser.chunked || readings.any Reading.isChunked)

variable {parser next : HttpResponseParser}

theorem took_nothing {same : HttpResponseParser} (error : same.error = parser.error)
    (headers : same.data.headers = parser.data.headers)
    (length : same.contentLen = parser.contentLen) (last : same.chunksDone = parser.chunksDone)
    (chunked : same.chunked = parser.chunked) : Took parser [] same where
  error := by simp [error]
  headers := headers
  length := length
  last := last
  chunked := by simp [chunked]

theorem Took.trans {first second third : HttpResponseParser} {before behind : List Reading}
    (took : Took first before second) (later : Took second behind third) :
    Took first (before ++ behind) third where
  error := by rw [later.error, took.error, List.forall_mem_append, and_assoc]
  headers := by rw [later.headers, took.headers, List.foldl_append]
  length := by rw [later.length, took.length, List.foldl_append]
  last := by rw [later.last, took.last, List.foldl_append]
  chunked := by rw [later.chunked, took.chunked, List.any_append, Bool.or_assoc]

theorem took_version (parser : HttpResponseParser) (value : List UInt8) :
    Took parser [.version value] (parser.onResponseVersion value) := by
  unfold onResponseVersion
  split
  · rename_i first
    refine ⟨?_, rfl, rfl, rfl, (Bool.or_false _).symm⟩
    rw [List.forall_mem_singleton, Reading.Good, responseGrammar]
    simp [first]
  · rename_i other
    split
    · rename_i second
      refine ⟨?_, rfl, rfl, rfl, (Bool.or_false _).symm⟩
      rw [List.forall_mem_singleton, Reading.Good, responseGrammar]
      simp [second]
    · rename_i unknown
      refine ⟨?_, rfl, rfl, rfl, (Bool.or_false _).symm⟩
      rw [List.forall_mem_singleton, Reading.Good, responseGrammar]
      simp [other, unknown]

theorem took_field (parser : HttpResponseParser) (field value : List UInt8) :
    Took parser [.field field value] (parser.onResponseHttpField field value) := by
  unfold onResponseHttpField
  split
  · rename_i unnamed
    refine ⟨?_, ?_, rfl, rfl, (Bool.or_false _).symm⟩
    · rw [List.forall_mem_singleton]
      exact (and_iff_left trivial).symm
    · rw [List.foldl_cons, List.foldl_nil, Reading.setHeader, if_pos unnamed]
  · rename_i named
    refine ⟨?_, ?_, rfl, rfl, (Bool.or_false _).symm⟩
    · rw [List.forall_mem_singleton]
      exact (and_iff_left trivial).symm
    · rw [List.foldl_cons, List.foldl_nil, Reading.setHeader, if_neg named]
      rfl

theorem perform_took (data : List UInt8) (parser : HttpResponseParser)
    (occurrence : Occurrence ResponseAction) :
    Took parser (ResponseAction.reading data occurrence).toList
      (perform data parser occurrence) := by
  unfold perform ResponseAction.reading
  cases action : occurrence.action with
  | httpVersion => exact took_version parser _
  | writeValue => exact took_field parser _ _
  | writeContentLen =>
      refine ⟨?_, rfl, rfl, rfl, (Bool.or_false _).symm⟩
      exact (and_iff_left (List.forall_mem_singleton.mpr trivial)).symm
  | chunkSize =>
      refine ⟨?_, rfl, rfl, rfl, (Bool.or_true _).symm⟩
      exact (and_iff_left (List.forall_mem_singleton.mpr trivial)).symm
  | transChunked =>
      refine ⟨?_, rfl, rfl, rfl, (Bool.or_true _).symm⟩
      exact (and_iff_left (List.forall_mem_singleton.mpr trivial)).symm
  | _ => exact took_nothing rfl rfl rfl rfl rfl

theorem performs_took (data : List UInt8) :
    ∀ (occurrences : List (Occurrence ResponseAction)) (parser : HttpResponseParser),
      Took parser (occurrences.filterMap (ResponseAction.reading data))
        (occurrences.foldl (perform data) parser)
  | [], _ => took_nothing rfl rfl rfl rfl rfl
  | occurrence :: occurrences, parser => by
      have took := (perform_took data parser occurrence).trans
        (performs_took data occurrences _)
      rwa [toList_append_filterMap] at took

/-- A parser of the header loop, or of a chunk-size line, beside what has come since a
parser from which it started. -/
structure Reflects (parser first : HttpResponseParser) (header : Header) : Prop where
  cs : parser.cs = header.state
  queryStart : header.queryStart = 0
  took : Took first header.readings parser

theorem reflects_start {first : HttpResponseParser} (new : first.cs = responseStart) :
    first.Reflects first (responseGrammar.header []) :=
  ⟨new, rfl, took_nothing rfl rfl rfl rfl rfl⟩

variable {first : HttpResponseParser} {header : Header} {piece : List UInt8}

theorem queryStart_after : ∀ (events : List (Nat × ResponseAction)) (marks : Marks),
    (marksAfter ResponseAction.effect marks events).queryStart = marks.queryStart
  | [], _ => rfl
  | (position, action) :: events, marks => by
      rw [marksAfter, queryStart_after events]
      cases action <;> rfl

/-- One scan takes one piece more. -/
theorem Reflects.run (reflects : parser.Reflects first header) (piece : List UInt8)
    (waiting : ¬ responseGrammar.Ended header) (nonempty : header.remain ++ piece ≠ []) :
    (parser.run (header.remain ++ piece)).1.Reflects first
        (responseGrammar.next header piece) ∧
      (responseGrammar.next header piece).remain =
        (header.remain ++ piece).drop (parser.run (header.remain ++ piece)).2.toNat := by
  rcases reflects with ⟨cs, queryStart, took⟩
  have marks_eq : marks = HeaderGrammar.marks header := by
    rw [HeaderGrammar.marks, queryStart]
    rfl
  have performs := performs_took (header.remain ++ piece)
    (occurrences ResponseAction.effect marks (parser.scan (header.remain ++ piece)).events) parser
  rw [HttpResponseParser.run, if_neg (by simpa using nonempty), HeaderGrammar.next,
    if_neg waiting]
  rw [scan, cs, marks_eq] at performs ⊢
  refine ⟨⟨rfl, ?_, ?_⟩, rfl⟩
  · exact (queryStart_after _ _).trans queryStart
  · have whole := took.trans performs
    exact ⟨whole.error, whole.headers, whole.length, whole.last, whole.chunked⟩

theorem Reflects.getContentLength (reflects : parser.Reflects {} header)
    (cast : List UInt8 → Option UInt64) :
    parser.getContentLength cast = header.declared cast (text "Content-Length") := by
  rw [HttpResponseParser.getContentLength, reflects.took.headers]
  rfl

theorem Reflects.good (reflects : parser.Reflects first header)
    (accepted : parser.hasError = false) :
    header.state ≠ responseError ∧
      ∀ reading ∈ header.readings, reading.Good responseGrammar.known := by
  simp only [hasError, Bool.or_eq_false_iff, decide_eq_false_iff_not, not_not] at accepted
  exact ⟨reflects.cs ▸ accepted.2, (reflects.took.error.mp accepted.1).2⟩

theorem ok_of_hasError (accepted : parser.hasError = false) : parser.error = .ok := by
  simp only [hasError, Bool.or_eq_false_iff, decide_eq_false_iff_not, not_not] at accepted
  exact accepted.1

theorem Reflects.hasError (reflects : parser.Reflects first header) (ok : first.error = .ok) :
    parser.hasError = true ↔ header.state = responseError ∨
      ¬ ∀ reading ∈ header.readings, reading.Good responseGrammar.known := by
  rw [HttpResponseParser.hasError, Bool.or_eq_true, decide_eq_true_iff, decide_eq_true_iff,
    reflects.cs, ne_eq, reflects.took.error, or_comm]
  simp [ok]

theorem Reflects.complete (reflects : parser.Reflects first header)
    (accepted : parser.hasError = false) :
    parser.isFinished = if header.state = responseFirstFinal then 1 else 0 := by
  rw [isFinished, reflects.cs, if_neg (reflects.good accepted).1]

theorem Reflects.accepts_iff (reflects : parser.Reflects first header) (ok : first.error = .ok) :
    responseGrammar.Accepts header ↔ parser.hasError = false ∧ parser.isFinished ≠ 0 := by
  constructor
  · rintro ⟨final, good⟩
    have state : header.state = responseFirstFinal := of_decide_eq_true final
    have accepted : parser.hasError = false := by
      rw [← Bool.not_eq_true, reflects.hasError ok, state]
      simpa [responseFirstFinal, responseError] using good
    refine ⟨accepted, ?_⟩
    rw [reflects.complete accepted, if_pos state]
    decide
  · rintro ⟨accepted, complete⟩
    rw [reflects.complete accepted] at complete
    refine ⟨decide_eq_true ?_, (reflects.good accepted).2⟩
    by_contra running
    exact complete (if_neg running)

theorem Reflects.waits (reflects : parser.Reflects first header)
    (accepted : parser.hasError = false) (unfinished : parser.isFinished = 0) :
    ¬ responseGrammar.Ended header := by
  rintro (wrong | complete)
  · exact (reflects.good accepted).1 wrong
  · rw [reflects.complete accepted, if_pos (of_decide_eq_true complete)] at unfinished
    cases unfinished

/-- The scan of a chunk-size line starts anew. -/
theorem reflects_line (parser : HttpResponseParser) (buffer : List UInt8)
    (nonempty : buffer ≠ []) :
    (parser.execute buffer true).1.Reflects parser.init (responseGrammar.header [buffer]) ∧
      (responseGrammar.header [buffer]).remain =
        buffer.drop (parser.execute buffer true).2.toNat := by
  have start : parser.init.Reflects parser.init (responseGrammar.header []) := reflects_start rfl
  exact start.run buffer (by decide) nonempty

end HttpResponseParser

namespace ResponseCall

variable (settings : Settings)

/-- The lines of the chunks in the buffer, up to the first chunk that is not all there. -/
def chunkLines : (fuel : Nat) → List UInt8 → List Header
  | 0, _ => []
  | fuel + 1, buffer =>
      if buffer.isEmpty then []
      else
        let line := responseGrammar.header [buffer]
        if line.state = responseError ∨
            ¬ (∀ reading ∈ line.readings, reading.Good responseGrammar.known) ∨
            settings.responseHeaderSize ≤ line.remain.length then []
        else if line.state ≠ responseFirstFinal then chunkLines fuel line.remain
        else
          line ::
            if line.length + 2 ≤ line.remain.length ∧ ¬ line.last then
              chunkLines fuel (line.remain.drop (line.length.toNat + 2))
            else []

variable {settings}

/-- The parser reports the sizes of these lines. -/
theorem chunkSizes_eq (small : settings.responseHeaderSize < 2 ^ 31) : ∀ (fuel : Nat)
    {parser : HttpResponseParser} (buffer : List UInt8), parser.error = .ok →
      chunkSizes settings fuel parser buffer =
        (chunkLines settings fuel buffer).map Header.length := by
  intro fuel
  induction fuel with
  | zero => intro _ _ _; rfl
  | succ fuel induction =>
      intro parser buffer ok
      unfold chunkSizes chunkLines
      split
      · rfl
      · rename_i empty
        rcases parser.reflects_line buffer (fun equal => empty (equal ▸ rfl)) with
          ⟨reflects, remain⟩
        revert reflects remain
        generalize responseGrammar.header [buffer] = line
        generalize parser.execute buffer true = executed
        rcases executed with ⟨performed, nparser⟩
        intro reflects remain
        dsimp only at reflects remain ⊢
        rw [← remain, @toInt32_of_lt settings.responseHeaderSize (Int.natCast_nonneg _) (by omega)]
        have refused_iff : (performed.hasError = true ∨
            (settings.responseHeaderSize : Int) ≤ line.remain.length) ↔
            line.state = responseError ∨
              ¬ (∀ reading ∈ line.readings, reading.Good responseGrammar.known) ∨
              settings.responseHeaderSize ≤ line.remain.length := by
          rw [reflects.hasError ok, or_assoc, Int.ofNat_le]
        split
        · rename_i refused
          rw [if_pos (refused_iff.mp refused)]
          rfl
        · rename_i kept
          rw [if_neg fun refused => kept (refused_iff.mpr refused)]
          have accepted : performed.hasError = false := by
            rw [← Bool.not_eq_true]
            exact fun wrong => kept (.inl wrong)
          have fine := HttpResponseParser.ok_of_hasError accepted
          rw [reflects.complete accepted]
          by_cases complete : line.state = responseFirstFinal
          · rw [if_neg (by simp [complete]), if_neg (not_not.mpr complete), List.map_cons,
              show performed.contentLen = line.length from reflects.took.length,
              show performed.chunksDone = line.last from reflects.took.last]
            split
            · rw [induction _ fine]
            · rfl
          · rw [if_pos (if_neg complete), if_pos complete]
            exact induction _ fine

end ResponseCall

end Http

end FiberNet
