import FiberNet.Http.RequestPieces

/-! # A request that is printed and received

`HttpRequest::dump` writes what the parser reads, but for the line with the length of a body:
there the space stands before the colon, and no header name goes on behind a space.
-/

namespace FiberNet

namespace Http

namespace HttpRequest

/-- What a received request has of the request that was sent. The connection and the length
header may have been added. -/
structure GivenBack (request received : HttpRequest) : Prop where
  method : received.method = request.method
  version : received.version = request.version
  path : received.path = request.path
  query : received.query = request.query
  fragment : received.fragment = request.fragment
  close : received.close = request.close
  body : received.body = request.body
  headers : (received.headers.erase (text "connection")).erase (text "content-length") =
    request.headers

/-- The value of the connection header that `dump` adds. -/
def connection (request : HttpRequest) : List UInt8 :=
  text (if request.close then "close" else "keep-alive")

/-- The headers that `dump` writes, without the length. -/
def sentHeaders (request : HttpRequest) : MapType :=
  if request.webSocket then request.headers
  else request.headers.set (text "Connection") request.connection

/-- What the parser makes of the start line and the headers. -/
def parsed (request : HttpRequest) (uri : List UInt8) : HttpRequest where
  method := request.method
  version := request.version
  path := request.path
  query := request.query
  fragment := request.fragment
  uri := uri
  headers := request.sentHeaders

/-- The start line and the header lines. -/
def headerSection (request : HttpRequest) : List UInt8 :=
  request.startLine ++
    (request.headers.entries.map fun entry => headerLine entry.1 entry.2).flatten ++
    (if request.webSocket then [] else headerLine (text "Connection") request.connection)

theorem dump_eq {uriRelaxed : Bool} {request : HttpRequest}
    (sendable : request.Sendable uriRelaxed) :
    request.dump = request.headerSection ++
      (if request.body.isEmpty then text "\r\n"
      else text "Content-length :" ++ decimal request.body.length ++ text "\r\n\r\n" ++
        request.body) := by
  unfold dump headerSection
  rw [headerLines_eq sendable.connection]
  rfl

end HttpRequest

/-- A request that is sent and received in one read is given back. -/
def RoundTrips (settings : Settings) (request : HttpRequest) : Prop :=
  ∃ received, (recvRequest settings).runUntil RequestCall.outcome (RequestCall.start settings)
      [.bytes request.dump] = some (.returned received, []) ∧
    request.GivenBack received

section

variable {settings : Settings} {request : HttpRequest} {data behind : List UInt8}

theorem plain_connection (request : HttpRequest) :
    PlainHeader (text "Connection") request.connection := by
  unfold HttpRequest.connection
  cases request.close
  · exact ⟨by decide, List.all_eq_true.mp (by decide), List.all_eq_true.mp (by decide), by decide⟩
  · exact ⟨by decide, List.all_eq_true.mp (by decide), List.all_eq_true.mp (by decide), by decide⟩

theorem consumed_headerSection {uriRelaxed : Bool} (sendable : request.Sendable uriRelaxed)
    (known : request.version ∈ [(10 : UInt8), 11])
    (split : data = request.headerSection ++ behind) :
    ∃ marks uri, (requestRun uriRelaxed data).Consumed request.headerSection 13 marks
      { uriRelaxed, data := request.parsed uri } := by
  unfold HttpRequest.parsed
  unfold HttpRequest.headerSection HttpRequest.sentHeaders at *
  have start := @consumed_startLine _ data
    ((request.headers.entries.map fun entry => headerLine entry.1 entry.2).flatten ++
      ((if request.webSocket then [] else headerLine (text "Connection") request.connection) ++
        behind)) _ sendable known (by rw [split]; simp only [List.append_assoc])
  rcases start with ⟨_, uri, start⟩
  have lines := @consumed_entries _ data _
    ((if request.webSocket then [] else headerLine (text "Connection") request.connection) ++
      behind) _ _ _ sendable.headers start (by rw [split]; simp only [List.append_assoc])
  rcases lines with ⟨_, lines⟩
  rw [OrderedMap.foldl_set_empty] at lines
  cases webSocket : request.webSocket with
  | true =>
      rw [if_pos rfl, if_pos rfl, List.append_nil]
      exact ⟨_, uri, lines⟩
  | false =>
      rw [webSocket] at split
      rcases consumed_headerLine (plain_connection request) lines split with ⟨marks, whole⟩
      exact ⟨marks, uri, whole⟩

/-! ## One read -/

theorem runUntil_one (nonempty : data ≠ []) (fits : data.length ≤ settings.requestHeaderSize) :
    (recvRequest settings).runUntil RequestCall.outcome (RequestCall.start settings)
        [.bytes data] =
      (recvRequest settings).runUntil RequestCall.outcome
        (RequestCall.parseHeader settings (.fresh settings.uriRelaxed) data) [] := by
  have positive := List.length_pos_of_ne_nil nonempty
  rw [RequestCall.start_eq (Nat.lt_of_lt_of_le positive fits),
    Machine.runUntil_step rfl (RequestCall.step_header nonempty fits)]

/-- A request at which the automaton fails is not returned. -/
theorem not_returned (nonempty : data ≠ []) (fits : data.length ≤ settings.requestHeaderSize)
    (failed : ((requestScanner settings.uriRelaxed).scan requestStart 0 data).state =
      requestError) (received : HttpRequest) :
    (recvRequest settings).runUntil RequestCall.outcome (RequestCall.start settings)
      [.bytes data] ≠ some (.returned received, []) := by
  rw [runUntil_one nonempty fits]
  unfold RequestCall.parseHeader
  cases executed : (HttpRequestParser.fresh settings.uriRelaxed).execute data with
  | none =>
      intro returned
      cases returned
  | some result =>
      rcases result with ⟨parser, nparser⟩
      have state : parser.cs = requestError :=
        (HttpRequestParser.execute_scan executed).1.trans failed
      have error : parser.hasError = true := by
        rw [HttpRequestParser.hasError, state]
        exact Bool.or_true _
      dsimp only
      rw [error, if_pos rfl, RequestCall.checked]
      split <;> intro returned <;> cases returned

theorem dump_ne_nil (request : HttpRequest) : request.dump ≠ [] := by
  intro empty
  have length := congrArg List.length empty
  unfold HttpRequest.dump HttpRequest.startLine at length
  simp [text] at length

/-- Only the versions 1.0 and 1.1 are in the grammar. -/
theorem failed_version {uriRelaxed : Bool} (sendable : request.Sendable uriRelaxed)
    (unknown : request.version ∉ [(10 : UInt8), 11]) :
    ((requestScanner uriRelaxed).scan requestStart 0 request.dump).state = requestError := by
  have start : ∃ behind, request.dump = request.lead ++ (versionText request.version ++ behind) := by
    rw [HttpRequest.dump_eq sendable, HttpRequest.headerSection, startLine_eq sendable]
    simp only [List.append_assoc]
    exact ⟨_, rfl⟩
  rcases start with ⟨behind, split⟩
  have lead := @consumed_lead _ request.dump (versionText request.version ++ behind) _ sendable
    split
  rcases lead with ⟨_, _, lead⟩
  have shifted := (requestScanner uriRelaxed).scan_shift request.lead.length 4 0
    (versionText request.version ++ behind)
  have scanned := lead.scan (versionText request.version ++ behind)
  rw [← split] at scanned
  rw [Nat.zero_add] at shifted
  exact scanned.trans ((congrArg Scan.state shifted).trans (scan_version _ unknown behind))

/-- The line of the length has a space where the grammar wants the colon. -/
theorem failed_length {uriRelaxed : Bool} (sendable : request.Sendable uriRelaxed)
    (known : request.version ∈ [(10 : UInt8), 11]) (body : request.body ≠ []) :
    ((requestScanner uriRelaxed).scan requestStart 0 request.dump).state = requestError := by
  have start : ∃ behind, request.dump =
      request.headerSection ++ (text "Content-length" ++ 32 :: behind) := by
    rw [HttpRequest.dump_eq sendable, List.isEmpty_eq_false_iff.mpr body,
      if_neg Bool.false_ne_true, List.append_assoc, List.append_assoc]
    exact ⟨_, rfl⟩
  rcases start with ⟨behind, split⟩
  have lines := consumed_headerSection sendable known split
  rcases lines with ⟨_, _, lines⟩
  have scanned := lines.scan (text "Content-length" ++ 32 :: behind)
  rw [← split] at scanned
  have name := @walks_name uriRelaxed (text "Content-length") (by decide)
    (List.all_eq_true.mp (by decide))
    request.headerSection.length
  rcases move_line uriRelaxed with ⟨_, _, _, _, _, _, _, rejected⟩
  apply scanned.trans
  show ((requestScanner uriRelaxed).scan 13 request.headerSection.length _).state = _
  rw [name.scan_append, Scanner.scan_error rejected]
  rfl

theorem finished_final {parser : HttpRequestParser} (state : parser.cs = requestFirstFinal) :
    parser.isFinished ≠ 0 := by
  rw [HttpRequestParser.isFinished, state]
  decide

/-- Without a length header there is no body. -/
theorem afterHeader_absent {parser : HttpRequestParser}
    (absent : parser.data.headers.find (text "content-length") = none) (remain : List UInt8) :
    RequestCall.afterHeader settings parser remain = RequestCall.finish parser.data := by
  have zero : parser.getContentLength settings.lexicalCast = 0 := by
    rw [HttpRequestParser.getContentLength, getAs, absent]
    rfl
  have length := toInt64_le 0
  rw [RequestCall.afterHeader, zero]
  exact if_neg (Int.not_lt.mpr length)

theorem find_sentHeaders {uriRelaxed : Bool} (sendable : request.Sendable uriRelaxed) :
    request.sentHeaders.find (text "content-length") = none := by
  unfold HttpRequest.sentHeaders
  split
  · exact OrderedMap.find_of_absent sendable.length
  · rw [OrderedMap.find_set_other _ _ (by decide)]
    exact OrderedMap.find_of_absent sendable.length

/-- What is returned for a request without a body. -/
theorem runUntil_dump (sendable : request.Sendable settings.uriRelaxed)
    (fits : request.dump.length ≤ settings.requestHeaderSize)
    (known : request.version ∈ [(10 : UInt8), 11]) (empty : request.body = []) :
    ∃ uri, (recvRequest settings).runUntil RequestCall.outcome (RequestCall.start settings)
        [.bytes request.dump] =
      some (.returned (request.parsed uri).init.initParam, []) := by
  have split : request.dump = request.headerSection ++ text "\r\n" := by
    rw [HttpRequest.dump_eq sendable, empty]
    rfl
  rcases consumed_headerSection sendable known split with ⟨marks, uri, consumed⟩
  have executed := execute_complete consumed split
  have positive := List.length_pos_of_ne_nil (dump_ne_nil request)
  refine ⟨uri, ?_⟩
  rw [runUntil_one (dump_ne_nil request) fits,
    RequestCall.parseHeader_eq executed rfl positive fits, if_pos (finished_final rfl),
    afterHeader_absent (find_sentHeaders sendable)]
  apply Machine.runUntil_result
  rfl

/-! ## The round trip -/

/-- The header that `dump` writes is the one that `init` reads. -/
theorem folded_connection : folded (text "connection") = folded (text "Connection") := by
  decide

/-- The close flag comes back only through the connection header. -/
theorem close_received {uriRelaxed : Bool} (sendable : request.Sendable uriRelaxed)
    (uri : List UInt8) :
    (request.parsed uri).init.initParam.close = (request.webSocket || request.close) := by
  rw [HttpRequest.close_initParam]
  unfold HttpRequest.init HttpRequest.getHeader HttpRequest.parsed HttpRequest.sentHeaders
  cases request.webSocket with
  | true =>
      rw [if_pos rfl, OrderedMap.find_of_absent sendable.connection]
      rfl
  | false =>
      rw [if_neg Bool.false_ne_true, OrderedMap.find_congr folded_connection,
        OrderedMap.find_set_same]
      unfold HttpRequest.connection
      cases request.close <;> rfl

theorem headers_received {uriRelaxed : Bool} (sendable : request.Sendable uriRelaxed) :
    (request.sentHeaders.erase (text "connection")).erase (text "content-length") =
      request.headers := by
  have erased : request.sentHeaders.erase (text "connection") = request.headers := by
    unfold HttpRequest.sentHeaders
    split
    · exact OrderedMap.erase_of_absent sendable.connection
    · rw [OrderedMap.erase_congr folded_connection, OrderedMap.erase_set,
        ← OrderedMap.erase_congr folded_connection]
      exact OrderedMap.erase_of_absent sendable.connection
  rw [erased, OrderedMap.erase_of_absent sendable.length]

/-- A request that fits one read is given back if and only if it has no body, its version is in
the grammar, and a connection that is to be kept alive is announced. -/
theorem roundTrips_iff (sendable : request.Sendable settings.uriRelaxed)
    (fits : request.dump.length ≤ settings.requestHeaderSize) :
    RoundTrips settings request ↔
      request.body = [] ∧ (request.version = 10 ∨ request.version = 11) ∧
        (request.webSocket = true → request.close = true) := by
  constructor
  · rintro ⟨received, returned, given⟩
    have known : request.version ∈ [(10 : UInt8), 11] := by
      by_contra unknown
      exact not_returned (dump_ne_nil request) fits (failed_version sendable unknown) _ returned
    have empty : request.body = [] := by
      by_contra body
      exact not_returned (dump_ne_nil request) fits (failed_length sendable known body) _ returned
    rcases runUntil_dump sendable fits known empty with ⟨uri, ran⟩
    rw [ran] at returned
    cases returned
    refine ⟨empty, List.mem_pair.mp known, fun webSocket => ?_⟩
    rw [← given.close, close_received sendable, webSocket]
    rfl
  · rintro ⟨empty, version, close⟩
    rcases runUntil_dump sendable fits (List.mem_pair.mpr version) empty with ⟨uri, ran⟩
    refine ⟨_, ran, ?_⟩
    have unchanged := HttpRequest.unchanged_received (request.parsed uri)
    refine ⟨unchanged.method, unchanged.version, unchanged.path, unchanged.query,
      unchanged.fragment, ?_, unchanged.body.trans empty.symm, ?_⟩
    · rw [close_received sendable]
      cases webSocket : request.webSocket with
      | true => exact (close webSocket).symm
      | false => rfl
    · rw [unchanged.headers]
      exact headers_received sendable

end

/-- A request with all the parts, and any body. -/
def searchRequest (body : List UInt8) : HttpRequest where
  close := false
  path := text "/s%20t"
  query := text "w=1"
  fragment := text "top"
  headers := (∅ : MapType).set (text "Host") (text "www.baidu.com")
  body := body

theorem searchRequest_sendable (uriRelaxed : Bool) (body : List UInt8) :
    (searchRequest body).Sendable uriRelaxed where
  scheme := rfl
  method := show HttpMethod.get ≠ .connect by decide
  name := show (text "GET").length ≤ 20 ∧ ∀ byte ∈ text "GET", within methodByte byte = true from
    ⟨by decide, List.all_eq_true.mp (by decide)⟩
  path := by
    refine ⟨text "s%20t", rfl, by decide, ?_⟩
    apply Encoded.byte (by cases uriRelaxed <;> decide)
    apply Encoded.escape (by decide) (by decide)
    exact .byte (by cases uriRelaxed <;> decide) .nil
  query := by
    apply Encoded.byte (by cases uriRelaxed <;> decide)
    apply Encoded.byte (by cases uriRelaxed <;> decide)
    exact .byte (by cases uriRelaxed <;> decide) .nil
  fragment := by
    apply Encoded.byte (by cases uriRelaxed <;> decide)
    apply Encoded.byte (by cases uriRelaxed <;> decide)
    exact .byte (by cases uriRelaxed <;> decide) .nil
  headers := by
    intro entry member
    cases List.mem_singleton.mp member
    exact ⟨by decide, List.all_eq_true.mp (by decide), List.all_eq_true.mp (by decide), by decide⟩
  connection := by
    intro entry member
    cases List.mem_singleton.mp member
    decide
  length := by
    intro entry member
    cases List.mem_singleton.mp member
    decide

theorem roundTrips_search : RoundTrips defaultSettings (searchRequest []) :=
  (roundTrips_iff (searchRequest_sendable _ []) (by decide)).mpr
    ⟨rfl, .inr rfl, fun _ => by contradiction⟩

/-- With a body the same request is refused. -/
theorem not_roundTrips :
    (searchRequest (text "Hello World")).Sendable defaultSettings.uriRelaxed ∧
    (searchRequest (text "Hello World")).dump.length ≤ defaultSettings.requestHeaderSize ∧
    ¬ RoundTrips defaultSettings (searchRequest (text "Hello World")) := by
  have sendable := searchRequest_sendable defaultSettings.uriRelaxed (text "Hello World")
  have fits : (searchRequest (text "Hello World")).dump.length ≤
      defaultSettings.requestHeaderSize := by decide
  refine ⟨sendable, fits, ?_⟩
  rintro ⟨received, returned, _⟩
  have failed := failed_length sendable (by decide) (by decide)
  exact not_returned (dump_ne_nil _) fits failed received returned

end Http

end FiberNet
