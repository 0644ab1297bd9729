import FiberNet.Http.Framing
import FiberNet.Http.Pieces

/-! # The pieces of a printed request

`HttpRequest::dump` writes a start line and header lines. What the grammar of the parser
admits in them is read back, piece by piece.
-/

namespace FiberNet

namespace Http

/-! ## What the grammar admits -/

/-- `unreserved`, `sub_delims`, `":"` and `"@"`, and what is not ASCII. -/
def pchar (uriRelaxed : Bool) : List (Nat × Nat) :=
  [(128, 255)] ++ alpha ++ digit ++ [(45, 46), (95, 95), (126, 126)] ++
    [(33, 33), (36, 36), (38, 44), (59, 59), (61, 61)] ++
    (if uriRelaxed then relaxedDelims else []) ++ [(58, 58), (64, 64)]

/-- Bytes of a class, with `%` and two hexadecimal digits between them. -/
inductive Encoded (plain : UInt8 → Bool) : List UInt8 → Prop
  | nil : Encoded plain []
  | byte {byte bytes} : plain byte = true → Encoded plain bytes → Encoded plain (byte :: bytes)
  | escape {high low bytes} : isHex high = true → isHex low = true → Encoded plain bytes →
      Encoded plain (37 :: high :: low :: bytes)

/-- A path that begins with one slash. -/
def AbsolutePath (uriRelaxed : Bool) (path : List UInt8) : Prop :=
  ∃ segments, path = 47 :: segments ∧ segments.head? ≠ some 47 ∧
    Encoded (within (pchar uriRelaxed ++ byte 47)) segments

/-- A query or a fragment. -/
def QueryText (uriRelaxed : Bool) (query : List UInt8) : Prop :=
  Encoded (within (pchar uriRelaxed ++ [(47, 47), (63, 63), (124, 124)])) query

/-- A header line whose name is a token and whose value has no control characters and no
leading blank. -/
structure PlainHeader (name value : List UInt8) : Prop where
  nonempty : name ≠ []
  letters : ∀ byte ∈ name, within token byte = true
  visible : ∀ byte ∈ value, within [(32, 126), (128, 255)] byte = true
  leading : value.head? ≠ some 32

/-- The requests that the grammar can express. -/
structure HttpRequest.Sendable (uriRelaxed : Bool) (request : HttpRequest) : Prop where
  scheme : request.scheme = []
  method : request.method ≠ .connect
  name : (httpMethodToString request.method).length ≤ 20 ∧
    ∀ byte ∈ httpMethodToString request.method, within methodByte byte = true
  path : AbsolutePath uriRelaxed request.path
  query : QueryText uriRelaxed request.query
  fragment : QueryText uriRelaxed request.fragment
  headers : ∀ entry ∈ request.headers.entries, PlainHeader entry.1 entry.2
  connection : ∀ entry ∈ request.headers.entries, folded entry.1 ≠ folded (text "connection")
  length : ∀ entry ∈ request.headers.entries,
    folded entry.1 ≠ folded (text "content-length")

/-! ## Walks through the automaton -/

section

variable {Action : Type} {scanner : Scanner Action} {first state percent half : Nat}
  {actions : List Action} {plain : UInt8 → Bool} {bytes : List UInt8}
  (stays : ∀ byte, plain byte = true → scanner.move state byte = some ([], state))
  (again : scanner.move state 37 = some ([], percent))
  (high : ∀ byte, isHex byte = true → scanner.move percent byte = some ([], half))
  (low : ∀ byte, isHex byte = true → scanner.move half byte = some ([], state))

include stays again high low

/-- The loop over encoded bytes. -/
theorem walks_encoded (encoded : Encoded plain bytes) (position : Nat) :
    scanner.Walks state position bytes state [] := by
  induction encoded generalizing position with
  | nil => exact Scanner.walks_nil state position
  | byte member _ induction =>
      exact (Scanner.walks_byte (stays _ member) rfl position).append (induction _)
  | escape first second _ induction =>
      have escape := (Scanner.walks_byte again rfl position).append
        ((Scanner.walks_byte (high _ first) rfl _).append
          (Scanner.walks_byte (low _ second) rfl _))
      exact escape.append (induction _)

/-- The loop with the state before it, whose edges do something. -/
theorem walks_encoded_from
    (begins : ∀ byte, plain byte = true → bytes.head? = some byte →
      scanner.move first byte = some (actions, state))
    (opens : scanner.move first 37 = some (actions, percent))
    (onward : actions.any scanner.stops = false)
    (encoded : Encoded plain bytes) (some : bytes ≠ []) (position : Nat) :
    scanner.Walks first position bytes state
      (actions.map fun action => (position, action)) := by
  have rest {bytes : List UInt8} := @walks_encoded _ _ _ _ _ _ bytes stays again high low
  cases encoded with
  | nil => exact absurd rfl some
  | byte member encoded =>
      have walks := (Scanner.walks_byte (begins _ member rfl) onward position).append
        (rest encoded _)
      rwa [List.append_nil] at walks
  | escape first second encoded =>
      have walks := (Scanner.walks_byte opens onward position).append
        ((Scanner.walks_byte (high _ first) rfl _).append
          ((Scanner.walks_byte (low _ second) rfl _).append (rest encoded _)))
      simpa using walks

end

theorem within_append {first second : List (Nat × Nat)} {byte : UInt8} :
    within (first ++ second) byte = (within first byte || within second byte) :=
  List.any_append

theorem within_of_isHex {byte : UInt8} (hex : isHex byte = true) : within xdigit byte = true := by
  unfold isHex at hex
  simpa [within, xdigit, or_assoc] using hex

/-- The bytes of a path. -/
theorem leads_path (uriRelaxed : Bool) :
    (∀ range ∈ pchar uriRelaxed,
      (requestScanner uriRelaxed).leads 33 range = some ([], 26)) ∧
    ∀ range ∈ pchar uriRelaxed ++ Http.byte 47,
      (requestScanner uriRelaxed).leads 26 range = some ([], 26) := by
  cases uriRelaxed <;> decide

/-- The bytes of a query and of a fragment. -/
theorem leads_query (uriRelaxed : Bool) :
    ∀ range ∈ pchar uriRelaxed ++ [(47, 47), (63, 63), (124, 124)],
      (requestScanner uriRelaxed).leads 29 range = some ([.startQuery], 30) ∧
      (requestScanner uriRelaxed).leads 30 range = some ([], 30) ∧
      (requestScanner uriRelaxed).leads 20 range = some ([.mark], 21) ∧
      (requestScanner uriRelaxed).leads 21 range = some ([], 21) := by
  cases uriRelaxed <;> decide

theorem leads_hex (uriRelaxed : Bool) : ∀ range ∈ xdigit,
    (requestScanner uriRelaxed).leads 27 range = some ([], 28) ∧
    (requestScanner uriRelaxed).leads 28 range = some ([], 26) ∧
    (requestScanner uriRelaxed).leads 31 range = some ([], 32) ∧
    (requestScanner uriRelaxed).leads 32 range = some ([], 30) ∧
    (requestScanner uriRelaxed).leads 22 range = some ([], 23) ∧
    (requestScanner uriRelaxed).leads 23 range = some ([], 21) := by
  cases uriRelaxed <;> decide

/-- The bytes of a name. -/
theorem leads_field (uriRelaxed : Bool) : ∀ range ∈ token,
    (requestScanner uriRelaxed).leads 13 range = some ([.startField], 14) ∧
    (requestScanner uriRelaxed).leads 14 range = some ([], 14) := by
  cases uriRelaxed <;> decide

/-- The bytes of a value, with a space only behind the first. -/
theorem leads_value (uriRelaxed : Bool) :
    (∀ range ∈ [(33, 126), (128, 255)],
      (requestScanner uriRelaxed).leads 15 range = some ([.startValue], 16)) ∧
    ∀ range ∈ [(32, 126), (128, 255)],
      (requestScanner uriRelaxed).leads 16 range = some ([], 16) := by
  cases uriRelaxed <;> decide

section

variable {uriRelaxed : Bool} {byte : UInt8}

theorem move_path (member : within (pchar uriRelaxed ++ Http.byte 47) byte = true) :
    (byte ≠ 47 → (requestScanner uriRelaxed).move 33 byte = some ([], 26)) ∧
      (requestScanner uriRelaxed).move 26 byte = some ([], 26) := by
  refine ⟨fun other => ?_, Scanner.move_of_leads (leads_path uriRelaxed).2 member⟩
  apply Scanner.move_of_leads (leads_path uriRelaxed).1
  rw [within_append, Bool.or_eq_true] at member
  apply member.resolve_right
  intro slash
  have code : byte.toNat = 47 := by
    simp [within, Http.byte] at slash
    omega
  exact other (UInt8.toNat_inj.mp code)

theorem move_query
    (member : within (pchar uriRelaxed ++ [(47, 47), (63, 63), (124, 124)]) byte = true) :
    (requestScanner uriRelaxed).move 29 byte = some ([.startQuery], 30) ∧
      (requestScanner uriRelaxed).move 30 byte = some ([], 30) ∧
      (requestScanner uriRelaxed).move 20 byte = some ([.mark], 21) ∧
      (requestScanner uriRelaxed).move 21 byte = some ([], 21) :=
  have leads := leads_query uriRelaxed
  ⟨Scanner.move_of_leads (fun range listed => (leads range listed).1) member,
    Scanner.move_of_leads (fun range listed => (leads range listed).2.1) member,
    Scanner.move_of_leads (fun range listed => (leads range listed).2.2.1) member,
    Scanner.move_of_leads (fun range listed => (leads range listed).2.2.2) member⟩

theorem move_hex (hex : isHex byte = true) :
    (requestScanner uriRelaxed).move 27 byte = some ([], 28) ∧
      (requestScanner uriRelaxed).move 28 byte = some ([], 26) ∧
      (requestScanner uriRelaxed).move 31 byte = some ([], 32) ∧
      (requestScanner uriRelaxed).move 32 byte = some ([], 30) ∧
      (requestScanner uriRelaxed).move 22 byte = some ([], 23) ∧
      (requestScanner uriRelaxed).move 23 byte = some ([], 21) :=
  have member := within_of_isHex hex
  have leads := leads_hex uriRelaxed
  ⟨Scanner.move_of_leads (fun range listed => (leads range listed).1) member,
    Scanner.move_of_leads (fun range listed => (leads range listed).2.1) member,
    Scanner.move_of_leads (fun range listed => (leads range listed).2.2.1) member,
    Scanner.move_of_leads (fun range listed => (leads range listed).2.2.2.1) member,
    Scanner.move_of_leads (fun range listed => (leads range listed).2.2.2.2.1) member,
    Scanner.move_of_leads (fun range listed => (leads range listed).2.2.2.2.2) member⟩

theorem move_field (member : within token byte = true) :
    (requestScanner uriRelaxed).move 13 byte = some ([.startField], 14) ∧
      (requestScanner uriRelaxed).move 14 byte = some ([], 14) :=
  have leads := leads_field uriRelaxed
  ⟨Scanner.move_of_leads (fun range listed => (leads range listed).1) member,
    Scanner.move_of_leads (fun range listed => (leads range listed).2) member⟩

theorem move_value (member : within [(32, 126), (128, 255)] byte = true) :
    (byte ≠ 32 → (requestScanner uriRelaxed).move 15 byte = some ([.startValue], 16)) ∧
      (requestScanner uriRelaxed).move 16 byte = some ([], 16) := by
  refine ⟨fun other => ?_, Scanner.move_of_leads (leads_value uriRelaxed).2 member⟩
  apply Scanner.move_of_leads (leads_value uriRelaxed).1
  have code : byte.toNat ≠ 32 := fun same => other (UInt8.toNat_inj.mp same)
  simp [within] at member ⊢
  omega

end

/-! ## The pieces of a request -/

/-- The run of a new parser over a buffer. -/
def requestRun (uriRelaxed : Bool) (data : List UInt8) :
    Execution RequestAction HttpRequestParser where
  scanner := requestScanner uriRelaxed
  effect := RequestAction.effect
  perform := HttpRequestParser.perform data
  state := requestStart
  marks := ⟨0, 0, 0, 0⟩
  parser := .fresh uriRelaxed

theorem walks_methods (uriRelaxed : Bool) : ∀ entry ∈ methodMap,
    (entry.2.length ≤ 20 ∧ entry.2.all (within methodByte) = true) →
      (requestScanner uriRelaxed).Walks 1 0 (entry.2 ++ text " ") 3
        [(0, .mark), (entry.2.length, .requestMethod)] ∧
      stringToHttpMethod entry.2 = entry.1 ∧ entry.1 ≠ .invalidMethod := by
  cases uriRelaxed
  · decide
  · decide

theorem walks_method (uriRelaxed : Bool) {method : HttpMethod}
    (admitted : (httpMethodToString method).length ≤ 20 ∧
      ∀ byte ∈ httpMethodToString method, within methodByte byte = true) :
    (requestScanner uriRelaxed).Walks 1 0 (httpMethodToString method ++ text " ") 3
        [(0, .mark), ((httpMethodToString method).length, .requestMethod)] ∧
      stringToHttpMethod (httpMethodToString method) = method ∧ method ≠ .invalidMethod := by
  unfold httpMethodToString at admitted ⊢
  cases found : methodMap.lookup method with
  | none =>
      rw [found] at admitted
      exact absurd admitted (by decide)
  | some name =>
      rw [found, Option.getD_some] at admitted
      rcases List.lookup_eq_some_iff.mp found with ⟨before, behind, rows, -⟩
      have member : (method, name) ∈ methodMap := by
        rw [rows]
        exact List.mem_append_right _ List.mem_cons_self
      exact walks_methods uriRelaxed _ member ⟨admitted.1, List.all_eq_true.mpr admitted.2⟩

namespace HttpRequest

/-- The path with the query, as the start line has them. -/
def target (request : HttpRequest) : List UInt8 :=
  request.path ++ ((if request.query.isEmpty then [] else text "?") ++ request.query)

/-- The start line up to the version. -/
def lead (request : HttpRequest) : List UInt8 :=
  httpMethodToString request.method ++ text " " ++ request.target ++
    (if request.fragment.isEmpty then text " " else text "#" ++ request.fragment ++ text " ")

end HttpRequest

/-- The end of the start line. -/
def versionText (version : UInt8) : List UInt8 :=
  text "HTTP/" ++ decimal (version.toNat / 10) ++ text "." ++
    decimal (version.toNat % 10) ++ text "\r\n"

theorem startLine_eq {uriRelaxed : Bool} {request : HttpRequest}
    (sendable : request.Sendable uriRelaxed) :
    request.startLine = request.lead ++ versionText request.version := by
  unfold HttpRequest.startLine HttpRequest.lead HttpRequest.target versionText
  rw [if_neg sendable.method, sendable.scheme]
  cases request.fragment with
  | nil => simp [text]
  | cons first rest => simp [text]

section

variable {uriRelaxed : Bool} {data before behind : List UInt8} {marks : Marks}
  {parser : HttpRequestParser} {request : HttpRequest}

theorem consumed_method (sendable : request.Sendable uriRelaxed)
    (split : data = httpMethodToString request.method ++ text " " ++ behind) :
    ∃ marks, (requestRun uriRelaxed data).Consumed
      (httpMethodToString request.method ++ text " ") 3 marks
      { uriRelaxed, data := { method := request.method } } := by
  rcases walks_method uriRelaxed sendable.name with ⟨walks, known, valid⟩
  have name : slice data 0 (httpMethodToString request.method).length =
      httpMethodToString request.method :=
    @slice_piece data [] (httpMethodToString request.method) (text " " ++ behind)
      (split.trans (List.append_assoc _ _ _))
  refine ⟨_, (Execution.consumed_nil (requestRun uriRelaxed data)).append walks ?_⟩
  have performed : HttpRequestParser.onRequestMethod (.fresh uriRelaxed)
      (slice data 0 (httpMethodToString request.method).length) =
      { uriRelaxed, data := { method := request.method } } := by
    rw [name, HttpRequestParser.onRequestMethod, known, if_neg valid]
    rfl
  rw [← performed]
  rfl

/-- What is left open behind a path: the walk to a blank or to a fragment. -/
theorem move_behind_path (uriRelaxed : Bool) :
    ∀ state ∈ [26, 33],
      (requestScanner uriRelaxed).move state 32 = some ([.requestPath, .requestUri], 4) ∧
      (requestScanner uriRelaxed).move state 35 = some ([.requestPath, .requestUri], 20) ∧
      (requestScanner uriRelaxed).move state 63 = some ([.requestPath], 29) := by
  cases uriRelaxed <;> decide

theorem move_edges (uriRelaxed : Bool) :
    (requestScanner uriRelaxed).move 3 47 = some ([.mark], 33) ∧
    (requestScanner uriRelaxed).move 33 37 = some ([], 27) ∧
    (requestScanner uriRelaxed).move 26 37 = some ([], 27) ∧
    (requestScanner uriRelaxed).move 29 37 = some ([.startQuery], 31) ∧
    (requestScanner uriRelaxed).move 30 37 = some ([], 31) ∧
    (requestScanner uriRelaxed).move 20 37 = some ([.mark], 22) ∧
    (requestScanner uriRelaxed).move 21 37 = some ([], 22) ∧
    (requestScanner uriRelaxed).move 30 32 = some ([.queryString, .requestUri], 4) ∧
    (requestScanner uriRelaxed).move 30 35 = some ([.queryString, .requestUri], 20) ∧
    (requestScanner uriRelaxed).move 21 32 = some ([.fragment], 4) := by
  cases uriRelaxed <;> decide

theorem walks_path {path : List UInt8} (absolute : AbsolutePath uriRelaxed path)
    (position : Nat) : ∃ state ∈ [26, 33],
    (requestScanner uriRelaxed).Walks 3 position path state [(position, .mark)] := by
  rcases absolute with ⟨segments, rfl, single, encoded⟩
  rcases move_edges uriRelaxed with ⟨slash, percent, again, _⟩
  have head := Scanner.walks_byte slash rfl position
  rcases eq_or_ne segments [] with rfl | some
  · exact ⟨33, by decide, head⟩
  · refine ⟨26, by decide, head.append ?_⟩
    apply walks_encoded_from (fun byte member => (move_path member).2) again
      (fun byte member => (move_hex member).1)
      (fun byte member => (move_hex member).2.1) _ percent rfl encoded some
    intro byte member first
    apply (move_path member).1
    intro same
    rw [same] at first
    exact single first

theorem walks_query {query : List UInt8} (encoded : QueryText uriRelaxed query)
    (some : query ≠ []) (position : Nat) :
    (requestScanner uriRelaxed).Walks 29 position query 30 [(position, .startQuery)] := by
  rcases move_edges uriRelaxed with ⟨_, _, _, opens, again, _⟩
  exact walks_encoded_from (fun byte member => (move_query member).2.1) again
    (fun byte member => (move_hex member).2.2.1)
    (fun byte member => (move_hex member).2.2.2.1)
    (fun byte member _ => (move_query member).1) opens rfl encoded some position

theorem walks_fragment {fragment : List UInt8} (encoded : QueryText uriRelaxed fragment)
    (some : fragment ≠ []) (position : Nat) :
    (requestScanner uriRelaxed).Walks 20 position fragment 21 [(position, .mark)] := by
  rcases move_edges uriRelaxed with ⟨_, _, _, _, _, opens, again, _⟩
  exact walks_encoded_from (fun byte member => (move_query member).2.2.2) again
    (fun byte member => (move_hex member).2.2.2.2.1)
    (fun byte member => (move_hex member).2.2.2.2.2)
    (fun byte member _ => (move_query member).2.2.1) opens rfl encoded some
    position

theorem onRequestPath_absolute (parser : HttpRequestParser) {path : List UInt8}
    (absolute : AbsolutePath uriRelaxed path) :
    parser.onRequestPath path = { parser with data := { parser.data with path } } := by
  rcases absolute with ⟨segments, rfl, single, _⟩
  unfold HttpRequestParser.onRequestPath
  rw [if_neg]
  rintro ⟨_, double⟩
  cases segments with
  | nil => cases double
  | cons first rest =>
      have slashes : [47, first] = [47, 47] := double
      cases slashes
      exact single rfl

/-- The path and the query up to the byte behind them. -/
theorem consumed_target (sendable : request.Sendable uriRelaxed)
    (consumed : (requestRun uriRelaxed data).Consumed before 3 marks parser)
    (unset : parser.data.query = []) {delimiter : UInt8} {next : Nat}
    (closes : (delimiter, next) ∈ [((32 : UInt8), 4), (35, 20)])
    (split : data = before ++ request.target ++ [delimiter] ++ behind) :
    ∃ marks uri, (requestRun uriRelaxed data).Consumed
      (before ++ request.target ++ [delimiter]) next marks
      { parser with data := { parser.data with
          path := request.path, query := request.query, uri } } := by
  rcases walks_path sendable.path before.length with ⟨state, member, walks⟩
  rcases move_behind_path uriRelaxed state member with ⟨blank, hash, mark⟩
  have path := @consumed.append _ _ _ _ _ _ _ _ parser _ _ walks rfl
  have pathText : slice data before.length (before ++ request.path).length = request.path := by
    apply slice_piece
    rw [split, HttpRequest.target]
    simp only [List.append_assoc]
    rfl
  have stored : parser.onRequestPath (slice data before.length
      (before ++ request.path).length) =
      { parser with data := { parser.data with path := request.path } } := by
    rw [pathText, onRequestPath_absolute parser sendable.path]
  rcases eq_or_ne request.query [] with none | nonempty
  · have target : request.target = request.path := by
      rw [HttpRequest.target, none]
      exact List.append_nil _
    have taken : (requestScanner uriRelaxed).move state delimiter =
        some ([.requestPath, .requestUri], next) := by
      simp only [List.mem_cons, Prod.mk.injEq, List.not_mem_nil, or_false] at closes
      rcases closes with ⟨rfl, rfl⟩ | ⟨rfl, rfl⟩
      · exact blank
      · exact hash
    rw [target]
    refine ⟨_, slice data before.length (before ++ request.path).length,
      path.append (Scanner.walks_byte taken rfl _) ?_⟩
    rw [none, ← unset]
    exact congrArg (fun parser : HttpRequestParser => some { parser with
      data := { parser.data with
        uri := slice data before.length (before ++ request.path).length } }) stored
  · have target : request.target = request.path ++ ([63] ++ request.query) := by
      rw [HttpRequest.target, List.isEmpty_eq_false_iff.mpr nonempty]
      rfl
    rcases move_edges uriRelaxed with ⟨_, _, _, _, _, _, _, blank, hash, _⟩
    have taken : (requestScanner uriRelaxed).move 30 delimiter =
        some ([.queryString, .requestUri], next) := by
      simp only [List.mem_cons, Prod.mk.injEq, List.not_mem_nil, or_false] at closes
      rcases closes with ⟨rfl, rfl⟩ | ⟨rfl, rfl⟩
      · exact blank
      · exact hash
    have queryText : slice data (before ++ request.path ++ [63]).length
        (before ++ request.path ++ [63] ++ request.query).length = request.query := by
      apply slice_piece
      rw [split, target]
      simp only [List.append_assoc]
      rfl
    have begun := path.append (Scanner.walks_byte mark rfl _) (congrArg some stored)
    have read := begun.append (walks_query sendable.query nonempty _) rfl
    have ordered : (before ++ request.path ++ [63]).length ≤
        (before ++ request.path ++ [63] ++ request.query).length :=
      (List.prefix_append _ _).length_le
    rw [target, ← List.append_assoc before, ← List.append_assoc (before ++ request.path)]
    refine ⟨_, slice data before.length (before ++ request.path ++ [63] ++ request.query).length,
      read.append (Scanner.walks_byte taken rfl _) ?_⟩
    show (if (before ++ request.path ++ [63]).length ≤
        (before ++ request.path ++ [63] ++ request.query).length then
      some { parser with data := { parser.data with
        path := request.path
        query := slice data (before ++ request.path ++ [63]).length
          (before ++ request.path ++ [63] ++ request.query).length } }
      else none).bind _ = _
    rw [if_pos ordered, queryText]
    rfl

theorem lead_plain (none : request.fragment = []) :
    request.lead = httpMethodToString request.method ++ text " " ++ request.target ++ [32] := by
  rw [HttpRequest.lead, none]
  rfl

theorem lead_fragment (nonempty : request.fragment ≠ []) :
    request.lead = httpMethodToString request.method ++ text " " ++ request.target ++ [35] ++
      request.fragment ++ [32] := by
  rw [HttpRequest.lead, List.isEmpty_eq_false_iff.mpr nonempty]
  simp [text]

/-- The start line up to the version. -/
theorem consumed_lead (sendable : request.Sendable uriRelaxed)
    (split : data = request.lead ++ behind) :
    ∃ marks uri, (requestRun uriRelaxed data).Consumed request.lead 4 marks
      { uriRelaxed, data := { method := request.method, path := request.path,
                              query := request.query, fragment := request.fragment, uri } } := by
  rcases eq_or_ne request.fragment [] with none | nonempty
  · rw [lead_plain none] at split ⊢
    have method := @consumed_method _ data (request.target ++ [32] ++ behind) _ sendable
      (by simp only [split, List.append_assoc])
    rcases method with ⟨_, method⟩
    rcases consumed_target sendable method rfl (List.mem_cons_self ..) split
      with ⟨marks, uri, target⟩
    rw [none]
    exact ⟨marks, uri, target⟩
  · rw [lead_fragment nonempty] at split ⊢
    have method := @consumed_method _ data
      (request.target ++ [35] ++ request.fragment ++ [32] ++ behind) _ sendable
      (by simp only [split, List.append_assoc])
    rcases method with ⟨_, method⟩
    have target := @consumed_target _ _ _ (request.fragment ++ [32] ++ behind) _ _ _ sendable
      method rfl 35 20 (by decide) (by simp only [split, List.append_assoc])
    rcases target with ⟨_, uri, target⟩
    have fragmentText : slice data
        (httpMethodToString request.method ++ text " " ++ request.target ++ [35]).length
        (httpMethodToString request.method ++ text " " ++ request.target ++ [35] ++
          request.fragment).length = request.fragment := by
      apply slice_piece
      rw [split, List.append_assoc _ [32]]
    rcases move_edges uriRelaxed with ⟨_, _, _, _, _, _, _, _, _, blank⟩
    have read := target.append (walks_fragment sendable.fragment nonempty _) rfl
    refine ⟨_, uri, read.append (Scanner.walks_byte blank rfl _) ?_⟩
    exact congrArg (fun fragment => some (HttpRequestParser.mk uriRelaxed requestStart 0
      { method := request.method, path := request.path, query := request.query, fragment,
        uri } .ok)) fragmentText

theorem walks_version (uriRelaxed : Bool) : ∀ version ∈ [(10 : UInt8), 11],
    (requestScanner uriRelaxed).Walks 4 0 (versionText version) 13
      [(0, .mark), (8, .httpVersion)] := by
  intro version known
  rcases List.mem_pair.mp known with same | same
  · subst same
    cases uriRelaxed
    · decide
    · decide
  · subst same
    cases uriRelaxed
    · decide
    · decide

theorem onRequestVersion_text (parser : HttpRequestParser) : ∀ version ∈ [(10 : UInt8), 11],
    parser.onRequestVersion ((versionText version).take 8) =
      { parser with data := { parser.data with version } } := by
  intro version member
  unfold HttpRequestParser.onRequestVersion
  rcases List.mem_pair.mp member with rfl | rfl
  · rw [if_neg (by decide), if_pos (by decide)]
  · rw [if_pos (by decide)]

/-- The start line of a version that the grammar knows. -/
theorem consumed_startLine (sendable : request.Sendable uriRelaxed)
    (known : request.version ∈ [(10 : UInt8), 11])
    (split : data = request.startLine ++ behind) :
    ∃ marks uri, (requestRun uriRelaxed data).Consumed request.startLine 13 marks
      { uriRelaxed, data := { method := request.method, version := request.version,
                              path := request.path, query := request.query,
                              fragment := request.fragment, uri } } := by
  rw [startLine_eq sendable] at split ⊢
  have lead := @consumed_lead _ data (versionText request.version ++ behind) _ sendable
    (by rw [split, List.append_assoc])
  rcases lead with ⟨_, uri, lead⟩
  have text : slice data (0 + request.lead.length) (8 + request.lead.length) =
      (versionText request.version).take 8 := by
    have place : 8 + request.lead.length =
        (request.lead ++ (versionText request.version).take 8).length := by
      have long : 8 ≤ (versionText request.version).length := by
        rcases List.mem_pair.mp known with same | same <;> rw [same] <;> decide
      rw [List.length_append, List.length_take, Nat.min_eq_left long, Nat.add_comm]
    rw [place, Nat.zero_add]
    apply slice_piece
    rw [split, List.append_assoc _ (List.take 8 _), ← List.append_assoc (List.take 8 _),
      List.take_append_drop, List.append_assoc]
  refine ⟨_, uri, lead.append (Scanner.walks_at (walks_version uriRelaxed _ known) _) ?_⟩
  show some (HttpRequestParser.onRequestVersion _
    (slice data (0 + request.lead.length) (8 + request.lead.length))) = _
  rw [text, onRequestVersion_text _ _ known]

theorem scan_major (uriRelaxed : Bool) : ∀ major < 26, major ≠ 1 →
    ((requestScanner uriRelaxed).scan 4 0 (text "HTTP/" ++ decimal major ++ text ".")).running =
        false ∧
      ((requestScanner uriRelaxed).scan 4 0 (text "HTTP/" ++ decimal major ++ text ".")).state =
        requestError := by
  cases uriRelaxed <;> decide

theorem scan_minor (uriRelaxed : Bool) : ∀ minor < 10, 1 < minor →
    ((requestScanner uriRelaxed).scan 4 0 (text "HTTP/1." ++ decimal minor)).running = false ∧
      ((requestScanner uriRelaxed).scan 4 0 (text "HTTP/1." ++ decimal minor)).state =
        requestError := by
  cases uriRelaxed <;> decide

/-- No other version is read. -/
theorem scan_version (uriRelaxed : Bool) {version : UInt8}
    (unknown : version ∉ [(10 : UInt8), 11]) (behind : List UInt8) :
    ((requestScanner uriRelaxed).scan 4 0 (versionText version ++ behind)).state =
      requestError := by
  have others := not_or.mp (mt List.mem_pair.mpr unknown)
  have ten : version.toNat ≠ 10 := fun same => others.1 (UInt8.toNat_inj.mp same)
  have eleven : version.toNat ≠ 11 := fun same => others.2 (UInt8.toNat_inj.mp same)
  have small := UInt8.toNat_lt version
  by_cases first : version.toNat / 10 = 1
  · rcases scan_minor uriRelaxed (version.toNat % 10) (Nat.mod_lt _ (by decide)) (by omega)
      with ⟨ended, failed⟩
    have split : versionText version ++ behind =
        text "HTTP/1." ++ decimal (version.toNat % 10) ++ (text "\r\n" ++ behind) := by
      rw [versionText, first]
      simp only [List.append_assoc]
      rfl
    rw [split, Scanner.scan_append_of_ended ended, failed]
  · rcases scan_major uriRelaxed (version.toNat / 10) (by omega) first with ⟨ended, failed⟩
    have split : versionText version ++ behind =
        text "HTTP/" ++ decimal (version.toNat / 10) ++ text "." ++
          (decimal (version.toNat % 10) ++ text "\r\n" ++ behind) := by
      rw [versionText]
      simp only [List.append_assoc]
    rw [split, Scanner.scan_append_of_ended ended, failed]

/-! ## Header lines -/

theorem walks_name {name : List UInt8} (nonempty : name ≠ [])
    (letters : ∀ byte ∈ name, within token byte = true) (position : Nat) :
    (requestScanner uriRelaxed).Walks 13 position name 14 [(position, .startField)] := by
  cases name with
  | nil => exact absurd rfl nonempty
  | cons first rest =>
      have head := (@move_field uriRelaxed first (letters first List.mem_cons_self)).1
      apply (Scanner.walks_byte head rfl position).append
      apply Scanner.walks_loop
      intro byte member
      exact (move_field (letters byte (List.mem_cons_of_mem _ member))).2

theorem walks_value {value : List UInt8} (nonempty : value ≠ [])
    (visible : ∀ byte ∈ value, within [(32, 126), (128, 255)] byte = true)
    (leading : value.head? ≠ some 32) (position : Nat) :
    (requestScanner uriRelaxed).Walks 15 position value 16 [(position, .startValue)] := by
  cases value with
  | nil => exact absurd rfl nonempty
  | cons first rest =>
      have head := (@move_value uriRelaxed first (visible first List.mem_cons_self)).1
        fun blank => leading (congrArg some blank)
      apply (Scanner.walks_byte head rfl position).append
      apply Scanner.walks_loop
      intro byte member
      exact (move_value (visible byte (List.mem_cons_of_mem _ member))).2

theorem move_line (uriRelaxed : Bool) :
    (requestScanner uriRelaxed).move 14 58 = some ([.writeField], 15) ∧
    (requestScanner uriRelaxed).move 15 32 = some ([.startValue], 15) ∧
    (requestScanner uriRelaxed).move 15 13 = some ([.startValue, .writeValue], 17) ∧
    (requestScanner uriRelaxed).move 16 13 = some ([.writeValue], 17) ∧
    (requestScanner uriRelaxed).move 17 10 = some ([], 13) ∧
    (requestScanner uriRelaxed).move 13 13 = some ([.startField], 18) ∧
    (requestScanner uriRelaxed).move 18 10 = some ([.done], 348) ∧
    (requestScanner uriRelaxed).move 14 32 = none := by
  cases uriRelaxed <;> decide

/-- A header line as the `dump` functions write it. -/
def headerLine (name value : List UInt8) : List UInt8 :=
  name ++ text ": " ++ value ++ text "\r\n"

theorem consumed_headerLine {name value : List UInt8} (plain : PlainHeader name value)
    (consumed : (requestRun uriRelaxed data).Consumed before 13 marks parser)
    (split : data = before ++ headerLine name value ++ behind) :
    ∃ marks, (requestRun uriRelaxed data).Consumed (before ++ headerLine name value) 13 marks
      { parser with data := parser.data.setHeader name value } := by
  rcases move_line uriRelaxed with ⟨colon, blank, empty, full, line, _⟩
  have pieces : before ++ headerLine name value =
      before ++ name ++ [58] ++ [32] ++ value ++ [13] ++ [10] := by
    rw [headerLine]
    simp [text]
  rw [pieces] at split ⊢
  have named := consumed.append (walks_name plain.nonempty plain.letters _) rfl
  have field := named.append (Scanner.walks_byte colon rfl _) rfl
  have spaced := field.append (Scanner.walks_byte blank rfl _) rfl
  have fieldText : slice data before.length
      (before.length + ((before ++ name).length - before.length)) = name := by
    rw [Nat.add_sub_cancel' (List.prefix_append before name).length_le]
    apply slice_piece
    rw [split]
    simp only [List.append_assoc]
    rfl
  have valueText : slice data (before ++ name ++ [58] ++ [32]).length
      (before ++ name ++ [58] ++ [32] ++ value).length = value := by
    apply slice_piece
    rw [split]
    simp only [List.append_assoc]
    rfl
  have stored : parser.onRequestHttpField
      (slice data before.length (before.length + ((before ++ name).length - before.length)))
      (slice data (before ++ name ++ [58] ++ [32]).length
        (before ++ name ++ [58] ++ [32] ++ value).length) =
      { parser with data := parser.data.setHeader name value } := by
    rw [fieldText, valueText, HttpRequestParser.onRequestHttpField,
      List.isEmpty_eq_false_iff.mpr plain.nonempty, if_neg Bool.false_ne_true]
  rw [← stored]
  rcases eq_or_ne value [] with rfl | nonempty
  · rw [List.append_nil] at valueText stored ⊢
    refine ⟨_, (spaced.append (Scanner.walks_byte empty rfl _) rfl).silent
      (Scanner.walks_byte line rfl _)⟩
  · have read := spaced.append (walks_value nonempty plain.visible plain.leading _) rfl
    refine ⟨_, (read.append (Scanner.walks_byte full rfl _) rfl).silent
      (Scanner.walks_byte line rfl _)⟩

/-- The header lines of a map, one by one. -/
theorem consumed_entries {entries : List (List UInt8 × List UInt8)}
    (plain : ∀ entry ∈ entries, PlainHeader entry.1 entry.2)
    (consumed : (requestRun uriRelaxed data).Consumed before 13 marks parser)
    (split : data = before ++ (entries.map fun entry => headerLine entry.1 entry.2).flatten ++
      behind) :
    ∃ marks, (requestRun uriRelaxed data).Consumed
      (before ++ (entries.map fun entry => headerLine entry.1 entry.2).flatten) 13 marks
      { parser with data := { parser.data with
          headers := entries.foldl (fun headers entry => headers.set entry.1 entry.2)
            parser.data.headers } } := by
  induction entries generalizing before marks parser with
  | nil =>
      rw [List.map_nil, List.flatten_nil, List.append_nil]
      exact ⟨marks, consumed⟩
  | cons entry entries induction =>
      rw [List.map_cons, List.flatten_cons, ← List.append_assoc] at split ⊢
      have line := @consumed_headerLine _ data before
        ((entries.map fun entry => headerLine entry.1 entry.2).flatten ++ behind) _ _ _ _
        (plain entry List.mem_cons_self) consumed (by rw [split, List.append_assoc])
      rcases line with ⟨_, line⟩
      exact induction (fun entry member => plain entry (List.mem_cons_of_mem _ member)) line split

theorem headerLines_eq {webSocket : Bool} {headers : MapType}
    (absent : ∀ entry ∈ headers.entries, folded entry.1 ≠ folded (text "connection")) :
    headerLines webSocket headers =
      (headers.entries.map fun entry => headerLine entry.1 entry.2).flatten := by
  unfold headerLines
  apply congrArg List.flatten
  apply List.map_congr_left
  intro entry member
  rw [decide_eq_false (absent entry member), Bool.and_false, if_neg Bool.false_ne_true]
  rfl

/-- The empty line ends a request. -/
theorem execute_complete
    (consumed : (requestRun uriRelaxed data).Consumed before 13 marks parser)
    (split : data = before ++ text "\r\n") :
    (HttpRequestParser.fresh uriRelaxed).execute data =
      some ({ parser with cs := requestFirstFinal, queryStart := marks.queryStart },
        data.length) := by
  rcases move_line uriRelaxed with ⟨_, _, _, _, _, field, done, _⟩
  have lines : before ++ [13] ++ [10] = data := by
    rw [split, List.append_assoc]
    rfl
  have length : (before ++ [13]).length + 1 = data.length := by
    rw [← lines]
    exact (@List.length_append _ (before ++ [13]) [10]).symm
  have ended := consumed.append (Scanner.walks_byte field rfl _) rfl
  rcases ended.stop done rfl rfl [] with ⟨events, scanned, performed, after⟩
  rw [lines, length] at scanned
  have run : (HttpRequestParser.fresh uriRelaxed).scan data =
      ⟨requestFirstFinal, data.length, events, false⟩ := scanned
  unfold HttpRequestParser.execute
  rw [run]
  apply Option.map_eq_some_iff.mpr
  refine ⟨parser, performed, ?_⟩
  have query := congrArg Marks.queryStart after
  exact congrArg (fun queryStart =>
    ({ parser with cs := requestFirstFinal, queryStart }, data.length)) query

end

end Http

end FiberNet
