import FiberNet.Http.Message
import FiberNet.Http.RequestTable
import FiberNet.Http.ResponseTable

/-! # The two parsers

One `execute` scans a buffer from the state that the last one left, with fresh
marks, and performs the actions on the way: they call back with slices of the
buffer. What it did not consume is moved to the front of the buffer.
-/

namespace FiberNet

namespace Http

/-- The value that an `int` holds after an assignment. -/
@[irreducible] def toInt32 (value : Int) : Int := value.bmod (2 ^ 32)

/-- The value that an `int64_t` holds after an assignment. -/
@[irreducible] def toInt64 (value : Int) : Int := value.bmod (2 ^ 64)

/-- `strncasecmp(left, right, count) == 0`, with the NUL behind a literal. -/
def sameText : Nat → List UInt8 → List UInt8 → Bool
  | 0, _, _ => true
  | count + 1, left, right =>
      if toLower (left.headD 0) ≠ toLower (right.headD 0) then false
      else if left.headD 0 = 0 then true
      else sameText count left.tail right.tail

def digitsValue (base : Nat) (digits : List UInt8) : Nat :=
  digits.foldl (fun value digit => value * base + hexToDec digit) 0

def isDigit (base : Nat) (byte : UInt8) : Bool :=
  isHex byte && hexToDec byte < base

/-- `strtol(text, NULL, base)` for the bases 10 and 16: white space, a sign, the
prefix of a hexadecimal number, then all digits; out of range it is clamped. -/
def strtol (base : Nat) (bytes : List UInt8) : Int :=
  let trimmed := bytes.dropWhile isSpace
  let unsigned := if trimmed.headD 0 = 45 ∨ trimmed.headD 0 = 43 then trimmed.tail else trimmed
  let digits :=
    if base = 16 ∧ unsigned.headD 0 = 48 ∧ toLower (unsigned.tail.headD 0) = 120 ∧
        isHex (unsigned.tail.tail.headD 0) then unsigned.tail.tail
    else unsigned
  let value := digitsValue base (digits.takeWhile (isDigit base))
  if trimmed.headD 0 = 45 then max (-(value : Int)) (-2 ^ 63) else min (value : Int) (2 ^ 63 - 1)

def atoi (bytes : List UInt8) : Int :=
  toInt32 (strtol 10 bytes)

inductive HttpError
  | ok
  | methodNotValid
  | versionNotValid
  deriving DecidableEq

def RequestAction.effect : RequestAction → MarkEffect
  | .mark | .startValue => .mark
  | .startField => .startField
  | .writeField => .writeField
  | .startQuery => .startQuery
  | _ => .none

/-- `HttpRequestParser` with its `http_parser`. `uri_relaxed` is never assigned. The
members that only `body_start` and `content_len` depend on are left out. -/
structure HttpRequestParser where
  uriRelaxed : Bool
  cs : Nat := requestStart
  /-- Not reset by `execute`, unlike the other marks. -/
  queryStart : Nat := 0
  data : HttpRequest := {}
  error : HttpError := .ok
  deriving DecidableEq

namespace HttpRequestParser

def onRequestMethod (parser : HttpRequestParser) (value : List UInt8) : HttpRequestParser :=
  { parser with
    error := if stringToHttpMethod value = .invalidMethod then .methodNotValid else parser.error
    data := { parser.data with method := stringToHttpMethod value } }

def onRequestPath (parser : HttpRequestParser) (value : List UInt8) : HttpRequestParser :=
  { parser with
    data := { parser.data with
      path := if 2 ≤ value.length ∧ value.take 2 = text "//" then value.drop 2 else value } }

def onRequestVersion (parser : HttpRequestParser) (value : List UInt8) : HttpRequestParser :=
  if sameText value.length (text "HTTP/1.1") value then
    { parser with data := { parser.data with version := 11 } }
  else if sameText value.length (text "HTTP/1.0") value then
    { parser with data := { parser.data with version := 10 } }
  else { parser with error := .versionNotValid }

def onRequestHttpField (parser : HttpRequestParser) (field value : List UInt8) :
    HttpRequestParser :=
  if field.isEmpty then parser else { parser with data := parser.data.setHeader field value }

/-- One action. `none` is the `std::length_error` of a string whose stale start lies
behind its end. -/
def perform (data : List UInt8) (parser : HttpRequestParser)
    (occurrence : Occurrence RequestAction) : Option HttpRequestParser :=
  let marks := occurrence.marks
  let value := slice data marks.mark occurrence.position
  match occurrence.action with
  | .requestMethod => some (parser.onRequestMethod value)
  | .requestUri => some { parser with data := { parser.data with uri := value } }
  | .fragment => some { parser with data := { parser.data with fragment := value } }
  | .requestPath => some (parser.onRequestPath value)
  | .saveScheme => some { parser with data := { parser.data with scheme := value } }
  | .httpVersion => some (parser.onRequestVersion value)
  | .queryString =>
      if marks.queryStart ≤ occurrence.position then
        some { parser with
          data := { parser.data with
            query := slice data marks.queryStart occurrence.position } }
      else none
  | .writeValue =>
      some (parser.onRequestHttpField
        (slice data marks.fieldStart (marks.fieldStart + marks.fieldLen)) value)
  | _ => some parser

def scan (parser : HttpRequestParser) (data : List UInt8) : Scan RequestAction :=
  (requestScanner parser.uriRelaxed).scan parser.cs 0 data

def marks (parser : HttpRequestParser) : Marks :=
  { mark := 0, fieldStart := 0, fieldLen := 0, queryStart := parser.queryStart }

/-- The parser behind `execute` and the number of bytes consumed. -/
def execute (parser : HttpRequestParser) (data : List UInt8) :
    Option (HttpRequestParser × Nat) :=
  let scanned := parser.scan data
  ((occurrences RequestAction.effect parser.marks scanned.events).foldlM (perform data)
    parser).map fun performed =>
      ({ performed with
          cs := scanned.state
          queryStart :=
            (marksAfter RequestAction.effect parser.marks scanned.events).queryStart },
        scanned.position)

/-- `http_parser_finish`. -/
def isFinished (parser : HttpRequestParser) : Int :=
  if parser.cs = requestError then -1
  else if requestFirstFinal ≤ parser.cs then 1
  else 0

def hasError (parser : HttpRequestParser) : Bool :=
  parser.error ≠ .ok || parser.cs = requestError

def getContentLength (cast : List UInt8 → Option UInt64) (parser : HttpRequestParser) :
    UInt64 :=
  getAs cast parser.data.headers (text "content-length") 0

end HttpRequestParser

def ResponseAction.effect : ResponseAction → MarkEffect
  | .mark | .startValue => .mark
  | .startField => .startField
  | .writeField => .writeField
  | _ => .none

/-- `HttpResponseParser` with its `httpclient_parser`, without the members that
nothing reads. -/
structure HttpResponseParser where
  cs : Nat := responseStart
  contentLen : Int := -1
  chunked : Bool := false
  chunksDone : Bool := false
  data : HttpResponse := {}
  error : HttpError := .ok
  deriving DecidableEq

namespace HttpResponseParser

/-- `httpclient_parser_init`. -/
def init (parser : HttpResponseParser) : HttpResponseParser :=
  { parser with cs := responseStart, contentLen := -1, chunked := false, chunksDone := false }

def onResponseVersion (parser : HttpResponseParser) (value : List UInt8) :
    HttpResponseParser :=
  if sameText value.length value (text "HTTP/1.1") then
    { parser with data := { parser.data with version := 11 } }
  else if sameText value.length value (text "HTTP/1.0") then
    { parser with data := { parser.data with version := 10 } }
  else { parser with error := .versionNotValid }

def onResponseHttpField (parser : HttpResponseParser) (field value : List UInt8) :
    HttpResponseParser :=
  if field.isEmpty then parser else { parser with data := parser.data.setHeader field value }

def chunkSize (parser : HttpResponseParser) (line : List UInt8) : HttpResponseParser :=
  { parser with
    chunked := true
    contentLen := toInt32 (strtol 16 line)
    chunksDone := toInt32 (strtol 16 line) ≤ 0 }

/-- One action. `strtol` and `atoi` read on to the first byte that is no digit. -/
def perform (data : List UInt8) (parser : HttpResponseParser)
    (occurrence : Occurrence ResponseAction) : HttpResponseParser :=
  let marks := occurrence.marks
  let value := slice data marks.mark occurrence.position
  match occurrence.action with
  | .httpVersion => parser.onResponseVersion value
  | .statusCode =>
      { parser with data := { parser.data with status := atoi (data.drop marks.mark) } }
  | .reasonPhrase => { parser with data := { parser.data with reason := value } }
  | .writeContentLen =>
      { parser with contentLen := toInt32 (strtol 10 (data.drop marks.mark)) }
  | .writeValue =>
      parser.onResponseHttpField
        (slice data marks.fieldStart (marks.fieldStart + marks.fieldLen)) value
  | .chunkSize => parser.chunkSize (data.drop marks.mark)
  | .transChunked => { parser with chunked := true }
  | _ => parser

def scan (parser : HttpResponseParser) (data : List UInt8) : Scan ResponseAction :=
  responseScanner.scan parser.cs 0 data

def marks : Marks := { mark := 0, fieldStart := 0, fieldLen := 0, queryStart := 0 }

/-- `httpclient_parser_execute`; on an empty buffer the check of the marks makes the
result -1. -/
def run (parser : HttpResponseParser) (data : List UInt8) : HttpResponseParser × Int :=
  let scanned := parser.scan data
  let performed :=
    (occurrences ResponseAction.effect marks scanned.events).foldl (perform data) parser
  ({ performed with cs := scanned.state }, if data.isEmpty then -1 else scanned.position)

def execute (parser : HttpResponseParser) (data : List UInt8) (chunk : Bool) :
    HttpResponseParser × Int :=
  if chunk then parser.init.run data else parser.run data

/-- `httpclient_parser_finish`: only the first of the final states counts. -/
def isFinished (parser : HttpResponseParser) : Int :=
  if parser.cs = responseError then -1
  else if parser.cs = responseFirstFinal then 1
  else 0

def hasError (parser : HttpResponseParser) : Bool :=
  parser.error ≠ .ok || parser.cs = responseError

def getContentLength (cast : List UInt8 → Option UInt64) (parser : HttpResponseParser) :
    UInt64 :=
  getAs cast parser.data.headers (text "Content-Length") 0

end HttpResponseParser

end Http

end FiberNet
