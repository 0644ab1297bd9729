import FiberNet.Foundation.Machine
import FiberNet.Http.Parser

/-! # Receiving a message

`HttpSession::recvRequest` and `HttpConnection::recvResponse` as machines. A call is
suspended at each socket read; a step gives it the result of that read and carries
it to its next read or to its end. Each use of the receive buffer or of a count is
checked: the first one out of bounds ends the call in `fault`.
-/

namespace FiberNet

namespace Http

structure Settings where
  /-- The value that `uri_relaxed` happens to have. -/
  uriRelaxed : Bool
  /-- `boost::lexical_cast<uint64_t>`, `none` when it throws. -/
  lexicalCast : List UInt8 → Option UInt64
  requestHeaderSize : Nat
  requestBodySize : Nat
  responseHeaderSize : Nat
  responseBodySize : Nat

/-- What `lexical_cast` makes of plain decimal numbers. -/
def decimalCast (bytes : List UInt8) : Option UInt64 :=
  if bytes ≠ [] ∧ bytes.all (isDigit 10) ∧ digitsValue 10 bytes < 2 ^ 64 then
    some (UInt64.ofNat (digitsValue 10 bytes))
  else none

/-- The limits as they are configured by default. -/
def defaultSettings : Settings where
  uriRelaxed := false
  lexicalCast := decimalCast
  requestHeaderSize := 4 * 1024
  requestBodySize := 64 * 1024 * 1024
  responseHeaderSize := 4 * 1024
  responseBodySize := 64 * 1024 * 1024

/-- The result of one socket read. No bytes are the end of the stream. -/
inductive Read
  | bytes (content : List UInt8)
  | failed
  deriving DecidableEq

namespace Read

def content : Read → List UInt8
  | .bytes content => content
  | .failed => []

/-- What `read` returns. -/
def count : Read → Int
  | .bytes content => content.length
  | .failed => -1

end Read

/-- A use of the buffer of `header_size + 1` bytes, or of a count. -/
inductive Access
  /-- `data[index] = 0` -/
  | store (index : Int)
  /-- `read(data + offset, size)` -/
  | read (offset size : Int)
  /-- `memmove(data, data + source, count)` with `present` bytes in the buffer -/
  | move (source count present : Int)
  /-- `append`, `memcpy` or a read into a body that has `present` bytes to give or to
  take -/
  | copy (count present : Int)
  | resize (count : Int)
  deriving DecidableEq

def Access.inBounds (headerSize : Nat) : Access → Bool
  | .store index => 0 ≤ index ∧ index ≤ headerSize
  | .read offset size => 0 ≤ offset ∧ 0 < size ∧ offset + size ≤ headerSize
  | .move source count present => 0 ≤ source ∧ 0 ≤ count ∧ source + count ≤ present
  | .copy count present => 0 ≤ count ∧ count ≤ present
  | .resize count => 0 ≤ count

/-- How a call ended. `null` tells whether the stream was closed before. -/
inductive Outcome (Message : Type u)
  | returned (message : Message)
  | null (closed : Bool)
  | threw
  | fault
  deriving DecidableEq

/-! ## `HttpSession::recvRequest` -/

/-- Where a call of `recvRequest` is suspended: in the loop that reads the header, with
the bytes that remain in the buffer, or in `readFixSize` for the body. -/
inductive RequestCall
  | header (parser : HttpRequestParser) (remain : List UInt8)
  | fixedBody (parser : HttpRequestParser) (body : List UInt8) (asked left : Nat)
  | finished (outcome : Outcome HttpRequest)
  deriving DecidableEq

namespace RequestCall

variable (settings : Settings)

/-- Go on if all accesses are in bounds. -/
def checked (accesses : List Access) (next : RequestCall) : RequestCall :=
  if accesses.all (·.inBounds settings.requestHeaderSize) then next else .finished .fault

/-- The size of the read at which the call is suspended. -/
def requested : RequestCall → Nat
  | .header _ remain => settings.requestHeaderSize - remain.length
  | .fixedBody _ _ _ left => left
  | .finished _ => 0

/-- The top of the header loop: `read(data + remain, header_size - remain)`. -/
def awaitHeader (parser : HttpRequestParser) (remain : List UInt8) : RequestCall :=
  checked settings
    [.read remain.length ((settings.requestHeaderSize : Int) - remain.length)]
    (.header parser remain)

def finish (request : HttpRequest) : RequestCall :=
  .finished (.returned request.init.initParam)

def setBody (parser : HttpRequestParser) (body : List UInt8) : HttpRequest :=
  { parser.data with body }

/-- Behind the header loop: the body, as far as it came with the header. -/
def afterHeader (parser : HttpRequestParser) (remain : List UInt8) : RequestCall :=
  let length := toInt64 (parser.getContentLength settings.lexicalCast).toNat
  if 0 < length then
    let received := if (remain.length : Int) ≤ length then remain else remain.take length.toNat
    let left := length - remain.length
    if 0 < left then
      checked settings
        [.resize length, .copy received.length remain.length,
          .copy left (length - received.length)]
        (.fixedBody parser received left.toNat left.toNat)
    else
      checked settings [.resize length, .copy received.length remain.length]
        (finish (setBody parser received))
  else finish parser.data

/-- The header loop behind its read. -/
def parseHeader (parser : HttpRequestParser) (data : List UInt8) : RequestCall :=
  match parser.execute data with
  | none => .finished .threw
  | some (parser, nparser) =>
      checked settings [.move nparser ((data.length : Int) - nparser) data.length] <|
        if parser.hasError then .finished (.null true)
        else if (data.drop nparser).length = settings.requestHeaderSize then
          .finished (.null true)
        else if parser.isFinished ≠ 0 then afterHeader settings parser (data.drop nparser)
        else awaitHeader settings parser (data.drop nparser)

def onHeader (parser : HttpRequestParser) (remain : List UInt8) (read : Read) : RequestCall :=
  checked settings [.store read.count] <|
    if read.count ≤ 0 then .finished (.null true)
    else
      -- The NUL is stored behind the count of this read, not behind the data.
      parseHeader settings parser ((remain ++ read.content).set read.content.length 0)

/-- The loop of `readFixSize`, which returns the length as an `int`. -/
def onBody (parser : HttpRequestParser) (body : List UInt8) (asked left : Nat) (read : Read) :
    RequestCall :=
  if read.count ≤ 0 then .finished (.null true)
  else if read.content.length < left then
    .fixedBody parser (body ++ read.content) asked (left - read.content.length)
  else if toInt32 asked ≤ 0 then .finished (.null true)
  else finish (setBody parser (body ++ read.content))

/-- A read gives at most what was asked for. -/
def step (call : RequestCall) (read : Read) : Option RequestCall :=
  if read.content.length ≤ call.requested settings then
    match call with
    | .header parser remain => some (onHeader settings parser remain read)
    | .fixedBody parser body asked left => some (onBody parser body asked left read)
    | .finished _ => none
  else none

/-- A new call, with a new parser. -/
def start : RequestCall :=
  awaitHeader settings { uriRelaxed := settings.uriRelaxed } []

end RequestCall

def recvRequest (settings : Settings) : Machine RequestCall Read where
  initial call := call = RequestCall.start settings
  step := RequestCall.step settings

def RequestCall.outcome : RequestCall → Option (Outcome HttpRequest)
  | .finished outcome => some outcome
  | _ => none

/-- The requests of successive calls on one connection, if each call returns one. -/
def recvRequests (settings : Settings) : Nat → List Read → Option (List HttpRequest)
  | 0, _ => some []
  | calls + 1, reads =>
      match (recvRequest settings).runUntil RequestCall.outcome (RequestCall.start settings)
        reads with
      | some (.returned request, rest) =>
          (recvRequests settings calls rest).map (request :: ·)
      | _ => none

/-! ## `HttpConnection::recvResponse` -/

inductive ResponseCall
  | header (parser : HttpResponseParser) (remain : List UInt8)
  /-- The read for the next chunk-size line, behind the bytes in the buffer. -/
  | chunkLine (parser : HttpResponseParser) (body buffer : List UInt8)
  /-- `readFixSize(data, nread)` of a chunk that did not fit into the buffer. -/
  | chunkData (parser : HttpResponseParser) (body : List UInt8) (left nread : Nat)
      (received : List UInt8)
  | fixedBody (parser : HttpResponseParser) (body : List UInt8) (asked left : Nat)
  | finished (outcome : Outcome HttpResponse)
  deriving DecidableEq

namespace ResponseCall

variable (settings : Settings)

def checked (accesses : List Access) (next : ResponseCall) : ResponseCall :=
  if accesses.all (·.inBounds settings.responseHeaderSize) then next else .finished .fault

def requested : ResponseCall → Nat
  | .header _ remain => settings.responseHeaderSize - remain.length
  | .chunkLine _ _ buffer => settings.responseHeaderSize - buffer.length
  | .chunkData _ _ _ nread received => nread - received.length
  | .fixedBody _ _ _ left => left
  | .finished _ => 0

def awaitHeader (parser : HttpResponseParser) (remain : List UInt8) : ResponseCall :=
  checked settings
    [.read remain.length ((settings.responseHeaderSize : Int) - remain.length)]
    (.header parser remain)

def finish (parser : HttpResponseParser) (body : List UInt8) : ResponseCall :=
  .finished (.returned { parser.data with body })

/-- The next `readFixSize(data, nread)` of the loop for the rest of a chunk. -/
def awaitChunkData (parser : HttpResponseParser) (body : List UInt8) (left : Nat) :
    ResponseCall :=
  let nread := min left settings.responseHeaderSize
  checked settings [.read 0 nread] (.chunkData parser body left nread [])

/-- The chunk loop over the bytes in the buffer. Each round scans at least one of them,
so the fuel is their number and one. -/
def chunkLoop : (fuel : Nat) → HttpResponseParser → (body buffer : List UInt8) → ResponseCall
  | 0, _, _, _ => .finished .fault
  | fuel + 1, parser, body, buffer =>
      if buffer.isEmpty then
        checked settings [.read 0 settings.responseHeaderSize] (.chunkLine parser body [])
      else
        let (parser, nparser) := parser.execute buffer true
        checked settings
          [.store buffer.length, .move nparser (buffer.length - nparser) buffer.length] <|
          if parser.hasError then .finished (.null true)
          else
            let data := buffer.drop nparser.toNat
            let len := toInt32 data.length
            if toInt32 settings.responseHeaderSize ≤ len then .finished (.null true)
            else if parser.isFinished = 0 then chunkLoop fuel parser body data
            else if toInt32 (parser.contentLen + 2) ≤ len then
              checked settings
                [.copy parser.contentLen len,
                  .move (parser.contentLen + 2) (len - parser.contentLen - 2) len] <|
                let body := body ++ data.take parser.contentLen.toNat
                if parser.chunksDone then finish parser body
                else chunkLoop fuel parser body (data.drop (parser.contentLen.toNat + 2))
            else
              let left := toInt32 (parser.contentLen - len + 2)
              checked settings [.copy len len] <|
                if 0 < left then awaitChunkData settings parser (body ++ data) left.toNat
                else
                  checked settings [.resize ((body ++ data).length - 2)] <|
                    let body := (body ++ data).take ((body ++ data).length - 2)
                    if parser.chunksDone then finish parser body
                    else chunkLoop fuel parser body []

def decodeChunks (parser : HttpResponseParser) (body buffer : List UInt8) : ResponseCall :=
  chunkLoop settings (buffer.length + 1) parser body buffer

def afterHeader (parser : HttpResponseParser) (remain : List UInt8) : ResponseCall :=
  if parser.chunked then
    decodeChunks settings
      { parser with data := parser.data.delHeader (text "Transfer-Encoding") } [] remain
  else
    let length := toInt64 (parser.getContentLength settings.lexicalCast).toNat
    if 0 < length then
      let received := if (remain.length : Int) ≤ length then remain else remain.take length.toNat
      let left := length - received.length
      if 0 < left then
        checked settings
          [.resize length, .copy received.length remain.length,
            .copy left (length - received.length)]
          (.fixedBody parser received left.toNat left.toNat)
      else
        checked settings [.resize length, .copy received.length remain.length]
          (finish parser received)
    else finish parser []

def parseHeader (parser : HttpResponseParser) (data : List UInt8) : ResponseCall :=
  let (parser, nparser) := parser.execute data false
  checked settings
    [.store (toInt32 data.length), .move nparser (data.length - nparser) data.length] <|
    if parser.hasError then .finished (.null true)
    else
      let remain := data.drop nparser.toNat
      checked settings [.store remain.length] <|
        if remain.length = settings.responseHeaderSize then .finished (.null true)
        else if parser.isFinished ≠ 0 then afterHeader settings parser remain
        else awaitHeader settings parser remain

def onHeader (parser : HttpResponseParser) (remain : List UInt8) (read : Read) :
    ResponseCall :=
  if read.count ≤ 0 then .finished (.null true)
  else parseHeader settings parser (remain ++ read.content)

def onChunkLine (parser : HttpResponseParser) (body buffer : List UInt8) (read : Read) :
    ResponseCall :=
  if read.count ≤ 0 then .finished (.null true)
  else decodeChunks settings parser body (buffer ++ read.content)

/-- A failed read returns from here without closing the stream. -/
def onChunkData (parser : HttpResponseParser) (body : List UInt8) (left nread : Nat)
    (received : List UInt8) (read : Read) : ResponseCall :=
  if read.count ≤ 0 then .finished (.null false)
  else
    let received := received ++ read.content
    if received.length < nread then .chunkData parser body left nread received
    else
      checked settings [.copy nread received.length] <|
        let body := body ++ received
        if nread < left then awaitChunkData settings parser body (left - nread)
        else
          checked settings [.resize ((body.length : Int) - 2)] <|
            let body := body.take (body.length - 2)
            if parser.chunksDone then finish parser body
            else decodeChunks settings parser body []

def onBody (parser : HttpResponseParser) (body : List UInt8) (asked left : Nat) (read : Read) :
    ResponseCall :=
  if read.count ≤ 0 then .finished (.null true)
  else if read.content.length < left then
    .fixedBody parser (body ++ read.content) asked (left - read.content.length)
  else if toInt32 asked ≤ 0 then .finished (.null true)
  else finish parser (body ++ read.content)

def step (call : ResponseCall) (read : Read) : Option ResponseCall :=
  if read.content.length ≤ call.requested settings then
    match call with
    | .header parser remain => some (onHeader settings parser remain read)
    | .chunkLine parser body buffer => some (onChunkLine settings parser body buffer read)
    | .chunkData parser body left nread received =>
        some (onChunkData settings parser body left nread received read)
    | .fixedBody parser body asked left => some (onBody parser body asked left read)
    | .finished _ => none
  else none

def start : ResponseCall :=
  awaitHeader settings {} []

end ResponseCall

def recvResponse (settings : Settings) : Machine ResponseCall Read where
  initial call := call = ResponseCall.start settings
  step := ResponseCall.step settings

def ResponseCall.outcome : ResponseCall → Option (Outcome HttpResponse)
  | .finished outcome => some outcome
  | _ => none

end Http

end FiberNet
