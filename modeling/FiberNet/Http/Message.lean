import FiberNet.Foundation.OrderedMap
import Mathlib.Algebra.Group.Int.Defs
import Mathlib.Algebra.Group.Nat.Defs
import Mathlib.Data.List.Lex
import Mathlib.Order.Nat

/-! # Requests and responses

The message objects of the HTTP layer, their text form and what a request derives
from its own headers, query and body.
-/

namespace FiberNet

namespace Http

/-- The bytes of an ASCII literal. -/
def text (literal : String) : List UInt8 :=
  literal.toList.map fun char => UInt8.ofNat char.toNat

def decimal (number : Nat) : List UInt8 :=
  (Nat.toDigits 10 number).map fun char => UInt8.ofNat char.toNat

def toLower (byte : UInt8) : Nat :=
  if 65 ≤ byte.toNat && byte.toNat ≤ 90 then byte.toNat + 32 else byte.toNat

/-- What `strcasecmp` compares: the bytes before the first NUL without their case. -/
def folded (bytes : List UInt8) : List Nat :=
  (bytes.takeWhile (· ≠ 0)).map toLower

/-- `std::map<std::string, std::string, CaseInsensitiveLesser>`. -/
@[reducible] def MapType := OrderedMap folded (List UInt8)

inductive HttpMethod
  | delete | get | head | post | put | connect | option | trace | copy | lock | mkcol | move
  | propfind | proppatch | search | unlock | bind | rebind | unbind | acl | report
  | mkactivity | checkout | merge | msearch | notify | subscribe | unsubscribe | patch
  | purge | mkcalendar | link | unlink | source | invalidMethod
  deriving DecidableEq

/-- `HTTP_METHOD_MAP`. -/
def methodMap : List (HttpMethod × List UInt8) := [
  (.delete, text "DELETE"), (.get, text "GET"), (.head, text "HEAD"), (.post, text "POST"),
  (.put, text "PUT"), (.connect, text "CONNECT"), (.option, text "OPTION"),
  (.trace, text "TRACE"), (.copy, text "COPY"), (.lock, text "LOCK"),
  (.mkcol, text "MKCOL"), (.move, text "MOVE"), (.propfind, text "PROPFIND"),
  (.proppatch, text "PROPPATCH"), (.search, text "SEARCH"), (.unlock, text "UNLOCK"),
  (.bind, text "BIND"), (.rebind, text "REBIND"), (.unbind, text "UNBIND"),
  (.acl, text "ACL"), (.report, text "REPORT"), (.mkactivity, text "MKACTIVITY"),
  (.checkout, text "CHECKOUT"), (.merge, text "MERGE"), (.msearch, text "M-SEARCH"),
  (.notify, text "NOTIFY"), (.subscribe, text "SUBSRIBE"),
  (.unsubscribe, text "UNSUBSCRIBE"), (.patch, text "PATCH"), (.purge, text "PURGE"),
  (.mkcalendar, text "MKCALENDAR"), (.link, text "LINK"), (.unlink, text "UNLINK"),
  (.source, text "SOURCE")]

def httpMethodToString (method : HttpMethod) : List UInt8 :=
  (methodMap.lookup method).getD (text "INVALID METHOD")

def stringToHttpMethod (method : List UInt8) : HttpMethod :=
  ((methodMap.find? fun entry => decide (folded entry.2 = folded method)).map (·.1)).getD
    .invalidMethod

/-- `HTTP_STATUS_MAP`. A status is an `int` that the parser casts to the enumeration. -/
def statusMap : List (Int × List UInt8) := [
  (100, text "Continue"), (101, text "Switching Protocols"), (102, text "Processing"),
  (200, text "OK"), (201, text "Created"), (202, text "Accepted"),
  (203, text "Non Authoritative Infomation"), (204, text "No Content"),
  (205, text "Reset Content"), (206, text "Partial Content"), (207, text "Multi Status"),
  (208, text "Already reported"), (209, text "Connection Established"),
  (226, text "IM-Used"), (300, text "Multi Choices"), (301, text "Moved Permanently"),
  (302, text "Found"), (303, text "See Other"), (304, text "Not Modified"),
  (305, text "Use Proxy"), (307, text "Temporary Redirect"),
  (308, text "Permanent Redirect"), (400, text "Bad Request"), (401, text "Unauthorized"),
  (402, text "Payment Requried"), (403, text "Forbidden"), (404, text "Not Found"),
  (405, text "Method Not Allowed"), (406, text "Not Acceptable"),
  (407, text "Proxy Authentication Requried"), (408, text "Request Timeout"),
  (409, text "Conflic"), (410, text "GONE"), (411, text "Length Required"),
  (412, text "Precondition Failed"), (413, text "Payload too large"),
  (414, text "Uri Too Long"), (415, text "Unsupported Media Type"),
  (416, text "Range Not Satisfiable"), (417, text "Expectation Failed"),
  (421, text " Misdirected Request"), (422, text "Unprocessable Entity"),
  (423, text "Locked"), (424, text "Failed Dependency"), (426, text "Upgrade Required"),
  (428, text "Precondition Required"), (429, text "Too Many Requests"),
  (431, text "Request Header Fields Too Large"),
  (451, text "Unavailable For Legal Reasons"), (500, text "Internal Server Error"),
  (501, text "Not Implemented"), (502, text "Bad Gateway"),
  (503, text "Service Unavailable"), (504, text "Gateway Timeout"),
  (505, text "HTTP Version Not Supported"), (506, text "Variant Also Negotiates"),
  (507, text "Insufficient Storage"), (508, text "Loop Detected"),
  (510, text "Not Extended"), (511, text "Network Authentication Required")]

def httpStatusToString (status : Int) : List UInt8 :=
  (statusMap.lookup status).getD (text "INVALID STATUS")

def isHex (byte : UInt8) : Bool :=
  (48 ≤ byte.toNat && byte.toNat ≤ 57) || (65 ≤ byte.toNat && byte.toNat ≤ 70) ||
    (97 ≤ byte.toNat && byte.toNat ≤ 102)

def hexToDec (byte : UInt8) : Nat :=
  if byte.toNat ≤ 57 then byte.toNat - 48
  else if 97 ≤ byte.toNat then byte.toNat - 97 + 10
  else byte.toNat - 65 + 10

/-- `crypto::urlDecode` with its default of turning a space into a plus. -/
def urlDecode : List UInt8 → List UInt8
  | 37 :: high :: low :: bytes =>
      if isHex high && isHex low then
        UInt8.ofNat (hexToDec high * 16 + hexToDec low) :: urlDecode bytes
      else 37 :: urlDecode (high :: low :: bytes)
  | 32 :: bytes => 43 :: urlDecode bytes
  | byte :: bytes => byte :: urlDecode bytes
  | [] => []

def isSpace (byte : UInt8) : Bool :=
  byte.toNat = 32 || (9 ≤ byte.toNat && byte.toNat ≤ 13)

/-- The loop of `kvParser`, with `inValue` for its `type`. -/
def kvLoop (delim : UInt8) : (data key value : List UInt8) → (inValue : Bool) →
    MapType → MapType
  | [], key, value, inValue, map => if inValue then map.set key (urlDecode value) else map
  | byte :: data, key, value, inValue, map =>
      if isSpace byte then kvLoop delim data key value inValue map
      else if byte = delim then
        kvLoop delim data [] [] false (map.set key (urlDecode value))
      else if byte = 61 then kvLoop delim data key value true map
      else if inValue then kvLoop delim data key (value ++ [byte]) inValue map
      else kvLoop delim data (key ++ [byte]) value inValue map

def kvParser (data : List UInt8) (map : MapType) (delim : UInt8) : MapType :=
  kvLoop delim data [] [] false map

structure HttpRequest where
  method : HttpMethod := .get
  version : UInt8 := 11
  close : Bool := true
  webSocket : Bool := false
  /-- Which of query, form and cookies have been parsed. -/
  queryDone : Bool := false
  bodyDone : Bool := false
  cookiesDone : Bool := false
  path : List UInt8 := text "/"
  query : List UInt8 := []
  fragment : List UInt8 := []
  body : List UInt8 := []
  uri : List UInt8 := []
  scheme : List UInt8 := []
  headers : MapType := ∅
  params : MapType := ∅
  cookies : MapType := ∅
  deriving DecidableEq

namespace HttpRequest

def getHeader (request : HttpRequest) (key : List UInt8) : List UInt8 :=
  (request.headers.find key).getD []

def setHeader (request : HttpRequest) (key value : List UInt8) : HttpRequest :=
  { request with headers := request.headers.set key value }

def startLine (request : HttpRequest) : List UInt8 :=
  httpMethodToString request.method ++ text " " ++
    (if request.method = .connect then request.scheme ++ text ":" ++ request.path
    else
      (if request.scheme.isEmpty then [] else request.scheme ++ text "://") ++ request.path ++
        ((if request.query.isEmpty then [] else text "?") ++ request.query) ++
        ((if request.fragment.isEmpty then [] else text "#") ++ request.fragment)) ++
    text " HTTP/" ++ decimal (request.version.toNat / 10) ++ text "." ++
    decimal (request.version.toNat % 10) ++ text "\r\n"

end HttpRequest

/-- The header lines that both `dump` functions write. -/
def headerLines (webSocket : Bool) (headers : MapType) : List UInt8 :=
  (headers.entries.map fun entry =>
    if !webSocket && decide (folded entry.1 = folded (text "connection")) then []
    else entry.1 ++ text ": " ++ entry.2 ++ text "\r\n").flatten

namespace HttpRequest

def dump (request : HttpRequest) : List UInt8 :=
  request.startLine ++ headerLines request.webSocket request.headers ++
    (if request.webSocket then []
    else text "Connection: " ++ text (if request.close then "close" else "keep-alive") ++
      text "\r\n") ++
    (if request.body.isEmpty then text "\r\n"
    else text "Content-length :" ++ decimal request.body.length ++ text "\r\n\r\n" ++
      request.body)

def init (request : HttpRequest) : HttpRequest :=
  if (request.getHeader (text "connection")).isEmpty then request
  else
    { request with
      close := !decide (folded (request.getHeader (text "connection")) =
        folded (text "keep-alive")) }

def initQueryParam (request : HttpRequest) : HttpRequest :=
  if request.queryDone then request
  else { request with params := kvParser request.query request.params 38, queryDone := true }

def initBodyParam (request : HttpRequest) : HttpRequest :=
  if request.bodyDone then request
  else if folded (request.getHeader (text "content-type")) ≠
      folded (text "application/x-www-form-urlencoded") then { request with bodyDone := true }
  else { request with params := kvParser request.body request.params 38, bodyDone := true }

def initCookies (request : HttpRequest) : HttpRequest :=
  if request.cookiesDone then request
  else if (request.getHeader (text "cookie")).isEmpty then { request with cookiesDone := true }
  else
    { request with
      cookies := kvParser (request.getHeader (text "cookie")) request.cookies 59
      cookiesDone := true }

def initParam (request : HttpRequest) : HttpRequest :=
  request.initQueryParam.initBodyParam.initCookies

/-- What `init` and `initParam` leave as it was received. -/
structure Unchanged (before behind : HttpRequest) : Prop where
  method : behind.method = before.method
  version : behind.version = before.version
  path : behind.path = before.path
  query : behind.query = before.query
  fragment : behind.fragment = before.fragment
  body : behind.body = before.body
  headers : behind.headers = before.headers

theorem Unchanged.refl (request : HttpRequest) : Unchanged request request :=
  ⟨rfl, rfl, rfl, rfl, rfl, rfl, rfl⟩

theorem Unchanged.trans {first second third : HttpRequest} (before : Unchanged first second)
    (behind : Unchanged second third) : Unchanged first third :=
  ⟨behind.method.trans before.method, behind.version.trans before.version,
    behind.path.trans before.path, behind.query.trans before.query,
    behind.fragment.trans before.fragment, behind.body.trans before.body,
    behind.headers.trans before.headers⟩

theorem unchanged_init (request : HttpRequest) : Unchanged request request.init := by
  unfold init
  split
  · exact .refl request
  · exact ⟨rfl, rfl, rfl, rfl, rfl, rfl, rfl⟩

theorem unchanged_initQueryParam (request : HttpRequest) :
    Unchanged request request.initQueryParam := by
  unfold initQueryParam
  split
  · exact .refl request
  · exact ⟨rfl, rfl, rfl, rfl, rfl, rfl, rfl⟩

theorem unchanged_initBodyParam (request : HttpRequest) :
    Unchanged request request.initBodyParam := by
  unfold initBodyParam
  split
  · exact .refl request
  · split <;> exact ⟨rfl, rfl, rfl, rfl, rfl, rfl, rfl⟩

theorem unchanged_initCookies (request : HttpRequest) :
    Unchanged request request.initCookies := by
  unfold initCookies
  split
  · exact .refl request
  · split <;> exact ⟨rfl, rfl, rfl, rfl, rfl, rfl, rfl⟩

theorem unchanged_initParam (request : HttpRequest) : Unchanged request request.initParam :=
  ((unchanged_initQueryParam request).trans (unchanged_initBodyParam _)).trans
    (unchanged_initCookies _)

theorem unchanged_received (request : HttpRequest) :
    Unchanged request request.init.initParam :=
  (unchanged_init request).trans (unchanged_initParam _)

/-- Only `init` sets the close flag. -/
theorem close_initParam (request : HttpRequest) : request.initParam.close = request.close := by
  unfold initParam initCookies initBodyParam initQueryParam
  split_ifs <;> rfl

end HttpRequest

structure HttpResponse where
  status : Int := 200
  version : UInt8 := 11
  close : Bool := true
  webSocket : Bool := false
  body : List UInt8 := []
  reason : List UInt8 := []
  headers : MapType := ∅
  cookies : List (List UInt8) := []
  deriving DecidableEq

namespace HttpResponse

def getStatus (response : HttpResponse) : Int :=
  if response.status = 209 then 200 else response.status

def getHeader (response : HttpResponse) (key : List UInt8) : List UInt8 :=
  (response.headers.find key).getD []

def setHeader (response : HttpResponse) (key value : List UInt8) : HttpResponse :=
  { response with headers := response.headers.set key value }

def delHeader (response : HttpResponse) (key : List UInt8) : HttpResponse :=
  { response with headers := response.headers.erase key }

def startLine (response : HttpResponse) : List UInt8 :=
  text "HTTP/" ++ decimal (response.version.toNat / 10) ++ text "." ++
    decimal (response.version.toNat % 10) ++ text " " ++ decimal (response.status % 2 ^ 32).toNat ++
    text " " ++
    (if response.reason.isEmpty then httpStatusToString response.status
    else response.reason) ++ text "\r\n"

def dump (response : HttpResponse) : List UInt8 :=
  response.startLine ++ headerLines response.webSocket response.headers ++
    (response.cookies.map fun cookie => text "Set-Cookie: " ++ cookie ++ text "\r\n").flatten ++
    (if response.webSocket then []
    else text "connection: " ++ text (if response.close then "close" else "keep-alive") ++
      text "\r\n") ++
    (if response.body.isEmpty then text "\r\n"
    else text "content-lentgh: " ++ decimal response.body.length ++ text "\r\n\r\n" ++
      response.body)

end HttpResponse

/-- `getAs<uint64_t>`: a missing key or a failed cast gives the default. -/
def getAs (cast : List UInt8 → Option UInt64) (map : MapType) (key : List UInt8)
    (default : UInt64) : UInt64 :=
  ((map.find key).bind cast).getD default

end Http

end FiberNet
