import FiberNet.Http.Receive
import FiberNet.Http.Servlet

/-! # One connection of a server

`HttpServer::handleClient` receives a request, lets a servlet answer it and sends the
answer, over and over. Requests come from `recvRequest`, which alone decides what their
close flags are.
-/

namespace FiberNet

namespace Http

/-- A header value that asks for a connection to be kept. -/
def isKeepAlive (value : List UInt8) : Bool :=
  decide (folded value = folded (text "keep-alive"))

/-! ## The close flag of a received request -/

namespace HttpRequestParser

variable {parser performed : HttpRequestParser} {data : List UInt8}

theorem close_perform {occurrence : Occurrence RequestAction}
    (taken : perform data parser occurrence = some performed) :
    performed.data.close = parser.data.close := by
  unfold perform at taken
  dsimp only at taken
  split at taken
  case h_6 =>
    cases taken
    unfold onRequestVersion
    split_ifs <;> rfl
  case h_7 =>
    split at taken
    · cases taken
      rfl
    · cases taken
  case h_8 =>
    cases taken
    unfold onRequestHttpField
    split_ifs <;> rfl
  all_goals
    cases taken
    rfl

theorem close_performs {occurrences : List (Occurrence RequestAction)}
    (taken : occurrences.foldlM (perform data) parser = some performed) :
    performed.data.close = parser.data.close := by
  induction occurrences generalizing parser with
  | nil =>
      cases taken
      rfl
  | cons occurrence occurrences induction =>
      rw [List.foldlM_cons] at taken
      rcases Option.bind_eq_some_iff.mp taken with ⟨next, first, rest⟩
      exact (induction rest).trans (close_perform first)

/-- Parsing leaves the close flag as the constructor of the request set it. -/
theorem close_execute {nparser : Nat}
    (executed : parser.execute data = some (performed, nparser)) :
    performed.data.close = parser.data.close := by
  rcases Option.map_eq_some_iff.mp executed with ⟨final, taken, same⟩
  cases same
  have kept := close_performs taken
  exact kept

end HttpRequestParser

/-- A request is to be closed behind unless its own header asks for keeping. -/
structure ReceivedRequest where
  request : HttpRequest
  close_eq : request.close = !isKeepAlive (request.getHeader (text "connection"))

theorem close_constructed {request : HttpRequest} (closed : request.close = true) :
    request.init.initParam.close =
      !isKeepAlive (request.init.initParam.getHeader (text "connection")) := by
  have header : request.init.initParam.getHeader (text "connection") =
      request.getHeader (text "connection") := by
    rw [HttpRequest.getHeader, HttpRequest.getHeader,
      (HttpRequest.unchanged_received request).headers]
  rw [header, HttpRequest.close_initParam, HttpRequest.init]
  split
  · rename_i empty
    rw [closed, List.isEmpty_iff.mp empty]
    rfl
  · rfl

namespace RequestCall

variable {settings : Settings}

/-- A call whose parser has left the close flag alone. -/
def Closing : RequestCall → Prop
  | .header parser _ => parser.data.close = true
  | .fixedBody parser _ _ _ => parser.data.close = true
  | .finished outcome => ∀ request, outcome = .returned request →
      request.close = !isKeepAlive (request.getHeader (text "connection"))

theorem closing_checked {accesses : List Access} {next : RequestCall} (closing : next.Closing) :
    (checked settings accesses next).Closing := by
  unfold checked
  split
  · exact closing
  · intro request same
    cases same

theorem closing_null (closed : Bool) : (finished (.null closed)).Closing := by
  intro request same
  cases same

theorem closing_finish {request : HttpRequest} (closed : request.close = true) :
    (finish request).Closing := by
  intro returned same
  cases same
  exact close_constructed closed

theorem close_setBody (parser : HttpRequestParser) (body : List UInt8) :
    (setBody parser body).close = parser.data.close := rfl

theorem closing_setBody {parser : HttpRequestParser} (closed : parser.data.close = true)
    (body : List UInt8) : (finish (setBody parser body)).Closing :=
  closing_finish ((close_setBody parser body).trans closed)

theorem closing_afterHeader {parser : HttpRequestParser} (closed : parser.data.close = true)
    (remain : List UInt8) : (afterHeader settings parser remain).Closing := by
  unfold afterHeader
  dsimp only
  generalize toInt64 (parser.getContentLength settings.lexicalCast).toNat = length
  split
  · split
    · exact closing_checked closed
    · exact closing_checked (closing_setBody closed _)
  · exact closing_finish closed

theorem closing_parseHeader {parser : HttpRequestParser} (closed : parser.data.close = true)
    (data : List UInt8) : (parseHeader settings parser data).Closing := by
  unfold parseHeader
  cases executed : parser.execute data with
  | none =>
      intro request same
      cases same
  | some result =>
      rcases result with ⟨performed, nparser⟩
      have kept := (HttpRequestParser.close_execute executed).trans closed
      dsimp only
      apply closing_checked
      split
      · exact closing_null true
      · split
        · exact closing_null true
        · split
          · exact closing_afterHeader kept _
          · exact closing_checked kept

theorem closing_onBody {parser : HttpRequestParser} (closed : parser.data.close = true)
    (body : List UInt8) (asked left : Nat) (read : Read) :
    (onBody parser body asked left read).Closing := by
  unfold onBody
  split
  · exact closing_null true
  · split
    · exact closed
    · split
      · exact closing_null true
      · exact closing_setBody closed _

theorem closing_step {call next : RequestCall} {read : Read} (closing : call.Closing)
    (taken : call.step settings read = some next) : next.Closing := by
  unfold step at taken
  split at taken
  · cases call with
    | header parser remain =>
        cases taken
        apply closing_checked
        split
        · exact closing_null true
        · exact closing_parseHeader closing _
    | fixedBody parser body asked left =>
        cases taken
        exact closing_onBody closing body asked left read
    | finished outcome => cases taken
  · cases taken

/-- The requests that `recvRequest` returns. -/
def received {request : HttpRequest}
    (reachable : (recvRequest settings).Reachable (.finished (.returned request))) :
    ReceivedRequest where
  request := request
  close_eq := by
    have closing : Closing (.finished (.returned request)) := by
      refine Machine.ReachableWhere.invariant ?_ ?_ reachable
      · intro call initial
        cases initial
        exact closing_checked rfl
      · intro call read next _ closing _ taken
        exact closing_step closing taken
    exact closing request rfl

end RequestCall

/-! ## What an answer says of the connection -/

namespace HttpResponse

/-- The value of the connection header that is sent. A web socket's answer has only its
own headers. -/
def connection (response : HttpResponse) : List UInt8 :=
  if response.webSocket then response.getHeader (text "connection")
  else text (if response.close then "close" else "keep-alive")

/-- The answer was sent with `connection: keep-alive`. -/
def KeepsAlive (response : HttpResponse) : Prop := isKeepAlive response.connection = true

/-- A web socket's answer is sent with all its headers. -/
theorem headerLines_of_find {headers : MapType} {key value : List UInt8}
    (found : headers.find key = some value) :
    ∃ name, folded name = folded key ∧
      name ++ text ": " ++ value ++ text "\r\n" <:+: headerLines true headers := by
  rcases Option.map_eq_some_iff.mp found with ⟨entry, searched, same⟩
  have named : folded entry.1 = folded key := by simpa using List.find?_some searched
  rcases List.append_of_mem (List.mem_of_find?_eq_some searched) with ⟨front, back, entries⟩
  refine ⟨entry.1, named, ?_⟩
  rw [headerLines, entries, List.map_append, List.flatten_append, List.map_cons,
    List.flatten_cons, ← List.append_assoc, same]
  exact List.infix_append _ _ _

/-- A connection header that is not empty is a line of the answer. -/
theorem dump_connection {response : HttpResponse} (present : response.connection ≠ []) :
    ∃ name, folded name = folded (text "connection") ∧
      name ++ text ": " ++ response.connection ++ text "\r\n" <:+: response.dump := by
  cases webSocket : response.webSocket with
  | false =>
      have line : response.connection =
          text (if response.close then "close" else "keep-alive") := by
        rw [connection, webSocket]
        rfl
      have title : text "connection: " = text "connection" ++ text ": " := rfl
      rw [dump, webSocket, if_neg Bool.false_ne_true, title, ← line]
      exact ⟨text "connection", rfl, List.infix_append _ _ _⟩
  | true =>
      have line : response.connection = response.getHeader (text "connection") := by
        rw [connection, webSocket, if_pos rfl]
      rw [line, getHeader] at present
      cases found : response.headers.find (text "connection") with
      | none =>
          rw [found] at present
          exact absurd rfl present
      | some value =>
          rcases headerLines_of_find found with ⟨name, named, sent⟩
          rw [line, getHeader, found, Option.getD_some, dump, webSocket]
          refine ⟨name, named, sent.trans ?_⟩
          have first := List.infix_append response.startLine (headerLines true response.headers)
          exact ((first _).trans (List.prefix_append _ _).isInfix).trans
            (List.prefix_append _ _).isInfix

theorem keepsAlive_iff {response : HttpResponse} (plain : response.webSocket = false) :
    response.KeepsAlive ↔ response.close = false := by
  rw [KeepsAlive, connection, plain, if_neg Bool.false_ne_true]
  cases response.close with
  | false => exact iff_of_true rfl rfl
  | true => exact iff_of_false (by decide) (by decide)

end HttpResponse

/-! ## The servlets -/

/-- What a servlet of the user or a callback does. It leaves the close flag alone. -/
structure Handler where
  handle : HttpRequest → HttpResponse → HttpResponse
  close_handle : ∀ request response, (handle request response).close = response.close

/-- `m_content` of a `NotFoundServlet`. -/
def notFoundContent (name : List UInt8) : List UInt8 :=
  text "<html><head><title>404 Not Found</title></head><body><center><h1>404 Not Found" ++
    text "</h1></center><hr><center>" ++ name ++ text "</center></body></html>"

def Servlet.handle (servlet : Servlet Handler Handler) (request : HttpRequest)
    (response : HttpResponse) : HttpResponse :=
  match servlet with
  | .user servlet => servlet.handle request response
  | .functionServlet cb => cb.handle request response
  | .notFoundServlet name =>
      { (response.setHeader (text "Server") (text "HttpServer/1.0.0")).setHeader
          (text "Content-Type") (text "text/html") with
        status := 404
        body := notFoundContent name }

theorem Servlet.close_handle (servlet : Servlet Handler Handler) (request : HttpRequest)
    (response : HttpResponse) : (servlet.handle request response).close = response.close := by
  cases servlet with
  | user servlet => exact servlet.close_handle request response
  | functionServlet cb => exact cb.close_handle request response
  | notFoundServlet name => rfl

section

variable (fnmatch : List UInt8 → List UInt8 → Bool)

def ServletDispatch.handle (dispatch : ServletDispatch Handler Handler) (request : HttpRequest)
    (response : HttpResponse) : HttpResponse :=
  match dispatch.getMatchServlet fnmatch request.path with
  | some slt => slt.handle request response
  | none => response

theorem ServletDispatch.close_handle (dispatch : ServletDispatch Handler Handler)
    (request : HttpRequest) (response : HttpResponse) :
    (dispatch.handle fnmatch request response).close = response.close := by
  unfold handle
  split
  · exact Servlet.close_handle _ request response
  · rfl

/-! ## The loop -/

inductive Event
  | recvRequest
  | sendResponse (response : HttpResponse)

variable (keepAlive : Bool) (dispatches : Nat → ServletDispatch Handler Handler)

/-- The answer to the request of a turn. Others change the dispatch between the turns. -/
def answer (turn : Nat) (request : HttpRequest) : HttpResponse :=
  (dispatches turn).handle fnmatch request
    { version := request.version, close := request.close || !keepAlive }

/-- The calls on the session from a turn on, while `recvRequest` gives the incoming requests
and then null. -/
def handleClient (turn : Nat) : (incoming : List HttpRequest) → List Event
  | [] => [.recvRequest]
  | request :: incoming =>
      .recvRequest :: .sendResponse (answer fnmatch keepAlive dispatches turn request) ::
        if keepAlive then handleClient (turn + 1) incoming else []

/-- The requests that are answered. -/
def handled {Request : Type u} (requests : List Request) : List Request :=
  if keepAlive then requests else requests.take 1

/-- What is sent is what the server does with the connection. A web socket's answer says it
by the servlet's own header. Any other one says that the connection is kept only if the
server and the request ask for it. -/
def Announced (turn : Nat) (request : HttpRequest) : Prop :=
  if (answer fnmatch keepAlive dispatches turn request).webSocket then
    isKeepAlive ((answer fnmatch keepAlive dispatches turn request).getHeader
      (text "connection")) = keepAlive
  else keepAlive = true → isKeepAlive (request.getHeader (text "connection")) = true

end

/-- The session reads again behind an answer that keeps the connection, and does nothing
more behind any other. -/
def Honoured (response : HttpResponse) (after : List Event) : Prop :=
  (after.head? = some .recvRequest ↔ response.KeepsAlive) ∧ (¬response.KeepsAlive → after = [])

def KeepAliveContract (trace : List Event) : Prop :=
  ∀ before response after, trace = before ++ .sendResponse response :: after →
    Honoured response after

theorem contract_nil : KeepAliveContract [] := by
  intro before response after split
  exact absurd split (by simp)

theorem contract_receive {trace : List Event} :
    KeepAliveContract (.recvRequest :: trace) ↔ KeepAliveContract trace := by
  constructor
  · intro contract before response after split
    exact contract (.recvRequest :: before) response after (by rw [split, List.cons_append])
  · intro contract before response after split
    cases before with
    | nil => cases split
    | cons first before => exact contract before response after (List.cons.inj split).2

theorem contract_send {response : HttpResponse} {after : List Event} :
    KeepAliveContract (.sendResponse response :: after) ↔
      Honoured response after ∧ KeepAliveContract after := by
  constructor
  · intro contract
    constructor
    · exact contract [] response after rfl
    · intro before later rest split
      exact contract (.sendResponse response :: before) later rest
        (by rw [split, List.cons_append])
  · intro both before later rest split
    cases before with
    | nil =>
        cases split
        exact both.1
    | cons first before => exact both.2 before later rest (List.cons.inj split).2

section

variable (fnmatch : List UInt8 → List UInt8 → Bool) (keepAlive : Bool)
  (dispatches : Nat → ServletDispatch Handler Handler)

/-- The loop starts by reading. -/
theorem head_handleClient (turn : Nat) (incoming : List HttpRequest) :
    (handleClient fnmatch keepAlive dispatches turn incoming).head? = some .recvRequest := by
  cases incoming <;> rfl

theorem close_answer (turn : Nat) (request : HttpRequest) :
    (answer fnmatch keepAlive dispatches turn request).close = (request.close || !keepAlive) :=
  ServletDispatch.close_handle fnmatch (dispatches turn) request _

theorem announced_iff (turn : Nat) (received : ReceivedRequest) :
    Announced fnmatch keepAlive dispatches turn received.request ↔
      (keepAlive = true ↔
        (answer fnmatch keepAlive dispatches turn received.request).KeepsAlive) := by
  unfold Announced
  cases webSocket : (answer fnmatch keepAlive dispatches turn received.request).webSocket with
  | true =>
      rw [if_pos rfl, HttpResponse.KeepsAlive, HttpResponse.connection, webSocket, if_pos rfl,
        ← Bool.eq_iff_iff, eq_comm]
  | false =>
      rw [if_neg Bool.false_ne_true, HttpResponse.keepsAlive_iff webSocket, close_answer,
        received.close_eq]
      cases keepAlive <;> simp

/-- One turn of the loop: what comes behind an answer is up to the server alone. -/
theorem honoured_answer (turn : Nat) (received : ReceivedRequest) (incoming : List HttpRequest) :
    Honoured (answer fnmatch keepAlive dispatches turn received.request)
        (if keepAlive then handleClient fnmatch keepAlive dispatches (turn + 1) incoming
          else []) ↔
      Announced fnmatch keepAlive dispatches turn received.request := by
  rw [announced_iff]
  cases keepAlive with
  | true =>
      rw [if_pos rfl, Honoured, head_handleClient]
      constructor
      · intro honoured
        exact (iff_of_true rfl rfl).trans honoured.1
      · intro announced
        exact ⟨(iff_of_true rfl rfl).trans announced, fun drops => absurd (announced.mp rfl) drops⟩
  | false =>
      rw [if_neg Bool.false_ne_true, Honoured]
      simp

theorem contract_handleClient_cons (turn : Nat) (received : ReceivedRequest)
    (incoming : List HttpRequest) :
    KeepAliveContract
        (handleClient fnmatch keepAlive dispatches turn (received.request :: incoming)) ↔
      Announced fnmatch keepAlive dispatches turn received.request ∧
        KeepAliveContract
          (if keepAlive then handleClient fnmatch keepAlive dispatches (turn + 1) incoming
            else []) := by
  rw [handleClient, contract_receive, contract_send, honoured_answer]

/-- A server that keeps connections meets the contract if it does in every turn. -/
theorem contract_kept (turn : Nat) (requests : List ReceivedRequest) :
    KeepAliveContract (handleClient fnmatch true dispatches turn (requests.map (·.request))) ↔
      ∀ index received, requests[index]? = some received →
        Announced fnmatch true dispatches (turn + index) received.request := by
  induction requests generalizing turn with
  | nil =>
      apply iff_of_true
      · exact contract_receive.mpr contract_nil
      · intro index received found
        cases found
  | cons first requests induction =>
      rw [List.map_cons, contract_handleClient_cons, if_pos rfl, induction]
      constructor
      · intro both index received found
        cases index with
        | zero =>
            cases found
            exact both.1
        | succ index =>
            have announced := both.2 index received found
            rwa [Nat.add_assoc, Nat.add_comm 1 index] at announced
      · intro all
        constructor
        · exact all 0 first rfl
        · intro index received found
          rw [Nat.add_assoc, Nat.add_comm 1 index]
          exact all (index + 1) received found

/-- A connection meets the contract if in each turn that is taken the answer says what the
server does. -/
theorem handleClient_iff (requests : List ReceivedRequest) :
    KeepAliveContract
        (handleClient fnmatch keepAlive dispatches 0 (requests.map (·.request))) ↔
      ∀ turn received, (handled keepAlive requests)[turn]? = some received →
        Announced fnmatch keepAlive dispatches turn received.request := by
  cases keepAlive with
  | true =>
      rw [contract_kept, handled, if_pos rfl]
      simp only [Nat.zero_add]
  | false =>
      rw [handled, if_neg Bool.false_ne_true]
      cases requests with
      | nil =>
          apply iff_of_true
          · exact contract_receive.mpr contract_nil
          · intro turn received found
            cases found
      | cons first requests =>
          rw [List.map_cons, contract_handleClient_cons, if_neg Bool.false_ne_true,
            and_iff_left contract_nil]
          constructor
          · intro announced turn received found
            cases turn with
            | zero =>
                cases found
                exact announced
            | succ turn => cases found
          · intro all
            exact all 0 first rfl

end

/-- A request without a connection header. The answer says "close" and the session reads
again. -/
theorem not_keepAliveContract :
    ¬∀ (fnmatch : List UInt8 → List UInt8 → Bool) (keepAlive : Bool)
      (dispatches : Nat → ServletDispatch Handler Handler) (requests : List ReceivedRequest),
      KeepAliveContract
        (handleClient fnmatch keepAlive dispatches 0 (requests.map (·.request))) := by
  intro contract
  have run := contract (fun _ _ => false) true (fun _ => ServletDispatch.new none)
    [⟨{}, rfl⟩] [.recvRequest] _ [.recvRequest] rfl
  have kept := (HttpResponse.keepsAlive_iff rfl).mp (run.1.mp rfl)
  exact absurd kept (by decide)

end Http

end FiberNet
