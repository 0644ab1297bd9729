import FiberNet.Http.Receive
import Mathlib.Data.List.Basic

/-! # The receive buffers stay in bounds

What one `execute` leaves in the buffer, and from it the bounds of all accesses of
both receive calls, over all sequences of read results. `recvRequest` stores the NUL
before it looks at the result of the read, so a failed read stores in front of the
buffer. `recvResponse` trusts the size of a chunk, which is a `long` cut to an `int`.
-/

namespace FiberNet

namespace Http

theorem toInt32_of_lt {value : Int} (nonnegative : 0 ≤ value) (small : value < 2 ^ 31) :
    toInt32 value = value := by
  rw [toInt32, Int.bmod_eq_emod]
  split <;> omega

theorem toInt64_le (value : Nat) : toInt64 value ≤ value := by
  rw [toInt64, Int.bmod_eq_emod]
  split <;> omega

/-! ## One `execute` -/

set_option maxRecDepth 4000 in
/-- Every `done` of the request grammar leads to a final state. -/
theorem requestRows_done : ∀ row ∈ requestRows, ∀ edge ∈ row.2,
    edge.actions.any (fun action => decide (action = .done)) = true →
      requestFirstFinal ≤ edge.target := by
  decide

namespace HttpRequestParser

variable {parser performed : HttpRequestParser} {data : List UInt8} {nparser : Nat}

theorem execute_scan (executed : parser.execute data = some (performed, nparser)) :
    performed.cs = (parser.scan data).state ∧ nparser = (parser.scan data).position := by
  rcases Option.map_eq_some_iff.mp executed with ⟨_, -, result⟩
  cases result
  exact ⟨rfl, rfl⟩

theorem execute_le (executed : parser.execute data = some (performed, nparser)) :
    nparser ≤ data.length := by
  rw [(execute_scan executed).2, scan]
  simpa using (requestScanner parser.uriRelaxed).scan_position_le parser.cs 0 data

/-- A request that is neither wrong nor complete leaves nothing in the buffer. -/
theorem execute_all (executed : parser.execute data = some (performed, nparser))
    (accepted : performed.hasError = false) (unfinished : performed.isFinished = 0) :
    nparser = data.length := by
  rcases execute_scan executed with ⟨state, position⟩
  simp only [hasError, Bool.or_eq_false_iff, decide_eq_false_iff_not] at accepted
  have noError : (parser.scan data).state ≠ requestError := state ▸ accepted.2
  have notFinal : ¬ requestFirstFinal ≤ (parser.scan data).state := by
    intro final
    rw [isFinished, if_neg accepted.2, state, if_pos final] at unfinished
    cases unfinished
  cases running : (parser.scan data).running with
  | true =>
      rw [position, scan, Scanner.position_of_running running, Nat.zero_add]
  | false =>
      rcases Scanner.state_of_ended running with
        error | ⟨row, row_mem, edge, edge_mem, done, ended⟩
      · exact absurd error noError
      · exact absurd (ended ▸ requestRows_done row row_mem edge edge_mem done) notFinal

/-- What the actions leave alone; an error stays. -/
structure Frame (parser next : HttpRequestParser) : Prop where
  uriRelaxed : next.uriRelaxed = parser.uriRelaxed
  body : next.data.body = parser.data.body
  error : next.error = .ok → parser.error = .ok

theorem Frame.refl (parser : HttpRequestParser) : Frame parser parser :=
  ⟨rfl, rfl, id⟩

theorem Frame.trans {first second third : HttpRequestParser} (before : Frame first second)
    (behind : Frame second third) : Frame first third :=
  ⟨behind.uriRelaxed.trans before.uriRelaxed, behind.body.trans before.body,
    before.error ∘ behind.error⟩

theorem frame_onRequestMethod (parser : HttpRequestParser) (value : List UInt8) :
    Frame parser (parser.onRequestMethod value) := by
  refine ⟨rfl, rfl, fun kept => ?_⟩
  unfold onRequestMethod at kept
  dsimp only at kept
  split at kept
  · cases kept
  · exact kept

theorem frame_onRequestVersion (parser : HttpRequestParser) (value : List UInt8) :
    Frame parser (parser.onRequestVersion value) := by
  unfold onRequestVersion
  split
  · exact ⟨rfl, rfl, id⟩
  · split
    · exact ⟨rfl, rfl, id⟩
    · exact ⟨rfl, rfl, nofun⟩

theorem frame_onRequestHttpField (parser : HttpRequestParser) (field value : List UInt8) :
    Frame parser (parser.onRequestHttpField field value) := by
  unfold onRequestHttpField
  split <;> exact ⟨rfl, rfl, id⟩

theorem perform_frame {data : List UInt8} {parser next : HttpRequestParser}
    {occurrence : Occurrence RequestAction}
    (performed : perform data parser occurrence = some next) : Frame parser next := by
  unfold perform at performed
  cases action : occurrence.action with
  | requestMethod =>
      simp only [action, Option.some.injEq] at performed
      exact performed ▸ frame_onRequestMethod parser _
  | httpVersion =>
      simp only [action, Option.some.injEq] at performed
      exact performed ▸ frame_onRequestVersion parser _
  | writeValue =>
      simp only [action, Option.some.injEq] at performed
      exact performed ▸ frame_onRequestHttpField parser _ _
  | queryString =>
      simp only [action] at performed
      split at performed
      · cases performed
        exact ⟨rfl, rfl, id⟩
      · cases performed
  | _ =>
      simp only [action, Option.some.injEq] at performed
      exact performed ▸ ⟨rfl, rfl, id⟩

theorem performs_frame {data : List UInt8} : ∀ {occurrences : List (Occurrence RequestAction)}
    {parser performed : HttpRequestParser},
    occurrences.foldlM (perform data) parser = some performed → Frame parser performed
  | [], parser, _, executed => by
      cases executed
      exact .refl parser
  | occurrence :: occurrences, parser, performed, executed => by
      rw [List.foldlM_cons] at executed
      rcases Option.bind_eq_some_iff.mp executed with ⟨next, first, rest⟩
      exact (perform_frame first).trans (performs_frame rest)

theorem execute_frame (executed : parser.execute data = some (performed, nparser)) :
    Frame parser performed := by
  rcases Option.map_eq_some_iff.mp executed with ⟨folded, performs, result⟩
  cases result
  have frame := performs_frame performs
  exact ⟨frame.uriRelaxed, frame.body, frame.error⟩

end HttpRequestParser

namespace HttpResponseParser

variable {parser performed : HttpResponseParser} {data : List UInt8} {nparser : Int}

/-- The parser that `execute` starts from. -/
def starting (parser : HttpResponseParser) (chunk : Bool) : HttpResponseParser :=
  if chunk then parser.init else parser

theorem execute_eq (parser : HttpResponseParser) (data : List UInt8) (chunk : Bool) :
    parser.execute data chunk = (parser.starting chunk).run data := by
  cases chunk <;> rfl

theorem execute_cs (parser : HttpResponseParser) (data : List UInt8) (chunk : Bool) :
    (parser.execute data chunk).1.cs = ((parser.starting chunk).scan data).state := by
  rw [execute_eq]
  rfl

theorem execute_position (parser : HttpResponseParser) {data : List UInt8}
    (nonempty : data ≠ []) (chunk : Bool) :
    (parser.execute data chunk).2 = ((parser.starting chunk).scan data).position := by
  rw [execute_eq, run]
  simp [nonempty]

theorem execute_bounds (parser : HttpResponseParser) {data : List UInt8}
    (nonempty : data ≠ []) (chunk : Bool) :
    0 ≤ (parser.execute data chunk).2 ∧ (parser.execute data chunk).2 ≤ data.length := by
  rw [execute_position parser nonempty]
  have bound := responseScanner.scan_position_le (parser.starting chunk).cs 0 data
  rw [Nat.zero_add] at bound
  exact ⟨Int.natCast_nonneg _, Int.ofNat_le.mpr bound⟩

/-- Unless it fails, an `execute` consumes at least one byte. -/
theorem execute_progress (parser : HttpResponseParser) {data : List UInt8}
    (nonempty : data ≠ []) (chunk : Bool)
    (accepted : (parser.execute data chunk).1.hasError = false) :
    0 < (parser.execute data chunk).2 := by
  simp only [hasError, Bool.or_eq_false_iff, decide_eq_false_iff_not] at accepted
  rw [execute_cs] at accepted
  rw [execute_position parser nonempty]
  exact Int.natCast_pos.mpr (Scanner.lt_scan_position 0 nonempty accepted.2)

end HttpResponseParser

/-! ## `recvRequest` -/

namespace RequestCall

variable {settings : Settings}

theorem checked_of_inBounds {accesses : List Access} {next : RequestCall}
    (inBounds : ∀ access ∈ accesses, access.inBounds settings.requestHeaderSize = true) :
    checked settings accesses next = next :=
  if_pos (List.all_eq_true.mpr inBounds)

/-- The calls that have stayed in bounds: between two reads the header loop keeps no
bytes, and a read for the body has bytes to wait for. -/
def Safe (settings : Settings) : RequestCall → Prop
  | .header _ remain => remain = [] ∧ 0 < settings.requestHeaderSize
  | .fixedBody _ _ _ left => 0 < left
  | .finished outcome => outcome ≠ .fault

theorem awaitHeader_safe (positive : 0 < settings.requestHeaderSize)
    (parser : HttpRequestParser) : (awaitHeader settings parser []).Safe settings := by
  rw [awaitHeader, checked_of_inBounds]
  · exact ⟨rfl, positive⟩
  · simpa [Access.inBounds] using positive

theorem null_safe (closed : Bool) : (finished (.null closed)).Safe settings :=
  nofun

theorem finish_safe (request : HttpRequest) : (finish request).Safe settings :=
  nofun

theorem afterHeader_safe (parser : HttpRequestParser) (remain : List UInt8) :
    (afterHeader settings parser remain).Safe settings := by
  unfold afterHeader
  dsimp only
  generalize toInt64 (parser.getContentLength settings.lexicalCast).toNat = length
  split
  · rename_i positive
    split
    · rename_i more
      have fits : (remain.length : Int) ≤ length := by omega
      rw [if_pos fits, checked_of_inBounds]
      · show 0 < (length - remain.length).toNat
        omega
      · simp [Access.inBounds]
        omega
    · rw [checked_of_inBounds]
      · exact finish_safe _
      · have taken : (if (remain.length : Int) ≤ length then remain
            else remain.take length.toNat).length ≤ remain.length := by
          split
          · exact le_rfl
          · exact List.length_take_le' _ _
        simpa [Access.inBounds, Int.le_of_lt positive] using taken
  · exact finish_safe _

/-- The read results that keep the header loop in bounds. -/
def HeaderRead (call : RequestCall) (read : Read) : Prop :=
  ∀ parser remain, call = .header parser remain → read ≠ .failed

theorem parseHeader_safe (positive : 0 < settings.requestHeaderSize)
    (parser : HttpRequestParser) (data : List UInt8) :
    (parseHeader settings parser data).Safe settings := by
  unfold parseHeader
  cases executed : parser.execute data with
  | none => exact nofun
  | some result =>
      rcases result with ⟨performed, nparser⟩
      have bound := HttpRequestParser.execute_le executed
      dsimp only
      rw [checked_of_inBounds (by
        simp only [List.mem_singleton, forall_eq, Access.inBounds, decide_eq_true_eq]
        omega)]
      split
      · exact null_safe true
      · rename_i accepted
        split
        · exact null_safe true
        · split
          · exact afterHeader_safe performed _
          · rename_i unfinished
            rw [HttpRequestParser.execute_all executed (by simpa using accepted)
              (not_not.mp unfinished), List.drop_length]
            exact awaitHeader_safe positive performed

theorem onHeader_safe (positive : 0 < settings.requestHeaderSize)
    (parser : HttpRequestParser) {content : List UInt8}
    (fits : content.length ≤ settings.requestHeaderSize) :
    (onHeader settings parser [] (.bytes content)).Safe settings := by
  unfold onHeader
  rw [checked_of_inBounds (by simpa [Access.inBounds, Read.count] using fits)]
  split
  · exact null_safe true
  · exact parseHeader_safe positive parser _

theorem onBody_safe (parser : HttpRequestParser) (body : List UInt8) (asked left : Nat)
    (read : Read) : (onBody parser body asked left read).Safe settings := by
  unfold onBody
  split
  · exact null_safe true
  · split
    · rename_i short
      exact Nat.sub_pos_of_lt short
    · split
      · exact null_safe true
      · exact finish_safe _

theorem step_safe {call next : RequestCall} {read : Read} (safe : call.Safe settings)
    (good : call.HeaderRead read) (taken : call.step settings read = some next) :
    next.Safe settings := by
  unfold step at taken
  split at taken
  · rename_i fits
    cases call with
    | header parser remain =>
        rcases safe with ⟨rfl, positive⟩
        cases read with
        | failed => exact absurd rfl (good parser [] rfl)
        | bytes content =>
            cases taken
            exact onHeader_safe positive parser fits
    | fixedBody parser body asked left =>
        cases taken
        exact onBody_safe parser body asked left read
    | finished outcome => cases taken
  · cases taken

theorem Safe.requested_pos {call : RequestCall} (safe : call.Safe settings)
    (waiting : ∀ outcome, call ≠ .finished outcome) : 0 < call.requested settings := by
  cases call with
  | header parser remain =>
      rcases safe with ⟨rfl, positive⟩
      exact positive
  | fixedBody parser body asked left => exact safe
  | finished outcome => exact absurd rfl (waiting outcome)

theorem safe_of_reachable (positive : 0 < settings.requestHeaderSize) {call : RequestCall}
    (reachable : (recvRequest settings).ReachableWhere HeaderRead call) :
    call.Safe settings := by
  apply reachable.invariant
  · rintro start rfl
    exact awaitHeader_safe positive _
  · intro call read next _ safe good taken
    exact step_safe safe good taken

end RequestCall

/-! ## `recvResponse` -/

/-- A chunk size that the code can add two to and trust. -/
def ChunkFits (size : Int) : Prop := 0 ≤ size ∧ size + 2 < 2 ^ 31

instance (size : Int) : Decidable (ChunkFits size) :=
  inferInstanceAs (Decidable (0 ≤ size ∧ size + 2 < 2 ^ 31))

namespace ResponseCall

variable {settings : Settings}

variable (settings) in
/-- The sizes of the chunks whose size lines are in the buffer, as the parser reports
them, up to the first chunk that is not all there. -/
def chunkSizes : (fuel : Nat) → HttpResponseParser → List UInt8 → List Int
  | 0, _, _ => []
  | fuel + 1, parser, buffer =>
      if buffer.isEmpty then []
      else
        let (parser, nparser) := parser.execute buffer true
        let data := buffer.drop nparser.toNat
        if parser.hasError ∨ toInt32 settings.responseHeaderSize ≤ data.length then []
        else if parser.isFinished = 0 then chunkSizes fuel parser data
        else
          parser.contentLen ::
            if parser.contentLen + 2 ≤ data.length ∧ ¬ parser.chunksDone then
              chunkSizes fuel parser (data.drop (parser.contentLen.toNat + 2))
            else []

variable (settings) in
/-- The sizes of the chunks whose size lines a step decodes. -/
def sizes (call : ResponseCall) (read : Read) : List Int :=
  match call with
  | .header parser remain =>
      let (performed, nparser) := parser.execute (remain ++ read.content) false
      let data := (remain ++ read.content).drop nparser.toNat
      if 0 < read.count ∧ ¬ performed.hasError ∧ performed.isFinished ≠ 0 ∧
          performed.chunked then
        chunkSizes settings (data.length + 1)
          { performed with data := performed.data.delHeader (text "Transfer-Encoding") } data
      else []
  | .chunkLine parser _ buffer =>
      chunkSizes settings ((buffer ++ read.content).length + 1) parser (buffer ++ read.content)
  | _ => []

theorem checked_of_inBounds {accesses : List Access} {next : ResponseCall}
    (inBounds : ∀ access ∈ accesses, access.inBounds settings.responseHeaderSize = true) :
    checked settings accesses next = next :=
  if_pos (List.all_eq_true.mpr inBounds)

/-- The calls that have stayed in bounds. Of a chunk that did not fit, the bytes in the
body and those still to come are its content and its CRLF. -/
def Safe (settings : Settings) : ResponseCall → Prop
  | .header _ remain => remain.length < settings.responseHeaderSize
  | .chunkLine _ _ buffer => buffer.length < settings.responseHeaderSize
  | .chunkData _ body left nread received =>
      received.length < nread ∧ nread ≤ left ∧ nread ≤ settings.responseHeaderSize ∧
        2 ≤ body.length + left
  | .fixedBody _ _ _ left => 0 < left
  | .finished outcome => outcome ≠ .fault

theorem null_safe (closed : Bool) : (finished (.null closed)).Safe settings :=
  nofun

theorem finish_safe (parser : HttpResponseParser) (body : List UInt8) :
    (finish parser body).Safe settings :=
  nofun

theorem onBody_safe (parser : HttpResponseParser) (body : List UInt8) (asked left : Nat)
    (read : Read) : (onBody parser body asked left read).Safe settings := by
  unfold onBody
  split
  · exact null_safe true
  · split
    · rename_i short
      exact Nat.sub_pos_of_lt short
    · split
      · exact null_safe true
      · exact finish_safe parser _

theorem Safe.requested_pos {call : ResponseCall} (safe : call.Safe settings)
    (waiting : ∀ outcome, call ≠ .finished outcome) : 0 < call.requested settings := by
  cases call with
  | header parser remain => exact Nat.sub_pos_of_lt safe
  | chunkLine parser body buffer => exact Nat.sub_pos_of_lt safe
  | chunkData parser body left nread received => exact Nat.sub_pos_of_lt safe.1
  | fixedBody parser body asked left => exact safe
  | finished outcome => exact absurd rfl (waiting outcome)

section

variable (positive : 0 < settings.responseHeaderSize)

theorem awaitHeader_safe (parser : HttpResponseParser) {remain : List UInt8}
    (room : remain.length < settings.responseHeaderSize) :
    (awaitHeader settings parser remain).Safe settings := by
  rw [awaitHeader, checked_of_inBounds]
  · exact room
  · simp only [List.mem_singleton, forall_eq, Access.inBounds, decide_eq_true_eq]
    omega

include positive

theorem awaitChunkData_safe (parser : HttpResponseParser) {body : List UInt8} {left : Nat}
    (more : 0 < left) (enough : 2 ≤ body.length + left) :
    (awaitChunkData settings parser body left).Safe settings := by
  have nread_pos : 0 < min left settings.responseHeaderSize := lt_min more positive
  have nread_le : min left settings.responseHeaderSize ≤ settings.responseHeaderSize :=
    min_le_right _ _
  unfold awaitChunkData
  dsimp only
  rw [checked_of_inBounds]
  · exact ⟨nread_pos, min_le_left _ _, nread_le, enough⟩
  · simp only [List.mem_singleton, forall_eq, Access.inBounds, decide_eq_true_eq]
    omega

variable (small : settings.responseHeaderSize < 2 ^ 31)

include small

/-- By induction on the fuel: each round scans at least one byte of the buffer. -/
theorem chunkLoop_safe (fuel : Nat) : ∀ (parser : HttpResponseParser)
    (body buffer : List UInt8), buffer.length < fuel →
      buffer.length ≤ settings.responseHeaderSize →
      (∀ size ∈ chunkSizes settings fuel parser buffer, ChunkFits size) →
      (chunkLoop settings fuel parser body buffer).Safe settings := by
  induction fuel with
  | zero => intro _ _ _ enough; exact absurd enough (Nat.not_lt_zero _)
  | succ fuel induction =>
      intro parser body buffer enough room fits
      unfold chunkLoop
      unfold chunkSizes at fits
      split
      · rw [checked_of_inBounds]
        · exact positive
        · simpa [Access.inBounds] using positive
      · rename_i empty
        rw [if_neg empty] at fits
        have nonempty : buffer ≠ [] := fun equal => empty (equal ▸ rfl)
        have bounds := parser.execute_bounds nonempty true
        have progress := parser.execute_progress nonempty true
        revert fits bounds progress
        generalize parser.execute buffer true = executed
        rcases executed with ⟨performed, nparser⟩
        intro fits bounds progress
        dsimp only at fits bounds progress ⊢
        rw [checked_of_inBounds (by
          simp only [List.mem_cons, List.not_mem_nil, or_false, forall_eq_or_imp, forall_eq,
            Access.inBounds, decide_eq_true_eq]
          omega)]
        have header_exact := @toInt32_of_lt settings.responseHeaderSize
          (Int.natCast_nonneg _) (by omega)
        rw [header_exact] at fits ⊢
        split
        · exact null_safe true
        · rename_i accepted
          have forward := progress (by simpa using accepted)
          have shorter : (buffer.drop nparser.toNat).length < buffer.length := by
            rw [List.length_drop]
            omega
          generalize buffer.drop nparser.toNat = data at fits shorter ⊢
          have len_exact := @toInt32_of_lt data.length
            (Int.natCast_nonneg _) (by omega)
          rw [len_exact]
          split
          · exact null_safe true
          · rename_i below
            rw [if_neg (by simp [accepted, below])] at fits
            split
            · rename_i unfinished
              rw [if_pos unfinished] at fits
              exact induction performed body data (by omega) (by omega) fits
            · rename_i complete
              rw [if_neg complete] at fits
              rcases fits performed.contentLen List.mem_cons_self with ⟨natural, bounded⟩
              have size_exact := @toInt32_of_lt (performed.contentLen + 2)
                (by omega) bounded
              rw [size_exact]
              split
              · rename_i whole
                rw [checked_of_inBounds (by
                  simp only [List.mem_cons, List.not_mem_nil, or_false, forall_eq_or_imp,
                    forall_eq, Access.inBounds, decide_eq_true_eq]
                  omega)]
                split
                · exact finish_safe performed _
                · rename_i more
                  rw [if_pos ⟨whole, more⟩] at fits
                  apply induction performed _ _ _ _
                    fun size member => fits size (List.mem_cons_of_mem _ member)
                  · rw [List.length_drop]
                    omega
                  · rw [List.length_drop]
                    omega
              · rename_i short
                have left_exact := @toInt32_of_lt (performed.contentLen - data.length + 2)
                  (by omega) (by omega)
                rw [left_exact, checked_of_inBounds (by
                  simp [Access.inBounds]), if_pos (by omega)]
                apply awaitChunkData_safe positive
                · omega
                · rw [List.length_append]
                  omega

theorem decodeChunks_safe (parser : HttpResponseParser) (body : List UInt8)
    {buffer : List UInt8} (room : buffer.length ≤ settings.responseHeaderSize)
    (fits : ∀ size ∈ chunkSizes settings (buffer.length + 1) parser buffer, ChunkFits size) :
    (decodeChunks settings parser body buffer).Safe settings :=
  chunkLoop_safe positive small _ parser body buffer (Nat.lt_succ_self _) room fits

theorem afterHeader_safe (parser : HttpResponseParser) {remain : List UInt8}
    (room : remain.length ≤ settings.responseHeaderSize)
    (fits : parser.chunked = true → ∀ size ∈ chunkSizes settings (remain.length + 1)
      { parser with data := parser.data.delHeader (text "Transfer-Encoding") } remain,
      ChunkFits size) :
    (afterHeader settings parser remain).Safe settings := by
  unfold afterHeader
  split
  · rename_i chunked
    exact decodeChunks_safe positive small _ _ room (fits chunked)
  · dsimp only
    generalize toInt64 (parser.getContentLength settings.lexicalCast).toNat = length
    split
    · rename_i natural
      have taken : (if (remain.length : Int) ≤ length then remain
          else remain.take length.toNat).length ≤ remain.length := by
        split
        · exact le_rfl
        · exact List.length_take_le' _ _
      revert taken
      generalize (if (remain.length : Int) ≤ length then remain
        else remain.take length.toNat) = received
      intro taken
      split
      · rename_i more
        rw [checked_of_inBounds]
        · show 0 < (length - received.length).toNat
          omega
        · simp only [List.mem_cons, List.not_mem_nil, or_false, forall_eq_or_imp, forall_eq,
            Access.inBounds, decide_eq_true_eq]
          omega
      · rw [checked_of_inBounds]
        · exact finish_safe parser _
        · simp only [List.mem_cons, List.not_mem_nil, or_false, forall_eq_or_imp, forall_eq,
            Access.inBounds, decide_eq_true_eq]
          omega
    · exact finish_safe parser _

theorem parseHeader_safe (parser : HttpResponseParser) {data : List UInt8}
    (nonempty : data ≠ []) (room : data.length ≤ settings.responseHeaderSize)
    (fits : let executed := parser.execute data false
      executed.1.hasError = false → executed.1.isFinished ≠ 0 → executed.1.chunked = true →
        ∀ size ∈ chunkSizes settings ((data.drop executed.2.toNat).length + 1)
          { executed.1 with data := executed.1.data.delHeader (text "Transfer-Encoding") }
          (data.drop executed.2.toNat), ChunkFits size) :
    (parseHeader settings parser data).Safe settings := by
  have bounds := parser.execute_bounds nonempty false
  have progress := parser.execute_progress nonempty false
  unfold parseHeader
  revert fits bounds progress
  generalize parser.execute data false = executed
  rcases executed with ⟨performed, nparser⟩
  intro fits bounds progress
  dsimp only at fits bounds progress ⊢
  have len_exact := @toInt32_of_lt data.length (Int.natCast_nonneg _) (by omega)
  rw [len_exact, checked_of_inBounds (by
    simp only [List.mem_cons, List.not_mem_nil, or_false, forall_eq_or_imp, forall_eq,
      Access.inBounds, decide_eq_true_eq]
    omega)]
  split
  · exact null_safe true
  · rename_i accepted
    have forward := progress (by simpa using accepted)
    have shorter : (data.drop nparser.toNat).length < data.length := by
      rw [List.length_drop]
      omega
    rw [checked_of_inBounds (by
      simp only [List.mem_singleton, forall_eq, Access.inBounds, decide_eq_true_eq]
      omega)]
    split
    · exact null_safe true
    · split
      · rename_i complete
        exact afterHeader_safe positive small performed (by omega)
          (fits (by simpa using accepted) complete)
      · exact awaitHeader_safe performed (by omega)

theorem onChunkData_safe (parser : HttpResponseParser) {body : List UInt8}
    {left nread : Nat} {received : List UInt8} (read : Read)
    (room : received.length + read.content.length ≤ nread) (within : nread ≤ left)
    (fits : nread ≤ settings.responseHeaderSize) (enough : 2 ≤ body.length + left) :
    (onChunkData settings parser body left nread received read).Safe settings := by
  unfold onChunkData
  split
  · exact null_safe false
  · dsimp only
    have length_received : (received ++ read.content).length =
        received.length + read.content.length := List.length_append
    generalize received ++ read.content = received at length_received ⊢
    split
    · rename_i short
      exact ⟨short, within, fits, enough⟩
    · rename_i full
      rw [checked_of_inBounds (by
        simp only [List.mem_singleton, forall_eq, Access.inBounds, decide_eq_true_eq]
        omega)]
      have length_body : (body ++ received).length = body.length + received.length :=
        List.length_append
      generalize body ++ received = body at length_body ⊢
      split
      · exact awaitChunkData_safe positive parser (by omega) (by omega)
      · rw [checked_of_inBounds (by
          simp only [List.mem_singleton, forall_eq, Access.inBounds, decide_eq_true_eq]
          omega)]
        split
        · exact finish_safe parser _
        · exact decodeChunks_safe positive small parser _ (Nat.zero_le _) nofun

/-- The condition on one step: every chunk size it decodes can be trusted. -/
def ChunkRead (settings : Settings) (call : ResponseCall) (read : Read) : Prop :=
  ∀ size ∈ call.sizes settings read, ChunkFits size

theorem step_safe {call next : ResponseCall} {read : Read} (safe : call.Safe settings)
    (good : ChunkRead settings call read) (taken : call.step settings read = some next) :
    next.Safe settings := by
  unfold step at taken
  split at taken
  · rename_i fits
    cases call with
    | header parser remain =>
        cases taken
        unfold onHeader
        split
        · exact null_safe true
        · rename_i read_pos
          have content_pos : read.content ≠ [] := by
            intro empty
            cases read with
            | failed => exact read_pos (by decide)
            | bytes content =>
                cases empty
                exact read_pos (by decide)
          apply parseHeader_safe positive small parser (by simp [content_pos])
          · rw [List.length_append]
            exact Nat.add_le_of_le_sub' (Nat.le_of_lt safe) fits
          · intro executed accepted complete chunked
            unfold ChunkRead sizes at good
            dsimp only at good
            rw [if_pos ⟨by omega, by simpa using accepted, complete, chunked⟩] at good
            exact good
    | chunkLine parser body buffer =>
        cases taken
        unfold onChunkLine
        split
        · exact null_safe true
        · apply decodeChunks_safe positive small parser body _ good
          rw [List.length_append]
          exact Nat.add_le_of_le_sub' (Nat.le_of_lt safe) fits
    | chunkData parser body left nread received =>
        cases taken
        rcases safe with ⟨begun, within, room, enough⟩
        exact onChunkData_safe positive small parser read
          (Nat.add_le_of_le_sub' (Nat.le_of_lt begun) fits) within room enough
    | fixedBody parser body asked left =>
        cases taken
        exact onBody_safe parser body asked left read
    | finished outcome => cases taken
  · cases taken

theorem safe_of_reachable {call : ResponseCall}
    (reachable : (recvResponse settings).ReachableWhere (ChunkRead settings) call) :
    call.Safe settings := by
  apply reachable.invariant
  · rintro start rfl
    exact awaitHeader_safe _ positive
  · intro call read next _ safe good taken
    exact step_safe positive small safe good taken

end

end ResponseCall

/-! ## Both calls -/

/-- All accesses so far were in bounds, and the read at which the call is suspended
asks for at least one byte. -/
structure RequestCall.InBounds (settings : Settings) (call : RequestCall) : Prop where
  accesses : call ≠ .finished .fault
  reading : (∀ outcome, call ≠ .finished outcome) → 0 < call.requested settings

structure ResponseCall.InBounds (settings : Settings) (call : ResponseCall) : Prop where
  accesses : call ≠ .finished .fault
  reading : (∀ outcome, call ≠ .finished outcome) → 0 < call.requested settings

/-- In every run in which no read for a request header fails, and in every run in which
every chunk size is natural and two below the largest `int`, all accesses are in
bounds. -/
theorem receive_in_bounds {settings : Settings} (request_size : 0 < settings.requestHeaderSize)
    (response_size : 0 < settings.responseHeaderSize ∧ settings.responseHeaderSize < 2 ^ 31) :
    (∀ call, (recvRequest settings).ReachableWhere RequestCall.HeaderRead call →
      call.InBounds settings) ∧
    ∀ call, (recvResponse settings).ReachableWhere (ResponseCall.ChunkRead settings) call →
      call.InBounds settings := by
  constructor
  · intro call reachable
    have safe := RequestCall.safe_of_reachable request_size reachable
    refine ⟨?_, safe.requested_pos⟩
    rintro rfl
    exact safe rfl
  · intro call reachable
    have safe := ResponseCall.safe_of_reachable response_size.1 response_size.2 reachable
    refine ⟨?_, safe.requested_pos⟩
    rintro rfl
    exact safe rfl

instance (settings : Settings) (call : ResponseCall) (read : Read) :
    Decidable (ResponseCall.ChunkRead settings call read) :=
  inferInstanceAs (Decidable (∀ size ∈ call.sizes settings read, ChunkFits size))

def ResponseCall.isReturned : ResponseCall → Bool
  | .finished (.returned _) => true
  | _ => false

def chunkedResponse : List Read := [
  .bytes (text "HTTP/1.1 200 OK\r\nTransfer-Encoding: chunked\r\n\r\n3\r\nab"),
  .bytes (text "c\r\n"),
  .bytes (text "0\r\n\r\n")]

theorem receive_in_bounds_chunked :
    (∀ call, (recvRequest defaultSettings).ReachableWhere RequestCall.HeaderRead call →
      call.InBounds defaultSettings) ∧
    ∃ call, (recvResponse defaultSettings).ReachableWhere
        (ResponseCall.ChunkRead defaultSettings) call ∧
      call.isReturned = true ∧ call.InBounds defaultSettings := by
  have bounds := @receive_in_bounds defaultSettings (by decide) (by decide)
  refine ⟨bounds.1, ?_⟩
  rcases Machine.exists_reachableWhere_of_run (recvResponse defaultSettings)
    (ResponseCall.ChunkRead defaultSettings) rfl chunkedResponse ResponseCall.isReturned
    (by with_unfolding_all decide) with ⟨call, reachable, returned⟩
  exact ⟨call, reachable, returned, bounds.2 call reachable⟩

def RequestCall.isFault : RequestCall → Bool
  | .finished .fault => true
  | _ => false

def ResponseCall.isFault : ResponseCall → Bool
  | .finished .fault => true
  | _ => false

/-- A failed first read of a request, and a chunk of `7fffffff` bytes. -/
theorem not_receive_in_bounds :
    (∃ call, (recvRequest defaultSettings).Reachable call ∧
      ¬ call.InBounds defaultSettings) ∧
    ∃ call, (recvResponse defaultSettings).Reachable call ∧
      ¬ call.InBounds defaultSettings := by
  constructor
  · rcases Machine.exists_reachable_of_run (recvRequest defaultSettings) rfl [.failed]
      RequestCall.isFault (by with_unfolding_all decide) with ⟨call, reachable, fault⟩
    refine ⟨call, reachable, fun inBounds => inBounds.accesses ?_⟩
    unfold RequestCall.isFault at fault
    split at fault
    · rfl
    · cases fault
  · rcases Machine.exists_reachable_of_run (recvResponse defaultSettings) rfl
      [.bytes (text "HTTP/1.1 200 OK\r\nTransfer-Encoding: chunked\r\n\r\n7fffffff\r\n")]
      ResponseCall.isFault (by with_unfolding_all decide) with ⟨call, reachable, fault⟩
    refine ⟨call, reachable, fun inBounds => inBounds.accesses ?_⟩
    unfold ResponseCall.isFault at fault
    split at fault
    · rfl
    · cases fault

end Http

end FiberNet
