import FiberNet.Http.RequestLimits
import Mathlib.Algebra.GroupWithZero.Nat
import Mathlib.Algebra.Ring.Int.Defs

/-! # The limits on messages

What `recvResponse` takes of a body that is sent in chunks is the sum of their sizes, which
is compared with nothing either. Both calls enforce the limits in the runs in which no
larger message is accepted.
-/

namespace FiberNet

namespace Http

/-! ## `recvResponse` -/

namespace ResponseCall

variable {settings : Settings} {history : List (List UInt8)}

def arrived (history : List (List UInt8)) : Header :=
  responseGrammar.header history

def Accepts (history : List (List UInt8)) : Prop :=
  responseGrammar.Accepts (arrived history)

instance (history : List (List UInt8)) : Decidable (Accepts history) :=
  inferInstanceAs (Decidable (responseGrammar.Accepts _))

def declared (settings : Settings) (history : List (List UInt8)) : Nat :=
  ((arrived history).declared settings.lexicalCast (text "Content-Length")).toNat

/-- The bytes that the chunks in a body announce, whatever the cuts. -/
def chunkTotal : (fuel : Nat) → List UInt8 → Nat
  | 0, _ => 0
  | fuel + 1, bytes =>
      let line := arrived [bytes]
      let size := digitsValue 16 (bytes.takeWhile (isDigit 16))
      if line.state = responseFirstFinal ∧ 0 < size then
        size + chunkTotal fuel (line.remain.drop (size + 2))
      else 0

/-- The body that a response announces in one piece. -/
def announced (settings : Settings) (bytes : List UInt8) : Nat :=
  let header := arrived [bytes]
  if header.chunked = false then declared settings [bytes]
  else if header.state = responseFirstFinal then
    chunkTotal (header.remain.length + 1) header.remain
  else 0

def Larger (settings : Settings) (history : List (List UInt8)) : Prop :=
  settings.responseHeaderSize < (arrived history).bytes ∨
    settings.responseBodySize < announced settings history.flatten

/-- The content of the body so far. -/
def content : ResponseCall → List UInt8
  | .chunkLine _ body _ => body
  | _ => []

/-- The bytes that a call has reserved for a body or promised to it. Of a chunk that
did not fit, two bytes are its CRLF. -/
def reserved : ResponseCall → Nat
  | .chunkLine _ body _ => body.length
  | .chunkData _ body left _ _ => body.length + left - 2
  | .fixedBody _ body _ left => body.length + left
  | .finished (.returned response) => response.body.length
  | _ => 0

structure Limited (settings : Settings) (state : ResponseCall × List (List UInt8)) : Prop where
  header : ∀ response, state.1 = .finished (.returned response) →
    (arrived state.2).bytes ≤ settings.responseHeaderSize
  body : state.1.reserved ≤ settings.responseBodySize
  larger : Larger settings state.2 →
    ∀ outcome, state.1 = .finished outcome → outcome = .null true

variable (settings) in
/-- The chunk-size lines that a read brings into the buffer. -/
def lines (call : ResponseCall) (history : List (List UInt8)) (read : Read) : List Header :=
  match call with
  | .header _ _ =>
      if 0 < read.count ∧ Accepts history ∧ (arrived history).chunked then
        chunkLines settings ((arrived history).remain.length + 1) (arrived history).remain
      else []
  | .chunkLine _ _ buffer =>
      chunkLines settings ((buffer ++ read.content).length + 1) (buffer ++ read.content)
  | _ => []

/-- The last chunk is at hand, or a read for a chunk fails. -/
def Ends (settings : Settings) (call : ResponseCall) (history : List (List UInt8))
    (read : Read) : Prop :=
  match call with
  | .chunkData parser _ _ _ _ => parser.chunksDone = true ∨ read.count ≤ 0
  | _ => (call.lines settings history read).any Header.last = true

/-- What the peer keeps to with a read and those before it: a header that is accepted as
it is cut is not larger; each chunk size can be trusted, and the chunks together are
within the limit; and what is larger does not reach its last chunk. -/
structure Admissible (settings : Settings) (call : ResponseCall)
    (history : List (List UInt8)) (read : Read) : Prop where
  header : Accepts history → (arrived history).bytes ≤ settings.responseHeaderSize
  length : Accepts history → (arrived history).chunked = false →
    ¬ Larger settings history ∧ toInt64 (declared settings history) ≤ settings.responseBodySize
  chunk : ∀ line ∈ call.lines settings history read, ChunkFits line.length
  chunks : (call.content.length : Int) +
    ((call.lines settings history read).map Header.length).sum ≤ settings.responseBodySize
  last : Larger settings history → ¬ call.Ends settings history read

def KeepsLimits (settings : Settings) (state : ResponseCall × List (List UInt8))
    (read : Read) : Prop :=
  Admissible settings state.1 (state.2 ++ [read.content]) read

/-- Where the chunk loop goes on or ends: it returns only behind the last chunk, and what
it has reserved is within the limit. -/
def Chunking (settings : Settings) (last : Bool) : ResponseCall → Prop
  | .chunkLine parser body _ => parser.error = .ok ∧ body.length ≤ settings.responseBodySize
  | .chunkData parser body left _ _ =>
      parser.error = .ok ∧ (parser.chunksDone = true → last = true) ∧
        body.length + left ≤ settings.responseBodySize + 2
  | .finished (.returned response) =>
      last = true ∧ response.body.length ≤ settings.responseBodySize
  | .finished (.null closed) => closed = true
  | .finished .fault => True
  | _ => False

theorem Chunking.imp {last later : Bool} {call : ResponseCall}
    (chunking : call.Chunking settings last) (implied : last = true → later = true) :
    call.Chunking settings later := by
  cases call with
  | chunkLine parser body buffer => exact chunking
  | chunkData parser body left nread received =>
      exact ⟨chunking.1, implied ∘ chunking.2.1, chunking.2.2⟩
  | finished outcome =>
      cases outcome with
      | returned response => exact ⟨implied chunking.1, chunking.2⟩
      | null closed => exact chunking
      | threw => exact chunking
      | fault => exact chunking
  | header parser remain => exact chunking
  | fixedBody parser body asked left => exact chunking

theorem checked_chunking {last : Bool} {accesses : List Access} {next : ResponseCall}
    (chunking : next.Chunking settings last) :
    (checked settings accesses next).Chunking settings last := by
  unfold checked
  split
  · exact chunking
  · exact trivial

theorem awaitChunkData_chunking {parser : HttpResponseParser} {body : List UInt8}
    {left : Nat} {last : Bool} (ok : parser.error = .ok)
    (done : parser.chunksDone = true → last = true)
    (within : body.length + left ≤ settings.responseBodySize + 2) :
    (awaitChunkData settings parser body left).Chunking settings last :=
  checked_chunking ⟨ok, done, within⟩

section

variable (small : settings.responseHeaderSize < 2 ^ 31)

include small

/-- The chunks in the buffer add their sizes to the body, by induction on the fuel. -/
theorem chunkLoop_chunking (fuel : Nat) : ∀ {parser : HttpResponseParser}
    (body buffer : List UInt8), parser.error = .ok →
      buffer.length ≤ settings.responseHeaderSize →
      (∀ line ∈ chunkLines settings fuel buffer, ChunkFits line.length) →
      (body.length : Int) + ((chunkLines settings fuel buffer).map Header.length).sum ≤
        settings.responseBodySize →
      (chunkLoop settings fuel parser body buffer).Chunking settings
        ((chunkLines settings fuel buffer).any Header.last) := by
  induction fuel with
  | zero => intro _ _ _ _ _ _ _; exact trivial
  | succ fuel induction =>
      intro parser body buffer ok room fits total
      unfold chunkLoop
      unfold chunkLines at fits total ⊢
      split
      · rename_i empty
        rw [if_pos empty, List.map_nil, List.sum_nil] at total
        apply checked_chunking
        refine ⟨ok, ?_⟩
        omega
      · rename_i empty
        rw [if_neg empty] at fits total
        rcases parser.reflects_line buffer (fun equal => empty (equal ▸ rfl)) with
          ⟨reflects, remain⟩
        revert reflects remain fits total
        generalize responseGrammar.header [buffer] = line
        generalize parser.execute buffer true = executed
        rcases executed with ⟨performed, nparser⟩
        intro fits total reflects remain
        dsimp only at fits total reflects remain ⊢
        apply checked_chunking
        have shorter : line.remain.length ≤ buffer.length := by
          rw [remain, List.length_drop]
          omega
        rw [← remain]
        have len_exact := @toInt32_of_lt line.remain.length (Int.natCast_nonneg _) (by omega)
        have size_exact := @toInt32_of_lt settings.responseHeaderSize (Int.natCast_nonneg _)
          (by omega)
        rw [len_exact, size_exact]
        have refused_iff : line.state = responseError ∨
            ¬ (∀ reading ∈ line.readings, reading.Good responseGrammar.known) ∨
              settings.responseHeaderSize ≤ line.remain.length ↔
            performed.hasError = true ∨
              (settings.responseHeaderSize : Int) ≤ line.remain.length := by
          rw [reflects.hasError ok, or_assoc, Int.ofNat_le]
        by_cases refused : performed.hasError = true ∨
            (settings.responseHeaderSize : Int) ≤ line.remain.length
        · rw [if_pos (refused_iff.mpr refused)]
          rcases refused with wrong | full
          · rw [if_pos wrong]
            exact rfl
          · rw [if_pos full, ite_self]
            exact rfl
        · have kept := fun wrong => refused (refused_iff.mp wrong)
          rw [if_neg kept] at fits total ⊢
          rw [not_or] at refused
          have correct : performed.hasError = false := by simpa using refused.1
          rw [if_neg refused.1, if_neg refused.2, reflects.complete correct]
          have fine := HttpResponseParser.ok_of_hasError correct
          by_cases complete : line.state = responseFirstFinal
          · rw [if_neg (not_not.mpr complete)] at fits total ⊢
            rw [if_pos complete, if_neg (show ¬ (1 : Int) = 0 by decide)]
            have length : performed.contentLen = line.length := reflects.took.length
            have done : performed.chunksDone = line.last := reflects.took.last
            rcases fits line List.mem_cons_self with ⟨natural, bounded⟩
            rw [List.map_cons, List.sum_cons] at total
            rw [length, done, toInt32_of_lt (by omega) bounded, List.any_cons]
            have taken : (line.remain.take line.length.toNat).length ≤ line.length.toNat :=
              List.length_take_le _ _
            by_cases whole : line.length + 2 ≤ line.remain.length
            · rw [if_pos whole]
              apply checked_chunking
              by_cases last : line.last = true
              · rw [if_pos last, last, Bool.true_or]
                rw [if_neg fun more => more.2 last, List.map_nil, List.sum_nil] at total
                refine ⟨rfl, ?_⟩
                show (body ++ line.remain.take line.length.toNat).length ≤ _
                rw [List.length_append]
                omega
              · rw [if_pos ⟨whole, last⟩] at fits total ⊢
                rw [if_neg last]
                have rest := @induction performed (body ++ line.remain.take line.length.toNat)
                  (line.remain.drop (line.length.toNat + 2)) fine
                  (by rw [List.length_drop]; omega)
                  (fun other member => fits other (List.mem_cons_of_mem _ member))
                  (by rw [List.length_append]; omega)
                exact rest.imp fun later => (Bool.or_eq_true _ _).mpr (.inr later)
            · rw [if_neg fun more => whole more.1, List.map_nil, List.sum_nil] at total
              rw [if_neg whole]
              apply checked_chunking
              have more : 0 < line.length - line.remain.length + 2 := by omega
              rw [toInt32_of_lt (by omega) (by omega), if_pos more]
              apply awaitChunkData_chunking fine
              · exact fun last => (Bool.or_eq_true _ _).mpr (.inl (done ▸ last))
              · rw [List.length_append]
                omega
          · rw [if_pos complete] at fits total ⊢
            rw [if_neg complete, if_pos rfl]
            exact induction body line.remain fine (by omega) fits total

end

/-- A call beside what it has read. -/
def Kept (settings : Settings) (history : List (List UInt8)) : ResponseCall → Prop
  | .header parser remain =>
      remain = (arrived history).remain ∧ parser.Reflects {} (arrived history) ∧
        ¬ responseGrammar.Ended (arrived history)
  | .chunkLine parser body _ =>
      Accepts history ∧ parser.error = .ok ∧ body.length ≤ settings.responseBodySize
  | .chunkData parser body left _ _ =>
      Accepts history ∧ parser.error = .ok ∧ body.length + left ≤ settings.responseBodySize + 2
  | .fixedBody _ body _ left =>
      Accepts history ∧ (arrived history).chunked = false ∧
        body.length + left ≤ settings.responseBodySize
  | .finished (.returned response) =>
      Accepts history ∧ ¬ Larger settings history ∧
        response.body.length ≤ settings.responseBodySize
  | .finished (.null closed) => Larger settings history → closed = true
  | .finished .fault => True
  | .finished .threw => False

theorem checked_kept {accesses : List Access} {next : ResponseCall}
    (kept : next.Kept settings history) :
    (checked settings accesses next).Kept settings history := by
  unfold checked
  split
  · exact kept
  · exact trivial

theorem Chunking.kept {last : Bool} {call : ResponseCall}
    (chunking : call.Chunking settings last) (accepts : Accepts history)
    (ends : Larger settings history → ¬ last = true) : call.Kept settings history := by
  cases call with
  | chunkLine parser body buffer => exact ⟨accepts, chunking⟩
  | chunkData parser body left nread received =>
      exact ⟨accepts, chunking.1, chunking.2.2⟩
  | finished outcome =>
      cases outcome with
      | returned response =>
          exact ⟨accepts, fun larger => ends larger chunking.1, chunking.2⟩
      | null closed => exact fun _ => chunking
      | threw => exact chunking
      | fault => exact trivial
  | header parser remain => exact chunking.elim
  | fixedBody parser body asked left => exact chunking.elim

/-- A body that is not chunked. -/
theorem plain_kept {parser : HttpResponseParser} (remain : List UInt8)
    (accepts : Accepts history) (plain : parser.chunked = false)
    (same : (arrived history).chunked = false) (small : ¬ Larger settings history)
    (length_le : toInt64 (parser.getContentLength settings.lexicalCast).toNat ≤
      settings.responseBodySize) :
    (afterHeader settings parser remain).Kept settings history := by
  unfold afterHeader
  rw [if_neg (by simp [plain])]
  dsimp only
  revert length_le
  generalize toInt64 (parser.getContentLength settings.lexicalCast).toNat = length
  intro length_le
  split
  · rename_i positive
    have received_le : ((if (remain.length : Int) ≤ length then remain
        else remain.take length.toNat).length : Int) ≤ length := by
      split
      · assumption
      · rw [List.length_take]
        omega
    revert received_le
    generalize (if (remain.length : Int) ≤ length then remain
      else remain.take length.toNat) = received
    intro received_le
    split
    · apply checked_kept
      refine ⟨accepts, same, ?_⟩
      show received.length + (length - received.length).toNat ≤ _
      omega
    · apply checked_kept
      refine ⟨accepts, small, ?_⟩
      show received.length ≤ _
      omega
  · exact ⟨accepts, small, Nat.zero_le _⟩

theorem onBody_kept {parser : HttpResponseParser} {body : List UInt8} {asked left : Nat}
    {read : Read} (fits : read.content.length ≤ left) (accepts : Accepts history)
    (same : (arrived history).chunked = false) (small : ¬ Larger settings history)
    (within : body.length + left ≤ settings.responseBodySize) :
    (onBody parser body asked left read).Kept settings history := by
  have length_body : (body ++ read.content).length = body.length + read.content.length :=
    List.length_append
  unfold onBody
  split
  · exact fun _ => rfl
  · split
    · refine ⟨accepts, same, ?_⟩
      show (body ++ read.content).length + (left - read.content.length) ≤ _
      omega
    · split
      · exact fun _ => rfl
      · refine ⟨accepts, small, ?_⟩
        show (body ++ read.content).length ≤ _
        omega

/-- The parser of the header loop behind its next scan. -/
theorem Kept.run {parser : HttpResponseParser} {remain : List UInt8} {read : Read}
    (kept : (header parser remain).Kept settings history) (nonempty : read.content ≠ []) :
    (parser.execute (remain ++ read.content) false).1.Reflects {}
        (arrived (history ++ [read.content])) ∧
      (arrived (history ++ [read.content])).remain =
        (remain ++ read.content).drop
          (parser.execute (remain ++ read.content) false).2.toNat := by
  rcases kept with ⟨rfl, reflects, waiting⟩
  have whole : arrived (history ++ [read.content]) =
      responseGrammar.next (arrived history) read.content :=
    HeaderGrammar.header_append _ history read.content
  rw [whole]
  exact reflects.run read.content waiting (by simp [nonempty])

theorem start_kept (settings : Settings) : (start settings).Kept settings [] := by
  apply checked_kept
  refine ⟨rfl, HttpResponseParser.reflects_start rfl, ?_⟩
  decide

theorem Kept.limited {call : ResponseCall} (kept : call.Kept settings history)
    (safe : call.Safe settings)
    (accepted : Accepts history → (arrived history).bytes ≤ settings.responseHeaderSize) :
    Limited settings (call, history) where
  header response returned := by
    cases returned
    exact accepted kept.1
  body := by
    show call.reserved ≤ _
    unfold reserved
    split
    · exact kept.2.2
    · exact Nat.sub_le_of_le_add kept.2.2
    · exact kept.2.2
    · exact kept.2.2
    · exact Nat.zero_le _
  larger larger outcome ended := by
    cases ended
    cases outcome with
    | returned response => exact absurd larger kept.2.1
    | null closed => exact congrArg _ (kept larger)
    | threw => exact kept.elim
    | fault => exact absurd rfl safe

section

variable (small : settings.responseHeaderSize < 2 ^ 31)

include small

theorem afterHeader_kept {parser before : HttpResponseParser} {remain : List UInt8}
    {read : Read} (read_pos : 0 < read.count)
    (room : (arrived history).remain.length ≤ settings.responseHeaderSize)
    (reflects : parser.Reflects {} (arrived history)) (ok : parser.error = .ok)
    (accepts : Accepts history)
    (keeps : Admissible settings (.header before remain) history read) :
    (afterHeader settings parser (arrived history).remain).Kept settings history := by
  have same : parser.chunked = (arrived history).chunked := reflects.took.chunked
  cases chunked : (arrived history).chunked with
  | false =>
      rcases keeps.length accepts chunked with ⟨small, length_le⟩
      apply plain_kept _ accepts (same.trans chunked) chunked small
      rw [reflects.getContentLength]
      exact length_le
  | true =>
      have lines_eq : (header before remain).lines settings history read =
          chunkLines settings ((arrived history).remain.length + 1)
            (arrived history).remain := if_pos ⟨read_pos, accepts, chunked⟩
      have chunks := keeps.chunks
      have fits := keeps.chunk
      have last : Larger settings history →
          ¬ ((header before remain).lines settings history read).any Header.last = true :=
        keeps.last
      rw [lines_eq] at chunks fits last
      unfold afterHeader
      rw [if_pos (same.trans chunked)]
      let started := { parser with data := parser.data.delHeader (text "Transfer-Encoding") }
      have accepted : started.error = .ok := ok
      have chunking := chunkLoop_chunking small ((arrived history).remain.length + 1)
        [] (arrived history).remain accepted room fits chunks
      exact chunking.kept accepts last

theorem parseHeader_kept {parser : HttpResponseParser} {remain : List UInt8} {read : Read}
    (read_pos : 0 < read.count) (nonempty : read.content ≠ [])
    (room : remain.length + read.content.length ≤ settings.responseHeaderSize)
    (kept : (header parser remain).Kept settings history)
    (keeps : Admissible settings (.header parser remain) (history ++ [read.content]) read) :
    (parseHeader settings parser (remain ++ read.content)).Kept settings
      (history ++ [read.content]) := by
  rcases kept.run nonempty with ⟨follows, shorter⟩
  unfold parseHeader
  revert follows shorter
  generalize parser.execute (remain ++ read.content) false = executed
  rcases executed with ⟨performed, nparser⟩
  intro follows shorter
  dsimp only at follows shorter ⊢
  apply checked_kept
  rw [← shorter]
  split
  · exact fun _ => rfl
  · rename_i correct
    have correct : performed.hasError = false := by simpa using correct
    apply checked_kept
    split
    · exact fun _ => rfl
    · split
      · rename_i complete
        have ok := HttpResponseParser.ok_of_hasError correct
        have accepts := (follows.accepts_iff rfl).mpr ⟨correct, complete⟩
        have fits : (arrived (history ++ [read.content])).remain.length ≤
            settings.responseHeaderSize := by
          rw [shorter, List.length_drop, List.length_append]
          omega
        exact afterHeader_kept small read_pos fits follows ok accepts keeps
      · rename_i unfinished
        apply checked_kept
        exact ⟨rfl, follows, follows.waits correct (not_not.mp unfinished)⟩

theorem onChunkData_kept {parser : HttpResponseParser} {body received : List UInt8}
    {left nread : Nat} {read : Read} (accepts : Accepts history) (ok : parser.error = .ok)
    (ends : Larger settings history → ¬ (parser.chunksDone = true ∨ read.count ≤ 0))
    (room : received.length + read.content.length ≤ nread) (fits : nread ≤ left)
    (within : body.length + left ≤ settings.responseBodySize + 2) :
    (onChunkData settings parser body left nread received read).Kept settings history := by
  have undone : Larger settings history → ¬ parser.chunksDone = true :=
    fun larger done => ends larger (.inl done)
  unfold onChunkData
  split
  · rename_i failed
    exact fun larger => absurd (.inr failed) (ends larger)
  · dsimp only
    have length_received : (received ++ read.content).length =
        received.length + read.content.length := List.length_append
    generalize received ++ read.content = received at length_received ⊢
    split
    · exact ⟨accepts, ok, within⟩
    · apply checked_kept
      have length_body : (body ++ received).length = body.length + received.length :=
        List.length_append
      generalize body ++ received = body at length_body ⊢
      split
      · apply Chunking.kept _ accepts undone
        apply awaitChunkData_chunking ok id
        omega
      · apply checked_kept
        have length_take : (body.take (body.length - 2)).length ≤ body.length - 2 :=
          List.length_take_le _ _
        split
        · rename_i done
          refine ⟨accepts, fun larger => undone larger done, ?_⟩
          show (body.take (body.length - 2)).length ≤ _
          omega
        · have chunking := chunkLoop_chunking small 1 (body.take (body.length - 2)) [] ok
            (Nat.zero_le _) nofun (by
              show ((body.take (body.length - 2)).length : Int) + 0 ≤ _
              omega)
          exact chunking.kept accepts fun _ => nofun

theorem step_kept {call next : ResponseCall} {read : Read} (safe : call.Safe settings)
    (kept : call.Kept settings history)
    (keeps : Admissible settings call (history ++ [read.content]) read)
    (taken : call.step settings read = some next) :
    next.Kept settings (history ++ [read.content]) := by
  unfold step at taken
  split at taken
  · rename_i fits
    cases call with
    | header parser remain =>
        cases taken
        unfold onHeader
        split
        · exact fun _ => rfl
        · rename_i read_pos
          apply parseHeader_kept small (by omega) _ _ kept keeps
          · exact content_of_count (by omega)
          · exact Nat.add_le_of_le_sub' (Nat.le_of_lt safe) fits
    | chunkLine parser body buffer =>
        cases taken
        unfold onChunkLine
        split
        · exact fun _ => rfl
        · have chunking := chunkLoop_chunking small ((buffer ++ read.content).length + 1)
            body (buffer ++ read.content) kept.2.1
            (by
              rw [List.length_append]
              exact Nat.add_le_of_le_sub' (Nat.le_of_lt safe) fits)
            keeps.chunk keeps.chunks
          exact chunking.kept (kept.1.append read.content) keeps.last
    | chunkData parser body left nread received =>
        cases taken
        rcases safe with ⟨begun, fitting, -⟩
        exact onChunkData_kept small (kept.1.append read.content) kept.2.1 keeps.last
          (Nat.add_le_of_le_sub' (Nat.le_of_lt begun) fits) fitting kept.2.2
    | fixedBody parser body asked left =>
        cases taken
        rcases kept with ⟨accepts, plain, within⟩
        have stays := accepts.append read.content
        have same : arrived (history ++ [read.content]) = arrived history :=
          accepts.header_append read.content
        have chunked : (arrived (history ++ [read.content])).chunked = false := by
          rw [same]
          exact plain
        exact onBody_kept fits stays chunked (keeps.length stays chunked).1 within
    | finished outcome => cases taken
  · cases taken

/-- The parser decodes the sizes of these lines. -/
theorem sizes_eq {call : ResponseCall} (kept : call.Kept settings history) (read : Read) :
    call.sizes settings read =
      (call.lines settings (history ++ [read.content]) read).map Header.length := by
  cases call with
  | header parser remain =>
      by_cases read_pos : 0 < read.count
      · rcases kept.run (content_of_count read_pos) with ⟨follows, shorter⟩
        unfold sizes lines
        dsimp only
        revert follows shorter
        generalize parser.execute (remain ++ read.content) false = executed
        rcases executed with ⟨performed, nparser⟩
        intro follows shorter
        dsimp only at follows shorter ⊢
        rw [← shorter]
        have chunked : performed.chunked = (arrived (history ++ [read.content])).chunked :=
          follows.took.chunked
        have whole_iff : (0 < read.count ∧ ¬ performed.hasError = true ∧
            performed.isFinished ≠ 0 ∧ performed.chunked = true) ↔
            0 < read.count ∧ Accepts (history ++ [read.content]) ∧
              (arrived (history ++ [read.content])).chunked = true := by
          rw [Accepts, follows.accepts_iff rfl, chunked, Bool.not_eq_true, and_assoc]
        by_cases whole : 0 < read.count ∧ Accepts (history ++ [read.content]) ∧
            (arrived (history ++ [read.content])).chunked = true
        · rw [if_pos (whole_iff.mpr whole), if_pos whole]
          have correct := ((follows.accepts_iff rfl).mp whole.2.1).1
          exact chunkSizes_eq small _ _ (HttpResponseParser.ok_of_hasError correct)
        · rw [if_neg fun all => whole (whole_iff.mp all), if_neg whole]
          rfl
      · unfold sizes lines
        dsimp only
        rw [if_neg fun all => read_pos all.1, if_neg fun all => read_pos all.1]
        rfl
  | chunkLine parser body buffer => exact chunkSizes_eq small _ _ kept.2.1
  | chunkData parser body left nread received => rfl
  | fixedBody parser body asked left => rfl
  | finished outcome => rfl

theorem limited_of_reachable (positive : 0 < settings.responseHeaderSize)
    {state : ResponseCall × List (List UInt8)}
    (reachable : ((recvResponse settings).track [] readContents).ReachableWhere
      (KeepsLimits settings) state) :
    Limited settings state := by
  have invariant : state.1.Safe settings ∧ state.1.Kept settings state.2 ∧
      (Accepts state.2 → (arrived state.2).bytes ≤ settings.responseHeaderSize) := by
    apply reachable.invariant
    · rintro ⟨call, history⟩ ⟨starts, rfl⟩
      cases starts
      exact ⟨awaitHeader_safe _ positive, start_kept settings, fun _ => Nat.zero_le _⟩
    · rintro ⟨call, history⟩ read ⟨next, after⟩ _ ⟨safe, kept, -⟩ keeps taken
      rcases Option.map_eq_some_iff.mp taken with ⟨moved, stepped, same⟩
      cases same
      have fits : ChunkRead settings call read := by
        intro size member
        rw [sizes_eq small kept] at member
        rcases List.mem_map.mp member with ⟨line, listed, rfl⟩
        exact keeps.chunk line listed
      exact ⟨step_safe positive small safe fits stepped,
        step_kept small safe kept keeps stepped, keeps.header⟩
  exact invariant.2.1.limited invariant.1 invariant.2.2

end

end ResponseCall

/-! ## Both calls -/

instance (settings : Settings) (history : List (List UInt8)) :
    Decidable (RequestCall.Larger settings history) :=
  inferInstanceAs (Decidable (_ ∨ _))

instance (settings : Settings) (history : List (List UInt8)) :
    Decidable (ResponseCall.Larger settings history) :=
  inferInstanceAs (Decidable (_ ∨ _))

instance (settings : Settings) (state : RequestCall × List (List UInt8)) (read : Read) :
    Decidable (RequestCall.KeepsLimits settings state read) :=
  let history := state.2 ++ [read.content]
  decidable_of_iff
    ((RequestCall.Accepts settings history →
        ¬ RequestCall.Larger settings history ∧
          toInt64 (RequestCall.declared settings history) ≤ settings.requestBodySize) ∧
      (RequestCall.Larger settings history →
        read ≠ .failed ∧ .backwards ∉ (RequestCall.arrived settings history).readings))
    ⟨fun keeps => ⟨keeps.1, keeps.2⟩, fun keeps => ⟨keeps.accepted, keeps.refused⟩⟩

instance (settings : Settings) (call : ResponseCall) (history : List (List UInt8))
    (read : Read) : Decidable (call.Ends settings history read) :=
  match call with
  | .chunkData _ _ _ _ _ => inferInstanceAs (Decidable (_ ∨ _))
  | .header _ _ | .chunkLine _ _ _ | .fixedBody _ _ _ _ | .finished _ =>
      inferInstanceAs (Decidable (_ = true))

instance (settings : Settings) (state : ResponseCall × List (List UInt8)) (read : Read) :
    Decidable (ResponseCall.KeepsLimits settings state read) :=
  let call := state.1
  let history := state.2 ++ [read.content]
  decidable_of_iff
    ((ResponseCall.Accepts history →
        (ResponseCall.arrived history).bytes ≤ settings.responseHeaderSize) ∧
      (ResponseCall.Accepts history → (ResponseCall.arrived history).chunked = false →
        ¬ ResponseCall.Larger settings history ∧
          toInt64 (ResponseCall.declared settings history) ≤ settings.responseBodySize) ∧
      (∀ line ∈ call.lines settings history read, ChunkFits line.length) ∧
      (call.content.length : Int) +
        ((call.lines settings history read).map Header.length).sum ≤
          settings.responseBodySize ∧
      (ResponseCall.Larger settings history → ¬ call.Ends settings history read))
    ⟨fun keeps => ⟨keeps.1, keeps.2.1, keeps.2.2.1, keeps.2.2.2.1, keeps.2.2.2.2⟩,
      fun keeps => ⟨keeps.header, keeps.length, keeps.chunk, keeps.chunks, keeps.last⟩⟩

theorem requestTrack_initial (settings : Settings) :
    ((recvRequest settings).track [] readContents).initial (RequestCall.start settings, []) :=
  ⟨rfl, rfl⟩

theorem responseTrack_initial (settings : Settings) :
    ((recvResponse settings).track [] readContents).initial (ResponseCall.start settings, []) :=
  ⟨rfl, rfl⟩

/-- Three bytes of body, of which one comes with the header. -/
def shortRequest : List Read := [
  .bytes (text "POST / HTTP/1.1\r\n"),
  .bytes (text "Content-Length: 3\r\n\r\na"),
  .bytes (text "bc")]

/-- Limits of a few bytes. -/
def smallSettings : Settings :=
  { defaultSettings with
    requestHeaderSize := 24, requestBodySize := 2, responseHeaderSize := 64,
    responseBodySize := 2 }

end Http

end FiberNet
