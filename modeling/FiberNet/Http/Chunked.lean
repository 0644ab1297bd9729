import FiberNet.Http.ChunkLine
import FiberNet.Http.ResponseFraming

/-! # Chunked responses cut into reads

Behind the header section, `recvResponse` reads chunk after chunk. What is still to come is a
list of chunks, or the rest of one chunk and such a list; a read leads from one to the other.
-/

namespace FiberNet

namespace Http

/-! ## Chunks -/

/-- Chunks of which only the last is empty. -/
def Framed : List Chunk → Prop
  | [] => True
  | chunk :: rest => chunk.Valid ∧ (chunk.data = [] ↔ rest = []) ∧ Framed rest

def encoded (chunks : List Chunk) : List UInt8 :=
  chunks.flatMap Chunk.bytes

def payload (chunks : List Chunk) : List UInt8 :=
  chunks.flatMap Chunk.data

/-- The chunk-size lines of chunks at an offset. A cut tears one behind its first byte and
before its end. -/
def lineTokens (offset : Nat) : List Chunk → List (Nat × Nat)
  | [] => []
  | chunk :: rest =>
      (offset, offset + chunk.line.length - 1) :: lineTokens (offset + chunk.bytes.length) rest

/-- No cut tears a line of the chunks at the end of a stream. -/
def Whole (total : Nat) (cuts : List Nat) (chunks : List Chunk) : Prop :=
  ∀ token ∈ lineTokens (total - (encoded chunks).length) chunks, ∀ cut ∈ cuts, ¬Torn token cut

section

variable {total : Nat} {cuts : List Nat} {chunk : Chunk} {rest : List Chunk}

theorem encoded_cons (chunk : Chunk) (rest : List Chunk) :
    encoded (chunk :: rest) = chunk.line ++ (chunk.data ++ [13, 10] ++ encoded rest) := by
  simp [encoded, Chunk.bytes]

theorem Whole.tail (whole : Whole total cuts (chunk :: rest))
    (room : (encoded (chunk :: rest)).length ≤ total) : Whole total cuts rest := by
  intro token member
  apply whole
  have length : (encoded (chunk :: rest)).length = chunk.bytes.length + (encoded rest).length := by
    rw [encoded, List.flatMap_cons, List.length_append, encoded]
  rw [lineTokens]
  apply List.mem_cons_of_mem
  have offset : total - (encoded (chunk :: rest)).length + chunk.bytes.length =
      total - (encoded rest).length := by omega
  rw [offset]
  exact member

/-- Of two splits of one list, the piece that is not longer comes first. -/
theorem append_split {buffer future piece others : List UInt8}
    (split : buffer ++ future = piece ++ others) (long : piece.length ≤ buffer.length) :
    ∃ behind, buffer = piece ++ behind ∧ behind ++ future = others := by
  have first : piece <+: buffer :=
    List.prefix_of_prefix_length_le (split ▸ List.prefix_append piece others)
      (List.prefix_append buffer future) long
  rcases first with ⟨behind, same⟩
  refine ⟨behind, same.symm, ?_⟩
  rw [← same, List.append_assoc] at split
  exact List.append_cancel_left split

/-- A buffer that begins with a line and does not end inside it has the whole line. -/
theorem line_whole (whole : Whole total cuts (chunk :: rest)) {buffer future : List UInt8}
    (room : (encoded (chunk :: rest)).length ≤ total)
    (split : buffer ++ future = encoded (chunk :: rest)) (nonempty : buffer ≠ [])
    (cut : total - future.length ∈ cuts) : chunk.line.length ≤ buffer.length := by
  have untorn := whole _ List.mem_cons_self _ cut
  have length := congrArg List.length split
  have positive := List.length_pos_of_ne_nil nonempty
  rw [List.length_append] at length
  rw [Torn] at untorn
  omega

end

namespace ResponseCall

/-- Each read is one that the call takes, up to its end. -/
def Fits (settings : Settings) : ResponseCall → List (List UInt8) → Prop
  | _, [] => True
  | call, read :: reads =>
      match (recvResponse settings).step call (.bytes read) with
      | some next => Fits settings next reads
      | none => call.outcome ≠ none

instance decidableFits (settings : Settings) :
    ∀ call reads, Decidable (Fits settings call reads)
  | _, [] => isTrue trivial
  | call, read :: reads =>
      match taken : (recvResponse settings).step call (.bytes read) with
      | some next =>
          have := decidableFits settings next reads
          decidable_of_iff (Fits settings next reads) (by simp [Fits, taken])
      | none => decidable_of_iff (call.outcome ≠ none) (by simp [Fits, taken])

/-- The call awaits `future`, and then returns a response with this body and these headers. -/
def Awaits (settings : Settings) (total : Nat) (cuts : List Nat) (body : List UInt8)
    (headers : MapType) (future : List UInt8) : ResponseCall → Prop
  | .chunkLine parser done buffer =>
      buffer = [] ∧ parser.error = .ok ∧ ∃ chunks, chunks ≠ [] ∧ Framed chunks ∧
        Whole total cuts chunks ∧ future = encoded chunks ∧ body = done ++ payload chunks ∧
        headers = chunks.foldl Chunk.extend parser.data.headers
  | .chunkData parser before left nread received =>
      nread = min left settings.responseHeaderSize ∧ received.length < nread ∧
        parser.error = .ok ∧ ∃ chunks tail done, Framed chunks ∧ Whole total cuts chunks ∧
        (parser.chunksDone = true ↔ chunks = []) ∧ before ++ tail = done ++ [13, 10] ∧
        tail.length = left ∧ received ++ future = tail ++ encoded chunks ∧
        body = done ++ payload chunks ∧
        headers = chunks.foldl Chunk.extend parser.data.headers
  | .finished (.returned message) =>
      future = [] ∧ message.body = body ∧ message.headers = headers
  | _ => False

variable {settings : Settings}

theorem awaitChunkData_awaits (positive : 0 < settings.responseHeaderSize) {total : Nat}
    {cuts : List Nat} {parser : HttpResponseParser} {chunks : List Chunk}
    {before tail done : List UInt8} (framed : Framed chunks)
    (whole : Whole total cuts chunks) (error : parser.error = .ok)
    (last : parser.chunksDone = true ↔ chunks = []) (split : before ++ tail = done ++ [13, 10])
    (more : tail ≠ []) :
    (awaitChunkData settings parser before tail.length).Awaits settings total cuts
      (done ++ payload chunks) (chunks.foldl Chunk.extend parser.data.headers)
      (tail ++ encoded chunks) := by
  have length := List.length_pos_of_ne_nil more
  rw [awaitChunkData, checked_of_inBounds (by simp [Access.inBounds]; omega)]
  exact ⟨rfl, by simp; omega, error, chunks, tail, done, framed, whole, last, split, rfl, rfl,
    rfl, rfl⟩

/-- One round of the loop over a buffer that begins with a line. -/
theorem chunkLoop_line (small : settings.responseHeaderSize < 2 ^ 31)
    {parser : HttpResponseParser} (error : parser.error = .ok) {chunk : Chunk}
    (valid : chunk.Valid) {behind : List UInt8}
    (fits : (chunk.line ++ behind).length ≤ settings.responseHeaderSize) (fuel : Nat)
    (body : List UInt8) :
    chunkLoop settings (fuel + 1) parser body (chunk.line ++ behind) =
      if chunk.data.length + 2 ≤ behind.length then
        if chunk.data = [] then
          finish (parser.withChunk chunk) (body ++ behind.take chunk.data.length)
        else
          chunkLoop settings fuel (parser.withChunk chunk)
            (body ++ behind.take chunk.data.length) (behind.drop (chunk.data.length + 2))
      else
        awaitChunkData settings (parser.withChunk chunk) (body ++ behind)
          (chunk.data.length + 2 - behind.length) := by
  have bounded := valid.small
  have line : 0 < chunk.line.length := by
    rw [Chunk.line, List.length_append]
    exact Nat.succ_pos _
  rw [List.length_append] at fits
  have nonempty : (chunk.line ++ behind).isEmpty = false := by
    rw [List.isEmpty_eq_false_iff]
    exact List.append_ne_nil_of_left_ne_nil (List.ne_nil_of_length_pos line) _
  have limit := @toInt32_of_lt settings.responseHeaderSize (Int.natCast_nonneg _) (by omega)
  have len := @toInt32_of_lt behind.length (Int.natCast_nonneg _) (by omega)
  have size := @toInt32_of_lt ((chunk.data.length : Int) + 2) (by omega) (by omega)
  have accepted : (parser.withChunk chunk).hasError = false := by
    simp [HttpResponseParser.withChunk, HttpResponseParser.hasError, error, responseFirstFinal,
      responseError]
  have finished : (parser.withChunk chunk).isFinished = 1 := rfl
  have parsed := @HttpResponseParser.execute_line chunk _ behind valid rfl parser
  rw [chunkLoop, nonempty, if_neg Bool.false_ne_true, parsed]
  dsimp only
  rw [accepted, finished, Int.toNat_natCast, List.drop_left, limit, len,
    checked_of_inBounds (by simp [Access.inBounds]; omega), if_neg Bool.false_ne_true,
    if_neg (by omega), if_neg (by decide)]
  have sized : (parser.withChunk chunk).contentLen = chunk.data.length := rfl
  have last : (parser.withChunk chunk).chunksDone = (chunk.data.length = 0 : Bool) := rfl
  rw [sized, size, last]
  by_cases whole : chunk.data.length + 2 ≤ behind.length
  · rw [if_pos whole, if_pos (by omega),
      checked_of_inBounds (by simp [Access.inBounds]; omega), Int.toNat_natCast]
    simp only [decide_eq_true_eq, List.length_eq_zero_iff]
  · have left := @toInt32_of_lt ((chunk.data.length : Int) - behind.length + 2) (by omega)
      (by omega)
    rw [if_neg whole, if_neg (by omega), left, checked_of_inBounds (by simp [Access.inBounds]),
      if_pos (by omega)]
    congr 1
    omega

/-- The loop over a buffer that ends where no line is torn, by induction on the chunks to
come. -/
theorem chunkLoop_awaits (positive : 0 < settings.responseHeaderSize)
    (small : settings.responseHeaderSize < 2 ^ 31) {total : Nat} {cuts : List Nat}
    {chunks : List Chunk} (some : chunks ≠ []) (framed : Framed chunks)
    (whole : Whole total cuts chunks)
    (room : (encoded chunks).length ≤ total) {parser : HttpResponseParser}
    (error : parser.error = .ok) {buffer future : List UInt8}
    (fits : buffer.length ≤ settings.responseHeaderSize)
    (split : buffer ++ future = encoded chunks) (cut : total - future.length ∈ cuts) {fuel : Nat}
    (enough : buffer.length < fuel) (body : List UInt8) :
    (chunkLoop settings fuel parser body buffer).Awaits settings total cuts
      (body ++ payload chunks) (chunks.foldl Chunk.extend parser.data.headers) future := by
  induction chunks generalizing parser buffer fuel body with
  | nil => exact absurd rfl some
  | cons chunk rest induction =>
      rcases framed with ⟨valid, last, rest_framed⟩
      cases fuel with
      | zero => exact absurd enough (Nat.not_lt_zero _)
      | succ fuel =>
          by_cases empty : buffer = []
          · subst empty
            rw [chunkLoop, List.isEmpty_nil, if_pos rfl,
              checked_of_inBounds (by simpa [Access.inBounds] using positive)]
            exact ⟨rfl, error, chunk :: rest, some, ⟨valid, last, rest_framed⟩, whole, split, rfl,
              rfl⟩
          · have line := line_whole whole room split empty cut
            have later := whole.tail room
            have rest_room : (encoded rest).length ≤ total := by
              rw [encoded_cons, List.length_append, List.length_append] at room
              omega
            rw [encoded_cons] at split
            rcases append_split split line with ⟨behind, same, behind_split⟩
            subst same
            rw [chunkLoop_line small error valid fits]
            have framing : (chunk.data ++ [13, 10]).length = chunk.data.length + 2 :=
              List.length_append
            have accepted : (parser.withChunk chunk).error = .ok := error
            by_cases complete : chunk.data.length + 2 ≤ behind.length
            · rcases append_split behind_split (by rw [List.length_append]; exact complete) with
                ⟨more, same, more_split⟩
              subst same
              have dropped : (chunk.data ++ [13, 10] ++ more).drop (chunk.data.length + 2) =
                  more := by
                rw [← framing, List.drop_left]
              rw [if_pos complete, List.append_assoc, List.take_left, ← List.append_assoc, dropped]
              by_cases ends : chunk.data = []
              · have none := last.mp ends
                subst none
                rw [if_pos ends]
                refine ⟨(List.append_eq_nil_iff.mp more_split).2, ?_, rfl⟩
                simp [payload]
              · have others : rest ≠ [] := fun none => ends (last.mpr none)
                rw [if_neg ends]
                rw [payload, List.flatMap_cons, ← List.append_assoc]
                simp only [List.length_append, List.length_cons, List.length_nil] at enough fits
                exact induction others rest_framed later rest_room accepted (by omega) more_split
                  (by omega) (body ++ chunk.data)
            · rw [if_neg complete]
              rcases append_split behind_split.symm (by omega) with ⟨tail, same, tail_split⟩
              have length := congrArg List.length same
              rw [framing, List.length_append] at length
              have left : chunk.data.length + 2 - behind.length = tail.length := by omega
              have more : tail ≠ [] := by
                apply List.ne_nil_of_length_pos
                omega
              rw [left, ← tail_split, payload, List.flatMap_cons, ← List.append_assoc]
              have done : (parser.withChunk chunk).chunksDone = true ↔ rest = [] := by
                show (decide (chunk.data.length = 0) = true ↔ rest = [])
                rw [decide_eq_true_iff, List.length_eq_zero_iff]
                exact last
              exact awaitChunkData_awaits positive rest_framed later accepted done
                (by rw [List.append_assoc, ← same, List.append_assoc]) more

theorem step_bytes {call next : ResponseCall} {read : List UInt8}
    (taken : (recvResponse settings).step call (.bytes read) = some next) :
    read.length ≤ call.requested settings := by
  change (if read.length ≤ call.requested settings then _ else none) = some next at taken
  split at taken
  case isTrue fits => exact fits
  case isFalse => cases taken

theorem Fits.step {call : ResponseCall} {read : List UInt8} {reads : List (List UInt8)}
    (fits : call.Fits settings (read :: reads)) (waiting : call.outcome = none) :
    read.length ≤ call.requested settings ∧
      ∃ next, (recvResponse settings).step call (.bytes read) = some next ∧
        next.Fits settings reads := by
  rw [Fits] at fits
  cases taken : (recvResponse settings).step call (.bytes read) with
  | none =>
      rw [taken] at fits
      exact absurd waiting fits
  | some next =>
      rw [taken] at fits
      exact ⟨step_bytes taken, next, rfl, fits⟩

theorem count_pos {read : List UInt8} (nonempty : read ≠ []) : ¬(Read.bytes read).count ≤ 0 := by
  have positive := List.length_pos_of_ne_nil nonempty
  change ¬(read.length : Int) ≤ 0
  omega

section

variable {total : Nat} {cuts : List Nat} {body read future : List UInt8} {headers : MapType}
  (positive : 0 < settings.responseHeaderSize) (small : settings.responseHeaderSize < 2 ^ 31)
  (nonempty : read ≠ []) (room : (read ++ future).length ≤ total)
  (cut : total - future.length ∈ cuts)

include positive small nonempty room cut

theorem onChunkLine_awaits {parser : HttpResponseParser} {done buffer : List UInt8}
    (awaits : (chunkLine parser done buffer).Awaits settings total cuts body headers
      (read ++ future))
    (fits : read.length ≤ (chunkLine parser done buffer).requested settings) :
    (onChunkLine settings parser done buffer (.bytes read)).Awaits settings total cuts body headers
      future := by
  rcases awaits with ⟨empty, error, chunks, some, framed, whole, split, content, extended⟩
  subst empty content extended
  rw [onChunkLine, if_neg (count_pos nonempty)]
  exact chunkLoop_awaits positive small some framed whole (split ▸ room) error fits split cut
    (Nat.lt_succ_self _) done

theorem onChunkData_awaits {parser : HttpResponseParser} {before received : List UInt8}
    {left nread : Nat}
    (awaits : (chunkData parser before left nread received).Awaits settings total cuts body headers
      (read ++ future))
    (fits : read.length ≤ (chunkData parser before left nread received).requested settings) :
    (onChunkData settings parser before left nread received (.bytes read)).Awaits settings total
      cuts body headers future := by
  rcases awaits with ⟨limit, more, error, chunks, tail, done, framed, whole, last, split, length,
    later, content, extended⟩
  subst content extended
  change read.length ≤ nread - received.length at fits
  rw [onChunkData, if_neg (count_pos nonempty)]
  dsimp only [Read.content]
  rw [← List.append_assoc] at later
  by_cases short : (received ++ read).length < nread
  · rw [if_pos short]
    exact ⟨limit, short, error, chunks, tail, done, framed, whole, last, split, length, later, rfl,
      rfl⟩
  · have full : (received ++ read).length = nread := by
      rw [List.length_append] at short ⊢
      omega
    rcases append_split later.symm (by omega) with ⟨rest, same, rest_split⟩
    rw [if_neg short]
    generalize received ++ read = both at full same
    rw [checked_of_inBounds (by simp [Access.inBounds]; omega)]
    subst same
    rw [List.length_append] at length
    rw [← List.append_assoc] at split
    by_cases more : nread < left
    · have left_eq : left - nread = rest.length := by omega
      have remains : rest ≠ [] := by
        apply List.ne_nil_of_length_pos
        omega
      rw [if_pos more, left_eq, ← rest_split]
      exact awaitChunkData_awaits positive framed whole error last split remains
    · have none : rest = [] := by
        apply List.eq_nil_of_length_eq_zero
        omega
      subst none
      rw [List.append_nil] at split
      have taken : (before ++ both).take ((before ++ both).length - 2) = done := by
        rw [split]
        have framing : (done ++ [13, 10]).length - 2 = done.length := by
          rw [List.length_append]
          exact Nat.add_sub_cancel _ _
        rw [framing, List.take_left]
      have size := congrArg List.length split
      rw [@List.length_append _ done] at size
      rw [if_neg more, checked_of_inBounds (by simp [Access.inBounds] at size ⊢; omega), taken]
      rw [List.nil_append] at rest_split
      by_cases ends : parser.chunksDone = true
      · have all := last.mp ends
        subst all
        rw [if_pos ends]
        exact ⟨rest_split.symm, (List.append_nil done).symm, rfl⟩
      · have others : chunks ≠ [] := fun all => ends (last.mpr all)
        rw [if_neg ends, decodeChunks]
        have first : [] ++ future = encoded chunks := rest_split.symm
        have within : (encoded chunks).length ≤ total := by
          rw [← first, List.nil_append]
          rw [List.length_append] at room
          omega
        exact chunkLoop_awaits positive small others framed whole within error (Nat.zero_le _) first
          cut (Nat.lt_succ_self _) done

omit positive small nonempty room cut in
/-- A call that awaits nothing has returned. -/
theorem Awaits.returned {call : ResponseCall}
    (awaits : call.Awaits settings total cuts body headers []) :
    ∃ message, call = .finished (.returned message) ∧ message.body = body ∧
      message.headers = headers := by
  cases call with
  | header parser remain => exact awaits.elim
  | fixedBody parser body asked left => exact awaits.elim
  | chunkLine parser done buffer =>
      rcases awaits with ⟨_, _, chunks, some, _, _, split, _⟩
      cases chunks with
      | nil => exact absurd rfl some
      | cons chunk rest =>
          have length := congrArg List.length split
          rw [encoded_cons, Chunk.line] at length
          simp at length
  | chunkData parser before left nread received =>
      rcases awaits with ⟨limit, more, _, chunks, tail, _, _, _, _, _, length, split, _⟩
      have lengths := congrArg List.length split
      rw [List.append_nil, List.length_append] at lengths
      omega
  | finished outcome =>
      cases outcome with
      | returned message => exact ⟨message, rfl, awaits.2⟩
      | null closed => exact awaits.elim
      | threw => exact awaits.elim
      | fault => exact awaits.elim

/-- One read. -/
theorem Awaits.step {call next : ResponseCall}
    (awaits : call.Awaits settings total cuts body headers (read ++ future))
    (fits : read.length ≤ call.requested settings)
    (taken : (recvResponse settings).step call (.bytes read) = some next) :
    next.Awaits settings total cuts body headers future := by
  change (if read.length ≤ call.requested settings then _ else none) = some next at taken
  rw [if_pos fits] at taken
  cases call with
  | header parser remain => exact awaits.elim
  | fixedBody parser body asked left => exact awaits.elim
  | finished outcome => cases taken
  | chunkLine parser done buffer =>
      cases taken
      exact onChunkLine_awaits positive small nonempty room cut awaits fits
  | chunkData parser before left nread received =>
      cases taken
      exact onChunkData_awaits positive small nonempty room cut awaits fits

omit positive small room cut in
theorem Awaits.waiting {call : ResponseCall}
    (awaits : call.Awaits settings total cuts body headers (read ++ future)) :
    call.outcome = none := by
  cases call with
  | finished outcome =>
      cases outcome with
      | returned message => exact absurd (List.append_eq_nil_iff.mp awaits.1).1 nonempty
      | null closed => exact awaits.elim
      | threw => exact awaits.elim
      | fault => exact awaits.elim
  | header parser remain => rfl
  | fixedBody parser body asked left => rfl
  | chunkLine parser done buffer => rfl
  | chunkData parser before left nread received => rfl

end

/-- Where the reads end that begin at an offset. -/
def ends (offset : Nat) : List (List UInt8) → List Nat
  | [] => []
  | read :: reads => (offset + read.length) :: ends (offset + read.length) reads

section

variable {total : Nat} {cuts : List Nat} {body : List UInt8} {headers : MapType}
  (positive : 0 < settings.responseHeaderSize) (small : settings.responseHeaderSize < 2 ^ 31)

include positive small

theorem Awaits.run {reads : List (List UInt8)} {call : ResponseCall} {future : List UInt8}
    (awaits : call.Awaits settings total cuts body headers future) (whole : reads.flatten = future)
    (nonempty : ∀ read ∈ reads, read ≠ []) (room : future.length ≤ total)
    (known : ∀ cut ∈ ends (total - future.length) reads, cut ∈ cuts)
    (fits : call.Fits settings reads) :
    ∃ final, (recvResponse settings).run call (reads.map .bytes) = some final ∧
      final.Awaits settings total cuts body headers [] := by
  induction reads generalizing call future with
  | nil =>
      rw [List.flatten_nil] at whole
      exact ⟨call, rfl, whole ▸ awaits⟩
  | cons read reads induction =>
      rw [List.flatten_cons] at whole
      subst whole
      have filled := nonempty read List.mem_cons_self
      rcases fits.step (awaits.waiting filled) with ⟨asked, next, taken, later⟩
      have length : total - (read ++ reads.flatten).length + read.length =
          total - reads.flatten.length := by
        rw [List.length_append] at room ⊢
        omega
      rw [ends, length] at known
      have stepped := awaits.step positive small filled room (known _ List.mem_cons_self) asked
        taken
      rw [List.length_append] at room
      rcases induction stepped rfl
        (fun other member => nonempty other (List.mem_cons_of_mem _ member)) (by omega)
        (fun cut member => known cut (List.mem_cons_of_mem _ member)) later with
        ⟨final, executed, ended⟩
      refine ⟨final, ?_, ended⟩
      rw [List.map_cons, Machine.run, taken]
      exact executed

end

end ResponseCall

/-! ## Responses -/

/-- A response whose body comes in chunks, without trailers. -/
structure ChunkedResponse where
  head : HeaderSection
  chunks : List Chunk
  last : Chunk
  deriving DecidableEq

namespace ChunkedResponse

structure Valid (response : ChunkedResponse) : Prop where
  head : response.head.Valid
  announced : response.head.Chunked
  chunks : ∀ chunk ∈ response.chunks, chunk.Valid ∧ chunk.data ≠ []
  last : response.last.Valid ∧ response.last.data = []

instance (response : ChunkedResponse) : Decidable response.Valid :=
  decidable_of_iff
    (response.head.Valid ∧ response.head.Chunked ∧
      (∀ chunk ∈ response.chunks, chunk.Valid ∧ chunk.data ≠ []) ∧
      response.last.Valid ∧ response.last.data = [])
    ⟨fun all => ⟨all.1, all.2.1, all.2.2.1, all.2.2.2⟩,
      fun valid => ⟨valid.head, valid.announced, valid.chunks, valid.last⟩⟩

def parts (response : ChunkedResponse) : List Chunk :=
  response.chunks ++ [response.last]

def bytes (response : ChunkedResponse) : List UInt8 :=
  response.head.bytes ++ encoded response.parts

def body (response : ChunkedResponse) : List UInt8 :=
  payload response.chunks

def headers (response : ChunkedResponse) : MapType :=
  response.head.headers.erase (text "Transfer-Encoding")

/-- The headers with the extensions of the chunks among them. -/
def extendedHeaders (response : ChunkedResponse) : MapType :=
  response.parts.foldl Chunk.extend response.headers

/-- The version, the header lines and the chunk-size lines. -/
def tokens (response : ChunkedResponse) : List (Nat × Nat) :=
  HttpResponseParser.headerTokens response.bytes ++
    lineTokens response.head.bytes.length response.parts

/-- The bytes of the response come in these reads, each as long as is asked for at most. -/
structure Cut (settings : Settings) (response : ChunkedResponse) (reads : List (List UInt8)) :
    Prop where
  whole : reads.flatten = response.bytes
  nonempty : ∀ read ∈ reads, read ≠ []
  fits : (ResponseCall.start settings).Fits settings reads

/-- No read ends inside a token. The automaton ends the header section in the state that
`httpclient_parser_finish` looks for, and the limit is one that an `int` can hold. -/
structure Harmless (settings : Settings) (response : ChunkedResponse)
    (reads : List (List UInt8)) : Prop where
  positive : 0 < settings.responseHeaderSize
  small : settings.responseHeaderSize < 2 ^ 31
  recognised : (responseScanner.scan responseStart 0 response.head.bytes).state =
    responseFirstFinal
  untorn : ∀ token ∈ response.tokens, ∀ cut ∈ ResponseCall.ends 0 reads, ¬Torn token cut

/-- The call has returned the body and the headers of the response. -/
def Decoded (settings : Settings) (response : ChunkedResponse) (reads : List (List UInt8)) :
    Prop :=
  ∃ message, (recvResponse settings).run (.start settings) (reads.map .bytes) =
      some (.finished (.returned message)) ∧
    message.body = response.body ∧ message.headers = response.headers

theorem framed_append {chunks : List Chunk} {last : Chunk}
    (all : ∀ chunk ∈ chunks, chunk.Valid ∧ chunk.data ≠ []) (valid : last.Valid)
    (empty : last.data = []) : Framed (chunks ++ [last]) := by
  induction chunks with
  | nil => exact ⟨valid, iff_of_true empty rfl, trivial⟩
  | cons chunk chunks induction =>
      rcases all chunk List.mem_cons_self with ⟨chunk_valid, some⟩
      refine ⟨chunk_valid, iff_of_false some ?_, ?_⟩
      · exact List.append_ne_nil_of_right_ne_nil _ (List.cons_ne_nil _ _)
      · exact induction fun other member => all other (List.mem_cons_of_mem _ member)

end ChunkedResponse

namespace ResponseCall

open HttpResponseParser (At headerTokens)

section

variable {settings : Settings} {head : HeaderSection} {stream : List UInt8} {cuts : List Nat}
  {chunks : List Chunk} {events : List (Nat × ResponseAction)} {parser : HttpResponseParser}
  (positive : 0 < settings.responseHeaderSize) (small : settings.responseHeaderSize < 2 ^ 31)
  (some : chunks ≠ []) (framed : Framed chunks) (whole : Whole stream.length cuts chunks)
  (parsed : head.Parsed stream responseFirstFinal events parser)
  (chunked : parser.chunked = true) (split : stream = head.bytes ++ encoded chunks)

include positive small some framed whole parsed chunked split

/-- Behind the header section the chunks begin with what its last read has left. -/
theorem afterHeader_awaits {own : HttpResponseParser} {buffer future : List UInt8}
    (same : own.core = parser.core) (fits : buffer.length ≤ settings.responseHeaderSize)
    (rest : buffer ++ future = encoded chunks) (cut : stream.length - future.length ∈ cuts) :
    (afterHeader settings own buffer).Awaits settings stream.length cuts (payload chunks)
      (chunks.foldl Chunk.extend (parser.data.headers.erase (text "Transfer-Encoding")))
      future := by
  have flag := congrArg HttpResponseParser.chunked same
  have headers := congrArg (fun parser : HttpResponseParser => parser.data.headers) same
  have error := congrArg HttpResponseParser.error same
  change own.chunked = parser.chunked at flag
  change own.data.headers = parser.data.headers at headers
  change own.error = parser.error at error
  have room : (encoded chunks).length ≤ stream.length := by
    rw [split, List.length_append]
    exact Nat.le_add_left _ _
  rw [afterHeader, if_pos (flag.trans chunked), ← headers]
  let started := { own with data := own.data.delHeader (text "Transfer-Encoding") }
  have accepted : started.error = .ok := error.trans parsed.error
  exact chunkLoop_awaits positive small some framed whole room accepted fits rest cut
    (Nat.lt_succ_self _) []

theorem header_run
    (untorn : ∀ token ∈ headerTokens stream, ∀ cut ∈ cuts, ¬Torn token cut)
    {reads : List (List UInt8)} {before : List UInt8} {own : HttpResponseParser}
    (cut : At stream before own) (rest : stream = before ++ reads.flatten)
    (nonempty : ∀ read ∈ reads, read ≠ [])
    (start : ∀ token ∈ headerTokens stream, ¬Torn token before.length)
    (known : ∀ cut ∈ ends before.length reads, cut ∈ cuts)
    (fits : (header own []).Fits settings reads) :
    ∃ final, (recvResponse settings).run (.header own []) (reads.map .bytes) = Option.some final ∧
      final.Awaits settings stream.length cuts (payload chunks)
        (chunks.foldl Chunk.extend (parser.data.headers.erase (text "Transfer-Encoding"))) [] := by
  induction reads generalizing before own with
  | nil =>
      have all := congrArg List.length (rest.symm.trans split)
      rw [List.flatten_nil, List.append_nil, List.length_append] at all
      rcases parsed.scan_part rest with ⟨_, early⟩ | ⟨ended, _⟩
      · omega
      · have running := cut.running
        rw [ended] at running
        cases running
  | cons read reads induction =>
      rw [List.flatten_cons, ← List.append_assoc] at rest
      rcases fits.step rfl with ⟨asked, next, taken, later⟩
      have filled := nonempty read List.mem_cons_self
      have others : ∀ read ∈ reads, read ≠ [] :=
        fun other member => nonempty other (List.mem_cons_of_mem _ member)
      have moved : (recvResponse settings).step (header own []) (.bytes read) =
          Option.some (parseHeader settings own read) := by
        have asks : (recvResponse settings).step (header own []) (.bytes read) =
            Option.some (onHeader settings own [] (.bytes read)) := if_pos asked
        rw [asks, onHeader, if_neg (count_pos filled)]
        rfl
      rw [List.map_cons, Machine.run, moved, Option.bind_some]
      cases moved.symm.trans taken
      have place : before.length + read.length = (before ++ read).length :=
        List.length_append.symm
      rw [ends, place] at known
      have here := known _ List.mem_cons_self
      have behind : ∀ cut ∈ ends (before ++ read).length reads, cut ∈ cuts :=
        fun cut member => known cut (List.mem_cons_of_mem _ member)
      have kept : ∀ token ∈ headerTokens stream,
          ¬Torn token before.length ∧ ¬Torn token (read.length + before.length) := by
        intro token member
        refine ⟨start token member, ?_⟩
        rw [Nat.add_comm, place]
        exact untorn token member _ here
      rcases parseHeader_cut parsed positive small cut rest filled asked kept with
        ⟨ownNext, waits, next_cut⟩ | ⟨ownNext, ended, reached, same⟩
      · rw [waits] at later ⊢
        exact induction next_cut rest others (fun token member => untorn token member _ here) behind
          later
      · rcases append_split (rest.symm.trans split) reached with ⟨buffer, front, back⟩
        have length := congrArg List.length rest
        rw [List.length_append] at length
        have position : stream.length - reads.flatten.length = (before ++ read).length := by omega
        rw [front, List.drop_left] at ended
        have early : before.length < head.bytes.length := by
          rcases parsed.scan_part (rest.trans (List.append_assoc _ _ _)) with early | late
          · exact early.2
          · have running := cut.running
            rw [late.1] at running
            cases running
        have lengths := congrArg List.length front
        simp only [List.length_append] at lengths
        rw [ended] at later ⊢
        change read.length ≤ settings.responseHeaderSize at asked
        have awaits := afterHeader_awaits positive small some framed whole parsed chunked split same
          (show buffer.length ≤ settings.responseHeaderSize by omega) back (position ▸ here)
        exact awaits.run positive small rfl others (by omega) (position ▸ behind) later

end

end ResponseCall

namespace ChunkedResponse

variable {settings : Settings} {response : ChunkedResponse} {reads : List (List UInt8)}

/-- What the call returns for reads that tear no token: the body, and the headers with the
extensions among them. -/
theorem returned_run (valid : response.Valid) (cut : response.Cut settings reads)
    (harmless : response.Harmless settings reads) :
    ∃ message, (recvResponse settings).run (.start settings) (reads.map .bytes) =
        some (.finished (.returned message)) ∧
      message.body = response.body ∧ message.headers = response.extendedHeaders := by
  have split : response.bytes = response.head.bytes ++ encoded response.parts := rfl
  rcases HeaderSection.parsed valid.head split with ⟨state, events, parser, parsed⟩
  have final_state : state = responseFirstFinal := by
    rcases parsed.scan_part split with ⟨_, early⟩ | ⟨ended, _⟩
    · exact absurd early (Nat.lt_irrefl _)
    · exact (congrArg Scan.state ended).symm.trans harmless.recognised
  subst final_state
  have some : response.parts ≠ [] :=
    List.append_ne_nil_of_right_ne_nil _ (List.cons_ne_nil _ _)
  have framed : Framed response.parts :=
    framed_append valid.chunks valid.last.1 valid.last.2
  have offset : response.bytes.length - (encoded response.parts).length =
      response.head.bytes.length := by
    rw [split, List.length_append, Nat.add_sub_cancel]
  have whole : Whole response.bytes.length (ResponseCall.ends 0 reads) response.parts := by
    rw [Whole, offset]
    exact fun token member => harmless.untorn token (List.mem_append_right _ member)
  have body : payload response.parts = response.body := by
    rw [payload, parts, List.flatMap_append, List.flatMap_singleton, valid.last.2, List.append_nil]
    rfl
  have fits := cut.fits
  rw [ResponseCall.start_eq harmless.positive] at fits ⊢
  rcases ResponseCall.header_run harmless.positive harmless.small some framed whole parsed
    (parsed.chunked valid.announced) split
    (fun token member => harmless.untorn token (List.mem_append_left _ member))
    (HttpResponseParser.at_start response.bytes) cut.whole.symm cut.nonempty
    (fun token _ torn => Nat.not_lt_zero _ torn.1) (fun _ member => member) fits with
    ⟨final, executed, awaits⟩
  rw [body, parsed.headers] at awaits
  rcases awaits.returned with ⟨message, same, returned⟩
  exact ⟨message, same ▸ executed, returned⟩

/-- With reads that tear no token, the response comes back exactly if the extensions of its
chunks leave the headers as they are. -/
theorem decoded_iff (valid : response.Valid) (cut : response.Cut settings reads)
    (harmless : response.Harmless settings reads) :
    response.Decoded settings reads ↔ response.extendedHeaders = response.headers := by
  rcases returned_run valid cut harmless with ⟨message, executed, body, headers⟩
  constructor
  · rintro ⟨other, returned, _, others⟩
    cases executed.symm.trans returned
    exact headers.symm.trans others
  · intro same
    exact ⟨message, executed, body, headers.trans same⟩

/-! ## Examples -/

def page : ChunkedResponse where
  head := {
    version := text "HTTP/1.1"
    status := text "200"
    reason := text "OK"
    fields := [⟨text "Server", text " ", text "a"⟩,
      ⟨text "Transfer-Encoding", text " ", text "chunked"⟩] }
  chunks := [⟨text "3", [], text "abc"⟩, ⟨text "02", [], text "de"⟩]
  last := ⟨text "0", [], []⟩

def pageReads : List (List UInt8) :=
  [text "HTTP/1.1 200 O", text "K\r\nServer: a\r\n",
    text "Transfer-Encoding: chunked\r\n\r\n3\r\na", text "bc\r", text "\n",
    text "02\r\nde\r\n0\r\n", text "\r\n"]

set_option maxRecDepth 4000 in
theorem valid_page : page.Valid := by
  decide

theorem decoded_page : page.Decoded defaultSettings pageReads :=
  (decoded_iff valid_page ⟨by decide, by decide, by with_unfolding_all decide⟩
    ⟨by decide, by decide, by with_unfolding_all decide, by with_unfolding_all decide⟩).mpr
    (by decide)

def tornReads : List (List UInt8) :=
  [page.head.bytes ++ text "3", text "\r\nabc\r\n02\r\nde\r\n0\r\n\r\n"]

def extendedPage : ChunkedResponse :=
  { page with last := ⟨text "0", [⟨text "name", some (text "value")⟩], []⟩ }

set_option maxRecDepth 4000 in
theorem valid_extendedPage : extendedPage.Valid := by
  decide

/-- A cut inside a chunk-size line ends the call without a response. In one read, an
extension comes back as a header. -/
theorem not_decoded :
    (page.Valid ∧ page.Cut defaultSettings tornReads ∧ ¬page.Decoded defaultSettings tornReads) ∧
    (extendedPage.Valid ∧ extendedPage.Cut defaultSettings [extendedPage.bytes] ∧
      ¬extendedPage.Decoded defaultSettings [extendedPage.bytes]) := by
  have torn : page.Cut defaultSettings tornReads :=
    ⟨by decide, by decide, by with_unfolding_all decide⟩
  have contiguous : extendedPage.Cut defaultSettings [extendedPage.bytes] :=
    ⟨by decide, by decide, by with_unfolding_all decide⟩
  refine ⟨⟨valid_page, torn, ?_⟩, valid_extendedPage, contiguous, ?_⟩
  · rintro ⟨message, returned, _⟩
    have failed : (recvResponse defaultSettings).run (.start defaultSettings)
        (tornReads.map .bytes) = some (.finished (.null true)) := by
      with_unfolding_all decide
    cases failed.symm.trans returned
  · rintro ⟨message, returned, _, headers⟩
    rcases returned_run valid_extendedPage contiguous
      ⟨by decide, by decide, by with_unfolding_all decide, by with_unfolding_all decide⟩ with
      ⟨other, executed, _, extended⟩
    cases executed.symm.trans returned
    have same : extendedPage.headers = extendedPage.extendedHeaders := headers.symm.trans extended
    exact absurd same (by decide)

end ChunkedResponse

end Http

end FiberNet
