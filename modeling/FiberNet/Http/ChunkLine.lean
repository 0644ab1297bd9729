import FiberNet.Http.Bounds
import FiberNet.Http.ResponsePieces

/-! # Chunk-size lines

The line in front of a chunk: its size in hexadecimal digits, and extensions, each of which
is called back as if it were a header.
-/

namespace FiberNet

namespace Http

structure ChunkExtension where
  name : List UInt8
  value : Option (List UInt8)
  deriving DecidableEq

namespace ChunkExtension

/-- The extension behind its semicolon. -/
def bytes (extension : ChunkExtension) : List UInt8 :=
  extension.name ++ extension.value.elim [] ([61] ++ ·)

structure Valid (extension : ChunkExtension) : Prop where
  named : extension.name ≠ []
  letters : ∀ byte ∈ extension.name, within token byte = true
  valued : ∀ value ∈ extension.value, value ≠ [] ∧ ∀ byte ∈ value, within token byte = true

instance (extension : ChunkExtension) : Decidable extension.Valid :=
  decidable_of_iff
    (extension.name ≠ [] ∧ extension.name.all (within token) = true ∧
      ∀ value ∈ extension.value, value ≠ [] ∧ value.all (within token) = true)
    ⟨fun all => ⟨all.1, List.all_eq_true.mp all.2.1, fun value given =>
        ⟨(all.2.2 value given).1, List.all_eq_true.mp (all.2.2 value given).2⟩⟩,
      fun valid => ⟨valid.named, List.all_eq_true.mpr valid.letters, fun value given =>
        ⟨(valid.valued value given).1, List.all_eq_true.mpr (valid.valued value given).2⟩⟩⟩

end ChunkExtension

structure Chunk where
  size : List UInt8
  extensions : List ChunkExtension
  data : List UInt8
  deriving DecidableEq

namespace Chunk

/-- The extensions with the semicolons before them. -/
def extensionBytes (extensions : List ChunkExtension) : List UInt8 :=
  extensions.flatMap fun extension => [59] ++ extension.bytes

def line (chunk : Chunk) : List UInt8 :=
  chunk.size ++ extensionBytes chunk.extensions ++ [13] ++ [10]

def bytes (chunk : Chunk) : List UInt8 :=
  chunk.line ++ chunk.data ++ [13] ++ [10]

structure Valid (chunk : Chunk) : Prop where
  sized : chunk.size ≠ []
  digits : ∀ byte ∈ chunk.size, within xdigit byte = true
  length : digitsValue 16 chunk.size = chunk.data.length
  small : chunk.data.length < 2 ^ 31 - 2
  extensions : ∀ extension ∈ chunk.extensions, extension.Valid

instance (chunk : Chunk) : Decidable chunk.Valid :=
  decidable_of_iff
    (chunk.size ≠ [] ∧ chunk.size.all (within xdigit) = true ∧
      digitsValue 16 chunk.size = chunk.data.length ∧ chunk.data.length < 2 ^ 31 - 2 ∧
      ∀ extension ∈ chunk.extensions, extension.Valid)
    ⟨fun all => ⟨all.1, List.all_eq_true.mp all.2.1, all.2.2.1, all.2.2.2.1, all.2.2.2.2⟩,
      fun valid => ⟨valid.sized, List.all_eq_true.mpr valid.digits, valid.length, valid.small,
        valid.extensions⟩⟩

/-- What the extensions do to the headers. -/
def extend (headers : MapType) (chunk : Chunk) : MapType :=
  chunk.extensions.foldl (fun headers extension =>
    headers.set extension.name (extension.value.getD [])) headers

end Chunk

/-! ## Hexadecimal numbers -/

theorem isHex_of_within {byte : UInt8} (member : within xdigit byte = true) :
    isHex byte = true := by
  simpa [within, xdigit, isHex, Bool.or_assoc] using member

theorem isDigit_of_isHex {byte : UInt8} (hex : isHex byte = true) : isDigit 16 byte = true := by
  rw [isDigit, hex, Bool.true_and, decide_eq_true_iff, hexToDec]
  simp only [isHex, Bool.or_eq_true, Bool.and_eq_true, decide_eq_true_eq] at hex
  split
  · omega
  · split <;> omega

/-- A byte that begins or goes on with a hexadecimal number is no sign, no white space and
not the letter of the prefix. -/
theorem isHex_unsigned {byte : UInt8} (hex : isHex byte = true) :
    isSpace byte = false ∧ byte ≠ 45 ∧ byte ≠ 43 ∧ toLower byte ≠ 120 := by
  simp only [isHex, Bool.or_eq_true, Bool.and_eq_true, decide_eq_true_eq] at hex
  refine ⟨?_, ?_, ?_, ?_⟩
  · simp [isSpace]
    omega
  · rintro rfl
    simp at hex
  · rintro rfl
    simp at hex
  · rw [toLower]
    split <;> omega

theorem strtol_hex {digits rest : List UInt8} {last : UInt8} (nonempty : digits ≠ [])
    (all : ∀ byte ∈ digits, isHex byte = true) (stops : last ∈ [(59 : UInt8), 13])
    (small : digitsValue 16 digits < 2 ^ 63) :
    strtol 16 (digits ++ last :: rest) = digitsValue 16 digits := by
  have ends : isDigit 16 last = false ∧ toLower last ≠ 120 := by
    rcases List.mem_pair.mp stops with same | same
    · subst same
      decide
    · subst same
      decide
  have taken : (digits ++ last :: rest).takeWhile (isDigit 16) = digits := by
    rw [List.takeWhile_append_of_pos fun byte member => isDigit_of_isHex (all byte member),
      List.takeWhile_cons_of_neg (by simp [ends.1]), List.append_nil]
  cases digits with
  | nil => exact absurd rfl nonempty
  | cons first digits =>
      rcases isHex_unsigned (all first List.mem_cons_self) with ⟨space, minus, plus, _⟩
      have trimmed : (first :: digits ++ last :: rest).dropWhile isSpace =
          first :: digits ++ last :: rest := by
        rw [List.cons_append, List.dropWhile_cons_of_neg (by simp [space])]
      have second : toLower ((digits ++ last :: rest).headD 0) ≠ 120 := by
        cases digits with
        | nil => exact ends.2
        | cons second digits =>
            exact (isHex_unsigned (all second (List.mem_cons_of_mem _ List.mem_cons_self))).2.2.2
      rw [strtol, trimmed]
      simp only [List.cons_append, List.headD_cons, List.tail_cons, minus, plus, or_self, if_false,
        second, false_and, and_false]
      rw [← List.cons_append, taken]
      omega

namespace HttpResponseParser

/-! ## The scan of a line -/

/-- The run of a parser over a buffer that begins with a chunk-size line. -/
def chunkRun (data : List UInt8) (parser : HttpResponseParser) :
    Execution ResponseAction HttpResponseParser :=
  { responseRun data with parser := parser }

theorem moves_line :
    responseScanner.move 2 59 = some ([.chunkSize], 4) ∧
    responseScanner.move 2 13 = some ([.chunkSize], 3) ∧
    responseScanner.move 5 59 = some ([.writeField, .startValue, .writeValue], 4) ∧
    responseScanner.move 5 13 = some ([.writeField, .startValue, .writeValue], 3) ∧
    responseScanner.move 5 61 = some ([.writeField, .startValue], 6) ∧
    responseScanner.move 7 59 = some ([.writeValue], 4) ∧
    responseScanner.move 7 13 = some ([.writeValue], 3) ∧
    responseScanner.move 3 10 = some ([.done], 120) := by
  decide

theorem leads_line :
    (∀ range ∈ xdigit, responseScanner.leads 1 range = some ([.mark], 2)) ∧
    (∀ range ∈ xdigit, responseScanner.leads 2 range = some ([], 2)) ∧
    (∀ range ∈ token, responseScanner.leads 4 range = some ([.startField], 5)) ∧
    (∀ range ∈ token, responseScanner.leads 5 range = some ([], 5)) ∧
    (∀ range ∈ token, responseScanner.leads 6 range = some ([.startValue], 7)) ∧
    ∀ range ∈ token, responseScanner.leads 7 range = some ([], 7) := by
  decide

/-- Behind a semicolon an extension follows, behind a carriage return the line ends. -/
def behindByte (last : UInt8) : Nat :=
  if last = 59 then 4 else 3

/-- A word whose first byte performs an action. -/
theorem walks_word {state target : Nat} {ranges : List (Nat × Nat)} {action : ResponseAction}
    (opens : ∀ range ∈ ranges, responseScanner.leads state range = some ([action], target))
    (onward : [action].any responseScanner.stops = false)
    (stays : ∀ range ∈ ranges, responseScanner.leads target range = some ([], target))
    {bytes : List UInt8} (nonempty : bytes ≠ [])
    (all : ∀ byte ∈ bytes, within ranges byte = true) (position : Nat) :
    responseScanner.Walks state position bytes target [(position, action)] := by
  cases bytes with
  | nil => exact absurd rfl nonempty
  | cons first rest =>
      have start := Scanner.walks_byte
        (Scanner.move_of_leads opens (all first List.mem_cons_self)) onward position
      exact start.append (Scanner.walks_loop (fun byte member => Scanner.move_of_leads stays
        (all byte (List.mem_cons_of_mem _ member))) _)

section

variable {data before behind : List UInt8} {start parser : HttpResponseParser} {marks : Marks}
  {extension : ChunkExtension} {last : UInt8}

/-- The parser with an extension among the headers. -/
def withExtension (parser : HttpResponseParser) (extension : ChunkExtension) :
    HttpResponseParser :=
  { parser with
    data := parser.data.setHeader extension.name (extension.value.getD []) }

theorem perform_extension {last : Marks} {position : Nat} (named : extension.name ≠ [])
    (field : slice data last.fieldStart (last.fieldStart + last.fieldLen) = extension.name)
    (value : slice data last.mark position = extension.value.getD []) :
    perform data parser ⟨.writeValue, position, last⟩ = parser.withExtension extension := by
  rw [perform]
  simp only [field, value]
  rw [onResponseHttpField, List.isEmpty_eq_false_iff.mpr named, if_neg Bool.false_ne_true]
  rfl

theorem mem_ends (ends : last ∈ [(59 : UInt8), 13]) {state : Nat}
    {actions : List ResponseAction}
    (semicolon : responseScanner.move state 59 = some (actions, 4))
    (returns : responseScanner.move state 13 = some (actions, 3)) :
    responseScanner.move state last = some (actions, behindByte last) := by
  rcases List.mem_pair.mp ends with same | same
  · rw [same]
    exact semicolon
  · rw [same]
    exact returns

/-- An extension, with the byte that ends it. -/
theorem consumed_extension (valid : extension.Valid) (ends : last ∈ [(59 : UInt8), 13])
    (consumed : (chunkRun data start).Consumed before 4 marks parser)
    (split : data = before ++ extension.bytes ++ last :: behind) :
    ∃ marks, (chunkRun data start).Consumed (before ++ extension.bytes ++ [last])
      (behindByte last) marks (parser.withExtension extension) := by
  rcases moves_line with ⟨_, _, semicolon, returns, equals, semicolonValue, returnsValue, _⟩
  rcases leads_line with ⟨_, _, first, letters, firstValue, lettersValue⟩
  have name := consumed.append (walks_word first rfl letters valid.named valid.letters _) rfl
  have field : slice data before.length
      (before.length + ((before ++ extension.name).length - before.length)) = extension.name := by
    rw [List.length_append, Nat.add_sub_cancel_left, ← List.length_append]
    apply @slice_piece _ _ _ (extension.value.elim [] ([61] ++ ·) ++ last :: behind)
    rw [split, ChunkExtension.bytes]
    simp only [List.append_assoc]
  cases written : extension.value with
  | none =>
      have bytes : extension.bytes = extension.name := by
        rw [ChunkExtension.bytes, written]
        exact List.append_nil _
      have value : slice data (before ++ extension.name).length
          (before ++ extension.name).length = extension.value.getD [] := by
        have piece := @slice_piece data (before ++ extension.name) [] (last :: behind)
          (by rw [split, bytes, List.append_nil])
        rw [List.append_nil] at piece
        rw [piece, written]
        rfl
      rw [bytes]
      have stored := @perform_extension data parser extension
        ⟨(before ++ extension.name).length, before.length,
          (before ++ extension.name).length - before.length, marks.queryStart⟩ _ valid.named field
        value
      exact ⟨_, name.append (Scanner.walks_byte (mem_ends ends semicolon returns) rfl _)
        (congrArg some stored)⟩
  | some text =>
      have bytes : extension.bytes = extension.name ++ [61] ++ text := by
        rw [ChunkExtension.bytes, written]
        exact (List.append_assoc _ _ _).symm
      have valued := valid.valued text written
      have sign := name.append (Scanner.walks_byte equals rfl _) rfl
      have word := sign.append
        (walks_word firstValue rfl lettersValue valued.1 valued.2 _) rfl
      have value : slice data (before ++ extension.name ++ [61]).length
          (before ++ extension.name ++ [61] ++ text).length = extension.value.getD [] := by
        rw [written]
        apply @slice_piece _ _ _ (last :: behind)
        rw [split, bytes]
        simp only [List.append_assoc]
      have stored := @perform_extension data parser extension
        ⟨(before ++ extension.name ++ [61]).length, before.length,
          (before ++ extension.name).length - before.length, marks.queryStart⟩ _ valid.named field
        value
      have whole := word.append
        (Scanner.walks_byte (mem_ends ends semicolonValue returnsValue) rfl _)
        (congrArg some stored)
      rw [bytes, ← List.append_assoc, ← List.append_assoc]
      exact ⟨_, whole⟩

/-- All extensions behind the first semicolon, with the byte behind them. -/
theorem consumed_extensions {extensions : List ChunkExtension}
    (valid : extension.Valid) (all : ∀ extension ∈ extensions, extension.Valid)
    (consumed : (chunkRun data start).Consumed before 4 marks parser)
    (split : data = before ++ extension.bytes ++ Chunk.extensionBytes extensions ++ 13 :: behind) :
    ∃ marks, (chunkRun data start).Consumed
      (before ++ extension.bytes ++ Chunk.extensionBytes extensions ++ [13]) 3 marks
      ((extension :: extensions).foldl withExtension parser) := by
  induction extensions generalizing before extension marks parser with
  | nil =>
      rw [Chunk.extensionBytes, List.flatMap_nil, List.append_nil] at split ⊢
      exact consumed_extension valid (by decide) consumed split
  | cons next rest induction =>
      have pieces : before ++ extension.bytes ++ Chunk.extensionBytes (next :: rest) =
          before ++ extension.bytes ++ [59] ++ next.bytes ++ Chunk.extensionBytes rest := by
        simp only [Chunk.extensionBytes, List.flatMap_cons, List.append_assoc]
      rw [pieces] at split ⊢
      have whole : data = before ++ extension.bytes ++
          59 :: (next.bytes ++ Chunk.extensionBytes rest ++ 13 :: behind) := by
        rw [split]
        simp only [List.append_assoc, List.cons_append, List.nil_append]
      rcases consumed_extension valid (by decide) consumed whole with ⟨_, one⟩
      exact induction (all next List.mem_cons_self)
        (fun other member => all other (List.mem_cons_of_mem _ member)) one split

end

section

variable {chunk : Chunk} {data behind : List UInt8}

/-- The parser behind the size of a chunk. -/
def withSize (parser : HttpResponseParser) (length : Nat) : HttpResponseParser :=
  { parser with contentLen := length, chunked := true, chunksDone := length = 0 }

theorem consumed_size (valid : chunk.Valid) {last : UInt8} (ends : last ∈ [(59 : UInt8), 13])
    (split : data = chunk.size ++ last :: behind) (start : HttpResponseParser) :
    ∃ marks, (chunkRun data start).Consumed (chunk.size ++ [last]) (behindByte last) marks
      (start.withSize chunk.data.length) := by
  have size := (Execution.consumed_nil (chunkRun data start)).append
    (walks_word leads_line.1 rfl leads_line.2.1 valid.sized valid.digits _) rfl
  rw [List.nil_append] at size
  have small := valid.small
  have value : strtol 16 data = (chunk.data.length : Int) := by
    rw [split,
      strtol_hex valid.sized (fun byte member => isHex_of_within (valid.digits byte member))
      ends (by rw [valid.length]; omega), valid.length]
  have exact := @toInt32_of_lt chunk.data.length (Int.natCast_nonneg _) (by omega)
  have sized : start.chunkSize (data.drop 0) = start.withSize chunk.data.length := by
    rw [chunkSize, List.drop_zero, value, exact, withSize]
    simp
  exact ⟨_, size.append (Scanner.walks_byte (mem_ends ends moves_line.1 moves_line.2.1) rfl _)
    (congrArg some sized)⟩

theorem foldl_withExtension (extensions : List ChunkExtension) (parser : HttpResponseParser) :
    extensions.foldl withExtension parser =
      { parser with
        data := { parser.data with
          headers := extensions.foldl (fun headers extension =>
            headers.set extension.name (extension.value.getD [])) parser.data.headers } } := by
  induction extensions generalizing parser with
  | nil => rfl
  | cons extension extensions induction =>
      rw [List.foldl_cons, induction]
      rfl

/-- The line without its line feed. -/
theorem consumed_line (valid : chunk.Valid) (split : data = chunk.line ++ behind)
    (start : HttpResponseParser) :
    ∃ marks, (chunkRun data start).Consumed
      (chunk.size ++ Chunk.extensionBytes chunk.extensions ++ [13]) 3 marks
      (chunk.extensions.foldl withExtension (start.withSize chunk.data.length)) := by
  rw [Chunk.line] at split
  cases listed : chunk.extensions with
  | nil =>
      have whole : data = chunk.size ++ 13 :: (10 :: behind) := by
        rw [split, listed, Chunk.extensionBytes, List.flatMap_nil]
        simp only [List.append_assoc, List.cons_append, List.nil_append]
      rw [Chunk.extensionBytes, List.flatMap_nil, List.append_nil]
      exact consumed_size valid (by decide) whole start
  | cons extension extensions =>
      have pieces : chunk.size ++ Chunk.extensionBytes (extension :: extensions) =
          chunk.size ++ [59] ++ extension.bytes ++ Chunk.extensionBytes extensions := by
        simp only [Chunk.extensionBytes, List.flatMap_cons, List.append_assoc]
      have whole : data = chunk.size ++ [59] ++ extension.bytes ++
          Chunk.extensionBytes extensions ++ 13 :: (10 :: behind) := by
        rw [split, listed, pieces]
        simp only [List.append_assoc, List.cons_append, List.nil_append]
      have first : data = chunk.size ++ 59 ::
          (extension.bytes ++ Chunk.extensionBytes extensions ++ 13 :: (10 :: behind)) := by
        rw [whole]
        simp only [List.append_assoc, List.cons_append, List.nil_append]
      have all := valid.extensions
      rw [listed] at all
      rcases consumed_size valid (by decide) first start with ⟨_, sized⟩
      rw [pieces]
      exact consumed_extensions (all extension List.mem_cons_self)
        (fun other member => all other (List.mem_cons_of_mem _ member)) sized whole

/-- The parser behind a chunk-size line. -/
def withChunk (parser : HttpResponseParser) (chunk : Chunk) : HttpResponseParser :=
  { parser with
    cs := responseFirstFinal, contentLen := chunk.data.length, chunked := true
    chunksDone := chunk.data.length = 0
    data := { parser.data with headers := chunk.extend parser.data.headers } }

theorem execute_line (valid : chunk.Valid) (split : data = chunk.line ++ behind)
    (parser : HttpResponseParser) :
    parser.execute data true = (parser.withChunk chunk, (chunk.line.length : Int)) := by
  rcases consumed_line valid split parser.init with ⟨_, line⟩
  rcases line.stop moves_line.2.2.2.2.2.2.2 rfl rfl behind with ⟨events, scanned, performed, -⟩
  have whole : chunk.size ++ Chunk.extensionBytes chunk.extensions ++ [13] ++ 10 :: behind =
      data := by
    rw [split, Chunk.line]
    simp only [List.append_assoc, List.cons_append, List.nil_append]
  rw [whole] at scanned
  have folded : (occurrences ResponseAction.effect HttpResponseParser.marks events).foldl
      (perform data) parser.init =
        chunk.extensions.foldl withExtension (parser.init.withSize chunk.data.length) :=
    Option.some.inj ((foldlM_perform data _ _).symm.trans performed)
  have nonempty : data.isEmpty = false := by
    rw [← whole]
    simp
  have scan : parser.init.scan data =
      ⟨120, (chunk.size ++ Chunk.extensionBytes chunk.extensions ++ [13]).length + 1, events,
        false⟩ := scanned
  have length : chunk.line.length =
      (chunk.size ++ Chunk.extensionBytes chunk.extensions ++ [13]).length + 1 :=
    List.length_append
  rw [execute, if_pos rfl, run, scan]
  simp only [folded, nonempty, Bool.false_eq_true, if_false, foldl_withExtension]
  rw [length]
  rfl

end

end HttpResponseParser

end Http

end FiberNet
