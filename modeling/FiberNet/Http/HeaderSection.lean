import FiberNet.Http.ResponsePieces

/-! # Header sections of responses

What the automaton makes of a status line and any header lines. It watches some names and
values, so the lines are read in states of several kinds; the kinds are enough here.
-/

namespace FiberNet

namespace Http

/-- A header line. The blanks are not part of the value. -/
structure HeaderField where
  name : List UInt8
  blanks : List UInt8
  value : List UInt8
  deriving DecidableEq

namespace HeaderField

def line (field : HeaderField) : List UInt8 :=
  field.name ++ [58] ++ field.blanks ++ field.value ++ [13] ++ [10]

/-- A blank and a tab. -/
def blankByte : List (Nat × Nat) := [(9, 9), (32, 32)]

def textByte : List (Nat × Nat) := [(9, 9), (32, 126), (128, 255)]

structure Valid (field : HeaderField) : Prop where
  named : field.name ≠ []
  letters : ∀ byte ∈ field.name, within token byte = true
  blank : ∀ byte ∈ field.blanks, within blankByte byte = true
  visible : ∀ byte ∈ field.value, within textByte byte = true
  leading : ∀ byte ∈ field.value.head?, within blankByte byte = false

instance (field : HeaderField) : Decidable field.Valid :=
  decidable_of_iff
    (field.name ≠ [] ∧ field.name.all (within token) = true ∧
      field.blanks.all (within blankByte) = true ∧ field.value.all (within textByte) = true ∧
      field.value.head?.all (fun byte => !within blankByte byte) = true)
    ⟨fun all => ⟨all.1, List.all_eq_true.mp all.2.1, List.all_eq_true.mp all.2.2.1,
        List.all_eq_true.mp all.2.2.2.1, by simpa [Option.all_eq_true] using all.2.2.2.2⟩,
      fun valid => ⟨valid.named, List.all_eq_true.mpr valid.letters,
        List.all_eq_true.mpr valid.blank, List.all_eq_true.mpr valid.visible,
        by simpa [Option.all_eq_true] using valid.leading⟩⟩

end HeaderField

namespace HttpResponseParser

/-! ## Kinds of states -/

/-- At the beginning of a header line. -/
def freshLines : List Nat := [20, 43, 62, 36, 113]

/-- Inside a name. -/
def insideName : List Nat :=
  [21, 117] ++ List.range' 25 10 ++ List.range' 44 17 ++ List.range' 73 7 ++ List.range' 90 5 ++
    List.range' 101 11

/-- Between the colon and the value. -/
def behindColon : List Nat := [22, 35, 61, 112]

def insideValue : List Nat := [23, 119] ++ List.range' 81 7 ++ List.range' 96 5

/-- Between the two bytes that end a line. -/
def insideEnd : List Nat := [24, 71, 88, 80, 95, 118]

/-- An edge, or a move, into one of the states with one of the lists of actions. -/
def into (states : List Nat) (actions : List (List ResponseAction))
    (move : List ResponseAction × Nat) : Bool :=
  states.elem move.2 && actions.elem move.1

theorem kinds_name :
    (∀ state ∈ freshLines, responseScanner.takes state token
      (fun edge => into insideName beginnings (edge.actions, edge.target)) = true) ∧
    ∀ state ∈ insideName, responseScanner.takes state token
      (fun edge => into insideName [[]] (edge.actions, edge.target)) = true := by
  decide

theorem kinds_value :
    (∀ state ∈ behindColon, responseScanner.takes state [(33, 126), (128, 255)]
      (fun edge => into insideValue [[.startValue]] (edge.actions, edge.target)) = true) ∧
    ∀ state ∈ insideValue, responseScanner.takes state HeaderField.textByte
      (fun edge => into insideValue [[]] (edge.actions, edge.target)) = true := by
  decide

theorem kinds_byte :
    (∀ state ∈ insideName,
      (responseScanner.move state 58).any (into behindColon [[.writeField]]) = true) ∧
    (∀ state ∈ behindColon,
      responseScanner.move state 9 = some ([.startValue], state) ∧
      responseScanner.move state 32 = some ([.startValue], state) ∧
      (responseScanner.move state 13).any
        (into insideEnd [[.startValue, .writeValue]]) = true) ∧
    (∀ state ∈ insideValue, (responseScanner.move state 13).any
      (into insideEnd [[.writeValue], [.writeContentLen, .writeValue]]) = true) ∧
    ∀ state ∈ insideEnd, (responseScanner.move state 10).any
      (into freshLines [[], [.transChunked]]) = true := by
  decide

theorem of_into {states : List Nat} {actions : List (List ResponseAction)} {state : Nat}
    {byte : UInt8} (moves : (responseScanner.move state byte).any (into states actions) = true) :
    ∃ target ∈ states, ∃ performed ∈ actions,
      responseScanner.move state byte = some (performed, target) := by
  rcases (Option.any_eq_true _ _).mp moves with ⟨⟨performed, target⟩, taken, kind⟩
  rw [into, Bool.and_eq_true] at kind
  exact ⟨target, List.elem_iff.mp kind.1, performed, List.elem_iff.mp kind.2, taken⟩

theorem move_into {states : List Nat} {actions : List (List ResponseAction)} {state : Nat}
    {ranges : List (Nat × Nat)} {byte : UInt8}
    (takes : responseScanner.takes state ranges
      (fun edge => into states actions (edge.actions, edge.target)) = true)
    (member : within ranges byte = true) :
    ∃ target ∈ states, ∃ performed ∈ actions,
      responseScanner.move state byte = some (performed, target) := by
  rcases Scanner.edge_of_takes takes member with ⟨edge, taken, kind, _⟩
  apply of_into
  rw [Scanner.move_of_edge taken]
  exact kind

/-- A walk inside a kind of states. -/
theorem walks_inside {states : List Nat} {ranges : List (Nat × Nat)} {bytes : List UInt8}
    (takes : ∀ state ∈ states, responseScanner.takes state ranges
      (fun edge => into states [[]] (edge.actions, edge.target)) = true)
    (all : ∀ byte ∈ bytes, within ranges byte = true) {state : Nat} (member : state ∈ states)
    (position : Nat) :
    ∃ target ∈ states, responseScanner.Walks state position bytes target [] := by
  induction bytes generalizing state position with
  | nil => exact ⟨state, member, Scanner.walks_nil state position⟩
  | cons byte bytes induction =>
      rcases move_into (takes state member) (all byte List.mem_cons_self) with
        ⟨next, listed, actions, silent, taken⟩
      rw [List.mem_singleton.mp silent] at taken
      rcases induction (fun byte later => all byte (List.mem_cons_of_mem _ later)) listed
        (position + 1) with ⟨target, reached, walks⟩
      exact ⟨target, reached, (Scanner.walks_byte taken rfl position).append walks⟩

/-! ## Lines -/

/-- The two keywords of the announcement of chunks lead to states of their own. -/
theorem moves_announcing :
    (∀ state ∈ freshLines, ∀ code ∈ cases 116,
      (responseScanner.move state (UInt8.ofNat code)).map (·.2) = some 44) ∧
    responseScanner.move 60 58 = some ([.writeField], 61) ∧
    responseScanner.move 87 13 = some ([.writeValue], 71) ∧
    responseScanner.move 71 10 = some ([.transChunked], 20) := by
  decide

/-- A name that begins with its first letter, and where the walk over it ends. -/
theorem walks_anyName {state : Nat} (begins : state ∈ freshLines) {name : List UInt8}
    (named : name ≠ []) (letters : ∀ byte ∈ name, within token byte = true) (position : Nat) :
    ∃ actions ∈ beginnings, ∃ target ∈ insideName,
      responseScanner.Walks state position name target
        (actions.map fun action => (position, action)) ∧
      (name.map toLower = encodingName → target = 60) := by
  cases name with
  | nil => exact absurd rfl named
  | cons first rest =>
      rcases move_into (kinds_name.1 state begins) (letters first List.mem_cons_self) with
        ⟨next, reached, actions, listed, taken⟩
      have head := Scanner.walks_byte taken (beginnings_onward actions listed) position
      rcases walks_inside kinds_name.2
        (fun byte inside => letters byte (List.mem_cons_of_mem _ inside)) reached
        (position + 1) with ⟨target, ended, walks⟩
      have whole := head.append walks
      rw [List.append_nil] at whole
      refine ⟨actions, listed, target, ended, whole, ?_⟩
      intro word
      rw [List.map_cons, encodingName_codes] at word
      rcases List.cons.inj word with ⟨letter, others⟩
      have opens := moves_announcing.1 state begins _ (letter ▸ mem_cases first)
      rw [UInt8.ofNat_toNat, taken] at opens
      have opened : next = 44 := Option.some.inj opens
      subst opened
      have chain : Chain 44 (rest.map toLower) := others ▸ chain_encoding
      have length : rest.length = 16 := by
        rw [← List.length_map toLower, others]
        rfl
      have ends := walks_unique walks (chain.walks (position + 1))
      rw [ends, length]

section

variable {data before behind name value : List UInt8} {state : Nat} {marks : Marks}
  {parser : HttpResponseParser}

/-- The name and the colon. -/
theorem consumed_fieldName (named : name ≠ [])
    (letters : ∀ byte ∈ name, within token byte = true) (begins : state ∈ freshLines)
    (consumed : (responseRun data).Consumed before state marks parser) :
    ∃ target ∈ behindColon, ∃ marks,
      (responseRun data).Consumed (before ++ name ++ [58]) target marks parser ∧
        marks.fieldStart = before.length ∧ marks.fieldLen = name.length ∧
        (name.map toLower = encodingName → target = 61) := by
  rcases walks_anyName begins named letters before.length with
    ⟨actions, listed, target, reached, walks, encoding⟩
  have first : ∃ marks, (responseRun data).Consumed (before ++ name) target marks parser ∧
      marks.fieldStart = before.length := by
    simp only [beginnings, List.mem_cons, List.not_mem_nil, or_false] at listed
    rcases listed with same | same | same
    · subst same
      exact ⟨_, consumed.append walks rfl, rfl⟩
    · subst same
      exact ⟨_, consumed.append walks rfl, rfl⟩
    · subst same
      exact ⟨_, consumed.append walks rfl, rfl⟩
  rcases first with ⟨_, first, start⟩
  rcases of_into (kinds_byte.1 target reached) with ⟨colon, listed, performed, write, taken⟩
  rw [List.mem_singleton.mp write] at taken
  refine ⟨colon, listed, _, first.append (Scanner.walks_byte taken rfl _) rfl, start, ?_, ?_⟩
  · show (before ++ name).length - _ = name.length
    rw [start, List.length_append, Nat.add_sub_cancel_left]
  · intro word
    rw [encoding word, moves_announcing.2.1] at taken
    cases taken
    rfl

/-- Blanks only move the mark of the value. -/
theorem consumed_blanks (listed : state ∈ behindColon) {blanks : List UInt8}
    (blank : ∀ byte ∈ blanks, within HeaderField.blankByte byte = true)
    (consumed : (responseRun data).Consumed before state marks parser) :
    ∃ later, (responseRun data).Consumed (before ++ blanks) state later parser ∧
      later.fieldStart = marks.fieldStart ∧ later.fieldLen = marks.fieldLen := by
  induction blanks generalizing before marks with
  | nil =>
      rw [List.append_nil]
      exact ⟨marks, consumed, rfl, rfl⟩
  | cons byte blanks induction =>
      rcases kinds_byte.2.1 state listed with ⟨tab, space, _⟩
      have taken : responseScanner.move state byte = some ([.startValue], state) := by
        have either := blank byte List.mem_cons_self
        simp only [within, HeaderField.blankByte, List.any_cons, List.any_nil, Bool.or_false,
          Bool.or_eq_true, Bool.and_eq_true, decide_eq_true_eq] at either
        rcases either with same | same
        · rw [← @UInt8.ofNat_toNat byte, Nat.le_antisymm same.2 same.1]
          exact tab
        · rw [← @UInt8.ofNat_toNat byte, Nat.le_antisymm same.2 same.1]
          exact space
      have one := consumed.append (Scanner.walks_byte taken rfl before.length) rfl
      rcases induction (fun byte inside => blank byte (List.mem_cons_of_mem _ inside)) one with
        ⟨later, rest, start, length⟩
      rw [List.append_cons]
      exact ⟨later, rest, start, length⟩

/-- What a header line does, but for the announced length. -/
structure Sets (parser next : HttpResponseParser) (name value : List UInt8) : Prop where
  headers : next.data.headers = parser.data.headers.set name value
  error : next.error = parser.error
  chunked : parser.chunked = true → next.chunked = true

theorem sets_writeValue {last : Marks} {position : Nat} (named : name ≠ [])
    (field : slice data last.fieldStart (last.fieldStart + last.fieldLen) = name)
    (text : slice data last.mark position = value) :
    Sets parser (perform data parser ⟨.writeValue, position, last⟩) name value := by
  rw [perform]
  simp only [field, text]
  rw [onResponseHttpField, List.isEmpty_eq_false_iff.mpr named, if_neg Bool.false_ne_true]
  exact ⟨rfl, rfl, id⟩

/-- The value, with the first byte of the line end. -/
theorem consumed_fieldValue (listed : state ∈ behindColon) (named : name ≠ [])
    (visible : ∀ byte ∈ value, within HeaderField.textByte byte = true)
    (leading : ∀ byte ∈ value.head?, within HeaderField.blankByte byte = false)
    (consumed : (responseRun data).Consumed before state marks parser)
    (field : slice data marks.fieldStart (marks.fieldStart + marks.fieldLen) = name)
    (split : data = before ++ value ++ behind) :
    ∃ target ∈ insideEnd, ∃ marks next,
      (responseRun data).Consumed (before ++ value ++ [13]) target marks next ∧
        Sets parser next name value ∧
        (state = 61 → value.map toLower = chunkedWord → target = 71) := by
  have text := slice_piece split
  cases value with
  | nil =>
      rcases of_into (kinds_byte.2.1 state listed).2.2 with
        ⟨target, ended, performed, write, taken⟩
      rw [List.mem_singleton.mp write] at taken
      rw [List.append_nil] at text ⊢
      refine ⟨target, ended, _, _, consumed.append (Scanner.walks_byte taken rfl _) rfl,
        sets_writeValue named field text, ?_⟩
      intro _ word
      exact absurd word (by decide)
  | cons first rest =>
      have plain : within [(33, 126), (128, 255)] first = true := by
        have shown := visible first List.mem_cons_self
        have open_ := leading first rfl
        simp [within, HeaderField.textByte, HeaderField.blankByte] at shown open_ ⊢
        omega
      rcases move_into (kinds_value.1 state listed) plain with
        ⟨next, reached, performed, start, taken⟩
      rw [List.mem_singleton.mp start] at taken
      rcases walks_inside kinds_value.2
        (fun byte inside => visible byte (List.mem_cons_of_mem _ inside)) reached
        (before.length + 1) with ⟨last, ends, walks⟩
      have read := consumed.append ((Scanner.walks_byte taken rfl _).append walks) rfl
      rcases of_into (kinds_byte.2.2.1 last ends) with ⟨target, ended, actions, write, returns⟩
      have word : state = 61 → (first :: rest).map toLower = chunkedWord → target = 71 := by
        intro field word
        subst field
        rw [List.map_cons, chunkedWord_codes] at word
        rcases List.cons.inj word with ⟨letter, others⟩
        have opens := begins_chunked _ (letter ▸ mem_cases first)
        rw [UInt8.ofNat_toNat, taken] at opens
        have opened : next = 81 := Option.some.inj opens
        subst opened
        have chain : Chain 81 (rest.map toLower) := others ▸ chain_chunked
        have length : rest.length = 6 := by
          rw [← List.length_map toLower, others]
          rfl
        have same := walks_unique walks (chain.walks (before.length + 1))
        rw [length] at same
        rw [same, moves_announcing.2.2.1] at returns
        cases returns
        rfl
      simp only [List.mem_cons, List.not_mem_nil, or_false] at write
      rcases write with same | same
      · subst same
        exact ⟨target, ended, _, _, read.append (Scanner.walks_byte returns rfl _) rfl,
          sets_writeValue named field text, word⟩
      · subst same
        have ends := read.append (Scanner.walks_byte returns rfl _) rfl
        refine ⟨target, ended, _, _, ends, ?_, word⟩
        let measured := perform data parser
          ⟨.writeContentLen, (before ++ first :: rest).length, marks.after before.length .mark⟩
        have sets := @sets_writeValue data name (first :: rest) measured
          (marks.after before.length .mark) (before ++ first :: rest).length named field text
        exact ⟨sets.headers, sets.error, sets.chunked⟩

/-- A header line sets its header and leads to the next line. -/
theorem consumed_field {field : HeaderField} (valid : field.Valid) (begins : state ∈ freshLines)
    (consumed : (responseRun data).Consumed before state marks parser)
    (split : data = before ++ field.line ++ behind) :
    ∃ target ∈ freshLines, ∃ marks next,
      (responseRun data).Consumed (before ++ field.line) target marks next ∧
        Sets parser next field.name field.value ∧
        (announces field.name field.value = true → next.chunked = true) := by
  rcases consumed_fieldName valid.named valid.letters begins consumed with
    ⟨colon, listed, _, named, start, length, encoding⟩
  rcases consumed_blanks listed valid.blank named with ⟨_, spaced, start', length'⟩
  have pieces : before ++ field.line =
      before ++ field.name ++ [58] ++ field.blanks ++ field.value ++ [13] ++ [10] := by
    simp only [HeaderField.line, List.append_assoc]
  rw [pieces] at split ⊢
  have name : slice data before.length (before.length + field.name.length) = field.name := by
    rw [← List.length_append]
    apply @slice_piece _ _ _ ([58] ++ field.blanks ++ field.value ++ [13] ++ [10] ++ behind)
    rw [split]
    simp only [List.append_assoc]
  have whole : data = before ++ field.name ++ [58] ++ field.blanks ++ field.value ++
      ([13] ++ [10] ++ behind) := by
    rw [split]
    simp only [List.append_assoc]
  rcases consumed_fieldValue listed valid.named valid.visible valid.leading spaced
    (by rw [start', length', start, length]; exact name) whole with
    ⟨middle, ended, _, next, valued, sets, word⟩
  rcases of_into (kinds_byte.2.2.2 middle ended) with ⟨target, reached, performed, last, taken⟩
  simp only [List.mem_cons, List.not_mem_nil, or_false] at last
  rcases last with same | same
  · subst same
    refine ⟨target, reached, _, next, valued.append (Scanner.walks_byte taken rfl _) rfl, sets, ?_⟩
    intro announced
    rw [announces, Bool.and_eq_true, decide_eq_true_eq, decide_eq_true_eq] at announced
    rw [word (encoding announced.1) announced.2, moves_announcing.2.2.2] at taken
    cases taken
  · subst same
    refine ⟨target, reached, _, _, valued.append (Scanner.walks_byte taken rfl _) rfl, ?_,
      fun _ => rfl⟩
    exact ⟨sets.headers, sets.error, fun _ => rfl⟩

/-- The header lines one by one. -/
theorem consumed_fields {fields : List HeaderField} (valid : ∀ field ∈ fields, field.Valid)
    (begins : state ∈ freshLines)
    (consumed : (responseRun data).Consumed before state marks parser)
    (split : data = before ++ fields.flatMap HeaderField.line ++ behind) :
    ∃ target ∈ freshLines, ∃ marks next,
      (responseRun data).Consumed (before ++ fields.flatMap HeaderField.line) target marks next ∧
        next.data.headers = fields.foldl (fun headers field => headers.set field.name field.value)
          parser.data.headers ∧
        next.error = parser.error ∧
        (parser.chunked = true ∨ (∃ field ∈ fields, announces field.name field.value = true) →
          next.chunked = true) := by
  induction fields generalizing before state marks parser with
  | nil =>
      rw [List.flatMap_nil, List.append_nil]
      refine ⟨state, begins, marks, parser, consumed, rfl, rfl, ?_⟩
      rintro (chunked | ⟨field, member, _⟩)
      · exact chunked
      · cases member
  | cons field fields induction =>
      rw [List.flatMap_cons, ← List.append_assoc] at split ⊢
      have whole : data = before ++ field.line ++ (fields.flatMap HeaderField.line ++ behind) := by
        rw [split, List.append_assoc]
      rcases consumed_field (valid field List.mem_cons_self) begins consumed whole with
        ⟨middle, reached, _, next, line, sets, announced⟩
      rcases induction (fun field inside => valid field (List.mem_cons_of_mem _ inside)) reached
        line split with ⟨target, ended, last, final, lines, headers, error, chunked⟩
      refine ⟨target, ended, last, final, lines, ?_, error.trans sets.error, ?_⟩
      · rw [headers, sets.headers, List.foldl_cons]
      · rintro (early | ⟨other, member, announces⟩)
        · exact chunked (.inl (sets.chunked early))
        · rcases List.mem_cons.mp member with same | later
          · exact chunked (.inl (announced (same ▸ announces)))
          · exact chunked (.inr ⟨other, later, announces⟩)

end

end HttpResponseParser

/-! ## Sections -/

structure HeaderSection where
  version : List UInt8
  status : List UInt8
  reason : List UInt8
  fields : List HeaderField
  deriving DecidableEq

namespace HeaderSection

def statusLine (head : HeaderSection) : List UInt8 :=
  head.version ++ [32] ++ head.status ++ [32] ++ head.reason ++ [13] ++ [10]

def bytes (head : HeaderSection) : List UInt8 :=
  head.statusLine ++ head.fields.flatMap HeaderField.line ++ [13] ++ [10]

def headers (head : HeaderSection) : MapType :=
  head.fields.foldl (fun headers field => headers.set field.name field.value) ∅

/-- The header section announces chunks. -/
def Chunked (head : HeaderSection) : Prop :=
  ∃ field ∈ head.fields, HttpResponseParser.announces field.name field.value = true

structure Valid (head : HeaderSection) : Prop where
  version : head.version ∈ [text "HTTP/1.0", text "HTTP/1.1"]
  numbered : head.status ≠ []
  status : ∀ byte ∈ head.status, within digit byte = true
  reason : 10 ∉ head.reason ∧ 13 ∉ head.reason
  fields : ∀ field ∈ head.fields, field.Valid

instance (head : HeaderSection) : Decidable head.Chunked :=
  inferInstanceAs (Decidable (∃ field ∈ head.fields, _))

instance (head : HeaderSection) : Decidable head.Valid :=
  decidable_of_iff
    (head.version ∈ [text "HTTP/1.0", text "HTTP/1.1"] ∧ head.status ≠ [] ∧
      head.status.all (within digit) = true ∧
      (10 ∉ head.reason ∧ 13 ∉ head.reason) ∧ ∀ field ∈ head.fields, field.Valid)
    ⟨fun all => ⟨all.1, all.2.1, List.all_eq_true.mp all.2.2.1, all.2.2.2.1, all.2.2.2.2⟩,
      fun valid => ⟨valid.version, valid.numbered, List.all_eq_true.mpr valid.status,
        valid.reason, valid.fields⟩⟩

open HttpResponseParser

theorem walks_knownVersion : ∀ version ∈ [text "HTTP/1.0", text "HTTP/1.1"],
    responseScanner.Walks 1 0 (version ++ [32]) 16 [(0, .mark), (8, .httpVersion)] ∧
      version.length = 8 ∧
      (({} : HttpResponseParser).onResponseVersion version).error = .ok ∧
      (({} : HttpResponseParser).onResponseVersion version).data.headers = ∅ := by
  decide

/-- An empty reason leaves its state to the line end. -/
theorem moves_reason :
    responseScanner.move 17 32 = some ([.statusCode], 18) ∧
    responseScanner.move 18 13 = some ([.mark], 19) ∧
    responseScanner.move 19 10 = some ([.reasonPhrase], 20) ∧
    responseScanner.move 19 13 = some ([.reasonPhrase], 24) ∧
    responseScanner.move 24 10 = some ([], 20) := by
  decide

/-- What ends a section, and whether the connection is closed. -/
theorem moves_last : ∀ state ∈ freshLines,
    ∃ middle ∈ [3, 72, 89, 116], ∃ actions ∈ [[], [ResponseAction.connectionClose]],
      ∃ target ∈ [120, 121, 122, 123],
        responseScanner.move state 13 = some (actions, middle) ∧
          responseScanner.move middle 10 = some ([.done], target) := by
  decide

section

variable {head : HeaderSection} {data behind : List UInt8}

/-- The status line up to the reason. -/
theorem consumed_lead (valid : head.Valid)
    (split : data = head.version ++ [32] ++ head.status ++ [32] ++ behind) :
    ∃ marks parser, (responseRun data).Consumed
        (head.version ++ [32] ++ head.status ++ [32]) 18 marks parser ∧
      parser.data.headers = ∅ ∧ parser.error = .ok := by
  rcases walks_knownVersion head.version valid.version with ⟨walks, length, error, headers⟩
  have text : slice data 0 8 = head.version := by
    have piece := @slice_piece data [] head.version
      ([32] ++ head.status ++ [32] ++ behind) (by rw [split]; simp)
    rw [List.nil_append, length] at piece
    exact piece
  have version := (Execution.consumed_nil (responseRun data)).append walks
    (congrArg (fun value => some (({} : HttpResponseParser).onResponseVersion value)) text)
  rw [List.nil_append] at version
  have digits : responseScanner.Walks 16 (head.version ++ [32]).length head.status 17
      [((head.version ++ [32]).length, .mark)] := by
    cases number : head.status with
    | nil => exact absurd number valid.numbered
    | cons first rest =>
        have all := valid.status
        rw [number] at all
        have start := Scanner.move_of_leads
          (fun range listed => (leads_digit range listed).2.2.2.2.1) (all first List.mem_cons_self)
        exact (Scanner.walks_byte start rfl _).append (Scanner.walks_loop
          (fun byte member => Scanner.move_of_leads
            (fun range listed => (leads_digit range listed).2.2.2.2.2)
            (all byte (List.mem_cons_of_mem _ member))) _)
  have status := (version.append digits rfl).append
    (Scanner.walks_byte moves_reason.1 rfl _) rfl
  exact ⟨_, _, status, headers, error⟩

theorem consumed_statusLine (valid : head.Valid) (split : data = head.statusLine ++ behind) :
    ∃ marks parser, (responseRun data).Consumed head.statusLine 20 marks parser ∧
      parser.data.headers = ∅ ∧ parser.error = .ok := by
  have whole : data = head.version ++ [32] ++ head.status ++ [32] ++
      (head.reason ++ [13] ++ [10] ++ behind) := by
    rw [split, statusLine]
    simp only [List.append_assoc]
  rcases consumed_lead valid whole with ⟨_, parser, lead, headers, error⟩
  rw [statusLine]
  cases written : head.reason with
  | nil =>
      have returns := lead.append (Scanner.walks_byte moves_reason.2.1 rfl _) rfl
      have ends := returns.append (Scanner.walks_byte moves_reason.2.2.1 rfl _) rfl
      rw [List.append_nil]
      exact ⟨_, _, ends, headers, error⟩
  | cons first rest =>
      have plain : PlainReason (first :: rest) := by
        rw [← written]
        exact ⟨valid.reason.1, fun member => valid.reason.2 (List.mem_of_mem_tail member)⟩
      have reason := lead.append (walks_reason (List.cons_ne_nil _ _) plain _) rfl
      have returns := reason.append (Scanner.walks_byte moves_reason.2.2.2.1 rfl _) rfl
      have ends := returns.append (Scanner.walks_byte moves_reason.2.2.2.2 rfl _) rfl
      exact ⟨_, _, ends, headers, error⟩

/-- What one buffer that begins with the section makes of it, with the state it ends in. -/
structure Parsed (head : HeaderSection) (data : List UInt8) (state : Nat)
    (events : List (Nat × ResponseAction)) (parser : HttpResponseParser) : Prop where
  scan : responseScanner.scan responseStart 0 data = ⟨state, head.bytes.length, events, false⟩
  performed : (occurrences ResponseAction.effect HttpResponseParser.marks events).foldl
    (perform data) {} = parser
  accepted : state ≠ responseError
  headers : parser.data.headers = head.headers
  error : parser.error = .ok
  chunked : head.Chunked → parser.chunked = true

/-- The scan of a section ends with it. -/
theorem parsed (valid : head.Valid) (split : data = head.bytes ++ behind) :
    ∃ state events parser, head.Parsed data state events parser := by
  have lines : data = head.statusLine ++
      (head.fields.flatMap HeaderField.line ++ [13] ++ [10] ++ behind) := by
    rw [split, bytes]
    simp only [List.append_assoc]
  rcases consumed_statusLine valid lines with ⟨_, first, status, headers, error⟩
  rw [← List.append_assoc, ← List.append_assoc, ← List.append_assoc] at lines
  have rest : data = head.statusLine ++ head.fields.flatMap HeaderField.line ++
      ([13] ++ [10] ++ behind) := by
    rw [lines]
    simp only [List.append_assoc]
  rcases consumed_fields valid.fields (by decide) status rest with
    ⟨state, reached, _, parser, fields, set, same, chunked⟩
  rcases moves_last state reached with
    ⟨middle, _, actions, listed, target, final, returns, ends⟩
  have ended : ∃ marks, (responseRun data).Consumed
      (head.statusLine ++ head.fields.flatMap HeaderField.line ++ [13]) middle marks parser := by
    rcases List.mem_pair.mp listed with same | same
    · subst same
      exact ⟨_, fields.append (Scanner.walks_byte returns rfl _) rfl⟩
    · subst same
      exact ⟨_, fields.append (Scanner.walks_byte returns rfl _) rfl⟩
  rcases ended with ⟨_, ended⟩
  rcases ended.stop ends rfl rfl behind with ⟨events, scanned, performed, -⟩
  have whole : head.statusLine ++ head.fields.flatMap HeaderField.line ++ [13] ++ 10 :: behind =
      data := by
    rw [rest]
    simp only [List.append_assoc]
    rfl
  have length : head.bytes.length =
      (head.statusLine ++ head.fields.flatMap HeaderField.line ++ [13]).length + 1 :=
    List.length_append
  rw [whole, ← length] at scanned
  refine ⟨target, events, parser, scanned, ?_, ?_, ?_, same.trans error, fun announced =>
    chunked (.inr announced)⟩
  · exact Option.some.inj ((foldlM_perform data _ _).symm.trans performed)
  · have positive : ∀ target ∈ [120, 121, 122, 123], target ≠ responseError := by decide
    exact positive target final
  · rw [set, headers, HeaderSection.headers]

end

end HeaderSection

end Http

end FiberNet
