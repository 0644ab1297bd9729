import FiberNet.Http.Numerals
import FiberNet.Http.RequestPieces

/-! # The pieces of a printed response

`HttpResponse::dump` writes a status line and header lines. The automaton that reads them
watches each name for the three headers that it knows, and the value of one of them for
the word that announces chunks.
-/

namespace FiberNet

namespace Http

/-! ## Keywords -/

/-- The name of the header that announces chunks, without case. -/
def encodingName : List Nat := folded (text "transfer-encoding")

/-- Its value. -/
def chunkedWord : List Nat := folded (text "chunked")

theorem encodingName_codes : encodingName =
    [116, 114, 97, 110, 115, 102, 101, 114, 45, 101, 110, 99, 111, 100, 105, 110, 103] := by
  decide

theorem chunkedWord_codes : chunkedWord = [99, 104, 117, 110, 107, 101, 100] := by
  decide

/-- What has been read, without case, in a state that watches for a keyword. -/
def spelled (state : Nat) : Option (List Nat) :=
  if 25 ≤ state && state ≤ 34 then
    some ([99, 111, 110, 110, 101, 99, 116, 105, 111, 110].take (state - 24))
  else if 44 ≤ state && state ≤ 60 then
    some ([116, 114, 97, 110, 115, 102, 101, 114, 45, 101, 110, 99, 111, 100, 105, 110, 103].take
      (state - 43))
  else if 73 ≤ state && state ≤ 79 then
    some ([99, 104, 117, 110, 107, 101, 100].take (state - 72))
  else if 81 ≤ state && state ≤ 87 then
    some ([99, 104, 117, 110, 107, 101, 100].take (state - 80))
  else if 101 ≤ state && state ≤ 111 then
    some ([99, 111, 110, 116, 101, 110, 116, 45, 108, 101, 110, 103, 116, 104].take (state - 97))
  else none

/-- The states inside a name. No keyword is left in the first. -/
def nameStates : List Nat :=
  21 :: (List.range' 25 10 ++ List.range' 44 17 ++ List.range' 73 7 ++ List.range' 101 11)

/-- The states inside a value. -/
def valueStates : List Nat := 23 :: List.range' 81 7

/-- The bytes of a value. -/
def visibleByte : List (Nat × Nat) := [(32, 126), (128, 255)]

/-- The letters before a state, if the state has not given up. -/
def Spells (other state : Nat) (word : List Nat) : Prop :=
  state = other ∨ spelled state = some word

/-- The edge leads to a state that has given up, or that spells the byte behind those
before. -/
def spellsEdge (states : List Nat) (other : Nat) (before : Option (List Nat))
    (edge : Edge ResponseAction) : Bool :=
  states.elem edge.target && (edge.target == other ||
    (before.isSome && edge.bytes.all fun range => range.1 == range.2 &&
      spelled edge.target == before.map (· ++ [toLower (UInt8.ofNat range.1)])))

/-- Inside a name or a value nothing is performed. -/
def silentEdge (states : List Nat) (other state : Nat) (edge : Edge ResponseAction) : Bool :=
  edge.actions.isEmpty && spellsEdge states other (spelled state) edge

theorem takes_name : ∀ state ∈ nameStates,
    responseScanner.takes state token (silentEdge nameStates 21 state) = true := by
  decide

theorem takes_value : ∀ state ∈ valueStates,
    responseScanner.takes state visibleByte (silentEdge valueStates 23 state) = true := by
  decide

section

variable {states : List Nat} {other : Nat} {state : Nat} {bytes : List UInt8} {word : List Nat}
  {ranges : List (Nat × Nat)} {byte : UInt8}

theorem spells_of_edge {before : Option (List Nat)} {edge : Edge ResponseAction}
    (spells : spellsEdge states other before edge = true)
    (accepted : edge.accepts false byte = true) :
    edge.target ∈ states ∧ (edge.target = other ∨
      ∃ word, before = some word ∧ spelled edge.target = some (word ++ [toLower byte])) := by
  rw [spellsEdge, Bool.and_eq_true, Bool.or_eq_true, Bool.and_eq_true] at spells
  refine ⟨List.elem_iff.mp spells.1, ?_⟩
  rcases spells.2 with gave | ⟨watching, letters⟩
  · exact .inl (beq_iff_eq.mp gave)
  · right
    rcases Option.isSome_iff_exists.mp watching with ⟨word, known⟩
    refine ⟨word, known, ?_⟩
    rw [Edge.accepts, Bool.and_eq_true] at accepted
    rcases List.any_eq_true.mp accepted.2 with ⟨range, listed, bounds⟩
    have letter := List.all_eq_true.mp letters range listed
    simp only [Bool.and_eq_true, beq_iff_eq, decide_eq_true_eq] at letter bounds
    have code : range.1 = byte.toNat := by omega
    rw [letter.2, known, Option.map_some, code, UInt8.ofNat_toNat]

theorem move_of_takes (quiet : spelled other = none)
    (takes : responseScanner.takes state ranges (silentEdge states other state) = true)
    (member : within ranges byte = true) (spells : Spells other state word) :
    ∃ target ∈ states, responseScanner.move state byte = some ([], target) ∧
      Spells other target (word ++ [toLower byte]) ∧ (state = other → target = other) := by
  rcases Scanner.edge_of_takes takes member with ⟨edge, taken, silent, accepted⟩
  rw [silentEdge, Bool.and_eq_true] at silent
  rcases spells_of_edge silent.2 accepted with ⟨listed, ends⟩
  have moved := Scanner.move_of_edge taken
  rw [List.isEmpty_iff.mp silent.1] at moved
  refine ⟨edge.target, listed, moved, ?_⟩
  rcases ends with gave | ⟨before, known, spelt⟩
  · exact ⟨.inl gave, fun _ => gave⟩
  · have watching : state ≠ other := by
      intro same
      rw [same, quiet] at known
      cases known
    have same := (spells.resolve_left watching).symm.trans known
    cases same
    exact ⟨.inr spelt, fun same => absurd same watching⟩

/-- The walk over letters. What has given up stays so. -/
theorem walks_spelling (quiet : spelled other = none)
    (takes : ∀ state ∈ states,
      responseScanner.takes state ranges (silentEdge states other state) = true)
    (letters : ∀ byte ∈ bytes, within ranges byte = true)
    (member : state ∈ states) (spells : Spells other state word) (position : Nat) :
    ∃ target ∈ states, responseScanner.Walks state position bytes target [] ∧
      Spells other target (word ++ bytes.map toLower) ∧ (state = other → target = other) := by
  induction bytes generalizing state word position with
  | nil =>
      rw [List.map_nil, List.append_nil]
      exact ⟨state, member, Scanner.walks_nil state position, spells, id⟩
  | cons byte bytes induction =>
      rcases move_of_takes quiet (takes state member) (letters byte List.mem_cons_self) spells with
        ⟨next, listed, taken, longer, stays⟩
      rcases induction (fun byte later => letters byte (List.mem_cons_of_mem _ later)) listed
        longer (position + 1) with ⟨target, reached, walks, spelt, remains⟩
      refine ⟨target, reached, (Scanner.walks_byte taken rfl position).append walks, ?_,
        fun gave => remains (stays gave)⟩
      rwa [List.map_cons, List.append_cons]

end

/-- The codes of a letter in both cases. -/
def cases (letter : Nat) : List Nat := [letter, letter - 32]

theorem mem_cases (byte : UInt8) : byte.toNat ∈ cases (toLower byte) := by
  rw [toLower]
  split
  · exact List.mem_cons_of_mem _ (List.mem_singleton.mpr (Nat.add_sub_cancel _ 32).symm)
  · exact List.mem_cons_self

/-- A chain of states that spells a keyword: each letter leads to the next state, in either
case. -/
def Chain (first : Nat) (word : List Nat) : Prop :=
  ∀ index ∈ List.range word.length, ∀ code ∈ cases (word.getD index 0),
    toLower (UInt8.ofNat code) = word.getD index 0 →
      responseScanner.move (first + index) (UInt8.ofNat code) = some ([], first + index + 1)

instance (first : Nat) (word : List Nat) : Decidable (Chain first word) :=
  inferInstanceAs (Decidable (∀ index ∈ List.range word.length, ∀ code ∈ cases (word.getD index 0),
    toLower (UInt8.ofNat code) = word.getD index 0 →
      responseScanner.move (first + index) (UInt8.ofNat code) = some ([], first + index + 1)))

theorem chain_encoding :
    Chain 44 [114, 97, 110, 115, 102, 101, 114, 45, 101, 110, 99, 111, 100, 105, 110, 103] := by
  decide

theorem chain_chunked : Chain 81 [104, 117, 110, 107, 101, 100] := by
  decide

theorem Chain.tail {first letter : Nat} {word : List Nat} (chain : Chain first (letter :: word)) :
    Chain (first + 1) word := by
  intro index listed code either same
  have later : index + 1 ∈ List.range (letter :: word).length :=
    List.mem_range.mpr (Nat.succ_lt_succ (List.mem_range.mp listed))
  have taken := chain (index + 1) later code either same
  rwa [← Nat.add_assoc, Nat.add_right_comm first index 1] at taken

theorem Chain.walks {first : Nat} {bytes : List UInt8} (chain : Chain first (bytes.map toLower))
    (position : Nat) :
    responseScanner.Walks first position bytes (first + bytes.length) [] := by
  induction bytes generalizing first position with
  | nil => exact Scanner.walks_nil first position
  | cons byte bytes induction =>
      have taken := chain 0 (List.mem_range.mpr (Nat.succ_pos _)) byte.toNat (mem_cases byte)
        (by rw [UInt8.ofNat_toNat]; rfl)
      rw [UInt8.ofNat_toNat] at taken
      have rest := induction chain.tail (position + 1)
      have whole := (Scanner.walks_byte taken rfl position).append rest
      rwa [Nat.add_assoc, Nat.add_comm 1] at whole

/-- A walk ends in one state. -/
theorem walks_unique {first second state position : Nat} {bytes : List UInt8}
    {events others : List (Nat × ResponseAction)}
    (one : responseScanner.Walks state position bytes first events)
    (two : responseScanner.Walks state position bytes second others) : first = second := by
  unfold Scanner.Walks at one two
  rw [one] at two
  exact congrArg Scan.state two

namespace HttpResponseParser

/-! ## Names -/

/-- The states at the beginning of a header line. -/
def lineStates : List Nat := [20, 43, 62]

/-- The actions of the first letter of a name. -/
def beginnings : List (List ResponseAction) :=
  [[.startField], [.connectionClose, .startField], [.startValue, .startField]]

/-- The edges of a first letter. -/
def beginsName (edge : Edge ResponseAction) : Bool :=
  beginnings.elem edge.actions && spellsEdge nameStates 21 (some []) edge

theorem takes_beginning : ∀ state ∈ lineStates,
    responseScanner.takes state token beginsName = true := by
  decide

theorem begins_encoding : ∀ state ∈ lineStates, ∀ code ∈ cases 116,
    (responseScanner.move state (UInt8.ofNat code)).map (·.2) = some 44 := by
  decide

theorem move_beginning {state : Nat} (begins : state ∈ lineStates) {byte : UInt8}
    (member : within token byte = true) :
    ∃ actions ∈ beginnings, ∃ target ∈ nameStates,
      responseScanner.move state byte = some (actions, target) ∧
        Spells 21 target [toLower byte] := by
  rcases Scanner.edge_of_takes (takes_beginning state begins) member with
    ⟨edge, taken, first, accepted⟩
  rw [beginsName, Bool.and_eq_true] at first
  rcases spells_of_edge first.2 accepted with ⟨listed, ends⟩
  refine ⟨edge.actions, List.elem_iff.mp first.1, edge.target, listed,
    Scanner.move_of_edge taken, ends.imp_right ?_⟩
  rintro ⟨before, none, spelt⟩
  cases none
  exact spelt

theorem beginnings_onward : ∀ actions ∈ beginnings,
    actions.any responseScanner.stops = false := by
  decide

/-- The whole keywords. -/
theorem spelled_whole :
    spelled 34 = some (folded (text "connection")) ∧ spelled 60 = some encodingName ∧
      spelled 87 = some chunkedWord ∧ spelled 111 = some (folded (text "content-length")) := by
  rw [encodingName_codes, chunkedWord_codes]
  decide

/-- The walk over a name: where it ends tells whether the name announces an encoding. -/
theorem walks_name {state : Nat} (begins : state ∈ lineStates) {name : List UInt8}
    (nonempty : name ≠ []) (letters : ∀ byte ∈ name, within token byte = true)
    (position : Nat) :
    ∃ actions ∈ beginnings, ∃ target ∈ nameStates,
      responseScanner.Walks state position name target
        (actions.map fun action => (position, action)) ∧
      Spells 21 target (name.map toLower) ∧
      (target = 60 ↔ name.map toLower = encodingName) := by
  cases name with
  | nil => exact absurd rfl nonempty
  | cons first rest =>
      have plain := letters first List.mem_cons_self
      rcases move_beginning begins plain with ⟨actions, listed, next, reached, taken, spells⟩
      have head := Scanner.walks_byte taken (beginnings_onward actions listed) position
      have others : ∀ byte ∈ rest, within token byte = true :=
        fun byte inside => letters byte (List.mem_cons_of_mem _ inside)
      rcases walks_spelling (by decide) takes_name others reached spells (position + 1) with
        ⟨target, ended, walks, spelt, _⟩
      have whole := head.append walks
      rw [List.append_nil] at whole
      refine ⟨actions, listed, target, ended, whole, spelt, ?_⟩
      constructor
      · intro same
        subst same
        have word := spelt.resolve_left (by decide)
        rw [spelled_whole.2.1] at word
        exact (Option.some.inj word).symm
      · intro word
        rw [List.map_cons, encodingName_codes] at word
        rcases List.cons.inj word with ⟨letter, others⟩
        have opens := begins_encoding state begins _ (letter ▸ mem_cases first)
        rw [UInt8.ofNat_toNat, taken] at opens
        have opened : next = 44 := Option.some.inj opens
        subst opened
        have chain : Chain 44 (rest.map toLower) := others ▸ chain_encoding
        have length : rest.length = 16 := by
          rw [← List.length_map toLower, others]
          rfl
        have ends := walks_unique walks (chain.walks (position + 1))
        rw [ends, length]

/-- Behind the colon a state of its own awaits the word for chunks. -/
def behindName (name : List UInt8) : Nat :=
  if name.map toLower = encodingName then 61 else 22

theorem leads_colon : ∀ state ∈ nameStates, state ≠ 34 → state ≠ 111 →
    responseScanner.move state 58 = some ([.writeField], if state = 60 then 61 else 22) := by
  decide

/-- The end of a name that the response does not write by itself. -/
theorem move_colon {name : List UInt8} {target : Nat} (reached : target ∈ nameStates)
    (spells : Spells 21 target (name.map toLower))
    (encoding : target = 60 ↔ name.map toLower = encodingName)
    (connection : name.map toLower ≠ folded (text "connection"))
    (length : name.map toLower ≠ folded (text "content-length")) :
    responseScanner.move target 58 = some ([.writeField], behindName name) := by
  have notConnection : target ≠ 34 := by
    intro same
    subst same
    have word := spells.resolve_left (by decide)
    rw [spelled_whole.1] at word
    exact connection (Option.some.inj word).symm
  have notLength : target ≠ 111 := by
    intro same
    subst same
    have word := spells.resolve_left (by decide)
    rw [spelled_whole.2.2.2] at word
    exact length (Option.some.inj word).symm
  rw [leads_colon target reached notConnection notLength, behindName]
  simp only [encoding]

/-! ## Values -/

/-- The letters before a value. Only one state watches for the word. -/
def beforeValue (state : Nat) : Option (List Nat) :=
  if state = 61 then some [] else none

/-- The edges of a first byte. -/
def beginsValue (state : Nat) (edge : Edge ResponseAction) : Bool :=
  edge.actions == [.startValue] && spellsEdge valueStates 23 (beforeValue state) edge

theorem takes_first : ∀ state ∈ [22, 61],
    responseScanner.takes state [(33, 126), (128, 255)] (beginsValue state) = true := by
  decide

theorem begins_chunked : ∀ code ∈ cases 99,
    (responseScanner.move 61 (UInt8.ofNat code)).map (·.2) = some 81 := by
  decide

theorem move_value {state : Nat} (field : state ∈ [22, 61]) {byte : UInt8}
    (visible : within visibleByte byte = true) (leading : byte ≠ 32) :
    ∃ target ∈ valueStates, responseScanner.move state byte = some ([.startValue], target) ∧
      Spells 23 target [toLower byte] ∧ (target ≠ 23 → state = 61) := by
  have code : byte.toNat ≠ 32 := fun same => leading (UInt8.toNat_inj.mp same)
  have member : within [(33, 126), (128, 255)] byte = true := by
    simp [within, visibleByte] at visible ⊢
    omega
  rcases Scanner.edge_of_takes (takes_first state field) member with
    ⟨edge, taken, first, accepted⟩
  rw [beginsValue, Bool.and_eq_true] at first
  have moved := Scanner.move_of_edge taken
  rw [beq_iff_eq.mp first.1] at moved
  rcases spells_of_edge first.2 accepted with ⟨listed, ends⟩
  refine ⟨edge.target, listed, moved, ?_⟩
  rcases ends with gave | ⟨before, known, spelt⟩
  · exact ⟨.inl gave, fun watching => absurd gave watching⟩
  · rw [beforeValue] at known
    split at known
    · rename_i same
      cases known
      exact ⟨.inr spelt, fun _ => same⟩
    · cases known

/-- The walk over a value: where it ends tells whether it announces chunks. -/
theorem walks_value {state : Nat} (field : state ∈ [22, 61]) {value : List UInt8}
    (nonempty : value ≠ [])
    (visible : ∀ byte ∈ value, within visibleByte byte = true)
    (leading : value.head? ≠ some 32) (position : Nat) :
    ∃ target ∈ valueStates,
      responseScanner.Walks state position value target [(position, .startValue)] ∧
      (target = 87 ↔ state = 61 ∧ value.map toLower = chunkedWord) := by
  cases value with
  | nil => exact absurd rfl nonempty
  | cons first rest =>
      have other : first ≠ 32 := fun blank => leading (congrArg some blank)
      rcases move_value field (visible first List.mem_cons_self) other with
        ⟨next, reached, taken, spells, watches⟩
      have others : ∀ byte ∈ rest, within visibleByte byte = true :=
        fun byte inside => visible byte (List.mem_cons_of_mem _ inside)
      rcases walks_spelling (by decide) takes_value others reached spells (position + 1) with
        ⟨target, ended, walks, spelt, stays⟩
      refine ⟨target, ended, (Scanner.walks_byte taken rfl position).append walks, ?_⟩
      constructor
      · intro same
        subst same
        have word := spelt.resolve_left (by decide)
        rw [spelled_whole.2.2.1] at word
        refine ⟨watches ?_, (Option.some.inj word).symm⟩
        intro gave
        exact absurd (stays gave) (by decide)
      · rintro ⟨same, word⟩
        subst same
        rw [List.map_cons, chunkedWord_codes] at word
        rcases List.cons.inj word with ⟨letter, others⟩
        have opens := begins_chunked _ (letter ▸ mem_cases first)
        rw [UInt8.ofNat_toNat, taken] at opens
        have opened : next = 81 := Option.some.inj opens
        subst opened
        have chain : Chain 81 (rest.map toLower) := others ▸ chain_chunked
        have length : rest.length = 6 := by
          rw [← List.length_map toLower, others]
          rfl
        have ends := walks_unique walks (chain.walks (position + 1))
        rw [ends, length]

/-! ## Header lines -/

/-- The run of a parser over a buffer, from a state of its own. -/
def responseRun (data : List UInt8) : Execution ResponseAction HttpResponseParser where
  scanner := responseScanner
  effect := ResponseAction.effect
  perform parser occurrence := some (perform data parser occurrence)
  state := responseStart
  marks := marks
  parser := {}

/-- The actions of `run` and `Execution` are the same. -/
theorem foldlM_perform (data : List UInt8) (done : List (Occurrence ResponseAction))
    (parser : HttpResponseParser) :
    done.foldlM (responseRun data).perform parser = some (done.foldl (perform data) parser) :=
  List.foldlM_pure

/-- The header announces chunks. -/
def announces (name value : List UInt8) : Bool :=
  name.map toLower = encodingName && value.map toLower = chunkedWord

/-- Behind a line the automaton waits for chunks only if it has seen their header without
a value. -/
def behindLine (name value : List UInt8) : Nat :=
  if name.map toLower = encodingName ∧ value = [] then 62 else 20

theorem move_blank : ∀ state ∈ [22, 61],
    responseScanner.move state 32 = some ([.startValue], state) := by
  decide

theorem move_line_end : ∀ state ∈ valueStates, state ≠ 87 →
    responseScanner.move state 13 = some ([.writeValue], 24) := by
  decide

theorem move_edges :
    responseScanner.move 22 13 = some ([.startValue, .writeValue], 24) ∧
    responseScanner.move 61 13 = some ([.startValue, .writeValue], 80) ∧
    responseScanner.move 87 13 = some ([.writeValue], 71) ∧
    responseScanner.move 24 10 = some ([], 20) ∧
    responseScanner.move 80 10 = some ([], 62) ∧
    responseScanner.move 71 10 = some ([.transChunked], 20) := by
  decide

section

variable {data before behind : List UInt8} {state : Nat} {marks : Marks}
  {parser : HttpResponseParser} {name value : List UInt8}

theorem behindName_mem (name : List UInt8) : behindName name ∈ [22, 61] := by
  rw [behindName]
  split
  · decide
  · decide

/-- The name, the colon and the space. -/
theorem consumed_name (plain : PlainHeader name value) (begins : state ∈ lineStates)
    (connection : name.map toLower ≠ folded (text "connection"))
    (length : name.map toLower ≠ folded (text "content-length"))
    (consumed : (responseRun data).Consumed before state marks parser) :
    ∃ behind, (responseRun data).Consumed (before ++ name ++ text ": ") (behindName name) behind
        parser ∧
      behind.fieldStart = before.length ∧ behind.fieldLen = name.length := by
  rcases walks_name begins plain.nonempty plain.letters before.length with
    ⟨actions, listed, target, reached, walks, spells, encoding⟩
  have colon := move_colon reached spells encoding connection length
  have blank := move_blank _ (behindName_mem name)
  have named : ∃ marks, (responseRun data).Consumed (before ++ name) target marks parser ∧
      marks.fieldStart = before.length := by
    simp only [beginnings, List.mem_cons, List.not_mem_nil, or_false] at listed
    rcases listed with same | same | same
    · subst same
      exact ⟨_, consumed.append walks rfl, rfl⟩
    · subst same
      exact ⟨_, consumed.append walks rfl, rfl⟩
    · subst same
      exact ⟨_, consumed.append walks rfl, rfl⟩
  rcases named with ⟨_, named, start⟩
  have field := named.append (Scanner.walks_byte colon rfl _) rfl
  have spaced := field.append (Scanner.walks_byte blank rfl _) rfl
  have pieces : before ++ name ++ text ": " = before ++ name ++ [58] ++ [32] := by
    rw [List.append_assoc _ [58]]
    rfl
  rw [pieces]
  refine ⟨_, spaced, start, ?_⟩
  show (before ++ name).length - _ = name.length
  rw [start, List.length_append, Nat.add_sub_cancel_left]

/-- The header that a line sets. -/
def withHeader (parser : HttpResponseParser) (name value : List UInt8) : HttpResponseParser :=
  { parser with
    chunked := parser.chunked || announces name value
    data := parser.data.setHeader name value }

/-- What the callback of a line makes of the buffer. -/
theorem performed_value (nonempty : name ≠ [])
    (split : data = before ++ name ++ text ": " ++ value ++ behind)
    {last : Marks} (start : last.fieldStart = before.length)
    (length : last.fieldLen = name.length)
    (mark : last.mark = (before ++ name ++ text ": ").length) :
    perform data parser ⟨.writeValue, (before ++ name ++ text ": " ++ value).length, last⟩ =
      { parser with data := parser.data.setHeader name value } := by
  have fieldText : slice data before.length (before.length + name.length) = name := by
    rw [← List.length_append]
    apply slice_piece
    rw [split]
    simp only [List.append_assoc]
    rfl
  have valueText : slice data (before ++ name ++ text ": ").length
      (before ++ name ++ text ": " ++ value).length = value := by
    apply slice_piece
    rw [split]
  rw [perform]
  simp only [start, length, mark]
  rw [fieldText, valueText, onResponseHttpField, List.isEmpty_eq_false_iff.mpr nonempty,
    if_neg Bool.false_ne_true]

theorem withHeader_plain (other : announces name value = false) :
    parser.withHeader name value =
      { parser with data := parser.data.setHeader name value } := by
  rw [withHeader, other, Bool.or_false]

theorem announces_nil (name : List UInt8) : announces name [] = false := by
  rw [announces, Bool.and_eq_false_iff]
  right
  decide

/-- A header line sets its header. Only the announcement of chunks does more. -/
theorem consumed_headerLine (plain : PlainHeader name value) (begins : state ∈ lineStates)
    (connection : name.map toLower ≠ folded (text "connection"))
    (length : name.map toLower ≠ folded (text "content-length"))
    (consumed : (responseRun data).Consumed before state marks parser)
    (split : data = before ++ headerLine name value ++ behind) :
    ∃ marks, (responseRun data).Consumed (before ++ headerLine name value)
      (behindLine name value) marks (parser.withHeader name value) := by
  rcases consumed_name plain begins connection length consumed with ⟨_, spaced, start, long⟩
  rcases move_edges with ⟨empty, emptyEncoding, chunked, line, encodingLine, announced⟩
  have pieces : before ++ headerLine name value =
      before ++ name ++ text ": " ++ value ++ [13] ++ [10] := by
    rw [headerLine]
    simp [text]
  have whole : data = before ++ name ++ text ": " ++ value ++ ([13] ++ [10] ++ behind) := by
    rw [split, pieces]
    simp only [List.append_assoc]
  rw [pieces]
  by_cases none : value = []
  · subst none
    rw [withHeader_plain (announces_nil name)]
    rw [List.append_nil] at whole ⊢
    have stored {last : Marks} := @performed_value data before ([13] ++ [10] ++ behind) parser name
      [] plain.nonempty (by rw [List.append_nil]; exact whole) last
    rw [List.append_nil] at stored
    by_cases encoding : name.map toLower = encodingName
    · have behind : behindName name = 61 := if_pos encoding
      have lines : behindLine name [] = 62 := if_pos ⟨encoding, rfl⟩
      rw [behind] at spaced
      rw [lines]
      have ended := spaced.append (Scanner.walks_byte emptyEncoding rfl _)
        (congrArg some (stored start long rfl))
      exact ⟨_, ended.silent (Scanner.walks_byte encodingLine rfl _)⟩
    · have behind : behindName name = 22 := if_neg encoding
      have lines : behindLine name [] = 20 := if_neg fun both => encoding both.1
      rw [behind] at spaced
      rw [lines]
      have ended := spaced.append (Scanner.walks_byte empty rfl _)
        (congrArg some (stored start long rfl))
      exact ⟨_, ended.silent (Scanner.walks_byte line rfl _)⟩
  · have lines : behindLine name value = 20 := if_neg fun both => none both.2
    have stored {last : Marks} := @performed_value data before ([13] ++ [10] ++ behind) parser name
      value plain.nonempty whole last
    rcases walks_value (behindName_mem name) none plain.visible plain.leading
      (before ++ name ++ text ": ").length with ⟨target, reached, walks, words⟩
    have read := spaced.append walks rfl
    rw [lines]
    by_cases word : target = 87
    · have announced' : announces name value = true := by
        rcases words.mp word with ⟨field, same⟩
        have encoding : name.map toLower = encodingName := by
          by_contra other
          rw [behindName, if_neg other] at field
          exact absurd field (by decide)
        rw [announces, decide_eq_true encoding, decide_eq_true same]
        rfl
      subst word
      have ended := read.append (Scanner.walks_byte chunked rfl _)
        (congrArg some (stored start long rfl))
      refine ⟨_, ended.append (Scanner.walks_byte announced rfl _) ?_⟩
      rw [withHeader, announced', Bool.or_true]
      rfl
    · have silent : announces name value = false := by
        rw [announces, Bool.and_eq_false_iff]
        by_contra both
        rw [not_or] at both
        simp only [decide_eq_false_iff_not, not_not] at both
        exact word (words.mpr ⟨if_pos both.1, both.2⟩)
      have ended := read.append (Scanner.walks_byte (move_line_end target reached word) rfl _)
        (congrArg some (stored start long rfl))
      rw [withHeader_plain silent]
      exact ⟨_, ended.silent (Scanner.walks_byte line rfl _)⟩

/-- The state behind some lines. -/
def behindLines (state : Nat) (entries : List (List UInt8 × List UInt8)) : Nat :=
  entries.foldl (fun _ entry => behindLine entry.1 entry.2) state

theorem behindLine_mem (name value : List UInt8) : behindLine name value ∈ lineStates := by
  rw [behindLine]
  split
  · decide
  · decide

theorem behindLines_mem {entries : List (List UInt8 × List UInt8)}
    (begins : state ∈ lineStates) : behindLines state entries ∈ lineStates := by
  induction entries generalizing state with
  | nil => exact begins
  | cons entry entries induction => exact induction (behindLine_mem entry.1 entry.2)

/-- The header lines of a map, one by one. -/
theorem consumed_entries {entries : List (List UInt8 × List UInt8)}
    (plain : ∀ entry ∈ entries, PlainHeader entry.1 entry.2)
    (connection : ∀ entry ∈ entries, entry.1.map toLower ≠ folded (text "connection"))
    (length : ∀ entry ∈ entries, entry.1.map toLower ≠ folded (text "content-length"))
    (begins : state ∈ lineStates)
    (consumed : (responseRun data).Consumed before state marks parser)
    (split : data = before ++ (entries.map fun entry => headerLine entry.1 entry.2).flatten ++
      behind) :
    ∃ marks, (responseRun data).Consumed
      (before ++ (entries.map fun entry => headerLine entry.1 entry.2).flatten)
      (behindLines state entries) marks
      (entries.foldl (fun parser entry => parser.withHeader entry.1 entry.2) parser) := by
  induction entries generalizing before state marks parser with
  | nil =>
      rw [List.map_nil, List.flatten_nil, List.append_nil]
      exact ⟨marks, consumed⟩
  | cons entry entries induction =>
      rw [List.map_cons, List.flatten_cons, ← List.append_assoc] at split ⊢
      have line := @consumed_headerLine data before
        ((entries.map fun entry => headerLine entry.1 entry.2).flatten ++ behind) _ _ _ _ _
        (plain entry List.mem_cons_self) begins (connection entry List.mem_cons_self)
        (length entry List.mem_cons_self) consumed (by rw [split, List.append_assoc])
      rcases line with ⟨_, line⟩
      exact induction (fun other member => plain other (List.mem_cons_of_mem _ member))
        (fun other member => connection other (List.mem_cons_of_mem _ member))
        (fun other member => length other (List.mem_cons_of_mem _ member))
        (behindLine_mem entry.1 entry.2) line split

theorem foldl_withHeader (entries : List (List UInt8 × List UInt8))
    (parser : HttpResponseParser) :
    entries.foldl (fun parser entry => parser.withHeader entry.1 entry.2) parser =
      { parser with
        chunked := parser.chunked || entries.any fun entry => announces entry.1 entry.2
        data := { parser.data with
          headers := entries.foldl (fun headers entry => headers.set entry.1 entry.2)
            parser.data.headers } } := by
  induction entries generalizing parser with
  | nil =>
      rw [List.any_nil, Bool.or_false]
      rfl
  | cons entry entries induction =>
      rw [List.foldl_cons, induction, List.any_cons, ← Bool.or_assoc]
      rfl

end

/-! ## The status line -/

/-- The status line up to the status. -/
def versionLead (version : UInt8) : List UInt8 :=
  text "HTTP/" ++ decimal (version.toNat / 10) ++ text "." ++ decimal (version.toNat % 10)

theorem within_digit {byte : UInt8} (member : isDigit 10 byte = true) :
    within digit byte = true := by
  have bounds := isDigit_ten member
  simp [within, digit, bounds]

/-- A number between two states. -/
theorem walks_decimal {state next : Nat} {actions : List ResponseAction}
    (opens : ∀ range ∈ digit, responseScanner.leads state range = some (actions, next))
    (onward : actions.any responseScanner.stops = false)
    (stays : ∀ range ∈ digit, responseScanner.leads next range = some ([], next))
    (number position : Nat) :
    responseScanner.Walks state position (decimal number) next
      (actions.map fun action => (position, action)) := by
  have digits : ∀ byte ∈ decimal number, within digit byte = true := fun byte member =>
    within_digit (isDigit_of_mem_numeral (by decide) (by decide) member)
  cases shape : decimal number with
  | nil => exact absurd shape (numeral_ne_nil 10 number)
  | cons first rest =>
      rw [shape] at digits
      have head := Scanner.move_of_leads opens (digits first List.mem_cons_self)
      have loop := Scanner.walks_loop (fun byte member => Scanner.move_of_leads stays
        (digits byte (List.mem_cons_of_mem _ member))) (position + 1)
      have whole := (Scanner.walks_byte head onward position).append loop
      rwa [List.append_nil] at whole

theorem walks_http : responseScanner.Walks 1 0 (text "HTTP/") 12 [(0, .mark)] ∧
    responseScanner.Walks 13 0 (text ".") 14 [] ∧
    responseScanner.Walks 15 0 (text " ") 16 [(0, .httpVersion)] ∧
    responseScanner.Walks 17 0 (text " ") 18 [(0, .statusCode)] := by
  decide

theorem leads_digit : ∀ range ∈ digit,
    responseScanner.leads 12 range = some ([], 13) ∧
    responseScanner.leads 13 range = some ([], 13) ∧
    responseScanner.leads 14 range = some ([], 15) ∧
    responseScanner.leads 15 range = some ([], 15) ∧
    responseScanner.leads 16 range = some ([.mark], 17) ∧
    responseScanner.leads 17 range = some ([], 17) := by
  decide

theorem walks_version (version : UInt8) :
    responseScanner.Walks 1 0 (versionLead version ++ text " ") 16
      [(0, .mark), ((versionLead version).length, .httpVersion)] := by
  have major := walks_decimal (fun range listed => (leads_digit range listed).1) rfl
    (fun range listed => (leads_digit range listed).2.1) (version.toNat / 10)
  have minor := walks_decimal (fun range listed => (leads_digit range listed).2.2.1) rfl
    (fun range listed => (leads_digit range listed).2.2.2.1) (version.toNat % 10)
  have lead := ((walks_http.1.append (major _)).append (Scanner.walks_at walks_http.2.1 _)).append
    (minor _)
  have whole := lead.append (Scanner.walks_at walks_http.2.2.1 _)
  simpa [versionLead] using whole

theorem onResponseVersion_known (parser : HttpResponseParser) :
    ∀ version ∈ [(10 : UInt8), 11], parser.onResponseVersion (versionLead version) =
      { parser with data := { parser.data with version } } := by
  intro version member
  unfold onResponseVersion
  rcases List.mem_pair.mp member with same | same
  · subst same
    rw [if_neg (by decide), if_pos (by decide)]
  · subst same
    rw [if_pos (by decide)]

theorem sameText_of_longer {longer : Nat} {left right : List UInt8}
    (same : sameText longer left right = true) :
    ∀ {count : Nat}, count ≤ longer → sameText count left right = true := by
  induction longer generalizing left right with
  | zero =>
      intro count bound
      rw [Nat.le_zero.mp bound]
      rfl
  | succ longer induction =>
      intro count bound
      cases count with
      | zero => rfl
      | succ count =>
          rw [sameText] at same ⊢
          split at same
          · cases same
          · rename_i first
            rw [if_neg first]
            split at same
            · rename_i ends
              rw [if_pos ends]
            · rename_i onward
              rw [if_neg onward]
              exact induction same (Nat.le_of_succ_le_succ bound)

theorem sameText_http (count : Nat) (left right : List UInt8) :
    sameText (count + 5) (text "HTTP/" ++ left) (text "HTTP/" ++ right) =
      sameText count left right := by
  have codes : text "HTTP/" = [72, 84, 84, 80, 47] := by decide
  rw [codes]
  simp [sameText, toLower]

/-- The three characters of a version that is known are those of no other. -/
theorem sameText_unknown : ∀ code ∈ List.range 256, code ≠ 10 → code ≠ 11 →
    ∀ last ∈ [(48 : UInt8), 49],
      sameText 3 (decimal (code / 10) ++ 46 :: decimal (code % 10)) [49, 46, last] = false := by
  decide +kernel

theorem refused_version {version : UInt8} (unknown : version ∉ [(10 : UInt8), 11]) {last : UInt8}
    (listed : last ∈ [(48 : UInt8), 49]) :
    sameText (versionLead version).length (versionLead version) (text "HTTP/" ++ [49, 46, last]) =
      false := by
  have others := not_or.mp (mt List.mem_pair.mpr unknown)
  have different := sameText_unknown version.toNat (List.mem_range.mpr version.toNat_lt)
    (fun same => others.1 (UInt8.toNat_inj.mp same))
    (fun same => others.2 (UInt8.toNat_inj.mp same)) last listed
  have split : versionLead version = text "HTTP/" ++
      (decimal (version.toNat / 10) ++ 46 :: decimal (version.toNat % 10)) := by
    rw [versionLead, List.append_assoc, List.append_assoc]
    rfl
  have major := List.length_pos_of_ne_nil (numeral_ne_nil 10 (version.toNat / 10))
  have minor := List.length_pos_of_ne_nil (numeral_ne_nil 10 (version.toNat % 10))
  have long : 3 + 5 ≤ (versionLead version).length := by
    rw [split, List.length_append, List.length_append, List.length_cons]
    show 3 + 5 ≤ 5 + ((numeral 10 _).length + ((numeral 10 _).length + 1))
    omega
  by_contra same
  have shorter := sameText_of_longer (eq_true_of_ne_false same) long
  rw [split, sameText_http, different] at shorter
  exact Bool.false_ne_true shorter

/-- Any other version is an error. -/
theorem onResponseVersion_unknown (parser : HttpResponseParser) {version : UInt8}
    (unknown : version ∉ [(10 : UInt8), 11]) :
    parser.onResponseVersion (versionLead version) =
      { parser with error := .versionNotValid } := by
  have one : text "HTTP/1.1" = text "HTTP/" ++ [49, 46, 49] := by decide
  have zero : text "HTTP/1.0" = text "HTTP/" ++ [49, 46, 48] := by decide
  rw [onResponseVersion, one, zero, refused_version unknown (by decide),
    refused_version unknown (by decide), if_neg Bool.false_ne_true, if_neg Bool.false_ne_true]

theorem walks_status (status : Nat) :
    responseScanner.Walks 16 0 (decimal status ++ text " ") 18
      [(0, .mark), ((decimal status).length, .statusCode)] := by
  have digits := walks_decimal (fun range listed => (leads_digit range listed).2.2.2.2.1) rfl
    (fun range listed => (leads_digit range listed).2.2.2.2.2) status 0
  have whole := digits.append (Scanner.walks_at walks_http.2.2.2 _)
  simpa using whole

theorem status_bounds : ∀ entry ∈ statusMap, 0 ≤ entry.1 ∧ entry.1 < 1000 := by
  decide

/-- No line feed, and a carriage return only in front. -/
structure PlainReason (reason : List UInt8) : Prop where
  feeds : 10 ∉ reason
  returns : 13 ∉ reason.tail

theorem leads_reason :
    (∀ range ∈ lineByte, responseScanner.leads 18 range = some ([.mark], 19)) ∧
    ∀ range ∈ [(0, 9), (11, 12), (14, 255)],
      responseScanner.leads 19 range = some ([], 19) := by
  decide

theorem walks_reason {reason : List UInt8} (nonempty : reason ≠ []) (plain : PlainReason reason)
    (position : Nat) : responseScanner.Walks 18 position reason 19 [(position, .mark)] := by
  cases reason with
  | nil => exact absurd rfl nonempty
  | cons first rest =>
      have other : first.toNat ≠ 10 := by
        intro same
        apply plain.feeds
        rw [← UInt8.toNat_inj.mp (same.trans (by rfl : 10 = (10 : UInt8).toNat))]
        exact List.mem_cons_self
      have small := first.toNat_lt
      have head : responseScanner.move 18 first = some ([.mark], 19) := by
        apply Scanner.move_of_leads leads_reason.1
        simp [within, lineByte]
        omega
      apply (Scanner.walks_byte head rfl position).append
      apply Scanner.walks_loop
      intro byte member
      apply Scanner.move_of_leads leads_reason.2
      have feed : byte.toNat ≠ 10 := by
        intro same
        apply plain.feeds
        rw [← UInt8.toNat_inj.mp (same.trans (by rfl : 10 = (10 : UInt8).toNat))]
        exact List.mem_cons_of_mem _ member
      have ret : byte.toNat ≠ 13 := by
        intro same
        apply plain.returns
        rw [← UInt8.toNat_inj.mp (same.trans (by rfl : 13 = (13 : UInt8).toNat))]
        exact member
      have small := byte.toNat_lt
      simp [within]
      omega

section

variable {data behind : List UInt8} {response : HttpResponse}

theorem consumed_version (version : UInt8)
    (split : data = versionLead version ++ text " " ++ behind) :
    ∃ marks, (responseRun data).Consumed (versionLead version ++ text " ") 16 marks
      (({} : HttpResponseParser).onResponseVersion (versionLead version)) := by
  have walks := walks_version version
  have lead : slice data 0 (versionLead version).length = versionLead version :=
    @slice_piece data [] (versionLead version) (text " " ++ behind)
      (split.trans (List.append_assoc _ _ _))
  exact ⟨_, (Execution.consumed_nil (responseRun data)).append walks (congrArg
    (fun value => some (({} : HttpResponseParser).onResponseVersion value)) lead)⟩

theorem atoi_status {entry : Int × List UInt8} (listed : entry ∈ statusMap)
    (behind : List UInt8) :
    atoi (decimal (entry.1 % 2 ^ 32).toNat ++ 32 :: behind) = entry.1 := by
  have bounds := status_bounds entry listed
  have digits := fun byte (member : byte ∈ numeral 10 (entry.1 % 2 ^ 32).toNat) =>
    isDigit_of_mem_numeral (by decide) (by decide) member
  have stops : (32 :: behind).takeWhile (isDigit 10) = [] := rfl
  have read := (strtol_digits (numeral_ne_nil 10 _) digits stops).1
  rw [digitsValue_numeral (by decide) (by decide)] at read
  have value : ((entry.1 % 2 ^ 32).toNat : Int) = entry.1 := by omega
  rw [atoi]
  show toInt32 (strtol 10 (numeral 10 _ ++ 32 :: behind)) = _
  rw [read, value, Int.min_eq_left (by omega), toInt32_of_lt bounds.1 (by omega)]

/-- The reason that `dump` writes. -/
def sentReason (response : HttpResponse) : List UInt8 :=
  if response.reason.isEmpty then httpStatusToString response.status else response.reason

theorem startLine_eq (response : HttpResponse) :
    response.startLine = versionLead response.version ++ text " " ++
      decimal (response.status % 2 ^ 32).toNat ++ text " " ++ sentReason response ++
        text "\r\n" := by
  rw [HttpResponse.startLine, versionLead, sentReason]

theorem move_reason_end :
    responseScanner.move 19 13 = some ([.reasonPhrase], 24) ∧
      responseScanner.move 24 10 = some ([], 20) := by
  decide

/-- The status line of a version that the callback knows. -/
theorem consumed_startLine (known : response.version ∈ [(10 : UInt8), 11])
    {entry : Int × List UInt8} (listed : entry ∈ statusMap) (status : response.status = entry.1)
    (nonempty : sentReason response ≠ []) (plain : PlainReason (sentReason response))
    (split : data = response.startLine ++ behind) :
    ∃ marks, (responseRun data).Consumed response.startLine 20 marks
      { data := { version := response.version, status := response.status,
                  reason := sentReason response } } := by
  rw [startLine_eq, status] at split ⊢
  have lead := @consumed_version data (decimal (entry.1 % 2 ^ 32).toNat ++ text " " ++
    sentReason response ++ text "\r\n" ++ behind) response.version
      (by rw [split]; simp only [List.append_assoc])
  rcases lead with ⟨_, lead⟩
  rw [onResponseVersion_known _ _ known] at lead
  have digits := Scanner.walks_at (walks_status (entry.1 % 2 ^ 32).toNat)
    (versionLead response.version ++ text " ").length
  have rest : data.drop (0 + (versionLead response.version ++ text " ").length) =
      decimal (entry.1 % 2 ^ 32).toNat ++
        32 :: (sentReason response ++ text "\r\n" ++ behind) := by
    rw [split, Nat.zero_add]
    simp only [List.append_assoc]
    rw [← List.append_assoc, List.drop_left]
    rfl
  have known' := atoi_status listed (sentReason response ++ text "\r\n" ++ behind)
  rw [← rest] at known'
  have read := lead.append digits (congrArg (fun status => some
    { data := { version := response.version, status } : HttpResponseParser }) known')
  have spoken := read.append (walks_reason nonempty plain _) rfl
  have pieces : versionLead response.version ++ text " " ++ decimal (entry.1 % 2 ^ 32).toNat ++
      text " " ++ sentReason response ++ text "\r\n" =
      versionLead response.version ++ text " " ++ (decimal (entry.1 % 2 ^ 32).toNat ++
        text " ") ++ sentReason response ++ [13] ++ [10] := by
    simp only [List.append_assoc]
    rfl
  have reason : slice data
      (versionLead response.version ++ text " " ++ (decimal (entry.1 % 2 ^ 32).toNat ++
        text " ")).length
      (versionLead response.version ++ text " " ++ (decimal (entry.1 % 2 ^ 32).toNat ++
        text " ") ++ sentReason response).length = sentReason response := by
    apply slice_piece
    rw [split, pieces, List.append_assoc _ [13], List.append_assoc _ ([13] ++ [10])]
  rw [pieces]
  have ended := spoken.append (Scanner.walks_byte move_reason_end.1 rfl _) (congrArg
    (fun reason => some ({ data := { version := response.version, status := entry.1, reason } } :
      HttpResponseParser)) reason)
  exact ⟨_, ended.silent (Scanner.walks_byte move_reason_end.2 rfl _)⟩

end

end HttpResponseParser

end Http

end FiberNet
