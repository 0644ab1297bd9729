import FiberNet.Log.Event

/-! # The pattern language

A formatter scans its pattern once, collecting the literal bytes of a run until a
directive ends it, and then looks the directives up in a table of items. The language it
accepts is given by the elements that a pattern reads as.
-/

namespace FiberNet

namespace Log

/-! ## The scanner -/

inductive FormatType
  | regular
  | noAppendFormat
  | appendFormat
  | formatError
  deriving DecidableEq

/-- An entry of `strType`. -/
structure TypedText where
  type : List UInt8
  appStr : List UInt8
  typeNum : FormatType

/-- What the message about a bad pattern names. -/
structure ScanError where
  errEle : List UInt8
  errPos : Nat

/-- `isalpha` in the C locale. -/
def isalpha (byte : UInt8) : Bool :=
  (65 ≤ byte.toNat && byte.toNat ≤ 90) || (97 ≤ byte.toNat && byte.toNat ≤ 122)

/-- The loop over `k` behind an opening brace. -/
def closeBrace (appFormat : List UInt8) : List UInt8 → Option (List UInt8 × List UInt8)
  | [] => none
  | byte :: rest =>
      if byte = 125 then some (appFormat, rest) else closeBrace (appFormat ++ [byte]) rest

/-- The loop over `k` behind a letter: the additional format and what follows it. -/
def additional : List UInt8 → Option (List UInt8 × List UInt8)
  | [] => some ([], [])
  | byte :: rest => if byte = 123 then closeBrace [] rest else some ([], byte :: rest)

/-- The run of literal bytes is stored once a directive or the end is met. -/
def saveRegular (regStr : List UInt8) (strType : List TypedText) : List TypedText :=
  if regStr = [] then strType
  else strType ++ [{ type := Http.text "r", appStr := regStr, typeNum := .regular }]

theorem length_closeBrace {appFormat pattern inside after : List UInt8}
    (closed : closeBrace appFormat pattern = some (inside, after)) :
    after.length < pattern.length := by
  induction pattern generalizing appFormat with
  | nil => cases closed
  | cons byte rest induction =>
      rw [closeBrace] at closed
      split at closed
      · cases closed
        exact Nat.lt_succ_self _
      · exact Nat.lt_succ_of_lt (induction closed)

theorem length_additional {pattern inside after : List UInt8}
    (closed : additional pattern = some (inside, after)) :
    after.length ≤ pattern.length := by
  cases pattern with
  | nil =>
      cases closed
      exact Nat.le_refl _
  | cons byte rest =>
      rw [additional] at closed
      split at closed
      · exact Nat.le_succ_of_le (Nat.le_of_lt (length_closeBrace closed))
      · cases closed
        exact Nat.le_refl _

/-- The loop over `i`, which is the position of the first byte of what is left. -/
def scan (i : Nat) (regStr : List UInt8) (strType : List TypedText) :
    List UInt8 → Except ScanError (List UInt8 × List TypedText)
  | [] => .ok (regStr, strType)
  | byte :: rest =>
      if byte ≠ 37 then scan (i + 1) (regStr ++ [byte]) strType rest
      else
        match rest with
        | [] => .error { errEle := [37], errPos := i }
        | letter :: rest =>
            if letter = 37 then scan (i + 2) (regStr ++ [letter]) strType rest
            else if isalpha letter then
              match closed : additional rest with
              | none => .error { errEle := [], errPos := i + 2 + rest.length }
              | some (appFormat, after) =>
                  have := length_additional closed
                  scan (i + 2 + (rest.length - after.length)) []
                    (saveRegular regStr strType ++ [{
                      type := [letter]
                      appStr := appFormat
                      typeNum := if appFormat = [] then .noAppendFormat else .appendFormat }])
                    after
            else .error { errEle := [letter], errPos := i + 1 }
termination_by pattern => pattern.length
decreasing_by all_goals simp only [List.length_cons]; omega

/-- The constructors of the items, which mostly ignore the additional format. -/
def constructors : List (List UInt8 × (List UInt8 → FormatterItem)) := [
  (Http.text "s", fun _ => .message), (Http.text "r", .regular),
  (Http.text "L", fun _ => .level), (Http.text "D", .date),
  (Http.text "T", fun _ => .thread), (Http.text "K", fun _ => .threadName),
  (Http.text "P", fun _ => .process), (Http.text "E", fun _ => .elapse),
  (Http.text "C", fun _ => .coroutine), (Http.text "f", fun _ => .function),
  (Http.text "F", fun _ => .file), (Http.text "l", fun _ => .line),
  (Http.text "t", fun _ => .tab), (Http.text "n", fun _ => .newLine),
  (Http.text "N", fun _ => .name), (Http.text "B", fun _ => .backTrace)]

/-- A type without a constructor is reported and passed over. -/
def itemOf (type appStr : List UInt8) : Option FormatterItem :=
  (constructors.lookup type).map fun construct => construct appStr

/-- The loop over `strType`. -/
def itemsOf (strType : List TypedText) : List FormatterItem :=
  strType.filterMap fun entry => itemOf entry.type entry.appStr

structure Formatter where
  s_pattern : List UInt8
  i_error : Nat
  v_items : List FormatterItem

def Formatter.init (s_pattern : List UInt8) : Formatter :=
  match scan 0 [] [] s_pattern with
  | .error _ => { s_pattern, i_error := 1, v_items := [] }
  | .ok (regStr, strType) =>
      { s_pattern, i_error := 0, v_items := itemsOf (saveRegular regStr strType) }

def Formatter.format (date : List UInt8 → Int64 → List UInt8) (formatter : Formatter)
    (event : LogEvent) : List UInt8 :=
  formatter.v_items.foldl (fun ss item => item.format date ss event) []

/-! ## The language -/

inductive Element
  | character (byte : UInt8)
  | percent
  | directive (letter : UInt8) (inside : Option (List UInt8))

/-- A pattern is the text of a sequence of elements. A brace behind a letter always opens
an additional format. -/
inductive Reads : List Element → List UInt8 → Prop
  | done : Reads [] []
  | character {byte elements rest} : byte ≠ 37 → Reads elements rest →
      Reads (.character byte :: elements) (byte :: rest)
  | percent {elements rest} : Reads elements rest →
      Reads (.percent :: elements) (37 :: 37 :: rest)
  | bare {letter elements rest} : isalpha letter = true → rest.head? ≠ some 123 →
      Reads elements rest → Reads (.directive letter none :: elements) (37 :: letter :: rest)
  | braced {letter inside elements rest} : isalpha letter = true → 125 ∉ inside →
      Reads elements rest →
      Reads (.directive letter (some inside) :: elements)
        (37 :: letter :: 123 :: (inside ++ 125 :: rest))

/-- The byte that a literal element stands for. -/
def Element.literal : Element → Option UInt8
  | .character byte => some byte
  | .percent => some 37
  | .directive _ _ => none

/-- The bytes of the run of literal elements that a sequence begins with. -/
def run (elements : List Element) : List UInt8 :=
  (elements.takeWhile (·.literal.isSome)).filterMap (·.literal)

def afterRun (elements : List Element) : List Element :=
  elements.dropWhile (·.literal.isSome)

theorem length_afterRun (elements : List Element) :
    (afterRun elements).length ≤ elements.length :=
  (List.dropWhile_sublist _).length_le

/-- The items that a sequence of elements means: one for every maximal run of literal
elements and one for every directive of the table. -/
def meaning : List Element → List FormatterItem
  | [] => []
  | .directive letter inside :: rest =>
      (itemOf [letter] (inside.getD [])).toList ++ meaning rest
  | .character byte :: rest => .regular (byte :: run rest) :: meaning (afterRun rest)
  | .percent :: rest => .regular (37 :: run rest) :: meaning (afterRun rest)
termination_by elements => elements.length
decreasing_by
  all_goals
    have := length_afterRun rest
    simp only [List.length_cons]
    omega

/-! ## Braces -/

theorem closeBrace_append {inside : List UInt8} (unclosed : 125 ∉ inside)
    (appFormat after : List UInt8) :
    closeBrace appFormat (inside ++ 125 :: after) = some (appFormat ++ inside, after) := by
  induction inside generalizing appFormat with
  | nil => rw [List.nil_append, closeBrace, if_pos rfl, List.append_nil]
  | cons byte rest induction =>
      have different : byte ≠ 125 := Ne.symm (List.ne_of_not_mem_cons unclosed)
      rw [List.cons_append, closeBrace, if_neg different,
        induction (List.not_mem_of_not_mem_cons unclosed), List.append_assoc]
      rfl

theorem of_closeBrace {appFormat pattern inside after : List UInt8}
    (closed : closeBrace appFormat pattern = some (inside, after)) :
    ∃ body, 125 ∉ body ∧ pattern = body ++ 125 :: after := by
  induction pattern generalizing appFormat with
  | nil => cases closed
  | cons byte rest induction =>
      rw [closeBrace] at closed
      split at closed
      case isTrue equal =>
        cases closed
        exact ⟨[], List.not_mem_nil, by rw [equal]; rfl⟩
      case isFalse different =>
        rcases induction closed with ⟨body, unclosed, split⟩
        refine ⟨byte :: body, ?_, by rw [split]; rfl⟩
        exact List.not_mem_cons_of_ne_of_not_mem (Ne.symm different) unclosed

theorem additional_bare {rest : List UInt8} (bare : rest.head? ≠ some 123) :
    additional rest = some ([], rest) := by
  cases rest with
  | nil => rfl
  | cons byte rest =>
      have different : byte ≠ 123 := fun equal => bare (congrArg some equal)
      rw [additional, if_neg different]

theorem additional_braced {inside : List UInt8} (unclosed : 125 ∉ inside) (after : List UInt8) :
    additional (123 :: (inside ++ 125 :: after)) = some (inside, after) := by
  rw [additional, if_pos rfl, closeBrace_append unclosed, List.nil_append]

theorem of_additional {rest appFormat after : List UInt8}
    (found : additional rest = some (appFormat, after)) :
    (rest.head? ≠ some 123 ∧ rest = after) ∨
      ∃ inside, 125 ∉ inside ∧ rest = 123 :: (inside ++ 125 :: after) := by
  cases rest with
  | nil =>
      cases found
      exact .inl ⟨by decide, rfl⟩
  | cons byte rest =>
      rw [additional] at found
      split at found
      case isTrue equal =>
        rcases of_closeBrace found with ⟨inside, unclosed, split⟩
        exact .inr ⟨inside, unclosed, by rw [equal, split]⟩
      case isFalse different =>
        cases found
        exact .inl ⟨fun equal => different (Option.some.inj equal), rfl⟩

/-! ## The scanner follows the elements -/

theorem scan_character {byte : UInt8} (different : byte ≠ 37) (i : Nat)
    (regStr : List UInt8) (strType : List TypedText) (rest : List UInt8) :
    scan i regStr strType (byte :: rest) = scan (i + 1) (regStr ++ [byte]) strType rest := by
  rw [scan.eq_def]
  simp only [if_pos different]

theorem scan_percent (i : Nat) (regStr : List UInt8) (strType : List TypedText)
    (rest : List UInt8) :
    scan i regStr strType (37 :: 37 :: rest) = scan (i + 2) (regStr ++ [37]) strType rest := by
  rw [scan.eq_def]
  simp only [if_neg (not_not.mpr rfl), if_pos]

theorem scan_directive {letter : UInt8} (alphabetic : isalpha letter = true)
    {rest appFormat after : List UInt8} (found : additional rest = some (appFormat, after))
    (i : Nat) (regStr : List UInt8) (strType : List TypedText) :
    scan i regStr strType (37 :: letter :: rest) =
      scan (i + 2 + (rest.length - after.length)) []
        (saveRegular regStr strType ++ [{
          type := [letter]
          appStr := appFormat
          typeNum := if appFormat = [] then .noAppendFormat else .appendFormat }]) after := by
  have different : letter ≠ 37 := fun equal => by
    rw [equal] at alphabetic
    cases alphabetic
  rw [scan.eq_def]
  simp only [if_neg (not_not.mpr rfl), if_neg different, if_pos alphabetic]
  split
  case h_1 missing =>
    rw [found] at missing
    cases missing
  case h_2 inside tail present =>
    rw [found] at present
    cases present
    rfl

/-- What the scanner accepts is the text of elements. -/
theorem reads_of_scan {i : Nat} {regStr : List UInt8} {strType : List TypedText}
    {pattern : List UInt8} {result : List UInt8 × List TypedText}
    (accepted : scan i regStr strType pattern = .ok result) :
    ∃ elements, Reads elements pattern := by
  fun_induction scan i regStr strType pattern with
  | case1 => exact ⟨[], .done⟩
  | case2 i regStr strType byte rest different induction =>
      rcases induction accepted with ⟨elements, reads⟩
      exact ⟨_, .character different reads⟩
  | case3 => cases accepted
  | case4 i regStr strType byte equal rest induction =>
      rcases induction accepted with ⟨elements, reads⟩
      rw [not_not.mp equal]
      exact ⟨_, .percent reads⟩
  | case5 => cases accepted
  | case6 i regStr strType byte equal letter rest _ alphabetic appFormat after found _ induction =>
      rcases induction accepted with ⟨elements, reads⟩
      rw [not_not.mp equal]
      rcases of_additional found with ⟨bare, same⟩ | ⟨inside, unclosed, split⟩
      · rw [same] at bare ⊢
        exact ⟨_, .bare alphabetic bare reads⟩
      · rw [split]
        exact ⟨_, .braced alphabetic unclosed reads⟩
  | case7 => cases accepted

/-- A pattern reads as one sequence of elements only. -/
theorem Reads.unique {elements others : List Element} {pattern : List UInt8}
    (first : Reads elements pattern) (second : Reads others pattern) : elements = others := by
  induction first generalizing others with
  | done =>
      cases second
      rfl
  | character different _ induction =>
      cases second with
      | character _ second => rw [induction second]
      | percent => exact absurd rfl different
      | bare => exact absurd rfl different
      | braced => exact absurd rfl different
  | percent _ induction =>
      cases second with
      | character different => exact absurd rfl different
      | percent second => rw [induction second]
      | bare alphabetic => cases alphabetic
      | braced alphabetic => cases alphabetic
  | bare alphabetic bare _ induction =>
      cases second with
      | character different => exact absurd rfl different
      | percent => cases alphabetic
      | bare _ _ second => rw [induction second]
      | braced => exact absurd rfl bare
  | @braced _ inside elements rest alphabetic unclosed _ induction =>
      generalize tail : inside ++ 125 :: rest = behind at second
      cases second with
      | character different => exact absurd rfl different
      | percent => cases alphabetic
      | bare _ bare => exact absurd rfl bare
      | @braced _ body others after _ others_unclosed second =>
          have same := closeBrace_append unclosed [] rest
          rw [tail, closeBrace_append others_unclosed] at same
          cases same
          rw [induction second]

/-! ## The items of a pattern -/

theorem itemsOf_append (first second : List TypedText) :
    itemsOf (first ++ second) = itemsOf first ++ itemsOf second :=
  List.filterMap_append

theorem itemsOf_saveRegular (regStr : List UInt8) (strType : List TypedText) :
    itemsOf (saveRegular regStr strType) =
      itemsOf strType ++ itemsOf (saveRegular regStr []) := by
  rw [saveRegular, saveRegular]
  split
  · exact (List.append_nil _).symm
  · exact itemsOf_append strType _

theorem itemsOf_directive (letter : UInt8) (appFormat : List UInt8) (typeNum : FormatType) :
    itemsOf [{ type := [letter], appStr := appFormat, typeNum }] =
      (itemOf [letter] appFormat).toList := by
  rw [itemsOf, List.filterMap_cons]
  cases itemOf [letter] appFormat <;> rfl

/-- The items that are due while the run of literal bytes collected so far is `regStr`. -/
def due (regStr : List UInt8) (elements : List Element) : List FormatterItem :=
  itemsOf (saveRegular (regStr ++ run elements) []) ++ meaning (afterRun elements)

theorem run_literal {element : Element} {byte : UInt8} (literal : element.literal = some byte)
    (rest : List Element) : run (element :: rest) = byte :: run rest := by
  rw [run, List.takeWhile_cons, literal]
  exact List.filterMap_cons_some literal

theorem afterRun_literal {element : Element} {byte : UInt8}
    (literal : element.literal = some byte) (rest : List Element) :
    afterRun (element :: rest) = afterRun rest := by
  rw [afterRun, List.dropWhile_cons, literal]
  rfl

theorem due_literal {element : Element} {byte : UInt8} (literal : element.literal = some byte)
    (regStr : List UInt8) (rest : List Element) :
    due regStr (element :: rest) = due (regStr ++ [byte]) rest := by
  rw [due, due, run_literal literal, afterRun_literal literal, List.append_assoc]
  rfl

theorem due_nil (elements : List Element) : due [] elements = meaning elements := by
  cases elements with
  | nil => rfl
  | cons element rest =>
      cases element with
      | character byte =>
          rw [due, run_literal rfl, afterRun_literal rfl, meaning]
          rfl
      | percent =>
          rw [due, run_literal rfl, afterRun_literal rfl, meaning]
          rfl
      | directive letter inside => rfl

theorem due_directive (regStr : List UInt8) (letter : UInt8) (inside : Option (List UInt8))
    (rest : List Element) :
    due regStr (.directive letter inside :: rest) =
      itemsOf (saveRegular regStr []) ++
        ((itemOf [letter] (inside.getD [])).toList ++ due [] rest) := by
  rw [due_nil, due]
  change itemsOf (saveRegular (regStr ++ []) []) ++ meaning (.directive letter inside :: rest) = _
  rw [List.append_nil, meaning]

/-- The entry of a directive stands behind the run that it ends. -/
theorem itemsOf_entry (regStr : List UInt8) (strType : List TypedText) (letter : UInt8)
    (appFormat : List UInt8) (typeNum : FormatType) :
    itemsOf (saveRegular regStr strType ++ [{ type := [letter], appStr := appFormat, typeNum }]) =
      itemsOf strType ++
        (itemsOf (saveRegular regStr []) ++ (itemOf [letter] appFormat).toList) := by
  rw [itemsOf_append, itemsOf_directive, itemsOf_saveRegular, List.append_assoc]

/-- The scanner accepts the text of every sequence of elements and leaves the entries of
its items. -/
theorem scan_of_reads {elements : List Element} {pattern : List UInt8}
    (reads : Reads elements pattern) (i : Nat) (regStr : List UInt8)
    (strType : List TypedText) :
    ∃ regular entries, scan i regStr strType pattern = .ok (regular, entries) ∧
      itemsOf (saveRegular regular entries) = itemsOf strType ++ due regStr elements := by
  induction reads generalizing i regStr strType with
  | done =>
      refine ⟨regStr, strType, by rw [scan], ?_⟩
      rw [itemsOf_saveRegular, due, afterRun, List.dropWhile_nil, meaning, List.append_nil]
      rw [run, List.takeWhile_nil, List.filterMap_nil, List.append_nil]
  | character different _ induction =>
      rw [scan_character different, due_literal rfl]
      exact induction _ _ _
  | percent _ induction =>
      rw [scan_percent, due_literal rfl]
      exact induction _ _ _
  | bare alphabetic bare _ induction =>
      rw [scan_directive alphabetic (additional_bare bare), due_directive]
      rcases induction _ [] _ with ⟨regular, entries, scanned, items⟩
      refine ⟨regular, entries, scanned, ?_⟩
      rw [items, itemsOf_entry]
      simp only [List.append_assoc]
      rfl
  | braced alphabetic unclosed _ induction =>
      rw [scan_directive alphabetic (additional_braced unclosed _), due_directive]
      rcases induction _ [] _ with ⟨regular, entries, scanned, items⟩
      refine ⟨regular, entries, scanned, ?_⟩
      rw [items, itemsOf_entry]
      simp only [List.append_assoc]
      rfl

/-! ## The formatter -/

theorem init_of_reads {elements : List Element} {pattern : List UInt8}
    (reads : Reads elements pattern) :
    Formatter.init pattern =
      { s_pattern := pattern, i_error := 0, v_items := meaning elements } := by
  rcases scan_of_reads reads 0 [] [] with ⟨regular, entries, scanned, items⟩
  rw [Formatter.init, scanned]
  simp only [items, due_nil]
  rfl

/-- A pattern is refused, and then without items, unless it is the text of elements. -/
theorem init_refused {pattern : List UInt8} (unread : ¬∃ elements, Reads elements pattern) :
    Formatter.init pattern = { s_pattern := pattern, i_error := 1, v_items := [] } := by
  cases scanned : scan 0 [] [] pattern with
  | error _ => rw [Formatter.init, scanned]
  | ok result => exact absurd (reads_of_scan scanned) unread

theorem format_eq (date : List UInt8 → Int64 → List UInt8) (formatter : Formatter)
    (event : LogEvent) :
    formatter.format date event = formatter.v_items.flatMap (·.rendering date event) :=
  List.flatMap_eq_foldl.symm

theorem formatter_language (date : List UInt8 → Int64 → List UInt8) (pattern : List UInt8) :
    ((Formatter.init pattern).i_error = 0 ↔ ∃ elements, Reads elements pattern) ∧
      (∀ elements, Reads elements pattern →
        (Formatter.init pattern).v_items = meaning elements) ∧
      ((Formatter.init pattern).i_error ≠ 0 → (Formatter.init pattern).v_items = []) ∧
      ∀ event, (Formatter.init pattern).format date event =
        (Formatter.init pattern).v_items.flatMap (·.rendering date event) := by
  refine ⟨?_, ?_, ?_, format_eq date _⟩
  · constructor
    · intro accepted
      apply Classical.byContradiction
      intro unread
      rw [init_refused unread] at accepted
      cases accepted
    · rintro ⟨elements, reads⟩
      rw [init_of_reads reads]
  · intro elements reads
    rw [init_of_reads reads]
  · intro refused
    by_cases read : ∃ elements, Reads elements pattern
    · rcases read with ⟨elements, reads⟩
      rw [init_of_reads reads] at refused
      exact absurd rfl refused
    · rw [init_refused read]

/-- The pattern of a logger that is given none. -/
theorem formatter_language_default :
    (Formatter.init (Http.text "[%L]%D{%Y-%m-%d %H:%M:%S}%t%s%n")).v_items = [
      .regular (Http.text "["), .level, .regular (Http.text "]"),
      .date (Http.text "%Y-%m-%d %H:%M:%S"), .tab, .message, .newLine] := by
  have language := formatter_language (fun _ _ => [])
    (Http.text "[%L]%D{%Y-%m-%d %H:%M:%S}%t%s%n")
  have reads : Reads [
      .character 91, .directive 76 none, .character 93,
      .directive 68 (some (Http.text "%Y-%m-%d %H:%M:%S")), .directive 116 none,
      .directive 115 none, .directive 110 none]
      (Http.text "[%L]%D{%Y-%m-%d %H:%M:%S}%t%s%n") :=
    .character (by decide) <| .bare rfl (by decide) <| .character (by decide) <|
      .braced rfl (by decide) <|
      .bare rfl (by decide) <| .bare rfl (by decide) <| .bare rfl (by decide) .done
  rw [language.2.1 _ reads]
  simp only [meaning, afterRun, List.dropWhile, Element.literal, Option.isSome]
  rfl

end Log

end FiberNet
