import FiberNet.Http.Message
import Mathlib.Data.List.TakeWhile

/-! # Forms and cookies

`kvParser` on data without white space, segment by segment. It drops every '=' and does
not store the last segment unless one is in it.
-/

namespace FiberNet

namespace Http

/-! ## Segments -/

/-- What stands before the first '='. -/
def keyOf (segment : List UInt8) : List UInt8 :=
  segment.takeWhile (· ≠ 61)

/-- What remains behind the first '='. -/
def valueOf (segment : List UInt8) : List UInt8 :=
  (segment.dropWhile (· ≠ 61)).drop 1

/-- The value without any '='. -/
def strippedOf (segment : List UInt8) : List UInt8 :=
  (valueOf segment).filter (· ≠ 61)

/-- Every segment is inserted. -/
def inserted (map : MapType) (segments : List (List UInt8)) : MapType :=
  map.setAll (segments.map fun segment => (keyOf segment, urlDecode (valueOf segment)))

/-- Every segment is inserted, its value without any '='. -/
def scanned (map : MapType) (segments : List (List UInt8)) : MapType :=
  map.setAll (segments.map fun segment => (keyOf segment, urlDecode (strippedOf segment)))

theorem other_of_not_mem {segment : List UInt8} (absent : 61 ∉ segment) :
    ∀ byte ∈ segment, decide (byte ≠ 61) = true := by
  intro byte member
  apply decide_eq_true
  rintro rfl
  exact absent member

theorem keyOf_of_not_mem {segment : List UInt8} (absent : 61 ∉ segment) :
    keyOf segment = segment :=
  List.takeWhile_eq_self_iff.mpr (other_of_not_mem absent)

theorem valueOf_of_not_mem {segment : List UInt8} (absent : 61 ∉ segment) :
    valueOf segment = [] := by
  rw [valueOf, List.dropWhile_eq_nil_iff.mpr (other_of_not_mem absent)]
  rfl

theorem keyOf_append {key : List UInt8} (absent : 61 ∉ key) (value : List UInt8) :
    keyOf (key ++ 61 :: value) = key := by
  have whole : key.takeWhile (· ≠ 61) = key := keyOf_of_not_mem absent
  rw [keyOf, List.takeWhile_append, whole, if_pos rfl, List.takeWhile_cons_of_neg (by decide),
    List.append_nil]

theorem valueOf_append {key : List UInt8} (absent : 61 ∉ key) (value : List UInt8) :
    valueOf (key ++ 61 :: value) = value := by
  rw [valueOf, List.dropWhile_append, List.dropWhile_eq_nil_iff.mpr (other_of_not_mem absent),
    List.isEmpty_nil, if_pos rfl, List.dropWhile_cons_of_neg (by decide), List.drop_one,
    List.tail_cons]

/-- The second '=' and those behind it are dropped like the first. -/
theorem segment_equals (segment : List UInt8) :
    keyOf (segment ++ [61]) = keyOf segment ∧
      strippedOf (segment ++ [61]) = strippedOf segment := by
  by_cases present : 61 ∈ segment
  · rcases List.eq_append_cons_of_mem present with ⟨key, value, rfl, absent⟩
    rw [List.append_assoc, List.cons_append, keyOf_append absent, keyOf_append absent,
      strippedOf, strippedOf, valueOf_append absent, valueOf_append absent, List.filter_append]
    exact ⟨rfl, List.append_nil _⟩
  · rw [keyOf_append present, keyOf_of_not_mem present, strippedOf, strippedOf,
      valueOf_append present, valueOf_of_not_mem present]
    exact ⟨rfl, rfl⟩

theorem segment_value {segment : List UInt8} (present : 61 ∈ segment) {byte : UInt8}
    (other : byte ≠ 61) :
    keyOf (segment ++ [byte]) = keyOf segment ∧
      strippedOf (segment ++ [byte]) = strippedOf segment ++ [byte] := by
  rcases List.eq_append_cons_of_mem present with ⟨key, value, rfl, absent⟩
  rw [List.append_assoc, List.cons_append, keyOf_append absent, keyOf_append absent,
    strippedOf, strippedOf, valueOf_append absent, valueOf_append absent, List.filter_append]
  have kept : [byte].filter (· ≠ 61) = [byte] := List.filter_cons_of_pos (decide_eq_true other)
  rw [kept]
  exact ⟨rfl, rfl⟩

theorem segment_key {segment : List UInt8} (absent : 61 ∉ segment) {byte : UInt8}
    (other : byte ≠ 61) :
    keyOf (segment ++ [byte]) = keyOf segment ++ [byte] ∧
      strippedOf (segment ++ [byte]) = strippedOf segment := by
  have still : 61 ∉ segment ++ [byte] := by
    intro member
    rcases List.mem_append.mp member with before | last
    · exact absent before
    · exact other (List.mem_singleton.mp last).symm
  rw [keyOf_of_not_mem still, keyOf_of_not_mem absent, strippedOf, strippedOf,
    valueOf_of_not_mem still, valueOf_of_not_mem absent]
  exact ⟨rfl, rfl⟩

/-! ## The scanner -/

/-- What the scanner makes of the segments: the last one counts if there is an '=' in it. -/
def stored (map : MapType) : List (List UInt8) → MapType
  | [] => map
  | [last] => if 61 ∈ last then map.set (keyOf last) (urlDecode (strippedOf last)) else map
  | segment :: next :: segments =>
      stored (map.set (keyOf segment) (urlDecode (strippedOf segment))) (next :: segments)

theorem stored_cons (map : MapType) (segment : List UInt8) {segments : List (List UInt8)}
    (more : segments ≠ []) :
    stored map (segment :: segments) =
      stored (map.set (keyOf segment) (urlDecode (strippedOf segment))) segments := by
  cases segments with
  | nil => exact absurd rfl more
  | cons next segments => rfl

theorem stored_append (init : List (List UInt8)) : ∀ (map : MapType) (last : List UInt8),
    stored map (init ++ [last]) =
      if 61 ∈ last then scanned map (init ++ [last]) else scanned map init := by
  induction init with
  | nil =>
      intro map last
      rfl
  | cons segment init ih =>
      intro map last
      rw [List.cons_append, stored_cons map segment (by simp), ih]
      rfl

/-- The scanner in the middle of a segment. -/
theorem kvLoop_eq {delim : UInt8} (proper : delim ≠ 61) (data : List UInt8) :
    ∀ (segment : List UInt8) (map : MapType), (∀ byte ∈ data, isSpace byte = false) →
      delim ∉ segment →
      kvLoop delim data (keyOf segment) (strippedOf segment) (decide (61 ∈ segment)) map =
        stored map ((segment ++ data).splitOn delim) := by
  induction data with
  | nil =>
      intro segment map plain clean
      rw [List.append_nil, List.splitOn_eq_singleton clean, kvLoop, stored]
      by_cases present : 61 ∈ segment
      · rw [if_pos (decide_eq_true present), if_pos present]
      · rw [if_neg (by simpa using present), if_neg present]
  | cons byte data ih =>
      intro segment map plain clean
      rcases List.forall_mem_cons.mp plain with ⟨visible, rest⟩
      rw [kvLoop, if_neg (by rw [visible]; decide)]
      by_cases ends : byte = delim
      · subst ends
        rw [if_pos rfl, List.splitOn_append_cons_self_of_not_mem clean,
          stored_cons map segment (List.splitOn_ne_nil byte data)]
        exact ih [] _ rest List.not_mem_nil
      · have longer : delim ∉ segment ++ [byte] := by
          intro member
          rcases List.mem_append.mp member with before | last
          · exact clean before
          · exact ends (List.mem_singleton.mp last).symm
        have next := ih (segment ++ [byte]) map rest longer
        rw [List.append_assoc, List.singleton_append] at next
        rw [if_neg ends, ← next]
        by_cases equals : byte = 61
        · subst equals
          rcases segment_equals segment with ⟨key, value⟩
          rw [if_pos rfl, key, value, decide_eq_true (List.mem_append_right _ List.mem_cons_self)]
        · rw [if_neg equals]
          by_cases present : 61 ∈ segment
          · rcases segment_value present equals with ⟨key, value⟩
            rw [if_pos (decide_eq_true present), key, value, decide_eq_true present,
              decide_eq_true (List.mem_append_left [byte] present)]
          · rcases segment_key present equals with ⟨key, value⟩
            have still : 61 ∉ segment ++ [byte] := by
              intro member
              rcases List.mem_append.mp member with before | last
              · exact present before
              · exact equals (List.mem_singleton.mp last).symm
            rw [if_neg (by simpa using present), key, value, decide_eq_false present,
              decide_eq_false still]

theorem kvParser_eq {delim : UInt8} (proper : delim ≠ 61) {data : List UInt8} {map : MapType}
    (plain : ∀ byte ∈ data, isSpace byte = false) :
    kvParser data map delim = stored map (data.splitOn delim) :=
  kvLoop_eq proper data [] map plain List.not_mem_nil

/-! ## Values that contain an '=' -/

theorem urlDecode_plain {byte : UInt8} (percent : byte ≠ 37) (blank : byte ≠ 32)
    (bytes : List UInt8) : urlDecode (byte :: bytes) = byte :: urlDecode bytes := by
  rw [urlDecode]
  · rintro high low rest rfl
    exact absurd rfl percent
  · exact blank

theorem urlDecode_blank (bytes : List UInt8) : urlDecode (32 :: bytes) = 43 :: urlDecode bytes := by
  rw [urlDecode]

theorem urlDecode_hex {high low : UInt8} (digits : (isHex high && isHex low) = true)
    (bytes : List UInt8) :
    urlDecode (37 :: high :: low :: bytes) =
      UInt8.ofNat (hexToDec high * 16 + hexToDec low) :: urlDecode bytes := by
  rw [urlDecode, if_pos digits]

/-- No digit is a percent sign, a blank or an '='. -/
theorem isHex_plain {byte : UInt8} (digit : isHex byte = true) :
    byte ≠ 37 ∧ byte ≠ 32 ∧ byte ≠ 61 := by
  refine ⟨?_, ?_, ?_⟩ <;> rintro rfl <;> cases digit

theorem urlDecode_digits {high low : UInt8} (digits : (isHex high && isHex low) = true)
    (bytes : List UInt8) :
    urlDecode (high :: low :: bytes) = high :: low :: urlDecode bytes := by
  rw [Bool.and_eq_true] at digits
  rcases isHex_plain digits.1 with ⟨highPercent, highBlank, _⟩
  rcases isHex_plain digits.2 with ⟨lowPercent, lowBlank, _⟩
  rw [urlDecode_plain highPercent highBlank, urlDecode_plain lowPercent lowBlank]

/-- A percent sign is passed through or takes the place of three bytes. -/
theorem urlDecode_percent (bytes : List UInt8) :
    urlDecode (37 :: bytes) = 37 :: urlDecode bytes ∨
    ∃ high low rest, bytes = high :: low :: rest ∧ (isHex high && isHex low) = true := by
  cases bytes with
  | nil =>
      left
      rfl
  | cons high bytes =>
      cases bytes with
      | nil =>
          left
          rw [urlDecode]
          · intro high' low rest _ tail
            cases tail
          · decide
      | cons low rest =>
          by_cases digits : (isHex high && isHex low) = true
          · exact .inr ⟨high, low, rest, rfl, digits⟩
          · left
            rw [urlDecode, if_neg digits]

theorem urlDecode_cons_le (byte : UInt8) (bytes : List UInt8) :
    (urlDecode (byte :: bytes)).length ≤ (urlDecode bytes).length + 1 := by
  by_cases percent : byte = 37
  · subst percent
    rcases urlDecode_percent bytes with through | ⟨high, low, rest, rfl, digits⟩
    · rw [through, List.length_cons]
    · rw [urlDecode_hex digits, urlDecode_digits digits]
      simp only [List.length_cons]
      omega
  · by_cases blank : byte = 32
    · subst blank
      rw [urlDecode_blank, List.length_cons]
    · rw [urlDecode_plain percent blank, List.length_cons]

/-- Each '=' is a byte of the decoded value, and without it there are no fewer digits to
decode. -/
theorem length_urlDecode_stripped (value : List UInt8) :
    (urlDecode (value.filter (· ≠ 61))).length + value.count 61 ≤ (urlDecode value).length := by
  fun_induction urlDecode value with
  | case1 high low bytes digits ih =>
      have both := digits
      rw [Bool.and_eq_true] at both
      have highKept := (isHex_plain both.1).2.2
      have lowKept := (isHex_plain both.2).2.2
      rw [List.filter_cons_of_pos (by decide), List.filter_cons_of_pos (by simpa using highKept),
        List.filter_cons_of_pos (by simpa using lowKept), urlDecode_hex digits,
        List.count_cons_of_ne (by decide), List.count_cons_of_ne highKept,
        List.count_cons_of_ne lowKept, List.length_cons, List.length_cons]
      omega
  | case2 high low bytes digits ih =>
      have shorter := urlDecode_cons_le 37 ((high :: low :: bytes).filter (· ≠ 61))
      rw [List.filter_cons_of_pos (by decide), List.count_cons_of_ne (by decide),
        List.length_cons]
      omega
  | case3 bytes ih =>
      rw [List.filter_cons_of_pos (by decide), urlDecode_blank,
        List.count_cons_of_ne (by decide), List.length_cons, List.length_cons]
      omega
  | case4 byte bytes _ _ ih =>
      by_cases equals : byte = 61
      · subst equals
        rw [List.filter_cons_of_neg (by decide), List.count_cons_self, List.length_cons]
        omega
      · have shorter := urlDecode_cons_le byte (bytes.filter (· ≠ 61))
        rw [List.filter_cons_of_pos (by simpa using equals), List.count_cons_of_ne equals,
          List.length_cons]
        omega
  | case5 => exact Nat.le_refl 0

theorem urlDecode_stripped_iff (value : List UInt8) :
    urlDecode (value.filter (· ≠ 61)) = urlDecode value ↔ 61 ∉ value := by
  constructor
  · intro same present
    have longer := length_urlDecode_stripped value
    have occurs := List.count_pos_iff.mpr present
    rw [same] at longer
    omega
  · intro absent
    rw [List.filter_eq_self.mpr (other_of_not_mem absent)]

theorem urlDecode_eq_nil_iff (value : List UInt8) : urlDecode value = [] ↔ value = [] := by
  fun_cases urlDecode value with
  | case1 | case2 | case3 | case4 | case5 => simp

/-! ## When the scanner inserts every segment -/

/-- The keys are the same to the map. -/
def SameKey (left right : List UInt8) : Prop :=
  folded (keyOf left) = folded (keyOf right)

/-- No value that counts has an '=' in it: only the last segment of a key counts. -/
def ValuesWhole (segments : List (List UInt8)) : Prop :=
  ∀ before segment after, segments = before ++ segment :: after →
    (∀ later ∈ after, ¬SameKey later segment) → 61 ∉ valueOf segment

/-- The last segment has an '=', or its key has the empty value without it: from the last
segment of its key before it, or from the given map. -/
def EndKept (map : MapType) (segments : List (List UInt8)) : Prop :=
  ∀ init last, segments = init ++ [last] → 61 ∈ last ∨
    (∃ before segment after, init = before ++ segment :: after ∧ SameKey segment last ∧
      (∀ later ∈ after, ¬SameKey later last) ∧ ∀ byte ∈ valueOf segment, byte = 61) ∨
    ((∀ segment ∈ init, ¬SameKey segment last) ∧ map.find (keyOf last) = some [])

variable {map : MapType} {value : List UInt8 → List UInt8}

theorem find_segments_of_last {before after : List (List UInt8)} {segment other : List UInt8}
    (same : SameKey segment other) (last : ∀ later ∈ after, ¬SameKey later other) :
    (map.setAll ((before ++ segment :: after).map fun segment =>
      (keyOf segment, value segment))).find (keyOf other) = some (value segment) := by
  have equivalent : folded (keyOf segment, value segment).1 = folded (keyOf other) := same
  rw [List.map_append, List.map_cons]
  apply OrderedMap.find_setAll_of_last equivalent
  intro entry member
  rcases List.mem_map.mp member with ⟨later, later_mem, rfl⟩
  exact last later later_mem

theorem find_segments_of_absent {segments : List (List UInt8)} {key : List UInt8}
    (absent : ∀ segment ∈ segments, folded (keyOf segment) ≠ folded key) :
    (map.setAll (segments.map fun segment => (keyOf segment, value segment))).find key =
      map.find key := by
  apply OrderedMap.find_setAll_of_absent
  intro entry member
  rcases List.mem_map.mp member with ⟨segment, segment_mem, rfl⟩
  exact absent segment segment_mem

/-- The last segment of a key, if there is one. -/
theorem last_segment (key : List UInt8) (segments : List (List UInt8)) :
    (∀ segment ∈ segments, folded (keyOf segment) ≠ folded key) ∨
    ∃ before segment after, segments = before ++ segment :: after ∧
      folded (keyOf segment) = folded key ∧
      ∀ later ∈ after, folded (keyOf later) ≠ folded key := by
  induction segments with
  | nil =>
      left
      intro segment member
      cases member
  | cons head segments ih =>
      rcases ih with absent | ⟨before, segment, after, rfl, same, last⟩
      · by_cases here : folded (keyOf head) = folded key
        · exact .inr ⟨[], head, segments, rfl, here, absent⟩
        · left
          intro segment member
          rcases List.mem_cons.mp member with rfl | later
          · exact here
          · exact absent segment later
      · exact .inr ⟨head :: before, segment, after, rfl, same, last⟩

theorem scanned_eq_inserted_iff (map : MapType) (segments : List (List UInt8)) :
    scanned map segments = inserted map segments ↔ ValuesWhole segments := by
  constructor
  · rintro same before segment after rfl last
    have found := congrArg (fun map => map.find (keyOf segment)) same
    simp only [scanned, inserted] at found
    rw [@find_segments_of_last map (fun segment => urlDecode (strippedOf segment)) _ _ _ segment
        rfl last,
      @find_segments_of_last map (fun segment => urlDecode (valueOf segment)) _ _ _ segment
        rfl last] at found
    exact (urlDecode_stripped_iff _).mp (Option.some.inj found)
  · intro whole
    apply OrderedMap.eq_of_find
    · apply OrderedMap.keys_setAll
      · rw [List.map_map, List.map_map]
        rfl
      · rfl
    · intro key
      rcases last_segment key segments with absent | ⟨before, segment, after, rfl, same, last⟩
      · rw [scanned, inserted, find_segments_of_absent absent, find_segments_of_absent absent]
      · have only : ∀ later ∈ after, ¬SameKey later segment := by
          intro later member equal
          exact last later member (equal.trans same)
        have equal := (urlDecode_stripped_iff _).mpr (whole before segment after rfl only)
        rw [← OrderedMap.find_congr same, ← OrderedMap.find_congr same, scanned, inserted,
          find_segments_of_last rfl only, find_segments_of_last rfl only, strippedOf, equal]

/-- When the key of the last segment has the empty value before it. -/
theorem find_scanned_iff (map : MapType) (init : List (List UInt8)) (last : List UInt8) :
    (scanned map init).find (keyOf last) = some [] ↔
      (∃ before segment after, init = before ++ segment :: after ∧ SameKey segment last ∧
        (∀ later ∈ after, ¬SameKey later last) ∧ ∀ byte ∈ valueOf segment, byte = 61) ∨
      ((∀ segment ∈ init, ¬SameKey segment last) ∧ map.find (keyOf last) = some []) := by
  have empty : ∀ segment, urlDecode (strippedOf segment) = [] ↔
      ∀ byte ∈ valueOf segment, byte = 61 := by
    intro segment
    rw [urlDecode_eq_nil_iff, strippedOf, List.filter_eq_nil_iff]
    simp
  constructor
  · intro found
    rcases last_segment (keyOf last) init with absent | ⟨before, segment, after, rfl, same, later⟩
    · rw [scanned, find_segments_of_absent absent] at found
      exact .inr ⟨absent, found⟩
    · rw [scanned, find_segments_of_last same later] at found
      exact .inl ⟨before, segment, after, rfl, same, later,
        (empty segment).mp (Option.some.inj found)⟩
  · rintro (⟨before, segment, after, rfl, same, later, equals⟩ | ⟨absent, found⟩)
    · rw [scanned, find_segments_of_last same later, (empty segment).mpr equals]
    · rw [scanned, find_segments_of_absent absent, found]

theorem scanned_append (map : MapType) (init : List (List UInt8)) (last : List UInt8) :
    scanned map (init ++ [last]) =
      (scanned map init).set (keyOf last) (urlDecode (strippedOf last)) := by
  rw [scanned, List.map_append, OrderedMap.setAll_append]
  rfl

/-- The parser inserts every segment if and only if no value that counts has an '=' in it and
the last segment is not lost. -/
theorem kvParser_iff {delim : UInt8} (delimiter : delim = 38 ∨ delim = 59) {data : List UInt8}
    (plain : ∀ byte ∈ data, isSpace byte = false) (map : MapType) :
    kvParser data map delim = inserted map (data.splitOn delim) ↔
      ValuesWhole (data.splitOn delim) ∧ EndKept map (data.splitOn delim) := by
  have proper : delim ≠ 61 := by rcases delimiter with rfl | rfl <;> decide
  rw [kvParser_eq proper plain]
  rcases List.eq_nil_or_concat (data.splitOn delim) with none | ⟨init, last, split⟩
  · exact absurd none (List.splitOn_ne_nil delim data)
  · rw [List.concat_eq_append] at split
    rw [split, stored_append, ← scanned_eq_inserted_iff map]
    have ends : EndKept map (init ++ [last]) ↔
        61 ∈ last ∨ (scanned map init).find (keyOf last) = some [] := by
      rw [find_scanned_iff]
      constructor
      · intro kept
        exact kept init last rfl
      · rintro kept init' last' same
        rcases List.append_inj' same rfl with ⟨rfl, lasts⟩
        cases lasts
        exact kept
    rw [ends]
    by_cases present : 61 ∈ last
    · rw [if_pos present]
      exact ⟨fun same => ⟨same, .inl present⟩, fun both => both.1⟩
    · have lost : scanned map (init ++ [last]) = (scanned map init).set (keyOf last) [] := by
        rw [scanned_append, strippedOf, valueOf_of_not_mem present]
        rfl
      have inserts : inserted map (init ++ [last]) =
          (inserted map init).set (keyOf last) [] := by
        rw [inserted, List.map_append, OrderedMap.setAll_append]
        simp only [List.map_cons, List.map_nil, valueOf_of_not_mem present]
        rfl
      rw [if_neg present, lost]
      constructor
      · intro same
        have found : (scanned map init).find (keyOf last) = some [] := by
          rw [same, inserts, OrderedMap.find_set_same]
        exact ⟨(OrderedMap.set_of_find found).trans same, .inr found⟩
      · rintro ⟨same, kept⟩
        rw [← same, OrderedMap.set_of_find (kept.resolve_left present)]

/-- The data is "b&a=1": a key alone, and one with a value. -/
theorem kvParser_segments :
    kvParser [98, 38, 97, 61, 49] ∅ 38 = inserted ∅ ([98, 38, 97, 61, 49].splitOn 38) := by
  have split : [98, 38, 97, 61, 49].splitOn (38 : UInt8) = [[98], [97, 61, 49]] := by decide
  apply (kvParser_iff (.inl rfl) (by simp [isSpace]) ∅).mpr
  rw [split]
  constructor
  · intro before segment after same _
    have member : segment ∈ [[98], [97, 61, 49]] :=
      same ▸ List.mem_append_right _ List.mem_cons_self
    rcases List.mem_pair.mp member with alone | pair
    · rw [alone]
      decide
    · rw [pair]
      decide
  · intro init last same
    have ends := congrArg List.getLast? same
    rw [List.getLast?_concat] at ends
    cases ends
    exact .inl (by decide)

/-- The data is "a". Its only segment is lost. -/
theorem not_kvParser : ¬∀ (data : List UInt8) (map : MapType),
    (∀ byte ∈ data, isSpace byte = false) →
    kvParser data map 38 = inserted map (data.splitOn 38) := by
  intro parser
  have found := congrArg (fun map => map.find [97]) (parser [97] ∅ (by simp [isSpace]))
  rw [List.splitOn_eq_singleton (by decide)] at found
  exact absurd found (by decide)

end Http

end FiberNet
