import FiberNet.Http.CutHeader

/-! # The limits on requests

No code compares a header section or a body with its limit: the header loop only looks
at what remains unparsed, and the limits on bodies are read by nobody. A larger message
is refused where the grammar or a callback refuses it as it is cut, and is taken else.
-/

namespace FiberNet

namespace Http

/-- The contents of the reads of a call so far. -/
def readContents {Call : Type} (history : List (List UInt8)) (_ : Call) (read : Read) :
    List (List UInt8) :=
  history ++ [read.content]

theorem content_of_count {read : Read} (positive : 0 < read.count) : read.content ≠ [] := by
  intro empty
  cases read with
  | failed => exact absurd positive (by decide)
  | bytes content =>
      cases empty
      exact absurd positive (by decide)

namespace RequestCall

variable {settings : Settings} {history : List (List UInt8)}

/-- What has come of a header section in some reads. -/
def arrived (settings : Settings) (history : List (List UInt8)) : Header :=
  (requestGrammar settings.uriRelaxed).header history

def Accepts (settings : Settings) (history : List (List UInt8)) : Prop :=
  (requestGrammar settings.uriRelaxed).Accepts (arrived settings history)

instance (settings : Settings) (history : List (List UInt8)) :
    Decidable (Accepts settings history) :=
  inferInstanceAs (Decidable ((requestGrammar _).Accepts _))

/-- The body that the header announces. -/
def declared (settings : Settings) (history : List (List UInt8)) : Nat :=
  ((arrived settings history).declared settings.lexicalCast (text "content-length")).toNat

/-- What has come is larger than a limit. The body is the one that the peer announced,
wherever the cuts are. -/
def Larger (settings : Settings) (history : List (List UInt8)) : Prop :=
  settings.requestHeaderSize < (arrived settings history).bytes ∨
    settings.requestBodySize < declared settings [history.flatten]

def isReturned : RequestCall → Bool
  | .finished (.returned _) => true
  | _ => false

/-- The bytes that a call has reserved for a body. -/
def reserved : RequestCall → Nat
  | .fixedBody _ body _ left => body.length + left
  | .finished (.returned request) => request.body.length
  | _ => 0

/-- The limits are enforced: a request is returned only within them, no larger body is
reserved, and what is larger ends in a closed stream. -/
structure Limited (settings : Settings) (state : RequestCall × List (List UInt8)) : Prop where
  header : ∀ request, state.1 = .finished (.returned request) →
    (arrived settings state.2).bytes ≤ settings.requestHeaderSize
  body : state.1.reserved ≤ settings.requestBodySize
  larger : Larger settings state.2 →
    ∀ outcome, state.1 = .finished outcome → outcome = .null true

/-- What the peer keeps to with a read and those before it: a header that is accepted as
it is cut is not larger, and what is larger is neither cut off by a failing read nor torn
in its query. -/
structure Admissible (settings : Settings) (history : List (List UInt8)) (read : Read) :
    Prop where
  accepted : Accepts settings history →
    ¬ Larger settings history ∧ toInt64 (declared settings history) ≤ settings.requestBodySize
  refused : Larger settings history →
    read ≠ .failed ∧ .backwards ∉ (arrived settings history).readings

def KeepsLimits (settings : Settings) (state : RequestCall × List (List UInt8))
    (read : Read) : Prop :=
  Admissible settings (state.2 ++ [read.content]) read

/-- A call beside what it has read. -/
def Kept (settings : Settings) (history : List (List UInt8)) : RequestCall → Prop
  | .header parser remain =>
      remain = [] ∧ (arrived settings history).remain = [] ∧ 0 < settings.requestHeaderSize ∧
        parser.data.body = [] ∧
        parser.Reflects settings.uriRelaxed (arrived settings history) ∧
        ¬ (requestGrammar settings.uriRelaxed).Ended (arrived settings history)
  | .fixedBody _ body _ left =>
      Accepts settings history ∧ body.length + left ≤ settings.requestBodySize
  | .finished (.returned request) =>
      Accepts settings history ∧ request.body.length ≤ settings.requestBodySize
  | .finished (.null closed) => closed = true
  | .finished _ => ¬ Larger settings history

theorem checked_kept {accesses : List Access} {next : RequestCall}
    (kept : next.Kept settings history) (small : ¬ Larger settings history) :
    (checked settings accesses next).Kept settings history := by
  unfold checked
  split
  · exact kept
  · exact small

theorem finish_kept {request : HttpRequest} (accepts : Accepts settings history)
    (within : request.body.length ≤ settings.requestBodySize) :
    (finish request).Kept settings history := by
  refine ⟨accepts, ?_⟩
  rw [(HttpRequest.unchanged_received _).body]
  exact within

theorem afterHeader_kept {parser : HttpRequestParser} (remain : List UInt8)
    (accepts : Accepts settings history) (small : ¬ Larger settings history)
    (empty : parser.data.body = [])
    (length_le : toInt64 (parser.getContentLength settings.lexicalCast).toNat ≤
      settings.requestBodySize) :
    (afterHeader settings parser remain).Kept settings history := by
  unfold afterHeader
  dsimp only
  revert length_le
  generalize toInt64 (parser.getContentLength settings.lexicalCast).toNat = length
  intro length_le
  split
  · rename_i positive
    split
    · rename_i more
      apply checked_kept _ small
      rw [if_pos (by omega)]
      refine ⟨accepts, ?_⟩
      show remain.length + (length - remain.length).toNat ≤ _
      omega
    · rename_i whole
      apply checked_kept _ small
      apply finish_kept accepts
      show (if (remain.length : Int) ≤ length then remain
        else remain.take length.toNat).length ≤ _
      split
      · omega
      · rw [List.length_take]
        omega
  · apply finish_kept accepts
    rw [empty]
    exact Nat.zero_le _

/-- The header loop behind a read of some bytes. -/
theorem parseHeader_kept {parser : HttpRequestParser} {piece : List UInt8}
    (kept : (header parser []).Kept settings history)
    (accepted : Accepts settings (history ++ [piece]) →
      ¬ Larger settings (history ++ [piece]) ∧
        toInt64 (declared settings (history ++ [piece])) ≤ settings.requestBodySize)
    (ordered : Larger settings (history ++ [piece]) →
      .backwards ∉ (arrived settings (history ++ [piece])).readings) :
    (parseHeader settings parser piece).Kept settings (history ++ [piece]) := by
  rcases kept with ⟨-, drained, positive, empty, reflects, waiting⟩
  have whole : arrived settings (history ++ [piece]) =
      (requestGrammar settings.uriRelaxed).next (arrived settings history) piece :=
    HeaderGrammar.header_append _ history piece
  unfold parseHeader
  cases executed : parser.execute piece with
  | none =>
      have threw : parser.execute ((arrived settings history).remain ++ piece) = none := by
        rwa [drained, List.nil_append]
      have backwards := reflects.execute_none waiting threw
      intro larger
      exact ordered larger (whole ▸ backwards)
  | some result =>
      rcases result with ⟨performed, nparser⟩
      have parsed : parser.execute ((arrived settings history).remain ++ piece) =
          some (performed, nparser) := by
        rwa [drained, List.nil_append]
      rcases reflects.execute waiting parsed with ⟨follows, remain⟩
      rw [← whole] at follows remain
      rw [drained, List.nil_append] at remain
      have bound := HttpRequestParser.execute_le executed
      dsimp only
      rw [checked_of_inBounds (by
        simp only [List.mem_singleton, forall_eq, Access.inBounds, decide_eq_true_eq]
        omega)]
      split
      · exact rfl
      · rename_i correct
        have correct : performed.hasError = false := by simpa using correct
        split
        · exact rfl
        · split
          · rename_i complete
            have accepts := follows.accepts correct complete
            rcases accepted accepts with ⟨small, length_le⟩
            apply afterHeader_kept _ accepts small
            · exact (HttpRequestParser.execute_frame executed).body.trans empty
            · rw [follows.getContentLength]
              exact length_le
          · rename_i unfinished
            have unfinished := not_not.mp unfinished
            have all := HttpRequestParser.execute_all executed correct unfinished
            rw [all, List.drop_length] at remain ⊢
            rw [awaitHeader, checked_of_inBounds (by
              simpa [Access.inBounds] using positive)]
            exact ⟨rfl, remain, positive,
              (HttpRequestParser.execute_frame executed).body.trans empty, follows,
              follows.waits correct unfinished⟩

theorem onHeader_kept {parser : HttpRequestParser} {read : Read}
    (kept : (header parser []).Kept settings history)
    (fits : read.content.length ≤ settings.requestHeaderSize)
    (keeps : Admissible settings (history ++ [read.content]) read) :
    (onHeader settings parser [] read).Kept settings (history ++ [read.content]) := by
  unfold onHeader
  cases read with
  | failed =>
      show (checked settings [.store (-1)] _).Kept _ _
      rw [checked, if_neg (by simp [Access.inBounds])]
      exact fun larger => (keeps.refused larger).1 rfl
  | bytes content =>
      rw [checked_of_inBounds (by
        simpa [Access.inBounds, Read.count] using (show content.length ≤ _ from fits))]
      split
      · exact rfl
      · rw [List.nil_append, List.set_eq_of_length_le (Nat.le_refl _)]
        exact parseHeader_kept kept keeps.accepted fun larger => (keeps.refused larger).2

theorem onBody_kept {parser : HttpRequestParser} {body : List UInt8} {asked left : Nat}
    {read : Read} (fits : read.content.length ≤ left)
    (accepts : Accepts settings history)
    (within : body.length + left ≤ settings.requestBodySize) :
    (onBody parser body asked left read).Kept settings history := by
  unfold onBody
  split
  · exact rfl
  · split
    · refine ⟨accepts, ?_⟩
      show (body ++ read.content).length + (left - read.content.length) ≤ _
      rw [List.length_append]
      omega
    · split
      · exact rfl
      · apply finish_kept accepts
        show (body ++ read.content).length ≤ _
        rw [List.length_append]
        omega

theorem step_kept {call next : RequestCall} {read : Read}
    (kept : call.Kept settings history)
    (keeps : Admissible settings (history ++ [read.content]) read)
    (taken : call.step settings read = some next) :
    next.Kept settings (history ++ [read.content]) := by
  unfold step at taken
  split at taken
  · rename_i fits
    cases call with
    | header parser remain =>
        cases taken
        rcases kept with ⟨rfl, kept⟩
        exact onHeader_kept ⟨rfl, kept⟩ fits keeps
    | fixedBody parser body asked left =>
        cases taken
        exact onBody_kept fits (kept.1.append read.content) kept.2
    | finished outcome => cases taken
  · cases taken

/-- Nothing is not larger than any limit. -/
theorem not_larger_nil (settings : Settings) : ¬ Larger settings [] := by
  rintro (header | body)
  · cases header
  · exact Nat.not_lt_zero _ body

theorem start_kept (settings : Settings) : (start settings).Kept settings [] := by
  unfold start awaitHeader checked
  split
  · rename_i inBounds
    refine ⟨rfl, rfl, ?_, rfl, HttpRequestParser.reflects_start settings.uriRelaxed, ?_⟩
    · simpa [Access.inBounds] using inBounds
    · show ¬ (requestStart = requestError ∨ decide (requestFirstFinal ≤ requestStart) = true)
      decide
  · exact not_larger_nil settings

theorem Kept.limited {call : RequestCall} (kept : call.Kept settings history)
    (accepted : Accepts settings history → ¬ Larger settings history) :
    Limited settings (call, history) where
  header request returned := by
    cases returned
    exact Nat.le_of_not_lt fun header => accepted kept.1 (.inl header)
  body := by
    show call.reserved ≤ _
    unfold reserved
    split
    · exact kept.2
    · exact kept.2
    · exact Nat.zero_le _
  larger larger outcome ended := by
    cases ended
    cases outcome with
    | returned request => exact absurd larger (accepted kept.1)
    | null closed => exact congrArg _ kept
    | threw => exact absurd larger kept
    | fault => exact absurd larger kept

theorem limited_of_reachable {state : RequestCall × List (List UInt8)}
    (reachable : ((recvRequest settings).track [] readContents).ReachableWhere
      (KeepsLimits settings) state) :
    Limited settings state := by
  have invariant : state.1.Kept settings state.2 ∧
      (Accepts settings state.2 → ¬ Larger settings state.2) := by
    apply reachable.invariant
    · rintro ⟨call, history⟩ ⟨starts, rfl⟩
      cases starts
      exact ⟨start_kept settings, fun _ => not_larger_nil settings⟩
    · rintro ⟨call, history⟩ read ⟨next, after⟩ _ ⟨kept, -⟩ keeps taken
      rcases Option.map_eq_some_iff.mp taken with ⟨moved, stepped, same⟩
      cases same
      exact ⟨step_kept kept keeps stepped, fun accepts => (keeps.accepted accepts).1⟩
  exact invariant.1.limited invariant.2

end RequestCall

end Http

end FiberNet
