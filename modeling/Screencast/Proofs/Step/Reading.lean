import Mathlib.Data.List.Permutation
import Screencast.Json.Reader
import Screencast.Step.Record

/-!
# Which records are steps

`Step.Asks` says what a record has to hold to ask for a step.  `Step.verdict_ofRecord` says what reading a
record comes to: the step that it asks for, a step error, or the failure to cut a number without an
integer part down to one.  Nothing else can come of it, and each of these comes of the records described
here only: `Step.reading`.
-/

namespace Screencast

/-! ## Names -/

namespace Text

theorem mapM_char?_eq_some_iff {text : Text} {cs : List Char} :
    text.mapM CodePoint.char? = some cs ↔ text = ofChars cs := by
  induction text generalizing cs with
  | nil =>
      cases cs with
      | nil => exact iff_of_true rfl rfl
      | cons c cs => exact iff_of_false nofun nofun
  | cons c rest ih =>
      rw [List.mapM_cons]
      cases c with
      | surrogate index =>
          refine iff_of_false nofun fun h => ?_
          cases cs with
          | nil => cases h
          | cons d cs => cases (List.cons.inj h).1
      | char c =>
          cases hrest : rest.mapM CodePoint.char? with
          | none =>
              refine iff_of_false nofun fun h => ?_
              cases cs with
              | nil => cases h
              | cons d cs =>
                  rw [ih.mpr (List.cons.inj h).2] at hrest
                  cases hrest
          | some others =>
              obtain rfl := ih.mp hrest
              constructor
              · rintro ⟨⟩
                rfl
              · intro h
                cases cs with
                | nil => cases h
                | cons d cs =>
                    obtain ⟨hfirst, hothers⟩ := List.cons.inj h
                    obtain rfl : c = d := CodePoint.char.inj hfirst
                    rw [ih.mpr hothers] at hrest
                    rw [← Option.some.inj hrest]
                    rfl

/-- A text is read as a string exactly if it is the text of that string. -/
theorem string?_eq_some_iff {text : Text} {s : String} : text.string? = some s ↔ text = s := by
  rw [string?, Option.map_eq_some_iff]
  constructor
  · rintro ⟨cs, hcs, rfl⟩
    rw [mapM_char?_eq_some_iff.mp hcs, ofString, String.toList_ofList]
  · rintro rfl
    exact ⟨s.toList, mapM_char?_eq_some_iff.mpr rfl, String.ofList_toList⟩

end Text

/-! ## Numbers without an integer part -/

/-- A number without an integer part, and why it has none. -/
inductive Number.Unbounded : Number → ArithmeticError → Prop where
  | nan : Unbounded (.real .nan) .nanToInteger
  | infinite (negative : Bool) : Unbounded (.real (.infinite negative)) .infinityToInteger

theorem Number.truncate_eq_error_iff {x : Number} {fault : ArithmeticError} :
    x.truncate = .error fault ↔ x.Unbounded fault := by
  constructor
  · intro h
    match x, h with
    | .real .nan, h =>
        cases h
        exact .nan
    | .real (.infinite negative), h =>
        cases h
        exact .infinite negative
  · rintro (_ | negative)
    · rfl
    · rfl

namespace StepError

/-- What is told of an error. -/
inductive Kind where
  | unknownAction
  | invalidPayload
  /-- An error that is no step error. -/
  | arithmetic (fault : ArithmeticError)
  deriving DecidableEq

def kind : StepError → Kind
  | .unknownAction _ => .unknownAction
  | .badPosition fault => .arithmetic fault
  | .notAnObject _ | .noText _ | .noAwaitedText _ | .badCount _ | .badSpan _ | .badTimeout _ =>
    .invalidPayload

end StepError

namespace Step

/-! ## Records -/

/-- The names of the actions. -/
def actions : List String :=
  ["type", "delete", "enter", "paste", "copy", "clear", "waitForOutput"]

/-- A record with an action of this name. -/
def Names (record : Json) (action : String) : Prop :=
  record.get? "action" = some (.string action)

/-- A record with four numbers for the ends of a span. -/
structure Spans (record : Json) (startLine startColumn endLine endColumn : Number) : Prop where
  action : Names record "copy"
  members : ∃ payload, record.get? "payload" = some payload ∧
    payload.get? "startLine" = some (.ofNumber startLine) ∧
    payload.get? "startPos" = some (.ofNumber startColumn) ∧
    payload.get? "endLine" = some (.ofNumber endLine) ∧
    payload.get? "endPos" = some (.ofNumber endColumn)

/-- The member that says how long to wait, if there is one. -/
def timeoutMember (record : Json) : Json :=
  match record.get? "timeoutMs", record.get? "timeout" with
  | some value, _ => value
  | none, some value => value
  | none, none => .int defaultTimeout

/-- What a record has to hold to ask for a step. -/
inductive Asks (record : Json) : Step → Prop where
  | typeText {payload : Json} (action : Names record "type")
      (text : record.get? "payload" = some payload) (given : payload ≠ .null) :
      Asks record (.typeText payload.display)
  | delete {count : Nat} (action : Names record "delete")
      (number : record.get? "payload" = some (.int count)) : Asks record (.delete count)
  | enter (action : Names record "enter") : Asks record .enter
  | paste (action : Names record "paste") : Asks record .paste
  | copy {a b c d : Number} {span : Span} (ends : Spans record a b c d)
      (startLine : a.truncate = .ok span.startLine) (startColumn : b.truncate = .ok span.startColumn)
      (endLine : c.truncate = .ok span.endLine) (endColumn : d.truncate = .ok span.endColumn) :
      Asks record (.copy span)
  | clear (action : Names record "clear") : Asks record .clear
  | waitFor {payload : Json} {timeout : Number} (action : Names record "waitForOutput")
      (text : record.get? "payload" = some payload) (given : payload ≠ .null)
      (wait : timeoutMember record = .ofNumber timeout) (nonnegative : timeout.isNegative = false) :
      Asks record (.waitFor payload.display timeout)

/-- An object whose action is none of the seven. -/
structure UnknownAction (record : Json) : Prop where
  object : ∃ members, record = .object members
  action : ∀ action ∈ actions, ¬Names record action

/-- A record with four numbers for the ends of a span, one of which has no integer part; it is the first
one of them. -/
def UnboundedSpan (record : Json) (fault : ArithmeticError) : Prop :=
  ∃ a b c d before number later, Spans record a b c d ∧ [a, b, c, d] = before ++ number :: later ∧
    (∀ other ∈ before, ∃ n, other.truncate = .ok n) ∧ number.Unbounded fault

/-- What may come of reading a record. -/
inductive Verdict (record : Json) : Except StepError Step → Prop where
  | asked {step : Step} (asks : Asks record step) : Verdict record (.ok step)
  | unknown {error : StepError} (unknown : UnknownAction record) (kind : error.kind = .unknownAction) :
      Verdict record (.error error)
  | unbounded {error : StepError} {fault : ArithmeticError} (span : UnboundedSpan record fault)
      (kind : error.kind = .arithmetic fault) : Verdict record (.error error)
  | invalid {error : StepError} (kind : error.kind = .invalidPayload) : Verdict record (.error error)

/-! ## The members of a record -/

variable {record : Json}

theorem payloadText?_eq_some_iff {text : Text} : payloadText? record = some text ↔
    ∃ payload, record.get? "payload" = some payload ∧ payload ≠ .null ∧ payload.display = text := by
  unfold payloadText?
  cases record.get? "payload" with
  | none => exact iff_of_false nofun nofun
  | some payload =>
      cases payload with
      | null =>
          refine iff_of_false nofun ?_
          rintro ⟨_, ⟨⟩, hnull, -⟩
          exact hnull rfl
      | _ =>
          constructor
          · rintro ⟨⟩
            exact ⟨_, rfl, nofun, rfl⟩
          · rintro ⟨_, ⟨⟩, -, rfl⟩
            rfl

theorem payloadCount?_eq_some_iff {count : Nat} :
    payloadCount? record = some count ↔ record.get? "payload" = some (.int count) := by
  unfold payloadCount?
  constructor
  · intro h
    split at h
    · next n hn =>
      split at h
      · cases h
      · obtain rfl := Option.some.inj h
        rw [hn, Int.toNat_of_nonneg (by omega)]
    · cases h
  · intro h
    rw [h]
    simp

theorem number?_eq_some_iff {value : Json} {number : Number} :
    value.number? = some number ↔ value = .ofNumber number := by
  cases value <;> cases number <;> simp [Json.number?, Json.ofNumber]

theorem payloadSpan?_eq_some_iff (h : Names record "copy") {a b c d : Number} :
    payloadSpan? record = some (a, b, c, d) ↔ Spans record a b c d := by
  have hfield (payload : Json) (name : String) (number : Number) :
      (payload.get? name).bind Json.number? = some number ↔
        payload.get? name = some (.ofNumber number) := by
    rw [Option.bind_eq_some_iff]
    constructor
    · rintro ⟨value, hvalue, hnumber⟩
      rw [hvalue, number?_eq_some_iff.mp hnumber]
    · intro hvalue
      exact ⟨_, hvalue, number?_eq_some_iff.mpr rfl⟩
  simp only [payloadSpan?, bind, pure, Option.bind_eq_some_iff, hfield]
  constructor
  · rintro ⟨payload, hpayload, a, ha, b, hb, c, hc, d, hd, ⟨⟩⟩
    exact ⟨h, payload, hpayload, ha, hb, hc, hd⟩
  · rintro ⟨-, payload, hpayload, ha, hb, hc, hd⟩
    exact ⟨payload, hpayload, a, ha, b, hb, c, hc, d, hd, rfl⟩

theorem timeout?_eq_some_iff {timeout : Number} : timeout? record = some timeout ↔
    timeoutMember record = .ofNumber timeout ∧ timeout.isNegative = false := by
  have hmember : ((record.get? "timeoutMs").orElse fun _ => record.get? "timeout").getD
      (.int defaultTimeout) = timeoutMember record := by
    unfold timeoutMember
    cases record.get? "timeoutMs" with
    | none => cases record.get? "timeout" <;> rfl
    | some value => rfl
  simp only [timeout?, hmember]
  constructor
  · intro h
    split at h
    · next number hnumber =>
      split at h
      · cases h
      · next hnonnegative =>
        obtain rfl := Option.some.inj h
        exact ⟨number?_eq_some_iff.mp hnumber, Bool.not_eq_true _ ▸ hnonnegative⟩
    · cases h
  · rintro ⟨hwait, hnonnegative⟩
    simp only [number?_eq_some_iff.mpr hwait, hnonnegative, Bool.false_eq_true, if_false]

/-- Four numbers are cut down to integers from the first one to the last one. -/
theorem truncateSpan_eq_mapM (a b c d : Number) :
    (truncateSpan (a, b, c, d)).map (fun span => [span.startLine, span.startColumn, span.endLine,
      span.endColumn]) = [a, b, c, d].mapM Number.truncate := by
  simp only [truncateSpan, List.mapM_cons, List.mapM_nil]
  cases a.truncate with
  | error fault => rfl
  | ok startLine =>
      cases b.truncate with
      | error fault => rfl
      | ok startColumn =>
          cases c.truncate with
          | error fault => rfl
          | ok endLine =>
              cases d.truncate with
              | error fault => rfl
              | ok endColumn => rfl

/-- The first failure decides. -/
theorem mapM_eq_error_iff {α β ε : Type} {f : α → Except ε β} {xs : List α} {error : ε} :
    xs.mapM f = .error error ↔ ∃ before x later, xs = before ++ x :: later ∧
      (∀ y ∈ before, ∃ z, f y = .ok z) ∧ f x = .error error := by
  induction xs with
  | nil =>
      refine iff_of_false nofun ?_
      rintro ⟨before, x, later, h, -⟩
      cases before <;> cases h
  | cons first rest ih =>
      rw [List.mapM_cons]
      cases hfirst : f first with
      | error reason =>
          constructor
          · rintro ⟨⟩
            exact ⟨[], first, rest, rfl, nofun, hfirst⟩
          · rintro ⟨before, x, later, h, hbefore, hx⟩
            cases before with
            | nil =>
                cases h
                rw [hfirst] at hx
                cases hx
                rfl
            | cons y before =>
                obtain ⟨rfl, -⟩ := List.cons.inj h
                obtain ⟨z, hz⟩ := hbefore first List.mem_cons_self
                rw [hfirst] at hz
                cases hz
      | ok z =>
          have hrest : (do
                let z ← Except.ok z
                let others ← rest.mapM f
                return z :: others : Except ε (List β)) = .error error ↔
              rest.mapM f = .error error := by
            cases rest.mapM f with
            | error reason => exact Iff.rfl.trans ⟨fun h => by cases h; rfl, fun h => by cases h; rfl⟩
            | ok others => exact iff_of_false nofun nofun
          rw [hrest, ih]
          constructor
          · rintro ⟨before, x, later, rfl, hbefore, hx⟩
            exact ⟨first :: before, x, later, rfl, List.forall_mem_cons.mpr ⟨⟨z, hfirst⟩, hbefore⟩, hx⟩
          · rintro ⟨before, x, later, h, hbefore, hx⟩
            cases before with
            | nil =>
                cases h
                rw [hfirst] at hx
                cases hx
            | cons y before =>
                obtain ⟨rfl, rfl⟩ := List.cons.inj h
                exact ⟨before, x, later, rfl, (List.forall_mem_cons.mp hbefore).2, hx⟩

theorem truncateSpan_eq_ok_iff {a b c d : Number} {span : Span} :
    truncateSpan (a, b, c, d) = .ok span ↔ a.truncate = .ok span.startLine ∧
      b.truncate = .ok span.startColumn ∧ c.truncate = .ok span.endLine ∧
      d.truncate = .ok span.endColumn := by
  simp only [truncateSpan]
  cases a.truncate with
  | error fault => exact iff_of_false nofun nofun
  | ok startLine =>
      cases b.truncate with
      | error fault => exact iff_of_false nofun nofun
      | ok startColumn =>
          cases c.truncate with
          | error fault => exact iff_of_false nofun nofun
          | ok endLine =>
              cases d.truncate with
              | error fault => exact iff_of_false nofun nofun
              | ok endColumn =>
                  constructor
                  · rintro ⟨⟩
                    exact ⟨rfl, rfl, rfl, rfl⟩
                  · rintro ⟨⟨⟩, ⟨⟩, ⟨⟩, ⟨⟩⟩
                    rfl

theorem truncateSpan_eq_error_iff {a b c d : Number} {fault : ArithmeticError} :
    truncateSpan (a, b, c, d) = .error fault ↔ ∃ before number later,
      [a, b, c, d] = before ++ number :: later ∧
      (∀ other ∈ before, ∃ n, other.truncate = .ok n) ∧ number.Unbounded fault := by
  have hmap := truncateSpan_eq_mapM a b c d
  have hsame : truncateSpan (a, b, c, d) = .error fault ↔
      [a, b, c, d].mapM Number.truncate = .error fault := by
    rw [← hmap]
    cases truncateSpan (a, b, c, d) with
    | error reason => exact ⟨fun h => by cases h; rfl, fun h => by cases h; rfl⟩
    | ok span => exact iff_of_false nofun nofun
  simp only [hsame, mapM_eq_error_iff, Number.truncate_eq_error_iff]

/-! ## Reading a record -/

theorem ofRecord_of_names {action : String} (h : Names record action) :
    ofRecord record = ofAction action record := by
  unfold Names at h
  cases record with
  | object members => simp only [ofRecord, h, Option.getD_some]
  | _ => cases h

/-- An action that is none of the seven is reported. -/
theorem ofAction_of_not_mem {text : Text} (h : ∀ action ∈ actions, text ≠ .ofString action) :
    ofAction text record = .error (.unknownAction (.string text)) := by
  have hname : ∀ action ∈ actions, text.string? ≠ some action :=
    fun action hmem hsome => h action hmem (Text.string?_eq_some_iff.mp hsome)
  simp only [actions, List.forall_mem_cons] at hname
  obtain ⟨htype, hdelete, henter, hpaste, hcopy, hclear, hwait, -⟩ := hname
  unfold ofAction
  split <;> first | rfl | contradiction

/-- A step that a record asks for is given. -/
theorem ofRecord_of_asks {step : Step} (h : Asks record step) : ofRecord record = .ok step := by
  have hstring (action : String) : (Text.ofString action).string? = some action :=
    Text.string?_eq_some_iff.mpr rfl
  cases h with
  | typeText action text given =>
      have htext := payloadText?_eq_some_iff.mpr ⟨_, text, given, rfl⟩
      rw [ofRecord_of_names action, ofAction, hstring]
      simp only [htext]
      rfl
  | delete action number =>
      rw [ofRecord_of_names action, ofAction, hstring]
      simp only [payloadCount?_eq_some_iff.mpr number]
      rfl
  | enter action => simp only [ofRecord_of_names action, ofAction, hstring]
  | paste action => simp only [ofRecord_of_names action, ofAction, hstring]
  | copy ends startLine startColumn endLine endColumn =>
      have hnumbers := (payloadSpan?_eq_some_iff ends.action).mpr ends
      have hspan := truncateSpan_eq_ok_iff.mpr ⟨startLine, startColumn, endLine, endColumn⟩
      rw [ofRecord_of_names ends.action, ofAction, hstring]
      simp only [ofCopyRecord, hnumbers, hspan]
  | clear action => simp only [ofRecord_of_names action, ofAction, hstring]
  | waitFor action text given wait nonnegative =>
      have htext := payloadText?_eq_some_iff.mpr ⟨_, text, given, rfl⟩
      have htimeout := timeout?_eq_some_iff.mpr ⟨wait, nonnegative⟩
      rw [ofRecord_of_names action, ofAction, hstring]
      simp only [ofWaitRecord, htext, htimeout]

theorem ofRecord_of_unknown (h : UnknownAction record) :
    ∃ value, ofRecord record = .error (.unknownAction value) := by
  obtain ⟨⟨members, rfl⟩, haction⟩ := h
  cases hvalue : Json.get? "action" (.object members) with
  | none => exact ⟨.null, by simp only [ofRecord, hvalue, Option.getD_none]⟩
  | some value =>
      simp only [ofRecord, hvalue, Option.getD_some]
      split
      · next text =>
        have hnames : ∀ action ∈ actions, text ≠ .ofString action :=
          fun action hmem htext => haction action hmem (by rw [Names, hvalue, htext])
        exact ⟨_, ofAction_of_not_mem hnames⟩
      · exact ⟨_, rfl⟩

theorem ofRecord_of_unbounded {fault : ArithmeticError} (h : UnboundedSpan record fault) :
    ofRecord record = .error (.badPosition fault) := by
  obtain ⟨a, b, c, d, before, number, later, hends, hsplit⟩ := h
  have hstring : (Text.ofString "copy").string? = some "copy" := Text.string?_eq_some_iff.mpr rfl
  have hnumbers := (payloadSpan?_eq_some_iff hends.action).mpr hends
  have hfault := truncateSpan_eq_error_iff.mpr ⟨before, number, later, hsplit⟩
  rw [ofRecord_of_names hends.action, ofAction, hstring]
  simp only [ofCopyRecord, hnumbers, hfault]

/-- What becomes of a record with one of the seven actions. -/
theorem verdict_of_names {action : String} (hmem : action ∈ actions) (h : Names record action) :
    Verdict record (ofRecord record) := by
  have hstring (action : String) : (Text.ofString action).string? = some action :=
    Text.string?_eq_some_iff.mpr rfl
  rw [ofRecord_of_names h, ofAction, hstring]
  simp only [actions, List.mem_cons, List.not_mem_nil, or_false] at hmem
  rcases hmem with rfl | rfl | rfl | rfl | rfl | rfl | rfl
  · -- typing
    cases htext : payloadText? record with
    | none => exact .invalid rfl
    | some text =>
        obtain ⟨payload, hpayload, hgiven, rfl⟩ := payloadText?_eq_some_iff.mp htext
        exact .asked (.typeText h hpayload hgiven)
  · -- deleting
    cases hcount : payloadCount? record with
    | none => exact .invalid rfl
    | some count => exact .asked (.delete h (payloadCount?_eq_some_iff.mp hcount))
  · exact .asked (.enter h)
  · exact .asked (.paste h)
  · -- copying
    simp only [ofCopyRecord]
    cases hnumbers : payloadSpan? record with
    | none => exact .invalid rfl
    | some numbers =>
        obtain ⟨a, b, c, d⟩ := numbers
        have hends := (payloadSpan?_eq_some_iff h).mp hnumbers
        cases hspan : truncateSpan (a, b, c, d) with
        | error fault =>
            simp only [hspan]
            obtain ⟨before, number, later, hsplit⟩ := truncateSpan_eq_error_iff.mp hspan
            exact .unbounded ⟨a, b, c, d, before, number, later, hends, hsplit⟩ rfl
        | ok span =>
            simp only [hspan]
            obtain ⟨ha, hb, hc, hd⟩ := truncateSpan_eq_ok_iff.mp hspan
            exact .asked (.copy hends ha hb hc hd)
  · exact .asked (.clear h)
  · -- waiting
    simp only [ofWaitRecord]
    cases htext : payloadText? record with
    | none => exact .invalid rfl
    | some text =>
        obtain ⟨payload, hpayload, hgiven, rfl⟩ := payloadText?_eq_some_iff.mp htext
        cases htimeout : timeout? record with
        | none => exact .invalid rfl
        | some timeout =>
            obtain ⟨hwait, hnonnegative⟩ := timeout?_eq_some_iff.mp htimeout
            exact .asked (.waitFor h hpayload hgiven hwait hnonnegative)

theorem verdict_ofRecord (record : Json) : Verdict record (ofRecord record) := by
  by_cases hknown : ∃ action ∈ actions, Names record action
  · obtain ⟨action, hmem, haction⟩ := hknown
    exact verdict_of_names hmem haction
  · cases record with
    | object members =>
        have hunknown : UnknownAction (.object members) :=
          ⟨⟨members, rfl⟩, fun action hmem haction => hknown ⟨action, hmem, haction⟩⟩
        obtain ⟨value, hvalue⟩ := ofRecord_of_unknown hunknown
        rw [hvalue]
        exact .unknown hunknown rfl
    | _ => exact .invalid rfl

/-! ## What comes of which records -/

/-- What reading a record comes to, and for which records. -/
structure Reading (record : Json) : Prop where
  step : ∀ step, ofRecord record = .ok step ↔ Asks record step
  unknown : (∃ error, ofRecord record = .error error ∧ error.kind = .unknownAction) ↔
    UnknownAction record
  /-- The only errors that are no step errors come of a span with a number that has no integer part. -/
  fault : ∀ fault, (∃ error, ofRecord record = .error error ∧ error.kind = .arithmetic fault) ↔
    UnboundedSpan record fault
  invalid : (∃ error, ofRecord record = .error error ∧ error.kind = .invalidPayload) ↔
    (∀ step, ¬Asks record step) ∧ ¬UnknownAction record ∧ ∀ fault, ¬UnboundedSpan record fault

/-- Every record is read as the step that it asks for, or reported for what is wrong with it. -/
theorem reading (record : Json) : Reading record := by
  have hverdict := verdict_ofRecord record
  refine ⟨fun step => ⟨fun h => ?_, ofRecord_of_asks⟩, ⟨?_, fun h => ?_⟩, fun fault => ⟨?_, fun h => ?_⟩,
    ⟨?_, fun h => ?_⟩⟩
  · rw [h] at hverdict
    cases hverdict with
    | asked asks => exact asks
  · rintro ⟨error, herror, hkind⟩
    rw [herror] at hverdict
    cases hverdict with
    | unknown unknown kind => exact unknown
    | unbounded span kind => cases hkind.symm.trans kind
    | invalid kind => cases hkind.symm.trans kind
  · obtain ⟨value, hvalue⟩ := ofRecord_of_unknown h
    exact ⟨_, hvalue, rfl⟩
  · rintro ⟨error, herror, hkind⟩
    rw [herror] at hverdict
    cases hverdict with
    | unknown unknown kind => cases hkind.symm.trans kind
    | unbounded span kind =>
        cases hkind.symm.trans kind
        exact span
    | invalid kind => cases hkind.symm.trans kind
  · exact ⟨_, ofRecord_of_unbounded h, rfl⟩
  · rintro ⟨error, herror, hkind⟩
    refine ⟨fun step h => ?_, fun h => ?_, fun fault h => ?_⟩
    · cases (ofRecord_of_asks h).symm.trans herror
    · obtain ⟨value, hvalue⟩ := ofRecord_of_unknown h
      cases hvalue.symm.trans herror
      cases hkind
    · cases (ofRecord_of_unbounded h).symm.trans herror
      cases hkind
  · obtain ⟨hasks, hunknown, hunbounded⟩ := h
    cases hresult : ofRecord record with
    | ok step =>
        rw [hresult] at hverdict
        cases hverdict with
        | asked asks => exact absurd asks (hasks step)
    | error error =>
        rw [hresult] at hverdict
        cases hverdict with
        | unknown unknown kind => exact absurd unknown hunknown
        | unbounded span kind => exact absurd span (hunbounded _)
        | invalid kind => exact ⟨error, rfl, kind⟩

/-- A span that starts at a line that is no number. -/
def nowhereText : List Char :=
  ("\x7b\"action\": \"copy\", \"payload\": \x7b\"startLine\": NaN, \"startPos\": 0, " ++
    "\"endLine\": 1, \"endPos\": 1\x7d\x7d").toList

/-- A record that is neither read nor reported as a step error. -/
theorem ofRecord_nowhere : ∃ record error, Json.read nowhereText = .ok record ∧
    ofRecord record = .error error ∧ error.kind ≠ .unknownAction ∧ error.kind ≠ .invalidPayload := by
  have hmark : ¬nowhereText.head? = some (Char.ofNat 0xfeff) := by decide
  refine ⟨.object [("action", .string "copy"), ("payload", .object [("startLine", .real .nan),
    ("startPos", .int 0), ("endLine", .int 1), ("endPos", .int 1)])], .badPosition .nanToInteger,
    ?_, rfl, by decide, by decide⟩
  rw [Json.read, if_neg hmark]
  cbv

end Step

end Screencast
