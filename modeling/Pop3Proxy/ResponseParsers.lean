/-
# The response parsers

`pop3_singleline_response_parser.c` reads the status line of a reply;
`pop3_multiline_response_parser.c` looks for the line with a single dot that
ends a multi-line reply.  Both are fed the octets of a chunk by a loop that
stops at the first verdict.
-/
import Pop3Proxy.CommandParser

namespace Pop3Proxy

/-! ## The status line -/

/-- `enum pop3_singleline_response_states`. -/
inductive SinglelineState where
  | trap
  | stat
  | ok
  | err
  | msg
  | cr
  | crlf
  deriving DecidableEq, Repr

/-- The events of the status line parser. -/
inductive SinglelineEvent where
  | ignore
  | trapped
  | okResp
  | errResp
  | endSingleline
  deriving DecidableEq, Repr

/-- `ignore`: there is nothing to report. -/
def ignoreSl (_ : Byte) : ParserEvent SinglelineEvent := ⟨.ignore, [], 0⟩

/-- `trap`: the input is not accepted. -/
def trap (_ : Byte) : ParserEvent SinglelineEvent := ⟨.trapped, [], 0⟩

/-- `ok_resp`: the reply is positive. -/
def okResp (_ : Byte) : ParserEvent SinglelineEvent := ⟨.okResp, [], 0⟩

/-- `err_resp`: the reply is negative. -/
def errResp (_ : Byte) : ParserEvent SinglelineEvent := ⟨.errResp, [], 0⟩

/-- `end_singleline`: the status line is over. -/
def endSingleline (_ : Byte) : ParserEvent SinglelineEvent := ⟨.endSingleline, [], 0⟩

/-- `'+'` -/
abbrev PLUS : Byte := 43

/-- `pop3_singleline_response_definition`. -/
def pop3SinglelineResponseDefinition : ParserDefinition SinglelineState Empty SinglelineEvent where
  states
    | .trap => [{ cond := .any, dest := .trap, act1 := trap }]
    | .stat => [
        { cond := .byte PLUS, dest := .ok, act1 := okResp },
        { cond := .byte DASH, dest := .err, act1 := errResp },
        { cond := .any, dest := .trap, act1 := trap }]
    | .ok => [
        { cond := .byte CR, dest := .cr, act1 := ignoreSl },
        { cond := .any, dest := .msg, act1 := ignoreSl }]
    | .err => [
        { cond := .byte CR, dest := .cr, act1 := ignoreSl },
        { cond := .any, dest := .msg, act1 := ignoreSl }]
    | .msg => [
        { cond := .byte CR, dest := .cr, act1 := ignoreSl },
        { cond := .any, dest := .msg, act1 := ignoreSl }]
    | .cr => [
        { cond := .byte LF, dest := .crlf, act1 := endSingleline },
        { cond := .any, dest := .msg, act1 := ignoreSl }]
    | .crlf => [{ cond := .any, dest := .crlf, act1 := ignoreSl }]
  startState := .stat

/-- `enum pop3_singleline_response_status`. -/
inductive SinglelineStatus where
  | ok
  | err
  deriving DecidableEq, Repr

/-- The body of the loop of `pop3_singleline_response_builder`; the second
component is `resp->status`, unset until a `+` or a `-` is read. -/
def singlelineBuilderStep (s : SinglelineState × Option SinglelineStatus) (c : Byte) :
    (SinglelineState × Option SinglelineStatus) × Option StructureBuilderStates :=
  match parserFeed parserNoClasses pop3SinglelineResponseDefinition s.1 c with
  | (p, e :: _) =>
    match e.type with
    | .okResp => ((p, some .ok), none)
    | .errResp => ((p, some .err), none)
    | .endSingleline => ((p, s.2), some .buildFinished)
    | .trapped => ((p, s.2), some .buildFailed)
    | .ignore => ((p, s.2), none)
  | (p, []) => ((p, s.2), none)

/-- `pop3_singleline_response_builder` on a chunk; `*error` is set exactly with
`BUILD_FAILED`. -/
def pop3SinglelineResponseBuilder (bs : List Byte) (p : SinglelineState)
    (resp : Option SinglelineStatus) :
    Scan.Outcome (SinglelineState × Option SinglelineStatus) StructureBuilderStates :=
  Scan.scan singlelineBuilderStep (p, resp) bs

/-- The three states inside a status line. -/
def SinglelineState.InText (p : SinglelineState) : Prop := p = .ok ∨ p = .err ∨ p = .msg

theorem singlelineBuilderStep_text {p : SinglelineState} (hp : p.InText)
    (r : Option SinglelineStatus) {c : Byte} (hc : c ≠ CR) :
    singlelineBuilderStep (p, r) c = ((.msg, r), none) := by
  rcases hp with rfl | rfl | rfl <;>
    simp [singlelineBuilderStep, parserFeed, pop3SinglelineResponseDefinition, When.holds,
      List.find?, hc, ignoreSl]

theorem singlelineBuilderStep_text_cr {p : SinglelineState} (hp : p.InText)
    (r : Option SinglelineStatus) :
    singlelineBuilderStep (p, r) CR = ((.cr, r), none) := by
  rcases hp with rfl | rfl | rfl <;> rfl

theorem singlelineBuilderStep_cr_lf (r : Option SinglelineStatus) :
    singlelineBuilderStep (.cr, r) LF = ((.crlf, r), some .buildFinished) := rfl

/-- A CR that no LF follows is text, and so is the octet behind it. -/
theorem singlelineBuilderStep_cr (r : Option SinglelineStatus) {c : Byte} (hc : c ≠ LF) :
    singlelineBuilderStep (.cr, r) c = ((.msg, r), none) := by
  simp [singlelineBuilderStep, parserFeed, pop3SinglelineResponseDefinition, When.holds,
    List.find?, hc, ignoreSl]

/-! ## The end of a multi-line reply -/

/-- `enum pop3_multiline_response_states`. -/
inductive MultilineState where
  | crlfdot
  | crlfdotcr
  | crlfdotcrlf
  | dotData
  | cr
  | crlf
  deriving DecidableEq, Repr

/-- `enum pop3_multiline_response_event_type`. -/
inductive MultilineEvent where
  | datStuffed
  | datStuffedEnd
  deriving DecidableEq, Repr

/-- `dat_stuffed_end`: the reply is over. -/
def datStuffedEnd (_ : Byte) : ParserEvent MultilineEvent := ⟨.datStuffedEnd, [], 0⟩

/-- `dat_stuffed`: an octet of the reply. -/
def datStuffed (c : Byte) : ParserEvent MultilineEvent := ⟨.datStuffed, [c], 1⟩

/-- `ignore`, which reports `DAT_STUFFED` all the same. -/
def ignoreMl (_ : Byte) : ParserEvent MultilineEvent := ⟨.datStuffed, [], 0⟩

/-- `pop3_multiline_response_definition`: the start state is `CRLFDOT`. -/
def pop3MultilineResponseDefinition : ParserDefinition MultilineState Empty MultilineEvent where
  states
    | .crlfdot => [
        { cond := .byte CR, dest := .crlfdotcr, act1 := datStuffed },
        { cond := .any, dest := .dotData, act1 := datStuffed }]
    | .crlfdotcr => [
        { cond := .byte LF, dest := .crlfdotcrlf, act1 := datStuffed, act2 := some datStuffedEnd },
        { cond := .any, dest := .dotData, act1 := datStuffed }]
    | .crlfdotcrlf => [{ cond := .any, dest := .crlfdotcrlf, act1 := ignoreMl }]
    | .dotData => [
        { cond := .byte CR, dest := .cr, act1 := datStuffed },
        { cond := .any, dest := .dotData, act1 := datStuffed }]
    | .cr => [
        { cond := .byte LF, dest := .crlf, act1 := datStuffed },
        { cond := .any, dest := .dotData, act1 := datStuffed }]
    | .crlf => [
        { cond := .byte DOT, dest := .crlfdot, act1 := datStuffed },
        { cond := .any, dest := .dotData, act1 := datStuffed }]
  startState := .crlfdot

/-- `enum consumer_state`. -/
inductive ConsumerState where
  | finishedConsuming
  | consuming
  | errorConsuming
  deriving DecidableEq, Repr

/-- The body of the loop of `pop3_multiline_response_checker`. -/
def multilineCheckerStep (p : MultilineState) (c : Byte) :
    MultilineState × Option ConsumerState :=
  match parserFeed parserNoClasses pop3MultilineResponseDefinition p c with
  | (p, _ :: e2 :: _) => (p, if e2.type = .datStuffedEnd then some .finishedConsuming else none)
  | (p, _) => (p, none)

/-- `pop3_multiline_response_checker` on a chunk. -/
def pop3MultilineResponseChecker (bs : List Byte) (p : MultilineState) :
    Scan.Outcome MultilineState ConsumerState :=
  Scan.scan multilineCheckerStep p bs

/-- The value `pop3_multiline_response_checker` returns. -/
def checkerResult (o : Scan.Outcome MultilineState ConsumerState) : ConsumerState :=
  o.verdict.getD .consuming

/-- The transitions of the checker: everything that is not one of the five
letters of CRLF.CRLF in its place goes back to `DOT_DATA`, a CR included. -/
theorem multilineCheckerStep_eq (p : MultilineState) (c : Byte) :
    multilineCheckerStep p c =
      match p with
      | .dotData => (if c = CR then .cr else .dotData, none)
      | .cr => (if c = LF then .crlf else .dotData, none)
      | .crlf => (if c = DOT then .crlfdot else .dotData, none)
      | .crlfdot => (if c = CR then .crlfdotcr else .dotData, none)
      | .crlfdotcr =>
        if c = LF then (.crlfdotcrlf, some .finishedConsuming) else (.dotData, none)
      | .crlfdotcrlf => (.crlfdotcrlf, none) := by
  cases p with
  | dotData | cr | crlf | crlfdot | crlfdotcr =>
    unfold multilineCheckerStep parserFeed
    simp only [pop3MultilineResponseDefinition, When.holds, List.find?]
    split_ifs with h <;> simp [h, datStuffedEnd]
  | crlfdotcrlf => rfl

end Pop3Proxy
