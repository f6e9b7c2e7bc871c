/-
# The session parser of the blocking proxy

`pop3_parser.c` follows a whole exchange: it reads the command line, the status
line of the reply and, where the command calls for one, the body, each with a
parser of its own, and goes from one to the next through global variables.
-/
import Pop3Proxy.Filter.Strcmpi
import Pop3Proxy.Library.DotStuffing
import Pop3Proxy.Pop3
import Pop3Proxy.ReplyEnds

namespace Pop3Proxy

/-! ## The tables -/

/-- The events of the four parsers.  Some of them have the same number, but never two
that one `switch` looks at. -/
inductive Pop3Event where
  | ignore
  | trapped
  | bufferCmd
  | hasArgs
  | setCmd
  | badCmd
  | parseSl
  | parseCmd
  | okResp
  | errResp
  | endSingleline
  | datStuffed
  | datStuffedEnd
  deriving DecidableEq, Repr

/-- An action that stores no octet. -/
def Pop3Event.alone (t : Pop3Event) (_ : Byte) : ParserEvent Pop3Event := ⟨t, [], 0⟩

/-- An action that stores the octet. -/
def Pop3Event.octet (t : Pop3Event) (c : Byte) : ParserEvent Pop3Event := ⟨t, [c], 1⟩

/-- `pop3_definition`: the state is always `INIT`. -/
def pop3Definition : ParserDefinition Unit Empty Pop3Event where
  states _ := [
    { cond := .byte PLUS, dest := (), act1 := Pop3Event.parseSl.alone },
    { cond := .byte DASH, dest := (), act1 := Pop3Event.parseSl.alone },
    { cond := .any, dest := (), act1 := Pop3Event.parseCmd.alone }]
  startState := ()

/-- `pop3_command_definition` -/
def commandDefinition : ParserDefinition CommandState Empty Pop3Event where
  states
    | .kwrd => [
        { cond := .byte SP, dest := .arg, act1 := Pop3Event.hasArgs.alone },
        { cond := .byte CR, dest := .cr, act1 := Pop3Event.ignore.alone },
        { cond := .any, dest := .kwrd, act1 := Pop3Event.bufferCmd.octet }]
    | .arg => [
        { cond := .byte CR, dest := .cr, act1 := Pop3Event.ignore.alone },
        { cond := .any, dest := .arg, act1 := Pop3Event.ignore.alone }]
    | .cr => [
        { cond := .byte LF, dest := .crlf, act1 := Pop3Event.setCmd.alone },
        { cond := .any, dest := .err, act1 := Pop3Event.badCmd.alone }]
    | .crlf => [{ cond := .any, dest := .crlf, act1 := Pop3Event.ignore.alone }]
    | .err => [{ cond := .any, dest := .err, act1 := Pop3Event.badCmd.alone }]
  startState := .kwrd

/-- `pop3_singleline_response_definition` -/
def singlelineDefinition : ParserDefinition SinglelineState Empty Pop3Event where
  states
    | .trap => [{ cond := .any, dest := .trap, act1 := Pop3Event.trapped.alone }]
    | .stat => [
        { cond := .byte PLUS, dest := .ok, act1 := Pop3Event.okResp.alone },
        { cond := .byte DASH, dest := .err, act1 := Pop3Event.errResp.alone },
        { cond := .any, dest := .trap, act1 := Pop3Event.trapped.alone }]
    | .ok => [
        { cond := .byte CR, dest := .cr, act1 := Pop3Event.ignore.alone },
        { cond := .any, dest := .msg, act1 := Pop3Event.ignore.alone }]
    | .err => [
        { cond := .byte CR, dest := .cr, act1 := Pop3Event.ignore.alone },
        { cond := .any, dest := .msg, act1 := Pop3Event.ignore.alone }]
    | .msg => [
        { cond := .byte CR, dest := .cr, act1 := Pop3Event.ignore.alone },
        { cond := .any, dest := .msg, act1 := Pop3Event.ignore.alone }]
    | .cr => [
        { cond := .byte LF, dest := .crlf, act1 := Pop3Event.endSingleline.alone },
        { cond := .any, dest := .msg, act1 := Pop3Event.ignore.alone }]
    | .crlf => [{ cond := .any, dest := .crlf, act1 := Pop3Event.ignore.alone }]
  startState := .stat

/-- `pop3_multiline_response_definition`: the start state is `CRLFDOT`. -/
def multilineDefinition : ParserDefinition MultilineState Empty Pop3Event where
  states
    | .dotData => [
        { cond := .byte CR, dest := .cr, act1 := Pop3Event.datStuffed.octet },
        { cond := .any, dest := .dotData, act1 := Pop3Event.datStuffed.octet }]
    | .cr => [
        { cond := .byte LF, dest := .crlf, act1 := Pop3Event.datStuffed.octet },
        { cond := .any, dest := .dotData, act1 := Pop3Event.datStuffed.octet }]
    | .crlf => [
        { cond := .byte DOT, dest := .crlfdot, act1 := Pop3Event.datStuffed.octet },
        { cond := .any, dest := .dotData, act1 := Pop3Event.datStuffed.octet }]
    | .crlfdot => [
        { cond := .byte CR, dest := .crlfdotcr, act1 := Pop3Event.datStuffed.octet },
        { cond := .any, dest := .dotData, act1 := Pop3Event.datStuffed.octet }]
    | .crlfdotcr => [
        { cond := .byte LF, dest := .crlfdotcrlf, act1 := Pop3Event.datStuffed.octet,
          act2 := some Pop3Event.datStuffedEnd.alone },
        { cond := .any, dest := .dotData, act1 := Pop3Event.datStuffed.octet }]
    | .crlfdotcrlf => [{ cond := .any, dest := .crlfdotcrlf, act1 := Pop3Event.ignore.alone }]
  startState := .crlfdot

/-! ## The parser -/

/-- `curr_parser`, with its state. -/
inductive CurrParser where
  | command (s : CommandState)
  | singleline (s : SinglelineState)
  | multiline (s : MultilineState)
  deriving DecidableEq, Repr

/-- `parser_feed(curr_parser, c)` -/
def CurrParser.feed : CurrParser → Byte → CurrParser × List (ParserEvent Pop3Event)
  | .command s, c =>
    let r := parserFeed parserNoClasses commandDefinition s c
    (.command r.1, r.2)
  | .singleline s, c =>
    let r := parserFeed parserNoClasses singlelineDefinition s c
    (.singleline r.1, r.2)
  | .multiline s, c =>
    let r := parserFeed parserNoClasses multilineDefinition s c
    (.multiline r.1, r.2)

/-- The global variables of `pop3_parser.c`; `cmd_type` is unset until a command has
been read. -/
structure Pop3Parser where
  currParser : Option CurrParser
  /-- the five octets of the array -/
  cmd : List Byte
  cmdLen : ℕ
  hasArgs : Bool
  cmdType : Option Pop3CommandTypes
  answerStatus : Bool
  deriving DecidableEq, Repr

/-- `sizeof(cmd)` -/
def cmdSize : ℕ := 5

/-- The values with which the program starts. -/
def Pop3Parser.initial : Pop3Parser := ⟨none, List.replicate cmdSize 0, 0, false, none, false⟩

/-- `pop3_parser_reset`, which leaves `cmd_type` as it is. -/
def pop3ParserReset (s : Pop3Parser) : Pop3Parser where
  currParser := none
  cmd := List.replicate cmdSize 0
  cmdLen := 0
  hasArgs := false
  cmdType := s.cmdType
  answerStatus := false

/-- `parser_feed(p, c)`: the events of the parser that chooses the others. -/
def pop3Choose (c : Byte) : List (ParserEvent Pop3Event) :=
  (parserFeed parserNoClasses pop3Definition pop3Definition.startState c).2

/-- The parser that is fed the octet: where there is none, a new one. -/
def Pop3Parser.chosen (s : Pop3Parser) (c : Byte) : Option CurrParser :=
  match s.currParser with
  | some p => some p
  | none =>
    match pop3Choose c with
    | e :: _ =>
      match e.type with
      | .parseSl => some (.singleline singlelineDefinition.startState)
      | .parseCmd => some (.command commandDefinition.startState)
      | _ => none
    | [] => none

/-- Does the status line that ends here announce a body? -/
def Pop3Parser.bodyFollows (s : Pop3Parser) : Bool :=
  s.answerStatus &&
    (s.cmdType = some .multiline || (s.cmdType = some .overloaded && !s.hasArgs))

/-- `pop3_parser_feed`: the event it returns, with those behind `next`; `none` where it
would write behind the end of `cmd`. -/
def pop3ParserFeed (s : Pop3Parser) (c : Byte) :
    Option (Pop3Parser × List (ParserEvent Pop3Event)) :=
  match s.chosen c with
  | none => some (s, pop3Choose c)
  | some p =>
    let s := { s with currParser := some (p.feed c).1 }
    match (p.feed c).2 with
    | [] => some (s, [])
    | e :: next =>
      match e.type with
      | .bufferCmd =>
        if s.cmdLen < cmdSize then
          some ({ s with
            cmd := s.cmd.set s.cmdLen (toupper (e.data.headD 0)), cmdLen := s.cmdLen + 1 },
              e :: next)
        else none
      | .hasArgs => some ({ s with hasArgs := true }, e :: next)
      | .setCmd =>
        some ({ s with cmdType := some (getCommandType s.cmd), currParser := none }, e :: next)
      | .okResp => some ({ s with answerStatus := true }, e :: next)
      | .endSingleline =>
        if s.bodyFollows then
          some ({ s with
            currParser := some (.multiline multilineDefinition.startState), answerStatus := false },
            Pop3Event.ignore.alone c :: next)
        else some ({ s with answerStatus := false }, e :: next)
      -- `is_retr_top` is a local variable and false here, so `DAT_STUFFED` stays what it is
      | _ => some (s, e :: next)

/-- The octets one after the other. -/
def pop3ParserRun (s : Pop3Parser) (bs : List Byte) : Option Pop3Parser :=
  bs.foldlM (fun s c => (pop3ParserFeed s c).map Prod.fst) s

/-- What tells the caller that the reply ends: `END_SINGLELINE`, or an event followed by
`DAT_STUFFED_END`. -/
def signalsEnd : List (ParserEvent Pop3Event) → Bool
  | [] => false
  | [e] => e.type = .endSingleline
  | e :: e2 :: _ => e.type = .endSingleline || e2.type = .datStuffedEnd

/-- One octet of a reply, up to the one at which the end is signalled. -/
def replyStep (s : Option Pop3Parser) (c : Byte) : Option Pop3Parser × Option Unit :=
  match s.bind (pop3ParserFeed · c) with
  | some (s, events) => (some s, if signalsEnd events then some () else none)
  | none => (none, none)

/-! ## Commands and replies -/

/-- An ASCII letter. -/
def IsLetter (c : Byte) : Prop := 65 ≤ c ∧ c ≤ 90 ∨ 97 ≤ c ∧ c ≤ 122

instance : DecidablePred IsLetter := fun _ => inferInstanceAs (Decidable (_ ∨ _))

/-- A keyword of at most four letters, and an argument text if there is one. -/
structure ClientCommand where
  keyword : List Byte
  args : Option (List Byte)
  letters : ∀ c ∈ keyword, IsLetter c
  short : keyword.length ≤ 4
  free : ∀ a ∈ args, CR ∉ a

namespace ClientCommand

variable (cmd : ClientCommand)

/-- The octets of the command. -/
def line : List Byte := cmd.keyword ++ cmd.args.elim [] (SP :: ·) ++ CRLF

/-- What kind of command it is, whatever the case of its letters. -/
def kind : Pop3CommandTypes := getCommandType (cmd.keyword.map toupper)

/-- Is a `+OK` followed by a body? -/
def callsForBody : Bool :=
  cmd.kind = .multiline || (cmd.kind = .overloaded && cmd.args.isNone)

end ClientCommand

/-- The lines of a body as they are sent. -/
abbrev sentLines (lines : List (List Byte)) : List Byte := DotStuffing.encode DOT CR LF lines

/-- A status, the text behind it, and the lines of the body, which is sent only where the
command calls for it. -/
structure ServerReply where
  status : SinglelineStatus
  text : List Byte
  lines : List (List Byte)
  text_free : ¬ CRLF <:+: text
  lines_free : ∀ line ∈ lines, ¬ CRLF <:+: line

namespace ServerReply

variable (r : ServerReply) (cmd : ClientCommand)

/-- The sign with which the status line begins. -/
def sign : Byte := match r.status with
  | .ok => PLUS
  | .err => DASH

/-- Lines follow the status line. -/
def hasBody : Bool := cmd.callsForBody && r.status = .ok

/-- The octets behind the sign: the rest of the status line, and the body. -/
def behindSign : List Byte :=
  (match r.status with
    | .ok => ascii "OK"
    | .err => ascii "ERR") ++ r.text ++ CRLF ++
    if r.hasBody cmd then sentLines r.lines else []

/-- The octets of the reply. -/
def octets : List Byte := r.sign :: r.behindSign cmd

/-- A CRLF comes behind matches of CRLF that were broken; where a body follows, it ends,
read as if behind a dot, with a CRLF.CRLF behind broken matches of that, and where none
follows nothing is left. -/
def Readable : Prop :=
  ∃ u b, Pattern.Pieces CRLF u ∧ r.behindSign cmd = u ++ CRLF ++ b ∧
    if r.hasBody cmd then Pattern.CleanEnd terminator (CRLF ++ DOT :: b) (b.length + 3) else b = []

end ServerReply

/-- The end of the reply is signalled at its last octet and at no earlier one. -/
def ReplyEndSignalled (s₀ : Pop3Parser) (cmd : ClientCommand) (r : ServerReply) : Prop :=
  ∃ s, pop3ParserRun (pop3ParserReset s₀) cmd.line = some s ∧
    (Scan.scan replyStep (some s) (r.octets cmd)).verdict = some () ∧
    (Scan.scan replyStep (some s) (r.octets cmd)).read = (r.octets cmd).length

/-! ## The command line -/

theorem pop3ParserRun_cons {s s' : Pop3Parser} {c : Byte} {events : List (ParserEvent Pop3Event)}
    (h : pop3ParserFeed s c = some (s', events)) (cs : List Byte) :
    pop3ParserRun s (c :: cs) = pop3ParserRun s' cs := by
  simp [pop3ParserRun, List.foldlM_cons, h]

/-- Before and within a keyword. -/
def Pop3Parser.InKeyword (s : Pop3Parser) : Prop :=
  s.currParser = none ∨ s.currParser = some (.command .kwrd)

theorem Pop3Parser.InKeyword.chosen {s : Pop3Parser} (h : s.InKeyword) {c : Byte} (hplus : c ≠ PLUS)
    (hdash : c ≠ DASH) : s.chosen c = some (.command .kwrd) := by
  rcases h with h | h
  · simp [Pop3Parser.chosen, h, pop3Choose, parserFeed, pop3Definition, When.holds, List.find?,
      hplus, hdash, Pop3Event.alone, commandDefinition]
  · simp [Pop3Parser.chosen, h]

theorem IsLetter.ne {c d : Byte} (h : IsLetter c) (hd : ¬ IsLetter d) : c ≠ d := by
  rintro rfl
  exact hd h

/-- A letter of the keyword. -/
theorem pop3ParserFeed_letter {s : Pop3Parser} (hs : s.InKeyword) {c : Byte} (hc : IsLetter c)
    (hlen : s.cmdLen < cmdSize) :
    pop3ParserFeed s c = some ({ s with
      currParser := some (.command .kwrd), cmd := s.cmd.set s.cmdLen (toupper c),
      cmdLen := s.cmdLen + 1 }, [Pop3Event.bufferCmd.octet c]) := by
  have hsp : c ≠ SP := hc.ne (by decide)
  have hcr : c ≠ CR := hc.ne (by decide)
  rw [pop3ParserFeed, hs.chosen (hc.ne (by decide)) (hc.ne (by decide))]
  simp [CurrParser.feed, parserFeed, commandDefinition, When.holds, List.find?, hsp, hcr,
    Pop3Event.octet, hlen]

/-- The array while a keyword is read: its letters in upper case, and zeros behind them. -/
def Pop3Parser.Collected (s : Pop3Parser) (u : List Byte) : Prop :=
  s.cmd = u ++ List.replicate (cmdSize - u.length) 0 ∧ s.cmdLen = u.length

/-- One letter more. -/
theorem Pop3Parser.Collected.letter {s : Pop3Parser} {u : List Byte} (h : s.Collected u)
    (hroom : u.length < cmdSize) (c : Byte) :
    { s with currParser := some (.command .kwrd), cmd := s.cmd.set s.cmdLen c,
             cmdLen := s.cmdLen + 1 : Pop3Parser }.Collected (u ++ [c]) := by
  obtain ⟨hcmd, hlen⟩ := h
  have hzeros : List.replicate (cmdSize - u.length) (0 : Byte) =
      0 :: List.replicate (cmdSize - (u ++ [c]).length) 0 := by
    rw [List.length_append, List.length_singleton, ← List.replicate_succ]
    congr 1
    omega
  refine ⟨?_, by simp [hlen]⟩
  show s.cmd.set s.cmdLen c = _
  rw [hcmd, hlen, hzeros, List.set_append_right _ _ le_rfl, Nat.sub_self]
  simp

/-- The keyword. -/
theorem pop3ParserRun_keyword {k : List Byte} (hk : ∀ c ∈ k, IsLetter c) {s : Pop3Parser}
    {u : List Byte} (hs : s.InKeyword) (hcmd : s.Collected u)
    (hroom : u.length + k.length < cmdSize) (rest : List Byte) :
    ∃ s', pop3ParserRun s (k ++ rest) = pop3ParserRun s' rest ∧ s'.InKeyword ∧
      s'.Collected (u ++ k.map toupper) ∧ s'.hasArgs = s.hasArgs ∧
      s'.answerStatus = s.answerStatus := by
  induction k generalizing s u with
  | nil => exact ⟨s, rfl, hs, by simpa using hcmd, rfl, rfl⟩
  | cons c k ih =>
    have hlen : s.cmdLen < cmdSize := by
      rw [hcmd.2]
      omega
    have hletter := pop3ParserFeed_letter hs (hk c List.mem_cons_self) hlen
    obtain ⟨s', hrun, hkeyword, hcmd', hargs, hstatus⟩ :=
      ih (fun d hd => hk d (List.mem_cons_of_mem _ hd)) (Or.inr rfl)
        (hcmd.letter (by omega) (toupper c))
        (by simp only [List.length_append, List.length_cons, List.length_nil] at hroom ⊢; omega)
    refine ⟨s', ?_, hkeyword, ?_, hargs, hstatus⟩
    · rw [List.cons_append, pop3ParserRun_cons hletter, hrun]
    · simpa using hcmd'

/-- A space behind the keyword. -/
theorem pop3ParserFeed_sp {s : Pop3Parser} (hs : s.InKeyword) :
    pop3ParserFeed s SP = some ({ s with currParser := some (.command .arg), hasArgs := true },
      [Pop3Event.hasArgs.alone SP]) := by
  rw [pop3ParserFeed, hs.chosen (by decide) (by decide)]
  rfl

/-- An argument free of CR is skipped. -/
theorem pop3ParserRun_args {a : List Byte} (ha : CR ∉ a) {s : Pop3Parser}
    (hs : s.currParser = some (.command .arg)) (rest : List Byte) :
    pop3ParserRun s (a ++ rest) = pop3ParserRun s rest := by
  induction a with
  | nil => rfl
  | cons c a ih =>
    have hc : c ≠ CR := fun h => ha (by simp [h])
    have hfeed : pop3ParserFeed s c = some (s, [Pop3Event.ignore.alone c]) := by
      have hs' : { s with currParser := some (.command .arg) : Pop3Parser } = s := by rw [← hs]
      simp [pop3ParserFeed, Pop3Parser.chosen, hs, CurrParser.feed, parserFeed, commandDefinition,
        When.holds, List.find?, hc, Pop3Event.alone, hs']
    rw [List.cons_append, pop3ParserRun_cons hfeed, ih fun h => ha (by simp [h])]

/-- The end of the line, behind the keyword or the argument. -/
theorem pop3ParserRun_crlf {s : Pop3Parser}
    (hs : s.InKeyword ∨ s.currParser = some (.command .arg)) :
    pop3ParserRun s CRLF =
      some { s with cmdType := some (getCommandType s.cmd), currParser := none } := by
  have hcr : pop3ParserFeed s CR = some ({ s with currParser := some (.command .cr) },
      [Pop3Event.ignore.alone CR]) := by
    rcases hs with hs | hs
    · rw [pop3ParserFeed, hs.chosen (by decide) (by decide)]
      rfl
    · rw [pop3ParserFeed, Pop3Parser.chosen, hs]
      rfl
  rw [pop3ParserRun_cons hcr]
  rfl

/-- The array holds the keyword in upper case. -/
theorem Pop3Parser.Collected.kind {s : Pop3Parser} {k : List Byte} (hk : ∀ c ∈ k, IsLetter c)
    (h : s.Collected (k.map toupper)) : getCommandType s.cmd = getCommandType (k.map toupper) := by
  have hupper : (0 : Byte) ∉ k.map toupper := by
    intro h
    obtain ⟨c, hc, hzero⟩ := List.mem_map.mp h
    have hne : ∀ c : Byte, IsLetter c → toupper c ≠ 0 := by decide +kernel
    exact hne c (hk c hc) hzero
  have hcstr : cstr s.cmd = cstr (k.map toupper) := by
    have hzeros : ∀ n, cstr (List.replicate n 0) = [] := by
      intro n
      cases n <;> rfl
    rw [h.1, cstr_append hupper, hzeros]
    simpa [cstr] using (cstr_append hupper []).symm
  unfold getCommandType isInStringArray
  rw [hcstr]

/-- **The command line** leaves the parser ready for the reply. -/
theorem pop3ParserRun_line (s₀ : Pop3Parser) (cmd : ClientCommand) :
    ∃ s, pop3ParserRun (pop3ParserReset s₀) cmd.line = some s ∧ s.currParser = none ∧
      s.cmdType = some cmd.kind ∧ s.hasArgs = cmd.args.isSome ∧ s.answerStatus = false := by
  have hshort := cmd.short
  obtain ⟨s, hrun, hkeyword, hcmd, hargs, hstatus⟩ :=
    pop3ParserRun_keyword cmd.letters (s := pop3ParserReset s₀) (u := []) (Or.inl rfl)
      ⟨rfl, rfl⟩ (by simp [cmdSize]; omega) (cmd.args.elim [] (SP :: ·) ++ CRLF)
  rw [List.nil_append] at hcmd
  rw [ClientCommand.line, List.append_assoc, hrun]
  cases hcase : cmd.args with
  | none =>
    rw [Option.elim_none, List.nil_append, pop3ParserRun_crlf (Or.inl hkeyword)]
    exact ⟨_, rfl, rfl, congrArg some (hcmd.kind cmd.letters), hargs, hstatus⟩
  | some a =>
    have ha : CR ∉ a := cmd.free a hcase
    rw [Option.elim_some, List.cons_append, pop3ParserRun_cons (pop3ParserFeed_sp hkeyword),
      pop3ParserRun_args ha rfl, pop3ParserRun_crlf (Or.inr rfl)]
    exact ⟨_, rfl, rfl, congrArg some (hcmd.kind cmd.letters), rfl, hstatus⟩

/-! ## The status line -/

/-- Inside a status line. -/
def Pop3Parser.InStatus (s : Pop3Parser) : Prop :=
  ∃ p : SinglelineState, p.InText ∧ s.currParser = some (.singleline p)

theorem replyStep_of_feed {s s' : Pop3Parser} {c : Byte} {events : List (ParserEvent Pop3Event)}
    (h : pop3ParserFeed s c = some (s', events)) :
    replyStep (some s) c = (some s', if signalsEnd events then some () else none) := by
  simp [replyStep, h]

/-- The sign. -/
theorem replyStep_sign {s : Pop3Parser} (hs : s.currParser = none) (r : ServerReply) :
    ∃ p : SinglelineState, p.InText ∧ replyStep (some s) r.sign =
      (some { s with
        currParser := some (.singleline p),
        answerStatus := s.answerStatus || r.status = .ok }, none) := by
  cases hr : r.status with
  | ok =>
    refine ⟨.ok, Or.inl rfl, ?_⟩
    have hfeed : pop3ParserFeed s PLUS = some ({ s with
        currParser := some (.singleline .ok), answerStatus := true },
        [Pop3Event.okResp.alone PLUS]) := by
      rw [pop3ParserFeed, Pop3Parser.chosen, hs]
      rfl
    rw [ServerReply.sign, hr, replyStep_of_feed hfeed]
    simp [signalsEnd, Pop3Event.alone]
  | err =>
    refine ⟨.err, Or.inr (Or.inl rfl), ?_⟩
    have hfeed : pop3ParserFeed s DASH = some ({ s with currParser := some (.singleline .err) },
        [Pop3Event.errResp.alone DASH]) := by
      rw [pop3ParserFeed, Pop3Parser.chosen, hs]
      rfl
    rw [ServerReply.sign, hr, replyStep_of_feed hfeed]
    simp [signalsEnd, Pop3Event.alone]

/-- Text. -/
theorem replyStep_text {s : Pop3Parser} (hs : s.InStatus) {c : Byte} (hc : c ≠ CR) :
    replyStep (some s) c = (some { s with currParser := some (.singleline .msg) }, none) := by
  obtain ⟨p, hp, hs⟩ := hs
  have hfeed : pop3ParserFeed s c = some ({ s with currParser := some (.singleline .msg) },
      [Pop3Event.ignore.alone c]) := by
    rcases hp with rfl | rfl | rfl <;>
      simp [pop3ParserFeed, Pop3Parser.chosen, hs, CurrParser.feed, parserFeed,
        singlelineDefinition, When.holds, List.find?, hc, Pop3Event.alone]
  rw [replyStep_of_feed hfeed]
  rfl

theorem replyStep_cr {s : Pop3Parser} (hs : s.InStatus) :
    replyStep (some s) CR = (some { s with currParser := some (.singleline .cr) }, none) := by
  obtain ⟨p, hp, hs⟩ := hs
  have hfeed : pop3ParserFeed s CR = some ({ s with currParser := some (.singleline .cr) },
      [Pop3Event.ignore.alone CR]) := by
    rw [pop3ParserFeed, Pop3Parser.chosen, hs]
    rcases hp with rfl | rfl | rfl <;> rfl
  rw [replyStep_of_feed hfeed]
  rfl

/-- A CR that no LF follows is text, and so is the octet behind it. -/
theorem replyStep_cr_of_ne_lf {s : Pop3Parser} (hs : s.currParser = some (.singleline .cr))
    {c : Byte}
    (hc : c ≠ LF) :
    replyStep (some s) c = (some { s with currParser := some (.singleline .msg) }, none) := by
  have hfeed : pop3ParserFeed s c = some ({ s with currParser := some (.singleline .msg) },
      [Pop3Event.ignore.alone c]) := by
    simp [pop3ParserFeed, Pop3Parser.chosen, hs, CurrParser.feed, parserFeed,
      singlelineDefinition, When.holds, List.find?, hc, Pop3Event.alone]
  rw [replyStep_of_feed hfeed]
  rfl

/-- The end of the line: a body may follow, and where none does the reply ends. -/
theorem replyStep_cr_lf {s : Pop3Parser} (hs : s.currParser = some (.singleline .cr)) :
    replyStep (some s) LF =
      if s.bodyFollows then
        (some { s with currParser := some (.multiline .crlfdot), answerStatus := false }, none)
      else
        (some { s with currParser := some (.singleline .crlf), answerStatus := false },
          some ()) := by
  have hfeed : pop3ParserFeed s LF =
      if s.bodyFollows then
        some ({ s with currParser := some (.multiline .crlfdot), answerStatus := false },
          [Pop3Event.ignore.alone LF])
      else
        some ({ s with currParser := some (.singleline .crlf), answerStatus := false },
          [Pop3Event.endSingleline.alone LF]) := by
    rw [pop3ParserFeed, Pop3Parser.chosen, hs]
    rfl
  by_cases hbody : s.bodyFollows
  · rw [if_pos hbody] at hfeed ⊢
    rw [replyStep_of_feed hfeed]
    rfl
  · rw [if_neg hbody] at hfeed ⊢
    rw [replyStep_of_feed hfeed]
    rfl

/-- Broken matches of CRLF leave the parser in the status line. -/
theorem scan_replyStep_pieces {u : List Byte} (hu : Pattern.Pieces CRLF u) {s : Pop3Parser}
    (hs : s.InStatus) (rest : List Byte) :
    ∃ p : SinglelineState, p.InText ∧ Scan.scan replyStep (some s) (u ++ rest) =
      { Scan.scan replyStep (some { s with currParser := some (.singleline p) }) rest with
        read := u.length +
          (Scan.scan replyStep (some { s with currParser := some (.singleline p) }) rest).read
          } := by
  induction hu generalizing s with
  | nil =>
    obtain ⟨p, hp, hs⟩ := hs
    have hs' : { s with currParser := some (.singleline p) : Pop3Parser } = s := by rw [← hs]
    exact ⟨p, hp, by simp [hs']⟩
  | @cons v w hv _ ih =>
    have hmsg : Pop3Parser.InStatus { s with currParser := some (.singleline .msg) } :=
      ⟨.msg, Or.inr (Or.inr rfl), rfl⟩
    obtain ⟨p, hp, hscan⟩ := ih hmsg
    refine ⟨p, hp, ?_⟩
    -- a match of CRLF is broken at its first letter or at its second
    obtain ⟨k, a, hk, ha⟩ := hv
    obtain rfl | rfl : k = 0 ∨ k = 1 := by
      simp only [List.length_cons, List.length_nil] at hk
      omega
    · have hcr : a ≠ CR := by simpa [eq_comm] using ha
      rw [List.take_zero, List.nil_append, List.append_assoc, List.singleton_append,
        Scan.scan_cons_none _ _ (replyStep_text hs hcr), hscan]
      simp only [Scan.Outcome.mk.injEq, List.length_append, List.length_singleton, true_and]
      omega
    · have hlf : a ≠ LF := by simpa [eq_comm] using ha
      have hstep := replyStep_cr_of_ne_lf
        (s := { s with currParser := some (.singleline .cr) }) rfl hlf
      rw [show List.take 1 CRLF ++ [a] ++ w ++ rest = CR :: a :: (w ++ rest) by simp,
        Scan.scan_cons_none _ _ (replyStep_cr hs), Scan.scan_cons_none _ _ hstep, hscan]
      simp only [Scan.Outcome.mk.injEq, List.length_append, List.length_take, List.length_cons,
        List.length_nil, true_and]
      omega

/-! ## The body -/

/-- The table does what that of the proxy's checker does. -/
theorem parserFeed_multiline {m : MultilineState} (hm : m ≠ .crlfdotcrlf) (c : Byte) :
    parserFeed parserNoClasses multilineDefinition m c =
      ((multilineCheckerStep m c).1, Pop3Event.datStuffed.octet c ::
        ((multilineCheckerStep m c).2.map fun _ => Pop3Event.datStuffedEnd.alone c).toList) := by
  rw [multilineCheckerStep_eq, parserFeed_eq_firstMatch]
  cases m with
  | crlfdotcrlf => exact absurd rfl hm
  | dotData | cr | crlf | crlfdot | crlfdotcr =>
    simp only [multilineDefinition, firstMatch, When.holds, decide_eq_true_eq]
    split_ifs <;> rfl

/-- One octet of the body. -/
theorem replyStep_multiline {s : Pop3Parser} {m : MultilineState}
    (hs : s.currParser = some (.multiline m)) (hm : m ≠ .crlfdotcrlf) (c : Byte) :
    replyStep (some s) c =
      (some { s with currParser := some (.multiline (multilineCheckerStep m c).1) },
        (multilineCheckerStep m c).2.map fun _ => ()) := by
  have hfeed : pop3ParserFeed s c =
      some ({ s with currParser := some (.multiline (multilineCheckerStep m c).1) },
        Pop3Event.datStuffed.octet c ::
          ((multilineCheckerStep m c).2.map fun _ => Pop3Event.datStuffedEnd.alone c).toList) := by
    rw [pop3ParserFeed, Pop3Parser.chosen, hs]
    simp only [CurrParser.feed, parserFeed_multiline hm]
    rfl
  rw [replyStep_of_feed hfeed]
  cases (multilineCheckerStep m c).2 <;> rfl

/-- **The body** ends where CRLF.CRLF does, read as if behind CRLF and a dot. -/
theorem scan_replyStep_body {s : Pop3Parser} (hs : s.currParser = some (.multiline .crlfdot))
    (b : List Byte) :
    ((Scan.scan replyStep (some s) b).verdict = some () ∧
      (Scan.scan replyStep (some s) b).read = b.length) ↔
      Pattern.CleanEnd terminator (CRLF ++ DOT :: b) (b.length + 3) := by
  let Sim (k : ℕ) (s : Option Pop3Parser) : Prop :=
    ∃ s' m, s = some s' ∧ s'.currParser = some (.multiline m) ∧ k = m.matched ∧ m ≠ .crlfdotcrlf
  have hsim (k : ℕ) (s : Option Pop3Parser) (a : Byte) (h : Sim k s) :
      (replyStep s a).2 = (Pattern.step terminator k a).2.map id ∧
        ((Pattern.step terminator k a).2 = none →
          Sim (Pattern.step terminator k a).1 (replyStep s a).1) := by
    obtain ⟨s', m, rfl, hs', rfl, hm⟩ := h
    obtain ⟨hverdict, hnext⟩ := multilineCheckerStep_pattern hm a
    rw [replyStep_multiline hs' hm]
    constructor
    · rw [hverdict, Option.map_map]
      rfl
    intro hnone
    obtain ⟨hmatched, hm'⟩ := hnext hnone
    exact ⟨_, _, rfl, rfl, hmatched, hm'⟩
  have hstart : Sim 3 (some s) := ⟨s, .crlfdot, rfl, hs, rfl, by decide⟩
  obtain ⟨hverdict, hread⟩ := Scan.scan_sim (Pattern.step terminator) Sim hsim hstart b
  have hmatch := Pattern.scan_match (p := terminator) (k := 0) (j := 3) (by decide) b
  have hbegin : CRLF ++ DOT :: b = (terminator.drop 0).take 3 ++ b := rfl
  rw [Pattern.cleanEnd_iff (by decide), hbegin, hmatch, hverdict, hread]
  simp only [Option.map_id_fun, id_eq, Nat.zero_add]
  refine and_congr_right fun _ => ?_
  omega

/-! ## Ordinary replies -/

/-- Lines without a CR, the last of them not empty. -/
def PlainLines (lines : List (List Byte)) : Prop :=
  (∀ line ∈ lines, CR ∉ line) ∧ lines.getLast? ≠ some []

theorem PlainLines.tail {line : List Byte} {lines : List (List Byte)}
    (h : PlainLines (line :: lines)) : PlainLines lines := by
  refine ⟨fun l hl => h.1 l (List.mem_cons_of_mem _ hl), ?_⟩
  cases lines with
  | nil => simp
  | cons l ls => simpa [List.getLast?_cons_cons] using h.2

theorem cr_notMem_stuff {line : List Byte} (h : CR ∉ line) : CR ∉ DotStuffing.stuff DOT line := by
  rw [DotStuffing.stuff]
  split_ifs
  · simp [h]
  · exact h

theorem sentLines_cons (line : List Byte) (lines : List (List Byte)) :
    sentLines (line :: lines) = DotStuffing.stuff DOT line ++ (CRLF ++ sentLines lines) := by
  simp [sentLines, DotStuffing.encode]

/-- Behind a CRLF that the parser noticed such lines end as they should, and, unless there are
none, behind one that it missed. -/
theorem sentLines_pieces {lines : List (List Byte)} (h : PlainLines lines) :
    (∃ x, Pattern.Pieces terminator x ∧ CRLF ++ sentLines lines = x ++ terminator) ∧
      (lines ≠ [] → ∃ x, Pattern.Pieces terminator x ∧ sentLines lines = x ++ terminator) := by
  induction lines with
  | nil => exact ⟨⟨[], .nil, rfl⟩, fun h => absurd rfl h⟩
  | cons line lines ih =>
    have ⟨hcr, hlast⟩ := h
    have hline := cr_notMem_stuff (hcr line List.mem_cons_self)
    obtain ⟨hnoticed, hmissed⟩ := ih h.tail
    rw [sentLines_cons]
    constructor
    · cases line with
      | nil =>
        -- the CR of the empty line breaks the match, and its LF is dropped
        have hpieces : Pattern.Pieces terminator ([CR, LF, CR] ++ ([LF] ++ [])) :=
          .cons (.intro 2 CR (by decide) (by decide))
            (.cons (.intro 0 LF (by decide) (by decide)) .nil)
        have hne : lines ≠ [] := by
          rintro rfl
          exact hlast rfl
        exact hpieces.before (hmissed hne) rfl
      | cons a t =>
        have ht : CR ∉ t := fun h => hcr _ List.mem_cons_self (List.mem_cons_of_mem a h)
        by_cases hdot : a = DOT
        · subst hdot
          have hbroken : Pattern.Broken terminator [CR, LF, DOT, DOT] :=
            .intro 3 DOT (by decide) (by decide)
          refine (hbroken.pieces.append (Pattern.pieces_of_notMem rfl ht)).before hnoticed ?_
          rw [DotStuffing.stuff_dot]
          simp
        · have hbroken : Pattern.Broken terminator [CR, LF, a] :=
            .intro 2 a (by decide) (by simpa using Ne.symm hdot)
          refine (hbroken.pieces.append (Pattern.pieces_of_notMem rfl ht)).before hnoticed ?_
          rw [DotStuffing.stuff_of_ne DOT hdot]
          simp
    · intro _
      exact (Pattern.pieces_of_notMem rfl hline).before hnoticed rfl

/-- **Ordinary replies** are read: no CR inside the status line or a line, and a body whose
first and last lines are not empty. -/
theorem ServerReply.readable_of_plain (r : ServerReply) (cmd : ClientCommand) (htext : CR ∉ r.text)
    (hlines : PlainLines r.lines) (hne : r.lines ≠ []) (hfirst : r.lines.head? ≠ some []) :
    r.Readable cmd := by
  have hstatus : CR ∉ (match r.status with
      | .ok => ascii "OK"
      | .err => ascii "ERR") ++ r.text := by
    rw [List.mem_append, not_or]
    refine ⟨?_, htext⟩
    cases r.status <;> decide
  refine ⟨_, _, Pattern.pieces_of_notMem rfl hstatus, rfl, ?_⟩
  split_ifs with hbody
  · cases hcase : r.lines with
    | nil => exact absurd hcase hne
    | cons line lines =>
      rw [hcase] at hlines hfirst
      have hline := cr_notMem_stuff (hlines.1 line List.mem_cons_self)
      cases hstuff : DotStuffing.stuff DOT line with
      | nil =>
        refine absurd ?_ hfirst
        rw [List.head?_cons, Option.some_inj]
        cases line with
        | nil => rfl
        | cons a t =>
          rw [DotStuffing.stuff] at hstuff
          split_ifs at hstuff
      | cons b t =>
        rw [hstuff] at hline
        have hb : b ≠ CR := fun h => hline (h ▸ List.mem_cons_self)
        have ht : CR ∉ t := fun h => hline (List.mem_cons_of_mem b h)
        have hbroken : Pattern.Broken terminator [CR, LF, DOT, b] :=
          .intro 3 b (by decide) (by simpa using Ne.symm hb)
        have hrest := (sentLines_pieces hlines.tail).1
        obtain ⟨x, hx, heq⟩ := (hbroken.pieces.append (Pattern.pieces_of_notMem rfl ht)).before
          hrest (w := CRLF ++ DOT :: sentLines (line :: lines))
            (by rw [sentLines_cons, hstuff]; simp)
        have hlen : (sentLines (line :: lines)).length + 3 = (x ++ terminator).length := by
          rw [← heq]
          simp
        show Pattern.CleanEnd terminator (CRLF ++ DOT :: sentLines (line :: lines))
          ((sentLines (line :: lines)).length + 3)
        rw [hlen, heq]
        exact hx.cleanEnd
  · rfl

/-! ## The end of the reply -/

/-- Behind the sign, up to the end of the status line and beyond. -/
theorem scan_replyStep_behindSign {s : Pop3Parser} (hs : s.InStatus) {u : List Byte}
    (hu : Pattern.Pieces CRLF u) (b : List Byte) :
    ((Scan.scan replyStep (some s) (u ++ CRLF ++ b)).verdict = some () ∧
      (Scan.scan replyStep (some s) (u ++ CRLF ++ b)).read = (u ++ CRLF ++ b).length) ↔
      if s.bodyFollows then Pattern.CleanEnd terminator (CRLF ++ DOT :: b) (b.length + 3)
      else b = [] := by
  rw [List.append_assoc]
  obtain ⟨p, hp, hscan⟩ := scan_replyStep_pieces hu hs (CRLF ++ b)
  have hcr := replyStep_cr (s := { s with currParser := some (.singleline p) }) ⟨p, hp, rfl⟩
  have hlf := replyStep_cr_lf (s := { s with currParser := some (.singleline .cr) }) rfl
  have hfollows : Pop3Parser.bodyFollows { s with currParser := some (.singleline .cr) } =
      s.bodyFollows := rfl
  rw [hfollows] at hlf
  rw [hscan, List.cons_append, List.cons_append, List.nil_append, Scan.scan_cons_none _ _ hcr]
  by_cases hbody : s.bodyFollows
  · rw [if_pos hbody] at hlf ⊢
    have hend := scan_replyStep_body
      (s := { s with currParser := some (.multiline .crlfdot), answerStatus := false }) rfl b
    rw [Scan.scan_cons_none _ _ hlf, ← hend]
    simp only [List.length_append, List.length_cons]
    refine and_congr_right fun _ => ?_
    omega
  · rw [if_neg hbody] at hlf ⊢
    rw [Scan.scan_cons_some _ _ hlf]
    simp only [List.length_append, List.length_cons, true_and, ← List.length_eq_zero_iff]
    omega

/-- **The end of the reply** is signalled at its last octet exactly when the parser can
read the status line and the body. -/
theorem reply_end_signalled (s₀ : Pop3Parser) (cmd : ClientCommand) (r : ServerReply) :
    ReplyEndSignalled s₀ cmd r ↔ r.Readable cmd := by
  obtain ⟨s, hrun, hcurr, htype, hargs, hstatus⟩ := pop3ParserRun_line s₀ cmd
  obtain ⟨p, hp, hsign⟩ := replyStep_sign hcurr r
  have hs : Pop3Parser.InStatus { s with
      currParser := some (.singleline p), answerStatus := s.answerStatus || r.status = .ok } :=
    ⟨p, hp, rfl⟩
  have hfollows : Pop3Parser.bodyFollows { s with
      currParser := some (.singleline p), answerStatus := s.answerStatus || r.status = .ok } =
      r.hasBody cmd := by
    simp only [Pop3Parser.bodyFollows, ServerReply.hasBody, ClientCommand.callsForBody, hstatus,
      htype, hargs, Bool.false_or, Option.some_inj, Option.not_isSome, Bool.and_comm]
  -- behind the sign the parser of the status line has taken over
  have hbehind : ReplyEndSignalled s₀ cmd r ↔
      (Scan.scan replyStep (some { s with
          currParser := some (.singleline p), answerStatus := s.answerStatus || r.status = .ok })
        (r.behindSign cmd)).verdict = some () ∧
      (Scan.scan replyStep (some { s with
          currParser := some (.singleline p), answerStatus := s.answerStatus || r.status = .ok })
        (r.behindSign cmd)).read = (r.behindSign cmd).length := by
    unfold ReplyEndSignalled
    rw [hrun]
    simp only [Option.some_inj, exists_eq_left', ServerReply.octets,
      Scan.scan_cons_none _ _ hsign, List.length_cons, Nat.add_right_cancel_iff]
  rw [hbehind]
  constructor
  · rintro ⟨hverdict, hread⟩
    rcases Pattern.split (p := CRLF) (by decide) (r.behindSign cmd) with
      ⟨u, b, hu, heq⟩ | ⟨u, k, hu, hk, heq⟩
    · rw [heq] at hverdict hread
      have h := (scan_replyStep_behindSign hs hu b).mp ⟨hverdict, hread⟩
      rw [hfollows] at h
      exact ⟨u, b, hu, heq, h⟩
    -- the parser notices no end of line, so it is still in the status line
    · obtain ⟨p', hp', hscan⟩ := scan_replyStep_pieces hu hs (CRLF.take k)
      rw [heq, hscan] at hverdict
      obtain rfl | rfl : k = 0 ∨ k = 1 := by
        simp only [List.length_cons, List.length_nil] at hk
        omega
      · exact absurd hverdict (by simp)
      · have hcr := replyStep_cr (s := { s with
          currParser := some (.singleline p'), answerStatus := s.answerStatus || r.status = .ok })
          ⟨p', hp', rfl⟩
        rw [show List.take 1 CRLF = [CR] from rfl, Scan.scan_cons_none _ _ hcr] at hverdict
        exact absurd hverdict (by simp)
  · rintro ⟨u, b, hu, heq, h⟩
    rw [heq]
    rw [← hfollows] at h
    exact (scan_replyStep_behindSign hs hu b).mpr h

/-- `CAPA`, and a reply of one line to it. -/
theorem reply_end_signalled_capa :
    ReplyEndSignalled .initial ⟨ascii "capa", none, by decide +kernel, by decide, by simp⟩
      ⟨.ok, [], [ascii "TOP"], by decide, by decide⟩ :=
  (reply_end_signalled _ _ _).mpr
    (ServerReply.readable_of_plain _ _ (by decide) ⟨by decide, by decide⟩ (by decide) (by decide))

/-- A body without lines: the parser behind the status line takes its dot for text. -/
theorem reply_end_missed :
    ¬ ∀ (s₀ : Pop3Parser) (cmd : ClientCommand) (r : ServerReply), ReplyEndSignalled s₀ cmd r := by
  intro h
  obtain ⟨s, hrun, hverdict, -⟩ := h .initial
    ⟨ascii "CAPA", none, by decide +kernel, by decide, by simp⟩ ⟨.ok, [], [], by decide, by decide⟩
  have hline : pop3ParserRun (pop3ParserReset .initial)
      (ascii "CAPA" ++ CRLF) =
      some ⟨none, ascii "CAPA" ++ [0], 4, false, some .multiline, false⟩ := by decide
  obtain rfl := Option.some.inj (hline.symm.trans hrun)
  revert hverdict
  decide

end Pop3Proxy
