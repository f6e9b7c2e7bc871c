/-
# The message tokenizer

`mime_msg.c` and `mime_chars.c`: a message is cut into the names and values of
its header fields and its body.
-/
import Pop3Proxy.ParserFactory

namespace Pop3Proxy

/-! ## Classes of octets -/

/-- `enum mime_char_class`, as far as a parser looks at it. -/
inductive MimeCharClass where
  | char
  | ctl
  | lwsp
  | restNameFirst
  | restNameChars
  | bcharsNospace
  deriving DecidableEq, Repr

/-- `isalnum` for ASCII. -/
def isAlnum (c : Byte) : Bool :=
  (65 ≤ c && c ≤ 90) || (97 ≤ c && c ≤ 122) || (48 ≤ c && c ≤ 57)

/-- `init_char_class` -/
def initCharClass : MimeCharClass → Byte → Bool
  | .char, c => c ≤ 127
  | .ctl, c => c ≤ 31
  | .lwsp, c => c = TAB || c = SP
  | .restNameFirst, c => isAlnum c
  | .restNameChars, c => isAlnum c || (ascii "!#$&-^_.+").contains c
  | .bcharsNospace, c => isAlnum c || (ascii "'()+_,-./:=?").contains c

/-- White space is a tab or a space. -/
theorem lwsp_iff {c : Byte} : initCharClass .lwsp c = true ↔ c = TAB ∨ c = SP := by
  simp [initCharClass]

/-! ## The automaton -/

/-- `enum state` of `mime_msg.c`. -/
inductive MimeMsgState where
  | name0
  | name
  | value
  | valueCr
  | valueCrlf
  | fold
  | valueCrlfCr
  | body
  | bodyCr
  | error
  deriving DecidableEq, Repr

/-- `enum mime_msg_event_type`. -/
inductive MimeMsgType where
  | name
  | nameEnd
  | value
  | valueFold
  | valueEnd
  | bodyStart
  | body
  | wait
  | unexpected
  | bodyCr
  | bodyNewline
  deriving DecidableEq, Repr

/-- `':'` -/
abbrev COLON : Byte := 58

namespace MimeMsg

/-- `name`: an octet of the name of a field. -/
def name (c : Byte) : ParserEvent MimeMsgType := ⟨.name, [c], 1⟩

/-- `name_end`: the colon. -/
def nameEnd (_ : Byte) : ParserEvent MimeMsgType := ⟨.nameEnd, [COLON], 1⟩

/-- `value`: an octet of the value of a field. -/
def value (c : Byte) : ParserEvent MimeMsgType := ⟨.value, [c], 1⟩

/-- `value_cr`: the CR that turned out to belong to the value. -/
def valueCr (_ : Byte) : ParserEvent MimeMsgType := ⟨.value, [CR], 1⟩

/-- `value_fold_crlf`: the CRLF that turned out to be a fold. -/
def valueFoldCrlf (_ : Byte) : ParserEvent MimeMsgType := ⟨.valueFold, CRLF, 2⟩

/-- `value_fold`: the white space of the fold. -/
def valueFold (c : Byte) : ParserEvent MimeMsgType := ⟨.valueFold, [c], 1⟩

/-- `value_end`: the CRLF that ends the field. -/
def valueEnd (_ : Byte) : ParserEvent MimeMsgType := ⟨.valueEnd, CRLF, 2⟩

/-- `wait`: what the octet is will show. -/
def wait (c : Byte) : ParserEvent MimeMsgType := ⟨.wait, [c], 0⟩

/-- `body_start`: the blank line. -/
def bodyStart (_ : Byte) : ParserEvent MimeMsgType := ⟨.bodyStart, CRLF, 2⟩

/-- `body`: an octet of the body. -/
def body (c : Byte) : ParserEvent MimeMsgType := ⟨.body, [c], 1⟩

/-- `body_crlf`: a CR in the body. -/
def bodyCrlf (c : Byte) : ParserEvent MimeMsgType := ⟨.bodyCr, [c], 1⟩

/-- `body_newline`: the octet that ends a line of the body. -/
def bodyNewline (c : Byte) : ParserEvent MimeMsgType := ⟨.bodyNewline, [c], 1⟩

/-- `unexpected`: the octet has no place in the header. -/
def unexpected (c : Byte) : ParserEvent MimeMsgType := ⟨.unexpected, [c], 1⟩

end MimeMsg

open MimeMsg in
/-- `mime_message_parser` -/
def mimeMessageParser : ParserDefinition MimeMsgState MimeCharClass MimeMsgType where
  states
    | .name0 => [
        { cond := .byte COLON, dest := .error, act1 := unexpected },
        { cond := .byte SP, dest := .error, act1 := unexpected },
        { cond := .cls .ctl, dest := .error, act1 := unexpected },
        { cond := .cls .char, dest := .name, act1 := name },
        { cond := .any, dest := .error, act1 := unexpected }]
    | .name => [
        { cond := .byte COLON, dest := .value, act1 := nameEnd },
        { cond := .byte SP, dest := .error, act1 := unexpected },
        { cond := .cls .ctl, dest := .error, act1 := unexpected },
        { cond := .cls .char, dest := .name, act1 := name },
        { cond := .any, dest := .error, act1 := unexpected }]
    | .value => [
        { cond := .cls .lwsp, dest := .fold, act1 := valueFold },
        { cond := .byte CR, dest := .valueCr, act1 := wait },
        { cond := .any, dest := .value, act1 := value }]
    | .valueCr => [
        { cond := .byte LF, dest := .valueCrlf, act1 := wait },
        { cond := .any, dest := .value, act1 := valueCr, act2 := some value }]
    | .valueCrlf => [
        { cond := .byte COLON, dest := .error, act1 := unexpected },
        { cond := .byte CR, dest := .valueCrlfCr, act1 := wait },
        { cond := .cls .lwsp, dest := .fold, act1 := valueFoldCrlf, act2 := some valueFold },
        { cond := .cls .ctl, dest := .error, act1 := valueEnd, act2 := some unexpected },
        { cond := .cls .char, dest := .name, act1 := valueEnd, act2 := some name },
        { cond := .any, dest := .error, act1 := unexpected }]
    | .fold => [
        { cond := .cls .lwsp, dest := .fold, act1 := valueFold },
        { cond := .any, dest := .value, act1 := value }]
    | .valueCrlfCr => [
        { cond := .byte LF, dest := .body, act1 := valueEnd, act2 := some bodyStart },
        { cond := .any, dest := .error, act1 := valueEnd, act2 := some unexpected }]
    | .body => [
        { cond := .byte CR, dest := .bodyCr, act1 := bodyCrlf },
        { cond := .any, dest := .body, act1 := body }]
    | .bodyCr => [
        { cond := .byte LF, dest := .body, act1 := bodyNewline },
        { cond := .any, dest := .error, act1 := unexpected }]
    | .error => [{ cond := .any, dest := .error, act1 := unexpected }]
  startState := .name0

/-- One octet into the tokenizer. -/
def mimeMsgFeed (p : MimeMsgState) (c : Byte) : MimeMsgState × List (ParserEvent MimeMsgType) :=
  parserFeed initCharClass mimeMessageParser p c

/-! ## One octet, state by state -/

/-- An octet of the name of a field. -/
def nameChar (c : Byte) : Bool :=
  c ≠ COLON && c ≠ SP && !initCharClass .ctl c && initCharClass .char c

/-- `LWSP-char` -/
def lwspChar (c : Byte) : Bool := initCharClass .lwsp c

section
open MimeMsg
variable (c : Byte)

/-- A header starts with a name. -/
theorem mimeMsgFeed_name0 : mimeMsgFeed .name0 c =
    if nameChar c then (.name, [name c]) else (.error, [unexpected c]) := by
  rw [mimeMsgFeed, parserFeed_eq_firstMatch]
  by_cases h1 : c = COLON <;> by_cases h2 : c = SP <;> by_cases h3 : initCharClass .ctl c = true <;>
    by_cases h4 : initCharClass .char c = true <;>
    simp [mimeMessageParser, firstMatch, When.holds, nameChar, h1, h2, h3, h4]

/-- The name goes on, or ends in a colon. -/
theorem mimeMsgFeed_name : mimeMsgFeed .name c =
    if c = COLON then (.value, [nameEnd c])
    else if nameChar c then (.name, [name c]) else (.error, [unexpected c]) := by
  rw [mimeMsgFeed, parserFeed_eq_firstMatch]
  by_cases h1 : c = COLON <;> by_cases h2 : c = SP <;> by_cases h3 : initCharClass .ctl c = true <;>
    by_cases h4 : initCharClass .char c = true <;>
    simp [mimeMessageParser, firstMatch, When.holds, nameChar, h1, h2, h3, h4]

/-- The value goes on; white space and CR have to be looked at. -/
theorem mimeMsgFeed_value : mimeMsgFeed .value c =
    if lwspChar c then (.fold, [valueFold c])
    else if c = CR then (.valueCr, [wait c]) else (.value, [value c]) := by
  rw [mimeMsgFeed, parserFeed_eq_firstMatch]
  by_cases h1 : initCharClass .lwsp c = true <;> by_cases h2 : c = CR <;>
    simp [mimeMessageParser, firstMatch, When.holds, lwspChar, h1, h2]

/-- A CR alone belongs to the value. -/
theorem mimeMsgFeed_valueCr : mimeMsgFeed .valueCr c =
    if c = LF then (.valueCrlf, [wait c]) else (.value, [valueCr c, value c]) := by
  rw [mimeMsgFeed, parserFeed_eq_firstMatch]
  simp [mimeMessageParser, firstMatch, When.holds]

/-- Behind the end of a line: the blank line, a fold, another field, or neither of them. -/
theorem mimeMsgFeed_valueCrlf : mimeMsgFeed .valueCrlf c =
    if c = CR then (.valueCrlfCr, [wait c])
    else if lwspChar c then (.fold, [valueFoldCrlf c, valueFold c])
    else if nameChar c then (.name, [valueEnd c, name c])
    else if initCharClass .ctl c then (.error, [valueEnd c, unexpected c])
    else (.error, [unexpected c]) := by
  rw [mimeMsgFeed, parserFeed_eq_firstMatch]
  by_cases h1 : c = COLON
  · subst h1
    rfl
  by_cases h2 : c = SP
  · subst h2
    rfl
  by_cases h5 : c = CR
  · subst h5
    rfl
  by_cases h0 : initCharClass .lwsp c = true <;> by_cases h3 : initCharClass .ctl c = true <;>
    by_cases h4 : initCharClass .char c = true <;>
    simp [mimeMessageParser, firstMatch, When.holds, nameChar, lwspChar, h0, h1, h2, h3, h4, h5]

/-- White space goes on, or the value does. -/
theorem mimeMsgFeed_fold : mimeMsgFeed .fold c =
    if lwspChar c then (.fold, [valueFold c]) else (.value, [value c]) := by
  rw [mimeMsgFeed, parserFeed_eq_firstMatch]
  by_cases h1 : initCharClass .lwsp c = true <;>
    simp [mimeMessageParser, firstMatch, When.holds, lwspChar, h1]

/-- The blank line, or an error. -/
theorem mimeMsgFeed_valueCrlfCr : mimeMsgFeed .valueCrlfCr c =
    if c = LF then (.body, [valueEnd c, bodyStart c])
    else (.error, [valueEnd c, unexpected c]) := by
  rw [mimeMsgFeed, parserFeed_eq_firstMatch]
  simp [mimeMessageParser, firstMatch, When.holds]

/-- A line of the body goes on until CR. -/
theorem mimeMsgFeed_body : mimeMsgFeed .body c =
    if c = CR then (.bodyCr, [bodyCrlf c]) else (.body, [body c]) := by
  rw [mimeMsgFeed, parserFeed_eq_firstMatch]
  simp [mimeMessageParser, firstMatch, When.holds]

/-- Behind CR a line of the body ends, or the body does not go on. -/
theorem mimeMsgFeed_bodyCr : mimeMsgFeed .bodyCr c =
    if c = LF then (.body, [bodyNewline c]) else (.error, [unexpected c]) := by
  rw [mimeMsgFeed, parserFeed_eq_firstMatch]
  simp [mimeMessageParser, firstMatch, When.holds]

/-- There is no way out of the error. -/
theorem mimeMsgFeed_error : mimeMsgFeed .error c = (.error, [unexpected c]) := by
  rw [mimeMsgFeed, parserFeed_eq_firstMatch]
  simp [mimeMessageParser, firstMatch, When.holds]

end

/-! ## The transitions in general -/

section
variable {s : MimeMsgState} {c : Byte}

/-- What an octet does is what one of the transitions of the state does. -/
theorem mimeMsgFeed_of_transitions {P : MimeMsgState → List (ParserEvent MimeMsgType) → Prop}
    (h : ∀ t ∈ mimeMessageParser.states s, t.cond.holds initCharClass c →
      P t.dest (t.act1 c :: (t.act2.map (· c)).toList)) :
    P (mimeMsgFeed s c).1 (mimeMsgFeed s c).2 := by
  refine parserFeed_of_transitions ?_ h
  -- the last transition of every state takes whatever comes
  cases s <;> simp [mimeMessageParser]

/-- A body is entered behind a blank line, and read in a body. -/
theorem mimeMsgFeed_intoBody : (mimeMsgFeed s c).1 = .body ∨ (mimeMsgFeed s c).1 = .bodyCr →
    s = .valueCrlfCr ∧ c = LF ∨ s = .body ∨ s = .bodyCr ∧ c = LF := by
  refine mimeMsgFeed_of_transitions (P := fun s' _ => s' = .body ∨ s' = .bodyCr →
    s = .valueCrlfCr ∧ c = LF ∨ s = .body ∨ s = .bodyCr ∧ c = LF) ?_
  cases s <;> simp [mimeMessageParser, When.holds]

end

end Pop3Proxy
