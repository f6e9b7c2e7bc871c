/-
# The parser of content types

`content_type_parser.c`: the value of a `Content-Type` field is cut into its
type, its subtype, the name of a parameter and the text in quotes behind it.
-/
import Pop3Proxy.Filter.MimeMsg

namespace Pop3Proxy

/-- `enum state` of `content_type_parser.c`. -/
inductive MimeTypeState where
  | type0
  | type
  | subtype
  | parameter
  | delimiterStart
  | delimiter
  | delimiterEnd
  | error
  deriving DecidableEq, Repr

/-- `enum mime_type_event_type`. -/
inductive MimeTypeType where
  | type
  | typeEnd
  | subtype
  | parameterStart
  | parameter
  | boundaryEnd
  | delimiterStart
  | delimiter
  | delimiterEnd
  | unexpected
  deriving DecidableEq, Repr

/-- `'/'` -/
abbrev SLASH : Byte := 47
/-- `';'` -/
abbrev SEMICOLON : Byte := 59
/-- `'='` -/
abbrev EQUALS : Byte := 61
/-- `'"'` -/
abbrev QUOTE : Byte := 34

namespace MimeType

/-- `type`: an octet of the type. -/
def type (c : Byte) : ParserEvent MimeTypeType := ⟨.type, [c], 1⟩

/-- `type_end`: the slash. -/
def typeEnd (_ : Byte) : ParserEvent MimeTypeType := ⟨.typeEnd, [SLASH], 1⟩

/-- `subtype`: an octet of the subtype. -/
def subtype (c : Byte) : ParserEvent MimeTypeType := ⟨.subtype, [c], 1⟩

/-- `unexpected`: an octet that has no place in the value. -/
def unexpected (c : Byte) : ParserEvent MimeTypeType := ⟨.unexpected, [c], 1⟩

/-- `parameter_start`: a semicolon. -/
def parameterStart (_ : Byte) : ParserEvent MimeTypeType := ⟨.parameterStart, [SEMICOLON], 1⟩

/-- `parameter`: an octet of the name of a parameter. -/
def parameter (c : Byte) : ParserEvent MimeTypeType := ⟨.parameter, [c], 1⟩

/-- `boundary_end`: the equals sign. -/
def boundaryEnd (_ : Byte) : ParserEvent MimeTypeType := ⟨.boundaryEnd, [EQUALS], 1⟩

/-- `delimiter_start`: the quote before a value. -/
def delimiterStart (_ : Byte) : ParserEvent MimeTypeType := ⟨.delimiterStart, [QUOTE], 1⟩

/-- `delimiter`: an octet of the value. -/
def delimiter (c : Byte) : ParserEvent MimeTypeType := ⟨.delimiter, [c], 1⟩

/-- `delimiter_end`: the octet that ends the value. -/
def delimiterEnd (c : Byte) : ParserEvent MimeTypeType := ⟨.delimiterEnd, [c], 1⟩

end MimeType

open MimeType in
/-- `mime_type_parser` -/
def mimeTypeParser : ParserDefinition MimeTypeState MimeCharClass MimeTypeType where
  states
    | .type0 => [
        { cond := .byte SLASH, dest := .error, act1 := unexpected },
        { cond := .cls .lwsp, dest := .error, act1 := unexpected },
        { cond := .cls .restNameFirst, dest := .type, act1 := type },
        { cond := .any, dest := .error, act1 := unexpected }]
    | .type => [
        { cond := .byte SLASH, dest := .subtype, act1 := typeEnd },
        { cond := .cls .lwsp, dest := .error, act1 := unexpected },
        { cond := .cls .restNameChars, dest := .type, act1 := type },
        { cond := .any, dest := .error, act1 := unexpected }]
    | .subtype => [
        { cond := .cls .lwsp, dest := .error, act1 := unexpected },
        { cond := .byte SEMICOLON, dest := .parameter, act1 := parameterStart },
        { cond := .cls .restNameChars, dest := .subtype, act1 := subtype },
        { cond := .any, dest := .error, act1 := unexpected }]
    | .parameter => [
        { cond := .cls .lwsp, dest := .error, act1 := unexpected },
        { cond := .cls .restNameChars, dest := .parameter, act1 := parameter },
        { cond := .byte EQUALS, dest := .delimiterStart, act1 := boundaryEnd },
        { cond := .any, dest := .error, act1 := unexpected }]
    | .delimiterStart => [
        { cond := .byte QUOTE, dest := .delimiter, act1 := delimiterStart },
        { cond := .any, dest := .error, act1 := unexpected }]
    | .delimiter => [
        { cond := .cls .restNameChars, dest := .delimiter, act1 := delimiter },
        { cond := .cls .bcharsNospace, dest := .delimiter, act1 := delimiter },
        { cond := .byte QUOTE, dest := .delimiterEnd, act1 := delimiterEnd },
        { cond := .any, dest := .error, act1 := unexpected }]
    | .delimiterEnd => [{ cond := .any, dest := .delimiterEnd, act1 := delimiterEnd }]
    | .error => [{ cond := .any, dest := .error, act1 := unexpected }]
  startState := .type0

/-- One octet into the parser. -/
def mimeTypeFeed (p : MimeTypeState) (c : Byte) : MimeTypeState × List (ParserEvent MimeTypeType) :=
  parserFeed initCharClass mimeTypeParser p c

/-! ## One octet, state by state -/

section
open MimeType
variable (c : Byte)

/-- Only the first character of a restricted name starts a type. -/
theorem mimeTypeFeed_type0 : mimeTypeFeed .type0 c =
    if initCharClass .restNameFirst c then (.type, [type c]) else (.error, [unexpected c]) := by
  rw [mimeTypeFeed, parserFeed_eq_firstMatch]
  by_cases h1 : c = SLASH
  · subst h1
    rfl
  by_cases h2 : initCharClass .lwsp c = true
  · rcases lwsp_iff.mp h2 with rfl | rfl <;> rfl
  by_cases h3 : initCharClass .restNameFirst c = true <;>
    simp [mimeTypeParser, firstMatch, When.holds, h1, h2, h3]

/-- The type goes on, or ends in a slash. -/
theorem mimeTypeFeed_type : mimeTypeFeed .type c =
    if c = SLASH then (.subtype, [typeEnd c])
    else if initCharClass .restNameChars c then (.type, [type c])
    else (.error, [unexpected c]) := by
  rw [mimeTypeFeed, parserFeed_eq_firstMatch]
  by_cases h1 : c = SLASH
  · subst h1
    rfl
  by_cases h2 : initCharClass .lwsp c = true
  · rcases lwsp_iff.mp h2 with rfl | rfl <;> rfl
  by_cases h3 : initCharClass .restNameChars c = true <;>
    simp [mimeTypeParser, firstMatch, When.holds, h1, h2, h3]

/-- The subtype goes on, or ends in a semicolon. -/
theorem mimeTypeFeed_subtype : mimeTypeFeed .subtype c =
    if c = SEMICOLON then (.parameter, [parameterStart c])
    else if initCharClass .restNameChars c then (.subtype, [subtype c])
    else (.error, [unexpected c]) := by
  rw [mimeTypeFeed, parserFeed_eq_firstMatch]
  by_cases h1 : c = SEMICOLON
  · subst h1
    rfl
  by_cases h2 : initCharClass .lwsp c = true
  · rcases lwsp_iff.mp h2 with rfl | rfl <;> rfl
  by_cases h3 : initCharClass .restNameChars c = true <;>
    simp [mimeTypeParser, firstMatch, When.holds, h1, h2, h3]

/-- The name of a parameter goes on, or ends in an equals sign. -/
theorem mimeTypeFeed_parameter : mimeTypeFeed .parameter c =
    if initCharClass .restNameChars c then (.parameter, [parameter c])
    else if c = EQUALS then (.delimiterStart, [boundaryEnd c])
    else (.error, [unexpected c]) := by
  rw [mimeTypeFeed, parserFeed_eq_firstMatch]
  by_cases h1 : c = EQUALS
  · subst h1
    rfl
  by_cases h2 : initCharClass .lwsp c = true
  · rcases lwsp_iff.mp h2 with rfl | rfl <;> rfl
  by_cases h3 : initCharClass .restNameChars c = true <;>
    simp [mimeTypeParser, firstMatch, When.holds, h1, h2, h3]

/-- A value starts with a quote. -/
theorem mimeTypeFeed_delimiterStart : mimeTypeFeed .delimiterStart c =
    if c = QUOTE then (.delimiter, [delimiterStart c]) else (.error, [unexpected c]) := by
  rw [mimeTypeFeed, parserFeed_eq_firstMatch]
  by_cases h1 : c = QUOTE <;> simp [mimeTypeParser, firstMatch, When.holds, h1]

/-- The value goes on, or ends in a quote. -/
theorem mimeTypeFeed_delimiter : mimeTypeFeed .delimiter c =
    if initCharClass .restNameChars c || initCharClass .bcharsNospace c then
      (.delimiter, [delimiter c])
    else if c = QUOTE then (.delimiterEnd, [delimiterEnd c])
    else (.error, [unexpected c]) := by
  rw [mimeTypeFeed, parserFeed_eq_firstMatch]
  by_cases h1 : c = QUOTE
  · subst h1
    rfl
  by_cases h2 : initCharClass .restNameChars c = true <;>
    by_cases h3 : initCharClass .bcharsNospace c = true <;>
    simp [mimeTypeParser, firstMatch, When.holds, h1, h2, h3]

/-- Behind the closing quote everything ends the value again. -/
theorem mimeTypeFeed_delimiterEnd :
    mimeTypeFeed .delimiterEnd c = (.delimiterEnd, [delimiterEnd c]) := by
  rw [mimeTypeFeed, parserFeed_eq_firstMatch]
  simp [mimeTypeParser, firstMatch, When.holds]

/-- There is no way out of the error. -/
theorem mimeTypeFeed_error : mimeTypeFeed .error c = (.error, [unexpected c]) := by
  rw [mimeTypeFeed, parserFeed_eq_firstMatch]
  simp [mimeTypeParser, firstMatch, When.holds]

end

/-- What an octet does is what one of the transitions of the state does. -/
theorem mimeTypeFeed_of_transitions {p : MimeTypeState} {c : Byte}
    {P : MimeTypeState → List (ParserEvent MimeTypeType) → Prop}
    (h : ∀ t ∈ mimeTypeParser.states p, t.cond.holds initCharClass c →
      P t.dest (t.act1 c :: (t.act2.map (· c)).toList)) :
    P (mimeTypeFeed p c).1 (mimeTypeFeed p c).2 := by
  refine parserFeed_of_transitions ?_ h
  -- the last transition of every state takes whatever comes
  cases p <;> simp [mimeTypeParser]

end Pop3Proxy
