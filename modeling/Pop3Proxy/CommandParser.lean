/-
# The command parser

`pop3_command_parser.c`: the automaton that reads one command line of the
client, and `command_builder`, which collects its keyword, notices whether an
argument follows, and counts the octets of the line.
-/
import Pop3Proxy.Library.Scan
import Pop3Proxy.ParserFactory

namespace Pop3Proxy

/-- `enum structure_builder_states`. -/
inductive StructureBuilderStates where
  | buildFailed
  | building
  | buildFinished
  deriving DecidableEq, Repr

/-! ## The automaton -/

/-- `enum pop3_command_states`. -/
inductive CommandState where
  | kwrd
  | arg
  | cr
  | crlf
  | err
  deriving DecidableEq, Repr

/-- The events of `enum pop3_event_type` that the command parser emits. -/
inductive CommandEvent where
  | ignore
  | bufferCmd
  | hasArgs
  | setCmd
  | badCmd
  deriving DecidableEq, Repr

/-- `buffer_cmd`: a character of the keyword. -/
def bufferCmd (c : Byte) : ParserEvent CommandEvent := ⟨.bufferCmd, [c], 1⟩

/-- `has_args`: the command has arguments. -/
def hasArgs (_ : Byte) : ParserEvent CommandEvent := ⟨.hasArgs, [], 0⟩

/-- `set_cmd`: the keyword is over. -/
def setCmd (_ : Byte) : ParserEvent CommandEvent := ⟨.setCmd, [], 0⟩

/-- `bad_cmd`: a bad input. -/
def badCmd (_ : Byte) : ParserEvent CommandEvent := ⟨.badCmd, [], 0⟩

/-- `ignore`: there is nothing to report. -/
def ignoreCmd (_ : Byte) : ParserEvent CommandEvent := ⟨.ignore, [], 0⟩

/-- `pop3_command_definition`. -/
def pop3CommandDefinition : ParserDefinition CommandState Empty CommandEvent where
  states
    | .kwrd => [
        { cond := .byte SP, dest := .arg, act1 := hasArgs },
        { cond := .byte CR, dest := .cr, act1 := ignoreCmd },
        { cond := .any, dest := .kwrd, act1 := bufferCmd }]
    | .arg => [
        { cond := .byte CR, dest := .cr, act1 := ignoreCmd },
        { cond := .any, dest := .arg, act1 := ignoreCmd }]
    | .cr => [
        { cond := .byte LF, dest := .crlf, act1 := setCmd },
        { cond := .any, dest := .err, act1 := badCmd }]
    | .crlf => [{ cond := .any, dest := .crlf, act1 := ignoreCmd }]
    | .err => [{ cond := .any, dest := .err, act1 := badCmd }]
  startState := .kwrd

/-- One octet into the command parser. -/
def commandFeed (p : CommandState) (c : Byte) : CommandState × List (ParserEvent CommandEvent) :=
  parserFeed parserNoClasses pop3CommandDefinition p c

/-- A keyword goes on, or ends in a space or CR. -/
theorem commandFeed_kwrd (c : Byte) :
    commandFeed .kwrd c =
      if c = SP then (.arg, [hasArgs c])
      else if c = CR then (.cr, [ignoreCmd c]) else (.kwrd, [bufferCmd c]) := by
  by_cases h1 : c = SP
  · simp [commandFeed, parserFeed, pop3CommandDefinition, When.holds, h1]
  · by_cases h2 : c = CR <;>
      simp [commandFeed, parserFeed, pop3CommandDefinition, When.holds, List.find?, h1, h2]

/-- Arguments go on until CR. -/
theorem commandFeed_arg (c : Byte) :
    commandFeed .arg c = if c = CR then (.cr, [ignoreCmd c]) else (.arg, [ignoreCmd c]) := by
  by_cases h : c = CR <;>
    simp [commandFeed, parserFeed, pop3CommandDefinition, When.holds, List.find?, h]

/-- Behind CR the command is complete or bad. -/
theorem commandFeed_cr (c : Byte) :
    commandFeed .cr c = if c = LF then (.crlf, [setCmd c]) else (.err, [badCmd c]) := by
  by_cases h : c = LF <;>
    simp [commandFeed, parserFeed, pop3CommandDefinition, When.holds, List.find?, h]

/-! ## The builder -/

/-- `MAX_KEYWORD_LENGTH` -/
def maxKeywordLength : ℕ := 4

/-- `struct pop3_command_builder`; the array `kwrd` is NUL beyond the `kwrd_ptr`
octets collected so far, so the list of those octets stands for both. -/
structure Pop3CommandBuilder where
  kwrd : List Byte
  hasArgs : Bool
  deriving DecidableEq, Repr

/-- The builder as `command_init` and `pipe_init` clear it. -/
def Pop3CommandBuilder.clear : Pop3CommandBuilder := ⟨[], false⟩

/-- `set_pop3_command_builder_next`: `none` when the keyword is already full. -/
def setPop3CommandBuilderNext (cmd : Pop3CommandBuilder) (value : Byte) :
    Option Pop3CommandBuilder :=
  if maxKeywordLength ≤ cmd.kwrd.length then none
  else some { cmd with kwrd := cmd.kwrd ++ [value] }

/-- The body of the loop of `command_builder`: the switch on the type of the event. -/
def commandBuilderStep (s : CommandState × Pop3CommandBuilder) (c : Byte) :
    (CommandState × Pop3CommandBuilder) × Option StructureBuilderStates :=
  match commandFeed s.1 c with
  | (p, e :: _) =>
    match e.type with
    | .bufferCmd =>
      match setPop3CommandBuilderNext s.2 c with
      | some cmd => ((p, cmd), none)
      | none => ((p, s.2), some .buildFailed)  -- falls through into `BAD_CMD`
    | .badCmd => ((p, s.2), some .buildFailed)
    | .setCmd => ((p, s.2), some .buildFinished)
    | .hasArgs => ((p, { s.2 with hasArgs := true }), none)
    | .ignore => ((p, s.2), none)
  | (p, []) => ((p, s.2), none)

/-- `command_builder`: the outcome holds the parser and the builder after the
chunk, the result (none for `BUILDING`; `*error` is set exactly with
`BUILD_FAILED`) and the count stored in `*read`. -/
def commandBuilder (bs : List Byte) (p : CommandState) (cmd : Pop3CommandBuilder) :
    Scan.Outcome (CommandState × Pop3CommandBuilder) StructureBuilderStates :=
  Scan.scan commandBuilderStep (p, cmd) bs

/-- The value `command_builder` returns. -/
def builderResult {S : Type} (o : Scan.Outcome S StructureBuilderStates) : StructureBuilderStates :=
  o.verdict.getD .building

/-- What a builder returns, and whether it sets `*error`, which it does in front of
`return BUILD_FAILED` only. -/
def builderReturn (verdict : Option StructureBuilderStates) : StructureBuilderStates × Bool :=
  (verdict.getD .building, verdict = some .buildFailed)

/-! ## What it makes of a line -/

theorem commandBuilderStep_kwrd_of_room {cmd : Pop3CommandBuilder} {c : Byte}
    (hsp : c ≠ SP) (hcr : c ≠ CR) (hroom : cmd.kwrd.length < maxKeywordLength) :
    commandBuilderStep (.kwrd, cmd) c = ((.kwrd, { cmd with kwrd := cmd.kwrd ++ [c] }), none) := by
  simp [commandBuilderStep, commandFeed_kwrd, hsp, hcr, bufferCmd, setPop3CommandBuilderNext,
    Nat.not_le.mpr hroom]

/-- There is no room for a fifth octet. -/
theorem commandBuilderStep_kwrd_full {cmd : Pop3CommandBuilder} {c : Byte}
    (hsp : c ≠ SP) (hcr : c ≠ CR) (hfull : maxKeywordLength ≤ cmd.kwrd.length) :
    commandBuilderStep (.kwrd, cmd) c = ((.kwrd, cmd), some .buildFailed) := by
  simp [commandBuilderStep, commandFeed_kwrd, hsp, hcr, bufferCmd, setPop3CommandBuilderNext, hfull]

theorem commandBuilderStep_kwrd_sp (cmd : Pop3CommandBuilder) :
    commandBuilderStep (.kwrd, cmd) SP = ((.arg, { cmd with hasArgs := true }), none) := by
  simp [commandBuilderStep, commandFeed_kwrd, hasArgs]

theorem commandBuilderStep_kwrd_cr (cmd : Pop3CommandBuilder) :
    commandBuilderStep (.kwrd, cmd) CR = ((.cr, cmd), none) := by
  simp [commandBuilderStep, commandFeed_kwrd, ignoreCmd]

theorem commandBuilderStep_arg_of_ne_cr (cmd : Pop3CommandBuilder) {c : Byte} (h : c ≠ CR) :
    commandBuilderStep (.arg, cmd) c = ((.arg, cmd), none) := by
  simp [commandBuilderStep, commandFeed_arg, h, ignoreCmd]

theorem commandBuilderStep_arg_cr (cmd : Pop3CommandBuilder) :
    commandBuilderStep (.arg, cmd) CR = ((.cr, cmd), none) := by
  simp [commandBuilderStep, commandFeed_arg, ignoreCmd]

theorem commandBuilderStep_cr_lf (cmd : Pop3CommandBuilder) :
    commandBuilderStep (.cr, cmd) LF = ((.crlf, cmd), some .buildFinished) := by
  simp [commandBuilderStep, commandFeed_cr, setCmd]

theorem commandBuilderStep_cr_of_ne_lf (cmd : Pop3CommandBuilder) {c : Byte} (h : c ≠ LF) :
    commandBuilderStep (.cr, cmd) c = ((.err, cmd), some .buildFailed) := by
  simp [commandBuilderStep, commandFeed_cr, h, badCmd]

/-- A keyword that fits is collected whole. -/
theorem commandBuilder_kwrd (k : List Byte) (rest : List Byte) (cmd : Pop3CommandBuilder)
    (hk : ∀ c ∈ k, c ≠ SP ∧ c ≠ CR) (hlen : cmd.kwrd.length + k.length ≤ maxKeywordLength) :
    commandBuilder (k ++ rest) .kwrd cmd =
      { commandBuilder rest .kwrd { cmd with kwrd := cmd.kwrd ++ k } with
        read :=
          k.length + (commandBuilder rest .kwrd { cmd with kwrd := cmd.kwrd ++ k }).read } := by
  induction k generalizing cmd with
  | nil => simp
  | cons c k ih =>
    obtain ⟨hsp, hcr⟩ := hk c (by simp)
    have hroom : cmd.kwrd.length < maxKeywordLength := by
      simp only [List.length_cons] at hlen
      omega
    have ih := ih { cmd with kwrd := cmd.kwrd ++ [c] } (fun d hd => hk d (by simp [hd]))
      (by simp only [List.length_append, List.length_cons, List.length_nil] at hlen ⊢; omega)
    rw [commandBuilder, List.cons_append,
      Scan.scan_cons_none _ _ (commandBuilderStep_kwrd_of_room hsp hcr hroom)]
    unfold commandBuilder at ih
    rw [ih]
    simp only [List.append_assoc, List.singleton_append, List.length_cons, commandBuilder]
    congr 1
    omega

/-- An argument free of CR is skipped. -/
theorem commandBuilder_arg (a : List Byte) (rest : List Byte) (cmd : Pop3CommandBuilder)
    (ha : CR ∉ a) :
    commandBuilder (a ++ rest) .arg cmd =
      { commandBuilder rest .arg cmd with
        read := a.length + (commandBuilder rest .arg cmd).read } := by
  induction a with
  | nil => simp
  | cons c a ih =>
    have hc : c ≠ CR := fun h => ha (by simp [h])
    have ih := ih (fun h => ha (by simp [h]))
    rw [commandBuilder, List.cons_append,
      Scan.scan_cons_none _ _ (commandBuilderStep_arg_of_ne_cr cmd hc)]
    unfold commandBuilder at ih
    rw [ih]
    simp only [List.length_cons, commandBuilder]
    congr 1
    omega

end Pop3Proxy
