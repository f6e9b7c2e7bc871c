/-
# Command lines

What `command_builder` accepts: a keyword of at most four octets, an argument
behind a space if there is one, and CRLF.  No line is the beginning of another, so
the stream alone tells where each ends.
-/
import Mathlib.Data.List.TakeWhile
import Pop3Proxy.CommandParser

namespace Pop3Proxy

/-- Octets that neither end a keyword nor a line. -/
def KeywordOctets (k : List Byte) : Prop := ∀ c ∈ k, c ≠ SP ∧ c ≠ CR

/-- A line without its end: the keyword, and the argument if there is one. -/
inductive CommandText : Pop3CommandBuilder → List Byte → Prop
  | plain {k : List Byte} (hk : KeywordOctets k) (hlen : k.length ≤ maxKeywordLength) :
      CommandText ⟨k, false⟩ k
  | args {k a : List Byte} (hk : KeywordOctets k) (hlen : k.length ≤ maxKeywordLength)
      (ha : CR ∉ a) : CommandText ⟨k, true⟩ (k ++ SP :: a)

/-- A whole line. -/
def CommandLine (cmd : Pop3CommandBuilder) (line : List Byte) : Prop :=
  ∃ text, CommandText cmd text ∧ line = text ++ CRLF

/-- The octets with which a line goes wrong: a fifth of the keyword, or something other
than LF behind CR. -/
inductive BadCommand : List Byte → Prop
  | keyword {k : List Byte} (hk : KeywordOctets k) (hlen : k.length = maxKeywordLength + 1) :
      BadCommand k
  | ending {cmd : Pop3CommandBuilder} {text : List Byte} {c : Byte} (htext : CommandText cmd text)
      (hc : c ≠ LF) : BadCommand (text ++ [CR, c])

/-- What the builder has read, in each of its states, while it is still building. -/
inductive CommandBegun : List Byte → CommandState × Pop3CommandBuilder → Prop
  | kwrd {k : List Byte} (hk : KeywordOctets k) (hlen : k.length ≤ maxKeywordLength) :
      CommandBegun k (.kwrd, ⟨k, false⟩)
  | arg {k a : List Byte} (hk : KeywordOctets k) (hlen : k.length ≤ maxKeywordLength)
      (ha : CR ∉ a) : CommandBegun (k ++ SP :: a) (.arg, ⟨k, true⟩)
  | cr {cmd : Pop3CommandBuilder} {text : List Byte} (htext : CommandText cmd text) :
      CommandBegun (text ++ [CR]) (.cr, cmd)

/-! ## No line is another kind of line -/

/-- A command has no CR before its end. -/
theorem CommandText.cr_notMem {cmd : Pop3CommandBuilder} {text : List Byte}
    (h : CommandText cmd text) : CR ∉ text := by
  cases h with
  | plain hk hlen => exact fun h => (hk CR h).2 rfl
  | args hk hlen ha =>
    intro h
    rcases List.mem_append.mp h with h | h
    · exact (hk CR h).2 rfl
    · rcases List.mem_cons.mp h with h | h
      · exact absurd h (by decide)
      · exact ha h

/-- The text tells the keyword and whether there is an argument. -/
theorem CommandText.cmd_eq {cmd : Pop3CommandBuilder} {text : List Byte}
    (h : CommandText cmd text) : cmd = ⟨text.takeWhile (· ≠ SP), SP ∈ text⟩ := by
  cases h with
  | plain hk hlen =>
    have hsp : SP ∉ text := fun h => (hk SP h).1 rfl
    have htake : text.takeWhile (· ≠ SP) = text :=
      List.takeWhile_eq_self_iff.mpr fun c hc => decide_eq_true (hk c hc).1
    rw [htake, decide_eq_false hsp]
  | @args k a hk hlen ha =>
    have htake : (k ++ SP :: a).takeWhile (· ≠ SP) = k := by
      rw [List.takeWhile_append_of_pos fun c hc => decide_eq_true (hk c hc).1]
      simp
    rw [htake, decide_eq_true (by simp)]

/-- A line is one command. -/
theorem CommandLine.unique {cmd cmd' : Pop3CommandBuilder} {line : List Byte}
    (h : CommandLine cmd line) (h' : CommandLine cmd' line) : cmd = cmd' := by
  obtain ⟨text, htext, rfl⟩ := h
  obtain ⟨text', htext', heq⟩ := h'
  obtain rfl := List.append_cancel_right heq
  rw [htext.cmd_eq, htext'.cmd_eq]

/-- Without its CR a line that has begun is the text of one. -/
theorem CommandBegun.text {bs : List Byte} {s : CommandState × Pop3CommandBuilder}
    (h : CommandBegun bs s) : CR ∉ bs ∨ ∃ text, CR ∉ text ∧ bs = text ++ [CR] := by
  cases h with
  | kwrd hk hlen => exact Or.inl (CommandText.plain hk hlen).cr_notMem
  | arg hk hlen ha => exact Or.inl (CommandText.args hk hlen ha).cr_notMem
  | cr htext => exact Or.inr ⟨_, htext.cr_notMem, rfl⟩

/-- It is not a bad one, too. -/
theorem CommandLine.not_bad {cmd : Pop3CommandBuilder} {line : List Byte}
    (h : CommandLine cmd line) : ¬ BadCommand line := by
  obtain ⟨text, htext, rfl⟩ := h
  intro hbad
  generalize hline : text ++ CRLF = line at hbad
  cases hbad with
  | keyword hk hlen => exact (hk CR (by simp [← hline, CRLF])).2 rfl
  | ending htext' hc =>
    have hlast := List.append_inj_right' hline rfl
    simp only [CRLF, List.cons.injEq, and_true, true_and] at hlast
    exact hc hlast.symm

/-- Nor is it the beginning of one. -/
theorem CommandLine.not_begun {cmd : Pop3CommandBuilder} {line : List Byte}
    {s : CommandState × Pop3CommandBuilder} (h : CommandLine cmd line) : ¬ CommandBegun line s := by
  obtain ⟨text, htext, rfl⟩ := h
  intro hbegun
  rcases hbegun.text with hcr | ⟨text', -, heq⟩
  · exact hcr (by simp [CRLF])
  · have hlast := congrArg List.getLast? heq
    simp [CRLF] at hlast

/-- Nor is a bad one. -/
theorem BadCommand.not_begun {line : List Byte} {s : CommandState × Pop3CommandBuilder}
    (h : BadCommand line) : ¬ CommandBegun line s := by
  intro hbegun
  cases h with
  | keyword hk hlen =>
    cases hbegun with
    | kwrd hk' hlen' => omega
    | arg hk' hlen' ha => exact (hk SP (by simp)).1 rfl
    | cr htext => exact (hk CR (by simp)).2 rfl
  | @ending cmd text c htext hc =>
    rcases hbegun.text with hcr | ⟨text', hcr, heq⟩
    · exact hcr (by simp)
    -- the octet behind CR would be another CR, and the first one part of the text
    · rw [List.append_cons] at heq
      exact hcr (by simp [← List.append_inj_left' heq rfl])

/-! ## What the builder makes of a stream -/

/-- A keyword goes on until a space or CR. -/
theorem KeywordOctets.concat {k : List Byte} {c : Byte} (hk : KeywordOctets k) (hsp : c ≠ SP)
    (hcr : c ≠ CR) : KeywordOctets (k ++ [c]) := by
  intro d hd
  rcases List.mem_append.mp hd with hd | hd
  · exact hk d hd
  · rw [List.mem_singleton.mp hd]
    exact ⟨hsp, hcr⟩

/-- What a verdict says of the octets read, the last one included. -/
def CommandJudged (bs : List Byte) (s : CommandState × Pop3CommandBuilder) :
    Option StructureBuilderStates → Prop
  | none => CommandBegun bs s
  | some .buildFinished => CommandLine s.2 bs
  | some .buildFailed => BadCommand bs
  | some .building => False

/-- One octet. -/
theorem commandBuilderStep_judged {bs : List Byte} {s : CommandState × Pop3CommandBuilder}
    (h : CommandBegun bs s) (c : Byte) :
    CommandJudged (bs ++ [c]) (commandBuilderStep s c).1 (commandBuilderStep s c).2 := by
  cases h with
  | kwrd hk hlen =>
    by_cases hsp : c = SP
    · subst hsp
      rw [commandBuilderStep_kwrd_sp]
      exact .arg hk hlen (by simp)
    by_cases hcr : c = CR
    · subst hcr
      rw [commandBuilderStep_kwrd_cr]
      exact .cr (.plain hk hlen)
    by_cases hroom : bs.length < maxKeywordLength
    · rw [commandBuilderStep_kwrd_of_room hsp hcr hroom]
      exact .kwrd (hk.concat hsp hcr) (by rw [List.length_append, List.length_singleton]; omega)
    -- the fifth octet of the keyword
    · rw [commandBuilderStep_kwrd_full hsp hcr (Nat.not_lt.mp hroom)]
      exact .keyword (hk.concat hsp hcr) (by rw [List.length_append, List.length_singleton]; omega)
  | @arg k a hk hlen ha =>
    by_cases hcr : c = CR
    · subst hcr
      rw [commandBuilderStep_arg_cr]
      exact .cr (.args hk hlen ha)
    · rw [commandBuilderStep_arg_of_ne_cr _ hcr, List.append_assoc, List.cons_append]
      exact .arg hk hlen (by simpa [Ne.symm hcr] using ha)
  | @cr cmd text htext =>
    by_cases hlf : c = LF
    · subst hlf
      rw [commandBuilderStep_cr_lf]
      exact ⟨text, htext, by simp [CRLF]⟩
    · rw [commandBuilderStep_cr_of_ne_lf _ hlf, List.append_assoc]
      exact .ending htext hlf

/-- A chunk. -/
theorem commandBuilder_judged {pre : List Byte} {s : CommandState × Pop3CommandBuilder}
    (h : CommandBegun pre s) (bs : List Byte) :
    CommandJudged (pre ++ bs.take (Scan.scan commandBuilderStep s bs).read)
      (Scan.scan commandBuilderStep s bs).state (Scan.scan commandBuilderStep s bs).verdict := by
  induction bs generalizing pre s with
  | nil => simpa [CommandJudged] using h
  | cons c bs ih =>
    have hstep := commandBuilderStep_judged h c
    rcases hs : commandBuilderStep s c with ⟨s', r⟩
    rw [hs] at hstep
    cases r with
    | some r => simpa [Scan.scan_cons_some _ _ hs] using hstep
    | none => simpa [Scan.scan_cons_none _ _ hs] using ih hstep

/-- **A line is read** to its end, and no further. -/
theorem CommandLine.scan {cmd : Pop3CommandBuilder} {line : List Byte} (h : CommandLine cmd line)
    (rest : List Byte) : commandBuilder (line ++ rest) .kwrd .clear =
      ⟨(.crlf, cmd), some .buildFinished, line.length⟩ := by
  have hend (p : CommandState) (hp : commandBuilderStep (p, cmd) CR = ((.cr, cmd), none)) :
      commandBuilder (CRLF ++ rest) p cmd = ⟨(.crlf, cmd), some .buildFinished, 2⟩ := by
    rw [commandBuilder, List.cons_append, List.cons_append, Scan.scan_cons_none _ _ hp,
      Scan.scan_cons_some _ _ (commandBuilderStep_cr_lf cmd)]
  have hempty (n : ℕ) : Pop3CommandBuilder.clear.kwrd.length + n = n := Nat.zero_add n
  obtain ⟨text, htext, rfl⟩ := h
  cases htext with
  | plain hk hlen =>
    rw [List.append_assoc, commandBuilder_kwrd text _ .clear hk (by rwa [hempty])]
    have hcr := hend .kwrd (commandBuilderStep_kwrd_cr _)
    simp only [Pop3CommandBuilder.clear, List.nil_append, hcr, List.length_append, List.length_cons,
      List.length_nil]
  | @args k a hk hlen ha =>
    have hsp : commandBuilder (SP :: a ++ CRLF ++ rest) .kwrd ⟨k, false⟩ =
        ⟨(.crlf, ⟨k, true⟩), some .buildFinished, a.length + 3⟩ := by
      rw [commandBuilder, List.append_assoc, List.cons_append,
        Scan.scan_cons_none _ _ (commandBuilderStep_kwrd_sp _)]
      have harg := commandBuilder_arg a (CRLF ++ rest) ⟨k, true⟩ ha
      rw [hend .arg (commandBuilderStep_arg_cr _)] at harg
      unfold commandBuilder at harg
      rw [harg]
    rw [List.append_assoc, List.append_assoc, commandBuilder_kwrd k _ .clear hk (by rwa [hempty]),
      ← List.append_assoc]
    simp only [Pop3CommandBuilder.clear, List.nil_append, hsp, List.length_append, List.length_cons,
      List.length_nil]
    exact congrArg (Scan.Outcome.mk _ _) (Nat.add_assoc k.length (a.length + 1) 2).symm

/-- The beginning of a line is not judged. -/
theorem CommandLine.begun {cmd : Pop3CommandBuilder} {line held rest : List Byte}
    (h : CommandLine cmd line) (hsplit : held ++ rest = line) (hne : rest ≠ []) :
    (commandBuilder held .kwrd .clear).verdict = none := by
  have hline := h.scan []
  rw [List.append_nil] at hline
  have hshorter : held.length < (Scan.scan commandBuilderStep (.kwrd, .clear) line).read := by
    have hpos := List.length_pos_iff.mpr hne
    show _ < (commandBuilder line .kwrd .clear).read
    rw [hline]
    show held.length < line.length
    rw [← hsplit, List.length_append]
    omega
  have hnone := Scan.scan_take_verdict_none commandBuilderStep hshorter
  rwa [← hsplit, List.take_left' rfl] at hnone

/-- `command_builder` given each chunk in turn, from the parser and the builder that
`command_init` sets up. -/
def commandChunks (chunks : List (List Byte)) :
    Scan.Outcome (CommandState × Pop3CommandBuilder) StructureBuilderStates :=
  Scan.scanChunks commandBuilderStep (pop3CommandDefinition.startState, .clear) chunks

/-- The octets it has consumed. -/
def commandOctets (chunks : List (List Byte)) : List Byte :=
  chunks.flatten.take (commandChunks chunks).read

/-- The result, the builder and the count are those of the grammar. -/
structure CommandRead (chunks : List (List Byte)) : Prop where
  finished : builderReturn (commandChunks chunks).verdict = (.buildFinished, false) ↔
    ∃ cmd, CommandLine cmd (commandOctets chunks)
  collected : ∀ cmd, CommandLine cmd (commandOctets chunks) →
    (commandChunks chunks).state.2 = cmd
  counted : (commandChunks chunks).read = (commandOctets chunks).length
  failed : builderReturn (commandChunks chunks).verdict = (.buildFailed, true) ↔
    BadCommand (commandOctets chunks)
  building : (¬ ∃ cmd, CommandLine cmd (commandOctets chunks)) →
    ¬ BadCommand (commandOctets chunks) →
    builderReturn (commandChunks chunks).verdict = (.building, false) ∧
      commandOctets chunks = chunks.flatten
  recut : ∀ chunks', chunks'.flatten = chunks.flatten → commandChunks chunks' = commandChunks chunks

/-- **Command lines**: `command_builder` accepts exactly its grammar, whatever the reads. -/
theorem command_read (chunks : List (List Byte)) : CommandRead chunks := by
  -- the reads do not matter: the scan is one over all octets
  have hscan : commandChunks chunks =
      Scan.scan commandBuilderStep (.kwrd, .clear) chunks.flatten :=
    Scan.scanChunks_eq _ _ _
  have hbegun : CommandBegun [] (.kwrd, .clear) := .kwrd (by simp [KeywordOctets]) (by simp)
  have hjudged := commandBuilder_judged hbegun chunks.flatten
  rw [← hscan, List.nil_append] at hjudged
  change CommandJudged (commandOctets chunks) _ _ at hjudged
  have hread : (commandChunks chunks).read ≤ chunks.flatten.length := by
    rw [hscan]
    exact Scan.scan_read_le _ _ _
  have hcounted : (commandChunks chunks).read = (commandOctets chunks).length := by
    rw [commandOctets, List.length_take, Nat.min_eq_left hread]
  have hrecut : ∀ chunks', chunks'.flatten = chunks.flatten →
      commandChunks chunks' = commandChunks chunks := by
    intro chunks' h
    rw [hscan, ← h]
    exact Scan.scanChunks_eq _ _ _
  cases hverdict : (commandChunks chunks).verdict with
  | none =>
    rw [hverdict] at hjudged
    have hline : ∀ cmd, ¬ CommandLine cmd (commandOctets chunks) :=
      fun cmd h => h.not_begun hjudged
    have hbad : ¬ BadCommand (commandOctets chunks) := fun h => h.not_begun hjudged
    have hall : commandOctets chunks = chunks.flatten := by
      rw [hscan] at hverdict
      rw [commandOctets, hscan, Scan.scan_read_of_none _ hverdict, List.take_length]
    exact
      { finished := by simp [hverdict, builderReturn, hline]
        collected := fun cmd h => absurd h (hline cmd)
        counted := hcounted
        failed := by simp [hverdict, builderReturn, hbad]
        building := fun _ _ => ⟨by simp [hverdict, builderReturn], hall⟩
        recut := hrecut }
  | some r =>
    rw [hverdict] at hjudged
    cases r with
    | building => exact hjudged.elim
    | buildFinished =>
      have hline : CommandLine (commandChunks chunks).state.2 (commandOctets chunks) := hjudged
      exact
        { finished := ⟨fun _ => ⟨_, hline⟩, fun _ => by simp [hverdict, builderReturn]⟩
          collected := fun cmd h => hline.unique h
          counted := hcounted
          failed := by simp [hverdict, builderReturn, hline.not_bad]
          building := fun hno => absurd ⟨_, hline⟩ hno
          recut := hrecut }
    | buildFailed =>
      have hbad : BadCommand (commandOctets chunks) := hjudged
      have hline : ∀ cmd, ¬ CommandLine cmd (commandOctets chunks) := fun cmd h => h.not_bad hbad
      exact
        { finished := by simp [hverdict, builderReturn, hline]
          collected := fun cmd h => absurd h (hline cmd)
          counted := hcounted
          failed := ⟨fun _ => hbad, fun _ => by simp [hverdict, builderReturn]⟩
          building := fun _ hno => absurd hbad hno
          recut := hrecut }

end Pop3Proxy
