/-
# The unstuffing parser of the filter

`pop3_multi.c` of the MIME filter: it removes the dots that were put in front of
lines and finds the end of a multi-line reply.  An octet it cannot judge yet is
withheld and comes out with the next one.
-/
import Pop3Proxy.Library.DotStuffing
import Pop3Proxy.ParserFactory

namespace Pop3Proxy

/-! ## The automaton -/

/-- The states of `pop3_multi.c`. -/
inductive MultiState where
  | newline
  | byte
  | cr
  | dot
  | dotCr
  | fin
  deriving DecidableEq, Repr

/-- `enum pop3_multi_type`. -/
inductive Pop3MultiType where
  | byte
  | wait
  | fin
  deriving DecidableEq, Repr

namespace Pop3Multi

/-- `byte`: an octet of the mail. -/
def byte (c : Byte) : ParserEvent Pop3MultiType := ⟨.byte, [c], 1⟩

/-- `byte_cr`: the CR that turned out to belong to the mail. -/
def byteCr (_ : Byte) : ParserEvent Pop3MultiType := byte CR

/-- `wait`: what the octet is will show. -/
def wait (_ : Byte) : ParserEvent Pop3MultiType := ⟨.wait, [], 0⟩

/-- `fin`: the reply is over. -/
def fin (_ : Byte) : ParserEvent Pop3MultiType := ⟨.fin, [], 0⟩

end Pop3Multi

open Pop3Multi in
/-- `pop3_multi_parser` -/
def pop3MultiParser : ParserDefinition MultiState Empty Pop3MultiType where
  states
    | .newline => [
        { cond := .byte DOT, dest := .dot, act1 := wait },
        { cond := .byte CR, dest := .cr, act1 := wait },
        { cond := .any, dest := .byte, act1 := byte }]
    | .byte => [
        { cond := .byte CR, dest := .cr, act1 := wait },
        { cond := .any, dest := .byte, act1 := byte }]
    | .cr => [
        { cond := .byte LF, dest := .newline, act1 := byteCr, act2 := some byte },
        { cond := .any, dest := .byte, act1 := byteCr, act2 := some byte }]
    | .dot => [
        { cond := .byte CR, dest := .dotCr, act1 := wait },
        { cond := .any, dest := .byte, act1 := byte }]
    | .dotCr => [
        { cond := .byte LF, dest := .fin, act1 := fin },
        { cond := .any, dest := .byte, act1 := byteCr, act2 := some byte }]
    | .fin => [{ cond := .any, dest := .byte, act1 := byteCr, act2 := some byte }]
  startState := .newline

/-- One octet into the parser. -/
def multiFeed (p : MultiState) (c : Byte) : MultiState × List (ParserEvent Pop3MultiType) :=
  parserFeed parserNoClasses pop3MultiParser p c

/-- The octets the events hand on. -/
def unstuffed (es : List (ParserEvent Pop3MultiType)) : List Byte :=
  es.flatMap fun e => if e.type = .byte then e.data.take e.n else []

/-- The end of the reply is not among the events. -/
def Unfinished (es : List (ParserEvent Pop3MultiType)) : Prop := ∀ e ∈ es, e.type ≠ .fin

instance (es : List (ParserEvent Pop3MultiType)) : Decidable (Unfinished es) :=
  inferInstanceAs (Decidable (∀ e ∈ es, e.type ≠ .fin))

/-! ## What it makes of a text -/

/-- A multi-line reply without its status line. -/
abbrev multiline (lines : List (List Byte)) : List Byte := DotStuffing.encode DOT CR LF lines

/-- The octets of a mail as they were before they were sent. -/
abbrev mailText (lines : List (List Byte)) : List Byte := DotStuffing.text CR LF lines

/-- The events of a parser that is fed these octets. -/
def multiRun (p : MultiState) (bs : List Byte) :
    MultiState × List (List (ParserEvent Pop3MultiType)) :=
  parserRun parserNoClasses pop3MultiParser p bs

/-- Reading `bs` in the state `p` leads to `p'`, hands on `out`, and is not the end. -/
structure Reads (p : MultiState) (bs : List Byte) (p' : MultiState) (out : List Byte) : Prop where
  state : (multiRun p bs).1 = p'
  out : unstuffed (multiRun p bs).2.flatten = out
  unfinished : Unfinished (multiRun p bs).2.flatten

/-- What two rows of events hand on. -/
theorem unstuffed_append (es es' : List (ParserEvent Pop3MultiType)) :
    unstuffed (es ++ es') = unstuffed es ++ unstuffed es' := List.flatMap_append

/-- The end is in neither of them. -/
theorem Unfinished.append {es es' : List (ParserEvent Pop3MultiType)} (h : Unfinished es)
    (h' : Unfinished es') : Unfinished (es ++ es') := by
  intro e he
  rcases List.mem_append.mp he with he | he
  · exact h e he
  · exact h' e he

namespace Reads

variable {p p' p'' : MultiState} {bs bs' out out' : List Byte}

/-- No octets. -/
theorem nil (p : MultiState) : Reads p [] p [] := ⟨rfl, rfl, fun _ h => nomatch h⟩

/-- Octets behind octets. -/
theorem append (h : Reads p bs p' out) (h' : Reads p' bs' p'' out') :
    Reads p (bs ++ bs') p'' (out ++ out') := by
  have hrun : multiRun p (bs ++ bs') =
      ((multiRun p' bs').1, (multiRun p bs).2 ++ (multiRun p' bs').2) := by
    rw [multiRun, parserRun_append, ← h.state]
    rfl
  refine ⟨?_, ?_, ?_⟩
  · rw [hrun]
    exact h'.state
  · rw [hrun, List.flatten_append, unstuffed_append, h.out, h'.out]
  · rw [hrun, List.flatten_append]
    exact h.unfinished.append h'.unfinished

/-- A single octet. -/
theorem single {c : Byte} {es : List (ParserEvent Pop3MultiType)} (h : multiFeed p c = (p', es))
    (hes : Unfinished es) : Reads p [c] p' (unstuffed es) := by
  have hrun : multiRun p [c] = (p', [es]) := by
    unfold multiFeed at h
    simp only [multiRun, parserRun, h]
  refine ⟨?_, ?_, ?_⟩ <;> rw [hrun]
  · simp
  · simpa using hes

end Reads

/-- At the start of a line, an octet that is neither a dot nor CR. -/
theorem multiFeed_newline {c : Byte} (hdot : c ≠ DOT) (hcr : c ≠ CR) :
    multiFeed .newline c = (.byte, [Pop3Multi.byte c]) := by
  simp [multiFeed, parserFeed, pop3MultiParser, When.holds, List.find?, hdot, hcr]

/-- Inside a line everything but CR is handed on. -/
theorem multiFeed_byte {c : Byte} (hcr : c ≠ CR) :
    multiFeed .byte c = (.byte, [Pop3Multi.byte c]) := by
  simp [multiFeed, parserFeed, pop3MultiParser, When.holds, List.find?, hcr]

/-- Behind a dot that starts a line, too. -/
theorem multiFeed_dot {c : Byte} (hcr : c ≠ CR) :
    multiFeed .dot c = (.byte, [Pop3Multi.byte c]) := by
  simp [multiFeed, parserFeed, pop3MultiParser, When.holds, List.find?, hcr]

/-- An octet of the mail does not end it. -/
theorem unfinished_byte (c : Byte) : Unfinished [Pop3Multi.byte c] := by
  intro e he
  rw [List.mem_singleton.mp he]
  simp [Pop3Multi.byte]

/-- The octets of a line come out as they go in. -/
theorem reads_text {t : List Byte} (ht : CR ∉ t) : Reads .byte t .byte t := by
  induction t with
  | nil => exact .nil _
  | cons c t ih =>
    have hc : c ≠ CR := fun h => ht (by simp [h])
    have hstep := Reads.single (multiFeed_byte hc) (unfinished_byte c)
    exact hstep.append (ih fun h => ht (by simp [h]))

/-- The end of a line is withheld and handed on whole. -/
theorem reads_crlf {p : MultiState} (hp : p = .byte ∨ p = .newline) :
    Reads p CRLF .newline CRLF := by
  have hcr : Reads p [CR] .cr [] := by
    rcases hp with rfl | rfl <;> exact .single rfl (by decide)
  have hlf : Reads .cr [LF] .newline CRLF := .single rfl (by decide)
  exact hcr.append hlf

/-- A line as it is sent comes out as it was. -/
theorem reads_line {line : List Byte} (h : CR ∉ line) :
    Reads .newline (DotStuffing.stuff DOT line ++ CRLF) .newline (line ++ CRLF) := by
  cases line with
  | nil => exact reads_crlf (.inr rfl)
  | cons c t =>
    have hc : c ≠ CR := fun hc => h (by simp [hc])
    have ht : CR ∉ t := fun ht => h (by simp [ht])
    have hrest : Reads .byte (t ++ CRLF) .newline (t ++ CRLF) :=
      (reads_text ht).append (reads_crlf (.inl rfl))
    by_cases hdot : c = DOT
    · subst hdot
      have hwait : Reads .newline [DOT] .dot [] := .single rfl (by decide)
      have hstep : Reads .dot [DOT] .byte [DOT] :=
        .single (multiFeed_dot dot_ne_cr) (unfinished_byte DOT)
      rw [DotStuffing.stuff_dot]
      exact hwait.append (hstep.append hrest)
    · have hstep : Reads .newline [c] .byte [c] :=
        .single (multiFeed_newline hdot hc) (unfinished_byte c)
      rw [DotStuffing.stuff_of_ne _ hdot]
      exact hstep.append hrest

/-- **Stuffed lines** are read as the lines without the dots in front. -/
theorem reads_lines {lines : List (List Byte)} (h : ∀ line ∈ lines, CR ∉ line) :
    Reads .newline (mailText (lines.map (DotStuffing.stuff DOT))) .newline (mailText lines) := by
  induction lines with
  | nil => exact .nil _
  | cons line lines ih =>
    have hline := reads_line (h line (by simp))
    exact hline.append (ih fun l hl => h l (by simp [hl]))

/-- The events of a text as it is sent: its octets, and then the end. -/
theorem multiRun_multiline {lines : List (List Byte)} (h : ∀ line ∈ lines, CR ∉ line) :
    ∃ before, (multiRun pop3MultiParser.startState (multiline lines)).2 =
      before ++ [[Pop3Multi.fin LF]] ∧ Unfinished before.flatten ∧
      unstuffed before.flatten = mailText lines := by
  have hdot : Reads .newline [DOT, CR] .dotCr [] := ⟨rfl, rfl, by decide⟩
  have hall := (reads_lines h).append hdot
  rw [List.append_nil] at hall
  have hsplit : multiline lines =
      (mailText (lines.map (DotStuffing.stuff DOT)) ++ [DOT, CR]) ++ [LF] := by
    simp [DotStuffing.encode]
  refine ⟨_, ?_, hall.unfinished, hall.out⟩
  rw [hsplit, multiRun, parserRun_append]
  show _ ++ (multiRun (multiRun .newline _).1 [LF]).2 = _
  rw [hall.state]
  rfl

/-- **Unstuffing a text gives the text back**, and its end is noticed on the
last octet and not before. -/
theorem multi_roundTrip (lines : List (List Byte)) (h : ∀ line ∈ lines, CR ∉ line) :
    unstuffed (multiRun pop3MultiParser.startState (multiline lines)).2.flatten = mailText lines ∧
      ∃ before, (multiRun pop3MultiParser.startState (multiline lines)).2 =
        before ++ [[Pop3Multi.fin LF]] ∧ Unfinished before.flatten := by
  obtain ⟨before, hrun, hun, hout⟩ := multiRun_multiline h
  refine ⟨?_, before, hrun, hun⟩
  rw [hrun, List.flatten_append, unstuffed_append, hout]
  exact List.append_nil _

/-- A line that looks like the end, an empty one, and one of dots. -/
theorem multi_roundTrip_dots :
    unstuffed (multiRun pop3MultiParser.startState
        (multiline [[DOT], [], [DOT, DOT]])).2.flatten = mailText [[DOT], [], [DOT, DOT]] ∧
      ∃ before, (multiRun pop3MultiParser.startState (multiline [[DOT], [], [DOT, DOT]])).2 =
        before ++ [[Pop3Multi.fin LF]] ∧ Unfinished before.flatten :=
  multi_roundTrip [[DOT], [], [DOT, DOT]] (by decide)

end Pop3Proxy
