/-
# What the filter gives back

The filter prints a line feed behind what it makes of each read, and another one at the end of
its input.  So what the client is sent for a `RETR` or a `TOP` has no CRLF at its end, and is
no reply with a body.
-/
import Pop3Proxy.Filter.Chunks
import Pop3Proxy.FilterInput

namespace Pop3Proxy

open StateTransition

/-- A reply to some command: a status line, and a body that is stuffed and terminated. -/
def WellFormedReply (out : List Byte) : Prop :=
  ∃ (cmd : ClientCommand) (r : ServerReply), r.hasBody cmd = true ∧ out = r.octets cmd

/-- What the filter writes to its standard output, for the octets it is given in some reads. -/
def FilterWrites (env : FilterEnv) (entries : List (List Byte × List Byte))
    (given out : List Byte) :
    Prop :=
  ∃ chunks tapes, Chunks given chunks ∧ chunkTapes env (.initial entries) chunks = .ok tapes ∧
    out = printedAll tapes

/-- The reads of the pipe have returned, by the end, all that the filter has written for what it
was given, and that has been relayed. -/
def ReturnsWhole (env : FilterEnv) (entries : List (List Byte × List Byte)) (a : Addr) (cfd : Int)
    (w : World) (x : Retrieval) : Prop :=
  ∀ s', (w.retrieval x).Rests a s' → ∃ given out,
    piped s'.world.output = piped w.output ++ given ∧
    sentOn cfd s'.world.output = sentOn cfd w.output ++ out ∧ FilterWrites env entries given out

/-- By the end the client has been sent a reply with a body. -/
def Reframed (a : Addr) (cfd : Int) (w : World) (x : Retrieval) : Prop :=
  ∃ s' out, (w.retrieval x).Rests a s' ∧
    sentOn cfd s'.world.output = sentOn cfd w.output ++ out ∧ WellFormedReply out

/-! ## The ends -/

/-- A reply with a body ends with a CRLF. -/
theorem WellFormedReply.ends {out : List Byte} (h : WellFormedReply out) : CRLF <:+ out := by
  obtain ⟨cmd, r, hbody, rfl⟩ := h
  have hlines : CRLF <:+ sentLines r.lines :=
    ⟨DotStuffing.text CR LF (r.lines.map (DotStuffing.stuff DOT)) ++ [DOT], by
      simp [DotStuffing.encode, CRLF]⟩
  unfold ServerReply.octets ServerReply.behindSign
  rw [if_pos hbody]
  exact (hlines.trans (List.suffix_append _ _)).trans (List.suffix_cons _ _)

/-- What the filter writes ends with two line feeds, or is a single one. -/
theorem printedAll_ends (tapes : List (Tape Byte)) :
    printedAll tapes = [LF] ∨ [LF, LF] <:+ printedAll tapes := by
  obtain rfl | ⟨tapes, t, rfl⟩ := List.eq_nil_or_concat' tapes
  · exact Or.inl rfl
  · right
    refine ⟨tapes.flatMap printed ++ cstr t.cells, ?_⟩
    simp [printedAll, printed]

/-- **The filter writes no reply**: the last line feed is not behind a carriage return. -/
theorem FilterWrites.not_wellFormed {env : FilterEnv} {entries : List (List Byte × List Byte)}
    {given out : List Byte} (h : FilterWrites env entries given out) : ¬ WellFormedReply out := by
  obtain ⟨chunks, tapes, -, -, rfl⟩ := h
  intro hreply
  have hcrlf := hreply.ends
  rcases printedAll_ends tapes with hsingle | hlf
  · rw [hsingle] at hcrlf
    exact absurd hcrlf.length_le (by decide)
  · have hsame : CRLF = [LF, LF] := List.IsSuffix.eq_of_length
      (List.suffix_of_suffix_length_le hcrlf hlf (Nat.le_refl 2)) rfl
    revert hsame
    decide

section
variable {a : Addr} {cfd ofd : Int} {t : Bool} {w : World} {x : Retrieval}
variable {env : FilterEnv} {entries : List (List Byte × List Byte)}

/-- What is relayed is no reply. -/
theorem ReturnsWhole.not_reframed (h : ReturnsWhole env entries a cfd w x) :
    ¬ Reframed a cfd w x := by
  rintro ⟨s', out, hrests, hsent, hreply⟩
  obtain ⟨given, out', -, hsent', hwrites⟩ := h s' hrests
  obtain rfl := List.append_cancel_left (hsent.symm.trans hsent')
  exact hwrites.not_wellFormed hreply

/-- Where the reply comes in one segment, one read of the pipe is what is relayed. -/
theorem returnsWhole_of_whole (h : InStage a cfd ofd w t (.status x.cmd.builder))
    (hsegs : x.segs = [x.octets]) (hfits : x.octets.length ≤ rawBuffB)
    (hline : hasStatusLine x.octets = true) (hterm : hasTerminator x.octets = true)
    (hfilter : isTransformed x.cmd.keyword = true)
    (hwrites : FilterWrites env entries x.octets (fromFilter (x.calls 0))) :
    ReturnsWhole env entries a cfd w x := by
  intro s' hrests
  obtain ⟨s'', hrests', hgiven, hsent⟩ := whole_rests h hsegs hfits hline hterm hfilter
  obtain rfl := hrests.unique hrests'
  exact ⟨x.octets, fromFilter (x.calls 0), hgiven, hsent, hwrites⟩

/-- **What the client is sent** of a mail that has been through the filter is never a reply with a
body, where the reads of the pipe return all that the filter has written; it ends with two line
feeds. -/
theorem mail_not_reframed (h : InStage a cfd ofd w t (.status x.cmd.builder))
    (hwhole : ReturnsWhole env entries a cfd w x) :
    ¬ Reframed a cfd w x ∧ ∃ s' out, (w.retrieval x).Rests a s' ∧
      sentOn cfd s'.world.output = sentOn cfd w.output ++ out ∧
      (out = [LF] ∨ [LF, LF] <:+ out) := by
  refine ⟨hwhole.not_reframed, ?_⟩
  obtain ⟨d, hshows, -⟩ := retrieval_shows h
  obtain ⟨s', -, hrests, -⟩ := hshows.rests
  obtain ⟨given, out, -, hsent, chunks, tapes, -, -, rfl⟩ := hwhole s' hrests
  exact ⟨s', _, hrests, hsent, printedAll_ends tapes⟩

end

/-- A mail of one line, in one segment, and what the filter makes of it. -/
def lineRetrieval : Retrieval where
  cmd := retrExchange.cmd
  reply := retrExchange.reply
  segs := [ascii "+OK\r\na\r\n.\r\n"]
  sends := [3, 0]
  calls := fun _ => { pipeRead := some (ascii "+OK\r\na\r\n\n\n") }
  retrieves := pictureRetrieval.retrieves
  ok := rfl
  segs_flatten := by decide
  segs_ne := by decide

theorem line_returnsWhole {w : World}
    (h : InStage 0 4 5 w false (.status lineRetrieval.cmd.builder)) :
    ReturnsWhole {} [(ascii "image", ascii "png")] 0 4 w lineRetrieval := by
  refine returnsWhole_of_whole h (by decide) (by decide) (by decide +kernel) (by decide +kernel)
    (by decide) ⟨[lineRetrieval.octets], _, ⟨by decide, by decide⟩, rfl, by decide +kernel⟩

theorem mail_not_reframed_line : ∃ w, ¬ Reframed 0 4 w lineRetrieval ∧ ∃ s' out,
    (w.retrieval lineRetrieval).Rests 0 s' ∧
      sentOn 4 s'.world.output = sentOn 4 w.output ++ out ∧ (out = [LF] ∨ [LF, LF] <:+ out) := by
  obtain ⟨w, hw⟩ := picture_awaited
  exact ⟨w, mail_not_reframed hw (line_returnsWhole hw)⟩

/-- The terminator of the mail is not sent on. -/
theorem terminator_lost : ¬ ∀ (env : FilterEnv) (entries : List (List Byte × List Byte)) (a : Addr)
    (cfd ofd : Int) (t : Bool) (w : World) (x : Retrieval), entries ≠ [] →
      InStage a cfd ofd w t (.status x.cmd.builder) → ReturnsWhole env entries a cfd w x →
        Reframed a cfd w x := by
  intro h
  obtain ⟨w, hw⟩ := picture_awaited
  exact (line_returnsWhole hw).not_reframed (h {} [(ascii "image", ascii "png")] 0 4 5 false w
    lineRetrieval (by decide) hw (line_returnsWhole hw))

end Pop3Proxy
