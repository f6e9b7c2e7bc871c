/-
# What the filter is given

The reply to a `RETR` or a `TOP` comes in any segments.  What is written to the standard input
of the filter starts with the status line, so it is not the mail.
-/
import Pop3Proxy.Filter.StripMime
import Pop3Proxy.Relaying

namespace Pop3Proxy

open StateTransition

/-- `RETR` or `TOP`, and a reply to it that starts with `+OK`, in the segments in which it comes;
what `send` takes meanwhile, and what the other calls give. -/
structure Retrieval where
  cmd : ClientCommand
  reply : ServerReply
  segs : List (List Byte)
  sends : List ℕ
  calls : ℕ → Io
  retrieves : cmd.keyword.map toupper = ascii "RETR" ∨ cmd.keyword.map toupper = ascii "TOP"
  ok : reply.status = .ok
  segs_flatten : segs.flatten = reply.octets cmd
  segs_ne : [] ∉ segs

/-- The reply is awaited, and nothing else is under way. -/
def World.retrieval (w : World) (x : Retrieval) : Session where
  world := w
  peers :=
    { client := []
      origin := x.segs
      replies := []
      sends := x.sends
      calls := x.calls }

/-- By the end the filter has been given the mail as it was sent, and no more. -/
def GivenMail (a : Addr) (w : World) (x : Retrieval) : Prop :=
  ∃ s', (w.retrieval x).Rests a s' ∧
    piped s'.world.output = piped w.output ++ sentLines x.reply.lines

namespace Retrieval

variable (x : Retrieval)

/-- The octets of the reply. -/
def octets : List Byte := x.reply.octets x.cmd

/-- The status line, without its end. -/
def statusLine : List Byte := PLUS :: (ascii "OK" ++ x.reply.text)

theorem octets_eq : x.octets = x.statusLine ++ CRLF ++ sentLines x.reply.lines := by
  have hbody : x.reply.hasBody x.cmd = true := by
    have hkind : x.cmd.kind = .multiline := by
      unfold ClientCommand.kind
      rcases x.retrieves with h | h <;> rw [h] <;> decide
    simp [ServerReply.hasBody, ClientCommand.callsForBody, hkind, x.ok]
  simp [octets, ServerReply.octets, ServerReply.sign, ServerReply.behindSign, hbody, x.ok,
    statusLine]

theorem statusLine_free : ¬ CRLF <:+: x.statusLine := by
  have hcons {c : Byte} {bs : List Byte} (hc : c ≠ CR) (hbs : ¬ CRLF <:+: bs) :
      ¬ CRLF <:+: c :: bs := by
    intro hin
    rcases List.infix_cons_iff.mp hin with hpre | hin
    · exact hc (List.cons_prefix_cons.mp hpre).1.symm
    · exact hbs hin
  exact hcons (by decide) (hcons (by decide) (hcons (by decide) x.reply.text_free))

/-- **The reply does not start with the mail.** -/
theorem not_sentLines_prefix : ¬ sentLines x.reply.lines <+: x.octets := by
  rw [x.octets_eq]
  exact DotStuffing.not_prefix_behind (by decide) (by decide) x.reply.lines_free x.statusLine_free
    (by simp [statusLine, ascii])

end Retrieval

/-! ## The course of a retrieval -/

/-- What has been written to the filter, of the segments up to here. -/
inductive Feeding (x : Retrieval) (before : List Byte) : Dialogue → Prop
  | status {t p toOrigin toClient} (hclient : p.client = []) (horigin : p.origin = x.segs) :
    Feeding x before ⟨.status x.cmd.builder, t, p, toOrigin, toClient, before⟩
  | body {st t p toOrigin toClient fed} (hst : st = .body ∨ ∃ rest, st = .relay false rest)
    (hclient : p.client = [])
    (hfed : if t then fed ++ p.origin.flatten = x.octets else fed = []) :
    Feeding x before ⟨st, t, p, toOrigin, toClient, before ++ fed⟩
  | done {st t p toOrigin toClient fed}
    (hst : st = .closed ∨ st = .ready ∨ ∃ rest, st = .relay true rest) (hclient : p.client = [])
    (hfed : fed <+: x.octets) : Feeding x before ⟨st, t, p, toOrigin, toClient, before ++ fed⟩

section
variable {x : Retrieval} {before : List Byte} {d d' : Dialogue}

/-- Octets of the reply have been read, and go to the client or come from the filter. -/
theorem Feeding.read {t last : Bool} {p : Peers} {toOrigin toClient fed rest : List Byte}
    (hclient : p.client = []) (hfed : if t then fed ++ p.origin.flatten = x.octets else fed = []) :
    Feeding x before ⟨.relay last rest, t, p, toOrigin, toClient, before ++ fed⟩ := by
  cases last with
  | false => exact .body (.inr ⟨rest, rfl⟩) hclient hfed
  | true =>
    refine .done (.inr (.inr ⟨rest, rfl⟩)) hclient ?_
    cases t with
    | false =>
      rw [if_neg (by simp)] at hfed
      rw [hfed]
      exact List.nil_prefix
    | true => exact ⟨_, hfed⟩

/-- The first chunk of the reply. -/
theorem feeding_statusRead {t : Bool} {p q : Peers} {toOrigin toClient chunk : List Byte}
    (hclient : q.client = []) (hsplit : chunk ++ q.origin.flatten = x.octets) : Feeding x before
      (Dialogue.statusRead ⟨.status x.cmd.builder, t, p, toOrigin, toClient, before⟩ x.cmd.builder
        chunk q) := by
  have hnone (st : Stage) (hst : st = .closed ∨ st = .ready ∨ ∃ rest, st = .relay true rest) :
      Feeding x before ⟨st, t, q, toOrigin, toClient, before⟩ := by
    have hdone := @Feeding.done x before st t q toOrigin toClient [] hst hclient List.nil_prefix
    rwa [List.append_nil] at hdone
  unfold Dialogue.statusRead
  cases hasStatusLine chunk with
  | false =>
    rw [if_neg (by simp)]
    exact hnone _ (.inl rfl)
  | true =>
    rw [if_pos rfl]
    cases x.cmd.builder.expectsBody with
    | false =>
      rw [if_neg (by simp)]
      exact hnone _ (.inr (.inr ⟨_, rfl⟩))
    | true =>
      rw [if_pos rfl]
      refine .read hclient ?_
      cases isTransformed x.cmd.builder.kwrd with
      | false => rfl
      | true => exact hsplit

/-- **One step of a retrieval.** -/
theorem Feeding.step (h : Feeding x before d) (hstep : d.step = some d') : Feeding x before d' := by
  cases h with
  | @status t p toOrigin toClient hclient horigin =>
    cases hp : p.origin with
    | nil => simp [Dialogue.step, hp] at hstep
    | cons seg segs =>
      simp only [Dialogue.step, hp, Option.some.injEq] at hstep
      subst hstep
      -- the chunk and what is left of the reply are the whole reply
      have hsplit : seg.take rawBuffB ++ (Peers.leave rawBuffB seg segs).flatten = x.octets := by
        rw [Peers.flatten_leave, ← List.append_assoc, List.take_append_drop,
          ← List.flatten_cons, ← hp,
          horigin, x.segs_flatten]
        rfl
      exact feeding_statusRead hclient hsplit
  | @body st t p toOrigin toClient fed hst hclient hfed =>
    rcases hst with rfl | ⟨rest, rfl⟩
    · cases hp : p.origin with
      | nil => simp [Dialogue.step, hp] at hstep
      | cons seg segs =>
        simp only [Dialogue.step, hp, Option.some.injEq] at hstep
        subst hstep
        unfold Dialogue.bodyRead
        rw [List.append_assoc]
        refine .read hclient ?_
        -- without the flag nothing more reaches the filter
        cases t with
        | false =>
          rw [if_neg (by simp)] at hfed ⊢
          rw [hfed]
          rfl
        | true =>
          rw [if_pos rfl] at hfed ⊢
          show fed ++ seg.take rawBuffB ++ (Peers.leave rawBuffB seg segs).flatten = _
          rw [Peers.flatten_leave, List.append_assoc, ← List.append_assoc (seg.take _),
            List.take_append_drop, ← hfed, hp, List.flatten_cons]
    · simp only [Dialogue.step, Option.some.injEq] at hstep
      subst hstep
      refine .body ?_ hclient hfed
      by_cases hdone : rest.drop p.quota = []
      · exact Or.inl (by simp [hdone])
      · exact Or.inr ⟨rest.drop p.quota, by simp [hdone]⟩
  | @done st t p toOrigin toClient fed hst hclient hfed =>
    rcases hst with rfl | rfl | ⟨rest, rfl⟩
    · simp [Dialogue.step] at hstep
    · simp [Dialogue.step, hclient] at hstep
    · simp only [Dialogue.step, Option.some.injEq] at hstep
      subst hstep
      refine .done ?_ hclient hfed
      by_cases hdone : rest.drop p.quota = []
      · exact Or.inr (Or.inl (by simp [hdone]))
      · exact Or.inr (Or.inr ⟨rest.drop p.quota, by simp [hdone]⟩)

/-- **The course of a retrieval.** -/
theorem Feeding.reaches (h : Feeding x before d) (hreach : Reaches Dialogue.step d d') :
    Feeding x before d' := by
  induction hreach with
  | refl => exact h
  | tail _ hstep ih => exact ih.step hstep

/-- The filter is given no more than the reply, from its start. -/
theorem Feeding.prefix_octets (h : Feeding x before d) :
    ∃ fed, d.toFilter = before ++ fed ∧ fed <+: x.octets := by
  cases h with
  | status _ _ => exact ⟨[], (List.append_nil _).symm, List.nil_prefix⟩
  | @body st t p toOrigin toClient fed _ _ hfed =>
    refine ⟨fed, rfl, ?_⟩
    cases t with
    | false =>
      rw [if_neg (by simp)] at hfed
      rw [hfed]
      exact List.nil_prefix
    | true => exact ⟨_, hfed⟩
  | @done st t p toOrigin toClient fed _ _ hfed => exact ⟨fed, rfl, hfed⟩

end

section
variable {a : Addr} {cfd ofd : Int} {t : Bool} {w : World} {x : Retrieval}

theorem retrieval_wf (w : World) (x : Retrieval) : (w.retrieval x).peers.Wf := by
  refine ⟨List.not_mem_nil, x.segs_ne, ?_⟩
  intro segs hsegs
  exact absurd hsegs List.not_mem_nil

/-- The dialogue of a retrieval. -/
theorem retrieval_shows (h : InStage a cfd ofd w t (.status x.cmd.builder)) :
    ∃ d, Shows a cfd ofd (w.retrieval x) d ∧ Feeding x (piped w.output) d :=
  ⟨_, Shows.start h (retrieval_wf w x), .status rfl rfl⟩

/-- Whatever is given to the filter is the start of the reply. -/
theorem given_prefix (h : InStage a cfd ofd w t (.status x.cmd.builder)) {s' : Session}
    (hpass : (w.retrieval x).Passes a s') :
    ∃ fed, piped s'.world.output = piped w.output ++ fed ∧ fed <+: x.octets := by
  obtain ⟨d, hshows, hfeeding⟩ := retrieval_shows h
  obtain ⟨d', hreach, hshows'⟩ := hshows.passes hpass
  rw [hshows'.toFilter]
  exact (hfeeding.reaches hreach).prefix_octets

/-- The filter is not given the mail. -/
theorem not_givenMail (h : InStage a cfd ofd w t (.status x.cmd.builder)) : ¬ GivenMail a w x := by
  rintro ⟨s', ⟨hpass, -⟩, hgiven⟩
  obtain ⟨fed, hfed, hprefix⟩ := given_prefix h hpass
  have hsame := List.append_cancel_left (hgiven.symm.trans hfed)
  exact x.not_sentLines_prefix (hsame ▸ hprefix)

/-- A reply that comes in one segment is given to the filter as it is. -/
theorem whole_rests (h : InStage a cfd ofd w t (.status x.cmd.builder))
    (hsegs : x.segs = [x.octets])
    (hfits : x.octets.length ≤ rawBuffB) (hline : hasStatusLine x.octets = true)
    (hterm : hasTerminator x.octets = true) (hfilter : isTransformed x.cmd.keyword = true) :
    ∃ s', (w.retrieval x).Rests a s' ∧ piped s'.world.output = piped w.output ++ x.octets ∧
      sentOn cfd s'.world.output = sentOn cfd w.output ++ fromFilter (x.calls 0) := by
  obtain ⟨p, hp⟩ : ∃ p : Peers, p = { (w.retrieval x).peers.tick with origin := [] } := ⟨_, rfl⟩
  let d : Dialogue := ⟨.status x.cmd.builder, t, (w.retrieval x).peers, sentOn ofd w.output,
    sentOn cfd w.output, piped w.output⟩
  have hstep : d.step = some { d with
      stage := .relay true (fromFilter (x.calls 0)), transform := true, peers := p,
      toFilter := d.toFilter ++ x.octets } := by
    have horigin : (w.retrieval x).peers.origin = [x.octets] := hsegs
    have htransform : isTransformed x.cmd.builder.kwrd = true := hfilter
    simp only [Dialogue.step, d, horigin, List.take_of_length_le hfits, Peers.leave_fits hfits,
      Dialogue.statusRead, hline, hterm, htransform, Dialogue.relayed, if_true,
      ClientCommand.expectsBody_of_transformed hfilter, hp]
    rfl
  obtain ⟨q, hlater, hsent⟩ := Dialogue.relay_reaches { d with
    transform := true, toFilter := d.toFilter ++ x.octets } true p (fromFilter (x.calls 0))
  obtain ⟨s', hpass, hshows⟩ := (Shows.start h (retrieval_wf w x)).passes_of (.head hstep hsent)
  have hq : q.client = [] := hlater.client.trans (by rw [hp]; rfl)
  refine ⟨s', ⟨hpass, hshows.rest_iff.mpr ?_⟩, hshows.toFilter, hshows.toClient⟩
  simp only [Dialogue.step, if_true, hq]

/-- A command is forwarded, and its reply awaited. -/
theorem AtCommand.awaits {s : Session} {cmd : Pop3CommandBuilder} {line : List Byte}
    (h : AtCommand a cfd ofd t s) (hline : CommandLine cmd line) (hne : line ≠ [])
    (hshort : line.length < rawBuffA) : ∃ w, InStage a cfd ofd w t (.status cmd) := by
  have hparts : [] ∉ [line] := by
    rw [List.mem_singleton]
    exact hne.symm
  let p : Peers := ⟨[line], [], [], [], fun _ => {}⟩
  obtain ⟨q, -, hreach⟩ := Dialogue.command_reaches ⟨.ready, t, p, sentOn ofd s.world.output,
    sentOn cfd s.world.output, piped s.world.output⟩ hline hshort hparts (List.append_nil _) p
    (List.append_nil [line]).symm
  have hwf : p.Wf :=
    ⟨hparts, List.not_mem_nil, fun _ hsegs => absurd hsegs List.not_mem_nil⟩
  obtain ⟨s', -, hshows⟩ := (Shows.start h.stage hwf).passes_of hreach
  exact ⟨s'.world, hshows.stage⟩

/-- **What the filter is given** is never the mail: it is the start of the reply, from the status
line on. -/
theorem mail_misgiven (h : InStage a cfd ofd w t (.status x.cmd.builder)) :
    ¬ GivenMail a w x ∧ ∃ s' fed, (w.retrieval x).Rests a s' ∧
      piped s'.world.output = piped w.output ++ fed ∧ fed <+: x.octets := by
  refine ⟨not_givenMail h, ?_⟩
  obtain ⟨d, hshows, -⟩ := retrieval_shows h
  obtain ⟨s', -, hrests, -⟩ := hshows.rests
  obtain ⟨fed, hfed⟩ := given_prefix h hrests.1
  exact ⟨s', fed, hrests, hfed⟩

end

/-- `RETR`, with a mail that is a picture, in one segment. -/
def pictureRetrieval : Retrieval where
  cmd := retrExchange.cmd
  reply :=
    ⟨.ok, [], [ascii "Content-Type: image/png", [], ascii "XX"], okReply.text_free, by decide⟩
  segs := [ascii "+OK\r\nContent-Type: image/png\r\n\r\nXX\r\n.\r\n"]
  sends := []
  calls := fun _ => {}
  retrieves := .inl (by decide)
  ok := rfl
  segs_flatten := by decide
  segs_ne := by decide

theorem picture_awaited : ∃ w, InStage 0 4 5 w false (.status pictureRetrieval.cmd.builder) :=
  greeted_atCommand.awaits retrExchange.cmd.commandLine (by decide) (by decide)

theorem mail_misgiven_picture : ∃ w, ¬ GivenMail 0 w pictureRetrieval ∧ ∃ s' fed,
    (w.retrieval pictureRetrieval).Rests 0 s' ∧ piped s'.world.output = piped w.output ++ fed ∧
      fed <+: pictureRetrieval.octets := by
  obtain ⟨w, hw⟩ := picture_awaited
  exact ⟨w, mail_misgiven hw⟩

/-- The picture is replaced where the filter is given the mail, and let through as it is given
it. -/
theorem picture_let_through :
    (¬ ∀ (a : Addr) (cfd ofd : Int) (t : Bool) (w : World) (x : Retrieval),
      InStage a cfd ofd w t (.status x.cmd.builder) → GivenMail a w x) ∧
    ∃ (w : World) (s' : Session) (fed : List Byte), (w.retrieval pictureRetrieval).Rests 0 s' ∧
      piped s'.world.output = piped w.output ++ fed ∧
      (filterRun {} (.initial [(ascii "image", ascii "png")]) fed).map (·.ctx.emitted) =
        .ok (ascii "+OK\r\nContent-Type: image/png\r\n\r\nXX\r\n") ∧
      (filterRun {} (.initial [(ascii "image", ascii "png")])
          (sentLines pictureRetrieval.reply.lines)).map (·.ctx.emitted) =
        .ok (ascii "Content-Type: text/plain\r\n\r\r\nMENSAJE DE REEMPLAZO\r\n\r\n") := by
  obtain ⟨w, hw⟩ := picture_awaited
  refine ⟨fun h => not_givenMail hw (h 0 4 5 false w pictureRetrieval hw), w, ?_⟩
  obtain ⟨s', hrests, hgiven, -⟩ := whole_rests hw (by decide) (by decide) (by decide +kernel)
    (by decide +kernel) (by decide)
  exact ⟨s', _, hrests, hgiven, by decide +kernel, by decide +kernel⟩

end Pop3Proxy
