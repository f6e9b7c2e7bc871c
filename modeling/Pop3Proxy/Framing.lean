/-
# The framing of replies

A command and the reply to it, which comes whole: when the connection is back at
`COMMAND_CREAD`, and what it has sent by then.
-/
import Pop3Proxy.Exchange
import Pop3Proxy.Runs
import Pop3Proxy.SessionParser

namespace Pop3Proxy

open StateTransition

/-! ## Commands and their replies -/

/-- The builder behind the command. -/
def ClientCommand.builder (cmd : ClientCommand) : Pop3CommandBuilder :=
  ⟨cmd.keyword, cmd.args.isSome⟩

theorem ClientCommand.commandLine (cmd : ClientCommand) : CommandLine cmd.builder cmd.line := by
  have hk : KeywordOctets cmd.keyword := fun c hc =>
    ⟨(cmd.letters c hc).ne (by decide), (cmd.letters c hc).ne (by decide)⟩
  refine ⟨cmd.keyword ++ cmd.args.elim [] (SP :: ·), ?_, rfl⟩
  unfold builder
  cases hargs : cmd.args with
  | none =>
    rw [Option.elim_none, List.append_nil]
    exact .plain hk cmd.short
  | some a => exact .args hk cmd.short (cmd.free a hargs)

theorem ServerReply.octets_ne (r : ServerReply) (cmd : ClientCommand) : r.octets cmd ≠ [] :=
  List.cons_ne_nil _ _

/-- A command in the segments in which it comes, and a complete reply to it, which comes in
one; what `send` takes meanwhile, and what the other calls give. -/
structure Exchange where
  cmd : ClientCommand
  parts : List (List Byte)
  reply : ServerReply
  sends : List ℕ
  calls : ℕ → Io
  parts_flatten : parts.flatten = cmd.line
  parts_ne : [] ∉ parts
  whole : (reply.octets cmd).length ≤ rawBuffB

namespace Exchange

variable (x : Exchange)

/-- The octets of the reply. -/
def octets : List Byte := x.reply.octets x.cmd

/-- The reply goes through the filter, and comes back from it as it may: the command is `RETR`
or `TOP`, as the code spells them. -/
def filtered : Bool := isTransformed x.cmd.keyword

/-- How many calls of `send` it takes to forward as many octets. -/
def forwardCalls : List ℕ → ℕ → ℕ
  | [], _ => 1
  | q :: qs, n => if n ≤ q then 1 else forwardCalls qs (n - q) + 1

/-- The results of the call that reads the reply: the command has been read and forwarded. -/
def statusIo : Io := x.calls (x.parts.length + forwardCalls x.sends x.cmd.line.length)

end Exchange

/-- The client sends the command, and the origin will answer with the reply, whole. -/
def Session.ask (s : Session) (x : Exchange) : Session where
  world := s.world
  peers :=
    { client := s.peers.client ++ x.parts
      origin := s.peers.origin
      replies := s.peers.replies ++ [[x.octets]]
      sends := x.sends
      calls := x.calls }

/-- The connection is at the start of a command, and nothing is under way. -/
structure AtCommand (a : Addr) (cfd ofd : Int) (t : Bool) (s : Session) : Prop where
  stage : InStage a cfd ofd s.world t .ready
  client : s.peers.client = []
  origin : s.peers.origin = []
  replies : s.peers.replies = []

/-- The connection is in `COMMAND_CREAD`, and the command has been forwarded. -/
def Session.Back (a : Addr) (ofd : Int) (s : Session) (x : Exchange) (s' : Session) : Prop :=
  (s'.world.heap a).current = some States.commandCread.num ∧
    sentOn ofd s'.world.output = sentOn ofd s.world.output ++ x.cmd.line

/-- The connection comes back to `COMMAND_CREAD` exactly with the last octet of the reply: it does
come back, and at any time it is back if and only if the reply has been sent to the client. -/
def Framed (a : Addr) (cfd ofd : Int) (s : Session) (x : Exchange) : Prop :=
  (∃ s', (s.ask x).Passes a s' ∧ s.Back a ofd x s') ∧
    ∀ s', (s.ask x).Passes a s' → (s.Back a ofd x s' ↔
      sentOn cfd s'.world.output = sentOn cfd s.world.output ++ x.octets)

/-- The code takes the reply for what it is: the command fits the buffer, the end of the status
line is found, the terminator too where the tables call for a body, where they do not
no earlier reply has left the `transform` flag set, and a filter gives the reply back as it was
in the one read of its pipe. -/
structure TakenWhole (x : Exchange) (t : Bool) : Prop where
  fits : x.cmd.line.length ≤ rawBuffA
  statusLine : hasStatusLine x.octets = true
  body : x.cmd.builder.expectsBody = true → hasTerminator x.octets = true
  line : x.cmd.builder.expectsBody = false → t = false
  filter : x.filtered = true → fromFilter x.statusIo = x.octets

/-! ## The course of an exchange -/

/-- What is relayed of the reply: whether it is taken for all of it, the octets, and the
`transform` flag by then. -/
inductive Relays (x : Exchange) (t : Bool) : Bool → List Byte → Bool → Prop
  | body (h : x.cmd.builder.expectsBody = true) :
    Relays x t (hasTerminator x.octets) (Dialogue.relayed x.filtered x.statusIo x.octets) x.filtered
  | line (h : x.cmd.builder.expectsBody = false) :
    Relays x t true (if t then [] else x.octets) t

/-- The code takes what has come for the whole reply. -/
def Exchange.seemsWhole (x : Exchange) : Bool :=
  !x.cmd.builder.expectsBody || hasTerminator x.octets

/-- The flag that the reply leaves. -/
def Exchange.flag (x : Exchange) (t : Bool) : Bool :=
  if x.cmd.builder.expectsBody then x.filtered else t

theorem Relays.last_eq {x : Exchange} {t last t' : Bool} {out : List Byte}
    (h : Relays x t last out t') : last = x.seemsWhole := by
  cases h with
  | body hbody => simp [Exchange.seemsWhole, hbody]
  | line hline => simp [Exchange.seemsWhole, hline]

theorem Relays.flag_eq {x : Exchange} {t last t' : Bool} {out : List Byte}
    (h : Relays x t last out t') : t' = x.flag t := by
  cases h with
  | body hbody => simp [Exchange.flag, hbody]
  | line hline => simp [Exchange.flag, hline]

theorem Relays.line_eq {x : Exchange} {t last t' : Bool} {out : List Byte}
    (h : Relays x t last out t') (hline : x.cmd.builder.expectsBody = false) :
    out = if t then [] else x.octets := by
  cases h with
  | body hbody =>
    rw [hbody] at hline
    cases hline
  | line _ => rfl

theorem Relays.body_eq {x : Exchange} {t last t' : Bool} {out : List Byte}
    (h : Relays x t last out t') (hbody : x.cmd.builder.expectsBody = true) :
    out = if x.filtered then fromFilter x.statusIo else x.octets := by
  cases h with
  | body _ => rfl
  | line hline =>
    rw [hbody] at hline
    cases hline

/-- The commands that are filtered are in the table of those with a body. -/
theorem ClientCommand.expectsBody_of_transformed {cmd : ClientCommand}
    (h : isTransformed cmd.keyword = true) : cmd.builder.expectsBody = true := by
  have hkwrd : cstr cmd.keyword = ascii "RETR" ∨ cstr cmd.keyword = ascii "TOP" := by
    simpa [isTransformed] using h
  have htype : getCommandType cmd.keyword = .multiline := by
    rw [getCommandType, if_pos]
    rcases hkwrd with hkwrd | hkwrd <;> simp [isInStringArray, multilineCommands, hkwrd]
  simp [Pop3CommandBuilder.expectsBody, ClientCommand.builder, htype]

theorem Exchange.expectsBody_of_filtered {x : Exchange} (h : x.filtered = true) :
    x.cmd.builder.expectsBody = true := ClientCommand.expectsBody_of_transformed h

/-- Behind the command: nothing is left of the client's stream. -/
inductive Answering (x : Exchange) (t : Bool) (toOrigin toClient : List Byte) : Dialogue → Prop
  | forward {sent rest p toFilter} (hsplit : sent ++ rest = x.cmd.line) (hne : rest ≠ [])
    (hio : p.calls (Exchange.forwardCalls p.sends rest.length) = x.statusIo)
    (hclient : p.client = []) (horigin : p.origin = []) (hreplies : p.replies = [[x.octets]]) :
    Answering x t toOrigin toClient
      ⟨.forward x.cmd.builder rest, t, p, toOrigin ++ sent, toClient, toFilter⟩
  | status {p toFilter} (hio : p.calls 0 = x.statusIo) (hclient : p.client = [])
    (horigin : p.origin = [x.octets])
    (hreplies : p.replies = []) :
    Answering x t toOrigin toClient
      ⟨.status x.cmd.builder, t, p, toOrigin ++ x.cmd.line, toClient, toFilter⟩
  | refused {p toFilter} (hline : hasStatusLine x.octets = false) :
    Answering x t toOrigin toClient
      ⟨.closed, t, p, toOrigin ++ x.cmd.line, toClient, toFilter⟩
  | relay {last out t' sent rest p toFilter} (hline : hasStatusLine x.octets = true)
    (h : Relays x t last out t') (hsplit : sent ++ rest = out) (hne : rest = [] → out = [])
    (hclient : p.client = []) (horigin : p.origin = []) (hreplies : p.replies = []) :
    Answering x t toOrigin toClient
      ⟨.relay last rest, t', p, toOrigin ++ x.cmd.line, toClient ++ sent, toFilter⟩
  | rested {last out t' p toFilter} (hline : hasStatusLine x.octets = true)
    (h : Relays x t last out t') (hclient : p.client = []) (horigin : p.origin = [])
    (hreplies : p.replies = []) :
    Answering x t toOrigin toClient
      ⟨if last then .ready else .body, t', p, toOrigin ++ x.cmd.line, toClient ++ out, toFilter⟩

/-- What a dialogue goes through from the command to the end of the reply. -/
inductive Course (x : Exchange) (t : Bool) (toOrigin toClient : List Byte) : Dialogue → Prop
  | reading {held p toFilter} (hsplit : held ++ p.client.flatten = x.cmd.line)
    (hne : p.client.flatten ≠ []) (hfit : held.length ≤ rawBuffA) (hparts : [] ∉ p.client)
    (hsends : p.sends = x.sends)
    (hio : x.cmd.line.length ≤ rawBuffA → p.calls (p.client.length +
      Exchange.forwardCalls x.sends x.cmd.line.length) = x.statusIo)
    (horigin : p.origin = []) (hreplies : p.replies = [[x.octets]]) :
    Course x t toOrigin toClient ⟨.reading held, t, p, toOrigin, toClient, toFilter⟩
  | tooLong {p toFilter} (hlong : rawBuffA < x.cmd.line.length) :
    Course x t toOrigin toClient ⟨.closed, t, p, toOrigin, toClient, toFilter⟩
  | answering {d} (hfit : x.cmd.line.length ≤ rawBuffA) (h : Answering x t toOrigin toClient d) :
    Course x t toOrigin toClient d

section
variable {x : Exchange} {t : Bool} {toOrigin toClient : List Byte} {d d' : Dialogue}

/-- Nothing has been sent yet. -/
theorem Answering.begin {last : Bool} {out toFilter : List Byte} {t' : Bool} {p : Peers}
    (hline : hasStatusLine x.octets = true) (h : Relays x t last out t') (hclient : p.client = [])
    (horigin : p.origin = []) (hreplies : p.replies = []) : Answering x t toOrigin toClient
      ⟨.relay last out, t', p, toOrigin ++ x.cmd.line, toClient, toFilter⟩ := by
  have hrelay := @Answering.relay x t toOrigin toClient last out t' [] out p toFilter hline h rfl id
    hclient horigin hreplies
  rwa [List.append_nil] at hrelay

/-- The reply comes, whole. -/
theorem statusRead_answering {p : Peers} (hio : p.calls 0 = x.statusIo) (q : Peers)
    (toFilter : List Byte) (hclient : q.client = []) (horigin : q.origin = [])
    (hreplies : q.replies = []) : Answering x t toOrigin toClient
      (Dialogue.statusRead ⟨.status x.cmd.builder, t, p, toOrigin ++ x.cmd.line, toClient, toFilter⟩
        x.cmd.builder x.octets q) := by
  unfold Dialogue.statusRead
  cases hline : hasStatusLine x.octets with
  | false =>
    rw [if_neg (by simp)]
    exact .refused hline
  | true =>
    rw [if_pos rfl]
    cases hbody : x.cmd.builder.expectsBody with
    | false =>
      rw [if_neg (by simp)]
      exact .begin hline (.line hbody) hclient horigin hreplies
    | true =>
      simp only [if_true, hio]
      exact .begin hline (.body hbody) hclient horigin hreplies

/-- The last call that forwards the command. -/
theorem Exchange.forwardCalls_last {p : Peers} {rest : List Byte}
    (hdone : rest.drop p.quota = []) : forwardCalls p.sends rest.length = 1 := by
  have hle := List.drop_eq_nil_iff.mp hdone
  cases hs : p.sends with
  | nil => rfl
  | cons q qs =>
    rw [Peers.quota, hs, List.headD_cons] at hle
    rw [forwardCalls, if_pos hle]

/-- A call that forwards a part of it. -/
theorem Exchange.forwardCalls_more {p : Peers} {rest : List Byte}
    (hshort : rest.length ≤ rawBuffTrans)
    (hmore : rest.drop p.quota ≠ []) : forwardCalls p.sends rest.length =
      forwardCalls p.sends.tail (rest.drop p.quota).length + 1 := by
  have hlt := mt List.drop_eq_nil_iff.mpr hmore
  cases hs : p.sends with
  | nil =>
    rw [Peers.quota, hs, List.headD_nil] at hlt
    exact absurd hshort hlt
  | cons q qs =>
    rw [Peers.quota, hs, List.headD_cons] at hlt ⊢
    rw [forwardCalls, if_neg hlt, List.length_drop, List.tail_cons]

/-- One step behind the command. -/
theorem Answering.step (hfit : x.cmd.line.length ≤ rawBuffA)
    (h : Answering x t toOrigin toClient d) (hstep : d.step = some d') :
    Answering x t toOrigin toClient d' := by
  cases h with
  | @forward sent rest p toFilter hsplit hne hio hclient horigin hreplies =>
    have hshort : rest.length ≤ rawBuffTrans := by
      have hlen := congrArg List.length hsplit
      have hroom : rawBuffA ≤ rawBuffTrans := by decide
      rw [List.length_append] at hlen
      omega
    simp only [Dialogue.step, Option.some.injEq] at hstep
    subst hstep
    -- all of the command is forwarded, or a part of it
    by_cases hdone : rest.drop p.quota = []
    · have hall : rest.take p.quota = rest := List.take_of_length_le (List.drop_eq_nil_iff.mp hdone)
      simp only [if_pos hdone, hall, List.append_assoc, hsplit]
      refine .status ?_ hclient ?_ ?_
      · rwa [Exchange.forwardCalls_last hdone] at hio
      · show p.origin ++ p.replies.headD [] = _
        rw [horigin, hreplies]
        rfl
      · show p.replies.tail = []
        rw [hreplies]
        rfl
    · simp only [if_neg hdone, List.append_assoc]
      rw [Exchange.forwardCalls_more hshort hdone] at hio
      refine .forward ?_ hdone hio hclient horigin hreplies
      rw [List.append_assoc, List.take_append_drop, hsplit]
  | @status p toFilter hio hclient horigin hreplies =>
    have hwhole : x.octets.take rawBuffB = x.octets := List.take_of_length_le x.whole
    simp only [Dialogue.step, horigin, Option.some.injEq, hwhole] at hstep
    subst hstep
    exact statusRead_answering hio _ toFilter hclient (Peers.leave_fits x.whole []) hreplies
  | refused hline => simp [Dialogue.step] at hstep
  | @relay last out t' sent rest p toFilter hline h hsplit hne hclient horigin hreplies =>
    simp only [Dialogue.step, Option.some.injEq] at hstep
    subst hstep
    -- all of the part is sent, or some of it is left
    by_cases hdone : rest.drop p.quota = []
    · have hall : rest.take p.quota = rest := List.take_of_length_le (List.drop_eq_nil_iff.mp hdone)
      simp only [if_pos hdone, hall, List.append_assoc, hsplit]
      exact .rested hline h hclient horigin hreplies
    · simp only [if_neg hdone, List.append_assoc]
      refine .relay hline h ?_ (fun hnil => absurd hnil hdone) hclient horigin hreplies
      rw [List.append_assoc, List.take_append_drop, hsplit]
  | @rested last out t' p toFilter hline h hclient horigin hreplies =>
    -- nothing comes any more, neither from the origin nor from the client
    cases last
    · simp [Dialogue.step, horigin] at hstep
    · simp [Dialogue.step, hclient] at hstep

/-- **One step of an exchange.** -/
theorem Course.step (h : Course x t toOrigin toClient d) (hstep : d.step = some d') :
    Course x t toOrigin toClient d' := by
  cases h with
  | tooLong hlong => simp [Dialogue.step] at hstep
  | answering hfit h => exact .answering hfit (h.step hfit hstep)
  | @reading held p toFilter hsplit hne hfit hparts hsends hio horigin hreplies =>
    have hline := x.cmd.commandLine
    obtain ⟨seg, segs, hp⟩ := List.exists_cons_of_ne_nil (l := p.client) (by
      rintro hnil
      rw [hnil] at hne
      exact hne rfl)
    have hsegs := hparts
    rw [hp, List.mem_cons, not_or] at hsegs
    by_cases hroom : seg.take (rawBuffA - held.length) = []
    -- the buffer is full
    · have hfull : rawBuffA - held.length = 0 :=
        (List.take_eq_nil_iff.mp hroom).resolve_right (Ne.symm hsegs.1)
      have hlong : rawBuffA < x.cmd.line.length := by
        have hpos := List.length_pos_iff.mpr hne
        rw [← hsplit, List.length_append]
        omega
      simp only [Dialogue.step, Stage.reading, hp, if_pos hroom, Option.some.injEq] at hstep
      subst hstep
      exact .tooLong hlong
    · rw [Dialogue.step_reading (hline.begun hsplit hne) rfl hp hroom, Option.some.injEq] at hstep
      subst hstep
      have hmore : (held ++ seg.take (rawBuffA - held.length)) ++
          (Peers.leave (rawBuffA - held.length) seg segs).flatten = x.cmd.line := by
        rw [Peers.flatten_leave, ← hsplit, hp, List.flatten_cons, List.append_assoc,
          ← List.append_assoc
          (seg.take _), List.take_append_drop]
      have hfits : (held ++ seg.take (rawBuffA - held.length)).length ≤ rawBuffA := by
        rw [List.length_append, List.length_take]
        omega
      -- a command that fits takes one call for each segment
      have hcall : x.cmd.line.length ≤ rawBuffA → p.tick.calls
          ((Peers.leave (rawBuffA - held.length) seg segs).length +
            Exchange.forwardCalls x.sends x.cmd.line.length) = x.statusIo := by
        intro hshort
        have hlen := congrArg List.length hsplit
        rw [hp, List.flatten_cons, List.length_append, List.length_append] at hlen
        have hnil : seg.drop (rawBuffA - held.length) = [] := List.drop_eq_nil_iff.mpr (by omega)
        have hthis := hio hshort
        rw [hp, List.length_cons, Nat.add_right_comm] at hthis
        rw [Peers.leave, if_pos hnil]
        exact hthis
      by_cases hlast : (Peers.leave (rawBuffA - held.length) seg segs).flatten = []
      · rw [hlast, List.append_nil] at hmore
        rw [hmore] at hfits ⊢
        have hout := Stage.readOut_line hline []
        rw [List.append_nil] at hout
        rw [hout]
        have hclient := segments_nil (Peers.Wf.not_mem_leave hsegs.2) hlast
        have hstatus := hcall hfits
        rw [hclient, List.length_nil, Nat.zero_add, ← hsends] at hstatus
        have hforward := @Answering.forward x t toOrigin toClient [] x.cmd.line
          { p.tick with client := Peers.leave (rawBuffA - held.length) seg segs } toFilter rfl
          (by simp [ClientCommand.line, CRLF]) hstatus hclient horigin hreplies
        rw [List.append_nil] at hforward
        exact .answering hfits hforward
      · rw [Stage.readOut_begun hline hmore hlast]
        exact .reading hmore hlast hfits (Peers.Wf.not_mem_leave hsegs.2) hsends hcall horigin
          hreplies

/-- **The course of an exchange.** -/
theorem Course.reaches (h : Course x t toOrigin toClient d) (hreach : Reaches Dialogue.step d d') :
    Course x t toOrigin toClient d' := by
  induction hreach with
  | refl => exact h
  | tail _ hstep ih => exact ih.step hstep

end

/-! ## Where it ends -/

section
variable {a : Addr} {cfd ofd : Int} {t : Bool} {s : Session} {x : Exchange}

/-- The dialogue of an exchange. -/
theorem AtCommand.shows (h : AtCommand a cfd ofd t s) (x : Exchange) :
    ∃ d, Shows a cfd ofd (s.ask x) d ∧
      Course x t (sentOn ofd s.world.output) (sentOn cfd s.world.output) d := by
  have hclient : (s.ask x).peers.client = x.parts := by
    show s.peers.client ++ x.parts = x.parts
    rw [h.client, List.nil_append]
  have hreplies : (s.ask x).peers.replies = [[x.octets]] := by
    show s.peers.replies ++ [[x.octets]] = [[x.octets]]
    rw [h.replies, List.nil_append]
  have hwf : (s.ask x).peers.Wf := by
    refine ⟨hclient ▸ x.parts_ne, ?_, ?_⟩
    · show [] ∉ s.peers.origin
      rw [h.origin]
      exact List.not_mem_nil
    · rw [hreplies]
      intro segs hsegs
      rw [List.mem_singleton.mp hsegs, List.mem_singleton]
      exact Ne.symm (x.reply.octets_ne x.cmd)
  refine ⟨_, Shows.start h.stage hwf,
    @Course.reading x t _ _ [] _ _ ?_ ?_ (Nat.zero_le _) hwf.client rfl ?_ h.origin hreplies⟩
  · show (s.ask x).peers.client.flatten = _
    rw [hclient, x.parts_flatten]
  · show (s.ask x).peers.client.flatten ≠ []
    rw [hclient, x.parts_flatten]
    simp [ClientCommand.line, CRLF]
  · intro _
    show x.calls ((s.ask x).peers.client.length + _) = _
    rw [hclient]
    rfl

/-- The stage in which a command is awaited. -/
theorem Shows.back_iff {s₀ : Session} {d : Dialogue} (h : Shows a cfd ofd s d) :
    s₀.Back a ofd x s ↔ d.stage.state = .commandCread ∧
      d.toOrigin = sentOn ofd s₀.world.output ++ x.cmd.line := by
  rw [Session.Back, h.stage.current, h.toOrigin, Option.some_inj]
  exact and_congr_left fun _ => ⟨States.num_injective, congrArg _⟩

/-- **Back at the start of a command**, the reply has been relayed. -/
theorem Course.back {toOrigin toClient : List Byte} {d : Dialogue}
    (h : Course x t toOrigin toClient d) (hstate : d.stage.state = .commandCread)
    (hsent : d.toOrigin = toOrigin ++ x.cmd.line) :
    x.cmd.line.length ≤ rawBuffA ∧ hasStatusLine x.octets = true ∧ d.step = none ∧
      ∃ out t', Relays x t true out t' ∧ d.toClient = toClient ++ out := by
  have hne : x.cmd.line ≠ [] := by simp [ClientCommand.line, CRLF]
  cases h with
  | reading _ _ _ _ _ _ _ _ =>
    exact absurd (List.append_right_eq_self.mp hsent.symm) hne
  | tooLong hlong => cases hstate
  | answering hfit h =>
    cases h with
    | forward _ _ _ _ _ _ => cases hstate
    | status _ _ _ _ => cases hstate
    | refused _ => cases hstate
    | @relay last out t' sent rest p toFilter _ _ _ _ _ _ _ => cases last <;> cases hstate
    | @rested last out t' p toFilter hline h hclient horigin hreplies =>
      cases last with
      | false => cases hstate
      | true =>
        refine ⟨hfit, hline, ?_, out, t', h, rfl⟩
        simp [Dialogue.step, hclient]

/-- **At rest** the connection is closed, or the reply has been relayed. -/
theorem Course.at_rest {toOrigin toClient : List Byte} {d : Dialogue}
    (h : Course x t toOrigin toClient d) (hrest : d.step = none) :
    (d.stage = .closed ∧ d.toClient = toClient ∧
        ¬ (x.cmd.line.length ≤ rawBuffA ∧ hasStatusLine x.octets = true)) ∨
      x.cmd.line.length ≤ rawBuffA ∧ hasStatusLine x.octets = true ∧
        ∃ last out, Relays x t last out d.transform ∧
          d.stage = (if last then .ready else .body) ∧ d.toOrigin = toOrigin ++ x.cmd.line ∧
          d.toClient = toClient ++ out ∧ d.peers.client = [] ∧ d.peers.origin = [] ∧
          d.peers.replies = [] := by
  cases h with
  | @reading held p toFilter hsplit hne hfit hparts hsends hio horigin hreplies =>
    cases hp : p.client with
    | nil =>
      rw [hp] at hne
      exact absurd rfl hne
    | cons seg segs => simp [Dialogue.step, Stage.reading, hp] at hrest
  | tooLong hlong => exact Or.inl ⟨rfl, rfl, fun hfit => absurd hfit.1 (Nat.not_le.mpr hlong)⟩
  | answering hfit h =>
    cases h with
    | forward _ _ _ _ _ _ => simp [Dialogue.step] at hrest
    | @status p toFilter hio hclient horigin hreplies => simp [Dialogue.step, horigin] at hrest
    | refused hline =>
      refine Or.inl ⟨rfl, rfl, fun hboth => ?_⟩
      rw [hline] at hboth
      cases hboth.2
    | relay _ _ _ _ _ _ _ => simp [Dialogue.step] at hrest
    | @rested last out t' p toFilter hline h hclient horigin hreplies =>
      exact Or.inr ⟨hfit, hline, last, out, h, rfl, rfl, rfl, hclient, horigin, hreplies⟩

/-- Every reply the code takes for a whole one leads back. -/
theorem Course.rest {toOrigin toClient : List Byte} {d : Dialogue}
    (h : Course x t toOrigin toClient d) (hrest : d.step = none) (htaken : TakenWhole x t) :
    d.stage.state = .commandCread ∧ d.toOrigin = toOrigin ++ x.cmd.line := by
  rcases h.at_rest hrest with ⟨-, -, hnot⟩ | ⟨-, -, last, out, hrelays, hstage, hsent, -⟩
  · exact absurd ⟨htaken.fits, htaken.statusLine⟩ hnot
  · have hlast : last = true := by
      rw [hrelays.last_eq, Exchange.seemsWhole]
      cases hbody : x.cmd.builder.expectsBody with
      | true => exact htaken.body hbody
      | false => rfl
    rw [hstage, hlast]
    exact ⟨rfl, hsent⟩

/-- What has been sent when as much has been sent as will be. -/
theorem Course.sent {toOrigin toClient out : List Byte} {d d' : Dialogue}
    (h : Course x t toOrigin toClient d) (hreach : Reaches Dialogue.step d d')
    (hrest : d'.step = none) (hall : d'.toClient = toClient ++ out) (hne : out ≠ [])
    (hsent : d.toClient = toClient ++ out) : d.step = none := by
  have hnothing (hnil : d.toClient = toClient) : d.step = none := by
    rw [hnil] at hsent
    exact absurd (List.append_right_eq_self.mp hsent.symm) hne
  cases h with
  | reading _ _ _ _ _ _ _ _ => exact hnothing rfl
  | tooLong _ => exact hnothing rfl
  | answering hfit h =>
    cases h with
    | forward _ _ _ _ _ _ => exact hnothing rfl
    | status _ _ _ _ => exact hnothing rfl
    | refused _ => exact hnothing rfl
    | @relay last out' t' sent rest p toFilter hline h hsplit hlast hclient horigin hreplies =>
      -- the rest is sent too, so it is empty, and so was the chunk
      obtain ⟨q, hlater, hgo⟩ := Dialogue.relay_reaches
        ⟨.relay last rest, t', p, toOrigin ++ x.cmd.line, toClient ++ sent, toFilter⟩ last p rest
      have hstop : Dialogue.step ⟨if last then .ready else .body, t', q, toOrigin ++ x.cmd.line,
          toClient ++ sent ++ rest, toFilter⟩ = none := by
        cases last
        · simp [Dialogue.step, hlater.origin, horigin]
        · simp [Dialogue.step, hlater.client, hclient]
      have hsame := Part.mem_unique (mem_eval.mpr ⟨hgo, hstop⟩) (mem_eval.mpr ⟨hreach, hrest⟩)
      have hout : toClient ++ sent ++ rest = toClient ++ sent :=
        (congrArg Dialogue.toClient hsame).trans (hall.trans hsent.symm)
      have hnil := hlast (List.append_right_eq_self.mp hout)
      rw [← hsplit, List.append_eq_nil_iff] at hnil
      rw [hnil.1, List.append_nil] at hsent
      exact absurd (List.append_right_eq_self.mp hsent.symm) hne
    | @rested last out' t' p toFilter hline h hclient horigin hreplies =>
      cases last
      · simp [Dialogue.step, horigin]
      · simp [Dialogue.step, hclient]

/-- Where the connection comes back in time, the code has taken the reply for a whole one. -/
theorem Framed.takenWhole (hf : Framed a cfd ofd s x) (h : AtCommand a cfd ofd t s) :
    TakenWhole x t := by
  obtain ⟨d, hshows, hcourse⟩ := h.shows x
  obtain ⟨⟨s', hpass, hback⟩, hwhole⟩ := hf
  obtain ⟨d', hreach, hshows'⟩ := hshows.passes hpass
  obtain ⟨hstate, hsent⟩ := hshows'.back_iff.mp hback
  obtain ⟨hfit, hline, -, out, t', hrelays, hclient⟩ := (hcourse.reaches hreach).back hstate hsent
  have hout : out = x.octets := by
    have hall := (hwhole s' hpass).mp hback
    rw [hshows'.toClient, hclient] at hall
    exact List.append_cancel_left hall
  have hlast := hrelays.last_eq
  refine ⟨hfit, hline, fun hbody => ?_, fun hbody => ?_, fun hfiltered => ?_⟩
  · rw [Exchange.seemsWhole, hbody] at hlast
    exact hlast.symm
  · have hflag := hrelays.line_eq hbody
    rw [hout] at hflag
    cases t with
    | false => rfl
    | true => exact absurd hflag (x.reply.octets_ne x.cmd)
  · have hgiven := hrelays.body_eq (x.expectsBody_of_filtered hfiltered)
    rw [hout, if_pos hfiltered] at hgiven
    exact hgiven.symm

/-- A reply that is taken whole is relayed as it is. -/
theorem TakenWhole.relays (htaken : TakenWhole x t) {last t' : Bool} {out : List Byte}
    (h : Relays x t last out t') : out = x.octets := by
  cases hbody : x.cmd.builder.expectsBody with
  | false =>
    rw [h.line_eq hbody, htaken.line hbody]
    rfl
  | true =>
    rw [h.body_eq hbody]
    split_ifs with hfiltered
    · exact htaken.filter hfiltered
    · rfl

/-- And where it does, the connection comes back in time. -/
theorem TakenWhole.framed (htaken : TakenWhole x t) (h : AtCommand a cfd ofd t s) :
    Framed a cfd ofd s x := by
  obtain ⟨d, hshows, hcourse⟩ := h.shows x
  obtain ⟨s', d', hrests, hreach, hrest, hshows'⟩ := hshows.rests
  obtain ⟨hstate, hsent⟩ := (hcourse.reaches hreach).rest hrest htaken
  obtain ⟨-, -, -, out, t', hrelays, hclient⟩ := (hcourse.reaches hreach).back hstate hsent
  rw [htaken.relays hrelays] at hclient
  have hback : s.Back a ofd x s' := hshows'.back_iff.mpr ⟨hstate, hsent⟩
  -- the point at which it is at rest is the only one like it
  have honly {s'' : Session} {d'' : Dialogue} (hpass : (s.ask x).Passes a s'')
      (hshows'' : Shows a cfd ofd s'' d'') (hrest'' : d''.step = none) : s'' = s' :=
    Session.Rests.unique ⟨hpass, hshows''.rest_iff.mpr hrest''⟩ hrests
  refine ⟨⟨s', hrests.1, hback⟩, fun s'' hpass => ?_⟩
  obtain ⟨d'', hreach'', hshows''⟩ := hshows.passes hpass
  constructor
  · intro hback''
    obtain ⟨hstate'', hsent''⟩ := hshows''.back_iff.mp hback''
    obtain ⟨-, -, hrest'', -⟩ := (hcourse.reaches hreach'').back hstate'' hsent''
    rw [honly hpass hshows'' hrest'', hshows'.toClient, hclient]
  · intro hall
    rw [hshows''.toClient] at hall
    have hon := reaches_on hreach'' hreach hrest
    have hrest'' := (hcourse.reaches hreach'').sent hon hrest hclient (x.reply.octets_ne x.cmd) hall
    rw [honly hpass hshows'' hrest'']
    exact hback

/-! ## Connections of the program -/

/-- A connection of a run that waits for the greeting or a command, with its origin registered,
is linked. -/
theorem WorldInv.linked {w : World} {pending : List Int} {st : States} (hinv : WorldInv w pending)
    (hlive : Live w a) (hst : st = .greetingSread ∨ st = .commandCread)
    (hcur : (w.heap a).current = some st.num) (hfd : (w.heap a).originFd ≠ -1)
    (horigin : (w.sel.item (w.heap a).originFd).isSome) : ∃ l, Linked a st l w := by
  obtain ⟨s', l, hc⟩ := hinv.connected a hlive
  have hs : s' = some st := by
    have hnum := hcur.symm.trans hc.current
    cases s' with
    | none => cases hnum
    | some s' => rw [States.num_injective (Option.some.inj hnum)]
  subst hs
  have hregistered : ¬ l.origin.Unregistered := by
    have hwires := hc.wired.origin
    rintro (ho | ho)
    · rw [ho] at hwires
      exact hfd hwires
    · rw [ho] at hwires
      rw [hwires.2.2] at horigin
      cases horigin
  have hl : st.wires = some l := by
    have hallowed := hc.allowed
    rcases hst with rfl | rfl
    · cases hallowed with
      | awaiting => rfl
      | unconnected ho => exact absurd ho hregistered
      | reply hs => rcases hs with hs | hs <;> cases hs
      | relay hs => rcases hs with hs | hs <;> cases hs
    · cases hallowed with
      | command ho =>
        rcases ho with ho | rfl
        · exact absurd ho hregistered
        · rfl
      | reply hs => rcases hs with hs | hs <;> cases hs
      | relay hs => rcases hs with hs | hs <;> cases hs
  exact ⟨l, hinv.sound, hc.wired, hl, hcur⟩

end

/-- The program behind the greeting of the origin at 5, with the client at 4. -/
def greetedWorld : World := (proxySystem.last (.start 3 .ipv4) greeted).world

/-- Its connection awaits the first command. -/
theorem greeted_atCommand : AtCommand 0 4 5 false ⟨greetedWorld, [], [], [], [], fun _ => {}⟩ := by
  obtain ⟨pending, hinv⟩ : ∃ pending, WorldInv greetedWorld pending :=
    ⟨_, (ProxyInv.of_reach ((reach_start .ipv4).last (fun _ _ => trivial) greeted)).world⟩
  have hitem : greetedWorld.sel.item 4 = some ⟨4, OP_READ, .suscriptions, 0⟩ := by decide +kernel
  have hcur : (greetedWorld.heap 0).current = some States.commandCread.num := by decide +kernel
  have hfd : (greetedWorld.heap 0).originFd ≠ -1 := by decide +kernel
  have horigin : (greetedWorld.sel.item (greetedWorld.heap 0).originFd).isSome := by decide +kernel
  have hcarries : Carries 4 5 false .ready (greetedWorld.heap 0) := by
    refine ⟨?_, ?_, ?_, ?_, ⟨⟨?_, ?_, ?_⟩, ?_, ?_, ?_⟩, ?_, ?_⟩ <;> decide +kernel
  generalize greetedWorld = w at *
  obtain ⟨l, hl⟩ := hinv.linked ⟨4, _, hitem, rfl, rfl⟩ (.inr rfl) hcur hfd horigin
  exact ⟨.opened hl hcarries, rfl, rfl, rfl⟩

/-- **The framing of replies**: the connection is back with the last octet of the reply exactly
when the code takes the reply for a whole one. -/
theorem reply_framed {a : Addr} {cfd ofd : Int} {t : Bool} {s : Session}
    (h : AtCommand a cfd ofd t s) (x : Exchange) : Framed a cfd ofd s x ↔ TakenWhole x t :=
  ⟨fun hf => hf.takenWhole h, fun ht => ht.framed h⟩

/-- A command without argument. -/
def ClientCommand.bare (keyword : List Byte) (letters : ∀ c ∈ keyword, IsLetter c)
    (short : keyword.length ≤ 4) : ClientCommand :=
  ⟨keyword, none, letters, short, by simp⟩

/-- The reply that says `+OK` and no more. -/
def okReply : ServerReply := ⟨.ok, [], [], by decide, by decide⟩

/-- `CAPA`, whose octets come one by one, and a reply of one line to it. -/
def capaExchange : Exchange where
  cmd := .bare (ascii "CAPA") (by decide +kernel) (by decide)
  parts := (ascii "CAPA" ++ CRLF).map fun c => [c]
  reply := ⟨.ok, [], [ascii "TOP"], okReply.text_free, by decide⟩
  sends := [1, 0, 2]
  calls := fun _ => {}
  parts_flatten := by decide
  parts_ne := by decide
  whole := by decide +kernel

theorem reply_framed_capa : Framed 0 4 5 ⟨greetedWorld, [], [], [], [], fun _ => {}⟩ capaExchange :=
  (reply_framed greeted_atCommand capaExchange).mpr
    ⟨by decide, by decide +kernel, fun _ => by decide +kernel, fun _ => rfl, by decide +kernel⟩

/-- `LIST`, which is refused: the connection waits for the lines of a body. -/
def listRefused : Exchange where
  cmd := .bare (ascii "LIST") (by decide +kernel) (by decide)
  parts := [ascii "LIST" ++ CRLF]
  reply := ⟨.err, ascii " no", [], by decide, okReply.lines_free⟩
  sends := []
  calls := fun _ => {}
  parts_flatten := by decide
  parts_ne := by decide
  whole := by decide +kernel

theorem reply_unframed : ¬ ∀ (a : Addr) (cfd ofd : Int) (t : Bool) (s : Session),
    AtCommand a cfd ofd t s → ∀ x : Exchange, Framed a cfd ofd s x := by
  intro h
  have hbody := ((h 0 4 5 false _ greeted_atCommand listRefused).takenWhole greeted_atCommand).body
    (by decide +kernel)
  revert hbody
  decide +kernel

end Pop3Proxy
