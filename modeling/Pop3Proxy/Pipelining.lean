/-
# Forwarding commands

The client's stream is a number of commands, read in segments that need not be commands.
What is read behind the end of a command is not announced to the buffer, and nothing goes
back for it.
-/
import Pop3Proxy.Framing

namespace Pop3Proxy

open StateTransition

/-! ## No octet is forwarded that was not due -/

/-- What is held of a command, to be forwarded. -/
def Stage.held : Stage → List Byte
  | .command _ _ bs => bs
  | .forward _ rest => rest
  | .greeting | .welcome _ | .status _ | .relay _ _ | .body | .closed => []

/-- How much can still be forwarded. -/
def Dialogue.forwardable (d : Dialogue) : ℕ := d.stage.held.length + d.peers.client.flatten.length

namespace Dialogue

variable {d d' : Dialogue}

theorem held_commandStage (p : CommandState) (cmd : Pop3CommandBuilder) (held chunk : List Byte) :
    (commandStage p cmd held chunk).held.length ≤ held.length + chunk.length := by
  have htake (n : ℕ) : (held ++ chunk.take n).length ≤ held.length + chunk.length := by
    rw [List.length_append, List.length_take]
    omega
  unfold commandStage
  dsimp only
  split
  · exact htake _
  · exact htake _
  · exact Nat.zero_le _

/-- What is forwarded was there before. -/
theorem step_forwards (hstep : d.step = some d') : ∃ out, d'.toOrigin = d.toOrigin ++ out ∧
    out.length + d'.forwardable ≤ d.forwardable := by
  have hnothing (hsent : d'.toOrigin = d.toOrigin) (hheld : d'.stage.held = [])
      (hclient : d'.peers.client = d.peers.client) : ∃ out, d'.toOrigin = d.toOrigin ++ out ∧
        out.length + d'.forwardable ≤ d.forwardable := by
    refine ⟨[], by rw [hsent, List.append_nil], ?_⟩
    rw [forwardable, hheld, hclient, forwardable]
    simp
  cases moves hstep with
  | greeting hst hp =>
    refine hnothing rfl ?_ rfl
    dsimp only
    split_ifs <;> rfl
  | status hst hp =>
    refine hnothing ?_ ?_ ?_ <;> unfold statusRead <;> split_ifs <;> rfl
  | body hst hp => exact hnothing rfl rfl rfl
  | welcome hst | relay hst =>
    refine hnothing rfl ?_ rfl
    dsimp only
    split_ifs <;> rfl
  -- what is sent is taken from what is held
  | @forward cmd rest hst =>
    refine ⟨rest.take d.peers.quota, rfl, ?_⟩
    have hlen :
      (rest.take d.peers.quota).length + (rest.drop d.peers.quota).length = rest.length := by
      rw [← List.length_append, List.take_append_drop]
    unfold forwardable
    rw [hst]
    by_cases hdone : rest.drop d.peers.quota = []
    · rw [hdone] at hlen
      simp only [if_pos hdone]
      show _ + (0 + d.peers.client.flatten.length) ≤ rest.length + d.peers.client.flatten.length
      simp only [List.length_nil] at hlen
      omega
    · simp only [if_neg hdone]
      show _ + ((rest.drop d.peers.quota).length + d.peers.client.flatten.length) ≤
        rest.length + d.peers.client.flatten.length
      omega
  -- what is read moves from the client to what is held
  | @command p cmd bs seg segs hst hp =>
    refine ⟨[], (List.append_nil _).symm, ?_⟩
    have hheld : (if seg.take (rawBuffA - bs.length) = [] then Stage.closed
        else commandStage p cmd bs (seg.take (rawBuffA - bs.length))).held.length ≤
        bs.length + (seg.take (rawBuffA - bs.length)).length := by
      split_ifs
      · exact Nat.zero_le _
      · exact held_commandStage p cmd bs _
    have hlen : (seg.take (rawBuffA - bs.length)).length +
        (seg.drop (rawBuffA - bs.length)).length = seg.length := by
      rw [← List.length_append, List.take_append_drop]
    unfold forwardable
    rw [hst, hp]
    dsimp only
    rw [Peers.flatten_leave, List.flatten_cons, List.length_append, List.length_append]
    show 0 + (_ + _) ≤ bs.length + _
    omega

/-- **No octet is forwarded that was not due.** -/
theorem reaches_forwards (hreach : Reaches Dialogue.step d d') :
    ∃ out, d'.toOrigin = d.toOrigin ++ out ∧ out.length + d'.forwardable ≤ d.forwardable := by
  induction hreach with
  | refl => exact ⟨[], (List.append_nil _).symm, Nat.le_of_eq (Nat.zero_add _)⟩
  | tail _ hstep ih =>
    obtain ⟨out, hout, hle⟩ := ih
    obtain ⟨out', hout', hle'⟩ := step_forwards hstep
    refine ⟨out ++ out', by rw [hout', hout, List.append_assoc], ?_⟩
    rw [List.length_append]
    omega

/-- A connection that waits for the origin, or is closed, forwards nothing. -/
def Idle (d : Dialogue) : Prop :=
  (d.stage = .closed ∨ d.stage = .body ∨ ∃ rest, d.stage = .relay false rest) ∧
    ∀ n, (d.peers.calls n).junk ≠ .finishedConsuming

/-- **An idle connection stays idle**, unless what is found on the stack says otherwise. -/
theorem Idle.step (h : d.Idle) (hstep : d.step = some d') :
    d'.Idle ∧ d'.toOrigin = d.toOrigin := by
  obtain ⟨hstage, hjunk⟩ := h
  have hjunk' (n : ℕ) : (d.peers.calls (n + 1)).junk ≠ .finishedConsuming := hjunk (n + 1)
  rcases hstage with hst | hst | ⟨rest, hst⟩
  · simp [Dialogue.step, hst] at hstep
  · cases hp : d.peers.origin with
    | nil => simp [Dialogue.step, hst, hp] at hstep
    | cons seg segs =>
      simp only [Dialogue.step, hst, hp, Option.some.injEq] at hstep
      subst hstep
      refine ⟨⟨Or.inr (Or.inr ⟨relayed d.transform (d.peers.calls 0) (seg.take rawBuffB), ?_⟩),
        hjunk'⟩, rfl⟩
      simp only [bodyRead, decide_eq_false (hjunk 0)]
  · simp only [Dialogue.step, hst, Option.some.injEq] at hstep
    subst hstep
    refine ⟨⟨?_, hjunk'⟩, rfl⟩
    by_cases hdone : rest.drop d.peers.quota = []
    · exact Or.inr (Or.inl (by simp [hdone]))
    · exact Or.inr (Or.inr ⟨rest.drop d.peers.quota, by simp [hdone]⟩)

theorem Idle.reaches (h : d.Idle) (hreach : Reaches Dialogue.step d d') :
    d'.Idle ∧ d'.toOrigin = d.toOrigin := by
  induction hreach with
  | refl => exact ⟨h, rfl⟩
  | tail _ hstep ih =>
    obtain ⟨hidle, hsame⟩ := ih.1.step hstep
    exact ⟨hidle, hsame.trans ih.2⟩

end Dialogue

/-! ## Commands one behind the other -/

/-- A command, and the segments of the reply to it. -/
structure Request where
  cmd : Pop3CommandBuilder
  line : List Byte
  segs : List (List Byte)
  isLine : CommandLine cmd line
  short : line.length < rawBuffA
  answered : segs ≠ []
  segs_ne : [] ∉ segs

/-- The client sends its stream in these segments, and the origin answers each command. -/
def Session.pipeline (s : Session) (stream : List (List Byte)) (xs : List Request) (sends : List ℕ)
    (calls : ℕ → Io) : Session where
  world := s.world
  peers :=
    { client := stream
      origin := []
      replies := xs.map Request.segs
      sends := sends
      calls := calls }

/-- The client's stream is forwarded as it is, whatever `send` takes and the other calls give. -/
def Forwarded (a : Addr) (ofd : Int) (s : Session) (stream : List (List Byte)) (xs : List Request) :
    Prop :=
  ∀ sends calls, ∃ s', (s.pipeline stream xs sends calls).Rests a s' ∧
    sentOn ofd s'.world.output = sentOn ofd s.world.output ++ stream.flatten

/-- No segment goes beyond the end of a command. -/
def InOwnSegments : List Request → List (List Byte) → Prop
  | [], stream => stream = []
  | x :: xs, stream => ∃ parts rest, stream = parts ++ rest ∧ parts.flatten = x.line ∧
      InOwnSegments xs rest

/-- The code takes the chunk for the reply to the command. -/
def Pop3CommandBuilder.takes (cmd : Pop3CommandBuilder) (chunk : List Byte) : Prop :=
  hasStatusLine chunk = true ∧ (cmd.expectsBody = true → hasTerminator chunk = true)

/-- Whenever a reply is awaited, up to the last but one, the chunk that comes is taken for the whole
of it; what the code leaves of a reply comes in front of the next. -/
def TakenInTurn : List (List Byte) → List Request → Prop
  | _, [] => True
  | _, [_] => True
  | due, x :: y :: xs => ∃ seg segs, due ++ x.segs = seg :: segs ∧
      x.cmd.takes (seg.take rawBuffB) ∧ TakenInTurn (Peers.leave rawBuffB seg segs) (y :: xs)

section
variable {d d' : Dialogue} {x : Request} {xs : List Request} {p q : Peers}

/-- A command in segments of its own is forwarded, and answered. -/
theorem request_reaches (d : Dialogue) (x : Request) {parts rest segs : List (List Byte)}
    {seg : List Byte} {more : List (List (List Byte))} (hparts : [] ∉ parts)
    (hflat : parts.flatten = x.line) (hclient : p.client = parts ++ rest)
    (hreplies : p.replies = x.segs :: more) (hdue : p.origin ++ x.segs = seg :: segs) :
    ∃ q, q.client = rest ∧ q.origin = seg :: segs ∧ q.replies = more ∧
      (∃ k, ∀ n, q.calls n = p.calls (n + k)) ∧
      Reaches Dialogue.step { d with stage := .ready, peers := p }
        { d with stage := .status x.cmd, peers := q, toOrigin := d.toOrigin ++ x.line } := by
  obtain ⟨q, hlater, hreach⟩ :=
    Dialogue.command_reaches d x.isLine x.short hparts hflat p hclient
  have hqreplies : q.replies = x.segs :: more := hlater.replies.trans hreplies
  refine ⟨q.answer, hlater.client, ?_, ?_, hlater.calls, hreach⟩
  · show q.origin ++ q.replies.headD [] = _
    rw [hlater.origin, hqreplies]
    exact hdue
  · show q.replies.tail = _
    rw [hqreplies]
    rfl

/-- The chunk is taken for the reply: the next command is awaited. -/
theorem takes_reaches {cmd : Pop3CommandBuilder} {seg : List Byte} {segs : List (List Byte)}
    (hst : d.stage = .status cmd) (horigin : d.peers.origin = seg :: segs)
    (htakes : cmd.takes (seg.take rawBuffB)) :
    ∃ d' : Dialogue, Reaches Dialogue.step d d' ∧ d'.stage = .ready ∧ d'.toOrigin = d.toOrigin ∧
      d'.peers.client = d.peers.client ∧ d'.peers.origin = Peers.leave rawBuffB seg segs ∧
      d'.peers.replies = d.peers.replies ∧ ∃ k, ∀ n, d'.peers.calls n = d.peers.calls (n + k) := by
  obtain ⟨hline, hterm⟩ := htakes
  obtain ⟨p, hp⟩ : ∃ p, p = { d.peers.tick with origin := Peers.leave rawBuffB seg segs } :=
    ⟨_, rfl⟩
  have hstep : d.step = some (d.statusRead cmd (seg.take rawBuffB) p) := by
    rw [hp]
    simp only [Dialogue.step, hst, horigin]
  obtain ⟨rest, t', toFilter, hread⟩ : ∃ rest t' toFilter, d.statusRead cmd (seg.take rawBuffB) p =
      { d with stage := .relay true rest, transform := t', peers := p, toFilter := toFilter } := by
    unfold Dialogue.statusRead
    rw [if_pos hline]
    cases hbody : cmd.expectsBody with
    | true =>
      rw [if_pos rfl, hterm hbody]
      exact ⟨_, _, _, rfl⟩
    | false =>
      rw [if_neg (by simp)]
      exact ⟨_, _, _, rfl⟩
  rw [hread] at hstep
  obtain ⟨q, hlater, hreach⟩ := Dialogue.relay_reaches
    { d with transform := t', toFilter := toFilter } true p rest
  obtain ⟨k, hk⟩ := hlater.calls
  refine ⟨_, .head hstep hreach, rfl, rfl, ?_, ?_, ?_, k + 1, fun n => ?_⟩
  · rw [hlater.client, hp]
    rfl
  · rw [hlater.origin, hp]
  · rw [hlater.replies, hp]
    rfl
  · rw [hk n, hp]
    rfl

/-- It is not: nothing more is forwarded. -/
theorem idle_of_not_takes {cmd : Pop3CommandBuilder} {seg : List Byte} {segs : List (List Byte)}
    (hst : d.stage = .status cmd) (horigin : d.peers.origin = seg :: segs)
    (hnot : ¬ cmd.takes (seg.take rawBuffB))
    (hjunk : ∀ n, (d.peers.calls n).junk ≠ .finishedConsuming) :
    ∃ d', d.step = some d' ∧ d'.Idle ∧ d'.toOrigin = d.toOrigin := by
  have hjunk' (n : ℕ) : (d.peers.calls (n + 1)).junk ≠ .finishedConsuming := hjunk (n + 1)
  refine ⟨_, by simp only [Dialogue.step, hst, horigin]; rfl, ?_⟩
  unfold Dialogue.statusRead
  cases hline : hasStatusLine (seg.take rawBuffB) with
  | false =>
    rw [if_neg (by simp)]
    exact ⟨⟨Or.inl rfl, hjunk'⟩, rfl⟩
  | true =>
    rw [if_pos rfl]
    have hbody : cmd.expectsBody = true ∧ hasTerminator (seg.take rawBuffB) = false := by
      by_contra hno
      refine hnot ⟨hline, fun hbody => ?_⟩
      rw [← Bool.not_eq_false]
      exact fun hterm => hno ⟨hbody, hterm⟩
    rw [if_pos hbody.1, hbody.2]
    exact ⟨⟨Or.inr (Or.inr ⟨_, rfl⟩), hjunk'⟩, rfl⟩

theorem Request.due_ne (x : Request) (due : List (List Byte)) :
    ∃ seg segs, due ++ x.segs = seg :: segs :=
  List.exists_cons_of_ne_nil fun hnil => x.answered (List.append_eq_nil_iff.mp hnil).2

/-- **Forwarding**, where commands come in segments of their own and replies are taken. -/
theorem forwards_all {stream : List (List Byte)} (hown : InOwnSegments xs stream)
    (htaken : TakenInTurn p.origin xs) (hstream : [] ∉ stream) (hclient : p.client = stream)
    (hreplies : p.replies = xs.map Request.segs) (d : Dialogue) :
    ∃ d', Reaches Dialogue.step { d with stage := .ready, peers := p } d' ∧
      d'.toOrigin = d.toOrigin ++ stream.flatten ∧ d'.forwardable = 0 := by
  induction xs generalizing p stream d with
  | nil =>
    obtain rfl : stream = [] := hown
    refine ⟨_, .refl, (List.append_nil _).symm, ?_⟩
    show 0 + p.client.flatten.length = 0
    rw [hclient]
    rfl
  | cons x xs ih =>
    obtain ⟨parts, rest, rfl, hflat, hown⟩ := hown
    rw [List.mem_append, not_or] at hstream
    obtain ⟨seg, segs, hdue⟩ := x.due_ne p.origin
    obtain ⟨q, hqclient, hqorigin, hqreplies, -, hreach⟩ :=
      request_reaches d x hstream.1 hflat hclient hreplies hdue
    cases xs with
    | nil =>
      obtain rfl : rest = [] := hown
      refine ⟨_, hreach, ?_, ?_⟩
      · rw [List.append_nil, hflat]
      · show 0 + q.client.flatten.length = 0
        rw [hqclient]
        rfl
    | cons y ys =>
      obtain ⟨seg', segs', hdue', htakes, htaken⟩ := htaken
      obtain ⟨rfl, rfl⟩ := List.cons.inj (hdue.symm.trans hdue')
      obtain ⟨d₁, hreach₁, hst, hsent, hclient₁, horigin₁, hreplies₁, -⟩ := @takes_reaches
        { d with stage := .status x.cmd, peers := q, toOrigin := d.toOrigin ++ x.line } x.cmd
          seg segs
        rfl hqorigin htakes
      rw [← horigin₁] at htaken
      obtain ⟨d', hreach', hall, hnone⟩ := ih hown htaken hstream.2 (hclient₁.trans hqclient)
        (hreplies₁.trans hqreplies) d₁
      refine ⟨d', (hreach.trans hreach₁).trans ?_, ?_, hnone⟩
      · rw [← hst] at hreach'
        exact hreach'
      · rw [hall, hsent, List.flatten_append, hflat, List.append_assoc]

/-- A segment that goes beyond the end of a command: what is behind it is not forwarded. -/
theorem crossing_reaches (d : Dialogue) (x : Request) {parts rest : List (List Byte)}
    {pre extra : List Byte} (hparts : [] ∉ parts) (hflat : parts.flatten ++ pre = x.line)
    (hpre : pre ≠ []) (hextra : extra ≠ []) (hclient : p.client = parts ++ (pre ++ extra) :: rest) :
    ∃ d', Reaches Dialogue.step { d with stage := .ready, peers := p } d' ∧
      d'.toOrigin = d.toOrigin ∧ d'.forwardable < p.client.flatten.length := by
  obtain ⟨q, -, hq, hread⟩ := @Dialogue.reading_held x.line [] x.cmd d x.isLine x.short parts hparts
    pre hpre (by rw [List.nil_append, hflat]) p _ hclient
  rw [List.nil_append] at hread
  have hlen : parts.flatten.length + pre.length = x.line.length := by
    rw [← hflat, List.length_append]
  have hpos := List.length_pos_iff.mpr hextra
  have hshort := x.short
  obtain ⟨room, hroom⟩ : ∃ room, room = rawBuffA - parts.flatten.length := ⟨_, rfl⟩
  have htake : (pre ++ extra).take room = pre ++ extra.take (room - pre.length) := by
    rw [List.take_append, List.take_of_length_le (by omega)]
  have hmem := @Dialogue.step_reading { d with stage := .reading parts.flatten, peers := q }
    parts.flatten (x.isLine.begun hflat hpre) (pre ++ extra) rest rfl hq (by
      rw [← hroom, htake, Ne, List.append_eq_nil_iff]
      exact fun h => hpre h.1)
  rw [← hroom, htake, ← List.append_assoc, hflat, Stage.readOut_line x.isLine] at hmem
  refine ⟨_, hread.tail hmem, rfl, ?_⟩
  -- at least one octet behind the command was in the chunk
  have hdrop : ((pre ++ extra).drop room).length < extra.length := by
    rw [List.length_drop, List.length_append]
    omega
  show x.line.length + (Peers.leave room (pre ++ extra) rest).flatten.length < _
  rw [Peers.flatten_leave, hclient, ← hflat]
  simp only [List.flatten_append, List.flatten_cons, List.length_append] at hdrop ⊢
  omega

/-- The beginning of a stream is a number of its segments, or it ends within one. -/
theorem segments_split {stream : List (List Byte)} {line tail : List Byte}
    (h : stream.flatten = line ++ tail) :
    (∃ parts rest, stream = parts ++ rest ∧ parts.flatten = line) ∨
      ∃ parts pre extra rest, stream = parts ++ (pre ++ extra) :: rest ∧
        parts.flatten ++ pre = line ∧ pre ≠ [] ∧ extra ≠ [] := by
  induction stream generalizing line with
  | nil =>
    obtain ⟨rfl, -⟩ := List.append_eq_nil_iff.mp h.symm
    exact Or.inl ⟨[], [], rfl, rfl⟩
  | cons seg stream ih =>
    rw [List.flatten_cons] at h
    rcases List.append_eq_append_iff.mp h with ⟨line', rfl, h'⟩ | ⟨extra, rfl, -⟩
    · rcases ih h' with ⟨parts, rest, rfl, hflat⟩ | ⟨parts, pre, extra, rest, rfl, hflat, hpre⟩
      · exact Or.inl ⟨seg :: parts, rest, rfl, by rw [List.flatten_cons, hflat]⟩
      · refine Or.inr ⟨seg :: parts, pre, extra, rest, rfl, ?_, hpre⟩
        rw [List.flatten_cons, List.append_assoc, hflat]
    · by_cases hline : line = []
      · exact Or.inl ⟨[], _, rfl, hline.symm⟩
      · by_cases hextra : extra = []
        · exact Or.inl ⟨[line ++ extra], stream, rfl, by simp [hextra]⟩
        · exact Or.inr ⟨[], line, extra, stream, rfl, rfl, hline, hextra⟩

/-- **Forwarding fails** where a segment goes beyond a command, or a reply is not taken and
nothing on the stack stands in for its end. -/
theorem forwards_only {stream : List (List Byte)}
    (hflat : stream.flatten = (xs.map Request.line).flatten) (hstream : [] ∉ stream)
    (hclient : p.client = stream) (hreplies : p.replies = xs.map Request.segs)
    (hjunk : ∀ n, (p.calls n).junk ≠ .finishedConsuming) (d : Dialogue)
    (hreach : Reaches Dialogue.step { d with stage := .ready, peers := p } d')
    (hrest : d'.step = none) (hall : d'.toOrigin = d.toOrigin ++ stream.flatten) :
    InOwnSegments xs stream ∧ TakenInTurn p.origin xs := by
  induction xs generalizing p stream d with
  | nil =>
    exact ⟨segments_nil hstream hflat, trivial⟩
  | cons x xs ih =>
    rw [List.map_cons, List.flatten_cons] at hflat
    -- the segments stop where the command does, or one of them goes beyond
    rcases segments_split hflat with ⟨parts, rest, rfl, hparts⟩ |
      ⟨parts, pre, extra, rest, rfl, hparts, hpre, hextra⟩
    · rw [List.mem_append, not_or] at hstream
      rw [List.flatten_append, hparts, List.append_right_inj] at hflat
      obtain ⟨seg, segs, hdue⟩ := x.due_ne p.origin
      obtain ⟨q, hqclient, hqorigin, hqreplies, ⟨k, hk⟩, hgo⟩ :=
        request_reaches d x hstream.1 hparts hclient hreplies hdue
      cases xs with
      | nil => exact ⟨⟨parts, rest, rfl, hparts, segments_nil hstream.2 hflat⟩, trivial⟩
      | cons y ys =>
        by_cases htakes : x.cmd.takes (seg.take rawBuffB)
        · obtain ⟨d₁, hgo₁, hst, hsent, hclient₁, horigin₁, hreplies₁, k', hk'⟩ := @takes_reaches
            { d with stage := .status x.cmd, peers := q, toOrigin := d.toOrigin ++ x.line }
              x.cmd seg
            segs rfl hqorigin htakes
          have hon := reaches_on (hgo.trans hgo₁) hreach hrest
          have hready : { d₁ with stage := .ready, peers := d₁.peers } = d₁ := by rw [← hst]
          rw [List.flatten_append, hparts, ← List.append_assoc] at hall
          have hjunk₁ (n : ℕ) : (d₁.peers.calls n).junk ≠ .finishedConsuming := by
            rw [hk']
            show (q.calls _).junk ≠ _
            rw [hk]
            exact hjunk _
          obtain ⟨hown, htaken⟩ := ih hflat hstream.2 (hclient₁.trans hqclient)
            (hreplies₁.trans hqreplies) hjunk₁ d₁ (hready ▸ hon) (by rw [hall, hsent])
          rw [horigin₁] at htaken
          exact ⟨⟨parts, rest, rfl, hparts, hown⟩, seg, segs, hdue, htakes, htaken⟩
        -- the connection is idle before the last command is read
        · obtain ⟨d₁, hstep, hidle, hsent⟩ := @idle_of_not_takes
            { d with stage := .status x.cmd, peers := q, toOrigin := d.toOrigin ++ x.line }
              x.cmd seg
            segs rfl hqorigin htakes fun n => by
              show (q.calls n).junk ≠ _
              rw [hk]
              exact hjunk _
          have hon := reaches_on (hgo.tail hstep) hreach hrest
          have hsame := (hidle.reaches hon).2.trans hsent
          rw [hall, List.flatten_append, hparts, ← List.append_assoc] at hsame
          have hnil := List.append_right_eq_self.mp hsame
          rw [hnil, List.map_cons, List.flatten_cons] at hflat
          obtain ⟨text, -, hline⟩ := y.isLine
          rw [hline] at hflat
          simp [CRLF] at hflat
    -- too little is left to be forwarded
    · rw [List.mem_append, not_or] at hstream
      obtain ⟨d₁, hgo, hsame, hless⟩ := crossing_reaches d x hstream.1 hparts hpre hextra hclient
      obtain ⟨out, hout, hle⟩ := Dialogue.reaches_forwards (reaches_on hgo hreach hrest)
      rw [hall, hsame, List.append_right_inj] at hout
      rw [hclient, hout] at hless
      omega

end

/-- The dialogue of a session that forwards commands. -/
theorem AtCommand.pipeline {a : Addr} {cfd ofd : Int} {t : Bool} {s : Session}
    (h : AtCommand a cfd ofd t s) {stream : List (List Byte)} (hstream : [] ∉ stream)
    (xs : List Request) (sends : List ℕ) (calls : ℕ → Io) :
    ∃ d : Dialogue, Shows a cfd ofd (s.pipeline stream xs sends calls)
      { d with stage := .ready, peers := (s.pipeline stream xs sends calls).peers } ∧
      d.toOrigin = sentOn ofd s.world.output := by
  have hwf : (s.pipeline stream xs sends calls).peers.Wf := by
    refine ⟨hstream, List.not_mem_nil, ?_⟩
    show ∀ segs ∈ xs.map Request.segs, [] ∉ segs
    intro segs hsegs
    obtain ⟨x, -, rfl⟩ := List.mem_map.mp hsegs
    exact x.segs_ne
  let d : Dialogue := ⟨.ready, t, (s.pipeline stream xs sends calls).peers,
    sentOn ofd s.world.output, sentOn cfd s.world.output, piped s.world.output⟩
  exact ⟨d, Shows.start h.stage hwf, rfl⟩

/-- A stream is not forwarded as it is otherwise. -/
theorem Forwarded.inTurn {a : Addr} {cfd ofd : Int} {t : Bool} {s : Session} {xs : List Request}
    {stream : List (List Byte)} (hforwarded : Forwarded a ofd s stream xs)
    (h : AtCommand a cfd ofd t s) (hflat : stream.flatten = (xs.map Request.line).flatten)
    (hstream : [] ∉ stream) : InOwnSegments xs stream ∧ TakenInTurn [] xs := by
  -- nothing on the stack looks like the end of a reply
  obtain ⟨s', ⟨hpass, hrest⟩, hsent⟩ := hforwarded [] fun _ => { junk := .consuming }
  obtain ⟨d, hshows, horigin⟩ := h.pipeline hstream xs [] fun _ => { junk := .consuming }
  obtain ⟨d', hreach, hshows'⟩ := hshows.passes hpass
  rw [hshows'.toOrigin, ← horigin] at hsent
  have hjunk : ∀ _ : ℕ, ConsumerState.consuming ≠ .finishedConsuming := fun _ => by decide
  exact forwards_only hflat hstream rfl rfl hjunk d hreach (hshows'.rest_iff.mp hrest) hsent

/-- **The forwarding of commands**: the client's stream is forwarded as it is exactly when no
segment goes beyond the end of a command and every reply but the last is taken in its turn. -/
theorem commands_forwarded {a : Addr} {cfd ofd : Int} {t : Bool} {s : Session}
    (h : AtCommand a cfd ofd t s) (xs : List Request) {stream : List (List Byte)}
    (hflat : stream.flatten = (xs.map Request.line).flatten) (hstream : [] ∉ stream) :
    Forwarded a ofd s stream xs ↔ InOwnSegments xs stream ∧ TakenInTurn [] xs := by
  constructor
  · exact fun hforwarded => hforwarded.inTurn h hflat hstream
  · rintro ⟨hown, htaken⟩ sends calls
    obtain ⟨d, hshows, horigin⟩ := h.pipeline hstream xs sends calls
    obtain ⟨d', hreach, hall, hnone⟩ := @forwards_all xs (s.pipeline stream xs sends calls).peers
      stream hown htaken hstream rfl rfl d
    obtain ⟨s', d'', hrests, hreach', hrest, hshows'⟩ := hshows.rests
    obtain ⟨out, hout, hle⟩ := Dialogue.reaches_forwards (reaches_on hreach hreach' hrest)
    have hnil : out = [] := List.length_eq_zero_iff.mp (by omega)
    refine ⟨s', hrests, ?_⟩
    rw [hshows'.toOrigin, hout, hnil, List.append_nil, hall, horigin]

/-- `NOOP`, in two segments. -/
def noopRequest : Request where
  cmd := ⟨ascii "NOOP", false⟩
  line := ascii "NOOP" ++ CRLF
  segs := [ascii "+OK" ++ CRLF]
  isLine := ⟨ascii "NOOP", .plain (by unfold KeywordOctets; decide +kernel) (by decide), rfl⟩
  short := by decide
  answered := by decide
  segs_ne := by decide

/-- Two commands in three segments. -/
theorem commands_forwarded_apart :
    Forwarded 0 5 ⟨greetedWorld, [], [], [], [], fun _ => {}⟩
      [ascii "NO", ascii "OP" ++ CRLF, ascii "NOOP" ++ CRLF] [noopRequest, noopRequest] := by
  refine (commands_forwarded greeted_atCommand [noopRequest, noopRequest] (by decide)
    (by decide)).mpr
      ⟨⟨[ascii "NO", ascii "OP" ++ CRLF], [ascii "NOOP" ++ CRLF], by decide, by decide,
      [ascii "NOOP" ++ CRLF], [], by decide, by decide, rfl⟩, ?_⟩
  exact ⟨ascii "+OK" ++ CRLF, [], by decide,
    ⟨by decide +kernel, fun hbody => absurd hbody (by decide)⟩,
    trivial⟩

/-- In one segment the second is lost. -/
theorem command_lost : ¬ ∀ (a : Addr) (cfd ofd : Int) (t : Bool) (s : Session),
    AtCommand a cfd ofd t s → ∀ (xs : List Request) (stream : List (List Byte)),
      stream.flatten = (xs.map Request.line).flatten → [] ∉ stream →
      Forwarded a ofd s stream xs := by
  intro h
  have hforwarded := h 0 4 5 false _ greeted_atCommand [noopRequest, noopRequest]
    [ascii "NOOP" ++ CRLF ++ (ascii "NOOP" ++ CRLF)] (by decide) (by decide)
  obtain ⟨⟨parts, rest, heq, hflat, -⟩, -⟩ :=
    hforwarded.inTurn greeted_atCommand (by decide) (by decide)
  cases parts with
  | nil => exact absurd hflat (by decide)
  | cons seg parts =>
    obtain ⟨rfl, hnil⟩ := List.cons.inj heq
    obtain ⟨rfl, -⟩ := List.append_eq_nil_iff.mp hnil.symm
    exact absurd hflat (by decide)

end Pop3Proxy
