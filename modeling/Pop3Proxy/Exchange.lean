/-
# One exchange of a dialogue

How far a dialogue gets without the peers: a command is read segment by segment and
forwarded, and what is to be sent goes out however little `send` takes.  What is left of
the streams is said; how many calls it took is not.
-/
import Pop3Proxy.CommandLines
import Pop3Proxy.Simulation

namespace Pop3Proxy

open StateTransition

/-- Handlers have run meanwhile, and `send` may have taken something. -/
structure Peers.Later (p p' : Peers) : Prop where
  client : p'.client = p.client
  origin : p'.origin = p.origin
  replies : p'.replies = p.replies
  calls : ∃ k, ∀ n, p'.calls n = p.calls (n + k)

/-- The octets that are still to be received. -/
def Peers.due (p : Peers) : ℕ :=
  p.client.flatten.length + p.origin.flatten.length + p.replies.flatten.flatten.length

namespace Peers

variable {p p' p'' : Peers}

theorem Later.refl (p : Peers) : p.Later p := ⟨rfl, rfl, rfl, 0, fun _ => rfl⟩

theorem Later.trans (h : p.Later p') (h' : p'.Later p'') : p.Later p'' := by
  obtain ⟨k, hk⟩ := h.calls
  obtain ⟨k', hk'⟩ := h'.calls
  refine ⟨h'.client.trans h.client, h'.origin.trans h.origin, h'.replies.trans h.replies,
    k' + k, fun n => ?_⟩
  rw [hk', hk, Nat.add_assoc]

theorem later_sent (p : Peers) : p.Later p.sent := ⟨rfl, rfl, rfl, 1, fun _ => rfl⟩

/-- Nothing is left of a segment that fits. -/
theorem leave_fits {room : ℕ} {seg : List Byte} (h : seg.length ≤ room)
    (segs : List (List Byte)) : leave room seg segs = segs := by
  rw [leave, if_pos (List.drop_of_length_le h)]

theorem due_answer (p : Peers) : p.answer.due = p.due := by
  unfold due answer
  cases p.replies with
  | nil => simp
  | cons r rs => simp [Nat.add_assoc]

theorem Later.due (h : p.Later p') : p'.due = p.due := by
  rw [Peers.due, h.client, h.origin, h.replies]
  rfl

theorem Later.wf (h : p.Later p') (hp : p.Wf) : p'.Wf :=
  ⟨h.client ▸ hp.client, h.origin ▸ hp.origin, h.replies ▸ hp.replies⟩

theorem flatten_leave (room : ℕ) (seg : List Byte) (segs : List (List Byte)) :
    (leave room seg segs).flatten = seg.drop room ++ segs.flatten := by
  unfold leave
  split_ifs with hdrop
  · rw [hdrop, List.nil_append]
  · rw [List.flatten_cons]

/-- Something is taken of a segment. -/
theorem leave_less {room : ℕ} (hroom : 0 < room) {seg : List Byte} {segs : List (List Byte)}
    (h : [] ∉ seg :: segs) :
    (leave room seg segs).flatten.length < (seg :: segs).flatten.length := by
  rw [List.mem_cons, not_or] at h
  have hpos := List.length_pos_iff.mpr (Ne.symm h.1)
  unfold leave
  split_ifs
  · rw [List.flatten_cons, List.length_append]
    omega
  · simp only [List.flatten_cons, List.length_append, List.length_drop]
    omega

/-- A segment of the origin's stream is taken up. -/
theorem Wf.origin_taken {p : Peers} (h : p.Wf) {room : ℕ} (hroom : 0 < room) {seg : List Byte}
    {segs : List (List Byte)} (hp : p.origin = seg :: segs) :
    due { p.tick with origin := leave room seg segs } < p.due ∧
      Wf { p.tick with origin := leave room seg segs } := by
  have hsegs := h.origin
  rw [hp] at hsegs
  have hless := leave_less hroom hsegs
  refine ⟨?_, h.client, not_mem_leave fun hmem => hsegs (List.mem_cons_of_mem _ hmem), h.replies⟩
  unfold due
  rw [hp]
  show p.client.flatten.length + (leave room seg segs).flatten.length +
    p.replies.flatten.flatten.length < _
  omega

/-- A segment of the client's stream is taken up. -/
theorem Wf.client_taken {p : Peers} (h : p.Wf) {room : ℕ} (hroom : 0 < room) {seg : List Byte}
    {segs : List (List Byte)} (hp : p.client = seg :: segs) :
    due { p.tick with client := leave room seg segs } < p.due := by
  have hsegs := h.client
  rw [hp] at hsegs
  have hless := leave_less hroom hsegs
  unfold due
  rw [hp]
  show (leave room seg segs).flatten.length + p.origin.flatten.length +
    p.replies.flatten.flatten.length < _
  omega

end Peers

/-- Segments without octets are none. -/
theorem segments_nil {segs : List (List Byte)} (h : [] ∉ segs) (hflat : segs.flatten = []) :
    segs = [] := by
  refine List.eq_nil_iff_forall_not_mem.mpr fun seg hseg => ?_
  exact h ((List.flatten_eq_nil_iff.mp hflat seg hseg) ▸ hseg)

/-- What comes to rest goes by every point on the way. -/
theorem reaches_on {σ : Type*} {f : σ → Option σ} {x y z : σ} (hy : Reaches f x y)
    (hz : Reaches f x z) (hrest : f z = none) : Reaches f y z := by
  have hmem := mem_eval.mpr ⟨hz, hrest⟩
  rw [reaches_eval hy] at hmem
  exact (mem_eval.mp hmem).1

namespace Dialogue

/-! ## Sending -/

/-- **Everything is sent**, however little `send` takes at a time.  The stages `sending`
differ in what is still to be sent, and `done` is the one behind them. -/
theorem reaches_done {sending : Peers → List Byte → List Byte → Dialogue}
    {done : Peers → List Byte → Dialogue}
    (hstep : ∀ p rest out, (sending p rest out).step = some
      (if rest.drop p.quota = [] then done p.sent (out ++ rest.take p.quota)
        else sending p.sent (rest.drop p.quota) (out ++ rest.take p.quota)))
    (p : Peers) (rest out : List Byte) :
    ∃ q, p.Later q ∧ Reaches Dialogue.step (sending p rest out) (done q (out ++ rest)) := by
  -- either an entry of `sends` is used up, or something is sent
  induction hn : p.sends.length + rest.length using Nat.strong_induction_on
    generalizing p rest out with
  | _ n ih =>
    subst hn
    have hmem := hstep p rest out
    by_cases hdone : rest.drop p.quota = []
    · rw [if_pos hdone] at hmem
      have hall : rest.take p.quota = rest := List.take_of_length_le (List.drop_eq_nil_iff.mp hdone)
      rw [hall] at hmem
      exact ⟨p.sent, p.later_sent, .single hmem⟩
    · rw [if_neg hdone] at hmem
      have hless : p.sent.sends.length + (rest.drop p.quota).length <
          p.sends.length + rest.length := by
        have hpos : 0 < rest.length := by
          rw [List.length_pos_iff]
          rintro rfl
          exact hdone List.drop_nil
        rw [List.length_drop]
        show p.sends.tail.length + _ < _
        cases hsends : p.sends with
        | nil =>
          have hquota : p.quota = rawBuffTrans := by rw [Peers.quota, hsends]; rfl
          rw [hquota, rawBuffTrans]
          simp only [List.tail_nil, List.length_nil]
          omega
        | cons m ms =>
          simp only [List.tail_cons, List.length_cons]
          omega
      obtain ⟨q, hlater, hreach⟩ := ih _ hless p.sent (rest.drop p.quota)
        (out ++ rest.take p.quota) rfl
      rw [List.append_assoc, List.take_append_drop] at hreach
      exact ⟨q, p.later_sent.trans hlater, .head hmem hreach⟩

variable {d : Dialogue}

/-- The welcome is sent. -/
theorem welcome_reaches (d : Dialogue) (p : Peers) (rest : List Byte) :
    ∃ q, p.Later q ∧ Reaches Dialogue.step { d with stage := .welcome rest, peers := p }
      { d with stage := .ready, peers := q, toClient := d.toClient ++ rest } := by
  refine @reaches_done
    (fun p rest out => { d with stage := .welcome rest, peers := p, toClient := out })
    (fun p out => { d with stage := .ready, peers := p, toClient := out })
    (fun p rest out => ?_) p rest d.toClient
  simp only [step]
  split_ifs <;> rfl

/-- A command is forwarded, and answered. -/
theorem forward_reaches (d : Dialogue) (cmd : Pop3CommandBuilder) (p : Peers) (rest : List Byte) :
    ∃ q, p.Later q ∧ Reaches Dialogue.step { d with stage := .forward cmd rest, peers := p }
      { d with stage := .status cmd, peers := q.answer, toOrigin := d.toOrigin ++ rest } := by
  refine @reaches_done
    (fun p rest out => { d with stage := .forward cmd rest, peers := p, toOrigin := out })
    (fun p out => { d with stage := .status cmd, peers := p.answer, toOrigin := out })
    (fun p rest out => ?_) p rest d.toOrigin
  simp only [step]
  split_ifs <;> rfl

/-- A chunk is relayed. -/
theorem relay_reaches (d : Dialogue) (last : Bool) (p : Peers) (rest : List Byte) :
    ∃ q, p.Later q ∧ Reaches Dialogue.step { d with stage := .relay last rest, peers := p }
      { d with
        stage := if last then .ready else .body
        peers := q
        toClient := d.toClient ++ rest } := by
  refine @reaches_done
    (fun p rest out => { d with stage := .relay last rest, peers := p, toClient := out })
    (fun p out => { d with stage := if last then .ready else .body, peers := p, toClient := out })
    (fun p rest out => ?_) p rest d.toClient
  simp only [step]
  split_ifs <;> rfl

/-! ## Reading a command -/

end Dialogue

namespace Stage

/-- The octets `bs` of a command have come, and none behind its end. -/
def reading (bs : List Byte) : Stage :=
  .command (commandBuilder bs .kwrd .clear).state.1 (commandBuilder bs .kwrd .clear).state.2 bs

/-- The stage behind the octets `bs`: what follows a whole command is dropped. -/
def readOut (bs : List Byte) : Stage :=
  match builderResult (commandBuilder bs .kwrd .clear) with
  | .buildFinished =>
    .forward (commandBuilder bs .kwrd .clear).state.2
      (bs.take (commandBuilder bs .kwrd .clear).read)
  | .building => reading bs
  | .buildFailed => .closed

/-- A command that has come is to be forwarded. -/
theorem readOut_line {cmd : Pop3CommandBuilder} {line : List Byte} (h : CommandLine cmd line)
    (rest : List Byte) : readOut (line ++ rest) = .forward cmd line := by
  rw [readOut, h.scan]
  simp [builderResult]

/-- One that has come in part is waited for. -/
theorem readOut_begun {cmd : Pop3CommandBuilder} {line held rest : List Byte}
    (h : CommandLine cmd line) (hsplit : held ++ rest = line) (hne : rest ≠ []) :
    readOut held = reading held := by
  rw [readOut, builderResult, h.begun hsplit hne]
  rfl

end Stage

namespace Dialogue

variable {d : Dialogue} {line held : List Byte} {cmd : Pop3CommandBuilder}

/-- The loop stops with a line or a failure only. -/
theorem commandBuilder_verdict (s : CommandState × Pop3CommandBuilder) (bs : List Byte) :
    (Scan.scan commandBuilderStep s bs).verdict ≠ some .building := by
  intro h
  obtain ⟨s', c, -, hstep⟩ := Scan.scan_verdict commandBuilderStep (P := fun _ => True)
    (fun _ _ _ => trivial) trivial h
  have hne : (commandBuilderStep s' c).2 ≠ some .building := by
    unfold commandBuilderStep
    split
    · split
      · split <;> simp
      all_goals simp
    · simp
  rw [hstep] at hne
  exact hne rfl

/-- A chunk joins the octets held. -/
theorem commandStage_eq (hheld : (commandBuilder held .kwrd .clear).verdict = none)
    (chunk : List Byte) :
    commandStage (commandBuilder held .kwrd .clear).state.1
      (commandBuilder held .kwrd .clear).state.2 held chunk = .readOut (held ++ chunk) := by
  have happ : commandBuilder (held ++ chunk) .kwrd .clear = _ :=
    Scan.scan_append_of_none commandBuilderStep chunk hheld
  unfold commandStage Stage.readOut Stage.reading
  rw [happ]
  unfold commandBuilder builderResult
  simp only [Prod.mk.eta]
  cases hv : (Scan.scan commandBuilderStep
      (Scan.scan commandBuilderStep (.kwrd, .clear) held).state chunk).verdict with
  | none =>
    simp only [Option.getD_none, Scan.scan_read_of_none commandBuilderStep hv, List.take_length]
  | some r =>
    cases r with
    | building => exact absurd hv (commandBuilder_verdict _ chunk)
    | buildFinished => simp only [Option.getD_some, List.take_length_add_append]
    | buildFailed => rfl

/-- A segment of a command. -/
theorem step_reading (hheld : (commandBuilder held .kwrd .clear).verdict = none)
    {seg : List Byte} {segs : List (List Byte)} (hst : d.stage = .reading held)
    (hclient : d.peers.client = seg :: segs) (hne : seg.take (rawBuffA - held.length) ≠ []) :
    d.step = some { d with
      stage := .readOut (held ++ seg.take (rawBuffA - held.length))
      peers := { d.peers.tick with client := Peers.leave (rawBuffA - held.length) seg segs } } := by
  unfold Stage.reading at hst
  simp only [step, hst, hclient, if_neg hne, commandStage_eq hheld]

/-- Segments that do not reach the end of a command are held. -/
theorem reading_held (d : Dialogue) (hline : CommandLine cmd line) (hshort : line.length < rawBuffA)
    {parts : List (List Byte)} (hparts : [] ∉ parts) {rest : List Byte} (hne : rest ≠ [])
    (hsplit : held ++ parts.flatten ++ rest = line) (p : Peers) {segs : List (List Byte)}
    (hclient : p.client = parts ++ segs) :
    ∃ q, Peers.Later { p with client := segs } q ∧ q.client = segs ∧
      Reaches Dialogue.step { d with stage := .reading held, peers := p }
        { d with stage := .reading (held ++ parts.flatten), peers := q } := by
  induction parts generalizing held p with
  | nil =>
    rw [List.flatten_nil, List.append_nil]
    rw [List.nil_append] at hclient
    refine ⟨p, ⟨hclient, rfl, rfl, 0, fun _ => rfl⟩, hclient, .refl⟩
  | cons seg parts ih =>
    rw [List.mem_cons, not_or] at hparts
    obtain ⟨hseg, hparts⟩ := hparts
    rw [List.flatten_cons, ← List.append_assoc] at hsplit ⊢
    have hrest : seg ++ (parts.flatten ++ rest) ≠ [] := by
      rw [Ne, List.append_eq_nil_iff]
      exact fun h => hseg h.1.symm
    have hmore : parts.flatten ++ rest ≠ [] := by
      rw [Ne, List.append_eq_nil_iff]
      exact fun h => hne h.2
    have hlen : held.length + seg.length + (parts.flatten ++ rest).length = line.length := by
      rw [← hsplit]
      simp only [List.length_append]
      omega
    have htake : seg.take (rawBuffA - held.length) = seg := List.take_of_length_le (by omega)
    have hmem := @step_reading { d with stage := .reading held, peers := p } held
      (hline.begun (by rw [← hsplit]; simp only [List.append_assoc]) hrest) seg (parts ++ segs) rfl
      hclient (by rw [htake]; exact Ne.symm hseg)
    rw [htake, Peers.leave_fits (by omega), Stage.readOut_begun hline
      (by rw [← hsplit]; simp only [List.append_assoc]) hmore] at hmem
    have hread : Peers.Later { p with client := segs } { p.tick with client := segs } :=
      ⟨rfl, rfl, rfl, 1, fun _ => rfl⟩
    obtain ⟨q, hlater, hq, hreach⟩ := ih hparts hsplit { p.tick with client := parts ++ segs } rfl
    exact ⟨q, hread.trans hlater, hq, .head hmem hreach⟩

/-- **A command is forwarded** as it came, when it came in segments of its own. -/
theorem command_reaches (d : Dialogue) (hline : CommandLine cmd line)
    (hshort : line.length < rawBuffA) {parts : List (List Byte)} (hparts : [] ∉ parts)
    (hflat : parts.flatten = line) (p : Peers) {segs : List (List Byte)}
    (hclient : p.client = parts ++ segs) :
    ∃ q, Peers.Later { p with client := segs } q ∧
      Reaches Dialogue.step { d with stage := .ready, peers := p }
        { d with stage := .status cmd, peers := q.answer, toOrigin := d.toOrigin ++ line } := by
  obtain rfl | ⟨parts, seg, rfl⟩ := List.eq_nil_or_concat' parts
  · obtain ⟨text, -, rfl⟩ := hline
    simp [CRLF] at hflat
  -- up to the last segment, and then that one
  · rw [List.mem_append, List.mem_singleton, not_or] at hparts
    rw [List.flatten_append, List.flatten_cons, List.flatten_nil, List.append_nil] at hflat
    rw [List.append_assoc, List.singleton_append] at hclient
    obtain ⟨q, hlater, hq, hread⟩ := @reading_held line [] cmd d hline hshort parts hparts.1 seg
      (Ne.symm hparts.2) (by rw [List.nil_append, hflat]) p (seg :: segs) hclient
    rw [List.nil_append] at hread
    have hlen : parts.flatten.length + seg.length = line.length := by
      rw [← hflat, List.length_append]
    have htake : seg.take (rawBuffA - parts.flatten.length) = seg :=
      List.take_of_length_le (by omega)
    have hmem := @step_reading { d with stage := .reading parts.flatten, peers := q } parts.flatten
      (hline.begun hflat (Ne.symm hparts.2)) seg segs rfl hq (by rw [htake]; exact Ne.symm hparts.2)
    have hout := Stage.readOut_line hline []
    rw [List.append_nil] at hout
    rw [htake, Peers.leave_fits (by omega), hflat, hout] at hmem
    obtain ⟨q', hlater', hsent⟩ := forward_reaches d cmd { q.tick with client := segs } line
    refine ⟨q', Peers.Later.trans ?_ hlater', (hread.tail hmem).trans hsent⟩
    obtain ⟨k, hk⟩ := hlater.calls
    exact ⟨rfl, hlater.origin, hlater.replies, k + 1, fun n => (hk (n + 1)).trans (by
      rw [Nat.add_right_comm, Nat.add_assoc])⟩

end Dialogue

/-! ## Every dialogue comes to rest -/

/-- Something is to be sent in the stage. -/
def Stage.Sends : Stage → Prop
  | .welcome _ | .forward _ _ | .relay _ _ => True
  | .greeting | .command _ _ _ | .status _ | .body | .closed => False

namespace Dialogue

variable {d d' : Dialogue}

theorem sends_reaches (h : d.stage.Sends) (hwf : d.peers.Wf) :
    ∃ d', Reaches Dialogue.step d d' ∧ ¬ d'.stage.Sends ∧ d'.peers.due = d.peers.due ∧
      d'.peers.Wf := by
  obtain ⟨st, t, p, toOrigin, toClient, toFilter⟩ := d
  cases st with
  | greeting | command _ _ _ | status _ | body | closed => exact h.elim
  | welcome rest =>
    obtain ⟨q, hlater, hreach⟩ :=
      welcome_reaches ⟨.welcome rest, t, p, toOrigin, toClient, toFilter⟩ p rest
    exact ⟨_, hreach, id, hlater.due, hlater.wf hwf⟩
  | forward cmd rest =>
    obtain ⟨q, hlater, hreach⟩ :=
      forward_reaches ⟨.forward cmd rest, t, p, toOrigin, toClient, toFilter⟩ cmd p rest
    exact ⟨_, hreach, id, q.due_answer.trans hlater.due, (hlater.wf hwf).answer⟩
  | relay last rest =>
    obtain ⟨q, hlater, hreach⟩ :=
      relay_reaches ⟨.relay last rest, t, p, toOrigin, toClient, toFilter⟩ last p rest
    refine ⟨_, hreach, ?_, hlater.due, hlater.wf hwf⟩
    cases last <;> exact id

/-- What one step can be: something is received from one of the peers, or sent to one. -/
inductive Moves (d : Dialogue) : Dialogue → Prop
  | greeting {seg segs} (hst : d.stage = .greeting) (hp : d.peers.origin = seg :: segs) : Moves d
      { d with
        stage := if hasStatusLine (seg.take rawBuffA) then .welcome greetingOk else .closed
        peers := { d.peers.tick with origin := Peers.leave rawBuffA seg segs } }
  | welcome {rest} (hst : d.stage = .welcome rest) : Moves d
      { d with
        stage := if rest.drop d.peers.quota = [] then .ready else .welcome (rest.drop d.peers.quota)
        peers := d.peers.sent
        toClient := d.toClient ++ rest.take d.peers.quota }
  | command {p cmd bs seg segs} (hst : d.stage = .command p cmd bs)
    (hp : d.peers.client = seg :: segs) : Moves d
      { d with
        stage := if seg.take (rawBuffA - bs.length) = [] then .closed
          else commandStage p cmd bs (seg.take (rawBuffA - bs.length))
        peers := { d.peers.tick with client := Peers.leave (rawBuffA - bs.length) seg segs } }
  | forward {cmd rest} (hst : d.stage = .forward cmd rest) : Moves d
      { d with
        stage := if rest.drop d.peers.quota = [] then .status cmd
          else .forward cmd (rest.drop d.peers.quota)
        peers := if rest.drop d.peers.quota = [] then d.peers.sent.answer else d.peers.sent
        toOrigin := d.toOrigin ++ rest.take d.peers.quota }
  | status {cmd seg segs} (hst : d.stage = .status cmd) (hp : d.peers.origin = seg :: segs) :
    Moves d
      (d.statusRead cmd (seg.take rawBuffB)
        { d.peers.tick with origin := Peers.leave rawBuffB seg segs })
  | relay {last rest} (hst : d.stage = .relay last rest) : Moves d
      { d with
        stage := if rest.drop d.peers.quota = [] then (if last then .ready else .body)
          else .relay last (rest.drop d.peers.quota)
        peers := d.peers.sent
        toClient := d.toClient ++ rest.take d.peers.quota }
  | body {seg segs} (hst : d.stage = .body) (hp : d.peers.origin = seg :: segs) : Moves d
      (d.bodyRead (seg.take rawBuffB)
        { d.peers.tick with origin := Peers.leave rawBuffB seg segs })

theorem moves (hstep : d.step = some d') : d.Moves d' := by
  cases hst : d.stage with
  | closed => simp [step, hst] at hstep
  | welcome _ | forward _ _ | relay _ _ =>
    simp only [step, hst, Option.some.injEq] at hstep
    subst hstep
    first | exact .welcome hst | exact .forward hst | exact .relay hst
  | command _ _ _ =>
    cases hp : d.peers.client with
    | nil => simp [step, hst, hp] at hstep
    | cons seg segs =>
      simp only [step, hst, hp, Option.some.injEq] at hstep
      exact hstep ▸ .command hst hp
  | greeting | status _ | body =>
    cases hp : d.peers.origin with
    | nil => simp [step, hst, hp] at hstep
    | cons seg segs =>
      simp only [step, hst, hp, Option.some.injEq] at hstep
      subst hstep
      first | exact .greeting hst hp | exact .status hst hp | exact .body hst hp

/-- A segment is taken up, or the connection is closed. -/
theorem step_receives (h : ¬ d.stage.Sends) (hwf : d.peers.Wf) (hstep : d.step = some d') :
    d'.stage = .closed ∨ d'.peers.due < d.peers.due ∧ d'.peers.Wf := by
  cases moves hstep with
  | welcome hst | forward hst | relay hst =>
    rw [hst] at h
    exact absurd trivial h
  | greeting hst hp | body hst hp => exact Or.inr (hwf.origin_taken (by decide) hp)
  | status hst hp =>
    unfold statusRead
    split_ifs <;> exact Or.inr (hwf.origin_taken (by decide) hp)
  | @command p cmd bs seg segs hst hp =>
    by_cases hnil : seg.take (rawBuffA - bs.length) = []
    · exact Or.inl (if_pos hnil)
    · have hroom : 0 < rawBuffA - bs.length := by
        by_contra hfull
        rw [Nat.eq_zero_of_not_pos hfull, List.take_zero] at hnil
        exact hnil rfl
      have hsegs := hwf.client
      rw [hp] at hsegs
      exact Or.inr ⟨hwf.client_taken hroom hp,
        Peers.Wf.not_mem_leave fun hmem => hsegs (List.mem_cons_of_mem _ hmem), hwf.origin,
        hwf.replies⟩

/-- **Every dialogue comes to rest.** -/
theorem rests (d : Dialogue) (hwf : d.peers.Wf) :
    ∃ d', Reaches Dialogue.step d d' ∧ d'.step = none := by
  induction hn : d.peers.due using Nat.strong_induction_on generalizing d with
  | _ n ih =>
    subst hn
    -- what is to be sent is sent first
    obtain ⟨d₁, hreach, hreceives, hdue, hwf₁⟩ : ∃ d₁, Reaches Dialogue.step d d₁ ∧
        ¬ d₁.stage.Sends ∧ d₁.peers.due = d.peers.due ∧ d₁.peers.Wf := by
      by_cases hsends : d.stage.Sends
      · exact sends_reaches hsends hwf
      · exact ⟨d, .refl, hsends, rfl, hwf⟩
    cases hstep : d₁.step with
    | none => exact ⟨d₁, hreach, hstep⟩
    | some d₂ =>
      rcases step_receives hreceives hwf₁ hstep with hclosed | ⟨hless, hwf₂⟩
      · exact ⟨d₂, hreach.tail hstep, by simp only [step, hclosed]⟩
      · rw [hdue] at hless
        obtain ⟨d₃, hreach₃, hrest⟩ := ih _ hless d₂ hwf₂ rfl
        exact ⟨d₃, (hreach.tail hstep).trans hreach₃, hrest⟩

end Dialogue

/-! ## Sessions and their dialogues -/

namespace Session

variable {a : Addr} {s s' s'' : Session}

/-- The session comes by the point `s'`. -/
def Passes (a : Addr) (s s' : Session) : Prop := Reaches (step a) (.ok s) (.ok s')

/-- The session comes to rest at the point `s'`. -/
def Rests (a : Addr) (s s' : Session) : Prop := s.Passes a s' ∧ step a (.ok s') = none

/-- A session comes to rest at one point only. -/
theorem Rests.unique (h : s.Rests a s') (h' : s.Rests a s'') : s' = s'' := by
  have heq := Part.mem_unique (mem_eval.mpr h) (mem_eval.mpr h')
  exact Except.ok.inj heq

end Session

namespace Shows

variable {a : Addr} {cfd ofd : Int} {s s' : Session} {d d' : Dialogue}

theorem passes (h : Shows a cfd ofd s d) (hp : s.Passes a s') :
    ∃ d', Reaches Dialogue.step d d' ∧ Shows a cfd ofd s' d' := by
  obtain ⟨d', ⟨s₁, hs, hshows⟩, hreach⟩ := tr_reaches (session_respects a cfd ofd) ⟨s, rfl, h⟩ hp
  obtain rfl := Except.ok.inj hs
  exact ⟨d', hreach, hshows⟩

theorem passes_of (h : Shows a cfd ofd s d) (hreach : Reaches Dialogue.step d d') :
    ∃ s', s.Passes a s' ∧ Shows a cfd ofd s' d' := by
  induction hreach with
  | refl => exact ⟨s, .refl, h⟩
  | @tail d₁ d₂ _ hstep ih =>
    obtain ⟨s₁, hp, h₁⟩ := ih
    have hf := follows h₁
    rw [Follows, Option.mem_def.mp hstep] at hf
    cases hs : Session.step a (.ok s₁) with
    | none =>
      rw [hs] at hf
      exact hf.elim
    | some r =>
      rw [hs] at hf
      obtain ⟨s₂, rfl, h₂⟩ := hf
      exact ⟨s₂, hp.tail hs, h₂⟩

/-- A session waits when its dialogue does. -/
theorem rest_iff (h : Shows a cfd ofd s d) : Session.step a (.ok s) = none ↔ d.step = none := by
  have hf := follows h
  unfold Follows at hf
  cases hs : Session.step a (.ok s) with
  | none =>
    rw [hs] at hf
    cases hd : d.step with
    | none => exact iff_of_true rfl rfl
    | some d' =>
      rw [hd] at hf
      exact hf.elim
  | some r =>
    rw [hs] at hf
    cases hd : d.step with
    | none =>
      rw [hd] at hf
      exact hf.elim
    | some d' => exact iff_of_false nofun nofun

/-- **Every session comes to rest**, with its dialogue. -/
theorem rests (h : Shows a cfd ofd s d) :
    ∃ s' d', s.Rests a s' ∧ Reaches Dialogue.step d d' ∧ d'.step = none ∧
      Shows a cfd ofd s' d' := by
  obtain ⟨d', hreach, hrest⟩ := d.rests h.wf
  obtain ⟨s', hp, h'⟩ := h.passes_of hreach
  exact ⟨s', d', ⟨hp, h'.rest_iff.mpr hrest⟩, hreach, hrest, h'⟩

/-- A connection in a stage, whatever its peers do next. -/
theorem start {w : World} {t : Bool} {st : Stage} (h : InStage a cfd ofd w t st) {p : Peers}
    (hwf : p.Wf) : Shows a cfd ofd ⟨w, p⟩
      ⟨st, t, p, sentOn ofd w.output, sentOn cfd w.output, piped w.output⟩ :=
  ⟨rfl, hwf, h, rfl, rfl, rfl⟩

end Shows

end Pop3Proxy
