/-
# Sessions follow the dialogue

Every event of a session whose connection is linked to its origin is one step of
the dialogue (`session_respects`), so a session ends where its dialogue ends and
has sent what the dialogue has sent.
-/
import Pop3Proxy.Stages
import Mathlib.Computability.StateTransition

namespace Pop3Proxy

/-! ## The simulation -/

/-- No segment is empty: an empty one is the end of a stream. -/
structure Peers.Wf (p : Peers) : Prop where
  client : [] ∉ p.client
  origin : [] ∉ p.origin
  replies : ∀ segs ∈ p.replies, [] ∉ segs

/-- The struct of a connection in the stage `st`. -/
structure Carries (cfd ofd : Int) (t : Bool) (st : Stage) (c : Pop3) : Prop where
  clientFd : c.clientFd = cfd
  originFd : c.originFd = ofd
  readLimit : c.readBuffer.limit = rawBuffA
  transform : c.transform = t
  holds : st.Holds c

/-- The connection `a` is in the stage, or it is gone. -/
inductive InStage (a : Addr) (cfd ofd : Int) (w : World) (t : Bool) : Stage → Prop where
  | opened {st l} (hl : Linked a st.state l w) (hc : Carries cfd ofd t st (w.heap a)) :
    InStage a cfd ofd w t st
  | closed (h : ∀ fd it, w.sel.item fd = some it → ¬ Owns a it)
    (hcur : (w.heap a).current = some States.error.num) : InStage a cfd ofd w t .closed

/-- A connection that is open has its descriptors wired for its stage. -/
theorem InStage.link {a : Addr} {cfd ofd : Int} {w : World} {t : Bool} {st : Stage}
    (h : InStage a cfd ofd w t st) (hne : st ≠ .closed) :
    ∃ l, Linked a st.state l w ∧ Carries cfd ofd t st (w.heap a) := by
  cases h with
  | opened hl hc => exact ⟨_, hl, hc⟩
  | closed _ _ => exact absurd rfl hne

/-- The stage tells the state of the stm. -/
theorem InStage.current {a : Addr} {cfd ofd : Int} {w : World} {t : Bool} {st : Stage}
    (h : InStage a cfd ofd w t st) : (w.heap a).current = some st.state.num := by
  cases h with
  | opened hl _ => exact hl.current
  | closed _ hcur => exact hcur

/-- The session of the connection `a`, with its two descriptors, is at the point
of the dialogue `d`. -/
structure Shows (a : Addr) (cfd ofd : Int) (s : Session) (d : Dialogue) : Prop where
  peers : s.peers = d.peers
  wf : d.peers.Wf
  stage : InStage a cfd ofd s.world d.transform d.stage
  toClient : sentOn cfd s.world.output = d.toClient
  toOrigin : sentOn ofd s.world.output = d.toOrigin
  toFilter : piped s.world.output = d.toFilter

namespace Peers.Wf

variable {p : Peers}

/-- What is left of segments with something in them has something in them. -/
theorem not_mem_leave {room : ℕ} {seg : List Byte} {segs : List (List Byte)} (h : [] ∉ segs) :
    [] ∉ Peers.leave room seg segs := by
  unfold Peers.leave
  split_ifs with hdrop
  · exact h
  · rw [List.mem_cons, not_or]
    exact ⟨fun h' => hdrop h'.symm, h⟩

/-- A write leaves the peers well formed. -/
theorem sent (h : p.Wf) : p.sent.Wf := ⟨h.client, h.origin, h.replies⟩

/-- So does an answer of the origin. -/
theorem answer (h : p.Wf) : p.answer.Wf := by
  refine ⟨h.client, ?_, fun segs hsegs => h.replies segs (List.mem_of_mem_tail hsegs)⟩
  unfold Peers.answer
  cases hr : p.replies with
  | nil => simpa [hr] using h.origin
  | cons r rs =>
    have hhead := h.replies r (by simp [hr])
    simpa [hr] using ⟨h.origin, hhead⟩

end Peers.Wf

section
variable {a : Addr} {cfd ofd : Int} {s : Session} {d d' : Dialogue} {l : Wires}

/-! ### The event that is due -/

/-- What the selector looks for is what the wiring says. -/
theorem Linked.interest {st : States} (h : Linked a st l s.world) :
    s.world.interest a (s.world.heap a).clientFd = l.client ∧
      ∀ i, l.origin = .armed i → s.world.interest a (s.world.heap a).originFd = i := by
  refine ⟨?_, fun i hi => ?_⟩
  · rw [World.interest, h.wired.client]
    exact if_pos ⟨rfl, rfl⟩
  · rw [World.interest, (h.originIs hi).2]
    exact if_pos ⟨rfl, rfl⟩

/-- What the step of a session has to do with the step of its dialogue. -/
def Follows (a : Addr) (cfd ofd : Int) (s : Session) (d : Dialogue) : Prop :=
  match Session.step a (.ok s), d.step with
  | some r, some d' => ∃ s', r = .ok s' ∧ Shows a cfd ofd s' d'
  | none, none => True
  | _, _ => False

/-- The client has something to send. -/
theorem next_read_client (h : Linked a .commandCread l s.world) {seg : List Byte}
    {segs : List (List Byte)} (hp : s.peers.client = seg :: segs) :
    s.next a = some (.read, ⟨(s.world.heap a).clientFd, a⟩,
      { s.peers.calls 0 with recv := some seg },
      { s.peers.tick with
        client := Peers.leave (s.world.heap a).readBuffer.room seg segs }) := by
  have hwires := h.wires
  cases hwires
  rw [Session.next]
  simp only [h.interest.1, if_true, hp]

/-- It has not. -/
theorem next_wait_client (h : Linked a .commandCread l s.world) (hp : s.peers.client = []) :
    s.next a = none := by
  have hwires := h.wires
  cases hwires
  rw [Session.next]
  simp only [h.interest.1, if_true, hp]

/-- The client takes something. -/
theorem next_write_client {st : States} (h : Linked a st ⟨OP_WRITE, .armed OP_NOOP⟩ s.world) :
    s.next a = some (.write, ⟨(s.world.heap a).clientFd, a⟩,
      { s.peers.calls 0 with send := some s.peers.quota }, s.peers.sent) := by
  rw [Session.next]
  simp only [h.interest.1, Bool.false_eq_true, if_false, if_true]

/-- The origin does. -/
theorem next_write_origin (h : Linked a .commandSwrite l s.world) :
    s.next a = some (.write, ⟨(s.world.heap a).originFd, a⟩,
      { s.peers.calls 0 with send := some s.peers.quota }, s.peers.sent) := by
  have hwires := h.wires
  cases hwires
  rw [Session.next]
  simp only [h.interest.1, h.interest.2 _ rfl, Bool.false_eq_true, if_false, if_true]

/-- The origin has something to send. -/
theorem next_read_origin {st : States} (h : Linked a st ⟨OP_NOOP, .armed OP_READ⟩ s.world)
    {seg : List Byte} {segs : List (List Byte)} (hp : s.peers.origin = seg :: segs) :
    s.next a = some (.read, ⟨(s.world.heap a).originFd, a⟩,
      { s.peers.calls 0 with recv := some seg },
      { s.peers.tick with
        origin := Peers.leave (s.world.heap a).originBuffer.room seg segs }) := by
  rw [Session.next]
  simp only [h.interest.1, h.interest.2 _ rfl, Bool.false_eq_true, if_false, if_true, hp]

/-- It has not. -/
theorem next_wait_origin {st : States} (h : Linked a st ⟨OP_NOOP, .armed OP_READ⟩ s.world)
    (hp : s.peers.origin = []) : s.next a = none := by
  rw [Session.next]
  simp only [h.interest.1, h.interest.2 _ rfl, Bool.false_eq_true, if_false, if_true, hp]

/-! ### One event of the session, one step of the dialogue -/

/-- The handler goes on. -/
theorem follows_goes {op : Op} {key : SelectorKey} {io : Io} {p : Peers}
    {f : World → Except Fault (States × World)} {next : States} {c c' : Pop3} {ev : List Output}
    (h : Shows a cfd ofd s d) (hl : Linked a d.stage.state l s.world) (hkey : key.data = a)
    (hnext : s.next a = some (op, key, io, p))
    (hd : Dispatched s.world a (some d.stage.state) l key.fd op)
    (hh : handlerOf io key op d.stage.state = some f)
    (hf : Gives a (f s.world) next c (s.world.output ++ ev))
    (hent : Enters key d.stage.state next c c') (hne : next ≠ .error)
    (hlost : d.stage.state = .greetingSread → ¬ RecvLost io (s.world.heap a))
    (hstep : d.step = some d') (hstate : d'.stage.state = next)
    (hcarries : Carries cfd ofd d'.transform d'.stage c')
    (hpeers : d'.peers =
      if d.stage.state = .commandSwrite ∧ next = .responseSread then p.answer else p)
    (hwf : d'.peers.Wf) (hclient : d'.toClient = d.toClient ++ sentOn cfd ev)
    (horigin : d'.toOrigin = d.toOrigin ++ sentOn ofd ev)
    (hfilter : d'.toFilter = d.toFilter ++ piped ev) : Follows a cfd ofd s d := by
  subst hkey
  obtain ⟨w', l', hrun, hl', hheap, hout⟩ := hl.goes hd hh hf hent hne hlost
  rw [Follows, hstep, Session.step, hnext, Option.map_some]
  refine ⟨s.after key.data p w', by simp only [hrun, Except.map], ?_, hwf, ?_, ?_, ?_, ?_⟩
  · have hcur : ∀ st : States, some d.stage.state.num = some st.num ↔ d.stage.state = st :=
      fun st => ⟨fun h => States.num_injective (Option.some.inj h), fun h => by rw [h]⟩
    have hcur' : ∀ st : States, some next.num = some st.num ↔ next = st :=
      fun st => ⟨fun h => States.num_injective (Option.some.inj h), fun h => by rw [h]⟩
    rw [hpeers, Session.after, hl.current, hl'.current]
    simp only [hcur, hcur']
  · refine .opened (l := l') (by rw [hstate]; exact hl') ?_
    show Carries cfd ofd d'.transform d'.stage (w'.heap key.data)
    rw [hheap]
    refine ⟨hcarries.clientFd, hcarries.originFd, hcarries.readLimit, hcarries.transform, ?_⟩
    have hholds := hcarries.holds
    cases hst : d'.stage <;> rw [hst] at hholds <;> exact hholds
  · show sentOn cfd w'.output = _
    rw [hout, sentOn_append, h.toClient, hclient]
  · show sentOn ofd w'.output = _
    rw [hout, sentOn_append, h.toOrigin, horigin]
  · show piped w'.output = _
    rw [hout, piped_append, h.toFilter, hfilter]

/-- The handler goes on and sends nothing. -/
theorem follows_quiet {op : Op} {key : SelectorKey} {io : Io} {p : Peers}
    {f : World → Except Fault (States × World)} {next : States} {c c' : Pop3}
    (h : Shows a cfd ofd s d) (hl : Linked a d.stage.state l s.world) (hkey : key.data = a)
    (hnext : s.next a = some (op, key, io, p))
    (hd : Dispatched s.world a (some d.stage.state) l key.fd op)
    (hh : handlerOf io key op d.stage.state = some f)
    (hf : Gives a (f s.world) next c s.world.output)
    (hent : Enters key d.stage.state next c c') (hne : next ≠ .error)
    (hlost : d.stage.state = .greetingSread → ¬ RecvLost io (s.world.heap a))
    (hstep : d.step = some d') (hstate : d'.stage.state = next)
    (hcarries : Carries cfd ofd d'.transform d'.stage c')
    (hpeers : d'.peers =
      if d.stage.state = .commandSwrite ∧ next = .responseSread then p.answer else p)
    (hwf : d'.peers.Wf) (hclient : d'.toClient = d.toClient) (horigin : d'.toOrigin = d.toOrigin)
    (hfilter : d'.toFilter = d.toFilter) : Follows a cfd ofd s d := by
  have hf' : Gives a (f s.world) next c (s.world.output ++ []) := by
    rw [List.append_nil]
    exact hf
  exact follows_goes h hl hkey hnext hd hh hf' hent hne hlost hstep hstate hcarries hpeers hwf
    (hclient.trans (List.append_nil _).symm) (horigin.trans (List.append_nil _).symm)
    (hfilter.trans (List.append_nil _).symm)

/-- The handler fails. -/
theorem follows_fails {op : Op} {key : SelectorKey} {io : Io} {p : Peers}
    {f : World → Except Fault (States × World)} {c : Pop3} (h : Shows a cfd ofd s d)
    (hl : Linked a d.stage.state l s.world) (hkey : key.data = a)
    (hnext : s.next a = some (op, key, io, p))
    (hd : Dispatched s.world a (some d.stage.state) l key.fd op)
    (hh : handlerOf io key op d.stage.state = some f)
    (hf : Gives a (f s.world) .error c s.world.output)
    (hstep : d.step = some { d with stage := .closed, peers := p }) (hwf : p.Wf) :
    Follows a cfd ofd s d := by
  subst hkey
  obtain ⟨w', hrun, hgone, hcur, hout⟩ := hl.fails hd hh hf
  rw [Follows, hstep, Session.step, hnext, Option.map_some]
  refine ⟨s.after key.data p w', by simp only [hrun, Except.map], ?_, hwf, .closed hgone hcur, ?_,
    ?_, ?_⟩
  · show (if _ ∧ (w'.heap key.data).current = some States.responseSread.num then p.answer
      else p) = p
    rw [hcur, if_neg (fun h => absurd h.2 (by decide))]
  · show sentOn cfd w'.output = _
    rw [hout, h.toClient]
  · show sentOn ofd w'.output = _
    rw [hout, h.toOrigin]
  · show piped w'.output = _
    rw [hout, h.toFilter]

/-- The session waits. -/
theorem follows_wait (hnext : s.next a = none) (hstep : d.step = none) :
    Follows a cfd ofd s d := by
  rw [Follows, hstep, Session.step, hnext]
  trivial

/-- Staying in a state. -/
theorem enters_self (key : SelectorKey) (st : States) (c : Pop3) : Enters key st st c c :=
  fun w hw => ⟨w, if_pos rfl, hw, rfl⟩

/-- States whose `on_arrival` is empty. -/
theorem enters_plain {key : SelectorKey} {st next : States} (c : Pop3)
    (h : arrival key next = .ok) : Enters key st next c c := by
  intro w hw
  refine ⟨w, ?_, hw, rfl⟩
  rw [enter, h]
  split_ifs <;> rfl

/-- The struct that `command_init` leaves. -/
def Pop3.atCommand (c : Pop3) : Pop3 :=
  { c with
    writeBuffer := bufferReset (bufferInit rawBuffB [])
    readBuffer := bufferReset c.readBuffer
    commandParser := pop3CommandDefinition.startState
    currentCommand := .clear
    currentCommandLen := 0
    bytesRead := 0 }

/-- The struct that `response_init` leaves. -/
def Pop3.atResponse (c : Pop3) : Pop3 :=
  { c with
    origin := .response pop3SinglelineResponseDefinition.startState
      pop3MultilineResponseDefinition.startState
    writeBuffer := bufferReset (bufferInit rawBuffB [])
    transBuffer := bufferReset (bufferInit rawBuffTrans []) }

/-- The struct that `dot_data_init` leaves. -/
def Pop3.atBody (c : Pop3) : Pop3 :=
  { c with writeBuffer := bufferReset c.writeBuffer, transBuffer := bufferReset c.transBuffer }

/-- Entering the state that reads a command. -/
theorem enters_commandCread {key : SelectorKey} {st : States} (hne : st ≠ .commandCread)
    (c : Pop3) : Enters key st .commandCread c c.atCommand := by
  intro w hw
  refine ⟨_, if_neg hne, ?_, rfl⟩
  rw [World.heap_modify, hw]
  rfl

/-- Entering the one that reads a reply. -/
theorem enters_responseSread {key : SelectorKey} {st : States} (hne : st ≠ .responseSread)
    (c : Pop3) : Enters key st .responseSread c c.atResponse := by
  intro w hw
  refine ⟨_, if_neg hne, ?_, rfl⟩
  rw [World.heap_modify, hw]
  rfl

/-- Entering the one that reads the rest of it. -/
theorem enters_dotDataSread {key : SelectorKey} {st : States} (hne : st ≠ .dotDataSread) {c : Pop3}
    (hkind : c.origin.kind = .response) : Enters key st .dotDataSread c c.atBody := by
  intro w hw
  obtain ⟨pm, hpm⟩ := Origin.asResponse_ok hkind
  refine ⟨w.modify key.data Pop3.atBody, ?_, ?_, rfl⟩
  · rw [enter, if_neg hne]
    show ((w.heap key.data).origin.asResponse >>= fun _ => _) = _
    rw [hw, hpm]
    rfl
  · rw [World.heap_modify, hw]

/-- The struct is ready for a command. -/
theorem Carries.atCommand {t : Bool} {c : Pop3} (h1 : c.clientFd = cfd) (h2 : c.originFd = ofd)
    (h3 : c.readBuffer.limit = rawBuffA) (h4 : c.transform = t) :
    Carries cfd ofd t .ready c.atCommand :=
  ⟨h1, h2, h3, h4, h3 ▸ Buffer.filled_reset _, rfl, rfl⟩

/-- It is ready for the status line. -/
theorem Carries.atResponse {t : Bool} {c : Pop3} {cmd : Pop3CommandBuilder}
    (h1 : c.clientFd = cfd) (h2 : c.originFd = ofd) (h3 : c.readBuffer.limit = rawBuffA)
    (h4 : c.transform = t) (h5 : c.currentCommand = cmd) :
    Carries cfd ofd t (.status cmd) c.atResponse :=
  ⟨h1, h2, h3, h4, Buffer.filled_reset _, Buffer.filled_reset _, rfl, h5⟩

/-- It is ready for the lines behind it. -/
theorem Carries.atBody {t last : Bool} {c : Pop3} {rest : List Byte} (h1 : c.clientFd = cfd)
    (h2 : c.originFd = ofd) (h3 : c.readBuffer.limit = rawBuffA) (h4 : c.transform = t)
    (h5 : (Stage.relay last rest).Holds c) : Carries cfd ofd t .body c.atBody :=
  ⟨h1, h2, h3, h4, h5.2.1 ▸ Buffer.filled_reset _, h5.2.2.1 ▸ Buffer.filled_reset _, h5.2.2.2⟩

/-- A chunk of a command. -/
theorem follows_command {p : CommandState} {cmd : Pop3CommandBuilder} {held : List Byte}
    (h : Shows a cfd ofd s d) (hst : d.stage = .command p cmd held)
    (hl : Linked a .commandCread l s.world)
    (hc : Carries cfd ofd d.transform (.command p cmd held) (s.world.heap a)) :
    Follows a cfd ofd s d := by
  have hpeers := h.peers
  cases hp : d.peers.client with
  | nil =>
    refine follows_wait (next_wait_client hl (by rw [hpeers, hp])) ?_
    simp only [Dialogue.step, hst, hp]
  | cons seg segs =>
    have hroom := hc.holds.1.room
    have hnext := next_read_client hl (hpeers ▸ hp)
    rw [hroom, hpeers] at hnext
    have hwf : Peers.Wf { d.peers.tick with
        client := Peers.leave (rawBuffA - held.length) seg segs } := by
      refine ⟨Peers.Wf.not_mem_leave fun hmem => h.wf.client ?_, h.wf.origin, h.wf.replies⟩
      rw [hp]
      exact List.mem_cons_of_mem _ hmem
    have hstate : d.stage.state = .commandCread := by rw [hst]; rfl
    have hd : Dispatched s.world a (some d.stage.state) l (s.world.heap a).clientFd .read := by
      have hwires := hl.wires
      cases hwires
      exact .client rfl rfl
    rw [← hstate] at hl
    -- without room `recv` is asked for nothing and gives nothing, which is taken for the end
    cases hchunk : seg.take (rawBuffA - held.length) with
    | nil =>
      refine follows_fails (c := s.world.heap a) h hl rfl hnext hd (by rw [hstate]; rfl) ?_ ?_ hwf
      · exact commandCread_full hc.holds.1 rfl hchunk
      · simp only [Dialogue.step, hst, hp, hchunk, if_true]
    | cons b bs =>
      have hrecv : ({ d.peers.calls 0 with recv := some seg } : Io).recv = some seg := rfl
      obtain ⟨c, hg, hceq⟩ := commandCread_gives ⟨(s.world.heap a).clientFd, a⟩ hl
        hc.holds.1 hrecv hchunk rfl
      have hread : (commandBuilder (b :: bs) p cmd).read ≤ (b :: bs).length :=
        Scan.scan_read_le _ _ _
      have hfit : (b :: bs).length ≤ (s.world.heap a).readBuffer.room := by
        rw [hroom, ← hchunk, List.length_take]
        exact Nat.min_le_left _ _
      have hfilled := hc.holds.1.pushPart hfit hread
      rw [hc.holds.2.1, hc.holds.2.2] at hg hceq
      unfold commandNext at hg
      have hstep : d.step = some { d with
          stage := Dialogue.commandStage p cmd held (b :: bs)
          peers := { d.peers.tick with
            client := Peers.leave (rawBuffA - held.length) seg segs } } := by
        simp only [Dialogue.step, hst, hp, hchunk, reduceCtorEq, if_false]
      unfold Dialogue.commandStage at hstep
      cases hres : builderResult (commandBuilder (b :: bs) p cmd) with
      | buildFailed =>
        simp only [hres] at hg hstep
        exact follows_fails h hl rfl hnext hd (by rw [hstate]; rfl) hg hstep hwf
      | building =>
        simp only [hres] at hg hstep
        have hent : Enters ⟨(s.world.heap a).clientFd, a⟩ d.stage.state .commandCread c c := by
          rw [hstate]
          exact enters_self _ _ c
        refine follows_quiet h hl rfl hnext hd (by rw [hstate]; rfl) hg hent (by simp)
          (by rw [hstate]; simp) hstep rfl ?_ ?_ hwf rfl rfl rfl
        · rw [hceq]
          exact ⟨hc.clientFd, hc.originFd, hfilled.limit, hc.transform, hfilled, rfl, rfl⟩
        · rw [hstate]
          rfl
      | buildFinished =>
        simp only [hres] at hg hstep
        refine follows_quiet h hl rfl hnext hd (by rw [hstate]; rfl) hg (enters_plain c rfl)
          (by simp)
          (by rw [hstate]; simp) hstep rfl ?_ ?_ hwf rfl rfl rfl
        · rw [hceq]
          exact ⟨hc.clientFd, hc.originFd, hfilled.limit, hc.transform, hfilled.left, rfl⟩
        · rw [hstate]
          rfl

/-- Something of a segment is read when there is room. -/
theorem take_of_mem {seg : List Byte} {segs segs' : List (List Byte)} (h : [] ∉ segs)
    (hp : segs = seg :: segs') {n : ℕ} (hn : 0 < n) :
    (∃ b bs, seg.take n = b :: bs) ∧ [] ∉ Peers.leave n seg segs' := by
  subst hp
  rw [List.mem_cons, not_or] at h
  refine ⟨?_, Peers.Wf.not_mem_leave h.2⟩
  cases seg with
  | nil => exact absurd rfl h.1
  | cons b bs =>
    obtain ⟨n, rfl⟩ := Nat.exists_eq_succ_of_ne_zero hn.ne'
    exact ⟨b, bs.take n, rfl⟩

/-- The two descriptors are not the same. -/
theorem Linked.fds_ne {st : States} (h : Linked a st l s.world) :
    (s.world.heap a).originFd ≠ (s.world.heap a).clientFd := by
  have hwires := h.wires
  cases st <;> cases hwires <;> exact (h.originIs rfl).1

/-- The greeting of the origin. -/
theorem follows_greeting (h : Shows a cfd ofd s d) (hst : d.stage = .greeting)
    (hl : Linked a .greetingSread l s.world)
    (hc : Carries cfd ofd d.transform .greeting (s.world.heap a)) : Follows a cfd ofd s d := by
  have hpeers := h.peers
  have hwires := hl.wires
  cases hwires
  cases hp : d.peers.origin with
  | nil =>
    refine follows_wait (next_wait_origin hl (by rw [hpeers, hp])) ?_
    simp only [Dialogue.step, hst, hp]
  | cons seg segs =>
    have hroom : (s.world.heap a).originBuffer.room = rawBuffA := by
      rw [Pop3.originBuffer, if_pos hl.current]
      exact hc.holds.1.room
    have hnext := next_read_origin hl (hpeers ▸ hp)
    rw [hroom, hpeers] at hnext
    obtain ⟨⟨b, bs, hchunk⟩, hleave⟩ := take_of_mem h.wf.origin hp (n := rawBuffA) (by decide)
    have hwf : Peers.Wf { d.peers.tick with origin := Peers.leave rawBuffA seg segs } :=
      ⟨h.wf.client, hleave, h.wf.replies⟩
    have hstate : d.stage.state = .greetingSread := by rw [hst]; rfl
    have hd : Dispatched s.world a (some d.stage.state) ⟨OP_NOOP, .armed OP_READ⟩
        (s.world.heap a).originFd .read := .origin rfl rfl rfl
    have hrecv : ({ d.peers.calls 0 with recv := some seg } : Io).recv = some seg := rfl
    have hg := greetingSread_gives ⟨(s.world.heap a).originFd, a⟩ hl hc.holds.1
      hc.holds.2.2 hrecv hchunk
    have hstep : d.step = some { d with
        stage := if hasStatusLine (b :: bs) then .welcome greetingOk else .closed
        peers := { d.peers.tick with origin := Peers.leave rawBuffA seg segs } } := by
      simp only [Dialogue.step, hst, hp, hchunk]
    -- the buffer has room and something has come, so nothing is left for good
    have hlost : ¬ RecvLost { d.peers.calls 0 with recv := some seg } (s.world.heap a) := by
      rintro ⟨hlost, -⟩
      have hroom' := hc.holds.1.room
      unfold Buffer.room rawBuffA at hroom'
      rcases hlost with hlost | hlost | hlost
      · cases hlost
      · cases hlost
        cases hchunk
      · simp only [List.length_nil, Nat.sub_zero] at hroom'
        omega
    rw [← hstate] at hl
    cases hline : hasStatusLine (b :: bs) with
    | false =>
      simp only [hline, Bool.false_eq_true, if_false] at hg hstep
      exact follows_fails h hl rfl hnext hd (by rw [hstate]; rfl) hg hstep hwf
    | true =>
      simp only [hline, if_true] at hg hstep
      refine follows_quiet h hl rfl hnext hd (by rw [hstate]; rfl) hg (enters_plain _ rfl) (by simp)
        (fun _ => hlost) hstep rfl ?_ ?_ hwf rfl rfl rfl
      · exact ⟨hc.clientFd, hc.originFd, hc.readLimit, hc.transform, hc.holds.2.1, rfl⟩
      · rw [hstate]
        rfl

/-- A handler that sends to the client, and nothing to the origin or the filter. -/
theorem follows_toClient {f : World → Except Fault (States × World)} {next : States} {st : Stage}
    {rest : List Byte} {c c' : Pop3} (h : Shows a cfd ofd s d)
    (hl : Linked a d.stage.state ⟨OP_WRITE, .armed OP_NOOP⟩ s.world)
    (hc : Carries cfd ofd d.transform d.stage (s.world.heap a))
    (hh : handlerOf { d.peers.calls 0 with send := some d.peers.quota }
      ⟨(s.world.heap a).clientFd, a⟩ .write d.stage.state = some f)
    (hf : Gives a (f s.world) next c
      (s.world.output ++ [.sent (s.world.heap a).clientFd (rest.take d.peers.quota)]))
    (hent : Enters ⟨(s.world.heap a).clientFd, a⟩ d.stage.state next c c') (hne : next ≠ .error)
    (hstep : d.step = some { d with
      stage := st
      peers := d.peers.sent
      toClient := d.toClient ++ rest.take d.peers.quota })
    (hstate : st.state = next) (hcarries : Carries cfd ofd d.transform st c') :
    Follows a cfd ofd s d := by
  have hnext := next_write_client hl
  rw [h.peers] at hnext
  have hd : Dispatched s.world a (some d.stage.state) ⟨OP_WRITE, .armed OP_NOOP⟩
      (s.world.heap a).clientFd .write := .client rfl rfl
  have hofd : (s.world.heap a).clientFd ≠ ofd := by
    rw [← hc.originFd]
    exact hl.fds_ne.symm
  -- the states that read the greeting and that write to the origin are wired the other way
  have hgreeting : d.stage.state ≠ .greetingSread := by
    intro hst
    have hwires := hl.wires
    rw [hst] at hwires
    cases hwires
  have hswrite : d.stage.state ≠ .commandSwrite := by
    intro hst
    have hwires := hl.wires
    rw [hst] at hwires
    cases hwires
  refine follows_goes h hl rfl hnext hd hh hf hent hne (fun hst => absurd hst hgreeting) hstep
    hstate hcarries (if_neg fun hst => hswrite hst.1).symm h.wf.sent ?_ ?_ ?_
  · rw [sentOn_sent, if_pos hc.clientFd]
  · rw [sentOn_sent, if_neg hofd, List.append_nil]
  · rw [piped_sent, List.append_nil]

/-- The welcome is sent to the client. -/
theorem follows_welcome {rest : List Byte} (h : Shows a cfd ofd s d)
    (hst : d.stage = .welcome rest) (hl : Linked a .greetingCwrite l s.world)
    (hc : Carries cfd ofd d.transform (.welcome rest) (s.world.heap a)) :
    Follows a cfd ofd s d := by
  have hwires := hl.wires
  cases hwires
  have hstate : d.stage.state = .greetingCwrite := by rw [hst]; rfl
  have hsend : ({ d.peers.calls 0 with send := some d.peers.quota } : Io).send =
    some d.peers.quota := rfl
  obtain ⟨b, hb, hg⟩ := greetingCwrite_gives ⟨(s.world.heap a).clientFd, a⟩ hl
    hc.holds.1 hc.holds.2 hsend rfl
  have hstep : d.step = some { d with
      stage := if rest.drop d.peers.quota = [] then .ready else .welcome (rest.drop d.peers.quota)
      peers := d.peers.sent
      toClient := d.toClient ++ rest.take d.peers.quota } := by
    simp only [Dialogue.step, hst]
  have hcarries : Carries cfd ofd d.transform d.stage (s.world.heap a) := by rw [hst]; exact hc
  rw [← hstate] at hl
  -- all of the welcome is sent, or a part of it
  by_cases hdone : rest.drop d.peers.quota = []
  · simp only [hdone, if_true] at hg hstep
    exact follows_toClient h hl hcarries (by rw [hstate]; rfl) hg
      (enters_commandCread (by rw [hstate]; simp) _) (by simp) hstep rfl
      (.atCommand hc.clientFd hc.originFd hc.readLimit hc.transform)
  · simp only [hdone, if_false] at hg hstep
    exact follows_toClient h hl hcarries (by rw [hstate]; rfl) hg (enters_plain _ rfl) (by simp)
      hstep rfl ⟨hc.clientFd, hc.originFd, hc.readLimit, hc.transform, hb, hc.holds.2⟩

/-- The command is sent to the origin, which answers it. -/
theorem follows_forward {cmd : Pop3CommandBuilder} {rest : List Byte} (h : Shows a cfd ofd s d)
    (hst : d.stage = .forward cmd rest) (hl : Linked a .commandSwrite l s.world)
    (hc : Carries cfd ofd d.transform (.forward cmd rest) (s.world.heap a)) :
    Follows a cfd ofd s d := by
  have hpeers := h.peers
  have hwires := hl.wires
  cases hwires
  have hnext := next_write_origin hl
  rw [hpeers] at hnext
  have hstate : d.stage.state = .commandSwrite := by rw [hst]; rfl
  have hd : Dispatched s.world a (some d.stage.state) ⟨OP_NOOP, .armed OP_WRITE⟩
      (s.world.heap a).originFd .write := .origin rfl rfl rfl
  have hsend : ({ d.peers.calls 0 with send := some d.peers.quota } : Io).send =
    some d.peers.quota := rfl
  obtain ⟨b, hb, hlimit, hg⟩ := commandSwrite_gives ⟨(s.world.heap a).originFd, a⟩ hl
    hc.holds.1 hsend rfl
  have hne : (s.world.heap a).originFd ≠ cfd := by
    rw [← hc.clientFd]
    exact hl.fds_ne
  have hclient : sentOn cfd [.sent (s.world.heap a).originFd (rest.take d.peers.quota)] = [] := by
    rw [sentOn_sent, if_neg hne]
  have horigin : sentOn ofd [.sent (s.world.heap a).originFd (rest.take d.peers.quota)] =
      rest.take d.peers.quota := by rw [sentOn_sent, if_pos hc.originFd]
  have hstep : d.step = some { d with
      stage := if rest.drop d.peers.quota = [] then .status cmd
        else .forward cmd (rest.drop d.peers.quota)
      peers := if rest.drop d.peers.quota = [] then d.peers.sent.answer else d.peers.sent
      toOrigin := d.toOrigin ++ rest.take d.peers.quota } := by
    simp only [Dialogue.step, hst]
  rw [← hstate] at hl
  by_cases hdone : rest.drop d.peers.quota = []
  · simp only [hdone, if_true] at hg hstep
    refine follows_goes h hl rfl hnext hd (by rw [hstate]; rfl) hg
      (enters_responseSread (by rw [hstate]; simp) _) (by simp) (by rw [hstate]; simp) hstep rfl
      (.atResponse hc.clientFd hc.originFd (hlimit.trans hc.readLimit) hc.transform hc.holds.2)
      (if_pos ⟨hstate, rfl⟩).symm h.wf.sent.answer ?_ ?_ ?_
    · rw [hclient, List.append_nil]
    · rw [horigin]
    · rw [piped_sent, List.append_nil]
  · simp only [hdone, if_false] at hg hstep
    refine follows_goes h hl rfl hnext hd (by rw [hstate]; rfl) hg
      (enters_plain _ rfl) (by simp) (by rw [hstate]; simp) hstep rfl
      ⟨hc.clientFd, hc.originFd, hlimit.trans hc.readLimit, hc.transform, hb, hc.holds.2⟩
      (if_neg (by simp)).symm h.wf.sent ?_ ?_ ?_
    · rw [hclient, List.append_nil]
    · rw [horigin]
    · rw [piped_sent, List.append_nil]

/-- A part of a reply is sent to the client. -/
theorem follows_relay {last : Bool} {rest : List Byte} (h : Shows a cfd ofd s d)
    (hst : d.stage = .relay last rest) (hl : Linked a (Stage.relay last rest).state l s.world)
    (hc : Carries cfd ofd d.transform (.relay last rest) (s.world.heap a)) :
    Follows a cfd ofd s d := by
  have hl' : l = ⟨OP_WRITE, .armed OP_NOOP⟩ := by
    have hwires := hl.wires
    cases last <;> cases hwires <;> rfl
  subst hl'
  have hstate : d.stage.state = (Stage.relay last rest).state := by rw [hst]
  have hsend : ({ d.peers.calls 0 with send := some d.peers.quota } : Io).send =
    some d.peers.quota := rfl
  have hitems := hl.items
  have hstep : d.step = some { d with
      stage := if rest.drop d.peers.quota = [] then (if last then .ready else .body)
        else .relay last (rest.drop d.peers.quota)
      peers := d.peers.sent
      toClient := d.toClient ++ rest.take d.peers.quota } := by
    simp only [Dialogue.step, hst]
  have hcarries : Carries cfd ofd d.transform d.stage (s.world.heap a) := by rw [hst]; exact hc
  rw [← hstate] at hl
  -- the last part of a reply leads back to the commands, any other one to its body
  cases last with
  | true =>
    obtain ⟨c, hg, h1, h2, h3, h4, hholds⟩ := relay_gives ⟨(s.world.heap a).clientFd, a⟩
      .responseCwrite .commandCread
      (fun w => w.armed (s.world.heap a).clientFd OP_READ .commandCread) hc.holds hsend
      fun hw hsel _ _ => gives_armed hw (by rw [hsel]; exact hitems.1) _ _
    by_cases hdone : rest.drop d.peers.quota = []
    · simp only [hdone, if_true] at hg hstep
      exact follows_toClient h hl hcarries (by rw [hstate]; rfl) hg
        (enters_commandCread (by rw [hstate]; simp [Stage.state]) _) (by simp) hstep rfl
        (.atCommand (h1.trans hc.clientFd) (h2.trans hc.originFd) (h3 ▸ hc.readLimit)
          (h4.trans hc.transform))
    · simp only [hdone, if_false] at hg hstep
      exact follows_toClient h hl hcarries (by rw [hstate]; rfl) hg (enters_plain _ rfl)
        (by simp) hstep rfl
        ⟨h1.trans hc.clientFd, h2.trans hc.originFd, h3 ▸ hc.readLimit, h4.trans hc.transform,
          hholds⟩
  | false =>
    obtain ⟨c, hg, h1, h2, h3, h4, hholds⟩ := relay_gives ⟨(s.world.heap a).clientFd, a⟩
      .dotDataCwrite .dotDataSread (fun w => w.toOrigin a OP_READ .dotDataSread) hc.holds hsend
      fun hw hsel _ h2 => gives_toOrigin hw (by rw [hsel, h2]; exact hitems.2) _ _
    by_cases hdone : rest.drop d.peers.quota = []
    · simp only [hdone, if_true, Bool.false_eq_true, if_false] at hg hstep
      exact follows_toClient h hl hcarries (by rw [hstate]; rfl) hg
        (enters_dotDataSread (by rw [hstate]; simp [Stage.state]) hholds.2.2.2) (by simp) hstep
        rfl
        (.atBody (h1.trans hc.clientFd) (h2.trans hc.originFd) (h3 ▸ hc.readLimit)
          (h4.trans hc.transform) hholds)
    · simp only [hdone, if_false] at hg hstep
      exact follows_toClient h hl hcarries (by rw [hstate]; rfl) hg (enters_plain _ rfl)
        (by simp) hstep rfl
        ⟨h1.trans hc.clientFd, h2.trans hc.originFd, h3 ▸ hc.readLimit, h4.trans hc.transform,
          hholds⟩

/-- What a reply handler leaves is the stage in which the chunk is relayed. -/
theorem Replied.carries {c c' : Pop3} {rest chunk : List Byte} {t t' last : Bool}
    {st : Stage} {out out' : List Output} (h : Replied c rest t out chunk c' out')
    (hc : Carries cfd ofd t' st c) : Carries cfd ofd t (.relay last rest) c' :=
  ⟨h.clientFd.trans hc.clientFd, h.originFd.trans hc.originFd, h.readBuffer ▸ hc.readLimit,
    h.transform, h.left, h.writeLimit, h.transLimit, h.kind⟩

/-- A reply handler sends to the filter only. -/
theorem Replied.events {c c' : Pop3} {rest chunk : List Byte} {t : Bool} {out out' : List Output}
    (h : Replied c rest t out chunk c' out') :
    ∃ ev, out' = out ++ ev ∧ (∀ fd, sentOn fd ev = []) ∧ piped ev = chunk := by
  rcases h.output with ⟨hout, hchunk⟩ | ⟨fd, hout⟩
  · exact ⟨[], by rw [hout, List.append_nil], fun _ => rfl, by rw [hchunk]; rfl⟩
  · exact ⟨[.wrote fd chunk], hout, fun _ => sentOn_wrote _ _ _, piped_wrote _ _⟩

/-- The state that relays a chunk. -/
theorem state_relay (last : Bool) (rest : List Byte) :
    (Stage.relay last rest).state = if last then .responseCwrite else .dotDataCwrite := by
  cases last <;> rfl

/-- A later chunk of a body. -/
theorem follows_body (h : Shows a cfd ofd s d) (hst : d.stage = .body)
    (hl : Linked a .dotDataSread l s.world)
    (hc : Carries cfd ofd d.transform .body (s.world.heap a)) : Follows a cfd ofd s d := by
  have hpeers := h.peers
  have hwires := hl.wires
  cases hwires
  cases hp : d.peers.origin with
  | nil =>
    refine follows_wait (next_wait_origin hl (by rw [hpeers, hp])) ?_
    simp only [Dialogue.step, hst, hp]
  | cons seg segs =>
    have hroom : (s.world.heap a).originBuffer.room = rawBuffB := by
      rw [Pop3.originBuffer, if_neg (by rw [hl.current]; decide)]
      exact hc.holds.1.room
    have hnext := next_read_origin hl (hpeers ▸ hp)
    rw [hroom, hpeers] at hnext
    obtain ⟨⟨b, bs, hchunk⟩, hleave⟩ := take_of_mem h.wf.origin hp (n := rawBuffB) (by decide)
    have hwf : Peers.Wf { d.peers.tick with origin := Peers.leave rawBuffB seg segs } :=
      ⟨h.wf.client, hleave, h.wf.replies⟩
    have hstate : d.stage.state = .dotDataSread := by rw [hst]; rfl
    have hd : Dispatched s.world a (some d.stage.state) ⟨OP_NOOP, .armed OP_READ⟩
        (s.world.heap a).originFd .read := .origin rfl rfl rfl
    have hrecv : ({ d.peers.calls 0 with recv := some seg } : Io).recv = some seg := rfl
    obtain ⟨c, out, hg, hreplied⟩ := dotDataSread_gives ⟨(s.world.heap a).originFd, a⟩ hl hc.holds
      hrecv hchunk
    obtain ⟨ev, hout, hsent, hpiped⟩ := hreplied.events
    have hstep : d.step = some (d.bodyRead (b :: bs)
        { d.peers.tick with origin := Peers.leave rawBuffB seg segs }) := by
      simp only [Dialogue.step, hst, hp, hchunk]
    rw [← hstate] at hl
    rw [hout] at hg
    rw [hc.transform] at hreplied hpiped
    refine follows_goes h hl rfl hnext hd (by rw [hstate]; rfl) hg (enters_plain _ ?_) ?_
      (by rw [hstate]; simp) hstep ?_ ?_ ?_ hwf ?_ ?_ ?_
    · split_ifs <;> rfl
    · split_ifs <;> simp
    · rw [Dialogue.bodyRead, state_relay]
      simp
    · exact hreplied.carries hc
    · rw [hstate]
      rfl
    · rw [hsent, List.append_nil]
      rfl
    · rw [hsent, List.append_nil]
      rfl
    · rw [hpiped]
      rfl

/-- The first chunk of a reply. -/
theorem follows_status {cmd : Pop3CommandBuilder} (h : Shows a cfd ofd s d)
    (hst : d.stage = .status cmd) (hl : Linked a .responseSread l s.world)
    (hc : Carries cfd ofd d.transform (.status cmd) (s.world.heap a)) : Follows a cfd ofd s d := by
  have hpeers := h.peers
  have hwires := hl.wires
  cases hwires
  cases hp : d.peers.origin with
  | nil =>
    refine follows_wait (next_wait_origin hl (by rw [hpeers, hp])) ?_
    simp only [Dialogue.step, hst, hp]
  | cons seg segs =>
    -- `recv` is given all of an empty buffer
    have hroom : (s.world.heap a).originBuffer.room = rawBuffB := by
      rw [Pop3.originBuffer, if_neg (by rw [hl.current]; decide)]
      exact hc.holds.1.room
    have hnext := next_read_origin hl (hpeers ▸ hp)
    rw [hroom, hpeers] at hnext
    obtain ⟨⟨b, bs, hchunk⟩, hleave⟩ := take_of_mem h.wf.origin hp (n := rawBuffB) (by decide)
    have hwf : Peers.Wf { d.peers.tick with origin := Peers.leave rawBuffB seg segs } :=
      ⟨h.wf.client, hleave, h.wf.replies⟩
    have hstate : d.stage.state = .responseSread := by rw [hst]; rfl
    have hd : Dispatched s.world a (some d.stage.state) ⟨OP_NOOP, .armed OP_READ⟩
        (s.world.heap a).originFd .read := .origin rfl rfl rfl
    have hrecv : ({ d.peers.calls 0 with recv := some seg } : Io).recv = some seg := rfl
    have heq := responseSread_eq ⟨(s.world.heap a).originFd, a⟩ hc.holds hrecv hchunk
    have hstep : d.step = some (d.statusRead cmd (b :: bs)
        { d.peers.tick with origin := Peers.leave rawBuffB seg segs }) := by
      simp only [Dialogue.step, hst, hp, hchunk]
    unfold Dialogue.statusRead at hstep
    have hfit : (b :: bs).length ≤ (s.world.heap a).writeBuffer.room := by
      rw [hc.holds.1.room, ← hchunk, List.length_take]
      exact Nat.min_le_left _ _
    have hfilled := hc.holds.1.push hfit
    have hheap : (s.world.modify a fun c => c.parsed (b :: bs)).heap a =
        (s.world.heap a).parsed (b :: bs) := World.heap_modify _ _ _
    have hitem := hl.items.1
    rw [← hstate] at hl
    cases hline : hasStatusLine (b :: bs) with
    | false =>
      -- no status line is found in the chunk, and the connection is given up
      simp only [hline, Bool.false_eq_true, if_false] at heq hstep
      refine follows_fails (c := (s.world.heap a).parsed (b :: bs)) h hl rfl hnext hd
        (by rw [hstate]; rfl) ?_ hstep hwf
      rw [heq]
      exact ⟨_, rfl, hheap, rfl⟩
    | true =>
      simp only [hline, if_true] at heq hstep
      cases hbody : cmd.expectsBody with
      | false =>
        -- a single line goes out as it came, but from the buffer the flag chooses
        simp only [hbody, Bool.false_eq_true, if_false] at heq hstep
        have hg : Gives a (responseSread { d.peers.calls 0 with recv := some seg }
            ⟨(s.world.heap a).originFd, a⟩ s.world) .responseCwrite
            ((s.world.heap a).parsed (b :: bs)) s.world.output := by
          rw [heq]
          exact gives_toClient hheap hitem .responseCwrite
        refine follows_quiet h hl rfl hnext hd (by rw [hstate]; rfl) hg (enters_plain _ rfl)
          (by simp) (by rw [hstate]; simp) hstep rfl ?_ ?_ hwf rfl rfl rfl
        · refine ⟨hc.clientFd, hc.originFd, hc.readLimit, hc.transform, ?_, hfilled.limit,
            hc.holds.2.1.limit, rfl⟩
          show (Pop3.relayBuffer _).Left (if d.transform then [] else b :: bs)
          rw [Pop3.relayBuffer, ← hc.transform]
          show Buffer.Left (if (s.world.heap a).transform = true then _ else _) _
          split_ifs
          · exact hc.holds.2.1.left
          · exact hfilled.left
        · rw [hstate]
          rfl
      | true =>
        -- a reply with a body goes out as it came, or as the filter gives it back
        simp only [hbody, if_true] at heq hstep
        obtain ⟨c, out, hg, hreplied⟩ := responseMultiline_gives ⟨(s.world.heap a).originFd, a⟩
          { d.peers.calls 0 with recv := some seg } (b :: bs)
          (pop3SinglelineResponseBuilder (b :: bs)
            pop3SinglelineResponseDefinition.startState none).state.1
          pop3MultilineResponseDefinition.startState hheap hfilled hc.holds.2.1 hitem
        obtain ⟨ev, hout, hsent, hpiped⟩ := hreplied.events
        rw [← heq, hout] at hg
        have hcmd : ((s.world.heap a).parsed (b :: bs)).currentCommand = cmd := hc.holds.2.2.2
        rw [hcmd] at hreplied hpiped
        refine follows_goes h hl rfl hnext hd (by rw [hstate]; rfl) hg (enters_plain _ ?_) ?_
          (by rw [hstate]; simp) hstep ?_ ?_ ?_ hwf ?_ ?_ ?_
        · split_ifs <;> rfl
        · split_ifs <;> simp
        · rw [state_relay, hasTerminator]
          simp
        · exact ⟨hreplied.clientFd.trans hc.clientFd, hreplied.originFd.trans hc.originFd,
            hreplied.readBuffer ▸ hc.readLimit, hreplied.transform, hreplied.left,
            hreplied.writeLimit, hreplied.transLimit, hreplied.kind⟩
        · rw [hstate]
          rfl
        · rw [hsent, List.append_nil]
        · rw [hsent, List.append_nil]
        · rw [hpiped]

/-- **Every event of the session is one step of its dialogue.** -/
theorem follows (h : Shows a cfd ofd s d) : Follows a cfd ofd s d := by
  have hstage := h.stage
  cases hst : d.stage with
  | closed =>
    rw [hst] at hstage
    -- nothing is registered any more, so no event comes
    have hgone : ∀ fd it, s.world.sel.item fd = some it → ¬ Owns a it := by
      cases hstage with
      | opened hl _ =>
        have hwires := hl.wires
        cases hwires
      | closed hgone _ => exact hgone
    have hnoop : ∀ fd, s.world.interest a fd = OP_NOOP := by
      intro fd
      unfold World.interest
      cases hit : s.world.sel.item fd with
      | none => rfl
      | some it => exact if_neg (hgone fd it hit)
    refine follows_wait ?_ ?_
    · rw [Session.next]
      simp only [hnoop, Bool.false_eq_true, if_false]
    · simp only [Dialogue.step, hst]
  | greeting =>
    rw [hst] at hstage
    obtain ⟨l, hl, hc⟩ := hstage.link (by simp)
    exact follows_greeting h hst hl hc
  | welcome rest =>
    rw [hst] at hstage
    obtain ⟨l, hl, hc⟩ := hstage.link (by simp)
    exact follows_welcome h hst hl hc
  | command p cmd bs =>
    rw [hst] at hstage
    obtain ⟨l, hl, hc⟩ := hstage.link (by simp)
    exact follows_command h hst hl hc
  | forward cmd rest =>
    rw [hst] at hstage
    obtain ⟨l, hl, hc⟩ := hstage.link (by simp)
    exact follows_forward h hst hl hc
  | status cmd =>
    rw [hst] at hstage
    obtain ⟨l, hl, hc⟩ := hstage.link (by simp)
    exact follows_status h hst hl hc
  | relay last rest =>
    rw [hst] at hstage
    obtain ⟨l, hl, hc⟩ := hstage.link (by simp)
    exact follows_relay h hst hl hc
  | body =>
    rw [hst] at hstage
    obtain ⟨l, hl, hc⟩ := hstage.link (by simp)
    exact follows_body h hst hl hc

/-- **Sessions refine dialogues.** -/
theorem session_respects (a : Addr) (cfd ofd : Int) :
    StateTransition.Respects (Session.step a) Dialogue.step
      fun r d => ∃ s, r = .ok s ∧ Shows a cfd ofd s d := by
  rintro r d ⟨s, rfl, h⟩
  have hf := follows h
  unfold Follows at hf
  cases hs : Session.step a (.ok s) with
  | none =>
    rw [hs] at hf
    cases hd : d.step with
    | none => exact rfl
    | some d' =>
      rw [hd] at hf
      exact hf.elim
  | some r' =>
    rw [hs] at hf
    cases hd : d.step with
    | none =>
      rw [hd] at hf
      exact hf.elim
    | some d' =>
      rw [hd] at hf
      exact ⟨d', hf, Relation.TransGen.single hd⟩

end

end Pop3Proxy
