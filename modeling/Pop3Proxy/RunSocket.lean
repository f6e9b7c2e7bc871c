/-
# The blocking proxy

`runSocket` of `proxy.c`, the thread of one client: it relays a reply, then a command, then its
reply, and so on, and the session parser tells it when it is the other's turn.  What is fed to the
parser is what is in the array up to a NUL, and the array is not cleared between two reads of one
reply.
-/
import Pop3Proxy.SessionParser

namespace Pop3Proxy

/-! ## The thread -/

/-- `sizeof(buffer)` -/
def socketBufferSize : ℕ := 65535

/-- Who is to send. -/
inductive Turn where
  | server
  | client
  deriving DecidableEq, Repr

/-- How the thread can go wrong. -/
inductive SocketFault where
  /-- a loop over the array runs behind its end -/
  | bufferEnd
  /-- an octet is written behind the end of `cmd` -/
  | cmdEnd
  /-- `event` is `NULL` and followed -/
  | nullEvent
  deriving DecidableEq, Repr

/-- The variables of `runSocket` and of the parser.  `event` is empty where it is `NULL`, and
`buffer` is zero behind its octets. -/
structure RunSocket where
  turn : Turn
  parser : Pop3Parser
  event : List (ParserEvent Pop3Event)
  buffer : List Byte
  deriving DecidableEq

/-- The body of the loops over the array; the one over a reply looks at the event. -/
def feedOctet (turn : Turn) (s : Pop3Parser × List (ParserEvent Pop3Event)) (c : Byte) :
    Except SocketFault (Pop3Parser × List (ParserEvent Pop3Event)) :=
  match pop3ParserFeed s.1 c with
  | none => .error .cmdEnd
  | some (p, events) => if turn = .server ∧ events = [] then .error .nullEvent else .ok (p, events)

/-- `while (buffer[buffer_pos] != 0)` -/
def feedBuffer (turn : Turn) (buffer : List Byte) (s : Pop3Parser × List (ParserEvent Pop3Event)) :
    Except SocketFault (Pop3Parser × List (ParserEvent Pop3Event)) := do
  let s ← (cstr buffer).foldlM (feedOctet turn) s
  if (cstr buffer).length < socketBufferSize then .ok s else .error .bufferEnd

/-- The conditions of the two `do` loops. -/
def again : Turn → List (ParserEvent Pop3Event) → Bool
  | .server, [e] => e.type ≠ .endSingleline
  | .server, _ => false
  | .client, [] => false
  | .client, e :: _ => e.type ≠ .setCmd && e.type ≠ .badCmd

/-- Behind a loop it is the other's turn. -/
def RunSocket.passOn (s : RunSocket) : RunSocket :=
  match s.turn with
  | .server => { s with turn := .client, parser := pop3ParserReset s.parser }
  | .client => { s with turn := .server, buffer := [] }

/-- What was read from one of the two is written to the other. -/
abbrev Relayed := Turn × List Byte

/-- One `read` and what is done with what it finds, nothing where it fails. -/
def RunSocket.step (s : RunSocket) (found : List Byte) :
    Except SocketFault (RunSocket × List Relayed) := do
  -- the array is cleared before each read from the client
  let buffer := overwrite (if s.turn = .client then [] else s.buffer) found
  let (parser, event) ←
    if found = [] then .ok (s.parser, s.event) else feedBuffer s.turn buffer (s.parser, s.event)
  let s' : RunSocket := { s with parser := parser, event := event, buffer := buffer }
  .ok (if again s.turn event then s' else s'.passOn, if found = [] then [] else [(s.turn, found)])

/-- The reads one after the other. -/
def RunSocket.run : RunSocket → List (List Byte) → Except SocketFault (RunSocket × List Relayed)
  | s, [] => .ok (s, [])
  | s, found :: reads => do
    let (s, relayed) ← s.step found
    let (s, more) ← RunSocket.run s reads
    .ok (s, relayed ++ more)

/-- A thread that starts, with what the threads before it have left of the parser. -/
def RunSocket.start (p : Pop3Parser) : RunSocket := ⟨.server, p, [], []⟩

/-! ## The events -/

/-- A first event comes with every octet, and behind it nothing but the end of a body. -/
structure Followed (events : List (ParserEvent Pop3Event)) : Prop where
  ne_nil : events ≠ []
  next : ∀ e ∈ events.tail, e.type = .datStuffedEnd
  first : events.tail ≠ [] → ∀ e ∈ events.head?, e.type = .datStuffed

/-- A second event comes only behind the octets of a reply. -/
theorem followed_of_act2 {S : Type} {t : ParserStateTransition S Empty Pop3Event}
    (h : t.act2 = none ∨
      t.act1 = Pop3Event.datStuffed.octet ∧ t.act2 = some Pop3Event.datStuffedEnd.alone)
    (c : Byte) :
    Followed (t.act1 c :: (t.act2.map (· c)).toList) := by
  refine ⟨List.cons_ne_nil _ _, fun e he => ?_, fun hnext e he => ?_⟩
  · rcases h with h | ⟨-, h⟩ <;> rw [h] at he
    · exact absurd he List.not_mem_nil
    · rw [List.mem_singleton.mp he]
      rfl
  · rcases h with h | ⟨h, -⟩
    · rw [h] at hnext
      exact absurd rfl hnext
    · obtain rfl := Option.some.inj he
      rw [h]
      rfl

/-- So it is in each of the tables. -/
theorem CurrParser.feed_followed (p : CurrParser) (c : Byte) : Followed (p.feed c).2 := by
  cases p with
  | command q =>
    refine parserFeed_of_transitions (d := commandDefinition) (s := q)
      (P := fun _ events => Followed events) ?_ fun t ht _ => followed_of_act2 (.inl ?_) c
    · cases q <;> simp [commandDefinition]
    · cases q <;> simp only [commandDefinition, List.mem_cons, List.not_mem_nil, or_false] at ht
      case kwrd => rcases ht with rfl | rfl | rfl <;> rfl
      case arg => rcases ht with rfl | rfl <;> rfl
      case cr => rcases ht with rfl | rfl <;> rfl
      case crlf => rw [ht]
      case err => rw [ht]
  | singleline q =>
    refine parserFeed_of_transitions (d := singlelineDefinition) (s := q)
      (P := fun _ events => Followed events) ?_ fun t ht _ => followed_of_act2 (.inl ?_) c
    · cases q <;> simp [singlelineDefinition]
    · cases q <;> simp only [singlelineDefinition, List.mem_cons, List.not_mem_nil, or_false] at ht
      case stat => rcases ht with rfl | rfl | rfl <;> rfl
      case trap => rw [ht]
      case crlf => rw [ht]
      all_goals rcases ht with rfl | rfl <;> rfl
  | multiline q =>
    refine parserFeed_of_transitions (d := multilineDefinition) (s := q)
      (P := fun _ events => Followed events) ?_ fun t ht _ => followed_of_act2 ?_ c
    · cases q <;> simp [multilineDefinition]
    · cases q <;> simp only [multilineDefinition, List.mem_cons, List.not_mem_nil, or_false] at ht
      case crlfdotcr =>
        rcases ht with rfl | rfl
        · exact .inr ⟨rfl, rfl⟩
        · exact .inl rfl
      case crlfdotcrlf => exact .inl (by rw [ht])
      all_goals exact .inl (by rcases ht with rfl | rfl <;> rfl)

/-- There is a parser for every octet. -/
theorem Pop3Parser.chosen_ne_none (s : Pop3Parser) (c : Byte) : s.chosen c ≠ none := by
  rw [Pop3Parser.chosen]
  cases s.currParser with
  | some p => exact Option.some_ne_none p
  | none =>
    have hchoose : pop3Choose c = [Pop3Event.parseSl.alone c] ∨
        pop3Choose c = [Pop3Event.parseCmd.alone c] := by
      simp only [pop3Choose, parserFeed_eq_firstMatch, pop3Definition, firstMatch, When.holds,
        decide_eq_true_eq]
      split_ifs
      · exact .inl rfl
      · exact .inl rfl
      · exact .inr rfl
    rcases hchoose with h | h <;> rw [h]
    · exact Option.some_ne_none _
    · exact Option.some_ne_none _

/-- So it is in the parser of the session. -/
theorem pop3ParserFeed_followed {s s' : Pop3Parser} {c : Byte}
    {events : List (ParserEvent Pop3Event)} (h : pop3ParserFeed s c = some (s', events)) :
    Followed events := by
  unfold pop3ParserFeed at h
  cases hchosen : s.chosen c with
  | none => exact absurd hchosen (s.chosen_ne_none c)
  | some p =>
    have hp := p.feed_followed c
    simp only [hchosen] at h
    cases hevents : (p.feed c).2 with
    | nil => exact absurd hevents hp.ne_nil
    | cons e next =>
      rw [hevents] at hp
      simp only [hevents] at h
      split at h
      case h_1 =>
        split_ifs at h
        obtain ⟨-, rfl⟩ := Prod.mk.inj (Option.some.inj h)
        exact hp
      case h_5 htype =>
        -- the end of a status line is changed, and comes alone
        have hnil : next = [] := by
          by_contra hne
          exact absurd (hp.first hne e rfl) (by rw [htype]; decide)
        split_ifs at h <;> obtain ⟨-, rfl⟩ := Prod.mk.inj (Option.some.inj h)
        · subst hnil
          exact ⟨List.cons_ne_nil _ _, fun _ h => absurd h List.not_mem_nil, fun h => absurd rfl h⟩
        · exact hp
      all_goals
        obtain ⟨-, rfl⟩ := Prod.mk.inj (Option.some.inj h)
        exact hp

/-- A reply goes on until its end is signalled. -/
theorem again_server {events : List (ParserEvent Pop3Event)} (h : Followed events) :
    again .server events = !signalsEnd events := by
  cases events with
  | nil => exact absurd rfl h.ne_nil
  | cons e next =>
    cases next with
    | nil => simp [again, signalsEnd]
    | cons e2 next =>
      have hend : e2.type = .datStuffedEnd := h.next e2 List.mem_cons_self
      simp [again, signalsEnd, hend]

/-! ## The loops -/

/-- One octet, up to the one at which the loop ends. -/
def turnStep (turn : Turn) (s : Option Pop3Parser) (c : Byte) : Option Pop3Parser × Option Unit :=
  match s.bind (pop3ParserFeed · c) with
  | some (s, events) => (some s, if again turn events then none else some ())
  | none => (none, none)

/-- The turn of the server is the reading of a reply. -/
theorem turnStep_server : turnStep .server = replyStep := by
  funext s c
  rw [turnStep, replyStep]
  cases hfeed : s.bind (pop3ParserFeed · c) with
  | none => rfl
  | some r =>
    obtain ⟨p, hp, hfeed⟩ := Option.bind_eq_some_iff.mp hfeed
    simp only [again_server (pop3ParserFeed_followed hfeed)]
    cases signalsEnd r.2 <;> rfl

/-- An octet of a turn. -/
theorem turnStep_of_feed {turn : Turn} {s s' : Pop3Parser} {c : Byte}
    {events : List (ParserEvent Pop3Event)} (h : pop3ParserFeed s c = some (s', events)) :
    turnStep turn (some s) c = (some s', if again turn events then none else some ()) := by
  simp [turnStep, h]

/-- Behind an octet that `cmd` has no room for there is no way on. -/
theorem scan_turnStep_none (turn : Turn) (as : List Byte) :
    (Scan.scan (turnStep turn) none as).state = none :=
  Scan.scan_invariant (turnStep turn) (P := (· = none)) (by rintro s c rfl; rfl) rfl as

/-- A turn that has ended has left a parser. -/
theorem scan_turnStep_ends {turn : Turn} {as : List Byte} {s : Option Pop3Parser}
    (h : (Scan.scan (turnStep turn) s as).verdict = some ()) :
    ∃ s', (Scan.scan (turnStep turn) s as).state = some s' := by
  induction as generalizing s with
  | nil => cases h
  | cons a as ih =>
    rcases hstep : turnStep turn s a with ⟨s₁, r⟩
    cases r with
    | none =>
      rw [Scan.scan_cons_none _ _ hstep] at h ⊢
      exact ih h
    | some r =>
      rw [Scan.scan_cons_some _ _ hstep]
      rw [turnStep] at hstep
      cases hfeed : s.bind (pop3ParserFeed · a) with
      | none =>
        simp only [hfeed] at hstep
        cases hstep
      | some r' =>
        simp only [hfeed] at hstep
        exact ⟨r'.1, (congrArg Prod.fst hstep).symm⟩

/-- **The loop over the array** is the scan up to its last octet. -/
theorem foldlM_feedOctet {turn : Turn} {as : List Byte} {p p' : Pop3Parser}
    (hread : (Scan.scan (turnStep turn) (some p) as).read = as.length)
    (hstate : (Scan.scan (turnStep turn) (some p) as).state = some p')
    (event : List (ParserEvent Pop3Event)) :
    ∃ event', as.foldlM (feedOctet turn) (p, event) = .ok (p', event') ∧
      (as ≠ [] → again turn event' = (Scan.scan (turnStep turn) (some p) as).verdict.isNone) := by
  induction as generalizing p event with
  | nil =>
    obtain rfl := Option.some.inj hstate
    exact ⟨event, rfl, fun h => absurd rfl h⟩
  | cons a as ih =>
    cases hfeed : pop3ParserFeed p a with
    | none =>
      have hstep : turnStep turn (some p) a = (none, none) := by simp [turnStep, hfeed]
      rw [Scan.scan_cons_none _ _ hstep, scan_turnStep_none] at hstate
      cases hstate
    | some r =>
      obtain ⟨p₁, events⟩ := r
      have hne := (pop3ParserFeed_followed hfeed).ne_nil
      have hoctet : feedOctet turn (p, event) a = .ok (p₁, events) := by
        simp [feedOctet, hfeed, hne]
      have hstep : turnStep turn (some p) a =
          (some p₁, if again turn events then none else some ()) := turnStep_of_feed hfeed
      rw [List.foldlM_cons, hoctet]
      cases hagain : again turn events with
      | true =>
        rw [hagain, if_pos rfl] at hstep
        rw [Scan.scan_cons_none _ _ hstep] at hread hstate ⊢
        simp only [List.length_cons, Nat.add_right_cancel_iff] at hread
        obtain ⟨event', hfold, hverdict⟩ := ih hread hstate events
        refine ⟨event', hfold, fun _ => ?_⟩
        cases as with
        | nil =>
          obtain ⟨-, rfl⟩ := Prod.mk.inj (Except.ok.inj hfold)
          exact hagain
        | cons b as => exact hverdict (List.cons_ne_nil _ _)
      | false =>
        rw [hagain, if_neg (by simp)] at hstep
        rw [Scan.scan_cons_some _ _ hstep] at hread hstate ⊢
        obtain rfl : as = [] := by simpa using hread
        obtain rfl := Option.some.inj hstate
        exact ⟨events, rfl, fun _ => hagain⟩

/-! ## One turn -/

/-- The octets of one turn as they are read: no NUL in them, and each time fewer than the array
has room for. -/
structure SocketReads (octets : List Byte) (reads : List (List Byte)) : Prop where
  flatten : reads.flatten = octets
  size : ∀ found ∈ reads, found ≠ [] ∧ found.length < socketBufferSize
  free : 0 ∉ octets

/-- What is longer than the memory takes its place. -/
theorem overwrite_of_le {memory bs : List Byte} (h : memory.length ≤ bs.length) :
    overwrite memory bs = bs := by
  rw [overwrite, List.drop_eq_nil_of_le h, List.append_nil]

/-- A read that covers what is left in the array. -/
theorem RunSocket.step_found {s : RunSocket} {found : List Byte} {p : Pop3Parser}
    (hne : found ≠ []) (hsize : found.length < socketBufferSize) (hfree : 0 ∉ found)
    (hstale : s.turn = .server → s.buffer.length ≤ found.length)
    (hread : (Scan.scan (turnStep s.turn) (some s.parser) found).read = found.length)
    (hstate : (Scan.scan (turnStep s.turn) (some s.parser) found).state = some p) :
    ∃ event, s.step found = .ok
      (if (Scan.scan (turnStep s.turn) (some s.parser) found).verdict.isNone then
        ⟨s.turn, p, event, found⟩ else RunSocket.passOn ⟨s.turn, p, event, found⟩,
      [(s.turn, found)]) := by
  obtain ⟨event, hfold, hagain⟩ := foldlM_feedOctet hread hstate s.event
  have hbuffer : overwrite (if s.turn = .client then [] else s.buffer) found = found := by
    refine overwrite_of_le ?_
    split_ifs with hturn
    · exact Nat.zero_le _
    · cases ht : s.turn with
      | server => exact hstale ht
      | client => exact absurd ht hturn
  have hfeed : feedBuffer s.turn found (s.parser, s.event) = .ok (p, event) := by
    rw [feedBuffer, cstr_of_free hfree, hfold]
    exact if_pos hsize
  refine ⟨event, ?_⟩
  rw [RunSocket.step, hbuffer, if_neg hne, if_neg hne, hfeed]
  simp only [ok_bind, hagain hne]

/-- Octets of which the scan reads more than the first part. -/
theorem scan_cut {turn : Turn} {as bs : List Byte} {p p' : Pop3Parser} {verdict : Option Unit}
    (hbs : bs ≠ []) (h : Scan.scan (turnStep turn) (some p) (as ++ bs) =
      ⟨some p', verdict, (as ++ bs).length⟩) :
    ∃ p₁, Scan.scan (turnStep turn) (some p) as = ⟨some p₁, none, as.length⟩ ∧
      Scan.scan (turnStep turn) (some p₁) bs = ⟨some p', verdict, bs.length⟩ := by
  have hpos := List.length_pos_iff.mpr hbs
  have hnone : (Scan.scan (turnStep turn) (some p) as).verdict = none := by
    have hlt : as.length < (Scan.scan (turnStep turn) (some p) (as ++ bs)).read := by
      simp only [h, List.length_append]
      omega
    have htake := Scan.scan_take_verdict_none _ hlt
    rwa [List.take_left] at htake
  have hread := Scan.scan_read_of_none (turnStep turn) hnone
  rw [Scan.scan_append_of_none _ _ hnone] at h
  obtain ⟨p₁, hp₁⟩ : ∃ p₁, (Scan.scan (turnStep turn) (some p) as).state = some p₁ := by
    rw [← Option.ne_none_iff_exists']
    intro hlost
    rw [hlost] at h
    have hstate := congrArg Scan.Outcome.state h
    simp only [scan_turnStep_none] at hstate
    cases hstate
  rw [hp₁] at h
  simp only [Scan.Outcome.mk.injEq, List.length_append, Nat.add_left_cancel_iff] at h
  refine ⟨p₁, ?_, ?_⟩
  · rw [← hp₁, ← hnone, ← hread]
  · rw [← h.1, ← h.2.1, ← h.2.2]

/-- **A turn**: where the scan of what is sent ends with its last octet, it is the other's turn
then, and not before. -/
theorem RunSocket.run_turn {turn : Turn} {octets : List Byte} {reads : List (List Byte)}
    {p p' : Pop3Parser} {verdict : Option Unit} (h : SocketReads octets reads)
    (event : List (ParserEvent Pop3Event)) (buffer : List Byte)
    (hrising : turn = .server → (buffer :: reads).Pairwise (·.length ≤ ·.length))
    (hscan : Scan.scan (turnStep turn) (some p) octets = ⟨some p', verdict, octets.length⟩) :
    ∃ event' buffer', RunSocket.run ⟨turn, p, event, buffer⟩ reads =
      .ok (if verdict.isNone then ⟨turn, p', event', buffer'⟩
        else RunSocket.passOn ⟨turn, p', event', buffer'⟩, reads.map (turn, ·)) := by
  induction reads generalizing octets p buffer event with
  | nil =>
    obtain rfl : [] = octets := h.flatten
    obtain rfl := Option.some.inj (congrArg Scan.Outcome.state hscan)
    obtain rfl : none = verdict := congrArg Scan.Outcome.verdict hscan
    exact ⟨event, buffer, rfl⟩
  | cons found reads ih =>
    have hflatten : found ++ reads.flatten = octets := h.flatten
    subst hflatten
    obtain ⟨hne, hsize⟩ := h.size found List.mem_cons_self
    have hfree := h.free
    rw [List.mem_append, not_or] at hfree
    have hstale : turn = .server → buffer.length ≤ found.length := fun hturn =>
      (List.pairwise_cons.mp (hrising hturn)).1 found List.mem_cons_self
    cases reads with
    | nil =>
      -- the last read
      rw [List.flatten_nil, List.append_nil] at hscan
      obtain ⟨event', hstep⟩ := RunSocket.step_found (s := ⟨turn, p, event, buffer⟩) hne hsize
        hfree.1 hstale (congrArg Scan.Outcome.read hscan) (congrArg Scan.Outcome.state hscan)
      have hverdict := congrArg Scan.Outcome.verdict hscan
      simp only [hverdict] at hstep
      exact ⟨event', found, by rw [RunSocket.run, hstep]; rfl⟩
    | cons next reads =>
      -- the scan goes on with the next read
      have hrest : (next :: reads).flatten ≠ [] := by
        rw [List.flatten_cons]
        exact List.append_ne_nil_of_left_ne_nil (h.size next (by simp)).1 _
      obtain ⟨p₁, hfirst, hnext⟩ := scan_cut hrest hscan
      obtain ⟨event₁, hstep⟩ := RunSocket.step_found (s := ⟨turn, p, event, buffer⟩) hne hsize
        hfree.1 hstale (congrArg Scan.Outcome.read hfirst) (congrArg Scan.Outcome.state hfirst)
      simp only [hfirst, Option.isNone_none, if_true] at hstep
      obtain ⟨event', buffer', hrun⟩ := ih
        ⟨rfl, fun f hf => h.size f (List.mem_cons_of_mem _ hf), hfree.2⟩ event₁ found
        (fun hturn => (List.pairwise_cons.mp (hrising hturn)).2) hnext
      refine ⟨event', buffer', ?_⟩
      rw [RunSocket.run, hstep, ok_bind]
      simp only [hrun]
      rfl

/-! ## A command -/

/-- Where the loop ends with the last octet the parser has read them all. -/
theorem scan_turnStep_state {turn : Turn} {as : List Byte} {s : Pop3Parser}
    (hread : (Scan.scan (turnStep turn) (some s) as).read = as.length) :
    (Scan.scan (turnStep turn) (some s) as).state = pop3ParserRun s as := by
  induction as generalizing s with
  | nil => rfl
  | cons a as ih =>
    cases hfeed : pop3ParserFeed s a with
    | none =>
      have hstep : turnStep turn (some s) a = (none, none) := by simp [turnStep, hfeed]
      have hrun : pop3ParserRun s (a :: as) = none := by
        simp [pop3ParserRun, List.foldlM_cons, hfeed]
      rw [Scan.scan_cons_none _ _ hstep, scan_turnStep_none, hrun]
    | some r =>
      have hstep : turnStep turn (some s) a =
          (some r.1, if again turn r.2 then none else some ()) := turnStep_of_feed hfeed
      rw [pop3ParserRun_cons hfeed]
      cases hagain : again turn r.2 with
      | true =>
        rw [hagain, if_pos rfl] at hstep
        rw [Scan.scan_cons_none _ _ hstep] at hread ⊢
        exact ih (by simpa using hread)
      | false =>
        rw [hagain, if_neg (by simp)] at hstep
        rw [Scan.scan_cons_some _ _ hstep] at hread ⊢
        obtain rfl : as = [] := by simpa using hread
        rfl

/-- The loop goes on behind these octets. -/
theorem scan_append_quiet {turn : Turn} {s : Option Pop3Parser} {s' : Pop3Parser} {as : List Byte}
    (h : Scan.scan (turnStep turn) s as = ⟨some s', none, as.length⟩) (bs : List Byte) :
    Scan.scan (turnStep turn) s (as ++ bs) =
      ⟨(Scan.scan (turnStep turn) (some s') bs).state,
        (Scan.scan (turnStep turn) (some s') bs).verdict,
        as.length + (Scan.scan (turnStep turn) (some s') bs).read⟩ := by
  rw [Scan.scan_append_of_none _ _ (congrArg Scan.Outcome.verdict h), h]

/-- The letters of a keyword are collected. -/
theorem scan_keyword {k : List Byte} (hk : ∀ c ∈ k, IsLetter c) {s : Pop3Parser} {u : List Byte}
    (hs : s.InKeyword) (hcmd : s.Collected u) (hroom : u.length + k.length < cmdSize) :
    ∃ s', Scan.scan (turnStep .client) (some s) k = ⟨some s', none, k.length⟩ ∧ s'.InKeyword := by
  induction k generalizing s u with
  | nil => exact ⟨s, rfl, hs⟩
  | cons c k ih =>
    rw [List.length_cons] at hroom
    have hletter := pop3ParserFeed_letter hs (hk c List.mem_cons_self)
      (by rw [hcmd.2]; omega)
    obtain ⟨s', hscan, hs'⟩ := ih (fun d hd => hk d (List.mem_cons_of_mem _ hd)) (.inr rfl)
      (hcmd.letter (by omega) (toupper c))
      (by rw [List.length_append, List.length_singleton]; omega)
    refine ⟨s', ?_, hs'⟩
    rw [Scan.scan_cons_none _ _ (turnStep_of_feed hletter), hscan]
    rfl

/-- The arguments are passed over. -/
theorem scan_args {a : List Byte} (ha : CR ∉ a) {s : Pop3Parser}
    (hs : s.currParser = some (.command .arg)) :
    Scan.scan (turnStep .client) (some s) a = ⟨some s, none, a.length⟩ := by
  induction a with
  | nil => rfl
  | cons c a ih =>
    rw [List.mem_cons, not_or] at ha
    have hstay : { s with currParser := some (.command .arg) : Pop3Parser } = s := by rw [← hs]
    have hfeed : pop3ParserFeed s c = some (s, [Pop3Event.ignore.alone c]) := by
      simp [pop3ParserFeed, Pop3Parser.chosen, hs, CurrParser.feed, parserFeed, commandDefinition,
        When.holds, List.find?, Ne.symm ha.1, Pop3Event.alone, hstay]
    rw [Scan.scan_cons_none _ _ (turnStep_of_feed hfeed), ih ha.2]
    rfl

/-- The CRLF ends the turn. -/
theorem scan_crlf {s : Pop3Parser} (hs : s.InKeyword ∨ s.currParser = some (.command .arg)) :
    (Scan.scan (turnStep .client) (some s) CRLF).verdict = some () ∧
      (Scan.scan (turnStep .client) (some s) CRLF).read = 2 := by
  have hcr : pop3ParserFeed s CR = some ({ s with currParser := some (.command .cr) },
      [Pop3Event.ignore.alone CR]) := by
    rcases hs with hs | hs
    · rw [pop3ParserFeed, hs.chosen (by decide) (by decide)]
      rfl
    · rw [pop3ParserFeed, Pop3Parser.chosen, hs]
      rfl
  have hlf : pop3ParserFeed { s with currParser := some (.command .cr) } LF =
      some ({ s with cmdType := some (getCommandType s.cmd), currParser := none },
        [Pop3Event.setCmd.alone LF]) := rfl
  rw [Scan.scan_cons_none _ _ (turnStep_of_feed hcr),
    Scan.scan_cons_some _ _ (turnStep_of_feed hlf)]
  exact ⟨rfl, rfl⟩

/-- **A command** ends with its last octet. -/
theorem scan_commandLine (s₀ : Pop3Parser) (cmd : ClientCommand) :
    ∃ s, Scan.scan (turnStep .client) (some (pop3ParserReset s₀)) cmd.line =
        ⟨some s, some (), cmd.line.length⟩ ∧
      pop3ParserRun (pop3ParserReset s₀) cmd.line = some s := by
  have hshort := cmd.short
  obtain ⟨s, hrun, -⟩ := pop3ParserRun_line s₀ cmd
  suffices hends : (Scan.scan (turnStep .client) (some (pop3ParserReset s₀)) cmd.line).verdict =
      some () ∧ (Scan.scan (turnStep .client) (some (pop3ParserReset s₀)) cmd.line).read =
        cmd.line.length by
    refine ⟨s, ?_, hrun⟩
    rw [← hrun, ← scan_turnStep_state hends.2, ← hends.1, ← hends.2]
  obtain ⟨s', hkeyword, hs'⟩ := scan_keyword cmd.letters (s := pop3ParserReset s₀) (u := [])
    (.inl rfl) ⟨rfl, rfl⟩ (by rw [List.length_nil, cmdSize]; omega)
  rw [ClientCommand.line, List.append_assoc, scan_append_quiet hkeyword]
  cases hcase : cmd.args with
  | none =>
    obtain ⟨hverdict, hread⟩ := scan_crlf (.inl hs')
    rw [Option.elim_none, List.nil_append]
    exact ⟨hverdict, by simp only [hread, List.length_append, List.length_cons, List.length_nil]⟩
  | some a =>
    obtain ⟨hverdict, hread⟩ := scan_crlf
      (s := { s' with currParser := some (.command .arg), hasArgs := true }) (.inr rfl)
    have hargs := scan_args (cmd.free a hcase)
      (s := { s' with currParser := some (.command .arg), hasArgs := true }) rfl
    rw [Option.elim_some, List.cons_append,
      Scan.scan_cons_none _ _ (turnStep_of_feed (pop3ParserFeed_sp hs')), scan_append_quiet hargs]
    exact ⟨hverdict, by simp only [hread, List.length_append, List.length_cons, List.length_nil]⟩

/-! ## A reply -/

/-- **A reply** that can be read ends with its last octet. -/
theorem scan_reply {s : Pop3Parser} (hs : s.currParser = none) (r : ServerReply) {u b : List Byte}
    (hu : Pattern.Pieces CRLF u)
    (hb : if Pop3Parser.bodyFollows { s with answerStatus := s.answerStatus || r.status = .ok } then
      Pattern.CleanEnd terminator (CRLF ++ DOT :: b) (b.length + 3) else b = []) :
    ∃ s', Scan.scan (turnStep .server) (some s) (r.sign :: (u ++ CRLF ++ b)) =
      ⟨some s', some (), (r.sign :: (u ++ CRLF ++ b)).length⟩ := by
  obtain ⟨p, hp, hsign⟩ := replyStep_sign hs r
  obtain ⟨hverdict, hread⟩ := (scan_replyStep_behindSign (s := { s with
    currParser := some (.singleline p), answerStatus := s.answerStatus || r.status = .ok })
    ⟨p, hp, rfl⟩ hu b).mpr hb
  rw [turnStep_server, Scan.scan_cons_none _ _ hsign, hverdict, hread]
  obtain ⟨s', hstate⟩ : ∃ s', (Scan.scan replyStep (some { s with
      currParser := some (.singleline p), answerStatus := s.answerStatus || r.status = .ok })
      (u ++ CRLF ++ b)).state = some s' := by
    rw [← turnStep_server] at hverdict ⊢
    exact scan_turnStep_ends hverdict
  exact ⟨s', by rw [hstate, List.length_cons]⟩

/-! ## A session -/

/-- A command and its reply as they are read. -/
structure RelayedExchange where
  cmd : ClientCommand
  reply : ServerReply
  sent : List (List Byte)
  got : List (List Byte)

/-- The reply can be read, and no read of it finds less than the one before. -/
structure RelayedExchange.Fits (x : RelayedExchange) : Prop where
  sent : SocketReads x.cmd.line x.sent
  got : SocketReads (x.reply.octets x.cmd) x.got
  readable : x.reply.Readable x.cmd
  rising : x.got.Pairwise (·.length ≤ ·.length)

/-- What is read of it, and who it is read from. -/
def RelayedExchange.relayed (x : RelayedExchange) : List Relayed :=
  x.sent.map (.client, ·) ++ x.got.map (.server, ·)

/-- Reads behind reads. -/
theorem RunSocket.run_append {s s' : RunSocket} {reads more : List (List Byte)}
    {relayed : List Relayed} (h : s.run reads = .ok (s', relayed)) :
    s.run (reads ++ more) = (s'.run more).map fun r => (r.1, relayed ++ r.2) := by
  induction reads generalizing s relayed with
  | nil =>
    obtain ⟨rfl, rfl⟩ := Prod.mk.inj (Except.ok.inj h)
    rw [List.nil_append]
    cases s.run more <;> rfl
  | cons found reads ih =>
    rw [RunSocket.run] at h
    obtain ⟨⟨s₁, first⟩, hstep, h⟩ := bind_eq_ok.mp h
    obtain ⟨⟨s₂, rest⟩, hrun, h⟩ := bind_eq_ok.mp h
    obtain ⟨rfl, rfl⟩ := Prod.mk.inj (Except.ok.inj h)
    rw [List.cons_append, RunSocket.run, hstep, ok_bind]
    simp only [ih hrun]
    cases s₂.run more with
    | error e => rfl
    | ok r =>
      show Except.ok (r.1, first ++ (rest ++ r.2)) = Except.ok (r.1, first ++ rest ++ r.2)
      rw [List.append_assoc]

/-- Behind a command, a reply that can be read ends with its last octet. -/
theorem scan_readable {p s : Pop3Parser} {cmd : ClientCommand} {r : ServerReply}
    (hcmd : pop3ParserRun (pop3ParserReset p) cmd.line = some s) (hr : r.Readable cmd) :
    ∃ s', Scan.scan (turnStep .server) (some s) (r.octets cmd) =
      ⟨some s', some (), (r.octets cmd).length⟩ := by
  obtain ⟨s', hline, hcurr, htype, hargs, hstatus⟩ := pop3ParserRun_line p cmd
  obtain rfl := Option.some.inj (hcmd.symm.trans hline)
  obtain ⟨u, b, hu, hbehind, hb⟩ := hr
  have hfollows : Pop3Parser.bodyFollows { s with
      answerStatus := s.answerStatus || r.status = .ok } = r.hasBody cmd := by
    simp only [Pop3Parser.bodyFollows, ServerReply.hasBody, ClientCommand.callsForBody, hstatus,
      htype, hargs, Bool.false_or, Option.some_inj, Option.not_isSome, Bool.and_comm]
  rw [ServerReply.octets, hbehind]
  exact scan_reply hcurr r hu (by rw [hfollows]; exact hb)

/-- **One exchange**: the command goes to the server and the reply to the client. -/
theorem RunSocket.run_exchange {x : RelayedExchange} (h : x.Fits) (p : Pop3Parser)
    (event : List (ParserEvent Pop3Event)) (buffer : List Byte) :
    ∃ p' event' buffer', RunSocket.run ⟨.client, pop3ParserReset p, event, buffer⟩
      (x.sent ++ x.got) = .ok (⟨.client, pop3ParserReset p', event', buffer'⟩, x.relayed) := by
  obtain ⟨s, hcommand, hrun⟩ := scan_commandLine p x.cmd
  obtain ⟨event₁, buffer₁, hsent⟩ :=
    RunSocket.run_turn h.sent event buffer (fun hturn => by cases hturn) hcommand
  obtain ⟨p', hreply⟩ := scan_readable hrun h.readable
  obtain ⟨event', buffer', hgot⟩ := RunSocket.run_turn h.got event₁ []
    (fun _ => List.pairwise_cons.mpr ⟨fun _ _ => Nat.zero_le _, h.rising⟩) hreply
  refine ⟨p', event', buffer', ?_⟩
  rw [RunSocket.run_append hsent]
  show (RunSocket.run ⟨.server, s, event₁, []⟩ x.got).map _ = _
  rw [hgot]
  rfl

/-- The exchanges one after the other. -/
theorem RunSocket.run_exchanges {xs : List RelayedExchange} (h : ∀ x ∈ xs, x.Fits) (p : Pop3Parser)
    (event : List (ParserEvent Pop3Event)) (buffer : List Byte) :
    ∃ p' event' buffer', RunSocket.run ⟨.client, pop3ParserReset p, event, buffer⟩
      (xs.flatMap fun x => x.sent ++ x.got) =
        .ok (⟨.client, pop3ParserReset p', event', buffer'⟩,
          xs.flatMap RelayedExchange.relayed) := by
  induction xs generalizing p event buffer with
  | nil => exact ⟨p, event, buffer, rfl⟩
  | cons x xs ih =>
    obtain ⟨p₁, event₁, buffer₁, hfirst⟩ :=
      RunSocket.run_exchange (h x List.mem_cons_self) p event buffer
    obtain ⟨p', event', buffer', hrest⟩ :=
      ih (fun y hy => h y (List.mem_cons_of_mem x hy)) p₁ event₁ buffer₁
    refine ⟨p', event', buffer', ?_⟩
    rw [List.flatMap_cons, RunSocket.run_append hfirst, hrest]
    rfl

/-- The greeting is read like a reply to the last command of the clients before. -/
theorem scan_greeting {p : Pop3Parser} (hidle : p.currParser = none) {u : List Byte}
    (hu : Pattern.Pieces CRLF u) :
    ∃ p', Scan.scan (turnStep .server) (some p) (PLUS :: (u ++ CRLF)) =
      ⟨some p', if Pop3Parser.bodyFollows { p with answerStatus := true } then none else some (),
        (PLUS :: (u ++ CRLF)).length⟩ := by
  let r : ServerReply := ⟨.ok, [], [], by decide, by decide⟩
  have hanswer : (p.answerStatus || r.status = .ok) = true := Bool.or_true _
  cases hbody : Pop3Parser.bodyFollows { p with answerStatus := true } with
  | false =>
    obtain ⟨p', hscan⟩ := scan_reply (b := []) hidle r hu (by rw [hanswer, hbody]; rfl)
    rw [List.append_nil] at hscan
    exact ⟨p', hscan⟩
  | true =>
    obtain ⟨q, hq, hsign⟩ := replyStep_sign hidle r
    rw [hanswer] at hsign
    obtain ⟨q', hq', hpieces⟩ := scan_replyStep_pieces hu (s := { p with
      currParser := some (.singleline q), answerStatus := true }) ⟨q, hq, rfl⟩ CRLF
    have hcr := replyStep_cr (s := { p with
      currParser := some (.singleline q'), answerStatus := true }) ⟨q', hq', rfl⟩
    have hlf := replyStep_cr_lf (s := { p with
      currParser := some (.singleline .cr), answerStatus := true }) rfl
    have hfollows : Pop3Parser.bodyFollows { p with
        currParser := some (.singleline .cr), answerStatus := true } = true := hbody
    rw [if_pos hfollows] at hlf
    have hplus : r.sign = PLUS := rfl
    rw [hplus] at hsign
    rw [turnStep_server, Scan.scan_cons_none _ _ hsign, hpieces, Scan.scan_cons_none _ _ hcr,
      Scan.scan_cons_none _ _ hlf]
    refine ⟨{ p with currParser := some (.multiline .crlfdot), answerStatus := false }, ?_⟩
    rw [Scan.scan_nil, List.length_cons, List.length_append]
    rfl

/-- Who is read from first. -/
theorem RunSocket.run_head {s t : RunSocket} {found : List Byte} {reads : List (List Byte)}
    {relayed : List Relayed} (hne : found ≠ []) (h : s.run (found :: reads) = .ok (t, relayed)) :
    relayed.head? = some (s.turn, found) := by
  rw [RunSocket.run] at h
  obtain ⟨⟨s₁, first⟩, hstep, h⟩ := bind_eq_ok.mp h
  obtain ⟨⟨s₂, rest⟩, -, h⟩ := bind_eq_ok.mp h
  obtain ⟨-, rfl⟩ := Prod.mk.inj (Except.ok.inj h)
  rw [RunSocket.step] at hstep
  simp only [if_neg hne] at hstep
  obtain ⟨_, -, hstep⟩ := bind_eq_ok.mp hstep
  obtain ⟨-, rfl⟩ := Prod.mk.inj (Except.ok.inj hstep)
  rfl

/-- What is sent is read, and the first read is not empty. -/
theorem SocketReads.ne_nil {octets : List Byte} {reads : List (List Byte)}
    (h : SocketReads octets reads) (hne : octets ≠ []) :
    ∃ found rest, reads = found :: rest ∧ found ≠ [] := by
  cases reads with
  | nil => exact absurd h.flatten.symm hne
  | cons found rest => exact ⟨found, rest, rfl, (h.size found List.mem_cons_self).1⟩

/-- The last state of a parser of replies. -/
def CurrParser.Last (p : CurrParser) : Prop := p = .singleline .crlf ∨ p = .multiline .crlfdotcrlf

/-- Behind the end of a reply. -/
def Pop3Parser.Ended (s : Pop3Parser) : Prop := ∃ p : CurrParser, p.Last ∧ s.currParser = some p

/-- What comes behind the end of a reply is ignored. -/
theorem Pop3Parser.Ended.feed {s : Pop3Parser} (h : s.Ended) (c : Byte) :
    pop3ParserFeed s c = some (s, [Pop3Event.ignore.alone c]) := by
  obtain ⟨p, hp, hs⟩ := h
  have hstay : { s with currParser := some p : Pop3Parser } = s := by rw [← hs]
  have hfeed : pop3ParserFeed s c =
      some ({ s with currParser := some p }, [Pop3Event.ignore.alone c]) := by
    rw [pop3ParserFeed, Pop3Parser.chosen, hs]
    rcases hp with rfl | rfl <;> rfl
  rw [hfeed, hstay]

/-- A parser with which the end of a reply is signalled has reached its last state. -/
theorem CurrParser.feed_end (p : CurrParser) (c : Byte) :
    signalsEnd (p.feed c).2 = true → (p.feed c).1.Last := by
  cases p with
  | command q =>
    refine parserFeed_of_transitions (d := commandDefinition) (s := q)
      (P := fun dest events => signalsEnd events = true → CurrParser.Last (.command dest)) ?_ ?_
    · cases q <;> simp [commandDefinition]
    · intro t ht _ hend
      cases q <;> simp only [commandDefinition, List.mem_cons, List.not_mem_nil, or_false] at ht
      case kwrd => rcases ht with rfl | rfl | rfl <;> cases hend
      case arg => rcases ht with rfl | rfl <;> cases hend
      case cr => rcases ht with rfl | rfl <;> cases hend
      all_goals
        subst ht
        cases hend
  | singleline q =>
    refine parserFeed_of_transitions (d := singlelineDefinition) (s := q)
      (P := fun dest events => signalsEnd events = true → CurrParser.Last (.singleline dest)) ?_ ?_
    · cases q <;> simp [singlelineDefinition]
    · intro t ht _ hend
      cases q <;> simp only [singlelineDefinition, List.mem_cons, List.not_mem_nil, or_false] at ht
      case cr =>
        rcases ht with rfl | rfl
        · exact .inl rfl
        · cases hend
      case stat => rcases ht with rfl | rfl | rfl <;> cases hend
      case trap | crlf =>
        subst ht
        cases hend
      all_goals rcases ht with rfl | rfl <;> cases hend
  | multiline q =>
    refine parserFeed_of_transitions (d := multilineDefinition) (s := q)
      (P := fun dest events => signalsEnd events = true → CurrParser.Last (.multiline dest)) ?_ ?_
    · cases q <;> simp [multilineDefinition]
    · intro t ht _ hend
      cases q <;> simp only [multilineDefinition, List.mem_cons, List.not_mem_nil, or_false] at ht
      case crlfdotcr =>
        rcases ht with rfl | rfl
        · exact .inr rfl
        · cases hend
      case crlfdotcrlf =>
        subst ht
        cases hend
      all_goals rcases ht with rfl | rfl <;> cases hend

/-- Behind the end of a reply the parser has ended. -/
theorem pop3ParserFeed_end {s s' : Pop3Parser} {c : Byte} {events : List (ParserEvent Pop3Event)}
    (h : pop3ParserFeed s c = some (s', events)) (hend : signalsEnd events = true) : s'.Ended := by
  unfold pop3ParserFeed at h
  cases hchosen : s.chosen c with
  | none => exact absurd hchosen (s.chosen_ne_none c)
  | some p =>
    have hfollowed := p.feed_followed c
    have hp := p.feed_end c
    simp only [hchosen] at h
    cases hevents : (p.feed c).2 with
    | nil => exact absurd hevents hfollowed.ne_nil
    | cons e next =>
      rw [hevents] at hp hfollowed
      simp only [hevents] at h
      have hnil : e.type ≠ .datStuffed → next = [] := by
        intro hne
        by_contra hnext
        exact hne (hfollowed.first hnext e rfl)
      split at h
      case h_1 =>
        split_ifs at h
        obtain ⟨rfl, rfl⟩ := Prod.mk.inj (Option.some.inj h)
        exact ⟨_, hp hend, rfl⟩
      case h_3 htype =>
        obtain ⟨rfl, rfl⟩ := Prod.mk.inj (Option.some.inj h)
        obtain rfl := hnil (by rw [htype]; decide)
        rw [signalsEnd, htype] at hend
        cases hend
      case h_5 htype =>
        obtain rfl := hnil (by rw [htype]; decide)
        split_ifs at h <;> obtain ⟨rfl, rfl⟩ := Prod.mk.inj (Option.some.inj h)
        · cases hend
        · exact ⟨_, hp hend, rfl⟩
      all_goals
        obtain ⟨rfl, rfl⟩ := Prod.mk.inj (Option.some.inj h)
        exact ⟨_, hp hend, rfl⟩

/-- The octets of the reads before this one are fed behind the end of the reply. -/
theorem Pop3Parser.Ended.foldlM {s : Pop3Parser} (h : s.Ended) {stale : List Byte}
    (hne : stale ≠ []) (event : List (ParserEvent Pop3Event)) :
    ∃ event', stale.foldlM (feedOctet .server) (s, event) = .ok (s, event') ∧
      again .server event' = true := by
  induction stale generalizing event with
  | nil => exact absurd rfl hne
  | cons c stale ih =>
    have hoctet : feedOctet .server (s, event) c = .ok (s, [Pop3Event.ignore.alone c]) := by
      simp [feedOctet, h.feed c]
    rw [List.foldlM_cons, hoctet, ok_bind]
    cases stale with
    | nil => exact ⟨_, rfl, rfl⟩
    | cons d stale => exact ih (List.cons_ne_nil _ _) _

/-- So it has behind a turn of the server. -/
theorem scan_ended {as : List Byte} {s : Option Pop3Parser} {s' : Pop3Parser}
    (hverdict : (Scan.scan (turnStep .server) s as).verdict = some ())
    (hstate : (Scan.scan (turnStep .server) s as).state = some s') : s'.Ended := by
  induction as generalizing s with
  | nil => cases hverdict
  | cons a as ih =>
    rcases hstep : turnStep .server s a with ⟨s₁, r⟩
    cases r with
    | none =>
      rw [Scan.scan_cons_none _ _ hstep] at hverdict hstate
      exact ih hverdict hstate
    | some r =>
      rw [Scan.scan_cons_some _ _ hstep] at hstate
      rw [turnStep_server, replyStep] at hstep
      cases hfeed : s.bind (pop3ParserFeed · a) with
      | none =>
        simp only [hfeed] at hstep
        cases hstep
      | some r' =>
        obtain ⟨p, -, hfeed'⟩ := Option.bind_eq_some_iff.mp hfeed
        simp only [hfeed, Prod.mk.injEq] at hstep
        have hend : signalsEnd r'.2 = true := by
          by_contra hnot
          rw [if_neg hnot] at hstep
          cases hstep.2
        have hs' : r'.1 = s' := Option.some.inj (hstep.1.trans hstate)
        exact hs' ▸ pop3ParserFeed_end hfeed' hend

/-- While a reply goes on, a `read` that finds nothing changes nothing. -/
theorem RunSocket.step_nothing {s : RunSocket} (hturn : s.turn = .server)
    (hagain : again .server s.event = true) : s.step [] = .ok (s, []) := by
  have hbuffer : overwrite (if s.turn = .client then [] else s.buffer) [] = s.buffer := by
    rw [hturn, if_neg (by decide)]
    rfl
  have hagain : again s.turn s.event = true := by
    rw [hturn]
    exact hagain
  rw [RunSocket.step, hbuffer, if_pos rfl, if_pos rfl]
  simp only [ok_bind, hagain, if_true]

/-- A read that leaves some of the read before in the array, behind which the reply ends. -/
theorem RunSocket.step_stale {s : RunSocket} {found : List Byte} {p : Pop3Parser}
    (hturn : s.turn = .server) (hne : found ≠ []) (hsize : s.buffer.length < socketBufferSize)
    (hfound : 0 ∉ found) (hbuffer : 0 ∉ s.buffer) (hstale : found.length < s.buffer.length)
    (hscan : Scan.scan (turnStep .server) (some s.parser) found = ⟨some p, some (), found.length⟩) :
    ∃ event, again .server event = true ∧ s.step found =
      .ok (⟨.server, p, event, overwrite s.buffer found⟩, [(.server, found)]) := by
  obtain ⟨turn, parser, event₀, buffer⟩ := s
  obtain rfl : turn = .server := hturn
  simp only at hsize hbuffer hstale hscan
  have hleft : buffer.drop found.length ≠ [] := by
    intro hnil
    rw [List.drop_eq_nil_iff] at hnil
    omega
  obtain ⟨event₁, hfirst, -⟩ := foldlM_feedOctet (congrArg Scan.Outcome.read hscan)
    (congrArg Scan.Outcome.state hscan) event₀
  have hended := scan_ended (congrArg Scan.Outcome.verdict hscan)
    (congrArg Scan.Outcome.state hscan)
  obtain ⟨event, hrest, hagain⟩ := hended.foldlM hleft event₁
  have hfree : 0 ∉ overwrite buffer found := by
    rw [overwrite, List.mem_append, not_or]
    exact ⟨hfound, fun h => hbuffer (List.mem_of_mem_drop h)⟩
  have hlen : (overwrite buffer found).length < socketBufferSize := by
    rw [overwrite, List.length_append, List.length_drop]
    omega
  have hfold : (overwrite buffer found).foldlM (feedOctet .server) (parser, event₀) =
      .ok (p, event) := by
    rw [overwrite, List.foldlM_append, hfirst, ok_bind, hrest]
  have hfeed : feedBuffer .server (overwrite buffer found) (parser, event₀) = .ok (p, event) := by
    rw [feedBuffer, cstr_of_free hfree, hfold]
    exact if_pos hlen
  refine ⟨event, hagain, ?_⟩
  rw [RunSocket.step, if_neg hne, if_neg hne]
  simp only [reduceCtorEq, if_false, hfeed, ok_bind, hagain, if_true]

end Pop3Proxy
