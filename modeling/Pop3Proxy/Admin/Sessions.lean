/-
# The sessions of the operators

Any number of operators, each with a client of its own and a connection to the service, type
lines in any order.  The service does one request after the other, and no array of anybody
matters: what it comes to depends on the lines and their order alone.
-/
import Mathlib.Logic.Function.Basic
import Pop3Proxy.Admin.Requests

namespace Pop3Proxy

open Traced

/-! ## The clients and the service -/

/-- The array of a client, and the one of its connection. -/
structure Operator where
  client : ClientMemory
  admin : AdminMemory

/-- The operators, and what they share. -/
structure AdminSystem where
  operators : ℕ → Operator
  globals : Globals

/-- Who types, what there is on the standard input, and what the answer holds when nothing is
assigned to it. -/
structure Round where
  operator : ℕ
  stdin : List Byte
  typed : stdin ≠ []
  unset : Byte

/-- What a client prints. -/
inductive Shown where
  /-- `Invalid command` -/
  | invalidCommand
  /-- `Bad request response` -/
  | badRequest
  /-- `Proxy says: all OK` -/
  | allOk
  deriving DecidableEq, Repr

/-- Whose memory it is: that of a client, or that of the service, for a request with so many
parameters. -/
inductive SessionAccess where
  | client (a : ClientAccess)
  | service (n : ℕ) (a : Access)
  deriving DecidableEq, Repr

/-- Who does what has no meaning. -/
inductive SessionFault where
  | client
  | service
  deriving DecidableEq, Repr

/-- Code of the clients and the service. -/
abbrev SessionM := Traced SessionAccess SessionFault

/-- The clients stay within their arrays, and the service where a request takes it. -/
def SessionAccess.Reaches : SessionAccess → Prop
  | .client a => a.Inside
  | .service n a => a.Reaches n

/-- A message comes whole. -/
def recvMessage (message : List Byte) : Option Received :=
  if h : 1 ≤ message.length ∧ message.length ≤ maxBuffer then some ⟨message, h.1, h.2⟩ else none

/-- What is printed for the answer. -/
def shownAnswer (response : Byte) : Shown := if response = 0x00 then .badRequest else .allOk

/-- A request is handled, memory being given and the answer sent. -/
def AdminSystem.handle (s : AdminSystem) (r : Round) (message : List Byte) :
    SessionM (Shown × AdminSystem) := do
  let o := s.operators r.operator
  let (_, admin, globals) ←
    (requestRead (recvMessage message) ⟨true, r.unset, true⟩ o.admin s.globals).relabel
      (SessionAccess.service (message.getD 1 0).toNat) fun _ => .service
  pure (shownAnswer (admin.octets.headD 0), {
    operators := Function.update s.operators r.operator ⟨o.client.after r.stdin, admin⟩
    globals := globals })

/-- One round of a client. -/
def AdminSystem.round (s : AdminSystem) (r : Round) : SessionM (Shown × AdminSystem) := do
  let o := s.operators r.operator
  let sent ← (clientRound r.stdin o.client).relabel SessionAccess.client fun _ => .client
  match sent with
  | none => pure (.invalidCommand, { s with
      operators := Function.update s.operators r.operator
        { o with client := o.client.after r.stdin } })
  | some message => s.handle r message

/-- The rounds in the order they come. -/
def AdminSystem.run : AdminSystem → List Round → SessionM (List Shown × AdminSystem)
  | s, [] => pure ([], s)
  | s, r :: rs => do
    let (shown, s) ← s.round r
    let (more, s) ← AdminSystem.run s rs
    pure (shown :: more, s)

/-! ## What they come to -/

/-- The words of the line. -/
def Round.words (r : Round) : List (List Byte) := Pop3Proxy.words (fgets 1000 r.stdin [])

/-- What is printed for a line. -/
def Round.shown (r : Round) : Shown :=
  match AdminRequest.ofWords r.words with
  | none => .invalidCommand
  | some q => shownAnswer (q.answer r.unset)

/-- What the lines ask for. -/
def asked (rounds : List Round) : List AdminRequest :=
  rounds.filterMap fun r => AdminRequest.ofWords r.words

instance (argv : List (List Byte)) : Decidable (Manageable argv) :=
  decidable_of_iff (¬ Dangling argv ∧ argv.length ≤ 6) ⟨fun h => ⟨h.1, h.2⟩, fun h => ⟨h.1, h.2⟩⟩

section
variable {r : Round} {q : AdminRequest}

/-- What was in the array before a line was typed does not matter. -/
theorem Round.words_eq (r : Round) (temporary : List Byte) :
    Pop3Proxy.words (fgets 1000 r.stdin temporary) = r.words := by
  rw [Round.words, fgets, fgets, if_neg r.typed, if_neg r.typed]

/-- A round of a line that is no command. -/
theorem AdminSystem.round_invalid (s : AdminSystem) (h : Manageable r.words)
    (hq : AdminRequest.ofWords r.words = none) :
    (s.round r).All SessionAccess.Reaches ∧
      ∃ operators, (s.round r).result = .ok (r.shown, ⟨operators, s.globals⟩) := by
  obtain ⟨hinside, hresult⟩ :=
    clientRound_invalid (r.words_eq (s.operators r.operator).client.line) h hq
  have hsent : ((clientRound r.stdin (s.operators r.operator).client).relabel SessionAccess.client
      fun _ => SessionFault.client).result = .ok none := by rw [relabel, hresult]; rfl
  rw [AdminSystem.round]
  refine ⟨all_bind.mpr ⟨all_relabel.mpr hinside, fun sent hs => ?_⟩,
    Function.update s.operators r.operator { s.operators r.operator with
      client := (s.operators r.operator).client.after r.stdin }, ?_⟩
  · obtain rfl := Except.ok.inj (hsent.symm.trans hs)
    exact all_pure
  · rw [bind_of_ok hsent, Round.shown, hq]
    rfl

/-- **The request of a line** reaches the service. -/
theorem AdminSystem.round_request (s : AdminSystem) (h : Manageable r.words)
    (hq : AdminRequest.ofWords r.words = some q) (hlost : ¬ q.Lost s.globals) :
    (s.round r).All SessionAccess.Reaches ∧
      ∃ operators, (s.round r).result = .ok (r.shown, ⟨operators, q.effect s.globals⟩) := by
  obtain ⟨hinside, rest, hresult, hlen⟩ :=
    clientRound_message (r.words_eq (s.operators r.operator).client.line) h hq
  have hsent : ((clientRound r.stdin (s.operators r.operator).client).relabel SessionAccess.client
      fun _ => SessionFault.client).result = .ok (some (q.message rest)) := by
    rw [relabel, hresult]
    rfl
  -- the words behind the fourth have no NUL, and there are at most two of them
  have hsub := AdminRequest.parameters_sublist hq
  have hnul : ∀ t ∈ q.parameters, (0 : Byte) ∉ t := fun t ht =>
    noNul_words (List.mem_of_mem_drop (hsub.subset ht))
  have hcount : q.parameters.length < 256 := by
    have hle := hsub.length_le
    have hroom := h.room
    rw [List.length_drop] at hle
    omega
  have hmessage : 1 ≤ (q.message rest).length ∧ (q.message rest).length ≤ maxBuffer := by
    rw [hlen]
    exact ⟨by decide, Nat.le_refl _⟩
  have hrecv : recvMessage (q.message rest) = some ⟨q.message rest, hmessage.1, hmessage.2⟩ :=
    dif_pos hmessage
  have hannounced : ((q.message rest).getD 1 0).toNat = q.parameters.length := by
    show (UInt8.ofNat q.parameters.length).toNat = _
    rw [UInt8.toNat_ofNat']
    exact Nat.mod_eq_of_lt hcount
  obtain ⟨hreaches, state, m', hread, hhead⟩ :=
    requestRead_effect (r := ⟨q.message rest, hmessage.1, hmessage.2⟩) hnul hcount rfl r.unset
      true (s.operators r.operator).admin hlost
  rw [AdminSystem.round]
  refine ⟨all_bind.mpr ⟨all_relabel.mpr hinside, fun sent hs => ?_⟩,
    Function.update s.operators r.operator
      ⟨(s.operators r.operator).client.after r.stdin, m'⟩, ?_⟩
  · obtain rfl := Except.ok.inj (hsent.symm.trans hs)
    show (s.handle r (q.message rest)).All _
    rw [AdminSystem.handle, hrecv, hannounced]
    exact all_bind.mpr ⟨all_relabel.mpr hreaches, fun _ _ => all_pure⟩
  · have hheadD : m'.octets.headD 0 = q.answer r.unset := by
      rw [List.headD_eq_head?_getD, hhead]
      rfl
    have hhandled : ((requestRead (some ⟨q.message rest, hmessage.1, hmessage.2⟩)
        ⟨true, r.unset, true⟩ (s.operators r.operator).admin s.globals).relabel
          (SessionAccess.service q.parameters.length) fun _ => SessionFault.service).result =
        .ok (state, m', q.effect s.globals) := by
      rw [relabel, hread]
      rfl
    rw [bind_of_ok hsent]
    show (s.handle r (q.message rest)).result = _
    rw [AdminSystem.handle, hrecv, hannounced, bind_of_ok hhandled, Round.shown, hq]
    show Except.ok (shownAnswer (m'.octets.headD 0), _) = _
    rw [hheadD]

end

/-! ## The history -/

/-- The list a request makes. -/
def AdminRequest.banned : AdminRequest → Option (List Byte)
  | ban type types => some ([COMMA].intercalate (type :: types))
  | _ => none

/-- The octets a request counts. -/
def AdminRequest.counted : AdminRequest → ℕ
  | ban type types => 2 + (type :: types).flatten.length
  | metrics _ => 2
  | _ => 0

/-- There is a list whenever it is asked for: one from before, or one of a request before. -/
def ListsThere (g : Globals) (qs : List AdminRequest) : Prop :=
  ∀ before after, qs = before ++ .transStatus :: after →
    g.filterMedias ≠ none ∨ ∃ q ∈ before, q.banned ≠ none

section
variable {g : Globals} {q : AdminRequest} {qs : List AdminRequest}

/-- A ban sets the list, and nothing else does. -/
theorem AdminRequest.effect_filterMedias (g : Globals) (q : AdminRequest) :
    (q.effect g).filterMedias = q.banned.or g.filterMedias := by
  cases q <;> rfl

/-- What is counted is added. -/
theorem AdminRequest.effect_totalBytesTransfered (g : Globals) (q : AdminRequest) :
    (q.effect g).totalBytesTransfered = g.totalBytesTransfered + q.counted := by
  cases q with
  | ban type types => exact Nat.add_assoc _ _ _
  | _ => rfl

/-- Nothing is asked for. -/
theorem ListsThere.nil : ListsThere g [] := by
  intro before after h
  exact absurd h (by simp)

/-- One request before the others. -/
theorem listsThere_cons : ListsThere g (q :: qs) ↔ ¬ q.Lost g ∧ ListsThere (q.effect g) qs := by
  constructor
  · intro h
    refine ⟨?_, fun before after heq => ?_⟩
    · rintro ⟨rfl, hnone⟩
      rcases h [] qs rfl with hsome | ⟨p, hp, -⟩
      · exact hsome hnone
      · exact absurd hp List.not_mem_nil
    · rw [q.effect_filterMedias]
      rcases h (q :: before) after (by rw [heq]; rfl) with hsome | ⟨p, hp, hbanned⟩
      · refine .inl fun hnone => hsome ?_
        exact (Option.or_eq_none_iff.mp hnone).2
      · rcases List.mem_cons.mp hp with rfl | hp
        · exact .inl fun hnone => hbanned (Option.or_eq_none_iff.mp hnone).1
        · exact .inr ⟨p, hp, hbanned⟩
  · rintro ⟨hlost, h⟩ before after heq
    cases before with
    | nil =>
      obtain ⟨rfl, -⟩ := List.cons.inj heq
      exact .inl fun hnone => hlost ⟨rfl, hnone⟩
    | cons p before =>
      obtain ⟨rfl, hrest⟩ := List.cons.inj heq
      rcases h before after hrest with hsome | ⟨p, hp, hbanned⟩
      · rw [q.effect_filterMedias] at hsome
        cases hq : q.banned with
        | some medias => exact .inr ⟨q, List.mem_cons_self, by simp [hq]⟩
        | none =>
          rw [hq, Option.none_or] at hsome
          exact .inl hsome
      · exact .inr ⟨p, List.mem_cons_of_mem q hp, hbanned⟩

/-- What is left of the requests in the end: the last list, and the octets of all. -/
def Globals.LeftBy (g' g : Globals) (qs : List AdminRequest) : Prop :=
  g'.filterMedias = (qs.filterMap AdminRequest.banned).getLast?.or g.filterMedias ∧
    g'.totalBytesTransfered = g.totalBytesTransfered + (qs.map AdminRequest.counted).sum

/-- The first request, and the others behind it. -/
theorem Globals.LeftBy.cons {g' : Globals} (h : g'.LeftBy (q.effect g) qs) :
    g'.LeftBy g (q :: qs) := by
  obtain ⟨hmedias, htotal⟩ := h
  rw [q.effect_filterMedias] at hmedias
  rw [q.effect_totalBytesTransfered] at htotal
  refine ⟨?_, by rw [htotal, List.map_cons, List.sum_cons, Nat.add_assoc]⟩
  rw [hmedias, List.filterMap_cons]
  cases hq : q.banned with
  | none => rfl
  | some medias =>
    simp only [Option.some_or, List.getLast?_cons]
    cases (qs.filterMap AdminRequest.banned).getLast? <;> rfl

/-- The requests leave what they have done one after the other. -/
theorem Globals.LeftBy.foldl (g : Globals) (qs : List AdminRequest) :
    (qs.foldl AdminRequest.effect g).LeftBy g qs := by
  induction qs generalizing g with
  | nil => exact ⟨rfl, rfl⟩
  | cons q qs ih => exact (ih (q.effect g)).cons

/-- **The operators and the service** do what the service alone would do with the requests. -/
theorem AdminSystem.run_serves (s : AdminSystem) {rounds : List Round}
    (h : ∀ r ∈ rounds, Manageable r.words) (hlists : ListsThere s.globals (asked rounds)) :
    (s.run rounds).All SessionAccess.Reaches ∧ ∃ operators, (s.run rounds).result =
      .ok (rounds.map Round.shown,
        ⟨operators, (asked rounds).foldl AdminRequest.effect s.globals⟩) := by
  induction rounds generalizing s with
  | nil => exact ⟨all_pure, s.operators, rfl⟩
  | cons r rounds ih =>
    have hrounds : ∀ r' ∈ rounds, Manageable r'.words := fun r' hr' =>
      h r' (List.mem_cons_of_mem r hr')
    have hstep : ∀ operators g, (s.round r).All SessionAccess.Reaches →
        (s.round r).result = .ok (r.shown, ⟨operators, g⟩) → ListsThere g (asked rounds) →
        (s.run (r :: rounds)).All SessionAccess.Reaches ∧
          ∃ operators, (s.run (r :: rounds)).result = .ok ((r :: rounds).map Round.shown,
            ⟨operators, (asked rounds).foldl AdminRequest.effect g⟩) := by
      intro operators g hall hround hrest
      obtain ⟨hmore, operators', hrun⟩ := ih ⟨operators, g⟩ hrounds hrest
      rw [AdminSystem.run, bind_of_ok hround]
      refine ⟨?_, operators', ?_⟩
      · intro a ha
        rcases List.mem_append.mp ha with ha | ha
        · exact hall a ha
        · rcases mem_trace_bind.mp ha with ha | ⟨_, _, ha⟩
          · exact hmore a ha
          · exact absurd ha List.not_mem_nil
      · show (AdminSystem.run ⟨operators, g⟩ rounds >>= _).result = _
        rw [bind_of_ok hrun]
        rfl
    rw [asked, List.filterMap_cons] at hlists ⊢
    have hline := h r List.mem_cons_self
    cases hq : AdminRequest.ofWords r.words with
    | none =>
      simp only [hq] at hlists ⊢
      obtain ⟨hall, operators, hround⟩ := s.round_invalid hline hq
      exact hstep operators _ hall hround hlists
    | some q =>
      simp only [hq] at hlists ⊢
      obtain ⟨hlost, hrest⟩ := listsThere_cons.mp hlists
      obtain ⟨hall, operators, hround⟩ := s.round_request hline hq hlost
      exact hstep operators _ hall hround hrest

/-- **Sessions.**  Whoever types what in which order, as far as each line is one the clients are up
to and there is a list of types whenever it is asked for: the clients stay within their arrays, the
service goes no further than the octet behind the array of a connection and, for two types, the one
behind their list, and does what it would do if the requests came one after the other.  Each client
prints what goes with its own line, and the list that the filters find is the last one that was
sent. -/
theorem sessions_served (s : AdminSystem) {rounds : List Round}
    (h : ∀ r ∈ rounds, Manageable r.words) (hlists : ListsThere s.globals (asked rounds))
    (hint : s.globals.totalBytesTransfered + ((asked rounds).map AdminRequest.counted).sum <
      2 ^ 31) :
    (s.run rounds).All SessionAccess.Reaches ∧ ∃ s',
      (s.run rounds).result = .ok (rounds.map Round.shown, s') ∧
        s'.globals = (asked rounds).foldl AdminRequest.effect s.globals ∧
        s'.globals.LeftBy s.globals (asked rounds) ∧ s'.globals.totalBytesTransfered < 2 ^ 31 := by
  obtain ⟨hall, operators, hrun⟩ := s.run_serves h hlists
  have hleft := Globals.LeftBy.foldl s.globals (asked rounds)
  refine ⟨hall, _, hrun, rfl, hleft, ?_⟩
  rw [hleft.2]
  exact hint

/-- One operator bans a type, and another asks what is banned. -/
theorem sessions_served_png : ∃ s', (AdminSystem.run
    ⟨fun _ => ⟨.cleared, .cleared⟩, ⟨none, none, 0⟩⟩
    [⟨0, ascii "trans mod mime ban image/png\n", by decide, 0⟩,
      ⟨1, ascii "trans status\n", by decide, 0⟩]).result =
      .ok ([.allOk, .allOk], s') ∧ s'.globals.filterMedias = some (ascii "image/png\n") := by
  have hasked : asked [⟨0, ascii "trans mod mime ban image/png\n", by decide, 0⟩,
      ⟨1, ascii "trans status\n", by decide, 0⟩] =
        [.ban (ascii "image/png\n") [], .transStatus] := by
    decide +kernel
  obtain ⟨-, s', hrun, -, ⟨hmedias, -⟩, -⟩ := sessions_served
    ⟨fun _ => ⟨.cleared, .cleared⟩, ⟨none, none, 0⟩⟩
    (show ∀ r ∈ [⟨0, ascii "trans mod mime ban image/png\n", by decide, 0⟩,
      ⟨1, ascii "trans status\n", by decide, 0⟩], Manageable (Round.words r) by decide +kernel)
    (by
      rw [hasked]
      exact listsThere_cons.mpr ⟨by decide, listsThere_cons.mpr ⟨by decide, .nil⟩⟩)
    (by
      rw [hasked]
      decide)
  rw [hasked] at hmedias
  exact ⟨s', hrun, hmedias⟩

end

end Pop3Proxy
