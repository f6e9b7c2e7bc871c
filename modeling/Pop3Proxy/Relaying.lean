/-
# Replies one after the other

The client sends its commands one at a time, and each is answered before the next.  Which
replies reach the client depends on those before: a filtered one leaves the `transform` flag
set, and one that is not taken for whole leaves the connection waiting.
-/
import Pop3Proxy.Framing

namespace Pop3Proxy

/-! ## What is asked for, and when it is so -/

/-- Every reply that is not filtered reaches the client, octet by octet and in its turn. -/
def Delivered (a : Addr) (cfd : Int) : Session → List Exchange → Prop
  | _, [] => True
  | s, x :: xs =>
    (x.filtered = false → ∃ s', (s.ask x).Rests a s' ∧
        sentOn cfd s'.world.output = sentOn cfd s.world.output ++ x.octets) ∧
      ∀ s', (s.ask x).Rests a s' → Delivered a cfd s' xs

/-- The command fits the buffer, and the end of the status line is found. -/
def Exchange.Answered (x : Exchange) : Prop :=
  x.cmd.line.length ≤ rawBuffA ∧ hasStatusLine x.octets = true

/-- Reply by reply, with the flag as the ones before leave it: a reply that is not filtered has
a status line that is found, and needs the flag unset where no body is expected; behind one
that does not lead back there is none. -/
def Unharmed : Bool → List Exchange → Prop
  | _, [] => True
  | t, x :: xs =>
    (x.filtered = false → x.Answered ∧ (x.cmd.builder.expectsBody = false → t = false)) ∧
      (x.Answered ∧ x.seemsWhole = true → Unharmed (x.flag t) xs) ∧
      (¬ (x.Answered ∧ x.seemsWhole = true) → ∀ y ∈ xs, y.filtered = true)

/-! ## A connection that does not go on -/

/-- The connection is closed, or it waits for the rest of a body. -/
def Stuck (a : Addr) (cfd ofd : Int) (s : Session) : Prop :=
  ∃ d, Shows a cfd ofd s d ∧ (d.stage = .closed ∨ d.stage = .body ∧ d.peers.origin = [])

section
variable {a : Addr} {cfd ofd : Int} {t : Bool} {s s' : Session} {x : Exchange} {xs : List Exchange}

/-- What is asked for later does not come about. -/
theorem Stuck.ask (h : Stuck a cfd ofd s) (x : Exchange) :
    (s.ask x).Rests a (s.ask x) ∧ Stuck a cfd ofd (s.ask x) := by
  obtain ⟨d, hshows, hstuck⟩ := h
  have hwf : (s.ask x).peers.Wf := by
    have hpeers := hshows.wf
    rw [← hshows.peers] at hpeers
    refine ⟨?_, hpeers.origin, ?_⟩
    · show [] ∉ s.peers.client ++ x.parts
      rw [List.mem_append, not_or]
      exact ⟨hpeers.client, x.parts_ne⟩
    · show ∀ segs ∈ s.peers.replies ++ [[x.octets]], [] ∉ segs
      intro segs hsegs
      rcases List.mem_append.mp hsegs with hsegs | hsegs
      · exact hpeers.replies segs hsegs
      · rw [List.mem_singleton.mp hsegs, List.mem_singleton]
        exact Ne.symm (x.reply.octets_ne x.cmd)
  have hshows' : Shows a cfd ofd (s.ask x) { d with peers := (s.ask x).peers } :=
    ⟨rfl, hwf, hshows.stage, hshows.toClient, hshows.toOrigin, hshows.toFilter⟩
  have horigin : (s.ask x).peers.origin = d.peers.origin := by rw [← hshows.peers]; rfl
  have hstop : Dialogue.step { d with peers := (s.ask x).peers } = none := by
    rcases hstuck with hclosed | ⟨hbody, hnil⟩
    · simp only [Dialogue.step, hclosed]
    · simp only [Dialogue.step, hbody, horigin, hnil]
  refine ⟨⟨.refl, hshows'.rest_iff.mpr hstop⟩, _, hshows', ?_⟩
  rw [← horigin] at hstuck
  exact hstuck

/-- Nothing is delivered any more. -/
theorem Stuck.delivered (h : Stuck a cfd ofd s) :
    Delivered a cfd s xs ↔ ∀ y ∈ xs, y.filtered = true := by
  induction xs generalizing s with
  | nil => exact iff_of_true trivial fun y hy => absurd hy List.not_mem_nil
  | cons x xs ih =>
    obtain ⟨hrests, hstuck⟩ := h.ask x
    have honly {s' : Session} (hs' : (s.ask x).Rests a s') : s' = s.ask x := hs'.unique hrests
    have hnone : ¬ ∃ s', (s.ask x).Rests a s' ∧
        sentOn cfd s'.world.output = sentOn cfd s.world.output ++ x.octets := by
      rintro ⟨s', hs', hsent⟩
      rw [honly hs'] at hsent
      exact x.reply.octets_ne x.cmd (List.append_right_eq_self.mp hsent.symm)
    rw [List.forall_mem_cons]
    constructor
    · rintro ⟨hfirst, hrest⟩
      refine ⟨?_, (ih hstuck).mp (hrest _ hrests)⟩
      by_contra hplain
      exact hnone (hfirst (Bool.eq_false_iff.mpr hplain))
    · rintro ⟨hfiltered, hrest⟩
      refine ⟨fun hplain => ?_, fun s' hs' => ?_⟩
      · rw [hfiltered] at hplain
        cases hplain
      · rw [honly hs']
        exact (ih hstuck).mpr hrest

/-! ## One exchange -/

/-- What an exchange leads to. -/
structure Outcome (a : Addr) (cfd ofd : Int) (t : Bool) (s : Session) (x : Exchange)
    (s' : Session) :
    Prop where
  sent : x.filtered = false → (sentOn cfd s'.world.output = sentOn cfd s.world.output ++ x.octets ↔
    x.Answered ∧ (x.cmd.builder.expectsBody = false → t = false))
  back : x.Answered ∧ x.seemsWhole = true → AtCommand a cfd ofd (x.flag t) s'
  stuck : ¬ (x.Answered ∧ x.seemsWhole = true) → Stuck a cfd ofd s'

theorem AtCommand.outcome (h : AtCommand a cfd ofd t s) (x : Exchange) :
    ∃ s', (s.ask x).Rests a s' ∧ Outcome a cfd ofd t s x s' := by
  obtain ⟨d, hshows, hcourse⟩ := h.shows x
  obtain ⟨s', d', hrests, hreach, hrest, hshows'⟩ := hshows.rests
  refine ⟨s', hrests, ?_⟩
  rcases (hcourse.reaches hreach).at_rest hrest with
    ⟨hclosed, hnothing, hnot⟩ | ⟨hfit, hline, last, out, hrelays, hstage, -, hclient, hp⟩
  · rw [← Exchange.Answered] at hnot
    refine ⟨fun _ => ?_, fun hboth => absurd hboth.1 hnot, fun _ => ⟨d', hshows', Or.inl hclosed⟩⟩
    rw [hshows'.toClient, hnothing, List.self_eq_append_right]
    exact iff_of_false (x.reply.octets_ne x.cmd) fun hboth => hnot hboth.1
  · have hanswered : x.Answered := ⟨hfit, hline⟩
    have hlast := hrelays.last_eq
    refine ⟨fun hplain => ?_, fun hboth => ?_, fun hnot => ?_⟩
    · rw [hshows'.toClient, hclient, List.append_right_inj]
      cases hbody : x.cmd.builder.expectsBody with
      | true =>
        refine iff_of_true ?_ ⟨hanswered, nofun⟩
        rw [hrelays.body_eq hbody, hplain]
        rfl
      | false =>
        rw [hrelays.line_eq hbody]
        cases t with
        | false => exact iff_of_true rfl ⟨hanswered, fun _ => rfl⟩
        | true =>
          refine iff_of_false (fun hnil => x.reply.octets_ne x.cmd hnil.symm) fun hboth => ?_
          cases hboth.2 rfl
    · rw [hlast, hboth.2] at hstage
      have hin := hshows'.stage
      rw [hrelays.flag_eq, hstage] at hin
      refine ⟨hin, ?_, ?_, ?_⟩ <;> rw [hshows'.peers]
      · exact hp.1
      · exact hp.2.1
      · exact hp.2.2
    · have hno : last = false := by
        rw [hlast, Bool.eq_false_iff]
        exact fun hyes => hnot ⟨hanswered, hyes⟩
      rw [hno] at hstage
      exact ⟨d', hshows', Or.inr ⟨hstage, hp.2.1⟩⟩

/-- **The relay of replies**: every reply that is not filtered reaches the client exactly when,
reply by reply, it is unharmed by those before. -/
theorem replies_delivered (h : AtCommand a cfd ofd t s) (xs : List Exchange) :
    Delivered a cfd s xs ↔ Unharmed t xs := by
  induction xs generalizing s t with
  | nil => exact Iff.rfl
  | cons x xs ih =>
    obtain ⟨s', hrests, hsent, hback, hstuck⟩ := h.outcome x
    have honly {s'' : Session} (hs'' : (s.ask x).Rests a s'') : s'' = s' := hs''.unique hrests
    have hfirst : (∃ s', (s.ask x).Rests a s' ∧
        sentOn cfd s'.world.output = sentOn cfd s.world.output ++ x.octets) ↔
        sentOn cfd s'.world.output = sentOn cfd s.world.output ++ x.octets := by
      constructor
      · rintro ⟨s'', hs'', hsent⟩
        rwa [honly hs''] at hsent
      · exact fun hsent => ⟨s', hrests, hsent⟩
    have hrest : (∀ s', (s.ask x).Rests a s' → Delivered a cfd s' xs) ↔ Delivered a cfd s' xs := by
      constructor
      · exact fun hall => hall s' hrests
      · intro hxs s'' hs''
        rw [honly hs'']
        exact hxs
    rw [Delivered, Unharmed, hfirst, hrest]
    refine and_congr ?_ ?_
    · exact forall_congr' fun hplain => hsent hplain
    · by_cases hgoes : x.Answered ∧ x.seemsWhole = true
      · rw [ih (hback hgoes)]
        exact ⟨fun hxs => ⟨fun _ => hxs, fun hnot => absurd hgoes hnot⟩, fun hxs => hxs.1 hgoes⟩
      · rw [(hstuck hgoes).delivered]
        exact ⟨fun hxs => ⟨fun hyes => absurd hyes hgoes, fun _ => hxs⟩, fun hxs => hxs.2 hgoes⟩

end

/-- `RETR`, with a mail of one line. -/
def retrExchange : Exchange where
  cmd := ⟨ascii "RETR", some (ascii "1"), by decide +kernel, by decide, by decide⟩
  parts := [ascii "RETR 1" ++ CRLF]
  reply := ⟨.ok, [], [ascii "a"], okReply.text_free, by decide⟩
  sends := []
  calls := fun _ => {}
  parts_flatten := by decide
  parts_ne := by decide
  whole := by decide +kernel

/-- `NOOP`, and the reply to it. -/
def noopExchange : Exchange where
  cmd := .bare (ascii "NOOP") (by decide +kernel) (by decide)
  parts := [ascii "NOOP" ++ CRLF]
  reply := okReply
  sends := [2, 0, 1]
  calls := fun _ => {}
  parts_flatten := by decide
  parts_ne := by decide
  whole := by decide +kernel

/-- `CAPA` clears the flag that `RETR` has set. -/
theorem replies_delivered_capa :
    Delivered 0 4 ⟨greetedWorld, [], [], [], [], fun _ => {}⟩
      [noopExchange, retrExchange, capaExchange, noopExchange] := by
  refine (replies_delivered greeted_atCommand _).mpr ?_
  have hnoop : noopExchange.Answered := ⟨by decide, by decide +kernel⟩
  have hretr : retrExchange.Answered := ⟨by decide, by decide +kernel⟩
  have hcapa : capaExchange.Answered := ⟨by decide, by decide +kernel⟩
  have hnoop' : noopExchange.seemsWhole = true := by decide +kernel
  have hretr' : retrExchange.seemsWhole = true := by decide +kernel
  have hcapa' : capaExchange.seemsWhole = true := by decide +kernel
  refine ⟨fun _ => ⟨hnoop, fun _ => rfl⟩, fun _ => ?_, fun hnot => absurd ⟨hnoop, hnoop'⟩ hnot⟩
  refine ⟨fun hplain => absurd hplain (by decide +kernel), fun _ => ?_,
    fun hnot => absurd ⟨hretr, hretr'⟩ hnot⟩
  refine ⟨fun _ => ⟨hcapa, fun hbody => absurd hbody (by decide +kernel)⟩, fun _ => ?_,
    fun hnot => absurd ⟨hcapa, hcapa'⟩ hnot⟩
  exact ⟨fun _ => ⟨hnoop, fun _ => by decide +kernel⟩, fun _ => trivial,
    fun hnot => absurd ⟨hnoop, hnoop'⟩ hnot⟩

/-- Behind a mail the reply to `NOOP` is lost. -/
theorem reply_undelivered : ¬ ∀ (a : Addr) (cfd ofd : Int) (t : Bool) (s : Session),
    AtCommand a cfd ofd t s → ∀ xs, Delivered a cfd s xs := by
  intro h
  obtain ⟨-, hrest⟩ := h 0 4 5 false _ greeted_atCommand [retrExchange, noopExchange]
  obtain ⟨s', hrests, -, hback, -⟩ := greeted_atCommand.outcome retrExchange
  have hat := hback ⟨⟨by decide, by decide +kernel⟩, by decide +kernel⟩
  obtain ⟨s'', hrests', hsent, -, -⟩ := hat.outcome noopExchange
  obtain ⟨s₁, hrests₁, hsent₁⟩ := (hrest s' hrests).1 (by decide +kernel)
  rw [hrests₁.unique hrests'] at hsent₁
  have hflag := ((hsent (by decide +kernel)).mp hsent₁).2 (by decide +kernel)
  revert hflag
  decide +kernel

end Pop3Proxy
