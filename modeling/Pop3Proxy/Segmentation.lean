/-
# The segments of the origin

The greeting is what one `recv` gives of it.  Where its end is found, the same greeting cut
behind its first octet closes the connection; so the segments of the origin do not matter
exactly where the greeting is refused however it comes.
-/
import Mathlib.Data.List.Forall2
import Pop3Proxy.Relaying

namespace Pop3Proxy

open StateTransition

/-- The octets in segments, each of which fits the room that `recv` is told about. -/
structure Cuts (room : ℕ) (octets : List Byte) (segs : List (List Byte)) : Prop where
  flatten : segs.flatten = octets
  fits : ∀ seg ∈ segs, seg ≠ [] ∧ seg.length ≤ room

/-- The stream of the origin: a greeting, and complete replies to the commands of the client, `RETR`
and `TOP` excepted.  The rest is the same however that stream is cut: the segments of the client,
what `send` takes, and what the other calls give. -/
structure OriginStream where
  text : List Byte
  exchanges : List (ClientCommand × ServerReply)
  client : List (List Byte)
  sends : List ℕ
  calls : ℕ → Io
  text_free : ¬ CRLF <:+: text
  unfiltered : ∀ x ∈ exchanges, x.1.keyword.map toupper ≠ ascii "RETR" ∧
    x.1.keyword.map toupper ≠ ascii "TOP"
  client_flatten : client.flatten = exchanges.flatMap fun x => x.1.line
  client_ne : [] ∉ client

namespace OriginStream

variable (o : OriginStream)

/-- The greeting. -/
def greeting : List Byte := ascii "+OK" ++ o.text ++ CRLF

/-- The octets of the replies. -/
def replies : List (List Byte) := o.exchanges.map fun x => x.2.octets x.1

/-- One way of cutting the stream. -/
structure Cut (gs : List (List Byte)) (rs : List (List (List Byte))) : Prop where
  greeting : Cuts rawBuffA o.greeting gs
  replies : List.Forall₂ (Cuts rawBuffB) o.replies rs

/-- The greeting is awaited, and the stream comes in these segments. -/
def session (w : World) (gs : List (List Byte)) (rs : List (List (List Byte))) : Session where
  world := w
  peers :=
    { client := o.client
      origin := gs
      replies := rs
      sends := o.sends
      calls := o.calls }

end OriginStream

/-- However the stream of the origin is cut, the client is sent the same, and the stm is left in
the same state. -/
def SegmentsImmaterial (a : Addr) (cfd : Int) (w : World) (o : OriginStream) : Prop :=
  ∀ gs gs' rs rs', o.Cut gs rs → o.Cut gs' rs' → ∀ s s',
    (o.session w gs rs).Rests a s → (o.session w gs' rs').Rests a s' →
      sentOn cfd s.world.output = sentOn cfd s'.world.output ∧
        (s.world.heap a).current = (s'.world.heap a).current

/-! ## Ways of cutting -/

section
variable {room : ℕ} {octets : List Byte} {segs : List (List Byte)} {o : OriginStream}

theorem Cuts.nil_not_mem (h : Cuts room octets segs) : [] ∉ segs :=
  fun hmem => (h.fits [] hmem).1 rfl

/-- A first segment, and then octet by octet. -/
theorem cuts_first {n : ℕ} (hpos : 0 < n) (hroom : n ≤ room) (hne : octets ≠ []) :
    Cuts room octets (octets.take n :: (octets.drop n).map fun c => [c]) := by
  constructor
  · rw [List.flatten_cons, ← List.flatMap_def, List.flatMap_singleton', List.take_append_drop]
  · intro seg hseg
    rcases List.mem_cons.mp hseg with rfl | hseg
    · constructor
      · rw [Ne, List.take_eq_nil_iff, not_or]
        exact ⟨Nat.ne_of_gt hpos, hne⟩
      · exact (List.length_take_le n octets).trans hroom
    · obtain ⟨c, -, rfl⟩ := List.mem_map.mp hseg
      exact ⟨List.cons_ne_nil _ _, Nat.le_trans hpos hroom⟩

namespace OriginStream

theorem greeting_ne (o : OriginStream) : o.greeting ≠ [] := List.cons_ne_nil _ _

/-- The greeting cut behind `n` octets. -/
theorem cut_first (o : OriginStream) {n : ℕ} (hpos : 0 < n) (hn : n ≤ rawBuffA) : ∃ gs rs,
    o.Cut (o.greeting.take n :: gs) rs := by
  have hreplies : List.Forall₂ (Cuts rawBuffB) o.replies
      (o.replies.map fun r => r.take 1 :: (r.drop 1).map fun c => [c]) := by
    rw [List.forall₂_map_right_iff, List.forall₂_same]
    intro r hr
    obtain ⟨x, -, rfl⟩ := List.mem_map.mp hr
    exact cuts_first Nat.one_pos (by decide) (x.2.octets_ne x.1)
  exact ⟨_, _, cuts_first hpos hn o.greeting_ne, hreplies⟩

/-- The first segment is the start of the greeting. -/
theorem Cut.first {gs : List (List Byte)} {rs : List (List (List Byte))} (h : o.Cut gs rs) :
    ∃ seg segs, gs = seg :: segs ∧ seg.length ≤ rawBuffA ∧ seg <+: o.greeting.take rawBuffA := by
  obtain ⟨hflat, hfits⟩ := h.greeting
  cases gs with
  | nil => exact absurd hflat.symm o.greeting_ne
  | cons seg segs =>
    have hfit := (hfits seg List.mem_cons_self).2
    refine ⟨seg, segs, rfl, hfit, ?_⟩
    rw [← hflat, List.flatten_cons, List.prefix_take_iff]
    exact ⟨List.prefix_append _ _, hfit⟩

/-- The stream has no empty segments. -/
theorem Cut.wf {gs : List (List Byte)} {rs : List (List (List Byte))} (h : o.Cut gs rs)
    (w : World) : (o.session w gs rs).peers.Wf := by
  refine ⟨o.client_ne, h.greeting.nil_not_mem, ?_⟩
  intro segs hsegs
  obtain ⟨i, hi, rfl⟩ := List.getElem_of_mem hsegs
  exact (List.forall₂_iff_get.mp h.replies).2 i (by rwa [h.replies.length_eq]) hi |>.nil_not_mem

end OriginStream

/-! ## The status line of a prefix -/

/-- A status line that is found is found in every longer chunk. -/
theorem hasStatusLine_longer {chunk chunk' : List Byte} (h : chunk <+: chunk')
    (hline : hasStatusLine chunk = true) : hasStatusLine chunk' = true := by
  obtain ⟨rest, rfl⟩ := h
  have hverdict : ∃ r, (pop3SinglelineResponseBuilder chunk
      pop3SinglelineResponseDefinition.startState none).verdict = some r := by
    cases hv : (pop3SinglelineResponseBuilder chunk
        pop3SinglelineResponseDefinition.startState none).verdict with
    | some r => exact ⟨r, rfl⟩
    | none =>
      simp only [hasStatusLine, builderResult, hv] at hline
      simp at hline
  obtain ⟨r, hr⟩ := hverdict
  unfold hasStatusLine at hline ⊢
  unfold pop3SinglelineResponseBuilder at hr hline ⊢
  rwa [Scan.scan_append_of_some _ rest hr]

/-- One octet is no status line. -/
theorem hasStatusLine_octet : ∀ c : Byte, hasStatusLine [c] = false := by decide +kernel

end

/-! ## Nothing is taken back -/

namespace Dialogue

variable {d d' : Dialogue}

/-- What is sent to the client is added to what has been sent. -/
theorem toClient_step (hstep : d.step = some d') : d.toClient <+: d'.toClient := by
  cases moves hstep with
  | welcome _ | relay _ => exact List.prefix_append _ _
  | forward _ | greeting _ _ | command _ _ | body _ _ => exact List.prefix_rfl
  | status _ _ =>
    unfold statusRead
    split_ifs <;> exact List.prefix_rfl

theorem toClient_reaches (hreach : Reaches Dialogue.step d d') : d.toClient <+: d'.toClient := by
  induction hreach with
  | refl => exact List.prefix_rfl
  | tail _ hstep ih => exact ih.trans (toClient_step hstep)

/-- The first segment of the greeting. -/
theorem step_greeting {seg : List Byte} {segs : List (List Byte)} (hst : d.stage = .greeting)
    (horigin : d.peers.origin = seg :: segs) (hfits : seg.length ≤ rawBuffA) :
    d.step = some { d with
      stage := if hasStatusLine seg then .welcome greetingOk else .closed
      peers := { d.peers.tick with origin := segs } } := by
  simp only [step, hst, horigin, List.take_of_length_le hfits, Peers.leave_fits hfits]

end Dialogue

/-! ## The first segment decides -/

section
variable {a : Addr} {cfd ofd : Int} {t : Bool} {w : World} {o : OriginStream}
variable {seg : List Byte} {gs : List (List Byte)} {rs : List (List (List Byte))} {s : Session}

/-- The dialogue at the greeting. -/
theorem OriginStream.Cut.shows (hcut : o.Cut gs rs) (h : InStage a cfd ofd w t .greeting) :
    Shows a cfd ofd (o.session w gs rs) ⟨.greeting, t, (o.session w gs rs).peers,
      sentOn ofd w.output, sentOn cfd w.output, piped w.output⟩ :=
  Shows.start h (hcut.wf w)

/-- Where the first segment has no status line, nothing is sent and the connection is closed. -/
theorem rests_refused (hcut : o.Cut (seg :: gs) rs) (h : InStage a cfd ofd w t .greeting)
    (hfits : seg.length ≤ rawBuffA) (hline : hasStatusLine seg = false)
    (hrests : (o.session w (seg :: gs) rs).Rests a s) :
    sentOn cfd s.world.output = sentOn cfd w.output ∧
      (s.world.heap a).current = some Stage.closed.state.num := by
  have hstep := Dialogue.step_greeting (d := ⟨.greeting, t, (o.session w (seg :: gs) rs).peers,
    sentOn ofd w.output, sentOn cfd w.output, piped w.output⟩) rfl rfl hfits
  rw [hline, if_neg (by simp)] at hstep
  obtain ⟨s', hpass, hshows⟩ := (hcut.shows h).passes_of (.single hstep)
  obtain rfl := hrests.unique ⟨hpass, hshows.rest_iff.mpr rfl⟩
  exact ⟨hshows.toClient, hshows.stage.current⟩

/-- Where it has one, the welcome is sent. -/
theorem rests_welcomed (hcut : o.Cut (seg :: gs) rs) (h : InStage a cfd ofd w t .greeting)
    (hfits : seg.length ≤ rawBuffA) (hline : hasStatusLine seg = true)
    (hrests : (o.session w (seg :: gs) rs).Rests a s) :
    sentOn cfd w.output ++ greetingOk <+: sentOn cfd s.world.output := by
  have hstep := Dialogue.step_greeting (d := ⟨.greeting, t, (o.session w (seg :: gs) rs).peers,
    sentOn ofd w.output, sentOn cfd w.output, piped w.output⟩) rfl rfl hfits
  rw [hline, if_pos rfl] at hstep
  obtain ⟨q, -, hsent⟩ :=
    Dialogue.welcome_reaches ⟨.greeting, t, (o.session w (seg :: gs) rs).peers,
    sentOn ofd w.output, sentOn cfd w.output, piped w.output⟩ _ greetingOk
  obtain ⟨s', d', hrests', hreach, hrest, hshows⟩ := (hcut.shows h).rests
  obtain rfl := hrests.unique hrests'
  rw [hshows.toClient]
  exact Dialogue.toClient_reaches (reaches_on (.head hstep hsent) hreach hrest)

/-- A greeting that is recognised is not recognised in two segments. -/
theorem segments_material (h : InStage a cfd ofd w t .greeting)
    (hline : hasStatusLine (o.greeting.take rawBuffA) = true) : ¬ SegmentsImmaterial a cfd w o := by
  intro himmaterial
  obtain ⟨gs, rs, hcut⟩ := o.cut_first (by decide) (Nat.le_refl rawBuffA)
  obtain ⟨gs', rs', hcut'⟩ := o.cut_first Nat.one_pos (by decide)
  obtain ⟨s, d, hrests, -⟩ := (hcut.shows h).rests
  obtain ⟨s', d', hrests', -⟩ := (hcut'.shows h).rests
  have hwelcomed := rests_welcomed hcut h (List.length_take_le _ _) hline hrests
  have hfirst : o.greeting.take 1 = [PLUS] := rfl
  rw [hfirst] at hcut' hrests'
  have hrefused := (rests_refused hcut' h (by decide) (hasStatusLine_octet PLUS) hrests').1
  rw [(himmaterial _ _ _ _ hcut (hfirst ▸ hcut') s s' hrests hrests').1, hrefused] at hwelcomed
  have hlong := hwelcomed.length_le
  rw [List.length_append] at hlong
  have hgreets : 0 < greetingOk.length := by decide
  omega

/-- **The segments of the origin** do not matter exactly where the greeting is not recognised in as
many octets as fit the buffer. -/
theorem segments_immaterial (h : InStage a cfd ofd w t .greeting) :
    SegmentsImmaterial a cfd w o ↔ hasStatusLine (o.greeting.take rawBuffA) = false := by
  constructor
  · intro himmaterial
    rw [← Bool.not_eq_true]
    exact fun hline => segments_material h hline himmaterial
  · intro hline gs gs' rs rs' hcut hcut' s s' hrests hrests'
    obtain ⟨seg, segs, rfl, hfits, hpre⟩ := hcut.first
    obtain ⟨seg', segs', rfl, hfits', hpre'⟩ := hcut'.first
    have hno {seg : List Byte} (hseg : seg <+: o.greeting.take rawBuffA) :
        hasStatusLine seg = false := by
      rw [← Bool.not_eq_true]
      intro hyes
      rw [hasStatusLine_longer hseg hyes] at hline
      cases hline
    obtain ⟨hsent, hcur⟩ := rests_refused hcut h hfits (hno hpre) hrests
    obtain ⟨hsent', hcur'⟩ := rests_refused hcut' h hfits' (hno hpre') hrests'
    exact ⟨hsent.trans hsent'.symm, hcur.trans hcur'.symm⟩

end

/-- The program with the connection to the origin at 5, and the client at 4. -/
def connectedWorld : World := (proxySystem.last (.start 3 .ipv4) reachOrigin).world

/-- Its connection awaits the greeting. -/
theorem connected_awaits : InStage 0 4 5 connectedWorld false .greeting := by
  obtain ⟨pending, hinv⟩ : ∃ pending, WorldInv connectedWorld pending :=
    ⟨_, (ProxyInv.of_reach ((reach_start .ipv4).last (fun _ _ => trivial) reachOrigin)).world⟩
  have hitem : connectedWorld.sel.item 5 = some ⟨5, OP_READ, .suscriptions, 0⟩ := by decide +kernel
  have hcur : (connectedWorld.heap 0).current = some States.greetingSread.num := by decide +kernel
  have hfd : (connectedWorld.heap 0).originFd ≠ -1 := by decide +kernel
  have horigin : (connectedWorld.sel.item (connectedWorld.heap 0).originFd).isSome := by
    decide +kernel
  have hcarries : Carries 4 5 false .greeting (connectedWorld.heap 0) := by
    refine ⟨?_, ?_, ?_, ?_, ⟨⟨?_, ?_, ?_⟩, ?_, ?_, ?_⟩, ⟨⟨?_, ?_, ?_⟩, ?_⟩, ?_⟩ <;> decide +kernel
  generalize connectedWorld = w at *
  obtain ⟨l, hl⟩ := hinv.linked ⟨5, _, hitem, rfl, rfl⟩ (.inl rfl) hcur hfd horigin
  exact .opened hl hcarries

/-- `NOOP`, and a greeting in which a CR stands before the end of the line. -/
def crStream : OriginStream where
  text := ascii " a" ++ [CR]
  exchanges := [(noopExchange.cmd, noopExchange.reply)]
  client := noopExchange.parts
  sends := []
  calls := fun _ => {}
  text_free := by decide
  unfiltered := by decide
  client_flatten := by decide
  client_ne := noopExchange.parts_ne

/-- It is refused, however it is cut. -/
theorem segments_immaterial_cr : SegmentsImmaterial 0 4 connectedWorld crStream :=
  (segments_immaterial connected_awaits).mpr (by decide +kernel)

/-- The greeting `+OK` alone, which is welcomed in one segment and refused in two. -/
theorem segments_material_ok : ¬ ∀ (a : Addr) (cfd ofd : Int) (t : Bool) (w : World)
    (o : OriginStream), InStage a cfd ofd w t .greeting → SegmentsImmaterial a cfd w o := by
  intro h
  exact @segments_material 0 4 5 false connectedWorld
    { crStream with text := [], text_free := okReply.text_free } connected_awaits
      (by decide +kernel)
    (h 0 4 5 false connectedWorld _ connected_awaits)

end Pop3Proxy
