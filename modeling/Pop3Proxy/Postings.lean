/-
# Records of the calls

What is recorded of a connection, call by call, from the time it is accepted.  What every event of a
connection keeps, of its struct and of its record, holds of all connections along every run.
-/
import Pop3Proxy.HandOff

namespace Pop3Proxy

/-! ## The calls of a run -/

/-- What is entered in a record. -/
inductive Posting where
  | opened (a : Addr)
  | call (a : Addr) (c : Pop3) (op : Op) (io : Io) (out : List Output)

/-- What an event enters, from the states before and after it. -/
def Proxy.posts (p : Proxy) (e : Event) (p' : Proxy) : List Posting :=
  match p.call e with
  | some c =>
    match c.handler with
    | .passive => (admittedBy c.io p.world p'.world).toList.map .opened
    | .suscriptions => [.call c.key.data (p.world.heap c.key.data) c.op c.io
      (p'.world.output.drop p.world.output.length)]
  | none => []

/-- What is recorded of a connection: at first, and with a call, by what the struct was before it
and what has left the program. -/
structure Record (F : Type) where
  start : F
  call : F → Pop3 → Op → Io → List Output → F

namespace Record

variable {F G : Type}

/-- What an entry of the history does to the record of a connection. -/
def post (R : Record F) (a : Addr) (f : F) : Posting → F
  | .opened b => if b = a then R.start else f
  | .call b c op io out => if b = a then R.call f c op io out else f

/-- The record of the last connection at an address. -/
def ofAddr (R : Record F) (a : Addr) (t : List Posting) : F := t.foldl (R.post a) R.start

theorem ofAddr_snoc (R : Record F) (a : Addr) (t : List Posting) (o : Posting) :
    R.ofAddr a (t ++ [o]) = R.post a (R.ofAddr a t) o := by
  rw [ofAddr, List.foldl_append]
  rfl

/-- Two records side by side. -/
def prod (R : Record F) (S : Record G) : Record (F × G) where
  start := (R.start, S.start)
  call f c op io out := (R.call f.1 c op io out, S.call f.2 c op io out)

theorem ofAddr_prod (R : Record F) (S : Record G) (a : Addr) (t : List Posting) :
    (R.prod S).ofAddr a t = (R.ofAddr a t, S.ofAddr a t) := by
  induction t using List.reverseRecOn with
  | nil => rfl
  | append_singleton t o ih =>
    rw [ofAddr_snoc, ofAddr_snoc, ofAddr_snoc, ih]
    cases o with
    | opened b =>
      simp only [post]
      split_ifs <;> rfl
    | call b c op io out =>
      simp only [post]
      split_ifs <;> rfl

/-- What the events of one connection keep: its record is good, and its struct agrees with it. -/
structure Keeps (R : Record F) (Good : F → Prop) (Agrees : Pop3 → F → Prop) : Prop where
  good : Good R.start
  new : ∀ client, Agrees (.new client) R.start
  resolved : ∀ {c f} r, Agrees c f → Agrees { c with originResolution := r } f
  event : ∀ {io : Io} {key : SelectorKey} {op : Op} {s : Option States} {l : Wires} {w w' : World}
    {f : F}, Sound w → Connected w key.data s l → Dispatched w key.data s l key.fd op →
    Agrees (w.heap key.data) f → op.suscription io key w = .ok w' →
    ∃ out, w'.output = w.output ++ out ∧ Good (R.call f (w.heap key.data) op io out) ∧
      (Live w' key.data → Agrees (w'.heap key.data) (R.call f (w.heap key.data) op io out))

/-- What is kept along a run. -/
structure Kept (R : Record F) (Good : F → Prop) (Agrees : Pop3 → F → Prop) (p : Proxy)
    (t : List Posting) : Prop where
  inv : ProxyInv p
  good : ∀ a, Good (R.ofAddr a t)
  agrees : ∀ a, Live p.world a → Agrees (p.world.heap a) (R.ofAddr a t)

section
variable {R : Record F} {Good : F → Prop} {Agrees : Pop3 → F → Prop} {p p' : Proxy}
  {t : List Posting} {s : Option States} {l : Wires}

/-- **An event without a call.** -/
theorem Kept.quieted (hR : R.Keeps Good Agrees) {e : Event} (h : R.Kept Good Agrees p t)
    (hc : p.call e = none) : R.Kept Good Agrees (p.quiet e) (t ++ p.posts e (p.quiet e)) := by
  have hposts : p.posts e (p.quiet e) = [] := by simp only [Proxy.posts, hc]
  obtain ⟨hlinks, hheap⟩ := quiet_links p e
  rw [hposts, List.append_nil]
  refine ⟨h.inv.quieted hc, h.good, fun a hlive => ?_⟩
  have hlive' : Live p.world a := by
    obtain ⟨fd, it, hit, hown⟩ := hlive
    exact ⟨fd, it, by rwa [hlinks.item] at hit, hown⟩
  obtain ⟨r, hr⟩ := hheap a
  rw [hr]
  exact hR.resolved r (h.agrees a hlive')

/-- **An accept.** -/
theorem Kept.accepts (hR : R.Keeps Good Agrees) {e : Event} {c : Call} (h : R.Kept Good Agrees p t)
    (hc : p.call e = some c) (hh : c.handler = .passive)
    (hw' : p'.world = pop3PassiveAccept c.io p.world) (hinv : ProxyInv p') :
    R.Kept Good Agrees p' (t ++ p.posts e p') := by
  have hposts : p.posts e p' = (admittedBy c.io p.world p'.world).toList.map .opened := by
    simp only [Proxy.posts, hc, hh]
  have hsound := h.inv.world.sound
  rw [hposts]
  rcases pop3PassiveAccept_cases c.io hsound h.inv.world.pool with heq | ⟨b, hadm | hrej⟩
  -- nobody is accepted
  · rw [← hw'] at heq
    rw [admittedBy_none fun fd it hit => ⟨it, by rwa [heq] at hit⟩, Option.toList_none,
      List.map_nil, List.append_nil]
    exact ⟨hinv, h.good, by rw [heq]; exact h.agrees⟩
  -- a new connection with a new record
  · rw [← hw'] at hadm
    rw [hadm.admittedBy hsound, Option.toList_some, List.map_singleton]
    refine ⟨hinv, fun a => ?_, fun a hlive => ?_⟩ <;> rw [ofAddr_snoc, post]
    · split_ifs with ha
      · exact hR.good
      · exact h.good a
    · split_ifs with ha
      · subst ha
        obtain ⟨client, hnew⟩ := hadm.new
        rw [hnew]
        exact hR.new client
      · have ha := Ne.symm ha
        rw [hadm.frame.heap a ha]
        exact h.agrees a ((hadm.frame.live ha).mp hlive)
  -- the struct goes back at once
  · rw [← hw'] at hrej
    have hnone : admittedBy c.io p.world p'.world = none := by
      refine admittedBy_none fun fd it hit => ⟨it, (hrej.frame.items fd it fun hown => ?_).mp hit⟩
      exact hrej.notLive' ⟨fd, it, hit, hown⟩
    rw [hnone, Option.toList_none, List.map_nil, List.append_nil]
    refine ⟨hinv, h.good, fun a hlive => ?_⟩
    have ha : a ≠ b := by
      rintro rfl
      exact hrej.notLive' hlive
    rw [hrej.frame.heap a ha]
    exact h.agrees a ((hrej.frame.live ha).mp hlive)

/-- **A handler of a connection.** -/
theorem Kept.handles (hR : R.Keeps Good Agrees) {e : Event} {c : Call} (h : R.Kept Good Agrees p t)
    (hc : p.call e = some c) (hh : c.handler = .suscriptions)
    (hconn : Connected p.world c.key.data s l)
    (hd : Dispatched p.world c.key.data s l c.key.fd c.op)
    (hrun : c.op.suscription c.io c.key p.world = .ok p'.world)
    (hframe : Frame c.key.data p.world p'.world) (hinv : ProxyInv p') :
    R.Kept Good Agrees p' (t ++ p.posts e p') := by
  have hposts : p.posts e p' = [.call c.key.data (p.world.heap c.key.data) c.op c.io
      (p'.world.output.drop p.world.output.length)] := by
    simp only [Proxy.posts, hc, hh]
  obtain ⟨out, hout, hgood, hafter⟩ :=
    hR.event h.inv.world.sound hconn hd (h.agrees _ hconn.live) hrun
  have hdrop : p'.world.output.drop p.world.output.length = out := by
    rw [hout, List.drop_left]
  rw [hposts, hdrop]
  refine ⟨hinv, fun a => ?_, fun a hlive => ?_⟩ <;> rw [ofAddr_snoc, post]
  · split_ifs with ha
    · subst ha
      exact hgood
    · exact h.good a
  · split_ifs with ha
    · subst ha
      exact hafter hlive
    · have ha := Ne.symm ha
      rw [hframe.heap a ha]
      exact h.agrees a ((hframe.live ha).mp hlive)

/-- **One event.** -/
theorem Kept.step (hR : R.Keeps Good Agrees) {e : Event} (h : R.Kept Good Agrees p t)
    (hs : p.step e = .ok p') : R.Kept Good Agrees p' (t ++ p.posts e p') := by
  have hinv := h.inv.step hs
  rw [step_eq] at hs
  cases hc : p.call e with
  | none =>
    simp only [hc, Except.ok.injEq] at hs
    subst hs
    exact h.quieted hR hc
  | some c =>
    simp only [hc] at hs
    obtain ⟨w', hrun, rfl⟩ := map_eq_ok.mp hs
    obtain ⟨it, hit, hdata, hhandler, hsite⟩ := h.inv.call_spec hc
    cases hh : it.handler with
    | passive =>
      rw [Call.run_passive h.inv.world hit hhandler hsite.op hh, Except.ok.injEq] at hrun
      exact h.accepts hR hc (hhandler.trans hh) hrun.symm hinv
    | suscriptions =>
      obtain ⟨s, l, hconn⟩ := h.inv.world.connected it.data ⟨_, it, hit, hh, rfl⟩
      obtain ⟨hrun', hd⟩ := Call.run_suscription h.inv.world hit hhandler hsite.op hh hconn
      have hframe : Frame it.data p.world w' := by
        rcases Call.run_frame h.inv.world hit hdata hhandler hsite.op hrun with ⟨hp, -⟩ | ⟨-, hf⟩
        · rw [hh] at hp
          cases hp
        · exact hf
      rw [← hdata] at hconn hd hframe
      rw [hrun'] at hrun
      exact h.handles hR hc (hhandler.trans hh) hconn hd hrun hframe hinv

theorem kept_start (hR : R.Keeps Good Agrees) (server : Int) (origin : AddrType) :
    R.Kept Good Agrees (.start server origin) [] where
  inv := (tracked_start server origin).inv
  good _ := hR.good
  agrees a := by
    rintro ⟨fd, it, hit, hown, -⟩
    rw [(start_item hit).2] at hown
    cases hown

/-- **The connection rule**: the record of every connection is good at the end of every run. -/
theorem Keeps.run (hR : R.Keeps Good Agrees) (server : Int) (origin : AddrType) (es : List Event)
    (a : Addr) : Good (R.ofAddr a (proxySystem.observe Proxy.posts (.start server origin) es)) := by
  have hstep : ∀ p t e p', R.Kept Good Agrees p t → proxySystem.step p e = .ok p' →
      R.Kept Good Agrees p' (t ++ p.posts e p') := fun _ _ _ _ hi hs => hi.step hR hs
  have h : R.Kept Good Agrees _ _ :=
    EventSystem.System.history (I := R.Kept Good Agrees) hstep (kept_start hR server origin) es
  exact h.good a

end

end Record

end Pop3Proxy
