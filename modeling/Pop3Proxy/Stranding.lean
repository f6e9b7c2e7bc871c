/-
# When a connection is not stranded

The client is disarmed before it is known whether the origin can be armed, and
a notification may get lost on its way.  As long as neither happens
(`Stranding`, `LostNotification`), every connection in use has an armed
descriptor or a notification to come.
-/
import Pop3Proxy.Runs

namespace Pop3Proxy

/-- The calls after which nothing is armed or awaited for the connection `a`. -/
inductive Stranding (io : Io) (a : Addr) (w : World) : Prop where
  /-- the name is resolved, and the attempt does not get as far as waiting -/
  | resolved (hs : (w.heap a).current = some States.resolvConnection.num)
    (h : ¬ ConnectStarts io w) (hcon : ¬ ConnectsAtOnce io w)
  /-- the client is disarmed for a descriptor that cannot be registered -/
  | beyond (hs : (w.heap a).current = none) (hserver : w.currOriginServer ≠ .domain)
    (h : BeyondSelector io w)
  /-- `pthread_create` fails with a positive result, which is taken for success -/
  | thread (hs : (w.heap a).current = none) (hserver : w.currOriginServer = .domain)
    (h : ¬ NoResolver io) (hpos : io.pthreadCreate ≠ 0)

/-- The end of a resolver without memory for its notification. -/
def LostNotification (p : Proxy) (e : Event) : Prop :=
  ∃ i result, e = .resolved i result false ∧ (∀ jobs, p.phase ≠ .notifying jobs) ∧
    i < p.world.resolvers.length

/-- The event strands no connection. -/
def Tended (p : Proxy) (e : Event) : Prop :=
  (∀ c, p.call e = some c → c.handler = .suscriptions → ¬ Stranding c.io c.key.data p.world) ∧
    ¬ LostNotification p e

instance (io : Io) (a : Addr) (w : World) : Decidable (Stranding io a w) :=
  decidable_of_iff
    (((w.heap a).current = some States.resolvConnection.num ∧ ¬ ConnectStarts io w ∧
        ¬ ConnectsAtOnce io w) ∨
      ((w.heap a).current = none ∧ w.currOriginServer ≠ .domain ∧ BeyondSelector io w) ∨
      ((w.heap a).current = none ∧ w.currOriginServer = .domain ∧ ¬ NoResolver io ∧
        io.pthreadCreate ≠ 0))
    ⟨fun h => by
      rcases h with ⟨h1, h2, h3⟩ | ⟨h1, h2, h3⟩ | ⟨h1, h2, h3, h4⟩
      · exact .resolved h1 h2 h3
      · exact .beyond h1 h2 h3
      · exact .thread h1 h2 h3 h4,
    fun h => by
      cases h with
      | resolved h1 h2 h3 => exact .inl ⟨h1, h2, h3⟩
      | beyond h1 h2 h3 => exact .inr (.inl ⟨h1, h2, h3⟩)
      | thread h1 h2 h3 h4 => exact .inr (.inr ⟨h1, h2, h3, h4⟩)⟩

/-- A resolver ends without memory, outside `handle_block_notifications`. -/
def lostNotification (p : Proxy) (e : Event) : Bool :=
  match p.phase, e with
  | .notifying _, _ => false
  | _, .resolved i _ false => i < p.world.resolvers.length
  | _, _ => false

theorem lostNotification_iff (p : Proxy) (e : Event) :
    lostNotification p e = true ↔ LostNotification p e := by
  obtain ⟨w, phase⟩ := p
  constructor
  · intro h
    cases phase with
    | notifying jobs => simp [lostNotification] at h
    | idle | reading _ | writing _ _ =>
      cases e with
      | resolved i result malloc =>
        cases malloc with
        | true => simp [lostNotification] at h
        | false => exact ⟨i, result, rfl, by simp, by simpa [lostNotification] using h⟩
      | select _ _ | interrupted | next _ => simp [lostNotification] at h
  · rintro ⟨i, result, rfl, hphase, hlt⟩
    cases phase with
    | notifying jobs => exact absurd rfl (hphase jobs)
    | idle | reading _ | writing _ _ => simpa [lostNotification] using hlt

instance (p : Proxy) (e : Event) : Decidable (LostNotification p e) :=
  decidable_of_iff _ (lostNotification_iff p e)

instance (p : Proxy) (e : Event) : Decidable (Tended p e) :=
  match h : p.call e with
  | none => decidable_of_iff (¬ LostNotification p e)
      ⟨fun hl => ⟨fun c hc => by rw [h] at hc; exact absurd hc (by simp), hl⟩, fun ht => ht.2⟩
  | some c => decidable_of_iff
      ((c.handler = .suscriptions → ¬ Stranding c.io c.key.data p.world) ∧ ¬ LostNotification p e)
      ⟨fun hs => ⟨fun c' hc => by
        rw [h, Option.some.injEq] at hc
        exact hc ▸ hs.1, hs.2⟩, fun ht => ⟨ht.1 c h, ht.2⟩⟩

/-- Some descriptor is armed. -/
def Wires.Armed (l : Wires) : Prop :=
  l.client ≠ OP_NOOP ∨ ∃ i, l.origin = .armed i ∧ i ≠ OP_NOOP

/-- A connection that something will move on. -/
structure Steady (w : World) (pending : List Int) (a : Addr) (s : Option States) (l : Wires) :
    Prop where
  connected : Connected w a s l
  resolving : s = some .resolvConnection → (w.heap a).clientFd ∈ pending
  armed : s ≠ some .resolvConnection → l.Armed

section
variable {a b : Addr} {s : Option States} {l : Wires} {w w' : World} {io : Io}
variable {pending pending' jobs : List Int}

/-- Only two states are entered with nothing armed. -/
theorem Allowed.armed (h : Allowed s l) (hresolv : s ≠ some .resolvConnection)
    (hestabl : s ≠ some .establConnection) : l.Armed := by
  cases h with
  | resolving => exact absurd rfl hresolv
  | connecting | attemptFailed _ _ => exact absurd rfl hestabl
  | fresh | unconnected _ | greeting _ | greetingNever _ | command _ | relay _ =>
    exact .inl (by simp)
  | awaiting | greetingLost | forward | reply _ => exact .inr ⟨_, rfl, by simp⟩

/-- What is armed is a registered descriptor. -/
theorem Connected.item_of_armed (hc : Connected w a s l) (h : l.Armed) :
    ∃ fd it, w.sel.item fd = some it ∧ Owns a it ∧ it.interest ≠ OP_NOOP := by
  rcases h with h | ⟨i, ho, hi⟩
  · exact ⟨_, _, hc.wired.client, ⟨rfl, rfl⟩, h⟩
  · have horigin := hc.wired.origin
    simp only [OriginIs, ho] at horigin
    exact ⟨_, _, horigin.2, ⟨rfl, rfl⟩, hi⟩

theorem Steady.frame (h : Steady w pending b s l) (hf : Frame a w w') (hb : b ≠ a)
    (hsub : s = some .resolvConnection → (w.heap b).clientFd ∈ pending') :
    Steady w' pending' b s l :=
  ⟨h.connected.frame hf hb, fun hs => by rw [hf.heap b hb]; exact hsub hs, h.armed⟩

/-- **The attempt of the first event** keeps something armed. -/
theorem Attempt.armed_of_first (h : Attempt io w OP_WRITE l) (hbeyond : ¬ BeyondSelector io w) :
    l.Armed := by
  cases h with
  | started _ => exact .inr ⟨_, rfl, by simp⟩
  | refused _ _ => exact .inl (by simp)
  | unregistered h => exact absurd h hbeyond
  | leaked _ => exact .inl (by simp)

theorem BeyondSelector.not_starts (h : BeyondSelector io w) :
    ¬ ConnectStarts io w ∧ ¬ ConnectsAtOnce io w := by
  obtain ⟨fd, hfd, -, hcon, -, hle⟩ := h
  constructor
  · rintro ⟨fd', hfd', -, -, -, hlt⟩
    rw [hfd, Option.some.injEq] at hfd'
    omega
  · rintro ⟨-, -, hcon'⟩
    rw [hcon] at hcon'
    exact absurd hcon' (by simp)

theorem NioRefused.not_starts (h : NioRefused io w) :
    ¬ ConnectStarts io w ∧ ¬ ConnectsAtOnce io w := by
  constructor
  · rintro ⟨-, -, hnio, -⟩
    rw [h.2] at hnio
    exact absurd hnio (by simp)
  · rintro ⟨-, hnio, -⟩
    rw [h.2] at hnio
    exact absurd hnio (by simp)

/-- **The attempt after the resolution** arms the origin, or strands the connection. -/
theorem Attempt.armed_or {i : FdInterest} (h : Attempt io w i l) :
    l.Armed ∨ ¬ ConnectStarts io w ∧ ¬ ConnectsAtOnce io w := by
  cases h with
  | started _ => exact .inl (.inr ⟨_, rfl, by simp⟩)
  | refused h hcon => exact .inr ⟨h, hcon⟩
  | unregistered h => exact .inr h.not_starts
  | leaked h => exact .inr h.not_starts

/-- **The connection a handler ran for** is steady again. -/
theorem Moved.steady {key : SelectorKey} {op : Op} {next : States} {l' : Wires}
    (hc : Connected w key.data s l) (hd : Dispatched w key.data s l key.fd op)
    (ht : Trans io key.data w (stateOf s) l next l') (hall : Allowed (some next) l')
    (hfirst : s = none → FirstGoes io w.currOriginServer next)
    (hm : Moved key.data next l'
      (if next = .resolvConnection ∧ io.pthreadCreate = 0 then [key] else []) w w')
    (hno : ¬ Stranding io key.data w) :
    Steady w' (w'.resolvers.map (·.fd) ++ jobs) key.data (some next) l' := by
  have hcur := hc.current
  refine ⟨⟨hm.wired, hm.current, hall⟩, fun hs => ?_, fun hs => ?_⟩
  -- a resolver was started for the client descriptor
  · obtain rfl := Option.some.inj hs
    have hst : stateOf s = .processConnection ∧ ¬ NoResolver io := by
      generalize stateOf s = st at ht
      cases ht with
      | resolving h => exact ⟨rfl, h⟩
      | replyRead _ hn => simp at hn
      | replyPart hs => simp at hs
    obtain rfl := hc.allowed.none_of_first hst.1
    have hserver : w.currOriginServer = .domain := by
      by_contra hserver
      simpa using (hfirst rfl).attempt hserver
    have hzero : io.pthreadCreate = 0 := by
      by_contra hpos
      exact hno (.thread hcur hserver hst.2 hpos)
    have hfd := hd.client_of_absent (hc.allowed.absent_of_resolving (by simp) ht)
    rw [hm.resolvers, hm.clientFd, ← hfd]
    simp [hzero]
  · by_cases hestabl : next = .establConnection
    · subst hestabl
      generalize hst : stateOf s = st at ht
      cases ht with
      | attempt hs hatt =>
        rcases hs with rfl | rfl
        · obtain rfl := hc.allowed.none_of_first hst
          obtain ⟨⟩ := hc.allowed
          refine hatt.armed_of_first fun hbeyond => hno (.beyond hcur (fun hserver => ?_) hbeyond)
          exact (hfirst rfl).not_attempt hserver rfl
        · obtain rfl := stateOf_eq hst (by simp)
          exact hatt.armed_or.resolve_right fun h => hno (.resolved hcur h.1 h.2)
      | replyRead _ hn => simp at hn
      | replyPart hs => simp at hs
    · exact hall.armed hs (by simpa using hestabl)

/-! ## A handler call -/

/-- No call ends a resolver. -/
theorem Call.run_resolvers {c : Call} (h : WorldInv w pending) {it : Item FdHandler Addr}
    (hit : w.sel.item c.key.fd = some it) (hdata : c.key.data = it.data)
    (hhandler : c.handler = it.handler)
    (hop : c.op = .block ∧ c.key.fd ∈ pending ∨ c.op ≠ .block ∧ c.op.bit it.interest = true)
    (hrun : c.run w = .ok w') : ∃ ts, w'.resolvers = w.resolvers ++ ts := by
  rcases Call.run_cases h hit hdata hhandler hop hrun with ⟨-, rfl⟩ | ⟨-, s, l, -, -, hres⟩
  · rcases pop3PassiveAccept_cases c.io h.sound h.pool with heq | ⟨a, hadm | hrej⟩
    · exact ⟨[], by rw [heq, List.append_nil]⟩
    · exact ⟨[], by rw [hadm.resolvers, List.append_nil]⟩
    · exact ⟨[], by rw [hrej.resolvers, List.append_nil]⟩
  · rcases hres with hfin | ⟨next, l', -, -, -, hm⟩
    · exact ⟨[], by rw [hfin.resolvers, List.append_nil]⟩
    · exact ⟨_, hm.resolvers⟩

/-- The descriptors of two connections differ. -/
theorem Connected.clientFd_ne (hc : Connected w b s l) {fd : Int} {it : Item FdHandler Addr}
    (hit : w.sel.item fd = some it) (hown : ¬ Owns b it) : (w.heap b).clientFd ≠ fd := by
  rintro rfl
  rw [hc.wired.client, Option.some.injEq] at hit
  subst hit
  exact hown ⟨rfl, rfl⟩

/-- **A call** that strands no connection keeps the connections steady, when no
notification but its own is used up. -/
theorem steady_run {c : Call} (jobs : List Int) (h : WorldInv w pending)
    (hsteady : ∀ b, Live w b → ∃ s l, Steady w pending b s l) {it : Item FdHandler Addr}
    (hit : w.sel.item c.key.fd = some it) (hdata : c.key.data = it.data)
    (hhandler : c.handler = it.handler)
    (hop : c.op = .block ∧ c.key.fd ∈ pending ∨ c.op ≠ .block ∧ c.op.bit it.interest = true)
    (hrun : c.run w = .ok w')
    (hno : c.handler = .suscriptions → ¬ Stranding c.io c.key.data w)
    (hkeep : ∀ fd ∈ pending, fd ≠ c.key.fd → fd ∈ w'.resolvers.map (·.fd) ++ jobs) :
    ∀ b, Live w' b → ∃ s l, Steady w' (w'.resolvers.map (·.fd) ++ jobs) b s l := by
  -- the connections the call is not for
  have hother : ∀ {a : Addr}, Frame a w w' → ∀ b, b ≠ a → ¬ Owns b it → Live w' b →
      ∃ s l, Steady w' (w'.resolvers.map (·.fd) ++ jobs) b s l := by
    intro a hf b hb hown hl
    obtain ⟨s, l, hs⟩ := hsteady b ((hf.live hb).mp hl)
    refine ⟨s, l, hs.frame hf hb fun hresolv => hkeep _ (hs.resolving hresolv) ?_⟩
    exact hs.connected.clientFd_ne hit hown
  rcases Call.run_cases h hit hdata hhandler hop hrun with ⟨hh, rfl⟩ | ⟨hh, s, l, hc, hd, hres⟩
  · have hnot : ∀ b, ¬ Owns b it := fun b hown => by
      rw [hown.1] at hh
      exact absurd hh (by simp)
    rcases pop3PassiveAccept_cases c.io h.sound h.pool with heq | ⟨a, hadm | hrej⟩
    · intro b hl
      rw [heq] at hl hkeep ⊢
      obtain ⟨s, l, hs⟩ := hsteady b hl
      exact ⟨s, l, hs.connected, fun hresolv => hkeep _ (hs.resolving hresolv)
        (hs.connected.clientFd_ne hit (hnot b)), hs.armed⟩
    · intro b hl
      by_cases hb : b = a
      · subst hb
        obtain ⟨client, hnew⟩ := hadm.new
        exact ⟨none, _, ⟨hadm.wired, by rw [hnew]; rfl, .fresh⟩, by simp, fun _ => .inl (by simp)⟩
      · exact hother hadm.frame b hb (hnot b) hl
    · intro b hl
      by_cases hb : b = a
      · subst hb
        exact absurd hl hrej.notLive'
      · exact hother hrej.frame b hb (hnot b) hl
  · have hnot : ∀ b, b ≠ it.data → ¬ Owns b it := fun b hb hown => hb hown.2.symm
    intro b hl
    rcases hres with hfin | ⟨next, l', ht, hall, hfirst, hm⟩
    · by_cases hb : b = it.data
      · subst hb
        obtain ⟨fd, it', hit', hown⟩ := hl
        exact absurd hown (hfin.gone fd it' hit')
      · exact hother hfin.frame b hb (hnot b hb) hl
    · by_cases hb : b = it.data
      · subst hb
        rw [← hdata] at hc hd ht hm ⊢
        exact ⟨_, _, hm.steady hc hd ht hall hfirst (hno (hhandler.trans hh))⟩
      · exact hother hm.frame b hb (hnot b hb) hl

end

/-! ## The proxy -/

/-- Every connection is steady. -/
structure SteadyInv (p : Proxy) : Prop where
  inv : ProxyInv p
  steady : ∀ a, Live p.world a → ∃ s l, Steady p.world p.pending a s l

theorem SteadyInv.called {p : Proxy} {e : Event} {c : Call} {w' : World} (h : SteadyInv p)
    (hc : p.call e = some c) (htended : Tended p e) (hrun : c.run p.world = .ok w') :
    SteadyInv ⟨w', p.after c⟩ := by
  obtain ⟨it, hit, hdata, hhandler, hsite⟩ := h.inv.call_spec hc
  obtain ⟨-, -, hjobs⟩ := Call.run_slaves h.inv.world hit hdata hhandler hsite.op hrun
  obtain ⟨ts, hresolvers⟩ := Call.run_resolvers h.inv.world hit hdata hhandler hsite.op hrun
  refine ⟨h.inv.called hc hrun, ?_⟩
  have hno := htended.1 c hc
  have hinv := h.inv.world
  have hsteady := h.steady
  have hop := hsite.op
  obtain ⟨w, phase⟩ := p
  have hready : ∀ jobs, Proxy.pending ⟨w, phase⟩ = w.resolvers.map (·.fd) ++ jobs →
      ∀ b, Live w' b → ∃ s l, Steady w' (w'.resolvers.map (·.fd) ++ jobs) b s l := by
    intro jobs hpending
    refine steady_run jobs hinv hsteady hit hdata hhandler hop hrun hno fun fd hfd _ => ?_
    rw [hpending, List.mem_append] at hfd
    rw [hresolvers, List.map_append, List.mem_append, List.mem_append]
    exact hfd.imp_left .inl
  cases hsite with
  | read pass hp _ _ _ _ =>
    simp only at hp hjobs
    subst hp
    show ∀ b, Live w' b → ∃ s l, Steady w' (w'.resolvers.map (·.fd) ++ w'.sel.resolutionJobs) b s l
    rw [hjobs]
    exact hready _ rfl
  | write pass key hp _ _ _ _ =>
    simp only at hp hjobs
    subst hp
    show ∀ b, Live w' b → ∃ s l, Steady w' (w'.resolvers.map (·.fd) ++ w'.sel.resolutionJobs) b s l
    rw [hjobs]
    exact hready _ rfl
  | block jobs hp _ =>
    simp only at hp
    subst hp
    refine steady_run jobs hinv hsteady hit hdata hhandler hop hrun hno fun fd hfd hne => ?_
    simp only [Proxy.pending, Proxy.jobs, List.mem_append, List.mem_cons] at hfd
    rw [hresolvers, List.map_append, List.mem_append, List.mem_append]
    rcases hfd with hfd | rfl | hfd
    · exact .inl (.inl hfd)
    · exact absurd rfl hne
    · exact .inr hfd

/-- No notification is lost by an event without a call. -/
theorem quiet_pending {p : Proxy} {e : Event} (h : ProxyInv p) (hc : p.call e = none)
    (hlost : ¬ LostNotification p e) : ∀ fd ∈ p.pending, fd ∈ (p.quiet e).pending := by
  have hresolved : (∀ jobs, p.phase ≠ .notifying jobs) → ∀ i result malloc,
      e = .resolved i result malloc →
      ∀ fd ∈ p.world.resolvers.map (·.fd) ++ p.world.sel.resolutionJobs,
        fd ∈ (resolvConnectionBlocking i result malloc p.world).resolvers.map (·.fd) ++
          (resolvConnectionBlocking i result malloc p.world).sel.resolutionJobs := by
    rintro hphase i result malloc rfl fd hfd
    cases malloc with
    | true => exact (pending_resolved_perm i result p.world).mem_iff.mpr hfd
    | false =>
      have hi : p.world.resolvers[i]? = none := by
        refine List.getElem?_eq_none (Nat.not_lt.mp fun hlt => ?_)
        exact hlost ⟨i, result, rfl, hphase, hlt⟩
      simpa only [resolvConnectionBlocking, hi] using hfd
  obtain ⟨w, phase⟩ := p
  cases phase with
  | idle =>
    cases e with
    | select _ _ | interrupted | next _ => exact fun _ hfd => hfd
    | resolved i result malloc => exact hresolved (by simp) i result malloc rfl
  | reading pass =>
    cases e with
    | select _ _ | interrupted => exact fun _ hfd => hfd
    | resolved i result malloc => exact hresolved (by simp) i result malloc rfl
    | next io =>
      simp only [Proxy.quiet]
      split_ifs <;> exact fun _ hfd => hfd
  | writing pass key =>
    cases e with
    | resolved i result malloc => exact hresolved (by simp) i result malloc rfl
    | select _ _ | interrupted | next _ => exact fun _ hfd => hfd
  | notifying jobs =>
    cases jobs with
    | nil => cases e <;> exact fun _ hfd => hfd
    | cons fd jobs =>
      cases e with
      | select _ _ | interrupted | resolved _ _ _ => exact fun _ hfd => hfd
      | next io => exact absurd hc (h.call_job io)

theorem SteadyInv.quieted {p : Proxy} {e : Event} (h : SteadyInv p) (hc : p.call e = none)
    (htended : Tended p e) : SteadyInv (p.quiet e) := by
  obtain ⟨hsame, -⟩ := quiet_links p e
  refine ⟨h.inv.quieted hc, fun a hl => ?_⟩
  obtain ⟨s, l, hs⟩ := h.steady a ((hsame.live a).mp hl)
  refine ⟨s, l, hs.connected.sameLinks hsame, fun hresolv => ?_, hs.armed⟩
  rw [hsame.clientFd]
  exact quiet_pending h.inv hc htended.2 _ (hs.resolving hresolv)

theorem SteadyInv.of_reach {p : Proxy} (h : (proxySystem.restrict Tended).Reach p) :
    SteadyInv p := by
  refine EventSystem.System.invariant ?_ ?_ h
  · rintro _ ⟨server, origin, rfl⟩
    refine ⟨proxyInv_start server origin, fun a ⟨fd, it, hit, hown, _⟩ => ?_⟩
    rw [(start_item hit).2] at hown
    exact absurd hown (by simp)
  · intro p e p' hp hgood hs
    replace hs : p.step e = .ok p' := hs
    rw [step_eq] at hs
    cases hc : p.call e with
    | none =>
      simp only [hc, Except.ok.injEq] at hs
      subst hs
      exact hp.quieted hc hgood.2
    | some c =>
      simp only [hc] at hs
      obtain ⟨w', hrun, rfl⟩ := map_eq_ok.mp hs
      exact hp.called hc hgood.2 hrun

/-- Something that is to come can move or close the connection `a`: a registered
descriptor is armed, its resolver runs, or its notification waits. -/
def Attended (p : Proxy) (a : Addr) : Prop :=
  (∃ fd it, p.world.sel.item fd = some it ∧ Owns a it ∧ it.interest ≠ OP_NOOP) ∨
    (p.world.heap a).clientFd ∈ p.pending

/-- **No stranded connection.**  In every run whose events strand none, each
connection in use is attended, between two iterations of the selector and also
within one. -/
theorem attended {p : Proxy} (h : (proxySystem.restrict Tended).Reach p) {a : Addr}
    (hu : InUse p.world a) : Attended p a := by
  have hinv := SteadyInv.of_reach h
  obtain ⟨s, l, hs⟩ := hinv.steady a (hinv.inv.world.pool.used a hu)
  by_cases hresolv : s = some .resolvConnection
  · exact .inr (hs.resolving hresolv)
  · exact .inl (hs.connected.item_of_armed (hs.armed hresolv))

/-- The name of the origin is resolved, and the socket is on its way. -/
def resolvedName : List Event :=
  turn 3 3 .read { accept := some 4 } ++ turn 4 4 .write {} ++
    [.resolved 0 (some .inet) true, .interrupted,
      .next { socket := some 5, errno := .einprogress }, .next {}]

theorem attended_resolvedName :
    Attended (proxySystem.last (.start 3 .domain) resolvedName) 0 :=
  attended ((reach_start_restrict Tended .domain).last_good (fun _ _ => trivial)
    (by decide +kernel)) ⟨rfl, by decide +kernel⟩

/-- The name of the origin is not found. -/
def unknownName : List Event :=
  turn 3 3 .read { accept := some 4 } ++ turn 4 4 .write {} ++
    [.resolved 0 none true, .interrupted, .next { socket := none }, .next {}]

/-- **An unknown name** strands the client: it was disarmed when the resolver was
started, and the attempt that fails afterwards does not arm it again. -/
theorem unknownName_strands : ¬ ∀ p, proxySystem.Reach p → p.phase = .idle →
    ∀ a, InUse p.world a → Attended p a := by
  intro h
  have hp := (reach_start .domain).last (fun _ _ => trivial) unknownName
  have hitem : (proxySystem.last (.start 3 .domain) unknownName).world.sel.item 4 =
      some ⟨4, OP_NOOP, .suscriptions, 0⟩ := rfl
  obtain ⟨s, l, hc⟩ := (ProxyInv.of_reach hp).world.connected 0 ⟨4, _, hitem, rfl, rfl⟩
  rcases h _ hp rfl 0 ⟨rfl, by decide +kernel⟩ with ⟨fd, it, hit, hown, hne⟩ | hmem
  · rcases hc.wired.only fd it hit hown with rfl | rfl
    · replace hit : (proxySystem.last (.start 3 .domain) unknownName).world.sel.item 4 =
        some it := hit
      rw [hitem, Option.some.injEq] at hit
      subst hit
      exact hne rfl
    · replace hit : (proxySystem.last (.start 3 .domain) unknownName).world.sel.item (-1) =
        some it := hit
      exact absurd hit (by simp [FdSelector.item, invalidFd])
  · exact absurd hmem (by decide +kernel)

end Pop3Proxy
