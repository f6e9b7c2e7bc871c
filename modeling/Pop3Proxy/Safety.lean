/-
# When a connection does not bring the proxy down

Four results of system calls lead to a state the table does not provide for
(`Hazard`).  As long as none of them happens, a connection stays in good order
(`Healthy`): the state it is in has a handler for the event that is armed, its
data are as the handler expects, and finishing it only unregisters what is
registered.  So no event of such a run faults.
-/
import Pop3Proxy.Data
import Pop3Proxy.Runs

namespace Pop3Proxy

/-- The calls whose results the connection `a` does not survive. -/
inductive Hazard (io : Io) (a : Addr) (w : World) : Prop where
  /-- `connect` succeeds without waiting: `abort()` -/
  | connected (hs : (w.heap a).current = none ∧ w.currOriginServer ≠ .domain ∨
      (w.heap a).current = some States.resolvConnection.num) (h : ConnectsAtOnce io w)
  /-- `fcntl` fails: the client stays armed, the new descriptor is never registered -/
  | blocking (hs : (w.heap a).current = none) (hserver : w.currOriginServer ≠ .domain)
    (h : NioRefused io w)
  /-- there is no resolver: the greeting is sent from a variant that is not there -/
  | resolver (hs : (w.heap a).current = none) (hserver : w.currOriginServer = .domain)
    (h : NoResolver io)
  /-- the greeting cannot be received: its state has no handler for what is armed -/
  | greeting (hs : (w.heap a).current = some States.greetingSread.num)
    (h : RecvLost io (w.heap a))

instance (io : Io) (a : Addr) (w : World) : Decidable (Hazard io a w) :=
  decidable_of_iff
    ((((w.heap a).current = none ∧ w.currOriginServer ≠ .domain ∨
        (w.heap a).current = some States.resolvConnection.num) ∧ ConnectsAtOnce io w) ∨
      ((w.heap a).current = none ∧ w.currOriginServer ≠ .domain ∧ NioRefused io w) ∨
      ((w.heap a).current = none ∧ w.currOriginServer = .domain ∧ NoResolver io) ∨
      ((w.heap a).current = some States.greetingSread.num ∧ RecvLost io (w.heap a)))
    ⟨fun h => by
      rcases h with ⟨h1, h2⟩ | ⟨h1, h2, h3⟩ | ⟨h1, h2, h3⟩ | ⟨h1, h2⟩
      · exact .connected h1 h2
      · exact .blocking h1 h2 h3
      · exact .resolver h1 h2 h3
      · exact .greeting h1 h2,
    fun h => by
      cases h with
      | connected h1 h2 => exact .inl ⟨h1, h2⟩
      | blocking h1 h2 h3 => exact .inr (.inl ⟨h1, h2, h3⟩)
      | resolver h1 h2 h3 => exact .inr (.inr (.inl ⟨h1, h2, h3⟩))
      | greeting h1 h2 => exact .inr (.inr (.inr ⟨h1, h2⟩))⟩

/-- The wires without the two shapes that lead to a fault. -/
structure Orderly (s : Option States) (l : Wires) : Prop where
  leaked : l.origin = .leaked → s = some .establConnection ∧ l.client = OP_NOOP
  greeting : s = some .greetingCwrite → l.client = OP_WRITE

/-- A connection in good order. -/
structure Healthy (w : World) (a : Addr) (s : Option States) (l : Wires) : Prop where
  connected : Connected w a s l
  orderly : Orderly s l
  data : DataWf (w.heap a) (w.heap a).origin.kind
  uses : ∀ t, s = some t → ∀ k, t.uses = some k → (w.heap a).origin.kind = k

section
variable {io : Io} {key : SelectorKey} {op : Op} {s : Option States} {l : Wires} {w : World}

/-- A leaked descriptor is only left behind where nothing is armed. -/
theorem Orderly.not_leaked (h : Orderly s l) {a : Addr} {fd : Int}
    (hd : Dispatched w a s l fd op) : l.origin ≠ .leaked := by
  intro hl
  obtain ⟨rfl, hc⟩ := h.leaked hl
  cases hd with
  | client _ hbit =>
    rw [hc] at hbit
    cases op <;> cases hbit
  | origin _ ho _ =>
    rw [hl] at ho
    cases ho
  | block _ hs => cases hs

/-- The table has a handler for what is armed. -/
theorem Orderly.handler (h : Orderly s l) (hall : Allowed s l) {a : Addr} {fd : Int}
    (hd : Dispatched w a s l fd op) : ∃ f, handlerOf io key op (stateOf s) = some f := by
  cases hall with
  | resolving =>
    cases hd with
    | client _ hbit => cases op <;> cases hbit
    | origin _ ho _ => cases ho
    | block _ _ => exact ⟨_, rfl⟩
  | attemptFailed hi ho =>
    cases hd with
    | client _ hbit =>
      rcases hi with rfl | rfl <;> cases op <;> cases hbit
      exact ⟨_, rfl⟩
    | origin _ ho' _ => rcases ho with rfl | rfl <;> cases ho'
    | block _ hs => cases hs
  | unconnected ho =>
    cases hd with
    | client _ hbit =>
      cases op <;> cases hbit
      exact ⟨_, rfl⟩
    | origin _ ho' _ => rcases ho with rfl | rfl <;> cases ho'
    | block _ hs => cases hs
  | greeting ho | command ho =>
    cases hd with
    | client _ hbit =>
      cases op <;> cases hbit
      exact ⟨_, rfl⟩
    | origin _ ho' hbit =>
      rcases ho with (rfl | rfl) | rfl <;> cases ho'
      cases op <;> cases hbit
    | block _ hs => cases hs
  | greetingLost => exact absurd (h.greeting rfl) (by simp)
  | greetingNever _ => exact absurd (h.greeting rfl) (by simp)
  | fresh | connecting | awaiting | forward =>
    cases hd with
    | client _ hbit => cases op <;> cases hbit <;> exact ⟨_, rfl⟩
    | origin _ ho hbit => cases ho <;> cases op <;> cases hbit <;> exact ⟨_, rfl⟩
    | block _ hs => cases hs
  | reply hs =>
    rcases hs with rfl | rfl
    all_goals
      cases hd with
      | client _ hbit => cases op <;> cases hbit
      | origin _ ho hbit =>
        cases ho
        cases op <;> cases hbit
        exact ⟨_, rfl⟩
      | block _ hs => cases hs
  | relay hs =>
    rcases hs with rfl | rfl
    all_goals
      cases hd with
      | client _ hbit =>
        cases op <;> cases hbit
        exact ⟨_, rfl⟩
      | origin _ ho hbit =>
        cases ho
        cases op <;> cases hbit
      | block _ hs => cases hs

/-- **The wires stay in order.** -/
theorem Orderly.step {a : Addr} {fd : Int} {next : States} {l' : Wires} (h : Orderly s l)
    (hall : Allowed s l) (hd : Dispatched w a s l fd op)
    (hcur : (w.heap a).current = s.map States.num)
    (ht : Trans io a w (stateOf s) l next l') (hhaz : ¬ Hazard io a w)
    (hdomain : s = none → w.currOriginServer = .domain → next ≠ .establConnection) :
    Orderly (some next) l' := by
  have hleak := h.not_leaked hd
  have hset : ∀ {o : OriginStatus} {i : FdInterest}, o.set i = .leaked → o = .leaked := by
    intro o i ho
    cases o <;> first | rfl | cases ho
  generalize hst : stateOf s = st at ht
  cases ht with
  | attempt hs hatt =>
    refine ⟨fun hl => ?_, by simp⟩
    cases hatt with
    | started _ | refused _ _ | unregistered _ => cases hl
    | leaked hn =>
      rcases hs with rfl | rfl
      -- the first event: `fcntl` failed, or no attempt was made
      · obtain rfl := hall.none_of_first hst
        refine absurd (Hazard.blocking hcur (fun hserver => ?_) hn) hhaz
        exact hdomain rfl hserver rfl
      · obtain rfl := stateOf_eq hst (by simp)
        cases hall with
        | resolving => exact ⟨rfl, rfl⟩
  | noResolver _ => exact ⟨fun hl => absurd hl hleak, fun _ => rfl⟩
  | resolving _ | unconnected _ | greetingSent | commandPart | replySent =>
    exact ⟨fun hl => absurd hl hleak, by simp⟩
  | established | commandRead | forwardSent | dataSent => exact ⟨fun hl => (by cases hl), by simp⟩
  | greetingRead => exact ⟨fun hl => absurd (hset hl) hleak, fun _ => rfl⟩
  | greetingAgain => exact ⟨fun hl => absurd hl hleak, by simp⟩
  | greetingLost hlost =>
    obtain rfl := stateOf_eq hst (by simp)
    exact absurd (.greeting hcur hlost) hhaz
  | greetingPart =>
    obtain rfl := stateOf_eq hst (by simp)
    exact ⟨fun hl => absurd hl hleak, fun _ => h.greeting rfl⟩
  | forwardPart => exact ⟨fun hl => absurd hl hleak, by simp⟩
  | replyRead _ hn =>
    refine ⟨fun hl => absurd (hset hl) hleak, fun hnext => ?_⟩
    rcases hn with rfl | rfl <;> simp at hnext
  | replyPart hs =>
    refine ⟨fun hl => absurd hl hleak, fun hnext => ?_⟩
    rcases hs with rfl | rfl <;> simp at hnext
  | failed _ hiff => exact ⟨fun hl => absurd (hiff.mp hl) hleak, by simp⟩

/-- The variant that is there is the one the next state works with. -/
theorem Trans.uses {a : Addr} {st next : States} {l' : Wires} {k : OriginKind}
    (ht : Trans io a w st l next l') (hk : ∀ k', st.uses = some k' → k = k')
    (hresolver : st = .processConnection → next ≠ .greetingCwrite) :
    (∀ k', next.uses = some k' → (if st = next then k else next.arrivalKind k) = k') ∧
      (next = .establConnection → k = .connecting) ∧ (next = .dotDataSread → k = .response) := by
  cases ht with
  | attempt hs _ =>
    have hk : k = .connecting := by rcases hs with rfl | rfl <;> exact hk _ rfl
    rcases hs with rfl | rfl <;> simp [States.uses, States.arrivalKind, hk]
  | noResolver _ => exact absurd rfl (hresolver rfl)
  | resolving _ => simp [States.uses, States.arrivalKind, hk .connecting rfl]
  | established | unconnected _ | greetingSent | commandPart | commandRead | forwardPart
    | forwardSent | replySent => simp [States.uses, States.arrivalKind]
  | greetingRead | greetingAgain | greetingLost _ | greetingPart =>
    simp [States.uses, States.arrivalKind, hk .greeting rfl]
  | dataSent => simp [States.uses, States.arrivalKind, hk .response rfl]
  | replyRead hs hn =>
    have hk : k = .response := by rcases hs with rfl | rfl <;> exact hk _ rfl
    rcases hs with rfl | rfl <;> rcases hn with rfl | rfl <;>
      simp [States.uses, States.arrivalKind, hk]
  | replyPart hs =>
    have hk : k = .response := by rcases hs with rfl | rfl <;> exact hk _ rfl
    rcases hs with rfl | rfl <;> simp [States.uses, hk]
  | failed _ _ => simp [States.uses]

/-! ## One event -/

/-- The data when the handler of the event starts. -/
theorem Healthy.firstData (h : Healthy w key.data s l) :
    ∃ k, DataWf ((firstWorld key s w).heap key.data) k ∧
      ∀ k', (stateOf s).uses = some k' → k = k' := by
  have hdata := h.data
  cases s with
  | none =>
    refine ⟨.connecting, ?_, fun k' hk => Option.some.inj hk⟩
    rw [firstWorld, World.heap_modify]
    exact ⟨hdata.readBuffer, hdata.writeBuffer, hdata.transBuffer, rfl⟩
  | some t => exact ⟨_, hdata, h.uses t rfl⟩

/-- **Every handler returns**, on good data and without a hazard. -/
theorem handler_returns {f : World → Except Fault (States × World)} {k : OriginKind}
    (hh : handlerOf io key op (stateOf s) = some f)
    (hcur : (w.heap key.data).current = s.map States.num)
    (hhaz : ¬ Hazard io key.data w) (hdata : DataWf ((firstWorld key s w).heap key.data) k)
    (huses : ∀ k', (stateOf s).uses = some k' → k = k') (hall : Allowed s l) :
    Returns key.data k (f (firstWorld key s w)) := by
  generalize hst : stateOf s = st at hh huses
  cases op <;> cases st <;> cases hh
  case write.processConnection =>
    obtain rfl := huses _ rfl
    obtain rfl := hall.none_of_first hst
    refine processConnection_returns w.currOriginServer hdata (by simp [firstWorld])
      fun hserver hcon => hhaz (.connected (.inl ⟨hcur, hserver⟩) ?_)
    exact hcon
  case block.resolvConnection =>
    obtain rfl := huses _ rfl
    obtain rfl := stateOf_eq hst (by simp)
    exact resolvConnection_returns hdata fun hcon => hhaz (.connected (.inr hcur) hcon)
  case write.establConnection =>
    obtain rfl := huses _ rfl
    exact establConnection_returns hdata
  case read.greetingSread =>
    obtain rfl := huses _ rfl
    exact greetingSread_returns hdata
  case write.greetingCwrite =>
    obtain rfl := huses _ rfl
    exact greetingCwrite_returns hdata
  case read.commandCread => exact commandCread_returns hdata
  case write.commandSwrite => exact commandSwrite_returns hdata
  case read.responseSread =>
    obtain rfl := huses _ rfl
    exact responseSread_returns hdata
  case read.dotDataSread =>
    obtain rfl := huses _ rfl
    exact dotDataSread_returns hdata
  case write.dotDataCwrite =>
    obtain rfl := huses _ rfl
    exact relay_returns (fun _ => rfl) hdata
  case write.responseCwrite =>
    obtain rfl := huses _ rfl
    exact relay_returns (fun _ => rfl) hdata
  case write.pipeDream =>
    obtain rfl := stateOf_eq hst (by simp)
    cases hall with
    | reply hs => simp at hs
    | relay hs => simp at hs

theorem enter_passes {k : OriginKind} {next : States} (st : States) (h : DataWf (w.heap key.data) k)
    (hestabl : next = .establConnection → k = .connecting)
    (hdot : next = .dotDataSread → k = .response) :
    Passes key.data (if st = next then k else next.arrivalKind k) (enter key st next w) := by
  unfold enter
  split_ifs
  · exact ⟨w, rfl, h⟩
  · exact arrival_passes h hestabl hdot

/-- **One event** of a connection in good order, without a hazard: it does not
fault, and the connection is in good order afterwards if it is still there. -/
theorem suscription_safe (h : Healthy w key.data s l) (hsnd : Sound w)
    (hd : Dispatched w key.data s l key.fd op) (hhaz : ¬ Hazard io key.data w) :
    ∃ w', op.suscription io key w = .ok w' ∧
      (Live w' key.data → ∃ s' l', Healthy w' key.data s' l') := by
  have hcur := h.connected.current
  have hall := h.connected.allowed
  have hrun : op.suscription io key w = runHandler op io key (stateOf s) (firstWorld key s w) :=
    suscription_eq_runHandler op hcur
  have h₀ := moves_firstWorld hsnd h.connected.wired s
  obtain ⟨f, hf⟩ : ∃ f, handlerOf io key op (stateOf s) = some f := h.orderly.handler hall hd
  obtain ⟨k, hdata, huses⟩ := h.firstData
  obtain ⟨next, w₁, hret, hdata₁⟩ := handler_returns hf hcur hhaz hdata huses hall
  obtain ⟨l', ht, hm⟩ := handler_controlled hall hd.firstWorld h₀.sound h₀.wired hf next w₁ hret
  have ht := ht.of_firstWorld
  -- only the first handler can go wrong about where it leads
  have hfirst : stateOf s = .processConnection → s = none ∧
      (w.currOriginServer = .domain → next ≠ .establConnection) ∧ next ≠ .greetingCwrite := by
    intro hst
    obtain rfl := hall.none_of_first hst
    cases op <;> cases hf
    have hgoes := processConnection_goes w.currOriginServer (by simp [firstWorld]) hret
    refine ⟨rfl, fun hserver => hgoes.not_attempt hserver, ?_⟩
    by_cases hserver : w.currOriginServer = .domain
    · rw [hgoes.resolving hserver fun hno => hhaz (.resolver hcur hserver hno)]
      simp
    · rw [hgoes.attempt hserver]
      simp
  obtain ⟨hnext, hestabl, hdot⟩ := ht.uses huses fun hst => (hfirst hst).2.2
  have horder : Orderly (some next) l' := by
    refine h.orderly.step hall hd hcur ht hhaz ?_
    rintro rfl
    exact (hfirst rfl).2.1
  obtain ⟨w₂, hent, hdata₂⟩ := enter_passes (stateOf s) hdata₁ hestabl hdot
  have hdone := (moves_enter (h₀.trans hm) _ _ hent).conclude next
  have hconclude : op.suscription io key w = conclude key next w₂ := by
    rw [hrun, runHandler]
    simp only [hf, hret, ok_bind, hent]
  by_cases herr : next = .error
  · subst herr
    have hleak : l'.origin ≠ .leaked := fun hl => by simpa using (horder.leaked hl).1
    obtain ⟨w₃, h₃, hfin⟩ := finishedSuscription_ok hdone.sound hdone.wired hleak
    refine ⟨w₃, ?_, fun hl => ?_⟩
    · rw [hconclude, conclude, if_pos (.inl rfl), h₃]
    · obtain ⟨fd, it, hit, hown⟩ := hl
      exact absurd hown (hfin.gone fd it hit)
  · have hall' := (hall.step hd (by rw [hf]; rfl) ht).resolve_left herr
    have hupd : next ≠ .update := by
      rintro rfl
      cases hall' with
      | reply hs => simp at hs
      | relay hs => simp at hs
    refine ⟨_, by rw [hconclude, conclude, if_neg (by simp [herr, hupd])], fun _ => ?_⟩
    refine ⟨some next, l', ⟨hdone.wired, hdone.current, hall'⟩, horder, ?_, ?_⟩
    · rw [World.heap_modify]
      exact ⟨hdata₂.readBuffer, hdata₂.writeBuffer, hdata₂.transBuffer, rfl⟩
    · rw [World.heap_modify]
      rintro t ht k' hk'
      obtain rfl := Option.some.inj ht
      exact hdata₂.kind.trans (hnext k' hk')

end

/-! ## The proxy -/

/-- The event makes no call with a hazard. -/
def Smooth (p : Proxy) (e : Event) : Prop :=
  ∀ c, p.call e = some c → c.handler = .suscriptions → ¬ Hazard c.io c.key.data p.world

instance (p : Proxy) (e : Event) : Decidable (Smooth p e) :=
  match h : p.call e with
  | none => isTrue fun c hc => by rw [h] at hc; exact absurd hc (by simp)
  | some c => decidable_of_iff (c.handler = .suscriptions → ¬ Hazard c.io c.key.data p.world)
      ⟨fun hs c' hc => by
        rw [h, Option.some.injEq] at hc
        exact hc ▸ hs, fun hs => hs c h⟩

/-- All connections are in good order. -/
structure SafeInv (p : Proxy) : Prop where
  inv : ProxyInv p
  healthy : ∀ a, Live p.world a → ∃ s l, Healthy p.world a s l

section
variable {a b : Addr} {s : Option States} {l : Wires} {w w' : World}

theorem Healthy.frame (h : Healthy w b s l) (hf : Frame a w w') (hb : b ≠ a) :
    Healthy w' b s l := by
  have hheap := hf.heap b hb
  exact ⟨h.connected.frame hf hb, h.orderly, by rw [hheap]; exact h.data,
    by rw [hheap]; exact h.uses⟩

/-- One connection changes, and the others stay in good order. -/
theorem healthy_change (h : ∀ b, Live w b → ∃ s l, Healthy w b s l) (hf : Frame a w w')
    (ha : Live w' a → ∃ s l, Healthy w' a s l) : ∀ b, Live w' b → ∃ s l, Healthy w' b s l := by
  intro b hl
  by_cases hb : b = a
  · subst hb
    exact ha hl
  · obtain ⟨s, l, hh⟩ := h b ((hf.live hb).mp hl)
    exact ⟨s, l, hh.frame hf hb⟩

/-- A new connection is in good order. -/
theorem Admitted.healthy {io : Io} (h : Admitted io a w w') :
    Healthy w' a none ⟨OP_WRITE, .absent⟩ := by
  obtain ⟨client, hnew⟩ := h.new
  refine ⟨⟨h.wired, by rw [hnew]; rfl, .fresh⟩, ⟨by simp, by simp⟩, ?_, by simp⟩
  rw [hnew]
  exact dataWf_new client

theorem Healthy.sameLinks (h : Healthy w a s l) (hsame : SameLinks w w')
    (hheap : ∃ r, w'.heap a = { w.heap a with originResolution := r }) : Healthy w' a s l := by
  refine ⟨h.connected.sameLinks hsame, h.orderly, ?_, ?_⟩
  · obtain ⟨r, hr⟩ := hheap
    rw [hr]
    exact ⟨h.data.readBuffer, h.data.writeBuffer, h.data.transBuffer, rfl⟩
  · obtain ⟨r, hr⟩ := hheap
    rw [hr]
    exact h.uses

end

/-- **A call without a hazard** does not fault, and leaves good order behind. -/
theorem SafeInv.run {p : Proxy} {e : Event} {c : Call} (h : SafeInv p) (hc : p.call e = some c)
    (hsmooth : Smooth p e) :
    ∃ w', c.run p.world = .ok w' ∧ ∀ a, Live w' a → ∃ s l, Healthy w' a s l := by
  obtain ⟨it, hit, hdata, hhandler, hsite⟩ := h.inv.call_spec hc
  have hw := h.inv.world
  cases hh : it.handler with
  | passive =>
    refine ⟨_, Call.run_passive hw hit hhandler hsite.op hh, ?_⟩
    rcases pop3PassiveAccept_cases c.io hw.sound hw.pool with heq | ⟨a, hadm | hrej⟩
    · rw [heq]
      exact h.healthy
    · exact healthy_change h.healthy hadm.frame fun _ => ⟨_, _, hadm.healthy⟩
    · exact healthy_change h.healthy hrej.frame fun hl => absurd hl hrej.notLive'
  | suscriptions =>
    obtain ⟨s, l, hhealthy⟩ := h.healthy it.data ⟨_, it, hit, hh, rfl⟩
    obtain ⟨hrun, hd⟩ := Call.run_suscription hw hit hhandler hsite.op hh hhealthy.connected
    have hhaz := hsmooth c hc (hhandler.trans hh)
    rw [← hdata] at hhealthy hd
    obtain ⟨w', hw', hlive⟩ := suscription_safe hhealthy hw.sound hd hhaz
    rw [← hrun] at hw'
    refine ⟨w', hw', ?_⟩
    rcases Call.run_frame hw hit hdata hhandler hsite.op hw' with ⟨hpas, -⟩ | ⟨-, hf⟩
    · rw [hh] at hpas
      exact absurd hpas (by simp)
    · rw [← hdata] at hf
      exact healthy_change h.healthy hf hlive

/-- **An event without a call** keeps good order. -/
theorem SafeInv.quieted {p : Proxy} {e : Event} (h : SafeInv p) (hc : p.call e = none) :
    SafeInv (p.quiet e) := by
  obtain ⟨hsame, hheap⟩ := quiet_links p e
  refine ⟨h.inv.quieted hc, fun a hl => ?_⟩
  obtain ⟨s, l, hh⟩ := h.healthy a ((hsame.live a).mp hl)
  exact ⟨s, l, hh.sameLinks hsame (hheap a)⟩

/-- **One event** without a hazard does not fault and keeps good order. -/
theorem SafeInv.progress {p : Proxy} {e : Event} (h : SafeInv p) (hsmooth : Smooth p e) :
    ∃ p', p.step e = .ok p' ∧ SafeInv p' := by
  rw [step_eq]
  cases hc : p.call e with
  | none => exact ⟨_, rfl, h.quieted hc⟩
  | some c =>
    obtain ⟨w', hrun, hhealthy⟩ := h.run hc hsmooth
    exact ⟨⟨w', p.after c⟩, by simp only [hrun, Except.map], h.inv.called hc hrun, hhealthy⟩

theorem safeInv_start (server : Int) (origin : AddrType) : SafeInv (.start server origin) := by
  refine ⟨proxyInv_start server origin, fun a ⟨fd, it, hit, hown, _⟩ => ?_⟩
  rw [(start_item hit).2] at hown
  exact absurd hown (by simp)

/-- **No fault without a hazard.**  In every run whose events make no call with
a hazard, every further such event returns. -/
theorem no_fault {p : Proxy} {e : Event} (h : (proxySystem.restrict Smooth).Reach p)
    (hsmooth : Smooth p e) : ∃ p', p.step e = .ok p' := by
  have hinv : SafeInv p := by
    refine EventSystem.System.invariant ?_ ?_ h
    · rintro _ ⟨server, origin, rfl⟩
      exact safeInv_start server origin
    · intro p e p' hp hgood hs
      obtain ⟨p'', hs', hp'⟩ := hp.progress hgood.2
      obtain rfl := Except.ok.inj (hs.symm.trans hs')
      exact hp'
  obtain ⟨p', hs, -⟩ := hinv.progress hsmooth
  exact ⟨p', hs⟩

/-- After the greeting the selector waits for the next event. -/
theorem no_fault_greeted : ∃ p',
    (proxySystem.last (.start 3 .ipv4) greeted).step .interrupted = .ok p' :=
  no_fault ((reach_start_restrict Smooth .ipv4).last_good (fun _ _ => trivial)
    (by decide +kernel)) (by decide +kernel)

/-- The origin closes the connection before its greeting. -/
def greetingEof : List Event :=
  reachOrigin ++ turn 5 5 .read { recv := some [] } ++ turn 5 5 .read { recv := some [] }

/-- **The end of the stream before the greeting** aborts the proxy: its state
goes on to `GREETING_CWRITE`, and the origin stays armed for reading. -/
theorem greetingEof_aborts : proxySystem.run (.start 3 .ipv4) greetingEof = .error .abort ∧
    ¬ ∀ p e, proxySystem.Reach p → ∃ p', p.step e = .ok p' := by
  have hrun : proxySystem.run (.start 3 .ipv4) greetingEof = .error .abort := rfl
  refine ⟨hrun, fun h => ?_⟩
  obtain ⟨p, e, hp, hs⟩ := (reach_start .ipv4).run_error (fun _ _ => trivial) hrun
  obtain ⟨p', hs'⟩ := h p e hp
  rw [show proxySystem.step p e = p.step e from rfl, hs'] at hs
  exact absurd hs (by simp)

end Pop3Proxy
