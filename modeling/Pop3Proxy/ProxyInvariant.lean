/-
# The invariant of the running proxy

The memory keeps `WorldInv` at every place of the selector loop, and during a
pass the readiness bits not looked at yet belong to descriptors that are still
registered, at most one for each connection, and to connections none of whose
handlers has run in this pass.
-/
import Pop3Proxy.WorldInvariant
import Mathlib.Data.List.Perm.Basic

namespace Pop3Proxy

/-! ## The handler call of an event -/

/-- A call of a registered handler. -/
structure Call where
  handler : FdHandler
  op : Op
  key : SelectorKey
  io : Io

/-- The handler the call is for. -/
def Call.run (c : Call) (w : World) : Except Fault World :=
  match c.op with
  | .read => handleRead c.handler c.io c.key w
  | .write => handleWrite c.handler c.io c.key w
  | .block => handleBlock c.handler c.io c.key w

/-- The call an event makes, if it makes one. -/
def Proxy.call (p : Proxy) (e : Event) : Option Call :=
  match p.phase, e with
  | .reading pass, .next io =>
    match p.world.sel.fds pass.i with
    | some item =>
      if pass.i ≤ pass.n ∧ (p.world.sel.slaveR item.fd.toNat && item.interest.read) = true then
        some ⟨item.handler, .read, ⟨item.fd, item.data⟩, io⟩
      else none
    | none => none
  | .writing pass (some key), .next io =>
    match p.world.sel.fds pass.i with
    | some item =>
      if (p.world.sel.slaveW pass.i && item.interest.write) = true then
        some ⟨item.handler, .write, key, io⟩
      else none
    | none => none
  | .notifying (fd :: _), .next io =>
    match p.world.sel.fds fd.toNat with
    | some item => some ⟨item.handler, .block, ⟨item.fd, item.data⟩, io⟩
    | none => none
  | _, _ => none

section
variable {w w' : World} {jobs : List Int}

/-- A call for the listening socket accepts a connection. -/
theorem Call.run_passive {c : Call} {pending : List Int} (h : WorldInv w pending)
    {it : Item FdHandler Addr} (hit : w.sel.item c.key.fd = some it)
    (hhandler : c.handler = it.handler)
    (hop : c.op = .block ∧ c.key.fd ∈ pending ∨ c.op ≠ .block ∧ c.op.bit it.interest = true)
    (hh : it.handler = .passive) : c.run w = .ok (pop3PassiveAccept c.io w) := by
  obtain ⟨handler, op, key, io⟩ := c
  simp only at hit hhandler hop
  subst hhandler
  have hint := h.passive _ it hit hh
  rw [hint] at hop
  rcases hop with ⟨rfl, hmem⟩ | ⟨-, hop⟩
  · obtain ⟨it', hit', hh', -⟩ := h.awaited.resolving _ hmem
    rw [hit, Option.some.injEq] at hit'
    rw [← hit', hh] at hh'
    exact absurd hh' (by simp)
  · cases op with
    | read => simp only [Call.run, hh, handleRead]
    | write => simp [Op.bit] at hop
    | block => simp [Op.bit] at hop

/-- A call for another descriptor is for a connection the event is armed or
awaited for. -/
theorem Call.run_suscription {c : Call} {pending : List Int} (h : WorldInv w pending)
    {it : Item FdHandler Addr} (hit : w.sel.item c.key.fd = some it)
    (hhandler : c.handler = it.handler)
    (hop : c.op = .block ∧ c.key.fd ∈ pending ∨ c.op ≠ .block ∧ c.op.bit it.interest = true)
    (hh : it.handler = .suscriptions) {s : Option States} {l : Wires}
    (hc : Connected w it.data s l) :
    c.run w = c.op.suscription c.io c.key w ∧ Dispatched w it.data s l c.key.fd c.op := by
  have hown : Owns it.data it := ⟨hh, rfl⟩
  constructor
  · rw [Call.run, hhandler, hh]
    cases c.op <;> rfl
  · rcases hop with ⟨hop, hmem⟩ | ⟨-, hop⟩
    · obtain ⟨it', hit', -, hfd, hcur⟩ := h.awaited.resolving _ hmem
      rw [hit, Option.some.injEq] at hit'
      subst hit'
      rw [hop]
      exact .block hfd.symm (hc.state_eq hcur)
    · exact hc.dispatched hit hown hop

/-- What a call can do, when the descriptor of its key is registered and the
event is one the selector dispatches. -/
theorem Call.run_cases {c : Call} {pending : List Int} (h : WorldInv w pending)
    {it : Item FdHandler Addr} (hit : w.sel.item c.key.fd = some it) (hdata : c.key.data = it.data)
    (hhandler : c.handler = it.handler)
    (hop : c.op = .block ∧ c.key.fd ∈ pending ∨ c.op ≠ .block ∧ c.op.bit it.interest = true)
    (hrun : c.run w = .ok w') :
    (it.handler = .passive ∧ w' = pop3PassiveAccept c.io w) ∨
      (it.handler = .suscriptions ∧ ∃ s l, Connected w it.data s l ∧
        Dispatched w it.data s l c.key.fd c.op ∧
        (Finished it.data w w' ∨ ∃ next l', Trans c.io it.data w (stateOf s) l next l' ∧
          Allowed (some next) l' ∧ (s = none → FirstGoes c.io w.currOriginServer next) ∧
          Moved it.data next l'
            (if next = .resolvConnection ∧ c.io.pthreadCreate = 0 then [c.key] else []) w w')) := by
  cases hh : it.handler with
  | passive =>
    rw [Call.run_passive h hit hhandler hop hh, Except.ok.injEq] at hrun
    exact .inl ⟨rfl, hrun.symm⟩
  | suscriptions =>
    obtain ⟨s, l, hc⟩ := h.connected it.data ⟨_, it, hit, hh, rfl⟩
    obtain ⟨hrun', hd⟩ := Call.run_suscription h hit hhandler hop hh hc
    rw [hrun'] at hrun
    refine .inr ⟨rfl, s, l, hc, hd, ?_⟩
    rw [← hdata] at hc hd ⊢
    exact suscription_step hc.allowed hd h.sound hc.wired hc.current hrun

/-- The connection a handler ran for keeps the invariant. -/
theorem WorldInv.connected_of_moved {pending : List Int} (h : WorldInv w pending) {a : Addr}
    {s : Option States} {l : Wires} (hc : Connected w a s l) {next : States} {l' : Wires}
    {ts : List SelectorKey} (hall : Allowed (some next) l') (hm : Moved a next l' ts w w') :
    w'.allocated a = true ∧ a ∉ w'.pool ∧ ∃ s l, Connected w' a s l := by
  rw [hm.allocated, hm.pool]
  exact ⟨h.pool.live a hc.live, fun hmem => h.pool.notLive a hmem hc.live,
    some next, l', hm.wired, hm.current, hall⟩

/-- A notification that is to come is not for a connection in another state. -/
theorem WorldInv.pending_other {pending : List Int} (h : WorldInv w pending) {a : Addr}
    {s : Option States} {l : Wires} (hc : Connected w a s l) (hs : s ≠ some .resolvConnection) :
    ∀ fd ∈ pending, ∀ it, w.sel.item fd = some it → ¬ Owns a it := by
  intro fd hfd it hit hown
  obtain ⟨it', hit', -, -, hcur⟩ := h.awaited.resolving fd hfd
  rw [hit, Option.some.injEq] at hit'
  subst hit'
  rw [hown.2] at hcur
  exact hs (hc.state_eq hcur)

/-- **A readiness event** keeps the invariant of the memory. -/
theorem WorldInv.ready {c : Call} (jobs : List Int)
    (h : WorldInv w (w.resolvers.map (·.fd) ++ jobs))
    {it : Item FdHandler Addr} (hit : w.sel.item c.key.fd = some it) (hdata : c.key.data = it.data)
    (hhandler : c.handler = it.handler) (hop : c.op ≠ .block)
    (hbit : c.op.bit it.interest = true) (hrun : c.run w = .ok w') :
    WorldInv w' (w'.resolvers.map (·.fd) ++ jobs) := by
  rcases Call.run_cases h hit hdata hhandler (.inr ⟨hop, hbit⟩) hrun with
    ⟨-, rfl⟩ | ⟨hh, s, l, hc, hd, hres⟩
  · rcases pop3PassiveAccept_cases c.io h.sound h.pool with heq | ⟨a, hadm | hrej⟩
    · rw [heq]
      exact h
    · rw [hadm.resolvers]
      refine h.change hadm.frame hadm.sound hadm.poolKept (fun _ => ?_)
        (fun _ => ⟨_, _, hadm.wired.client, rfl, rfl⟩)
          (h.awaited.frame hadm.frame fun fd _ it hit hown => hadm.notLive ⟨fd, it, hit, hown⟩)
      refine ⟨hadm.allocated, hadm.notPooled, none, _, hadm.wired, ?_, .fresh⟩
      obtain ⟨client, hnew⟩ := hadm.new
      rw [hnew]
      rfl
    · rw [hrej.resolvers]
      exact h.change hrej.frame hrej.sound hrej.poolKept (fun hl => absurd hl hrej.notLive')
        (fun hu => absurd hu hrej.unused)
          (h.awaited.frame hrej.frame fun fd _ it hit hown => hrej.notLive ⟨fd, it, hit, hown⟩)
  · have hs := hd.not_resolving hc.allowed hop
    have hother := h.pending_other hc hs
    rcases hres with hfin | ⟨next, l', ht, hall, -, hm⟩
    · rw [hfin.resolvers]
      exact h.change hfin.frame hfin.sound (h.pool.kept_of_finished hc.live hfin)
        (fun ⟨fd, it, hit, hown⟩ => absurd hown (hfin.gone fd it hit))
        (fun hu => absurd hu hfin.unused) (h.awaited.frame hfin.frame hother)
    · refine h.change hm.frame hm.sound (h.pool.kept_of_moved hm)
        (fun _ => h.connected_of_moved hc hall hm) (fun _ => ⟨_, _, hm.wired.client, rfl, rfl⟩) ?_
      have hold := h.awaited.frame hm.frame hother
      rw [hm.resolvers]
      by_cases hstart : next = .resolvConnection ∧ c.io.pthreadCreate = 0
      · rw [if_pos hstart]
        -- only `process_connection` starts a resolver, and the client was armed
        have hfd : c.key.fd = (w.heap it.data).clientFd := by
          rw [hstart.1] at ht
          exact hd.client_of_absent (hc.allowed.absent_of_resolving hs ht)
        have hnew : c.key.fd ∉ w.resolvers.map (·.fd) ++ jobs := fun hmem =>
          hother _ hmem it hit ⟨hh, rfl⟩
        have hperm : ((w.resolvers ++ [c.key]).map (·.fd) ++ jobs).Perm
            (c.key.fd :: (w.resolvers.map (·.fd) ++ jobs)) := by
          rw [List.map_append, List.append_assoc]
          exact List.perm_middle
        refine ⟨hperm.nodup_iff.mpr (List.nodup_cons.mpr ⟨hnew, h.awaited.nodup⟩),
          fun fd hmem => ?_⟩
        rcases List.mem_cons.mp (hperm.mem_iff.mp hmem) with rfl | hmem
        · refine ⟨⟨c.key.fd, l'.client, .suscriptions, it.data⟩, ?_, rfl,
            hm.clientFd.trans hfd.symm, ?_⟩
          · rw [hfd, ← hm.clientFd]
            exact hm.wired.client
          · rw [← hstart.1]
            exact hm.current
        · exact hold.resolving fd hmem
      · rw [if_neg hstart, List.append_nil]
        exact hold

/-- **A notification** keeps the invariant of the memory, and is used up. -/
theorem WorldInv.notified {c : Call} (jobs : List Int)
    (h : WorldInv w (w.resolvers.map (·.fd) ++ c.key.fd :: jobs))
    {it : Item FdHandler Addr} (hit : w.sel.item c.key.fd = some it) (hdata : c.key.data = it.data)
    (hhandler : c.handler = it.handler) (hop : c.op = .block) (hrun : c.run w = .ok w') :
    WorldInv w' (w'.resolvers.map (·.fd) ++ jobs) := by
  -- no descriptor is awaited twice, so the others are awaited without this one
  have hmem : c.key.fd ∈ w.resolvers.map (·.fd) ++ c.key.fd :: jobs := by simp
  have hperm : (w.resolvers.map (·.fd) ++ c.key.fd :: jobs).Perm
      (c.key.fd :: (w.resolvers.map (·.fd) ++ jobs)) := List.perm_middle
  have hnodup := List.nodup_cons.mp (hperm.nodup_iff.mp h.awaited.nodup)
  have hrest : Awaited w (w.resolvers.map (·.fd) ++ jobs) :=
    ⟨hnodup.2,
      fun fd hfd => h.awaited.resolving fd (hperm.mem_iff.mpr (List.mem_cons_of_mem _ hfd))⟩
  obtain ⟨it', hit', hh', hfd', -⟩ := h.awaited.resolving _ hmem
  rw [hit, Option.some.injEq] at hit'
  subst hit'
  rcases Call.run_cases h hit hdata hhandler (.inl ⟨hop, hmem⟩) hrun with
    ⟨hh, -⟩ | ⟨hh, s, l, hc, hd, hres⟩
  · rw [hh] at hh'
    exact absurd hh' (by simp)
  -- the connections waiting for the other notifications have other descriptors
  · have hother : ∀ fd ∈ w.resolvers.map (·.fd) ++ jobs, ∀ it', w.sel.item fd = some it' →
        ¬ Owns it.data it' := by
      intro fd hfd it' hit' hown
      obtain ⟨it'', hit'', -, hclient, -⟩ := hrest.resolving fd hfd
      rw [hit', Option.some.injEq] at hit''
      subst hit''
      rw [hown.2, hfd'] at hclient
      rw [← hclient] at hfd
      exact hnodup.1 hfd
    rcases hres with hfin | ⟨next, l', ht, hall, -, hm⟩
    · rw [hfin.resolvers]
      exact h.change hfin.frame hfin.sound (h.pool.kept_of_finished hc.live hfin)
        (fun ⟨fd, it, hit, hown⟩ => absurd hown (hfin.gone fd it hit))
        (fun hu => absurd hu hfin.unused) (hrest.frame hfin.frame hother)
    -- a connection that is told a result does not ask again
    · have hnext : next ≠ .resolvConnection := by
        rintro rfl
        rw [hop] at hd
        cases hd with
        | client _ h => cases h
        | origin _ _ h => cases h
        | block _ hs =>
          subst hs
          cases ht with
          | replyPart hs => simp [stateOf] at hs
          | replyRead hs _ => simp [stateOf] at hs
      rw [hm.resolvers, if_neg (by simp [hnext]), List.append_nil]
      exact h.change hm.frame hm.sound (h.pool.kept_of_moved hm)
        (fun _ => h.connected_of_moved hc hall hm) (fun _ => ⟨_, _, hm.wired.client, rfl, rfl⟩)
        (hrest.frame hm.frame hother)

end

/-! ## Half duplex -/

/-- An interest in nothing, or in a single operation. -/
def FdInterest.Single (i : FdInterest) : Prop := i = OP_READ ∨ i = OP_WRITE

/-- Of the descriptors registered for `a` at most one is armed, for one operation. -/
def HalfDuplex (w : World) (a : Addr) : Prop :=
  ∀ fd it, w.sel.item fd = some it → Owns a it → it.interest ≠ OP_NOOP →
    it.interest.Single ∧
      ∀ fd' it', w.sel.item fd' = some it' → Owns a it' → it'.interest ≠ OP_NOOP → fd' = fd

/-- The table arms one descriptor at most. -/
theorem Allowed.single {s : Option States} {l : Wires} (h : Allowed s l) :
    (l.client ≠ OP_NOOP → l.client.Single ∧ ∀ i, l.origin = .armed i → i = OP_NOOP) ∧
      ∀ i, l.origin = .armed i → i ≠ OP_NOOP → i.Single := by
  cases h with
  | attemptFailed hi ho =>
    rcases hi with rfl | rfl <;> rcases ho with rfl | rfl <;> simp [FdInterest.Single]
  | unconnected ho | greetingNever ho => rcases ho with rfl | rfl <;> simp [FdInterest.Single]
  | greeting ho | command ho =>
    rcases ho with (rfl | rfl) | rfl <;> simp [FdInterest.Single]
  | fresh | resolving | connecting | awaiting | greetingLost | forward | reply _ | relay _ =>
    simp [FdInterest.Single]

theorem Connected.halfDuplex {w : World} {a : Addr} {s : Option States} {l : Wires}
    (hc : Connected w a s l) : HalfDuplex w a := by
  have hsingle := hc.allowed.single
  have ho := hc.wired.origin
  -- an armed item is the client's, or the origin's with the client disarmed
  have hcases : ∀ fd it, w.sel.item fd = some it → Owns a it → it.interest ≠ OP_NOOP →
      it.interest.Single ∧
        (fd = (w.heap a).clientFd ∧ l.client ≠ OP_NOOP ∨
          fd = (w.heap a).originFd ∧ l.client = OP_NOOP) := by
    intro fd it hit hown hne
    rcases hc.wired.only fd it hit hown with rfl | rfl
    · rw [hc.wired.client, Option.some.injEq] at hit
      subst hit
      exact ⟨(hsingle.1 hne).1, .inl ⟨rfl, hne⟩⟩
    · cases hl : l.origin with
      | absent =>
        simp only [OriginIs, hl] at ho
        rw [ho] at hit
        exact absurd hit (by simp [FdSelector.item, invalidFd])
      | leaked =>
        simp only [OriginIs, hl] at ho
        rw [ho.2.2] at hit
        exact absurd hit (by simp)
      | armed i =>
        simp only [OriginIs, hl] at ho
        rw [ho.2, Option.some.injEq] at hit
        subst hit
        refine ⟨hsingle.2 i hl hne, .inr ⟨rfl, ?_⟩⟩
        by_contra hcl
        exact hne ((hsingle.1 hcl).2 i hl)
  intro fd it hit hown hne
  obtain ⟨h1, h2⟩ := hcases fd it hit hown hne
  refine ⟨h1, fun fd' it' hit' hown' hne' => ?_⟩
  obtain ⟨-, h2'⟩ := hcases fd' it' hit' hown' hne'
  rcases h2 with ⟨rfl, hc1⟩ | ⟨rfl, hc1⟩ <;> rcases h2' with ⟨rfl, hc2⟩ | ⟨rfl, hc2⟩
  · rfl
  · exact absurd hc2 hc1
  · exact absurd hc1 hc2
  · rfl

/-! ## The pass -/

/-- The readiness bits the pass has still to look at. -/
def Phase.left (sel : FdSelector FdHandler Addr) : Phase → ℕ → Prop
  | .reading pass => fun n => pass.i ≤ n ∧ (sel.slaveR n = true ∨ sel.slaveW n = true)
  | .writing pass _ => fun n =>
    pass.i < n ∧ (sel.slaveR n = true ∨ sel.slaveW n = true) ∨ n = pass.i ∧ sel.slaveW n = true
  | _ => fun _ => False

/-- The connections whose handlers ran in the pass. -/
def Phase.ran : Phase → List Addr
  | .reading pass => pass.ran
  | .writing pass _ => pass.ran
  | _ => []

/-- The notifications the selector still holds. -/
def Proxy.jobs (p : Proxy) : List Int :=
  match p.phase with
  | .notifying jobs => jobs
  | _ => p.world.sel.resolutionJobs

/-- The notifications to come. -/
def Proxy.pending (p : Proxy) : List Int := p.world.resolvers.map (·.fd) ++ p.jobs

/-- What holds of the bits that are left and the connections that ran. -/
structure PassInv (sel : FdSelector FdHandler Addr) (left : ℕ → Prop) (ran : List Addr) : Prop where
  nodup : ran.Nodup
  ready : ∀ n, left n → ∃ it, sel.item n = some it ∧
    (it.handler = .suscriptions → it.data ∉ ran)
  alone : ∀ n m it it', left n → left m → sel.item n = some it → sel.item m = some it' →
    it.handler = .suscriptions → Owns it.data it' → n = m

/-- The invariant of the proxy. -/
structure ProxyInv (p : Proxy) : Prop where
  world : WorldInv p.world p.pending
  pass : PassInv p.world.sel (p.phase.left p.world.sel) p.phase.ran
  key : ∀ pass key, p.phase = .writing pass (some key) → p.world.sel.slaveW pass.i = true →
    ∀ it, p.world.sel.item pass.i = some it → key = ⟨it.fd, it.data⟩

/-- Fewer bits are left. -/
theorem PassInv.mono {sel : FdSelector FdHandler Addr} {left left' : ℕ → Prop} {ran : List Addr}
    (h : PassInv sel left ran) (hsub : ∀ n, left' n → left n) : PassInv sel left' ran :=
  ⟨h.nodup, fun n hn => h.ready n (hsub n hn),
    fun n m it it' hn hm => h.alone n m it it' (hsub n hn) (hsub m hm)⟩

/-- No bit is left outside a pass. -/
theorem passInv_none (sel : FdSelector FdHandler Addr) : PassInv sel (fun _ => False) [] :=
  ⟨List.nodup_nil, fun _ h => h.elim, fun _ _ _ _ h => h.elim⟩

/-- **A handler call** for the connection `a`, which owns none of the bits left. -/
theorem PassInv.change {a : Addr} {w w' : World} {left left' : ℕ → Prop} {ran ran' : List Addr}
    (h : PassInv w.sel left ran) (hf : Frame a w w') (hsub : ∀ n, left' n → left n)
    (hnot : ∀ n, left' n → ∀ it, w.sel.item n = some it → ¬ Owns a it)
    (hran : ran' = ran ∨ ran' = ran ++ [a] ∧ a ∉ ran) : PassInv w'.sel left' ran' where
  nodup := by
    rcases hran with rfl | ⟨rfl, hmem⟩
    · exact h.nodup
    · rw [List.nodup_append]
      refine ⟨h.nodup, by simp, ?_⟩
      rintro b hb c hc rfl
      rw [List.mem_singleton] at hc
      exact hmem (hc ▸ hb)
  ready n hn := by
    obtain ⟨it, hit, hr⟩ := h.ready n (hsub n hn)
    have hown := hnot n hn it hit
    refine ⟨it, (hf.items _ it hown).mpr hit, fun hh => ?_⟩
    rcases hran with rfl | ⟨rfl, -⟩
    · exact hr hh
    · intro hmem
      rcases List.mem_append.mp hmem with hmem | hmem
      · exact hr hh hmem
      · exact hown ⟨hh, List.mem_singleton.mp hmem⟩
  alone n m it it' hn hm hit hit' hh hown := by
    obtain ⟨i, hi, -⟩ := h.ready n (hsub n hn)
    obtain ⟨i', hi', -⟩ := h.ready m (hsub m hm)
    have hi₁ := (hf.items _ i (hnot n hn i hi)).mpr hi
    have hi₁' := (hf.items _ i' (hnot m hm i' hi')).mpr hi'
    rw [hi₁, Option.some.injEq] at hit
    rw [hi₁', Option.some.injEq] at hit'
    subst hit hit'
    exact h.alone n m i i' (hsub n hn) (hsub m hm) hi hi' hh hown

section
variable {w w' : World} {jobs : List Int}

/-- A call changes one connection: the one it is for, or the one it admits. -/
theorem Call.run_frame {c : Call} {pending : List Int} (h : WorldInv w pending)
    {it : Item FdHandler Addr} (hit : w.sel.item c.key.fd = some it) (hdata : c.key.data = it.data)
    (hhandler : c.handler = it.handler)
    (hop : c.op = .block ∧ c.key.fd ∈ pending ∨ c.op ≠ .block ∧ c.op.bit it.interest = true)
    (hrun : c.run w = .ok w') :
    (it.handler = .passive ∧ (w' = w ∨ ∃ a, Frame a w w' ∧ ¬ Live w a)) ∨
      (it.handler = .suscriptions ∧ Frame it.data w w') := by
  rcases Call.run_cases h hit hdata hhandler hop hrun with ⟨hh, rfl⟩ | ⟨hh, s, l, -, -, hres⟩
  · refine .inl ⟨hh, ?_⟩
    rcases pop3PassiveAccept_cases c.io h.sound h.pool with heq | ⟨a, hadm | hrej⟩
    · exact .inl heq
    · exact .inr ⟨a, hadm.frame, hadm.notLive⟩
    · exact .inr ⟨a, hrej.frame, hrej.notLive⟩
  · rcases hres with hfin | ⟨next, l', -, -, -, hm⟩
    · exact .inr ⟨hh, hfin.frame⟩
    · exact .inr ⟨hh, hm.frame⟩

theorem Call.run_slaves {c : Call} {pending : List Int} (h : WorldInv w pending)
    {it : Item FdHandler Addr} (hit : w.sel.item c.key.fd = some it) (hdata : c.key.data = it.data)
    (hhandler : c.handler = it.handler)
    (hop : c.op = .block ∧ c.key.fd ∈ pending ∨ c.op ≠ .block ∧ c.op.bit it.interest = true)
    (hrun : c.run w = .ok w') :
    w'.sel.slaveR = w.sel.slaveR ∧ w'.sel.slaveW = w.sel.slaveW ∧
      w'.sel.resolutionJobs = w.sel.resolutionJobs := by
  rcases Call.run_frame h hit hdata hhandler hop hrun with ⟨-, rfl | ⟨a, hf, -⟩⟩ | ⟨-, hf⟩
  · exact ⟨rfl, rfl, rfl⟩
  · exact ⟨hf.slaveR, hf.slaveW, hf.jobs⟩
  · exact ⟨hf.slaveR, hf.slaveW, hf.jobs⟩

/-- **A handler call in a pass**: the bits left afterwards are of other connections. -/
theorem PassInv.call {c : Call} {pending : List Int} {left left' : ℕ → Prop} {ran : List Addr}
    {i : ℕ} (hp : PassInv w.sel left ran) (h : WorldInv w pending) {it : Item FdHandler Addr}
    (hfd : c.key.fd = (i : Int)) (hit : w.sel.item i = some it) (hdata : c.key.data = it.data)
    (hhandler : c.handler = it.handler) (hop : c.op ≠ .block)
    (hbit : c.op.bit it.interest = true) (hrun : c.run w = .ok w') (hi : left i)
    (hsub : ∀ n, left' n → left n ∧ n ≠ i) :
    PassInv w'.sel left' (ran ++ ranBy c.handler c.key) := by
  have hit' : w.sel.item c.key.fd = some it := by rw [hfd, hit]
  have hleft : ∀ n, left' n → left n := fun n hn => (hsub n hn).1
  rw [hhandler]
  rcases Call.run_frame h hit' hdata hhandler (.inr ⟨hop, hbit⟩) hrun with
    ⟨hh, rfl | ⟨a, hf, hlive⟩⟩ | ⟨hh, hf⟩
  · simp only [hh, ranBy, List.append_nil]
    exact hp.mono hleft
  · simp only [hh, ranBy, List.append_nil]
    exact hp.change hf hleft (fun n _ it hit hown => hlive ⟨_, it, hit, hown⟩) (.inl rfl)
  · simp only [hh, ranBy]
    refine hp.change hf hleft (fun n hn it₂ hit₂ hown => ?_) (.inr ⟨by rw [hdata], ?_⟩)
    · exact (hsub n hn).2 (hp.alone i n it it₂ hi (hleft n hn) hit hit₂ hh hown).symm
    · obtain ⟨it₂, hit₂, hr⟩ := hp.ready i hi
      rw [hit, Option.some.injEq] at hit₂
      subst hit₂
      exact hr hh

/-! ## A resolver that ends -/

/-- Two memories that differ only in what no invariant looks at. -/
structure SameLinks (w w' : World) : Prop where
  wf : w.sel.Wf → w'.sel.Wf
  item : ∀ fd, w'.sel.item fd = w.sel.item fd
  isOpen : w'.isOpen = w.isOpen
  pool : w'.pool = w.pool
  allocated : w'.allocated = w.allocated
  clientFd : ∀ a, (w'.heap a).clientFd = (w.heap a).clientFd
  originFd : ∀ a, (w'.heap a).originFd = (w.heap a).originFd
  current : ∀ a, (w'.heap a).current = (w.heap a).current
  references : ∀ a, (w'.heap a).references = (w.heap a).references

theorem Connected.sameLinks {a : Addr} {s : Option States} {l : Wires} (hc : Connected w a s l)
    (h : SameLinks w w') : Connected w' a s l := by
  refine ⟨⟨?_, ?_, ?_, ?_⟩, ?_, hc.allowed⟩
  · rw [h.item, h.clientFd]
    exact hc.wired.client
  · have ho := hc.wired.origin
    cases hl : l.origin with
    | absent | leaked | armed _ =>
      simp only [OriginIs, hl, h.item, h.originFd, h.clientFd, h.isOpen] at ho ⊢
      exact ho
  · intro fd it hit hown
    rw [h.item] at hit
    rw [h.clientFd, h.originFd]
    exact hc.wired.only fd it hit hown
  · rw [h.references]
    exact hc.wired.references
  · rw [h.current]
    exact hc.current

theorem SameLinks.live (h : SameLinks w w') (a : Addr) : Live w' a ↔ Live w a := by
  simp only [Live, h.item]

theorem WorldInv.sameLinks {pending pending' : List Int} (hw : WorldInv w pending)
    (h : SameLinks w w') (hslaves : ∀ n, ¬ (w'.sel.slaveR n = true ∧ w'.sel.slaveW n = true))
    (hnodup : pending'.Nodup) (hsub : ∀ fd ∈ pending', fd ∈ pending) :
    WorldInv w' pending' where
  sound := by
    refine ⟨h.wf hw.sound.wf, fun fd it hit => ?_⟩
    rw [h.item] at hit
    rw [h.isOpen]
    exact hw.sound.isOpen fd it hit
  pool := by
    refine ⟨?_, ?_, ?_, ?_, ?_⟩
    · rw [h.pool]
      exact hw.pool.nodup
    · rw [h.pool, h.allocated]
      exact hw.pool.allocated
    · intro a ha
      rw [h.live]
      rw [h.pool] at ha
      exact hw.pool.notLive a ha
    · intro a hl
      rw [h.live] at hl
      rw [h.allocated]
      exact hw.pool.live a hl
    · intro a hu
      rw [h.live]
      rw [InUse, h.pool, h.allocated] at hu
      exact hw.pool.used a hu
  passive fd it hit := by
    rw [h.item] at hit
    exact hw.passive fd it hit
  connected a hl := by
    obtain ⟨s, l, hc⟩ := hw.connected a ((h.live a).mp hl)
    exact ⟨s, l, hc.sameLinks h⟩
  awaited := by
    refine ⟨hnodup, fun fd hfd => ?_⟩
    obtain ⟨it, hit, hh, hc, hs⟩ := hw.awaited.resolving fd (hsub fd hfd)
    refine ⟨it, by rw [h.item, hit], hh, ?_, ?_⟩
    · rw [h.clientFd, hc]
    · rw [h.current, hs]
  slaves := hslaves

theorem heap_resolved (i : ℕ) (result : Option AddressFamily) (malloc : Bool) (w : World)
    (a : Addr) : ∃ r, (resolvConnectionBlocking i result malloc w).heap a =
      { w.heap a with originResolution := r } := by
  unfold resolvConnectionBlocking
  cases w.resolvers[i]? with
  | none => exact ⟨(w.heap a).originResolution, rfl⟩
  | some key =>
    by_cases ha : a = key.data
    · subst ha
      refine ⟨result, ?_⟩
      cases malloc <;> exact Function.update_self _ _ _
    · refine ⟨(w.heap a).originResolution, ?_⟩
      cases malloc <;> exact Function.update_of_ne ha _ _

theorem sameLinks_resolved (i : ℕ) (result : Option AddressFamily) (malloc : Bool) (w : World) :
    SameLinks w (resolvConnectionBlocking i result malloc w) := by
  have hheap := heap_resolved i result malloc w
  have hsel : ∀ {w' : World}, resolvConnectionBlocking i result malloc w = w' →
      (w.sel.Wf → w'.sel.Wf) ∧ (∀ fd, w'.sel.item fd = w.sel.item fd) ∧ w'.isOpen = w.isOpen ∧
        w'.pool = w.pool ∧ w'.allocated = w.allocated := by
    rintro w' rfl
    unfold resolvConnectionBlocking
    cases w.resolvers[i]? with
    | none => exact ⟨id, fun _ => rfl, rfl, rfl, rfl⟩
    | some key =>
      cases malloc <;> exact ⟨fun h => ⟨h.fdSize, h.fd_eq, h.masterR, h.masterW⟩, fun _ => rfl, rfl,
        rfl, rfl⟩
  obtain ⟨h1, h2, h3, h4, h5⟩ := hsel rfl
  refine ⟨h1, h2, h3, h4, h5, ?_, ?_, ?_, ?_⟩
  all_goals
    intro a
    obtain ⟨r, hr⟩ := hheap a
    rw [hr]

theorem slaves_resolved (i : ℕ) (result : Option AddressFamily) (malloc : Bool) (w : World) :
    (resolvConnectionBlocking i result malloc w).sel.slaveR = w.sel.slaveR ∧
      (resolvConnectionBlocking i result malloc w).sel.slaveW = w.sel.slaveW := by
  unfold resolvConnectionBlocking
  cases w.resolvers[i]? with
  | none => exact ⟨rfl, rfl⟩
  | some key => cases malloc <;> exact ⟨rfl, rfl⟩

/-- A resolver takes its notification with it into the list of jobs. -/
theorem pending_resolved_perm (i : ℕ) (result : Option AddressFamily) (w : World) :
    ((resolvConnectionBlocking i result true w).resolvers.map (·.fd) ++
        (resolvConnectionBlocking i result true w).sel.resolutionJobs).Perm
      (w.resolvers.map (·.fd) ++ w.sel.resolutionJobs) := by
  unfold resolvConnectionBlocking
  cases hi : w.resolvers[i]? with
  | none => exact List.Perm.refl _
  | some key =>
    obtain ⟨hlt, hget⟩ := List.getElem?_eq_some_iff.mp hi
    have hperm : (key :: w.resolvers.eraseIdx i).Perm w.resolvers := by
      rw [← hget]
      exact List.getElem_cons_eraseIdx_perm hlt
    refine List.Perm.trans ?_ ((hperm.map (·.fd)).append_right _)
    exact List.perm_middle

/-- Without memory the notification is lost. -/
theorem pending_resolved (i : ℕ) (result : Option AddressFamily) (malloc : Bool) (w : World) :
    ((resolvConnectionBlocking i result malloc w).resolvers.map (·.fd) ++
        (resolvConnectionBlocking i result malloc w).sel.resolutionJobs).Subperm
      (w.resolvers.map (·.fd) ++ w.sel.resolutionJobs) := by
  cases malloc with
  | true => exact (pending_resolved_perm i result w).subperm
  | false =>
    unfold resolvConnectionBlocking
    cases hi : w.resolvers[i]? with
    | none => exact List.Subperm.refl _
    | some key => exact (((List.eraseIdx_sublist _ _).map _).append_right _).subperm

end

end Pop3Proxy
