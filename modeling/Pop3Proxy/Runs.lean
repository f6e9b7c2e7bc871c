/-
# The runs of the proxy

One event either makes one handler call or only moves the selector loop on
(`step_eq`).  Both keep the invariant, so every state a run reaches has it.
-/
import Pop3Proxy.ProxyInvariant

namespace Pop3Proxy

/-! ## One event -/

/-- Where the loop goes on after a call. -/
def Proxy.after (p : Proxy) (c : Call) : Phase :=
  match p.phase with
  | .idle => .idle
  | .reading pass =>
    .writing { pass with ran := pass.ran ++ ranBy c.handler c.key } (some c.key)
  | .writing pass _ =>
    .reading { pass with i := pass.i + 1, ran := pass.ran ++ ranBy c.handler c.key }
  | .notifying jobs => .notifying jobs.tail

/-- An event that makes no call. -/
def Proxy.quiet (p : Proxy) (e : Event) : Proxy :=
  match p.phase, e with
  | .idle, .select readyR readyW =>
    let sel := { p.world.sel with
      slaveR := fun n => p.world.sel.masterR n && readyR n
      slaveW := fun n => p.world.sel.masterW n && readyW n }
    ⟨{ p.world with sel := sel }, .reading ⟨0, sel.maxFd, []⟩⟩
  | .idle, .interrupted => { p with phase := .notifying p.world.sel.resolutionJobs }
  | .reading pass, .next _ =>
    if pass.i ≤ pass.n then
      { p with phase := .writing pass ((p.world.sel.fds pass.i).map fun it => ⟨it.fd, it.data⟩) }
    else { p with phase := .notifying p.world.sel.resolutionJobs }
  | .writing pass _, .next _ => { p with phase := .reading { pass with i := pass.i + 1 } }
  | .notifying (_ :: jobs), .next _ => { p with phase := .notifying jobs }
  | .notifying [], .next _ => ⟨{ p.world with sel.resolutionJobs := [] }, .idle⟩
  | .notifying _, .resolved _ _ _ => p
  | _, .resolved i result malloc =>
    { p with world := resolvConnectionBlocking i result malloc p.world }
  | _, _ => p

/-- **One event** is one handler call, or none. -/
theorem step_eq (p : Proxy) (e : Event) :
    p.step e = match p.call e with
      | some c => (c.run p.world).map fun w => ⟨w, p.after c⟩
      | none => .ok (p.quiet e) := by
  obtain ⟨w, phase⟩ := p
  cases phase with
  | idle => cases e <;> rfl
  | reading pass =>
    cases e with
    | next io =>
      by_cases hle : pass.i ≤ pass.n
      · cases hf : w.sel.fds pass.i with
        | none => simp [Proxy.step, Proxy.call, Proxy.quiet, visitRead, hle, hf]
        | some it =>
          cases hb : w.sel.slaveR it.fd.toNat && it.interest.read with
          | true =>
            simp only [Proxy.step, Proxy.call, visitRead, hle, hf, hb, if_true, and_self]
            rfl
          | false => simp [Proxy.step, Proxy.call, Proxy.quiet, visitRead, hle, hf, hb]
      · cases hf : w.sel.fds pass.i <;> simp [Proxy.step, Proxy.call, Proxy.quiet, hle, hf]
    | select _ _ | interrupted | resolved _ _ _ => rfl
  | writing pass key =>
    cases e with
    | next io =>
      cases key with
      | none => rfl
      | some key =>
        cases hf : w.sel.fds pass.i with
        | none => simp [Proxy.step, Proxy.call, Proxy.quiet, visitWrite, hf]
        | some it =>
          cases hb : w.sel.slaveW pass.i && it.interest.write with
          | true =>
            simp only [Proxy.step, Proxy.call, visitWrite, hf, hb, if_true]
            rfl
          | false => simp [Proxy.step, Proxy.call, Proxy.quiet, visitWrite, hf, hb]
    | select _ _ | interrupted | resolved _ _ _ => cases key <;> rfl
  | notifying jobs =>
    cases jobs with
    | nil => cases e <;> rfl
    | cons fd jobs =>
      cases e with
      | next io =>
        cases hf : w.sel.fds fd.toNat with
        | none => simp [Proxy.step, Proxy.call, Proxy.quiet, notifyJob, hf, Except.map]
        | some it =>
          simp only [Proxy.step, Proxy.call, notifyJob, hf]
          rfl
      | select _ _ | interrupted | resolved _ _ _ => rfl

/-! ## What is called -/

/-- The place of the loop a call is made from, and the bit that is looked at. -/
inductive CallSite (p : Proxy) (c : Call) (it : Item FdHandler Addr) : Prop where
  | read (pass : Pass) (hp : p.phase = .reading pass) (hop : c.op = .read)
    (hfd : c.key.fd = (pass.i : Int)) (hbit : p.world.sel.slaveR pass.i = true)
    (harmed : c.op.bit it.interest = true)
  | write (pass : Pass) (key : SelectorKey) (hp : p.phase = .writing pass (some key))
    (hop : c.op = .write) (hfd : c.key.fd = (pass.i : Int))
    (hbit : p.world.sel.slaveW pass.i = true) (harmed : c.op.bit it.interest = true)
  | block (jobs : List Int) (hp : p.phase = .notifying (c.key.fd :: jobs)) (hop : c.op = .block)

theorem ProxyInv.call_spec {p : Proxy} {e : Event} {c : Call} (h : ProxyInv p)
    (hc : p.call e = some c) :
    ∃ it, p.world.sel.item c.key.fd = some it ∧ c.key.data = it.data ∧ c.handler = it.handler ∧
      CallSite p c it := by
  obtain ⟨w, phase⟩ := p
  have hwf : w.sel.Wf := h.world.sound.wf
  -- a call comes out of one half of the body of the loop, or is a job's
  cases phase with
  | idle => cases e <;> cases hc
  | reading pass =>
    cases e with
    | select _ _ | interrupted | resolved _ _ _ => cases hc
    | next io =>
      simp only [Proxy.call] at hc
      cases hf : w.sel.fds pass.i with
      | none => simp [hf] at hc
      | some it =>
        simp only [hf] at hc
        split_ifs at hc with hb
        simp only [Option.some.injEq] at hc
        subst hc
        have hfd := (hwf.fd_eq _ it hf).1
        have hitem := hwf.item_natCast hf
        simp only [Bool.and_eq_true] at hb
        refine ⟨it, by rw [hfd, hitem], rfl, rfl, .read pass rfl rfl hfd ?_ hb.2.2⟩
        rw [hfd, Int.toNat_natCast] at hb
        exact hb.2.1
  | writing pass key =>
    cases e with
    | select _ _ | interrupted | resolved _ _ _ => cases key <;> cases hc
    | next io =>
      cases key with
      | none => cases hc
      | some key =>
        simp only [Proxy.call] at hc
        cases hf : w.sel.fds pass.i with
        | none => simp [hf] at hc
        | some it =>
          simp only [hf] at hc
          split_ifs at hc with hb
          simp only [Option.some.injEq] at hc
          subst hc
          have hfd := (hwf.fd_eq _ it hf).1
          have hitem := hwf.item_natCast hf
          simp only [Bool.and_eq_true] at hb
          obtain rfl := h.key pass key rfl hb.1 it hitem
          exact ⟨it, by rw [hfd, hitem], rfl, rfl, .write pass _ rfl rfl hfd hb.1 hb.2⟩
  | notifying jobs =>
    cases jobs with
    | nil => cases e <;> cases hc
    | cons fd jobs =>
      cases e with
      | select _ _ | interrupted | resolved _ _ _ => cases hc
      | next io =>
        -- the descriptor of a pending job is registered, so the table is not empty there
        have hmem : fd ∈ Proxy.pending ⟨w, .notifying (fd :: jobs)⟩ := by
          simp [Proxy.pending, Proxy.jobs]
        obtain ⟨it, hit, -⟩ := h.world.awaited.resolving fd hmem
        have hf : w.sel.fds fd.toNat = some it := (FdSelector.item_eq_some.mp hit).2
        have hfd := hwf.fd_of_item hit
        simp only [Proxy.call, hf, Option.some.injEq] at hc
        subst hc
        refine ⟨it, by rw [hfd, hit], rfl, rfl, .block jobs ?_ rfl⟩
        rw [hfd]

/-- Where a call comes from says that its event is armed or awaited. -/
theorem CallSite.op {p : Proxy} {c : Call} {it : Item FdHandler Addr} (h : CallSite p c it) :
    c.op = .block ∧ c.key.fd ∈ p.pending ∨ c.op ≠ .block ∧ c.op.bit it.interest = true := by
  cases h with
  | read pass _ hop _ _ harmed => exact .inr ⟨by simp [hop], harmed⟩
  | write pass key _ hop _ _ harmed => exact .inr ⟨by simp [hop], harmed⟩
  | block jobs hp hop => exact .inl ⟨hop, by simp [Proxy.pending, Proxy.jobs, hp]⟩

/-! ## The invariant is kept -/

/-- **A handler call** keeps the invariant. -/
theorem ProxyInv.called {p : Proxy} {e : Event} {c : Call} {w' : World} (h : ProxyInv p)
    (hc : p.call e = some c) (hrun : c.run p.world = .ok w') : ProxyInv ⟨w', p.after c⟩ := by
  obtain ⟨it, hit, hdata, hhandler, hsite⟩ := h.call_spec hc
  obtain ⟨hslaveR, hslaveW, hjobs⟩ :=
    Call.run_slaves h.world hit hdata hhandler hsite.op hrun
  have hdisjoint := h.world.slaves
  obtain ⟨w, phase⟩ := p
  cases hsite with
  | read pass hp hop hfd hbit harmed =>
    simp only at hp hbit hslaveR hslaveW hjobs hdisjoint
    subst hp
    have hne : c.op ≠ .block := by simp [hop]
    -- no descriptor is ready for both, so the second half of this round calls nobody
    have hnotW : w.sel.slaveW pass.i ≠ true := fun hw => hdisjoint _ ⟨hbit, hw⟩
    have hw := WorldInv.ready w.sel.resolutionJobs h.world hit hdata hhandler hne harmed
      hrun
    rw [← hjobs] at hw
    refine ⟨hw, ?_, ?_⟩
    · rw [hfd] at hit
      refine h.pass.call h.world hfd hit hdata hhandler hne harmed hrun ⟨Nat.le_refl _, .inl hbit⟩
        fun n hn => ?_
      simp only [Proxy.after, Phase.left, hslaveR, hslaveW] at hn ⊢
      rcases hn with ⟨hlt, hn⟩ | ⟨rfl, hn⟩
      · exact ⟨⟨Nat.le_of_lt hlt, hn⟩, Nat.ne_of_gt hlt⟩
      · exact absurd hn hnotW
    · intro pass' key' hphase hslave
      simp only [Proxy.after, Phase.writing.injEq] at hphase
      obtain ⟨rfl, -⟩ := hphase
      simp only [hslaveW] at hslave
      exact absurd hslave hnotW
  | write pass key hp hop hfd hbit harmed =>
    simp only at hp hbit hslaveR hslaveW hjobs
    subst hp
    have hne : c.op ≠ .block := by simp [hop]
    have hw := WorldInv.ready w.sel.resolutionJobs h.world hit hdata hhandler hne harmed
      hrun
    rw [← hjobs] at hw
    refine ⟨hw, ?_, ?_⟩
    · rw [hfd] at hit
      refine h.pass.call h.world hfd hit hdata hhandler hne harmed hrun (.inr ⟨rfl, hbit⟩)
        fun n hn => ?_
      simp only [Proxy.after, Phase.left, hslaveR, hslaveW] at hn ⊢
      exact ⟨.inl ⟨by omega, hn.2⟩, by omega⟩
    · intro pass' key' hphase
      simp [Proxy.after] at hphase
  | block jobs hp hop =>
    simp only at hp
    subst hp
    refine ⟨WorldInv.notified jobs h.world hit hdata hhandler hop hrun, ?_, ?_⟩
    · exact passInv_none _
    · intro pass' key' hphase
      simp [Proxy.after] at hphase

/-- An item is armed for one operation at most. -/
theorem WorldInv.armed_once {w : World} {pending : List Int} (h : WorldInv w pending) {fd : Int}
    {it : Item FdHandler Addr} (hit : w.sel.item fd = some it) :
    ¬ (it.interest.read = true ∧ it.interest.write = true) := by
  cases hh : it.handler with
  | passive => simp [h.passive fd it hit hh]
  | suscriptions =>
    have hown : Owns it.data it := ⟨hh, rfl⟩
    obtain ⟨s, l, hc⟩ := h.connected it.data ⟨fd, it, hit, hown⟩
    by_cases hne : it.interest = OP_NOOP
    · simp [hne]
    · rcases (hc.halfDuplex fd it hit hown hne).1 with h | h <;> simp [h]

/-- **`pselect` returns**: the readiness sets are within the interests. -/
theorem ProxyInv.selected {w : World} (h : ProxyInv ⟨w, .idle⟩) (readyR readyW : ℕ → Bool) :
    ProxyInv (Proxy.quiet ⟨w, .idle⟩ (.select readyR readyW)) := by
  have hwf : w.sel.Wf := h.world.sound.wf
  -- a bit that is set belongs to an armed item
  have hready : ∀ n, (w.sel.masterR n && readyR n) = true ∨ (w.sel.masterW n && readyW n) = true →
      ∃ it, w.sel.item n = some it ∧ it.interest ≠ OP_NOOP := by
    intro n hn
    simp only [Bool.and_eq_true, hwf.masterR, hwf.masterW, Option.any_eq_true] at hn
    rcases hn with ⟨⟨it, hf, hi⟩, -⟩ | ⟨⟨it, hf, hi⟩, -⟩
    all_goals
      refine ⟨it, hwf.item_natCast hf, fun h => ?_⟩
      rw [h] at hi
      exact absurd hi (by simp)
  refine ⟨?_, ⟨List.nodup_nil, ?_, ?_⟩, ?_⟩
  · refine h.world.sameLinks ⟨fun h => ⟨h.fdSize, h.fd_eq, h.masterR, h.masterW⟩, fun _ => rfl, rfl,
      rfl, rfl, fun _ => rfl, fun _ => rfl, fun _ => rfl, fun _ => rfl⟩ ?_ h.world.awaited.nodup
      fun _ hfd => hfd
    intro n hn
    simp only [Proxy.quiet, Bool.and_eq_true, hwf.masterR, hwf.masterW, Option.any_eq_true] at hn
    obtain ⟨⟨⟨it, hf, hr⟩, -⟩, ⟨it', hf', hw⟩, -⟩ := hn
    rw [hf, Option.some.injEq] at hf'
    subst hf'
    exact h.world.armed_once (hwf.item_natCast hf) ⟨hr, hw⟩
  · intro n hn
    obtain ⟨it, hit, -⟩ := hready n hn.2
    exact ⟨it, hit, fun _ => List.not_mem_nil⟩
  · intro n m it it' hn hm hit hit' hh hown
    obtain ⟨i, hi, hne⟩ := hready n hn.2
    obtain ⟨i', hi', hne'⟩ := hready m hm.2
    replace hit : w.sel.item n = some it := hit
    replace hit' : w.sel.item m = some it' := hit'
    rw [hi, Option.some.injEq] at hit
    rw [hi', Option.some.injEq] at hit'
    subst hit hit'
    have hown₁ : Owns i.data i := ⟨hh, rfl⟩
    obtain ⟨s, l, hc⟩ := h.world.connected i.data ⟨n, i, hi, hown₁⟩
    exact Int.natCast_inj.mp ((hc.halfDuplex n i hi hown₁ hne).2 m i' hi' hown hne').symm
  · intro pass key hphase
    simp [Proxy.quiet] at hphase

/-- **A resolver ends** outside `handle_block_notifications`. -/
theorem ProxyInv.resolved {w : World} {phase : Phase} (h : ProxyInv ⟨w, phase⟩)
    (hphase : ∀ jobs, phase ≠ .notifying jobs) (i : ℕ) (result : Option AddressFamily)
    (malloc : Bool) : ProxyInv ⟨resolvConnectionBlocking i result malloc w, phase⟩ := by
  have hsame := sameLinks_resolved i result malloc w
  obtain ⟨hslaveR, hslaveW⟩ := slaves_resolved i result malloc w
  obtain ⟨kept, hperm, hsub⟩ := pending_resolved i result malloc w
  have hpending : ∀ w, Proxy.pending ⟨w, phase⟩ =
      w.resolvers.map (·.fd) ++ w.sel.resolutionJobs := by
    intro w
    cases phase with
    | notifying jobs => exact absurd rfl (hphase jobs)
    | idle | reading _ | writing _ _ => rfl
  have hw := h.world
  have hp := h.pass
  rw [hpending] at hw
  have hleft : phase.left (resolvConnectionBlocking i result malloc w).sel = phase.left w.sel := by
    cases phase <;> simp only [Phase.left, hslaveR, hslaveW]
  refine ⟨?_, ⟨hp.nodup, fun n hn => ?_, fun n m it it' hn hm hit hit' => ?_⟩, ?_⟩
  · rw [hpending]
    refine hw.sameLinks hsame ?_ (hperm.nodup_iff.mp (hw.awaited.nodup.sublist hsub))
      fun fd hfd => hsub.subset (hperm.mem_iff.mpr hfd)
    simp only [hslaveR, hslaveW]
    exact hw.slaves
  · simp only [hleft] at hn
    simp only [hsame.item]
    exact hp.ready n hn
  · simp only [hleft] at hn hm
    simp only [hsame.item] at hit hit'
    exact hp.alone n m it it' hn hm hit hit'
  · intro pass key hph hslave it hit
    simp only [hslaveW] at hslave
    simp only [hsame.item] at hit
    exact h.key pass key hph hslave it hit

/-- An event without a call changes no connection but for the address found. -/
theorem quiet_links (p : Proxy) (e : Event) :
    SameLinks p.world (p.quiet e).world ∧ ∀ a, ∃ r, (p.quiet e).world.heap a =
      { p.world.heap a with originResolution := r } := by
  have hrefl : SameLinks p.world p.world ∧ ∀ a, ∃ r, p.world.heap a =
      { p.world.heap a with originResolution := r } :=
    ⟨⟨id, fun _ => rfl, rfl, rfl, rfl, fun _ => rfl, fun _ => rfl, fun _ => rfl, fun _ => rfl⟩,
      fun a => ⟨(p.world.heap a).originResolution, rfl⟩⟩
  have hresolved := fun i result malloc => And.intro (sameLinks_resolved i result malloc p.world)
    (heap_resolved i result malloc p.world)
  obtain ⟨w, phase⟩ := p
  cases phase with
  | idle =>
    cases e with
    | select readyR readyW =>
      exact ⟨⟨fun h => ⟨h.fdSize, h.fd_eq, h.masterR, h.masterW⟩, fun _ => rfl, rfl, rfl, rfl,
        fun _ => rfl, fun _ => rfl, fun _ => rfl, fun _ => rfl⟩, hrefl.2⟩
    | interrupted | next _ => exact hrefl
    | resolved i result malloc => exact hresolved i result malloc
  | reading pass =>
    cases e with
    | select _ _ | interrupted => exact hrefl
    | resolved i result malloc => exact hresolved i result malloc
    | next io =>
      simp only [Proxy.quiet]
      split_ifs <;> exact hrefl
  | writing pass key =>
    cases e with
    | resolved i result malloc => exact hresolved i result malloc
    | select _ _ | interrupted | next _ => exact hrefl
  | notifying jobs =>
    cases jobs with
    | nil =>
      cases e with
      | select _ _ | interrupted | resolved _ _ _ => exact hrefl
      | next io =>
        exact ⟨⟨fun h => ⟨h.fdSize, h.fd_eq, h.masterR, h.masterW⟩, fun _ => rfl, rfl, rfl, rfl,
          fun _ => rfl, fun _ => rfl, fun _ => rfl, fun _ => rfl⟩, hrefl.2⟩
    | cons fd jobs =>
      cases e with
      | select _ _ | interrupted | resolved _ _ _ | next _ => exact hrefl

/-- Every notification is for a registered descriptor, so it makes a call. -/
theorem ProxyInv.call_job {w : World} {fd : Int} {jobs : List Int}
    (h : ProxyInv ⟨w, .notifying (fd :: jobs)⟩) (io : Io) :
    Proxy.call ⟨w, .notifying (fd :: jobs)⟩ (.next io) ≠ none := by
  have hmem : fd ∈ Proxy.pending ⟨w, .notifying (fd :: jobs)⟩ := by
    simp [Proxy.pending, Proxy.jobs]
  obtain ⟨it, hit, -⟩ := h.world.awaited.resolving fd hmem
  have hf : w.sel.fds fd.toNat = some it := (FdSelector.item_eq_some.mp hit).2
  simp [Proxy.call, hf]

/-- **An event without a call** keeps the invariant. -/
theorem ProxyInv.quieted {p : Proxy} (h : ProxyInv p) {e : Event} (hc : p.call e = none) :
    ProxyInv (p.quiet e) := by
  obtain ⟨w, phase⟩ := p
  cases phase with
  | idle =>
    cases e with
    | select readyR readyW => exact h.selected readyR readyW
    | interrupted => exact ⟨h.world, passInv_none _, by simp [Proxy.quiet]⟩
    | next io => exact h
    | resolved i result malloc => exact h.resolved (by simp) i result malloc
  | reading pass =>
    cases e with
    | select _ _ | interrupted => exact h
    | resolved i result malloc => exact h.resolved (by simp) i result malloc
    | next io =>
      simp only [Proxy.quiet]
      split_ifs
      · refine ⟨h.world, h.pass.mono fun n hn => ?_, fun pass' key hphase _ it hit => ?_⟩
        · rcases hn with ⟨hlt, hn⟩ | ⟨rfl, hn⟩
          · exact ⟨Nat.le_of_lt hlt, hn⟩
          · exact ⟨Nat.le_refl _, .inr hn⟩
        · simp only [Phase.writing.injEq] at hphase
          obtain ⟨rfl, hkey⟩ := hphase
          have hf := (FdSelector.item_eq_some.mp hit).2
          rw [Int.toNat_natCast] at hf
          rw [hf] at hkey
          exact (Option.some.inj hkey).symm
      · exact ⟨h.world, passInv_none _, by simp⟩
  | writing pass key =>
    cases e with
    | select _ _ | interrupted => exact h
    | resolved i result malloc => exact h.resolved (by simp) i result malloc
    | next io =>
      exact ⟨h.world, h.pass.mono fun n hn => .inl ⟨hn.1, hn.2⟩, by simp [Proxy.quiet]⟩
  | notifying jobs =>
    cases jobs with
    | nil =>
      cases e with
      | select _ _ | interrupted | resolved _ _ _ => exact h
      | next io =>
        refine ⟨?_, passInv_none _, by simp [Proxy.quiet]⟩
        refine h.world.sameLinks ⟨fun h => ⟨h.fdSize, h.fd_eq, h.masterR, h.masterW⟩, fun _ => rfl,
          rfl, rfl, rfl, fun _ => rfl, fun _ => rfl, fun _ => rfl, fun _ => rfl⟩ h.world.slaves
          h.world.awaited.nodup fun _ hfd => hfd
    | cons fd jobs =>
      cases e with
      | select _ _ | interrupted | resolved _ _ _ => exact h
      | next io => exact absurd hc (h.call_job io)

/-- **One event** keeps the invariant. -/
theorem ProxyInv.step {p p' : Proxy} {e : Event} (h : ProxyInv p) (hs : p.step e = .ok p') :
    ProxyInv p' := by
  rw [step_eq] at hs
  cases hc : p.call e with
  | none =>
    simp only [hc, Except.ok.injEq] at hs
    subst hs
    exact h.quieted hc
  | some c =>
    simp only [hc] at hs
    obtain ⟨w', hrun, rfl⟩ := map_eq_ok.mp hs
    exact h.called hc hrun

/-! ## Every run -/

/-- The only item of a new proxy is the listening socket's. -/
theorem start_item {server : Int} {origin : AddrType} {fd : Int} {it : Item FdHandler Addr}
    (h : (Proxy.start server origin).world.sel.item fd = some it) :
    fd = server ∧ it = ⟨server, OP_READ, .passive, 0⟩ := by
  have hnew : (selectorNew itemsMaxSize : FdSelector FdHandler Addr).item fd = none := by
    simp [FdSelector.item, selectorNew, ensureCapacity]
  rcases FdSelector.register_cases true FdSelector.wf_selectorNew.fdSize server FdHandler.passive
    OP_READ (0 : Addr) with ⟨hst, -⟩ | ⟨-, hsame, -⟩
  · rw [Proxy.start, FdSelector.item_register FdSelector.wf_selectorNew.fdSize hst, hnew] at h
    split_ifs at h with hfd
    exact ⟨hfd, (Option.some.inj h).symm⟩
  · rw [Proxy.start, hsame, hnew] at h
    exact absurd h (by simp)

theorem proxyInv_start (server : Int) (origin : AddrType) : ProxyInv (.start server origin) := by
  have hlive : ∀ a, ¬ Live (Proxy.start server origin).world a := by
    rintro a ⟨fd, it, hit, hown, -⟩
    rw [(start_item hit).2] at hown
    exact absurd hown (by simp)
  have hrest := FdSelector.rest_register true (FdSelector.wf_selectorNew (H := FdHandler)
    (D := Addr)).fdSize server FdHandler.passive OP_READ (0 : Addr)
  have hslaveR : ∀ n, (Proxy.start server origin).world.sel.slaveR n = false := fun n => by
    show (selectorRegister true _ _ _ _ _).2.slaveR n = false
    rw [hrest.1]
    rfl
  have hpending : (Proxy.start server origin).pending = [] := hrest.2.2.trans rfl
  refine ⟨⟨⟨?_, ?_⟩, ⟨List.nodup_nil, ?_, ?_, ?_, ?_⟩, ?_, ?_, ⟨?_, ?_⟩, ?_⟩, passInv_none _, ?_⟩
  · exact FdSelector.wf_register FdSelector.wf_selectorNew _ _ _ _ _
  · intro fd it hit
    simp [Proxy.start, (start_item hit).1]
  · exact fun a ha => absurd ha List.not_mem_nil
  · exact fun a ha => absurd ha List.not_mem_nil
  · exact fun a ha => absurd ha (hlive a)
  · exact fun a ha => absurd ha.1 (by simp [Proxy.start])
  · intro fd it hit _
    rw [(start_item hit).2]
  · exact fun a ha => absurd ha (hlive a)
  · simp [hpending]
  · simp [hpending]
  · simp [hslaveR]
  · simp [Proxy.start]

/-- **Every state a run reaches** has the invariant. -/
theorem ProxyInv.of_reach {p : Proxy} (h : proxySystem.Reach p) : ProxyInv p :=
  EventSystem.System.invariant
    (by rintro _ ⟨server, origin, rfl⟩; exact proxyInv_start server origin)
    (fun _ _ _ hi _ hs => hi.step hs) h

/-- **Half duplex.**  In every state that is reached, each connection has at
most one armed descriptor, for one operation; and a pass of `handle_iteration`
has run at most one handler of each connection so far. -/
theorem half_duplex {p : Proxy} (h : proxySystem.Reach p) :
    (∀ a, HalfDuplex p.world a) ∧ p.phase.ran.Nodup := by
  have hp := ProxyInv.of_reach h
  refine ⟨fun a fd it hit hown => ?_, hp.pass.nodup⟩
  obtain ⟨s, l, hc⟩ := hp.world.connected a ⟨fd, it, hit, hown⟩
  exact hc.halfDuplex fd it hit hown

/-! ## Concrete runs -/

/-- One iteration of the selector in which `fd` is ready for `op`: the two sets,
two halves of the body for each descriptor up to `maxFd`, and the two ends. -/
def turn (maxFd fd : ℕ) (op : Op) (io : Io) : List Event :=
  .select (fun n => n = fd && op = .read) (fun n => n = fd && op = .write) ::
    List.replicate (2 * (maxFd + 1) + 2) (.next io)

/-- The listening socket is 3; a client comes in on 4, the origin is reached on 5. -/
def reachOrigin : List Event :=
  turn 3 3 .read { accept := some 4 } ++
    turn 4 4 .write { socket := some 5, errno := .einprogress } ++ turn 5 5 .write {}

/-- The greeting is read and the welcome is sent. -/
def greeted : List Event :=
  reachOrigin ++ turn 5 5 .read { recv := some (ascii "+OK ready\r\n") } ++
    turn 5 4 .write { send := some 100 }

theorem reach_start (origin : AddrType) : proxySystem.Reach (.start 3 origin) :=
  .init ⟨3, origin, rfl⟩

theorem reach_start_restrict (good : Proxy → Event → Prop) (origin : AddrType) :
    (proxySystem.restrict good).Reach (.start 3 origin) := .init ⟨3, origin, rfl⟩

/-- The connection that waits for the greeting of the origin is half duplex. -/
theorem half_duplex_reachOrigin :
    (∀ a, HalfDuplex (proxySystem.last (.start 3 .ipv4) reachOrigin).world a) ∧
      (proxySystem.last (.start 3 .ipv4) reachOrigin).phase.ran.Nodup :=
  half_duplex ((reach_start .ipv4).last (fun _ _ => trivial) reachOrigin)

example : (proxySystem.last (.start 3 .ipv4) reachOrigin).world.sel.item 5 =
    some ⟨5, OP_READ, .suscriptions, 0⟩ := rfl

end Pop3Proxy
