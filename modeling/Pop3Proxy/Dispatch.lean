/-
# One pass of the selector

What `pselect` reports is dispatched by one pass of `handle_iteration` whatever the handlers do in
between: each ready descriptor that was armed, once, in the order of the descriptors, with the key
it was registered with.  The pass is over after a number of steps that `max_fd` alone decides.
-/
import Pop3Proxy.Runs

namespace Pop3Proxy

/-! ## What is due -/

/-- The reads a pass has to make at the descriptor `n`, at most one. -/
def readDue (sel : FdSelector FdHandler Addr) (readyR : ℕ → Bool) (n : ℕ) :
    List (Op × SelectorKey) :=
  match sel.fds n with
  | none => []
  | some it => if it.interest.read && readyR n then [(.read, ⟨it.fd, it.data⟩)] else []

/-- The writes. -/
def writeDue (sel : FdSelector FdHandler Addr) (readyW : ℕ → Bool) (n : ℕ) :
    List (Op × SelectorKey) :=
  match sel.fds n with
  | none => []
  | some it => if it.interest.write && readyW n then [(.write, ⟨it.fd, it.data⟩)] else []

/-- What is due at the descriptors below `k`, in their order. -/
def due (sel : FdSelector FdHandler Addr) (readyR readyW : ℕ → Bool) (k : ℕ) :
    List (Op × SelectorKey) :=
  (List.range k).flatMap fun n => readDue sel readyR n ++ writeDue sel readyW n

/-- The handler an event calls. -/
def Proxy.dispatches (p : Proxy) (e : Event) (_ : Proxy) : List (Op × SelectorKey) :=
  (p.call e).toList.map fun c => (c.op, c.key)

/-- The steps of the main thread; other events take none of its time. -/
def Event.steps : Event → ℕ
  | .next _ => 1
  | _ => 0

/-- The steps of a pass: two for each descriptor up to `max_fd`, and one to leave the loop. -/
def passSteps (sel : FdSelector FdHandler Addr) : ℕ := 2 * (sel.maxFd + 1) + 1

section
variable {sel : FdSelector FdHandler Addr} {readyR readyW : ℕ → Bool} {p p' : Proxy} {e : Event}
  {c : Call} {w w' : World}

theorem due_succ (k : ℕ) : due sel readyR readyW (k + 1) =
    due sel readyR readyW k ++ (readDue sel readyR k ++ writeDue sel readyW k) := by
  simp only [due, List.range_succ, List.flatMap_append, List.flatMap_singleton]

/-! ## What a handler leaves alone -/

/-- **A call in a pass** does not change the items whose bits are left. -/
theorem ProxyInv.left_kept (h : ProxyInv p) (hc : p.call e = some c)
    (hrun : c.run p.world = .ok w') (hop : c.op ≠ .block) {n : ℕ}
    (hn : p.phase.left p.world.sel n) (hne : (n : Int) ≠ c.key.fd) :
    w'.sel.fds n = p.world.sel.fds n := by
  obtain ⟨it, hit, hdata, hhandler, hsite⟩ := h.call_spec hc
  obtain ⟨i, hfd, hi⟩ : ∃ i : ℕ, c.key.fd = (i : Int) ∧ p.phase.left p.world.sel i := by
    cases hsite with
    | read pass hp _ hfd hbit _ =>
      refine ⟨pass.i, hfd, ?_⟩
      rw [hp]
      exact ⟨Nat.le_refl _, .inl hbit⟩
    | write pass key hp _ hfd hbit _ =>
      refine ⟨pass.i, hfd, ?_⟩
      rw [hp]
      exact .inr ⟨rfl, hbit⟩
    | block jobs _ hblock => exact absurd hblock hop
  obtain ⟨it', hit', -⟩ := h.pass.ready n hn
  have hkept : ∀ a, Frame a p.world w' → ¬ Owns a it' → w'.sel.fds n = p.world.sel.fds n := by
    intro a hf hown
    have hafter := (FdSelector.item_eq_some.mp ((hf.items n it' hown).mpr hit')).2
    have hbefore := (FdSelector.item_eq_some.mp hit').2
    rw [Int.toNat_natCast] at hafter hbefore
    rw [hafter, hbefore]
  rcases Call.run_frame h.world hit hdata hhandler hsite.op hrun with
    ⟨-, rfl | ⟨a, hf, hlive⟩⟩ | ⟨hh, hf⟩
  · rfl
  · exact hkept a hf fun hown => hlive ⟨n, it', hit', hown⟩
  · rw [hfd] at hit hne
    refine hkept it.data hf fun hown => hne ?_
    rw [h.pass.alone i n it it' hi hn hit hit' hh hown]

/-! ## The pass -/

/-- The readiness sets are those `pselect` reported, and the items whose bits are left are still
what they were then. -/
structure Passing (sel : FdSelector FdHandler Addr) (readyR readyW : ℕ → Bool) (p : Proxy) :
    Prop where
  inv : ProxyInv p
  slaveR : ∀ n, p.world.sel.slaveR n = (sel.masterR n && readyR n)
  slaveW : ∀ n, p.world.sel.slaveW n = (sel.masterW n && readyW n)
  items : ∀ n, p.phase.left p.world.sel n → p.world.sel.fds n = sel.fds n

/-- After `k` steps of a pass: the place the loop is at, and what it has dispatched. -/
def PassAt (sel : FdSelector FdHandler Addr) (readyR readyW : ℕ → Bool) (k : ℕ) (p : Proxy)
    (t : List (Op × SelectorKey)) : Prop :=
  match p.phase with
  | .idle => False
  | .reading pass => Passing sel readyR readyW p ∧ pass.n = sel.maxFd ∧ pass.i ≤ sel.maxFd + 1 ∧
      k = 2 * pass.i ∧ t = due sel readyR readyW pass.i
  | .writing pass key => Passing sel readyR readyW p ∧ pass.n = sel.maxFd ∧ pass.i ≤ sel.maxFd ∧
      k = 2 * pass.i + 1 ∧ t = due sel readyR readyW pass.i ++ readDue sel readyR pass.i ∧
      (p.world.sel.slaveW pass.i = true → key.isSome = true)
  | .notifying jobs => ProxyInv p ∧ k = passSteps sel ∧ jobs = p.world.sel.resolutionJobs ∧
      t = due sel readyR readyW (sel.maxFd + 1)

/-- Where the bit of a ready descriptor is not set, nothing is due. -/
theorem readDue_of_bit (hsel : sel.Wf) {n : ℕ} (h : (sel.masterR n && readyR n) = false) :
    readDue sel readyR n = [] := by
  rw [hsel.masterR] at h
  rw [readDue]
  cases hf : sel.fds n with
  | none => rfl
  | some it =>
    rw [hf, Option.any_some] at h
    simp [h]

theorem writeDue_of_bit (hsel : sel.Wf) {n : ℕ} (h : (sel.masterW n && readyW n) = false) :
    writeDue sel readyW n = [] := by
  rw [hsel.masterW] at h
  rw [writeDue]
  cases hf : sel.fds n with
  | none => rfl
  | some it =>
    rw [hf, Option.any_some] at h
    simp [h]

/-- Where it is set, the item is there, and it is due. -/
theorem readDue_of_set (hsel : sel.Wf) {n : ℕ} (h : (sel.masterR n && readyR n) = true) :
    ∃ it, sel.fds n = some it ∧ it.interest.read = true ∧
      readDue sel readyR n = [(.read, ⟨it.fd, it.data⟩)] := by
  rw [hsel.masterR, Bool.and_eq_true, Option.any_eq_true] at h
  obtain ⟨⟨it, hf, hr⟩, hready⟩ := h
  exact ⟨it, hf, hr, by simp [readDue, hf, hr, hready]⟩

theorem writeDue_of_set (hsel : sel.Wf) {n : ℕ} (h : (sel.masterW n && readyW n) = true) :
    ∃ it, sel.fds n = some it ∧ it.interest.write = true ∧
      writeDue sel readyW n = [(.write, ⟨it.fd, it.data⟩)] := by
  rw [hsel.masterW, Bool.and_eq_true, Option.any_eq_true] at h
  obtain ⟨⟨it, hf, hr⟩, hready⟩ := h
  exact ⟨it, hf, hr, by simp [writeDue, hf, hr, hready]⟩

end

section
variable {sel : FdSelector FdHandler Addr} {readyR readyW : ℕ → Bool} {p p' : Proxy} {io : Io}
  {t : List (Op × SelectorKey)} {w w' : World} {pass : Pass} {key : Option SelectorKey} {k : ℕ}

/-- Only the place of the loop is another one, and fewer bits are left. -/
theorem Passing.moveOn (h : Passing sel readyR readyW p) (hinv : ProxyInv p')
    (hworld : p'.world = p.world)
    (hsub : ∀ n, p'.phase.left p.world.sel n → p.phase.left p.world.sel n) :
    Passing sel readyR readyW p' where
  inv := hinv
  slaveR := by rw [hworld]; exact h.slaveR
  slaveW := by rw [hworld]; exact h.slaveW
  items := by
    rw [hworld]
    exact fun n hn => h.items n (hsub n hn)

/-- **A call in a pass.** -/
theorem Passing.called {e : Event} {c : Call} (h : Passing sel readyR readyW p)
    (hc : p.call e = some c) (hrun : c.run p.world = .ok w') (hop : c.op ≠ .block)
    (hsub : ∀ n, (p.after c).left p.world.sel n →
      p.phase.left p.world.sel n ∧ (n : Int) ≠ c.key.fd) :
    Passing sel readyR readyW ⟨w', p.after c⟩ := by
  obtain ⟨it, hit, hdata, hhandler, hsite⟩ := h.inv.call_spec hc
  obtain ⟨hslaveR, hslaveW, -⟩ := Call.run_slaves h.inv.world hit hdata hhandler hsite.op hrun
  refine ⟨h.inv.called hc hrun, ?_, ?_, fun n hn => ?_⟩
  · show ∀ n, w'.sel.slaveR n = _
    rw [hslaveR]
    exact h.slaveR
  · show ∀ n, w'.sel.slaveW n = _
    rw [hslaveW]
    exact h.slaveW
  · have hleft : (p.after c).left w'.sel = (p.after c).left p.world.sel := by
      cases p.after c <;> simp only [Phase.left, hslaveR, hslaveW]
    have hn : (p.after c).left w'.sel n := hn
    rw [hleft] at hn
    obtain ⟨hbefore, hne⟩ := hsub n hn
    rw [← h.items n hbefore]
    exact h.inv.left_kept hc hrun hop hbefore hne

/-- The descriptor of an item is its index. -/
theorem ProxyInv.fd_of_fds (h : ProxyInv p) {n : ℕ} {it : Item FdHandler Addr}
    (hit : p.world.sel.fds n = some it) : it.fd = (n : Int) :=
  (h.world.sound.wf.fd_eq n it hit).1

/-- The first half of the body of the loop. -/
theorem passAt_read (hsel : sel.Wf) (h : PassAt sel readyR readyW k ⟨w, .reading pass⟩ t)
    (hs : Proxy.step ⟨w, .reading pass⟩ (.next io) = .ok p') :
    PassAt sel readyR readyW (k + 1) p'
    (t ++ Proxy.dispatches ⟨w, .reading pass⟩ (.next io) p') := by
  obtain ⟨hpass, hn, hi, rfl, rfl⟩ := h
  have hinv := hpass.inv
  rw [step_eq] at hs
  by_cases hle : pass.i ≤ pass.n
  · by_cases hbit : (sel.masterR pass.i && readyR pass.i) = true
    -- ready and armed: its handler is called
    · obtain ⟨it, hf, hread, hdue⟩ := readDue_of_set hsel hbit
      have hslave : w.sel.slaveR pass.i = true := (hpass.slaveR _).trans hbit
      have hleft : Phase.left w.sel (.reading pass) pass.i := ⟨Nat.le_refl _, .inl hslave⟩
      have hf' : w.sel.fds pass.i = some it := (hpass.items _ hleft).trans hf
      have hfd : it.fd = (pass.i : Int) := hinv.fd_of_fds hf'
      have hc : Proxy.call ⟨w, .reading pass⟩ (.next io) =
          some ⟨it.handler, .read, ⟨it.fd, it.data⟩, io⟩ := by
        simp [Proxy.call, hf', hle, hfd, hslave, hread]
      rw [hc] at hs
      obtain ⟨w', hrun, rfl⟩ := map_eq_ok.mp hs
      have hnotW : w.sel.slaveW pass.i ≠ true := fun hw => hinv.world.slaves _ ⟨hslave, hw⟩
      have hcalled := hpass.called hc hrun (by simp) fun n hleft' => by
        rcases hleft' with ⟨hlt, hbits⟩ | ⟨rfl, hw⟩
        · refine ⟨⟨Nat.le_of_lt hlt, hbits⟩, ?_⟩
          show (n : Int) ≠ it.fd
          rw [hfd]
          exact fun heq => absurd (Int.natCast_inj.mp heq) (Nat.ne_of_gt hlt)
        · exact absurd hw hnotW
      refine ⟨hcalled, hn, hn ▸ hle, rfl, ?_, fun _ => rfl⟩
      rw [Proxy.dispatches, hc, hdue]
      rfl
    -- nothing to read
    · have hbit : (sel.masterR pass.i && readyR pass.i) = false := by simpa using hbit
      have hslave : w.sel.slaveR pass.i = false := (hpass.slaveR _).trans hbit
      have hc : Proxy.call ⟨w, .reading pass⟩ (.next io) = none := by
        cases hf : w.sel.fds pass.i with
        | none => simp [Proxy.call, hf]
        | some it => simp [Proxy.call, hf, hinv.fd_of_fds hf, hslave]
      simp only [hc, Except.ok.injEq] at hs
      subst hs
      have hquiet : Proxy.quiet ⟨w, .reading pass⟩ (.next io) =
          ⟨w, .writing pass ((w.sel.fds pass.i).map fun it => ⟨it.fd, it.data⟩)⟩ := if_pos hle
      have hinv' := hinv.quieted hc
      rw [hquiet] at hinv' ⊢
      refine ⟨hpass.moveOn hinv' rfl fun n hn => ?_, hn, hn ▸ hle, rfl, ?_, fun hw => ?_⟩
      · rcases hn with ⟨hlt, hbits⟩ | ⟨rfl, hw⟩
        · exact ⟨Nat.le_of_lt hlt, hbits⟩
        · exact ⟨Nat.le_refl _, .inr hw⟩
      · rw [Proxy.dispatches, hc, readDue_of_bit hsel hbit]
        rfl
      · obtain ⟨it, hit, -⟩ := hinv.pass.ready pass.i ⟨Nat.le_refl _, .inr hw⟩
        have hf := (FdSelector.item_eq_some.mp hit).2
        rw [Int.toNat_natCast] at hf
        rw [hf]
        rfl
  -- the loop is left
  · have hc : Proxy.call ⟨w, .reading pass⟩ (.next io) = none := by
      cases hf : w.sel.fds pass.i <;> simp [Proxy.call, hf, hle]
    simp only [hc, Except.ok.injEq] at hs
    subst hs
    have hquiet : Proxy.quiet ⟨w, .reading pass⟩ (.next io) =
        ⟨w, .notifying w.sel.resolutionJobs⟩ := if_neg hle
    have hinv' := hinv.quieted hc
    rw [hquiet] at hinv' ⊢
    have hlast : pass.i = sel.maxFd + 1 := by omega
    refine ⟨hinv', by rw [hlast]; rfl, rfl, ?_⟩
    rw [Proxy.dispatches, hc, hlast]
    exact List.append_nil _

/-- The second half. -/
theorem passAt_write (hsel : sel.Wf) (h : PassAt sel readyR readyW k ⟨w, .writing pass key⟩ t)
    (hs : Proxy.step ⟨w, .writing pass key⟩ (.next io) = .ok p') :
    PassAt sel readyR readyW (k + 1) p'
      (t ++ Proxy.dispatches ⟨w, .writing pass key⟩ (.next io) p') := by
  obtain ⟨hpass, hn, hi, rfl, rfl, hkey⟩ := h
  have hinv := hpass.inv
  rw [step_eq] at hs
  by_cases hbit : (sel.masterW pass.i && readyW pass.i) = true
  · obtain ⟨it, hf, hwrite, hdue⟩ := writeDue_of_set hsel hbit
    have hslave : w.sel.slaveW pass.i = true := (hpass.slaveW _).trans hbit
    have hleft : Phase.left w.sel (.writing pass key) pass.i := .inr ⟨rfl, hslave⟩
    have hf' : w.sel.fds pass.i = some it := (hpass.items _ hleft).trans hf
    have hfd : it.fd = (pass.i : Int) := hinv.fd_of_fds hf'
    obtain ⟨key', rfl⟩ := Option.isSome_iff_exists.mp (hkey hslave)
    obtain rfl := hinv.key pass key' rfl hslave it (hinv.world.sound.wf.item_natCast hf')
    have hc : Proxy.call ⟨w, .writing pass (some ⟨it.fd, it.data⟩)⟩ (.next io) =
        some ⟨it.handler, .write, ⟨it.fd, it.data⟩, io⟩ := by
      simp [Proxy.call, hf', hslave, hwrite]
    rw [hc] at hs
    obtain ⟨w', hrun, rfl⟩ := map_eq_ok.mp hs
    have hcalled := hpass.called hc hrun (by simp) fun n hleft' => by
      obtain ⟨hle, hbits⟩ := hleft'
      simp only at hle
      refine ⟨.inl ⟨by omega, hbits⟩, ?_⟩
      show (n : Int) ≠ it.fd
      rw [hfd]
      omega
    refine ⟨hcalled, hn, Nat.succ_le_succ hi, rfl, ?_⟩
    rw [Proxy.dispatches, hc, due_succ, hdue, List.append_assoc]
    rfl
  · have hbit : (sel.masterW pass.i && readyW pass.i) = false := by simpa using hbit
    have hslave : w.sel.slaveW pass.i = false := (hpass.slaveW _).trans hbit
    have hc : Proxy.call ⟨w, .writing pass key⟩ (.next io) = none := by
      cases key with
      | none => rfl
      | some key => cases hf : w.sel.fds pass.i <;> simp [Proxy.call, hf, hslave]
    simp only [hc, Except.ok.injEq] at hs
    subst hs
    have hinv' := hinv.quieted hc
    refine ⟨hpass.moveOn hinv' rfl fun n hn => .inl ⟨hn.1, hn.2⟩, hn, Nat.succ_le_succ hi, rfl, ?_⟩
    rw [Proxy.dispatches, hc, due_succ, writeDue_of_bit hsel hbit]
    simp

/-- An event that is not a step of the main thread. -/
theorem passAt_other {e : Event} (h : PassAt sel readyR readyW k p t) (he : e.steps = 0)
    (hs : p.step e = .ok p') : PassAt sel readyR readyW k p' (t ++ p.dispatches e p') := by
  have hc : p.call e = none := by
    obtain ⟨w, phase⟩ := p
    cases e with
    | next io => cases he
    | select _ _ | interrupted | resolved _ _ _ =>
      cases phase with
      | idle | reading _ => rfl
      | writing pass key => cases key <;> rfl
      | notifying jobs => cases jobs <;> rfl
  have hnil : p.dispatches e p' = [] := by rw [Proxy.dispatches, hc]; rfl
  rw [step_eq, hc, Except.ok.injEq] at hs
  rw [hnil, List.append_nil]
  subst hs
  -- a resolver that ends changes neither the items nor the sets
  have hresolved : ∀ {w phase} i result malloc, (∀ jobs, phase ≠ Phase.notifying jobs) →
      Passing sel readyR readyW ⟨w, phase⟩ →
      Passing sel readyR readyW ⟨resolvConnectionBlocking i result malloc w, phase⟩ := by
    intro w phase i result malloc hphase hpass
    obtain ⟨hslaveR, hslaveW⟩ := slaves_resolved i result malloc w
    have hfds : (resolvConnectionBlocking i result malloc w).sel.fds = w.sel.fds := by
      unfold resolvConnectionBlocking
      cases w.resolvers[i]? with
      | none => rfl
      | some key => cases malloc <;> rfl
    refine ⟨hpass.inv.resolved hphase i result malloc, ?_, ?_, fun n hn => ?_⟩
    · simp only [hslaveR]
      exact hpass.slaveR
    · simp only [hslaveW]
      exact hpass.slaveW
    · show (resolvConnectionBlocking i result malloc w).sel.fds n = _
      rw [hfds]
      refine hpass.items n ?_
      cases phase with
      | idle => exact hn.elim
      | notifying jobs => exact hn.elim
      | reading _ | writing _ _ => simpa only [Phase.left, hslaveR, hslaveW] using hn
  obtain ⟨w, phase⟩ := p
  cases phase with
  | idle => exact h.elim
  | reading pass =>
    cases e with
    | next io => cases he
    | select _ _ | interrupted => exact h
    | resolved i result malloc => exact ⟨hresolved i result malloc (by simp) h.1, h.2⟩
  | writing pass key =>
    cases e with
    | next io => cases he
    | select _ _ | interrupted => exact h
    | resolved i result malloc =>
      obtain ⟨hpass, hn, hi, hk, ht, hkey⟩ := h
      refine ⟨hresolved i result malloc (by simp) hpass, hn, hi, hk, ht, fun hw => hkey ?_⟩
      have hslaves := (slaves_resolved i result malloc w).2
      rwa [← hslaves]
  | notifying jobs =>
    cases jobs <;> cases e <;> first | exact h | cases he

/-- **A step of a pass.** -/
theorem passAt_step (hsel : sel.Wf) {e : Event} (h : PassAt sel readyR readyW k p t)
    (hk : k + e.steps ≤ passSteps sel) (hs : p.step e = .ok p') :
    PassAt sel readyR readyW (k + e.steps) p' (t ++ p.dispatches e p') := by
  cases e with
  | select _ _ | interrupted | resolved _ _ _ => exact passAt_other h rfl hs
  | next io =>
    obtain ⟨w, phase⟩ := p
    cases phase with
    | idle => exact h.elim
    | reading pass => exact passAt_read hsel h hs
    | writing pass key => exact passAt_write hsel h hs
    | notifying jobs =>
      obtain ⟨-, rfl, -⟩ := h
      have hsteps : Event.steps (.next io) = 1 := rfl
      omega

/-- **The end of a pass.** -/
theorem passAt_end (h : PassAt sel readyR readyW (passSteps sel) p t) :
    p.phase = .notifying p.world.sel.resolutionJobs ∧
      t = due sel readyR readyW (sel.maxFd + 1) := by
  obtain ⟨w, phase⟩ := p
  cases phase with
  | idle => exact h.elim
  | reading pass =>
    obtain ⟨-, -, hi, hk, -⟩ := h
    rw [passSteps] at hk
    omega
  | writing pass key =>
    obtain ⟨-, -, hi, hk, -⟩ := h
    rw [passSteps] at hk
    omega
  | notifying jobs =>
    obtain ⟨-, -, hjobs, ht⟩ := h
    exact ⟨congrArg Phase.notifying hjobs, ht⟩

end

/-- Nothing is due beyond `max_fd`. -/
theorem due_le {sel : FdSelector FdHandler Addr} (hsel : sel.Wf) {readyR readyW : ℕ → Bool} {n : ℕ}
    (hn : readDue sel readyR n ++ writeDue sel readyW n ≠ []) : n ≤ sel.maxFd := by
  cases hf : sel.fds n with
  | none => exact absurd (by simp [readDue, writeDue, hf]) hn
  | some it => exact (hsel.fd_eq n it hf).2.2

/-- A client comes in while a connection waits for the greeting of its origin, which is cut. -/
def twoReady : List Event :=
  .select (fun n => n = 3 || n = 5) (fun _ => true) ::
    List.replicate 13 (.next { accept := some 6, errno := .eagain })

end Pop3Proxy
