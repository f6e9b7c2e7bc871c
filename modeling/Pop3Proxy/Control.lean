/-
# What a handler does to the wires

The control part of a connection is its state and its wires.  `Trans` lists
what one run of a handler can do to them, under which results of the system
calls; each handler is then shown to do nothing else, whatever its data are.
The invariants of the selector side are read off this list.
-/
import Pop3Proxy.Wires

namespace Pop3Proxy

/-- The two states that try to reach the origin. -/
def States.Attempts (s : States) : Prop := s = .processConnection ∨ s = .resolvConnection

/-- The attempt gets as far as waiting for the origin's answer. -/
def ConnectStarts (io : Io) (w : World) : Prop :=
  ∃ s, w.fresh io.socket = some s ∧ io.setNio = true ∧ io.connect = false ∧
    io.errno = .einprogress ∧ s < itemsMaxSize

/-- The origin's answer is awaited on a descriptor the selector cannot hold. -/
def BeyondSelector (io : Io) (w : World) : Prop :=
  ∃ s, w.fresh io.socket = some s ∧ io.setNio = true ∧ io.connect = false ∧
    io.errno = .einprogress ∧ (itemsMaxSize : Int) ≤ s

/-- `connect` succeeds on the new socket without waiting. -/
def ConnectsAtOnce (io : Io) (w : World) : Prop :=
  (w.fresh io.socket).isSome ∧ io.setNio = true ∧ io.connect = true

/-- The new socket stays as it was created: `fcntl` fails on it. -/
def NioRefused (io : Io) (w : World) : Prop := (w.fresh io.socket).isSome ∧ io.setNio = false

/-- `recv` into `read_buffer` returns 0 or fails, and not for want of data. -/
def RecvLost (io : Io) (c : Pop3) : Prop :=
  (io.recv = none ∨ io.recv = some [] ∨ c.readBuffer.limit ≤ c.readBuffer.write) ∧
    io.errno ≠ .eagain ∧ io.errno ≠ .ewouldblock

/-- No resolver thread can be started, and the program notices. -/
def NoResolver (io : Io) : Prop := io.malloc = false ∨ io.pthreadCreate = -1

instance (io : Io) (w : World) : Decidable (ConnectStarts io w) :=
  match h : w.fresh io.socket with
  | none => isFalse fun ⟨s, hs, _⟩ => by rw [h] at hs; exact absurd hs (by simp)
  | some s => decidable_of_iff (io.setNio = true ∧ io.connect = false ∧ io.errno = .einprogress ∧
      s < itemsMaxSize)
      ⟨fun hs => ⟨s, h, hs⟩, fun ⟨s', hs', hrest⟩ => by
        rw [h, Option.some.injEq] at hs'
        exact hs' ▸ hrest⟩

instance (io : Io) (w : World) : Decidable (BeyondSelector io w) :=
  match h : w.fresh io.socket with
  | none => isFalse fun ⟨s, hs, _⟩ => by rw [h] at hs; exact absurd hs (by simp)
  | some s => decidable_of_iff (io.setNio = true ∧ io.connect = false ∧ io.errno = .einprogress ∧
      (itemsMaxSize : Int) ≤ s)
      ⟨fun hs => ⟨s, h, hs⟩, fun ⟨s', hs', hrest⟩ => by
        rw [h, Option.some.injEq] at hs'
        exact hs' ▸ hrest⟩

instance (io : Io) (w : World) : Decidable (ConnectsAtOnce io w) :=
  inferInstanceAs (Decidable (_ ∧ _))

instance (io : Io) (w : World) : Decidable (NioRefused io w) :=
  inferInstanceAs (Decidable (_ ∧ _))

instance (io : Io) (c : Pop3) : Decidable (RecvLost io c) :=
  inferInstanceAs (Decidable (_ ∧ _))

instance (io : Io) : Decidable (NoResolver io) := inferInstanceAs (Decidable (_ ∨ _))

/-- `attempt_connection`, from the client's interest to the wires. -/
inductive Attempt (io : Io) (w : World) : FdInterest → Wires → Prop where
  | started {i} (h : ConnectStarts io w) : Attempt io w i ⟨OP_NOOP, .armed OP_WRITE⟩
  | refused {i} (h : ¬ ConnectStarts io w) (hcon : ¬ ConnectsAtOnce io w) :
    Attempt io w i ⟨i, .absent⟩
  | unregistered {i} (h : BeyondSelector io w) : Attempt io w i ⟨OP_NOOP, .absent⟩
  | leaked {i} (h : NioRefused io w) : Attempt io w i ⟨i, .leaked⟩

/-- One run of a handler of the connection `a`, seen from the state and the wires. -/
inductive Trans (io : Io) (a : Addr) (w : World) : States → Wires → States → Wires → Prop where
  | attempt {s i l'} (hs : s.Attempts) (h : Attempt io w i l') :
    Trans io a w s ⟨i, .absent⟩ .establConnection l'
  | noResolver {i o} (h : NoResolver io) :
    Trans io a w .processConnection ⟨i, o⟩ .greetingCwrite ⟨OP_WRITE, o⟩
  | resolving {i o} (h : ¬ NoResolver io) :
    Trans io a w .processConnection ⟨i, o⟩ .resolvConnection ⟨OP_NOOP, o⟩
  | established {i j} :
    Trans io a w .establConnection ⟨i, .armed j⟩ .greetingSread ⟨OP_NOOP, .armed OP_READ⟩
  | unconnected {i o} (h : ∀ j, o ≠ .armed j) :
    Trans io a w .establConnection ⟨i, o⟩ .greetingSread ⟨OP_READ, o⟩
  | greetingRead {i o} :
    Trans io a w .greetingSread ⟨i, o⟩ .greetingCwrite ⟨OP_WRITE, o.set OP_NOOP⟩
  | greetingAgain {l} : Trans io a w .greetingSread l .greetingSread l
  | greetingLost {l} (h : RecvLost io (w.heap a)) : Trans io a w .greetingSread l .greetingCwrite l
  | greetingPart {l} : Trans io a w .greetingCwrite l .greetingCwrite l
  | greetingSent {i o} : Trans io a w .greetingCwrite ⟨i, o⟩ .commandCread ⟨OP_READ, o⟩
  | commandPart {i o} : Trans io a w .commandCread ⟨i, o⟩ .commandCread ⟨OP_READ, o⟩
  | commandRead {i j} :
    Trans io a w .commandCread ⟨i, .armed j⟩ .commandSwrite ⟨OP_NOOP, .armed OP_WRITE⟩
  | forwardPart {l} : Trans io a w .commandSwrite l .commandSwrite l
  | forwardSent {i j} :
    Trans io a w .commandSwrite ⟨i, .armed j⟩ .responseSread ⟨i, .armed OP_READ⟩
  | replyRead {s i o next} (hs : s = .responseSread ∨ s = .dotDataSread)
    (hn : next = .responseCwrite ∨ next = .dotDataCwrite) :
    Trans io a w s ⟨i, o⟩ next ⟨OP_WRITE, o.set OP_NOOP⟩
  | replyPart {s l} (hs : s = .responseCwrite ∨ s = .dotDataCwrite) : Trans io a w s l s l
  | dataSent {i j} :
    Trans io a w .dotDataCwrite ⟨i, .armed j⟩ .dotDataSread ⟨OP_NOOP, .armed OP_READ⟩
  | replySent {i o} : Trans io a w .responseCwrite ⟨i, o⟩ .commandCread ⟨OP_READ, o⟩
  | failed {s l l'} (hs : ¬ s.Attempts) (h : l'.origin = .leaked ↔ l.origin = .leaked) :
    Trans io a w s l .error l'

/-- The handler `f` started in state `s` moves the wires as `Trans` says, and
starts a resolver thread exactly when it goes to `RESOLV_CONNECTION` and
`pthread_create` returns 0. -/
def Controlled (io : Io) (key : SelectorKey) (s : States) (l : Wires) (w : World)
    (r : Except Fault (States × World)) : Prop :=
  ∀ next w', r = .ok (next, w') →
    ∃ l', Trans io key.data w s l next l' ∧
      Moves key.data l'
        (if next = .resolvConnection ∧ io.pthreadCreate = 0 then [key] else []) w w'

section
variable {io : Io} {key : SelectorKey} {l : Wires} {w : World}

/-- A handler that ends in `ERROR` without touching the origin descriptor. -/
theorem controlled_error {s : States} {w' : World} (hs : ¬ s.Attempts)
    (h : ∃ l', (l'.origin = .leaked ↔ l.origin = .leaked) ∧ Moves key.data l' [] w w') :
    Controlled io key s l w (.ok (.error, w')) := by
  intro next w'' heq
  simp only [Except.ok.injEq, Prod.mk.injEq] at heq
  obtain ⟨rfl, rfl⟩ := heq
  obtain ⟨l', hl', hm⟩ := h
  exact ⟨l', .failed hs hl', by simpa using hm⟩

/-- A handler that goes to `next`, which is not `RESOLV_CONNECTION`. -/
theorem controlled_next {s next : States} {l' : Wires} {w' : World}
    (ht : Trans io key.data w s l next l') (hm : Moves key.data l' [] w w')
    (hne : next ≠ .resolvConnection) : Controlled io key s l w (.ok (next, w')) := by
  intro next' w'' heq
  simp only [Except.ok.injEq, Prod.mk.injEq] at heq
  obtain ⟨rfl, rfl⟩ := heq
  exact ⟨l', ht, by simpa [hne] using hm⟩

/-- The same for a handler that ends by arming a descriptor. -/
theorem controlled_armed {s next : States} {l' : Wires} {r : States × World}
    (ht : Trans io key.data w s l next l') (hr : r.1 = next ∧ Moves key.data l' [] w r.2)
    (hne : next ≠ .resolvConnection) : Controlled io key s l w (.ok r) := by
  obtain ⟨rfl, hm⟩ := hr
  exact controlled_next ht hm hne

/-- A fallible step before the handler's own. -/
theorem controlled_bind {α : Type} {s : States} {x : Except Fault α}
    {f : α → Except Fault (States × World)}
    (h : ∀ v, x = .ok v → Controlled io key s l w (f v)) :
    Controlled io key s l w (x >>= f) := by
  intro next w' heq
  obtain ⟨v, hv, hf⟩ := bind_eq_ok.mp heq
  exact h v hv next w' hf

/-- A handler that hands the turn to the origin, which fails when there is none. -/
theorem controlled_toOrigin {s next : States} {w₁ : World} (hm : Moves key.data l [] w w₁)
    (hs : ¬ s.Attempts) {i : FdInterest}
    (ht : ∀ j, l.origin = .armed j → Trans io key.data w s l next ⟨OP_NOOP, .armed i⟩)
    (hne : next ≠ .resolvConnection) :
    Controlled io key s l w (.ok (w₁.toOrigin key.data i next)) := by
  by_cases hl : ∃ j, l.origin = .armed j
  · obtain ⟨j, hl⟩ := hl
    have hh := toOrigin_moves hm.sound hm.wired hl i next
    exact controlled_armed (ht j hl) ⟨hh.1, hm.andThen hh.2⟩ hne
  · have hl : ∀ j, l.origin ≠ .armed j := fun j h => hl ⟨j, h⟩
    have hh := toOrigin_unregistered hm.sound hm.wired hl i next
    have ht : Trans io key.data w s l .error ⟨OP_NOOP, l.origin⟩ := .failed hs Iff.rfl
    exact controlled_armed ht ⟨hh.1, hm.andThen hh.2⟩ (by simp)

end

/-! ## The handlers, one by one -/

section
variable {io : Io} {key : SelectorKey} {i : FdInterest} {l : Wires} {w : World}

/-- A new descriptor is registered when it has a place in the table. -/
theorem register_success_iff (io : Io) (hs : Sound w) {s : Int} (hs0 : 0 ≤ s)
    (hclosed : w.isOpen s = false)
    (a : Addr) (j : FdInterest) :
    ((opened a s w).register io s j a).1 = .success ↔ s < itemsMaxSize := by
  have hnone : (opened a s w).sel.item s = none := hs.item_of_closed hclosed
  rcases FdSelector.register_cases io.malloc hs.wf.fdSize s FdHandler.suscriptions j a with
    ⟨h, hv, -⟩ | ⟨h, -, hv⟩
  · rw [FdSelector.invalidFd_eq_false] at hv
    exact ⟨fun _ => hv.2, fun _ => h⟩
  · refine ⟨fun h' => absurd h' h, fun hlt => ?_⟩
    have := hv (FdSelector.invalidFd_eq_false.mpr ⟨hs0, hlt⟩)
    rw [show w.sel.item s = none from hnone] at this
    exact absurd this (by simp)

/-- What `attempt_connection` does, when the struct was changed before it. -/
theorem attemptConnection_spec (hsnd : Sound w) (hw : Wired w key.data ⟨i, .absent⟩)
    (hfd : key.fd = (w.heap key.data).clientFd) {next : States} {w' : World}
    (h : attemptConnection io key w = .ok (next, w')) :
    next = .establConnection ∧ ∃ l', Attempt io w i l' ∧ Moves key.data l' [] w w' := by
  have hret : ∀ {l' : Wires} {w₁ : World}, Attempt io w i l' → Moves key.data l' [] w w₁ →
      Except.ok (ε := Fault) (States.establConnection, w₁) = .ok (next, w') →
      next = .establConnection ∧ ∃ l', Attempt io w i l' ∧ Moves key.data l' [] w w' := by
    intro l' w₁ ha hm heq
    simp only [Except.ok.injEq, Prod.mk.injEq] at heq
    obtain ⟨rfl, rfl⟩ := heq
    exact ⟨rfl, l', ha, hm⟩
  unfold attemptConnection at h
  cases hf : w.fresh io.socket with
  | none =>
    rw [hf] at h
    refine hret (.refused ?_ ?_) (moves_noOrigin hsnd hw rfl) h
    · rintro ⟨s, h, -⟩
      rw [hf] at h
      exact absurd h (by simp)
    · rintro ⟨h, -⟩
      rw [hf] at h
      exact absurd h (by simp)
  | some o =>
    rw [hf] at h
    obtain ⟨ho0, hclosed⟩ := fresh_spec hf
    cases hnio : io.setNio with
    | false =>
      have hrefused : NioRefused io w := ⟨by rw [hf]; rfl, hnio⟩
      simp only [hnio, Bool.not_false, if_true] at h
      exact hret (.leaked hrefused) (moves_opened hsnd hw rfl ho0 hclosed) h
    | true =>
      simp only [hnio, Bool.not_true, Bool.false_eq_true, if_false] at h
      cases hcon : io.connect with
      | true => simp [hcon] at h
      | false =>
        simp only [hcon, Bool.false_eq_true, if_false] at h
        by_cases herr : io.errno = .einprogress
        · rw [if_neg (by simp [herr])] at h
          -- disarming the client commutes with opening the socket
          have hnoop := moves_client hsnd hw OP_NOOP
          rw [← hfd] at hnoop
          have hst : ((opened key.data o w).setInterest key.fd OP_NOOP).1 = .success := by
            rw [World.setInterest, FdSelector.setInterest_status]
            show (w.sel.item key.fd).isSome = true
            rw [hfd, hw.client]
            rfl
          have hclosed' : (w.setInterest key.fd OP_NOOP).2.isOpen o = false := hclosed
          have hiff := register_success_iff io hnoop.sound ho0 hclosed' key.data OP_WRITE
          replace h : (if ((opened key.data o w).setInterest key.fd OP_NOOP).1 ≠ .success then _
            else _) = _ := h
          rw [if_neg (by simp [hst])] at h
          replace h : (if ((opened key.data o (w.setInterest key.fd OP_NOOP).2).register io o
            OP_WRITE key.data).1 ≠ .success then _ else _) = _ := h
          by_cases hlt : o < itemsMaxSize
          · rw [if_neg (by simp [hiff.mpr hlt])] at h
            exact hret (.started ⟨o, hf, hnio, hcon, herr, hlt⟩)
              (hnoop.andThen (moves_registered hnoop.sound hnoop.wired rfl hclosed' io OP_WRITE
                (hiff.mpr hlt))) h
          · have hst' := mt hiff.mp hlt
            rw [if_pos hst'] at h
            have hsame :
              ((opened key.data o (w.setInterest key.fd OP_NOOP).2).register io o OP_WRITE
                key.data).2 = opened key.data o (w.setInterest key.fd OP_NOOP).2 := by
              rcases FdSelector.register_cases io.malloc hnoop.sound.wf.fdSize o
                FdHandler.suscriptions OP_WRITE key.data with ⟨h, -⟩ | ⟨-, h, -⟩
              · exact absurd h hst'
              · simp only [World.register, opened, World.modify, World.openFd] at h ⊢
                rw [h]
            have hmoves := hnoop.andThen (moves_noOrigin hnoop.sound hnoop.wired rfl)
            rw [← closeOrigin_opened key hclosed', ← hsame] at hmoves
            exact hret (.unregistered ⟨o, hf, hnio, hcon, herr, by omega⟩) hmoves h
        · rw [if_pos (by simp [herr])] at h
          have hmoves := moves_noOrigin hsnd hw rfl
          rw [← closeOrigin_opened key hclosed] at hmoves
          refine hret (.refused ?_ ?_) hmoves h
          · rintro ⟨o', -, -, -, h, -⟩
            exact herr h
          · rintro ⟨-, -, h⟩
            rw [hcon] at h
            exact absurd h (by simp)

/-- Trying to connect opens the socket of the origin. -/
theorem attemptConnection_controlled {s : States} (hs : s.Attempts)
    (hfd : key.fd = (w.heap key.data).clientFd) {f : Pop3 → Pop3}
    (hm : Moves key.data ⟨i, .absent⟩ [] w (w.modify key.data f)) :
    Controlled io key s ⟨i, .absent⟩ w (attemptConnection io key (w.modify key.data f)) := by
  intro next w' heq
  obtain ⟨rfl, l', ha, hm'⟩ :=
    attemptConnection_spec hm.sound hm.wired (hfd.trans hm.clientFd.symm) heq
  exact ⟨l',
    .attempt hs (by cases ha <;> constructor <;> assumption), by simpa using hm.andThen hm'⟩

/-- The first handler: it starts a resolver or tries to connect. -/
theorem processConnection_controlled (hsnd : Sound w) (hw : Wired w key.data ⟨i, .absent⟩)
    (hfd : key.fd = (w.heap key.data).clientFd) :
    Controlled io key .processConnection ⟨i, .absent⟩ w (processConnection io key w) := by
  unfold processConnection
  refine controlled_bind fun server _ => ?_
  cases server with
  | ipv4 =>
    exact attemptConnection_controlled (.inl rfl) hfd (moves_modify hsnd hw rfl rfl rfl rfl)
  | ipv6 =>
    exact attemptConnection_controlled (.inl rfl) hfd (moves_modify hsnd hw rfl rfl rfl rfl)
  | domain =>
    have hclient : ∀ j, Moves key.data ⟨j, .absent⟩ [] w (w.setInterest key.fd j).2 := fun j => by
      rw [hfd]
      exact moves_client hsnd hw j
    by_cases hres : NoResolver io
    · rw [if_pos (by simpa [NoResolver] using hres)]
      exact controlled_next (.noResolver hres) (hclient OP_WRITE) (by simp)
    · rw [if_neg (by simpa [NoResolver] using hres)]
      intro next w' heq
      by_cases hzero : io.pthreadCreate = 0
      · simp only [hzero, if_true, Except.ok.injEq, Prod.mk.injEq] at heq
        obtain ⟨rfl, rfl⟩ := heq
        refine ⟨_, .resolving hres, ?_⟩
        simp only [hzero, and_self, if_true]
        exact (hclient OP_NOOP).addResolver key
      · simp only [hzero, if_false, Except.ok.injEq, Prod.mk.injEq] at heq
        obtain ⟨rfl, rfl⟩ := heq
        refine ⟨_, .resolving hres, ?_⟩
        simpa [hzero] using hclient OP_NOOP

/-- Where the first event leads, by the address the origin has. -/
structure FirstGoes (io : Io) (server : AddrType) (next : States) : Prop where
  attempt : server ≠ .domain → next = .establConnection
  noResolver : server = .domain → NoResolver io → next = .greetingCwrite
  resolving : server = .domain → ¬ NoResolver io → next = .resolvConnection

/-- A name is resolved first. -/
theorem FirstGoes.not_attempt {server : AddrType} {next : States} (h : FirstGoes io server next)
    (hserver : server = .domain) : next ≠ .establConnection := by
  by_cases hres : NoResolver io
  · rw [h.noResolver hserver hres]
    simp
  · rw [h.resolving hserver hres]
    simp

/-- Behind the attempt the connection is established. -/
theorem attemptConnection_next {next : States} {w' : World}
    (h : attemptConnection io key w = .ok (next, w')) : next = .establConnection := by
  unfold attemptConnection at h
  split at h
  · simp only [Except.ok.injEq, Prod.mk.injEq] at h
    exact h.1.symm
  · simp only at h
    split_ifs at h
    all_goals
      simp only [Except.ok.injEq, Prod.mk.injEq] at h
      exact h.1.symm

/-- Where the first handler goes depends on what is known of the origin. -/
theorem processConnection_goes (server : AddrType) {next : States} {w' : World}
    (horigin : (w.heap key.data).origin = .connecting server)
    (h : processConnection io key w = .ok (next, w')) : FirstGoes io server next := by
  unfold processConnection at h
  rw [horigin] at h
  simp only [Origin.asConnecting, ok_bind] at h
  cases server with
  | ipv4 => exact ⟨fun _ => attemptConnection_next h, by simp, by simp⟩
  | ipv6 => exact ⟨fun _ => attemptConnection_next h, by simp, by simp⟩
  | domain =>
    simp only at h
    refine ⟨by simp, fun _ hres => ?_, fun _ hres => ?_⟩
    · rw [if_pos (by simpa [NoResolver] using hres)] at h
      simp only [Except.ok.injEq, Prod.mk.injEq] at h
      exact h.1.symm
    · rw [if_neg (by simpa [NoResolver] using hres)] at h
      simp only [Except.ok.injEq, Prod.mk.injEq] at h
      exact h.1.symm

/-- The handler that takes a resolved name. -/
theorem resolvConnection_controlled (hsnd : Sound w) (hw : Wired w key.data ⟨i, .absent⟩)
    (hfd : key.fd = (w.heap key.data).clientFd) :
    Controlled io key .resolvConnection ⟨i, .absent⟩ w (resolvConnection io key w) := by
  unfold resolvConnection
  refine controlled_bind fun _ _ => ?_
  cases (w.heap key.data).originResolution with
  | none =>
    intro next w' heq
    obtain ⟨rfl, l', ha, hm⟩ := attemptConnection_spec hsnd hw hfd heq
    exact ⟨l', .attempt (.inr rfl) ha, by simpa using hm⟩
  | some family =>
    exact attemptConnection_controlled (.inr rfl) hfd (moves_modify hsnd hw rfl rfl rfl rfl)

/-- `establ_connection` run for the origin descriptor. -/
theorem establConnection_controlled_origin {j : FdInterest} (hsnd : Sound w)
    (hw : Wired w key.data ⟨i, .armed j⟩) (hfd : key.fd = (w.heap key.data).originFd) :
    Controlled io key .establConnection ⟨i, .armed j⟩ w (establConnection key w) := by
  unfold establConnection
  refine controlled_bind fun _ _ => ?_
  have h1 := moves_client hsnd hw OP_NOOP
  have h2 := moves_origin h1.sound h1.wired rfl OP_READ
  have hs1 := setInterest_success hw.client OP_NOOP
  have hs2 := setInterest_success h1.wired.origin.2 OP_READ
  rw [hfd]
  show Controlled io key _ _ w (.ok (if _ ∧ _ then _ else _, _))
  rw [if_pos ⟨hs1, hs2⟩]
  exact controlled_next .established (h1.andThen h2) (by simp)

/-- `establ_connection` run for the client descriptor: it arms the client. -/
theorem establConnection_controlled_client {o : OriginStatus} (hsnd : Sound w)
    (hw : Wired w key.data ⟨i, o⟩) (ho : ∀ j, o ≠ .armed j)
    (hfd : key.fd = (w.heap key.data).clientFd) :
    Controlled io key .establConnection ⟨i, o⟩ w (establConnection key w) := by
  unfold establConnection
  refine controlled_bind fun _ _ => ?_
  have h1 := moves_client hsnd hw OP_NOOP
  have h2 := moves_client h1.sound h1.wired OP_READ
  have hs1 := setInterest_success hw.client OP_NOOP
  have hs2 := setInterest_success h1.wired.client OP_READ
  rw [hfd]
  show Controlled io key _ _ w (.ok (if _ ∧ _ then _ else _, _))
  rw [if_pos ⟨hs1, hs2⟩]
  exact controlled_next (.unconnected ho) (h1.andThen h2) (by simp)

/-- A read that gives nothing, and not for being too early, loses the connection. -/
theorem recvLost_of_empty {c : Pop3} {count : ℕ} (hcount : bufferWritePtr c.readBuffer = .ok count)
    (hempty : ∀ b bs, upTo io.recv count ≠ some (b :: bs))
    (herr : ¬ (io.errno = .eagain ∨ io.errno = .ewouldblock)) : RecvLost io c := by
  refine ⟨?_, fun h => herr (.inl h), fun h => herr (.inr h)⟩
  cases hr : io.recv with
  | none => exact .inl rfl
  | some bs =>
    cases bs with
    | nil => exact .inr (.inl rfl)
    | cons b bs =>
      refine .inr (.inr ?_)
      simp only [bufferWritePtr] at hcount
      split_ifs at hcount
      simp only [Except.ok.injEq] at hcount
      cases count with
      | zero => omega
      | succ n => exact absurd (by simp [upTo, hr]) (hempty b (bs.take n))

/-- The greeting is read. -/
theorem greetingSread_controlled (hsnd : Sound w) (hw : Wired w key.data l) :
    Controlled io key .greetingSread l w (greetingSread io key w) := by
  unfold greetingSread
  refine controlled_bind fun p _ => controlled_bind fun count hcount => ?_
  split
  · rename_i c cs _
    refine controlled_bind fun rb _ => ?_
    have hm := moves_modify hsnd hw (f := fun c' =>
      { c' with
        readBuffer := rb
        origin := .greeting (pop3SinglelineResponseBuilder (c :: cs) p none).state.1 })
      rfl rfl rfl rfl
    simp only
    split_ifs
    · have hh := toClient_moves hm.sound hm.wired .greetingCwrite
      exact controlled_armed .greetingRead ⟨hh.1, hm.andThen hh.2⟩ (by simp)
    · have ho := moves_setOrigin hm.sound hm.wired OP_NOOP
      refine controlled_error (by simp [States.Attempts]) ⟨_, ?_, hm.andThen ho⟩
      cases l.origin <;> simp [OriginStatus.set]
  · rename_i hempty
    split_ifs with herr
    · exact controlled_next .greetingAgain (.refl hsnd hw) (by simp)
    · exact controlled_next (.greetingLost (recvLost_of_empty hcount hempty herr)) (.refl hsnd hw)
        (by simp)

/-- It is sent on. -/
theorem greetingCwrite_controlled (hsnd : Sound w) (hw : Wired w key.data l)
    (hfd : key.fd = (w.heap key.data).clientFd) :
    Controlled io key .greetingCwrite l w (greetingCwrite io key w) := by
  unfold greetingCwrite
  refine controlled_bind fun _ _ => controlled_bind fun bytes _ => ?_
  split
  · rename_i sent _
    refine controlled_bind fun b _ => ?_
    have hm := (moves_emit hsnd hw (.sent key.fd sent)).andThen
      (moves_modify (moves_emit hsnd hw _).sound (moves_emit hsnd hw _).wired
        (f := fun c => { c with writeBuffer := b }) rfl rfl rfl rfl)
    simp only
    split_ifs
    · exact controlled_next .greetingPart hm (by simp)
    · have hh := armed_client hm.sound hm.wired (hfd.trans hm.clientFd.symm) OP_READ .commandCread
      exact controlled_armed .greetingSent ⟨hh.1, hm.andThen hh.2⟩ (by simp)
  · exact controlled_error (by simp [States.Attempts]) ⟨l, Iff.rfl, .refl hsnd hw⟩

/-- A command is read. -/
theorem commandCread_controlled (hsnd : Sound w) (hw : Wired w key.data l)
    (hfd : key.fd = (w.heap key.data).clientFd) :
    Controlled io key .commandCread l w (commandCread io key w) := by
  unfold commandCread
  refine controlled_bind fun count _ => ?_
  split
  · rename_i b bs _
    refine controlled_bind fun rb _ => controlled_bind fun rb' _ => ?_
    simp only
    generalize hf : (fun c : Pop3 => ({ c with
        readBuffer := rb'
        commandParser := (commandBuilder (b :: bs) (w.heap key.data).commandParser
          (w.heap key.data).currentCommand).state.1
        currentCommand := (commandBuilder (b :: bs) (w.heap key.data).commandParser
          (w.heap key.data).currentCommand).state.2
        currentCommandLen := c.currentCommandLen + (commandBuilder (b :: bs)
          (w.heap key.data).commandParser (w.heap key.data).currentCommand).read
        bytesRead := c.bytesRead + (b :: bs).length } : Pop3)) = f
    have hm : Moves key.data l [] w (w.modify key.data f) :=
      moves_modify hsnd hw (by rw [← hf]) (by rw [← hf]) (by rw [← hf]) (by rw [← hf])
    split
    · have hm' := hm.andThen (moves_modify hm.sound hm.wired (f := fun c =>
        if (b :: bs).length ≠ (commandBuilder (b :: bs) (w.heap key.data).commandParser
            (w.heap key.data).currentCommand).read then
          { c with
            pipelined := true
            bytesInBuffer := (b :: bs).length - (commandBuilder (b :: bs)
              (w.heap key.data).commandParser (w.heap key.data).currentCommand).read }
        else { c with pipelined := false })
        (by split_ifs <;> rfl) (by split_ifs <;> rfl) (by split_ifs <;> rfl)
        (by split_ifs <;> rfl))
      refine controlled_toOrigin hm' (by simp [States.Attempts]) (fun j hl => ?_) (by simp)
      cases l
      subst hl
      exact .commandRead
    · have hh := armed_client hm.sound hm.wired (hfd.trans hm.clientFd.symm) OP_READ .commandCread
      exact controlled_armed .commandPart ⟨hh.1, hm.andThen hh.2⟩ (by simp)
    · exact controlled_error (by simp [States.Attempts]) ⟨l, Iff.rfl, hm⟩
  · exact controlled_error (by simp [States.Attempts]) ⟨l, Iff.rfl, .refl hsnd hw⟩

/-- It is sent on. -/
theorem commandSwrite_controlled {j : FdInterest} (hsnd : Sound w)
    (hw : Wired w key.data ⟨i, .armed j⟩) (hfd : key.fd = (w.heap key.data).originFd) :
    Controlled io key .commandSwrite ⟨i, .armed j⟩ w (commandSwrite io key w) := by
  unfold commandSwrite
  refine controlled_bind fun bytes _ => ?_
  split
  · rename_i sent _
    have he := moves_emit hsnd hw (.sent key.fd sent)
    have hm := he.andThen (moves_modify he.sound he.wired (f := fun c =>
      { c with readBuffer :=
        { (w.heap key.data).readBuffer with
          read := (w.heap key.data).readBuffer.read + sent.length } }) rfl rfl rfl rfl)
    simp only
    split_ifs
    · exact controlled_next .forwardPart hm (by simp)
    · have hh := armed_origin hm.sound hm.wired rfl
        (hfd.trans (by simp [World.modify, World.emit])) OP_READ .responseSread
      exact controlled_armed .forwardSent ⟨hh.1, hm.andThen hh.2⟩ (by simp)
  · exact controlled_error (by simp [States.Attempts]) ⟨_, Iff.rfl, .refl hsnd hw⟩

/-! ### The reply -/

/-- A pipe is nothing to the descriptors of the connection. -/
theorem moves_openPair (hsnd : Sound w) {a : Addr} (hw : Wired w a l) (p : Int × Int)
    {f : Pop3 → Pop3} (h1 : ∀ c, (f c).clientFd = c.clientFd)
    (h2 : ∀ c, (f c).originFd = c.originFd)
    (h3 : ∀ c, (f c).references = c.references) (h4 : ∀ c, (f c).current = c.current) :
    Moves a l [] w (((w.openFd p.1).openFd p.2).modify a f) := by
  have hm1 := moves_openFd hsnd hw p.1
  have hm2 := moves_openFd hm1.sound hm1.wired p.2
  exact (hm1.andThen hm2).andThen
    (moves_modify hm2.sound hm2.wired (h1 _) (h2 _) (h3 _) (h4 _))

/-- Nor is a filter. -/
theorem moves_createTransformation (io : Io) (hsnd : Sound w) {a : Addr} (hw : Wired w a l) :
    Moves a l [] w (createTransformation io a w) := by
  unfold createTransformation
  split
  · exact .refl hsnd hw
  · rename_i p _
    have hm := moves_openPair hsnd hw p (f := fun c => { c with senderPipe := p })
      (fun _ => rfl) (fun _ => rfl) (fun _ => rfl) (fun _ => rfl)
    simp only
    split
    · exact hm
    · rename_i q _
      exact hm.andThen (moves_openPair hm.sound hm.wired q
        (fun _ => rfl) (fun _ => rfl) (fun _ => rfl) (fun _ => rfl))

/-- Nor is what is written to it. -/
theorem moves_feedFilter (hsnd : Sound w) {a : Addr} (hw : Wired w a l) {w' : World}
    (h : feedFilter a w = .ok w') : Moves a l [] w w' := by
  obtain ⟨bytes, -, h⟩ := bind_eq_ok.mp h
  simp only [Except.ok.injEq] at h
  subst h
  exact moves_emit hsnd hw _

/-- Nor is what is read from it. -/
theorem moves_readFilter (hsnd : Sound w) {a : Addr} (hw : Wired w a l) {w' : World}
    (h : readFilter io a w = .ok w') : Moves a l [] w w' := by
  obtain ⟨count, -, h⟩ := bind_eq_ok.mp h
  obtain ⟨tb, -, h⟩ := bind_eq_ok.mp h
  simp only [Except.ok.injEq] at h
  subst h
  exact moves_modify hsnd hw rfl rfl rfl rfl

/-- After a read from the origin the turn goes to the client. -/
theorem controlled_reply {s next : States} {w₁ : World}
    (hs : s = .responseSread ∨ s = .dotDataSread)
    (hn : next = .responseCwrite ∨ next = .dotDataCwrite) (hm : Moves key.data l [] w w₁) :
    Controlled io key s l w (.ok (w₁.toClient key.data next)) := by
  have hh := toClient_moves hm.sound hm.wired next
  refine controlled_armed (.replyRead hs hn) ⟨hh.1, hm.andThen hh.2⟩ ?_
  rcases hn with rfl | rfl <;> simp

/-- Nor is all that is done with the first chunk of a mail. -/
theorem moves_startFilter (hsnd : Sound w) {a : Addr} (hw : Wired w a l) {w' : World}
    (h : startFilter io a w = .ok w') : Moves a l [] w w' := by
  obtain ⟨w₁, h₁, h₂⟩ := bind_eq_ok.mp h
  have hc := moves_createTransformation (l := l) io hsnd hw
  have hf := hc.andThen (moves_feedFilter hc.sound hc.wired h₁)
  exact hf.andThen (moves_readFilter hf.sound hf.wired h₂)

/-- Nor is what is done with the others. -/
theorem moves_continueFilter (hsnd : Sound w) {a : Addr} (hw : Wired w a l) {w' : World}
    (h : continueFilter io a w = .ok w') : Moves a l [] w w' := by
  obtain ⟨w₁, h₁, h₂⟩ := bind_eq_ok.mp h
  have hf := moves_feedFilter hsnd hw h₁
  have hm := hf.andThen (moves_modify hf.sound hf.wired
    (f := fun c => { c with transBuffer := bufferReset c.transBuffer }) rfl rfl rfl rfl)
  exact hm.andThen (moves_readFilter hm.sound hm.wired h₂)

/-- A choice is one of the two. -/
theorem ite_eq_or {α : Type} (p : Prop) [Decidable p] (x y : α) :
    (if p then x else y) = x ∨ (if p then x else y) = y := by
  split_ifs
  · exact .inl rfl
  · exact .inr rfl

/-- A chunk of a reply of many lines. -/
theorem responseMultiline_controlled (hsnd : Sound w) (hw : Wired w key.data l)
    (chunk : List Byte) (p : SinglelineState) (m : MultilineState) :
    Controlled io key .responseSread l w (responseMultiline io key chunk p m w) := by
  unfold responseMultiline
  have hm := moves_modify hsnd hw (f := fun c =>
    { c with
      origin := .response p (pop3MultilineResponseChecker chunk m).state
      transform := isTransformed (w.heap key.data).currentCommand.kwrd }) rfl rfl rfl rfl
  refine controlled_bind fun w₁ hw₁ => ?_
  have hm₁ : Moves key.data l [] w w₁ := by
    split_ifs at hw₁
    · exact hm.andThen (moves_startFilter hm.sound hm.wired hw₁)
    · simp only [Except.ok.injEq] at hw₁
      subst hw₁
      exact hm
  exact controlled_reply (.inl rfl) (ite_eq_or _ _ _) hm₁

/-- The reply is read. -/
theorem responseSread_controlled (hsnd : Sound w) (hw : Wired w key.data l) :
    Controlled io key .responseSread l w (responseSread io key w) := by
  unfold responseSread
  refine controlled_bind fun pm _ => controlled_bind fun count _ => ?_
  split
  · rename_i b bs _
    refine controlled_bind fun wb _ => ?_
    have hm := moves_modify hsnd hw (f := fun c =>
      { c with
        writeBuffer := wb
        origin := .response (pop3SinglelineResponseBuilder (b :: bs) pm.1 none).state.1 pm.2 })
      rfl rfl rfl rfl
    have hmulti : ∀ q, Controlled io key .responseSread l w
        (responseMultiline io key (b :: bs) q pm.2 (w.modify key.data fun c =>
          { c with
            writeBuffer := wb
            origin := .response (pop3SinglelineResponseBuilder (b :: bs) pm.1 none).state.1
              pm.2 })) := fun q next w' heq => by
      obtain ⟨l', ht, hm'⟩ :=
        responseMultiline_controlled hm.sound hm.wired (b :: bs) q pm.2 next w' heq
      refine ⟨l', ?_, by simpa using hm.trans hm'⟩
      cases ht with
      | replyRead hs hn => exact .replyRead hs hn
      | failed hs h => exact .failed hs h
      | attempt hs => exact absurd hs (by simp [States.Attempts])
      | replyPart hs => exact .replyPart hs
    simp only
    split_ifs
    · split
      · exact hmulti _
      · exact hmulti _
      · exact controlled_reply (.inl rfl) (.inl rfl) hm
    · exact controlled_error (by simp [States.Attempts]) ⟨l, Iff.rfl, hm⟩
  · exact controlled_error (by simp [States.Attempts]) ⟨l, Iff.rfl, .refl hsnd hw⟩

/-- The rest of it is read. -/
theorem dotDataSread_controlled (hsnd : Sound w) (hw : Wired w key.data l) :
    Controlled io key .dotDataSread l w (dotDataSread io key w) := by
  unfold dotDataSread
  refine controlled_bind fun _ _ => controlled_bind fun count _ => ?_
  split
  · rename_i b bs _
    refine controlled_bind fun wb _ => controlled_bind fun w₁ hw₁ => ?_
    have hm := moves_modify hsnd hw (f := fun c => { c with writeBuffer := wb }) rfl rfl rfl rfl
    have hm₁ : Moves key.data l [] w w₁ := by
      split_ifs at hw₁
      · exact hm.andThen (moves_continueFilter hm.sound hm.wired hw₁)
      · simp only [Except.ok.injEq] at hw₁
        subst hw₁
        exact hm
    exact controlled_reply (.inr rfl) (ite_eq_or _ _ _) hm₁
  · exact controlled_error (by simp [States.Attempts]) ⟨l, Iff.rfl, .refl hsnd hw⟩

/-- Whatever the buffer is, sending from it only changes the data of the connection. -/
theorem relay_controlled {s : States} {drained : World → States × World}
    (hs : s = .responseCwrite ∨ s = .dotDataCwrite) (hsnd : Sound w) (hw : Wired w key.data l)
    (hdrained : ∀ w₁, Moves key.data l [] w w₁ → Controlled io key s l w (.ok (drained w₁))) :
    Controlled io key s l w (relay s drained io key w) := by
  have hne : ¬ s.Attempts ∧ s ≠ .resolvConnection := by
    rcases hs with rfl | rfl <;> simp [States.Attempts]
  unfold relay
  refine controlled_bind fun pm _ => controlled_bind fun bytes _ => ?_
  split
  · rename_i sent _
    refine controlled_bind fun b _ => ?_
    have he := moves_emit hsnd hw (.sent key.fd sent)
    have hm := he.andThen (moves_modify he.sound he.wired (f := fun c =>
      if (w.heap key.data).transform = true then
        { c with
          transBuffer := b
          origin := .response (pop3SinglelineResponseBuilder sent pm.1 none).state.1 pm.2 }
      else
        { c with
          writeBuffer := b
          origin := .response (pop3SinglelineResponseBuilder sent pm.1 none).state.1 pm.2 })
      (by split_ifs <;> rfl) (by split_ifs <;> rfl) (by split_ifs <;> rfl) (by split_ifs <;> rfl))
    simp only
    split_ifs
    · exact controlled_next (.replyPart hs) hm hne.2
    · exact hdrained _ hm
  · exact controlled_error hne.1 ⟨l, Iff.rfl, .refl hsnd hw⟩

/-- A chunk is sent on, and more is to come. -/
theorem dotDataCwrite_controlled (hsnd : Sound w) (hw : Wired w key.data l) :
    Controlled io key .dotDataCwrite l w (dotDataCwrite io key w) :=
  relay_controlled (.inr rfl) hsnd hw fun w₁ hm =>
    controlled_toOrigin hm (by simp [States.Attempts])
      (fun j hl => by cases l; subst hl; exact .dataSent) (by simp)

/-- The last chunk is sent on. -/
theorem responseCwrite_controlled (hsnd : Sound w) (hw : Wired w key.data l)
    (hfd : key.fd = (w.heap key.data).clientFd) :
    Controlled io key .responseCwrite l w (responseCwrite io key w) :=
  relay_controlled (.inl rfl) hsnd hw fun w₁ hm => by
    have hh := armed_client hm.sound hm.wired (hfd.trans hm.clientFd.symm) OP_READ .commandCread
    exact controlled_armed .replySent ⟨hh.1, hm.andThen hh.2⟩ (by simp)

end

end Pop3Proxy
