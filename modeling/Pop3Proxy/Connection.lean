/-
# The states of a connection and its wires

Which descriptor is armed in which state, for all the ways the system calls can
turn out (`Allowed`).  One event keeps to this table (`suscription_step`): the
connection is finished, or it moves as `Trans` says.
-/
import Pop3Proxy.Suscription

namespace Pop3Proxy

/-- The origin descriptor takes no part: it is not registered. -/
def OriginStatus.Unregistered (o : OriginStatus) : Prop := o = .absent ∨ o = .leaked

/-- The states a connection can be in between two events, with its wires; no
state is recorded before the first event. -/
inductive Allowed : Option States → Wires → Prop where
  | fresh : Allowed none ⟨OP_WRITE, .absent⟩
  | resolving : Allowed (some .resolvConnection) ⟨OP_NOOP, .absent⟩
  | connecting : Allowed (some .establConnection) ⟨OP_NOOP, .armed OP_WRITE⟩
  | attemptFailed {i o} (hi : i = OP_NOOP ∨ i = OP_WRITE) (ho : o.Unregistered) :
    Allowed (some .establConnection) ⟨i, o⟩
  | awaiting : Allowed (some .greetingSread) ⟨OP_NOOP, .armed OP_READ⟩
  | unconnected {o} (ho : o.Unregistered) : Allowed (some .greetingSread) ⟨OP_READ, o⟩
  | greeting {o} (ho : o.Unregistered ∨ o = .armed OP_NOOP) :
    Allowed (some .greetingCwrite) ⟨OP_WRITE, o⟩
  | greetingLost : Allowed (some .greetingCwrite) ⟨OP_NOOP, .armed OP_READ⟩
  | greetingNever {o} (ho : o.Unregistered) : Allowed (some .greetingCwrite) ⟨OP_READ, o⟩
  | command {o} (ho : o.Unregistered ∨ o = .armed OP_NOOP) :
    Allowed (some .commandCread) ⟨OP_READ, o⟩
  | forward : Allowed (some .commandSwrite) ⟨OP_NOOP, .armed OP_WRITE⟩
  | reply {s} (hs : s = .responseSread ∨ s = .dotDataSread) :
    Allowed (some s) ⟨OP_NOOP, .armed OP_READ⟩
  | relay {s} (hs : s = .responseCwrite ∨ s = .dotDataCwrite) :
    Allowed (some s) ⟨OP_WRITE, .armed OP_NOOP⟩

/-- The bit of an interest an event needs. -/
def Op.bit : Op → FdInterest → Bool
  | .read, i => i.read
  | .write, i => i.write
  | .block, _ => false

/-- The event `op` on the descriptor `fd` can be dispatched to the connection
`a`: the descriptor is armed for it, or it is the notification awaited in
`RESOLV_CONNECTION`. -/
inductive Dispatched (w : World) (a : Addr) (s : Option States) (l : Wires) (fd : Int) :
    Op → Prop where
  | client {op} (hfd : fd = (w.heap a).clientFd) (h : op.bit l.client = true) :
    Dispatched w a s l fd op
  | origin {op i} (hfd : fd = (w.heap a).originFd) (ho : l.origin = .armed i)
    (h : op.bit i = true) : Dispatched w a s l fd op
  | block (hfd : fd = (w.heap a).clientFd) (hs : s = some .resolvConnection) :
    Dispatched w a s l fd .block

/-- The state whose handler an event runs. -/
def stateOf (s : Option States) : States := s.getD .processConnection

section
variable {io : Io} {key : SelectorKey} {s : Option States} {l : Wires} {w : World} {op : Op}

/-- A state other than the first was stored. -/
theorem stateOf_eq {t : States} (h : stateOf s = t) (ht : t ≠ .processConnection) : s = some t := by
  cases s with
  | none => exact absurd h.symm ht
  | some s => exact congrArg some h

/-- In the first state nothing is stored yet. -/
theorem Allowed.none_of_first (hall : Allowed s l) (h : stateOf s = .processConnection) :
    s = none := by
  cases hall with
  | reply hs => rcases hs with rfl | rfl <;> cases h
  | relay hs => rcases hs with rfl | rfl <;> cases h
  | fresh => rfl
  | resolving | connecting | attemptFailed _ _ | awaiting | unconnected _ | greeting _
    | greetingLost | greetingNever _ | command _ | forward => cases h

/-- Every handler an event can run keeps to `Trans`. -/
theorem handler_controlled {h : World → Except Fault (States × World)} (hall : Allowed s l)
    (hd : Dispatched w key.data s l key.fd op) (hsnd : Sound w) (hw : Wired w key.data l)
    (hh : handlerOf io key op (stateOf s) = some h) : Controlled io key (stateOf s) l w (h w) := by
  cases hall with
  | fresh =>
    cases op <;> cases hh
    cases hd with
    | client hfd _ => exact processConnection_controlled hsnd hw hfd
    | origin _ ho _ => cases ho
  | resolving =>
    cases op <;> cases hh
    cases hd with
    | client _ h => cases h
    | origin _ ho _ => cases ho
    | block hfd _ => exact resolvConnection_controlled hsnd hw hfd
  | connecting =>
    cases op <;> cases hh
    cases hd with
    | client _ h => cases h
    | origin hfd _ _ => exact establConnection_controlled_origin hsnd hw hfd
  | attemptFailed hi ho =>
    cases op <;> cases hh
    cases hd with
    | client hfd _ =>
      exact establConnection_controlled_client hsnd hw
        (fun j => by rcases ho with rfl | rfl <;> simp) hfd
    | origin _ ho' _ => rcases ho with rfl | rfl <;> cases ho'
  | awaiting =>
    cases op <;> cases hh
    exact greetingSread_controlled hsnd hw
  | unconnected ho =>
    cases op <;> cases hh
    exact greetingSread_controlled hsnd hw
  | greeting ho =>
    cases op <;> cases hh
    cases hd with
    | client hfd _ => exact greetingCwrite_controlled hsnd hw hfd
    | origin _ ho' h =>
      rcases ho with (rfl | rfl) | rfl <;> cases ho'
      cases h
  | greetingLost =>
    cases op <;> cases hh
    cases hd with
    | client _ h => cases h
    | origin _ ho' h =>
      cases ho'
      cases h
  | greetingNever ho =>
    cases op <;> cases hh
    cases hd with
    | client _ h => cases h
    | origin _ ho' h => rcases ho with rfl | rfl <;> cases ho'
  | command ho =>
    cases op <;> cases hh
    cases hd with
    | client hfd _ => exact commandCread_controlled hsnd hw hfd
    | origin _ ho' h =>
      rcases ho with (rfl | rfl) | rfl <;> cases ho'
      cases h
  | forward =>
    cases op <;> cases hh
    cases hd with
    | client _ h => cases h
    | origin hfd _ _ => exact commandSwrite_controlled hsnd hw hfd
  | reply hs =>
    rcases hs with rfl | rfl
    · cases op <;> cases hh
      exact responseSread_controlled hsnd hw
    · cases op <;> cases hh
      exact dotDataSread_controlled hsnd hw
  | relay hs =>
    rcases hs with rfl | rfl
    · cases op <;> cases hh
      cases hd with
      | client hfd _ => exact responseCwrite_controlled hsnd hw hfd
      | origin _ ho' h =>
        cases ho'
        cases h
    · cases op <;> cases hh
      exact dotDataCwrite_controlled hsnd hw

/-- **The table is kept** by every transition an event can make. -/
theorem Allowed.step {next : States} {l' : Wires} (hall : Allowed s l)
    (hd : Dispatched w key.data s l key.fd op) (hsome : (handlerOf io key op (stateOf s)).isSome)
    (ht : Trans io key.data w (stateOf s) l next l') : next = .error ∨ Allowed (some next) l' := by
  -- row by row; a transition out of another state than that of the row is impossible
  cases hall with
  | fresh =>
    cases ht with
    | attempt _ h =>
      right
      cases h with
      | started _ => exact .connecting
      | refused _ _ => exact .attemptFailed (.inr rfl) (.inl rfl)
      | unregistered _ => exact .attemptFailed (.inl rfl) (.inl rfl)
      | leaked _ => exact .attemptFailed (.inr rfl) (.inr rfl)
    | noResolver _ => exact .inr (.greeting (.inl (.inl rfl)))
    | resolving _ => exact .inr .resolving
    | replyRead hs _ => simp [stateOf] at hs
    | replyPart hs => simp [stateOf] at hs
    | failed _ _ => exact .inl rfl
  | resolving =>
    cases ht with
    | attempt _ h =>
      right
      cases h with
      | started _ => exact .connecting
      | refused _ _ => exact .attemptFailed (.inl rfl) (.inl rfl)
      | unregistered _ => exact .attemptFailed (.inl rfl) (.inl rfl)
      | leaked _ => exact .attemptFailed (.inl rfl) (.inr rfl)
    | replyRead hs _ => simp [stateOf] at hs
    | replyPart hs => simp [stateOf] at hs
    | failed _ _ => exact .inl rfl
  | connecting =>
    cases ht with
    | established => exact .inr .awaiting
    | unconnected h => exact absurd rfl (h _)
    | replyRead hs _ => simp [stateOf] at hs
    | replyPart hs => simp [stateOf] at hs
    | failed _ _ => exact .inl rfl
  | attemptFailed hi ho =>
    cases ht with
    | attempt hs _ => simp [stateOf, States.Attempts] at hs
    | established => rcases ho with h | h <;> cases h
    | unconnected _ => exact .inr (.unconnected ho)
    | replyRead hs _ => simp [stateOf] at hs
    | replyPart hs => simp [stateOf] at hs
    | failed _ _ => exact .inl rfl
  | awaiting =>
    cases ht with
    | greetingRead => exact .inr (.greeting (.inr rfl))
    | greetingAgain => exact .inr .awaiting
    | greetingLost _ => exact .inr .greetingLost
    | replyRead hs _ => simp [stateOf] at hs
    | replyPart hs => simp [stateOf] at hs
    | failed _ _ => exact .inl rfl
  | unconnected ho =>
    cases ht with
    | attempt hs _ => simp [stateOf, States.Attempts] at hs
    | greetingRead =>
      refine .inr (.greeting (.inl ?_))
      rcases ho with rfl | rfl
      · exact .inl rfl
      · exact .inr rfl
    | greetingAgain => exact .inr (.unconnected ho)
    | greetingLost _ => exact .inr (.greetingNever ho)
    | replyRead hs _ => simp [stateOf] at hs
    | replyPart hs => simp [stateOf] at hs
    | failed _ _ => exact .inl rfl
  | greeting ho =>
    cases ht with
    | attempt hs _ => simp [stateOf, States.Attempts] at hs
    | greetingPart => exact .inr (.greeting ho)
    | greetingSent => exact .inr (.command ho)
    | replyRead hs _ => simp [stateOf] at hs
    | replyPart hs => simp [stateOf] at hs
    | failed _ _ => exact .inl rfl
  | greetingLost =>
    -- a write would go on, but neither descriptor waits for one
    cases op with
    | read => cases hsome
    | block => cases hsome
    | write =>
      cases hd with
      | client _ h => cases h
      | origin _ ho h =>
        cases ho
        cases h
  | greetingNever ho =>
    cases op with
    | read => cases hsome
    | block => cases hsome
    | write =>
      cases hd with
      | client _ h => cases h
      | origin _ ho' h => rcases ho with rfl | rfl <;> cases ho'
  | command ho =>
    cases ht with
    | attempt hs _ => simp [stateOf, States.Attempts] at hs
    | commandPart => exact .inr (.command ho)
    | commandRead => exact .inr .forward
    | replyRead hs _ => simp [stateOf] at hs
    | replyPart hs => simp [stateOf] at hs
    | failed _ _ => exact .inl rfl
  | forward =>
    cases ht with
    | forwardPart => exact .inr .forward
    | forwardSent => exact .inr (.reply (.inl rfl))
    | replyRead hs _ => simp [stateOf] at hs
    | replyPart hs => simp [stateOf] at hs
    | failed _ _ => exact .inl rfl
  | reply hs =>
    rcases hs with rfl | rfl
    all_goals
      cases ht with
      | replyRead _ hn => exact .inr (.relay hn)
      | replyPart hs => simp [stateOf] at hs
      | failed _ _ => exact .inl rfl
  | relay hs =>
    rcases hs with rfl | rfl
    · cases ht with
      | replyRead hs _ => simp [stateOf] at hs
      | replyPart _ => exact .inr (.relay (.inl rfl))
      | replySent => exact .inr (.command (.inr rfl))
      | failed _ _ => exact .inl rfl
    · cases ht with
      | replyRead hs _ => simp [stateOf] at hs
      | replyPart _ => exact .inr (.relay (.inr rfl))
      | dataSent => exact .inr (.reply (.inr rfl))
      | failed _ _ => exact .inl rfl

/-! ## One event -/

/-- The connection `a` went on, to the state `next` and the wires `l`. -/
structure Moved (a : Addr) (next : States) (l : Wires) (threads : List SelectorKey)
    (w w' : World) : Prop where
  frame : Frame a w w'
  sound : Sound w'
  wired : Wired w' a l
  clientFd : (w'.heap a).clientFd = (w.heap a).clientFd
  current : (w'.heap a).current = some next.num
  pool : w'.pool = w.pool
  allocated : w'.allocated = w.allocated
  resolvers : w'.resolvers = w.resolvers ++ threads

/-- Changing the data and the state of the connection. -/
theorem Moves.conclude {a : Addr} {ts : List SelectorKey} {w w' : World} (hm : Moves a l ts w w')
    (next : States) :
    Moved a next l ts w (w'.modify a fun c => { c with current := some next.num }) where
  frame := hm.frame.trans ⟨fun b hb => Function.update_of_ne hb _ _, fun _ _ _ => Iff.rfl,
    fun _ h h' => ⟨h, h'⟩, rfl, rfl, rfl⟩
  sound := ⟨hm.sound.wf, hm.sound.isOpen⟩
  wired :=
    { client := by simpa [World.modify] using hm.wired.client
      origin := by
        have := hm.wired.origin
        cases ho : l.origin <;> simpa [OriginIs, World.modify, ho] using this
      only := by simpa [World.modify] using hm.wired.only
      references := by simpa [World.modify] using hm.wired.references }
  clientFd := by simpa [World.modify] using hm.clientFd
  current := by simp [World.modify]
  pool := hm.pool
  allocated := hm.allocated
  resolvers := hm.resolvers

/-- Entering a state changes the data of the connection only. -/
theorem moves_arrival {w' : World} (hsnd : Sound w) (hw : Wired w key.data l) (s : States)
    (h : arrival key s w = .ok w') : Moves key.data l [] w w' := by
  have hok : ∀ {f : Pop3 → Pop3}, Except.ok (ε := Fault) (w.modify key.data f) = .ok w' →
      (∀ c, (f c).clientFd = c.clientFd ∧ (f c).originFd = c.originFd ∧
        (f c).references = c.references ∧ (f c).current = c.current) →
      Moves key.data l [] w w' := by
    intro f heq hf
    simp only [Except.ok.injEq] at heq
    subst heq
    exact moves_modify hsnd hw (hf _).1 (hf _).2.1 (hf _).2.2.1 (hf _).2.2.2
  have hid : Except.ok (ε := Fault) w = .ok w' → Moves key.data l [] w w' := by
    intro heq
    simp only [Except.ok.injEq] at heq
    subst heq
    exact .refl hsnd hw
  cases s with
  | processConnection => exact hok h fun _ => ⟨rfl, rfl, rfl, rfl⟩
  | establConnection =>
    obtain ⟨_, -, h⟩ := bind_eq_ok.mp h
    exact hid h
  | greetingSread =>
    obtain ⟨_, -, h⟩ := bind_eq_ok.mp h
    exact hok h fun _ => ⟨rfl, rfl, rfl, rfl⟩
  | commandCread => exact hok h fun _ => ⟨rfl, rfl, rfl, rfl⟩
  | responseSread => exact hok h fun _ => ⟨rfl, rfl, rfl, rfl⟩
  | dotDataSread =>
    obtain ⟨_, -, h⟩ := bind_eq_ok.mp h
    exact hok h fun _ => ⟨rfl, rfl, rfl, rfl⟩
  | pipeDream => exact hok h fun _ => ⟨rfl, rfl, rfl, rfl⟩
  | resolvConnection | greetingCwrite | commandSwrite | dotDataCwrite | responseCwrite | update
    | error => exact hid h

/-- Entering a state is nothing to the descriptors. -/
theorem moves_enter {ts : List SelectorKey} {w₁ w₂ : World} (hm : Moves key.data l ts w w₁)
    (s next : States) (h : enter key s next w₁ = .ok w₂) : Moves key.data l ts w w₂ := by
  rw [enter] at h
  split_ifs at h
  · simp only [Except.ok.injEq] at h
    subst h
    exact hm
  · exact hm.andThen (moves_arrival hm.sound hm.wired next h)

/-- Only the first event changes the struct before its handler runs, and the
handler it runs looks at the descriptors the kernel has open. -/
theorem Trans.of_first {f : Pop3 → Pop3} {next : States} {l' : Wires}
    (ht : Trans io key.data (w.modify key.data f) .processConnection l next l') :
    Trans io key.data w .processConnection l next l' := by
  cases ht with
  | attempt hs h =>
    refine .attempt hs ?_
    cases h with
    | started h => exact .started h
    | refused h h' => exact .refused h h'
    | unregistered h => exact .unregistered h
    | leaked h => exact .leaked h
  | noResolver h => exact .noResolver h
  | resolving h => exact .resolving h
  | replyRead hs _ => simp at hs
  | replyPart hs => simp at hs
  | failed hs h => exact .failed hs h

/-- The world a handler starts from. -/
def firstWorld (key : SelectorKey) (s : Option States) (w : World) : World :=
  match s with
  | none => w.modify key.data fun c => { c with origin := .connecting w.currOriginServer }
  | some _ => w

/-- **The top level handler** runs the handler of the state, after the first entering. -/
theorem suscription_eq_runHandler (op : Op) (hcur : (w.heap key.data).current = s.map States.num) :
    op.suscription io key w = runHandler op io key (stateOf s) (firstWorld key s w) := by
  cases s with
  | none => exact suscription_none op hcur
  | some s => exact suscription_some op hcur

/-- The first entering is nothing to the descriptors. -/
theorem moves_firstWorld (hsnd : Sound w) (hw : Wired w key.data l) (s : Option States) :
    Moves key.data l [] w (firstWorld key s w) := by
  cases s with
  | none =>
    exact moves_modify hsnd hw (f := fun c => { c with origin := .connecting w.currOriginServer })
      rfl rfl rfl rfl
  | some s => exact .refl hsnd hw

/-- Nor is it to what the selector dispatches. -/
theorem Dispatched.firstWorld {fd : Int} (h : Dispatched w key.data s l fd op) :
    Dispatched (firstWorld key s w) key.data s l fd op := by
  have hfds : ((Pop3Proxy.firstWorld key s w).heap key.data).clientFd = (w.heap key.data).clientFd ∧
      ((Pop3Proxy.firstWorld key s w).heap key.data).originFd = (w.heap key.data).originFd := by
    cases s <;> simp [Pop3Proxy.firstWorld, World.modify]
  cases h with
  | client hfd h => exact .client (hfd.trans hfds.1.symm) h
  | origin hfd ho h => exact .origin (hfd.trans hfds.2.symm) ho h
  | block hfd hs => exact .block (hfd.trans hfds.1.symm) hs

/-- So what the handler does is done from the stored state. -/
theorem Trans.of_firstWorld {next : States} {l' : Wires}
    (ht : Trans io key.data (firstWorld key s w) (stateOf s) l next l') :
    Trans io key.data w (stateOf s) l next l' := by
  cases s with
  | none =>
    exact Trans.of_first (f := fun c => { c with origin := .connecting w.currOriginServer }) ht
  | some s => exact ht

/-- **One event of a connection**, whatever the system calls return, piece by
piece: the handler, the next state's `on_arrival`, and the end of the connection
or a transition. -/
theorem suscription_ran {w' : World} (hall : Allowed s l)
    (hd : Dispatched w key.data s l key.fd op) (hsnd : Sound w) (hw : Wired w key.data l)
    (hcur : (w.heap key.data).current = s.map States.num)
    (h : op.suscription io key w = .ok w') :
    ∃ f next w₁ w₂, handlerOf io key op (stateOf s) = some f ∧
      f (firstWorld key s w) = .ok (next, w₁) ∧ enter key (stateOf s) next w₁ = .ok w₂ ∧
      conclude key next w₂ = .ok w' ∧
      (next = .error ∧ Finished key.data w w' ∨
        next ≠ .error ∧ next ≠ .update ∧
          ∃ l', Trans io key.data w (stateOf s) l next l' ∧ Allowed (some next) l' ∧
            (s = none → FirstGoes io w.currOriginServer next) ∧ Moved key.data next l'
              (if next = .resolvConnection ∧ io.pthreadCreate = 0 then [key] else []) w w') := by
  rw [suscription_eq_runHandler op hcur, runHandler] at h
  have h₀ := moves_firstWorld hsnd hw s
  cases hh : handlerOf io key op (stateOf s) with
  | none => simp [hh] at h
  | some f =>
    simp only [hh] at h
    -- the arrival on the first event touches no descriptor, so the handler starts from the same
    -- wires
    obtain ⟨⟨next, w₁⟩, hf, h⟩ := bind_eq_ok.mp h
    obtain ⟨w₂, hent, h⟩ := bind_eq_ok.mp h
    refine ⟨f, next, w₁, w₂, rfl, hf, hent, h, ?_⟩
    obtain ⟨l', ht, hm⟩ :=
      handler_controlled hall hd.firstWorld h₀.sound h₀.wired hh next w₁ hf
    have hdone := (moves_enter (h₀.trans hm) _ _ hent).conclude next
    rw [List.nil_append] at hdone
    have hallowed := hall.step hd (by rw [hh]; rfl) ht.of_firstWorld
    rw [Pop3Proxy.conclude] at h
    simp only at h
    by_cases herr : next = .error
    · rw [if_pos (.inl herr)] at h
      refine .inl ⟨herr, ?_⟩
      -- with a leaked origin the program aborts, so it has not
      by_cases hleak : l'.origin = .leaked
      · rw [finishedSuscription_leaked hdone.sound hdone.wired hleak] at h
        exact absurd h (by simp)
      · obtain ⟨w₃, h₃, hfin⟩ := finishedSuscription_ok hdone.sound hdone.wired hleak
        rw [h₃, Except.ok.injEq] at h
        subst h
        exact
          { frame := hdone.frame.trans hfin.frame
            sound := hfin.sound
            gone := hfin.gone
            pool := by simpa only [hdone.pool, hdone.allocated] using hfin.pool
            resolvers := by
              rw [hfin.resolvers, hdone.resolvers, herr]
              simp }
    · have hall' := hallowed.resolve_left herr
      have hupd : next ≠ .update := by
        rintro rfl
        cases hall' with
        | reply hs => simp at hs
        | relay hs => simp at hs
      rw [if_neg (by simp [herr, hupd]), Except.ok.injEq] at h
      subst h
      refine .inr ⟨herr, hupd, l', ht.of_firstWorld, hall', ?_, hdone⟩
      rintro rfl
      cases op <;> cases hh
      exact processConnection_goes _ (by simp [Pop3Proxy.firstWorld, World.modify]) hf

/-- **One event of a connection**: its end, or a transition. -/
theorem suscription_step {w' : World} (hall : Allowed s l)
    (hd : Dispatched w key.data s l key.fd op) (hsnd : Sound w) (hw : Wired w key.data l)
    (hcur : (w.heap key.data).current = s.map States.num)
    (h : op.suscription io key w = .ok w') :
    Finished key.data w w' ∨
      ∃ next l', Trans io key.data w (stateOf s) l next l' ∧ Allowed (some next) l' ∧
        (s = none → FirstGoes io w.currOriginServer next) ∧ Moved key.data next l'
          (if next = .resolvConnection ∧ io.pthreadCreate = 0 then [key] else []) w w' := by
  obtain ⟨f, next, w₁, w₂, -, -, -, -, ⟨-, hfin⟩ | ⟨-, -, hres⟩⟩ :=
    suscription_ran hall hd hsnd hw hcur h
  · exact .inl hfin
  · exact .inr ⟨next, hres⟩

end

end Pop3Proxy
