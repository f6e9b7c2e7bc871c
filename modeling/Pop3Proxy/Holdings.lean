/-
# What the proxy holds open, and for whom

The history of a run records the pipes opened for the reply of each connection,
until the reply is finished.  Everything open is the listening socket, a socket
of a connection that is not finished, or a pipe of a reply in progress, exactly
as long as no reply that has pipes is finished.
-/
import Pop3Proxy.Runs
import Pop3Proxy.Descriptors

namespace Pop3Proxy

/-! ## The pipes of a reply -/

/-- The states between the first chunk of a reply and its end. -/
def States.InReply (s : States) : Prop :=
  s = .responseCwrite ∨ s = .dotDataCwrite ∨ s = .dotDataSread

/-- The connection `a` is in the middle of a reply. -/
def replying (w : World) (a : Addr) : Bool :=
  (w.sel.item (w.heap a).clientFd).any (fun it => decide (Owns a it)) &&
    [States.responseCwrite, .dotDataCwrite, .dotDataSread].any fun s =>
      (w.heap a).current = some s.num

/-- What an event does to the pipes of a connection. -/
inductive PipeUse where
  /-- these were opened for its reply -/
  | opened (a : Addr) (fds : List Int)
  /-- it is in no reply any more -/
  | ended (a : Addr)
  deriving DecidableEq, Repr

/-- What an event shows of the pipes. -/
def Proxy.showsPipes (p : Proxy) (e : Event) (p' : Proxy) : List PipeUse :=
  match p.call e with
  | some c =>
    match c.handler with
    | .passive => []
    | .suscriptions =>
      if replying p'.world c.key.data then
        [.opened c.key.data (newPipes c.io p.world p'.world)]
      else [.ended c.key.data]
  | none => []

/-- The pipes after something happened to them. -/
def PipeUse.after (a : Addr) (fds : List Int) : PipeUse → List Int
  | opened b new => if b = a then fds ++ new else fds
  | ended b => if b = a then [] else fds

/-- The ends of the pipes opened for the reply in progress of the connection `a`. -/
def held (a : Addr) (t : List PipeUse) : List Int := t.foldl (PipeUse.after a) []

/-- What an open descriptor can be there for. -/
inductive Holder where
  | listening
  /-- a connection that is not finished -/
  | connection (a : Addr)
  /-- the transformation of the reply in progress of a connection -/
  | reply (a : Addr)

/-- The descriptors each of them holds. -/
def HeldBy (server : Int) (w : World) (t : List PipeUse) : Holder → Int → Prop
  | .listening, fd => fd = server
  | .connection a, fd => Live w a ∧ SocketOf w a fd
  | .reply a, fd => fd ∈ held a t

/-- The call finishes the reply of `c`: the client takes the last of it, or one
of the two sockets fails. -/
def EndsReply (io : Io) (c : Pop3) : States → Prop
  | .responseCwrite => ∀ n, io.send = some n →
      c.relayBuffer.write ≤ c.relayBuffer.read + (c.relayBuffer.contents.take n).length
  | .dotDataCwrite => io.send = none
  | .dotDataSread => ∀ b bs,
      upTo io.recv (c.writeBuffer.limit - c.writeBuffer.write) ≠ some (b :: bs)
  | _ => False

/-- The event finishes a reply that pipes were opened for. -/
def LeaksPipes (p : Proxy) (t : List PipeUse) (e : Event) : Prop :=
  ∃ c s, p.call e = some c ∧ c.handler = .suscriptions ∧ held c.key.data t ≠ [] ∧
    (p.world.heap c.key.data).current = some (States.num s) ∧
    EndsReply c.io (p.world.heap c.key.data) s

section
variable {server : Int} {w w' : World} {a b : Addr} {t : List PipeUse} {io : Io} {key : SelectorKey}

theorem held_snoc (t : List PipeUse) (u : PipeUse) (a : Addr) :
    held a (t ++ [u]) = u.after a (held a t) := by
  rw [held, List.foldl_append]
  rfl

theorem replying_iff {pending : List Int} (h : WorldInv w pending) (a : Addr) :
    replying w a = true ↔ Live w a ∧ ∃ s : States, s.InReply ∧
      (w.heap a).current = some s.num := by
  rw [replying, Bool.and_eq_true, Option.any_eq_true]
  constructor
  · rintro ⟨⟨it, hit, hown⟩, hs⟩
    refine ⟨⟨_, it, hit, by simpa using hown⟩, ?_⟩
    simp only [List.any_cons, List.any_nil, Bool.or_false, Bool.or_eq_true, decide_eq_true_eq] at hs
    rcases hs with hs | hs | hs
    · exact ⟨_, .inl rfl, hs⟩
    · exact ⟨_, .inr (.inl rfl), hs⟩
    · exact ⟨_, .inr (.inr rfl), hs⟩
  · rintro ⟨hl, s, hs, hcur⟩
    obtain ⟨st, l, hc⟩ := h.connected a hl
    refine ⟨⟨_, hc.wired.client, by simp [Owns]⟩, ?_⟩
    rcases hs with rfl | rfl | rfl <;> simp [hcur]

/-! ## The end of a reply -/

theorem bufferCanRead_readAdv {b b' : Buffer} {n : ℕ} (h : bufferReadAdv b n = .ok b') :
    bufferCanRead b' = true ↔ b.read + n < b.write := by
  unfold bufferReadAdv at h
  rw [if_pos (by omega)] at h
  rw [Int.toNat_natCast] at h
  split_ifs at h with hle heq
  · simp only [Except.ok.injEq] at h
    subst h
    have hfalse : ¬ b.read + n < b.write := by omega
    simp only [hfalse, iff_false, Bool.not_eq_true]
    unfold bufferCompact bufferCanRead
    split_ifs with h1 <;> simp_all [bufferReset]
  · simp only [Except.ok.injEq] at h
    subst h
    simp [bufferCanRead]

/-- Where `relay` goes on. -/
theorem relay_goes {stay next : States} {drained : World → States × World}
    (h : relay stay drained io key w = .ok (next, w')) :
    (io.send = none ∧ next = .error) ∨
      ∃ n, io.send = some n ∧
        ((w.heap key.data).relayBuffer.read +
            ((w.heap key.data).relayBuffer.contents.take n).length <
          (w.heap key.data).relayBuffer.write ∧ next = stay ∨
        ¬ (w.heap key.data).relayBuffer.read +
            ((w.heap key.data).relayBuffer.contents.take n).length <
          (w.heap key.data).relayBuffer.write ∧ ∃ w₁, SameFds w w₁ ∧ next = (drained w₁).1) := by
  unfold relay at h
  obtain ⟨⟨p, m⟩, -, h⟩ := bind_eq_ok.mp h
  obtain ⟨bytes, hbytes, h⟩ := bind_eq_ok.mp h
  replace hbytes : bufferReadPtr (w.heap key.data).relayBuffer = .ok bytes := hbytes
  have hcontents : bytes = (w.heap key.data).relayBuffer.contents := by
    unfold bufferReadPtr at hbytes
    split_ifs at hbytes
    exact (Except.ok.inj hbytes).symm
  subst hcontents
  cases hsend : io.send with
  | none =>
    left
    simp only [hsend, taken, Option.map_none, Except.ok.injEq, Prod.mk.injEq] at h
    exact ⟨rfl, h.1.symm⟩
  | some n =>
    right
    refine ⟨n, rfl, ?_⟩
    simp only [hsend, taken, Option.map_some] at h
    obtain ⟨b, hb, h⟩ := bind_eq_ok.mp h
    have hcan := bufferCanRead_readAdv hb
    replace hcan : bufferCanRead b = true ↔ (w.heap key.data).relayBuffer.read +
      ((w.heap key.data).relayBuffer.contents.take n).length <
        (w.heap key.data).relayBuffer.write := hcan
    rw [← hcan]
    split_ifs at h with hr
    · simp only [Except.ok.injEq, Prod.mk.injEq] at h
      exact .inl ⟨hr, h.1.symm⟩
    · refine .inr ⟨hr, _, ?_, (congrArg Prod.fst (Except.ok.inj h)).symm⟩
      exact (SameFds.emit w _).trans (.modify _ _ fun c => by split_ifs <;> exact ⟨rfl, rfl⟩)

/-- **A reply goes on** unless the event finishes it. -/
theorem reply_goes {s next : States} {l : Wires} {op : Op}
    {f : World → Except Fault (States × World)} (hh : handlerOf io key op s = some f)
    (hs : s.InReply) (hw : Wired w key.data l) (horigin : ∃ i, l.origin = .armed i)
    (h : f w = .ok (next, w')) :
    next.InReply ↔ ¬ EndsReply io (w.heap key.data) s := by
  rcases hs with rfl | rfl | rfl
  -- in `RESPONSE_CWRITE` the reply is over once everything is sent
  · cases op <;> cases hh
    rcases relay_goes h with ⟨hsend, rfl⟩ | ⟨n, hsend, ⟨hlt, rfl⟩ | ⟨hlt, w₁, -, hnext⟩⟩
    · simp [States.InReply, EndsReply, hsend]
    · simp only [States.InReply, EndsReply, hsend, true_or, Option.some.injEq, forall_eq', true_iff]
      omega
    · have hne : ¬ next.InReply := by
        rw [hnext, World.armed]
        simp only
        split_ifs <;> simp [States.InReply]
      simp only [hne, EndsReply, hsend, Option.some.injEq, forall_eq', false_iff, not_not]
      omega
  -- in `DOT_DATA_CWRITE` it goes on as long as `send` does not fail
  · cases op <;> cases hh
    rcases relay_goes h with ⟨hsend, rfl⟩ | ⟨n, hsend, ⟨hlt, rfl⟩ | ⟨hlt, w₁, hw₁, hnext⟩⟩
    · simp [States.InReply, EndsReply, hsend]
    · simp [States.InReply, EndsReply, hsend]
    · obtain ⟨i, hi⟩ := horigin
      have ho := hw.origin
      simp only [OriginIs, hi] at ho
      have hst : ((w₁.setInterest (w₁.heap key.data).clientFd OP_NOOP).2.setInterest
          (w₁.heap key.data).originFd OP_READ).1 = .success := by
        rw [World.setInterest, FdSelector.setInterest_status, (SameFds.setInterest w₁ _ _).item,
          hw₁.originFd, hw₁.item, ho.2]
        rfl
      have hgo : next = .dotDataSread := by
        rw [hnext, World.toOrigin, World.handOver, World.armed]
        simp only [hst, if_true]
      simp [hgo, States.InReply, EndsReply, hsend]
  -- in `DOT_DATA_SREAD` it goes on as long as something is received
  · cases op <;> cases hh
    unfold dotDataSread at h
    obtain ⟨_, -, h⟩ := bind_eq_ok.mp h
    obtain ⟨count, hcount, h⟩ := bind_eq_ok.mp h
    have hroom :
      count = (w.heap key.data).writeBuffer.limit - (w.heap key.data).writeBuffer.write := by
      unfold bufferWritePtr at hcount
      split_ifs at hcount
      exact (Except.ok.inj hcount).symm
    subst hroom
    split at h
    · rename_i b bs hrecv
      obtain ⟨wb, -, h⟩ := bind_eq_ok.mp h
      obtain ⟨w₁, hw₁, h⟩ := bind_eq_ok.mp h
      have hmod : SameFds w (w.modify key.data fun c => { c with writeBuffer := wb }) :=
        .modify w key.data fun _ => ⟨rfl, rfl⟩
      have hsame : SameFds w w₁ := by
        split_ifs at hw₁
        · exact hmod.trans (continueFilter_sameFds hw₁)
        · simp only [Except.ok.injEq] at hw₁
          subst hw₁
          exact hmod
      have hreg : (w₁.sel.item (w₁.heap key.data).clientFd).isSome := by
        rw [hsame.item, hsame.clientFd, hw.client]
        rfl
      have hnext := toClient_fst hreg
        (if io.junk = .finishedConsuming then States.responseCwrite else .dotDataCwrite)
      rw [Except.ok.inj h] at hnext
      simp only at hnext
      have hin : next.InReply := by
        rw [hnext]
        split_ifs <;> simp [States.InReply]
      simp [hin, EndsReply, hrecv]
    · rename_i hnone
      simp only [Except.ok.injEq, Prod.mk.injEq] at h
      rw [← h.1]
      simp only [States.InReply, EndsReply]
      simpa using hnone

/-! ## One event of a connection -/

/-- What a handler opens, and in which states. -/
inductive HandlerFds (io : Io) (a : Addr) (s next : States) (w w' : World) : Prop where
  | same (h : SameFds w w')
  | piped (hs : s = .responseSread) (hn : next.Replies) (h : OpensPipes io w w')
  | attempted (hs : s.Attempts) (hn : next = .establConnection) (h : OpensOrigin a w w')

theorem HandlerFds.before {s next : States} {w₀ : World} (h : HandlerFds io a s next w w')
    (h₀ : SameFds w₀ w) : HandlerFds io a s next w₀ w' := by
  cases h with
  | same h => exact .same (h₀.trans h)
  | piped hs hn h => exact .piped hs hn (h.before h₀)
  | attempted hs hn h => exact .attempted hs hn (h.before h₀)

theorem HandlerFds.after {s next : States} {w'' : World} (h : HandlerFds io a s next w w')
    (h' : SameFds w' w'') : HandlerFds io a s next w w'' := by
  cases h with
  | same h => exact .same (h.trans h')
  | piped hs hn h => exact .piped hs hn (h.after h')
  | attempted hs hn h => exact .attempted hs hn (h.after h')

/-- **Every handler** is of one of the three kinds. -/
theorem handler_fds {op : Op} {s next : States} {f : World → Except Fault (States × World)}
    {l : Wires} (hw : Wired w key.data l) (hh : handlerOf io key op s = some f)
    (h : f w = .ok (next, w')) : HandlerFds io key.data s next w w' := by
  by_cases hatt : s.Attempts
  · rcases attempts_fds hh hatt h with ⟨hsame, -⟩ | ⟨hnext, ho⟩
    · exact .same hsame
    · exact .attempted hatt hnext ho
  · by_cases hread : s = .responseSread
    · subst hread
      cases op <;> cases hh
      rcases responseSread_fds (by rw [hw.client]; rfl) h with hsame | ⟨hn, ho⟩
      · exact .same hsame
      · exact .piped rfl hn ho
    · exact .same (handler_keepsFds hh hatt hread next w' h)

/-- **One event of a connection**, seen from the descriptors: the connection ends
and its sockets are closed, or it goes on. -/
inductive EventFds (io : Io) (key : SelectorKey) (s : Option States) (w w' : World) : Prop where
  | ended (hfin : Finished key.data w w')
    (hclosed : ∀ fd, w'.isOpen fd = true ↔ w.isOpen fd = true ∧ ¬ SocketOf w key.data fd)
    (hreply : (stateOf s).InReply → EndsReply io (w.heap key.data) (stateOf s))
  | moved (next : States) (l' : Wires) (ts : List SelectorKey) (hm : Moved key.data next l' ts w w')
    (hfds : HandlerFds io key.data (stateOf s) next w w')
    (hreply : (stateOf s).InReply →
      (next.InReply ↔ ¬ EndsReply io (w.heap key.data) (stateOf s)))

theorem Allowed.origin_of_inReply {s : Option States} {l : Wires} (hall : Allowed s l)
    (hs : (stateOf s).InReply) : ∃ i, l.origin = .armed i := by
  cases hall with
  | fresh => simp [stateOf, States.InReply] at hs
  | reply _ | relay _ => exact ⟨_, rfl⟩
  | _ => simp [stateOf, States.InReply] at hs

theorem suscription_fds {op : Op} {s : Option States} {l : Wires}
    (hc : Connected w key.data s l) (hd : Dispatched w key.data s l key.fd op) (hsnd : Sound w)
    (h : op.suscription io key w = .ok w') : EventFds io key s w w' := by
  obtain ⟨f, next, w₁, w₂, hh, hf, hent, hconc, hres⟩ :=
    suscription_ran hc.allowed hd hsnd hc.wired hc.current h
  have hfirst : SameFds w (firstWorld key s w) := by
    cases s with
    | none =>
      show SameFds w
        (w.modify key.data fun c => { c with origin := .connecting w.currOriginServer })
      exact .modify w key.data fun _ => ⟨rfl, rfl⟩
    | some s => exact .refl w
  have hwired := (moves_firstWorld hsnd hc.wired s).wired
  have hfds := ((handler_fds hwired hh hf).before hfirst).after (enter_sameFds _ _ hent)
  -- the first event is in no reply, so the handler of a reply finds the memory as it is
  have hreply : (stateOf s).InReply →
      (next.InReply ↔ ¬ EndsReply io (w.heap key.data) (stateOf s)) := fun hs => by
    cases s with
    | none => simp [stateOf, States.InReply] at hs
    | some s => exact reply_goes hh hs hc.wired (hc.allowed.origin_of_inReply hs) hf
  rw [Pop3Proxy.conclude] at hconc
  have hcur : SameFds w₂ (w₂.modify key.data fun c => { c with current := some next.num }) :=
    .modify w₂ key.data fun _ => ⟨rfl, rfl⟩
  rcases hres with ⟨rfl, hfin⟩ | ⟨herr, hupd, l', -, -, -, hm⟩
  · refine .ended hfin ?_ fun hs => ?_
    · have hsame : SameFds w w₂ := by
        cases hfds with
        | same h => exact h
        | piped _ hn _ => simp [States.Replies] at hn
        | attempted _ hn _ => simp at hn
      have hall := hsame.trans hcur
      rw [if_pos (.inl rfl)] at hconc
      have hclient : (w.heap key.data).clientFd ≠ -1 := by
        intro heq
        have hit := hc.wired.client
        rw [heq] at hit
        simp [FdSelector.item, invalidFd] at hit
      intro fd
      rw [finishedSuscription_isOpen (by rw [hall.clientFd]; exact hclient) hconc fd,
        hall.isOpen, hall.socketOf]
    · by_contra hends
      have := (hreply hs).mpr hends
      simp [States.InReply] at this
  · rw [if_neg (by simp [herr, hupd]), Except.ok.injEq] at hconc
    subst hconc
    exact .moved next l' _ hm (hfds.after hcur) hreply

/-! ## The balance -/

/-- Every open descriptor has one holder, and what is held is open. -/
structure Balanced (server : Int) (w : World) (t : List PipeUse) : Prop where
  accounted : ∀ fd, w.isOpen fd = true ↔ ∃ o, HeldBy server w t o fd
  unique : ∀ fd o o', HeldBy server w t o fd → HeldBy server w t o' fd → o = o'

/-- **Opening**: what was closed goes to one holder. -/
theorem Balanced.opens {t' : List PipeUse} (h : Balanced server w t) (new : Int → Prop)
    (o₀ : Holder) (hnew : ∀ fd, new fd → w.isOpen fd = false)
    (hopen : ∀ fd, w'.isOpen fd = true ↔ w.isOpen fd = true ∨ new fd)
    (hheld : ∀ o fd, HeldBy server w' t' o fd ↔
      HeldBy server w t o fd ∨ (o = o₀ ∧ new fd)) : Balanced server w' t' := by
  have hclosed : ∀ {fd o}, new fd → ¬ HeldBy server w t o fd := fun hn ho => by
    have := (h.accounted _).mpr ⟨_, ho⟩
    rw [hnew _ hn] at this
    exact absurd this (by simp)
  refine ⟨fun fd => ?_, fun fd o o' ho ho' => ?_⟩
  · rw [hopen, h.accounted]
    constructor
    · rintro (⟨o, ho⟩ | hn)
      · exact ⟨o, (hheld o fd).mpr (.inl ho)⟩
      · exact ⟨o₀, (hheld o₀ fd).mpr (.inr ⟨rfl, hn⟩)⟩
    · rintro ⟨o, ho⟩
      rcases (hheld o fd).mp ho with ho | ⟨-, hn⟩
      · exact .inl ⟨o, ho⟩
      · exact .inr hn
  · rcases (hheld o fd).mp ho with ho | ⟨rfl, hn⟩ <;>
      rcases (hheld o' fd).mp ho' with ho' | ⟨rfl, hn'⟩
    · exact h.unique fd o o' ho ho'
    · exact absurd ho (hclosed hn')
    · exact absurd ho' (hclosed hn)
    · rfl

/-- Nothing is opened or closed. -/
theorem Balanced.same {t' : List PipeUse} (h : Balanced server w t) (hopen : w'.isOpen = w.isOpen)
    (hheld : ∀ o fd, HeldBy server w' t' o fd ↔ HeldBy server w t o fd) :
    Balanced server w' t' :=
  h.opens (fun _ => False) .listening (fun _ hf => hf.elim) (fun fd => by simp [hopen])
    fun o fd => by simp [hheld]

/-- **Closing**: what one holder has. -/
theorem Balanced.closes {t' : List PipeUse} (h : Balanced server w t) (o₀ : Holder)
    (hopen : ∀ fd, w'.isOpen fd = true ↔ w.isOpen fd = true ∧ ¬ HeldBy server w t o₀ fd)
    (hheld : ∀ o fd, HeldBy server w' t' o fd ↔ HeldBy server w t o fd ∧ o ≠ o₀) :
    Balanced server w' t' := by
  refine ⟨fun fd => ?_, fun fd o o' ho ho' =>
    h.unique fd o o' ((hheld o fd).mp ho).1 ((hheld o' fd).mp ho').1⟩
  rw [hopen, h.accounted]
  constructor
  · rintro ⟨⟨o, ho⟩, hnot⟩
    exact ⟨o, (hheld o fd).mpr ⟨ho, fun heq => hnot (heq ▸ ho)⟩⟩
  · rintro ⟨o, ho⟩
    obtain ⟨ho, hne⟩ := (hheld o fd).mp ho
    exact ⟨⟨o, ho⟩, fun h₀ => hne (h.unique fd o o₀ ho h₀)⟩

/-- What is kept along a run in which no reply with pipes ends. -/
structure Accounts (server : Int) (p : Proxy) (t : List PipeUse) : Prop where
  inv : ProxyInv p
  balanced : Balanced server p.world t
  unregistered : ∀ a fd, fd ∈ held a t → p.world.sel.item fd = none
  replying : ∀ a, held a t ≠ [] → replying p.world a = true

variable {p p' : Proxy}

theorem Accounts.isOpen_of_held (h : Accounts server p t) {fd : Int} (hfd : fd ∈ held a t) :
    p.world.isOpen fd = true := (h.balanced.accounted fd).mpr ⟨.reply a, hfd⟩

/-! ## The events -/

theorem heldBy_frame {t' : List PipeUse} (hf : Frame a w w')
    (hheld : ∀ b, b ≠ a → held b t' = held b t)
    {o : Holder} (ho : o ≠ .connection a) (ho' : o ≠ .reply a) (fd : Int) :
    HeldBy server w' t' o fd ↔ HeldBy server w t o fd := by
  cases o with
  | listening => exact Iff.rfl
  | connection b =>
    have hb : b ≠ a := fun heq => ho (by rw [heq])
    simp only [HeldBy, hf.live hb, SocketOf, hf.heap b hb]
  | reply b =>
    have hb : b ≠ a := fun heq => ho' (by rw [heq])
    simp only [HeldBy, hheld b hb]

/-- Nothing is opened or closed, and nobody's descriptors change. -/
theorem Accounts.same (h : Accounts server p t) (hinv : ProxyInv p')
    (hopen : p'.world.isOpen = p.world.isOpen)
    (hitem : ∀ fd, p.world.isOpen fd = true → p.world.sel.item fd = none →
      p'.world.sel.item fd = none)
    (hlive : ∀ b, Live p'.world b ↔ Live p.world b)
    (hheap : ∀ b, Live p.world b → (p'.world.heap b).clientFd = (p.world.heap b).clientFd ∧
      (p'.world.heap b).originFd = (p.world.heap b).originFd ∧
      (p'.world.heap b).current = (p.world.heap b).current) : Accounts server p' t where
  inv := hinv
  balanced := by
    refine h.balanced.same hopen fun o fd => ?_
    cases o with
    | listening | reply b => exact Iff.rfl
    | connection b =>
      simp only [HeldBy, hlive]
      refine and_congr_right fun hl => ?_
      obtain ⟨h1, h2, -⟩ := hheap b hl
      simp only [SocketOf, h1, h2]
  unregistered b fd hfd := hitem fd (h.isOpen_of_held hfd) (h.unregistered b fd hfd)
  replying b hb := by
    obtain ⟨hl, s, hs, hcur⟩ := (replying_iff h.inv.world b).mp (h.replying b hb)
    exact (replying_iff hinv.world b).mpr ⟨(hlive b).mpr hl, s, hs, by rw [(hheap b hl).2.2, hcur]⟩

/-- **An event without a call.** -/
theorem Accounts.quieted {e : Event} (h : Accounts server p t) (hc : p.call e = none) :
    Accounts server (p.quiet e) (t ++ p.showsPipes e (p.quiet e)) := by
  have hshows : p.showsPipes e (p.quiet e) = [] := by simp only [Proxy.showsPipes, hc]
  rw [hshows, List.append_nil]
  obtain ⟨hsame, hheap⟩ := quiet_links p e
  exact h.same (h.inv.quieted hc) hsame.isOpen (fun fd _ hn => by rw [hsame.item, hn]) hsame.live
    fun b _ => ⟨hsame.clientFd b, hsame.originFd b, hsame.current b⟩

/-- **An accept.** -/
theorem Accounts.accepts {e : Event} {c : Call} (h : Accounts server p t) (hc : p.call e = some c)
    (hh : c.handler = .passive) (hw' : p'.world = pop3PassiveAccept c.io p.world)
    (hinv : ProxyInv p') : Accounts server p' (t ++ p.showsPipes e p') := by
  have hshows : p.showsPipes e p' = [] := by simp only [Proxy.showsPipes, hc, hh]
  rw [hshows, List.append_nil]
  have hsound := h.inv.world.sound
  rcases pop3PassiveAccept_cases c.io hsound h.inv.world.pool with heq | ⟨a, hadm | hrej⟩
  -- nobody is accepted
  · rw [← hw'] at heq
    exact h.same hinv (by rw [heq]) (fun fd _ hn => by rw [heq, hn]) (fun b => by rw [heq])
      fun b _ => by simp [heq]
  -- a new connection: the descriptor was closed, and the struct held nothing
  · rw [← hw'] at hadm
    obtain ⟨client, hnew⟩ := hadm.new
    have hfd : (p'.world.heap a).clientFd = client := by rw [hnew]; rfl
    have hclosed := hadm.closed
    have hopened := hadm.isOpen
    rw [hfd] at hclosed hopened
    have hnone : held a t = [] := by
      by_contra hne
      exact hadm.notLive ((replying_iff h.inv.world a).mp (h.replying a hne)).1
    have hsocket : ∀ fd, SocketOf p'.world a fd ↔ fd = client := fun fd => by
      have horigin : (p'.world.heap a).originFd = -1 := by rw [hnew]; rfl
      rw [SocketOf, hfd, horigin]
      simp
    refine ⟨hinv, h.balanced.opens (fun fd => fd = client) (.connection a) ?_ ?_ ?_, ?_, ?_⟩
    · rintro fd rfl
      exact hclosed
    · intro fd
      rw [hopened]
      by_cases hf : fd = client
      · simp [hf]
      · simp [hf]
    · intro o fd
      by_cases ho : o = .connection a
      · subst ho
        have hl' : Live p'.world a := ⟨_, _, hadm.wired.client, rfl, rfl⟩
        simp [HeldBy, hadm.notLive, hl', hsocket]
      · by_cases ho' : o = .reply a
        · subst ho'
          simp [HeldBy, hnone]
        · rw [heldBy_frame hadm.frame (fun _ _ => rfl) ho ho']
          simp [ho]
    · exact fun b fd hfd => (hadm.frame.unregistered fd (h.isOpen_of_held hfd)
        (h.unregistered b fd hfd)).2
    · intro b hb
      have hne : b ≠ a := fun heq => hb (by rw [heq, hnone])
      obtain ⟨hl, s, hs, hcur⟩ := (replying_iff h.inv.world b).mp (h.replying b hb)
      exact (replying_iff hinv.world b).mpr
        ⟨(hadm.frame.live hne).mpr hl, s, hs, by rw [hadm.frame.heap b hne, hcur]⟩
  -- the struct goes back at once
  · rw [← hw'] at hrej
    refine h.same hinv hrej.isOpen (fun fd hopen hn => (hrej.frame.unregistered fd hopen hn).2)
      (fun b => ?_) fun b hl => ?_
    · by_cases hb : b = a
      · rw [hb]
        exact ⟨fun hl => absurd hl hrej.notLive', fun hl => absurd hl hrej.notLive⟩
      · exact hrej.frame.live hb
    · have hb : b ≠ a := fun heq => hrej.notLive (heq ▸ hl)
      rw [hrej.frame.heap b hb]
      exact ⟨rfl, rfl, rfl⟩

/-- What an event of a connection shows. -/
theorem showsPipes_suscription {e : Event} {c : Call} (hc : p.call e = some c)
    (hh : c.handler = .suscriptions) (p' : Proxy) :
    p.showsPipes e p' = [if replying p'.world c.key.data then
      .opened c.key.data (newPipes c.io p.world p'.world) else .ended c.key.data] := by
  simp only [Proxy.showsPipes, hc, hh]
  split_ifs <;> rfl

/-- The pipes of the others are left alone. -/
theorem held_other {e : Event} {c : Call} (hc : p.call e = some c)
    (hh : c.handler = .suscriptions) (p' : Proxy) (t : List PipeUse) {b : Addr}
    (hb : b ≠ c.key.data) : held b (t ++ p.showsPipes e p') = held b t := by
  rw [showsPipes_suscription hc hh, held_snoc]
  split_ifs <;> simp [PipeUse.after, Ne.symm hb]

theorem held_self {e : Event} {c : Call} (hc : p.call e = some c)
    (hh : c.handler = .suscriptions) (p' : Proxy) (t : List PipeUse) :
    held c.key.data (t ++ p.showsPipes e p') =
      if Pop3Proxy.replying p'.world c.key.data then
        held c.key.data t ++ newPipes c.io p.world p'.world else [] := by
  rw [showsPipes_suscription hc hh, held_snoc]
  split_ifs <;> simp [PipeUse.after]

/-- The rest of the account, after an event of the connection `a`: the others are
where they were, and what the pipes of `a` are is registered nowhere. -/
theorem Accounts.finish {t' : List PipeUse} (h : Accounts server p t) (hinv : ProxyInv p')
    (hbalanced : Balanced server p'.world t') (hf : Frame a p.world p'.world)
    (hothers : ∀ b, b ≠ a → held b t' = held b t)
    (hself : ∀ fd ∈ held a t', p'.world.sel.item fd = none)
    (hreplying : held a t' ≠ [] → Pop3Proxy.replying p'.world a = true) :
    Accounts server p' t' where
  inv := hinv
  balanced := hbalanced
  unregistered b fd hfd := by
    by_cases hb : b = a
    · exact hself fd (hb ▸ hfd)
    · rw [hothers b hb] at hfd
      exact (hf.unregistered fd (h.isOpen_of_held hfd) (h.unregistered b fd hfd)).2
  replying b hb := by
    by_cases hba : b = a
    · rw [hba]
      exact hreplying (hba ▸ hb)
    · rw [hothers b hba] at hb
      obtain ⟨hl, s, hs, hcur⟩ := (replying_iff h.inv.world b).mp (h.replying b hb)
      exact (replying_iff hinv.world b).mpr
        ⟨(hf.live hba).mpr hl, s, hs, by rw [hf.heap b hba, hcur]⟩

/-- Whether a connection that goes on is in a reply. -/
theorem replying_moved {next : States} {l : Wires} {ts : List SelectorKey}
    (hinv : ProxyInv p') (hm : Moved a next l ts w p'.world) :
    Pop3Proxy.replying p'.world a = true ↔ next.InReply := by
  rw [replying_iff hinv.world]
  constructor
  · rintro ⟨-, s, hs, hcur⟩
    rw [hm.current, Option.some.injEq] at hcur
    exact States.num_injective hcur ▸ hs
  · exact fun hs => ⟨⟨_, _, hm.wired.client, rfl, rfl⟩, next, hs, hm.current⟩

/-- No pipes are held for a connection that is in no reply. -/
theorem Accounts.held_nil (h : Accounts server p t) {s : Option States} {l : Wires}
    (hconn : Connected p.world a s l) (hs : ¬ (stateOf s).InReply) : held a t = [] := by
  by_contra hne
  obtain ⟨-, s', hs', hcur⟩ := (replying_iff h.inv.world a).mp (h.replying a hne)
  obtain rfl := hconn.state_eq hcur
  exact hs hs'

/-- The holders after an event of the connection `a`, by what the event does to
its sockets and to its pipes. -/
theorem heldBy_of_event {t' : List PipeUse} (hf : Frame a w w') (hl : Live w a) (hl' : Live w' a)
    (hothers : ∀ b, b ≠ a → held b t' = held b t) {S P : Int → Prop}
    (hsockets : ∀ fd, SocketOf w' a fd ↔ SocketOf w a fd ∨ S fd)
    (hpipes : ∀ fd, fd ∈ held a t' ↔ fd ∈ held a t ∨ P fd) (o : Holder) (fd : Int) :
    HeldBy server w' t' o fd ↔
      HeldBy server w t o fd ∨ o = .connection a ∧ S fd ∨ o = .reply a ∧ P fd := by
  by_cases ho : o = .connection a
  · subst ho
    simp [HeldBy, hl, hl', hsockets]
  · by_cases ho' : o = .reply a
    · subst ho'
      simp [HeldBy, hpipes]
    · rw [heldBy_frame hf hothers ho ho']
      simp [ho, ho']

/-- A connection that attempts to reach the origin has no descriptor for it yet. -/
theorem Allowed.absent_of_attempts {s : Option States} {l : Wires} (hall : Allowed s l)
    (hs : (stateOf s).Attempts) : l.origin = .absent := by
  rcases hs with hs | hs
  all_goals
    cases hall with
    | fresh | resolving => rfl
    | reply h | relay h => rcases h with rfl | rfl <;> simp [stateOf] at hs
    | _ => simp [stateOf] at hs

/-- A reply that holds pipes is not finished by an event that leaks none. -/
theorem Accounts.goes_on {e : Event} {c : Call} (h : Accounts server p t)
    (hc : p.call e = some c) (hh : c.handler = .suscriptions) {s : Option States} {l : Wires}
    (hconn : Connected p.world c.key.data s l) (hleak : ¬ LeaksPipes p t e)
    (hne : held c.key.data t ≠ []) : (stateOf s).InReply ∧
      ¬ EndsReply c.io (p.world.heap c.key.data) (stateOf s) := by
  have hs : (stateOf s).InReply := by
    by_contra hs
    exact hne (h.held_nil hconn hs)
  refine ⟨hs, fun hends => hleak ⟨c, stateOf s, hc, hh, hne, ?_, hends⟩⟩
  cases s with
  | none => simp [stateOf, States.InReply] at hs
  | some s => exact hconn.current

/-- **An event of a connection** that finishes no reply with pipes. -/
theorem Accounts.connection {e : Event} {c : Call} (h : Accounts server p t)
    (hc : p.call e = some c) (hh : c.handler = .suscriptions) (hinv : ProxyInv p')
    {s : Option States} {l : Wires} (hconn : Connected p.world c.key.data s l)
    (hev : EventFds c.io c.key s p.world p'.world) (hleak : ¬ LeaksPipes p t e) :
    Accounts server p' (t ++ p.showsPipes e p') := by
  have hothers : ∀ b, b ≠ c.key.data → held b (t ++ p.showsPipes e p') = held b t :=
    fun b hb => held_other hc hh p' t hb
  have hself := held_self hc hh p' t
  have hl : Live p.world c.key.data := ⟨_, _, hconn.wired.client, rfl, rfl⟩
  cases hev with
  | ended hfin hclosed hreply =>
    -- a reply with pipes would be finished
    have hnil : held c.key.data t = [] := by
      by_contra hne
      obtain ⟨hs, hends⟩ := h.goes_on hc hh hconn hleak hne
      exact hends (hreply hs)
    have hdead : ¬ Live p'.world c.key.data := fun ⟨fd, it, hit, hown⟩ => hfin.gone fd it hit hown
    have hnone : Pop3Proxy.replying p'.world c.key.data = false := by
      by_contra hne
      exact hdead ((replying_iff hinv.world _).mp (by simpa using hne)).1
    have hnil' : held c.key.data (t ++ p.showsPipes e p') = [] := by rw [hself, hnone]; rfl
    refine h.finish hinv (h.balanced.closes (.connection c.key.data) (fun fd => ?_) fun o fd => ?_)
      hfin.frame hothers (by simp [hnil']) (by simp [hnil'])
    · rw [hclosed]
      simp [HeldBy, hl]
    · by_cases ho : o = .connection c.key.data
      · subst ho
        simp [HeldBy, hdead]
      · by_cases ho' : o = .reply c.key.data
        · subst ho'
          simp [HeldBy, hnil, hnil']
        · rw [heldBy_frame hfin.frame hothers ho ho']
          simp [ho]
  | moved next l' ts hm hfds hreply =>
    have hl' : Live p'.world c.key.data := ⟨_, _, hm.wired.client, rfl, rfl⟩
    have hgoes := replying_moved hinv hm
    cases hfds with
    | same hsame =>
      have hnew : newPipes c.io p.world p'.world = [] := by
        rw [List.eq_nil_iff_forall_not_mem]
        intro fd hfd
        obtain ⟨hclosed, hopen⟩ := (mem_newPipes (hsame.opensPipes c.io)).mp hfd
        rw [hsame.isOpen, hclosed] at hopen
        exact absurd hopen (by simp)
      have hkept : held c.key.data (t ++ p.showsPipes e p') = held c.key.data t := by
        rw [hself, hnew, List.append_nil]
        split_ifs with hr
        · rfl
        · by_contra hne
          obtain ⟨hs, hends⟩ := h.goes_on hc hh hconn hleak (Ne.symm hne)
          exact hr (hgoes.mpr ((hreply hs).mpr hends))
      refine h.finish hinv (h.balanced.same hsame.isOpen fun o fd => ?_) hm.frame hothers
        (fun fd hfd => ?_) fun hne => ?_
      · rw [heldBy_of_event (S := fun _ => False) (P := fun _ => False) hm.frame hl hl'
          hothers (fun fd => by simp [hsame.socketOf]) (fun fd => by simp [hkept])]
        simp
      · rw [hkept] at hfd
        have := hsame.item fd
        rwa [h.unregistered _ fd hfd, Option.isSome_none, Option.isSome_eq_false_iff,
          Option.isNone_iff_eq_none] at this
      · rw [hkept] at hne
        obtain ⟨hs, hends⟩ := h.goes_on hc hh hconn hleak hne
        exact hgoes.mpr ((hreply hs).mpr hends)
    | piped hs hnext hopens =>
      have hnil := h.held_nil hconn (by simp [hs, States.InReply])
      have hr : Pop3Proxy.replying p'.world c.key.data = true :=
        hgoes.mpr (hnext.imp id .inl)
      have hpipes : held c.key.data (t ++ p.showsPipes e p') = newPipes c.io p.world p'.world := by
        rw [hself, if_pos hr, hnil, List.nil_append]
      have hmem : ∀ fd, fd ∈ newPipes c.io p.world p'.world ↔
          p.world.isOpen fd = false ∧ p'.world.isOpen fd = true := fun fd => mem_newPipes hopens
      have hsockets : ∀ fd, SocketOf p'.world c.key.data fd ↔ SocketOf p.world c.key.data fd :=
        fun fd => by simp only [SocketOf, hopens.clientFd, hopens.originFd]
      refine h.finish hinv (h.balanced.opens (· ∈ newPipes c.io p.world p'.world)
        (.reply c.key.data) (fun fd hfd => ((hmem fd).mp hfd).1) (fun fd => ?_) fun o fd => ?_)
        hm.frame hothers (fun fd hfd => ?_) fun _ => hr
      · rw [hmem]
        by_cases hopen : p.world.isOpen fd = true
        · simp [hopen, hopens.kept fd hopen]
        · simp [hopen]
      · rw [heldBy_of_event (S := fun _ => False)
          (P := (· ∈ newPipes c.io p.world p'.world)) hm.frame hl hl'
          hothers (fun fd => by simp [hsockets]) (fun fd => by simp [hpipes, hnil])]
        simp
      · rw [hpipes] at hfd
        have hitem := hopens.item fd
        rwa [h.inv.world.sound.item_of_closed ((hmem fd).mp hfd).1, Option.isSome_none,
          Option.isSome_eq_false_iff, Option.isNone_iff_eq_none] at hitem
    | attempted hs hnext hopens =>
      have hnil := h.held_nil hconn (by rcases hs with hs | hs <;> simp [hs, States.InReply])
      have hnil' : held c.key.data (t ++ p.showsPipes e p') = [] := by
        rw [hself, if_neg]
        rw [hgoes, hnext]
        simp [States.InReply]
      have habsent : (p.world.heap c.key.data).originFd = -1 := by
        have := hconn.wired.origin
        rwa [hconn.allowed.absent_of_attempts hs] at this
      have hnew : ∀ fd, fd = (p'.world.heap c.key.data).originFd ∧ fd ≠ -1 →
          p.world.isOpen fd = false := by
        rintro fd ⟨rfl, hfd⟩
        rcases hopens.isOpen with ⟨hno, -⟩ | ⟨-, hclosed, -⟩
        · exact absurd hno hfd
        · exact hclosed
      refine h.finish hinv (h.balanced.opens
        (fun fd => fd = (p'.world.heap c.key.data).originFd ∧ fd ≠ -1) (.connection c.key.data)
        hnew (fun fd => ?_) fun o fd => ?_) hm.frame hothers (by simp [hnil']) (by simp [hnil'])
      · rcases hopens.isOpen with ⟨hno, hopen⟩ | ⟨hpos, -, hopen⟩
        · rw [hopen, hno]
          simp
        · rw [hopen]
          by_cases hfd : fd = (p'.world.heap c.key.data).originFd
          · simp only [← hfd, Function.update_self, true_and, true_iff]
            omega
          · simp [hfd]
      · rw [heldBy_of_event
          (S := fun fd => fd = (p'.world.heap c.key.data).originFd ∧ fd ≠ -1)
          (P := fun _ => False) hm.frame hl hl' hothers
          (fun fd => by simp [SocketOf, hm.clientFd, habsent]) (fun fd => by simp [hnil, hnil'])]
        simp

/-- **The end of a reply with pipes** leaves them open, with nobody to hold them. -/
theorem Accounts.leaks {e : Event} {c : Call} (h : Accounts server p t)
    (hc : p.call e = some c) (hh : c.handler = .suscriptions) (hinv : ProxyInv p')
    {s : Option States} {l : Wires} (hconn : Connected p.world c.key.data s l)
    (hev : EventFds c.io c.key s p.world p'.world) (hne : held c.key.data t ≠ [])
    (hends : EndsReply c.io (p.world.heap c.key.data) (stateOf s)) :
    ∃ fd, p'.world.isOpen fd = true ∧ ∀ o,
    ¬ HeldBy server p'.world (t ++ p.showsPipes e p') o fd := by
  have hs : (stateOf s).InReply := by
    by_contra hs
    exact hne (h.held_nil hconn hs)
  have hothers : ∀ b, b ≠ c.key.data → held b (t ++ p.showsPipes e p') = held b t :=
    fun b hb => held_other hc hh p' t hb
  have hl : Live p.world c.key.data := ⟨_, _, hconn.wired.client, rfl, rfl⟩
  obtain ⟨fd, hfd⟩ := List.exists_mem_of_ne_nil _ hne
  have hopen := h.isOpen_of_held hfd
  have honly : ∀ o, HeldBy server p.world t o fd → o = .reply c.key.data :=
    fun o ho => h.balanced.unique fd o _ ho hfd
  have hsocket : ¬ SocketOf p.world c.key.data fd := fun hsock => by
    have := honly (.connection c.key.data) ⟨hl, hsock⟩
    exact absurd this (by simp)
  -- whichever way the reply ends, its pipes are forgotten
  have hrest : ∀ {w' : World}, Frame c.key.data p.world w' →
      held c.key.data (t ++ p.showsPipes e p') = [] →
      ¬ HeldBy server w' (t ++ p.showsPipes e p') (.connection c.key.data) fd →
      ∀ o, ¬ HeldBy server w' (t ++ p.showsPipes e p') o fd := by
    intro w' hf hnil hnot o ho
    by_cases ho₁ : o = .connection c.key.data
    · exact hnot (ho₁ ▸ ho)
    · by_cases ho₂ : o = .reply c.key.data
      · subst ho₂
        simp [HeldBy, hnil] at ho
      · exact ho₂ (honly o ((heldBy_frame hf hothers ho₁ ho₂ fd).mp ho))
  refine ⟨fd, ?_⟩
  cases hev with
  | ended hfin hclosed _ =>
    have hdead : ¬ Live p'.world c.key.data := fun ⟨fd, it, hit, hown⟩ => hfin.gone fd it hit hown
    refine ⟨(hclosed fd).mpr ⟨hopen, hsocket⟩, hrest hfin.frame ?_ fun hheld => hdead hheld.1⟩
    rw [held_self hc hh, if_neg]
    exact fun hr => hdead ((replying_iff hinv.world _).mp hr).1
  | moved next l' ts hm hfds hreply =>
    have hnot : ¬ next.InReply := fun hn => (hreply hs).mp hn hends
    have hsame : SameFds p.world p'.world := by
      cases hfds with
      | same hsame => exact hsame
      | piped hs' _ _ => simp [hs', States.InReply] at hs
      | attempted hs' _ _ => rcases hs' with hs' | hs' <;> simp [hs', States.InReply] at hs
    refine ⟨by rw [hsame.isOpen, hopen], hrest hm.frame ?_ fun hheld => ?_⟩
    · rw [held_self hc hh, if_neg]
      rwa [replying_moved hinv hm]
    · exact hsocket ((hsame.socketOf _ _).mp hheld.2)

/-! ## Runs -/

/-- Which connection an event is for, and what it does to the descriptors. -/
theorem Accounts.call_cases {e : Event} {c : Call} {w' : World} (h : Accounts server p t)
    (hc : p.call e = some c) (hrun : c.run p.world = .ok w') :
    c.handler = .passive ∧ w' = pop3PassiveAccept c.io p.world ∨
      c.handler = .suscriptions ∧ ∃ s l, Connected p.world c.key.data s l ∧
        EventFds c.io c.key s p.world w' := by
  obtain ⟨it, hit, hdata, hhandler, hsite⟩ := h.inv.call_spec hc
  have hw := h.inv.world
  cases hh : it.handler with
  | passive =>
    rw [Call.run_passive hw hit hhandler hsite.op hh, Except.ok.injEq] at hrun
    exact .inl ⟨hhandler.trans hh, hrun.symm⟩
  | suscriptions =>
    obtain ⟨s, l, hconn⟩ := hw.connected it.data ⟨_, it, hit, hh, rfl⟩
    obtain ⟨hrun', hd⟩ := Call.run_suscription hw hit hhandler hsite.op hh hconn
    rw [hrun'] at hrun
    rw [← hdata] at hconn hd
    exact .inr ⟨hhandler.trans hh, s, l, hconn, suscription_fds hconn hd hw.sound hrun⟩

/-- **An event that leaks nothing** keeps the account. -/
theorem Accounts.step {e : Event} (h : Accounts server p t) (hleak : ¬ LeaksPipes p t e)
    (hs : p.step e = .ok p') : Accounts server p' (t ++ p.showsPipes e p') := by
  rw [step_eq] at hs
  cases hc : p.call e with
  | none =>
    simp only [hc, Except.ok.injEq] at hs
    subst hs
    exact h.quieted hc
  | some c =>
    simp only [hc] at hs
    cases hrun : c.run p.world with
    | error f => simp [hrun, Except.map] at hs
    | ok w' =>
      simp only [hrun, Except.map, Except.ok.injEq] at hs
      subst hs
      have hinv := h.inv.called hc hrun
      rcases h.call_cases hc hrun with ⟨hh, hw'⟩ | ⟨hh, s, l, hconn, hev⟩
      · exact h.accepts hc hh hw' hinv
      · exact h.connection hc hh hinv hconn hev hleak

/-- **An event that leaks** leaves something open that nobody holds. -/
theorem Accounts.step_leaks {e : Event} (h : Accounts server p t) (hleak : LeaksPipes p t e)
    (hs : p.step e = .ok p') :
    ¬ ∀ fd, p'.world.isOpen fd = true ↔ ∃ o,
    HeldBy server p'.world (t ++ p.showsPipes e p') o fd := by
  obtain ⟨c, s₀, hc, hh, hne, hcur, hends⟩ := hleak
  rw [step_eq] at hs
  simp only [hc] at hs
  cases hrun : c.run p.world with
  | error f => simp [hrun, Except.map] at hs
  | ok w' =>
    simp only [hrun, Except.map, Except.ok.injEq] at hs
    subst hs
    rcases h.call_cases hc hrun with ⟨hh', -⟩ | ⟨-, s, l, hconn, hev⟩
    · rw [hh] at hh'
      exact absurd hh' (by simp)
    · obtain rfl := hconn.state_eq hcur
      obtain ⟨fd, hopen, hnone⟩ := h.leaks hc hh (h.inv.called hc hrun) hconn hev hne hends
      intro hall
      obtain ⟨o, ho⟩ := (hall fd).mp hopen
      exact hnone o ho

theorem accounts_start (server : Int) (origin : AddrType) :
    Accounts server (.start server origin) [] where
  inv := proxyInv_start server origin
  balanced := by
    have hlive : ∀ a, ¬ Live (Proxy.start server origin).world a := by
      rintro a ⟨fd, it, hit, hown, -⟩
      rw [(start_item hit).2] at hown
      exact absurd hown (by simp)
    have hheld : ∀ o fd, HeldBy server (Proxy.start server origin).world [] o fd ↔
        o = .listening ∧ fd = server := by
      intro o fd
      cases o with
      | listening => simp [HeldBy]
      | connection a => simp [HeldBy, hlive]
      | reply a => simp [HeldBy, held]
    refine ⟨fun fd => ?_, fun fd o o' ho ho' => ?_⟩
    · simp only [hheld]
      simp [Proxy.start]
    · rw [((hheld o fd).mp ho).1, ((hheld o' fd).mp ho').1]
  unregistered a fd hfd := absurd hfd (by simp [held])
  replying a ha := absurd rfl ha

/-- **Conservation of the descriptors.**  All along a run the proxy holds open the
listening socket, the sockets of the connections that are not finished and the
pipes of the replies in progress, exactly when no event of the run finishes a
reply that pipes were opened for. -/
theorem descriptors_conserved (server : Int) (origin : AddrType) (es : List Event) :
    (∀ es' p, es' <+: es → proxySystem.run (.start server origin) es' = .ok p →
      ∀ fd, p.world.isOpen fd = true ↔ ∃ o, HeldBy server p.world
        (proxySystem.observe Proxy.showsPipes (.start server origin) es') o fd) ↔
      ∀ es' e p p', es' ++ [e] <+: es → proxySystem.run (.start server origin) es' = .ok p →
        p.step e = .ok p' → ¬ LeaksPipes p
          (proxySystem.observe Proxy.showsPipes (.start server origin) es') e := by
  have hgood : ∀ p t e p', Accounts server p t → ¬ LeaksPipes p t e →
      proxySystem.step p e = .ok p' → Accounts server p' (t ++ p.showsPipes e p') :=
    fun _ _ _ _ h hleak hs => h.step hleak hs
  have hbad : ∀ p t e p', Accounts server p t → ¬ ¬ LeaksPipes p t e →
      proxySystem.step p e = .ok p' → ¬ ∀ fd, p'.world.isOpen fd = true ↔
        ∃ o, HeldBy server p'.world (t ++ p.showsPipes e p') o fd :=
    fun _ _ _ _ h hleak hs => h.step_leaks (not_not.mp hleak) hs
  exact EventSystem.System.along_iff (I := Accounts server) (fun _ _ h => h.balanced.accounted)
    hgood hbad (accounts_start server origin) es

end

/-- A mail is retrieved through the filter, to its end. -/
def retrieved : List Event :=
  greeted ++ turn 5 4 .read { recv := some (ascii "RETR 1\r\n") } ++
    turn 5 5 .write { send := some 100 } ++
    turn 5 5 .read
      { recv := some (ascii "+OK\r\nhi\r\n.\r\n"), senderPipe := some (6, 7),
        receiverPipe := some (8, 9), pipeRead := some (ascii "hi\r\n") } ++
    turn 5 4 .write { send := some 100 }

/-- **A mail through the filter** costs four descriptors: the reply is finished,
its pipes are open, and there is nobody to hold them. -/
theorem retrieved_leaks : ∃ p, proxySystem.run (.start 3 .ipv4) retrieved = .ok p ∧
    (p.world.heap 0).current = some States.commandCread.num ∧
    ∀ fd ∈ [6, 7, 8, 9], ¬ (p.world.isOpen fd = true ↔ ∃ o, HeldBy 3 p.world
      (proxySystem.observe Proxy.showsPipes (.start 3 .ipv4) retrieved) o fd) := by
  have hok : (proxySystem.run (.start 3 .ipv4) retrieved).toOption.isSome = true := by
    decide +kernel
  obtain ⟨p, hrun⟩ : ∃ p, proxySystem.run (.start 3 .ipv4) retrieved = .ok p := by
    cases h : proxySystem.run (.start 3 .ipv4) retrieved with
    | ok p => exact ⟨p, rfl⟩
    | error e => simp [h, Except.toOption] at hok
  obtain rfl := EventSystem.System.run_eq_last hrun
  refine ⟨_, hrun, by decide +kernel, fun fd hfd => ?_⟩
  have hinv := ProxyInv.of_reach ((reach_start .ipv4).last (fun _ _ => trivial) retrieved)
  have hopen : ∀ fd ∈ [6, 7, 8, 9], (proxySystem.last (.start 3 .ipv4) retrieved).world.isOpen fd =
      true := by decide +kernel
  have hitems : ∀ n ∈ List.range 6,
      (((proxySystem.last (.start 3 .ipv4) retrieved).world.sel.fds n).map (·.data)).all
        (· == 0) = true := by decide +kernel
  have hsockets : ((proxySystem.last (.start 3 .ipv4) retrieved).world.heap 0).clientFd = 4 ∧
      ((proxySystem.last (.start 3 .ipv4) retrieved).world.heap 0).originFd = 5 := by
    decide +kernel
  have hshows : proxySystem.observe Proxy.showsPipes (.start 3 .ipv4) retrieved =
      List.replicate 6 (.ended 0) ++ [.opened 0 [6, 7, 8, 9], .ended 0] := by decide +kernel
  rw [hopen fd hfd, hshows]
  rintro ⟨h, -⟩
  obtain ⟨o, ho⟩ := h rfl
  cases o with
  | listening =>
    replace ho : fd = 3 := ho
    rw [ho] at hfd
    simp at hfd
  | connection a =>
    obtain ⟨⟨fd', it, hit, hown⟩, hsocket⟩ := ho
    -- the table has six entries, and the connection at 0 is the only one in it
    have ha : a = 0 := by
      have hf := (FdSelector.item_eq_some.mp hit).2
      have hle := (hinv.world.sound.wf.fd_eq _ _ hf).2.2
      have hmax : (proxySystem.last (.start 3 .ipv4) retrieved).world.sel.maxFd = 5 := by
        decide +kernel
      have := hitems fd'.toNat (List.mem_range.mpr (by omega))
      rw [hf] at this
      simpa [← hown.2] using this
    rw [ha, SocketOf, hsockets.1, hsockets.2] at hsocket
    rcases hsocket with rfl | ⟨rfl, -⟩ <;> simp at hfd
  | reply a =>
    have hnil :
      held a (List.replicate 6 (.ended 0) ++ [.opened 0 [6, 7, 8, 9], .ended 0]) = [] := by
      simp only [held, List.replicate, List.cons_append, List.nil_append, List.foldl_cons,
        List.foldl_nil, PipeUse.after, ite_self]
      split_ifs <;> rfl
    rw [HeldBy, hnil] at ho
    simp at ho

end Pop3Proxy
