/-
# A connection by itself

What the handlers of a connection do depends on the struct of the connection, on the items of
its two descriptors and on what the system calls return, and on nothing else in the program's
memory.  So the same calls have the same effect in a memory with other connections in it and in
one without.
-/
import Pop3Proxy.HandOff
import Pop3Proxy.Library.Parallel

namespace Pop3Proxy

/-! ## What a connection sees -/

/-- The results a handler can make use of: the kernel hands out no descriptor that is open. -/
def Io.granted (w : World) (io : Io) : Io :=
  { io with
    socket := w.fresh io.socket
    senderPipe := w.freshPair io.senderPipe
    receiverPipe := (w.freshPair io.senderPipe).bind fun p =>
      ((w.openFd p.1).openFd p.2).freshPair io.receiverPipe }

section
variable (w : World) (io : Io)

@[simp] theorem granted_errno : (io.granted w).errno = io.errno := rfl
@[simp] theorem granted_recv : (io.granted w).recv = io.recv := rfl
@[simp] theorem granted_send : (io.granted w).send = io.send := rfl
@[simp] theorem granted_pipeRead : (io.granted w).pipeRead = io.pipeRead := rfl
@[simp] theorem granted_junk : (io.granted w).junk = io.junk := rfl

end

/-- What stays while a handler runs: the configured origin, and what was sent before in the one
memory and in the other. -/
structure Scene where
  server : AddrType
  sent : List Output
  sent' : List Output

/-- The connection `a` sees the same in the memory `w'` as in `w`, and the descriptors open in
`w'` are its own. -/
structure Seen (a : Addr) (v : Scene) (w w' : World) : Prop where
  sound : Sound w
  sound' : Sound w'
  struct : w'.heap a = w.heap a
  client : w'.sel.item (w.heap a).clientFd = w.sel.item (w.heap a).clientFd
  origin : w'.sel.item (w.heap a).originFd = w.sel.item (w.heap a).originFd
  server : w.currOriginServer = v.server ∧ w'.currOriginServer = v.server
  own : ∀ fd, w'.isOpen fd = true → w.isOpen fd = true ∧ ∀ it, w.sel.item fd = some it → Owns a it
  sent : ∃ out, w.output = v.sent ++ out ∧ w'.output = v.sent' ++ out

/-- Both go to the same state, and the connection sees the same. -/
def GoSame (a : Addr) (v : Scene) (r r' : States × World) : Prop :=
  r.1 = r'.1 ∧ Seen a v r.2 r'.2

section
variable {a : Addr} {v : Scene} {w w' : World} {io : Io}

/-! ## The primitives -/

theorem fresh_granted (h : ∀ fd, w'.isOpen fd = true → w.isOpen fd = true) (fd : Option Int) :
    w'.fresh (w.fresh fd) = w.fresh fd := by
  cases hfd : w.fresh fd with
  | none => rfl
  | some s =>
    obtain ⟨h0, hclosed⟩ := fresh_spec hfd
    have hclosed' : w'.isOpen s = false := by
      by_contra hopen
      rw [h s (by simpa using hopen)] at hclosed
      cases hclosed
    simp [World.fresh, h0, hclosed']

theorem Seen.modify (h : Seen a v w w') {f : Pop3 → Pop3}
    (hclient : (f (w.heap a)).clientFd = (w.heap a).clientFd)
    (horigin : (f (w.heap a)).originFd = (w.heap a).originFd) :
    Seen a v (w.modify a f) (w'.modify a f) where
  sound := ⟨h.sound.wf, h.sound.isOpen⟩
  sound' := ⟨h.sound'.wf, h.sound'.isOpen⟩
  struct := by simp [World.modify, h.struct]
  client := by simpa [World.modify, hclient] using h.client
  origin := by simpa [World.modify, horigin] using h.origin
  server := h.server
  own := h.own
  sent := h.sent

theorem Seen.emit (h : Seen a v w w') (o : Output) :
    Seen a v (w.emit o) (w'.emit o) where
  sound := ⟨h.sound.wf, h.sound.isOpen⟩
  sound' := ⟨h.sound'.wf, h.sound'.isOpen⟩
  struct := h.struct
  client := h.client
  origin := h.origin
  server := h.server
  own := h.own
  sent := by
    obtain ⟨out, hout, hout'⟩ := h.sent
    refine ⟨out ++ [o], ?_, ?_⟩
    · rw [World.emit, hout, List.append_assoc]
    · rw [World.emit, hout', List.append_assoc]

/-- One of the two descriptors. -/
def Pop3.Has (c : Pop3) (fd : Int) : Prop := fd = c.clientFd ∨ fd = c.originFd

theorem Seen.item (h : Seen a v w w') {fd : Int} (hfd : (w.heap a).Has fd) :
    w'.sel.item fd = w.sel.item fd := by
  rcases hfd with rfl | rfl
  · exact h.client
  · exact h.origin

/-- Setting the interest of one of its descriptors. -/
theorem Seen.setInterest (h : Seen a v w w') {fd : Int} (hfd : (w.heap a).Has fd)
    (i : FdInterest) :
    ((w'.setInterest fd i).1 = .success ↔ (w.setInterest fd i).1 = .success) ∧
      Seen a v (w.setInterest fd i).2 (w'.setInterest fd i).2 := by
  have hitem := h.item hfd
  have hset : ∀ fd', w'.sel.item fd' = w.sel.item fd' →
      (w'.setInterest fd i).2.sel.item fd' = (w.setInterest fd i).2.sel.item fd' := by
    intro fd' hfd'
    simp only [World.setInterest, FdSelector.item_setInterest, hitem, hfd']
  refine ⟨?_, ?_⟩
  · rw [World.setInterest, World.setInterest, FdSelector.setInterest_status,
      FdSelector.setInterest_status, hitem]
  · exact
    { sound := sound_setInterest h.sound fd i
      sound' := sound_setInterest h.sound' fd i
      struct := h.struct
      client := hset _ h.client
      origin := hset _ h.origin
      server := h.server
      own := by
        intro fd' hopen
        obtain ⟨hopen', howns⟩ := h.own fd' hopen
        refine ⟨hopen', fun it hit => ?_⟩
        simp only [World.setInterest, FdSelector.item_setInterest] at hit
        split_ifs at hit with heq
        · obtain ⟨it', hit', rfl⟩ := Option.map_eq_some_iff.mp hit
          exact howns it' (heq ▸ hit')
        · exact howns it hit
      sent := h.sent }

/-- The `if` at the end of most handlers. -/
theorem Seen.armed (h : Seen a v w w') {fd : Int} (hfd : (w.heap a).Has fd) (i : FdInterest)
    (next : States) : GoSame a v (w.armed fd i next) (w'.armed fd i next) := by
  obtain ⟨hst, hseen⟩ := h.setInterest hfd i
  refine ⟨?_, hseen⟩
  exact if_congr hst.symm rfl rfl

theorem Seen.handOver (h : Seen a v w w') {off on : Int} (hoff : (w.heap a).Has off)
    (hon : (w.heap a).Has on) (i : FdInterest) (next : States) :
    GoSame a v (w.handOver off on i next) (w'.handOver off on i next) :=
  (h.setInterest hoff OP_NOOP).2.armed hon i next

theorem Seen.toClient (h : Seen a v w w') (next : States) :
    GoSame a v (w.toClient a next) (w'.toClient a next) := by
  rw [World.toClient, World.toClient, h.struct]
  exact h.handOver (.inr rfl) (.inl rfl) OP_WRITE next

theorem Seen.toOrigin (h : Seen a v w w') (i : FdInterest) (next : States) :
    GoSame a v (w.toOrigin a i next) (w'.toOrigin a i next) := by
  rw [World.toOrigin, World.toOrigin, h.struct]
  exact h.handOver (.inl rfl) (.inr rfl) i next

/-- A descriptor that is not open in `w` is open in neither. -/
theorem Seen.closed (h : Seen a v w w') {s : Int} (hs : w.isOpen s = false) :
    w'.isOpen s = false := by
  by_contra hopen
  rw [(h.own s (by simpa using hopen)).1] at hs
  cases hs

/-- A new descriptor that is not registered yet. -/
theorem Seen.openFd (h : Seen a v w w') {s : Int} (hs : w.isOpen s = false) :
    Seen a v (w.openFd s) (w'.openFd s) where
  sound := h.sound.of_items h.sound.wf (fun _ h => h) fun fd hopen => by
    by_cases heq : fd = s <;> simp [World.openFd, heq, hopen]
  sound' := h.sound'.of_items h.sound'.wf (fun _ h => h) fun fd hopen => by
    by_cases heq : fd = s <;> simp [World.openFd, heq, hopen]
  struct := h.struct
  client := h.client
  origin := h.origin
  server := h.server
  own := by
    intro fd hopen
    by_cases heq : fd = s
    · subst heq
      refine ⟨by simp [World.openFd], fun it hit => ?_⟩
      have hit : w.sel.item fd = some it := hit
      rw [h.sound.item_of_closed hs] at hit
      cases hit
    · have hopen : w'.isOpen fd = true := by simpa [World.openFd, heq] using hopen
      obtain ⟨hopen', howns⟩ := h.own fd hopen
      exact ⟨by simpa [World.openFd, heq] using hopen', howns⟩
  sent := h.sent

/-- The struct is given a descriptor that has no item. -/
theorem Seen.setOrigin (h : Seen a v w w') {s : Int} (hs : w.sel.item s = none)
    (hs' : w'.sel.item s = none) : Seen a v (w.modify a fun c => { c with originFd := s })
      (w'.modify a fun c => { c with originFd := s }) where
  sound := ⟨h.sound.wf, h.sound.isOpen⟩
  sound' := ⟨h.sound'.wf, h.sound'.isOpen⟩
  struct := by simp [World.modify, h.struct]
  client := by simpa [World.modify] using h.client
  origin := by
    simp only [World.modify, Function.update_self]
    exact hs'.trans hs.symm
  server := h.server
  own := h.own
  sent := h.sent

theorem item_neg_one (w : World) : w.sel.item (-1) = none := rfl

theorem Sound.closeFd (h : Sound w) {s : Int} (hs : w.sel.item s = none) :
    Sound (w.closeFd s) := by
  refine ⟨h.wf, fun fd it hit => ?_⟩
  have hit : w.sel.item fd = some it := hit
  have hne : fd ≠ s := fun heq => by rw [heq, hs] at hit; cases hit
  simpa [World.closeFd, hne] using h.isOpen fd it hit

/-- A descriptor that was never registered is closed again. -/
theorem Seen.closeFd (h : Seen a v w w') {s : Int} (hs : w.sel.item s = none)
    (hs' : w'.sel.item s = none) : Seen a v (w.closeFd s) (w'.closeFd s) where
  sound := h.sound.closeFd hs
  sound' := h.sound'.closeFd hs'
  struct := h.struct
  client := h.client
  origin := h.origin
  server := h.server
  own := by
    intro fd hopen
    by_cases heq : fd = s
    · simp [World.closeFd, heq] at hopen
    · have hopen : w'.isOpen fd = true := by simpa [World.closeFd, heq] using hopen
      obtain ⟨hopen', howns⟩ := h.own fd hopen
      exact ⟨by simpa [World.closeFd, heq] using hopen', howns⟩
  sent := h.sent

theorem Sound.register (h : Sound w) (io : Io) {s : Int} (hopen : w.isOpen s = true)
    (i : FdInterest) (a : Addr) : Sound (w.register io s i a).2 := by
  refine ⟨FdSelector.wf_register h.wf _ _ _ _ _, fun fd it hit => ?_⟩
  have hit : (selectorRegister io.malloc w.sel s .suscriptions i a).2.item fd = some it := hit
  rcases FdSelector.register_cases io.malloc h.wf.fdSize s FdHandler.suscriptions i a with
    ⟨hst, -⟩ | ⟨-, hsame, -⟩
  · rw [FdSelector.item_register h.wf.fdSize hst] at hit
    split_ifs at hit with heq
    · rw [heq]
      exact hopen
    · exact h.isOpen fd it hit
  · rw [hsame] at hit
    exact h.isOpen fd it hit

theorem register_failed (h : Sound w) {io : Io} {s : Int} {i : FdInterest} {a : Addr}
    (hst : (w.register io s i a).1 ≠ .success) : (w.register io s i a).2 = w := by
  rcases FdSelector.register_cases io.malloc h.wf.fdSize s FdHandler.suscriptions i a with
    ⟨hdone, -⟩ | ⟨-, hsame, -⟩
  · exact absurd hdone hst
  · rw [World.register]
    exact congrArg (fun sel => { w with sel := sel }) hsame

/-- The new origin descriptor is registered. -/
theorem Seen.register (h : Seen a v w w') (io : Io) {s : Int} (hs : w.sel.item s = none)
    (hs' : w'.sel.item s = none) (hopen : w.isOpen s = true) (hopen' : w'.isOpen s = true)
    (i : FdInterest) :
    ((w'.register io s i a).1 = .success ↔ (w.register io s i a).1 = .success) ∧
      Seen a v (w.register io s i a).2 (w'.register io s i a).2 := by
  -- whether a descriptor can be registered depends on its number alone
  have hitem : ∀ {u : World}, Sound u → u.sel.item s = none →
      (((u.register io s i a).1 = .success ↔ invalidFd s = false) ∧
        ∀ fd, (u.register io s i a).2.sel.item fd =
          if fd = s ∧ invalidFd s = false then some ⟨s, i, .suscriptions, a⟩
          else u.sel.item fd) := by
    intro u hu hnone
    rcases FdSelector.register_cases io.malloc hu.wf.fdSize s FdHandler.suscriptions i a with
      ⟨hst, hv, -⟩ | ⟨hst, hsame, hsome⟩
    · refine ⟨iff_of_true hst hv, fun fd => ?_⟩
      refine (FdSelector.item_register hu.wf.fdSize hst fd).trans ?_
      simp only [hv, and_true]
    · have hv : ¬ invalidFd s = false := fun hv => by
        have hs := hsome hv
        rw [hnone] at hs
        cases hs
      refine ⟨iff_of_false hst hv, fun fd => ?_⟩
      rw [if_neg fun hboth => hv hboth.2]
      show (selectorRegister io.malloc u.sel s .suscriptions i a).2.item fd = _
      rw [hsame]
  obtain ⟨hst, hit⟩ := hitem h.sound hs
  obtain ⟨hst', hit'⟩ := hitem h.sound' hs'
  refine ⟨hst'.trans hst.symm, ?_⟩
  exact
  { sound := h.sound.register io hopen i a
    sound' := h.sound'.register io hopen' i a
    struct := h.struct
    client := by
      rw [hit', hit]
      exact if_congr Iff.rfl rfl h.client
    origin := by
      rw [hit', hit]
      exact if_congr Iff.rfl rfl h.origin
    server := h.server
    own := by
      intro fd hfd
      obtain ⟨hfd', howns⟩ := h.own fd hfd
      refine ⟨hfd', fun it heq => ?_⟩
      rw [hit] at heq
      split_ifs at heq with hnew
      · obtain rfl := Option.some.inj heq
        exact ⟨rfl, rfl⟩
      · exact howns it heq
    sent := h.sent }

/-! ## Reaching the origin -/

variable {key : SelectorKey}

theorem GoSame.ret {r r' : States × World} (h : GoSame a v r r') :
    Parallel (GoSame a v) (.ok r : Except Fault (States × World))
      (.ok r' : Except Fault (States × World)) :=
  .ok h

theorem Seen.closeOrigin (h : Seen key.data v w w') {s : Int} (hs : w.sel.item s = none)
    (hs' : w'.sel.item s = none) :
    Seen key.data v (closeOrigin key s w) (closeOrigin key s w') :=
  (h.closeFd hs hs').setOrigin (item_neg_one _) (item_neg_one _)

theorem attemptConnection_same (h : Seen key.data v w w')
    (hfd : key.fd = (w.heap key.data).clientFd) :
    Parallel (GoSame key.data v) (attemptConnection io key w)
      (attemptConnection (io.granted w) key w') := by
  have hgrant : w'.fresh (io.granted w).socket = w.fresh io.socket :=
    fresh_granted (fun fd hopen => (h.own fd hopen).1) _
  unfold attemptConnection
  rw [hgrant]
  cases hf : w.fresh io.socket with
  | none => exact .ok ⟨rfl, h.setOrigin (item_neg_one _) (item_neg_one _)⟩
  | some s =>
    obtain ⟨-, hclosed⟩ := fresh_spec hf
    have hclosed' := h.closed hclosed
    have hnone := h.sound.item_of_closed hclosed
    have hnone' := h.sound'.item_of_closed hclosed'
    have hopened : Seen key.data v (opened key.data s w) (opened key.data s w') :=
      (h.openFd hclosed).setOrigin hnone hnone'
    have hhas : ((opened key.data s w).heap key.data).Has key.fd :=
      .inl (by simp [opened, World.modify, World.openFd, hfd])
    refine .ite Iff.rfl (fun _ => .ok ⟨rfl, hopened⟩) fun _ => ?_
    refine .ite Iff.rfl (fun _ => .error) fun _ => ?_
    refine .ite Iff.rfl (fun _ => .ok ⟨rfl, hopened.closeOrigin hnone hnone'⟩) fun _ => ?_
    obtain ⟨hst, hset⟩ := hopened.setInterest hhas OP_NOOP
    have hkeyOpen : ∀ {u : World}, Sound u → u.isOpen s = false →
        ((opened key.data s u).setInterest key.fd OP_NOOP).2.sel.item s = none := by
      intro u hu hcl
      have hitem := hu.item_of_closed hcl
      have hset := FdSelector.item_setInterest (opened key.data s u).sel key.fd OP_NOOP s
      refine hset.trans ?_
      split_ifs with heq
      · rw [← heq, show (opened key.data s u).sel.item s = none from hitem, Option.map_none]
      · exact hitem
    have hnone₁ := hkeyOpen h.sound hclosed
    have hnone₁' := hkeyOpen h.sound' hclosed'
    refine .ite (not_congr hst.symm) (fun _ => .ok ⟨rfl, hset.closeOrigin hnone₁ hnone₁'⟩)
      fun _ => ?_
    have hopen : ∀ u :
      World, ((opened key.data s u).setInterest key.fd OP_NOOP).2.isOpen s = true :=
      fun u => by simp [World.setInterest, opened, World.modify, World.openFd]
    obtain ⟨hreg, hseen⟩ := hset.register io hnone₁ hnone₁' (hopen w) (hopen w') OP_WRITE
    have hdone := hseen.modify (f := fun c => { c with references := c.references + 1 }) rfl rfl
    refine .ite (not_congr hreg.symm) (fun hfail => ?_) fun _ => .ok ⟨rfl, hdone⟩
    have hback := hset.closeOrigin hnone₁ hnone₁'
    rw [← register_failed hset.sound hfail,
      ← register_failed hset.sound' (mt hreg.mp hfail)] at hback
    exact .ok ⟨rfl, hback⟩

theorem processConnection_same (h : Seen key.data v w w')
    (hfd : key.fd = (w.heap key.data).clientFd) :
    Parallel (fun r r' => GoSame key.data v r r') (processConnection io key w)
      (processConnection (io.granted w) key w') := by
  unfold processConnection
  rw [h.struct]
  refine .same fun server _ => ?_
  have hattempt : ∀ f : Pop3 → Pop3, (∀ c, (f c).clientFd = c.clientFd) →
      (∀ c, (f c).originFd = c.originFd) →
      Parallel (GoSame key.data v) (attemptConnection io key (w.modify key.data f))
        (attemptConnection (io.granted w) key (w'.modify key.data f)) := by
    intro f hclient horigin
    refine attemptConnection_same (w := w.modify key.data f) (h.modify (hclient _) (horigin _)) ?_
    simp [World.modify, hclient, hfd]
  cases server with
  | ipv4 => exact hattempt _ (fun _ => rfl) fun _ => rfl
  | ipv6 => exact hattempt _ (fun _ => rfl) fun _ => rfl
  | domain =>
    refine .ite Iff.rfl (fun _ => .ok ⟨rfl, (h.setInterest (.inl hfd) _).2⟩) fun _ => .ok ⟨rfl, ?_⟩
    have hstart : Seen key.data v
        (if io.pthreadCreate = 0 then { w with resolvers := w.resolvers ++ [key] } else w)
        (if io.pthreadCreate = 0 then { w' with resolvers := w'.resolvers ++ [key] } else w') := by
      split_ifs
      · exact ⟨⟨h.sound.wf, h.sound.isOpen⟩, ⟨h.sound'.wf, h.sound'.isOpen⟩, h.struct, h.client,
          h.origin, h.server, h.own, h.sent⟩
      · exact h
    refine (hstart.setInterest (.inl ?_) _).2
    rw [hfd]
    split_ifs <;> rfl

theorem resolvConnection_same (h : Seen key.data v w w')
    (hfd : key.fd = (w.heap key.data).clientFd) :
    Parallel (GoSame key.data v) (resolvConnection io key w)
      (resolvConnection (io.granted w) key w') := by
  unfold resolvConnection
  rw [h.struct]
  refine .same fun _ _ => ?_
  cases (w.heap key.data).originResolution with
  | none => exact attemptConnection_same h hfd
  | some family =>
    refine attemptConnection_same (w := w.modify key.data _) (h.modify rfl rfl) ?_
    simp [World.modify, hfd]

theorem establConnection_same (h : Seen key.data v w w') (hfd : (w.heap key.data).Has key.fd) :
    Parallel (GoSame key.data v) (establConnection key w) (establConnection key w') := by
  unfold establConnection
  rw [h.struct]
  refine .same fun _ _ => .ok ?_
  obtain ⟨hst₁, hseen₁⟩ := h.setInterest (.inl rfl) OP_NOOP
  obtain ⟨hst₂, hseen₂⟩ := hseen₁.setInterest hfd OP_READ
  exact ⟨if_congr (and_congr hst₁ hst₂).symm rfl rfl, hseen₂⟩

/-! ## The greeting and the command -/

theorem greetingSread_same (h : Seen key.data v w w') :
    Parallel (GoSame key.data v) (greetingSread io key w)
      (greetingSread (io.granted w) key w') := by
  unfold greetingSread
  simp only [h.struct, granted_recv, granted_errno]
  refine .same fun p _ => .same fun count _ => ?_
  have hagain : Parallel (GoSame key.data v)
      (if io.errno = .eagain ∨ io.errno = .ewouldblock then .ok (.greetingSread, w)
        else .ok (.greetingCwrite, w) : Except Fault (States × World))
      (if io.errno = .eagain ∨ io.errno = .ewouldblock then .ok (.greetingSread, w')
        else .ok (.greetingCwrite, w') : Except Fault (States × World)) :=
    .ite Iff.rfl (fun _ => .ok ⟨rfl, h⟩) fun _ => .ok ⟨rfl, h⟩
  cases upTo io.recv count with
  | none => exact hagain
  | some bs =>
    cases bs with
    | nil => exact hagain
    | cons c cs =>
      refine .same fun rb _ => ?_
      have hread := h.modify (f := fun c' => { c' with
        readBuffer := rb
        origin := .greeting (pop3SinglelineResponseBuilder (c :: cs) p none).state.1 }) rfl rfl
      refine .ite Iff.rfl (fun _ => .ok (hread.toClient _)) fun _ => ?_
      refine .ok ⟨rfl, ?_⟩
      simp only [hread.struct]
      exact (hread.setInterest (.inr rfl) _).2

theorem greetingCwrite_same (h : Seen key.data v w w') (hfd : (w.heap key.data).Has key.fd) :
    Parallel (GoSame key.data v) (greetingCwrite io key w)
      (greetingCwrite (io.granted w) key w') := by
  unfold greetingCwrite
  simp only [h.struct, granted_send]
  refine .same fun _ _ => .same fun bytes _ => ?_
  cases taken io.send bytes with
  | none => exact .ok ⟨rfl, h⟩
  | some sent =>
    refine .same fun rest _ => ?_
    have hsent := (h.emit (.sent key.fd sent)).modify
      (f := fun c => { c with writeBuffer := rest }) rfl rfl
    refine .ite Iff.rfl (fun _ => .ok ⟨rfl, hsent⟩) fun _ => .ok (hsent.armed ?_ _ _)
    simpa [Pop3.Has, World.modify, World.emit] using hfd

theorem commandCread_same (h : Seen key.data v w w') (hfd : (w.heap key.data).Has key.fd) :
    Parallel (GoSame key.data v) (commandCread io key w)
      (commandCread (io.granted w) key w') := by
  unfold commandCread
  simp only [h.struct, granted_recv]
  refine .same fun count _ => ?_
  cases upTo io.recv count with
  | none => exact .ok ⟨rfl, h⟩
  | some bs =>
    cases bs with
    | nil => exact .ok ⟨rfl, h⟩
    | cons c cs =>
      refine .same fun _ _ => .same fun rb _ => ?_
      have hread := h.modify (f := fun d => { d with
        readBuffer := rb
        commandParser := (commandBuilder (c :: cs) (w.heap key.data).commandParser
          (w.heap key.data).currentCommand).state.1
        currentCommand := (commandBuilder (c :: cs) (w.heap key.data).commandParser
          (w.heap key.data).currentCommand).state.2
        currentCommandLen := d.currentCommandLen + (commandBuilder (c :: cs)
          (w.heap key.data).commandParser (w.heap key.data).currentCommand).read
        bytesRead := d.bytesRead + (c :: cs).length }) rfl rfl
      split
      · refine .ok (Seen.toOrigin (hread.modify ?_ ?_) _ _) <;> split_ifs <;> rfl
      · refine .ok (hread.armed ?_ _ _)
        simpa [Pop3.Has, World.modify] using hfd
      · exact .ok ⟨rfl, hread⟩

theorem commandSwrite_same (h : Seen key.data v w w') (hfd : (w.heap key.data).Has key.fd) :
    Parallel (GoSame key.data v) (commandSwrite io key w)
      (commandSwrite (io.granted w) key w') := by
  unfold commandSwrite
  simp only [h.struct, granted_send]
  refine .same fun bytes _ => ?_
  cases taken io.send bytes with
  | none => exact .ok ⟨rfl, h⟩
  | some sent =>
    have hsent := (h.emit (.sent key.fd sent)).modify (f := fun c => { c with readBuffer :=
      { (w.heap key.data).readBuffer with
        read := (w.heap key.data).readBuffer.read + sent.length } }) rfl rfl
    refine .ite Iff.rfl (fun _ => .ok ⟨rfl, hsent⟩) fun _ => .ok (hsent.armed ?_ _ _)
    simpa [Pop3.Has, World.modify, World.emit] using hfd

/-- No handler leads here, and it would be no different. -/
theorem pipeDream_same (h : Seen key.data v w w') (hfd : (w.heap key.data).Has key.fd) :
    Parallel (GoSame key.data v) (pipeDream key w) (pipeDream key w') := by
  unfold pipeDream
  simp only [h.struct]
  refine .same fun _ _ => .ite Iff.rfl (fun _ => ?_) fun _ => ?_
  · refine .same fun rb _ => .same fun rb' _ => ?_
    have hread := h.modify (f := fun d => { d with
      readBuffer := rb'
      commandParser := (commandBuilder ((rb.data.drop (w.heap key.data).readBuffer.write).take
        (w.heap key.data).bytesInBuffer) (w.heap key.data).commandParser
        (w.heap key.data).currentCommand).state.1
      currentCommand := (commandBuilder ((rb.data.drop (w.heap key.data).readBuffer.write).take
        (w.heap key.data).bytesInBuffer) (w.heap key.data).commandParser
        (w.heap key.data).currentCommand).state.2
      bytesInBuffer := d.bytesInBuffer - (commandBuilder ((rb.data.drop
        (w.heap key.data).readBuffer.write).take (w.heap key.data).bytesInBuffer)
        (w.heap key.data).commandParser (w.heap key.data).currentCommand).read }) rfl rfl
    split
    · exact .ok (hread.toOrigin _ _)
    · refine .ok (hread.armed ?_ _ _)
      simpa [Pop3.Has, World.modify] using hfd
    · exact .ok ⟨rfl, hread⟩
  · exact .ok (h.handOver (.inr rfl) (.inl rfl) _ _)

/-! ## The reply -/

theorem freshPair_spec {p : Option (Int × Int)} {q : Int × Int} (h : w.freshPair p = some q) :
    w.isOpen q.1 = false ∧ w.isOpen q.2 = false ∧ q.1 ≠ q.2 := by
  obtain ⟨-, hq⟩ := Option.filter_eq_some_iff.mp h
  simp only [Bool.and_eq_true, decide_eq_true_eq] at hq
  obtain ⟨⟨h1, h2⟩, hne⟩ := hq
  obtain ⟨s, hs⟩ := Option.isSome_iff_exists.mp h1
  obtain ⟨s', hs'⟩ := Option.isSome_iff_exists.mp h2
  obtain ⟨-, hs1, rfl⟩ := fresh_spec hs, (fresh_spec hs).2,
    Option.some.inj (Option.filter_eq_some_iff.mp hs).1
  obtain rfl := Option.some.inj (Option.filter_eq_some_iff.mp hs').1
  exact ⟨hs1, (fresh_spec hs').2, hne⟩

theorem freshPair_granted (h : ∀ fd, w'.isOpen fd = true → w.isOpen fd = true)
    (p : Option (Int × Int)) : w'.freshPair (w.freshPair p) = w.freshPair p := by
  cases hq : w.freshPair p with
  | none => rfl
  | some q =>
    obtain ⟨-, hfresh⟩ := Option.filter_eq_some_iff.mp hq
    have hkeep : ∀ fd, (w.fresh (some fd)).isSome = true → (w'.fresh (some fd)).isSome = true := by
      intro fd hfd
      obtain ⟨s, hs⟩ := Option.isSome_iff_exists.mp hfd
      obtain rfl := Option.some.inj (Option.filter_eq_some_iff.mp hs).1
      have hsame := fresh_granted h (some fd)
      rw [hs] at hsame
      rw [hsame]
      rfl
    simp only [Bool.and_eq_true, decide_eq_true_eq] at hfresh
    refine Option.filter_eq_some_iff.mpr ⟨rfl, ?_⟩
    simp only [Bool.and_eq_true, decide_eq_true_eq]
    exact ⟨⟨hkeep _ hfresh.1.1, hkeep _ hfresh.1.2⟩, hfresh.2⟩

/-- Both ends of a new pipe. -/
theorem Seen.openPair (h : Seen a v w w') {p : Option (Int × Int)} {q : Int × Int}
    (hq : w.freshPair p = some q) :
    Seen a v ((w.openFd q.1).openFd q.2) ((w'.openFd q.1).openFd q.2) := by
  obtain ⟨h1, h2, hne⟩ := freshPair_spec hq
  refine (h.openFd h1).openFd ?_
  simpa [World.openFd, Function.update_of_ne hne.symm] using h2

theorem freshPair_modify (w : World) (b : Addr) (f : Pop3 → Pop3) (p : Option (Int × Int)) :
    (w.modify b f).freshPair p = w.freshPair p := rfl

theorem createTransformation_same (h : Seen a v w w') :
    Seen a v (createTransformation io a w) (createTransformation (io.granted w) a w') := by
  have hopen : ∀ {u u' : World}, Seen a v u u' → ∀ fd, u'.isOpen fd = true → u.isOpen fd = true :=
    fun hseen fd hfd => (hseen.own fd hfd).1
  have hsender : w'.freshPair (io.granted w).senderPipe = w.freshPair io.senderPipe :=
    freshPair_granted (hopen h) _
  unfold createTransformation
  rw [hsender]
  cases hp : w.freshPair io.senderPipe with
  | none => exact h
  | some p =>
    have hpair := (h.openPair hp).modify (f := fun c => { c with senderPipe := p }) rfl rfl
    have hreceiver : (io.granted w).receiverPipe =
        ((w.openFd p.1).openFd p.2).freshPair io.receiverPipe := by
      simp only [Io.granted, hp, Option.bind_some]
    have hgrant := freshPair_granted (hopen (h.openPair hp)) io.receiverPipe
    simp only [hreceiver, freshPair_modify, hgrant]
    cases hq : ((w.openFd p.1).openFd p.2).freshPair io.receiverPipe with
    | none => exact hpair
    | some q =>
      exact (hpair.openPair hq).modify (f := fun c => { c with receiverPipe := q }) rfl rfl

theorem feedFilter_same (h : Seen a v w w') :
    Parallel (Seen a v) (feedFilter a w) (feedFilter a w') := by
  unfold feedFilter
  rw [h.struct]
  exact .same fun bytes _ => .ok (h.emit _)

theorem readFilter_same (h : Seen a v w w') (io' : Io) (hio : io'.pipeRead = io.pipeRead) :
    Parallel (Seen a v) (readFilter io a w) (readFilter io' a w') := by
  unfold readFilter
  simp only [h.struct, hio]
  exact .same fun count _ => .same fun tb _ => .ok (h.modify rfl rfl)

theorem startFilter_same (h : Seen a v w w') :
    Parallel (Seen a v) (startFilter io a w) (startFilter (io.granted w) a w') :=
  (feedFilter_same (createTransformation_same h)).bind fun _ _ hfed => readFilter_same hfed _ rfl

theorem continueFilter_same (h : Seen a v w w') :
    Parallel (Seen a v) (continueFilter io a w) (continueFilter (io.granted w) a w') := by
  refine (feedFilter_same h).bind fun u u' hfed => ?_
  exact readFilter_same (hfed.modify (f := fun c =>
    { c with transBuffer := bufferReset c.transBuffer }) rfl rfl) _ rfl

theorem responseMultiline_same (h : Seen key.data v w w') (chunk : List Byte)
    (p : SinglelineState) (m : MultilineState) :
    Parallel (GoSame key.data v) (responseMultiline io key chunk p m w)
      (responseMultiline (io.granted w) key chunk p m w') := by
  unfold responseMultiline
  simp only [h.struct]
  have hparsed := h.modify (f := fun c => { c with
    origin := .response p (pop3MultilineResponseChecker chunk m).state
    transform := isTransformed (w.heap key.data).currentCommand.kwrd }) rfl rfl
  refine Parallel.bind (R := Seen key.data v) ?_ fun u u' hseen => .ok (hseen.toClient _)
  exact .ite Iff.rfl (fun _ => startFilter_same hparsed) fun _ => .ok hparsed

theorem responseSread_same (h : Seen key.data v w w') :
    Parallel (GoSame key.data v) (responseSread io key w)
      (responseSread (io.granted w) key w') := by
  unfold responseSread
  simp only [h.struct, granted_recv]
  refine .same fun pm _ => .same fun count _ => ?_
  cases upTo io.recv count with
  | none => exact .ok ⟨rfl, h⟩
  | some bs =>
    cases bs with
    | nil => exact .ok ⟨rfl, h⟩
    | cons c cs =>
      refine .same fun wb _ => ?_
      have hread := h.modify (f := fun d => { d with
        writeBuffer := wb
        origin := .response (pop3SinglelineResponseBuilder (c :: cs) pm.1 none).state.1 pm.2 })
        rfl rfl
      refine .ite Iff.rfl (fun _ => ?_) fun _ => .ok ⟨rfl, hread⟩
      split
      · exact responseMultiline_same hread _ _ _
      · exact responseMultiline_same hread _ _ _
      · exact .ok (hread.toClient _)

theorem dotDataSread_same (h : Seen key.data v w w') :
    Parallel (GoSame key.data v) (dotDataSread io key w)
      (dotDataSread (io.granted w) key w') := by
  unfold dotDataSread
  simp only [h.struct, granted_recv, granted_junk]
  refine .same fun _ _ => .same fun count _ => ?_
  cases upTo io.recv count with
  | none => exact .ok ⟨rfl, h⟩
  | some bs =>
    cases bs with
    | nil => exact .ok ⟨rfl, h⟩
    | cons c cs =>
      refine .same fun wb _ => ?_
      have hread := h.modify (f := fun d => { d with writeBuffer := wb }) rfl rfl
      refine Parallel.bind (R := Seen key.data v) ?_ fun u u' hseen => .ok (hseen.toClient _)
      exact .ite Iff.rfl (fun _ => continueFilter_same hread) fun _ => .ok hread

theorem relay_same (h : Seen key.data v w w') (stay : States)
    {drained : World → States × World}
    (hdrained : ∀ u u', Seen key.data v u u' → (u.heap key.data).Has key.fd →
      GoSame key.data v (drained u) (drained u')) (hfd : (w.heap key.data).Has key.fd) :
    Parallel (GoSame key.data v) (relay stay drained io key w)
      (relay stay drained (io.granted w) key w') := by
  unfold relay
  simp only [h.struct, granted_send]
  refine .same fun pm _ => .same fun bytes _ => ?_
  cases taken io.send bytes with
  | none => exact .ok ⟨rfl, h⟩
  | some sent =>
    refine .same fun buffer _ => ?_
    have hsent := (h.emit (.sent key.fd sent)).modify (f := fun c =>
      if c.transform then
        { c with
          transBuffer := buffer
          origin := .response (pop3SinglelineResponseBuilder sent pm.1 none).state.1 pm.2 }
      else
        { c with
          writeBuffer := buffer
          origin := .response (pop3SinglelineResponseBuilder sent pm.1 none).state.1 pm.2 })
      (by split_ifs <;> rfl) (by split_ifs <;> rfl)
    refine .ite Iff.rfl (fun _ => .ok ⟨rfl, hsent⟩) fun _ => .ok (hdrained _ _ hsent ?_)
    cases ht : (w.heap key.data).transform <;>
      simpa [Pop3.Has, World.modify, World.emit, ht] using hfd

theorem dotDataCwrite_same (h : Seen key.data v w w') (hfd : (w.heap key.data).Has key.fd) :
    Parallel (GoSame key.data v) (dotDataCwrite io key w)
      (dotDataCwrite (io.granted w) key w') :=
  relay_same h _ (fun _ _ hsent _ => hsent.toOrigin _ _) hfd

theorem responseCwrite_same (h : Seen key.data v w w') (hfd : (w.heap key.data).Has key.fd) :
    Parallel (GoSame key.data v) (responseCwrite io key w)
      (responseCwrite (io.granted w) key w') :=
  relay_same h _ (fun _ _ hsent hfd => hsent.armed hfd _ _) hfd

/-! ## One event -/

/-- **Every handler** does the same in both memories. -/
theorem handler_same {op : Op} {s : States} {f : World → Except Fault (States × World)}
    (h : Seen key.data v w w') (hfd : (w.heap key.data).Has key.fd)
    (hclient : s = .processConnection ∨ s = .resolvConnection →
      key.fd = (w.heap key.data).clientFd)
    (hf : handlerOf io key op s = some f) :
    ∃ f', handlerOf (io.granted w) key op s = some f' ∧
      Parallel (GoSame key.data v) (f w) (f' w') := by
  cases op <;> cases s <;> cases hf <;> refine ⟨_, rfl, ?_⟩
  · exact greetingSread_same h
  · exact commandCread_same h hfd
  · exact responseSread_same h
  · exact dotDataSread_same h
  · exact processConnection_same h (hclient (.inl rfl))
  · exact establConnection_same h hfd
  · exact greetingCwrite_same h hfd
  · exact commandSwrite_same h hfd
  · exact dotDataCwrite_same h hfd
  · exact responseCwrite_same h hfd
  · exact pipeDream_same h hfd
  · exact resolvConnection_same h (hclient (.inr rfl))

theorem arrival_same (h : Seen key.data v w w') (s : States) :
    Parallel (Seen key.data v) (arrival key s w) (arrival key s w') := by
  cases s with
  | processConnection =>
    refine .ok ?_
    rw [h.server.1, h.server.2]
    exact h.modify rfl rfl
  | establConnection =>
    simp only [arrival, establConnectionInit, h.struct]
    exact .same fun _ _ => .ok h
  | greetingSread =>
    simp only [arrival, greetingInit]
    exact .same fun _ _ => .ok (h.modify rfl rfl)
  | commandCread => exact .ok (h.modify rfl rfl)
  | responseSread => exact .ok (h.modify rfl rfl)
  | dotDataSread =>
    simp only [arrival, dotDataInit, h.struct]
    exact .same fun _ _ => .ok (h.modify rfl rfl)
  | pipeDream => exact .ok (h.modify rfl rfl)
  | resolvConnection | greetingCwrite | commandSwrite | dotDataCwrite | responseCwrite | update
    | error => exact .ok h

theorem enter_same (h : Seen key.data v w w') (s next : States) :
    Parallel (Seen key.data v) (enter key s next w) (enter key s next w') :=
  .ite Iff.rfl (fun _ => .ok h) fun _ => arrival_same h next

/-! ## The end of a connection -/

/-- The same was sent in both memories, and the two descriptors have the same items. -/
structure Ending (v : Scene) (client origin : Int) (w w' : World) : Prop where
  client : w'.sel.item client = w.sel.item client
  origin : w'.sel.item origin = w.sel.item origin
  server : w.currOriginServer = v.server ∧ w'.currOriginServer = v.server
  sent : ∃ out, w.output = v.sent ++ out ∧ w'.output = v.sent' ++ out

theorem output_handleClose (it : Item FdHandler Addr) (w : World) :
    (handleClose it w).output = w.output ∧
      (handleClose it w).currOriginServer = w.currOriginServer := by
  unfold handleClose destroySuscription
  split
  · exact ⟨rfl, rfl⟩
  · split_ifs <;> exact ⟨rfl, rfl⟩

/-- Nothing is sent when a connection ends. -/
theorem output_finishFd {fd : Int} (h : finishFd fd w = .ok w') : w'.output = w.output := by
  unfold finishFd at h
  split_ifs at h
  · rw [Except.ok.inj h]
  · have hclosed : (selectorUnregisterFd handleClose w.sel fd w).2.2.output = w.output := by
      rw [FdSelector.unregister_closed]
      cases w.sel.item fd with
      | none => rfl
      | some it => exact (output_handleClose it w).1
    rcases hr : selectorUnregisterFd handleClose w.sel fd w with ⟨st, sel, u⟩
    rw [hr] at h hclosed
    cases st with
    | success =>
      obtain rfl := Except.ok.inj h
      exact hclosed
    | _ => cases h

theorem output_finishedSuscription (h : finishedSuscription key w = .ok w') :
    w'.output = w.output := by
  unfold finishedSuscription at h
  obtain ⟨w₁, h₁, h₂⟩ := bind_eq_ok.mp h
  rw [output_finishFd h₂, output_finishFd h₁]

theorem finishFd_same {c o fd : Int} (h : Ending v c o w w') (hfd : fd = c ∨ fd = o) :
    Parallel (Ending v c o) (finishFd fd w) (finishFd fd w') := by
  have hitem : w'.sel.item fd = w.sel.item fd := by
    rcases hfd with rfl | rfl
    · exact h.client
    · exact h.origin
  -- what unregistering one descriptor leaves
  have hafter : ∀ u : World, (selectorUnregisterFd handleClose u.sel fd u).2.2.output = u.output ∧
      (selectorUnregisterFd handleClose u.sel fd u).2.2.currOriginServer = u.currOriginServer := by
    intro u
    rw [FdSelector.unregister_closed]
    cases u.sel.item fd with
    | none => exact ⟨rfl, rfl⟩
    | some it => exact output_handleClose it u
  have hst : (selectorUnregisterFd handleClose w'.sel fd w').1 = .success ↔
      (selectorUnregisterFd handleClose w.sel fd w).1 = .success := by
    rw [FdSelector.unregister_status, FdSelector.unregister_status, hitem]
  have hitems : ∀ fd', w'.sel.item fd' = w.sel.item fd' →
      (selectorUnregisterFd handleClose w'.sel fd w').2.1.item fd' =
        (selectorUnregisterFd handleClose w.sel fd w).2.1.item fd' := by
    intro fd' hfd'
    rw [FdSelector.item_unregister, FdSelector.item_unregister, hfd']
  obtain ⟨hout, hserver⟩ := hafter w
  obtain ⟨hout', hserver'⟩ := hafter w'
  have hclient := hitems c h.client
  have horigin := hitems o h.origin
  unfold finishFd
  refine .ite Iff.rfl (fun _ => .ok h) fun _ => ?_
  rcases hr : selectorUnregisterFd handleClose w.sel fd w with ⟨st, sel, u⟩
  rcases hr' : selectorUnregisterFd handleClose w'.sel fd w' with ⟨st', sel', u'⟩
  rw [hr, hr'] at hst
  simp only [hr] at hout hserver hclient horigin
  simp only [hr'] at hout' hserver' hclient horigin
  cases st with
  | success =>
    obtain rfl := hst.mpr rfl
    refine .ok ⟨hclient, horigin, ⟨hserver.trans h.server.1, hserver'.trans h.server.2⟩, ?_⟩
    obtain ⟨out, hs, hs'⟩ := h.sent
    exact ⟨out, hout.trans hs, hout'.trans hs'⟩
  | _ => exact .error

theorem finishedSuscription_same (h : Seen key.data v w w') :
    Parallel (Ending v (w.heap key.data).clientFd (w.heap key.data).originFd)
      (finishedSuscription key w) (finishedSuscription key w') := by
  unfold finishedSuscription
  simp only [h.struct]
  refine Parallel.bind (finishFd_same ⟨h.client, h.origin, h.server, h.sent⟩ (.inl rfl))
    fun u u' hu => finishFd_same hu (.inr rfl)

end

end Pop3Proxy
