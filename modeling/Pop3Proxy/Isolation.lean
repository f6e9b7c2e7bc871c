/-
# Isolation

Every connection of a run behaves as it does when it has the program to itself: its struct, the
items of its two descriptors and what is sent by its handlers are those of a program in which it is
the only connection, which is given the same events in the same order.  Nothing that happens to
the other connections, to the pool or to the selector in between shows.
-/
import Pop3Proxy.Alone

namespace Pop3Proxy

/-! ## A connection alone -/

/-- What happens to a connection: one of its handlers is called, or its resolver stores a
result. -/
inductive Act where
  | handle (op : Op) (fd : Int) (io : Io)
  | resolved (result : Option AddressFamily)

/-- The memory of a program with one connection at `a`, just accepted. -/
def World.alone (a : Addr) (client : Int) (server : AddrType) : World where
  sel := (selectorRegister true (selectorNew itemsMaxSize) client .suscriptions OP_WRITE a).2
  heap := fun _ => .new client
  allocated := fun b => b = a
  pool := []
  poolSize := 0
  currOriginServer := server
  resolvers := []
  isOpen := fun fd => fd = client
  output := []

/-- The effect of an act on a program with one connection. -/
def Act.perform (a : Addr) (act : Act) (w : World) : Except Fault World :=
  match act with
  | handle op fd io => op.suscription io ⟨fd, a⟩ w
  | resolved result => .ok (w.modify a fun c => { c with originResolution := result })

/-- The life of a connection so far: the descriptor it was accepted with, what happened to it, and
what its handlers sent. -/
structure Life where
  client : Int
  acts : List Act
  sent : List Output

/-- The same life in a program with one connection. -/
def Life.alone (a : Addr) (server : AddrType) (l : Life) : Except Fault World :=
  l.acts.foldlM (fun w act => act.perform a w) (.alone a l.client server)

/-! ## The lives of a run -/

/-- What an event does to the lives of the connections. -/
inductive Happening where
  | began (a : Addr) (client : Int)
  | acted (a : Addr) (act : Act) (sent : List Output)

/-- A resolver that ends while the mutex is free. -/
def Proxy.resolvedBy (p : Proxy) (e : Event) : List Happening :=
  match p.phase, e with
  | .notifying _, _ => []
  | _, .resolved i result _ =>
    (p.world.resolvers[i]?).toList.map fun key => .acted key.data (.resolved result) []
  | _, _ => []

/-- What an event does to the lives, from the states before and after it. -/
def Proxy.happens (p : Proxy) (e : Event) (p' : Proxy) : List Happening :=
  match p.call e with
  | some c =>
    match c.handler with
    | .passive => (admittedBy c.io p.world p'.world).toList.map fun a =>
      Happening.began a (p'.world.heap a).clientFd
    | .suscriptions => [.acted c.key.data (.handle c.op c.key.fd (c.io.granted p.world))
      (p'.world.output.drop p.world.output.length)]
  | none => p.resolvedBy e

/-- A life after a happening. -/
def Life.after (a : Addr) (l : Option Life) : Happening → Option Life
  | .began b client => if b = a then some ⟨client, [], []⟩ else l
  | .acted b act sent =>
    if b = a then l.map fun l => { l with acts := l.acts ++ [act], sent := l.sent ++ sent } else l

/-- The last life at an address. -/
def lifeOf (a : Addr) (t : List Happening) : Option Life := t.foldl (Life.after a) none

section
variable {a b : Addr} {v : Scene} {w w' u : World} {p p' : Proxy} {t : List Happening}
  {server : AddrType}

theorem lifeOf_snoc (a : Addr) (t : List Happening) (o : Happening) :
    lifeOf a (t ++ [o]) = Life.after a (lifeOf a t) o := by
  rw [lifeOf, List.foldl_append]
  rfl

theorem lifeOf_other {o : Happening} (h : ∀ l, Life.after a l o = l) :
    lifeOf a (t ++ [o]) = lifeOf a t := by
  rw [lifeOf_snoc, h]

/-! ## One event in both programs -/

/-- What was sent so far is no longer told apart. -/
theorem Seen.anew (h : Seen a v w w') : Seen a ⟨v.server, w.output, w'.output⟩ w w' :=
  { h with sent := ⟨[], by simp, by simp⟩ }

/-- Only what the connection does not see has changed. -/
theorem Seen.congr (h : Seen a ⟨server, w.output, w'.output⟩ w w') (hsound : Sound u)
    (hheap : u.heap a = w.heap a) (hitem : ∀ fd, u.sel.item fd = w.sel.item fd)
    (hopen : u.isOpen = w.isOpen) (hserver : u.currOriginServer = w.currOriginServer) :
    Seen a ⟨server, u.output, w'.output⟩ u w' where
  sound := hsound
  sound' := h.sound'
  struct := by rw [hheap, h.struct]
  client := by rw [hheap, hitem, h.client]
  origin := by rw [hheap, hitem, h.origin]
  server := ⟨hserver.trans h.server.1, h.server.2⟩
  own := by
    intro fd hfd
    rw [hopen, hitem]
    exact h.own fd hfd
  sent := ⟨[], by simp, by simp⟩

/-- The items of its descriptors stay when another connection changes. -/
theorem Connected.items_frame {s : Option States} {l : Wires} (hc : Connected w a s l)
    (hf : Frame b w u) (hb : a ≠ b) {fd : Int} (hfd : (w.heap a).Has fd) :
    u.sel.item fd = w.sel.item fd := by
  have hkept : ∀ it : Item FdHandler Addr, w.sel.item fd = some it → it.data = a →
      u.sel.item fd = w.sel.item fd := by
    rintro it hit rfl
    rw [hit]
    exact (hf.items fd it fun hown => hb hown.2).mpr hit
  rcases hfd with rfl | rfl
  · exact hkept _ hc.wired.client rfl
  · have ho := hc.wired.origin
    cases hl : l.origin with
    | absent =>
      simp only [OriginIs, hl] at ho
      rw [ho, item_neg_one, item_neg_one]
    | leaked =>
      simp only [OriginIs, hl] at ho
      rw [(hf.unregistered _ ho.2.1 ho.2.2).2, ho.2.2]
    | armed i =>
      simp only [OriginIs, hl] at ho
      exact hkept _ ho.2 rfl

/-- **Another connection** goes on. -/
theorem Seen.frame (h : Seen a ⟨server, w.output, w'.output⟩ w w') {s : Option States} {l : Wires}
    (hc : Connected w a s l) (hf : Frame b w u) (hb : a ≠ b) (hsound : Sound u)
    (hserver : u.currOriginServer = server) : Seen a ⟨server, u.output, w'.output⟩ u w' where
  sound := hsound
  sound' := h.sound'
  struct := by rw [hf.heap a hb, h.struct]
  client := by rw [hf.heap a hb, hc.items_frame hf hb (.inl rfl), h.client]
  origin := by rw [hf.heap a hb, hc.items_frame hf hb (.inr rfl), h.origin]
  server := ⟨hserver, h.server.2⟩
  own := by
    intro fd hfd
    obtain ⟨hopen, howns⟩ := h.own fd hfd
    cases hit : w.sel.item fd with
    | none =>
      obtain ⟨hopen', hnone⟩ := hf.unregistered fd hopen hit
      refine ⟨hopen', fun it hit' => ?_⟩
      rw [hnone] at hit'
      cases hit'
    | some it =>
      have hown := howns it hit
      have hit' := (hf.items fd it fun hown' => hb (hown.2.symm.trans hown'.2)).mpr hit
      refine ⟨hsound.isOpen fd it hit', fun it' heq => ?_⟩
      rw [hit', Option.some.injEq] at heq
      exact heq ▸ hown
  sent := ⟨[], by simp, by simp⟩

/-- **An event of the connection** has the same effect in both programs. -/
theorem suscription_same {io : Io} {key : SelectorKey} {op : Op} {s : Option States} {l : Wires}
    (h : Seen key.data v w w') (hc : Connected w key.data s l)
    (hd : Dispatched w key.data s l key.fd op) (hrun : op.suscription io key w = .ok u) :
    ∃ u', op.suscription (io.granted w) key w' = .ok u' ∧ u.currOriginServer = v.server ∧
      (∃ out, u.output = v.sent ++ out ∧ u'.output = v.sent' ++ out) ∧
      (Live u key.data → Seen key.data v u u') := by
  have hcur' : (w'.heap key.data).current = s.map States.num := by
    rw [h.struct]
    exact hc.current
  have hfd : (w.heap key.data).Has key.fd := by
    cases hd with
    | client hfd _ | block hfd _ => exact .inl hfd
    | origin hfd _ _ => exact .inr hfd
  have hclient : stateOf s = .processConnection ∨ stateOf s = .resolvConnection →
      key.fd = (w.heap key.data).clientFd := by
    -- only the client's descriptor waits in these two states
    intro hs
    have hno : ∀ i, l.origin ≠ .armed i := by
      intro i hi
      have hall := hc.allowed
      rcases hs with hs | hs
      · rw [hall.none_of_first hs] at hall
        cases hall
        cases hi
      · rw [stateOf_eq hs (by simp)] at hall
        cases hall with
        | resolving => cases hi
        | reply hs => simp at hs
        | relay hs => simp at hs
    cases hd with
    | client hfd _ | block hfd _ => exact hfd
    | origin _ ho _ => exact absurd ho (hno _)
  have hfirst : Seen key.data v (firstWorld key s w) (firstWorld key s w') := by
    cases s with
    | none =>
      simp only [firstWorld, h.server.1, h.server.2]
      exact h.modify rfl rfl
    | some s => exact h
  have hfds : ((firstWorld key s w).heap key.data).clientFd = (w.heap key.data).clientFd ∧
      ((firstWorld key s w).heap key.data).originFd = (w.heap key.data).originFd := by
    cases s <;> simp [firstWorld, World.modify]
  have hgranted : io.granted (firstWorld key s w) = io.granted w := by cases s <;> rfl
  obtain ⟨f, next, w₁, w₂, hf, hf₁, hent, hcon, hres⟩ :=
    suscription_ran hc.allowed hd h.sound hc.wired hc.current hrun
  obtain ⟨f', hf', hpar⟩ := handler_same hfirst (by rw [Pop3.Has, hfds.1, hfds.2]; exact hfd)
    (by rw [hfds.1]; exact hclient) hf
  rw [hgranted] at hf'
  obtain ⟨⟨next', w₁'⟩, hf₁', heq, hseen₁⟩ := hpar _ hf₁
  simp only at heq hseen₁
  subst heq
  obtain ⟨w₂', hent', hseen₂⟩ := enter_same hseen₁ (stateOf s) next _ hent
  have hrun' : op.suscription (io.granted w) key w' = conclude key next w₂' := by
    rw [suscription_eq_runHandler op hcur', runHandler, hf']
    simp only [hf₁', ok_bind, hent']
  have hlast := hseen₂.modify (f := fun c => { c with current := some next.num }) rfl rfl
  rw [hrun']
  rw [conclude] at hcon ⊢
  -- an error ends the connection, and then there is nothing to compare
  rcases hres with ⟨rfl, hfin⟩ | ⟨herr, hupd, -⟩
  · rw [if_pos (.inl rfl)] at hcon ⊢
    obtain ⟨u', hu', hend⟩ := finishedSuscription_same hlast _ hcon
    refine ⟨u', hu', hend.server.1, hend.sent, fun hlive => ?_⟩
    obtain ⟨fd, it, hit, hown⟩ := hlive
    exact absurd hown (hfin.gone fd it hit)
  · have hnot : ¬ (next = .error ∨ next = .update) := not_or.mpr ⟨herr, hupd⟩
    rw [if_neg hnot] at hcon ⊢
    obtain rfl := Except.ok.inj hcon
    exact ⟨_, rfl, hlast.server.1, hlast.sent, fun _ => hlast⟩

/-! ## Every run -/

/-- The life of the connection `a` agrees with the life alone. -/
structure Agrees (server : AddrType) (a : Addr) (l : Option Life) (w : World) : Prop where
  lives : Live w a → l.isSome = true
  alone : ∀ l', l = some l' → ∃ u, l'.alone a server = .ok u ∧ u.output = l'.sent ∧
    (Live w a → Seen a ⟨server, w.output, u.output⟩ w u)

/-- What is kept along a run. -/
structure Isolated (server : AddrType) (p : Proxy) (t : List Happening) : Prop where
  tracked : ∃ t', Tracked p t'
  origin : p.world.currOriginServer = server
  agrees : ∀ a, Agrees server a (lifeOf a t) p.world

theorem Isolated.inv (h : Isolated server p t) : ProxyInv p := by
  obtain ⟨t', ht⟩ := h.tracked
  exact ht.inv

theorem output_accept (io : Io) (w : World) : (pop3PassiveAccept io w).output = w.output ∧
    (pop3PassiveAccept io w).currOriginServer = w.currOriginServer := by
  unfold pop3PassiveAccept
  cases w.fresh io.accept with
  | none => exact ⟨rfl, rfl⟩
  | some client =>
    simp only
    split_ifs
    · exact ⟨rfl, rfl⟩
    · cases hnew : pop3New io (w.openFd client) client with
      | none => exact ⟨rfl, rfl⟩
      | some r =>
        obtain ⟨a, w₁⟩ := r
        have hsame : w₁.output = w.output ∧ w₁.currOriginServer = w.currOriginServer := by
          unfold pop3New at hnew
          split at hnew
          · simp only [Option.some.injEq, Prod.mk.injEq] at hnew
            obtain ⟨-, rfl⟩ := hnew
            exact ⟨rfl, rfl⟩
          · split_ifs at hnew
            simp only [Option.some.injEq, Prod.mk.injEq] at hnew
            obtain ⟨-, rfl⟩ := hnew
            exact ⟨rfl, rfl⟩
        show (if _ then _ else _ : World).output = _ ∧
          (if _ then _ else _ : World).currOriginServer = _
        split_ifs
        · have hclose := output_handleClose ⟨client, OP_WRITE, .suscriptions, a⟩
            ((w₁.register io client OP_WRITE a).2.closeFd client)
          exact ⟨hclose.1.trans hsame.1, hclose.2.trans hsame.2⟩
        · exact hsame

/-- Nothing that a connection sees has changed, and nothing happened to it. -/
theorem Agrees.congr {l : Option Life} (h : Agrees server a l w) (hsound : Sound u)
    (hheap : u.heap a = w.heap a) (hitem : ∀ fd, u.sel.item fd = w.sel.item fd)
    (hopen : u.isOpen = w.isOpen) (hserver : u.currOriginServer = w.currOriginServer) :
    Agrees server a l u := by
  have hlive : Live u a ↔ Live w a := by simp only [Live, hitem]
  refine ⟨fun hl => h.lives (hlive.mp hl), fun l' hl' => ?_⟩
  obtain ⟨w', hw', hout, hseen⟩ := h.alone l' hl'
  exact ⟨w', hw', hout, fun hl => (hseen (hlive.mp hl)).congr hsound hheap hitem hopen hserver⟩

/-- Something has happened to another connection only. -/
theorem Agrees.frame {l : Option Life} {pending : List Int} (h : Agrees server a l w)
    (hinv : WorldInv w pending) (hf : Frame b w u) (hb : a ≠ b) (hsound : Sound u)
    (hserver : u.currOriginServer = server) : Agrees server a l u := by
  have hlive := hf.live hb
  refine ⟨fun hl => h.lives (hlive.mp hl), fun l' hl' => ?_⟩
  obtain ⟨w', hw', hout, hseen⟩ := h.alone l' hl'
  refine ⟨w', hw', hout, fun hl => ?_⟩
  obtain ⟨s, ws, hc⟩ := hinv.connected a (hlive.mp hl)
  exact (hseen (hlive.mp hl)).frame hc hf hb hsound hserver

/-- A connection that is accepted is as one that is accepted alone. -/
theorem agrees_began (hsound : Sound w) {client : Int} (hclient : w.isOpen client = true)
    (hnew : w.heap a = .new client)
    (hitem : w.sel.item client = some ⟨client, OP_WRITE, .suscriptions, a⟩)
    (hserver : w.currOriginServer = server) : Agrees server a (some ⟨client, [], []⟩) w := by
  have hvalid := (FdSelector.item_eq_some.mp hitem).1
  have halone : ∀ fd, (World.alone a client server).sel.item fd =
      if fd = client then some ⟨client, OP_WRITE, .suscriptions, a⟩ else none := by
    intro fd
    have hnone : (selectorNew itemsMaxSize : FdSelector FdHandler Addr).item fd = none := by
      simp [FdSelector.item, selectorNew, ensureCapacity]
    rcases FdSelector.register_cases true FdSelector.wf_selectorNew.fdSize client
      FdHandler.suscriptions OP_WRITE a with ⟨hst, -⟩ | ⟨-, -, hsome⟩
    · rw [World.alone, FdSelector.item_register FdSelector.wf_selectorNew.fdSize hst, hnone]
    · have hit := hsome hvalid
      simp [FdSelector.item, selectorNew, ensureCapacity] at hit
  refine ⟨fun _ => rfl, fun l' hl' => ?_⟩
  obtain rfl := Option.some.inj hl'
  refine ⟨.alone a client server, rfl, rfl, fun _ => ?_⟩
  exact
  { sound := hsound
    sound' := by
      refine ⟨FdSelector.wf_register FdSelector.wf_selectorNew _ _ _ _ _, fun fd it hit => ?_⟩
      rw [halone] at hit
      split_ifs at hit with heq
      simp [World.alone, heq]
    struct := hnew.symm
    client := by
      rw [hnew, halone]
      exact (if_pos rfl).trans hitem.symm
    origin := by
      rw [hnew]
      rfl
    server := ⟨hserver, rfl⟩
    own := by
      intro fd hfd
      obtain rfl : fd = client := by simpa [World.alone] using hfd
      refine ⟨hclient, fun it hit => ?_⟩
      rw [hitem] at hit
      obtain rfl := Option.some.inj hit
      exact ⟨rfl, rfl⟩
    sent := ⟨[], by simp, by simp⟩ }

theorem alone_snoc (l : Life) (act : Act) (sent : List Output) {u : World}
    (h : l.alone a server = .ok u) :
    Life.alone a server { l with acts := l.acts ++ [act], sent := l.sent ++ sent } =
      act.perform a u := by
  rw [Life.alone] at h
  rw [Life.alone, List.foldlM_append, h]
  simp only [ok_bind, List.foldlM_cons, List.foldlM_nil]
  cases act.perform a u <;> rfl

/-! ### Events without a call -/

theorem quiet_output (p : Proxy) (e : Event) : (p.quiet e).world.output = p.world.output ∧
    (p.quiet e).world.currOriginServer = p.world.currOriginServer := by
  have hresolved : ∀ i result malloc,
      (resolvConnectionBlocking i result malloc p.world).output = p.world.output ∧
        (resolvConnectionBlocking i result malloc p.world).currOriginServer =
          p.world.currOriginServer := by
    intro i result malloc
    unfold resolvConnectionBlocking
    cases p.world.resolvers[i]? with
    | none => exact ⟨rfl, rfl⟩
    | some key => cases malloc <;> exact ⟨rfl, rfl⟩
  obtain ⟨w, phase⟩ := p
  cases phase with
  | idle =>
    cases e with
    | resolved i result malloc => exact hresolved i result malloc
    | select _ _ | interrupted | next _ => exact ⟨rfl, rfl⟩
  | reading pass =>
    cases e with
    | resolved i result malloc => exact hresolved i result malloc
    | select _ _ | interrupted => exact ⟨rfl, rfl⟩
    | next io =>
      simp only [Proxy.quiet]
      split_ifs <;> exact ⟨rfl, rfl⟩
  | writing pass key =>
    cases e with
    | resolved i result malloc => exact hresolved i result malloc
    | select _ _ | interrupted | next _ => exact ⟨rfl, rfl⟩
  | notifying jobs => cases jobs <;> cases e <;> exact ⟨rfl, rfl⟩

/-- A resolver that ends changes the struct of its connection; any other event without a call
changes none. -/
theorem ProxyInv.resolvedBy_cases (h : ProxyInv p) {e : Event} (hc : p.call e = none) :
    p.resolvedBy e = [] ∧ (p.quiet e).world.heap = p.world.heap ∨
      ∃ key result, key ∈ p.world.resolvers ∧
        p.resolvedBy e = [.acted key.data (.resolved result) []] ∧
        (p.quiet e).world.heap = Function.update p.world.heap key.data
          { p.world.heap key.data with originResolution := result } := by
  by_cases hfree : (∀ jobs, p.phase ≠ .notifying jobs) ∧
      ∃ i result malloc, e = .resolved i result malloc
  · obtain ⟨hphase, i, result, malloc, rfl⟩ := hfree
    have hby : p.resolvedBy (.resolved i result malloc) =
          ((p.world.resolvers[i]?).toList.map fun key => .acted key.data (.resolved result) []) ∧
        (p.quiet (.resolved i result malloc)).world =
          resolvConnectionBlocking i result malloc p.world := by
      obtain ⟨w, phase⟩ := p
      cases phase with
      | notifying jobs => exact absurd rfl (hphase jobs)
      | idle | reading _ | writing _ _ => exact ⟨rfl, rfl⟩
    rw [hby.1, hby.2, resolvConnectionBlocking]
    cases hi : p.world.resolvers[i]? with
    | none => exact .inl ⟨rfl, rfl⟩
    | some key =>
      refine .inr ⟨key, result, List.mem_of_getElem? hi, rfl, ?_⟩
      cases malloc <;> rfl
  · left
    rcases h.quiet_cases hc with ⟨hsame, -⟩ | ⟨hphase, i, result, malloc, rfl, -⟩
    · refine ⟨?_, hsame.heap⟩
      obtain ⟨w, phase⟩ := p
      cases phase with
      | notifying jobs => rfl
      | idle | reading _ | writing _ _ =>
        cases e with
        | resolved i result malloc => exact absurd ⟨by simp, i, result, malloc, rfl⟩ hfree
        | select _ _ | interrupted | next _ => rfl
    · exact absurd ⟨hphase, i, result, malloc, rfl⟩ hfree

/-- **An event without a call.** -/
theorem Isolated.quieted {e : Event} (h : Isolated server p t) (hc : p.call e = none) :
    Isolated server (p.quiet e) (t ++ p.happens e (p.quiet e)) := by
  obtain ⟨t', htracked⟩ := h.tracked
  have hinv := h.inv.quieted hc
  obtain ⟨hlinks, -⟩ := quiet_links p e
  obtain ⟨hout, hserver⟩ := quiet_output p e
  have hshows : p.happens e (p.quiet e) = p.resolvedBy e := by simp only [Proxy.happens, hc]
  refine ⟨⟨_, htracked.quieted hc⟩, hserver.trans h.origin, fun a => ?_⟩
  rw [hshows]
  rcases h.inv.resolvedBy_cases hc with ⟨hnil, hheap⟩ | ⟨key, result, hmem, hby, hheap⟩
  · rw [hnil, List.append_nil]
    exact (h.agrees a).congr hinv.world.sound (by rw [hheap]) hlinks.item hlinks.isOpen hserver
  · rw [hby]
    by_cases ha : a = key.data
    · subst ha
      -- the resolver of a connection that is still there
      obtain ⟨s, -, hhold⟩ := htracked.status key.data
      obtain rfl := hhold.waiting hmem
      have hlive := hhold.1.live
      obtain ⟨l, hl⟩ := Option.isSome_iff_exists.mp ((h.agrees key.data).lives hlive)
      obtain ⟨u, hu, hsent, hseen⟩ := (h.agrees key.data).alone l hl
      have hafter : lifeOf key.data (t ++ [Happening.acted key.data (.resolved result) []]) =
          some { l with acts := l.acts ++ [.resolved result], sent := l.sent ++ [] } := by
        rw [lifeOf_snoc, hl, Life.after, if_pos rfl, Option.map_some]
      rw [hafter]
      refine ⟨fun _ => rfl, fun l' hl' => ?_⟩
      obtain rfl := Option.some.inj hl'
      refine ⟨_, alone_snoc l _ [] hu, by simpa [World.modify] using hsent, fun _ => ?_⟩
      have hset := (hseen hlive).modify
        (f := fun c => { c with originResolution := result }) rfl rfl
      refine Seen.congr hset.anew hinv.world.sound ?_ hlinks.item hlinks.isOpen hserver
      rw [hheap]
      rfl
    · have hsame : lifeOf a (t ++ [.acted key.data (.resolved result) []]) = lifeOf a t :=
        lifeOf_other fun l => if_neg (Ne.symm ha)
      rw [hsame]
      exact (h.agrees a).congr hinv.world.sound (by rw [hheap, Function.update_of_ne ha])
        hlinks.item hlinks.isOpen hserver

/-! ### Handler calls -/

/-- **An accept.** -/
theorem Isolated.accepts {e : Event} {c : Call} (h : Isolated server p t)
    (hc : p.call e = some c) (hh : c.handler = .passive)
    (hw' : p'.world = pop3PassiveAccept c.io p.world) (htracked : ∃ t', Tracked p' t') :
    Isolated server p' (t ++ p.happens e p') := by
  have hshows : p.happens e p' = (admittedBy c.io p.world p'.world).toList.map fun a =>
      Happening.began a (p'.world.heap a).clientFd := by
    simp only [Proxy.happens, hc, hh]
  have hsound := h.inv.world.sound
  obtain ⟨-, hserver⟩ := output_accept c.io p.world
  rw [← hw', h.origin] at hserver
  refine ⟨htracked, hserver, fun a => ?_⟩
  rw [hshows]
  rcases pop3PassiveAccept_cases c.io hsound h.inv.world.pool with heq | ⟨b, hadm | hrej⟩
  -- nobody is accepted
  · rw [← hw'] at heq
    rw [admittedBy_none fun fd it hit => ⟨it, by rwa [heq] at hit⟩, Option.toList_none,
      List.map_nil, List.append_nil, heq]
    exact h.agrees a
  -- a new connection
  · rw [← hw'] at hadm
    rw [hadm.admittedBy hsound, Option.toList_some, List.map_singleton, lifeOf_snoc]
    by_cases ha : b = a
    · subst ha
      obtain ⟨client, hnew⟩ := hadm.new
      have hclient : (p'.world.heap b).clientFd = client := by rw [hnew]; rfl
      have hopen : p'.world.isOpen client = true := by
        rw [hadm.isOpen, hclient, Function.update_self]
      have hit := hadm.wired.client
      rw [Life.after, if_pos rfl]
      rw [hclient] at hit ⊢
      exact agrees_began hadm.sound hopen hnew hit hserver
    · rw [Life.after, if_neg ha]
      exact (h.agrees a).frame h.inv.world hadm.frame (Ne.symm ha) hadm.sound hserver
  -- the struct goes back at once
  · rw [← hw'] at hrej
    have hnone : admittedBy c.io p.world p'.world = none := by
      refine admittedBy_none fun fd it hit => ⟨it, (hrej.frame.items fd it fun hown => ?_).mp hit⟩
      exact hrej.notLive' ⟨fd, it, hit, hown⟩
    rw [hnone, Option.toList_none, List.map_nil, List.append_nil]
    by_cases ha : a = b
    · subst ha
      refine ⟨fun hl => absurd hl hrej.notLive', fun l hl => ?_⟩
      obtain ⟨u, hu, hsent, -⟩ := (h.agrees a).alone l hl
      exact ⟨u, hu, hsent, fun hl => absurd hl hrej.notLive'⟩
    · exact (h.agrees a).frame h.inv.world hrej.frame ha hrej.sound hserver

/-- **A handler of a connection.** -/
theorem Isolated.handles {e : Event} {c : Call} {s : Option States} {l : Wires}
    (h : Isolated server p t) (hc : p.call e = some c) (hh : c.handler = .suscriptions)
    (hconn : Connected p.world c.key.data s l)
    (hd : Dispatched p.world c.key.data s l c.key.fd c.op)
    (hrun : c.op.suscription c.io c.key p.world = .ok p'.world)
    (hframe : Frame c.key.data p.world p'.world) (htracked : ∃ t', Tracked p' t') :
    Isolated server p' (t ++ p.happens e p') := by
  have hshows : p.happens e p' = [.acted c.key.data (.handle c.op c.key.fd (c.io.granted p.world))
      (p'.world.output.drop p.world.output.length)] := by
    simp only [Proxy.happens, hc, hh]
  obtain ⟨life, hlife⟩ := Option.isSome_iff_exists.mp ((h.agrees _).lives hconn.live)
  obtain ⟨u, hu, hsent, hseen⟩ := (h.agrees c.key.data).alone life hlife
  obtain ⟨u', hu', hserver, ⟨out, hout, hout'⟩, hseen'⟩ :=
    suscription_same (hseen hconn.live) hconn hd hrun
  have hsound : Sound p'.world := by
    obtain ⟨t', ht'⟩ := htracked
    exact ht'.inv.world.sound
  have hdrop : p'.world.output.drop p.world.output.length = out := by
    rw [hout, List.drop_left]
  refine ⟨htracked, hserver, fun a => ?_⟩
  rw [hshows, hdrop, lifeOf_snoc]
  by_cases ha : c.key.data = a
  · subst ha
    rw [Life.after, if_pos rfl, hlife, Option.map_some]
    refine ⟨fun _ => rfl, fun l' hl' => ?_⟩
    obtain rfl := Option.some.inj hl'
    refine ⟨u', ?_, ?_, fun hlive => (hseen' hlive).anew⟩
    · rw [alone_snoc life _ out hu]
      exact hu'
    · rw [hout', hsent]
  · rw [Life.after, if_neg ha]
    exact (h.agrees a).frame h.inv.world hframe (Ne.symm ha) hsound hserver

/-- **One event.** -/
theorem Isolated.step {e : Event} (h : Isolated server p t) (hs : p.step e = .ok p') :
    Isolated server p' (t ++ p.happens e p') := by
  obtain ⟨t', ht'⟩ := h.tracked
  have htracked : ∃ t', Tracked p' t' := ⟨_, ht'.step hs⟩
  rw [step_eq] at hs
  cases hc : p.call e with
  | none =>
    simp only [hc, Except.ok.injEq] at hs
    subst hs
    exact h.quieted hc
  | some c =>
    simp only [hc] at hs
    obtain ⟨w', hrun, rfl⟩ := map_eq_ok.mp hs
    obtain ⟨it, hit, hdata, hhandler, hsite⟩ := h.inv.call_spec hc
    cases hh : it.handler with
    | passive =>
      rw [Call.run_passive h.inv.world hit hhandler hsite.op hh, Except.ok.injEq] at hrun
      exact h.accepts hc (hhandler.trans hh) hrun.symm htracked
    | suscriptions =>
      obtain ⟨s, l, hconn⟩ := h.inv.world.connected it.data ⟨_, it, hit, hh, rfl⟩
      obtain ⟨hrun', hd⟩ := Call.run_suscription h.inv.world hit hhandler hsite.op hh hconn
      have hframe : Frame it.data p.world w' := by
        rcases Call.run_frame h.inv.world hit hdata hhandler hsite.op hrun with ⟨hp, -⟩ | ⟨-, hf⟩
        · rw [hh] at hp
          cases hp
        · exact hf
      rw [← hdata] at hconn hd hframe
      rw [hrun'] at hrun
      exact h.handles hc (hhandler.trans hh) hconn hd hrun hframe htracked

theorem isolated_start (server : Int) (origin : AddrType) :
    Isolated origin (.start server origin) [] where
  tracked := ⟨[], tracked_start server origin⟩
  origin := rfl
  agrees a := by
    refine ⟨?_, fun l hl => by cases hl⟩
    rintro ⟨fd, it, hit, hown, -⟩
    rw [(start_item hit).2] at hown
    cases hown

end

/-- **Isolation.**  In every run, whatever its peers, the system calls and the resolvers do, each
connection there is has had a life, and lived alone it comes to the same: the same handlers
return, they have sent the same, and as long as the connection is there its struct and the items
of its two descriptors are the same, and whatever the connection alone holds open is open and not
another connection's. -/
theorem lives_alone (server : Int) (origin : AddrType) (es : List Event) :
    let p := proxySystem.last (.start server origin) es
    let t := proxySystem.observe Proxy.happens (.start server origin) es
    ∀ a, (Live p.world a → (lifeOf a t).isSome = true) ∧
      ∀ l, lifeOf a t = some l → ∃ w, l.alone a origin = .ok w ∧ w.output = l.sent ∧
        (Live p.world a →
          w.heap a = p.world.heap a ∧
          w.sel.item (p.world.heap a).clientFd = p.world.sel.item (p.world.heap a).clientFd ∧
          w.sel.item (p.world.heap a).originFd = p.world.sel.item (p.world.heap a).originFd ∧
          ∀ fd, w.isOpen fd = true → p.world.isOpen fd = true ∧
            ∀ it, p.world.sel.item fd = some it → Owns a it) := by
  intro p t a
  have hstep : ∀ p t e p', Isolated origin p t → proxySystem.step p e = .ok p' →
      Isolated origin p' (t ++ p.happens e p') := fun _ _ _ _ hi hs => hi.step hs
  have h : Isolated origin p t :=
    EventSystem.System.history (I := Isolated origin) hstep (isolated_start server origin) es
  refine ⟨(h.agrees a).lives, fun l hl => ?_⟩
  obtain ⟨w, hw, hsent, hseen⟩ := (h.agrees a).alone l hl
  refine ⟨w, hw, hsent, fun hlive => ?_⟩
  have hs := hseen hlive
  exact ⟨hs.struct, hs.client, hs.origin, hs.own⟩

end Pop3Proxy
