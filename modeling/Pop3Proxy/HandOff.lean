/-
# The hand-off of resolved names

A resolver thread is started for a connection, stores the address it finds and
posts a job that names the connection by its client descriptor only; the drain
of the jobs calls the connection back.  The history of a run records these
happenings, `HandOff` is how far the history has got for one address, and the
invariant ties this status to the program's memory.
-/
import Pop3Proxy.Runs

namespace Pop3Proxy

/-! ## The history -/

/-- What an event does that matters to the hand-off. -/
inductive Occurrence where
  /-- a new connection at this address -/
  | accepted (a : Addr)
  /-- the first handler of a connection starts a resolver with this key -/
  | asked (key : SelectorKey)
  /-- the resolver with this key has stored its result and posts its job -/
  | posted (key : SelectorKey) (result : Option AddressFamily)
  /-- a handler of a connection is called -/
  | called (op : Op) (key : SelectorKey)
  deriving DecidableEq, Repr

/-- The address an occurrence is about. -/
def Occurrence.addr : Occurrence → Addr
  | accepted a => a
  | asked key => key.data
  | posted key _ => key.data
  | called _ key => key.data

/-- The connection an `accept` has registered. -/
def admittedBy (io : Io) (w w' : World) : Option Addr :=
  io.accept.bind fun fd => if (w.sel.item fd).isSome then none else (w'.sel.item fd).map (·.data)

/-- What an event without a call shows: a resolver that gets its job posted. -/
def Proxy.postedBy (p : Proxy) (e : Event) : List Occurrence :=
  match p.phase, e with
  | .notifying _, _ => []
  | _, .resolved i result true => (p.world.resolvers[i]?).toList.map fun key => .posted key result
  | _, _ => []

/-- What an event shows, from the states before and after it. -/
def Proxy.shows (p : Proxy) (e : Event) (p' : Proxy) : List Occurrence :=
  match p.call e with
  | some c =>
    match c.handler with
    | .passive => (admittedBy c.io p.world p'.world).toList.map .accepted
    | .suscriptions =>
      match p'.world.resolvers.drop p.world.resolvers.length with
      | [] => [.called c.op c.key]
      | keys => keys.map .asked
  | none => p.postedBy e

/-- The descriptor of the job that is posted. -/
def Occurrence.job : Occurrence → Option Int
  | posted key _ => some key.fd
  | _ => none

/-- The descriptor of the connection that is called back. -/
def Occurrence.callback : Occurrence → Option Int
  | called .block key => some key.fd
  | _ => none

/-- The descriptors of the jobs posted. -/
def posted (t : List Occurrence) : List Int := t.filterMap (·.job)

/-- The descriptors of the callbacks made. -/
def delivered (t : List Occurrence) : List Int := t.filterMap (·.callback)

/-! ## The status of an address -/

/-- How far the hand-off is for the connection at an address. -/
inductive HandOff where
  /-- there has been no connection -/
  | absent
  /-- accepted, no handler called -/
  | fresh
  /-- its resolver was started from this descriptor -/
  | waiting (fd : Int)
  /-- its resolver has stored the result and posted the job -/
  | found (fd : Int) (result : Option AddressFamily)
  /-- it asks for nothing any more -/
  | settled
  deriving DecidableEq, Repr

/-- What may happen to the connection `a` in a status, and the status it leads to:
a connection asks once, at its first event; its resolver answers once; it is
called back once, after that; and nothing else happens in between. -/
def HandOff.advance (a : Addr) (s : HandOff) (o : Occurrence) : Option HandOff :=
  if o.addr ≠ a then some s
  else
    match s, o with
    | .absent, .accepted _ => some .fresh
    | .settled, .accepted _ => some .fresh
    | .fresh, .asked key => some (.waiting key.fd)
    | .waiting fd, .posted key result => if key.fd = fd then some (.found fd result) else none
    | .found fd _, .called .block key => if key.fd = fd then some .settled else none
    | .fresh, .called op _ => if op = .block then none else some .settled
    | .settled, .called op _ => if op = .block then none else some .settled
    | _, _ => none

/-- The status a history leads to, if it is possible. -/
def progress (a : Addr) (t : List Occurrence) : Option HandOff :=
    t.foldlM (HandOff.advance a) .absent

/-- No resolver works for the connection `a`. -/
def NoThread (p : Proxy) (a : Addr) : Prop := ∀ key ∈ p.world.resolvers, key.data ≠ a

/-- No job names the client descriptor of the connection `a`. -/
def NoJob (p : Proxy) (a : Addr) : Prop := (p.world.heap a).clientFd ∉ p.jobs

/-- The connection `a` is in `RESOLV_CONNECTION`, on the client descriptor `fd`. -/
structure Resolving (p : Proxy) (a : Addr) (fd : Int) : Prop where
  live : Live p.world a
  current : (p.world.heap a).current = some States.resolvConnection.num
  clientFd : (p.world.heap a).clientFd = fd

/-- What a status says about the program's memory. -/
def HandOff.Holds (p : Proxy) (a : Addr) : HandOff → Prop
  | .absent => ¬ Live p.world a ∧ NoThread p a
  | .fresh => Live p.world a ∧ (p.world.heap a).current = none ∧ NoThread p a ∧ NoJob p a
  | .waiting fd => Resolving p a fd ∧ NoJob p a ∧
      ∀ key ∈ p.world.resolvers, key.data = a → key.fd = fd
  | .found fd result => Resolving p a fd ∧ NoThread p a ∧
      (p.world.heap a).originResolution = result
  | .settled => NoThread p a ∧
      (Live p.world a → (p.world.heap a).current ≠ none ∧ NoJob p a)

section
variable {p p' : Proxy} {a b : Addr} {t : List Occurrence}

/-! ## Histories -/

theorem progress_snoc {s : HandOff} (h : progress a t = some s) (o : Occurrence) :
    progress a (t ++ [o]) = s.advance a o := by
  rw [progress, List.foldlM_append]
  rw [progress] at h
  simp [h]

theorem advance_other {o : Occurrence} (h : o.addr ≠ a) (s : HandOff) :
    s.advance a o = some s := if_pos h

theorem posted_snoc (t : List Occurrence) (o : Occurrence) :
    posted (t ++ [o]) = posted t ++ o.job.toList := by
  cases h : o.job <;> simp [posted, h]

theorem delivered_snoc (t : List Occurrence) (o : Occurrence) :
    delivered (t ++ [o]) = delivered t ++ o.callback.toList := by
  cases h : o.callback <;> simp [delivered, h]

/-- Nothing about the memory of the connection `b` changes. -/
structure Untouched (b : Addr) (p p' : Proxy) : Prop where
  live : Live p'.world b ↔ Live p.world b
  heap : p'.world.heap b = p.world.heap b
  threads : ∀ key ∈ p'.world.resolvers, key.data = b → key ∈ p.world.resolvers
  jobs : Live p.world b → NoJob p b → NoJob p' b

theorem Untouched.noThread (h : Untouched b p p') (hn : NoThread p b) : NoThread p' b :=
  fun key hkey heq => hn key (h.threads key hkey heq) heq

theorem Untouched.resolving {fd : Int} (h : Untouched b p p') (hr : Resolving p b fd) :
    Resolving p' b fd :=
  ⟨h.live.mpr hr.live, by rw [h.heap]; exact hr.current, by rw [h.heap]; exact hr.clientFd⟩

/-- **The frame rule** for the status. -/
theorem HandOff.Holds.untouched {s : HandOff} (hs : s.Holds p b) (h : Untouched b p p') :
    s.Holds p' b := by
  cases s with
  | absent => exact ⟨mt h.live.mp hs.1, h.noThread hs.2⟩
  | fresh =>
    obtain ⟨hl, hc, ht, hj⟩ := hs
    exact ⟨h.live.mpr hl, by rw [h.heap]; exact hc, h.noThread ht, h.jobs hl hj⟩
  | waiting fd =>
    obtain ⟨hr, hj, ht⟩ := hs
    exact ⟨h.resolving hr, h.jobs hr.live hj,
      fun key hkey heq => ht key (h.threads key hkey heq) heq⟩
  | found fd result =>
    obtain ⟨hr, ht, hres⟩ := hs
    exact ⟨h.resolving hr, h.noThread ht, by rw [h.heap]; exact hres⟩
  | settled =>
    obtain ⟨ht, hl⟩ := hs
    refine ⟨h.noThread ht, fun hlive => ?_⟩
    obtain ⟨hc, hj⟩ := hl (h.live.mp hlive)
    exact ⟨by rw [h.heap]; exact hc, h.jobs (h.live.mp hlive) hj⟩

theorem Untouched.of_frame (hf : Frame a p.world p'.world) (hb : b ≠ a)
    (hthreads : ∀ key ∈ p'.world.resolvers, key.data = b → key ∈ p.world.resolvers)
    (hjobs : ∀ fd ∈ p'.jobs, fd ∈ p.jobs) : Untouched b p p' where
  live := hf.live hb
  heap := hf.heap b hb
  threads := hthreads
  jobs _ hn hmem := by
    rw [hf.heap b hb] at hmem
    exact hn (hjobs _ hmem)

/-- What is kept along a run. -/
structure Tracked (p : Proxy) (t : List Occurrence) : Prop where
  inv : ProxyInv p
  jobs : (posted t).Perm (delivered t ++ p.jobs)
  status : ∀ a, ∃ s, progress a t = some s ∧ s.Holds p a

/-- Nothing that happens is about the hand-off. -/
theorem Tracked.silent (h : Tracked p t) (hinv : ProxyInv p') (hjobs : p'.jobs = p.jobs)
    (hsame : ∀ b, Untouched b p p') : Tracked p' (t ++ []) where
  inv := hinv
  jobs := by
    rw [List.append_nil, hjobs]
    exact h.jobs
  status b := by
    obtain ⟨s, hs, hh⟩ := h.status b
    rw [List.append_nil]
    exact ⟨s, hs, hh.untouched (hsame b)⟩

/-- Something that happens is about the connection `a`. -/
theorem Tracked.snoc (h : Tracked p t) {o : Occurrence} (hinv : ProxyInv p')
    (hjobs : (posted (t ++ [o])).Perm (delivered (t ++ [o]) ++ p'.jobs))
    (hsame : ∀ b, b ≠ o.addr → Untouched b p p')
    (hmoves : ∀ s : HandOff, s.Holds p o.addr → ∃ s', s.advance o.addr o = some s' ∧
    s'.Holds p' o.addr) :
    Tracked p' (t ++ [o]) where
  inv := hinv
  jobs := hjobs
  status b := by
    obtain ⟨s, hs, hh⟩ := h.status b
    rw [progress_snoc hs]
    by_cases hb : b = o.addr
    · subst hb
      exact hmoves s hh
    · exact ⟨s, advance_other (Ne.symm hb) s, hh.untouched (hsame b hb)⟩

/-! ## Events without a call -/

/-- Only the place of the loop is another one. -/
structure SameHandOff (p p' : Proxy) : Prop where
  heap : p'.world.heap = p.world.heap
  item : ∀ fd, p'.world.sel.item fd = p.world.sel.item fd
  resolvers : p'.world.resolvers = p.world.resolvers
  jobs : p'.jobs = p.jobs

theorem SameHandOff.untouched (h : SameHandOff p p') (b : Addr) : Untouched b p p' where
  live := by simp only [Live, h.item]
  heap := by rw [h.heap]
  threads key hkey _ := by rwa [h.resolvers] at hkey
  jobs _ hn := by rwa [NoJob, h.heap, h.jobs]

/-- An event without a call leaves everything as it is, unless a resolver ends
while the mutex is free. -/
theorem ProxyInv.quiet_cases (h : ProxyInv p) {e : Event} (hc : p.call e = none) :
    SameHandOff p (p.quiet e) ∧ p.shows e (p.quiet e) = [] ∨
      (∀ jobs, p.phase ≠ .notifying jobs) ∧ ∃ i result malloc, e = .resolved i result malloc ∧
        p.quiet e = { p with world := resolvConnectionBlocking i result malloc p.world } := by
  obtain ⟨w, phase⟩ := p
  have hshows : ∀ p', Proxy.shows ⟨w, phase⟩ e p' = Proxy.postedBy ⟨w, phase⟩ e := fun p' => by
    simp only [Proxy.shows, hc]
  rw [hshows]
  cases phase with
  | idle =>
    cases e with
    | resolved i result malloc => exact .inr ⟨by simp, i, result, malloc, rfl, rfl⟩
    | select _ _ | interrupted | next _ => exact .inl ⟨⟨rfl, fun _ => rfl, rfl, rfl⟩, rfl⟩
  | reading pass =>
    cases e with
    | resolved i result malloc => exact .inr ⟨by simp, i, result, malloc, rfl, rfl⟩
    | select _ _ | interrupted => exact .inl ⟨⟨rfl, fun _ => rfl, rfl, rfl⟩, rfl⟩
    | next io =>
      refine .inl ⟨?_, rfl⟩
      simp only [Proxy.quiet]
      split_ifs <;> exact ⟨rfl, fun _ => rfl, rfl, rfl⟩
  | writing pass key =>
    cases e with
    | resolved i result malloc => exact .inr ⟨by simp, i, result, malloc, rfl, rfl⟩
    | select _ _ | interrupted | next _ => exact .inl ⟨⟨rfl, fun _ => rfl, rfl, rfl⟩, rfl⟩
  | notifying jobs =>
    refine .inl ⟨?_, rfl⟩
    cases jobs with
    | nil => cases e <;> exact ⟨rfl, fun _ => rfl, rfl, rfl⟩
    | cons fd jobs =>
      cases e with
      | next io => exact absurd hc (h.call_job io)
      | select _ _ | interrupted | resolved _ _ _ => exact ⟨rfl, fun _ => rfl, rfl, rfl⟩

/-- A resolver that runs is one the connection of its key waits for. -/
theorem HandOff.Holds.waiting {s : HandOff} {key : SelectorKey} (h : s.Holds p key.data)
    (hmem : key ∈ p.world.resolvers) : s = .waiting key.fd := by
  cases s with
  | absent => exact absurd rfl (h.2 key hmem)
  | fresh => exact absurd rfl (h.2.2.1 key hmem)
  | waiting fd => rw [h.2.2 key hmem rfl]
  | found fd result => exact absurd rfl (h.2.1 key hmem)
  | settled => exact absurd rfl (h.1 key hmem)

/-- Connections have different client descriptors. -/
theorem WorldInv.clientFd_inj {w : World} {pending : List Int} (h : WorldInv w pending)
    (ha : Live w a) (hb : Live w b) (heq : (w.heap a).clientFd = (w.heap b).clientFd) : a = b := by
  obtain ⟨s, l, hca⟩ := h.connected a ha
  obtain ⟨s', l', hcb⟩ := h.connected b hb
  have hit := hca.wired.client
  rw [heq, hcb.wired.client, Option.some.injEq] at hit
  exact (congrArg Item.data hit).symm

/-- Two resolvers have different descriptors. -/
theorem ProxyInv.resolvers_nodup (h : ProxyInv p) : (p.world.resolvers.map (·.fd)).Nodup :=
  h.world.awaited.nodup.sublist (List.sublist_append_left _ _)

theorem jobs_of_free (h : ∀ jobs, p.phase ≠ .notifying jobs) :
    p.jobs = p.world.sel.resolutionJobs := by
  obtain ⟨w, phase⟩ := p
  cases phase with
  | notifying jobs => exact absurd rfl (h jobs)
  | idle | reading _ | writing _ _ => rfl

/-- **A resolver ends.** -/
theorem Tracked.resolved {i : ℕ} {result : Option AddressFamily} {malloc : Bool} (h : Tracked p t)
    (hphase : ∀ jobs, p.phase ≠ .notifying jobs) (hc : p.call (.resolved i result malloc) = none)
    (hq : p' = { p with world := resolvConnectionBlocking i result malloc p.world })
    (hinv : ProxyInv p') : Tracked p' (t ++ p.shows (.resolved i result malloc) p') := by
  have hshows : p.shows (.resolved i result malloc) p' = if malloc then
      (p.world.resolvers[i]?).toList.map fun key => .posted key result else [] := by
    obtain ⟨w, phase⟩ := p
    simp only [Proxy.shows, hc]
    cases phase with
    | notifying jobs => exact absurd rfl (hphase jobs)
    | idle | reading _ | writing _ _ => cases malloc <;> rfl
  have hjobs := jobs_of_free hphase
  have hjobs' : p'.jobs = p'.world.sel.resolutionJobs := by
    apply jobs_of_free
    rw [hq]
    exact hphase
  have hitem : ∀ fd, p'.world.sel.item fd = p.world.sel.item fd := by
    rw [hq]
    exact (sameLinks_resolved i result malloc p.world).item
  have hlive : ∀ b, Live p'.world b ↔ Live p.world b := fun b => by simp only [Live, hitem]
  rw [hshows]
  cases hi : p.world.resolvers[i]? with
  | none =>
    have hsame : p' = p := by rw [hq, resolvConnectionBlocking, hi]
    have hnil : (if malloc then (none : Option SelectorKey).toList.map fun key =>
        Occurrence.posted key result else []) = [] := by cases malloc <;> rfl
    rw [hnil, hsame] at *
    exact h.silent h.inv rfl fun b => ⟨Iff.rfl, rfl, fun _ h _ => h, fun _ h => h⟩
  | some key =>
    obtain ⟨hlt, hget⟩ := List.getElem?_eq_some_iff.mp hi
    have hmem : key ∈ p.world.resolvers := List.mem_of_getElem? hi
    have hresolvers : p'.world.resolvers = p.world.resolvers.eraseIdx i := by
      rw [hq, resolvConnectionBlocking, hi]
      cases malloc <;> rfl
    have hheap : p'.world.heap = Function.update p.world.heap key.data
        { p.world.heap key.data with originResolution := result } := by
      rw [hq, resolvConnectionBlocking, hi]
      cases malloc <;> rfl
    have hnew : p'.world.sel.resolutionJobs =
        if malloc then key.fd :: p.world.sel.resolutionJobs else p.world.sel.resolutionJobs := by
      rw [hq, resolvConnectionBlocking, hi]
      cases malloc <;> rfl
    obtain ⟨s, hs, hh⟩ := h.status key.data
    obtain rfl := hh.waiting hmem
    obtain ⟨hr, hnojob, hthreads⟩ := hh
    have hr' : Resolving p' key.data key.fd := by
      refine ⟨(hlive _).mpr hr.live, ?_, ?_⟩
      · rw [hheap, Function.update_self]
        exact hr.current
      · rw [hheap, Function.update_self]
        exact hr.clientFd
    -- the other resolvers are for other connections
    have hnone : NoThread p' key.data := by
      intro key' hkey' hdata
      rw [hresolvers] at hkey'
      have hfd := hthreads key' (List.mem_of_mem_eraseIdx hkey') hdata
      have hperm : (key :: p.world.resolvers.eraseIdx i).Perm p.world.resolvers := by
        rw [← hget]
        exact List.getElem_cons_eraseIdx_perm hlt
      have hnodup := (hperm.map (·.fd)).nodup_iff.mpr h.inv.resolvers_nodup
      rw [List.map_cons, List.nodup_cons, List.mem_map] at hnodup
      exact hnodup.1 ⟨key', hkey', hfd⟩
    have hsame : ∀ b, b ≠ key.data → Untouched b p p' := fun b hb =>
      { live := hlive b
        heap := by rw [hheap, Function.update_of_ne hb]
        threads := fun key' hkey' _ => by
          rw [hresolvers] at hkey'
          exact List.mem_of_mem_eraseIdx hkey'
        jobs := fun hl hn hmem' => by
          rw [hheap, Function.update_of_ne hb, hjobs', hnew] at hmem'
          rw [NoJob, hjobs] at hn
          split_ifs at hmem' with hm
          · rcases List.mem_cons.mp hmem' with heq | hmem'
            · exact hb (h.inv.world.clientFd_inj hl hr.live (heq.trans hr.clientFd.symm))
            · exact hn hmem'
          · exact hn hmem' }
    cases malloc with
    | false =>
      simp only [Bool.false_eq_true, if_false, List.append_nil] at hnew ⊢
      refine ⟨hinv, by rw [hjobs', hnew, ← hjobs]; exact h.jobs, fun b => ?_⟩
      by_cases hb : b = key.data
      · subst hb
        refine ⟨_, hs, hr', ?_, fun key' hkey' hdata => absurd hdata (hnone key' hkey')⟩
        rw [NoJob, hr'.clientFd, hjobs', hnew, ← hjobs, ← hr.clientFd]
        exact hnojob
      · obtain ⟨s, hs, hh⟩ := h.status b
        exact ⟨s, hs, hh.untouched (hsame b hb)⟩
    | true =>
      simp only [if_true, Option.toList_some, List.map_cons, List.map_nil] at hnew ⊢
      refine h.snoc hinv ?_ hsame fun s hs => ?_
      · rw [posted_snoc, delivered_snoc, hjobs', hnew, ← hjobs]
        show (posted t ++ [key.fd]).Perm (delivered t ++ [] ++ key.fd :: p.jobs)
        rw [List.append_nil]
        exact (List.perm_append_singleton _ _).trans ((h.jobs.cons _).trans List.perm_middle.symm)
      · obtain rfl := HandOff.Holds.waiting hs hmem
        refine ⟨.found key.fd result, by simp [HandOff.advance, Occurrence.addr], hr', hnone, ?_⟩
        show (p'.world.heap key.data).originResolution = result
        rw [hheap, Function.update_self]

/-- **An event without a call.** -/
theorem Tracked.quieted {e : Event} (h : Tracked p t) (hc : p.call e = none) :
    Tracked (p.quiet e) (t ++ p.shows e (p.quiet e)) := by
  have hinv := h.inv.quieted hc
  rcases h.inv.quiet_cases hc with ⟨hsame, hshows⟩ | ⟨hphase, i, result, malloc, rfl, hq⟩
  · rw [hshows]
    exact h.silent hinv hsame.jobs hsame.untouched
  · exact h.resolved hphase hc hq hinv

/-! ## Handler calls -/

/-- The jobs after a call: a callback has used its own up. -/
theorem jobs_after {c : Call} {it : Item FdHandler Addr} {w' : World} (hsite : CallSite p c it)
    (h : w'.sel.resolutionJobs = p.world.sel.resolutionJobs) :
    Proxy.jobs ⟨w', p.after c⟩ = if c.op = .block then p.jobs.tail else p.jobs := by
  obtain ⟨w, phase⟩ := p
  cases hsite with
  | read pass hp hop =>
    simp only at hp
    subst hp
    simpa [Proxy.jobs, Proxy.after, hop] using h
  | write pass key hp hop =>
    simp only at hp
    subst hp
    simpa [Proxy.jobs, Proxy.after, hop] using h
  | block jobs hp hop =>
    simp only at hp
    subst hp
    simp [Proxy.jobs, Proxy.after, hop]

/-- A connection whose first event starts a resolver has had no event before. -/
theorem Allowed.none_of_resolving {s : Option States} {l l' : Wires} {io : Io} {w : World}
    (hall : Allowed s l) (hs : s ≠ some .resolvConnection)
    (ht : Trans io a w (stateOf s) l .resolvConnection l') : s = none := by
  cases hall with
  | fresh => rfl
  | resolving => exact absurd rfl hs
  | connecting | attemptFailed _ _ | awaiting | unconnected _ | greeting _ | greetingLost
    | greetingNever _ | command _ | forward =>
    cases ht with
    | replyRead _ hn => simp at hn
  | reply h => rcases h with rfl | rfl <;> cases ht with | replyRead _ hn => simp at hn
  | relay h => rcases h with rfl | rfl <;> cases ht with | replyRead _ hn => simp at hn

/-- Where there is no connection, before and after, the status says nothing new. -/
theorem HandOff.Holds.dead {s : HandOff} (h : s.Holds p a) (hl : ¬ Live p.world a)
    (hl' : ¬ Live p'.world a) (hres : p'.world.resolvers = p.world.resolvers) : s.Holds p' a := by
  have hthread : NoThread p a → NoThread p' a := fun hn key hkey => hn key (by rwa [← hres])
  cases s with
  | absent => exact ⟨hl', hthread h.2⟩
  | fresh => exact absurd h.1 hl
  | waiting fd => exact absurd h.1.live hl
  | found fd result => exact absurd h.1.live hl
  | settled => exact ⟨hthread h.1, fun hlive => absurd hlive hl'⟩

theorem admittedBy_none {io : Io} {w w' : World}
    (h : ∀ fd it, w'.sel.item fd = some it → ∃ it', w.sel.item fd = some it') :
    admittedBy io w w' = none := by
  unfold admittedBy
  cases io.accept with
  | none => rfl
  | some fd =>
    rw [Option.bind_some]
    cases hit : w'.sel.item fd with
    | none => simp
    | some it =>
      obtain ⟨it', hit'⟩ := h fd it hit
      simp [hit']

theorem Admitted.admittedBy {io : Io} {w w' : World} (hs : Sound w) (h : Admitted io a w w') :
    admittedBy io w w' = some a := by
  have hnone : w.sel.item (w'.heap a).clientFd = none := hs.item_of_closed h.closed
  rw [Pop3Proxy.admittedBy, h.accepted, Option.bind_some, hnone, h.wired.client]
  rfl

/-- **An accept.** -/
theorem Tracked.accepts {e : Event} {c : Call} (h : Tracked p t) (hc : p.call e = some c)
    (hh : c.handler = .passive) (hw' : p'.world = pop3PassiveAccept c.io p.world)
    (hinv : ProxyInv p') (hjobs : p'.jobs = p.jobs) : Tracked p' (t ++ p.shows e p') := by
  have hshows : p.shows e p' = (admittedBy c.io p.world p'.world).toList.map .accepted := by
    simp only [Proxy.shows, hc, hh]
  have hsound := h.inv.world.sound
  have hothers : ∀ a, Frame a p.world p'.world → p'.world.resolvers = p.world.resolvers →
      ∀ b, b ≠ a → Untouched b p p' := fun a hf hres b hb =>
    .of_frame hf hb (fun key hkey _ => by rwa [← hres]) (by rw [hjobs]; exact fun _ h => h)
  rw [hshows]
  rcases pop3PassiveAccept_cases c.io hsound h.inv.world.pool with heq | ⟨a, hadm | hrej⟩
  -- nobody is accepted
  · rw [← hw'] at heq
    rw [admittedBy_none fun fd it hit => ⟨it, by rwa [heq] at hit⟩]
    refine h.silent hinv hjobs fun b => ⟨by rw [heq], by rw [heq], fun key hkey _ => ?_, ?_⟩
    · rwa [heq] at hkey
    · intro _ hn
      rwa [NoJob, heq, hjobs]
  -- a new connection
  · rw [← hw'] at hadm
    rw [hadm.admittedBy hsound]
    refine h.snoc hinv ?_ (hothers a hadm.frame hadm.resolvers) fun s hs => ?_
    · rw [posted_snoc, delivered_snoc, hjobs]
      simpa [Occurrence.job, Occurrence.callback] using h.jobs
    · have hthread : NoThread p a → NoThread p' a := fun hn key hkey =>
        hn key (by rwa [← hadm.resolvers])
      have hfresh : NoThread p' a → HandOff.fresh.Holds p' a := by
        intro hn
        refine ⟨⟨_, _, hadm.wired.client, rfl, rfl⟩, ?_, hn, fun hmem => ?_⟩
        · obtain ⟨client, hnew⟩ := hadm.new
          rw [hnew]
          rfl
        -- the client's descriptor was closed, those of the jobs are registered
        · rw [hjobs] at hmem
          have hpending : (p'.world.heap a).clientFd ∈ p.pending :=
            List.mem_append_right _ hmem
          obtain ⟨it, hit, -⟩ := h.inv.world.awaited.resolving _ hpending
          rw [hsound.item_of_closed hadm.closed] at hit
          exact absurd hit (by simp)
      refine ⟨.fresh, ?_, ?_⟩
      · cases s with
        | absent | settled => simp [HandOff.advance, Occurrence.addr]
        | fresh => exact absurd hs.1 hadm.notLive
        | waiting fd => exact absurd hs.1.live hadm.notLive
        | found fd result => exact absurd hs.1.live hadm.notLive
      · cases s with
        | absent => exact hfresh (hthread hs.2)
        | settled => exact hfresh (hthread hs.1)
        | fresh => exact absurd hs.1 hadm.notLive
        | waiting fd => exact absurd hs.1.live hadm.notLive
        | found fd result => exact absurd hs.1.live hadm.notLive
  -- the struct goes back at once
  · rw [← hw'] at hrej
    have hnone : admittedBy c.io p.world p'.world = none := by
      refine admittedBy_none fun fd it hit => ⟨it, (hrej.frame.items fd it fun hown => ?_).mp hit⟩
      exact hrej.notLive' ⟨fd, it, hit, hown⟩
    rw [hnone, Option.toList_none, List.map_nil, List.append_nil]
    refine ⟨hinv, by rw [hjobs]; exact h.jobs, fun b => ?_⟩
    obtain ⟨s, hs, hhold⟩ := h.status b
    refine ⟨s, hs, ?_⟩
    by_cases hb : b = a
    · subst hb
      exact hhold.dead hrej.notLive hrej.notLive' hrej.resolvers
    · exact hhold.untouched (hothers a hrej.frame hrej.resolvers b hb)

/-- A connection that is not in `RESOLV_CONNECTION` has nobody working for it. -/
theorem HandOff.Holds.ready {s : HandOff} (h : s.Holds p a) (hl : Live p.world a)
    (hcur : (p.world.heap a).current ≠ some States.resolvConnection.num) :
    NoThread p a ∧ NoJob p a ∧ (s = .fresh ∨ s = .settled) ∧
      ((p.world.heap a).current = none → s = .fresh) := by
  cases s with
  | absent => exact absurd hl h.1
  | fresh => exact ⟨h.2.2.1, h.2.2.2, .inl rfl, fun _ => rfl⟩
  | waiting fd => exact absurd h.1.current hcur
  | found fd result => exact absurd h.1.current hcur
  | settled =>
    obtain ⟨hc, hj⟩ := h.2 hl
    exact ⟨h.1, hj, .inr rfl, fun hn => absurd hn hc⟩

/-- A job for a connection is there because its resolver has posted it. -/
theorem HandOff.Holds.awaited {s : HandOff} (h : s.Holds p a) (hl : Live p.world a)
    (hcur : (p.world.heap a).current = some States.resolvConnection.num)
    (hjob : (p.world.heap a).clientFd ∈ p.jobs) :
    NoThread p a ∧ ∃ result, s = .found (p.world.heap a).clientFd result := by
  cases s with
  | absent => exact absurd hl h.1
  | fresh =>
    rw [h.2.1] at hcur
    exact absurd hcur (by simp)
  | waiting fd => exact absurd hjob h.2.1
  | found fd result => exact ⟨h.2.1, result, by rw [h.1.clientFd]⟩
  | settled => exact absurd hjob (h.2 hl).2

/-- What a call that starts no resolver shows. -/
theorem shows_called {e : Event} {c : Call} (hc : p.call e = some c)
    (hh : c.handler = .suscriptions) (hres : p'.world.resolvers = p.world.resolvers) :
    p.shows e p' = [.called c.op c.key] := by
  simp only [Proxy.shows, hc, hh, hres, List.drop_length]

theorem shows_asked {e : Event} {c : Call} (hc : p.call e = some c)
    (hh : c.handler = .suscriptions) {key : SelectorKey}
    (hres : p'.world.resolvers = p.world.resolvers ++ [key]) :
    p.shows e p' = [.asked key] := by
  simp only [Proxy.shows, hc, hh, hres, List.drop_left]
  rfl

/-- **A readiness event of a connection.** -/
theorem Tracked.readied {e : Event} {c : Call} (h : Tracked p t) (hc : p.call e = some c)
    (hh : c.handler = .suscriptions) (hop : c.op ≠ .block) (hinv : ProxyInv p')
    (hjobs : p'.jobs = p.jobs) {s : Option States} {l : Wires}
    (hconn : Connected p.world c.key.data s l)
    (hd : Dispatched p.world c.key.data s l c.key.fd c.op)
    (hres : Finished c.key.data p.world p'.world ∨ ∃ next l',
      Trans c.io c.key.data p.world (stateOf s) l next l' ∧ Moved c.key.data next l'
        (if next = .resolvConnection ∧ c.io.pthreadCreate = 0 then [c.key] else [])
        p.world p'.world) :
    Tracked p' (t ++ p.shows e p') := by
  have hs := hd.not_resolving hconn.allowed hop
  have hcur : (p.world.heap c.key.data).current ≠ some States.resolvConnection.num :=
    fun heq => hs (hconn.state_eq heq)
  -- an event of readiness posts no job and delivers none
  have hpart : ∀ o : Occurrence, o.job = none → o.callback = none →
      (posted (t ++ [o])).Perm (delivered (t ++ [o]) ++ p'.jobs) := by
    intro o hjob hcallback
    rw [posted_snoc, delivered_snoc, hjob, hcallback, hjobs]
    simpa using h.jobs
  have hcallback : (Occurrence.called c.op c.key).callback = none := by
    cases heq : c.op with
    | block => exact absurd heq hop
    | read | write => rfl
  have hsettles : ∀ st : HandOff, st.Holds p c.key.data → ∀ o, o = Occurrence.called c.op c.key →
      st.advance c.key.data o = some .settled := by
    rintro st hst o rfl
    rcases (hst.ready hconn.live hcur).2.2.1 with rfl | rfl <;>
      simp [HandOff.advance, Occurrence.addr, hop]
  have hothers : ∀ b, b ≠ c.key.data → Frame c.key.data p.world p'.world →
      (∀ key ∈ p'.world.resolvers, key.data = b → key ∈ p.world.resolvers) → Untouched b p p' :=
    fun b hb hf hres => .of_frame hf hb hres (by rw [hjobs]; exact fun _ h => h)
  rcases hres with hfin | ⟨next, l', ht, hm⟩
  -- the connection is gone
  · rw [shows_called hc hh hfin.resolvers]
    refine h.snoc hinv (hpart _ rfl hcallback)
      (fun b hb => hothers b hb hfin.frame fun key hkey _ => by rwa [← hfin.resolvers])
      fun st hst => ⟨.settled, hsettles st hst _ rfl, fun key hkey => ?_, fun hlive => ?_⟩
    · exact (hst.ready hconn.live hcur).1 key (by rwa [← hfin.resolvers])
    · obtain ⟨fd, it, hit, hown⟩ := hlive
      exact absurd hown (hfin.gone fd it hit)
  · have hnojob : ∀ {st : HandOff}, st.Holds p c.key.data → NoJob p' c.key.data := fun hst => by
      rw [NoJob, hm.clientFd, hjobs]
      exact (hst.ready hconn.live hcur).2.1
    by_cases hstart : next = .resolvConnection ∧ c.io.pthreadCreate = 0
    -- the first event of the connection asks
    · have hresolvers := hm.resolvers
      rw [if_pos hstart] at hresolvers
      rw [hstart.1] at ht
      have hnone : (p.world.heap c.key.data).current = none := by
        rw [hconn.current, hconn.allowed.none_of_resolving hs ht]
        rfl
      have hfd : c.key.fd = (p.world.heap c.key.data).clientFd :=
        hd.client_of_absent (hconn.allowed.absent_of_resolving hs ht)
      rw [shows_asked hc hh hresolvers]
      refine h.snoc hinv (hpart _ rfl rfl) (fun b hb => hothers b hb hm.frame ?_) fun st hst => ?_
      · intro key hkey hdata
        rw [hresolvers] at hkey
        rcases List.mem_append.mp hkey with hkey | hkey
        · exact hkey
        · rw [List.mem_singleton.mp hkey] at hdata
          exact absurd hdata.symm hb
      · obtain ⟨hthread, -, -, hfresh⟩ := hst.ready hconn.live hcur
        refine ⟨.waiting c.key.fd, ?_, ⟨⟨_, _, hm.wired.client, rfl, rfl⟩, ?_, ?_⟩, hnojob hst, ?_⟩
        · rw [hfresh hnone]
          simp [HandOff.advance, Occurrence.addr]
        · rw [← hstart.1]
          exact hm.current
        · rw [hfd]
          exact hm.clientFd
        · intro key hkey hdata
          rw [hresolvers] at hkey
          rcases List.mem_append.mp hkey with hkey | hkey
          · exact absurd hdata (hthread key hkey)
          · rw [List.mem_singleton.mp hkey]
    -- any other event starts no thread, and there is none to wait for
    · have hresolvers := hm.resolvers
      rw [if_neg hstart, List.append_nil] at hresolvers
      rw [shows_called hc hh hresolvers]
      refine h.snoc hinv (hpart _ rfl hcallback)
        (fun b hb => hothers b hb hm.frame fun key hkey _ => by rwa [← hresolvers])
        fun st hst => ⟨.settled, hsettles st hst _ rfl, fun key hkey => ?_,
          fun _ => ⟨?_, hnojob hst⟩⟩
      · exact (hst.ready hconn.live hcur).1 key (by rwa [← hresolvers])
      · rw [show (p'.world.heap (Occurrence.called c.op c.key).addr).current = some next.num from
          hm.current]
        simp

/-- **A callback.** -/
theorem Tracked.calledBack {e : Event} {c : Call} (h : Tracked p t) (hc : p.call e = some c)
    (hh : c.handler = .suscriptions) (hop : c.op = .block) (hinv : ProxyInv p') {jobs : List Int}
    (hphase : p.phase = .notifying (c.key.fd :: jobs)) (hjobs : p'.jobs = jobs)
    {s : Option States} {l : Wires} (hconn : Connected p.world c.key.data s l)
    (hfd : (p.world.heap c.key.data).clientFd = c.key.fd)
    (hcur : (p.world.heap c.key.data).current = some States.resolvConnection.num)
    (hres : Finished c.key.data p.world p'.world ∨ ∃ next l',
      Trans c.io c.key.data p.world (stateOf s) l next l' ∧ Moved c.key.data next l'
        (if next = .resolvConnection ∧ c.io.pthreadCreate = 0 then [c.key] else [])
        p.world p'.world) :
    Tracked p' (t ++ p.shows e p') := by
  have hall : p.jobs = c.key.fd :: jobs := by rw [Proxy.jobs, hphase]
  have hnodup : c.key.fd ∉ jobs := by
    have hp := h.inv.world.awaited.nodup.sublist (List.sublist_append_right _ _)
    rw [hall, List.nodup_cons] at hp
    exact hp.1
  have hjob : (p.world.heap c.key.data).clientFd ∈ p.jobs := by
    rw [hfd, hall]
    exact List.mem_cons_self
  have hperm : (posted (t ++ [.called c.op c.key])).Perm
      (delivered (t ++ [.called c.op c.key]) ++ p'.jobs) := by
    rw [posted_snoc, delivered_snoc, hop, hjobs]
    show (posted t ++ []).Perm (delivered t ++ [c.key.fd] ++ jobs)
    rw [List.append_nil, List.append_assoc, List.singleton_append, ← hall]
    exact h.jobs
  have hothers : ∀ b, b ≠ c.key.data → Frame c.key.data p.world p'.world →
      p'.world.resolvers = p.world.resolvers → Untouched b p p' := fun b hb hf hres =>
    .of_frame hf hb (fun key hkey _ => by rwa [← hres]) fun fd hmem => by
      rw [hjobs] at hmem
      rw [hall]
      exact List.mem_cons_of_mem _ hmem
  -- the callback leaves the connection without a resolver and without a job
  have hstep : p'.world.resolvers = p.world.resolvers → Frame c.key.data p.world p'.world →
      (Live p'.world c.key.data → (p'.world.heap c.key.data).current ≠ none ∧
        (p'.world.heap c.key.data).clientFd = c.key.fd) →
      Tracked p' (t ++ p.shows e p') := by
    intro hresolvers hf hlive
    rw [shows_called hc hh hresolvers]
    refine h.snoc hinv hperm (fun b hb => hothers b hb hf hresolvers) fun st hst => ?_
    obtain ⟨hthread, result, rfl⟩ := hst.awaited hconn.live hcur hjob
    refine ⟨.settled, ?_, fun key hkey => hthread key (by rwa [← hresolvers]), fun hl => ?_⟩
    · simp [HandOff.advance, Occurrence.addr, hop, hfd]
    · obtain ⟨hne, hfd'⟩ := hlive hl
      refine ⟨hne, fun hmem => ?_⟩
      rw [hjobs] at hmem
      exact hnodup (hfd' ▸ hmem)
  rcases hres with hfin | ⟨next, l', ht, hm⟩
  · refine hstep hfin.resolvers hfin.frame fun hl => ?_
    obtain ⟨fd, it, hit, hown⟩ := hl
    exact absurd hown (hfin.gone fd it hit)
  · have hnext : next ≠ .resolvConnection := by
      rintro rfl
      rw [hconn.state_eq hcur] at ht
      cases ht with
      | replyPart hs => simp [stateOf] at hs
      | replyRead hs _ => simp [stateOf] at hs
    have hresolvers := hm.resolvers
    rw [if_neg (by simp [hnext]), List.append_nil] at hresolvers
    refine hstep hresolvers hm.frame fun _ => ⟨?_, hm.clientFd.trans hfd⟩
    rw [hm.current]
    simp

/-- **A handler call.** -/
theorem Tracked.called {e : Event} {c : Call} {w' : World} (h : Tracked p t)
    (hc : p.call e = some c) (hrun : c.run p.world = .ok w') :
    Tracked ⟨w', p.after c⟩ (t ++ p.shows e ⟨w', p.after c⟩) := by
  have hinv := h.inv.called hc hrun
  obtain ⟨it, hit, hdata, hhandler, hsite⟩ := h.inv.call_spec hc
  have hslaves := Call.run_slaves h.inv.world hit hdata hhandler hsite.op hrun
  have hjobs := jobs_after hsite hslaves.2.2
  rcases Call.run_cases h.inv.world hit hdata hhandler hsite.op hrun with
    ⟨hh, hw'⟩ | ⟨hh, s, l, hconn, hd, hres⟩
  · have hop : c.op ≠ .block := by
      intro hop
      rcases hsite.op with ⟨-, hmem⟩ | ⟨hne, -⟩
      · obtain ⟨it', hit', hh', -⟩ := h.inv.world.awaited.resolving _ hmem
        rw [hit, Option.some.injEq] at hit'
        rw [← hit', hh] at hh'
        exact absurd hh' (by simp)
      · exact hne hop
    rw [if_neg hop] at hjobs
    exact h.accepts hc (hhandler.trans hh) hw' hinv hjobs
  · rw [← hdata] at hconn hd hres
    have hres' : Finished c.key.data p.world w' ∨ ∃ next l',
        Trans c.io c.key.data p.world (stateOf s) l next l' ∧ Moved c.key.data next l'
          (if next = .resolvConnection ∧ c.io.pthreadCreate = 0 then [c.key] else [])
          p.world w' := hres.imp id fun ⟨next, l', ht, _, _, hm⟩ => ⟨next, l', ht, hm⟩
    cases hsite with
    | read pass hp hop =>
      rw [if_neg (by simp [hop])] at hjobs
      exact h.readied hc (hhandler.trans hh) (by simp [hop]) hinv hjobs hconn hd hres'
    | write pass key hp hop =>
      rw [if_neg (by simp [hop])] at hjobs
      exact h.readied hc (hhandler.trans hh) (by simp [hop]) hinv hjobs hconn hd hres'
    | block jobs hp hop =>
      have hall : p.jobs = c.key.fd :: jobs := by rw [Proxy.jobs, hp]
      rw [if_pos hop, hall, List.tail_cons] at hjobs
      obtain ⟨it', hit', -, hfd, hcur⟩ := h.inv.world.awaited.resolving c.key.fd
        (by simp [Proxy.pending, Proxy.jobs, hp])
      rw [hit, Option.some.injEq] at hit'
      subst hit'
      rw [← hdata] at hfd hcur
      exact h.calledBack hc (hhandler.trans hh) hop hinv hp hjobs hconn hfd hcur hres'

/-- **One event** keeps track of the hand-off. -/
theorem Tracked.step {e : Event} (h : Tracked p t) (hs : p.step e = .ok p') :
    Tracked p' (t ++ p.shows e p') := by
  rw [step_eq] at hs
  cases hc : p.call e with
  | none =>
    simp only [hc, Except.ok.injEq] at hs
    subst hs
    exact h.quieted hc
  | some c =>
    simp only [hc] at hs
    obtain ⟨w', hrun, rfl⟩ := map_eq_ok.mp hs
    exact h.called hc hrun

end

/-- The step of a callback to a connection runs its `block_suscription`. -/
theorem step_callback {p : Proxy} {e : Event} {c : Call} (hc : p.call e = some c)
    (hhandler : c.handler = .suscriptions) (hop : c.op = .block) :
    p.step e = (blockSuscription c.io c.key p.world).map fun w => ⟨w, p.after c⟩ := by
  have hrun : c.run p.world = blockSuscription c.io c.key p.world := by
    rw [Call.run, hop, hhandler]
    rfl
  rw [step_eq, hc, ← hrun]

/-! ## Every run -/

theorem tracked_start (server : Int) (origin : AddrType) :
    Tracked (.start server origin) [] where
  inv := proxyInv_start server origin
  jobs := by
    have hrest := FdSelector.rest_register true (FdSelector.wf_selectorNew (H := FdHandler)
      (D := Addr)).fdSize server FdHandler.passive OP_READ (0 : Addr)
    rw [show (Proxy.start server origin).jobs = [] from hrest.2.2.trans rfl]
    exact List.Perm.refl _
  status a := by
    refine ⟨.absent, rfl, ?_, fun key hkey => absurd hkey List.not_mem_nil⟩
    rintro ⟨fd, it, hit, hown, -⟩
    rw [(start_item hit).2] at hown
    exact absurd hown (by simp)

/-- **Hand-off.**  Along every run, every job posted is in the list or has been
delivered, never both and never twice, and nothing is left of the list when a
drain of it ends; what happens to each connection is one run through `HandOff`,
which the program's memory agrees with; and a callback, which is a run of
`block_suscription`, is made exactly to a connection in `RESOLV_CONNECTION` whose
own resolver has stored its result. -/
theorem handOff_once (server : Int) (origin : AddrType) (es : List Event) :
    let p := proxySystem.last (.start server origin) es
    let t := proxySystem.observe Proxy.shows (.start server origin) es
    (posted t).Perm (delivered t ++ p.jobs) ∧
      (p.phase = .notifying [] → (posted t).Perm (delivered t)) ∧
      (∀ a, ∃ s, progress a t = some s ∧ s.Holds p a) ∧
      ∀ e c, p.call e = some c → c.op = .block →
        ∃ result, progress c.key.data t = some (.found c.key.fd result) ∧
          Resolving p c.key.data c.key.fd ∧
          (p.world.heap c.key.data).originResolution = result ∧
          p.step e = (blockSuscription c.io c.key p.world).map fun w => ⟨w, p.after c⟩ := by
  intro p t
  have hstep : ∀ s t e s', Tracked s t → proxySystem.step s e = .ok s' →
      Tracked s' (t ++ s.shows e s') := fun _ _ _ _ hi hs => hi.step hs
  have h : Tracked p t :=
    EventSystem.System.history (I := Tracked) hstep (tracked_start server origin) es
  refine ⟨h.jobs, fun hphase => ?_, h.status, fun e c hc hop => ?_⟩
  · have hjobs := h.jobs
    rwa [show p.jobs = [] by rw [Proxy.jobs, hphase], List.append_nil] at hjobs
  · obtain ⟨it, hit, hdata, hhandler, hsite⟩ := h.inv.call_spec hc
    rcases hsite.op with ⟨-, hmem⟩ | ⟨hne, -⟩
    · obtain ⟨it', hit', hh, hfd, hcur⟩ := h.inv.world.awaited.resolving _ hmem
      rw [hit, Option.some.injEq] at hit'
      subst hit'
      rw [← hdata] at hfd hcur
      have hjob : (p.world.heap c.key.data).clientFd ∈ p.jobs := by
        cases hsite with
        | read pass _ hop' => simp [hop] at hop'
        | write pass key _ hop' => simp [hop] at hop'
        | block jobs hp _ => simp [Proxy.jobs, hp, hfd]
      obtain ⟨st, hst, hhold⟩ := h.status c.key.data
      obtain ⟨-, result, rfl⟩ := hhold.awaited ⟨_, it, hit, hh, hdata.symm⟩ hcur hjob
      rw [hfd] at hst hhold
      exact ⟨result, hst, hhold.1, hhold.2.2, step_callback hc (hhandler.trans hh) hop⟩
    · exact absurd hop hne

end Pop3Proxy
