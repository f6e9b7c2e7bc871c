/-
# One event of a connection

The engine and the top level handlers put together: the hook of the current
state runs, the next state is entered, and a terminal state finishes the
connection.  `runHandler` is the composition written out; `Finished` is what
finishing does to the program's memory.
-/
import Pop3Proxy.Control

namespace Pop3Proxy

/-- The three kinds of events of the engine. -/
inductive Op where
  | read
  | write
  | block
  deriving DecidableEq, Repr

namespace Op

/-- The hook of a state for an event. -/
def ready {σ : Type} : Op → StateDefinition σ → Option (σ → Except Fault (ℕ × σ))
  | read => StateDefinition.onReadReady
  | write => StateDefinition.onWriteReady
  | block => StateDefinition.onBlockReady

/-- The top level handler of an event. -/
def suscription : Op → Io → SelectorKey → World → Except Fault World
  | read => readSuscription
  | write => writeSuscription
  | block => blockSuscription

end Op

/-- The handler of a state for an event. -/
def handlerOf (io : Io) (key : SelectorKey) :
    Op → States → Option (World → Except Fault (States × World))
  | .read, .greetingSread => some (greetingSread io key)
  | .read, .commandCread => some (commandCread io key)
  | .read, .responseSread => some (responseSread io key)
  | .read, .dotDataSread => some (dotDataSread io key)
  | .write, .processConnection => some (processConnection io key)
  | .write, .establConnection => some (establConnection key)
  | .write, .greetingCwrite => some (greetingCwrite io key)
  | .write, .commandSwrite => some (commandSwrite io key)
  | .write, .dotDataCwrite => some (dotDataCwrite io key)
  | .write, .responseCwrite => some (responseCwrite io key)
  | .write, .pipeDream => some (pipeDream key)
  | .block, .resolvConnection => some (resolvConnection io key)
  | _, _ => none

/-- The `on_arrival` of a state. -/
def arrival (key : SelectorKey) : States → World → Except Fault World
  | .processConnection => processConnectionInit key
  | .establConnection => establConnectionInit key
  | .greetingSread => greetingInit key
  | .commandCread => commandInit key
  | .responseSread => responseInit key
  | .dotDataSread => dotDataInit key
  | .pipeDream => pipeInit key
  | _ => .ok

/-- Going from a state to the next one. -/
def enter (key : SelectorKey) (s next : States) (w : World) : Except Fault World :=
  if s = next then .ok w else arrival key next w

/-- Recording the state, and finishing in a terminal one. -/
def conclude (key : SelectorKey) (next : States) (w : World) : Except Fault World :=
  let w := w.modify key.data fun c => { c with current := some next.num }
  if next = .error ∨ next = .update then finishedSuscription key w else .ok w

/-- An event in the state `s`. -/
def runHandler (op : Op) (io : Io) (key : SelectorKey) (s : States) (w : World) :
    Except Fault World :=
  match handlerOf io key op s with
  | none => .error .abort
  | some h => do
    let (next, w) ← h w
    let w ← enter key s next w
    conclude key next w

section
variable {io : Io} {key : SelectorKey} {w : World}

theorem states_getElem (s : States) :
    (clientStm io key).states[s.num]? = some (clientState io key s) := by
  cases s <;> rfl

theorem ready_clientState (op : Op) (s : States) :
    op.ready (clientState io key s) = (handlerOf io key op s).bind hook := by
  cases op <;> cases s <;> rfl

theorem arrive_eq (s : States) (w : World) :
    (clientStm io key).arrive s.num w = (arrival key s w).map fun w => (s.num, w) := by
  rw [StateMachine.arrive, states_getElem]
  cases s <;> rfl

theorem jump_eq (s next : States) (w : World) :
    (clientStm io key).jump s.num next.num w =
      (enter key s next w).map fun w => (next.num, w) := by
  have hmax : ¬ (clientStm io key).maxState < next.num := by
    show ¬ States.error.num < next.num
    cases next <;> decide
  have hdep : (clientStm io key).depart s.num w = .ok w := by
    rw [StateMachine.depart, states_getElem]
    cases s <;> rfl
  rw [StateMachine.jump, if_neg hmax, hdep, enter]
  by_cases h : s = next
  · subst h
    rw [if_pos rfl, if_pos rfl]
    rfl
  · rw [if_neg (mt States.num_injective h), if_neg h, ok_bind, arrive_eq]

/-- What the engine returns after the hook of the state `s`. -/
def runHook (op : Op) (io : Io) (key : SelectorKey) (s : States) (w : World) :
    Except Fault (States × World) :=
  match handlerOf io key op s with
  | none => .error .abort
  | some h => do
    let (next, w) ← h w
    let w ← enter key s next w
    .ok (next, w)

theorem stmHandler_eq (op : Op) (s : States) (w : World) :
    (clientStm io key).stmHandler op.ready (some s.num) w =
      (runHook op io key s w).map fun r => (r.1.num, r.1.num, r.2) := by
  have hfirst : (clientStm io key).handleFirst (some s.num) w = .ok (s.num, w) := rfl
  rw [StateMachine.stmHandler, hfirst, ok_bind, runHook]
  simp only [states_getElem, Option.bind_some, ready_clientState]
  cases handlerOf io key op s with
  | none => rfl
  | some h =>
    simp only [Option.bind_some, hook]
    cases h w with
    | error e => rfl
    | ok r =>
      obtain ⟨next, w₁⟩ := r
      show ((clientStm io key).jump s.num next.num w₁ >>= _) = _
      rw [jump_eq]
      simp only [ok_bind]
      cases enter key s next w₁ <;> rfl

theorem runHandler_eq (op : Op) (s : States) (w : World) :
    runHandler op io key s w = runHook op io key s w >>= fun r => conclude key r.1 r.2 := by
  rw [runHandler, runHook]
  cases handlerOf io key op s with
  | none => rfl
  | some h =>
    simp only
    cases h w with
    | error e => rfl
    | ok r =>
      simp only [ok_bind]
      cases enter key s r.1 r.2 <;> rfl

/-- The end of the top level handlers, on the numbers of the states. -/
theorem conclude_eq (next : States) (w : World) :
    conclude key next w =
      if next.num = States.error.num ∨ next.num = States.update.num then
        finishedSuscription key (w.modify key.data fun c => { c with current := some next.num })
      else .ok (w.modify key.data fun c => { c with current := some next.num }) := by
  have h1 : next.num = States.error.num ↔ next = .error :=
    ⟨fun h => States.num_injective h, fun h => by rw [h]⟩
  have h2 : next.num = States.update.num ↔ next = .update :=
    ⟨fun h => States.num_injective h, fun h => by rw [h]⟩
  simp only [h1, h2, conclude]

theorem suscription_eq (op : Op) (io : Io) (key : SelectorKey) (w : World) :
    op.suscription io key w = suscription (fun m => m.stmHandler op.ready) io key w := by
  cases op <;> rfl

theorem suscription_of_stmHandler (op : Op) {current : Option ℕ} {s : States} {w₀ : World}
    (h : (w.heap key.data).current = current)
    (hrun : (clientStm io key).stmHandler op.ready current w =
      (runHook op io key s w₀).map fun r => (r.1.num, r.1.num, r.2)) :
    op.suscription io key w = runHandler op io key s w₀ := by
  rw [suscription_eq, suscription, h, hrun, runHandler_eq]
  cases runHook op io key s w₀ with
  | error e => rfl
  | ok r =>
    simp only [ok_bind, conclude_eq]
    rfl

/-- **An event of a connection that has had one before.** -/
theorem suscription_some (op : Op) {s : States} (h : (w.heap key.data).current = some s.num) :
    op.suscription io key w = runHandler op io key s w :=
  suscription_of_stmHandler op h (stmHandler_eq op s w)

/-- **The first event of a connection.** -/
theorem suscription_none (op : Op) (h : (w.heap key.data).current = none) :
    op.suscription io key w =
      runHandler op io key .processConnection
        (w.modify key.data fun c => { c with origin := .connecting w.currOriginServer }) :=
  suscription_of_stmHandler op h (stmHandler_eq op .processConnection _)

/-! ## Finishing -/

/-- The descriptor `fd` of the connection `a` is unregistered and closed. -/
structure Unregistered (a : Addr) (fd : Int) (w w' : World) : Prop where
  wf : w'.sel.Wf
  item : ∀ fd', w'.sel.item fd' = if fd' = fd then none else w.sel.item fd'
  slaveR : w'.sel.slaveR = w.sel.slaveR
  slaveW : w'.sel.slaveW = w.sel.slaveW
  jobs : w'.sel.resolutionJobs = w.sel.resolutionJobs
  isOpen : w'.isOpen = Function.update w.isOpen fd false
  resolvers : w'.resolvers = w.resolvers
  heap : w'.heap = (destroySuscription a w).heap
  pool : w'.pool = (destroySuscription a w).pool
  allocated : w'.allocated = (destroySuscription a w).allocated

/-- What `destroy_suscription` does not touch. -/
theorem rest_destroySuscription (a : Addr) (w : World) :
    (destroySuscription a w).sel = w.sel ∧ (destroySuscription a w).isOpen = w.isOpen ∧
      (destroySuscription a w).resolvers = w.resolvers := by
  unfold destroySuscription
  split_ifs <;> exact ⟨rfl, rfl, rfl⟩

theorem heap_destroySuscription {a b : Addr} (hb : b ≠ a) (w : World) :
    (destroySuscription a w).heap b = w.heap b := by
  unfold destroySuscription
  split_ifs
  · rfl
  · rfl
  · exact Function.update_of_ne hb _ _

/-- The last reference hands the struct to the pool or frees it. -/
theorem pool_destroySuscription {a : Addr} {w : World} (h : (w.heap a).references = 1) :
    (destroySuscription a w).pool = a :: w.pool ∧ (destroySuscription a w).allocated = w.allocated ∨
      (destroySuscription a w).pool = w.pool ∧
        (destroySuscription a w).allocated = Function.update w.allocated a false := by
  rw [destroySuscription, if_pos h]
  split_ifs
  · exact .inl ⟨rfl, rfl⟩
  · exact .inr ⟨rfl, rfl⟩

theorem finishFd_unregistered {a : Addr} {fd : Int} {it : Item FdHandler Addr} (hs : Sound w)
    (hit : w.sel.item fd = some it) (hown : Owns a it) :
    ∃ w', finishFd fd w = .ok w' ∧ Unregistered a fd w w' := by
  have hvalid := (FdSelector.item_eq_some.mp hit).1
  have hne : fd ≠ -1 := by
    rintro rfl
    exact absurd hvalid (by decide)
  have hst : (selectorUnregisterFd handleClose w.sel fd w).1 = .success := by
    rw [FdSelector.unregister_status, hit]
    rfl
  have hclose : (selectorUnregisterFd handleClose w.sel fd w).2.2 = destroySuscription a w := by
    rw [FdSelector.unregister_closed, hit]
    obtain ⟨h1, h2⟩ := hown
    simp only [handleClose, h1, h2]
  have hrest := FdSelector.rest_unregister handleClose w.sel fd w
  have hdestroy := rest_destroySuscription a w
  refine ⟨{ destroySuscription a w with
      sel := (selectorUnregisterFd handleClose w.sel fd w).2.1 }.closeFd fd, ?_, ?_⟩
  · rw [finishFd, if_neg hne]
    rcases h : selectorUnregisterFd handleClose w.sel fd w with ⟨st, sel, w'⟩
    rw [h] at hst hclose
    simp only at hst hclose
    subst hst hclose
    rfl
  · exact
      { wf := FdSelector.wf_unregister hs.wf handleClose fd w
        item := FdSelector.item_unregister handleClose w.sel fd w
        slaveR := hrest.1, slaveW := hrest.2.1, jobs := hrest.2.2
        isOpen := by rw [← hdestroy.2.1]; rfl
        resolvers := hdestroy.2.2
        heap := rfl, pool := rfl, allocated := rfl }

/-- The connection `a` is gone: nothing is registered for it, and its struct is
in the pool or free. -/
structure Finished (a : Addr) (w w' : World) : Prop where
  frame : Frame a w w'
  sound : Sound w'
  gone : ∀ fd it, w'.sel.item fd = some it → ¬ Owns a it
  pool : w'.pool = a :: w.pool ∧ w'.allocated = w.allocated ∨
    w'.pool = w.pool ∧ w'.allocated = Function.update w.allocated a false
  resolvers : w'.resolvers = w.resolvers

/-- Removing all the items of `a` leaves the others and their descriptors alone. -/
theorem finished_of_items {a : Addr} {w' : World} (gone : Int → Prop) [DecidablePred gone]
    (hs : Sound w) (hwf : w'.sel.Wf)
    (hitem : ∀ fd, w'.sel.item fd = if gone fd then none else w.sel.item fd)
    (hopen : ∀ fd, ¬ gone fd → w'.isOpen fd = w.isOpen fd)
    (howns : ∀ fd it, w.sel.item fd = some it → (gone fd ↔ Owns a it))
    (hregistered : ∀ fd, gone fd → (w.sel.item fd).isSome)
    (hheap : ∀ b, b ≠ a → w'.heap b = w.heap b)
    (hslaveR : w'.sel.slaveR = w.sel.slaveR) (hslaveW : w'.sel.slaveW = w.sel.slaveW)
    (hjobs : w'.sel.resolutionJobs = w.sel.resolutionJobs)
    (hpool : w'.pool = a :: w.pool ∧ w'.allocated = w.allocated ∨
      w'.pool = w.pool ∧ w'.allocated = Function.update w.allocated a false)
    (hresolvers : w'.resolvers = w.resolvers) : Finished a w w' where
  frame :=
    { heap := hheap
      items := fun fd it hit => by
        rw [hitem]
        by_cases hg : gone fd
        · rw [if_pos hg]
          refine ⟨by simp, fun h => ?_⟩
          exact absurd ((howns fd it h).mp hg) hit
        · rw [if_neg hg]
      unregistered := fun fd h h' => by
        have hg : ¬ gone fd := fun hg => by
          have := hregistered fd hg
          rw [h'] at this
          exact absurd this (by simp)
        rw [hitem, if_neg hg, hopen fd hg]
        exact ⟨h, h'⟩
      slaveR := hslaveR, slaveW := hslaveW, jobs := hjobs }
  sound := by
    refine ⟨hwf, fun fd it h => ?_⟩
    rw [hitem] at h
    split_ifs at h with hg
    rw [hopen fd hg]
    exact hs.isOpen fd it h
  gone fd it h hown := by
    rw [hitem] at h
    split_ifs at h with hg
    exact hg ((howns fd it h).mpr hown)
  pool := hpool
  resolvers := hresolvers

/-- **Finishing** a connection whose origin descriptor is not leaked succeeds. -/
theorem finishedSuscription_ok {l : Wires} (hs : Sound w) (hw : Wired w key.data l)
    (hl : l.origin ≠ .leaked) :
    ∃ w', finishedSuscription key w = .ok w' ∧ Finished key.data w w' := by
  have hclient : ∃ w₁, finishFd (w.heap key.data).clientFd w = .ok w₁ ∧
      Unregistered key.data (w.heap key.data).clientFd w w₁ :=
    finishFd_unregistered hs hw.client ⟨rfl, rfl⟩
  obtain ⟨w₁, h₁, hu₁⟩ := hclient
  have hfinish : finishedSuscription key w = finishFd (w.heap key.data).originFd w₁ := by
    show (finishFd (w.heap key.data).clientFd w >>= fun w₁ => _) = _
    rw [h₁, ok_bind]
  have ho := hw.origin
  have hrefs := hw.references
  cases hl' : l.origin with
  | leaked => exact absurd hl' hl
  | absent =>
    -- the client's descriptor is the only one, and the struct is given back with it
    simp only [OriginIs, hl', Bool.false_eq_true, if_false] at ho hrefs
    refine ⟨w₁, ?_, ?_⟩
    · rw [hfinish, ho, finishFd, if_pos rfl]
    · refine finished_of_items (fun fd => fd = (w.heap key.data).clientFd) hs hu₁.wf hu₁.item
        ?_ ?_ ?_ ?_ hu₁.slaveR hu₁.slaveW hu₁.jobs ?_ hu₁.resolvers
      · intro fd hg
        rw [hu₁.isOpen, Function.update_of_ne hg]
      · intro fd it hit
        refine ⟨?_, fun hown => ?_⟩
        · rintro rfl
          rw [hw.client, Option.some.injEq] at hit
          subst hit
          exact ⟨rfl, rfl⟩
        · rcases hw.only fd it hit hown with h | h
          · exact h
          · rw [h, ho] at hit
            exact absurd hit (by simp [FdSelector.item, invalidFd])
      · rintro fd rfl
        rw [hw.client]
        rfl
      · intro b hb
        rw [hu₁.heap, heap_destroySuscription hb]
      · rw [hu₁.pool, hu₁.allocated]
        exact pool_destroySuscription hrefs
  | armed i =>
    -- removing the client's descriptor takes one of the two references, removing the origin's the
    -- struct
    simp only [OriginIs, hl', if_true] at ho hrefs
    have hrefs₁ : (w₁.heap key.data).references = 1 := by
      rw [hu₁.heap, destroySuscription, if_neg (by omega)]
      simp [World.modify, hrefs]
    have hs₁ : Sound w₁ := by
      refine ⟨hu₁.wf, fun fd it h => ?_⟩
      rw [hu₁.item] at h
      split_ifs at h with hg
      rw [hu₁.isOpen, Function.update_of_ne hg]
      exact hs.isOpen fd it h
    have hit₁ : w₁.sel.item (w.heap key.data).originFd =
        some ⟨(w.heap key.data).originFd, i, .suscriptions, key.data⟩ := by
      rw [hu₁.item, if_neg ho.1, ho.2]
    obtain ⟨w₂, h₂, hu₂⟩ := finishFd_unregistered (a := key.data) hs₁ hit₁ ⟨rfl, rfl⟩
    have hpool₁ : w₁.pool = w.pool ∧ w₁.allocated = w.allocated := by
      rw [hu₁.pool, hu₁.allocated, destroySuscription, if_neg (by omega)]
      exact ⟨rfl, rfl⟩
    refine ⟨w₂, ?_, ?_⟩
    · rw [hfinish, h₂]
    · refine finished_of_items (fun fd =>
        fd = (w.heap key.data).originFd ∨ fd = (w.heap key.data).clientFd) hs hu₂.wf ?_
        ?_ ?_ ?_ ?_ (hu₂.slaveR.trans hu₁.slaveR) (hu₂.slaveW.trans hu₁.slaveW)
        (hu₂.jobs.trans hu₁.jobs) ?_ (hu₂.resolvers.trans hu₁.resolvers)
      · intro fd
        rw [hu₂.item, hu₁.item]
        by_cases h1 : fd = (w.heap key.data).originFd
        · rw [if_pos h1, if_pos (.inl h1)]
        · by_cases h2 : fd = (w.heap key.data).clientFd
          · rw [if_neg h1, if_pos h2, if_pos (.inr h2)]
          · rw [if_neg h1, if_neg h2, if_neg (not_or.mpr ⟨h1, h2⟩)]
      · intro fd hg
        obtain ⟨h1, h2⟩ := not_or.mp hg
        rw [hu₂.isOpen, Function.update_of_ne h1, hu₁.isOpen, Function.update_of_ne h2]
      · intro fd it hit
        refine ⟨?_, fun hown => (hw.only fd it hit hown).symm⟩
        rintro (rfl | rfl)
        · rw [ho.2, Option.some.injEq] at hit
          subst hit
          exact ⟨rfl, rfl⟩
        · rw [hw.client, Option.some.injEq] at hit
          subst hit
          exact ⟨rfl, rfl⟩
      · rintro fd (rfl | rfl)
        · rw [ho.2]
          rfl
        · rw [hw.client]
          rfl
      · intro b hb
        rw [hu₂.heap, heap_destroySuscription hb, hu₁.heap, heap_destroySuscription hb]
      · rw [hu₂.pool, hu₂.allocated, ← hpool₁.1, ← hpool₁.2]
        exact pool_destroySuscription hrefs₁

/-- Finishing a connection whose origin descriptor was never registered aborts. -/
theorem finishedSuscription_leaked {l : Wires} (hs : Sound w) (hw : Wired w key.data l)
    (hl : l.origin = .leaked) : finishedSuscription key w = .error .abort := by
  obtain ⟨w₁, h₁, hu₁⟩ := finishFd_unregistered (a := key.data) hs hw.client ⟨rfl, rfl⟩
  have ho := hw.origin
  simp only [OriginIs, hl] at ho
  have hst : (selectorUnregisterFd handleClose w₁.sel (w.heap key.data).originFd w₁).1 ≠
      .success := by
    rw [Ne, FdSelector.unregister_status, hu₁.item]
    split_ifs
    · simp
    · simp [ho.2.2]
  show (finishFd (w.heap key.data).clientFd w >>= fun w₁ => _) = _
  rw [h₁, ok_bind, finishFd, if_neg ho.1]
  rcases h :
    selectorUnregisterFd handleClose w₁.sel (w.heap key.data).originFd w₁ with ⟨st, sel, w'⟩
  rw [h] at hst
  cases st <;> first | rfl | exact absurd rfl hst

end

end Pop3Proxy
