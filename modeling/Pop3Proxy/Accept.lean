/-
# Accepting a connection

What `pop3_passive_accept` does to the program's memory: it either admits a new
connection at an address nothing refers to, or leaves the registered items
alone.
-/
import Pop3Proxy.Connection

namespace Pop3Proxy

/-- Some descriptor is registered for the connection `a`. -/
def Live (w : World) (a : Addr) : Prop := ∃ fd it, w.sel.item fd = some it ∧ Owns a it

/-- The struct at `a` is a connection that was accepted and is not finished: it
is allocated and not in the pool. -/
def InUse (w : World) (a : Addr) : Prop := w.allocated a = true ∧ a ∉ w.pool

/-- The pool holds different structs, all allocated; what is in use is what has
a descriptor registered. -/
structure PoolWf (w : World) : Prop where
  nodup : w.pool.Nodup
  allocated : ∀ a ∈ w.pool, w.allocated a = true
  notLive : ∀ a ∈ w.pool, ¬ Live w a
  live : ∀ a, Live w a → w.allocated a = true
  used : ∀ a, InUse w a → Live w a

/-- The pool after something happened to the struct at `a` only. -/
structure PoolKept (a : Addr) (w w' : World) : Prop where
  nodup : w'.pool.Nodup
  allocated : ∀ b ∈ w'.pool, w'.allocated b = true
  pool : ∀ b, b ≠ a → (b ∈ w'.pool ↔ b ∈ w.pool)
  others : ∀ b, b ≠ a → w'.allocated b = w.allocated b

/-- A new connection at `a`. -/
structure Admitted (io : Io) (a : Addr) (w w' : World) : Prop where
  frame : Frame a w w'
  sound : Sound w'
  notLive : ¬ Live w a
  wired : Wired w' a ⟨OP_WRITE, .absent⟩
  new : ∃ client, w'.heap a = .new client
  accepted : io.accept = some (w'.heap a).clientFd
  closed : w.isOpen (w'.heap a).clientFd = false
  isOpen : w'.isOpen = Function.update w.isOpen (w'.heap a).clientFd true
  poolKept : PoolKept a w w'
  notPooled : a ∉ w'.pool
  allocated : w'.allocated a = true
  resolvers : w'.resolvers = w.resolvers

/-- No connection was admitted; at most the unused struct at `a` has changed. -/
structure Rejected (a : Addr) (w w' : World) : Prop where
  frame : Frame a w w'
  sound : Sound w'
  notLive : ¬ Live w a
  notLive' : ¬ Live w' a
  isOpen : w'.isOpen = w.isOpen
  poolKept : PoolKept a w w'
  unused : ¬ InUse w' a
  resolvers : w'.resolvers = w.resolvers

/-- The struct `pop3_new` returns: not in use, and no longer in the pool. -/
structure Allocated (a : Addr) (client : Int) (w w' : World) : Prop where
  notLive : ¬ Live w a
  heap : w'.heap a = .new client
  others : ∀ b, b ≠ a → w'.heap b = w.heap b
  sel : w'.sel = w.sel
  isOpen : w'.isOpen = w.isOpen
  resolvers : w'.resolvers = w.resolvers
  poolKept : PoolKept a w w'
  notPooled : a ∉ w'.pool
  allocated : w'.allocated a = true

section
variable {io : Io} {w : World}

theorem pop3New_allocated (hp : PoolWf w) {client : Int} {a : Addr} {w' : World}
    (h : pop3New io w client = some (a, w')) : Allocated a client w w' := by
  unfold pop3New at h
  cases hpool : w.pool with
  | cons b pool =>
    simp only [hpool, Option.some.injEq, Prod.mk.injEq] at h
    obtain ⟨rfl, rfl⟩ := h
    have hnodup := hp.nodup
    rw [hpool, List.nodup_cons] at hnodup
    have hmem : b ∈ w.pool := by simp [hpool]
    exact
      { notLive := hp.notLive b hmem
        heap := Function.update_self _ _ _
        others := fun c hc => Function.update_of_ne hc _ _
        sel := rfl, isOpen := rfl, resolvers := rfl
        poolKept :=
          { nodup := hnodup.2
            allocated := fun c hc => hp.allocated c (by simp [hpool, show c ∈ pool from hc])
            pool := fun c hc => by
              rw [hpool, List.mem_cons]
              exact (or_iff_right hc).symm
            others := fun _ _ => rfl }
        notPooled := hnodup.1
        allocated := hp.allocated b hmem }
  | nil =>
    simp only [hpool] at h
    split_ifs at h with hm
    simp only [Option.some.injEq, Prod.mk.injEq] at h
    obtain ⟨rfl, rfl⟩ := h
    simp only [Bool.and_eq_true, Bool.not_eq_true'] at hm
    exact
      { notLive := fun hl => by
          have := hp.live _ hl
          rw [hm.2] at this
          exact absurd this (by simp)
        heap := Function.update_self _ _ _
        others := fun c hc => Function.update_of_ne hc _ _
        sel := rfl, isOpen := rfl, resolvers := rfl
        poolKept :=
          { nodup := List.nodup_nil
            allocated := fun c hc => absurd hc (List.not_mem_nil)
            pool := fun c _ => by rw [← hpool]; exact Iff.rfl
            others := fun c hc => Function.update_of_ne hc _ _ }
        notPooled := List.not_mem_nil
        allocated := Function.update_self _ _ _ }

/-- Opening a descriptor and closing it again. -/
theorem closeFd_openFd {fd : Int} (h : w.isOpen fd = false) : (w.openFd fd).closeFd fd = w := by
  have hopen : Function.update (Function.update w.isOpen fd true) fd false = w.isOpen := by
    rw [Function.update_idem, ← h, Function.update_eq_self]
  simp [World.closeFd, World.openFd, hopen]

/-- **Accepting**: a connection is admitted, or nothing registered changes. -/
theorem pop3PassiveAccept_cases (io : Io) (hs : Sound w) (hp : PoolWf w) :
    pop3PassiveAccept io w = w ∨
      ∃ a, Admitted io a w (pop3PassiveAccept io w) ∨ Rejected a w (pop3PassiveAccept io w) := by
  unfold pop3PassiveAccept
  cases hf : w.fresh io.accept with
  | none => exact .inl rfl
  | some client =>
    obtain ⟨hc0, hclosed⟩ := fresh_spec hf
    simp only
    -- from here on a descriptor is open, and every failure closes it again
    cases hnio : io.setNio with
    | false => exact .inl (closeFd_openFd hclosed)
    | true =>
      simp only [Bool.not_true, Bool.false_eq_true, if_false]
      have hp₁ : PoolWf (w.openFd client) :=
        ⟨hp.nodup, hp.allocated, hp.notLive, hp.live, hp.used⟩
      cases hnew : pop3New io (w.openFd client) client with
      | none => exact .inl (closeFd_openFd hclosed)
      | some r =>
        obtain ⟨a, w₁⟩ := r
        have ha := pop3New_allocated hp₁ hnew
        have hnotLive : ¬ Live w a := ha.notLive
        have hclient : w.sel.item client = none := hs.item_of_closed hclosed
        have hsel : w₁.sel = w.sel := ha.sel
        right
        refine ⟨a, ?_⟩
        show Admitted io a w (if (w₁.register io client OP_WRITE a).1 ≠ .success then _ else _) ∨
          Rejected a w (if (w₁.register io client OP_WRITE a).1 ≠ .success then _ else _)
        have hsize : itemsMaxSize < w₁.sel.fdSize := by
          rw [hsel]
          exact hs.wf.fdSize
        -- registering decides: the item appears, or the table is as it was
        by_cases hst : (w₁.register io client OP_WRITE a).1 = .success
        · left
          rw [if_neg (by simp [hst])]
          have hitem : ∀ fd, (w₁.register io client OP_WRITE a).2.sel.item fd =
              if fd = client then some ⟨client, OP_WRITE, .suscriptions, a⟩ else w.sel.item fd :=
            fun fd => by
              rw [← hsel]
              exact FdSelector.item_register hsize hst fd
          have hopen : (w₁.register io client OP_WRITE a).2.isOpen =
              Function.update w.isOpen client true := ha.isOpen
          have hheap : (w₁.register io client OP_WRITE a).2.heap a = .new client := ha.heap
          exact
            { frame :=
                { heap := ha.others
                  items := fun fd it hit => by
                    rw [hitem]
                    by_cases heq : fd = client
                    · subst heq
                      rw [if_pos rfl, hclient]
                      refine ⟨fun h => ?_, by simp⟩
                      simp only [Option.some.injEq] at h
                      subst h
                      exact absurd ⟨rfl, rfl⟩ hit
                    · rw [if_neg heq]
                  unregistered := fun fd h h' => by
                    have heq : fd ≠ client := by
                      rintro rfl
                      rw [hclosed] at h
                      exact absurd h (by simp)
                    rw [hopen, hitem, if_neg heq, Function.update_of_ne heq]
                    exact ⟨h, h'⟩
                  slaveR := by rw [← hsel]; exact (FdSelector.rest_register _ hsize _ _ _ _).1
                  slaveW := by rw [← hsel]; exact (FdSelector.rest_register _ hsize _ _ _ _).2.1
                  jobs := by rw [← hsel]; exact (FdSelector.rest_register _ hsize _ _ _ _).2.2 }
              sound := by
                refine ⟨FdSelector.wf_register (by rw [hsel]; exact hs.wf) _ _ _ _ _, ?_⟩
                intro fd it h
                rw [hitem] at h
                rw [hopen]
                by_cases heq : fd = client
                · rw [heq, Function.update_self]
                · rw [if_neg heq] at h
                  rw [Function.update_of_ne heq, hs.isOpen fd it h]
              notLive := hnotLive
              wired :=
                { client := by
                    rw [hheap, hitem]
                    exact if_pos rfl
                  origin := by
                    show ((w₁.register io client OP_WRITE a).2.heap a).originFd = -1
                    rw [hheap]
                    rfl
                  only := fun fd it h hown => by
                    left
                    rw [hheap]
                    rw [hitem] at h
                    by_cases heq : fd = client
                    · exact heq
                    · rw [if_neg heq] at h
                      exact absurd ⟨fd, it, h, hown⟩ hnotLive
                  references := by
                    rw [hheap]
                    rfl }
              new := ⟨client, hheap⟩
              accepted := by
                rw [hheap]
                exact (Option.filter_eq_some_iff.mp hf).1
              closed := by
                rw [hheap]
                exact hclosed
              isOpen := by
                rw [hheap]
                exact hopen
              poolKept := ⟨ha.poolKept.nodup, ha.poolKept.allocated, ha.poolKept.pool,
                ha.poolKept.others⟩
              notPooled := ha.notPooled
              allocated := ha.allocated
              resolvers := ha.resolvers }
        · right
          rw [if_pos hst]
          have hsame : (w₁.register io client OP_WRITE a).2.sel = w.sel := by
            rcases FdSelector.register_cases io.malloc hsize client FdHandler.suscriptions
              OP_WRITE a
              with ⟨h, -⟩ | ⟨-, h, -⟩
            · exact absurd h hst
            · rw [← hsel]
              exact h
          have hopen : ((w₁.register io client OP_WRITE a).2.closeFd client).isOpen = w.isOpen := by
            show Function.update w₁.isOpen client false = w.isOpen
            rw [ha.isOpen]
            show Function.update (Function.update w.isOpen client true) client false = _
            rw [Function.update_idem, ← hclosed, Function.update_eq_self]
          have hrefs :
            (((w₁.register io client OP_WRITE a).2.closeFd client).heap a).references = 1 := by
            show (w₁.heap a).references = 1
            rw [ha.heap]
            rfl
          have hd := rest_destroySuscription a ((w₁.register io client OP_WRITE a).2.closeFd client)
          have hsel' := hd.1.trans hsame
          have hopen' := hd.2.1.trans hopen
          have hlive : ¬ Live (destroySuscription a
              ((w₁.register io client OP_WRITE a).2.closeFd client)) a := by
            rintro ⟨fd, it, h, hown⟩
            rw [hsel'] at h
            exact hnotLive ⟨fd, it, h, hown⟩
          exact
            { frame :=
                { heap := fun b hb => (heap_destroySuscription hb _).trans (ha.others b hb)
                  items := fun fd it _ => by rw [hsel']
                  unregistered := fun fd h h' => by
                    rw [hsel', hopen']
                    exact ⟨h, h'⟩
                  slaveR := by rw [hsel']
                  slaveW := by rw [hsel']
                  jobs := by rw [hsel'] }
              sound := by
                refine ⟨by rw [hsel']; exact hs.wf, fun fd it h => ?_⟩
                rw [hsel'] at h
                rw [hopen']
                exact hs.isOpen fd it h
              notLive := hnotLive
              notLive' := hlive
              isOpen := hopen'
              poolKept := by
                -- the struct goes to the pool where it has room, and is freed otherwise
                rcases pool_destroySuscription hrefs with ⟨h1, h2⟩ | ⟨h1, h2⟩
                · refine ⟨?_, ?_, ?_, ?_⟩
                  · rw [h1]
                    exact List.nodup_cons.mpr ⟨ha.notPooled, ha.poolKept.nodup⟩
                  · rw [h1, h2]
                    intro b hb
                    rcases List.mem_cons.mp hb with rfl | hb
                    · exact ha.allocated
                    · exact ha.poolKept.allocated b hb
                  · rw [h1]
                    exact fun b hne =>
                      (List.mem_cons.trans (or_iff_right hne)).trans (ha.poolKept.pool b hne)
                  · rw [h2]
                    exact ha.poolKept.others
                · have hupd :
                    ∀ b, b ≠ a → Function.update w₁.allocated a false b = w₁.allocated b :=
                    fun b hb => Function.update_of_ne hb _ _
                  refine ⟨?_, ?_, ?_, ?_⟩
                  · rw [h1]
                    exact ha.poolKept.nodup
                  · rw [h1, h2]
                    intro b hb
                    have hne : b ≠ a := by
                      rintro rfl
                      exact ha.notPooled hb
                    exact (hupd b hne).trans (ha.poolKept.allocated b hb)
                  · rw [h1]
                    exact ha.poolKept.pool
                  · rw [h2]
                    exact fun b hne => (hupd b hne).trans (ha.poolKept.others b hne)
              unused := by
                rintro ⟨hall, hmem⟩
                rcases pool_destroySuscription hrefs with ⟨h1, -⟩ | ⟨-, h2⟩
                · rw [h1] at hmem
                  exact hmem List.mem_cons_self
                · rw [h2, Function.update_self] at hall
                  exact absurd hall (by simp)
              resolvers := hd.2.2.trans ha.resolvers }

end

end Pop3Proxy
