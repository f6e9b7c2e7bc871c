/-
# The lifetime of a connection's struct

`references` counts the selector items a struct is registered with.  A struct
that no item refers to is in the pool, once, or free; `pop3_new` takes it from
there and the last removal gives it back.  `Conserved` is this account for one
address: it holds after every event of a run, and after every single removal
that follows, in particular all through `selector_destroy`.
-/
import Pop3Proxy.Runs
import Mathlib.Data.Finset.Card

namespace Pop3Proxy

/-- The descriptors registered with the struct at `a`. -/
def registered (w : World) (a : Addr) : Finset ℕ :=
  (Finset.range itemsMaxSize).filter fun n =>
    (w.sel.fds n).any (fun it => decide (Owns a it)) = true

/-- How often the struct at `a` is available: its links in the pool, and one if
it is free. -/
def available (w : World) (a : Addr) : ℕ := w.pool.count a + if w.allocated a then 0 else 1

/-- The account of the struct at `a`: its references are its registrations, and
it is available, exactly once, when it has none. -/
structure Conserved (w : World) (a : Addr) : Prop where
  references : registered w a ≠ ∅ → (w.heap a).references = (registered w a).card
  available : available w a = if registered w a = ∅ then 1 else 0

/-- `selector_unregister_fd` -/
def World.unregister (w : World) (fd : Int) : World :=
  let (_, sel, w) := selectorUnregisterFd handleClose w.sel fd w
  { w with sel := sel }

/-- `selector_destroy`; an item that is not in use is left alone by
`selector_unregister_fd` as well. -/
def selectorDestroy (w : World) : World :=
  let w := (List.range w.sel.fdSize).foldl (fun w (i : ℕ) => w.unregister i) w
  { w with sel := { w.sel with fds := fun _ => none, fdSize := 0, resolutionJobs := [] } }

section
variable {w : World} {a : Addr}

/-! ## Taking and giving back -/

theorem available_cons (h : w.allocated a = true) (n : ℕ) :
    available { w with pool := a :: w.pool, poolSize := n } a = available w a + 1 := by
  simp [available, h]

theorem available_free (h : w.allocated a = true) :
    available (destroySuscription_ a w) a = available w a + 1 := by
  simp [available, destroySuscription_, h]

/-- The last reference gives it back. -/
theorem available_destroySuscription (hall : w.allocated a = true)
    (h : (w.heap a).references = 1) :
    available (destroySuscription a w) a = available w a + 1 := by
  rw [destroySuscription, if_pos h]
  split_ifs
  · exact available_cons hall _
  · exact available_free hall

theorem available_of_ne {b : Addr} (hb : b ≠ a) :
    available (destroySuscription a w) b = available w b := by
  unfold destroySuscription
  split_ifs
  · simp [available, hb.symm]
  · simp [available, destroySuscription_, Function.update_of_ne hb]
  · rfl

/-! ## Registrations -/

theorem mem_registered {n : ℕ} :
    n ∈ registered w a ↔ ∃ it, w.sel.item n = some it ∧ Owns a it := by
  rw [registered, Finset.mem_filter, Finset.mem_range, Option.any_eq_true]
  constructor
  · rintro ⟨hn, it, hit, hown⟩
    exact ⟨it, by rw [FdSelector.item_natCast hn, hit], by simpa using hown⟩
  · rintro ⟨it, hit, hown⟩
    obtain ⟨hv, hf⟩ := FdSelector.item_eq_some.mp hit
    have hn := (FdSelector.toNat_of_valid hv).2
    rw [Int.toNat_natCast] at hn hf
    exact ⟨hn, it, hf, by simpa using hown⟩

theorem registered_eq_empty : registered w a = ∅ ↔ ¬ Live w a := by
  rw [Finset.eq_empty_iff_forall_notMem]
  constructor
  · rintro h ⟨fd, it, hit, hown⟩
    have hfd := (FdSelector.toNat_of_valid (FdSelector.item_eq_some.mp hit).1).1
    exact h fd.toNat (mem_registered.mpr ⟨it, by rw [hfd, hit], hown⟩)
  · intro h n hn
    obtain ⟨it, hit, hown⟩ := mem_registered.mp hn
    exact h ⟨n, it, hit, hown⟩

/-- The wires of a connection are its registrations. -/
theorem Wired.card_registered {l : Wires} (hw : Wired w a l) :
    (w.heap a).references = (registered w a).card := by
  have hvalid : ∀ {fd it}, w.sel.item fd = some it → (fd.toNat : Int) = fd := fun h =>
    (FdSelector.toNat_of_valid (FdSelector.item_eq_some.mp h).1).1
  have hc := hvalid hw.client
  have ho := hw.origin
  rw [hw.references]
  -- nothing is registered but the client and, if it is armed, the origin
  have honly : ∀ n, n ∈ registered w a →
      n = (w.heap a).clientFd.toNat ∨ (n : Int) = (w.heap a).originFd := by
    intro n hn
    obtain ⟨it, hit, hown⟩ := mem_registered.mp hn
    rcases hw.only n it hit hown with h | h
    · left
      omega
    · exact Or.inr h
  have hclient : (w.heap a).clientFd.toNat ∈ registered w a :=
    mem_registered.mpr ⟨_, by rw [hc]; exact hw.client, rfl, rfl⟩
  have hsingle : (∀ (n : ℕ) it, w.sel.item (n : Int) = some it → (n : Int) ≠ (w.heap a).originFd) →
      (registered w a).card = 1 := by
    intro hne
    refine Finset.card_eq_one.mpr ⟨(w.heap a).clientFd.toNat, Finset.eq_singleton_iff_unique_mem.mpr
      ⟨hclient, fun n hn => ?_⟩⟩
    obtain ⟨it, hit, -⟩ := mem_registered.mp hn
    exact (honly n hn).resolve_right (hne n it hit)
  cases hl : l.origin with
  | absent =>
    simp only [OriginIs, hl] at ho
    refine (hsingle fun n it _ h => ?_).symm
    rw [ho] at h
    omega
  | leaked =>
    simp only [OriginIs, hl] at ho
    refine (hsingle fun n it hit h => ?_).symm
    rw [h, ho.2.2] at hit
    exact absurd hit (by simp)
  | armed i =>
    simp only [OriginIs, hl] at ho
    have hof := hvalid ho.2
    have hset : registered w a = {(w.heap a).clientFd.toNat, (w.heap a).originFd.toNat} := by
      ext n
      rw [Finset.mem_insert, Finset.mem_singleton]
      refine ⟨fun hn => (honly n hn).imp id fun h => by omega, ?_⟩
      rintro (rfl | rfl)
      · exact hclient
      · exact mem_registered.mpr ⟨_, by rw [hof]; exact ho.2, rfl, rfl⟩
    have hne : (w.heap a).clientFd.toNat ≠ (w.heap a).originFd.toNat := by
      have := ho.1
      omega
    rw [hset, Finset.card_pair hne]
    rfl

/-- The account of every struct in a reachable state. -/
theorem WorldInv.conserved {pending : List Int} (h : WorldInv w pending) (a : Addr) :
    Conserved w a where
  references hne := by
    rw [Ne, registered_eq_empty, not_not] at hne
    obtain ⟨s, l, hc⟩ := h.connected a hne
    exact hc.wired.card_registered
  available := by
    by_cases hl : Live w a
    · have hnot : a ∉ w.pool := fun hmem => h.pool.notLive a hmem hl
      rw [if_neg (by rw [registered_eq_empty]; exact not_not.mpr hl)]
      simp [Pop3Proxy.available, h.pool.live a hl, List.count_eq_zero.mpr hnot]
    · rw [if_pos (registered_eq_empty.mpr hl)]
      by_cases hmem : a ∈ w.pool
      · simp [Pop3Proxy.available, h.pool.allocated a hmem,
          List.count_eq_one_of_mem h.pool.nodup hmem]
      · have hall : w.allocated a = false := by
          by_contra hall
          rw [Bool.not_eq_false] at hall
          exact hl (h.pool.used a ⟨hall, hmem⟩)
        simp [Pop3Proxy.available, hall, List.count_eq_zero.mpr hmem]

/-! ## Removal -/

theorem unregister_item (w : World) (fd fd' : Int) :
    (w.unregister fd).sel.item fd' = if fd' = fd then none else w.sel.item fd' :=
  FdSelector.item_unregister handleClose w.sel fd w fd'

/-- What a removal does besides clearing the item. -/
theorem unregister_some {fd : Int} {it : Item FdHandler Addr} (h : w.sel.item fd = some it) :
    (w.unregister fd).heap = (handleClose it w).heap ∧
      available (w.unregister fd) = available (handleClose it w) := by
  have hclosed := FdSelector.unregister_closed handleClose w.sel fd w
  simp only [h] at hclosed
  rw [← hclosed]
  exact ⟨rfl, rfl⟩

theorem unregister_none {fd : Int} (h : w.sel.item fd = none) :
    (w.unregister fd).heap = w.heap ∧ available (w.unregister fd) = available w := by
  have hclosed := FdSelector.unregister_closed handleClose w.sel fd w
  simp only [h] at hclosed
  constructor
  · show (selectorUnregisterFd handleClose w.sel fd w).2.2.heap = w.heap
    rw [hclosed]
  · show available (selectorUnregisterFd handleClose w.sel fd w).2.2 = available w
    rw [hclosed]

theorem registered_unregister (w : World) (fd : Int) (a : Addr) :
    registered (w.unregister fd) a = (registered w a).filter fun n : ℕ => (n : Int) ≠ fd := by
  ext n
  rw [Finset.mem_filter, mem_registered, mem_registered, unregister_item]
  by_cases h : (n : Int) = fd <;> simp [h]

/-- **One removal** keeps every account. -/
theorem Conserved.unregister (h : ∀ a, Conserved w a) (fd : Int) (a : Addr) :
    Conserved (w.unregister fd) a := by
  have hset := registered_unregister w fd a
  have ha := h a
  -- an item of another struct, or none, is of no concern to `a`
  have hother : (∀ it, w.sel.item fd = some it → ¬ Owns a it) →
      registered (w.unregister fd) a = registered w a := by
    intro hnot
    rw [hset, Finset.filter_eq_self]
    rintro n hn rfl
    obtain ⟨it, hit, hown⟩ := mem_registered.mp hn
    exact hnot it hit hown
  cases hit : w.sel.item fd with
  | none =>
    obtain ⟨hheap, havail⟩ := unregister_none hit
    have hsame := hother (by simp [hit])
    exact ⟨by rw [hsame, hheap]; exact ha.references, by rw [hsame, havail]; exact ha.available⟩
  | some it =>
    obtain ⟨hheap, havail⟩ := unregister_some hit
    by_cases hown : Owns a it
    · obtain ⟨hh, rfl⟩ := hown
      have hclose : handleClose it w = destroySuscription it.data w := by simp [handleClose, hh]
      rw [hclose] at hheap havail
      have hfd := (FdSelector.toNat_of_valid (FdSelector.item_eq_some.mp hit).1).1
      have hmem : fd.toNat ∈ registered w it.data :=
        mem_registered.mpr ⟨it, by rw [hfd, hit], hh, rfl⟩
      have hne : registered w it.data ≠ ∅ := Finset.ne_empty_of_mem hmem
      have hrefs := ha.references hne
      have hzero := ha.available
      rw [if_neg hne] at hzero
      have herase :
        registered (w.unregister fd) it.data = (registered w it.data).erase fd.toNat := by
        rw [hset]
        ext n
        rw [Finset.mem_filter, Finset.mem_erase, and_comm]
        exact and_congr_left fun _ => by omega
      have hcard := Finset.card_erase_of_mem hmem
      rw [← herase] at hcard
      by_cases hlast : (w.heap it.data).references = 1
      · have hempty : registered (w.unregister fd) it.data = ∅ := by
          rw [← Finset.card_eq_zero, hcard, ← hrefs, hlast]
        have hall : w.allocated it.data = true := by
          by_contra hall
          simp [Pop3Proxy.available, hall] at hzero
        refine ⟨fun h => absurd hempty h, ?_⟩
        rw [if_pos hempty, havail, available_destroySuscription hall hlast, hzero]
      · have hpos : 0 < (registered w it.data).card := Finset.card_pos.mpr ⟨_, hmem⟩
        have hmany : registered (w.unregister fd) it.data ≠ ∅ := by
          rw [Ne, ← Finset.card_eq_zero, hcard]
          omega
        refine ⟨fun _ => ?_, ?_⟩
        · rw [hheap, destroySuscription, if_neg hlast, hcard]
          simp [World.modify, hrefs]
        · rw [if_neg hmany, havail, destroySuscription, if_neg hlast]
          exact hzero
    · have hsame := hother (by simpa [hit] using hown)
      cases hh : it.handler with
      | passive =>
        simp only [handleClose, hh] at hheap havail
        exact ⟨by rw [hsame, hheap]; exact ha.references, by rw [hsame, havail]; exact ha.available⟩
      | suscriptions =>
        simp only [handleClose, hh] at hheap havail
        have hdata : a ≠ it.data := fun heq => hown ⟨hh, heq.symm⟩
        refine ⟨?_, ?_⟩
        · rw [hsame, hheap, heap_destroySuscription hdata]
          exact ha.references
        · rw [hsame, havail, available_of_ne hdata]
          exact ha.available

/-- **Any removals** keep every account. -/
theorem Conserved.unregisterAll (h : ∀ a, Conserved w a) (fds : List Int) (a : Addr) :
    Conserved (fds.foldl World.unregister w) a := by
  induction fds generalizing w with
  | nil => exact h a
  | cons fd fds ih => exact ih fun a => Conserved.unregister h fd a

/-- A removed descriptor has no item. -/
theorem item_unregisterAll (w : World) (fds : List Int) (fd : Int) :
    (fds.foldl World.unregister w).sel.item fd = if fd ∈ fds then none else w.sel.item fd := by
  induction fds generalizing w with
  | nil => simp
  | cons fd' fds ih =>
    rw [List.foldl_cons, ih, unregister_item]
    by_cases h : fd = fd' <;> by_cases h' : fd ∈ fds <;> simp [h, h']

/-! ## The end of the selector -/

theorem wf_unregisterAll (hs : w.sel.Wf) (fds : List Int) :
    (fds.foldl World.unregister w).sel.Wf := by
  induction fds generalizing w with
  | nil => exact hs
  | cons fd fds ih => exact ih (FdSelector.wf_unregister hs handleClose fd w)

/-- The loop of `selector_destroy` is a list of removals. -/
theorem destroy_eq (w : World) :
    (List.range w.sel.fdSize).foldl (fun w (i : ℕ) => w.unregister i) w =
      ((List.range w.sel.fdSize).map Int.ofNat).foldl World.unregister w := by
  rw [List.foldl_map]
  rfl

/-- The loop of `selector_destroy` removes every item. -/
theorem registered_selectorDestroy (hs : w.sel.Wf) (a : Addr) :
    registered ((List.range w.sel.fdSize).foldl (fun w (i : ℕ) => w.unregister i) w) a = ∅ := by
  rw [destroy_eq, Finset.eq_empty_iff_forall_notMem]
  intro n hn
  obtain ⟨it, hit, -⟩ := mem_registered.mp hn
  rw [item_unregisterAll] at hit
  split_ifs at hit with hmem
  -- the table is longer than the largest descriptor it holds
  have hlt : n < w.sel.fdSize := by
    have hn := (hs.fd_eq n it (by simpa using (FdSelector.item_eq_some.mp hit).2)).2.1
    have hsize := hs.fdSize
    omega
  exact hmem (List.mem_map.mpr ⟨n, List.mem_range.mpr hlt, rfl⟩)

/-- **Lifetime.**  After any run, and any removals that follow it, each struct
has one reference for each item it is registered with, and is in the pool or
free, once, exactly when it has none; what an item refers to is neither pooled
nor free; and `selector_destroy` gives everything back. -/
theorem lifetime (server : Int) (origin : AddrType) (es : List Event) (fds : List Int) :
    let w := fds.foldl World.unregister (proxySystem.last (.start server origin) es).world
    (∀ a, Conserved w a) ∧
      (∀ fd it, w.sel.item fd = some it → it.handler = .suscriptions →
        it.data ∉ w.pool ∧ w.allocated it.data = true) ∧
      ∀ a, available (selectorDestroy w) a = 1 := by
  intro w
  have hstart : proxySystem.Reach (.start server origin) := .init ⟨server, origin, rfl⟩
  have hinv := (ProxyInv.of_reach (hstart.last (fun _ _ => trivial) es)).world
  have hw : ∀ a, Conserved w a := Conserved.unregisterAll hinv.conserved fds
  refine ⟨hw, fun fd it hit hh => ?_, fun a => ?_⟩
  · have hlive : registered w it.data ≠ ∅ := by
      rw [Ne, registered_eq_empty, not_not]
      exact ⟨fd, it, hit, hh, rfl⟩
    have havail := (hw it.data).available
    rw [if_neg hlive, available, Nat.add_eq_zero_iff, List.count_eq_zero] at havail
    refine ⟨havail.1, ?_⟩
    by_contra hall
    simp [hall] at havail
  · have hempty := registered_selectorDestroy (wf_unregisterAll hinv.sound.wf fds) a
    have hlast : Conserved _ a := Conserved.unregisterAll hw
      ((List.range w.sel.fdSize).map Int.ofNat) a
    rw [← destroy_eq] at hlast
    have havail := hlast.available
    rw [if_pos hempty] at havail
    exact havail

end

end Pop3Proxy
