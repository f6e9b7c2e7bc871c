/-
# The invariant of the program's memory

Between two handler calls every registered descriptor is the listening socket's
or one of the two of a connection in a state of the table, the pool is apart
from what is in use, and the connections whose names are being resolved are
exactly where their resolvers left them.

Every handler call changes one connection; `WorldInv.change` is the one
argument by which the others keep the invariant.
-/
import Pop3Proxy.Accept

namespace Pop3Proxy

/-- The connection `a` between two events. -/
structure Connected (w : World) (a : Addr) (s : Option States) (l : Wires) : Prop where
  wired : Wired w a l
  current : (w.heap a).current = s.map States.num
  allowed : Allowed s l

/-- The notifications to come, by descriptor: each is for a connection that
waits for it, and none comes twice. -/
structure Awaited (w : World) (pending : List Int) : Prop where
  nodup : pending.Nodup
  resolving : ∀ fd ∈ pending, ∃ it, w.sel.item fd = some it ∧ it.handler = .suscriptions ∧
    (w.heap it.data).clientFd = fd ∧
    (w.heap it.data).current = some States.resolvConnection.num

/-- The invariant, with the notifications to come. -/
structure WorldInv (w : World) (pending : List Int) : Prop where
  sound : Sound w
  pool : PoolWf w
  passive : ∀ fd it, w.sel.item fd = some it → it.handler = .passive → it.interest = OP_READ
  connected : ∀ a, Live w a → ∃ s l, Connected w a s l
  awaited : Awaited w pending
  slaves : ∀ n, ¬ (w.sel.slaveR n = true ∧ w.sel.slaveW n = true)

section
variable {a : Addr} {w w' : World} {pending : List Int}

/-! ## The other connections -/

theorem not_owns_of_ne {a b : Addr} {it : Item FdHandler Addr} (h : Owns b it) (hne : b ≠ a) :
    ¬ Owns a it := fun h' => hne (h.2.symm.trans h'.2)

theorem Frame.live (hf : Frame a w w') {b : Addr} (hb : b ≠ a) : Live w' b ↔ Live w b := by
  constructor <;> rintro ⟨fd, it, hit, hown⟩
  · exact ⟨fd, it, (hf.items fd it (not_owns_of_ne hown hb)).mp hit, hown⟩
  · exact ⟨fd, it, (hf.items fd it (not_owns_of_ne hown hb)).mpr hit, hown⟩

/-- **The frame rule** for a connection. -/
theorem Connected.frame {b : Addr} {s : Option States} {l : Wires} (hc : Connected w b s l)
    (hf : Frame a w w') (hb : b ≠ a) : Connected w' b s l := by
  have hheap := hf.heap b hb
  refine ⟨⟨?_, ?_, ?_, ?_⟩, ?_, hc.allowed⟩
  · rw [hheap]
    exact (hf.items _ _ (not_owns_of_ne ⟨rfl, rfl⟩ hb)).mpr hc.wired.client
  · have ho := hc.wired.origin
    cases hl : l.origin with
    | absent =>
      simp only [OriginIs, hl, hheap] at ho ⊢
      exact ho
    | leaked =>
      simp only [OriginIs, hl, hheap] at ho ⊢
      exact ⟨ho.1, hf.unregistered _ ho.2.1 ho.2.2⟩
    | armed i =>
      simp only [OriginIs, hl, hheap] at ho ⊢
      exact ⟨ho.1, (hf.items _ _ (not_owns_of_ne ⟨rfl, rfl⟩ hb)).mpr ho.2⟩
  · intro fd it hit hown
    rw [hheap]
    exact hc.wired.only fd it ((hf.items fd it (not_owns_of_ne hown hb)).mp hit) hown
  · rw [hheap]
    exact hc.wired.references
  · rw [hheap]
    exact hc.current

theorem Awaited.frame (h : Awaited w pending) (hf : Frame a w w')
    (hne : ∀ fd ∈ pending, ∀ it, w.sel.item fd = some it → ¬ Owns a it) : Awaited w' pending where
  nodup := h.nodup
  resolving fd hfd := by
    obtain ⟨it, hit, hh, hc, hs⟩ := h.resolving fd hfd
    have hown := hne fd hfd it hit
    have hdata : it.data ≠ a := fun heq => hown ⟨hh, heq⟩
    rw [← hf.heap _ hdata] at hc hs
    exact ⟨it, (hf.items fd it hown).mpr hit, hh, hc, hs⟩

/-- **One connection changes.** -/
theorem WorldInv.change {pending' : List Int} (h : WorldInv w pending) (hf : Frame a w w')
    (hs : Sound w') (hp : PoolKept a w w')
    (ha : Live w' a → w'.allocated a = true ∧ a ∉ w'.pool ∧ ∃ s l, Connected w' a s l)
    (hused : InUse w' a → Live w' a) (hawait : Awaited w' pending') : WorldInv w' pending' where
  sound := hs
  pool :=
    { nodup := hp.nodup
      allocated := hp.allocated
      notLive := fun b hb hl => by
        by_cases hne : b = a
        · subst hne
          exact (ha hl).2.1 hb
        · exact h.pool.notLive b ((hp.pool b hne).mp hb) ((hf.live hne).mp hl)
      live := fun b hl => by
        by_cases hne : b = a
        · subst hne
          exact (ha hl).1
        · rw [hp.others b hne]
          exact h.pool.live b ((hf.live hne).mp hl)
      used := fun b hb => by
        by_cases hne : b = a
        · subst hne
          exact hused hb
        · refine (hf.live hne).mpr (h.pool.used b ⟨?_, fun hmem => hb.2 ((hp.pool b hne).mpr hmem)⟩)
          rw [← hp.others b hne]
          exact hb.1 }
  passive fd it hit hpas := by
    have hown : ¬ Owns a it := fun hown => by
      rw [hown.1] at hpas
      exact absurd hpas (by simp)
    exact h.passive fd it ((hf.items fd it hown).mp hit) hpas
  connected b hl := by
    by_cases hne : b = a
    · subst hne
      exact (ha hl).2.2
    · obtain ⟨s, l, hc⟩ := h.connected b ((hf.live hne).mp hl)
      exact ⟨s, l, hc.frame hf hne⟩
  awaited := hawait
  slaves := by
    rw [hf.slaveR, hf.slaveW]
    exact h.slaves

/-! ## What a handler call can do -/

theorem PoolWf.kept_of_moved {next : States} {l : Wires} {ts : List SelectorKey} (h : PoolWf w)
    (hm : Moved a next l ts w w') : PoolKept a w w' where
  nodup := by
    rw [hm.pool]
    exact h.nodup
  allocated := by
    rw [hm.pool, hm.allocated]
    exact h.allocated
  pool := by
    rw [hm.pool]
    exact fun _ _ => Iff.rfl
  others := by
    rw [hm.allocated]
    exact fun _ _ => rfl

theorem PoolWf.kept_of_finished (h : PoolWf w) (hl : Live w a) (hfin : Finished a w w') :
    PoolKept a w w' := by
  have hnot : a ∉ w.pool := fun hmem => h.notLive a hmem hl
  rcases hfin.pool with ⟨h1, h2⟩ | ⟨h1, h2⟩
  · refine ⟨?_, ?_, ?_, ?_⟩
    · rw [h1]
      exact List.nodup_cons.mpr ⟨hnot, h.nodup⟩
    · rw [h1, h2]
      intro b hb
      rcases List.mem_cons.mp hb with rfl | hb
      · exact h.live b hl
      · exact h.allocated b hb
    · rw [h1]
      exact fun b hne => List.mem_cons.trans (or_iff_right hne)
    · rw [h2]
      exact fun _ _ => rfl
  · refine ⟨?_, ?_, ?_, ?_⟩
    · rw [h1]
      exact h.nodup
    · rw [h1, h2]
      intro b hb
      have hne : b ≠ a := by
        rintro rfl
        exact hnot hb
      rw [Function.update_of_ne hne, h.allocated b hb]
    · rw [h1]
      exact fun _ _ => Iff.rfl
    · rw [h2]
      exact fun b hne => Function.update_of_ne hne _ _

/-- A finished connection is no longer in use. -/
theorem Finished.unused (hfin : Finished a w w') : ¬ InUse w' a := by
  rintro ⟨hall, hmem⟩
  rcases hfin.pool with ⟨h1, -⟩ | ⟨-, h2⟩
  · rw [h1] at hmem
    exact hmem List.mem_cons_self
  · rw [h2, Function.update_self] at hall
    exact absurd hall (by simp)

/-- A connection that is in use has its client descriptor registered. -/
theorem Connected.live {s : Option States} {l : Wires} (hc : Connected w a s l) : Live w a :=
  ⟨_, _, hc.wired.client, rfl, rfl⟩

/-- A descriptor registered for a connection is armed as its wires say. -/
theorem Connected.dispatched {s : Option States} {l : Wires} (hc : Connected w a s l) {fd : Int}
    {it : Item FdHandler Addr} (hit : w.sel.item fd = some it) (hown : Owns a it) {op : Op}
    (hop : op.bit it.interest = true) : Dispatched w a s l fd op := by
  rcases hc.wired.only fd it hit hown with rfl | rfl
  · rw [hc.wired.client, Option.some.injEq] at hit
    subst hit
    exact .client rfl hop
  · have ho := hc.wired.origin
    cases hl : l.origin with
    | absent =>
      simp only [OriginIs, hl] at ho
      rw [ho] at hit
      exact absurd hit (by simp [FdSelector.item, invalidFd])
    | leaked =>
      simp only [OriginIs, hl] at ho
      rw [ho.2.2] at hit
      exact absurd hit (by simp)
    | armed i =>
      simp only [OriginIs, hl] at ho
      rw [ho.2, Option.some.injEq] at hit
      subst hit
      exact .origin rfl hl hop

/-- The state of a connection is determined by its struct. -/
theorem Connected.state_eq {s : Option States} {l : Wires} (hc : Connected w a s l) {t : States}
    (h : (w.heap a).current = some t.num) : s = some t := by
  have hcur := hc.current
  rw [h] at hcur
  cases s with
  | none => exact absurd hcur (by simp)
  | some s =>
    simp only [Option.map_some, Option.some.injEq] at hcur
    rw [States.num_injective hcur]

/-- A connection that waits for its notification has no descriptor armed. -/
theorem Dispatched.not_resolving {s : Option States} {l : Wires} {fd : Int} {op : Op}
    (hd : Dispatched w a s l fd op) (hall : Allowed s l) (hop : op ≠ .block) :
    s ≠ some .resolvConnection := by
  rintro rfl
  cases hall with
  | resolving =>
    cases hd with
    | client _ h => cases op <;> cases h
    | origin _ ho _ => cases ho
    | block _ _ => exact hop rfl
  | reply hs => simp at hs
  | relay hs => simp at hs

/-- Without an origin descriptor, events come on the client's. -/
theorem Dispatched.client_of_absent {s : Option States} {l : Wires} {fd : Int} {op : Op}
    (hd : Dispatched w a s l fd op) (hl : l.origin = .absent) : fd = (w.heap a).clientFd := by
  cases hd with
  | client hfd _ => exact hfd
  | origin _ ho _ =>
    rw [hl] at ho
    exact absurd ho (by simp)
  | block hfd _ => exact hfd

/-- Only a connection that has no origin descriptor yet goes to `RESOLV_CONNECTION`. -/
theorem Allowed.absent_of_resolving {s : Option States} {l l' : Wires} {io : Io}
    (hall : Allowed s l) (hs : s ≠ some .resolvConnection)
    (ht : Trans io a w (stateOf s) l .resolvConnection l') : l.origin = .absent := by
  cases hall with
  | fresh => rfl
  | resolving => rfl
  | connecting | attemptFailed _ _ | awaiting | unconnected _ | greeting _ | greetingLost
    | greetingNever _ | command _ | forward =>
    cases ht with
    | replyRead _ hn => simp at hn
  | reply h => rcases h with rfl | rfl <;> cases ht with | replyRead _ hn => simp at hn
  | relay h => rcases h with rfl | rfl <;> cases ht with | replyRead _ hn => simp at hn

end

end Pop3Proxy
