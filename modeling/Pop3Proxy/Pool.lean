/-
# The account of the pool

`destroy_suscription` links a struct into the pool and counts it; `pop3_new` takes a
struct out again and leaves the count as it is.  The count is right as long as no
struct has been taken out.
-/
import Mathlib.Data.List.Induction
import Pop3Proxy.Proxy

namespace Pop3Proxy

/-- What is done with the structs of connections. -/
inductive PoolCall where
  /-- `pop3_new` -/
  | new (io : Io) (clientFd : Int)
  /-- `references += 1`, when the origin is registered -/
  | refer (a : Addr)
  /-- `destroy_suscription` -/
  | destroy (a : Addr)

namespace World

/-- The memory before the first of the calls. -/
def unpooled (w : World) : World := { w with pool := [], poolSize := 0 }

/-- What a call leaves behind. -/
def poolCall (w : World) : PoolCall → World
  | .new io clientFd => ((pop3New io w clientFd).map Prod.snd).getD w
  | .refer a => w.modify a fun c => { c with references := c.references + 1 }
  | .destroy a => destroySuscription a w

/-- One call after the other.  Only a struct that is in use is referred to or destroyed;
nothing below depends on it. -/
def poolCalls (w : World) (cs : List PoolCall) : World := cs.foldl poolCall w

/-- The count is the number of structs in the pool, which is no larger than it may be, and
the last reference to a struct puts it into the pool while there is room. -/
structure PoolAccounted (w : World) : Prop where
  counted : w.poolSize = w.pool.length
  bounded : w.poolSize ≤ maxPool
  reused : ∀ a, (w.heap a).references = 1 → w.pool.length < maxPool →
    (destroySuscription a w).pool = a :: w.pool ∧
      (destroySuscription a w).allocated = w.allocated

section
variable {w : World}

theorem poolCalls_append (us vs : List PoolCall) :
    w.poolCalls (us ++ vs) = (w.poolCalls us).poolCalls vs :=
  List.foldl_append

theorem poolCalls_concat (us : List PoolCall) (c : PoolCall) :
    w.poolCalls (us ++ [c]) = (w.poolCalls us).poolCall c := by
  rw [poolCalls_append]
  rfl

/-- A count that is right is all it takes. -/
theorem poolAccounted_of_counted (h : w.poolSize = w.pool.length) (hle : w.poolSize ≤ maxPool) :
    PoolAccounted w := by
  refine ⟨h, hle, fun a href hroom => ?_⟩
  rw [destroySuscription, if_pos href, if_pos (by omega)]
  exact ⟨rfl, rfl⟩

/-- A struct that comes from `malloc` leaves the pool alone. -/
theorem pool_new_of_nil (io : Io) (clientFd : Int) (h : w.pool = []) :
    (w.poolCall (.new io clientFd)).pool = [] ∧
      (w.poolCall (.new io clientFd)).poolSize = w.poolSize := by
  show (((pop3New io w clientFd).map Prod.snd).getD w).pool = [] ∧
    (((pop3New io w clientFd).map Prod.snd).getD w).poolSize = w.poolSize
  unfold pop3New
  rw [h]
  simp only
  split_ifs
  · exact ⟨rfl, rfl⟩
  · exact ⟨h, rfl⟩

/-- A struct that comes from the pool is still counted. -/
theorem pool_new_of_cons (io : Io) (clientFd : Int) {a : Addr} {pool : List Addr}
    (h : w.pool = a :: pool) :
    (w.poolCall (.new io clientFd)).pool = pool ∧
      (w.poolCall (.new io clientFd)).poolSize = w.poolSize := by
  show (((pop3New io w clientFd).map Prod.snd).getD w).pool = pool ∧
    (((pop3New io w clientFd).map Prod.snd).getD w).poolSize = w.poolSize
  unfold pop3New
  rw [h]
  exact ⟨rfl, rfl⟩

/-- **One call**: it keeps the account, unless it takes a struct from the pool. -/
theorem PoolAccounted.call (h : PoolAccounted w) {c : PoolCall}
    (hc : ∀ io clientFd, c = .new io clientFd → w.pool = []) : PoolAccounted (w.poolCall c) := by
  cases c with
  | new io clientFd =>
    have hnil := hc io clientFd rfl
    obtain ⟨hpool, hsize⟩ := pool_new_of_nil io clientFd hnil
    apply poolAccounted_of_counted
    · rw [hsize, hpool, h.counted, hnil]
    · rw [hsize]
      exact h.bounded
  | refer a => exact poolAccounted_of_counted h.counted h.bounded
  | destroy a =>
    have hcounted := h.counted
    have hbounded := h.bounded
    show PoolAccounted (destroySuscription a w)
    unfold destroySuscription
    split_ifs with href hroom
    · apply poolAccounted_of_counted
      · show w.poolSize + 1 = (a :: w.pool).length
        rw [List.length_cons, hcounted]
      · show w.poolSize + 1 ≤ maxPool
        omega
    · exact poolAccounted_of_counted hcounted hbounded
    · exact poolAccounted_of_counted hcounted hbounded

/-- **Calls that take nothing from the pool** keep the account. -/
theorem PoolAccounted.calls (h : PoolAccounted w) (cs : List PoolCall)
    (hcs : ∀ us io clientFd vs, cs = us ++ .new io clientFd :: vs → (w.poolCalls us).pool = []) :
    PoolAccounted (w.poolCalls cs) := by
  induction cs using List.reverseRecOn with
  | nil => exact h
  | append_singleton cs c ih =>
    rw [poolCalls_concat]
    refine (ih fun us io clientFd vs hus => ?_).call fun io clientFd hc => ?_
    · exact hcs us io clientFd (vs ++ [c]) (by rw [hus]; simp)
    · exact hcs cs io clientFd [] (by rw [hc])

end

end World

open World in
/-- **The account of the pool** is right all along a sequence of calls exactly when no
`pop3_new` finds a struct in the pool. -/
theorem pool_accounted (w : World) (cs : List PoolCall) :
    (∀ us vs, cs = us ++ vs → PoolAccounted (w.unpooled.poolCalls us)) ↔
      ∀ us io clientFd vs, cs = us ++ .new io clientFd :: vs →
        (w.unpooled.poolCalls us).pool = [] := by
  constructor
  · rintro h us io clientFd vs rfl
    have hbefore := (h us _ rfl).counted
    have hafter := (h (us ++ [.new io clientFd]) vs (by simp)).counted
    rw [poolCalls_concat] at hafter
    cases hpool : (w.unpooled.poolCalls us).pool with
    | nil => rfl
    | cons a pool =>
      obtain ⟨hpool', hsize⟩ := pool_new_of_cons io clientFd hpool
      rw [hpool', hsize, hbefore, hpool, List.length_cons] at hafter
      omega
  · rintro h us vs rfl
    have hstart : PoolAccounted w.unpooled := poolAccounted_of_counted rfl (Nat.zero_le _)
    refine hstart.calls us fun us' io clientFd vs' hus => ?_
    exact h us' io clientFd (vs' ++ vs) (by rw [hus]; simp)

open World in
/-- A connection, its end and another connection: the pool is empty and counts one. -/
theorem pool_miscounted :
    ¬∀ (w : World) (cs : List PoolCall), PoolAccounted (w.unpooled.poolCalls cs) := by
  intro h
  have hcounted := (h (Proxy.start 3 .ipv4).world
    [.new { address := 0 } 4, .destroy 0, .new { address := 0 } 5]).counted
  exact absurd hcounted (by decide)

end Pop3Proxy
