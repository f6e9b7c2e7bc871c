/-
# The indices into the table

`s->fds` has `s->fd_size` entries, and nothing but the checks of `selector.c` keeps
a descriptor that `INVALID_FD` accepts from being an index behind them.  The operations
are run here with every access to the table checked, and with the calls that have
not returned: the handlers are any code that calls the selector in its turn.

An item that `handle_iteration` or `selector_unregister_fd` still points to after a handler
has let the table grow is looked up again; whether the old pointer is still good is
not a question of the index.
-/
import Mathlib.Algebra.GroupWithZero.Nat
import Pop3Proxy.SelectorTable
import Pop3Proxy.Library.EventSystem

namespace Pop3Proxy

/-- What ends a run early. -/
inductive SelectorFault where
  /-- an access to `s->fds` at an index that is not below `s->fd_size` -/
  | beyond
  /-- an `assert` that does not hold -/
  | assertion
  deriving DecidableEq, Repr

/-- Which functions of a handler are there, and not NULL. -/
structure Callbacks (H : Type) where
  handleRead : H → Bool
  handleWrite : H → Bool
  handleClose : H → Bool

/-- The places of the body of the loop of `handle_iteration`. -/
inductive VisitPlace where
  /-- at the top of the body -/
  | atRead
  /-- in `handle_read` -/
  | inRead
  /-- before the test of `slave_w` -/
  | atWrite
  /-- in `handle_write` -/
  | inWrite
  deriving DecidableEq, Repr

/-- A call of the selector that has not returned. -/
inductive PendingCall where
  /-- `selector_unregister_fd`, in the `handle_close` of the item -/
  | closing (fd : ℕ)
  /-- `handle_iteration`, with its index `i` and the bound `n` read before the loop -/
  | pass (place : VisitPlace) (i n : ℕ)
  deriving DecidableEq, Repr

/-- A selector and the calls of it that have not returned, the last one first. -/
structure SelectorStack (H D : Type) where
  sel : FdSelector H D
  pending : List PendingCall

/-- What can happen to a selector.  `alloc` tells whether memory is given, a handler that
is `none` is NULL. -/
inductive SelectorEvent (H D : Type) where
  | register (alloc : Bool) (fd : Int) (handler : Option H) (interest : FdInterest) (data : D)
  | unregisterFd (fd : Int)
  | setInterest (fd : Int) (i : FdInterest)
  /-- `handle_iteration`, with what `pselect` has left in the two sets -/
  | handleIteration (slaveR slaveW : ℕ → Bool)
  /-- the handler that runs returns, or `handle_iteration` goes on -/
  | goOn

section
variable {H D : Type}

/-! ## The operations with their accesses checked -/

namespace FdSelector

/-- A look into `s->fds[i]`. -/
def entry (s : FdSelector H D) (i : ℕ) : Except SelectorFault (Option (Item H D)) :=
  if i < s.fdSize then .ok (s.fds i) else .error .beyond

/-- `items_max_fd` -/
def checkedMaxFd (s : FdSelector H D) : Except SelectorFault ℕ :=
  (List.range (s.maxFd + 1)).foldlM
    (fun max i => do
      match ← s.entry i with
      | some item => return if max < item.fd.toNat then item.fd.toNat else max
      | none => return max) 0

/-- `selector_register` -/
def checkedRegister (alloc : Bool) (s : FdSelector H D) (fd : Int) (handler : Option H)
    (interest : FdInterest) (data : D) : Except SelectorFault (SelectorStatus × FdSelector H D) :=
  match handler with
  | none => .ok (.iargs, s)
  | some handler =>
    if invalidFd fd then .ok (.iargs, s)
    else
      let (ret, s) := if s.fdSize < fd.toNat then ensureCapacity alloc s fd.toNat else (.success, s)
      if ret ≠ .success then .ok (ret, s)
      else do
        match ← s.entry fd.toNat with
        | some _ => return (.fdinuse, s)
        | none =>
          let item : Item H D := ⟨fd, interest, handler, data⟩
          return (.success, itemsUpdateFdsetForFd
            { s with
              fds := Function.update s.fds fd.toNat (some item)
              maxFd := max s.maxFd fd.toNat } item)

/-- `selector_set_interest` -/
def checkedSetInterest (s : FdSelector H D) (fd : Int) (i : FdInterest) :
    Except SelectorFault (SelectorStatus × FdSelector H D) :=
  if invalidFd fd then .ok (.iargs, s)
  else do
    match ← s.entry fd.toNat with
    | none => return (.iargs, s)
    | some item =>
      let item := { item with interest := i }
      return (.success, itemsUpdateFdsetForFd
        { s with fds := Function.update s.fds fd.toNat (some item) } item)

/-- `selector_unregister_fd` up to `handle_close`: the item to close, unless the call is
refused. -/
def checkedUnregister (s : FdSelector H D) (fd : Int) :
    Except SelectorFault (Option (Item H D)) :=
  if invalidFd fd then .ok none else s.entry fd.toNat

/-- `selector_unregister_fd` from there on.  The item may be gone by then, and its descriptor
with it. -/
def checkedRemove (s : FdSelector H D) (fd : ℕ) : Except SelectorFault (FdSelector H D) := do
  let item ← s.entry fd
  let s := item.elim s fun item => itemsUpdateFdsetForFd s { item with interest := OP_NOOP }
  let s := { s with fds := Function.update s.fds fd none }
  let maxFd ← s.checkedMaxFd
  return { s with maxFd := maxFd }

end FdSelector

namespace SelectorStack

/-- The code that has control is not the selector's own. -/
def running (u : SelectorStack H D) : Bool :=
  match u.pending with
  | .pass .atRead _ _ :: _ => false
  | .pass .atWrite _ _ :: _ => false
  | _ => true

/-- The body of the loop of `handle_iteration`, up to the next handler or the next
index; `none` when the loop is over. -/
def visit (has : Callbacks H) (s : FdSelector H D) (i n : ℕ) :
    VisitPlace → Except SelectorFault (Option PendingCall)
  | .atRead =>
    if i ≤ n then do
      match ← s.entry i with
      | none => return some (.pass .atRead (i + 1) n)
      | some item =>
        if s.slaveR item.fd.toNat && item.interest.read then
          if has.handleRead item.handler then return some (.pass .inRead i n)
          else .error .assertion
        else return some (.pass .atWrite i n)
    else .ok none
  | .inRead => .ok (some (.pass .atWrite i n))
  | .atWrite => do
    match ← s.entry i with
    | none => return some (.pass .atRead (i + 1) n)
    | some item =>
      if s.slaveW i && item.interest.write then
        if has.handleWrite item.handler then return some (.pass .inWrite i n)
        else .error .assertion
      else return some (.pass .atRead (i + 1) n)
  | .inWrite => .ok (some (.pass .atRead (i + 1) n))

/-- The last call goes on. -/
def goOn (has : Callbacks H) (u : SelectorStack H D) :
    Except SelectorFault (Option SelectorStatus × SelectorStack H D) :=
  match u.pending with
  | [] => .ok (none, u)
  | .closing fd :: pending =>
    (u.sel.checkedRemove fd).map fun s => (some .success, ⟨s, pending⟩)
  | .pass place i n :: pending =>
    (visit has u.sel i n place).map fun call => (none, ⟨u.sel, call.toList ++ pending⟩)

/-- What an event makes of the selector, with the status of a call that returns. -/
def react (has : Callbacks H) (u : SelectorStack H D) (e : SelectorEvent H D) :
    Except SelectorFault (Option SelectorStatus × SelectorStack H D) :=
  match e with
  | .goOn => u.goOn has
  | _ =>
    if u.running then
      match e with
      | .register alloc fd handler interest data =>
        (u.sel.checkedRegister alloc fd handler interest data).map fun r =>
          (some r.1, { u with sel := r.2 })
      | .unregisterFd fd => do
        match ← u.sel.checkedUnregister fd with
        | none => return (some .iargs, u)
        | some item =>
          if has.handleClose item.handler then
            return (none, { u with pending := .closing fd.toNat :: u.pending })
          else
            (u.sel.checkedRemove fd.toNat).map fun s => (some .success, { u with sel := s })
      | .setInterest fd i =>
        (u.sel.checkedSetInterest fd i).map fun r => (some r.1, { u with sel := r.2 })
      | .handleIteration slaveR slaveW =>
        .ok (none, ⟨{ u.sel with slaveR := slaveR, slaveW := slaveW },
          .pass .atRead 0 u.sel.maxFd :: u.pending⟩)
      | .goOn => .ok (none, u)
    else .ok (none, u)

end SelectorStack

/-- The runs of a selector that `selector_new` has made for so many elements. -/
def selectorSystem (has : Callbacks H) (initialElements : ℕ) :
    EventSystem.System (SelectorStack H D) (SelectorEvent H D) SelectorFault where
  init u := u = ⟨selectorNew initialElements, []⟩
  allowed _ _ := True
  step u e := (u.react has e).map Prod.snd

/-! ## What the operations come to -/

namespace FdSelector

variable {s : FdSelector H D}

theorem lt_pow_bitCount (fuel n : ℕ) (h : n < 2 ^ fuel) : n < 2 ^ bitCount fuel n := by
  induction fuel generalizing n with
  | zero => exact h
  | succ fuel ih =>
    rw [bitCount]
    split_ifs with h0
    · omega
    · have hhalf := ih (n / 2) (by omega)
      rw [Nat.pow_succ]
      omega

/-- The capacity a table is given has room for the index asked for. -/
theorem lt_nextCapacity {n : ℕ} (h : n ≤ itemsMaxSize) : n < nextCapacity n := by
  have hpow : n < 2 ^ bitCount 64 n := lt_pow_bitCount 64 n (by unfold itemsMaxSize at h; omega)
  rw [nextCapacity, Nat.one_shiftLeft]
  omega

theorem entry_of_lt {i : ℕ} (h : i < s.fdSize) : s.entry i = .ok (s.fds i) := if_pos h

theorem entry_of_le {i : ℕ} (h : s.fdSize ≤ i) : s.entry i = .error .beyond :=
  if_neg (Nat.not_lt.mpr h)

/-- The scan for the maximum stays in the table when `max_fd` does. -/
theorem checkedMaxFd_eq (h : s.maxFd < s.fdSize) : s.checkedMaxFd = .ok (itemsMaxFd s) := by
  have hscan : ∀ (l : List ℕ) (m : ℕ), (∀ i ∈ l, i < s.fdSize) → l.foldlM
      (fun max i => do
        match ← s.entry i with
        | some item => return if max < item.fd.toNat then item.fd.toNat else max
        | none => return max) m =
      (.ok (l.foldl (fun max i => match s.fds i with
        | some item => if max < item.fd.toNat then item.fd.toNat else max
        | none => max) m) : Except SelectorFault ℕ) := by
    intro l
    induction l with
    | nil => intro m _; rfl
    | cons i l ih =>
      intro m hl
      rw [List.foldlM_cons, List.foldl_cons, entry_of_lt (hl i List.mem_cons_self), ok_bind]
      cases s.fds i with
      | none => exact ih m fun j hj => hl j (List.mem_cons_of_mem i hj)
      | some item => exact ih _ fun j hj => hl j (List.mem_cons_of_mem i hj)
  apply hscan
  intro i hi
  have := List.mem_range.mp hi
  omega

/-- **Registration** in the table goes wrong for the one descriptor that is the size of
the table: it does not fit, and the table does not grow for it. -/
theorem checkedRegister_eq (alloc : Bool) (s : FdSelector H D) (fd : Int) (handler : H)
    (interest : FdInterest) (data : D) :
    s.checkedRegister alloc fd (some handler) interest data =
      if invalidFd fd = false ∧ fd.toNat = s.fdSize then .error .beyond
      else .ok (selectorRegister alloc s fd handler interest data) := by
  unfold checkedRegister selectorRegister
  cases hv : invalidFd fd with
  | true => simp
  | false =>
    have hlt := (toNat_of_valid hv).2
    simp only [Bool.false_eq_true, if_false, true_and]
    rcases Nat.lt_trichotomy fd.toNat s.fdSize with hfit | heq | hgrow
    · have hsize : ¬ s.fdSize < fd.toNat := by omega
      have hne : fd.toNat ≠ s.fdSize := by omega
      simp only [hsize, hne, ne_eq, not_true_eq_false, if_false, entry_of_lt hfit, ok_bind]
      cases s.fds fd.toNat with
      | none => rfl
      | some item => rfl
    · have hsize : ¬ s.fdSize < fd.toNat := by omega
      simp only [hsize, ne_eq, not_true_eq_false, if_false, entry_of_le (Nat.le_of_eq heq.symm),
        error_bind]
      exact (if_pos heq).symm
    · have hfit : ¬ fd.toNat < s.fdSize := by omega
      have hmax : ¬ itemsMaxSize < fd.toNat := by omega
      have hne : fd.toNat ≠ s.fdSize := by omega
      simp only [hgrow, hne, ensureCapacity, hfit, hmax, if_true, if_false]
      cases alloc with
      | false => rfl
      | true =>
        have hroom := lt_nextCapacity (n := fd.toNat) (by omega)
        simp only [if_true, ne_eq, not_true_eq_false, if_false, ok_bind,
          entry_of_lt (s := { s with fdSize := nextCapacity fd.toNat }) hroom]
        cases s.fds fd.toNat with
        | none => rfl
        | some item => rfl

/-- **A change of interest** is not checked against the size of the table. -/
theorem checkedSetInterest_eq (s : FdSelector H D) (fd : Int) (i : FdInterest) :
    s.checkedSetInterest fd i =
      if invalidFd fd = false ∧ s.fdSize ≤ fd.toNat then .error .beyond
      else .ok (selectorSetInterest s fd i) := by
  unfold checkedSetInterest selectorSetInterest
  cases hv : invalidFd fd with
  | true => simp
  | false =>
    simp only [Bool.false_eq_true, if_false, true_and]
    by_cases hfit : fd.toNat < s.fdSize
    · rw [if_neg (by omega), entry_of_lt hfit]
      cases s.fds fd.toNat with
      | none => rfl
      | some item => rfl
    · rw [if_pos (by omega), entry_of_le (by omega)]
      rfl

/-- Neither is a removal. -/
theorem checkedUnregister_eq (s : FdSelector H D) (fd : Int) :
    s.checkedUnregister fd =
      if invalidFd fd = false ∧ s.fdSize ≤ fd.toNat then .error .beyond
      else .ok (s.item fd) := by
  unfold checkedUnregister item
  cases hv : invalidFd fd with
  | true => simp
  | false =>
    simp only [Bool.false_eq_true, if_false, true_and]
    by_cases hfit : fd.toNat < s.fdSize
    · rw [if_neg (by omega), entry_of_lt hfit]
    · rw [if_pos (by omega), entry_of_le (by omega)]

/-- The items sit at the indices of their descriptors, and everything the loops go by lies in
the table. -/
structure Bounded (s : FdSelector H D) : Prop where
  maxFd : s.maxFd < s.fdSize
  items : ∀ n it, s.fds n = some it → it.fd = n ∧ n < s.fdSize

theorem bounded_selectorNew {n : ℕ} (h : n ≤ itemsMaxSize) :
    (selectorNew n : FdSelector H D).Bounded := by
  have hroom := lt_nextCapacity h
  have hmax : ¬ itemsMaxSize < n := by omega
  have hsize : (selectorNew n : FdSelector H D).fdSize = nextCapacity n := by
    simp [selectorNew, ensureCapacity, hmax]
  have hmaxFd : (selectorNew n : FdSelector H D).maxFd = 0 := by
    simp [selectorNew, ensureCapacity, hmax]
  constructor
  · rw [hsize, hmaxFd]
    omega
  · intro m it hit
    simp [selectorNew, ensureCapacity, hmax] at hit

/-- The table with one more item. -/
def placed (s : FdSelector H D) (item : Item H D) : FdSelector H D :=
  itemsUpdateFdsetForFd
    { s with
      fds := Function.update s.fds item.fd.toNat (some item)
      maxFd := max s.maxFd item.fd.toNat } item

theorem register_of_lt (alloc : Bool) {fd : Int} (hv : invalidFd fd = false)
    (h : fd.toNat < s.fdSize) (handler : H) (interest : FdInterest) (data : D) :
    selectorRegister alloc s fd handler interest data =
      match s.fds fd.toNat with
      | some _ => (.fdinuse, s)
      | none => (.success, s.placed ⟨fd, interest, handler, data⟩) := by
  have hsize : ¬ s.fdSize < fd.toNat := by omega
  simp only [selectorRegister, hv, hsize, Bool.false_eq_true, if_false, ne_eq, not_true_eq_false]
  cases s.fds fd.toNat with
  | none => rfl
  | some item => rfl

/-- A descriptor behind the end of the table makes it grow, if there is memory. -/
theorem register_of_gt (hs : s.Bounded) (alloc : Bool) {fd : Int} (hv : invalidFd fd = false)
    (h : s.fdSize < fd.toNat) (handler : H) (interest : FdInterest) (data : D) :
    selectorRegister alloc s fd handler interest data =
      if alloc then (.success, placed { s with fdSize := nextCapacity fd.toNat }
        ⟨fd, interest, handler, data⟩)
      else (.enomem, s) := by
  have hlt := (toNat_of_valid hv).2
  have hfit : ¬ fd.toNat < s.fdSize := by omega
  have hmax : ¬ itemsMaxSize < fd.toNat := by omega
  have hnone : s.fds fd.toNat = none := by
    cases hf : s.fds fd.toNat with
    | none => rfl
    | some it => exact absurd (hs.items _ _ hf).2 hfit
  simp only [selectorRegister, hv, h, ensureCapacity, hfit, hmax, Bool.false_eq_true, if_true,
    if_false]
  cases alloc with
  | false => rfl
  | true =>
    simp only [if_true, ne_eq, not_true_eq_false, if_false, hnone]
    rfl

theorem Bounded.placed (hs : s.Bounded) {size : ℕ} (hsize : s.fdSize ≤ size) {item : Item H D}
    (hv : invalidFd item.fd = false) (hfit : item.fd.toNat < size) :
    (FdSelector.placed { s with fdSize := size } item).Bounded := by
  have hmaxFd := hs.maxFd
  constructor
  · show max s.maxFd item.fd.toNat < size
    omega
  · intro n it hit
    change Function.update s.fds item.fd.toNat (some item) n = some it at hit
    show it.fd = n ∧ n < size
    by_cases hn : n = item.fd.toNat
    · subst hn
      rw [Function.update_self, Option.some.injEq] at hit
      subst hit
      exact ⟨(toNat_of_valid hv).1.symm, hfit⟩
    · rw [Function.update_of_ne hn] at hit
      have hold := hs.items n it hit
      omega

/-- A registration, of a descriptor that is not the size of the table. -/
theorem Bounded.register (hs : s.Bounded) {fd : Int}
    (hne : invalidFd fd = false → fd.toNat ≠ s.fdSize) (alloc : Bool) (handler : H)
    (interest : FdInterest) (data : D) :
    (selectorRegister alloc s fd handler interest data).2.Bounded ∧
      s.fdSize ≤ (selectorRegister alloc s fd handler interest data).2.fdSize := by
  cases hv : invalidFd fd with
  | true =>
    rw [selectorRegister, if_pos hv]
    exact ⟨hs, Nat.le_refl _⟩
  | false =>
    have hlt := (toNat_of_valid hv).2
    by_cases hfit : fd.toNat < s.fdSize
    · rw [register_of_lt alloc hv hfit]
      cases s.fds fd.toNat with
      | none => exact ⟨hs.placed (Nat.le_refl _) hv hfit, Nat.le_refl _⟩
      | some item => exact ⟨hs, Nat.le_refl _⟩
    · have hgrow : s.fdSize < fd.toNat := by
        have := hne hv
        omega
      have hroom := lt_nextCapacity (n := fd.toNat) (by omega)
      rw [register_of_gt hs alloc hv hgrow]
      cases alloc with
      | false => exact ⟨hs, Nat.le_refl _⟩
      | true =>
        refine ⟨hs.placed (by omega) hv hroom, ?_⟩
        show s.fdSize ≤ nextCapacity fd.toNat
        omega

/-- An item whose interest changes stays where it is. -/
theorem Bounded.setInterest (hs : s.Bounded) (fd : Int) (i : FdInterest) :
    (selectorSetInterest s fd i).2.Bounded ∧ (selectorSetInterest s fd i).2.fdSize = s.fdSize := by
  unfold selectorSetInterest
  cases hv : invalidFd fd with
  | true => exact ⟨hs, rfl⟩
  | false =>
    cases hf : s.fds fd.toNat with
    | none => exact ⟨hs, rfl⟩
    | some item =>
      refine ⟨⟨hs.maxFd, fun n it hit => ?_⟩, rfl⟩
      change Function.update s.fds fd.toNat (some { item with interest := i }) n = some it at hit
      show it.fd = n ∧ n < s.fdSize
      by_cases hn : n = fd.toNat
      · subst hn
        rw [Function.update_self, Option.some.injEq] at hit
        subst hit
        exact (hs.items fd.toNat item hf :)
      · rw [Function.update_of_ne hn] at hit
        exact hs.items n it hit

/-- **A removal** touches nothing behind the end of the table. -/
theorem Bounded.remove (hs : s.Bounded) {fd : ℕ} (hfd : fd < s.fdSize) :
    ∃ s', s.checkedRemove fd = .ok s' ∧ s'.Bounded ∧ s'.fdSize = s.fdSize := by
  have hkept : ∀ item : Option (Item H D), ∀ s₁ : FdSelector H D,
      s₁ = item.elim s (fun item => itemsUpdateFdsetForFd s { item with interest := OP_NOOP }) →
      s₁.fds = s.fds ∧ s₁.maxFd = s.maxFd ∧ s₁.fdSize = s.fdSize := by
    rintro item s₁ rfl
    cases item with
    | none => exact ⟨rfl, rfl, rfl⟩
    | some item => exact ⟨rfl, rfl, rfl⟩
  unfold checkedRemove
  rw [entry_of_lt hfd, ok_bind]
  obtain ⟨hfds, hmaxFd, hsize⟩ := hkept (s.fds fd) _ rfl
  generalize
    (s.fds fd).elim s (fun item => itemsUpdateFdsetForFd s { item with interest := OP_NOOP }) =
      s₁ at hfds hmaxFd hsize
  have hitems : ∀ n it, Function.update s₁.fds fd none n = some it → it.fd = n ∧ n < s.fdSize := by
    intro n it hit
    by_cases hn : n = fd
    · subst hn
      simp at hit
    · rw [Function.update_of_ne hn, hfds] at hit
      exact hs.items n it hit
  have hscan := checkedMaxFd_eq (s := { s₁ with fds := Function.update s₁.fds fd none })
    (by show s₁.maxFd < s₁.fdSize; rw [hmaxFd, hsize]; exact hs.maxFd)
  have hattained := itemsMaxFd_attained (s := { s₁ with fds := Function.update s₁.fds fd none })
    fun n it hit => (hitems n it hit).1
  simp only [hscan, ok_bind]
  generalize itemsMaxFd { s₁ with fds := Function.update s₁.fds fd none } = m at hattained
  refine ⟨_, rfl, ⟨?_, ?_⟩, hsize⟩
  · show m < s₁.fdSize
    rw [hsize]
    rcases hattained with rfl | hused
    · have := hs.maxFd
      omega
    · obtain ⟨it, hit⟩ := Option.isSome_iff_exists.mp hused
      exact (hitems m it hit).2
  · intro n it hit
    show it.fd = n ∧ n < s₁.fdSize
    rw [hsize]
    exact hitems n it hit

end FdSelector

/-! ## The calls that have not returned -/

/-- A call goes by indices below this size. -/
def PendingCall.fits (size : ℕ) : PendingCall → Prop
  | .closing fd => fd < size
  | .pass place i n => n < size ∧ (place ≠ .atRead → i ≤ n)

theorem PendingCall.fits.mono {size size' : ℕ} {f : PendingCall} (h : f.fits size)
    (hle : size ≤ size') :
    f.fits size' := by
  cases f with
  | closing fd => exact Nat.lt_of_lt_of_le h hle
  | pass place i n => exact ⟨Nat.lt_of_lt_of_le h.1 hle, h.2⟩

namespace SelectorStack

variable {has : Callbacks H} {u u' : SelectorStack H D} {st : Option SelectorStatus}

/-- The table is in order, and nothing that has not returned goes by an index behind it. -/
structure Bounded (u : SelectorStack H D) : Prop where
  sel : u.sel.Bounded
  pending : ∀ f ∈ u.pending, f.fits u.sel.fdSize

/-- The selector changes and its table does not shrink. -/
theorem Bounded.withSel (h : u.Bounded) {s : FdSelector H D} (hs : s.Bounded)
    (hle : u.sel.fdSize ≤ s.fdSize) : ({ u with sel := s } : SelectorStack H D).Bounded :=
  ⟨hs, fun f hf => (h.pending f hf).mono hle⟩

/-- A pass looks at the items up to its bound. -/
theorem visit_fits (has : Callbacks H) {s : FdSelector H D} {i n : ℕ} {place : VisitPlace}
    (h : (PendingCall.pass place i n).fits s.fdSize) :
    visit has s i n place ≠ .error .beyond ∧
      ∀ f, visit has s i n place = .ok (some f) → f.fits s.fdSize := by
  obtain ⟨hn, hi⟩ := h
  cases place with
  | atRead =>
    rw [visit]
    split_ifs with hle
    · rw [FdSelector.entry_of_lt (by omega), ok_bind]
      cases s.fds i with
      | none => exact ⟨nofun, by rintro f ⟨⟩; exact ⟨hn, by simp⟩⟩
      | some item =>
        simp only
        split_ifs
        · exact ⟨nofun, by rintro f ⟨⟩; exact ⟨hn, fun _ => hle⟩⟩
        · exact ⟨nofun, nofun⟩
        · exact ⟨nofun, by rintro f ⟨⟩; exact ⟨hn, fun _ => hle⟩⟩
    · exact ⟨nofun, nofun⟩
  | inRead => exact ⟨nofun, by rintro f ⟨⟩; exact ⟨hn, fun _ => hi nofun⟩⟩
  | atWrite =>
    have hle := hi nofun
    rw [visit, FdSelector.entry_of_lt (by omega), ok_bind]
    cases s.fds i with
    | none => exact ⟨nofun, by rintro f ⟨⟩; exact ⟨hn, by simp⟩⟩
    | some item =>
      simp only
      split_ifs
      · exact ⟨nofun, by rintro f ⟨⟩; exact ⟨hn, fun _ => hle⟩⟩
      · exact ⟨nofun, nofun⟩
      · exact ⟨nofun, by rintro f ⟨⟩; exact ⟨hn, by simp⟩⟩
  | inWrite => exact ⟨nofun, by rintro f ⟨⟩; exact ⟨hn, by simp⟩⟩

theorem goOn_closing (s : FdSelector H D) (fd : ℕ) (pending : List PendingCall) :
    goOn has ⟨s, .closing fd :: pending⟩ =
      (s.checkedRemove fd).map fun s => (some .success, ⟨s, pending⟩) := rfl

theorem goOn_pass (s : FdSelector H D) (place : VisitPlace) (i n : ℕ) (pending : List PendingCall) :
    goOn has ⟨s, .pass place i n :: pending⟩ =
      (visit has s i n place).map fun call => (none, ⟨s, call.toList ++ pending⟩) := rfl

/-- **The selector's own code** stays in the table. -/
theorem Bounded.goOn (h : u.Bounded) :
    u.goOn has ≠ .error .beyond ∧ ∀ st u', u.goOn has = .ok (st, u') → u'.Bounded := by
  obtain ⟨s, pending⟩ := u
  have hs := h.sel
  have hpending := h.pending
  cases pending with
  | nil => exact ⟨nofun, by rintro st u' ⟨⟩; exact h⟩
  | cons f pending =>
    have hf : f.fits s.fdSize := hpending f List.mem_cons_self
    have hrest : ∀ f' ∈ pending, f'.fits s.fdSize := fun f' hf' =>
      hpending f' (List.mem_cons_of_mem f hf')
    cases f with
    | closing fd =>
      obtain ⟨s', hremove, hs', hsize⟩ := hs.remove hf
      rw [goOn_closing, hremove]
      refine ⟨nofun, ?_⟩
      rintro st u' ⟨⟩
      exact ⟨hs', fun f' hf' => (hrest f' hf').mono (Nat.le_of_eq hsize.symm)⟩
    | pass place i n =>
      obtain ⟨hne, hnext⟩ := visit_fits has hf
      rw [goOn_pass]
      cases hvisit : visit has s i n place with
      | error e =>
        refine ⟨fun heq => hne (hvisit.trans ?_), nofun⟩
        exact congrArg Except.error (Except.error.inj heq)
      | ok f' =>
        refine ⟨nofun, ?_⟩
        rintro st u' ⟨⟩
        refine ⟨hs, fun g hg => ?_⟩
        rcases List.mem_append.mp hg with hg | hg
        · exact hnext g (hvisit.trans (congrArg Except.ok (Option.mem_toList.mp hg)))
        · exact hrest g hg

/-- The descriptor of a call is not the one the checks overlook: registering, it is not the
size of the table, and otherwise it is in the table. -/
def Fits (u : SelectorStack H D) (e : SelectorEvent H D) : Prop :=
  u.running → match e with
    | .register _ fd (some _) _ _ => invalidFd fd = false → fd.toNat ≠ u.sel.fdSize
    | .unregisterFd fd => invalidFd fd = false → fd.toNat < u.sel.fdSize
    | .setInterest fd _ => invalidFd fd = false → fd.toNat < u.sel.fdSize
    | _ => True

/-- A call that is overlooked reads behind the table. -/
theorem react_of_not_fits (has : Callbacks H) {e : SelectorEvent H D} (h : ¬ u.Fits e) :
    u.react has e = .error .beyond := by
  unfold Fits at h
  obtain ⟨hrun, h⟩ := Classical.not_imp.mp h
  cases e with
  | register alloc fd handler interest data =>
    cases handler with
    | none => exact absurd trivial h
    | some handler =>
      obtain ⟨hv, hne⟩ := Classical.not_imp.mp h
      have hbehind : invalidFd fd = false ∧ fd.toNat = u.sel.fdSize := ⟨hv, not_not.mp hne⟩
      simp only [react, hrun, if_true, FdSelector.checkedRegister_eq, if_pos hbehind]
      rfl
  | unregisterFd fd =>
    obtain ⟨hv, hlt⟩ := Classical.not_imp.mp h
    have hbehind : invalidFd fd = false ∧ u.sel.fdSize ≤ fd.toNat := ⟨hv, Nat.not_lt.mp hlt⟩
    simp only [react, hrun, if_true, FdSelector.checkedUnregister_eq, if_pos hbehind]
    rfl
  | setInterest fd i =>
    obtain ⟨hv, hlt⟩ := Classical.not_imp.mp h
    have hbehind : invalidFd fd = false ∧ u.sel.fdSize ≤ fd.toNat := ⟨hv, Nat.not_lt.mp hlt⟩
    simp only [react, hrun, if_true, FdSelector.checkedSetInterest_eq, if_pos hbehind]
    rfl
  | handleIteration slaveR slaveW => exact absurd trivial h
  | goOn => exact absurd trivial h

/-- While the selector's own code has control, nothing else calls it. -/
theorem react_of_not_running {e : SelectorEvent H D} (he : e ≠ .goOn) (h : ¬ u.running) :
    u.react has e = .ok (none, u) := by
  cases e with
  | goOn => exact absurd rfl he
  | register alloc fd handler interest data => simp only [react, if_neg h]
  | unregisterFd fd => simp only [react, if_neg h]
  | setInterest fd i => simp only [react, if_neg h]
  | handleIteration slaveR slaveW => simp only [react, if_neg h]

/-- **Any other event** stays in the table. -/
theorem Bounded.react (h : u.Bounded) {e : SelectorEvent H D} (hfits : u.Fits e) :
    u.react has e ≠ .error .beyond ∧ ∀ st u', u.react has e = .ok (st, u') → u'.Bounded := by
  by_cases hrun : u.running
  · have hfits := hfits hrun
    cases e with
    | register alloc fd handler interest data =>
      cases handler with
      | none =>
        simp only [SelectorStack.react, hrun, if_true, FdSelector.checkedRegister]
        exact ⟨nofun, by rintro st u' ⟨⟩; exact h⟩
      | some handler =>
        obtain ⟨hs, hle⟩ := h.sel.register hfits alloc handler interest data
        -- the growth test lets `fd = fd_size` through, which the hypothesis excludes
        have hne : ¬ (invalidFd fd = false ∧ fd.toNat = u.sel.fdSize) := fun hf => hfits hf.1 hf.2
        simp only [SelectorStack.react, hrun, if_true, FdSelector.checkedRegister_eq, if_neg hne]
        exact ⟨nofun, by rintro st u' ⟨⟩; exact h.withSel hs hle⟩
    | unregisterFd fd =>
      have hne : ¬ (invalidFd fd = false ∧ u.sel.fdSize ≤ fd.toNat) := fun hf =>
        absurd (hfits hf.1) (by omega)
      simp only [SelectorStack.react, hrun, if_true, FdSelector.checkedUnregister_eq, if_neg hne,
        ok_bind]
      cases hitem : u.sel.item fd with
      | none => exact ⟨nofun, by rintro st u' ⟨⟩; exact h⟩
      | some item =>
        have hfd : fd.toNat < u.sel.fdSize := hfits (FdSelector.item_eq_some.mp hitem).1
        simp only
        -- where there is a `handle_close` it runs before the item is removed
        split_ifs
        · refine ⟨nofun, ?_⟩
          rintro st u' ⟨⟩
          refine ⟨h.sel, fun f hf => ?_⟩
          rcases List.mem_cons.mp hf with rfl | hf
          · exact hfd
          · exact h.pending f hf
        · obtain ⟨s', hremove, hs', hsize⟩ := h.sel.remove hfd
          rw [hremove]
          exact ⟨nofun, by rintro st u' ⟨⟩; exact h.withSel hs' (Nat.le_of_eq hsize.symm)⟩
    | setInterest fd i =>
      obtain ⟨hs, hsize⟩ := h.sel.setInterest fd i
      have hne : ¬ (invalidFd fd = false ∧ u.sel.fdSize ≤ fd.toNat) := fun hf =>
        absurd (hfits hf.1) (by omega)
      simp only [SelectorStack.react, hrun, if_true, FdSelector.checkedSetInterest_eq, if_neg hne]
      exact ⟨nofun, by rintro st u' ⟨⟩; exact h.withSel hs (Nat.le_of_eq hsize.symm)⟩
    | handleIteration slaveR slaveW =>
      simp only [SelectorStack.react, hrun, if_true]
      refine ⟨nofun, ?_⟩
      rintro st u' ⟨⟩
      refine ⟨⟨h.sel.maxFd, h.sel.items⟩, fun f hf => ?_⟩
      rcases List.mem_cons.mp hf with rfl | hf
      · exact ⟨h.sel.maxFd, fun hplace => absurd rfl hplace⟩
      · exact h.pending f hf
    | goOn => exact h.goOn
  · by_cases he : e = .goOn
    · subst he
      exact h.goOn
    · rw [react_of_not_running he hrun]
      exact ⟨nofun, by rintro st u' ⟨⟩; exact h⟩

/-- The event keeps to the table: every access is below its size, a descriptor that does
not fit makes it grow, and an operation on a descriptor behind it is refused. -/
structure InTable (has : Callbacks H) (u : SelectorStack H D) (e : SelectorEvent H D) : Prop where
  inRange : u.react has e ≠ .error .beyond
  grows : ∀ fd handler interest data, e = .register true fd (some handler) interest data →
    u.running → invalidFd fd = false → u.sel.fdSize ≤ fd.toNat →
      ∃ u', u.react has e = .ok (some .success, u') ∧ fd.toNat < u'.sel.fdSize
  refused : ∀ fd, (e = .unregisterFd fd ∨ ∃ i, e = .setInterest fd i) →
    u.running → invalidFd fd = false → u.sel.fdSize ≤ fd.toNat →
      u.react has e = .ok (some .iargs, u)

/-- **One event** keeps to the table exactly when its descriptor is not overlooked. -/
theorem Bounded.inTable_iff (h : u.Bounded) {e : SelectorEvent H D} :
    u.InTable has e ↔ u.Fits e := by
  constructor
  · intro hin
    by_contra hnot
    exact hin.inRange (react_of_not_fits has hnot)
  · intro hfits
    refine ⟨(h.react hfits).1, ?_, ?_⟩
    · rintro fd handler interest data rfl hrun hv hle
      have hne := hfits hrun hv
      have hlt := (FdSelector.toNat_of_valid hv).2
      simp only [SelectorStack.react, hrun, if_true, FdSelector.checkedRegister_eq,
        if_neg (fun hf : invalidFd fd = false ∧ fd.toNat = u.sel.fdSize => hne hf.2),
        FdSelector.register_of_gt h.sel true hv (Nat.lt_of_le_of_ne hle (Ne.symm hne))]
      exact ⟨_, rfl, FdSelector.lt_nextCapacity (by omega)⟩
    · rintro fd (rfl | ⟨i, rfl⟩) hrun hv hle
      · exact absurd (hfits hrun hv) (by omega)
      · exact absurd (hfits hrun hv) (by omega)

end SelectorStack

theorem SelectorStack.Bounded.reached {has : Callbacks H} {n : ℕ} (hn : n ≤ itemsMaxSize)
    {u : SelectorStack H D} (h : (selectorSystem has n).Reach u) : u.Bounded := by
  refine EventSystem.System.invariant (fun u hu => ?_) (fun u e u' hu _ hstep => ?_) h
  · have hu : u = ⟨selectorNew n, []⟩ := hu
    subst hu
    exact ⟨FdSelector.bounded_selectorNew hn, by simp⟩
  · obtain ⟨⟨st, u''⟩, hreact, rfl⟩ := map_eq_ok.mp hstep
    have hfits : u.Fits e := by
      by_contra hnot
      have hbeyond := SelectorStack.react_of_not_fits has hnot
      rw [hbeyond] at hreact
      exact absurd hreact nofun
    exact (hu.react hfits).2 st u'' hreact

/-- **The indices into the table** stay below its size all along a run exactly when no call
of the run is overlooked: no descriptor registered is the size of the table at that
time, and none that is unregistered or given an interest is behind its end. -/
theorem selector_indices (has : Callbacks H) (n : ℕ) (hn : n ≤ itemsMaxSize)
    (es : List (SelectorEvent H D)) :
    (∀ bs e cs u, es = bs ++ e :: cs →
        (selectorSystem has n).run ⟨selectorNew n, []⟩ bs = .ok u → u.InTable has e) ↔
      ∀ bs e cs u, es = bs ++ e :: cs →
        (selectorSystem has n).run ⟨selectorNew n, []⟩ bs = .ok u → u.Fits e := by
  have hiff : ∀ bs (e : SelectorEvent H D) u,
      (selectorSystem has n).run ⟨selectorNew n, []⟩ bs = .ok u → (u.InTable has e ↔ u.Fits e) := by
    intro bs e u hrun
    have hreach : (selectorSystem has n).Reach u := by
      rw [← EventSystem.System.run_eq_last hrun]
      exact EventSystem.System.Reach.last (.init rfl) (fun _ _ => trivial) bs
    exact (SelectorStack.Bounded.reached hn hreach).inTable_iff
  constructor
  · intro h bs e cs u hes hrun
    exact (hiff bs e u hrun).mp (h bs e cs u hes hrun)
  · intro h bs e cs u hes hrun
    exact (hiff bs e u hrun).mpr (h bs e cs u hes hrun)

end

/-- The table grows for descriptor 5. -/
theorem selector_indices_five : 0 ≤ itemsMaxSize ∧
    ∀ bs e cs u, [SelectorEvent.register true 5 (some ()) OP_READ ()] = bs ++ e :: cs →
      (selectorSystem ⟨fun _ => true, fun _ => true, fun _ => true⟩ 0).run ⟨selectorNew 0, []⟩ bs =
        .ok u → u.InTable ⟨fun _ => true, fun _ => true, fun _ => true⟩ e := by
  refine ⟨Nat.zero_le _, (selector_indices _ 0 (Nat.zero_le _) _).mpr ?_⟩
  intro bs e cs u hes hrun
  obtain ⟨rfl, rfl, -⟩ : bs = [] ∧ .register true 5 (some ()) OP_READ () = e ∧ [] = cs := by
    cases bs with
    | nil => simpa using hes
    | cons b bs => simp at hes
  cases hrun
  intro _ _
  decide

/-- Registering descriptor 2 with a selector made for no element reads behind its two entries. -/
theorem selector_index_beyond : ¬∀ (n : ℕ), n ≤ itemsMaxSize →
    ∀ es : List (SelectorEvent Unit Unit),
      (selectorSystem ⟨fun _ => true, fun _ => true, fun _ => true⟩ n).run ⟨selectorNew n, []⟩ es ≠
        .error .beyond := by
  intro h
  refine h 0 (by decide) [.register true 2 (some ()) OP_READ ()] ?_
  rfl

end Pop3Proxy
