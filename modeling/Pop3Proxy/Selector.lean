/-
# The selector

`selector.c`: a table of items indexed by file descriptor, the two prototype
sets given to `select`, and the list of finished blocking jobs.  Handlers and
the data they are registered with are parameters.

The readiness sets a pass works with are copies taken before the pass
(`slaveR`, `slaveW`), while the interests it checks are the current ones;
`FdSelector.Wf` ties the prototype sets to the interests.
-/
import Pop3Proxy.Basic
import Mathlib.Tactic.Common
import Mathlib.Logic.Function.Basic

namespace Pop3Proxy

/-- `fd_interest`, the bits `OP_READ` and `OP_WRITE` of a mask. -/
structure FdInterest where
  read : Bool
  write : Bool
  deriving DecidableEq, Repr

/-- `OP_NOOP` -/
abbrev OP_NOOP : FdInterest := ⟨false, false⟩
/-- `OP_READ` -/
abbrev OP_READ : FdInterest := ⟨true, false⟩
/-- `OP_WRITE` -/
abbrev OP_WRITE : FdInterest := ⟨false, true⟩

/-- `selector_status` -/
inductive SelectorStatus where
  | success
  | enomem
  | maxfd
  | iargs
  | fdinuse
  | io
  deriving DecidableEq, Repr

/-- `struct item`, of an item in use. -/
structure Item (H D : Type) where
  fd : Int
  interest : FdInterest
  handler : H
  data : D
  deriving DecidableEq, Repr

/-- `struct fdselector`; an entry of the table is `none` when its item is
marked `FD_UNUSED`. -/
structure FdSelector (H D : Type) where
  fds : ℕ → Option (Item H D)
  fdSize : ℕ
  maxFd : ℕ
  masterR : ℕ → Bool
  masterW : ℕ → Bool
  slaveR : ℕ → Bool
  slaveW : ℕ → Bool
  resolutionJobs : List Int

section
variable {H D W : Type}

/-- `ITEMS_MAX_SIZE`, that is `FD_SETSIZE`. -/
def itemsMaxSize : ℕ := 1024

/-- The loop of `next_capacity` that counts the bits of a `size_t`. -/
def bitCount : ℕ → ℕ → ℕ
  | 0, _ => 0
  | fuel + 1, n => if n = 0 then 0 else bitCount fuel (n / 2) + 1

/-- `next_capacity` -/
def nextCapacity (n : ℕ) : ℕ := min (1 <<< bitCount 64 n) itemsMaxSize + 1

/-- `ensure_capacity`; `alloc` tells whether `calloc` or `realloc` gives memory.
The entries beyond the old size are already `none`. -/
def ensureCapacity (alloc : Bool) (s : FdSelector H D) (n : ℕ) :
    SelectorStatus × FdSelector H D :=
  if n < s.fdSize then (.success, s)
  else if itemsMaxSize < n then (.maxfd, s)
  else if alloc then (.success, { s with fdSize := nextCapacity n })
  else (.enomem, s)

/-- `selector_new` when memory is available. -/
def selectorNew (initialElements : ℕ) : FdSelector H D :=
  (ensureCapacity true
    { fds := fun _ => none, fdSize := 0, maxFd := 0
      masterR := fun _ => false, masterW := fun _ => false
      slaveR := fun _ => false, slaveW := fun _ => false
      resolutionJobs := [] } initialElements).2

/-- `INVALID_FD` -/
def invalidFd (fd : Int) : Bool := fd < 0 || itemsMaxSize ≤ fd

/-- `items_update_fdset_for_fd` -/
def itemsUpdateFdsetForFd (s : FdSelector H D) (item : Item H D) : FdSelector H D :=
  { s with
    masterR := Function.update s.masterR item.fd.toNat item.interest.read
    masterW := Function.update s.masterW item.fd.toNat item.interest.write }

/-- `items_max_fd` -/
def itemsMaxFd (s : FdSelector H D) : ℕ :=
  (List.range (s.maxFd + 1)).foldl
    (fun max i => match s.fds i with
      | some item => if max < item.fd.toNat then item.fd.toNat else max
      | none => max) 0

/-- `selector_register` -/
def selectorRegister (alloc : Bool) (s : FdSelector H D) (fd : Int) (handler : H)
    (interest : FdInterest) (data : D) : SelectorStatus × FdSelector H D :=
  if invalidFd fd then (.iargs, s)
  else
    let (ret, s) := if s.fdSize < fd.toNat then ensureCapacity alloc s fd.toNat else (.success, s)
    if ret ≠ .success then (ret, s)
    else
      match s.fds fd.toNat with
      | some _ => (.fdinuse, s)
      | none =>
        let item : Item H D := ⟨fd, interest, handler, data⟩
        (.success, itemsUpdateFdsetForFd
          { s with
            fds := Function.update s.fds fd.toNat (some item)
            maxFd := max s.maxFd fd.toNat } item)

/-- `selector_unregister_fd`; `handleClose` runs the `handle_close` of an item
on the rest of the program's memory. -/
def selectorUnregisterFd (handleClose : Item H D → W → W) (s : FdSelector H D) (fd : Int) (w : W) :
    SelectorStatus × FdSelector H D × W :=
  if invalidFd fd then (.iargs, s, w)
  else
    match s.fds fd.toNat with
    | none => (.iargs, s, w)
    | some item =>
      let w := handleClose item w
      let s := itemsUpdateFdsetForFd s { item with interest := OP_NOOP }
      let s := { s with fds := Function.update s.fds fd.toNat none }
      (.success, { s with maxFd := itemsMaxFd s }, w)

/-- `selector_set_interest` -/
def selectorSetInterest (s : FdSelector H D) (fd : Int) (i : FdInterest) :
    SelectorStatus × FdSelector H D :=
  if invalidFd fd then (.iargs, s)
  else
    match s.fds fd.toNat with
    | none => (.iargs, s)
    | some item =>
      let item := { item with interest := i }
      (.success, itemsUpdateFdsetForFd
        { s with fds := Function.update s.fds fd.toNat (some item) } item)

/-- `selector_set_interest_key`; `key` is the descriptor of the key, unless the key
or its selector is NULL. -/
def selectorSetInterestKey (s : FdSelector H D) (key : Option Int) (i : FdInterest) :
    SelectorStatus × FdSelector H D :=
  match key with
  | none => (.iargs, s)
  | some fd => if invalidFd fd then (.iargs, s) else selectorSetInterest s fd i

end

/-! ## The table as its users see it -/

namespace FdSelector

variable {H D W : Type}

/-- The item registered for a descriptor. -/
def item (s : FdSelector H D) (fd : Int) : Option (Item H D) :=
  if invalidFd fd then none else s.fds fd.toNat

/-- The invariant of the table: an item sits at the index of its descriptor,
below `max_fd`, and the prototype sets say what the interests say. -/
structure Wf (s : FdSelector H D) : Prop where
  fdSize : itemsMaxSize < s.fdSize
  fd_eq : ∀ n it, s.fds n = some it → it.fd = n ∧ n < itemsMaxSize ∧ n ≤ s.maxFd
  masterR : ∀ n, s.masterR n = (s.fds n).any (·.interest.read)
  masterW : ∀ n, s.masterW n = (s.fds n).any (·.interest.write)

/-- A descriptor is valid below the size of the table. -/
theorem invalidFd_eq_false {fd : Int} :
    invalidFd fd = false ↔ 0 ≤ fd ∧ fd < (itemsMaxSize : Int) := by
  simp [invalidFd]

/-- So is the number of a place in it. -/
theorem invalidFd_natCast {n : ℕ} (h : n < itemsMaxSize) : invalidFd (n : Int) = false := by
  rw [invalidFd_eq_false]
  omega

/-- A valid descriptor is the number of its place. -/
theorem toNat_of_valid {fd : Int} (h : invalidFd fd = false) :
    (fd.toNat : Int) = fd ∧ fd.toNat < itemsMaxSize := by
  rw [invalidFd_eq_false] at h
  omega

/-- Different descriptors have different entries. -/
theorem toNat_ne {fd fd' : Int} (h : invalidFd fd = false) (h' : invalidFd fd' = false)
    (hne : fd' ≠ fd) : fd'.toNat ≠ fd.toNat := by
  rw [invalidFd_eq_false] at h h'
  omega

/-- An item is found under a valid descriptor. -/
theorem item_eq_some {s : FdSelector H D} {fd : Int} {it : Item H D} :
    s.item fd = some it ↔ invalidFd fd = false ∧ s.fds fd.toNat = some it := by
  unfold item
  cases h : invalidFd fd <;> simp

/-- The item in a place. -/
theorem item_natCast {s : FdSelector H D} {n : ℕ} (h : n < itemsMaxSize) :
    s.item (n : Int) = s.fds n := by
  simp [item, invalidFd_natCast h]

/-- It is found under its own descriptor. -/
theorem Wf.item_natCast {s : FdSelector H D} (hs : s.Wf) {n : ℕ} {it : Item H D}
    (h : s.fds n = some it) : s.item (n : Int) = some it := by
  rw [FdSelector.item_natCast (hs.fd_eq n it h).2.1, h]

/-- What is found has the descriptor it is found under. -/
theorem Wf.fd_of_item {s : FdSelector H D} (hs : s.Wf) {fd : Int} {it : Item H D}
    (h : s.item fd = some it) : it.fd = fd := by
  obtain ⟨hv, h⟩ := item_eq_some.mp h
  rw [(hs.fd_eq _ _ h).1, (toNat_of_valid hv).1]

/-! ### Registration -/

/-- What registering does, when the table is as large as it can be. -/
theorem register_cases (alloc : Bool) {s : FdSelector H D} (hs : itemsMaxSize < s.fdSize) (fd : Int)
    (handler : H) (interest : FdInterest) (data : D) :
    (selectorRegister alloc s fd handler interest data).1 = .success ∧
        invalidFd fd = false ∧ s.item fd = none ∨
      (selectorRegister alloc s fd handler interest data).1 ≠ .success ∧
        (selectorRegister alloc s fd handler interest data).2 = s ∧
        (invalidFd fd = false → (s.item fd).isSome) := by
  unfold selectorRegister
  cases hv : invalidFd fd with
  | true => exact Or.inr ⟨by simp, by simp, by simp⟩
  | false =>
    have hsize : ¬ s.fdSize < fd.toNat := by
      have := (toNat_of_valid hv).2
      omega
    cases hf : s.fds fd.toNat with
    | none =>
      left
      simp [hsize, hf, item, hv]
    | some it =>
      right
      simp [hsize, hf, item, hv]

/-- What is registered is found, and nothing else changes. -/
theorem item_register {alloc : Bool} {s : FdSelector H D} (hs : itemsMaxSize < s.fdSize) {fd : Int}
    {handler : H} {interest : FdInterest} {data : D}
    (h : (selectorRegister alloc s fd handler interest data).1 = .success) (fd' : Int) :
    (selectorRegister alloc s fd handler interest data).2.item fd' =
      if fd' = fd then some ⟨fd, interest, handler, data⟩ else s.item fd' := by
  rcases register_cases alloc hs fd handler interest data with ⟨-, hv, hnone⟩ | ⟨hne, -⟩
  · have hlt := toNat_of_valid hv
    have hsize : ¬ s.fdSize < fd.toNat := by omega
    have hf : s.fds fd.toNat = none := by simpa [item, hv] using hnone
    simp only [selectorRegister, hv, hsize, hf, item, itemsUpdateFdsetForFd, if_false,
      Bool.false_eq_true, ne_eq, not_true_eq_false]
    by_cases heq : fd' = fd
    · simp [heq, hv]
    · cases hv' : invalidFd fd' with
      | true => simp [heq]
      | false =>
        simp [heq, toNat_ne hv hv' heq]
  · exact absurd h hne

/-! ### Interests -/

/-- The interest can be set where something is registered. -/
theorem setInterest_status (s : FdSelector H D) (fd : Int) (i : FdInterest) :
    (selectorSetInterest s fd i).1 = .success ↔ (s.item fd).isSome := by
  unfold selectorSetInterest item
  cases hv : invalidFd fd with
  | true => simp
  | false => cases hf : s.fds fd.toNat <;> simp

/-- It is changed there and nowhere else. -/
theorem item_setInterest (s : FdSelector H D) (fd : Int) (i : FdInterest) (fd' : Int) :
    (selectorSetInterest s fd i).2.item fd' =
      if fd' = fd then (s.item fd).map fun it => { it with interest := i } else s.item fd' := by
  unfold selectorSetInterest item
  cases hv : invalidFd fd with
  | true =>
    by_cases heq : fd' = fd <;> simp [heq, hv]
  | false =>
    cases hf : s.fds fd.toNat with
    | none => by_cases heq : fd' = fd <;> simp [heq, hv, hf]
    | some it =>
      by_cases heq : fd' = fd
      · simp [heq, hv, itemsUpdateFdsetForFd]
      · cases hv' : invalidFd fd' with
        | true => simp [heq]
        | false =>
          simp [heq, toNat_ne hv hv' heq, itemsUpdateFdsetForFd]

/-! ### Removal -/

/-- So can it be unregistered. -/
theorem unregister_status (handleClose : Item H D → W → W) (s : FdSelector H D) (fd : Int) (w : W) :
    (selectorUnregisterFd handleClose s fd w).1 = .success ↔ (s.item fd).isSome := by
  unfold selectorUnregisterFd item
  cases hv : invalidFd fd with
  | true => simp
  | false => cases hf : s.fds fd.toNat <;> simp

/-- It is gone, and nothing else changes. -/
theorem item_unregister (handleClose : Item H D → W → W) (s : FdSelector H D) (fd : Int) (w : W)
    (fd' : Int) :
    (selectorUnregisterFd handleClose s fd w).2.1.item fd' =
      if fd' = fd then none else s.item fd' := by
  unfold selectorUnregisterFd item
  cases hv : invalidFd fd with
  | true => by_cases heq : fd' = fd <;> simp [heq, hv]
  | false =>
    cases hf : s.fds fd.toNat with
    | none => by_cases heq : fd' = fd <;> simp [heq, hv, hf]
    | some it =>
      by_cases heq : fd' = fd
      · simp [heq, hv, itemsUpdateFdsetForFd]
      · cases hv' : invalidFd fd' with
        | true => simp [heq]
        | false =>
          simp [heq, toNat_ne hv hv' heq, itemsUpdateFdsetForFd]

/-- The item removed is the one whose `handle_close` runs. -/
theorem unregister_closed (handleClose : Item H D → W → W) (s : FdSelector H D) (fd : Int) (w : W) :
    (selectorUnregisterFd handleClose s fd w).2.2 =
      match s.item fd with
      | some it => handleClose it w
      | none => w := by
  unfold selectorUnregisterFd item
  cases hv : invalidFd fd with
  | true => simp
  | false => cases hf : s.fds fd.toNat <;> simp

/-! ### What the three leave alone -/

/-- Registering leaves the ready sets and the jobs alone. -/
theorem rest_register (alloc : Bool) {s : FdSelector H D} (hs : itemsMaxSize < s.fdSize) (fd : Int)
    (handler : H) (interest : FdInterest) (data : D) :
    (selectorRegister alloc s fd handler interest data).2.slaveR = s.slaveR ∧
      (selectorRegister alloc s fd handler interest data).2.slaveW = s.slaveW ∧
      (selectorRegister alloc s fd handler interest data).2.resolutionJobs = s.resolutionJobs := by
  unfold selectorRegister
  cases hv : invalidFd fd with
  | true => exact ⟨rfl, rfl, rfl⟩
  | false =>
    have hsize : ¬ s.fdSize < fd.toNat := by
      have := (toNat_of_valid hv).2
      omega
    simp only [hsize, Bool.false_eq_true, if_false, ne_eq, not_true_eq_false]
    split <;> exact ⟨rfl, rfl, rfl⟩

/-- So does setting an interest. -/
theorem rest_setInterest (s : FdSelector H D) (fd : Int) (i : FdInterest) :
    (selectorSetInterest s fd i).2.slaveR = s.slaveR ∧
      (selectorSetInterest s fd i).2.slaveW = s.slaveW ∧
      (selectorSetInterest s fd i).2.resolutionJobs = s.resolutionJobs := by
  unfold selectorSetInterest
  split_ifs
  · exact ⟨rfl, rfl, rfl⟩
  · split <;> exact ⟨rfl, rfl, rfl⟩

/-- So does unregistering. -/
theorem rest_unregister (handleClose : Item H D → W → W) (s : FdSelector H D) (fd : Int) (w : W) :
    (selectorUnregisterFd handleClose s fd w).2.1.slaveR = s.slaveR ∧
      (selectorUnregisterFd handleClose s fd w).2.1.slaveW = s.slaveW ∧
      (selectorUnregisterFd handleClose s fd w).2.1.resolutionJobs = s.resolutionJobs := by
  unfold selectorUnregisterFd
  split_ifs
  · exact ⟨rfl, rfl, rfl⟩
  · split <;> exact ⟨rfl, rfl, rfl⟩

/-! ### The invariant -/

/-- The maximum of `items_max_fd` is not below where it starts. -/
theorem le_foldl_max (f : ℕ → Option (Item H D)) (l : List ℕ) (m : ℕ) :
    m ≤ l.foldl (fun max i => match f i with
      | some item => if max < item.fd.toNat then item.fd.toNat else max
      | none => max) m := by
  induction l generalizing m with
  | nil => exact Nat.le_refl m
  | cons i l ih =>
    rw [List.foldl_cons]
    refine Nat.le_trans ?_ (ih _)
    cases f i with
    | none => exact Nat.le_refl m
    | some item =>
      simp only
      split_ifs <;> omega

/-- The maximum is not below any item of the list. -/
theorem toNat_le_foldl_max (f : ℕ → Option (Item H D)) {l : List ℕ} {n : ℕ} {it : Item H D}
    (hn : n ∈ l) (hf : f n = some it) (m : ℕ) :
    it.fd.toNat ≤ l.foldl (fun max i => match f i with
      | some item => if max < item.fd.toNat then item.fd.toNat else max
      | none => max) m := by
  induction l generalizing m with
  | nil => simp at hn
  | cons i l ih =>
    rw [List.foldl_cons]
    rcases List.mem_cons.mp hn with rfl | hn
    · refine Nat.le_trans ?_ (le_foldl_max f l _)
      simp only [hf]
      split_ifs with hlt
      · exact Nat.le_refl _
      · exact Nat.not_lt.mp hlt
    · exact ih hn _

/-- `items_max_fd` finds every item it scans. -/
theorem le_itemsMaxFd {s : FdSelector H D} {n : ℕ} {it : Item H D} (hf : s.fds n = some it)
    (hn : n ≤ s.maxFd) : it.fd.toNat ≤ itemsMaxFd s :=
  toNat_le_foldl_max s.fds (List.mem_range.mpr (by omega)) hf 0

/-- A new selector is well formed. -/
theorem wf_selectorNew : (selectorNew itemsMaxSize : FdSelector H D).Wf where
  fdSize := by
    show itemsMaxSize < nextCapacity itemsMaxSize
    decide
  fd_eq := by simp [selectorNew, ensureCapacity]
  masterR := by simp [selectorNew, ensureCapacity]
  masterW := by simp [selectorNew, ensureCapacity]

/-- It stays so when an interest is set. -/
theorem wf_setInterest {s : FdSelector H D} (hs : s.Wf) (fd : Int) (i : FdInterest) :
    (selectorSetInterest s fd i).2.Wf := by
  unfold selectorSetInterest
  cases hv : invalidFd fd with
  | true => exact hs
  | false =>
    cases hf : s.fds fd.toNat with
    | none => simpa [hf] using hs
    | some it =>
      have hit := hs.fd_eq _ _ hf
      have hidx : it.fd.toNat = fd.toNat := by rw [hit.1, Int.toNat_natCast]
      simp only [Bool.false_eq_true, if_false, itemsUpdateFdsetForFd]
      refine ⟨hs.fdSize, fun n it' h => ?_, fun n => ?_, fun n => ?_⟩
      · by_cases hn : n = fd.toNat
        · subst hn
          simp only [Function.update_self, Option.some.injEq] at h
          subst h
          exact hit
        · simp only [Function.update_of_ne hn] at h
          exact hs.fd_eq n it' h
      · by_cases hn : n = fd.toNat
        · simp [hn, hidx]
        · simp [hn, hidx, hs.masterR]
      · by_cases hn : n = fd.toNat
        · simp [hn, hidx]
        · simp [hn, hidx, hs.masterW]

/-- It stays so when something is registered. -/
theorem wf_register {s : FdSelector H D} (hs : s.Wf) (alloc : Bool) (fd : Int) (handler : H)
    (interest : FdInterest) (data : D) :
    (selectorRegister alloc s fd handler interest data).2.Wf := by
  rcases register_cases alloc hs.fdSize fd handler interest data with ⟨-, hv, hnone⟩ | ⟨-, h, -⟩
  · have hlt := toNat_of_valid hv
    have hsize : ¬ s.fdSize < fd.toNat := by
      have := hs.fdSize
      omega
    have hf : s.fds fd.toNat = none := by simpa [item, hv] using hnone
    simp only [selectorRegister, hv, hsize, hf, itemsUpdateFdsetForFd, if_false,
      Bool.false_eq_true, ne_eq, not_true_eq_false]
    refine ⟨hs.fdSize, fun n it' h => ?_, fun n => ?_, fun n => ?_⟩
    · by_cases hn : n = fd.toNat
      · subst hn
        simp only [Function.update_self, Option.some.injEq] at h
        subst h
        exact ⟨hlt.1.symm, hlt.2, Nat.le_max_right _ _⟩
      · simp only [Function.update_of_ne hn] at h
        obtain ⟨h1, h2, h3⟩ := hs.fd_eq n it' h
        exact ⟨h1, h2, Nat.le_trans h3 (Nat.le_max_left _ _)⟩
    · by_cases hn : n = fd.toNat <;> simp [hn, hs.masterR]
    · by_cases hn : n = fd.toNat <;> simp [hn, hs.masterW]
  · rw [h]
    exact hs

/-- It stays so when something is unregistered. -/
theorem wf_unregister {s : FdSelector H D} (hs : s.Wf) (handleClose : Item H D → W → W) (fd : Int)
    (w : W) : (selectorUnregisterFd handleClose s fd w).2.1.Wf := by
  unfold selectorUnregisterFd
  cases hv : invalidFd fd with
  | true => exact hs
  | false =>
    cases hf : s.fds fd.toNat with
    | none => simpa [hf] using hs
    | some it =>
      have hit := hs.fd_eq _ _ hf
      have hidx : it.fd.toNat = fd.toNat := by rw [hit.1, Int.toNat_natCast]
      simp only [Bool.false_eq_true, if_false, itemsUpdateFdsetForFd]
      refine ⟨hs.fdSize, fun n it' h => ?_, fun n => ?_, fun n => ?_⟩
      · have hn : n ≠ fd.toNat := by
          rintro rfl
          simp at h
        have h' := h
        simp only [Function.update_of_ne hn] at h
        obtain ⟨h1, h2, h3⟩ := hs.fd_eq n it' h
        have hle := le_itemsMaxFd (s := { s with
          masterR := Function.update s.masterR it.fd.toNat false
          masterW := Function.update s.masterW it.fd.toNat false
          fds := Function.update s.fds fd.toNat none }) h' h3
        rw [h1, Int.toNat_natCast] at hle
        exact ⟨h1, h2, hle⟩
      · by_cases hn : n = fd.toNat <;> simp [hn, hidx, hs.masterR]
      · by_cases hn : n = fd.toNat <;> simp [hn, hidx, hs.masterW]

end FdSelector

end Pop3Proxy
