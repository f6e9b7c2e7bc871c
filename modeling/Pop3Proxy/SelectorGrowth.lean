/-
# The growth of the table

`ensure_capacity` on the memory of `s->fds`: `calloc` clears what it gives, `realloc` leaves
what lies behind the old items as it finds it, and `items_init` marks the new items as unused.
The table of the selector is what this memory shows.
-/
import Pop3Proxy.SelectorIndices

namespace Pop3Proxy

/-! ## The memory of the table -/

/-- The memory of a `struct item`; a pointer that is `none` is NULL. -/
structure ItemCell (H D : Type) where
  fd : Int
  interest : FdInterest
  handler : Option H
  data : Option D
  deriving DecidableEq, Repr

/-- `FD_UNUSED` -/
def fdUnused : Int := -1

/-- `fds` and `fd_size` of `struct fdselector`; `fds` is `none` when it is NULL. -/
structure ItemTable (H D : Type) where
  fds : Option (List (ItemCell H D))
  fdSize : ℕ
  deriving DecidableEq, Repr

/-- `SIZE_MAX` -/
def sizeMax : ℕ := UInt64.size - 1

/-- `sizeof(struct item)` -/
def itemSize : ℕ := 24

section
variable {H D : Type}

/-- An item of which every octet is 0. -/
def ItemCell.cleared : ItemCell H D := ⟨0, OP_NOOP, none, none⟩

/-- `ITEM_USED` -/
def itemUsed (c : ItemCell H D) : Bool := fdUnused ≠ c.fd

/-- `item_init` -/
def itemInit (c : ItemCell H D) : ItemCell H D := { c with fd := fdUnused }

/-- `calloc` of so many items, when there is memory. -/
def callocItems (memory : Option (ℕ → ItemCell H D)) (n : ℕ) : Option (List (ItemCell H D)) :=
  memory.map fun _ => List.replicate n .cleared

/-- `realloc` to so many items: the old ones are copied, and `memory` tells what the others
happen to hold. -/
def reallocItems (memory : Option (ℕ → ItemCell H D)) (old : List (ItemCell H D)) (n : ℕ) :
    Option (List (ItemCell H D)) :=
  memory.map fun garbage => (List.range n).map fun i => (old[i]?).getD (garbage i)

/-- The loop of `items_init`, from index `i` on, for so many items. -/
def itemsInitLoop (fds : List (ItemCell H D)) (i : ℕ) :
    ℕ → Except SelectorFault (List (ItemCell H D))
  | 0 => .ok fds
  | k + 1 =>
    match fds[i]? with
    | none => .error .beyond
    | some c => itemsInitLoop (fds.set i (itemInit c)) (i + 1) k

/-- `items_init` -/
def itemsInit (fds : List (ItemCell H D)) (fdSize last : ℕ) :
    Except SelectorFault (List (ItemCell H D)) :=
  if fdSize < last then .error .assertion else itemsInitLoop fds last (fdSize - last)

/-- `next_capacity`, with its `assert`. -/
def checkedNextCapacity (n : ℕ) : Except SelectorFault ℕ :=
  if 1 <<< bitCount 64 n < n then .error .assertion else .ok (nextCapacity n)

/-- `ensure_capacity`; `memory` is what `calloc` or `realloc` would give, `none` when they
return NULL. -/
def checkedEnsureCapacity (memory : Option (ℕ → ItemCell H D)) (t : ItemTable H D) (n : ℕ) :
    Except SelectorFault (SelectorStatus × ItemTable H D) :=
  if n < t.fdSize then .ok (.success, t)
  else if itemsMaxSize < n then .ok (.maxfd, t)
  else
    match t.fds with
    | none => do
      let newSize ← checkedNextCapacity n
      match callocItems memory newSize with
      | none => return (.enomem, { t with fds := none })
      | some fds =>
        let fds ← itemsInit fds newSize 0
        return (.success, ⟨some fds, newSize⟩)
    | some old => do
      let newSize ← checkedNextCapacity n
      if sizeMax / itemSize < newSize then return (.enomem, t)
      else
        match reallocItems memory old newSize with
        | none => return (.enomem, t)
        | some fds =>
          let fds ← itemsInit fds newSize t.fdSize
          return (.success, ⟨some fds, newSize⟩)

/-! ## What the steps come to -/

theorem itemUsed_init (c : ItemCell H D) : itemUsed (itemInit c) = false := by
  unfold itemUsed itemInit
  exact decide_eq_false fun h => h rfl

/-- The loop marks what it goes by, and nothing else. -/
theorem itemsInitLoop_eq (k i : ℕ) (fds : List (ItemCell H D)) (h : i + k = fds.length) :
    itemsInitLoop fds i k = .ok (fds.take i ++ (fds.drop i).map itemInit) := by
  induction k generalizing i fds with
  | zero =>
    have hlen : fds.length ≤ i := by omega
    rw [itemsInitLoop, List.take_of_length_le hlen, List.drop_of_length_le hlen, List.map_nil,
      List.append_nil]
  | succ k ih =>
    have hi : i < fds.length := by omega
    have hstep := ih (i + 1) (fds.set i (itemInit fds[i])) (by rw [List.length_set]; omega)
    rw [itemsInitLoop, List.getElem?_eq_getElem hi]
    show itemsInitLoop (fds.set i (itemInit fds[i])) (i + 1) k = _
    rw [hstep, List.drop_set_of_lt (Nat.lt_succ_self i), List.take_add_one, List.take_set_of_le
      (Nat.le_refl i), List.getElem?_set_self (by simpa using hi), List.drop_eq_getElem_cons hi,
      List.map_cons, List.append_assoc]
    rfl

theorem itemsInit_eq {fds : List (ItemCell H D)} {last : ℕ} (h : last ≤ fds.length) :
    itemsInit fds fds.length last = .ok (fds.take last ++ (fds.drop last).map itemInit) := by
  rw [itemsInit, if_neg (by omega), itemsInitLoop_eq _ _ _ (by omega)]

theorem checkedNextCapacity_eq {n : ℕ} (h : n ≤ itemsMaxSize) :
    checkedNextCapacity n = .ok (nextCapacity n) := by
  have hpow : n < 2 ^ bitCount 64 n :=
    FdSelector.lt_pow_bitCount 64 n (by unfold itemsMaxSize at h; omega)
  rw [checkedNextCapacity, if_neg]
  rw [Nat.one_shiftLeft]
  omega

/-- No table is so large that its octets cannot be counted. -/
theorem nextCapacity_fits (n : ℕ) : ¬ sizeMax / itemSize < nextCapacity n := by
  have hmax : nextCapacity n ≤ itemsMaxSize + 1 := by
    unfold nextCapacity
    omega
  have hfits : itemsMaxSize + 1 ≤ sizeMax / itemSize := by decide
  omega

theorem length_reallocItems {memory : ℕ → ItemCell H D} {old fds : List (ItemCell H D)} {n : ℕ}
    (h : reallocItems (some memory) old n = some fds) : fds.length = n := by
  rw [← Option.some.inj h, List.length_map, List.length_range]

/-- `realloc` keeps the old items. -/
theorem take_reallocItems {memory : ℕ → ItemCell H D} {old fds : List (ItemCell H D)} {n : ℕ}
    (h : reallocItems (some memory) old n = some fds) (hle : old.length ≤ n) :
    fds.take old.length = old := by
  have hlen := length_reallocItems h
  obtain rfl := Option.some.inj h
  apply List.ext_getElem?
  intro i
  by_cases hi : i < old.length
  · have hin : i < n := by omega
    simp [hi, hin]
  · rw [List.getElem?_eq_none (l := old) (by omega), List.getElem?_eq_none]
    rw [List.length_take]
    omega

/-! ## What a growth is -/

namespace ItemTable

/-- The items of the table. -/
def items (t : ItemTable H D) : List (ItemCell H D) := t.fds.getD []

/-- **A growth**: there is room for the index, no room is lost, the items that were there are
as before, and the new ones are unused. -/
structure Grown (n : ℕ) (t t' : ItemTable H D) : Prop where
  room : n < t'.fdSize
  noSmaller : t.fdSize ≤ t'.fdSize
  allocated : t'.items.length = t'.fdSize
  kept : ∀ i, i < t.fdSize → t'.items[i]? = t.items[i]?
  unused : ∀ i c, t.fdSize ≤ i → t'.items[i]? = some c → itemUsed c = false

/-- What `ensure_capacity` should do, whatever the allocator gives. -/
structure Ensured (n : ℕ) (t : ItemTable H D) (r : SelectorStatus × ItemTable H D) : Prop where
  grown : r.1 = .success → Grown n t r.2
  refused : r.1 ≠ .success → r.2 = t

/-- The memory holds the table of the selector. -/
structure Shows (t : ItemTable H D) (s : FdSelector H D) : Prop where
  size : t.fdSize = s.fdSize
  allocated : t.items.length = t.fdSize
  item : ∀ i c, t.items[i]? = some c → match s.fds i with
    | none => itemUsed c = false
    | some it => c = ⟨it.fd, it.interest, some it.handler, some it.data⟩ ∧ itemUsed c = true
  behind : ∀ i, s.fdSize ≤ i → s.fds i = none

variable {t : ItemTable H D} {s : FdSelector H D} {n : ℕ}

/-- A table that has room. -/
theorem Grown.refl (hlen : t.items.length = t.fdSize) (h : n < t.fdSize) : Grown n t t := by
  refine ⟨h, Nat.le_refl _, hlen, fun _ _ => rfl, ?_⟩
  intro i c hi hc
  rw [List.getElem?_eq_none (by omega)] at hc
  cases hc

/-- The old items with unused ones behind them. -/
theorem grown_append (new : List (ItemCell H D)) {size : ℕ} (hlen : t.items.length = t.fdSize)
    (hroom : n < size) (hsize : t.fdSize + new.length = size) :
    Grown n t ⟨some (t.items ++ new.map itemInit), size⟩ := by
  refine ⟨hroom, ?_, ?_, ?_, ?_⟩
  · show t.fdSize ≤ size
    omega
  · show (t.items ++ new.map itemInit).length = size
    rw [List.length_append, List.length_map]
    omega
  · intro i hi
    show (t.items ++ new.map itemInit)[i]? = t.items[i]?
    exact List.getElem?_append_left (by omega)
  · intro i c hi hc
    change (t.items ++ new.map itemInit)[i]? = some c at hc
    rw [List.getElem?_append_right (by omega), List.getElem?_map] at hc
    obtain ⟨d, -, rfl⟩ := Option.map_eq_some_iff.mp hc
    exact itemUsed_init d

/-- What has grown shows the table that has grown. -/
theorem Shows.grown (h : t.Shows s) {t' : ItemTable H D} (hgrown : Grown n t t') :
    t'.Shows { s with fdSize := t'.fdSize } := by
  refine ⟨rfl, hgrown.allocated, ?_, ?_⟩
  · intro i c hc
    by_cases hi : i < t.fdSize
    · exact h.item i c ((hgrown.kept i hi).symm.trans hc)
    · have hnone := h.behind i (by rw [← h.size]; omega)
      show match s.fds i with | none => _ | some it => _
      rw [hnone]
      exact hgrown.unused i c (by omega) hc
  · intro i hi
    have hle := hgrown.noSmaller
    refine h.behind i ?_
    rw [← h.size]
    show t.fdSize ≤ i
    exact Nat.le_trans hle hi

end ItemTable

/-! ## `ensure_capacity` -/

namespace ItemTable

variable {t : ItemTable H D} {n : ℕ}

/-- **The table grows** to the next capacity when there is memory, and is left as it is when
there is none. -/
theorem checkedEnsureCapacity_grows (hlen : t.items.length = t.fdSize) (hn : ¬ n < t.fdSize)
    (hmax : n ≤ itemsMaxSize) (memory : Option (ℕ → ItemCell H D)) :
    (memory = none ∧ checkedEnsureCapacity memory t n = .ok (.enomem, t)) ∨
      ∃ t', memory ≠ none ∧ checkedEnsureCapacity memory t n = .ok (.success, t') ∧
        t'.fdSize = nextCapacity n ∧ Grown n t t' := by
  have hroom := FdSelector.lt_nextCapacity hmax
  have hsize : t.fdSize ≤ nextCapacity n := by omega
  obtain ⟨fds, fdSize⟩ := t
  rw [checkedEnsureCapacity, if_neg hn, if_neg (by omega)]
  cases fds with
  | none =>
    -- the first time: no items so far
    have h0 : 0 = fdSize := hlen
    subst h0
    rw [checkedNextCapacity_eq hmax, ok_bind]
    cases memory with
    | none => exact Or.inl ⟨rfl, rfl⟩
    | some memory =>
      right
      have hinit := itemsInit_eq (Nat.zero_le
        (List.replicate (nextCapacity n) (ItemCell.cleared : ItemCell H D)).length)
      rw [List.length_replicate, List.take_zero, List.drop_zero, List.nil_append] at hinit
      refine ⟨_, by simp, ?_, rfl, grown_append (List.replicate (nextCapacity n) .cleared) rfl
        hroom ?_⟩
      · show itemsInit _ _ 0 >>= _ = _
        rw [hinit]
        rfl
      · rw [List.length_replicate]
        exact Nat.zero_add _
  | some old =>
    have hold : old.length = fdSize := hlen
    subst hold
    simp only [checkedNextCapacity_eq hmax, ok_bind, if_neg (nextCapacity_fits n)]
    cases memory with
    | none => exact Or.inl ⟨rfl, rfl⟩
    | some memory =>
      right
      obtain ⟨fds, hfds⟩ : ∃ fds, reallocItems (some memory) old (nextCapacity n) = some fds :=
        ⟨_, rfl⟩
      have hcount := length_reallocItems hfds
      have hlast : old.length ≤ fds.length := by
        rw [hcount]
        exact hsize
      have hinit := itemsInit_eq hlast
      rw [hcount, take_reallocItems hfds hsize] at hinit
      rw [hfds]
      refine ⟨_, by simp, ?_, rfl, grown_append (fds.drop old.length) rfl hroom ?_⟩
      · show itemsInit fds _ old.length >>= _ = _
        rw [hinit]
        rfl
      · rw [List.length_drop, hcount]
        exact Nat.add_sub_cancel' hsize

/-- **What `ensure_capacity` does**: nothing goes wrong in it, and the memory keeps showing the
table of the selector. -/
theorem Shows.ensured {s : FdSelector H D} (h : t.Shows s) (memory : Option (ℕ → ItemCell H D))
    (n : ℕ) : ∃ r, checkedEnsureCapacity memory t n = .ok r ∧ Ensured n t r ∧
      r.1 = (ensureCapacity memory.isSome s n).1 ∧
        r.2.Shows (ensureCapacity memory.isSome s n).2 := by
  have hsize := h.size
  unfold ensureCapacity
  by_cases hfit : n < t.fdSize
  · rw [if_pos (by omega), checkedEnsureCapacity, if_pos hfit]
    exact ⟨_, rfl, ⟨fun _ => Grown.refl h.allocated hfit, fun hne => absurd rfl hne⟩, rfl, h⟩
  · rw [if_neg (by omega)]
    by_cases hmax : itemsMaxSize < n
    · rw [if_pos hmax, checkedEnsureCapacity, if_neg hfit, if_pos hmax]
      exact ⟨_, rfl, ⟨fun hok => (by cases hok), fun _ => rfl⟩, rfl, h⟩
    · rw [if_neg hmax]
      rcases checkedEnsureCapacity_grows h.allocated hfit (by omega) memory with
        ⟨rfl, hres⟩ | ⟨t', hsome, hres, hcapacity, hgrown⟩
      · exact ⟨_, hres, ⟨fun hok => (by cases hok), fun _ => rfl⟩, rfl, h⟩
      · have halloc : memory.isSome = true := Option.isSome_iff_ne_none.mpr hsome
        rw [halloc, if_pos rfl, ← hcapacity]
        exact ⟨_, hres, ⟨fun _ => hgrown, fun hne => absurd rfl hne⟩, rfl, h.grown hgrown⟩

end ItemTable

/-! ## The tables there are -/

/-- `struct fdselector` before its table is allocated. -/
def FdSelector.blank : FdSelector H D where
  fds _ := none
  fdSize := 0
  maxFd := 0
  masterR _ := false
  masterW _ := false
  slaveR _ := false
  slaveW _ := false
  resolutionJobs := []

/-- The selectors that `ensure_capacity` is called for: in `selector_new`, and whatever has
become of a selector that `selector_new` has made. -/
inductive FdSelector.Live (has : Callbacks H) : FdSelector H D → Prop
  | blank : Live has .blank
  | reached {elements : ℕ} (hn : elements ≤ itemsMaxSize) {u : SelectorStack H D}
    (h : (selectorSystem has elements).Reach u) : Live has u.sel

/-- Memory that holds the table. -/
def FdSelector.memory (s : FdSelector H D) : ItemTable H D where
  fds := some ((List.range s.fdSize).map fun i =>
    match s.fds i with
    | none => itemInit .cleared
    | some it => ⟨it.fd, it.interest, some it.handler, some it.data⟩)
  fdSize := s.fdSize

theorem FdSelector.Bounded.shown {s : FdSelector H D} (h : s.Bounded) : s.memory.Shows s := by
  refine ⟨rfl, ?_, ?_, ?_⟩
  · show ((List.range s.fdSize).map _).length = s.fdSize
    rw [List.length_map, List.length_range]
  · intro i c hc
    change ((List.range s.fdSize).map _)[i]? = some c at hc
    rw [List.getElem?_map] at hc
    obtain ⟨j, hj, rfl⟩ := Option.map_eq_some_iff.mp hc
    obtain ⟨hlt, rfl⟩ : i < s.fdSize ∧ i = j := by
      obtain ⟨hlt, heq⟩ := List.getElem?_eq_some_iff.mp hj
      rw [List.getElem_range] at heq
      exact ⟨by simpa using hlt, heq⟩
    cases hit : s.fds i with
    | none => exact itemUsed_init _
    | some it =>
      -- a descriptor is not negative
      have hfd := (h.items i it hit).1
      refine ⟨rfl, decide_eq_true ?_⟩
      show (-1 : Int) ≠ it.fd
      omega
  · intro i hi
    cases hit : s.fds i with
    | none => rfl
    | some it => exact absurd (h.items i it hit).2 (by omega)

theorem FdSelector.Live.exists_shows {has : Callbacks H} {s : FdSelector H D} (h : s.Live has) :
    ∃ t : ItemTable H D, t.Shows s := by
  cases h with
  | blank => exact ⟨⟨none, 0⟩, rfl, rfl, fun _ _ hc => (by cases hc), fun _ _ => rfl⟩
  | reached hn h => exact ⟨_, (SelectorStack.Bounded.reached hn h).sel.shown⟩

/-- **The growth of the table**: for every selector there is, whatever memory holds its table
and whatever the allocator gives, `ensure_capacity` makes room or leaves everything as it is. -/
theorem table_grows (has : Callbacks H) {s : FdSelector H D} (hs : s.Live has) :
    (∃ t : ItemTable H D, t.Shows s) ∧ ∀ t : ItemTable H D, t.Shows s → ∀ memory n,
      ∃ r, checkedEnsureCapacity memory t n = .ok r ∧ t.Ensured n r ∧
        r.1 = (ensureCapacity memory.isSome s n).1 ∧
          r.2.Shows (ensureCapacity memory.isSome s n).2 :=
  ⟨hs.exists_shows, fun _ ht memory n => ht.ensured memory n⟩

end

/-- A table of two items, and a third asked for. -/
theorem table_grows_two :
    (∃ t : ItemTable Unit Unit, t.Shows (selectorNew 0)) ∧
      ∀ t : ItemTable Unit Unit, t.Shows (selectorNew 0) → ∀ memory,
        ∃ r, checkedEnsureCapacity memory t 2 = .ok r ∧ t.Ensured 2 r ∧
          r.1 = (ensureCapacity memory.isSome (selectorNew 0 : FdSelector Unit Unit) 2).1 ∧
            r.2.Shows (ensureCapacity memory.isSome (selectorNew 0) 2).2 := by
  obtain ⟨hshown, hgrows⟩ := table_grows ⟨fun _ => true, fun _ => true, fun _ => true⟩
    (.reached (Nat.zero_le _) (.init rfl) :
      FdSelector.Live _ (⟨selectorNew 0, []⟩ : SelectorStack Unit Unit).sel)
  exact ⟨hshown, fun t ht memory => hgrows t ht memory 2⟩

end Pop3Proxy
