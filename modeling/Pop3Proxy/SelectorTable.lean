/-
# The table of the selector

Registering, unregistering and changing interests, in any order and with any
arguments: the item table, the two prototype sets and `max_fd` keep telling the
same story, and a call that is refused changes nothing.
-/
import Pop3Proxy.Selector

namespace Pop3Proxy

/-- A call of the selector with its arguments.  `alloc` tells whether memory is
given, a handler that is `none` is NULL. -/
inductive SelectorCall (H D : Type) where
  | register (alloc : Bool) (fd : Int) (handler : Option H) (interest : FdInterest) (data : D)
  | unregisterFd (fd : Int)
  | setInterest (fd : Int) (i : FdInterest)
  | setInterestKey (key : Option Int) (i : FdInterest)

namespace FdSelector

section
variable {H D W : Type}

/-- What the call returns and leaves behind; `handleClose` works on the rest of the memory. -/
def call (handleClose : Item H D → W → W) (s : FdSelector H D) (w : W) :
    SelectorCall H D → SelectorStatus × FdSelector H D × W
  | .register _ _ none _ _ => (.iargs, s, w)
  | .register alloc fd (some handler) interest data =>
    let r := selectorRegister alloc s fd handler interest data
    (r.1, r.2, w)
  | .unregisterFd fd => selectorUnregisterFd handleClose s fd w
  | .setInterest fd i =>
    let r := selectorSetInterest s fd i
    (r.1, r.2, w)
  | .setInterestKey key i =>
    let r := selectorSetInterestKey s key i
    (r.1, r.2, w)

/-- One call after the other. -/
def calls (handleClose : Item H D → W → W) (s : FdSelector H D) (w : W) :
    List (SelectorCall H D) → FdSelector H D × W
  | [] => (s, w)
  | c :: cs =>
    calls handleClose (s.call handleClose w c).2.1 (s.call handleClose w c).2.2 cs

/-- The invariant of the table, with `max_fd` no larger than it has to be. -/
structure Exact (s : FdSelector H D) : Prop where
  wf : s.Wf
  attained : s.maxFd = 0 ∨ (s.fds s.maxFd).isSome = true

/-! ## The largest descriptor -/

/-- The maximum is where the scan starts, or a descriptor it came across. -/
theorem foldl_max_attained (f : ℕ → Option (Item H D)) (l : List ℕ) (m : ℕ) :
    l.foldl (fun max i => match f i with
      | some item => if max < item.fd.toNat then item.fd.toNat else max
      | none => max) m = m ∨
    ∃ i item, f i = some item ∧ l.foldl (fun max i => match f i with
      | some item => if max < item.fd.toNat then item.fd.toNat else max
      | none => max) m = item.fd.toNat := by
  induction l generalizing m with
  | nil => exact Or.inl rfl
  | cons i l ih =>
    rw [List.foldl_cons]
    cases hi : f i with
    | none => exact ih m
    | some item =>
      simp only
      by_cases hlt : m < item.fd.toNat
      · rw [if_pos hlt]
        rcases ih item.fd.toNat with h | h
        · exact Or.inr ⟨i, item, hi, h⟩
        · exact Or.inr h
      · rw [if_neg hlt]
        exact ih m

/-- `items_max_fd` gives 0 or a descriptor in use. -/
theorem itemsMaxFd_attained {s : FdSelector H D} (h : ∀ n it, s.fds n = some it → it.fd = n) :
    itemsMaxFd s = 0 ∨ (s.fds (itemsMaxFd s)).isSome = true := by
  rcases foldl_max_attained s.fds (List.range (s.maxFd + 1)) 0 with hmax | ⟨i, it, hi, hmax⟩
  · exact Or.inl hmax
  · right
    have hfd : it.fd.toNat = i := by rw [h i it hi, Int.toNat_natCast]
    rw [show itemsMaxFd s = i from hmax.trans hfd, hi]
    rfl

/-! ## The calls -/

theorem exact_selectorNew : (selectorNew itemsMaxSize : FdSelector H D).Exact where
  wf := wf_selectorNew
  attained := Or.inl (by simp [selectorNew, ensureCapacity])

theorem Exact.register {s : FdSelector H D} (hs : s.Exact) (alloc : Bool) (fd : Int) (handler : H)
    (interest : FdInterest) (data : D) :
    (selectorRegister alloc s fd handler interest data).2.Exact := by
  refine ⟨wf_register hs.wf alloc fd handler interest data, ?_⟩
  rcases register_cases alloc hs.wf.fdSize fd handler interest data with ⟨-, hv, hnone⟩ | ⟨-, h, -⟩
  · have hlt := toNat_of_valid hv
    have hsize : ¬ s.fdSize < fd.toNat := by
      have := hs.wf.fdSize
      omega
    have hf : s.fds fd.toNat = none := by simpa [item, hv] using hnone
    simp only [selectorRegister, hv, hsize, hf, itemsUpdateFdsetForFd, if_false,
      Bool.false_eq_true, ne_eq, not_true_eq_false]
    right
    by_cases hle : s.maxFd ≤ fd.toNat
    · simp [Nat.max_eq_right hle]
    -- the old maximum stays, and its item is not the new one
    · have hmax : max s.maxFd fd.toNat = s.maxFd := Nat.max_eq_left (by omega)
      rw [hmax, Function.update_of_ne (by omega)]
      rcases hs.attained with h0 | h0
      · omega
      · exact h0
  · rw [h]
    exact hs.attained

theorem Exact.setInterest {s : FdSelector H D} (hs : s.Exact) (fd : Int) (i : FdInterest) :
    (selectorSetInterest s fd i).2.Exact := by
  refine ⟨wf_setInterest hs.wf fd i, ?_⟩
  unfold selectorSetInterest
  cases hv : invalidFd fd with
  | true => exact hs.attained
  | false =>
    cases hf : s.fds fd.toNat with
    | none => simpa [hf] using hs.attained
    | some it =>
      simp only [Bool.false_eq_true, if_false, itemsUpdateFdsetForFd]
      rcases hs.attained with h0 | h0
      · exact Or.inl h0
      · right
        by_cases hn : s.maxFd = fd.toNat
        · simp [hn]
        · rw [Function.update_of_ne hn]
          exact h0

theorem Exact.unregister {s : FdSelector H D} (hs : s.Exact) (handleClose : Item H D → W → W)
    (fd : Int) (w : W) : (selectorUnregisterFd handleClose s fd w).2.1.Exact := by
  have hwf := wf_unregister hs.wf handleClose fd w
  refine ⟨hwf, ?_⟩
  unfold selectorUnregisterFd at hwf ⊢
  cases hv : invalidFd fd with
  | true => exact hs.attained
  | false =>
    cases hf : s.fds fd.toNat with
    | none => simpa [hf] using hs.attained
    | some it =>
      simp only [hv, hf, Bool.false_eq_true, if_false] at hwf ⊢
      exact itemsMaxFd_attained fun n it' h => (hwf.fd_eq n it' h).1

/-- **A call keeps the invariant.** -/
theorem Exact.call {s : FdSelector H D} (hs : s.Exact) (handleClose : Item H D → W → W) (w : W)
    (c : SelectorCall H D) : (s.call handleClose w c).2.1.Exact := by
  cases c with
  | register alloc fd handler interest data =>
    cases handler with
    | none => exact hs
    | some handler => exact hs.register alloc fd handler interest data
  | unregisterFd fd => exact hs.unregister handleClose fd w
  | setInterest fd i => exact hs.setInterest fd i
  | setInterestKey key i =>
    cases key with
    | none => exact hs
    | some fd =>
      simp only [FdSelector.call, selectorSetInterestKey]
      split_ifs
      · exact hs
      · exact hs.setInterest fd i

/-- **Any calls keep it.** -/
theorem Exact.calls {s : FdSelector H D} (hs : s.Exact) (handleClose : Item H D → W → W) (w : W)
    (cs : List (SelectorCall H D)) : (s.calls handleClose w cs).1.Exact := by
  induction cs generalizing s w with
  | nil => exact hs
  | cons c cs ih => exact ih (hs.call handleClose w c) _

theorem setInterest_refused {s : FdSelector H D} {fd : Int} {i : FdInterest}
    (h : (selectorSetInterest s fd i).1 ≠ .success) : (selectorSetInterest s fd i).2 = s := by
  unfold selectorSetInterest at h ⊢
  split_ifs at h ⊢
  · rfl
  · cases hf : s.fds fd.toNat with
    | none => rfl
    | some it => simp [hf] at h

/-- **A call that is refused changes nothing.** -/
theorem call_refused {s : FdSelector H D} (hs : s.Wf) {handleClose : Item H D → W → W} {w : W}
    {c : SelectorCall H D} (h : (s.call handleClose w c).1 ≠ .success) :
    (s.call handleClose w c).2 = (s, w) := by
  cases c with
  | register alloc fd handler interest data =>
    cases handler with
    | none => rfl
    | some handler =>
      rcases register_cases alloc hs.fdSize fd handler interest data with ⟨hok, -⟩ | ⟨-, hsame, -⟩
      · exact absurd hok h
      · exact congrArg (·, w) hsame
  | unregisterFd fd =>
    simp only [call, selectorUnregisterFd] at h ⊢
    split_ifs at h ⊢
    · rfl
    · cases hf : s.fds fd.toNat with
      | none => rfl
      | some it => simp [hf] at h
  | setInterest fd i => exact congrArg (·, w) (setInterest_refused h)
  | setInterestKey key i =>
    cases key with
    | none => rfl
    | some fd =>
      simp only [call, selectorSetInterestKey] at h ⊢
      split_ifs at h ⊢
      · rfl
      · exact congrArg (·, w) (setInterest_refused h)

end

end FdSelector

/-- What the item table, the prototype sets and `max_fd` say of each other, and
what a call does that is refused. -/
structure FdSelector.Coherent {H D W : Type} (handleClose : Item H D → W → W)
    (s : FdSelector H D) : Prop where
  masterR : ∀ n, s.masterR n = true ↔ ∃ it, s.fds n = some it ∧ it.interest.read = true
  masterW : ∀ n, s.masterW n = true ↔ ∃ it, s.fds n = some it ∧ it.interest.write = true
  fd : ∀ n it, s.fds n = some it → it.fd = n
  maxFd : (∀ n, s.fds n = none) ∧ s.maxFd = 0 ∨
    (s.fds s.maxFd).isSome = true ∧ ∀ n, (s.fds n).isSome = true → n ≤ s.maxFd
  refused : ∀ w c, (s.call handleClose w c).1 ≠ .success → (s.call handleClose w c).2 = (s, w)

theorem FdSelector.Exact.coherent {H D W : Type} {s : FdSelector H D} (hs : s.Exact)
    (handleClose : Item H D → W → W) : s.Coherent handleClose := by
  have hle : ∀ n, (s.fds n).isSome = true → n ≤ s.maxFd := by
    intro n hn
    obtain ⟨it, hit⟩ := Option.isSome_iff_exists.mp hn
    exact (hs.wf.fd_eq n it hit).2.2
  constructor
  · intro n
    rw [hs.wf.masterR, Option.any_eq_true]
  · intro n
    rw [hs.wf.masterW, Option.any_eq_true]
  · intro n it h
    exact (hs.wf.fd_eq n it h).1
  · by_cases hused : (s.fds s.maxFd).isSome = true
    · exact Or.inr ⟨hused, hle⟩
    -- the maximum is 0, and 0 is not in use
    · have h0 : s.maxFd = 0 := hs.attained.resolve_right hused
      refine Or.inl ⟨fun n => ?_, h0⟩
      cases hn : s.fds n with
      | none => rfl
      | some it =>
        have hn' := hle n (by rw [hn]; rfl)
        obtain rfl : n = s.maxFd := by omega
        exact absurd (by rw [hn]; rfl) hused
  · intro w c h
    exact FdSelector.call_refused hs.wf h

/-- **The table of the selector**, after any calls on a selector as the server makes it. -/
theorem selector_table {H D W : Type} (handleClose : Item H D → W → W) (w : W)
    (cs : List (SelectorCall H D)) :
    ((selectorNew 1024 : FdSelector H D).calls handleClose w cs).1.Coherent handleClose :=
  (FdSelector.exact_selectorNew.calls handleClose w cs).coherent handleClose

end Pop3Proxy
