/-
# Looking for a pattern without going back

A scanner that looks for a pattern and knows only how many letters of it came
last.  A letter that breaks a match is dropped, also when a new match could begin
with it.  So what it has read is cut into pieces, each a match that was broken,
and it finds the pattern where such a piece would begin, and nowhere else.
-/
import Mathlib.Data.List.Infix
import Mathlib.Data.List.Induction
import Mathlib.Data.Nat.Find
import Pop3Proxy.Library.Scan

namespace Pattern

variable {α : Type*}

/-- `k` letters of the pattern have been read, and then `a`. -/
def step [DecidableEq α] (p : List α) (k : ℕ) (a : α) : ℕ × Option Unit :=
  if p[k]? = some a then (k + 1, if k + 1 = p.length then some () else none) else (0, none)

/-- A match that its last letter breaks. -/
inductive Broken (p : List α) : List α → Prop
  | intro (k : ℕ) (a : α) (hk : k < p.length) (ha : p[k]? ≠ some a) : Broken p (p.take k ++ [a])

/-- Matches that were broken, one behind the other. -/
inductive Pieces (p : List α) : List α → Prop
  | nil : Pieces p []
  | cons {v w : List α} (hv : Broken p v) (hw : Pieces p w) : Pieces p (v ++ w)

/-- The first place where the pattern ends. -/
structure FirstEnd (p as : List α) (n : ℕ) : Prop where
  le : n ≤ as.length
  suffix : p <:+ as.take n
  first : ∀ m < n, ¬ p <:+ as.take m

/-- The pattern ends behind pieces. -/
structure CleanEnd (p as : List α) (n : ℕ) : Prop where
  le : n ≤ as.length
  pieces : ∃ u, Pieces p u ∧ as.take n = u ++ p

variable {p as u v : List α} {k n : ℕ}

/-- Pieces behind pieces. -/
theorem Pieces.append (hu : Pieces p u) (hv : Pieces p v) : Pieces p (u ++ v) := by
  induction hu with
  | nil => exact hv
  | cons hb hw ih =>
    rw [List.append_assoc]
    exact .cons hb ih

/-- Pieces in front of pieces and a rest. -/
theorem Pieces.before {w rest : List α} (hu : Pieces p u) (hv : ∃ x, Pieces p x ∧ v = x ++ rest)
    (hw : w = u ++ v) : ∃ x, Pieces p x ∧ w = x ++ rest := by
  obtain ⟨x, hx, rfl⟩ := hv
  exact ⟨u ++ x, hu.append hx, hw.trans (List.append_assoc u x rest).symm⟩

/-- One broken piece. -/
theorem Broken.pieces (hv : Broken p v) : Pieces p v := by
  have h := Pieces.cons hv .nil
  rwa [List.append_nil] at h

/-- Letters with which the pattern does not begin break every match at once. -/
theorem pieces_of_notMem {a : α} (hp : p.head? = some a) (hv : a ∉ v) : Pieces p v := by
  induction v with
  | nil => exact .nil
  | cons b v ih =>
    have hlen : 0 < p.length := by
      cases p with
      | nil => simp at hp
      | cons c p => simp
    have hne : p[0]? ≠ some b := by
      rw [← List.head?_eq_getElem?, hp]
      rintro ⟨⟩
      exact hv List.mem_cons_self
    exact .cons (.intro 0 b hlen hne) (ih fun h => hv (List.mem_cons_of_mem b h))

/-- A word that is pieces and the pattern ends cleanly. -/
theorem Pieces.cleanEnd (hu : Pieces p u) : CleanEnd p (u ++ p) (u ++ p).length :=
  ⟨le_rfl, u, hu, List.take_length⟩

open Classical in
/-- Where the pattern ends there is a first place where it ends. -/
theorem CleanEnd.firstEnd (h : CleanEnd p as n) : ∃ m ≤ n, FirstEnd p as m := by
  obtain ⟨hle, u, -, htake⟩ := h
  have hex : ∃ m, p <:+ as.take m := ⟨n, htake ▸ List.suffix_append u p⟩
  have hmin : Nat.find hex ≤ n := Nat.find_min' hex (htake ▸ List.suffix_append u p)
  exact ⟨Nat.find hex, hmin, by omega, Nat.find_spec hex, fun m hm => Nat.find_min hex hm⟩

/-- A pattern ends in one place first. -/
theorem FirstEnd.unique {m : ℕ} (h : FirstEnd p as n) (h' : FirstEnd p as m) : n = m := by
  rcases Nat.lt_trichotomy n m with hlt | heq | hlt
  · exact absurd h.suffix (h'.first n hlt)
  · exact heq
  · exact absurd h'.suffix (h.first m hlt)

/-! ## What the scanner reads -/

variable [DecidableEq α]

/-- Letters of the pattern are counted. -/
theorem scan_match {j : ℕ} (hj : k + j < p.length) (as : List α) :
    Scan.scan (step p) k ((p.drop k).take j ++ as) =
      { Scan.scan (step p) (k + j) as with read := j + (Scan.scan (step p) (k + j) as).read } := by
  induction j generalizing k with
  | zero => simp
  | succ j ih =>
    have hk : k < p.length := by omega
    have hstep : step p k p[k] = (k + 1, none) := by
      rw [step, if_pos (List.getElem?_eq_getElem hk), if_neg (by omega)]
    rw [List.drop_eq_getElem_cons hk, List.take_succ_cons, List.cons_append,
      Scan.scan_cons_none _ _ hstep, ih (by omega)]
    simp only [show k + 1 + j = k + (j + 1) from by omega, Scan.Outcome.mk.injEq, true_and]
    omega

/-- A broken match takes it back to where it was. -/
theorem scan_broken (hv : Broken p v) (as : List α) :
    Scan.scan (step p) 0 (v ++ as) =
      { Scan.scan (step p) 0 as with read := v.length + (Scan.scan (step p) 0 as).read } := by
  obtain ⟨k, a, hk, ha⟩ := hv
  have hstep : step p k a = (0, none) := by rw [step, if_neg ha]
  have hmatch := scan_match (p := p) (k := 0) (j := k) (by omega) (a :: as)
  rw [List.drop_zero, Nat.zero_add] at hmatch
  rw [List.append_assoc, List.singleton_append, hmatch, Scan.scan_cons_none _ _ hstep,
    List.length_append, List.length_take, List.length_singleton, Nat.min_eq_left (by omega)]
  simp only [Scan.Outcome.mk.injEq, true_and]
  omega

/-- Pieces leave the scan at its start. -/
theorem scan_pieces (hu : Pieces p u) (as : List α) :
    Scan.scan (step p) 0 (u ++ as) =
      { Scan.scan (step p) 0 as with read := u.length + (Scan.scan (step p) 0 as).read } := by
  induction hu with
  | nil => simp
  | cons hv hw ih =>
    rw [List.append_assoc, scan_broken hv, ih, List.length_append]
    simp only [Scan.Outcome.mk.injEq, true_and]
    omega

/-- The whole pattern ends the scan. -/
theorem scan_pattern (hp : p ≠ []) (as : List α) :
    Scan.scan (step p) 0 (p ++ as) = ⟨p.length, some (), p.length⟩ := by
  have hlen : 0 < p.length := List.length_pos_of_ne_nil hp
  have hlast : p.length - 1 < p.length := by omega
  have hp' : p = p.take (p.length - 1) ++ [p[p.length - 1]] := by
    rw [List.take_concat_get' p _ hlast, show p.length - 1 + 1 = p.length from by omega,
      List.take_length]
  have hstep : step p (p.length - 1) p[p.length - 1] = (p.length, some ()) := by
    rw [step, if_pos (List.getElem?_eq_getElem hlast), if_pos (by omega)]
    congr 1
    omega
  have hmatch := scan_match (p := p) (k := 0) (j := p.length - 1) (by omega)
    (p[p.length - 1] :: as)
  rw [List.drop_zero, Nat.zero_add] at hmatch
  conv_lhs => rw [hp', List.append_assoc, List.singleton_append, ← hp']
  rw [hmatch, Scan.scan_cons_some _ _ hstep]
  simp only [Scan.Outcome.mk.injEq, true_and]
  omega

/-- **Every word is cut into pieces**, up to a whole match or up to one that may still
become whole. -/
theorem split (hp : p ≠ []) (as : List α) :
    (∃ u rest, Pieces p u ∧ as = u ++ p ++ rest) ∨
      ∃ u k, Pieces p u ∧ k < p.length ∧ as = u ++ p.take k := by
  induction as using List.reverseRecOn with
  | nil => exact Or.inr ⟨[], 0, .nil, List.length_pos_of_ne_nil hp, by simp⟩
  | append_singleton as a ih =>
    rcases ih with ⟨u, rest, hu, rfl⟩ | ⟨u, k, hu, hk, rfl⟩
    · exact Or.inl ⟨u, rest ++ [a], hu, by simp⟩
    · by_cases ha : p[k]? = some a
      · have htake : p.take k ++ [a] = p.take (k + 1) := by
          rw [List.take_add_one, ha]
          rfl
        rw [List.append_assoc, htake]
        by_cases hlast : k + 1 = p.length
        · left
          refine ⟨u, [], hu, ?_⟩
          rw [hlast, List.take_length, List.append_nil]
        · exact Or.inr ⟨u, k + 1, hu, by omega, rfl⟩
      · right
        refine ⟨u ++ (p.take k ++ [a]), 0, hu.append (Broken.intro k a hk ha).pieces,
          by omega, ?_⟩
        rw [List.take_zero, List.append_nil, List.append_assoc]

/-! ## Where it finds the pattern -/

/-- The scan stops where the pattern ends. -/
theorem CleanEnd.scan (hp : p ≠ []) (h : CleanEnd p as n) :
    Scan.scan (step p) 0 as = ⟨p.length, some (), n⟩ := by
  obtain ⟨hle, u, hu, htake⟩ := h
  have hn : n = u.length + p.length := by
    rw [← List.length_append, ← htake, List.length_take, Nat.min_eq_left hle]
  conv_lhs => rw [← List.take_append_drop n as, htake, List.append_assoc]
  rw [scan_pieces hu, scan_pattern hp, hn]

/-- Without such a place there is no verdict. -/
theorem scan_eq_none (hp : p ≠ []) (h : ∀ n, ¬ CleanEnd p as n) :
    (Scan.scan (step p) 0 as).verdict = none := by
  rcases split hp as with ⟨u, rest, hu, rfl⟩ | ⟨u, k, hu, hk, rfl⟩
  · refine absurd ⟨?_, u, hu, List.take_left⟩ (h (u ++ p).length)
    rw [@List.length_append _ (u ++ p)]
    exact Nat.le_add_right _ _
  · have hmatch := scan_match (p := p) (k := 0) (j := k) (by omega) []
    rw [List.drop_zero, List.append_nil] at hmatch
    rw [scan_pieces hu, hmatch]
    rfl

/-- So there is one such place. -/
theorem CleanEnd.unique {m : ℕ} (hp : p ≠ []) (h : CleanEnd p as n) (h' : CleanEnd p as m) :
    n = m :=
  congrArg Scan.Outcome.read ((h.scan hp).symm.trans (h'.scan hp))

/-- It finds the pattern behind pieces, and nowhere else. -/
theorem cleanEnd_iff (hp : p ≠ []) :
    CleanEnd p as n ↔ (Scan.scan (step p) 0 as).verdict = some () ∧
      (Scan.scan (step p) 0 as).read = n := by
  constructor
  · intro h
    rw [h.scan hp]
    exact ⟨rfl, rfl⟩
  · rintro ⟨hverdict, hread⟩
    by_contra hno
    by_cases hclean : ∃ m, CleanEnd p as m
    · obtain ⟨m, hm⟩ := hclean
      obtain rfl : n = m := by rw [← hread, hm.scan hp]
      exact hno hm
    · have hnone := scan_eq_none hp fun m hm => hclean ⟨m, hm⟩
      rw [hverdict] at hnone
      exact absurd hnone (by simp)

/-! ## Chunk by chunk -/

/-- What is told of each chunk in turn: something else as soon as the pattern has
come for the first time, in the chunk in which it ends. -/
structure Timely {T : Type*} (p : List α) (chunks : List (List α)) (quiet loud : T)
    (told : List T) : Prop where
  found : ∀ n, FirstEnd p chunks.flatten n →
    told = List.replicate (Scan.chunkOf chunks n) quiet ++ [loud]
  absent : (∀ n, ¬ FirstEnd p chunks.flatten n) → told = List.replicate chunks.length quiet

/-- **When the scanner is right**: the place where it finds the pattern lies in the
chunk in which the pattern ends first. -/
theorem timely_iff {S R T : Type*} {step' : S → α → S × Option R} {s : S} {r : R}
    {chunks : List (List α)} (told : Option R → T) (hp : p ≠ [])
    (hverdict : (Scan.scan step' s chunks.flatten).verdict =
      (Scan.scan (step p) 0 chunks.flatten).verdict.map fun _ => r)
    (hread : (Scan.scan step' s chunks.flatten).read =
      (Scan.scan (step p) 0 chunks.flatten).read)
    (htold : told none ≠ told (some r)) :
    Timely p chunks (told none) (told (some r)) ((Scan.verdicts step' s chunks).map told) ↔
      ∀ n, FirstEnd p chunks.flatten n →
        ∃ m, CleanEnd p chunks.flatten m ∧ Scan.chunkOf chunks m = Scan.chunkOf chunks n := by
  rw [Scan.verdicts_eq, hverdict, hread]
  by_cases hclean : ∃ m, CleanEnd p chunks.flatten m
  · obtain ⟨m, hm⟩ := hclean
    rw [hm.scan hp]
    simp only [Option.map_some, List.map_append, List.map_replicate, List.map_cons, List.map_nil]
    constructor
    · intro h n hn
      have hlen := congrArg List.length (h.found n hn)
      simp only [List.length_append, List.length_replicate, List.length_singleton] at hlen
      exact ⟨m, hm, by omega⟩
    · intro h
      constructor
      · intro n hn
        obtain ⟨m', hm', hchunk⟩ := h n hn
        rw [hm.unique hp hm', hchunk]
      · intro hno
        obtain ⟨n, -, hn⟩ := hm.firstEnd
        exact absurd hn (hno n)
  · rw [scan_eq_none hp fun m hm => hclean ⟨m, hm⟩]
    simp only [Option.map_none, List.map_replicate]
    constructor
    · intro h n hn
      have hmem : told (some r) ∈ List.replicate chunks.length (told none) := by
        rw [h.found n hn]
        simp
      exact absurd (List.eq_of_mem_replicate hmem).symm htold
    · intro h
      constructor
      · intro n hn
        obtain ⟨m, hm, -⟩ := h n hn
        exact absurd ⟨m, hm⟩ hclean
      · intro _
        rfl

end Pattern
