/-
# The memory for the list of types

The loop that reserves memory adds up the lengths of the types; the loop that fills
it writes an octet behind each type, the last of which is the NUL.
-/
import Pop3Proxy.Admin.Ban

namespace Pop3Proxy

open Traced

/-- The types are joined inside the memory that was reserved last, and `setenv` gets
them with commas between them. -/
structure TypesJoined (ss : List (List Byte)) (g : Globals) : Prop where
  inside : ∀ i reserved, .types i reserved ∈ (transDecoder 0x54 ss ss.length g).trace →
    i < reserved
  joined : ∃ response g', (transDecoder 0x54 ss ss.length g).result = .ok (response, g') ∧
    g'.filterMedias = some ([COMMA].intercalate ss)

section
variable {ss : List (List Byte)}

/-- What is written for one type. -/
theorem types_mem_typeTrace {i j pointer n reserved reserved' : ℕ} :
    .types j reserved' ∈ typeTrace i pointer n reserved ↔
      reserved' = reserved ∧ pointer ≤ j ∧ j ≤ pointer + n := by
  simp only [typeTrace, List.cons_append, List.mem_cons, List.mem_append, List.mem_map,
    List.mem_range'_1, List.not_mem_nil, or_false, Access.types.injEq, reduceCtorEq, false_or]
  constructor
  · rintro (⟨k, hk, rfl, rfl⟩ | ⟨rfl, rfl⟩)
    · exact ⟨rfl, hk.1, by omega⟩
    · exact ⟨rfl, by omega, Nat.le_refl _⟩
  · rintro ⟨rfl, hlow, hhigh⟩
    exact .inl ⟨j, ⟨hlow, by omega⟩, rfl, rfl⟩

/-- How far the loop that fills the memory gets: an octet for each of the types, and
one behind each. -/
theorem fillTypes_reach (before after : List (List Byte)) (hne : after ≠ []) (reserved : ℕ)
    (types : List Byte) {j : ℕ}
    (hj : j + 1 = types.length + (after.map List.length).sum + after.length) :
    .types j reserved ∈ (fillTypes (before ++ after) (before ++ after).length reserved after.length
        before.length types.length types).trace ∧
      ∀ i reserved', .types i reserved' ∈ (fillTypes (before ++ after) (before ++ after).length
        reserved after.length before.length types.length types).trace →
          reserved' = reserved ∧ i ≤ j := by
  induction after generalizing before types with
  | nil => exact absurd rfl hne
  | cons s after ih =>
    rw [List.map_cons, List.sum_cons, List.length_cons] at hj
    rw [List.length_cons, fillTypes_append, notes_bind]
    have hlen (x : Byte) : (types ++ s ++ [x]).length = types.length + s.length + 1 := by
      simp only [List.length_append, List.length_singleton]
    by_cases hnil : after = []
    -- the last type, with the NUL behind it
    · subst hnil
      have hnone : ∀ (p : ℕ) (ts : List Byte),
        (fillTypes (before ++ [s]) (before ++ [s]).length reserved
          ([] : List (List Byte)).length (before.length + 1) p ts).trace = [] := fun _ _ => rfl
      rw [hnone, List.append_nil]
      simp only [List.map_nil, List.sum_nil, List.length_nil] at hj
      refine ⟨types_mem_typeTrace.mpr ⟨rfl, by omega, by omega⟩, fun i reserved' hmem => ?_⟩
      obtain ⟨hres, -, hi⟩ := types_mem_typeTrace.mp hmem
      exact ⟨hres, by omega⟩
    · obtain ⟨x, hx⟩ : ∃ x : Byte,
          (if (before ++ s :: after).length ≤ before.length + 1 then (0 : Byte) else COMMA) = x :=
        ⟨_, rfl⟩
      have hrest := ih (before ++ [s]) hnil (types ++ s ++ [x]) (by rw [hlen]; omega)
      rw [List.append_assoc, List.singleton_append, ← append_cons_length, hlen] at hrest
      rw [hx]
      obtain ⟨hlast, hall⟩ := hrest
      refine ⟨List.mem_append_right _ hlast, fun i reserved' hmem => ?_⟩
      rcases List.mem_append.mp hmem with hmem | hmem
      · obtain ⟨hres, -, hi⟩ := types_mem_typeTrace.mp hmem
        exact ⟨hres, by omega⟩
      · exact hall i reserved' hmem

/-- What is written while the list is built. -/
theorem ban_reach (hne : ss ≠ []) (g : Globals) {j : ℕ}
    (hj : j + 1 = (ss.map List.length).sum + ss.length) :
    .types j ((ss.map List.length).sum + 1) ∈ (ban ss ss.length g).trace ∧
      ∀ i reserved, .types i reserved ∈ (ban ss ss.length g).trace →
        reserved = (ss.map List.length).sum + 1 ∧ i ≤ j := by
  obtain ⟨l, hfill, -⟩ := fillTypes_eq [] ss ((ss.map List.length).sum + 1) []
  have hreach := fillTypes_reach (j := j) [] ss hne ((ss.map List.length).sum + 1) []
    (by rw [List.length_nil]; omega)
  rw [hfill] at hreach
  have hreserve := reserveTypes_eq [] ss 0 none
  rw [if_neg hne] at hreserve
  simp only [List.nil_append, List.length_nil, Nat.zero_add] at hfill hreserve
  have htrace : (ban ss ss.length g).trace = (List.range' 0 ss.length).map .use ++ l := by
    rw [ban, hreserve, mk_ok_bind]
    simp only [hfill]
    simp
  rw [htrace]
  refine ⟨List.mem_append_right _ hreach.1, fun i reserved hmem => ?_⟩
  rcases List.mem_append.mp hmem with hmem | hmem
  · obtain ⟨k, -, hk⟩ := List.mem_map.mp hmem
    exact absurd hk (by simp)
  · exact hreach.2 i reserved hmem

/-- **Joining the types** stays inside the memory exactly when there is one: the comma
behind every other one has no room. -/
theorem types_joined (hne : ss ≠ []) (hss : ∀ s ∈ ss, (0 : Byte) ∉ s) (g : Globals) :
    TypesJoined ss g ↔ ss.length = 1 := by
  have hpos : 1 ≤ ss.length := List.length_pos_of_ne_nil hne
  have hdecode : transDecoder 0x54 ss ss.length g = ban ss ss.length g := rfl
  obtain ⟨hlast, hall⟩ := ban_reach hne g
    (j := (ss.map List.length).sum + ss.length - 1) (by omega)
  constructor
  · intro h
    have hlt := h.inside _ _ (hdecode ▸ hlast)
    omega
  · intro hone
    constructor
    · intro i reserved hmem
      rw [hdecode] at hmem
      obtain ⟨rfl, hi⟩ := hall i reserved hmem
      omega
    · obtain ⟨l, hban, -⟩ := ban_eq hne g
      rw [cstr_joinedTypes hne hss] at hban
      rw [hdecode, hban]
      exact ⟨_, _, rfl, rfl⟩

/-- One type. -/
theorem types_joined_png :
    TypesJoined [ascii "image/png"] ⟨none, none, 0⟩ ↔ [ascii "image/png"].length = 1 :=
  types_joined (by decide) (by decide +kernel) ⟨none, none, 0⟩

/-- The NUL behind the second of two types has no room. -/
theorem types_overflow : ¬ ∀ (ss : List (List Byte)) (g : Globals), ss ≠ [] →
    (∀ s ∈ ss, (0 : Byte) ∉ s) → TypesJoined ss g := by
  intro h
  have hinside :=
    (h [ascii "a", ascii "b"] ⟨none, none, 0⟩ (by decide) (by decide +kernel)).inside 3 3
  exact absurd (hinside (by decide +kernel)) (Nat.lt_irrefl 3)

end

end Pop3Proxy
