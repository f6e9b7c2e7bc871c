/-
# Chains of nodes

Nodes in memory, each with a pointer to another one or to none.  A chain runs from a pointer
through nodes to a pointer; it depends on these nodes only, and one that ends at no node passes
each address once.
-/
import Mathlib.Data.List.Nodup
import Mathlib.Logic.Function.Basic
import Mathlib.Tactic.Common

namespace Nodes

variable {A N : Type} {link : N → Option A} {h h' : A → Option N} {p q : Option A}
  {as bs : List (A × N)} {a : A} {n : N}

/-- The chain from `p` runs through these nodes, each with its address, and leads to `q`. -/
def Chain (link : N → Option A) (h : A → Option N) : Option A → List (A × N) → Option A → Prop
  | p, [], q => p = q
  | p, c :: as, q => p = some c.1 ∧ h c.1 = some c.2 ∧ Chain link h (link c.2) as q

/-- The addresses of a chain. -/
abbrev addresses (as : List (A × N)) : List A := as.map Prod.fst

namespace Chain

/-- Two chains, one behind the other. -/
theorem append : Chain link h p (as ++ bs) q ↔ ∃ r, Chain link h p as r ∧ Chain link h r bs q := by
  induction as generalizing p with
  | nil =>
    constructor
    · intro hbs
      exact ⟨p, rfl, hbs⟩
    · rintro ⟨r, rfl, hbs⟩
      exact hbs
  | cons c as ih =>
    rw [List.cons_append, Chain, ih]
    constructor
    · rintro ⟨hp, hc, r, has, hbs⟩
      exact ⟨r, ⟨hp, hc, has⟩, hbs⟩
    · rintro ⟨r, ⟨hp, hc, has⟩, hbs⟩
      exact ⟨hp, hc, r, has, hbs⟩

/-- The last node of a chain. -/
theorem concat : Chain link h p (as ++ [(a, n)]) q ↔
    Chain link h p as (some a) ∧ h a = some n ∧ link n = q := by
  rw [append]
  constructor
  · rintro ⟨r, has, rfl, ha, hq⟩
    exact ⟨has, ha, hq⟩
  · rintro ⟨has, ha, hq⟩
    exact ⟨some a, has, rfl, ha, hq⟩

/-- What a node of the chain holds. -/
theorem get (hc : Chain link h p as q) {c : A × N} (hmem : c ∈ as) : h c.1 = some c.2 := by
  induction as generalizing p with
  | nil => exact absurd hmem List.not_mem_nil
  | cons d as ih =>
    rcases List.mem_cons.mp hmem with rfl | hmem
    · exact hc.2.1
    · exact ih hc.2.2 hmem

/-- The chain depends on its nodes only. -/
theorem congr (hc : Chain link h p as q) (heq : ∀ b ∈ addresses as, h' b = h b) :
    Chain link h' p as q := by
  induction as generalizing p with
  | nil => exact hc
  | cons c as ih =>
    obtain ⟨hp, hnode, hrest⟩ := hc
    refine ⟨hp, ?_, ih hrest fun b hb => heq b (List.mem_cons_of_mem _ hb)⟩
    rw [heq c.1 List.mem_cons_self, hnode]

/-- A node that is not in the chain may change. -/
theorem update [DecidableEq A] (hc : Chain link h p as q) (ha : a ∉ addresses as) (o : Option N) :
    Chain link (Function.update h a o) p as q := by
  refine hc.congr fun b hb => Function.update_of_ne ?_ _ _
  rintro rfl
  exact ha hb

/-- The last node is replaced. -/
theorem relink [DecidableEq A] (hc : Chain link h p (as ++ [(a, n)]) q) (ha : a ∉ addresses as)
    (n' : N) : Chain link (Function.update h a (some n')) p (as ++ [(a, n')]) (link n') :=
  concat.mpr ⟨(concat.mp hc).1.update ha _, Function.update_self _ _ _, rfl⟩

/-- Two chains that end at no node are the same. -/
theorem unique (ha : Chain link h p as none) (hb : Chain link h p bs none) : as = bs := by
  induction as generalizing p bs with
  | nil =>
    obtain rfl := ha
    cases bs with
    | nil => rfl
    | cons d bs => exact absurd hb.1 (by simp)
  | cons c as ih =>
    obtain ⟨rfl, hc, hrest⟩ := ha
    cases bs with
    | nil => exact absurd hb (by simp [Chain])
    | cons d bs =>
      obtain ⟨hcd, hd, hrest'⟩ := hb
      have hfst : c.1 = d.1 := Option.some.inj hcd
      rw [hfst, hd] at hc
      have hsnd : c.2 = d.2 := (Option.some.inj hc).symm
      obtain rfl : c = d := Prod.ext hfst hsnd
      rw [ih hrest hrest']

/-- A chain that ends at no node passes each address once. -/
theorem nodup (hc : Chain link h p as none) : (addresses as).Nodup := by
  induction as generalizing p with
  | nil => exact List.nodup_nil
  | cons c as ih =>
    obtain ⟨rfl, hnode, hrest⟩ := hc
    refine List.nodup_cons.mpr ⟨fun hmem => ?_, ih hrest⟩
    -- the chain would come back to its first node, and be its own end
    obtain ⟨d, hd, hfst⟩ := List.mem_map.mp hmem
    obtain ⟨xs, ys, rfl⟩ := List.append_of_mem hd
    obtain ⟨r, -, hr, hd', hys⟩ := append.mp hrest
    have hagain : Chain link h (some c.1) (d :: ys) none := ⟨by rw [hfst], hd', hys⟩
    have hwhole : Chain link h (some c.1) (c :: (xs ++ d :: ys)) none := ⟨rfl, hnode, hrest⟩
    have hlen := congrArg List.length (hwhole.unique hagain)
    simp only [List.length_cons, List.length_append] at hlen
    omega

end Chain

end Nodes
