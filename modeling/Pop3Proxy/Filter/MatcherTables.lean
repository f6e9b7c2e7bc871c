/-
# The tables of a matcher

`parser_utils_strcmpi` writes the transitions of all states into one array, three places for
each state, and `parser_feed` reads them back; every access is checked here.  A state is an
`unsigned`, while a length is a `size_t`.
-/
import Pop3Proxy.Filter.Matchers

namespace Pop3Proxy

/-! ## The tables -/

/-- An access to a table that goes wrong. -/
inductive MatcherFault where
  /-- behind the end of an array -/
  | beyond
  /-- a NULL pointer is followed -/
  | nullPointer
  deriving DecidableEq, Repr

/-- `struct parser_state_transition`; a function that is `none` is NULL. -/
structure TransitionCell where
  cond : Int
  dest : UInt32
  act1 : Option (Byte → ParserEvent StringCmp)
  act2 : Option (Byte → ParserEvent StringCmp) := none

/-- A transition of which every octet is 0, as `calloc` gives it. -/
def TransitionCell.cleared : TransitionCell := { cond := 0, dest := 0, act1 := none }

/-- The three arrays of a definition; a pointer into `transitions` is an index. -/
structure MatcherTables where
  states : List (Option ℕ)
  statesN : List ℕ
  transitions : List TransitionCell

/-- `ANY` -/
def anyCond : Int := 512

/-- What an octet of a string is as a `char`. -/
def charOf (c : Byte) : Int := if c ≤ 127 then c.toNat else (c.toNat : Int) - 256

/-- `tolower` of an `int` -/
def tolowerInt (x : Int) : Int := if 65 ≤ x ∧ x ≤ 90 then x + 32 else x

/-- `toupper` of an `int` -/
def toupperInt (x : Int) : Int := if 97 ≤ x ∧ x ≤ 122 then x - 32 else x

/-- A look into an array. -/
def fetch {α : Type} (l : List α) (i : ℕ) : Except MatcherFault α :=
  match l[i]? with
  | some a => .ok a
  | none => .error .beyond

/-- An element of an array is written. -/
def store {α : Type} (l : List α) (i : ℕ) (a : α) : Except MatcherFault (List α) :=
  if i < l.length then .ok (l.set i a) else .error .beyond

namespace MatcherTables

/-- `transitions[i].when`, `.dest` and `.act1` are assigned. -/
def setTransition (t : MatcherTables) (i : ℕ) (cond : Int) (dest : ℕ)
    (act : Byte → ParserEvent StringCmp) : Except MatcherFault MatcherTables := do
  let old ← fetch t.transitions i
  let transitions ← store t.transitions i
    { old with cond := cond, dest := dest.toUInt32, act1 := some act }
  return { t with transitions := transitions }

/-- `states[i]` and `nstates[i]` are assigned. -/
def setState (t : MatcherTables) (i row count : ℕ) : Except MatcherFault MatcherTables := do
  let states ← store t.states i (some row)
  let statesN ← store t.statesN i count
  return { t with states := states, statesN := statesN }

open Strcmpi

/-- The body of the loop, for the octet `c` of the string. -/
def addOctet (n : ℕ) (t : MatcherTables) (i : ℕ) (c : Byte) :
    Except MatcherFault MatcherTables := do
  let dest := if i + 1 = n then n else i + 1
  let act := if i + 1 = n then eq else mayEq
  let t ← t.setTransition (i * 3 + 0) (tolowerInt (charOf c)) dest act
  let t ← t.setTransition (i * 3 + 1) (toupperInt (charOf c)) dest act
  let t ← t.setTransition (i * 3 + 2) anyCond (n + 1) neq
  t.setState i (i * 3 + 0) 3

/-- The loop, from index `i` on. -/
def addOctets (n : ℕ) (t : MatcherTables) (i : ℕ) : List Byte → Except MatcherFault MatcherTables
  | [] => .ok t
  | c :: cs => do
    let t ← t.addOctet n i c
    addOctets n t (i + 1) cs

/-- One of the two sinks. -/
def addSink (n : ℕ) (t : MatcherTables) (i : ℕ) : Except MatcherFault MatcherTables := do
  let t ← t.setTransition (i * 3) anyCond (n + 1) neq
  t.setState i (i * 3 + 0) 1

/-- `parser_utils_strcmpi`, when there is memory. -/
def build (s : List Byte) : Except MatcherFault MatcherTables := do
  let n := s.length
  let t : MatcherTables :=
    { states := List.replicate (n + 2) none
      statesN := List.replicate (n + 2) 0
      transitions := List.replicate (3 * (n + 2)) .cleared }
  let t ← addOctets n t 0 s
  let t ← t.addSink n (n + 0)
  t.addSink n (n + 1)

end MatcherTables

/-! ## Feeding -/

/-- `struct parser`, over these tables. -/
structure MatcherState where
  state : UInt32
  e1 : ParserEvent StringCmp

/-- `parser_init` -/
def MatcherState.init : MatcherState := ⟨0, ⟨.mayEq, [], 0⟩⟩

/-- The condition of a transition; `type` is the class of the octet. -/
def TransitionCell.holds (tr : TransitionCell) (type : ℕ) (c : Byte) : Bool :=
  if tr.cond ≤ 255 then (c.toNat : Int) = tr.cond
  else if tr.cond = anyCond then true
  else type &&& tr.cond.toNat ≠ 0

/-- A transition is taken: the new state, and the events. -/
def TransitionCell.take (tr : TransitionCell) (c : Byte) :
    Except MatcherFault (MatcherState × List (ParserEvent StringCmp)) :=
  match tr.act1 with
  | none => .error .nullPointer
  | some act1 => .ok (⟨tr.dest, act1 c⟩, act1 c :: (tr.act2.map (· c)).toList)

namespace MatcherTables

/-- The loop over the transitions at `row`, from the `i`-th on, for so many. -/
def search (t : MatcherTables) (row : ℕ) (p : MatcherState) (type : ℕ) (c : Byte) (i : ℕ) :
    ℕ → Except MatcherFault (MatcherState × List (ParserEvent StringCmp))
  | 0 => .ok (p, [p.e1])
  | k + 1 => do
    let tr ← fetch t.transitions (row + i)
    if tr.holds type c then tr.take c else search t row p type c (i + 1) k

/-- `parser_feed`.  What `classes` has for an octet is a parameter: the array has 255 entries,
and for the octet 255 it is what lies behind. -/
def feed (t : MatcherTables) (classes : Byte → ℕ) (p : MatcherState) (c : Byte) :
    Except MatcherFault (MatcherState × List (ParserEvent StringCmp)) := do
  let row ← fetch t.states p.state.toNat
  let n ← fetch t.statesN p.state.toNat
  match n, row with
  | 0, _ => .ok (p, [p.e1])
  | _ + 1, none => .error .nullPointer
  | n + 1, some row => t.search row p (classes c) c 0 (n + 1)

/-- One octet after the other: the events of each. -/
def feeds (t : MatcherTables) (classes : Byte → ℕ) :
    MatcherState → List Byte → Except MatcherFault (List (List (ParserEvent StringCmp)))
  | _, [] => .ok []
  | p, c :: cs => do
    let r ← t.feed classes p c
    let events ← t.feeds classes r.1 cs
    return r.2 :: events

end MatcherTables

/-- The octets fed to a parser built from `parser_utils_strcmpi(s)`. -/
def strcmpiEvents (s : List Byte) (classes : Byte → ℕ) (x : List Byte) :
    Except MatcherFault (List (List (ParserEvent StringCmp))) := do
  let t ← MatcherTables.build s
  t.feeds classes .init x

example : (strcmpiEvents (ascii "foo") (fun _ => 0) (ascii "fOoXy")).map
    (·.map (·.map ParserEvent.type)) = .ok [[.mayEq], [.mayEq], [.eq], [.neq], [.neq]] := by
  decide +kernel

/-! ## What is built -/

open Strcmpi

/-- The three places of a state. -/
def matcherRow (s : List Byte) (i : ℕ) : List TransitionCell :=
  match s[i]? with
  | some c =>
    let act := if i + 1 = s.length then eq else mayEq
    [{ cond := tolowerInt (charOf c), dest := (i + 1).toUInt32, act1 := some act },
      { cond := toupperInt (charOf c), dest := (i + 1).toUInt32, act1 := some act },
      { cond := anyCond, dest := (s.length + 1).toUInt32, act1 := some neq }]
  | none => [{ cond := anyCond, dest := (s.length + 1).toUInt32, act1 := some neq }, .cleared,
    .cleared]

/-- How many of them are used. -/
def rowCount (s : List Byte) (i : ℕ) : ℕ := if i < s.length then 3 else 1

/-- The first `i` states are written. -/
structure Built (s : List Byte) (i : ℕ) (t : MatcherTables) : Prop where
  states : t.states = (List.range i).map (fun j => some (j * 3)) ++
    List.replicate (s.length + 2 - i) none
  statesN : t.statesN = (List.range i).map (rowCount s) ++ List.replicate (s.length + 2 - i) 0
  transitions : t.transitions = ((List.range i).map (matcherRow s)).flatten ++
    List.replicate (3 * (s.length + 2 - i)) .cleared

section
variable {s : List Byte} {t : MatcherTables} {i : ℕ}

/-- Every state has three places. -/
theorem length_matcherRow (s : List Byte) (i : ℕ) : (matcherRow s i).length = 3 := by
  unfold matcherRow
  split <;> rfl

/-- The state before an octet of the string: either case of it leads on, and the rest to the last
state. -/
theorem matcherRow_some {c : Byte} (h : s[i]? = some c) : matcherRow s i =
    [{ cond := tolowerInt (charOf c), dest := (i + 1).toUInt32
       act1 := some (if i + 1 = s.length then eq else mayEq) },
      { cond := toupperInt (charOf c), dest := (i + 1).toUInt32
        act1 := some (if i + 1 = s.length then eq else mayEq) },
      { cond := anyCond, dest := (s.length + 1).toUInt32, act1 := some neq }] := by
  rw [matcherRow, h]

/-- Behind the string there is one transition, to the last state. -/
theorem matcherRow_none (h : s.length ≤ i) : matcherRow s i =
    [{ cond := anyCond, dest := (s.length + 1).toUInt32, act1 := some neq }, .cleared,
    .cleared] := by
  rw [matcherRow, List.getElem?_eq_none h]

/-- A store behind the first cells changes the next one. -/
theorem store_append {α : Type} (l l' : List α) (a b : α) :
    store (l ++ a :: l') l.length b = .ok (l ++ b :: l') := by
  unfold store
  rw [if_pos (by simp), List.set_append_right _ _ (Nat.le_refl _), Nat.sub_self, List.set_cons_zero]

/-- So does a fetch find it. -/
theorem fetch_append {α : Type} (l l' : List α) (a : α) :
    fetch (l ++ a :: l') l.length = .ok a := by
  unfold fetch
  rw [List.getElem?_append_right (Nat.le_refl _), Nat.sub_self, List.getElem?_cons_zero]

/-- One transition is written. -/
theorem setTransition_eq (states : List (Option ℕ)) (statesN : List ℕ) (l l' : List TransitionCell)
    (hi : i = l.length) (cond : Int) (dest : ℕ) (act : Byte → ParserEvent StringCmp) :
    MatcherTables.setTransition ⟨states, statesN, l ++ .cleared :: l'⟩ i cond dest act =
      .ok ⟨states, statesN,
      l ++ [{ cond := cond, dest := dest.toUInt32, act1 := some act }] ++ l'⟩ := by
  subst hi
  unfold MatcherTables.setTransition
  rw [fetch_append, ok_bind, store_append, ok_bind, List.append_assoc]
  rfl

/-- One state is written. -/
theorem setState_eq {l l' : List (Option ℕ)} {k k' : List ℕ} (hi : i = l.length)
    (hi' : i = k.length) (ts : List TransitionCell) (row count : ℕ) :
    MatcherTables.setState ⟨l ++ none :: l', k ++ 0 :: k', ts⟩ i row count =
      .ok ⟨l ++ some row :: l', k ++ count :: k', ts⟩ := by
  unfold MatcherTables.setState
  rw [hi, store_append, ok_bind, ← hi, hi', store_append, ok_bind]
  rfl

/-- The rows before a state. -/
theorem length_rows (s : List Byte) (i : ℕ) :
    ((List.range i).map (matcherRow s)).flatten.length = i * 3 := by
  induction i with
  | zero => rfl
  | succ i ih =>
    rw [List.range_succ, List.map_append, List.flatten_append, List.length_append, ih,
      List.map_singleton, List.flatten_singleton, length_matcherRow]
    omega

/-- What is still to be written begins with the places of the state. -/
theorem Built.next (h : Built s i t) (hi : i < s.length + 2) :
    t.states = (List.range i).map (fun j => some (j * 3)) ++
        none :: List.replicate (s.length + 2 - (i + 1)) none ∧
      t.statesN = (List.range i).map (rowCount s) ++
        0 :: List.replicate (s.length + 2 - (i + 1)) 0 ∧
      t.transitions = ((List.range i).map (matcherRow s)).flatten ++
        .cleared :: .cleared :: .cleared :: List.replicate (3 * (s.length + 2 - (i + 1)))
        .cleared := by
  obtain ⟨m, hm⟩ : ∃ m, s.length + 2 - i = m + 1 := ⟨s.length + 2 - (i + 1), by omega⟩
  have hm' : s.length + 2 - (i + 1) = m := by omega
  have hthree : 3 * (m + 1) = 3 * m + 1 + 1 + 1 := by omega
  rw [hm']
  refine ⟨?_, ?_, ?_⟩
  · rw [h.states, hm, List.replicate_succ]
  · rw [h.statesN, hm, List.replicate_succ]
  · rw [h.transitions, hm, hthree, List.replicate_succ, List.replicate_succ, List.replicate_succ]

/-- The places of one more state are written. -/
theorem Built.succ {l : List (Option ℕ)} {k : List ℕ} {ts : List TransitionCell} {row : ℕ}
    {count : ℕ} (hrow : row = i * 3) (hcount : count = rowCount s i)
    (hl : l = (List.range i).map (fun j => some (j * 3)) ++
      some row :: List.replicate (s.length + 2 - (i + 1)) none)
    (hk : k = (List.range i).map (rowCount s) ++
      count :: List.replicate (s.length + 2 - (i + 1)) 0)
    (hts : ts = ((List.range i).map (matcherRow s)).flatten ++
      (matcherRow s i ++ List.replicate (3 * (s.length + 2 - (i + 1))) .cleared)) :
    Built s (i + 1) ⟨l, k, ts⟩ := by
  subst hrow hcount
  refine ⟨?_, ?_, ?_⟩
  · rw [hl, List.range_succ, List.map_append, List.append_assoc]
    rfl
  · rw [hk, List.range_succ, List.map_append, List.append_assoc]
    rfl
  · rw [hts, List.range_succ, List.map_append, List.flatten_append, List.map_singleton,
      List.flatten_singleton, List.append_assoc]

/-- **One octet of the string** fills the places of its state. -/
theorem Built.addOctet {c : Byte} (h : Built s i t) (hc : s[i]? = some c) :
    ∃ t', t.addOctet s.length i c = .ok t' ∧ Built s (i + 1) t' := by
  obtain ⟨hlt, -⟩ := List.getElem?_eq_some_iff.mp hc
  obtain ⟨hstates, hstatesN, htransitions⟩ := h.next (by omega)
  have hlen := length_rows s i
  have hdest : (if i + 1 = s.length then s.length else i + 1) = i + 1 := by
    split_ifs <;> omega
  obtain ⟨states, statesN, transitions⟩ := t
  obtain rfl : states = _ := hstates
  obtain rfl : statesN = _ := hstatesN
  obtain rfl : transitions = _ := htransitions
  unfold MatcherTables.addOctet
  simp only [hdest]
  rw [setTransition_eq _ _ _ _ (by omega), ok_bind, setTransition_eq _ _ _ _ (by simp [hlen]),
    ok_bind,
    setTransition_eq _ _ _ _ (by simp [hlen]), ok_bind, setState_eq (by simp) (by simp)]
  refine ⟨_, rfl, Built.succ rfl ?_ rfl rfl ?_⟩
  · rw [rowCount, if_pos hlt]
  · rw [matcherRow_some hc]
    simp

/-- **A sink** fills the first of its places. -/
theorem Built.addSink (h : Built s i t) (hle : s.length ≤ i) (hi : i < s.length + 2) :
    ∃ t', t.addSink s.length i = .ok t' ∧ Built s (i + 1) t' := by
  obtain ⟨hstates, hstatesN, htransitions⟩ := h.next hi
  have hlen := length_rows s i
  obtain ⟨states, statesN, transitions⟩ := t
  obtain rfl : states = _ := hstates
  obtain rfl : statesN = _ := hstatesN
  obtain rfl : transitions = _ := htransitions
  unfold MatcherTables.addSink
  rw [setTransition_eq _ _ _ _ (by omega), ok_bind, setState_eq (by simp) (by simp)]
  refine ⟨_, rfl, Built.succ rfl ?_ rfl rfl ?_⟩
  · rw [rowCount, if_neg (by omega)]
  · rw [matcherRow_none hle]
    simp

/-- **The loop** fills the states of the octets that are left. -/
theorem Built.addOctets (cs : List Byte) (h : Built s i t) (hcs : s.drop i = cs) :
    ∃ t', t.addOctets s.length i cs = .ok t' ∧ Built s (i + cs.length) t' := by
  induction cs generalizing i t with
  | nil => exact ⟨t, rfl, h⟩
  | cons c cs ih =>
    have hc : s[i]? = some c := by rw [← List.head?_drop, hcs, List.head?_cons]
    obtain ⟨t₁, hadd, h₁⟩ := h.addOctet hc
    have hrest : s.drop (i + 1) = cs := by rw [← List.tail_drop, hcs, List.tail_cons]
    obtain ⟨t₂, hadds, h₂⟩ := ih h₁ hrest
    refine ⟨t₂, ?_, ?_⟩
    · rw [MatcherTables.addOctets, hadd, ok_bind, hadds]
    · rw [List.length_cons]
      rwa [Nat.add_right_comm] at h₂

/-- **The tables** are built, and nothing is written behind their ends. -/
theorem build_built (s : List Byte) : ∃ t, MatcherTables.build s = .ok t ∧
    Built s (s.length + 2) t := by
  have hstart : Built s 0 ⟨List.replicate (s.length + 2) none, List.replicate (s.length + 2) 0,
      List.replicate (3 * (s.length + 2)) .cleared⟩ := ⟨rfl, rfl, rfl⟩
  obtain ⟨t₁, hoctets, h₁⟩ := hstart.addOctets s rfl
  rw [Nat.zero_add] at h₁
  obtain ⟨t₂, heq, h₂⟩ := h₁.addSink (Nat.le_refl _) (by omega)
  obtain ⟨t₃, hneq, h₃⟩ := h₂.addSink (by omega) (by omega)
  refine ⟨t₃, ?_, h₃⟩
  unfold MatcherTables.build
  simp only [hoctets, ok_bind, Nat.add_zero, heq, hneq]

/-! ## What is read -/

/-- The states up to one, that one, and the others. -/
theorem exists_range_split {m : ℕ} (hi : i < m) : ∃ l, List.range m = List.range i ++ i :: l := by
  refine ⟨(List.range m).drop (i + 1), ?_⟩
  have hlt : i < (List.range m).length := by rwa [List.length_range]
  have hdrop := List.drop_eq_getElem_cons hlt
  rw [List.getElem_range] at hdrop
  have htake : (List.range m).take i = List.range i := by
    rw [List.take_range, Nat.min_eq_left (Nat.le_of_lt hi)]
  rw [← hdrop, ← htake, List.take_append_drop]

/-- The tables hold the row of every state. -/
theorem Built.fetched (h : Built s (s.length + 2) t) (hi : i < s.length + 2) :
    fetch t.states i = .ok (some (i * 3)) ∧ fetch t.statesN i = .ok (rowCount s i) ∧
      ∀ j, j < 3 → t.transitions[i * 3 + j]? = (matcherRow s i)[j]? := by
  obtain ⟨l, hl⟩ := exists_range_split hi
  have hlen : (List.range i).length = i := List.length_range
  refine ⟨?_, ?_, ?_⟩
  · rw [h.states, hl, List.map_append, List.map_cons, List.append_assoc, List.cons_append]
    have hstates := fetch_append ((List.range i).map fun j => some (j * 3))
      (l.map (fun j => some (j * 3)) ++ List.replicate (s.length + 2 - (s.length + 2)) none)
      (some (i * 3))
    rwa [List.length_map, hlen] at hstates
  · rw [h.statesN, hl, List.map_append, List.map_cons, List.append_assoc, List.cons_append]
    have hstatesN := fetch_append ((List.range i).map (rowCount s))
      (l.map (rowCount s) ++ List.replicate (s.length + 2 - (s.length + 2)) 0) (rowCount s i)
    rwa [List.length_map, hlen] at hstatesN
  · intro j hj
    have hrows := length_rows s i
    have hrow := length_matcherRow s i
    rw [h.transitions, hl, List.map_append, List.map_cons, List.flatten_append, List.flatten_cons,
      List.append_assoc, List.append_assoc, List.getElem?_append_right (by omega), hrows,
      Nat.add_sub_cancel_left, List.getElem?_append_left (by omega)]

/-- For ASCII the `tolower` of C is the one of octets. -/
theorem tolowerInt_charOf : ∀ x : Byte, x ≤ 127 → tolowerInt (charOf x) = (tolower x).toNat := by
  decide +kernel

/-- So is its `toupper`. -/
theorem toupperInt_charOf : ∀ x : Byte, x ≤ 127 → toupperInt (charOf x) = (toupper x).toNat := by
  decide +kernel

/-- A transition for one octet. -/
theorem holds_octet {dest : UInt32} {act : Byte → ParserEvent StringCmp} (type : ℕ) (x c : Byte) :
    TransitionCell.holds { cond := (x.toNat : Int), dest := dest, act1 := some act } type c =
      decide (c = x) := by
  have hx := x.toNat_lt
  unfold TransitionCell.holds
  rw [if_pos (show (x.toNat : Int) ≤ 255 by omega)]
  simp only [Int.natCast_inj, UInt8.toNat_inj]

/-- A transition for any octet. -/
theorem holds_any {dest : UInt32} {act : Byte → ParserEvent StringCmp} (type : ℕ) (c : Byte) :
    TransitionCell.holds { cond := anyCond, dest := dest, act1 := some act } type c = true := rfl

/-- The event of this type, with the octet. -/
def cmpEvent (ty : StringCmp) (c : Byte) : ParserEvent StringCmp := ⟨ty, [c], 1⟩

/-- The next transition is looked at. -/
theorem search_cons {row : ℕ} {tr : TransitionCell} (h : t.transitions[row + i]? = some tr)
    (p : MatcherState) (type : ℕ) (c : Byte) (k : ℕ) :
    t.search row p type c i (k + 1) =
      if tr.holds type c then tr.take c else t.search row p type c (i + 1) k := by
  rw [MatcherTables.search, fetch, h]
  rfl

/-- **The tables do what the matcher does**, but for what an `unsigned` cannot hold. -/
theorem Built.feed (h : Built s (s.length + 2) t) (hs : IsAscii s) (classes : Byte → ℕ)
    {p : MatcherState} (hp : p.state.toNat = i) (hi : i < s.length + 2) (c : Byte) :
    ∃ ty, (strcmpiFeed s i c).2 = some ty ∧ t.feed classes p c =
      .ok (⟨(strcmpiFeed s i c).1.toUInt32, cmpEvent ty c⟩, [cmpEvent ty c]) := by
  obtain ⟨hstate, hstateN, hrow⟩ := h.fetched hi
  have h0 := hrow 0 (by omega)
  have h1 := hrow 1 (by omega)
  have h2 := hrow 2 (by omega)
  cases hx : s[i]? with
  | none =>
    have hle := List.getElem?_eq_none_iff.mp hx
    rw [matcherRow_none hle] at h0
    rw [strcmpiFeed_none hx]
    refine ⟨.neq, rfl, ?_⟩
    unfold MatcherTables.feed
    rw [hp, hstate, ok_bind, hstateN, ok_bind, rowCount, if_neg (by omega)]
    show t.search (i * 3) p (classes c) c 0 (0 + 1) = _
    rw [search_cons h0, holds_any, if_pos rfl]
    rfl
  | some x =>
    have hlt := (List.getElem?_eq_some_iff.mp hx).1
    have hascii : x ≤ 127 := hs x (List.mem_of_getElem? hx)
    rw [matcherRow_some hx] at h0 h1 h2
    rw [tolowerInt_charOf x hascii] at h0
    rw [toupperInt_charOf x hascii] at h1
    unfold MatcherTables.feed
    rw [hp, hstate, ok_bind, hstateN, ok_bind, rowCount, if_pos hlt, strcmpiFeed_some hx]
    show ∃ ty, _ ∧ t.search (i * 3) p (classes c) c 0 (2 + 1) = _
    rw [search_cons h0, search_cons h1, search_cons h2, holds_octet, holds_octet, holds_any]
    -- the two letters lead to the same place
    have htake : ∀ cond : Int, TransitionCell.take
        { cond := cond, dest := (i + 1).toUInt32
          act1 := some (if i + 1 = s.length then eq else mayEq) } c =
        .ok (⟨(i + 1).toUInt32, cmpEvent (if i + 1 = s.length then .eq else .mayEq) c⟩,
          [cmpEvent (if i + 1 = s.length then .eq else .mayEq) c]) := by
      intro cond
      by_cases hend : i + 1 = s.length
      · simp only [if_pos hend]
        rfl
      · simp only [if_neg hend]
        rfl
    rw [htake, htake]
    by_cases hlow : c = tolower x
    · rw [if_pos (decide_eq_true hlow), if_pos ⟨hascii, Or.inl hlow⟩]
      exact ⟨_, rfl, rfl⟩
    · have hno : ¬ decide (c = tolower x) = true := by simpa using hlow
      rw [if_neg hno]
      by_cases hup : c = toupper x
      · rw [if_pos (decide_eq_true hup), if_pos ⟨hascii, Or.inr hup⟩]
        exact ⟨_, rfl, rfl⟩
      · have hno' : ¬ decide (c = toupper x) = true := by simpa using hup
        rw [if_neg hno', if_neg fun hboth => hboth.2.elim hlow hup]
        exact ⟨.neq, rfl, rfl⟩

/-! ## What is said -/

/-- What should be said with the `k`-th octet of `x`. -/
def comparedTo (s x : List Byte) (k : ℕ) : StringCmp :=
  if k = s.length ∧ SameLetters (x.take k) s then .eq
  else if k < s.length ∧ SameLetters (x.take k) (s.take k) then .mayEq
  else .neq

/-- Each octet has its event, and this says how the octets so far compare with the string. -/
def Compares (s x : List Byte) (events : List (List (ParserEvent StringCmp))) : Prop :=
  events.length = x.length ∧
    ∀ k c, x[k]? = some c → events[k]? = some [cmpEvent (comparedTo s x (k + 1)) c]

/-- What should be said, put in terms of the octets so far. -/
theorem comparedTo_eq {x : List Byte} {k : ℕ} (hk : k ≤ x.length) : comparedTo s x k =
    if SameLetters (x.take k) s then .eq else if BeginsLetters (x.take k) s then .mayEq else
    .neq := by
  have hlen : (x.take k).length = k := by rw [List.length_take]; omega
  have hsame : (k = s.length ∧ SameLetters (x.take k) s) ↔ SameLetters (x.take k) s := by
    refine ⟨fun h => h.2, fun h => ⟨?_, h⟩⟩
    rw [← hlen, sameLetters_length h]
  have hbegins : BeginsLetters (x.take k) s ↔ k ≤ s.length ∧ SameLetters (x.take k) (s.take k) := by
    unfold BeginsLetters SameLetters
    rw [List.prefix_iff_eq_take, List.length_map, hlen, List.map_take (l := s)]
    refine ⟨fun h => ⟨?_, h⟩, fun h => h.2⟩
    have hcount := congrArg List.length h
    rw [List.length_map, hlen, List.length_take, List.length_map] at hcount
    omega
  unfold comparedTo
  simp only [hsame, hbegins]
  by_cases heq : SameLetters (x.take k) s
  · rw [if_pos heq, if_pos heq]
  · rw [if_neg heq, if_neg heq]
    have hne : SameLetters (x.take k) (s.take k) → k ≠ s.length := by
      intro h hk
      rw [hk, List.take_length] at h
      exact heq (hk ▸ h)
    refine if_congr ?_ rfl rfl
    refine and_congr_left fun h => ?_
    have := hne h
    omega

/-- Where the matcher is lies within the tables. -/
theorem strcmpiRun_fst_lt (hs : IsAscii s) (bs : List Byte) :
    (strcmpiRun s bs).1 < s.length + 2 := by
  rw [strcmpiRun_fst (Or.inl hs)]
  split_ifs with hbegins
  · have := hbegins.length_le
    omega
  · omega

/-- **A run over the tables**, as long as every state can be held. -/
theorem Built.feeds (h : Built s (s.length + 2) t) (hs : IsAscii s) (classes : Byte → ℕ)
    (hsize : s.length + 1 < UInt32.size) (x bs : List Byte) {p : MatcherState}
    (hp : p.state.toNat = (strcmpiRun s bs).1) :
    ∃ events, t.feeds classes p x = .ok events ∧ events.length = x.length ∧
      ∀ k c, x[k]? = some c → events[k]? =
        some [cmpEvent (comparedTo s (bs ++ x) (bs.length + k + 1)) c] := by
  induction x generalizing bs p with
  | nil => exact ⟨[], rfl, rfl, fun k c hc => by simp at hc⟩
  | cons c x ih =>
    have hlt := strcmpiRun_fst_lt hs bs
    obtain ⟨ty, hty, hfeed⟩ := h.feed hs classes hp hlt c
    rw [← strcmpiRun_concat] at hty hfeed
    have hnext := strcmpiRun_fst_lt hs (bs ++ [c])
    obtain ⟨events, hfeeds, hlen, hevents⟩ := ih (bs ++ [c])
      (p := ⟨(strcmpiRun s (bs ++ [c])).1.toUInt32, cmpEvent ty c⟩) (by
        show ((strcmpiRun s (bs ++ [c])).1.toUInt32).toNat = _
        rw [Nat.toUInt32, UInt32.toNat_ofNat', Nat.mod_eq_of_lt]
        unfold UInt32.size at hsize
        omega)
    refine ⟨[cmpEvent ty c] :: events, ?_, ?_, ?_⟩
    · rw [MatcherTables.feeds, hfeed, ok_bind, hfeeds]
      rfl
    · rw [List.length_cons, List.length_cons, hlen]
    · intro k d hd
      have htext : bs ++ c :: x = bs ++ [c] ++ x := by simp
      cases k with
      | zero =>
        obtain rfl := Option.some.inj hd
        have hsays := @strcmpiRun_snd s bs c (Or.inl hs)
        rw [hty] at hsays
        have htake : (bs ++ [c] ++ x).take (bs.length + 0 + 1) = bs ++ [c] :=
          List.take_left' (by simp)
        rw [htext, comparedTo_eq (by simp), htake, ← Option.some.inj hsays]
        rfl
      | succ k =>
        have hlater := hevents k d hd
        rw [List.length_append, List.length_singleton] at hlater
        have hindex : bs.length + 1 + k + 1 = bs.length + (k + 1) + 1 := by omega
        rw [htext, List.getElem?_cons_succ, hlater, hindex]

/-- **A string that is too long**: the first mismatch leads into the middle of it, and from
there the matcher goes on. -/
theorem Built.lost (h : Built s (s.length + 2) t) (hs : IsAscii s)
    (hsize : UInt32.size ≤ s.length + 1) : ∃ x events, t.feeds (fun _ => 0) .init x = .ok events ∧
      ¬ Compares s x events := by
  have hmod : (s.length + 1) % 2 ^ 32 < s.length := by
    unfold UInt32.size at hsize
    omega
  obtain ⟨m, hm⟩ : ∃ m, (s.length + 1) % 2 ^ 32 = m := ⟨_, rfl⟩
  rw [hm] at hmod
  have hpos : 0 < s.length := by omega
  obtain ⟨a, ha⟩ : ∃ a, s[0]? = some a := ⟨_, List.getElem?_eq_getElem hpos⟩
  obtain ⟨y, hy⟩ : ∃ y, s[m]? = some y := ⟨_, List.getElem?_eq_getElem hmod⟩
  -- 128 is no octet of the string
  have hbad : ∀ z : Byte, z ≤ 127 → tolower z ≠ tolower 128 := by decide +kernel
  have hne : tolower a ≠ tolower 128 := hbad a (hs a (List.mem_of_getElem? ha))
  have hfirst : strcmpiFeed s 0 128 = (s.length + 1, some .neq) := by
    rw [strcmpiFeed_eq (Or.inl hs), ha, if_neg]
    exact fun heq => hne (Option.some.inj heq)
  have hsecond : strcmpiFeed s m y = (m + 1, some (if m + 1 = s.length then .eq else .mayEq)) := by
    rw [strcmpiFeed_eq (Or.inl hs), hy, Option.map_some, if_pos rfl]
  obtain ⟨ty, hty, hfeed⟩ := h.feed hs (fun _ => 0) (p := .init) (i := 0) rfl (by omega) 128
  have hstate : ((strcmpiFeed s 0 128).1.toUInt32).toNat = m := by
    rw [hfirst, Nat.toUInt32, UInt32.toNat_ofNat', hm]
  obtain ⟨ty', hty', hfeed'⟩ := h.feed hs (fun _ => 0)
    (p := ⟨(strcmpiFeed s 0 128).1.toUInt32, cmpEvent ty 128⟩) hstate (by omega) y
  refine ⟨[128, y], [[cmpEvent ty 128], [cmpEvent ty' y]], ?_, ?_⟩
  · rw [MatcherTables.feeds, hfeed, ok_bind, MatcherTables.feeds, hfeed', ok_bind]
    rfl
  · rintro ⟨-, hevents⟩
    have hsaid := hevents 1 y rfl
    have hneq : ty' = comparedTo s [128, y] 2 :=
      congrArg ParserEvent.type (List.singleton_inj.mp (Option.some.inj hsaid))
    -- neither the string nor its beginning has 128 in front
    have hbegins : ¬ BeginsLetters [128, y] s := by
      rintro ⟨rest, hrest⟩
      have hhead := congrArg (fun l => l[0]?) hrest
      simp only [List.getElem?_map, ha, Option.map_some] at hhead
      exact hne (Option.some.inj hhead).symm
    have htake : [128, y].take 2 = [128, y] := rfl
    rw [comparedTo_eq (by simp), htake, if_neg fun hsame => hbegins (sameLetters_iff.mp hsame).1,
      if_neg hbegins] at hneq
    rw [hsecond, hneq] at hty'
    split_ifs at hty' with hend
    · cases hty'
    · cases hty'

/-- **The comparison**: with every sequence of octets, each event says how the octets so far
compare with the string, and no access leaves the tables, exactly when the number of the
last state is one that an `unsigned` can hold. -/
theorem strcmpi_compares (hs : IsAscii s) :
    (∀ classes x, ∃ events, strcmpiEvents s classes x = .ok events ∧ Compares s x events) ↔
      s.length + 1 < UInt32.size := by
  obtain ⟨t, hbuild, hbuilt⟩ := build_built s
  have hrun : ∀ classes x, strcmpiEvents s classes x = t.feeds classes .init x := by
    intro classes x
    rw [strcmpiEvents, hbuild, ok_bind]
  constructor
  · intro h
    by_contra hsize
    obtain ⟨x, events, hfeeds, hnot⟩ := hbuilt.lost hs (Nat.le_of_not_lt hsize)
    obtain ⟨events', hevents', hcompares⟩ := h (fun _ => 0) x
    rw [hrun, hfeeds] at hevents'
    obtain rfl := Except.ok.inj hevents'
    exact hnot hcompares
  · intro hsize classes x
    obtain ⟨events, hfeeds, hlen, hevents⟩ := hbuilt.feeds hs classes hsize x [] (p := .init) rfl
    refine ⟨events, (hrun classes x).trans hfeeds, hlen, fun k c hc => ?_⟩
    have hevent := hevents k c hc
    rwa [List.nil_append, List.length_nil, Nat.zero_add] at hevent

end

/-- The string of the tests, `foo`. -/
theorem strcmpi_compares_foo :
    (∀ classes x, ∃ events, strcmpiEvents (ascii "foo") classes x = .ok events ∧
      Compares (ascii "foo") x events) ∧ (ascii "foo").length + 1 < UInt32.size :=
  ⟨(strcmpi_compares (by decide +kernel)).mpr (by decide +kernel), by decide +kernel⟩

/-- Behind a mismatch with the letters of a string that is too long the matcher is at its
beginning again. -/
theorem strcmpi_overflow : ¬ ∀ s : List Byte, s ≠ [] → 0 ∉ s → IsAscii s →
    ∀ classes x, ∃ events, strcmpiEvents s classes x = .ok events ∧ Compares s x events := by
  intro h
  -- so many letters that the last state has the number 0
  obtain ⟨s, hlen, hletter⟩ : ∃ s : List Byte, s.length + 1 = UInt32.size ∧ ∀ c ∈ s, c = 97 := by
    refine ⟨List.replicate (UInt32.size - 1) 97, ?_, fun c hc => List.eq_of_mem_replicate hc⟩
    rw [List.length_replicate]
    exact Nat.sub_add_cancel (by decide)
  have hascii : IsAscii s := by
    intro c hc
    rw [hletter c hc]
    decide
  have hnul : 0 ∉ s := fun h0 => absurd (hletter 0 h0) (by decide)
  have hne : s ≠ [] := by
    rintro rfl
    rw [List.length_nil] at hlen
    unfold UInt32.size at hlen
    omega
  obtain ⟨t, hbuild, hbuilt⟩ := build_built s
  obtain ⟨x, events, hfeeds, hnot⟩ := hbuilt.lost hascii (Nat.le_of_eq hlen.symm)
  obtain ⟨events', hevents', hcompares⟩ := h s hne hnul hascii (fun _ => 0) x
  rw [strcmpiEvents, hbuild, ok_bind, hfeeds] at hevents'
  obtain rfl := Except.ok.inj hevents'
  exact hnot hcompares

end Pop3Proxy
