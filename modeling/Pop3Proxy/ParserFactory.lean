/-
# The parser engine

`parser_factory.c` (and its older copy `parser.c` of the MIME filter): a parser
is a table of transitions, each with a condition, a destination and one or two
actions; feeding it an octet takes the first transition whose condition holds
and returns the events its actions build.
-/
import Pop3Proxy.Basic

namespace Pop3Proxy

/-- `struct parser_event`: the type of the event, the octets stored in `data`
and the count `n` of those that belong to the event. -/
structure ParserEvent (T : Type) where
  type : T
  data : List Byte
  n : ℕ
  deriving DecidableEq, Repr

/-- The `when` field of a transition: an octet, a class of octets, or `ANY`. -/
inductive When (K : Type) where
  | byte (c : Byte)
  | cls (k : K)
  | any

/-- `struct parser_state_transition`. -/
structure ParserStateTransition (S K T : Type) where
  cond : When K
  dest : S
  act1 : Byte → ParserEvent T
  act2 : Option (Byte → ParserEvent T) := none

/-- `struct parser_definition`. -/
structure ParserDefinition (S K T : Type) where
  states : S → List (ParserStateTransition S K T)
  startState : S

section
variable {S K T : Type}

/-- Does the condition hold of the octet, given the characterisation of octets? -/
def When.holds (classes : K → Byte → Bool) : When K → Byte → Bool
  | .byte b, c => c = b
  | .cls k, c => classes k c
  | .any, _ => true

/-- `parser_feed`: the first transition that matches gives the new state and
the list of events (`e1`, and `e2` behind `e1.next` when there is a second action). -/
def parserFeed (classes : K → Byte → Bool) (d : ParserDefinition S K T) (s : S) (c : Byte) :
    S × List (ParserEvent T) :=
  match (d.states s).find? fun t => t.cond.holds classes c with
  | some t => (t.dest, t.act1 c :: (t.act2.map (· c)).toList)
  | none => (s, [])

/-- The transitions in turn, as nested conditions. -/
def firstMatch (classes : K → Byte → Bool) (s : S) (c : Byte) :
    List (ParserStateTransition S K T) → S × List (ParserEvent T)
  | [] => (s, [])
  | t :: ts =>
    if t.cond.holds classes c then (t.dest, t.act1 c :: (t.act2.map (· c)).toList)
    else firstMatch classes s c ts

theorem parserFeed_eq_firstMatch (classes : K → Byte → Bool) (d : ParserDefinition S K T) (s : S)
    (c : Byte) : parserFeed classes d s c = firstMatch classes s c (d.states s) := by
  rw [parserFeed]
  induction d.states s with
  | nil => rfl
  | cons t ts ih =>
    rw [List.find?_cons, firstMatch]
    cases t.cond.holds classes c with
    | true => rfl
    | false => exact ih

/-- **What a feed does** is what one of the transitions of the state does, where some transition
takes whatever comes. -/
theorem parserFeed_of_transitions {classes : K → Byte → Bool} {d : ParserDefinition S K T} {s : S}
    {c : Byte} {P : S → List (ParserEvent T) → Prop} (hany : ∃ t ∈ d.states s, t.cond = .any)
    (h : ∀ t ∈ d.states s, t.cond.holds classes c →
      P t.dest (t.act1 c :: (t.act2.map (· c)).toList)) :
    P (parserFeed classes d s c).1 (parserFeed classes d s c).2 := by
  obtain ⟨t, ht, hcond⟩ := hany
  rw [parserFeed]
  cases hfind : (d.states s).find? fun t => t.cond.holds classes c with
  | some t =>
    have hholds : t.cond.holds classes c := by
      simpa using List.find?_some hfind
    exact h t (List.mem_of_find?_eq_some hfind) hholds
  | none =>
    have hnone := List.find?_eq_none.mp hfind t ht
    rw [hcond] at hnone
    exact absurd rfl hnone

/-- The octets one after the other: the state they leave, and the events of each. -/
def parserRun (classes : K → Byte → Bool) (d : ParserDefinition S K T) :
    S → List Byte → S × List (List (ParserEvent T))
  | s, [] => (s, [])
  | s, c :: cs =>
    let r := parserRun classes d (parserFeed classes d s c).1 cs
    (r.1, (parserFeed classes d s c).2 :: r.2)

theorem parserRun_append (classes : K → Byte → Bool) (d : ParserDefinition S K T) (s : S)
    (bs cs : List Byte) :
    parserRun classes d s (bs ++ cs) =
      ((parserRun classes d (parserRun classes d s bs).1 cs).1,
        (parserRun classes d s bs).2 ++
        (parserRun classes d (parserRun classes d s bs).1 cs).2) := by
  induction bs generalizing s with
  | nil => rfl
  | cons b bs ih => simp only [List.cons_append, parserRun, ih]

end

/-- `parser_no_classes`: no octet belongs to any class. -/
def parserNoClasses : Empty → Byte → Bool := fun k => nomatch k

end Pop3Proxy
