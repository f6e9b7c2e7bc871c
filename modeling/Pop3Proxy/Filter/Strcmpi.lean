/-
# The matchers of the filter

`parser_utils.c`: a parser that compares what it is fed with a string, without
regard to case.  It says so when the last octet of the string has come, and
every octet after that is one too many.
-/
import Pop3Proxy.ParserFactory

namespace Pop3Proxy

/-- `enum string_cmp_event_types`. -/
inductive StringCmp where
  | mayEq
  | eq
  | neq
  deriving DecidableEq, Repr

namespace Strcmpi

/-- `may_eq`: the octets so far begin the string. -/
def mayEq (c : Byte) : ParserEvent StringCmp := ⟨.mayEq, [c], 1⟩

/-- `eq`: they are the string. -/
def eq (c : Byte) : ParserEvent StringCmp := ⟨.eq, [c], 1⟩

/-- `neq`: they are another one. -/
def neq (c : Byte) : ParserEvent StringCmp := ⟨.neq, [c], 1⟩

end Strcmpi

/-- `tolower` for ASCII. -/
def tolower (c : Byte) : Byte := if 65 ≤ c ∧ c ≤ 90 then c + 32 else c

/-- `toupper` for ASCII. -/
def toupper (c : Byte) : Byte := if 97 ≤ c ∧ c ≤ 122 then c - 32 else c

open Strcmpi in
/-- `parser_utils_strcmpi`: one state for each octet of `s`, and the two sinks. -/
def parserUtilsStrcmpi (s : List Byte) : ParserDefinition ℕ Empty StringCmp where
  states i :=
    match s[i]? with
    | some c =>
      let dest := i + 1
      let act := if i + 1 = s.length then eq else mayEq
      -- a `char` above 127 is negative, and the code of no octet
      (if c ≤ 127 then
        [{ cond := .byte (tolower c), dest := dest, act1 := act },
          { cond := .byte (toupper c), dest := dest, act1 := act }]
      else []) ++ [{ cond := .any, dest := s.length + 1, act1 := neq }]
    | none => [{ cond := .any, dest := s.length + 1, act1 := neq }]
  startState := 0

/-- One octet into the matcher of `s`, and the type of the event it gives. -/
def strcmpiFeed (s : List Byte) (p : ℕ) (c : Byte) : ℕ × Option StringCmp :=
  ((parserFeed parserNoClasses (parserUtilsStrcmpi s) p c).1,
    (parserFeed parserNoClasses (parserUtilsStrcmpi s) p c).2.head?.map (·.type))

/-- Behind the last octet of the string. -/
theorem strcmpiFeed_none {s : List Byte} {p : ℕ} (h : s[p]? = none) (c : Byte) :
    strcmpiFeed s p c = (s.length + 1, some .neq) := by
  simp [strcmpiFeed, parserFeed_eq_firstMatch, parserUtilsStrcmpi, h, firstMatch, When.holds,
    Strcmpi.neq]

/-- Before the octet `x` of the string. -/
theorem strcmpiFeed_some {s : List Byte} {p : ℕ} {x : Byte} (h : s[p]? = some x) (c : Byte) :
    strcmpiFeed s p c =
      if x ≤ 127 ∧ (c = tolower x ∨ c = toupper x) then
        (p + 1, some (if p + 1 = s.length then .eq else .mayEq))
      else (s.length + 1, some .neq) := by
  rw [strcmpiFeed, parserFeed_eq_firstMatch]
  simp only [parserUtilsStrcmpi, h]
  by_cases hx : x ≤ 127
  · by_cases hlow : c = tolower x
    · by_cases hend : p + 1 = s.length <;>
        simp [firstMatch, When.holds, hx, hlow, hend, Strcmpi.eq, Strcmpi.mayEq]
    · by_cases hup : c = toupper x
      · by_cases hend : p + 1 = s.length <;>
          simp [firstMatch, When.holds, hx, hup, hend, Strcmpi.eq, Strcmpi.mayEq]
      · simp [firstMatch, When.holds, hx, hlow, hup, Strcmpi.neq]
  · simp [firstMatch, When.holds, hx, Strcmpi.neq]

/-- The last octet of the string. -/
theorem exists_last_of_eq {s : List Byte} {p : ℕ} {c : Byte}
    (h : (strcmpiFeed s p c).2 = some .eq) :
    ∃ x, s[p]? = some x ∧ p + 1 = s.length ∧ (c = tolower x ∨ c = toupper x) ∧
      (strcmpiFeed s p c).1 = s.length := by
  cases hx : s[p]? with
  | none =>
    rw [strcmpiFeed_none hx] at h
    cases h
  | some x =>
    rw [strcmpiFeed_some hx] at h ⊢
    split_ifs at h ⊢ with hc hlen
    · exact ⟨x, rfl, hlen, hc.2, hlen⟩
    · cases h
    · cases h

end Pop3Proxy
