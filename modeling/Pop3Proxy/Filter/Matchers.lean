/-
# Runs of a matcher

What a matcher says after each octet, in terms of the octets that have come: it
waits as long as they are the beginning of its string, says so when they are the whole of
it, and is lost for good behind the first octet that is not in its place.
-/
import Mathlib.Data.List.Induction
import Pop3Proxy.Filter.Strcmpi

namespace Pop3Proxy

/-- The same letters, capital or not. -/
def SameLetters (bs s : List Byte) : Prop := bs.map tolower = s.map tolower

instance (bs s : List Byte) : Decidable (SameLetters bs s) :=
  inferInstanceAs (Decidable (bs.map tolower = s.map tolower))

/-- The octets may become the string. -/
def BeginsLetters (bs s : List Byte) : Prop := bs.map tolower <+: s.map tolower

instance (bs s : List Byte) : Decidable (BeginsLetters bs s) :=
  inferInstanceAs (Decidable (bs.map tolower <+: s.map tolower))

/-- No octet above 127, which C takes for a negative number. -/
def IsAscii (bs : List Byte) : Prop := ∀ c ∈ bs, c ≤ 127

instance (bs : List Byte) : Decidable (IsAscii bs) :=
  inferInstanceAs (Decidable (∀ c ∈ bs, c ≤ 127))

section
variable {s bs : List Byte} {c : Byte}

/-- An octet is one of the two cases of another when both have the same small letter. -/
theorem letter_iff {x : Byte} (h : x ≤ 127 ∨ c ≤ 127) :
    (x ≤ 127 ∧ (c = tolower x ∨ c = toupper x)) ↔ tolower c = tolower x := by
  unfold tolower toupper
  simp only [← UInt8.toNat_inj, apply_ite UInt8.toNat, UInt8.toNat_add, UInt8.toNat_sub,
    UInt8.le_iff_toNat_le, UInt8.reduceToNat] at h ⊢
  have hx := x.toNat_lt
  have hc := c.toNat_lt
  split_ifs <;> omega

/-- One octet, as long as the string or what comes is plain text. -/
theorem strcmpiFeed_eq (h : IsAscii s ∨ c ≤ 127) (p : ℕ) :
    strcmpiFeed s p c =
      if (s[p]?).map tolower = some (tolower c) then
        (p + 1, some (if p + 1 = s.length then .eq else .mayEq))
      else (s.length + 1, some .neq) := by
  cases hx : s[p]? with
  | none =>
    rw [strcmpiFeed_none hx]
    rfl
  | some x =>
    have hletter :=
      letter_iff (c := c) (x := x) (h.imp_left fun hs => hs x (List.mem_of_getElem? hx))
    rw [strcmpiFeed_some hx, Option.map_some]
    by_cases hc : tolower x = tolower c
    · rw [if_pos (hletter.mpr hc.symm), if_pos (congrArg some hc)]
    · rw [if_neg fun hboth => hc (hletter.mp hboth).symm,
        if_neg fun heq => hc (Option.some.inj heq)]

/-- The same letters are equally many. -/
theorem sameLetters_length (h : SameLetters bs s) : bs.length = s.length := by
  have := congrArg List.length h
  simpa using this

/-- A beginning is not longer. -/
theorem BeginsLetters.length_le (h : BeginsLetters bs s) : bs.length ≤ s.length := by
  have := List.IsPrefix.length_le h
  simpa using this

/-- The beginning that is as long as the whole. -/
theorem sameLetters_iff : SameLetters bs s ↔ BeginsLetters bs s ∧ bs.length = s.length := by
  constructor
  · intro h
    refine ⟨⟨[], ?_⟩, sameLetters_length h⟩
    rw [List.append_nil]
    exact h
  · rintro ⟨h, hlen⟩
    exact h.eq_of_length (by simpa using hlen)

/-- No octets begin every string. -/
theorem beginsLetters_nil : BeginsLetters [] s := List.nil_prefix

/-- The next octet is in its place. -/
theorem beginsLetters_concat :
    BeginsLetters (bs ++ [c]) s ↔
      BeginsLetters bs s ∧ (s[bs.length]?).map tolower = some (tolower c) := by
  rw [BeginsLetters, BeginsLetters, List.map_append, List.map_singleton, ← List.getElem?_map]
  generalize s.map tolower = t
  rw [← show (bs.map tolower).length = bs.length from List.length_map tolower]
  generalize bs.map tolower = ds
  constructor
  · rintro ⟨t', rfl⟩
    refine ⟨⟨tolower c :: t', by simp⟩, by simp⟩
  · rintro ⟨⟨t', rfl⟩, hc⟩
    rw [List.getElem?_append_right (Nat.le_refl _), Nat.sub_self] at hc
    cases t' with
    | nil => cases hc
    | cons d t' =>
      obtain rfl := Option.some.inj hc
      exact ⟨t', by simp⟩

/-- The matcher behind these octets, and the type of its last event. -/
def strcmpiRun (s bs : List Byte) : ℕ × Option StringCmp :=
  bs.foldl (fun r c => strcmpiFeed s r.1 c) (0, none)

/-- The last octet is fed to the state the others leave. -/
theorem strcmpiRun_concat (s bs : List Byte) (c : Byte) :
    strcmpiRun s (bs ++ [c]) = strcmpiFeed s (strcmpiRun s bs).1 c := by
  rw [strcmpiRun, List.foldl_append]
  rfl

/-- Where the matcher is. -/
theorem strcmpiRun_fst (h : IsAscii s ∨ IsAscii bs) :
    (strcmpiRun s bs).1 = if BeginsLetters bs s then bs.length else s.length + 1 := by
  induction bs using List.reverseRecOn with
  | nil => rw [if_pos beginsLetters_nil]; rfl
  | append_singleton bs c ih =>
    have h' := ih (h.imp_right fun hbs x hx => hbs x (List.mem_append_left _ hx))
    have hc : IsAscii s ∨ c ≤ 127 := h.imp_right fun hbs => hbs c (by simp)
    rw [strcmpiRun_concat, h', strcmpiFeed_eq hc]
    by_cases hbegins : BeginsLetters bs s
    · rw [if_pos hbegins]
      by_cases hnext : (s[bs.length]?).map tolower = some (tolower c)
      · rw [if_pos hnext, if_pos (beginsLetters_concat.mpr ⟨hbegins, hnext⟩), List.length_append]
        rfl
      · rw [if_neg hnext, if_neg fun hboth => hnext (beginsLetters_concat.mp hboth).2]
    · rw [if_neg hbegins, if_neg fun hboth => hbegins (beginsLetters_concat.mp hboth).1, if_neg]
      rw [List.getElem?_eq_none (by omega)]
      exact nofun

/-- **What the matcher says** with an octet. -/
theorem strcmpiRun_snd (h : IsAscii s ∨ IsAscii (bs ++ [c])) :
    (strcmpiRun s (bs ++ [c])).2 =
      some (if SameLetters (bs ++ [c]) s then .eq
        else if BeginsLetters (bs ++ [c]) s then .mayEq else .neq) := by
  have h' : IsAscii s ∨ IsAscii bs := h.imp_right fun hbs x hx => hbs x (List.mem_append_left _ hx)
  have hc : IsAscii s ∨ c ≤ 127 := h.imp_right fun hbs => hbs c (by simp)
  rw [strcmpiRun_concat, strcmpiRun_fst h', strcmpiFeed_eq hc]
  by_cases hbegins : BeginsLetters (bs ++ [c]) s
  · obtain ⟨hbefore, hnext⟩ := beginsLetters_concat.mp hbegins
    rw [if_pos hbefore, if_pos hnext, if_pos hbegins]
    by_cases hlen : bs.length + 1 = s.length
    · rw [if_pos hlen, if_pos (sameLetters_iff.mpr ⟨hbegins, by simpa using hlen⟩)]
    · rw [if_neg hlen, if_neg]
      intro hsame
      exact hlen (by simpa using sameLetters_length hsame)
  · rw [if_neg hbegins, if_neg fun hsame => hbegins (sameLetters_iff.mp hsame).1, if_neg]
    intro hnext
    split_ifs at hnext with hbefore
    · exact hbegins (beginsLetters_concat.mpr ⟨hbefore, hnext⟩)
    · rw [List.getElem?_eq_none (by omega)] at hnext
      cases hnext

end

end Pop3Proxy
