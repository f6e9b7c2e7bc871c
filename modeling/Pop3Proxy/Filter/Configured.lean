/-
# What is kept of the configured types

`add_media_type` walks to the last subtype of a type with the very pointer the list of
subtypes starts from, so a type is left with the last two of its subtypes.  The names are
copied to blocks of nine octets, however long they are.
-/
import Mathlib.Data.List.Induction
import Pop3Proxy.Filter.MediaTypes

namespace Pop3Proxy

open Traced

/-- The subtypes given for a type. -/
def given (type : List Byte) (entries : List (List Byte × List Byte)) : List (List Byte) :=
  (entries.filter (·.1 = type)).map Prod.snd

/-- Up to the first wildcard; what follows it is redundant. -/
def upToWildcard : List (List Byte) → List (List Byte)
  | [] => []
  | s :: ss => if s = ascii "*" then [s] else s :: upToWildcard ss

/-- The list has a node for each type and, in it, the subtypes given for the type. -/
structure ListsEntries (entries : List (List Byte × List Byte)) (ts : List TypeList) : Prop where
  nodup : (ts.map TypeList.type).Nodup
  types : ∀ type, type ∈ ts.map TypeList.type ↔ type ∈ entries.map Prod.fst
  subtypes : ∀ t ∈ ts, ((upToWildcard (given t.type entries)).map Subtype.ofName).Sublist t.subtypes

/-- From an empty list, the entries are listed without an octet out of place. -/
structure KeepsEntries (entries : List (List Byte × List Byte)) : Prop where
  inside : (addMediaTypes true entries).All BlockWrite.Inside
  listed : ∃ ts, (addMediaTypes true entries).result = .ok ts ∧ ListsEntries entries ts

/-- Every type and, up to the wildcard, every subtype has room in its block. -/
def NamesFit (entries : List (List Byte × List Byte)) : Prop :=
  ∀ type ∈ entries.map Prod.fst, type.length ≤ 8 ∧
    ∀ s ∈ upToWildcard (given type entries), s.length ≤ 8

instance (entries : List (List Byte × List Byte)) : Decidable (NamesFit entries) :=
  inferInstanceAs (Decidable (∀ type ∈ _, _))

/-! ## The nodes of the types -/

/-- `TypeList.add`, as far as the subtypes are concerned. -/
def addSubtype (ss : List Subtype) (subtype : List Byte) : List Subtype :=
  match ss.getLast? with
  | none => ss
  | some .wildcard => [.wildcard]
  | some last => [last, Subtype.ofName subtype]

/-- What is left of the subtypes given for a type. -/
def subtypesOf : List (List Byte) → List Subtype
  | [] => []
  | s :: ss => ss.foldl addSubtype [Subtype.ofName s]

section
variable {type subtype : List Byte} {ts : List TypeList} {entries : List (List Byte × List Byte)}

/-- A type keeps its name when a subtype is added. -/
theorem add_eq (t : TypeList) (subtype : List Byte) :
    t.add subtype = { t with subtypes := addSubtype t.subtypes subtype } := by
  rw [TypeList.add, addSubtype]
  cases t.subtypes.getLast? with
  | none => rfl
  | some last => cases last <;> rfl

/-- The last subtype is added to those before it. -/
theorem subtypesOf_concat {ss : List (List Byte)} (h : ss ≠ []) (s : List Byte) :
    subtypesOf (ss ++ [s]) = addSubtype (subtypesOf ss) s := by
  cases ss with
  | nil => exact absurd rfl h
  | cons s' ss => rw [List.cons_append, subtypesOf, List.foldl_append]; rfl

/-- The types of the list: a new one comes last. -/
theorem insertType_types (type subtype : List Byte) (ts : List TypeList) :
    (insertType type subtype ts).map TypeList.type =
      if type ∈ ts.map TypeList.type then ts.map TypeList.type
      else ts.map TypeList.type ++ [type] := by
  induction ts with
  | nil => rfl
  | cons t ts ih =>
    rw [insertType]
    by_cases ht : t.type = type
    · rw [if_pos ht, List.map_cons, List.map_cons, if_pos (by simp [ht]), add_eq]
    · rw [if_neg ht, List.map_cons, ih, List.map_cons]
      by_cases hts : type ∈ ts.map TypeList.type
      · rw [if_pos hts, if_pos (List.mem_cons_of_mem _ hts)]
      · rw [if_neg hts, if_neg, List.cons_append]
        rintro hmem
        rcases List.mem_cons.mp hmem with heq | hmem
        · exact ht heq.symm
        · exact hts hmem

/-- The nodes of the list: the others stay, and that of the type is new or gets one more. -/
theorem mem_insertType (hnodup : (ts.map TypeList.type).Nodup) {t : TypeList}
    (h : t ∈ insertType type subtype ts) :
    t ∈ ts ∧ t.type ≠ type ∨
      (∃ t₀ ∈ ts, t₀.type = type ∧ t = t₀.add subtype) ∨
      t = ⟨type, 0, [Subtype.ofName subtype]⟩ ∧ type ∉ ts.map TypeList.type := by
  induction ts with
  | nil => exact Or.inr (Or.inr ⟨List.mem_singleton.mp h, by simp⟩)
  | cons t' ts ih =>
    rw [List.map_cons, List.nodup_cons] at hnodup
    rw [insertType] at h
    by_cases ht' : t'.type = type
    · rw [if_pos ht'] at h
      rcases List.mem_cons.mp h with rfl | hmem
      · exact Or.inr (Or.inl ⟨t', List.mem_cons_self, ht', rfl⟩)
      · refine Or.inl ⟨List.mem_cons_of_mem _ hmem, fun heq => hnodup.1 ?_⟩
        rw [ht', ← heq]
        exact List.mem_map_of_mem hmem
    · rw [if_neg ht'] at h
      rcases List.mem_cons.mp h with rfl | hmem
      · exact Or.inl ⟨List.mem_cons_self, ht'⟩
      · rcases ih hnodup.2 hmem with ⟨hts, hne⟩ | ⟨t₀, hts, htype, heq⟩ | ⟨heq, hnew⟩
        · exact Or.inl ⟨List.mem_cons_of_mem _ hts, hne⟩
        · exact Or.inr (Or.inl ⟨t₀, List.mem_cons_of_mem _ hts, htype, heq⟩)
        · refine Or.inr (Or.inr ⟨heq, fun hold => ?_⟩)
          rcases List.mem_cons.mp hold with heq | hold
          · exact ht' heq.symm
          · exact hnew hold

/-- The last entry gives its subtype to its own type only. -/
theorem given_concat (type : List Byte) (entries : List (List Byte × List Byte))
    (e : List Byte × List Byte) :
    given type (entries ++ [e]) = given type entries ++ if e.1 = type then [e.2] else [] := by
  rw [given, List.filter_append, List.map_append]
  by_cases he : e.1 = type
  · rw [if_pos he, List.filter_cons_of_pos (by simpa using he)]
    rfl
  · rw [if_neg he, List.filter_cons_of_neg (by simpa using he)]
    rfl

/-- A type has been given a subtype exactly when it is among the entries. -/
theorem given_eq_nil {type : List Byte} : given type entries = [] ↔
    type ∉ entries.map Prod.fst := by
  simp only [given, List.map_eq_nil_iff, List.filter_eq_nil_iff, decide_eq_true_eq, List.mem_map,
    not_exists, not_and]

/-- **The nodes of the list**: one for each type. -/
theorem mediaTypesOf_types (entries : List (List Byte × List Byte)) :
    ((mediaTypesOf entries).map TypeList.type).Nodup ∧
      ∀ type, type ∈ (mediaTypesOf entries).map TypeList.type ↔ type ∈ entries.map Prod.fst := by
  induction entries using List.reverseRecOn with
  | nil => exact ⟨List.nodup_nil, fun type => Iff.rfl⟩
  | append_singleton entries e ih =>
    obtain ⟨hnodup, hmem⟩ := ih
    rw [mediaTypesOf_concat, insertType_types]
    by_cases hold : e.1 ∈ (mediaTypesOf entries).map TypeList.type
    · rw [if_pos hold]
      refine ⟨hnodup, fun type => ?_⟩
      rw [hmem, List.map_append, List.mem_append]
      constructor
      · exact Or.inl
      · rintro (h | h)
        · exact h
        · rw [List.mem_singleton.mp h]
          exact (hmem _).mp hold
    · rw [if_neg hold]
      constructor
      · refine List.nodup_append.mpr ⟨hnodup, List.pairwise_singleton _ _, ?_⟩
        rintro x hx y hy rfl
        rw [List.mem_singleton.mp hy] at hx
        exact hold hx
      · intro type
        rw [List.mem_append, hmem, List.map_append, List.mem_append]
        rfl

/-- **What a node has**: what the subtypes given for its type come to. -/
theorem mediaTypesOf_subtypes (entries : List (List Byte × List Byte)) {t : TypeList}
    (h : t ∈ mediaTypesOf entries) : t.subtypes = subtypesOf (given t.type entries) := by
  induction entries using List.reverseRecOn generalizing t with
  | nil => cases h
  | append_singleton entries e ih =>
    rw [mediaTypesOf_concat] at h
    obtain ⟨hnodup, hmem⟩ := mediaTypesOf_types entries
    rw [given_concat]
    rcases mem_insertType hnodup h with ⟨hold, hne⟩ | ⟨t₀, hold, htype, rfl⟩ | ⟨rfl, hnew⟩
    · rw [if_neg (Ne.symm hne), List.append_nil, ih hold]
    · have hgiven : given t₀.type entries ≠ [] := by
        rw [Ne, given_eq_nil, not_not, ← hmem]
        exact List.mem_map_of_mem hold
      rw [add_eq]
      show addSubtype t₀.subtypes e.2 = subtypesOf (given t₀.type entries ++ _)
      rw [if_pos htype.symm, subtypesOf_concat hgiven, ih hold]
    · have hgiven : given e.1 entries = [] := by
        rw [given_eq_nil, ← hmem]
        exact hnew
      rw [if_pos rfl, hgiven]
      rfl

/-! ## What is left of the subtypes -/

/-- The name `*` is the wildcard. -/
theorem ofName_wildcard : Subtype.ofName (ascii "*") = .wildcard := if_pos rfl

/-- What is added behind a wildcard leaves the wildcard. -/
theorem foldl_wildcard (ss : List (List Byte)) : ss.foldl addSubtype [.wildcard] = [.wildcard] := by
  induction ss with
  | nil => rfl
  | cons s ss ih => exact ih

/-- Two subtypes are left at most. -/
theorem length_foldl_le (ss : List (List Byte)) {l : List Subtype} (h : l.length ≤ 2) :
    (ss.foldl addSubtype l).length ≤ 2 := by
  induction ss generalizing l with
  | nil => exact h
  | cons s ss ih =>
    rw [List.foldl_cons]
    apply ih
    rw [addSubtype]
    cases l.getLast? with
    | none => exact h
    | some last => cases last <;> exact Nat.le_of_ble_eq_true rfl

/-- Two subtypes, the first of which is named. -/
theorem subtypesOf_named {s s' : List Byte} (hs : s ≠ ascii "*") (ss : List (List Byte)) :
    subtypesOf (s :: s' :: ss) = ss.foldl addSubtype [Subtype.ofName s, Subtype.ofName s'] := by
  have hnamed : Subtype.ofName s = .named s 0 := if_neg hs
  show ss.foldl addSubtype (addSubtype [Subtype.ofName s] s') = _
  rw [hnamed]
  rfl

/-- **What is kept**: everything of one or two subtypes, and of more only a wildcard that
comes first. -/
theorem kept_iff (ss : List (List Byte)) :
    ((upToWildcard ss).map Subtype.ofName).Sublist (subtypesOf ss) ↔
      (3 ≤ ss.length → ss.head? = some (ascii "*")) := by
  cases ss with
  | nil => simp [upToWildcard, subtypesOf]
  | cons s ss =>
    by_cases hs : s = ascii "*"
    · rw [upToWildcard, if_pos hs, hs, subtypesOf, ofName_wildcard, foldl_wildcard]
      exact iff_of_true (List.Sublist.refl _) fun _ => rfl
    · rw [upToWildcard, if_neg hs]
      cases ss with
      | nil => exact iff_of_true (List.Sublist.refl _) nofun
      | cons s' ss =>
        have hhead : (s :: s' :: ss).head? ≠ some (ascii "*") := fun h => hs (Option.some.inj h)
        rw [subtypesOf_named hs]
        cases ss with
        | nil =>
          refine iff_of_true ?_ fun hlen => absurd hlen (by simp)
          rw [upToWildcard]
          split_ifs <;> exact List.Sublist.refl _
        | cons s'' ss =>
          refine iff_of_false (fun hsub => ?_) fun h => hhead (h (by simp))
          by_cases hs' : s' = ascii "*"
          -- the wildcard is all that is left
          · rw [upToWildcard, if_pos hs', hs', ofName_wildcard] at hsub
            have hleft : (s'' :: ss).foldl addSubtype [Subtype.ofName s, .wildcard] = [.wildcard] :=
              foldl_wildcard ss
            rw [hleft] at hsub
            have hlen := hsub.length_le
            simp at hlen
          -- three are too many
          · rw [upToWildcard, if_neg hs', upToWildcard] at hsub
            have hleft := length_foldl_le (s'' :: ss)
              (l := [Subtype.ofName s, Subtype.ofName s']) (Nat.le_refl 2)
            have hlen := hsub.length_le
            split_ifs at hlen <;> simp only [List.map_cons, List.length_cons] at hlen <;> omega

/-! ## The blocks of the names -/

/-- A name and its NUL have nine octets to go to. -/
theorem strcpyName_all (name : List Byte) :
    (strcpyName name).All BlockWrite.Inside ↔ name.length ≤ 8 := by
  rw [strcpyName, all_notes, List.forall_mem_map]
  simp only [List.mem_range, BlockWrite.Inside, nameSize]
  constructor
  · intro h
    have hlast := h name.length (by omega)
    omega
  · intro h i hi
    omega

/-- So do those of a subtype. -/
theorem addMediaSubtype_all (subtype : List Byte) :
    (addMediaSubtype subtype).All BlockWrite.Inside ↔ subtype.length ≤ 8 := by
  rw [addMediaSubtype]
  by_cases hs : subtype = ascii "*"
  · rw [if_neg (not_not.mpr hs), hs]
    exact iff_of_true all_pure (by decide)
  · rw [if_pos hs, all_bind, strcpyName_all]
    exact and_iff_left fun _ _ => all_pure

/-- A new type has a block for each of its two names. -/
theorem newType_all (type subtype : List Byte) : (newType type subtype).All BlockWrite.Inside ↔
    type.length ≤ 8 ∧ subtype.length ≤ 8 := by
  rw [newType, all_bind, strcpyName_all, ← addMediaSubtype_all subtype]
  refine and_congr_right fun _ => ?_
  simp only [all_bind]
  constructor
  · exact fun h => (h () rfl).1
  · exact fun h _ _ => ⟨h, fun _ _ => all_pure⟩

/-- A subtype for a type that has some: nothing is copied behind a wildcard. -/
theorem extend_all {t : TypeList} {last : Subtype} (h : t.subtypes.getLast? = some last) :
    (t.extend subtype).All BlockWrite.Inside ↔ last = .wildcard ∨ subtype.length ≤ 8 := by
  rw [TypeList.extend, h]
  cases last with
  | wildcard => exact iff_of_true all_pure (.inl rfl)
  | named s p =>
    rw [or_iff_right (by simp), ← addMediaSubtype_all subtype]
    simp only [all_bind]
    exact and_iff_left fun _ _ => all_pure

/-- What is copied for an entry. -/
theorem searchType_all (hsubtypes : ∀ t ∈ ts, t.subtypes ≠ []) :
    (searchType type subtype ts).All BlockWrite.Inside ↔ subtype.length ≤ 8 ∧
        (type ∉ ts.map TypeList.type → type.length ≤ 8) ∨
      ∃ t, ts.find? (·.type = type) = some t ∧ t.subtypes.getLast? = some .wildcard := by
  induction ts with
  | nil =>
    simp only [searchType, all_bind, newType_all]
    simp [And.comm]
  | cons t ts ih =>
    rw [searchType]
    by_cases ht : t.type = type
    · obtain ⟨last, hlast⟩ : ∃ last, t.subtypes.getLast? = some last :=
        ⟨_, List.getLast?_eq_some_getLast (hsubtypes t List.mem_cons_self)⟩
      have hfind : (t :: ts).find? (·.type = type) = some t :=
        List.find?_cons_of_pos (by simpa using ht)
      have hmem : type ∈ (t :: ts).map TypeList.type := by simp [ht]
      rw [if_pos ht, all_bind, extend_all hlast, and_iff_left fun _ _ => all_pure, hfind, or_comm]
      refine or_congr ?_ ?_
      · exact (and_iff_left fun hnot => absurd hmem hnot).symm
      · simp [hlast]
    · have hfind : (t :: ts).find? (·.type = type) = ts.find? (·.type = type) :=
        List.find?_cons_of_neg (by simpa using ht)
      have hmem : type ∈ (t :: ts).map TypeList.type ↔ type ∈ ts.map TypeList.type := by
        rw [List.map_cons, List.mem_cons]
        exact or_iff_right (Ne.symm ht)
      rw [if_neg ht, all_bind, and_iff_left fun _ _ => all_pure, hfind, hmem,
        ih fun t' ht' => hsubtypes t' (List.mem_cons_of_mem t ht')]

/-! ## The names that are copied -/

/-- Behind a wildcard nothing is kept. -/
theorem upToWildcard_concat (ss : List (List Byte)) (s : List Byte) :
    upToWildcard (ss ++ [s]) =
      if ascii "*" ∈ ss then upToWildcard ss else upToWildcard ss ++ [s] := by
  induction ss with
  | nil =>
    rw [List.nil_append, upToWildcard]
    simp [upToWildcard]
  | cons s' ss ih =>
    rw [List.cons_append, upToWildcard, upToWildcard, ih]
    by_cases hs' : s' = ascii "*"
    · simp [hs']
    · have hmem : ascii "*" ∈ s' :: ss ↔ ascii "*" ∈ ss := by
        rw [List.mem_cons]
        exact or_iff_right (Ne.symm hs')
      simp only [if_neg hs', hmem]
      split_ifs <;> rfl

/-- Only the name `*` is the wildcard. -/
theorem ofName_eq_wildcard {s : List Byte} : Subtype.ofName s = .wildcard ↔ s = ascii "*" := by
  rw [Subtype.ofName]
  split_ifs with h
  · exact iff_of_true rfl h
  · exact iff_of_false (by simp) h

/-- Some subtype is left. -/
theorem subtypesOf_ne_nil {ss : List (List Byte)} (h : ss ≠ []) : subtypesOf ss ≠ [] := by
  induction ss using List.reverseRecOn with
  | nil => exact absurd rfl h
  | append_singleton ss s ih =>
    by_cases hss : ss = []
    · subst hss
      exact List.cons_ne_nil _ _
    · obtain ⟨last, hlast⟩ : ∃ last, (subtypesOf ss).getLast? = some last :=
        ⟨_, List.getLast?_eq_some_getLast (ih hss)⟩
      rw [subtypesOf_concat hss, addSubtype, hlast]
      cases last <;> exact List.cons_ne_nil _ _

/-- The last of what is left is the wildcard as soon as there was one. -/
theorem getLast?_subtypesOf {ss : List (List Byte)} (h : ss ≠ []) :
    (subtypesOf ss).getLast? = some .wildcard ↔ ascii "*" ∈ ss := by
  induction ss using List.reverseRecOn with
  | nil => exact absurd rfl h
  | append_singleton ss s ih =>
    by_cases hss : ss = []
    · subst hss
      rw [List.nil_append, List.mem_singleton, eq_comm (a := ascii "*"), ← ofName_eq_wildcard]
      exact Option.some_inj
    · obtain ⟨last, hlast⟩ : ∃ last, (subtypesOf ss).getLast? = some last := by
        have hne : subtypesOf ss ≠ [] := subtypesOf_ne_nil hss
        exact ⟨_, List.getLast?_eq_some_getLast hne⟩
      have ih := ih hss
      rw [subtypesOf_concat hss, addSubtype, List.mem_append, List.mem_singleton,
        eq_comm (a := ascii "*"), ← ofName_eq_wildcard, ← ih, hlast]
      cases last with
      | wildcard => simp
      | named s' p => simp

/-- One entry more. -/
theorem namesFit_concat (entries : List (List Byte × List Byte)) (e : List Byte × List Byte) :
    NamesFit (entries ++ [e]) ↔ NamesFit entries ∧
      (e.2.length ≤ 8 ∧ (e.1 ∉ entries.map Prod.fst → e.1.length ≤ 8) ∨
        ascii "*" ∈ given e.1 entries) := by
  have hother : ∀ type, type ≠ e.1 → given type (entries ++ [e]) = given type entries := by
    intro type hne
    rw [given_concat, if_neg (Ne.symm hne), List.append_nil]
  -- a subtype is copied unless '*' was given before
  have hsame : upToWildcard (given e.1 (entries ++ [e])) =
      if ascii "*" ∈ given e.1 entries then upToWildcard (given e.1 entries)
      else upToWildcard (given e.1 entries) ++ [e.2] := by
    rw [given_concat, if_pos rfl, upToWildcard_concat]
  constructor
  · intro h
    have hlast := h e.1 (by simp)
    rw [hsame] at hlast
    refine ⟨fun type htype => ?_, ?_⟩
    · have hnew := h type (by rw [List.map_append]; exact List.mem_append_left _ htype)
      by_cases hne : type = e.1
      · subst hne
        refine ⟨hnew.1, fun s hs => hlast.2 s ?_⟩
        split_ifs
        · exact hs
        · exact List.mem_append_left _ hs
      · rwa [hother type hne] at hnew
    · by_cases hwild : ascii "*" ∈ given e.1 entries
      · exact .inr hwild
      · rw [if_neg hwild] at hlast
        exact .inl ⟨hlast.2 e.2 (by simp), fun _ => hlast.1⟩
  · rintro ⟨h, hlast⟩ type htype
    rw [List.map_append, List.mem_append] at htype
    by_cases hne : type = e.1
    · subst hne
      rw [hsame]
      by_cases hold : e.1 ∈ entries.map Prod.fst
      · refine ⟨(h e.1 hold).1, fun s hs => ?_⟩
        split_ifs at hs with hwild
        · exact (h e.1 hold).2 s hs
        · rcases List.mem_append.mp hs with hs | hs
          · exact (h e.1 hold).2 s hs
          · rw [List.mem_singleton.mp hs]
            exact (hlast.resolve_right hwild).1
      -- the type is new, so its own name is copied as well
      · have hgiven : given e.1 entries = [] := given_eq_nil.mpr hold
        rw [hgiven] at hlast ⊢
        obtain ⟨hfits, htype⟩ := hlast.resolve_right (List.not_mem_nil)
        refine ⟨htype hold, fun s hs => ?_⟩
        rw [if_neg List.not_mem_nil] at hs
        rw [List.mem_singleton.mp hs]
        exact hfits
    · rw [hother type hne]
      refine h type (htype.resolve_right fun hmem => hne ?_)
      exact List.mem_singleton.mp hmem

/-- **The names stay in their blocks** exactly when each has room. -/
theorem addMediaTypes_all (entries : List (List Byte × List Byte)) :
    (addMediaTypes true entries).All BlockWrite.Inside ↔ NamesFit entries := by
  induction entries using List.reverseRecOn with
  -- the head of the list is cleared, so the entries before this one have built it
  | nil => exact iff_of_true all_pure nofun
  | append_singleton entries e ih =>
    have hresult := addMediaTypes_result entries
    obtain ⟨hnodup, hmem⟩ := mediaTypesOf_types entries
    have hsubtypes : ∀ t ∈ mediaTypesOf entries, given t.type entries ≠ [] ∧ t.subtypes ≠ [] := by
      intro t ht
      have hgiven : given t.type entries ≠ [] := by
        rw [Ne, given_eq_nil, not_not, ← hmem]
        exact List.mem_map_of_mem ht
      refine ⟨hgiven, ?_⟩
      rw [mediaTypesOf_subtypes entries ht]
      exact subtypesOf_ne_nil hgiven
    rw [addMediaTypes_concat, all_bind, ih, namesFit_concat]
    refine and_congr_right fun _ => ?_
    have hone : (∀ ts, (addMediaTypes true entries).result = .ok ts →
        (addMediaType true e.1 e.2 ts).All BlockWrite.Inside) ↔
          (searchType e.1 e.2 (mediaTypesOf entries)).All BlockWrite.Inside := by
      rw [← addMediaType_cleared]
      refine ⟨fun h => h _ hresult, fun h ts hts => ?_⟩
      rw [hresult, Except.ok.injEq] at hts
      rwa [← hts]
    -- the search copies a name unless the last subtype of the type is '*'
    rw [hone, searchType_all fun t ht => (hsubtypes t ht).2, hmem]
    refine or_congr_right ?_
    constructor
    · rintro ⟨t, hfind, hlast⟩
      have ht := List.mem_of_find?_eq_some hfind
      have htype : t.type = e.1 := by simpa using List.find?_some hfind
      rw [mediaTypesOf_subtypes entries ht, getLast?_subtypesOf (hsubtypes t ht).1, htype] at hlast
      exact hlast
    · intro hwild
      have hold : e.1 ∈ (mediaTypesOf entries).map TypeList.type := by
        rw [hmem]
        by_contra hnot
        rw [given_eq_nil.mpr hnot] at hwild
        exact absurd hwild List.not_mem_nil
      obtain ⟨t₀, ht₀, htype₀⟩ := List.mem_map.mp hold
      obtain ⟨t, hfind⟩ : ∃ t, (mediaTypesOf entries).find? (·.type = e.1) = some t := by
        rw [← Option.isSome_iff_exists, List.find?_isSome]
        exact ⟨t₀, ht₀, by simpa using htype₀⟩
      have ht := List.mem_of_find?_eq_some hfind
      have htype : t.type = e.1 := by simpa using List.find?_some hfind
      refine ⟨t, hfind, ?_⟩
      rw [mediaTypesOf_subtypes entries ht, getLast?_subtypesOf (hsubtypes t ht).1, htype]
      exact hwild

end

/-- **The list keeps every entry** exactly when no name is too long for its block, and a type that
is given three subtypes or more is given the wildcard first. -/
theorem configured_types (entries : List (List Byte × List Byte)) :
    KeepsEntries entries ↔ NamesFit entries ∧
      ∀ type, 3 ≤ (given type entries).length → (given type entries).head? = some (ascii "*") := by
  obtain ⟨hnodup, hmem⟩ := mediaTypesOf_types entries
  constructor
  · rintro ⟨hinside, ts, hts, h⟩
    rw [addMediaTypes_result, Except.ok.injEq] at hts
    subst hts
    refine ⟨(addMediaTypes_all entries).mp hinside, fun type hlen => ?_⟩
    have hne : given type entries ≠ [] := by
      rintro hnil
      rw [hnil] at hlen
      exact absurd hlen (by simp)
    rw [Ne, given_eq_nil, not_not, ← hmem] at hne
    obtain ⟨t, ht, rfl⟩ := List.mem_map.mp hne
    have hsub := h.subtypes t ht
    rw [mediaTypesOf_subtypes entries ht] at hsub
    exact (kept_iff _).mp hsub hlen
  · rintro ⟨hfit, h⟩
    refine ⟨(addMediaTypes_all entries).mpr hfit, _, addMediaTypes_result entries, hnodup, hmem,
      fun t ht => ?_⟩
    rw [mediaTypesOf_subtypes entries ht]
    exact (kept_iff _).mpr (h t.type)

/-- The first of three subtypes is lost. -/
theorem configured_png_lost : ¬ ∀ entries, KeepsEntries entries := by
  intro h
  obtain ⟨-, ts, hts, hlisted⟩ := h [(ascii "image", ascii "png"), (ascii "image", ascii "gif"),
    (ascii "image", ascii "jpeg")]
  rw [addMediaTypes_result, Except.ok.injEq] at hts
  subst hts
  have hsub := hlisted.subtypes
    ⟨ascii "image", 0, [Subtype.ofName (ascii "gif"), Subtype.ofName (ascii "jpeg")]⟩ (by decide)
  exact absurd hsub.length_le (by decide)

end Pop3Proxy
