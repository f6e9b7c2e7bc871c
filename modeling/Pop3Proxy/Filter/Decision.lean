/-
# Deciding on a type

The list of types is compared with a value octet by octet, and the comparison
with the types behind one that is completed misses that octet; the subtypes are
compared until the first of them is completed, which need not be the whole.  What comes
of it is put in terms of the names alone, so that it can be compared with what the list says.
-/
import Pop3Proxy.Filter.BoundaryParameter
import Pop3Proxy.Filter.Matchers

namespace Pop3Proxy

/-! ## What the list says -/

/-- A subtype of the list takes the subtype of a value. -/
def Subtype.takes (subtype : List Byte) : Subtype → Prop
  | .wildcard => True
  | .named s _ => SameLetters subtype s

/-- An entry of the list has this type and takes this subtype. -/
def OnList (ts : List TypeList) (type subtype : List Byte) : Prop :=
  ∃ t ∈ ts, SameLetters type t.type ∧ ∃ s ∈ t.subtypes, s.takes subtype

/-- The list as it is built, or reset: every type has subtypes, and no matcher is
under way. -/
structure FreshTypes (ts : List TypeList) : Prop where
  types : ∀ t ∈ ts, t.typeParser = 0 ∧ t.subtypes ≠ []
  subtypes : ∀ t ∈ ts, ∀ s p, .named s p ∈ t.subtypes → p = 0

/-! ## What the matchers are led to -/

/-- What is passed on by a type of this name: not the octet that completes it. -/
def passedOn (name bs : List Byte) : List Byte :=
  if name ≠ [] ∧ BeginsLetters name bs then bs.eraseIdx (name.length - 1) else bs

/-- The node a type leads to. -/
def nodeFor : List TypeList → List Byte → Option TypeList
  | [], _ => none
  | t :: ts, bs => if SameLetters bs t.type then some t else nodeFor ts (passedOn t.type bs)

/-- A subtype of the list is completed somewhere in the subtype of a value. -/
def Subtype.begins (subtype : List Byte) : Subtype → Prop
  | .wildcard => True
  | .named s _ => s ≠ [] ∧ BeginsLetters s subtype

section
variable {ts : List TypeList} {bs : List Byte} {c : Byte}

/-- The list behind these octets, and the place of the type that the last one completes. -/
def feedAll (ts : List TypeList) (bs : List Byte) : List TypeList × Option ℕ :=
  bs.foldl (fun r c => feedTypes c r.1) (ts, none)

/-- The last octet is fed to the list the others leave. -/
theorem feedAll_concat : feedAll ts (bs ++ [c]) = feedTypes c (feedAll ts bs).1 := by
  rw [feedAll, List.foldl_append]
  rfl

/-- An empty list stays empty and finds nothing. -/
theorem feedAll_nil (bs : List Byte) : feedAll [] bs = ([], none) := by
  induction bs using List.reverseRecOn with
  | nil => rfl
  | append_singleton bs c ih =>
    rw [feedAll_concat, ih]
    rfl

/-- The octets of a type leave the subtypes alone. -/
theorem subtypes_feedAll (ts : List TypeList) (bs : List Byte) :
    (feedAll ts bs).1.map (·.subtypes) = ts.map (·.subtypes) := by
  induction bs using List.reverseRecOn with
  | nil => rfl
  | append_singleton bs c ih => rw [feedAll_concat, subtypes_feedTypes, ih]

/-- An octet more is passed on, unless it completes the name. -/
theorem passedOn_concat (name : List Byte) :
    passedOn name (bs ++ [c]) =
      if SameLetters (bs ++ [c]) name then passedOn name bs else passedOn name bs ++ [c] := by
  by_cases hsame : SameLetters (bs ++ [c]) name
  · have hlen := sameLetters_length hsame
    rw [List.length_append, List.length_singleton] at hlen
    have hne : name ≠ [] := by
      rintro rfl
      simp at hlen
    have hbegins : BeginsLetters name (bs ++ [c]) :=
      (sameLetters_iff.mp (show SameLetters name (bs ++ [c]) from hsame.symm)).1
    have hnot : ¬ BeginsLetters name bs := by
      intro h
      have := h.length_le
      omega
    rw [if_pos hsame, passedOn, if_pos ⟨hne, hbegins⟩, passedOn, if_neg fun h => hnot h.2, ← hlen,
      Nat.add_sub_cancel, List.eraseIdx_append_of_length_le (Nat.le_refl _), Nat.sub_self]
    exact List.append_nil bs
  · rw [if_neg hsame, passedOn, passedOn]
    have hiff : BeginsLetters name (bs ++ [c]) ↔ BeginsLetters name bs := by
      constructor
      · intro h
        have hlen := h.length_le
        rw [List.length_append, List.length_singleton] at hlen
        have hshort : name.length ≤ bs.length := by
          by_contra hlong
          refine hsame (sameLetters_iff.mpr ⟨?_, ?_⟩ : SameLetters name (bs ++ [c])).symm
          · exact h
          · rw [List.length_append, List.length_singleton]
            omega
        rw [BeginsLetters, List.map_append] at h
        exact List.prefix_of_prefix_length_le h (List.prefix_append _ _) (by simpa using hshort)
      · intro h
        rw [BeginsLetters, List.map_append]
        exact List.IsPrefix.trans h (List.prefix_append _ _)
    by_cases hboth : name ≠ [] ∧ BeginsLetters name bs
    · have hlen := hboth.2.length_le
      have hpos := List.length_pos_of_ne_nil hboth.1
      rw [if_pos hboth, if_pos ⟨hboth.1, hiff.mpr hboth.2⟩,
        List.eraseIdx_append_of_lt_length (by omega)]
    · rw [if_neg hboth, if_neg fun h => hboth ⟨h.1, hiff.mp h.2⟩]

/-- What is passed on is ASCII when all of it is. -/
theorem passedOn_ascii {name : List Byte} (h : IsAscii bs) : IsAscii (passedOn name bs) := by
  rw [passedOn]
  split_ifs
  · exact fun c hc => h c (List.mem_of_mem_eraseIdx hc)
  · exact h

/-- Something is left for the types behind one that the octets are not the name of. -/
theorem passedOn_ne_nil {name : List Byte} (hne : bs ≠ []) (h : ¬ SameLetters bs name) :
    passedOn name bs ≠ [] := by
  obtain rfl | ⟨bs, c, rfl⟩ := List.eq_nil_or_concat' bs
  · exact absurd rfl hne
  · rw [passedOn_concat, if_neg h]
    simp

/-- **The first type of the list** gets every octet, and those behind it what it passes on. -/
theorem feedAll_cons {t : TypeList} (ht : t.typeParser = 0) (hbs : IsAscii bs) :
    feedAll (t :: ts) bs =
      ({ t with typeParser := (strcmpiRun t.type bs).1 } :: (feedAll ts (passedOn t.type bs)).1,
        if bs ≠ [] ∧ SameLetters bs t.type then some 0
        else (feedAll ts (passedOn t.type bs)).2.map (· + 1)) := by
  induction bs using List.reverseRecOn with
  | nil =>
    have hpassed : passedOn t.type [] = [] := by
      rw [passedOn]
      split_ifs <;> rfl
    rw [hpassed, if_neg (by simp)]
    show (t :: ts, none) = ({ t with typeParser := 0 } :: ts, none)
    rw [← ht]
  | append_singleton bs c ih =>
    have hbs' : IsAscii bs := fun x hx => hbs x (List.mem_append_left _ hx)
    have hfeed := strcmpiRun_concat t.type bs c
    have hevent := strcmpiRun_snd (s := t.type) (Or.inr hbs)
    rw [feedAll_concat, ih hbs', passedOn_concat, feedTypes]
    simp only [← hfeed, hevent, Option.some.injEq]
    by_cases hsame : SameLetters (bs ++ [c]) t.type
    · rw [if_pos hsame, if_pos hsame, if_pos rfl, if_pos ⟨by simp, hsame⟩]
    · rw [if_neg hsame, if_neg hsame, if_neg (by split_ifs <;> decide), if_neg fun h => hsame h.2,
        feedAll_concat]

/-- **The type that is found** is that of the node the octets lead to. -/
theorem feedAll_nodeFor (hts : FreshTypes ts) (hbs : IsAscii bs) (hne : bs ≠ []) :
    (feedAll ts bs).2.map (fun i => ts[i]?) = (nodeFor ts bs).map some := by
  induction ts generalizing bs with
  | nil => rw [feedAll_nil]; rfl
  | cons t ts ih =>
    have hts' : FreshTypes ts :=
      ⟨fun t' ht' => hts.types t' (List.mem_cons_of_mem t ht'),
        fun t' ht' => hts.subtypes t' (List.mem_cons_of_mem t ht')⟩
    rw [feedAll_cons (hts.types t List.mem_cons_self).1 hbs, nodeFor]
    by_cases hsame : SameLetters bs t.type
    · rw [if_pos ⟨hne, hsame⟩, if_pos hsame]
      rfl
    · rw [if_neg fun h => hsame h.2, if_neg hsame,
        ← ih hts' (passedOn_ascii hbs) (passedOn_ne_nil hne hsame), Option.map_map]
      rfl

/-! ## The subtypes of a node -/

/-- The matchers of these subtypes behind the octets. -/
def subtypesAfter (names : List (List Byte)) (bs : List Byte) : List Subtype :=
  names.map fun s => .named s (strcmpiRun s bs).1

/-- The subtype that the last octet completes. -/
theorem strcmpiRun_completes {s : List Byte} (h : IsAscii (bs ++ [c])) :
    (strcmpiRun s (bs ++ [c])).2 = some .eq ↔ SameLetters (bs ++ [c]) s := by
  rw [strcmpiRun_snd (Or.inr h), Option.some.injEq]
  split_ifs <;> simp [*]

/-- The subtypes behind the first: one of them is completed, or what was found before stays. -/
theorem feedNext_names (names : List (List Byte)) (h : IsAscii (bs ++ [c]))
    (current : Option StringCmp) : ∃ current',
    feedNext c current (subtypesAfter names bs) = .ok (subtypesAfter names (bs ++ [c]), current') ∧
      (current' = some .eq ↔
        current = some .eq ∨ ∃ s ∈ names, SameLetters (bs ++ [c]) s) := by
  induction names generalizing current with
  | nil => exact ⟨current, rfl, by simp⟩
  | cons s names ih =>
    have hfeed := strcmpiRun_concat s bs c
    have hevent := @strcmpiRun_completes bs c s h
    obtain ⟨current', hrest, hcurrent⟩ := ih (if (strcmpiRun s (bs ++ [c])).2 = some .eq then
      (strcmpiRun s (bs ++ [c])).2 else current)
    refine ⟨current', ?_, ?_⟩
    · show feedNext c current (.named s (strcmpiRun s bs).1 :: subtypesAfter names bs) = _
      rw [feedNext, Subtype.feed, ok_bind]
      simp only [← hfeed, hrest, ok_bind]
      rfl
    · rw [hcurrent]
      by_cases hsame : SameLetters (bs ++ [c]) s
      · simp [hevent.mpr hsame, hsame]
      · rw [if_neg fun heq => hsame (hevent.mp heq)]
        simp [hsame]

/-- **An octet for named subtypes**: is one of them completed? -/
theorem feedSubtypes_names {names : List (List Byte)} (hne : names ≠ []) (h : IsAscii (bs ++ [c])) :
    ∃ current, feedSubtypes c (subtypesAfter names bs) =
        .ok (subtypesAfter names (bs ++ [c]), current) ∧
      (current = some .eq ↔ ∃ s ∈ names, SameLetters (bs ++ [c]) s) := by
  cases names with
  | nil => exact absurd rfl hne
  | cons s names =>
    have hfeed := strcmpiRun_concat s bs c
    have hevent := @strcmpiRun_completes bs c s h
    obtain ⟨current, hrest, hcurrent⟩ := feedNext_names names h (strcmpiRun s (bs ++ [c])).2
    refine ⟨current, ?_, ?_⟩
    · show feedSubtypes c (.named s (strcmpiRun s bs).1 :: subtypesAfter names bs) = _
      rw [feedSubtypes, Subtype.feed, ok_bind]
      · simp only [← hfeed, hrest, ok_bind]
        rfl
      · simp
    · rw [hcurrent, hevent]
      simp

/-- Named subtypes, one of which is completed by what comes, or none. -/
theorem subtypeListed_names {names : List (List Byte)} (hne : names ≠ []) {y : List Byte}
    (h : IsAscii (bs ++ y)) :
    ∃ b, subtypeListed (subtypesAfter names bs) y = .ok b ∧
      (b = true ↔ ∃ s ∈ names, ∃ p, p ≠ [] ∧ p <+: y ∧ SameLetters (bs ++ p) s) := by
  induction y generalizing bs with
  | nil =>
    refine ⟨false, rfl, iff_of_false nofun ?_⟩
    rintro ⟨s, -, p, hp, hpre, -⟩
    exact hp (List.prefix_nil.mp hpre)
  | cons c y ih =>
    rw [List.append_cons] at h
    have hc : IsAscii (bs ++ [c]) := fun x hx => h x (List.mem_append_left _ hx)
    obtain ⟨current, hfeed, hcurrent⟩ := feedSubtypes_names hne hc
    rw [subtypeListed, hfeed, ok_bind]
    by_cases heq : current = some .eq
    · rw [if_pos heq]
      obtain ⟨s, hs, hsame⟩ := hcurrent.mp heq
      exact ⟨true, rfl, iff_of_true rfl ⟨s, hs, [c], by simp, by simp, hsame⟩⟩
    · rw [if_neg heq]
      obtain ⟨b, hrest, hb⟩ := ih h
      refine ⟨b, hrest, hb.trans ?_⟩
      constructor
      · rintro ⟨s, hs, p, -, hpre, hsame⟩
        refine ⟨s, hs, c :: p, by simp, List.cons_prefix_cons.mpr ⟨rfl, hpre⟩, ?_⟩
        rw [List.append_cons]
        exact hsame
      · rintro ⟨s, hs, p, hp, hpre, hsame⟩
        cases p with
        | nil => exact absurd rfl hp
        | cons d p =>
          obtain ⟨rfl, hrest'⟩ := List.cons_prefix_cons.mp hpre
          rw [List.append_cons] at hsame
          cases p with
          | nil =>
            rw [List.append_nil] at hsame
            exact absurd (hcurrent.mpr ⟨s, hs, hsame⟩) heq
          | cons d' p => exact ⟨s, hs, d' :: p, by simp, hrest', hsame⟩

/-- A name is completed on the way exactly when the subtype begins with it. -/
theorem exists_prefix_iff {s y : List Byte} :
    (∃ p, p ≠ [] ∧ p <+: y ∧ SameLetters p s) ↔ s ≠ [] ∧ BeginsLetters s y := by
  constructor
  · rintro ⟨p, hp, ⟨q, rfl⟩, hsame⟩
    refine ⟨?_, ?_⟩
    · rintro rfl
      exact hp (List.eq_nil_of_length_eq_zero (sameLetters_length hsame))
    · rw [BeginsLetters, ← show p.map tolower = s.map tolower from hsame, List.map_append]
      exact List.prefix_append _ _
  · rintro ⟨hne, hbegins⟩
    have hlen := hbegins.length_le
    have hpos := List.length_pos_of_ne_nil hne
    refine ⟨y.take s.length, ?_, List.take_prefix _ _, ?_⟩
    · intro hnil
      have := congrArg List.length hnil
      rw [List.length_take, List.length_nil] at this
      omega
    · rw [SameLetters, List.map_take, List.prefix_iff_eq_take.mp hbegins, List.length_map]

/-- Subtypes without a wildcard. -/
theorem exists_names {ss : List Subtype} (hwild : .wildcard ∉ ss)
    (hfresh : ∀ s p, .named s p ∈ ss → p = 0) : ∃ names, ss = subtypesAfter names [] := by
  induction ss with
  | nil => exact ⟨[], rfl⟩
  | cons s ss ih =>
    obtain ⟨names, hnames⟩ := ih (fun h => hwild (List.mem_cons_of_mem s h))
      fun s' p h => hfresh s' p (List.mem_cons_of_mem s h)
    cases s with
    | wildcard => exact absurd List.mem_cons_self hwild
    | named s p =>
      obtain rfl := hfresh s p List.mem_cons_self
      exact ⟨s :: names, by rw [hnames]; rfl⟩

/-- A wildcard behind the first subtype has no matcher to feed. -/
theorem feedNext_wildcard {ss : List Subtype} (h : .wildcard ∈ ss) (current : Option StringCmp) :
    feedNext c current ss = .error .nullPointer := by
  induction ss generalizing current with
  | nil => cases h
  | cons s ss ih =>
    cases s with
    | wildcard => rfl
    | named s p =>
      have hss : .wildcard ∈ ss := by simpa using h
      rw [feedNext, Subtype.feed, ok_bind]
      simp only [ih hss, error_bind]

/-- **The subtypes of a node** crash on a wildcard that is not the first of them, and
otherwise say whether the subtype begins with one of them. -/
theorem subtypeListed_fresh {ss : List Subtype} (hne : ss ≠ [])
    (hfresh : ∀ s p, .named s p ∈ ss → p = 0) {y : List Byte} (hy : y ≠ []) (hascii : IsAscii y) :
    ((∃ b, subtypeListed ss y = .ok b) ↔ (.wildcard ∈ ss → ss.head? = some .wildcard)) ∧
      ∀ b, subtypeListed ss y = .ok b → (b = true ↔ ∃ s ∈ ss, s.begins y) := by
  obtain ⟨c, y, rfl⟩ := List.exists_cons_of_ne_nil hy
  by_cases hwild : .wildcard ∈ ss
  · cases ss with
    | nil => exact absurd rfl hne
    | cons s ss =>
      cases s with
      | wildcard =>
        have hres : subtypeListed (.wildcard :: ss) (c :: y) = .ok true := by
          rw [subtypeListed, feedSubtypes, ok_bind, if_pos rfl]
        refine ⟨iff_of_true ⟨true, hres⟩ fun _ => rfl, fun b hb => ?_⟩
        obtain rfl := Except.ok.inj (hres.symm.trans hb)
        exact iff_of_true rfl ⟨.wildcard, List.mem_cons_self, trivial⟩
      | named s p =>
        have hss : .wildcard ∈ ss := by simpa using hwild
        have hres : subtypeListed (.named s p :: ss) (c :: y) = .error .nullPointer := by
          rw [subtypeListed, feedSubtypes, Subtype.feed, ok_bind]
          · simp only [feedNext_wildcard hss, error_bind]
          · simp
        refine ⟨iff_of_false ?_ fun h => ?_, fun b hb => ?_⟩
        · rintro ⟨b, hb⟩
          exact absurd (hres.symm.trans hb) (by simp)
        · exact absurd (h hwild) (by simp)
        · exact absurd (hres.symm.trans hb) (by simp)
  · obtain ⟨names, rfl⟩ := exists_names hwild hfresh
    have hnames : names ≠ [] := by
      rintro rfl
      exact hne rfl
    obtain ⟨b, hres, hb⟩ := @subtypeListed_names [] names hnames (c :: y) hascii
    refine ⟨iff_of_true ⟨b, hres⟩ fun h => absurd h hwild, fun b' hb' => ?_⟩
    obtain rfl := Except.ok.inj (hres.symm.trans hb')
    rw [hb]
    constructor
    · rintro ⟨s, hs, hp⟩
      exact ⟨.named s 0, List.mem_map_of_mem hs, exists_prefix_iff.mp hp⟩
    · rintro ⟨s', hs', hbegins⟩
      obtain ⟨s, hs, rfl⟩ := List.mem_map.mp hs'
      exact ⟨s, hs, exists_prefix_iff.mpr hbegins⟩

/-! ## The verdict -/

/-- The octets of the type come first, then those of the subtype. -/
theorem typeListed_eq (ts : List TypeList) (found : Option ℕ) (x y : List Byte) :
    typeListed ts found x y =
      let r := x.foldl (fun r c => feedTypes c r.1) (ts, found)
      if r.2.isSome then subtypeListed (subtypesAt r.1 r.2) y else .ok false := by
  induction x generalizing ts found with
  | nil => rfl
  | cons c x ih => rw [typeListed, ih]; rfl

/-- **The verdict on a type and a subtype** is that of the node the type leads to. -/
theorem typeListed_nodeFor (hts : FreshTypes ts) {x y : List Byte} (hx : x ≠ [])
    (hascii : IsAscii x) :
    typeListed ts none x y =
      ((nodeFor ts x).map fun t => subtypeListed t.subtypes y).getD (.ok false) := by
  have hnode := feedAll_nodeFor hts hascii hx
  rw [typeListed_eq]
  show (if (feedAll ts x).2.isSome then subtypeListed
    (subtypesAt (feedAll ts x).1 (feedAll ts x).2) y
    else .ok false) = _
  cases hfound : (feedAll ts x).2 with
  | none =>
    rw [hfound] at hnode
    rw [Option.map_eq_none_iff.mp hnode.symm]
    rfl
  | some i =>
    rw [hfound] at hnode
    obtain ⟨t, ht, hsome⟩ := Option.map_eq_some_iff.mp hnode.symm
    have hat : ts[i]? = some t := hsome.symm
    have hsub := congrArg (·[i]?) (subtypes_feedAll ts x)
    simp only [List.getElem?_map] at hsub
    rw [ht]
    show subtypeListed (((feedAll ts x).1[i]?).map (·.subtypes) |>.getD []) y = _
    rw [hsub, hat]
    rfl

/-- The node is one of the list. -/
theorem nodeFor_mem {t : TypeList} (h : nodeFor ts bs = some t) : t ∈ ts := by
  induction ts generalizing bs with
  | nil => cases h
  | cons t' ts ih =>
    rw [nodeFor] at h
    split_ifs at h
    · obtain rfl := Option.some.inj h
      exact List.mem_cons_self
    · exact List.mem_cons_of_mem t' (ih h)

/-- When no type of the list is there twice and none is a proper beginning of the
octets, these lead to the type they are. -/
theorem nodeFor_iff {t : TypeList} (honce : ts.Pairwise fun t t' => ¬ SameLetters t.type t'.type)
    (h : ∀ t ∈ ts, BeginsLetters t.type bs → SameLetters bs t.type) :
    nodeFor ts bs = some t ↔ t ∈ ts ∧ SameLetters bs t.type := by
  induction ts with
  | nil => simp [nodeFor]
  | cons t' ts ih =>
    obtain ⟨hfirst, honce⟩ := List.pairwise_cons.mp honce
    rw [nodeFor, List.mem_cons]
    by_cases hsame : SameLetters bs t'.type
    · rw [if_pos hsame, Option.some.injEq]
      constructor
      · rintro rfl
        exact ⟨.inl rfl, hsame⟩
      · rintro ⟨rfl | ht, hsame'⟩
        · rfl
        · exact absurd (hsame.symm.trans hsame') (hfirst t ht)
    · have hpassed : passedOn t'.type bs = bs :=
        if_neg fun hbegins => hsame (h t' List.mem_cons_self hbegins.2)
      rw [if_neg hsame, hpassed, ih honce fun t ht => h t (List.mem_cons_of_mem t' ht)]
      constructor
      · exact fun ht => ⟨.inr ht.1, ht.2⟩
      · rintro ⟨rfl | ht, hsame'⟩
        · exact absurd hsame' hsame
        · exact ⟨ht, hsame'⟩

end

/-! ## The octets of a value -/

/-- `MIME_MSG_VALUE` of a `Content-Type`, as far as `content_type_msg` is concerned: it is
called as long as the part is not filtered. -/
def typeOctet (env : FilterEnv) (ctx : Ctx) (c : Byte) : Except FilterFault Ctx :=
  if ctx.mediaFilterApply then .ok ctx else contentTypeMsg env ctx c

/-- `content_type_msg` for the octets of a value. -/
def typeOctets (env : FilterEnv) (ctx : Ctx) (bs : List Byte) : Except FilterFault Ctx :=
  bs.foldlM (typeOctet env) ctx

/-- What the octets come to: a crash, or a part that is filtered or not. -/
structure Verdict (env : FilterEnv) (ctx : Ctx) (bs : List Byte) (r : Except FilterFault Bool) :
    Prop where
  returns : ∀ b, r = .ok b → ∃ ctx', typeOctets env ctx bs = .ok ctx' ∧ ctx'.mediaFilterApply = b
  crashes : ∀ f, r = .error f → ∀ ctx', typeOctets env ctx bs ≠ .ok ctx'

section
variable {env : FilterEnv} {ctx ctx₁ : Ctx} {bs : List Byte} {c : Byte}

/-- `MIME_MSG_VALUE` goes on from there to write the octet, or the type in its place. -/
theorem msgValue_typeOctet (htyped : ctx.msgContentTypeFieldDetected = some true) :
    msgValue env ctx (MimeMsg.value c) = typeOctet env ctx c >>= fun ctx =>
      if ctx.msgContentTransferEncodingFieldDetected = some true ∧ ctx.mediaFilterApply then .ok ctx
      else writeValue ctx c := by
  simp only [msgValue, MimeMsg.value, List.take, List.foldlM_cons, List.foldlM_nil, typeOctet]
  by_cases happly : ctx.mediaFilterApply = true
  · simp only [happly, htyped, not_true_eq_false, and_false, if_false, if_true, ok_bind]
    rfl
  · simp only [happly, htyped, not_false_eq_true, and_self, if_true, if_false, Bool.false_eq_true]
    cases contentTypeMsg env ctx c with
    | error f => rfl
    | ok ctx₁ => rfl

/-- An octet that is read leaves the verdict to the rest. -/
theorem Verdict.cons {r : Except FilterFault Bool} (h₁ : typeOctet env ctx c = .ok ctx₁)
    (h : Verdict env ctx₁ bs r) : Verdict env ctx (c :: bs) r := by
  have hrun : typeOctets env ctx (c :: bs) = typeOctets env ctx₁ bs := by
    rw [typeOctets, List.foldlM_cons, h₁]
    rfl
  exact ⟨by rw [hrun]; exact h.returns, by rw [hrun]; exact h.crashes⟩

/-- An octet that is not read settles it. -/
theorem Verdict.crash {f : FilterFault} (h : ∀ ctx', typeOctet env ctx c ≠ .ok ctx') :
    Verdict env ctx (c :: bs) (.error f) := by
  refine ⟨nofun, fun _ _ ctx' hres => ?_⟩
  rw [typeOctets, List.foldlM_cons] at hres
  obtain ⟨ctx₁, h₁, -⟩ := bind_eq_ok.mp hres
  exact h ctx₁ h₁

/-- A part that is filtered stays so. -/
theorem Verdict.filtered (h : ctx.mediaFilterApply = true) (bs : List Byte) :
    Verdict env ctx bs (.ok true) := by
  refine ⟨?_, nofun⟩
  rintro b ⟨⟩
  refine ⟨ctx, ?_, h⟩
  induction bs with
  | nil => rfl
  | cons c bs ih =>
    rw [typeOctets, List.foldlM_cons, typeOctet, if_pos h]
    exact ih

/-- Behind the subtype nothing is decided. -/
theorem Verdict.past (happly : ctx.mediaFilterApply = false) (hpast : ctx.contentType.past)
    (bs : List Byte) : Verdict env ctx bs (.ok false) := by
  refine ⟨?_, nofun⟩
  rintro b ⟨⟩
  induction bs generalizing ctx with
  | nil => exact ⟨ctx, rfl, happly⟩
  | cons c bs ih =>
    obtain ⟨s, e, hfeed, hs, he, he'⟩ := past_mimeTypeFeed hpast c
    obtain ⟨ctx₁, h₁, happly₁, -, hstate₁, -⟩ :=
      contentTypeEvent_past env { ctx with contentType := s } he he'
    obtain ⟨ctx', hrun, happly'⟩ := ih (happly₁.trans happly) (by rw [hstate₁]; exact hs)
    refine ⟨ctx', ?_, happly'⟩
    rw [typeOctets, List.foldlM_cons, typeOctet, if_neg (by simp [happly]),
      contentTypeMsg_single hfeed, h₁]
    exact hrun

/-- **The subtype**, and what follows it. -/
theorem Verdict.subtype (env : FilterEnv) {ctx : Ctx} (happly : ctx.mediaFilterApply = false)
    (hstate : ctx.contentType = .subtype)
    {y : List Byte} (hy : ∀ c ∈ y, initCharClass .restNameChars c = true) {rest : List Byte}
    (hrest : ∀ d ∈ rest.head?, d = SEMICOLON) :
    Verdict env ctx (y ++ rest)
      (if ctx.mediaTypeFilterDetected then subtypeListed ctx.inForce y else .ok false) := by
  induction y generalizing ctx with
  | nil =>
    have hnone : (if ctx.mediaTypeFilterDetected then subtypeListed ctx.inForce []
        else .ok false) = .ok false := by
      split_ifs <;> rfl
    rw [hnone, List.nil_append]
    cases rest with
    | nil =>
      refine ⟨?_, nofun⟩
      rintro b ⟨⟩
      exact ⟨ctx, rfl, happly⟩
    | cons d rest =>
      obtain rfl := hrest d rfl
      have hfeed : mimeTypeFeed ctx.contentType SEMICOLON =
          (.parameter, [MimeType.parameterStart SEMICOLON]) := by
        rw [hstate, mimeTypeFeed_subtype, if_pos rfl]
      have hstep : typeOctet env ctx SEMICOLON = .ok { ctx with contentType := .parameter } := by
        rw [typeOctet, if_neg (by simp [happly]), contentTypeMsg_single hfeed]
        rfl
      refine Verdict.cons hstep (Verdict.past ?_ ?_ rest)
      · exact happly
      · exact ⟨nofun, nofun, nofun⟩
  | cons c y ih =>
    have hc := hy c List.mem_cons_self
    have hy' : ∀ d ∈ y, initCharClass .restNameChars d = true := fun d hd =>
      hy d (List.mem_cons_of_mem c hd)
    have hstep : typeOctet env ctx c = contentTypeMsg env ctx c := if_neg (by simp [happly])
    rw [contentTypeMsg_subtype hstate hc] at hstep
    obtain ⟨hcrash, hgoes⟩ := contentSubtypeMatch_inForce ctx c
    by_cases hdet : ctx.mediaTypeFilterDetected = true
    · rw [if_pos hdet] at hstep ⊢
      cases hfeed : feedSubtypes c ctx.inForce with
      | error f =>
        rw [subtypeListed, hfeed, error_bind]
        apply Verdict.crash
        intro ctx' hres
        rw [hstep] at hres
        obtain ⟨ctx₁, h₁, -⟩ := bind_eq_ok.mp hres
        exact hcrash f hfeed ctx₁ h₁
      | ok r =>
        obtain ⟨ss, current⟩ := r
        obtain ⟨ts, hts, hyes, hno⟩ := hgoes ss current hfeed
        rw [subtypeListed, hfeed, ok_bind]
        by_cases hcur : current = some .eq
        -- a subtype is completed, whatever is still to come of the value's
        · rw [if_pos hcur]
          obtain ⟨p, d, hrfc⟩ := rfc822Header_eq
            { ctx with mediaTypes := ts, mediaFilterApply := true, replaceContentType := true } c
          rw [hyes hcur, ok_bind, hrfc] at hstep
          exact Verdict.cons hstep (Verdict.filtered rfl _)
        · rw [if_neg hcur]
          obtain ⟨p, d, hrfc⟩ :=
            rfc822Header_eq { ctx with mediaTypes := ts, mediaFilterApply := false } c
          rw [hno hcur, ok_bind, hrfc] at hstep
          have hverdict := @ih { ctx with
            mediaTypes := ts, mediaFilterApply := false, rfc822 := p, rfc822Detected := d }
            rfl hstate hy'
          rw [if_pos hdet] at hverdict
          refine Verdict.cons hstep ?_
          rw [← hts]
          exact hverdict
    -- the type is not on the list, so subtypes are not looked at
    · rw [if_neg hdet] at hstep ⊢
      obtain ⟨p, d, hrfc⟩ := rfc822Header_eq ctx c
      rw [ok_bind, hrfc] at hstep
      have hverdict := @ih { ctx with rfc822 := p, rfc822Detected := d } happly hstate hy'
      rw [if_neg hdet] at hverdict
      exact Verdict.cons hstep hverdict

/-- An octet of the type. -/
theorem typeOctet_type (env : FilterEnv) {ctx : Ctx} (happly : ctx.mediaFilterApply = false)
    (htypes : ctx.mediaTypes ≠ [])
    (hfeed : mimeTypeFeed ctx.contentType c = (.type, [MimeType.type c])) :
    ∃ ctx₁, typeOctet env ctx c = .ok ctx₁ ∧ ctx₁.mediaFilterApply = false ∧
      ctx₁.contentType = .type ∧ ctx₁.mediaTypes = (feedTypes c ctx.mediaTypes).1 ∧
      Found ctx₁ (feedTypes c ctx.mediaTypes).2 := by
  rw [typeOctet, if_neg (by simp [happly]), contentTypeMsg_single hfeed]
  simp only [contentTypeEvent, MimeType.type, List.take, List.foldlM_cons, List.foldlM_nil,
    contentTypeMatch, if_neg htypes]
  rcases feedTypes c ctx.mediaTypes with ⟨ts, _ | i⟩
  · exact ⟨_, rfl, happly, rfl, rfl, ⟨rfl, fun _ hj => by cases hj⟩⟩
  · exact ⟨_, rfl, happly, rfl, rfl, ⟨rfl, fun j hj => hj⟩⟩

/-- **The type, the slash and the subtype**, and what follows them. -/
theorem Verdict.type (env : FilterEnv) {ctx : Ctx} (happly : ctx.mediaFilterApply = false)
    (hstate : ctx.contentType = .type)
    (htypes : ctx.mediaTypes ≠ []) {found : Option ℕ} (hfound : Found ctx found) {x y : List Byte}
    (hx : ∀ c ∈ x, initCharClass .restNameChars c = true)
    (hy : ∀ c ∈ y, initCharClass .restNameChars c = true) {rest : List Byte}
    (hrest : ∀ d ∈ rest.head?, d = SEMICOLON) :
    Verdict env ctx (x ++ SLASH :: (y ++ rest)) (typeListed ctx.mediaTypes found x y) := by
  induction x generalizing ctx found with
  | nil =>
    have hfeed : mimeTypeFeed ctx.contentType SLASH = (.subtype, [MimeType.typeEnd SLASH]) := by
      rw [hstate, mimeTypeFeed_type, if_pos rfl]
    have hstep : typeOctet env ctx SLASH = .ok { ctx with contentType := .subtype } := by
      rw [typeOctet, if_neg (by simp [happly]), contentTypeMsg_single hfeed]
      rfl
    have hsubtype := @Verdict.subtype env { ctx with contentType := .subtype } happly rfl y hy
      rest hrest
    have hverdict : typeListed ctx.mediaTypes found [] y =
        if ctx.mediaTypeFilterDetected then subtypeListed ctx.inForce y else .ok false := by
      rw [typeListed, hfound.detected]
      cases found with
      | none => rfl
      | some i => rw [Ctx.inForce, hfound.subtypes i rfl]
    rw [hverdict]
    exact Verdict.cons hstep hsubtype
  | cons c x ih =>
    have hc := hx c List.mem_cons_self
    have hslash : c ≠ SLASH := by
      rintro rfl
      exact absurd hc (by decide)
    have hfeed : mimeTypeFeed ctx.contentType c = (.type, [MimeType.type c]) := by
      rw [hstate, mimeTypeFeed_type, if_neg hslash, if_pos hc]
    obtain ⟨ctx₁, hstep, happly₁, hstate₁, htypes₁, hfound₁⟩ :=
      typeOctet_type env happly htypes hfeed
    have hrest' := ih happly₁ hstate₁ (by rw [htypes₁]; exact feedTypes_ne_nil htypes c) hfound₁
      fun d hd => hx d (List.mem_cons_of_mem c hd)
    rw [htypes₁] at hrest'
    exact Verdict.cons hstep hrest'

/-- An octet of a restricted name is a letter of ASCII, or a sign of it. -/
theorem restNameChars_ascii : ∀ c, initCharClass .restNameChars c = true → c ≤ 127 := by
  decide +kernel

end

/-! ## The decision -/

/-- A type, the slash, a subtype, and nothing else or parameters. -/
structure MediaTypeValue where
  type : List Byte
  subtype : List Byte
  rest : List Byte
  type_restricted : RestrictedName type
  subtype_restricted : RestrictedName subtype
  rest_parameters : ∀ d ∈ rest.head?, d = SEMICOLON

/-- The value as it is read. -/
def MediaTypeValue.octets (v : MediaTypeValue) : List Byte :=
  v.type ++ SLASH :: (v.subtype ++ v.rest)

/-- The matchers have been reset, and the part is not filtered. -/
structure TypeAwaited (ctx : Ctx) : Prop where
  state : ctx.contentType = .type0
  types : FreshTypes ctx.mediaTypes
  unfiltered : ctx.mediaFilterApply = false

/-- The value is read, and the part filtered exactly when the list says so. -/
def DecidesType (env : FilterEnv) (ctx : Ctx) (v : MediaTypeValue) : Prop :=
  ∃ ctx', typeOctets env ctx v.octets = .ok ctx' ∧
    (ctx'.mediaFilterApply = true ↔ OnList ctx.mediaTypes v.type v.subtype)

/-- No type of the list is there twice, its wildcards come first, and no name of it is a
proper beginning of the value's. -/
structure Unambiguous (ts : List TypeList) (v : MediaTypeValue) : Prop where
  nonempty : ts ≠ []
  once : ts.Pairwise fun t t' => ¬ SameLetters t.type t'.type
  wildcards : ∀ t ∈ ts, .wildcard ∈ t.subtypes → t.subtypes.head? = some .wildcard
  types : ∀ t ∈ ts, BeginsLetters t.type v.type → SameLetters v.type t.type
  subtypes : ∀ t ∈ ts, ∀ s p, .named s p ∈ t.subtypes →
    BeginsLetters s v.subtype → SameLetters v.subtype s

/-- The type leads to a node whose subtypes can be compared, and these say what the list says. -/
structure LedRight (ts : List TypeList) (v : MediaTypeValue) : Prop where
  nonempty : ts ≠ []
  wildcardFirst : ∀ t, nodeFor ts v.type = some t →
    .wildcard ∈ t.subtypes → t.subtypes.head? = some .wildcard
  wanted : ∀ t, nodeFor ts v.type = some t →
    ∀ s ∈ t.subtypes, s.begins v.subtype → OnList ts v.type v.subtype
  found : OnList ts v.type v.subtype →
    ∃ t, nodeFor ts v.type = some t ∧ ∃ s ∈ t.subtypes, s.begins v.subtype

section
variable {env : FilterEnv} {ctx : Ctx} {v : MediaTypeValue}

/-- **A list without such names** leads the value right. -/
theorem Unambiguous.ledRight {ts : List TypeList} (h : Unambiguous ts v) : LedRight ts v where
  nonempty := h.nonempty
  wildcardFirst t ht := h.wildcards t (nodeFor_mem ht)
  wanted t ht s hs hbegins := by
    obtain ⟨hmem, hsame⟩ := (nodeFor_iff h.once h.types).mp ht
    refine ⟨t, hmem, hsame, s, hs, ?_⟩
    cases s with
    | wildcard => trivial
    | named s p => exact h.subtypes t hmem s p hs hbegins.2
  found := by
    rintro ⟨t, ht, hsame, s, hs, htakes⟩
    refine ⟨t, (nodeFor_iff h.once h.types).mpr ⟨ht, hsame⟩, s, hs, ?_⟩
    cases s with
    | wildcard => trivial
    | named s p =>
      have hlen := sameLetters_length htakes
      refine ⟨?_, (sameLetters_iff.mp htakes.symm).1⟩
      rintro rfl
      exact v.subtype_restricted.ne (List.eq_nil_of_length_eq_zero hlen)

/-- What becomes of the value. -/
theorem TypeAwaited.verdict (env : FilterEnv) (h : TypeAwaited ctx) (v : MediaTypeValue) :
    Verdict env ctx v.octets (if ctx.mediaTypes = [] then .error .uninitialised
      else typeListed ctx.mediaTypes none v.type v.subtype) := by
  obtain ⟨c, x, hx⟩ := List.exists_cons_of_ne_nil v.type_restricted.ne
  have hfirst : initCharClass .restNameFirst c = true :=
    v.type_restricted.first c (by rw [hx]; rfl)
  have hchars : ∀ d ∈ x, initCharClass .restNameChars d = true := fun d hd =>
    v.type_restricted.chars d (by rw [hx]; exact List.mem_cons_of_mem c hd)
  have hfeed : mimeTypeFeed ctx.contentType c = (.type, [MimeType.type c]) := by
    rw [h.state, mimeTypeFeed_type0, if_pos hfirst]
  rw [MediaTypeValue.octets, hx, List.cons_append]
  by_cases htypes : ctx.mediaTypes = []
  · rw [if_pos htypes]
    refine Verdict.crash fun ctx' hres => ?_
    rw [typeOctet, if_neg (by simp [h.unfiltered]), contentTypeMsg_single hfeed] at hres
    simp only [contentTypeEvent, MimeType.type, List.take, List.foldlM_cons, contentTypeMatch,
      if_pos htypes, error_bind] at hres
    cases hres
  · rw [if_neg htypes]
    obtain ⟨ctx₁, hstep, happly₁, hstate₁, htypes₁, hfound₁⟩ :=
      typeOctet_type env h.unfiltered htypes hfeed
    have hverdict := Verdict.type env happly₁ hstate₁
      (by rw [htypes₁]; exact feedTypes_ne_nil htypes c) hfound₁ hchars
      v.subtype_restricted.chars v.rest_parameters
    rw [htypes₁] at hverdict
    exact Verdict.cons hstep hverdict

/-- The value decides as it should when what comes of it is what the list says. -/
theorem decidesType_iff (h : TypeAwaited ctx) : DecidesType env ctx v ↔
    ctx.mediaTypes ≠ [] ∧ ∃ b, typeListed ctx.mediaTypes none v.type v.subtype = .ok b ∧
      (b = true ↔ OnList ctx.mediaTypes v.type v.subtype) := by
  have hverdict := h.verdict env v
  by_cases htypes : ctx.mediaTypes = []
  · rw [if_pos htypes] at hverdict
    refine iff_of_false ?_ fun hboth => hboth.1 htypes
    rintro ⟨ctx', hres, -⟩
    exact hverdict.crashes .uninitialised rfl ctx' hres
  · rw [if_neg htypes] at hverdict
    constructor
    · rintro ⟨ctx', hres, hiff⟩
      refine ⟨htypes, ?_⟩
      cases hlisted : typeListed ctx.mediaTypes none v.type v.subtype with
      | error f => exact absurd hres (hverdict.crashes f hlisted ctx')
      | ok b =>
        obtain ⟨ctx'', hres', happly⟩ := hverdict.returns b hlisted
        obtain rfl := Except.ok.inj (hres'.symm.trans hres)
        exact ⟨b, rfl, by rw [← happly]; exact hiff⟩
    · rintro ⟨-, b, hlisted, hiff⟩
      obtain ⟨ctx', hres, happly⟩ := hverdict.returns b hlisted
      exact ⟨ctx', hres, by rw [happly]; exact hiff⟩

/-- **The decision on a type** is that of the list exactly when the type leads to the
right subtypes. -/
theorem media_type_decided (env : FilterEnv) {ctx : Ctx} (h : TypeAwaited ctx)
    (v : MediaTypeValue) :
    DecidesType env ctx v ↔ LedRight ctx.mediaTypes v := by
  have hascii : IsAscii v.type := fun c hc => restNameChars_ascii c (v.type_restricted.chars c hc)
  have hascii' : IsAscii v.subtype := fun c hc =>
    restNameChars_ascii c (v.subtype_restricted.chars c hc)
  rw [decidesType_iff h, typeListed_nodeFor h.types v.type_restricted.ne hascii]
  cases hnode : nodeFor ctx.mediaTypes v.type with
  -- no node is found for the type, and nothing is filtered
  | none =>
    constructor
    · rintro ⟨hne, b, hb, hiff⟩
      obtain rfl := Except.ok.inj hb
      refine ⟨hne, ?_, ?_, fun hlist => absurd (hiff.mpr hlist) nofun⟩
      · rw [hnode]
        exact nofun
      · rw [hnode]
        exact nofun
    · intro hled
      refine ⟨hled.nonempty, false, rfl, iff_of_false nofun fun hlist => ?_⟩
      obtain ⟨t, ht, -⟩ := hled.found hlist
      rw [hnode] at ht
      cases ht
  | some t =>
    -- the subtypes of the node that is found decide, whatever other nodes hold
    have hmem := nodeFor_mem hnode
    obtain ⟨hreturns, hverdict⟩ := subtypeListed_fresh (h.types.types t hmem).2
      (h.types.subtypes t hmem) v.subtype_restricted.ne hascii'
    constructor
    · rintro ⟨hne, b, hb, hiff⟩
      have hb' : subtypeListed t.subtypes v.subtype = .ok b := hb
      have hbegins := (hverdict b hb').symm.trans hiff
      refine ⟨hne, ?_, ?_, fun hlist => ⟨t, hnode, hbegins.mpr hlist⟩⟩
      · intro t' ht'
        obtain rfl := Option.some.inj (hnode.symm.trans ht')
        exact hreturns.mp ⟨b, hb'⟩
      · intro t' ht' s hs hbegin
        obtain rfl := Option.some.inj (hnode.symm.trans ht')
        exact hbegins.mp ⟨s, hs, hbegin⟩
    · intro hled
      obtain ⟨b, hb⟩ := hreturns.mpr (hled.wildcardFirst t hnode)
      refine ⟨hled.nonempty, b, hb, (hverdict b hb).trans ?_⟩
      constructor
      · rintro ⟨s, hs, hbegin⟩
        exact hled.wanted t hnode s hs hbegin
      · intro hlist
        obtain ⟨t', ht', hbegin⟩ := hled.found hlist
        obtain rfl := Option.some.inj (hnode.symm.trans ht')
        exact hbegin

end

/-- `image/png`. -/
def imagePng : MediaTypeValue where
  type := ascii "image"
  subtype := ascii "png"
  rest := []
  type_restricted := ⟨by rintro c ⟨⟩; rfl, by decide +kernel, by decide⟩
  subtype_restricted := ⟨by rintro c ⟨⟩; rfl, by decide +kernel, by decide⟩
  rest_parameters := nofun

/-- It is filtered when it is on the list. -/
theorem media_type_decided_png : TypeAwaited (Filter.initial [(ascii "image", ascii "png")]).ctx ∧
    DecidesType {} (Filter.initial [(ascii "image", ascii "png")]).ctx imagePng := by
  have hawaited : TypeAwaited (Filter.initial [(ascii "image", ascii "png")]).ctx := by
    refine ⟨rfl, ⟨by decide, ?_⟩, rfl⟩
    intro t ht s p hs
    obtain rfl : t = ⟨ascii "image", 0, [.named (ascii "png") 0]⟩ := List.mem_singleton.mp ht
    obtain ⟨-, rfl⟩ := Subtype.named.inj (List.mem_singleton.mp hs)
    rfl
  have hlist : Unambiguous [⟨ascii "image", 0, [.named (ascii "png") 0]⟩] imagePng := by
    refine ⟨List.cons_ne_nil _ _, List.pairwise_singleton _ _, ?_, ?_, ?_⟩
    · intro t ht hwild
      obtain rfl := List.mem_singleton.mp ht
      exact absurd hwild (by decide)
    · intro t ht _
      obtain rfl := List.mem_singleton.mp ht
      rfl
    · intro t ht s p hs _
      obtain rfl := List.mem_singleton.mp ht
      obtain ⟨rfl, -⟩ := Subtype.named.inj (List.mem_singleton.mp hs)
      rfl
  exact ⟨hawaited, (media_type_decided {} hawaited imagePng).mpr hlist.ledRight⟩

/-- A wildcard behind it has no matcher for the first octet of the subtype. -/
theorem media_type_crash : ¬ ∀ (ctx : Ctx), TypeAwaited ctx → ∀ v, DecidesType {} ctx v := by
  intro h
  have hawaited : TypeAwaited
      (Filter.initial [(ascii "image", ascii "png"), (ascii "image", ascii "*")]).ctx := by
    refine ⟨rfl, ⟨by decide, ?_⟩, rfl⟩
    intro t ht s p hs
    obtain rfl : t = ⟨ascii "image", 0, [.named (ascii "png") 0, .wildcard]⟩ :=
      List.mem_singleton.mp ht
    rcases List.mem_cons.mp hs with hs | hs
    · obtain ⟨-, rfl⟩ := Subtype.named.inj hs
      rfl
    · cases List.mem_singleton.mp hs
  obtain ⟨ctx', hres, -⟩ := h _ hawaited imagePng
  have hcrash : typeOctets {}
      (Filter.initial [(ascii "image", ascii "png"), (ascii "image", ascii "*")]).ctx
      imagePng.octets = .error .nullPointer := rfl
  exact absurd (hcrash.symm.trans hres) nofun

end Pop3Proxy
