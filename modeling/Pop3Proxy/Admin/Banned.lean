/-
# What a ban comes to

From the line of the operator to the matchers of the filter: the client cuts the line, the service
sets `FILTER_MEDIAS`, a filter that is started reads it, and compares the `Content-Type` of every
part with it.  The newline of the line has stayed with the last type all the way, so that this one
is never filtered.
-/
import Pop3Proxy.Admin.Requests
import Pop3Proxy.Filter.Awaiting
import Pop3Proxy.Filter.Environment

namespace Pop3Proxy

open Traced

/-- A media type as the operator can write it: a type, the slash, and a subtype. -/
structure BanEntry (e : List Byte × List Byte) : Prop extends ProperEntry e where
  plain : PlainType (entryText e)

/-- The entry that is made of the last one of a line. -/
def withNewline (e : List Byte × List Byte) : List Byte × List Byte := (e.1, e.2 ++ [LF])

section
variable {es : List (List Byte × List Byte)} {d e : List Byte × List Byte}

/-- The newline goes with the subtype of the last entry. -/
theorem sentTypes_entries (es : List (List Byte × List Byte)) (e : List Byte × List Byte) :
    sentTypes ((es ++ [e]).map entryText) = (es ++ [withNewline e]).map entryText := by
  have hlast : entryText e ++ [LF] = entryText (withNewline e) := by
    simp [entryText, withNewline]
  rw [sentTypes, List.map_append, endLast_append _ (by simp), List.map_append]
  show (es.map entryText ++ [entryText e ++ [LF]]).filter _ = _
  rw [hlast]
  refine List.filter_eq_self.mpr fun t ht => ?_
  have hne : t ≠ [] := by
    rcases List.mem_append.mp ht with ht | ht
    · obtain ⟨d, hd, rfl⟩ := List.mem_map.mp ht
      simp [entryText]
    · rw [List.mem_singleton.mp ht]
      simp [entryText]
  simpa using hne

/-- It is an entry all the same. -/
theorem properEntry_withNewline (he : ProperEntry e) : ProperEntry (withNewline e) where
  type := he.type
  subtype := by
    refine ⟨by simp [withNewline], fun hmem => ?_, fun hmem => ?_⟩
    all_goals
      rcases List.mem_append.mp hmem with hmem | hmem
    · exact he.subtype.2.1 hmem
    · exact absurd (List.mem_singleton.mp hmem) (by decide)
    · exact he.subtype.2.2 hmem
    · exact absurd (List.mem_singleton.mp hmem) (by decide)

/-! ## The client -/

/-- As far as its words have room, the client stays within its arrays. -/
theorem clientRound_inside {ts : List (List Byte)} (hne : ts ≠ []) (hts : ∀ t ∈ ts, PlainType t)
    (hfits : (banLine ts).length < 1000) (hroom : (sentTypes ts).length + 4 ≤ 6) (more : List Byte)
    (c : ClientMemory) : (clientRound (banLine ts ++ more) c).All ClientAccess.Inside := by
  obtain ⟨s, hs, -⟩ := sentTypes_newline hne
  have hlength : (banWords ++ sentTypes ts).length = (sentTypes ts).length + 4 := by
    rw [List.length_append, Nat.add_comm]
    rfl
  have hargc : max 1 (banWords ++ sentTypes ts).length = (banWords ++ sentTypes ts).length := by
    rw [hlength]
    omega
  rw [clientRound, fgets_banLine hts hfits, words_banLine hne hts]
  simp only [hargc]
  rw [encodeRequest_ban (List.ne_nil_of_mem hs)]
  refine all_bind.mpr ⟨?_, fun _ _ => all_bind.mpr ⟨?_, fun r hr => ?_⟩⟩
  · intro a ha
    obtain ⟨i, hi, rfl⟩ := List.mem_map.mp ha
    have hlt := List.mem_range.mp hi
    show i < 6
    omega
  · intro a ha
    obtain ⟨i, hi, rfl⟩ := List.mem_map.mp ha
    have hlt := (List.mem_range'_1.mp hi).2
    show i < 5
    omega
  · obtain rfl := Except.ok.inj hr
    simp only [if_neg (by decide : ¬ (0x54 : Byte) = 0xFF)]
    exact all_bind.mpr ⟨composeMessage_inside _ c (sentTypes_fit hne hfits), fun _ _ => all_pure⟩

end

/-! ## The filter -/

section
variable {ts : List TypeList} {x y : List Byte} {d e : List Byte × List Byte}

/-- The verdict on a type and a subtype, when a wildcard is always the first subtype of its type. -/
theorem typeListed_returns (hts : FreshTypes ts) (hx : x ≠ []) (hxascii : IsAscii x) (hy : y ≠ [])
    (hyascii : IsAscii y)
    (hwild : ∀ t ∈ ts, .wildcard ∈ t.subtypes → t.subtypes.head? = some .wildcard) :
    ∃ b, typeListed ts none x y = .ok b ∧
      (b = true ↔ ∃ t, nodeFor ts x = some t ∧ ∃ s ∈ t.subtypes, s.begins y) := by
  rw [typeListed_nodeFor hts hx hxascii]
  cases hnode : nodeFor ts x with
  | none => exact ⟨false, rfl, iff_of_false (by simp) (by simp)⟩
  | some t =>
    have hmem := nodeFor_mem hnode
    obtain ⟨hreturns, hverdict⟩ :=
      subtypeListed_fresh (hts.types t hmem).2 (hts.subtypes t hmem) hy hyascii
    obtain ⟨b, hb⟩ := hreturns.mpr (hwild t hmem)
    refine ⟨b, hb, (hverdict b hb).trans ?_⟩
    constructor
    · rintro ⟨s, hs, hbegin⟩
      exact ⟨t, rfl, s, hs, hbegin⟩
    · rintro ⟨t', ht', s, hs, hbegin⟩
      obtain rfl := Option.some.inj ht'
      exact ⟨s, hs, hbegin⟩

/-- No subtype has a newline. -/
theorem not_begins_newline (hy : ∀ c ∈ y, initCharClass .restNameChars c = true) (s : List Byte) :
    ¬ BeginsLetters (s ++ [LF]) y := by
  intro hpre
  have hmem : LF ∈ (s ++ [LF]).map tolower := List.mem_map.mpr ⟨LF, by simp, rfl⟩
  obtain ⟨c, hc, heq⟩ := List.mem_map.mp (hpre.subset hmem)
  have hnot : ∀ c, tolower c = LF → initCharClass .restNameChars c = false := by decide +kernel
  have hfalse := hnot c heq
  rw [hy c hc] at hfalse
  cases hfalse

/-- It is no wildcard. -/
theorem ofName_newline (s : List Byte) :
    Subtype.ofName (s ++ [LF]) = .named (s ++ [LF]) 0 := by
  refine if_neg fun heq => ?_
  have hmem : LF ∈ ascii "*" := by rw [← heq]; simp
  exact absurd hmem (by decide)

/-- A subtype is completed by its letters, and the wildcard by any. -/
theorem begins_ofName {s : List Byte} (hs : s ≠ []) :
    (Subtype.ofName s).begins y ↔ s = ascii "*" ∨ BeginsLetters s y := by
  rw [Subtype.ofName]
  split_ifs with heq
  · exact iff_of_true trivial (.inl heq)
  · show s ≠ [] ∧ _ ↔ _
    rw [and_iff_right hs, or_iff_right heq]

/-- **What is listed** of one type or two: the first of two. -/
theorem nodeFor_banned {es : List (List Byte × List Byte)} (hes : ∀ d ∈ es, BanEntry d)
    (hlen : es.length ≤ 1) (hy : ∀ c ∈ y, initCharClass .restNameChars c = true) :
    (∀ t ∈ mediaTypesOf (es ++ [withNewline e]),
        .wildcard ∈ t.subtypes → t.subtypes.head? = some .wildcard) ∧
      ((∃ t, nodeFor (mediaTypesOf (es ++ [withNewline e])) x = some t ∧
          ∃ s ∈ t.subtypes, s.begins y) ↔
        ∃ d ∈ es, SameLetters x d.1 ∧ (d.2 = ascii "*" ∨ BeginsLetters d.2 y)) := by
  have hlast : ¬ (Subtype.named (e.2 ++ [LF]) 0).begins y := fun h => not_begins_newline hy _ h.2
  match es, hlen with
  | [], _ =>
    -- alone, the type is listed with the newline, and no subtype begins so
    have hts : mediaTypesOf ([] ++ [withNewline e]) = [⟨e.1, 0, [.named (e.2 ++ [LF]) 0]⟩] := by
      show [(⟨e.1, 0, [Subtype.ofName (e.2 ++ [LF])]⟩ : TypeList)] = _
      rw [ofName_newline]
    rw [hts]
    refine ⟨by simp, iff_of_false ?_ (by simp)⟩
    rintro ⟨t, ht, s, hs, hbegin⟩
    obtain rfl := List.mem_singleton.mp (nodeFor_mem ht)
    rw [List.mem_singleton.mp hs] at hbegin
    exact hlast hbegin
  | [d], _ =>
    -- of two, the first one is listed as it was typed
    have hd := (hes d (by simp)).subtype.1
    have hts : mediaTypesOf ([d] ++ [withNewline e]) =
        insertType e.1 (e.2 ++ [LF]) [⟨d.1, 0, [Subtype.ofName d.2]⟩] := rfl
    rw [hts, insertType]
    by_cases hsame : d.1 = e.1
    -- the newline is with the second subtype of the type
    · rw [if_pos hsame]
      have hadd : (⟨d.1, 0, [Subtype.ofName d.2]⟩ : TypeList).add (e.2 ++ [LF]) =
          ⟨d.1, 0, if d.2 = ascii "*" then [.wildcard]
            else [Subtype.ofName d.2, .named (e.2 ++ [LF]) 0]⟩ := by
        rw [TypeList.add, ofName_newline]
        by_cases hwild : d.2 = ascii "*"
        · rw [if_pos hwild, Subtype.ofName, if_pos hwild]
          rfl
        · rw [if_neg hwild, Subtype.ofName, if_neg hwild]
          rfl
      rw [hadd]
      constructor
      · intro t ht hmem
        obtain rfl := List.mem_singleton.mp ht
        simp only at hmem ⊢
        split_ifs at hmem ⊢ with hwild
        · rfl
        · rw [Subtype.ofName, if_neg hwild] at hmem
          simp at hmem
      · simp only [nodeFor, List.mem_singleton, exists_eq_left]
        by_cases hx : SameLetters x d.1
        · rw [if_pos hx, and_iff_right hx, ← begins_ofName hd]
          simp only [Option.some.injEq, exists_eq_left']
          by_cases hwild : d.2 = ascii "*"
          · rw [if_pos hwild, Subtype.ofName, if_pos hwild]
            simp
          · rw [if_neg hwild]
            simp [hlast]
        · rw [if_neg hx]
          simp [hx]
    · rw [if_neg hsame]
      -- two types have a node each
      have hadd : insertType e.1 (e.2 ++ [LF]) [] = [⟨e.1, 0, [.named (e.2 ++ [LF]) 0]⟩] := by
        rw [insertType, ofName_newline]
      rw [hadd]
      constructor
      · intro t ht hmem
        simp only [List.mem_cons, List.not_mem_nil, or_false] at ht
        rcases ht with rfl | rfl
        · rw [← List.mem_singleton.mp hmem]
          rfl
        · simp at hmem
      · simp only [nodeFor, List.mem_singleton, exists_eq_left]
        by_cases hx : SameLetters x d.1
        · rw [if_pos hx, and_iff_right hx, ← begins_ofName hd]
          simp
        · rw [if_neg hx]
          refine iff_of_false ?_ fun h => hx h.1
          rintro ⟨t, ht, s, hs, hbegin⟩
          split_ifs at ht
          obtain rfl := Option.some.inj ht
          rw [List.mem_singleton.mp hs] at hbegin
          exact hlast hbegin

end

/-! ## From the line to the filter -/

/-- The list the service makes of the line, and what the filter reads in it. -/
theorem banned_medias {es : List (List Byte × List Byte)} {e : List Byte × List Byte}
    (hes : ∀ d ∈ es ++ [e], BanEntry d) (hnames : NamesFit (es ++ [withNewline e])) :
    MediasRead ([COMMA].intercalate (sentTypes ((es ++ [e]).map entryText)))
      (some (mediaTypesOf (es ++ [withNewline e]))) := by
  have hproper : ∀ d ∈ es ++ [withNewline e], ProperEntry d := by
    intro d hd
    rcases List.mem_append.mp hd with hd | hd
    · exact (hes d (List.mem_append_left _ hd)).toProperEntry
    · rw [List.mem_singleton.mp hd]
      exact properEntry_withNewline (hes e (by simp)).toProperEntry
  rw [sentTypes_entries]
  exact mediasRead_mediasText hproper hnames

/-- The service reaches no further than the list of types it makes. -/
theorem requestRead_ban_reaches {ss : List (List Byte)} (hne : ss ≠ [])
    (hss : ∀ s ∈ ss, (0 : Byte) ∉ s) (hcount : ss.length < 256) {r : Received} {rest : List Byte}
    (hr : r.octets = 0x54 :: UInt8.ofNat ss.length :: (terminatedStrings ss ++ rest))
    (unset : Byte) (sent : Bool) (m : AdminMemory) (g : Globals) :
    (requestRead (some r) ⟨true, unset, sent⟩ m g).All (Access.Reaches ss.length) := by
  obtain ⟨s, ss, rfl⟩ := List.exists_cons_of_ne_nil hne
  exact (requestRead_effect (q := .ban s ss) hss hcount hr unset sent m fun h => by cases h.1).1

/-- **What a ban comes to.**  A line that bans media types, not more than the client has room for
and with names the filter has room for, reaches the filters that are started from then on; and
these filter a part exactly when its type is one of those banned, the last one excepted, and its
subtype is one that begins like the banned one.  So a ban of a single type filters nothing. -/
theorem ban_enforced {es : List (List Byte × List Byte)} {e : List Byte × List Byte}
    (hes : ∀ d ∈ es ++ [e], BanEntry d)
    (hroom : (banWords ++ (es ++ [e]).map entryText).length ≤ 6)
    (hfits : (banLine ((es ++ [e]).map entryText)).length < 1000)
    (hnames : NamesFit (es ++ [withNewline e])) (more : List Byte)
    (c : ClientMemory) (unset : Byte) (sent : Bool) (m : AdminMemory) (g : Globals) :
    (clientRound (banLine ((es ++ [e]).map entryText) ++ more) c).All ClientAccess.Inside ∧
      ∃ r : Received,
        (clientRound (banLine ((es ++ [e]).map entryText) ++ more) c).result =
          .ok (some r.octets) ∧
        (requestRead (some r) ⟨true, unset, sent⟩ m g).All (Access.Reaches (es.length + 1)) ∧
        ∃ state m' g' flm ts,
          (requestRead (some r) ⟨true, unset, sent⟩ m g).result = .ok (state, m', g') ∧
          g'.filterMedias = some flm ∧ MediasRead flm (some ts) ∧
          ∀ env ctx (v : MediaTypeValue), TypeAwaited ctx → ctx.mediaTypes = ts →
            ∃ ctx', typeOctets env ctx v.octets = .ok ctx' ∧
              (ctx'.mediaFilterApply = true ↔
                ∃ d ∈ es, SameLetters v.type d.1 ∧
                  (d.2 = ascii "*" ∨ BeginsLetters d.2 v.subtype)) := by
  have hne : (es ++ [e]).map entryText ≠ [] := by simp
  have hplain : ∀ t ∈ (es ++ [e]).map entryText, PlainType t := by
    intro t ht
    obtain ⟨d, hd, rfl⟩ := List.mem_map.mp ht
    exact (hes d hd).plain
  have hcount : (sentTypes ((es ++ [e]).map entryText)).length = es.length + 1 := by
    rw [sentTypes_entries]
    simp
  -- four of the six words the client can hold are the command
  have hlen : es.length ≤ 1 := by
    simp only [List.length_append, List.length_map, List.length_singleton] at hroom
    have hwords : banWords.length = 4 := rfl
    omega
  -- what the client sends fills the array of the connection
  obtain ⟨l, rest, hround, hrest⟩ := clientRound_ban hne hplain hfits more c
  obtain ⟨r, hr⟩ : ∃ r : Received, r.octets =
      0x54 :: UInt8.ofNat (sentTypes ((es ++ [e]).map entryText)).length ::
        (terminatedStrings (sentTypes ((es ++ [e]).map entryText)) ++ rest) := by
    refine ⟨⟨_, ?_, ?_⟩, rfl⟩
    · simp
    · simp only [List.length_cons, List.length_append]
      omega
  have hreaches := requestRead_ban_reaches (List.ne_nil_of_length_pos (by omega))
    (sentTypes_noNul hplain) (by omega) hr unset sent m g
  rw [hcount] at hreaches
  refine ⟨clientRound_inside hne hplain hfits (by omega) more c, r, ?_, hreaches, ?_⟩
  · rw [hr]
    exact congrArg Traced.result hround
  -- the server makes `FILTER_MEDIAS` of it, and the filter its list of that
  obtain ⟨state, m', g', hserver, hmedias⟩ := ban_medias hne hplain hr (by omega) unset sent m g
  refine ⟨state, m', g', _, _, hserver, hmedias, banned_medias hes hnames, ?_⟩
  intro env ctx v hctx hts
  have hascii := restNameChars_ascii
  obtain ⟨hwild, hlisted⟩ := nodeFor_banned (e := e) (x := v.type)
    (fun d hd => hes d (List.mem_append_left _ hd)) hlen v.subtype_restricted.chars
  obtain ⟨b, hb, hiff⟩ := typeListed_returns (freshTypes_mediaTypesOf _) v.type_restricted.ne
    (fun c hc => hascii c (v.type_restricted.chars c hc)) v.subtype_restricted.ne
    (fun c hc => hascii c (v.subtype_restricted.chars c hc)) hwild
  have hsome : ctx.mediaTypes ≠ [] := by
    rw [hts, mediaTypesOf_concat]
    exact insertType_ne_nil _ _ _
  have hverdict := hctx.verdict env v
  rw [if_neg hsome, hts] at hverdict
  obtain ⟨ctx', hres, happly⟩ := hverdict.returns b hb
  exact ⟨ctx', hres, by rw [happly, hiff, hlisted]⟩

/-- Of `image/png` and `text/html` the first is filtered, and not the second. -/
theorem ban_enforced_png : ∃ r : Received,
    (clientRound (banLine [ascii "image/png", ascii "text/html"]) .cleared).result =
      .ok (some r.octets) ∧
      ∃ state m' g' flm ts,
        (requestRead (some r) ⟨true, 0, true⟩ .cleared ⟨none, none, 0⟩).result =
          .ok (state, m', g') ∧
        g'.filterMedias = some flm ∧ MediasRead flm (some ts) ∧
        ∀ env ctx (v : MediaTypeValue), TypeAwaited ctx → ctx.mediaTypes = ts →
          ∃ ctx', typeOctets env ctx v.octets = .ok ctx' ∧
            (ctx'.mediaFilterApply = true ↔
              SameLetters v.type (ascii "image") ∧ BeginsLetters (ascii "png") v.subtype) := by
  have hes : ∀ d ∈ [(ascii "image", ascii "png")] ++ [(ascii "text", ascii "html")],
    BanEntry d := by
    intro d hd
    rcases List.mem_cons.mp hd with rfl | hd
    · exact ⟨⟨by decide, by decide⟩, by decide +kernel⟩
    · rw [List.mem_singleton.mp hd]
      exact ⟨⟨by decide, by decide⟩, by decide +kernel⟩
  obtain ⟨-, r, hclient, -, state, m', g', flm, ts, hserver, hmedias, hts, hfilter⟩ :=
    ban_enforced hes (by decide) (by decide +kernel) (by decide +kernel) [] .cleared 0 true .cleared
      ⟨none, none, 0⟩
  refine ⟨r, hclient, state, m', g', flm, ts, hserver, hmedias, hts, fun env ctx v hctx hmts => ?_⟩
  obtain ⟨ctx', hres, hiff⟩ := hfilter env ctx v hctx hmts
  refine ⟨ctx', hres, hiff.trans ?_⟩
  have hstar : ascii "png" ≠ ascii "*" := by decide
  simp only [List.mem_singleton, exists_eq_left]
  rw [or_iff_right hstar]

end Pop3Proxy
