/-
# Following names and types

The matchers of names, of boundaries and of types never touch the output.  As
long as an octet completes no match, the content type neither fails nor turns the
replacement on, provided the list of types is in order.
-/
import Pop3Proxy.Filter.StripMime

namespace Pop3Proxy

/-! ## The list of types -/

/-- The subtypes are those of the list, in their order. -/
theorem subtypes_feedTypes (c : Byte) (ts : List TypeList) :
    (feedTypes c ts).1.map (·.subtypes) = ts.map (·.subtypes) := by
  induction ts with
  | nil => rfl
  | cons t ts ih =>
    simp only [feedTypes]
    split_ifs <;> simp [ih]

/-- The type that matches is in the list. -/
theorem feedTypes_lt {c : Byte} {ts : List TypeList} {i : ℕ} (h : (feedTypes c ts).2 = some i) :
    i < ts.length := by
  induction ts generalizing i with
  | nil => simp [feedTypes] at h
  | cons t ts ih =>
    simp only [feedTypes] at h
    split_ifs at h with heq
    · simp only [Option.some.injEq] at h
      simp [← h]
    · obtain ⟨j, hj, rfl⟩ := Option.map_eq_some_iff.mp h
      have := ih hj
      simp only [List.length_cons]
      omega

/-- The octet is the last one of the subtype, or anything will do. -/
def Subtype.completes (c : Byte) : Subtype → Bool
  | .wildcard => true
  | .named s p => (strcmpiFeed s p c).2 = some .eq

/-- Where no subtype is completed what was found before stays. -/
theorem feedNext_spec {c : Byte} {ss : List Subtype} (h : ∀ s ∈ ss, s.completes c = false)
    (current : Option StringCmp) : ∃ ss', feedNext c current ss = .ok (ss', current) := by
  induction ss with
  | nil => exact ⟨[], rfl⟩
  | cons s ss ih =>
    obtain ⟨ss', hss⟩ := ih fun s hs => h s (by simp [hs])
    cases s with
    | wildcard => exact absurd (h .wildcard (by simp)) (by simp [Subtype.completes])
    | named s p =>
      have hs := h (.named s p) (by simp)
      simp only [Subtype.completes, decide_eq_false_iff_not] at hs
      refine ⟨.named s (strcmpiFeed s p c).1 :: ss', ?_⟩
      simp only [feedNext, Subtype.feed, ok_bind, hs, if_false, hss]

/-- **No subtype is completed**: the octet goes to all of them. -/
theorem feedSubtypes_spec {c : Byte} {ss : List Subtype} (hne : ss ≠ [])
    (h : ∀ s ∈ ss, s.completes c = false) :
    ∃ ss' current, feedSubtypes c ss = .ok (ss', current) ∧ current ≠ some .eq ∧ ss' ≠ [] := by
  cases ss with
  | nil => exact absurd rfl hne
  | cons s ss =>
    cases s with
    | wildcard => exact absurd (h .wildcard (by simp)) (by simp [Subtype.completes])
    | named s p =>
      have hs := h (.named s p) (by simp)
      simp only [Subtype.completes, decide_eq_false_iff_not] at hs
      have hrest : ∀ s' ∈ ss, s'.completes c = false := fun s' hs' => h s' (by simp [hs'])
      obtain ⟨ss', hss⟩ := feedNext_spec hrest (strcmpiFeed s p c).2
      refine ⟨.named s (strcmpiFeed s p c).1 :: ss', _, ?_, hs, by simp⟩
      simp only [feedSubtypes, Subtype.feed, ok_bind, hss]

/-- The list has entries, and what `media_subtypes` points to is one of them when it is used. -/
structure ListOk (ctx : Ctx) : Prop where
  entries : ctx.mediaTypes ≠ []
  subtypes : ∀ t ∈ ctx.mediaTypes, t.subtypes ≠ []
  inForce : ctx.contentType = .type ∨ ctx.contentType = .subtype →
    ctx.mediaTypeFilterDetected = true → ∃ i t, ctx.mediaSubtypes = some i ∧
      ctx.mediaTypes[i]? = some t

/-- A type that has subtypes keeps one when another is added. -/
theorem subtypes_add {t : TypeList} (h : t.subtypes ≠ []) (subtype : List Byte) :
    (t.add subtype).subtypes ≠ [] := by
  rw [TypeList.add]
  split <;> simp_all

/-- So do all the types of a list. -/
theorem subtypes_insertType {ts : List TypeList} (h : ∀ t ∈ ts, t.subtypes ≠ [])
    (type subtype : List Byte) : ∀ t ∈ insertType type subtype ts, t.subtypes ≠ [] := by
  induction ts with
  | nil => simp [insertType]
  | cons t ts ih =>
    have ht := h t (by simp)
    have hts := ih fun t ht => h t (by simp [ht])
    rw [insertType]
    split_ifs
    · intro t' ht'
      rcases List.mem_cons.mp ht' with rfl | ht'
      · exact subtypes_add ht subtype
      · exact h t' (by simp [ht'])
    · intro t' ht'
      rcases List.mem_cons.mp ht' with rfl | ht'
      · exact ht
      · exact hts t' ht'

/-- A list with an entry more is not empty. -/
theorem insertType_ne_nil (type subtype : List Byte) (ts : List TypeList) :
    insertType type subtype ts ≠ [] := by
  cases ts with
  | nil => simp [insertType]
  | cons t ts =>
    rw [insertType]
    split_ifs <;> simp

/-- The list is in order before the mail. -/
theorem listOk_initial {entries : List (List Byte × List Byte)} (h : entries ≠ []) :
    ListOk (Filter.initial entries).ctx where
  entries := by
    obtain rfl | ⟨es, e, rfl⟩ := List.eq_nil_or_concat' entries
    · exact absurd rfl h
    · simp only [Filter.initial, mediaTypesOf, List.foldl_append]
      exact insertType_ne_nil _ _ _
  subtypes := by
    have hall : ∀ ts : List TypeList, (∀ t ∈ ts, t.subtypes ≠ []) →
        ∀ t ∈ entries.foldl (fun ts e => insertType e.1 e.2 ts) ts, t.subtypes ≠ [] := by
      clear h
      induction entries with
      | nil => exact fun ts hts => hts
      | cons e es ih => exact fun ts hts => ih _ (subtypes_insertType hts e.1 e.2)
    exact hall [] fun t ht => absurd ht List.not_mem_nil
  inForce hstate := by simp [Filter.initial, mimeTypeParser] at hstate

/-! ## One octet of a name -/

/-- The matcher of a name and its flag are all that changes. -/
theorem contentTypeHeader_spec (ctx : Ctx) (cs : List Byte) :
    ∃ p flag, cs.foldl contentTypeHeader ctx =
      { ctx with ctypeHeader := p, msgContentTypeFieldDetected := flag } := by
  induction cs generalizing ctx with
  | nil => exact ⟨_, _, rfl⟩
  | cons c cs ih => exact ih (contentTypeHeader ctx c)

/-- The octets of a name change the matcher of the encoding and its flag. -/
theorem contentTransferEncodingHeader_spec (ctx : Ctx) (cs : List Byte) :
    ∃ p flag, cs.foldl contentTransferEncodingHeader ctx =
      { ctx with
        ctransferEncodingHeader := p, msgContentTransferEncodingFieldDetected := flag } := by
  induction cs generalizing ctx with
  | nil => exact ⟨_, _, rfl⟩
  | cons c cs ih => exact ih (contentTransferEncodingHeader ctx c)

/-- With an octet of a name nothing else changes but that it is written. -/
theorem msgName_frame (ctx : Ctx) (e : ParserEvent MimeMsgType) : ∃ p flag p' flag',
    msgName ctx e = { ctx with
      ctypeHeader := p, msgContentTypeFieldDetected := flag, ctransferEncodingHeader := p',
      msgContentTransferEncodingFieldDetected := flag', mail := ctx.mail.write (e.octet 0) } := by
  have hencoding (ctx₁ : Ctx) : ∃ p flag,
      (if ctx₁.msgContentTransferEncodingFieldDetected ≠ some false then
        (e.data.take e.n).foldl contentTransferEncodingHeader ctx₁ else ctx₁) =
      { ctx₁ with
        ctransferEncodingHeader := p, msgContentTransferEncodingFieldDetected := flag } := by
    split_ifs
    · exact contentTransferEncodingHeader_spec ctx₁ (e.data.take e.n)
    · exact ⟨_, _, rfl⟩
  have htype : ∃ p flag, (if ctx.msgContentTypeFieldDetected ≠ some false then
        (e.data.take e.n).foldl contentTypeHeader ctx else ctx) =
      { ctx with ctypeHeader := p, msgContentTypeFieldDetected := flag } := by
    split_ifs
    · exact contentTypeHeader_spec ctx (e.data.take e.n)
    · exact ⟨_, _, rfl⟩
  obtain ⟨p, flag, htype⟩ := htype
  obtain ⟨p', flag', hencoding⟩ := hencoding { ctx with
    ctypeHeader := p, msgContentTypeFieldDetected := flag }
  rw [msgName, htype, hencoding]
  exact ⟨p, flag, p', flag', rfl⟩

/-! ## One octet of the body -/

/-- Looking for a boundary changes nothing else. -/
theorem boundaryLine_dashSeen (ctx : Ctx) (c : Byte) : ∃ dd pb be l,
    boundaryLine (dashSeen ctx c) c =
      { ctx with
        doubleMiddleDash := dd, possibleBoundary := pb, boundaryEnd := be,
        possibleBoundaryString := l } := by
  rw [boundaryLine, dashSeen]
  split_ifs <;> exact ⟨_, _, _, _, rfl⟩

/-! ## One octet of a content type -/

/-- Nothing is replaced, and nothing is about to be. -/
structure Quiet (ctx : Ctx) : Prop where
  apply : ctx.mediaFilterApply = false
  replace : ctx.replaceContentType = false

/-- What the content type leaves alone. -/
structure TypeStep (ctx ctx' : Ctx) : Prop where
  contentType : ctx'.contentType = ctx.contentType
  mail : ctx'.mail = ctx.mail
  msg : ctx'.msg = ctx.msg
  typeField : ctx'.msgContentTypeFieldDetected = ctx.msgContentTypeFieldDetected
  encodingField : ctx'.msgContentTransferEncodingFieldDetected =
    ctx.msgContentTransferEncodingFieldDetected

/-- The octet completes an entry of the list: its type has been read, and the
octet completes the subtype. -/
def TypeMatches (ctx : Ctx) (c : Byte) : Prop :=
  ctx.contentType = .subtype ∧ initCharClass .restNameChars c = true ∧
    ctx.mediaTypeFilterDetected = true ∧ ∃ i t s, ctx.mediaSubtypes = some i ∧
      ctx.mediaTypes[i]? = some t ∧ s ∈ t.subtypes ∧ s.completes c = true

instance (ctx : Ctx) (c : Byte) : Decidable (TypeMatches ctx c) :=
  decidable_of_iff
    (ctx.contentType = .subtype ∧ initCharClass .restNameChars c = true ∧
      ctx.mediaTypeFilterDetected = true ∧
      ∃ t ∈ (ctx.mediaSubtypes.bind fun i => ctx.mediaTypes[i]?).toList,
        ∃ s ∈ t.subtypes, s.completes c = true)
    (by
      simp only [TypeMatches, Option.mem_toList, Option.bind_eq_some_iff]
      grind)

section
variable {env : FilterEnv} {ctx ctx' : Ctx} {c : Byte}

/-- A content type makes one event of an octet. -/
theorem contentTypeMsg_single {s : MimeTypeState} {e : ParserEvent MimeTypeType}
    (h : mimeTypeFeed ctx.contentType c = (s, [e])) :
    contentTypeMsg env ctx c = contentTypeEvent env { ctx with contentType := s } e := by
  rw [contentTypeMsg, h]
  simp

/-- An octet of the type is for the types of the list, and for `message`. -/
theorem typeEvent_ok {d : Byte} (h : contentTypeEvent env ctx ⟨.type, [d], 1⟩ = .ok ctx') :
    ∃ ctx₁, contentTypeMatch ctx d = .ok ctx₁ ∧ ctx' = messageHeader ctx₁ d := by
  simp only [contentTypeEvent, List.take, List.foldlM_cons, List.foldlM_nil] at h
  obtain ⟨ctx₁, h₁, h⟩ := bind_eq_ok.mp h
  obtain ⟨ctx₂, h₂, h₁⟩ := bind_eq_ok.mp h₁
  obtain rfl := Except.ok.inj h₁
  obtain rfl := Except.ok.inj h
  exact ⟨ctx₂, h₂, rfl⟩

/-- One of the subtype is for the subtypes of a type that has been seen, and for `rfc822` behind
`message`. -/
theorem subtypeEvent_ok {d : Byte} (h : contentTypeEvent env ctx ⟨.subtype, [d], 1⟩ = .ok ctx') :
    ∃ ctx₁, (if ctx.mediaTypeFilterDetected then contentSubtypeMatch ctx d else .ok ctx) =
        .ok ctx₁ ∧
      ctx' = if ctx₁.messageDetected then rfc822Header ctx₁ d else ctx₁ := by
  simp only [contentTypeEvent, ParserEvent.octet, List.getD_cons_zero, List.replicate,
    List.foldlM_cons, List.foldlM_nil] at h
  split_ifs at h with hdet
  · obtain ⟨ctx₁, h₁, h⟩ := bind_eq_ok.mp h
    obtain ⟨ctx₂, h₂, h₁⟩ := bind_eq_ok.mp h₁
    obtain rfl := Except.ok.inj h₁
    obtain rfl := Except.ok.inj h
    exact ⟨ctx₂, by rw [if_pos hdet, h₂], rfl⟩
  · obtain rfl := Except.ok.inj h
    exact ⟨ctx, if_neg hdet, rfl⟩

/-- A list with the same subtypes is in order too. -/
theorem types_of_subtypes {ts ts' : List TypeList} (hne : ts ≠ []) (h : ∀ t ∈ ts, t.subtypes ≠ [])
    (hts : ts'.map (·.subtypes) = ts.map (·.subtypes)) :
    ts' ≠ [] ∧ (∀ t ∈ ts', t.subtypes ≠ []) ∧ ts'.length = ts.length := by
  have hlen := congrArg List.length hts
  rw [List.length_map, List.length_map] at hlen
  refine ⟨fun hnil => ?_, fun t ht => ?_, hlen⟩
  · rw [hnil, List.length_nil, eq_comm, List.length_eq_zero_iff] at hlen
    exact hne hlen
  · have hmem : t.subtypes ∈ ts.map (·.subtypes) := by
      rw [← hts]
      exact List.mem_map_of_mem ht
    obtain ⟨t', ht', heq⟩ := List.mem_map.mp hmem
    rw [← heq]
    exact h t' ht'

/-- An octet of the type. -/
theorem contentTypeMatch_spec (h₁ : ctx.mediaTypes ≠ [])
    (h₂ : ∀ t ∈ ctx.mediaTypes, t.subtypes ≠ [])
    (hq : Quiet ctx) :
    ∃ ctx', contentTypeMatch ctx c = .ok ctx' ∧ ListOk ctx' ∧ Quiet ctx' ∧ TypeStep ctx ctx' := by
  have hts := subtypes_feedTypes c ctx.mediaTypes
  obtain ⟨hne, hsub, hlen⟩ := types_of_subtypes h₁ h₂ hts
  rw [contentTypeMatch, if_neg h₁]
  rcases hfeed : feedTypes c ctx.mediaTypes with ⟨ts, found⟩
  rw [hfeed] at hne hsub hlen
  cases found with
  | none =>
    exact ⟨_, rfl, ⟨hne, hsub, fun _ hd => absurd hd (by simp)⟩, ⟨hq.apply, hq.replace⟩,
      rfl, rfl, rfl, rfl, rfl⟩
  | some i =>
    have hi : i < ts.length := by
      rw [hlen]
      exact feedTypes_lt (by rw [hfeed])
    exact ⟨_, rfl, ⟨hne, hsub, fun _ _ => ⟨i, ts[i], rfl, List.getElem?_eq_getElem hi⟩⟩,
      ⟨hq.apply, hq.replace⟩, rfl, rfl, rfl, rfl, rfl⟩

/-- An octet of the subtype that completes nothing. -/
theorem contentSubtypeMatch_spec (h : ListOk ctx) (hq : Quiet ctx)
    (hstate : ctx.contentType = .subtype)
    (hd : ctx.mediaTypeFilterDetected = true) (hc : initCharClass .restNameChars c = true)
    (hno : ¬ TypeMatches ctx c) :
    ∃ ctx', contentSubtypeMatch ctx c = .ok ctx' ∧ ListOk ctx' ∧ Quiet ctx' ∧
    TypeStep ctx ctx' := by
  obtain ⟨i, t, hi, ht⟩ := h.inForce (.inr hstate) hd
  have hcompletes : ∀ s ∈ t.subtypes, s.completes c = false := fun s hs => by
    by_contra hne
    exact hno ⟨hstate, hc, hd, i, t, s, hi, ht, hs, by simpa using hne⟩
  obtain ⟨ss, current, hss, hcur, hne⟩ :=
    feedSubtypes_spec (h.subtypes t (List.mem_of_getElem? ht)) hcompletes
  rw [contentSubtypeMatch, hi]
  simp only [ht, hss, ok_bind, hcur, if_false]
  refine ⟨_, rfl, ⟨?_, fun t' ht' => ?_, fun _ _ => ?_⟩, ⟨rfl, hq.replace⟩, rfl, rfl, rfl, rfl, rfl⟩
  · simpa using h.entries
  · rcases List.mem_or_eq_of_mem_set ht' with ht' | rfl
    · exact h.subtypes t' ht'
    · exact hne
  · obtain ⟨hlt, -⟩ := List.getElem?_eq_some_iff.mp ht
    exact ⟨i, _, rfl, List.getElem?_set_self hlt⟩

/-- A header of an embedded message changes the detectors only. -/
theorem messageHeader_spec (h : ListOk ctx) (hq : Quiet ctx) (c : Byte) :
    ListOk (messageHeader ctx c) ∧ Quiet (messageHeader ctx c) ∧
      TypeStep ctx (messageHeader ctx c) :=
  ⟨⟨h.entries, h.subtypes, h.inForce⟩, ⟨hq.apply, hq.replace⟩, rfl, rfl, rfl, rfl, rfl⟩

/-- Looking for `rfc822` keeps the list in order and replaces nothing. -/
theorem rfc822Header_spec (h : ListOk ctx) (hq : Quiet ctx) (c : Byte) :
    ListOk (rfc822Header ctx c) ∧ Quiet (rfc822Header ctx c) ∧ TypeStep ctx (rfc822Header ctx c) :=
  ⟨⟨h.entries, h.subtypes, h.inForce⟩, ⟨hq.apply, hq.replace⟩, rfl, rfl, rfl, rfl, rfl⟩

/-- What is left alone by two steps. -/
theorem TypeStep.trans {ctx'' : Ctx} (h : TypeStep ctx ctx') (h' : TypeStep ctx' ctx'') :
    TypeStep ctx ctx'' where
  contentType := h'.contentType.trans h.contentType
  mail := h'.mail.trans h.mail
  msg := h'.msg.trans h.msg
  typeField := h'.typeField.trans h.typeField
  encodingField := h'.encodingField.trans h.encodingField

/-- The type goes on. -/
theorem typeEvent_spec (h₁ : ctx.mediaTypes ≠ []) (h₂ : ∀ t ∈ ctx.mediaTypes, t.subtypes ≠ [])
    (hq : Quiet ctx) :
    ∃ ctx', contentTypeEvent env ctx (MimeType.type c) = .ok ctx' ∧ ListOk ctx' ∧ Quiet ctx' ∧
      TypeStep ctx ctx' := by
  obtain ⟨ctx₁, hmatch, hok₁, hq₁, hs₁⟩ := contentTypeMatch_spec (c := c) h₁ h₂ hq
  obtain ⟨hok₂, hq₂, hs₂⟩ := messageHeader_spec hok₁ hq₁ c
  refine ⟨messageHeader ctx₁ c, ?_, hok₂, hq₂, hs₁.trans hs₂⟩
  simp only [contentTypeEvent, MimeType.type, List.take, List.foldlM_cons, List.foldlM_nil, hmatch]
  rfl

/-- The subtype goes on. -/
theorem subtypeEvent_spec (h : ListOk ctx) (hq : Quiet ctx) (hstate : ctx.contentType = .subtype)
    (hc : initCharClass .restNameChars c = true) (hno : ¬ TypeMatches ctx c) :
    ∃ ctx', contentTypeEvent env ctx (MimeType.subtype c) = .ok ctx' ∧ ListOk ctx' ∧ Quiet ctx' ∧
      TypeStep ctx ctx' := by
  have hrest : ∀ ctx₁, ListOk ctx₁ → Quiet ctx₁ → TypeStep ctx ctx₁ → ∃ ctx',
      Except.ok (ε := FilterFault) (if ctx₁.messageDetected then rfc822Header ctx₁ c else ctx₁) =
        .ok ctx' ∧ ListOk ctx' ∧ Quiet ctx' ∧ TypeStep ctx ctx' := by
    intro ctx₁ hok₁ hq₁ hs₁
    split_ifs
    · obtain ⟨hok₂, hq₂, hs₂⟩ := rfc822Header_spec hok₁ hq₁ c
      exact ⟨_, rfl, hok₂, hq₂, hs₁.trans hs₂⟩
    · exact ⟨_, rfl, hok₁, hq₁, hs₁⟩
  simp only [contentTypeEvent, MimeType.subtype, ParserEvent.octet, List.getD_cons_zero,
    List.replicate, List.foldlM_cons, List.foldlM_nil]
  split_ifs with hd
  · obtain ⟨ctx₁, hmatch, hok₁, hq₁, hs₁⟩ := contentSubtypeMatch_spec h hq hstate hd hc hno
    simp only [hmatch, ok_bind]
    exact hrest ctx₁ hok₁ hq₁ hs₁
  · exact hrest ctx h hq ⟨rfl, rfl, rfl, rfl, rfl⟩

/-- An event of what follows the subtype. -/
theorem parameterEvent_spec (h₁ : ctx.mediaTypes ≠ []) (h₂ : ∀ t ∈ ctx.mediaTypes, t.subtypes ≠ [])
    (hq : Quiet ctx) (hs : ctx.contentType ≠ .type ∧ ctx.contentType ≠ .subtype)
    {e : ParserEvent MimeTypeType} (he : e.type ≠ .type ∧ e.type ≠ .subtype) (hn : e.n = 1) :
    ∃ ctx', contentTypeEvent env ctx e = .ok ctx' ∧ ListOk ctx' ∧ Quiet ctx' ∧
      TypeStep ctx ctx' := by
  have hok : ListOk ctx :=
    ⟨h₁, h₂, fun hstate => by rcases hstate with hstate | hstate <;> simp [hs] at hstate⟩
  obtain ⟨ty, data, n⟩ := e
  subst hn
  cases ty with
  | type => exact absurd rfl he.1
  | subtype => exact absurd rfl he.2
  | typeEnd | parameterStart | boundaryEnd | delimiterStart | unexpected =>
    exact ⟨ctx, rfl, hok, hq, rfl, rfl, rfl, rfl, rfl⟩
  | parameter =>
    refine ⟨_, rfl, ?_⟩
    simp only [List.replicate, List.foldl_cons, List.foldl_nil, boundaryCharsetMatch]
    split_ifs <;> exact ⟨⟨h₁, h₂, hok.inForce⟩, ⟨hq.apply, hq.replace⟩, rfl, rfl, rfl, rfl, rfl⟩
  | delimiter =>
    refine ⟨_, rfl, ?_⟩
    split_ifs <;> exact ⟨⟨h₁, h₂, hok.inForce⟩, ⟨hq.apply, hq.replace⟩, rfl, rfl, rfl, rfl, rfl⟩
  | delimiterEnd =>
    refine ⟨_, rfl, ?_⟩
    split_ifs <;> exact ⟨⟨h₁, h₂, hok.inForce⟩, ⟨hq.apply, hq.replace⟩, rfl, rfl, rfl, rfl, rfl⟩

/-- **An octet of a content type** that completes no match. -/
theorem contentTypeMsg_spec (env : FilterEnv) (h : ListOk ctx) (hq : Quiet ctx)
    (hno : ¬ TypeMatches ctx c) :
    ∃ ctx', contentTypeMsg env ctx c = .ok ctx' ∧ ListOk ctx' ∧ Quiet ctx' ∧
      TypeStep { ctx with contentType := (mimeTypeFeed ctx.contentType c).1 } ctx' := by
  have hq' : ∀ s, Quiet { ctx with contentType := s } := fun s => ⟨hq.apply, hq.replace⟩
  -- the parser has moved on to `s`
  have hfrom : ∀ {s : MimeTypeState} {e : ParserEvent MimeTypeType},
      mimeTypeFeed ctx.contentType c = (s, [e]) →
      (∃ ctx', contentTypeEvent env { ctx with contentType := s } e = .ok ctx' ∧ ListOk ctx' ∧
        Quiet ctx' ∧ TypeStep { ctx with contentType := s } ctx') →
      ∃ ctx', contentTypeMsg env ctx c = .ok ctx' ∧ ListOk ctx' ∧ Quiet ctx' ∧
        TypeStep { ctx with contentType := (mimeTypeFeed ctx.contentType c).1 } ctx' := by
    intro s e hfeed hevent
    rw [contentTypeMsg_single hfeed, hfeed]
    exact hevent
  have hother : ∀ {s : MimeTypeState} {e : ParserEvent MimeTypeType},
      mimeTypeFeed ctx.contentType c = (s, [e]) → s ≠ .type ∧ s ≠ .subtype →
      e.type ≠ .type ∧ e.type ≠ .subtype → e.n = 1 →
      ∃ ctx', contentTypeMsg env ctx c = .ok ctx' ∧ ListOk ctx' ∧ Quiet ctx' ∧
        TypeStep { ctx with contentType := (mimeTypeFeed ctx.contentType c).1 } ctx' := by
    intro s e hfeed hs he hn
    refine hfrom hfeed (parameterEvent_spec ?_ ?_ (hq' s) hs he hn)
    · exact h.entries
    · exact h.subtypes
  obtain ⟨p, hstate⟩ : ∃ p, ctx.contentType = p := ⟨_, rfl⟩
  cases p with
  | type0 =>
    have hfeed := (congrArg (mimeTypeFeed · c) hstate).trans (mimeTypeFeed_type0 c)
    split_ifs at hfeed
    · refine hfrom hfeed (typeEvent_spec ?_ ?_ (hq' .type))
      · exact h.entries
      · exact h.subtypes
    · exact hother hfeed (by simp) (by simp [MimeType.unexpected]) rfl
  | type =>
    have hfeed := (congrArg (mimeTypeFeed · c) hstate).trans (mimeTypeFeed_type c)
    split_ifs at hfeed
    -- the type is over, and the entry found with it stays in force
    · refine hfrom hfeed ⟨_, rfl, ⟨h.entries, h.subtypes, fun _ => h.inForce (.inl hstate)⟩,
        hq' .subtype, rfl, rfl, rfl, rfl, rfl⟩
    · refine hfrom hfeed (typeEvent_spec ?_ ?_ (hq' .type))
      · exact h.entries
      · exact h.subtypes
    · exact hother hfeed (by simp) (by simp [MimeType.unexpected]) rfl
  | subtype =>
    have hfeed := (congrArg (mimeTypeFeed · c) hstate).trans (mimeTypeFeed_subtype c)
    split_ifs at hfeed with h1 h2
    · exact hother hfeed (by simp) (by simp [MimeType.parameterStart]) rfl
    · refine hfrom hfeed (subtypeEvent_spec ?_ (hq' _) rfl h2 ?_)
      · exact ⟨h.entries, h.subtypes, fun _ => h.inForce (.inr hstate)⟩
      · rintro ⟨-, hrest⟩
        exact hno ⟨hstate, hrest⟩
    · exact hother hfeed (by simp) (by simp [MimeType.unexpected]) rfl
  | parameter =>
    have hfeed := (congrArg (mimeTypeFeed · c) hstate).trans (mimeTypeFeed_parameter c)
    split_ifs at hfeed
    · exact hother hfeed (by simp) (by simp [MimeType.parameter]) rfl
    · exact hother hfeed (by simp) (by simp [MimeType.boundaryEnd]) rfl
    · exact hother hfeed (by simp) (by simp [MimeType.unexpected]) rfl
  | delimiterStart =>
    have hfeed := (congrArg (mimeTypeFeed · c) hstate).trans (mimeTypeFeed_delimiterStart c)
    split_ifs at hfeed
    · exact hother hfeed (by simp) (by simp [MimeType.delimiterStart]) rfl
    · exact hother hfeed (by simp) (by simp [MimeType.unexpected]) rfl
  | delimiter =>
    have hfeed := (congrArg (mimeTypeFeed · c) hstate).trans (mimeTypeFeed_delimiter c)
    split_ifs at hfeed
    · exact hother hfeed (by simp) (by simp [MimeType.delimiter]) rfl
    · exact hother hfeed (by simp) (by simp [MimeType.delimiterEnd]) rfl
    · exact hother hfeed (by simp) (by simp [MimeType.unexpected]) rfl
  | delimiterEnd =>
    have hfeed := (congrArg (mimeTypeFeed · c) hstate).trans (mimeTypeFeed_delimiterEnd c)
    exact hother hfeed (by simp) (by simp [MimeType.delimiterEnd]) rfl
  | error =>
    have hfeed := (congrArg (mimeTypeFeed · c) hstate).trans (mimeTypeFeed_error c)
    exact hother hfeed (by simp) (by simp [MimeType.unexpected]) rfl

end

end Pop3Proxy
