/-
# The cursor of the filter

How many octets each event of a message writes, and when it moves the cursor
back: what is written depends on the context before the event alone.
-/
import Pop3Proxy.Filter.Mail
import Pop3Proxy.Filter.Matching

namespace Pop3Proxy

section
variable {env : FilterEnv} {ctx ctx' : Ctx}

/-! ## The content type -/

/-- The subtypes after the first decide whether there is a match, unless one of
them has no parser. -/
theorem feedNext_eq {c : Byte} {current r : Option StringCmp} {ss ss' : List Subtype}
    (h : feedNext c current ss = .ok (ss', r)) :
    r = some .eq ↔ current = some .eq ∨ ∃ s ∈ ss, s.completes c = true := by
  induction ss generalizing current r ss' with
  | nil =>
    simp only [feedNext, Except.ok.injEq, Prod.mk.injEq] at h
    simp [h.2]
  | cons s ss ih =>
    cases s with
    | wildcard => simp [feedNext, Subtype.feed] at h
    | named s p =>
      simp only [feedNext, Subtype.feed, ok_bind] at h
      obtain ⟨⟨ss₁, r₁⟩, hnext, h⟩ := bind_eq_ok.mp h
      simp only [Except.ok.injEq, Prod.mk.injEq] at h
      rw [← h.2, ih hnext]
      by_cases heq : (strcmpiFeed s p c).2 = some .eq <;> simp [heq, Subtype.completes]

/-- **Is there a match among the subtypes?** -/
theorem feedSubtypes_eq {c : Byte} {r : Option StringCmp} {ss ss' : List Subtype}
    (h : feedSubtypes c ss = .ok (ss', r)) : r = some .eq ↔ ∃ s ∈ ss, s.completes c = true := by
  cases ss with
  | nil => simp [feedSubtypes] at h
  | cons s ss =>
    cases s with
    | wildcard =>
      simp only [feedSubtypes, Except.ok.injEq, Prod.mk.injEq] at h
      simp [← h.2, Subtype.completes]
    | named s p =>
      simp only [feedSubtypes, Subtype.feed, ok_bind] at h
      obtain ⟨⟨ss₁, r₁⟩, hnext, h⟩ := bind_eq_ok.mp h
      simp only [Except.ok.injEq, Prod.mk.injEq] at h
      rw [← h.2, feedNext_eq hnext]
      simp [Subtype.completes]

/-- What an octet of a content type does for the output: it may turn the replacement on. -/
structure TypeEffect (ctx : Ctx) (found : Prop) (ctx' : Ctx) : Prop where
  mail : ctx'.mail = ctx.mail
  encodingField : ctx'.msgContentTransferEncodingFieldDetected =
    ctx.msgContentTransferEncodingFieldDetected
  apply : ctx'.mediaFilterApply = true ↔ ctx.mediaFilterApply = true ∨ found
  replace : ctx'.replaceContentType = true ↔ ctx.replaceContentType = true ∨ found

/-- Nothing that matters has changed, and nothing was found. -/
theorem TypeEffect.same {found : Prop} (hno : ¬ found) (hmail : ctx'.mail = ctx.mail)
    (henc : ctx'.msgContentTransferEncodingFieldDetected =
      ctx.msgContentTransferEncodingFieldDetected)
    (happly : ctx'.mediaFilterApply = ctx.mediaFilterApply)
    (hreplace : ctx'.replaceContentType = ctx.replaceContentType) : TypeEffect ctx found ctx' where
  mail := hmail
  encodingField := henc
  apply := by rw [happly, or_iff_left hno]
  replace := by rw [hreplace, or_iff_left hno]

/-- An octet of the type does not turn the replacement on. -/
theorem contentTypeMatch_effect {c : Byte} {found : Prop} (hno : ¬ found)
    (h : contentTypeMatch ctx c = .ok ctx') : TypeEffect ctx found ctx' := by
  rw [contentTypeMatch] at h
  split_ifs at h
  rcases hfeed : feedTypes c ctx.mediaTypes with ⟨ts, r⟩
  rw [hfeed] at h
  cases r <;> obtain rfl := Except.ok.inj h <;> exact .same hno rfl rfl rfl rfl

/-- An octet of the subtype does when it completes one of the type in force. -/
theorem contentSubtypeMatch_effect {c : Byte} (h : contentSubtypeMatch ctx c = .ok ctx')
    (happly : ctx.mediaFilterApply = false) :
    TypeEffect ctx (∃ i t s, ctx.mediaSubtypes = some i ∧ ctx.mediaTypes[i]? = some t ∧
      s ∈ t.subtypes ∧ s.completes c = true) ctx' := by
  rw [contentSubtypeMatch] at h
  split at h
  · simp at h
  · rename_i i hi
    split at h
    · simp at h
    · rename_i t ht
      obtain ⟨⟨ss, r⟩, hfeed, -⟩ := bind_eq_ok.mp h
      simp only [hfeed, ok_bind, Except.ok.injEq] at h
      subst h
      have hfound : (∃ i t s, ctx.mediaSubtypes = some i ∧ ctx.mediaTypes[i]? = some t ∧
          s ∈ t.subtypes ∧ s.completes c = true) ↔ r = some .eq := by
        rw [feedSubtypes_eq hfeed]
        constructor
        · rintro ⟨i', t', s, hi', ht', hs⟩
          obtain rfl := Option.some.inj (hi.symm.trans hi')
          obtain rfl := Option.some.inj (ht.symm.trans ht')
          exact ⟨s, hs⟩
        · rintro ⟨s, hs⟩
          exact ⟨i, t, s, hi, ht, hs⟩
      by_cases hr : r = some .eq
      · rw [if_pos hr]
        have hyes := hfound.mpr hr
        exact ⟨rfl, rfl, iff_of_true rfl (.inr hyes), iff_of_true rfl (.inr hyes)⟩
      · rw [if_neg hr]
        have hno := mt hfound.mp hr
        refine ⟨rfl, rfl, ?_, (or_iff_left hno).symm⟩
        exact iff_of_false Bool.false_ne_true (not_or.mpr ⟨by simp [happly], hno⟩)

/-- An octet of a content type gives one event, with one octet. -/
theorem mimeTypeFeed_single (p : MimeTypeState) (c : Byte) :
    ∃ s e d, mimeTypeFeed p c = (s, [e]) ∧ e.data = [d] ∧ e.n = 1 ∧
      (e.type = .subtype ↔ p = .subtype ∧ initCharClass .restNameChars c = true) ∧
      (e.type = .subtype → d = c) := by
  have hsemi : initCharClass .restNameChars SEMICOLON ≠ true := by decide
  cases p with
  | type0 =>
    rw [mimeTypeFeed_type0]
    split_ifs <;> exact ⟨_, _, _, rfl, rfl, rfl, by simp [MimeType.type, MimeType.unexpected],
      by simp [MimeType.type, MimeType.unexpected]⟩
  | type =>
    rw [mimeTypeFeed_type]
    split_ifs <;> exact ⟨_, _, _, rfl, rfl, rfl,
      by simp [MimeType.type, MimeType.typeEnd, MimeType.unexpected],
      by simp [MimeType.type, MimeType.typeEnd, MimeType.unexpected]⟩
  | subtype =>
    rw [mimeTypeFeed_subtype]
    split_ifs with h1 h2
    · subst h1
      exact ⟨_, _, _, rfl, rfl, rfl, by simp [MimeType.parameterStart, hsemi],
        by simp [MimeType.parameterStart]⟩
    · exact ⟨_, _, _, rfl, rfl, rfl, by simp [MimeType.subtype, h2], fun _ => rfl⟩
    · exact ⟨_, _, _, rfl, rfl, rfl, by simp [MimeType.unexpected, h2],
        by simp [MimeType.unexpected]⟩
  | parameter =>
    rw [mimeTypeFeed_parameter]
    split_ifs <;> exact ⟨_, _, _, rfl, rfl, rfl,
      by simp [MimeType.parameter, MimeType.boundaryEnd, MimeType.unexpected],
      by simp [MimeType.parameter, MimeType.boundaryEnd, MimeType.unexpected]⟩
  | delimiterStart =>
    rw [mimeTypeFeed_delimiterStart]
    split_ifs <;> exact ⟨_, _, _, rfl, rfl, rfl,
      by simp [MimeType.delimiterStart, MimeType.unexpected],
      by simp [MimeType.delimiterStart, MimeType.unexpected]⟩
  | delimiter =>
    rw [mimeTypeFeed_delimiter]
    split_ifs <;> exact ⟨_, _, _, rfl, rfl, rfl,
      by simp [MimeType.delimiter, MimeType.delimiterEnd, MimeType.unexpected],
      by simp [MimeType.delimiter, MimeType.delimiterEnd, MimeType.unexpected]⟩
  | delimiterEnd =>
    exact ⟨_, _, _, mimeTypeFeed_delimiterEnd c, rfl, rfl, by simp [MimeType.delimiterEnd],
      by simp [MimeType.delimiterEnd]⟩
  | error =>
    exact ⟨_, _, _, mimeTypeFeed_error c, rfl, rfl, by simp [MimeType.unexpected],
      by simp [MimeType.unexpected]⟩

/-- **An octet of a content type** turns the replacement on when it completes an
entry of the list, and does nothing else to the output. -/
theorem contentTypeMsg_effect {c : Byte} (happly : ctx.mediaFilterApply = false)
    (h : contentTypeMsg env ctx c = .ok ctx') : TypeEffect ctx (TypeMatches ctx c) ctx' := by
  obtain ⟨s, e, d, hfeed, hdata, hn, hsub, hd⟩ := mimeTypeFeed_single ctx.contentType c
  rw [contentTypeMsg_single hfeed] at h
  obtain ⟨ty, data, n⟩ := e
  subst hdata hn
  -- only an octet of a subtype can complete an entry
  have hno : ty ≠ .subtype → ¬ TypeMatches ctx c := fun hty hm =>
    hty (hsub.mpr ⟨hm.1, hm.2.1⟩)
  cases ty with
  | subtype =>
    obtain rfl := hd rfl
    obtain ⟨hstate, hrest⟩ := hsub.mp rfl
    obtain ⟨ctx₁, h₁, rfl⟩ := subtypeEvent_ok h
    -- subtypes are looked at once a type of the list has been seen
    by_cases hdet : ctx.mediaTypeFilterDetected = true
    · rw [if_pos hdet] at h₁
      have hfound : TypeMatches ctx d ↔ ∃ i t s, ctx.mediaSubtypes = some i ∧
          ctx.mediaTypes[i]? = some t ∧ s ∈ t.subtypes ∧ s.completes d = true :=
        ⟨fun hm => hm.2.2.2, fun hm => ⟨hstate, hrest, hdet, hm⟩⟩
      have heff := contentSubtypeMatch_effect h₁ happly
      have heff' : TypeEffect ctx (TypeMatches ctx d) ctx₁ :=
        ⟨heff.mail, heff.encodingField, heff.apply.trans (or_congr_right hfound.symm),
          heff.replace.trans (or_congr_right hfound.symm)⟩
      split_ifs
      · exact ⟨heff'.mail, heff'.encodingField, heff'.apply, heff'.replace⟩
      · exact heff'
    · rw [if_neg hdet] at h₁
      have hno : ¬ TypeMatches ctx d := fun hm => hdet hm.2.2.1
      obtain rfl := Except.ok.inj h₁
      split_ifs <;> exact .same hno rfl rfl rfl rfl
  | type =>
    have hno := hno (by simp)
    obtain ⟨ctx₁, h₁, rfl⟩ := typeEvent_ok h
    have heff := contentTypeMatch_effect hno h₁
    exact ⟨heff.mail, heff.encodingField, heff.apply, heff.replace⟩
  | typeEnd | parameterStart | boundaryEnd | delimiterStart | unexpected =>
    obtain rfl := Except.ok.inj h
    exact .same (hno (by simp)) rfl rfl rfl rfl
  | parameter =>
    obtain rfl := Except.ok.inj h
    simp only [List.replicate, List.foldl_cons, List.foldl_nil, boundaryCharsetMatch]
    split_ifs <;> exact .same (hno (by simp)) rfl rfl rfl rfl
  | delimiter =>
    obtain rfl := Except.ok.inj h
    split_ifs <;> exact .same (hno (by simp)) rfl rfl rfl rfl
  | delimiterEnd =>
    obtain rfl := Except.ok.inj h
    split_ifs <;> exact .same (hno (by simp)) rfl rfl rfl rfl

/-- The matchers of the subtypes do not touch the output. -/
theorem feedNext_inside (c : Byte) (current : Option StringCmp) (ss : List Subtype) :
    feedNext c current ss ≠ .error .outOfBounds := by
  induction ss generalizing current with
  | nil => simp [feedNext]
  | cons s ss ih =>
    cases s with
    | wildcard => simp [feedNext, Subtype.feed]
    | named s p =>
      simp only [feedNext, Subtype.feed, ok_bind]
      exact bind_ne_error (ih _) fun _ _ => by simp

/-- Nor does the matcher of the first. -/
theorem feedSubtypes_inside (c : Byte) (ss : List Subtype) :
    feedSubtypes c ss ≠ .error .outOfBounds := by
  cases ss with
  | nil => simp [feedSubtypes]
  | cons s ss =>
    cases s with
    | wildcard => simp [feedSubtypes]
    | named s p =>
      simp only [feedSubtypes, Subtype.feed, ok_bind]
      exact bind_ne_error (feedNext_inside c _ ss) fun _ _ => by simp

/-- A content type is read without touching the output. -/
theorem contentTypeMsg_inside (env : FilterEnv) (ctx : Ctx) (c : Byte) :
    contentTypeMsg env ctx c ≠ .error .outOfBounds := by
  obtain ⟨s, e, d, hfeed, hdata, hn, -, -⟩ := mimeTypeFeed_single ctx.contentType c
  rw [contentTypeMsg_single hfeed]
  obtain ⟨ty, data, n⟩ := e
  subst hdata hn
  have hmatch : ∀ ctx₁ d, contentTypeMatch ctx₁ d ≠ .error .outOfBounds := by
    intro ctx₁ d
    rw [contentTypeMatch]
    split_ifs
    · simp
    · split <;> simp
  have hsub : ∀ ctx₁ d, contentSubtypeMatch ctx₁ d ≠ .error .outOfBounds := by
    intro ctx₁ d
    rw [contentSubtypeMatch]
    split
    · simp
    · split
      · simp
      · exact bind_ne_error (feedSubtypes_inside d _) fun _ _ => by simp
  cases ty with
  | type =>
    simp only [contentTypeEvent, List.take, List.foldlM_cons, List.foldlM_nil]
    exact bind_ne_error (bind_ne_error (hmatch _ _) fun _ _ => by simp) fun _ _ => by
      simp [pure, Except.pure]
  | subtype =>
    simp only [contentTypeEvent, List.replicate, List.foldlM_cons, List.foldlM_nil]
    split_ifs
    · exact bind_ne_error (bind_ne_error (hsub _ _) fun _ _ => by simp [pure, Except.pure])
        fun _ _ => by simp
    · simp
  | typeEnd | parameterStart | boundaryEnd | delimiterStart | unexpected | parameter | delimiter
  | delimiterEnd => simp [contentTypeEvent]

/-! ## Values -/

/-- The events of the tokenizer that carry a value carry one octet of it. -/
def ValueEvent (e : ParserEvent MimeMsgType) : Prop := e.type = .value → ∃ d, e = MimeMsg.value d

/-- The tokenizer reports values octet by octet. -/
theorem mimeMsgFeed_valueEvent (s : MimeMsgState) (c : Byte) :
    ∀ e ∈ (mimeMsgFeed s c).2, ValueEvent e := by
  have hvalue : ∀ d, ValueEvent (MimeMsg.value d) := fun d _ => ⟨d, rfl⟩
  have hvalueCr : ∀ d, ValueEvent (MimeMsg.valueCr d) := fun _ _ => ⟨CR, rfl⟩
  have hother : ∀ {e : ParserEvent MimeMsgType}, e.type ≠ .value → ValueEvent e :=
    fun h h' => absurd h' h
  refine mimeMsgFeed_of_transitions (P := fun _ es => ∀ e ∈ es, ValueEvent e) ?_
  cases s <;> simp [mimeMessageParser, hvalue, hvalueCr, hother, MimeMsg.name, MimeMsg.nameEnd,
    MimeMsg.valueFold, MimeMsg.valueFoldCrlf, MimeMsg.valueEnd, MimeMsg.bodyStart, MimeMsg.body,
    MimeMsg.bodyCrlf, MimeMsg.bodyNewline, MimeMsg.unexpected, MimeMsg.wait]

/-! ## What an event writes -/

/-- The octet of the value completes an entry of the list. -/
def Completes (ctx : Ctx) (e : ParserEvent MimeMsgType) : Prop :=
  ctx.msgContentTypeFieldDetected = some true ∧ ctx.mediaFilterApply = false ∧
    TypeMatches ctx (e.octet 0)

/-- The octet belongs to a `Content-Transfer-Encoding` that is replaced. -/
def Dropped (ctx : Ctx) (e : ParserEvent MimeMsgType) : Prop :=
  ctx.msgContentTransferEncodingFieldDetected = some true ∧
    (ctx.mediaFilterApply = true ∨ Completes ctx e)

/-- The cursor goes back, and the type is replaced. -/
def Rewrites (ctx : Ctx) (e : ParserEvent MimeMsgType) : Prop :=
  e.type = .value ∧ ¬ Dropped ctx e ∧ (ctx.replaceContentType = true ∨ Completes ctx e)

instance (ctx : Ctx) (e : ParserEvent MimeMsgType) : Decidable (Completes ctx e) :=
  inferInstanceAs (Decidable (_ ∧ _ ∧ _))

instance (ctx : Ctx) (e : ParserEvent MimeMsgType) : Decidable (Dropped ctx e) :=
  inferInstanceAs (Decidable (_ ∧ (_ ∨ _)))

instance (ctx : Ctx) (e : ParserEvent MimeMsgType) : Decidable (Rewrites ctx e) :=
  inferInstanceAs (Decidable (_ ∧ _ ∧ (_ ∨ _)))

/-- The octets behind the last space. -/
def Ctx.word (ctx : Ctx) : List Byte := ctx.mail.left.takeWhile (· ≠ SP)

/-- The text that replaces a filtered body, with the empty line behind it. -/
def replacementText (env : FilterEnv) : List Byte :=
  cstr (env.filterMsg.getD (ascii "MENSAJE DE REEMPLAZO")) ++ CRLF ++ CRLF

/-- What the boundary between parts writes when it ends a filtered part. -/
def partText (env : FilterEnv) (ctx : Ctx) : List Byte :=
  match ctx.boundryStack with
  | [] => []
  | top :: _ =>
    if ctx.doubleMiddleDash ∧ ¬ ctx.boundaryEnd ∧ ctx.mediaFilterApply ∧
        listIs ctx.possibleBoundaryString (env.behind ctx.strings) top then
      [DASH, DASH] ++ ctx.possibleBoundaryString ++ [LF]
    else []

/-- What the boundary behind the last part writes, when `strings` were asked for. -/
def lastText (env : FilterEnv) (strings : ℕ) (ctx : Ctx) : List Byte :=
  match ctx.boundryStack with
  | [] => []
  | top :: _ =>
    if ctx.boundaryEnd ∧ listEndIs ctx.possibleBoundaryString (env.behind strings) top then
      (if ctx.mediaFilterApply then [DASH, DASH] ++ ctx.possibleBoundaryString else []) ++ [LF]
    else []

/-- What an event that does not rewrite writes. -/
def writtenBy (env : FilterEnv) (ctx : Ctx) (e : ParserEvent MimeMsgType) : List Byte :=
  match e.type with
  | .value => if Dropped ctx e then [] else [e.octet 0]
  | .valueEnd => []
  | .nameEnd =>
    [e.octet 0] ++ if ctx.msgContentTransferEncodingFieldDetected = some true ∧
      ctx.mediaFilterApply then ascii " 8BIT" else []
  | .bodyStart =>
    if ctx.rfc822Detected then []
    else [e.octet 0, e.octet 1] ++ if ctx.mediaFilterApply then replacementText env else []
  | .body | .bodyCr => if ctx.mediaFilterApply then [] else [e.octet 0]
  | .bodyNewline =>
    (if ctx.mediaFilterApply then [] else [e.octet 0]) ++ partText env ctx ++
      lastText env (if ctx.doubleMiddleDash then ctx.strings + 1 else ctx.strings) ctx
  | .name | .wait | .unexpected | .valueFold => [e.octet 0]

/-- An octet of a value is written, unless the field is dropped. -/
theorem writtenBy_value (env : FilterEnv) (ctx : Ctx) (d : Byte) :
    writtenBy env ctx (MimeMsg.value d) = if Dropped ctx (MimeMsg.value d) then [] else [d] := rfl

/-- **The value of a field**, once the content type has been looked at. -/
theorem msgValue_typed (env : FilterEnv) (ctx : Ctx) (d : Byte) :
    (∃ ctx₁, TypeEffect ctx (Completes ctx (MimeMsg.value d)) ctx₁ ∧
      msgValue env ctx (MimeMsg.value d) =
        if Dropped ctx (MimeMsg.value d) then .ok ctx₁ else writeValue ctx₁ d) ∨
    ∃ f, f ≠ .outOfBounds ∧ msgValue env ctx (MimeMsg.value d) = .error f := by
  have hwrite : ∀ ctx₁, TypeEffect ctx (Completes ctx (MimeMsg.value d)) ctx₁ →
      (if ctx₁.msgContentTransferEncodingFieldDetected = some true ∧ ctx₁.mediaFilterApply = true
        then Except.ok ctx₁ else writeValue ctx₁ d) =
      if Dropped ctx (MimeMsg.value d) then .ok ctx₁ else writeValue ctx₁ d := by
    intro ctx₁ heff
    have hdropped : Dropped ctx (MimeMsg.value d) ↔
        ctx₁.msgContentTransferEncodingFieldDetected = some true ∧
        ctx₁.mediaFilterApply = true := by
      rw [Dropped, heff.encodingField, heff.apply]
    simp only [hdropped]
  have hvalue : msgValue env ctx (MimeMsg.value d) =
      (if ctx.msgContentTypeFieldDetected = some true ∧ ¬ ctx.mediaFilterApply = true
        then contentTypeMsg env ctx d else .ok ctx) >>= fun ctx₁ =>
      if ctx₁.msgContentTransferEncodingFieldDetected = some true ∧ ctx₁.mediaFilterApply = true
        then Except.ok ctx₁ else writeValue ctx₁ d := by
    rw [msgValue]
    split_ifs
    · rw [← bind_pure (contentTypeMsg env ctx d)]
      rfl
    · rfl
  rw [hvalue]
  by_cases hd : ctx.msgContentTypeFieldDetected = some true ∧ ¬ ctx.mediaFilterApply = true
  · rw [if_pos hd]
    have happly : ctx.mediaFilterApply = false := by simpa using hd.2
    have hcompletes : Completes ctx (MimeMsg.value d) ↔ TypeMatches ctx d :=
      ⟨fun hm => hm.2.2, fun hm => ⟨hd.1, happly, hm⟩⟩
    cases hres : contentTypeMsg env ctx d with
    | error f =>
      refine .inr ⟨f, fun hf => contentTypeMsg_inside env ctx d (hf ▸ hres), ?_⟩
      rfl
    | ok ctx₁ =>
      have heff := contentTypeMsg_effect happly hres
      rw [← hcompletes] at heff
      exact .inl ⟨ctx₁, heff, hwrite ctx₁ heff⟩
  · rw [if_neg hd]
    have heff : TypeEffect ctx (Completes ctx (MimeMsg.value d)) ctx :=
      .same (fun hm => hd ⟨hm.1, by simp [hm.2.1]⟩) rfl rfl rfl rfl
    exact .inl ⟨ctx, heff, hwrite ctx heff⟩

/-- The value goes on, or the cursor goes back. -/
theorem msgValue_mail {d : Byte} (h : msgValue env ctx (MimeMsg.value d) = .ok ctx') :
    (¬ Rewrites ctx (MimeMsg.value d) →
      ctx'.mail = ctx.mail.writeAll (writtenBy env ctx (MimeMsg.value d))) ∧
    (Rewrites ctx (MimeMsg.value d) → ∃ t,
      Tape.seek 0 (· == SP) ctx.mail.left ctx.mail.right = some t ∧
        ctx'.mail = t.writeAll (ascii " text/plain")) := by
  obtain ⟨ctx₁, heff, hres⟩ | ⟨f, -, hres⟩ := msgValue_typed env ctx d
  · rw [hres] at h
    have hrewrites : Rewrites ctx (MimeMsg.value d) ↔
        ¬ Dropped ctx (MimeMsg.value d) ∧ ctx₁.replaceContentType = true := by
      rw [Rewrites, heff.replace]
      exact and_iff_right rfl
    rw [writtenBy_value, ← heff.mail]
    split_ifs at h ⊢ with hdrop
    · obtain rfl := Except.ok.inj h
      exact ⟨fun _ => rfl, fun hr => absurd hdrop (hrewrites.mp hr).1⟩
    · rw [writeValue] at h
      split_ifs at h with hr
      · split at h
        · simp at h
        · rename_i t ht
          obtain rfl := Except.ok.inj h
          exact ⟨fun hno => absurd (hrewrites.mpr ⟨hdrop, hr⟩) hno, fun _ => ⟨t, ht, rfl⟩⟩
      · obtain rfl := Except.ok.inj h
        exact ⟨fun _ => rfl, fun hr' => absurd (hrewrites.mp hr').2 hr⟩
  · rw [hres] at h
    cases h

/-- The cursor is lost when there is no space to go back to. -/
theorem msgValue_outOfBounds {d : Byte}
    (h : msgValue env ctx (MimeMsg.value d) = .error .outOfBounds) :
    Rewrites ctx (MimeMsg.value d) ∧
      Tape.seek 0 (· == SP) ctx.mail.left ctx.mail.right = none := by
  obtain ⟨ctx₁, heff, hres⟩ | ⟨f, hf, hres⟩ := msgValue_typed env ctx d
  · rw [hres] at h
    rw [← heff.mail]
    split_ifs at h with hdrop
    rw [writeValue] at h
    split_ifs at h with hr
    split at h
    · rename_i ht
      exact ⟨⟨rfl, hdrop, heff.replace.mp hr⟩, ht⟩
    · simp at h
  · rw [hres] at h
    exact absurd (Except.error.inj h) hf

/-- A comparison with the top of the stack takes a string of memory and changes nothing else. -/
theorem peekIs_eq {same : List Byte → List Byte → Bool} {b : Bool}
    (h : peekIs ctx same env = .ok (b, ctx')) : ∃ top rest, ctx.boundryStack = top :: rest ∧
      b = same (env.behind ctx.strings) top ∧ ctx' = { ctx with strings := ctx.strings + 1 } := by
  rw [peekIs] at h
  split at h
  · simp at h
  · rename_i top rest hstack
    simp only [Except.ok.injEq, Prod.mk.injEq] at h
    exact ⟨top, rest, hstack, h.1.symm, h.2.symm⟩

/-- Two texts are written one after the other. -/
theorem writeAll_append (us vs : List Byte) (t : Tape Byte) :
    t.writeAll (us ++ vs) = (t.writeAll us).writeAll vs := List.foldl_append

/-- Resetting the matchers leaves the output and the stack alone. -/
theorem resetParserTypesAndSubtypes_mail (h : resetParserTypesAndSubtypes ctx = .ok ctx') :
    ctx'.mail = ctx.mail ∧ ctx'.boundryStack = ctx.boundryStack ∧
      ctx'.boundaryEnd = ctx.boundaryEnd := by
  rw [resetParserTypesAndSubtypes] at h
  split_ifs at h
  obtain rfl := Except.ok.inj h
  exact ⟨rfl, rfl, rfl⟩

/-- The boundary between parts is written when it ends a filtered part. -/
theorem boundaryFound_mail (h : boundaryFound ctx = .ok ctx') :
    ctx'.mail = ctx.mail.writeAll (if ctx.mediaFilterApply then
        [DASH, DASH] ++ ctx.possibleBoundaryString ++ [LF] else []) ∧
      ctx'.boundryStack = ctx.boundryStack ∧ ctx'.boundaryEnd = ctx.boundaryEnd := by
  rw [boundaryFound] at h
  obtain ⟨hmail, hstack, hend⟩ := resetParserTypesAndSubtypes_mail h
  split_ifs at hmail hstack hend ⊢ with happly
  · exact ⟨hmail, hstack, hend⟩
  · exact ⟨hmail, hstack, hend⟩

/-- The comparison with the boundary between parts.  A line that may be the last
boundary is only looked at. -/
theorem partBoundary_mail (h : partBoundary env ctx = .ok ctx') :
    ctx'.mail = ctx.mail.writeAll (partText env ctx) ∧ ctx'.boundryStack = ctx.boundryStack ∧
      ctx'.boundaryEnd = ctx.boundaryEnd ∧
      (ctx.boundaryEnd = true → ctx'.mediaFilterApply = ctx.mediaFilterApply ∧
        ctx'.possibleBoundaryString = ctx.possibleBoundaryString ∧
        ctx'.strings = if ctx.doubleMiddleDash then ctx.strings + 1 else ctx.strings) := by
  rw [partBoundary] at h
  split_ifs at h with hdash
  · obtain ⟨⟨b, ctx₁⟩, hpeek, h⟩ := bind_eq_ok.mp h
    obtain ⟨top, rest, hstack, hb, rfl⟩ := peekIs_eq hpeek
    simp only [Bool.and_eq_true, Bool.not_eq_true'] at h
    split_ifs at h with hfound
    · obtain ⟨rfl, hend⟩ := hfound
      obtain ⟨hmail, hstack', hend'⟩ := boundaryFound_mail h
      refine ⟨?_, hstack', hend', fun ht => absurd (hend.symm.trans ht) (by simp)⟩
      rw [hmail, partText, hstack]
      simp [hdash, hend, ← hb]
    · obtain rfl := Except.ok.inj h
      refine ⟨?_, rfl, rfl, fun _ => ⟨rfl, rfl, by rw [if_pos hdash]⟩⟩
      have hnil : partText env ctx = [] := by
        rw [partText, hstack]
        simp only
        rw [if_neg]
        rintro ⟨-, hend, -, hlist⟩
        exact hfound ⟨hb.trans hlist, by simpa using hend⟩
      rw [hnil]
      rfl
  · obtain rfl := Except.ok.inj h
    have hnil : partText env ctx = [] := by
      rw [partText]
      split
      · rfl
      · rw [if_neg fun hd => hdash hd.1]
    exact ⟨by rw [hnil]; rfl, rfl, rfl, fun _ => ⟨rfl, rfl, by rw [if_neg hdash]⟩⟩

/-- The comparison with the boundary behind the last part. -/
theorem lastBoundary_mail (h : lastBoundary env ctx = .ok ctx') :
    ctx'.mail = ctx.mail.writeAll (lastText env ctx.strings ctx) := by
  rw [lastBoundary] at h
  split_ifs at h with hend
  · obtain ⟨⟨b, ctx₁⟩, hpeek, h⟩ := bind_eq_ok.mp h
    obtain ⟨top, rest, hstack, hb, rfl⟩ := peekIs_eq hpeek
    obtain rfl := Except.ok.inj h
    simp only [lastText, hstack, hend, true_and, ← hb]
    cases b with
    | false => rfl
    | true =>
      rw [if_pos rfl, if_pos rfl, boundaryEndFound, writeAll_append]
      split_ifs <;> rfl
  · obtain rfl := Except.ok.inj h
    have hnil : lastText env ctx.strings ctx = [] := by
      rw [lastText]
      split
      · rfl
      · rw [if_neg fun hd => hend hd.1]
    rw [hnil]
    rfl

/-- The end of a line of the body. -/
theorem msgBodyNewline_mail {e : ParserEvent MimeMsgType}
    (h : msgBodyNewline env ctx e = .ok ctx') :
    ctx'.mail = ctx.mail.writeAll ((if ctx.mediaFilterApply then [] else [e.octet 0]) ++
      partText env ctx ++
      lastText env (if ctx.doubleMiddleDash then ctx.strings + 1 else ctx.strings) ctx) := by
  rw [msgBodyNewline] at h
  obtain ⟨ctx₁, h₁, h⟩ := bind_eq_ok.mp h
  obtain ⟨ctx₂, h₂, h⟩ := bind_eq_ok.mp h
  obtain rfl := Except.ok.inj h
  obtain ⟨hmail, hstack, hend, hlast⟩ := partBoundary_mail h₁
  have hmail₂ := lastBoundary_mail h₂
  have hcopy : ∀ ctx₀, ctx₀ = (if ctx.mediaFilterApply = true then ctx else ctx.emit (e.octet 0)) →
      ctx₀.mail = ctx.mail.writeAll (if ctx.mediaFilterApply then [] else [e.octet 0]) ∧
        partText env ctx₀ = partText env ctx ∧ ctx₀.boundryStack = ctx.boundryStack ∧
        ctx₀.boundaryEnd = ctx.boundaryEnd ∧ ctx₀.mediaFilterApply = ctx.mediaFilterApply ∧
        ctx₀.possibleBoundaryString = ctx.possibleBoundaryString ∧
        ctx₀.doubleMiddleDash = ctx.doubleMiddleDash ∧ ctx₀.strings = ctx.strings := by
    rintro ctx₀ rfl
    split_ifs <;> exact ⟨rfl, rfl, rfl, rfl, rfl, rfl, rfl, rfl⟩
  obtain ⟨hmail₀, hpart, hstack₀, hend₀, happly₀, hline₀, hdash₀, hstrings₀⟩ := hcopy _ rfl
  rw [hmail₀, hpart] at hmail
  have hlast' : lastText env ctx₁.strings ctx₁ =
      lastText env (if ctx.doubleMiddleDash then ctx.strings + 1 else ctx.strings) ctx := by
    rw [hend₀] at hend
    rw [lastText, lastText, hstack, hstack₀, hend]
    by_cases he : ctx.boundaryEnd = true
    · obtain ⟨happly, hline, hstrings⟩ := hlast (hend₀.trans he)
      rw [happly, hline, hstrings, happly₀, hline₀, hdash₀, hstrings₀]
    · simp only [he, Bool.false_eq_true, false_and, if_false]
  show ctx₂.mail = _
  rw [hmail₂, hmail, hlast', writeAll_append, writeAll_append]

/-- The name of a field. -/
theorem msgName_mail (ctx : Ctx) (e : ParserEvent MimeMsgType) :
    (msgName ctx e).mail = ctx.mail.write (e.octet 0) := by
  obtain ⟨p, flag, p', flag', hname⟩ := msgName_frame ctx e
  rw [hname]

/-- **What an event does to the output.** -/
theorem mimeMsgEvent_mail {e : ParserEvent MimeMsgType}
    (he : ValueEvent e) (h : mimeMsgEvent env ctx e = .ok ctx') :
    (¬ Rewrites ctx e → ctx'.mail = ctx.mail.writeAll (writtenBy env ctx e)) ∧
    (Rewrites ctx e → ∃ t, Tape.seek 0 (· == SP) ctx.mail.left ctx.mail.right = some t ∧
      ctx'.mail = t.writeAll (ascii " text/plain")) := by
  by_cases hv : e.type = .value
  · obtain ⟨d, rfl⟩ := he hv
    exact msgValue_mail h
  -- only values are replaced, so every other event writes and no more
  refine ⟨fun _ => ?_, fun hr => absurd hr.1 hv⟩
  obtain ⟨ty, data, n⟩ := e
  cases ty with
  | value => exact absurd rfl hv
  | name =>
    obtain rfl := Except.ok.inj h
    exact msgName_mail ctx _
  | nameEnd =>
    obtain rfl := Except.ok.inj h
    simp only [msgNameEnd, writtenBy]
    split_ifs with h₁ h₂ h₂
    · rfl
    · exact absurd h₁ h₂
    · exact absurd h₂ h₁
    · rfl
  | valueEnd =>
    obtain rfl := Except.ok.inj h
    rfl
  | bodyStart =>
    obtain rfl := Except.ok.inj h
    simp only [msgBodyStart, writtenBy]
    split_ifs with h₁ h₂ h₃ h₃
    · rfl
    · simp only [printFilterMsg, Ctx.insertText, replacementText, Ctx.emit, writeAll_append]
      rfl
    · exact absurd h₂ h₃
    · exact absurd h₃ h₂
    · rfl
  | body =>
    obtain rfl := Except.ok.inj h
    have hline : ∀ ctx₁ : Ctx, ∀ c, (boundaryLine (dashSeen ctx₁ c) c).mail = ctx₁.mail := by
      intro ctx₁ c
      obtain ⟨dd, pb, be, l, heq⟩ := boundaryLine_dashSeen ctx₁ c
      rw [heq]
    simp only [msgBody, writtenBy, hline]
    split_ifs <;> rfl
  | bodyCr =>
    obtain rfl := Except.ok.inj h
    simp only [msgBodyCr, writtenBy]
    split_ifs <;> rfl
  | bodyNewline => exact msgBodyNewline_mail h
  | wait | unexpected | valueFold =>
    obtain rfl := Except.ok.inj h
    rfl

/-! ## When the cursor leaves the array at its start -/

/-- The end of a line stays inside the array. -/
theorem msgBodyNewline_inside (env : FilterEnv) (ctx : Ctx) (e : ParserEvent MimeMsgType) :
    msgBodyNewline env ctx e ≠ .error .outOfBounds := by
  have hpeek : ∀ ctx₁ same, peekIs ctx₁ same env ≠ .error .outOfBounds := by
    intro ctx₁ same
    rw [peekIs]
    split <;> simp
  have hreset : ∀ ctx₁, resetParserTypesAndSubtypes ctx₁ ≠ .error .outOfBounds := by
    intro ctx₁
    rw [resetParserTypesAndSubtypes]
    split_ifs <;> simp
  have hpart : ∀ ctx₁, partBoundary env ctx₁ ≠ .error .outOfBounds := by
    intro ctx₁
    rw [partBoundary]
    split_ifs
    · refine bind_ne_error (hpeek _ _) fun p _ => ?_
      split_ifs
      · exact hreset _
      · simp
    · simp
  have hlast : ∀ ctx₁, lastBoundary env ctx₁ ≠ .error .outOfBounds := by
    intro ctx₁
    rw [lastBoundary]
    split_ifs
    · exact bind_ne_error (hpeek _ _) fun p _ => by simp
    · simp
  exact bind_ne_error (hpart _) fun _ _ => bind_ne_error (hlast _) fun _ _ => by simp

/-- **Only a rewritten value** takes the cursor back, and only there can it be lost. -/
theorem mimeMsgEvent_outOfBounds {e : ParserEvent MimeMsgType}
    (he : ValueEvent e)
    (h : mimeMsgEvent env ctx e = .error .outOfBounds) :
    Rewrites ctx e ∧ Tape.seek 0 (· == SP) ctx.mail.left ctx.mail.right = none := by
  by_cases hv : e.type = .value
  · obtain ⟨d, rfl⟩ := he hv
    exact msgValue_outOfBounds h
  · obtain ⟨ty, data, n⟩ := e
    cases ty with
    | value => exact absurd rfl hv
    | bodyNewline => exact absurd h (msgBodyNewline_inside env ctx _)
    | name | nameEnd | valueEnd | bodyStart | body | bodyCr | wait | unexpected | valueFold =>
      simp [mimeMsgEvent] at h

end

end Pop3Proxy
