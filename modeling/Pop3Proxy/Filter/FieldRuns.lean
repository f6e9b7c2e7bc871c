/-
# Running over a header

What `mime_msg` makes of the name of a field, of its value, and of a whole field that is not
a content type it still has to decide on: what it writes, and in which state it stands in front
of the next field.
-/
import Pop3Proxy.Filter.Listed
import Pop3Proxy.Filter.Restart
import Pop3Proxy.Filter.ValueText

namespace Pop3Proxy

/-! ## What is left alone -/

/-- What the names of fields, and octets that are copied, have nothing to do with. -/
structure TypeSide where
  contentType : MimeTypeState
  mediaTypes : List TypeList
  mediaFilterApply : Bool
  messageDetected : Bool
  rfc822Detected : Bool
  replaceContentType : Bool

/-- This side of a context. -/
def Ctx.typeSide (ctx : Ctx) : TypeSide where
  contentType := ctx.contentType
  mediaTypes := ctx.mediaTypes
  mediaFilterApply := ctx.mediaFilterApply
  messageDetected := ctx.messageDetected
  rfc822Detected := ctx.rfc822Detected
  replaceContentType := ctx.replaceContentType

/-- The value is dropped: it is the encoding of a part that is filtered. -/
def Ctx.drops (ctx : Ctx) : Bool :=
  ctx.msgContentTransferEncodingFieldDetected = some true ∧ ctx.mediaFilterApply = true

/-- No octet of the value can decide on the type any more. -/
def Ctx.Decided (ctx : Ctx) : Prop :=
  ctx.msgContentTypeFieldDetected = some true →
    ctx.mediaFilterApply = true ∨ ctx.contentType.past

/-- What octets of a value leave when nothing is to be decided. -/
structure Undecided (ctx ctx' : Ctx) : Prop where
  decided : ctx'.Decided
  typeName : ctx'.typeName = ctx.typeName
  encodingName : ctx'.encodingName = ctx.encodingName
  apply : ctx'.mediaFilterApply = ctx.mediaFilterApply
  replace : ctx'.replaceContentType = ctx.replaceContentType
  rfc822Detected : ctx'.rfc822Detected = ctx.rfc822Detected
  side : ctx.msgContentTypeFieldDetected ≠ some true → ctx'.typeSide = ctx.typeSide

section
variable {env : FilterEnv} {ctx ctx' ctx'' : Ctx} {c : Byte}

/-- No octets change nothing. -/
theorem Undecided.refl (h : ctx.Decided) : Undecided ctx ctx :=
  ⟨h, rfl, rfl, rfl, rfl, rfl, fun _ => rfl⟩

/-- Octets that decide nothing, one piece behind the other. -/
theorem Undecided.trans (h : Undecided ctx ctx') (h' : Undecided ctx' ctx'') :
    Undecided ctx ctx'' where
  decided := h'.decided
  typeName := h'.typeName.trans h.typeName
  encodingName := h'.encodingName.trans h.encodingName
  apply := h'.apply.trans h.apply
  replace := h'.replace.trans h.replace
  rfc822Detected := h'.rfc822Detected.trans h.rfc822Detected
  side htyped := by
    have htyped' : ctx'.msgContentTypeFieldDetected ≠ some true := by
      rw [show ctx'.msgContentTypeFieldDetected = _ from congrArg Prod.snd h.typeName]
      exact htyped
    exact (h'.side htyped').trans (h.side htyped)

/-- Whether the value is dropped does not change. -/
theorem Undecided.drops (h : Undecided ctx ctx') : ctx'.drops = ctx.drops := by
  have hencoding : ctx'.msgContentTransferEncodingFieldDetected =
      ctx.msgContentTransferEncodingFieldDetected := congrArg Prod.snd h.encodingName
  rw [Ctx.drops, Ctx.drops, hencoding, h.apply]

/-! ## Values -/

/-- The octet of a value decides nothing, and no later one does. -/
def Ctx.Closes (ctx : Ctx) (c : Byte) : Prop :=
  ctx.msgContentTypeFieldDetected = some true →
    ctx.mediaFilterApply = true ∨ (mimeTypeFeed ctx.contentType c).1.past

/-- Where everything is decided no octet decides. -/
theorem Ctx.Decided.closes (h : ctx.Decided) (c : Byte) : ctx.Closes c := by
  intro htyped
  rcases h htyped with happly | hpast
  · exact Or.inl happly
  · obtain ⟨s, e, hfeed, hs, -⟩ := past_mimeTypeFeed hpast c
    rw [hfeed]
    exact Or.inr hs

/-- An event that leads past the type and the subtype belongs to neither. -/
theorem event_past {p s : MimeTypeState} {e : ParserEvent MimeTypeType}
    (hfeed : mimeTypeFeed p c = (s, [e])) (hs : s.past) : e.type ≠ .type ∧ e.type ≠ .subtype := by
  by_cases hp : p.past
  · obtain ⟨s', e', hfeed', -, he, he'⟩ := past_mimeTypeFeed hp c
    obtain ⟨-, rfl⟩ : s' = s ∧ e' = e := by simpa using hfeed'.symm.trans hfeed
    exact ⟨he, he'⟩
  obtain ⟨h0, h1, h2⟩ := hs
  cases p with
  | type0 =>
    rw [mimeTypeFeed_type0] at hfeed
    split_ifs at hfeed <;> obtain ⟨rfl, rfl⟩ := by simpa using hfeed
    · exact absurd rfl h1
    · exact ⟨nofun, nofun⟩
  | type =>
    rw [mimeTypeFeed_type] at hfeed
    split_ifs at hfeed <;> obtain ⟨rfl, rfl⟩ := by simpa using hfeed
    · exact absurd rfl h2
    · exact absurd rfl h1
    · exact ⟨nofun, nofun⟩
  | subtype =>
    rw [mimeTypeFeed_subtype] at hfeed
    split_ifs at hfeed <;> obtain ⟨rfl, rfl⟩ := by simpa using hfeed
    · exact ⟨nofun, nofun⟩
    · exact absurd rfl h2
    · exact ⟨nofun, nofun⟩
  | parameter | delimiterStart | delimiter | delimiterEnd | error =>
    exact absurd ⟨nofun, nofun, nofun⟩ hp

/-- Past the type and the subtype an octet decides nothing. -/
theorem contentTypeMsg_past (env : FilterEnv) (hpast : (mimeTypeFeed ctx.contentType c).1.past) :
    ∃ ctx₁, contentTypeMsg env ctx c = .ok ctx₁ ∧ ctx₁.contentType.past ∧
      ctx₁.mediaFilterApply = ctx.mediaFilterApply ∧
      ctx₁.replaceContentType = ctx.replaceContentType ∧
      ctx₁.rfc822Detected = ctx.rfc822Detected := by
  obtain ⟨s, e, d, hfeed, -⟩ := mimeTypeFeed_single ctx.contentType c
  rw [hfeed] at hpast
  obtain ⟨he, he'⟩ := event_past hfeed hpast
  obtain ⟨ctx₁, h₁, happly, hreplace, hstate, hrfc822⟩ :=
    contentTypeEvent_past env { ctx with contentType := s } he he'
  refine ⟨ctx₁, ?_, ?_, happly, hreplace, hrfc822⟩
  · rw [contentTypeMsg_single hfeed, h₁]
  · rw [hstate]
    exact hpast

/-- An octet of a value is fed to the content type first, and then dropped or written. -/
theorem msgValue_eq (env : FilterEnv) (ctx : Ctx) (c : Byte) : msgValue env ctx (MimeMsg.value c) =
    (if ctx.msgContentTypeFieldDetected = some true ∧ ¬ ctx.mediaFilterApply = true
      then contentTypeMsg env ctx c else .ok ctx) >>= fun ctx₁ =>
    if ctx₁.drops then .ok ctx₁ else writeValue ctx₁ c := by
  have hdrops (ctx₁ : Ctx) : (if ctx₁.drops then Except.ok ctx₁ else writeValue ctx₁ c) =
      if ctx₁.msgContentTransferEncodingFieldDetected = some true ∧ ctx₁.mediaFilterApply = true
        then Except.ok ctx₁ else writeValue ctx₁ c := by
    simp [Ctx.drops]
  simp only [hdrops]
  rw [msgValue]
  split_ifs
  · rw [← bind_pure (contentTypeMsg env ctx c)]
    rfl
  · rfl

/-- **An octet of a value** is written or dropped. -/
theorem msgValue_undecided (env : FilterEnv) (hcloses : ctx.Closes c)
    (hreplace : ctx.replaceContentType = false) :
    ∃ ctx', msgValue env ctx (MimeMsg.value c) = .ok ctx' ∧ ctx'.msg = ctx.msg ∧
      ctx'.mail = ctx.mail.writeAll (shown ctx.drops (MimeMsg.value c)) ∧ Undecided ctx ctx' := by
  -- the content type is not asked, or it is led past everything that matters
  have htype : ∃ ctx₁, (if ctx.msgContentTypeFieldDetected = some true ∧
        ¬ ctx.mediaFilterApply = true then contentTypeMsg env ctx c else .ok ctx) = .ok ctx₁ ∧
      ctx₁.msg = ctx.msg ∧ ctx₁.mail = ctx.mail ∧ Undecided ctx ctx₁ := by
    by_cases hasked : ctx.msgContentTypeFieldDetected = some true ∧ ¬ ctx.mediaFilterApply = true
    · rw [if_pos hasked]
      obtain ⟨ctx₁, h₁, hpast, happly, hrep, hrfc822⟩ :=
        contentTypeMsg_past env ((hcloses hasked.1).resolve_left hasked.2)
      obtain ⟨-, hsurr⟩ := contentTypeMsg_watcher h₁
      obtain ⟨htype, hencoding⟩ := contentTypeMsg_names h₁
      refine ⟨ctx₁, h₁, congrArg Surroundings.msg hsurr, congrArg Surroundings.mail hsurr, ?_⟩
      exact ⟨fun _ => Or.inr hpast, htype, hencoding, happly, hrep, hrfc822,
        fun hnot => absurd hasked.1 hnot⟩
    · rw [if_neg hasked]
      refine ⟨ctx, rfl, rfl, rfl, Undecided.refl fun htyped => Or.inl ?_⟩
      by_contra happly
      exact hasked ⟨htyped, happly⟩
  obtain ⟨ctx₁, h₁, hmsg, hmail, hund⟩ := htype
  rw [msgValue_eq, h₁, ok_bind, ← hund.drops, ← hmail]
  by_cases hdrops : ctx₁.drops = true
  · rw [if_pos hdrops, hdrops]
    exact ⟨ctx₁, rfl, hmsg, rfl, hund⟩
  · rw [if_neg hdrops, writeValue, if_neg (by simp [hund.replace, hreplace])]
    refine ⟨_, rfl, hmsg, ?_, hund.trans ?_⟩
    · rw [show ctx₁.drops = false by simpa using hdrops]
      rfl
    · exact ⟨hund.decided, rfl, rfl, rfl, rfl, rfl, fun _ => rfl⟩

/-- An event of a value. -/
theorem mimeMsgEvent_undecided (env : FilterEnv) (hdec : ctx.Decided)
    (hreplace : ctx.replaceContentType = false) {e : ParserEvent MimeMsgType} (he : e.inValue)
    (he' : ValueEvent e) :
    ∃ ctx', mimeMsgEvent env ctx e = .ok ctx' ∧ ctx'.msg = ctx.msg ∧
      ctx'.mail = ctx.mail.writeAll (shown ctx.drops e) ∧ Undecided ctx ctx' := by
  have hcopied (hne : e.type ≠ .value) (hev : mimeMsgEvent env ctx e = .ok (ctx.emit (e.octet 0))) :
      ∃ ctx', mimeMsgEvent env ctx e = .ok ctx' ∧ ctx'.msg = ctx.msg ∧
        ctx'.mail = ctx.mail.writeAll (shown ctx.drops e) ∧ Undecided ctx ctx' := by
    refine ⟨_, hev, rfl, ?_, ⟨hdec, rfl, rfl, rfl, rfl, rfl, fun _ => rfl⟩⟩
    rw [shown, if_neg fun hboth => hne hboth.2]
    rfl
  obtain ⟨ty, data, n⟩ := e
  rcases he with hty | hty | hty
  · obtain ⟨d, hd⟩ := he' hty
    rw [hd]
    exact msgValue_undecided env (hdec.closes d) hreplace
  · obtain rfl : ty = .valueFold := hty
    exact hcopied (by simp) rfl
  · obtain rfl : ty = .wait := hty
    exact hcopied (by simp) rfl

/-- The events of an octet of a value. -/
theorem foldlM_undecided (env : FilterEnv) (hdec : ctx.Decided)
    (hreplace : ctx.replaceContentType = false) {es : List (ParserEvent MimeMsgType)}
    (hes : ∀ e ∈ es, e.inValue ∧ ValueEvent e) :
    ∃ ctx', es.foldlM (mimeMsgEvent env) ctx = .ok ctx' ∧ ctx'.msg = ctx.msg ∧
      ctx'.mail = ctx.mail.writeAll (es.flatMap (shown ctx.drops)) ∧ Undecided ctx ctx' := by
  induction es generalizing ctx with
  | nil => exact ⟨ctx, rfl, rfl, rfl, Undecided.refl hdec⟩
  | cons e es ih =>
    obtain ⟨he, he'⟩ := hes e (by simp)
    obtain ⟨ctx₁, h₁, hmsg, hmail, hund⟩ := mimeMsgEvent_undecided env hdec hreplace he he'
    obtain ⟨ctx₂, h₂, hmsg', hmail', hund'⟩ := ih hund.decided (hund.replace.trans hreplace)
      fun e' he' => hes e' (by simp [he'])
    refine ⟨ctx₂, ?_, hmsg'.trans hmsg, ?_, hund.trans hund'⟩
    · rw [List.foldlM_cons, h₁, ok_bind, h₂]
    · rw [hmail', hmail, hund.drops, List.flatMap_cons, writeAll_append]

/-- **Octets of a value**, one after the other. -/
theorem ValueRead.run (env : FilterEnv) (hdec : ctx.Decided)
    (hreplace : ctx.replaceContentType = false) {bs out : List Byte} {s : MimeMsgState}
    (h : ValueRead ctx.drops ctx.msg bs out s) :
    ∃ ctx', mailRun env ctx bs = .ok ctx' ∧ ctx'.msg = s ∧ ctx'.mail = ctx.mail.writeAll out ∧
      Undecided ctx ctx' := by
  induction bs generalizing ctx out with
  | nil =>
    obtain rfl := h.out
    obtain rfl := h.state
    exact ⟨ctx, rfl, rfl, rfl, Undecided.refl hdec⟩
  | cons c bs ih =>
    obtain ⟨hes, honly⟩ := onlyValue_cons.mp h.only
    have hdec' : ({ ctx with msg := (mimeMsgFeed ctx.msg c).1 } : Ctx).Decided := hdec
    obtain ⟨ctx₁, h₁, hmsg, hmail, hund⟩ := foldlM_undecided env hdec' hreplace
      fun e he => ⟨hes e he, mimeMsgFeed_valueEvent ctx.msg c e he⟩
    have hdrops : ctx₁.drops = ctx.drops := hund.drops
    have hmsg' : ctx₁.msg = (mimeMsgFeed ctx.msg c).1 := hmsg
    have hrest : ValueRead ctx₁.drops ctx₁.msg bs (valueOut ctx₁.drops ctx₁.msg bs) s := by
      refine ⟨?_, rfl, ?_⟩
      · rw [hmsg']
        exact honly
      · rw [hmsg']
        exact h.state
    obtain ⟨ctx', hrun, hs, hmail', hund'⟩ := ih hund.decided (hund.replace.trans hreplace) hrest
    refine ⟨ctx', ?_, hs, ?_, ?_⟩
    · rw [mailRun_cons, mimeMsg, h₁, ok_bind, hrun]
    · rw [hmail', hmail, ← h.out, valueOut_cons, hdrops, hmsg', writeAll_append]
      rfl
    · exact Undecided.trans ⟨hund.decided, hund.typeName, hund.encodingName, hund.apply,
        hund.replace, hund.rfc822Detected, hund.side⟩ hund'

/-! ## Names -/

/-- Octets of a name, behind the first of them. -/
structure NameRead (ctx : Ctx) (name : List Byte) (ctx' : Ctx) : Prop where
  typeName : ctx'.typeName = name.foldl (matchName (ascii "content-type")) ctx.typeName
  encodingName :
    ctx'.encodingName = name.foldl (matchName (ascii "content-transfer-encoding")) ctx.encodingName
  mail : ctx'.mail = ctx.mail.writeAll name
  side : ctx'.typeSide = ctx.typeSide

/-- One octet of a name. -/
theorem msgName_read (ctx : Ctx) (c : Byte) : NameRead ctx [c] (msgName ctx (MimeMsg.name c)) := by
  obtain ⟨htype, hencoding⟩ := msgName_names ctx c
  refine ⟨htype, hencoding, ?_, ?_⟩
  · exact msgName_mail ctx (MimeMsg.name c)
  · rw [msgName_eq]
    rfl

/-- An octet in front of others of a name. -/
theorem NameRead.cons {name : List Byte} (h : NameRead ctx [c] ctx')
    (h' : NameRead ctx' name ctx'') :
    NameRead ctx (c :: name) ctx'' where
  typeName := by
    rw [h'.typeName, h.typeName]
    rfl
  encodingName := by
    rw [h'.encodingName, h.encodingName]
    rfl
  mail := by
    rw [h'.mail, h.mail]
    rfl
  side := h'.side.trans h.side

/-- The octets of a name leave the state of the tokenizer to it. -/
theorem msgName_msg (ctx : Ctx) (c : Byte) : (msgName ctx (MimeMsg.name c)).msg = ctx.msg := by
  rw [msgName_eq]

/-- **A name**, from its start or from within. -/
theorem name_run (env : FilterEnv) (hs : ctx.msg = .name0 ∨ ctx.msg = .name) {name : List Byte}
    (hchars : ∀ c ∈ name, nameChar c) : ∃ ctx', mailRun env ctx name = .ok ctx' ∧
      (name ≠ [] → ctx'.msg = .name) ∧ (name = [] → ctx' = ctx) ∧ NameRead ctx name ctx' := by
  induction name generalizing ctx with
  | nil => exact ⟨ctx, rfl, fun h => absurd rfl h, fun _ => rfl, ⟨rfl, rfl, rfl, rfl⟩⟩
  | cons c name ih =>
    have hc := hchars c (by simp)
    have hfeed : mimeMsgFeed ctx.msg c = (.name, [MimeMsg.name c]) := by
      rcases hs with hs | hs
      · rw [hs, mimeMsgFeed_name0, if_pos hc]
      · rw [hs, mimeMsgFeed_name, if_neg (nameChar_ne hc).2.2, if_pos hc]
    have hstep : mimeMsg env ctx c = .ok (msgName { ctx with msg := .name } (MimeMsg.name c)) :=
      mimeMsg_single hfeed
    have hread : NameRead ctx [c] (msgName { ctx with msg := .name } (MimeMsg.name c)) := by
      have h := msgName_read { ctx with msg := .name } c
      exact ⟨h.typeName, h.encodingName, h.mail, h.side⟩
    obtain ⟨ctx', hrun, hmsg, hsame, hrest⟩ :=
      @ih (msgName { ctx with msg := .name } (MimeMsg.name c)) (Or.inr (msgName_msg _ c))
        fun d hd => hchars d (by simp [hd])
    refine ⟨ctx', ?_, fun _ => ?_, nofun, hread.cons hrest⟩
    · rw [mailRun_cons, hstep, ok_bind, hrun]
    · by_cases hnil : name = []
      · rw [hsame hnil]
        exact msgName_msg _ c
      · exact hmsg hnil

/-- The next octets are the name of a field, and no name has been looked at before. -/
structure Recognises (ctx : Ctx) : Prop where
  state : ctx.msg = .name0 ∧ ctx.msgContentTypeFieldDetected = none ∧
    ctx.msgContentTransferEncodingFieldDetected = none ∨ ctx.msg = .valueCrlf
  typeHeader : ctx.ctypeHeader = 0
  encodingHeader : ctx.ctransferEncodingHeader = 0

/-- The name of a field and the colon have been read. -/
structure Opened (ctx : Ctx) (f : HeaderField) (ctx' : Ctx) : Prop where
  msg : ctx'.msg = .value
  typeHeader : ctx'.ctypeHeader = 0
  encodingHeader : ctx'.ctransferEncodingHeader = 0
  type : ctx'.msgContentTypeFieldDetected = some true ↔ SameLetters f.name (ascii "Content-Type")
  encoding : ctx'.msgContentTransferEncodingFieldDetected = some true ↔
    SameLetters f.name (ascii "Content-Transfer-Encoding")
  messageType : ctx'.messageType = 0
  rfc822 : ctx'.rfc822 = 0
  mail : ctx'.mail = ctx.mail.writeAll
    (f.name ++ COLON :: if ctx'.drops then ascii " 8BIT" else [])
  side : ctx'.typeSide = ctx.typeSide

/-- The colon resets the matchers of the names, and asks for ` 8BIT`. -/
theorem msgNameEnd_eq (ctx : Ctx) : msgNameEnd ctx (MimeMsg.nameEnd COLON) =
    { ctx with
      ctypeHeader := 0
      ctransferEncodingHeader := 0
      messageType := 0
      rfc822 := 0
      mail := ctx.mail.writeAll (COLON :: if ctx.drops then ascii " 8BIT" else []) } := by
  rw [msgNameEnd]
  by_cases hdrops : ctx.msgContentTransferEncodingFieldDetected = some true ∧
      ctx.mediaFilterApply = true
  · have hd : ctx.drops = true := by simpa [Ctx.drops] using hdrops
    simp only [hd, if_true]
    exact if_pos hdrops
  · have hd : ctx.drops = false := by simpa [Ctx.drops] using hdrops
    simp only [hd, if_false, Bool.false_eq_true]
    exact if_neg hdrops

/-- Whatever has been read of a name, its colon. -/
theorem colon_run (env : FilterEnv) {ctx₀ : Ctx} (f : HeaderField) (h₀ : ctx₀.Unnamed)
    (hread : NameRead ctx₀ f.name ctx) (hs : ctx.msg = .name) :
    ∃ ctx', mailRun env ctx [COLON] = .ok ctx' ∧ Opened ctx₀ f ctx' := by
  have hfeed : mimeMsgFeed ctx.msg COLON = (.value, [MimeMsg.nameEnd COLON]) := by
    rw [hs, mimeMsgFeed_name, if_pos rfl]
  have hstep : mimeMsg env ctx COLON =
      .ok (msgNameEnd { ctx with msg := .value } (MimeMsg.nameEnd COLON)) := mimeMsg_single hfeed
  refine ⟨msgNameEnd { ctx with msg := .value } (MimeMsg.nameEnd COLON), ?_, ?_⟩
  · rw [mailRun_cons, hstep]
    rfl
  have htype : ctx.typeName.2 =
      (f.name.foldl (matchName (ascii "content-type")) (0, none)).2 := by
    rw [hread.typeName, h₀.typeName]
  have hencoding : ctx.encodingName.2 =
      (f.name.foldl (matchName (ascii "content-transfer-encoding")) (0, none)).2 := by
    rw [hread.encodingName, h₀.encodingName]
  have heq := msgNameEnd_eq { ctx with msg := .value }
  rw [heq]
  refine ⟨rfl, rfl, rfl, ?_, ?_, rfl, rfl, ?_, hread.side⟩
  · show ctx.typeName.2 = some true ↔ _
    rw [htype]
    exact matchName_flag (by decide +kernel) (by decide) (by decide) f.name
  · show ctx.encodingName.2 = some true ↔ _
    rw [hencoding]
    exact matchName_flag (by decide +kernel) (by decide) (by decide) f.name
  · rw [writeAll_append, ← hread.mail]
    rfl

/-- **The name of a field** and the colon.  Behind a message that is enclosed the tokenizer
is put back behind the first octet, which must not be the only one. -/
theorem opening_run (env : FilterEnv) (h : Recognises ctx) (f : HeaderField)
    (hlong : ctx.msg = .valueCrlf → ctx.rfc822Detected = true → f.name.length ≠ 1) :
    ∃ ctx', mailRun env ctx (f.name ++ [COLON]) = .ok ctx' ∧ Opened ctx f ctx' := by
  rcases h.state with ⟨hs, htype, hencoding⟩ | hs
  · have hunnamed : ctx.Unnamed := ⟨by rw [Ctx.typeName, h.typeHeader, htype],
      by rw [Ctx.encodingName, h.encodingHeader, hencoding]⟩
    obtain ⟨ctx₁, h₁, hmsg, -, hread⟩ := name_run env (Or.inl hs) f.name_chars
    obtain ⟨ctx', h', hopened⟩ := colon_run env f hunnamed hread (hmsg f.name_ne)
    refine ⟨ctx', ?_, hopened⟩
    rw [mailRun_append, h₁, ok_bind, h']
  -- the octet that ends the last value
  · obtain ⟨c, name, hname⟩ := List.exists_cons_of_ne_nil f.name_ne
    have hchars : ∀ d ∈ c :: name, nameChar d := by
      rw [← hname]
      exact f.name_chars
    have hc := hchars c (by simp)
    obtain ⟨hcr, hspace, -⟩ := nameChar_ne hc
    have hfeed : mimeMsgFeed ctx.msg c = (.name, [MimeMsg.valueEnd c, MimeMsg.name c]) := by
      rw [hs, mimeMsgFeed_valueCrlf, if_neg hcr, if_neg (by simp [hspace]), if_pos hc]
    obtain ⟨ctx₀, hctx₀⟩ : ∃ ctx₀, ctx₀ = msgValueEnd { ctx with msg := .name } := ⟨_, rfl⟩
    have hstep : mimeMsg env ctx c = .ok (msgName ctx₀ (MimeMsg.name c)) := by
      rw [mimeMsg_pair hfeed, hctx₀]
      rfl
    have hstate : ctx₀.msg = if ctx.rfc822Detected then .name0 else .name := by
      rw [hctx₀]
      rfl
    -- the event that ends the value sets both names back
    have hunnamed : ctx₀.Unnamed := by
      rw [hctx₀]
      exact ⟨congrArg (·, none) h.typeHeader, congrArg (·, none) h.encodingHeader⟩
    have hmsg₁ := msgName_msg ctx₀ c
    have hstart : (msgName ctx₀ (MimeMsg.name c)).msg = .name0 ∨
        (msgName ctx₀ (MimeMsg.name c)).msg = .name := by
      rw [hmsg₁, hstate]
      split_ifs <;> simp
    obtain ⟨ctx₂, h₂, hmsg, hsame, hread⟩ := @name_run _ env hstart name
      fun d hd => hchars d (by simp [hd])
    have hread' : NameRead ctx₀ f.name ctx₂ := by
      rw [hname]
      exact (msgName_read ctx₀ c).cons hread
    -- where `rfc822` has put the tokenizer back to `NAME0`, only the second octet leaves it
    have hend : ctx₂.msg = .name := by
      by_cases hnil : name = []
      · rw [hsame hnil, hmsg₁, hstate, if_neg]
        intro hrfc822
        exact hlong hs hrfc822 (by rw [hname, hnil]; rfl)
      · exact hmsg hnil
    obtain ⟨ctx', h', hopened⟩ := colon_run env f hunnamed hread' hend
    refine ⟨ctx', ?_, ?_⟩
    · rw [mailRun_append, hname, mailRun_cons, hstep, ok_bind, h₂, ok_bind, h']
    · have hmail : ctx₀.mail = ctx.mail := by rw [hctx₀]; rfl
      have hside : ctx₀.typeSide = ctx.typeSide := by rw [hctx₀]; rfl
      refine ⟨hopened.msg, hopened.typeHeader, hopened.encodingHeader, hopened.type,
        hopened.encoding, hopened.messageType, hopened.rfc822, ?_, hopened.side.trans hside⟩
      rw [← hmail]
      exact hopened.mail

/-- Behind a message that is enclosed a name of one octet is not understood. -/
theorem opening_error (env : FilterEnv) (hs : ctx.msg = .valueCrlf)
    (hrfc822 : ctx.rfc822Detected = true) (f : HeaderField) (hone : f.name.length = 1) :
    ∃ ctx', mailRun env ctx (f.name ++ [COLON]) = .ok ctx' ∧ ctx'.msg = .error ∧
      ctx'.emitted = ctx.emitted ++ (f.name ++ [COLON]) := by
  obtain ⟨c, hname⟩ := List.length_eq_one_iff.mp hone
  have hc : nameChar c := f.name_chars c (by simp [hname])
  obtain ⟨hcr, hspace, -⟩ := nameChar_ne hc
  have hfeed : mimeMsgFeed ctx.msg c = (.name, [MimeMsg.valueEnd c, MimeMsg.name c]) := by
    rw [hs, mimeMsgFeed_valueCrlf, if_neg hcr, if_neg (by simp [hspace]), if_pos hc]
  obtain ⟨ctx₁, hctx₁⟩ : ∃ ctx₁,
      ctx₁ = msgName (msgValueEnd { ctx with msg := .name }) (MimeMsg.name c) := ⟨_, rfl⟩
  have hstep : mimeMsg env ctx c = .ok ctx₁ := by
    rw [mimeMsg_pair hfeed, hctx₁]
    rfl
  have hmsg : ctx₁.msg = .name0 := by
    rw [hctx₁, msgName_msg]
    exact if_pos hrfc822
  have hmail : ctx₁.emitted = ctx.emitted ++ [c] := by
    rw [hctx₁, Ctx.emitted, (msgName_read _ c).mail, Tape.written_writeAll]
    rfl
  obtain ⟨ctx', hrun, herror, hem⟩ :=
    mailRun_nameless env hmsg (show nameChar COLON = false by decide) []
  refine ⟨ctx', ?_, herror, ?_⟩
  · rw [hname, List.singleton_append, mailRun_cons, hstep, ok_bind, hrun]
  · rw [hem, hmail, hname, List.append_assoc]

/-! ## Fields -/

/-- What is written of a field whose value is kept, or replaced. -/
def HeaderField.written (f : HeaderField) (replaced : Bool) : List Byte :=
  f.name ++ COLON :: ((if replaced then ascii " 8BIT" else []) ++ f.out replaced)

/-- In front of a field; the value of the last one may hide it. -/
structure Ahead (ctx : Ctx) : Prop where
  typeHeader : ctx.ctypeHeader = 0
  encodingHeader : ctx.ctransferEncodingHeader = 0
  replace : ctx.replaceContentType = false
  state : ctx.msg = .name0 ∧ ctx.msgContentTypeFieldDetected = none ∧
      ctx.msgContentTransferEncodingFieldDetected = none ∨
    ctx.msg = .valueCrlf ∨ ctx.msg = .value ∧ ctx.Decided ∧ ctx.drops = false

/-- The field is an encoding, and its value is replaced. -/
def Ctx.replaces (ctx : Ctx) (f : HeaderField) : Bool :=
  ctx.msg ≠ .value ∧ SameLetters f.name (ascii "Content-Transfer-Encoding") ∧
    ctx.mediaFilterApply = true

/-- What a field leaves that decides on no type. -/
structure FieldRead (ctx : Ctx) (f : HeaderField) (ctx' : Ctx) : Prop where
  mail : ctx'.mail = ctx.mail.writeAll (f.written (ctx.replaces f))
  msg : ctx'.msg = if EndsInSpace f.value then .value else .valueCrlf
  typeHeader : ctx'.ctypeHeader = 0
  encodingHeader : ctx'.ctransferEncodingHeader = 0
  replace : ctx'.replaceContentType = false
  apply : ctx'.mediaFilterApply = ctx.mediaFilterApply
  rfc822Detected : ctx'.rfc822Detected = ctx.rfc822Detected
  decided : ctx'.Decided
  drops : ctx'.drops = ctx.replaces f
  side : (ctx.msg = .value → ctx.msgContentTypeFieldDetected ≠ some true) →
    ctx'.typeSide = ctx.typeSide ∧ ctx'.msgContentTypeFieldDetected ≠ some true

/-- Behind a value: white space at its end hides what follows, and no name is at its start. -/
theorem behind_value {s : MimeMsgState} {v : List Byte}
    (h : s = if EndsInSpace v then .value else .valueCrlf) :
    (s = .value ↔ EndsInSpace v) ∧ s ≠ .name0 := by
  rw [h]
  split_ifs with hspace
  · exact ⟨iff_of_true rfl hspace, nofun⟩
  · exact ⟨iff_of_false nofun hspace, nofun⟩

/-- The next field is in front again, unless it is hidden in a value that is dropped. -/
theorem FieldRead.ahead {f : HeaderField} (h : FieldRead ctx f ctx')
    (hseen : EndsInSpace f.value → ctx.replaces f = false) : Ahead ctx' := by
  refine ⟨h.typeHeader, h.encodingHeader, h.replace, Or.inr ?_⟩
  rw [h.msg]
  by_cases hends : EndsInSpace f.value
  · rw [if_pos hends]
    exact Or.inr ⟨rfl, h.decided, by rw [h.drops, hseen hends]⟩
  · rw [if_neg hends]
    exact Or.inl rfl

/-- A field that is not hidden is recognised. -/
theorem Ahead.recognises (h : Ahead ctx) (hs : ctx.msg ≠ .value) : Recognises ctx := by
  refine ⟨?_, h.typeHeader, h.encodingHeader⟩
  rcases h.state with hstart | hcrlf | hhidden
  · exact Or.inl hstart
  · exact Or.inr hcrlf
  · exact absurd hhidden.1 hs

/-- A field that the last value hides is part of it, and written or dropped with it. -/
theorem hidden_field (env : FilterEnv) (hs : ctx.msg = .value) (hdec : ctx.Decided)
    (hreplace : ctx.replaceContentType = false) (f : HeaderField) :
    ∃ ctx', mailRun env ctx f.text = .ok ctx' ∧
      ctx'.msg = (if EndsInSpace f.value then .value else .valueCrlf) ∧
      ctx'.mail = ctx.mail.writeAll
        (visible ctx.drops (f.name ++ [COLON]) ++ f.out ctx.drops) ∧ Undecided ctx ctx' := by
  have hname : ValueRead ctx.drops .value (f.name ++ [COLON])
      (visible ctx.drops (f.name ++ [COLON])) .value := by
    have hcr : CR ∉ f.name ++ [COLON] := by
      intro hmem
      rcases List.mem_append.mp hmem with hmem | hmem
      · exact (nameChar_ne (f.name_chars CR hmem)).1 rfl
      · exact absurd (List.mem_singleton.mp hmem) (by decide)
    have hstart : InValue [] .value := Or.inl ⟨rfl, by simp [EndsInSpace]⟩
    obtain ⟨s, hread, ⟨rfl, -⟩ | ⟨-, hspace⟩⟩ := hstart.read_line ctx.drops hcr
    · exact hread
    · rw [List.nil_append, endsInSpace_concat] at hspace
      exact absurd hspace (by decide)
  have hread := hname.append (f.read_value ctx.drops)
  rw [← f.text_eq, ← hs] at hread
  obtain ⟨ctx', hrun, hmsg, hmail, hund⟩ := hread.run env hdec hreplace
  rw [hs] at hmsg
  exact ⟨ctx', hrun, hmsg, hmail, hund⟩

/-- A field behind white space is read as more of the value before it. -/
theorem Ahead.hidden_run (env : FilterEnv) (h : Ahead ctx) (hs : ctx.msg = .value)
    (f : HeaderField) : ∃ ctx', mailRun env ctx f.text = .ok ctx' ∧ FieldRead ctx f ctx' := by
  obtain ⟨hdec, hdrops⟩ : ctx.Decided ∧ ctx.drops = false := by
    rcases h.state with hstart | hcrlf | hhidden
    · rw [hstart.1] at hs
      cases hs
    · rw [hcrlf] at hs
      cases hs
    · exact hhidden.2
  have hreplaces : ctx.replaces f = false := by simp [Ctx.replaces, hs]
  obtain ⟨ctx', hrun, hmsg, hmail, hund⟩ := hidden_field env hs hdec h.replace f
  refine ⟨ctx', hrun, ⟨?_, hmsg, (congrArg Prod.fst hund.typeName).trans h.typeHeader,
    (congrArg Prod.fst hund.encodingName).trans h.encodingHeader, hund.replace.trans h.replace,
    hund.apply, hund.rfc822Detected, hund.decided, ?_, ?_⟩⟩
  · rw [hmail, hdrops, HeaderField.written, hreplaces, visible]
    simp
  · rw [hund.drops, hdrops, hreplaces]
  · intro htyped
    refine ⟨hund.side (htyped hs), ?_⟩
    rw [show ctx'.msgContentTypeFieldDetected = _ from congrArg Prod.snd hund.typeName]
    exact htyped hs

/-- A field that is recognised, and is no content type. -/
theorem Recognises.field_run (env : FilterEnv) (h : Recognises ctx)
    (hreplace : ctx.replaceContentType = false) (f : HeaderField)
    (hother : ¬ SameLetters f.name (ascii "Content-Type"))
    (hlong : ctx.msg = .valueCrlf → ctx.rfc822Detected = true → f.name.length ≠ 1) :
    ∃ ctx', mailRun env ctx f.text = .ok ctx' ∧ FieldRead ctx f ctx' := by
  obtain ⟨ctx₁, hname, hopened⟩ := opening_run env h f hlong
  have hnot : ctx₁.msgContentTypeFieldDetected ≠ some true := fun ht => hother (hopened.type.mp ht)
  have hdec : ctx₁.Decided := fun ht => absurd ht hnot
  have hs : ctx.msg ≠ .value := by
    rcases h.state with ⟨hs, -⟩ | hs
    · rw [hs]
      exact nofun
    · rw [hs]
      exact nofun
  have hdrops : ctx₁.drops = ctx.replaces f := by
    have happly : ctx₁.mediaFilterApply = ctx.mediaFilterApply :=
      congrArg TypeSide.mediaFilterApply hopened.side
    simp [Ctx.drops, Ctx.replaces, hopened.encoding, happly, hs]
  have hread := f.read_value ctx₁.drops
  rw [← hopened.msg] at hread
  obtain ⟨ctx', hrun, hmsg, hmail, hund⟩ := hread.run env hdec
    ((congrArg TypeSide.replaceContentType hopened.side).trans hreplace)
  have hside := (hund.side hnot).trans hopened.side
  refine ⟨ctx', ?_, ⟨?_, ?_, (congrArg Prod.fst hund.typeName).trans hopened.typeHeader,
    (congrArg Prod.fst hund.encodingName).trans hopened.encodingHeader,
    (congrArg TypeSide.replaceContentType hside).trans hreplace,
    congrArg TypeSide.mediaFilterApply hside, congrArg TypeSide.rfc822Detected hside,
    hund.decided, hund.drops.trans hdrops, fun _ => ⟨hside, ?_⟩⟩⟩
  · rw [f.text_eq, mailRun_append, hname, ok_bind, hrun]
  · rw [hmail, hopened.mail, ← writeAll_append, HeaderField.written, ← hdrops, List.append_assoc,
      List.cons_append]
  · rw [hmsg, hopened.msg]
  · rw [show ctx'.msgContentTypeFieldDetected = _ from congrArg Prod.snd hund.typeName]
    exact hnot

/-- **A field** that is no content type. -/
theorem Ahead.field_run (env : FilterEnv) (h : Ahead ctx) (f : HeaderField)
    (hother : ¬ SameLetters f.name (ascii "Content-Type"))
    (hlong : ctx.msg = .valueCrlf → ctx.rfc822Detected = true → f.name.length ≠ 1) :
    ∃ ctx', mailRun env ctx f.text = .ok ctx' ∧ FieldRead ctx f ctx' := by
  by_cases hs : ctx.msg = .value
  · exact h.hidden_run env hs f
  · exact (h.recognises hs).field_run env h.replace f hother hlong

end

end Pop3Proxy
