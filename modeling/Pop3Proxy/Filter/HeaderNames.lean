/-
# The names of the header

Two matchers follow the name of a field; they are put back at its end and their flags at the
end of the value, so each field is looked at by itself.
-/
import Pop3Proxy.Filter.Matchers
import Pop3Proxy.Filter.Reached

namespace Pop3Proxy

/-! ## The matchers and their flags -/

/-- The matcher of `content-type` and what it has found. -/
def Ctx.typeName (ctx : Ctx) : ℕ × Option Bool := (ctx.ctypeHeader, ctx.msgContentTypeFieldDetected)

/-- The matcher of `content-transfer-encoding` and what it has found. -/
def Ctx.encodingName (ctx : Ctx) : ℕ × Option Bool :=
  (ctx.ctransferEncodingHeader, ctx.msgContentTransferEncodingFieldDetected)

/-- An octet for a matcher that has not given up. -/
def matchName (s : List Byte) (r : ℕ × Option Bool) (c : Byte) : ℕ × Option Bool :=
  if r.2 = some false then r
  else ((strcmpiFeed s r.1 c).1, detected r.2 (strcmpiFeed s r.1 c).2)

/-- Neither matcher has been fed since it was put back. -/
structure Ctx.Unnamed (ctx : Ctx) : Prop where
  typeName : ctx.typeName = (0, none)
  encodingName : ctx.encodingName = (0, none)

section
variable {env : FilterEnv} {ctx ctx' : Ctx}

/-- **A name and its flag**: the octets that have come are the name, its beginning, or neither. -/
theorem matchName_run {s : List Byte} (hs : IsAscii s) (hne : s ≠ []) (bs : List Byte) :
    (bs.foldl (matchName s) (0, none)).2 =
      if SameLetters bs s then some true else if BeginsLetters bs s then none else some false := by
  -- the matcher counts as long as the octets are a beginning, and has failed for good otherwise
  have hrun : (BeginsLetters bs s → bs.foldl (matchName s) (0, none) =
        (bs.length, if bs.length = s.length then some true else none)) ∧
      (¬ BeginsLetters bs s → (bs.foldl (matchName s) (0, none)).2 = some false) := by
    induction bs using List.reverseRecOn with
    | nil =>
      refine ⟨fun _ => ?_, fun h => absurd beginsLetters_nil h⟩
      have hlen : ([] : List Byte).length ≠ s.length := by
        intro h
        exact hne (List.eq_nil_of_length_eq_zero h.symm)
      rw [if_neg hlen]
      rfl
    | append_singleton bs c ih =>
      rw [List.foldl_append, List.foldl_cons, List.foldl_nil, matchName]
      rw [beginsLetters_concat]
      by_cases hbegins : BeginsLetters bs s
      · have hbefore := ih.1 hbegins
        have hflag : (if bs.length = s.length then some true else none) ≠ some false := by
          split_ifs <;> exact nofun
        rw [hbefore]
        simp only [if_neg hflag, strcmpiFeed_eq (Or.inl hs)]
        by_cases hnext : (s[bs.length]?).map tolower = some (tolower c)
        · have hlt : bs.length < s.length := by
            by_contra hle
            rw [List.getElem?_eq_none (by omega)] at hnext
            cases hnext
          refine ⟨fun _ => ?_, fun h => absurd ⟨hbegins, hnext⟩ h⟩
          rw [if_pos hnext, if_neg (Nat.ne_of_lt hlt), List.length_append, List.length_singleton]
          by_cases hend : bs.length + 1 = s.length
          · rw [if_pos hend, if_pos hend]
            rfl
          · rw [if_neg hend, if_neg hend]
            rfl
        · refine ⟨fun h => absurd h.2 hnext, fun _ => ?_⟩
          rw [if_neg hnext]
          rfl
      · have hbefore := ih.2 hbegins
        rw [if_pos hbefore]
        exact ⟨fun h => absurd h.1 hbegins, fun _ => hbefore⟩
  by_cases hbegins : BeginsLetters bs s
  · rw [hrun.1 hbegins, if_pos hbegins]
    by_cases hlen : bs.length = s.length
    · rw [if_pos hlen, if_pos (sameLetters_iff.mpr ⟨hbegins, hlen⟩)]
    · rw [if_neg hlen, if_neg fun hsame => hlen (sameLetters_iff.mp hsame).2]
  · rw [hrun.2 hbegins, if_neg fun hsame => hbegins (sameLetters_iff.mp hsame).1, if_neg hbegins]

/-! ## What the events do to them -/

/-- An octet of the type leaves the matchers of the names alone. -/
theorem contentTypeMatch_names {c : Byte} (h : contentTypeMatch ctx c = .ok ctx') :
    ctx'.typeName = ctx.typeName ∧ ctx'.encodingName = ctx.encodingName := by
  rw [contentTypeMatch] at h
  split_ifs at h
  split at h <;> obtain rfl := Except.ok.inj h <;> exact ⟨rfl, rfl⟩

/-- So does one of the subtype. -/
theorem contentSubtypeMatch_names {c : Byte} (h : contentSubtypeMatch ctx c = .ok ctx') :
    ctx'.typeName = ctx.typeName ∧ ctx'.encodingName = ctx.encodingName := by
  rw [contentSubtypeMatch] at h
  split at h
  · cases h
  · split at h
    · cases h
    · obtain ⟨⟨ss, current⟩, -, h⟩ := bind_eq_ok.mp h
      obtain rfl := Except.ok.inj h
      split_ifs <;> exact ⟨rfl, rfl⟩

/-- A content type is not the business of the names. -/
theorem contentTypeMsg_names {c : Byte} (h : contentTypeMsg env ctx c = .ok ctx') :
    ctx'.typeName = ctx.typeName ∧ ctx'.encodingName = ctx.encodingName := by
  obtain ⟨s, ⟨ty, data, n⟩, d, hfeed, hdata, hn, -, -⟩ := mimeTypeFeed_single ctx.contentType c
  subst hdata hn
  rw [contentTypeMsg_single hfeed] at h
  cases ty with
  | type =>
    obtain ⟨ctx₁, h₁, rfl⟩ := typeEvent_ok h
    have hkept := contentTypeMatch_names h₁
    exact hkept
  | subtype =>
    have hrfc822 (ctx₁ : Ctx) :
        (if ctx₁.messageDetected then rfc822Header ctx₁ d else ctx₁).typeName = ctx₁.typeName ∧
          (if ctx₁.messageDetected then rfc822Header ctx₁ d else ctx₁).encodingName =
            ctx₁.encodingName := by
      split_ifs <;> exact ⟨rfl, rfl⟩
    obtain ⟨ctx₁, h₁, rfl⟩ := subtypeEvent_ok h
    split_ifs at h₁
    · obtain ⟨htype, hencoding⟩ := contentSubtypeMatch_names h₁
      exact ⟨(hrfc822 ctx₁).1.trans htype, (hrfc822 ctx₁).2.trans hencoding⟩
    · obtain rfl := Except.ok.inj h₁
      exact hrfc822 _
  | parameter =>
    obtain rfl := Except.ok.inj h
    simp only [List.replicate, List.foldl_cons, List.foldl_nil, boundaryCharsetMatch]
    split_ifs <;> exact ⟨rfl, rfl⟩
  | delimiter =>
    obtain rfl := Except.ok.inj h
    split_ifs <;> exact ⟨rfl, rfl⟩
  | delimiterEnd =>
    obtain rfl := Except.ok.inj h
    split_ifs <;> exact ⟨rfl, rfl⟩
  | typeEnd | parameterStart | boundaryEnd | delimiterStart | unexpected =>
    obtain rfl := Except.ok.inj h
    exact ⟨rfl, rfl⟩

/-- So does an octet that is written. -/
theorem writeValue_names {c : Byte} (h : writeValue ctx c = .ok ctx') :
    ctx'.typeName = ctx.typeName ∧ ctx'.encodingName = ctx.encodingName := by
  rw [writeValue_eq h]
  exact ⟨rfl, rfl⟩

/-- The events between the colon and the end of the value. -/
def ParserEvent.inValue (e : ParserEvent MimeMsgType) : Prop :=
  e.type = .value ∨ e.type = .valueFold ∨ e.type = .wait

/-- **An event of the value** leaves the names alone. -/
theorem mimeMsgEvent_names {e : ParserEvent MimeMsgType} (he : e.inValue)
    (h : mimeMsgEvent env ctx e = .ok ctx') :
    ctx'.typeName = ctx.typeName ∧ ctx'.encodingName = ctx.encodingName := by
  have hfold : ∀ (bs : List Byte) (ctx : Ctx) {ctx' : Ctx},
      bs.foldlM (contentTypeMsg env) ctx = .ok ctx' →
        ctx'.typeName = ctx.typeName ∧ ctx'.encodingName = ctx.encodingName := by
    intro bs
    induction bs with
    | nil =>
      intro ctx ctx' h
      obtain rfl := Except.ok.inj h
      exact ⟨rfl, rfl⟩
    | cons c bs ih =>
      intro ctx ctx' h
      rw [List.foldlM_cons] at h
      obtain ⟨ctx₁, h₁, h⟩ := bind_eq_ok.mp h
      obtain ⟨htype, hencoding⟩ := contentTypeMsg_names h₁
      obtain ⟨htype', hencoding'⟩ := ih ctx₁ h
      exact ⟨htype'.trans htype, hencoding'.trans hencoding⟩
  obtain ⟨ty, data, n⟩ := e
  rcases he with hty | hty | hty
  · obtain rfl : ty = .value := hty
    change msgValue env ctx ⟨.value, data, n⟩ = .ok ctx' at h
    have hwritten : ∀ {ctx₁ : Ctx}, (if ctx₁.msgContentTransferEncodingFieldDetected = some true ∧
          ctx₁.mediaFilterApply = true then .ok ctx₁
        else writeValue ctx₁ (data.getD 0 0)) = .ok ctx' →
          ctx'.typeName = ctx₁.typeName ∧ ctx'.encodingName = ctx₁.encodingName := by
      intro ctx₁ h
      split_ifs at h
      · obtain rfl := Except.ok.inj h
        exact ⟨rfl, rfl⟩
      · exact writeValue_names h
    rw [msgValue] at h
    split_ifs at h
    · obtain ⟨ctx₁, h₁, h⟩ := bind_eq_ok.mp h
      obtain ⟨htype, hencoding⟩ := hfold _ _ h₁
      exact ⟨(hwritten h).1.trans htype, (hwritten h).2.trans hencoding⟩
    · exact hwritten h
  · obtain rfl : ty = .valueFold := hty
    obtain rfl := Except.ok.inj h
    exact ⟨rfl, rfl⟩
  · obtain rfl : ty = .wait := hty
    obtain rfl := Except.ok.inj h
    exact ⟨rfl, rfl⟩

/-- An octet of a name goes to both matchers. -/
theorem msgName_names (ctx : Ctx) (c : Byte) :
    (msgName ctx (MimeMsg.name c)).typeName = matchName (ascii "content-type") ctx.typeName c ∧
      (msgName ctx (MimeMsg.name c)).encodingName =
        matchName (ascii "content-transfer-encoding") ctx.encodingName c := by
  rw [msgName_eq]
  constructor
  · simp only [Ctx.typeName, matchName]
    by_cases htype : ctx.msgContentTypeFieldDetected = some false
    · simp [htype]
    · simp [htype]
  · simp only [Ctx.encodingName, matchName]
    by_cases hencoding : ctx.msgContentTransferEncodingFieldDetected = some false
    · simp [hencoding]
    · simp [hencoding]

/-- The colon sets them back and keeps what they have found. -/
theorem msgNameEnd_names (ctx : Ctx) (e : ParserEvent MimeMsgType) :
    (msgNameEnd ctx e).typeName = (0, ctx.typeName.2) ∧
      (msgNameEnd ctx e).encodingName = (0, ctx.encodingName.2) := by
  unfold msgNameEnd
  simp only
  split_ifs <;> exact ⟨rfl, rfl⟩

/-! ## The fields -/

/-- The events of one field, as `mime_msg` gets them. -/
structure FieldEvents where
  name : List Byte
  value : List (ParserEvent MimeMsgType)
  inValue : ∀ e ∈ value, e.inValue

namespace FieldEvents

/-- The events up to the value. -/
def opening (f : FieldEvents) : List (ParserEvent MimeMsgType) :=
  f.name.map MimeMsg.name ++ [MimeMsg.nameEnd COLON]

/-- All of them. -/
def events (f : FieldEvents) : List (ParserEvent MimeMsgType) :=
  f.opening ++ f.value ++ [MimeMsg.valueEnd LF]

end FieldEvents

/-- `mime_msg`, for the events of `ctx->msg` one after the other. -/
def mimeMsgEvents (env : FilterEnv) (ctx : Ctx) (es : List (ParserEvent MimeMsgType)) :
    Except FilterFault Ctx := es.foldlM (mimeMsgEvent env) ctx

/-- Events in two pieces. -/
theorem mimeMsgEvents_append {es es' : List (ParserEvent MimeMsgType)} {ctx'' : Ctx} :
    mimeMsgEvents env ctx (es ++ es') = .ok ctx'' ↔
      ∃ ctx', mimeMsgEvents env ctx es = .ok ctx' ∧ mimeMsgEvents env ctx' es' = .ok ctx'' := by
  rw [mimeMsgEvents, List.foldlM_append]
  exact bind_eq_ok

/-- **The name of a field**, seen from its value. -/
theorem opening_names (hctx : ctx.Unnamed) {f : FieldEvents}
    (h : mimeMsgEvents env ctx f.opening = .ok ctx') :
    ctx'.typeName = (0, (f.name.foldl (matchName (ascii "content-type")) (0, none)).2) ∧
      ctx'.encodingName =
        (0, (f.name.foldl (matchName (ascii "content-transfer-encoding")) (0, none)).2) := by
  obtain ⟨ctx₁, h₁, h⟩ := mimeMsgEvents_append.mp h
  have hname : ∀ (bs : List Byte) (ctx : Ctx) {ctx' : Ctx},
      mimeMsgEvents env ctx (bs.map MimeMsg.name) = .ok ctx' →
        ctx'.typeName = bs.foldl (matchName (ascii "content-type")) ctx.typeName ∧
          ctx'.encodingName =
            bs.foldl (matchName (ascii "content-transfer-encoding")) ctx.encodingName := by
    intro bs
    induction bs with
    | nil =>
      intro ctx ctx' h
      obtain rfl := Except.ok.inj h
      exact ⟨rfl, rfl⟩
    | cons c bs ih =>
      intro ctx ctx' h
      obtain ⟨htype, hencoding⟩ := ih (msgName ctx (MimeMsg.name c)) h
      rw [(msgName_names ctx c).1] at htype
      rw [(msgName_names ctx c).2] at hencoding
      exact ⟨htype, hencoding⟩
  obtain ⟨htype, hencoding⟩ := hname f.name ctx h₁
  obtain rfl := Except.ok.inj h
  obtain ⟨hend, hend'⟩ := msgNameEnd_names ctx₁ (MimeMsg.nameEnd COLON)
  rw [hctx.typeName] at htype
  rw [hctx.encodingName] at hencoding
  exact ⟨hend.trans (by rw [htype]), hend'.trans (by rw [hencoding])⟩

/-- What has come of the value leaves it so. -/
theorem value_names {es : List (ParserEvent MimeMsgType)} (hes : ∀ e ∈ es, e.inValue)
    (h : mimeMsgEvents env ctx es = .ok ctx') :
    ctx'.typeName = ctx.typeName ∧ ctx'.encodingName = ctx.encodingName := by
  induction es generalizing ctx with
  | nil =>
    obtain rfl := Except.ok.inj h
    exact ⟨rfl, rfl⟩
  | cons e es ih =>
    rw [mimeMsgEvents, List.foldlM_cons] at h
    obtain ⟨ctx₁, h₁, h⟩ := bind_eq_ok.mp h
    obtain ⟨htype, hencoding⟩ := mimeMsgEvent_names (hes e List.mem_cons_self) h₁
    obtain ⟨htype', hencoding'⟩ := ih (fun e' he' => hes e' (List.mem_cons_of_mem e he')) h
    exact ⟨htype'.trans htype, hencoding'.trans hencoding⟩

/-- **One field** leaves the matchers and the flags as it found them. -/
theorem Ctx.Unnamed.field (hctx : ctx.Unnamed) {f : FieldEvents}
    (h : mimeMsgEvents env ctx f.events = .ok ctx') : ctx'.Unnamed := by
  obtain ⟨ctx₂, h₂, h⟩ := mimeMsgEvents_append.mp h
  obtain ⟨ctx₁, h₁, h₂⟩ := mimeMsgEvents_append.mp h₂
  obtain ⟨htype, hencoding⟩ := opening_names hctx h₁
  obtain ⟨htype', hencoding'⟩ := value_names f.inValue h₂
  obtain rfl := Except.ok.inj h
  constructor
  · show (ctx₂.typeName.1, none) = (0, none)
    rw [htype', htype]
  · show (ctx₂.encodingName.1, none) = (0, none)
    rw [hencoding', hencoding]

/-- **All the fields before**, in any number. -/
theorem Ctx.Unnamed.fields (hctx : ctx.Unnamed) (fs : List FieldEvents)
    (h : mimeMsgEvents env ctx (fs.flatMap FieldEvents.events) = .ok ctx') : ctx'.Unnamed := by
  induction fs generalizing ctx with
  | nil =>
    obtain rfl := Except.ok.inj h
    exact hctx
  | cons f fs ih =>
    rw [List.flatMap_cons] at h
    obtain ⟨ctx₁, h₁, h⟩ := mimeMsgEvents_append.mp h
    exact ih (hctx.field h₁) h

/-- No name has been looked at before the mail. -/
theorem unnamed_initial (entries : List (List Byte × List Byte)) :
    (Filter.initial entries).ctx.Unnamed := ⟨rfl, rfl⟩

/-- The flag of a name that has ended, up to the case of the letters. -/
theorem matchName_flag {s s' : List Byte} (hs : IsAscii s) (hne : s ≠ [])
    (hletters : s'.map tolower = s.map tolower) (name : List Byte) :
    (name.foldl (matchName s) (0, none)).2 = some true ↔ SameLetters name s' := by
  have hsame' : SameLetters name s' ↔ SameLetters name s := by
    unfold SameLetters
    rw [hletters]
  rw [matchName_run hs hne, hsame']
  split_ifs with hsame hbegins
  · exact iff_of_true rfl hsame
  · exact iff_of_false nofun hsame
  · exact iff_of_false nofun hsame

/-- **Each field is known by its name**: at every event of a value the flags say which of
the two names the field has, whatever fields came before. -/
theorem header_names (env : FilterEnv) (entries : List (List Byte × List Byte))
    (fs : List FieldEvents) (f : FieldEvents) (read : List (ParserEvent MimeMsgType))
    (e : ParserEvent MimeMsgType) (rest : List (ParserEvent MimeMsgType))
    (hvalue : f.value = read ++ e :: rest) (ctx : Ctx)
    (hrun : mimeMsgEvents env (Filter.initial entries).ctx
      (fs.flatMap FieldEvents.events ++ (f.opening ++ read)) = .ok ctx) :
    (ctx.msgContentTypeFieldDetected = some true ↔ SameLetters f.name (ascii "Content-Type")) ∧
      (ctx.msgContentTransferEncodingFieldDetected = some true ↔
        SameLetters f.name (ascii "Content-Transfer-Encoding")) := by
  obtain ⟨ctx₀, h₀, hrun⟩ := mimeMsgEvents_append.mp hrun
  obtain ⟨ctx₁, h₁, hrun⟩ := mimeMsgEvents_append.mp hrun
  have hread : ∀ e' ∈ read, e'.inValue := fun e' he' =>
    f.inValue e' (by rw [hvalue]; exact List.mem_append_left _ he')
  obtain ⟨htype, hencoding⟩ := opening_names ((unnamed_initial entries).fields fs h₀) h₁
  obtain ⟨htype', hencoding'⟩ := value_names hread hrun
  constructor
  · have hdetected : ctx.msgContentTypeFieldDetected = ctx.typeName.2 := rfl
    rw [hdetected, htype', htype]
    exact matchName_flag (by decide +kernel) (by decide) (by decide) f.name
  · have hdetected : ctx.msgContentTransferEncodingFieldDetected = ctx.encodingName.2 := rfl
    rw [hdetected, hencoding', hencoding]
    exact matchName_flag (by decide +kernel) (by decide) (by decide) f.name

end

/-- Behind a field that is none of the two, `CONTENT-Type` is found. -/
theorem header_names_type : ∃ ctx,
    mimeMsgEvents {} (Filter.initial []).ctx
      ([⟨ascii "To", [], by simp⟩].flatMap FieldEvents.events ++
        ((ascii "CONTENT-Type").map MimeMsg.name ++ [MimeMsg.nameEnd COLON] ++ [])) = .ok ctx ∧
    (ctx.msgContentTypeFieldDetected = some true ↔
      SameLetters (ascii "CONTENT-Type") (ascii "Content-Type")) ∧
    (ctx.msgContentTransferEncodingFieldDetected = some true ↔
      SameLetters (ascii "CONTENT-Type") (ascii "Content-Transfer-Encoding")) := by
  refine ⟨_, rfl, ?_⟩
  exact header_names {} [] [⟨ascii "To", [], by simp⟩]
    ⟨ascii "CONTENT-Type", [MimeMsg.wait SP], by simp [ParserEvent.inValue, MimeMsg.wait]⟩ []
    (MimeMsg.wait SP) [] rfl _ rfl

end Pop3Proxy
