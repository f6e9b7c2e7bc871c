/-
# The contexts `mime_msg` is called in

However the octets come, in whatever chunks and replies, between two of them no
content type is waiting to be replaced, and no field is a `Content-Type` and a
`Content-Transfer-Encoding` at the same time.
-/
import Pop3Proxy.Filter.Bounds
import Pop3Proxy.Filter.Transparency
import Pop3Proxy.Filter.Watcher

namespace Pop3Proxy

/-! ## Reaching a context -/

/-- The contexts the octets of the mails lead to. -/
inductive Reached (env : FilterEnv) : Ctx → Prop
  | initial (entries : List (List Byte × List Byte)) : Reached env (Filter.initial entries).ctx
  | octet {ctx ctx' : Ctx} {c : Byte} (h : Reached env ctx) (hres : mimeMsg env ctx c = .ok ctx') :
      Reached env ctx'
  | restart {ctx : Ctx} (h : Reached env ctx) : Reached env ctx.restart
  | rewind {ctx : Ctx} (h : Reached env ctx) : Reached env { ctx with mail := .empty }

section
variable {env : FilterEnv} {ctx ctx' : Ctx}

/-- Octets lead from one reached context to another. -/
theorem Reached.run (h : Reached env ctx) {bs : List Byte} (hres : mailRun env ctx bs = .ok ctx') :
    Reached env ctx' := by
  induction bs generalizing ctx with
  | nil =>
    obtain rfl := Except.ok.inj hres
    exact h
  | cons c bs ih =>
    rw [mailRun, List.foldlM_cons] at hres
    obtain ⟨ctx₁, h₁, hres⟩ := bind_eq_ok.mp hres
    exact ih (h.octet h₁) hres

/-- So does an event of the parser of the reply. -/
theorem Reached.event (h : Reached env ctx) {e : ParserEvent Pop3MultiType}
    (hres : pop3MultiEvent env ctx e = .ok ctx') : Reached env ctx' := by
  obtain ⟨ty, data, n⟩ := e
  cases ty with
  | byte => exact h.run hres
  | wait =>
    obtain rfl := Except.ok.inj hres
    exact h
  | fin =>
    obtain rfl := Except.ok.inj hres
    exact h.restart

/-- Whatever is read of a chunk. -/
theorem Reached.filterRun {f f' : Filter} (h : Reached env f.ctx) {bs : List Byte}
    (hres : Pop3Proxy.filterRun env f bs = .ok f') : Reached env f'.ctx := by
  rw [filterRun_eq] at hres
  obtain ⟨ctx, hfold, rfl⟩ := map_eq_ok.mp hres
  show Reached env ctx
  generalize (multiRun f.multi bs).2.flatten = es at hfold
  generalize f.ctx = ctx₀ at h hfold
  induction es generalizing ctx₀ with
  | nil =>
    obtain rfl := Except.ok.inj hfold
    exact h
  | cons e es ih =>
    rw [List.foldlM_cons] at hfold
    obtain ⟨ctx₁, h₁, hfold⟩ := bind_eq_ok.mp hfold
    exact ih ctx₁ (h.event h₁) hfold

end

/-! ## Calm between two octets -/

/-- Nothing is about to be replaced, and no field has two names. -/
structure Calm (ctx : Ctx) : Prop where
  replace : ctx.replaceContentType = false
  apart : ctx.msgContentTypeFieldDetected = some true →
    ctx.msgContentTransferEncodingFieldDetected ≠ some true
  clean : Clean ctx

/-- The name that has been read is the whole of `content-transfer-encoding`. -/
def Named (ctx : Ctx) : Prop :=
  ctx.msgContentTransferEncodingFieldDetected = some true →
    (ascii "content-transfer-encoding")[ctx.ctransferEncodingHeader]? = none

/-- What an event leaves. -/
structure Calms (ctx : Ctx) (e : ParserEvent MimeMsgType) (ctx' : Ctx) : Prop where
  calm : Calm ctx'
  named : e.type = .name ∨ e.type = .valueEnd ∨ ctx'.msg ≠ ctx.msg → Named ctx'
  keeps : e.type ≠ .nameEnd → Named ctx → Named ctx'

section
variable {env : FilterEnv} {ctx ctx' : Ctx} {c : Byte}

/-- The two names do not end in the same letter. -/
theorem strcmpiFeed_apart {p' : ℕ}
    (h : (strcmpiFeed (ascii "content-transfer-encoding") p' c).2 = some .eq) (p : ℕ) :
    (strcmpiFeed (ascii "content-type") p c).2 = some .neq := by
  obtain ⟨x, hx, hlen, hc, -⟩ := exists_last_of_eq h
  have hp' : p' = 24 := by
    have : (ascii "content-transfer-encoding").length = 25 := by decide
    omega
  subst hp'
  have hg : x = 103 := by
    have : (ascii "content-transfer-encoding")[24]? = some 103 := by decide
    exact Option.some.inj (hx.symm.trans this)
  subst hg
  have hletters : ∀ y ∈ ascii "content-type",
      ¬ (tolower 103 = tolower y ∨ tolower 103 = toupper y) ∧
        ¬ (toupper 103 = tolower y ∨ toupper 103 = toupper y) := by
    decide +kernel
  cases hy : (ascii "content-type")[p]? with
  | none => rw [strcmpiFeed_none hy]
  | some y =>
    rw [strcmpiFeed_some hy, if_neg]
    rintro ⟨-, hd⟩
    obtain ⟨hlow, hup⟩ := hletters y (List.mem_of_getElem? hy)
    rcases hc with rfl | rfl
    · exact hlow hd
    · exact hup hd

/-- A name that is whole is so no longer with an octet more. -/
theorem Named.detected (h : Named ctx)
    (hd : detected ctx.msgContentTransferEncodingFieldDetected
      (strcmpiFeed (ascii "content-transfer-encoding") ctx.ctransferEncodingHeader c).2 =
        some true) :
    (strcmpiFeed (ascii "content-transfer-encoding") ctx.ctransferEncodingHeader c).2 =
    some .eq := by
  by_cases hflag : ctx.msgContentTransferEncodingFieldDetected = some true
  · rw [strcmpiFeed_none (h hflag)] at hd
    cases hd
  · generalize (strcmpiFeed (ascii "content-transfer-encoding") ctx.ctransferEncodingHeader c).2 = r
      at hd ⊢
    rcases r with _ | ⟨_ | _ | _⟩
    · exact absurd hd hflag
    · exact absurd hd hflag
    · rfl
    · cases hd

/-- An octet of a name goes to the matchers that are still interested. -/
theorem msgName_eq (ctx : Ctx) (c : Byte) : msgName ctx (MimeMsg.name c) =
    let r := strcmpiFeed (ascii "content-type") ctx.ctypeHeader c
    let r' := strcmpiFeed (ascii "content-transfer-encoding") ctx.ctransferEncodingHeader c
    let typed := ctx.msgContentTypeFieldDetected ≠ some false
    let encoded := ctx.msgContentTransferEncodingFieldDetected ≠ some false
    { ctx with
      ctypeHeader := if typed then r.1 else ctx.ctypeHeader
      msgContentTypeFieldDetected :=
        if typed then detected ctx.msgContentTypeFieldDetected r.2 else some false
      ctransferEncodingHeader := if encoded then r'.1 else ctx.ctransferEncodingHeader
      msgContentTransferEncodingFieldDetected :=
        if encoded then detected ctx.msgContentTransferEncodingFieldDetected r'.2 else some false
      mail := ctx.mail.write c } := by
  simp only [msgName, MimeMsg.name, List.take, List.foldl_cons, List.foldl_nil]
  by_cases htyped : ctx.msgContentTypeFieldDetected = some false
  · by_cases hencoded : ctx.msgContentTransferEncodingFieldDetected = some false
    · simp [htyped, hencoded, Ctx.emit, ParserEvent.octet]
    · simp [htyped, hencoded, Ctx.emit, ParserEvent.octet, contentTransferEncodingHeader]
  · by_cases hencoded : ctx.msgContentTransferEncodingFieldDetected = some false
    · simp [htyped, hencoded, Ctx.emit, ParserEvent.octet, contentTypeHeader]
    · simp [htyped, hencoded, Ctx.emit, ParserEvent.octet, contentTypeHeader,
        contentTransferEncodingHeader]

/-- An octet of a name: it may complete one of the two names, not both. -/
theorem Calm.name (h : Calm ctx) (hn : Named ctx) (c : Byte)
    (hclean : Clean (msgName ctx (MimeMsg.name c))) :
    Calm (msgName ctx (MimeMsg.name c)) ∧ Named (msgName ctx (MimeMsg.name c)) := by
  have hwhole : (msgName ctx (MimeMsg.name c)).msgContentTransferEncodingFieldDetected = some true →
      ctx.msgContentTransferEncodingFieldDetected ≠ some false ∧
        (strcmpiFeed (ascii "content-transfer-encoding") ctx.ctransferEncodingHeader c).2 =
          some .eq := by
    rw [msgName_eq]
    intro hd
    by_cases hencoded : ctx.msgContentTransferEncodingFieldDetected = some false
    · simp [hencoded] at hd
    · exact ⟨hencoded, hn.detected (by simpa [hencoded] using hd)⟩
  refine ⟨⟨?_, ?_, hclean⟩, ?_⟩
  · rw [msgName_eq]
    exact h.replace
  · intro htyped hd
    obtain ⟨-, heq⟩ := hwhole hd
    rw [msgName_eq] at htyped
    simp only [strcmpiFeed_apart heq] at htyped
    split_ifs at htyped <;> cases htyped
  · intro hd
    obtain ⟨hencoded, heq⟩ := hwhole hd
    obtain ⟨x, -, -, -, hlast⟩ := exists_last_of_eq heq
    rw [msgName_eq]
    simp only [if_pos hencoded, hlast]
    decide

/-- What is written of a value is either the octet or the replacement. -/
theorem writeValue_eq (h : writeValue ctx c = .ok ctx') :
    ctx' = { ctx with mail := ctx'.mail, replaceContentType := false } := by
  rw [writeValue] at h
  split_ifs at h with hreplace
  · split at h
    · cases h
    · obtain rfl := Except.ok.inj h
      rfl
  · obtain rfl := Except.ok.inj h
    have hfalse : ctx.replaceContentType = false := by simpa using hreplace
    simp [Ctx.emit, ← hfalse]

/-- A value is replaced at once, if it is replaced at all. -/
theorem Calm.value (h : Calm ctx) {d : Byte} (hres : msgValue env ctx (MimeMsg.value d) = .ok ctx')
    (hclean : Clean ctx') : Calms ctx (MimeMsg.value d) ctx' := by
  -- a replacement is over with the octet that asks for it
  have hframe : ∃ ctx₁ : Ctx, ctx₁.surroundings = ctx.surroundings ∧
      ctx' = { ctx₁ with mail := ctx'.mail, replaceContentType := false } := by
    simp only [msgValue, MimeMsg.value, List.take, List.foldlM_cons, List.foldlM_nil] at hres
    split_ifs at hres with htyped
    · obtain ⟨ctx₁, h₁, hres⟩ := bind_eq_ok.mp hres
      obtain ⟨ctx₂, h₂, h₁⟩ := bind_eq_ok.mp h₁
      obtain rfl := Except.ok.inj h₁
      obtain ⟨-, hsurr⟩ := contentTypeMsg_watcher h₂
      have hencoded : ctx₂.msgContentTransferEncodingFieldDetected ≠ some true := by
        rw [show ctx₂.msgContentTransferEncodingFieldDetected = _ from
          congrArg Surroundings.msgContentTransferEncodingFieldDetected hsurr]
        exact h.apart htyped.1
      rw [if_neg fun hd => hencoded hd.1] at hres
      exact ⟨ctx₂, hsurr, writeValue_eq hres⟩
    · rw [ok_bind] at hres
      split_ifs at hres
      · obtain rfl := Except.ok.inj hres
        exact ⟨ctx, rfl, by simp [← h.replace]⟩
      · exact ⟨ctx, rfl, writeValue_eq hres⟩
  obtain ⟨ctx₁, hsurr, heq⟩ := hframe
  simp only [Ctx.surroundings, Surroundings.mk.injEq] at hsurr
  obtain ⟨hmsg, hheader, htype, hencoding, -⟩ := hsurr
  have hmsg' : ctx'.msg = ctx.msg := by
    rw [heq]
    exact hmsg
  have hencoding' : ctx'.msgContentTransferEncodingFieldDetected =
      ctx.msgContentTransferEncodingFieldDetected := by
    rw [heq]
    exact hencoding
  have hkeeps : Named ctx → Named ctx' := by
    intro hn
    rw [Named, hencoding', heq]
    show _ → (ascii "content-transfer-encoding")[ctx₁.ctransferEncodingHeader]? = none
    rw [hheader]
    exact hn
  refine ⟨⟨?_, ?_, hclean⟩, ?_, fun _ => hkeeps⟩
  · rw [heq]
  · rw [hencoding', heq]
    show ctx₁.msgContentTypeFieldDetected = some true → _
    rw [htype]
    exact h.apart
  · rintro (hty | hty | hne)
    · cases hty
    · cases hty
    · exact absurd hmsg' hne

/-- A boundary between parts leaves no field behind it, and nothing else does anything to one. -/
structure AtBoundary (ctx ctx' : Ctx) : Prop where
  replace : ctx'.replaceContentType = ctx.replaceContentType
  typeField : ctx'.msgContentTypeFieldDetected = ctx.msgContentTypeFieldDetected
  encodingField : ctx'.msgContentTransferEncodingFieldDetected = none ∨
    ctx'.msgContentTransferEncodingFieldDetected = ctx.msgContentTransferEncodingFieldDetected ∧
      ctx'.ctransferEncodingHeader = ctx.ctransferEncodingHeader ∧ ctx'.msg = ctx.msg

/-- A delimiter between parts is such a boundary. -/
theorem partBoundary_atBoundary (h : partBoundary env ctx = .ok ctx') : AtBoundary ctx ctx' := by
  rw [partBoundary] at h
  split_ifs at h
  · obtain ⟨⟨b, ctx₁⟩, hpeek, h⟩ := bind_eq_ok.mp h
    obtain ⟨top, rest, -, -, rfl⟩ := peekIs_eq hpeek
    split_ifs at h
    · rw [boundaryFound, resetParserTypesAndSubtypes] at h
      split_ifs at h <;> obtain rfl := Except.ok.inj h <;> exact ⟨rfl, rfl, .inl rfl⟩
    · obtain rfl := Except.ok.inj h
      exact ⟨rfl, rfl, .inr ⟨rfl, rfl, rfl⟩⟩
  · obtain rfl := Except.ok.inj h
    exact ⟨rfl, rfl, .inr ⟨rfl, rfl, rfl⟩⟩

/-- So is the end of a multipart. -/
theorem lastBoundary_atBoundary (h : lastBoundary env ctx = .ok ctx') : AtBoundary ctx ctx' := by
  rw [lastBoundary] at h
  split_ifs at h
  · obtain ⟨⟨b, ctx₁⟩, hpeek, h⟩ := bind_eq_ok.mp h
    obtain ⟨top, rest, -, -, rfl⟩ := peekIs_eq hpeek
    obtain rfl := Except.ok.inj h
    simp only [boundaryEndFound]
    split_ifs <;> exact ⟨rfl, rfl, .inr ⟨rfl, rfl, rfl⟩⟩
  · obtain rfl := Except.ok.inj h
    exact ⟨rfl, rfl, .inr ⟨rfl, rfl, rfl⟩⟩

/-- One comparison behind the other. -/
theorem AtBoundary.trans {ctx₁ ctx₂ : Ctx} (h : AtBoundary ctx ctx₁) (h' : AtBoundary ctx₁ ctx₂) :
    AtBoundary ctx ctx₂ where
  replace := h'.replace.trans h.replace
  typeField := h'.typeField.trans h.typeField
  encodingField := by
    rcases h'.encodingField with hnone | ⟨hsame, hheader, hmsg⟩
    · exact .inl hnone
    · rcases h.encodingField with hnone | ⟨hsame', hheader', hmsg'⟩
      · exact .inl (hsame.trans hnone)
      · exact .inr ⟨hsame.trans hsame', hheader.trans hheader', hmsg.trans hmsg'⟩

/-- The end of a line stays calm when the line was a boundary or none. -/
theorem AtBoundary.calms (h : Calm ctx) (hstep : AtBoundary ctx ctx') (hclean : Clean ctx')
    {e : ParserEvent MimeMsgType} (he : e.type = .bodyNewline) : Calms ctx e ctx' where
  calm := by
    refine ⟨hstep.replace.trans h.replace, ?_, hclean⟩
    rw [hstep.typeField]
    intro htyped
    rcases hstep.encodingField with hnone | ⟨hsame, -⟩
    · rw [hnone]
      exact nofun
    · rw [hsame]
      exact h.apart htyped
  named := by
    rw [he]
    rintro (hty | hty | hne)
    · cases hty
    · cases hty
    · rcases hstep.encodingField with hnone | ⟨-, -, hmsg⟩
      · rw [Named, hnone]
        exact nofun
      · exact absurd hmsg hne
  keeps _ hn := by
    rcases hstep.encodingField with hnone | ⟨hsame, hheader, -⟩
    · rw [Named, hnone]
      exact nofun
    · rw [Named, hsame, hheader]
      exact hn

/-- So it is at every end of a line. -/
theorem msgBodyNewline_atBoundary {e : ParserEvent MimeMsgType}
    (h : msgBodyNewline env ctx e = .ok ctx') : AtBoundary ctx ctx' := by
  rw [msgBodyNewline] at h
  obtain ⟨ctx₁, h₁, h⟩ := bind_eq_ok.mp h
  obtain ⟨ctx₂, h₂, h⟩ := bind_eq_ok.mp h
  obtain rfl := Except.ok.inj h
  have hcopy : AtBoundary ctx (if ctx.mediaFilterApply then ctx else ctx.emit (e.octet 0)) := by
    split_ifs <;> exact ⟨rfl, rfl, .inr ⟨rfl, rfl, rfl⟩⟩
  have hrun := (hcopy.trans (partBoundary_atBoundary h₁)).trans (lastBoundary_atBoundary h₂)
  exact ⟨hrun.replace, hrun.typeField, hrun.encodingField⟩

/-- The fields that have been told apart stay as they are. -/
structure SameFields (ctx ctx' : Ctx) : Prop where
  replace : ctx'.replaceContentType = ctx.replaceContentType
  typeField : ctx'.msgContentTypeFieldDetected = ctx.msgContentTypeFieldDetected
  encodingField : ctx'.msgContentTransferEncodingFieldDetected =
    ctx.msgContentTransferEncodingFieldDetected
  msg : ctx'.msg = ctx.msg

/-- An octet that is written changes no field. -/
theorem SameFields.emit (h : SameFields ctx ctx') (c : Byte) : SameFields ctx (ctx'.emit c) :=
  ⟨h.replace, h.typeField, h.encodingField, h.msg⟩

/-- Nor does a text. -/
theorem SameFields.insertText (h : SameFields ctx ctx') (text : List Byte) :
    SameFields ctx (ctx'.insertText text) :=
  ⟨h.replace, h.typeField, h.encodingField, h.msg⟩

/-- An event that changes no field stays calm. -/
theorem SameFields.calms (hstep : SameFields ctx ctx') (h : Calm ctx)
    {e : ParserEvent MimeMsgType} (he : e.type ≠ .name) (he' : e.type ≠ .valueEnd)
    (hheader : e.type = .nameEnd ∨ ctx'.ctransferEncodingHeader = ctx.ctransferEncodingHeader)
    (hclean : Clean ctx') : Calms ctx e ctx' where
  calm := by
    refine ⟨hstep.replace.trans h.replace, ?_, hclean⟩
    rw [hstep.typeField, hstep.encodingField]
    exact h.apart
  named := by
    rintro (hty | hty | hne)
    · exact absurd hty he
    · exact absurd hty he'
    · exact absurd hstep.msg hne
  keeps hne hn := by
    rcases hheader with hty | hheader
    · exact absurd hty hne
    · rw [Named, hstep.encodingField, hheader]
      exact hn

/-- The colon. -/
theorem Calm.nameEnd (h : Calm ctx) {e : ParserEvent MimeMsgType} (he : e.type = .nameEnd)
    (hclean : Clean (msgNameEnd ctx e)) : Calms ctx e (msgNameEnd ctx e) := by
  have hstep : SameFields ctx (msgNameEnd ctx e) := by
    rw [msgNameEnd]
    split_ifs
    · refine SameFields.insertText ?_ (ascii " 8BIT")
      exact ⟨rfl, rfl, rfl, rfl⟩
    · exact ⟨rfl, rfl, rfl, rfl⟩
  exact hstep.calms h (by simp [he]) (by simp [he]) (.inl he) hclean

/-- The blank line. -/
theorem Calm.bodyStart (h : Calm ctx) {e : ParserEvent MimeMsgType} (he : e.type = .bodyStart)
    (hclean : Clean (msgBodyStart env ctx e)) : Calms ctx e (msgBodyStart env ctx e) := by
  have hcopy : SameFields ctx ((ctx.emit (e.octet 0)).emit (e.octet 1)) := ⟨rfl, rfl, rfl, rfl⟩
  have hstep : SameFields ctx (msgBodyStart env ctx e) ∧
      (msgBodyStart env ctx e).ctransferEncodingHeader = ctx.ctransferEncodingHeader := by
    simp only [msgBodyStart]
    split_ifs
    · exact ⟨⟨rfl, rfl, rfl, rfl⟩, rfl⟩
    · exact ⟨(hcopy.insertText _).insertText CRLF, rfl⟩
    · exact ⟨hcopy, rfl⟩
  exact hstep.1.calms h (by simp [he]) (by simp [he]) (.inr hstep.2) hclean

/-- An octet of the body. -/
theorem Calm.body (h : Calm ctx) {e : ParserEvent MimeMsgType} (he : e.type = .body)
    (hclean : Clean (msgBody ctx e)) : Calms ctx e (msgBody ctx e) := by
  have hstep : SameFields ctx (msgBody ctx e) ∧
      (msgBody ctx e).ctransferEncodingHeader = ctx.ctransferEncodingHeader := by
    obtain ⟨dd, pb, be, l, heq⟩ := boundaryLine_dashSeen
      (if ctx.mediaFilterApply then ctx else ctx.emit (e.octet 0)) (e.octet 0)
    rw [msgBody, heq]
    split_ifs <;> exact ⟨⟨rfl, rfl, rfl, rfl⟩, rfl⟩
  exact hstep.1.calms h (by simp [he]) (by simp [he]) (.inr hstep.2) hclean

/-- The CR at the end of a line of the body. -/
theorem Calm.bodyCr (h : Calm ctx) {e : ParserEvent MimeMsgType} (he : e.type = .bodyCr)
    (hclean : Clean (msgBodyCr ctx e)) : Calms ctx e (msgBodyCr ctx e) := by
  have hstep : SameFields ctx (msgBodyCr ctx e) ∧
      (msgBodyCr ctx e).ctransferEncodingHeader = ctx.ctransferEncodingHeader := by
    rw [msgBodyCr]
    split_ifs <;> exact ⟨⟨rfl, rfl, rfl, rfl⟩, rfl⟩
  exact hstep.1.calms h (by simp [he]) (by simp [he]) (.inr hstep.2) hclean

/-- **One event** leaves the context calm. -/
theorem Calm.event (h : Calm ctx) {e : ParserEvent MimeMsgType} (he : ValueEvent e)
    (hname : e.type = .name → Named ctx ∧ ∃ d, e = MimeMsg.name d)
    (hres : mimeMsgEvent env ctx e = .ok ctx') : Calms ctx e ctx' := by
  obtain ⟨hclean, -⟩ := mimeMsgEvent_cost h.clean he hres
  obtain ⟨ty, data, n⟩ := e
  cases ty with
  | name =>
    obtain ⟨hn, d, hd⟩ := hname rfl
    rw [hd] at hres ⊢
    obtain rfl := Except.ok.inj hres
    obtain ⟨hcalm, hnamed⟩ := h.name hn d hclean
    exact ⟨hcalm, fun _ => hnamed, fun _ _ => hnamed⟩
  | value =>
    obtain ⟨d, hd⟩ := he rfl
    rw [hd] at hres ⊢
    exact h.value hres hclean
  | bodyNewline => exact (msgBodyNewline_atBoundary hres).calms h hclean rfl
  | valueEnd =>
    obtain rfl := Except.ok.inj hres
    exact ⟨⟨h.replace, nofun, hclean⟩, fun _ => nofun, fun _ _ => nofun⟩
  | nameEnd =>
    obtain rfl := Except.ok.inj hres
    exact h.nameEnd rfl hclean
  | bodyStart =>
    obtain rfl := Except.ok.inj hres
    exact h.bodyStart rfl hclean
  | body =>
    obtain rfl := Except.ok.inj hres
    exact h.body rfl hclean
  | bodyCr =>
    obtain rfl := Except.ok.inj hres
    exact h.bodyCr rfl hclean
  | wait | unexpected | valueFold =>
    obtain rfl := Except.ok.inj hres
    refine SameFields.calms ?_ h ?_ ?_ (.inr rfl) hclean
    · exact ⟨rfl, rfl, rfl, rfl⟩
    · exact nofun
    · exact nofun

/-! ## Octet by octet -/

/-- An octet of a name comes behind another one, or behind the end of a value. -/
theorem mimeMsgFeed_names (s : MimeMsgState) (c : Byte) :
    (∃ t e, mimeMsgFeed s c = (t, [e]) ∧ t ≠ .name0 ∧ (t = .name → e.type = .name) ∧
      (e.type = .name → (s = .name0 ∨ s = .name) ∧ ∃ d, e = MimeMsg.name d)) ∨
    (∃ t e₁ e₂, mimeMsgFeed s c = (t, [e₁, e₂]) ∧ t ≠ .name0 ∧ (t = .name → e₂.type = .name) ∧
      e₁.type ≠ .name ∧ e₂.type ≠ .nameEnd ∧
      (e₂.type = .name → e₁.type = .valueEnd ∧ ∃ d, e₂ = MimeMsg.name d)) := by
  -- most rows of the table tell one event, which is not of a name
  have hother {t : MimeMsgState} {e : ParserEvent MimeMsgType} (h : mimeMsgFeed s c = (t, [e]))
      (ht : t ≠ .name0) (ht' : t ≠ .name) (he : e.type ≠ .name) :
      ∃ t e, mimeMsgFeed s c = (t, [e]) ∧ t ≠ .name0 ∧ (t = .name → e.type = .name) ∧
        (e.type = .name → (s = .name0 ∨ s = .name) ∧ ∃ d, e = MimeMsg.name d) :=
    ⟨t, e, h, ht, fun h => absurd h ht', fun h => absurd h he⟩
  -- within a name there is one event, the octet
  have hname (hs : s = .name0 ∨ s = .name) (h : mimeMsgFeed s c = (.name, [MimeMsg.name c])) :
      ∃ t e, mimeMsgFeed s c = (t, [e]) ∧ t ≠ .name0 ∧ (t = .name → e.type = .name) ∧
        (e.type = .name → (s = .name0 ∨ s = .name) ∧ ∃ d, e = MimeMsg.name d) :=
    ⟨_, _, h, nofun, fun _ => rfl, fun _ => ⟨hs, c, rfl⟩⟩
  cases s with
  | name0 =>
    left
    have hfeed := mimeMsgFeed_name0 c
    split_ifs at hfeed
    · exact hname (.inl rfl) hfeed
    · exact hother hfeed nofun nofun nofun
  | name =>
    left
    have hfeed := mimeMsgFeed_name c
    split_ifs at hfeed
    · exact hother hfeed nofun nofun nofun
    · exact hname (.inr rfl) hfeed
    · exact hother hfeed nofun nofun nofun
  | value =>
    left
    have hfeed := mimeMsgFeed_value c
    split_ifs at hfeed <;> exact hother hfeed nofun nofun nofun
  | valueCr =>
    have hfeed := mimeMsgFeed_valueCr c
    split_ifs at hfeed
    · exact .inl (hother hfeed nofun nofun nofun)
    · exact .inr ⟨_, _, _, hfeed, nofun, nofun, nofun, nofun, nofun⟩
  | valueCrlf =>
    have hfeed := mimeMsgFeed_valueCrlf c
    split_ifs at hfeed
    · exact .inl (hother hfeed nofun nofun nofun)
    · exact .inr ⟨_, _, _, hfeed, nofun, nofun, nofun, nofun, nofun⟩
    · exact .inr ⟨_, _, _, hfeed, nofun, fun _ => rfl, nofun, nofun, fun _ => ⟨rfl, c, rfl⟩⟩
    · exact .inr ⟨_, _, _, hfeed, nofun, nofun, nofun, nofun, nofun⟩
    · exact .inl (hother hfeed nofun nofun nofun)
  | fold =>
    left
    have hfeed := mimeMsgFeed_fold c
    split_ifs at hfeed <;> exact hother hfeed nofun nofun nofun
  | valueCrlfCr =>
    right
    have hfeed := mimeMsgFeed_valueCrlfCr c
    split_ifs at hfeed <;> exact ⟨_, _, _, hfeed, nofun, nofun, nofun, nofun, nofun⟩
  | body =>
    left
    have hfeed := mimeMsgFeed_body c
    split_ifs at hfeed <;> exact hother hfeed nofun nofun nofun
  | bodyCr =>
    left
    have hfeed := mimeMsgFeed_bodyCr c
    split_ifs at hfeed <;> exact hother hfeed nofun nofun nofun
  | error => exact .inl (hother (mimeMsgFeed_error c) nofun nofun nofun)

/-- A calm context, and when a name is being read it is not the whole of one that was. -/
structure Settled (ctx : Ctx) : Prop extends Calm ctx where
  naming : ctx.msg = .name0 ∨ ctx.msg = .name → Named ctx

/-- The state of the tokenizer is nothing to it. -/
theorem Calm.withMsg (h : Calm ctx) (s : MimeMsgState) : Calm { ctx with msg := s } :=
  ⟨h.replace, h.apart, h.clean⟩

/-- **One octet** leaves the context settled. -/
theorem Settled.octet (h : Settled ctx) (hres : mimeMsg env ctx c = .ok ctx') : Settled ctx' := by
  have hvalue := mimeMsgFeed_valueEvent ctx.msg c
  rcases mimeMsgFeed_names ctx.msg c with
    ⟨t, e, hfeed, ht, hdest, hname⟩ | ⟨t, e₁, e₂, hfeed, ht, hdest, hne₁, hne₂, hname⟩
  · rw [hfeed] at hvalue
    rw [mimeMsg_single hfeed] at hres
    have hstep := (h.toCalm.withMsg t).event (hvalue e (by simp))
      (fun he => ⟨h.naming (hname he).1, (hname he).2⟩) hres
    refine ⟨hstep.calm, fun hs => hstep.named ?_⟩
    by_cases hsame : ctx'.msg = t
    · rw [hsame] at hs
      exact .inl (hdest (hs.resolve_left ht))
    · exact .inr (.inr hsame)
  · rw [hfeed] at hvalue
    rw [mimeMsg_pair hfeed] at hres
    obtain ⟨ctx₁, h₁, hres⟩ := bind_eq_ok.mp hres
    have hstep₁ := (h.toCalm.withMsg t).event (hvalue e₁ (by simp)) (fun he => absurd he hne₁) h₁
    have hstep₂ := hstep₁.calm.event (hvalue e₂ (by simp))
      (fun he => ⟨hstep₁.named (.inr (.inl (hname he).1)), (hname he).2⟩) hres
    refine ⟨hstep₂.calm, fun hs => ?_⟩
    by_cases hsame : ctx'.msg = ctx₁.msg
    · by_cases hsame₁ : ctx₁.msg = t
      · rw [hsame, hsame₁] at hs
        exact hstep₂.named (.inl (hdest (hs.resolve_left ht)))
      · exact hstep₂.keeps hne₂ (hstep₁.named (.inr (.inr hsame₁)))
    · exact hstep₂.named (.inr (.inr hsame))

/-- **Every context that is reached** is settled. -/
theorem Reached.settled (h : Reached env ctx) : Settled ctx := by
  induction h with
  | initial entries => exact ⟨⟨rfl, nofun, List.not_mem_nil⟩, fun _ => nofun⟩
  | octet _ hres ih => exact ih.octet hres
  | restart _ ih => exact ⟨⟨ih.replace, nofun, ih.clean.erase⟩, fun _ => nofun⟩
  | rewind _ ih => exact ⟨⟨ih.replace, ih.apart, List.not_mem_nil⟩, ih.naming⟩

end

end Pop3Proxy
