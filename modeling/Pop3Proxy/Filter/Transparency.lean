/-
# When the filter leaves a mail alone

As long as no content type completes an entry of the list, the filter only
copies, and every octet it is fed comes out at once, except in three places of
a header: where a field is folded, at a CR inside a value, and at the blank line.
There it writes a CR too many (or loses the LF of the blank line), and from
then on what it has written is not what it has read.
-/
import Mathlib.Data.List.Induction
import Pop3Proxy.Library.Divergence
import Pop3Proxy.Filter.Mail
import Pop3Proxy.Filter.Matching

namespace Pop3Proxy

/-- The octet completes an entry of the list, and it is in the value of a
`Content-Type` field. -/
def Matches (ctx : Ctx) (c : Byte) : Prop :=
  ctx.msgContentTypeFieldDetected = some true ∧ (mimeMsgFeed ctx.msg c).2 = [MimeMsg.value c] ∧
    TypeMatches ctx c

/-- The octet after a CR inside a value, the one that folds a field, and the end
of the blank line. -/
def Disturbs (s : MimeMsgState) (c : Byte) : Prop :=
  s = .valueCr ∧ c ≠ LF ∨ s = .valueCrlf ∧ lwspChar c = true ∨ s = .valueCrlfCr ∧ c = LF

instance (ctx : Ctx) (c : Byte) : Decidable (Matches ctx c) :=
  inferInstanceAs (Decidable (_ ∧ _ ∧ _))

instance (s : MimeMsgState) (c : Byte) : Decidable (Disturbs s c) :=
  inferInstanceAs (Decidable (_ ∨ _ ∨ _))

section
variable {env : FilterEnv} {ctx ctx' : Ctx} {c : Byte}

/-! ## Events -/

/-- An octet that makes one event. -/
theorem mimeMsg_single {s : MimeMsgState} {e : ParserEvent MimeMsgType}
    (h : mimeMsgFeed ctx.msg c = (s, [e])) :
    mimeMsg env ctx c = mimeMsgEvent env { ctx with msg := s } e := by
  rw [mimeMsg, h]
  simp

/-- An octet that makes two, one behind the other. -/
theorem mimeMsg_pair {s : MimeMsgState} {e₁ e₂ : ParserEvent MimeMsgType}
    (h : mimeMsgFeed ctx.msg c = (s, [e₁, e₂])) :
    mimeMsg env ctx c =
      mimeMsgEvent env { ctx with msg := s } e₁ >>= fun ctx => mimeMsgEvent env ctx e₂ := by
  rw [mimeMsg, h]
  simp

/-- What an event writes when nothing is replaced. -/
def eventText (ctx : Ctx) (e : ParserEvent MimeMsgType) : List Byte :=
  match e.type with
  | .valueEnd => []
  | .bodyStart => if ctx.rfc822Detected then [] else [e.octet 0, e.octet 1]
  | _ => [e.octet 0]

/-- The events that are copied without another look. -/
def MimeMsgType.copies : MimeMsgType → Bool
  | .value | .valueEnd | .bodyStart | .bodyNewline => false
  | _ => true

/-- **What an event does** when nothing is replaced: it writes its text, and only
the end of a value sets the tokenizer. -/
structure EventStep (ctx : Ctx) (e : ParserEvent MimeMsgType) (ctx' : Ctx) : Prop where
  listOk : ListOk ctx'
  quiet : Quiet ctx'
  emitted : ctx'.emitted = ctx.emitted ++ eventText ctx e
  msg : ctx'.msg = if e.type = .valueEnd ∧ ctx.rfc822Detected = true then .name0 else ctx.msg

/-- An octet that is written is the last one. -/
theorem emitted_emit (ctx : Ctx) (c : Byte) : (ctx.emit c).emitted = ctx.emitted ++ [c] :=
  Tape.written_write c ctx.mail

/-- The name of a field. -/
theorem msgName_spec (h : ListOk ctx) (hq : Quiet ctx) {e : ParserEvent MimeMsgType}
    (he : e.type = .name) : EventStep ctx e (msgName ctx e) := by
  obtain ⟨p, flag, p', flag', hname⟩ := msgName_frame ctx e
  rw [hname]
  refine ⟨⟨h.entries, h.subtypes, h.inForce⟩, ⟨hq.apply, hq.replace⟩, ?_, ?_⟩
  · rw [Ctx.emitted, Tape.written_write]
    simp [eventText, he, Ctx.emitted]
  · rw [if_neg (by simp [he])]

/-- The value of a field. -/
theorem msgValue_spec (env : FilterEnv) (h : ListOk ctx) (hq : Quiet ctx) {d : Byte}
    (hno : ctx.msgContentTypeFieldDetected = some true → ¬ TypeMatches ctx d) :
    ∃ ctx', msgValue env ctx (MimeMsg.value d) = .ok ctx' ∧
      EventStep ctx (MimeMsg.value d) ctx' ∧
      (ctx'.msgContentTypeFieldDetected = some true →
        ctx'.contentType = (mimeTypeFeed ctx.contentType d).1) := by
  -- what is left of the event, once the content type has been looked at
  have hwrite : ∀ ctx₁, ListOk ctx₁ → Quiet ctx₁ → ctx₁.mail = ctx.mail → ctx₁.msg = ctx.msg →
      ∃ ctx', (if ctx₁.msgContentTransferEncodingFieldDetected = some true ∧
          ctx₁.mediaFilterApply = true then Except.ok ctx₁ else writeValue ctx₁ d) = .ok ctx' ∧
        EventStep ctx (MimeMsg.value d) ctx' ∧ ctx'.contentType = ctx₁.contentType ∧
        ctx'.msgContentTypeFieldDetected = ctx₁.msgContentTypeFieldDetected := by
    intro ctx₁ hok₁ hq₁ hmail hmsg
    rw [if_neg (by simp [hq₁.apply]), writeValue, if_neg (by simp [hq₁.replace])]
    refine ⟨_, rfl, ⟨⟨hok₁.entries, hok₁.subtypes, hok₁.inForce⟩, ⟨hq₁.apply, hq₁.replace⟩, ?_, ?_⟩,
      rfl, rfl⟩
    · rw [emitted_emit, Ctx.emitted, hmail]
      rfl
    · exact hmsg
  simp only [msgValue, MimeMsg.value, List.take, List.foldlM_cons, List.foldlM_nil,
    ParserEvent.octet, List.getD_cons_zero]
  split_ifs with hd
  · obtain ⟨ctx₁, hmsg, hok₁, hq₁, hs₁⟩ := contentTypeMsg_spec env h hq (hno hd.1)
    simp only [hmsg, ok_bind]
    obtain ⟨ctx', hctx', hstep, hct, -⟩ := hwrite ctx₁ hok₁ hq₁ hs₁.mail hs₁.msg
    exact ⟨ctx', hctx', hstep, fun _ => hct.trans hs₁.contentType⟩
  · obtain ⟨ctx', hctx', hstep, -, hfield'⟩ := hwrite ctx h hq rfl rfl
    refine ⟨ctx', hctx', hstep, fun hfield => absurd ⟨hfield' ▸ hfield, ?_⟩ hd⟩
    simp [hq.apply]

/-- **Every other event** but the end of a line of the body. -/
theorem mimeMsgEvent_spec (env : FilterEnv) (h : ListOk ctx) (hq : Quiet ctx)
    {e : ParserEvent MimeMsgType}
    (he : e.type ≠ .value) (he' : e.type ≠ .bodyNewline) :
    ∃ ctx', mimeMsgEvent env ctx e = .ok ctx' ∧ EventStep ctx e ctx' := by
  obtain ⟨ty, data, n⟩ := e
  -- an event that is copied leaves everything but the output alone
  have hemit : ty ≠ .valueEnd → ty ≠ .bodyStart → EventStep ctx ⟨ty, data, n⟩
      (ctx.emit (ParserEvent.octet ⟨ty, data, n⟩ 0)) := by
    intro hne hne'
    refine ⟨⟨h.entries, h.subtypes, h.inForce⟩, ⟨hq.apply, hq.replace⟩, ?_, ?_⟩
    · rw [emitted_emit]
      cases ty <;> first | rfl | exact absurd rfl hne | exact absurd rfl hne'
    · rw [if_neg (by simp [hne])]
      rfl
  cases ty with
  | value => exact absurd rfl he
  | bodyNewline => exact absurd rfl he'
  | name => exact ⟨_, rfl, msgName_spec h hq rfl⟩
  | nameEnd =>
    refine ⟨_, rfl, ?_⟩
    rw [msgNameEnd, if_neg (by simp [Ctx.emit, hq.apply])]
    exact ⟨⟨h.entries, h.subtypes, h.inForce⟩, ⟨hq.apply, hq.replace⟩, emitted_emit _ _, rfl⟩
  | valueEnd =>
    refine ⟨_, rfl, ⟨h.entries, h.subtypes, h.inForce⟩, ⟨hq.apply, hq.replace⟩, ?_, ?_⟩
    · exact (List.append_nil _).symm
    · simp [msgValueEnd]
  | bodyStart =>
    refine ⟨_, rfl, ?_⟩
    have ha : ∀ c c', ¬ ((ctx.emit c).emit c').mediaFilterApply = true := fun c c' => by
      show ¬ ctx.mediaFilterApply = true
      simp [hq.apply]
    rw [msgBodyStart, if_neg (ha _ _)]
    split_ifs with hr
    · refine ⟨⟨h.entries, h.subtypes, fun hstate => ?_⟩, ⟨hq.apply, hq.replace⟩, ?_, rfl⟩
      · simp [mimeTypeParser] at hstate
      · simp [eventText, hr, Ctx.emitted]
    · refine ⟨⟨h.entries, h.subtypes, h.inForce⟩, ⟨hq.apply, hq.replace⟩, ?_, rfl⟩
      rw [emitted_emit, emitted_emit, List.append_assoc]
      simp [eventText, hr]
  | body =>
    refine ⟨_, rfl, ?_⟩
    rw [msgBody, if_neg (by simp [hq.apply])]
    obtain ⟨dd, pb, be, l, heq⟩ := boundaryLine_dashSeen
      (ctx.emit (ParserEvent.octet (T := MimeMsgType) ⟨.body, data, n⟩ 0))
      (ParserEvent.octet (T := MimeMsgType) ⟨.body, data, n⟩ 0)
    rw [heq]
    exact ⟨⟨h.entries, h.subtypes, h.inForce⟩, ⟨hq.apply, hq.replace⟩, emitted_emit _ _, rfl⟩
  | bodyCr =>
    refine ⟨_, rfl, ?_⟩
    rw [msgBodyCr, if_neg (by simp [hq.apply])]
    exact hemit (by simp) (by simp)
  | wait | unexpected | valueFold => exact ⟨_, rfl, hemit (by simp) (by simp)⟩

/-- What was written stays, and more may follow. -/
structure Extends (ctx ctx' : Ctx) : Prop where
  listOk : ListOk ctx'
  quiet : Quiet ctx'
  emitted : ∃ text, ctx'.emitted = ctx.emitted ++ text

/-- Nothing has to follow. -/
theorem Extends.refl (h : ListOk ctx) (hq : Quiet ctx) : Extends ctx ctx := ⟨h, hq, [], by simp⟩

/-- More may follow what has followed. -/
theorem Extends.trans {ctx'' : Ctx} (h : Extends ctx ctx') (h' : Extends ctx' ctx'') :
    Extends ctx ctx'' := by
  obtain ⟨text, ht⟩ := h.emitted
  obtain ⟨text', ht'⟩ := h'.emitted
  exact ⟨h'.listOk, h'.quiet, text ++ text', by rw [ht', ht, List.append_assoc]⟩

/-- An event only adds to what was written. -/
theorem EventStep.extends {e : ParserEvent MimeMsgType} (h : EventStep ctx e ctx') :
    Extends ctx ctx' := ⟨h.listOk, h.quiet, _, h.emitted⟩

/-- Resetting takes no subtype away. -/
theorem resetSubtypes_ne_nil {ss : List Subtype} (h : ss ≠ []) : resetSubtypes ss ≠ [] := by
  cases ss with
  | nil => exact absurd rfl h
  | cons s ss => cases s <;> simp [resetSubtypes]

/-- A delimiter takes nothing back. -/
theorem boundaryFound_extends (h : ListOk ctx) (hq : Quiet ctx)
    (hres : boundaryFound ctx = .ok ctx') : Extends ctx ctx' := by
  rw [boundaryFound, if_neg (by simp [hq.apply]), resetParserTypesAndSubtypes,
    if_neg (by simpa using h.entries)] at hres
  simp only [Except.ok.injEq] at hres
  subst hres
  refine ⟨⟨?_, ?_, fun hstate => ?_⟩, ⟨rfl, hq.replace⟩, [], by simp [Ctx.emitted]⟩
  · simpa [resetTypes] using h.entries
  · intro t ht
    obtain ⟨t', ht', rfl⟩ := List.mem_map.mp ht
    exact resetSubtypes_ne_nil (h.subtypes t' ht')
  · simp [mimeTypeParser] at hstate

/-- Nor does the end of a multipart. -/
theorem boundaryEndFound_extends (h : ListOk ctx) (hq : Quiet ctx) :
    Extends ctx (boundaryEndFound ctx) := by
  rw [boundaryEndFound, if_neg (by simp [hq.apply])]
  exact ⟨⟨h.entries, h.subtypes, h.inForce⟩, ⟨rfl, hq.replace⟩, [LF], emitted_emit ctx LF⟩

/-- Nor does a comparison with the top of the stack. -/
theorem peekIs_extends (h : ListOk ctx) (hq : Quiet ctx) {same : List Byte → List Byte → Bool}
    {b : Bool} (hres : peekIs ctx same env = .ok (b, ctx')) : Extends ctx ctx' := by
  rw [peekIs] at hres
  split at hres
  · simp at hres
  · simp only [Except.ok.injEq, Prod.mk.injEq] at hres
    rw [← hres.2]
    exact ⟨⟨h.entries, h.subtypes, h.inForce⟩, ⟨hq.apply, hq.replace⟩, [], by simp [Ctx.emitted]⟩

/-- Nor does the search for a delimiter. -/
theorem partBoundary_extends (h : ListOk ctx) (hq : Quiet ctx)
    (hres : partBoundary env ctx = .ok ctx') : Extends ctx ctx' := by
  rw [partBoundary] at hres
  split_ifs at hres
  · obtain ⟨⟨same, ctx₁⟩, hpeek, hres⟩ := bind_eq_ok.mp hres
    have h₁ := peekIs_extends h hq hpeek
    simp only at hres
    split_ifs at hres
    · exact h₁.trans (boundaryFound_extends h₁.listOk h₁.quiet hres)
    · obtain rfl := Except.ok.inj hres
      exact h₁
  · obtain rfl := Except.ok.inj hres
    exact .refl h hq

/-- Nor the one for the end. -/
theorem lastBoundary_extends (h : ListOk ctx) (hq : Quiet ctx)
    (hres : lastBoundary env ctx = .ok ctx') : Extends ctx ctx' := by
  rw [lastBoundary] at hres
  split_ifs at hres
  · obtain ⟨⟨same, ctx₁⟩, hpeek, hres⟩ := bind_eq_ok.mp hres
    have h₁ := peekIs_extends h hq hpeek
    obtain rfl := Except.ok.inj hres
    simp only
    split_ifs
    · exact h₁.trans (boundaryEndFound_extends h₁.listOk h₁.quiet)
    · exact h₁
  · obtain rfl := Except.ok.inj hres
    exact .refl h hq

/-- The end of a line of the body. -/
theorem msgBodyNewline_extends (h : ListOk ctx) (hq : Quiet ctx) {e : ParserEvent MimeMsgType}
    (hres : msgBodyNewline env ctx e = .ok ctx') : Extends ctx ctx' := by
  rw [msgBodyNewline, if_neg (by simp [hq.apply])] at hres
  obtain ⟨ctx₁, h₁, hres⟩ := bind_eq_ok.mp hres
  obtain ⟨ctx₂, h₂, hres⟩ := bind_eq_ok.mp hres
  obtain rfl := Except.ok.inj hres
  have h₀ : Extends ctx (ctx.emit (e.octet 0)) :=
    ⟨⟨h.entries, h.subtypes, h.inForce⟩, ⟨hq.apply, hq.replace⟩, _, emitted_emit _ _⟩
  have h₁' := partBoundary_extends h₀.listOk h₀.quiet h₁
  have h₂' := (h₀.trans h₁').trans (lastBoundary_extends h₁'.listOk h₁'.quiet h₂)
  exact ⟨⟨h₂'.listOk.entries, h₂'.listOk.subtypes, h₂'.listOk.inForce⟩,
    ⟨h₂'.quiet.apply, h₂'.quiet.replace⟩, h₂'.emitted⟩

/-! ## Octets -/

/-- The subtype is never what follows a CR. -/
theorem mimeTypeFeed_cr (p : MimeTypeState) : (mimeTypeFeed p CR).1 ≠ .subtype := by
  cases p <;> decide

/-- **A single event** that completes no match. -/
theorem mimeMsg_step (env : FilterEnv) (h : ListOk ctx) (hq : Quiet ctx) (hno : ¬ Matches ctx c)
    {s : MimeMsgState}
    {e : ParserEvent MimeMsgType} (hfeed : mimeMsgFeed ctx.msg c = (s, [e]))
    (he : e.type.copies = true ∨ e = MimeMsg.value c) :
    ∃ ctx', mimeMsg env ctx c = .ok ctx' ∧ EventStep { ctx with msg := s } e ctx' := by
  rw [mimeMsg_single hfeed]
  have hok : ListOk { ctx with msg := s } := ⟨h.entries, h.subtypes, h.inForce⟩
  have hquiet : Quiet { ctx with msg := s } := ⟨hq.apply, hq.replace⟩
  rcases he with he | rfl
  · refine mimeMsgEvent_spec env hok hquiet ?_ ?_ <;>
      exact fun heq => absurd he (by simp [heq, MimeMsgType.copies])
  · obtain ⟨ctx', hres, hstep, -⟩ := msgValue_spec env (d := c) hok hquiet
      fun hfield hmatch => hno ⟨hfield, by rw [hfeed], hmatch⟩
    exact ⟨ctx', hres, hstep⟩

/-- **A copied octet**: it comes out at once. -/
structure Copied (ctx : Ctx) (c : Byte) (ctx' : Ctx) : Prop where
  listOk : ListOk ctx'
  quiet : Quiet ctx'
  emitted : ctx'.emitted = ctx.emitted ++ [c]
  msg : ctx'.msg = (mimeMsgFeed ctx.msg c).1 ∨
    ctx'.msg = .name0 ∧ (ctx.msg = .valueCrlf ∨ ctx.msg = .valueCrlfCr)

/-- The end of a value, and the octet that came behind it. -/
theorem mimeMsg_afterValue (env : FilterEnv) (h : ListOk ctx) (hq : Quiet ctx) {s : MimeMsgState}
    {e : ParserEvent MimeMsgType} (hfeed : mimeMsgFeed ctx.msg c = (s, [MimeMsg.valueEnd c, e]))
    (he : e.type.copies = true ∨ e.type = .bodyStart) :
    ∃ ctx', mimeMsg env ctx c = .ok ctx' ∧ ListOk ctx' ∧ Quiet ctx' ∧
      ctx'.emitted = ctx.emitted ++ eventText ctx e ∧
      ctx'.msg = if ctx.rfc822Detected then .name0 else s := by
  rw [mimeMsg_pair hfeed]
  have h₁ : EventStep { ctx with msg := s } (MimeMsg.valueEnd c)
      (msgValueEnd { ctx with msg := s }) := by
    refine ⟨⟨h.entries, h.subtypes, h.inForce⟩, ⟨hq.apply, hq.replace⟩, ?_, ?_⟩
    · exact (List.append_nil _).symm
    · simp [msgValueEnd, MimeMsg.valueEnd]
  have hne : ¬ e.type = .value ∧ ¬ e.type = .bodyNewline ∧ ¬ e.type = .valueEnd := by
    rcases he with he | he
    · refine ⟨?_, ?_, ?_⟩ <;> exact fun heq => absurd he (by simp [heq, MimeMsgType.copies])
    · simp [he]
  obtain ⟨ctx', hres, h₂⟩ := mimeMsgEvent_spec env h₁.listOk h₁.quiet hne.1 hne.2.1
  refine ⟨ctx', hres, h₂.listOk, h₂.quiet, ?_, ?_⟩
  · rw [h₂.emitted]
    rfl
  · rw [h₂.msg, if_neg (by simp [hne.2.2])]
    rfl

/-- **What is copied**: every octet but those that disturb and the end of a line
of the body. -/
theorem mimeMsg_copies (env : FilterEnv) (h : ListOk ctx) (hq : Quiet ctx) (hno : ¬ Matches ctx c)
    (hd : ¬ Disturbs ctx.msg c) (hline : ¬ (ctx.msg = .bodyCr ∧ c = LF)) :
    ∃ ctx', mimeMsg env ctx c = .ok ctx' ∧ Copied ctx c ctx' := by
  -- one event with the octet for its text
  have hone : ∀ {s : MimeMsgState} {e : ParserEvent MimeMsgType},
      mimeMsgFeed ctx.msg c = (s, [e]) → e.type.copies = true ∨ e = MimeMsg.value c →
      (∀ ctx, eventText ctx e = [c]) →
      ∃ ctx', mimeMsg env ctx c = .ok ctx' ∧ Copied ctx c ctx' := by
    intro s e hfeed he htext
    obtain ⟨ctx', hres, hstep⟩ := mimeMsg_step env h hq hno hfeed he
    refine ⟨ctx', hres, hstep.listOk, hstep.quiet, ?_, .inl ?_⟩
    · rw [hstep.emitted, htext]
      rfl
    · have hne : ¬ e.type = .valueEnd := by
        rcases he with he | rfl
        · exact fun heq => absurd he (by simp [heq, MimeMsgType.copies])
        · simp [MimeMsg.value]
      rw [hstep.msg, if_neg (by simp [hne]), hfeed]
  -- the end of a value before it
  have htwo : ∀ {s : MimeMsgState} {e : ParserEvent MimeMsgType},
      mimeMsgFeed ctx.msg c = (s, [MimeMsg.valueEnd c, e]) → e.type.copies = true →
      (∀ ctx, eventText ctx e = [c]) → (ctx.msg = .valueCrlf ∨ ctx.msg = .valueCrlfCr) →
      ∃ ctx', mimeMsg env ctx c = .ok ctx' ∧ Copied ctx c ctx' := by
    intro s e hfeed he htext hs
    obtain ⟨ctx', hres, hok, hquiet, hem, hmsg⟩ :=
      mimeMsg_afterValue env h hq hfeed (.inl he)
    refine ⟨ctx', hres, hok, hquiet, by rw [hem, htext], ?_⟩
    split_ifs at hmsg with hr
    · exact .inr ⟨hmsg, hs⟩
    · exact .inl (by rw [hmsg, hfeed])
  obtain ⟨p, hstate⟩ : ∃ p, ctx.msg = p := ⟨_, rfl⟩
  rw [hstate] at hd hline
  cases p with
  | name0 =>
    have hfeed := (congrArg (mimeMsgFeed · c) hstate).trans (mimeMsgFeed_name0 c)
    split_ifs at hfeed
    · exact hone hfeed (.inl rfl) fun _ => rfl
    · exact hone hfeed (.inl rfl) fun _ => rfl
  | name =>
    have hfeed := (congrArg (mimeMsgFeed · c) hstate).trans (mimeMsgFeed_name c)
    split_ifs at hfeed with hc
    · subst hc
      exact hone hfeed (.inl rfl) fun _ => rfl
    · exact hone hfeed (.inl rfl) fun _ => rfl
    · exact hone hfeed (.inl rfl) fun _ => rfl
  | value =>
    have hfeed := (congrArg (mimeMsgFeed · c) hstate).trans (mimeMsgFeed_value c)
    split_ifs at hfeed
    · exact hone hfeed (.inl rfl) fun _ => rfl
    · exact hone hfeed (.inl rfl) fun _ => rfl
    · exact hone hfeed (.inr rfl) fun _ => rfl
  | valueCr =>
    have hc : c = LF := by
      by_contra hc
      exact hd (.inl ⟨rfl, hc⟩)
    have hfeed := (congrArg (mimeMsgFeed · c) hstate).trans (mimeMsgFeed_valueCr c)
    rw [if_pos hc] at hfeed
    exact hone hfeed (.inl rfl) fun _ => rfl
  | valueCrlf =>
    have hl : ¬ lwspChar c = true := fun hl => hd (.inr (.inl ⟨rfl, hl⟩))
    have hfeed := (congrArg (mimeMsgFeed · c) hstate).trans (mimeMsgFeed_valueCrlf c)
    rw [if_neg hl] at hfeed
    split_ifs at hfeed
    · exact hone hfeed (.inl rfl) fun _ => rfl
    · exact htwo hfeed rfl (fun _ => rfl) (.inl hstate)
    · exact htwo hfeed rfl (fun _ => rfl) (.inl hstate)
    · exact hone hfeed (.inl rfl) fun _ => rfl
  | fold =>
    have hfeed := (congrArg (mimeMsgFeed · c) hstate).trans (mimeMsgFeed_fold c)
    split_ifs at hfeed
    · exact hone hfeed (.inl rfl) fun _ => rfl
    · exact hone hfeed (.inr rfl) fun _ => rfl
  | valueCrlfCr =>
    have hc : ¬ c = LF := fun hc => hd (.inr (.inr ⟨rfl, hc⟩))
    have hfeed := (congrArg (mimeMsgFeed · c) hstate).trans (mimeMsgFeed_valueCrlfCr c)
    rw [if_neg hc] at hfeed
    exact htwo hfeed rfl (fun _ => rfl) (.inr hstate)
  | body =>
    have hfeed := (congrArg (mimeMsgFeed · c) hstate).trans (mimeMsgFeed_body c)
    split_ifs at hfeed
    · exact hone hfeed (.inl rfl) fun _ => rfl
    · exact hone hfeed (.inl rfl) fun _ => rfl
  | bodyCr =>
    have hc : ¬ c = LF := fun hc => hline ⟨rfl, hc⟩
    have hfeed := (congrArg (mimeMsgFeed · c) hstate).trans (mimeMsgFeed_bodyCr c)
    rw [if_neg hc] at hfeed
    exact hone hfeed (.inl rfl) fun _ => rfl
  | error =>
    have hfeed := (congrArg (mimeMsgFeed · c) hstate).trans (mimeMsgFeed_error c)
    exact hone hfeed (.inl rfl) fun _ => rfl

/-- **What disturbs** writes a CR too many, or swallows the end of the blank line. -/
theorem mimeMsg_disturbs (env : FilterEnv) (h : ListOk ctx) (hq : Quiet ctx)
    (hd : Disturbs ctx.msg c) :
    ∃ ctx', mimeMsg env ctx c = .ok ctx' ∧ ListOk ctx' ∧ Quiet ctx' ∧
      (ctx'.emitted = ctx.emitted ++ [CR, c] ∧ (c = CR → ctx'.msg = .value) ∨
        c = LF ∧ ctx'.emitted = ctx.emitted ∧ ctx'.msg = .name0) := by
  rcases hd with ⟨hs, hc⟩ | ⟨hs, hc⟩ | ⟨hs, rfl⟩
  -- a CR alone in a value is written twice
  · have hfeed := (congrArg (mimeMsgFeed · c) hs).trans (mimeMsgFeed_valueCr c)
    rw [if_neg hc] at hfeed
    rw [mimeMsg_pair hfeed]
    have hok : ListOk { ctx with msg := .value } := ⟨h.entries, h.subtypes, h.inForce⟩
    have hquiet : Quiet { ctx with msg := .value } := ⟨hq.apply, hq.replace⟩
    obtain ⟨ctx₁, hres₁, h₁, hct⟩ := msgValue_spec env (d := CR) hok hquiet
      fun _ hmatch => absurd hmatch.2.1 (by decide)
    obtain ⟨ctx', hres, h₂, -⟩ := msgValue_spec env (d := c) h₁.listOk h₁.quiet
      fun hfield hmatch => mimeTypeFeed_cr _ ((hct hfield).symm.trans hmatch.1)
    refine ⟨ctx', ?_, h₂.listOk, h₂.quiet, .inl ⟨?_, fun _ => ?_⟩⟩
    · show msgValue env { ctx with msg := .value } (MimeMsg.value CR) >>= _ = _
      rw [hres₁]
      exact hres
    · rw [h₂.emitted, h₁.emitted, List.append_assoc]
      rfl
    · rw [h₂.msg, if_neg (by simp [MimeMsg.value]), h₁.msg, if_neg (by simp [MimeMsg.value])]
  -- so is the CR of a fold
  · have hcr : ¬ c = CR := by
      rintro rfl
      exact absurd hc (by decide)
    have hfeed := (congrArg (mimeMsgFeed · c) hs).trans (mimeMsgFeed_valueCrlf c)
    rw [if_neg hcr, if_pos hc] at hfeed
    rw [mimeMsg_pair hfeed]
    have hok : ListOk { ctx with msg := .fold } := ⟨h.entries, h.subtypes, h.inForce⟩
    have hquiet : Quiet { ctx with msg := .fold } := ⟨hq.apply, hq.replace⟩
    obtain ⟨ctx₁, hres₁, h₁⟩ := mimeMsgEvent_spec env hok hquiet
      (e := MimeMsg.valueFoldCrlf c) (by simp [MimeMsg.valueFoldCrlf])
        (by simp [MimeMsg.valueFoldCrlf])
    obtain ⟨ctx', hres, h₂⟩ := mimeMsgEvent_spec env h₁.listOk h₁.quiet
      (e := MimeMsg.valueFold c) (by simp [MimeMsg.valueFold]) (by simp [MimeMsg.valueFold])
    refine ⟨ctx', ?_, h₂.listOk, h₂.quiet, .inl ⟨?_, fun heq => absurd heq hcr⟩⟩
    · rw [hres₁]
      exact hres
    · rw [h₂.emitted, h₁.emitted, List.append_assoc]
      rfl
  -- the CR of a blank line comes again with the LF, or neither comes
  · have hfeed := (congrArg (mimeMsgFeed · LF) hs).trans (mimeMsgFeed_valueCrlfCr LF)
    rw [if_pos rfl] at hfeed
    obtain ⟨ctx', hres, hok, hquiet, hem, hmsg⟩ :=
      mimeMsg_afterValue env h hq hfeed (.inr rfl)
    refine ⟨ctx', hres, hok, hquiet, ?_⟩
    by_cases hr : ctx.rfc822Detected = true
    · refine .inr ⟨rfl, ?_, by rw [hmsg, if_pos hr]⟩
      rw [hem]
      simp [eventText, MimeMsg.bodyStart, hr]
    · refine .inl ⟨?_, fun heq => absurd heq (by decide)⟩
      rw [hem]
      simp [eventText, MimeMsg.bodyStart, ParserEvent.octet, hr]

/-- **Whatever is read**, what was written stays. -/
theorem mimeMsg_extends (h : ListOk ctx) (hq : Quiet ctx) (hno : ¬ Matches ctx c)
    (hres : mimeMsg env ctx c = .ok ctx') : Extends ctx ctx' := by
  by_cases hd : Disturbs ctx.msg c
  · obtain ⟨ctx₁, hres₁, hok, hquiet, hem⟩ := mimeMsg_disturbs env h hq hd
    obtain rfl := Except.ok.inj (hres.symm.trans hres₁)
    refine ⟨hok, hquiet, ?_⟩
    rcases hem with ⟨hem, -⟩ | ⟨-, hem, -⟩
    · exact ⟨_, hem⟩
    · exact ⟨[], by rw [hem, List.append_nil]⟩
  · by_cases hline : ctx.msg = .bodyCr ∧ c = LF
    · obtain ⟨hs, rfl⟩ := hline
      have hfeed := (congrArg (mimeMsgFeed · LF) hs).trans (mimeMsgFeed_bodyCr LF)
      rw [if_pos rfl] at hfeed
      rw [mimeMsg_single hfeed] at hres
      have hok : ListOk { ctx with msg := .body } := ⟨h.entries, h.subtypes, h.inForce⟩
      have hquiet : Quiet { ctx with msg := .body } := ⟨hq.apply, hq.replace⟩
      have hext := msgBodyNewline_extends hok hquiet hres
      exact ⟨hext.listOk, hext.quiet, hext.emitted⟩
    · obtain ⟨ctx₁, hres₁, hcopied⟩ := mimeMsg_copies env h hq hno hd hline
      obtain rfl := Except.ok.inj (hres.symm.trans hres₁)
      exact ⟨hcopied.listOk, hcopied.quiet, _, hcopied.emitted⟩

/-! ## Falling apart -/

/-- **What was written is not what was read**, and never will be again: the two
have parted, or a run of CRs has got longer, or the LF of a blank line is missing. -/
inductive Off (ctx : Ctx) (read : List Byte) : Prop
  | parted (h : Parted ctx.emitted read)
  | ahead (k : ℕ) (hs : ctx.msg = .value ∨ ctx.msg = .valueCr)
      (h : ctx.emitted = read ++ CR :: List.replicate k CR)
  | behind (hs : ctx.msg = .name0 ∨ ctx.msg = .error) (h : read = ctx.emitted ++ [LF])

/-- So it is not the same. -/
theorem Off.ne {read : List Byte} (h : Off ctx read) : ctx.emitted ≠ read := by
  cases h with
  | parted h => exact h.ne
  | ahead k _ h =>
    intro heq
    rw [h] at heq
    simp at heq
  | behind _ h =>
    intro heq
    rw [heq] at h
    simp at h

/-- The first disturbance. -/
theorem off_of_disturbs (env : FilterEnv) (h : ListOk ctx) (hq : Quiet ctx)
    (hd : Disturbs ctx.msg c) {read : List Byte} (hread : ctx.emitted = read) :
    ∃ ctx', mimeMsg env ctx c = .ok ctx' ∧ Off ctx' (read ++ [c]) := by
  obtain ⟨ctx', hres, -, -, hem⟩ := mimeMsg_disturbs env h hq hd
  refine ⟨ctx', hres, ?_⟩
  rcases hem with ⟨hem, hcr⟩ | ⟨rfl, hem, hmsg⟩
  · rw [hread] at hem
    by_cases hc : c = CR
    · subst hc
      exact .ahead 0 (.inl (hcr rfl)) (by simp [hem])
    · refine .parted ?_
      rw [hem]
      exact .after read (Ne.symm hc) [c] []
  · exact .behind (.inl hmsg) (by rw [hem, hread])

/-- One octet after the LF of a blank line got lost. -/
theorem off_behind (h : ListOk ctx) (hq : Quiet ctx) (hno : ¬ Matches ctx c)
    (hs : ctx.msg = .name0 ∨ ctx.msg = .error) (hres : mimeMsg env ctx c = .ok ctx') :
    Off ctx' (ctx.emitted ++ [LF] ++ [c]) := by
  have hd : ¬ Disturbs ctx.msg c := by
    rcases hs with hs | hs <;> simp [Disturbs, hs]
  have hline : ¬ (ctx.msg = .bodyCr ∧ c = LF) := by
    rcases hs with hs | hs <;> simp [hs]
  obtain ⟨ctx₁, hres₁, hcopied⟩ := mimeMsg_copies env h hq hno hd hline
  obtain rfl := Except.ok.inj (hres.symm.trans hres₁)
  by_cases hc : c = LF
  · subst hc
    refine .behind (.inr ?_) (by rw [hcopied.emitted])
    have hfeed : (mimeMsgFeed ctx.msg LF).1 = .error := by
      rcases hs with hs | hs <;> rw [hs] <;> rfl
    rcases hcopied.msg with hmsg | ⟨-, hmsg⟩
    · rw [hmsg, hfeed]
    · rcases hs with hs | hs <;> simp [hs] at hmsg
  · refine .parted ?_
    rw [hcopied.emitted, List.append_assoc]
    exact .after ctx.emitted hc [] [c]

/-- One octet after a run of CRs got longer. -/
theorem off_ahead (h : ListOk ctx) (hq : Quiet ctx) (hno : ¬ Matches ctx c) {read : List Byte}
    {k : ℕ} (hs : ctx.msg = .value ∨ ctx.msg = .valueCr)
    (hem : ctx.emitted = read ++ CR :: List.replicate k CR) (hres : mimeMsg env ctx c = .ok ctx') :
    Off ctx' (read ++ [c]) := by
  by_cases hc : c = CR
  · subst hc
    have hrun : read ++ CR :: List.replicate k CR ++ [CR] =
        read ++ [CR] ++ CR :: List.replicate k CR := by
      rw [← List.replicate_succ, List.append_assoc, List.append_assoc, ← List.replicate_succ',
        List.singleton_append, ← List.replicate_succ]
    rcases hs with hs | hs
    · obtain ⟨ctx₁, hres₁, hcopied⟩ := mimeMsg_copies env h hq hno (by simp [Disturbs, hs])
        (by simp [hs])
      obtain rfl := Except.ok.inj (hres.symm.trans hres₁)
      refine .ahead k (.inr ?_) (by rw [hcopied.emitted, hem, hrun])
      rcases hcopied.msg with hmsg | ⟨-, hmsg⟩
      · rw [hmsg, hs]
        rfl
      · simp [hs] at hmsg
    · have hd : Disturbs ctx.msg CR := .inl ⟨hs, cr_ne_lf⟩
      obtain ⟨ctx₁, hres₁, -, -, hem₁⟩ := mimeMsg_disturbs env h hq hd
      obtain rfl := Except.ok.inj (hres.symm.trans hres₁)
      rcases hem₁ with ⟨hem₁, hmsg⟩ | ⟨hc, -⟩
      · refine .ahead (k + 1) (.inl (hmsg rfl)) ?_
        rw [hem₁, hem, List.replicate_succ', ← List.cons_append, ← List.append_assoc, ← hrun]
        simp
      · exact absurd hc cr_ne_lf
  · obtain ⟨text, htext⟩ := (mimeMsg_extends h hq hno hres).emitted
    refine .parted ?_
    rw [htext, hem, List.append_assoc]
    exact .after read (Ne.symm hc) _ []

/-- **One more octet** does not repair what is off. -/
theorem Off.step {read : List Byte} (hoff : Off ctx read) (h : ListOk ctx) (hq : Quiet ctx)
    (hno : ¬ Matches ctx c) (hres : mimeMsg env ctx c = .ok ctx') : Off ctx' (read ++ [c]) := by
  cases hoff with
  | parted hp =>
    obtain ⟨text, htext⟩ := (mimeMsg_extends h hq hno hres).emitted
    refine .parted ?_
    rw [htext]
    exact hp.append text [c]
  | ahead k hs hem => exact off_ahead h hq hno hs hem hres
  | behind hs hread =>
    rw [hread]
    exact off_behind h hq hno hs hres

/-! ## Mails -/

/-- No octet of the mail completes an entry of the list. -/
abbrev Unmatched (env : FilterEnv) (ctx : Ctx) (mail : List Byte) : Prop :=
  AlongMail env (fun ctx c => ¬ Matches ctx c) ctx mail

/-- No octet of the mail disturbs. -/
abbrev Undisturbed (env : FilterEnv) (ctx : Ctx) (mail : List Byte) : Prop :=
  AlongMail env (fun ctx c => ¬ Disturbs ctx.msg c) ctx mail

/-- What holds as long as nothing disturbs: all that was read is written, and
the body has not begun. -/
structure Faithful (ctx : Ctx) (read : List Byte) : Prop where
  listOk : ListOk ctx
  quiet : Quiet ctx
  emitted : ctx.emitted = read
  header : ctx.msg ≠ .body ∧ ctx.msg ≠ .bodyCr

/-- Only the blank line leads into the body. -/
theorem mimeMsgFeed_header {s : MimeMsgState} (hs : s ≠ .body ∧ s ≠ .bodyCr) (hd : ¬ Disturbs s c) :
    (mimeMsgFeed s c).1 ≠ .body ∧ (mimeMsgFeed s c).1 ≠ .bodyCr := by
  rw [← not_or]
  intro hbody
  rcases mimeMsgFeed_intoBody hbody with hblank | hbody | ⟨hbodyCr, -⟩
  · exact hd (.inr (.inr hblank))
  · exact hs.1 hbody
  · exact hs.2 hbodyCr

/-- **One octet** that neither matches nor disturbs. -/
theorem Faithful.step (env : FilterEnv) {read : List Byte} (h : Faithful ctx read)
    (hno : ¬ Matches ctx c) (hd : ¬ Disturbs ctx.msg c) :
    ∃ ctx', mimeMsg env ctx c = .ok ctx' ∧ Faithful ctx' (read ++ [c]) := by
  obtain ⟨ctx', hres, hcopied⟩ :=
    mimeMsg_copies env h.listOk h.quiet hno hd fun hs => h.header.2 hs.1
  refine ⟨ctx', hres, hcopied.listOk, hcopied.quiet, by rw [hcopied.emitted, h.emitted], ?_⟩
  rcases hcopied.msg with hmsg | ⟨hmsg, -⟩
  · rw [hmsg]
    exact mimeMsgFeed_header h.header hd
  · simp [hmsg]

/-- Nothing was read and nothing written. -/
theorem faithful_initial {entries : List (List Byte × List Byte)} (h : entries ≠ []) :
    Faithful (Filter.initial entries).ctx [] where
  listOk := listOk_initial h
  quiet := ⟨rfl, rfl⟩
  emitted := rfl
  header := by simp [Filter.initial, mimeMessageParser]

/-- **A mail** in which nothing matches comes out as it is when nothing disturbs. -/
theorem mailRun_undisturbed (h : Faithful ctx []) {mail : List Byte} (hno : Unmatched env ctx mail)
    (hd : Undisturbed env ctx mail) :
    ∃ ctx', mailRun env ctx mail = .ok ctx' ∧ Faithful ctx' mail := by
  induction mail using List.reverseRecOn with
  | nil => exact ⟨ctx, rfl, h⟩
  | append_singleton mail c ih =>
    have hno := alongMail_concat.mp hno
    have hd := alongMail_concat.mp hd
    obtain ⟨ctx₁, hrun, hf⟩ := ih hno.1 hd.1
    obtain ⟨ctx₂, hres, hf'⟩ := hf.step env (hno.2 ctx₁ hrun) (hd.2 ctx₁ hrun)
    refine ⟨ctx₂, ?_, hf'⟩
    rw [mailRun_concat, hrun]
    exact hres

/-- Whatever the mail, the list stays in order and nothing is replaced. -/
theorem mailRun_quiet (h : ListOk ctx) (hq : Quiet ctx) {mail : List Byte}
    (hno : Unmatched env ctx mail) (hrun : mailRun env ctx mail = .ok ctx') :
    ListOk ctx' ∧ Quiet ctx' := by
  induction mail using List.reverseRecOn generalizing ctx' with
  | nil =>
    obtain rfl := Except.ok.inj hrun
    exact ⟨h, hq⟩
  | append_singleton mail c ih =>
    have hno := alongMail_concat.mp hno
    rw [mailRun_concat] at hrun
    obtain ⟨ctx₁, hrun₁, hres⟩ := bind_eq_ok.mp hrun
    obtain ⟨h₁, hq₁⟩ := ih hno.1 hrun₁
    have hext := mimeMsg_extends h₁ hq₁ (hno.2 ctx₁ hrun₁) hres
    exact ⟨hext.listOk, hext.quiet⟩

/-- **A mail** that disturbs does not come out as it is. -/
theorem mailRun_disturbed (h : Faithful ctx []) {mail : List Byte} (hno : Unmatched env ctx mail)
    (hd : ¬ Undisturbed env ctx mail) (hrun : mailRun env ctx mail = .ok ctx') : Off ctx' mail := by
  induction mail using List.reverseRecOn generalizing ctx' with
  | nil => exact absurd alongMail_nil hd
  | append_singleton mail c ih =>
    have hno := alongMail_concat.mp hno
    rw [mailRun_concat] at hrun
    obtain ⟨ctx₁, hrun₁, hres⟩ := bind_eq_ok.mp hrun
    by_cases hd' : Undisturbed env ctx mail
    -- it is the last octet that disturbs
    · obtain ⟨ctx₂, hrun₂, hf⟩ := mailRun_undisturbed h hno.1 hd'
      obtain rfl := Except.ok.inj (hrun₁.symm.trans hrun₂)
      have hlast : Disturbs ctx₁.msg c := by
        by_contra hlast
        refine hd (alongMail_concat.mpr ⟨hd', fun ctx₃ hrun₃ => ?_⟩)
        obtain rfl := Except.ok.inj (hrun₁.symm.trans hrun₃)
        exact hlast
      obtain ⟨ctx₃, hres₃, hoff⟩ := off_of_disturbs env hf.listOk hf.quiet hlast hf.emitted
      obtain rfl := Except.ok.inj (hres.symm.trans hres₃)
      exact hoff
    · obtain ⟨h₁, hq₁⟩ := mailRun_quiet h.listOk h.quiet hno.1 hrun₁
      exact (ih hno.1 hd' hrun₁).step h₁ hq₁ (hno.2 ctx₁ hrun₁) hres

end

/-- **Transparency.**  When no octet of a mail completes an entry of the list, the
mail comes out as it is exactly when no octet of it disturbs: no field of the
header is folded, no CR stands alone in a value, and no blank line follows a field. -/
theorem transparent (env : FilterEnv) (entries : List (List Byte × List Byte)) (bs : List Byte)
    (hne : entries ≠ []) (hbs : Terminated bs)
    (hno : Unmatched env (Filter.initial entries).ctx (mailOf bs)) :
    Emits env entries bs (mailOf bs) ↔
      Undisturbed env (Filter.initial entries).ctx (mailOf bs) := by
  have hrun := filterRun_terminated env (Filter.initial entries).ctx hbs
  constructor
  · rintro ⟨f, hf, hem⟩
    rw [show filterRun env (.initial entries) bs = _ from hrun] at hf
    obtain ⟨ctx, hctx, rfl⟩ := map_eq_ok.mp hf
    by_contra hd
    exact (mailRun_disturbed (faithful_initial hne) hno hd hctx).ne hem
  · intro hd
    obtain ⟨ctx, hctx, hf⟩ := mailRun_undisturbed (faithful_initial hne) hno hd
    refine ⟨⟨.fin, ctx.restart⟩, ?_, hf.emitted⟩
    rw [show filterRun env (.initial entries) bs = _ from hrun, hctx]
    rfl

/-- A header alone, without a blank line. -/
theorem transparent_header :
    Emits {} [(ascii "image", ascii "png")] (ascii "A: b\r\n.\r\n") (ascii "A: b\r\n") :=
  (transparent {} [(ascii "image", ascii "png")] (ascii "A: b\r\n.\r\n") (by decide)
    ⟨(multiRun .newline (ascii "A: b\r\n.\r")).2, by decide, by decide⟩ (by decide)).mpr (by decide)

/-- The filter takes `image/pngx` for `image/png`: a mail of this type does not count as
unmatched, since the `g` completes the entry. -/
example : ¬ Unmatched {} (Filter.initial [(ascii "image", ascii "png")]).ctx
    (ascii "Content-Type: image/pngx") := by
  intro hno
  have hg := (alongMail_concat.mp (show Unmatched _ _
    (ascii "Content-Type: image/png" ++ ascii "x") from hno)).1
  have hlast := (alongMail_concat.mp (show Unmatched _ _
    (ascii "Content-Type: image/pn" ++ ascii "g") from hg)).2
  have hrun : (mailRun {} (Filter.initial [(ascii "image", ascii "png")]).ctx
      (ascii "Content-Type: image/pn")).map (fun ctx => decide (Matches ctx 0x67)) = .ok true := by
    decide +kernel
  obtain ⟨ctx, hctx, hmatches⟩ := map_eq_ok.mp hrun
  exact hlast ctx hctx (of_decide_eq_true hmatches)

/-- A mail with a body: the blank line comes out with a CR too many. -/
theorem blankLine_altered :
    ¬ ∀ (env : FilterEnv) (entries : List (List Byte × List Byte)) (bs : List Byte),
      entries ≠ [] → Terminated bs → Unmatched env (Filter.initial entries).ctx (mailOf bs) →
        Emits env entries bs (mailOf bs) := by
  intro h
  obtain ⟨f, hf, hem⟩ := h {} [(ascii "image", ascii "png")] (ascii "A: b\r\n\r\nhi\r\n.\r\n")
    (by decide) ⟨(multiRun .newline (ascii "A: b\r\n\r\nhi\r\n.\r")).2, by decide, by decide⟩
    (by decide)
  have hrun : (filterRun {} (.initial [(ascii "image", ascii "png")])
      (ascii "A: b\r\n\r\nhi\r\n.\r\n")).map (·.ctx.emitted) =
        .ok (ascii "A: b\r\n\r\r\nhi\r\n") := by decide
  rw [hf] at hrun
  exact absurd (hem.symm.trans (Except.ok.inj hrun)) (by decide)

end Pop3Proxy
