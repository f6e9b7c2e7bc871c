/-
# Up to the blank line

What the fields of a part and the blank line behind them leave: the body of a part that is
filtered, of which nothing is written, or a state in which the first octet of the body is.
-/
import Pop3Proxy.Filter.HeaderText

namespace Pop3Proxy

section
variable {env : FilterEnv} {ctx ctx' : Ctx} {c : Byte}

/-! ## What comes out at once -/

/-- The next octet is written, whatever it is. -/
structure Spoken (ctx : Ctx) : Prop where
  state : ctx.msg = .body ∧ ctx.mediaFilterApply = false ∨ ctx.msg = .name0 ∨
    ctx.msg = .valueCrlf ∨ ctx.msg = .error

/-- An octet of a name is written. -/
theorem emitted_name_ne (ctx : Ctx) (c : Byte) :
    (msgName ctx (MimeMsg.name c)).emitted ≠ ctx.emitted := by
  rw [emitted_of_mail (msgName_read ctx c).mail]
  exact fun heq => absurd (List.append_right_eq_self.mp heq) (by simp)

/-- Whatever comes is written. -/
theorem Spoken.octet (env : FilterEnv) (h : Spoken ctx) (c : Byte) :
    ∃ ctx', mimeMsg env ctx c = .ok ctx' ∧ ctx'.emitted ≠ ctx.emitted := by
  have hcopied {s : MimeMsgState} {e : ParserEvent MimeMsgType}
      (hfeed : mimeMsgFeed ctx.msg c = (s, [e]))
      (hev : mimeMsgEvent env { ctx with msg := s } e =
        .ok ({ ctx with msg := s }.emit (e.octet 0))) :
      ∃ ctx', mimeMsg env ctx c = .ok ctx' ∧ ctx'.emitted ≠ ctx.emitted :=
    ⟨_, (mimeMsg_single hfeed).trans hev, emitted_emit_ne { ctx with msg := s } (e.octet 0)⟩
  rcases h.state with ⟨hs, happly⟩ | hs | hs | hs
  · by_cases hcr : c = CR
    · subst hcr
      refine ⟨_, mimeMsg_bodyCr env hs, ?_⟩
      rw [if_neg (by simp [happly])]
      exact emitted_emit_ne ctx CR
    · refine ⟨_, mimeMsg_body hs hcr, ?_⟩
      obtain ⟨dd, pb, be, l, hline⟩ := boundaryLine_dashSeen (ctx.emit c) c
      have hmail : (msgBody ctx (MimeMsg.body c)).mail = (ctx.emit c).mail := by
        simp only [msgBody, happly, show (MimeMsg.body c).octet 0 = c from rfl, hline,
          Bool.false_eq_true, if_false]
      rw [Ctx.emitted, hmail]
      exact emitted_emit_ne ctx c
  · have hfeed := mimeMsgFeed_name0 c
    rw [← hs] at hfeed
    split_ifs at hfeed
    · refine ⟨_, mimeMsg_single hfeed, emitted_name_ne { ctx with msg := .name } c⟩
    · exact hcopied hfeed rfl
  · have hfeed := mimeMsgFeed_valueCrlf c
    rw [← hs] at hfeed
    split_ifs at hfeed
    · exact hcopied hfeed rfl
    · refine ⟨_, mimeMsg_pair hfeed, ?_⟩
      show ((Ctx.emit _ CR).emit c).emitted ≠ _
      rw [emitted_emit, emitted_emit, List.append_assoc]
      exact fun heq => absurd (List.append_right_eq_self.mp heq) (by simp)
    · exact ⟨_, mimeMsg_pair hfeed, emitted_name_ne (msgValueEnd { ctx with msg := .name }) c⟩
    · exact ⟨_, mimeMsg_pair hfeed, emitted_emit_ne (msgValueEnd { ctx with msg := .error }) c⟩
    · exact hcopied hfeed rfl
  · have hfeed := mimeMsgFeed_error c
    rw [← hs] at hfeed
    exact hcopied hfeed rfl

/-- A body of which the first octet is written. -/
theorem Spoken.unwritten_iff (env : FilterEnv) (h : Spoken ctx) {bs : List Byte} :
    Unwritten env ctx bs ↔ bs = [] := by
  constructor
  · intro hsilent
    cases bs with
    | nil => rfl
    | cons c bs =>
      obtain ⟨ctx', hstep, hout⟩ := h.octet env c
      exact absurd hsilent (not_unwritten_of_octet hstep hout)
  · rintro rfl
    exact unwritten_nil

/-! ## The fields behind the type -/

/-- Behind a field, once the type has been decided. -/
structure Onward (ctx : Ctx) : Prop where
  typeHeader : ctx.ctypeHeader = 0
  encodingHeader : ctx.ctransferEncodingHeader = 0
  replace : ctx.replaceContentType = false
  state : ctx.msg = .valueCrlf ∨ ctx.msg = .value ∧ ctx.Decided

/-- What the fields behind the type leave alone. -/
structure Past (ctx ctx' : Ctx) : Prop extends Onward ctx' where
  apply : ctx'.mediaFilterApply = ctx.mediaFilterApply
  rfc822Detected : ctx'.rfc822Detected = ctx.rfc822Detected

/-- Fields behind fields. -/
theorem Past.trans {ctx'' : Ctx} (h : Past ctx ctx') (h' : Past ctx' ctx'') : Past ctx ctx'' :=
  ⟨h'.toOnward, h'.apply.trans h.apply, h'.rfc822Detected.trans h.rfc822Detected⟩

/-- Behind the field of the type, the type has been decided. -/
theorem Behind.onward {f : HeaderField} {filtered : Bool} (h : Behind f filtered ctx) :
    Onward ctx := by
  refine ⟨h.typeHeader, h.encodingHeader, h.replace, ?_⟩
  obtain ⟨-, hstart⟩ := behind_value h.msg
  rcases h.state with hname | hcrlf | ⟨hs, hdec, -⟩
  · exact absurd hname.1 hstart
  · exact .inl hcrlf
  · exact .inr ⟨hs, hdec⟩

/-- **A field** behind the type; behind a message that is enclosed it may end the header. -/
theorem Onward.field_run (env : FilterEnv) (h : Onward ctx) (f : HeaderField)
    (hother : ¬ SameLetters f.name (ascii "Content-Type")) :
    ∃ ctx', mailRun env ctx f.text = .ok ctx' ∧
      (ctx'.msg = .error ∧ ctx.rfc822Detected = true ∨
        Past ctx ctx' ∧ (ctx'.msg = .value ↔ EndsInSpace f.value)) := by
  have hstate {ctx₁ : Ctx} (hmsg : ctx₁.msg = if EndsInSpace f.value then .value else .valueCrlf)
      (hdec : ctx₁.Decided) : ctx₁.msg = .valueCrlf ∨ ctx₁.msg = .value ∧ ctx₁.Decided := by
    split_ifs at hmsg
    · exact .inr ⟨hmsg, hdec⟩
    · exact .inl hmsg
  rcases h.state with hs | ⟨hs, hdec⟩
  · by_cases hone : ctx.rfc822Detected = true ∧ f.name.length = 1
    · obtain ⟨ctx₁, hopen, herror, -⟩ := opening_error env hs hone.1 f hone.2
      obtain ⟨ctx₂, hvalue, herror', -⟩ := mailRun_error env herror (f.value ++ CRLF)
      refine ⟨ctx₂, ?_, .inl ⟨herror', hone.1⟩⟩
      rw [f.text_eq, mailRun_append, hopen, ok_bind, hvalue]
    · have hrec : Recognises ctx := ⟨.inr hs, h.typeHeader, h.encodingHeader⟩
      obtain ⟨ctx', hrun, hread⟩ := hrec.field_run env h.replace f hother
        fun _ hrfc822 hlen => hone ⟨hrfc822, hlen⟩
      exact ⟨ctx', hrun, .inr ⟨⟨⟨hread.typeHeader, hread.encodingHeader, hread.replace,
        hstate hread.msg hread.decided⟩, hread.apply, hread.rfc822Detected⟩,
        (behind_value hread.msg).1⟩⟩
  · obtain ⟨ctx', hrun, hmsg, -, hund⟩ := hidden_field env hs hdec h.replace f
    refine ⟨ctx', hrun, .inr ⟨⟨⟨(congrArg Prod.fst hund.typeName).trans h.typeHeader,
      (congrArg Prod.fst hund.encodingName).trans h.encodingHeader, hund.replace.trans h.replace,
      hstate hmsg hund.decided⟩, hund.apply, hund.rfc822Detected⟩, (behind_value hmsg).1⟩⟩

/-- **The fields** behind the type. -/
theorem Onward.fields_run (env : FilterEnv) (h : Onward ctx) {fs : List HeaderField}
    (hothers : ∀ f ∈ fs, ¬ SameLetters f.name (ascii "Content-Type")) :
    ∃ ctx', mailRun env ctx (headerText fs) = .ok ctx' ∧
      (ctx'.msg = .error ∧ ctx.rfc822Detected = true ∨
        Past ctx ctx' ∧ (ctx'.msg = .value ↔ fs = [] ∧ ctx.msg = .value ∨ HidesNext fs)) := by
  induction fs generalizing ctx with
  | nil => exact ⟨ctx, rfl, .inr ⟨⟨h, rfl, rfl⟩, by simp [HidesNext]⟩⟩
  | cons f fs ih =>
    obtain ⟨ctx₁, h₁, herror | ⟨hpast, hends⟩⟩ := h.field_run env f (hothers f (by simp))
    · obtain ⟨ctx', hrun, herror', -⟩ := mailRun_error env herror.1 (headerText fs)
      refine ⟨ctx', ?_, .inl ⟨herror', herror.2⟩⟩
      rw [headerText_cons, mailRun_append, h₁, ok_bind, hrun]
    · obtain ⟨ctx', hrun, hrest⟩ := ih hpast.toOnward fun g hg => hothers g (by simp [hg])
      refine ⟨ctx', ?_, ?_⟩
      · rw [headerText_cons, mailRun_append, h₁, ok_bind, hrun]
      · rcases hrest with ⟨herror, hrfc822⟩ | ⟨hpast', hhidden⟩
        · exact .inl ⟨herror, hpast.rfc822Detected.symm.trans hrfc822⟩
        · refine .inr ⟨hpast.trans hpast', ?_⟩
          rw [hhidden, hends, hidesNext_cons]
          simp

/-! ## The blank line -/

/-- What the blank line leaves alone at the end of a header. -/
structure BodyBegun (ctx ctx' : Ctx) : Prop where
  msg : ctx'.msg = .body
  apply : ctx'.mediaFilterApply = ctx.mediaFilterApply
  types : ctx'.mediaTypes = ctx.mediaTypes
  stack : ctx'.boundryStack = ctx.boundryStack
  line : ctx'.possibleBoundaryString = ctx.possibleBoundaryString
  strings : ctx'.strings = ctx.strings
  watching : ∀ {l : List Byte}, Watching l ctx → Watching l ctx'

/-- **The blank line** ends the header when it is seen, and no message is enclosed. -/
theorem Onward.blank_run (env : FilterEnv) (h : Onward ctx) :
    ∃ ctx', mailRun env ctx CRLF = .ok ctx' ∧ (ctx.msg = .value → ctx'.msg = .valueCrlf) ∧
      (ctx.msg = .valueCrlf → ctx.rfc822Detected = true → ctx'.msg = .name0) ∧
      (ctx.msg = .valueCrlf → ctx.rfc822Detected = false → BodyBegun ctx ctx') := by
  rcases h.state with hs | ⟨hs, hdec⟩
  · have hcr : mimeMsgFeed ctx.msg CR = (.valueCrlfCr, [MimeMsg.wait CR]) := by
      rw [hs]
      decide
    have hlf : mimeMsgFeed .valueCrlfCr LF =
        (.body, [MimeMsg.valueEnd LF, MimeMsg.bodyStart LF]) := by
      decide
    have hrun : mailRun env ctx CRLF = .ok (msgBodyStart env
        (msgValueEnd ({ ctx with msg := .body }.emit CR)) (MimeMsg.bodyStart LF)) := by
      rw [show CRLF = [CR, LF] from rfl, mailRun_cons, mimeMsg_single hcr]
      show mailRun env ({ ctx with msg := .valueCrlfCr }.emit CR) [LF] = _
      rw [mailRun_cons, mimeMsg_pair (show mimeMsgFeed ({ ctx with
        msg := .valueCrlfCr }.emit CR).msg LF = _ from hlf)]
      rfl
    refine ⟨_, hrun, ?_, fun _ hrfc822 => ?_, fun _ hrfc822 => ?_⟩
    · rw [hs]
      intro hvalue
      cases hvalue
    · simp [msgBodyStart, msgValueEnd, Ctx.emit, hrfc822]
    · have hflag : (msgValueEnd ({ ctx with msg := .body }.emit CR)).rfc822Detected = false :=
        hrfc822
      obtain ⟨mail, heq⟩ := msgBodyStart_mail env hflag (MimeMsg.bodyStart LF)
      have hmsg : (if ctx.rfc822Detected then MimeMsgState.name0 else .body) = .body :=
        if_neg (by simp [hrfc822])
      rw [heq]
      exact ⟨hmsg, rfl, rfl, rfl, rfl, rfl, fun hw => hw.congr rfl rfl rfl⟩
  · have hstart : InValue [] .value := Or.inl ⟨rfl, by simp [EndsInSpace]⟩
    have hread := hstart.read_close ctx.drops
    rw [if_neg (by simp [EndsInSpace]), if_neg (by simp [EndsInSpace]), ← hs] at hread
    obtain ⟨ctx', hrun, hmsg, -, -⟩ := hread.run env hdec h.replace
    refine ⟨ctx', hrun, fun _ => hmsg, fun hcrlf => ?_, fun hcrlf => ?_⟩
    · rw [hs] at hcrlf
      cases hcrlf
    · rw [hs] at hcrlf
      cases hcrlf

/-- **The end of a header** behind its type: the blank line is seen and the body begins, or the
next octet is written whatever it is. -/
theorem Onward.header_end (env : FilterEnv) (h : Onward ctx) {fs : List HeaderField}
    (hothers : ∀ f ∈ fs, ¬ SameLetters f.name (ascii "Content-Type"))
    (hrun : mailRun env ctx (headerText fs ++ CRLF) = .ok ctx') :
    (¬ (fs = [] ∧ ctx.msg = .value ∨ HidesNext fs) ∧ ctx.rfc822Detected = false ∧
      ∃ ctx₁, mailRun env ctx (headerText fs) = .ok ctx₁ ∧ ctx₁.msg = .valueCrlf ∧
        ctx₁.mediaFilterApply = ctx.mediaFilterApply ∧ BodyBegun ctx₁ ctx') ∨
      ((fs = [] ∧ ctx.msg = .value ∨ HidesNext fs) ∨ ctx.rfc822Detected = true) ∧ Spoken ctx' := by
  obtain ⟨ctx₁, h₁, hread⟩ := h.fields_run env hothers
  rw [mailRun_append, h₁, ok_bind] at hrun
  rcases hread with ⟨herror, hrfc822⟩ | ⟨hpast, hhidden⟩
  · obtain ⟨ctx₂, h₂, herror', -⟩ := mailRun_error env herror CRLF
    obtain rfl := Except.ok.inj (h₂.symm.trans hrun)
    exact .inr ⟨.inr hrfc822, ⟨.inr (.inr (.inr herror'))⟩⟩
  · obtain ⟨ctx₂, h₂, hvalue, hname, hbody⟩ := hpast.toOnward.blank_run env
    obtain rfl := Except.ok.inj (h₂.symm.trans hrun)
    rw [← hhidden]
    rcases hpast.state with hs | ⟨hs, -⟩
    · rw [hpast.rfc822Detected] at hname hbody
      cases hrfc822 : ctx.rfc822Detected with
      | true => exact .inr ⟨.inr rfl, ⟨.inr (.inl (hname hs hrfc822))⟩⟩
      | false =>
        refine .inl ⟨?_, rfl, ctx₁, h₁, hs, hpast.apply, hbody hs hrfc822⟩
        rw [hs]
        exact nofun
    · exact .inr ⟨.inl hs, ⟨.inr (.inr (.inl (hvalue hs)))⟩⟩

/-! ## The type -/

/-- A fold in front of the type is seen. -/
def TypeField.FoldSeen (t : TypeField) : Prop :=
  t.space.lines = [] ∨ t.space.line = [] ∧ t.space.lines.length = 1

/-- In the white space no value is seen exactly when its folds are seen as folds. -/
theorem TypeField.noValue_iff (t : TypeField) : NoValue .value t.space.octets ↔ t.FoldSeen := by
  have hnil : InValue [] .value := Or.inl ⟨rfl, by simp [EndsInSpace]⟩
  -- a fold that is seen, with the line behind it
  have hfold {l : List Byte} (hl : l ∈ t.space.lines) :
      NoValue .value (CRLF ++ l) ∧ mimeStateAfter .value (CRLF ++ l) = .fold := by
    have hspace := t.space_white l (List.mem_cons_of_mem _ hl)
    obtain ⟨c, rest, rfl, hc⟩ := t.space.continued l hl
    have hcr : CR ∉ c :: rest := (t.space.plain _ (List.mem_cons_of_mem _ hl)).1
    have hcont := (hnil.continued hcr ⟨c, rest, rfl, hc⟩).2
    refine ⟨?_, ?_⟩
    · have hstate : mimeStateAfter .value CRLF = .valueCrlf := by decide
      have hcrlf : NoValue .value CRLF := by
        show ∀ e ∈ (parserRun initCharClass mimeMessageParser .value CRLF).2.flatten,
          e.type ≠ .value
        decide
      have hfeed : mimeMsgFeed .valueCrlf c =
          (.fold, [MimeMsg.valueFoldCrlf c, MimeMsg.valueFold c]) := by
        rw [mimeMsgFeed_valueCrlf, if_neg fun h => hcr (by simp [h]), if_pos hc]
      rw [noValue_append, hstate]
      refine ⟨hcrlf, noValue_cons.mpr ?_⟩
      rw [hfeed]
      refine ⟨fun e he => ?_, noValue_of_lwsp (Or.inr rfl) fun d hd => hspace d (by simp [hd])⟩
      rcases List.mem_pair.mp he with rfl | rfl <;> exact nofun
    · rcases hcont with ⟨-, hends⟩ | ⟨hs, -⟩
      · refine absurd ?_ hends
        rw [List.nil_append, endsInSpace_append_cons]
        exact ⟨_, List.getLast?_eq_some_getLast (List.cons_ne_nil c rest),
          hspace _ (List.getLast_mem _)⟩
      · exact hs
  constructor
  · intro h
    rcases t.noValue_lines h with hlines | hline
    · exact .inl hlines
    · cases hls : t.space.lines with
      | nil => exact .inl hls
      | cons l ls =>
        refine .inr ⟨hline, ?_⟩
        cases ls with
        | nil => rw [hls]; rfl
        | cons m ms =>
          rw [FoldedText.octets, hline, hls, List.nil_append, List.flatMap_cons, List.flatMap_cons,
            List.append_assoc CRLF m, noValue_append, (hfold (by simp [hls])).2] at h
          exact absurd h.2 (not_noValue_crlf _)
  · rintro (hlines | ⟨hline, hone⟩)
    · exact t.noValue_of_unfolded hlines
    · obtain ⟨l, hl⟩ := List.length_eq_one_iff.mp hone
      rw [FoldedText.octets, hline, hl, List.nil_append, List.flatMap_singleton]
      exact (hfold (by simp [hl])).1

/-- The type encloses a message, as far as the filter has read it when it completes one of
the list. -/
def TypeField.Encloses (t : TypeField) (ts : List TypeList) (flag : Bool) : Prop :=
  flagAfter (ascii "message") t.type flag = true ∧
    ∃ y, y <+: t.subtype ∧ CompletedBy ts t.type y ∧ SameLetters y (ascii "rfc822")

/-- **The field of the type** filters the part, or it does not. -/
theorem TypeField.read (env : FilterEnv) (h : Unfiltered ctx) (hset : Settled ctx)
    (hawaited : TypeAwaited ctx) (hne : ctx.mediaTypes ≠ []) (t : TypeField)
    (hrun : mailRun env ctx t.field.text = .ok ctx') :
    (t.Compared ctx ∧ Triggers ctx.mediaTypes t.type t.subtype) ∧ Behind t.field true ctx' ∧
        (ctx'.rfc822Detected = true ↔ t.Encloses ctx.mediaTypes ctx.messageDetected) ∨
      ¬ (t.Compared ctx ∧ Triggers ctx.mediaTypes t.type t.subtype) ∧
        Behind t.field false ctx' := by
  by_cases hcompared : t.Compared ctx
  · by_cases hfirst : WildcardFirst ctx.mediaTypes t.type
    · by_cases htriggers : Triggers ctx.mediaTypes t.type t.subtype
      · obtain ⟨y, b, hsub, hb, hdone, hrfc822⟩ :=
          (t.run_replaced env h hset hawaited hne hcompared hfirst htriggers).2 ctx' hrun
        have hy : y <+: t.subtype := ⟨b, hsub.symm⟩
        refine .inl ⟨⟨hcompared, htriggers⟩, hb.toBehind, ?_⟩
        rw [hrfc822, Bool.and_eq_true, decide_eq_true_iff]
        refine and_congr_right fun _ => ⟨fun hsame => ⟨y, hy, hdone, hsame⟩, ?_⟩
        rintro ⟨z, hz, hdone', hsame⟩
        rw [hdone.unique hdone' hy hz]
        exact hsame
      · obtain ⟨ctx₁, h₁, hcopied, -⟩ :=
          t.run_copied env h hset hawaited hne fun _ => ⟨hfirst, htriggers⟩
        obtain rfl := Except.ok.inj (h₁.symm.trans hrun)
        exact .inr ⟨fun hboth => htriggers hboth.2, hcopied.toBehind⟩
    · exact absurd hrun (t.run_lost env h hset hawaited hne hcompared hfirst ctx')
  · obtain ⟨ctx₁, h₁, hcopied, -⟩ := t.run_ignored env h hset hawaited hcompared
    obtain rfl := Except.ok.inj (h₁.symm.trans hrun)
    exact .inr ⟨fun hboth => hcompared hboth.1, hcopied.toBehind⟩

/-! ## The header of a part -/

/-- The octets of the fields. -/
def PartHeader.octets (p : PartHeader) : List Byte :=
  headerText (p.before ++ p.field.field :: p.after)

/-- The header suppresses the body behind it: no field hides the type, no fold hides it, a type
of the list is completed in it, no message is enclosed, and nothing hides the blank line. -/
structure PartHeader.Suppresses (p : PartHeader) (ts : List TypeList) (flag : Bool) : Prop where
  seen : ¬ HidesNext p.before
  fold : p.field.FoldSeen
  completes : Triggers ts p.field.type p.field.subtype
  apart : ¬ p.field.Encloses ts flag
  ended : ¬ HidesNext (p.field.field :: p.after)

/-- **The header of a part** leaves its body suppressed, with the boundaries as they were, or
the first octet of its body is written. -/
theorem part_read (env : FilterEnv) (h : PartAwaited ctx) (hu : Underway ctx) (p : PartHeader)
    (hrun : mailRun env ctx (p.octets ++ CRLF) = .ok ctx') :
    p.Suppresses ctx.mediaTypes ctx.messageDetected ∧ Suppressed ctx' ∧ ctx'.bounds = ctx.bounds ∨
      ¬ p.Suppresses ctx.mediaTypes ctx.messageDetected ∧ Spoken ctx' := by
  have hbefore : ∀ f ∈ p.before, ¬ SameLetters f.name (ascii "Content-Type") := fun f hf =>
    p.once f (List.mem_append_left _ hf)
  have hafter : ∀ f ∈ p.after, ¬ SameLetters f.name (ascii "Content-Type") := fun f hf =>
    p.once f (List.mem_append_right _ hf)
  -- the fields in front of the `Content-Type` leave the part awaiting it
  obtain ⟨ctx₁, h₁, hpassed, -⟩ := h.front.fields_run env hbefore
  obtain ⟨hawaited, htypes, hflag, hseen⟩ := hpassed.awaited h
  have htext : p.octets = headerText p.before ++ (p.field.field.text ++ headerText p.after) := by
    rw [PartHeader.octets, headerText, List.flatMap_append]
    rfl
  have hsplit := hrun
  rw [htext, List.append_assoc, List.append_assoc, mailRun_append, h₁, ok_bind, mailRun_append]
    at hsplit
  obtain ⟨ctx₂, h₂, hend⟩ := bind_eq_ok.mp hsplit
  have hread := p.field.read env hpassed.toUnfiltered (hpassed.settled h.toSettled) hawaited
    (by rw [htypes]; exact hu.list.entries) h₂
  rw [TypeField.Compared, p.field.noValue_iff, htypes, hflag, hseen] at hread
  have hhidden {filtered : Bool} (hb : Behind p.field.field filtered ctx₂) :
      (p.after = [] ∧ ctx₂.msg = .value ∨ HidesNext p.after) ↔
        HidesNext (p.field.field :: p.after) := by
    rw [hidesNext_cons, (behind_value hb.msg).1]
  rcases hread with ⟨⟨⟨hbefore', hfold⟩, htriggers⟩, hb, hrfc822⟩ | ⟨hno, hb⟩
  -- the part is filtered, and what is left is to see the blank line
  · have hend' := hb.onward.header_end env hafter hend
    rw [hhidden hb] at hend'
    rcases hend' with ⟨hended, hplain, ctx₃, h₃, hs, happly, hbegun⟩ | ⟨hwhy, hspoken⟩
    · have hall : mailRun env ctx p.octets = .ok ctx₃ := by
        rw [htext, mailRun_append, h₁, ok_bind, mailRun_append, h₂, ok_bind, h₃]
      refine .inl ⟨⟨hbefore', hfold, htriggers, fun henc => ?_, hended⟩, ?_, ?_⟩
      · rw [hrfc822.mpr henc] at hplain
        cases hplain
      · refine ⟨hbegun.msg, (hbegun.apply.trans happly).trans hb.apply,
          (hu.run hrun).list.entries, hbegun.watching ?_⟩
        refine (hu.run hall).watching fun hline => ?_
        rw [hs] at hline
        rcases hline with hline | hline | hline <;> cases hline
      · have hstart : InHeader ctx ctx := ⟨.refl ctx, by rw [h.msg]; trivial⟩
        have hname : ctx.msg ≠ .valueCrlf := by simp [h.msg]
        have hin := hstart.run (fun hs => absurd hs hname) (unblank_headerText _) hall
        have hclosed : ctx₃.contentType ≠ .delimiterEnd := by
          rcases hin.filtered (happly.trans hb.apply) with ⟨hyes, -⟩ | hne
          · rw [h.toTypeAwaited.unfiltered] at hyes
            cases hyes
          · exact hne
        rw [← (hin.bounds hclosed).2]
        simp only [Ctx.bounds, hbegun.stack, hbegun.line, hbegun.strings]
    · refine .inr ⟨fun hsup => ?_, hspoken⟩
      rcases hwhy with hhide | henc
      · exact hsup.ended hhide
      · exact hsup.apart (hrfc822.mp henc)
  -- it is not, and its body is copied if it is one
  · refine .inr ⟨fun hsup => hno ⟨⟨hsup.seen, hsup.fold⟩, hsup.completes⟩, ?_⟩
    rcases hb.onward.header_end env hafter hend with
      ⟨-, -, ctx₃, -, -, happly, hbegun⟩ | ⟨-, hspoken⟩
    · exact ⟨.inl ⟨hbegun.msg, (hbegun.apply.trans happly).trans hb.apply⟩⟩
    · exact hspoken

end

end Pop3Proxy
