/-
# Running over a content type

White space in front of a type is copied, and so is the type as long as no entry of the list
is completed.  The octet that completes one takes the cursor back to the last space; from
there the replacement is written, and what is left of the value is copied behind it.
-/
import Pop3Proxy.Filter.Decision
import Pop3Proxy.Filter.FieldRuns

namespace Pop3Proxy

/-! ## White space -/

/-- White space, and what folds it. -/
def white (c : Byte) : Bool := lwspChar c || c = CR || c = LF

/-- None of the octets belongs to a value proper. -/
def NoValue (s : MimeMsgState) (bs : List Byte) : Prop :=
  ∀ e ∈ (parserRun initCharClass mimeMessageParser s bs).2.flatten, e.type ≠ .value

/-- Every CR is followed by LF. -/
def Paired (bs : List Byte) : Prop := ∀ a b, bs = a ++ CR :: b → ∃ b', b = LF :: b'

section
variable {env : FilterEnv} {ctx ctx' : Ctx} {s : MimeMsgState} {c : Byte}

/-- The first octet, and the rest behind it. -/
theorem noValue_cons {bs : List Byte} : NoValue s (c :: bs) ↔
    (∀ e ∈ (mimeMsgFeed s c).2, e.type ≠ .value) ∧ NoValue (mimeMsgFeed s c).1 bs := by
  rw [NoValue, parserRun_events_cons]
  exact List.forall_mem_append

/-- Two pieces. -/
theorem noValue_append {bs cs : List Byte} :
    NoValue s (bs ++ cs) ↔ NoValue s bs ∧ NoValue (mimeStateAfter s bs) cs := by
  induction bs generalizing s with
  | nil => exact ⟨fun h => ⟨fun e he => absurd he List.not_mem_nil, h⟩, fun h => h.2⟩
  | cons c bs ih =>
    rw [List.cons_append, noValue_cons, noValue_cons, ih, and_assoc]
    rfl

/-- Without the first octet the others are still paired. -/
theorem Paired.tail {bs : List Byte} (h : Paired (c :: bs)) : Paired bs := fun a b hb =>
  h (c :: a) b (by rw [hb]; rfl)

/-- Two pieces are paired when each of them is. -/
theorem Paired.append {as bs : List Byte} (h : Paired as) (h' : Paired bs) : Paired (as ++ bs) := by
  intro a b hab
  rcases List.append_eq_append_iff.mp hab with ⟨x, rfl, hbs⟩ | ⟨x, rfl, hx⟩
  · exact h' x b hbs
  · cases x with
    | nil => exact h' [] b hx.symm
    | cons d x =>
      obtain ⟨rfl, rfl⟩ := List.cons.inj hx
      obtain ⟨b', rfl⟩ := h a x rfl
      exact ⟨b' ++ bs, rfl⟩

/-- Where there is no CR. -/
theorem paired_of_noCr {bs : List Byte} (h : CR ∉ bs) : Paired bs := by
  rintro a b rfl
  exact absurd (by simp) h

/-- A CRLF. -/
theorem paired_crlf : Paired CRLF := by
  rintro (_ | ⟨c, _ | ⟨d, a⟩⟩) b h
  · exact ⟨[], (List.cons.inj h).2.symm⟩
  · obtain ⟨-, h⟩ := List.cons.inj h
    exact absurd (List.cons.inj h).1 (by decide)
  · simp at h

/-- A folded text has CRs in its CRLFs only. -/
theorem FoldedText.paired (t : FoldedText) : Paired t.octets := by
  have hlines : ∀ ls : List (List Byte), (∀ l ∈ ls, CR ∉ l) → Paired (ls.flatMap (CRLF ++ ·)) := by
    intro ls
    induction ls with
    | nil => exact fun _ => paired_of_noCr List.not_mem_nil
    | cons l ls ih =>
      intro hls
      exact (paired_crlf.append (paired_of_noCr (hls l (by simp)))).append
        (ih fun m hm => hls m (by simp [hm]))
  have hline := paired_of_noCr (t.plain t.line (by simp)).1
  exact hline.append (hlines t.lines fun l hl => (t.plain l (by simp [hl])).1)

/-- An octet of a value is white, or it is the octet of its event, or it follows a CR
that is alone. -/
theorem mimeMsgFeed_inValue (h : ∀ e ∈ (mimeMsgFeed s c).2, e.inValue) :
    white c = true ∧ (∀ e ∈ (mimeMsgFeed s c).2, e.type ≠ .value) ∨
      lwspChar c = false ∧ mimeMsgFeed s c = (.value, [MimeMsg.value c]) ∨
      s = .valueCr ∧ c ≠ LF := by
  have hlwsp : lwspChar c = true → white c = true := fun hc => by simp [white, hc]
  cases s with
  | value =>
    have hfeed := mimeMsgFeed_value c
    split_ifs at hfeed with hspace hcr
    · left
      rw [hfeed]
      exact ⟨hlwsp hspace, by simp [MimeMsg.valueFold]⟩
    · left
      rw [hfeed]
      exact ⟨by simp [white, hcr], by simp [MimeMsg.wait]⟩
    · exact Or.inr (Or.inl ⟨by simpa using hspace, hfeed⟩)
  | valueCr =>
    by_cases hlf : c = LF
    · left
      rw [mimeMsgFeed_valueCr, if_pos hlf]
      exact ⟨by simp [white, hlf], by simp [MimeMsg.wait]⟩
    · exact Or.inr (Or.inr ⟨rfl, hlf⟩)
  | valueCrlf =>
    have hfeed := mimeMsgFeed_valueCrlf c
    split_ifs at hfeed with hcr hspace
    · left
      rw [hfeed]
      exact ⟨by simp [white, hcr], by simp [MimeMsg.wait]⟩
    · left
      rw [hfeed]
      exact ⟨hlwsp hspace, by simp [MimeMsg.valueFold, MimeMsg.valueFoldCrlf]⟩
    all_goals
      rw [hfeed] at h
      simp [ParserEvent.inValue, MimeMsg.valueEnd, MimeMsg.unexpected] at h
  | fold =>
    have hfeed := mimeMsgFeed_fold c
    split_ifs at hfeed with hspace
    · left
      rw [hfeed]
      exact ⟨hlwsp hspace, by simp [MimeMsg.valueFold]⟩
    · exact Or.inr (Or.inl ⟨by simpa using hspace, hfeed⟩)
  -- the events of every other state belong to no value
  | name0 =>
    rw [mimeMsgFeed_name0] at h
    split_ifs at h <;> simp [ParserEvent.inValue, MimeMsg.name, MimeMsg.unexpected] at h
  | name =>
    rw [mimeMsgFeed_name] at h
    split_ifs at h <;>
      simp [ParserEvent.inValue, MimeMsg.name, MimeMsg.nameEnd, MimeMsg.unexpected] at h
  | valueCrlfCr =>
    rw [mimeMsgFeed_valueCrlfCr] at h
    split_ifs at h <;> simp [ParserEvent.inValue, MimeMsg.valueEnd] at h
  | body =>
    rw [mimeMsgFeed_body] at h
    split_ifs at h <;> simp [ParserEvent.inValue, MimeMsg.body, MimeMsg.bodyCrlf] at h
  | bodyCr =>
    rw [mimeMsgFeed_bodyCr] at h
    split_ifs at h <;> simp [ParserEvent.inValue, MimeMsg.bodyNewline, MimeMsg.unexpected] at h
  | error =>
    rw [mimeMsgFeed_error] at h
    simp [ParserEvent.inValue, MimeMsg.unexpected] at h

/-- Only a CR leads to the state behind one. -/
theorem eq_cr_of_valueCr : (mimeMsgFeed s c).1 = .valueCr → c = CR := by
  refine mimeMsgFeed_of_transitions (P := fun s' _ => s' = .valueCr → c = CR) ?_
  cases s <;> simp [mimeMessageParser, When.holds]

/-- Folds and line ends are copied. -/
theorem foldlM_white (env : FilterEnv) (ctx : Ctx) (drop : Bool)
    {es : List (ParserEvent MimeMsgType)}
    (hes : ∀ e ∈ es, e.inValue ∧ e.type ≠ .value) :
    es.foldlM (mimeMsgEvent env) ctx =
      .ok { ctx with mail := ctx.mail.writeAll (es.flatMap (shown drop)) } := by
  induction es generalizing ctx with
  | nil => rfl
  | cons e es ih =>
    obtain ⟨he, hne⟩ := hes e (by simp)
    have hshown : shown drop e = [e.octet 0] := by
      rw [shown, if_neg fun hboth => hne hboth.2]
    have hev : mimeMsgEvent env ctx e = .ok (ctx.emit (e.octet 0)) := by
      obtain ⟨ty, data, n⟩ := e
      rcases he with hty | hty | hty
      · exact absurd hty hne
      · obtain rfl : ty = .valueFold := hty
        rfl
      · obtain rfl : ty = .wait := hty
        rfl
    rw [List.foldlM_cons, hev, ok_bind, ih _ fun e' he' => hes e' (by simp [he']),
      List.flatMap_cons, hshown, writeAll_append]
    rfl

/-- What octets of a value leave of which the first that is not white closes the type. -/
structure Closed (ctx : Ctx) (bs out : List Byte) (s : MimeMsgState) (ctx' : Ctx) : Prop where
  msg : ctx'.msg = s
  mail : ctx'.mail = ctx.mail.writeAll out
  typeName : ctx'.typeName = ctx.typeName
  encodingName : ctx'.encodingName = ctx.encodingName
  apply : ctx'.mediaFilterApply = ctx.mediaFilterApply
  replace : ctx'.replaceContentType = ctx.replaceContentType
  rfc822Detected : ctx'.rfc822Detected = ctx.rfc822Detected
  same : NoValue ctx.msg bs → ctx' = { ctx with msg := s, mail := ctx.mail.writeAll out }
  decided : ¬ NoValue ctx.msg bs → ctx'.Decided

/-- **Octets behind which the type is closed**, unless they are all white. -/
theorem closing_run (env : FilterEnv) (hreplace : ctx.replaceContentType = false)
    {bs out : List Byte} (hread : ValueRead ctx.drops ctx.msg bs out s) (hpaired : Paired bs)
    (hcr : ctx.msg = .valueCr → ∃ b, bs = LF :: b)
    (hcloses : ∀ sp c b, bs = sp ++ c :: b → (∀ d ∈ sp, white d = true) → lwspChar c = false →
      ctx.Closes c) :
    ∃ ctx', mailRun env ctx bs = .ok ctx' ∧ Closed ctx bs out s ctx' := by
  induction bs generalizing ctx out with
  | nil =>
    obtain rfl := hread.out
    obtain rfl := hread.state
    exact ⟨ctx, rfl, ⟨rfl, rfl, rfl, rfl, rfl, rfl, rfl, fun _ => rfl,
      fun h => absurd (fun _ he => absurd he List.not_mem_nil) h⟩⟩
  | cons c bs ih =>
    obtain ⟨hes, honly⟩ := onlyValue_cons.mp hread.only
    have hout := hread.out
    rw [valueOut_cons] at hout
    rcases mimeMsgFeed_inValue hes with ⟨hwhite, hno⟩ | ⟨hspace, hfeed⟩ | ⟨hs, hlf⟩
    -- the octet is white, and nothing has been closed so far
    · obtain ⟨ctx₁, hctx₁⟩ : ∃ ctx₁ : Ctx, ctx₁ =
          { ctx with
            msg := (mimeMsgFeed ctx.msg c).1
            mail := ctx.mail.writeAll ((mimeMsgFeed ctx.msg c).2.flatMap (shown ctx.drops)) } :=
        ⟨_, rfl⟩
      have hstep : mimeMsg env ctx c = .ok ctx₁ := by
        rw [mimeMsg, foldlM_white env _ ctx.drops fun e he => ⟨hes e he, hno e he⟩, hctx₁]
      have hread₁ : ValueRead ctx₁.drops ctx₁.msg bs (valueOut ctx.drops ctx₁.msg bs) s := by
        rw [hctx₁]
        exact ⟨honly, rfl, hread.state⟩
      have hcr₁ : ctx₁.msg = .valueCr → ∃ b, bs = LF :: b := by
        intro hmsg
        rw [hctx₁] at hmsg
        refine hpaired [] bs ?_
        rw [List.nil_append, eq_cr_of_valueCr hmsg]
      have hcloses₁ : ∀ sp d b, bs = sp ++ d :: b → (∀ e ∈ sp, white e = true) →
          lwspChar d = false → ctx₁.Closes d := by
        intro sp d b hb hsp hd
        rw [hctx₁]
        refine hcloses (c :: sp) d b (by rw [hb]; rfl) ?_ hd
        intro e he
        rcases List.mem_cons.mp he with rfl | he
        · exact hwhite
        · exact hsp e he
      have hreplace₁ : ctx₁.replaceContentType = false := by rw [hctx₁]; exact hreplace
      obtain ⟨ctx', hrun, hclosed⟩ := ih hreplace₁ hread₁ hpaired.tail hcr₁ hcloses₁
      have hmail : ctx'.mail = ctx.mail.writeAll out := by
        rw [hclosed.mail, ← hout, writeAll_append, hctx₁]
      have hmsg₁ : ctx₁.msg = (mimeMsgFeed ctx.msg c).1 := by rw [hctx₁]
      refine ⟨ctx', ?_, ⟨hclosed.msg, hmail, ?_, ?_, ?_, ?_, ?_, ?_, ?_⟩⟩
      · rw [mailRun_cons, hstep, ok_bind, hrun]
      · rw [hclosed.typeName, hctx₁]
        rfl
      · rw [hclosed.encodingName, hctx₁]
        rfl
      · rw [hclosed.apply, hctx₁]
      · rw [hclosed.replace, hctx₁]
      · rw [hclosed.rfc822Detected, hctx₁]
      · intro hnone
        have hsame := hclosed.same (by rw [hmsg₁]; exact (noValue_cons.mp hnone).2)
        rw [hsame, hctx₁, ← hout, writeAll_append]
      · intro hsome
        apply hclosed.decided
        intro hnone
        rw [hmsg₁] at hnone
        exact hsome (noValue_cons.mpr ⟨hno, hnone⟩)
    -- the first octet that is not white
    · have hclose : ({ ctx with msg := .value } : Ctx).Closes c :=
        hcloses [] c bs rfl (fun _ hd => absurd hd List.not_mem_nil) hspace
      obtain ⟨ctx₁, h₁, hmsg, hmail, hund⟩ := msgValue_undecided env hclose hreplace
      have hstep : mimeMsg env ctx c = .ok ctx₁ := by
        rw [mimeMsg_single hfeed]
        exact h₁
      have hdrops : ctx₁.drops = ctx.drops := hund.drops
      have hread₁ : ValueRead ctx₁.drops ctx₁.msg bs (valueOut ctx.drops .value bs) s := by
        rw [hdrops, hmsg]
        rw [hfeed] at honly
        have hstate := hread.state
        rw [mimeStateAfter_cons, hfeed] at hstate
        exact ⟨honly, rfl, hstate⟩
      obtain ⟨ctx', hrun, hs, hmail', hund'⟩ :=
        hread₁.run env hund.decided (hund.replace.trans hreplace)
      refine ⟨ctx', ?_, ⟨hs, ?_, hund'.typeName.trans hund.typeName,
        hund'.encodingName.trans hund.encodingName, hund'.apply.trans hund.apply,
        hund'.replace.trans hund.replace, hund'.rfc822Detected.trans hund.rfc822Detected, ?_,
        fun _ => hund'.decided⟩⟩
      · rw [mailRun_cons, hstep, ok_bind, hrun]
      · rw [hmail', hmail, ← writeAll_append, ← hout, hfeed, List.flatMap_singleton]
        rfl
      · intro hnone
        have hno := (noValue_cons.mp hnone).1
        rw [hfeed] at hno
        exact absurd rfl (hno (MimeMsg.value c) (by simp))
    · obtain ⟨b, hb⟩ := hcr hs
      exact absurd (List.cons.inj hb).1 hlf

/-! ## Octets of the type and the subtype -/

/-- Neither white space nor CR. -/
def Unspaced (bs : List Byte) : Prop := ∀ c ∈ bs, lwspChar c = false ∧ c ≠ CR

/-- An octet of the value leaves the names where they are. -/
theorem InTypeValue.unspaced_octet (h : InTypeValue ctx) (hc : lwspChar c = false) (hcr : c ≠ CR)
    (hres : mimeMsg env ctx c = .ok ctx') : InTypeValue ctx' ∧ ctx'.msg = .value ∧
      ctx'.typeName = ctx.typeName ∧ ctx'.encodingName = ctx.encodingName := by
  have hin := (h.step hcr hres).1
  have hmsg : ctx'.msg = .value := by
    by_cases happly : ctx.mediaFilterApply = true
    · rw [h.filtered happly hc hcr] at hres
      obtain rfl := Except.ok.inj hres
      rfl
    · rw [h.parsed (by simpa using happly) hc hcr] at hres
      obtain ⟨ctx₁, h₁, hres⟩ := bind_eq_ok.mp hres
      rw [writeValue_eq hres]
      exact congrArg Surroundings.msg (contentTypeMsg_watcher h₁).2
  rw [h.octet hc hcr] at hres
  have hnames := @mimeMsgEvent_names env { ctx with msg := .value } ctx' (MimeMsg.value c)
    (inValue_value c) hres
  exact ⟨hin, hmsg, hnames.1, hnames.2⟩

/-- **An octet of the value** is copied, or it filters the part and takes the last space. -/
theorem InTypeValue.octet_outcome (h : InTypeValue ctx) (happly : ctx.mediaFilterApply = false)
    (hc : lwspChar c = false) (hcr : c ≠ CR) (hres : mimeMsg env ctx c = .ok ctx') :
    ctx'.mediaFilterApply = false ∧ ctx'.mail = ctx.mail.write c ∨
      ctx'.mediaFilterApply = true ∧ ∃ p w, ctx.emitted = p ++ SP :: w ∧ SP ∉ w ∧
        ctx'.emitted = p ++ ascii " text/plain" := by
  rw [h.parsed happly hc hcr] at hres
  obtain ⟨ctx₁, h₁, hres⟩ := bind_eq_ok.mp hres
  have heff := @contentTypeMsg_effect env { ctx with msg := .value } ctx₁ c happly h₁
  have happly' : ctx'.mediaFilterApply = ctx₁.mediaFilterApply := by
    rw [writeValue_eq hres]
  have hreplace : ctx₁.replaceContentType = ctx₁.mediaFilterApply := by
    rw [Bool.eq_iff_iff, heff.replace, heff.apply, happly, h.replace]
  have hmail : ctx₁.mail = ctx.mail := heff.mail
  by_cases hfired : ctx₁.mediaFilterApply = true
  · right
    refine ⟨happly'.trans hfired, ?_⟩
    have hclean : Clean ctx₁ := by
      rw [Clean, hmail]
      exact h.clean
    obtain ⟨hroom, hnone⟩ := writeValue_replaced (c := c) (hreplace.trans hfired) hclean
    have hsp : SP ∈ ctx₁.mail.left := by
      by_contra hsp
      exact hnone hsp ctx' hres
    obtain ⟨p, hp⟩ := split_word hsp
    have hseek := hclean.seek hp
    rw [writeValue, if_pos (hreplace.trans hfired), hseek] at hres
    obtain rfl := Except.ok.inj hres
    refine ⟨p.reverse, ctx₁.word.reverse, ?_, ?_, ?_⟩
    · rw [Ctx.emitted, Tape.written, ← hmail, hp]
      simp [Ctx.word]
    · intro hmem
      rw [List.mem_reverse] at hmem
      simpa using List.mem_takeWhile_imp hmem
    · exact Tape.written_writeAll _ _
  · left
    have hfalse : ctx₁.mediaFilterApply = false := by simpa using hfired
    refine ⟨happly'.trans hfalse, ?_⟩
    rw [writeValue, if_neg (by simp [hreplace, hfalse])] at hres
    obtain rfl := Except.ok.inj hres
    rw [← hmail]
    rfl

/-- Once the part is filtered it stays so. -/
theorem InTypeValue.unfired_before (h : InTypeValue ctx) {bs : List Byte} (hbs : Unspaced bs)
    (hrun : mailRun env ctx bs = .ok ctx') (hunfired : ctx'.mediaFilterApply = false) :
    ctx.mediaFilterApply = false := by
  by_contra happly
  obtain ⟨ctx₁, hrun₁, happly₁, -⟩ :=
    h.copied env (by simpa using happly) fun hmem => (hbs CR hmem).2 rfl
  obtain rfl := Except.ok.inj (hrun₁.symm.trans hrun)
  rw [hunfired] at happly₁
  cases happly₁

/-- Octets that leave the part unfiltered are copied. -/
theorem InTypeValue.unfired (h : InTypeValue ctx) (happly : ctx.mediaFilterApply = false)
    {bs : List Byte} (hbs : Unspaced bs) (hrun : mailRun env ctx bs = .ok ctx')
    (hunfired : ctx'.mediaFilterApply = false) :
    InTypeValue ctx' ∧ (bs ≠ [] → ctx'.msg = .value) ∧ ctx'.typeName = ctx.typeName ∧
      ctx'.encodingName = ctx.encodingName ∧ ctx'.mail = ctx.mail.writeAll bs := by
  induction bs generalizing ctx with
  | nil =>
    obtain rfl := Except.ok.inj hrun
    exact ⟨h, fun hne => absurd rfl hne, rfl, rfl, rfl⟩
  | cons c bs ih =>
    obtain ⟨hc, hcr⟩ := hbs c (by simp)
    rw [mailRun_cons] at hrun
    obtain ⟨ctx₁, h₁, hrun⟩ := bind_eq_ok.mp hrun
    obtain ⟨hin, hmsg, htype, hencoding⟩ := h.unspaced_octet hc hcr h₁
    have hbs' : Unspaced bs := fun d hd => hbs d (by simp [hd])
    rcases h.octet_outcome happly hc hcr h₁ with ⟨happly₁, hmail⟩ | ⟨happly₁, -⟩
    · obtain ⟨hin', hmsg', htype', hencoding', hmail'⟩ := ih hin happly₁ hbs' hrun
      refine ⟨hin', fun _ => ?_, htype'.trans htype, hencoding'.trans hencoding, ?_⟩
      · by_cases hnil : bs = []
        · rw [hnil] at hrun
          obtain rfl := Except.ok.inj hrun
          exact hmsg
        · exact hmsg' hnil
      · rw [hmail', hmail]
        rfl
    · rw [hin.unfired_before hbs' hrun hunfired] at happly₁
      cases happly₁

/-- A part that is filtered somewhere is filtered by an octet. -/
theorem InTypeValue.first_fired (h : InTypeValue ctx) (happly : ctx.mediaFilterApply = false)
    {bs : List Byte} (hbs : Unspaced bs) (hrun : mailRun env ctx bs = .ok ctx')
    (hfired : ctx'.mediaFilterApply = true) :
    ∃ a c b ctx₁ ctx₂, bs = a ++ c :: b ∧ mailRun env ctx a = .ok ctx₁ ∧
      ctx₁.mediaFilterApply = false ∧ mimeMsg env ctx₁ c = .ok ctx₂ ∧
      ctx₂.mediaFilterApply = true ∧ mailRun env ctx₂ b = .ok ctx' := by
  induction bs generalizing ctx with
  | nil =>
    obtain rfl := Except.ok.inj hrun
    rw [happly] at hfired
    cases hfired
  | cons d bs ih =>
    obtain ⟨hd, hcr⟩ := hbs d (by simp)
    rw [mailRun_cons] at hrun
    obtain ⟨ctx₃, h₃, hrun⟩ := bind_eq_ok.mp hrun
    by_cases happly₃ : ctx₃.mediaFilterApply = true
    · exact ⟨[], d, bs, ctx, ctx₃, rfl, rfl, happly, h₃, happly₃, hrun⟩
    · obtain ⟨hin, -⟩ := h.unspaced_octet hd hcr h₃
      obtain ⟨a, c, b, ctx₁, ctx₂, rfl, h₁, hno, h₂, hyes, hrun⟩ :=
        ih hin (by simpa using happly₃) (fun e he => hbs e (by simp [he])) hrun
      refine ⟨d :: a, c, b, ctx₁, ctx₂, rfl, ?_, hno, h₂, hyes, hrun⟩
      rw [mailRun_cons, h₃, ok_bind, h₁]

/-! ## The message that is enclosed -/

/-- What becomes of a flag whose matcher is given these octets. -/
def flagAfter (s bs : List Byte) (flag : Bool) : Bool :=
  if SameLetters bs s then true else if BeginsLetters bs s then flag else false

/-- An octet more for the matcher and its flag. -/
theorem flagAfter_concat {s bs : List Byte} (hs : IsAscii s) (c : Byte) (flag : Bool) :
    (detected (some (flagAfter s bs flag)) (strcmpiRun s (bs ++ [c])).2).getD false =
      flagAfter s (bs ++ [c]) flag := by
  rw [strcmpiRun_snd (Or.inl hs), flagAfter, flagAfter]
  by_cases hsame : SameLetters (bs ++ [c]) s
  · rw [if_pos hsame, if_pos hsame]
    rfl
  · rw [if_neg hsame, if_neg hsame]
    by_cases hbegins : BeginsLetters (bs ++ [c]) s
    · have hbefore := (beginsLetters_concat.mp hbegins).1
      have hshort : ¬ SameLetters bs s := by
        intro hsame'
        have hlen := sameLetters_length hsame'
        have hle := hbegins.length_le
        rw [List.length_append, List.length_singleton] at hle
        omega
      rw [if_pos hbegins, if_pos hbegins, if_neg hshort, if_pos hbefore]
      rfl
    · rw [if_neg hbegins, if_neg hbegins]
      rfl

/-- How far the type has been read. -/
structure InType (ctx : Ctx) (bs : List Byte) (flag : Bool) : Prop extends InTypeValue ctx where
  apply : ctx.mediaFilterApply = false
  contentType : ctx.contentType = .type ∨ bs = [] ∧ ctx.contentType = .type0
  messageType : ctx.messageType = (strcmpiRun (ascii "message") bs).1
  messageDetected : ctx.messageDetected = flagAfter (ascii "message") bs flag
  rfc822 : ctx.rfc822 = 0
  rfc822Detected : ctx.rfc822Detected = false

/-- An octet of the type leaves the flags to the others. -/
theorem contentTypeMatch_side {c : Byte} (h : contentTypeMatch ctx c = .ok ctx') :
    ctx'.mediaFilterApply = ctx.mediaFilterApply ∧ ctx'.contentType = ctx.contentType ∧
      ctx'.messageType = ctx.messageType ∧ ctx'.messageDetected = ctx.messageDetected ∧
      ctx'.rfc822 = ctx.rfc822 ∧ ctx'.rfc822Detected = ctx.rfc822Detected := by
  rw [contentTypeMatch] at h
  split_ifs at h
  split at h <;> obtain rfl := Except.ok.inj h <;> exact ⟨rfl, rfl, rfl, rfl, rfl, rfl⟩

/-- **An octet of the type**. -/
theorem InType.octet {bs : List Byte} {flag : Bool} (h : InType ctx bs flag)
    (hc : initCharClass .restNameChars c = true)
    (hfirst : bs = [] → initCharClass .restNameFirst c = true)
    (hres : mimeMsg env ctx c = .ok ctx') : InType ctx' (bs ++ [c]) flag := by
  obtain ⟨hspace, hcr, -⟩ := restNameChars_plain c hc
  have hslash : c ≠ SLASH := by
    rintro rfl
    exact absurd hc (by decide)
  have hfeed : mimeTypeFeed ctx.contentType c = (.type, [MimeType.type c]) := by
    rcases h.contentType with hstate | ⟨hnil, hstate⟩
    · rw [hstate, mimeTypeFeed_type, if_neg hslash, if_pos hc]
    · rw [hstate, mimeTypeFeed_type0, if_pos (hfirst hnil)]
  have hin := (h.toInTypeValue.unspaced_octet hspace hcr hres).1
  rw [h.parsed h.apply hspace hcr] at hres
  obtain ⟨ctx₁, h₁, hres⟩ := bind_eq_ok.mp hres
  have hmsg : contentTypeMsg env { ctx with msg := .value } c =
      contentTypeEvent env { ctx with msg := .value, contentType := .type } (MimeType.type c) :=
    contentTypeMsg_single hfeed
  rw [hmsg] at h₁
  obtain ⟨ctx₂, h₂, rfl⟩ := typeEvent_ok h₁
  obtain ⟨happly, hstate, htype, hdetected, hrfc, hrfc'⟩ := contentTypeMatch_side h₂
  have hword : strcmpiFeed (ascii "message") ctx₂.messageType c =
      strcmpiRun (ascii "message") (bs ++ [c]) := by
    rw [strcmpiRun_concat, htype]
    exact congrArg (strcmpiFeed _ · c) h.messageType
  rw [writeValue_eq hres] at hin ⊢
  refine ⟨hin, ?_, Or.inl ?_, ?_, ?_, ?_, ?_⟩
  · exact happly.trans h.apply
  · exact hstate
  · exact congrArg Prod.fst hword
  · show (detected (some ctx₂.messageDetected) (strcmpiFeed _ ctx₂.messageType c).2).getD false = _
    rw [hword, hdetected]
    show (detected (some ctx.messageDetected) _).getD false = _
    rw [h.messageDetected]
    exact flagAfter_concat (by decide +kernel) c flag
  · exact hrfc.trans h.rfc822
  · exact hrfc'.trans h.rfc822Detected

/-- **The type** has been read. -/
theorem InType.run {bs x : List Byte} {flag : Bool} (h : InType ctx bs flag)
    (hx : ∀ c ∈ x, initCharClass .restNameChars c = true)
    (hfirst : bs = [] → ∀ c ∈ x.head?, initCharClass .restNameFirst c = true)
    (hrun : mailRun env ctx x = .ok ctx') : InType ctx' (bs ++ x) flag := by
  induction x generalizing ctx bs with
  | nil =>
    obtain rfl := Except.ok.inj hrun
    rw [List.append_nil]
    exact h
  | cons c x ih =>
    rw [mailRun_cons] at hrun
    obtain ⟨ctx₁, h₁, hrun⟩ := bind_eq_ok.mp hrun
    have hstep := h.octet (hx c (by simp)) (fun hnil => hfirst hnil c rfl) h₁
    have hrest :=
      ih hstep (fun d hd => hx d (by simp [hd])) (fun hnil => absurd hnil (by simp)) hrun
    rw [List.append_assoc] at hrest
    exact hrest

/-- How far the subtype has been read, behind a type that is that of a message or not. -/
structure InSubtype (ctx : Ctx) (bs : List Byte) (message : Bool) : Prop extends
    InTypeValue ctx where
  contentType : ctx.contentType = .subtype
  messageDetected : ctx.messageDetected = message
  rfc822 : message = true → ctx.rfc822 = (strcmpiRun (ascii "rfc822") bs).1
  rfc822Detected : ctx.rfc822Detected = (message && SameLetters bs (ascii "rfc822"))

/-- An octet of the subtype leaves them alone, too. -/
theorem contentSubtypeMatch_side {c : Byte} (h : contentSubtypeMatch ctx c = .ok ctx') :
    ctx'.contentType = ctx.contentType ∧ ctx'.messageDetected = ctx.messageDetected ∧
      ctx'.rfc822 = ctx.rfc822 ∧ ctx'.rfc822Detected = ctx.rfc822Detected := by
  rw [contentSubtypeMatch] at h
  split at h
  · cases h
  · split at h
    · cases h
    · obtain ⟨⟨ss, current⟩, -, h⟩ := bind_eq_ok.mp h
      obtain rfl := Except.ok.inj h
      split_ifs <;> exact ⟨rfl, rfl, rfl, rfl⟩

/-- An octet of the subtype, whether it filters the part or not. -/
theorem InSubtype.octet {bs : List Byte} {message : Bool} (h : InSubtype ctx bs message)
    (happly : ctx.mediaFilterApply = false) (hc : initCharClass .restNameChars c = true)
    (hres : mimeMsg env ctx c = .ok ctx') : InSubtype ctx' (bs ++ [c]) message := by
  obtain ⟨hspace, hcr, -⟩ := restNameChars_plain c hc
  have hin := (h.toInTypeValue.unspaced_octet hspace hcr hres).1
  rw [h.subtype_parsed env happly h.contentType hc] at hres
  obtain ⟨ctx₁, h₁, hres⟩ := bind_eq_ok.mp hres
  obtain ⟨ctx₂, h₂, h₁⟩ := bind_eq_ok.mp h₁
  obtain rfl := Except.ok.inj h₁
  have hside : ctx₂.contentType = ctx.contentType ∧ ctx₂.messageDetected = ctx.messageDetected ∧
      ctx₂.rfc822 = ctx.rfc822 ∧ ctx₂.rfc822Detected = ctx.rfc822Detected := by
    split_ifs at h₂
    · exact @contentSubtypeMatch_side { ctx with msg := .value } ctx₂ c h₂
    · obtain rfl := Except.ok.inj h₂
      exact ⟨rfl, rfl, rfl, rfl⟩
  obtain ⟨hstate, hmessage, hrfc, hdetected⟩ := hside
  rw [writeValue_eq hres] at hin ⊢
  by_cases hm : message = true
  · subst hm
    have hyes : ctx₂.messageDetected = true := hmessage.trans h.messageDetected
    simp only [hyes, if_true] at hin ⊢
    have hword : strcmpiFeed (ascii "rfc822") ctx₂.rfc822 c =
        strcmpiRun (ascii "rfc822") (bs ++ [c]) := by
      rw [strcmpiRun_concat, hrfc, h.rfc822 rfl]
    have hflag : ctx₂.rfc822Detected = flagAfter (ascii "rfc822") bs false := by
      rw [hdetected, h.rfc822Detected, flagAfter]
      by_cases hsame : SameLetters bs (ascii "rfc822")
      · simp [hsame]
      · simp [hsame]
    refine ⟨hin, hstate.trans h.contentType, hyes, fun _ => ?_, ?_⟩
    · exact congrArg Prod.fst hword
    · show (detected (some ctx₂.rfc822Detected) (strcmpiFeed _ ctx₂.rfc822 c).2).getD false = _
      rw [hword, hflag, flagAfter_concat (by decide +kernel), flagAfter]
      by_cases hsame : SameLetters (bs ++ [c]) (ascii "rfc822")
      · simp [hsame]
      · simp [hsame]
  · have hfalse : message = false := by simpa using hm
    subst hfalse
    have hno : ctx₂.messageDetected = false := hmessage.trans h.messageDetected
    have hquiet : (if ctx₂.messageDetected then rfc822Header ctx₂ c else ctx₂) = ctx₂ :=
      if_neg (by simp [hno])
    rw [hquiet] at hin ⊢
    refine ⟨hin, hstate.trans h.contentType, hno, nofun, ?_⟩
    exact hdetected.trans h.rfc822Detected

/-- **The subtype**, as long as the part is not filtered. -/
theorem InSubtype.run {bs y : List Byte} {message : Bool} (h : InSubtype ctx bs message)
    (happly : ctx.mediaFilterApply = false) (hy : ∀ c ∈ y, initCharClass .restNameChars c = true)
    (hrun : mailRun env ctx y = .ok ctx') (hunfired : ctx'.mediaFilterApply = false) :
    InSubtype ctx' (bs ++ y) message := by
  induction y generalizing ctx bs with
  | nil =>
    obtain rfl := Except.ok.inj hrun
    rw [List.append_nil]
    exact h
  | cons c y ih =>
    rw [mailRun_cons] at hrun
    obtain ⟨ctx₁, h₁, hrun⟩ := bind_eq_ok.mp hrun
    have hc := hy c (by simp)
    obtain ⟨hspace, hcr, -⟩ := restNameChars_plain c hc
    have hstep := h.octet happly hc h₁
    have hy' : ∀ d ∈ y, initCharClass .restNameChars d = true := fun d hd => hy d (by simp [hd])
    rcases h.octet_outcome happly hspace hcr h₁ with ⟨happly₁, -⟩ | ⟨happly₁, -⟩
    · have hrest := ih hstep happly₁ hy' hrun
      rw [List.append_assoc] at hrest
      exact hrest
    · have hplain : Unspaced y := fun d hd =>
        ⟨(restNameChars_plain d (hy' d hd)).1, (restNameChars_plain d (hy' d hd)).2.1⟩
      rw [hstep.unfired_before hplain hrun hunfired] at happly₁
      cases happly₁

/-- **The type and the slash** have been read. -/
theorem InType.slash {x : List Byte} {flag : Bool} (h : InType ctx x flag) (hx : x ≠ [])
    (hres : mimeMsg env ctx SLASH = .ok ctx') :
    InSubtype ctx' [] (flagAfter (ascii "message") x flag) ∧ ctx'.mediaFilterApply = false := by
  have hstate : ctx.contentType = .type := h.contentType.resolve_right fun hboth => hx hboth.1
  have hfeed : mimeTypeFeed ctx.contentType SLASH = (.subtype, [MimeType.typeEnd SLASH]) := by
    rw [hstate, mimeTypeFeed_type, if_pos rfl]
  have hin := (h.toInTypeValue.unspaced_octet (by decide) (by decide) hres).1
  have hstep : mimeMsg env ctx SLASH =
      .ok ({ ctx with msg := .value, contentType := .subtype }.emit SLASH) :=
    h.plain h.apply (by decide) (by decide) hfeed fun _ => rfl
  obtain rfl := Except.ok.inj (hstep.symm.trans hres)
  refine ⟨⟨hin, rfl, h.messageDetected, fun _ => h.rfc822, ?_⟩, h.apply⟩
  have hnone : ¬ SameLetters [] (ascii "rfc822") := by decide
  rw [decide_eq_false hnone, Bool.and_false]
  exact h.rfc822Detected

/-- **A type and a subtype** that leave the part unfiltered. -/
theorem InType.media_run {x y : List Byte} {flag : Bool} (h : InType ctx [] flag)
    (hx : RestrictedName x) (hy : ∀ c ∈ y, initCharClass .restNameChars c = true)
    (hrun : mailRun env ctx (x ++ SLASH :: y) = .ok ctx')
    (hunfired : ctx'.mediaFilterApply = false) :
    InSubtype ctx' y (flagAfter (ascii "message") x flag) := by
  rw [mailRun_append] at hrun
  obtain ⟨ctx₁, h₁, hrun⟩ := bind_eq_ok.mp hrun
  rw [mailRun_cons] at hrun
  obtain ⟨ctx₂, h₂, hrun⟩ := bind_eq_ok.mp hrun
  have htype := h.run hx.chars (fun _ => hx.first) h₁
  obtain ⟨hslash, happly⟩ := htype.slash hx.ne h₂
  exact hslash.run happly hy hrun hunfired

end

end Pop3Proxy
