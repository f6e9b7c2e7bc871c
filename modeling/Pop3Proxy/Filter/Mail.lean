/-
# A mail through the filter

What `pop3_multi` does with the octets of a reply is what `mime_msg` does with
the octets of the mail, up to the end of the reply.
-/
import Pop3Proxy.Library.Visits
import Pop3Proxy.Filter.StripMime

namespace Pop3Proxy

/-- A reply whose end the parser notices on the last octet and not before. -/
def Terminated (bs : List Byte) : Prop :=
  ∃ before, (multiRun pop3MultiParser.startState bs).2 = before ++ [[Pop3Multi.fin LF]] ∧
    Unfinished before.flatten

/-- The mail that a reply carries. -/
def mailOf (bs : List Byte) : List Byte :=
  unstuffed (multiRun pop3MultiParser.startState bs).2.flatten

/-! ## The end of a reply -/

/-- Octets of the reply in two pieces. -/
theorem multiRun_append (p : MultiState) (bs cs : List Byte) :
    multiRun p (bs ++ cs) =
      ((multiRun (multiRun p bs).1 cs).1, (multiRun p bs).2 ++ (multiRun (multiRun p bs).1 cs).2) :=
  parserRun_append parserNoClasses pop3MultiParser p bs cs

/-- The octet behind a CR. -/
theorem multiFeed_cr (c : Byte) :
    multiFeed .cr c = (if c = LF then .newline else .byte,
    [Pop3Multi.byteCr c, Pop3Multi.byte c]) := by
  by_cases h : c = LF <;> simp [multiFeed, parserFeed, pop3MultiParser, When.holds, List.find?, h]

/-- Behind a dot and a CR, an octet that does not end the mail. -/
theorem multiFeed_dotCr {c : Byte} (h : c ≠ LF) :
    multiFeed .dotCr c = (.byte, [Pop3Multi.byteCr c, Pop3Multi.byte c]) := by
  simp [multiFeed, parserFeed, pop3MultiParser, When.holds, List.find?, h]

/-- Behind the end of the mail, a CR is handed on in front of the octet. -/
theorem multiFeed_fin (c : Byte) :
    multiFeed .fin c = (.byte, [Pop3Multi.byteCr c, Pop3Multi.byte c]) := by
  simp [multiFeed, parserFeed, pop3MultiParser, When.holds]

/-- The end is the line feed behind a dot and a CR. -/
theorem multiFeed_eq_fin {p : MultiState} {c : Byte}
    (h : (multiFeed p c).2 = [Pop3Multi.fin LF]) : p = .dotCr ∧ c = LF := by
  have hbyte : ∀ d, Pop3Multi.byte d ≠ Pop3Multi.fin LF := by
    intro d
    simp [Pop3Multi.byte, Pop3Multi.fin]
  cases p with
  | dotCr =>
    refine ⟨rfl, ?_⟩
    by_contra hc
    rw [multiFeed_dotCr hc] at h
    simp at h
  | newline =>
    by_cases hdot : c = DOT
    · subst hdot
      exact absurd h (by decide)
    by_cases hcr : c = CR
    · subst hcr
      exact absurd h (by decide)
    · rw [multiFeed_newline hdot hcr] at h
      exact absurd (List.singleton_injective h) (hbyte c)
  | byte =>
    by_cases hcr : c = CR
    · subst hcr
      exact absurd h (by decide)
    · rw [multiFeed_byte hcr] at h
      exact absurd (List.singleton_injective h) (hbyte c)
  | dot =>
    by_cases hcr : c = CR
    · subst hcr
      exact absurd h (by decide)
    · rw [multiFeed_dot hcr] at h
      exact absurd (List.singleton_injective h) (hbyte c)
  | cr =>
    rw [multiFeed_cr] at h
    simp at h
  | fin =>
    rw [multiFeed_fin] at h
    simp at h

/-- **The last octet of a reply** is read behind the whole mail. -/
theorem Terminated.split {bs : List Byte} (h : Terminated bs) :
    ∃ bs', bs = bs' ++ [LF] ∧ Reads .newline bs' .dotCr (mailOf bs) := by
  obtain ⟨before, hrun, hun⟩ := h
  obtain rfl | ⟨bs', c, rfl⟩ := List.eq_nil_or_concat' bs
  · exact absurd (congrArg List.length hrun) (by simp [multiRun, parserRun])
  · rw [multiRun_append] at hrun
    have hlast : (multiRun (multiRun pop3MultiParser.startState bs').1 [c]).2 =
        [(multiFeed (multiRun pop3MultiParser.startState bs').1 c).2] := rfl
    rw [hlast] at hrun
    obtain ⟨hbefore, hfin⟩ := List.append_inj' hrun rfl
    obtain ⟨hstate, rfl⟩ := multiFeed_eq_fin (List.singleton_injective hfin)
    refine ⟨bs', rfl, hstate, ?_, ?_⟩
    · rw [mailOf, multiRun_append, hlast, hfin, List.flatten_append, unstuffed_append]
      exact (List.append_nil _).symm
    · show Unfinished (multiRun pop3MultiParser.startState bs').2.flatten
      rw [hbefore]
      exact hun

/-- The CR before it is read behind a dot. -/
theorem multiFeed_eq_dotCr {p : MultiState} {c : Byte} (h : (multiFeed p c).1 = .dotCr) :
    p = .dot ∧ c = CR := by
  cases p with
  | dot =>
    refine ⟨rfl, ?_⟩
    by_contra hc
    rw [multiFeed_dot hc] at h
    simp at h
  | newline =>
    by_cases hdot : c = DOT
    · subst hdot
      exact absurd h (by decide)
    by_cases hcr : c = CR
    · subst hcr
      exact absurd h (by decide)
    · rw [multiFeed_newline hdot hcr] at h
      simp at h
  | byte =>
    by_cases hcr : c = CR
    · subst hcr
      exact absurd h (by decide)
    · rw [multiFeed_byte hcr] at h
      simp at h
  | cr =>
    rw [multiFeed_cr] at h
    split_ifs at h
  | dotCr =>
    by_cases hlf : c = LF
    · subst hlf
      exact absurd h (by decide)
    · rw [multiFeed_dotCr hlf] at h
      simp at h
  | fin =>
    rw [multiFeed_fin] at h
    simp at h

/-! ## The mail -/

/-- A mail in two pieces. -/
theorem mailRun_append (env : FilterEnv) (ctx : Ctx) (bs cs : List Byte) :
    mailRun env ctx (bs ++ cs) = mailRun env ctx bs >>= fun ctx => mailRun env ctx cs :=
  List.foldlM_append

/-- The last octet of a mail. -/
theorem mailRun_concat (env : FilterEnv) (ctx : Ctx) (bs : List Byte) (c : Byte) :
    mailRun env ctx (bs ++ [c]) = mailRun env ctx bs >>= fun ctx => mimeMsg env ctx c := by
  rw [mailRun_append]
  congr 1
  funext ctx
  exact bind_pure (mimeMsg env ctx c)

/-- `P` holds of every octet of the mail and the context it is read in. -/
def AlongMail (env : FilterEnv) (P : Ctx → Byte → Prop) (ctx : Ctx) (mail : List Byte) : Prop :=
  ∀ v ∈ visits (mimeMsg env) ctx mail, P v.1 v.2

section
variable {env : FilterEnv} {P : Ctx → Byte → Prop} {ctx : Ctx}

instance decidableAlongMail [∀ ctx c, Decidable (P ctx c)] (mail : List Byte) :
    Decidable (AlongMail env P ctx mail) :=
  inferInstanceAs (Decidable (∀ v ∈ visits (mimeMsg env) ctx mail, P v.1 v.2))

/-- An empty mail has no octet that could be against it. -/
theorem alongMail_nil : AlongMail env P ctx [] := fun _ hv => nomatch hv

/-- The last octet is one more. -/
theorem alongMail_concat {c : Byte} {mail : List Byte} :
    AlongMail env P ctx (mail ++ [c]) ↔
      AlongMail env P ctx mail ∧ ∀ ctx', mailRun env ctx mail = .ok ctx' → P ctx' c :=
  forall_visits_concat

end

/-- A reply in two pieces. -/
theorem filterRun_append (env : FilterEnv) (f : Filter) (bs cs : List Byte) :
    filterRun env f (bs ++ cs) = filterRun env f bs >>= fun f => filterRun env f cs :=
  List.foldlM_append

/-- What the events hand on is the mail. -/
theorem foldlM_pop3MultiEvent (env : FilterEnv) (ctx : Ctx) {es : List (ParserEvent Pop3MultiType)}
    (h : Unfinished es) : es.foldlM (pop3MultiEvent env) ctx = mailRun env ctx (unstuffed es) := by
  induction es generalizing ctx with
  | nil => rfl
  | cons e es ih =>
    have hes : Unfinished es := fun e he => h e (by simp [he])
    have hcons : unstuffed (e :: es) = unstuffed [e] ++ unstuffed es := by
      simp [unstuffed]
    have he : pop3MultiEvent env ctx e = mailRun env ctx (unstuffed [e]) := by
      obtain ⟨ty, data, n⟩ := e
      cases ty with
      | byte => simp [pop3MultiEvent, unstuffed, mailRun]
      | wait => rfl
      | fin => exact absurd rfl (h ⟨.fin, data, n⟩ (by simp))
    rw [List.foldlM_cons, hcons, mailRun_append, he]
    congr 1
    funext ctx
    exact ih ctx hes

/-- The octets one after the other are their events one after the other. -/
theorem filterRun_eq (env : FilterEnv) (f : Filter) (bs : List Byte) : filterRun env f bs =
    ((multiRun f.multi bs).2.flatten.foldlM (pop3MultiEvent env) f.ctx).map
      (Filter.mk (multiRun f.multi bs).1) := by
  induction bs generalizing f with
  | nil => rfl
  | cons c bs ih =>
    have hrun : (multiRun f.multi (c :: bs)).2.flatten =
        (multiFeed f.multi c).2 ++ (multiRun (multiFeed f.multi c).1 bs).2.flatten := rfl
    have hstate : (multiRun f.multi (c :: bs)).1 = (multiRun (multiFeed f.multi c).1 bs).1 := rfl
    rw [hrun, hstate, List.foldlM_append, filterRun, List.foldlM_cons, pop3Multi]
    cases (multiFeed f.multi c).2.foldlM (pop3MultiEvent env) f.ctx with
    | error e => rfl
    | ok ctx => exact ih ⟨(multiFeed f.multi c).1, ctx⟩

/-- **Until the reply ends**, the filter does what `mime_msg` does with the mail. -/
theorem filterRun_reads (env : FilterEnv) (ctx : Ctx) {p p' : MultiState} {bs out : List Byte}
    (h : Reads p bs p' out) :
    filterRun env ⟨p, ctx⟩ bs = (mailRun env ctx out).map (Filter.mk p') := by
  obtain ⟨rfl, rfl, hun⟩ := h
  rw [filterRun_eq, foldlM_pop3MultiEvent env ctx hun]

/-- The parser of the reply takes no notice of the rest of the context. -/
theorem multi_filterRun {env : FilterEnv} {f f' : Filter} {bs : List Byte}
    (h : filterRun env f bs = .ok f') : f'.multi = (multiRun f.multi bs).1 := by
  rw [filterRun_eq] at h
  obtain ⟨ctx, -, rfl⟩ := map_eq_ok.mp h
  rfl

/-- The end of a reply. -/
def Ctx.restart (ctx : Ctx) : Ctx :=
  { ctx with
    msg := mimeMessageParser.startState
    contentType := mimeTypeParser.startState
    msgContentTypeFieldDetected := none
    msgContentTransferEncodingFieldDetected := none
    mail := ctx.mail.erase 0 }

@[simp] theorem Ctx.emitted_restart (ctx : Ctx) : ctx.restart.emitted = ctx.emitted := rfl

/-- **A whole reply** from a parser that is at the start of one. -/
theorem filterRun_terminated (env : FilterEnv) (ctx : Ctx) {bs : List Byte} (h : Terminated bs) :
    filterRun env ⟨pop3MultiParser.startState, ctx⟩ bs =
      (mailRun env ctx (mailOf bs)).map fun ctx => ⟨.fin, ctx.restart⟩ := by
  obtain ⟨bs', hbs, hreads⟩ := h.split
  have hrun := filterRun_reads env ctx hreads
  rw [hbs, filterRun_append, ← hbs]
  show filterRun env ⟨.newline, ctx⟩ bs' >>= _ = _
  rw [hrun]
  cases mailRun env ctx (mailOf bs) with
  | error e => rfl
  | ok ctx' => rfl

/-- What the filter emits from the start of a reply to its end is `text`. -/
def Emits (env : FilterEnv) (entries : List (List Byte × List Byte)) (bs text : List Byte) : Prop :=
  ∃ f, filterRun env (.initial entries) bs = .ok f ∧ f.ctx.emitted = text

end Pop3Proxy
