/-
# Running over the field that decides

The name, the white space, the type and the subtype, and what follows them, one after the other.
The field is copied, or the type is replaced by the octet that completes one of the list;
what the list says of the type and of the beginnings of the subtype tells which.
-/
import Pop3Proxy.Filter.TypeField

namespace Pop3Proxy

/-! ## What the list says -/

/-- A subtype of the list is completed within these octets. -/
def Triggers (ts : List TypeList) (type y : List Byte) : Prop :=
  y ≠ [] ∧ ∃ t, nodeFor ts type = some t ∧ ∃ s ∈ t.subtypes, s.begins y

/-- A subtype of the list is completed by the last of these octets, and not before. -/
def CompletedBy (ts : List TypeList) (type y : List Byte) : Prop :=
  Triggers ts type y ∧ ¬ Triggers ts type y.dropLast

/-- A wildcard is the first of the subtypes that a type leads to. -/
def WildcardFirst (ts : List TypeList) (type : List Byte) : Prop :=
  ∀ t, nodeFor ts type = some t → .wildcard ∈ t.subtypes → t.subtypes.head? = some .wildcard

/-- What has been completed stays so. -/
theorem Triggers.mono {ts : List TypeList} {x y z : List Byte} (h : Triggers ts x y)
    (hyz : y <+: z) : Triggers ts x z := by
  obtain ⟨hne, t, ht, s, hs, hbegins⟩ := h
  refine ⟨fun hnil => hne ?_, t, ht, s, hs, ?_⟩
  · rw [hnil] at hyz
    exact List.prefix_nil.mp hyz
  · cases s with
    | wildcard => trivial
    | named s p => exact ⟨hbegins.1, hbegins.2.trans (hyz.map tolower)⟩

/-- Something is completed by an octet. -/
theorem CompletedBy.ne_nil {ts : List TypeList} {x y : List Byte} (h : CompletedBy ts x y) :
    y ≠ [] := h.1.1

/-- No beginning of the octets completes one. -/
theorem CompletedBy.le {ts : List TypeList} {x y z : List Byte} (h : CompletedBy ts x y)
    (hz : Triggers ts x z) (hzy : z <+: y) : z = y := by
  obtain ⟨d, hd⟩ : ∃ d, y = y.dropLast ++ [d] :=
    ⟨y.getLast h.ne_nil, (List.dropLast_append_getLast h.ne_nil).symm⟩
  rw [hd, List.prefix_concat_iff, ← hd] at hzy
  exact hzy.resolve_right fun hbefore => h.2 (hz.mono hbefore)

/-- It is completed once. -/
theorem CompletedBy.unique {ts : List TypeList} {x y z w : List Byte} (h : CompletedBy ts x y)
    (h' : CompletedBy ts x z) (hy : y <+: w) (hz : z <+: w) : y = z := by
  rcases List.prefix_or_prefix_of_prefix hy hz with hle | hle
  · exact h'.le h.1 hle
  · exact (h.le h'.1 hle).symm

/-- The whole of a subtype completes one when nothing less does. -/
theorem CompletedBy.last_iff {ts : List TypeList} {x y b : List Byte} (h : CompletedBy ts x y) :
    b = [] ↔ ¬ Triggers ts x (y ++ b).dropLast := by
  constructor
  · rintro rfl
    rw [List.append_nil]
    exact h.2
  · intro hnot
    by_contra hb
    rw [List.dropLast_append_of_ne_nil hb] at hnot
    exact hnot (h.1.mono (List.prefix_append y b.dropLast))

/-- **What the list says** of a type and the beginning of a subtype. -/
theorem typeListed_triggers {ts : List TypeList} (hts : FreshTypes ts) {x y : List Byte}
    (hx : RestrictedName x) (hy : ∀ c ∈ y, initCharClass .restNameChars c = true) :
    ((∃ b, typeListed ts none x y = .ok b) ↔ (y ≠ [] → WildcardFirst ts x)) ∧
      ∀ b, typeListed ts none x y = .ok b → (b = true ↔ Triggers ts x y) := by
  rw [typeListed_nodeFor hts hx.ne fun c hc => restNameChars_ascii c (hx.chars c hc)]
  cases hnode : nodeFor ts x with
  | none =>
    refine ⟨iff_of_true ⟨false, rfl⟩ fun _ t ht => ?_, fun b hb => ?_⟩
    · rw [hnode] at ht
      cases ht
    · obtain rfl := Except.ok.inj hb
      refine iff_of_false nofun ?_
      rintro ⟨-, t, ht, -⟩
      rw [hnode] at ht
      cases ht
  | some t =>
    show ((∃ b, subtypeListed t.subtypes y = .ok b) ↔ _) ∧
      ∀ b, subtypeListed t.subtypes y = .ok b → _
    have hfirst : WildcardFirst ts x ↔
        (.wildcard ∈ t.subtypes → t.subtypes.head? = some .wildcard) := by
      constructor
      · exact fun h => h t hnode
      · intro h t' ht'
        obtain rfl := Option.some.inj (hnode.symm.trans ht')
        exact h
    have htriggers : Triggers ts x y ↔ y ≠ [] ∧ ∃ s ∈ t.subtypes, s.begins y := by
      refine and_congr_right fun _ => ⟨?_, fun h => ⟨t, hnode, h⟩⟩
      rintro ⟨t', ht', h⟩
      obtain rfl := Option.some.inj (hnode.symm.trans ht')
      exact h
    rw [hfirst, htriggers]
    by_cases hnil : y = []
    · subst hnil
      refine ⟨iff_of_true ⟨false, rfl⟩ fun h => absurd rfl h, fun b hb => ?_⟩
      obtain rfl := Except.ok.inj hb
      exact iff_of_false nofun fun h => h.1 rfl
    · have hmem := nodeFor_mem hnode
      obtain ⟨hreturns, hverdict⟩ := subtypeListed_fresh (hts.types t hmem).2
        (hts.subtypes t hmem) hnil fun c hc => restNameChars_ascii c (hy c hc)
      refine ⟨hreturns.trans ⟨fun h _ => h, fun h => h hnil⟩, fun b hb => ?_⟩
      rw [hverdict b hb, and_iff_right hnil]

/-! ## The contexts on the way -/

/-- In front of a field of a part that is not filtered. -/
structure Unfiltered (ctx : Ctx) : Prop extends Ahead ctx where
  apply : ctx.mediaFilterApply = false
  rfc822Detected : ctx.rfc822Detected = false

/-- Within a value that is copied. -/
structure Copying (ctx : Ctx) : Prop where
  typeHeader : ctx.ctypeHeader = 0
  encodingHeader : ctx.ctransferEncodingHeader = 0
  replace : ctx.replaceContentType = false
  drops : ctx.drops = false

/-- A field has been read to its end. -/
structure Behind (f : HeaderField) (filtered : Bool) (ctx : Ctx) : Prop extends Ahead ctx where
  apply : ctx.mediaFilterApply = filtered
  msg : ctx.msg = if EndsInSpace f.value then .value else .valueCrlf

/-- White space in front of a type has been read. -/
structure SpaceRead (ctx : Ctx) (t : TypeField) (ctx' : Ctx) : Prop extends Copying ctx' where
  msg : InValue t.space.octets ctx'.msg
  apply : ctx'.mediaFilterApply = false
  rfc822Detected : ctx'.rfc822Detected = false
  emitted : ctx'.emitted = ctx.emitted ++ (t.field.name ++ COLON :: t.spaceOut)
  opens : NoValue .value t.space.octets →
    InType ctx' [] ctx.messageDetected ∧ ctx'.contentType = .type0 ∧
    ctx'.mediaTypes = ctx.mediaTypes
  closes : ¬ NoValue .value t.space.octets → ctx'.Decided

section
variable {env : FilterEnv} {ctx ctx' : Ctx} {t : TypeField}

/-- What is written goes behind what there was. -/
theorem emitted_of_mail {bs : List Byte} (h : ctx'.mail = ctx.mail.writeAll bs) :
    ctx'.emitted = ctx.emitted ++ bs := by
  rw [Ctx.emitted, h, Tape.written_writeAll]
  rfl

/-- The list stays settled through a mail. -/
theorem Settled.run {bs : List Byte} (h : Settled ctx) (hrun : mailRun env ctx bs = .ok ctx') :
    Settled ctx' := by
  induction bs generalizing ctx with
  | nil =>
    obtain rfl := Except.ok.inj hrun
    exact h
  | cons c bs ih =>
    rw [mailRun_cons] at hrun
    obtain ⟨ctx₁, h₁, hrun⟩ := bind_eq_ok.mp hrun
    exact ih (h.octet h₁) hrun

/-- An octet of the value leaves it one that is copied. -/
theorem InTypeValue.copying (h : InTypeValue ctx) (htype : ctx.ctypeHeader = 0)
    (hencoding : ctx.ctransferEncodingHeader = 0) : Copying ctx := by
  refine ⟨htype, hencoding, h.replace, ?_⟩
  rw [Ctx.drops, decide_eq_false]
  exact fun hboth => h.encoded hboth.1

/-- The field up to the type, and from there on. -/
theorem TypeField.text_eq (t : TypeField) : t.field.text =
    (t.field.name ++ [COLON] ++ t.space.octets) ++ (t.mediaType ++ (t.rest.octets ++ CRLF)) := by
  rw [t.field.text_eq, t.value_eq]
  simp only [TypeField.mediaType, List.append_assoc]

/-- White space, and the octets of its folds. -/
theorem TypeField.space_char (t : TypeField) {c : Byte} (hc : c ∈ t.space.octets) :
    lwspChar c = true ∨ c = CR ∨ c = LF := by
  rcases List.mem_append.mp hc with hc | hc
  · exact Or.inl (t.space_white t.space.line (by simp) c hc)
  · obtain ⟨l, hl, hc⟩ := List.mem_flatMap.mp hc
    rcases List.mem_append.mp hc with hc | hc
    · exact Or.inr (by simpa [CRLF] using hc)
    · exact Or.inl (t.space_white l (by simp [hl]) c hc)

/-- **The name and the white space** in front of the type. -/
theorem TypeField.space_run (env : FilterEnv) (h : Unfiltered ctx) (hset : Settled ctx)
    (hawaited : TypeAwaited ctx) (hs : ctx.msg ≠ .value) (t : TypeField) :
    ∃ ctx', mailRun env ctx (t.field.name ++ [COLON] ++ t.space.octets) = .ok ctx' ∧
      SpaceRead ctx t ctx' := by
  obtain ⟨ctx₁, h₁, hopened⟩ := opening_run env (h.recognises hs) t.field fun _ hrfc822 => by
    rw [h.rfc822Detected] at hrfc822
    cases hrfc822
  have hside {α : Type} (g : TypeSide → α) : g ctx₁.typeSide = g ctx.typeSide :=
    congrArg g hopened.side
  have happly₁ : ctx₁.mediaFilterApply = false := (hside TypeSide.mediaFilterApply).trans h.apply
  have hdrops : ctx₁.drops = false := by
    rw [Ctx.drops, decide_eq_false]
    rw [happly₁]
    exact fun hboth => absurd hboth.2 (by simp)
  obtain ⟨s, hread, hin⟩ := t.read_space
  have hread₁ : ValueRead ctx₁.drops ctx₁.msg t.space.octets t.spaceOut s := by
    rw [hdrops, hopened.msg]
    exact hread
  have hreplace₁ : ctx₁.replaceContentType = false :=
    (hside TypeSide.replaceContentType).trans h.replace
  have hstart : ctx₁.contentType = .type0 := (hside TypeSide.contentType).trans hawaited.state
  -- a fold that shows as CR or LF comes where the type should begin
  have hcloses : ∀ sp c b, t.space.octets = sp ++ c :: b → (∀ d ∈ sp, white d = true) →
      lwspChar c = false → ctx₁.Closes c := by
    intro sp c b hsp _ hc _
    right
    rw [hstart]
    rcases t.space_char (by rw [hsp]; simp : c ∈ t.space.octets) with hspace | rfl | rfl
    · rw [hspace] at hc
      cases hc
    · rw [mimeTypeFeed_type0, if_neg (by decide)]
      simp [MimeTypeState.past]
    · rw [mimeTypeFeed_type0, if_neg (by decide)]
      simp [MimeTypeState.past]
  have hcr : ctx₁.msg = .valueCr → ∃ b, t.space.octets = LF :: b := by
    rw [hopened.msg]
    intro hmsg
    cases hmsg
  obtain ⟨ctx₂, h₂, hclosed⟩ := closing_run env hreplace₁ hread₁ t.space.paired hcr hcloses
  have hrun : mailRun env ctx (t.field.name ++ [COLON] ++ t.space.octets) = .ok ctx₂ := by
    rw [mailRun_append, h₁, ok_bind, h₂]
  have htyped : ctx₂.msgContentTypeFieldDetected = some true := by
    rw [show ctx₂.msgContentTypeFieldDetected = _ from congrArg Prod.snd hclosed.typeName]
    exact hopened.type.mpr t.named
  have happly : ctx₂.mediaFilterApply = false :=
    hclosed.apply.trans happly₁
  have hrfc822 : ctx₂.rfc822Detected = false :=
    hclosed.rfc822Detected.trans ((hside TypeSide.rfc822Detected).trans h.rfc822Detected)
  have hin₂ : InValue t.space.octets ctx₂.msg := by
    rw [hclosed.msg]
    exact hin
  have hvalue : InTypeValue ctx₂ := by
    refine ⟨hset.run hrun, ?_, htyped⟩
    rcases hin₂ with ⟨hmsg, -⟩ | ⟨hmsg, -⟩
    · exact Or.inl hmsg
    · exact Or.inr hmsg
  refine ⟨ctx₂, hrun, hvalue.copying
    ((congrArg Prod.fst hclosed.typeName).trans hopened.typeHeader)
    ((congrArg Prod.fst hclosed.encodingName).trans hopened.encodingHeader), hin₂, happly, hrfc822,
    ?_, ?_, ?_⟩
  · have hmail : ctx₂.mail = ctx.mail.writeAll (t.field.name ++ COLON :: t.spaceOut) := by
      rw [hclosed.mail, hopened.mail, hdrops, ← writeAll_append]
      simp
    exact emitted_of_mail hmail
  · intro hnone
    have hsame := hclosed.same (by rw [hopened.msg]; exact hnone)
    refine ⟨⟨hvalue, happly, Or.inr ⟨rfl, ?_⟩, ?_, ?_, ?_, hrfc822⟩, ?_, ?_⟩
    · rw [hsame]
      exact hstart
    · rw [hsame]
      exact hopened.messageType
    · rw [hsame]
      exact hside TypeSide.messageDetected
    · rw [hsame]
      exact hopened.rfc822
    · rw [hsame]
      exact hstart
    · rw [hsame]
      exact hside TypeSide.mediaTypes
  · intro hsome
    exact hclosed.decided (by rw [hopened.msg]; exact hsome)

/-- **The rest of a value** in which nothing is decided any more. -/
theorem Copying.run (env : FilterEnv) (h : Copying ctx) (hdec : ctx.Decided) {f : HeaderField}
    {bs out : List Byte}
    (hread : ValueRead false ctx.msg bs out (if EndsInSpace f.value then .value else .valueCrlf)) :
    ∃ ctx', mailRun env ctx bs = .ok ctx' ∧ ctx'.emitted = ctx.emitted ++ out ∧
      Behind f ctx.mediaFilterApply ctx' ∧ ctx'.rfc822Detected = ctx.rfc822Detected := by
  rw [← h.drops] at hread
  obtain ⟨ctx', hrun, hmsg, hmail, hund⟩ := hread.run env hdec h.replace
  refine ⟨ctx', hrun, emitted_of_mail hmail, ⟨⟨?_, ?_, ?_, ?_⟩, hund.apply, hmsg⟩,
    hund.rfc822Detected⟩
  · exact (congrArg Prod.fst hund.typeName).trans h.typeHeader
  · exact (congrArg Prod.fst hund.encodingName).trans h.encodingHeader
  · exact hund.replace.trans h.replace
  · right
    rw [hmsg]
    by_cases hends : EndsInSpace f.value
    · rw [if_pos hends]
      exact Or.inr ⟨rfl, hund.decided, hund.drops.trans h.drops⟩
    · rw [if_neg hends]
      exact Or.inl rfl

/-! ## A field that is copied -/

/-- The field is copied. -/
structure FieldCopied (ctx : Ctx) (t : TypeField) (ctx' : Ctx) : Prop extends
    Behind t.field false ctx' where
  emitted : ctx'.emitted = ctx.emitted ++ (t.field.name ++ COLON :: t.field.out false)

/-- The type is looked at: the field is not hidden, and neither is a fold in front of it. -/
def TypeField.Compared (t : TypeField) (ctx : Ctx) : Prop :=
  ctx.msg ≠ .value ∧ NoValue .value t.space.octets

/-- **A type that is not looked at** is copied. -/
theorem TypeField.run_ignored (env : FilterEnv) (h : Unfiltered ctx) (hset : Settled ctx)
    (hawaited : TypeAwaited ctx) (t : TypeField) (hnot : ¬ t.Compared ctx) :
    ∃ ctx', mailRun env ctx t.field.text = .ok ctx' ∧ FieldCopied ctx t ctx' ∧
      ctx'.rfc822Detected = false := by
  by_cases hs : ctx.msg = .value
  · obtain ⟨ctx', hrun, hread⟩ := h.hidden_run env hs t.field
    have hreplaces : ctx.replaces t.field = false := by simp [Ctx.replaces, hs]
    refine ⟨ctx', hrun,
      ⟨⟨hread.ahead fun _ => hreplaces, hread.apply.trans h.apply, hread.msg⟩, ?_⟩,
      hread.rfc822Detected.trans h.rfc822Detected⟩
    have hmail := hread.mail
    rw [hreplaces] at hmail
    exact emitted_of_mail hmail
  · obtain ⟨ctx₂, h₂, hspace⟩ := t.space_run env h hset hawaited hs
    have hdec := hspace.closes fun hnone => hnot ⟨hs, hnone⟩
    have hread := (t.read_mediaType hspace.msg).append t.read_rest
    obtain ⟨ctx', hrun, hem, hbehind, hrfc822⟩ := hspace.toCopying.run env hdec hread
    rw [hspace.apply] at hbehind
    refine ⟨ctx', ?_, ⟨hbehind, ?_⟩, hrfc822.trans hspace.rfc822Detected⟩
    · rw [t.text_eq, mailRun_append, h₂, ok_bind, hrun]
    · rw [hem, hspace.emitted, t.out_eq]
      simp

/-- The verdict on the type and the beginning of a subtype. -/
theorem InType.decides (env : FilterEnv) {flag : Bool} (h : InType ctx [] flag)
    (hstate : ctx.contentType = .type0) (hne : ctx.mediaTypes ≠ []) {x y : List Byte}
    (hx : RestrictedName x) (hy : ∀ c ∈ y, initCharClass .restNameChars c = true) :
    Decides env ctx (x ++ SLASH :: y) (typeListed ctx.mediaTypes none x y) := by
  have hnone : CR ∉ ([] : List Byte) := List.not_mem_nil
  have hdecides := h.toInTypeValue.decides env h.apply hx.first hx.chars hx.ne hy hnone nofun
  rw [List.append_nil, Ctx.listed, hstate] at hdecides
  simp only [if_neg hne] at hdecides
  exact hdecides

/-- No octet behind the subtype belongs to it. -/
theorem TypeField.rest_closes (t : TypeField) (hstate : ctx.contentType = .subtype)
    {sp b : List Byte} {c : Byte} (hsp : t.rest.octets ++ CRLF = sp ++ c :: b)
    (hwhite : ∀ d ∈ sp, white d = true) : ctx.Closes c := by
  have hapart : initCharClass .restNameChars c = false := by
    rcases List.append_eq_append_iff.mp hsp with ⟨x, rfl, hcrlf⟩ | ⟨x, hrest, hcons⟩
    · have hmem : c ∈ CRLF := by simp [hcrlf]
      obtain rfl | rfl : c = CR ∨ c = LF := by simpa [CRLF] using hmem
      · decide
      · decide
    · cases x with
      | nil =>
        have hmem : c ∈ [] ++ CRLF := by simp [← hcons]
        obtain rfl | rfl : c = CR ∨ c = LF := by simpa [CRLF] using hmem
        · decide
        · decide
      | cons d x =>
        obtain ⟨rfl, -⟩ := List.cons.inj hcons
        exact t.rest_apart sp c x hrest hwhite
  intro _
  right
  rw [hstate, mimeTypeFeed_subtype]
  split_ifs with hsemi hname
  · exact ⟨nofun, nofun, nofun⟩
  · rw [hapart] at hname
    cases hname
  · exact ⟨nofun, nofun, nofun⟩

/-- **A type that completes nothing** is copied. -/
theorem TypeField.run_unlisted (env : FilterEnv) (h : Unfiltered ctx) (hset : Settled ctx)
    (hawaited : TypeAwaited ctx) (hne : ctx.mediaTypes ≠ []) (t : TypeField)
    (hcompared : t.Compared ctx)
    (hlisted : typeListed ctx.mediaTypes none t.type t.subtype = .ok false) :
    ∃ ctx', mailRun env ctx t.field.text = .ok ctx' ∧ FieldCopied ctx t ctx' ∧
      ctx'.rfc822Detected = (flagAfter (ascii "message") t.type ctx.messageDetected &&
        SameLetters t.subtype (ascii "rfc822")) := by
  -- the white space in front of the type, the type and the subtype, and what is behind them
  obtain ⟨ctx₂, h₂, hspace⟩ := t.space_run env h hset hawaited hcompared.1
  obtain ⟨htype, hstate, htypes⟩ := hspace.opens hcompared.2
  have hdecides := htype.decides env hstate (by rw [htypes]; exact hne) t.type_restricted
    t.subtype_restricted.chars
  rw [htypes, hlisted] at hdecides
  obtain ⟨ctx₃, h₃⟩ := hdecides.runs.mpr ⟨false, rfl, nofun⟩
  have hmedia : mailRun env ctx₂ t.mediaType = .ok ctx₃ := h₃
  have happly : ctx₃.mediaFilterApply = false := (Except.ok.inj (hdecides.filters ctx₃ h₃)).symm
  obtain ⟨hin, hmsg, htypeName, hencodingName, hmail⟩ :=
    htype.toInTypeValue.unfired htype.apply t.mediaType_unspaced h₃ happly
  have hmsg : ctx₃.msg = .value := hmsg (by simp [TypeField.mediaType])
  have hsub := htype.media_run t.type_restricted t.subtype_restricted.chars h₃ happly
  have hcopying := hin.copying ((congrArg Prod.fst htypeName).trans hspace.typeHeader)
    ((congrArg Prod.fst hencodingName).trans hspace.encodingHeader)
  have hread : ValueRead ctx₃.drops ctx₃.msg (t.rest.octets ++ CRLF) t.restOut
      (if EndsInSpace t.field.value then .value else .valueCrlf) := by
    rw [hcopying.drops, hmsg]
    exact t.read_rest
  have hpaired : Paired (t.rest.octets ++ CRLF) := t.rest.paired.append paired_crlf
  obtain ⟨ctx', hrun, hclosed⟩ := closing_run env hin.replace hread hpaired
    (fun hcr => by rw [hmsg] at hcr; cases hcr)
    fun sp c b hsp hwhite _ => t.rest_closes hsub.contentType hsp hwhite
  refine ⟨ctx', ?_, ⟨⟨⟨?_, ?_, ?_, ?_⟩, hclosed.apply.trans happly, hclosed.msg⟩, ?_⟩,
    hclosed.rfc822Detected.trans hsub.rfc822Detected⟩
  · rw [t.text_eq, mailRun_append, h₂, ok_bind, mailRun_append, hmedia, ok_bind, hrun]
  · exact (congrArg Prod.fst hclosed.typeName).trans hcopying.typeHeader
  · exact (congrArg Prod.fst hclosed.encodingName).trans hcopying.encodingHeader
  · exact hclosed.replace.trans hin.replace
  · right
    rw [hclosed.msg]
    by_cases hends : EndsInSpace t.field.value
    · rw [if_pos hends]
      refine Or.inr ⟨rfl, hclosed.decided (by rw [hmsg]; exact t.rest_value hends), ?_⟩
      rw [Ctx.drops, hclosed.apply, happly, decide_eq_false]
      exact fun hboth => absurd hboth.2 nofun
    · rw [if_neg hends]
      exact Or.inl rfl
  · rw [emitted_of_mail hclosed.mail, emitted_of_mail hmail, hspace.emitted, t.out_eq]
    simp

/-! ## A type that is replaced -/

/-- The octet `c` behind `a` filters the part. -/
structure FiresAt (env : FilterEnv) (ctx : Ctx) (a : List Byte) (c : Byte) (before after : Ctx) :
    Prop extends Copying after where
  unfired : mailRun env ctx a = .ok before ∧ before.mediaFilterApply = false
  fired : mimeMsg env before c = .ok after ∧ after.mediaFilterApply = true
  value : InTypeValue after ∧ after.msg = .value
  replaced : ∃ p w, ctx.emitted ++ a = p ++ SP :: w ∧ SP ∉ w ∧
    after.emitted = p ++ ascii " text/plain"

/-- A part that is filtered by octets of a type is filtered by one of them. -/
theorem InTypeValue.firesAt (h : InTypeValue ctx) (hcopying : Copying ctx)
    (happly : ctx.mediaFilterApply = false) {bs : List Byte} (hbs : Unspaced bs)
    (hrun : mailRun env ctx bs = .ok ctx') (hfired : ctx'.mediaFilterApply = true) :
    ∃ a c b before after, bs = a ++ c :: b ∧ FiresAt env ctx a c before after ∧
      mailRun env after b = .ok ctx' := by
  obtain ⟨a, c, b, ctx₁, ctx₂, rfl, h₁, hno, h₂, hyes, hrun⟩ := h.first_fired happly hbs hrun hfired
  obtain ⟨hc, hcr⟩ := hbs c (by simp)
  obtain ⟨hin, -, htype, hencoding, hmail⟩ :=
    h.unfired happly (fun d hd => hbs d (by simp [hd])) h₁ hno
  obtain ⟨hin', hmsg, htype', hencoding'⟩ := hin.unspaced_octet hc hcr h₂
  refine ⟨a, c, b, ctx₁, ctx₂, rfl, ⟨hin'.copying ?_ ?_, ⟨h₁, hno⟩, ⟨h₂, hyes⟩, ⟨hin', hmsg⟩, ?_⟩,
    hrun⟩
  · exact (congrArg Prod.fst (htype'.trans htype)).trans hcopying.typeHeader
  · exact (congrArg Prod.fst (hencoding'.trans hencoding)).trans hcopying.encodingHeader
  · rcases hin.octet_outcome hno hc hcr h₂ with ⟨happly', -⟩ | ⟨-, p, w, hp, hw, hem⟩
    · rw [hyes] at happly'
      cases happly'
    · refine ⟨p, w, ?_, hw, hem⟩
      rw [← hp, emitted_of_mail hmail]

/-- What is left of the field then is copied. -/
theorem FiresAt.rest_run {a b : List Byte} {c : Byte} {before after : Ctx}
    (h : FiresAt env ctx a c before after) (hmedia : t.mediaType = a ++ c :: b) :
    ∃ ctx', mailRun env after (b ++ (t.rest.octets ++ CRLF)) = .ok ctx' ∧
      ctx'.emitted = after.emitted ++ (b ++ t.restOut) ∧ Behind t.field true ctx' ∧
      ctx'.rfc822Detected = after.rfc822Detected := by
  have hchar (d : Byte) (hd : d = c ∨ d ∈ b) :=
    t.mediaType_unspaced d (by rw [hmedia]; rcases hd with rfl | hd <;> simp [*])
  have hstart : InValue (a ++ [c]) .value := by
    refine Or.inl ⟨rfl, ?_⟩
    rw [endsInSpace_concat, (hchar c (Or.inl rfl)).1]
    exact nofun
  obtain ⟨s, hread, hin⟩ := hstart.read_line false fun hmem => (hchar CR (Or.inr hmem)).2 rfl
  rw [List.append_assoc, List.singleton_append, ← hmedia] at hin
  obtain rfl : s = .value := by
    rcases hin with ⟨hs, -⟩ | ⟨-, hends⟩
    · exact hs
    · exact absurd hends t.mediaType_ends
  have hall : ValueRead false after.msg (b ++ (t.rest.octets ++ CRLF)) (b ++ t.restOut)
      (if EndsInSpace t.field.value then .value else .valueCrlf) := by
    rw [h.value.2]
    exact hread.append t.read_rest
  have hrun := h.toCopying.run env (fun _ => Or.inl h.fired.2) hall
  rw [h.fired.2] at hrun
  exact hrun

/-- **The octet that fires** belongs to the subtype, and completes a type of the list with what
stands in front of it. -/
theorem FiresAt.completes {flag : Bool} {a b : List Byte} {c : Byte} {before after : Ctx}
    (h : FiresAt env ctx a c before after) (htype : InType ctx [] flag)
    (hstate : ctx.contentType = .type0) (hne : ctx.mediaTypes ≠ [])
    (hmedia : t.mediaType = a ++ c :: b) : ∃ y, t.subtype = y ++ c :: b ∧
      typeListed ctx.mediaTypes none t.type y = .ok false ∧
      typeListed ctx.mediaTypes none t.type (y ++ [c]) = .ok true ∧
      after.rfc822Detected = (flagAfter (ascii "message") t.type flag &&
        SameLetters (y ++ [c]) (ascii "rfc822")) := by
  obtain ⟨hrun, hunfired⟩ := h.unfired
  -- neither an octet of the type nor the slash does
  have hwithin {x : List Byte} (hx : t.type = a ++ c :: x) : False := by
    have hchars : ∀ d ∈ a ++ [c], initCharClass .restNameChars d = true := fun d hd =>
      t.type_restricted.chars d (by rw [hx]; simpa [or_assoc] using Or.inl hd)
    have hfirst : ∀ d ∈ (a ++ [c]).head?, initCharClass .restNameFirst d = true := by
      intro d hd
      refine t.type_restricted.first d ?_
      rw [hx]
      cases a <;> exact hd
    have hboth : mailRun env ctx (a ++ [c]) = .ok after := by
      rw [mailRun_append, hrun, ok_bind, mailRun_cons, h.fired.1]
      rfl
    have happly := (htype.run hchars (fun _ => hfirst) hboth).apply
    rw [h.fired.2] at happly
    cases happly
  have hslash (ha : a = t.type) (hc : c = SLASH) : False := by
    rw [ha] at hrun
    have hread := htype.run t.type_restricted.chars (fun _ => t.type_restricted.first) hrun
    rw [List.nil_append] at hread
    have happly := (hread.slash t.type_restricted.ne (by rw [← hc]; exact h.fired.1)).2
    rw [h.fired.2] at happly
    cases happly
  obtain ⟨y, rfl, hsub⟩ : ∃ y, a = t.type ++ SLASH :: y ∧ t.subtype = y ++ c :: b := by
    rcases List.append_eq_append_iff.mp
      (show t.type ++ SLASH :: t.subtype = a ++ c :: b from hmedia)
      with ⟨x, rfl, hx⟩ | ⟨x, hx, hcons⟩
    · cases x with
      | nil => exact (hslash (by simp) (List.cons.inj hx).1.symm).elim
      | cons d y =>
        obtain ⟨rfl, hy⟩ := List.cons.inj hx
        exact ⟨y, rfl, hy⟩
    · cases x with
      | nil => exact (hslash (by rw [hx, List.append_nil]) (List.cons.inj hcons).1).elim
      | cons d x =>
        obtain ⟨rfl, -⟩ := List.cons.inj hcons
        exact (hwithin hx).elim
  have hchars : ∀ d ∈ y ++ [c], initCharClass .restNameChars d = true := fun d hd =>
    t.subtype_restricted.chars d (by rw [hsub]; simpa [or_assoc] using Or.inl hd)
  have hchars' : ∀ d ∈ y, initCharClass .restNameChars d = true := fun d hd =>
    hchars d (List.mem_append_left _ hd)
  have hread := htype.media_run t.type_restricted hchars' hrun hunfired
  have hlast := hread.octet hunfired (hchars c (by simp)) h.fired.1
  have hboth : mailRun env ctx (t.type ++ SLASH :: (y ++ [c])) = .ok after := by
    rw [← List.cons_append, ← List.append_assoc, mailRun_append, hrun, ok_bind, mailRun_cons,
      h.fired.1]
    rfl
  refine ⟨y, hsub, ?_, ?_, hlast.rfc822Detected⟩
  · rw [(htype.decides env hstate hne t.type_restricted hchars').filters before hrun, hunfired]
  · rw [(htype.decides env hstate hne t.type_restricted hchars).filters after hboth, h.fired.2]

/-- The type is replaced, and `b` is left of it. -/
structure Retyped (ctx : Ctx) (t : TypeField) (b : List Byte) (ctx' : Ctx) : Prop extends
    Behind t.field true ctx' where
  replaced : ∃ a c p w, t.mediaType = a ++ c :: b ∧ SP ∉ w ∧
    ctx.emitted ++ t.field.name ++ COLON :: (t.spaceOut ++ a) = p ++ SP :: w ∧
    ctx'.emitted = p ++ SP :: (ascii "text/plain" ++ (b ++ t.restOut))

/-- **A type that completes one of the list** is replaced, from the last space on. -/
theorem TypeField.run_listed (env : FilterEnv) (h : Unfiltered ctx) (hset : Settled ctx)
    (hawaited : TypeAwaited ctx) (hne : ctx.mediaTypes ≠ []) (t : TypeField)
    (hcompared : t.Compared ctx)
    (hlisted : typeListed ctx.mediaTypes none t.type t.subtype = .ok true) :
    (SP ∈ t.spaceOut → ∃ ctx', mailRun env ctx t.field.text = .ok ctx') ∧
      ∀ ctx', mailRun env ctx t.field.text = .ok ctx' → ∃ y c b, t.subtype = y ++ c :: b ∧
        Retyped ctx t b ctx' ∧
        typeListed ctx.mediaTypes none t.type y = .ok false ∧
        typeListed ctx.mediaTypes none t.type (y ++ [c]) = .ok true ∧
        ctx'.rfc822Detected = (flagAfter (ascii "message") t.type ctx.messageDetected &&
          SameLetters (y ++ [c]) (ascii "rfc822")) := by
  obtain ⟨ctx₂, h₂, hspace⟩ := t.space_run env h hset hawaited hcompared.1
  obtain ⟨htype, hstate, htypes⟩ := hspace.opens hcompared.2
  have hne₂ : ctx₂.mediaTypes ≠ [] := by
    rw [htypes]
    exact hne
  have hdecides := htype.decides env hstate hne₂ t.type_restricted t.subtype_restricted.chars
  rw [htypes, hlisted] at hdecides
  -- the type is read, and the rest of the field from the octet on that fires
  have hmedia_run {ctx₃ : Ctx} (h₃ : mailRun env ctx₂ t.mediaType = .ok ctx₃) :
      ∃ ctx', mailRun env ctx t.field.text = .ok ctx' ∧ ∃ y c b, t.subtype = y ++ c :: b ∧
        Retyped ctx t b ctx' ∧
        typeListed ctx.mediaTypes none t.type y = .ok false ∧
        typeListed ctx.mediaTypes none t.type (y ++ [c]) = .ok true ∧
        ctx'.rfc822Detected = (flagAfter (ascii "message") t.type ctx.messageDetected &&
          SameLetters (y ++ [c]) (ascii "rfc822")) := by
    have hfired : ctx₃.mediaFilterApply = true := (Except.ok.inj (hdecides.filters ctx₃ h₃)).symm
    obtain ⟨a, c, b, before, after, hmedia, hfires, hrest⟩ :=
      htype.toInTypeValue.firesAt hspace.toCopying htype.apply t.mediaType_unspaced h₃ hfired
    obtain ⟨ctx', hrun, hem, hbehind, hrfc822⟩ := hfires.rest_run hmedia
    obtain ⟨p, w, hp, hw, hafter⟩ := hfires.replaced
    obtain ⟨y, hsub, hbefore, hwith, hflag⟩ := hfires.completes htype hstate hne₂ hmedia
    rw [htypes] at hbefore hwith
    refine ⟨ctx', ?_, y, c, b, hsub, ⟨hbehind, a, c, p, w, hmedia, hw, ?_, ?_⟩, hbefore, hwith,
      hrfc822.trans hflag⟩
    · rw [t.text_eq, mailRun_append, h₂, ok_bind, hmedia, List.append_assoc, mailRun_append,
        hfires.unfired.1, ok_bind, List.cons_append, mailRun_cons, hfires.fired.1, ok_bind, hrun]
    · rw [← hp, hspace.emitted]
      simp
    · rw [hem, hafter]
      simp [ascii]
  constructor
  · intro hsp
    have hleft : SP ∈ ctx₂.mail.left := by
      have hmem : SP ∈ ctx₂.emitted := by
        rw [hspace.emitted]
        simp [hsp]
      simpa [Ctx.emitted, Tape.written] using hmem
    obtain ⟨ctx₃, h₃⟩ := hdecides.runs.mpr ⟨true, rfl, fun _ => hleft⟩
    obtain ⟨ctx', hrun, -⟩ := hmedia_run h₃
    exact ⟨ctx', hrun⟩
  · intro ctx' hrun
    have hsplit := hrun
    rw [t.text_eq, mailRun_append, h₂, ok_bind, mailRun_append] at hsplit
    obtain ⟨ctx₃, h₃, -⟩ := bind_eq_ok.mp hsplit
    obtain ⟨ctx'', hrun', hb⟩ := hmedia_run h₃
    obtain rfl := Except.ok.inj (hrun'.symm.trans hrun)
    exact hb

/-- A list that cannot be compared with the type. -/
theorem TypeField.run_crash (env : FilterEnv) (h : Unfiltered ctx) (hset : Settled ctx)
    (hawaited : TypeAwaited ctx) (hne : ctx.mediaTypes ≠ []) (t : TypeField)
    (hcompared : t.Compared ctx)
    (hlisted : ∀ b, typeListed ctx.mediaTypes none t.type t.subtype ≠ .ok b) (ctx' : Ctx) :
    mailRun env ctx t.field.text ≠ .ok ctx' := by
  obtain ⟨ctx₂, h₂, hspace⟩ := t.space_run env h hset hawaited hcompared.1
  obtain ⟨htype, hstate, htypes⟩ := hspace.opens hcompared.2
  have hdecides := htype.decides env hstate (by rw [htypes]; exact hne) t.type_restricted
    t.subtype_restricted.chars
  intro hrun
  rw [t.text_eq, mailRun_append, h₂, ok_bind, mailRun_append] at hrun
  obtain ⟨ctx₃, h₃, -⟩ := bind_eq_ok.mp hrun
  obtain ⟨b, hb, -⟩ := hdecides.runs.mp ⟨ctx₃, h₃⟩
  rw [htypes] at hb
  exact hlisted b hb

/-! ## When the field comes out with `text/plain` -/

/-- The field is looked at, and a type of the list is completed in it. -/
def TypeField.Filters (t : TypeField) (ts : List TypeList) (seen : Prop) : Prop :=
  seen ∧ t.space.lines = [] ∧ Triggers ts t.type t.subtype

/-- The last octet of the type is the one that completes it, and the last space is right in
front of the type; or nothing is completed, and the type is `text/plain` as it stands. -/
structure TypeField.Retypes (t : TypeField) (ts : List TypeList) (seen : Prop) : Prop where
  space : Seamless t.space.line t.space.lines
  rest : Seamless (t.mediaType ++ t.rest.line) t.rest.lines
  returns : seen → t.space.lines = [] → WildcardFirst ts t.type
  replaced : t.Filters ts seen → ¬ Triggers ts t.type t.subtype.dropLast ∧
    t.space.line.getLast? = some SP
  plain : ¬ t.Filters ts seen → t.mediaType = ascii "text/plain"

/-- The field is written with its type replaced. -/
def TypeField.RetypedBy (env : FilterEnv) (ctx : Ctx) (t : TypeField) (ctx' : Ctx) : Prop :=
  mailRun env ctx t.field.text = .ok ctx' ∧
    ctx'.emitted = ctx.emitted ++ (t.field.name ++ COLON :: t.retyped)

/-- Without a fold that is seen, the type is looked at when nothing is in front of it. -/
theorem TypeField.compared_iff (hseam : Seamless t.space.line t.space.lines) :
    t.Compared ctx ↔ ctx.msg ≠ .value ∧ t.space.lines = [] := by
  refine and_congr_right fun _ => ⟨fun hnone => ?_, t.noValue_of_unfolded⟩
  rcases t.noValue_lines hnone with hlines | hline
  · exact hlines
  · exact (t.space_seamless_iff.mp hseam).resolve_left fun hne => hne hline

/-- A field that is copied comes out with `text/plain` when that is its type and its folds are
seamless. -/
theorem FieldCopied.retyped_iff (h : FieldCopied ctx t ctx') :
    ctx'.emitted = ctx.emitted ++ (t.field.name ++ COLON :: t.retyped) ↔
      Seamless t.space.line t.space.lines ∧ t.mediaType = ascii "text/plain" ∧
        Seamless (t.mediaType ++ t.rest.line) t.rest.lines := by
  rw [h.emitted, List.append_cancel_left_eq, List.append_cancel_left_eq, List.cons.injEq,
    and_iff_right rfl]
  exact t.copied_retyped

/-- A type that is replaced comes out so when nothing is left of it and the space is right before
it. -/
theorem Retyped.retyped_iff {b : List Byte} (h : Retyped ctx t b ctx')
    (hnone : t.space.lines = [] ∨ t.space.line = []) :
    ctx'.emitted = ctx.emitted ++ (t.field.name ++ COLON :: t.retyped) ↔
      t.Spaced ∧ b = [] ∧ Seamless (t.mediaType ++ t.rest.line) t.rest.lines := by
  obtain ⟨a, c, p, w, hmedia, hw, hp, hem⟩ := h.replaced
  rw [hem, ← List.append_assoc ctx.emitted]
  by_cases hsp : SP ∈ t.spaceOut
  · have hiff :=
      @TypeField.replaced_space t (ctx.emitted ++ t.field.name ++ [COLON]) p w a b c hnone
      hmedia hsp hw (by rw [← hp]; simp)
    rw [← hiff, List.append_assoc _ [COLON]]
    rfl
  · refine iff_of_false (t.replaced_lost hmedia hsp hp) fun hboth => hsp ?_
    have hmem : SP ∈ t.space.line := List.mem_of_getLast? hboth.1.2
    exact List.mem_append_left _ hmem

/-- The subtype of `text/plain`. -/
theorem TypeField.plain_subtype (h : t.mediaType = ascii "text/plain") :
    t.subtype = ascii "plain" := by
  have hslash : SLASH ∉ t.type := fun hmem =>
    absurd (t.type_restricted.chars SLASH hmem) (by decide)
  have hslash' : SLASH ∉ t.subtype := fun hmem =>
    absurd (t.subtype_restricted.chars SLASH hmem) (by decide)
  have hsplit : t.type ++ SLASH :: t.subtype = ascii "text" ++ SLASH :: ascii "plain" := h
  exact ((List.append_cons_inj_of_notMem hslash hslash').mp hsplit).2.2

/-- **A field that completes nothing** is copied. -/
theorem TypeField.run_copied (env : FilterEnv) (h : Unfiltered ctx) (hset : Settled ctx)
    (hawaited : TypeAwaited ctx) (hne : ctx.mediaTypes ≠ []) (t : TypeField)
    (hquiet : t.Compared ctx →
      WildcardFirst ctx.mediaTypes t.type ∧ ¬ Triggers ctx.mediaTypes t.type t.subtype) :
    ∃ ctx', mailRun env ctx t.field.text = .ok ctx' ∧ FieldCopied ctx t ctx' ∧
      (t.mediaType = ascii "text/plain" → ctx'.rfc822Detected = false) := by
  by_cases hcompared : t.Compared ctx
  · obtain ⟨hfirst, hnot⟩ := hquiet hcompared
    obtain ⟨hreturns, hverdict⟩ :=
      typeListed_triggers hawaited.types t.type_restricted t.subtype_restricted.chars
    obtain ⟨b, hb⟩ := hreturns.mpr fun _ => hfirst
    have hfalse : b = false := by
      by_contra htrue
      exact hnot ((hverdict b hb).mp (by simpa using htrue))
    rw [hfalse] at hb
    obtain ⟨ctx', hrun, hcopied, hrfc822⟩ := t.run_unlisted env h hset hawaited hne hcompared hb
    refine ⟨ctx', hrun, hcopied, fun hplain => ?_⟩
    -- the subtype of text/plain is not that of a message
    have hother : ¬ SameLetters (ascii "plain") (ascii "rfc822") := by decide
    rw [hrfc822, TypeField.plain_subtype hplain, decide_eq_false hother, Bool.and_false]
  · obtain ⟨ctx', hrun, hcopied, hrfc822⟩ := t.run_ignored env h hset hawaited hcompared
    exact ⟨ctx', hrun, hcopied, fun _ => hrfc822⟩

/-- **A wildcard in the wrong place** crashes the filter. -/
theorem TypeField.run_lost (env : FilterEnv) (h : Unfiltered ctx) (hset : Settled ctx)
    (hawaited : TypeAwaited ctx) (hne : ctx.mediaTypes ≠ []) (t : TypeField)
    (hcompared : t.Compared ctx) (hfirst : ¬ WildcardFirst ctx.mediaTypes t.type) (ctx' : Ctx) :
    mailRun env ctx t.field.text ≠ .ok ctx' := by
  obtain ⟨hreturns, -⟩ :=
    typeListed_triggers hawaited.types t.type_restricted t.subtype_restricted.chars
  refine t.run_crash env h hset hawaited hne hcompared (fun b hb => ?_) ctx'
  exact hfirst (hreturns.mp ⟨b, hb⟩ t.subtype_restricted.ne)

/-- **A field that completes a type of the list** has its own replaced. -/
theorem TypeField.run_replaced (env : FilterEnv) (h : Unfiltered ctx) (hset : Settled ctx)
    (hawaited : TypeAwaited ctx) (hne : ctx.mediaTypes ≠ []) (t : TypeField)
    (hcompared : t.Compared ctx) (hfirst : WildcardFirst ctx.mediaTypes t.type)
    (htriggers : Triggers ctx.mediaTypes t.type t.subtype) :
    (SP ∈ t.spaceOut → ∃ ctx', mailRun env ctx t.field.text = .ok ctx') ∧
      ∀ ctx', mailRun env ctx t.field.text = .ok ctx' → ∃ y b, t.subtype = y ++ b ∧
        Retyped ctx t b ctx' ∧ CompletedBy ctx.mediaTypes t.type y ∧
        ctx'.rfc822Detected = (flagAfter (ascii "message") t.type ctx.messageDetected &&
          SameLetters y (ascii "rfc822")) := by
  obtain ⟨hreturns, hverdict⟩ :=
    typeListed_triggers hawaited.types t.type_restricted t.subtype_restricted.chars
  obtain ⟨b, hb⟩ := hreturns.mpr fun _ => hfirst
  rw [(hverdict b hb).mpr htriggers] at hb
  obtain ⟨hruns, hretyped⟩ := t.run_listed env h hset hawaited hne hcompared hb
  refine ⟨hruns, fun ctx' hrun => ?_⟩
  obtain ⟨y, c, b, hsub, hretyped, hbefore, hwith, hrfc822⟩ := hretyped ctx' hrun
  have hchars : ∀ d ∈ y ++ [c], initCharClass .restNameChars d = true := fun d hd =>
    t.subtype_restricted.chars d (by rw [hsub]; simpa [or_assoc] using Or.inl hd)
  refine ⟨y ++ [c], b, by rw [hsub, List.append_cons], hretyped, ⟨?_, ?_⟩, hrfc822⟩
  · exact ((typeListed_triggers hawaited.types t.type_restricted hchars).2 true hwith).mp rfl
  · rw [List.dropLast_concat]
    intro hbegun
    have hno := (typeListed_triggers hawaited.types t.type_restricted fun d hd =>
      hchars d (List.mem_append_left _ hd)).2 false hbefore
    exact absurd (hno.mpr hbegun) (by simp)

/-- What the context is behind the field. -/
structure TypeDecided (ctx : Ctx) (t : TypeField) (ctx' : Ctx) : Prop where
  filtered : t.Filters ctx.mediaTypes (ctx.msg ≠ .value) → Behind t.field true ctx' ∧
    ctx'.rfc822Detected = (flagAfter (ascii "message") t.type ctx.messageDetected &&
      SameLetters t.subtype (ascii "rfc822"))
  unfiltered : ¬ t.Filters ctx.mediaTypes (ctx.msg ≠ .value) → Behind t.field false ctx' ∧
    ctx'.rfc822Detected = false

/-- A type that is completed has been looked at. -/
theorem TypeField.Filters.compared (h : t.Filters ctx.mediaTypes (ctx.msg ≠ .value)) :
    t.Compared ctx := ⟨h.1, t.noValue_of_unfolded h.2.1⟩

/-- A field that is copied is `text/plain`, or it is not the one that is asked for. -/
theorem TypeField.retypedBy_copied (env : FilterEnv) (h : Unfiltered ctx) (hset : Settled ctx)
    (hawaited : TypeAwaited ctx) (hne : ctx.mediaTypes ≠ []) (t : TypeField)
    (hquiet : t.Compared ctx →
      WildcardFirst ctx.mediaTypes t.type ∧ ¬ Triggers ctx.mediaTypes t.type t.subtype) :
    ((∃ ctx', t.RetypedBy env ctx ctx') ↔ t.Retypes ctx.mediaTypes (ctx.msg ≠ .value)) ∧
      ∀ ctx', t.RetypedBy env ctx ctx' → TypeDecided ctx t ctx' := by
  have hnot : ¬ t.Filters ctx.mediaTypes (ctx.msg ≠ .value) := fun hfilters =>
    (hquiet hfilters.compared).2 hfilters.2.2
  obtain ⟨ctx₁, hrun₁, hcopied, hrfc822⟩ := t.run_copied env h hset hawaited hne hquiet
  refine ⟨⟨?_, fun hretypes => ?_⟩, ?_⟩
  · rintro ⟨ctx', hrun, hem⟩
    obtain rfl := Except.ok.inj (hrun₁.symm.trans hrun)
    obtain ⟨hspace, hplain, hrest⟩ := hcopied.retyped_iff.mp hem
    exact ⟨hspace, hrest, fun hseen hlines => (hquiet ⟨hseen, t.noValue_of_unfolded hlines⟩).1,
      fun hfilters => absurd hfilters hnot, fun _ => hplain⟩
  · exact ⟨ctx₁, hrun₁,
      hcopied.retyped_iff.mpr ⟨hretypes.space, hretypes.plain hnot, hretypes.rest⟩⟩
  · rintro ctx' ⟨hrun, hem⟩
    obtain rfl := Except.ok.inj (hrun₁.symm.trans hrun)
    obtain ⟨-, hplain, -⟩ := hcopied.retyped_iff.mp hem
    exact ⟨fun hfilters => absurd hfilters hnot, fun _ => ⟨hcopied.toBehind, hrfc822 hplain⟩⟩

/-- **The field comes out with `text/plain`** exactly when the list completes its type with the
last octet, or leaves it alone and it is `text/plain`. -/
theorem TypeField.retypedBy_iff (env : FilterEnv) (h : Unfiltered ctx) (hset : Settled ctx)
    (hawaited : TypeAwaited ctx) (hne : ctx.mediaTypes ≠ []) (t : TypeField) :
    ((∃ ctx', t.RetypedBy env ctx ctx') ↔ t.Retypes ctx.mediaTypes (ctx.msg ≠ .value)) ∧
      ∀ ctx', t.RetypedBy env ctx ctx' → TypeDecided ctx t ctx' := by
  by_cases hcompared : t.Compared ctx
  · by_cases hfirst : WildcardFirst ctx.mediaTypes t.type
    · by_cases htriggers : Triggers ctx.mediaTypes t.type t.subtype
      · obtain ⟨hruns, hretyped⟩ :=
          t.run_replaced env h hset hawaited hne hcompared hfirst htriggers
        have hnone := t.noValue_lines hcompared.2
        refine ⟨⟨?_, fun hretypes => ?_⟩, ?_⟩
        · rintro ⟨ctx', hrun, hem⟩
          obtain ⟨y, b, hsub, hb, hdone, -⟩ := hretyped ctx' hrun
          obtain ⟨hspaced, hnil, hrest⟩ := (hb.retyped_iff hnone).mp hem
          refine ⟨t.space_seamless (Or.inr hspaced.1), hrest, fun _ _ => hfirst,
            fun _ => ⟨?_, hspaced.2⟩,
            fun hnot => absurd ⟨hcompared.1, hspaced.1, htriggers⟩ hnot⟩
          rw [hsub]
          exact hdone.last_iff.mp hnil
        · have hlines := ((TypeField.compared_iff hretypes.space).mp hcompared).2
          obtain ⟨hlast, hsp⟩ := hretypes.replaced ⟨hcompared.1, hlines, htriggers⟩
          have hmem : SP ∈ t.spaceOut := List.mem_append_left _ (List.mem_of_getLast? hsp)
          obtain ⟨ctx', hrun⟩ := hruns hmem
          obtain ⟨y, b, hsub, hb, hdone, -⟩ := hretyped ctx' hrun
          rw [hsub] at hlast
          exact ⟨ctx', hrun, (hb.retyped_iff hnone).mpr
            ⟨⟨hlines, hsp⟩, hdone.last_iff.mpr hlast, hretypes.rest⟩⟩
        · rintro ctx' ⟨hrun, hem⟩
          obtain ⟨y, b, hsub, hb, -, hrfc822⟩ := hretyped ctx' hrun
          obtain ⟨hspaced, rfl, -⟩ := (hb.retyped_iff hnone).mp hem
          rw [List.append_nil] at hsub
          rw [← hsub] at hrfc822
          exact ⟨fun _ => ⟨hb.toBehind, hrfc822⟩,
            fun hnot => absurd ⟨hcompared.1, hspaced.1, htriggers⟩ hnot⟩
      · exact t.retypedBy_copied env h hset hawaited hne fun _ => ⟨hfirst, htriggers⟩
    · have hlost := t.run_lost env h hset hawaited hne hcompared hfirst
      refine ⟨iff_of_false ?_ ?_, fun ctx' hboth => absurd hboth.1 (hlost ctx')⟩
      · rintro ⟨ctx', hrun, -⟩
        exact hlost ctx' hrun
      · intro hretypes
        obtain ⟨hseen, hlines⟩ := (TypeField.compared_iff hretypes.space).mp hcompared
        exact hfirst (hretypes.returns hseen hlines)
  · exact t.retypedBy_copied env h hset hawaited hne fun hyes => absurd hyes hcompared

end

end Pop3Proxy
