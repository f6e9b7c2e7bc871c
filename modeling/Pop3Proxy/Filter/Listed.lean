/-
# What the list of types says of a value

A type and a subtype are compared with the list octet by octet.  The value of the
field goes through, or an entry is completed and the type is replaced, or the list
leads the comparison astray and the filter crashes.
-/
import Pop3Proxy.Filter.Reached

namespace Pop3Proxy

/-! ## The verdict of the list -/

/-- Does a subtype begin with one of these? -/
def subtypeListed (ss : List Subtype) : List Byte → Except FilterFault Bool
  | [] => .ok false
  | c :: subtype => feedSubtypes c ss >>= fun r =>
    if r.2 = some .eq then .ok true else subtypeListed r.1 subtype

/-- The subtypes of the type at a place of the list. -/
def subtypesAt (ts : List TypeList) (i : Option ℕ) : List Subtype :=
  ((i.bind fun i => ts[i]?).map (·.subtypes)).getD []

/-- Is a type in the list, and does the subtype begin with one of its?  The last octet
of the type decides which type is meant. -/
def typeListed (ts : List TypeList) (found : Option ℕ) :
    List Byte → List Byte → Except FilterFault Bool
  | [], subtype => if found.isSome then subtypeListed (subtypesAt ts found) subtype else .ok false
  | c :: type, subtype => typeListed (feedTypes c ts).1 (feedTypes c ts).2 type subtype

/-- The verdict on a value that begins with a type and a subtype, when the parser of
content types may not be at its start. -/
def Ctx.listed (ctx : Ctx) (type subtype : List Byte) : Except FilterFault Bool :=
  match ctx.contentType with
  | .type0 | .type =>
    if ctx.mediaTypes = [] then .error .uninitialised else typeListed ctx.mediaTypes none type
      subtype
  | .subtype =>
    if ctx.mediaTypeFilterDetected then subtypeListed
      (subtypesAt ctx.mediaTypes ctx.mediaSubtypes) type
    else .ok false
  | .parameter | .delimiterStart | .delimiter | .delimiterEnd | .error => .ok false

/-! ## An octet of the value -/

/-- The value of a `Content-Type` field is being read. -/
structure InTypeValue (ctx : Ctx) : Prop extends Settled ctx where
  state : ctx.msg = .value ∨ ctx.msg = .fold
  typed : ctx.msgContentTypeFieldDetected = some true

section
variable {env : FilterEnv} {ctx ctx' : Ctx} {c : Byte} {bs : List Byte}

/-- White space is copied. -/
theorem InTypeValue.space (h : InTypeValue ctx) (hc : lwspChar c = true) :
    mimeMsg env ctx c = .ok ({ ctx with msg := .fold }.emit c) := by
  have hfeed : mimeMsgFeed ctx.msg c = (.fold, [MimeMsg.valueFold c]) := by
    rcases h.state with hs | hs
    · rw [hs, mimeMsgFeed_value, if_pos hc]
    · rw [hs, mimeMsgFeed_fold, if_pos hc]
  rw [mimeMsg_single hfeed]
  rfl

/-- Every other octet belongs to the value. -/
theorem InTypeValue.octet (h : InTypeValue ctx) (hc : lwspChar c = false) (hcr : c ≠ CR) :
    mimeMsg env ctx c = msgValue env { ctx with msg := .value } (MimeMsg.value c) := by
  have hfeed : mimeMsgFeed ctx.msg c = (.value, [MimeMsg.value c]) := by
    rcases h.state with hs | hs
    · rw [hs, mimeMsgFeed_value, if_neg (by simp [hc]), if_neg hcr]
    · rw [hs, mimeMsgFeed_fold, if_neg (by simp [hc])]
  rw [mimeMsg_single hfeed]
  rfl

/-- No field has two names. -/
theorem InTypeValue.encoded (h : InTypeValue ctx) :
    ctx.msgContentTransferEncodingFieldDetected ≠ some true := h.apart h.typed

/-- Once a part is filtered its content type is not looked at any more. -/
theorem InTypeValue.filtered (h : InTypeValue ctx) (happly : ctx.mediaFilterApply = true)
    (hc : lwspChar c = false) (hcr : c ≠ CR) :
    mimeMsg env ctx c = .ok ({ ctx with msg := .value }.emit c) := by
  rw [h.octet hc hcr, msgValue, if_neg (by simp [happly]), ok_bind]
  show (if _ then _ else _) = _
  rw [if_neg fun hd => h.encoded hd.1, writeValue, if_neg (by simp [h.replace])]
  rfl

/-- Before that, it is. -/
theorem InTypeValue.parsed (h : InTypeValue ctx) (happly : ctx.mediaFilterApply = false)
    (hc : lwspChar c = false) (hcr : c ≠ CR) : mimeMsg env ctx c =
      contentTypeMsg env { ctx with msg := .value } c >>= fun ctx => writeValue ctx c := by
  rw [h.octet hc hcr, msgValue, if_pos ⟨h.typed, by simp [happly]⟩]
  simp only [MimeMsg.value, List.take, List.foldlM_cons, List.foldlM_nil]
  cases hres : contentTypeMsg env { ctx with msg := .value } c with
  | error f => rfl
  | ok ctx₁ =>
    obtain ⟨-, hsurr⟩ := contentTypeMsg_watcher hres
    have hencoded : ctx₁.msgContentTransferEncodingFieldDetected ≠ some true := by
      rw [show ctx₁.msgContentTransferEncodingFieldDetected = _ from
        congrArg Surroundings.msgContentTransferEncodingFieldDetected hsurr]
      exact h.encoded
    show (if _ then _ else _) = _
    rw [if_neg fun hd => hencoded hd.1]
    rfl

/-- **An octet of the value** is a step of the watcher, unless it is white space or the
part is filtered. -/
theorem InTypeValue.step (h : InTypeValue ctx) (hcr : c ≠ CR)
    (hres : mimeMsg env ctx c = .ok ctx') :
    InTypeValue ctx' ∧ ctx'.watcher =
      if lwspChar c = true ∨ ctx.mediaFilterApply = true then ctx.watcher
      else ctx.watcher.step env c := by
  have hsettled := h.toSettled.octet hres
  by_cases hc : lwspChar c = true
  · rw [h.space hc] at hres
    obtain rfl := Except.ok.inj hres
    rw [if_pos (.inl hc)]
    exact ⟨⟨hsettled, .inr rfl, h.typed⟩, rfl⟩
  have hc' : lwspChar c = false := by simpa using hc
  by_cases happly : ctx.mediaFilterApply = true
  · rw [h.filtered happly hc' hcr] at hres
    obtain rfl := Except.ok.inj hres
    rw [if_pos (.inr happly)]
    exact ⟨⟨hsettled, .inl rfl, h.typed⟩, rfl⟩
  · rw [h.parsed (by simpa using happly) hc' hcr] at hres
    obtain ⟨ctx₁, h₁, hres⟩ := bind_eq_ok.mp hres
    obtain ⟨hwatch, hsurr⟩ := contentTypeMsg_watcher h₁
    rw [if_neg (by simp [hc, happly])]
    have heq := writeValue_eq hres
    refine ⟨⟨hsettled, .inl ?_, ?_⟩, ?_⟩
    · rw [heq]
      exact congrArg Surroundings.msg hsurr
    · rw [heq]
      exact (congrArg Surroundings.msgContentTypeFieldDetected hsurr).trans h.typed
    · rw [heq]
      exact hwatch

/-! ## Octets and their verdict -/

/-- The verdict on octets: the run comes to an end when there is one and there is room
for the replacement, and then the part is filtered or not as it says. -/
structure Decides (env : FilterEnv) (ctx : Ctx) (bs : List Byte) (r : Except FilterFault Bool) :
    Prop where
  runs : (∃ ctx', mailRun env ctx bs = .ok ctx') ↔
    ∃ b, r = .ok b ∧ (b = true → SP ∈ ctx.mail.left)
  filters : ∀ ctx', mailRun env ctx bs = .ok ctx' → r = .ok ctx'.mediaFilterApply

/-- The first octet of a mail, and the rest. -/
theorem mailRun_cons (env : FilterEnv) (ctx : Ctx) (c : Byte) (bs : List Byte) :
    mailRun env ctx (c :: bs) = mimeMsg env ctx c >>= fun ctx => mailRun env ctx bs :=
  List.foldlM_cons

/-- An octet that decides nothing. -/
theorem Decides.cons {ctx₁ : Ctx} {r : Except FilterFault Bool} (h₁ : mimeMsg env ctx c = .ok ctx₁)
    (hleft : SP ∈ ctx₁.mail.left ↔ SP ∈ ctx.mail.left) (h : Decides env ctx₁ bs r) :
    Decides env ctx (c :: bs) r := by
  have hrun : mailRun env ctx (c :: bs) = mailRun env ctx₁ bs := by
    rw [mailRun_cons, h₁, ok_bind]
  constructor
  · rw [hrun, ← hleft]
    exact h.runs
  · rw [hrun]
    exact h.filters

/-- An octet at which the filter crashes. -/
theorem Decides.crash {f : FilterFault} (h : ∀ ctx', mimeMsg env ctx c ≠ .ok ctx') :
    Decides env ctx (c :: bs) (.error f) := by
  have hrun : ∀ ctx', mailRun env ctx (c :: bs) ≠ .ok ctx' := by
    intro ctx' hres
    rw [mailRun_cons] at hres
    obtain ⟨ctx₁, h₁, -⟩ := bind_eq_ok.mp hres
    exact h ctx₁ h₁
  constructor
  · exact iff_of_false (fun ⟨ctx', hres⟩ => hrun ctx' hres) nofun
  · exact fun ctx' hres => absurd hres (hrun ctx')

/-- Octets that decide nothing. -/
theorem Decides.undecided
    (h : ∃ ctx', mailRun env ctx bs = .ok ctx' ∧ ctx'.mediaFilterApply = false) :
    Decides env ctx bs (.ok false) := by
  obtain ⟨ctx', hrun, happly⟩ := h
  constructor
  · exact iff_of_true ⟨ctx', hrun⟩ ⟨false, rfl, nofun⟩
  · intro ctx₁ hres
    obtain rfl := Except.ok.inj (hrun.symm.trans hres)
    rw [happly]

/-- A filtered part is only copied. -/
theorem InTypeValue.copies (env : FilterEnv) (h : InTypeValue ctx)
    (happly : ctx.mediaFilterApply = true)
    (hcr : c ≠ CR) : ∃ ctx₁, mimeMsg env ctx c = .ok ctx₁ ∧ ctx₁.mediaFilterApply = true := by
  by_cases hc : lwspChar c = true
  · exact ⟨_, h.space hc, happly⟩
  · exact ⟨_, h.filtered happly (by simpa using hc) hcr, happly⟩

/-- The rest of the value of a part that is filtered is copied. -/
theorem InTypeValue.copied (env : FilterEnv) (h : InTypeValue ctx)
    (happly : ctx.mediaFilterApply = true)
    (hbs : CR ∉ bs) : ∃ ctx', mailRun env ctx bs = .ok ctx' ∧ ctx'.mediaFilterApply = true ∧
      ctx'.watcher = ctx.watcher := by
  induction bs generalizing ctx with
  | nil => exact ⟨ctx, rfl, happly, rfl⟩
  | cons c bs ih =>
    simp only [List.mem_cons, not_or] at hbs
    obtain ⟨ctx₁, h₁, happly₁⟩ := h.copies env happly (Ne.symm hbs.1)
    obtain ⟨hin, hwatch⟩ := h.step (Ne.symm hbs.1) h₁
    rw [if_pos (.inr happly)] at hwatch
    obtain ⟨ctx', hrun, happly', hwatch'⟩ := ih hin happly₁ hbs.2
    refine ⟨ctx', ?_, happly', hwatch'.trans hwatch⟩
    rw [mailRun_cons, h₁, ok_bind, hrun]

/-- The octet that completes an entry. -/
theorem Decides.completed (hcr : c ≠ CR) (hbs : CR ∉ bs) (h : InTypeValue ctx)
    (hin : SP ∈ ctx.mail.left → ∃ ctx₁, mimeMsg env ctx c = .ok ctx₁ ∧ ctx₁.mediaFilterApply = true)
    (hout : SP ∉ ctx.mail.left → ∀ ctx', mimeMsg env ctx c ≠ .ok ctx') :
    Decides env ctx (c :: bs) (.ok true) := by
  have hspace : ∀ ctx', mailRun env ctx (c :: bs) = .ok ctx' → SP ∈ ctx.mail.left := by
    intro ctx' hres
    rw [mailRun_cons] at hres
    obtain ⟨ctx₁, h₁, -⟩ := bind_eq_ok.mp hres
    by_contra hsp
    exact hout hsp ctx₁ h₁
  have hrun : SP ∈ ctx.mail.left →
      ∃ ctx', mailRun env ctx (c :: bs) = .ok ctx' ∧ ctx'.mediaFilterApply = true := by
    intro hsp
    obtain ⟨ctx₁, h₁, happly⟩ := hin hsp
    obtain ⟨hin', -⟩ := h.step hcr h₁
    obtain ⟨ctx', hres, happly', -⟩ := hin'.copied env happly hbs
    refine ⟨ctx', ?_, happly'⟩
    rw [mailRun_cons, h₁, ok_bind, hres]
  constructor
  · constructor
    · rintro ⟨ctx', hres⟩
      exact ⟨true, rfl, fun _ => hspace ctx' hres⟩
    · rintro ⟨b, hb, hsp⟩
      obtain rfl := Except.ok.inj hb
      obtain ⟨ctx', hres, -⟩ := hrun (hsp rfl)
      exact ⟨ctx', hres⟩
  · intro ctx' hres
    obtain ⟨ctx₁, hres₁, happly⟩ := hrun (hspace ctx' hres)
    obtain rfl := Except.ok.inj (hres₁.symm.trans hres)
    rw [happly]

/-! ## Behind the subtype -/

/-- The parser of content types is past the type and the subtype. -/
def MimeTypeState.past (p : MimeTypeState) : Prop := p ≠ .type0 ∧ p ≠ .type ∧ p ≠ .subtype

/-- Behind the subtype no octet leads back to a type. -/
theorem past_mimeTypeFeed {p : MimeTypeState} (h : p.past) (c : Byte) :
    ∃ s e, mimeTypeFeed p c = (s, [e]) ∧ s.past ∧ e.type ≠ .type ∧ e.type ≠ .subtype := by
  obtain ⟨h0, h1, h2⟩ := h
  cases p with
  | type0 => exact absurd rfl h0
  | type => exact absurd rfl h1
  | subtype => exact absurd rfl h2
  | parameter =>
    rw [mimeTypeFeed_parameter]
    split_ifs <;> exact ⟨_, _, rfl, ⟨nofun, nofun, nofun⟩, nofun, nofun⟩
  | delimiterStart =>
    rw [mimeTypeFeed_delimiterStart]
    split_ifs <;> exact ⟨_, _, rfl, ⟨nofun, nofun, nofun⟩, nofun, nofun⟩
  | delimiter =>
    rw [mimeTypeFeed_delimiter]
    split_ifs <;> exact ⟨_, _, rfl, ⟨nofun, nofun, nofun⟩, nofun, nofun⟩
  | delimiterEnd =>
    rw [mimeTypeFeed_delimiterEnd]
    exact ⟨_, _, rfl, ⟨nofun, nofun, nofun⟩, nofun, nofun⟩
  | error =>
    rw [mimeTypeFeed_error]
    exact ⟨_, _, rfl, ⟨nofun, nofun, nofun⟩, nofun, nofun⟩

/-- An event that is of neither the type nor the subtype filters nothing. -/
theorem contentTypeEvent_past (env : FilterEnv) (ctx : Ctx) {e : ParserEvent MimeTypeType}
    (h : e.type ≠ .type) (h' : e.type ≠ .subtype) : ∃ ctx', contentTypeEvent env ctx e = .ok ctx' ∧
      ctx'.mediaFilterApply = ctx.mediaFilterApply ∧
      ctx'.replaceContentType = ctx.replaceContentType ∧ ctx'.contentType = ctx.contentType ∧
      ctx'.rfc822Detected = ctx.rfc822Detected := by
  have hparameter (n : ℕ) (d : Byte) (ctx : Ctx) :
      ((List.replicate n d).foldl boundaryCharsetMatch ctx).mediaFilterApply =
          ctx.mediaFilterApply ∧
        ((List.replicate n d).foldl boundaryCharsetMatch ctx).replaceContentType =
          ctx.replaceContentType ∧
        ((List.replicate n d).foldl boundaryCharsetMatch ctx).contentType = ctx.contentType ∧
        ((List.replicate n d).foldl boundaryCharsetMatch ctx).rfc822Detected =
          ctx.rfc822Detected := by
    induction n generalizing ctx with
    | zero => exact ⟨rfl, rfl, rfl, rfl⟩
    | succ n ih =>
      obtain ⟨h₁, h₂, h₃, h₄⟩ := ih (boundaryCharsetMatch ctx d)
      rw [List.replicate_succ, List.foldl_cons, h₁, h₂, h₃, h₄, boundaryCharsetMatch]
      split_ifs <;> exact ⟨rfl, rfl, rfl, rfl⟩
  obtain ⟨ty, data, n⟩ := e
  cases ty with
  | type => exact absurd rfl h
  | subtype => exact absurd rfl h'
  | parameter => exact ⟨_, rfl, hparameter n _ ctx⟩
  | delimiter =>
    refine ⟨_, rfl, ?_⟩
    split_ifs <;> exact ⟨rfl, rfl, rfl, rfl⟩
  | delimiterEnd =>
    refine ⟨_, rfl, ?_⟩
    split_ifs <;> exact ⟨rfl, rfl, rfl, rfl⟩
  | typeEnd | parameterStart | boundaryEnd | delimiterStart | unexpected =>
    exact ⟨ctx, rfl, rfl, rfl, rfl, rfl⟩

/-- Once it is past them nothing is decided any more. -/
theorem InTypeValue.past (h : InTypeValue ctx) (happly : ctx.mediaFilterApply = false)
    (hpast : ctx.contentType.past) (hbs : CR ∉ bs) : Decides env ctx bs (.ok false) := by
  apply Decides.undecided
  induction bs generalizing ctx with
  | nil => exact ⟨ctx, rfl, happly⟩
  | cons c bs ih =>
    simp only [List.mem_cons, not_or] at hbs
    have hone : ∃ ctx₁, mimeMsg env ctx c = .ok ctx₁ ∧ ctx₁.mediaFilterApply = false ∧
        ctx₁.contentType.past := by
      by_cases hc : lwspChar c = true
      · exact ⟨_, h.space hc, happly, hpast⟩
      · obtain ⟨s, e, hfeed, hs, he, he'⟩ := past_mimeTypeFeed hpast c
        obtain ⟨ctx₁, h₁, happly₁, hreplace₁, hstate₁, -⟩ :=
          contentTypeEvent_past env { ctx with msg := .value, contentType := s } he he'
        have hmsg : contentTypeMsg env { ctx with msg := .value } c = .ok ctx₁ := by
          rw [← h₁]
          exact contentTypeMsg_single hfeed
        refine ⟨ctx₁.emit c, ?_, happly₁.trans happly, ?_⟩
        · rw [h.parsed happly (by simpa using hc) (Ne.symm hbs.1), hmsg, ok_bind, writeValue,
            if_neg (by simp [hreplace₁, h.replace])]
        · show ctx₁.contentType.past
          rw [hstate₁]
          exact hs
    obtain ⟨ctx₁, h₁, happly₁, hpast₁⟩ := hone
    obtain ⟨hin, -⟩ := h.step (Ne.symm hbs.1) h₁
    obtain ⟨ctx', hrun, happly'⟩ := ih hin happly₁ hpast₁ hbs.2
    refine ⟨ctx', ?_, happly'⟩
    rw [mailRun_cons, h₁, ok_bind, hrun]

/-! ## The subtype -/

/-- The subtypes in force. -/
def Ctx.inForce (ctx : Ctx) : List Subtype := subtypesAt ctx.mediaTypes ctx.mediaSubtypes

/-- What `content_subtype_match` does with them. -/
theorem contentSubtypeMatch_inForce (ctx : Ctx) (c : Byte) :
    (∀ f, feedSubtypes c ctx.inForce = .error f → ∀ ctx', contentSubtypeMatch ctx c ≠ .ok ctx') ∧
      ∀ ss current, feedSubtypes c ctx.inForce = .ok (ss, current) →
        ∃ ts, subtypesAt ts ctx.mediaSubtypes = ss ∧
          (current = some .eq → contentSubtypeMatch ctx c = .ok
            { ctx with mediaTypes := ts, mediaFilterApply := true, replaceContentType := true }) ∧
          (current ≠ some .eq → contentSubtypeMatch ctx c = .ok
            { ctx with mediaTypes := ts, mediaFilterApply := false }) := by
  cases hi : ctx.mediaSubtypes with
  | none =>
    rw [Ctx.inForce, contentSubtypeMatch, hi]
    exact ⟨fun _ _ _ hok => (by cases hok), fun _ _ hss => (by cases hss)⟩
  | some i =>
    cases ht : ctx.mediaTypes[i]? with
    | none =>
      have hnil : ctx.inForce = [] := by simp [Ctx.inForce, subtypesAt, hi, ht]
      rw [hnil, contentSubtypeMatch, hi]
      simp only [ht]
      exact ⟨fun _ _ _ hok => (by cases hok), fun _ _ hss => (by cases hss)⟩
    | some t =>
      have hforce : ctx.inForce = t.subtypes := by simp [Ctx.inForce, subtypesAt, hi, ht]
      rw [hforce, contentSubtypeMatch, hi]
      simp only [ht]
      constructor
      · intro f hf ctx'
        rw [hf, error_bind]
        intro hok
        cases hok
      · intro ss current hss
        obtain ⟨hlt, -⟩ := List.getElem?_eq_some_iff.mp ht
        refine ⟨ctx.mediaTypes.set i { t with subtypes := ss }, ?_, ?_, ?_⟩
        · simp [subtypesAt, hlt]
        · intro hcur
          rw [hss, ok_bind, if_pos hcur]
        · intro hcur
          rw [hss, ok_bind, if_neg hcur]

/-- An octet of the subtype. -/
theorem contentTypeMsg_subtype (hstate : ctx.contentType = .subtype)
    (hc : initCharClass .restNameChars c = true) : contentTypeMsg env ctx c =
      (if ctx.mediaTypeFilterDetected then contentSubtypeMatch ctx c else .ok ctx) >>=
        fun ctx => .ok (if ctx.messageDetected then rfc822Header ctx c else ctx) := by
  have hsemi : c ≠ SEMICOLON := by
    rintro rfl
    exact absurd hc (by decide)
  have hfeed : mimeTypeFeed ctx.contentType c = (.subtype, [MimeType.subtype c]) := by
    rw [hstate, mimeTypeFeed_subtype, if_neg hsemi, if_pos hc]
  have hsame : { ctx with contentType := .subtype } = ctx := by rw [← hstate]
  rw [contentTypeMsg_single hfeed, hsame]
  simp only [contentTypeEvent, MimeType.subtype, List.replicate, List.foldlM_cons, List.foldlM_nil]
  split_ifs
  · show (contentSubtypeMatch ctx c >>= pure) >>= _ = _
    rw [bind_pure]
    rfl
  · rfl

/-- The matcher of `rfc822` changes itself and its flag. -/
theorem rfc822Header_eq (ctx : Ctx) (c : Byte) : ∃ p d,
    (if ctx.messageDetected then rfc822Header ctx c else ctx) =
      { ctx with rfc822 := p, rfc822Detected := d } := by
  split_ifs
  · exact ⟨_, _, rfl⟩
  · exact ⟨_, _, rfl⟩

/-- An octet of a name is neither white space nor CR. -/
theorem restNameChars_plain : ∀ c, initCharClass .restNameChars c = true →
    lwspChar c = false ∧ c ≠ CR ∧ c ≠ SP := by
  decide +kernel

/-- An octet at which the parser of content types only changes its state. -/
theorem InTypeValue.plain (h : InTypeValue ctx) (happly : ctx.mediaFilterApply = false)
    (hc : lwspChar c = false) (hcr : c ≠ CR) {s : MimeTypeState} {e : ParserEvent MimeTypeType}
    (hfeed : mimeTypeFeed ctx.contentType c = (s, [e]))
    (he : ∀ ctx, contentTypeEvent env ctx e = .ok ctx) :
    mimeMsg env ctx c = .ok ({ ctx with msg := .value, contentType := s }.emit c) := by
  have hmsg : contentTypeMsg env { ctx with msg := .value } c =
      .ok { ctx with msg := .value, contentType := s } := by
    rw [← he]
    exact contentTypeMsg_single hfeed
  rw [h.parsed happly hc hcr, hmsg, ok_bind, writeValue, if_neg (by simp [h.replace])]

/-- The type is replaced from the last space on, if there is one. -/
theorem writeValue_replaced (hreplace : ctx.replaceContentType = true) (hclean : Clean ctx) :
    (SP ∈ ctx.mail.left → ∃ mail,
      writeValue ctx c = .ok { ctx with mail := mail, replaceContentType := false }) ∧
      (SP ∉ ctx.mail.left → ∀ ctx', writeValue ctx c ≠ .ok ctx') := by
  rw [writeValue, if_pos hreplace]
  constructor
  · intro hsp
    obtain ⟨p, hp⟩ := split_word hsp
    rw [hclean.seek hp]
    exact ⟨_, rfl⟩
  · intro hsp ctx'
    rw [Tape.seek_lost (by decide) hclean.not_stop fun x hx => ?_]
    · intro hok
      cases hok
    · rw [beq_eq_false_iff_ne]
      rintro rfl
      exact hsp hx

/-- What the octet after the subtype decides, and all that follow it. -/
theorem InTypeValue.decides_rest (env : FilterEnv) (h : InTypeValue ctx)
    (happly : ctx.mediaFilterApply = false) (hstate : ctx.contentType = .subtype)
    {rest : List Byte} (hrest : CR ∉ rest)
    (hhead : ∀ d rest', rest = d :: rest' →
      lwspChar d = false ∧ initCharClass .restNameChars d = false) :
    Decides env ctx rest (.ok false) := by
  cases rest with
  | nil => exact .undecided ⟨ctx, rfl, happly⟩
  | cons d rest =>
    simp only [List.mem_cons, not_or] at hrest
    obtain ⟨hd, hd'⟩ := hhead d rest rfl
    have hsp : d ≠ SP := by
      rintro rfl
      exact absurd hd (by decide)
    obtain ⟨s, e, hfeed, hs, he⟩ : ∃ s e, mimeTypeFeed ctx.contentType d = (s, [e]) ∧ s.past ∧
        ∀ ctx, contentTypeEvent env ctx e = .ok ctx := by
      rw [hstate, mimeTypeFeed_subtype]
      split_ifs with hsemi hname
      · exact ⟨_, _, rfl, ⟨nofun, nofun, nofun⟩, fun _ => rfl⟩
      · simp [hd'] at hname
      · exact ⟨_, _, rfl, ⟨nofun, nofun, nofun⟩, fun _ => rfl⟩
    have hstep := h.plain happly hd (Ne.symm hrest.1) hfeed he
    obtain ⟨hin, -⟩ := h.step (Ne.symm hrest.1) hstep
    refine Decides.cons hstep ?_ (hin.past happly hs hrest.2)
    simp [Ctx.emit, Tape.write, Ne.symm hsp]

/-- What an octet of the subtype is given to. -/
theorem InTypeValue.subtype_parsed (env : FilterEnv) (h : InTypeValue ctx)
    (happly : ctx.mediaFilterApply = false) (hstate : ctx.contentType = .subtype)
    (hc : initCharClass .restNameChars c = true) : mimeMsg env ctx c =
      ((if ctx.mediaTypeFilterDetected then contentSubtypeMatch { ctx with msg := .value } c
        else .ok { ctx with msg := .value }) >>= fun ctx =>
          .ok (if ctx.messageDetected then rfc822Header ctx c else ctx)) >>= fun ctx =>
            writeValue ctx c := by
  obtain ⟨hspace, hcr, -⟩ := restNameChars_plain c hc
  rw [h.parsed happly hspace hcr]
  exact congrArg (· >>= fun ctx => writeValue ctx c) (contentTypeMsg_subtype hstate hc)

/-- The subtypes in force do not take the octet. -/
theorem InTypeValue.subtype_crash (h : InTypeValue ctx) (happly : ctx.mediaFilterApply = false)
    (hstate : ctx.contentType = .subtype) (hc : initCharClass .restNameChars c = true)
    (hdet : ctx.mediaTypeFilterDetected = true) {f : FilterFault}
    (hfeed : feedSubtypes c ctx.inForce = .error f) (ctx' : Ctx) :
    mimeMsg env ctx c ≠ .ok ctx' := by
  rw [h.subtype_parsed env happly hstate hc, if_pos hdet]
  intro hres
  obtain ⟨hcrash, -⟩ := contentSubtypeMatch_inForce { ctx with msg := .value } c
  obtain ⟨ctx₁, hres, -⟩ := bind_eq_ok.mp hres
  obtain ⟨ctx₂, hres, -⟩ := bind_eq_ok.mp hres
  exact hcrash f hfeed ctx₂ hres

/-- The octet completes a subtype. -/
theorem InTypeValue.subtype_completes (env : FilterEnv) (h : InTypeValue ctx)
    (happly : ctx.mediaFilterApply = false) (hstate : ctx.contentType = .subtype)
    (hc : initCharClass .restNameChars c = true) (hdet : ctx.mediaTypeFilterDetected = true)
    {ss : List Subtype} (hfeed : feedSubtypes c ctx.inForce = .ok (ss, some .eq)) :
    ∃ ctx₁ : Ctx, mimeMsg env ctx c = writeValue ctx₁ c ∧ ctx₁.mail = ctx.mail ∧
      ctx₁.replaceContentType = true ∧ ctx₁.mediaFilterApply = true := by
  obtain ⟨-, hgoes⟩ := contentSubtypeMatch_inForce { ctx with msg := .value } c
  obtain ⟨ts, -, hyes, -⟩ := hgoes ss (some .eq) hfeed
  have hparsed := h.subtype_parsed env happly hstate hc
  rw [if_pos hdet, hyes rfl, ok_bind, ok_bind] at hparsed
  refine ⟨_, hparsed, ?_⟩
  split_ifs <;> exact ⟨rfl, rfl, rfl⟩

/-- The octet completes none. -/
theorem InTypeValue.subtype_octet (env : FilterEnv) (h : InTypeValue ctx)
    (happly : ctx.mediaFilterApply = false) (hstate : ctx.contentType = .subtype)
    (hc : initCharClass .restNameChars c = true) {ss : List Subtype} {current : Option StringCmp}
    (hfeed : ctx.mediaTypeFilterDetected = true →
      feedSubtypes c ctx.inForce = .ok (ss, current) ∧ current ≠ some .eq) :
    ∃ ctx₁ : Ctx, mimeMsg env ctx c = .ok ctx₁ ∧ ctx₁.mediaFilterApply = false ∧
      ctx₁.contentType = .subtype ∧ ctx₁.mediaTypeFilterDetected = ctx.mediaTypeFilterDetected ∧
      (ctx.mediaTypeFilterDetected = true → ctx₁.inForce = ss) ∧
      ctx₁.mail.left = c :: ctx.mail.left := by
  have hparsed := h.subtype_parsed env happly hstate hc
  by_cases hdet : ctx.mediaTypeFilterDetected = true
  · obtain ⟨hfeed, hcur⟩ := hfeed hdet
    obtain ⟨-, hgoes⟩ := contentSubtypeMatch_inForce { ctx with msg := .value } c
    obtain ⟨ts, hts, -, hno⟩ := hgoes ss current hfeed
    obtain ⟨p, d, hrfc⟩ :=
      rfc822Header_eq { ctx with msg := .value, mediaTypes := ts, mediaFilterApply := false } c
    rw [if_pos hdet, hno hcur, ok_bind, ok_bind, hrfc, writeValue,
      if_neg (by simp [h.replace])] at hparsed
    exact ⟨_, hparsed, rfl, hstate, rfl, fun _ => hts, rfl⟩
  · obtain ⟨p, d, hrfc⟩ := rfc822Header_eq { ctx with msg := .value } c
    rw [if_neg hdet, ok_bind, ok_bind, hrfc, writeValue, if_neg (by simp [h.replace])] at hparsed
    exact ⟨_, hparsed, happly, hstate, rfl, fun hd => absurd hd hdet, rfl⟩

/-- **A subtype** and what follows it. -/
theorem InTypeValue.decides_subtype (env : FilterEnv) (h : InTypeValue ctx)
    (happly : ctx.mediaFilterApply = false)
    (hstate : ctx.contentType = .subtype) {x rest : List Byte}
    (hx : ∀ c ∈ x, initCharClass .restNameChars c = true) (hrest : CR ∉ rest)
    (hhead : ∀ d rest', rest = d :: rest' →
      lwspChar d = false ∧ initCharClass .restNameChars d = false) :
    Decides env ctx (x ++ rest)
      (if ctx.mediaTypeFilterDetected then subtypeListed ctx.inForce x else .ok false) := by
  induction x generalizing ctx with
  | nil =>
    have hverdict : (if ctx.mediaTypeFilterDetected then subtypeListed ctx.inForce []
        else .ok false) = .ok false := by
      split_ifs <;> rfl
    rw [hverdict, List.nil_append]
    exact h.decides_rest env happly hstate hrest hhead
  | cons c x ih =>
    have hc := hx c (by simp)
    obtain ⟨-, hcr, hsp⟩ := restNameChars_plain c hc
    have hx' : ∀ d ∈ x, initCharClass .restNameChars d = true := fun d hd => hx d (by simp [hd])
    have hleft : SP ∈ c :: ctx.mail.left ↔ SP ∈ ctx.mail.left := by simp [Ne.symm hsp]
    by_cases hdet : ctx.mediaTypeFilterDetected = true
    · rw [if_pos hdet]
      cases hfeed : feedSubtypes c ctx.inForce with
      | error f =>
        have hverdict : subtypeListed ctx.inForce (c :: x) = .error f := by
          rw [subtypeListed, hfeed, error_bind]
        rw [hverdict]
        apply Decides.crash
        intro ctx'
        exact h.subtype_crash happly hstate hc hdet hfeed ctx'
      | ok r =>
        obtain ⟨ss, current⟩ := r
        by_cases hcur : current = some .eq
        -- a listed subtype is completed: the cursor goes back to the last space, if there is one
        · subst hcur
          have hverdict : subtypeListed ctx.inForce (c :: x) = .ok true := by
            rw [subtypeListed, hfeed, ok_bind, if_pos rfl]
          rw [hverdict]
          obtain ⟨ctx₁, hstep, hmail₁, hreplace₁, happly₁⟩ :=
            h.subtype_completes env happly hstate hc hdet hfeed
          have hclean₁ : Clean ctx₁ := by
            rw [Clean, hmail₁]
            exact h.clean
          obtain ⟨hfound, hlost⟩ := writeValue_replaced (c := c) hreplace₁ hclean₁
          rw [hmail₁] at hfound hlost
          rw [List.cons_append]
          refine Decides.completed hcr ?_ h ?_ ?_
          · intro hmem
            rcases List.mem_append.mp hmem with hmem | hmem
            · exact (restNameChars_plain CR (hx' CR hmem)).2.1 rfl
            · exact hrest hmem
          · intro hspace
            obtain ⟨mail, hwrite⟩ := hfound hspace
            exact ⟨_, hstep.trans hwrite, happly₁⟩
          · intro hspace ctx' hres
            exact hlost hspace ctx' (hstep.symm.trans hres)
        -- nothing is completed yet, and what is left in force decides on the rest
        · have hverdict : subtypeListed ctx.inForce (c :: x) = subtypeListed ss x := by
            rw [subtypeListed, hfeed, ok_bind, if_neg hcur]
          rw [hverdict]
          obtain ⟨ctx₁, hstep, happly₁, hstate₁, hdet₁, hforce₁, hleft₁⟩ :=
            h.subtype_octet env happly hstate hc fun _ => ⟨hfeed, hcur⟩
          obtain ⟨hin, -⟩ := h.step hcr hstep
          have hrest := ih hin happly₁ hstate₁ hx'
          rw [hdet₁, if_pos hdet, hforce₁ hdet] at hrest
          exact Decides.cons hstep (by rw [hleft₁]; exact hleft) hrest
    -- the type is not listed, so subtypes are not looked at
    · have hfeed : ctx.mediaTypeFilterDetected = true →
          feedSubtypes c ctx.inForce = .ok ([], none) ∧ (none : Option StringCmp) ≠ some .eq :=
        fun hd => absurd hd hdet
      obtain ⟨ctx₁, hstep, happly₁, hstate₁, hdet₁, -, hleft₁⟩ :=
        h.subtype_octet env happly hstate hc hfeed
      obtain ⟨hin, -⟩ := h.step hcr hstep
      have hrest := ih hin happly₁ hstate₁ hx'
      rw [hdet₁, if_neg hdet] at hrest
      rw [if_neg hdet]
      exact Decides.cons hstep (by rw [hleft₁]; exact hleft) hrest

/-! ## The type -/

/-- What has been found with the type as far as it has been read. -/
structure Found (ctx : Ctx) (found : Option ℕ) : Prop where
  detected : ctx.mediaTypeFilterDetected = found.isSome
  subtypes : ∀ i, found = some i → ctx.mediaSubtypes = some i

/-- A list that is fed keeps its entries. -/
theorem feedTypes_ne_nil {ts : List TypeList} (h : ts ≠ []) (c : Byte) :
    (feedTypes c ts).1 ≠ [] := by
  intro hnil
  have hlen := congrArg List.length (subtypes_feedTypes c ts)
  rw [hnil, List.length_map, List.length_map] at hlen
  exact h (List.length_eq_zero_iff.mp hlen.symm)

/-- An octet of the type. -/
theorem InTypeValue.type_octet (env : FilterEnv) (h : InTypeValue ctx)
    (happly : ctx.mediaFilterApply = false)
    (htypes : ctx.mediaTypes ≠ [])
    (hfeed : mimeTypeFeed ctx.contentType c = (.type, [MimeType.type c]))
    (hc : initCharClass .restNameChars c = true) :
    ∃ ctx₁, mimeMsg env ctx c = .ok ctx₁ ∧ ctx₁.mediaFilterApply = false ∧
      ctx₁.contentType = .type ∧ ctx₁.mediaTypes = (feedTypes c ctx.mediaTypes).1 ∧
      Found ctx₁ (feedTypes c ctx.mediaTypes).2 ∧ ctx₁.mail.left = c :: ctx.mail.left := by
  obtain ⟨hspace, hcr, -⟩ := restNameChars_plain c hc
  have hmsg : contentTypeMsg env { ctx with msg := .value } c =
      contentTypeEvent env { ctx with msg := .value, contentType := .type } (MimeType.type c) :=
    contentTypeMsg_single hfeed
  rw [h.parsed happly hspace hcr, hmsg]
  simp only [contentTypeEvent, MimeType.type, List.take, List.foldlM_cons, List.foldlM_nil,
    contentTypeMatch, if_neg htypes]
  have hwrite (ctx₁ : Ctx) (hreplace : ctx₁.replaceContentType = false) :
      writeValue (messageHeader ctx₁ c) c = .ok ((messageHeader ctx₁ c).emit c) := by
    rw [writeValue, if_neg (by simp [messageHeader, hreplace])]
  rcases hfound : feedTypes c ctx.mediaTypes with ⟨ts, _ | i⟩
  · exact ⟨_, hwrite { ctx with
      msg := .value, contentType := .type, mediaTypes := ts, mediaTypeFilterDetected := false }
      h.replace, happly, rfl, rfl, ⟨rfl, fun _ hj => by cases hj⟩, rfl⟩
  · exact ⟨_, hwrite { ctx with
      msg := .value, contentType := .type, mediaTypes := ts, mediaTypeFilterDetected := true,
      mediaSubtypes := some i } h.replace, happly, rfl, rfl, ⟨rfl, fun j hj => hj⟩, rfl⟩

/-- **A type, the slash and a subtype**, and what follows them. -/
theorem InTypeValue.decides_type (env : FilterEnv) (h : InTypeValue ctx)
    (happly : ctx.mediaFilterApply = false)
    (hstate : ctx.contentType = .type) (htypes : ctx.mediaTypes ≠ []) {found : Option ℕ}
    (hfound : Found ctx found) {x y rest : List Byte}
    (hx : ∀ c ∈ x, initCharClass .restNameChars c = true)
    (hy : ∀ c ∈ y, initCharClass .restNameChars c = true) (hrest : CR ∉ rest)
    (hhead : ∀ d rest', rest = d :: rest' →
      lwspChar d = false ∧ initCharClass .restNameChars d = false) :
    Decides env ctx (x ++ SLASH :: (y ++ rest)) (typeListed ctx.mediaTypes found x y) := by
  induction x generalizing ctx found with
  | nil =>
    have hfeed : mimeTypeFeed ctx.contentType SLASH = (.subtype, [MimeType.typeEnd SLASH]) := by
      rw [hstate, mimeTypeFeed_type, if_pos rfl]
    obtain ⟨ctx₁, hstep, happly₁, hstate₁, hdet₁, hforce₁, hleft₁⟩ : ∃ ctx₁ : Ctx,
        mimeMsg env ctx SLASH = .ok ctx₁ ∧ ctx₁.mediaFilterApply = false ∧
          ctx₁.contentType = .subtype ∧
          ctx₁.mediaTypeFilterDetected = ctx.mediaTypeFilterDetected ∧
          ctx₁.inForce = ctx.inForce ∧ ctx₁.mail.left = SLASH :: ctx.mail.left :=
      ⟨_, h.plain happly (by decide) (by decide) hfeed fun _ => rfl, happly, rfl, rfl, rfl, rfl⟩
    obtain ⟨hin, -⟩ := h.step (by decide) hstep
    have hsubtype := hin.decides_subtype env happly₁ hstate₁ hy hrest hhead
    -- the slash leaves the subtypes of the type that was found in force
    have hverdict : typeListed ctx.mediaTypes found [] y =
        if ctx₁.mediaTypeFilterDetected then subtypeListed ctx₁.inForce y else .ok false := by
      rw [typeListed, hdet₁, hforce₁, hfound.detected]
      cases found with
      | none => rfl
      | some i => rw [Ctx.inForce, hfound.subtypes i rfl]
    rw [hverdict]
    refine Decides.cons hstep ?_ hsubtype
    rw [hleft₁]
    simp [(by decide : SP ≠ SLASH)]
  | cons c x ih =>
    have hc := hx c (by simp)
    obtain ⟨hspace, hcr, hsp⟩ := restNameChars_plain c hc
    have hslash : c ≠ SLASH := by
      rintro rfl
      exact absurd hc (by decide)
    have hfeed : mimeTypeFeed ctx.contentType c = (.type, [MimeType.type c]) := by
      rw [hstate, mimeTypeFeed_type, if_neg hslash, if_pos hc]
    obtain ⟨ctx₁, hstep, happly₁, hstate₁, htypes₁, hfound₁, hleft₁⟩ :=
      h.type_octet env happly htypes hfeed hc
    obtain ⟨hin, -⟩ := h.step hcr hstep
    have hne : ctx₁.mediaTypes ≠ [] := by
      rw [htypes₁]
      exact feedTypes_ne_nil htypes c
    have hrest' := ih hin happly₁ hstate₁ hne hfound₁ fun d hd => hx d (by simp [hd])
    rw [htypes₁] at hrest'
    rw [List.cons_append, typeListed]
    refine Decides.cons hstep ?_ hrest'
    rw [hleft₁]
    simp [Ne.symm hsp]

/-- **A value** that begins with a type and a subtype. -/
theorem InTypeValue.decides (env : FilterEnv) (h : InTypeValue ctx)
    (happly : ctx.mediaFilterApply = false)
    {x y rest : List Byte} (hfirst : ∀ c ∈ x.head?, initCharClass .restNameFirst c = true)
    (hx : ∀ c ∈ x, initCharClass .restNameChars c = true) (hne : x ≠ [])
    (hy : ∀ c ∈ y, initCharClass .restNameChars c = true) (hrest : CR ∉ rest)
    (hhead : ∀ d rest', rest = d :: rest' →
      lwspChar d = false ∧ initCharClass .restNameChars d = false) :
    Decides env ctx (x ++ SLASH :: (y ++ rest)) (ctx.listed x y) := by
  have hcr : CR ∉ x ++ SLASH :: (y ++ rest) := by
    intro hmem
    rcases List.mem_append.mp hmem with hmem | hmem
    · exact (restNameChars_plain CR (hx CR hmem)).2.1 rfl
    · rcases List.mem_cons.mp hmem with hmem | hmem
      · exact absurd hmem (by decide)
      · rcases List.mem_append.mp hmem with hmem | hmem
        · exact (restNameChars_plain CR (hy CR hmem)).2.1 rfl
        · exact hrest hmem
  -- the first octet of the type, in the two states that take it
  have hstart (hstate : ctx.contentType = .type0 ∨ ctx.contentType = .type) :
      Decides env ctx (x ++ SLASH :: (y ++ rest)) (if ctx.mediaTypes = [] then .error .uninitialised
        else typeListed ctx.mediaTypes none x y) := by
    obtain ⟨c, x', rfl⟩ := List.exists_cons_of_ne_nil hne
    have hc := hx c (by simp)
    have hfirst' : initCharClass .restNameFirst c = true := hfirst c rfl
    obtain ⟨hspace, hcr', hsp⟩ := restNameChars_plain c hc
    have hslash : c ≠ SLASH := by
      rintro rfl
      exact absurd hc (by decide)
    have hfeed : mimeTypeFeed ctx.contentType c = (.type, [MimeType.type c]) := by
      rcases hstate with hstate | hstate
      · rw [hstate, mimeTypeFeed_type0, if_pos hfirst']
      · rw [hstate, mimeTypeFeed_type, if_neg hslash, if_pos hc]
    by_cases htypes : ctx.mediaTypes = []
    · rw [if_pos htypes]
      refine Decides.crash fun ctx' hres => ?_
      have hmsg : contentTypeMsg env { ctx with msg := .value } c =
          contentTypeEvent env { ctx with msg := .value, contentType := .type } (MimeType.type c) :=
        contentTypeMsg_single hfeed
      rw [h.parsed happly hspace hcr', hmsg] at hres
      simp only [contentTypeEvent, MimeType.type, List.take, List.foldlM_cons, contentTypeMatch,
        if_pos htypes, error_bind] at hres
      cases hres
    · rw [if_neg htypes]
      obtain ⟨ctx₁, hstep, happly₁, hstate₁, htypes₁, hfound₁, hleft₁⟩ :=
        h.type_octet env happly htypes hfeed hc
      obtain ⟨hin, -⟩ := h.step hcr' hstep
      have hne₁ : ctx₁.mediaTypes ≠ [] := by
        rw [htypes₁]
        exact feedTypes_ne_nil htypes c
      have hdecides := hin.decides_type env happly₁ hstate₁ hne₁ hfound₁
        (fun d hd => hx d (List.mem_cons_of_mem c hd)) hy hrest hhead
      rw [htypes₁] at hdecides
      rw [List.cons_append, typeListed]
      refine Decides.cons hstep ?_ hdecides
      rw [hleft₁]
      simp [Ne.symm hsp]
  rw [Ctx.listed]
  split
  · rename_i hstate
    exact hstart (.inl hstate)
  · rename_i hstate
    exact hstart (.inr hstate)
  · rename_i hstate
    refine h.decides_subtype env happly hstate hx ?_ ?_
    · exact fun hmem => hcr (List.mem_append_right x hmem)
    · intro d rest' heq
      obtain ⟨rfl, -⟩ := List.cons.inj heq
      exact ⟨by decide, by decide⟩
  all_goals
    rename_i hstate
    exact h.past happly (by rw [hstate]; simp [MimeTypeState.past]) hcr

end

end Pop3Proxy
