/-
# What a header leaves alone

As long as the blank line has not come the body is not entered, and the boundaries stay as they
are until a quote in a content type closes.
-/
import Mathlib.Data.List.Chain
import Pop3Proxy.Filter.Awaiting
import Pop3Proxy.Filter.SilentBody

namespace Pop3Proxy

/-- A field is being read, or waited for. -/
def MimeMsgState.inHeader : MimeMsgState → Prop
  | .valueCrlfCr | .body | .bodyCr => False
  | _ => True

/-- The events of a header, but for its end. -/
def MimeMsgType.inHeader : MimeMsgType → Prop
  | .bodyStart | .body | .bodyCr | .bodyNewline => False
  | _ => True

/-- What is known of the boundaries: the stack, the line that may be one, and the number of
strings compared. -/
def Ctx.bounds (ctx : Ctx) : List (List Byte) × List Byte × ℕ :=
  (ctx.boundryStack, ctx.possibleBoundaryString, ctx.strings)

/-- Unless a quote has closed, the boundaries are the same; and none closes in a part that is
filtered. -/
structure HeaderKept (ctx ctx' : Ctx) : Prop where
  bounds : ctx'.contentType ≠ .delimiterEnd →
    ctx.contentType ≠ .delimiterEnd ∧ ctx'.bounds = ctx.bounds
  filtered : ctx'.mediaFilterApply = true → ctx.mediaFilterApply = true ∧
    ctx'.contentType = ctx.contentType ∨ ctx'.contentType ≠ .delimiterEnd

section
variable {env : FilterEnv} {ctx ctx' : Ctx} {c : Byte}

/-- No octets keep everything. -/
theorem HeaderKept.refl (ctx : Ctx) : HeaderKept ctx ctx :=
  ⟨fun hs => ⟨hs, rfl⟩, fun happly => .inl ⟨happly, rfl⟩⟩

/-- What is kept by two pieces of a header. -/
theorem HeaderKept.trans {ctx'' : Ctx} (h : HeaderKept ctx ctx') (h' : HeaderKept ctx' ctx'') :
    HeaderKept ctx ctx'' where
  bounds hs := by
    obtain ⟨hs', hbounds'⟩ := h'.bounds hs
    obtain ⟨hs'', hbounds⟩ := h.bounds hs'
    exact ⟨hs'', hbounds'.trans hbounds⟩
  filtered happly := by
    rcases h'.filtered happly with ⟨happly', hsame⟩ | hs
    · rcases h.filtered happly' with ⟨happly'', hsame'⟩ | hs
      · exact .inl ⟨happly'', hsame.trans hsame'⟩
      · exact .inr (by rw [hsame]; exact hs)
    · exact .inr hs

/-- Whatever leaves the content type and the boundaries alone. -/
theorem HeaderKept.same (hstate : ctx'.contentType = ctx.contentType)
    (hbounds : ctx'.bounds = ctx.bounds) (happly : ctx'.mediaFilterApply = ctx.mediaFilterApply) :
    HeaderKept ctx ctx' where
  bounds hs := ⟨by rw [← hstate]; exact hs, hbounds⟩
  filtered hyes := .inl ⟨happly.symm.trans hyes, hstate⟩

/-! ## Events -/

/-- The strings that have been compared. -/
theorem Watcher.step_strings {w : Watcher} (h : (w.step env c).contentType ≠ .delimiterEnd) :
    (w.step env c).strings = w.strings := by
  rw [Watcher.step_contentType] at h
  obtain ⟨s, e, d, hfeed, -⟩ := mimeTypeFeed_single w.contentType c
  rw [hfeed] at h
  have hend : e.type ≠ .delimiterEnd := fun he => h (eq_delimiterEnd_of_event hfeed he)
  rw [Watcher.step_single hfeed, Watcher.event]
  split
  · rfl
  · rw [Watcher.delimiter]
    split_ifs <;> rfl
  · rename_i he
    exact absurd he hend
  all_goals rfl

/-- An octet of a content type. -/
theorem contentTypeMsg_headerKept (happly : ctx.mediaFilterApply = false)
    (h : contentTypeMsg env ctx c = .ok ctx') : HeaderKept ctx ctx' := by
  obtain ⟨hwatch, -⟩ := contentTypeMsg_watcher h
  have hstate : ctx'.contentType = (mimeTypeFeed ctx.contentType c).1 :=
    (congrArg Watcher.contentType hwatch).trans Watcher.step_contentType
  refine ⟨fun hs => ⟨?_, ?_⟩, fun hfired => .inr ?_⟩
  · intro hend
    rw [hstate, hend, mimeTypeFeed_delimiterEnd] at hs
    exact hs rfl
  · have hstep : (ctx.watcher.step env c).contentType ≠ .delimiterEnd := by
      rw [← hwatch]
      exact hs
    have hstack : ctx'.boundryStack = ctx.boundryStack :=
      (congrArg Watcher.boundryStack hwatch).trans (Watcher.step_stack hstep)
    have hstrings : ctx'.strings = ctx.strings :=
      (congrArg Watcher.strings hwatch).trans (Watcher.step_strings hstep)
    rw [Ctx.bounds, hstack, (contentTypeMsg_typeKept h).line, hstrings]
    rfl
  -- what filters the part is an octet of the subtype
  · rcases (contentTypeMsg_effect happly h).apply.mp hfired with hyes | ⟨hsub, hc, -⟩
    · rw [happly] at hyes
      cases hyes
    · have hsemi : c ≠ SEMICOLON := by
        rintro rfl
        exact absurd hc (by decide)
      rw [hstate, hsub, mimeTypeFeed_subtype, if_neg hsemi, if_pos hc]
      exact nofun

/-- An octet of a value. -/
theorem msgValue_headerKept {d : Byte} (h : msgValue env ctx (MimeMsg.value d) = .ok ctx') :
    HeaderKept ctx ctx' := by
  have hwrite {ctx₁ : Ctx} (h₁ : (if ctx₁.msgContentTransferEncodingFieldDetected = some true ∧
      ctx₁.mediaFilterApply then Except.ok ctx₁ else writeValue ctx₁ d) = .ok ctx') :
      HeaderKept ctx₁ ctx' := by
    split_ifs at h₁
    · obtain rfl := Except.ok.inj h₁
      exact .refl _
    · rw [writeValue_eq h₁]
      exact .same rfl rfl rfl
  rw [msgValue] at h
  split_ifs at h with hasked
  · obtain ⟨ctx₁, h₁, h⟩ := bind_eq_ok.mp h
    have hone : contentTypeMsg env ctx d = .ok ctx₁ := by
      simpa [MimeMsg.value] using h₁
    exact (contentTypeMsg_headerKept (by simpa using hasked.2) hone).trans (hwrite h)
  · exact hwrite h

/-- **An event of a header** leaves the boundaries alone. -/
theorem mimeMsgEvent_headerKept {e : ParserEvent MimeMsgType} (he : e.type.inHeader)
    (hvalue : ValueEvent e) (h : mimeMsgEvent env ctx e = .ok ctx') : HeaderKept ctx ctx' := by
  obtain ⟨ty, data, n⟩ := e
  cases ty with
  | name =>
    obtain rfl := Except.ok.inj h
    obtain ⟨p, flag, p', flag', hname⟩ := msgName_frame ctx ⟨.name, data, n⟩
    rw [hname]
    exact .same rfl rfl rfl
  | value =>
    obtain ⟨d, hd⟩ := hvalue rfl
    rw [hd] at h
    exact msgValue_headerKept h
  | nameEnd =>
    obtain rfl := Except.ok.inj h
    rw [msgNameEnd]
    split_ifs <;> exact .same rfl rfl rfl
  | valueEnd | wait | unexpected | valueFold =>
    obtain rfl := Except.ok.inj h
    exact .same rfl rfl rfl
  | bodyStart | body | bodyCr | bodyNewline => exact he.elim

/-! ## Octets -/

/-- The octets of a header lead no further unless a blank line comes. -/
theorem mimeMsgFeed_inHeader {s : MimeMsgState} (hs : s.inHeader) (hc : s = .valueCrlf → c ≠ CR) :
    (mimeMsgFeed s c).1.inHeader ∧ (∀ e ∈ (mimeMsgFeed s c).2, e.type.inHeader) ∧
      ((mimeMsgFeed s c).1 = .valueCrlf → c = LF) := by
  refine mimeMsgFeed_of_transitions (P := fun s' es => s'.inHeader ∧ (∀ e ∈ es, e.type.inHeader) ∧
    (s' = .valueCrlf → c = LF)) ?_
  cases s with
  | valueCrlfCr | body | bodyCr => exact hs.elim
  | valueCrlf =>
    have hcr : c ≠ CR := hc rfl
    simp [mimeMessageParser, When.holds, hcr, MimeMsgState.inHeader, MimeMsgType.inHeader,
      MimeMsg.name, MimeMsg.valueFold, MimeMsg.valueFoldCrlf, MimeMsg.valueEnd, MimeMsg.unexpected]
  | _ => simp [mimeMessageParser, When.holds, MimeMsgState.inHeader, MimeMsgType.inHeader,
      MimeMsg.name, MimeMsg.nameEnd, MimeMsg.value, MimeMsg.valueCr, MimeMsg.valueFold,
      MimeMsg.unexpected, MimeMsg.wait]

/-- Octets of a header that began in `ctx`. -/
structure InHeader (ctx ctx' : Ctx) : Prop extends HeaderKept ctx ctx' where
  msg : ctx'.msg.inHeader

/-- **An octet of a header**, behind which no blank line ends. -/
theorem InHeader.octet {ctx₀ : Ctx} (h : InHeader ctx₀ ctx) (hc : ctx.msg = .valueCrlf → c ≠ CR)
    (hres : mimeMsg env ctx c = .ok ctx') :
    InHeader ctx₀ ctx' ∧ (ctx'.msg = .valueCrlf → c = LF) := by
  obtain ⟨hs, hes, hcrlf⟩ := mimeMsgFeed_inHeader h.msg hc
  have hkept : HeaderKept ctx₀ ctx' := by
    refine mimeMsg_along (I := HeaderKept ctx₀) (A := fun e => e.type.inHeader) ?_ hes
      (h.toHeaderKept.trans (.same rfl rfl rfl)) hres
    exact fun ctx₁ e ctx₂ hkept he hvalue hev => hkept.trans (mimeMsgEvent_headerKept he hvalue hev)
  rcases mimeMsg_msg hres with hmsg | hmsg
  · refine ⟨⟨hkept, ?_⟩, fun hend => hcrlf (hmsg.symm.trans hend)⟩
    rw [hmsg]
    exact hs
  · refine ⟨⟨hkept, ?_⟩, fun hend => ?_⟩
    · rw [hmsg]
      trivial
    · rw [hmsg] at hend
      cases hend

/-- No line but the first is blank. -/
def Unblank (bs : List Byte) : Prop := bs.IsChain fun c d => c = LF → d ≠ CR

/-- **The octets of a header** that have no blank line among them. -/
theorem InHeader.run {ctx₀ : Ctx} (h : InHeader ctx₀ ctx) {bs : List Byte}
    (hstart : ctx.msg = .valueCrlf → bs.head? ≠ some CR) (hbs : Unblank bs)
    (hres : mailRun env ctx bs = .ok ctx') : InHeader ctx₀ ctx' := by
  induction bs generalizing ctx with
  | nil =>
    obtain rfl := Except.ok.inj hres
    exact h
  | cons c bs ih =>
    obtain ⟨hnext, hrest⟩ := List.isChain_cons.mp hbs
    rw [mailRun_cons] at hres
    obtain ⟨ctx₁, h₁, hres⟩ := bind_eq_ok.mp hres
    obtain ⟨hin, hcrlf⟩ := h.octet (fun hs hcr => hstart hs (congrArg some hcr)) h₁
    exact ih hin (fun hs hhead => hnext CR hhead (hcrlf hs) rfl) hrest hres

end

/-! ## Fields -/

/-- A line in front, when no blank one follows. -/
theorem Unblank.line {l bs : List Byte} (hl : LF ∉ l) (hbs : Unblank bs)
    (hhead : bs.head? ≠ some CR) : Unblank (l ++ CRLF ++ bs) := by
  induction l with
  | nil =>
    refine List.isChain_cons.mpr ⟨fun d _ hlf => absurd hlf (by decide), ?_⟩
    exact List.isChain_cons.mpr ⟨fun d hd _ hcr => hhead (hcr ▸ hd), hbs⟩
  | cons c l ih =>
    refine List.isChain_cons.mpr ⟨fun d _ hlf => absurd ?_ hl, ih fun hmem => hl (by simp [hmem])⟩
    rw [hlf]
    exact List.mem_cons_self

/-- The lines of the fields. -/
def HeaderField.allLines (f : HeaderField) : List (List Byte) :=
  (f.name ++ COLON :: f.line) :: f.lines

/-- A field is its lines, each with a CRLF. -/
theorem HeaderField.text_lines (f : HeaderField) : f.text = bodyOctets f.allLines := by
  have hfolds (ls : List (List Byte)) :
      ls.flatMap (CRLF ++ ·) ++ CRLF = CRLF ++ ls.flatMap (· ++ CRLF) := by
    induction ls with
    | nil => simp
    | cons l ls ih => simp only [List.flatMap_cons, List.append_assoc, ih]
  have hvalue : f.value ++ CRLF = f.line ++ (CRLF ++ f.lines.flatMap (· ++ CRLF)) := by
    rw [HeaderField.value, List.append_assoc, hfolds]
  rw [bodyOctets, HeaderField.allLines, List.flatMap_cons, HeaderField.text]
  simp only [List.append_assoc, List.cons_append, hvalue]

/-- A line of a field is not blank. -/
theorem HeaderField.allLines_plain (f : HeaderField) {l : List Byte} (hl : l ∈ f.allLines) :
    l ≠ [] ∧ CR ∉ l ∧ LF ∉ l := by
  rcases List.mem_cons.mp hl with rfl | hl
  · obtain ⟨hcr, hlf⟩ := f.plain f.line (by simp)
    have hname {d : Byte} (hd : nameChar d = false) : d ∉ f.name := fun hmem =>
      absurd (f.name_chars d hmem) (by simp [hd])
    have hcr' : CR ∉ f.name := hname (by decide)
    have hlf' : LF ∉ f.name := hname (by decide)
    have hcolon : COLON ≠ CR ∧ COLON ≠ LF := by decide
    exact ⟨by simp, by simp [hcr, hcr', hcolon.1.symm], by simp [hlf, hlf', hcolon.2.symm]⟩
  · obtain ⟨c, rest, rfl, -⟩ := f.continued l hl
    exact ⟨List.cons_ne_nil c rest, f.plain _ (List.mem_cons_of_mem _ hl)⟩

/-- Lines with something in them have no blank line among them. -/
theorem unblank_bodyOctets {ls : List (List Byte)} (h : ∀ l ∈ ls, l ≠ [] ∧ CR ∉ l ∧ LF ∉ l) :
    Unblank (bodyOctets ls) ∧ (bodyOctets ls).head? ≠ some CR := by
  induction ls with
  | nil => exact ⟨List.isChain_nil, nofun⟩
  | cons l ls ih =>
    obtain ⟨hne, hcr, hlf⟩ := h l (by simp)
    obtain ⟨hrest, hhead⟩ := ih fun l' hl' => h l' (by simp [hl'])
    refine ⟨hrest.line hlf hhead, ?_⟩
    obtain ⟨c, l, rfl⟩ := List.exists_cons_of_ne_nil hne
    rintro heq
    exact hcr (Option.some.inj heq ▸ List.mem_cons_self)

/-- **Fields** have no blank line among them. -/
theorem unblank_headerText (fs : List HeaderField) : Unblank (headerText fs) := by
  have htext : headerText fs = bodyOctets (fs.flatMap HeaderField.allLines) := by
    rw [headerText, bodyOctets, List.flatMap_assoc]
    exact List.flatMap_congr fun f _ => f.text_lines
  rw [htext]
  refine (unblank_bodyOctets fun l hl => ?_).1
  obtain ⟨f, -, hl⟩ := List.mem_flatMap.mp hl
  exact f.allLines_plain hl

end Pop3Proxy
