/-
# The header of a part

What the filter makes of the fields of a part whose type is on the list: the type should come
out as `text/plain`, an encoding as `8BIT`, and every other field as it is.  Field by field it
is said when they do.
-/
import Pop3Proxy.Filter.Retyping

namespace Pop3Proxy

/-! ## What is asked for -/

/-- The field is `Content-Transfer-Encoding`. -/
def HeaderField.IsEncoding (f : HeaderField) : Prop :=
  SameLetters f.name (ascii "Content-Transfer-Encoding")

instance (f : HeaderField) : Decidable f.IsEncoding :=
  inferInstanceAs (Decidable (SameLetters f.name (ascii "Content-Transfer-Encoding")))

/-- What a field that is not the type is to be written as. -/
def HeaderField.Rewritten (f : HeaderField) (out : List Byte) : Prop :=
  if f.IsEncoding then ∃ v, EightBit v ∧ out = f.name ++ COLON :: (v ++ CRLF) else out = f.text

/-- The fields are written so, one behind the other. -/
def FieldsRewritten (env : FilterEnv) : Ctx → List HeaderField → Ctx → Prop
  | ctx, [], ctx' => ctx' = ctx
  | ctx, f :: fs, ctx' => ∃ ctx₁ out, mailRun env ctx f.text = .ok ctx₁ ∧
      ctx₁.emitted = ctx.emitted ++ out ∧ f.Rewritten out ∧ FieldsRewritten env ctx₁ fs ctx'

/-- The fields of a part, one of which is its content type. -/
structure PartHeader where
  before : List HeaderField
  field : TypeField
  after : List HeaderField
  once : ∀ f ∈ before ++ after, ¬ SameLetters f.name (ascii "Content-Type")

/-- In front of the header of a part. -/
structure PartAwaited (ctx : Ctx) : Prop extends TypeAwaited ctx, Settled ctx where
  msg : ctx.msg = .name0
  unnamed : ctx.Unnamed
  rfc822Detected : ctx.rfc822Detected = false

/-- The header is written with its type and its encodings replaced. -/
def HeaderRewritten (env : FilterEnv) (ctx : Ctx) (p : PartHeader) : Prop :=
  ∃ ctx₁ ctx₂ ctx₃, FieldsRewritten env ctx p.before ctx₁ ∧ p.field.RetypedBy env ctx₁ ctx₂ ∧
    FieldsRewritten env ctx₂ p.after ctx₃

/-! ## When it is -/

/-- The field is what it should be as it stands. -/
def HeaderField.Kept (f : HeaderField) : Prop :=
  Seamless f.line f.lines ∧ (f.IsEncoding → EightBit f.value)

/-- The field is what it should be when the value of an encoding is replaced. -/
def HeaderField.Replaced (f : HeaderField) : Prop :=
  Seamless f.line f.lines ∧ (f.IsEncoding → ¬ EndsInSpace f.value)

/-- The last value hides what follows. -/
def HidesNext (fs : List HeaderField) : Prop := ∃ f, fs.getLast? = some f ∧ EndsInSpace f.value

/-- The fields behind a type that has been replaced.  One that is hidden stays as it is; and
behind a message that is enclosed a name of one octet ends the header, as far as the filter
is concerned. -/
def Amended (enclosed : Bool) : Prop → List HeaderField → Prop
  | _, [] => True
  | hidden, f :: fs =>
    (hidden → f.Kept ∧ Amended enclosed (EndsInSpace f.value) fs) ∧
      (¬ hidden → enclosed = true ∧ f.name.length = 1 → ∀ g ∈ fs, g.IsEncoding → EightBit g.value) ∧
      (¬ hidden → ¬ (enclosed = true ∧ f.name.length = 1) →
        f.Replaced ∧ Amended enclosed (EndsInSpace f.value) fs)

/-- The type encloses a message. -/
def TypeField.encloses (t : TypeField) (flag : Bool) : Bool :=
  flagAfter (ascii "message") t.type flag && SameLetters t.subtype (ascii "rfc822")

/-- Field by field, the header comes out as is asked for. -/
structure HeaderAmended (ctx : Ctx) (p : PartHeader) : Prop where
  before : ∀ f ∈ p.before, f.Kept
  field : p.field.Retypes ctx.mediaTypes (¬ HidesNext p.before)
  filtered : p.field.Filters ctx.mediaTypes (¬ HidesNext p.before) →
    Amended (p.field.encloses ctx.messageDetected) (EndsInSpace p.field.field.value) p.after
  unfiltered : ¬ p.field.Filters ctx.mediaTypes (¬ HidesNext p.before) → ∀ f ∈ p.after, f.Kept

/-! ## One field -/

section
variable {env : FilterEnv} {ctx ctx' ctx₁ : Ctx} {f : HeaderField} {fs : List HeaderField}

/-- `8BIT` with white space around it has no fold in it. -/
theorem EightBit.seamless (h : EightBit f.value) : Seamless f.line f.lines := by
  rw [f.unfolded_of_noCr h.noCr]
  trivial

/-- What is written of a value, where nothing but white space and `8BIT` may be. -/
theorem encoding_rewritten (hf : f.IsEncoding) {out : List Byte} :
    f.Rewritten (f.name ++ COLON :: out) ↔ ∃ v, EightBit v ∧ out = v ++ CRLF := by
  rw [HeaderField.Rewritten, if_pos hf]
  simp only [List.append_cancel_left_eq, List.cons.injEq, true_and]

/-- A field that is not the encoding is to come out as it is. -/
theorem other_rewritten (hf : ¬ f.IsEncoding) {out : List Byte} :
    f.Rewritten (f.name ++ COLON :: out) ↔ out = f.value ++ CRLF := by
  rw [HeaderField.Rewritten, if_neg hf, HeaderField.text, List.append_assoc]
  simp only [List.cons_append, List.append_cancel_left_eq, List.cons.injEq, true_and]

/-- **A field whose value is copied** is what it should be if it was before. -/
theorem rewritten_kept : f.Rewritten (f.written false) ↔ f.Kept := by
  show f.Rewritten (f.name ++ COLON :: f.out false) ↔ _
  by_cases hf : f.IsEncoding
  · rw [encoding_rewritten hf, f.out_eightBit]
    exact ⟨fun h => ⟨h.seamless, fun _ => h⟩, fun h => h.2 hf⟩
  · rw [other_rewritten hf, f.out_copied]
    exact ⟨fun h => ⟨h, fun he => absurd he hf⟩, fun h => h.1⟩

/-- **A field whose encoding is replaced**, or that has none. -/
theorem rewritten_replaced : f.Rewritten (f.written f.IsEncoding) ↔ f.Replaced := by
  by_cases hf : f.IsEncoding
  · rw [decide_eq_true hf]
    show f.Rewritten (f.name ++ COLON :: (ascii " 8BIT" ++ f.out true)) ↔ _
    rw [encoding_rewritten hf, f.out_replaced]
    exact ⟨fun h => ⟨h.1, fun _ => h.2⟩, fun h => ⟨h.1, h.2 hf⟩⟩
  · rw [decide_eq_false hf]
    show f.Rewritten (f.name ++ COLON :: f.out false) ↔ _
    rw [other_rewritten hf, f.out_copied]
    exact ⟨fun h => ⟨h, fun he => absurd he hf⟩, fun h => h.1⟩

/-- A field that comes out octet by octet. -/
theorem rewritten_text : f.Rewritten f.text ↔ (f.IsEncoding → EightBit f.value) := by
  have htext : f.text = f.name ++ COLON :: (f.value ++ CRLF) := by
    rw [HeaderField.text, List.append_assoc]
    rfl
  rw [htext]
  by_cases hf : f.IsEncoding
  · rw [encoding_rewritten hf]
    constructor
    · rintro ⟨v, hv, heq⟩ -
      rw [List.append_cancel_right heq]
      exact hv
    · exact fun h => ⟨f.value, h hf, rfl⟩
  · rw [other_rewritten hf]
    exact ⟨fun _ he => absurd he hf, fun _ => rfl⟩

/-- The first field, and the others behind what it leaves. -/
theorem fieldsRewritten_cons {out : List Byte} (hrun : mailRun env ctx f.text = .ok ctx₁)
    (hem : ctx₁.emitted = ctx.emitted ++ out) : FieldsRewritten env ctx (f :: fs) ctx' ↔
      f.Rewritten out ∧ FieldsRewritten env ctx₁ fs ctx' := by
  constructor
  · rintro ⟨ctx₂, out', hrun', hem', hout, hrest⟩
    obtain rfl := Except.ok.inj (hrun.symm.trans hrun')
    obtain rfl := List.append_cancel_left (hem.symm.trans hem')
    exact ⟨hout, hrest⟩
  · rintro ⟨hout, hrest⟩
    exact ⟨ctx₁, out, hrun, hem, hout, hrest⟩

/-! ## The fields of a part that is not filtered -/

/-- What fields leave that are copied. -/
structure Passed (ctx : Ctx) (fs : List HeaderField) (ctx' : Ctx) : Prop extends
    Unfiltered ctx' where
  settled : Settled ctx → Settled ctx'
  hidden : ctx'.msg = .value ↔ fs = [] ∧ ctx.msg = .value ∨ HidesNext fs
  side : (ctx.msg = .value → ctx.msgContentTypeFieldDetected ≠ some true) →
    ctx'.typeSide = ctx.typeSide

/-- The first field of a header. -/
theorem headerText_cons (f : HeaderField) (fs : List HeaderField) :
    headerText (f :: fs) = f.text ++ headerText fs := rfl

/-- The last value is the only one, or one of the rest. -/
theorem hidesNext_cons : HidesNext (f :: fs) ↔ fs = [] ∧ EndsInSpace f.value ∨ HidesNext fs := by
  cases fs with
  | nil => simp [HidesNext]
  | cons g fs => simp [HidesNext, List.getLast?_cons_cons]

/-- **A field that is no content type** is copied and leaves the part unfiltered. -/
theorem Unfiltered.field_run (env : FilterEnv) (h : Unfiltered ctx)
    (hother : ¬ SameLetters f.name (ascii "Content-Type")) :
    ∃ ctx', mailRun env ctx f.text = .ok ctx' ∧ Unfiltered ctx' ∧ FieldRead ctx f ctx' ∧
      ctx'.emitted = ctx.emitted ++ f.written false := by
  have hlong : ctx.msg = .valueCrlf → ctx.rfc822Detected = true → f.name.length ≠ 1 := by
    rw [h.rfc822Detected]
    exact nofun
  obtain ⟨ctx', hrun, hread⟩ := h.toAhead.field_run env f hother hlong
  have hreplaces : ctx.replaces f = false := by simp [Ctx.replaces, h.apply]
  refine ⟨ctx', hrun, ⟨hread.ahead fun _ => hreplaces, hread.apply.trans h.apply,
    hread.rfc822Detected.trans h.rfc822Detected⟩, hread, ?_⟩
  rw [← hreplaces]
  exact emitted_of_mail hread.mail

/-- **Fields of a part that is not filtered** are copied. -/
theorem Unfiltered.fields_run (env : FilterEnv) (h : Unfiltered ctx)
    (hothers : ∀ f ∈ fs, ¬ SameLetters f.name (ascii "Content-Type")) :
    ∃ ctx', mailRun env ctx (headerText fs) = .ok ctx' ∧ Passed ctx fs ctx' ∧
      ∀ ctx'', FieldsRewritten env ctx fs ctx'' ↔ (∀ f ∈ fs, f.Kept) ∧ ctx'' = ctx' := by
  induction fs generalizing ctx with
  | nil =>
    refine ⟨ctx, rfl, ⟨h, id, ?_, fun _ => rfl⟩, fun ctx'' => ?_⟩
    · simp [HidesNext]
    · exact ⟨fun hsame => ⟨fun f hf => absurd hf List.not_mem_nil, hsame⟩, fun hboth => hboth.2⟩
  | cons f fs ih =>
    obtain ⟨ctx₁, hrun, h₁, hread, hem⟩ := h.field_run env (hothers f (by simp))
    obtain ⟨ctx', hrest, hpassed, hiff⟩ := ih h₁ fun g hg => hothers g (by simp [hg])
    obtain ⟨hends, -⟩ := behind_value hread.msg
    refine ⟨ctx', ?_, ⟨hpassed.toUnfiltered, fun hset => hpassed.settled (hset.run hrun), ?_, ?_⟩,
      fun ctx'' => ?_⟩
    · rw [headerText_cons, mailRun_append, hrun, ok_bind, hrest]
    · rw [hpassed.hidden, hends, hidesNext_cons]
      simp
    · intro htyped
      obtain ⟨hside, hnot⟩ := hread.side htyped
      exact (hpassed.side fun _ => hnot).trans hside
    · rw [fieldsRewritten_cons hrun hem, hiff, rewritten_kept, List.forall_mem_cons, and_assoc]

/-! ## The fields of a part that is filtered -/

/-- Octet by octet, once the tokenizer has given up. -/
theorem error_fields (env : FilterEnv) (h : ctx.msg = .error) :
    (∃ ctx', FieldsRewritten env ctx fs ctx') ↔ ∀ f ∈ fs, f.IsEncoding → EightBit f.value := by
  induction fs generalizing ctx with
  | nil => exact iff_of_true ⟨ctx, rfl⟩ fun f hf => absurd hf List.not_mem_nil
  | cons f fs ih =>
    obtain ⟨ctx₁, hrun, herror, hem⟩ := mailRun_error env h f.text
    simp only [fieldsRewritten_cons hrun hem, exists_and_left, ih herror, rewritten_text,
      List.forall_mem_cons]

/-- **Fields of a part that is filtered** come out as is asked for when they are amended. -/
theorem amended_fields (env : FilterEnv) (h : Ahead ctx) (happly : ctx.mediaFilterApply = true)
    (hbehind : ctx.msg ≠ .name0)
    (hothers : ∀ f ∈ fs, ¬ SameLetters f.name (ascii "Content-Type")) :
    (∃ ctx', FieldsRewritten env ctx fs ctx') ↔
      Amended ctx.rfc822Detected (ctx.msg = .value) fs := by
  induction fs generalizing ctx with
  | nil => exact iff_of_true ⟨ctx, rfl⟩ trivial
  | cons f fs ih =>
    have hother := hothers f (by simp)
    have hothers' : ∀ g ∈ fs, ¬ SameLetters g.name (ascii "Content-Type") := fun g hg =>
      hothers g (by simp [hg])
    -- what comes behind a field that has been read
    have hnext {ctx₁ : Ctx} (hread : FieldRead ctx f ctx₁)
        (hseen : EndsInSpace f.value → ctx.replaces f = false) :
        (∃ ctx', FieldsRewritten env ctx₁ fs ctx') ↔
          Amended ctx.rfc822Detected (EndsInSpace f.value) fs := by
      obtain ⟨hends, hbehind₁⟩ := behind_value hread.msg
      rw [ih (hread.ahead hseen) (hread.apply.trans happly) hbehind₁ hothers',
        hread.rfc822Detected, propext hends]
    by_cases hs : ctx.msg = .value
    · obtain ⟨ctx₁, hrun, hread⟩ := h.hidden_run env hs f
      have hreplaces : ctx.replaces f = false := by simp [Ctx.replaces, hs]
      have hem := emitted_of_mail hread.mail
      rw [hreplaces] at hem
      simp only [fieldsRewritten_cons hrun hem, exists_and_left, rewritten_kept,
        hnext hread fun _ => hreplaces]
      simp [Amended, hs]
    · by_cases hone : ctx.rfc822Detected = true ∧ f.name.length = 1
      -- the name is not understood, nor what follows it
      · have hcrlf : ctx.msg = .valueCrlf := by
          rcases h.state with ⟨hstart, -⟩ | hcrlf | ⟨hhidden, -⟩
          · exact absurd hstart hbehind
          · exact hcrlf
          · exact absurd hhidden hs
        obtain ⟨ctx₁, hopen, herror, hem₁⟩ := opening_error env hcrlf hone.1 f hone.2
        obtain ⟨ctx₂, hvalue, herror', hem₂⟩ := mailRun_error env herror (f.value ++ CRLF)
        have hrun : mailRun env ctx f.text = .ok ctx₂ := by
          rw [f.text_eq, mailRun_append, hopen, ok_bind, hvalue]
        have hem : ctx₂.emitted = ctx.emitted ++ f.text := by
          rw [hem₂, hem₁, f.text_eq, List.append_assoc]
        have hplain : ¬ f.IsEncoding := by
          intro he
          have hlen := sameLetters_length he
          rw [hone.2] at hlen
          exact absurd hlen (by decide)
        simp only [fieldsRewritten_cons hrun hem, exists_and_left, rewritten_text,
          error_fields env herror']
        simp [Amended, hs, hone, hplain]
      · obtain ⟨ctx₁, hrun, hread⟩ := h.field_run env f hother fun _ hrfc822 hlen =>
          hone ⟨hrfc822, hlen⟩
        have hreplaces : ctx.replaces f = decide f.IsEncoding := by
          rw [Bool.eq_iff_iff, decide_eq_true_iff, Ctx.replaces, decide_eq_true_iff]
          exact ⟨fun hall => hall.2.1, fun he => ⟨hs, he, happly⟩⟩
        have hem := emitted_of_mail hread.mail
        rw [hreplaces] at hem
        simp only [fieldsRewritten_cons hrun hem, exists_and_left, rewritten_replaced]
        have hrest : f.Replaced ∧ (∃ ctx', FieldsRewritten env ctx₁ fs ctx') ↔
            f.Replaced ∧ Amended ctx.rfc822Detected (EndsInSpace f.value) fs := by
          refine and_congr_right fun hreplaced => hnext hread fun hends => ?_
          rw [hreplaces]
          exact decide_eq_false fun he => hreplaced.2 he hends
        rw [hrest]
        simp [Amended, hs, hone]

/-! ## The header -/

/-- A list with an entry is not empty. -/
theorem OnList.ne_nil {ts : List TypeList} {x y : List Byte} (h : OnList ts x y) : ts ≠ [] := by
  rintro rfl
  obtain ⟨t, ht, -⟩ := h
  cases ht

/-- A part that is awaited is not filtered yet. -/
theorem PartAwaited.front (h : PartAwaited ctx) : Unfiltered ctx := by
  refine ⟨⟨congrArg Prod.fst h.unnamed.typeName, congrArg Prod.fst h.unnamed.encodingName,
    h.replace, Or.inl ⟨h.msg, congrArg Prod.snd h.unnamed.typeName,
      congrArg Prod.snd h.unnamed.encodingName⟩⟩, h.toTypeAwaited.unfiltered, h.rfc822Detected⟩

/-- In front of the type nothing has been decided. -/
theorem Passed.awaited {fs : List HeaderField} (h : Passed ctx fs ctx')
    (hawaited : PartAwaited ctx) :
    TypeAwaited ctx' ∧ ctx'.mediaTypes = ctx.mediaTypes ∧
      ctx'.messageDetected = ctx.messageDetected ∧ (ctx'.msg ≠ .value ↔ ¬ HidesNext fs) := by
  have hside : ctx'.typeSide = ctx.typeSide := by
    apply h.side
    rw [hawaited.msg]
    exact nofun
  have htypes : ctx'.mediaTypes = ctx.mediaTypes := congrArg TypeSide.mediaTypes hside
  refine ⟨⟨?_, ?_, h.apply⟩, htypes, congrArg TypeSide.messageDetected hside, ?_⟩
  · exact (congrArg TypeSide.contentType hside).trans hawaited.state
  · rw [htypes]
    exact hawaited.types
  · rw [Ne, h.hidden, hawaited.msg]
    simp

/-- **The header of a part** whose type is on the list comes out with `text/plain` and `8BIT`
exactly when field by field it does. -/
theorem part_header_rewritten (env : FilterEnv) {ctx : Ctx} (h : PartAwaited ctx) (p : PartHeader)
    (hlist : OnList ctx.mediaTypes p.field.type p.field.subtype) :
    HeaderRewritten env ctx p ↔ HeaderAmended ctx p := by
  have hbefore : ∀ f ∈ p.before, ¬ SameLetters f.name (ascii "Content-Type") := fun f hf =>
    p.once f (List.mem_append_left _ hf)
  have hafter : ∀ f ∈ p.after, ¬ SameLetters f.name (ascii "Content-Type") := fun f hf =>
    p.once f (List.mem_append_right _ hf)
  obtain ⟨ctx₁, -, hpassed, hfirst⟩ := h.front.fields_run env hbefore
  obtain ⟨hawaited, htypes, hflag, hseen⟩ := hpassed.awaited h
  obtain ⟨hretypes, hdecided⟩ := p.field.retypedBy_iff env hpassed.toUnfiltered
    (hpassed.settled h.toSettled) hawaited (by rw [htypes]; exact hlist.ne_nil)
  rw [htypes, propext hseen] at hretypes
  -- behind the type, as it has been decided on
  have hbehind {ctx₂ : Ctx} (h₂ : p.field.RetypedBy env ctx₁ ctx₂) :
      (∃ ctx₃, FieldsRewritten env ctx₂ p.after ctx₃) ↔
        (p.field.Filters ctx.mediaTypes (¬ HidesNext p.before) →
          Amended (p.field.encloses ctx.messageDetected) (EndsInSpace p.field.field.value)
          p.after) ∧
        (¬ p.field.Filters ctx.mediaTypes (¬ HidesNext p.before) → ∀ f ∈ p.after, f.Kept) := by
    obtain ⟨hyes, hno⟩ := hdecided ctx₂ h₂
    rw [htypes, propext hseen] at hyes hno
    by_cases hfilters : p.field.Filters ctx.mediaTypes (¬ HidesNext p.before)
    · obtain ⟨hctx₂, hrfc822⟩ := hyes hfilters
      obtain ⟨hends, hstart⟩ := behind_value hctx₂.msg
      rw [amended_fields env hctx₂.toAhead hctx₂.apply hstart hafter, hrfc822, hflag, propext hends]
      exact ⟨fun hamended => ⟨fun _ => hamended, fun hnot => absurd hfilters hnot⟩,
        fun hboth => hboth.1 hfilters⟩
    · obtain ⟨hctx₂, hrfc822⟩ := hno hfilters
      have hquiet : Unfiltered ctx₂ := ⟨hctx₂.toAhead, hctx₂.apply, hrfc822⟩
      obtain ⟨ctx₃, -, -, hlast⟩ := hquiet.fields_run env hafter
      simp only [hlast, exists_eq_right]
      exact ⟨fun hkept => ⟨fun hyes => absurd hyes hfilters, fun _ => hkept⟩,
        fun hboth => hboth.2 hfilters⟩
  constructor
  · rintro ⟨ctx', ctx₂, ctx₃, h₁, h₂, h₃⟩
    obtain ⟨hkept, rfl⟩ := (hfirst ctx').mp h₁
    obtain ⟨hfiltered, hunfiltered⟩ := (hbehind h₂).mp ⟨ctx₃, h₃⟩
    exact ⟨hkept, hretypes.mp ⟨ctx₂, h₂⟩, hfiltered, hunfiltered⟩
  · intro hamended
    obtain ⟨ctx₂, h₂⟩ := hretypes.mpr hamended.field
    obtain ⟨ctx₃, h₃⟩ := (hbehind h₂).mpr ⟨hamended.filtered, hamended.unfiltered⟩
    exact ⟨ctx₁, ctx₂, ctx₃, (hfirst ctx₁).mpr ⟨hamended.before, rfl⟩, h₂, h₃⟩

end

/-- In front of a mail. -/
theorem initial_awaited {entries : List (List Byte × List Byte)}
    (h : FreshTypes (mediaTypesOf entries)) : PartAwaited (Filter.initial entries).ctx where
  state := rfl
  types := h
  unfiltered := rfl
  toSettled := (@Reached.initial {} entries).settled
  msg := rfl
  unnamed := ⟨rfl, rfl⟩
  rfc822Detected := rfl

/-- `Content-Type: image/png` and a parameter, between two other fields. -/
def pngHeader : PartHeader where
  before := [{
    name := ascii "MIME-Version", line := ascii "1.0", lines := []
    name_ne := by decide, name_chars := by decide +kernel, plain := by decide, continued := nofun }]
  field := {
    field := {
      name := ascii "Content-Type", line := ascii " image/png;a=b", lines := []
      name_ne := by decide, name_chars := by decide +kernel, plain := by decide, continued :=
        nofun }
    space := ⟨[SP], [], by decide, nofun⟩
    type := ascii "image"
    subtype := ascii "png"
    rest := ⟨ascii ";a=b", [], by decide, nofun⟩
    named := rfl
    value_eq := by decide
    space_white := by decide +kernel
    type_restricted := imagePng.type_restricted
    subtype_restricted := imagePng.subtype_restricted
    rest_apart := by
      rintro (_ | ⟨d, sp⟩) c b h hsp
      · obtain rfl := (List.cons.inj h).1
        decide
      -- the semicolon is not white
      · obtain rfl := (List.cons.inj h).1
        exact absurd (hsp SEMICOLON List.mem_cons_self) (by decide) }
  after := [{
    name := ascii "Content-Transfer-Encoding", line := ascii " base64", lines := []
    name_ne := by decide, name_chars := by decide +kernel, plain := by decide, continued := nofun }]
  once := by decide

/-- It comes out with `text/plain`, its parameter and `8BIT` when the list has `image/png`. -/
theorem part_header_rewritten_png :
    PartAwaited (Filter.initial [(ascii "image", ascii "png")]).ctx ∧
      OnList (Filter.initial [(ascii "image", ascii "png")]).ctx.mediaTypes (ascii "image")
        (ascii "png") ∧
      HeaderRewritten {} (Filter.initial [(ascii "image", ascii "png")]).ctx pngHeader := by
  have hawaited : PartAwaited (Filter.initial [(ascii "image", ascii "png")]).ctx := by
    refine initial_awaited ⟨by decide, ?_⟩
    intro t ht s p hs
    obtain rfl : t = ⟨ascii "image", 0, [.named (ascii "png") 0]⟩ := List.mem_singleton.mp ht
    obtain ⟨-, rfl⟩ := Subtype.named.inj (List.mem_singleton.mp hs)
    rfl
  have hlist :
    OnList [⟨ascii "image", 0, [.named (ascii "png") 0]⟩] (ascii "image") (ascii "png") :=
    ⟨_, List.mem_singleton_self _, by decide, _, List.mem_singleton_self _, rfl⟩
  refine ⟨hawaited, hlist, (part_header_rewritten {} hawaited pngHeader hlist).mpr ?_⟩
  have hseen : ¬ HidesNext pngHeader.before := by
    rintro ⟨f, hf, c, hc, hspace⟩
    obtain rfl := Option.some.inj hf
    obtain rfl := Option.some.inj hc
    exact absurd hspace (by decide)
  have hfilters :
    pngHeader.field.Filters (Filter.initial [(ascii "image", ascii "png")]).ctx.mediaTypes
      (¬ HidesNext pngHeader.before) :=
    ⟨hseen, rfl, by decide, _, rfl, _, List.mem_singleton_self _, by decide, by decide⟩
  refine ⟨?_, ⟨trivial, trivial, ?_, ?_, fun hnot => absurd hfilters hnot⟩, fun _ => ?_,
    fun hnot => absurd hfilters hnot⟩
  · intro f hf
    obtain rfl := List.mem_singleton.mp hf
    exact ⟨trivial, fun he => absurd he (by decide)⟩
  · intro _ _ t ht hwild
    obtain rfl := Option.some.inj ht
    exact absurd hwild (by decide)
  · intro _
    refine ⟨?_, rfl⟩
    rintro ⟨-, t, ht, s, hs, hbegins⟩
    obtain rfl := Option.some.inj ht
    obtain rfl := List.mem_singleton.mp hs
    exact absurd hbegins.2 (by decide)
  -- the encoding is not hidden, and nothing is enclosed
  · refine ⟨fun hhidden => absurd hhidden (by decide), fun _ hone => absurd hone.1 (by decide), ?_⟩
    exact fun _ _ => ⟨⟨trivial, fun _ => by decide⟩, trivial⟩

/-- With a wildcard the type is replaced by the first octet of the subtype, and the others
are left. -/
theorem part_header_wildcard : ¬ ∀ (ctx : Ctx), PartAwaited ctx → ∀ p : PartHeader,
    OnList ctx.mediaTypes p.field.type p.field.subtype → HeaderRewritten {} ctx p := by
  intro h
  have hawaited : PartAwaited (Filter.initial [(ascii "image", ascii "*")]).ctx := by
    refine initial_awaited ⟨by decide, ?_⟩
    intro t ht s p hs
    obtain rfl : t = ⟨ascii "image", 0, [.wildcard]⟩ := List.mem_singleton.mp ht
    cases List.mem_singleton.mp hs
  have hlist : OnList [⟨ascii "image", 0, [.wildcard]⟩] (ascii "image") (ascii "png") :=
    ⟨_, List.mem_singleton_self _, by decide, _, List.mem_singleton_self _, trivial⟩
  obtain ⟨ctx₁, ctx₂, -, rfl, ⟨hrun, hem⟩, -⟩ :=
    h _ hawaited ⟨[], pngHeader.field, [], nofun⟩ hlist
  have hout : (mailRun {} (Filter.initial [(ascii "image", ascii "*")]).ctx
      pngHeader.field.field.text).map Ctx.emitted =
        .ok (ascii "Content-Type: text/plainng;a=b" ++ CRLF) := by decide +kernel
  rw [hrun] at hout
  exact absurd (hem.symm.trans (Except.ok.inj hout)) (by decide +kernel)

end Pop3Proxy
