/-
# The boundary parameter

The boundary of a multipart is a parameter of its content type.  The parser of
content types sees the first parameter only, and only if its value is in quotes; the
name it compares with `boundary` and the text it collects may have begun in an
earlier field.
-/
import Pop3Proxy.Filter.Listed

namespace Pop3Proxy

/-! ## Values of a content type -/

/-- `'\'` -/
abbrev BACKSLASH : Byte := 92

/-- `qtext` -/
def qtextChar (c : Byte) : Bool := c ≠ QUOTE && c ≠ BACKSLASH && c ≠ CR

/-- An octet of a `token`. -/
def tokenChar (c : Byte) : Bool :=
  32 < c && c < 127 && c ≠ QUOTE && c ≠ BACKSLASH && !(ascii "()<>@,;:/[]?=").contains c

/-- `restricted-name` -/
structure RestrictedName (name : List Byte) : Prop where
  first : ∀ c ∈ name.head?, initCharClass .restNameFirst c = true
  chars : ∀ c ∈ name, initCharClass .restNameChars c = true
  ne : name ≠ []

/-- An octet in quotes, by itself or behind a backslash. -/
inductive QuotedOctet where
  | qtext (c : Byte)
  | quotedPair (c : Byte)

namespace QuotedOctet

/-- The octet meant. -/
def octet : QuotedOctet → Byte
  | .qtext c => c
  | .quotedPair c => c

/-- The octets written. -/
def octets : QuotedOctet → List Byte
  | .qtext c => [c]
  | .quotedPair c => [BACKSLASH, c]

/-- What the grammar allows between quotes. -/
def WellFormed : QuotedOctet → Prop
  | .qtext c => qtextChar c = true
  | .quotedPair c => c ≠ CR

end QuotedOctet

/-- The value of a parameter, with quotes or without. -/
inductive ParameterValue where
  | quoted (content : List QuotedOctet)
  | token (text : List Byte)

namespace ParameterValue

/-- What the value stands for. -/
def text : ParameterValue → List Byte
  | .quoted content => content.map QuotedOctet.octet
  | .token text => text

/-- The value as it stands in the mail. -/
def octets : ParameterValue → List Byte
  | .quoted content => QUOTE :: (content.flatMap QuotedOctet.octets ++ [QUOTE])
  | .token text => text

/-- What the grammar allows as the value of a parameter. -/
def WellFormed : ParameterValue → Prop
  | .quoted content => ∀ q ∈ content, q.WellFormed
  | .token text => text ≠ [] ∧ ∀ c ∈ text, tokenChar c = true

end ParameterValue

/-- A parameter of a field, without the semicolon. -/
structure Parameter where
  name : List Byte
  value : ParameterValue
  restricted : RestrictedName name
  wellFormed : value.WellFormed

/-- The name is `boundary`, in whatever case. -/
def Parameter.isBoundary (p : Parameter) : Bool := p.name.map tolower = ascii "boundary"

/-- `; name=value` -/
def Parameter.octets (p : Parameter) : List Byte :=
  SEMICOLON :: SP :: (p.name ++ EQUALS :: p.value.octets)

/-- A type, a subtype and parameters, of which one at most is the boundary. -/
structure ContentTypeValue where
  type : List Byte
  subtype : List Byte
  parameters : List Parameter
  type_restricted : RestrictedName type
  subtype_restricted : RestrictedName subtype
  once : (parameters.filter Parameter.isBoundary).length ≤ 1

namespace ContentTypeValue

/-- The value of the field as it stands in the mail. -/
def octets (v : ContentTypeValue) : List Byte :=
  v.type ++ SLASH :: (v.subtype ++ v.parameters.flatMap Parameter.octets)

/-- The value of the boundary parameter, if there is one. -/
def boundary (v : ContentTypeValue) : Option (List Byte) :=
  (v.parameters.find? Parameter.isBoundary).map (·.value.text)

end ContentTypeValue

/-- The value of the field pushes the boundary, once, and nothing else. -/
def PushesBoundary (env : FilterEnv) (ctx : Ctx) (v : ContentTypeValue) : Prop :=
  ∃ ctx', mailRun env ctx v.octets = .ok ctx' ∧
    ctx'.boundryStack = v.boundary.toList ++ ctx.boundryStack

/-! ## When it does -/

/-- White space is not part of the value. -/
def unspaced (bs : List Byte) : List Byte := bs.filter fun c => !lwspChar c

/-- The value is read to its end: the part is filtered already, or the list of types says
whether it is, and there is a space to write the replacement behind. -/
def ReadOut (ctx : Ctx) (v : ContentTypeValue) : Prop :=
  ctx.mediaFilterApply = true ∨
    ∃ b, ctx.listed v.type v.subtype = .ok b ∧ (b = true → SP ∈ ctx.mail.left)

/-- The parser of content types was left behind the quotes of a boundary. -/
def LeftOpen (ctx : Ctx) : Prop :=
  ctx.mediaFilterApply = false ∧ ctx.contentType = .delimiterEnd ∧ ctx.boundaryDetected = true

/-- The value is in quotes, and the parser takes every octet of it. -/
def Parameter.Taken (p : Parameter) : Prop :=
  ∃ content, p.value = .quoted content ∧
    ∀ c ∈ unspaced (content.flatMap QuotedOctet.octets), quotedChar c = true

/-- A boundary has been detected behind the name: earlier, or because what the matcher
still waits for is where the name begins. -/
def Detects (ctx : Ctx) (name : List Byte) : Prop :=
  ctx.boundaryDetected = true ∨ boundaryTail ctx.boundaryParserDetector ≠ [] ∧
    boundaryTail ctx.boundaryParserDetector <+: name.map tolower

/-- The first parameter is taken for the boundary: the part is not filtered, the parser of
content types is where a type begins, and gets to the closing quote. -/
structure TakenForBoundary (ctx : Ctx) (v : ContentTypeValue) (p : Parameter) : Prop where
  unfiltered : ctx.mediaFilterApply = false
  start : ctx.contentType = .type0 ∨ ctx.contentType = .type
  unlisted : ctx.listed v.type v.subtype = .ok false
  first : v.parameters.head? = some p
  taken : p.Taken
  detects : Detects ctx p.name

/-- The name that is pushed for a boundary: what was left of an earlier one, the text
without white space when the matcher was at its start, and what is read behind it. -/
def collectedName (env : FilterEnv) (ctx : Ctx) (text : List Byte) : List Byte :=
  cstr (ctx.boundaryName ++ (if ctx.boundaryParserDetector = 0 then unspaced text else []) ++
    env.behind ctx.strings)

/-- The value comes to its end.  A boundary is the only parameter, is taken for one, and is
what is collected; without a boundary nothing is taken for one. -/
def ReadsBoundary (env : FilterEnv) (ctx : Ctx) (v : ContentTypeValue) : Prop :=
  ReadOut ctx v ∧ match v.boundary with
    | none => ¬ LeftOpen ctx ∧ ∀ p, ¬ TakenForBoundary ctx v p
    | some b => ∃ p, v.parameters = [p] ∧ TakenForBoundary ctx v p ∧
        collectedName env ctx p.value.text = b

section
variable {env : FilterEnv} {ctx ctx' : Ctx} {c : Byte} {bs : List Byte}

/-! ## What the watcher sees -/

/-- The octet that completes an entry of the list is one of the subtype. -/
theorem InTypeValue.completes (h : InTypeValue ctx) (hcr : c ≠ CR)
    (happly : ctx.mediaFilterApply = false) (hres : mimeMsg env ctx c = .ok ctx')
    (happly' : ctx'.mediaFilterApply = true) :
    lwspChar c = false ∧ ctx'.contentType = .subtype := by
  have hspace : lwspChar c = false := by
    by_contra hc
    rw [h.space (by simpa using hc)] at hres
    obtain rfl := Except.ok.inj hres
    exact absurd (happly.symm.trans happly') (by simp)
  refine ⟨hspace, ?_⟩
  rw [h.parsed happly hspace hcr] at hres
  obtain ⟨ctx₁, h₁, hres⟩ := bind_eq_ok.mp hres
  have heq := writeValue_eq hres
  rw [heq] at happly' ⊢
  obtain ⟨hwatch, -⟩ := contentTypeMsg_watcher h₁
  have heff := contentTypeMsg_effect (by exact happly) h₁
  obtain ⟨hstate, hrest, -⟩ := (heff.apply.mp happly').resolve_left (by simp [happly])
  have hsemi : c ≠ SEMICOLON := by
    rintro rfl
    exact absurd hrest (by decide)
  show ctx₁.watcher.contentType = .subtype
  rw [hwatch, Watcher.step_contentType]
  show (mimeTypeFeed ctx.contentType c).1 = .subtype
  rw [show ctx.contentType = .subtype from hstate, mimeTypeFeed_subtype, if_neg hsemi, if_pos hrest]

/-- White space is left out on both sides of a cut. -/
theorem unspaced_append (bs cs : List Byte) : unspaced (bs ++ cs) = unspaced bs ++ unspaced cs :=
  List.filter_append ..

/-- **A value that is read to its end**: the watcher has seen all of it but white space, or
an entry of the list was completed, and nothing pushed. -/
theorem InTypeValue.watched (h : InTypeValue ctx) (hbs : CR ∉ bs)
    (hres : mailRun env ctx bs = .ok ctx') :
    (ctx'.mediaFilterApply = false → ctx'.watcher = ctx.watcher.run env (unspaced bs)) ∧
      (ctx'.mediaFilterApply = true → ctx'.boundryStack = ctx.boundryStack) ∧ InTypeValue ctx' := by
  induction bs using List.reverseRecOn generalizing ctx' with
  | nil =>
    obtain rfl := Except.ok.inj hres
    exact ⟨fun _ => rfl, fun _ => rfl, h⟩
  | append_singleton bs c ih =>
    simp only [List.mem_append, List.mem_singleton, not_or] at hbs
    rw [mailRun_concat] at hres
    obtain ⟨ctx₁, h₁, hres⟩ := bind_eq_ok.mp hres
    obtain ⟨hwatch, hstack, hin⟩ := ih hbs.1 h₁
    obtain ⟨hin', hstep⟩ := hin.step (Ne.symm hbs.2) hres
    rw [unspaced_append, Watcher.run_append]
    have hstacks (h₁ : ctx'.watcher = ctx₁.watcher) : ctx'.boundryStack = ctx₁.boundryStack :=
      congrArg Watcher.boundryStack h₁
    by_cases happly₁ : ctx₁.mediaFilterApply = true
    · obtain ⟨ctx₂, h₂, happly₂⟩ := hin.copies env happly₁ (Ne.symm hbs.2)
      obtain rfl := Except.ok.inj (h₂.symm.trans hres)
      rw [if_pos (.inr happly₁)] at hstep
      refine ⟨fun hno => absurd (hno.symm.trans happly₂) (by simp), fun _ => ?_, hin'⟩
      exact (hstacks hstep).trans (hstack happly₁)
    have happly₁' : ctx₁.mediaFilterApply = false := by simpa using happly₁
    rw [← hwatch happly₁']
    by_cases hc : lwspChar c = true
    · rw [if_pos (.inl hc)] at hstep
      have hnil : unspaced [c] = [] := by simp [unspaced, hc]
      rw [hnil]
      refine ⟨fun _ => hstep, fun hyes => ?_, hin'⟩
      obtain ⟨hno, -⟩ := hin.completes (Ne.symm hbs.2) happly₁' hres hyes
      exact absurd (hc.symm.trans hno) (by simp)
    · rw [if_neg (by simp [hc, happly₁])] at hstep
      have hone : unspaced [c] = [c] := by simp [unspaced, hc]
      rw [hone]
      refine ⟨fun _ => hstep, fun hyes => ?_, hin'⟩
      -- nothing was pushed before the subtype, and nothing with it
      obtain ⟨-, hsub⟩ := hin.completes (Ne.symm hbs.2) happly₁' hres hyes
      have hrun : ctx'.watcher = ctx.watcher.run env (unspaced bs ++ [c]) := by
        rw [hstep, hwatch happly₁', Watcher.run_concat]
      show ctx'.watcher.boundryStack = ctx.watcher.boundryStack
      rw [hrun]
      apply Watcher.run_stack
      rw [← hrun, show ctx'.watcher.contentType = .subtype from hsub]
      exact nofun

/-! ## The octets of a value -/

/-- A restricted name has no white space to leave out. -/
theorem unspaced_eq_self {bs : List Byte} (h : ∀ c ∈ bs, initCharClass .restNameChars c = true) :
    unspaced bs = bs := by
  apply List.filter_eq_self.mpr
  intro c hc
  simp [(restNameChars_plain c (h c hc)).1]

/-- The quotes of a value are no white space. -/
theorem unspaced_quotes (content : List QuotedOctet) :
    unspaced (ParameterValue.quoted content).octets =
      QUOTE :: (unspaced (content.flatMap QuotedOctet.octets) ++ [QUOTE]) := by
  rw [show (ParameterValue.quoted content).octets =
      [QUOTE] ++ (content.flatMap QuotedOctet.octets ++ [QUOTE]) from rfl,
    unspaced_append, unspaced_append, (by decide : unspaced [QUOTE] = [QUOTE])]
  rfl

/-- The parser takes no backslash, so what it takes is what is meant. -/
theorem octets_eq_text {content : List QuotedOctet}
    (h : ∀ c ∈ unspaced (content.flatMap QuotedOctet.octets), quotedChar c = true) :
    content.flatMap QuotedOctet.octets = content.map QuotedOctet.octet := by
  induction content with
  | nil => rfl
  | cons q content ih =>
    rw [List.flatMap_cons, unspaced_append] at h
    rw [List.flatMap_cons, List.map_cons, ih fun c hc => h c (List.mem_append_right _ hc)]
    cases q with
    | qtext c => rfl
    | quotedPair c =>
      have hslash : BACKSLASH ∈ unspaced (QuotedOctet.quotedPair c).octets :=
        List.mem_filter.mpr ⟨List.mem_cons_self, by decide⟩
      exact absurd (h BACKSLASH (List.mem_append_left _ hslash)) (by decide)

/-- Nor are the semicolon, the name and the equals sign. -/
theorem Parameter.unspaced_octets (p : Parameter) :
    unspaced p.octets = (SEMICOLON :: p.name) ++ EQUALS :: unspaced p.value.octets := by
  have hsemi : unspaced (SEMICOLON :: SP :: []) = [SEMICOLON] := by decide
  have hequals : unspaced [EQUALS] = [EQUALS] := by decide
  rw [show p.octets = [SEMICOLON, SP] ++ (p.name ++ ([EQUALS] ++ p.value.octets)) from rfl,
    unspaced_append, unspaced_append, unspaced_append, hsemi, hequals,
    unspaced_eq_self p.restricted.chars]
  simp

/-- A value is read as if its white space were not there. -/
theorem ContentTypeValue.unspaced_octets (v : ContentTypeValue) : unspaced v.octets =
    (v.type ++ SLASH :: v.subtype) ++ v.parameters.flatMap fun p => unspaced p.octets := by
  have hslash : unspaced [SLASH] = [SLASH] := by decide
  have hflat : unspaced (v.parameters.flatMap Parameter.octets) =
      v.parameters.flatMap fun p => unspaced p.octets := List.filter_flatMap ..
  rw [show v.octets = v.type ++ ([SLASH] ++ (v.subtype ++ v.parameters.flatMap Parameter.octets))
    from rfl, unspaced_append, unspaced_append, unspaced_append, hslash, hflat,
    unspaced_eq_self v.type_restricted.chars, unspaced_eq_self v.subtype_restricted.chars]
  simp

/-- No CR stands between quotes. -/
theorem QuotedOctet.WellFormed.noCr {q : QuotedOctet} (h : q.WellFormed) : CR ∉ q.octets := by
  intro hmem
  cases q with
  | qtext c =>
    obtain rfl : CR = c := List.mem_singleton.mp hmem
    have hqtext : qtextChar CR = true := h
    exact absurd hqtext (by decide)
  | quotedPair c =>
    rcases List.mem_cons.mp hmem with hmem | hmem
    · exact absurd hmem (by decide)
    · exact h (List.mem_singleton.mp hmem).symm

/-- Nor anywhere in the value of a parameter. -/
theorem ParameterValue.WellFormed.noCr {u : ParameterValue} (h : u.WellFormed) : CR ∉ u.octets := by
  intro hmem
  cases u with
  | quoted content =>
    simp only [ParameterValue.octets, List.mem_cons, List.mem_append, List.not_mem_nil,
      or_false] at hmem
    rcases hmem with hmem | hmem | hmem
    · exact absurd hmem (by decide)
    · obtain ⟨q, hq, hmem⟩ := List.mem_flatMap.mp hmem
      exact (h q hq).noCr hmem
    · exact absurd hmem (by decide)
  | token text => exact absurd (h.2 CR hmem) (by decide)

/-- Nor in a restricted name. -/
theorem RestrictedName.noCr {name : List Byte} (h : RestrictedName name) : CR ∉ name :=
  fun hmem => absurd (h.chars CR hmem) (by decide)

/-- Nor in the parameters. -/
theorem ContentTypeValue.noCr_parameters (v : ContentTypeValue) :
    CR ∉ v.parameters.flatMap Parameter.octets := by
  intro hmem
  obtain ⟨p, -, hmem⟩ := List.mem_flatMap.mp hmem
  simp only [Parameter.octets, List.mem_cons, List.mem_append] at hmem
  rcases hmem with hmem | hmem | hmem | hmem | hmem
  · exact absurd hmem (by decide)
  · exact absurd hmem (by decide)
  · exact p.restricted.noCr hmem
  · exact absurd hmem (by decide)
  · exact p.wellFormed.noCr hmem

/-- So none stands in the whole value. -/
theorem ContentTypeValue.noCr (v : ContentTypeValue) : CR ∉ v.octets := by
  intro hmem
  simp only [ContentTypeValue.octets, List.mem_cons, List.mem_append] at hmem
  rcases hmem with hmem | hmem | hmem | hmem
  · exact v.type_restricted.noCr hmem
  · exact absurd hmem (by decide)
  · exact v.subtype_restricted.noCr hmem
  · exact v.noCr_parameters hmem

/-- **The value is read to its end** exactly when the list of types lets it. -/
theorem ContentTypeValue.readOut (env : FilterEnv) (v : ContentTypeValue) (h : InTypeValue ctx) :
    ((∃ ctx', mailRun env ctx v.octets = .ok ctx') ↔ ReadOut ctx v) ∧
      ∀ ctx', mailRun env ctx v.octets = .ok ctx' → ctx.mediaFilterApply = false →
        ctx.listed v.type v.subtype = .ok ctx'.mediaFilterApply := by
  by_cases happly : ctx.mediaFilterApply = true
  · obtain ⟨ctx', hrun, -⟩ := h.copied env happly v.noCr
    exact ⟨iff_of_true ⟨ctx', hrun⟩ (.inl happly), fun _ _ hno => absurd happly (by simp [hno])⟩
  · have hhead : ∀ d rest', v.parameters.flatMap Parameter.octets = d :: rest' →
        lwspChar d = false ∧ initCharClass .restNameChars d = false := by
      intro d rest' heq
      have hd : d = SEMICOLON := by
        cases hp : v.parameters with
        | nil => simp [hp] at heq
        | cons p ps =>
          rw [hp, List.flatMap_cons, Parameter.octets] at heq
          exact (List.cons.inj heq).1.symm
      rw [hd]
      exact ⟨by decide, by decide⟩
    have hdecides := h.decides env (by simpa using happly) v.type_restricted.first
      v.type_restricted.chars v.type_restricted.ne v.subtype_restricted.chars
        v.noCr_parameters hhead
    refine ⟨hdecides.runs.trans ?_, fun ctx' hrun _ => hdecides.filters ctx' hrun⟩
    exact ⟨.inr, fun hread => hread.resolve_left happly⟩

/-! ## Where the parser of content types ends -/

open Watcher in
/-- Left where no type begins, and not behind a closing quote, it gets to none. -/
theorem ContentTypeValue.mimeTypeAfter_left (v : ContentTypeValue) {p : MimeTypeState}
    (h0 : p ≠ .type0) (h1 : p ≠ .type) (hend : p ≠ .delimiterEnd) :
    mimeTypeAfter p (unspaced v.octets) ≠ .delimiterEnd := by
  obtain ⟨c, type, htype⟩ := List.exists_cons_of_ne_nil v.type_restricted.ne
  have hchars := v.type_restricted.chars
  rw [v.unspaced_octets]
  -- state by state, the octets of the type lead to an error or stay in the state
  cases p with
  | type0 => exact absurd rfl h0
  | type => exact absurd rfl h1
  | delimiterEnd => exact absurd rfl hend
  | subtype =>
    have hsame : mimeTypeAfter .subtype v.type = .subtype := by
      refine mimeTypeAfter_same fun c hc => ?_
      rw [mimeTypeFeed_subtype, if_neg, if_pos (hchars c hc)]
      rintro rfl
      exact absurd (hchars _ hc) (by decide)
    rw [List.append_assoc, mimeTypeAfter_append, hsame, List.cons_append,
      mimeTypeAfter_fails (by decide)]
    decide
  | parameter =>
    have hsame : mimeTypeAfter .parameter v.type = .parameter := by
      refine mimeTypeAfter_same fun c hc => ?_
      rw [mimeTypeFeed_parameter, if_pos (hchars c hc)]
    rw [List.append_assoc, mimeTypeAfter_append, hsame, List.cons_append,
      mimeTypeAfter_fails (by decide)]
    decide
  | delimiterStart =>
    have hc : c ≠ QUOTE := by
      rintro rfl
      exact absurd (hchars QUOTE (by simp [htype])) (by decide)
    have hfails : (mimeTypeFeed .delimiterStart c).1 = .error := by
      rw [mimeTypeFeed_delimiterStart, if_neg hc]
    rw [htype, List.cons_append, List.cons_append, mimeTypeAfter_fails hfails]
    decide
  | delimiter =>
    have hsame : mimeTypeAfter .delimiter (v.type ++ SLASH :: v.subtype) = .delimiter := by
      refine mimeTypeAfter_same fun c hc => ?_
      have hquoted : quotedChar c = true := by
        rcases List.mem_append.mp hc with hc | hc
        · simp [quotedChar, hchars c hc]
        · rcases List.mem_cons.mp hc with rfl | hc
          · decide
          · simp [quotedChar, v.subtype_restricted.chars c hc]
      rw [mimeTypeFeed_delimiter, ← quotedChar, if_pos hquoted]
    rw [mimeTypeAfter_append, hsame]
    cases v.parameters with
    | nil => decide
    | cons q ps =>
      rw [List.flatMap_cons, q.unspaced_octets, List.cons_append, List.cons_append,
        mimeTypeAfter_fails (by decide)]
      decide
  | error =>
    rw [mimeTypeAfter_same fun c _ => by rw [mimeTypeFeed_error]]
    decide

open Watcher in
/-- Nor does it get through quotes with an octet it does not expect. -/
theorem mimeTypeAfter_content {content : List QuotedOctet} (hwell : ∀ q ∈ content, q.WellFormed)
    (hbad : ∃ c ∈ unspaced (content.flatMap QuotedOctet.octets), quotedChar c = false)
    (bs : List Byte) :
    mimeTypeAfter .delimiter (unspaced (content.flatMap QuotedOctet.octets) ++ bs) = .error := by
  induction content with
  | nil =>
    obtain ⟨c, hc, -⟩ := hbad
    exact absurd hc List.not_mem_nil
  | cons q content ih =>
    have hwell' : ∀ q ∈ content, q.WellFormed := fun r hr => hwell r (List.mem_cons_of_mem q hr)
    rw [List.flatMap_cons, unspaced_append] at hbad ⊢
    rw [List.append_assoc]
    cases q with
    | quotedPair c =>
      -- the backslash comes before whatever it hides
      have hslash : lwspChar BACKSLASH = false := by decide
      rw [QuotedOctet.octets, unspaced, List.filter_cons_of_pos (by simp [hslash]),
        List.cons_append,
        mimeTypeAfter_fails (by decide)]
    | qtext c =>
      rw [QuotedOctet.octets] at hbad ⊢
      by_cases hspace : lwspChar c = true
      · have hnil : unspaced [c] = [] := by simp [unspaced, hspace]
        rw [hnil] at hbad ⊢
        exact ih hwell' hbad
      have hone : unspaced [c] = [c] := by simp [unspaced, hspace]
      rw [hone] at hbad ⊢
      by_cases hc : quotedChar c = true
      · have hnext : (mimeTypeFeed .delimiter c).1 = .delimiter := by
          rw [mimeTypeFeed_delimiter, ← quotedChar, if_pos hc]
        rw [List.singleton_append, mimeTypeAfter, List.foldl_cons, hnext]
        apply ih hwell'
        obtain ⟨d, hd, hd'⟩ := hbad
        rcases List.mem_cons.mp hd with rfl | hd
        · exact absurd (hc.symm.trans hd') (by simp)
        · exact ⟨d, hd, hd'⟩
      · have hquote : c ≠ QUOTE := by
          rintro rfl
          have hqtext : qtextChar QUOTE = true := hwell _ List.mem_cons_self
          exact absurd hqtext (by decide)
        apply mimeTypeAfter_fails
        rw [mimeTypeFeed_delimiter, ← quotedChar, if_neg hc, if_neg hquote]

open Watcher in
/-- A parameter that is not taken is the end of it too. -/
theorem Parameter.mimeTypeAfter_untaken {p : Parameter} (h : ¬ p.Taken) (bs : List Byte) :
    mimeTypeAfter .subtype (unspaced p.octets ++ bs) = .error := by
  have hname : mimeTypeAfter .subtype (SEMICOLON :: p.name) = .parameter := by
    rw [mimeTypeAfter, List.foldl_cons, mimeTypeFeed_subtype, if_pos rfl]
    refine mimeTypeAfter_same fun c hc => ?_
    rw [mimeTypeFeed_parameter, if_pos (p.restricted.chars c hc)]
  have hequals : (mimeTypeFeed .parameter EQUALS).1 = .delimiterStart := by decide
  have hquote : (mimeTypeFeed .delimiterStart QUOTE).1 = .delimiter := by decide
  rw [p.unspaced_octets, List.append_assoc, mimeTypeAfter_append, hname, List.cons_append,
    mimeTypeAfter, List.foldl_cons, hequals, ← mimeTypeAfter]
  have hwell := p.wellFormed
  cases hvalue : p.value with
  | token text =>
    rw [hvalue] at hwell
    obtain ⟨c, text, rfl⟩ := List.exists_cons_of_ne_nil hwell.1
    have hc := hwell.2 c (by simp)
    have hspace : lwspChar c = false := by
      by_contra hs
      rcases lwsp_iff.mp (by simpa [lwspChar] using hs) with rfl | rfl <;>
        exact absurd hc (by decide)
    have hfails : (mimeTypeFeed .delimiterStart c).1 = .error := by
      rw [mimeTypeFeed_delimiterStart, if_neg]
      rintro rfl
      exact absurd hc (by decide)
    rw [ParameterValue.octets, unspaced, List.filter_cons_of_pos (by simp [hspace]),
      List.cons_append, mimeTypeAfter_fails hfails]
  | quoted content =>
    rw [hvalue] at hwell
    have hbad : ∃ c ∈ unspaced (content.flatMap QuotedOctet.octets), quotedChar c = false := by
      by_contra hno
      push Not at hno
      exact h ⟨content, hvalue, fun c hc => by simpa using hno c hc⟩
    rw [unspaced_quotes, List.cons_append, List.append_assoc, mimeTypeAfter, List.foldl_cons,
      hquote]
    exact mimeTypeAfter_content hwell hbad _

/-- The type, the slash and the subtype only lead up to the parameters. -/
theorem ContentTypeValue.run_names (v : ContentTypeValue) {w : Watcher}
    (h : w.contentType = .type0 ∨ w.contentType = .type) :
    w.run env (v.type ++ SLASH :: v.subtype) = { w with contentType := .subtype } := by
  obtain ⟨c, type, heq⟩ := List.exists_cons_of_ne_nil v.type_restricted.ne
  have hchars := v.type_restricted.chars
  have hfirst := v.type_restricted.first
  rw [heq] at hchars hfirst ⊢
  have htype : ∀ d ∈ c :: type, mimeTypeFeed .type d = (.type, [MimeType.type d]) := by
    intro d hd
    rw [mimeTypeFeed_type, if_neg, if_pos (hchars d hd)]
    rintro rfl
    exact absurd (hchars SLASH hd) (by decide)
  have hsubtype : ∀ d ∈ v.subtype, mimeTypeFeed .subtype d = (.subtype, [MimeType.subtype d]) := by
    intro d hd
    rw [mimeTypeFeed_subtype, if_neg, if_pos (v.subtype_restricted.chars d hd)]
    rintro rfl
    exact absurd (v.subtype_restricted.chars SEMICOLON hd) (by decide)
  have hfeed : mimeTypeFeed w.contentType c = (.type, [MimeType.type c]) := by
    rcases h with h | h
    · rw [h, mimeTypeFeed_type0, if_pos (hfirst c rfl)]
    · rw [h, htype c (by simp)]
  have hslash : mimeTypeFeed .type SLASH = (.subtype, [MimeType.typeEnd SLASH]) := by
    rw [mimeTypeFeed_type, if_pos rfl]
  have hfirst₁ : w.step env c = { w with contentType := .type } := Watcher.step_single hfeed
  have hrest₁ : Watcher.run env { w with contentType := .type } type =
      { w with contentType := .type } :=
    Watcher.run_same fun d hd => ⟨_, htype d (by simp [hd]), .inl rfl⟩
  have hslash₁ : Watcher.step env { w with contentType := .type } SLASH =
      { w with contentType := .subtype } :=
    Watcher.step_single (w := { w with contentType := .type }) hslash
  rw [List.cons_append, Watcher.run_cons, hfirst₁, Watcher.run_append, hrest₁, Watcher.run_cons,
    hslash₁]
  exact Watcher.run_same fun d hd => ⟨_, hsubtype d hd, .inr rfl⟩

/-- What a parameter that is taken leaves. -/
theorem Parameter.run_taken {p : Parameter} {content : List QuotedOctet}
    (hvalue : p.value = .quoted content)
    (htext : ∀ c ∈ unspaced (content.flatMap QuotedOctet.octets), quotedChar c = true)
    {w : Watcher} (h : w.contentType = .subtype) :
    w.run env (unspaced p.octets) = Watcher.delimiterEnd env { w.started p.name with
      contentType := .delimiterEnd
      boundaryName := (w.started p.name).boundaryName ++
        if (w.started p.name).multipartSection = some true then unspaced p.value.text else []
        } := by
  rw [hvalue, ParameterValue.text, ← octets_eq_text htext]
  rw [← Watcher.run_quoted h p.restricted.chars htext, p.unspaced_octets, hvalue, unspaced_quotes]
  simp

/-! ## What is pushed -/

/-- Left behind the quotes of a boundary, the parser pushes at every octet. -/
theorem ContentTypeValue.stack_leftOpen (env : FilterEnv) (v : ContentTypeValue) {w : Watcher}
    (h : w.contentType = .delimiterEnd) (hd : w.boundaryDetected = true) :
    w.boundryStack.length + 2 ≤ (w.run env (unspaced v.octets)).boundryStack.length := by
  have hlen : 2 ≤ (unspaced v.octets).length := by
    have htype := List.length_pos_iff.mpr v.type_restricted.ne
    rw [v.unspaced_octets]
    simp only [List.length_append, List.length_cons]
    omega
  rw [Watcher.run_delimiterEnd h, if_pos hd]
  omega

/-- The first parameter is taken for the boundary. -/
theorem ContentTypeValue.stack_taken (env : FilterEnv) (v : ContentTypeValue) {w : Watcher}
    {p : Parameter} {ps : List Parameter} (h : w.contentType = .type0 ∨ w.contentType = .type)
    (hfirst : v.parameters = p :: ps) (htaken : p.Taken) :
    if (w.started p.name).boundaryDetected = true then
      (ps = [] → (w.run env (unspaced v.octets)).boundryStack =
        cstr (w.boundaryName ++ (if (w.started p.name).multipartSection = some true then
          unspaced p.value.text else []) ++ env.behind w.strings) :: w.boundryStack) ∧
      (ps ≠ [] → w.boundryStack.length + 2 ≤
        (w.run env (unspaced v.octets)).boundryStack.length)
    else (w.run env (unspaced v.octets)).boundryStack = w.boundryStack := by
  obtain ⟨content, hvalue, htext⟩ := htaken
  obtain ⟨d, m, b, hstarted⟩ :=
    Watcher.foldl_parameter (w := { w with contentType := .parameter }) p.name
  have hstarted' : w.started p.name = { w with
      contentType := .parameter, boundaryParserDetector := d, multipartSection := m,
      boundaryDetected := b } := hstarted
  have hrun : w.run env (unspaced v.octets) = Watcher.run env
      (Watcher.delimiterEnd env { w.started p.name with
        contentType := .delimiterEnd
        boundaryName := (w.started p.name).boundaryName ++
          if (w.started p.name).multipartSection = some true then unspaced p.value.text else [] })
      (ps.flatMap fun p => unspaced p.octets) := by
    rw [v.unspaced_octets, Watcher.run_append, v.run_names h, hfirst, List.flatMap_cons,
      Watcher.run_append, Parameter.run_taken hvalue htext rfl]
    rfl
  rw [hrun, hstarted']
  simp only [Watcher.delimiterEnd]
  cases b with
  | false =>
    simp only [Bool.false_eq_true, if_false]
    rw [Watcher.run_undetected rfl rfl]
  | true =>
    simp only [if_true]
    constructor
    · rintro rfl
      rfl
    · intro hps
      obtain ⟨q, qs, rfl⟩ := List.exists_cons_of_ne_nil hps
      rw [Watcher.run_delimiterEnd rfl]
      rw [List.flatMap_cons, q.unspaced_octets]
      simp only [if_true, List.length_append, List.length_cons]
      omega

/-- Otherwise nothing is pushed. -/
theorem ContentTypeValue.stack_otherwise (v : ContentTypeValue) {w : Watcher}
    (h : w.contentType = .delimiterEnd → w.boundaryDetected = false)
    (hp : (w.contentType = .type0 ∨ w.contentType = .type) →
      ∀ p ∈ v.parameters.head?, ¬ p.Taken) :
    (w.run env (unspaced v.octets)).boundryStack = w.boundryStack := by
  by_cases hend : w.contentType = .delimiterEnd
  · rw [Watcher.run_undetected hend (h hend)]
  apply Watcher.run_stack
  rw [Watcher.run_contentType]
  by_cases hstart : w.contentType = .type0 ∨ w.contentType = .type
  · have hnames :
      Watcher.mimeTypeAfter w.contentType (v.type ++ SLASH :: v.subtype) = .subtype := by
      have hrun : (w.run env (v.type ++ SLASH :: v.subtype)).contentType =
          Watcher.mimeTypeAfter w.contentType (v.type ++ SLASH :: v.subtype) :=
        Watcher.run_contentType _
      rw [← hrun, v.run_names hstart]
    rw [v.unspaced_octets, Watcher.mimeTypeAfter_append, hnames]
    cases hps : v.parameters with
    | nil => exact nofun
    | cons p ps =>
      rw [List.flatMap_cons, Parameter.mimeTypeAfter_untaken (hp hstart p (by simp [hps]))]
      exact nofun
  · rw [not_or] at hstart
    exact v.mimeTypeAfter_left hstart.1 hstart.2 hend

/-! ## The boundary of a content type -/

/-- The name is the boundary's, and the matcher waits for all of it. -/
theorem multipartSection_boundary {w : Watcher} {p : Parameter} (hp : p.isBoundary = true) :
    (w.started p.name).multipartSection = some true ↔ w.boundaryParserDetector = 0 := by
  have hname : p.name.map tolower = ascii "boundary" := by simpa [Parameter.isBoundary] using hp
  have hstart : (w.started p.name).multipartSection = some true ↔
      p.name.map tolower = boundaryTail w.boundaryParserDetector :=
    Watcher.multipartSection_name p.restricted.ne
  rw [hstart, hname]
  constructor
  · intro htail
    have hlen := congrArg List.length htail
    rw [boundaryTail, List.length_drop] at hlen
    have hpos : 0 < (ascii "boundary").length := by decide
    omega
  · intro hd
    rw [hd]
    rfl

/-- The watcher notes the name that starts like the boundary's. -/
theorem detects_iff {p : Parameter} :
    (ctx.watcher.started p.name).boundaryDetected = true ↔ Detects ctx p.name :=
  Watcher.boundaryDetected_name p.name

/-- One boundary at most is asked for. -/
theorem ne_of_two_pushed {stack pushed : List (List Byte)} (b : Option (List Byte))
    (h : stack.length + 2 ≤ pushed.length) : pushed ≠ b.toList ++ stack := by
  rintro rfl
  cases b with
  | none =>
    simp only [Option.toList_none, List.nil_append] at h
    omega
  | some b =>
    simp only [Option.toList_some, List.length_append, List.length_singleton] at h
    omega

/-- The boundary of a value with one parameter. -/
theorem boundary_single {v : ContentTypeValue} {p : Parameter} (hp : v.parameters = [p]) :
    v.boundary = if p.isBoundary then some p.value.text else none := by
  rw [ContentTypeValue.boundary, hp]
  cases hname : p.isBoundary with
  | true => simp [hname]
  | false => simp [hname]

/-- Without a parameter that is taken for the boundary, and not behind its quotes, nothing is
pushed. -/
theorem ContentTypeValue.stack_untaken (v : ContentTypeValue)
    (happly : ctx.mediaFilterApply = false)
    (hlisted : ctx.listed v.type v.subtype = .ok false) (hopen : ¬ LeftOpen ctx)
    (hno : ∀ p, ¬ TakenForBoundary ctx v p) :
    (ctx.watcher.run env (unspaced v.octets)).boundryStack = ctx.boundryStack := by
  by_cases hfirst : (ctx.contentType = .type0 ∨ ctx.contentType = .type) ∧
      ∃ p ∈ v.parameters.head?, p.Taken
  · obtain ⟨hstart, p, hp, htaken⟩ := hfirst
    obtain ⟨ps, hps⟩ : ∃ ps, v.parameters = p :: ps := List.head?_eq_some_iff.mp hp
    have hundetected : ¬ (ctx.watcher.started p.name).boundaryDetected = true := by
      rw [detects_iff]
      intro hdetects
      exact hno p ⟨happly, hstart, hlisted, hp, htaken, hdetects⟩
    have hstack := v.stack_taken env (w := ctx.watcher) hstart hps htaken
    rw [if_neg hundetected] at hstack
    exact hstack
  · apply v.stack_otherwise (w := ctx.watcher)
    · intro hend
      have hdet : ctx.boundaryDetected ≠ true := fun hdet => hopen ⟨happly, hend, hdet⟩
      simpa using hdet
    · intro hstart p hp htaken
      exact hfirst ⟨hstart, p, hp, htaken⟩

/-- **What the watcher pushes** is the boundary exactly when the value reads as one. -/
theorem ContentTypeValue.pushes_iff (v : ContentTypeValue) (happly : ctx.mediaFilterApply = false)
    (hlisted : ctx.listed v.type v.subtype = .ok false) :
    (ctx.watcher.run env (unspaced v.octets)).boundryStack = v.boundary.toList ++ ctx.boundryStack ↔
      match v.boundary with
      | none => ¬ LeftOpen ctx ∧ ∀ p, ¬ TakenForBoundary ctx v p
      | some b => ∃ p, v.parameters = [p] ∧ TakenForBoundary ctx v p ∧
          collectedName env ctx p.value.text = b := by
  by_cases hopen : LeftOpen ctx
  -- behind the quotes of a boundary every octet pushes, and a value has more than one
  · obtain ⟨-, hend, hdet⟩ := id hopen
    have hlen := v.stack_leftOpen env (w := ctx.watcher) hend hdet
    refine iff_of_false (ne_of_two_pushed v.boundary hlen) ?_
    cases v.boundary with
    | none => exact fun hread => hread.1 hopen
    | some b =>
      rintro ⟨p, -, htaken, -⟩
      have hstart := htaken.start
      rw [hend] at hstart
      exact hstart.elim nofun nofun
  by_cases htaken : ∃ p, TakenForBoundary ctx v p
  · obtain ⟨p, htaken⟩ := htaken
    obtain ⟨ps, hps⟩ : ∃ ps, v.parameters = p :: ps := List.head?_eq_some_iff.mp htaken.first
    have hstack := v.stack_taken env (w := ctx.watcher) htaken.start hps htaken.taken
    rw [if_pos (detects_iff.mpr htaken.detects)] at hstack
    obtain ⟨hone, hmore⟩ := hstack
    -- the one that is taken pushes once, whatever its name; one more behind it pushes again
    by_cases hnil : ps = []
    · subst hnil
      rw [hone rfl, boundary_single hps]
      cases hname : p.isBoundary with
      | true =>
        have hcollected : cstr (ctx.watcher.boundaryName ++
            (if (ctx.watcher.started p.name).multipartSection = some true then
              unspaced p.value.text else []) ++ env.behind ctx.watcher.strings) =
                collectedName env ctx p.value.text := by
          rw [collectedName, if_congr (multipartSection_boundary hname) rfl rfl]
          rfl
        rw [hcollected, if_pos rfl]
        constructor
        · intro hpushed
          exact ⟨p, hps, htaken, (List.cons.inj hpushed).1⟩
        · rintro ⟨q, hq, -, hcollects⟩
          obtain rfl : p = q := (List.cons.inj (hps.symm.trans hq)).1
          rw [hcollects]
          rfl
      | false =>
        refine iff_of_false ?_ fun hread => hread.2 p htaken
        exact List.cons_ne_self _ _
    · refine iff_of_false (ne_of_two_pushed v.boundary (hmore hnil)) ?_
      cases v.boundary with
      | none => exact fun hread => hread.2 p htaken
      | some b =>
        rintro ⟨q, hq, -, -⟩
        exact hnil (List.cons.inj (hps.symm.trans hq)).2
  -- nothing is taken for a boundary, so nothing is pushed
  · rw [not_exists] at htaken
    rw [v.stack_untaken happly hlisted hopen htaken]
    cases v.boundary with
    | none => exact iff_of_true rfl ⟨hopen, htaken⟩
    | some b =>
      refine iff_of_false (fun heq => absurd heq.symm (List.cons_ne_self _ _)) ?_
      rintro ⟨p, -, hp, -⟩
      exact htaken p hp

/-- Where the part is filtered, already or by this type, nothing is pushed. -/
theorem readsBoundary_filtered {v : ContentTypeValue} (hread : ReadOut ctx v)
    (h : ctx.mediaFilterApply = true ∨ ctx.listed v.type v.subtype = .ok true) :
    ctx.boundryStack = v.boundary.toList ++ ctx.boundryStack ↔ ReadsBoundary env ctx v := by
  have hno : ∀ p, ¬ TakenForBoundary ctx v p := by
    intro p hp
    rcases h with h | h
    · exact absurd (hp.unfiltered.symm.trans h) (by simp)
    · exact absurd (hp.unlisted.symm.trans h) (by simp)
  have hopen : ¬ LeftOpen ctx := by
    rintro ⟨happly, hend, -⟩
    rcases h with h | h
    · exact absurd (happly.symm.trans h) (by simp)
    · rw [Ctx.listed, hend] at h
      cases h
  rw [ReadsBoundary, and_iff_right hread]
  cases v.boundary with
  | none => exact iff_of_true rfl ⟨hopen, hno⟩
  | some b =>
    refine iff_of_false (fun heq => absurd heq.symm (List.cons_ne_self _ _)) ?_
    rintro ⟨p, -, hp, -⟩
    exact hno p hp

/-- With nothing left of an earlier name, and the memory behind cleared, what is collected is
the text if and only if there is no white space in it. -/
theorem collectedName_eq_text {p : Parameter} (htaken : p.Taken) (hname : ctx.boundaryName = [])
    (hstart : ctx.boundaryParserDetector = 0) (hbehind : cstr (env.behind ctx.strings) = []) :
    collectedName env ctx p.value.text = p.value.text ↔
      ∀ c ∈ p.value.text, lwspChar c = false := by
  obtain ⟨content, hvalue, htext⟩ := htaken
  rw [octets_eq_text htext] at htext
  have hnul : (0 : Byte) ∉ unspaced p.value.text := by
    intro hmem
    rw [hvalue] at hmem
    exact absurd (htext 0 hmem) (by decide)
  have hcollected : collectedName env ctx p.value.text = unspaced p.value.text := by
    rw [collectedName, hname, if_pos hstart, List.nil_append, cstr_append hnul, hbehind,
      List.append_nil]
  rw [hcollected, unspaced, List.filter_eq_self]
  simp

/-- **The boundary parameter**: wherever the value of a content type begins, or goes on,
its boundary is what is pushed exactly when the value comes to its end and the boundary is
the first parameter and the last, in quotes, taken for the boundary, and what is collected. -/
theorem boundary_parameter (env : FilterEnv) {ctx : Ctx} (h : Reached env ctx)
    (hstate : ctx.msg = .value ∨ ctx.msg = .fold)
    (htyped : ctx.msgContentTypeFieldDetected = some true) (v : ContentTypeValue) :
    PushesBoundary env ctx v ↔ ReadsBoundary env ctx v := by
  have hin : InTypeValue ctx := ⟨h.settled, hstate, htyped⟩
  obtain ⟨hruns, hlisted⟩ := v.readOut env hin
  by_cases hread : ReadOut ctx v
  · obtain ⟨ctx', hrun⟩ := hruns.mpr hread
    have hpushes : PushesBoundary env ctx v ↔
        ctx'.boundryStack = v.boundary.toList ++ ctx.boundryStack := by
      constructor
      · rintro ⟨ctx₁, h₁, hstack⟩
        obtain rfl := Except.ok.inj (h₁.symm.trans hrun)
        exact hstack
      · intro hstack
        exact ⟨ctx', hrun, hstack⟩
    obtain ⟨hwatch, hfiltered, -⟩ := hin.watched v.noCr hrun
    rw [hpushes]
    by_cases happly' : ctx'.mediaFilterApply = true
    · rw [hfiltered happly']
      apply readsBoundary_filtered hread
      by_cases happly : ctx.mediaFilterApply = true
      · exact .inl happly
      · right
        rw [hlisted ctx' hrun (by simpa using happly), happly']
    · rw [Bool.not_eq_true] at happly'
      have happly : ctx.mediaFilterApply = false := by
        by_contra hno
        obtain ⟨ctx₁, h₁, happly₁, -⟩ := hin.copied env (by simpa using hno) v.noCr
        obtain rfl := Except.ok.inj (h₁.symm.trans hrun)
        exact absurd (happly'.symm.trans happly₁) (by simp)
      have hunlisted : ctx.listed v.type v.subtype = .ok false := by
        rw [hlisted ctx' hrun happly, happly']
      have hstack : ctx'.boundryStack =
          (ctx.watcher.run env (unspaced v.octets)).boundryStack := by
        rw [← hwatch happly']
        rfl
      rw [hstack, v.pushes_iff happly hunlisted, ReadsBoundary, and_iff_right hread]
  · refine iff_of_false ?_ fun hreads => hread hreads.1
    rintro ⟨ctx', hrun, -⟩
    exact hread (hruns.mp ⟨ctx', hrun⟩)

/-- `name="x"` -/
def quotedParameter (name : List Byte) (x : Byte) (hname : RestrictedName name)
    (hx : qtextChar x = true) : Parameter where
  name := name
  value := .quoted [.qtext x]
  restricted := hname
  wellFormed := fun _ hq => List.mem_singleton.mp hq ▸ hx

/-- `boundary="b"` -/
def boundaryB : Parameter :=
  quotedParameter (ascii "boundary") 98 ⟨by decide +kernel, by decide +kernel, by decide⟩
    (by decide)

/-- `charset="a"` -/
def charsetA : Parameter :=
  quotedParameter (ascii "charset") 97 ⟨by decide +kernel, by decide +kernel, by decide⟩ (by decide)

/-- `multipart/mixed` -/
def multipartMixed (ps : List Parameter) (h : (ps.filter Parameter.isBoundary).length ≤ 1) :
    ContentTypeValue where
  type := ascii "multipart"
  subtype := ascii "mixed"
  parameters := ps
  type_restricted := ⟨by decide +kernel, by decide +kernel, by decide⟩
  subtype_restricted := ⟨by decide +kernel, by decide +kernel, by decide⟩
  once := h

/-- Where the value of the first content type begins. -/
theorem value_begins : ∃ ctx,
    mailRun {} (Filter.initial [(ascii "image", ascii "png")]).ctx (ascii "Content-Type: ") =
    .ok ctx ∧
      (ctx.msg, ctx.msgContentTypeFieldDetected, ctx.contentType, ctx.mediaFilterApply) =
        (.fold, some true, .type0, false) ∧
      (ctx.boundaryName, ctx.boundaryParserDetector) = ([], 0) ∧
      ctx.listed (ascii "multipart") (ascii "mixed") = .ok false := by
  have hrun : (mailRun {} (Filter.initial [(ascii "image", ascii "png")]).ctx
      (ascii "Content-Type: ")).map (fun ctx =>
        ((ctx.msg, ctx.msgContentTypeFieldDetected, ctx.contentType, ctx.mediaFilterApply),
          (ctx.boundaryName, ctx.boundaryParserDetector),
          ctx.listed (ascii "multipart") (ascii "mixed"))) =
      .ok ((.fold, some true, .type0, false), ([], 0), .ok false) := by decide
  obtain ⟨ctx, hres, heq⟩ := map_eq_ok.mp hrun
  simp only [Prod.mk.injEq] at heq ⊢
  exact ⟨ctx, hres, heq⟩

/-- The boundary by itself, in quotes. -/
theorem boundary_parameter_first : ∃ ctx,
    mailRun {} (Filter.initial [(ascii "image", ascii "png")]).ctx (ascii "Content-Type: ") =
    .ok ctx ∧
      PushesBoundary {} ctx (multipartMixed [boundaryB] (by decide)) := by
  obtain ⟨ctx, hrun, hfields, hmatcher, hlisted⟩ := value_begins
  simp only [Prod.mk.injEq] at hfields hmatcher
  obtain ⟨hmsg, htyped, hstart, happly⟩ := hfields
  obtain ⟨hname, hdetector⟩ := hmatcher
  have htaken : TakenForBoundary ctx (multipartMixed [boundaryB] (by decide)) boundaryB := by
    refine ⟨happly, .inl hstart, hlisted, rfl, ⟨_, rfl, by decide +kernel⟩, .inr ?_⟩
    rw [hdetector]
    exact ⟨by decide, by decide⟩
  have hcollects : collectedName {} ctx boundaryB.value.text = [98] := by
    rw [collectedName, hname, hdetector]
    rfl
  exact ⟨ctx, hrun, (boundary_parameter {} (.run (.initial _) hrun) (.inr hmsg) htyped _).mpr
    ⟨.inr ⟨false, hlisted, nofun⟩, boundaryB, rfl, htaken, hcollects⟩⟩

/-- Behind another parameter the boundary is not seen. -/
theorem boundary_hidden : ∃ ctx,
    mailRun {} (Filter.initial [(ascii "image", ascii "png")]).ctx (ascii "Content-Type: ") =
    .ok ctx ∧
      ¬ PushesBoundary {} ctx (multipartMixed [charsetA, boundaryB] (by decide)) := by
  obtain ⟨ctx, hrun, -⟩ := value_begins
  refine ⟨ctx, hrun, ?_⟩
  rintro ⟨ctx', hres, hstack⟩
  have hvalue : (mailRun {} (Filter.initial [(ascii "image", ascii "png")]).ctx
      (ascii "Content-Type: multipart/mixed; charset=\"a\"; boundary=\"b\"")).map
        (fun ctx => ctx.boundryStack.length) = .ok 0 := by decide
  have hsplit : ascii "Content-Type: multipart/mixed; charset=\"a\"; boundary=\"b\"" =
      ascii "Content-Type: " ++ (multipartMixed [charsetA, boundaryB] (by decide)).octets := by
      decide
  have hasked : (multipartMixed [charsetA, boundaryB] (by decide)).boundary = some [98] := by decide
  rw [hsplit, mailRun_append, hrun, ok_bind, hres] at hvalue
  have hnone : ctx'.boundryStack.length = 0 := Except.ok.inj hvalue
  rw [hstack, hasked] at hnone
  exact absurd hnone (by simp)

end

end Pop3Proxy
