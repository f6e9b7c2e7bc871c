/-
# The field that decides

What is written of a `Content-Type` field, in two cases: its octets are copied, or a type of the
list is completed among them and the text behind the last space is replaced.  When the
one or the other is the field with `text/plain` for its type is a matter of the texts alone.
-/
import Pop3Proxy.Filter.TypeRuns

namespace Pop3Proxy

/-- A `Content-Type` field: white space, a type and a subtype, and what follows them. -/
structure TypeField where
  field : HeaderField
  space : FoldedText
  type : List Byte
  subtype : List Byte
  rest : FoldedText
  named : SameLetters field.name (ascii "Content-Type")
  value_eq : field.value = space.octets ++ (type ++ SLASH :: subtype) ++ rest.octets
  space_white : ∀ l ∈ space.line :: space.lines, ∀ c ∈ l, lwspChar c = true
  type_restricted : RestrictedName type
  subtype_restricted : RestrictedName subtype
  -- no comment or parameter begins with an octet of a name
  rest_apart : ∀ sp c b, rest.octets = sp ++ c :: b → (∀ d ∈ sp, white d = true) →
    initCharClass .restNameChars c = false

namespace TypeField

/-- The type, the slash and the subtype. -/
def mediaType (t : TypeField) : List Byte := t.type ++ SLASH :: t.subtype

/-- The value, with the type replaced. -/
def retyped (t : TypeField) : List Byte :=
    t.space.octets ++ (ascii "text/plain" ++ (t.rest.octets ++ CRLF))

/-- What is written of the white space. -/
def spaceOut (t : TypeField) : List Byte :=
    t.space.line ++ foldsOut false t.space.line t.space.lines

/-- What is written of what follows the type, and of the CRLF. -/
def restOut (t : TypeField) : List Byte :=
  t.rest.line ++ (foldsOut false (t.mediaType ++ t.rest.line) t.rest.lines ++ CRLF)

end TypeField

/-! ## Reading the value -/

section
variable (t : TypeField)

/-- An octet of a media type. -/
theorem TypeField.mediaType_char {c : Byte} (hc : c ∈ t.mediaType) :
    initCharClass .restNameChars c = true ∨ c = SLASH := by
  rcases List.mem_append.mp hc with hc | hc
  · exact Or.inl (t.type_restricted.chars c hc)
  · rcases List.mem_cons.mp hc with rfl | hc
    · exact Or.inr rfl
    · exact Or.inl (t.subtype_restricted.chars c hc)

/-- The characters of a type are neither white space nor line ends nor colons. -/
theorem restNameChars_apart : ∀ c, initCharClass .restNameChars c = true ∨ c = SLASH →
    lwspChar c = false ∧ c ≠ CR ∧ c ≠ LF ∧ c ≠ SP ∧ c ≠ COLON := by
  decide +kernel

/-- So none of these is in the type. -/
theorem TypeField.mediaType_unspaced : Unspaced t.mediaType := fun c hc =>
  ⟨(restNameChars_apart c (t.mediaType_char hc)).1,
    (restNameChars_apart c (t.mediaType_char hc)).2.1⟩

/-- It does not end in white space. -/
theorem TypeField.mediaType_ends : ¬ EndsInSpace t.mediaType := by
  rintro ⟨c, hlast, hc⟩
  have := (t.mediaType_unspaced c (List.mem_of_getLast? hlast)).1
  rw [hc] at this
  cases this

/-- The white space. -/
theorem TypeField.read_space : ∃ s, ValueRead false .value t.space.octets t.spaceOut s ∧
    InValue t.space.octets s := by
  have hstart : InValue [] .value := Or.inl ⟨rfl, by simp [EndsInSpace]⟩
  exact t.space.read false hstart

/-- The media type. -/
theorem TypeField.read_mediaType {v : List Byte} {s : MimeMsgState} (h : InValue v s) :
    ValueRead false s t.mediaType t.mediaType .value := by
  obtain ⟨u, hread, hin⟩ := h.read_line false fun hmem => (t.mediaType_unspaced CR hmem).2 rfl
  rcases hin with ⟨rfl, -⟩ | ⟨-, c, hlast, hc⟩
  · exact hread
  -- it does not end in white space
  · have hne : t.mediaType ≠ [] := by simp [TypeField.mediaType]
    rw [List.getLast?_append_of_ne_nil v hne] at hlast
    exact absurd ⟨c, hlast, hc⟩ t.mediaType_ends

/-- Whether the value does depends on what follows the type. -/
theorem TypeField.value_ends :
    EndsInSpace t.field.value ↔ EndsInSpace (t.mediaType ++ t.rest.octets) := by
  obtain ⟨c, v, hv⟩ := List.exists_cons_of_ne_nil (l := t.mediaType ++ t.rest.octets)
    (by simp [TypeField.mediaType])
  rw [t.value_eq, List.append_assoc]
  show EndsInSpace (t.space.octets ++ (t.mediaType ++ t.rest.octets)) ↔ _
  rw [hv, endsInSpace_append_cons]

/-- What follows it. -/
theorem TypeField.read_rest : ValueRead false .value (t.rest.octets ++ CRLF) t.restOut
    (if EndsInSpace t.field.value then .value else .valueCrlf) := by
  have hstart : InValue t.mediaType .value := Or.inl ⟨rfl, t.mediaType_ends⟩
  obtain ⟨u, hread, hin⟩ := t.rest.read false hstart
  have hclose := hin.read_close false
  simp only [← t.value_ends] at hclose
  have hboth := hread.append hclose
  have hout : (if EndsInSpace t.field.value then visible false CRLF else CRLF) = CRLF := by
    split_ifs <;> rfl
  rw [hout, List.append_assoc] at hboth
  exact hboth

/-- Piece by piece it is the value that is copied. -/
theorem TypeField.out_eq : t.field.out false = t.spaceOut ++ (t.mediaType ++ t.restOut) := by
  obtain ⟨s, hspace, hin⟩ := t.read_space
  have hall := hspace.append ((t.read_mediaType hin).append t.read_rest)
  have hvalue : t.space.octets ++ (t.mediaType ++ (t.rest.octets ++ CRLF)) =
      t.field.value ++ CRLF := by
    rw [t.value_eq, List.append_assoc, List.append_assoc]
    rfl
  rw [hvalue] at hall
  exact (t.field.read_value false).out.symm.trans hall.out

/-! ## The folds of the white space -/

/-- The first line of white space does, unless it is empty. -/
theorem TypeField.space_ends (h : t.space.line ≠ []) : EndsInSpace t.space.line :=
  ⟨t.space.line.getLast h, List.getLast?_eq_some_getLast h,
    t.space_white t.space.line (by simp) _ (List.getLast_mem h)⟩

/-- White space hides every fold but the first. -/
theorem TypeField.space_seamless (h : t.space.line ≠ [] ∨ t.space.lines = []) :
    Seamless t.space.line t.space.lines := by
  have hlines : ∀ (ls : List (List Byte)) (v : List Byte), EndsInSpace v →
      (∀ l ∈ ls, l ≠ [] ∧ ∀ c ∈ l, lwspChar c = true) → Seamless v ls := by
    intro ls
    induction ls with
    | nil => exact fun _ _ _ => trivial
    | cons l ls ih =>
      intro v hv hls
      obtain ⟨hne, hl⟩ := hls l (by simp)
      refine ⟨hv, ih l ?_ fun m hm => hls m (by simp [hm])⟩
      exact ⟨l.getLast hne, List.getLast?_eq_some_getLast hne, hl _ (List.getLast_mem hne)⟩
  rcases h with hline | hnone
  · refine hlines _ _ (t.space_ends hline) fun l hl => ⟨?_, t.space_white l (by simp [hl])⟩
    obtain ⟨c, rest, rfl, -⟩ := t.space.continued l hl
    simp
  · rw [hnone]
    trivial

/-- The first fold is seen where nothing stands in front of it. -/
theorem TypeField.space_seamless_iff :
    Seamless t.space.line t.space.lines ↔ t.space.line ≠ [] ∨ t.space.lines = [] := by
  refine ⟨fun h => ?_, t.space_seamless⟩
  by_contra hnot
  simp only [not_or, not_not] at hnot
  obtain ⟨l, ls, hls⟩ := List.exists_cons_of_ne_nil hnot.2
  rw [hnot.1, hls] at h
  obtain ⟨c, hc, -⟩ := h.1
  cases hc

/-- Behind white space the CR of a CRLF belongs to the value. -/
theorem not_noValue_crlf (bs : List Byte) : ¬ NoValue .fold (CRLF ++ bs) := by
  intro h
  have hfeed : mimeMsgFeed .fold CR = (.value, [MimeMsg.value CR]) := by
    rw [mimeMsgFeed_fold, if_neg (by decide)]
  have hcr := (noValue_cons.mp (show NoValue .fold (CR :: LF :: bs) from h)).1
  rw [hfeed] at hcr
  exact hcr (MimeMsg.value CR) (by simp) rfl

/-- **White space without a value** has no fold, or one that is seen. -/
theorem TypeField.noValue_lines (h : NoValue .value t.space.octets) :
    t.space.lines = [] ∨ t.space.line = [] := by
  by_contra hnot
  simp only [not_or] at hnot
  have hstart : InValue [] .value := Or.inl ⟨rfl, by simp [EndsInSpace]⟩
  obtain ⟨s, hread, hin⟩ := hstart.read_line false (t.space.plain t.space.line (by simp)).1
  obtain ⟨l, ls, hls⟩ := List.exists_cons_of_ne_nil hnot.1
  rw [FoldedText.octets, hls, List.flatMap_cons, List.append_assoc CRLF, noValue_append,
    hread.state]
    at h
  rcases hin with ⟨-, hends⟩ | ⟨rfl, -⟩
  · exact hends (t.space_ends hnot.2)
  · exact not_noValue_crlf _ h.2

/-- The CRLF that white space hides belongs to the value. -/
theorem TypeField.rest_value (h : EndsInSpace t.field.value) :
    ¬ NoValue .value (t.rest.octets ++ CRLF) := by
  have hstart : InValue t.mediaType .value := Or.inl ⟨rfl, t.mediaType_ends⟩
  obtain ⟨u, hread, hin⟩ := t.rest.read false hstart
  rw [noValue_append, hread.state]
  rcases hin with ⟨-, hends⟩ | ⟨rfl, -⟩
  · exact absurd (t.value_ends.mp h) hends
  · exact fun hboth => not_noValue_crlf [] hboth.2

/-- White space in one line has no value. -/
theorem noValue_of_lwsp {s : MimeMsgState} (hs : s = .value ∨ s = .fold) {bs : List Byte}
    (hbs : ∀ c ∈ bs, lwspChar c = true) : NoValue s bs := by
  induction bs generalizing s with
  | nil => exact fun e he => absurd he List.not_mem_nil
  | cons c bs ih =>
    have hc := hbs c (by simp)
    have hfeed : mimeMsgFeed s c = (.fold, [MimeMsg.valueFold c]) := by
      rcases hs with rfl | rfl
      · rw [mimeMsgFeed_value, if_pos hc]
      · rw [mimeMsgFeed_fold, if_pos hc]
    rw [noValue_cons, hfeed]
    refine ⟨?_, ih (Or.inr rfl) fun d hd => hbs d (by simp [hd])⟩
    intro e he
    rw [List.mem_singleton.mp he]
    exact nofun

/-- White space without a fold belongs to no value proper. -/
theorem TypeField.noValue_of_unfolded (h : t.space.lines = []) : NoValue .value t.space.octets := by
  rw [FoldedText.octets, h, List.flatMap_nil, List.append_nil]
  exact noValue_of_lwsp (Or.inl rfl) (t.space_white t.space.line (by simp))

/-! ## What comes out with its type replaced -/

/-- What follows the type comes out as it is behind the same octets, where white space hides
its folds. -/
theorem TypeField.restOut_inj {a a' : List Byte} (ha : LF ∉ a) (ha' : LF ∉ a') :
    a ++ t.restOut = a' ++ (t.rest.octets ++ CRLF) ↔
      a = a' ∧ Seamless (t.mediaType ++ t.rest.line) t.rest.lines := by
  rw [← foldsOut_eq_iff t.rest.continued, TypeField.restOut, FoldedText.octets]
  constructor
  · intro h
    obtain ⟨b, hb⟩ := foldsOut_first (t.mediaType ++ t.rest.line) t.rest.lines
    obtain ⟨b', hb'⟩ := folds_first t.rest.lines
    have hline : LF ∉ t.rest.line := (t.rest.plain t.rest.line (by simp)).2
    rw [List.append_assoc t.rest.line, hb, hb', ← List.append_assoc a, ← List.append_assoc a'] at h
    have hleft : LF ∉ a ++ t.rest.line := by simp [ha, hline]
    have hright : LF ∉ a' ++ t.rest.line := by simp [ha', hline]
    obtain ⟨hfirst, hrest⟩ := crlf_inj hleft hright h
    refine ⟨List.append_cancel_right hfirst, ?_⟩
    rw [hrest, ← hb'] at hb
    exact List.append_cancel_right hb
  · rintro ⟨rfl, hfolds⟩
    rw [hfolds, List.append_assoc]

/-- The white space comes out as it is, or a CR shows. -/
theorem TypeField.space_eq_iff {x y : List Byte} :
    t.spaceOut ++ x = t.space.octets ++ y ↔ Seamless t.space.line t.space.lines ∧ x = y := by
  by_cases hseam : Seamless t.space.line t.space.lines
  · rw [TypeField.spaceOut, (foldsOut_eq_iff t.space.continued).mpr hseam, and_iff_right hseam]
    show t.space.octets ++ x = t.space.octets ++ y ↔ _
    rw [List.append_cancel_left_eq]
  · refine iff_of_false (fun h => ?_) fun h => hseam h.1
    rw [t.space_seamless_iff, not_or, not_not] at hseam
    obtain ⟨l, ls, hls⟩ := List.exists_cons_of_ne_nil hseam.2
    obtain ⟨c, rest, hl, hc⟩ := t.space.continued l (by simp [hls])
    have hnone : ¬ EndsInSpace [] := by simp [EndsInSpace]
    rw [TypeField.spaceOut, FoldedText.octets, hseam.1, hls, foldsOut_false_cons, if_neg hnone, hl]
      at h
    have hcr : CR = c := by
      simp only [List.nil_append, List.flatMap_cons, List.cons_append, List.append_assoc,
        List.cons.injEq] at h
      exact h.2.2.1
    rw [← hcr] at hc
    exact absurd hc (by decide)

/-- No LF is in the type. -/
theorem TypeField.mediaType_noLf : LF ∉ t.mediaType := fun hmem =>
  (restNameChars_apart LF (t.mediaType_char hmem)).2.2.1 rfl

/-- **A field that is copied** is the one with its type replaced when the type is
`text/plain`. -/
theorem TypeField.copied_retyped : t.field.out false = t.retyped ↔
    Seamless t.space.line t.space.lines ∧ t.mediaType = ascii "text/plain" ∧
      Seamless (t.mediaType ++ t.rest.line) t.rest.lines := by
  rw [t.out_eq, TypeField.retyped, t.space_eq_iff]
  exact and_congr_right fun _ => t.restOut_inj t.mediaType_noLf (by decide)

/-- The last space is the same. -/
theorem space_inj {p p' w w' : List Byte} (hw : SP ∉ w) (hw' : SP ∉ w')
    (h : p ++ SP :: w = p' ++ SP :: w') : p = p' ∧ w = w' := by
  rcases List.append_eq_append_iff.mp h with ⟨x, rfl, heq⟩ | ⟨x, rfl, heq⟩
  · cases x with
    | nil => exact ⟨by simp, (List.cons.inj heq).2⟩
    | cons d x =>
      rw [(List.cons.inj heq).2] at hw
      exact absurd (by simp) hw
  · cases x with
    | nil => exact ⟨by simp, (List.cons.inj heq).2.symm⟩
    | cons d x =>
      rw [(List.cons.inj heq).2] at hw'
      exact absurd (by simp) hw'

/-- The last space, and what follows it. -/
theorem exists_last_space {bs : List Byte} (h : SP ∈ bs) :
    ∃ p w, bs = p ++ SP :: w ∧ SP ∉ w := by
  obtain ⟨w, p, hrev, hw⟩ := List.eq_append_cons_of_mem (List.mem_reverse.mpr h)
  refine ⟨p.reverse, w.reverse, ?_, by simpa using hw⟩
  have := congrArg List.reverse hrev
  simpa using this

/-- What has no space stands in front of the first one. -/
theorem before_space {q r p w : List Byte} (hq : SP ∉ q) (h : p ++ SP :: w = q ++ r) :
    ∃ x, p = q ++ x := by
  rcases List.append_eq_append_iff.mp h with ⟨x, rfl, heq⟩ | ⟨x, rfl, -⟩
  · cases x with
    | nil => exact ⟨[], by simp⟩
    | cons d x =>
      obtain ⟨rfl, -⟩ := List.cons.inj heq
      exact absurd (by simp) hq
  · exact ⟨x, rfl⟩

/-- The white space is in one line, and a space is the last octet in front of the type. -/
def TypeField.Spaced (t : TypeField) : Prop :=
  t.space.lines = [] ∧ t.space.line.getLast? = some SP

/-- With a space in front of the type it is the text behind the last one that is replaced. -/
theorem TypeField.replaced_space {e p w a b : List Byte} {c : Byte}
    (hnone : t.space.lines = [] ∨ t.space.line = []) (hmedia : t.mediaType = a ++ c :: b)
    (hspace : SP ∈ t.spaceOut) (hw : SP ∉ w) (hlast : e ++ (t.spaceOut ++ a) = p ++ SP :: w) :
    p ++ SP :: (ascii "text/plain" ++ (b ++ t.restOut)) = e ++ t.retyped ↔
      t.Spaced ∧ b = [] ∧ Seamless (t.mediaType ++ t.rest.line) t.rest.lines := by
  obtain ⟨s, s', hs, hs'⟩ := exists_last_space hspace
  have ha : SP ∉ a := fun hmem =>
    (restNameChars_apart SP (t.mediaType_char (by simp [hmedia, hmem]))).2.2.2.1 rfl
  have hb : LF ∉ b := fun hmem => t.mediaType_noLf (by simp [hmedia, hmem])
  -- the last space of the output is one of the white space, since the type has none
  obtain ⟨rfl, -⟩ : p = e ++ s ∧ w = s' ++ a := by
    refine space_inj hw (by simp [hs', ha]) ?_
    rw [← hlast, hs]
    simp
  rw [List.append_assoc e, List.append_cancel_left_eq]
  by_cases hlines : t.space.lines = []
  -- what stands behind the last space would begin with white space
  · have hline : t.space.line = s ++ SP :: s' := by
      rw [← hs, TypeField.spaceOut, hlines, foldsOut, List.append_nil]
    have hlast : t.space.line.getLast? = some SP ↔ s' = [] := by
      rw [hline]
      constructor
      · intro hsp
        by_contra hne
        obtain ⟨s₀, d, rfl⟩ := (List.eq_nil_or_concat' s').resolve_left hne
        have hd : d = SP := by
          rw [← List.cons_append, ← List.append_assoc, List.getLast?_concat] at hsp
          exact Option.some.inj hsp
        exact hs' (by simp [hd])
      · rintro rfl
        exact List.getLast?_concat
    rw [TypeField.Spaced, hlast, TypeField.retyped, FoldedText.octets, hline, hlines,
      List.flatMap_nil, List.append_nil, List.append_assoc, List.append_cancel_left_eq,
      List.cons_append, List.cons.injEq, and_iff_right rfl, and_iff_right rfl]
    constructor
    · intro h
      have hnil : s' = [] := by
        cases s' with
        | nil => rfl
        | cons d s' =>
          have hd : lwspChar d = true := t.space_white t.space.line (by simp) d (by simp [hline])
          rw [← (List.cons.inj (show 116 :: _ = d :: _ from h)).1] at hd
          exact absurd hd (by decide)
      rw [hnil, List.nil_append, List.append_cancel_left_eq] at h
      have hboth := (@TypeField.restOut_inj t b [] hb List.not_mem_nil).mp h
      exact ⟨hnil, hboth⟩
    · rintro ⟨rfl, hboth⟩
      rw [List.nil_append, List.append_cancel_left_eq]
      exact (@TypeField.restOut_inj t b [] hb List.not_mem_nil).mpr hboth
  -- a fold that is seen leaves a CR in front of every space
  · refine iff_of_false (fun h => ?_) fun h => hlines h.1.1
    obtain ⟨l, ls, hls⟩ := List.exists_cons_of_ne_nil hlines
    obtain ⟨c', rest, hl, hc'⟩ := t.space.continued l (by simp [hls])
    have hnone' : ¬ EndsInSpace [] := by simp [EndsInSpace]
    have hout : s ++ SP :: s' = [CR, LF, CR] ++ (l ++ foldsOut false l ls) := by
      rw [← hs, TypeField.spaceOut, hnone.resolve_left hlines, hls, foldsOut_false_cons,
        if_neg hnone']
      simp
    obtain ⟨s₀, rfl⟩ := before_space (by decide) hout
    rw [TypeField.retyped, FoldedText.octets, hnone.resolve_left hlines, hls, hl] at h
    have hcr : CR = c' := by
      simp only [List.nil_append, List.flatMap_cons, List.cons_append, List.append_assoc,
        List.cons.injEq] at h
      exact h.2.2.1
    rw [← hcr] at hc'
    exact absurd hc' (by decide)

/-- Without one the name of the field, or more, is lost. -/
theorem TypeField.replaced_lost {e p w a b : List Byte} {c : Byte}
    (hmedia : t.mediaType = a ++ c :: b) (hspace : SP ∉ t.spaceOut)
    (hlast : e ++ COLON :: (t.spaceOut ++ a) = p ++ SP :: w) :
    p ++ SP :: (ascii "text/plain" ++ (b ++ t.restOut)) ≠ e ++ COLON :: t.retyped := by
  have hchar {d : Byte} (hd : d ∈ a ∨ d ∈ b) :=
    restNameChars_apart d (t.mediaType_char (by rcases hd with hd | hd <;> simp [hmedia, hd]))
  have hbehind : SP ∉ COLON :: (t.spaceOut ++ a) := by
    simp only [List.mem_cons, List.mem_append, not_or]
    exact ⟨by decide, hspace, fun hmem => (hchar (Or.inl hmem)).2.2.2.1 rfl⟩
  obtain ⟨w₀, rfl⟩ : ∃ w₀, e = p ++ SP :: w₀ := by
    rcases List.append_eq_append_iff.mp hlast with ⟨x, rfl, heq⟩ | ⟨x, rfl, heq⟩
    · rw [heq] at hbehind
      exact absurd (by simp) hbehind
    · cases x with
      | nil => exact absurd (List.cons.inj heq).1 (by decide)
      | cons d x =>
        obtain ⟨rfl, -⟩ := List.cons.inj heq
        exact ⟨x, rfl⟩
  intro h
  rw [List.append_assoc, List.append_cancel_left_eq, List.cons_append, List.cons.injEq,
    and_iff_right rfl, TypeField.retyped, ← List.append_assoc (ascii "text/plain")] at h
  have hregroup :
    w₀ ++ COLON :: (t.space.octets ++ (ascii "text/plain" ++ (t.rest.octets ++ CRLF))) =
      (w₀ ++ COLON :: (t.space.octets ++ ascii "text/plain")) ++ (t.rest.octets ++ CRLF) := by
    simp
  rw [hregroup] at h
  have hb : LF ∉ ascii "text/plain" ++ b := by
    intro hmem
    rcases List.mem_append.mp hmem with hmem | hmem
    · exact absurd hmem (by decide)
    · exact (hchar (Or.inr hmem)).2.2.1 rfl
  -- what follows the type has as many lines as before, so nothing in front of it has an end
  have hcount := congrArg (List.count LF) h
  have hrest : t.restOut.count LF = (t.rest.octets ++ CRLF).count LF := by
    rw [TypeField.restOut, FoldedText.octets, List.count_append, List.count_append,
      count_foldsOut, List.count_append, List.count_append]
    omega
  rw [List.count_append, List.count_eq_zero.mpr hb, hrest] at hcount
  have hright : (w₀ ++ COLON :: (t.space.octets ++ ascii "text/plain") ++
      (t.rest.octets ++ CRLF)).count LF =
        (w₀ ++ COLON :: (t.space.octets ++ ascii "text/plain")).count LF +
          (t.rest.octets ++ CRLF).count LF := List.count_append
  have hfront : LF ∉ w₀ ++ COLON :: (t.space.octets ++ ascii "text/plain") := by
    rw [← List.count_eq_zero]
    omega
  obtain ⟨hsame, -⟩ := (t.restOut_inj hb hfront).mp h
  have hcolon : COLON ∈ ascii "text/plain" ++ b := by
    rw [hsame]
    simp
  rcases List.mem_append.mp hcolon with hmem | hmem
  · exact absurd hmem (by decide)
  · exact (hchar (Or.inr hmem)).2.2.2.2 rfl

end

end Pop3Proxy
