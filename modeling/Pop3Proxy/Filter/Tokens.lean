/-
# What the message tokenizer gives back

Every octet of a message comes back as the payload of an event, or is withheld by
the state, except where the tokenizer leaves `VALUE_CRLF` or `VALUE_CRLF_CR` for
`ERROR` without the octets these two withhold.
-/
import Mathlib.Data.List.Induction
import Pop3Proxy.Filter.MimeMsg

namespace Pop3Proxy

/-! ## Payloads -/

/-- The octets of an event: the first `n` of `data`. -/
def ParserEvent.payload {T : Type} (e : ParserEvent T) : List Byte := e.data.take e.n

/-- The octets of all events, both of a pair included. -/
def payloads {T : Type} (es : List (List (ParserEvent T))) : List Byte :=
  es.flatten.flatMap ParserEvent.payload

/-- The octets read that no event has told yet. -/
def MimeMsgState.withheld : MimeMsgState → List Byte
  | .valueCr => [CR]
  | .valueCrlf => CRLF
  | .valueCrlfCr => CRLF ++ [CR]
  | _ => []

/-- The octets into a fresh `mime_message_parser`. -/
def mimeTokens (bs : List Byte) : MimeMsgState × List (List (ParserEvent MimeMsgType)) :=
  parserRun initCharClass mimeMessageParser mimeMessageParser.startState bs

/-- What has come back of a message, or is withheld. -/
def accounted (bs : List Byte) : List Byte :=
  payloads (mimeTokens bs).2 ++ (mimeTokens bs).1.withheld

/-! ## One octet -/

/-- The transitions that drop what the state withholds. -/
def Forgets (s : MimeMsgState) (c : Byte) : Prop :=
  (s = .valueCrlf ∧ (c = COLON ∨ 127 < c)) ∨ (s = .valueCrlfCr ∧ c ≠ LF)

/-- The octets of two rows of events. -/
theorem payloads_append {T : Type} (es fs : List (List (ParserEvent T))) :
    payloads (es ++ fs) = payloads es ++ payloads fs := by
  simp [payloads]

/-- Behind CRLF only these octets neither go on with the header nor end it. -/
theorem forgets_valueCrlf {c : Byte} : (c = COLON ∨ 127 < c) ↔
    c ≠ CR ∧ lwspChar c = false ∧ nameChar c = false ∧ initCharClass .ctl c = false := by
  simp only [nameChar, lwspChar, initCharClass, COLON, CR, SP, TAB]
  simp [UInt8.lt_iff_toNat_lt, UInt8.le_iff_toNat_le, ← UInt8.toNat_inj]
  omega

open MimeMsg in
/-- Where nothing is dropped, what the state withholds and the octet itself are told or
withheld. -/
theorem mimeMsgFeed_kept {s : MimeMsgState} {c : Byte} (h : ¬ Forgets s c) :
    payloads [(mimeMsgFeed s c).2] ++ (mimeMsgFeed s c).1.withheld = s.withheld ++ [c] := by
  cases s with
  | name0 =>
    rw [mimeMsgFeed_name0]
    split_ifs <;> rfl
  | name =>
    rw [mimeMsgFeed_name]
    split_ifs with hcolon
    · rw [hcolon]
      rfl
    · rfl
    · rfl
  | value =>
    rw [mimeMsgFeed_value]
    split_ifs with hspace hcr
    · rfl
    · rw [hcr]
      rfl
    · rfl
  | valueCr =>
    rw [mimeMsgFeed_valueCr]
    split_ifs with hlf
    · rw [hlf]
      rfl
    · rfl
  | valueCrlf =>
    rw [mimeMsgFeed_valueCrlf]
    split_ifs with hcr hspace hname hctl
    · rw [hcr]
      rfl
    · rfl
    · rfl
    · rfl
    -- behind a value, what is no white space, no control and not of a name is lost
    · refine absurd (Or.inl ⟨rfl, forgets_valueCrlf.mpr ⟨hcr, ?_, ?_, ?_⟩⟩) h <;>
        rw [Bool.not_eq_true] at * <;> assumption
  | fold =>
    rw [mimeMsgFeed_fold]
    split_ifs <;> rfl
  | valueCrlfCr =>
    have hlf : c = LF := by
      by_contra hlf
      exact h (Or.inr ⟨rfl, hlf⟩)
    rw [mimeMsgFeed_valueCrlfCr, if_pos hlf, hlf]
    rfl
  | body =>
    rw [mimeMsgFeed_body]
    split_ifs <;> rfl
  | bodyCr =>
    rw [mimeMsgFeed_bodyCr]
    split_ifs <;> rfl
  | error =>
    rw [mimeMsgFeed_error]
    rfl

/-- Where something is dropped, less is told, and `ERROR` withholds nothing. -/
theorem mimeMsgFeed_forgets {s : MimeMsgState} {c : Byte} (h : Forgets s c) :
    (mimeMsgFeed s c).1 = .error ∧
      (payloads [(mimeMsgFeed s c).2]).length < s.withheld.length + 1 := by
  rcases h with ⟨rfl, hc⟩ | ⟨rfl, hlf⟩
  · obtain ⟨hcr, hspace, hname, hctl⟩ := forgets_valueCrlf.mp hc
    simp [mimeMsgFeed_valueCrlf, hcr, hspace, hname, hctl, payloads, ParserEvent.payload,
      MimeMsg.unexpected, MimeMsgState.withheld]
  · simp [mimeMsgFeed_valueCrlfCr, hlf, payloads, ParserEvent.payload, MimeMsg.valueEnd,
      MimeMsg.unexpected, MimeMsgState.withheld]

/-! ## A stream -/

/-- The last octet makes the last row of events. -/
theorem mimeTokens_concat (bs : List Byte) (c : Byte) :
    mimeTokens (bs ++ [c]) = ((mimeMsgFeed (mimeTokens bs).1 c).1,
      (mimeTokens bs).2 ++ [(mimeMsgFeed (mimeTokens bs).1 c).2]) :=
  parserRun_append _ _ _ _ _

/-- One octet more. -/
theorem accounted_concat {bs : List Byte} {c : Byte} (h : ¬ Forgets (mimeTokens bs).1 c) :
    accounted (bs ++ [c]) = accounted bs ++ [c] := by
  rw [accounted, mimeTokens_concat, payloads_append, List.append_assoc, mimeMsgFeed_kept h,
    accounted, List.append_assoc]

/-- An octet more adds one octet, or fewer where something is dropped. -/
theorem length_accounted_concat (bs : List Byte) (c : Byte) :
    (accounted (bs ++ [c])).length ≤ (accounted bs).length + 1 ∧
      (Forgets (mimeTokens bs).1 c →
      (accounted (bs ++ [c])).length < (accounted bs).length + 1) := by
  by_cases h : Forgets (mimeTokens bs).1 c
  · obtain ⟨herror, hlt⟩ := mimeMsgFeed_forgets h
    have hlen : (accounted (bs ++ [c])).length < (accounted bs).length + 1 := by
      rw [accounted, mimeTokens_concat, payloads_append, herror, accounted]
      simp only [show MimeMsgState.error.withheld = [] from rfl, List.append_nil,
        List.length_append]
      omega
    exact ⟨Nat.le_of_lt hlen, fun _ => hlen⟩
  · rw [accounted_concat h]
    exact ⟨by simp, fun hd => absurd hd h⟩

/-- What is lost does not come back. -/
theorem length_accounted_append (bs cs : List Byte) :
    (accounted (bs ++ cs)).length ≤ (accounted bs).length + cs.length := by
  induction cs using List.reverseRecOn with
  | nil => simp
  | append_singleton cs c ih =>
    have h := (length_accounted_concat (bs ++ cs) c).1
    rw [← List.append_assoc, @List.length_append _ cs, List.length_singleton]
    omega

/-! ## Header fields -/

/-- What the value of a field is made of: an octet of its own, or one that ends a run of
white space, a fold, or a CR without LF. -/
inductive ValuePiece : List Byte → Prop
  | octet {c : Byte} (hspace : lwspChar c = false) (hcr : c ≠ CR) : ValuePiece [c]
  | space {w : List Byte} {c : Byte} (hw : w ≠ []) (hspaces : ∀ d ∈ w, lwspChar d)
      (hspace : lwspChar c = false) : ValuePiece (w ++ [c])
  | fold {w : List Byte} {c : Byte} (hw : w ≠ []) (hspaces : ∀ d ∈ w, lwspChar d)
      (hspace : lwspChar c = false) : ValuePiece (CRLF ++ w ++ [c])
  | cr {c : Byte} (hlf : c ≠ LF) : ValuePiece [CR, c]

/-- A value up to the CRLF that ends it. -/
inductive FieldValue : List Byte → Prop
  | nil : FieldValue []
  | piece {v w : List Byte} (hv : FieldValue v) (hw : ValuePiece w) : FieldValue (v ++ w)

/-- Whole header fields, as the tokenizer reads them. -/
inductive HeaderFields : List Byte → Prop
  | nil : HeaderFields []
  | field {h name v : List Byte} (hh : HeaderFields h) (hname : name ≠ [])
      (hchars : ∀ c ∈ name, nameChar c) (hv : FieldValue v) :
      HeaderFields (h ++ name ++ COLON :: v ++ CRLF)

/-- Behind one field or more comes an octet that neither begins a field, nor folds the last
one, nor ends the header; or a CR without LF. -/
def Loses (bs : List Byte) : Prop :=
  ∃ h rest, HeaderFields h ∧ h ≠ [] ∧
    ((∃ c, (c = COLON ∨ 127 < c) ∧ bs = h ++ c :: rest) ∨
      ∃ c, c ≠ LF ∧ bs = h ++ CR :: c :: rest)

/-- An octet of a name is none of those with a meaning of their own. -/
theorem nameChar_ne {c : Byte} (h : nameChar c) :
    c ≠ CR ∧ lwspChar c = false ∧ c ≠ COLON := by
  refine ⟨?_, ?_, ?_⟩
  · rintro rfl
    exact absurd h (by decide)
  · rw [Bool.eq_false_iff]
    intro hspace
    rcases lwsp_iff.mp hspace with rfl | rfl
    · exact absurd h (by decide)
    · exact absurd h (by decide)
  · rintro rfl
    exact absurd h (by decide)

/-- The state that octets lead to. -/
def mimeStateAfter (s : MimeMsgState) (bs : List Byte) : MimeMsgState :=
  bs.foldl (fun s c => (mimeMsgFeed s c).1) s

@[simp] theorem mimeStateAfter_nil (s : MimeMsgState) : mimeStateAfter s [] = s := rfl

@[simp] theorem mimeStateAfter_cons (s : MimeMsgState) (c : Byte) (bs : List Byte) :
    mimeStateAfter s (c :: bs) = mimeStateAfter (mimeMsgFeed s c).1 bs := rfl

@[simp] theorem mimeStateAfter_append (s : MimeMsgState) (bs cs : List Byte) :
    mimeStateAfter s (bs ++ cs) = mimeStateAfter (mimeStateAfter s bs) cs :=
  List.foldl_append

/-- The state the tokenizer is in. -/
theorem mimeTokens_state (bs : List Byte) : (mimeTokens bs).1 = mimeStateAfter .name0 bs := by
  induction bs using List.reverseRecOn with
  | nil => rfl
  | append_singleton bs c ih =>
    rw [mimeTokens_concat, mimeStateAfter_append, ih]
    rfl

/-! ### What the tokenizer makes of fields -/

/-- A character of a name keeps to the name, or starts one. -/
theorem mimeMsgFeed_nameChar {s : MimeMsgState} {c : Byte}
    (hs : s = .name0 ∨ s = .valueCrlf ∨ s = .name)
    (hc : nameChar c) : (mimeMsgFeed s c).1 = .name := by
  obtain ⟨hcr, hspace, hcolon⟩ := nameChar_ne hc
  rcases hs with rfl | rfl | rfl
  · simp [mimeMsgFeed_name0, hc]
  · simp [mimeMsgFeed_valueCrlf, hc, hcr, hspace]
  · simp [mimeMsgFeed_name, hc, hcolon]

/-- So does a whole name. -/
theorem mimeStateAfter_name {s : MimeMsgState} {name : List Byte}
    (hs : s = .name0 ∨ s = .valueCrlf ∨ s = .name) (hname : name ≠ [])
    (hchars : ∀ c ∈ name, nameChar c) : mimeStateAfter s name = .name := by
  induction name generalizing s with
  | nil => exact absurd rfl hname
  | cons c name ih =>
    have hstep := mimeMsgFeed_nameChar hs (hchars c (by simp))
    rw [mimeStateAfter_cons, hstep]
    by_cases hnil : name = []
    · rw [hnil]
      rfl
    · exact ih (Or.inr (Or.inr rfl)) hnil fun d hd => hchars d (by simp [hd])

/-- White space behind white space is still a fold. -/
theorem mimeStateAfter_spaces {w : List Byte} (hspaces : ∀ d ∈ w, lwspChar d) :
    mimeStateAfter .fold w = .fold := by
  induction w with
  | nil => rfl
  | cons d w ih =>
    rw [mimeStateAfter_cons, mimeMsgFeed_fold, if_pos (hspaces d (by simp))]
    exact ih fun e he => hspaces e (by simp [he])

/-- A piece of a value leads back to the value. -/
theorem mimeStateAfter_piece {w : List Byte} (hw : ValuePiece w) :
    mimeStateAfter .value w = .value := by
  cases hw with
  | octet hspace hcr => simp [mimeMsgFeed_value, hspace, hcr]
  | @space w c hw hspaces hspace =>
    obtain ⟨d, w, rfl⟩ := List.exists_cons_of_ne_nil hw
    have hd := hspaces d (by simp)
    have hrun := mimeStateAfter_spaces fun e he => hspaces e (List.mem_cons_of_mem d he)
    simp [mimeMsgFeed_value, hd, hrun, mimeMsgFeed_fold, hspace]
  | @fold w c hw hspaces hspace =>
    obtain ⟨d, w, rfl⟩ := List.exists_cons_of_ne_nil hw
    have hd := hspaces d (by simp)
    have hcr : d ≠ CR := by
      rintro rfl
      exact absurd hd (by decide)
    have hrun := mimeStateAfter_spaces fun e he => hspaces e (List.mem_cons_of_mem d he)
    have hcrlf : mimeStateAfter .value CRLF = .valueCrlf := by decide
    rw [mimeStateAfter_append, mimeStateAfter_append, hcrlf]
    simp [mimeMsgFeed_valueCrlf, hcr, hd, hrun, mimeMsgFeed_fold, hspace]
  | @cr c hlf =>
    have hcr : mimeStateAfter .value [CR] = .valueCr := by decide
    rw [← List.singleton_append, mimeStateAfter_append, hcr]
    simp [mimeMsgFeed_valueCr, hlf]

/-- So does a value made of them. -/
theorem mimeStateAfter_value {v : List Byte} (hv : FieldValue v) :
    mimeStateAfter .value v = .value := by
  induction hv with
  | nil => rfl
  | piece hv hw ih => rw [mimeStateAfter_append, ih, mimeStateAfter_piece hw]

/-- Behind whole fields the next one may begin. -/
theorem mimeStateAfter_fields {h : List Byte} (hh : HeaderFields h) :
    mimeStateAfter .name0 h = if h = [] then .name0 else .valueCrlf := by
  induction hh with
  | nil => rfl
  | @field h name v hh hname hchars hv ih =>
    have hs : mimeStateAfter .name0 h = .name0 ∨ mimeStateAfter .name0 h = .valueCrlf ∨
        mimeStateAfter .name0 h = .name := by
      rw [ih]
      split_ifs <;> simp
    have hvalue : mimeStateAfter .name (COLON :: v) = .value := by
      rw [mimeStateAfter_cons, show (mimeMsgFeed .name COLON).1 = .value from by decide,
        mimeStateAfter_value hv]
    have hcrlf : mimeStateAfter .value CRLF = .valueCrlf := by decide
    rw [if_neg (by simp), mimeStateAfter_append, mimeStateAfter_append, mimeStateAfter_append,
      mimeStateAfter_name hs hname hchars, hvalue, hcrlf]

/-! ### What each state has read -/

/-- Fields, and one whose value has not come to its end. -/
inductive OpenField : List Byte → Prop
  | intro {h name v : List Byte} (hh : HeaderFields h) (hname : name ≠ [])
      (hchars : ∀ c ∈ name, nameChar c) (hv : FieldValue v) : OpenField (h ++ name ++ COLON :: v)

/-- A piece more of the value. -/
theorem OpenField.piece {p w : List Byte} (hp : OpenField p) (hw : ValuePiece w) :
    OpenField (p ++ w) := by
  obtain ⟨hh, hname, hchars, hv⟩ := hp
  rw [List.append_assoc, List.cons_append]
  exact .intro hh hname hchars (.piece hv hw)

/-- The CRLF that ends the field. -/
theorem OpenField.close {p : List Byte} (hp : OpenField p) : HeaderFields (p ++ CRLF) := by
  obtain ⟨hh, hname, hchars, hv⟩ := hp
  exact .field hh hname hchars hv

/-- What has been read in each state of the header. -/
inductive Reading : List Byte → MimeMsgState → Prop
  | name0 : Reading [] .name0
  | name {h name : List Byte} (hh : HeaderFields h) (hname : name ≠ [])
      (hchars : ∀ c ∈ name, nameChar c) : Reading (h ++ name) .name
  | value {p : List Byte} (hp : OpenField p) : Reading p .value
  | valueCr {p : List Byte} (hp : OpenField p) : Reading (p ++ [CR]) .valueCr
  | valueCrlf {p : List Byte} (hp : OpenField p) : Reading (p ++ CRLF) .valueCrlf
  | space {p w : List Byte} (hp : OpenField p) (hw : w ≠ []) (hspaces : ∀ d ∈ w, lwspChar d) :
      Reading (p ++ w) .fold
  | fold {p w : List Byte} (hp : OpenField p) (hw : w ≠ []) (hspaces : ∀ d ∈ w, lwspChar d) :
      Reading (p ++ (CRLF ++ w)) .fold
  | valueCrlfCr {p : List Byte} (hp : OpenField p) : Reading (p ++ CRLF ++ [CR]) .valueCrlfCr
  | past {bs : List Byte} {s : MimeMsgState} (hs : s = .body ∨ s = .bodyCr ∨ s = .error) :
      Reading bs s

/-- One octet more. -/
theorem Reading.concat {bs : List Byte} {s : MimeMsgState} (h : Reading bs s) (c : Byte) :
    Reading (bs ++ [c]) (mimeMsgFeed s c).1 := by
  -- what a value is made of can be added to any field that is still open
  have hpiece {p : List Byte} (hp : OpenField p) {w : List Byte} (hw : ValuePiece w) :
      Reading (p ++ w) .value :=
    .value (hp.piece hw)
  cases h with
  | name0 =>
    rw [mimeMsgFeed_name0]
    split_ifs with hc
    · show Reading ([] ++ [c]) .name
      exact .name .nil (by simp) (by simpa using hc)
    · exact .past (by simp)
  | @name h name hh hname hchars =>
    rw [mimeMsgFeed_name]
    split_ifs with hcolon hc
    · rw [hcolon]
      exact .value (.intro hh hname hchars .nil)
    · rw [List.append_assoc]
      exact .name hh (by simp) (by simpa [or_imp, forall_and] using ⟨hchars, hc⟩)
    · exact .past (by simp)
  | value hp =>
    rw [mimeMsgFeed_value]
    split_ifs with hspace hcr
    · exact .space hp (by simp) (by simpa using hspace)
    · rw [hcr]
      exact .valueCr hp
    · exact hpiece hp (.octet (Bool.eq_false_iff.mpr hspace) hcr)
  | valueCr hp =>
    rw [mimeMsgFeed_valueCr, List.append_assoc]
    split_ifs with hlf
    · rw [hlf]
      exact .valueCrlf hp
    · exact hpiece hp (.cr hlf)
  | @valueCrlf p hp =>
    rw [mimeMsgFeed_valueCrlf]
    split_ifs with hcr hspace hc hctl
    · rw [hcr]
      exact .valueCrlfCr hp
    · rw [List.append_assoc]
      exact .fold hp (by simp) (by simpa using hspace)
    · exact .name hp.close (by simp) (by simpa using hc)
    · exact .past (by simp)
    · exact .past (by simp)
  | space hp hw hspaces =>
    rw [mimeMsgFeed_fold, List.append_assoc]
    split_ifs with hspace
    · exact .space hp (by simp) (by simpa [or_imp, forall_and] using ⟨hspaces, hspace⟩)
    · exact hpiece hp (.space hw hspaces (Bool.eq_false_iff.mpr hspace))
  | fold hp hw hspaces =>
    rw [mimeMsgFeed_fold, List.append_assoc, List.append_assoc]
    split_ifs with hspace
    · exact .fold hp (by simp) (by simpa [or_imp, forall_and] using ⟨hspaces, hspace⟩)
    · rw [← List.append_assoc CRLF]
      exact hpiece hp (.fold hw hspaces (Bool.eq_false_iff.mpr hspace))
  | valueCrlfCr hp =>
    rw [mimeMsgFeed_valueCrlfCr]
    split_ifs <;> exact .past (by simp)
  | past hs =>
    rcases hs with rfl | rfl | rfl
    · rw [mimeMsgFeed_body]
      split_ifs <;> exact .past (by simp)
    · rw [mimeMsgFeed_bodyCr]
      split_ifs <;> exact .past (by simp)
    · rw [mimeMsgFeed_error]
      exact .past (by simp)

/-- **What was read** is what the state says. -/
theorem reading_mimeTokens (bs : List Byte) : Reading bs (mimeTokens bs).1 := by
  induction bs using List.reverseRecOn with
  | nil => exact .name0
  | append_singleton bs c ih =>
    rw [mimeTokens_concat]
    exact ih.concat c

/-- Octets are dropped only behind whole fields. -/
theorem loses_of_forgets {bs : List Byte} {c : Byte} (h : Forgets (mimeTokens bs).1 c)
    (rest : List Byte) : Loses (bs ++ c :: rest) := by
  have hread := reading_mimeTokens bs
  rcases h with ⟨hs, hc⟩ | ⟨hs, hc⟩
  · rw [hs] at hread
    cases hread with
    | valueCrlf hp => exact ⟨_, rest, hp.close, by simp, Or.inl ⟨c, hc, rfl⟩⟩
    | past hs => simp at hs
  · rw [hs] at hread
    cases hread with
    | valueCrlfCr hp => exact ⟨_, rest, hp.close, by simp, Or.inr ⟨c, hc, by simp⟩⟩
    | past hs => simp at hs

/-- Behind whole fields they are dropped. -/
theorem Loses.forgets {bs : List Byte} (h : Loses bs) :
    ∃ us c vs, bs = us ++ c :: vs ∧ Forgets (mimeTokens us).1 c := by
  obtain ⟨h, rest, hh, hnil, ⟨c, hc, rfl⟩ | ⟨c, hc, rfl⟩⟩ := h
  · have hstate : (mimeTokens h).1 = .valueCrlf := by
      rw [mimeTokens_state, mimeStateAfter_fields hh, if_neg hnil]
    exact ⟨h, c, rest, rfl, Or.inl ⟨hstate, hc⟩⟩
  · have hstate : (mimeTokens (h ++ [CR])).1 = .valueCrlfCr := by
      rw [mimeTokens_state, mimeStateAfter_append, mimeStateAfter_fields hh, if_neg hnil]
      rfl
    exact ⟨h ++ [CR], c, rest, by simp, Or.inr ⟨hstate, hc⟩⟩

/-- **Nothing is lost** of a message up to such an octet, and what is lost there does not
come back. -/
theorem tokens_complete (bs : List Byte) : accounted bs = bs ↔ ¬ Loses bs := by
  constructor
  · intro heq hloses
    obtain ⟨us, c, vs, rfl, hforgets⟩ := hloses.forgets
    have hlen := congrArg List.length heq
    have hshort := (length_accounted_concat us c).2 hforgets
    have hus := length_accounted_append [] us
    have hrest := length_accounted_append (us ++ [c]) vs
    rw [List.nil_append, show accounted [] = [] from rfl, List.length_nil] at hus
    rw [← List.append_cons] at hrest
    rw [List.length_append, List.length_cons] at hlen
    omega
  · intro hkeeps
    induction bs using List.reverseRecOn with
    | nil => rfl
    | append_singleton bs c ih =>
      have hforgets : ¬ Forgets (mimeTokens bs).1 c :=
        fun h => hkeeps (loses_of_forgets h [])
      have hbs : ¬ Loses bs := by
        intro h
        obtain ⟨us, d, vs, rfl, hd⟩ := h.forgets
        refine hkeeps ?_
        rw [List.append_assoc, List.cons_append]
        exact loses_of_forgets hd (vs ++ [c])
      rw [accounted_concat hforgets, ih hbs]

/-- A colon where the next field would begin. -/
theorem tokens_lost :
    ¬ ∀ bs, accounted bs = bs := by
  intro h
  have h := h (ascii "a:" ++ CRLF ++ ascii ":")
  revert h
  decide

end Pop3Proxy
