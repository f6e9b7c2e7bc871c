/-
# What the message tokenizer makes of a header

A field is recognised when the one in front of it has ended.  White space at the end
of a value hides the CRLF that ends it, so the next field, or the empty line, becomes
part of that value.
-/
import Pop3Proxy.Filter.Tokens

namespace Pop3Proxy

/-! ## Headers -/

/-- A header field: its name, and the lines of its value. -/
structure HeaderField where
  name : List Byte
  line : List Byte
  lines : List (List Byte)
  name_ne : name ≠ []
  name_chars : ∀ c ∈ name, nameChar c
  plain : ∀ l ∈ line :: lines, CR ∉ l ∧ LF ∉ l
  continued : ∀ l ∈ lines, ∃ c rest, l = c :: rest ∧ lwspChar c

/-- The value, folded. -/
def HeaderField.value (f : HeaderField) : List Byte := f.line ++ f.lines.flatMap (CRLF ++ ·)

/-- The octets of the field. -/
def HeaderField.text (f : HeaderField) : List Byte := f.name ++ COLON :: f.value ++ CRLF

/-- SPACE or TAB is the last octet. -/
def EndsInSpace (v : List Byte) : Prop := ∃ c, v.getLast? = some c ∧ lwspChar c

/-- The fields one behind the other. -/
def headerText (fs : List HeaderField) : List Byte := fs.flatMap HeaderField.text

/-- The types of event that show the structure of a message. -/
def MimeMsgType.structural : MimeMsgType → Bool
  | .name | .nameEnd | .valueEnd | .bodyStart => true
  | _ => false

/-- The events that show the structure of a message, in order. -/
def structureOf (es : List (List (ParserEvent MimeMsgType))) : List (ParserEvent MimeMsgType) :=
  es.flatten.filter (·.type.structural)

/-- The events a field should give. -/
def HeaderField.events (f : HeaderField) : List (ParserEvent MimeMsgType) :=
  f.name.map MimeMsg.name ++ [MimeMsg.nameEnd COLON, MimeMsg.valueEnd LF]

/-- The structure of the header comes back: of each field its name, the end of the name and
the end of the value, in front of the next field; and the start of the body, once, at the
empty line. -/
structure HeaderRecovered (fs : List HeaderField) (body : List Byte) : Prop where
  message : structureOf (mimeTokens (headerText fs ++ CRLF ++ body)).2 =
    fs.flatMap HeaderField.events ++ [MimeMsg.bodyStart LF]
  header : structureOf (mimeTokens (headerText fs ++ CRLF)).2 =
    fs.flatMap HeaderField.events ++ [MimeMsg.bodyStart LF]
  fields : MimeMsg.bodyStart LF ∉ structureOf (mimeTokens (headerText fs)).2

/-! ## Structure and state, octet by octet -/

/-- The structure that octets show, from a state. -/
def structureFrom (s : MimeMsgState) (bs : List Byte) : List (ParserEvent MimeMsgType) :=
  structureOf (parserRun initCharClass mimeMessageParser s bs).2

@[simp] theorem structureFrom_nil (s : MimeMsgState) : structureFrom s [] = [] := rfl

/-- The first octet shows its part of the structure. -/
theorem structureFrom_cons (s : MimeMsgState) (c : Byte) (bs : List Byte) :
    structureFrom s (c :: bs) =
      (mimeMsgFeed s c).2.filter (·.type.structural) ++ structureFrom (mimeMsgFeed s c).1 bs := by
  simp [structureFrom, structureOf, parserRun, mimeMsgFeed]

/-- Two pieces show their structure one after the other. -/
theorem structureFrom_append (s : MimeMsgState) (bs cs : List Byte) :
    structureFrom s (bs ++ cs) =
      structureFrom s bs ++ structureFrom (mimeStateAfter s bs) cs := by
  induction bs generalizing s with
  | nil => rfl
  | cons c bs ih =>
    rw [List.cons_append, structureFrom_cons, structureFrom_cons, ih, mimeStateAfter_cons,
      List.append_assoc]

/-- What is shown from the start. -/
theorem structureOf_mimeTokens (bs : List Byte) :
    structureOf (mimeTokens bs).2 = structureFrom .name0 bs := rfl

/-- The end of the last value, which the next field or the empty line tells. -/
def MimeMsgState.pending : MimeMsgState → List (ParserEvent MimeMsgType)
  | .valueCrlf => [MimeMsg.valueEnd LF]
  | _ => []

/-! ## Values -/

/-- What the value read so far leaves: `FOLD` behind white space, `VALUE` otherwise. -/
def InValue (v : List Byte) (s : MimeMsgState) : Prop :=
  (s = .value ∧ ¬ EndsInSpace v) ∨ (s = .fold ∧ EndsInSpace v)

/-- The last octet tells whether the value ends in white space. -/
theorem endsInSpace_concat {v : List Byte} {c : Byte} :
    EndsInSpace (v ++ [c]) ↔ lwspChar c := by
  simp [EndsInSpace]

/-- An octet that is no CR keeps to the value. -/
theorem InValue.octet {v : List Byte} {s : MimeMsgState} (h : InValue v s) {c : Byte}
    (hcr : c ≠ CR) :
    structureFrom s [c] = [] ∧ InValue (v ++ [c]) (mimeMsgFeed s c).1 := by
  rw [structureFrom_cons]
  unfold InValue
  rw [endsInSpace_concat]
  rcases h with ⟨rfl, -⟩ | ⟨rfl, -⟩
  · rw [mimeMsgFeed_value, if_neg hcr]
    by_cases hspace : lwspChar c <;> simp [hspace, MimeMsg.valueFold, MimeMsg.value,
      MimeMsgType.structural]
  · rw [mimeMsgFeed_fold]
    by_cases hspace : lwspChar c <;> simp [hspace, MimeMsg.valueFold, MimeMsg.value,
      MimeMsgType.structural]

/-- A line of a value. -/
theorem InValue.line {v : List Byte} {s : MimeMsgState} (h : InValue v s) {l : List Byte}
    (hl : CR ∉ l) :
    structureFrom s l = [] ∧ InValue (v ++ l) (mimeStateAfter s l) := by
  induction l using List.reverseRecOn with
  | nil => simpa using h
  | append_singleton l c ih =>
    simp only [List.mem_append, List.mem_singleton, not_or] at hl
    obtain ⟨hquiet, hin⟩ := ih hl.1
    obtain ⟨hquiet', hin'⟩ := hin.octet (Ne.symm hl.2)
    rw [structureFrom_append, hquiet, hquiet', mimeStateAfter_append, ← List.append_assoc]
    exact ⟨rfl, hin'⟩

/-- The CRLF behind what has been read: it is seen unless white space hides it. -/
theorem InValue.close {v : List Byte} {s : MimeMsgState} (h : InValue v s) :
    structureFrom s CRLF = [] ∧ ((mimeStateAfter s CRLF = .valueCrlf ∧ ¬ EndsInSpace v) ∨
      (mimeStateAfter s CRLF = .value ∧ EndsInSpace v)) := by
  rcases h with ⟨rfl, hv⟩ | ⟨rfl, hv⟩
  · exact ⟨by decide, Or.inl ⟨by decide, hv⟩⟩
  · exact ⟨by decide, Or.inr ⟨by decide, hv⟩⟩

/-- The next line, which begins with white space, seen or not. -/
theorem InValue.continued {v : List Byte} {s : MimeMsgState} (h : InValue v s) {l : List Byte}
    (hl : CR ∉ l) (hspace : ∃ c rest, l = c :: rest ∧ lwspChar c) :
    structureFrom s (CRLF ++ l) = [] ∧
    InValue (v ++ (CRLF ++ l)) (mimeStateAfter s (CRLF ++ l)) := by
  obtain ⟨c, rest, rfl, hc⟩ := hspace
  have hcr : c ≠ CR := fun h => hl (by simp [h])
  obtain ⟨hquiet, hstate⟩ := h.close
  have hfold : structureFrom (mimeStateAfter s CRLF) [c] = [] ∧
      mimeStateAfter (mimeStateAfter s CRLF) [c] = .fold := by
    rcases hstate with ⟨hs, -⟩ | ⟨hs, -⟩
    · rw [hs, structureFrom_cons, mimeStateAfter_cons, mimeMsgFeed_valueCrlf, if_neg hcr,
        if_pos hc]
      exact ⟨rfl, rfl⟩
    · rw [hs, structureFrom_cons, mimeStateAfter_cons, mimeMsgFeed_value, if_pos hc]
      exact ⟨rfl, rfl⟩
  have hin : InValue (v ++ CRLF ++ [c]) (mimeStateAfter s (CRLF ++ [c])) := by
    rw [mimeStateAfter_append, hfold.2]
    exact Or.inr ⟨rfl, endsInSpace_concat.mpr hc⟩
  obtain ⟨hquiet', hin'⟩ := hin.line fun h => hl (List.mem_cons_of_mem c h)
  have hl' : CRLF ++ c :: rest = CRLF ++ [c] ++ rest := by simp
  rw [hl', structureFrom_append, hquiet', structureFrom_append, hquiet, hfold.1,
    mimeStateAfter_append, ← List.append_assoc, ← List.append_assoc]
  exact ⟨rfl, hin'⟩

/-- A whole value. -/
theorem InValue.value (f : HeaderField) :
    structureFrom .value f.value = [] ∧ InValue f.value (mimeStateAfter .value f.value) := by
  have hlines : ∀ (lines : List (List Byte)) (v : List Byte) (s : MimeMsgState), InValue v s →
      (∀ l ∈ lines, CR ∉ l ∧ ∃ c rest, l = c :: rest ∧ lwspChar c) →
      structureFrom s (lines.flatMap (CRLF ++ ·)) = [] ∧
        InValue (v ++ lines.flatMap (CRLF ++ ·))
          (mimeStateAfter s (lines.flatMap (CRLF ++ ·))) := by
    intro lines
    induction lines with
    | nil =>
      intro v s h _
      simpa using h
    | cons l lines ih =>
      intro v s h hlines
      obtain ⟨hl, hspace⟩ := hlines l (by simp)
      obtain ⟨hquiet, hin⟩ := h.continued hl hspace
      obtain ⟨hquiet', hin'⟩ := ih _ _ hin fun m hm => hlines m (by simp [hm])
      rw [List.flatMap_cons, structureFrom_append, hquiet, hquiet', mimeStateAfter_append,
        ← List.append_assoc v]
      exact ⟨rfl, hin'⟩
  have hstart : InValue [] .value := Or.inl ⟨rfl, by simp [EndsInSpace]⟩
  obtain ⟨hquiet, hin⟩ := hstart.line (f.plain f.line (by simp)).1
  obtain ⟨hquiet', hin'⟩ := hlines f.lines _ _ hin fun l hl =>
    ⟨(f.plain l (by simp [hl])).1, f.continued l hl⟩
  rw [HeaderField.value, structureFrom_append, hquiet, hquiet', mimeStateAfter_append]
  exact ⟨rfl, hin'⟩

/-! ## Fields -/

/-- The states in which the next field comes: it is part of the last value in `VALUE`. -/
def AtField (s : MimeMsgState) : Prop := s = .name0 ∨ s = .valueCrlf ∨ s = .value

/-- The name, where it is recognised. -/
theorem structureFrom_name {s : MimeMsgState} (hs : s = .name0 ∨ s = .valueCrlf)
    {name : List Byte} (hname : name ≠ []) (hchars : ∀ c ∈ name, nameChar c) :
    structureFrom s name = s.pending ++ name.map MimeMsg.name := by
  have hrest : ∀ name : List Byte, (∀ c ∈ name, nameChar c) →
      structureFrom .name name = name.map MimeMsg.name := by
    intro name hchars
    induction name with
    | nil => rfl
    | cons c name ih =>
      have hc := hchars c (by simp)
      rw [structureFrom_cons, mimeMsgFeed_name, if_neg (nameChar_ne hc).2.2, if_pos hc,
        ih fun d hd => hchars d (by simp [hd])]
      rfl
  obtain ⟨c, name, rfl⟩ := List.exists_cons_of_ne_nil hname
  have hc := hchars c (by simp)
  obtain ⟨hcr, hspace, -⟩ := nameChar_ne hc
  have hname' := hrest name fun d hd => hchars d (by simp [hd])
  rcases hs with rfl | rfl
  · rw [structureFrom_cons, mimeMsgFeed_name0, if_pos hc, hname']
    rfl
  · rw [structureFrom_cons, mimeMsgFeed_valueCrlf, if_neg hcr, if_neg (by simp [hspace]),
      if_pos hc, hname']
    rfl

/-- The name and the colon, where they are part of the last value. -/
theorem swallowed_name (f : HeaderField) :
    structureFrom .value (f.name ++ [COLON]) = [] ∧
      mimeStateAfter .value (f.name ++ [COLON]) = .value := by
  have hstart : InValue [] .value := Or.inl ⟨rfl, by simp [EndsInSpace]⟩
  have hcr : CR ∉ f.name ++ [COLON] := by
    intro h
    rcases List.mem_append.mp h with h | h
    · exact absurd rfl (nameChar_ne (f.name_chars CR h)).1
    · exact absurd (List.mem_singleton.mp h) (by decide)
  obtain ⟨hquiet, ⟨hs, -⟩ | ⟨-, hspace⟩⟩ := hstart.line hcr
  · exact ⟨hquiet, hs⟩
  · rw [List.nil_append, endsInSpace_concat] at hspace
    exact absurd hspace (by decide)

/-- The name and the colon, where they are recognised. -/
theorem recognised_name {s : MimeMsgState} (hs : s = .name0 ∨ s = .valueCrlf) (f : HeaderField) :
    structureFrom s (f.name ++ [COLON]) =
        s.pending ++ f.name.map MimeMsg.name ++ [MimeMsg.nameEnd COLON] ∧
      mimeStateAfter s (f.name ++ [COLON]) = .value := by
  have hstate : mimeStateAfter s f.name = .name :=
    mimeStateAfter_name (by rcases hs with rfl | rfl <;> simp) f.name_ne f.name_chars
  rw [structureFrom_append, structureFrom_name hs f.name_ne f.name_chars, mimeStateAfter_append,
    hstate]
  exact ⟨rfl, by decide⟩

/-- A field is its name, the colon, and its value with a CRLF. -/
theorem HeaderField.text_eq (f : HeaderField) :
    f.text = f.name ++ [COLON] ++ (f.value ++ CRLF) := by
  simp [HeaderField.text]

/-- Behind the colon a field shows no structure; what it leaves depends on its value only. -/
theorem value_close (f : HeaderField) :
    structureFrom .value (f.value ++ CRLF) = [] ∧
      ((mimeStateAfter .value (f.value ++ CRLF) = .valueCrlf ∧ ¬ EndsInSpace f.value) ∨
        (mimeStateAfter .value (f.value ++ CRLF) = .value ∧ EndsInSpace f.value)) := by
  obtain ⟨hquiet, hin⟩ := InValue.value f
  obtain ⟨hquiet', hstate⟩ := hin.close
  rw [structureFrom_append, hquiet, hquiet', mimeStateAfter_append]
  exact ⟨rfl, hstate⟩

/-- A field that is recognised. -/
theorem structureFrom_field {s : MimeMsgState} (hs : s = .name0 ∨ s = .valueCrlf)
    (f : HeaderField) :
    structureFrom s f.text =
      s.pending ++ f.name.map MimeMsg.name ++ [MimeMsg.nameEnd COLON] := by
  obtain ⟨hname, hstate⟩ := recognised_name hs f
  rw [f.text_eq, structureFrom_append, hname, hstate, (value_close f).1, List.append_nil]

/-- A field that is part of the last value. -/
theorem structureFrom_swallowed (f : HeaderField) : structureFrom .value f.text = [] := by
  obtain ⟨hname, hstate⟩ := swallowed_name f
  rw [f.text_eq, structureFrom_append, hname, hstate, (value_close f).1, List.append_nil]

/-- What a field leaves does not depend on whether it is recognised. -/
theorem mimeStateAfter_field {s : MimeMsgState} (hs : AtField s) (f : HeaderField) :
    (mimeStateAfter s f.text = .valueCrlf ∧ ¬ EndsInSpace f.value) ∨
      (mimeStateAfter s f.text = .value ∧ EndsInSpace f.value) := by
  have hstate : mimeStateAfter s (f.name ++ [COLON]) = .value := by
    rcases hs with hs | hs | rfl
    · exact (recognised_name (Or.inl hs) f).2
    · exact (recognised_name (Or.inr hs) f).2
    · exact (swallowed_name f).2
  rw [f.text_eq, mimeStateAfter_append, hstate]
  exact (value_close f).2

/-- Fields whose values do not end in white space. -/
theorem structureFrom_fields {s : MimeMsgState} (hs : s = .name0 ∨ s = .valueCrlf)
    {fs : List HeaderField} (h : ∀ f ∈ fs, ¬ EndsInSpace f.value) :
    structureFrom s (headerText fs) ++ (mimeStateAfter s (headerText fs)).pending =
      s.pending ++ fs.flatMap HeaderField.events := by
  induction fs generalizing s with
  | nil => simp [headerText]
  | cons f fs ih =>
    have hat : AtField s := by rcases hs with rfl | rfl <;> simp [AtField]
    have hstate : mimeStateAfter s f.text = .valueCrlf := by
      rcases mimeStateAfter_field hat f with ⟨hstate, -⟩ | ⟨-, hspace⟩
      · exact hstate
      · exact absurd hspace (h f (by simp))
    have ih := ih (s := .valueCrlf) (Or.inr rfl) fun g hg => h g (by simp [hg])
    rw [headerText, List.flatMap_cons, structureFrom_append, mimeStateAfter_append, hstate,
      structureFrom_field hs f, List.append_assoc]
    rw [headerText] at ih
    rw [ih]
    simp [HeaderField.events, MimeMsgState.pending]

/-- How many ends of names there are. -/
def nameEnds (es : List (ParserEvent MimeMsgType)) : ℕ := es.countP (·.type = .nameEnd)

/-- The ends of names in two pieces. -/
theorem nameEnds_append (es es' : List (ParserEvent MimeMsgType)) :
    nameEnds (es ++ es') = nameEnds es + nameEnds es' :=
  List.countP_append

/-- A name has no end in it. -/
theorem nameEnds_name (name : List Byte) : nameEnds (name.map MimeMsg.name) = 0 := by
  rw [nameEnds, List.countP_map]
  exact List.countP_eq_zero.mpr fun c _ => by simp [MimeMsg.name]

/-- A field ends a name exactly where it is recognised. -/
theorem nameEnds_field {s : MimeMsgState} (hs : AtField s) (f : HeaderField) :
    nameEnds (structureFrom s f.text) = if s = .value then 0 else 1 := by
  have hrecognised (hs : s = .name0 ∨ s = .valueCrlf) :
      nameEnds (structureFrom s f.text) = 1 := by
    rw [structureFrom_field hs, nameEnds_append, nameEnds_append, nameEnds_name]
    rcases hs with rfl | rfl <;> rfl
  rcases hs with hs | hs | rfl
  · rw [hrecognised (Or.inl hs), hs]
    rfl
  · rw [hrecognised (Or.inr hs), hs]
    rfl
  · rw [structureFrom_swallowed]
    rfl

/-- No field ends two names, and each ends one only if no value hides its CRLF. -/
theorem nameEnds_fields {s : MimeMsgState} (hs : AtField s) (fs : List HeaderField) :
    AtField (mimeStateAfter s (headerText fs)) ∧
      nameEnds (structureFrom s (headerText fs)) ≤ fs.length ∧
      (nameEnds (structureFrom s (headerText fs)) = fs.length →
        mimeStateAfter s (headerText fs) ≠ .value →
        s ≠ .value ∧ ∀ f ∈ fs, ¬ EndsInSpace f.value) := by
  induction fs generalizing s with
  | nil => exact ⟨hs, Nat.le_refl 0, fun _ h => ⟨h, by simp⟩⟩
  | cons f fs ih =>
    have hfield := mimeStateAfter_field hs f
    have hnext : AtField (mimeStateAfter s f.text) := by
      rcases hfield with ⟨h, -⟩ | ⟨h, -⟩ <;> simp [h, AtField]
    obtain ⟨hat, hle, hall⟩ := ih hnext
    have hcount := nameEnds_field hs f
    rw [headerText] at hat hle hall
    rw [headerText, List.flatMap_cons, structureFrom_append, mimeStateAfter_append,
      nameEnds_append, hcount, List.length_cons]
    refine ⟨hat, ?_, ?_⟩
    · split_ifs <;> omega
    · intro heq hlast
      have hs' : s ≠ .value := by
        intro h
        rw [if_pos h] at heq
        omega
      rw [if_neg hs'] at heq
      obtain ⟨hseen, hrest⟩ := hall (by omega) hlast
      refine ⟨hs', fun g hg => ?_⟩
      rcases List.mem_cons.mp hg with rfl | hg
      · rcases hfield with ⟨-, h⟩ | ⟨h, -⟩
        · exact h
        · exact absurd h hseen
      · exact hrest g hg

/-- Every field has one. -/
theorem nameEnds_events (fs : List HeaderField) :
    nameEnds (fs.flatMap HeaderField.events) = fs.length := by
  induction fs with
  | nil => rfl
  | cons f fs ih =>
    rw [List.flatMap_cons, nameEnds_append, ih, HeaderField.events, nameEnds_append, nameEnds_name,
      List.length_cons]
    show 0 + 1 + fs.length = fs.length + 1
    omega

/-- The body shows no structure. -/
theorem structureFrom_body {s : MimeMsgState} (hs : s = .body ∨ s = .bodyCr ∨ s = .error)
    (bs : List Byte) : structureFrom s bs = [] := by
  induction bs generalizing s with
  | nil => rfl
  | cons c bs ih =>
    rw [structureFrom_cons]
    rcases hs with rfl | rfl | rfl
    · rw [mimeMsgFeed_body]
      split_ifs <;> exact ih (by simp)
    · rw [mimeMsgFeed_bodyCr]
      split_ifs <;> exact ih (by simp)
    · rw [mimeMsgFeed_error]
      exact ih (by simp)

/-- The empty line is seen unless the CRLF in front of it is hidden. -/
theorem structureFrom_blank {s : MimeMsgState} (hs : s = .valueCrlf ∨ s = .value) :
    structureFrom s CRLF = if s = .value then [] else
    [MimeMsg.valueEnd LF, MimeMsg.bodyStart LF] := by
  rcases hs with rfl | rfl <;> decide

/-- What a header leaves in front of the empty line. -/
theorem mimeStateAfter_header {s : MimeMsgState} (hs : AtField s) (f : HeaderField)
    (fs : List HeaderField) :
    mimeStateAfter s (headerText (f :: fs)) = .valueCrlf ∨
      mimeStateAfter s (headerText (f :: fs)) = .value ∧ ∃ g ∈ f :: fs, EndsInSpace g.value := by
  induction fs generalizing s f with
  | nil =>
    rw [headerText, List.flatMap_cons, List.flatMap_nil, List.append_nil]
    rcases mimeStateAfter_field hs f with ⟨h, -⟩ | ⟨h, hspace⟩
    · exact Or.inl h
    · exact Or.inr ⟨h, f, by simp, hspace⟩
  | cons g gs ih =>
    have hnext : AtField (mimeStateAfter s f.text) := by
      rcases mimeStateAfter_field hs f with ⟨h, -⟩ | ⟨h, -⟩ <;> simp [h, AtField]
    rw [headerText, List.flatMap_cons, mimeStateAfter_append]
    rcases ih hnext g with h | ⟨h, g', hg', hspace⟩
    · exact Or.inl h
    · exact Or.inr ⟨h, g', List.mem_cons_of_mem f hg', hspace⟩

/-- The fields do not start the body. -/
theorem bodyStart_notMem_fields {s : MimeMsgState} (hs : AtField s) (fs : List HeaderField) :
    MimeMsg.bodyStart LF ∉ structureFrom s (headerText fs) := by
  induction fs generalizing s with
  | nil => simp [headerText]
  | cons f fs ih =>
    have hnext : AtField (mimeStateAfter s f.text) := by
      rcases mimeStateAfter_field hs f with ⟨h, -⟩ | ⟨h, -⟩ <;> simp [h, AtField]
    have hfield : MimeMsg.bodyStart LF ∉ structureFrom s f.text := by
      have hrecognised (hs : s = .name0 ∨ s = .valueCrlf) :
          MimeMsg.bodyStart LF ∉ structureFrom s f.text := by
        rw [structureFrom_field hs]
        rcases hs with rfl | rfl <;>
          simp [MimeMsgState.pending, MimeMsg.bodyStart, MimeMsg.name, MimeMsg.nameEnd,
            MimeMsg.valueEnd]
      rcases hs with hs | hs | rfl
      · exact hrecognised (Or.inl hs)
      · exact hrecognised (Or.inr hs)
      · rw [structureFrom_swallowed]
        simp
    rw [headerText, List.flatMap_cons, structureFrom_append]
    intro h
    rcases List.mem_append.mp h with h | h
    · exact hfield h
    · exact ih hnext h

/-- **The structure of the header** comes back exactly when no value ends in white space. -/
theorem header_recovered (f : HeaderField) (fs : List HeaderField) (body : List Byte) :
    HeaderRecovered (f :: fs) body ↔ ∀ g ∈ f :: fs, ¬ EndsInSpace g.value := by
  have hat : AtField .name0 := Or.inl rfl
  have hlast := mimeStateAfter_header hat f fs
  constructor
  · intro h
    have hblank := structureFrom_blank (hlast.imp_right And.left)
    obtain ⟨-, -, hall⟩ := nameEnds_fields hat (f :: fs)
    have hheader := h.header
    rw [structureOf_mimeTokens, structureFrom_append, hblank] at hheader
    have hseen : mimeStateAfter .name0 (headerText (f :: fs)) ≠ .value := by
      intro hvalue
      have hstart : MimeMsg.bodyStart LF ∈ structureFrom .name0 (headerText (f :: fs)) := by
        rw [if_pos hvalue, List.append_nil] at hheader
        simp [hheader]
      exact h.fields hstart
    rw [if_neg hseen] at hheader
    have hcount := congrArg nameEnds hheader
    rw [nameEnds_append, nameEnds_append, nameEnds_events] at hcount
    exact (hall hcount hseen).2
  · intro h
    have hfields := structureFrom_fields (s := .name0) (Or.inl rfl) h
    have hseen : mimeStateAfter .name0 (headerText (f :: fs)) = .valueCrlf := by
      rcases hlast with hlast | ⟨-, g, hg, hspace⟩
      · exact hlast
      · exact absurd hspace (h g hg)
    have hheader : structureFrom .name0 (headerText (f :: fs) ++ CRLF) =
        (f :: fs).flatMap HeaderField.events ++ [MimeMsg.bodyStart LF] := by
      rw [hseen] at hfields
      rw [structureFrom_append, hseen, structureFrom_blank (Or.inl rfl), if_neg (by decide),
        ← List.nil_append (List.flatMap _ _), ← show MimeMsgState.name0.pending = [] from rfl,
        ← hfields, List.append_assoc]
      rfl
    have hbody : mimeStateAfter .name0 (headerText (f :: fs) ++ CRLF) = .body := by
      rw [mimeStateAfter_append, hseen]
      decide
    refine ⟨?_, hheader, bodyStart_notMem_fields hat (f :: fs)⟩
    rw [structureOf_mimeTokens, structureFrom_append, hbody, structureFrom_body (Or.inl rfl),
      List.append_nil, hheader]

/-- A space at the end of a value hides the field behind it. -/
theorem header_hidden :
    ¬ ∀ (f : HeaderField) (fs : List HeaderField) (body : List Byte),
      HeaderRecovered (f :: fs) body := by
  intro h
  have h := (h
    { name := ascii "a", line := ascii " ", lines := []
      name_ne := by decide, name_chars := List.forall_mem_singleton.mpr rfl
      plain := by decide, continued := by simp }
    [{ name := ascii "b", line := [], lines := []
       name_ne := by decide, name_chars := List.forall_mem_singleton.mpr rfl
       plain := by decide, continued := by simp }]
    []).header
  revert h
  decide

end Pop3Proxy
