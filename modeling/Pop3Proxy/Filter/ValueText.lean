/-
# What is written of a value

The octets of a value are copied one by one, and so is its CRLF; the CRLF of a fold gets a CR
too many, unless white space hides it.  Where a value is dropped its white space is copied
nevertheless.
-/
import Pop3Proxy.Filter.Fields
import Pop3Proxy.Filter.HeaderNames

namespace Pop3Proxy

/-! ## Folded text -/

/-- Lines, each behind the fold of the one before. -/
structure FoldedText where
  line : List Byte
  lines : List (List Byte)
  plain : ∀ l ∈ line :: lines, CR ∉ l ∧ LF ∉ l
  continued : ∀ l ∈ lines, ∃ c rest, l = c :: rest ∧ lwspChar c

/-- The text as it stands in the mail. -/
def FoldedText.octets (t : FoldedText) : List Byte := t.line ++ t.lines.flatMap (CRLF ++ ·)

/-- The value of a field. -/
def HeaderField.folded (f : HeaderField) : FoldedText := ⟨f.line, f.lines, f.plain, f.continued⟩

instance (v : List Byte) : Decidable (EndsInSpace v) :=
  decidable_of_iff (v.getLast?.any lwspChar = true)
    (by cases h : v.getLast? <;> simp [EndsInSpace, h])

/-- Every fold stands behind white space. -/
def Seamless : List Byte → List (List Byte) → Prop
  | _, [] => True
  | v, l :: ls => EndsInSpace v ∧ Seamless l ls

/-- What is written of an event of a value. -/
def shown (drop : Bool) (e : ParserEvent MimeMsgType) : List Byte :=
  if drop ∧ e.type = .value then [] else [e.octet 0]

/-- What is written of octets of a value. -/
def valueOut (drop : Bool) (s : MimeMsgState) (bs : List Byte) : List Byte :=
  (parserRun initCharClass mimeMessageParser s bs).2.flatten.flatMap (shown drop)

/-- The octets belong to the value, all of them. -/
def OnlyValue (s : MimeMsgState) (bs : List Byte) : Prop :=
  ∀ e ∈ (parserRun initCharClass mimeMessageParser s bs).2.flatten, e.inValue

/-- What is left of octets whose values are dropped. -/
def visible (drop : Bool) (bs : List Byte) : List Byte := if drop then bs.filter lwspChar else bs

/-- What is written of folded lines behind `v`. -/
def foldsOut (drop : Bool) : List Byte → List (List Byte) → List Byte
  | _, [] => []
  | v, l :: ls =>
    (if EndsInSpace v then visible drop (CRLF ++ l) else CRLF ++ CR :: visible drop l) ++
      foldsOut drop l ls

/-! ## Octet by octet -/

section
variable {drop : Bool} {s t u : MimeMsgState} {v w : List Byte}

/-- The events of the first octet come first. -/
theorem parserRun_events_cons (s : MimeMsgState) (c : Byte) (bs : List Byte) :
    (parserRun initCharClass mimeMessageParser s (c :: bs)).2.flatten =
      (mimeMsgFeed s c).2 ++
        (parserRun initCharClass mimeMessageParser (mimeMsgFeed s c).1 bs).2.flatten := rfl

/-- What is written of the first octet comes first. -/
theorem valueOut_cons (drop : Bool) (s : MimeMsgState) (c : Byte) (bs : List Byte) :
    valueOut drop s (c :: bs) =
      (mimeMsgFeed s c).2.flatMap (shown drop) ++ valueOut drop (mimeMsgFeed s c).1 bs := by
  rw [valueOut, parserRun_events_cons, List.flatMap_append]
  rfl

/-- The first octet belongs to the value, and the others do. -/
theorem onlyValue_cons {c : Byte} {bs : List Byte} : OnlyValue s (c :: bs) ↔
    (∀ e ∈ (mimeMsgFeed s c).2, e.inValue) ∧ OnlyValue (mimeMsgFeed s c).1 bs := by
  rw [OnlyValue, parserRun_events_cons]
  exact List.forall_mem_append

/-- Octets of a value, what is written of them, and the state they lead to. -/
structure ValueRead (drop : Bool) (s : MimeMsgState) (bs out : List Byte) (t : MimeMsgState) :
    Prop where
  only : OnlyValue s bs
  out : valueOut drop s bs = out
  state : mimeStateAfter s bs = t

/-- No octets. -/
theorem ValueRead.nil (drop : Bool) (s : MimeMsgState) : ValueRead drop s [] [] s :=
  ⟨nofun, rfl, rfl⟩

/-- One octet, and others behind it. -/
theorem ValueRead.cons {c : Byte} {bs out : List Byte} {es : List (ParserEvent MimeMsgType)}
    (hfeed : mimeMsgFeed s c = (t, es)) (hes : ∀ e ∈ es, e.inValue)
    (h : ValueRead drop t bs out u) :
    ValueRead drop s (c :: bs) (es.flatMap (shown drop) ++ out) u := by
  refine ⟨onlyValue_cons.mpr ⟨?_, ?_⟩, ?_, ?_⟩
  · rw [hfeed]
    exact hes
  · rw [hfeed]
    exact h.only
  · rw [valueOut_cons, hfeed, h.out]
  · rw [mimeStateAfter_cons, hfeed]
    exact h.state

/-- Two pieces. -/
theorem ValueRead.append {bs cs out out' : List Byte} (h : ValueRead drop s bs out t)
    (h' : ValueRead drop t cs out' u) : ValueRead drop s (bs ++ cs) (out ++ out') u := by
  induction bs generalizing s out with
  | nil =>
    obtain rfl := h.out
    obtain rfl := h.state
    exact h'
  | cons c bs ih =>
    obtain ⟨hes, honly⟩ := onlyValue_cons.mp h.only
    have hrest := ih ⟨honly, rfl, h.state⟩
    have hout := h.out
    rw [valueOut_cons] at hout
    rw [← hout, List.append_assoc]
    exact ValueRead.cons rfl hes hrest

/-- An octet of the value belongs to it. -/
theorem inValue_value (c : Byte) : (MimeMsg.value c).inValue := Or.inl rfl

/-- So does one of a fold. -/
theorem inValue_valueFold (c : Byte) : (MimeMsg.valueFold c).inValue := Or.inr (Or.inl rfl)

/-- An octet of a line. -/
theorem InValue.read_octet (drop : Bool) (h : InValue v s) {c : Byte} (hcr : c ≠ CR) :
    ∃ t, ValueRead drop s [c] (visible drop [c]) t ∧ InValue (v ++ [c]) t := by
  have hin := (h.octet hcr).2
  have hread {e : ParserEvent MimeMsgType} (hfeed : mimeMsgFeed s c = ((mimeMsgFeed s c).1, [e]))
      (he : e.inValue) (hout : shown drop e = visible drop [c]) :
      ValueRead drop s [c] (visible drop [c]) (mimeMsgFeed s c).1 := by
    have hone := ValueRead.cons hfeed (by simpa using he) (ValueRead.nil drop _)
    rw [List.flatMap_singleton, hout, List.append_nil] at hone
    exact hone
  refine ⟨(mimeMsgFeed s c).1, ?_, hin⟩
  by_cases hspace : lwspChar c = true
  · refine @hread (MimeMsg.valueFold c) ?_ (inValue_valueFold c) ?_
    · rcases h with ⟨rfl, -⟩ | ⟨rfl, -⟩
      · rw [mimeMsgFeed_value, if_pos hspace]
      · rw [mimeMsgFeed_fold, if_pos hspace]
    · cases drop <;> simp [shown, visible, hspace, MimeMsg.valueFold, ParserEvent.octet]
  · refine @hread (MimeMsg.value c) ?_ (inValue_value c) ?_
    · rcases h with ⟨rfl, -⟩ | ⟨rfl, -⟩
      · rw [mimeMsgFeed_value, if_neg hspace, if_neg hcr]
      · rw [mimeMsgFeed_fold, if_neg hspace]
    · cases drop <;> simp [shown, visible, hspace, MimeMsg.value, ParserEvent.octet]

/-- What is left of two pieces. -/
theorem visible_append (drop : Bool) (bs cs : List Byte) :
    visible drop (bs ++ cs) = visible drop bs ++ visible drop cs := by
  cases drop
  · rfl
  · exact List.filter_append ..

@[simp] theorem visible_nil (drop : Bool) : visible drop [] = [] := by
  cases drop <;> rfl

/-- A line. -/
theorem InValue.read_line (drop : Bool) (h : InValue v s) {l : List Byte} (hl : CR ∉ l) :
    ∃ t, ValueRead drop s l (visible drop l) t ∧ InValue (v ++ l) t := by
  induction l generalizing v s with
  | nil =>
    refine ⟨s, ?_, by simpa using h⟩
    rw [visible_nil]
    exact ValueRead.nil drop s
  | cons c l ih =>
    simp only [List.mem_cons, not_or] at hl
    obtain ⟨t, hone, hin⟩ := h.read_octet drop (Ne.symm hl.1)
    obtain ⟨u, hrest, hin'⟩ := ih hin hl.2
    have hboth := hone.append hrest
    rw [← visible_append] at hboth
    rw [List.append_assoc] at hin'
    exact ⟨u, hboth, hin'⟩

/-- The CRLF at the end of a value: it is seen unless white space hides it. -/
theorem InValue.read_close (drop : Bool) (h : InValue v s) :
    ValueRead drop s CRLF (if EndsInSpace v then visible drop CRLF else CRLF)
      (if EndsInSpace v then .value else .valueCrlf) := by
  rcases h with ⟨rfl, hv⟩ | ⟨rfl, hv⟩
  · rw [if_neg hv, if_neg hv]
    refine ⟨?_, ?_, rfl⟩
    · intro e he
      change e ∈ [MimeMsg.wait CR, MimeMsg.wait LF] at he
      obtain rfl | rfl : e = MimeMsg.wait CR ∨ e = MimeMsg.wait LF := by simpa using he
      · exact Or.inr (Or.inr rfl)
      · exact Or.inr (Or.inr rfl)
    · cases drop <;> rfl
  · rw [if_pos hv, if_pos hv]
    refine ⟨?_, ?_, rfl⟩
    · intro e he
      change e ∈ [MimeMsg.value CR, MimeMsg.value LF] at he
      obtain rfl | rfl : e = MimeMsg.value CR ∨ e = MimeMsg.value LF := by simpa using he
      · exact inValue_value CR
      · exact inValue_value LF
    · cases drop <;> rfl

/-- What has been read matters by its last octet only. -/
theorem InValue.congr (h : InValue v s) (hv : EndsInSpace v ↔ EndsInSpace w) : InValue w s := by
  rcases h with ⟨hs, hnot⟩ | ⟨hs, hends⟩
  · exact Or.inl ⟨hs, fun hw => hnot (hv.mpr hw)⟩
  · exact Or.inr ⟨hs, hv.mp hends⟩

/-- The end of a text tells how it ends. -/
theorem endsInSpace_append_cons (v : List Byte) (c : Byte) (l : List Byte) :
    EndsInSpace (v ++ c :: l) ↔ EndsInSpace (c :: l) := by
  simp [EndsInSpace, List.getLast?_append]

/-- The next line, and the fold in front of it. -/
theorem InValue.read_fold (drop : Bool) (h : InValue v s) {l : List Byte} (hl : CR ∉ l)
    (hspace : ∃ c rest, l = c :: rest ∧ lwspChar c) :
    ∃ t, ValueRead drop s (CRLF ++ l)
        (if EndsInSpace v then visible drop (CRLF ++ l) else CRLF ++ CR :: visible drop l) t ∧
      InValue l t := by
  obtain ⟨c, rest, rfl, hc⟩ := hspace
  simp only [List.mem_cons, not_or] at hl
  have hclose := h.read_close drop
  have hin : InValue [c] .fold := Or.inr ⟨rfl, endsInSpace_concat (v := []).mpr hc⟩
  obtain ⟨t, hrest, hin'⟩ := hin.read_line drop hl.2
  refine ⟨t, ?_, hin'⟩
  have hvisible : visible drop (c :: rest) = c :: visible drop rest := by
    cases drop
    · rfl
    · exact List.filter_cons_of_pos hc
  have hfold : ∀ e ∈ [MimeMsg.valueFold c], e.inValue := by
    intro e he
    rw [List.mem_singleton.mp he]
    exact inValue_valueFold c
  have hshown : shown drop (MimeMsg.valueFold c) = [c] := by
    cases drop <;> rfl
  by_cases hv : EndsInSpace v
  · rw [if_pos hv, if_pos hv] at hclose
    rw [if_pos hv, visible_append, hvisible]
    refine hclose.append ?_
    have hfeed : mimeMsgFeed .value c = (.fold, [MimeMsg.valueFold c]) := by
      rw [mimeMsgFeed_value, if_pos hc]
    have hboth := ValueRead.cons hfeed hfold hrest
    rw [List.flatMap_singleton, hshown] at hboth
    exact hboth
  · rw [if_neg hv, if_neg hv] at hclose
    rw [if_neg hv, hvisible]
    refine hclose.append ?_
    have hfeed : mimeMsgFeed .valueCrlf c =
        (.fold, [MimeMsg.valueFoldCrlf c, MimeMsg.valueFold c]) := by
      rw [mimeMsgFeed_valueCrlf, if_neg (Ne.symm hl.1), if_pos hc]
    have hboth := ValueRead.cons hfeed (by
      intro e he
      rcases List.mem_cons.mp he with rfl | he
      · exact Or.inr (Or.inl rfl)
      · exact hfold e he) hrest
    have hcrlf : shown drop (MimeMsg.valueFoldCrlf c) = [CR] := by
      cases drop <;> rfl
    rw [List.flatMap_cons, List.flatMap_singleton, hshown, hcrlf] at hboth
    exact hboth

/-! ## Line by line -/

/-- The folded lines behind the first. -/
theorem InValue.read_folds (drop : Bool) (h : InValue v s) {ls : List (List Byte)}
    (hls : ∀ l ∈ ls, CR ∉ l ∧ ∃ c rest, l = c :: rest ∧ lwspChar c) :
    ∃ t, ValueRead drop s (ls.flatMap (CRLF ++ ·)) (foldsOut drop v ls) t ∧
      InValue (v ++ ls.flatMap (CRLF ++ ·)) t := by
  induction ls generalizing v s with
  | nil => exact ⟨s, ValueRead.nil drop s, by simpa using h⟩
  | cons l ls ih =>
    obtain ⟨hl, hspace⟩ := hls l (by simp)
    obtain ⟨t, hline, hin⟩ := h.read_fold drop hl hspace
    obtain ⟨u, hrest, hin'⟩ := ih hin fun m hm => hls m (by simp [hm])
    refine ⟨u, ?_, hin'.congr ?_⟩
    · rw [List.flatMap_cons, foldsOut]
      exact hline.append hrest
    · obtain ⟨c, rest, rfl, -⟩ := hspace
      rw [List.flatMap_cons, List.append_assoc CRLF, ← List.append_assoc v, List.cons_append,
        endsInSpace_append_cons]

/-- A folded text behind what has been read of a value. -/
theorem FoldedText.read (drop : Bool) (t : FoldedText) (h : InValue v s) :
    ∃ u, ValueRead drop s t.octets (visible drop t.line ++ foldsOut drop (v ++ t.line) t.lines) u ∧
      InValue (v ++ t.octets) u := by
  obtain ⟨u, hline, hin⟩ := h.read_line drop (t.plain t.line (by simp)).1
  obtain ⟨w, hfolds, hin'⟩ := hin.read_folds drop fun l hl =>
    ⟨(t.plain l (by simp [hl])).1, t.continued l hl⟩
  rw [List.append_assoc] at hin'
  exact ⟨w, hline.append hfolds, hin'⟩

end

/-- What is written of the value of a field and the CRLF behind it. -/
def HeaderField.out (f : HeaderField) (drop : Bool) : List Byte :=
  visible drop f.line ++ foldsOut drop f.line f.lines ++
    if EndsInSpace f.value then visible drop CRLF else CRLF

/-- **The value of a field**, from the colon on. -/
theorem HeaderField.read_value (f : HeaderField) (drop : Bool) :
    ValueRead drop .value (f.value ++ CRLF) (f.out drop)
      (if EndsInSpace f.value then .value else .valueCrlf) := by
  have hstart : InValue [] .value := Or.inl ⟨rfl, by simp [EndsInSpace]⟩
  obtain ⟨t, hread, hin⟩ := f.folded.read drop hstart
  exact hread.append (hin.read_close drop)

/-! ## What comes out unchanged -/

/-- A fold is written with a CR more, unless it stands behind white space. -/
theorem foldsOut_false_cons (v l : List Byte) (ls : List (List Byte)) : foldsOut false v (l :: ls) =
    CRLF ++ (if EndsInSpace v then [] else [CR]) ++ l ++ foldsOut false l ls := by
  rw [foldsOut]
  split_ifs <;> simp [visible]

/-- Folds come out unchanged where white space hides all of them. -/
theorem foldsOut_eq_iff {v : List Byte} {ls : List (List Byte)}
    (hls : ∀ l ∈ ls, ∃ c rest, l = c :: rest ∧ lwspChar c) :
    foldsOut false v ls = ls.flatMap (CRLF ++ ·) ↔ Seamless v ls := by
  induction ls generalizing v with
  | nil => exact iff_of_true rfl trivial
  | cons l ls ih =>
    rw [foldsOut_false_cons, List.flatMap_cons, Seamless, ← ih fun m hm => hls m (by simp [hm])]
    by_cases hv : EndsInSpace v
    · rw [if_pos hv, List.append_nil, List.append_cancel_left_eq, and_iff_right hv]
    · rw [if_neg hv]
      refine iff_of_false ?_ fun hboth => hv hboth.1
      -- the octet behind the CRLF would be a CR and white space
      obtain ⟨c, rest, rfl, hc⟩ := hls l (by simp)
      intro heq
      have hcr : CR = c := by
        simp only [List.cons_append, List.nil_append, List.cons.injEq] at heq
        exact heq.2.2.1
      exact absurd hc (by rw [← hcr]; decide)

/-- What is written of a value that is kept. -/
theorem HeaderField.out_false (f : HeaderField) :
    f.out false = f.line ++ foldsOut false f.line f.lines ++ CRLF := by
  rw [HeaderField.out]
  split_ifs <;> rfl

/-- **A field is copied** where white space hides its folds. -/
theorem HeaderField.out_copied (f : HeaderField) :
    f.out false = f.value ++ CRLF ↔ Seamless f.line f.lines := by
  rw [f.out_false, List.append_cancel_right_eq, HeaderField.value, List.append_cancel_left_eq]
  exact foldsOut_eq_iff f.continued

/-! ## What comes out as 8BIT -/

/-- The value is `8BIT`, with white space around it. -/
def EightBit (v : List Byte) : Prop :=
  ∃ sp sp', (∀ c ∈ sp ++ sp', lwspChar c) ∧ v = sp ++ ascii "8BIT" ++ sp'

/-- It stands on one line. -/
theorem EightBit.noCr {v : List Byte} (h : EightBit v) : CR ∉ v := by
  obtain ⟨sp, sp', hspace, rfl⟩ := h
  intro hmem
  have hcr : ¬ lwspChar CR = true := by decide
  rcases List.mem_append.mp hmem with hmem | hmem
  · rcases List.mem_append.mp hmem with hmem | hmem
    · exact hcr (hspace CR (by simp [hmem]))
    · exact absurd hmem (by decide)
  · exact hcr (hspace CR (by simp [hmem]))

/-- What comes out of a fold has a CR. -/
theorem lines_eq_nil_of_noCr {v : List Byte} {ls : List (List Byte)}
    (h : CR ∉ foldsOut false v ls) : ls = [] := by
  cases ls with
  | nil => rfl
  | cons l ls =>
    rw [foldsOut_false_cons] at h
    exact absurd (by simp) h

/-- A value without CR is in one line. -/
theorem HeaderField.unfolded_of_noCr (f : HeaderField) (h : CR ∉ f.value) : f.lines = [] := by
  by_contra hne
  obtain ⟨l, ls, hls⟩ := List.exists_cons_of_ne_nil hne
  rw [HeaderField.value, hls] at h
  exact absurd (by simp) h

/-- **A copied value is `8BIT`** when it was. -/
theorem HeaderField.out_eightBit (f : HeaderField) :
    (∃ v, EightBit v ∧ f.out false = v ++ CRLF) ↔ EightBit f.value := by
  rw [f.out_false]
  constructor
  · rintro ⟨v, hv, heq⟩
    have heq' := List.append_cancel_right heq
    have hlines : f.lines = [] := by
      apply lines_eq_nil_of_noCr
      intro hmem
      apply hv.noCr
      rw [← heq']
      exact List.mem_append_right _ hmem
    rw [hlines, foldsOut, List.append_nil] at heq'
    rw [HeaderField.value, hlines, List.flatMap_nil, List.append_nil, heq']
    exact hv
  · intro hv
    have hlines := f.unfolded_of_noCr hv.noCr
    rw [HeaderField.value, hlines] at hv
    refine ⟨f.line, by simpa using hv, ?_⟩
    rw [hlines, foldsOut, List.append_nil]

/-- Where all folds are hidden nothing is left of them but white space. -/
theorem Seamless.visible {v : List Byte} {ls : List (List Byte)} (h : Seamless v ls) :
    ∀ c ∈ foldsOut true v ls, lwspChar c := by
  induction ls generalizing v with
  | nil => exact nofun
  | cons l ls ih =>
    rw [foldsOut, if_pos h.1]
    intro c hc
    rcases List.mem_append.mp hc with hc | hc
    · exact (List.mem_filter.mp hc).2
    · exact ih h.2 c hc

/-- Any other fold leaves two CRs. -/
theorem two_le_count {v : List Byte} {ls : List (List Byte)} (h : ¬ Seamless v ls) :
    2 ≤ (foldsOut true v ls).count CR := by
  induction ls generalizing v with
  | nil => exact absurd trivial h
  | cons l ls ih =>
    rw [foldsOut, List.count_append]
    by_cases hv : EndsInSpace v
    · have hrest := ih fun hls => h ⟨hv, hls⟩
      omega
    · rw [if_neg hv, List.count_append]
      have hcrlf : CRLF.count CR = 1 := by decide
      rw [hcrlf, List.count_cons_self]
      omega

/-- White space has no CR in it. -/
theorem count_eq_zero_of_lwsp {bs : List Byte} (h : ∀ c ∈ bs, lwspChar c) : bs.count CR = 0 :=
  List.count_eq_zero.mpr fun hmem => absurd (h CR hmem) (by decide)

/-- **A dropped value leaves `8BIT`** where white space hides its folds but not its end. -/
theorem HeaderField.out_replaced (f : HeaderField) :
    (∃ v, EightBit v ∧ ascii " 8BIT" ++ f.out true = v ++ CRLF) ↔
      Seamless f.line f.lines ∧ ¬ EndsInSpace f.value := by
  have hline : ∀ c ∈ visible true f.line, lwspChar c := fun c hc => (List.mem_filter.mp hc).2
  have hclose : visible true CRLF = [] := by decide
  rw [HeaderField.out]
  constructor
  · rintro ⟨v, hv, heq⟩
    -- one CR is asked for, and every fold that shows leaves two
    have hcount := congrArg (List.count CR) heq
    have hword : (ascii " 8BIT").count CR = 0 := by decide
    have hcrlf : CRLF.count CR = 1 := by decide
    rw [List.count_append, List.count_append, List.count_append, List.count_append, hword, hcrlf,
      count_eq_zero_of_lwsp hline, List.count_eq_zero.mpr hv.noCr] at hcount
    have hseam : Seamless f.line f.lines := by
      by_contra hnot
      have := two_le_count hnot
      omega
    refine ⟨hseam, fun hends => ?_⟩
    rw [count_eq_zero_of_lwsp hseam.visible, if_pos hends, hclose] at hcount
    simp at hcount
  · rintro ⟨hseam, hends⟩
    rw [if_neg hends, ← List.append_assoc]
    refine ⟨_, ⟨[SP], visible true f.line ++ foldsOut true f.line f.lines, ?_, ?_⟩, rfl⟩
    · intro c hc
      rcases List.mem_append.mp hc with hc | hc
      · rw [List.mem_singleton.mp hc]
        rfl
      · rcases List.mem_append.mp hc with hc | hc
        · exact hline c hc
        · exact hseam.visible c hc
    · rfl

/-! ## The first line of what comes out -/

/-- As many lines are written as are read. -/
theorem count_foldsOut (v : List Byte) (ls : List (List Byte)) :
    (foldsOut false v ls).count LF = (ls.flatMap (CRLF ++ ·)).count LF := by
  induction ls generalizing v with
  | nil => rfl
  | cons l ls ih =>
    rw [foldsOut_false_cons, List.flatMap_cons, List.count_append, List.count_append,
      List.count_append, List.count_append, List.count_append, ih]
    split_ifs
    · simp
    · have hcr : [CR].count LF = 0 := by decide
      rw [hcr, Nat.add_zero]

/-- What follows the first line begins with its CRLF, whether it is folded or not. -/
theorem foldsOut_first (v : List Byte) (ls : List (List Byte)) :
    ∃ b, foldsOut false v ls ++ CRLF = CRLF ++ b := by
  cases ls with
  | nil => exact ⟨[], rfl⟩
  | cons l ls =>
    rw [foldsOut_false_cons, List.append_assoc, List.append_assoc, List.append_assoc]
    exact ⟨_, rfl⟩

/-- The folds and the end of the field start with CRLF. -/
theorem folds_first (ls : List (List Byte)) :
    ∃ b, ls.flatMap (CRLF ++ ·) ++ CRLF = CRLF ++ b := by
  cases ls with
  | nil => exact ⟨[], rfl⟩
  | cons l ls =>
    rw [List.flatMap_cons, List.append_assoc, List.append_assoc]
    exact ⟨_, rfl⟩

/-- Two texts are the same when their first lines are, and what follows. -/
theorem crlf_inj {a a' b b' : List Byte} (ha : LF ∉ a) (ha' : LF ∉ a')
    (h : a ++ (CRLF ++ b) = a' ++ (CRLF ++ b')) : a = a' ∧ b = b' := by
  have hrest : ∀ {x p q : List Byte}, LF ∉ x → CRLF ++ p = x ++ (CRLF ++ q) → x = [] := by
    intro x p q hx heq
    rcases x with _ | ⟨c, _ | ⟨d, x⟩⟩
    · rfl
    -- the CR would be followed by a CR
    · have hd : LF = CR := by
        simp only [List.cons_append, List.nil_append, List.cons.injEq] at heq
        exact heq.2.1
      exact absurd hd (by decide)
    · have hd : LF = d := by
        simp only [List.cons_append, List.nil_append, List.cons.injEq] at heq
        exact heq.2.1
      exact absurd (by simp [hd]) hx
  rcases List.append_eq_append_iff.mp h with ⟨x, rfl, heq⟩ | ⟨x, rfl, heq⟩
  · obtain rfl := hrest (fun hx => ha' (List.mem_append_right a hx)) heq
    rw [List.nil_append, List.append_cancel_left_eq] at heq
    exact ⟨by simp, heq⟩
  · obtain rfl := hrest (fun hx => ha (List.mem_append_right a' hx)) heq
    rw [List.nil_append, List.append_cancel_left_eq] at heq
    exact ⟨by simp, heq.symm⟩

end Pop3Proxy
