/-
# Where replies end

The status line ends with the first CRLF, a multi-line reply with the first
CRLF.CRLF.  Both parsers look for the pattern without going back: an octet that
breaks a match is dropped even when it is a CR, with which the pattern could
begin.
-/
import Pop3Proxy.Library.Pattern
import Pop3Proxy.ResponseParsers

namespace Pop3Proxy

/-! ## Multi-line replies -/

/-- The octets that end a multi-line reply. -/
abbrev terminator : List Byte := [CR, LF, DOT, CR, LF]

/-- A stream that begins with a status line. -/
def StatusLed (bs : List Byte) : Prop :=
  ∃ sign text rest, (sign = PLUS ∨ sign = DASH) ∧ bs = sign :: text ++ CRLF ++ rest

/-- What `pop3_multiline_response_checker` returns for each chunk in turn, up to the first
result other than `CONSUMING`. -/
def checkerResults (chunks : List (List Byte)) : List ConsumerState :=
  (Scan.verdicts multilineCheckerStep pop3MultilineResponseDefinition.startState chunks).map
    (·.getD .consuming)

/-- The result changes with the chunk in which the first CRLF.CRLF ends. -/
abbrev ReplyEndNoticed (chunks : List (List Byte)) : Prop :=
  Pattern.Timely terminator chunks .consuming .finishedConsuming (checkerResults chunks)

/-- How much of CRLF.CRLF has come. -/
def MultilineState.matched : MultilineState → ℕ
  | .dotData => 0
  | .cr => 1
  | .crlf => 2
  | .crlfdot => 3
  | .crlfdotcr => 4
  | .crlfdotcrlf => 5

/-- One octet: the checker counts the letters of CRLF.CRLF. -/
theorem multilineCheckerStep_pattern {s : MultilineState} (hs : s ≠ .crlfdotcrlf) (c : Byte) :
    (multilineCheckerStep s c).2 =
        (Pattern.step terminator s.matched c).2.map (fun _ => .finishedConsuming) ∧
      ((Pattern.step terminator s.matched c).2 = none →
        (Pattern.step terminator s.matched c).1 = (multilineCheckerStep s c).1.matched ∧
          (multilineCheckerStep s c).1 ≠ .crlfdotcrlf) := by
  rw [multilineCheckerStep_eq]
  cases s with
  | crlfdotcrlf => exact absurd rfl hs
  | dotData | crlfdot =>
    by_cases hc : c = CR
    · subst hc
      decide
    · simp [Pattern.step, MultilineState.matched, hc, Ne.symm hc]
  | cr | crlfdotcr =>
    by_cases hc : c = LF
    · subst hc
      decide
    · simp [Pattern.step, MultilineState.matched, hc, Ne.symm hc]
  | crlf =>
    by_cases hc : c = DOT
    · subst hc
      decide
    · simp [Pattern.step, MultilineState.matched, hc, Ne.symm hc]

/-- On a stream that begins with a status line the checker looks for CRLF.CRLF,
although it starts behind a dot. -/
theorem multilineChecker_pattern {bs : List Byte} (h : StatusLed bs) :
    (Scan.scan multilineCheckerStep pop3MultilineResponseDefinition.startState bs).verdict =
        (Scan.scan (Pattern.step terminator) 0 bs).verdict.map (fun _ => .finishedConsuming) ∧
      (Scan.scan multilineCheckerStep pop3MultilineResponseDefinition.startState bs).read =
        (Scan.scan (Pattern.step terminator) 0 bs).read := by
  obtain ⟨sign, text, rest, hsign, rfl⟩ := h
  have hcr : sign ≠ CR := by rcases hsign with rfl | rfl <;> decide
  have hstep : multilineCheckerStep .crlfdot sign = (.dotData, none) := by
    rw [multilineCheckerStep_eq]
    simp [hcr]
  have hstep' : Pattern.step terminator 0 sign = (0, none) := by
    simp [Pattern.step, Ne.symm hcr]
  have hsim (k : ℕ) (s : MultilineState) (a : Byte) (hk : k = s.matched ∧ s ≠ .crlfdotcrlf) :=
    hk.1 ▸ multilineCheckerStep_pattern hk.2 a
  have hstart : 0 = MultilineState.dotData.matched ∧ MultilineState.dotData ≠ .crlfdotcrlf :=
    ⟨rfl, by decide⟩
  obtain ⟨hverdict, hread⟩ := Scan.scan_sim (Pattern.step terminator)
    (fun k (s : MultilineState) => k = s.matched ∧ s ≠ .crlfdotcrlf) hsim hstart
      (text ++ CRLF ++ rest)
  rw [List.append_assoc, List.cons_append, ← List.append_assoc, Scan.scan_cons_none _ _ hstep',
    show pop3MultilineResponseDefinition.startState = .crlfdot from rfl,
    Scan.scan_cons_none _ _ hstep]
  exact ⟨hverdict, congrArg (· + 1) hread⟩

/-- **The end of a multi-line reply** is noticed in time exactly when the first CRLF.CRLF
behind whole pieces ends in the chunk in which the first of all ends. -/
theorem multiline_end_noticed {chunks : List (List Byte)} (h : StatusLed chunks.flatten) :
    ReplyEndNoticed chunks ↔
      ∀ n, Pattern.FirstEnd terminator chunks.flatten n →
        ∃ m, Pattern.CleanEnd terminator chunks.flatten m ∧
          Scan.chunkOf chunks m = Scan.chunkOf chunks n := by
  obtain ⟨hverdict, hread⟩ := multilineChecker_pattern h
  exact Pattern.timely_iff (·.getD .consuming) (by decide) hverdict hread (by decide)

/-- A message of one line, with the terminator cut in two. -/
theorem multiline_end_noticed_cut :
    ReplyEndNoticed [ascii "+OK", CRLF ++ ascii "a" ++ CRLF ++ [DOT], CRLF, ascii "+OK"] := by
  have hled : StatusLed [ascii "+OK", CRLF ++ ascii "a" ++ CRLF ++ [DOT], CRLF,
      ascii "+OK"].flatten :=
    ⟨PLUS, ascii "OK", ascii "a" ++ CRLF ++ [DOT] ++ CRLF ++ ascii "+OK", Or.inl rfl, by decide⟩
  have hfirst : Pattern.FirstEnd terminator [ascii "+OK", CRLF ++ ascii "a" ++ CRLF ++ [DOT],
      CRLF, ascii "+OK"].flatten 11 :=
    ⟨by decide, by decide, by decide⟩
  refine (multiline_end_noticed hled).mpr fun n hn => ⟨11, ⟨by decide, ?_⟩, ?_⟩
  -- `+`, `O` and `K` break a match at its first letter, `a` breaks one behind CRLF
  · refine ⟨ascii "+OK" ++ CRLF ++ ascii "a", ?_, by decide⟩
    have hpieces : Pattern.Pieces terminator ([43] ++ ([79] ++ ([75] ++ ([CR, LF, 97] ++ [])))) :=
      .cons (.intro 0 43 (by decide) (by decide)) <|
        .cons (.intro 0 79 (by decide) (by decide)) <|
        .cons (.intro 0 75 (by decide) (by decide)) <|
        .cons (.intro 2 97 (by decide) (by decide)) .nil
    exact hpieces
  · rw [hn.unique hfirst]

/-- An empty line in front of the terminator hides it. -/
theorem multiline_end_missed :
    ¬ ∀ chunks : List (List Byte), StatusLed chunks.flatten → ReplyEndNoticed chunks := by
  intro h
  have h := (h [ascii "+OK" ++ CRLF ++ CRLF ++ [DOT] ++ CRLF]
    ⟨PLUS, ascii "OK", CRLF ++ [DOT] ++ CRLF, Or.inl rfl, by decide⟩).found 10
    ⟨by decide, by decide, by decide⟩
  revert h
  decide

/-! ## Status lines -/

/-- What `pop3_singleline_response_builder` returns for each chunk in turn, up to the
first result other than `BUILDING`. -/
def singlelineResults (resp : Option SinglelineStatus) (chunks : List (List Byte)) :
    List (StructureBuilderStates × Bool) :=
  (Scan.verdicts singlelineBuilderStep (pop3SinglelineResponseDefinition.startState, resp)
    chunks).map builderReturn

/-- The status it leaves behind. -/
def singlelineStatus (resp : Option SinglelineStatus) (chunks : List (List Byte)) :
    Option SinglelineStatus :=
  (Scan.scanChunks singlelineBuilderStep (pop3SinglelineResponseDefinition.startState, resp)
    chunks).state.2

/-- The status a first octet stands for. -/
def statusSign (c : Byte) : Option SinglelineStatus :=
  if c = PLUS then some .ok else if c = DASH then some .err else none

/-- A status line is refused at its first octet, or taken at the first CRLF. -/
structure StatusLineRead (resp : Option SinglelineStatus) (chunks : List (List Byte)) : Prop where
  refused : ∀ c rest, chunks.flatten = c :: rest → statusSign c = none →
    singlelineResults resp chunks =
      List.replicate (Scan.chunkOf chunks 1) (.building, false) ++ [(.buildFailed, true)]
  taken : (∀ c rest, chunks.flatten = c :: rest → statusSign c ≠ none) →
    Pattern.Timely CRLF chunks (.building, false) (.buildFinished, false)
      (singlelineResults resp chunks)
  status : ∀ c rest n, chunks.flatten = c :: rest → statusSign c ≠ none →
    Pattern.FirstEnd CRLF chunks.flatten n → singlelineStatus resp chunks = statusSign c

/-- How much of CRLF has come. -/
def SinglelineState.matched : SinglelineState → ℕ
  | .cr => 1
  | _ => 0

/-- One octet inside a status line: the builder counts the letters of CRLF. -/
theorem singlelineBuilderStep_pattern {p : SinglelineState} (hp : p.InText ∨ p = .cr)
    (r : Option SinglelineStatus) (c : Byte) :
    (singlelineBuilderStep (p, r) c).2 =
        (Pattern.step CRLF p.matched c).2.map (fun _ => .buildFinished) ∧
      ((Pattern.step CRLF p.matched c).2 = none →
        (Pattern.step CRLF p.matched c).1 = (singlelineBuilderStep (p, r) c).1.1.matched ∧
          ((singlelineBuilderStep (p, r) c).1.1.InText ∨
            (singlelineBuilderStep (p, r) c).1.1 = .cr)) := by
  rcases hp with hp | rfl
  · have hmatched : p.matched = 0 := by rcases hp with rfl | rfl | rfl <;> rfl
    by_cases hc : c = CR
    · subst hc
      rw [singlelineBuilderStep_text_cr hp, hmatched]
      simp [Pattern.step, CRLF, SinglelineState.matched]
    · rw [singlelineBuilderStep_text hp r hc, hmatched]
      simp [Pattern.step, CRLF, Ne.symm hc, SinglelineState.matched, SinglelineState.InText]
  · by_cases hc : c = LF
    · subst hc
      rw [singlelineBuilderStep_cr_lf]
      simp [Pattern.step, CRLF, SinglelineState.matched]
    · rw [singlelineBuilderStep_cr r hc]
      simp [Pattern.step, CRLF, Ne.symm hc, SinglelineState.matched, SinglelineState.InText]

/-- The status does not change behind the first octet. -/
theorem singlelineBuilderStep_status {p : SinglelineState} (hp : p.InText ∨ p = .cr ∨ p = .crlf)
    (r : Option SinglelineStatus) (c : Byte) :
    ((singlelineBuilderStep (p, r) c).1.1.InText ∨ (singlelineBuilderStep (p, r) c).1.1 = .cr ∨
      (singlelineBuilderStep (p, r) c).1.1 = .crlf) ∧
      (singlelineBuilderStep (p, r) c).1.2 = r := by
  rcases hp with hp | rfl | rfl
  · by_cases hc : c = CR
    · subst hc
      simp [singlelineBuilderStep_text_cr hp]
    · simp [singlelineBuilderStep_text hp r hc, SinglelineState.InText]
  · by_cases hc : c = LF
    · subst hc
      simp [singlelineBuilderStep_cr_lf]
    · simp [singlelineBuilderStep_cr r hc, SinglelineState.InText]
  · exact ⟨Or.inr (Or.inr rfl), rfl⟩

/-- The first octet of a status line. -/
theorem singlelineBuilderStep_sign {c : Byte} (hc : statusSign c ≠ none)
    (r : Option SinglelineStatus) :
    ∃ p : SinglelineState, p.InText ∧
      singlelineBuilderStep (.stat, r) c = ((p, statusSign c), none) := by
  by_cases hplus : c = PLUS
  · subst hplus
    exact ⟨.ok, Or.inl rfl, rfl⟩
  · by_cases hdash : c = DASH
    · subst hdash
      exact ⟨.err, Or.inr (Or.inl rfl), rfl⟩
    · rw [statusSign, if_neg hplus, if_neg hdash] at hc
      exact absurd rfl hc

/-- Any other first octet is refused. -/
theorem singlelineBuilderStep_refused {c : Byte} (hc : statusSign c = none)
    (r : Option SinglelineStatus) :
    singlelineBuilderStep (.stat, r) c = ((.trap, r), some .buildFailed) := by
  have hplus : c ≠ PLUS := by
    rintro rfl
    exact absurd hc (by decide)
  have hdash : c ≠ DASH := by
    rintro rfl
    exact absurd hc (by decide)
  simp [singlelineBuilderStep, parserFeed, pop3SinglelineResponseDefinition, When.holds,
    List.find?, hplus, hdash, trap]

/-- On a stream that does not begin like anything else the builder looks for CRLF. -/
theorem singlelineBuilder_pattern (r : Option SinglelineStatus) {bs : List Byte}
    (h : ∀ c rest, bs = c :: rest → statusSign c ≠ none) :
    (Scan.scan singlelineBuilderStep (.stat, r) bs).verdict =
        (Scan.scan (Pattern.step CRLF) 0 bs).verdict.map (fun _ => .buildFinished) ∧
      (Scan.scan singlelineBuilderStep (.stat, r) bs).read =
        (Scan.scan (Pattern.step CRLF) 0 bs).read := by
  cases bs with
  | nil => exact ⟨rfl, rfl⟩
  | cons c bs =>
    have hc := h c bs rfl
    obtain ⟨p, hp, hstep⟩ := singlelineBuilderStep_sign hc r
    have hcr : c ≠ CR := by
      rintro rfl
      exact hc (by decide)
    have hstep' : Pattern.step CRLF 0 c = (0, none) := by
      simp [Pattern.step, CRLF, Ne.symm hcr]
    have hsim (k : ℕ) (s : SinglelineState × Option SinglelineStatus) (a : Byte)
        (hk : k = s.1.matched ∧ (s.1.InText ∨ s.1 = .cr)) :=
      hk.1 ▸ singlelineBuilderStep_pattern hk.2 s.2 a
    let Sim (k : ℕ) (s : SinglelineState × Option SinglelineStatus) : Prop :=
      k = s.1.matched ∧ (s.1.InText ∨ s.1 = .cr)
    have hstart : Sim 0 (p, statusSign c) := by
      refine ⟨?_, Or.inl hp⟩
      rcases hp with rfl | rfl | rfl <;> rfl
    obtain ⟨hverdict, hread⟩ := Scan.scan_sim (Pattern.step CRLF) Sim hsim hstart bs
    rw [Scan.scan_cons_none _ _ hstep', Scan.scan_cons_none _ _ hstep]
    exact ⟨hverdict, congrArg (· + 1) hread⟩

/-- The status is told by the first octet. -/
theorem singlelineStatus_eq (resp : Option SinglelineStatus) {chunks : List (List Byte)} {c : Byte}
    {rest : List Byte} (h : chunks.flatten = c :: rest) (hc : statusSign c ≠ none) :
    singlelineStatus resp chunks = statusSign c := by
  obtain ⟨p, hp, hstep⟩ := singlelineBuilderStep_sign hc resp
  have hkept := Scan.scan_invariant singlelineBuilderStep
    (P := fun s => (s.1.InText ∨ s.1 = .cr ∨ s.1 = .crlf) ∧ s.2 = statusSign c)
    (by
      rintro ⟨p, r⟩ a ⟨hp, rfl⟩
      exact singlelineBuilderStep_status hp _ a)
    (s := (p, statusSign c)) ⟨Or.inl hp, rfl⟩ rest
  rw [singlelineStatus, Scan.scanChunks_eq, h]
  show (Scan.scan singlelineBuilderStep (.stat, resp) (c :: rest)).state.2 = statusSign c
  rw [Scan.scan_cons_none _ _ hstep]
  exact hkept.2

/-- **The status line** is read as it should be exactly when it is refused, or the first
CRLF behind whole pieces ends in the chunk in which the first of all ends. -/
theorem status_line_read (resp : Option SinglelineStatus) (chunks : List (List Byte)) :
    StatusLineRead resp chunks ↔
      ((∃ c rest, chunks.flatten = c :: rest ∧ statusSign c ≠ none) →
        ∀ n, Pattern.FirstEnd CRLF chunks.flatten n →
          ∃ m, Pattern.CleanEnd CRLF chunks.flatten m ∧
            Scan.chunkOf chunks m = Scan.chunkOf chunks n) := by
  have htimely (h : ∀ c rest, chunks.flatten = c :: rest → statusSign c ≠ none) :
      Pattern.Timely CRLF chunks (.building, false) (.buildFinished, false)
          (singlelineResults resp chunks) ↔
        ∀ n, Pattern.FirstEnd CRLF chunks.flatten n →
          ∃ m, Pattern.CleanEnd CRLF chunks.flatten m ∧
            Scan.chunkOf chunks m = Scan.chunkOf chunks n := by
    obtain ⟨hverdict, hread⟩ := singlelineBuilder_pattern resp h
    exact Pattern.timely_iff builderReturn (by decide) hverdict hread (by decide)
  constructor
  · rintro h ⟨c, rest, hbs, hc⟩
    have hsign : ∀ d tail, chunks.flatten = d :: tail → statusSign d ≠ none := by
      intro d tail hd
      rw [hbs] at hd
      rwa [← (List.cons.inj hd).1]
    exact (htimely hsign).mp (h.taken hsign)
  · intro h
    constructor
    · intro c rest hbs hc
      have hscan : Scan.scan singlelineBuilderStep
          (pop3SinglelineResponseDefinition.startState, resp) chunks.flatten =
          ⟨(.trap, resp), some .buildFailed, 1⟩ := by
        rw [hbs]
        exact Scan.scan_cons_some _ _ (singlelineBuilderStep_refused hc resp)
      rw [singlelineResults, Scan.verdicts_eq, hscan]
      simp [builderReturn]
    · intro hsign
      refine (htimely hsign).mpr ?_
      cases hbs : chunks.flatten with
      | nil =>
        intro n hn
        have hnil := hn.suffix
        rw [List.take_nil] at hnil
        exact absurd (List.suffix_nil.mp hnil) (by decide)
      | cons c rest =>
        rw [← hbs]
        exact h ⟨c, rest, hbs, hsign c rest hbs⟩
    · intro c rest n hbs hc _
      exact singlelineStatus_eq resp hbs hc

/-- A CR in front of the CRLF hides it. -/
theorem status_line_missed :
    ¬ ∀ resp chunks, StatusLineRead resp chunks := by
  intro h
  have h := ((h none [ascii "+OK" ++ [CR] ++ CRLF]).taken fun c rest hbs => by
    rw [← (List.cons.inj hbs).1]
    decide).found 6 ⟨by decide, by decide, by decide⟩
  revert h
  decide

end Pop3Proxy
