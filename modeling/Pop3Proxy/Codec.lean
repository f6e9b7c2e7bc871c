/-
# The stuffing codec

`services/decrypt.c` stuffs a text and `services/encrypt.c` takes the stuffing
off again.  Each has a table of its own, `pop3_decrypt_parser.c` and
`pop3_encrypt_parser.c`; both start in the state behind a dot.
-/
import Pop3Proxy.Library.DotStuffing
import Pop3Proxy.Library.Pattern
import Pop3Proxy.ParserFactory

namespace Pop3Proxy

/-- `enum pop3_encrypt_event_type`, and the `IGNORE` of `parser_utils.h`. -/
inductive EncryptEvent where
  | ignore
  | datStuffed
  | datStuffedEnd
  | datStuffedDot
  deriving DecidableEq, Repr

/-- `ignore`: there is nothing to report. -/
def ignoreEn (_ : Byte) : ParserEvent EncryptEvent := ⟨.ignore, [], 0⟩

/-- `dat_stuffed`: an octet of the text. -/
def datStuffedEn (c : Byte) : ParserEvent EncryptEvent := ⟨.datStuffed, [c], 1⟩

/-- `dat_stuffed_end`: the text is over. -/
def datStuffedEndEn (_ : Byte) : ParserEvent EncryptEvent := ⟨.datStuffedEnd, [], 0⟩

/-- `dat_stuffed_dot`: a dot that starts a line. -/
def datStuffedDot (c : Byte) : ParserEvent EncryptEvent := ⟨.datStuffedDot, [c], 1⟩

/-! ## Stuffing -/

/-- `enum pop3_encrypt_states` of `pop3_decrypt_parser.c`. -/
inductive DecryptState where
  | dotData
  | cr
  | crlf
  | crlfdot
  | crlfdotmany
  deriving DecidableEq, Repr

/-- `pop3_encrypt_definition` of `pop3_decrypt_parser.c`. -/
def pop3DecryptDefinition : ParserDefinition DecryptState Empty EncryptEvent where
  states
    | .dotData => [
        { cond := .byte CR, dest := .cr, act1 := datStuffedEn },
        { cond := .any, dest := .dotData, act1 := datStuffedEn }]
    | .cr => [
        { cond := .byte LF, dest := .crlf, act1 := datStuffedEn },
        { cond := .any, dest := .dotData, act1 := datStuffedEn }]
    | .crlf => [
        { cond := .byte DOT, dest := .crlfdot, act1 := datStuffedDot },
        { cond := .any, dest := .dotData, act1 := datStuffedEn }]
    | .crlfdot => [
        { cond := .byte DOT, dest := .crlfdotmany, act1 := datStuffedEn },
        { cond := .any, dest := .dotData, act1 := datStuffedEn }]
    | .crlfdotmany => [
        { cond := .byte DOT, dest := .crlfdotmany, act1 := datStuffedEn },
        { cond := .any, dest := .dotData, act1 := datStuffedEn }]
  startState := .crlfdot

/-- The body of the loop of `decrypt`: the state of the parser and what has been
written. -/
def decryptStep (s : DecryptState × List Byte) (c : Byte) : DecryptState × List Byte :=
  match parserFeed parserNoClasses pop3DecryptDefinition s.1 c with
  | (p, e :: _) => (p, s.2 ++ (if e.type = .datStuffedDot then [DOT] else []) ++ e.data.take 1)
  | (p, []) => (p, s.2)

/-- `decrypt`: the value it returns and what it writes to `decrypted_string`. -/
def decrypt (source : List Byte) : ℕ × List Byte :=
  let decryptedString := if source.head? = some DOT then [DOT] else []
  let r := (cstr source).foldl decryptStep (pop3DecryptDefinition.startState, decryptedString)
  (0, r.2 ++ [DOT, CR, LF])

/-! ## Taking the stuffing off -/

/-- `enum pop3_encrypt_states` of `pop3_encrypt_parser.c`. -/
inductive EncryptState where
  | dotData
  | cr
  | crlf
  | crlfdot
  | crlfdotcr
  | crlfdotcrlf
  deriving DecidableEq, Repr

/-- `pop3_encrypt_definition` of `pop3_encrypt_parser.c`. -/
def pop3EncryptDefinition : ParserDefinition EncryptState Empty EncryptEvent where
  states
    | .dotData => [
        { cond := .byte CR, dest := .cr, act1 := datStuffedEn },
        { cond := .any, dest := .dotData, act1 := datStuffedEn }]
    | .cr => [
        { cond := .byte LF, dest := .crlf, act1 := datStuffedEn },
        { cond := .any, dest := .dotData, act1 := datStuffedEn }]
    | .crlf => [
        { cond := .byte DOT, dest := .crlfdot, act1 := datStuffedEn },
        { cond := .any, dest := .dotData, act1 := datStuffedEn }]
    | .crlfdot => [
        { cond := .byte CR, dest := .crlfdotcr, act1 := datStuffedEn },
        { cond := .byte DOT, dest := .dotData, act1 := datStuffedDot },
        { cond := .any, dest := .dotData, act1 := datStuffedEn }]
    | .crlfdotcr => [
        { cond := .byte LF, dest := .crlfdotcrlf, act1 := datStuffedEndEn },
        { cond := .any, dest := .dotData, act1 := datStuffedEn }]
    | .crlfdotcrlf => [{ cond := .any, dest := .crlfdotcrlf, act1 := ignoreEn }]
  startState := .crlfdot

/-- The body of the loop of `pop3_encrypt`, which `DAT_STUFFED_END` ends. -/
def encryptStep (s : EncryptState × List Byte) (c : Byte) :
    (EncryptState × List Byte) × Option Unit :=
  match parserFeed parserNoClasses pop3EncryptDefinition s.1 c with
  | (p, e :: _) =>
    if e.type = .datStuffedEnd then ((p, s.2), some ())
    else if e.type = .datStuffedDot then ((p, s.2), none)
    else ((p, s.2 ++ e.data.take 1), none)
  | (p, []) => ((p, s.2), none)

/-- `pop3_encrypt`: the value it returns and what it writes to `encrypted_string`. -/
def pop3Encrypt (source : List Byte) : ℕ × List Byte :=
  let r := Scan.scan encryptStep (pop3EncryptDefinition.startState, []) (cstr source)
  (if r.verdict = some () then 1 else 0, r.state.2)

example : decrypt (ascii "a" ++ CRLF ++ ascii ".b" ++ CRLF) =
    (0, ascii "a" ++ CRLF ++ ascii "..b" ++ CRLF ++ [DOT, CR, LF]) := by decide

/-! ## Where `decrypt` is right -/

/-- The text with a dot in front of every line that starts with one. -/
abbrev stuffed (m : List Byte) : List Byte := DotStuffing.stuffBehind DOT CR LF [] m

/-- The transitions of `decrypt`. -/
def DecryptState.next : DecryptState → Byte → DecryptState
  | .dotData, c => if c = CR then .cr else .dotData
  | .cr, c => if c = LF then .crlf else .dotData
  | .crlf, c => if c = DOT then .crlfdot else .dotData
  | .crlfdot, c => if c = DOT then .crlfdotmany else .dotData
  | .crlfdotmany, c => if c = DOT then .crlfdotmany else .dotData

/-- The state behind these octets. -/
def decryptState (seen : List Byte) : DecryptState := seen.foldl DecryptState.next .crlfdot

@[simp] theorem decryptState_concat (seen : List Byte) (c : Byte) :
    decryptState (seen ++ [c]) = (decryptState seen).next c := by
  simp [decryptState]

/-- What the loop of `decrypt` writes for these octets. -/
def decryptBehind : DecryptState → List Byte → List Byte
  | _, [] => []
  | p, c :: cs => (if c = DOT ∧ p = .crlf then [DOT] else []) ++ c :: decryptBehind (p.next c) cs

/-- One octet: a dot right behind a CRLF that was noticed is written twice. -/
theorem decryptStep_eq (p : DecryptState) (out : List Byte) (c : Byte) :
    decryptStep (p, out) c =
      (p.next c, out ++ (if c = DOT ∧ p = .crlf then [DOT] else []) ++ [c]) := by
  unfold decryptStep
  rw [parserFeed_eq_firstMatch]
  cases p with
  | dotData | cr | crlf | crlfdot | crlfdotmany =>
    simp only [pop3DecryptDefinition, firstMatch, When.holds, decide_eq_true_eq,
      DecryptState.next]
    split_ifs <;> simp_all [datStuffedEn, datStuffedDot]

/-- What is written octet by octet. -/
theorem decryptStep_foldl (p : DecryptState) (out cs : List Byte) :
    (cs.foldl decryptStep (p, out)).2 = out ++ decryptBehind p cs := by
  induction cs generalizing p out with
  | nil => simp [decryptBehind]
  | cons c cs ih => rw [List.foldl_cons, decryptStep_eq, ih, decryptBehind]; simp

/-- What `decrypt` writes for a text without a NUL. -/
theorem decrypt_snd {m : List Byte} (hnul : 0 ∉ m) :
    (decrypt m).2 = (if m.head? = some DOT then [DOT] else []) ++ decryptBehind .crlfdot m ++
      [DOT, CR, LF] := by
  have hcstr : cstr m = m := by simpa [cstr] using cstr_append hnul []
  rw [decrypt, hcstr]
  show (m.foldl decryptStep (.crlfdot, _)).2 ++ _ = _
  rw [decryptStep_foldl]

/-- The state behind CRLF is reached behind CRLF only. -/
theorem crlf_suffix_of_decryptState {seen : List Byte} (h : decryptState seen = .crlf) :
    CRLF <:+ seen := by
  have hnext : ∀ p c, (p : DecryptState).next c = .crlf → p = .cr ∧ c = LF := by
    intro p c
    cases p <;> simp only [DecryptState.next] <;> split_ifs <;> simp_all
  have hnext' : ∀ p c, (p : DecryptState).next c = .cr → c = CR := by
    intro p c
    cases p <;> simp only [DecryptState.next] <;> split_ifs <;> simp_all
  induction seen using List.reverseRecOn with
  | nil => exact absurd h (by decide)
  | append_singleton seen c _ =>
    rw [decryptState_concat] at h
    obtain ⟨hcr, rfl⟩ := hnext _ _ h
    induction seen using List.reverseRecOn with
    | nil => exact absurd hcr (by decide)
    | append_singleton seen c _ =>
      rw [decryptState_concat] at hcr
      rw [hnext' _ _ hcr, List.append_assoc]
      exact List.suffix_append seen CRLF

/-- `decrypt` never writes more than it should. -/
theorem decryptBehind_length_le {seen : List Byte} (cs : List Byte) :
    (decryptBehind (decryptState seen) cs).length ≤
      (DotStuffing.stuffBehind DOT CR LF seen cs).length := by
  induction cs generalizing seen with
  | nil => exact le_rfl
  | cons c cs ih =>
    have ih := @ih (seen ++ [c])
    rw [decryptState_concat] at ih
    rw [decryptBehind, DotStuffing.stuffBehind]
    have hstart : c = DOT ∧ decryptState seen = .crlf →
        c = DOT ∧ DotStuffing.LineStart CR LF seen := fun h =>
      ⟨h.1, Or.inr (crlf_suffix_of_decryptState h.2)⟩
    split_ifs with h h' h'
    · simpa using ih
    · exact absurd (hstart h) h'
    · simpa using Nat.le_succ_of_le ih
    · simpa using ih

/-- What is written is right exactly when every CRLF in front of a dot is noticed. -/
theorem decryptBehind_eq_iff {seen : List Byte} (hseen : seen ≠ []) (cs : List Byte) :
    decryptBehind (decryptState seen) cs = DotStuffing.stuffBehind DOT CR LF seen cs ↔
      ∀ u, u ++ [DOT] <+: cs → CRLF <:+ seen ++ u → decryptState (seen ++ u) = .crlf := by
  induction cs generalizing seen with
  | nil => simp [decryptBehind, DotStuffing.stuffBehind]
  | cons c cs ih =>
    have ih := @ih (seen ++ [c]) (by simp)
    rw [decryptState_concat] at ih
    rw [decryptBehind, DotStuffing.stuffBehind]
    -- the condition is one on this octet and one on the octets behind it
    have hforall : (∀ u, u ++ [DOT] <+: c :: cs → CRLF <:+ seen ++ u →
          decryptState (seen ++ u) = .crlf) ↔
        (c = DOT → CRLF <:+ seen → decryptState seen = .crlf) ∧
          ∀ u, u ++ [DOT] <+: cs → CRLF <:+ seen ++ [c] ++ u →
            decryptState (seen ++ [c] ++ u) = .crlf := by
      constructor
      · intro h
        refine ⟨?_, fun u hu hcrlf => ?_⟩
        · rintro rfl hcrlf
          have := h [] (by simp) (by simpa using hcrlf)
          simpa using this
        · have := h (c :: u) (by simpa using hu) (by simpa using hcrlf)
          simpa using this
      · rintro ⟨hhere, hrest⟩ u hu hcrlf
        cases u with
        | nil =>
          have hc : c = DOT := by simpa [eq_comm] using hu
          simpa using hhere hc (by simpa using hcrlf)
        | cons d u =>
          obtain ⟨rfl, hu'⟩ : d = c ∧ u ++ [DOT] <+: cs := by simpa using hu
          simpa using hrest u hu' (by simpa using hcrlf)
    rw [hforall, ← ih]
    by_cases hc : c = DOT ∧ DotStuffing.LineStart CR LF seen
    · have hcrlf : CRLF <:+ seen := hc.2.resolve_left hseen
      rw [if_pos hc]
      by_cases hstate : decryptState seen = .crlf
      · rw [if_pos ⟨hc.1, hstate⟩]
        simp [hstate]
      · rw [if_neg fun h => hstate h.2]
        -- a dot that is missed makes the result too short, whatever comes
        constructor
        · intro h
          have hle := @decryptBehind_length_le (seen ++ [c]) cs
          have hlen := congrArg List.length h
          rw [decryptState_concat] at hle
          simp only [List.nil_append, List.cons_append, List.length_cons] at hlen
          omega
        · intro h
          exact absurd (h.1 hc.1 hcrlf) hstate
    · have hno : ¬ (c = DOT ∧ decryptState seen = .crlf) := fun h =>
        hc ⟨h.1, Or.inr (crlf_suffix_of_decryptState h.2)⟩
      rw [if_neg hc, if_neg hno]
      simp only [List.nil_append, List.cons.injEq, true_and]
      constructor
      · intro h
        exact ⟨fun hdot hcrlf => absurd ⟨hdot, Or.inr hcrlf⟩ hc, h⟩
      · exact fun h => h.2

/-- Lines as `decrypt` sees them: dots, an octet that is dropped even when it is a CR, and
then everything up to a CRLF found without going back. -/
inductive SeenLines : List Byte → Prop
  | nil : SeenLines []
  | line {seen : List Byte} (hseen : SeenLines seen) (k : ℕ) {c : Byte} (hc : c ≠ DOT)
      {u : List Byte} (hu : Pattern.Pieces CRLF u) :
      SeenLines (seen ++ List.replicate k DOT ++ [c] ++ u ++ CRLF)

/-- What has been read in each state. -/
def DecryptState.Behind (seen : List Byte) : DecryptState → Prop
  | .crlf => seen ≠ [] ∧ SeenLines seen
  | .crlfdot | .crlfdotmany => ∃ lines k, SeenLines lines ∧ seen = lines ++ List.replicate k DOT
  | .dotData => ∃ lines k c u, SeenLines lines ∧ c ≠ DOT ∧
      Pattern.Pieces CRLF u ∧ seen = lines ++ List.replicate k DOT ++ [c] ++ u
  | .cr => ∃ lines k c u, SeenLines lines ∧ c ≠ DOT ∧
      Pattern.Pieces CRLF u ∧ seen = lines ++ List.replicate k DOT ++ [c] ++ u ++ [CR]

/-- One octet. -/
theorem DecryptState.Behind.next {p : DecryptState} {seen : List Byte} (h : p.Behind seen)
    (c : Byte) : (p.next c).Behind (seen ++ [c]) := by
  cases p with
  | crlf =>
    by_cases hc : c = DOT
    · simp only [DecryptState.next, if_pos hc]
      exact ⟨seen, 1, h.2, by simp [hc]⟩
    · simp only [DecryptState.next, if_neg hc]
      exact ⟨seen, 0, c, [], h.2, hc, .nil, by simp⟩
  | crlfdot | crlfdotmany =>
    obtain ⟨lines, k, hlines, rfl⟩ := h
    by_cases hc : c = DOT
    · simp only [DecryptState.next, if_pos hc]
      exact ⟨lines, k + 1, hlines, by simp [hc, List.replicate_succ']⟩
    · simp only [DecryptState.next, if_neg hc]
      exact ⟨lines, k, c, [], hlines, hc, .nil, by simp⟩
  | dotData =>
    obtain ⟨lines, k, d, u, hlines, hd, hu, rfl⟩ := h
    by_cases hc : c = CR
    · simp only [DecryptState.next, if_pos hc]
      exact ⟨lines, k, d, u, hlines, hd, hu, by rw [hc]⟩
    · simp only [DecryptState.next, if_neg hc]
      have hbroken : Pattern.Broken CRLF [c] := .intro 0 c (by decide) (by simp [Ne.symm hc])
      exact ⟨lines, k, d, u ++ [c], hlines, hd, hu.append hbroken.pieces, by simp⟩
  | cr =>
    obtain ⟨lines, k, d, u, hlines, hd, hu, rfl⟩ := h
    by_cases hc : c = LF
    · simp only [DecryptState.next, if_pos hc]
      refine ⟨by simp, ?_⟩
      rw [hc, List.append_assoc]
      exact hlines.line k hd hu
    · simp only [DecryptState.next, if_neg hc]
      have hbroken : Pattern.Broken CRLF [CR, c] := .intro 1 c (by decide) (by simp [Ne.symm hc])
      exact ⟨lines, k, d, u ++ [CR, c], hlines, hd, hu.append hbroken.pieces, by simp⟩

/-- The state tells what the last octets were. -/
theorem decryptState_behind (seen : List Byte) : (decryptState seen).Behind seen := by
  induction seen using List.reverseRecOn with
  | nil => exact ⟨[], 0, .nil, rfl⟩
  | append_singleton seen c ih =>
    rw [decryptState_concat]
    exact ih.next c

/-- Pieces lead back to where they began. -/
theorem foldl_next_pieces {u : List Byte} (hu : Pattern.Pieces CRLF u) :
    u.foldl DecryptState.next .dotData = .dotData := by
  induction hu with
  | nil => rfl
  | cons hv _ ih =>
    obtain ⟨k, a, hk, ha⟩ := hv
    rw [List.foldl_append]
    convert ih using 2
    -- a match of CRLF is broken at its first letter or at its second
    obtain rfl | rfl : k = 0 ∨ k = 1 := by
      simp only [List.length_cons, List.length_nil] at hk
      omega
    · have hcr : a ≠ CR := by simpa [eq_comm] using ha
      simp [DecryptState.next, hcr]
    · have hlf : a ≠ LF := by simpa [eq_comm] using ha
      simp [DecryptState.next, hlf]

/-- Where a line starts, dots and one other octet lead into it. -/
theorem foldl_next_dots {p : DecryptState} (hp : p = .crlf ∨ p = .crlfdot ∨ p = .crlfdotmany)
    (k : ℕ) {c : Byte} (hc : c ≠ DOT) :
    (List.replicate k DOT ++ [c]).foldl DecryptState.next p = .dotData := by
  induction k generalizing p with
  | zero => rcases hp with rfl | rfl | rfl <;> simp [DecryptState.next, hc]
  | succ k ih =>
    rw [List.replicate_succ, List.cons_append, List.foldl_cons]
    apply ih
    rcases hp with rfl | rfl | rfl <;> simp [DecryptState.next]

/-- Behind lines seen so, and nowhere else, `decrypt` stands behind CRLF. -/
theorem decryptState_eq_crlf_iff (seen : List Byte) :
    decryptState seen = .crlf ↔ seen ≠ [] ∧ SeenLines seen := by
  constructor
  · intro h
    have hbehind := decryptState_behind seen
    rwa [h] at hbehind
  · rintro ⟨hne, hseen⟩
    have hlines : decryptState seen = .crlf ∨ seen = [] := by
      induction hseen with
      | nil => exact Or.inr rfl
      | @line seen _ k c hc u hu ih =>
        left
        have hstart : decryptState seen = .crlf ∨ decryptState seen = .crlfdot := by
          by_cases hnil : seen = []
          · rw [hnil]
            exact Or.inr rfl
          · exact Or.inl ((ih hnil).resolve_right hnil)
        have hdots := foldl_next_dots (p := decryptState seen)
          (by rcases hstart with h | h <;> simp [h]) k hc
        rw [decryptState, List.append_assoc seen, List.foldl_append, List.foldl_append,
          List.foldl_append]
        rw [show seen.foldl DecryptState.next .crlfdot = decryptState seen from rfl, hdots,
          foldl_next_pieces hu]
        rfl
    exact hlines.resolve_right hne

/-- **`decrypt` stuffs as it should** exactly when every CRLF in front of a dot ends lines
as it sees them. -/
theorem decrypt_stuffed_iff {m : List Byte} (hnul : 0 ∉ m) :
    (decrypt m).2 = stuffed m ++ [DOT, CR, LF] ↔
      ∀ u, u ++ [DOT] <+: m → CRLF <:+ u → SeenLines u := by
  rw [decrypt_snd hnul, List.append_left_inj]
  cases m with
  | nil => simp [decryptBehind, DotStuffing.stuffBehind]
  | cons c m =>
    have hrest := @decryptBehind_eq_iff [c] (by simp) m
    have hstate : decryptState [c] = DecryptState.crlfdot.next c := rfl
    have hfirst : (if (c :: m).head? = some DOT then [DOT] else []) ++
          decryptBehind .crlfdot (c :: m) = stuffed (c :: m) ↔
        decryptBehind (decryptState [c]) m = DotStuffing.stuffBehind DOT CR LF [c] m := by
      rw [decryptBehind, stuffed, DotStuffing.stuffBehind, hstate]
      by_cases hc : c = DOT <;> simp [hc, DotStuffing.LineStart]
    rw [hfirst, hrest]
    constructor
    · intro h u hu hcrlf
      cases u with
      | nil => exact .nil
      | cons d u =>
        obtain ⟨rfl, hu'⟩ : d = c ∧ u ++ [DOT] <+: m := by simpa using hu
        exact ((decryptState_eq_crlf_iff _).mp (h u hu' hcrlf)).2
    · intro h u hu hcrlf
      refine (decryptState_eq_crlf_iff _).mpr ⟨by simp, h _ ?_ hcrlf⟩
      simpa using hu

/-! ## The round trip -/

/-- What the codec is for. -/
structure CodecRoundTrip (m : List Byte) : Prop where
  decrypted : (decrypt m).2 = stuffed m ++ [DOT, CR, LF]
  returned : (pop3Encrypt (decrypt m).2).1 = 1
  written : (pop3Encrypt (decrypt m).2).2 = m

/-- The transitions of `pop3_encrypt`: one dot behind `CRLFDOT` and the last LF are
all that is not written. -/
theorem encryptStep_eq (p : EncryptState) (out : List Byte) (c : Byte) :
    encryptStep (p, out) c =
      match p with
      | .dotData => ((if c = CR then .cr else .dotData, out ++ [c]), none)
      | .cr => ((if c = LF then .crlf else .dotData, out ++ [c]), none)
      | .crlf => ((if c = DOT then .crlfdot else .dotData, out ++ [c]), none)
      | .crlfdot =>
        if c = DOT then ((.dotData, out), none)
        else ((if c = CR then .crlfdotcr else .dotData, out ++ [c]), none)
      | .crlfdotcr =>
        if c = LF then ((.crlfdotcrlf, out), some ()) else ((.dotData, out ++ [c]), none)
      | .crlfdotcrlf => ((.crlfdotcrlf, out), none) := by
  unfold encryptStep
  rw [parserFeed_eq_firstMatch]
  cases p with
  | dotData | cr | crlf =>
    simp only [pop3EncryptDefinition, firstMatch, When.holds, decide_eq_true_eq]
    split_ifs <;> simp [datStuffedEn]
  | crlfdot =>
    simp only [pop3EncryptDefinition, firstMatch, When.holds, decide_eq_true_eq]
    by_cases hcr : c = CR
    · subst hcr
      simp [datStuffedEn]
    · by_cases hdot : c = DOT <;> simp [hcr, hdot, datStuffedEn, datStuffedDot]
  | crlfdotcr =>
    simp only [pop3EncryptDefinition, firstMatch, When.holds, decide_eq_true_eq]
    split_ifs <;> simp [datStuffedEn, datStuffedEndEn]
  | crlfdotcrlf => simp [pop3EncryptDefinition, firstMatch, When.holds, ignoreEn]

/-- Where the CR of the terminator may have been read, it is the last octet written. -/
def CrWritten (s : EncryptState × List Byte) : Prop :=
  s.1 = .crlfdotcr → s.2.getLast? = some CR

/-- One octet: the CR of the terminator is written when it is read. -/
theorem encryptStep_crWritten (s : EncryptState × List Byte) (c : Byte) :
    CrWritten (encryptStep s c).1 := by
  obtain ⟨p, out⟩ := s
  rw [encryptStep_eq]
  cases p with
  | dotData | cr | crlf =>
    show (if _ then _ else _) = EncryptState.crlfdotcr → _
    split_ifs <;> simp
  | crlfdot =>
    by_cases hdot : c = DOT
    · simp [CrWritten, hdot]
    · by_cases hcr : c = CR <;> simp [CrWritten, hdot, hcr]
  | crlfdotcr =>
    by_cases hlf : c = LF <;> simp [CrWritten, hlf]
  | crlfdotcrlf => simp [CrWritten]

/-- Only the LF behind `CRLFDOTCR` ends the loop, and it is not written. -/
theorem encryptStep_end {s s' : EncryptState × List Byte} {c : Byte}
    (h : encryptStep s c = (s', some ())) : s.1 = .crlfdotcr ∧ s'.2 = s.2 := by
  obtain ⟨p, out⟩ := s
  rw [encryptStep_eq] at h
  cases p with
  | dotData | cr | crlf | crlfdotcrlf => exact absurd (congrArg Prod.snd h) (by simp)
  | crlfdot =>
    refine absurd (congrArg Prod.snd h) ?_
    dsimp only
    split_ifs <;> simp
  | crlfdotcr =>
    dsimp only at h
    split_ifs at h
    · exact ⟨rfl, congrArg (fun r => r.1.2) h.symm⟩
    · exact absurd (congrArg Prod.snd h) (by simp)

/-- **What `pop3_encrypt` writes when it returns 1 ends in a CR.** -/
theorem pop3Encrypt_cr {source : List Byte} (h : (pop3Encrypt source).1 = 1) :
    (pop3Encrypt source).2.getLast? = some CR := by
  have hverdict : (Scan.scan encryptStep (pop3EncryptDefinition.startState, [])
      (cstr source)).verdict = some () := by
    by_contra hne
    simp [pop3Encrypt, hne] at h
  have hstart : CrWritten (pop3EncryptDefinition.startState, []) := by
    intro hstate
    exact absurd hstate (by decide)
  obtain ⟨s, c, hs, hend⟩ := Scan.scan_verdict encryptStep
    (fun s a _ => encryptStep_crWritten s a) hstart hverdict
  obtain ⟨hstate, hout⟩ := encryptStep_end hend
  show (Scan.scan encryptStep _ (cstr source)).state.2.getLast? = some CR
  rw [hout]
  exact hs hstate

/-- **The round trip** fails for every text: what comes back, if anything does, ends in
the CR of the terminator. -/
theorem codec_round_trip {m : List Byte} (hm : m = [] ∨ CRLF <:+ m) :
    ¬ CodecRoundTrip m := by
  intro h
  have hlast := pop3Encrypt_cr h.returned
  rw [h.written] at hlast
  rcases hm with rfl | ⟨u, rfl⟩
  · simp at hlast
  · simp at hlast

/-- Two lines, one of them with a dot in front. -/
theorem codec_round_trip_stuffed : ¬ CodecRoundTrip (ascii "a\r\n.b\r\n") :=
  codec_round_trip (Or.inr ⟨ascii "a\r\n.b", rfl⟩)

/-- One line without a dot: the dot and the CR of the terminator come back with it. -/
theorem codec_round_trip_line :
    ¬ ∀ m : List Byte, 0 ∉ m → m = [] ∨ CRLF <:+ m → CodecRoundTrip m := by
  intro h
  have h := (h (ascii "a" ++ CRLF) (by decide) (Or.inr ⟨ascii "a", rfl⟩)).written
  revert h
  decide

end Pop3Proxy
