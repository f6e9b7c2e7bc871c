/-
# Boundaries in the body

The collector of `mime_msg` takes what stands behind the first two dashes in a row
of a line, wherever they stand, without the dashes it begins with; what a line that
is no boundary leaves in it stays there for the next one.
-/
import Pop3Proxy.Filter.Peek
import Pop3Proxy.Filter.Transparency

namespace Pop3Proxy

/-! ## What is collected of a line -/

/-- What stands behind the first two dashes in a row. -/
def behindDashes : List Byte → Option (List Byte)
  | [] => none
  | c :: cs => if c = DASH ∧ cs.head? = some DASH then some cs.tail else behindDashes cs

/-- What the collector holds at the end of the line, when it held `l` before. -/
def collected (l y : List Byte) : List Byte :=
  if l = [] then y.dropWhile (· = DASH) else l ++ DASH :: y

/-- Two dashes in a row were collected, the last octet of `l` included. -/
def EndSeen (l y : List Byte) : Prop :=
  if l = [] then [DASH, DASH] <:+: y.dropWhile (· = DASH)
  else l.getLast? = some DASH ∨ [DASH, DASH] <:+: DASH :: y

instance (l y : List Byte) : Decidable (EndSeen l y) :=
  inferInstanceAs (Decidable (if l = [] then [DASH, DASH] <:+: y.dropWhile (· = DASH)
    else l.getLast? = some DASH ∨ [DASH, DASH] <:+: DASH :: y))

/-- The line passes for the boundary `b`; `behind` is the memory behind the string. -/
def PassesForBoundary (b l behind line : List Byte) : Prop :=
  ∃ y, behindDashes line = some y ∧ ¬ EndSeen l y ∧ cstr (collected l y ++ behind) = b

/-- The line passes for the boundary `b` with two dashes behind it. -/
def PassesForEnd (b l behind line : List Byte) : Prop :=
  ∃ y, behindDashes line = some y ∧ EndSeen l y ∧
    cstr ((collected l y).take ((collected l y).length - 2) ++ behind) = b

instance (b l behind line : List Byte) : Decidable (PassesForBoundary b l behind line) :=
  decidable_of_iff (∃ y ∈ (behindDashes line).toList,
    ¬ EndSeen l y ∧ cstr (collected l y ++ behind) = b) (by simp [PassesForBoundary])

instance (b l behind line : List Byte) : Decidable (PassesForEnd b l behind line) :=
  decidable_of_iff (∃ y ∈ (behindDashes line).toList, EndSeen l y ∧
    cstr ((collected l y).take ((collected l y).length - 2) ++ behind) = b) (by simp [PassesForEnd])

/-- What a line that is no boundary leaves in the collector. -/
def leftBehind (l line : List Byte) : List Byte :=
  match behindDashes line with
  | none => l
  | some y => collected l y

/-- How many strings a line that is no boundary has compared. -/
def compared (l line : List Byte) : ℕ :=
  match behindDashes line with
  | none => 0
  | some y => if EndSeen l y then 2 else 1

/-! ## Two dashes in a row -/

/-- Nothing is behind the dashes of a line that has no two in a row. -/
theorem behindDashes_eq_none {line : List Byte} (h : behindDashes line = none) :
    ¬ [DASH, DASH] <:+: line := by
  induction line with
  | nil => simp
  | cons c cs ih =>
    rw [behindDashes] at h
    split_ifs at h with hc
    rw [List.infix_cons_iff, not_or]
    refine ⟨?_, ih h⟩
    rintro ⟨t, ht⟩
    obtain ⟨rfl, rfl⟩ := List.cons.inj ht
    exact hc ⟨rfl, rfl⟩

/-- What is behind the dashes starts behind the first two in a row. -/
theorem behindDashes_eq_some {line y : List Byte} (h : behindDashes line = some y) :
    ∃ x, line = x ++ [DASH, DASH] ++ y ∧ ¬ [DASH, DASH] <:+: x ++ [DASH] := by
  induction line with
  | nil => simp [behindDashes] at h
  | cons c cs ih =>
    rw [behindDashes] at h
    split_ifs at h with hc
    · obtain ⟨rfl, hhead⟩ := hc
      obtain ⟨t, rfl⟩ := List.head?_eq_some_iff.mp hhead
      obtain rfl := Option.some.inj h
      exact ⟨[], rfl, by decide⟩
    · obtain ⟨x, rfl, hx⟩ := ih h
      refine ⟨c :: x, by simp, ?_⟩
      rw [List.cons_append, List.infix_cons_iff, not_or]
      refine ⟨?_, hx⟩
      rintro ⟨t, ht⟩
      obtain ⟨rfl, htail⟩ := List.cons.inj ht
      -- the octet behind `c` is the one behind `x`'s first or the first of the two dashes
      refine hc ⟨rfl, ?_⟩
      cases x with
      | nil => rfl
      | cons d x =>
        obtain ⟨rfl, -⟩ := List.cons.inj (show DASH :: t = d :: (x ++ [DASH]) from htail)
        rfl

/-! ## The octets of a line -/

section
variable {env : FilterEnv} {ctx ctx' : Ctx}

/-- What the octets of a line leave alone. -/
structure SamePlace (ctx ctx' : Ctx) : Prop where
  msg : ctx'.msg = ctx.msg
  stack : ctx'.boundryStack = ctx.boundryStack
  types : ctx'.mediaTypes = ctx.mediaTypes
  strings : ctx'.strings = ctx.strings
  apply : ctx'.mediaFilterApply = ctx.mediaFilterApply

/-- Two steps in one place. -/
theorem SamePlace.trans {ctx'' : Ctx} (h : SamePlace ctx ctx') (h' : SamePlace ctx' ctx'') :
    SamePlace ctx ctx'' :=
  ⟨h'.msg.trans h.msg, h'.stack.trans h.stack, h'.types.trans h.types,
    h'.strings.trans h.strings, h'.apply.trans h.apply⟩

/-- An octet of the body leaves the parser of the header and the stack alone. -/
theorem msgBody_samePlace (ctx : Ctx) (e : ParserEvent MimeMsgType) :
    SamePlace ctx (msgBody ctx e) := by
  obtain ⟨dd, pb, be, l, h⟩ := boundaryLine_dashSeen
    (if ctx.mediaFilterApply then ctx else ctx.emit (e.octet 0)) (e.octet 0)
  simp only [msgBody, h]
  split_ifs <;> exact ⟨rfl, rfl, rfl, rfl, rfl⟩

/-- The octets of a text, one after the other. -/
def bodyText (ctx : Ctx) (t : List Byte) : Ctx :=
  t.foldl (fun ctx c => msgBody ctx (MimeMsg.body c)) ctx

@[simp] theorem bodyText_nil (ctx : Ctx) : bodyText ctx [] = ctx := rfl

/-- A text in two pieces. -/
theorem bodyText_append (ctx : Ctx) (t u : List Byte) :
    bodyText ctx (t ++ u) = bodyText (bodyText ctx t) u :=
  List.foldl_append

/-- The last octet of a text. -/
theorem bodyText_concat (ctx : Ctx) (t : List Byte) (c : Byte) :
    bodyText ctx (t ++ [c]) = msgBody (bodyText ctx t) (MimeMsg.body c) :=
  bodyText_append ctx t [c]

/-- A text leaves alone what an octet does. -/
theorem bodyText_samePlace (ctx : Ctx) (t : List Byte) : SamePlace ctx (bodyText ctx t) := by
  induction t using List.reverseRecOn with
  | nil => exact ⟨rfl, rfl, rfl, rfl, rfl⟩
  | append_singleton t c ih =>
    rw [bodyText_concat]
    exact ih.trans (msgBody_samePlace _ _)

/-- What has been watched of a line grows with the text. -/
theorem bodyText_watching {line : List Byte} (h : Watching line ctx) (t : List Byte) :
    Watching (line ++ t) (bodyText ctx t) := by
  induction t using List.reverseRecOn with
  | nil => simpa using h
  | append_singleton t c ih =>
    rw [bodyText_concat, ← List.append_assoc]
    exact ih.body (MimeMsg.body c)

/-- An octet of the body. -/
theorem mimeMsg_body (h : ctx.msg = .body) {c : Byte} (hc : c ≠ CR) :
    mimeMsg env ctx c = .ok (msgBody ctx (MimeMsg.body c)) := by
  have hfeed : mimeMsgFeed ctx.msg c = (.body, [MimeMsg.body c]) := by
    rw [h, mimeMsgFeed_body, if_neg hc]
  rw [mimeMsg, hfeed, ← h]
  rfl

/-- Inside a line of the body the octets go through the branch of the body. -/
theorem mailRun_text (h : ctx.msg = .body) {t : List Byte} (ht : CR ∉ t) :
    mailRun env ctx t = .ok (bodyText ctx t) := by
  induction t using List.reverseRecOn with
  | nil => rfl
  | append_singleton t c ih =>
    simp only [List.mem_append, List.mem_singleton, not_or] at ht
    rw [mailRun_concat, ih ht.1, bodyText_concat]
    exact mimeMsg_body ((bodyText_samePlace ctx t).msg.trans h) (Ne.symm ht.2)

/-- Before two dashes in a row nothing is collected. -/
theorem bodyText_quiet {line t : List Byte} (h : Watching line ctx)
    (ht : ¬ [DASH, DASH] <:+: line ++ t) :
    (bodyText ctx t).possibleBoundaryString = ctx.possibleBoundaryString ∧
      (bodyText ctx t).boundaryEnd = ctx.boundaryEnd := by
  induction t using List.reverseRecOn with
  | nil => exact ⟨rfl, rfl⟩
  | append_singleton t c ih =>
    have hquiet : (bodyText ctx (t ++ [c])).doubleMiddleDash = false :=
      Bool.eq_false_iff.mpr fun hd => ht ((bodyText_watching h (t ++ [c])).double.mp hd)
    rw [bodyText_concat] at hquiet ⊢
    rw [msgBody_possibleBoundaryString, msgBody_boundaryEnd, hquiet]
    simp only [Bool.false_eq_true, false_and, if_false, Bool.false_and, Bool.or_false]
    refine ih fun hin => ht ?_
    rw [← List.append_assoc]
    exact hin.trans (List.prefix_append _ _).isInfix

/-- Behind them every octet is, but dashes at the beginning. -/
theorem bodyText_collecting (h : ctx.doubleMiddleDash = true) (t : List Byte) :
    (bodyText ctx t).doubleMiddleDash = true ∧
      (bodyText ctx t).possibleBoundaryString =
        (if ctx.possibleBoundaryString = [] then t.dropWhile (· = DASH)
          else ctx.possibleBoundaryString ++ t) ∧
      ((bodyText ctx t).boundaryEnd = true ↔ ctx.boundaryEnd = true ∨
        [DASH, DASH] <:+: (if ctx.possibleBoundaryString = [] then t.dropWhile (· = DASH)
          else ctx.possibleBoundaryString.getLast?.toList ++ t)) := by
  -- the line is fed from its beginning, so the induction is on its last octet
  induction t using List.reverseRecOn with
  | nil =>
    refine ⟨h, by simp, ?_⟩
    have hno : ¬ [DASH, DASH] <:+: (if ctx.possibleBoundaryString = [] then []
        else ctx.possibleBoundaryString.getLast?.toList) := by
      intro hin
      have hlen := hin.length_le
      split_ifs at hlen
      · simp at hlen
      · cases hlast : ctx.possibleBoundaryString.getLast? <;> simp [hlast] at hlen
    rw [bodyText_nil, List.dropWhile_nil, List.append_nil]
    exact ⟨Or.inl, fun h => h.resolve_right hno⟩
  | append_singleton t c ih =>
    obtain ⟨hdouble, hline, hend⟩ := ih
    have hdouble' : (msgBody (bodyText ctx t) (MimeMsg.body c)).doubleMiddleDash = true := by
      rw [msgBody_doubleMiddleDash, hdouble]
      rfl
    have hlast : ctx.possibleBoundaryString ≠ [] →
        (ctx.possibleBoundaryString ++ t).getLast? =
          (ctx.possibleBoundaryString.getLast?.toList ++ t).getLast? := by
      intro hne
      obtain ⟨l, d, hl⟩ := (List.eq_nil_or_concat ctx.possibleBoundaryString).resolve_left hne
      simp [hl, List.getLast?_append, List.getLast?_cons]
    rw [bodyText_concat, msgBody_possibleBoundaryString, msgBody_boundaryEnd, hdouble', hline,
      show (MimeMsg.body c).octet 0 = c from rfl]
    -- dashes are dropped as long as nothing is collected
    have hdrop : (t ++ [c]).dropWhile (· = DASH) =
        if c = DASH ∧ t.dropWhile (· = DASH) = [] then []
        else t.dropWhile (· = DASH) ++ [c] := by
      rw [List.dropWhile_append]
      by_cases hempty : t.dropWhile (· = DASH) = [] <;> by_cases hc : c = DASH <;>
        simp [hempty, hc]
    generalize t.dropWhile (· = DASH) = rest at hdrop hend ⊢
    rw [hdrop]
    refine ⟨rfl, ?_, ?_⟩
    · by_cases hl : ctx.possibleBoundaryString = []
      · simp only [hl, if_true, true_and]
        by_cases hskip : c = DASH ∧ rest = []
        · rw [if_neg (not_not_intro hskip), if_pos hskip, hskip.2]
        · rw [if_pos hskip, if_neg hskip]
      · simp [hl]
    · rw [Bool.or_eq_true, hend, or_assoc]
      refine or_congr_right ?_
      -- the end is seen with the second of two dashes, the first of which may be collected already
      by_cases hl : ctx.possibleBoundaryString = []
      · simp only [hl, if_true]
        by_cases hskip : c = DASH ∧ rest = []
        · rw [if_pos hskip, hskip.2]
          simp
        · rw [if_neg hskip, dashes_concat]
          simp [and_comm]
      · simp only [hl, if_false]
        rw [← List.append_assoc, dashes_concat, hlast hl]
        simp [and_comm]

/-! ## The end of a line -/

/-- At the start of a line of the body, with `b` on top of the boundary stack.  A boundary
is pushed by a content type, and none is read with an empty list of types. -/
structure AtLine (b : List Byte) (ctx : Ctx) : Prop where
  msg : ctx.msg = .body
  stack : ∃ rest, ctx.boundryStack = b :: rest
  types : ctx.mediaTypes ≠ []
  watching : Watching [] ctx
  ending : ctx.boundaryEnd = false

/-- What the line has left in the collector when it ends. -/
theorem bodyText_line (h : Watching [] ctx) (line : List Byte) :
    ((bodyText ctx line).doubleMiddleDash = true ↔ ∃ y, behindDashes line = some y) ∧
      (bodyText ctx line).possibleBoundaryString = leftBehind ctx.possibleBoundaryString line ∧
      ((bodyText ctx line).boundaryEnd = true ↔
        ∃ y, behindDashes line = some y ∧ EndSeen ctx.possibleBoundaryString y) := by
  have hending := h.ended
  have hwatch := bodyText_watching h line
  rw [List.nil_append] at hwatch
  cases hy : behindDashes line with
  | none =>
    have hno := behindDashes_eq_none hy
    obtain ⟨hl, hend⟩ := bodyText_quiet h (t := line) (by simpa using hno)
    rw [hwatch.double, hl, hend, hending, leftBehind, hy]
    simpa using hno
  | some y =>
    obtain ⟨x, rfl, hx⟩ := behindDashes_eq_some hy
    obtain ⟨hl, hend⟩ := bodyText_quiet h (t := x ++ [DASH]) (by simpa using hx)
    have hmiddle : (bodyText ctx (x ++ [DASH])).isMiddleDash = some true := by
      rw [bodyText_concat, msgBody_isMiddleDash]
      rfl
    -- the second dash turns the collector on
    have hsecond : bodyText ctx (x ++ [DASH, DASH] ++ y) =
        bodyText (msgBody (bodyText ctx (x ++ [DASH])) (MimeMsg.body DASH)) y := by
      rw [← bodyText_concat, ← bodyText_append]
      simp
    have hon :
      (msgBody (bodyText ctx (x ++ [DASH])) (MimeMsg.body DASH)).doubleMiddleDash = true := by
      rw [msgBody_doubleMiddleDash, hmiddle]
      simp [ParserEvent.octet, MimeMsg.body]
    have hline := msgBody_possibleBoundaryString (bodyText ctx (x ++ [DASH])) (MimeMsg.body DASH)
    have hflag := msgBody_boundaryEnd (bodyText ctx (x ++ [DASH])) (MimeMsg.body DASH)
    rw [hon, hl, show (MimeMsg.body DASH).octet 0 = DASH from rfl] at hline hflag
    rw [hend, hending] at hflag
    obtain ⟨hdouble, hcollected, hending⟩ := bodyText_collecting hon y
    rw [hsecond, hdouble, hcollected, hending, leftBehind, hy, hline, hflag]
    refine ⟨by simp, ?_, ?_⟩
    · by_cases hempty : ctx.possibleBoundaryString = [] <;> simp [hempty, collected]
    · by_cases hempty : ctx.possibleBoundaryString = [] <;> simp [hempty, EndSeen]

/-- What is kept of the line `line` when it ends without being a boundary. -/
structure NextLine (b : List Byte) (ctx : Ctx) (line : List Byte) (ctx' : Ctx) : Prop where
  atLine : AtLine b ctx'
  left : ctx'.possibleBoundaryString = leftBehind ctx.possibleBoundaryString line
  strings : ctx'.strings = ctx.strings + compared ctx.possibleBoundaryString line
  stack : ctx'.boundryStack = ctx.boundryStack

/-- The flags are cleared at the end of a line. -/
def Ctx.clearLine (ctx : Ctx) : Ctx :=
  { ctx with
    isMiddleDash := some false
    doubleMiddleDash := false
    possibleBoundary := some false
    boundaryEnd := false }

/-- The CR that may end a line. -/
theorem mimeMsg_bodyCr (env : FilterEnv) (h : ctx.msg = .body) : mimeMsg env ctx CR =
    .ok { ctx with
      msg := .bodyCr, mail := if ctx.mediaFilterApply then ctx.mail else ctx.mail.write CR } := by
  have hfeed : mimeMsgFeed ctx.msg CR = (.bodyCr, [MimeMsg.bodyCrlf CR]) := by
    rw [h]
    decide
  rw [mimeMsg_single hfeed]
  by_cases happly : ctx.mediaFilterApply = true
  · simp only [mimeMsgEvent, MimeMsg.bodyCrlf, msgBodyCr, happly, if_true]
  · simp only [mimeMsgEvent, MimeMsg.bodyCrlf, msgBodyCr, happly]
    rfl

/-- The end of a line: what has been collected is compared, and the flags are cleared. -/
theorem mailRun_crlf (env : FilterEnv) (h : ctx.msg = .body) :
    ∃ t, (ctx.mediaFilterApply = true → t = ctx.mail) ∧ mailRun env ctx CRLF =
      partBoundary env { ctx with mail := t } >>= fun ctx => lastBoundary env ctx >>= fun ctx =>
        .ok ctx.clearLine := by
  have hfeed : mimeMsgFeed .bodyCr LF = (.body, [MimeMsg.bodyNewline LF]) := by decide
  have hlf (t : Tape Byte) : mimeMsg env { ctx with msg := .bodyCr, mail := t } LF =
      mimeMsgEvent env { ctx with mail := t } (MimeMsg.bodyNewline LF) := by
    have hstep : mimeMsg env { ctx with msg := .bodyCr, mail := t } LF =
        mimeMsgEvent env { ctx with msg := .body, mail := t } (MimeMsg.bodyNewline LF) :=
      mimeMsg_single hfeed
    rw [hstep, ← h]
  rw [show CRLF = [CR] ++ [LF] from rfl, mailRun_concat, mailRun, List.foldlM_cons,
    mimeMsg_bodyCr env h]
  show ∃ t, _ ∧ mimeMsg env { ctx with msg := .bodyCr, mail := _ } LF = _
  rw [hlf]
  by_cases happly : ctx.mediaFilterApply = true
  · refine ⟨ctx.mail, fun _ => rfl, ?_⟩
    simp only [mimeMsgEvent, MimeMsg.bodyNewline, msgBodyNewline, happly, if_true]
    rfl
  · refine ⟨(ctx.mail.write CR).write LF, fun hyes => absurd hyes happly, ?_⟩
    simp only [mimeMsgEvent, MimeMsg.bodyNewline, msgBodyNewline, happly, Ctx.emit]
    rfl

/-- What is done at the end of a line, when the line feed has been copied. -/
def endLine (env : FilterEnv) (ctx : Ctx) : Except FilterFault Ctx :=
  partBoundary env ctx >>= fun ctx => lastBoundary env ctx >>= fun ctx => .ok ctx.clearLine

/-- A line without two dashes in a row is compared with nothing. -/
theorem endLine_quiet (hdouble : ctx.doubleMiddleDash = false) (hend : ctx.boundaryEnd = false) :
    endLine env ctx = .ok ctx.clearLine := by
  simp [endLine, partBoundary, lastBoundary, hdouble, hend]

/-- A line that may end with two dashes is compared twice, and may be the last boundary. -/
theorem endLine_end (env : FilterEnv) (ctx : Ctx) {b : List Byte} {rest : List (List Byte)}
    (hstack : ctx.boundryStack = b :: rest)
    (hdouble : ctx.doubleMiddleDash = true) (hend : ctx.boundaryEnd = true) :
    endLine env ctx =
      .ok (if listEndIs ctx.possibleBoundaryString (env.behind (ctx.strings + 1)) b then
        boundaryEndFound { ctx with strings := ctx.strings + 2 }
      else { ctx with strings := ctx.strings + 2 }).clearLine := by
  have hpart : partBoundary env ctx = .ok { ctx with strings := ctx.strings + 1 } := by
    simp [partBoundary, peekIs, hdouble, hstack, hend]
  rw [endLine, hpart, ok_bind]
  simp [lastBoundary, peekIs, hstack, hend]

/-- Any other line is compared once, and may be a boundary between parts. -/
theorem endLine_part (env : FilterEnv) (ctx : Ctx) {b : List Byte} {rest : List (List Byte)}
    (hstack : ctx.boundryStack = b :: rest) (htypes : ctx.mediaTypes ≠ [])
    (hdouble : ctx.doubleMiddleDash = true) (hend : ctx.boundaryEnd = false) :
    ∃ ctx', endLine env ctx = .ok ctx' ∧
      if listIs ctx.possibleBoundaryString (env.behind ctx.strings) b then
        ctx'.msg = .name0 ∧ ctx'.mediaFilterApply = false ∧ ctx'.boundryStack = ctx.boundryStack
      else ctx' = { ctx with strings := ctx.strings + 1 }.clearLine := by
  have hlast : ∀ ctx₁ : Ctx, ctx₁.boundaryEnd = false → lastBoundary env ctx₁ = .ok ctx₁ := by
    intro ctx₁ he
    simp [lastBoundary, he]
  by_cases hpasses : listIs ctx.possibleBoundaryString (env.behind ctx.strings) b
  · have hpart : partBoundary env ctx = boundaryFound { ctx with strings := ctx.strings + 1 } := by
      simp [partBoundary, peekIs, hdouble, hstack, hend, hpasses]
    have hfound : ∃ ctx₁, boundaryFound { ctx with strings := ctx.strings + 1 } = .ok ctx₁ ∧
        ctx₁.msg = .name0 ∧ ctx₁.mediaFilterApply = false ∧
        ctx₁.boundryStack = ctx.boundryStack ∧ ctx₁.boundaryEnd = false := by
      by_cases happly : ctx.mediaFilterApply = true <;>
        simp [boundaryFound, resetParserTypesAndSubtypes, happly, htypes, Ctx.insertText, hend]
    obtain ⟨ctx₁, hfound, hmsg, happly, hstack₁, hend₁⟩ := hfound
    refine ⟨ctx₁.clearLine, ?_, ?_⟩
    · rw [endLine, hpart, hfound, ok_bind, hlast ctx₁ hend₁, ok_bind]
    · rw [if_pos hpasses]
      exact ⟨hmsg, happly, hstack₁⟩
  · have hpart : partBoundary env ctx = .ok { ctx with strings := ctx.strings + 1 } := by
      simp [partBoundary, peekIs, hdouble, hstack, hpasses]
    refine ⟨_, ?_, (if_neg hpasses).mpr rfl⟩
    rw [endLine, hpart, ok_bind, hlast { ctx with strings := ctx.strings + 1 } hend, ok_bind]

/-- **A line of the body** is what it passes for. -/
theorem mailRun_line (env : FilterEnv) {b : List Byte} (h : AtLine b ctx) {line : List Byte}
    (hline : CR ∉ line) :
    ∃ ctx', mailRun env ctx (line ++ CRLF) = .ok ctx' ∧
      (PassesForBoundary b ctx.possibleBoundaryString (env.behind ctx.strings) line →
        ctx'.msg = .name0 ∧ ctx'.mediaFilterApply = false ∧
          ctx'.boundryStack = ctx.boundryStack) ∧
      (PassesForEnd b ctx.possibleBoundaryString (env.behind (ctx.strings + 1)) line →
        ctx'.msg = .body ∧ ctx'.boundryStack = ctx.boundryStack.tail) ∧
      (¬ PassesForBoundary b ctx.possibleBoundaryString (env.behind ctx.strings) line →
        ¬ PassesForEnd b ctx.possibleBoundaryString (env.behind (ctx.strings + 1)) line →
        NextLine b ctx line ctx') := by
  obtain ⟨rest, hstack⟩ := h.stack
  have hplace := bodyText_samePlace ctx line
  obtain ⟨hdouble, hl, hend⟩ := bodyText_line h.watching line
  obtain ⟨t, -, hrun⟩ := mailRun_crlf env (hplace.msg.trans h.msg)
  have hmail : mailRun env ctx (line ++ CRLF) = mailRun env (bodyText ctx line) CRLF := by
    rw [mailRun_append, mailRun_text h.msg hline]
    rfl
  rw [hmail, hrun]
  generalize bodyText ctx line = ctx₁ at hplace hdouble hl hend
  show ∃ ctx', endLine env { ctx₁ with mail := t } = .ok ctx' ∧ _
  have hstack₁ : ctx₁.boundryStack = b :: rest := hplace.stack.trans hstack
  have htypes₁ : ctx₁.mediaTypes ≠ [] := hplace.types ▸ h.types
  -- what the line leaves when it is no boundary
  have hnext : ∀ n, n = ctx.strings + compared ctx.possibleBoundaryString line →
      NextLine b ctx line { ctx₁ with mail := t, strings := n }.clearLine := by
    intro n hn
    have hclear : Watching [] { ctx₁ with mail := t, strings := n }.clearLine :=
      ⟨by simp [Ctx.clearLine], by simp [Ctx.clearLine], by simp [Ctx.clearLine]⟩
    exact ⟨⟨hplace.msg.trans h.msg, ⟨rest, hstack₁⟩, htypes₁, hclear, rfl⟩, hl, hn, hplace.stack⟩
  cases hy : behindDashes line with
  | none =>
    have hno : ∀ y, behindDashes line ≠ some y := fun y hy' =>
      Option.some_ne_none y (hy'.symm.trans hy)
    have hdouble₁ : ctx₁.doubleMiddleDash = false :=
      Bool.eq_false_iff.mpr fun hd => (hdouble.mp hd).elim hno
    have hend₁ : ctx₁.boundaryEnd = false :=
      Bool.eq_false_iff.mpr fun he => (hend.mp he).elim fun y hy' => hno y hy'.1
    refine ⟨_, endLine_quiet hdouble₁ hend₁, fun hpass => ?_, fun hpass => ?_, fun _ _ => ?_⟩
    · exact hpass.elim fun y hy' => absurd hy'.1 (hno y)
    · exact hpass.elim fun y hy' => absurd hy'.1 (hno y)
    · have hn := hnext ctx₁.strings (by rw [hplace.strings, compared, hy]; rfl)
      exact hn
  | some y =>
    have hdouble₁ : ctx₁.doubleMiddleDash = true := hdouble.mpr ⟨y, hy⟩
    rw [leftBehind, hy] at hl
    by_cases hseen : EndSeen ctx.possibleBoundaryString y
    · have hend₁ : ctx₁.boundaryEnd = true := hend.mpr ⟨y, hy, hseen⟩
      have hcompared : compared ctx.possibleBoundaryString line = 2 := by
        rw [compared, hy]
        exact if_pos hseen
      have hpasses :
        listEndIs ctx₁.possibleBoundaryString (env.behind (ctx₁.strings + 1)) b = true ↔
          PassesForEnd b ctx.possibleBoundaryString (env.behind (ctx.strings + 1)) line := by
        rw [hl, hplace.strings, PassesForEnd, hy]
        simp [listEndIs, hseen]
      refine ⟨_, endLine_end env { ctx₁ with mail := t } hstack₁ hdouble₁ hend₁, fun hpass => ?_,
        fun hpass => ?_,
        fun _ hno => ?_⟩
      · obtain ⟨y', hy', hno, -⟩ := hpass
        obtain rfl := Option.some.inj (hy.symm.trans hy')
        exact absurd hseen hno
      · have hfound : ∀ ctx₂ : Ctx, (boundaryEndFound ctx₂).clearLine.msg = ctx₂.msg ∧
            (boundaryEndFound ctx₂).clearLine.boundryStack = ctx₂.boundryStack.tail := by
          intro ctx₂
          simp only [boundaryEndFound]
          split_ifs <;> exact ⟨rfl, rfl⟩
        rw [if_pos (hpasses.mpr hpass), (hfound _).1, (hfound _).2, ← hplace.stack]
        exact ⟨hplace.msg.trans h.msg, rfl⟩
      · rw [if_neg (mt hpasses.mp hno)]
        exact hnext _ (by rw [hcompared, ← hplace.strings])
    · have hend₁ : ctx₁.boundaryEnd = false := by
        rw [Bool.eq_false_iff]
        intro hd
        obtain ⟨y', hy', hseen'⟩ := hend.mp hd
        obtain rfl := Option.some.inj (hy.symm.trans hy')
        exact hseen hseen'
      have hcompared : compared ctx.possibleBoundaryString line = 1 := by
        rw [compared, hy]
        exact if_neg hseen
      have hpasses : listIs ctx₁.possibleBoundaryString (env.behind ctx₁.strings) b = true ↔
          PassesForBoundary b ctx.possibleBoundaryString (env.behind ctx.strings) line := by
        rw [hl, hplace.strings, PassesForBoundary, hy]
        simp [listIs, hseen]
      obtain ⟨ctx', hres, hshown⟩ := endLine_part env { ctx₁ with mail := t }
        hstack₁ htypes₁ hdouble₁ hend₁
      refine ⟨ctx', hres, fun hpass => ?_, fun hpass => ?_, fun hno _ => ?_⟩
      · rw [if_pos (hpasses.mpr hpass)] at hshown
        exact ⟨hshown.1, hshown.2.1, hshown.2.2.trans hplace.stack⟩
      · obtain ⟨y', hy', hseen', -⟩ := hpass
        obtain rfl := Option.some.inj (hy.symm.trans hy')
        exact absurd hseen' hseen
      · rw [if_neg (mt hpasses.mp hno)] at hshown
        rw [hshown]
        exact hnext _ (by rw [hcompared, ← hplace.strings])

/-! ## Lines one after the other -/

/-- Each line, up to the first that is the boundary or its end, is taken for what it is. -/
def BoundariesTold (env : FilterEnv) (b : List Byte) : Ctx → List (List Byte) → Prop
  | _, [] => True
  | ctx, line :: lines => ∃ ctx', mailRun env ctx (line ++ CRLF) = .ok ctx' ∧
      (ctx'.msg = .name0 ∧ ctx'.mediaFilterApply = false ↔ line = [DASH, DASH] ++ b) ∧
      (ctx'.boundryStack = ctx.boundryStack.tail ↔ line = [DASH, DASH] ++ b ++ [DASH, DASH]) ∧
      (line ≠ [DASH, DASH] ++ b → line ≠ [DASH, DASH] ++ b ++ [DASH, DASH] →
        BoundariesTold env b ctx' lines)

/-- Of what is left in the collector and the line itself the boundary and its end are
collected where they stand, and nowhere else; `n` counts the strings compared before. -/
def BoundariesCollected (env : FilterEnv) (b : List Byte) :
    List Byte → ℕ → List (List Byte) → Prop
  | _, _, [] => True
  | l, n, line :: lines =>
      (PassesForBoundary b l (env.behind n) line ↔ line = [DASH, DASH] ++ b) ∧
      (PassesForEnd b l (env.behind (n + 1)) line ↔ line = [DASH, DASH] ++ b ++ [DASH, DASH]) ∧
      (line ≠ [DASH, DASH] ++ b → line ≠ [DASH, DASH] ++ b ++ [DASH, DASH] →
        BoundariesCollected env b (leftBehind l line) (n + compared l line) lines)

/-- What the filter shows of a line is what the line passes for. -/
theorem line_shown (env : FilterEnv) {b : List Byte} (h : AtLine b ctx) {line : List Byte}
    (hline : CR ∉ line) :
    ∃ ctx', mailRun env ctx (line ++ CRLF) = .ok ctx' ∧
      (ctx'.msg = .name0 ∧ ctx'.mediaFilterApply = false ↔
        PassesForBoundary b ctx.possibleBoundaryString (env.behind ctx.strings) line) ∧
      (ctx'.boundryStack = ctx.boundryStack.tail ↔
        PassesForEnd b ctx.possibleBoundaryString (env.behind (ctx.strings + 1)) line) ∧
      (¬ PassesForBoundary b ctx.possibleBoundaryString (env.behind ctx.strings) line →
        ¬ PassesForEnd b ctx.possibleBoundaryString (env.behind (ctx.strings + 1)) line →
        NextLine b ctx line ctx') := by
  obtain ⟨ctx', hrun, hpart, hlast, hnext⟩ := mailRun_line env h hline
  obtain ⟨rest, hstack⟩ := h.stack
  have htail : ctx.boundryStack ≠ ctx.boundryStack.tail := by
    rw [hstack]
    exact fun heq => absurd (congrArg List.length heq) (by simp)
  refine ⟨ctx', hrun, ⟨fun hshown => ?_, fun hpass => ⟨(hpart hpass).1, (hpart hpass).2.1⟩⟩,
    ⟨fun hshown => ?_, fun hpass => (hlast hpass).2⟩, hnext⟩
  · by_contra hno
    by_cases hend : PassesForEnd b ctx.possibleBoundaryString (env.behind (ctx.strings + 1)) line
    · exact absurd ((hlast hend).1.symm.trans hshown.1) (by simp)
    · exact absurd ((hnext hno hend).atLine.msg.symm.trans hshown.1) (by simp)
  · by_contra hno
    by_cases hbound : PassesForBoundary b ctx.possibleBoundaryString (env.behind ctx.strings) line
    · exact htail ((hpart hbound).2.2.symm.trans hshown)
    · exact htail ((hnext hbound hno).stack.symm.trans hshown)

/-- **Boundaries** are told from other lines exactly where they are collected. -/
theorem boundaries_told {b : List Byte} (h : AtLine b ctx) {lines : List (List Byte)}
    (hlines : ∀ line ∈ lines, CR ∉ line) : BoundariesTold env b ctx lines ↔
      BoundariesCollected env b ctx.possibleBoundaryString ctx.strings lines := by
  induction lines generalizing ctx with
  | nil => exact Iff.rfl
  | cons line lines ih =>
    obtain ⟨ctx', hrun, hpart, hlast, hnext⟩ :=
      line_shown env h (hlines line (by simp))
    have hrest : ∀ ctx', NextLine b ctx line ctx' → (BoundariesTold env b ctx' lines ↔
        BoundariesCollected env b (leftBehind ctx.possibleBoundaryString line)
          (ctx.strings + compared ctx.possibleBoundaryString line) lines) := by
      intro ctx' hn
      rw [ih hn.atLine fun l hl => hlines l (by simp [hl]), hn.left, hn.strings]
    constructor
    · rintro ⟨ctx'', hrun', hpart', hlast', hnext'⟩
      obtain rfl := Except.ok.inj (hrun.symm.trans hrun')
      refine ⟨hpart.symm.trans hpart', hlast.symm.trans hlast', fun hb he => ?_⟩
      have hn := hnext (mt (hpart.symm.trans hpart').mp hb) (mt (hlast.symm.trans hlast').mp he)
      exact (hrest ctx' hn).mp (hnext' hb he)
    · rintro ⟨hpart', hlast', hnext'⟩
      refine ⟨ctx', hrun, hpart.trans hpart', hlast.trans hlast', fun hb he => ?_⟩
      have hn := hnext (mt hpart'.mp hb) (mt hlast'.mp he)
      exact (hrest ctx' hn).mpr (hnext' hb he)

/-- With nothing left behind and a NUL in the memory, the boundary itself is collected when it
does not begin with a dash and has no two dashes in a row. -/
theorem passes_boundary_iff {b behind : List Byte} (hb : 0 ∉ b) (hbehind : cstr behind = []) :
    PassesForBoundary b [] behind ([DASH, DASH] ++ b) ↔
      b.head? ≠ some DASH ∧ ¬ [DASH, DASH] <:+: b := by
  have hcstr : ∀ x : List Byte, 0 ∉ x → cstr (x ++ behind) = x := fun x hx => by
    rw [cstr_append hx, hbehind, List.append_nil]
  have hy : behindDashes ([DASH, DASH] ++ b) = some b := by simp [behindDashes]
  have hdrop : ∀ c ∈ b.dropWhile (· = DASH), c ∈ b := fun c hc =>
    (List.dropWhile_suffix (p := (· = DASH))).subset hc
  have hiff : PassesForBoundary b [] behind ([DASH, DASH] ++ b) ↔
      ¬ [DASH, DASH] <:+: b.dropWhile (· = DASH) ∧ b.dropWhile (· = DASH) = b := by
    rw [PassesForBoundary, hy]
    simp [EndSeen, collected, hcstr _ fun h => hb (hdrop 0 h)]
  rw [hiff]
  cases b with
  | nil => simp
  | cons c b =>
    by_cases hc : c = DASH
    · have hlen : ∀ h : (c :: b).dropWhile (· = DASH) = c :: b, False := by
        intro h
        have hle := congrArg List.length h
        have hshort := (List.dropWhile_suffix (p := (· = DASH)) (l := b)).length_le
        simp only [hc, List.dropWhile_cons, decide_true, if_true, List.length_cons] at hle
        omega
      simp only [hc, List.head?_cons, ne_eq, not_true_eq_false, false_and, iff_false]
      exact fun h => hlen (hc ▸ h.2)
    · simp [hc]

/-- A line without dashes, and the boundary. -/
theorem boundaries_told_part :
    BoundariesTold {} (ascii "x")
      { msg := .body, boundryStack := [ascii "x"], mediaTypes := [⟨ascii "image", 0, [.wildcard]⟩] }
      [ascii "a", ascii "--x"] := by
  refine (boundaries_told ⟨rfl, ⟨[], rfl⟩, by simp, ⟨by simp, by simp, by simp⟩, rfl⟩
    (by decide)).mpr ⟨by decide, by decide, fun _ _ => ⟨by decide, by decide, fun h => ?_⟩⟩
  exact absurd rfl h

/-- A line with dashes hides the boundary behind it. -/
theorem boundaries_confused :
    ¬ ∀ (env : FilterEnv) (b : List Byte) (ctx : Ctx) (lines : List (List Byte)), b ≠ [] →
      (∀ c ∈ b, initCharClass .bcharsNospace c = true) → AtLine b ctx →
      (∀ line ∈ lines, CR ∉ line) → BoundariesTold env b ctx lines := by
  intro h
  have h := h {} (ascii "x")
    { msg := .body, boundryStack := [ascii "x"], mediaTypes := [⟨ascii "image", 0, [.wildcard]⟩] }
    [ascii "--y", ascii "--x"] (by decide) (by simp [ascii]; decide)
    ⟨rfl, ⟨[], rfl⟩, by simp, ⟨by simp, by simp, by simp⟩, rfl⟩ (by decide)
  obtain ⟨ctx₁, hrun₁, -, -, hnext⟩ := h
  obtain ⟨ctx₂, hrun₂, hshown, -⟩ := hnext (by decide) (by decide)
  have hrun : (mailRun {}
      { msg := .body, boundryStack := [ascii "x"], mediaTypes := [⟨ascii "image", 0, [.wildcard]⟩] }
      (ascii "--y" ++ CRLF ++ (ascii "--x" ++ CRLF))).map (·.msg) = .ok .body := by decide
  rw [mailRun_append, hrun₁, ok_bind, hrun₂] at hrun
  exact absurd ((Except.ok.inj hrun).symm.trans (hshown.mpr rfl).1) (by decide)

end

end Pop3Proxy
