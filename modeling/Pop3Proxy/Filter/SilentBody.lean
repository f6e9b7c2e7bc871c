/-
# A body that is not written

While a part is filtered nothing is written of its body, octet by octet, until a CR stands
alone or a line passes for the boundary on top of the stack or for its end.
-/
import Pop3Proxy.Filter.Boundary
import Pop3Proxy.Filter.Listed

namespace Pop3Proxy

/-- Of the octets nothing is written, however many of them are read. -/
def Unwritten (env : FilterEnv) (ctx : Ctx) (bs : List Byte) : Prop :=
  ∀ seen, seen <+: bs → ∀ ctx', mailRun env ctx seen = .ok ctx' → ctx'.emitted = ctx.emitted

/-- The octets of a body. -/
def bodyOctets (lines : List (List Byte)) : List Byte := lines.flatMap (· ++ CRLF)

/-- No line lets the body out: none has a CR of its own, and with `l` left in the collector and
`n` strings compared before none passes for the boundary on top of the stack, or for its end.
Where the stack is empty the first line with two dashes in a row is the last one. -/
def HeldBack (env : FilterEnv) :
    List (List Byte) → List Byte → ℕ → List (List Byte) → Prop
  | _, _, _, [] => True
  | [], l, n, line :: lines =>
    CR ∉ line ∧ (behindDashes line = none → HeldBack env [] l n lines)
  | b :: stack, l, n, line :: lines =>
    CR ∉ line ∧ ¬ PassesForBoundary b l (env.behind n) line ∧
      ¬ PassesForEnd b l (env.behind (n + 1)) line ∧
      HeldBack env (b :: stack) (leftBehind l line) (n + compared l line) lines

/-- At the start of a line of the body of a part that is filtered. -/
structure Suppressed (ctx : Ctx) : Prop where
  msg : ctx.msg = .body
  apply : ctx.mediaFilterApply = true
  types : ctx.mediaTypes ≠ []
  watching : Watching [] ctx

section
variable {env : FilterEnv} {ctx ctx' : Ctx} {c : Byte}

/-! ## Nothing written -/

/-- Of no octets nothing is written. -/
theorem unwritten_nil : Unwritten env ctx [] := by
  intro seen hseen ctx' hrun
  obtain rfl := List.prefix_nil.mp hseen
  obtain rfl := Except.ok.inj hrun
  rfl

/-- The rest is as silent as what comes first. -/
theorem Unwritten.append {as bs : List Byte} (h : Unwritten env ctx as)
    (h' : ∀ ctx', mailRun env ctx as = .ok ctx' → Unwritten env ctx' bs) :
    Unwritten env ctx (as ++ bs) := by
  rintro seen ⟨rest, hrest⟩ ctx' hrun
  rcases List.append_eq_append_iff.mp hrest with ⟨x, hx, -⟩ | ⟨x, rfl, hx⟩
  · exact h seen ⟨x, hx.symm⟩ ctx' hrun
  · rw [mailRun_append] at hrun
    obtain ⟨ctx₁, h₁, hrun⟩ := bind_eq_ok.mp hrun
    have hsame := h' ctx₁ h₁ x ⟨rest, hx.symm⟩ ctx' hrun
    exact hsame.trans (h as (List.prefix_refl as) ctx₁ h₁)

/-- Nor of the first of them. -/
theorem Unwritten.left {as bs : List Byte} (h : Unwritten env ctx (as ++ bs)) :
    Unwritten env ctx as :=
  fun seen hseen => h seen (hseen.trans (List.prefix_append as bs))

/-- Nor of the rest. -/
theorem Unwritten.right {as bs : List Byte} (h : Unwritten env ctx (as ++ bs))
    (hrun : mailRun env ctx as = .ok ctx') : Unwritten env ctx' bs := by
  intro seen hseen ctx'' hrun'
  have hall : mailRun env ctx (as ++ seen) = .ok ctx'' := by
    rw [mailRun_append, hrun, ok_bind, hrun']
  have hsame := h (as ++ seen) ((List.prefix_append_right_inj as).mpr hseen) ctx'' hall
  exact hsame.trans (h as (List.prefix_append as bs) ctx' hrun).symm

/-- An octet of which something is written. -/
theorem not_unwritten_of_octet {bs : List Byte} (hstep : mimeMsg env ctx c = .ok ctx')
    (hout : ctx'.emitted ≠ ctx.emitted) : ¬ Unwritten env ctx (c :: bs) := by
  intro h
  refine hout (h [c] ⟨bs, rfl⟩ ctx' ?_)
  rw [mailRun_cons, hstep]
  rfl

/-- An octet that is written shows. -/
theorem emitted_emit_ne (ctx : Ctx) (c : Byte) : (ctx.emit c).emitted ≠ ctx.emitted := by
  rw [emitted_emit]
  exact fun h => absurd (congrArg List.length h) (by simp)

/-! ## A line -/

/-- An octet of the body. -/
theorem msgBody_mail (happly : ctx.mediaFilterApply = true) (e : ParserEvent MimeMsgType) :
    (msgBody ctx e).mail = ctx.mail := by
  obtain ⟨dd, pb, be, l, h⟩ := boundaryLine_dashSeen ctx (e.octet 0)
  simp only [msgBody, happly, if_true, h]

/-- In a part that is filtered a text is not written. -/
theorem bodyText_mail (happly : ctx.mediaFilterApply = true) (t : List Byte) :
    (bodyText ctx t).mail = ctx.mail := by
  induction t using List.reverseRecOn with
  | nil => rfl
  | append_singleton t c ih =>
    rw [bodyText_concat, msgBody_mail ((bodyText_samePlace ctx t).apply.trans happly), ih]

/-- So it goes until the line ends. -/
theorem Suppressed.text (env : FilterEnv) (h : Suppressed ctx) {t : List Byte} (ht : CR ∉ t) :
    mailRun env ctx t = .ok (bodyText ctx t) ∧ Unwritten env ctx t := by
  refine ⟨mailRun_text h.msg ht, ?_⟩
  intro seen hseen ctx' hrun
  rw [mailRun_text h.msg fun hmem => ht (hseen.subset hmem)] at hrun
  obtain rfl := Except.ok.inj hrun
  exact congrArg Tape.written (bodyText_mail h.apply seen)

/-- The CR behind a text. -/
theorem Suppressed.text_cr (env : FilterEnv) (h : Suppressed ctx) {t : List Byte} (ht : CR ∉ t) :
    (∃ ctx', mailRun env ctx (t ++ [CR]) = .ok ctx' ∧ ctx'.msg = .bodyCr) ∧
      Unwritten env ctx (t ++ [CR]) := by
  obtain ⟨hrun, hsilent⟩ := h.text env ht
  have hplace := bodyText_samePlace ctx t
  obtain ⟨ctx₁, hone, hmsg, hmail⟩ : ∃ ctx₁, mailRun env (bodyText ctx t) [CR] = .ok ctx₁ ∧
      ctx₁.msg = .bodyCr ∧ ctx₁.mail = (bodyText ctx t).mail := by
    rw [mailRun_cons, mimeMsg_bodyCr env (hplace.msg.trans h.msg)]
    exact ⟨_, rfl, rfl, if_pos (hplace.apply.trans h.apply)⟩
  refine ⟨⟨ctx₁, by rw [mailRun_append, hrun, ok_bind, hone], hmsg⟩, hsilent.append ?_⟩
  intro ctx₂ h₂
  obtain rfl := Except.ok.inj (hrun.symm.trans h₂)
  intro seen hseen ctx' hrun'
  rcases List.prefix_cons_iff.mp hseen with rfl | ⟨u, rfl, hu⟩
  · obtain rfl := Except.ok.inj hrun'
    rfl
  · obtain rfl := List.prefix_nil.mp hu
    obtain rfl := Except.ok.inj (hone.symm.trans hrun')
    exact congrArg Tape.written hmail

/-- A CR that stands alone lets out what follows it. -/
theorem Suppressed.lone_cr (env : FilterEnv) (h : Suppressed ctx) {t bs : List Byte} (ht : CR ∉ t)
    (hc : c ≠ LF) : ¬ Unwritten env ctx (t ++ CR :: c :: bs) := by
  intro hsilent
  obtain ⟨⟨ctx₁, hrun, hmsg⟩, -⟩ := h.text_cr env ht
  have hfeed : mimeMsgFeed ctx₁.msg c = (.error, [MimeMsg.unexpected c]) := by
    rw [hmsg, mimeMsgFeed_bodyCr, if_neg hc]
  have hstep : mimeMsg env ctx₁ c = .ok ({ ctx₁ with msg := .error }.emit c) := mimeMsg_single hfeed
  rw [List.append_cons] at hsilent
  exact not_unwritten_of_octet hstep (emitted_emit_ne _ c) (hsilent.right hrun)

/-- The end of the line. -/
theorem Suppressed.line (env : FilterEnv) (h : Suppressed ctx) {line : List Byte}
    (hline : CR ∉ line) : mailRun env ctx (line ++ CRLF) = endLine env (bodyText ctx line) ∧
      (Unwritten env ctx (line ++ CRLF) ↔
        ∀ ctx', endLine env (bodyText ctx line) = .ok ctx' → ctx'.emitted = ctx.emitted) := by
  have hplace := bodyText_samePlace ctx line
  obtain ⟨t, ht, hcrlf⟩ := mailRun_crlf env (hplace.msg.trans h.msg)
  have hrun : mailRun env ctx (line ++ CRLF) = endLine env (bodyText ctx line) := by
    rw [mailRun_append, (h.text env hline).1, ok_bind, hcrlf,
      ht (hplace.apply.trans h.apply)]
    rfl
  refine ⟨hrun, ⟨fun hsilent ctx' hend => ?_, fun hend => ?_⟩⟩
  · exact hsilent _ (List.prefix_refl _) ctx' (hrun.trans hend)
  -- up to the LF nothing is written
  · have hcr := (h.text_cr env hline).2
    intro seen hseen ctx' hrun'
    rw [show line ++ CRLF = line ++ [CR] ++ [LF] by simp [CRLF], List.prefix_concat_iff] at hseen
    rcases hseen with rfl | hseen
    · refine hend ctx' ?_
      rw [← hrun, ← hrun']
      simp [CRLF]
    · exact hcr seen hseen ctx' hrun'

/-! ## The end of a line -/

/-- What the end of a line does to a part that is filtered. -/
structure LineKept (ctx ctx' : Ctx) : Prop where
  msg : ctx'.msg = ctx.msg
  apply : ctx'.mediaFilterApply = ctx.mediaFilterApply
  stack : ctx'.boundryStack = ctx.boundryStack
  mail : ctx'.mail = ctx.mail
  types : ctx'.mediaTypes = ctx.mediaTypes

/-- **The end of a line** of a part that is filtered is silent, or it ends the part. -/
theorem endLine_filtered (happly : ctx.mediaFilterApply = true)
    (hres : endLine env ctx = .ok ctx') : LineKept ctx ctx' ∨ ctx'.emitted ≠ ctx.emitted ∧
      (ctx'.msg = .name0 ∨ ctx'.boundryStack = ctx.boundryStack.tail) := by
  -- a text that is inserted is seen in the output
  have hinsert (ctx₁ : Ctx) (text : List Byte) (hne : text ≠ []) :
      (ctx₁.insertText text).emitted ≠ ctx₁.emitted := by
    rw [Ctx.emitted, Ctx.insertText, Tape.written_writeAll]
    exact fun heq => hne (List.append_right_eq_self.mp heq)
  rw [endLine] at hres
  obtain ⟨ctx₁, h₁, hres⟩ := bind_eq_ok.mp hres
  obtain ⟨ctx₂, h₂, hres⟩ := bind_eq_ok.mp hres
  obtain rfl := Except.ok.inj hres
  -- the boundary of a part is found, which is written, or only a string has been made
  have hpart : (∃ n, ctx₁ = { ctx with strings := n }) ∨ ctx₁.emitted ≠ ctx.emitted ∧
      ctx₁.msg = .name0 ∧ ctx₁.boundaryEnd = false := by
    rw [partBoundary] at h₁
    split_ifs at h₁
    · obtain ⟨⟨same, ctx₃⟩, hpeek, h₁⟩ := bind_eq_ok.mp h₁
      obtain ⟨top, rest, -, -, rfl⟩ := peekIs_eq hpeek
      split_ifs at h₁ with hsame
      · right
        rw [boundaryFound, resetParserTypesAndSubtypes] at h₁
        have hend : ctx.boundaryEnd = false := by simpa using (Bool.and_eq_true_iff.mp hsame).2
        simp only [happly, if_true] at h₁
        split_ifs at h₁
        obtain rfl := Except.ok.inj h₁
        exact ⟨hinsert { ctx with strings := ctx.strings + 1 } _ (by simp), rfl, hend⟩
      · exact .inl ⟨_, (Except.ok.inj h₁).symm⟩
    · exact .inl ⟨_, (Except.ok.inj h₁).symm⟩
  rcases hpart with ⟨n, rfl⟩ | ⟨hout, hmsg, hend⟩
  · rw [lastBoundary] at h₂
    split_ifs at h₂
    · obtain ⟨⟨same, ctx₃⟩, hpeek, h₂⟩ := bind_eq_ok.mp h₂
      obtain ⟨top, rest, -, -, rfl⟩ := peekIs_eq hpeek
      obtain rfl := Except.ok.inj h₂
      cases same with
      | false => exact .inl ⟨rfl, rfl, rfl, rfl, rfl⟩
      | true =>
        right
        simp only [boundaryEndFound, happly, if_true]
        refine ⟨?_, .inr rfl⟩
        show (Ctx.emit (Ctx.insertText _ _) LF).emitted ≠ _
        rw [emitted_emit, Ctx.emitted, Ctx.insertText, Tape.written_writeAll, List.append_assoc]
        exact fun heq => absurd (List.append_right_eq_self.mp heq) (by simp)
    · obtain rfl := Except.ok.inj h₂
      exact .inl ⟨rfl, rfl, rfl, rfl, rfl⟩
  · right
    -- a line that begins a part does not end the last one
    rw [lastBoundary, if_neg (by simp [hend])] at h₂
    obtain rfl := Except.ok.inj h₂
    exact ⟨hout, .inl hmsg⟩

/-! ## Line by line -/

/-- A line with a boundary to compare it with. -/
theorem Suppressed.told (env : FilterEnv) (h : Suppressed ctx) {b : List Byte}
    {rest : List (List Byte)} (hstack : ctx.boundryStack = b :: rest) {line : List Byte}
    (hline : CR ∉ line) : ∃ ctx', mailRun env ctx (line ++ CRLF) = .ok ctx' ∧
      ((PassesForBoundary b ctx.possibleBoundaryString (env.behind ctx.strings) line ∨
          PassesForEnd b ctx.possibleBoundaryString (env.behind (ctx.strings + 1)) line) →
        ctx'.emitted ≠ ctx.emitted) ∧
      (¬ PassesForBoundary b ctx.possibleBoundaryString (env.behind ctx.strings) line →
        ¬ PassesForEnd b ctx.possibleBoundaryString (env.behind (ctx.strings + 1)) line →
        ctx'.emitted = ctx.emitted ∧ Suppressed ctx' ∧ NextLine b ctx line ctx') := by
  obtain ⟨ctx', hrun, hpart, hlast, hnext⟩ :=
    mailRun_line env ⟨h.msg, ⟨rest, hstack⟩, h.types, h.watching, h.watching.ended⟩ hline
  have hplace := bodyText_samePlace ctx line
  have hmail := bodyText_mail h.apply line
  have hsame : (bodyText ctx line).emitted = ctx.emitted := congrArg Tape.written hmail
  have htail : ctx.boundryStack ≠ ctx.boundryStack.tail := by
    rw [hstack]
    exact fun heq => absurd (congrArg List.length heq) (by simp)
  have hend := hrun
  rw [(h.line env hline).1] at hend
  refine ⟨ctx', hrun, fun hpass => ?_, fun hno hno' => ?_⟩
  · rcases endLine_filtered (hplace.apply.trans h.apply) hend with hkept | ⟨hout, -⟩
    · rcases hpass with hpass | hpass
      · have hmsg := hkept.msg.symm.trans (hpart hpass).1
        rw [hplace.msg, h.msg] at hmsg
        cases hmsg
      · have hstack' := hkept.stack.symm.trans (hlast hpass).2
        rw [hplace.stack] at hstack'
        exact absurd hstack' htail
    · rw [hsame] at hout
      exact hout
  · have hn := hnext hno hno'
    rcases endLine_filtered (hplace.apply.trans h.apply) hend with hkept | ⟨-, hmsg | hstack'⟩
    · refine ⟨(congrArg Tape.written hkept.mail).trans hsame, ?_, hn⟩
      exact ⟨hn.atLine.msg, hkept.apply.trans (hplace.apply.trans h.apply), hn.atLine.types,
        hn.atLine.watching⟩
    · rw [hn.atLine.msg] at hmsg
      cases hmsg
    · rw [hn.stack, hplace.stack] at hstack'
      exact absurd hstack' htail

/-- A line without one: it is the last when it has two dashes in a row. -/
theorem Suppressed.untold (env : FilterEnv) (h : Suppressed ctx) (hstack : ctx.boundryStack = [])
    {line : List Byte} (hline : CR ∉ line) :
    (behindDashes line ≠ none → ∀ ctx', mailRun env ctx (line ++ CRLF) ≠ .ok ctx') ∧
      (behindDashes line = none → ∃ ctx', mailRun env ctx (line ++ CRLF) = .ok ctx' ∧
        ctx'.emitted = ctx.emitted ∧ Suppressed ctx' ∧ ctx'.boundryStack = [] ∧
        ctx'.possibleBoundaryString = ctx.possibleBoundaryString ∧ ctx'.strings = ctx.strings) := by
  have hplace := bodyText_samePlace ctx line
  obtain ⟨hdouble, hl, hend⟩ := bodyText_line h.watching line
  rw [(h.line env hline).1]
  constructor
  · intro hsome ctx' hres
    have hon := hdouble.mpr (Option.ne_none_iff_exists'.mp hsome)
    rw [endLine, partBoundary, if_pos hon, peekIs, hplace.stack, hstack] at hres
    cases hres
  · intro hnone
    have hno : ∀ y, behindDashes line ≠ some y := fun y hy =>
      Option.some_ne_none y (hy.symm.trans hnone)
    have hoff : (bodyText ctx line).doubleMiddleDash = false :=
      Bool.eq_false_iff.mpr fun hd => (hdouble.mp hd).elim hno
    have hended : (bodyText ctx line).boundaryEnd = false :=
      Bool.eq_false_iff.mpr fun he => (hend.mp he).elim fun y hy => hno y hy.1
    have hclear : Watching [] (bodyText ctx line).clearLine :=
      ⟨by simp [Ctx.clearLine], by simp [Ctx.clearLine], by simp [Ctx.clearLine]⟩
    refine ⟨_, endLine_quiet hoff hended, congrArg Tape.written (bodyText_mail h.apply line),
      ⟨hplace.msg.trans h.msg, hplace.apply.trans h.apply, ?_, hclear⟩, ?_, ?_, hplace.strings⟩
    · show (bodyText ctx line).mediaTypes ≠ []
      rw [hplace.types]
      exact h.types
    · exact hplace.stack.trans hstack
    · rw [leftBehind, hnone] at hl
      exact hl

/-- A line that is silent. -/
theorem Suppressed.line_unwritten (env : FilterEnv) (h : Suppressed ctx) {line : List Byte}
    (hline : CR ∉ line) (hsame : ∀ ctx', mailRun env ctx (line ++ CRLF) = .ok ctx' →
      ctx'.emitted = ctx.emitted) : Unwritten env ctx (line ++ CRLF) := by
  obtain ⟨hrun, hiff⟩ := h.line env hline
  rw [hrun] at hsame
  exact hiff.mpr hsame

/-- **The body of a part that is filtered** is silent exactly as long as it is held back. -/
theorem unwritten_body (env : FilterEnv) {ctx : Ctx} (h : Suppressed ctx) {lines : List (List Byte)}
    (hlines : ∀ line ∈ lines, ¬ CRLF <:+: line) : Unwritten env ctx (bodyOctets lines) ↔
      HeldBack env ctx.boundryStack ctx.possibleBoundaryString ctx.strings lines := by
  induction lines generalizing ctx with
  | nil => exact iff_of_true unwritten_nil (by simp [HeldBack])
  | cons line lines ih =>
    have hlines' : ∀ l ∈ lines, ¬ CRLF <:+: l := fun l hl => hlines l (by simp [hl])
    have hbody : bodyOctets (line :: lines) = line ++ CRLF ++ bodyOctets lines := rfl
    rw [hbody]
    by_cases hcr : CR ∈ line
    -- the octet behind the first CR is no LF
    · obtain ⟨t, u, rfl, ht⟩ := List.eq_append_cons_of_mem hcr
      obtain ⟨c, bs, hbs, hc⟩ : ∃ c bs, u ++ CRLF ++ bodyOctets lines = c :: bs ∧ c ≠ LF := by
        cases u with
        | nil => exact ⟨CR, LF :: bodyOctets lines, rfl, by decide⟩
        | cons c u =>
          refine ⟨c, u ++ CRLF ++ bodyOctets lines, rfl, ?_⟩
          rintro rfl
          exact hlines (t ++ CR :: LF :: u) (by simp) ⟨t, u, by simp [CRLF]⟩
      refine iff_of_false ?_ ?_
      · rw [show t ++ CR :: u ++ CRLF ++ bodyOctets lines = t ++ CR :: c :: bs by simp [← hbs]]
        exact h.lone_cr env ht hc
      · cases hstack : ctx.boundryStack <;> exact fun hkept => absurd hcr hkept.1
    · cases hstack : ctx.boundryStack with
      | nil =>
        -- nothing is written behind the first line with two dashes, for nothing is read
        obtain ⟨hcrash, hnext⟩ := h.untold env hstack hcr
        rw [HeldBack, and_iff_right hcr]
        constructor
        · intro hsilent hnone
          obtain ⟨ctx', hrun, -, hsup, hstack', hl, hn⟩ := hnext hnone
          have hrest := (ih hsup hlines').mp (hsilent.right hrun)
          rw [hstack', hl, hn] at hrest
          exact hrest
        · intro hkept
          refine (h.line_unwritten env hcr fun ctx' hrun => ?_).append fun ctx' hrun => ?_
          all_goals
            have hnone : behindDashes line = none := by
              by_contra hsome
              exact hcrash hsome ctx' hrun
            obtain ⟨ctx₁, hrun₁, hem, hsup, hstack', hl, hn⟩ := hnext hnone
            obtain rfl := Except.ok.inj (hrun₁.symm.trans hrun)
          · exact hem
          · rw [ih hsup hlines', hstack', hl, hn]
            exact hkept hnone
      | cons b rest =>
        obtain ⟨ctx', hrun, hpasses, hnext⟩ := h.told env hstack hcr
        rw [HeldBack, and_iff_right hcr]
        constructor
        · intro hsilent
          have hem := hsilent.left _ (List.prefix_refl _) ctx' hrun
          have hno := mt (fun hp => hpasses (Or.inl hp)) (not_not_intro hem)
          have hno' := mt (fun hp => hpasses (Or.inr hp)) (not_not_intro hem)
          obtain ⟨-, hsup, hn⟩ := hnext hno hno'
          have hrest := (ih hsup hlines').mp (hsilent.right hrun)
          rw [hn.stack, hn.left, hn.strings, hstack] at hrest
          exact ⟨hno, hno', hrest⟩
        · rintro ⟨hno, hno', hkept⟩
          obtain ⟨hem, hsup, hn⟩ := hnext hno hno'
          refine (h.line_unwritten env hcr fun ctx'' hrun' => ?_).append fun ctx'' hrun' => ?_
          · obtain rfl := Except.ok.inj (hrun.symm.trans hrun')
            exact hem
          · obtain rfl := Except.ok.inj (hrun.symm.trans hrun')
            rw [ih hsup hlines', hn.stack, hn.left, hn.strings, hstack]
            exact hkept

end

end Pop3Proxy
