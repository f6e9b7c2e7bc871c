/-
# The filter after a mail

At the end of a reply the parser of the reply is not set back: its next octet
comes out behind a CR, and the tokenizer of the message, which was set back,
takes that CR for an error.  So a second mail in the same context is not looked
at any more; it comes out as the parser hands it on, behind the CR, and never as
a fresh filter would emit it.
-/
import Pop3Proxy.Library.Divergence
import Pop3Proxy.Filter.Cursor

namespace Pop3Proxy

/-! ## What the parser of the reply hands on -/

/-- The octets a parser in this state hands on. -/
def handedOn (p : MultiState) (bs : List Byte) : List Byte := unstuffed (multiRun p bs).2.flatten

/-- The first octet, and the others. -/
theorem handedOn_cons (p : MultiState) (c : Byte) (bs : List Byte) :
    handedOn p (c :: bs) = unstuffed (multiFeed p c).2 ++ handedOn (multiFeed p c).1 bs := by
  rw [handedOn, handedOn, ← unstuffed_append]
  rfl

/-- Behind the end of the mail a CR is handed on first. -/
theorem handedOn_fin (c : Byte) (bs : List Byte) :
    handedOn .fin (c :: bs) = CR :: c :: handedOn .byte bs := by
  rw [handedOn_cons, multiFeed_fin]
  rfl

/-- A CR is handed on with the octet behind it. -/
theorem handedOn_cr (c : Byte) (bs : List Byte) :
    handedOn .cr (c :: bs) = CR :: c :: handedOn (if c = LF then .newline else .byte) bs := by
  rw [handedOn_cons, multiFeed_cr]
  rfl

/-- A CR waits for the next octet. -/
theorem handedOn_byte_cr (bs : List Byte) : handedOn .byte (CR :: bs) = handedOn .cr bs := by
  rw [handedOn_cons]
  rfl

/-- Inside a line an octet is handed on as it is. -/
theorem handedOn_byte {c : Byte} (hc : c ≠ CR) (bs : List Byte) :
    handedOn .byte (c :: bs) = c :: handedOn .byte bs := by
  rw [handedOn_cons, multiFeed_byte hc]
  rfl

/-- A dot and a CR that do not end the mail lose the dot. -/
theorem handedOn_dotCr {c : Byte} (hc : c ≠ LF) (bs : List Byte) :
    handedOn .dotCr (c :: bs) = CR :: c :: handedOn .byte bs := by
  rw [handedOn_cons, multiFeed_dotCr hc]
  rfl

/-- Two parsers in the midst of a run of CRs, one a CR ahead of the other, part
at its end. -/
theorem parted_crs {bs : List Byte} (h : LF ∈ bs) :
    Parted (handedOn .cr bs) (handedOn .byte bs) ∧
      Parted (CR :: CR :: handedOn .byte bs) (handedOn .cr bs) := by
  induction bs with
  | nil => exact absurd h List.not_mem_nil
  | cons c bs ih =>
    by_cases hc : c = CR
    · subst hc
      have hlf : LF ∈ bs := by simpa using h
      obtain ⟨h₁, h₂⟩ := ih hlf
      rw [handedOn_cr, handedOn_byte_cr, if_neg cr_ne_lf]
      exact ⟨h₂, h₁.prepend [CR, CR]⟩
    · rw [handedOn_cr, handedOn_byte hc]
      exact ⟨.of_cons (Ne.symm hc) _ _, .after [CR] (Ne.symm hc) _ _⟩

/-! ## A mail that is only copied -/

section
variable {env : FilterEnv} {ctx ctx' : Ctx}

/-- After an error every octet is copied. -/
theorem mailRun_error (env : FilterEnv) (h : ctx.msg = .error) (bs : List Byte) :
    ∃ ctx', mailRun env ctx bs = .ok ctx' ∧ ctx'.msg = .error ∧
      ctx'.emitted = ctx.emitted ++ bs := by
  induction bs generalizing ctx with
  | nil => exact ⟨ctx, rfl, h, by simp⟩
  | cons c bs ih =>
    have hstep : mimeMsg env ctx c = .ok ({ ctx with msg := .error }.emit c) := by
      rw [mimeMsg, h, mimeMsgFeed_error]
      rfl
    have herror : ({ ctx with msg := .error }.emit c : Ctx).msg = .error := rfl
    obtain ⟨ctx', hrun, hmsg, hem⟩ := ih herror
    refine ⟨ctx', ?_, hmsg, ?_⟩
    · rw [mailRun, List.foldlM_cons, hstep]
      exact hrun
    · rw [hem, Ctx.emitted, Ctx.emit, Tape.written_write, List.append_assoc]
      rfl

/-- So it is when the first octet cannot start a name. -/
theorem mailRun_nameless (env : FilterEnv) (h : ctx.msg = .name0) {c : Byte}
    (hc : nameChar c = false)
    (bs : List Byte) : ∃ ctx', mailRun env ctx (c :: bs) = .ok ctx' ∧ ctx'.msg = .error ∧
      ctx'.emitted = ctx.emitted ++ c :: bs := by
  have hstep : mimeMsg env ctx c = .ok ({ ctx with msg := .error }.emit c) := by
    rw [mimeMsg, h, mimeMsgFeed_name0, if_neg (by simp [hc])]
    rfl
  have herror : ({ ctx with msg := .error }.emit c : Ctx).msg = .error := rfl
  obtain ⟨ctx', hrun, hmsg, hem⟩ := mailRun_error env herror bs
  refine ⟨ctx', ?_, hmsg, ?_⟩
  · rw [mailRun, List.foldlM_cons, hstep]
    exact hrun
  · rw [hem, Ctx.emitted, Ctx.emit, Tape.written_write, List.append_assoc]
    rfl

/-- The parser of the reply hands octets on, or the reply ends. -/
theorem multiFeed_cases (p : MultiState) (c : Byte) :
    Unfinished (multiFeed p c).2 ∨ multiFeed p c = (.fin, [Pop3Multi.fin c]) := by
  have hpair : Unfinished [Pop3Multi.byteCr c, Pop3Multi.byte c] := by
    simp [Unfinished, Pop3Multi.byteCr, Pop3Multi.byte]
  cases p with
  | newline =>
    by_cases hdot : c = DOT
    · subst hdot
      exact .inl (by decide)
    by_cases hcr : c = CR
    · subst hcr
      exact .inl (by decide)
    · rw [multiFeed_newline hdot hcr]
      exact .inl (unfinished_byte c)
  | byte =>
    by_cases hcr : c = CR
    · subst hcr
      exact .inl (by decide)
    · rw [multiFeed_byte hcr]
      exact .inl (unfinished_byte c)
  | dot =>
    by_cases hcr : c = CR
    · subst hcr
      exact .inl (by decide)
    · rw [multiFeed_dot hcr]
      exact .inl (unfinished_byte c)
  | cr =>
    rw [multiFeed_cr]
    exact .inl hpair
  | dotCr =>
    by_cases hlf : c = LF
    · subst hlf
      exact .inr rfl
    · rw [multiFeed_dotCr hlf]
      exact .inl hpair
  | fin =>
    rw [multiFeed_fin]
    exact .inl hpair

/-- The tokenizer has failed, or it will with the CR that comes next. -/
def Deaf (f : Filter) : Prop := f.ctx.msg = .error ∨ f.multi = .fin ∧ f.ctx.msg = .name0

/-- One octet more for a filter that is deaf. -/
theorem Deaf.step (env : FilterEnv) {f : Filter} (h : Deaf f) (c : Byte) :
    ∃ ctx', pop3Multi env f c = .ok ⟨(multiFeed f.multi c).1, ctx'⟩ ∧
      Deaf ⟨(multiFeed f.multi c).1, ctx'⟩ ∧
      ctx'.emitted = f.ctx.emitted ++ unstuffed (multiFeed f.multi c).2 := by
  rcases multiFeed_cases f.multi c with hun | hfin
  · have hrun : ∃ ctx', mailRun env f.ctx (unstuffed (multiFeed f.multi c).2) = .ok ctx' ∧
        (ctx'.msg = .error ∨ (multiFeed f.multi c).1 = .fin ∧ ctx'.msg = .name0) ∧
        ctx'.emitted = f.ctx.emitted ++ unstuffed (multiFeed f.multi c).2 := by
      rcases h with hmsg | ⟨hmulti, hmsg⟩
      · obtain ⟨ctx', hrun, hmsg', hem⟩ :=
          mailRun_error env hmsg (unstuffed (multiFeed f.multi c).2)
        exact ⟨ctx', hrun, .inl hmsg', hem⟩
      · rw [hmulti, multiFeed_fin]
        obtain ⟨ctx', hrun, hmsg', hem⟩ := mailRun_nameless env hmsg (c := CR) (by decide) [c]
        exact ⟨ctx', hrun, .inl hmsg', hem⟩
    obtain ⟨ctx', hrun, hdeaf, hem⟩ := hrun
    refine ⟨ctx', ?_, hdeaf, hem⟩
    rw [pop3Multi, foldlM_pop3MultiEvent env f.ctx hun, hrun]
    rfl
  · refine ⟨f.ctx.restart, ?_, .inr ⟨?_, rfl⟩, ?_⟩
    · rw [pop3Multi, hfin]
      rfl
    · rw [hfin]
    · rw [hfin, Ctx.emitted_restart]
      exact (List.append_nil _).symm

/-- **A deaf filter** emits what the parser of the reply hands on. -/
theorem Deaf.run (env : FilterEnv) {f : Filter} (h : Deaf f) (bs : List Byte) :
    ∃ f', filterRun env f bs = .ok f' ∧ f'.ctx.emitted = f.ctx.emitted ++ handedOn f.multi bs := by
  induction bs generalizing f with
  | nil => exact ⟨f, rfl, (List.append_nil _).symm⟩
  | cons c bs ih =>
    obtain ⟨ctx', hres, hdeaf, hem⟩ := h.step env c
    obtain ⟨f', hrun, hem'⟩ := ih hdeaf
    refine ⟨f', ?_, ?_⟩
    · rw [filterRun, List.foldlM_cons, hres]
      exact hrun
    · rw [hem', hem, handedOn_cons, List.append_assoc]

/-! ## The first octet -/

/-- The first octet that was written is still there. -/
def Headed (u : Byte) (ctx : Ctx) : Prop := ctx.mail.left.getLast? = some u

/-- An event that does not reach back to a space leaves the first octet alone. -/
theorem Headed.event {u : Byte} (hu : u ≠ SP) (h : Headed u ctx) {e : ParserEvent MimeMsgType}
    (he : ValueEvent e) (hres : mimeMsgEvent env ctx e = .ok ctx') : Headed u ctx' := by
  obtain ⟨hwrite, hrewrite⟩ := mimeMsgEvent_mail he hres
  have hkeep : ∀ (t : Tape Byte) (text : List Byte), t.left.getLast? = some u →
      (t.writeAll text).left.getLast? = some u := by
    intro t text ht
    rw [Tape.left_writeAll, List.getLast?_append, ht]
    rfl
  by_cases hr : Rewrites ctx e
  · obtain ⟨t, hseek, hmail⟩ := hrewrite hr
    rw [Headed, hmail]
    exact hkeep t _ (Tape.getLast?_left_seek (by simpa using hu) h hseek)
  · rw [Headed, hwrite hr]
    exact hkeep ctx.mail _ h

/-- So does a mail. -/
theorem Headed.run {u : Byte} (hu : u ≠ SP) (h : Headed u ctx) {bs : List Byte}
    (hrun : mailRun env ctx bs = .ok ctx') : Headed u ctx' := by
  have hoctet : ∀ ctx c ctx', Headed u ctx → mimeMsg env ctx c = .ok ctx' → Headed u ctx' := by
    intro ctx c ctx' h hres
    have hstart : Headed u { ctx with msg := (mimeMsgFeed ctx.msg c).1 } := h
    exact (forall_visits (Q := fun _ => True) (R := fun _ => True)
      (fun _ _ hs he _ => ⟨trivial, fun _ hres => hs.event hu he hres⟩)
      (mimeMsgFeed_valueEvent ctx.msg c) hstart fun _ _ => trivial).2 ctx' hres
  induction bs generalizing ctx with
  | nil =>
    obtain rfl := Except.ok.inj hrun
    exact h
  | cons c bs ih =>
    rw [mailRun, List.foldlM_cons] at hrun
    obtain ⟨ctx₁, hres, hrun⟩ := bind_eq_ok.mp hrun
    exact ih (hoctet _ _ _ h hres) hrun

/-- A mail that starts with a field begins with its first octet. -/
theorem mailRun_headed (h : ctx.msg = .name0) (hempty : ctx.mail = .empty) {u : Byte}
    (hu : nameChar u = true) {bs : List Byte} (hrun : mailRun env ctx (u :: bs) = .ok ctx') :
    ctx'.emitted.head? = some u := by
  have hsp : u ≠ SP := by
    rintro rfl
    exact absurd hu (by decide)
  rw [mailRun, List.foldlM_cons] at hrun
  obtain ⟨ctx₁, hres, hrun⟩ := bind_eq_ok.mp hrun
  have hfirst : Headed u ctx₁ := by
    have hfeed := (congrArg (mimeMsgFeed · u) h).trans (mimeMsgFeed_name0 u)
    rw [if_pos hu] at hfeed
    rw [mimeMsg, hfeed] at hres
    simp only [List.foldlM_cons, List.foldlM_nil] at hres
    obtain ⟨ctx₂, hname, hres⟩ := bind_eq_ok.mp hres
    obtain rfl := Except.ok.inj hres
    obtain rfl := Except.ok.inj hname
    rw [Headed, msgName_mail]
    simp only [hempty]
    rfl
  have hlast := hfirst.run hsp hrun
  rw [Ctx.emitted, Tape.written, List.head?_reverse]
  exact hlast

end

/-! ## Two mails -/

/-- The last octet of a reply is read but once. -/
theorem not_terminated_behind {c : Byte} {bs : List Byte} :
    ¬ Terminated (DOT :: CR :: LF :: c :: bs) := by
  intro h
  obtain ⟨bs', hbs, hreads⟩ := h.split
  obtain hnil | ⟨r, l, hr⟩ := List.eq_nil_or_concat' (c :: bs)
  · cases hnil
  · rw [hr] at hbs
    have hbs' : [DOT, CR, LF] ++ r ++ [l] = bs' ++ [LF] := hbs
    obtain ⟨rfl, -⟩ := List.append_inj' hbs' rfl
    have hevents : (multiRun .newline ([DOT, CR, LF] ++ r)).2.flatten =
        [Pop3Multi.wait DOT, Pop3Multi.wait CR, Pop3Multi.fin LF] ++
          (multiRun .fin r).2.flatten := rfl
    have hun := hreads.unfinished
    rw [hevents] at hun
    exact hun (Pop3Multi.fin LF) (by simp) rfl

/-- Behind a dot the two parsers stay apart too. -/
theorem handedOn_dot_ne {r : List Byte} (hbs : Terminated (DOT :: r)) :
    handedOn .newline (DOT :: r) ≠ CR :: DOT :: handedOn .byte r := by
  have hwait : handedOn .newline (DOT :: r) = handedOn .dot r := handedOn_cons .newline DOT r
  rw [hwait]
  cases r with
  | nil => exact (List.cons_ne_nil _ _).symm
  | cons y r =>
    by_cases hcr : y = CR
    · subst hcr
      have hwait' : handedOn .dot (CR :: r) = handedOn .dotCr r := handedOn_cons .dot CR r
      rw [hwait', handedOn_byte_cr]
      cases r with
      | nil => exact (List.cons_ne_nil _ _).symm
      | cons z r =>
        by_cases hlf : z = LF
        · subst hlf
          cases r with
          | nil => exact (List.cons_ne_nil _ _).symm
          | cons c r => exact absurd hbs not_terminated_behind
        · rw [handedOn_dotCr hlf, handedOn_cr, if_neg hlf]
          intro heq
          have hlen := congrArg List.length heq
          simp only [List.length_cons] at hlen
          omega
    · rw [handedOn_cons, multiFeed_dot hcr]
      intro heq
      exact hcr (List.cons.inj heq).1

/-- **A mail in a fresh filter** does not come out as its octets are handed on in the
context of another one. -/
theorem emitted_ne_handedOn {env : FilterEnv} {ctx ctx' : Ctx} (hmsg : ctx.msg = .name0)
    (hempty : ctx.mail = .empty) {bs : List Byte} (hbs : Terminated bs)
    (hrun : mailRun env ctx (mailOf bs) = .ok ctx') : ctx'.emitted ≠ handedOn .fin bs := by
  have hmail : mailOf bs = handedOn .newline bs := rfl
  obtain ⟨bs', hsplit, -⟩ := hbs.split
  have hlf : LF ∈ bs := by simp [hsplit]
  cases bs with
  | nil => exact absurd hlf List.not_mem_nil
  | cons x r =>
    rw [handedOn_fin]
    cases hm : mailOf (x :: r) with
    | nil =>
      rw [hm] at hrun
      obtain rfl := Except.ok.inj hrun
      rw [Ctx.emitted, hempty]
      simp
    | cons u m =>
      rw [hm] at hrun
      by_cases hu : nameChar u = true
      · intro heq
        have hhead := mailRun_headed hmsg hempty hu hrun
        rw [heq, List.head?_cons, Option.some.injEq] at hhead
        subst hhead
        exact absurd hu (by decide)
      -- a mail that starts with no field comes out as it is
      · obtain ⟨ctx₁, hrun₁, -, hem⟩ := mailRun_nameless env hmsg (by simpa using hu) m
        obtain rfl := Except.ok.inj (hrun.symm.trans hrun₁)
        rw [hem, Ctx.emitted, hempty, Tape.written_empty, List.nil_append, ← hm, hmail]
        rw [hmail] at hm
        by_cases hcr : x = CR
        · subst hcr
          have hr : LF ∈ r := by simpa using hlf
          exact (parted_crs hr).2.ne.symm
        · by_cases hdot : x = DOT
          · subst hdot
            exact handedOn_dot_ne hbs
          · rw [handedOn_cons, multiFeed_newline hdot hcr]
            intro heq
            exact hcr (List.cons.inj heq).1

/-- **Restarting.**  The bytes emitted for two mails in one context are those emitted
for each of them in a fresh one only where the filter fails on one of the two. -/
theorem restarted (env : FilterEnv) (entries : List (List Byte × List Byte)) (m₁ m₂ : List Byte)
    (h₁ : Terminated m₁) (h₂ : Terminated m₂) :
    (∀ a b, Emits env entries m₁ a → Emits env entries m₂ b →
    Emits env entries (m₁ ++ m₂) (a ++ b)) ↔
      ∀ a b, Emits env entries m₁ a → ¬ Emits env entries m₂ b := by
  constructor
  · rintro h _ _ ⟨f₁, hf₁, rfl⟩ ⟨f₂, hf₂, rfl⟩
    obtain ⟨f, hf, hem⟩ := h _ _ ⟨f₁, hf₁, rfl⟩ ⟨f₂, hf₂, rfl⟩
    have hrun₁ := filterRun_terminated env (Filter.initial entries).ctx h₁
    have hrun₂ := filterRun_terminated env (Filter.initial entries).ctx h₂
    obtain ⟨ctx₁, -, rfl⟩ := map_eq_ok.mp (hrun₁.symm.trans hf₁)
    obtain ⟨ctx₂, hctx₂, rfl⟩ := map_eq_ok.mp (hrun₂.symm.trans hf₂)
    have hdeaf : Deaf ⟨.fin, ctx₁.restart⟩ := .inr ⟨rfl, rfl⟩
    obtain ⟨f', hf', hem'⟩ := hdeaf.run env m₂
    rw [filterRun_append, hf₁, ok_bind, hf'] at hf
    obtain rfl := Except.ok.inj hf
    have hsecond : ctx₂.emitted = handedOn .fin m₂ :=
      (List.append_cancel_left (hem'.symm.trans hem)).symm
    exact emitted_ne_handedOn rfl rfl h₂ hctx₂ hsecond
  · intro h a b ha hb
    exact absurd hb (h a b ha)

/-- Two mails of one field. -/
theorem restarted_fields :
    ¬ ∀ a b, Emits {} [(ascii "image", ascii "png")] (ascii "A: b\r\n.\r\n") a →
      Emits {} [(ascii "image", ascii "png")] (ascii "To: x\r\n.\r\n") b →
        Emits {} [(ascii "image", ascii "png")]
          (ascii "A: b\r\n.\r\n" ++ ascii "To: x\r\n.\r\n") (a ++ b) := by
  have hend₁ : Terminated (ascii "A: b\r\n.\r\n") :=
    ⟨(multiRun .newline (ascii "A: b\r\n.\r")).2, by decide, by decide⟩
  have hend₂ : Terminated (ascii "To: x\r\n.\r\n") :=
    ⟨(multiRun .newline (ascii "To: x\r\n.\r")).2, by decide, by decide⟩
  have hone : Emits {} [(ascii "image", ascii "png")] (ascii "A: b\r\n.\r\n") (ascii "A: b\r\n") :=
    ⟨_, rfl, by decide⟩
  have htwo :
    Emits {} [(ascii "image", ascii "png")] (ascii "To: x\r\n.\r\n") (ascii "To: x\r\n") :=
    ⟨_, rfl, by decide⟩
  exact fun h => (restarted {} [(ascii "image", ascii "png")] (ascii "A: b\r\n.\r\n")
    (ascii "To: x\r\n.\r\n") hend₁ hend₂).mp h _ _ hone htwo

/-- The second of two mails comes out behind a CR. -/
theorem secondMail_altered :
    ¬ ∀ (env : FilterEnv) (entries : List (List Byte × List Byte)) (m₁ m₂ : List Byte),
      Terminated m₁ → Terminated m₂ → ∀ a b, Emits env entries m₁ a → Emits env entries m₂ b →
        Emits env entries (m₁ ++ m₂) (a ++ b) := by
  intro h
  have hend : Terminated (ascii "A: b\r\n.\r\n") :=
    ⟨(multiRun .newline (ascii "A: b\r\n.\r")).2, by decide, by decide⟩
  have hone : Emits {} [(ascii "image", ascii "png")] (ascii "A: b\r\n.\r\n") (ascii "A: b\r\n") :=
    ⟨_, rfl, by decide⟩
  obtain ⟨f, hf, hem⟩ := h {} [(ascii "image", ascii "png")] _ _ hend hend _ _ hone hone
  have hrun : (filterRun {} (.initial [(ascii "image", ascii "png")])
      (ascii "A: b\r\n.\r\n" ++ ascii "A: b\r\n.\r\n")).map (·.ctx.emitted) =
        .ok (ascii "A: b\r\n\rA: b\r\n") := by decide +kernel
  rw [hf] at hrun
  exact absurd (hem.symm.trans (Except.ok.inj hrun)) (by decide)

end Pop3Proxy
