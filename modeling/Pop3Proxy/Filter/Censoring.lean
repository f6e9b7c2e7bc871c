/-
# Parts that are not to be seen

A mail is read part by part, whatever stands between them.  Of a part whose type is on the list
the body is not to be written: it is said which headers and which lines see to that, wherever
the part begins with nothing left over from what was read before it.
-/
import Pop3Proxy.Filter.PartRead

namespace Pop3Proxy

/-! ## What is asked for -/

/-- A part: its header, and the lines of its body. -/
structure MailPart extends PartHeader where
  lines : List (List Byte)
  whole : ∀ line ∈ lines, ¬ CRLF <:+: line

/-- An entry of the list has the type of the part. -/
def MailPart.ListedIn (p : MailPart) (entries : List (List Byte × List Byte)) : Prop :=
  ∃ e ∈ entries, SameLetters p.field.type e.1 ∧
    (e.2 = ascii "*" ∨ SameLetters p.field.subtype e.2)

instance (p : MailPart) (entries : List (List Byte × List Byte)) : Decidable (p.ListedIn entries) :=
  inferInstanceAs (Decidable (∃ e ∈ entries, SameLetters p.field.type e.1 ∧
    (e.2 = ascii "*" ∨ SameLetters p.field.subtype e.2)))

/-- What is known of each part that is reached: of the context in front of it, and of the one
behind its blank line.  A mail is what stands in front of a part, and the part, one after the
other. -/
def EachPart (env : FilterEnv) (P : Ctx → MailPart → Ctx → Prop) :
    Ctx → List (List Byte × MailPart) → Prop
  | _, [] => True
  | ctx, (bs, p) :: mail => ∀ ctx₀ ctx₁, mailRun env ctx bs = .ok ctx₀ →
    mailRun env ctx₀ (p.octets ++ CRLF) = .ok ctx₁ → P ctx₀ p ctx₁ ∧
      ∀ ctx', mailRun env ctx₁ (bodyOctets p.lines) = .ok ctx' → EachPart env P ctx' mail

/-- What is known of each part that is listed. -/
def ListedParts (env : FilterEnv) (entries : List (List Byte × List Byte))
    (P : Ctx → MailPart → Ctx → Prop) (mail : List (List Byte × MailPart)) : Prop :=
  EachPart env (fun ctx p ctx₁ => p.ListedIn entries → P ctx p ctx₁)
    (Filter.initial entries).ctx mail

/-- No octet of the body of a part that is listed is written. -/
def Censored (env : FilterEnv) (entries : List (List Byte × List Byte))
    (mail : List (List Byte × MailPart)) : Prop :=
  ListedParts env entries (fun _ p ctx₁ => Unwritten env ctx₁ (bodyOctets p.lines)) mail

/-! ## When it is not -/

/-- The header suppresses the body, and none of its lines lets it out. -/
def MailPart.Withheld (p : MailPart) (env : FilterEnv) (ctx : Ctx) : Prop :=
  p.lines = [] ∨ p.Suppresses ctx.mediaTypes ctx.messageDetected ∧
    HeldBack env ctx.boundryStack ctx.possibleBoundaryString ctx.strings p.lines

section
variable {env : FilterEnv} {ctx ctx₁ ctx' : Ctx}

/-- A body without octets has no lines. -/
theorem bodyOctets_eq_nil {lines : List (List Byte)} : bodyOctets lines = [] ↔ lines = [] := by
  cases lines with
  | nil => exact iff_of_true rfl rfl
  | cons line lines =>
    refine iff_of_false (fun hnil => ?_) (List.cons_ne_nil line lines)
    rw [bodyOctets, List.flatMap_cons, List.append_assoc] at hnil
    exact absurd (List.append_eq_nil_iff.mp hnil).2 (by simp [CRLF])

/-- **A part**, when nothing is left over from what was read before it. -/
theorem part_unwritten (env : FilterEnv) (h : PartAwaited ctx) (hu : Underway ctx) (p : MailPart)
    (hrun : mailRun env ctx (p.octets ++ CRLF) = .ok ctx₁) :
    Unwritten env ctx₁ (bodyOctets p.lines) ↔ p.Withheld env ctx := by
  rcases part_read env h hu p.toPartHeader hrun with ⟨hsup, hsuppressed, hbounds⟩ | ⟨hno, hspoken⟩
  · have hsame := unwritten_body env hsuppressed p.whole
    simp only [Ctx.bounds, Prod.mk.injEq] at hbounds
    rw [hbounds.1, hbounds.2.1, hbounds.2.2] at hsame
    rw [hsame, MailPart.Withheld, and_iff_right hsup]
    refine ⟨.inr, fun hheld => hheld.elim (fun hnil => ?_) id⟩
    rw [hnil, HeldBack]
    trivial
  · rw [hspoken.unwritten_iff env, bodyOctets_eq_nil]
    exact ⟨.inl, fun hheld => hheld.resolve_right fun hboth => hno hboth.1⟩

/-! ## Part by part -/

/-- Whatever is known of a part by what is known of it otherwise. -/
theorem EachPart.mono {P Q : Ctx → MailPart → Ctx → Prop} {mail : List (List Byte × MailPart)}
    (hu : Underway ctx) (hPQ : ∀ ctx₀ p ctx₁, Underway ctx₀ →
      mailRun env ctx₀ (p.octets ++ CRLF) = .ok ctx₁ → P ctx₀ p ctx₁ → Q ctx₀ p ctx₁)
    (h : EachPart env P ctx mail) : EachPart env Q ctx mail := by
  induction mail generalizing ctx with
  | nil => trivial
  | cons piece mail ih =>
    obtain ⟨bs, p⟩ := piece
    intro ctx₀ ctx₁ h₀ h₁
    obtain ⟨hp, hrest⟩ := h ctx₀ ctx₁ h₀ h₁
    have hu₀ := hu.run h₀
    refine ⟨hPQ ctx₀ p ctx₁ hu₀ h₁ hp, fun ctx' h' => ?_⟩
    exact ih ((hu₀.run h₁).run h') (hrest ctx' h')

/-- Two properties of every part, at once. -/
theorem EachPart.and {P Q : Ctx → MailPart → Ctx → Prop} {mail : List (List Byte × MailPart)}
    (h : EachPart env P ctx mail) (h' : EachPart env Q ctx mail) :
    EachPart env (fun ctx p ctx₁ => P ctx p ctx₁ ∧ Q ctx p ctx₁) ctx mail := by
  induction mail generalizing ctx with
  | nil => trivial
  | cons piece mail ih =>
    obtain ⟨bs, p⟩ := piece
    intro ctx₀ ctx₁ h₀ h₁
    obtain ⟨hp, hrest⟩ := h ctx₀ ctx₁ h₀ h₁
    obtain ⟨hp', hrest'⟩ := h' ctx₀ ctx₁ h₀ h₁
    exact ⟨⟨hp, hp'⟩, fun ctx' hrun => ih (hrest ctx' hrun) (hrest' ctx' hrun)⟩

end

/-- **Behind a delimiter** that is recognised nothing is left over. -/
theorem delimiter_awaited (env : FilterEnv) {entries : List (List Byte × List Byte)}
    (h : entries ≠ []) {bs : List Byte} {c : Byte} {ctx ctx' : Ctx}
    (hrun : mailRun env (Filter.initial entries).ctx bs = .ok ctx) (hs : ctx.msg = .bodyCr)
    (hres : mimeMsg env ctx c = .ok ctx') (hname : ctx'.msg = .name0) : PartAwaited ctx' := by
  have hreached : Reached env ctx := (Reached.initial entries).run hrun
  exact ((underway_initial h).run hrun).boundary_awaited hreached.settled hs hres hname

/-- **The bodies of the parts that are listed** are not written in any mail in which each of them
begins with nothing left over and is withheld; and where they do so begin they have to be. -/
theorem mail_censored (env : FilterEnv) {entries : List (List Byte × List Byte)}
    (h : entries ≠ []) (mail : List (List Byte × MailPart)) :
    (ListedParts env entries (fun ctx p _ => PartAwaited ctx ∧ p.Withheld env ctx) mail →
      Censored env entries mail) ∧
    (ListedParts env entries (fun ctx _ _ => PartAwaited ctx) mail →
      Censored env entries mail →
        ListedParts env entries (fun ctx p _ => p.Withheld env ctx) mail) := by
  have hu := underway_initial h
  constructor
  · refine EachPart.mono hu fun ctx₀ p ctx₁ hu₀ h₁ hp hlisted => ?_
    obtain ⟨hawaited, hheld⟩ := hp hlisted
    exact (part_unwritten env hawaited hu₀ p h₁).mpr hheld
  · intro hawaited hcensored
    refine EachPart.mono hu (fun ctx₀ p ctx₁ hu₀ h₁ hboth hlisted => ?_) (hawaited.and hcensored)
    exact (part_unwritten env (hboth.1 hlisted) hu₀ p h₁).mp (hboth.2 hlisted)

/-- A part of type `image/png`. -/
def pngPart : MailPart where
  before := []
  field := pngHeader.field
  after := []
  once := nofun
  lines := [ascii "AAAA"]
  whole := by decide

/-- The header of a multipart with the boundary `b`, and the first delimiter. -/
def multipartStart : List Byte :=
  ascii "Content-Type: multipart/mixed;boundary=\"b\"" ++ CRLF ++ CRLF ++ ascii "--b" ++ CRLF

/-- What they leave for the part behind them. -/
theorem multipartStart_run {ctx : Ctx}
    (h : mailRun {} (Filter.initial [(ascii "image", ascii "png")]).ctx multipartStart = .ok ctx) :
    PartAwaited ctx ∧ ctx.mediaTypes = [⟨ascii "image", 0, [.named (ascii "png") 0]⟩] ∧
      ctx.messageDetected = false ∧ ctx.bounds = ([ascii "b"], [], 2) := by
  have hfields : (mailRun {} (Filter.initial [(ascii "image", ascii "png")]).ctx multipartStart).map
      (fun ctx => (ctx.msg, ctx.mediaTypes, ctx.messageDetected)) =
        .ok (.name0, [⟨ascii "image", 0, [.named (ascii "png") 0]⟩], false) := by decide +kernel
  have hbounds : (mailRun {} (Filter.initial [(ascii "image", ascii "png")]).ctx multipartStart).map
      Ctx.bounds = .ok ([ascii "b"], [], 2) := by decide +kernel
  rw [h] at hfields hbounds
  have hsame := Except.ok.inj hfields
  simp only [Prod.mk.injEq] at hsame
  obtain ⟨hname, htypes, hflag⟩ := hsame
  refine ⟨?_, htypes, hflag, Except.ok.inj hbounds⟩
  -- up to the LF of the delimiter
  have hsplit : multipartStart = multipartStart.dropLast ++ [LF] := by decide +kernel
  have hbody : (mailRun {} (Filter.initial [(ascii "image", ascii "png")]).ctx
      multipartStart.dropLast).map Ctx.msg = .ok .bodyCr := by decide +kernel
  rw [hsplit, mailRun_append] at h
  obtain ⟨ctx₁, h₁, h⟩ := bind_eq_ok.mp h
  rw [h₁] at hbody
  rw [mailRun_cons] at h
  obtain ⟨ctx₂, h₂, h⟩ := bind_eq_ok.mp h
  obtain rfl := Except.ok.inj h
  exact delimiter_awaited {} (List.cons_ne_nil _ _) h₁ (Except.ok.inj hbody) h₂ hname

/-- A line without dashes. -/
theorem mail_censored_png :
    [(ascii "image", ascii "png")] ≠ [] ∧
      ListedParts {} [(ascii "image", ascii "png")]
        (fun ctx p _ => PartAwaited ctx ∧ p.Withheld {} ctx)
        [(multipartStart, pngPart)] ∧
      Censored {} [(ascii "image", ascii "png")] [(multipartStart, pngPart)] := by
  have hne : [(ascii "image", ascii "png")] ≠ [] := List.cons_ne_nil _ _
  have hmeets : ListedParts {} [(ascii "image", ascii "png")]
      (fun ctx p _ => PartAwaited ctx ∧ p.Withheld {} ctx)
      [(multipartStart, pngPart)] := by
    intro ctx₀ ctx₁ h₀ h₁
    obtain ⟨hawaited, htypes, hflag, hbounds⟩ := multipartStart_run h₀
    simp only [Ctx.bounds, Prod.mk.injEq] at hbounds
    refine ⟨fun _ => ⟨hawaited, .inr ⟨?_, ?_⟩⟩, fun _ _ => trivial⟩
    · rw [htypes, hflag]
      refine ⟨?_, .inl rfl, ?_, ?_, ?_⟩
      · rintro ⟨f, hf, -⟩
        cases hf
      · exact ⟨by decide, _, rfl, _, List.mem_singleton_self _, by decide, by decide⟩
      · rintro ⟨henc, -⟩
        exact absurd henc (by decide)
      · rintro ⟨f, hf, hends⟩
        obtain rfl := Option.some.inj hf
        exact absurd hends (by decide)
    · rw [hbounds.1, hbounds.2.1, hbounds.2.2]
      exact ⟨by decide, by decide, by decide, trivial⟩
  exact ⟨hne, hmeets, (mail_censored {} hne _).1 hmeets⟩

/-- The same behind a line with two dashes and the boundary, which are not at its start. -/
def dashedPart : MailPart :=
  { pngPart with lines := [ascii "x--b", ascii "AAAA"], whole := by decide }

/-- The line passes for a delimiter, and what follows it is written. -/
theorem delimiter_mistaken : ¬ ∀ (env : FilterEnv) (entries : List (List Byte × List Byte)),
    entries ≠ [] → ∀ mail, Censored env entries mail := by
  intro h
  have h := h {} [(ascii "image", ascii "png")] (List.cons_ne_nil _ _)
    [(multipartStart, dashedPart)]
  have hheader : (mailRun {} (Filter.initial [(ascii "image", ascii "png")]).ctx
      (multipartStart ++ (dashedPart.octets ++ CRLF))).map
        (fun ctx => ctx.emitted.length) = .ok 109 := by decide +kernel
  have hbody : (mailRun {} (Filter.initial [(ascii "image", ascii "png")]).ctx
      (multipartStart ++ (dashedPart.octets ++ CRLF) ++ bodyOctets dashedPart.lines)).map
        (fun ctx => ctx.emitted.length) = .ok 119 := by decide +kernel
  obtain ⟨ctx₁, h₁, hlen₁⟩ := map_eq_ok.mp hheader
  rw [mailRun_append, h₁, ok_bind] at hbody
  obtain ⟨ctx₂, h₂, hlen₂⟩ := map_eq_ok.mp hbody
  rw [mailRun_append] at h₁
  obtain ⟨ctx₀, h₀, h₁⟩ := bind_eq_ok.mp h₁
  have hsame := (h ctx₀ ctx₁ h₀ h₁).1 (by decide) _ (List.prefix_refl _) ctx₂ h₂
  rw [hsame] at hlen₂
  exact absurd (hlen₁.symm.trans hlen₂) (by decide)

end Pop3Proxy
