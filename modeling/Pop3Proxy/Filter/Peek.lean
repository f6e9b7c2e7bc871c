/-
# Looking at the top of the boundary stack

A line of the body that has two dashes in a row is compared with the top of the
boundary stack when it ends, whether there is one or not.
-/
import Pop3Proxy.Filter.BodyLine
import Pop3Proxy.Filter.Bounds
import Pop3Proxy.Filter.Watcher

namespace Pop3Proxy

/-! ## The events of a stream -/

/-- The events `mime_msg` handles, each with its context, when the stream is read in
chunks. -/
def readEvents (env : FilterEnv) : Filter → List (List Byte) →
    List (Ctx × ParserEvent MimeMsgType)
  | _, [] => []
  | f, chunk :: chunks => chunkEvents env f chunk ++
    match filterRun env f.rewind chunk with
    | .ok f' => readEvents env f' chunks
    | .error _ => []

/-- `stack_peek` is called, and the stack is empty: at the end of a line of the body the
tail of the stack is the only pointer that may be NULL. -/
def PeeksEmpty (env : FilterEnv) (v : Ctx × ParserEvent MimeMsgType) : Prop :=
  v.2.type = .bodyNewline ∧ mimeMsgEvent env v.1 v.2 = .error .nullPointer

/-- The line of the body after an event. -/
def nextLine (line : List Byte) (e : ParserEvent MimeMsgType) : List Byte :=
  match e.type with
  | .body => line ++ [e.octet 0]
  | .bodyNewline => []
  | _ => line

/-- The octets of the body since its last line ended. -/
def bodyLine (vs : List (Ctx × ParserEvent MimeMsgType)) : List Byte :=
  vs.foldl (fun line v => nextLine line v.2) []

/-- The last event of a line. -/
theorem bodyLine_concat (vs : List (Ctx × ParserEvent MimeMsgType))
    (v : Ctx × ParserEvent MimeMsgType) : bodyLine (vs ++ [v]) = nextLine (bodyLine vs) v.2 := by
  rw [bodyLine, List.foldl_append]
  rfl

/-! ## The flags -/

/-- What the flags tell of the line. -/
structure Watching (line : List Byte) (ctx : Ctx) : Prop where
  double : ctx.doubleMiddleDash = true ↔ [DASH, DASH] <:+: line
  middle : ctx.isMiddleDash = some true ↔ line.getLast? = some DASH
  ending : ctx.boundaryEnd = true → ctx.doubleMiddleDash = true

section
variable {env : FilterEnv} {ctx ctx' : Ctx} {line : List Byte}

/-- At the start of a line nothing has been collected of it. -/
theorem Watching.ended (h : Watching [] ctx) : ctx.boundaryEnd = false := by
  rw [Bool.eq_false_iff]
  intro hend
  exact absurd (h.double.mp (h.ending hend)) (by simp)

/-- Whatever leaves the flags alone. -/
theorem Watching.congr (h : Watching line ctx)
    (hdouble : ctx'.doubleMiddleDash = ctx.doubleMiddleDash)
    (hmiddle : ctx'.isMiddleDash = ctx.isMiddleDash)
    (hending : ctx'.boundaryEnd = ctx.boundaryEnd) :
    Watching line ctx' where
  double := hdouble ▸ h.double
  middle := hmiddle ▸ h.middle
  ending := by
    rw [hdouble, hending]
    exact h.ending

/-- An octet that is written is nothing to the line. -/
theorem Watching.emit (h : Watching line ctx) (c : Byte) : Watching line (ctx.emit c) :=
  h.congr rfl rfl rfl

/-- Nor is a text. -/
theorem Watching.insertText (h : Watching line ctx) (text : List Byte) :
    Watching line (ctx.insertText text) :=
  h.congr rfl rfl rfl

/-- An octet more: two dashes in a row are at its end, or they were there before. -/
theorem dashes_concat (line : List Byte) (c : Byte) : [DASH, DASH] <:+: line ++ [c] ↔
    [DASH, DASH] <:+: line ∨ line.getLast? = some DASH ∧ c = DASH := by
  rw [List.infix_concat_iff, or_comm]
  refine or_congr_right ?_
  rw [← List.singleton_suffix_iff_getLast?_eq_some, List.suffix_concat_iff]
  constructor
  · rintro (h | ⟨t, ht, hsuffix⟩)
    · exact absurd h (by simp)
    · obtain ⟨rfl, hc⟩ := List.append_inj' (show [DASH] ++ [DASH] = t ++ [c] from ht) rfl
      exact ⟨hsuffix, (List.singleton_injective hc).symm⟩
  · rintro ⟨hsuffix, rfl⟩
    exact Or.inr ⟨[DASH], rfl, hsuffix⟩

/-- An octet of the body. -/
theorem Watching.body (h : Watching line ctx) (e : ParserEvent MimeMsgType) :
    Watching (line ++ [e.octet 0]) (msgBody ctx e) := by
  refine ⟨?_, ?_, ?_⟩
  · rw [msgBody_doubleMiddleDash, dashes_concat, ← h.double, ← h.middle]
    simp [and_comm]
  · rw [msgBody_isMiddleDash, List.getLast?_concat]
    simp
  · intro hend
    rw [msgBody_boundaryEnd, Bool.or_eq_true, Bool.and_eq_true] at hend
    rcases hend with hend | ⟨hdash, -⟩
    · rw [msgBody_doubleMiddleDash, h.ending hend]
      rfl
    · exact hdash

/-- The end of a line. -/
theorem Watching.newline {e : ParserEvent MimeMsgType} (h : msgBodyNewline env ctx e = .ok ctx') :
    Watching [] ctx' := by
  rw [msgBodyNewline] at h
  obtain ⟨ctx₁, -, h⟩ := bind_eq_ok.mp h
  obtain ⟨ctx₂, -, h⟩ := bind_eq_ok.mp h
  obtain rfl := Except.ok.inj h
  exact ⟨by simp, by simp, by simp⟩

/-- A content type has nothing to do with it. -/
theorem Watching.contentType (h : Watching line ctx) {c : Byte}
    (hrun : contentTypeMsg env ctx c = .ok ctx') : Watching line ctx' := by
  obtain ⟨-, hsurr⟩ := contentTypeMsg_watcher hrun
  apply h.congr
  · exact congrArg Surroundings.doubleMiddleDash hsurr
  · exact congrArg Surroundings.isMiddleDash hsurr
  · exact congrArg Surroundings.boundaryEnd hsurr

/-- An octet of a value. -/
theorem Watching.value (h : Watching line ctx) {e : ParserEvent MimeMsgType}
    (hrun : msgValue env ctx e = .ok ctx') : Watching line ctx' := by
  have hwrite : ∀ ctx₁, Watching line ctx₁ →
      (if ctx₁.msgContentTransferEncodingFieldDetected = some true ∧ ctx₁.mediaFilterApply then
        .ok ctx₁ else writeValue ctx₁ (e.octet 0)) = .ok ctx' → Watching line ctx' := by
    intro ctx₁ h₁ hrun
    split_ifs at hrun
    · obtain rfl := Except.ok.inj hrun
      exact h₁
    · rw [writeValue] at hrun
      split_ifs at hrun
      · split at hrun
        · simp at hrun
        · obtain rfl := Except.ok.inj hrun
          exact h₁.congr rfl rfl rfl
      · obtain rfl := Except.ok.inj hrun
        exact h₁.congr rfl rfl rfl
  rw [msgValue] at hrun
  split_ifs at hrun
  · obtain ⟨ctx₁, h₁, hrun⟩ := bind_eq_ok.mp hrun
    have hfold := (forall_visits (Q := fun _ => True) (R := fun _ => True) (A := fun _ => True)
      (fun _ _ hs _ _ => ⟨trivial, fun _ hres => hs.contentType hres⟩) (fun _ _ => trivial) h
      (fun _ _ => trivial)).2 ctx₁ h₁
    exact hwrite ctx₁ hfold hrun
  · exact hwrite ctx h hrun

/-- The name of a field. -/
theorem Watching.name (h : Watching line ctx) (e : ParserEvent MimeMsgType) :
    Watching line (msgName ctx e) := by
  obtain ⟨p, flag, p', flag', hname⟩ := msgName_frame ctx e
  rw [hname]
  exact h.congr rfl rfl rfl

/-- An event. -/
theorem Watching.event (h : Watching line ctx) {e : ParserEvent MimeMsgType}
    (hrun : mimeMsgEvent env ctx e = .ok ctx') : Watching (nextLine line e) ctx' := by
  obtain ⟨ty, data, n⟩ := e
  cases ty with
  | body =>
    obtain rfl := Except.ok.inj hrun
    exact h.body _
  | bodyNewline => exact Watching.newline hrun
  | value => exact h.value hrun
  | name =>
    obtain rfl := Except.ok.inj hrun
    exact h.name _
  | nameEnd =>
    obtain rfl := Except.ok.inj hrun
    simp only [msgNameEnd]
    split_ifs <;> exact h.congr rfl rfl rfl
  | bodyStart =>
    obtain rfl := Except.ok.inj hrun
    simp only [msgBodyStart]
    split_ifs
    · exact h.congr rfl rfl rfl
    · exact (((h.emit _).emit _).insertText _).insertText _
    · exact (h.emit _).emit _
  | bodyCr =>
    obtain rfl := Except.ok.inj hrun
    rw [msgBodyCr]
    split_ifs
    · exact h
    · exact h.emit _
  | valueEnd =>
    obtain rfl := Except.ok.inj hrun
    exact Watching.congr h rfl rfl rfl
  | wait | unexpected | valueFold =>
    obtain rfl := Except.ok.inj hrun
    exact h.emit _

/-- With something on the stack there is a top to compare with. -/
theorem partBoundary_ne_nullPointer (hstack : ctx.boundryStack ≠ []) :
    partBoundary env ctx ≠ .error .nullPointer := by
  obtain ⟨top, rest, hstack⟩ := List.exists_cons_of_ne_nil hstack
  have hreset : ∀ ctx₁, resetParserTypesAndSubtypes ctx₁ ≠ .error .nullPointer := by
    intro ctx₁
    rw [resetParserTypesAndSubtypes]
    split_ifs <;> simp
  rw [partBoundary]
  split_ifs
  · refine bind_ne_error ?_ fun p _ => ?_
    · rw [peekIs, hstack]
      simp
    · split_ifs
      · exact hreset _
      · simp
  · simp

/-- So there is for the end of the multipart. -/
theorem lastBoundary_ne_nullPointer (hstack : ctx.boundryStack ≠ []) :
    lastBoundary env ctx ≠ .error .nullPointer := by
  obtain ⟨top, rest, hstack⟩ := List.exists_cons_of_ne_nil hstack
  rw [lastBoundary]
  split_ifs
  · refine bind_ne_error ?_ fun p _ => by simp
    rw [peekIs, hstack]
    simp
  · simp

/-- When the tail of the stack is followed and there is none. -/
theorem msgBodyNewline_nullPointer (h : Watching line ctx) (e : ParserEvent MimeMsgType) :
    msgBodyNewline env ctx e = .error .nullPointer ↔
      ctx.doubleMiddleDash = true ∧ ctx.boundryStack = [] := by
  have hcopy : ∃ ctx₀, ctx₀ = (if ctx.mediaFilterApply then ctx else ctx.emit (e.octet 0)) ∧
      Watching line ctx₀ ∧ ctx₀.doubleMiddleDash = ctx.doubleMiddleDash ∧
      ctx₀.boundryStack = ctx.boundryStack := by
    refine ⟨_, rfl, ?_⟩
    split_ifs
    · exact ⟨h, rfl, rfl⟩
    · exact ⟨h.emit _, rfl, rfl⟩
  obtain ⟨ctx₀, hctx₀, h₀, hdouble, hstack⟩ := hcopy
  rw [msgBodyNewline, ← hctx₀, ← hdouble, ← hstack]
  constructor
  · intro herror
    by_contra hno
    rw [not_and] at hno
    by_cases hempty : ctx₀.boundryStack = []
    -- without two dashes in a row there is nothing to look at
    · have hdash : ctx₀.doubleMiddleDash = false := Bool.eq_false_iff.mpr fun hd => hno hd hempty
      have hend : ctx₀.boundaryEnd = false :=
        Bool.eq_false_iff.mpr fun he => Bool.eq_false_iff.mp hdash (h₀.ending he)
      simp [partBoundary, lastBoundary, hdash, hend] at herror
    · refine bind_ne_error (partBoundary_ne_nullPointer hempty) (fun ctx₁ h₁ => ?_) herror
      have hempty₁ : ctx₁.boundryStack ≠ [] := by
        rw [(partBoundary_mail h₁).2.1]
        exact hempty
      exact bind_ne_error (lastBoundary_ne_nullPointer hempty₁) fun _ _ => by simp
  · rintro ⟨hdash, hempty⟩
    simp [partBoundary, peekIs, hdash, hempty]

end

/-! ## Along the stream -/

/-- The flags fit the line at every event of a chunk. -/
theorem watching_chunkEvents (env : FilterEnv) (f : Filter) (chunk : List Byte)
    {us : List (Ctx × ParserEvent MimeMsgType)} (h : Watching (bodyLine us) f.ctx) :
    Along (fun us v => Watching (bodyLine us) v.1) us (chunkEvents env f chunk) ∧
      ∀ f', filterRun env f.rewind chunk = .ok f' →
        Watching (bodyLine (us ++ chunkEvents env f chunk)) f'.ctx := by
  have hoctet : ∀ us ctx c, Watching (bodyLine us) ctx →
      Along (fun us v => Watching (bodyLine us) v.1) us (octetEvents env (ctx, c)) ∧
        ∀ ctx', mimeMsg env ctx c = .ok ctx' →
          Watching (bodyLine (us ++ octetEvents env (ctx, c))) ctx' := by
    intro us ctx c h
    refine along_visits (I := fun us ctx => Watching (bodyLine us) ctx) ?_ _ (h.congr rfl rfl rfl)
    intro us ctx e h
    refine ⟨h, fun ctx' hres => ?_⟩
    rw [bodyLine_concat]
    exact h.event hres
  have hreply : ∀ us ctx e, Watching (bodyLine us) ctx →
      Along (fun us v => Watching (bodyLine us) v.1) us (replyEvents env (ctx, e)) ∧
        ∀ ctx', pop3MultiEvent env ctx e = .ok ctx' →
          Watching (bodyLine (us ++ replyEvents env (ctx, e))) ctx' := by
    rintro us ctx ⟨ty, data, n⟩ h
    cases ty with
    | byte => exact along_flatMap (I := fun us ctx => Watching (bodyLine us) ctx) hoctet _ h
    | wait =>
      refine ⟨.nil, fun ctx' hres => ?_⟩
      obtain rfl := Except.ok.inj hres
      rw [replyEvents, List.append_nil]
      exact h
    | fin =>
      refine ⟨.nil, fun ctx' hres => ?_⟩
      obtain rfl := Except.ok.inj hres
      rw [replyEvents, List.append_nil]
      exact h.congr rfl rfl rfl
  have hstart : Watching (bodyLine us) f.rewind.ctx := h.congr rfl rfl rfl
  obtain ⟨halong, hend⟩ := along_flatMap (I := fun us ctx => Watching (bodyLine us) ctx) hreply
    (multiRun f.multi chunk).2.flatten hstart
  refine ⟨halong, fun f' hrun => ?_⟩
  rw [filterRun_eq] at hrun
  obtain ⟨ctx, hctx, rfl⟩ := map_eq_ok.mp hrun
  exact hend ctx hctx

/-- The flags fit the line at every event. -/
theorem watching_readEvents (env : FilterEnv) (f : Filter) (chunks : List (List Byte))
    {us : List (Ctx × ParserEvent MimeMsgType)} (h : Watching (bodyLine us) f.ctx) :
    Along (fun us v => Watching (bodyLine us) v.1) us (readEvents env f chunks) := by
  induction chunks generalizing f us with
  | nil => exact .nil
  | cons chunk chunks ih =>
    obtain ⟨halong, hend⟩ := watching_chunkEvents env f chunk h
    rw [readEvents]
    refine halong.append ?_
    split
    · rename_i f' hrun
      exact ih f' (hend f' hrun)
    · exact .nil

/-- **When the top of the boundary stack is looked at**, there is one, in every run in which
no line of a body with two dashes in a row ends while the stack is empty; in any other run
there is none. -/
theorem peeks_safe (env : FilterEnv) (entries : List (List Byte × List Byte))
    (chunks : List (List Byte)) :
    (∀ v ∈ readEvents env (.initial entries) chunks, ¬ PeeksEmpty env v) ↔
      ∀ before v after, readEvents env (.initial entries) chunks = before ++ v :: after →
        v.2.type = .bodyNewline → v.1.boundryStack = [] → ¬ [DASH, DASH] <:+: bodyLine before := by
  have hstart : Watching (bodyLine []) (Filter.initial entries).ctx := by
    exact ⟨by simp [Filter.initial, bodyLine], by simp [Filter.initial, bodyLine],
      by simp [Filter.initial]⟩
  have hwatch := watching_readEvents env (.initial entries) chunks hstart
  -- at every event the flags say whether the line has two dashes in a row
  have hpeek : ∀ before v after,
      readEvents env (.initial entries) chunks = before ++ v :: after → v.2.type = .bodyNewline →
      (PeeksEmpty env v ↔ [DASH, DASH] <:+: bodyLine before ∧ v.1.boundryStack = []) := by
    intro before v after heq htype
    have h := hwatch before v after heq
    rw [List.nil_append] at h
    have hevent : mimeMsgEvent env v.1 v.2 = msgBodyNewline env v.1 v.2 := by
      rw [mimeMsgEvent, htype]
    rw [PeeksEmpty, hevent, msgBodyNewline_nullPointer h, h.double, and_iff_right htype]
  constructor
  · intro hsafe before v after heq htype hempty hdashes
    refine hsafe v ?_ ((hpeek before v after heq htype).mpr ⟨hdashes, hempty⟩)
    rw [heq]
    simp
  · intro hlines v hv hpeeks
    obtain ⟨before, after, heq⟩ := List.append_of_mem hv
    obtain ⟨hdashes, hempty⟩ := (hpeek before v after heq hpeeks.1).mp hpeeks
    exact hlines before v after heq hpeeks.1 hempty hdashes

instance (env : FilterEnv) (v : Ctx × ParserEvent MimeMsgType) : Decidable (PeeksEmpty env v) :=
  inferInstanceAs (Decidable (_ ∧ _))

/-- Two dashes in the body of a mail that is not a multipart. -/
theorem dashes_crash :
    ¬ ∀ env entries chunks, ∀ v ∈ readEvents env (.initial entries) chunks, ¬ PeeksEmpty env v := by
  intro h
  have h := h {} [] [ascii "A:b" ++ CRLF ++ CRLF ++ ascii "--" ++ CRLF]
  revert h
  decide

end Pop3Proxy
