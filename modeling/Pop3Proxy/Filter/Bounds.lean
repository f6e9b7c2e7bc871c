/-
# The array of the filter

How far the cursor gets in one chunk is a sum over the events of the chunk: most
write as many octets as they read, some write more, and a type that is replaced
takes the cursor back to the last space.  So the array is never left exactly when
that sum stays below its size and a space is found whenever one is looked for.
-/
import Mathlib.Data.List.TakeWhile
import Pop3Proxy.Filter.Chunks
import Pop3Proxy.Filter.Cursor

namespace Pop3Proxy

/-! ## The events of a chunk -/

/-- The events `mime_msg` handles for one octet, each with its context. -/
def octetEvents (env : FilterEnv) (v : Ctx × Byte) : List (Ctx × ParserEvent MimeMsgType) :=
  visits (mimeMsgEvent env) { v.1 with msg := (mimeMsgFeed v.1.msg v.2).1 }
    (mimeMsgFeed v.1.msg v.2).2

/-- Those for one event of the reply. -/
def replyEvents (env : FilterEnv) (v : Ctx × ParserEvent Pop3MultiType) :
    List (Ctx × ParserEvent MimeMsgType) :=
  match v.2.type with
  | .byte => (visits (mimeMsg env) v.1 (v.2.data.take v.2.n)).flatMap (octetEvents env)
  | .wait | .fin => []

/-- Those for a chunk, which starts with an empty array. -/
def chunkEvents (env : FilterEnv) (f : Filter) (chunk : List Byte) :
    List (Ctx × ParserEvent MimeMsgType) :=
  (visits (pop3MultiEvent env) f.rewind.ctx (multiRun f.multi chunk).2.flatten).flatMap
    (replyEvents env)

/-! ## Staying in the array -/

/-- The scan for a space ends inside the array, on a space of the same line. -/
def ScanStops (t : Tape Byte) : Prop :=
  ∃ passed t', Tape.seek 0 (· == SP) t.left t.right = some t' ∧ t.left = passed ++ t'.left ∧
    CR ∉ passed ∧ LF ∉ passed

/-- The event leaves the cursor in the array, with room for the NUL. -/
structure EventContained (env : FilterEnv) (v : Ctx × ParserEvent MimeMsgType) : Prop where
  inside : mimeMsgEvent env v.1 v.2 ≠ .error .outOfBounds
  room : ∀ ctx', mimeMsgEvent env v.1 v.2 = .ok ctx' → ctx'.mail.cells.length < 3000
  scan : ∀ ctx', mimeMsgEvent env v.1 v.2 = .ok ctx' → Rewrites v.1 v.2 → ScanStops v.1.mail

/-- The array is not left while a chunk is filtered. -/
def Contained (env : FilterEnv) (f : Filter) (chunk : List Byte) : Prop :=
  ∀ v ∈ chunkEvents env f chunk, EventContained env v

/-- What was written of the line, the last octet first. -/
def Ctx.line (ctx : Ctx) : List Byte := ctx.mail.left.takeWhile fun c => c ≠ CR && c ≠ LF

/-- How far an event moves the cursor: by what it writes, or from the last space on
by the text that replaces a type. -/
def eventCost (env : FilterEnv) (v : Ctx × ParserEvent MimeMsgType) : ℤ :=
  if Rewrites v.1 v.2 then (ascii " text/plain").length - (v.1.word.length + 1)
  else (writtenBy env v.1 v.2).length

/-- No type is replaced but behind a space of its line, and the costs of the chunk
never add up to the size of the array. -/
def Budgeted (env : FilterEnv) (f : Filter) (chunk : List Byte) : Prop :=
  ∀ before v after, chunkEvents env f chunk = before ++ v :: after →
    (Rewrites v.1 v.2 → SP ∈ v.1.line) ∧ ((before ++ [v]).map (eventCost env)).sum < 3000

/-- No event of the chunk fails for a reason of its own. -/
def Uncrashed (env : FilterEnv) (f : Filter) (chunk : List Byte) : Prop :=
  ∀ v ∈ chunkEvents env f chunk, ∀ fault, mimeMsgEvent env v.1 v.2 = .error fault →
    fault = .outOfBounds

section
variable {env : FilterEnv} {ctx ctx' : Ctx} {e : ParserEvent MimeMsgType}

/-! ## Looking for a space -/

/-- The octets up to the first space. -/
theorem split_word {left : List Byte} (h : SP ∈ left) :
    ∃ p, left = left.takeWhile (· ≠ SP) ++ SP :: p := by
  induction left with
  | nil => exact absurd h List.not_mem_nil
  | cons c left ih =>
    by_cases hc : c = SP
    · exact ⟨left, by simp [hc]⟩
    · obtain ⟨p, hp⟩ := ih (by simpa [Ne.symm hc] using h)
      refine ⟨p, ?_⟩
      rw [List.takeWhile_cons, if_pos (by simp [hc]), List.cons_append, ← hp]

/-- A space of the line is a space with no end of a line behind it. -/
theorem mem_line_iff {left : List Byte} :
    SP ∈ left.takeWhile (fun c => c ≠ CR && c ≠ LF) ↔
      SP ∈ left ∧ CR ∉ left.takeWhile (· ≠ SP) ∧ LF ∉ left.takeWhile (· ≠ SP) := by
  induction left with
  | nil => simp
  | cons c left ih =>
    by_cases hsp : c = SP
    · subst hsp
      have hne : SP ≠ CR ∧ SP ≠ LF := by decide
      simp [hne]
    by_cases hcr : c = CR
    · subst hcr
      simp
    by_cases hlf : c = LF
    · subst hlf
      simp
    rw [List.takeWhile_cons, if_pos (by simp [hcr, hlf]), List.takeWhile_cons,
      if_pos (by simp [hsp])]
    simp only [List.mem_cons, Ne.symm hsp, Ne.symm hcr, Ne.symm hlf, false_or]
    exact ih

/-- Nothing that was written and passed over again is a space. -/
def Clean (ctx : Ctx) : Prop := SP ∉ ctx.mail.right

/-- Nor is the NUL that ends a reply. -/
theorem Clean.erase (h : Clean ctx) : SP ∉ (ctx.mail.erase 0).right := by
  rw [Clean] at h
  rw [Tape.erase]
  cases hright : ctx.mail.right with
  | nil => simp
  | cons c right =>
    rw [hright] at h
    have hsp : SP ≠ 0 := by decide
    simpa [hsp] using fun hm => h (List.mem_cons_of_mem c hm)

/-- No space is ahead of the cursor. -/
theorem Clean.not_stop (h : Clean ctx) : ∀ x ∈ ctx.mail.right, (x == SP) = false := by
  intro x hx
  rw [beq_eq_false_iff_ne]
  rintro rfl
  exact h hx

/-- The scan backwards stops at the space before the word. -/
theorem Clean.seek {p : List Byte} (h : Clean ctx) (hp : ctx.mail.left = ctx.word ++ SP :: p) :
    Tape.seek 0 (· == SP) ctx.mail.left ctx.mail.right =
      some ⟨p, SP :: (ctx.word.reverse ++ ctx.mail.right)⟩ := by
  rw [hp]
  refine Tape.seek_found (by decide) h.not_stop (fun x hx => ?_) (by decide)
  simpa using List.mem_takeWhile_imp hx

/-- **Where the scan ends.** -/
theorem Clean.scanStops_iff (h : Clean ctx) : ScanStops ctx.mail ↔ SP ∈ ctx.line := by
  rw [Ctx.line, mem_line_iff]
  by_cases hsp : SP ∈ ctx.mail.left
  · obtain ⟨p, hp⟩ := split_word hsp
    have hseek := h.seek hp
    constructor
    · rintro ⟨passed, t', hseek', hleft, hcr, hlf⟩
      obtain rfl := Option.some.inj (hseek.symm.trans hseek')
      have hsame : passed ++ p = ctx.word ++ [SP] ++ p := by
        rw [← hleft, List.append_assoc]
        exact hp
      rw [List.append_cancel_right hsame] at hcr hlf
      exact ⟨hsp, fun hm => hcr (List.mem_append_left _ hm),
        fun hm => hlf (List.mem_append_left _ hm)⟩
    · rintro ⟨-, hcr, hlf⟩
      refine ⟨ctx.word ++ [SP], _, hseek, ?_, ?_, ?_⟩
      · rw [List.append_assoc]
        exact hp
      · simpa [Ctx.word] using hcr
      · simpa [Ctx.word] using hlf
  · refine iff_of_false ?_ fun hline => hsp hline.1
    rintro ⟨passed, t', hseek, -⟩
    rw [Tape.seek_lost (by decide) h.not_stop fun x hx => ?_] at hseek
    · cases hseek
    · rw [beq_eq_false_iff_ne]
      rintro rfl
      exact hsp hx

/-! ## One event -/

/-- How far the cursor has got. -/
def Ctx.cursor (ctx : Ctx) : ℤ := ctx.mail.left.length

/-- **One event** moves the cursor by its cost, and the array grows when the cursor
passes its end. -/
theorem mimeMsgEvent_cost (hclean : Clean ctx) (he : ValueEvent e)
    (h : mimeMsgEvent env ctx e = .ok ctx') :
    Clean ctx' ∧ ctx'.cursor = ctx.cursor + eventCost env (ctx, e) ∧
      (ctx'.mail.cells.length : ℤ) = max (ctx.mail.cells.length : ℤ) ctx'.cursor := by
  obtain ⟨hwrite, hrewrite⟩ := mimeMsgEvent_mail he h
  by_cases hr : Rewrites ctx e
  · obtain ⟨t, hseek, hmail⟩ := hrewrite hr
    have hsp : SP ∈ ctx.mail.left := by
      by_contra hsp
      rw [Tape.seek_lost (by decide) hclean.not_stop fun x hx => ?_] at hseek
      · cases hseek
      · rw [beq_eq_false_iff_ne]
        rintro rfl
        exact hsp hx
    obtain ⟨p, hp⟩ := split_word hsp
    have hcells := Tape.cells_seek hseek
    obtain rfl := Option.some.inj ((hclean.seek hp).symm.trans hseek)
    have htext : (ascii " text/plain").length = 11 := by decide
    have hlen : ctx.mail.left.length = ctx.word.length + (p.length + 1) := by
      have hlen := congrArg List.length hp
      rwa [List.length_append, List.length_cons] at hlen
    refine ⟨?_, ?_, ?_⟩
    · rw [Clean, hmail, Tape.right_writeAll, htext]
      intro hm
      have hm' : SP ∈ ctx.word.reverse ++ ctx.mail.right := List.mem_of_mem_drop hm
      rcases List.mem_append.mp hm' with hm' | hm'
      · simpa using List.mem_takeWhile_imp (List.mem_reverse.mp hm')
      · exact hclean hm'
    · rw [Ctx.cursor, Ctx.cursor, hmail, Tape.left_writeAll, eventCost, if_pos hr, hlen, htext]
      simp only [List.length_append, List.length_reverse, htext]
      omega
    · rw [Ctx.cursor, hmail, Tape.length_cells_writeAll, Tape.left_writeAll, hcells]
      simp only [Tape.cells, List.length_append, List.length_reverse, htext]
      omega
  · have hmail := hwrite hr
    refine ⟨?_, ?_, ?_⟩
    · rw [Clean, hmail, Tape.right_writeAll]
      exact fun hm => hclean (List.mem_of_mem_drop hm)
    · rw [Ctx.cursor, Ctx.cursor, hmail, Tape.left_writeAll, eventCost, if_neg hr]
      simp only [List.length_append, List.length_reverse]
      omega
    · rw [Ctx.cursor, hmail, Tape.length_cells_writeAll, Tape.left_writeAll]
      simp only [List.length_append, List.length_reverse]
      omega

/-! ## A chunk -/

/-- The costs of one octet. -/
theorem octetEvents_tallied (env : FilterEnv) (hclean : Clean ctx) (c : Byte) :
    Tallied (fun v => v.1.cursor) (eventCost env) ctx.cursor (octetEvents env (ctx, c)) ∧
      ∀ ctx', mimeMsg env ctx c = .ok ctx' → Clean ctx' ∧
        ctx'.cursor = ctx.cursor + ((octetEvents env (ctx, c)).map (eventCost env)).sum := by
  have hstart : Clean { ctx with msg := (mimeMsgFeed ctx.msg c).1 } := hclean
  refine tallied_visits (fun s e s' hs he hres => ?_) (mimeMsgFeed_valueEvent ctx.msg c) hstart
  obtain ⟨hc, hcost, -⟩ := mimeMsgEvent_cost hs he hres
  exact ⟨hc, hcost⟩

/-- Those of an event of the reply. -/
theorem replyEvents_tallied (env : FilterEnv) (hclean : Clean ctx) (e : ParserEvent Pop3MultiType) :
    Tallied (fun v => v.1.cursor) (eventCost env) ctx.cursor (replyEvents env (ctx, e)) ∧
      ∀ ctx', pop3MultiEvent env ctx e = .ok ctx' → Clean ctx' ∧
        ctx'.cursor = ctx.cursor + ((replyEvents env (ctx, e)).map (eventCost env)).sum := by
  obtain ⟨ty, data, n⟩ := e
  cases ty with
  | byte =>
    exact tallied_flatMap (fun s c hs _ => octetEvents_tallied env hs c)
      (fun _ _ => trivial) hclean
  | wait =>
    refine ⟨.nil, fun ctx' h => ?_⟩
    obtain rfl := Except.ok.inj h
    exact ⟨hclean, by simp [replyEvents]⟩
  | fin =>
    refine ⟨.nil, fun ctx' h => ?_⟩
    obtain rfl := Except.ok.inj h
    exact ⟨hclean.erase, by simp [replyEvents, Ctx.cursor, Tape.erase]⟩

/-- **The cursor before an event** is what the events before it have cost. -/
theorem chunkEvents_tallied (env : FilterEnv) (f : Filter) (chunk : List Byte) :
    Tallied (fun v => v.1.cursor) (eventCost env) 0 (chunkEvents env f chunk) := by
  have hstart : Clean f.rewind.ctx := by simp [Clean, Filter.rewind, Tape.empty]
  exact (tallied_flatMap (fun s e hs _ => replyEvents_tallied env hs e) (fun _ _ => trivial)
    hstart).1

/-- What is kept along a chunk. -/
structure Roomy (ctx : Ctx) : Prop where
  clean : Clean ctx
  room : ctx.mail.cells.length < 3000

/-- The condition on an event, with the cursor in place of the costs before it. -/
def Affordable (env : FilterEnv) (v : Ctx × ParserEvent MimeMsgType) : Prop :=
  (Rewrites v.1 v.2 → SP ∈ v.1.line) ∧ v.1.cursor + eventCost env v < 3000

/-- **An event that can be afforded** stays in the array. -/
theorem Roomy.step (h : Roomy ctx) (he : ValueEvent e) (hv : Affordable env (ctx, e)) :
    EventContained env (ctx, e) ∧ ∀ ctx', mimeMsgEvent env ctx e = .ok ctx' → Roomy ctx' := by
  have hroom : ∀ ctx', mimeMsgEvent env ctx e = .ok ctx' → Roomy ctx' := by
    intro ctx' hres
    obtain ⟨hclean, hcost, hcells⟩ := mimeMsgEvent_cost h.clean he hres
    have hcursor := hv.2
    have hbefore := h.room
    refine ⟨hclean, ?_⟩
    simp only at hcursor
    omega
  refine ⟨⟨fun hres => ?_, fun ctx' hres => (hroom ctx' hres).room, fun _ _ hr => ?_⟩, hroom⟩
  · obtain ⟨hr, hseek⟩ := mimeMsgEvent_outOfBounds he hres
    obtain ⟨passed, t', hseek', -⟩ := h.clean.scanStops_iff.mpr (hv.1 hr)
    rw [hseek] at hseek'
    cases hseek'
  · exact h.clean.scanStops_iff.mpr (hv.1 hr)

/-- **An invariant along a chunk.** -/
theorem forall_chunkEvents {I : Ctx → Prop} {Q R : Ctx × ParserEvent MimeMsgType → Prop}
    (hmsg : ∀ ctx s, I ctx → I { ctx with msg := s }) (hrestart : ∀ ctx, I ctx → I ctx.restart)
    (hstep : ∀ ctx e, I ctx → ValueEvent e → Q (ctx, e) →
      R (ctx, e) ∧ ∀ ctx', mimeMsgEvent env ctx e = .ok ctx' → I ctx')
    {f : Filter} {chunk : List Byte} (hstart : I f.rewind.ctx)
    (hq : ∀ v ∈ chunkEvents env f chunk, Q v) : ∀ v ∈ chunkEvents env f chunk, R v := by
  have hoctet : ∀ ctx c, I ctx → (∀ v ∈ octetEvents env (ctx, c), Q v) →
      (∀ v ∈ octetEvents env (ctx, c), R v) ∧ ∀ ctx', mimeMsg env ctx c = .ok ctx' → I ctx' :=
    fun ctx c hs hq => forall_visits hstep (mimeMsgFeed_valueEvent ctx.msg c) (hmsg ctx _ hs) hq
  have hreply : ∀ ctx e, I ctx → (∀ v ∈ replyEvents env (ctx, e), Q v) →
      (∀ v ∈ replyEvents env (ctx, e), R v) ∧
        ∀ ctx', pop3MultiEvent env ctx e = .ok ctx' → I ctx' := by
    rintro ctx ⟨ty, data, n⟩ hs hq
    cases ty with
    | byte => exact forall_flatMap (fun s c hs _ hq => hoctet s c hs hq) (fun _ _ => trivial) hs hq
    | wait =>
      refine ⟨by simp [replyEvents], fun ctx' hres => ?_⟩
      obtain rfl := Except.ok.inj hres
      exact hs
    | fin =>
      refine ⟨by simp [replyEvents], fun ctx' hres => ?_⟩
      obtain rfl := Except.ok.inj hres
      exact hrestart ctx hs
  exact (forall_flatMap (fun s e hs _ hq => hreply s e hs hq) (fun _ _ => trivial) hstart hq).1

/-- A chunk starts with an empty array. -/
theorem roomy_rewind (f : Filter) : Roomy f.rewind.ctx :=
  ⟨by simp [Clean, Filter.rewind, Tape.empty], by simp [Filter.rewind]⟩

/-- A chunk whose events can be afforded stays in the array. -/
theorem contained_of_affordable {f : Filter} {chunk : List Byte}
    (h : ∀ v ∈ chunkEvents env f chunk, Affordable env v) : Contained env f chunk :=
  forall_chunkEvents (fun _ _ hs => ⟨hs.clean, hs.room⟩)
    (fun _ hs => ⟨hs.clean.erase, by simpa [Ctx.restart] using hs.room⟩)
    (fun _ _ hs he hv => hs.step he hv) (roomy_rewind f) h

/-- No space is ever left behind the cursor. -/
theorem clean_chunkEvents (env : FilterEnv) (f : Filter) (chunk : List Byte) :
    ∀ v ∈ chunkEvents env f chunk, Clean v.1 ∧ ValueEvent v.2 :=
  forall_chunkEvents (Q := fun _ => True) (fun _ _ hs => hs) (fun _ hs => hs.erase)
    (fun _ _ hs he _ => ⟨⟨hs, he⟩, fun _ hres => (mimeMsgEvent_cost hs he hres).1⟩)
    (roomy_rewind f).clean fun _ _ => trivial

/-- What stays in the array could be afforded, unless it fails for a reason of its own. -/
theorem affordable_of_contained {f : Filter} {chunk : List Byte} (hcrash : Uncrashed env f chunk)
    (h : Contained env f chunk) : ∀ v ∈ chunkEvents env f chunk, Affordable env v := by
  rintro ⟨ctx, e⟩ hv
  obtain ⟨hclean, he⟩ : Clean ctx ∧ ValueEvent e := clean_chunkEvents env f chunk (ctx, e) hv
  have hin := h (ctx, e) hv
  cases hres : mimeMsgEvent env ctx e with
  | error fault =>
    obtain rfl := hcrash (ctx, e) hv fault hres
    exact absurd hres hin.inside
  | ok ctx' =>
    obtain ⟨-, hcost, hcells⟩ := mimeMsgEvent_cost hclean he hres
    have hroom := hin.room ctx' hres
    refine ⟨fun hr => hclean.scanStops_iff.mp (hin.scan ctx' hres hr), ?_⟩
    have hcursor : ctx'.cursor ≤ ctx'.mail.cells.length := by
      rw [hcells]
      exact Int.le_max_right _ _
    rw [hcost] at hcursor
    simp only
    omega

/-- The costs before an event are where its cursor is. -/
theorem budgeted_iff {f : Filter} {chunk : List Byte} :
    Budgeted env f chunk ↔ ∀ v ∈ chunkEvents env f chunk, Affordable env v := by
  have hsum : ∀ before v after, chunkEvents env f chunk = before ++ v :: after →
      ((before ++ [v]).map (eventCost env)).sum = v.1.cursor + eventCost env v := by
    intro before v after h
    have hcursor : v.1.cursor = 0 + (before.map (eventCost env)).sum :=
      chunkEvents_tallied env f chunk before v after h
    rw [hcursor, List.map_append, List.sum_append]
    simp
  constructor
  · intro h v hv
    obtain ⟨before, after, heq⟩ := List.append_of_mem hv
    obtain ⟨hline, hbudget⟩ := h before v after heq
    exact ⟨hline, by rwa [hsum before v after heq] at hbudget⟩
  · intro h before v after heq
    obtain ⟨hline, hroom⟩ := h v (by simp [heq])
    exact ⟨hline, by rwa [hsum before v after heq]⟩

end

/-- **The array.**  While a chunk is filtered the cursor stays in the array, and every
scan for a space ends on one of the same line, exactly when the chunk is within its
budget; it may also end before, with a fault that has nothing to do with the array. -/
theorem contained (env : FilterEnv) (f : Filter) (chunk : List Byte) :
    (Budgeted env f chunk → Contained env f chunk) ∧
      (Uncrashed env f chunk → Contained env f chunk → Budgeted env f chunk) :=
  ⟨fun h => contained_of_affordable (budgeted_iff.mp h),
    fun hcrash h => budgeted_iff.mpr (affordable_of_contained hcrash h)⟩

/-- What stays in the array never fails for leaving it. -/
theorem Contained.run {env : FilterEnv} {f : Filter} {chunk : List Byte}
    (h : Contained env f chunk) : filterRun env f.rewind chunk ≠ .error .outOfBounds := by
  intro hres
  rw [filterRun_eq] at hres
  cases hfold : (multiRun f.rewind.multi chunk).2.flatten.foldlM (pop3MultiEvent env)
      f.rewind.ctx with
  | error fault =>
    rw [hfold] at hres
    obtain rfl := Except.error.inj hres
    obtain ⟨⟨ctx, ⟨ty, data, n⟩⟩, hreply, hevent⟩ := exists_visit_error hfold
    cases ty with
    | wait => cases hevent
    | fin => cases hevent
    | byte =>
      obtain ⟨v, hv, hmsg⟩ := exists_visit_error hevent
      obtain ⟨w, hw, hlost⟩ := exists_visit_error hmsg
      refine (h w (List.mem_flatMap.mpr ⟨_, hreply, ?_⟩)).inside hlost
      exact List.mem_flatMap.mpr ⟨v, hv, hw⟩
  | ok ctx =>
    rw [hfold] at hres
    cases hres

/-- A value right behind the colon: there is no space to go back to. -/
theorem spaceless_escapes :
    ¬ ∀ (env : FilterEnv) (entries : List (List Byte × List Byte)) (bs : List Byte)
        (before : List (List Byte)) (f : Filter) (tapes : List (Tape Byte)) (chunk : List Byte),
      Chunks bs before → Leaves env (.initial entries) before f tapes → chunk.length ≤ 2048 →
        Contained env f chunk := by
  intro h
  have hin := h {} [(ascii "image", ascii "png")] [] [] _ [] (ascii "Content-Type:image/png")
    ⟨rfl, by simp⟩ (.nil _) (by decide)
  exact hin.run (by decide +kernel)

end Pop3Proxy
