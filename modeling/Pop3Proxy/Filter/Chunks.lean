/-
# The reads of the filter

The loop of `main`: what one `read` gives is filtered into `transformed` from its
start and printed with a line feed behind it; the `read` that gives nothing
prints a last line feed.  So every way of cutting a mail into chunks that fits
the array has another one beside it with a different number of line feeds.
-/
import Pop3Proxy.Filter.Mail

namespace Pop3Proxy

/-! ## The loop -/

/-- `process_modification_mail = transformed`, and `transformed` is zero again. -/
def Filter.rewind (f : Filter) : Filter := { f with ctx := { f.ctx with mail := .empty } }

/-- The array `transformed` after each of the chunks. -/
def chunkTapes (env : FilterEnv) : Filter → List (List Byte) → Except FilterFault (List (Tape Byte))
  | _, [] => .ok []
  | f, chunk :: chunks => do
    let f ← filterRun env f.rewind chunk
    let tapes ← chunkTapes env f chunks
    .ok (f.ctx.mail :: tapes)

/-- `printf("%s\n", transformed)` -/
def printed (t : Tape Byte) : List Byte := cstr t.cells ++ [LF]

/-- What is written to the standard output. -/
def printedAll (tapes : List (Tape Byte)) : List Byte := tapes.flatMap printed ++ [LF]

/-- The array has room for what is emitted for each chunk, and for the NUL. -/
def Fit (tapes : List (Tape Byte)) : Prop := ∀ t ∈ tapes, t.cells.length < 3000

instance (tapes : List (Tape Byte)) : Decidable (Fit tapes) :=
  inferInstanceAs (Decidable (∀ t ∈ tapes, t.cells.length < 3000))

/-- The chunks `read` can make of these octets. -/
structure Chunks (bs : List Byte) (chunks : List (List Byte)) : Prop where
  flatten : chunks.flatten = bs
  size : ∀ chunk ∈ chunks, 1 ≤ chunk.length ∧ chunk.length ≤ 2048

section
variable {env : FilterEnv} {f f' : Filter} {tapes : List (Tape Byte)} {chunks : List (List Byte)}

/-- The chunks leave the filter `f'` and these arrays. -/
inductive Leaves (env : FilterEnv) : Filter → List (List Byte) → Filter → List (Tape Byte) → Prop
  | nil (f : Filter) : Leaves env f [] f []
  | cons {f f₁ f' : Filter} {chunk : List Byte} {chunks : List (List Byte)}
      {tapes : List (Tape Byte)} (h : filterRun env f.rewind chunk = .ok f₁)
      (hs : Leaves env f₁ chunks f' tapes) :
        Leaves env f (chunk :: chunks) f' (f₁.ctx.mail :: tapes)

/-- The tapes of the chunks are those that some run leaves. -/
theorem chunkTapes_eq_ok :
    chunkTapes env f chunks = .ok tapes ↔ ∃ f', Leaves env f chunks f' tapes := by
  induction chunks generalizing f tapes with
  | nil =>
    constructor
    · intro h
      obtain rfl := Except.ok.inj h
      exact ⟨f, .nil f⟩
    · rintro ⟨f', ⟨⟩⟩
      rfl
  | cons chunk chunks ih =>
    constructor
    · intro h
      rw [chunkTapes] at h
      obtain ⟨f₁, h₁, h⟩ := bind_eq_ok.mp h
      obtain ⟨ts, hts, h⟩ := bind_eq_ok.mp h
      obtain rfl := Except.ok.inj h
      obtain ⟨f', hs⟩ := ih.mp hts
      exact ⟨f', .cons h₁ hs⟩
    · rintro ⟨f', hl⟩
      cases hl with
      | cons h hs => rw [chunkTapes, h, ok_bind, ih.mpr ⟨f', hs⟩, ok_bind]

/-- The last chunk. -/
theorem leaves_concat {chunk : List Byte} :
    Leaves env f (chunks ++ [chunk]) f' tapes ↔ ∃ f₁ ts, Leaves env f chunks f₁ ts ∧
      filterRun env f₁.rewind chunk = .ok f' ∧ tapes = ts ++ [f'.ctx.mail] := by
  induction chunks generalizing f tapes with
  | nil =>
    constructor
    · intro h
      cases h with
      | cons h hs =>
        cases hs with
        | nil => exact ⟨f, [], .nil f, h, rfl⟩
    · rintro ⟨f₁, ts, hl, h, rfl⟩
      cases hl with
      | nil => exact .cons h (.nil f')
  | cons c chunks ih =>
    constructor
    · intro h
      cases h with
      | cons h hs =>
        obtain ⟨f₁, ts, hl, h', rfl⟩ := ih.mp hs
        exact ⟨f₁, _, .cons h hl, h', rfl⟩
    · rintro ⟨f₁, ts, hl, h, rfl⟩
      cases hl with
      | cons h' hs => exact .cons h' (ih.mpr ⟨f₁, _, hs, h, rfl⟩)

/-- Cutting into chunks does not disturb the parser of the reply. -/
theorem Leaves.multi (h : Leaves env f chunks f' tapes) :
    f'.multi = (multiRun f.multi chunks.flatten).1 := by
  induction h with
  | nil f => rfl
  | cons h hs ih =>
    rw [ih, multi_filterRun h, List.flatten_cons, multiRun_append]
    rfl

/-! ## The end of a mail -/

/-- One octet. -/
theorem filterRun_single (env : FilterEnv) (f : Filter) (c : Byte) :
    filterRun env f [c] = pop3Multi env f c := bind_pure (pop3Multi env f c)

/-- The last octet. -/
theorem filterRun_concat {bs : List Byte} {c : Byte} :
    filterRun env f (bs ++ [c]) = .ok f' ↔
      ∃ f₁, filterRun env f bs = .ok f₁ ∧ pop3Multi env f₁ c = .ok f' := by
  rw [filterRun_append, bind_eq_ok]
  simp only [filterRun_single]

/-- The CR of the last line writes nothing. -/
theorem pop3Multi_dot (h : f.multi = .dot) : pop3Multi env f CR = .ok ⟨.dotCr, f.ctx⟩ := by
  rw [pop3Multi, h]
  rfl

/-- Nor does its LF, but for the NUL it puts behind what is written. -/
theorem pop3Multi_dotCr (h : f.multi = .dotCr) :
    pop3Multi env f LF = .ok ⟨.fin, f.ctx.restart⟩ := by
  rw [pop3Multi, h]
  rfl

/-- How much is printed: a string and a newline for each chunk, and a newline at the end. -/
theorem length_printedAll (tapes : List (Tape Byte)) :
    (printedAll tapes).length = (tapes.map fun t => (cstr t.cells).length + 1).sum + 1 := by
  simp [printedAll, printed, List.length_flatMap]

/-- A NUL at the cursor only shortens what is printed. -/
theorem length_cstr_erase (t : Tape Byte) :
    (cstr (t.erase 0).cells).length ≤ (cstr t.cells).length := by
  obtain ⟨left, right⟩ := t
  cases right with
  | nil => exact Nat.le_refl _
  | cons c right =>
    simp only [Tape.cells, Tape.erase, List.modifyHead_cons, cstr, List.takeWhile_append]
    split_ifs <;> simp

/-- What is printed for two ways of cutting, when the last arrays differ. -/
theorem printedAll_ne {ts : List (Tape Byte)} {us vs : List (Tape Byte)}
    (h : (us.map fun t => (cstr t.cells).length + 1).sum ≠
      (vs.map fun t => (cstr t.cells).length + 1).sum) :
    printedAll (ts ++ us) ≠ printedAll (ts ++ vs) := by
  intro heq
  have hlen := congrArg List.length heq
  rw [length_printedAll, length_printedAll, List.map_append, List.map_append, List.sum_append,
    List.sum_append] at hlen
  omega

/-- A chunk has octets in it. -/
theorem Chunks.ne_nil {bs chunk : List Byte} (h : Chunks bs chunks) (hc : chunk ∈ chunks) :
    chunk ≠ [] := by
  rintro rfl
  exact absurd (h.size [] hc).1 (by simp)

/-- The last chunk may be cut once more. -/
theorem Chunks.cut {bs w : List Byte} {c : Byte} (h : Chunks bs (chunks ++ [w ++ [c]]))
    (hw : w ≠ []) :
    Chunks bs (chunks ++ [w] ++ [[c]]) where
  flatten := by simpa using h.flatten
  size chunk hc := by
    have hlast := h.size (w ++ [c]) (by simp)
    have hlen : 1 ≤ w.length := List.length_pos_iff.mpr hw
    simp only [List.append_assoc, List.cons_append, List.nil_append, List.mem_append,
      List.mem_cons, List.not_mem_nil, or_false] at hc
    rcases hc with hc | rfl | rfl
    · exact h.size chunk (by simp [hc])
    · simp only [List.length_append, List.length_singleton] at hlast
      omega
    · simp

/-- So may the one before it. -/
theorem Chunks.cutBefore {bs v last : List Byte} {c : Byte}
    (h : Chunks bs (chunks ++ [v ++ [c]] ++ [last])) (hv : v ≠ []) :
    Chunks bs (chunks ++ [v] ++ [[c]] ++ [last]) where
  flatten := by simpa using h.flatten
  size chunk hc := by
    have hlast := h.size (v ++ [c]) (by simp)
    have hlen : 1 ≤ v.length := List.length_pos_iff.mpr hv
    simp only [List.append_assoc, List.cons_append, List.nil_append, List.mem_append,
      List.mem_cons, List.not_mem_nil, or_false] at hc
    rcases hc with hc | rfl | rfl | rfl
    · exact h.size chunk (by simp [hc])
    · simp only [List.length_append, List.length_singleton] at hlast
      omega
    · simp
    · exact h.size chunk (by simp)

/-- Two chunks of one octet may be one. -/
theorem Chunks.join {bs : List Byte} {c d : Byte} (h : Chunks bs (chunks ++ [[] ++ [c]] ++ [[d]])) :
    Chunks bs (chunks ++ [[c, d]]) where
  flatten := by simpa using h.flatten
  size chunk hc := by
    rcases List.mem_append.mp hc with hc | hc
    · exact h.size chunk (by simp [hc])
    · rw [List.mem_singleton.mp hc]
      simp

/-- Two rows of chunks fit when each of them does. -/
theorem fit_append {ts us : List (Tape Byte)} : Fit (ts ++ us) ↔ Fit ts ∧ Fit us := by
  simp only [Fit, List.mem_append, or_imp, forall_and]

/-- The last LF in a chunk of its own. -/
theorem leaves_lf {f₁ f₂ : Filter} {w : List Byte} {ts : List (Tape Byte)}
    (h : Leaves env f chunks f₁ ts) (hw : filterRun env f₁.rewind w = .ok f₂)
    (hf₂ : f₂.multi = .dotCr) (hfit : Fit (ts ++ [f₂.ctx.restart.mail])) :
    ∃ f' tapes', Leaves env f (chunks ++ [w] ++ [[LF]]) f' tapes' ∧ Fit tapes' ∧
      printedAll (ts ++ [f₂.ctx.restart.mail]) ≠ printedAll tapes' := by
  refine ⟨⟨.fin, f₂.rewind.ctx.restart⟩, ts ++ [f₂.ctx.mail, .empty], ?_, ?_, ?_⟩
  · refine leaves_concat.mpr ⟨f₂, ts ++ [f₂.ctx.mail], leaves_concat.mpr ⟨f₁, ts, h, hw, rfl⟩, ?_,
      by simp [Ctx.restart, Filter.rewind]⟩
    rw [filterRun_single]
    exact pop3Multi_dotCr hf₂
  · rw [fit_append] at hfit ⊢
    simpa [Fit, Ctx.restart] using hfit
  · have hshort := length_cstr_erase f₂.ctx.mail
    refine printedAll_ne ?_
    simp only [Ctx.restart, List.map_cons, List.map_nil, List.sum_cons, List.sum_nil]
    omega

/-- The CR before it in a chunk of its own, or in the chunk of the LF. -/
theorem leaves_cr {f₁ f₂ : Filter} {v : List Byte} {ts : List (Tape Byte)}
    (h : Leaves env f chunks f₁ ts) (hv : filterRun env f₁.rewind v = .ok f₂)
    (hf₂ : f₂.multi = .dot) (hfit : Fit ts) (hfit' : Fit [f₂.ctx.mail]) :
    (∃ f' tapes', Leaves env f (chunks ++ [v] ++ [[CR]] ++ [[LF]]) f' tapes' ∧ Fit tapes' ∧
      printedAll (ts ++ [f₂.ctx.mail, .empty]) ≠ printedAll tapes') ∧
    (v = [] → ∃ f' tapes', Leaves env f (chunks ++ [CRLF]) f' tapes' ∧ Fit tapes' ∧
      printedAll (ts ++ [f₂.ctx.mail, .empty]) ≠ printedAll tapes') := by
  have hcr : filterRun env f₂.rewind [CR] = .ok ⟨.dotCr, f₂.rewind.ctx⟩ := by
    rw [filterRun_single]
    exact pop3Multi_dot hf₂
  have hempty : Fit [(Tape.empty : Tape Byte)] := by simp [Fit]
  constructor
  · refine ⟨⟨.fin, f₂.rewind.ctx.restart⟩, ts ++ [f₂.ctx.mail, .empty, .empty], ?_, ?_, ?_⟩
    · refine leaves_concat.mpr ⟨⟨.dotCr, f₂.rewind.ctx⟩, ts ++ [f₂.ctx.mail] ++ [.empty],
        leaves_concat.mpr ⟨f₂, ts ++ [f₂.ctx.mail], leaves_concat.mpr ⟨f₁, ts, h, hv, rfl⟩,
        hcr, rfl⟩,
        ?_, by simp [Ctx.restart, Filter.rewind]⟩
      rw [filterRun_single]
      exact pop3Multi_dotCr rfl
    · refine fit_append.mpr ⟨hfit, fun t ht => ?_⟩
      rcases List.mem_cons.mp ht with rfl | ht
      · exact hfit' _ (by simp)
      · exact hempty t (by simpa using ht)
    · refine printedAll_ne ?_
      simp only [List.map_cons, List.map_nil, List.sum_cons, List.sum_nil]
      omega
  · rintro rfl
    obtain rfl := Except.ok.inj hv
    refine ⟨⟨.fin, f₁.rewind.ctx.restart⟩, ts ++ [.empty], ?_, ?_, ?_⟩
    · refine leaves_concat.mpr ⟨f₁, ts, h, ?_, by simp [Ctx.restart, Filter.rewind]⟩
      refine filterRun_concat.mpr ⟨_, hcr, pop3Multi_dotCr rfl⟩
    · exact fit_append.mpr ⟨hfit, hempty⟩
    · refine printedAll_ne ?_
      simp only [Filter.rewind, List.map_cons, List.map_nil, List.sum_cons, List.sum_nil]
      omega

/-- **Another way of cutting.**  Where a mail fits in one way, it fits in another
one, and prints something else. -/
theorem otherChunks {bs : List Byte} (hstart : f.multi = pop3MultiParser.startState)
    (hbs : Terminated bs) (hc : Chunks bs chunks) (hl : Leaves env f chunks f' tapes)
    (hfit : Fit tapes) : ∃ chunks' f'' tapes', Chunks bs chunks' ∧
      Leaves env f chunks' f'' tapes' ∧ Fit tapes' ∧ printedAll tapes ≠ printedAll tapes' := by
  obtain ⟨bs', rfl, hreads⟩ := hbs.split
  obtain rfl | ⟨init, last, rfl⟩ := List.eq_nil_or_concat' chunks
  · exact absurd hc.flatten (by simp)
  obtain ⟨f₁, ts, hinit, hlast, rfl⟩ := leaves_concat.mp hl
  obtain rfl | ⟨w, c, rfl⟩ := List.eq_nil_or_concat' last
  · exact absurd rfl (hc.ne_nil (by simp))
  obtain ⟨f₂, hw, hfin⟩ := filterRun_concat.mp hlast
  have hflat := hc.flatten
  rw [List.flatten_append, List.flatten_singleton, ← List.append_assoc] at hflat
  obtain ⟨rfl, hlf⟩ := List.append_inj' hflat rfl
  obtain rfl := List.singleton_injective hlf
  -- the LF of the terminator is the last octet, and the CR is the one before
  have hf₂ : f₂.multi = .dotCr := by
    rw [multi_filterRun hw, Filter.rewind, hinit.multi, hstart, ← hreads.state, multiRun_append]
    rfl
  rw [pop3Multi_dotCr hf₂] at hfin
  obtain rfl := Except.ok.inj hfin
  by_cases hwne : w = []
  -- the LF came alone, and the CR is the end of the chunk before
  · subst hwne
    obtain rfl := Except.ok.inj hw
    obtain rfl | ⟨init, last, rfl⟩ := List.eq_nil_or_concat' init
    · cases hinit with
      | nil =>
        rw [Filter.rewind, hstart] at hf₂
        exact absurd hf₂ (by decide)
    obtain ⟨f₀, us, hinit₀, hlast₀, rfl⟩ := leaves_concat.mp hinit
    obtain rfl | ⟨v, c, rfl⟩ := List.eq_nil_or_concat' last
    · exact absurd rfl (hc.ne_nil (by simp))
    obtain ⟨f₃, hv, hcr⟩ := filterRun_concat.mp hlast₀
    obtain ⟨ctx, -, rfl⟩ := map_eq_ok.mp hcr
    obtain ⟨hf₃, rfl⟩ := multiFeed_eq_dotCr hf₂
    rw [pop3Multi_dot hf₃] at hcr
    obtain rfl := congrArg Filter.ctx (Except.ok.inj hcr)
    rw [List.append_assoc us] at hfit ⊢
    obtain ⟨hfit₁, hfit₂⟩ := fit_append.mp hfit
    obtain ⟨hcut, hjoin⟩ := leaves_cr hinit₀ hv hf₃ hfit₁ fun t ht =>
      hfit₂ t (List.mem_append_left _ ht)
    by_cases hvne : v = []
    · obtain ⟨f', tapes', hl', hfit', hne⟩ := hjoin hvne
      subst hvne
      exact ⟨_, f', tapes', hc.join, hl', hfit', hne⟩
    · obtain ⟨f', tapes', hl', hfit', hne⟩ := hcut
      exact ⟨_, f', tapes', hc.cutBefore hvne, hl', hfit', hne⟩
  · obtain ⟨f', tapes', hl', hfit', hne⟩ := leaves_lf hinit hw hf₂ hfit
    exact ⟨_, f', tapes', hc.cut hwne, hl', hfit', hne⟩

end

/-- This is printed for some way of cutting the mail that fits the array. -/
def Prints (env : FilterEnv) (entries : List (List Byte × List Byte)) (bs out : List Byte) : Prop :=
  ∃ chunks tapes, Chunks bs chunks ∧ chunkTapes env (.initial entries) chunks = .ok tapes ∧
    Fit tapes ∧ printedAll tapes = out

/-- **Chunks.**  All ways of cutting a mail that fit the array print the same only
where none fits. -/
theorem chunked (env : FilterEnv) (entries : List (List Byte × List Byte)) (bs : List Byte)
    (hbs : Terminated bs) :
    (∀ out out', Prints env entries bs out → Prints env entries bs out' → out = out') ↔
      ∀ out, ¬ Prints env entries bs out := by
  constructor
  · rintro h out ⟨chunks, tapes, hc, hres, hfit, rfl⟩
    obtain ⟨f', hl⟩ := chunkTapes_eq_ok.mp hres
    obtain ⟨chunks', f'', tapes', hc', hl', hfit', hne⟩ := otherChunks rfl hbs hc hl hfit
    refine hne (h _ _ ⟨chunks, tapes, hc, hres, hfit, rfl⟩ ⟨chunks', tapes', hc', ?_, hfit', rfl⟩)
    exact chunkTapes_eq_ok.mpr ⟨f'', hl'⟩
  · intro h out _ hout _
    exact absurd hout (h out)

/-- A mail that is a single field. -/
theorem chunked_header :
    ¬ ∀ out out', Prints {} [(ascii "image", ascii "png")] (ascii "A: b\r\n.\r\n") out →
      Prints {} [(ascii "image", ascii "png")] (ascii "A: b\r\n.\r\n") out' → out = out' := by
  intro h
  refine (chunked {} [(ascii "image", ascii "png")] (ascii "A: b\r\n.\r\n")
    ⟨(multiRun .newline (ascii "A: b\r\n.\r")).2, by decide, by decide⟩).mp h
    (ascii "A: b\r\n\n\n") ⟨[ascii "A: b\r\n.\r\n"], _, ⟨rfl, by decide⟩, rfl, by decide, by decide⟩

/-- In one read it is printed with two more line feeds, in two with three. -/
theorem secondRead_printed :
    ¬ ∀ (env : FilterEnv) (entries : List (List Byte × List Byte)) (bs : List Byte),
      Terminated bs → 0 ∉ bs →
        ∀ out out', Prints env entries bs out → Prints env entries bs out' → out = out' := by
  intro h
  have hone : Prints {} [(ascii "image", ascii "png")] (ascii "A: b\r\n.\r\n")
      (ascii "A: b\r\n\n\n") :=
    ⟨[ascii "A: b\r\n.\r\n"], _, ⟨rfl, by decide⟩, rfl, by decide, by decide⟩
  have htwo : Prints {} [(ascii "image", ascii "png")] (ascii "A: b\r\n.\r\n")
      (ascii "A: b\r\n\n\n\n") :=
    ⟨[ascii "A: b\r\n", ascii ".\r\n"], _, ⟨rfl, by decide⟩, rfl, by decide, by decide⟩
  have heq := h {} [(ascii "image", ascii "png")] (ascii "A: b\r\n.\r\n")
    ⟨(multiRun .newline (ascii "A: b\r\n.\r")).2, by decide, by decide⟩ (by decide) _ _ hone htwo
  exact absurd heq (by decide)

end Pop3Proxy
