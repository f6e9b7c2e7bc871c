/-
# The environment of the filter

`main` reads the types to be filtered from `FILTER_MEDIAS`: it is cut at its commas and what is
between them at its slashes, and a token without two parts ends the program before anything is
read.  Without the variable the mail is printed as it comes, through an array that is not cleared
before the first `read`.
-/
import Pop3Proxy.Admin.SpeedwagonDecoder
import Pop3Proxy.Filter.Chunks
import Pop3Proxy.Filter.Configured

namespace Pop3Proxy

open Traced

/-! ## `FILTER_MEDIAS` -/

/-- `strtok_r` for one delimiter: the token, and where `context` points to afterwards. -/
def strtokR (delim : Byte) (s : List Byte) : Option (List Byte × List Byte) :=
  match s.dropWhile (· = delim) with
  | [] => none
  | c :: cs => some ((c :: cs).takeWhile (· ≠ delim), ((c :: cs).dropWhile (· ≠ delim)).drop 1)

/-- The type and the subtype of a token, unless one of them is missing. -/
def mediaOf (current : List Byte) : Option (List Byte × List Byte) := do
  let (type, context) ← strtokR SLASH current
  let (subtype, _) ← strtokR SLASH context
  some (type, subtype)

/-- The loop over the tokens, which are not more than the octets; a token without two parts ends
it. -/
def mediasFrom (cleared : Bool) : ℕ → List Byte → List TypeList → ListM (Option (List TypeList))
  | 0, _, ts => pure (some ts)
  | n + 1, context, ts =>
    match strtokR COMMA context with
    | none => pure (some ts)
    | some (current, context) =>
      match mediaOf current with
      | none => pure none
      | some (type, subtype) => do
        let ts ← addMediaType cleared type subtype ts
        mediasFrom cleared n context ts

/-- The list that is made of the variable, unless `main` returns -1. -/
def filterMedias (cleared : Bool) (flm : List Byte) : ListM (Option (List TypeList)) :=
  mediasFrom cleared (flm.length + 1) flm []

/-! ## `main` -/

/-- The loop without the variable.  The memory starts with the array `transformed`, which is
cleared behind each `read`; the last `read` gives nothing. -/
def passThrough : List Byte → List (List Byte) → List Byte
  | memory, [] => cstr memory
  | memory, chunk :: chunks =>
    let memory := overwrite memory chunk
    cstr memory ++ passThrough (overwrite memory (List.replicate 3000 0)) chunks

/-- What `main` returns, and what it has printed. -/
structure FilterEnd where
  status : ℤ
  output : List Byte
  deriving DecidableEq, Repr

/-- `main`, for the octets each `read` gives. -/
def filterMain (env : FilterEnv) (memory : List Byte) (flm : Option (List Byte))
    (chunks : List (List Byte)) : Except FilterFault FilterEnd :=
  match flm with
  | none => .ok ⟨1, passThrough memory chunks⟩
  | some flm => do
    match ← (filterMedias env.cleared flm).result with
    | none => .ok ⟨-1, []⟩
    | some ts => do
      let tapes ← chunkTapes env { ctx := { mediaTypes := ts } } chunks
      .ok ⟨0, printedAll tapes⟩

/-! ## Tokens -/

/-- What is between the delimiters, as far as it is not empty. -/
def tokensOf (delim : Byte) (s : List Byte) : List (List Byte) :=
  (s.splitOn delim).filter (· ≠ [])

section
variable {delim : Byte} {s t context : List Byte}

/-- A delimiter at the start is skipped. -/
theorem tokensOf_delim (delim : Byte) (s : List Byte) :
    tokensOf delim (delim :: s) = tokensOf delim s := by
  have hsplit := List.splitOn_append_cons_self_of_not_mem (List.not_mem_nil (a := delim)) s
  rw [List.nil_append] at hsplit
  rw [tokensOf, hsplit]
  rfl

/-- The octets up to the first delimiter are the first token. -/
theorem tokensOf_append (ht : t ≠ []) (hfree : delim ∉ t) (s : List Byte) :
    tokensOf delim (t ++ delim :: s) = t :: tokensOf delim s := by
  rw [tokensOf, List.splitOn_append_cons_self_of_not_mem hfree,
    List.filter_cons_of_pos (by simpa using ht)]
  rfl

/-- Octets without a delimiter are one token. -/
theorem tokensOf_single (ht : t ≠ []) (hfree : delim ∉ t) : tokensOf delim t = [t] := by
  rw [tokensOf, List.splitOn_eq_singleton hfree, List.filter_cons_of_pos (by simpa using ht)]
  rfl

/-- A token that is found: where it begins, and what ends it. -/
structure NextToken (delim : Byte) (s t context : List Byte) : Prop where
  ne : t ≠ []
  free : delim ∉ t
  sublist : (t ++ context).Sublist s
  shorter : context.length < s.length
  tokens : tokensOf delim s = t :: tokensOf delim context

/-- **The next token.** -/
theorem strtokR_cases (delim : Byte) (s : List Byte) :
    (strtokR delim s = none ∧ tokensOf delim s = []) ∨
      ∃ t context, strtokR delim s = some (t, context) ∧ NextToken delim s t context := by
  induction s with
  | nil => exact .inl ⟨rfl, rfl⟩
  | cons c s ih =>
    by_cases hc : c = delim
    · subst hc
      have hskip : strtokR c (c :: s) = strtokR c s := by simp [strtokR]
      rw [hskip, tokensOf_delim]
      rcases ih with hnone | ⟨t, context, hsome, hnext⟩
      · exact .inl hnone
      · refine .inr ⟨t, context, hsome, ?_⟩
        exact
        { hnext with
          sublist := hnext.sublist.trans (List.sublist_cons_self c s)
          shorter := Nat.lt_succ_of_lt hnext.shorter
          tokens := (tokensOf_delim c s).trans hnext.tokens }
    · right
      -- the octet belongs to the token
      have hdrop : (c :: s).dropWhile (· = delim) = c :: s := by simp [hc]
      have hne : (c :: s).takeWhile (· ≠ delim) ≠ [] := by simp [hc]
      have hfree : delim ∉ (c :: s).takeWhile (· ≠ delim) := by
        intro hmem
        have hall := List.all_takeWhile (p := (· ≠ delim)) (l := c :: s)
        exact absurd (List.all_eq_true.mp hall delim hmem) (by simp)
      have hsplit := List.takeWhile_append_dropWhile (p := (· ≠ delim)) (l := c :: s)
      refine ⟨(c :: s).takeWhile (· ≠ delim), ((c :: s).dropWhile (· ≠ delim)).drop 1,
        by rw [strtokR, hdrop], hne, hfree, ?_, ?_, ?_⟩
      · conv_rhs => rw [← hsplit]
        exact (List.Sublist.refl _).append (List.drop_sublist 1 _)
      · have hlen := congrArg List.length hsplit
        have hpos := List.length_pos_iff.mpr hne
        rw [List.length_append] at hlen
        rw [List.length_drop]
        omega
      · cases hrest : (c :: s).dropWhile (· ≠ delim) with
        | nil =>
          rw [hrest, List.append_nil] at hsplit
          conv_lhs => rw [← hsplit]
          rw [tokensOf_single hne hfree]
          rfl
        | cons d rest =>
          have hd : d = delim := by
            have hhead := List.head?_dropWhile_not (· ≠ delim) (c :: s)
            rw [hrest] at hhead
            simpa using hhead
          subst hd
          rw [hrest] at hsplit
          conv_lhs => rw [← hsplit]
          rw [tokensOf_append hne hfree]
          rfl

/-- No token has the delimiter. -/
theorem delim_notMem (ht : t ∈ tokensOf delim s) : delim ∉ t := by
  induction hn : s.length using Nat.strong_induction_on generalizing s with
  | _ n ih =>
    rcases strtokR_cases delim s with ⟨-, htokens⟩ | ⟨t', context, -, hnext⟩
    · rw [htokens] at ht
      cases ht
    · rw [hnext.tokens] at ht
      rcases List.mem_cons.mp ht with rfl | ht
      · exact hnext.free
      · exact ih context.length (hn ▸ hnext.shorter) ht rfl

end

/-! ## Reading the variable -/

/-- A type and a subtype that can be told apart in the variable. -/
structure ProperEntry (e : List Byte × List Byte) : Prop where
  type : e.1 ≠ [] ∧ COMMA ∉ e.1 ∧ SLASH ∉ e.1
  subtype : e.2 ≠ [] ∧ COMMA ∉ e.2 ∧ SLASH ∉ e.2

/-- The entries of tokens, up to the first that has less than two parts. -/
def entriesUpTo : List (List Byte) → List (List Byte × List Byte)
  | [] => []
  | t :: ts =>
    match mediaOf t with
    | none => []
    | some e => e :: entriesUpTo ts

/-- The entries that are read. -/
def entriesOf (flm : List Byte) : List (List Byte × List Byte) := entriesUpTo (tokensOf COMMA flm)

/-- How an entry is written. -/
def entryText (e : List Byte × List Byte) : List Byte := e.1 ++ SLASH :: e.2

/-- How a list of entries is written. -/
def mediasText (entries : List (List Byte × List Byte)) : List Byte :=
  [COMMA].intercalate (entries.map entryText)

section
variable {cleared : Bool} {flm current context : List Byte} {e : List Byte × List Byte}
  {entries : List (List Byte × List Byte)}

/-- A token is refused exactly when it has less than two parts. -/
theorem mediaOf_eq_none : mediaOf current = none ↔ (tokensOf SLASH current).length < 2 := by
  rw [mediaOf]
  rcases strtokR_cases SLASH current with ⟨hnone, htokens⟩ | ⟨type, context, hsome, htype⟩
  · rw [hnone, htokens]
    exact iff_of_true rfl (by decide)
  · rw [hsome, htype.tokens]
    show (strtokR SLASH context >>= _) = none ↔ _
    rcases strtokR_cases SLASH context with ⟨hnone, htokens⟩ | ⟨subtype, rest, hsome', hsubtype⟩
    · rw [hnone, htokens]
      exact iff_of_true rfl (by simp)
    · rw [hsome', hsubtype.tokens]
      exact iff_of_false (by simp) (by simp)

/-- What is read of a token is an entry. -/
theorem mediaOf_proper (hfree : COMMA ∉ current) (h : mediaOf current = some e) :
    ProperEntry e := by
  rw [mediaOf] at h
  rcases strtokR_cases SLASH current with ⟨hnone, -⟩ | ⟨type, context, hsome, htype⟩
  · rw [hnone] at h
    cases h
  · rw [hsome] at h
    change (strtokR SLASH context >>= _) = some e at h
    rcases strtokR_cases SLASH context with ⟨hnone, -⟩ | ⟨subtype, rest, hsome', hsubtype⟩
    · rw [hnone] at h
      cases h
    · rw [hsome'] at h
      obtain rfl := Option.some.inj h
      have hctx : COMMA ∉ context := fun hmem =>
        hfree (htype.sublist.subset (List.mem_append_right type hmem))
      exact ⟨⟨htype.ne, fun hmem => hfree (htype.sublist.subset (List.mem_append_left _ hmem)),
          htype.free⟩, hsubtype.ne,
        fun hmem => hctx (hsubtype.sublist.subset (List.mem_append_left _ hmem)), hsubtype.free⟩

/-- An entry that is written is read. -/
theorem mediaOf_entryText (he : ProperEntry e) : mediaOf (entryText e) = some e := by
  have htype := tokensOf_append he.type.1 he.type.2.2 e.2
  rw [tokensOf_single he.subtype.1 he.subtype.2.2] at htype
  rw [mediaOf]
  rcases strtokR_cases SLASH (entryText e) with ⟨-, htokens⟩ | ⟨type, context, hsome, hnext⟩
  · rw [entryText, htype] at htokens
    cases htokens
  · have htokens := hnext.tokens
    rw [entryText, htype] at htokens
    obtain ⟨rfl, hrest⟩ := List.cons.inj htokens
    rw [hsome]
    show (strtokR SLASH context >>= _) = _
    rcases strtokR_cases SLASH context with ⟨-, hnil⟩ | ⟨subtype, rest, hsome', hnext'⟩
    · rw [hnil] at hrest
      cases hrest
    · rw [hnext'.tokens] at hrest
      obtain ⟨rfl, -⟩ := List.cons.inj hrest
      rw [hsome']
      rfl

/-- A token that is an entry is followed by the entries behind it. -/
theorem entriesUpTo_cons {t : List Byte} (h : mediaOf t = some e) (ts : List (List Byte)) :
    entriesUpTo (t :: ts) = e :: entriesUpTo ts := by
  rw [entriesUpTo, h]

/-- **The loop** over the tokens, which ends before the counter does. -/
theorem mediasFrom_eq {n : ℕ} (h : context.length < n) (ts : List TypeList) :
    mediasFrom cleared n context ts =
      (entriesOf context).foldlM (fun ts e => addMediaType cleared e.1 e.2 ts) ts >>= fun ts =>
        pure (if ∃ t ∈ tokensOf COMMA context, mediaOf t = none then none else some ts) := by
  induction n generalizing context ts with
  | zero => exact absurd h (Nat.not_lt_zero _)
  | succ n ih =>
    rw [mediasFrom, entriesOf]
    rcases strtokR_cases COMMA context with ⟨hnone, htokens⟩ | ⟨current, rest, hsome, hnext⟩
    · rw [hnone, htokens]
      simp [entriesUpTo]
    · have hlen := hnext.shorter
      rw [hsome, hnext.tokens]
      simp only
      cases hmedia : mediaOf current with
      | none => simp [entriesUpTo, hmedia]
      | some e =>
        have hrefused : (∃ t ∈ current :: tokensOf COMMA rest, mediaOf t = none) ↔
            ∃ t ∈ tokensOf COMMA rest, mediaOf t = none := by simp [hmedia]
        rw [entriesUpTo_cons hmedia, List.foldlM_cons, Traced.bind_assoc]
        refine congrArg (addMediaType cleared e.1 e.2 ts >>= ·) (funext fun ts' => ?_)
        rw [ih (by omega)]
        simp only [hrefused]
        rfl

/-- **What is made of the variable**: the list of the entries, unless a token has none. -/
theorem filterMedias_eq (cleared : Bool) (flm : List Byte) :
    filterMedias cleared flm = addMediaTypes cleared (entriesOf flm) >>= fun ts =>
      pure (if ∃ t ∈ tokensOf COMMA flm, mediaOf t = none then none else some ts) :=
  mediasFrom_eq (Nat.lt_succ_self _) []

/-- What the list comes to: refused where a token is no entry, and the table of the entries else.
-/
theorem filterMedias_result (flm : List Byte) :
    (filterMedias true flm).result = .ok
      (if ∃ t ∈ tokensOf COMMA flm, mediaOf t = none then none
        else some (mediaTypesOf (entriesOf flm))) := by
  rw [filterMedias_eq, bind_of_ok (addMediaTypes_result _)]
  rfl

/-- No block is overrun exactly when the names fit. -/
theorem filterMedias_all (flm : List Byte) :
    (filterMedias true flm).All BlockWrite.Inside ↔ NamesFit (entriesOf flm) := by
  rw [filterMedias_eq, all_bind, addMediaTypes_all]
  exact and_iff_left fun _ _ => all_pure

/-- Memory that is not cleared is taken for a type, as soon as there is an entry. -/
theorem filterMedias_uncleared (h : entriesOf flm ≠ []) :
    filterMedias false flm = fail .uninitialised := by
  obtain ⟨e, es, hes⟩ := List.exists_cons_of_ne_nil h
  rw [filterMedias_eq, hes]
  rfl

/-- Every entry that is read is one of a token. -/
theorem mem_entriesUpTo {ts : List (List Byte)} (h : e ∈ entriesUpTo ts) :
    ∃ t ∈ ts, mediaOf t = some e := by
  induction ts with
  | nil => exact absurd h List.not_mem_nil
  | cons t ts ih =>
    cases hmedia : mediaOf t with
    | none =>
      rw [entriesUpTo, hmedia] at h
      exact absurd h List.not_mem_nil
    | some d =>
      rw [entriesUpTo_cons hmedia] at h
      rcases List.mem_cons.mp h with rfl | h
      · exact ⟨t, List.mem_cons_self, hmedia⟩
      · obtain ⟨t', ht', heq⟩ := ih h
        exact ⟨t', List.mem_cons_of_mem t ht', heq⟩

/-- Without a token that is refused, there is an entry for each. -/
theorem length_entriesUpTo {ts : List (List Byte)} (h : ¬ ∃ t ∈ ts, mediaOf t = none) :
    (entriesUpTo ts).length = ts.length := by
  induction ts with
  | nil => rfl
  | cons t ts ih =>
    cases hmedia : mediaOf t with
    | none => exact absurd ⟨t, List.mem_cons_self, hmedia⟩ h
    | some e =>
      rw [entriesUpTo_cons hmedia, List.length_cons, List.length_cons,
        ih fun ⟨t', ht', hnone⟩ => h ⟨t', List.mem_cons_of_mem t ht', hnone⟩]

/-- An entry as it is written is one token. -/
theorem entryText_free (he : ProperEntry e) : entryText e ≠ [] ∧ COMMA ∉ entryText e := by
  refine ⟨by simp [entryText], fun hmem => ?_⟩
  rcases List.mem_append.mp hmem with hmem | hmem
  · exact he.type.2.1 hmem
  · rcases List.mem_cons.mp hmem with heq | hmem
    · exact absurd heq (by decide)
    · exact he.subtype.2.1 hmem

/-- The tokens of a written list are its entries. -/
theorem tokensOf_mediasText (h : ∀ e ∈ entries, ProperEntry e) :
    tokensOf COMMA (mediasText entries) = entries.map entryText := by
  rw [mediasText]
  cases entries with
  | nil => rfl
  | cons e entries =>
    rw [tokensOf, List.splitOn_intercalate COMMA _ (by simp)]
    · refine List.filter_eq_self.mpr fun t ht => ?_
      obtain ⟨e', he', rfl⟩ := List.mem_map.mp ht
      simpa using (entryText_free (h e' he')).1
    · intro t ht
      obtain ⟨e', he', rfl⟩ := List.mem_map.mp ht
      exact (entryText_free (h e' he')).2

/-- What is read of a list of entries that is written. -/
theorem entriesOf_mediasText {entries : List (List Byte × List Byte)}
    (h : ∀ e ∈ entries, ProperEntry e) : entriesOf (mediasText entries) = entries ∧
      ¬ ∃ t ∈ tokensOf COMMA (mediasText entries), mediaOf t = none := by
  rw [entriesOf, tokensOf_mediasText h]
  constructor
  · induction entries with
    | nil => rfl
    | cons e entries ih =>
      rw [List.map_cons, entriesUpTo_cons (mediaOf_entryText (h e List.mem_cons_self)),
        ih fun e' he' => h e' (List.mem_cons_of_mem e he')]
  · rintro ⟨t, ht, hnone⟩
    obtain ⟨e, he, rfl⟩ := List.mem_map.mp ht
    rw [mediaOf_entryText (h e he)] at hnone
    cases hnone

end

/-- What the filter makes of the variable: it stays within its memory, and has this list of types,
or none where `main` returns -1. -/
structure MediasRead (flm : List Byte) (made : Option (List TypeList)) : Prop where
  inside : (filterMedias true flm).All BlockWrite.Inside
  result : (filterMedias true flm).result = .ok made

/-- A list of entries is read back from its text, when the names have room. -/
theorem mediasRead_mediasText {entries : List (List Byte × List Byte)}
    (h : ∀ e ∈ entries, ProperEntry e) (hnames : NamesFit entries) :
    MediasRead (mediasText entries) (some (mediaTypesOf entries)) := by
  obtain ⟨hread, hnone⟩ := entriesOf_mediasText h
  constructor
  · rw [filterMedias_all, hread]
    exact hnames
  · rw [filterMedias_result, hread, if_neg hnone]

section
variable {memory bs chunk : List Byte} {chunks : List (List Byte)}

/-- A string ends at its first NUL. -/
theorem cstr_append_nul (bs rest : List Byte) : cstr (bs ++ 0 :: rest) = cstr bs := by
  induction bs with
  | nil => rfl
  | cons c bs ih =>
    rw [cstr] at ih ⊢
    rw [cstr, List.cons_append, List.takeWhile_cons, List.takeWhile_cons, ih]
    rfl

/-- Behind an octet that is cleared, only the chunk is printed. -/
theorem cstr_overwrite (h : memory[chunk.length]? = some 0) :
    cstr (overwrite memory chunk) = cstr chunk := by
  obtain ⟨hlt, heq⟩ := List.getElem?_eq_some_iff.mp h
  rw [overwrite, List.drop_eq_getElem_cons hlt, heq, cstr_append_nul]

/-- The array is cleared, and has room for more than a chunk. -/
theorem passThrough_cleared {rest : List Byte}
    (hsize : ∀ chunk ∈ chunks, chunk.length ≤ 2048) :
    passThrough (overwrite rest (List.replicate 3000 0)) chunks = chunks.flatMap cstr := by
  induction chunks generalizing rest with
  | nil => rfl
  | cons chunk chunks ih =>
    have hchunk := hsize chunk List.mem_cons_self
    have hzero : (overwrite rest (List.replicate 3000 0))[chunk.length]? = some 0 := by
      rw [overwrite, List.getElem?_append_left (by rw [List.length_replicate]; omega),
        List.getElem?_replicate, if_pos (by omega)]
    rw [passThrough, cstr_overwrite hzero, List.flatMap_cons,
      ih fun c hc => hsize c (List.mem_cons_of_mem chunk hc)]

/-- Chunks without a NUL are copied whole. -/
theorem flatMap_cstr (h : 0 ∉ chunks.flatten) : chunks.flatMap cstr = chunks.flatten := by
  induction chunks with
  | nil => rfl
  | cons chunk chunks ih =>
    rw [List.flatten_cons, List.mem_append, not_or] at h
    rw [List.flatMap_cons, List.flatten_cons, cstr_of_free h.1, ih h.2]

end

/-- **Without `FILTER_MEDIAS`** the mail is printed as it is read, each chunk up to its first NUL,
but behind the first chunk comes what was in the array; so a mail without NUL is printed as it is
exactly when the array has a NUL there. -/
theorem pass_through (env : FilterEnv) {memory bs : List Byte} {chunks : List (List Byte)}
    (hsize : 3000 ≤ memory.length) (hchunks : Chunks bs chunks) :
    filterMain env memory none chunks =
        .ok ⟨1, cstr (overwrite memory (chunks.headD [])) ++ chunks.tail.flatMap cstr⟩ ∧
      (0 ∉ bs → (filterMain env memory none chunks = .ok ⟨1, bs⟩ ↔
        memory[(chunks.headD []).length]? = some 0)) := by
  have hprinted : passThrough memory chunks =
      cstr (overwrite memory (chunks.headD [])) ++ chunks.tail.flatMap cstr := by
    cases chunks with
    | nil => exact (List.append_nil _).symm
    | cons chunk chunks =>
      rw [passThrough,
        passThrough_cleared fun c hc => (hchunks.size c (List.mem_cons_of_mem _ hc)).2]
      rfl
  have hmain : filterMain env memory none chunks =
      .ok ⟨1, cstr (overwrite memory (chunks.headD [])) ++ chunks.tail.flatMap cstr⟩ := by
    rw [filterMain, hprinted]
  refine ⟨hmain, fun hbs => ?_⟩
  have hfirst : (chunks.headD []).length ≤ 2048 := by
    cases chunks with
    | nil => exact Nat.zero_le _
    | cons chunk chunks => exact (hchunks.size chunk List.mem_cons_self).2
  have hsplit : bs = chunks.headD [] ++ chunks.tail.flatten := by
    rw [← hchunks.flatten]
    cases chunks <;> rfl
  have hfree : 0 ∉ chunks.headD [] ∧ 0 ∉ chunks.tail.flatten := by
    rw [hsplit, List.mem_append, not_or] at hbs
    exact hbs
  have hbehind : cstr (overwrite memory (chunks.headD [])) =
      chunks.headD [] ++ cstr (memory.drop (chunks.headD []).length) := cstr_append hfree.1 _
  rw [hmain, flatMap_cstr hfree.2, hbehind]
  conv_lhs => rw [hsplit]
  have hlt : (chunks.headD []).length < memory.length := by omega
  rw [Except.ok.injEq, FilterEnd.mk.injEq, and_iff_right rfl, List.append_assoc,
    List.append_cancel_left_eq, List.append_left_eq_self, List.drop_eq_getElem_cons hlt,
    List.getElem?_eq_getElem hlt, Option.some.injEq, cstr, List.takeWhile_cons]
  split_ifs with hnul
  · exact iff_of_false (by simp) (by simpa using hnul)
  · exact iff_of_true rfl (by simpa using hnul)

/-- What was in the array follows the mail. -/
theorem pass_through_leaks : filterMain {} (ascii "secret" ++ List.replicate 2994 0) none
    [ascii "ok"] = .ok ⟨1, ascii "okcret"⟩ ∧
    ¬ filterMain {} (ascii "secret" ++ List.replicate 2994 0) none [ascii "ok"] =
      .ok ⟨1, ascii "ok"⟩ := by
  have hchunks : Chunks (ascii "ok") [ascii "ok"] := ⟨rfl, by decide⟩
  have hsize : 3000 ≤ (ascii "secret" ++ List.replicate 2994 0).length := by
    rw [List.length_append, List.length_replicate]
    decide
  obtain ⟨hmain, hiff⟩ := pass_through {} hsize hchunks
  refine ⟨hmain.trans rfl, fun h => ?_⟩
  have hnul := (hiff (by decide)).mp h
  rw [List.getElem?_append_left (by decide)] at hnul
  exact absurd hnul (by decide)

end Pop3Proxy
