/-
# Banning media types

From the line of the operator to `FILTER_MEDIAS`: the words of the line, the request
they become, the message, and the list the server makes of it.
-/
import Pop3Proxy.Admin.AdminClient
import Pop3Proxy.Admin.Confined

namespace Pop3Proxy

open Traced

/-- `trans mod mime ban` -/
def banWords : List (List Byte) := [ascii "trans", ascii "mod", ascii "mime", ascii "ban"]

/-- `trans mod mime ban t1 … tk`, and the newline. -/
def banLine (ts : List (List Byte)) : List Byte := [SP].intercalate (banWords ++ ts) ++ [LF]

/-- A media type as the operator writes it. -/
def PlainType (t : List Byte) : Prop := ∀ c ∈ t, c ≠ SP ∧ c ≠ COMMA ∧ c ≠ LF ∧ c ≠ 0

instance (t : List Byte) : Decidable (PlainType t) :=
  inferInstanceAs (Decidable (∀ c ∈ t, _))

/-- The line leaves no array of the client and is sent, and the request, when memory for
its parameters is given, makes the list of exactly these types. -/
def BanArrives (ts : List (List Byte)) (more : List Byte) (c : ClientMemory) (unset : Byte)
    (sent : Bool) (m : AdminMemory) (g : Globals) : Prop :=
  (clientRound (banLine ts ++ more) c).All ClientAccess.Inside ∧
    ∃ r : Received, (clientRound (banLine ts ++ more) c).result = .ok (some r.octets) ∧
      ∃ state m' g', (requestRead (some r) ⟨true, unset, sent⟩ m g).result = .ok (state, m', g') ∧
        g'.filterMedias = some ([COMMA].intercalate ts)

section
variable {ts ss : List (List Byte)} {t : List Byte} {x : Byte}

/-! ## Words between separators -/

/-- An octet of joined words is the separator, or is in one of them. -/
theorem mem_intercalate {y : Byte} : y ∈ [x].intercalate ss →
    y = x ∨ ∃ s ∈ ss, y ∈ s := by
  intro hy
  induction ss with
  | nil => exact absurd hy List.not_mem_nil
  | cons s ss ih =>
    by_cases hnil : ss = []
    · rw [hnil, List.intercalate_singleton] at hy
      exact .inr ⟨s, by simp, hy⟩
    rw [List.intercalate_cons_of_ne_nil hnil, List.append_assoc, List.singleton_append] at hy
    rcases List.mem_append.mp hy with hy | hy
    · exact .inr ⟨s, by simp, hy⟩
    rcases List.mem_cons.mp hy with rfl | hy
    · exact .inl rfl
    · rcases ih hy with hy | ⟨u, hu, hy⟩
      · exact .inl hy
      · exact .inr ⟨u, by simp [hu], hy⟩

/-- An octet of a word is among them. -/
theorem mem_intercalate_of_mem {y : Byte} {s : List Byte} (hs : s ∈ ss) (hy : y ∈ s) :
    y ∈ [x].intercalate ss := by
  induction ss with
  | nil => exact absurd hs List.not_mem_nil
  | cons u ss ih =>
    by_cases hnil : ss = []
    · subst hnil
      obtain rfl := List.mem_singleton.mp hs
      rw [List.intercalate_singleton]
      exact hy
    rw [List.intercalate_cons_of_ne_nil hnil]
    rcases List.mem_cons.mp hs with rfl | hs
    · simp [hy]
    · exact List.mem_append_right _ (ih hs)

/-- A comma stands between two types. -/
theorem joinedTypes_cons_cons (s u : List Byte) (ss : List (List Byte)) :
    joinedTypes (s :: u :: ss) = s ++ COMMA :: joinedTypes (u :: ss) := rfl

/-- The list as `setenv` sees it. -/
theorem cstr_joinedTypes (hne : ss ≠ []) (hss : ∀ s ∈ ss, (0 : Byte) ∉ s) :
    cstr (joinedTypes ss) = [COMMA].intercalate ss := by
  induction ss with
  | nil => exact absurd rfl hne
  | cons s ss ih =>
    have hs : (0 : Byte) ∉ s := hss s (by simp)
    cases ss with
    | nil =>
      rw [joinedTypes, List.intercalate_singleton, cstr_append hs]
      exact List.append_nil s
    | cons u ss =>
      have hcomma : (0 : Byte) ∉ s ++ [COMMA] := by
        simp [hs, COMMA]
      rw [joinedTypes_cons_cons, List.intercalate_cons_of_ne_nil (by simp), ← List.singleton_append,
        ← List.append_assoc, cstr_append hcomma, ih (by simp) fun v hv => hss v (by simp [hv])]

/-! ## The words of the line -/

/-- The newline belongs to the last word. -/
def endLast : List (List Byte) → List (List Byte)
  | [] => []
  | [t] => [t ++ [LF]]
  | t :: ts => t :: endLast ts

/-- Only the last word gets the newline. -/
theorem endLast_cons_cons (t u : List Byte) (ts : List (List Byte)) :
    endLast (t :: u :: ts) = t :: endLast (u :: ts) := rfl

/-- No word is lost. -/
theorem endLast_ne_nil (h : ts ≠ []) : endLast ts ≠ [] := by
  obtain ⟨t, ts, rfl⟩ := List.exists_cons_of_ne_nil h
  cases ts with
  | nil => exact nofun
  | cons u ts => exact nofun

/-- Words in front are as they are. -/
theorem endLast_append (ws : List (List Byte)) (h : ts ≠ []) :
    endLast (ws ++ ts) = ws ++ endLast ts := by
  induction ws with
  | nil => rfl
  | cons w ws ih =>
    obtain ⟨u, us, hus⟩ := List.exists_cons_of_ne_nil (List.append_ne_nil_of_right_ne_nil ws h)
    rw [List.cons_append, List.cons_append, ← ih, hus, endLast_cons_cons]

/-- A line with its newline is the words, the last one with the newline. -/
theorem intercalate_endLast (h : ss ≠ []) :
    [SP].intercalate ss ++ [LF] = [SP].intercalate (endLast ss) := by
  induction ss with
  | nil => exact absurd rfl h
  | cons s ss ih =>
    cases ss with
    | nil => rw [endLast, List.intercalate_singleton, List.intercalate_singleton]
    | cons u ss =>
      rw [endLast_cons_cons, List.intercalate_cons_of_ne_nil (by simp),
        List.intercalate_cons_of_ne_nil (endLast_ne_nil (by simp)), ← ih (by simp)]
      simp

/-- One word has the newline. -/
theorem exists_newline (h : ts ≠ []) : ∃ s ∈ endLast ts, LF ∈ s := by
  induction ts with
  | nil => exact absurd rfl h
  | cons t ts ih =>
    cases ts with
    | nil => exact ⟨t ++ [LF], by simp [endLast], by simp⟩
    | cons u ts =>
      obtain ⟨s, hs, hnewline⟩ := ih (by simp)
      exact ⟨s, List.mem_cons_of_mem t hs, hnewline⟩

/-- An octet of these words is the newline, or is in one of those. -/
theorem mem_endLast {y : Byte} {s : List Byte} (hs : s ∈ endLast ts) (hy : y ∈ s) :
    y = LF ∨ ∃ t ∈ ts, y ∈ t := by
  induction ts with
  | nil => exact absurd hs List.not_mem_nil
  | cons t ts ih =>
    cases ts with
    | nil =>
      obtain rfl := List.mem_singleton.mp hs
      rcases List.mem_append.mp hy with hy | hy
      · exact .inr ⟨t, by simp, hy⟩
      · exact .inl (List.mem_singleton.mp hy)
    | cons u ts =>
      rw [endLast_cons_cons] at hs
      rcases List.mem_cons.mp hs with rfl | hs
      · exact .inr ⟨s, by simp, hy⟩
      · rcases ih hs with h | ⟨v, hv, h⟩
        · exact .inl h
        · exact .inr ⟨v, by simp [hv], h⟩

/-- The types that reach the message. -/
def sentTypes (ts : List (List Byte)) : List (List Byte) := (endLast ts).filter (· ≠ [])

/-- The line is read whole. -/
theorem fgets_banLine {more : List Byte} (hts : ∀ t ∈ ts, PlainType t)
    (hfits : (banLine ts).length < 1000) (temporary : List Byte) :
    fgets 1000 (banLine ts ++ more) temporary = banLine ts := by
  have hplain : ∀ y ∈ [SP].intercalate (banWords ++ ts), y ≠ LF := by
    rintro y hy rfl
    rcases mem_intercalate hy with h | ⟨s, hs, h⟩
    · exact absurd h (by decide)
    rcases List.mem_append.mp hs with hs | hs
    · have hwords : ∀ w ∈ banWords, LF ∉ w := by decide
      exact hwords s hs h
    · exact (hts s hs LF h).2.2.1 rfl
  have htake : (banLine ts ++ more).takeWhile (· ≠ LF) = [SP].intercalate (banWords ++ ts) := by
    rw [banLine, List.append_assoc, List.takeWhile_append_of_pos (by simpa using hplain)]
    simp
  have hmem : LF ∈ banLine ts ++ more := by simp [banLine]
  rw [fgets, if_neg (List.ne_nil_of_mem hmem), htake, if_pos hmem]
  exact List.take_of_length_le (Nat.le_of_lt_succ hfits)

/-- The words of the line. -/
theorem words_banLine (hne : ts ≠ []) (hts : ∀ t ∈ ts, PlainType t) :
    words (banLine ts) = banWords ++ sentTypes ts := by
  have hwords : ∀ w ∈ banWords, SP ∉ w ∧ (0 : Byte) ∉ w := by decide
  have hplain : ∀ s ∈ endLast ts, SP ∉ s ∧ (0 : Byte) ∉ s := by
    intro s hs
    constructor
    · intro hy
      rcases mem_endLast hs hy with h | ⟨t, ht, h⟩
      · exact absurd h (by decide)
      · exact (hts t ht SP h).1 rfl
    · intro hy
      rcases mem_endLast hs hy with h | ⟨t, ht, h⟩
      · exact absurd h (by decide)
      · exact (hts t ht 0 h).2.2.2 rfl
  have hall : ∀ s ∈ banWords ++ endLast ts, SP ∉ s ∧ (0 : Byte) ∉ s := by
    intro s hs
    exact (List.mem_append.mp hs).elim (hwords s) (hplain s)
  have hnul : (0 : Byte) ∉ [SP].intercalate (banWords ++ endLast ts) := by
    intro hy
    rcases mem_intercalate hy with h | ⟨s, hs, h⟩
    · exact absurd h (by decide)
    · exact (hall s hs).2 h
  have hcstr : cstr ([SP].intercalate (banWords ++ endLast ts)) =
      [SP].intercalate (banWords ++ endLast ts) := by
    have hnil := cstr_append hnul []
    rw [List.append_nil] at hnil
    exact hnil.trans (List.append_nil _)
  rw [words, banLine, intercalate_endLast (by simp [banWords]), endLast_append _ hne, hcstr,
    List.splitOn_intercalate SP (fun s hs => (hall s hs).1) (by simp [banWords]),
    List.filter_append]
  rfl

/-! ## The message -/

/-- A parameter goes behind the others. -/
theorem addParameter_eq (parameters : List (List Byte)) (w : List Byte) :
    addParameter parameters w = ⟨[.parameter parameters.length], .ok (parameters ++ [w])⟩ := rfl

/-- The types go behind what is there. -/
theorem addTypes_eq (ws parameters : List (List Byte)) : addTypes ws parameters =
    ⟨(List.range' parameters.length ws.length).map .parameter, .ok (parameters ++ ws)⟩ := by
  induction ws generalizing parameters with
  | nil =>
    rw [List.append_nil]
    rfl
  | cons w ws ih =>
    rw [addTypes, addParameter_eq, mk_ok_bind, ih]
    simp [List.range'_succ]

/-- The request that bans. -/
theorem encodeRequest_ban (hne : ss ≠ []) :
    encodeRequest (banWords ++ ss) (banWords ++ ss).length =
      ⟨(List.range' 0 ss.length).map .parameter, .ok (0x54, ss)⟩ := by
  have hargc : ¬ (banWords ++ ss).length < 5 := by
    have hlen := List.length_pos_iff.mpr hne
    simp only [List.length_append, banWords, List.length_cons, List.length_nil]
    omega
  have hdrop : (banWords ++ ss).drop 4 = ss := rfl
  have hword : ∀ i, i < 4 → argument (banWords ++ ss) i = pure (banWords.getD i []) := by
    intro i hi
    obtain rfl | rfl | rfl | rfl : i = 0 ∨ i = 1 ∨ i = 2 ∨ i = 3 := by omega
    all_goals rfl
  have htrans : transEncoder (banWords ++ ss) (banWords ++ ss).length 0x40 =
      addTypes ss [] >>= fun parameters => pure (0x40 ||| 0x10 ||| 0x04, parameters) := by
    rw [transEncoder, hword 1 (by omega), pure_bind, if_neg (by decide), if_pos (by decide),
      if_neg hargc, hword 2 (by omega), pure_bind, if_neg (by decide), if_pos (by decide),
      hword 3 (by omega), pure_bind, if_pos (by decide), hdrop]
  rw [encodeRequest, hword 0 (by omega), pure_bind, if_neg (by decide), if_pos (by decide), htrans,
    addTypes_eq, mk_ok_bind]
  exact Traced.ext (List.append_nil _) rfl

/-- The parameters are copied one behind the other. -/
theorem copyParameters_eq (ss : List (List Byte)) (before after : List Byte)
    (hfits : (terminatedStrings ss).length ≤ after.length) : ∃ l after',
      copyParameters ss before.length (before ++ after) =
        ⟨l, .ok (before ++ (terminatedStrings ss ++ after'))⟩ ∧
      (terminatedStrings ss).length + after'.length = after.length := by
  induction ss generalizing before after with
  | nil => exact ⟨[], after, rfl, by simp [terminatedStrings]⟩
  | cons s ss ih =>
    rw [terminatedStrings_cons, List.length_append, List.length_cons] at hfits
    have hsplice : splice (before ++ after) before.length (s ++ [0]) =
        (before ++ s ++ [0]) ++ after.drop (s.length + 1) := by
      rw [splice, List.take_left, ← List.append_assoc, List.length_append, List.length_singleton,
        ← List.drop_drop, List.drop_left]
    have hlen : (before ++ s ++ [0]).length = before.length + s.length + 1 := by
      simp only [List.length_append, List.length_singleton]
    have hfits' : (terminatedStrings ss).length ≤ (after.drop (s.length + 1)).length := by
      rw [List.length_drop]
      omega
    obtain ⟨l, after', hrest, hafter⟩ := ih (before ++ s ++ [0]) _ hfits'
    rw [hlen] at hrest
    refine ⟨(List.range' before.length (s.length + 1)).map .message ++ l, after', ?_, ?_⟩
    · rw [copyParameters, hsplice, hrest, notes_bind, terminatedStrings_cons]
      simp
    · rw [List.length_drop] at hafter
      rw [terminatedStrings_cons, List.length_append, List.length_cons]
      omega

/-- **The message**: two octets, the parameters, and what was there before. -/
theorem composeMessage_eq (ebyte : Byte) (c : ClientMemory)
    (hfits : (terminatedStrings ss).length + 2 ≤ maxBuffer) : ∃ l rest,
      composeMessage ebyte ss c =
        ⟨l, .ok (ebyte :: UInt8.ofNat ss.length :: (terminatedStrings ss ++ rest))⟩ ∧
      (terminatedStrings ss).length + rest.length + 2 = maxBuffer := by
  have hsize := c.size
  obtain ⟨x, y, after, hoctets⟩ : ∃ x y after, c.octets = x :: y :: after := by
    obtain ⟨x, xs, hx⟩ := List.exists_cons_of_length_pos (by omega : 0 < c.octets.length)
    rw [hx, List.length_cons] at hsize
    obtain ⟨y, after, hy⟩ := List.exists_cons_of_length_pos (by omega : 0 < xs.length)
    exact ⟨x, y, after, by rw [hx, hy]⟩
  rw [hoctets, List.length_cons, List.length_cons] at hsize
  obtain ⟨l, after', hcopy, hafter⟩ :=
    copyParameters_eq ss [ebyte, UInt8.ofNat ss.length] after (by omega)
  have hset : (c.octets.set 0 ebyte).set 1 (UInt8.ofNat ss.length) =
      [ebyte, UInt8.ofNat ss.length] ++ after := by
    rw [hoctets]
    rfl
  have hcopy' : copyParameters ss 2 ([ebyte, UInt8.ofNat ss.length] ++ after) = _ := hcopy
  obtain ⟨room, hroom⟩ : ∃ room, maxBuffer = (terminatedStrings ss).length + room + 2 :=
    ⟨maxBuffer - (terminatedStrings ss).length - 2, by omega⟩
  have htake : ([ebyte, UInt8.ofNat ss.length] ++ (terminatedStrings ss ++ after')).take maxBuffer =
      ebyte :: UInt8.ofNat ss.length :: (terminatedStrings ss ++ after'.take room) := by
    rw [hroom, List.cons_append, List.cons_append, List.nil_append, List.take_succ_cons,
      List.take_succ_cons, List.take_length_add_append]
  refine ⟨[.message 0, .message 1] ++ l, after'.take room, ?_, ?_⟩
  · rw [composeMessage, notes_bind]
    simp only [hset, hcopy', mk_ok_bind, htake]
    exact Traced.ext (by simp) rfl
  · rw [List.length_take]
    omega

/-! ## The request -/

/-- A message that says what the client wanted. -/
theorem requestRead_bans {r : Received} {unset : Byte} {sent : Bool} (m : AdminMemory) (g : Globals)
    (hne : ss ≠ []) (hss : ∀ s ∈ ss, (0 : Byte) ∉ s) (hop : r.operation = 0x54)
    (hannounced : r.announced = ss.length) {rest : List Byte}
    (hstrings : r.strings = terminatedStrings ss ++ rest) :
    ∃ state m' g', (requestRead (some r) ⟨true, unset, sent⟩ m g).result = .ok (state, m', g') ∧
      g'.filterMedias = some ([COMMA].intercalate ss) := by
  have hlen : 2 ≤ r.octets.length := by
    by_contra hshort
    have hnil : r.strings = [] := List.drop_eq_nil_of_le (by omega)
    obtain ⟨s, ss, rfl⟩ := List.exists_cons_of_ne_nil hne
    rw [hnil, terminatedStrings_cons] at hstrings
    exact absurd hstrings (by simp)
  obtain ⟨rest', hdrop⟩ := receive_drop m.bzero hlen
  rw [hstrings, List.append_assoc] at hdrop
  obtain ⟨l, hparse, -, -⟩ := parseParameters_within (i := 0) hss hdrop
  have hprint := printParameters_eq [] ss
  rw [List.nil_append, List.length_nil] at hprint
  obtain ⟨l', hban, -⟩ := ban_eq hne g
  rw [cstr_joinedTypes hne hss] at hban
  have hdecode : decodeRequest 0x54 ss ss.length unset g = ban ss ss.length g := rfl
  rw [requestRead_eq, notes_bind, if_neg (by simp), hannounced, hparse, mk_ok_bind, afterParameters,
    hannounced, hprint, mk_ok_bind, hop, hdecode, hban, mk_ok_bind]
  exact ⟨_, _, _, rfl, rfl⟩

/-! ## From the line to the list -/

/-- Each string takes one octet more than it has. -/
theorem length_terminatedStrings (h : ss ≠ []) :
    (terminatedStrings ss).length = ([SP].intercalate ss).length + 1 := by
  induction ss with
  | nil => exact absurd rfl h
  | cons s ss ih =>
    by_cases hnil : ss = []
    · rw [hnil, List.intercalate_singleton]
      simp [terminatedStrings]
    · rw [terminatedStrings_cons, List.intercalate_cons_of_ne_nil hnil, List.length_append,
        List.length_cons, ih hnil]
      simp only [List.length_append, List.length_singleton]
      omega

/-- Without the empty ones the strings take less. -/
theorem length_terminatedStrings_filter (ss : List (List Byte)) :
    (terminatedStrings (ss.filter (· ≠ []))).length ≤ (terminatedStrings ss).length := by
  induction ss with
  | nil => exact Nat.le_refl _
  | cons s ss ih =>
    rw [List.filter_cons]
    split_ifs
    · rw [terminatedStrings_cons, terminatedStrings_cons, List.length_append, List.length_append,
        List.length_cons, List.length_cons]
      omega
    · rw [terminatedStrings_cons, List.length_append, List.length_cons]
      omega

/-- Strings behind strings. -/
theorem terminatedStrings_append (ss us : List (List Byte)) :
    terminatedStrings (ss ++ us) = terminatedStrings ss ++ terminatedStrings us :=
  List.flatMap_append

/-- The message has room for what a line holds. -/
theorem sentTypes_fit (hne : ts ≠ []) (hfits : (banLine ts).length < 1000) :
    (terminatedStrings (sentTypes ts)).length + 2 ≤ maxBuffer := by
  have hall : (terminatedStrings (banWords ++ endLast ts)).length = (banLine ts).length + 1 := by
    rw [length_terminatedStrings (by simp [banWords]), ← endLast_append _ hne,
      ← intercalate_endLast (by simp [banWords])]
    rfl
  have hsent :
    (terminatedStrings (sentTypes ts)).length ≤ (terminatedStrings (endLast ts)).length :=
    length_terminatedStrings_filter _
  rw [terminatedStrings_append, List.length_append] at hall
  have hmax : 1024 = maxBuffer := rfl
  omega

/-- The newline of the line is in one of the types that are sent. -/
theorem sentTypes_newline (hne : ts ≠ []) : ∃ s ∈ sentTypes ts, LF ∈ s := by
  obtain ⟨s, hs, hnewline⟩ := exists_newline hne
  refine ⟨s, List.mem_filter.mpr ⟨hs, ?_⟩, hnewline⟩
  have hsome : s ≠ [] := List.ne_nil_of_mem hnewline
  simpa using hsome

/-- No type has a NUL in it. -/
theorem sentTypes_noNul (hts : ∀ t ∈ ts, PlainType t) : ∀ s ∈ sentTypes ts, (0 : Byte) ∉ s := by
  intro s hs hnul
  rcases mem_endLast (List.mem_of_mem_filter hs) hnul with h | ⟨t, ht, h⟩
  · exact absurd h (by decide)
  · exact (hts t ht 0 h).2.2.2 rfl

/-- **The round of the client**: a word of the line is stored for each of its words, and the
types are sent, the newline with the last of them. -/
theorem clientRound_ban (hne : ts ≠ []) (hts : ∀ t ∈ ts, PlainType t)
    (hfits : (banLine ts).length < 1000) (more : List Byte) (c : ClientMemory) : ∃ l rest,
      clientRound (banLine ts ++ more) c =
        ⟨(List.range ((sentTypes ts).length + 4)).map .word ++ l,
          .ok (some (0x54 :: UInt8.ofNat (sentTypes ts).length ::
            (terminatedStrings (sentTypes ts) ++ rest)))⟩ ∧
      (terminatedStrings (sentTypes ts)).length + rest.length + 2 = maxBuffer := by
  obtain ⟨s, hs, -⟩ := sentTypes_newline hne
  have hsent : sentTypes ts ≠ [] := List.ne_nil_of_mem hs
  have hlength : (banWords ++ sentTypes ts).length = (sentTypes ts).length + 4 := by
    rw [List.length_append, Nat.add_comm]
    rfl
  have hargc : max 1 (banWords ++ sentTypes ts).length = (banWords ++ sentTypes ts).length := by
    rw [hlength]
    omega
  obtain ⟨l, rest, hmessage, hrest⟩ := composeMessage_eq 0x54 c (sentTypes_fit hne hfits)
  refine ⟨(List.range' 0 (sentTypes ts).length).map .parameter ++ l, rest, ?_, hrest⟩
  rw [clientRound, fgets_banLine hts hfits, words_banLine hne hts]
  simp only [hargc]
  rw [encodeRequest_ban hsent, mk_ok_bind, notes_bind]
  simp only [if_neg (by decide : ¬ (0x54 : Byte) = 0xFF), hmessage, mk_ok_bind, hlength]
  exact Traced.ext (by simp) rfl

/-- **The list that is made**, when the number of types fits its octet. -/
theorem ban_medias (hne : ts ≠ []) (hts : ∀ t ∈ ts, PlainType t) {r : Received} {rest : List Byte}
    (hmessage : r.octets = 0x54 :: UInt8.ofNat (sentTypes ts).length ::
      (terminatedStrings (sentTypes ts) ++ rest)) (hcount : (sentTypes ts).length < 256)
    (unset : Byte) (sent : Bool) (m : AdminMemory) (g : Globals) :
    ∃ state m' g', (requestRead (some r) ⟨true, unset, sent⟩ m g).result = .ok (state, m', g') ∧
      g'.filterMedias = some ([COMMA].intercalate (sentTypes ts)) := by
  obtain ⟨s, hs, -⟩ := sentTypes_newline hne
  apply requestRead_bans m g (List.ne_nil_of_mem hs) (sentTypes_noNul hts)
  · rw [Received.operation, hmessage]
    rfl
  · rw [Received.announced, hmessage]
    show (UInt8.ofNat (sentTypes ts).length).toNat = _
    rw [UInt8.toNat_ofNat']
    exact Nat.mod_eq_of_lt hcount
  · rw [Received.strings, hmessage]
    rfl

/-- The newline is in the list. -/
theorem intercalate_sentTypes (hne : ts ≠ []) (hts : ∀ t ∈ ts, PlainType t) :
    [COMMA].intercalate (sentTypes ts) ≠ [COMMA].intercalate ts := by
  intro heq
  obtain ⟨s, hs, hnewline⟩ := sentTypes_newline hne
  have hsent : LF ∈ [COMMA].intercalate (sentTypes ts) := mem_intercalate_of_mem hs hnewline
  rw [heq] at hsent
  rcases mem_intercalate hsent with h | ⟨t, ht, h⟩
  · exact absurd h (by decide)
  · exact (hts t ht LF h).2.2.1 rfl

/-- **No list of types arrives**: the newline stays with the last one, and from the third
type on the client stores more words than it has room for. -/
theorem ban_altered (hne : ts ≠ []) (hts : ∀ t ∈ ts, PlainType t)
    (hfits : (banLine ts).length < 1000) (more : List Byte) (c : ClientMemory) (unset : Byte)
    (sent : Bool) (m : AdminMemory) (g : Globals) : ¬ BanArrives ts more c unset sent m g := by
  rintro ⟨hinside, r, hresult, state, m', g', hserver, hmedias⟩
  obtain ⟨l, rest, hround, -⟩ := clientRound_ban hne hts hfits more c
  rw [hround] at hinside hresult
  have hmessage := Option.some.inj (Except.ok.inj hresult)
  have hcount : (sentTypes ts).length < 3 := by
    by_contra hmany
    have hword : ClientAccess.word 6 ∈
        (List.range ((sentTypes ts).length + 4)).map ClientAccess.word ++ l := by
      apply List.mem_append_left
      exact List.mem_map_of_mem (List.mem_range.mpr (by omega))
    exact absurd (hinside _ hword) (Nat.lt_irrefl 6)
  obtain ⟨state₁, m₁, g₁, hserver₁, hmedias₁⟩ :=
    ban_medias hne hts hmessage.symm (by omega) unset sent m g
  obtain rfl : g₁ = g' :=
    congrArg (fun out => out.2.2) (Except.ok.inj (hserver₁.symm.trans hserver))
  exact intercalate_sentTypes hne hts (Option.some.inj (hmedias₁.symm.trans hmedias))

/-- Memory that is cleared. -/
def AdminMemory.cleared : AdminMemory where
  octets := List.replicate (maxBuffer + 1) 0
  size := by
    rw [List.length_replicate]
    exact Nat.lt_succ_self _

/-- An empty line has room. -/
theorem length_nil_short : ([] : List Byte).length < 1000 := Nat.zero_lt_succ _

/-- Arrays that are cleared. -/
def ClientMemory.cleared : ClientMemory where
  octets := List.replicate (maxBuffer + 1) 0
  size := length_clearedMessage
  line := []
  short := length_nil_short

/-- One type. -/
theorem ban_altered_png :
    ¬ BanArrives [ascii "image/png"] [] .cleared 0 true .cleared ⟨none, none, 0⟩ :=
  ban_altered (by decide) (by decide +kernel) (by decide +kernel) _ _ _ _ _ _

/-- The list of one type has a newline. -/
theorem newline_banned :
    ¬ ∀ ts more c unset sent m g, ts ≠ [] → (∀ t ∈ ts, PlainType t) → (banLine ts).length < 1000 →
      BanArrives ts more c unset sent m g := by
  intro h
  have hts : ∀ t ∈ [ascii "image/png"], PlainType t := by decide +kernel
  have hfits : (banLine [ascii "image/png"]).length < 1000 := by decide +kernel
  obtain ⟨-, r, hresult, state, m', g', hserver, hmedias⟩ :=
    h [ascii "image/png"] [] .cleared 0 true
    .cleared ⟨none, none, 0⟩ (by decide) hts hfits
  obtain ⟨l, rest, hround, -⟩ := clientRound_ban (by decide) hts hfits [] .cleared
  rw [hround] at hresult
  have hmessage := Option.some.inj (Except.ok.inj hresult)
  obtain ⟨state₁, m₁, g₁, hserver₁, hmedias₁⟩ :=
    ban_medias (by decide) hts hmessage.symm (by decide) 0 true .cleared ⟨none, none, 0⟩
  obtain rfl : g₁ = g' :=
    congrArg (fun out => out.2.2) (Except.ok.inj (hserver₁.symm.trans hserver))
  exact absurd (Option.some.inj (hmedias₁.symm.trans hmedias)) (by decide)

end

end Pop3Proxy
