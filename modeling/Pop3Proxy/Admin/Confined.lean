/-
# What a request touches

A request says how many strings it holds, and the strings end where a NUL is.
Reading as many as are announced stays within what was received when each of them
has come with its NUL, and not otherwise.
-/
import Mathlib.Algebra.GroupWithZero.Nat
import Pop3Proxy.Admin.AdminNio

namespace Pop3Proxy

open Traced

namespace Received

/-- The octet that says what is asked. -/
def operation (r : Received) : Byte := r.octets.headD 0

/-- The number of parameters the second octet announces; a message of one octet has a NUL
behind it. -/
def announced (r : Received) : ℕ := ((r.octets ++ [0]).getD 1 0).toNat

/-- The octets of the parameters. -/
def strings (r : Received) : List Byte := r.octets.drop 2

/-- The parameters that have come with a NUL. -/
def terminated (r : Received) : ℕ := r.strings.count 0

/-- The parameters of the message: the last one may have come without its NUL. -/
def parameters (r : Received) : ℕ :=
  r.terminated + if ∃ c ∈ r.strings.getLast?, c ≠ 0 then 1 else 0

end Received

/-- A message is read, parsed and decoded without anything but the octets received, the
NUL behind them and the parameters they hold. -/
structure Confined (r : Received) (l : List Access) : Prop where
  reads : ∀ i, .read i ∈ l → i ≤ r.octets.length
  writes : ∀ i, .write i ∈ l → i < maxBuffer
  builds : ∀ i, .build i ∈ l → i < r.parameters
  uses : ∀ i, Precedes (.build i) (.use i) l
  pointers : .wild ∉ l

/-- The origin port is asked for. -/
def AsksPort (operation : Byte) : Prop := operation = 0x10 ∨ operation = 0x12

instance (operation : Byte) : Decidable (AsksPort operation) :=
  inferInstanceAs (Decidable (_ ∨ _))

/-- The NUL has its place, there are as many strings as announced, and what asks for
parameters, or for the types that are filtered, finds some. -/
structure Careful (io : AdminIo) (r : Received) (g : Globals) : Prop where
  fits : r.octets.length < maxBuffer
  strings : io.malloc = true → r.announced ≤ r.terminated
  asked : r.announced = 0 → ¬ AsksPort r.operation ∧ r.operation ≠ 0x54
  listed : r.operation = 0x40 → g.filterMedias = none → 0 < r.announced ∧ io.malloc = false

section
variable {m s t tail : List Byte} {ss : List (List Byte)} {p k i : ℕ}

/-! ## The loop over the parameters -/

/-- Strings one after the other, each with its NUL. -/
def terminatedStrings (ss : List (List Byte)) : List Byte := ss.flatMap fun s => s ++ [0]

/-- The first string and its NUL. -/
theorem terminatedStrings_cons (s : List Byte) (ss : List (List Byte)) :
    terminatedStrings (s :: ss) = s ++ 0 :: terminatedStrings ss := by
  rw [terminatedStrings, List.flatMap_cons, List.append_assoc]
  rfl

/-- As many strings as there are NULs. -/
theorem exists_terminatedStrings (hk : k ≤ tail.count 0) : ∃ ss rest, ss.length = k ∧
    (∀ s ∈ ss, (0 : Byte) ∉ s) ∧ tail = terminatedStrings ss ++ rest := by
  induction k generalizing tail with
  | zero => exact ⟨[], tail, rfl, by simp, rfl⟩
  | succ k ih =>
    have hmem : (0 : Byte) ∈ tail := List.count_pos_iff.mp (by omega)
    obtain ⟨s, tail', rfl, hs⟩ := List.eq_append_cons_of_mem hmem
    rw [List.count_append, List.count_cons_self, List.count_eq_zero_of_not_mem hs] at hk
    have hk' : k ≤ tail'.count 0 := by omega
    obtain ⟨ss, rest, hlen, hss, rfl⟩ := ih hk'
    refine ⟨s :: ss, rest, by simp [hlen], ?_, ?_⟩
    · intro u hu
      rcases List.mem_cons.mp hu with rfl | hu
      · exact hs
      · exact hss u hu
    · rw [terminatedStrings_cons]
      simp

/-- What follows a string and its NUL. -/
theorem drop_string (hm : m.drop p = s ++ 0 :: t) : m.drop (p + s.length + 1) = t := by
  rw [Nat.add_assoc, ← List.drop_drop, hm]
  simp

/-- The length of a string that begins within what was received. -/
theorem strlen_within (hm : m.drop p = tail ++ 0 :: t) : ∃ n ≤ tail.length,
    strlen m p = ⟨(List.range' p (n + 1)).map .read, .ok n⟩ := by
  by_cases h : (0 : Byte) ∈ tail
  · obtain ⟨s, tail', rfl, hs⟩ := List.eq_append_cons_of_mem h
    refine ⟨s.length, by simp, strlen_eq (t := tail' ++ 0 :: t) ?_ hs⟩
    rw [hm]
    simp
  · exact ⟨tail.length, Nat.le_refl _, strlen_eq hm h⟩

/-- Building a parameter reads the message, and then it is there. -/
theorem mem_parameterTrace {a : Access} {n : ℕ} (h : a ∈ parameterTrace i p n) :
    (∃ j ≤ p + n, a = .read j) ∨ a = .build i := by
  simp only [parameterTrace, List.mem_append, List.mem_map, List.mem_range'_1,
    List.mem_cons] at h
  rcases h with (⟨j, hj, rfl⟩ | rfl | ⟨j, hj, rfl⟩) | ⟨j, hj, rfl⟩
  · exact .inl ⟨j, by omega, rfl⟩
  · exact .inr rfl
  · exact .inl ⟨j, by omega, rfl⟩
  · exact .inl ⟨j, by omega, rfl⟩

/-- **Strings that have come with their NULs** are read within what was received. -/
theorem parseParameters_within {rest : List Byte}
    (hss : ∀ s ∈ ss, (0 : Byte) ∉ s)
    (hm : m.drop p = terminatedStrings ss ++ (rest ++ 0 :: t)) :
    ∃ l, parseParameters m ss.length i p = ⟨l, .ok ss⟩ ∧
      (∀ a ∈ l, (∃ j ≤ p + (terminatedStrings ss).length + rest.length, a = .read j) ∨
        ∃ j, i ≤ j ∧ j < i + ss.length ∧ a = .build j) ∧
      ∀ j, i ≤ j → j < i + ss.length → .build j ∈ l := by
  induction ss generalizing i p with
  | nil =>
    refine ⟨[], rfl, fun a ha => absurd ha List.not_mem_nil, fun j hj hj' => ?_⟩
    simp only [List.length_nil] at hj'
    omega
  | cons s ss ih =>
    have hs : (0 : Byte) ∉ s := hss s (by simp)
    rw [terminatedStrings_cons, List.append_assoc, List.cons_append] at hm
    have hnext := drop_string hm
    have hwithin : m.drop (p + s.length + 1) = (terminatedStrings ss ++ rest) ++ 0 :: t := by
      rw [hnext, List.append_assoc]
    -- `strlen` is asked behind the string as well, where the next one or the NUL of `buffer[n]` is
    obtain ⟨n, hn, hstrlen⟩ := strlen_within hwithin
    obtain ⟨l, hparse, hl, hbuilds⟩ := ih (i := i + 1) (fun u hu => hss u (by simp [hu])) hnext
    have hlen : (terminatedStrings (s :: ss)).length =
        s.length + 1 + (terminatedStrings ss).length := by
      rw [terminatedStrings_cons, List.length_append, List.length_cons]
      omega
    rw [List.length_append] at hn
    rw [hlen, List.length_cons]
    refine ⟨parameterTrace i p s.length ++
      ((List.range' (p + s.length + 1) (n + 1)).map .read ++ l),
      ?_, ?_, ?_⟩
    · rw [parseParameters_succ hm hs, hstrlen, hparse]
      simp
    · intro a ha
      rcases List.mem_append.mp ha with ha | ha
      · rcases mem_parameterTrace ha with ⟨j, hj, rfl⟩ | rfl
        · exact .inl ⟨j, by omega, rfl⟩
        · exact .inr ⟨i, by omega, by omega, rfl⟩
      rcases List.mem_append.mp ha with ha | ha
      · obtain ⟨j, hj, rfl⟩ := List.mem_map.mp ha
        rw [List.mem_range'_1] at hj
        exact .inl ⟨j, by omega, rfl⟩
      · rcases hl a ha with ⟨j, hj, rfl⟩ | ⟨j, hj, hj', rfl⟩
        · exact .inl ⟨j, by omega, rfl⟩
        · exact .inr ⟨j, by omega, by omega, rfl⟩
    · intro j hj hj'
      by_cases hij : j = i
      · subst hij
        apply List.mem_append_left
        simp [parameterTrace]
      · apply List.mem_append_right
        apply List.mem_append_right
        exact hbuilds j (by omega) (by omega)

/-- With more of them announced what is behind the NUL is read. -/
theorem parseParameters_beyond (hm : m.drop p = tail ++ 0 :: t) (hk : tail.count 0 < k) :
    ∃ j, p + tail.length < j ∧ .read j ∈ (parseParameters m k i p).trace := by
  induction k generalizing i p tail with
  | zero => exact absurd hk (Nat.not_lt_zero _)
  | succ k ih =>
    by_cases hmem : (0 : Byte) ∈ tail
    · obtain ⟨s, tail', rfl, hs⟩ := List.eq_append_cons_of_mem hmem
      rw [List.append_assoc, List.cons_append] at hm
      have hnext : m.drop (p + s.length + 1) = tail' ++ 0 :: t := drop_string hm
      have hcount : tail'.count 0 < k := by
        rw [List.count_append, List.count_cons_self, List.count_eq_zero_of_not_mem hs] at hk
        omega
      obtain ⟨n, -, hstrlen⟩ := strlen_within hnext
      obtain ⟨j, hj, hread⟩ := ih (i := i + 1) hnext hcount
      refine ⟨j, ?_, ?_⟩
      · simp only [List.length_append, List.length_cons]
        omega
      · rw [parseParameters_succ hm hs, hstrlen]
        simp only [notes_bind, mk_ok_bind, List.mem_append]
        right
        right
        exact mem_trace_bind.mpr (.inl hread)
    -- the string is the last one, and ends with the NUL that was stored
    · refine ⟨p + tail.length + 1, by omega, ?_⟩
      rw [parseParameters_succ hm hmem]
      simp only [notes_bind, List.mem_append]
      right
      exact mem_trace_bind.mpr (.inl read_mem_strlen)

/-! ## The parameters, one after the other -/

/-- The parameter behind those before it. -/
theorem parameterAt_append (before after : List (List Byte)) (s : List Byte) :
    parameterAt (before ++ s :: after) before.length = ⟨[.use before.length], .ok s⟩ := by
  rw [parameterAt, List.getElem?_append_right (Nat.le_refl _), Nat.sub_self]
  rfl

/-- One more is before the next. -/
theorem append_cons_length (before : List (List Byte)) (s : List Byte) :
    before.length + 1 = (before ++ [s]).length := by simp

/-- Every parameter is printed. -/
theorem printParameters_eq (before after : List (List Byte)) :
    printParameters (before ++ after) after.length before.length =
      ⟨(List.range' before.length after.length).map .use, .ok ()⟩ := by
  induction after generalizing before with
  | nil => rfl
  | cons s after ih =>
    have hrest := ih (before ++ [s])
    rw [List.append_assoc, List.singleton_append, ← append_cons_length] at hrest
    rw [List.length_cons, printParameters, parameterAt_append, hrest]
    simp [List.range'_succ]

/-! ## The list of types that is built -/

/-- The types with commas between them, and a NUL. -/
def joinedTypes : List (List Byte) → List Byte
  | [] => []
  | [s] => s ++ [0]
  | s :: ss => s ++ COMMA :: joinedTypes ss

/-- What is reserved has room for the types without commas. -/
theorem reserveTypes_eq (before after : List (List Byte)) (wordSize : ℕ) (types : Option ℕ) :
    reserveTypes (before ++ after) after.length before.length wordSize types =
      ⟨(List.range' before.length after.length).map .use,
        .ok (wordSize + (after.map List.length).sum, if after = [] then types else
          some (wordSize + (after.map List.length).sum + 1))⟩ := by
  induction after generalizing before wordSize types with
  | nil => rfl
  | cons s after ih =>
    have hrest := ih (before ++ [s]) (wordSize + s.length) (some (wordSize + s.length + 1))
    rw [List.append_assoc, List.singleton_append, ← append_cons_length] at hrest
    rw [List.length_cons, reserveTypes, parameterAt_append, mk_ok_bind, hrest]
    cases after with
    | nil => simp [List.range'_succ]
    | cons u after => simp [List.range'_succ, Nat.add_assoc]

/-- What a decoder touches that finds what it asks for. -/
def Decodes (n : ℕ) (a : Access) : Prop :=
  (∃ i < n, a = .use i) ∨ ∃ i reserved, a = .types i reserved

/-- A copy behind the end. -/
theorem splice_end (types s : List Byte) : splice types types.length s = types ++ s := by
  simp [splice]

/-- What is done for one type. -/
def typeTrace (i pointer n reserved : ℕ) : List Access :=
  .use i :: (List.range' pointer (n + 1)).map (fun j => .types j reserved) ++
    [.types (pointer + n) reserved]

/-- A type is copied with its comma, and then the others. -/
theorem fillTypes_append (before after : List (List Byte)) (s types : List Byte)
    (size reserved k : ℕ) :
    fillTypes (before ++ s :: after) size reserved (k + 1) before.length types.length types = (do
      notes (typeTrace before.length types.length s.length reserved)
      fillTypes (before ++ s :: after) size reserved k (before.length + 1)
        (types.length + s.length + 1)
        (types ++ s ++ [if size ≤ before.length + 1 then 0 else COMMA])) := by
  have hset (x : Byte) : (types ++ (s ++ [0])).set (types.length + s.length) x =
      types ++ s ++ [x] := by
    rw [← List.append_assoc, List.set_append_right _ _ (by simp)]
    simp
  rw [fillTypes, parameterAt_append, mk_ok_bind, splice_end]
  simp only [notes_bind, note_bind, Nat.add_sub_cancel, hset]
  simp [typeTrace]

/-- The types are joined by commas. -/
theorem fillTypes_eq (before after : List (List Byte)) (reserved : ℕ) (types : List Byte) :
    ∃ l, fillTypes (before ++ after) (before ++ after).length reserved after.length before.length
        types.length types = ⟨l, .ok (types ++ joinedTypes after)⟩ ∧
      ∀ a ∈ l, Decodes (before ++ after).length a := by
  induction after generalizing before types with
  | nil =>
    refine ⟨[], ?_, fun a ha => absurd ha List.not_mem_nil⟩
    rw [joinedTypes, List.append_nil types]
    rfl
  | cons s after ih =>
    -- the NUL behind the string becomes a comma, unless it is the last one
    obtain ⟨x, hx, hjoined⟩ : ∃ x : Byte,
        (if (before ++ s :: after).length ≤ before.length + 1 then (0 : Byte) else COMMA) = x ∧
          joinedTypes (s :: after) = s ++ x :: joinedTypes after := by
      cases after with
      | nil => exact ⟨0, if_pos (by simp), rfl⟩
      | cons u after => exact ⟨COMMA, if_neg (by simp), rfl⟩
    obtain ⟨l, hrest, hl⟩ := ih (before ++ [s]) (types ++ s ++ [x])
    have hlen : (types ++ s ++ [x]).length = types.length + s.length + 1 := by
      simp only [List.length_append, List.length_singleton]
    rw [List.append_assoc, List.singleton_append, ← append_cons_length, hlen] at hrest
    rw [List.append_assoc, List.singleton_append] at hl
    refine ⟨typeTrace before.length types.length s.length reserved ++ l, ?_, ?_⟩
    · rw [List.length_cons, fillTypes_append, hx, hrest, hjoined]
      simp
    · intro a ha
      rcases List.mem_append.mp ha with ha | ha
      · simp only [typeTrace, List.mem_append, List.mem_cons, List.mem_map, List.not_mem_nil,
          or_false] at ha
        rcases ha with (rfl | ⟨j, -, rfl⟩) | rfl
        · exact .inl ⟨before.length, by simp, rfl⟩
        · exact .inr ⟨j, reserved, rfl⟩
        · exact .inr ⟨_, reserved, rfl⟩
      · exact hl a ha

/-- **Banning** some types. -/
theorem ban_eq (hne : ss ≠ []) (g : Globals) :
    ∃ l, ban ss ss.length g = ⟨l, .ok (0x80, {
        filterMedias := some (cstr (joinedTypes ss))
        filterMsg := some (ascii " !____MENSAJE DE REEMPLAZO_____! ")
        totalBytesTransfered := g.totalBytesTransfered + 2 + (ss.map List.length).sum })⟩ ∧
      ∀ a ∈ l, Decodes ss.length a := by
  obtain ⟨l, hfill, hl⟩ := fillTypes_eq [] ss ((ss.map List.length).sum + 1) []
  have hreserve := reserveTypes_eq [] ss 0 none
  rw [if_neg hne] at hreserve
  simp only [List.nil_append, List.length_nil, Nat.zero_add] at hfill hreserve hl
  refine ⟨(List.range' 0 ss.length).map .use ++ l, ?_, ?_⟩
  · rw [ban, hreserve, mk_ok_bind]
    simp only [hfill]
    simp
  · intro a ha
    rcases List.mem_append.mp ha with ha | ha
    · obtain ⟨j, hj, rfl⟩ := List.mem_map.mp ha
      rw [List.mem_range'_1] at hj
      exact .inl ⟨j, by omega, rfl⟩
    · exact hl a ha

/-! ## The decoders -/

/-- The operations that set a port, by their bits. -/
theorem asksPort_iff : ∀ operation : Byte, AsksPort operation ↔
    operation &&& 0xC0 = 0x00 ∧ operation &&& 0x30 = 0x10 ∧ operation &&& 0x0C = 0x00 ∧
      operation &&& 0x01 = 0x00 := by
  decide +kernel

/-- A request about sockets uses the parameters it has. -/
theorem sockDecoder_decodes {operation : Byte} (h : operation &&& 0xC0 = 0x00)
    (hport : AsksPort operation → ss ≠ []) :
    (sockDecoder operation ss).All (Decodes ss.length) := by
  rw [sockDecoder]
  split_ifs with h₁ h₂ h₃ h₄
  · exact all_pure
  · obtain ⟨s, ss, rfl⟩ := List.exists_cons_of_ne_nil (hport ((asksPort_iff _).mpr ⟨h, h₂, h₃, h₄⟩))
    have hfirst : parameterAt (s :: ss) 0 = ⟨[.use 0], .ok s⟩ := parameterAt_append [] ss s
    rw [hfirst, mk_ok_bind]
    intro a ha
    obtain rfl : a = .use 0 := by simpa using ha
    exact .inl ⟨0, by simp, rfl⟩
  all_goals exact all_pure

/-- So does one about the transformation. -/
theorem transDecoder_decodes {operation : Byte} {g : Globals} (hban : operation = 0x54 → ss ≠ [])
    (hmedias : operation = 0x40 → g.filterMedias ≠ none) :
    (transDecoder operation ss ss.length g).All (Decodes ss.length) := by
  rw [transDecoder]
  split_ifs with h₁ h₂ h₃ h₄ h₅ h₆ h₇
  · exact all_pure
  · exact absurd (by simpa using h₂) (hmedias h₁)
  · exact all_pure
  · exact all_pure
  · obtain ⟨l, hban', hl⟩ := ban_eq (hban h₇) g
    rw [hban']
    exact hl
  all_goals exact all_pure

/-- A decoder that finds what it asks for touches nothing else. -/
theorem decodeRequest_decodes {operation : Byte} (unset : Byte) {g : Globals}
    (hport : AsksPort operation → ss ≠ []) (hban : operation = 0x54 → ss ≠ [])
    (hmedias : operation = 0x40 → g.filterMedias ≠ none) :
    (decodeRequest operation ss ss.length unset g).All (Decodes ss.length) := by
  rw [decodeRequest]
  split_ifs with h₁ h₂
  · rw [all_bind]
    exact ⟨sockDecoder_decodes h₁ hport, fun _ _ => all_pure⟩
  · exact transDecoder_decodes hban hmedias
  all_goals exact all_pure

/-- Without a parameter the port is looked for all the same. -/
theorem decodeRequest_port {operation : Byte} (h : AsksPort operation) (unset : Byte)
    (g : Globals) :
    decodeRequest operation [] 0 unset g = ⟨[.use 0], .error .undefined⟩ := by
  obtain ⟨h₁, h₂, h₃, h₄⟩ := (asksPort_iff operation).mp h
  have hstatus : ¬ operation &&& 0x30 = 0x00 := by
    rw [h₂]
    decide
  rw [decodeRequest, if_pos h₁, sockDecoder, if_neg hstatus, if_pos h₂, if_pos h₃, if_pos h₄]
  rfl

/-- Without a type, or a list of types, a pointer is followed that points nowhere. -/
theorem decodeRequest_wild {operation unset : Byte} {g : Globals}
    (h : (operation = 0x54 ∧ ss = []) ∨ (operation = 0x40 ∧ g.filterMedias = none)) :
    .wild ∈ (decodeRequest operation ss ss.length unset g).trace := by
  rcases h with ⟨rfl, rfl⟩ | ⟨rfl, hmedias⟩
  · exact List.mem_singleton_self _
  · rw [decodeRequest, if_neg (by decide), if_pos (by decide), transDecoder, if_pos rfl, hmedias]
    exact List.mem_singleton_self _

/-! ## The whole request -/

variable {r : Received} {io : AdminIo} {g : Globals}

/-- The message, its NUL and what is behind. -/
theorem receive_octets (m : AdminMemory) (r : Received) :
    ∃ rest, (m.receive r).octets = r.octets ++ 0 :: rest := by
  have hlt : r.octets.length < m.octets.length := by
    have hm := m.size
    have hr := r.le
    omega
  obtain ⟨c, rest, hrest⟩ : ∃ c rest, m.octets.drop r.octets.length = c :: rest :=
    List.exists_cons_of_length_pos (by rw [List.length_drop]; omega)
  refine ⟨rest, ?_⟩
  show (splice m.octets 0 r.octets).set r.octets.length 0 = _
  rw [splice, List.take_zero, List.nil_append, Nat.zero_add, hrest,
    List.set_append_right _ _ (Nat.le_refl _), Nat.sub_self]
  rfl

/-- The first two octets, as `request_read` sees them. -/
theorem receive_head (m : AdminMemory) (r : Received) :
    (m.receive r).octets.getD 0 0 = r.operation ∧
      ((m.receive r).octets.getD 1 0).toNat = r.announced := by
  obtain ⟨rest, hoctets⟩ := receive_octets m r
  obtain ⟨c, cs, hcs⟩ := List.exists_cons_of_length_pos r.pos
  rw [hoctets, Received.operation, Received.announced, hcs]
  cases cs <;> exact ⟨rfl, rfl⟩

/-- What is behind them. -/
theorem receive_drop (m : AdminMemory) (h : 2 ≤ r.octets.length) :
    ∃ rest, (m.receive r).octets.drop 2 = r.strings ++ 0 :: rest := by
  obtain ⟨rest, hoctets⟩ := receive_octets m r
  refine ⟨rest, ?_⟩
  rw [hoctets, List.drop_append_of_le_length h]
  rfl

/-- What is done with the parameters. -/
def afterParameters (io : AdminIo) (r : Received) (m : AdminMemory) (g : Globals)
    (parameters : List (List Byte)) : AdminM (AdminStates × AdminMemory × Globals) := do
  printParameters parameters r.announced 0
  let (response, g) ← decodeRequest r.operation parameters r.announced io.unset g
  note (.write 0)
  pure (if io.sent then .requestRead else .error, m.answer response, g)

/-- One request, the two octets of its head left aside. -/
theorem requestRead_eq (io : AdminIo) (r : Received) (m : AdminMemory) (g : Globals) :
    requestRead (some r) io m g = (do
      notes [.write r.octets.length, .read 0, .read 1]
      if 0 < r.announced ∧ io.malloc = false then pure (.error, m.bzero.receive r, g) else do
        let parameters ← parseParameters (m.bzero.receive r).octets r.announced 0 2
        afterParameters io r (m.bzero.receive r) g parameters) := by
  obtain ⟨hoperation, hannounced⟩ := receive_head m.bzero r
  rw [requestRead, handleRequest]
  simp only [hoperation, hannounced]
  rfl

/-- When as many strings as announced have come with their NULs. -/
theorem parseParameters_request (m : AdminMemory) (h : r.announced ≤ r.terminated) :
    ∃ l ss, parseParameters (m.receive r).octets r.announced 0 2 = ⟨l, .ok ss⟩ ∧
      ss.length = r.announced ∧
      (∀ a ∈ l, (∃ j ≤ r.octets.length, a = .read j) ∨ ∃ j < r.announced, a = .build j) ∧
      ∀ j < r.announced, .build j ∈ l := by
  by_cases hnone : r.announced = 0
  · rw [hnone]
    exact ⟨[], [], rfl, rfl, by simp, fun j hj => absurd hj (Nat.not_lt_zero j)⟩
  · have hlen : 2 ≤ r.octets.length := by
      by_contra hshort
      have hnil : r.strings = [] := List.drop_eq_nil_of_le (by omega)
      rw [Received.terminated, hnil, List.count_nil] at h
      omega
    obtain ⟨rest', hdrop⟩ := receive_drop m hlen
    obtain ⟨ss, rest, hss, hnul, hstrings⟩ := exists_terminatedStrings h
    rw [hstrings, List.append_assoc] at hdrop
    obtain ⟨l, hparse, hl, hbuilds⟩ := parseParameters_within (i := 0) hnul hdrop
    have hall : 2 + (terminatedStrings ss).length + rest.length = r.octets.length := by
      have hsum := congrArg List.length hstrings
      rw [Received.strings, List.length_drop, List.length_append] at hsum
      omega
    rw [hss] at hparse hl hbuilds
    rw [hall] at hl
    refine ⟨l, ss, hparse, hss, fun a ha => ?_, fun j hj => hbuilds j (by omega) (by omega)⟩
    rcases hl a ha with ⟨j, hj, rfl⟩ | ⟨j, -, hj, rfl⟩
    · exact .inl ⟨j, hj, rfl⟩
    · exact .inr ⟨j, by omega, rfl⟩

/-- With more of them announced. -/
theorem parseParameters_request_beyond (m : AdminMemory) (h : r.terminated < r.announced) :
    ∃ j, r.octets.length < j ∧
      .read j ∈ (parseParameters (m.receive r).octets r.announced 0 2).trace := by
  by_cases hlen : 2 ≤ r.octets.length
  · obtain ⟨rest, hdrop⟩ := receive_drop m hlen
    obtain ⟨j, hj, hread⟩ := parseParameters_beyond (i := 0) hdrop h
    rw [Received.strings, List.length_drop] at hj
    exact ⟨j, by omega, hread⟩
  -- not even the second octet has come
  · refine ⟨2, by omega, ?_⟩
    obtain ⟨k, hk⟩ : ∃ k, r.announced = k + 1 := ⟨r.announced - 1, by omega⟩
    rw [hk, parseParameters]
    exact mem_trace_bind.mpr (.inl read_mem_strlen)

/-- So does whatever follows the parameters. -/
theorem afterParameters_all (io : AdminIo) (m : AdminMemory) (hlen : ss.length = r.announced)
    (hport : AsksPort r.operation → ss ≠ []) (hban : r.operation = 0x54 → ss ≠ [])
    (hmedias : r.operation = 0x40 → g.filterMedias ≠ none) :
    (afterParameters io r m g ss).All fun a => Decodes r.announced a ∨ a = .write 0 := by
  have hprint := printParameters_eq [] ss
  rw [List.nil_append, List.length_nil, hlen] at hprint
  have hdecodes := decodeRequest_decodes io.unset hport hban hmedias
  rw [hlen] at hdecodes
  rw [afterParameters, hprint, all_bind]
  refine ⟨?_, fun _ _ => ?_⟩
  · intro a ha
    obtain ⟨j, hj, rfl⟩ := List.mem_map.mp ha
    rw [List.mem_range'_1] at hj
    exact .inl (.inl ⟨j, by omega, rfl⟩)
  · rw [all_bind]
    refine ⟨fun a ha => .inl (hdecodes a ha), fun x _ => ?_⟩
    intro a ha
    have hwrite : a ∈ [Access.write 0] := ha
    exact .inr (List.mem_singleton.mp hwrite)

/-- Not more parameters end in a NUL than there are. -/
theorem terminated_le_parameters (r : Received) : r.terminated ≤ r.parameters := Nat.le_add_right ..

/-- The message is read and the parameters are built first, then the parameters are used. -/
theorem confined_append {before after : List Access} (hfits : r.octets.length < maxBuffer)
    (hle : r.announced ≤ r.parameters)
    (hbefore : ∀ a ∈ before, a = .write r.octets.length ∨ (∃ j ≤ r.octets.length, a = .read j) ∨
      ∃ j < r.announced, a = .build j)
    (hbuilt : ∀ j < r.announced, .build j ∈ before)
    (hafter : ∀ a ∈ after, Decodes r.announced a ∨ a = .write 0) :
    Confined r (before ++ after) := by
  have hafter' : ∀ a ∈ after, (∃ j < r.announced, a = .use j) ∨
      (∃ j reserved, a = .types j reserved) ∨ a = .write 0 := by
    intro a ha
    rcases hafter a ha with (h | h) | h
    · exact .inl h
    · exact .inr (.inl h)
    · exact .inr (.inr h)
  -- what is read and built comes before, what is used comes after
  constructor
  · intro i hi
    rcases List.mem_append.mp hi with hi | hi
    · rcases hbefore _ hi with h | ⟨j, hj, h⟩ | ⟨j, hj, h⟩ <;> cases h
      exact hj
    · rcases hafter' _ hi with ⟨j, -, h⟩ | ⟨j, k, h⟩ | h <;> cases h
  · intro i hi
    rcases List.mem_append.mp hi with hi | hi
    · rcases hbefore _ hi with h | ⟨j, hj, h⟩ | ⟨j, hj, h⟩ <;> cases h
      exact hfits
    · rcases hafter' _ hi with ⟨j, -, h⟩ | ⟨j, k, h⟩ | h <;> cases h
      decide
  · intro i hi
    rcases List.mem_append.mp hi with hi | hi
    · rcases hbefore _ hi with h | ⟨j, hj, h⟩ | ⟨j, hj, h⟩ <;> cases h
      omega
    · rcases hafter' _ hi with ⟨j, -, h⟩ | ⟨j, k, h⟩ | h <;> cases h
  · intro i
    have hnone : .use i ∉ before := by
      intro hi
      rcases hbefore _ hi with h | ⟨j, hj, h⟩ | ⟨j, hj, h⟩ <;> cases h
    by_cases hi : i < r.announced
    · exact precedes_append (hbuilt i hi) hnone
    · apply precedes_of_notMem
      intro hmem
      rcases List.mem_append.mp hmem with hmem | hmem
      · exact hnone hmem
      · rcases hafter' _ hmem with ⟨j, hj, h⟩ | ⟨j, k, h⟩ | h <;> cases h
        exact hi hj
  · intro hi
    rcases List.mem_append.mp hi with hi | hi
    · rcases hbefore _ hi with h | ⟨j, hj, h⟩ | ⟨j, hj, h⟩ <;> cases h
    · rcases hafter' _ hi with ⟨j, -, h⟩ | ⟨j, k, h⟩ | h <;> cases h

/-- Memory for the parameters is asked for, and given, or there are none. -/
theorem announced_le (hgo : ¬ (0 < r.announced ∧ io.malloc = false))
    (hstrings : io.malloc = true → r.announced ≤ r.terminated) : r.announced ≤ r.terminated := by
  by_cases hnone : r.announced = 0
  · omega
  · apply hstrings
    by_contra hno
    exact hgo ⟨by omega, by simpa using hno⟩

/-- **Careful requests** are confined. -/
theorem Careful.confined (h : Careful io r g) (m : AdminMemory) :
    Confined r (requestRead (some r) io m g).trace := by
  have hpos := r.pos
  rw [requestRead_eq, notes_bind]
  split_ifs with hmalloc
  · refine ⟨?_, ?_, ?_, fun i => precedes_of_notMem ?_, ?_⟩
    · intro i hi
      have hi : i = 0 ∨ i = 1 := by simpa using hi
      omega
    · intro i hi
      have hi : i = r.octets.length := by simpa using hi
      rw [hi]
      exact h.fits
    · intro i hi
      simp at hi
    · simp
    · simp
  have hle := announced_le hmalloc h.strings
  obtain ⟨l, ss, hparse, hlen, hl, hbuilds⟩ := parseParameters_request m.bzero hle
  have hne : r.announced ≠ 0 → ss ≠ [] := by
    rintro hsome rfl
    exact hsome hlen.symm
  have hafter := afterParameters_all io (m.bzero.receive r) hlen
    (fun hport => hne fun hnone => (h.asked hnone).1 hport)
    (fun hban => hne fun hnone => (h.asked hnone).2 hban)
    fun hmedias hnone => hmalloc (h.listed hmedias hnone)
  rw [hparse, mk_ok_bind]
  have hconfined : Confined r (([Access.write r.octets.length, .read 0, .read 1] ++ l) ++
      (afterParameters io r (m.bzero.receive r) g ss).trace) := by
    apply confined_append h.fits (Nat.le_trans hle (terminated_le_parameters r)) ?_ ?_ hafter
    · intro a ha
      rcases List.mem_append.mp ha with ha | ha
      · simp only [List.mem_cons, List.not_mem_nil, or_false] at ha
        rcases ha with rfl | rfl | rfl
        · exact .inl rfl
        · exact .inr (.inl ⟨0, by omega, rfl⟩)
        · exact .inr (.inl ⟨1, by omega, rfl⟩)
      · exact .inr (hl a ha)
    · intro j hj
      exact List.mem_append_right _ (hbuilds j hj)
  rw [List.append_assoc] at hconfined
  exact hconfined

/-- What comes of the parameters is part of the request, when they could be built. -/
theorem mem_requestRead {m : AdminMemory} {a : Access}
    (hgo : ¬ (0 < r.announced ∧ io.malloc = false))
    {l : List Access} (hparse : parseParameters (m.bzero.receive r).octets r.announced 0 2 =
      ⟨l, .ok ss⟩) (hss : ss.length = r.announced)
    (ha : a ∈ (decodeRequest r.operation ss ss.length io.unset g).trace) :
    a ∈ (requestRead (some r) io m g).trace := by
  have hprint := printParameters_eq [] ss
  rw [List.nil_append, List.length_nil, hss] at hprint
  rw [hss] at ha
  rw [requestRead_eq, notes_bind, if_neg hgo, hparse, mk_ok_bind, afterParameters, hprint,
    mk_ok_bind]
  simp only [List.mem_append]
  right
  right
  right
  exact mem_trace_bind.mpr (.inl ha)

/-- Strings that are announced and have not come lie behind the message. -/
theorem Confined.strings {m : AdminMemory} (h : Confined r (requestRead (some r) io m g).trace)
    (hmalloc : io.malloc = true) : r.announced ≤ r.terminated := by
  by_contra hbeyond
  obtain ⟨j, hj, hread⟩ := parseParameters_request_beyond m.bzero (Nat.lt_of_not_le hbeyond)
  have hle : j ≤ r.octets.length := by
    apply h.reads
    rw [requestRead_eq, notes_bind, if_neg (by simp [hmalloc])]
    exact List.mem_append_right _ (mem_trace_bind.mpr (.inl hread))
  omega

/-- **What a request touches** is what it brings, exactly when it is careful. -/
theorem request_confined (r : Received) (io : AdminIo) (m : AdminMemory) (g : Globals) :
    Confined r (requestRead (some r) io m g).trace ↔ Careful io r g := by
  refine ⟨fun h => ?_, fun h => h.confined m⟩
  have hfits : r.octets.length < maxBuffer := by
    apply h.writes
    rw [requestRead_eq, notes_bind]
    simp
  have hempty : r.announced = 0 →
      parseParameters (m.bzero.receive r).octets r.announced 0 2 = ⟨[], .ok []⟩ := by
    intro hnone
    rw [hnone]
    rfl
  refine ⟨hfits, h.strings, fun hnone => ⟨fun hport => ?_, fun hban => ?_⟩,
    fun hlisted hmedias => ?_⟩
  · have htrace : (requestRead (some r) io m g).trace =
        [.write r.octets.length, .read 0, .read 1] ++ .use 0 :: [] := by
      have hafter : afterParameters io r (m.bzero.receive r) g [] =
          ⟨[.use 0], .error .undefined⟩ := by
        rw [afterParameters, hnone, decodeRequest_port hport]
        rfl
      rw [requestRead_eq, notes_bind, if_neg (by simp [hnone]), hempty hnone, mk_ok_bind, hafter]
      rfl
    have hbuilt := h.uses 0 _ _ htrace
    simp at hbuilt
  · apply h.pointers
    apply mem_requestRead (by simp [hnone]) (hempty hnone) hnone.symm
    exact decodeRequest_wild (.inl ⟨hban, rfl⟩)
  · by_contra hgo
    have hle := announced_le hgo h.strings
    obtain ⟨l, ss, hparse, hlen, -, -⟩ := parseParameters_request m.bzero hle
    apply h.pointers
    apply mem_requestRead hgo hparse hlen
    exact decodeRequest_wild (.inr ⟨hlisted, hmedias⟩)

/-- Two types announced, and one that comes. -/
theorem request_unconfined : ¬ ∀ (r : Received) (io : AdminIo) (m : AdminMemory) (g : Globals),
    Confined r (requestRead (some r) io m g).trace := by
  intro h
  have h := h ⟨[0x54, 2, 97, 0], by decide, by decide⟩ ⟨true, 0, true⟩
    ⟨List.replicate (maxBuffer + 1) 0, by rw [List.length_replicate]; exact Nat.lt_succ_self _⟩
      ⟨none, none, 0⟩
  exact absurd (h.strings rfl) (by decide)

end

end Pop3Proxy
