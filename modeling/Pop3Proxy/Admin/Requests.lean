/-
# The requests of the operators

What a line asks for, from its words, and what the service does about it.  The client
sends just that, and when it is not up to it, it leaves its arrays or follows a pointer
that is NULL or stale.
-/
import Pop3Proxy.Admin.Joined

namespace Pop3Proxy

open Traced

/-! ## Requests -/

/-- What `metrics` asks for. -/
inductive Metric where
  | bytes
  | access
  | conections
  deriving DecidableEq, Repr

/-- What an operator can ask for. -/
inductive AdminRequest where
  | sockStatus (ofProxy : Bool)
  | sockMod (ofProxy address : Bool) (value : List Byte)
  | transStatus
  | replace (first second : List Byte)
  | ban (type : List Byte) (types : List (List Byte))
  | metrics (metric : Metric)
  | config
  deriving DecidableEq, Repr

namespace AdminRequest

/-- The octet of a request. -/
def octet : AdminRequest → Byte
  | sockStatus ofProxy => if ofProxy then 0x04 else 0x00
  | sockMod ofProxy address _ => 0x10 ||| (if ofProxy then 0x04 else 0x00) |||
      if address then 0x01 else 0x00
  | transStatus => 0x40
  | replace _ _ => 0x50
  | ban _ _ => 0x54
  | metrics .bytes => 0x80
  | metrics .access => 0x90
  | metrics .conections => 0xA0
  | config => 0xC0

/-- The parameters of a request. -/
def parameters : AdminRequest → List (List Byte)
  | sockMod _ _ value => [value]
  | replace first second => [first, second]
  | ban type types => type :: types
  | _ => []

/-- The words behind `sock mod`, the first of them `side`. -/
def ofSockMod (side : List Byte) : List (List Byte) → Option AdminRequest
  | [what, value] =>
    if (side = ascii "origin" ∨ side = ascii "local") ∧
        (what = ascii "port" ∨ what = ascii "address") then
      some (sockMod (side = ascii "local") (what = ascii "address") value)
    else none
  | _ => some (sockStatus false)

/-- The words behind `sock`.  What is not understood is taken for a question. -/
def ofSock : List (List Byte) → Option AdminRequest
  | w :: side :: rest =>
    if w = ascii "mod" then ofSockMod side rest
    else if w ≠ ascii "status" ∨ rest.length < 3 then some (sockStatus false)
    else if side = ascii "origin" then some (sockStatus false)
    else if side = ascii "local" then some (sockStatus true)
    else none
  | _ => some (sockStatus false)

/-- The words behind `trans mod`. -/
def ofTransMod : List (List Byte) → Option AdminRequest
  | side :: operation :: v :: rest =>
    if side = ascii "general" ∧ operation = ascii "replace" then rest.head?.map (replace v)
    else if side = ascii "mime" ∧ operation = ascii "ban" then some (ban v rest)
    else none
  | _ => some transStatus

/-- The words behind `trans`. -/
def ofTrans : List (List Byte) → Option AdminRequest
  | w :: args =>
    if w = ascii "mod" then ofTransMod args
    else if w = ascii "status" ∧ args ≠ [] then none
    else some transStatus
  | [] => none

/-- The words behind `metrics`, where each of them ends the line. -/
def ofMetrics : List (List Byte) → Option AdminRequest
  | w :: _ =>
    if w = ascii "bytes\n" then some (metrics .bytes)
    else if w = ascii "access\n" then some (metrics .access)
    else if w = ascii "conections\n" then some (metrics .conections)
    else none
  | [] => none

/-- What the words of a line ask for. -/
def ofWords : List (List Byte) → Option AdminRequest
  | w :: args =>
    if w = ascii "sock" then ofSock args
    else if w = ascii "trans" then ofTrans args
    else if w = ascii "metrics" then ofMetrics args
    else if w = ascii "config" then some config
    else none
  | [] => none

/-- The answer to a request, which is not the same for each only where the origin's port is
changed.  `unset` is what the answer holds when nothing is assigned to it. -/
def answer (unset : Byte) : AdminRequest → Byte
  | sockStatus _ => 0x80
  | sockMod false false value => if 57 < value.headD 0 ∨ value.headD 0 < 48 then 0x00 else 0x80
  | sockMod _ _ _ => 0x00
  | transStatus => 0x80
  | replace _ _ => 0x00
  | ban _ _ => 0x80
  | metrics _ => 0x80
  | config => unset

/-- What a request does to what outlives it. -/
def effect (g : Globals) : AdminRequest → Globals
  | ban type types => {
      filterMedias := some ([COMMA].intercalate (type :: types))
      filterMsg := some (ascii " !____MENSAJE DE REEMPLAZO_____! ")
      totalBytesTransfered := g.totalBytesTransfered + 2 + (type :: types).flatten.length }
  | metrics _ => { g with totalBytesTransfered := g.totalBytesTransfered + 2 }
  | _ => g

/-- The service is asked for a list of types, and there is none. -/
def Lost (g : Globals) (q : AdminRequest) : Prop := q = transStatus ∧ g.filterMedias = none

instance (g : Globals) (q : AdminRequest) : Decidable (q.Lost g) :=
    inferInstanceAs (Decidable (_ ∧ _))

/-- No request has the octet that says there is none. -/
theorem octet_ne (q : AdminRequest) : q.octet ≠ 0xFF := by
  have hne : ∀ ofProxy address : Bool, (0x10 ||| (if ofProxy then 0x04 else 0x00) |||
      if address then 0x01 else 0x00 : Byte) ≠ 0xFF := by decide
  cases q with
  | sockStatus ofProxy => cases ofProxy <;> decide
  | sockMod ofProxy address value => exact hne ofProxy address
  | metrics metric => cases metric <;> decide
  | transStatus => decide
  | config => decide
  | replace => exact (by decide : (0x50 : Byte) ≠ 0xFF)
  | ban => exact (by decide : (0x54 : Byte) ≠ 0xFF)

end AdminRequest

/-- Words behind which the client looks for more. -/
def Dangling (argv : List (List Byte)) : Prop :=
  argv = [] ∨ argv = [ascii "sock"] ∨ argv = [ascii "trans"] ∨ argv = [ascii "metrics"] ∨
    argv.length = 5 ∧ argv.take 4 = [ascii "trans", ascii "mod", ascii "general", ascii "replace"]

instance (argv : List (List Byte)) : Decidable (Dangling argv) :=
  inferInstanceAs (Decidable (_ ∨ _))

/-! ## The encoders -/

section
variable {argv args : List (List Byte)}

/-- What the encoders return for a request, and what they assign on the way. -/
def encoded : Option AdminRequest → ClientM Encoded
  | some q => ⟨(List.range' 0 q.parameters.length).map .parameter, .ok (q.octet, q.parameters)⟩
  | none => invalid

/-- The first word. -/
theorem argument_cons_zero (w : List Byte) (ws : List (List Byte)) :
    argument (w :: ws) 0 = pure w := rfl

/-- The words behind it. -/
theorem argument_cons_succ (w : List Byte) (ws : List (List Byte)) (i : ℕ) :
    argument (w :: ws) (i + 1) = argument ws i := rfl

/-- What `sock mod` is given. -/
theorem sockMod_eq (w₀ w side : List Byte) (rest : List (List Byte)) :
    (if (w₀ :: w :: side :: rest).length ≠ 5 then pure (0, []) else do
      let byte : Byte := 0 ||| 0x10
      let s ← argument (w₀ :: w :: side :: rest) 2
      if s ≠ ascii "local" ∧ s ≠ ascii "origin" then invalid else do
        let byte := if s = ascii "local" then byte ||| 0x04 else byte
        let s ← argument (w₀ :: w :: side :: rest) 3
        if s ≠ ascii "address" ∧ s ≠ ascii "port" then invalid else do
          let byte := if s = ascii "address" then byte ||| 0x01 else byte
          let s ← argument (w₀ :: w :: side :: rest) 4
          let parameters ← addParameter [] s
          pure (byte, parameters) : ClientM Encoded) = encoded
            (AdminRequest.ofSockMod side rest) := by
  match rest with
  | [what, value] =>
    have hargc : ¬ (w₀ :: w :: side :: [what, value]).length ≠ 5 := by simp
    rw [if_neg hargc]
    simp only [argument_cons_succ, argument_cons_zero, pure_bind, AdminRequest.ofSockMod]
    by_cases hside : side = ascii "origin" ∨ side = ascii "local"
    · by_cases hwhat : what = ascii "port" ∨ what = ascii "address"
      · have hboth := And.intro hside hwhat
        rw [if_neg (by tauto), if_neg (by tauto), if_pos hboth]
        rcases hside with rfl | rfl <;> rcases hwhat with rfl | rfl <;> rfl
      · rw [if_neg (by tauto), if_pos (by tauto), if_neg (fun h => hwhat h.2)]
        rfl
    · rw [if_pos (by tauto), if_neg (fun h => hside h.1)]
      rfl
  | [] => rfl
  | [_] => rfl
  | _ :: _ :: _ :: _ =>
    rw [if_pos (by simp)]
    rfl

/-- What is made of the words behind the name of a socket. -/
theorem sockEncoder_eq (w₀ : List Byte) (hargs : args ≠ []) :
    sockEncoder (w₀ :: args) (w₀ :: args).length 0 = encoded (AdminRequest.ofSock args) := by
  obtain ⟨w, args, rfl⟩ := List.exists_cons_of_ne_nil hargs
  have hdisjoint : ascii "mod" ≠ ascii "status" := by decide
  rw [sockEncoder, argument_cons_succ, argument_cons_zero, pure_bind]
  cases args with
  | nil =>
    have hstatus : ([w₀, w] : List (List Byte)).length < 6 := by simp
    have hmod : ([w₀, w] : List (List Byte)).length ≠ 5 := by simp
    rw [if_pos hstatus, if_pos hmod, ite_self, ite_self]
    rfl
  | cons side rest =>
    have hargc : (w₀ :: w :: side :: rest).length < 6 ↔ rest.length < 3 := by
      simp only [List.length_cons]
      omega
    rw [AdminRequest.ofSock]
    by_cases hmod : w = ascii "mod"
    · rw [if_neg (by rw [hmod]; exact hdisjoint), if_pos hmod, if_pos hmod]
      exact sockMod_eq w₀ w side rest
    · rw [if_neg hmod, if_neg hmod]
      by_cases hfew : w ≠ ascii "status" ∨ rest.length < 3
      · rw [if_pos hfew]
        split_ifs with hstatus h
        · rfl
        · exact absurd hfew (by rw [hargc] at h; tauto)
        · rfl
      · rw [if_neg hfew]
        push Not at hfew
        rw [if_pos hfew.1, if_neg (by omega), argument_cons_succ, argument_cons_succ,
          argument_cons_zero, pure_bind]
        split_ifs <;> rfl

/-- What `trans mod` is given. -/
theorem transEncoder_eq (w₀ : List Byte) (hargs : args ≠ [])
    (hreplace : ¬ Dangling (ascii "trans" :: args)) :
    transEncoder (w₀ :: args) (w₀ :: args).length 0x40 = encoded (AdminRequest.ofTrans args) := by
  obtain ⟨w, args, rfl⟩ := List.exists_cons_of_ne_nil hargs
  -- the encoder asks for `status` before `mod`, and for `general` before `mime`
  have hdisjoint : ascii "mod" ≠ ascii "status" := by decide
  have hnotmime : ascii "mime" ≠ ascii "general" := by decide
  rw [transEncoder, argument_cons_succ, argument_cons_zero, pure_bind, AdminRequest.ofTrans]
  by_cases hmod : w = ascii "mod"
  · rw [if_neg (by rw [hmod]; exact hdisjoint), if_pos hmod, if_pos hmod]
    rcases args with _ | ⟨side, _ | ⟨operation, _ | ⟨v, rest⟩⟩⟩
    · rfl
    · rfl
    · rfl
    · rw [if_neg (by simp), AdminRequest.ofTransMod]
      simp only [argument_cons_succ, argument_cons_zero, pure_bind]
      by_cases hgeneral : side = ascii "general"
      · rw [if_pos hgeneral]
        by_cases hop : operation = ascii "replace"
        · rw [if_pos hop, if_pos ⟨hgeneral, hop⟩]
          cases rest with
          | nil =>
            have htake : (ascii "trans" :: w :: side :: operation :: [v]).take 4 =
                [ascii "trans", ascii "mod", ascii "general", ascii "replace"] := by
              rw [hmod, hgeneral, hop]
              rfl
            exact absurd (.inr (.inr (.inr (.inr ⟨rfl, htake⟩)))) hreplace
          | cons b rest => rfl
        · have hmime : ¬ (side = ascii "mime" ∧ operation = ascii "ban") := by
            rintro ⟨rfl, -⟩
            exact hnotmime hgeneral
          rw [if_neg hop, if_neg (fun h => hop h.2), if_neg hmime]
          rfl
      · have hnot : ¬ (side = ascii "general" ∧ operation = ascii "replace") :=
          fun h => hgeneral h.1
        rw [if_neg hgeneral, if_neg hnot]
        by_cases hmime : side = ascii "mime"
        · rw [if_pos hmime]
          by_cases hop : operation = ascii "ban"
          · have hdrop : (w₀ :: w :: side :: operation :: v :: rest).drop 4 = v :: rest := rfl
            rw [if_pos hop, if_pos ⟨hmime, hop⟩, hdrop, addTypes_eq, mk_ok_bind]
            exact Traced.ext (List.append_nil _) rfl
          · rw [if_neg hop, if_neg (fun h => hop h.2)]
            rfl
        · rw [if_neg hmime, if_neg (fun h => hmime h.1)]
          rfl
  · rw [if_neg hmod, if_neg hmod]
    by_cases hstatus : w = ascii "status"
    · rw [if_pos hstatus]
      cases args with
      | nil => rw [if_neg (by simp), if_neg (by simp)]; rfl
      | cons a args => rw [if_pos (by simp), if_pos ⟨hstatus, by simp⟩]; rfl
    · rw [if_neg hstatus, if_neg (fun h => hstatus h.1)]
      rfl

/-- What is made of the words behind `metrics`. -/
theorem metricsEncoder_eq (w₀ : List Byte) (hargs : args ≠ []) :
    metricsEncoder (w₀ :: args) 0x80 = encoded (AdminRequest.ofMetrics args) := by
  obtain ⟨w, args, rfl⟩ := List.exists_cons_of_ne_nil hargs
  rw [metricsEncoder, argument_cons_succ, argument_cons_zero, pure_bind, AdminRequest.ofMetrics]
  split_ifs <;> rfl

/-- **The encoder**, where the words are enough for it. -/
theorem encodeRequest_eq (h : ¬ Dangling argv) :
    encodeRequest argv argv.length = encoded (AdminRequest.ofWords argv) := by
  cases argv with
  | nil => exact absurd (.inl rfl) h
  | cons w args =>
    rw [encodeRequest, argument_cons_zero, pure_bind, AdminRequest.ofWords]
    by_cases hsock : w = ascii "sock"
    · rw [if_pos hsock, if_pos hsock]
      refine sockEncoder_eq w fun hargs => h ?_
      rw [hargs, hsock]
      exact .inr (.inl rfl)
    rw [if_neg hsock, if_neg hsock]
    by_cases htrans : w = ascii "trans"
    · rw [if_pos htrans, if_pos htrans]
      refine transEncoder_eq w (fun hargs => h ?_) (htrans ▸ h)
      rw [hargs, htrans]
      exact .inr (.inr (.inl rfl))
    rw [if_neg htrans, if_neg htrans]
    by_cases hmetrics : w = ascii "metrics"
    · rw [if_pos hmetrics, if_pos hmetrics]
      refine metricsEncoder_eq w fun hargs => h ?_
      rw [hargs, hmetrics]
      exact .inr (.inr (.inr (.inl rfl)))
    rw [if_neg hmetrics, if_neg hmetrics]
    split_ifs <;> rfl

/-- Where they are not. -/
theorem encodeRequest_dangling (h : Dangling argv) :
    (encodeRequest argv (max 1 argv.length)).result = .error .undefined := by
  rcases h with rfl | rfl | rfl | rfl | ⟨hlen, htake⟩
  · rfl
  · rfl
  · rfl
  · rfl
  · match argv with
    | [a, b, c, d, e] =>
      obtain ⟨rfl, rfl, rfl, rfl⟩ : a = _ ∧ b = _ ∧ c = _ ∧ d = _ := by simpa using htake
      rfl

/-! ## The words of a line -/

/-- Fewer strings take less. -/
theorem length_terminatedStrings_of_sublist {ss us : List (List Byte)} (h : ss.Sublist us) :
    (terminatedStrings ss).length ≤ (terminatedStrings us).length := by
  induction h with
  | slnil => exact Nat.le_refl _
  | cons u _ ih =>
    rw [terminatedStrings_cons, List.length_append, List.length_cons]
    omega
  | cons_cons u _ ih =>
    rw [terminatedStrings_cons, terminatedStrings_cons, List.length_append, List.length_append,
      List.length_cons, List.length_cons]
    omega

/-- The words have room where the line has. -/
theorem length_words (line : List Byte) :
    (terminatedStrings (words line)).length ≤ line.length + 1 := by
  have hfilter : (words line).Sublist ((cstr line).splitOn SP) := List.filter_sublist
  have hsplit := length_terminatedStrings (List.splitOn_ne_nil SP (cstr line))
  rw [List.intercalate_splitOn] at hsplit
  have hcstr : (cstr line).length ≤ line.length := List.IsPrefix.length_le (List.takeWhile_prefix _)
  have hle := length_terminatedStrings_of_sublist hfilter
  omega

/-- No word has a NUL. -/
theorem noNul_words {line w : List Byte} (hw : w ∈ words line) : (0 : Byte) ∉ w := by
  intro hnul
  have hline : (0 : Byte) ∈ cstr line := by
    have hmem := mem_intercalate_of_mem (x := SP) (List.mem_of_mem_filter hw) hnul
    rwa [List.intercalate_splitOn] at hmem
  exact not_mem_cstr line hline

/-- The parameters are among the words from the fifth on. -/
theorem AdminRequest.parameters_sublist {q : AdminRequest}
    (h : AdminRequest.ofWords argv = some q) :
    q.parameters.Sublist (argv.drop 4) := by
  cases argv with
  | nil => cases h
  | cons w args =>
    rw [ofWords] at h
    split_ifs at h
    · match args with
      | [] => obtain rfl := Option.some.inj h; exact List.nil_sublist _
      | [_] => obtain rfl := Option.some.inj h; exact List.nil_sublist _
      | a :: side :: rest =>
        rw [ofSock] at h
        split_ifs at h
        · match rest with
          | [] => obtain rfl := Option.some.inj h; exact List.nil_sublist _
          | [_] => obtain rfl := Option.some.inj h; exact List.nil_sublist _
          | [what, value] =>
            rw [ofSockMod] at h
            split_ifs at h
            obtain rfl := Option.some.inj h
            exact List.Sublist.refl _
          | _ :: _ :: _ :: _ => obtain rfl := Option.some.inj h; exact List.nil_sublist _
        all_goals
          obtain rfl := Option.some.inj h
          exact List.nil_sublist _
    · match args with
      | [] => cases h
      | a :: args =>
        rw [ofTrans] at h
        split_ifs at h
        · match args with
          | [] => obtain rfl := Option.some.inj h; exact List.nil_sublist _
          | [_] => obtain rfl := Option.some.inj h; exact List.nil_sublist _
          | [_, _] => obtain rfl := Option.some.inj h; exact List.nil_sublist _
          | side :: operation :: v :: rest =>
            rw [ofTransMod] at h
            split_ifs at h
            · obtain ⟨b, hb, rfl⟩ := Option.map_eq_some_iff.mp h
              obtain ⟨rest, rfl⟩ := List.head?_eq_some_iff.mp hb
              exact ((List.nil_sublist rest).cons_cons b).cons_cons v
            · obtain rfl := Option.some.inj h
              exact List.Sublist.refl _
        · obtain rfl := Option.some.inj h
          exact List.nil_sublist _
    · match args with
      | [] => cases h
      | a :: args =>
        rw [ofMetrics] at h
        split_ifs at h
        all_goals
          obtain rfl := Option.some.inj h
          exact List.nil_sublist _
    · obtain rfl := Option.some.inj h
      exact List.nil_sublist _

/-! ## The client -/

/-- Words the client is up to: it does not look for more, and has room for them. -/
structure Manageable (argv : List (List Byte)) : Prop where
  enough : ¬ Dangling argv
  room : argv.length ≤ 6

/-- The octets of a request as the client sends it, in front of what it leaves in its array. -/
def AdminRequest.message (q : AdminRequest) (rest : List Byte) : List Byte :=
  q.octet :: UInt8.ofNat q.parameters.length :: (terminatedStrings q.parameters ++ rest)

/-- The copies stay inside the buffer when all of them fit. -/
theorem copyParameters_inside {ss : List (List Byte)} {p : ℕ} (buffer : List Byte)
    (h : p + (terminatedStrings ss).length ≤ maxBuffer + 1) :
    (copyParameters ss p buffer).All ClientAccess.Inside := by
  induction ss generalizing p buffer with
  | nil => exact all_pure
  | cons s ss ih =>
    rw [terminatedStrings_cons, List.length_append, List.length_cons] at h
    rw [copyParameters]
    refine all_bind.mpr ⟨?_, fun _ _ => ih _ (by omega)⟩
    intro a ha
    obtain ⟨i, hi, rfl⟩ := List.mem_map.mp ha
    have hlt := (List.mem_range'_1.mp hi).2
    show i < maxBuffer + 1
    omega

/-- The message is composed within its array. -/
theorem composeMessage_inside {ss : List (List Byte)} (ebyte : Byte) (c : ClientMemory)
    (hfits : (terminatedStrings ss).length + 2 ≤ maxBuffer) :
    (composeMessage ebyte ss c).All ClientAccess.Inside := by
  refine all_bind.mpr ⟨?_, fun _ _ => all_bind.mpr ⟨?_, fun _ _ => all_pure⟩⟩
  · intro a ha
    have hlt : ∀ i ≤ 1, (ClientAccess.message i).Inside := by
      intro i hi
      show i < maxBuffer + 1
      exact Nat.lt_of_le_of_lt hi (by decide)
    rcases List.mem_cons.mp ha with rfl | ha
    · exact hlt 0 (Nat.zero_le 1)
    · rw [List.mem_singleton.mp ha]
      exact hlt 1 (Nat.le_refl 1)
  · exact copyParameters_inside _ (by omega)

variable {stdin : List Byte} {c : ClientMemory} {q : AdminRequest}

/-- The words are kept, and the octet and the parameters follow from them. -/
theorem clientRound_words (hargv : words (fgets 1000 stdin c.line) = argv) (h : ¬ Dangling argv) :
    clientRound stdin c = (do
      notes ((List.range argv.length).map .word)
      let (ebyte, parameters) ← encoded (AdminRequest.ofWords argv)
      if ebyte = 0xFF then pure none else do
        let message ← composeMessage ebyte parameters c
        pure (some message)) := by
  have hargc : max 1 argv.length = argv.length := by
    have hpos := List.length_pos_iff.mpr fun hnil : argv = [] => h (.inl hnil)
    omega
  rw [clientRound, hargv]
  simp only [hargc, encodeRequest_eq h]

/-- Six words are inside the array of words. -/
theorem words_inside (h : argv.length ≤ 6) :
    ∀ a ∈ (List.range argv.length).map ClientAccess.word, a.Inside := by
  intro a ha
  obtain ⟨i, hi, rfl⟩ := List.mem_map.mp ha
  have hlt := List.mem_range.mp hi
  show i < 6
  omega

/-- A line that is no command. -/
theorem clientRound_invalid (hargv : words (fgets 1000 stdin c.line) = argv) (h : Manageable argv)
    (hq : AdminRequest.ofWords argv = none) :
    (clientRound stdin c).All ClientAccess.Inside ∧ (clientRound stdin c).result = .ok none := by
  rw [clientRound_words hargv h.enough, hq]
  exact ⟨all_bind.mpr ⟨words_inside h.room, fun _ _ => all_bind.mpr ⟨all_pure, by
    intro x hx
    obtain rfl := Except.ok.inj hx
    exact all_pure⟩⟩, rfl⟩

/-- **A line that asks for something** is sent as that. -/
theorem clientRound_message (hargv : words (fgets 1000 stdin c.line) = argv) (h : Manageable argv)
    (hq : AdminRequest.ofWords argv = some q) :
    (clientRound stdin c).All ClientAccess.Inside ∧ ∃ rest,
      (clientRound stdin c).result = .ok (some (q.message rest)) ∧
        (q.message rest).length = maxBuffer := by
  have hsub := AdminRequest.parameters_sublist hq
  have hfits : (terminatedStrings q.parameters).length + 2 ≤ maxBuffer := by
    have hargs := length_terminatedStrings_of_sublist (hsub.trans (List.drop_sublist 4 argv))
    have hwords := length_words (fgets 1000 stdin c.line)
    have hline := length_fgets c.short stdin
    have hmax : maxBuffer = 1024 := rfl
    rw [hargv] at hwords
    omega
  obtain ⟨l, rest, hmessage, hrest⟩ := composeMessage_eq q.octet c hfits
  rw [clientRound_words hargv h.enough, hq]
  refine ⟨all_bind.mpr ⟨words_inside h.room, fun _ _ => all_bind.mpr ⟨?_, fun x hx => ?_⟩⟩,
    rest, ?_, ?_⟩
  · intro a ha
    obtain ⟨i, hi, rfl⟩ := List.mem_map.mp ha
    have hlt := (List.mem_range'_1.mp hi).2
    have hlen := hsub.length_le
    rw [List.length_drop] at hlen
    have hroom := h.room
    show i < 5
    omega
  · obtain rfl := Except.ok.inj hx
    simp only [if_neg q.octet_ne]
    exact all_bind.mpr ⟨composeMessage_inside _ _ hfits, fun _ _ => all_pure⟩
  · rw [notes_bind]
    simp only [encoded, mk_ok_bind, if_neg q.octet_ne, hmessage]
    rfl
  · simp only [AdminRequest.message, List.length_cons, List.length_append]
    omega

/-- A line that the client is not up to. -/
theorem clientRound_unmanageable (h : ¬ Manageable (words (fgets 1000 stdin c.line))) :
    ¬ ((clientRound stdin c).All ClientAccess.Inside ∧
      ∃ x, (clientRound stdin c).result = .ok x) := by
  rintro ⟨hinside, x, hx⟩
  refine h ⟨fun hdangling => ?_, ?_⟩
  · have hencode := encodeRequest_dangling hdangling
    have herror : (clientRound stdin c).result = .error .undefined := by
      rw [clientRound, notes_bind]
      exact congrArg Traced.result (bind_of_error hencode)
    rw [herror] at hx
    cases hx
  · by_contra hmany
    have hword : ClientAccess.word 6 ∈ (clientRound stdin c).trace :=
      mem_trace_bind.mpr (.inl (List.mem_map_of_mem (List.mem_range.mpr (by omega))))
    exact absurd (hinside _ hword) (Nat.lt_irrefl 6)

/-- **What the client is up to.**  It stays within its arrays and follows no pointer that is NULL
or stale exactly when the line has at most six words, and as many as the encoders look for.  At the
end of the input the line is what was left of the one before. -/
theorem client_manages (stdin : List Byte) (c : ClientMemory) :
    ((clientRound stdin c).All ClientAccess.Inside ∧ ∃ x, (clientRound stdin c).result = .ok x) ↔
      Manageable (words (fgets 1000 stdin c.line)) := by
  refine ⟨fun hsafe => by_contra fun h => clientRound_unmanageable h hsafe, fun h => ?_⟩
  cases hq : AdminRequest.ofWords (words (fgets 1000 stdin c.line)) with
  | none =>
    obtain ⟨hinside, hresult⟩ := clientRound_invalid rfl h hq
    exact ⟨hinside, _, hresult⟩
  | some q =>
    obtain ⟨hinside, rest, hresult, -⟩ := clientRound_message rfl h hq
    exact ⟨hinside, _, hresult⟩

/-! ## The service -/

/-- What is assigned elsewhere than the port of the origin is not assigned. -/
theorem decodeRequest_sockMod (value : List Byte) (unset : Byte) (g : Globals) :
    ∀ octet ∈ [0x11, 0x14, 0x15],
      decodeRequest octet [value] 1 unset g = ⟨[], .ok (0x00, g)⟩ := by
  simp only [List.forall_mem_cons, List.not_mem_nil, false_imp_iff, implies_true, and_true]
  exact ⟨rfl, rfl, rfl⟩

/-- The decoders do what is asked for. -/
theorem decodeRequest_effect (hq : ∀ s ∈ q.parameters, (0 : Byte) ∉ s) (unset : Byte)
    {g : Globals} (h : ¬ q.Lost g) :
    (decodeRequest q.octet q.parameters q.parameters.length unset g).result =
      .ok (q.answer unset, q.effect g) := by
  cases q with
  | sockStatus ofProxy => cases ofProxy <;> rfl
  | sockMod ofProxy address value =>
    have hport : decodeRequest 0x10 [value] 1 unset g =
        ⟨[.use 0], .ok (if 57 < value.headD 0 ∨ value.headD 0 < 48 then 0x00 else 0x80, g)⟩ := rfl
    have hother := decodeRequest_sockMod value unset g
    cases ofProxy <;> cases address
    · exact congrArg Traced.result hport
    · exact congrArg Traced.result (hother 0x11 (by simp))
    · exact congrArg Traced.result (hother 0x14 (by simp))
    · exact congrArg Traced.result (hother 0x15 (by simp))
  | transStatus =>
    have hmedias : g.filterMedias.isSome :=
      Option.isSome_iff_ne_none.mpr fun hnone => h ⟨rfl, hnone⟩
    have hstatus : transDecoder 0x40 [] 0 g = pure (0x80, g) := by
      rw [transDecoder, if_pos rfl, if_pos hmedias]
    exact congrArg Traced.result hstatus
  | replace first second =>
    have hreplace : decodeRequest 0x50 [first, second] 2 unset g = ⟨[], .ok (0x00, g)⟩ := rfl
    exact congrArg Traced.result hreplace
  | ban type types =>
    obtain ⟨l, hban, -⟩ := ban_eq (List.cons_ne_nil type types) g
    have hdecode : decodeRequest 0x54 (type :: types) (type :: types).length unset g =
        ban (type :: types) (type :: types).length g := rfl
    rw [cstr_joinedTypes (List.cons_ne_nil type types) hq, ← List.length_flatten] at hban
    exact congrArg Traced.result (hdecode.trans hban)
  | metrics metric => cases metric <;> rfl
  | config => rfl

/-- What the service touches for a request with `n` parameters: the array of the connection and the
octet behind it, the parameters, and the list of types, with an octet behind it for each type but
the first. -/
def Access.Reaches (n : ℕ) : Access → Prop
  | .read i => i ≤ maxBuffer
  | .write i => i ≤ maxBuffer
  | .build i => i < n
  | .use i => i < n
  | .types i reserved => i + 1 < reserved + n
  | .wild => False

/-- The decoders reach no further. -/
theorem decodeRequest_reaches (unset : Byte) {g : Globals} (h : ¬ q.Lost g) :
    (decodeRequest q.octet q.parameters q.parameters.length unset g).All
      (Access.Reaches q.parameters.length) := by
  cases q with
  | sockStatus ofProxy => cases ofProxy <;> exact all_pure
  | sockMod ofProxy address value =>
    have hport : (decodeRequest 0x10 [value] 1 unset g).All (Access.Reaches 1) := by
      rintro a ha
      rw [List.mem_singleton.mp (show a ∈ [Access.use 0] from ha)]
      exact Nat.one_pos
    have hother : ∀ octet ∈ [0x11, 0x14, 0x15],
        (decodeRequest octet [value] 1 unset g).All (Access.Reaches 1) := by
      intro octet hmem a ha
      rw [decodeRequest_sockMod value unset g octet hmem] at ha
      exact absurd ha List.not_mem_nil
    cases ofProxy <;> cases address
    · exact hport
    · exact hother 0x11 (by simp)
    · exact hother 0x14 (by simp)
    · exact hother 0x15 (by simp)
  | transStatus =>
    have hmedias : g.filterMedias.isSome :=
      Option.isSome_iff_ne_none.mpr fun hnone => h ⟨rfl, hnone⟩
    have hstatus : transDecoder 0x40 [] 0 g = pure (0x80, g) := by
      rw [transDecoder, if_pos rfl, if_pos hmedias]
    show (transDecoder 0x40 [] 0 g).All _
    rw [hstatus]
    exact all_pure
  | replace first second =>
    have hreplace : (decodeRequest 0x50 [first, second] 2 unset g).All (Access.Reaches 2) :=
      all_pure
    exact hreplace
  | ban type types =>
    obtain ⟨l, hban, hl⟩ := ban_eq (List.cons_ne_nil type types) g
    obtain ⟨-, hreach⟩ := ban_reach (List.cons_ne_nil type types) g
      (j := ((type :: types).map List.length).sum + types.length) (by rw [List.length_cons]; omega)
    have hdecode : decodeRequest 0x54 (type :: types) (type :: types).length unset g =
        ban (type :: types) (type :: types).length g := rfl
    suffices h : (decodeRequest 0x54 (type :: types) (type :: types).length unset g).All
        (Access.Reaches (type :: types).length) from h
    rw [hdecode]
    intro a ha
    rcases hl a (by rwa [hban] at ha) with ⟨i, hi, rfl⟩ | ⟨i, reserved, rfl⟩
    · exact hi
    · obtain ⟨rfl, hle⟩ := hreach i reserved ha
      show i + 1 < _ + (types.length + 1)
      omega
  | metrics metric => cases metric <;> exact all_pure
  | config => exact all_pure

section
variable {rest : List Byte} {r : Received}

/-- The message is parsed back into the request. -/
theorem requestRead_message (hq : ∀ s ∈ q.parameters, (0 : Byte) ∉ s)
    (hcount : q.parameters.length < 256) (hr : r.octets = q.message rest) (io : AdminIo)
    (hmalloc : io.malloc = true) (m : AdminMemory) (g : Globals) :
    ∃ l, (∀ a ∈ l, a.Reaches q.parameters.length) ∧ requestRead (some r) io m g = (do
      notes l
      let (response, g) ← decodeRequest q.octet q.parameters q.parameters.length io.unset g
      note (.write 0)
      pure (if io.sent then .requestRead else .error, (m.bzero.receive r).answer response, g)) := by
  have hoperation : r.operation = q.octet := by
    rw [Received.operation, hr]
    rfl
  have hannounced : r.announced = q.parameters.length := by
    rw [Received.announced, hr]
    show (UInt8.ofNat q.parameters.length).toNat = _
    rw [UInt8.toNat_ofNat']
    exact Nat.mod_eq_of_lt hcount
  have hstrings : r.strings = terminatedStrings q.parameters ++ rest := by
    rw [Received.strings, hr]
    rfl
  obtain ⟨rest', hdrop⟩ := receive_drop (r := r) m.bzero (by rw [hr]; simp [AdminRequest.message])
  rw [hstrings, List.append_assoc] at hdrop
  -- the strings are parsed as they were sent, since none has a NUL
  obtain ⟨l, hparse, hl, -⟩ := parseParameters_within (i := 0) hq hdrop
  have hprint := printParameters_eq [] q.parameters
  rw [List.nil_append, List.length_nil] at hprint
  have hle := r.le
  have hlength : 2 + (terminatedStrings q.parameters).length + rest.length = r.octets.length := by
    rw [hr]
    simp only [AdminRequest.message, List.length_cons, List.length_append]
    omega
  refine ⟨[.write r.octets.length, .read 0, .read 1] ++ (l ++
    (List.range' 0 q.parameters.length).map .use), fun a ha => ?_, ?_⟩
  · rcases List.mem_append.mp ha with ha | ha
    · simp only [List.mem_cons, List.not_mem_nil, or_false] at ha
      rcases ha with rfl | rfl | rfl
      · exact hle
      · exact Nat.zero_le maxBuffer
      · exact (by decide : 1 ≤ maxBuffer)
    rcases List.mem_append.mp ha with ha | ha
    · rcases hl a ha with ⟨j, hj, rfl⟩ | ⟨j, -, hj, rfl⟩
      · show j ≤ maxBuffer
        omega
      · show j < q.parameters.length
        omega
    · obtain ⟨j, hj, rfl⟩ := List.mem_map.mp ha
      have hlt := (List.mem_range'_1.mp hj).2
      show j < q.parameters.length
      omega
  rw [requestRead_eq, if_neg (by simp [hmalloc]), hannounced, hparse, mk_ok_bind, afterParameters,
    hannounced, hprint, mk_ok_bind, hoperation]
  exact Traced.ext (by simp) rfl

/-- **A request as it comes** is performed, and its answer goes back. -/
theorem requestRead_effect (hq : ∀ s ∈ q.parameters, (0 : Byte) ∉ s)
    (hcount : q.parameters.length < 256) (hr : r.octets = q.message rest) (unset : Byte)
    (sent : Bool) (m : AdminMemory) {g : Globals} (h : ¬ q.Lost g) :
    (requestRead (some r) ⟨true, unset, sent⟩ m g).All (Access.Reaches q.parameters.length) ∧
      ∃ state m', (requestRead (some r) ⟨true, unset, sent⟩ m g).result =
        .ok (state, m', q.effect g) ∧ m'.octets.head? = some (q.answer unset) := by
  obtain ⟨l, hl, hread⟩ := requestRead_message hq hcount hr ⟨true, unset, sent⟩ rfl m g
  refine ⟨?_, if sent then .requestRead else .error,
    (m.bzero.receive r).answer (q.answer unset), ?_, ?_⟩
  · rw [hread]
    refine all_bind.mpr ⟨hl, fun _ _ => all_bind.mpr ⟨decodeRequest_reaches unset h, fun _ _ => ?_⟩⟩
    exact all_bind.mpr ⟨all_note.mpr (Nat.zero_le maxBuffer), fun _ _ => all_pure⟩
  · rw [hread, notes_bind]
    exact congrArg Traced.result (bind_of_ok (decodeRequest_effect hq unset h))
  · obtain ⟨x, xs, hoctets⟩ : ∃ x xs, (m.bzero.receive r).octets = x :: xs :=
      List.exists_cons_of_length_pos (Nat.lt_of_le_of_lt (Nat.zero_le _) (m.bzero.receive r).size)
    show ((m.bzero.receive r).octets.set 0 (q.answer unset)).head? = _
    rw [hoctets]
    rfl

end

end

end Pop3Proxy
