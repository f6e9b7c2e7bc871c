/-
# Where a part may begin

Between two octets the list can be reset, the name of a field is forgotten when its value is
read, and of a line something has been seen in a body alone.  So the header behind a boundary
that is recognised is read like the one in front of a mail.
-/
import Pop3Proxy.Filter.Boundary
import Pop3Proxy.Filter.PartHeader

namespace Pop3Proxy

/-! ## The list -/

/-- None of the subtypes of a type is under way once they have been reset. -/
def ResetToFresh (ss : List Subtype) : Prop :=
  ss ≠ [] ∧ ∀ s p, .named s p ∈ resetSubtypes ss → p = 0

/-- The list has entries, and can be reset. -/
structure Resettable (ts : List TypeList) : Prop where
  entries : ts ≠ []
  subtypes : ∀ ss ∈ ts.map TypeList.subtypes, ResetToFresh ss

/-- A matcher of the reset subtypes is at its start, or was not reached. -/
theorem mem_resetSubtypes {ss : List Subtype} {s : List Byte} {p : ℕ}
    (h : .named s p ∈ resetSubtypes ss) : p = 0 ∨ .named s p ∈ ss := by
  induction ss with
  | nil => cases h
  | cons s' ss ih =>
    cases s' with
    | wildcard => exact .inr h
    | named s' p' =>
      rcases List.mem_cons.mp h with heq | hmem
      · exact .inl (Subtype.named.inj heq).2
      · exact (ih hmem).imp_right (List.mem_cons_of_mem _)

/-- Resetting twice does no more than resetting once. -/
theorem resetSubtypes_idem (ss : List Subtype) :
    resetSubtypes (resetSubtypes ss) = resetSubtypes ss := by
  induction ss with
  | nil => rfl
  | cons s ss ih =>
    cases s with
    | wildcard => rfl
    | named s p => simp only [resetSubtypes, ih]

/-- Without a wildcard every matcher is reset. -/
theorem resetSubtypes_named {ss : List Subtype} (h : .wildcard ∉ ss) {s : List Byte} {p : ℕ}
    (hmem : .named s p ∈ resetSubtypes ss) : p = 0 := by
  induction ss with
  | nil => cases hmem
  | cons s' ss ih =>
    cases s' with
    | wildcard => exact absurd List.mem_cons_self h
    | named s' p' =>
      rcases List.mem_cons.mp hmem with heq | hmem
      · exact (Subtype.named.inj heq).2
      · exact ih (fun hw => h (List.mem_cons_of_mem _ hw)) hmem

/-- A wildcard behind the first subtype cannot be asked. -/
theorem feedNext_named {c : Byte} {ss ss' : List Subtype} {current current' : Option StringCmp}
    (h : feedNext c current ss = .ok (ss', current')) : .wildcard ∉ ss' := by
  induction ss generalizing current current' ss' with
  | nil =>
    obtain ⟨rfl, -⟩ := Prod.mk.inj (Except.ok.inj h)
    exact List.not_mem_nil
  | cons s ss ih =>
    cases s with
    | wildcard => cases h
    | named s p =>
      rw [feedNext, Subtype.feed, ok_bind] at h
      obtain ⟨⟨ss₁, current₁⟩, h₁, h⟩ := bind_eq_ok.mp h
      obtain ⟨rfl, -⟩ := Prod.mk.inj (Except.ok.inj h)
      intro hw
      rcases List.mem_cons.mp hw with heq | hw
      · cases heq
      · exact ih h₁ hw

/-- An octet does not take away what resetting makes fresh. -/
theorem ResetToFresh.feed {c : Byte} {ss ss' : List Subtype} {current : Option StringCmp}
    (h : ResetToFresh ss) (hfeed : feedSubtypes c ss = .ok (ss', current)) : ResetToFresh ss' := by
  cases ss with
  | nil => cases hfeed
  | cons s ss =>
    cases s with
    | wildcard =>
      -- what stands behind it is neither fed nor reset
      obtain ⟨rfl, -⟩ := Prod.mk.inj (Except.ok.inj hfeed)
      exact h
    | named s p =>
      rw [feedSubtypes, Subtype.feed, ok_bind] at hfeed
      · obtain ⟨⟨ss₁, current₁⟩, h₁, hfeed⟩ := bind_eq_ok.mp hfeed
        obtain ⟨rfl, -⟩ := Prod.mk.inj (Except.ok.inj hfeed)
        refine ⟨List.cons_ne_nil _ _, fun s' p' => resetSubtypes_named fun hw => ?_⟩
        rcases List.mem_cons.mp hw with heq | hw
        · cases heq
        · exact feedNext_named h₁ hw
      · intro heq
        cases heq

section
variable {ts : List TypeList}

/-- An octet for the types leaves the list resettable. -/
theorem Resettable.feedTypes (h : Resettable ts) (c : Byte) :
    Resettable (Pop3Proxy.feedTypes c ts).1 := by
  refine ⟨feedTypes_ne_nil h.entries c, ?_⟩
  rw [subtypes_feedTypes]
  exact h.subtypes

/-- So does a type in the place of another, if its own subtypes can be reset. -/
theorem Resettable.set (h : Resettable ts) {t : TypeList} (ht : ResetToFresh t.subtypes) (i : ℕ) :
    Resettable (ts.set i t) := by
  refine ⟨fun hnil => h.entries ((List.set_eq_nil_iff i t).mp hnil), fun ss hss => ?_⟩
  obtain ⟨t', ht', rfl⟩ := List.mem_map.mp hss
  rcases List.mem_or_eq_of_mem_set ht' with hmem | rfl
  · exact h.subtypes t'.subtypes (List.mem_map_of_mem hmem)
  · exact ht

/-- **A reset** leaves the list as it was built, and one that can be reset again. -/
theorem Resettable.reset (h : Resettable ts) :
    Resettable (resetTypes ts) ∧ FreshTypes (resetTypes ts) := by
  have hsub (t : TypeList) (ht : t ∈ ts) := h.subtypes t.subtypes (List.mem_map_of_mem ht)
  refine ⟨⟨?_, fun ss hss => ?_⟩, ⟨fun t ht => ?_, fun t ht s p hs => ?_⟩⟩
  · rw [resetTypes, Ne, List.map_eq_nil_iff]
    exact h.entries
  · obtain ⟨t', ht', rfl⟩ := List.mem_map.mp hss
    obtain ⟨t, ht, rfl⟩ := List.mem_map.mp ht'
    refine ⟨resetSubtypes_ne_nil (hsub t ht).1, ?_⟩
    show ∀ s p, .named s p ∈ resetSubtypes (resetSubtypes t.subtypes) → p = 0
    rw [resetSubtypes_idem]
    exact (hsub t ht).2
  · obtain ⟨t', ht', rfl⟩ := List.mem_map.mp ht
    exact ⟨rfl, resetSubtypes_ne_nil (hsub t' ht').1⟩
  · obtain ⟨t', ht', rfl⟩ := List.mem_map.mp ht
    exact (hsub t' ht').2 s p hs

/-- A list that is fresh can be reset. -/
theorem FreshTypes.resettable (h : FreshTypes ts) (hne : ts ≠ []) : Resettable ts := by
  refine ⟨hne, fun ss hss => ?_⟩
  obtain ⟨t, ht, rfl⟩ := List.mem_map.mp hss
  refine ⟨(h.types t ht).2, fun s p hs => ?_⟩
  rcases mem_resetSubtypes hs with hzero | hmem
  · exact hzero
  · exact h.subtypes t ht s p hmem

/-- The matcher of a new subtype is at its start. -/
theorem ofName_fresh {subtype s : List Byte} {p : ℕ}
    (h : Subtype.ofName subtype = .named s p) : p = 0 := by
  rw [Subtype.ofName] at h
  split_ifs at h
  exact (Subtype.named.inj h).2.symm

/-- A subtype more. -/
theorem FreshTypes.add (h : FreshTypes ts) {t : TypeList} (ht : t ∈ ts) (subtype : List Byte) :
    (t.add subtype).typeParser = 0 ∧ ∀ s p, .named s p ∈ (t.add subtype).subtypes → p = 0 := by
  rw [TypeList.add]
  split
  · exact ⟨(h.types t ht).1, h.subtypes t ht⟩
  · refine ⟨(h.types t ht).1, fun s p hs => ?_⟩
    cases List.mem_singleton.mp hs
  · rename_i last _ hlast
    refine ⟨(h.types t ht).1, fun s p hs => ?_⟩
    rcases List.mem_cons.mp hs with rfl | hs
    · exact h.subtypes t ht s p (List.mem_of_getLast? hlast)
    · exact ofName_fresh (List.mem_singleton.mp hs).symm

/-- An entry more leaves the list fresh. -/
theorem FreshTypes.insertType (h : FreshTypes ts) (type subtype : List Byte) :
    FreshTypes (Pop3Proxy.insertType type subtype ts) := by
  have hsub := subtypes_insertType (fun t ht => (h.types t ht).2) type subtype
  have hall : ∀ t ∈ Pop3Proxy.insertType type subtype ts,
      t.typeParser = 0 ∧ ∀ s p, .named s p ∈ t.subtypes → p = 0 := by
    clear hsub
    induction ts with
    | nil =>
      intro t ht
      obtain rfl := List.mem_singleton.mp ht
      exact ⟨rfl, fun s p hs => ofName_fresh (List.mem_singleton.mp hs).symm⟩
    | cons t ts ih =>
      have hts : FreshTypes ts := ⟨fun t' ht' => h.types t' (List.mem_cons_of_mem t ht'),
        fun t' ht' => h.subtypes t' (List.mem_cons_of_mem t ht')⟩
      intro t' ht'
      rw [Pop3Proxy.insertType] at ht'
      split_ifs at ht'
      · rcases List.mem_cons.mp ht' with rfl | ht'
        · exact h.add List.mem_cons_self subtype
        · exact ⟨(hts.types t' ht').1, hts.subtypes t' ht'⟩
      · rcases List.mem_cons.mp ht' with rfl | ht'
        · exact ⟨(h.types t' List.mem_cons_self).1, h.subtypes t' List.mem_cons_self⟩
        · exact ih hts t' ht'
  exact ⟨fun t ht => ⟨(hall t ht).1, hsub t ht⟩, fun t ht => (hall t ht).2⟩

/-- The list as it is built. -/
theorem freshTypes_mediaTypesOf (entries : List (List Byte × List Byte)) :
    FreshTypes (mediaTypesOf entries) := by
  induction entries using List.reverseRecOn with
  | nil => exact ⟨nofun, nofun⟩
  | append_singleton entries e ih =>
    rw [mediaTypesOf, List.foldl_append]
    exact ih.insertType e.1 e.2

end

/-! ## A content type -/

/-- What an octet of a content type leaves alone. -/
structure TypeKept (ctx ctx' : Ctx) : Prop where
  line : ctx'.possibleBoundaryString = ctx.possibleBoundaryString
  typeHeader : ctx'.ctypeHeader = ctx.ctypeHeader
  list : Resettable ctx.mediaTypes → Resettable ctx'.mediaTypes

section
variable {env : FilterEnv} {ctx ctx' : Ctx} {c : Byte}

/-- What is kept by two steps is kept by both together. -/
theorem TypeKept.trans {ctx'' : Ctx} (h : TypeKept ctx ctx') (h' : TypeKept ctx' ctx'') :
    TypeKept ctx ctx'' :=
  ⟨h'.line.trans h.line, h'.typeHeader.trans h.typeHeader, fun hlist => h'.list (h.list hlist)⟩

/-- An octet of the type keeps it. -/
theorem contentTypeMatch_typeKept (h : contentTypeMatch ctx c = .ok ctx') : TypeKept ctx ctx' := by
  rw [contentTypeMatch] at h
  split_ifs at h
  have hlist (ts : List TypeList) (i : Option ℕ) (hfeed : feedTypes c ctx.mediaTypes = (ts, i))
      (hts : Resettable ctx.mediaTypes) : Resettable ts := by
    rw [← show (feedTypes c ctx.mediaTypes).1 = ts from congrArg Prod.fst hfeed]
    exact hts.feedTypes c
  split at h
  · rename_i ts i hfeed
    obtain rfl := Except.ok.inj h
    exact ⟨rfl, rfl, hlist ts (some i) hfeed⟩
  · rename_i ts hfeed
    obtain rfl := Except.ok.inj h
    exact ⟨rfl, rfl, hlist ts none hfeed⟩

/-- An octet of the subtype keeps it. -/
theorem contentSubtypeMatch_typeKept (h : contentSubtypeMatch ctx c = .ok ctx') :
    TypeKept ctx ctx' := by
  rw [contentSubtypeMatch] at h
  split at h
  · cases h
  · rename_i i _
    split at h
    · cases h
    · rename_i t ht
      obtain ⟨⟨ss, current⟩, hfeed, h⟩ := bind_eq_ok.mp h
      obtain rfl := Except.ok.inj h
      have hlist (hts : Resettable ctx.mediaTypes) :
          Resettable (ctx.mediaTypes.set i { t with subtypes := ss }) := by
        refine hts.set ?_ i
        exact (hts.subtypes _ (List.mem_map_of_mem (List.mem_of_getElem? ht))).feed hfeed
      split_ifs <;> exact ⟨rfl, rfl, hlist⟩

/-- A content type has nothing to do with the names, nor with the lines of a body. -/
theorem contentTypeMsg_typeKept (h : contentTypeMsg env ctx c = .ok ctx') : TypeKept ctx ctx' := by
  obtain ⟨s, ⟨ty, data, n⟩, d, hfeed, hdata, hn, -, -⟩ := mimeTypeFeed_single ctx.contentType c
  subst hdata hn
  rw [contentTypeMsg_single hfeed] at h
  cases ty with
  | type =>
    obtain ⟨ctx₁, h₁, rfl⟩ := typeEvent_ok h
    have hkept := contentTypeMatch_typeKept h₁
    exact ⟨hkept.line, hkept.typeHeader, hkept.list⟩
  | subtype =>
    have hrfc822 (ctx₁ : Ctx) :
        TypeKept ctx₁ (if ctx₁.messageDetected then rfc822Header ctx₁ d else ctx₁) := by
      split_ifs <;> exact ⟨rfl, rfl, id⟩
    have hstart : TypeKept ctx { ctx with contentType := s } := ⟨rfl, rfl, id⟩
    obtain ⟨ctx₁, h₁, rfl⟩ := subtypeEvent_ok h
    split_ifs at h₁
    · exact (hstart.trans (contentSubtypeMatch_typeKept h₁)).trans (hrfc822 ctx₁)
    · obtain rfl := Except.ok.inj h₁
      exact hstart.trans (hrfc822 _)
  | parameter =>
    obtain rfl := Except.ok.inj h
    simp only [List.replicate, List.foldl_cons, List.foldl_nil, boundaryCharsetMatch]
    split_ifs <;> exact ⟨rfl, rfl, id⟩
  | delimiter =>
    obtain rfl := Except.ok.inj h
    split_ifs <;> exact ⟨rfl, rfl, id⟩
  | delimiterEnd =>
    obtain rfl := Except.ok.inj h
    split_ifs <;> exact ⟨rfl, rfl, id⟩
  | typeEnd | parameterStart | boundaryEnd | delimiterStart | unexpected =>
    obtain rfl := Except.ok.inj h
    exact ⟨rfl, rfl, id⟩

/-! ## Events -/

/-- What an event leaves: a list that can be reset, the state that the tokenizer has been put in
or the one in front of a name, and nothing of the last name until the next is read. -/
structure EventLeaves (ctx : Ctx) (e : ParserEvent MimeMsgType) (ctx' : Ctx) : Prop where
  list : Resettable ctx.mediaTypes → Resettable ctx'.mediaTypes
  msg : ctx'.msg = ctx.msg ∨ ctx'.msg = .name0
  names : e.type ≠ .name → ctx.ctypeHeader = 0 ∧ ctx.ctransferEncodingHeader = 0 →
    ctx'.ctypeHeader = 0 ∧ ctx'.ctransferEncodingHeader = 0

/-- An octet of a value. -/
theorem msgValue_leaves {d : Byte} (h : msgValue env ctx (MimeMsg.value d) = .ok ctx') :
    EventLeaves ctx (MimeMsg.value d) ctx' := by
  have hwrite {ctx₁ : Ctx} (h₁ : (if ctx₁.msgContentTransferEncodingFieldDetected = some true ∧
      ctx₁.mediaFilterApply then Except.ok ctx₁ else writeValue ctx₁ d) = .ok ctx') :
      ctx'.mediaTypes = ctx₁.mediaTypes ∧ ctx'.msg = ctx₁.msg ∧
        ctx'.ctypeHeader = ctx₁.ctypeHeader ∧
        ctx'.ctransferEncodingHeader = ctx₁.ctransferEncodingHeader := by
    split_ifs at h₁
    · obtain rfl := Except.ok.inj h₁
      exact ⟨rfl, rfl, rfl, rfl⟩
    · rw [writeValue_eq h₁]
      exact ⟨rfl, rfl, rfl, rfl⟩
  rw [msgValue] at h
  split_ifs at h
  · obtain ⟨ctx₁, h₁, h⟩ := bind_eq_ok.mp h
    have hone : contentTypeMsg env ctx d = .ok ctx₁ := by
      simpa [MimeMsg.value] using h₁
    have hkept := contentTypeMsg_typeKept hone
    obtain ⟨-, hsurr⟩ := contentTypeMsg_watcher hone
    obtain ⟨htypes, hmsg, htype, hencoding⟩ := hwrite h
    refine ⟨?_, .inl (hmsg.trans (congrArg Surroundings.msg hsurr)), fun _ hzero => ⟨?_, ?_⟩⟩
    · rw [htypes]
      exact hkept.list
    · exact (htype.trans hkept.typeHeader).trans hzero.1
    · exact (hencoding.trans (congrArg Surroundings.ctransferEncodingHeader hsurr)).trans hzero.2
  · obtain ⟨htypes, hmsg, htype, hencoding⟩ := hwrite h
    refine ⟨?_, .inl hmsg, fun _ hzero => ⟨htype.trans hzero.1, hencoding.trans hzero.2⟩⟩
    rw [htypes]
    exact id

/-- A part begins. -/
structure PartBegun (ctx ctx' : Ctx) : Prop where
  msg : ctx'.msg = .name0
  types : ctx'.mediaTypes = resetTypes ctx.mediaTypes
  state : ctx'.contentType = .type0
  apply : ctx'.mediaFilterApply = false
  encodingField : ctx'.msgContentTransferEncodingFieldDetected = none

/-- What the end of a line of a body does to the fields: nothing, unless a part begins. -/
structure LineEnded (ctx ctx' : Ctx) : Prop where
  typeHeader : ctx'.ctypeHeader = ctx.ctypeHeader
  encodingHeader : ctx'.ctransferEncodingHeader = ctx.ctransferEncodingHeader
  typeField : ctx'.msgContentTypeFieldDetected = ctx.msgContentTypeFieldDetected
  rfc822Detected : ctx'.rfc822Detected = ctx.rfc822Detected
  outcome : ctx'.msg = ctx.msg ∧ ctx'.mediaTypes = ctx.mediaTypes ∨ PartBegun ctx ctx'

/-- **The end of a line** of a body. -/
theorem msgBodyNewline_lineEnded {e : ParserEvent MimeMsgType}
    (h : msgBodyNewline env ctx e = .ok ctx') : LineEnded ctx ctx' := by
  obtain ⟨mail, hcopy⟩ : ∃ mail, (if ctx.mediaFilterApply then ctx else ctx.emit (e.octet 0)) =
      { ctx with mail := mail } := by
    split_ifs
    · exact ⟨_, rfl⟩
    · exact ⟨_, rfl⟩
  rw [msgBodyNewline, hcopy] at h
  obtain ⟨ctx₁, h₁, h⟩ := bind_eq_ok.mp h
  obtain ⟨ctx₂, h₂, h⟩ := bind_eq_ok.mp h
  obtain rfl := Except.ok.inj h
  suffices LineEnded ctx ctx₂ from
    ⟨this.typeHeader, this.encodingHeader, this.typeField, this.rfc822Detected,
      this.outcome.imp_right fun hb => ⟨hb.msg, hb.types, hb.state, hb.apply, hb.encodingField⟩⟩
  -- the boundary behind the last part leaves them alone
  have hquiet (hsame : ∃ n, ctx₁ = { { ctx with mail := mail } with strings := n }) :
      LineEnded ctx ctx₂ := by
    obtain ⟨n, rfl⟩ := hsame
    rw [lastBoundary] at h₂
    split_ifs at h₂
    · obtain ⟨⟨same, ctx₃⟩, hpeek, h₂⟩ := bind_eq_ok.mp h₂
      obtain ⟨top, rest, -, -, rfl⟩ := peekIs_eq hpeek
      obtain rfl := Except.ok.inj h₂
      cases same with
      | false => exact ⟨rfl, rfl, rfl, rfl, .inl ⟨rfl, rfl⟩⟩
      | true =>
        simp only [boundaryEndFound, if_true]
        split_ifs <;> exact ⟨rfl, rfl, rfl, rfl, .inl ⟨rfl, rfl⟩⟩
    · obtain rfl := Except.ok.inj h₂
      exact ⟨rfl, rfl, rfl, rfl, .inl ⟨rfl, rfl⟩⟩
  rw [partBoundary] at h₁
  split_ifs at h₁
  · obtain ⟨⟨same, ctx₃⟩, hpeek, h₁⟩ := bind_eq_ok.mp h₁
    obtain ⟨top, rest, -, -, rfl⟩ := peekIs_eq hpeek
    split_ifs at h₁ with hsame
    · have hend : ctx.boundaryEnd = false := by simpa using (Bool.and_eq_true_iff.mp hsame).2
      rw [boundaryFound, resetParserTypesAndSubtypes] at h₁
      have hdone : ∃ mail', ctx₁ = { ctx with
          mail := mail', strings := ctx.strings + 1, possibleBoundaryString := [], msg := .name0,
          mediaFilterApply := false, boundaryParserDetector := 0, boundaryDetected := false,
          msgContentTransferEncodingFieldDetected := none, contentType := .type0,
          mediaSubtypes := none, mediaTypes := resetTypes ctx.mediaTypes } := by
        split_ifs at h₁ <;> exact ⟨_, (Except.ok.inj h₁).symm⟩
      obtain ⟨mail', rfl⟩ := hdone
      rw [lastBoundary, if_neg (by simp [hend])] at h₂
      obtain rfl := Except.ok.inj h₂
      exact ⟨rfl, rfl, rfl, rfl, .inr ⟨rfl, rfl, rfl, rfl, rfl⟩⟩
    · exact hquiet ⟨_, (Except.ok.inj h₁).symm⟩
  · exact hquiet ⟨ctx.strings, (Except.ok.inj h₁).symm⟩

/-- An octet of a line does nothing to the fields. -/
theorem msgBody_lineEnded (ctx : Ctx) (e : ParserEvent MimeMsgType) :
    LineEnded ctx (msgBody ctx e) := by
  obtain ⟨dd, pb, be, l, h⟩ := boundaryLine_dashSeen
    (if ctx.mediaFilterApply then ctx else ctx.emit (e.octet 0)) (e.octet 0)
  simp only [msgBody, h]
  split_ifs <;> exact ⟨rfl, rfl, rfl, rfl, .inl ⟨rfl, rfl⟩⟩

/-- A body that is no message of its own. -/
theorem msgBodyStart_mail (env : FilterEnv) (h : ctx.rfc822Detected = false)
    (e : ParserEvent MimeMsgType) : ∃ mail, msgBodyStart env ctx e = { ctx with mail := mail } := by
  simp only [msgBodyStart, h, Bool.false_eq_true, if_false, printFilterMsg, Ctx.insertText,
    Ctx.emit]
  split_ifs
  · exact ⟨_, rfl⟩
  · exact ⟨_, rfl⟩

/-- **An event**. -/
theorem mimeMsgEvent_leaves {e : ParserEvent MimeMsgType} (hvalue : ValueEvent e)
    (h : mimeMsgEvent env ctx e = .ok ctx') : EventLeaves ctx e ctx' := by
  obtain ⟨ty, data, n⟩ := e
  cases ty with
  | name =>
    obtain rfl := Except.ok.inj h
    obtain ⟨p, flag, p', flag', hname⟩ := msgName_frame ctx ⟨.name, data, n⟩
    rw [hname]
    exact ⟨id, .inl rfl, fun hne => absurd rfl hne⟩
  | value =>
    obtain ⟨d, hd⟩ := hvalue rfl
    rw [hd] at h ⊢
    exact msgValue_leaves h
  | nameEnd =>
    -- the colon puts both matchers back
    obtain rfl := Except.ok.inj h
    rw [msgNameEnd]
    split_ifs <;> exact ⟨id, .inl rfl, fun _ _ => ⟨rfl, rfl⟩⟩
  | valueEnd =>
    obtain rfl := Except.ok.inj h
    refine ⟨id, ?_, fun _ => id⟩
    simp only [msgValueEnd]
    split_ifs
    · exact .inr rfl
    · exact .inl rfl
  | bodyStart =>
    obtain rfl := Except.ok.inj h
    cases hrfc822 : ctx.rfc822Detected with
    | true =>
      rw [msgBodyStart, if_pos hrfc822]
      exact ⟨id, .inl rfl, fun _ => id⟩
    | false =>
      obtain ⟨mail, heq⟩ := msgBodyStart_mail env hrfc822 ⟨.bodyStart, data, n⟩
      rw [heq]
      exact ⟨id, .inl rfl, fun _ => id⟩
  | body =>
    obtain rfl := Except.ok.inj h
    have hplace := msgBody_samePlace ctx ⟨.body, data, n⟩
    have hfields := msgBody_lineEnded ctx ⟨.body, data, n⟩
    refine ⟨fun hlist => ?_, .inl hplace.msg, fun _ hzero =>
      ⟨hfields.typeHeader.trans hzero.1, hfields.encodingHeader.trans hzero.2⟩⟩
    rw [hplace.types]
    exact hlist
  | bodyCr =>
    obtain rfl := Except.ok.inj h
    rw [msgBodyCr]
    split_ifs <;> exact ⟨id, .inl rfl, fun _ => id⟩
  | bodyNewline =>
    -- the only event that resets the list
    have hend := msgBodyNewline_lineEnded h
    refine ⟨fun hlist => ?_, ?_, fun _ hzero =>
      ⟨hend.typeHeader.trans hzero.1, hend.encodingHeader.trans hzero.2⟩⟩
    · rcases hend.outcome with ⟨-, hsame⟩ | hbegun
      · rw [hsame]
        exact hlist
      · rw [hbegun.types]
        exact hlist.reset.1
    · rcases hend.outcome with ⟨hsame, -⟩ | hbegun
      · exact .inl hsame
      · exact .inr hbegun.msg
  | wait | unexpected | valueFold =>
    obtain rfl := Except.ok.inj h
    exact ⟨id, .inl rfl, fun _ => id⟩

/-! ## Octets -/

/-- An invariant along the events of an octet. -/
theorem mimeMsg_along {I : Ctx → Prop} {A : ParserEvent MimeMsgType → Prop}
    (hstep : ∀ ctx₁ e ctx₂, I ctx₁ → A e → ValueEvent e → mimeMsgEvent env ctx₁ e = .ok ctx₂ →
      I ctx₂)
    (has : ∀ e ∈ (mimeMsgFeed ctx.msg c).2, A e)
    (hstart : I { ctx with msg := (mimeMsgFeed ctx.msg c).1 })
    (hres : mimeMsg env ctx c = .ok ctx') : I ctx' :=
  (forall_visits (Q := fun _ => True) (R := fun _ => True) (A := fun e => A e ∧ ValueEvent e)
    (fun ctx₁ e hI hA _ => ⟨trivial, fun ctx₂ h => hstep ctx₁ e ctx₂ hI hA.1 hA.2 h⟩)
    (fun e he => ⟨has e he, mimeMsgFeed_valueEvent ctx.msg c e he⟩) hstart (fun _ _ => trivial)).2
    ctx' hres

/-- A body is being read, or nothing is understood any more. -/
def MimeMsgState.inLine (s : MimeMsgState) : Prop := s = .body ∨ s = .bodyCr ∨ s = .error

/-- Between two octets. -/
structure Underway (ctx : Ctx) : Prop where
  list : Resettable ctx.mediaTypes
  line : ∃ line, Watching line ctx ∧ (line = [] ∨ ctx.msg.inLine)
  names : ctx.msg ≠ .name0 → ctx.msg ≠ .name → ctx.msg ≠ .error →
    ctx.ctypeHeader = 0 ∧ ctx.ctransferEncodingHeader = 0
  fields : ctx.msg = .body ∨ ctx.msg = .bodyCr →
    ctx.msgContentTypeFieldDetected = none ∧ ctx.rfc822Detected = false

/-- The tokenizer goes where it is told to, or back to a name. -/
theorem mimeMsg_msg (hres : mimeMsg env ctx c = .ok ctx') :
    ctx'.msg = (mimeMsgFeed ctx.msg c).1 ∨ ctx'.msg = .name0 := by
  refine mimeMsg_along (I := fun ctx₁ => ctx₁.msg = (mimeMsgFeed ctx.msg c).1 ∨ ctx₁.msg = .name0)
    (A := fun _ => True) ?_ (fun _ _ => trivial) (.inl rfl) hres
  intro ctx₁ e ctx₂ hmsg _ hvalue h
  rcases (mimeMsgEvent_leaves hvalue h).msg with hsame | hname
  · rw [hsame]
    exact hmsg
  · exact .inr hname

/-- Names are read in front of a name and in it, or behind a value. -/
theorem mimeMsgFeed_nameless (hs : s ≠ .name0 ∧ s ≠ .name)
    (hdest : (mimeMsgFeed s c).1 ≠ .name) : ∀ e ∈ (mimeMsgFeed s c).2, e.type ≠ .name := by
  revert hdest
  refine mimeMsgFeed_of_transitions (P := fun s' es => s' ≠ .name → ∀ e ∈ es, e.type ≠ .name) ?_
  cases s with
  | name0 => exact absurd rfl hs.1
  | name => exact absurd rfl hs.2
  | _ => simp [mimeMessageParser, MimeMsg.value, MimeMsg.valueCr, MimeMsg.valueFold,
      MimeMsg.valueFoldCrlf, MimeMsg.valueEnd, MimeMsg.bodyStart, MimeMsg.body, MimeMsg.bodyCrlf,
      MimeMsg.bodyNewline, MimeMsg.unexpected, MimeMsg.wait]

/-- Only in a body is one read. -/
theorem mimeMsgFeed_bodyless {s : MimeMsgState} (hs : s ≠ .body) :
    ∀ e ∈ (mimeMsgFeed s c).2, e.type ≠ .body := by
  refine mimeMsgFeed_of_transitions (P := fun _ es => ∀ e ∈ es, e.type ≠ .body) ?_
  cases s with
  | body => exact absurd rfl hs
  | _ => simp [mimeMessageParser, MimeMsg.name, MimeMsg.nameEnd, MimeMsg.value, MimeMsg.valueCr,
      MimeMsg.valueFold, MimeMsg.valueFoldCrlf, MimeMsg.valueEnd, MimeMsg.bodyStart,
      MimeMsg.bodyNewline, MimeMsg.unexpected, MimeMsg.wait]

/-- What has been seen of a line. -/
theorem Underway.line_octet (h : Underway ctx) (hres : mimeMsg env ctx c = .ok ctx') :
    ∃ line, Watching line ctx' ∧ (line = [] ∨ ctx'.msg.inLine) := by
  obtain ⟨line, hwatch, hline⟩ := h.line
  by_cases hs : ctx.msg.inLine
  · rcases hs with hs | hs | hs
    · by_cases hcr : c = CR
      · subst hcr
        rw [mimeMsg_bodyCr env hs] at hres
        obtain rfl := Except.ok.inj hres
        exact ⟨line, hwatch.congr rfl rfl rfl, .inr (.inr (.inl rfl))⟩
      · rw [mimeMsg_body hs hcr] at hres
        obtain rfl := Except.ok.inj hres
        refine ⟨_, hwatch.body _, .inr (.inl ?_)⟩
        exact (msgBody_samePlace ctx _).msg.trans hs
    · have hfeed := mimeMsgFeed_bodyCr c
      rw [← hs] at hfeed
      split_ifs at hfeed
      · rw [mimeMsg_single hfeed] at hres
        exact ⟨[], Watching.newline hres, .inl rfl⟩
      · rw [mimeMsg_single hfeed] at hres
        obtain rfl := Except.ok.inj hres
        exact ⟨line, hwatch.congr rfl rfl rfl, .inr (.inr (.inr rfl))⟩
    · have hfeed := mimeMsgFeed_error c
      rw [← hs] at hfeed
      rw [mimeMsg_single hfeed] at hres
      obtain rfl := Except.ok.inj hres
      exact ⟨line, hwatch.congr rfl rfl rfl, .inr (.inr (.inr hs))⟩
  · obtain rfl := hline.resolve_right hs
    refine ⟨[], ?_, .inl rfl⟩
    -- no octet of a body comes
    refine mimeMsg_along (I := Watching []) (A := fun e => e.type ≠ .body) ?_
      (mimeMsgFeed_bodyless fun hbody => hs (.inl hbody)) (hwatch.congr rfl rfl rfl) hres
    intro ctx₁ e ctx₂ hw he _ hev
    have hnext := hw.event hev
    have hnil : nextLine [] e = [] := by
      rw [nextLine]
      split
      · rename_i hbody
        exact absurd hbody he
      · rfl
      · rfl
    rwa [hnil] at hnext

/-- The name of a field is forgotten when its value is read. -/
theorem Underway.names_octet (h : Underway ctx) (hres : mimeMsg env ctx c = .ok ctx')
    (h₁ : ctx'.msg ≠ .name0) (h₂ : ctx'.msg ≠ .name) (h₃ : ctx'.msg ≠ .error) :
    ctx'.ctypeHeader = 0 ∧ ctx'.ctransferEncodingHeader = 0 := by
  have hdest := (mimeMsg_msg hres).resolve_right h₁
  rw [hdest] at h₂ h₃
  -- from a name there is only the colon
  have hcolon {s : MimeMsgState} (hs : ctx.msg = s) {ev : ParserEvent MimeMsgType}
      (hfeed : mimeMsgFeed s c = (.name, [ev]) ∨ mimeMsgFeed s c = (.error, [ev])) : False := by
    rw [hs] at h₂ h₃
    rcases hfeed with hfeed | hfeed
    · exact h₂ (congrArg Prod.fst hfeed)
    · exact h₃ (congrArg Prod.fst hfeed)
  by_cases hs : ctx.msg = .name0
  · have hfeed := mimeMsgFeed_name0 c
    split_ifs at hfeed
    · exact (hcolon hs (.inl hfeed)).elim
    · exact (hcolon hs (.inr hfeed)).elim
  by_cases hs' : ctx.msg = .name
  · have hfeed := mimeMsgFeed_name c
    split_ifs at hfeed
    · rw [← hs'] at hfeed
      rw [mimeMsg_single hfeed] at hres
      obtain rfl := Except.ok.inj hres
      rw [msgNameEnd]
      split_ifs <;> exact ⟨rfl, rfl⟩
    · exact (hcolon hs' (.inl hfeed)).elim
    · exact (hcolon hs' (.inr hfeed)).elim
  have herror : ctx.msg ≠ .error := by
    intro herror
    rw [herror, mimeMsgFeed_error] at h₃
    exact h₃ rfl
  refine mimeMsg_along (I := fun ctx₁ => ctx₁.ctypeHeader = 0 ∧ ctx₁.ctransferEncodingHeader = 0)
    (A := fun e => e.type ≠ .name) ?_ (mimeMsgFeed_nameless ⟨hs, hs'⟩ h₂)
    (h.names hs hs' herror) hres
  exact fun ctx₁ e ctx₂ hzero he hvalue hev => (mimeMsgEvent_leaves hvalue hev).names he hzero

/-- The fields are forgotten when a body is read. -/
theorem Underway.fields_octet (h : Underway ctx) (hres : mimeMsg env ctx c = .ok ctx')
    (hbody : ctx'.msg = .body ∨ ctx'.msg = .bodyCr) :
    ctx'.msgContentTypeFieldDetected = none ∧ ctx'.rfc822Detected = false := by
  have hname : ctx'.msg ≠ .name0 := by
    rintro hname
    rw [hname] at hbody
    rcases hbody with hbody | hbody <;> cases hbody
  have hdest := (mimeMsg_msg hres).resolve_right hname
  rw [hdest] at hbody
  rcases mimeMsgFeed_intoBody hbody with ⟨hs, rfl⟩ | hs | ⟨hs, rfl⟩
  -- the blank line, of a part that is no message
  · have hfeed : mimeMsgFeed ctx.msg LF =
        (.body, [MimeMsg.valueEnd LF, MimeMsg.bodyStart LF]) := by
      rw [hs]
      decide
    rw [mimeMsg_pair hfeed] at hres
    cases hrfc822 : ctx.rfc822Detected with
    | true =>
      have hback : ctx'.msg = .name0 := by
        obtain rfl := Except.ok.inj hres
        simp only [msgBodyStart, msgValueEnd, hrfc822, if_true]
      exact absurd hback hname
    | false =>
      obtain ⟨mail, heq⟩ := @msgBodyStart_mail (msgValueEnd { ctx with msg := .body }) env hrfc822
        (MimeMsg.bodyStart LF)
      obtain rfl := Except.ok.inj (hres.symm.trans (congrArg Except.ok heq)).symm
      exact ⟨rfl, hrfc822⟩
  · obtain ⟨hfield, hrfc822⟩ := h.fields (.inl hs)
    by_cases hcr : c = CR
    · subst hcr
      rw [mimeMsg_bodyCr env hs] at hres
      obtain rfl := Except.ok.inj hres
      exact ⟨hfield, hrfc822⟩
    · rw [mimeMsg_body hs hcr] at hres
      obtain rfl := Except.ok.inj hres
      have hkept := msgBody_lineEnded ctx (MimeMsg.body c)
      exact ⟨hkept.typeField.trans hfield, hkept.rfc822Detected.trans hrfc822⟩
  · obtain ⟨hfield, hrfc822⟩ := h.fields (.inr hs)
    have hfeed : mimeMsgFeed ctx.msg LF = (.body, [MimeMsg.bodyNewline LF]) := by
      rw [hs]
      decide
    rw [mimeMsg_single hfeed] at hres
    have hended := msgBodyNewline_lineEnded hres
    exact ⟨hended.typeField.trans hfield, hended.rfc822Detected.trans hrfc822⟩

/-- **An octet** more. -/
theorem Underway.octet (h : Underway ctx) (hres : mimeMsg env ctx c = .ok ctx') :
    Underway ctx' := by
  refine ⟨?_, h.line_octet hres, h.names_octet hres, h.fields_octet hres⟩
  refine mimeMsg_along (I := fun ctx₁ => Resettable ctx₁.mediaTypes) (A := fun _ => True) ?_
    (fun _ _ => trivial) h.list hres
  exact fun ctx₁ e ctx₂ hlist _ hvalue hev => (mimeMsgEvent_leaves hvalue hev).list hlist

/-- Through a whole piece of the mail. -/
theorem Underway.run {bs : List Byte} (h : Underway ctx) (hres : mailRun env ctx bs = .ok ctx') :
    Underway ctx' := by
  induction bs generalizing ctx with
  | nil =>
    obtain rfl := Except.ok.inj hres
    exact h
  | cons c bs ih =>
    rw [mailRun_cons] at hres
    obtain ⟨ctx₁, h₁, hres⟩ := bind_eq_ok.mp hres
    exact ih (h.octet h₁) hres

/-- It holds before the first octet. -/
theorem underway_initial {entries : List (List Byte × List Byte)} (h : entries ≠ []) :
    Underway (Filter.initial entries).ctx := by
  refine ⟨(freshTypes_mediaTypesOf entries).resettable (listOk_initial h).entries,
    ⟨[], ?_, .inl rfl⟩, fun _ _ _ => ⟨rfl, rfl⟩, ?_⟩
  · exact ⟨by simp [Filter.initial], by simp [Filter.initial], by simp [Filter.initial]⟩
  · rintro (hs | hs) <;> cases hs

/-- Out of a body nothing has been seen of a line. -/
theorem Underway.watching (h : Underway ctx) (hs : ¬ ctx.msg.inLine) : Watching [] ctx := by
  obtain ⟨line, hwatch, hline⟩ := h.line
  obtain rfl := hline.resolve_right hs
  exact hwatch

/-- **Behind a boundary** that is recognised the header of a part is awaited. -/
theorem Underway.boundary_awaited (h : Underway ctx) (hset : Settled ctx) (hs : ctx.msg = .bodyCr)
    (hres : mimeMsg env ctx c = .ok ctx') (hname : ctx'.msg = .name0) : PartAwaited ctx' := by
  obtain ⟨htype, hencoding⟩ := h.names (by simp [hs]) (by simp [hs]) (by simp [hs])
  obtain ⟨hfield, hrfc822⟩ := h.fields (.inr hs)
  have hset' := hset.octet hres
  have hfeed := mimeMsgFeed_bodyCr c
  rw [← hs] at hfeed
  split_ifs at hfeed
  · rw [mimeMsg_single hfeed] at hres
    have hended := msgBodyNewline_lineEnded hres
    rcases hended.outcome with ⟨hsame, -⟩ | hbegun
    · rw [hname] at hsame
      cases hsame
    · refine ⟨⟨hbegun.state, ?_, hbegun.apply⟩, hset', hname, ⟨?_, ?_⟩,
        hended.rfc822Detected.trans hrfc822⟩
      · rw [hbegun.types]
        exact h.list.reset.2
      · exact Prod.ext (hended.typeHeader.trans htype) (hended.typeField.trans hfield)
      · exact Prod.ext (hended.encodingHeader.trans hencoding) hbegun.encodingField
  · rw [mimeMsg_single hfeed] at hres
    obtain rfl := Except.ok.inj hres
    cases hname

end

end Pop3Proxy
