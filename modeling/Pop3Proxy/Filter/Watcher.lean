/-
# Watching for a boundary

What the parameters of a content type do to the boundaries does not depend on the
types that are filtered.  The watcher is the part of the context they work on: the
parser of content types, the matcher of `boundary` and the flags between them.
-/
import Mathlib.Data.List.Induction
import Pop3Proxy.Filter.Cursor

namespace Pop3Proxy

/-- The closing quote, and everything behind it. -/
theorem eq_delimiterEnd_of_event {p s : MimeTypeState} {c : Byte} {e : ParserEvent MimeTypeType}
    (h : mimeTypeFeed p c = (s, [e])) (he : e.type = .delimiterEnd) : s = .delimiterEnd := by
  have hall : ∀ e ∈ (mimeTypeFeed p c).2, e.type = .delimiterEnd →
      (mimeTypeFeed p c).1 = .delimiterEnd := by
    refine mimeTypeFeed_of_transitions (P := fun s' es => ∀ e ∈ es, e.type = .delimiterEnd →
      s' = .delimiterEnd) ?_
    cases p <;> simp [mimeTypeParser, MimeType.type, MimeType.typeEnd, MimeType.subtype,
      MimeType.parameterStart, MimeType.parameter, MimeType.boundaryEnd, MimeType.delimiterStart,
      MimeType.delimiter, MimeType.unexpected]
  rw [h] at hall
  exact hall e (List.mem_singleton_self e) he

/-! ## The watcher -/

/-- What the parameters of a content type read and change. -/
structure Watcher where
  contentType : MimeTypeState
  boundaryParserDetector : ℕ
  multipartSection : Option Bool
  boundaryDetected : Bool
  boundaryName : List Byte
  boundryStack : List (List Byte)
  strings : ℕ

/-- The rest of the context, as far as the content type leaves it alone. -/
structure Surroundings where
  msg : MimeMsgState
  ctransferEncodingHeader : ℕ
  msgContentTypeFieldDetected : Option Bool
  msgContentTransferEncodingFieldDetected : Option Bool
  isMiddleDash : Option Bool
  doubleMiddleDash : Bool
  boundaryEnd : Bool
  mail : Tape Byte

/-- The watcher in a context. -/
@[simps] def Ctx.watcher (ctx : Ctx) : Watcher where
  contentType := ctx.contentType
  boundaryParserDetector := ctx.boundaryParserDetector
  multipartSection := ctx.multipartSection
  boundaryDetected := ctx.boundaryDetected
  boundaryName := ctx.boundaryName
  boundryStack := ctx.boundryStack
  strings := ctx.strings

/-- What surrounds it there. -/
@[simps] def Ctx.surroundings (ctx : Ctx) : Surroundings where
  msg := ctx.msg
  ctransferEncodingHeader := ctx.ctransferEncodingHeader
  msgContentTypeFieldDetected := ctx.msgContentTypeFieldDetected
  msgContentTransferEncodingFieldDetected := ctx.msgContentTransferEncodingFieldDetected
  isMiddleDash := ctx.isMiddleDash
  doubleMiddleDash := ctx.doubleMiddleDash
  boundaryEnd := ctx.boundaryEnd
  mail := ctx.mail

namespace Watcher

/-- An octet of the name of a parameter. -/
def parameter (w : Watcher) (c : Byte) : Watcher :=
  let r := strcmpiFeed (ascii "boundary") w.boundaryParserDetector c
  { w with
    boundaryParserDetector := r.1
    multipartSection := if r.2 = some .eq then some true else none
    boundaryDetected := w.boundaryDetected || r.2 = some .eq }

/-- An octet in quotes. -/
def delimiter (w : Watcher) (c : Byte) : Watcher :=
  if w.multipartSection = some true then { w with boundaryName := w.boundaryName ++ [c] } else w

/-- The closing quote, and every octet behind it. -/
def delimiterEnd (env : FilterEnv) (w : Watcher) : Watcher :=
  if w.boundaryDetected then
    { w with
      boundryStack := cstr (w.boundaryName ++ env.behind w.strings) :: w.boundryStack
      strings := w.strings + 1
      boundaryName := [] }
  else w

/-- One event of the content type. -/
def event (env : FilterEnv) (w : Watcher) (e : ParserEvent MimeTypeType) : Watcher :=
  match e.type with
  | .parameter => w.parameter (e.octet 0)
  | .delimiter => w.delimiter (e.octet 0)
  | .delimiterEnd => w.delimiterEnd env
  | .type | .typeEnd | .subtype | .parameterStart | .boundaryEnd | .delimiterStart
  | .unexpected => w

/-- One octet of the content type. -/
def step (env : FilterEnv) (w : Watcher) (c : Byte) : Watcher :=
  (mimeTypeFeed w.contentType c).2.foldl (event env)
    { w with contentType := (mimeTypeFeed w.contentType c).1 }

/-- The octets one after the other. -/
def run (env : FilterEnv) (w : Watcher) (bs : List Byte) : Watcher := bs.foldl (step env) w

section
variable {env : FilterEnv} {w : Watcher} {c : Byte}

/-- An octet makes one event of the content type. -/
theorem step_single {s : MimeTypeState} {e : ParserEvent MimeTypeType}
    (h : mimeTypeFeed w.contentType c = (s, [e])) :
    w.step env c = event env { w with contentType := s } e := by
  rw [step, h]
  rfl

@[simp] theorem run_nil : w.run env [] = w := rfl

@[simp] theorem run_cons (bs : List Byte) : w.run env (c :: bs) = (w.step env c).run env bs := rfl

/-- Two pieces of a value. -/
theorem run_append (bs cs : List Byte) : w.run env (bs ++ cs) = (w.run env bs).run env cs :=
  List.foldl_append

/-- The last octet of a value. -/
theorem run_concat (bs : List Byte) : w.run env (bs ++ [c]) = (w.run env bs).step env c :=
  run_append bs [c]

/-! ## Octet by octet -/

@[simp] theorem contentType_parameter : (w.parameter c).contentType = w.contentType := rfl

/-- Events leave the state of the parser to the parser. -/
theorem event_contentType (e : ParserEvent MimeTypeType) :
    (event env w e).contentType = w.contentType := by
  rw [event]
  split
  · rfl
  · rw [delimiter]
    split_ifs <;> rfl
  · rw [delimiterEnd]
    split_ifs <;> rfl
  all_goals rfl

/-- The parser goes its own way. -/
theorem step_contentType : (w.step env c).contentType = (mimeTypeFeed w.contentType c).1 := by
  obtain ⟨s, e, d, hfeed, -⟩ := mimeTypeFeed_single w.contentType c
  rw [step_single hfeed, event_contentType, hfeed]

/-- Only the closing quote, and what stands behind it, is heard of on the stack. -/
theorem step_stack (h : (w.step env c).contentType ≠ .delimiterEnd) :
    (w.step env c).boundryStack = w.boundryStack := by
  rw [step_contentType] at h
  obtain ⟨s, e, d, hfeed, -⟩ := mimeTypeFeed_single w.contentType c
  rw [hfeed] at h
  have hend : e.type ≠ .delimiterEnd := by
    intro he
    apply h
    exact eq_delimiterEnd_of_event hfeed he
  rw [step_single hfeed, event]
  split
  · rfl
  · rw [delimiter]
    split_ifs <;> rfl
  · rename_i he
    exact absurd he hend
  all_goals rfl

/-- Behind the closing quote every octet closes again. -/
theorem step_delimiterEnd (h : w.contentType = .delimiterEnd) :
    w.step env c = w.delimiterEnd env := by
  have hfeed : mimeTypeFeed w.contentType c = (.delimiterEnd, [MimeType.delimiterEnd c]) := by
    rw [h, mimeTypeFeed_delimiterEnd]
  rw [step_single hfeed, ← h]
  rfl

/-! ## Runs -/

/-- The state of the parser of content types. -/
def mimeTypeAfter (p : MimeTypeState) (bs : List Byte) : MimeTypeState :=
  bs.foldl (fun p c => (mimeTypeFeed p c).1) p

/-- Through a whole piece, too. -/
theorem run_contentType (bs : List Byte) :
    (w.run env bs).contentType = mimeTypeAfter w.contentType bs := by
  induction bs generalizing w with
  | nil => rfl
  | cons c bs ih =>
    rw [run_cons, ih, step_contentType]
    rfl

/-- The state behind two pieces. -/
theorem mimeTypeAfter_append (p : MimeTypeState) (bs cs : List Byte) :
    mimeTypeAfter p (bs ++ cs) = mimeTypeAfter (mimeTypeAfter p bs) cs :=
  List.foldl_append

/-- Octets that keep the state one by one keep it together. -/
theorem mimeTypeAfter_same {p : MimeTypeState} {bs : List Byte}
    (h : ∀ c ∈ bs, (mimeTypeFeed p c).1 = p) : mimeTypeAfter p bs = p := by
  induction bs with
  | nil => rfl
  | cons c bs ih =>
    rw [mimeTypeAfter, List.foldl_cons, h c (by simp)]
    exact ih fun d hd => h d (by simp [hd])

/-- An octet the parser does not expect is the end of it. -/
theorem mimeTypeAfter_fails {p : MimeTypeState} {c : Byte} (h : (mimeTypeFeed p c).1 = .error)
    (bs : List Byte) : mimeTypeAfter p (c :: bs) = .error := by
  rw [mimeTypeAfter, List.foldl_cons, h]
  refine mimeTypeAfter_same fun d _ => ?_
  rw [mimeTypeFeed_error]

/-- As long as no quote has been closed nothing is pushed. -/
theorem run_stack {bs : List Byte} (h : (w.run env bs).contentType ≠ .delimiterEnd) :
    (w.run env bs).boundryStack = w.boundryStack := by
  induction bs using List.reverseRecOn with
  | nil => rfl
  | append_singleton bs c ih =>
    rw [run_concat] at h ⊢
    rw [step_stack h]
    apply ih
    intro hend
    rw [step_contentType, hend, mimeTypeFeed_delimiterEnd] at h
    exact h rfl

/-- Octets that leave the parser where it is, and are none of a parameter, change nothing. -/
theorem run_same {bs : List Byte} (h : ∀ c ∈ bs, ∃ e,
    mimeTypeFeed w.contentType c = (w.contentType, [e]) ∧ (e.type = .type ∨ e.type = .subtype)) :
    w.run env bs = w := by
  induction bs with
  | nil => rfl
  | cons c bs ih =>
    obtain ⟨e, hfeed, he⟩ := h c (by simp)
    have hstep : w.step env c = w := by
      rw [step_single hfeed, event]
      rcases he with he | he <;> rw [he]
    rw [run_cons, hstep]
    exact ih fun d hd => h d (by simp [hd])

/-- Without a boundary nothing changes behind the closing quote. -/
theorem run_undetected (h : w.contentType = .delimiterEnd) (hno : w.boundaryDetected = false)
    (bs : List Byte) : w.run env bs = w := by
  induction bs with
  | nil => rfl
  | cons c bs ih =>
    have hstep : w.step env c = w := by
      rw [step_delimiterEnd h, delimiterEnd, if_neg (by simp [hno])]
    rw [run_cons, hstep, ih]

/-- Behind the closing quote every octet pushes, or none does. -/
theorem run_delimiterEnd (h : w.contentType = .delimiterEnd) (bs : List Byte) :
    (w.run env bs).boundryStack.length =
      w.boundryStack.length + if w.boundaryDetected then bs.length else 0 := by
  induction bs generalizing w with
  | nil => simp
  | cons c bs ih =>
    rw [run_cons, step_delimiterEnd h, ih]
    · rw [delimiterEnd]
      split_ifs with hd
      · simp
        omega
      · simp
    · rw [delimiterEnd]
      split_ifs <;> exact h

end

end Watcher

/-! ## A parameter -/

/-- An octet the parser takes in quotes. -/
def quotedChar (c : Byte) : Bool :=
  initCharClass .restNameChars c || initCharClass .bcharsNospace c

/-- What the matcher still waits for. -/
def boundaryTail (d : ℕ) : List Byte := (ascii "boundary").drop d

/-- The octet the matcher waits for, and those it waits for behind it. -/
theorem boundaryTail_eq_cons {d : ℕ} {x : Byte} (h : (ascii "boundary")[d]? = some x) :
    boundaryTail d = x :: boundaryTail (d + 1) := by
  obtain ⟨hd, rfl⟩ := List.getElem?_eq_some_iff.mp h
  exact List.drop_eq_getElem_cons hd

/-- It waits for none when all of them have come. -/
theorem boundaryTail_eq_nil {d : ℕ} : boundaryTail d = [] ↔ (ascii "boundary")[d]? = none := by
  rw [boundaryTail, List.drop_eq_nil_iff, List.getElem?_eq_none_iff]

/-- Each of these letters is met in either case. -/
theorem sameLetter_iff : ∀ x ∈ ascii "boundary",
    x ≤ 127 ∧ ∀ c, (c = tolower x ∨ c = toupper x) ↔ tolower c = x := by
  decide +kernel

namespace Watcher

section
variable {env : FilterEnv} {w : Watcher} {c : Byte}

/-- The octet the matcher waits for. -/
theorem parameter_match {x : Byte} (hx : (ascii "boundary")[w.boundaryParserDetector]? = some x)
    (hc : tolower c = x) : w.parameter c =
      { w with
        boundaryParserDetector := w.boundaryParserDetector + 1
        multipartSection :=
          if boundaryTail (w.boundaryParserDetector + 1) = [] then some true else none
        boundaryDetected :=
          w.boundaryDetected || boundaryTail (w.boundaryParserDetector + 1) = [] } := by
  obtain ⟨hle, hsame⟩ := sameLetter_iff x (List.mem_of_getElem? hx)
  obtain ⟨hd, -⟩ := List.getElem?_eq_some_iff.mp hx
  have hend : w.boundaryParserDetector + 1 = (ascii "boundary").length ↔
      boundaryTail (w.boundaryParserDetector + 1) = [] := by
    rw [boundaryTail, List.drop_eq_nil_iff]
    omega
  rw [parameter, strcmpiFeed_some hx, if_pos ⟨hle, (hsame c).mpr hc⟩]
  simp only [hend]
  by_cases htail : boundaryTail (w.boundaryParserDetector + 1) = [] <;> simp [htail]

/-- Any other octet. -/
theorem parameter_other
    (hc : (ascii "boundary")[w.boundaryParserDetector]? ≠ some (tolower c)) : w.parameter c =
      { w with
        boundaryParserDetector := (ascii "boundary").length + 1, multipartSection := none } := by
  rw [parameter]
  cases hx : (ascii "boundary")[w.boundaryParserDetector]? with
  | none => simp [strcmpiFeed_none hx]
  | some x =>
    obtain ⟨hle, hsame⟩ := sameLetter_iff x (List.mem_of_getElem? hx)
    rw [strcmpiFeed_some hx, if_neg]
    · simp
    · rintro ⟨-, h⟩
      rw [hx, (hsame c).mp h] at hc
      exact hc rfl

/-- The name of a parameter changes the matcher and the flags. -/
theorem foldl_parameter (name : List Byte) : ∃ d m b, name.foldl parameter w =
    { w with boundaryParserDetector := d, multipartSection := m, boundaryDetected := b } := by
  induction name generalizing w with
  | nil => exact ⟨_, _, _, rfl⟩
  | cons c name ih => exact ih

/-- **The boundary is detected** when its name, or what the matcher still waits for of it,
is where the name of the parameter begins. -/
theorem boundaryDetected_name (name : List Byte) :
    (name.foldl parameter w).boundaryDetected = true ↔ w.boundaryDetected = true ∨
      boundaryTail w.boundaryParserDetector ≠ [] ∧
        boundaryTail w.boundaryParserDetector <+: name.map tolower := by
  induction name generalizing w with
  | nil => simp
  | cons c name ih =>
    rw [List.foldl_cons, ih, List.map_cons]
    by_cases hc : (ascii "boundary")[w.boundaryParserDetector]? = some (tolower c)
    · rw [parameter_match hc rfl, boundaryTail_eq_cons hc]
      by_cases htail : boundaryTail (w.boundaryParserDetector + 1) = []
      · simp [htail]
      · simp [htail]
    · have hover : boundaryTail ((ascii "boundary").length + 1) = [] := by decide
      rw [parameter_other hc]
      refine or_congr_right ?_
      simp only [hover, ne_eq, not_true, false_and, false_iff]
      rintro ⟨hne, hprefix⟩
      obtain ⟨x, hx⟩ := Option.ne_none_iff_exists'.mp (mt boundaryTail_eq_nil.mpr hne)
      rw [boundaryTail_eq_cons hx, List.cons_prefix_cons] at hprefix
      exact hc (hx.trans (congrArg some hprefix.1))

/-- The text in quotes counts when the matcher has come to the end of the boundary's name
with the end of the parameter's. -/
theorem multipartSection_name {name : List Byte} (hne : name ≠ []) :
    (name.foldl parameter w).multipartSection = some true ↔
      name.map tolower = boundaryTail w.boundaryParserDetector := by
  induction name generalizing w with
  | nil => exact absurd rfl hne
  | cons c name ih =>
    rw [List.foldl_cons, List.map_cons]
    have hmatch : tolower c :: name.map tolower = boundaryTail w.boundaryParserDetector ↔
        (ascii "boundary")[w.boundaryParserDetector]? = some (tolower c) ∧
          name.map tolower = boundaryTail (w.boundaryParserDetector + 1) := by
      cases hx : (ascii "boundary")[w.boundaryParserDetector]? with
      | none => simp [boundaryTail_eq_nil.mpr hx]
      | some x => simp [boundaryTail_eq_cons hx, eq_comm]
    rw [hmatch]
    by_cases hc : (ascii "boundary")[w.boundaryParserDetector]? = some (tolower c)
    · cases name with
      | nil =>
        rw [List.foldl_nil, parameter_match hc rfl, and_iff_right hc, List.map_nil, eq_comm]
        by_cases htail : boundaryTail (w.boundaryParserDetector + 1) = []
        · simp [htail]
        · simp [htail, Ne.symm htail]
      | cons d name => rw [ih (by simp), parameter_match hc rfl, and_iff_right hc]
    · have hover : boundaryTail ((ascii "boundary").length + 1) = [] := by decide
      refine iff_of_false ?_ fun h => hc h.1
      cases name with
      | nil =>
        rw [List.foldl_nil, parameter_other hc]
        simp
      | cons d name =>
        rw [ih (by simp), parameter_other hc]
        simp [hover]

/-! ## From the semicolon to the closing quote -/

/-- The name of a parameter goes to the matcher. -/
theorem run_name (h : w.contentType = .parameter) {name : List Byte}
    (hname : ∀ c ∈ name, initCharClass .restNameChars c = true) :
    w.run env name = name.foldl parameter w := by
  induction name generalizing w with
  | nil => rfl
  | cons c name ih =>
    have hfeed : mimeTypeFeed w.contentType c = (.parameter, [MimeType.parameter c]) := by
      rw [h, mimeTypeFeed_parameter, if_pos (hname c (by simp))]
    rw [run_cons, List.foldl_cons, step_single hfeed, ← h]
    exact ih h fun d hd => hname d (by simp [hd])

/-- What stands between the quotes is kept in a multipart. -/
theorem run_text (h : w.contentType = .delimiter) {text : List Byte}
    (htext : ∀ c ∈ text, quotedChar c = true) : w.run env text =
      { w with
        boundaryName :=
          w.boundaryName ++ if w.multipartSection = some true then text else [] } := by
  induction text generalizing w with
  | nil => simp
  | cons c text ih =>
    have hfeed : mimeTypeFeed w.contentType c = (.delimiter, [MimeType.delimiter c]) := by
      rw [h, mimeTypeFeed_delimiter, ← quotedChar, if_pos (htext c (by simp))]
    have hstep : w.step env c = w.delimiter c := by
      rw [step_single hfeed, ← h]
      rfl
    have hstate : (w.delimiter c).contentType = .delimiter := by
      rw [delimiter]
      split_ifs <;> exact h
    rw [run_cons, hstep, ih hstate fun d hd => htext d (by simp [hd]), delimiter]
    split_ifs with hm <;> simp [hm]

/-- Behind the semicolon. -/
def started (w : Watcher) (name : List Byte) : Watcher :=
  name.foldl parameter { w with contentType := .parameter }

/-- A semicolon starts the matcher over. -/
theorem run_started (h : w.contentType = .subtype) {name : List Byte}
    (hname : ∀ c ∈ name, initCharClass .restNameChars c = true) :
    w.run env (SEMICOLON :: name) = w.started name := by
  have hfeed : mimeTypeFeed w.contentType SEMICOLON =
      (.parameter, [MimeType.parameterStart SEMICOLON]) := by
    rw [h, mimeTypeFeed_subtype, if_pos rfl]
  rw [run_cons, step_single hfeed]
  exact run_name rfl hname

/-- The name is over, and the quotes open. -/
theorem run_opened (h : w.contentType = .parameter) :
    w.run env [EQUALS, QUOTE] = { w with contentType := .delimiter } := by
  have hequals : mimeTypeFeed w.contentType EQUALS =
      (.delimiterStart, [MimeType.boundaryEnd EQUALS]) := by
    rw [h, mimeTypeFeed_parameter, if_neg (by decide), if_pos rfl]
  have hquote :
    mimeTypeFeed .delimiterStart QUOTE = (.delimiter, [MimeType.delimiterStart QUOTE]) := by
    rw [mimeTypeFeed_delimiterStart, if_pos rfl]
  rw [run_cons, step_single hequals, run_cons, run_nil]
  exact step_single (w := { w with contentType := .delimiterStart }) hquote

/-- The closing quote. -/
theorem step_closed (h : w.contentType = .delimiter) :
    w.step env QUOTE = delimiterEnd env { w with contentType := .delimiterEnd } := by
  have hfeed :
    mimeTypeFeed w.contentType QUOTE = (.delimiterEnd, [MimeType.delimiterEnd QUOTE]) := by
    rw [h, mimeTypeFeed_delimiter, if_neg (by decide), if_pos rfl]
  exact step_single hfeed

/-- **A parameter in quotes**, when the parser takes all of it. -/
theorem run_quoted (h : w.contentType = .subtype) {name text : List Byte}
    (hname : ∀ c ∈ name, initCharClass .restNameChars c = true)
    (htext : ∀ c ∈ text, quotedChar c = true) :
    w.run env ((SEMICOLON :: name) ++ [EQUALS, QUOTE] ++ text ++ [QUOTE]) =
      delimiterEnd env { w.started name with
        contentType := .delimiterEnd
        boundaryName := (w.started name).boundaryName ++
          if (w.started name).multipartSection = some true then text else [] } := by
  have hstate : (w.started name).contentType = .parameter := by
    obtain ⟨d, m, b, hfold⟩ := foldl_parameter (w := { w with contentType := .parameter }) name
    rw [started, hfold]
  rw [run_concat, run_append, run_append, run_started h hname, run_opened hstate,
    run_text rfl htext,
    step_closed rfl]

end

end Watcher

/-! ## The watcher in the context -/

section
variable {env : FilterEnv} {ctx ctx' : Ctx} {c : Byte}

/-- An octet of the type is nothing to the watcher. -/
theorem contentTypeMatch_watcher (h : contentTypeMatch ctx c = .ok ctx') :
    ctx'.watcher = ctx.watcher ∧ ctx'.surroundings = ctx.surroundings := by
  rw [contentTypeMatch] at h
  split_ifs at h
  split at h <;> obtain rfl := Except.ok.inj h <;> exact ⟨rfl, rfl⟩

/-- Nor is one of the subtype. -/
theorem contentSubtypeMatch_watcher (h : contentSubtypeMatch ctx c = .ok ctx') :
    ctx'.watcher = ctx.watcher ∧ ctx'.surroundings = ctx.surroundings := by
  rw [contentSubtypeMatch] at h
  split at h
  · cases h
  · split at h
    · cases h
    · obtain ⟨⟨ss, current⟩, -, h⟩ := bind_eq_ok.mp h
      obtain rfl := Except.ok.inj h
      split_ifs <;> exact ⟨rfl, rfl⟩

/-- One event, with one octet. -/
theorem contentTypeEvent_watcher {ty : MimeTypeType} {d : Byte}
    (h : contentTypeEvent env ctx ⟨ty, [d], 1⟩ = .ok ctx') :
    ctx'.watcher = ctx.watcher.event env ⟨ty, [d], 1⟩ ∧ ctx'.surroundings = ctx.surroundings := by
  cases ty with
  | type =>
    obtain ⟨ctx₁, h₁, rfl⟩ := typeEvent_ok h
    obtain ⟨hwatch, hsurr⟩ := contentTypeMatch_watcher h₁
    exact ⟨hwatch, hsurr⟩
  | subtype =>
    -- `rfc822_header` touches neither what the watcher has nor what is around it
    have hrfc822 (ctx₁ : Ctx) :
        (if ctx₁.messageDetected then rfc822Header ctx₁ d else ctx₁).watcher = ctx₁.watcher ∧
          (if ctx₁.messageDetected then rfc822Header ctx₁ d else ctx₁).surroundings =
            ctx₁.surroundings := by
      split_ifs <;> exact ⟨rfl, rfl⟩
    obtain ⟨ctx₁, h₁, rfl⟩ := subtypeEvent_ok h
    split_ifs at h₁
    · obtain ⟨hwatch, hsurr⟩ := contentSubtypeMatch_watcher h₁
      exact ⟨(hrfc822 ctx₁).1.trans hwatch, (hrfc822 ctx₁).2.trans hsurr⟩
    · obtain rfl := Except.ok.inj h₁
      exact hrfc822 ctx
  | parameter =>
    obtain rfl := Except.ok.inj h
    show (boundaryCharsetMatch ctx d).watcher = ctx.watcher.parameter d ∧
      (boundaryCharsetMatch ctx d).surroundings = ctx.surroundings
    rw [boundaryCharsetMatch]
    simp only [Watcher.parameter, ctx.watcher_boundaryParserDetector]
    split_ifs with heq
    · exact ⟨by simp [Ctx.watcher, heq], rfl⟩
    · exact ⟨by simp [Ctx.watcher, heq], rfl⟩
  | delimiter =>
    obtain rfl := Except.ok.inj h
    simp only [Watcher.event, Watcher.delimiter, ctx.watcher_multipartSection]
    split_ifs <;> exact ⟨rfl, rfl⟩
  | delimiterEnd =>
    obtain rfl := Except.ok.inj h
    simp only [Watcher.event, Watcher.delimiterEnd, ctx.watcher_boundaryDetected]
    split_ifs <;> exact ⟨rfl, rfl⟩
  | typeEnd | parameterStart | boundaryEnd | delimiterStart | unexpected =>
    obtain rfl := Except.ok.inj h
    exact ⟨rfl, rfl⟩

/-- **One octet of a content type** is one step of the watcher. -/
theorem contentTypeMsg_watcher (h : contentTypeMsg env ctx c = .ok ctx') :
    ctx'.watcher = ctx.watcher.step env c ∧ ctx'.surroundings = ctx.surroundings := by
  obtain ⟨s, ⟨ty, data, n⟩, d, hfeed, hdata, hn, -, -⟩ := mimeTypeFeed_single ctx.contentType c
  subst hdata hn
  rw [contentTypeMsg_single hfeed] at h
  rw [Watcher.step_single hfeed]
  exact contentTypeEvent_watcher h

end

end Pop3Proxy
