/-
# The filter

`stripmime.c`: every octet goes through the unstuffing parser into `mime_msg`,
which follows the headers, the content types and the boundaries of a message
and writes the message to the array `transformed`, with the parts whose type is
filtered replaced.
-/
import Pop3Proxy.Library.Tape
import Pop3Proxy.Filter.ContentType
import Pop3Proxy.Filter.MediaTypes
import Pop3Proxy.Filter.Pop3Multi

namespace Pop3Proxy

/-- What the filter finds around it. -/
structure FilterEnv where
  /-- `getenv("FILTER_MSG")` -/
  filterMsg : Option (List Byte) := none
  /-- what is read behind the memory of a string that `list.c` returns without
  a NUL, for each of them in turn -/
  behind : ℕ → List Byte := fun _ => []
  /-- whether `malloc` has found the memory of the first type cleared -/
  cleared : Bool := true

/-- What `mime_msg` uses of `struct ctx`.  A `bool *` that is never NULL is a `Bool`. -/
structure Ctx where
  msg : MimeMsgState := mimeMessageParser.startState
  contentType : MimeTypeState := mimeTypeParser.startState
  /-- the matcher of `content-type` -/
  ctypeHeader : ℕ := 0
  /-- the matcher of `content-transfer-encoding` -/
  ctransferEncodingHeader : ℕ := 0
  /-- the matcher of `message` -/
  messageType : ℕ := 0
  /-- the matcher of `rfc822` -/
  rfc822 : ℕ := 0
  /-- the matcher of `boundary` -/
  boundaryParserDetector : ℕ := 0
  /-- a line of the body that may be a boundary -/
  possibleBoundaryString : List Byte := []
  boundaryName : List Byte := []
  /-- the top first -/
  boundryStack : List (List Byte) := []
  msgContentTypeFieldDetected : Option Bool := none
  mediaTypeFilterDetected : Bool := false
  replaceContentType : Bool := false
  mediaFilterApply : Bool := false
  multipartSection : Option Bool := none
  msgContentTransferEncodingFieldDetected : Option Bool := none
  boundaryDetected : Bool := false
  isMiddleDash : Option Bool := none
  doubleMiddleDash : Bool := false
  possibleBoundary : Option Bool := none
  boundaryEnd : Bool := false
  messageDetected : Bool := false
  rfc822Detected : Bool := false
  mediaTypes : List TypeList
  /-- the type whose subtypes `media_subtypes` points to -/
  mediaSubtypes : Option ℕ := none
  /-- `transformed`, and `process_modification_mail` in it -/
  mail : Tape Byte := .empty
  /-- how many strings `list.c` has returned -/
  strings : ℕ := 0
  deriving DecidableEq, Repr

namespace Ctx

/-- One octet to the output. -/
def emit (ctx : Ctx) (c : Byte) : Ctx := { ctx with mail := ctx.mail.write c }

/-- `insert_text` -/
def insertText (ctx : Ctx) (text : List Byte) : Ctx := { ctx with mail := ctx.mail.writeAll text }

/-- What is written before the cursor. -/
def emitted (ctx : Ctx) : List Byte := ctx.mail.written

end Ctx

/-- `data[i]` of an event. -/
def ParserEvent.octet {T : Type} (e : ParserEvent T) (i : ℕ) : Byte := e.data.getD i 0

/-! ## The strings of `list.c` -/

/-- `strcmp(list_return_string(l), s) == 0`, when `behind` is what follows in memory. -/
def listIs (l behind s : List Byte) : Bool := cstr (l ++ behind) = s

/-- `strcmp(list_ret_end_string(l), s) == 0` -/
def listEndIs (l behind s : List Byte) : Bool := cstr (l.take (l.length - 2) ++ behind) = s

/-- `stack_push(boundry_stack, list_return_string(boundary_name))` -/
def pushBoundary (env : FilterEnv) (ctx : Ctx) : Ctx :=
  { ctx with
    boundryStack := cstr (ctx.boundaryName ++ env.behind ctx.strings) :: ctx.boundryStack
    strings := ctx.strings + 1
    boundaryName := [] }

/-! ## The detectors -/

/-- The flag of a name after an event of its matcher. -/
def detected (flag : Option Bool) : Option StringCmp → Option Bool
  | some .eq => some true
  | some .neq => some false
  | _ => flag

/-- `content_type_header` -/
def contentTypeHeader (ctx : Ctx) (c : Byte) : Ctx :=
  let r := strcmpiFeed (ascii "content-type") ctx.ctypeHeader c
  { ctx with
    ctypeHeader := r.1
    msgContentTypeFieldDetected := detected ctx.msgContentTypeFieldDetected r.2 }

/-- `content_transfer_encoding_header` -/
def contentTransferEncodingHeader (ctx : Ctx) (c : Byte) : Ctx :=
  let r := strcmpiFeed (ascii "content-transfer-encoding") ctx.ctransferEncodingHeader c
  { ctx with
    ctransferEncodingHeader := r.1
    msgContentTransferEncodingFieldDetected :=
      detected ctx.msgContentTransferEncodingFieldDetected r.2 }

/-- `message_header` -/
def messageHeader (ctx : Ctx) (c : Byte) : Ctx :=
  let r := strcmpiFeed (ascii "message") ctx.messageType c
  { ctx with
    messageType := r.1
    messageDetected := (detected (some ctx.messageDetected) r.2).getD false }

/-- `rfc822_header` -/
def rfc822Header (ctx : Ctx) (c : Byte) : Ctx :=
  let r := strcmpiFeed (ascii "rfc822") ctx.rfc822 c
  { ctx with
    rfc822 := r.1
    rfc822Detected := (detected (some ctx.rfc822Detected) r.2).getD false }

/-! ## The content type -/

/-- `boundary_charset_match` -/
def boundaryCharsetMatch (ctx : Ctx) (c : Byte) : Ctx :=
  let r := strcmpiFeed (ascii "boundary") ctx.boundaryParserDetector c
  if r.2 = some .eq then
    { ctx with
      boundaryParserDetector := r.1, multipartSection := some true, boundaryDetected := true }
  else { ctx with boundaryParserDetector := r.1, multipartSection := none }

/-- `content_type_match`: without an entry the list is a node nobody assigned. -/
def contentTypeMatch (ctx : Ctx) (c : Byte) : Except FilterFault Ctx :=
  if ctx.mediaTypes = [] then .error .uninitialised
  else match feedTypes c ctx.mediaTypes with
    | (ts, some i) =>
      .ok { ctx with mediaTypes := ts, mediaTypeFilterDetected := true, mediaSubtypes := some i }
    | (ts, none) => .ok { ctx with mediaTypes := ts, mediaTypeFilterDetected := false }

/-- `content_subtype_match` -/
def contentSubtypeMatch (ctx : Ctx) (c : Byte) : Except FilterFault Ctx :=
  match ctx.mediaSubtypes with
  | none => .error .nullPointer
  | some i =>
    match ctx.mediaTypes[i]? with
    | none => .error .nullPointer
    | some t => do
      let (ss, current) ← feedSubtypes c t.subtypes
      let ctx := { ctx with mediaTypes := ctx.mediaTypes.set i { t with subtypes := ss } }
      .ok (if current = some .eq then
        { ctx with mediaFilterApply := true, replaceContentType := true }
      else { ctx with mediaFilterApply := false })

/-- One event of the content type, in the switch of `content_type_msg`. -/
def contentTypeEvent (env : FilterEnv) (ctx : Ctx) (e : ParserEvent MimeTypeType) :
    Except FilterFault Ctx :=
  match e.type with
  | .type =>
    (e.data.take e.n).foldlM (fun ctx c => do
      let ctx ← contentTypeMatch ctx c
      .ok (messageHeader ctx c)) ctx
  | .subtype => do
    let ctx ← if ctx.mediaTypeFilterDetected then
        (List.replicate e.n (e.octet 0)).foldlM contentSubtypeMatch ctx
      else .ok ctx
    .ok (if ctx.messageDetected then rfc822Header ctx (e.octet 0) else ctx)
  | .parameter => .ok ((List.replicate e.n (e.octet 0)).foldl boundaryCharsetMatch ctx)
  | .delimiter =>
    .ok (if ctx.multipartSection = some true then
      { ctx with boundaryName := ctx.boundaryName ++ [e.octet 0] } else ctx)
  | .delimiterEnd => .ok (if ctx.boundaryDetected then pushBoundary env ctx else ctx)
  | .typeEnd | .parameterStart | .boundaryEnd | .delimiterStart | .unexpected => .ok ctx

/-- `content_type_msg` -/
def contentTypeMsg (env : FilterEnv) (ctx : Ctx) (c : Byte) : Except FilterFault Ctx :=
  (mimeTypeFeed ctx.contentType c).2.foldlM (contentTypeEvent env)
    { ctx with contentType := (mimeTypeFeed ctx.contentType c).1 }

/-- `reset_parser_types_and_subtypes` -/
def resetParserTypesAndSubtypes (ctx : Ctx) : Except FilterFault Ctx :=
  if ctx.mediaTypes = [] then .error .uninitialised
  else .ok { ctx with mediaSubtypes := none, mediaTypes := resetTypes ctx.mediaTypes }

/-! ## The message -/

/-- `MIME_MSG_NAME` -/
def msgName (ctx : Ctx) (e : ParserEvent MimeMsgType) : Ctx :=
  let ctx := if ctx.msgContentTypeFieldDetected ≠ some false then
      (e.data.take e.n).foldl contentTypeHeader ctx else ctx
  let ctx := if ctx.msgContentTransferEncodingFieldDetected ≠ some false then
      (e.data.take e.n).foldl contentTransferEncodingHeader ctx else ctx
  ctx.emit (e.octet 0)

/-- `MIME_MSG_NAME_END` -/
def msgNameEnd (ctx : Ctx) (e : ParserEvent MimeMsgType) : Ctx :=
  let ctx := { ctx with
    ctypeHeader := 0, ctransferEncodingHeader := 0, messageType := 0, rfc822 := 0 }
  let ctx := ctx.emit (e.octet 0)
  if ctx.msgContentTransferEncodingFieldDetected = some true ∧ ctx.mediaFilterApply then
    ctx.insertText (ascii " 8BIT")
  else ctx

/-- The value goes on, or its type is replaced from the last space on. -/
def writeValue (ctx : Ctx) (c : Byte) : Except FilterFault Ctx :=
  if ctx.replaceContentType then
    match Tape.seek 0 (· == SP) ctx.mail.left ctx.mail.right with
    | none => .error .outOfBounds
    | some mail =>
      .ok { { ctx with mail := mail }.insertText (ascii " text/plain") with
        replaceContentType := false }
  else .ok (ctx.emit c)

/-- `MIME_MSG_VALUE` -/
def msgValue (env : FilterEnv) (ctx : Ctx) (e : ParserEvent MimeMsgType) :
    Except FilterFault Ctx := do
  let ctx ← if ctx.msgContentTypeFieldDetected = some true ∧ ¬ ctx.mediaFilterApply then
      (e.data.take e.n).foldlM (contentTypeMsg env) ctx
    else .ok ctx
  if ctx.msgContentTransferEncodingFieldDetected = some true ∧ ctx.mediaFilterApply then .ok ctx
  else writeValue ctx (e.octet 0)

/-- `MIME_MSG_VALUE_END`; the constant `MIME_MSG_NAME` is the number of `NAME0`. -/
def msgValueEnd (ctx : Ctx) : Ctx :=
  { ctx with
    msgContentTypeFieldDetected := none
    msgContentTransferEncodingFieldDetected := none
    boundaryDetected := false
    msg := if ctx.rfc822Detected then .name0 else ctx.msg }

/-- `print_filter_msg` -/
def printFilterMsg (env : FilterEnv) (ctx : Ctx) : Ctx :=
  ctx.insertText (cstr (env.filterMsg.getD (ascii "MENSAJE DE REEMPLAZO")) ++ CRLF)

/-- `MIME_MSG_BODY_START` -/
def msgBodyStart (env : FilterEnv) (ctx : Ctx) (e : ParserEvent MimeMsgType) : Ctx :=
  if ctx.rfc822Detected then
    { ctx with
      messageDetected := false, rfc822Detected := false, contentType := mimeTypeParser.startState }
  else
    let ctx := (ctx.emit (e.octet 0)).emit (e.octet 1)
    if ctx.mediaFilterApply then (printFilterMsg env ctx).insertText CRLF else ctx

/-- A dash of the body; two together may begin a boundary. -/
def dashSeen (ctx : Ctx) (c : Byte) : Ctx :=
  if c = DASH then
    { ctx with
      possibleBoundary := some true
      doubleMiddleDash := ctx.doubleMiddleDash || ctx.isMiddleDash = some true }
  else ctx

/-- The line that may be a boundary, and the two dashes that may end it. -/
def boundaryLine (ctx : Ctx) (c : Byte) : Ctx :=
  if ctx.doubleMiddleDash then
    let l := ctx.possibleBoundaryString
    { ctx with
      boundaryEnd := ctx.boundaryEnd || (c = DASH && l.getLast? = some DASH)
      possibleBoundaryString := if c = DASH ∧ l = [] then l else l ++ [c] }
  else ctx

/-- `MIME_MSG_BODY` -/
def msgBody (ctx : Ctx) (e : ParserEvent MimeMsgType) : Ctx :=
  let c := e.octet 0
  let ctx := if ctx.mediaFilterApply then ctx else ctx.emit c
  { boundaryLine (dashSeen ctx c) c with isMiddleDash := some (c = DASH) }

/-- `MIME_MSG_BODY_CR` -/
def msgBodyCr (ctx : Ctx) (e : ParserEvent MimeMsgType) : Ctx :=
  if ctx.mediaFilterApply then ctx else ctx.emit (e.octet 0)

/-- A line of the body turns out to be the boundary on top of the stack. -/
def boundaryFound (ctx : Ctx) : Except FilterFault Ctx :=
  let ctx := if ctx.mediaFilterApply then
      ctx.insertText ([DASH, DASH] ++ ctx.possibleBoundaryString ++ [LF]) else ctx
  resetParserTypesAndSubtypes
    { ctx with
      possibleBoundaryString := []
      msg := .name0
      mediaFilterApply := false
      boundaryParserDetector := 0
      boundaryDetected := false
      msgContentTransferEncodingFieldDetected := none
      contentType := mimeTypeParser.startState }

/-- A line of the body turns out to be the boundary that ends a multipart. -/
def boundaryEndFound (ctx : Ctx) : Ctx :=
  let ctx := if ctx.mediaFilterApply then
      ctx.insertText ([DASH, DASH] ++ ctx.possibleBoundaryString) else ctx
  { ctx.emit LF with
    boundryStack := ctx.boundryStack.tail
    possibleBoundaryString := []
    mediaFilterApply := false }

/-- The comparison with the top of the stack, `stack_peek` of which may be missing. -/
def peekIs (ctx : Ctx) (same : List Byte → List Byte → Bool) (env : FilterEnv) :
    Except FilterFault (Bool × Ctx) :=
  match ctx.boundryStack with
  | [] => .error .nullPointer
  | top :: _ =>
    .ok (same (env.behind ctx.strings) top, { ctx with strings := ctx.strings + 1 })

/-- The end of a line that may be a boundary between parts. -/
def partBoundary (env : FilterEnv) (ctx : Ctx) : Except FilterFault Ctx :=
  if ctx.doubleMiddleDash then
    peekIs ctx (listIs ctx.possibleBoundaryString) env >>= fun p =>
      if p.1 && !p.2.boundaryEnd then boundaryFound p.2 else .ok p.2
  else .ok ctx

/-- The end of a line that may be the boundary behind the last part. -/
def lastBoundary (env : FilterEnv) (ctx : Ctx) : Except FilterFault Ctx :=
  if ctx.boundaryEnd then
    peekIs ctx (listEndIs ctx.possibleBoundaryString) env >>= fun p =>
      .ok (if p.1 then boundaryEndFound p.2 else p.2)
  else .ok ctx

/-- `MIME_MSG_BODY_NEWLINE` -/
def msgBodyNewline (env : FilterEnv) (ctx : Ctx) (e : ParserEvent MimeMsgType) :
    Except FilterFault Ctx := do
  let ctx ← partBoundary env (if ctx.mediaFilterApply then ctx else ctx.emit (e.octet 0))
  let ctx ← lastBoundary env ctx
  .ok { ctx with
    isMiddleDash := some false
    doubleMiddleDash := false
    possibleBoundary := some false
    boundaryEnd := false }

/-- One event of the message, in the switch of `mime_msg`. -/
def mimeMsgEvent (env : FilterEnv) (ctx : Ctx) (e : ParserEvent MimeMsgType) :
    Except FilterFault Ctx :=
  match e.type with
  | .name => .ok (msgName ctx e)
  | .nameEnd => .ok (msgNameEnd ctx e)
  | .value => msgValue env ctx e
  | .valueEnd => .ok (msgValueEnd ctx)
  | .bodyStart => .ok (msgBodyStart env ctx e)
  | .body => .ok (msgBody ctx e)
  | .bodyCr => .ok (msgBodyCr ctx e)
  | .bodyNewline => msgBodyNewline env ctx e
  -- whatever else comes is copied, also when the event has no octet of its own
  | .wait | .unexpected | .valueFold => .ok (ctx.emit (e.octet 0))

/-- `mime_msg` -/
def mimeMsg (env : FilterEnv) (ctx : Ctx) (c : Byte) : Except FilterFault Ctx :=
  (mimeMsgFeed ctx.msg c).2.foldlM (mimeMsgEvent env) { ctx with msg := (mimeMsgFeed ctx.msg c).1 }

/-! ## The reply -/

/-- One event of the reply, in the switch of `pop3_multi`. -/
def pop3MultiEvent (env : FilterEnv) (ctx : Ctx) (e : ParserEvent Pop3MultiType) :
    Except FilterFault Ctx :=
  match e.type with
  | .byte => (e.data.take e.n).foldlM (mimeMsg env) ctx
  | .wait => .ok ctx
  | .fin =>
    .ok { ctx with
      msg := mimeMessageParser.startState
      contentType := mimeTypeParser.startState
      msgContentTypeFieldDetected := none
      msgContentTransferEncodingFieldDetected := none
      mail := ctx.mail.erase 0 }

/-- `struct ctx`, with the parser of the reply. -/
structure Filter where
  multi : MultiState := pop3MultiParser.startState
  ctx : Ctx
  deriving DecidableEq, Repr

/-- `pop3_multi` -/
def pop3Multi (env : FilterEnv) (f : Filter) (c : Byte) : Except FilterFault Filter :=
  ((multiFeed f.multi c).2.foldlM (pop3MultiEvent env) f.ctx).map
    fun ctx => ⟨(multiFeed f.multi c).1, ctx⟩

/-- `pop3_multi` for one octet after the other. -/
def filterRun (env : FilterEnv) (f : Filter) (bs : List Byte) : Except FilterFault Filter :=
  bs.foldlM (pop3Multi env) f

/-- `mime_msg` for one octet after the other. -/
def mailRun (env : FilterEnv) (ctx : Ctx) (bs : List Byte) : Except FilterFault Ctx :=
  bs.foldlM (mimeMsg env) ctx

/-- The context `main` starts with. -/
def Filter.initial (entries : List (List Byte × List Byte)) : Filter :=
  { ctx := { mediaTypes := mediaTypesOf entries } }

end Pop3Proxy
