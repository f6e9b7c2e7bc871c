/-
# The handlers of a connection

`pop3_client_nio.c`: one function for each hook of the state table, the table
itself, and the top level handlers the selector calls.  A hook gets the results
of its system calls and the key of the event, and returns the next state with
the memory it leaves behind.

The debugging output of the source is left out, and so are the addresses that
only travel to `socket` and `connect`.
-/
import Pop3Proxy.Pop3

namespace Pop3Proxy

/-- `N(x)`-style constants: `GREETING_OK` without its final NUL. -/
def greetingOk : List Byte := ascii "+OK Welcome to pop3filter!\r\n"

/-! ## The variants of the union -/

namespace Origin

/-- `origin.connecting` -/
def asConnecting : Origin → Except Fault AddrType
  | connecting server => .ok server
  | _ => .error .undefined

/-- `origin.greeting` -/
def asGreeting : Origin → Except Fault SinglelineState
  | greeting p => .ok p
  | _ => .error .undefined

/-- `origin.response` -/
def asResponse : Origin → Except Fault (SinglelineState × MultilineState)
  | response p m => .ok (p, m)
  | _ => .error .undefined

end Origin

/-! ## Reaching the origin -/

/-- `process_connection_init` -/
def processConnectionInit (key : SelectorKey) (w : World) : Except Fault World :=
  .ok (w.modify key.data fun c => { c with origin := .connecting w.currOriginServer })

/-- The error exit of `attempt_connection`: the new socket is closed. -/
def closeOrigin (key : SelectorKey) (s : Int) (w : World) : World :=
  (w.closeFd s).modify key.data fun c => { c with originFd := -1 }

/-- `attempt_connection` -/
def attemptConnection (io : Io) (key : SelectorKey) (w : World) : Except Fault (States × World) :=
  match w.fresh io.socket with
  | none => .ok (.establConnection, w.modify key.data fun c => { c with originFd := -1 })
  | some s =>
    let w := (w.openFd s).modify key.data fun c => { c with originFd := s }
    if !io.setNio then .ok (.establConnection, w)  -- `goto finally` without `error`
    else if io.connect then .error .abort
    else if io.errno ≠ .einprogress then .ok (.establConnection, closeOrigin key s w)
    else
      let (st, w) := w.setInterest key.fd OP_NOOP
      if st ≠ .success then .ok (.establConnection, closeOrigin key s w)
      else
        let (st, w) := w.register io s OP_WRITE key.data
        if st ≠ .success then .ok (.establConnection, closeOrigin key s w)
        else .ok (.establConnection,
          w.modify key.data fun c => { c with references := c.references + 1 })

/-- `process_connection` -/
def processConnection (io : Io) (key : SelectorKey) (w : World) :
    Except Fault (States × World) := do
  match ← (w.heap key.data).origin.asConnecting with
  | .ipv4 => attemptConnection io key (w.modify key.data fun c => { c with originDomain := .inet })
  | .ipv6 => attemptConnection io key (w.modify key.data fun c => { c with originDomain := .inet6 })
  | .domain =>
    if !io.malloc || io.pthreadCreate = -1 then
      .ok (.greetingCwrite, (w.setInterest key.fd OP_WRITE).2)
    else
      -- a positive result of `pthread_create` is an error too, and starts no thread
      let w := if io.pthreadCreate = 0 then { w with resolvers := w.resolvers ++ [key] } else w
      .ok (.resolvConnection, (w.setInterest key.fd OP_NOOP).2)

/-- `resolv_connection` -/
def resolvConnection (io : Io) (key : SelectorKey) (w : World) : Except Fault (States × World) := do
  let _ ← (w.heap key.data).origin.asConnecting
  let w := match (w.heap key.data).originResolution with
    | none => w
    | some family =>
      w.modify key.data fun c => { c with originDomain := family, originResolution := none }
  attemptConnection io key w

/-- `establ_connection_init`: it only sets pointers into the struct. -/
def establConnectionInit (key : SelectorKey) (w : World) : Except Fault World := do
  let _ ← (w.heap key.data).origin.asConnecting
  .ok w

/-- `establ_connection`: what `getsockopt` says about the connection is not used. -/
def establConnection (key : SelectorKey) (w : World) : Except Fault (States × World) := do
  let _ ← (w.heap key.data).origin.asConnecting
  let (s1, w) := w.setInterest (w.heap key.data).clientFd OP_NOOP
  let (s2, w) := w.setInterest key.fd OP_READ
  .ok (if s1 = .success ∧ s2 = .success then .greetingSread else .error, w)

/-! ## The greeting -/

/-- `greeting_init` -/
def greetingInit (key : SelectorKey) (w : World) : Except Fault World := do
  let b ← bufferWriteAdv (bufferInit greetingOk.length greetingOk) greetingOk.length
  .ok (w.modify key.data fun c =>
    { c with writeBuffer := b, origin := .greeting pop3SinglelineResponseDefinition.startState })

/-- `greeting_sread` -/
def greetingSread (io : Io) (key : SelectorKey) (w : World) : Except Fault (States × World) := do
  let p ← (w.heap key.data).origin.asGreeting
  let rb := (w.heap key.data).readBuffer
  let count ← bufferWritePtr rb
  match upTo io.recv count with
  | some (c :: cs) =>
    let rb ← bufferWriteAdv (rb.store (c :: cs)) (c :: cs).length
    let o := pop3SinglelineResponseBuilder (c :: cs) p none
    let w := w.modify key.data fun c => { c with readBuffer := rb, origin := .greeting o.state.1 }
    if builderResult o = .buildFinished then .ok (w.toClient key.data .greetingCwrite)
    else .ok (.error, (w.setInterest (w.heap key.data).originFd OP_NOOP).2)
  | _ =>
    if io.errno = .eagain ∨ io.errno = .ewouldblock then .ok (.greetingSread, w)
    else .ok (.greetingCwrite, w)

/-- `greeting_cwrite` -/
def greetingCwrite (io : Io) (key : SelectorKey) (w : World) : Except Fault (States × World) := do
  let _ ← (w.heap key.data).origin.asGreeting
  let bytes ← bufferReadPtr (w.heap key.data).writeBuffer
  match taken io.send bytes with
  | some sent =>
    let b ← bufferReadAdv (w.heap key.data).writeBuffer sent.length
    let w := (w.emit (.sent key.fd sent)).modify key.data fun c => { c with writeBuffer := b }
    if bufferCanRead b then .ok (.greetingCwrite, w) else .ok (w.armed key.fd OP_READ .commandCread)
  | none => .ok (.error, w)

/-! ## The command -/

/-- `command_init` -/
def commandInit (key : SelectorKey) (w : World) : Except Fault World :=
  .ok (w.modify key.data fun c =>
    { c with
      writeBuffer := bufferReset (bufferInit rawBuffB [])
      readBuffer := bufferReset c.readBuffer
      commandParser := pop3CommandDefinition.startState
      currentCommand := .clear
      currentCommandLen := 0
      bytesRead := 0 })

/-- `command_cread` -/
def commandCread (io : Io) (key : SelectorKey) (w : World) : Except Fault (States × World) := do
  let c := w.heap key.data
  let count ← bufferWritePtr c.readBuffer
  match upTo io.recv count with
  | some (b :: bs) =>
    let n := (b :: bs).length
    let rb ← bufferWriteAdv (c.readBuffer.store (b :: bs)) n
    let o := commandBuilder (b :: bs) c.commandParser c.currentCommand
    -- the write pointer goes back, and forward again over the command only
    let rb ← bufferWriteAdv { rb with write := c.readBuffer.write } o.read
    let w := w.modify key.data fun c =>
      { c with
        readBuffer := rb
        commandParser := o.state.1
        currentCommand := o.state.2
        currentCommandLen := c.currentCommandLen + o.read
        bytesRead := c.bytesRead + n }
    match builderResult o with
    | .buildFinished =>
      let w := w.modify key.data fun c =>
        if n ≠ o.read then { c with pipelined := true, bytesInBuffer := n - o.read }
        else { c with pipelined := false }
      .ok (w.toOrigin key.data OP_WRITE .commandSwrite)
    | .building => .ok (w.armed key.fd OP_READ .commandCread)
    | .buildFailed => .ok (.error, w)
  | _ => .ok (.error, w)

/-- `pipe_init` -/
def pipeInit (key : SelectorKey) (w : World) : Except Fault World :=
  .ok (w.modify key.data fun c =>
    { c with
      commandParser := pop3CommandDefinition.startState
      currentCommand := .clear })

/-- `pipe_dream`: no handler returns `PIPE_DREAM` but itself. -/
def pipeDream (key : SelectorKey) (w : World) : Except Fault (States × World) := do
  let c := w.heap key.data
  let _ ← bufferWritePtr c.readBuffer
  if 0 < c.bytesInBuffer then
    let rb ← bufferWriteAdv c.readBuffer c.bytesInBuffer
    let tail := (rb.data.drop c.readBuffer.write).take c.bytesInBuffer
    let o := commandBuilder tail c.commandParser c.currentCommand
    let rb ← bufferWriteAdv { rb with write := c.readBuffer.write } o.read
    let w := w.modify key.data fun c =>
      { c with
        readBuffer := rb
        commandParser := o.state.1
        currentCommand := o.state.2
        bytesInBuffer := c.bytesInBuffer - o.read }
    match builderResult o with
    | .buildFinished => .ok (w.toOrigin key.data OP_WRITE .commandSwrite)
    | .building => .ok (w.armed key.fd OP_WRITE .pipeDream)
    | .buildFailed => .ok (.error, w)
  else .ok (w.handOver c.originFd c.clientFd OP_READ .commandCread)

/-- `command_swrite`: the read pointer moves without `buffer_read_adv`. -/
def commandSwrite (io : Io) (key : SelectorKey) (w : World) : Except Fault (States × World) := do
  let rb := (w.heap key.data).readBuffer
  let bytes ← bufferReadPtr rb
  match taken io.send bytes with
  | some sent =>
    let rb := { rb with read := rb.read + sent.length }
    let w := (w.emit (.sent key.fd sent)).modify key.data fun c => { c with readBuffer := rb }
    if bufferCanRead rb then .ok (.commandSwrite, w)
    else .ok (w.armed key.fd OP_READ .responseSread)
  | _ => .ok (.error, w)

/-! ## The response -/

/-- `response_init` -/
def responseInit (key : SelectorKey) (w : World) : Except Fault World :=
  .ok (w.modify key.data fun c =>
    { c with
      origin := .response pop3SinglelineResponseDefinition.startState
        pop3MultilineResponseDefinition.startState
      writeBuffer := bufferReset (bufferInit rawBuffB [])
      transBuffer := bufferReset (bufferInit rawBuffTrans []) })

/-- Two new descriptors for `pipe`. -/
def World.freshPair (w : World) (p : Option (Int × Int)) : Option (Int × Int) :=
  p.filter fun p => (w.fresh (some p.1)).isSome && (w.fresh (some p.2)).isSome && p.1 ≠ p.2

/-- `create_transformation` of `transformations.c`, in the parent process. -/
def createTransformation (io : Io) (a : Addr) (w : World) : World :=
  match w.freshPair io.senderPipe with
  | none => w
  | some p =>
    let w := ((w.openFd p.1).openFd p.2).modify a fun c => { c with senderPipe := p }
    match w.freshPair io.receiverPipe with
    | none => w
    | some q => ((w.openFd q.1).openFd q.2).modify a fun c => { c with receiverPipe := q }

/-- Everything readable in `write_buffer` is written to the filter. -/
def feedFilter (a : Addr) (w : World) : Except Fault World := do
  let bytes ← bufferReadPtr (w.heap a).writeBuffer
  .ok (w.emit (.wrote (w.heap a).senderPipe.2 bytes))

/-- What `read` returns from the filter is announced to `buffer_write_adv`, which
ignores a `-1`. -/
def announceRead (tb : Buffer) (found : Option (List Byte)) : Except Fault Buffer :=
  match found with
  | some bs => bufferWriteAdv (tb.store bs) bs.length
  | none => bufferWriteAdv tb (-1)

/-- The output of the filter goes to `trans_buffer`. -/
def readFilter (io : Io) (a : Addr) (w : World) : Except Fault World := do
  let tb := (w.heap a).transBuffer
  let count ← bufferWritePtr tb
  let tb ← announceRead tb (upTo io.pipeRead count)
  .ok (w.modify a fun c => { c with transBuffer := tb })

/-- The first chunk of a reply goes to a new filter. -/
def startFilter (io : Io) (a : Addr) (w : World) : Except Fault World := do
  let w ← feedFilter a (createTransformation io a w)
  readFilter io a w

/-- The next ones go to the filter that is running. -/
def continueFilter (io : Io) (a : Addr) (w : World) : Except Fault World := do
  let w ← feedFilter a w
  readFilter io a (w.modify a fun c => { c with transBuffer := bufferReset c.transBuffer })

/-- Is the reply to this command sent through the filter? -/
def isTransformed (kwrd : List Byte) : Bool :=
  cstr kwrd = ascii "RETR" || cstr kwrd = ascii "TOP"

/-- The case `MULTILINE` of the switch in `response_sread`. -/
def responseMultiline (io : Io) (key : SelectorKey) (chunk : List Byte) (p : SinglelineState)
    (m : MultilineState) (w : World) : Except Fault (States × World) := do
  let o := pop3MultilineResponseChecker chunk m
  let transform := isTransformed (w.heap key.data).currentCommand.kwrd
  let w := w.modify key.data fun c =>
    { c with origin := .response p o.state, transform := transform }
  let w ← (if transform then startFilter io key.data w else .ok w)
  .ok (w.toClient key.data
    (if checkerResult o = .finishedConsuming then .responseCwrite else .dotDataCwrite))

/-- `response_sread` -/
def responseSread (io : Io) (key : SelectorKey) (w : World) : Except Fault (States × World) := do
  let c := w.heap key.data
  let (p, m) ← c.origin.asResponse
  let count ← bufferWritePtr c.writeBuffer
  match upTo io.recv count with
  | some (b :: bs) =>
    let wb ← bufferWriteAdv (c.writeBuffer.store (b :: bs)) (b :: bs).length
    let o := pop3SinglelineResponseBuilder (b :: bs) p none
    let w := w.modify key.data fun c =>
      { c with writeBuffer := wb, origin := .response o.state.1 m }
    if builderResult o = .buildFinished then
      match getCommandType c.currentCommand.kwrd, c.currentCommand.hasArgs with
      | .multiline, _ => responseMultiline io key (b :: bs) o.state.1 m w
      | .overloaded, false => responseMultiline io key (b :: bs) o.state.1 m w
      | _, _ => .ok (w.toClient key.data .responseCwrite)
    else .ok (.error, w)
  | _ => .ok (.error, w)

/-- `dot_data_init` -/
def dotDataInit (key : SelectorKey) (w : World) : Except Fault World := do
  let _ ← (w.heap key.data).origin.asResponse
  .ok (w.modify key.data fun c =>
    { c with writeBuffer := bufferReset c.writeBuffer, transBuffer := bufferReset c.transBuffer })

/-- `dot_data_sread`: `consumer_state` is never assigned. -/
def dotDataSread (io : Io) (key : SelectorKey) (w : World) : Except Fault (States × World) := do
  let c := w.heap key.data
  let _ ← c.origin.asResponse
  let count ← bufferWritePtr c.writeBuffer
  match upTo io.recv count with
  | some (b :: bs) =>
    let wb ← bufferWriteAdv (c.writeBuffer.store (b :: bs)) (b :: bs).length
    let w := w.modify key.data fun c => { c with writeBuffer := wb }
    let w ← (if c.transform then continueFilter io key.data w else .ok w)
    .ok (w.toClient key.data
      (if io.junk = .finishedConsuming then .responseCwrite else .dotDataCwrite))
  | _ => .ok (.error, w)

/-- The body `dot_data_cwrite` and `response_cwrite` share: send from the buffer
the `transform` flag chooses; what was sent is fed to the status line parser,
whose result is not used.  They differ in the state they stay in and in what
they do when the buffer is drained. -/
def relay (stay : States) (drained : World → States × World) (io : Io) (key : SelectorKey)
    (w : World) : Except Fault (States × World) := do
  let c := w.heap key.data
  let (p, m) ← c.origin.asResponse
  let buffer := if c.transform then c.transBuffer else c.writeBuffer
  let bytes ← bufferReadPtr buffer
  match taken io.send bytes with
  | some sent =>
    let buffer ← bufferReadAdv buffer sent.length
    let p := (pop3SinglelineResponseBuilder sent p none).state.1
    let w := (w.emit (.sent key.fd sent)).modify key.data fun c =>
      if c.transform then { c with transBuffer := buffer, origin := .response p m }
      else { c with writeBuffer := buffer, origin := .response p m }
    if bufferCanRead buffer then .ok (stay, w) else .ok (drained w)
  | _ => .ok (.error, w)

/-- `dot_data_cwrite` -/
def dotDataCwrite (io : Io) (key : SelectorKey) (w : World) : Except Fault (States × World) :=
  relay .dotDataCwrite (fun w => w.toOrigin key.data OP_READ .dotDataSread) io key w

/-- `response_cwrite` -/
def responseCwrite (io : Io) (key : SelectorKey) (w : World) : Except Fault (States × World) :=
  relay .responseCwrite (fun w => w.armed key.fd OP_READ .commandCread) io key w

/-! ## The state table -/

/-- A handler as the engine sees it. -/
def hook (h : World → Except Fault (States × World)) : Option (World → Except Fault (ℕ × World)) :=
  some fun w => (h w).map fun r => (r.1.num, r.2)

/-- The entries of `client_statbl`. -/
def clientState (io : Io) (key : SelectorKey) (s : States) : StateDefinition World :=
  match s with
  | .processConnection =>
    { state := s.num
      onArrival := some fun _ => processConnectionInit key
      onWriteReady := hook (processConnection io key) }
  | .resolvConnection =>
    { state := s.num
      onBlockReady := hook (resolvConnection io key) }
  | .establConnection =>
    { state := s.num
      onArrival := some fun _ => establConnectionInit key
      onWriteReady := hook (establConnection key) }
  | .greetingSread =>
    { state := s.num
      onArrival := some fun _ => greetingInit key
      onReadReady := hook (greetingSread io key) }
  | .greetingCwrite =>
    { state := s.num
      onWriteReady := hook (greetingCwrite io key) }
  | .commandCread =>
    { state := s.num
      onArrival := some fun _ => commandInit key
      onReadReady := hook (commandCread io key) }
  | .commandSwrite =>
    { state := s.num
      onWriteReady := hook (commandSwrite io key) }
  | .responseSread =>
    { state := s.num
      onArrival := some fun _ => responseInit key
      onReadReady := hook (responseSread io key) }
  | .dotDataSread =>
    { state := s.num
      onArrival := some fun _ => dotDataInit key
      onReadReady := hook (dotDataSread io key) }
  | .dotDataCwrite =>
    { state := s.num
      onWriteReady := hook (dotDataCwrite io key) }
  | .responseCwrite =>
    { state := s.num
      onWriteReady := hook (responseCwrite io key) }
  | .pipeDream =>
    { state := s.num
      onArrival := some fun _ => pipeInit key
      onWriteReady := hook (pipeDream key) }
  | .update => { state := s.num }
  | .error => { state := s.num }

/-- `client_statbl` with the initial state and the bound `pop3_new` gives to the engine. -/
def clientStm (io : Io) (key : SelectorKey) : StateMachine World where
  initial := States.processConnection.num
  states := States.all.map (clientState io key)
  maxState := States.error.num

/-! ## The handlers the selector calls -/

/-- `close_suscription`, the `handle_close` of the registered handlers. -/
def handleClose (item : Item FdHandler Addr) (w : World) : World :=
  match item.handler with
  | .passive => w
  | .suscriptions => destroySuscription item.data w

/-- One round of the loop of `finished_suscription`. -/
def finishFd (fd : Int) (w : World) : Except Fault World :=
  if fd = -1 then .ok w
  else
    match selectorUnregisterFd handleClose w.sel fd w with
    | (.success, sel, w) => .ok ({ w with sel := sel }.closeFd fd)
    | _ => .error .abort

/-- `finished_suscription` -/
def finishedSuscription (key : SelectorKey) (w : World) : Except Fault World := do
  let c := w.heap key.data
  let w ← finishFd c.clientFd w
  finishFd c.originFd w

/-- `read_suscription`, `write_suscription` and `block_suscription`: run the
engine, and finish the connection in a terminal state. -/
def suscription (handler : StateMachine World → Option ℕ → World → Except Fault (ℕ × ℕ × World))
    (io : Io) (key : SelectorKey) (w : World) : Except Fault World := do
  let (st, current, w) ← handler (clientStm io key) (w.heap key.data).current w
  let w := w.modify key.data fun c => { c with current := some current }
  if st = States.error.num ∨ st = States.update.num then finishedSuscription key w else .ok w

/-- `read_suscription` -/
def readSuscription := suscription StateMachine.stmHandlerRead

/-- `write_suscription` -/
def writeSuscription := suscription StateMachine.stmHandlerWrite

/-- `block_suscription` -/
def blockSuscription := suscription StateMachine.stmHandlerBlock

/-- `pop3_passive_accept` -/
def pop3PassiveAccept (io : Io) (w : World) : World :=
  match w.fresh io.accept with
  | none => w
  | some client =>
    let w := w.openFd client
    if !io.setNio then w.closeFd client
    else
      match pop3New io w client with
      | none => w.closeFd client
      | some (a, w) =>
        let (st, w) := w.register io client OP_WRITE a
        if st ≠ .success then destroySuscription a (w.closeFd client) else w

end Pop3Proxy
