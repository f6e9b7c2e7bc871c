/-
# The dialogue of a connection

What a session is about, without descriptors, buffers and the selector: the
stage the connection is in, the octets it holds, and the octets it has passed
on.  `Dialogue.step` is our own statement of what the eight handlers of the
greeting, the command and the reply achieve; that the sessions of the program
follow it is proved in the next module.
-/
import Pop3Proxy.Session

namespace Pop3Proxy

/-- The stages of a connection from the greeting on, with what it holds. -/
inductive Stage where
  /-- the greeting of the origin is awaited -/
  | greeting
  /-- the rest of the welcome is to be sent to the client -/
  | welcome (rest : List Byte)
  /-- a command is being received: the parser, the builder and the octets so far -/
  | command (p : CommandState) (cmd : Pop3CommandBuilder) (bs : List Byte)
  /-- the rest of the command is to be sent to the origin -/
  | forward (cmd : Pop3CommandBuilder) (rest : List Byte)
  /-- the reply is awaited -/
  | status (cmd : Pop3CommandBuilder)
  /-- the rest of a chunk is to be sent to the client; it is the last one or not -/
  | relay (last : Bool) (rest : List Byte)
  /-- more of the body is awaited -/
  | body
  /-- the connection is finished -/
  | closed
  deriving DecidableEq, Repr

/-- The stage at the start of a command. -/
abbrev Stage.ready : Stage := .command pop3CommandDefinition.startState .clear []

/-- Does the code expect a body after the status line? -/
def Pop3CommandBuilder.expectsBody (cmd : Pop3CommandBuilder) : Bool :=
  match getCommandType cmd.kwrd, cmd.hasArgs with
  | .multiline, _ => true
  | .overloaded, false => true
  | _, _ => false

/-- The first chunk holds a whole status line. -/
def hasStatusLine (chunk : List Byte) : Bool :=
  builderResult (pop3SinglelineResponseBuilder chunk pop3SinglelineResponseDefinition.startState
    none) = .buildFinished

/-- The first chunk holds the terminator of the body, as the code looks for it. -/
def hasTerminator (chunk : List Byte) : Bool :=
  checkerResult (pop3MultilineResponseChecker chunk pop3MultilineResponseDefinition.startState) =
    .finishedConsuming

/-- What is read from the filter at once. -/
def fromFilter (io : Io) : List Byte := ((io.pipeRead).map (·.take rawBuffTrans)).getD []

/-- A connection as its peers see it: how far it is, what they have still to send, and what they
have been sent. -/
structure Dialogue where
  stage : Stage
  /-- the `transform` flag -/
  transform : Bool
  peers : Peers
  toOrigin : List Byte
  toClient : List Byte
  toFilter : List Byte

namespace Dialogue

/-- What is relayed of a chunk: the chunk, or what is read from the filter. -/
def relayed (transform : Bool) (io : Io) (chunk : List Byte) : List Byte :=
  if transform then fromFilter io else chunk

/-- The stage after the octets `bs` of a command, of which `held` were there before. -/
def commandStage (p : CommandState) (cmd : Pop3CommandBuilder) (held chunk : List Byte) : Stage :=
  let o := commandBuilder chunk p cmd
  match builderResult o with
  | .buildFinished => .forward o.state.2 (held ++ chunk.take o.read)
  | .building => .command o.state.1 o.state.2 (held ++ chunk.take o.read)
  | .buildFailed => .closed

/-- The first chunk of a reply. -/
def statusRead (d : Dialogue) (cmd : Pop3CommandBuilder) (chunk : List Byte) (peers : Peers) :
    Dialogue :=
  if hasStatusLine chunk then
    if cmd.expectsBody then
      { d with
        stage := .relay (hasTerminator chunk)
          (relayed (isTransformed cmd.kwrd) (d.peers.calls 0) chunk)
        transform := isTransformed cmd.kwrd
        peers := peers
        toFilter := d.toFilter ++ if isTransformed cmd.kwrd then chunk else [] }
    else { d with stage := .relay true (if d.transform then [] else chunk), peers := peers }
  else { d with stage := .closed, peers := peers }

/-- A later chunk of a reply: whether it is the last one is what is found on the stack. -/
def bodyRead (d : Dialogue) (chunk : List Byte) (peers : Peers) : Dialogue :=
  { d with
    stage := .relay ((d.peers.calls 0).junk = .finishedConsuming)
      (relayed d.transform (d.peers.calls 0) chunk)
    peers := peers
    toFilter := d.toFilter ++ if d.transform then chunk else [] }

/-- One step of the dialogue; `none` when it waits or is over. -/
def step (d : Dialogue) : Option Dialogue :=
  match d.stage with
  | .greeting =>
    match d.peers.origin with
    | [] => none
    | seg :: segs => some { d with
        stage := if hasStatusLine (seg.take rawBuffA) then .welcome greetingOk else .closed
        peers := { d.peers.tick with origin := Peers.leave rawBuffA seg segs } }
  | .welcome rest => some { d with
      stage := if rest.drop d.peers.quota = [] then .ready else .welcome (rest.drop d.peers.quota)
      peers := d.peers.sent
      toClient := d.toClient ++ rest.take d.peers.quota }
  | .command p cmd bs =>
    match d.peers.client with
    | [] => none
    | seg :: segs => some { d with
        stage := if seg.take (rawBuffA - bs.length) = [] then .closed
          else commandStage p cmd bs (seg.take (rawBuffA - bs.length))
        peers := { d.peers.tick with client := Peers.leave (rawBuffA - bs.length) seg segs } }
  | .forward cmd rest => some { d with
      stage := if rest.drop d.peers.quota = [] then .status cmd
        else .forward cmd (rest.drop d.peers.quota)
      peers := if rest.drop d.peers.quota = [] then d.peers.sent.answer else d.peers.sent
      toOrigin := d.toOrigin ++ rest.take d.peers.quota }
  | .status cmd =>
    match d.peers.origin with
    | [] => none
    | seg :: segs => some (d.statusRead cmd (seg.take rawBuffB)
        { d.peers.tick with origin := Peers.leave rawBuffB seg segs })
  | .relay last rest => some { d with
      stage := if rest.drop d.peers.quota = [] then (if last then .ready else .body)
        else .relay last (rest.drop d.peers.quota)
      peers := d.peers.sent
      toClient := d.toClient ++ rest.take d.peers.quota }
  | .body =>
    match d.peers.origin with
    | [] => none
    | seg :: segs => some (d.bodyRead (seg.take rawBuffB)
        { d.peers.tick with origin := Peers.leave rawBuffB seg segs })
  | .closed => none

end Dialogue

end Pop3Proxy
