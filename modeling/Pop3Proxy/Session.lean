/-
# A session with its two peers

One connection of the program together with what is under way to it: the
segments of the two streams that `recv` will find, the replies the origin will
give, what `send` will take, and the results of all the other calls.  The
descriptor that is armed says which handler runs next (`Session.step`); a
session is over when nothing is ready any more.
-/
import Pop3Proxy.Suscription

namespace Pop3Proxy

/-- What the peers of a connection and the kernel do. -/
structure Peers where
  /-- the segments of the client's stream that are still to be received -/
  client : List (List Byte)
  /-- the segments of the origin's stream that are still to be received -/
  origin : List (List Byte)
  /-- the replies to the commands not yet forwarded, each in its segments -/
  replies : List (List (List Byte))
  /-- what the next calls of `send` take; later ones take everything -/
  sends : List ℕ
  /-- the results of the other calls, and what is found on the stack -/
  calls : ℕ → Io

namespace Peers

/-- A handler runs. -/
def tick (p : Peers) : Peers := { p with calls := fun n => p.calls (n + 1) }

/-- What is left of the segments after `room` octets were asked for. -/
def leave (room : ℕ) (seg : List Byte) (segs : List (List Byte)) : List (List Byte) :=
  if seg.drop room = [] then segs else seg.drop room :: segs

/-- What the next `send` takes, if it is offered as much. -/
def quota (p : Peers) : ℕ := p.sends.headD rawBuffTrans

/-- A `send` was made. -/
def sent (p : Peers) : Peers := { p.tick with sends := p.sends.tail }

/-- The origin has got a whole command and answers it. -/
def answer (p : Peers) : Peers :=
  { p with origin := p.origin ++ p.replies.headD [], replies := p.replies.tail }

end Peers

/-- The interest a descriptor of the connection `a` is registered with. -/
def World.interest (w : World) (a : Addr) (fd : Int) : FdInterest :=
  match w.sel.item fd with
  | some it => if Owns a it then it.interest else OP_NOOP
  | none => OP_NOOP

/-- The room `recv` is told about. -/
def Buffer.room (b : Buffer) : ℕ := b.limit - b.write

/-- The buffer the octets of the origin go to. -/
def Pop3.originBuffer (c : Pop3) : Buffer :=
  if c.current = some States.greetingSread.num then c.readBuffer else c.writeBuffer

/-- The program, and what its peers have still to say. -/
structure Session where
  world : World
  peers : Peers

namespace Session

/-- The handler call that is due: the descriptor that is armed is also ready, or
the session waits. -/
def next (a : Addr) (s : Session) : Option (Op × SelectorKey × Io × Peers) :=
  let c := s.world.heap a
  let io := s.peers.calls 0
  let client := s.world.interest a c.clientFd
  let origin := s.world.interest a c.originFd
  if client.read then
    match s.peers.client with
    | [] => none
    | seg :: segs => some (.read, ⟨c.clientFd, a⟩, { io with recv := some seg },
        { s.peers.tick with client := Peers.leave c.readBuffer.room seg segs })
  else if client.write then
    some (.write, ⟨c.clientFd, a⟩, { io with send := some s.peers.quota }, s.peers.sent)
  else if origin.read then
    match s.peers.origin with
    | [] => none
    | seg :: segs => some (.read, ⟨c.originFd, a⟩, { io with recv := some seg },
        { s.peers.tick with origin := Peers.leave c.originBuffer.room seg segs })
  else if origin.write then
    some (.write, ⟨c.originFd, a⟩, { io with send := some s.peers.quota }, s.peers.sent)
  else none

/-- The handler has run; a command that was sent completely is answered. -/
def after (a : Addr) (s : Session) (peers : Peers) (w : World) : Session where
  world := w
  peers :=
    if (s.world.heap a).current = some States.commandSwrite.num ∧
        (w.heap a).current = some States.responseSread.num then peers.answer
    else peers

/-- One event of the session; a fault ends it. -/
def step (a : Addr) : Except Fault Session → Option (Except Fault Session)
  | .error _ => none
  | .ok s => (s.next a).map fun (op, key, io, peers) =>
      (op.suscription io key s.world).map (s.after a peers)

end Session

/-! ## What was sent -/

/-- The octets sent on the socket `fd`. -/
def sentOn (fd : Int) (out : List Output) : List Byte :=
  out.flatMap fun
    | .sent fd' bs => if fd' = fd then bs else []
    | .wrote _ _ => []

/-- The octets written to pipes, that is to the standard input of the filter. -/
def piped (out : List Output) : List Byte :=
  out.flatMap fun
    | .sent _ _ => []
    | .wrote _ bs => bs

@[simp] theorem sentOn_append (fd : Int) (out out' : List Output) :
    sentOn fd (out ++ out') = sentOn fd out ++ sentOn fd out' := List.flatMap_append

@[simp] theorem piped_append (out out' : List Output) :
    piped (out ++ out') = piped out ++ piped out' := List.flatMap_append

@[simp] theorem sentOn_sent (fd fd' : Int) (bs : List Byte) :
    sentOn fd [.sent fd' bs] = if fd' = fd then bs else [] := by simp [sentOn]

@[simp] theorem sentOn_wrote (fd fd' : Int) (bs : List Byte) :
    sentOn fd [.wrote fd' bs] = [] := by simp [sentOn]

@[simp] theorem piped_sent (fd : Int) (bs : List Byte) : piped [.sent fd bs] = [] := by simp [piped]

@[simp] theorem piped_wrote (fd : Int) (bs : List Byte) : piped [.wrote fd bs] = bs := by
  simp [piped]

end Pop3Proxy
