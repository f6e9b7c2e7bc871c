/-
# A connection and the program around it

`pop3.c` (the command tables), `struct pop3` and its pool from
`pop3_client_nio.c`, and the memory a handler works on: the selector, the heap
of connections, the resolver threads and the descriptors the kernel has open.

The results of the system calls a handler makes are an argument of it (`Io`).
What the kernel promises is built into the primitives that use them: `recv`
stores no more than the count it was given, `send` takes no more than it was
offered, and a descriptor that is open is never handed out again.
-/
import Pop3Proxy.Buffer
import Pop3Proxy.ResponseParsers
import Pop3Proxy.Selector
import Pop3Proxy.Stm

namespace Pop3Proxy

/-! ## The command tables -/

/-- `enum pop3_command_types`. -/
inductive Pop3CommandTypes where
  | singleline
  | multiline
  | overloaded
  deriving DecidableEq, Repr

/-- `overloaded_commands` -/
def overloadedCommands : List (List Byte) := [ascii "UIDL", ascii "LIST"]

/-- `multiline_commands` -/
def multilineCommands : List (List Byte) :=
  [ascii "RETR", ascii "TOP", ascii "LANG", ascii "CAPA"]

/-- `is_in_string_array` -/
def isInStringArray (what : List Byte) (stringArray : List (List Byte)) : Bool :=
  stringArray.any (cstr what = ·)

/-- `get_command_type` -/
def getCommandType (cmd : List Byte) : Pop3CommandTypes :=
  if isInStringArray cmd multilineCommands then .multiline
  else if isInStringArray cmd overloadedCommands then .overloaded
  else .singleline

/-! ## The connection -/

/-- `enum states`. -/
inductive States where
  | processConnection
  | resolvConnection
  | establConnection
  | greetingSread
  | greetingCwrite
  | commandCread
  | commandSwrite
  | responseSread
  | dotDataSread
  | dotDataCwrite
  | responseCwrite
  | pipeDream
  | update
  | error
  deriving DecidableEq, Repr

namespace States

/-- The states in the order of the enumeration. -/
def all : List States :=
  [processConnection, resolvConnection, establConnection, greetingSread, greetingCwrite,
    commandCread, commandSwrite, responseSread, dotDataSread, dotDataCwrite, responseCwrite,
    pipeDream, update, error]

/-- The number C gives to a state. -/
abbrev num (s : States) : ℕ := s.ctorIdx

theorem all_getElem (s : States) : all[s.num]? = some s := by cases s <;> rfl

theorem num_injective {s t : States} (h : s.num = t.num) : s = t := by
  have hs := all_getElem s
  rw [h, all_getElem t] at hs
  exact (Option.some.inj hs).symm

end States

/-- `dest_addr_type` of the origin's address. -/
inductive AddrType where
  | ipv4
  | ipv6
  | domain
  deriving DecidableEq, Repr

/-- The address families `origin_domain` can hold. -/
inductive AddressFamily where
  | unspec
  | inet
  | inet6
  deriving DecidableEq, Repr

/-- `union origin`: which variant was initialised last, with what it holds. -/
inductive Origin where
  | connecting (originServer : AddrType)
  | greeting (singlelineParser : SinglelineState)
  | response (singlelineParser : SinglelineState) (multilineParser : MultilineState)
  deriving DecidableEq, Repr

/-- `struct pop3` -/
structure Pop3 where
  clientFd : Int
  originDomain : AddressFamily
  originFd : Int
  /-- `origin_resolution`: the family of the first address found -/
  originResolution : Option AddressFamily
  currentCommand : Pop3CommandBuilder
  pipelined : Bool
  bytesInBuffer : ℕ
  currentCommandLen : ℕ
  bytesRead : ℕ
  /-- `stm.current` -/
  current : Option ℕ
  senderPipe : Int × Int
  receiverPipe : Int × Int
  /-- `client.command.command_parser` -/
  commandParser : CommandState
  origin : Origin
  transform : Bool
  readBuffer : Buffer
  writeBuffer : Buffer
  transBuffer : Buffer
  references : ℕ
  deriving DecidableEq, Repr

/-- The size of `raw_buff_a`. -/
def rawBuffA : ℕ := 2048

/-- The size of `raw_buff_b`. -/
def rawBuffB : ℕ := 2048

/-- The size of `raw_buff_trans`. -/
def rawBuffTrans : ℕ := 3000

/-- What `pop3_new` stores in the struct it returns. -/
def Pop3.new (clientFd : Int) : Pop3 where
  clientFd := clientFd
  originDomain := .unspec
  originFd := -1
  originResolution := none
  currentCommand := .clear
  pipelined := false
  bytesInBuffer := 0
  currentCommandLen := 0
  bytesRead := 0
  current := none
  senderPipe := (0, 0)
  receiverPipe := (0, 0)
  commandParser := pop3CommandDefinition.startState
  origin := .connecting .ipv4
  transform := false
  readBuffer := bufferInit rawBuffA []
  writeBuffer := bufferInit rawBuffB []
  transBuffer := bufferInit 0 []
  references := 1

/-! ## The program's memory -/

/-- The address of a `struct pop3`. -/
abbrev Addr := ℕ

/-- The handlers registered in the selector: `pop3_passive_accept` for the
listening socket, `suscriptions_handler` for the sockets of a connection. -/
inductive FdHandler where
  | passive
  | suscriptions
  deriving DecidableEq, Repr

/-- `struct selector_key`, without the selector. -/
structure SelectorKey where
  fd : Int
  data : Addr
  deriving DecidableEq, Repr

/-- What leaves the program through a descriptor. -/
inductive Output where
  /-- `send` on a socket -/
  | sent (fd : Int) (bs : List Byte)
  /-- `write` to a pipe -/
  | wrote (fd : Int) (bs : List Byte)
  deriving DecidableEq, Repr

/-- The memory of the program and what it has done. -/
structure World where
  sel : FdSelector FdHandler Addr
  heap : Addr → Pop3
  /-- the structs obtained from `malloc` and not freed -/
  allocated : Addr → Bool
  /-- the structs linked in `pool` -/
  pool : List Addr
  poolSize : ℕ
  /-- `curr_origin_server->dest_addr_type` -/
  currOriginServer : AddrType
  /-- the private keys of the resolver threads that are still running -/
  resolvers : List SelectorKey
  /-- the descriptors the kernel has open -/
  isOpen : Int → Bool
  output : List Output

/-- The values of `errno` the program looks for. -/
inductive Errno where
  | eagain
  | ewouldblock
  | einprogress
  | other
  deriving DecidableEq, Repr

/-- The results of the system and library calls a handler makes. -/
structure Io where
  errno : Errno := .other
  /-- what `recv` finds, `none` for `-1` -/
  recv : Option (List Byte) := none
  /-- how many octets `send` takes, `none` for `-1` -/
  send : Option ℕ := none
  accept : Option Int := none
  socket : Option Int := none
  /-- `fcntl` succeeds in `selector_fd_set_nio` -/
  setNio : Bool := true
  /-- `connect` returns 0 -/
  connect : Bool := false
  /-- `malloc`, `calloc` and `realloc` find memory -/
  malloc : Bool := true
  /-- where `malloc` puts a new `struct pop3` -/
  address : Addr := 0
  pthreadCreate : Int := 0
  senderPipe : Option (Int × Int) := none
  receiverPipe : Option (Int × Int) := none
  /-- what `read` finds in the pipe of the filter, `none` for `-1` -/
  pipeRead : Option (List Byte) := none
  /-- the octets in the stack slot of a variable that is never assigned -/
  junk : ConsumerState := .consuming

/-- `recv(fd, ptr, count, 0)`, and `read` of a pipe. -/
def upTo (found : Option (List Byte)) (count : ℕ) : Option (List Byte) := found.map (·.take count)

/-- `send(fd, ptr, count, MSG_NOSIGNAL)`: the octets it takes of those offered. -/
def taken (send : Option ℕ) (bytes : List Byte) : Option (List Byte) := send.map (bytes.take ·)

namespace World

variable (w : World)

/-- `ATTACHMENT(key)->… = …` -/
def modify (a : Addr) (f : Pop3 → Pop3) : World :=
  { w with heap := Function.update w.heap a (f (w.heap a)) }

/-- A descriptor the kernel can hand out. -/
def fresh (fd : Option Int) : Option Int :=
  fd.filter fun fd => 0 ≤ fd && !w.isOpen fd

/-- A descriptor that the system has given. -/
def openFd (fd : Int) : World := { w with isOpen := Function.update w.isOpen fd true }

/-- `close` -/
def closeFd (fd : Int) : World := { w with isOpen := Function.update w.isOpen fd false }

/-- What is seen outside. -/
def emit (o : Output) : World := { w with output := w.output ++ [o] }

/-- `selector_set_interest` -/
def setInterest (fd : Int) (i : FdInterest) : SelectorStatus × World :=
  let (st, sel) := selectorSetInterest w.sel fd i
  (st, { w with sel := sel })

/-- `selector_register` of a descriptor of the connection `a`. -/
def register (io : Io) (fd : Int) (i : FdInterest) (a : Addr) : SelectorStatus × World :=
  let (st, sel) := selectorRegister io.malloc w.sel fd .suscriptions i a
  (st, { w with sel := sel })

/-- The `if` that ends most handlers: the next state when arming `fd` succeeds,
`ERROR` when it does not. -/
def armed (fd : Int) (i : FdInterest) (next : States) : States × World :=
  let (st, w) := w.setInterest fd i
  (if st = .success then next else .error, w)

/-- The lines before it in most of them: `off` is disarmed, its status ignored. -/
def handOver (off on : Int) (i : FdInterest) (next : States) : States × World :=
  (w.setInterest off OP_NOOP).2.armed on i next

/-- The origin of the connection `a` is disarmed and its client armed for writing. -/
def toClient (a : Addr) (next : States) : States × World :=
  w.handOver (w.heap a).originFd (w.heap a).clientFd OP_WRITE next

/-- The client of the connection `a` is disarmed and its origin armed. -/
def toOrigin (a : Addr) (i : FdInterest) (next : States) : States × World :=
  w.handOver (w.heap a).clientFd (w.heap a).originFd i next

end World

/-! ## The pool of connections -/

/-- `max_pool` -/
def maxPool : ℕ := 50

/-- `pop3_new`: the struct, unless there is no memory for one. -/
def pop3New (io : Io) (w : World) (clientFd : Int) : Option (Addr × World) :=
  match w.pool with
  | a :: pool => some (a, { w with pool := pool }.modify a fun _ => .new clientFd)
  | [] =>
    if io.malloc && !w.allocated io.address then
      some (io.address, { w with allocated := Function.update w.allocated io.address true }.modify
        io.address fun _ => .new clientFd)
    else none

/-- `destroy_suscription_` -/
def destroySuscription_ (a : Addr) (w : World) : World :=
  { w with allocated := Function.update w.allocated a false }

/-- `destroy_suscription` -/
def destroySuscription (a : Addr) (w : World) : World :=
  if (w.heap a).references = 1 then
    if w.poolSize < maxPool then { w with pool := a :: w.pool, poolSize := w.poolSize + 1 }
    else destroySuscription_ a w
  else w.modify a fun c => { c with references := c.references - 1 }

end Pop3Proxy
