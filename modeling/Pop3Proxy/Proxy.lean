/-
# The proxy as an event system

`selector_select` and its two parts, `handle_iteration` and
`handle_block_notifications`, cut into the smallest pieces other threads can
run between: one half of the body of the loop over the descriptors, or one
block notification, for each event.  A pass works with the readiness sets taken
when it began; resolver threads finish at any moment the mutex of
`resolution_jobs` lets them.

Each event makes at most one handler call, so the results of its system calls
are one `Io`.
-/
import Pop3Proxy.ClientNio
import Pop3Proxy.Library.EventSystem

namespace Pop3Proxy

/-! ## The handlers by the name they are registered under -/

/-- `item->handler->handle_read(&key)` -/
def handleRead (h : FdHandler) (io : Io) (key : SelectorKey) (w : World) : Except Fault World :=
  match h with
  | .passive => .ok (pop3PassiveAccept io w)
  | .suscriptions => readSuscription io key w

/-- `item->handler->handle_write(&key)`; the listening socket has none, which
`handle_iteration` asserts. -/
def handleWrite (h : FdHandler) (io : Io) (key : SelectorKey) (w : World) : Except Fault World :=
  match h with
  | .passive => .error .assertion
  | .suscriptions => writeSuscription io key w

/-- `item->handler->handle_block(&key)`; the listening socket has none. -/
def handleBlock (h : FdHandler) (io : Io) (key : SelectorKey) (w : World) : Except Fault World :=
  match h with
  | .passive => .error .undefined
  | .suscriptions => blockSuscription io key w

/-! ## Where the selector loop is -/

/-- A pass of `handle_iteration`: its index `i`, the bound `n` read before the
loop, and the connections whose handlers it has run so far (recorded for the
statements about a pass; the code keeps no such list). -/
structure Pass where
  i : ℕ
  n : ℕ
  ran : List Addr
  deriving DecidableEq, Repr

/-- Between the calls to handlers, the loop is in one of these places. -/
inductive Phase where
  /-- before `pselect` -/
  | idle
  /-- at the top of the body of the loop of `handle_iteration` -/
  | reading (pass : Pass)
  /-- before the test of `slave_w`; `key` is set when the item was in use -/
  | writing (pass : Pass) (key : Option SelectorKey)
  /-- in `handle_block_notifications`, which holds the mutex, with these jobs to go -/
  | notifying (jobs : List Int)
  deriving DecidableEq, Repr

/-- The program and the place its main thread is at. -/
structure Proxy where
  world : World
  phase : Phase

/-- What can happen to the program. -/
inductive Event where
  /-- `pselect` returns with these descriptors ready -/
  | select (readyR readyW : ℕ → Bool)
  /-- `pselect` is interrupted by a signal -/
  | interrupted
  /-- the main thread goes on to its next handler -/
  | next (io : Io)
  /-- the resolver thread at this position stores its result and notifies -/
  | resolved (i : ℕ) (result : Option AddressFamily) (malloc : Bool)

/-- The connection a handler call is for. -/
def ranBy (h : FdHandler) (key : SelectorKey) : List Addr :=
  match h with
  | .passive => []
  | .suscriptions => [key.data]

/-- The first half of the body of the loop of `handle_iteration`. -/
def visitRead (io : Io) (pass : Pass) (w : World) : Except Fault Proxy :=
  match w.sel.fds pass.i with
  | none => .ok ⟨w, .writing pass none⟩
  | some item =>
    let key : SelectorKey := ⟨item.fd, item.data⟩
    if w.sel.slaveR item.fd.toNat && item.interest.read then
      (handleRead item.handler io key w).map fun w =>
        ⟨w, .writing { pass with ran := pass.ran ++ ranBy item.handler key } (some key)⟩
    else .ok ⟨w, .writing pass (some key)⟩

/-- The second half; the item is looked at again, as the first handler left it. -/
def visitWrite (io : Io) (pass : Pass) (key : Option SelectorKey) (w : World) :
    Except Fault Proxy :=
  match key, w.sel.fds pass.i with
  | some key, some item =>
    if w.sel.slaveW pass.i && item.interest.write then
      (handleWrite item.handler io key w).map fun w =>
        ⟨w, .reading { pass with i := pass.i + 1, ran := pass.ran ++ ranBy item.handler key }⟩
    else .ok ⟨w, .reading { pass with i := pass.i + 1 }⟩
  | _, _ => .ok ⟨w, .reading { pass with i := pass.i + 1 }⟩

/-- One round of the loop of `handle_block_notifications`. -/
def notifyJob (io : Io) (fd : Int) (w : World) : Except Fault World :=
  match w.sel.fds fd.toNat with
  | none => .ok w
  | some item => handleBlock item.handler io ⟨item.fd, item.data⟩ w

/-- `resolv_connection_blocking` after `getaddrinfo` returns, and
`selector_notify_block`; it waits while the main thread holds the mutex. -/
def resolvConnectionBlocking (i : ℕ) (result : Option AddressFamily) (malloc : Bool) (w : World) :
    World :=
  match w.resolvers[i]? with
  | none => w
  | some key =>
    let w := { w with resolvers := w.resolvers.eraseIdx i }.modify key.data
      fun c => { c with originResolution := result }
    if malloc then { w with sel.resolutionJobs := key.fd :: w.sel.resolutionJobs } else w

/-- The reaction of the program to an event. -/
def Proxy.step (p : Proxy) (e : Event) : Except Fault Proxy :=
  match p.phase, e with
  | .idle, .select readyR readyW =>
    let sel := { p.world.sel with
      slaveR := fun n => p.world.sel.masterR n && readyR n
      slaveW := fun n => p.world.sel.masterW n && readyW n }
    .ok ⟨{ p.world with sel := sel }, .reading ⟨0, sel.maxFd, []⟩⟩
  | .idle, .interrupted => .ok { p with phase := .notifying p.world.sel.resolutionJobs }
  | .reading pass, .next io =>
    if pass.i ≤ pass.n then visitRead io pass p.world
    else .ok { p with phase := .notifying p.world.sel.resolutionJobs }
  | .writing pass key, .next io => visitWrite io pass key p.world
  | .notifying (fd :: jobs), .next io =>
    (notifyJob io fd p.world).map fun w => ⟨w, .notifying jobs⟩
  | .notifying [], .next _ =>
    .ok ⟨{ p.world with sel.resolutionJobs := [] }, .idle⟩
  | .notifying _, .resolved _ _ _ => .ok p  -- the thread is blocked on the mutex
  | _, .resolved i result malloc =>
    .ok { p with world := resolvConnectionBlocking i result malloc p.world }
  | _, _ => .ok p

/-- The program when `pop3_suscriptor.c` enters its loop: a new selector with
the listening socket registered. -/
def Proxy.start (server : Int) (origin : AddrType) : Proxy where
  phase := .idle
  world :=
    { sel := (selectorRegister true (selectorNew itemsMaxSize) server .passive OP_READ 0).2
      heap := fun _ => .new 0
      allocated := fun _ => false
      pool := []
      poolSize := 0
      currOriginServer := origin
      resolvers := []
      isOpen := fun fd => fd = server
      output := [] }

/-- The runs of the program, whatever its peers and the system calls do. -/
def proxySystem : EventSystem.System Proxy Event Fault where
  init p := ∃ server origin, p = .start server origin
  allowed _ _ := True
  step := Proxy.step

end Pop3Proxy
