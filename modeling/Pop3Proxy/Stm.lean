/-
# The state machine engine

`stm.c`: a table of states with hooks, run by the events of the selector.  The
states of the table are numbered, `current` is unset until the first event, and
a hook that is missing from the table aborts the program.
-/
import Pop3Proxy.Basic
import Mathlib.Tactic.Common

namespace Pop3Proxy

/-- `struct state_definition`, over the memory `σ` its hooks work on. -/
structure StateDefinition (σ : Type) where
  state : ℕ
  onArrival : Option (ℕ → σ → Except Fault σ) := none
  onDeparture : Option (ℕ → σ → Except Fault σ) := none
  onReadReady : Option (σ → Except Fault (ℕ × σ)) := none
  onWriteReady : Option (σ → Except Fault (ℕ × σ)) := none
  onBlockReady : Option (σ → Except Fault (ℕ × σ)) := none

/-- The fields of `struct state_machine` that do not change. -/
structure StateMachine (σ : Type) where
  initial : ℕ
  states : List (StateDefinition σ)
  maxState : ℕ

namespace StateMachine

variable {σ : Type} (m : StateMachine σ)

/-- `stm_init`: aborts unless the states are numbered in order and the initial
one is below the last. -/
def stmInit : Except Fault (Option ℕ) :=
  if ∀ i ≤ m.maxState, (m.states[i]?).map StateDefinition.state = some i then
    if m.initial < m.maxState then .ok none else .error .abort
  else .error .abort

/-- Make `i` the current state and run its `on_arrival`. -/
def arrive (i : ℕ) (s : σ) : Except Fault (ℕ × σ) :=
  match m.states[i]? with
  | none => .error .undefined
  | some d =>
    match d.onArrival with
    | none => .ok (i, s)
    | some hook => (hook d.state s).map fun s => (i, s)

/-- Run the `on_departure` of the state `i`. -/
def depart (i : ℕ) (s : σ) : Except Fault σ :=
  match (m.states[i]?).bind StateDefinition.onDeparture with
  | none => .ok s
  | some hook => hook i s

/-- `handle_first` -/
def handleFirst (current : Option ℕ) (s : σ) : Except Fault (ℕ × σ) :=
  match current with
  | none => m.arrive m.initial s
  | some i => .ok (i, s)

/-- `jump` -/
def jump (current next : ℕ) (s : σ) : Except Fault (ℕ × σ) :=
  if m.maxState < next then .error .abort
  else if current = next then .ok (current, s)
  else do
    let s ← m.depart current s
    m.arrive next s

/-- `stm_handler_read`, `stm_handler_write` and `stm_handler_block` differ in the
hook they run: the value returned, and the current state it leads to. -/
def stmHandler (ready : StateDefinition σ → Option (σ → Except Fault (ℕ × σ)))
    (current : Option ℕ) (s : σ) : Except Fault (ℕ × ℕ × σ) := do
  let (i, s) ← m.handleFirst current s
  match (m.states[i]?).bind ready with
  | none => .error .abort
  | some hook =>
    let (ret, s) ← hook s
    let (i, s) ← m.jump i ret s
    .ok (ret, i, s)

/-- `stm_handler_read` -/
def stmHandlerRead := m.stmHandler StateDefinition.onReadReady

/-- `stm_handler_write` -/
def stmHandlerWrite := m.stmHandler StateDefinition.onWriteReady

/-- `stm_handler_block` -/
def stmHandlerBlock := m.stmHandler StateDefinition.onBlockReady

end StateMachine

end Pop3Proxy
