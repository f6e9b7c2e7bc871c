/-
# What the engine calls, and when

The hooks of a table are made to note their calls.  A state is arrived at before
one of its handlers runs and left before the next one is arrived at; a handler
that returns the state it runs in leads to no call.
-/
import Pop3Proxy.Suscription

namespace Pop3Proxy

/-- A call of a hook, with the number of the state it belongs to. -/
inductive HookCall where
  | arrival (n : ℕ)
  | departure (n : ℕ)
  | ready (op : Op) (n : ℕ)
  deriving DecidableEq, Repr

section
variable {σ : Type}

/-- The hooks of a state, noting their calls. -/
def StateDefinition.noted (d : StateDefinition σ) : StateDefinition (List HookCall × σ) where
  state := d.state
  onArrival := d.onArrival.map fun hook n p => (hook n p.2).map (p.1 ++ [.arrival n], ·)
  onDeparture := d.onDeparture.map fun hook n p => (hook n p.2).map (p.1 ++ [.departure n], ·)
  onReadReady := d.onReadReady.map fun hook p =>
    (hook p.2).map fun r => (r.1, p.1 ++ [.ready .read d.state], r.2)
  onWriteReady := d.onWriteReady.map fun hook p =>
    (hook p.2).map fun r => (r.1, p.1 ++ [.ready .write d.state], r.2)
  onBlockReady := d.onBlockReady.map fun hook p =>
    (hook p.2).map fun r => (r.1, p.1 ++ [.ready .block d.state], r.2)

namespace StateMachine

variable (m : StateMachine σ)

/-- The machine with hooks that note their calls. -/
def noted : StateMachine (List HookCall × σ) where
  initial := m.initial
  states := m.states.map .noted
  maxState := m.maxState

/-- `stm_state` -/
def stmState (current : Option ℕ) : ℕ :=
  match current with
  | none => m.initial
  | some i => ((m.states[i]?).map StateDefinition.state).getD i

/-- One event after the other: what the handlers return, and what is left. -/
def events : Option ℕ → σ → List Op → Except Fault (List ℕ × Option ℕ × σ)
  | current, s, [] => .ok ([], current, s)
  | current, s, op :: ops => do
    let (ret, i, s) ← m.stmHandler op.ready current s
    let (rets, current, s) ← events (some i) s ops
    .ok (ret :: rets, current, s)

/-! ## What is expected -/

/-- The table has the hook. -/
def has : HookCall → Bool
  | .arrival n => ((m.states[n]?).bind StateDefinition.onArrival).isSome
  | .departure n => ((m.states[n]?).bind StateDefinition.onDeparture).isSome
  | .ready op n => ((m.states[n]?).bind op.ready).isSome

/-- The first event arrives at the initial state. -/
def firstCalls : Option ℕ → List HookCall
  | none => [.arrival m.initial]
  | some _ => []

/-- A result other than the current state leaves this one and arrives at that one. -/
def changeCalls (i ret : ℕ) : List HookCall :=
  if i = ret then [] else [.departure i, .arrival ret]

/-- The calls of some events and their results, hooks that are missing included. -/
def brackets : Option ℕ → List (Op × ℕ) → List HookCall
  | _, [] => []
  | current, (op, ret) :: rest =>
    m.firstCalls current ++ .ready op (current.getD m.initial) ::
      changeCalls (current.getD m.initial) ret ++ brackets (some ret) rest

/-- The state that was arrived at last, `i` before any arrival. -/
def lastArrival (i : ℕ) (calls : List HookCall) : ℕ :=
  calls.foldl (fun i call => match call with
    | .arrival n => n
    | _ => i) i

/-- `on_arrival` and `on_departure` return. -/
def HooksReturn : Prop :=
  ∀ d ∈ m.states, (∀ hook ∈ d.onArrival, ∀ n s, ∃ s', hook n s = .ok s') ∧
    ∀ hook ∈ d.onDeparture, ∀ n s, ∃ s', hook n s = .ok s'

/-- At each event the current state has the handler that is needed, and it returns a
state up to `max_state`. -/
def Served : Option ℕ → σ → List Op → Prop
  | _, _, [] => True
  | current, s, op :: ops => ∃ i s₁ hook ret s₂, m.handleFirst current s = .ok (i, s₁) ∧
      (m.states[i]?).bind op.ready = some hook ∧ hook s₁ = .ok (ret, s₂) ∧ ret ≤ m.maxState ∧
      ∀ j s', m.jump i ret s₂ = .ok (j, s') → Served (some j) s' ops

/-! ## One event -/

/-- The states are numbered in order. -/
def Numbered : Prop := ∀ i ≤ m.maxState, (m.states[i]?).map StateDefinition.state = some i

variable {m}

/-- What `stm_init` accepts. -/
theorem numbered_of_stmInit (h : m.stmInit = .ok none) :
    m.Numbered ∧ m.initial ≤ m.maxState := by
  unfold stmInit at h
  split_ifs at h with hstates hinitial
  exact ⟨hstates, Nat.le_of_lt hinitial⟩

theorem Numbered.get (h : m.Numbered) {i : ℕ} (hi : i ≤ m.maxState) :
    ∃ d, m.states[i]? = some d ∧ d.state = i := by
  have hd := h i hi
  rw [Option.map_eq_some_iff] at hd
  exact hd

theorem getElem?_noted (i : ℕ) : m.noted.states[i]? = (m.states[i]?).map .noted := by
  show (m.states.map StateDefinition.noted)[i]? = _
  rw [List.getElem?_map]

theorem arrive_noted (h : m.Numbered) {i : ℕ} (hi : i ≤ m.maxState) (l : List HookCall) (s : σ) :
    m.noted.arrive i (l, s) = (m.arrive i s).map fun r =>
      (r.1, l ++ [HookCall.arrival i].filter m.has, r.2) := by
  obtain ⟨d, hd, hstate⟩ := h.get hi
  rw [arrive, arrive, getElem?_noted, hd]
  cases hhook : d.onArrival with
  | none =>
    have hhas : m.has (.arrival i) = false := by rw [has, hd, Option.bind_some, hhook]; rfl
    simp [StateDefinition.noted, hhook, hhas, Except.map]
  | some hook =>
    have hhas : m.has (.arrival i) = true := by rw [has, hd, Option.bind_some, hhook]; rfl
    rw [List.filter_cons_of_pos hhas, ← hstate]
    simp only [StateDefinition.noted, hhook, Option.map_some]
    cases hook d.state s <;> rfl

theorem depart_noted (i : ℕ) (l : List HookCall) (s : σ) :
    m.noted.depart i (l, s) = (m.depart i s).map fun s' =>
      (l ++ [HookCall.departure i].filter m.has, s') := by
  rw [depart, depart, getElem?_noted]
  cases hd : m.states[i]? with
  | none =>
    have hhas : m.has (.departure i) = false := by rw [has, hd]; rfl
    simp [hhas, Except.map]
  | some d =>
    cases hhook : d.onDeparture with
    | none =>
      have hhas : m.has (.departure i) = false := by rw [has, hd, Option.bind_some, hhook]; rfl
      simp [StateDefinition.noted, hhook, hhas, Except.map]
    | some hook =>
      have hhas : m.has (.departure i) = true := by rw [has, hd, Option.bind_some, hhook]; rfl
      rw [List.filter_cons_of_pos hhas]
      simp only [StateDefinition.noted, hhook, Option.map_some, Option.bind_some]
      cases hook i s <;> rfl

theorem handleFirst_noted (h : m.Numbered) (hi : m.initial ≤ m.maxState) (current : Option ℕ)
    (l : List HookCall) (s : σ) :
    m.noted.handleFirst current (l, s) = (m.handleFirst current s).map fun r =>
      (r.1, l ++ (m.firstCalls current).filter m.has, r.2) := by
  cases current with
  | none => exact arrive_noted h hi l s
  | some i =>
    rw [handleFirst, handleFirst, firstCalls, List.filter_nil, List.append_nil]
    rfl

/-- A handler notes its call, and nothing else. -/
theorem ready_noted (op : Op) (d : StateDefinition σ) :
    op.ready d.noted = (op.ready d).map fun hook p =>
      (hook p.2).map fun r => (r.1, p.1 ++ [.ready op d.state], r.2) := by
  cases op <;> rfl

theorem jump_noted (h : m.Numbered) (i ret : ℕ) (l : List HookCall) (s : σ) :
    m.noted.jump i ret (l, s) = (m.jump i ret s).map fun r =>
      (r.1, l ++ (changeCalls i ret).filter m.has, r.2) := by
  rw [jump, jump]
  show (if m.maxState < ret then _ else _) = _
  by_cases hret : m.maxState < ret
  · rw [if_pos hret, if_pos hret]
    rfl
  · rw [if_neg hret, if_neg hret, changeCalls]
    by_cases hsame : i = ret
    · rw [if_pos hsame, if_pos hsame, if_pos hsame, List.filter_nil, List.append_nil]
      rfl
    · rw [if_neg hsame, if_neg hsame, if_neg hsame, depart_noted]
      cases m.depart i s with
      | error e => rfl
      | ok s' =>
        show m.noted.arrive ret _ = Except.map _ (m.arrive ret s')
        rw [arrive_noted h (Nat.not_lt.mp hret), List.append_assoc, ← List.filter_append]
        rfl

/-- Where `handle_first` ends. -/
theorem handleFirst_eq_ok {current : Option ℕ} {s s' : σ} {i : ℕ}
    (h : m.handleFirst current s = .ok (i, s')) : i = current.getD m.initial := by
  cases current with
  | some j =>
    have h := congrArg Prod.fst (Except.ok.inj h)
    exact h.symm
  | none =>
    rw [handleFirst, arrive] at h
    cases hd : m.states[m.initial]? with
    | none => simp [hd] at h
    | some d =>
      simp only [hd] at h
      cases hhook : d.onArrival with
      | none =>
        simp only [hhook, Except.ok.injEq, Prod.mk.injEq] at h
        exact h.1.symm
      | some hook =>
        simp only [hhook] at h
        obtain ⟨s₁, -, h⟩ := map_eq_ok.mp h
        exact (congrArg Prod.fst h).symm

/-- Where `jump` ends. -/
theorem jump_eq_ok {i ret j : ℕ} {s s' : σ} (h : m.jump i ret s = .ok (j, s')) :
    j = ret ∧ ret ≤ m.maxState := by
  unfold jump at h
  split_ifs at h with hret hsame
  · obtain ⟨rfl, -⟩ := Prod.mk.inj (Except.ok.inj h)
    exact ⟨hsame, Nat.not_lt.mp hret⟩
  · obtain ⟨s₁, -, h⟩ := bind_eq_ok.mp h
    have hlands := @handleFirst_eq_ok _ { m with initial := ret } none s₁ s' j h
    exact ⟨hlands, Nat.not_lt.mp hret⟩

/-- **One event.** -/
theorem stmHandler_noted (h : m.Numbered) (hi : m.initial ≤ m.maxState) (op : Op)
    {current : Option ℕ} (hcur : ∀ i, current = some i → i ≤ m.maxState) (l : List HookCall)
    (s : σ) :
    m.noted.stmHandler op.ready current (l, s) = (m.stmHandler op.ready current s).map fun r =>
      (r.1, r.2.1, l ++ (m.brackets current [(op, r.1)]).filter m.has, r.2.2) := by
  rw [stmHandler, stmHandler, handleFirst_noted h hi]
  cases hfirst : m.handleFirst current s with
  | error e => rfl
  | ok p =>
    obtain ⟨i, s₁⟩ := p
    have hstate : i = current.getD m.initial := handleFirst_eq_ok hfirst
    have hle : i ≤ m.maxState := by
      rw [hstate]
      cases current with
      | none => exact hi
      | some j => exact hcur j rfl
    obtain ⟨d, hd, hnum⟩ := h.get hle
    simp only [Except.map, ok_bind, getElem?_noted, hd, Option.map_some, Option.bind_some,
      ready_noted]
    cases hhook : op.ready d with
    | none => rfl
    | some hook =>
      have hhas : m.has (.ready op i) = true := by rw [has, hd, Option.bind_some, hhook]; rfl
      simp only [Option.map_some]
      cases hook s₁ with
      | error e => rfl
      | ok r =>
        obtain ⟨ret, s₂⟩ := r
        simp only [Except.map, ok_bind, jump_noted h]
        cases hjump : m.jump i ret s₂ with
        | error e => rfl
        | ok q =>
          simp only [ok_bind, brackets, ← hstate, hnum, List.append_nil,
            List.filter_append, List.filter_cons_of_pos hhas, List.append_assoc]
          rfl

/-- A result that is returned is the state that is left behind. -/
theorem stmHandler_eq_ok {op : Op} {current : Option ℕ} {s s' : σ} {ret i : ℕ}
    (h : m.stmHandler op.ready current s = .ok (ret, i, s')) : i = ret ∧ ret ≤ m.maxState := by
  rw [stmHandler] at h
  obtain ⟨⟨j, s₁⟩, -, h⟩ := bind_eq_ok.mp h
  cases hhook : (m.states[j]?).bind op.ready with
  | none => simp [hhook] at h
  | some hook =>
    simp only [hhook] at h
    obtain ⟨⟨ret', s₂⟩, -, h⟩ := bind_eq_ok.mp h
    obtain ⟨⟨k, s₃⟩, hjump, h⟩ := bind_eq_ok.mp h
    simp only [Except.ok.injEq, Prod.mk.injEq] at h
    obtain ⟨rfl, rfl, -⟩ := h
    exact jump_eq_ok hjump

/-! ## Any events -/

/-- **A run notes its brackets**, and does otherwise what it did. -/
theorem events_noted (h : m.Numbered) (hi : m.initial ≤ m.maxState) (ops : List Op)
    {current : Option ℕ} (hcur : ∀ i, current = some i → i ≤ m.maxState) (l : List HookCall)
    (s : σ) :
    m.noted.events current (l, s) ops = (m.events current s ops).map fun r =>
      (r.1, r.2.1, l ++ (m.brackets current (ops.zip r.1)).filter m.has, r.2.2) := by
  induction ops generalizing current l s with
  | nil => simp [events, brackets, Except.map]
  | cons op ops ih =>
    rw [events, events, stmHandler_noted h hi op hcur]
    cases hev : m.stmHandler op.ready current s with
    | error e => rfl
    | ok p =>
      obtain ⟨ret, i, s'⟩ := p
      obtain ⟨rfl, hle⟩ := stmHandler_eq_ok hev
      have hnext : ∀ j, some i = some j → j ≤ m.maxState := by
        intro j hj
        rwa [← Option.some.inj hj]
      simp only [Except.map, ok_bind, ih hnext]
      cases m.events (some i) s' ops with
      | error e => rfl
      | ok q =>
        have hcons : m.brackets current ((op :: ops).zip (i :: q.1)) =
            m.brackets current [(op, i)] ++ m.brackets (some i) (ops.zip q.1) := by
          simp [brackets]
        simp only [ok_bind, hcons, List.filter_append, List.append_assoc]

/-- `jump` returns when the hooks do. -/
theorem jump_returns (h : m.Numbered) (hhooks : m.HooksReturn) {i ret : ℕ}
    (hret : ret ≤ m.maxState) (s : σ) : ∃ s', m.jump i ret s = .ok (ret, s') := by
  have hdepart : ∃ s₁, m.depart i s = .ok s₁ := by
    rw [depart]
    cases hhook : (m.states[i]?).bind StateDefinition.onDeparture with
    | none => exact ⟨s, rfl⟩
    | some hook =>
      obtain ⟨d, hd, hhook⟩ := Option.bind_eq_some_iff.mp hhook
      exact (hhooks d (List.mem_of_getElem? hd)).2 hook hhook i s
  have harrive : ∀ s₁, ∃ s', m.arrive ret s₁ = .ok (ret, s') := by
    intro s₁
    obtain ⟨d, hd, -⟩ := h.get hret
    rw [arrive, hd]
    cases hhook : d.onArrival with
    | none => exact ⟨s₁, by simp only [hhook]⟩
    | some hook =>
      obtain ⟨s', hs'⟩ := (hhooks d (List.mem_of_getElem? hd)).1 hook hhook d.state s₁
      refine ⟨s', ?_⟩
      simp only [hhook, hs']
      rfl
  rw [jump, if_neg (Nat.not_lt.mpr hret)]
  by_cases hsame : i = ret
  · rw [if_pos hsame, hsame]
    exact ⟨s, rfl⟩
  · obtain ⟨s₁, hs₁⟩ := hdepart
    rw [if_neg hsame, hs₁]
    exact harrive s₁

/-- A run that is served returns. -/
theorem events_returns (h : m.Numbered) (hhooks : m.HooksReturn) (ops : List Op)
    {current : Option ℕ} {s : σ} (hserved : m.Served current s ops) :
    ∃ r, m.events current s ops = .ok r ∧ r.1.length = ops.length := by
  induction ops generalizing current s with
  | nil => exact ⟨_, rfl, rfl⟩
  | cons op ops ih =>
    obtain ⟨i, s₁, hook, ret, s₂, hfirst, hhook, hrun, hret, hrest⟩ := hserved
    obtain ⟨s', hjump⟩ := jump_returns h hhooks (i := i) hret s₂
    obtain ⟨r, hr, hlen⟩ := ih (hrest ret s' hjump)
    refine ⟨(ret :: r.1, r.2.1, r.2.2), ?_, congrArg (· + 1) hlen⟩
    simp only [events, stmHandler, hfirst, hhook, hrun, hjump, ok_bind, hr]

theorem lastArrival_append (i : ℕ) (calls calls' : List HookCall) :
    lastArrival i (calls ++ calls') = lastArrival (lastArrival i calls) calls' :=
  List.foldl_append

/-- The brackets of an event end in the state it leads to. -/
theorem lastArrival_event (op : Op) (current : Option ℕ) (ret : ℕ) :
    lastArrival (current.getD m.initial) (m.brackets current [(op, ret)]) = ret := by
  rw [brackets, brackets, List.append_nil]
  by_cases hsame : current.getD m.initial = ret
  · rw [changeCalls, if_pos hsame]
    cases current <;> exact hsame
  · rw [changeCalls, if_neg hsame]
    cases current <;> rfl

/-- The current state is the one that was arrived at last. -/
theorem stmState_events (h : m.Numbered) (ops : List Op) {current current' : Option ℕ}
    {s s' : σ} {rets : List ℕ} (hcur : ∀ i, current = some i → i ≤ m.maxState)
    (hrun : m.events current s ops = .ok (rets, current', s')) :
    m.stmState current' =
      lastArrival (m.stmState current) (m.brackets current (ops.zip rets)) := by
  induction ops generalizing current s rets with
  | nil =>
    simp only [events, Except.ok.injEq, Prod.mk.injEq] at hrun
    obtain ⟨rfl, rfl, -⟩ := hrun
    rfl
  | cons op ops ih =>
    rw [events] at hrun
    obtain ⟨⟨ret, i, s₁⟩, hev, hrun⟩ := bind_eq_ok.mp hrun
    obtain ⟨⟨rets', current₁, s₂⟩, hrest, hrun⟩ := bind_eq_ok.mp hrun
    simp only [Except.ok.injEq, Prod.mk.injEq] at hrun
    obtain ⟨rfl, rfl, rfl⟩ := hrun
    obtain ⟨rfl, hle⟩ := stmHandler_eq_ok hev
    have hstate : ∀ c : Option ℕ, (∀ j, c = some j → j ≤ m.maxState) →
        m.stmState c = c.getD m.initial := by
      intro c hc
      cases c with
      | none => rfl
      | some j =>
        obtain ⟨d, hd, hnum⟩ := h.get (hc j rfl)
        rw [stmState, hd]
        exact hnum
    have hnext : ∀ j, some i = some j → j ≤ m.maxState := by
      intro j hj
      rwa [← Option.some.inj hj]
    have hcons : m.brackets current ((op :: ops).zip (i :: rets')) =
        m.brackets current [(op, i)] ++ m.brackets (some i) (ops.zip rets') := by
      simp [brackets]
    rw [ih hnext hrest, hcons, lastArrival_append, hstate current hcur, lastArrival_event,
      hstate (some i) hnext]
    rfl

end StateMachine

end

open StateMachine in
/-- **The engine brackets the states.**  With a table that `stm_init` accepts, and events that
are served, the hooks called are the brackets of the results as far as the table has them,
and `stm_state` is the state that was arrived at last. -/
theorem stm_brackets {σ : Type} (m : StateMachine σ) (hinit : m.stmInit = .ok none)
    (hhooks : m.HooksReturn) (s : σ) (ops : List Op) (hserved : m.Served none s ops) :
    ∃ rets current s', m.events none s ops = .ok (rets, current, s') ∧
      rets.length = ops.length ∧
      m.noted.events none ([], s) ops =
        .ok (rets, current, (m.brackets none (ops.zip rets)).filter m.has, s') ∧
      m.stmState current = lastArrival m.initial (m.brackets none (ops.zip rets)) := by
  obtain ⟨hnum, hi⟩ := numbered_of_stmInit hinit
  obtain ⟨⟨rets, current, s'⟩, hrun, hlen⟩ := events_returns hnum hhooks ops hserved
  refine ⟨rets, current, s', hrun, hlen, ?_, stmState_events hnum ops (by simp) hrun⟩
  rw [events_noted hnum hi ops (by simp), hrun]
  rfl

/-- `on_read_ready` of `stm_test.c`, over `data.i`. -/
def testReady (i : ℕ) : Except Fault (ℕ × ℕ) := if i < 2 then .ok (i + 1, i + 1) else .ok (2, i)

/-- The states of `stm_test.c`; what its hooks record is noted in any case. -/
def testState (n : ℕ) : StateDefinition ℕ where
  state := n
  onArrival := some fun _ i => .ok i
  onDeparture := some fun _ i => .ok i
  onReadReady := some testReady
  onWriteReady := some testReady

/-- The machine of `stm_test.c`. -/
def testMachine : StateMachine ℕ := ⟨0, [testState 0, testState 1, testState 2], 2⟩

open StateMachine in
/-- The three events of `stm_test.c`, the last of which stays in the last state. -/
theorem stm_brackets_test :
    ∃ rets current s', testMachine.events none 0 [.read, .write, .read] = .ok (rets, current, s') ∧
      rets.length = 3 ∧
      testMachine.noted.events none ([], 0) [.read, .write, .read] = .ok (rets, current,
        (testMachine.brackets none ([Op.read, .write, .read].zip rets)).filter testMachine.has,
        s') ∧
      testMachine.stmState current =
        lastArrival 0 (testMachine.brackets none ([Op.read, .write, .read].zip rets)) := by
  refine stm_brackets testMachine rfl ?_ 0 [.read, .write, .read] ?_
  · intro d hd
    have hstate : ∃ n, d = testState n := by
      simp only [testMachine, List.mem_cons, List.not_mem_nil, or_false] at hd
      rcases hd with rfl | rfl | rfl <;> exact ⟨_, rfl⟩
    obtain ⟨n, rfl⟩ := hstate
    constructor
    · rintro hook ⟨⟩ k s
      exact ⟨s, rfl⟩
    · rintro hook ⟨⟩ k s
      exact ⟨s, rfl⟩
  · refine ⟨0, 0, testReady, 1, 1, rfl, rfl, rfl, by decide, fun j s' hj => ?_⟩
    obtain ⟨rfl, rfl⟩ := Prod.mk.inj (Except.ok.inj hj)
    refine ⟨1, 1, testReady, 2, 2, rfl, rfl, rfl, by decide, fun j s' hj => ?_⟩
    obtain ⟨rfl, rfl⟩ := Prod.mk.inj (Except.ok.inj hj)
    exact ⟨2, 2, testReady, 2, 2, rfl, rfl, rfl, by decide, fun j s' hj => trivial⟩

end Pop3Proxy
