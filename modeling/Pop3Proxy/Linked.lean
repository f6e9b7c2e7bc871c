/-
# Linked connections

Between the greeting and the end of the session both descriptors of a connection
are registered, and its state alone says which of them is armed.  One event of
such a connection is the handler, the entry of the next state, and nothing else
(`Linked.goes`); a handler that fails ends the connection and sends nothing
(`Linked.fails`).
-/
import Pop3Proxy.Connection
import Pop3Proxy.Data

namespace Pop3Proxy

/-! ## The linked states -/

/-- The wires of the states between the greeting and the end of a reply, when
both descriptors are registered. -/
def States.wires : States → Option Wires
  | .greetingSread | .responseSread | .dotDataSread => some ⟨OP_NOOP, .armed OP_READ⟩
  | .greetingCwrite | .dotDataCwrite | .responseCwrite => some ⟨OP_WRITE, .armed OP_NOOP⟩
  | .commandCread => some ⟨OP_READ, .armed OP_NOOP⟩
  | .commandSwrite => some ⟨OP_NOOP, .armed OP_WRITE⟩
  | .processConnection | .resolvConnection | .establConnection | .pipeDream | .update | .error =>
    none

/-- The connection `a` is in the state `s`, and both its descriptors are registered. -/
structure Linked (a : Addr) (s : States) (l : Wires) (w : World) : Prop where
  sound : Sound w
  wired : Wired w a l
  wires : s.wires = some l
  current : (w.heap a).current = some s.num

section
variable {io : Io} {key : SelectorKey} {a : Addr} {s next : States} {l l' : Wires} {w : World}

theorem States.allowed (h : s.wires = some l) : Allowed (some s) l := by
  cases s <;> cases h
  · exact .awaiting
  · exact .greeting (.inr rfl)
  · exact .command (.inr rfl)
  · exact .forward
  · exact .reply (.inl rfl)
  · exact .reply (.inr rfl)
  · exact .relay (.inr rfl)
  · exact .relay (.inl rfl)

/-- Linked states lead to linked states, unless the greeting is lost. -/
theorem Trans.wires (ht : Trans io a w s l next l') (h : s.wires = some l) (hne : next ≠ .error)
    (hlost : s = .greetingSread → ¬ RecvLost io (w.heap a)) : next.wires = some l' := by
  cases ht with
  | attempt hs _ => rcases hs with rfl | rfl <;> cases h
  | noResolver _ | resolving _ | established | unconnected _ => cases h
  | greetingLost hl => exact absurd hl (hlost rfl)
  | failed _ _ => exact absurd rfl hne
  | greetingAgain | greetingPart | forwardPart => exact h
  | greetingRead | greetingSent | commandPart | commandRead | forwardSent | dataSent | replySent =>
    cases h
    rfl
  | replyPart _ => exact h
  | replyRead hs hn => rcases hs with rfl | rfl <;> rcases hn with rfl | rfl <;> cases h <;> rfl

theorem Linked.originIs {i : FdInterest} (h : Linked a s l w) (hl : l.origin = .armed i) :
    (w.heap a).originFd ≠ (w.heap a).clientFd ∧
      w.sel.item (w.heap a).originFd = some ⟨(w.heap a).originFd, i, .suscriptions, a⟩ := by
  have ho := h.wired.origin
  rwa [hl] at ho

/-- Both descriptors can be armed. -/
theorem Linked.items (h : Linked a s l w) :
    (w.sel.item (w.heap a).clientFd).isSome ∧ (w.sel.item (w.heap a).originFd).isSome := by
  have harmed : ∃ i, l.origin = .armed i := by
    have hwires := h.wires
    cases s <;> cases hwires <;> exact ⟨_, rfl⟩
  obtain ⟨i, hi⟩ := harmed
  rw [h.wired.client, (h.originIs hi).2]
  exact ⟨rfl, rfl⟩

/-! ## What a handler gives -/

/-- The call returns the state `next`, the struct `c` and the output `out`. -/
def Gives (a : Addr) (r : Except Fault (States × World)) (next : States) (c : Pop3)
    (out : List Output) : Prop :=
  ∃ w', r = .ok (next, w') ∧ w'.heap a = c ∧ w'.output = out

/-- Entering `next` from `s` changes the struct from `c` to `c'`, and nothing is sent. -/
def Enters (key : SelectorKey) (s next : States) (c c' : Pop3) : Prop :=
  ∀ w, w.heap key.data = c →
    ∃ w', enter key s next w = .ok w' ∧ w'.heap key.data = c' ∧ w'.output = w.output

/-- A linked connection goes on. -/
theorem Linked.goes {op : Op} {f : World → Except Fault (States × World)} {c c' : Pop3}
    {out : List Output} (h : Linked key.data s l w)
    (hd : Dispatched w key.data (some s) l key.fd op) (hh : handlerOf io key op s = some f)
    (hf : Gives key.data (f w) next c out) (hent : Enters key s next c c') (hne : next ≠ .error)
    (hlost : s = .greetingSread → ¬ RecvLost io (w.heap key.data)) :
    ∃ w' l', op.suscription io key w = .ok w' ∧ Linked key.data next l' w' ∧
      w'.heap key.data = { c' with current := some next.num } ∧ w'.output = out := by
  obtain ⟨w₁, hf, hc, hout⟩ := hf
  obtain ⟨w₂, hent, hc₂, hout₂⟩ := hent w₁ hc
  obtain ⟨l', ht, hm⟩ :=
    handler_controlled (States.allowed h.wires) hd h.sound h.wired hh next w₁ hf
  have hwires := ht.wires h.wires hne hlost
  have hdone := (moves_enter hm _ _ hent).conclude next
  have hupd : next ≠ .update := by
    rintro rfl
    cases hwires
  refine ⟨w₂.modify key.data fun c => { c with current := some next.num }, l', ?_, ?_, ?_, ?_⟩
  · rw [suscription_some op h.current, runHandler, hh]
    simp only [hf, ok_bind, hent]
    rw [conclude, if_neg (by simp [hne, hupd])]
  · exact ⟨hdone.sound, hdone.wired, hwires, hdone.current⟩
  · rw [World.heap_modify, hc₂]
  · exact hout₂.trans hout

/-! ## Finishing sends nothing -/

/-- What finishing leaves as it was. -/
structure Silent (a : Addr) (w w' : World) : Prop where
  current : (w'.heap a).current = (w.heap a).current
  output : w'.output = w.output

theorem silent_destroySuscription (a b : Addr) (w : World) :
    Silent a w (destroySuscription b w) := by
  unfold destroySuscription
  split_ifs
  · exact ⟨rfl, rfl⟩
  · exact ⟨rfl, rfl⟩
  · refine ⟨?_, rfl⟩
    by_cases hb : a = b
    · subst hb
      rw [World.heap_modify]
    · exact congrArg Pop3.current (Function.update_of_ne hb _ _)

theorem silent_finishFd {fd : Int} {w' : World} (h : finishFd fd w = .ok w') (a : Addr) :
    Silent a w w' := by
  rw [finishFd] at h
  split_ifs at h with hfd
  · simp only [Except.ok.injEq] at h
    subst h
    exact ⟨rfl, rfl⟩
  · have hclosed := FdSelector.unregister_closed handleClose w.sel fd w
    rcases hu : selectorUnregisterFd handleClose w.sel fd w with ⟨st, sel, w₁⟩
    rw [hu] at h hclosed
    cases st <;> simp only [Except.ok.injEq, reduceCtorEq] at h
    subst h
    simp only at hclosed
    cases hit : w.sel.item fd with
    | none =>
      rw [hit] at hclosed
      subst hclosed
      exact ⟨rfl, rfl⟩
    | some it =>
      rw [hit] at hclosed
      subst hclosed
      have hsilent : Silent a w (handleClose it w) := by
        unfold handleClose
        split
        · exact ⟨rfl, rfl⟩
        · exact silent_destroySuscription _ _ _
      exact ⟨hsilent.current, hsilent.output⟩

theorem silent_finishedSuscription {w' : World} (h : finishedSuscription key w = .ok w') :
    Silent key.data w w' := by
  obtain ⟨w₁, h₁, h₂⟩ := bind_eq_ok.mp h
  have hs₁ := silent_finishFd h₁ key.data
  have hs₂ := silent_finishFd h₂ key.data
  exact ⟨hs₂.current.trans hs₁.current, hs₂.output.trans hs₁.output⟩

/-- A linked connection fails: it is finished, and nothing is sent. -/
theorem Linked.fails {op : Op} {f : World → Except Fault (States × World)} {c : Pop3}
    {out : List Output} (h : Linked key.data s l w)
    (hd : Dispatched w key.data (some s) l key.fd op) (hh : handlerOf io key op s = some f)
    (hf : Gives key.data (f w) .error c out) :
    ∃ w', op.suscription io key w = .ok w' ∧
      (∀ fd it, w'.sel.item fd = some it → ¬ Owns key.data it) ∧
      (w'.heap key.data).current = some States.error.num ∧ w'.output = out := by
  obtain ⟨w₁, hf, hc, hout⟩ := hf
  have hent : enter key s .error w₁ = .ok w₁ := by
    rw [enter]
    split_ifs <;> rfl
  obtain ⟨l', ht, hm⟩ :=
    handler_controlled (States.allowed h.wires) hd h.sound h.wired hh .error w₁ hf
  have hdone := hm.conclude .error
  have hleak : l'.origin ≠ .leaked := by
    have hwires := h.wires
    intro hl'
    cases ht with
    | replyRead _ hn => rcases hn with hn | hn <;> cases hn
    | replyPart _ => cases hwires
    | failed _ hl =>
      rw [hl] at hl'
      cases s <;> cases hwires <;> cases hl'
  obtain ⟨w₃, h₃, hfin⟩ := finishedSuscription_ok hdone.sound hdone.wired hleak
  have hsilent := silent_finishedSuscription h₃
  refine ⟨w₃, ?_, hfin.gone, ?_, ?_⟩
  · rw [suscription_some op h.current, runHandler, hh]
    simp only [hf, ok_bind, hent]
    rw [conclude, if_pos (.inl rfl)]
    exact h₃
  · exact hsilent.current.trans hdone.current
  · exact hsilent.output.trans hout

end

end Pop3Proxy
