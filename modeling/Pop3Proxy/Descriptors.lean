/-
# The descriptors the proxy holds open

The descriptors are followed through the handlers: only the attempt to reach
the origin and the start of a transformation open any.  The history of a run
records the pipes of each transformation until its reply is finished.  As long
as no reply that has pipes ends, everything open is accounted for; the pipes of
a reply that ends stay open with nobody to account for them.
-/
import Pop3Proxy.Stages

namespace Pop3Proxy

/-- Which descriptors are open, registered and recorded is as it was. -/
structure SameFds (w w' : World) : Prop where
  isOpen : w'.isOpen = w.isOpen
  item : ∀ fd, (w'.sel.item fd).isSome = (w.sel.item fd).isSome
  clientFd : ∀ a, (w'.heap a).clientFd = (w.heap a).clientFd
  originFd : ∀ a, (w'.heap a).originFd = (w.heap a).originFd

namespace SameFds

variable {w w' w'' : World}

theorem refl (w : World) : SameFds w w := ⟨rfl, fun _ => rfl, fun _ => rfl, fun _ => rfl⟩

theorem trans (h : SameFds w w') (h' : SameFds w' w'') : SameFds w w'' where
  isOpen := h'.isOpen.trans h.isOpen
  item fd := (h'.item fd).trans (h.item fd)
  clientFd a := (h'.clientFd a).trans (h.clientFd a)
  originFd a := (h'.originFd a).trans (h.originFd a)

theorem modify (w : World) (a : Addr) {f : Pop3 → Pop3}
    (h : ∀ c, (f c).clientFd = c.clientFd ∧ (f c).originFd = c.originFd) :
    SameFds w (w.modify a f) where
  isOpen := rfl
  item _ := rfl
  clientFd b := by
    by_cases hb : b = a
    · subst hb
      simp [World.modify, h]
    · simp [World.modify, Function.update_of_ne hb]
  originFd b := by
    by_cases hb : b = a
    · subst hb
      simp [World.modify, h]
    · simp [World.modify, Function.update_of_ne hb]

theorem emit (w : World) (o : Output) : SameFds w (w.emit o) :=
  ⟨rfl, fun _ => rfl, fun _ => rfl, fun _ => rfl⟩

theorem setInterest (w : World) (fd : Int) (i : FdInterest) : SameFds w (w.setInterest fd i).2 where
  isOpen := rfl
  item fd' := by
    simp only [World.setInterest, FdSelector.item_setInterest]
    split_ifs with h
    · rw [h, Option.isSome_map]
    · rfl
  clientFd _ := rfl
  originFd _ := rfl

theorem armed (w : World) (fd : Int) (i : FdInterest) (next : States) :
    SameFds w (w.armed fd i next).2 := setInterest w fd i

theorem handOver (w : World) (off on : Int) (i : FdInterest) (next : States) :
    SameFds w (w.handOver off on i next).2 :=
  (setInterest w off OP_NOOP).trans (armed _ on i next)

theorem toClient (w : World) (a : Addr) (next : States) : SameFds w (w.toClient a next).2 :=
  handOver w _ _ OP_WRITE next

theorem toOrigin (w : World) (a : Addr) (i : FdInterest) (next : States) :
    SameFds w (w.toOrigin a i next).2 := handOver w _ _ i next

end SameFds

/-! ## What the handlers do to the descriptors -/

/-- The handler opens and closes nothing. -/
def KeepsFds (w : World) (r : Except Fault (States × World)) : Prop :=
  ∀ next w', r = .ok (next, w') → SameFds w w'

section
variable {io : Io} {key : SelectorKey} {w w' : World} {a : Addr}

theorem keepsFds_ok {r : States × World} (h : SameFds w r.2) : KeepsFds w (.ok r) := by
  intro next w' heq
  simp only [Except.ok.injEq] at heq
  subst heq
  exact h

theorem keepsFds_next {next : States} (h : SameFds w w') : KeepsFds w (.ok (next, w')) :=
  keepsFds_ok h

theorem keepsFds_bind {α : Type} {x : Except Fault α} {f : α → Except Fault (States × World)}
    (h : ∀ v, x = .ok v → KeepsFds w (f v)) : KeepsFds w (x >>= f) := by
  intro next w' heq
  obtain ⟨v, hv, hf⟩ := bind_eq_ok.mp heq
  exact h v hv next w' hf

theorem feedFilter_sameFds (h : feedFilter a w = .ok w') : SameFds w w' := by
  obtain ⟨bytes, -, h⟩ := bind_eq_ok.mp h
  simp only [Except.ok.injEq] at h
  subst h
  exact .emit w _

theorem readFilter_sameFds (h : readFilter io a w = .ok w') : SameFds w w' := by
  obtain ⟨count, -, h⟩ := bind_eq_ok.mp h
  obtain ⟨tb, -, h⟩ := bind_eq_ok.mp h
  simp only [Except.ok.injEq] at h
  subst h
  exact .modify w a fun _ => ⟨rfl, rfl⟩

theorem continueFilter_sameFds (h : continueFilter io a w = .ok w') : SameFds w w' := by
  obtain ⟨w₁, h₁, h⟩ := bind_eq_ok.mp h
  have hmod :
    SameFds w₁ (w₁.modify a fun c => { c with transBuffer := bufferReset c.transBuffer }) :=
    .modify w₁ a fun _ => ⟨rfl, rfl⟩
  exact ((feedFilter_sameFds h₁).trans hmod).trans (readFilter_sameFds h)

theorem establConnection_keepsFds : KeepsFds w (establConnection key w) :=
  keepsFds_bind fun _ _ => keepsFds_ok ((SameFds.setInterest w _ _).trans (.setInterest _ _ _))

theorem greetingSread_keepsFds : KeepsFds w (greetingSread io key w) := by
  unfold greetingSread
  refine keepsFds_bind fun p _ => keepsFds_bind fun count _ => ?_
  split
  · refine keepsFds_bind fun rb _ => ?_
    have hmod :
      ∀ o, SameFds w (w.modify key.data fun c => { c with readBuffer := rb, origin := o }) :=
      fun o => .modify w key.data fun _ => ⟨rfl, rfl⟩
    simp only
    split_ifs
    · exact keepsFds_ok ((hmod _).trans (.toClient _ _ _))
    · exact keepsFds_ok ((hmod _).trans (.setInterest _ _ _))
  · split_ifs <;> exact keepsFds_ok (.refl w)

theorem greetingCwrite_keepsFds : KeepsFds w (greetingCwrite io key w) := by
  unfold greetingCwrite
  refine keepsFds_bind fun p _ => keepsFds_bind fun bytes _ => ?_
  split
  · rename_i sent _
    refine keepsFds_bind fun b _ => ?_
    have hmod : SameFds w ((w.emit (.sent key.fd sent)).modify key.data
        fun c => { c with writeBuffer := b }) :=
      (SameFds.emit w _).trans (.modify _ _ fun _ => ⟨rfl, rfl⟩)
    simp only
    split_ifs
    · exact keepsFds_ok hmod
    · exact keepsFds_ok (hmod.trans (.armed _ _ _ _))
  · exact keepsFds_ok (.refl w)

theorem commandCread_keepsFds : KeepsFds w (commandCread io key w) := by
  unfold commandCread
  refine keepsFds_bind fun count _ => ?_
  split
  · refine keepsFds_bind fun rb _ => keepsFds_bind fun rb' _ => ?_
    simp only
    split
    · refine keepsFds_ok (.trans (.trans ?_ (.modify _ key.data fun c => ?_)) (.toOrigin _ _ _ _))
      · exact .modify w key.data fun _ => ⟨rfl, rfl⟩
      · split_ifs <;> exact ⟨rfl, rfl⟩
    · refine keepsFds_ok (.trans ?_ (.armed _ _ _ _))
      exact .modify w key.data fun _ => ⟨rfl, rfl⟩
    · refine keepsFds_next ?_
      exact .modify w key.data fun _ => ⟨rfl, rfl⟩
  · exact keepsFds_ok (.refl w)

theorem commandSwrite_keepsFds : KeepsFds w (commandSwrite io key w) := by
  unfold commandSwrite
  refine keepsFds_bind fun bytes _ => ?_
  split
  · rename_i sent _
    have hmod : ∀ rb, SameFds w ((w.emit (.sent key.fd sent)).modify key.data
        fun c => { c with readBuffer := rb }) := fun rb =>
      (SameFds.emit w _).trans (.modify _ _ fun _ => ⟨rfl, rfl⟩)
    simp only
    split_ifs
    · exact keepsFds_ok (hmod _)
    · exact keepsFds_ok ((hmod _).trans (.armed _ _ _ _))
  · exact keepsFds_ok (.refl w)

theorem pipeDream_keepsFds : KeepsFds w (pipeDream key w) := by
  unfold pipeDream
  refine keepsFds_bind fun count _ => ?_
  split_ifs
  · refine keepsFds_bind fun rb _ => keepsFds_bind fun rb' _ => ?_
    simp only
    split
    · refine keepsFds_ok (.trans ?_ (.toOrigin _ _ _ _))
      exact .modify w key.data fun _ => ⟨rfl, rfl⟩
    · refine keepsFds_ok (.trans ?_ (.armed _ _ _ _))
      exact .modify w key.data fun _ => ⟨rfl, rfl⟩
    · refine keepsFds_next ?_
      exact .modify w key.data fun _ => ⟨rfl, rfl⟩
  · exact keepsFds_ok (.handOver _ _ _ _ _)

theorem dotDataSread_keepsFds : KeepsFds w (dotDataSread io key w) := by
  unfold dotDataSread
  refine keepsFds_bind fun _ _ => keepsFds_bind fun count _ => ?_
  split
  · refine keepsFds_bind fun wb _ => keepsFds_bind fun w₁ hw₁ => ?_
    have hmod : SameFds w (w.modify key.data fun c => { c with writeBuffer := wb }) :=
      .modify w key.data fun _ => ⟨rfl, rfl⟩
    have hw : SameFds w w₁ := by
      split_ifs at hw₁
      · exact hmod.trans (continueFilter_sameFds hw₁)
      · simp only [Except.ok.injEq] at hw₁
        subst hw₁
        exact hmod
    exact keepsFds_ok (hw.trans (.toClient _ _ _))
  · exact keepsFds_ok (.refl w)

theorem relay_keepsFds {stay : States} {drained : World → States × World}
    (h : ∀ w, SameFds w (drained w).2) : KeepsFds w (relay stay drained io key w) := by
  unfold relay
  refine keepsFds_bind fun pm _ => keepsFds_bind fun bytes _ => ?_
  split
  · rename_i sent _
    refine keepsFds_bind fun b _ => ?_
    have hmod : ∀ o, SameFds w ((w.emit (.sent key.fd sent)).modify key.data fun c =>
        if (w.heap key.data).transform = true then { c with transBuffer := b, origin := o }
        else { c with writeBuffer := b, origin := o }) := fun o =>
      (SameFds.emit w _).trans (.modify _ _ fun c => by split_ifs <;> exact ⟨rfl, rfl⟩)
    simp only
    split_ifs
    · exact keepsFds_ok (hmod _)
    · exact keepsFds_ok ((hmod _).trans (h _))
  · exact keepsFds_ok (.refl w)

/-- **The other handlers** keep the descriptors. -/
theorem handler_keepsFds {op : Op} {s : States} {h : World → Except Fault (States × World)}
    (hh : handlerOf io key op s = some h) (hs : ¬ s.Attempts) (hs' : s ≠ .responseSread) :
    KeepsFds w (h w) := by
  cases s with
  | processConnection => exact absurd (.inl rfl) hs
  | resolvConnection => exact absurd (.inr rfl) hs
  | responseSread => exact absurd rfl hs'
  | establConnection => cases op <;> cases hh; exact establConnection_keepsFds
  | greetingSread => cases op <;> cases hh; exact greetingSread_keepsFds
  | greetingCwrite => cases op <;> cases hh; exact greetingCwrite_keepsFds
  | commandCread => cases op <;> cases hh; exact commandCread_keepsFds
  | commandSwrite => cases op <;> cases hh; exact commandSwrite_keepsFds
  | dotDataSread => cases op <;> cases hh; exact dotDataSread_keepsFds
  | dotDataCwrite =>
    cases op <;> cases hh
    exact relay_keepsFds fun w => .toOrigin w _ _ _
  | responseCwrite =>
    cases op <;> cases hh
    exact relay_keepsFds fun w => .armed w _ _ _
  | pipeDream => cases op <;> cases hh; exact pipeDream_keepsFds
  | update | error => cases op <;> cases hh

/-- Entering a state keeps the descriptors. -/
theorem enter_sameFds (s next : States) (h : enter key s next w = .ok w') : SameFds w w' := by
  have hmod : ∀ {f : Pop3 → Pop3}, Except.ok (ε := Fault) (w.modify key.data f) = .ok w' →
      (∀ c, (f c).clientFd = c.clientFd ∧ (f c).originFd = c.originFd) → SameFds w w' := by
    intro f heq hf
    simp only [Except.ok.injEq] at heq
    subst heq
    exact .modify w key.data hf
  have hid : Except.ok (ε := Fault) w = .ok w' → SameFds w w' := by
    intro heq
    simp only [Except.ok.injEq] at heq
    subst heq
    exact .refl w
  rw [enter] at h
  split_ifs at h
  · exact hid h
  · cases next with
    | processConnection => exact hmod h fun _ => ⟨rfl, rfl⟩
    | establConnection =>
      obtain ⟨_, -, h⟩ := bind_eq_ok.mp h
      exact hid h
    | greetingSread =>
      obtain ⟨_, -, h⟩ := bind_eq_ok.mp h
      exact hmod h fun _ => ⟨rfl, rfl⟩
    | commandCread => exact hmod h fun _ => ⟨rfl, rfl⟩
    | responseSread => exact hmod h fun _ => ⟨rfl, rfl⟩
    | dotDataSread =>
      obtain ⟨_, -, h⟩ := bind_eq_ok.mp h
      exact hmod h fun _ => ⟨rfl, rfl⟩
    | pipeDream => exact hmod h fun _ => ⟨rfl, rfl⟩
    | resolvConnection | greetingCwrite | commandSwrite | dotDataCwrite | responseCwrite | update
      | error => exact hid h

/-! ## What is opened -/

/-- The ends of the pipes the system offers. -/
def pipeEnds (io : Io) : List Int :=
  (io.senderPipe.toList ++ io.receiverPipe.toList).flatMap fun p => [p.1, p.2]

/-- The ends of pipes that were opened between two states. -/
def newPipes (io : Io) (w w' : World) : List Int :=
  (pipeEnds io).filter fun fd => !w.isOpen fd && w'.isOpen fd

/-- Nothing is closed, and nothing but pipes is opened. -/
structure OpensPipes (io : Io) (w w' : World) : Prop where
  kept : ∀ fd, w.isOpen fd = true → w'.isOpen fd = true
  new : ∀ fd, w.isOpen fd = false → w'.isOpen fd = true → fd ∈ pipeEnds io
  item : ∀ fd, (w'.sel.item fd).isSome = (w.sel.item fd).isSome
  clientFd : ∀ a, (w'.heap a).clientFd = (w.heap a).clientFd
  originFd : ∀ a, (w'.heap a).originFd = (w.heap a).originFd

/-- At most the descriptor of the origin is opened. -/
structure OpensOrigin (a : Addr) (w w' : World) : Prop where
  clientFd : ∀ b, (w'.heap b).clientFd = (w.heap b).clientFd
  originFd : ∀ b, b ≠ a → (w'.heap b).originFd = (w.heap b).originFd
  isOpen : (w'.heap a).originFd = -1 ∧ w'.isOpen = w.isOpen ∨
    0 ≤ (w'.heap a).originFd ∧ w.isOpen (w'.heap a).originFd = false ∧
      w'.isOpen = Function.update w.isOpen (w'.heap a).originFd true

theorem SameFds.opensPipes (h : SameFds w w') (io : Io) : OpensPipes io w w' where
  kept fd hopen := by rw [h.isOpen, hopen]
  new fd hclosed hopen := by
    rw [h.isOpen, hclosed] at hopen
    exact absurd hopen (by simp)
  item := h.item
  clientFd := h.clientFd
  originFd := h.originFd

theorem OpensPipes.before {w₀ : World} (h : OpensPipes io w w') (h₀ : SameFds w₀ w) :
    OpensPipes io w₀ w' where
  kept fd := by
    rw [← h₀.isOpen]
    exact h.kept fd
  new fd := by
    rw [← h₀.isOpen]
    exact h.new fd
  item fd := (h.item fd).trans (h₀.item fd)
  clientFd a := (h.clientFd a).trans (h₀.clientFd a)
  originFd a := (h.originFd a).trans (h₀.originFd a)

theorem OpensPipes.after {w'' : World} (h : OpensPipes io w w') (h' : SameFds w' w'') :
    OpensPipes io w w'' where
  kept fd := by
    rw [h'.isOpen]
    exact h.kept fd
  new fd := by
    rw [h'.isOpen]
    exact h.new fd
  item fd := (h'.item fd).trans (h.item fd)
  clientFd a := (h'.clientFd a).trans (h.clientFd a)
  originFd a := (h'.originFd a).trans (h.originFd a)

theorem OpensOrigin.before {w₀ : World} (h : OpensOrigin a w w') (h₀ : SameFds w₀ w) :
    OpensOrigin a w₀ w' where
  clientFd b := (h.clientFd b).trans (h₀.clientFd b)
  originFd b hb := (h.originFd b hb).trans (h₀.originFd b)
  isOpen := by
    rw [← h₀.isOpen]
    exact h.isOpen

theorem OpensOrigin.after {w'' : World} (h : OpensOrigin a w w') (h' : SameFds w' w'') :
    OpensOrigin a w w'' where
  clientFd b := (h'.clientFd b).trans (h.clientFd b)
  originFd b hb := (h'.originFd b).trans (h.originFd b hb)
  isOpen := by
    rw [h'.originFd, h'.isOpen]
    exact h.isOpen

theorem mem_newPipes (h : OpensPipes io w w') {fd : Int} :
    fd ∈ newPipes io w w' ↔ w.isOpen fd = false ∧ w'.isOpen fd = true := by
  rw [newPipes, List.mem_filter, Bool.and_eq_true, Bool.not_eq_true']
  exact ⟨fun hfd => hfd.2, fun hfd => ⟨h.new fd hfd.1 hfd.2, hfd⟩⟩

/-- Opening a pipe. -/
theorem opensPipes_pair {p : Int × Int} (hp : p.1 ∈ pipeEnds io ∧ p.2 ∈ pipeEnds io)
    {f : Pop3 → Pop3} (hf : ∀ c, (f c).clientFd = c.clientFd ∧ (f c).originFd = c.originFd)
    (h : OpensPipes io w w') : OpensPipes io w (((w'.openFd p.1).openFd p.2).modify a f) := by
  suffices hopens : OpensPipes io w ((w'.openFd p.1).openFd p.2) from
    hopens.after (.modify _ a hf)
  refine ⟨fun fd hopen => ?_, fun fd hclosed hopen => ?_, h.item, h.clientFd, h.originFd⟩
  · show Function.update (Function.update w'.isOpen p.1 true) p.2 true fd = true
    by_cases h2 : fd = p.2
    · rw [h2, Function.update_self]
    · by_cases h1 : fd = p.1
      · rw [Function.update_of_ne h2, h1, Function.update_self]
      · rw [Function.update_of_ne h2, Function.update_of_ne h1, h.kept fd hopen]
  · replace hopen : Function.update (Function.update w'.isOpen p.1 true) p.2 true fd = true := hopen
    by_cases h2 : fd = p.2
    · exact h2 ▸ hp.2
    · by_cases h1 : fd = p.1
      · exact h1 ▸ hp.1
      · rw [Function.update_of_ne h2, Function.update_of_ne h1] at hopen
        exact h.new fd hclosed hopen

theorem mem_pipeEnds {p : Int × Int} (h : io.senderPipe = some p ∨ io.receiverPipe = some p) :
    p.1 ∈ pipeEnds io ∧ p.2 ∈ pipeEnds io := by
  rw [pipeEnds]
  rcases h with h | h <;> simp [h]

/-- **`create_transformation`** opens up to two pipes. -/
theorem createTransformation_opensPipes (io : Io) (a : Addr) (w : World) :
    OpensPipes io w (createTransformation io a w) := by
  unfold createTransformation
  have hrefl := (SameFds.refl w).opensPipes io
  cases hp : w.freshPair io.senderPipe with
  | none => exact hrefl
  | some p =>
    have hs := (Option.filter_eq_some_iff.mp hp).1
    have h₁ := opensPipes_pair (a := a) (mem_pipeEnds (.inl hs))
      (f := fun c => { c with senderPipe := p }) (fun _ => ⟨rfl, rfl⟩) hrefl
    simp only
    split
    · exact h₁
    · rename_i q hq
      exact opensPipes_pair (mem_pipeEnds (.inr (Option.filter_eq_some_iff.mp hq).1))
        (fun _ => ⟨rfl, rfl⟩) h₁

theorem startFilter_opensPipes (h : startFilter io a w = .ok w') : OpensPipes io w w' := by
  obtain ⟨w₁, h₁, h⟩ := bind_eq_ok.mp h
  exact ((createTransformation_opensPipes io a w).after (feedFilter_sameFds h₁)).after
    (readFilter_sameFds h)

theorem toClient_fst (hreg : (w.sel.item (w.heap a).clientFd).isSome) (next : States) :
    (w.toClient a next).1 = next := by
  have hst : ((w.setInterest (w.heap a).originFd OP_NOOP).2.setInterest (w.heap a).clientFd
      OP_WRITE).1 = .success := by
    rw [World.setInterest, FdSelector.setInterest_status]
    rw [(SameFds.setInterest w _ OP_NOOP).item]
    exact hreg
  simp only [World.toClient, World.handOver, World.armed, hst, if_true]

/-- Where a reply goes after it was read. -/
def States.Replies (s : States) : Prop := s = .responseCwrite ∨ s = .dotDataCwrite

/-- **`response_sread`** opens the pipes of a transformation, if it opens anything. -/
theorem responseSread_fds (hreg : (w.sel.item (w.heap key.data).clientFd).isSome)
    {next : States} (h : responseSread io key w = .ok (next, w')) :
    SameFds w w' ∨ next.Replies ∧ OpensPipes io w w' := by
  unfold responseSread at h
  obtain ⟨⟨p, m⟩, -, h⟩ := bind_eq_ok.mp h
  obtain ⟨count, -, h⟩ := bind_eq_ok.mp h
  split at h
  · rename_i b bs _
    obtain ⟨wb, -, h⟩ := bind_eq_ok.mp h
    simp only at h
    have hmod : ∀ o, SameFds w (w.modify key.data fun c =>
        { c with writeBuffer := wb, origin := o }) :=
          fun o => .modify w key.data fun _ => ⟨rfl, rfl⟩
    -- only a reply of many lines can start a filter
    have hmulti : ∀ q o, responseMultiline io key (b :: bs) q m (w.modify key.data fun c =>
        { c with writeBuffer := wb, origin := o }) = .ok (next, w') →
        SameFds w w' ∨ next.Replies ∧ OpensPipes io w w' := by
      intro q o h
      obtain ⟨w₁, hw₁, h⟩ := bind_eq_ok.mp h
      right
      have hopens : OpensPipes io w w₁ := by
        have hfirst := (hmod o).trans (.modify _ key.data (f := fun c =>
          { c with
            origin := .response q (pop3MultilineResponseChecker (b :: bs) m).state
            transform := isTransformed ((w.modify key.data fun c =>
              { c with writeBuffer := wb, origin := o }).heap key.data).currentCommand.kwrd })
          fun _ => ⟨rfl, rfl⟩)
        split_ifs at hw₁
        · exact (startFilter_opensPipes hw₁).before hfirst
        · simp only [Except.ok.injEq] at hw₁
          subst hw₁
          exact hfirst.opensPipes io
      simp only [Except.ok.injEq] at h
      have hfst := toClient_fst (w := w₁) (a := key.data)
        (by rw [hopens.item, hopens.clientFd]; exact hreg)
        (if checkerResult (pop3MultilineResponseChecker (b :: bs) m) = .finishedConsuming then
          .responseCwrite else .dotDataCwrite)
      rw [h] at hfst
      refine ⟨?_, ?_⟩
      · simp only at hfst
        rw [hfst]
        split_ifs
        · exact .inl rfl
        · exact .inr rfl
      · have hlast := SameFds.toClient w₁ key.data
          (if checkerResult (pop3MultilineResponseChecker (b :: bs) m) = .finishedConsuming then
            .responseCwrite else .dotDataCwrite)
        rw [h] at hlast
        exact hopens.after hlast
    split_ifs at h
    · split at h
      · exact hmulti _ _ h
      · exact hmulti _ _ h
      · left
        exact keepsFds_ok ((hmod _).trans (.toClient _ _ _)) next w' h
    · exact .inl (keepsFds_ok (hmod _) next w' h)
  · exact .inl (keepsFds_ok (.refl w) next w' h)

/-- **`attempt_connection`** opens the descriptor of the origin, if it keeps it. -/
theorem attemptConnection_fds {next : States} (h : attemptConnection io key w = .ok (next, w')) :
    next = .establConnection ∧ OpensOrigin key.data w w' := by
  have hret : ∀ {w₁ : World}, OpensOrigin key.data w w₁ →
      Except.ok (ε := Fault) (States.establConnection, w₁) = .ok (next, w') →
      next = .establConnection ∧ OpensOrigin key.data w w' := by
    intro w₁ ho heq
    simp only [Except.ok.injEq, Prod.mk.injEq] at heq
    obtain ⟨rfl, rfl⟩ := heq
    exact ⟨rfl, ho⟩
  unfold attemptConnection at h
  cases hf : w.fresh io.socket with
  | none =>
    rw [hf] at h
    refine hret ?_ h
    refine ⟨fun b => ?_, fun b hb => ?_, .inl ⟨?_, rfl⟩⟩
    · by_cases hb : b = key.data
      · simp [World.modify, hb]
      · simp [World.modify, Function.update_of_ne hb]
    · simp [World.modify, Function.update_of_ne hb]
    · simp [World.modify]
  | some s =>
    rw [hf] at h
    simp only at h
    obtain ⟨hs0, hclosed⟩ := fresh_spec hf
    have hopened : OpensOrigin key.data w (opened key.data s w) := by
      refine ⟨fun b => ?_, fun b hb => ?_, .inr ?_⟩
      · by_cases hb : b = key.data
        · simp [opened, World.modify, hb]
        · simp [opened, World.modify, Function.update_of_ne hb]
      · simp [opened, World.modify, Function.update_of_ne hb]
      · simp [opened, World.modify, World.openFd, hs0, hclosed]
    -- the error exit closes what was opened
    have herror : ∀ w₁ : World, w₁.isOpen = (opened key.data s w).isOpen →
        w₁.heap = (opened key.data s w).heap → OpensOrigin key.data w (closeOrigin key s w₁) := by
      intro w₁ hopen hheap
      have hfds : ∀ b, b ≠ key.data → (closeOrigin key s w₁).heap b = w.heap b := fun b hb => by
        show Function.update w₁.heap key.data _ b = w.heap b
        rw [Function.update_of_ne hb, hheap]
        exact Function.update_of_ne hb _ _
      refine ⟨fun b => ?_, fun b hb => by rw [hfds b hb], .inl ⟨?_, ?_⟩⟩
      · by_cases hb : b = key.data
        · subst hb
          rw [← hopened.clientFd, ← hheap]
          simp [closeOrigin, World.modify]
        · rw [hfds b hb]
      · simp [closeOrigin, World.modify]
      · show Function.update w₁.isOpen s false = w.isOpen
        rw [hopen]
        show Function.update (Function.update w.isOpen s true) s false = w.isOpen
        rw [Function.update_idem, ← hclosed, Function.update_eq_self]
    have hkept : ∀ w₁ : World, w₁.isOpen = (opened key.data s w).isOpen →
        w₁.heap = (opened key.data s w).heap → OpensOrigin key.data w w₁ := by
      intro w₁ hopen hheap
      refine ⟨fun b => ?_, fun b hb => ?_, ?_⟩
      · rw [hheap]
        exact hopened.clientFd b
      · rw [hheap]
        exact hopened.originFd b hb
      · rw [hheap, hopen]
        exact hopened.isOpen
    split_ifs at h
    · exact hret hopened h
    · exact hret (herror _ rfl rfl) h
    · refine hret ?_ h
      exact herror _ rfl rfl
    · refine hret ?_ h
      exact herror _ rfl rfl
    · refine hret ?_ h
      have hreg := hkept (((opened key.data s w).setInterest key.fd OP_NOOP).2.register io s
        OP_WRITE key.data).2 rfl rfl
      exact hreg.after (.modify _ key.data fun _ => ⟨rfl, rfl⟩)

/-- **A handler that attempts** to reach the origin. -/
theorem attempts_fds {op : Op} {s : States} {f : World → Except Fault (States × World)}
    (hh : handlerOf io key op s = some f) (hs : s.Attempts) {next : States}
    (h : f w = .ok (next, w')) :
    SameFds w w' ∧ ¬ next.Replies ∧ next ≠ .error ∨
      next = .establConnection ∧ OpensOrigin key.data w w' := by
  rcases hs with rfl | rfl
  · cases op <;> cases hh
    unfold processConnection at h
    obtain ⟨server, -, h⟩ := bind_eq_ok.mp h
    have hmod : ∀ d, SameFds w (w.modify key.data fun c => { c with originDomain := d }) :=
      fun d => .modify w key.data fun _ => ⟨rfl, rfl⟩
    have hattempt : ∀ d, attemptConnection io key
        (w.modify key.data fun c => { c with originDomain := d }) = .ok (next, w') →
        next = .establConnection ∧ OpensOrigin key.data w w' := by
      intro d h
      obtain ⟨hnext, ho⟩ := attemptConnection_fds h
      exact ⟨hnext, ho.before (hmod d)⟩
    cases server with
    | ipv4 => exact .inr (hattempt _ h)
    | ipv6 => exact .inr (hattempt _ h)
    | domain =>
      left
      simp only at h
      split_ifs at h
      all_goals
        simp only [Except.ok.injEq, Prod.mk.injEq] at h
        obtain ⟨rfl, rfl⟩ := h
        refine ⟨?_, by simp [States.Replies], by simp⟩
      · exact .setInterest _ _ _
      · have hthread : SameFds w { w with resolvers := w.resolvers ++ [key] } :=
          ⟨rfl, fun _ => rfl, fun _ => rfl, fun _ => rfl⟩
        exact hthread.trans (.setInterest _ _ _)
      · exact .setInterest _ _ _
  · cases op <;> cases hh
    unfold resolvConnection at h
    obtain ⟨server, -, h⟩ := bind_eq_ok.mp h
    obtain ⟨hnext, ho⟩ := attemptConnection_fds h
    refine .inr ⟨hnext, ho.before ?_⟩
    cases (w.heap key.data).originResolution with
    | none => exact .refl w
    | some family => exact .modify w key.data fun _ => ⟨rfl, rfl⟩

/-! ## One event of a connection -/

/-- A socket of the connection `a`. -/
def SocketOf (w : World) (a : Addr) (fd : Int) : Prop :=
  fd = (w.heap a).clientFd ∨ (fd = (w.heap a).originFd ∧ fd ≠ -1)

theorem SameFds.socketOf (h : SameFds w w') (b : Addr) (fd : Int) :
    SocketOf w' b fd ↔ SocketOf w b fd := by
  simp only [SocketOf, h.clientFd, h.originFd]

/-- `finished_suscription` closes one descriptor after the other. -/
theorem finishFd_isOpen {fd : Int} (h : finishFd fd w = .ok w') (fd' : Int) :
    w'.isOpen fd' = true ↔ w.isOpen fd' = true ∧ ¬ (fd' = fd ∧ fd' ≠ -1) := by
  unfold finishFd at h
  split_ifs at h with hneg
  · simp only [Except.ok.injEq] at h
    subst h
    refine (and_iff_left ?_).symm
    rintro ⟨rfl, hne⟩
    exact hne hneg
  · have hclosed := FdSelector.unregister_closed handleClose w.sel fd w
    have hopen : (selectorUnregisterFd handleClose w.sel fd w).2.2.isOpen = w.isOpen := by
      rw [hclosed]
      cases w.sel.item fd with
      | none => rfl
      | some it =>
        simp only [handleClose]
        cases it.handler with
        | passive => rfl
        | suscriptions => exact (rest_destroySuscription it.data w).2.1
    rcases hu : selectorUnregisterFd handleClose w.sel fd w with ⟨st, sel, w₁⟩
    rw [hu] at h hopen
    cases st with
    | success =>
      simp only [Except.ok.injEq] at h
      subst h
      show Function.update w₁.isOpen fd false fd' = true ↔ _
      simp only at hopen
      rw [hopen]
      by_cases heq : fd' = fd
      · rw [heq, Function.update_self]
        simp [hneg]
      · rw [Function.update_of_ne heq]
        simp [heq]
    | enomem | maxfd | iargs | fdinuse | io => simp at h

theorem finishedSuscription_isOpen (hclient : (w.heap key.data).clientFd ≠ -1)
    (h : finishedSuscription key w = .ok w') (fd : Int) :
    w'.isOpen fd = true ↔ w.isOpen fd = true ∧ ¬ SocketOf w key.data fd := by
  obtain ⟨w₁, h₁, h⟩ := bind_eq_ok.mp h
  rw [finishFd_isOpen h, finishFd_isOpen h₁, SocketOf, and_assoc]
  refine and_congr_right fun _ => ?_
  constructor
  · rintro ⟨hc, ho⟩ (rfl | hsock)
    · exact hc ⟨rfl, hclient⟩
    · exact ho hsock
  · intro hnot
    exact ⟨fun hc => hnot (.inl hc.1), fun ho => hnot (.inr ho)⟩

end

end Pop3Proxy
