/-
# The two descriptors of a connection

What the selector knows about one connection is the interest of its client
descriptor and the status of its origin descriptor (`Wires`).  `Wired` reads
the wires off the program's memory, `Frame` says that the rest of the memory is
left alone, and the primitives the handlers are built from are described once
by what they do to the wires.
-/
import Pop3Proxy.Proxy
import Mathlib.Tactic.Common

namespace Pop3Proxy

/-- The status of `origin_fd`. -/
inductive OriginStatus where
  /-- `-1` -/
  | absent
  /-- an open descriptor that was never registered -/
  | leaked
  /-- registered, with this interest -/
  | armed (i : FdInterest)
  deriving DecidableEq, Repr

/-- What the selector knows about the descriptors of a connection. -/
structure Wires where
  client : FdInterest
  origin : OriginStatus
  deriving DecidableEq, Repr

/-- The item belongs to the connection `a`. -/
def Owns (a : Addr) (it : Item FdHandler Addr) : Prop := it.handler = .suscriptions ∧ it.data = a

instance (a : Addr) (it : Item FdHandler Addr) : Decidable (Owns a it) :=
  inferInstanceAs (Decidable (_ ∧ _))

/-- The table is well formed, and what is registered is open. -/
structure Sound (w : World) : Prop where
  wf : w.sel.Wf
  isOpen : ∀ fd it, w.sel.item fd = some it → w.isOpen fd = true

/-- The origin descriptor has the given status. -/
def OriginIs (w : World) (a : Addr) : OriginStatus → Prop
  | .absent => (w.heap a).originFd = -1
  | .leaked => (w.heap a).originFd ≠ -1 ∧ w.isOpen (w.heap a).originFd = true ∧
      w.sel.item (w.heap a).originFd = none
  | .armed i => (w.heap a).originFd ≠ (w.heap a).clientFd ∧
      w.sel.item (w.heap a).originFd = some ⟨(w.heap a).originFd, i, .suscriptions, a⟩

/-- The wires of the connection `a`; no other descriptor carries it. -/
structure Wired (w : World) (a : Addr) (l : Wires) : Prop where
  client : w.sel.item (w.heap a).clientFd = some ⟨(w.heap a).clientFd, l.client, .suscriptions, a⟩
  origin : OriginIs w a l.origin
  only : ∀ fd it, w.sel.item fd = some it → Owns a it →
    fd = (w.heap a).clientFd ∨ fd = (w.heap a).originFd
  references : (w.heap a).references = if l.origin matches .armed _ then 2 else 1

/-- Everything that is not of the connection `a` is as it was. -/
structure Frame (a : Addr) (w w' : World) : Prop where
  heap : ∀ b, b ≠ a → w'.heap b = w.heap b
  items : ∀ fd it, ¬ Owns a it → (w'.sel.item fd = some it ↔ w.sel.item fd = some it)
  unregistered : ∀ fd, w.isOpen fd = true → w.sel.item fd = none →
    w'.isOpen fd = true ∧ w'.sel.item fd = none
  slaveR : w'.sel.slaveR = w.sel.slaveR
  slaveW : w'.sel.slaveW = w.sel.slaveW
  jobs : w'.sel.resolutionJobs = w.sel.resolutionJobs

namespace Frame

variable {a : Addr} {w w' w'' : World}

theorem refl (a : Addr) (w : World) : Frame a w w :=
  ⟨fun _ _ => rfl, fun _ _ _ => Iff.rfl, fun _ h1 h2 => ⟨h1, h2⟩, rfl, rfl, rfl⟩

theorem trans (h : Frame a w w') (h' : Frame a w' w'') : Frame a w w'' where
  heap b hb := (h'.heap b hb).trans (h.heap b hb)
  items fd it hit := (h'.items fd it hit).trans (h.items fd it hit)
  unregistered fd h1 h2 := by
    obtain ⟨h3, h4⟩ := h.unregistered fd h1 h2
    exact h'.unregistered fd h3 h4
  slaveR := h'.slaveR.trans h.slaveR
  slaveW := h'.slaveW.trans h.slaveW
  jobs := h'.jobs.trans h.jobs

end Frame

/-- What all the handlers of `a` do that do not end it: the wires end up as `l`,
the pool is not touched, and `threads` are the resolvers started. -/
structure Moves (a : Addr) (l : Wires) (threads : List SelectorKey) (w w' : World) : Prop where
  frame : Frame a w w'
  sound : Sound w'
  wired : Wired w' a l
  clientFd : (w'.heap a).clientFd = (w.heap a).clientFd
  current : (w'.heap a).current = (w.heap a).current
  pool : w'.pool = w.pool
  allocated : w'.allocated = w.allocated
  resolvers : w'.resolvers = w.resolvers ++ threads

namespace Moves

variable {a : Addr} {l l' : Wires} {ts ts' : List SelectorKey} {w w' w'' : World}

theorem refl (hs : Sound w) (hw : Wired w a l) : Moves a l [] w w where
  frame := .refl a w
  sound := hs
  wired := hw
  clientFd := rfl
  current := rfl
  pool := rfl
  allocated := rfl
  resolvers := by rw [List.append_nil]

theorem trans (h : Moves a l ts w w') (h' : Moves a l' ts' w' w'') :
    Moves a l' (ts ++ ts') w w'' where
  frame := h.frame.trans h'.frame
  sound := h'.sound
  wired := h'.wired
  clientFd := h'.clientFd.trans h.clientFd
  current := h'.current.trans h.current
  pool := h'.pool.trans h.pool
  allocated := h'.allocated.trans h.allocated
  resolvers := by rw [h'.resolvers, h.resolvers, List.append_assoc]

/-- A step that starts no thread, after others. -/
theorem andThen (h : Moves a l ts w w') (h' : Moves a l' [] w' w'') : Moves a l' ts w w'' := by
  simpa using h.trans h'

/-- Starting a resolver thread. -/
theorem addResolver (h : Moves a l [] w w') (key : SelectorKey) :
    Moves a l [key] w { w' with resolvers := w.resolvers ++ [key] } where
  frame := ⟨h.frame.heap, h.frame.items, h.frame.unregistered, h.frame.slaveR, h.frame.slaveW,
    h.frame.jobs⟩
  sound := ⟨h.sound.wf, h.sound.isOpen⟩
  wired := by
    refine ⟨h.wired.client, ?_, h.wired.only, h.wired.references⟩
    have := h.wired.origin
    cases ho : l.origin <;> simpa [OriginIs, ho] using this
  clientFd := h.clientFd
  current := h.current
  pool := h.pool
  allocated := h.allocated
  resolvers := rfl

end Moves

/-! ## The primitives -/

@[simp] theorem World.heap_setInterest (w : World) (fd : Int) (i : FdInterest) :
    (w.setInterest fd i).2.heap = w.heap := rfl

section
variable {a : Addr} {l : Wires} {w : World}

theorem Sound.of_items {w' : World} (hs : Sound w) (hwf : w'.sel.Wf)
    (hitem : ∀ fd, (w'.sel.item fd).isSome → (w.sel.item fd).isSome)
    (hopen : ∀ fd, w.isOpen fd = true → w'.isOpen fd = true) : Sound w' where
  wf := hwf
  isOpen fd it h := by
    obtain ⟨it', h'⟩ := Option.isSome_iff_exists.mp (hitem fd (by rw [h]; rfl))
    exact hopen fd (hs.isOpen fd it' h')

/-- A change of the struct that keeps the descriptors and the count of references. -/
theorem moves_modify (hs : Sound w) (hw : Wired w a l) {f : Pop3 → Pop3}
    (h1 : (f (w.heap a)).clientFd = (w.heap a).clientFd)
    (h2 : (f (w.heap a)).originFd = (w.heap a).originFd)
    (h3 : (f (w.heap a)).references = (w.heap a).references)
    (h4 : (f (w.heap a)).current = (w.heap a).current) :
    Moves a l [] w (w.modify a f) where
  frame :=
    { heap := fun b hb => Function.update_of_ne hb _ _
      items := fun _ _ _ => Iff.rfl
      unregistered := fun _ h h' => ⟨h, h'⟩
      slaveR := rfl, slaveW := rfl, jobs := rfl }
  sound := ⟨hs.wf, hs.isOpen⟩
  wired :=
    { client := by simpa [World.modify, h1] using hw.client
      origin := by
        have := hw.origin
        cases ho : l.origin <;> simpa [OriginIs, World.modify, h1, h2, ho] using this
      only := by simpa [World.modify, h1, h2] using hw.only
      references := by simpa [World.modify, h3] using hw.references }
  clientFd := by simpa [World.modify] using h1
  current := by simpa [World.modify] using h4
  pool := rfl
  allocated := rfl
  resolvers := (List.append_nil _).symm

theorem moves_emit (hs : Sound w) (hw : Wired w a l) (o : Output) : Moves a l [] w (w.emit o) where
  frame := ⟨fun _ _ => rfl, fun _ _ _ => Iff.rfl, fun _ h h' => ⟨h, h'⟩, rfl, rfl, rfl⟩
  sound := ⟨hs.wf, hs.isOpen⟩
  wired := by
    refine ⟨hw.client, ?_, hw.only, hw.references⟩
    have := hw.origin
    cases ho : l.origin <;> simpa [OriginIs, World.emit, ho] using this
  clientFd := rfl
  current := rfl
  pool := rfl
  allocated := rfl
  resolvers := (List.append_nil _).symm

/-- Opening a descriptor that the selector does not know. -/
theorem moves_openFd (hs : Sound w) (hw : Wired w a l) (fd : Int) :
    Moves a l [] w (w.openFd fd) where
  frame :=
    { heap := fun _ _ => rfl
      items := fun _ _ _ => Iff.rfl
      unregistered := fun fd' h h' => by
        refine ⟨?_, h'⟩
        by_cases heq : fd' = fd <;> simp [World.openFd, heq, Function.update, h]
      slaveR := rfl, slaveW := rfl, jobs := rfl }
  sound := hs.of_items hs.wf (fun _ h => h) fun fd' h => by
    by_cases heq : fd' = fd <;> simp [World.openFd, heq, Function.update, h]
  wired := by
    refine ⟨hw.client, ?_, hw.only, hw.references⟩
    have := hw.origin
    cases ho : l.origin with
    | absent => simpa [OriginIs, World.openFd, ho] using this
    | armed i => simpa [OriginIs, World.openFd, ho] using this
    | leaked =>
      simp only [OriginIs, ho] at this
      refine ⟨this.1, ?_, this.2.2⟩
      by_cases heq : (w.heap a).originFd = fd <;>
        simp [World.openFd, heq, Function.update, this.2.1]
  clientFd := rfl
  current := rfl
  pool := rfl
  allocated := rfl
  resolvers := (List.append_nil _).symm

/-- The selector after an interest is set, outside the descriptors of `a`. -/
theorem frame_setInterest {fd : Int} {it : Item FdHandler Addr} (hit : w.sel.item fd = some it)
    (hown : Owns a it) (i : FdInterest) : Frame a w (w.setInterest fd i).2 where
  heap _ _ := rfl
  items fd' it' hit' := by
    simp only [World.setInterest, FdSelector.item_setInterest]
    by_cases heq : fd' = fd
    · subst heq
      rw [if_pos rfl, hit]
      constructor
      · intro h
        simp only [Option.map_some, Option.some.injEq] at h
        subst h
        exact absurd hown hit'
      · intro h
        simp only [Option.some.injEq] at h
        subst h
        exact absurd hown hit'
    · rw [if_neg heq]
  unregistered fd' h h' := by
    refine ⟨h, ?_⟩
    simp only [World.setInterest, FdSelector.item_setInterest]
    split_ifs with heq
    · rw [← heq, h', Option.map_none]
    · exact h'
  slaveR := (FdSelector.rest_setInterest w.sel fd i).1
  slaveW := (FdSelector.rest_setInterest w.sel fd i).2.1
  jobs := (FdSelector.rest_setInterest w.sel fd i).2.2

theorem sound_setInterest (hs : Sound w) (fd : Int) (i : FdInterest) :
    Sound (w.setInterest fd i).2 := by
  refine hs.of_items (FdSelector.wf_setInterest hs.wf fd i) (fun fd' h => ?_) fun _ h => h
  simp only [World.setInterest, FdSelector.item_setInterest] at h
  split_ifs at h with heq
  · rw [heq]
    simpa using h
  · exact h

theorem setInterest_success {fd : Int} {it : Item FdHandler Addr} (hit : w.sel.item fd = some it)
    (i : FdInterest) : (w.setInterest fd i).1 = .success := by
  rw [World.setInterest, FdSelector.setInterest_status, hit]
  rfl

/-- Setting the interest of the client descriptor. -/
theorem moves_client (hs : Sound w) (hw : Wired w a l) (i : FdInterest) :
    Moves a { l with client := i } [] w (w.setInterest (w.heap a).clientFd i).2 where
  frame := frame_setInterest hw.client ⟨rfl, rfl⟩ i
  sound := sound_setInterest hs _ i
  wired :=
    { client := by
        show (w.setInterest (w.heap a).clientFd i).2.sel.item (w.heap a).clientFd = _
        simp only [World.setInterest, FdSelector.item_setInterest, if_pos, hw.client,
          Option.map_some]
      origin := by
        have ho := hw.origin
        cases hl : l.origin with
        | absent => simpa [OriginIs, hl] using ho
        | leaked =>
          simp only [OriginIs, hl] at ho
          refine ⟨ho.1, ho.2.1, ?_⟩
          have hne : (w.heap a).originFd ≠ (w.heap a).clientFd := by
            intro heq
            rw [heq, hw.client] at ho
            exact absurd ho.2.2 (by simp)
          show (w.setInterest (w.heap a).clientFd i).2.sel.item (w.heap a).originFd = none
          simp only [World.setInterest, FdSelector.item_setInterest, if_neg hne, ho.2.2]
        | armed j =>
          simp only [OriginIs, hl] at ho
          refine ⟨ho.1, ?_⟩
          show (w.setInterest (w.heap a).clientFd i).2.sel.item (w.heap a).originFd = _
          simp only [World.setInterest, FdSelector.item_setInterest, if_neg ho.1, ho.2]
      only := fun fd it h hown => by
        simp only [World.setInterest, FdSelector.item_setInterest] at h
        split_ifs at h with heq
        · exact Or.inl heq
        · exact hw.only fd it h hown
      references := hw.references }
  clientFd := rfl
  current := rfl
  pool := rfl
  allocated := rfl
  resolvers := (List.append_nil _).symm

/-- Setting the interest of a registered origin descriptor. -/
theorem moves_origin (hs : Sound w) (hw : Wired w a l) {j : FdInterest} (hl : l.origin = .armed j)
    (i : FdInterest) :
    Moves a { l with origin := .armed i } [] w (w.setInterest (w.heap a).originFd i).2 := by
  have ho := hw.origin
  simp only [OriginIs, hl] at ho
  exact
  { frame := frame_setInterest ho.2 ⟨rfl, rfl⟩ i
    sound := sound_setInterest hs _ i
    wired :=
    { client := by
        show (w.setInterest (w.heap a).originFd i).2.sel.item (w.heap a).clientFd = _
        simp only [World.setInterest, FdSelector.item_setInterest, if_neg ho.1.symm, hw.client]
      origin := by
        refine ⟨ho.1, ?_⟩
        show (w.setInterest (w.heap a).originFd i).2.sel.item (w.heap a).originFd = _
        simp only [World.setInterest, FdSelector.item_setInterest, if_pos, ho.2, Option.map_some]
      only := fun fd it h hown => by
        simp only [World.setInterest, FdSelector.item_setInterest] at h
        split_ifs at h with heq
        · exact Or.inr heq
        · exact hw.only fd it h hown
      references := by simpa [hl] using hw.references }
    clientFd := rfl
    current := rfl
    pool := rfl
    allocated := rfl
    resolvers := (List.append_nil _).symm }

/-- An origin descriptor that is not registered cannot be armed. -/
theorem setInterest_unregistered (hw : Wired w a l) (hl : ∀ j, l.origin ≠ .armed j)
    (i : FdInterest) :
    w.setInterest (w.heap a).originFd i = (.iargs, w) := by
  have hnone : w.sel.item (w.heap a).originFd = none := by
    have ho := hw.origin
    cases hl' : l.origin with
    | absent =>
      simp only [OriginIs, hl'] at ho
      rw [ho]
      rfl
    | leaked =>
      simp only [OriginIs, hl'] at ho
      exact ho.2.2
    | armed j => exact absurd hl' (hl j)
  simp only [FdSelector.item] at hnone
  simp only [World.setInterest, selectorSetInterest]
  split_ifs at hnone ⊢ with hv
  · rfl
  · rw [hnone]

/-- The status of the origin after its interest is set, when there is an item to set it in. -/
def OriginStatus.set : OriginStatus → FdInterest → OriginStatus
  | armed _, i => armed i
  | o, _ => o

/-- Setting the interest of the origin descriptor, whatever its status. -/
theorem moves_setOrigin (hs : Sound w) (hw : Wired w a l) (i : FdInterest) :
    Moves a { l with origin := l.origin.set i } [] w (w.setInterest (w.heap a).originFd i).2 := by
  cases hl : l.origin with
  | armed j => simpa [OriginStatus.set, hl] using moves_origin hs hw hl i
  | absent | leaked =>
    rw [setInterest_unregistered hw (by simp [hl]) i]
    have : { l with origin := l.origin.set i } = l := by
      cases l
      simp_all [OriginStatus.set]
    rw [hl] at this
    rw [this]
    exact .refl hs hw

/-! ## Handing the turn over -/

/-- Arming the client descriptor succeeds. -/
theorem armed_client (hs : Sound w) (hw : Wired w a l) {fd : Int} (hfd : fd = (w.heap a).clientFd)
    (i : FdInterest) (next : States) :
    (w.armed fd i next).1 = next ∧ Moves a { l with client := i } [] w (w.armed fd i next).2 := by
  subst hfd
  refine ⟨?_, moves_client hs hw i⟩
  simp only [World.armed, setInterest_success hw.client, if_pos]

/-- Arming a registered origin descriptor succeeds. -/
theorem armed_origin (hs : Sound w) (hw : Wired w a l) {j : FdInterest} (hl : l.origin = .armed j)
    {fd : Int} (hfd : fd = (w.heap a).originFd) (i : FdInterest) (next : States) :
    (w.armed fd i next).1 = next ∧
      Moves a { l with origin := .armed i } [] w (w.armed fd i next).2 := by
  subst hfd
  refine ⟨?_, moves_origin hs hw hl i⟩
  have ho := hw.origin
  simp only [OriginIs, hl] at ho
  simp only [World.armed, setInterest_success ho.2, if_pos]

/-- From the origin to the client: the handlers that read from the origin end so. -/
theorem toClient_moves (hs : Sound w) (hw : Wired w a l) (next : States) :
    (w.toClient a next).1 = next ∧
      Moves a ⟨OP_WRITE, l.origin.set OP_NOOP⟩ [] w (w.toClient a next).2 := by
  have h1 := moves_setOrigin hs hw OP_NOOP
  obtain ⟨h2, h3⟩ := armed_client h1.sound h1.wired h1.clientFd.symm OP_WRITE next
  exact ⟨h2, h1.andThen h3⟩

/-- From the client to a registered origin. -/
theorem toOrigin_moves (hs : Sound w) (hw : Wired w a l) {j : FdInterest}
    (hl : l.origin = .armed j) (i : FdInterest) (next : States) :
    (w.toOrigin a i next).1 = next ∧
      Moves a ⟨OP_NOOP, .armed i⟩ [] w (w.toOrigin a i next).2 := by
  have h1 := moves_client hs hw OP_NOOP
  obtain ⟨h2, h3⟩ := armed_origin h1.sound h1.wired hl rfl i next
  exact ⟨h2, h1.andThen h3⟩

/-- From the client to an origin that is not registered: the handler returns `ERROR`. -/
theorem toOrigin_unregistered (hs : Sound w) (hw : Wired w a l) (hl : ∀ j, l.origin ≠ .armed j)
    (i : FdInterest) (next : States) :
    (w.toOrigin a i next).1 = .error ∧
      Moves a ⟨OP_NOOP, l.origin⟩ [] w (w.toOrigin a i next).2 := by
  have h1 := moves_client hs hw OP_NOOP
  have h2 : (w.setInterest (w.heap a).clientFd OP_NOOP).2.setInterest (w.heap a).originFd i = _ :=
    setInterest_unregistered h1.wired hl i
  rw [World.toOrigin, World.handOver, World.armed, h2]
  exact ⟨rfl, h1⟩

/-! ## A new origin descriptor -/

/-- The memory after `socket` has returned `s`. -/
def opened (a : Addr) (s : Int) (w : World) : World :=
  (w.openFd s).modify a fun c => { c with originFd := s }

theorem fresh_spec {fd : Option Int} {s : Int} (h : w.fresh fd = some s) :
    0 ≤ s ∧ w.isOpen s = false := by
  simp only [World.fresh, Option.filter_eq_some_iff, Bool.and_eq_true, decide_eq_true_eq,
    Bool.not_eq_true'] at h
  exact h.2

/-- What is not open is not registered. -/
theorem Sound.item_of_closed (hs : Sound w) {s : Int} (h : w.isOpen s = false) :
    w.sel.item s = none := by
  cases hit : w.sel.item s with
  | none => rfl
  | some it =>
    rw [hs.isOpen s it hit] at h
    exact absurd h (by simp)

/-- No new descriptor: `origin_fd` stays at `-1`. -/
theorem moves_noOrigin (hs : Sound w) (hw : Wired w a l) (hl : l.origin = .absent) :
    Moves a l [] w (w.modify a fun c => { c with originFd := -1 }) := by
  have ho := hw.origin
  simp only [OriginIs, hl] at ho
  exact moves_modify hs hw rfl ho.symm rfl rfl

/-- Opening a socket and closing it again leaves only the `-1`. -/
theorem closeOrigin_opened (key : SelectorKey) {s : Int} (h : w.isOpen s = false) :
    closeOrigin key s (opened key.data s w) =
      w.modify key.data fun c => { c with originFd := -1 } := by
  have hopen : Function.update (Function.update w.isOpen s true) s false = w.isOpen := by
    rw [Function.update_idem, ← h, Function.update_eq_self]
  simp [closeOrigin, opened, World.closeFd, World.openFd, World.modify, hopen]

/-- The socket is open and not registered. -/
theorem moves_opened (hs : Sound w) (hw : Wired w a l) (hl : l.origin = .absent) {s : Int}
    (hs0 : 0 ≤ s) (hclosed : w.isOpen s = false) :
    Moves a { l with origin := .leaked } [] w (opened a s w) where
  frame :=
    { heap := fun b hb => Function.update_of_ne hb _ _
      items := fun _ _ _ => Iff.rfl
      unregistered := fun fd h h' => by
        refine ⟨?_, h'⟩
        by_cases heq : fd = s <;> simp [opened, World.modify, World.openFd, heq, h]
      slaveR := rfl, slaveW := rfl, jobs := rfl }
  sound := hs.of_items hs.wf (fun _ h => h) fun fd h => by
    by_cases heq : fd = s <;> simp [opened, World.modify, World.openFd, heq, h]
  wired :=
    { client := by simpa [opened, World.modify, World.openFd] using hw.client
      origin := by
        have hne : s ≠ -1 := by omega
        simpa [OriginIs, opened, World.modify, World.openFd, hne] using hs.item_of_closed hclosed
      only := fun fd it h hown => by
        have ho := hw.origin
        simp only [OriginIs, hl] at ho
        rcases hw.only fd it h hown with rfl | rfl
        · exact Or.inl (by simp [opened, World.modify, World.openFd])
        · rw [ho] at h
          exact absurd h (by simp [FdSelector.item, invalidFd])
      references := by simpa [opened, World.modify, World.openFd, hl] using hw.references }
  clientFd := by simp [opened, World.modify, World.openFd]
  current := by simp [opened, World.modify, World.openFd]
  pool := rfl
  allocated := rfl
  resolvers := (List.append_nil _).symm

/-- The socket is open, registered and counted. -/
theorem moves_registered (hs : Sound w) (hw : Wired w a l) (hl : l.origin = .absent) {s : Int}
    (hclosed : w.isOpen s = false) (io : Io) (i : FdInterest)
    (hst : ((opened a s w).register io s i a).1 = .success) :
    Moves a { l with origin := .armed i } [] w
      (((opened a s w).register io s i a).2.modify a fun c =>
        { c with references := c.references + 1 }) := by
  -- the table differs in one place, which was free before
  have hitem : ∀ fd, ((opened a s w).register io s i a).2.sel.item fd =
      if fd = s then some ⟨s, i, .suscriptions, a⟩ else w.sel.item fd := fun fd =>
    FdSelector.item_register hs.wf.fdSize hst fd
  have hnone := hs.item_of_closed hclosed
  have hne : s ≠ (w.heap a).clientFd := by
    rintro rfl
    rw [hw.client] at hnone
    exact absurd hnone (by simp)
  have ho := hw.origin
  simp only [OriginIs, hl] at ho
  have hrest := FdSelector.rest_register io.malloc hs.wf.fdSize s FdHandler.suscriptions i a
  exact
  { frame :=
    { heap := fun b hb => by
        simp [World.modify, World.register, opened, World.openFd, Function.update_of_ne hb]
      items := fun fd it hit => by
        show ((opened a s w).register io s i a).2.sel.item fd = some it ↔ _
        rw [hitem]
        by_cases heq : fd = s
        · subst heq
          rw [if_pos rfl, hnone]
          constructor
          · rintro h
            simp only [Option.some.injEq] at h
            subst h
            exact absurd ⟨rfl, rfl⟩ hit
          · simp
        · rw [if_neg heq]
      unregistered := fun fd h h' => by
        have heq : fd ≠ s := by
          rintro rfl
          rw [hclosed] at h
          exact absurd h (by simp)
        refine ⟨by simp [World.modify, World.register, opened, World.openFd, heq, h], ?_⟩
        show ((opened a s w).register io s i a).2.sel.item fd = none
        rw [hitem, if_neg heq, h']
      slaveR := hrest.1
      slaveW := hrest.2.1
      jobs := hrest.2.2 }
    sound := by
      refine ⟨FdSelector.wf_register hs.wf _ _ _ _ _, fun fd it h => ?_⟩
      have h : ((opened a s w).register io s i a).2.sel.item fd = some it := h
      rw [hitem] at h
      by_cases heq : fd = s
      · simp [World.modify, World.register, opened, World.openFd, heq]
      · rw [if_neg heq] at h
        simp [World.modify, World.register, opened, World.openFd, heq, hs.isOpen fd it h]
    wired :=
    { client := by
        have : ((opened a s w).register io s i a).2.sel.item (w.heap a).clientFd = _ := hitem _
        rw [if_neg hne.symm, hw.client] at this
        simpa [World.modify, World.register, opened, World.openFd] using this
      origin := by
        have : ((opened a s w).register io s i a).2.sel.item s = _ := hitem _
        rw [if_pos rfl] at this
        simpa [OriginIs, World.modify, World.register, opened, World.openFd, hne] using this
      only := fun fd it h hown => by
        have h : ((opened a s w).register io s i a).2.sel.item fd = some it := h
        rw [hitem] at h
        simp only [World.modify, World.register, opened, World.openFd, Function.update_self]
        by_cases heq : fd = s
        · exact Or.inr heq
        · rw [if_neg heq] at h
          rcases hw.only fd it h hown with rfl | rfl
          · exact Or.inl rfl
          · rw [ho] at h
            exact absurd h (by simp [FdSelector.item, invalidFd])
      references := by
        have := hw.references
        simp only [hl] at this
        simpa [World.modify, World.register, opened, World.openFd] using this }
    clientFd := by simp [World.modify, World.register, opened, World.openFd]
    current := by simp [World.modify, World.register, opened, World.openFd]
    pool := rfl
    allocated := rfl
    resolvers := (List.append_nil _).symm }

end

end Pop3Proxy
