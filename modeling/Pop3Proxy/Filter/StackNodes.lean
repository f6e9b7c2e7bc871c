/-
# The stack in memory

`stack.c`: the nodes are linked both ways, and each points to a copy of a string that is never
freed.  A node that is popped is neither freed nor unlinked from the one below, so that
`stack_destroy` frees it after all, unless something was pushed in the meantime; then nothing
points to it any more.  The NUL of a string is written behind the memory that was asked for.
-/
import Pop3Proxy.Filter.ListNodes

namespace Pop3Proxy

open Nodes

/-- `stackNode`, which points to its string. -/
structure StackNode where
  data : ℕ
  next : Option ℕ
  prev : Option ℕ
  deriving DecidableEq, Repr

/-- The nodes there are, by their addresses. -/
abbrev StackHeap := ℕ → Option StackNode

/-- `stack` -/
structure CStack where
  logicalLength : ℕ
  head : Option ℕ
  tail : Option ℕ
  deriving DecidableEq, Repr

namespace CStack

/-- `stack_new` -/
def stackNew : CStack := ⟨0, none, none⟩

/-- `stack_destroy`, in so many rounds at most. -/
def stackDestroy (rounds : ℕ) (s : CStack) (h : StackHeap) : Except NodeFault StackHeap :=
  freeNodes StackNode.next rounds s.head h

/-- The part of `stack_push` that links the new node. -/
def stackLink (data node : ℕ) (s : CStack) (h : StackHeap) :
    Except NodeFault (CStack × StackHeap) :=
  if s.logicalLength = 0 then
    .ok (⟨s.logicalLength + 1, some node, some node⟩,
      Function.update h node (some ⟨data, none, none⟩))
  else do
    let h := Function.update h node (some ⟨data, none, s.tail⟩)
    let (a, last) ← follow h s.tail
    .ok (⟨s.logicalLength + 1, s.head, some node⟩,
      Function.update h a (some { last with next := some node }))

/-- `stack_pop`, with the pointer it returns. -/
def stackPop (s : CStack) (h : StackHeap) : Except NodeFault (Option ℕ × CStack) :=
  if s.logicalLength = 0 then .ok (none, s) else do
    let (_, node) ← follow h s.tail
    .ok (some node.data, ⟨s.logicalLength - 1, s.head, node.prev⟩)

/-- `stack_size` -/
def stackSize (s : CStack) : ℕ := s.logicalLength

/-- `stack_peek`, with the pointer it returns. -/
def stackPeek (s : CStack) (h : StackHeap) : Except NodeFault ℕ := do
  let (_, node) ← follow h s.tail
  .ok node.data

end CStack

/-- A stack with its memory: the nodes, and the octets of the strings. -/
structure StackMemory where
  heap : StackHeap
  octets : List Byte
  stack : CStack

/-- The copy of a string in `stack_push`: `malloc` has given as many octets as it is long, and the
NUL goes behind them. -/
def StackMemory.copy (m : StackMemory) (element : List Byte) (data : ℕ) :
    Except NodeFault (List Byte) :=
  if m.octets.length ≤ data + (cstr element).length then .error .outside
  else .ok (splice m.octets data (cstr element ++ [0]))

/-- `stack_push`, with what `malloc` returns for the node and for the string. -/
def StackMemory.stackPush (element : List Byte) (node data : ℕ) (m : StackMemory) :
    Except NodeFault StackMemory :=
  if (m.heap node).isSome then .error .busy else do
    let octets ← m.copy element data
    let (s, h) ← m.stack.stackLink data node m.heap
    .ok ⟨h, octets, s⟩

/-- The string a pointer leads to. -/
def StackMemory.string (m : StackMemory) (p : ℕ) : List Byte := cstr (m.octets.drop p)

/-! ## Runs -/

/-- A call, with the addresses that `malloc` returns. -/
inductive StackOp where
  | push (element : List Byte) (node data : ℕ)
  | pop
  | size
  | peek
  deriving DecidableEq, Repr

/-- What a call returns: a pointer stands for the string that is there at that time. -/
inductive StackAnswer where
  | none
  | element (s : Option (List Byte))
  | number (n : ℕ)
  deriving DecidableEq, Repr

/-- A call. -/
def StackMemory.call (m : StackMemory) : StackOp → Except NodeFault (StackAnswer × StackMemory)
  | .push element node data => do
    let m ← m.stackPush element node data
    .ok (.none, m)
  | .pop => do
    let (p, s) ← m.stack.stackPop m.heap
    .ok (.element (p.map m.string), { m with stack := s })
  | .size => .ok (.number m.stack.stackSize, m)
  | .peek => do
    let p ← m.stack.stackPeek m.heap
    .ok (.element (some (m.string p)), m)

/-- A sequence of strings, the top first, with the number of the nodes that were popped last and
of those that are lost. -/
structure Strings where
  strings : List (List Byte)
  popped : ℕ
  lost : ℕ
  deriving DecidableEq, Repr

/-- What the call is to do. -/
def Strings.call (t : Strings) : StackOp → Except NodeFault (StackAnswer × Strings)
  | .push element _ _ => .ok (.none, ⟨cstr element :: t.strings, 0, t.lost + t.popped⟩)
  | .pop =>
    match t.strings with
    | [] => .ok (.element none, t)
    | e :: strings => .ok (.element (some e), ⟨strings, t.popped + 1, t.lost⟩)
  | .size => .ok (.number t.strings.length, t)
  | .peek =>
    match t.strings with
    | [] => .error .nullPointer
    | e :: _ => .ok (.element (some e), t)

/-! ## The memory of the strings -/

/-- The blocks `malloc` gives for strings: where, and how many octets. -/
def blocksOf (ops : List StackOp) : List (ℕ × ℕ) :=
  ops.filterMap fun
    | .push element _ data => some (data, (cstr element).length)
    | _ => none

/-- The octet behind each block is there, and belongs to no other block. -/
structure NulsFit (size : ℕ) (blocks : List (ℕ × ℕ)) : Prop where
  inside : ∀ x ∈ blocks, x.1 + x.2 < size
  apart : blocks.Pairwise fun x y => x.1 + x.2 < y.1 ∨ y.1 + y.2 < x.1

instance (size : ℕ) (blocks : List (ℕ × ℕ)) : Decidable (NulsFit size blocks) :=
  decidable_of_iff ((∀ x ∈ blocks, x.1 + x.2 < size) ∧
    blocks.Pairwise fun x y => x.1 + x.2 < y.1 ∨ y.1 + y.2 < x.1)
    ⟨fun h => ⟨h.1, h.2⟩, fun h => ⟨h.1, h.2⟩⟩

/-- A string, with its NUL, starts at `p`. -/
structure StringAt (octets : List Byte) (p : ℕ) (s : List Byte) : Prop where
  octets : (s ++ [0]) <+: octets.drop p
  free : 0 ∉ s

section
variable {octets s element : List Byte} {p data : ℕ}

/-- What is read from there is the string. -/
theorem StringAt.cstr_drop (h : StringAt octets p s) : cstr (octets.drop p) = s := by
  obtain ⟨rest, hrest⟩ := h.octets
  rw [← hrest, List.append_assoc, cstr_append h.free]
  exact List.append_nil s

/-- The string that is copied is there. -/
theorem stringAt_copy (h : data + (cstr element).length < octets.length) :
    StringAt (splice octets data (cstr element ++ [0])) data (cstr element) where
  octets := by
    have htake : (octets.take data).length = data := by
      rw [List.length_take]
      omega
    rw [splice, List.append_assoc, List.drop_left' htake]
    exact List.prefix_append _ _
  free := not_mem_cstr element

/-- The others stay, when the octets behind are nobody's. -/
theorem StringAt.copy (hs : StringAt octets p s)
    (hfits : data + (cstr element).length < octets.length)
    (hgap : p + s.length < data ∨ data + (cstr element).length < p) :
    StringAt (splice octets data (cstr element ++ [0])) p s where
  octets := by
    have hlen : (cstr element ++ [(0 : Byte)]).length = (cstr element).length + 1 := by simp
    have htake : (octets.take data).length = data := by
      rw [List.length_take]
      omega
    rw [splice]
    rcases hgap with hgap | hgap
    -- what is copied is behind the string
    · have hdrop : (octets.take data ++ (cstr element ++ [0])).drop p =
          (octets.drop p).take (data - p) ++ (cstr element ++ [0]) := by
        rw [List.drop_append_of_le_length (by omega), List.drop_take]
      rw [List.drop_append_of_le_length (by rw [List.length_append]; omega), hdrop,
        List.append_assoc]
      refine List.IsPrefix.trans ?_ (List.prefix_append _ _)
      refine List.prefix_take_iff.mpr ⟨hs.octets, ?_⟩
      rw [List.length_append, List.length_singleton]
      omega
    -- it is in front of it
    · have hall : (octets.take data ++ (cstr element ++ [0])).length ≤ p := by
        rw [List.length_append, htake, hlen]
        omega
      have hfront : (octets.take data ++ (cstr element ++ [0])).length =
          data + (cstr element ++ [(0 : Byte)]).length := by rw [List.length_append, htake]
      rw [List.drop_append, List.drop_eq_nil_of_le hall, List.nil_append, List.drop_drop, hfront,
        Nat.add_sub_of_le (hfront ▸ hall)]
      exact hs.octets
  free := hs.free

end

/-! ## A stack in memory -/

/-- The nodes of the stack from the bottom, those popped that are still linked to it, and those that
are lost. -/
structure IsStack (m : StackMemory) (as popped : List (ℕ × StackNode)) (lost : List ℕ) : Prop where
  next : Chain StackNode.next m.heap m.stack.head (as ++ popped) none
  prev : Chain StackNode.prev m.heap m.stack.tail as.reverse none
  length : m.stack.logicalLength = as.length
  nodup : lost.Nodup
  apart : ∀ a ∈ lost, a ∉ addresses (as ++ popped)
  used : ∀ a, m.heap a ≠ none ↔ a ∈ addresses (as ++ popped) ∨ a ∈ lost

/-- The stack has the strings, and so many nodes that are popped or lost; these blocks are used for
strings, and the calls to come have room for theirs. -/
def Stacked (ops : List StackOp) (m : StackMemory) (t : Strings) : Prop :=
  ∃ as popped lost used, IsStack m as popped lost ∧
    List.Forall₂ (fun p s => (p, s.length) ∈ used ∧ StringAt m.octets p s)
      (as.reverse.map fun c => c.2.data) t.strings ∧
    popped.length = t.popped ∧ lost.length = t.lost ∧
    NulsFit m.octets.length (used ++ blocksOf ops)

section
variable {m : StackMemory} {as popped : List (ℕ × StackNode)} {lost : List ℕ} {t : Strings}
  {op : StackOp} {ops : List StackOp}

/-- What is popped and lost when something is pushed. -/
theorem IsStack.lose (hm : IsStack m as popped lost) :
    (lost ++ addresses popped).Nodup ∧ ∀ a ∈ lost ++ addresses popped, a ∉ addresses as := by
  have hnodup := hm.next.nodup
  rw [addresses, List.map_append, List.nodup_append] at hnodup
  refine ⟨List.nodup_append.mpr ⟨hm.nodup, hnodup.2.1, ?_⟩, fun a ha has => ?_⟩
  · rintro a ha b hb rfl
    exact hm.apart a ha (by simp only [addresses, List.map_append, List.mem_append]; exact .inr hb)
  · rcases List.mem_append.mp ha with ha | ha
    · exact hm.apart a ha
        (by simp only [addresses, List.map_append, List.mem_append]; exact .inl has)
    · exact hnodup.2.2 a has a ha rfl

/-- A new node on top, and the memory otherwise as it was. -/
theorem IsStack.pushed (hm : IsStack m as popped lost) {node : ℕ} (hfree : m.heap node = none)
    {m' : StackMemory} {as' : List (ℕ × StackNode)}
    (hnext : Chain StackNode.next m'.heap m'.stack.head as' none)
    (hprev : Chain StackNode.prev m'.heap m'.stack.tail as'.reverse none)
    (hlength : m'.stack.logicalLength = as'.length)
    (hadd : addresses as' = addresses as ++ [node])
    (hkept : ∀ b, b ∉ addresses as' → m'.heap b = m.heap b) :
    IsStack m' as' [] (lost ++ addresses popped) := by
  obtain ⟨hnodup, hapart⟩ := hm.lose
  have hnone : node ∉ addresses (as ++ popped) ∧ node ∉ lost := by
    rw [← not_or, ← hm.used, not_not]
    exact hfree
  refine ⟨by rwa [List.append_nil], hprev, hlength, hnodup, fun b hb hmem => ?_, fun b => ?_⟩
  · rw [List.append_nil, hadd] at hmem
    rcases List.mem_append.mp hmem with hmem | hmem
    · exact hapart b hb hmem
    · obtain rfl := List.mem_singleton.mp hmem
      rcases List.mem_append.mp hb with hb | hb
      · exact hnone.2 hb
      · exact hnone.1 (by simp only [addresses, List.map_append, List.mem_append]; exact .inr hb)
  · rw [List.append_nil]
    by_cases hmem : b ∈ addresses as'
    · refine iff_of_true ?_ (.inl hmem)
      obtain ⟨d, hd, rfl⟩ := List.mem_map.mp hmem
      rw [hnext.get hd]
      simp
    · rw [hkept b hmem, hm.used, or_iff_right hmem]
      rw [hadd, List.mem_append, not_or] at hmem
      simp only [addresses, List.map_append, List.mem_append] at hmem ⊢
      rw [or_iff_right hmem.1, or_comm]

/-- **A push** links the node to the one that was on top. -/
theorem IsStack.push (hm : IsStack m as popped lost) (data : ℕ) (octets : List Byte) {node : ℕ}
    (hfree : m.heap node = none) :
    ∃ s h as', m.stack.stackLink data node m.heap = .ok (s, h) ∧
      IsStack ⟨h, octets, s⟩ as' [] (lost ++ addresses popped) ∧
      as'.reverse.map (fun c => c.2.data) = data :: as.reverse.map fun c => c.2.data := by
  rw [CStack.stackLink, hm.length]
  rcases List.eq_nil_or_concat' as with rfl | ⟨bs, ⟨a, n⟩, rfl⟩
  -- the first node
  · refine ⟨⟨1, some node, some node⟩, Function.update m.heap node (some ⟨data, none, none⟩),
      [(node, ⟨data, none, none⟩)], rfl, ?_, rfl⟩
    refine hm.pushed hfree ⟨rfl, Function.update_self _ _ _, rfl⟩
      ⟨rfl, Function.update_self _ _ _, rfl⟩ rfl rfl fun b hb => ?_
    exact Function.update_of_ne (fun heq => hb (by simp [heq])) _ _
  -- the node that was on top is linked to the new one
  · have hprev := hm.prev
    rw [List.reverse_append, List.reverse_singleton, List.singleton_append] at hprev
    obtain ⟨htail, hnode, hbelow⟩ := hprev
    simp only at htail hnode hbelow
    have hnot : node ∉ addresses bs ∧ node ≠ a := by
      have hnone : node ∉ addresses (bs ++ [(a, n)] ++ popped) := fun hmem =>
        (hm.used node).mpr (.inl hmem) hfree
      simp only [addresses, List.map_append, List.mem_append, not_or] at hnone
      exact ⟨hnone.1.1, fun heq => hnone.1.2 (by simp [heq])⟩
    have hfirst : a ∉ addresses bs := by
      have hnodup := hm.next.nodup
      simp only [addresses, List.map_append, List.nodup_append] at hnodup
      exact fun hmem => hnodup.1.2.2 a hmem a (by simp) rfl
    obtain ⟨r, hbs, -⟩ := Chain.append.mp hm.next
    have hold : node ∉ addresses (bs ++ [(a, n)]) := by
      simp only [addresses, List.map_append, List.mem_append, not_or]
      exact ⟨hnot.1, by simpa using hnot.2⟩
    have hlast : Function.update m.heap node (some ⟨data, none, some a⟩) a = some n := by
      rw [Function.update_of_ne (Ne.symm hnot.2), hnode]
    have hpos : ¬ (bs ++ [(a, n)]).length = 0 := by simp
    simp only [if_neg hpos, htail, follow_some hlast]
    refine ⟨⟨(bs ++ [(a, n)]).length + 1, m.stack.head, some node⟩,
      Function.update (Function.update m.heap node (some ⟨data, none, some a⟩)) a
        (some { n with next := some node }),
      bs ++ [(a, { n with next := some node }), (node, ⟨data, none, some a⟩)], rfl,
      hm.pushed hfree ?_ ?_ (by simp) (by simp) fun b hb => ?_, by simp⟩
    · have hnew : bs ++ [(a, { n with next := some node }), (node, ⟨data, none, some a⟩)] =
          (bs ++ [(a, { n with next := some node })]) ++ [(node, ⟨data, none, some a⟩)] := by
        simp
      rw [hnew]
      refine Chain.concat.mpr ⟨(hbs.update hold _).relink hfirst _, ?_, rfl⟩
      exact (Function.update_of_ne hnot.2 _ _).trans (Function.update_self _ _ _)
    · have hnew : (bs ++ [(a, { n with next := some node }), (node, ⟨data, none, some a⟩)]).reverse
          = (node, ⟨data, none, some a⟩) :: (a, { n with next := some node }) :: bs.reverse := by
        simp
      rw [hnew]
      refine ⟨rfl, ?_, rfl, Function.update_self _ _ _, ?_⟩
      · exact (Function.update_of_ne hnot.2 _ _).trans (Function.update_self _ _ _)
      · have hadd : addresses bs.reverse = (addresses bs).reverse := List.map_reverse
        refine (hbelow.update ?_ _).update ?_ _ <;> rw [hadd, List.mem_reverse]
        · exact hnot.1
        · exact hfirst
    · have hb : b ∉ addresses bs ∧ b ≠ a ∧ b ≠ node := by simpa using hb
      exact (Function.update_of_ne hb.2.1 _ _).trans (Function.update_of_ne hb.2.2 _ _)

/-- **A pop**: the node stays linked to the one below. -/
theorem IsStack.pop {a : ℕ} {n : StackNode} {bs : List (ℕ × StackNode)}
    (hm : IsStack m (bs ++ [(a, n)]) popped lost) :
    ∃ s, m.stack.stackPop m.heap = .ok (some n.data, s) ∧
      IsStack { m with stack := s } bs ((a, n) :: popped) lost := by
  have hprev := hm.prev
  rw [List.reverse_append, List.reverse_singleton, List.singleton_append] at hprev
  obtain ⟨htail, hnode, hbelow⟩ := hprev
  have hpos : ¬ m.stack.logicalLength = 0 := by
    rw [hm.length]
    simp
  have hall : bs ++ [(a, n)] ++ popped = bs ++ (a, n) :: popped := by simp
  refine ⟨⟨m.stack.logicalLength - 1, m.stack.head, n.prev⟩, ?_, ?_⟩
  · rw [CStack.stackPop, if_neg hpos, htail, follow_some hnode]
    rfl
  · refine ⟨?_, hbelow, ?_, hm.nodup, ?_, ?_⟩
    · rw [← hall]
      exact hm.next
    · show m.stack.logicalLength - 1 = bs.length
      rw [hm.length]
      simp
    · rw [← hall]
      exact hm.apart
    · rw [← hall]
      exact hm.used

/-- The pointer on top. -/
theorem IsStack.peek (hm : IsStack m as popped lost) : m.stack.stackPeek m.heap =
    match as.reverse.map fun c => c.2.data with
    | [] => .error .nullPointer
    | p :: _ => .ok p := by
  have hprev := hm.prev
  rw [CStack.stackPeek]
  cases has : as.reverse with
  | nil =>
    rw [has] at hprev
    have htail : m.stack.tail = none := hprev
    rw [htail]
    rfl
  | cons c bs =>
    rw [has] at hprev
    obtain ⟨htail, hnode, -⟩ := hprev
    rw [htail, follow_some hnode]
    rfl

/-- The memory of the strings after a push. -/
theorem NulsFit.copy {used : List (ℕ × ℕ)} {element : List Byte} {node data : ℕ}
    (h : NulsFit m.octets.length (used ++ blocksOf (.push element node data :: ops))) :
    data + (cstr element).length < m.octets.length ∧
      (∀ x ∈ used, x.1 + x.2 < data ∨ data + (cstr element).length < x.1) ∧
      NulsFit (splice m.octets data (cstr element ++ [0])).length
        ((used ++ [(data, (cstr element).length)]) ++ blocksOf ops) := by
  have hblocks : blocksOf (.push element node data :: ops) =
      (data, (cstr element).length) :: blocksOf ops := rfl
  rw [hblocks] at h
  have hin := h.inside (data, (cstr element).length) (by simp)
  refine ⟨hin, fun x hx => ?_, ?_⟩
  · exact (List.pairwise_append.mp h.apart).2.2 x hx _ List.mem_cons_self
  · have hlen : data + (cstr element ++ [(0 : Byte)]).length ≤ m.octets.length := by
      rw [List.length_append, List.length_singleton]
      omega
    rw [length_splice hlen, List.append_assoc]
    exact h

/-- **One call.** -/
theorem Stacked.call (hm : Stacked (op :: ops) m t) :
    Calls.Follows (· = .busy) (Stacked ops) (m.call op) (t.call op) := by
  obtain ⟨as, popped, lost, used, hm, hstrings, hpopped, hlost, hroom⟩ := hm
  cases op with
  | push element node data =>
    obtain ⟨hfits, hgaps, hroom⟩ := hroom.copy
    rw [StackMemory.call, StackMemory.stackPush]
    cases hfree : m.heap node with
    | some n => exact .inl ⟨.busy, rfl, rfl⟩
    | none =>
      obtain ⟨s, h, as', hlink, hm', hdata⟩ :=
        hm.push data (splice m.octets data (cstr element ++ [0])) hfree
      have hcopy : m.copy element data = .ok (splice m.octets data (cstr element ++ [0])) :=
        if_neg (Nat.not_le_of_lt hfits)
      refine .inr (.inr ⟨.none, _, ⟨cstr element :: t.strings, 0, t.lost + t.popped⟩, ?_, rfl,
        as', [], _, _, hm', ?_, rfl, ?_, hroom⟩)
      · rw [if_neg (by simp), hcopy, ok_bind, hlink]
        rfl
      -- the copy is written where nothing of the other strings is, their NULs included
      · rw [hdata]
        refine .cons ⟨by simp, stringAt_copy hfits⟩ (hstrings.imp fun p s hs => ?_)
        exact ⟨List.mem_append_left _ hs.1, hs.2.copy hfits (hgaps _ hs.1)⟩
      · rw [List.length_append, List.length_map, hpopped, hlost]
  | pop =>
    refine .inr (.inr ?_)
    rw [StackMemory.call, Strings.call]
    rcases List.eq_nil_or_concat' as with rfl | ⟨bs, ⟨a, n⟩, rfl⟩
    -- with nothing on the stack `stack_pop` gives NULL
    · have hnil : t.strings = [] := List.forall₂_nil_left_iff.mp hstrings
      have hzero : m.stack.logicalLength = 0 := hm.length
      rw [CStack.stackPop, if_pos hzero, hnil]
      exact ⟨_, _, _, rfl, rfl, [], popped, lost, used, hm, by rw [hnil]; exact .nil, hpopped,
        hlost,
        hroom⟩
    -- the node that is taken off stays allocated
    · rw [List.reverse_append, List.reverse_singleton, List.singleton_append,
        List.map_cons] at hstrings
      obtain ⟨s, strings, htop, hrest, heq⟩ := List.forall₂_cons_left_iff.mp hstrings
      obtain ⟨stack, hpop, hm'⟩ := hm.pop
      rw [hpop, heq]
      refine ⟨.element (some s), { m with stack := stack }, ⟨strings, t.popped + 1, t.lost⟩,
        ?_, rfl,
        bs, _, lost, used, hm', hrest, by rw [List.length_cons, hpopped], hlost, hroom⟩
      have hstring : m.string n.data = s := htop.2.cstr_drop
      simp only [ok_bind, Option.map_some, hstring]
  | size =>
    refine .inr
      (.inr ⟨.number t.strings.length, m, t, ?_, rfl, as, popped, lost, used, hm, hstrings,
      hpopped, hlost, hroom⟩)
    have hlen := hstrings.length_eq
    rw [List.length_map, List.length_reverse] at hlen
    rw [StackMemory.call, CStack.stackSize, hm.length, hlen]
  | peek =>
    right
    rw [StackMemory.call, Strings.call, hm.peek]
    cases hptrs : as.reverse.map (fun c => c.2.data) with
    | nil =>
      -- `tail` is NULL and is followed
      rw [hptrs] at hstrings
      rw [List.forall₂_nil_left_iff.mp hstrings]
      exact .inl ⟨.nullPointer, rfl, rfl⟩
    | cons p ptrs =>
      rw [hptrs] at hstrings
      obtain ⟨s, strings, htop, hrest, heq⟩ := List.forall₂_cons_left_iff.mp hstrings
      have hstring : m.string p = s := htop.2.cstr_drop
      rw [heq]
      refine .inr ⟨.element (some s), m, t, ?_, rfl, as, popped, lost, used, hm, ?_, hpopped, hlost,
        hroom⟩
      · simp only [ok_bind, hstring]
      · rw [hptrs, heq]
        exact .cons htop hrest

end

/-- **The stack of `stack.c`** is a sequence of strings: as far as the octet behind the memory of a
string is nobody's, and unless `malloc` returns memory for a node that is in use, every run returns
what it should, or ends where the empty stack is peeked, with a NULL pointer that is followed; and
`stack_destroy` frees what is on the stack and what was popped since the last push, and leaves what
was popped before. -/
theorem stack_refines (octets : List Byte) {ops : List StackOp}
    (hroom : NulsFit octets.length (blocksOf ops)) :
    Calls.run StackMemory.call ops ⟨fun _ => none, octets, .stackNew⟩ = .error .busy ∨
      (∃ f, Calls.run StackMemory.call ops ⟨fun _ => none, octets, .stackNew⟩ = .error f ∧
        Calls.run Strings.call ops ⟨[], 0, 0⟩ = .error f) ∨
      ∃ answers m t,
        Calls.run StackMemory.call ops ⟨fun _ => none, octets, .stackNew⟩ = .ok (answers, m) ∧
        Calls.run Strings.call ops ⟨[], 0, 0⟩ = .ok (answers, t) ∧
        ∀ rounds, t.strings.length + t.popped ≤ rounds →
          ∃ h, ∃ left : List ℕ, m.stack.stackDestroy rounds m.heap = .ok h ∧ left.Nodup ∧
            left.length = t.lost ∧ ∀ a, h a ≠ none ↔ a ∈ left := by
  have hstart : Stacked ops ⟨fun _ => none, octets, .stackNew⟩ ⟨[], 0, 0⟩ := by
    refine ⟨[], [], [], [], ⟨rfl, rfl, rfl, List.nodup_nil, ?_, ?_⟩, .nil, rfl, rfl, hroom⟩
    · exact fun a ha => absurd ha List.not_mem_nil
    · exact fun a => iff_of_false (fun h => h rfl) (by simp)
  rcases Calls.Follows.run (R := Stacked) (fun _ _ _ _ hm => hm.call) hstart with
    ⟨e, hbusy, rfl⟩ | hfail | ⟨answers, m, t, hrun, hmeaning, hm⟩
  · exact .inl hbusy
  · exact .inr (.inl hfail)
  · refine .inr (.inr ⟨answers, m, t, hrun, hmeaning, fun rounds hrounds => ?_⟩)
    obtain ⟨as, popped, lost, used, hm, hstrings, hpopped, hlost, -⟩ := hm
    have hlen := hstrings.length_eq
    rw [List.length_map, List.length_reverse] at hlen
    obtain ⟨h, hfree, hgone, hkept⟩ :=
      freeNodes_eq (k := rounds) hm.next (by rw [List.length_append, hlen, hpopped]; exact hrounds)
    refine ⟨h, lost, hfree, hm.nodup, hlost, fun a => ?_⟩
    by_cases hmem : a ∈ addresses (as ++ popped)
    · rw [hgone a hmem]
      exact iff_of_false (fun hne => hne rfl) fun hlost => hm.apart a hlost hmem
    · rw [hkept a hmem, hm.used, or_iff_right hmem]

/-- A string that is pushed and popped, and another one. -/
def twoStrings : List StackOp := [.push (ascii "ab") 5 0, .pop, .push (ascii "c") 6 3, .peek]

/-- The second node is the only one that `stack_destroy` frees. -/
theorem stack_refines_two : ∃ m h, ∃ left : List ℕ,
    Calls.run StackMemory.call twoStrings ⟨fun _ => none, List.replicate 8 1, .stackNew⟩ =
      .ok ([.none, .element (some (ascii "ab")), .none, .element (some (ascii "c"))], m) ∧
    m.stack.stackDestroy 1 m.heap = .ok h ∧ left.length = 1 ∧ ∀ a, h a ≠ none ↔ a ∈ left := by
  have hmeaning : Calls.run Strings.call twoStrings ⟨[], 0, 0⟩ =
      .ok ([.none, .element (some (ascii "ab")), .none, .element (some (ascii "c"))],
        ⟨[ascii "c"], 0, 1⟩) := by decide
  have hok : (Calls.run StackMemory.call twoStrings
      ⟨fun _ => none, List.replicate 8 1, .stackNew⟩).isOk = true := by decide
  have hroom : NulsFit (List.replicate 8 (1 : Byte)).length (blocksOf twoStrings) := by decide
  rcases stack_refines (List.replicate 8 1) hroom with
    hbusy | ⟨f, hfail, -⟩ | ⟨answers, m, t, hrun, ht, hdestroy⟩
  · rw [hbusy] at hok
    cases hok
  · rw [hfail] at hok
    cases hok
  · obtain ⟨rfl, rfl⟩ := Prod.mk.inj (Except.ok.inj (hmeaning.symm.trans ht))
    obtain ⟨h, left, hfree, -, hleft, hkept⟩ := hdestroy 1 (by decide)
    exact ⟨m, h, left, hrun, hfree, hleft, hkept⟩

/-- Without room for the NUL of the first string. -/
example : (Calls.run StackMemory.call [.push (ascii "ab") 5 0, .push (ascii "c") 6 2, .pop, .pop]
    ⟨fun _ => none, List.replicate 8 0, .stackNew⟩).map Prod.fst =
      .ok [.none, .none, .element (some (ascii "c")), .element (some (ascii "abc"))] := by decide

end Pop3Proxy
