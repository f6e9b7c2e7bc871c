/-
# The lists in memory

`list.c`: structures with pointers to a first and a last node.  Any number of lists share the
memory, and every operation on one of them does what it should do to a sequence of octets, except
that a node that is removed is read after it was freed.  Nothing checks what `malloc` returns.
-/
import Pop3Proxy.Basic
import Pop3Proxy.Library.Calls
import Pop3Proxy.Library.Chain

namespace Pop3Proxy

open Nodes

/-- How a list, or the stack, can come to grief. -/
inductive NodeFault where
  /-- a pointer is followed that is NULL -/
  | nullPointer
  /-- a pointer is followed to a node that was freed -/
  | freed
  | assertion
  /-- `malloc` has returned memory that is in use -/
  | busy
  /-- a loop over the nodes does not end -/
  | endless
  /-- an octet is assigned where there is no memory -/
  | outside
  deriving DecidableEq, Repr

/-- A pointer is followed to a node. -/
def follow {N : Type} (h : ℕ → Option N) : Option ℕ → Except NodeFault (ℕ × N)
  | none => .error .nullPointer
  | some a =>
    match h a with
    | none => .error .freed
    | some node => .ok (a, node)

/-- The loop of `list_destroy` and `stack_destroy`, in so many rounds at most. -/
def freeNodes {N : Type} (next : N → Option ℕ) :
    ℕ → Option ℕ → (ℕ → Option N) → Except NodeFault (ℕ → Option N)
  | _, none, h => .ok h
  | 0, some _, _ => .error .endless
  | k + 1, some a, h => do
    let (a, node) ← follow h (some a)
    freeNodes next k (next node) (Function.update h a none)

section
variable {N : Type} {next : N → Option ℕ} {h : ℕ → Option N} {p : Option ℕ} {as : List (ℕ × N)}
  {k : ℕ}

/-- A pointer to a node that is there can be followed. -/
theorem follow_some {a : ℕ} {n : N} (ha : h a = some n) : follow h (some a) = .ok (a, n) := by
  rw [follow, ha]

/-- The loop ends, and frees the nodes of the chain and no others. -/
theorem freeNodes_eq (hc : Chain next h p as none) (hk : as.length ≤ k) :
    ∃ h', freeNodes next k p h = .ok h' ∧ (∀ b ∈ addresses as, h' b = none) ∧
      ∀ b, b ∉ addresses as → h' b = h b := by
  induction as generalizing p k h with
  | nil =>
    obtain rfl : p = none := hc
    exact ⟨h, by rw [freeNodes], fun b hb => absurd hb List.not_mem_nil, fun b _ => rfl⟩
  | cons c as ih =>
    have hfresh := (List.nodup_cons.mp hc.nodup).1
    obtain ⟨rfl, hnode, hrest⟩ := hc
    cases k with
    | zero => exact absurd hk (by simp)
    | succ k =>
      obtain ⟨h', hfree, hgone, hkept⟩ := ih (hrest.update hfresh none) (Nat.le_of_succ_le_succ hk)
      refine ⟨h', ?_, fun b hb => ?_, fun b hb => ?_⟩
      · rw [freeNodes, follow_some hnode]
        exact hfree
      · rcases List.mem_cons.mp hb with rfl | hb
        · rw [hkept _ hfresh, Function.update_self]
        · exact hgone b hb
      · have hb' := not_or.mp (fun hor => hb (List.mem_cons.mpr hor))
        rw [hkept b hb'.2, Function.update_of_ne hb'.1]

end

/-! ## `list.c` -/

/-- `listNode` -/
structure ListNode where
  data : Byte
  next : Option ℕ
  deriving DecidableEq, Repr

/-- `list` -/
structure CList where
  logicalLength : ℕ
  head : Option ℕ
  tail : Option ℕ
  deriving DecidableEq, Repr

/-- The nodes there are, by their addresses. -/
abbrev ListHeap := ℕ → Option ListNode

namespace CList

/-- `list_new` -/
def listNew : CList := ⟨0, none, none⟩

/-- `list_destroy`: `free` of every node, from the head on. -/
def listDestroy (l : CList) (h : ListHeap) : Except NodeFault ListHeap :=
  freeNodes ListNode.next l.logicalLength l.head h

/-- `list_empty`: the list is destroyed and set up again. -/
def listEmpty (l : CList) (h : ListHeap) : Except NodeFault (CList × ListHeap) := do
  let h ← l.listDestroy h
  .ok (listNew, h)

/-- `list_append`, with what `malloc` returns. -/
def listAppend (element : Byte) (node : ℕ) (l : CList) (h : ListHeap) :
    Except NodeFault (CList × ListHeap) :=
  if (h node).isSome then .error .busy else
    let h := Function.update h node (some ⟨element, none⟩)
    if l.logicalLength = 0 then
      .ok (⟨l.logicalLength + 1, some node, some node⟩, h)
    else do
      let (a, last) ← follow h l.tail
      .ok (⟨l.logicalLength + 1, l.head, some node⟩,
        Function.update h a (some { last with next := some node }))

/-- `list_head`: the data is read at the end, of a node that may have been freed. -/
def listHead (removeFromList : Bool) (l : CList) (h : ListHeap) :
    Except NodeFault (Byte × CList × ListHeap) :=
  match l.head with
  | none => .error .assertion
  | some a =>
    if removeFromList then do
      let (a, node) ← follow h (some a)
      let h := Function.update h a none
      let (_, node') ← follow h (some a)
      .ok (node'.data, ⟨l.logicalLength - 1, node.next, l.tail⟩, h)
    else do
      let (_, node) ← follow h (some a)
      .ok (node.data, l, h)

/-- `list_size` -/
def listSize (l : CList) : ℕ := l.logicalLength

/-- The loop that copies so many octets. -/
def copyNodes (h : ListHeap) : ℕ → Option ℕ → Except NodeFault (List Byte)
  | 0, _ => .ok []
  | k + 1, curr => do
    let (_, node) ← follow h curr
    let ret ← copyNodes h k node.next
    .ok (node.data :: ret)

/-- What `list_return_string` writes. -/
def listReturnString (l : CList) (h : ListHeap) : Except NodeFault (List Byte) :=
  copyNodes h l.listSize l.head

/-- `list_peek`: the octet of the last node. -/
def listPeek (l : CList) (h : ListHeap) : Except NodeFault Byte := do
  let (_, node) ← follow h l.tail
  .ok node.data

/-- What `list_ret_end_string` writes: the last two octets are left out. -/
def listRetEndString (l : CList) (h : ListHeap) : Except NodeFault (List Byte) :=
  copyNodes h (l.listSize - 2) l.head

end CList

/-! ## Runs -/

/-- A call, with the address that `malloc` returns. -/
inductive ListOp where
  | append (element : Byte) (node : ℕ)
  | head (removeFromList : Bool)
  | size
  | peek
  | returnString
  | retEndString
  | empty
  deriving DecidableEq, Repr

/-- What a call returns. -/
inductive ListAnswer where
  | none
  | octet (c : Byte)
  | number (n : ℕ)
  | string (bs : List Byte)
  deriving DecidableEq, Repr

/-- Lists that share the memory. -/
structure ListMemory where
  heap : ListHeap
  lists : ℕ → CList

/-- A call for one of the lists. -/
def ListOp.perform (i : ℕ) (m : ListMemory) : ListOp → Except NodeFault (ListAnswer × ListMemory)
  | append element node => do
    let (l, h) ← (m.lists i).listAppend element node m.heap
    .ok (.none, ⟨h, Function.update m.lists i l⟩)
  | head removeFromList => do
    let (c, l, h) ← (m.lists i).listHead removeFromList m.heap
    .ok (.octet c, ⟨h, Function.update m.lists i l⟩)
  | size => .ok (.number (m.lists i).listSize, m)
  | peek => do
    let c ← (m.lists i).listPeek m.heap
    .ok (.octet c, m)
  | returnString => do
    let bs ← (m.lists i).listReturnString m.heap
    .ok (.string bs, m)
  | retEndString => do
    let bs ← (m.lists i).listRetEndString m.heap
    .ok (.string bs, m)
  | empty => do
    let (l, h) ← (m.lists i).listEmpty m.heap
    .ok (.none, ⟨h, Function.update m.lists i l⟩)

/-- What the call is to do to a sequence of octets. -/
def ListOp.meaning (bs : List Byte) : ListOp → Except NodeFault (ListAnswer × List Byte)
  | append element _ => .ok (.none, bs ++ [element])
  | head removeFromList =>
    match bs with
    | [] => .error .assertion
    | c :: _ => if removeFromList then .error .freed else .ok (.octet c, bs)
  | size => .ok (.number bs.length, bs)
  | peek =>
    match bs.getLast? with
    | none => .error .nullPointer
    | some c => .ok (.octet c, bs)
  | returnString => .ok (.string bs, bs)
  | retEndString => .ok (.string (bs.take (bs.length - 2)), bs)
  | empty => .ok (.none, [])

/-- A call for one of the lists. -/
def ListMemory.call (m : ListMemory) (c : ℕ × ListOp) :
    Except NodeFault (ListAnswer × ListMemory) :=
  c.2.perform c.1 m

/-- The same for sequences of octets. -/
def callMeaning (ls : ℕ → List Byte) (c : ℕ × ListOp) :
    Except NodeFault (ListAnswer × (ℕ → List Byte)) := do
  let (answer, bs) ← c.2.meaning (ls c.1)
  .ok (answer, Function.update ls c.1 bs)

/-- `list_destroy` for these lists. -/
def destroyAll (lists : ℕ → CList) : List ℕ → ListHeap → Except NodeFault ListHeap
  | [], h => .ok h
  | i :: is, h => do
    let h ← (lists i).listDestroy h
    destroyAll lists is h

/-! ## A list in memory -/

/-- The octets of the nodes. -/
def values (as : List (ℕ × ListNode)) : List Byte := as.map fun c => c.2.data

/-- These are the nodes of the list. -/
structure IsList (h : ListHeap) (l : CList) (as : List (ℕ × ListNode)) : Prop where
  chain : Chain ListNode.next h l.head as none
  length : l.logicalLength = as.length
  tail : l.tail = as.getLast?.map Prod.fst

section
variable {h : ListHeap} {l : CList} {as : List (ℕ × ListNode)} {p : Option ℕ} {k : ℕ}

/-- A new list is empty. -/
theorem isList_new (h : ListHeap) : IsList h CList.listNew [] where
  chain := rfl
  length := rfl
  tail := rfl

/-- The copying loop, as far as there are nodes. -/
theorem copyNodes_eq (hc : Chain ListNode.next h p as none) (hk : k ≤ as.length) :
    CList.copyNodes h k p = .ok (values (as.take k)) := by
  induction k generalizing p as with
  | zero => rfl
  | succ k ih =>
    cases as with
    | nil => exact absurd hk (by simp)
    | cons c as =>
      obtain ⟨rfl, hnode, hrest⟩ := hc
      rw [CList.copyNodes, follow_some hnode]
      show CList.copyNodes h k c.2.next >>= _ = _
      rw [ih hrest (Nat.le_of_succ_le_succ hk)]
      rfl

/-- A list is the same in another memory that has its nodes. -/
theorem IsList.congr {h' : ListHeap} (hl : IsList h l as) (heq : ∀ b ∈ addresses as, h' b = h b) :
    IsList h' l as :=
  ⟨hl.chain.congr heq, hl.length, hl.tail⟩

/-- `list_destroy` frees the nodes of the list and no others. -/
theorem IsList.destroy (hl : IsList h l as) :
    ∃ h', l.listDestroy h = .ok h' ∧ (∀ b ∈ addresses as, h' b = none) ∧
      ∀ b, b ∉ addresses as → h' b = h b :=
  freeNodes_eq hl.chain (Nat.le_of_eq hl.length.symm)

/-- `list_return_string` copies the octets of the list. -/
theorem IsList.returnString (hl : IsList h l as) :
    l.listReturnString h = .ok (values as) := by
  have hcopy := copyNodes_eq hl.chain (Nat.le_refl as.length)
  rw [List.take_length, ← hl.length] at hcopy
  exact hcopy

/-- `list_ret_end_string` copies all but the last two. -/
theorem IsList.retEndString (hl : IsList h l as) :
    l.listRetEndString h = .ok ((values as).take ((values as).length - 2)) := by
  have hcopy := copyNodes_eq hl.chain (Nat.sub_le as.length 2)
  rw [← hl.length] at hcopy
  rw [CList.listRetEndString, CList.listSize, hcopy, values, values, List.map_take,
    List.length_map, hl.length]

/-- The last node is where `tail` points to. -/
theorem IsList.peek (hl : IsList h l as) {c : Byte} (hc : (values as).getLast? = some c) :
    l.listPeek h = .ok c := by
  rw [values, List.getLast?_map] at hc
  obtain ⟨⟨a, n⟩, hlast, rfl⟩ := Option.map_eq_some_iff.mp hc
  obtain ⟨bs, rfl⟩ := List.getLast?_eq_some_iff.mp hlast
  have hnode : h a = some n := hl.chain.get (c := (a, n)) (by simp)
  have htail : l.tail = some a := by
    rw [hl.tail]
    simp
  rw [CList.listPeek, htail, follow_some hnode]
  rfl

/-- **A new last node.** -/
theorem IsList.append (hl : IsList h l as) (c : Byte) {node : ℕ} (hfree : h node = none) :
    ∃ l' h' as', l.listAppend c node h = .ok (l', h') ∧ IsList h' l' as' ∧
      values as' = values as ++ [c] ∧ addresses as' = addresses as ++ [node] ∧
      ∀ b, b ∉ addresses as' → h' b = h b := by
  have hnot : node ∉ addresses as := by
    intro hmem
    obtain ⟨d, hd, rfl⟩ := List.mem_map.mp hmem
    rw [hl.chain.get hd] at hfree
    cases hfree
  have hbusy : ¬ (h node).isSome = true := by simp [hfree]
  rw [CList.listAppend, if_neg hbusy]
  rcases List.eq_nil_or_concat' as with rfl | ⟨bs, ⟨a, n⟩, rfl⟩
  -- the first node
  · simp only [hl.length, List.length_nil, if_true]
    refine ⟨_, _, [(node, ⟨c, none⟩)], rfl, ⟨⟨rfl, Function.update_self _ _ _, rfl⟩, rfl,
      rfl⟩, rfl, rfl, fun b hb => ?_⟩
    exact Function.update_of_ne (fun heq => hb (by simp [heq])) _ _
  -- the node that was last gets a successor
  · have hpos : ¬ l.logicalLength = 0 := by
      rw [hl.length]
      simp
    have htail : l.tail = some a := by
      rw [hl.tail]
      simp
    have hadd : addresses (bs ++ [(a, n)]) = addresses bs ++ [a] := by simp
    have hbs : a ∉ addresses bs := by
      have hnodup := hl.chain.nodup
      rw [hadd, List.nodup_append] at hnodup
      exact fun hmem => hnodup.2.2 a hmem a (List.mem_singleton_self a) rfl
    have hold := hl.chain.update hnot (some ⟨c, none⟩)
    have hlast := (Chain.concat.mp hold).2.1
    rw [hadd, List.mem_append, List.mem_singleton, not_or] at hnot
    simp only [if_neg hpos, htail, follow_some hlast]
    refine ⟨_, _, bs ++ [(a, { n with next := some node }), (node, ⟨c, none⟩)], rfl,
      ⟨?_, by simp [hl.length], by simp⟩, by simp [values], by simp, fun b hb => ?_⟩
    · have hnew : bs ++ [(a, { n with next := some node }), (node, ⟨c, none⟩)] =
          (bs ++ [(a, { n with next := some node })]) ++ [(node, ⟨c, none⟩)] := by simp
      rw [hnew]
      refine Chain.concat.mpr ⟨hold.relink hbs _, ?_, rfl⟩
      rw [Function.update_of_ne hnot.2, Function.update_self]
    · have hb : b ∉ addresses bs ∧ b ≠ a ∧ b ≠ node := by simpa using hb
      rw [Function.update_of_ne hb.2.1, Function.update_of_ne hb.2.2]

/-- An empty list has no last node. -/
theorem IsList.peek_nil (hl : IsList h l []) : l.listPeek h = .error .nullPointer := by
  have htail : l.tail = none := hl.tail
  rw [CList.listPeek, htail]
  rfl

/-- The first node is read, unless it is removed first. -/
theorem IsList.head {c : ℕ × ListNode} (hl : IsList h l (c :: as)) (removeFromList : Bool) :
    l.listHead removeFromList h =
      if removeFromList then .error .freed else .ok (c.2.data, l, h) := by
  obtain ⟨hp, hnode, -⟩ := hl.chain
  have hgone : follow (Function.update h c.1 none) (some c.1) = .error .freed := by
    rw [follow, Function.update_self]
  rw [CList.listHead, hp]
  simp only [follow_some hnode]
  cases removeFromList with
  | true =>
    show (follow (Function.update h c.1 none) (some c.1) >>= _) = _
    rw [hgone]
    rfl
  | false => rfl

end

/-! ## Lists that share the memory -/

/-- These are the nodes of each list; no node belongs to two of them, and each to one. -/
structure Represents (m : ListMemory) (nodes : ℕ → List (ℕ × ListNode)) : Prop where
  lists : ∀ i, IsList m.heap (m.lists i) (nodes i)
  apart : ∀ i j, i ≠ j → ∀ a ∈ addresses (nodes i), a ∉ addresses (nodes j)
  used : ∀ a, m.heap a ≠ none → ∃ i, a ∈ addresses (nodes i)

section
variable {m : ListMemory} {nodes : ℕ → List (ℕ × ListNode)} {i : ℕ}

/-- One list changes, and the memory where its nodes are or where there was none. -/
theorem Represents.change (hm : Represents m nodes) {l : CList} {h : ListHeap}
    {as : List (ℕ × ListNode)} (hl : IsList h l as)
    (hout : ∀ b, b ∉ addresses (nodes i) → b ∉ addresses as → h b = m.heap b)
    (hnew : ∀ b ∈ addresses as, b ∈ addresses (nodes i) ∨ m.heap b = none)
    (hgone : ∀ b ∈ addresses (nodes i), b ∉ addresses as → h b = none) :
    Represents ⟨h, Function.update m.lists i l⟩ (Function.update nodes i as) := by
  have hother : ∀ j, j ≠ i → ∀ b ∈ addresses (nodes j), b ∉ addresses (nodes i) ∧
    b ∉ addresses as := by
    intro j hj b hb
    have hnot := hm.apart j i hj b hb
    refine ⟨hnot, fun hmem => ?_⟩
    rcases hnew b hmem with hin | hnone
    · exact hnot hin
    · obtain ⟨d, hd, rfl⟩ := List.mem_map.mp hb
      rw [(hm.lists j).chain.get hd] at hnone
      cases hnone
  refine ⟨fun j => ?_, fun j k hjk b hb => ?_, fun b hb => ?_⟩
  · by_cases hj : j = i
    · subst hj
      simpa only [Function.update_self] using hl
    · simp only [Function.update_of_ne hj]
      exact (hm.lists j).congr fun b hb => hout b (hother j hj b hb).1 (hother j hj b hb).2
  · by_cases hj : j = i
    · subst hj
      rw [Function.update_self] at hb
      rw [Function.update_of_ne (Ne.symm hjk)]
      exact fun hmem => (hother k (Ne.symm hjk) b hmem).2 hb
    · rw [Function.update_of_ne hj] at hb
      by_cases hk : k = i
      · subst hk
        rw [Function.update_self]
        exact (hother j hj b hb).2
      · rw [Function.update_of_ne hk]
        exact hm.apart j k hjk b hb
  · by_cases hmem : b ∈ addresses as
    · exact ⟨i, by rwa [Function.update_self]⟩
    · have hnot : b ∉ addresses (nodes i) := fun hin => hb (hgone b hin hmem)
      have hsome : m.heap b ≠ none := by
        rw [← hout b hnot hmem]
        exact hb
      obtain ⟨j, hj⟩ := hm.used b hsome
      have hji : j ≠ i := by
        rintro rfl
        exact hnot hj
      exact ⟨j, by rwa [Function.update_of_ne hji]⟩

/-- **One call** does to a list what it means, and nothing to the others. -/
theorem Represents.perform (hm : Represents m nodes) (i : ℕ) (op : ListOp) :
    op.perform i m = .error .busy ∨
      (∃ f, op.perform i m = .error f ∧ op.meaning (values (nodes i)) = .error f) ∨
      ∃ answer m' as, op.perform i m = .ok (answer, m') ∧
        op.meaning (values (nodes i)) = .ok (answer, values as) ∧
        Represents m' (Function.update nodes i as) := by
  have hl := hm.lists i
  have hself : Represents m (Function.update nodes i (nodes i)) := by
    rwa [Function.update_eq_self]
  cases op with
  | append c node =>
    cases hfree : m.heap node with
    | some n =>
      left
      -- `malloc` does not return memory that is in use
      have hbusy : (m.heap node).isSome = true := by simp [hfree]
      rw [ListOp.perform, CList.listAppend, if_pos hbusy]
      rfl
    | none =>
      obtain ⟨l', h', as', happend, hl', hvalues, hadd, hkept⟩ := hl.append c hfree
      refine .inr (.inr ⟨.none, ⟨h', Function.update m.lists i l'⟩, as', ?_, ?_, ?_⟩)
      · rw [ListOp.perform, happend]
        rfl
      · rw [ListOp.meaning, hvalues]
      -- only this list has the new node, and what it had before it keeps
      · refine hm.change hl' (fun b _ hb => hkept b hb) (fun b hb => ?_) fun b hb hnot => ?_
        · rw [hadd] at hb
          rcases List.mem_append.mp hb with hb | hb
          · exact .inl hb
          · rw [List.mem_singleton.mp hb]
            exact .inr hfree
        · rw [hadd] at hnot
          exact absurd (List.mem_append_left _ hb) hnot
  | head removeFromList =>
    right
    cases hnodes : nodes i with
    | nil =>
      rw [hnodes] at hl
      -- the assertion of `list_head`
      have hnone : (m.lists i).head = none := hl.chain
      refine .inl ⟨.assertion, ?_, rfl⟩
      rw [ListOp.perform, CList.listHead, hnone]
      rfl
    | cons c as =>
      rw [hnodes] at hl
      rw [ListOp.perform, hl.head]
      cases removeFromList with
      -- the node is freed before its octet is read
      | true => exact .inl ⟨.freed, rfl, rfl⟩
      | false =>
        refine .inr ⟨.octet c.2.data, ⟨m.heap, Function.update m.lists i (m.lists i)⟩, c :: as, rfl,
          rfl, ?_⟩
        rw [Function.update_eq_self, ← hnodes]
        exact hself
  | size =>
    refine .inr (.inr ⟨.number (values (nodes i)).length, m, nodes i, ?_, rfl, hself⟩)
    rw [ListOp.perform, CList.listSize, hl.length, values, List.length_map]
  | peek =>
    right
    cases hlast : (values (nodes i)).getLast? with
    | none =>
      -- an empty list has no last node to follow
      have hnil : nodes i = [] := by
        rw [values, List.getLast?_map, Option.map_eq_none_iff, List.getLast?_eq_none_iff] at hlast
        exact hlast
      rw [hnil] at hl
      refine .inl ⟨.nullPointer, ?_, by rw [ListOp.meaning, hlast]⟩
      rw [ListOp.perform, hl.peek_nil]
      rfl
    | some c =>
      refine .inr ⟨.octet c, m, nodes i, ?_, by rw [ListOp.meaning, hlast], hself⟩
      rw [ListOp.perform, hl.peek hlast]
      rfl
  | returnString =>
    refine .inr (.inr ⟨.string (values (nodes i)), m, nodes i, ?_, rfl, hself⟩)
    rw [ListOp.perform, hl.returnString]
    rfl
  | retEndString =>
    refine .inr (.inr ⟨_, m, nodes i, ?_, rfl, hself⟩)
    rw [ListOp.perform, hl.retEndString]
    rfl
  | empty =>
    obtain ⟨h', hfree, hgone, hkept⟩ := hl.destroy
    refine .inr (.inr ⟨.none, ⟨h', Function.update m.lists i CList.listNew⟩, [], ?_, rfl, ?_⟩)
    · rw [ListOp.perform, CList.listEmpty, hfree]
      rfl
    · exact hm.change (isList_new h') (fun b hb _ => hkept b hb)
        (fun b hb => absurd hb List.not_mem_nil) fun b hb _ => hgone b hb

/-- The lists have these octets. -/
def Holds (m : ListMemory) (ls : ℕ → List Byte) : Prop :=
  ∃ nodes, Represents m nodes ∧ ∀ i, values (nodes i) = ls i

/-- **One call** on one of the lists does to its octets what it should. -/
theorem Holds.call {ls : ℕ → List Byte} (hm : Holds m ls) (c : ℕ × ListOp) :
    Calls.Follows (· = .busy) Holds (m.call c) (callMeaning ls c) := by
  obtain ⟨nodes, hm, hls⟩ := hm
  rw [ListMemory.call, callMeaning, ← hls c.1]
  rcases hm.perform c.1 c.2 with hbusy | ⟨f, hfail, hmeaning⟩ | ⟨answer, m', as, hok, hmeaning, hm'⟩
  · exact .inl ⟨.busy, hbusy, rfl⟩
  · refine .inr (.inl ⟨f, hfail, ?_⟩)
    rw [hmeaning]
    rfl
  · refine .inr
      (.inr ⟨answer, m', Function.update ls c.1 (values as), hok, ?_, _, hm', fun j => ?_⟩)
    · rw [hmeaning]
      rfl
    · by_cases hj : j = c.1
      · subst hj
        rw [Function.update_self, Function.update_self]
      · rw [Function.update_of_ne hj, Function.update_of_ne hj, hls]

/-- **Destroying the lists**: every node is freed, and none twice. -/
theorem destroyAll_eq {lists : ℕ → CList} {is : List ℕ} (hnodup : is.Nodup) {h : ListHeap}
    (hlists : ∀ i ∈ is, IsList h (lists i) (nodes i))
    (hapart : ∀ i j, i ≠ j → ∀ a ∈ addresses (nodes i), a ∉ addresses (nodes j))
    (hused : ∀ a, h a ≠ none → ∃ i ∈ is, a ∈ addresses (nodes i)) :
    destroyAll lists is h = .ok fun _ => none := by
  induction is generalizing h with
  | nil =>
    have hnone : h = fun _ => none := by
      funext a
      by_contra hsome
      obtain ⟨i, hi, -⟩ := hused a hsome
      exact absurd hi List.not_mem_nil
    rw [hnone]
    rfl
  | cons i is ih =>
    obtain ⟨hi, hnodup⟩ := List.nodup_cons.mp hnodup
    obtain ⟨h', hfree, hgone, hkept⟩ := (hlists i List.mem_cons_self).destroy
    rw [destroyAll, hfree]
    refine ih hnodup (fun j hj => ?_) fun a ha => ?_
    · have hji : j ≠ i := by
        rintro rfl
        exact hi hj
      exact (hlists j (List.mem_cons_of_mem i hj)).congr fun b hb => hkept b (hapart j i hji b hb)
    · have hnot : a ∉ addresses (nodes i) := fun hmem => ha (hgone a hmem)
      rw [hkept a hnot] at ha
      obtain ⟨j, hj, hmem⟩ := hused a ha
      rcases List.mem_cons.mp hj with rfl | hj
      · exact absurd hmem hnot
      · exact ⟨j, hj, hmem⟩

end

/-- **The lists of `list.c`** are sequences of octets: unless `malloc` returns memory that is in
use, every run returns what it should, or ends where an empty list is asked for an octet, or where
`list_head` removes a node, which it reads when it is freed; and in the end `list_destroy` for all
lists frees every node, and none twice. -/
theorem lists_refine (calls : List (ℕ × ListOp)) :
    Calls.run ListMemory.call calls ⟨fun _ => none, fun _ => .listNew⟩ = .error .busy ∨
      (∃ f, Calls.run ListMemory.call calls ⟨fun _ => none, fun _ => .listNew⟩ = .error f ∧
        Calls.run callMeaning calls (fun _ => []) = .error f) ∨
      ∃ answers m ls,
        Calls.run ListMemory.call calls ⟨fun _ => none, fun _ => .listNew⟩ = .ok (answers, m) ∧
        Calls.run callMeaning calls (fun _ => []) = .ok (answers, ls) ∧
        (∀ i, (m.lists i).listReturnString m.heap = .ok (ls i)) ∧
        ∀ is : List ℕ, is.Nodup → (∀ i, ls i ≠ [] → i ∈ is) →
          destroyAll m.lists is m.heap = .ok fun _ => none := by
  have hstart : Holds ⟨fun _ => none, fun _ => .listNew⟩ fun _ => [] :=
    ⟨fun _ => [], ⟨fun _ => isList_new _, fun _ _ _ _ ha => absurd ha List.not_mem_nil,
      fun _ ha => absurd rfl ha⟩, fun _ => rfl⟩
  rcases Calls.Follows.run (R := fun _ => Holds) (fun c _ _ _ hm => hm.call c) hstart with
    ⟨e, hbusy, rfl⟩ | hfail | ⟨answers, m, ls, hrun, hmeaning, nodes, hm, hls⟩
  · exact .inl hbusy
  · exact .inr (.inl hfail)
  · refine .inr (.inr ⟨answers, m, ls, hrun, hmeaning, fun i => ?_, fun is hnodup hmem => ?_⟩)
    · rw [(hm.lists i).returnString, hls]
    · refine destroyAll_eq hnodup (fun i _ => hm.lists i) hm.apart fun a ha => ?_
      obtain ⟨i, hi⟩ := hm.used a ha
      refine ⟨i, hmem i fun hnil => ?_, hi⟩
      rw [← hls, values, List.map_eq_nil_iff] at hnil
      rw [hnil] at hi
      exact absurd hi List.not_mem_nil

end Pop3Proxy
