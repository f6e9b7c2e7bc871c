/-
# The strings of boundaries

`list_return_string` and `list_ret_end_string` copy the octets of a list into memory of
`malloc`, and `stack_push` copies a string into a node.  Each asks for as many octets as it
copies, so that there is no room for the NUL that ends a string: what `strcmp` compares
depends on what lies behind.
-/
import Mathlib.Data.List.Induction
import Pop3Proxy.Filter.StripMime

namespace Pop3Proxy

/-! ## Memory -/

/-- A block of memory, and the octets that lie behind it. -/
structure Block where
  cells : List Byte
  behind : List Byte
  deriving DecidableEq, Repr

namespace Block

/-- What is read from the start of the block on. -/
def octets (b : Block) : List Byte := b.cells ++ b.behind

/-- An octet is written, in the block or behind it. -/
def write (b : Block) (i : ℕ) (c : Byte) : Block :=
  if i < b.cells.length then { b with cells := b.cells.set i c }
  else { b with behind := b.behind.set (i - b.cells.length) c }

/-- Octets are written one after the other, from index `i` on. -/
def copy (b : Block) (i : ℕ) : List Byte → Block
  | [] => b
  | c :: cs => (b.write i c).copy (i + 1) cs

/-- `strlen`, if there is a NUL to be found. -/
def strlen (b : Block) : Option ℕ := if 0 ∈ b.octets then some (cstr b.octets).length else none

/-- What a string function reads there. -/
structure Reads (b : Block) (bs : List Byte) : Prop where
  found : 0 ∈ b.octets
  text : cstr b.octets = bs

/-- **A proper string**: the octets and a NUL, inside of the block. -/
structure Holds (b : Block) (bs : List Byte) : Prop where
  text : b.cells.take bs.length = bs
  nul : b.cells[bs.length]? = some 0

end Block

/-- What a call of `malloc` gives for so many octets. -/
structure Allocator where
  malloc : ℕ → Block
  size : ∀ n, (malloc n).cells.length = n

/-! ## `list.c` and `stack.c` -/

/-- `list_append` -/
def listAppend (l : List Byte) (c : Byte) : List Byte := l ++ [c]

/-- The list that the octets have been appended to. -/
def appended (bs : List Byte) : List Byte := bs.foldl listAppend []

/-- `list_return_string` -/
def listReturnString (memory : Allocator) (l : List Byte) : Block :=
  (memory.malloc l.length).copy 0 l

/-- `list_ret_end_string` -/
def listRetEndString (memory : Allocator) (l : List Byte) : Block :=
  (memory.malloc l.length).copy 0 (l.take (l.length - 2))

/-- `stack_push`: the `data` of the nodes, the tail first. -/
def stackPush (memory : Allocator) (stack : List Block) (element : Block) : Option (List Block) :=
  element.strlen.map fun n =>
    ((memory.malloc n).copy 0 (element.octets.take n)).write n 0 :: stack

/-- `stack_peek`, if there is a tail. -/
def stackPeek (stack : List Block) : Option Block := stack.head?

/-! ## What is asked for -/

/-- The strings made of these octets are proper, on the stack too, and `strcmp` compares
just them.  `memory` is for the string of the list, and `memory'` for the node of the stack. -/
structure ProperStrings (memory memory' : Allocator) (bs : List Byte) : Prop where
  returned : (listReturnString memory (appended bs)).Holds bs
  ended : 2 ≤ bs.length →
    (listRetEndString memory (appended bs)).Holds (bs.take (bs.length - 2))
  pushed : ∀ stack element, element.Reads bs →
    ∃ data, (stackPush memory' stack element).bind stackPeek = some data ∧ data.Holds bs
  compared : cstr (listReturnString memory (appended bs)).octets = bs

/-! ## What is in memory -/

section
variable {memory : Allocator} {l : List Byte}

/-- A copy behind what is there fills the cells from there on. -/
theorem copy_append (pre cells behind cs : List Byte) (h : cs.length ≤ cells.length) :
    Block.copy ⟨pre ++ cells, behind⟩ pre.length cs =
      ⟨pre ++ cs ++ cells.drop cs.length, behind⟩ := by
  induction cs generalizing pre cells with
  | nil => rw [Block.copy, List.append_nil]; rfl
  | cons c cs ih =>
    cases cells with
    | nil => simp at h
    | cons d cells =>
      have hwrite : Block.write ⟨pre ++ d :: cells, behind⟩ pre.length c =
          ⟨pre ++ [c] ++ cells, behind⟩ := by
        unfold Block.write
        rw [if_pos (by simp), List.set_append_right _ _ (Nat.le_refl _), Nat.sub_self,
          List.set_cons_zero, List.append_assoc]
        rfl
      have hrest := ih (pre ++ [c]) cells (by simpa using h)
      rw [List.length_append, List.length_singleton] at hrest
      rw [Block.copy, hwrite, hrest]
      simp

/-- A copy to the start of a block. -/
theorem copy_eq (b : Block) {cs : List Byte} (h : cs.length ≤ b.cells.length) :
    b.copy 0 cs = ⟨cs ++ b.cells.drop cs.length, b.behind⟩ :=
  copy_append [] b.cells b.behind cs h

/-- **The block of `list_return_string`** is full of the octets. -/
theorem listReturnString_eq (memory : Allocator) (l : List Byte) :
    listReturnString memory l = ⟨l, (memory.malloc l.length).behind⟩ := by
  have hsize := memory.size l.length
  unfold listReturnString
  rw [copy_eq _ (by omega), List.drop_of_length_le (by omega), List.append_nil]

/-- **The block of `list_ret_end_string`** ends with two octets as `malloc` has found them. -/
theorem listRetEndString_eq (memory : Allocator) (l : List Byte) :
    listRetEndString memory l =
      ⟨l.take (l.length - 2) ++ (memory.malloc l.length).cells.drop (l.length - 2),
        (memory.malloc l.length).behind⟩ := by
  have hsize := memory.size l.length
  have hlen : (l.take (l.length - 2)).length = l.length - 2 := by
    rw [List.length_take]
    omega
  unfold listRetEndString
  rw [copy_eq _ (by omega), hlen]

/-- A string that fills its block has its NUL outside. -/
theorem not_holds_of_full {b : Block} {bs : List Byte} (h : b.cells.length ≤ bs.length) :
    ¬ b.Holds bs := by
  intro hholds
  have hnul := hholds.nul
  rw [List.getElem?_eq_none h] at hnul
  cases hnul

/-- The block of a node of the stack is full of the string. -/
theorem stackPush_eq (stack : List Block) {element : Block} (h : 0 ∈ element.octets) :
    stackPush memory stack element =
      some (⟨cstr element.octets, (memory.malloc (cstr element.octets).length).behind.set 0 0⟩ ::
        stack) := by
  have hsize := memory.size (cstr element.octets).length
  have htake : element.octets.take (cstr element.octets).length = cstr element.octets :=
    (List.prefix_iff_eq_take.mp (List.takeWhile_prefix _)).symm
  unfold stackPush Block.strlen
  rw [if_pos h, Option.map_some, htake, copy_eq _ (by omega), List.drop_of_length_le (by omega),
    List.append_nil]
  unfold Block.write
  rw [if_neg (Nat.lt_irrefl _), Nat.sub_self]

/-- **A node of the stack** reads as the string that was pushed, and has its NUL outside. -/
theorem peek_pushed (stack : List Block) {element : Block} {bs : List Byte}
    (h : element.Reads bs) : ∃ data, (stackPush memory stack element).bind stackPeek = some data ∧
      cstr data.octets = bs ∧ ¬ data.Holds bs := by
  obtain ⟨hfound, rfl⟩ := h
  rw [stackPush_eq stack hfound]
  refine ⟨_, rfl, ?_, not_holds_of_full (Nat.le_refl _)⟩
  generalize (memory.malloc (cstr element.octets).length).behind = behind
  show cstr (cstr element.octets ++ behind.set 0 0) = cstr element.octets
  rw [cstr_append (not_mem_cstr element.octets)]
  cases behind with
  | nil => exact List.append_nil _
  | cons d rest => exact List.append_nil _

/-! ## What `mime_msg` compares -/

/-- The comparison with the string of the collected octets. -/
theorem listIs_iff (memory : Allocator) (l s : List Byte) :
    listIs l (memory.malloc l.length).behind s = true ↔
      cstr (listReturnString memory l).octets = s := by
  rw [listReturnString_eq, listIs, decide_eq_true_iff]
  rfl

/-- The comparison without the two last octets. -/
theorem listEndIs_iff (memory : Allocator) (l s : List Byte) :
    listEndIs l ((memory.malloc l.length).cells.drop (l.length - 2) ++
        (memory.malloc l.length).behind) s = true ↔
      cstr (listRetEndString memory l).octets = s := by
  rw [listRetEndString_eq, listEndIs, decide_eq_true_iff, Block.octets, List.append_assoc]

/-- The string that `mime_msg` pushes. -/
theorem pushBoundary_eq (env : FilterEnv) (ctx : Ctx) (stack : List Block)
    (hbehind : env.behind ctx.strings = (memory.malloc ctx.boundaryName.length).behind)
    (h : 0 ∈ (listReturnString memory ctx.boundaryName).octets) :
    ∃ data, (stackPush memory stack (listReturnString memory ctx.boundaryName)).bind stackPeek =
      some data ∧ (pushBoundary env ctx).boundryStack = cstr data.octets :: ctx.boundryStack := by
  obtain ⟨data, hpush, hreads, -⟩ := @peek_pushed memory stack _ _ ⟨h, rfl⟩
  refine ⟨data, hpush, ?_⟩
  rw [hreads, listReturnString_eq, pushBoundary, hbehind]
  rfl

/-! ## No proper strings -/

/-- The octets appended to an empty list are those given. -/
theorem appended_eq (bs : List Byte) : appended bs = bs := by
  unfold appended
  induction bs using List.reverseRecOn with
  | nil => rfl
  | append_singleton bs b ih =>
    rw [List.foldl_append, ih]
    rfl

/-- The string that is returned ends where it should exactly when the octet behind it is NUL. -/
theorem listRetEndString_holds_iff (h : 2 ≤ l.length) :
    (listRetEndString memory l).Holds (l.take (l.length - 2)) ↔
      (memory.malloc l.length).cells[l.length - 2]? = some 0 := by
  have hlen : (l.take (l.length - 2)).length = l.length - 2 := by
    rw [List.length_take]
    omega
  have hnul :
    (l.take (l.length - 2) ++ (memory.malloc l.length).cells.drop (l.length - 2))[l.length - 2]? =
      (memory.malloc l.length).cells[l.length - 2]? := by
    rw [List.getElem?_append_right (by omega), hlen, Nat.sub_self, List.getElem?_drop, Nat.add_zero]
  rw [listRetEndString_eq]
  constructor
  · rintro ⟨-, hzero⟩
    rw [hlen] at hzero
    exact hnul.symm.trans hzero
  · intro hzero
    refine ⟨List.take_left, ?_⟩
    rw [hlen]
    exact hnul.trans hzero

/-- **Strings without an end**: for no octets are the strings proper.  The block of
`list_return_string` never holds its NUL, and that of a node of the stack neither; that of
`list_ret_end_string` does when `malloc` happens to have left one there; and what `strcmp`
reads is what the list has exactly when nothing but a NUL lies behind. -/
theorem strings_improper (memory memory' : Allocator) {bs : List Byte} (hbs : 0 ∉ bs) :
    ¬ ProperStrings memory memory' bs ∧ ¬ (listReturnString memory (appended bs)).Holds bs ∧
      (2 ≤ bs.length →
        ((listRetEndString memory (appended bs)).Holds (bs.take (bs.length - 2)) ↔
          (memory.malloc bs.length).cells[bs.length - 2]? = some 0)) ∧
      (∀ stack element, element.Reads bs → ∃ data,
        (stackPush memory' stack element).bind stackPeek = some data ∧ cstr data.octets = bs ∧
          ¬ data.Holds bs) ∧
      (cstr (listReturnString memory (appended bs)).octets = bs ↔
        cstr (memory.malloc bs.length).behind = []) := by
  have hfull : ¬ (listReturnString memory (appended bs)).Holds bs := by
    rw [appended_eq, listReturnString_eq]
    exact not_holds_of_full (Nat.le_refl _)
  refine ⟨fun h => hfull h.returned, hfull, ?_, fun stack element => peek_pushed stack, ?_⟩
  · rw [appended_eq]
    exact listRetEndString_holds_iff
  · rw [appended_eq, listReturnString_eq]
    show cstr (bs ++ (memory.malloc bs.length).behind) = bs ↔ _
    rw [cstr_append hbs, List.append_right_eq_self]

end

/-- Memory that was full of `x`. -/
def usedMemory : Allocator where
  malloc n := ⟨List.replicate n 120, [120, 0]⟩
  size _ := List.length_replicate

/-- `strcmp` reads `sepx` for `sep`. -/
theorem strings_improper_sep : ¬ ProperStrings usedMemory usedMemory (ascii "sep") ∧
    cstr (listReturnString usedMemory (appended (ascii "sep"))).octets ≠ ascii "sep" := by
  obtain ⟨himproper, -, -, -, hread⟩ :=
    @strings_improper usedMemory usedMemory (ascii "sep") (by decide)
  exact ⟨himproper, fun h => absurd (hread.mp h) (by decide)⟩

/-- The string of the list has no NUL in its block. -/
theorem string_unended : ¬ ∀ (memory memory' : Allocator) (bs : List Byte), 0 ∉ bs →
    ProperStrings memory memory' bs := by
  intro h
  have hnul := (h usedMemory usedMemory (ascii "sep") (by decide)).returned.nul
  revert hnul
  decide

end Pop3Proxy
