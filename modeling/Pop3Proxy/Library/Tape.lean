/-
# Output tapes

An array that is written through a cursor.  Writing moves the cursor on; the
cursor can also be moved back to a cell that satisfies a condition, and what
stood behind it stays until it is overwritten.  Cells that were never written
are blank.
-/
import Mathlib.Data.List.Basic
import Mathlib.Tactic.Common

/-- The cells before the cursor, the nearest first, and those from the cursor on. -/
structure Tape (α : Type*) where
  left : List α
  right : List α
  deriving DecidableEq, Repr

namespace Tape

variable {α : Type*}

/-- Nothing is written, and the cursor is at the start. -/
def empty : Tape α := ⟨[], []⟩

/-- What is written before the cursor. -/
def written (t : Tape α) : List α := t.left.reverse

/-- Everything that was ever written. -/
def cells (t : Tape α) : List α := t.left.reverse ++ t.right

/-- A letter in the cell of the cursor, which goes on to the next. -/
def write (a : α) (t : Tape α) : Tape α := ⟨a :: t.left, t.right.tail⟩

/-- Letters one after the other. -/
def writeAll (as : List α) (t : Tape α) : Tape α := as.foldl (fun t a => t.write a) t

/-- A blank in the cell of the cursor. -/
def erase (blank : α) (t : Tape α) : Tape α := ⟨t.left, t.right.modifyHead fun _ => blank⟩

/-- The cursor goes back, cell by cell, until it stands on a cell that stops it. -/
def seek (blank : α) (stop : α → Bool) : List α → List α → Option (Tape α)
  | left, right =>
    if stop (right.headD blank) then some ⟨left, right⟩
    else match left with
      | [] => none
      | a :: left => seek blank stop left (a :: right)

@[simp] theorem written_empty : (empty : Tape α).written = [] := rfl

@[simp] theorem cells_empty : (empty : Tape α).cells = [] := rfl

@[simp] theorem written_write (a : α) (t : Tape α) : (t.write a).written = t.written ++ [a] := by
  simp [written, write]

@[simp] theorem written_writeAll (as : List α) (t : Tape α) :
    (t.writeAll as).written = t.written ++ as := by
  induction as generalizing t with
  | nil => simp [writeAll]
  | cons a as ih =>
    rw [writeAll, List.foldl_cons, ← writeAll, ih, written_write, List.append_assoc]
    rfl

@[simp] theorem length_cells_erase (blank : α) (t : Tape α) :
    (t.erase blank).cells.length = t.cells.length := by
  simp [cells, erase]

@[simp] theorem erase_empty (blank : α) : (empty : Tape α).erase blank = empty := rfl

@[simp] theorem written_erase (blank : α) (t : Tape α) : (t.erase blank).written = t.written := rfl

@[simp] theorem left_writeAll (as : List α) (t : Tape α) :
    (t.writeAll as).left = as.reverse ++ t.left := by
  induction as generalizing t with
  | nil => rfl
  | cons a as ih =>
    rw [writeAll, List.foldl_cons, ← writeAll, ih]
    simp [write]

@[simp] theorem right_writeAll (as : List α) (t : Tape α) :
    (t.writeAll as).right = t.right.drop as.length := by
  induction as generalizing t with
  | nil => rfl
  | cons a as ih =>
    rw [writeAll, List.foldl_cons, ← writeAll, ih]
    simp [write]

/-- The tape is as long as the cursor has come. -/
theorem length_cells_writeAll (as : List α) (t : Tape α) :
    (t.writeAll as).cells.length = max t.cells.length (t.left.length + as.length) := by
  simp only [cells, left_writeAll, right_writeAll, List.length_append, List.length_reverse,
    List.length_drop]
  omega

/-! ## Going back -/

section
variable {blank : α} {stop : α → Bool} {left right : List α} {t : Tape α}

/-- Going back rewrites nothing. -/
theorem cells_seek (h : seek blank stop left right = some t) : t.cells = left.reverse ++ right := by
  induction left generalizing right with
  | nil =>
    rw [seek] at h
    split_ifs at h
    rw [← Option.some.inj h]
    rfl
  | cons a left ih =>
    rw [seek] at h
    split_ifs at h
    · rw [← Option.some.inj h]
      rfl
    · rw [ih h]
      simp

/-- The cell of the cursor is none to stop at. -/
theorem not_stop_headD (hblank : stop blank = false) (hright : ∀ x ∈ right, stop x = false) :
    ¬ stop (right.headD blank) = true := by
  cases right with
  | nil => simp [hblank]
  | cons b right => simp [hright b (by simp)]

/-- With nothing to stop at on the right, the cursor goes back to the last cell that stops it. -/
theorem seek_found (hblank : stop blank = false) (hright : ∀ x ∈ right, stop x = false)
    {w p : List α} {a : α} (hw : ∀ x ∈ w, stop x = false) (ha : stop a = true) :
    seek blank stop (w ++ a :: p) right = some ⟨p, a :: (w.reverse ++ right)⟩ := by
  induction w generalizing right with
  | nil =>
    rw [List.nil_append, seek, if_neg (not_stop_headD hblank hright), seek.eq_def]
    simp [ha]
  | cons b w ih =>
    have hb : stop b = false := hw b (by simp)
    rw [List.cons_append, seek, if_neg (not_stop_headD hblank hright)]
    rw [ih (by simpa [hb] using hright) fun x hx => hw x (by simp [hx])]
    simp

/-- The first cell stays the first when it does not stop the cursor. -/
theorem getLast?_left_seek {a : α} (ha : stop a = false) (hleft : left.getLast? = some a)
    (h : seek blank stop left right = some t) : t.left.getLast? = some a := by
  induction left generalizing right with
  | nil => cases hleft
  | cons b left ih =>
    rw [seek] at h
    split_ifs at h
    · rw [← Option.some.inj h]
      exact hleft
    · cases left with
      | nil =>
        obtain rfl : b = a := by simpa using hleft
        rw [seek, if_neg (by simp [ha])] at h
        cases h
      | cons c left =>
        rw [List.getLast?_cons_cons] at hleft
        exact ih hleft h

/-- With nothing to stop at anywhere, it is lost. -/
theorem seek_lost (hblank : stop blank = false) (hright : ∀ x ∈ right, stop x = false)
    (hleft : ∀ x ∈ left, stop x = false) : seek blank stop left right = none := by
  induction left generalizing right with
  | nil => rw [seek, if_neg (not_stop_headD hblank hright)]
  | cons b left ih =>
    have hb : stop b = false := hleft b (by simp)
    rw [seek, if_neg (not_stop_headD hblank hright)]
    exact ih (by simpa [hb] using hright) fun x hx => hleft x (by simp [hx])

end

end Tape
