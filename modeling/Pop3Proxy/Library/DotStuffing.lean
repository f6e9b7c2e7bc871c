/-
# Dot-stuffed text

A text is a list of lines.  It is sent with an end of line after every line and
a dot in front of every line that starts with one; a line that is a single dot
closes it.  The letters and the three marks are arbitrary.
-/
import Mathlib.Data.List.Basic
import Mathlib.Tactic.Common

namespace DotStuffing

section
variable {α : Type*} (dot cr lf : α)

/-- The text itself: every line with its end. -/
def text (lines : List (List α)) : List α := lines.flatMap (· ++ [cr, lf])

@[simp] theorem text_nil : text cr lf ([] : List (List α)) = [] := rfl

@[simp] theorem text_cons (line : List α) (lines : List (List α)) :
    text cr lf (line :: lines) = line ++ [cr, lf] ++ text cr lf lines := rfl

/-- A line starts behind these letters. -/
def LineStart (seen : List α) : Prop := seen = [] ∨ [cr, lf] <:+ seen

section
variable {cr lf}

/-- Nothing stands between two ends of line that are the first ones. -/
theorem endOfLine_first (hne : cr ≠ lf) {w x y : List α} (hw : ¬ [cr, lf] <:+: w)
    (h : [cr, lf] ++ x = w ++ ([cr, lf] ++ y)) : w = [] := by
  cases w with
  | nil => rfl
  | cons a w =>
    obtain ⟨rfl, hrest⟩ := List.cons.inj h
    cases w with
    | nil => exact absurd (List.cons.inj hrest).1.symm hne
    | cons b w =>
      obtain ⟨rfl, -⟩ := List.cons.inj hrest
      exact absurd ⟨[], w, rfl⟩ hw

/-- A text is its first line and the others. -/
theorem firstLine_unique (hne : cr ≠ lf) {line line' x y : List α} (hline : ¬ [cr, lf] <:+: line)
    (hline' : ¬ [cr, lf] <:+: line') (h : line ++ [cr, lf] ++ x = line' ++ [cr, lf] ++ y) :
    line = line' ∧ x = y := by
  have hsame : line = line' := by
    rw [List.append_assoc, List.append_assoc] at h
    rcases List.append_eq_append_iff.mp h with ⟨w, rfl, hw⟩ | ⟨w, rfl, hw⟩
    · rw [endOfLine_first hne
        (fun hin => hline' (hin.trans (List.suffix_append line w).isInfix)) hw,
        List.append_nil]
    · rw [endOfLine_first hne
        (fun hin => hline (hin.trans (List.suffix_append line' w).isInfix)) hw,
        List.append_nil]
  subst hsame
  exact ⟨rfl, List.append_cancel_left h⟩

end

variable [DecidableEq α]

/-- The line as it is sent. -/
def stuff (line : List α) : List α := if line.head? = some dot then dot :: line else line

/-- The text as it is sent. -/
def encode (lines : List (List α)) : List α :=
  text cr lf (lines.map (stuff dot)) ++ [dot, cr, lf]

/-- A line that starts with a dot is sent with another one. -/
theorem stuff_dot (line : List α) : stuff dot (dot :: line) = dot :: dot :: line := by
  simp [stuff]

theorem stuff_of_ne {a : α} (h : a ≠ dot) (line : List α) : stuff dot (a :: line) = a :: line := by
  simp [stuff, h]

@[simp] theorem stuff_nil : stuff dot ([] : List α) = [] := rfl

/-! ## Letter by letter -/

instance (seen : List α) : Decidable (LineStart cr lf seen) :=
  inferInstanceAs (Decidable (_ ∨ _))

/-- The letters behind those seen, with a dot in front of every dot that starts a line. -/
def stuffBehind (seen : List α) : List α → List α
  | [] => []
  | a :: as =>
    (if a = dot ∧ LineStart cr lf seen then [dot] else []) ++ a :: stuffBehind (seen ++ [a]) as

variable {dot cr lf : α}

/-! ## Where a text starts -/

/-- A line that is sent has no end of line in it. -/
theorem stuff_free (hcr : dot ≠ cr) {line : List α} (hline : ¬ [cr, lf] <:+: line) :
    ¬ [cr, lf] <:+: stuff dot line := by
  unfold stuff
  split_ifs
  · intro hin
    rcases List.infix_cons_iff.mp hin with hpre | hin
    · exact hcr (List.cons_prefix_cons.mp hpre).1.symm
    · exact hline hin
  · exact hline

/-- Nor is it taken for the last one. -/
theorem stuff_ne (line : List α) : stuff dot line ≠ [dot] := by
  unfold stuff
  split_ifs with hhead
  · intro h
    obtain rfl : line = [] := (List.cons.inj h).2
    cases hhead
  · rintro rfl
    exact hhead rfl

/-- **A text does not start one line later**: behind another line, the lines of the text are not
met from the start. -/
theorem not_prefix_behind (hne : cr ≠ lf) (hcr : dot ≠ cr) {lines : List (List α)}
    (hlines : ∀ line ∈ lines, ¬ [cr, lf] <:+: line) {first : List α}
    (hfirst : ¬ [cr, lf] <:+: first) (hdot : first ≠ [dot]) :
    ¬ encode dot cr lf lines <+: first ++ [cr, lf] ++ encode dot cr lf lines := by
  -- each line would be the one before it, and the closing one the last line
  induction lines generalizing first with
  | nil =>
    rintro ⟨rest, h⟩
    have hfree : ¬ [cr, lf] <:+: [dot] := fun hin => by simpa using hin.length_le
    exact hdot (firstLine_unique hne hfree hfirst h).1.symm
  | cons line lines ih =>
    rintro ⟨rest, h⟩
    have hfree := stuff_free hcr (hlines line List.mem_cons_self)
    have hsplit (x : List α) : encode dot cr lf (line :: lines) ++ x =
        stuff dot line ++ [cr, lf] ++ (encode dot cr lf lines ++ x) := by
      simp [encode]
    rw [hsplit rest] at h
    obtain ⟨hsame, hrest⟩ := firstLine_unique hne hfree hfirst h
    rw [← List.append_nil (encode dot cr lf (line :: lines)), hsplit [], List.append_nil] at hrest
    exact ih (fun l hl => hlines l (List.mem_cons_of_mem _ hl)) hfree (stuff_ne line) ⟨rest, hrest⟩

end

end DotStuffing
