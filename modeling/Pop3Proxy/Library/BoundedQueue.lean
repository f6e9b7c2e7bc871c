/-
# Bounded queues

Letters wait in a store of fixed capacity, the first one in at the head.  The
room on offer can be less than the capacity leaves: what letters that were taken
leave behind is on offer again only once the store has been compacted, or once
no letter is left in it.
-/
import Mathlib.Data.List.Basic
import Mathlib.Tactic.Common

/-- The letters that wait, and the room on offer. -/
structure BoundedQueue (α : Type*) where
  capacity : ℕ
  items : List α
  room : ℕ
  fits : items.length + room ≤ capacity

namespace BoundedQueue

variable {α : Type*} (q : BoundedQueue α)

/-- Nothing is in it, and there is room for `n` letters. -/
def empty (n : ℕ) : BoundedQueue α := ⟨n, [], n, by simp⟩

/-- Letters go behind the others when there is room for all of them. -/
def offer (as : List α) : BoundedQueue α :=
  if h : as.length ≤ q.room then
    { q with
      items := q.items ++ as
      room := q.room - as.length
      fits := by
        have := q.fits
        rw [List.length_append]
        omega }
  else q

/-- The first `k` letters leave; with the last one all the room is back. -/
def release (k : ℕ) : BoundedQueue α :=
  if q.items.length ≤ k then empty q.capacity
  else
    { q with
      items := q.items.drop k
      fits := by
        have := q.fits
        rw [List.length_drop]
        omega }

/-- All the room is back, and the letters stay. -/
def compact : BoundedQueue α :=
  { q with
    room := q.capacity - q.items.length
    fits := by
      have := q.fits
      omega }

/-- The letters are given up. -/
def clear : BoundedQueue α := empty q.capacity

@[simp] theorem items_empty (n : ℕ) : (empty n : BoundedQueue α).items = [] := rfl
@[simp] theorem room_empty (n : ℕ) : (empty n : BoundedQueue α).room = n := rfl
@[simp] theorem capacity_empty (n : ℕ) : (empty n : BoundedQueue α).capacity = n := rfl

@[simp] theorem items_compact : q.compact.items = q.items := rfl
@[simp] theorem room_compact : q.compact.room = q.capacity - q.items.length := rfl
@[simp] theorem capacity_compact : q.compact.capacity = q.capacity := rfl

/-- What fits goes behind what is there. -/
theorem items_offer {as : List α} (h : as.length ≤ q.room) :
    (q.offer as).items = q.items ++ as := by
  rw [offer, dif_pos h]

/-- It takes its room. -/
theorem room_offer {as : List α} (h : as.length ≤ q.room) :
    (q.offer as).room = q.room - as.length := by
  rw [offer, dif_pos h]

/-- What does not fit is not taken. -/
theorem offer_full {as : List α} (h : ¬ as.length ≤ q.room) : q.offer as = q := dif_neg h

@[simp] theorem capacity_offer (as : List α) : (q.offer as).capacity = q.capacity := by
  rw [offer]
  split_ifs <;> rfl

@[simp] theorem items_release (k : ℕ) : (q.release k).items = q.items.drop k := by
  rw [release]
  split_ifs with h
  · exact (List.drop_eq_nil_of_le h).symm
  · rfl

/-- Letting go of everything starts over. -/
theorem release_all {k : ℕ} (h : q.items.length ≤ k) : q.release k = empty q.capacity := if_pos h

/-- Letting go of less makes no room. -/
theorem room_release {k : ℕ} (h : ¬ q.items.length ≤ k) : (q.release k).room = q.room := by
  rw [release, if_neg h]

@[simp] theorem capacity_release (k : ℕ) : (q.release k).capacity = q.capacity := by
  rw [release]
  split_ifs <;> rfl

end BoundedQueue
