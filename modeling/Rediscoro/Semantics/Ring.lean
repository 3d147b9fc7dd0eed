import Mathlib.Data.List.Range
import Mathlib.Data.Nat.ModEq

/-! Cells read around the end.

A window of a list of cells starts anywhere and goes on at the front when it comes
to the end. It may be as long as the list, and then no cell is in it twice.
-/

set_option autoImplicit false

namespace Rediscoro.Semantics

variable {α : Type}

/-- The value in the cell `offset` places behind `head`. -/
def around (cells : List (Option α)) (head offset : Nat) : Option α :=
  (cells[(head + offset) % cells.length]?).join

def window (cells : List (Option α)) (head size : Nat) : List (Option α) :=
  (List.range size).map (around cells head)

section Window

variable {cells : List (Option α)} {head size offset other : Nat}

@[simp] theorem length_window : (window cells head size).length = size := by simp [window]

theorem window_succ : window cells head (size + 1) = window cells head size ++ [around cells head size] := by
  simp [window, List.range_succ]

/-- Before the window comes round, its places are distinct. -/
theorem place_inj (left : offset < cells.length) (right : other < cells.length)
    (same : (head + offset) % cells.length = (head + other) % cells.length) : offset = other :=
  Nat.ModEq.eq_of_lt_of_lt (Nat.ModEq.add_left_cancel' head same) left right

theorem around_set_self (room : 0 < cells.length) (value : Option α) :
    around (cells.set ((head + offset) % cells.length) value) head offset = value := by
  have inside : (head + offset) % cells.length < cells.length := Nat.mod_lt _ room
  simp [around, inside]

theorem around_set_of_ne (left : offset < cells.length) (right : other < cells.length) (apart : offset ≠ other)
    (value : Option α) :
    around (cells.set ((head + offset) % cells.length) value) head other = around cells head other := by
  have elsewhere : (head + offset) % cells.length ≠ (head + other) % cells.length :=
    fun same => apart (place_inj left right same)
  simp [around, elsewhere]

/-- A cell behind the window can be changed. -/
theorem window_set (inside : offset < cells.length) (outside : size ≤ offset) (value : Option α) :
    window (cells.set ((head + offset) % cells.length) value) head size = window cells head size := by
  apply List.map_congr_left
  intro other member
  have before : other < size := List.mem_range.mp member
  exact around_set_of_ne inside (by omega) (by omega) value

/-- The window grows by the cell behind it. -/
theorem window_push (room : size < cells.length) (value : α) :
    window (cells.set ((head + size) % cells.length) (some value)) head (size + 1) =
      window cells head size ++ [some value] := by
  rw [window_succ, window_set room (Nat.le_refl size), around_set_self (by omega)]

theorem around_next (offset : Nat) :
    around cells ((head + 1) % cells.length) offset = around cells head (offset + 1) := by
  rw [around, around, Nat.mod_add_mod, Nat.add_assoc, Nat.add_comm 1]

theorem window_cons :
    window cells head (size + 1) = around cells head 0 :: window cells ((head + 1) % cells.length) size := by
  rw [window, List.range_succ_eq_map, List.map_cons, List.map_map, window]
  congr 1
  apply List.map_congr_left
  intro offset _
  exact (around_next offset).symm

/-- The window loses its first cell, whatever is put there. -/
theorem window_pop (within : size < cells.length) (start : head < cells.length) (value : Option α) :
    window cells head (size + 1) = (cells[head]?).join ::
      window (cells.set head value) ((head + 1) % cells.length) size := by
  have first : around cells head 0 = (cells[head]?).join := by rw [around, Nat.add_zero, Nat.mod_eq_of_lt start]
  -- seen from the cell behind the first, the first is the last one round the list
  have last : head = ((head + 1) % cells.length + (cells.length - 1)) % cells.length := by
    rw [Nat.mod_add_mod, show head + 1 + (cells.length - 1) = head + cells.length by omega, Nat.add_mod_right,
      Nat.mod_eq_of_lt start]
  have untouched : window (cells.set (((head + 1) % cells.length + (cells.length - 1)) % cells.length) value)
      ((head + 1) % cells.length) size = window cells ((head + 1) % cells.length) size :=
    window_set (by omega) (by omega) value
  rw [← last] at untouched
  rw [window_cons, first, untouched]

/-- The cells in front, from the beginning. -/
theorem window_front (values rest : List (Option α)) : window (values ++ rest) 0 values.length = values := by
  apply List.ext_getElem
  · exact length_window
  · intro offset _ inside
    have place : (0 + offset) % (values ++ rest).length = offset := by
      rw [Nat.zero_add, Nat.mod_eq_of_lt]
      rw [List.length_append]
      omega
    simp only [window, List.getElem_map, List.getElem_range, around, place]
    rw [List.getElem?_append_left inside, List.getElem?_eq_getElem inside]
    rfl

end Window

end Rediscoro.Semantics
