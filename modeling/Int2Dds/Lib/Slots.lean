import Mathlib.Data.List.Basic

/-!
# Slots: a list cut into pieces of one size

`slot size xs i` is piece `i` of `xs`, the last piece being what is left. `overwrite` puts a list in place over a part
of another one of the same length. Both are read element by element: element `j` lies in slot `j / size`.
-/

namespace Int2Dds.Lib

open List

variable {α : Type} {xs ys : List α} {size off i j n : Nat}

/-! ## Writing in place -/

/-- `ys` over the elements of `xs` from `off` on. -/
def overwrite (xs : List α) (off : Nat) (ys : List α) : List α := xs.take off ++ (ys ++ xs.drop (off + ys.length))

theorem length_overwrite (h : off + ys.length ≤ xs.length) : (overwrite xs off ys).length = xs.length := by
  rw [overwrite, length_append, length_append, length_take, length_drop]
  omega

theorem getElem?_overwrite_inside (h : off + ys.length ≤ xs.length) (hj : j < ys.length) :
    (overwrite xs off ys)[off + j]? = ys[j]? := by
  have hoff : (xs.take off).length = off := by
    rw [length_take]
    omega
  rw [overwrite, getElem?_append_right (by omega), hoff, Nat.add_sub_cancel_left, getElem?_append_left hj]

theorem getElem?_overwrite_outside (h : off + ys.length ≤ xs.length) (hj : j < off ∨ off + ys.length ≤ j) :
    (overwrite xs off ys)[j]? = xs[j]? := by
  have hoff : (xs.take off).length = off := by
    rw [length_take]
    omega
  rcases hj with hj | hj
  · rw [overwrite, getElem?_append_left (by omega), getElem?_take_of_lt hj]
  · rw [overwrite, getElem?_append_right (by omega), getElem?_append_right (by omega), getElem?_drop]
    congr 1
    omega

/-! ## Slots -/

/-- Piece `i` of `xs`. -/
def slot (size : Nat) (xs : List α) (i : Nat) : List α := (xs.drop (i * size)).take size

theorem length_slot : (slot size xs i).length = min size (xs.length - i * size) := by
  rw [slot, length_take, length_drop]

theorem getElem?_slot (hj : j < size) : (slot size xs i)[j]? = xs[i * size + j]? := by
  rw [slot, getElem?_take_of_lt hj, getElem?_drop]

/-- `count` pieces from piece `i` on. -/
def slots (size : Nat) (xs : List α) (i count : Nat) : List α := (xs.drop (i * size)).take (count * size)

theorem length_slots {count : Nat} : (slots size xs i count).length = min (count * size) (xs.length - i * size) := by
  rw [slots, length_take, length_drop]

theorem slot_slots {count k : Nat} (hk : k < count) : slot size (slots size xs i count) k = slot size xs (i + k) := by
  have hroom : size ≤ count * size - k * size := by
    rw [← Nat.sub_mul]
    exact Nat.le_mul_of_pos_left size (by omega)
  rw [slot, slots, drop_take, drop_drop, take_take, Nat.min_eq_left hroom, slot, Nat.add_mul]

/-- How many pieces a list of `n` elements has. -/
def slotCount (size n : Nat) : Nat := n / size + if n % size ≠ 0 then 1 else 0

theorem lt_slotCount_iff (hsize : 0 < size) : i < slotCount size n ↔ i * size < n := by
  rw [slotCount]
  split_ifs with h
  · rw [Nat.lt_succ_iff, Nat.le_div_iff_mul_le hsize]
    constructor
    · intro hle
      refine Nat.lt_of_le_of_ne hle (fun heq => h ?_)
      rw [← heq, Nat.mul_mod_left]
    · exact Nat.le_of_lt
  · obtain ⟨q, rfl⟩ := Nat.dvd_of_mod_eq_zero (not_not.1 h)
    rw [Nat.mul_div_cancel_left q hsize, Nat.add_zero, Nat.mul_comm size q, Nat.mul_lt_mul_right hsize]

theorem div_eq_iff_slot (hsize : 0 < size) : j / size = i ↔ i * size ≤ j ∧ j < i * size + size := by
  rw [Nat.div_eq_iff hsize]
  omega

theorem div_lt_slotCount (hsize : 0 < size) (hj : j < n) : j / size < slotCount size n :=
  (lt_slotCount_iff hsize).2 (Nat.lt_of_le_of_lt (Nat.div_mul_le_self j size) hj)

theorem add_le_of_length_slot (hi : i * size < n) (hys : ys.length = min size (n - i * size)) :
    i * size + ys.length ≤ n := by
  omega

theorem getElem?_overwrite_slot (hsize : 0 < size) (hi : i * size < xs.length)
    (hys : ys.length = min size (xs.length - i * size)) :
    (overwrite xs (i * size) ys)[j]? = if j / size = i then ys[j - i * size]? else xs[j]? := by
  have hle := add_le_of_length_slot hi hys
  split_ifs with hj
  · rw [div_eq_iff_slot hsize] at hj
    obtain ⟨r, rfl⟩ := Nat.exists_eq_add_of_le hj.1
    rw [Nat.add_sub_cancel_left]
    by_cases hr : r < ys.length
    · exact getElem?_overwrite_inside hle hr
    · -- past the end of the last piece there is nothing
      rw [getElem?_eq_none (by rw [length_overwrite hle]; omega), getElem?_eq_none (by omega)]
  · rw [div_eq_iff_slot hsize] at hj
    exact getElem?_overwrite_outside hle (by omega)

end Int2Dds.Lib
