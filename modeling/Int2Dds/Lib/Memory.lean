import Mathlib.Data.List.Basic
import Mathlib.Data.Nat.ModEq

/-!
# Memory cells

`Memory α` says what each address holds. `load` reads a range of cells and `store` overwrites one.

* `load_store` : what was stored is read back; `load_congr` with `store_outside` : other ranges are not changed;
* `mod_ne_mod`, `add_mod_of_fits`, `add_sub_mod_mod` : cells of a ring of `n` addresses, where position `p` lives at
  `p % n`.
-/

namespace Int2Dds.Lib

/-- What each address holds. -/
def Memory (α : Type) : Type := Nat → α

namespace Memory

variable {α : Type} {m m' : Memory α} {off i n k : Nat} {xs : List α}

def load (m : Memory α) (off n : Nat) : List α := (List.range n).map (fun i => m (off + i))

def store (m : Memory α) (off : Nat) (xs : List α) : Memory α :=
  fun i => if off ≤ i then (xs[i - off]?).getD (m i) else m i

@[simp] theorem length_load : (m.load off n).length = n := by simp [load]

theorem store_inside (h : i < xs.length) : m.store off xs (off + i) = xs[i] := by
  simp [store, h]

theorem store_outside (h : i < off ∨ off + xs.length ≤ i) : m.store off xs i = m i := by
  rcases h with h | h
  · simp [store, Nat.not_le.2 h]
  · have hnone : xs[i - off]? = none := List.getElem?_eq_none (by omega)
    simp [store, hnone]

theorem load_congr (h : ∀ i < n, m (off + i) = m' (off + i)) : m.load off n = m'.load off n := by
  apply List.map_congr_left
  intro i hi
  exact h i (List.mem_range.1 hi)

theorem load_store : (m.store off xs).load off xs.length = xs := by
  apply List.ext_getElem
  · simp
  · intro i _ hi
    simp [load, store_inside hi]

end Memory

/-! ## Rings -/

theorem mod_ne_mod {n p q : Nat} (hpq : p < q) (hqn : q < p + n) : p % n ≠ q % n := by
  intro h
  have hdvd : n ∣ q - p := (Nat.modEq_iff_dvd' hpq.le).1 h
  have hle := Nat.le_of_dvd (by omega) hdvd
  omega

theorem add_mod_of_fits {n p i : Nat} (h : p % n + i < n) : (p + i) % n = p % n + i := by
  rw [Nat.add_mod, Nat.mod_eq_of_lt (by omega : i < n), Nat.mod_eq_of_lt h]

/-- The rest of a turn leads to the start of the next one. -/
theorem add_sub_mod_mod {n p : Nat} (h : 0 < n) : (p + (n - p % n)) % n = 0 := by
  have hlt := Nat.mod_lt p h
  have hsum : p + (n - p % n) = n * (p / n + 1) := by
    have hdiv := Nat.div_add_mod p n
    rw [Nat.mul_add]
    omega
  rw [hsum, Nat.mul_mod_right]

end Int2Dds.Lib
