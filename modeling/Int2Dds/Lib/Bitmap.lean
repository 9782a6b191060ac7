import Mathlib.Data.Finset.Card
import Mathlib.Data.Finset.Union
import Mathlib.Algebra.Group.Embedding
import Mathlib.Algebra.Order.Ring.Nat

/-!
# Finite sets of numbers as lists of machine words

Bit `i` of a bitmap is bit `i % w`, counted from the least significant end, of its word `i / w`.

* `members ws` : the set a bitmap denotes (`mem_members`), of cardinality `onesCount ws` (`card_members`);
* `setBit ws i` : the words grown to reach `i`, with bit `i` set (`members_setBit`);
* `cutAbove ws i` : every bit above `i` cleared (`members_cutAbove`).
-/

namespace Int2Dds.Lib.Bitmap

open List

variable {w : Nat}

def wordBits (a : BitVec w) : Finset Nat := (Finset.range w).filter (fun i => a.getLsbD i = true)

def popCount (a : BitVec w) : Nat := (wordBits a).card

def onesCount (ws : List (BitVec w)) : Nat := (ws.map popCount).sum

/-- Bit `i` of a bitmap; clear beyond its words. -/
def testBit (ws : List (BitVec w)) (i : Nat) : Bool :=
  match ws[i / w]? with
  | some a => a.getLsbD (i % w)
  | none => false

/-- The set a bitmap denotes. -/
def members : List (BitVec w) → Finset Nat
  | [] => ∅
  | a :: ws => wordBits a ∪ (members ws).map (addRightEmbedding w)

theorem testBit_cons_lt (a : BitVec w) (ws : List (BitVec w)) {i : Nat} (h : i < w) :
    testBit (a :: ws) i = a.getLsbD i := by
  simp [testBit, Nat.div_eq_of_lt h, Nat.mod_eq_of_lt h]

theorem testBit_cons_ge (hw : 0 < w) (a : BitVec w) (ws : List (BitVec w)) {i : Nat} (h : w ≤ i) :
    testBit (a :: ws) i = testBit ws (i - w) := by
  obtain ⟨j, rfl⟩ := Nat.exists_eq_add_of_le h
  simp [testBit, Nat.add_div_left j hw]

theorem mem_members (hw : 0 < w) {ws : List (BitVec w)} {i : Nat} : i ∈ members ws ↔ testBit ws i = true := by
  induction ws generalizing i with
  | nil => simp [members, testBit]
  | cons a ws ih =>
    simp only [members, Finset.mem_union, wordBits, Finset.mem_filter, Finset.mem_range, Finset.mem_map,
      addRightEmbedding_apply]
    by_cases h : i < w
    · rw [testBit_cons_lt a ws h]
      have : ¬ ∃ j ∈ members ws, j + w = i := by rintro ⟨j, -, rfl⟩; omega
      simp [h, this]
    · rw [testBit_cons_ge hw a ws (not_lt.1 h), ← ih]
      simp only [h, false_and, false_or]
      constructor
      · rintro ⟨j, hj, rfl⟩; simpa using hj
      · intro hj; exact ⟨i - w, hj, by omega⟩

theorem card_members (ws : List (BitVec w)) : (members ws).card = onesCount ws := by
  induction ws with
  | nil => rfl
  | cons a ws ih =>
    have hdisj : Disjoint (wordBits a) ((members ws).map (addRightEmbedding w)) := by
      rw [Finset.disjoint_left]
      intro i hi hm
      simp only [wordBits, Finset.mem_filter, Finset.mem_range] at hi
      obtain ⟨j, -, rfl⟩ := Finset.mem_map.1 hm
      simp only [addRightEmbedding_apply] at hi
      omega
    rw [members, Finset.card_union_of_disjoint hdisj, Finset.card_map, ih]
    rfl

/-! ## Setting a bit -/

/-- The words grown with zeros until there are `n` of them. -/
def grow (ws : List (BitVec w)) (n : Nat) : List (BitVec w) := ws ++ List.replicate (n - ws.length) 0

/-- Bit `i` set, after growing the bitmap to reach it. -/
def setBit (ws : List (BitVec w)) (i : Nat) : List (BitVec w) :=
  (grow ws (i / w + 1)).modify (i / w) (fun a => a ||| BitVec.twoPow w (i % w))

theorem testBit_grow (ws : List (BitVec w)) (n i : Nat) : testBit (grow ws n) i = testBit ws i := by
  unfold testBit grow
  rw [getElem?_append]
  split_ifs with h
  · rfl
  · rw [getElem?_eq_none (not_lt.1 h)]
    cases hg : (replicate (n - ws.length) (0 : BitVec w))[i / w - ws.length]? with
    | none => rfl
    | some a =>
      obtain rfl : a = 0 := eq_of_mem_replicate (mem_of_getElem? hg)
      simp

theorem testBit_setBit (hw : 0 < w) (ws : List (BitVec w)) (i j : Nat) :
    testBit (setBit ws i) j = (decide (j = i) || testBit ws j) := by
  have hlen : i / w < (grow ws (i / w + 1)).length := by
    simp only [grow, length_append, length_replicate]; omega
  rw [← testBit_grow ws (i / w + 1) j, setBit]
  generalize grow ws (i / w + 1) = vs at hlen
  unfold testBit
  rw [getElem?_modify]
  by_cases hq : i / w = j / w
  · have hsome : vs[j / w]? = some (vs.get ⟨j / w, hq ▸ hlen⟩) := getElem?_eq_getElem (hq ▸ hlen)
    have hji : i % w = j % w ↔ j = i := by
      constructor
      · intro hm
        rw [← Nat.div_add_mod i w, ← Nat.div_add_mod j w, hq, hm]
      · rintro rfl; rfl
    rw [hsome]
    simp only [Option.map_eq_map, Option.map_some, hq, if_true, BitVec.getLsbD_or, BitVec.getLsbD_twoPow,
      Nat.mod_lt i hw, decide_true, Bool.true_and, hji]
    rw [Bool.or_comm]
  · have hne : j ≠ i := by rintro rfl; exact hq rfl
    cases vs[j / w]? <;> simp [hq, hne]

theorem members_setBit (hw : 0 < w) (ws : List (BitVec w)) (i : Nat) :
    members (setBit ws i) = insert i (members ws) := by
  ext j
  rw [mem_members hw, testBit_setBit hw, Finset.mem_insert, mem_members hw]
  simp

/-! ## Clearing the bits above a number -/

/-- The bits above `i` cleared; a bitmap that does not reach `i` is left as it is. -/
def cutAbove (ws : List (BitVec w)) (i : Nat) : List (BitVec w) :=
  if i / w < ws.length then
    (ws.take (i / w + 1)).modify (i / w) (fun a => a &&& (BitVec.allOnes w >>> (w - 1 - i % w)))
  else ws

theorem testBit_eq_false_of_le {ws : List (BitVec w)} {i : Nat} (h : ws.length ≤ i / w) : testBit ws i = false := by
  simp [testBit, getElem?_eq_none h]

theorem testBit_cutAbove (hw : 0 < w) (ws : List (BitVec w)) (i j : Nat) :
    testBit (cutAbove ws i) j = (decide (j ≤ i) && testBit ws j) := by
  have hle : j ≤ i ↔ j / w < i / w ∨ (j / w = i / w ∧ j % w ≤ i % w) := by
    have h1 := Nat.div_add_mod i w
    have h2 := Nat.div_add_mod j w
    have h4 := Nat.mod_lt j hw
    constructor
    · intro h
      rcases Nat.lt_or_ge (j / w) (i / w) with hlt | hge
      · exact .inl hlt
      · have heq : j / w = i / w := le_antisymm (Nat.div_le_div_right h) hge
        rw [heq] at h2
        exact .inr ⟨heq, by omega⟩
    · rintro (hlt | ⟨heq, hm⟩)
      · have hmul : w * (j / w + 1) ≤ w * (i / w) := Nat.mul_le_mul_left w hlt
        rw [Nat.mul_add] at hmul
        omega
      · rw [heq] at h2
        omega
  unfold cutAbove
  split_ifs with hlen
  · unfold testBit
    rw [getElem?_modify, getElem?_take]
    rcases lt_trichotomy (j / w) (i / w) with hlt | heq | hgt
    · have hji : j ≤ i := hle.2 (.inl hlt)
      rw [if_pos (by omega)]
      cases ws[j / w]? <;> simp [hji, hlt.ne']
    · have h4 := Nat.mod_lt j hw
      cases ws[j / w]? with
      | none => simp
      | some a =>
        have hbit : decide (w - 1 - i % w + j % w < w) = decide (j ≤ i) := by
          rw [decide_eq_decide]; omega
        simp [heq, hbit, Bool.and_comm]
    · have hji : ¬ j ≤ i := fun h => by rcases hle.1 h with h | h <;> omega
      rw [if_neg (by omega)]
      simp [hji]
  · by_cases hji : j ≤ i
    · simp [hji]
    · rw [testBit_eq_false_of_le (by omega), Bool.and_false]

theorem members_cutAbove (hw : 0 < w) (ws : List (BitVec w)) (i : Nat) :
    members (cutAbove ws i) = (members ws).filter (fun j => j ≤ i) := by
  ext j
  rw [mem_members hw, testBit_cutAbove hw, Finset.mem_filter, mem_members hw]
  simp [and_comm]

end Int2Dds.Lib.Bitmap
