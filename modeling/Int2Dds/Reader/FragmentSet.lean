import Int2Dds.Lib.Bitmap
import Mathlib.Order.Interval.Finset.Nat

/-!
# The received fragments of one sample

`FragmentSet` keeps one bit per fragment number in words of 64 bits and counts its members in `len`. It denotes
`numbers`, a finite set: `contains` is membership (`contains_iff`), `len` its cardinality (`len_eq_card`), and
`insert`, `clear` and `truncate` act as insertion, emptying and restriction.
-/

namespace Int2Dds.Reader
open Lib

/-- Fragment numbers received, one bit each, with their number. -/
structure FragmentSet where
  words : List (BitVec 64)
  len : Nat
  len_eq : len = Bitmap.onesCount words
deriving DecidableEq

namespace FragmentSet

def new : FragmentSet := ⟨[], 0, rfl⟩

def contains (s : FragmentSet) (fragment : Nat) : Bool := Bitmap.testBit s.words fragment

def numbers (s : FragmentSet) : Finset Nat := Bitmap.members s.words

theorem contains_iff {s : FragmentSet} {f : Nat} : s.contains f = true ↔ f ∈ s.numbers :=
  (Bitmap.mem_members (by decide)).symm

variable (s : FragmentSet)

theorem len_eq_card : s.len = s.numbers.card := by
  rw [s.len_eq, numbers, Bitmap.card_members]

/-- The words with bit `fragment` set, and the count raised if it was clear. -/
def insert (s : FragmentSet) (fragment : Nat) : FragmentSet where
  words := Bitmap.setBit s.words fragment
  len := s.len + if s.contains fragment then 0 else 1
  len_eq := by
    rw [← Bitmap.card_members, Bitmap.members_setBit (by decide), s.len_eq, ← Bitmap.card_members]
    by_cases h : fragment ∈ Bitmap.members s.words
    · rw [if_pos (contains_iff.2 h), Finset.insert_eq_of_mem h]; rfl
    · rw [if_neg (fun hc => h (contains_iff.1 hc)), Finset.card_insert_of_notMem h]

def clear (_ : FragmentSet) : FragmentSet := new

/-- Drops every fragment above `lastFragment`; the count is taken again from the words. -/
def truncate (s : FragmentSet) (lastFragment : Nat) : FragmentSet :=
  ⟨Bitmap.cutAbove s.words lastFragment, Bitmap.onesCount (Bitmap.cutAbove s.words lastFragment), rfl⟩

@[simp] theorem numbers_new : new.numbers = ∅ := rfl

@[simp] theorem numbers_clear : s.clear.numbers = ∅ := rfl

@[simp] theorem numbers_insert (f : Nat) : (s.insert f).numbers = Insert.insert f s.numbers :=
  Bitmap.members_setBit (by decide) _ _

@[simp] theorem numbers_truncate (n : Nat) :
    (s.truncate n).numbers = s.numbers.filter (fun f => f ≤ n) := Bitmap.members_cutAbove (by decide) _ _

theorem mem_numbers_foldl_insert {fs : List Nat} {s : FragmentSet} {f : Nat} :
    f ∈ (fs.foldl insert s).numbers ↔ f ∈ fs ∨ f ∈ s.numbers := by
  induction fs generalizing s with
  | nil => simp
  | cons g fs ih =>
    rw [List.foldl_cons, ih, numbers_insert, Finset.mem_insert, List.mem_cons]
    tauto

theorem mem_numbers_of_len {s : FragmentSet} {total f : Nat} (hsub : ∀ g ∈ s.numbers, 1 ≤ g ∧ g ≤ total)
    (hlen : s.len = total) (h1 : 1 ≤ f) (h2 : f ≤ total) : f ∈ s.numbers := by
  have hss : s.numbers ⊆ Finset.Icc 1 total := fun g hg => Finset.mem_Icc.2 (hsub g hg)
  have hcard : (Finset.Icc 1 total).card ≤ s.numbers.card := by
    rw [Nat.card_Icc, ← len_eq_card]; omega
  rw [Finset.eq_of_subset_of_card_le hss hcard]
  exact Finset.mem_Icc.2 ⟨h1, h2⟩

end FragmentSet

end Int2Dds.Reader
