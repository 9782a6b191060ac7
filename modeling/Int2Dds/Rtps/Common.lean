import Mathlib.Data.BitVec
import Mathlib.Data.List.Basic
import Mathlib.Data.Prod.Lex
import Mathlib.Tactic.Linarith

/-!
# Sequence numbers, number sets and the count filter

* `SequenceNumber` : the two words of a sequence number. `toI64` is injective (`toI64_injective`) and carries `+=` to
  checked 64-bit addition (`map_toI64_addAssign`). The modules above this one therefore work with the `i64` value and
  `addI64`.

Arithmetic that overflows is a panic of the program: the function that computes it returns `none`.
-/

namespace Int2Dds.Rtps

open Option

/-! ## Sequence numbers -/

structure SequenceNumber where
  high : BitVec 32
  low : BitVec 32
deriving DecidableEq

/-- Addition on `i64` values; `none` on overflow. -/
def addI64 (v : Int) (n : Nat) : Option Int := if v + n < 2 ^ 63 then some (v + n) else none

theorem addI64_eq_some {v r : Int} {n : Nat} : addI64 v n = some r ↔ r = v + n ∧ v + n < 2 ^ 63 := by
  unfold addI64
  split_ifs with h
  · exact ⟨fun hr => ⟨(some.inj hr).symm, h⟩, fun hr => congrArg some hr.1.symm⟩
  · exact ⟨nofun, fun hr => absurd hr.2 h⟩

/-- `SequenceNumber::UNKNOWN`, the cursor of a reader that no message has told anything yet. -/
def snUnknown : Int := -2 ^ 32

namespace SequenceNumber

/-- `SequenceNumber::UNKNOWN`: high word -1, low word 0. -/
def unknown : SequenceNumber := ⟨-1, 0⟩

def toI64 (s : SequenceNumber) : Int := s.high.toInt * 2 ^ 32 + s.low.toNat

def fromI64 (v : Int) : SequenceNumber := ⟨BitVec.ofInt 32 (v / 2 ^ 32), BitVec.ofInt 32 v⟩

/-- `+=` with a `u32`: the carry out of the low word goes to the high word. -/
def addAssign (s : SequenceNumber) (n : BitVec 32) : Option SequenceNumber :=
  if s.low.toNat + n.toNat < 2 ^ 32 then some ⟨s.high, s.low + n⟩
  else if s.high.toInt + 1 < 2 ^ 31 then some ⟨s.high + 1, s.low + n⟩
  else none

theorem toI64_lt (s : SequenceNumber) : s.toI64 < 2 ^ 63 := by
  have := BitVec.toInt_lt (x := s.high)
  unfold toI64
  omega

theorem toI64_injective {s t : SequenceNumber} (h : s.toI64 = t.toI64) : s = t := by
  have hs := s.low.isLt
  have ht := t.low.isLt
  obtain ⟨sh, sl⟩ := s
  obtain ⟨th, tl⟩ := t
  simp only [toI64] at h hs ht
  have hh : sh.toInt = th.toInt := by omega
  have hl : sl.toNat = tl.toNat := by omega
  rw [BitVec.eq_of_toInt_eq hh, BitVec.eq_of_toNat_eq hl]

/-- `+=` is addition of the `i64` values, and it overflows exactly when that sum does. -/
theorem map_toI64_addAssign (s : SequenceNumber) (n : BitVec 32) :
    (s.addAssign n).map toI64 = addI64 s.toI64 n.toNat := by
  have hlow : (s.low + n).toNat = (s.low.toNat + n.toNat) % 2 ^ 32 := BitVec.toNat_add _ _
  have hmax := BitVec.toInt_lt (x := s.high)
  have hmin := BitVec.le_toInt s.high
  unfold addAssign addI64 toI64
  split_ifs with h1 h2 h3 h4 h5
  · simp only [map_some]
    congr 1; omega
  · omega
  · have hhigh : (s.high + 1).toInt = s.high.toInt + 1 := by
      rw [BitVec.toInt_add, show (1 : BitVec 32).toInt = 1 from rfl,
        Int.bmod_eq_of_le (by omega) (by omega)]
    simp only [map_some]
    congr 1; omega
  · omega
  · omega
  · rfl

end SequenceNumber

/-! ## Number sets -/

/-- A set of numbers from `bitmapBase` on, one bit each. -/
structure NumberSet (τ : Type) where
  bitmapBase : τ
  bitmap : List (BitVec 32)
  numBits : Nat
  bitmap_length : bitmap.length = 8
deriving DecidableEq

namespace NumberSet

variable {τ : Type}

/-- `numBits.div_ceil(32)`. -/
def numOfLongs (s : NumberSet τ) : Nat := (s.numBits + 31) / 32

/-- The bit positions `extract_numbers` visits and finds set, in its order. -/
def setPositions (s : NumberSet τ) : List Nat :=
  (s.bitmap.take s.numOfLongs).zipIdx.flatMap fun (num, idx) =>
    ((List.range 32).map (fun j => (j, idx * 32 + j))).filterMap fun (j, bitPosition) =>
      if bitPosition < s.numBits ∧ num.getMsbD j = true then some bitPosition else none

/-- The numbers in the set. `add` is the number type's addition. -/
def extractNumbers (add : τ → Nat → Option τ) (s : NumberSet τ) : Option (List τ) :=
  s.setPositions.mapM (add s.bitmapBase)

theorem mem_of_mapM_eq_some {α β : Type} {f : α → Option β} {l : List α} {r : List β} (h : l.mapM f = some r)
    {y : β} (hy : y ∈ r) : ∃ x ∈ l, f x = some y := by
  induction l generalizing r with
  | nil =>
    simp only [List.mapM_nil, pure_def, some.injEq] at h
    rw [← h] at hy
    cases hy
  | cons a l ih =>
    simp only [List.mapM_cons, bind_eq_bind, bind_eq_some_iff] at h
    grind

/-- 9.4.2.6 and 9.4.2.8: a base of at least one, at most 256 bits, and no bit in a word that is not sent. -/
def isValid (isValidBase : τ → Bool) (s : NumberSet τ) : Bool :=
  isValidBase s.bitmapBase && decide (s.numBits ≤ 256) && (s.bitmap.drop s.numOfLongs).all (· == 0)

end NumberSet

/-- Sequence number sets, by the `i64` value of their base. -/
abbrev SequenceNumberSet := NumberSet Int

def SequenceNumberSet.isValid (s : SequenceNumberSet) : Bool := NumberSet.isValid (fun base => decide (1 ≤ base)) s

def SequenceNumberSet.extractNumbers (s : SequenceNumberSet) : Option (List Int) :=
  NumberSet.extractNumbers addI64 s

theorem SequenceNumberSet.base_pos {s : SequenceNumberSet} (h : s.isValid = true) : 1 ≤ s.bitmapBase := by
  simp only [SequenceNumberSet.isValid, NumberSet.isValid, Bool.and_eq_true, decide_eq_true_eq] at h
  exact h.1.1

theorem SequenceNumberSet.base_le {s : SequenceNumberSet} {numbers : List Int} (h : s.extractNumbers = some numbers)
    {n : Int} (hn : n ∈ numbers) : s.bitmapBase ≤ n := by
  obtain ⟨i, -, hi⟩ := NumberSet.mem_of_mapM_eq_some h hn
  obtain ⟨rfl, -⟩ := addI64_eq_some.1 hi
  omega

/-! ## Names -/

structure Guid where
  guidPrefix : BitVec 96
  entityId : BitVec 32
deriving DecidableEq

structure InstanceHandle where
  value : BitVec 128
  isDefined : Bool
deriving DecidableEq

namespace InstanceHandle

def nil : InstanceHandle := ⟨0, false⟩

def isNil (h : InstanceHandle) : Bool := h == nil

/-- The derived order: by value, then by `isDefined`. -/
def rank (h : InstanceHandle) : ℕ ×ₗ Bool := toLex (h.value.toNat, h.isDefined)

theorem rank_injective : Function.Injective rank := by
  rintro ⟨v, d⟩ ⟨w, e⟩ h
  obtain ⟨hv, rfl⟩ := Prod.mk.inj (toLex.injective h)
  obtain rfl : v = w := BitVec.eq_of_toNat_eq hv
  rfl

instance : LinearOrder InstanceHandle := LinearOrder.lift' rank rank_injective

end InstanceHandle

/-! ## The count filter -/

/-- `COUNT_RESET_ACCEPT_AFTER`, in nanoseconds. -/
def countResetAcceptAfter : Nat := 200000000

/-- Whether a HEARTBEAT or ACKNACK count is taken. Times are nanoseconds. -/
def shouldAcceptCount (newCount : BitVec 32) (prevCount : Option (BitVec 32)) (lastAcceptedAt : Option Nat)
    (isPreemptive : Bool) (now : Nat) : Bool :=
  if isPreemptive then true
  else match prevCount with
    | none => true
    | some prev =>
      if 0 < (newCount - prev).toInt then true
      else match lastAcceptedAt with
        | some t => decide (countResetAcceptAfter ≤ now - t)
        | none => false

end Int2Dds.Rtps
