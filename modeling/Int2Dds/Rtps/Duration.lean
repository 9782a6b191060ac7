import Int2Dds.Lib.Outcome
import Int2Dds.Rtps.Time
import Mathlib.Data.Int.Order.Basic

/-!
# The arithmetic of durations and times

* `fromNanos`, `fromMillis` : a quotient and a remainder, both rounded to zero and cast.
* `addParts`, `sub` : seconds and nanoseconds with a carry or a borrow, in checked arithmetic.
* `arithmetic_iff` : the operations agree with integer nanoseconds, except that a conversion is wrong for a negative
  number that is not whole seconds, and that the seconds are added before the carry.
-/

namespace Int2Dds.Rtps

open Lib Outcome

def IsI32 (n : Int) : Prop := - 2 ^ 31 ≤ n ∧ n < 2 ^ 31

instance (n : Int) : Decidable (IsI32 n) := inferInstanceAs (Decidable (_ ∧ _))

/-- `n as u32`. -/
def asU32 (n : Int) : Nat := (n % 2 ^ 32).toNat

def checkedI32 (n : Int) : Outcome Empty Int := if IsI32 n then pure n else panic

/-- A `Time` has the fields, the infinite value and the order of a `Duration`. -/
abbrev Time := Duration

namespace Duration

def infinite : Duration := ⟨0x7fffffff, 0x7fffffff⟩

def fromMillis (millis : Int) : Duration := ⟨(millis.tdiv 1000).bmod (2 ^ 32), asU32 (millis.tmod 1000 * 1000000)⟩

def fromNanos (nanos : Int) : Duration := ⟨(nanos.tdiv 1000000000).bmod (2 ^ 32), asU32 (nanos.tmod 1000000000)⟩

def addParts (d e : Duration) : Outcome Empty Duration := do
  let sec ← checkedI32 (d.sec + e.sec)
  let nanosec ← checked 32 (d.nanosec + e.nanosec)
  if 1000000000 ≤ nanosec then do
    let sec ← checkedI32 (sec + 1)
    pure ⟨sec, nanosec - 1000000000⟩
  else pure ⟨sec, nanosec⟩

protected def sub (d e : Duration) : Outcome Empty Duration := do
  let sec ← checkedI32 (d.sec - e.sec)
  let nanosec : Int := d.nanosec - e.nanosec
  if nanosec < 0 then do
    let sec ← checkedI32 (sec - 1)
    pure ⟨sec, asU32 (nanosec + 1000000000)⟩
  else pure ⟨sec, asU32 nanosec⟩

protected def add (d e : Duration) : Outcome Empty Duration :=
  if d.isInfinite || e.isInfinite then pure infinite else d.addParts e

def cmp (d e : Duration) : Ordering :=
  if d.isInfinite && e.isInfinite then .eq
  else if d.isInfinite then .gt
  else if e.isInfinite then .lt
  else (compare d.sec e.sec).then (compare d.nanosec e.nanosec)

end Duration

namespace Time

protected def add (t : Time) (d : Duration) : Outcome Empty Time :=
  if d.isInfinite then pure ⟨2 ^ 31 - 1, 999999999⟩ else Duration.addParts t d

protected def sub (t u : Time) : Outcome Empty Duration := Duration.sub t u

end Time

namespace Duration

def Normal (d : Duration) : Prop := IsI32 d.sec ∧ d.nanosec < 1000000000

/-- The operation returns the normal duration of `n` nanoseconds. -/
def Exact (x : Outcome Empty Duration) (n : Int) : Prop := ∃ r, x.result = .ok r ∧ r.Normal ∧ r.asNanos = n

variable {d e : Duration}

theorem Normal.not_isInfinite (h : d.Normal) : d.isInfinite = false := by
  have := h.2
  simp only [isInfinite, Bool.and_eq_false_iff, beq_eq_false_iff_ne]
  omega

theorem isI32_of_exact {n m : Int} {f : Int → Outcome Empty Duration} (h : Exact (checkedI32 n >>= f) m) :
    IsI32 n := by
  obtain ⟨r, hr, -⟩ := h
  by_contra hn
  rw [checkedI32, if_neg hn] at hr
  cases hr

/-- Rounded to zero, quotient and remainder are the rounded-down ones only for `0 ≤ n` or `q ∣ n`. -/
theorem cast_iff {n q unit : Int} (hq : 0 < q) (hfits : IsI32 (n / q)) (hpos : 0 < unit)
    (hunit : q * unit = 1000000000) :
    asU32 (n.tmod q * unit) < 1000000000 ∧
      (n.tdiv q).bmod (2 ^ 32) * 1000000000 + asU32 (n.tmod q * unit) = n * unit ↔ 0 ≤ n ∨ q ∣ n := by
  obtain ⟨h1, h2⟩ := hfits
  have hsplit : n * unit = n / q * 1000000000 + n % q * unit := by
    rw [← hunit, ← mul_assoc, ← add_mul, Int.ediv_mul_add_emod]
  have hlow : 0 ≤ n % q * unit := mul_nonneg (Int.emod_nonneg n hq.ne') hpos.le
  have hhigh : n % q * unit < 1000000000 := hunit ▸ mul_lt_mul_of_pos_right (Int.emod_lt_of_pos n hq) hpos
  rw [Int.tdiv_eq_ediv, Int.tmod_eq_emod]
  unfold asU32
  split_ifs with h
  · rw [Nat.cast_zero, sub_zero, add_zero, Int.bmod_eq_of_le (by omega) (by omega)]
    exact iff_of_true (by omega) h
  · have hrest : 0 < n % q * unit := by
      refine mul_pos (lt_of_le_of_ne (Int.emod_nonneg n hq.ne') fun h0 => h (.inr ?_)) hpos
      exact Int.dvd_of_emod_eq_zero h0.symm
    have hneg : (n % q - (q.natAbs : Int)) * unit = n % q * unit - 1000000000 := by
      rw [Int.natAbs_of_nonneg hq.le, ← hunit, Int.sub_mul]
    rw [hneg]
    refine iff_of_false ?_ h
    rintro ⟨hlt, -⟩
    omega

theorem exact_addParts_iff (hd : d.Normal) (he : e.Normal) (hfits : IsI32 ((d.asNanos + e.asNanos) / 1000000000)) :
    Exact (d.addParts e) (d.asNanos + e.asNanos) ↔ IsI32 (d.sec + e.sec) := by
  refine ⟨isI32_of_exact, fun hsec => ?_⟩
  unfold addParts checkedI32
  simp only [Normal, IsI32, asNanos] at hd he hfits
  rw [if_pos hsec, pure_bind, checked_of_lt (by omega), pure_bind]
  split_ifs with hcarry hnext
  · refine ⟨_, rfl, ⟨hnext, ?_⟩, ?_⟩ <;> simp only [asNanos] <;> omega
  · exact absurd (show IsI32 _ by unfold IsI32; omega) hnext
  · refine ⟨_, rfl, ⟨hsec, ?_⟩, ?_⟩ <;> simp only [asNanos] <;> omega

theorem exact_sub_iff (hd : d.Normal) (he : e.Normal) (hfits : IsI32 ((d.asNanos - e.asNanos) / 1000000000)) :
    Exact (d.sub e) (d.asNanos - e.asNanos) ↔ IsI32 (d.sec - e.sec) := by
  refine ⟨isI32_of_exact, fun hsec => ?_⟩
  unfold Duration.sub checkedI32
  simp only [Normal, IsI32, asNanos] at hd he hfits
  rw [if_pos hsec, pure_bind]
  simp only
  split_ifs with hborrow hnext
  · refine ⟨_, rfl, ⟨hnext, ?_⟩, ?_⟩ <;> simp only [asNanos, asU32] <;> omega
  · exact absurd (show IsI32 _ by unfold IsI32; omega) hnext
  · refine ⟨_, rfl, ⟨hsec, ?_⟩, ?_⟩ <;> simp only [asNanos, asU32] <;> omega

theorem cmp_eq (hd : d.Normal) (he : e.Normal) : d.cmp e = compare d.asNanos e.asNanos := by
  have hdn := hd.2
  have hen := he.2
  rw [cmp, asNanos, asNanos, hd.not_isInfinite, he.not_isInfinite]
  simp only [Bool.and_self, Bool.false_eq_true, if_false, LinearOrder.compare_eq_compareOfLessAndEq, compareOfLessAndEq]
  split_ifs <;> first | rfl | omega

theorem arithmetic_iff (n m : Int) (d e : Duration) :
    (IsI32 (n / 1000000000) →
      ((fromNanos n).nanosec < 1000000000 ∧ (fromNanos n).asNanos = n ↔ 0 ≤ n ∨ 1000000000 ∣ n)) ∧
    (IsI32 (m / 1000) →
      ((fromMillis m).nanosec < 1000000000 ∧ (fromMillis m).asNanos = m * 1000000 ↔ 0 ≤ m ∨ 1000 ∣ m)) ∧
    (d.Normal → e.Normal → d.cmp e = compare d.asNanos e.asNanos ∧
      (IsI32 ((d.asNanos + e.asNanos) / 1000000000) →
        (Exact (d.add e) (d.asNanos + e.asNanos) ↔ IsI32 (d.sec + e.sec)) ∧
        (Exact (Time.add d e) (d.asNanos + e.asNanos) ↔ IsI32 (d.sec + e.sec))) ∧
      (IsI32 ((d.asNanos - e.asNanos) / 1000000000) →
        (Exact (d.sub e) (d.asNanos - e.asNanos) ↔ IsI32 (d.sec - e.sec)) ∧
        (Exact (Time.sub d e) (d.asNanos - e.asNanos) ↔ IsI32 (d.sec - e.sec)))) := by
  refine ⟨fun h => ?_, fun h => ?_, fun hd he => ⟨cmp_eq hd he, fun hfits => ?_, fun hfits => ?_⟩⟩
  · have hcast := cast_iff (by decide) h one_pos (mul_one _)
    rwa [mul_one, mul_one] at hcast
  · exact cast_iff (by decide) h (by decide) rfl
  · have hadd := exact_addParts_iff hd he hfits
    simp only [Duration.add, Time.add, hd.not_isInfinite, he.not_isInfinite]
    exact ⟨hadd, hadd⟩
  · have hsub := exact_sub_iff hd he hfits
    exact ⟨hsub, hsub⟩

theorem fromNanos_minus_one :
    (fromNanos (-1)).nanosec = 2 ^ 32 - 1 ∧ (fromNanos (-1)).asNanos = 4294967295 := by decide

end Duration

end Int2Dds.Rtps
