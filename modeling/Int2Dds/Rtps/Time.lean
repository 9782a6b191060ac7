import Mathlib.Data.BitVec
import Mathlib.Order.Basic
import Mathlib.Tactic.Linarith

/-!
# Times and durations

`RtpsTime` is a point in time in seconds and 2^-32 seconds, with two reserved values. They stand at the ends of
the order: `INVALID` below every time and `INFINITE` above. `rank` is the place of a time in that order.
`Duration` is the duration type of the QoS policies.
-/

namespace Int2Dds.Rtps

structure RtpsTime where
  seconds : BitVec 32
  fraction : BitVec 32
deriving DecidableEq

namespace RtpsTime

def isInfinite (t : RtpsTime) : Bool := t.seconds == 0xffffffff#32 && t.fraction == 0xfffffffe#32

def isInvalid (t : RtpsTime) : Bool := t.seconds == 0xffffffff#32 && t.fraction == 0xffffffff#32

/-- The place of a time in the order of the source. -/
def rank (t : RtpsTime) : Nat :=
  if t.isInvalid then 0
  else if t.isInfinite then 2 ^ 64 + 1
  else 1 + t.seconds.toNat * 2 ^ 32 + t.fraction.toNat

theorem rank_injective : Function.Injective rank := by
  rintro ⟨s, f⟩ ⟨s', f'⟩ h
  have hwords : s.toNat = s'.toNat ∧ f.toNat = f'.toNat := by
    simp only [rank, isInvalid, isInfinite, Bool.and_eq_true, beq_iff_eq] at h
    split_ifs at h with hi hi' _ hn _ hn' <;> try omega
    · rw [hi.1, hi.2, hi'.1, hi'.2]
      exact ⟨rfl, rfl⟩
    · rw [hn.1, hn.2, hn'.1, hn'.2]
      exact ⟨rfl, rfl⟩
  obtain ⟨hsec, hfrac⟩ := hwords
  rw [BitVec.eq_of_toNat_eq hsec, BitVec.eq_of_toNat_eq hfrac]

instance : LinearOrder RtpsTime := LinearOrder.lift' rank rank_injective

def nanosec (t : RtpsTime) : Nat :=
  if t.fraction = 0xffffffff#32 then 2 ^ 32 - 1 else (t.fraction.toNat * 1000000000 + 2 ^ 31) / 2 ^ 32

/-- `nano_to_frac` of the nanoseconds in a second. -/
def nanoToFrac (nano : Nat) : BitVec 32 := BitVec.ofNat 32 ((nano * 2 ^ 32 + 500000000) / 1000000000)

def toNanos (t : RtpsTime) : Nat :=
  if t.isInfinite || t.isInvalid then 2 ^ 64 - 1 else t.seconds.toNat * 1000000000 + t.nanosec

def fromNanos (nanos : Nat) : RtpsTime :=
  ⟨BitVec.ofNat 32 (nanos / 1000000000), nanoToFrac (nanos % 1000000000)⟩

def addNanos (t : RtpsTime) (nanos : Nat) : RtpsTime :=
  if t.isInfinite || t.isInvalid then t else fromNanos (min (t.toNanos + nanos) (2 ^ 64 - 1))

/-! ### Rounding -/

/-- Not one of the reserved values. -/
def Proper (t : RtpsTime) : Prop := t.isInvalid = false ∧ t.isInfinite = false

instance (t : RtpsTime) : Decidable t.Proper := inferInstanceAs (Decidable (_ ∧ _))

/-- A time in units of 2^-32 seconds. -/
def units (t : RtpsTime) : Nat := t.seconds.toNat * 2 ^ 32 + t.fraction.toNat

/-- The nanoseconds after which the seconds of `fromNanos` start over. -/
def cycle : Nat := 1000000000 * 2 ^ 32

/-- What `addNanos` adds: the sum is cut at the end of a `u64`. -/
def added (t : RtpsTime) (n : Nat) : Nat := min n (2 ^ 64 - 1 - t.toNanos)

/-- How often the seconds of the sum start over. -/
def laps (t : RtpsTime) (n : Nat) : Nat := (t.toNanos + t.added n) / cycle

/-- The nearest nanosecond lies below the fraction, by more than half of 2^-32 seconds. -/
def RoundsDown (t : RtpsTime) : Prop :=
  500000000 < t.fraction.toNat * 1000000000 % 2 ^ 32 ∧ t.fraction.toNat * 1000000000 % 2 ^ 32 < 2 ^ 31

instance (t : RtpsTime) : Decidable t.RoundsDown := inferInstanceAs (Decidable (_ ∧ _))

variable {a b t : RtpsTime}

theorem le_iff_units (ha : a.Proper) (hb : b.Proper) : a ≤ b ↔ a.units ≤ b.units := by
  have hle : a ≤ b ↔ a.rank ≤ b.rank := Iff.rfl
  have hrank {t : RtpsTime} (ht : t.Proper) : t.rank = 1 + t.units := by
    rw [rank, ht.1, ht.2, units, Nat.add_assoc]
    rfl
  rw [hle, hrank ha, hrank hb]
  omega

theorem toNanos_of_proper (ht : t.Proper) : t.toNanos = t.seconds.toNat * 1000000000 + t.nanosec := by
  rw [toNanos, ht.1, ht.2]
  rfl

/-- No nanosecond rounds to one of the last three units of a second. -/
theorem fraction_fromNanos (x : Nat) :
    (fromNanos x).fraction.toNat = (x % 1000000000 * 2 ^ 32 + 500000000) / 1000000000 ∧
    (fromNanos x).fraction.toNat ≤ 4294967292 := by
  have hr : x % 1000000000 ≤ 999999999 := Nat.le_of_lt_succ (Nat.mod_lt x (by decide))
  have hle : (x % 1000000000 * 2 ^ 32 + 500000000) / 1000000000 ≤ 4294967292 :=
    Nat.div_le_div_right (c := 1000000000) (Nat.add_le_add_right (Nat.mul_le_mul_right _ hr) _)
  have heq : (fromNanos x).fraction.toNat = (x % 1000000000 * 2 ^ 32 + 500000000) / 1000000000 :=
    (BitVec.toNat_ofNat _ _).trans (Nat.mod_eq_of_lt (Nat.lt_of_le_of_lt hle (by decide)))
  exact ⟨heq, heq.trans_le hle⟩

theorem units_fromNanos (x : Nat) : (fromNanos x).units = (x % cycle * 2 ^ 32 + 500000000) / 1000000000 := by
  have hsplit : x % cycle * 2 ^ 32 + 500000000 =
      x % 1000000000 * 2 ^ 32 + 500000000 + 1000000000 * (x / 1000000000 % 2 ^ 32 * 2 ^ 32) := by
    rw [cycle, Nat.mod_mul]
    omega
  rw [hsplit, Nat.add_mul_div_left _ _ (by decide), units, (fraction_fromNanos x).1, Nat.add_comm]
  exact congrArg (_ + · * _) (BitVec.toNat_ofNat _ _)

theorem proper_fromNanos (x : Nat) : (fromNanos x).Proper := by
  have hlt := (fraction_fromNanos x).2
  have hne (f : BitVec 32) (hf : 4294967292 < f.toNat) : ((fromNanos x).fraction == f) = false := by
    rw [beq_eq_false_iff_ne]
    rintro rfl
    exact absurd hlt (Nat.not_le.2 hf)
  rw [Proper, isInvalid, isInfinite, hne _ (by decide), hne _ (by decide), Bool.and_false]
  exact ⟨rfl, rfl⟩

theorem toNanos_fromNanos {x : Nat} (hx : x < cycle) : (fromNanos x).toNanos = x := by
  obtain ⟨hfraction, hlt⟩ := fraction_fromNanos x
  have hlast : (fromNanos x).fraction ≠ 0xffffffff#32 := by
    intro h
    rw [h] at hlt
    exact absurd hlt (by decide)
  have hseconds : (fromNanos x).seconds.toNat = x / 1000000000 % 2 ^ 32 := BitVec.toNat_ofNat _ _
  have hnearest (r : Nat) : ((r * 2 ^ 32 + 500000000) / 1000000000 * 1000000000 + 2 ^ 31) / 2 ^ 32 = r := by omega
  have hmax : x / 1000000000 < 2 ^ 32 := Nat.div_lt_of_lt_mul hx
  rw [toNanos_of_proper (proper_fromNanos x), nanosec, if_neg hlast, hfraction, hnearest, hseconds,
    Nat.mod_eq_of_lt hmax, Nat.mul_comm, Nat.div_add_mod]

theorem fromNanos_le_iff (x y : Nat) : fromNanos x ≤ fromNanos y ↔ x % cycle ≤ y % cycle := by
  rw [le_iff_units (proper_fromNanos x) (proper_fromNanos y), units_fromNanos, units_fromNanos]
  omega

/-- The last fraction of a second counts for more than four seconds. -/
theorem toNanos_le_iff (ha : a.Proper) (hb : b.Proper) (hab : a ≤ b) : a.toNanos ≤ b.toNanos ↔
    (a.fraction = 0xffffffff#32 → b.fraction = 0xffffffff#32 ∨
      (a.seconds.toNat * 1000000000 + (2 ^ 32 - 1)) * 2 ^ 32 ≤ b.units * 1000000000 + 2 ^ 31) := by
  rw [le_iff_units ha hb] at hab
  rw [toNanos_of_proper ha, toNanos_of_proper hb]
  have hf := a.fraction.isLt
  have hf' := b.fraction.isLt
  have hlast (f : BitVec 32) : f = 0xffffffff#32 ↔ f.toNat = 4294967295 := BitVec.toNat_inj.symm
  simp only [nanosec, units, hlast] at *
  generalize a.fraction.toNat = f, b.fraction.toNat = f' at *
  split_ifs with h h' h' <;> omega

theorem toNanos_lt (ht : t.Proper) : t.toNanos < 2 * cycle := by
  have hs := t.seconds.isLt
  have hf := t.fraction.isLt
  rw [toNanos_of_proper ht, nanosec, cycle]
  generalize t.fraction.toNat = f at *
  split_ifs <;> omega

theorem addNanos_eq (ht : t.Proper) (n : Nat) : t.addNanos n = fromNanos (t.toNanos + t.added n) := by
  have hlt := toNanos_lt ht
  have hsum : min (t.toNanos + n) (2 ^ 64 - 1) = t.toNanos + t.added n := by
    unfold added cycle at *
    omega
  rw [addNanos, ht.1, ht.2, hsum]
  rfl

theorem addNanos_le_iff (ha : a.Proper) (hb : b.Proper) (hab : a.toNanos ≤ b.toNanos) (n : Nat) :
    a.addNanos n ≤ b.addNanos n ↔ b.laps n = a.laps n ∨
      b.laps n = a.laps n + 1 ∧ a.toNanos + a.added n + cycle ≤ b.toNanos + b.added n := by
  have hlt := toNanos_lt hb
  have hle :
      a.toNanos + a.added n ≤ b.toNanos + b.added n ∧ b.toNanos + b.added n < a.toNanos + a.added n + 2 * cycle := by
    unfold added cycle at *
    omega
  rw [addNanos_eq ha, addNanos_eq hb, fromNanos_le_iff, laps, laps]
  generalize a.toNanos + a.added n = x, b.toNanos + b.added n = y at hle
  unfold cycle at *
  omega

/-- The last fraction of a second gains almost 3.3 seconds. -/
theorem le_addNanos_iff (ha : a.Proper) (n : Nat) : a ≤ a.addNanos n ↔
    a.laps n * cycle < a.added n ∨ a.laps n * cycle = a.added n ∧ ¬ a.RoundsDown ∨
      a.fraction = 0xffffffff#32 ∧ a.laps n * cycle ≤ a.added n + 3294967295 := by
  have hlaps := Nat.div_add_mod' (a.toNanos + a.added n) cycle
  rw [addNanos_eq ha, le_iff_units ha (proper_fromNanos _), units_fromNanos, Nat.le_div_iff_mul_le (by decide), laps]
  generalize (a.toNanos + a.added n) % cycle = rest, (a.toNanos + a.added n) / cycle * cycle = lost at *
  rw [toNanos_of_proper ha, nanosec] at hlaps
  have hlast : a.fraction = 0xffffffff#32 ↔ a.fraction.toNat = 4294967295 := BitVec.toNat_inj.symm
  simp only [hlast, units, RoundsDown] at *
  generalize a.fraction.toNat = f, a.seconds.toNat = s, a.added n = m at *
  -- the quotient of the nanoseconds, rounded down and to the nearest
  have hround : (f * 1000000000 + 2 ^ 31) / 2 ^ 32 =
      f * 1000000000 / 2 ^ 32 + if f * 1000000000 % 2 ^ 32 < 2 ^ 31 then 0 else 1 := by
    generalize f * 1000000000 = g
    split_ifs <;> omega
  rw [hround] at hlaps
  split_ifs at hlaps with h <;> omega

end RtpsTime

/-- A duration of a QoS policy; the seconds are an `i32`. -/
structure Duration where
  sec : Int
  nanosec : Nat
deriving DecidableEq

namespace Duration

def isInfinite (d : Duration) : Bool := d.sec == 0x7fffffff && d.nanosec == 0x7fffffff

def isZero (d : Duration) : Bool := d.sec == 0 && d.nanosec == 0

def asNanos (d : Duration) : Int := d.sec * 1000000000 + d.nanosec

end Duration

end Int2Dds.Rtps
