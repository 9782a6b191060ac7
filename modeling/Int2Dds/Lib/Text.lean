import Int2Dds.Lib.Wire
import Mathlib.Tactic.SplitIfs

/-!
# Text as bytes and as 16-bit units

* `utf8`, `ofUtf8` : a string and its bytes, inverse to each other on valid UTF-8.
* `utf16`, `ofUtf16` : characters as one or two 16-bit units, a high surrogate `0xD800..0xDBFF` before a low one
  `0xDC00..0xDFFF`. `ofUtf16` refuses surrogates that do not pair.
-/

namespace Int2Dds.Lib

/-! ## UTF-8 -/

def utf8 (s : String) : Bytes := s.toUTF8.data.toList.map UInt8.toBitVec

def ofUtf8 (bs : Bytes) : Option String := String.fromUTF8? ⟨(bs.map UInt8.ofBitVec).toArray⟩

theorem ofUtf8_utf8 (s : String) : ofUtf8 (utf8 s) = some s := by
  have hid : (UInt8.ofBitVec ∘ UInt8.toBitVec) = id := rfl
  have hbytes : (⟨((utf8 s).map UInt8.ofBitVec).toArray⟩ : ByteArray) = s.toUTF8 := by
    rw [utf8, List.map_map, hid, List.map_id]
  rw [ofUtf8, hbytes]
  exact dif_pos s.isValidUTF8

/-! ## UTF-16 -/

def utf16Units (c : Char) : List Nat :=
  if c.toNat < 0x10000 then [c.toNat]
  else [0xD800 + (c.toNat - 0x10000) / 0x400, 0xDC00 + (c.toNat - 0x10000) % 0x400]

def utf16 (s : List Char) : List Nat := s.flatMap utf16Units

def ofUtf16 : List Nat → Option (List Char)
  | [] => some []
  | [u] => if u < 0xD800 ∨ 0xDFFF < u then some [Char.ofNat u] else none
  | u :: v :: us =>
    if u < 0xD800 ∨ 0xDFFF < u then (ofUtf16 (v :: us)).map (Char.ofNat u :: ·)
    else if u < 0xDC00 ∧ 0xDC00 ≤ v ∧ v ≤ 0xDFFF then
      (ofUtf16 us).map (Char.ofNat (0x10000 + (u - 0xD800) * 0x400 + (v - 0xDC00)) :: ·)
    else none

theorem ofUtf16_cons {u : Nat} (hu : u < 0xD800 ∨ 0xDFFF < u) (us : List Nat) :
    ofUtf16 (u :: us) = (ofUtf16 us).map (Char.ofNat u :: ·) := by
  cases us with
  | nil => exact if_pos hu
  | cons v us => rw [ofUtf16, if_pos hu]

theorem toNat_valid (c : Char) : c.toNat < 0xD800 ∨ 0xDFFF < c.toNat ∧ c.toNat < 0x110000 := c.valid

theorem utf16Units_lt {c : Char} {u : Nat} (hu : u ∈ utf16Units c) : u < 2 ^ 16 := by
  have hc := toNat_valid c
  unfold utf16Units at hu
  split_ifs at hu with h
  · rw [List.mem_singleton] at hu
    omega
  · simp only [List.mem_cons, List.not_mem_nil, or_false] at hu
    omega

theorem ofUtf16_utf16 (s : List Char) : ofUtf16 (utf16 s) = some s := by
  induction s with
  | nil => rfl
  | cons c s ih =>
    have hc := toNat_valid c
    show ofUtf16 (utf16Units c ++ utf16 s) = _
    unfold utf16Units
    split_ifs with h
    · rw [List.singleton_append, ofUtf16_cons (by omega), ih, Char.ofNat_toNat]
      rfl
    · -- a pair of surrogates
      have hjoin : 0x10000 + (0xD800 + (c.toNat - 0x10000) / 0x400 - 0xD800) * 0x400 +
          (0xDC00 + (c.toNat - 0x10000) % 0x400 - 0xDC00) = c.toNat := by omega
      rw [List.cons_append, List.singleton_append, ofUtf16, if_neg (by omega), if_pos (by omega), hjoin, ih,
        Char.ofNat_toNat]
      rfl

end Int2Dds.Lib
