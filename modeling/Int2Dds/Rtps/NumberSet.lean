import Int2Dds.Rtps.Common

/-!
# Number sets built from lists

A set is read as the ascending list of its members, and built again from it, exactly when no member lies above the
largest number of its type (`accepted_sets_rebuild_iff`).
-/

namespace Int2Dds.Rtps
open NumberSet List Option

namespace NumberSet

variable {τ : Type} {s : NumberSet τ} {p : Nat}

/-! ## Bits -/

/-- Bit `p` of the bitmap, most significant bit first. -/
def bit (s : NumberSet τ) (p : Nat) : Bool := ((s.bitmap[p / 32]?).getD 0).getMsbD (p % 32)

theorem mem_setPositions : p ∈ s.setPositions ↔ p < s.numBits ∧ s.bit p = true := by
  unfold setPositions bit
  simp only [List.mem_flatMap, List.mem_filterMap, List.mem_map, List.mem_range, Prod.exists,
    mem_zipIdx_iff_getElem?, getElem?_take, ite_none_right_eq_some, some.injEq]
  constructor
  · rintro ⟨num, idx, ⟨-, hword⟩, _, _, ⟨j, hj, hjp⟩, ⟨hlt, hbit⟩, rfl⟩
    obtain ⟨rfl, rfl⟩ := Prod.mk.inj hjp
    rw [show (idx * 32 + j) / 32 = idx by omega, show (idx * 32 + j) % 32 = j by omega, hword]
    exact ⟨hlt, hbit⟩
  · rintro ⟨hlt, hbit⟩
    cases hword : s.bitmap[p / 32]? with
    | none =>
      rw [hword] at hbit
      exact absurd hbit (by simp)
    | some num =>
      rw [hword] at hbit
      refine ⟨num, p / 32, ⟨?_, hword⟩, p % 32, p, ⟨p % 32, ?_, ?_⟩, ⟨hlt, hbit⟩, rfl⟩
      · unfold numOfLongs; omega
      · omega
      · rw [show p / 32 * 32 + p % 32 = p by omega]

theorem pairwise_setPositions : s.setPositions.Pairwise (· < ·) := by
  refine pairwise_flatMap.2 ⟨?_, ?_⟩
  · rintro ⟨num, idx⟩ -
    refine (pairwise_map.2 ?_ : (((range 32).map (fun j => (j, idx * 32 + j)))).Pairwise
      (fun a b => a.2 < b.2)).filterMap _ ?_
    · exact pairwise_lt_range.imp (fun hab => by dsimp only; omega)
    · rintro ⟨j, pos⟩ ⟨j', pos'⟩ hlt b hb b' hb'
      simp only [ite_none_right_eq_some, some.injEq] at hb hb'
      obtain ⟨-, rfl⟩ := hb
      obtain ⟨-, rfl⟩ := hb'
      exact hlt
  · have hidx : ((s.bitmap.take s.numOfLongs).zipIdx.map Prod.snd).Pairwise (· < ·) := by
      rw [zipIdx_map_snd]
      exact pairwise_lt_range'
    refine (pairwise_map.1 hidx).imp ?_
    rintro ⟨num, idx⟩ ⟨num', idx'⟩ hlt a ha b hb
    simp only [List.mem_filterMap, List.mem_map, List.mem_range, Option.ite_none_right_eq_some, Option.some.injEq]
      at ha hb
    obtain ⟨_, ⟨j, hj, rfl⟩, -, rfl⟩ := ha
    obtain ⟨_, ⟨j', hj', rfl⟩, -, rfl⟩ := hb
    omega

/-- The members are the base plus their positions; reading them overflows as soon as one of these sums does. -/
theorem map_mapM_add {add : τ → Nat → Option τ} {toInt : τ → Int} {top : Int} {b : τ} {l : List Nat}
    (hadd : ∀ p ∈ l, (add b p).map toInt = if toInt b + (p : Int) < top then some (toInt b + (p : Int)) else none) :
    (l.mapM (add b)).map (map toInt) =
      if ∀ p ∈ l, toInt b + (p : Int) < top then some (l.map fun p : Nat => toInt b + (p : Int)) else none := by
  induction l with
  | nil => simp
  | cons p l ih =>
    have ih := ih (fun q hq => hadd q (mem_cons_of_mem p hq))
    have hp := hadd p mem_cons_self
    rw [mapM_cons]
    simp only [forall_mem_cons]
    cases hn : add b p with
    | none =>
      rw [hn] at hp
      rw [if_neg (fun h => by rw [if_pos h.1] at hp; cases hp)]
      rfl
    | some n =>
      rw [hn, map_some] at hp
      have hfit : toInt b + p < top := by
        by_contra hover
        rw [if_neg hover] at hp
        cases hp
      rw [if_pos hfit, some.injEq] at hp
      simp only [hfit, true_and]
      split_ifs at ih ⊢ with hall
      · obtain ⟨numbers, hnum, hmap⟩ := map_eq_some_iff.1 ih
        simp [hnum, hmap, hp]
      · simp [map_eq_none_iff.1 ih]

/-! ## Sets from lists -/

def newEmptyWithBase (bitmapBase : τ) : NumberSet τ := ⟨bitmapBase, List.replicate 8 0, 0, rfl⟩

/-- One turn of the loop of `from_vec`, for the number `delta` above the base. -/
def insertOffset (s : NumberSet τ) (delta : Nat) : NumberSet τ :=
  if delta / 32 < 8 then
    { s with
      bitmap := s.bitmap.modify (delta / 32) (· ||| (1 : BitVec 32) <<< (31 - delta % 32))
      numBits := max s.numBits (delta + 1)
      bitmap_length := by rw [List.length_modify, s.bitmap_length] }
  else s

/-- The set of `numbers`. `offset number base` is `number.wrapping_sub(base).to_usize()`. -/
def fromVec (offset : τ → τ → Nat) (bitmapBase : τ) (numbers : List τ) : NumberSet τ :=
  numbers.foldl (fun s number => s.insertOffset (offset number bitmapBase)) (newEmptyWithBase bitmapBase)

theorem bit_newEmptyWithBase (b : τ) : (newEmptyWithBase b).bit p = false := by
  unfold bit newEmptyWithBase
  rw [getElem?_replicate]
  split_ifs <;> simp

theorem getMsbD_one_shiftLeft {d j : Nat} (hd : d < 32) :
    ((1 : BitVec 32) <<< (31 - d)).getMsbD j = decide (j = d) := by
  grind

theorem bit_insertOffset (d : Nat) : (s.insertOffset d).bit p = (s.bit p || decide (p = d ∧ d < 256)) := by
  unfold insertOffset
  split_ifs with hd
  · unfold bit
    have hlen := s.bitmap_length
    rw [getElem?_modify]
    rcases eq_or_ne (d / 32) (p / 32) with hq | hq
    · -- the word of `d` exists, and `p` is in it
      obtain ⟨num, hnum⟩ : ∃ num, s.bitmap[p / 32]? = some num := ⟨_, getElem?_eq_getElem (by omega)⟩
      simp only [hnum, if_pos hq, Option.map_eq_map, Option.map_some, Option.getD_some, BitVec.getMsbD_or]
      rw [getMsbD_one_shiftLeft (by omega)]
      congr 1
      exact decide_eq_decide.2 (by omega)
    · simp only [if_neg hq, Option.map_eq_map, Option.map_id_fun', id]
      rw [decide_eq_false (by rintro ⟨rfl, -⟩; exact hq rfl), Bool.or_false]
  · rw [decide_eq_false (by omega), Bool.or_false]

theorem bit_foldl_insertOffset (offset : τ → Nat) (numbers : List τ) :
    (numbers.foldl (fun s n => s.insertOffset (offset n)) s).bit p = true ↔
      s.bit p = true ∨ p < 256 ∧ ∃ n ∈ numbers, offset n = p := by
  induction numbers generalizing s with
  | nil => simp
  | cons n numbers ih =>
    rw [foldl_cons, ih, bit_insertOffset]
    grind

theorem numBits_foldl_insertOffset_le (offset : τ → Nat) (numbers : List τ) (m : Nat) :
    (numbers.foldl (fun s n => s.insertOffset (offset n)) s).numBits ≤ m ↔
      s.numBits ≤ m ∧ ∀ n ∈ numbers, offset n < 256 → offset n < m := by
  induction numbers generalizing s with
  | nil => simp
  | cons n numbers ih =>
    have hn : (s.insertOffset (offset n)).numBits ≤ m ↔ s.numBits ≤ m ∧ (offset n < 256 → offset n < m) := by
      unfold insertOffset
      split_ifs with hd
      · rw [max_le_iff]
        omega
      · omega
    rw [foldl_cons, ih, hn, forall_mem_cons, and_assoc]

variable {offset : τ → τ → Nat} {base : τ} {numbers : List τ}

/-- The extent of the set: it reaches exactly to the highest number the bitmap has room for. -/
theorem numBits_fromVec_le {m : Nat} :
    (fromVec offset base numbers).numBits ≤ m ↔ ∀ n ∈ numbers, offset n base < 256 → offset n base < m := by
  rw [fromVec, numBits_foldl_insertOffset_le (offset · base)]
  exact and_iff_right (Nat.zero_le m)

theorem bit_fromVec : (fromVec offset base numbers).bit p = true ↔ p < 256 ∧ ∃ n ∈ numbers, offset n base = p := by
  rw [fromVec, bit_foldl_insertOffset (offset · base), bit_newEmptyWithBase]
  simp

theorem mem_setPositions_fromVec :
    p ∈ (fromVec offset base numbers).setPositions ↔ p < 256 ∧ ∃ n ∈ numbers, offset n base = p := by
  rw [mem_setPositions, bit_fromVec, and_iff_right_iff_imp]
  rintro ⟨hp, n, hn, rfl⟩
  by_contra hle
  exact absurd (numBits_fromVec_le.1 (not_lt.1 hle) n hn hp) (lt_irrefl _)

theorem bitmapBase_fromVec : (fromVec offset base numbers).bitmapBase = base := by
  refine foldlRecOn numbers _ (motive := fun s : NumberSet τ => s.bitmapBase = base) rfl (fun s hs n _ => ?_)
  unfold insertOffset
  split_ifs <;> exact hs

theorem isValid_fromVec {isValidBase : τ → Bool} (hb : isValidBase base = true) :
    (fromVec offset base numbers).isValid isValidBase = true := by
  simp only [isValid, Bool.and_eq_true, decide_eq_true_eq, List.all_eq_true, beq_iff_eq, bitmapBase_fromVec]
  refine ⟨⟨hb, numBits_fromVec_le.2 (fun _ _ h => h)⟩, fun word hword => BitVec.eq_of_getMsbD_eq fun j hj => ?_⟩
  -- a bit in a word that is not sent lies beyond the extent, so it is not set
  obtain ⟨i, hi⟩ := List.mem_iff_getElem?.1 hword
  rw [getElem?_drop] at hi
  by_contra hne
  have hset : word.getMsbD j = true := by simpa using hne
  obtain ⟨q, hq⟩ : ∃ q, q = (fromVec offset base numbers).numOfLongs + i := ⟨_, rfl⟩
  rw [← hq] at hi
  have hbit : (fromVec offset base numbers).bit (q * 32 + j) = true := by
    rw [bit, show (q * 32 + j) / 32 = q by omega, show (q * 32 + j) % 32 = j by omega, hi]
    exact hset
  have hlt := (mem_setPositions.1 (mem_setPositions_fromVec.2 (bit_fromVec.1 hbit))).1
  unfold numOfLongs at hq
  omega

end NumberSet

/-! ## The two number types -/

/-- The operations of a number type that number sets use, by the integers its values stand for. -/
structure NumberType (τ : Type) where
  toInt : τ → Int
  toInt_injective : toInt.Injective
  /-- The least integer above the type. -/
  top : Int
  toInt_lt : ∀ n, toInt n < top
  /-- `wrapping_add`, which is `+`: it overflows. -/
  wrappingAdd : τ → Nat → Option τ
  map_wrappingAdd : ∀ b n, n < 256 → (wrappingAdd b n).map toInt = if toInt b + n < top then some (toInt b + n)
    else none
  /-- `wrapping_sub`, then `to_usize`. -/
  offset : τ → τ → Nat
  offset_eq : ∀ n b, toInt b ≤ toInt n → 1 ≤ toInt b → offset n b = (toInt n - toInt b).toNat
  isValidBase : τ → Bool
  isValidBase_iff : ∀ b, isValidBase b = true ↔ 1 ≤ toInt b

/-- The difference of two positive sequence numbers does not overflow, and a negative one is a large `usize`. -/
def sequenceNumbers : NumberType SequenceNumber where
  toInt := SequenceNumber.toI64
  toInt_injective _ _ := SequenceNumber.toI64_injective
  top := 2 ^ 63
  toInt_lt := SequenceNumber.toI64_lt
  wrappingAdd b n := b.addAssign (BitVec.ofNat 32 n)
  map_wrappingAdd b n hn := by
    rw [SequenceNumber.map_toI64_addAssign, BitVec.toNat_ofNat, Nat.mod_eq_of_lt (by omega)]
    rfl
  offset n b := ((n.toI64 - b.toI64) % 2 ^ 64).toNat
  offset_eq n b hle hb := by
    have := SequenceNumber.toI64_lt n
    rw [Int.emod_eq_of_lt (by omega) (by omega)]
  isValidBase b := decide (1 ≤ b.toI64)
  isValidBase_iff b := decide_eq_true_iff

def fragmentNumbers : NumberType (BitVec 32) where
  toInt b := b.toNat
  toInt_injective a b h := BitVec.eq_of_toNat_eq (Int.ofNat.inj h)
  top := 2 ^ 32
  toInt_lt n := by
    have := n.isLt
    omega
  wrappingAdd b n := if b.toNat + n < 2 ^ 32 then some (b + BitVec.ofNat 32 n) else none
  map_wrappingAdd b n hn := by
    split_ifs with h1 h2 h2
    · rw [Option.map_some, BitVec.toNat_add, BitVec.toNat_ofNat]
      congr 1
      omega
    · omega
    · omega
    · rfl
  offset n b := (n - b).toNat
  offset_eq n b hle hb := by
    have := n.isLt
    rw [BitVec.toNat_sub]
    omega
  isValidBase b := decide (1 ≤ b.toNat)
  isValidBase_iff b := by rw [decide_eq_true_iff]; omega

namespace NumberType

variable {τ : Type} (T : NumberType τ) {s : NumberSet τ}

/-- Reading the set gives an ascending list from the base on, one number for each bit set below `numBits`, and the set
built from it reads as the same list. -/
def Rebuilds (s : NumberSet τ) : Prop :=
  ∃ numbers, s.extractNumbers T.wrappingAdd = some numbers ∧ (numbers.map T.toInt).Pairwise (· < ·) ∧
    (∀ n ∈ numbers, T.toInt s.bitmapBase ≤ T.toInt n) ∧
    (∀ m, m ∈ numbers.map T.toInt ↔ ∃ p, p < s.numBits ∧ s.bit p = true ∧ m = T.toInt s.bitmapBase + p) ∧
    (fromVec T.offset s.bitmapBase numbers).extractNumbers T.wrappingAdd = some numbers

variable {T}

theorem rebuilds_iff (hs : s.isValid T.isValidBase = true) :
    T.Rebuilds s ↔ ∀ p < s.numBits, s.bit p = true → T.toInt s.bitmapBase + p < T.top := by
  simp only [NumberSet.isValid, Bool.and_eq_true, decide_eq_true_eq] at hs
  obtain ⟨⟨hbase, hbits⟩, -⟩ := hs
  have hbase := (T.isValidBase_iff _).1 hbase
  have hpos : ∀ p ∈ s.setPositions, p < 256 := fun p hp => (mem_setPositions.1 hp).1.trans_le hbits
  have hread := map_mapM_add (fun p hp => T.map_wrappingAdd s.bitmapBase p (hpos p hp))
  constructor
  · rintro ⟨numbers, hnum, -⟩ p hp hbit
    rw [show s.setPositions.mapM _ = _ from hnum] at hread
    by_contra hover
    rw [if_neg (fun hfit => hover (hfit p (mem_setPositions.2 ⟨hp, hbit⟩)))] at hread
    cases hread
  · intro hfit
    rw [if_pos (fun p hp => hfit p (mem_setPositions.1 hp).1 (mem_setPositions.1 hp).2)] at hread
    obtain ⟨numbers, hnum, hmap⟩ := map_eq_some_iff.1 hread
    have hmem : ∀ m, m ∈ numbers.map T.toInt ↔ ∃ p, p < s.numBits ∧ s.bit p = true ∧ m = T.toInt s.bitmapBase + p := by
      intro m
      simp only [hmap, List.mem_map, mem_setPositions, and_assoc]
      exact exists_congr fun p => by rw [eq_comm (a := m)]
    have hge : ∀ n ∈ numbers, T.toInt s.bitmapBase ≤ T.toInt n := by
      intro n hn
      obtain ⟨p, -, -, hp⟩ := (hmem _).1 (mem_map_of_mem hn)
      omega
    refine ⟨numbers, hnum, ?_, hge, hmem, ?_⟩
    · rw [hmap]
      exact pairwise_map.2 ((pairwise_setPositions).imp (fun hlt => by omega))
    · -- the positions of the rebuilt set are those of `s`
      have hsame : (fromVec T.offset s.bitmapBase numbers).setPositions = s.setPositions := by
        refine Perm.eq_of_pairwise (fun a b _ _ h1 h2 => absurd h1 h2.not_gt)
          (pairwise_setPositions) (pairwise_setPositions) ?_
        refine (perm_ext_iff_of_nodup (pairwise_setPositions).nodup
          (pairwise_setPositions).nodup).2 (fun p => ?_)
        rw [mem_setPositions_fromVec]
        constructor
        · rintro ⟨-, n, hn, hp⟩
          obtain ⟨q, hq, hbit, hqn⟩ := (hmem _).1 (mem_map_of_mem hn)
          rw [T.offset_eq _ _ (hge n hn) hbase] at hp
          obtain rfl : q = p := by omega
          exact mem_setPositions.2 ⟨hq, hbit⟩
        · intro hp
          obtain ⟨hlt, hbit⟩ := mem_setPositions.1 hp
          obtain ⟨n, hn, hni⟩ := mem_map.1 ((hmem _).2 ⟨p, hlt, hbit, rfl⟩)
          refine ⟨hpos p hp, n, hn, ?_⟩
          rw [T.offset_eq _ _ (hge n hn) hbase]
          omega
      rw [NumberSet.extractNumbers, hsame, bitmapBase_fromVec]
      exact hnum

/-- What is read from the set of a list: the numbers of the list that the bitmap has room for. -/
theorem extractNumbers_fromVec {base : τ} {numbers : List τ} (hbase : 1 ≤ T.toInt base)
    (hlow : ∀ n ∈ numbers, T.toInt n < T.toInt base → 256 ≤ T.offset n base) :
    ∃ l, (fromVec T.offset base numbers).extractNumbers T.wrappingAdd = some l ∧
      ∀ n, n ∈ l ↔ n ∈ numbers ∧ T.toInt base ≤ T.toInt n ∧ T.toInt n < T.toInt base + 256 := by
  -- a bit stands for a number of the list
  have hbit : ∀ p, (p < (fromVec T.offset base numbers).numBits ∧
      (fromVec T.offset base numbers).bit p = true) ↔ p < 256 ∧ ∃ n ∈ numbers, T.toInt n = T.toInt base + p := by
    intro p
    rw [← mem_setPositions, mem_setPositions_fromVec]
    refine and_congr_right fun hp => exists_congr fun n => and_congr_right fun hn => ?_
    rcases lt_or_ge (T.toInt n) (T.toInt base) with hlt | hge
    · have := hlow n hn hlt
      omega
    · rw [T.offset_eq n base hge hbase]
      omega
  have hvalid : (fromVec T.offset base numbers).isValid T.isValidBase = true :=
    isValid_fromVec ((T.isValidBase_iff base).2 hbase)
  obtain ⟨l, hl, -, -, hmem, -⟩ := (rebuilds_iff hvalid).2 fun p hp hset => by
    obtain ⟨-, n, -, hn⟩ := (hbit p).1 ⟨hp, hset⟩
    rw [bitmapBase_fromVec, ← hn]
    exact T.toInt_lt n
  refine ⟨l, hl, fun n => ?_⟩
  rw [← List.mem_map_of_injective T.toInt_injective, hmem, bitmapBase_fromVec]
  simp only [← and_assoc, hbit]
  constructor
  · rintro ⟨p, ⟨hp, m, hm, hmp⟩, hn⟩
    obtain rfl : n = m := T.toInt_injective (hn.trans hmp.symm)
    exact ⟨⟨hm, by omega⟩, by omega⟩
  · rintro ⟨⟨hn, hge⟩, hlt⟩
    exact ⟨(T.toInt n - T.toInt base).toNat, ⟨by omega, n, hn, by omega⟩, by omega⟩

end NumberType

/-- An accepted set of sequence or fragment numbers is read and built again exactly when no member is above the
largest number of its type. -/
theorem accepted_sets_rebuild_iff (s : NumberSet SequenceNumber) (f : NumberSet (BitVec 32))
    (hs : s.isValid sequenceNumbers.isValidBase = true) (hf : f.isValid fragmentNumbers.isValidBase = true) :
    (sequenceNumbers.Rebuilds s ↔ ∀ p < s.numBits, s.bit p = true → s.bitmapBase.toI64 + p < 2 ^ 63) ∧
      (fragmentNumbers.Rebuilds f ↔ ∀ p < f.numBits, f.bit p = true → f.bitmapBase.toNat + p < 2 ^ 32) := by
  refine ⟨NumberType.rebuilds_iff hs, (NumberType.rebuilds_iff hf).trans ?_⟩
  have hcast : ∀ p : Nat, fragmentNumbers.toInt f.bitmapBase + p < fragmentNumbers.top ↔
    f.bitmapBase.toNat + p < 2 ^ 32 :=
    fun p => by simp only [fragmentNumbers]; omega
  simp only [hcast]

/-- The set {3, 40} with base 3, of either type. -/
theorem accepted_sets_rebuild_iff_small :
    sequenceNumbers.Rebuilds (.fromVec sequenceNumbers.offset ⟨0, 3⟩ [⟨0, 3⟩, ⟨0, 40⟩]) ∧
      fragmentNumbers.Rebuilds (.fromVec fragmentNumbers.offset 3 [3, 40]) := by
  obtain ⟨hsequence, hfragment⟩ := accepted_sets_rebuild_iff (.fromVec sequenceNumbers.offset ⟨0, 3⟩ [⟨0, 3⟩, ⟨0, 40⟩])
    (.fromVec fragmentNumbers.offset 3 [3, 40]) (by decide +kernel) (by decide +kernel)
  exact ⟨hsequence.2 (by decide +kernel), hfragment.2 (by decide +kernel)⟩

/-- The largest number as base and its successor's bit: the set is accepted, and reading it overflows. -/
theorem accepted_set_overflows :
    (∃ s : NumberSet SequenceNumber, s.isValid sequenceNumbers.isValidBase = true ∧
      s.extractNumbers sequenceNumbers.wrappingAdd = none) ∧
    (∃ s : NumberSet (BitVec 32), s.isValid fragmentNumbers.isValidBase = true ∧
      s.extractNumbers fragmentNumbers.wrappingAdd = none) :=
  ⟨⟨⟨⟨0x7fffffff, 0xffffffff⟩, [0x40000000, 0, 0, 0, 0, 0, 0, 0], 2, rfl⟩, by decide +kernel, by decide +kernel⟩,
    ⟨⟨0xffffffff, [0x40000000, 0, 0, 0, 0, 0, 0, 0], 2, rfl⟩, by decide +kernel, by decide +kernel⟩⟩

end Int2Dds.Rtps
