import Int2Dds.Lib.Wire

/-!
# The pages of a getTypeDependencies reply

A long list of dependencies is sent in pages. The continuation point of a reply is the index of the next page, as a
big-endian counter that the peer sends back.

* `chunkDependencies` : a page and the next continuation point; `pages` : what a peer collects that sends every point
  back.
* `continuationPointIndex_eq` : the index read from any bytes is their number modulo the machine word.
-/

namespace Int2Dds.XTypes.TypeLookup

open Lib

def maxDependenciesPerReply : Nat := 75

def continuationPointLen : Nat := 32

/-- `acc << 8` drops the bits above the word. -/
def continuationPointIndex (continuationPoint : Bytes) : Nat :=
  continuationPoint.foldl (fun acc b => acc <<< 8 % 2 ^ 64 ||| b.toNat) 0

def continuationPointFor (index : Nat) : Bytes :=
  List.replicate (continuationPointLen - 8) 0 ++ Endianness.big.put 8 index

structure GetTypeDependenciesOut (α : Type) where
  dependentTypeids : List α
  continuationPoint : Bytes
deriving DecidableEq

variable {α : Type}

def chunkDependencies (all : List α) (continuationPoint : Bytes) : Outcome Empty (GetTypeDependenciesOut α) :=
  if all.length < maxDependenciesPerReply then pure ⟨all, []⟩
  else do
    let index := continuationPointIndex continuationPoint
    let start ← Outcome.checked 64 (index * maxDependenciesPerReply)
    let stop ← Outcome.checked 64 (start + maxDependenciesPerReply)
    -- nothing when `start` is behind the end
    let ids := (all.take (min stop all.length)).drop start
    if all.length ≤ stop then pure ⟨ids, []⟩
    else do
      let next ← Outcome.checked 64 (index + 1)
      pure ⟨ids, continuationPointFor next⟩

/-- The pages a peer collects in at most `fuel` requests. -/
def pages (all : List α) : Nat → Bytes → Option (List (List α))
  | 0, _ => none
  | fuel + 1, continuationPoint =>
    match (chunkDependencies all continuationPoint).result with
    | .ok out =>
      if out.continuationPoint = [] then some [out.dependentTypeids]
      else (pages all fuel out.continuationPoint).map (out.dependentTypeids :: ·)
    | _ => none

/-! ## Continuation points -/

theorem shiftLeft_or (acc : Nat) (b : Byte) : acc <<< 8 % 2 ^ 64 ||| b.toNat = (acc % 2 ^ 56) * 256 + b.toNat := by
  have hshift : acc <<< 8 % 2 ^ 64 = (acc % 2 ^ 56) <<< 8 := by
    rw [Nat.shiftLeft_eq, Nat.shiftLeft_eq]
    omega
  rw [hshift, ← Nat.shiftLeft_add_eq_or_of_lt b.isLt, Nat.shiftLeft_eq]

theorem continuationPointIndex_eq (point : Bytes) :
    continuationPointIndex point = Endianness.big.get point % 2 ^ 64 := by
  induction point using List.reverseRecOn with
  | nil => rfl
  | append_singleton point b ih =>
    have hget : Endianness.big.get (point ++ [b]) = b.toNat + 256 * Endianness.big.get point := by
      simp [Endianness.get, ofLeBytes]
    have hb := b.isLt
    rw [continuationPointIndex] at ih
    rw [continuationPointIndex, List.foldl_append, ih, hget]
    simp only [List.foldl_cons, List.foldl_nil, shiftLeft_or]
    omega

theorem continuationPointIndex_continuationPointFor {i : Nat} (hi : i < 2 ^ 64) :
    continuationPointIndex (continuationPointFor i) = i := by
  have hzeros : continuationPointIndex (continuationPointFor i) = continuationPointIndex (Endianness.big.put 8 i) := by
    rw [continuationPointIndex, continuationPointFor, List.foldl_append]
    rfl
  rw [hzeros, continuationPointIndex_eq, Endianness.get_put_of_lt _ hi, Nat.mod_eq_of_lt hi]

/-! ## Pages -/

variable {all : List α} {point : Bytes} {i : Nat}

/-- The page with index `i`. -/
theorem chunkDependencies_of_index (hi : continuationPointIndex point = i) (hlong : 75 ≤ all.length)
    (hfits : i * 75 + 75 < 2 ^ 64) :
    (chunkDependencies all point).result =
      .ok ⟨(all.drop (i * 75)).take 75, if all.length ≤ i * 75 + 75 then [] else continuationPointFor (i + 1)⟩ := by
  have hids : (all.take (min (i * 75 + 75) all.length)).drop (i * 75) = (all.drop (i * 75)).take 75 := by
    rw [List.drop_take, List.take_eq_take_iff, List.length_drop]
    omega
  rw [chunkDependencies, if_neg (by simpa [maxDependenciesPerReply] using hlong), hi]
  simp only [maxDependenciesPerReply]
  rw [Outcome.checked_of_lt (by omega), pure_bind, Outcome.checked_of_lt hfits, pure_bind, hids]
  split_ifs with h
  · rfl
  · rw [Outcome.checked_of_lt (by omega), pure_bind]
    rfl

theorem chunkDependencies_returns_iff :
    (∃ out, (chunkDependencies all point).result = .ok out) ↔
      all.length < 75 ∨ Endianness.big.get point % 2 ^ 64 * 75 + 75 < 2 ^ 64 := by
  rw [← continuationPointIndex_eq]
  by_cases hshort : all.length < 75
  · refine iff_of_true ⟨⟨all, []⟩, ?_⟩ (.inl hshort)
    rw [chunkDependencies, if_pos (by exact hshort)]
    rfl
  rw [or_iff_right hshort]
  constructor
  · rintro ⟨out, h⟩
    rw [chunkDependencies, if_neg (by exact hshort)] at h
    obtain ⟨start, hstart, h⟩ := Outcome.result_bind_eq_ok.1 h
    obtain ⟨stop, hstop, -⟩ := Outcome.result_bind_eq_ok.1 h
    obtain ⟨-, rfl⟩ := Outcome.result_checked.1 hstart
    exact (Outcome.result_checked.1 hstop).1
  · intro hfits
    exact ⟨_, chunkDependencies_of_index rfl (by omega) hfits⟩

/-- From page `i` on, the rest of the list is collected. -/
theorem pages_of_index (hlong : 75 ≤ all.length) (hlen : all.length < 2 ^ 63) (fuel : Nat)
    (hi : continuationPointIndex point = i) (hstart : i * 75 < all.length) (hfuel : all.length ≤ (i + fuel) * 75) :
    ∃ ps, pages all fuel point = some ps ∧ (∀ page ∈ ps, page.length ≤ 75) ∧ ps.flatten = all.drop (i * 75) := by
  induction fuel generalizing point i with
  | zero => omega
  | succ fuel ih =>
    have hpage := chunkDependencies_of_index hi hlong (by omega)
    rw [pages, hpage]
    simp only
    split_ifs with hlast hempty hempty
    · refine ⟨_, rfl, by simp, ?_⟩
      rw [List.flatten_cons, List.flatten_nil, List.append_nil, List.take_of_length_le]
      rw [List.length_drop]
      omega
    · exact absurd rfl hempty
    · simp [continuationPointFor, continuationPointLen] at hempty
    · obtain ⟨ps, hps, hshort, hflat⟩ := ih (i := i + 1)
        (continuationPointIndex_continuationPointFor (by omega)) (by omega) (by omega)
      refine ⟨_ :: ps, by rw [hps]; rfl, List.forall_mem_cons.2 ⟨List.length_take_le _ _, hshort⟩, ?_⟩
      rw [List.flatten_cons, hflat, Nat.succ_mul, ← List.drop_drop, List.take_append_drop]

/-- A `Vec` has less than `2 ^ 63` elements. -/
theorem paging_iff (all : List α) (hlen : all.length < 2 ^ 63) :
    (∃ fuel ps, pages all fuel [] = some ps ∧ (∀ page ∈ ps, page.length ≤ maxDependenciesPerReply) ∧
        ps.flatten = all) ∧
      ∀ point, (∃ out, (chunkDependencies all point).result = .ok out) ↔
        all.length < maxDependenciesPerReply ∨
          Endianness.big.get point % 2 ^ 64 * maxDependenciesPerReply + maxDependenciesPerReply < 2 ^ 64 := by
  refine ⟨?_, fun point => chunkDependencies_returns_iff⟩
  by_cases hshort : all.length < 75
  · refine ⟨1, [all], ?_, by simpa [maxDependenciesPerReply] using hshort.le, by simp⟩
    rw [pages, chunkDependencies, if_pos (by exact hshort)]
    rfl
  · obtain ⟨ps, hps⟩ :=
      pages_of_index (i := 0) (by omega) hlen all.length (show continuationPointIndex [] = 0 from rfl) (by omega)
      (by omega)
    exact ⟨_, ps, by simpa [maxDependenciesPerReply] using hps⟩

/-- Two hundred dependencies go out in three pages. -/
theorem paging_iff_three_pages : (List.range 200).length < 2 ^ 63 ∧
    (∃ fuel ps, pages (List.range 200) fuel [] = some ps ∧
      (∀ page ∈ ps, page.length ≤ maxDependenciesPerReply) ∧ ps.flatten = List.range 200) ∧
    (pages (List.range 200) 3 []).map (·.map List.length) = some [75, 75, 50] := by
  have hlen : (List.range 200).length < 2 ^ 63 := by simp
  exact ⟨hlen, (paging_iff (List.range 200) hlen).1, by decide +kernel⟩

/-- A peer that sends the highest counter. -/
theorem chunkDependencies_overflows :
    (chunkDependencies (List.replicate 75 ()) (List.replicate 32 255)).result = .panic := by
  rfl

end Int2Dds.XTypes.TypeLookup
