import Mathlib.Algebra.BigOperators.Ring.List
import Mathlib.Algebra.Order.BigOperators.Group.List
import Mathlib.Algebra.Order.Ring.Nat
import Mathlib.Data.List.AList

/-!
# Maps whose values have a weight

`weight f m` is the sum of `f` over the values of the map `m`.

* `weight_insert_new`, `weight_insert_same`, `weight_erase` : what an update does to it;
* `weight_mul_le` : a bound on each value and on the keys bounds the sum.
-/

namespace Int2Dds.Lib

open List

variable {α β : Type*} [DecidableEq α] {f : β → Nat} {m : AList (fun _ : α => β)} {k : α} {b b' : β}

def weight (f : β → Nat) (m : AList (fun _ : α => β)) : Nat := (m.entries.map fun e => f e.2).sum

theorem weight_insert_new (h : m.lookup k = none) : weight f (m.insert k b) = f b + weight f m := by
  rw [weight, AList.entries_insert_of_notMem (AList.lookup_eq_none.1 h)]
  rfl

theorem weight_erase (h : m.lookup k = some b) : f b + weight f (m.erase k) = weight f m := by
  have hkey : k ∈ m.entries.keys := AList.mem_keys.1 (AList.lookup_isSome.1 (h ▸ rfl))
  obtain ⟨b', l₁, l₂, -, hentries, herase⟩ := exists_of_kerase hkey
  have hmem : (⟨k, b'⟩ : Sigma fun _ : α => β) ∈ m.entries := by
    rw [hentries]
    exact mem_append_right _ mem_cons_self
  have hb : m.lookup k = some b' := AList.mem_lookup_iff.2 hmem
  rw [h] at hb
  cases hb
  have herase : (m.erase k).entries = l₁ ++ l₂ := herase
  rw [weight, weight, herase, hentries]
  simp only [map_append, map_cons, sum_append, sum_cons]
  omega

theorem weight_insert_same (h : m.lookup k = some b) (hf : f b' = f b) : weight f (m.insert k b') = weight f m := by
  have hinsert : (m.insert k b').entries = ⟨k, b'⟩ :: (m.erase k).entries := AList.entries_insert
  rw [← weight_erase h, weight, hinsert, map_cons, hf]
  rfl

/-- The keys lie in `ks`, and each value takes one of `n` equal parts of `bound` at most. -/
theorem weight_mul_le {ks : List α} {n bound : Nat}
    (h : ∀ k b, m.lookup k = some b → k ∈ ks ∧ f b * n ≤ bound) : weight f m * n ≤ ks.length * bound := by
  have hlength : m.entries.length ≤ ks.length := by
    have hsub : m.keys ⊆ ks := by
      intro k hk
      obtain ⟨b, hb⟩ := Option.isSome_iff_exists.1 (AList.lookup_isSome.2 (AList.mem_keys.2 hk))
      exact (h k b hb).1
    have := (subperm_of_subset m.keys_nodup hsub).length_le
    rwa [AList.keys, keys, length_map] at this
  have hsum : weight f m * n ≤ m.entries.length * bound := by
    have hle := sum_le_card_nsmul (m.entries.map fun e => f e.2 * n) bound (by
      intro x hx
      obtain ⟨e, he, rfl⟩ := mem_map.1 hx
      exact (h e.1 e.2 (AList.mem_lookup_iff.2 he)).2)
    rwa [length_map, sum_map_mul_right] at hle
  exact hsum.trans (Nat.mul_le_mul_right bound hlength)

end Int2Dds.Lib
