import Int2Dds.Sql.Lexer
import Int2Dds.Subscription.TakeExactly
import Mathlib.Order.Antisymmetrization

/-!
# Samples sorted by ORDER BY

A field that one of two samples lacks says nothing about them, so samples with and without a field can stand in a
circle (`samples_in_circle`). `orderly_of_comparable` : they do not if, of the samples that the fields before leave
equal, all have the field, or those that have it have the same.
-/

namespace Int2Dds.Sql.Parameter

variable {F : Type} [LinearOrder F]

/-- Values of different types are ordered by their types. -/
def compareForOrdering : Parameter F → Parameter F → Ordering
  | .integerValue a, .integerValue b => compare a b
  | .floatValue a, .floatValue b => compare a b
  | .string a, .string b => compare a b
  | .charValue a, .charValue b => compare a b
  | .enumeratedValue _ a, .enumeratedValue _ b => compare a b
  | .integerValue _, _ => .lt
  | _, .integerValue _ => .gt
  | .floatValue _, _ => .lt
  | _, .floatValue _ => .gt
  | .string _, _ => .lt
  | _, .string _ => .gt
  | .charValue _, _ => .lt
  | _, .charValue _ => .gt
  | _, _ => .eq

structure Value (F : Type) where
  toParameter : Parameter F
  ne_parameter : ∀ n, toParameter ≠ .parameter n

instance : Ord (Value F) := ⟨fun v w => compareForOrdering v.toParameter w.toParameter⟩

theorem compare_eq (v w : Value F) : compare v w = compareForOrdering v.toParameter w.toParameter := rfl

instance : Std.TransOrd (Value F) where
  eq_swap := by
    rintro ⟨v, hv⟩ ⟨w, hw⟩
    cases v <;> cases w <;> simp only [compare_eq, compareForOrdering] <;>
      first | rfl | exact Std.OrientedCmp.eq_swap
  isLE_trans := by
    rintro ⟨u, hu⟩ ⟨v, hv⟩ ⟨w, hw⟩ huv hvw
    cases u <;> cases v <;> cases w <;> simp only [compare_eq, compareForOrdering] at huv hvw ⊢ <;>
      first | rfl | contradiction | exact Std.TransCmp.isLE_trans huv hvw | simp at hu hv hw

end Int2Dds.Sql.Parameter

namespace Int2Dds.Subscription.DataReader
open Lib Sql History List

variable {Foo V : Type} [Ord V] {env : Environment Foo V} {s : DataReader Foo} {fields : List String}
  {cs : List CacheChange}

/-- What one field says about two changes. -/
def compareField (env : Environment Foo V) (s : DataReader Foo) (field : String) (a b : CacheChange) : Ordering :=
  match s.fieldValue env field a, s.fieldValue env field b with
  | .ok v, .ok w => compare v w
  | _, _ => .eq

theorem compareByOrderFields_cons (henv : env.compareForOrdering = compare) (field : String) (a b : CacheChange) :
    s.compareByOrderFields env a b (field :: fields) =
      (s.compareField env field a b).then (s.compareByOrderFields env a b fields) := by
  rw [compareByOrderFields, compareField, henv]
  rcases s.fieldValue env field a with e | v <;> rcases s.fieldValue env field b with e' | w
  · rfl
  · rfl
  · rfl
  · cases h : compare v w <;> simp [h]

/-- Of the changes that the fields before leave equal, all have the field, or those that have it have the same. -/
def Comparable (env : Environment Foo V) (s : DataReader Foo) : List String → Set CacheChange → Prop
  | [], _ => True
  | field :: fields, cs =>
    ((∀ c ∈ cs, ∃ v, s.fieldValue env field c = .ok v) ∨ ∀ a ∈ cs, ∀ b ∈ cs, s.compareField env field a b = .eq) ∧
      ∀ c ∈ cs, Comparable env s fields {d ∈ cs | s.compareField env field c d = .eq}

/-- The comparison is a total preorder of the members. -/
structure TotalOn {α : Type*} (r : α → α → Ordering) (cs : Set α) : Prop where
  total : ∀ a ∈ cs, ∀ b ∈ cs, r a b = (r b a).swap
  trans : ∀ a ∈ cs, ∀ b ∈ cs, ∀ c ∈ cs, (r a b).isLE → (r b c).isLE → (r a c).isLE

theorem TotalOn.transCmp {α : Type*} {r : α → α → Ordering} {cs : Set α} (h : TotalOn r cs) :
    Std.TransCmp fun a b : {c // c ∈ cs} => r a b where
  eq_swap := h.total _ (Subtype.property _) _ (Subtype.property _)
  isLE_trans := h.trans _ (Subtype.property _) _ (Subtype.property _) _ (Subtype.property _)

/-- A second comparison is asked only of what the first leaves equal. -/
theorem TotalOn.then {α : Type*} {r r' : α → α → Ordering} {cs : Set α} (h : TotalOn r cs)
    (h' : ∀ c ∈ cs, TotalOn r' {d ∈ cs | r c d = .eq}) : TotalOn (fun a b => (r a b).then (r' a b)) cs := by
  have htrans := h.transCmp
  have hrefl : Std.ReflCmp fun a b : {c // c ∈ cs} => r a b := inferInstance
  have hself : ∀ a ∈ cs, r a a = .eq := fun a ha => hrefl.compare_self (a := ⟨a, ha⟩)
  constructor
  · intro a ha b hb
    have hswap := h.total a ha b hb
    cases hab : r a b with
    | lt | gt =>
      rw [hab] at hswap
      simp [← Ordering.swap_eq_iff_eq_swap.2 hswap]
    | eq =>
      rw [hab] at hswap
      simpa [← Ordering.swap_eq_iff_eq_swap.2 hswap] using (h' a ha).total a ⟨ha, hself a ha⟩ b ⟨hb, hab⟩
  · intro a ha b hb c hc hab hbc
    have hlt : r a b = .lt → (r b c).isLE → r a c = .lt :=
      htrans.lt_of_lt_of_isLE (a := ⟨a, ha⟩) (b := ⟨b, hb⟩) (c := ⟨c, hc⟩)
    have hlt' : (r a b).isLE → r b c = .lt → r a c = .lt :=
      htrans.lt_of_isLE_of_lt (a := ⟨a, ha⟩) (b := ⟨b, hb⟩) (c := ⟨c, hc⟩)
    have heq : r a b = .eq → r b c = .eq → r a c = .eq :=
      htrans.eq_trans (a := ⟨a, ha⟩) (b := ⟨b, hb⟩) (c := ⟨c, hc⟩)
    have hrest := (h' a ha).trans a ⟨ha, hself a ha⟩ b
    cases h₁ : r a b <;> cases h₂ : r b c <;> simp_all

theorem totalOn_compareField [Std.TransOrd V] {field : String} {cs : Set CacheChange}
    (h : (∀ c ∈ cs, ∃ v, s.fieldValue env field c = .ok v) ∨ ∀ a ∈ cs, ∀ b ∈ cs, s.compareField env field a b = .eq) :
    TotalOn (s.compareField env field) cs := by
  rcases h with hall | heq
  · constructor
    · intro a ha b hb
      obtain ⟨v, hv⟩ := hall a ha
      obtain ⟨w, hw⟩ := hall b hb
      simpa only [compareField, hv, hw] using Std.OrientedCmp.eq_swap
    · intro a ha b hb c hc
      obtain ⟨v, hv⟩ := hall a ha
      obtain ⟨w, hw⟩ := hall b hb
      obtain ⟨u, hu⟩ := hall c hc
      simpa only [compareField, hv, hw, hu] using Std.TransCmp.isLE_trans
  · refine ⟨fun a ha b hb => ?_, fun a ha b hb c hc _ _ => ?_⟩
    · rw [heq a ha b hb, heq b hb a ha]
      rfl
    · rw [heq a ha c hc]
      rfl

theorem totalOn_compareByOrderFields [Std.TransOrd V] (henv : env.compareForOrdering = compare) {cs : Set CacheChange}
    (hfields : Comparable env s fields cs) : TotalOn (fun a b => s.compareByOrderFields env a b fields) cs := by
  induction fields generalizing cs with
  | nil =>
    have htrans : Std.TransCmp (compareOn CacheChange.sequenceNumber) := inferInstance
    exact ⟨fun a _ b _ => htrans.eq_swap, fun a _ b _ c _ => htrans.isLE_trans⟩
  | cons field fields ih =>
    simp only [compareByOrderFields_cons henv]
    exact (totalOn_compareField hfields.1).then fun c hc => ih (hfields.2 c hc)

/-- The comparison is a total preorder of the changes, and what they are sorted to depends on it only. -/
structure Orderly (env : Environment Foo V) (s : DataReader Foo) (fields : List String) (cs : List CacheChange) : Prop
    extends TotalOn (fun a b => s.compareByOrderFields env a b fields) {c | c ∈ cs} where
  sorted : ∀ cs', cs'.Perm cs → Forall₂ (fun a b => s.compareByOrderFields env a b fields = .eq)
    (s.sortChangesByOrderFields env fields cs') (s.sortChangesByOrderFields env fields cs)

/-- What is sorted by a preorder is determined but for equals. -/
theorem forall₂_mergeSort {α : Type*} {r : α → α → Ordering} [Std.TransCmp r] {l l' : List α} (hperm : l.Perm l') :
    Forall₂ (fun a b => r a b = .eq) (l.mergeSort fun a b => (r a b).isLE) (l'.mergeSort fun a b => (r a b).isLE) := by
  let : Preorder α := {
    le a b := (r a b).isLE
    le_refl a := Std.ReflCmp.isLE_rfl
    le_trans a b c := Std.TransCmp.isLE_trans }
  have hsorted : ∀ l : List α, (l.mergeSort fun a b => (r a b).isLE).Pairwise (· ≤ ·) := by
    refine pairwise_mergeSort (fun _ _ _ => Std.TransCmp.isLE_trans) fun a b => ?_
    have hswap : r a b = (r b a).swap := Std.OrientedCmp.eq_swap
    rw [hswap]
    cases r b a <;> rfl
  have hmap : (l.mergeSort fun a b => (r a b).isLE).map (toAntisymmetrization (· ≤ ·)) =
      (l'.mergeSort fun a b => (r a b).isLE).map (toAntisymmetrization (· ≤ ·)) := by
    refine Perm.eq_of_pairwise (fun _ _ _ _ => le_antisymm) (pairwise_map.2 (hsorted l))
      (pairwise_map.2 (hsorted l')) ?_
    exact ((mergeSort_perm l _).trans (hperm.trans (mergeSort_perm l' _).symm)).map _
  rw [← forall₂_eq_eq_eq, forall₂_map_left_iff, forall₂_map_right_iff] at hmap
  refine hmap.imp fun a b h => ?_
  obtain ⟨hab, hba⟩ := Quotient.exact h
  exact Std.OrientedCmp.isLE_antisymm hab hba

/-- **Sorting by ORDER BY.** -/
theorem orderly_of_comparable {F : Type} [LinearOrder F] {env : Environment Foo (Parameter.Value F)}
    (henv : env.compareForOrdering = compare) (hfields : Comparable env s fields {c | c ∈ cs}) :
    Orderly env s fields cs := by
  have htotal := totalOn_compareByOrderFields henv hfields
  have htrans : Std.TransCmp fun a b : {c // c ∈ cs} => s.compareByOrderFields env a b fields := htotal.transCmp
  refine ⟨htotal, fun cs' hperm => ?_⟩
  have hsort : ∀ l : List {c // c ∈ cs}, s.sortChangesByOrderFields env fields (l.map Subtype.val) =
      (l.mergeSort fun a b => (s.compareByOrderFields env a b fields).isLE).map Subtype.val := by
    refine fun l => (map_mergeSort fun a _ b _ => ?_).symm
    cases s.compareByOrderFields env a b fields <;> rfl
  have h := hsort cs.attach
  have h' := hsort (cs'.attachWith (· ∈ cs) fun c => hperm.mem_iff.1)
  rw [attach_map_subtype_val] at h
  rw [attachWith_map_subtype_val] at h'
  rw [h, h', forall₂_map_left_iff, forall₂_map_right_iff]
  refine forall₂_mergeSort ((map_perm_map_iff Subtype.val_injective).1 ?_)
  rwa [attachWith_map_subtype_val, attach_map_subtype_val]

/-- Two octets as members, 0 when absent. -/
def twoFields : Environment Bytes (Parameter.Value ℤ) :=
  { fourByteType with
    getFieldValue := fun data field =>
      let octet := data.getD (if field = "a" then 0 else 1) 0
      if octet = 0 then .error .noData else .ok ⟨.integerValue octet.toNat, nofun⟩
    compareForOrdering := compare }

def threeSamples : List CacheChange :=
  [receivedAt 1 3 [1, 1, 0, 0], receivedAt 1 2 [2, 2, 0, 0], receivedAt 1 1 [3, 0, 0, 0]]

/-- One of three samples lacks the second field, but the first tells all of them apart. -/
theorem orderly_twoFields : Orderly twoFields twoSamples ["a", "b"] threeSamples := by
  have hread : ∀ c ∈ threeSamples, (twoSamples.fieldValue twoFields "a" c).isOk = true := by decide +kernel
  have hapart : ∀ c ∈ threeSamples, ∀ d ∈ threeSamples, twoSamples.compareField twoFields "a" c d = .eq → d = c := by
    decide +kernel
  have hself : ∀ c ∈ threeSamples, twoSamples.compareField twoFields "b" c c = .eq := by decide +kernel
  refine orderly_of_comparable rfl ⟨.inl fun c hc => ?_, fun c hc => ⟨.inr ?_, fun _ _ => trivial⟩⟩
  · have hc := hread c hc
    cases hv : twoSamples.fieldValue twoFields "a" c with
    | error e =>
      rw [hv] at hc
      cases hc
    | ok v => exact ⟨v, rfl⟩
  · rintro a ⟨ha, hca⟩ b ⟨hb, hcb⟩
    rw [hapart c hc a ha hca, hapart c hc b hb hcb]
    exact hself c hc

/-- A sample without the field stands between the others, the wrong way round. -/
theorem samples_in_circle : ¬ Orderly twoFields twoSamples ["a"]
    [receivedAt 1 3 [1, 0, 0, 0], receivedAt 1 1 [2, 0, 0, 0], receivedAt 1 2 [0, 0, 0, 0]] := by
  intro h
  have := h.trans (receivedAt 1 3 [1, 0, 0, 0]) (by simp) (receivedAt 1 1 [2, 0, 0, 0]) (by simp)
    (receivedAt 1 2 [0, 0, 0, 0]) (by simp)
  exact absurd (this (by decide +kernel) (by decide +kernel)) (by decide +kernel)

end Int2Dds.Subscription.DataReader
