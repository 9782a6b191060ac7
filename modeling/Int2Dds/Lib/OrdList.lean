import Mathlib.Order.Lattice
import Mathlib.Data.List.Basic

/-!
# Ordered lists keyed by a field of their elements

`OrdList key` is a list whose keys strictly increase: an ordered set when the elements are compared by `key`,
an ordered map when the key is a field of the entry. The order proof is a field, so no operation has a
precondition.

* `find? k` : the entry at `k` (`find?_eq_some`, `find?_eq_none`);
* `insertNew a` : inserts `a` unless its key is taken (`mem_insertNew`, `find?_insertNew`);
* `modify k f` : rewrites the entry at `k`, keeping its key (`mem_modify`, `find?_modify`);
* `upsert d f` : `insertNew d`, then `modify (key d) f` (`find?_upsert`);
* `filter p` (`mem_filter`, `find?_filter`), `first?` (`first?_le`).
-/

namespace Int2Dds.Lib

open List

variable {α κ : Type*} [LinearOrder κ] {key : α → κ}

/-- A list strictly increasing in `key`. -/
structure OrdList (key : α → κ) where
  toList : List α
  sorted : toList.Pairwise (fun a b => key a < key b)

namespace OrdList

instance : Membership α (OrdList key) := ⟨fun l a => a ∈ l.toList⟩

variable {a c : α} {l : OrdList key} {k : κ}

theorem mem_def : a ∈ l ↔ a ∈ l.toList := Iff.rfl

@[ext] theorem ext {m : OrdList key} (h : l.toList = m.toList) : l = m := by
  cases l; cases m; cases h; rfl

instance [DecidableEq α] : DecidableEq (OrdList key) := fun l m =>
  decidable_of_iff (l.toList = m.toList) ⟨OrdList.ext, congrArg toList⟩

def empty : OrdList key := ⟨[], List.Pairwise.nil⟩

@[simp] theorem not_mem_empty : a ∉ (empty : OrdList key) := by simp [mem_def, empty]

theorem eq_of_key_eq {b : α} (ha : a ∈ l) (hb : b ∈ l) (h : key a = key b) : a = b := by
  obtain ⟨l, hl⟩ := l
  induction l with
  | nil => cases ha
  | cons c l ih =>
    have hc := fun x (hx : x ∈ l) => rel_of_pairwise_cons hl hx
    rcases mem_cons.1 ha with rfl | ha' <;> rcases mem_cons.1 hb with rfl | hb'
    · rfl
    · exact absurd h (hc b hb').ne
    · exact absurd h (hc a ha').ne'
    · exact ih hl.of_cons ha' hb'

/-! ## Lookup -/

def find? (l : OrdList key) (k : κ) : Option α := l.toList.find? (fun a => key a = k)

theorem find?_eq_some : l.find? k = some a ↔ a ∈ l ∧ key a = k := by
  constructor
  · intro h
    exact ⟨mem_of_find?_eq_some h, by simpa using find?_some h⟩
  · rintro ⟨ha, rfl⟩
    cases hf : l.find? (key a) with
    | none => exact absurd (find?_eq_none.1 hf a ha) (by simp)
    | some b =>
      have hb : b ∈ l := mem_of_find?_eq_some hf
      have hk : key b = key a := by simpa using find?_some hf
      rw [eq_of_key_eq hb ha hk]

theorem find?_eq_none : l.find? k = none ↔ ∀ a ∈ l, key a ≠ k := by
  simp [find?, mem_def]

/-! ## Insertion of a new key -/

/-- `a` put in its place in a sorted list, unless its key is already there. -/
def insertNewList (key : α → κ) (a : α) : List α → List α
  | [] => [a]
  | b :: l => if key a < key b then a :: b :: l else if key a = key b then b :: l else b :: insertNewList key a l

theorem mem_insertNewList {l : List α} (hl : l.Pairwise (fun a b => key a < key b)) :
    c ∈ insertNewList key a l ↔ c ∈ l ∨ (c = a ∧ ∀ b ∈ l, key b ≠ key a) := by
  induction l with
  | nil => simp [insertNewList]
  | cons b l ih =>
    have hb := fun x (hx : x ∈ l) => rel_of_pairwise_cons hl hx
    unfold insertNewList
    split_ifs with h1 h2
    · have hne : ∀ x ∈ b :: l, key x ≠ key a := by
        rintro x hx
        rcases mem_cons.1 hx with rfl | hx
        · exact h1.ne'
        · exact (h1.trans (hb x hx)).ne'
      simp only [mem_cons] at hne ⊢
      tauto
    · tauto
    · rw [mem_cons, ih hl.of_cons]
      simp only [mem_cons, forall_eq_or_imp]
      tauto

theorem insertNewList_sorted (a : α) {l : List α} (hl : l.Pairwise (fun a b => key a < key b)) :
    (insertNewList key a l).Pairwise (fun a b => key a < key b) := by
  induction l with
  | nil => simp [insertNewList]
  | cons b l ih =>
    have hb := fun x (hx : x ∈ l) => rel_of_pairwise_cons hl hx
    unfold insertNewList
    split_ifs with h1 h2
    · refine pairwise_cons.2 ⟨fun x hx => ?_, hl⟩
      rcases mem_cons.1 hx with rfl | hx
      · exact h1
      · exact h1.trans (hb x hx)
    · exact hl
    · refine pairwise_cons.2 ⟨fun x hx => ?_, ih hl.of_cons⟩
      rcases (mem_insertNewList hl.of_cons).1 hx with hx | ⟨rfl, -⟩
      · exact hb x hx
      · exact lt_of_le_of_ne (not_lt.1 h1) (fun h => h2 h.symm)

/-- Inserts `a` unless an entry with its key is present. -/
def insertNew (l : OrdList key) (a : α) : OrdList key :=
  ⟨insertNewList key a l.toList, insertNewList_sorted a l.sorted⟩

theorem mem_insertNew :
    c ∈ l.insertNew a ↔ c ∈ l ∨ (c = a ∧ ∀ b ∈ l, key b ≠ key a) := mem_insertNewList l.sorted

theorem mem_insertNew_of_injective (h : Function.Injective key) : c ∈ l.insertNew a ↔ c ∈ l ∨ c = a := by
  rw [mem_insertNew]
  grind [Function.Injective]

theorem find?_insertNew (l : OrdList key) (a : α) (k : κ) :
    (l.insertNew a).find? k = if k = key a then some ((l.find? k).getD a) else l.find? k := by
  split_ifs with h
  · subst h
    cases hf : l.find? (key a) with
    | none => exact find?_eq_some.2 ⟨mem_insertNew.2 (.inr ⟨rfl, find?_eq_none.1 hf⟩), rfl⟩
    | some b =>
      obtain ⟨hb, hk⟩ := find?_eq_some.1 hf
      exact find?_eq_some.2 ⟨mem_insertNew.2 (.inl hb), hk⟩
  · ext c
    rw [find?_eq_some, find?_eq_some, mem_insertNew]
    constructor
    · rintro ⟨hc | ⟨rfl, -⟩, rfl⟩
      · exact ⟨hc, rfl⟩
      · exact absurd rfl h
    · rintro ⟨hc, rfl⟩
      exact ⟨.inl hc, rfl⟩

theorem length_insertNew :
    (l.insertNew a).toList.length = l.toList.length + if (l.find? (key a)).isSome then 0 else 1 := by
  obtain ⟨l, hl⟩ := l
  show (insertNewList key a l).length = l.length + if (l.find? (fun b => key b = key a)).isSome then 0 else 1
  induction l with
  | nil => rfl
  | cons b l ih =>
    have hb := fun x (hx : x ∈ l) => rel_of_pairwise_cons hl hx
    rw [insertNewList]
    by_cases hlt : key a < key b
    · -- `a` is below every key of the list
      have hnone : (b :: l).find? (fun c => key c = key a) = none := by
        refine List.find?_eq_none.2 fun c hc => ?_
        rcases mem_cons.1 hc with rfl | hc
        · simpa using hlt.ne'
        · simpa using (hlt.trans (hb c hc)).ne'
      rw [if_pos hlt, hnone]
      rfl
    · rw [if_neg hlt]
      by_cases heq : key a = key b
      · simp [heq]
      · have hne : ¬ key b = key a := fun h => heq h.symm
        rw [if_neg heq, length_cons, ih hl.of_cons, length_cons, find?_cons]
        simp only [hne, decide_false]
        omega

/-! ## Update in place -/

/-- Rewrites the entry at `k` by a function that keeps keys. -/
def modify (l : OrdList key) (k : κ) (f : α → α) (hf : ∀ a, key (f a) = key a) : OrdList key where
  toList := l.toList.map (fun a => if key a = k then f a else a)
  sorted := by
    refine List.pairwise_map.2 (l.sorted.imp ?_)
    intro a b hab
    split_ifs <;> simpa only [hf] using hab

theorem mem_modify {f : α → α} {hf : ∀ a, key (f a) = key a} :
    c ∈ l.modify k f hf ↔ (c ∈ l ∧ key c ≠ k) ∨ ∃ a ∈ l, key a = k ∧ c = f a := by
  simp only [mem_def, modify, mem_map]
  constructor
  · rintro ⟨a, ha, rfl⟩
    split_ifs with h
    · exact .inr ⟨a, ha, h, rfl⟩
    · exact .inl ⟨ha, h⟩
  · rintro (⟨hc, hk⟩ | ⟨a, ha, hk, rfl⟩)
    · exact ⟨c, hc, if_neg hk⟩
    · exact ⟨a, ha, if_pos hk⟩

theorem find?_modify (f : α → α) (hf : ∀ a, key (f a) = key a) (j : κ) :
    (l.modify k f hf).find? j = if j = k then (l.find? j).map f else l.find? j := by
  split_ifs with h
  · subst h
    ext c
    rw [find?_eq_some, mem_modify, Option.map_eq_some_iff]
    constructor
    · rintro ⟨⟨-, hk⟩ | ⟨a, ha, hka, rfl⟩, hkc⟩
      · exact absurd hkc hk
      · exact ⟨a, find?_eq_some.2 ⟨ha, hka⟩, rfl⟩
    · rintro ⟨a, ha, rfl⟩
      obtain ⟨ha, hka⟩ := find?_eq_some.1 ha
      exact ⟨.inr ⟨a, ha, hka, rfl⟩, (hf a).trans hka⟩
  · ext c
    rw [find?_eq_some, find?_eq_some, mem_modify]
    constructor
    · rintro ⟨⟨hc, -⟩ | ⟨a, -, hka, rfl⟩, rfl⟩
      · exact ⟨hc, rfl⟩
      · exact absurd ((hf a).trans hka) h
    · rintro ⟨hc, rfl⟩
      exact ⟨.inl ⟨hc, h⟩, rfl⟩

/-- The entry at `key d` rewritten by `f`, starting from `d` when there is none. -/
def upsert (l : OrdList key) (d : α) (f : α → α) (hf : ∀ a, key (f a) = key a) : OrdList key :=
  (l.insertNew d).modify (key d) f hf

theorem find?_upsert (l : OrdList key) (d : α) (f : α → α) (hf : ∀ a, key (f a) = key a) (k : κ) :
    (l.upsert d f hf).find? k = if k = key d then some (f ((l.find? k).getD d)) else l.find? k := by
  rw [upsert, find?_modify, find?_insertNew]
  split_ifs with h
  · cases l.find? k <;> rfl
  · rfl

/-! ## Restriction and the least entry -/

def filter (l : OrdList key) (p : α → Bool) : OrdList key := ⟨l.toList.filter p, l.sorted.filter p⟩

@[simp] theorem mem_filter {p : α → Bool} : a ∈ l.filter p ↔ a ∈ l ∧ p a = true := by
  simp [mem_def, filter]

theorem find?_filter (l : OrdList key) (p : α → Bool) (k : κ) : (l.filter p).find? k = (l.find? k).filter p := by
  ext c
  rw [find?_eq_some, mem_filter, Option.filter_eq_some_iff, find?_eq_some]
  tauto

/-- Put `a` in, in place of an entry with its key. -/
def insert (l : OrdList key) (a : α) : OrdList key := (l.filter (fun b => decide (key b ≠ key a))).insertNew a

theorem mem_insert : c ∈ l.insert a ↔ (c ∈ l ∧ key c ≠ key a) ∨ c = a := by
  rw [insert, mem_insertNew, mem_filter, decide_eq_true_eq]
  have hfree : ∀ b ∈ l.filter (fun b => decide (key b ≠ key a)), key b ≠ key a := by
    simp
  exact or_congr_right (and_iff_left hfree)

def first? (l : OrdList key) : Option α := l.toList.head?

theorem first?_eq_none : l.first? = none ↔ ∀ a, a ∉ l := by
  simp [first?, mem_def, eq_nil_iff_forall_not_mem]

theorem first?_mem (h : l.first? = some a) : a ∈ l := mem_of_mem_head? h

theorem first?_le {b : α} (h : l.first? = some a) (hb : b ∈ l) : key a ≤ key b := by
  obtain ⟨l, hl⟩ := l
  cases l with
  | nil => cases h
  | cons c l =>
    obtain rfl : c = a := by simpa [first?] using h
    rcases mem_cons.1 hb with rfl | hb
    · exact le_rfl
    · exact (rel_of_pairwise_cons hl hb).le

end OrdList

end Int2Dds.Lib
