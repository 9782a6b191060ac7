import Int2Dds.Lib.Outcome
import Mathlib.Data.List.Basic

/-!
# Parsers, and chains of a left-associative operator

A parser takes an initial part of the tokens and gives a tree and the tokens that are left.

* `Recognizes n R stop f` : on at most `n` tokens, `f` takes exactly the initial parts that `R` relates to a tree and
  that `stop` allows to end there, and does not panic;
* `Chain item isOp mk` : items with operators between them, the tree leaning to the left;
* `leftAssoc` : the loop that reads a chain; `Recognizes.leftAssoc` : it reads chains where its item parser reads items.
-/

namespace Int2Dds.Lib

open List Outcome

variable {ε τ γ : Type}

/-- The first token passes. -/
def HeadIs (p : τ → Bool) (ts : List τ) : Prop := ∃ t ∈ ts.head?, p t = true

variable {ts : List τ}

theorem headIs_cons {p : τ → Bool} {t : τ} : HeadIs p (t :: ts) ↔ p t = true := by simp [HeadIs]

theorem not_headIs_nil {p : τ → Bool} : ¬ HeadIs p ([] : List τ) := by simp [HeadIs]

/-- `f` reads what `R` describes, up to a point where it may stop. -/
structure Recognizes (n : Nat) (R : List τ → γ → Prop) (stop : List τ → Prop)
    (f : List τ → Outcome ε (γ × List τ)) : Prop where
  safe : ∀ ts, ts.length ≤ n → Outcome.Safe 0 (f ts)
  ok_iff : ∀ ts c rest, ts.length ≤ n →
    ((f ts).result = .ok (c, rest) ↔ ∃ p, ts = p ++ rest ∧ R p c ∧ stop rest)

/-- Items with an operator before each but the first. -/
inductive Chain (item : List τ → γ → Prop) (isOp : τ → Bool) (mk : γ → γ → γ) : List τ → γ → Prop
  | one {ts : List τ} {c : γ} : item ts c → Chain item isOp mk ts c
  | more {l r : List τ} {t : τ} {a b : γ} :
      Chain item isOp mk l a → isOp t = true → item r b → Chain item isOp mk (l ++ t :: r) (mk a b)

/-- What follows the first item, and the tree that it makes of the tree `a` before it. -/
inductive ChainTail (item : List τ → γ → Prop) (isOp : τ → Bool) (mk : γ → γ → γ) : γ → List τ → γ → Prop
  | nil (a : γ) : ChainTail item isOp mk a [] a
  | cons {a b c : γ} {t : τ} {r q : List τ} :
      isOp t = true → item r b → ChainTail item isOp mk (mk a b) q c → ChainTail item isOp mk a (t :: (r ++ q)) c

section

variable {item : List τ → γ → Prop} {isOp : τ → Bool} {mk : γ → γ → γ}

theorem ChainTail.snoc {a c b : γ} {q r : List τ} {t : τ} (h : ChainTail item isOp mk a q c) (ht : isOp t = true)
    (hr : item r b) : ChainTail item isOp mk a (q ++ t :: r) (mk c b) := by
  induction h with
  | nil a =>
    have hlast : ChainTail item isOp mk a (t :: (r ++ [])) (mk a b) := ChainTail.cons ht hr (ChainTail.nil _)
    rwa [append_nil] at hlast
  | cons ht' hr' _ ih =>
    rw [cons_append, append_assoc]
    exact ChainTail.cons ht' hr' ih

theorem Chain.append_tail {a c : γ} {l q : List τ} (h : Chain item isOp mk l a) (hq : ChainTail item isOp mk a q c) :
    Chain item isOp mk (l ++ q) c := by
  induction hq generalizing l with
  | nil a =>
    rw [append_nil]
    exact h
  | cons ht hr _ ih =>
    have hlonger := ih (Chain.more h ht hr)
    rwa [append_assoc] at hlonger

theorem chain_iff {c : γ} :
    Chain item isOp mk ts c ↔ ∃ l q a, ts = l ++ q ∧ item l a ∧ ChainTail item isOp mk a q c := by
  constructor
  · intro h
    induction h with
    | one h => exact ⟨_, [], _, (append_nil _).symm, h, ChainTail.nil _⟩
    | more _ ht hr ih =>
      obtain ⟨l, q, a, rfl, hl, hq⟩ := ih
      exact ⟨l, _, a, append_assoc _ _ _, hl, hq.snoc ht hr⟩
  · rintro ⟨l, q, a, rfl, hl, hq⟩
    exact (Chain.one hl).append_tail hq

end

/-! ## The loop -/

/-- `while` an operator is next, take it and an item. -/
def leftAssocLoop (item : List τ → Outcome ε (γ × List τ)) (isOp : τ → Bool) (mk : γ → γ → γ) :
    Nat → γ → List τ → Outcome ε (γ × List τ)
  | 0, _, _ => Outcome.panic
  | _ + 1, left, [] => pure (left, [])
  | n + 1, left, t :: ts =>
    if isOp t then item ts >>= fun (right, rest) => leftAssocLoop item isOp mk n (mk left right) rest
    else pure (left, t :: ts)

def leftAssoc (item : List τ → Outcome ε (γ × List τ)) (isOp : τ → Bool) (mk : γ → γ → γ) (ts : List τ) :
    Outcome ε (γ × List τ) :=
  item ts >>= fun (left, rest) => leftAssocLoop item isOp mk (rest.length + 1) left rest

section

variable {n : Nat} {R : List τ → γ → Prop} {stop : List τ → Prop} {f : List τ → Outcome ε (γ × List τ)}
  {isOp : τ → Bool} {mk : γ → γ → γ}

theorem Recognizes.length_le (h : Recognizes n R stop f) {rest : List τ} {c : γ} (hn : ts.length ≤ n)
    (hf : (f ts).result = .ok (c, rest)) : rest.length ≤ ts.length := by
  obtain ⟨p, rfl, -, -⟩ := (h.ok_iff ts c rest hn).1 hf
  rw [length_append]
  exact Nat.le_add_left _ _

theorem safe_leftAssocLoop (h : Recognizes n R stop f) {fuel : Nat} {left : γ} (hfuel : ts.length < fuel)
    (hn : ts.length ≤ n + 1) : Safe 0 (leftAssocLoop f isOp mk fuel left ts) := by
  induction fuel generalizing left ts with
  | zero => exact absurd hfuel (Nat.not_lt_zero _)
  | succ fuel ih =>
    cases ts with
    | nil => exact safe_pure _
    | cons t ts =>
      rw [length_cons] at hfuel hn
      rw [leftAssocLoop]
      split_ifs
      · refine (h.safe ts (by omega)).bind (fun x hx => ?_)
        have hle : x.2.length ≤ ts.length := h.length_le (by omega) hx
        exact ih (by omega) (by omega)
      · exact safe_pure _

/-- The loop takes what makes a tail, up to a point where no operator follows. -/
theorem leftAssocLoop_ok_iff (h : Recognizes n R stop f) (hop : ∀ t ts, isOp t = true → stop (t :: ts)) {fuel : Nat}
    {left c : γ} {rest : List τ} (hfuel : ts.length < fuel) (hn : ts.length ≤ n + 1) (hstop : stop ts) :
    (leftAssocLoop f isOp mk fuel left ts).result = .ok (c, rest) ↔
      ∃ q, ts = q ++ rest ∧ ChainTail R isOp mk left q c ∧ stop rest ∧ ¬ HeadIs isOp rest := by
  induction fuel generalizing left ts with
  | zero => exact absurd hfuel (Nat.not_lt_zero _)
  | succ fuel ih =>
    cases ts with
    | nil =>
      constructor
      · rintro ⟨⟩
        exact ⟨[], rfl, ChainTail.nil _, hstop, not_headIs_nil⟩
      · rintro ⟨q, hq, htail, -, -⟩
        obtain ⟨rfl, rfl⟩ := append_eq_nil_iff.1 hq.symm
        cases htail
        rfl
    | cons t ts =>
      rw [length_cons] at hfuel hn
      rw [leftAssocLoop]
      split_ifs with ht
      · rw [result_bind_eq_ok]
        constructor
        · rintro ⟨⟨right, rest'⟩, hitem, hloop⟩
          have hle := h.length_le (by omega) hitem
          obtain ⟨p, rfl, hR, hstop'⟩ := (h.ok_iff ts right rest' (by omega)).1 hitem
          obtain ⟨q, rfl, htail, hrest⟩ := (ih (by omega) (by omega) hstop').1 hloop
          exact ⟨t :: (p ++ q), by rw [cons_append, append_assoc], ChainTail.cons ht hR htail, hrest⟩
        · rintro ⟨q, hq, htail, hrest, hend⟩
          cases htail with
          | nil =>
            rw [nil_append] at hq
            rw [← hq, headIs_cons] at hend
            exact absurd ht hend
          | @cons _ b _ _ r q ht' hR htail =>
            rw [cons_append, append_assoc] at hq
            obtain ⟨-, rfl⟩ := hq
            -- the item ends where the next operator or the end of the chain is
            have hstop' : stop (q ++ rest) := by
              cases htail with
              | nil => exact hrest
              | cons ht'' _ _ => exact hop _ _ ht''
            have hitem := (h.ok_iff _ b (q ++ rest) (by omega)).2 ⟨r, rfl, hR, hstop'⟩
            have hle := h.length_le (by omega) hitem
            exact ⟨(b, q ++ rest), hitem, (ih (by omega) (by omega) hstop').2 ⟨q, rfl, htail, hrest, hend⟩⟩
      · rw [result_pure]
        constructor
        · rintro ⟨⟩
          exact ⟨[], rfl, ChainTail.nil _, hstop, fun hhead => ht (headIs_cons.1 hhead)⟩
        · rintro ⟨q, hq, htail, -, -⟩
          cases htail with
          | nil => rw [hq, nil_append]
          | cons ht' _ _ =>
            rw [cons_append, cons.injEq] at hq
            rw [hq.1] at ht
            exact absurd ht' ht

theorem Recognizes.leftAssoc (h : Recognizes n R stop f) (isOp : τ → Bool) (mk : γ → γ → γ)
    (hop : ∀ t ts, isOp t = true → stop (t :: ts)) :
    Recognizes n (Chain R isOp mk) (fun rest => stop rest ∧ ¬ HeadIs isOp rest) (leftAssoc f isOp mk) where
  safe ts hn := by
    refine (h.safe ts hn).bind (fun x hx => ?_)
    have hle : x.2.length ≤ ts.length := h.length_le hn hx
    exact safe_leftAssocLoop h (Nat.lt_succ_self _) (by omega)
  ok_iff ts c rest hn := by
    rw [Lib.leftAssoc, result_bind_eq_ok]
    constructor
    · rintro ⟨⟨left, rest'⟩, hitem, hloop⟩
      have hle := h.length_le hn hitem
      obtain ⟨p, rfl, hR, hstop⟩ := (h.ok_iff ts left rest' hn).1 hitem
      obtain ⟨q, rfl, htail, hrest⟩ := (leftAssocLoop_ok_iff h hop (Nat.lt_succ_self _) (by omega) hstop).1 hloop
      exact ⟨p ++ q, (append_assoc _ _ _).symm, chain_iff.2 ⟨p, q, left, rfl, hR, htail⟩, hrest⟩
    · rintro ⟨p, rfl, hchain, hrest, hend⟩
      obtain ⟨l, q, a, rfl, hR, htail⟩ := chain_iff.1 hchain
      have hstop : stop (q ++ rest) := by
        cases htail with
        | nil => exact hrest
        | cons ht _ _ => exact hop _ _ ht
      have hitem := (h.ok_iff (l ++ q ++ rest) a (q ++ rest) hn).2 ⟨l, append_assoc _ _ _, hR, hstop⟩
      have hle := h.length_le hn hitem
      exact ⟨(a, q ++ rest), hitem,
        (leftAssocLoop_ok_iff h hop (Nat.lt_succ_self _) (by omega) hstop).2 ⟨q, rfl, htail, hrest, hend⟩⟩

end

end Int2Dds.Lib
