import Mathlib.Algebra.Order.Ring.Nat
import Mathlib.Tactic.SplitIfs

/-!
# Computations that can fail, panic and ask for memory

`Outcome ε α` is the end of a computation, with the sizes of the allocations it asked for on the way. It can end in
a value, in an error that the caller sees, or in a panic: an arithmetic overflow, an index out of range, an
allocation that cannot be made, a loop that does not end.

* `Safe bound x` : `x` does not panic and asks for no more than `bound` at once. `safe_bind` is an equivalence, so a
  condition for a part is a condition for the whole.
* `attempt` : go on after an error, but not after a panic.
* `require`, `checked`, `checkedSub`, `unwrap`, `slice`, `request` : the partial operations of the program.
* `pushVec`, `pushSmall`, `collectSmall` : what growing collections ask for.
-/

namespace Int2Dds.Lib

inductive Result (ε α : Type) where
  | ok (a : α)
  | error (e : ε)
  | panic
deriving DecidableEq, Repr

def Result.ok? {ε α : Type} : Result ε α → Option α
  | .ok a => some a
  | _ => none

structure Outcome (ε α : Type) where
  result : Result ε α
  requests : List Nat
deriving DecidableEq, Repr

namespace Outcome

variable {ε δ α β : Type}

protected def bind (x : Outcome ε α) (f : α → Outcome ε β) : Outcome ε β :=
  match x.result with
  | .ok a => ⟨(f a).result, x.requests ++ (f a).requests⟩
  | .error e => ⟨.error e, x.requests⟩
  | .panic => ⟨.panic, x.requests⟩

instance : Monad (Outcome ε) where
  pure a := ⟨.ok a, []⟩
  bind := Outcome.bind

@[simp] theorem result_pure (a : α) : (pure a : Outcome ε α).result = .ok a := rfl

@[simp] theorem requests_pure (a : α) : (pure a : Outcome ε α).requests = [] := rfl

variable {a : α} {x : Outcome ε α} {f : α → Outcome ε β} {e : ε} {i j : Nat} {xs : List α} {c : Prop} {o : Option α}

theorem bind_of_ok (h : x.result = .ok a) : x >>= f = ⟨(f a).result, x.requests ++ (f a).requests⟩ := by
  show Outcome.bind x f = _
  rw [Outcome.bind, h]

theorem result_bind_of_ok (h : x.result = .ok a) :
    (x >>= f).result = (f a).result := by rw [bind_of_ok h]

theorem bind_of_error (h : x.result = .error e) : x >>= f = ⟨.error e, x.requests⟩ := by
  show Outcome.bind x f = _
  rw [Outcome.bind, h]

theorem bind_of_panic (h : x.result = .panic) : x >>= f = ⟨.panic, x.requests⟩ := by
  show Outcome.bind x f = _
  rw [Outcome.bind, h]

theorem result_bind_eq_ok {b : β} : (x >>= f).result = .ok b ↔ ∃ a, x.result = .ok a ∧ (f a).result = .ok b := by
  cases h : x.result with
  | ok a => simp [bind_of_ok h]
  | error e => simp [bind_of_error h]
  | panic => simp [bind_of_panic h]

theorem bind_assoc {γ : Type} (x : Outcome ε α) (f : α → Outcome ε β) (g : β → Outcome ε γ) :
    x >>= f >>= g = x >>= fun a => f a >>= g := by
  cases h : x.result with
  | ok a =>
    rw [bind_of_ok h]
    cases hf : (f a).result with
    | ok b => rw [bind_of_ok rfl, bind_of_ok h, bind_of_ok hf, List.append_assoc]
    | error e => rw [bind_of_error rfl, bind_of_ok h, bind_of_error hf]
    | panic => rw [bind_of_panic rfl, bind_of_ok h, bind_of_panic hf]
  | error e => rw [bind_of_error h, bind_of_error h, bind_of_error rfl]
  | panic => rw [bind_of_panic h, bind_of_panic h, bind_of_panic rfl]

theorem bind_pure_eq : x >>= pure = x := by
  cases h : x.result with
  | ok a => rw [bind_of_ok h, requests_pure, List.append_nil, result_pure, ← h]
  | error e => rw [bind_of_error h, ← h]
  | panic => rw [bind_of_panic h, ← h]

instance : LawfulMonad (Outcome ε) := LawfulMonad.mk' (Outcome ε)
  (fun x => bind_pure_eq) (fun _ _ => rfl) (fun x f g => bind_assoc x f g)

/-! ## Operations -/

def error (e : ε) : Outcome ε α := ⟨.error e, []⟩

def panic : Outcome ε α := ⟨.panic, []⟩

/-- Ask for `n` bytes. -/
def request (n : Nat) : Outcome ε Unit := ⟨.ok (), [n]⟩

/-- Return an error unless `c`. -/
def require (c : Prop) [Decidable c] (e : ε) : Outcome ε Unit := if c then pure () else error e

/-- Unsigned subtraction. -/
def checkedSub (a b : Nat) : Outcome ε Nat := if b ≤ a then pure (a - b) else panic

/-- A sum or product of `w`-bit numbers. -/
def checked (w n : Nat) : Outcome ε Nat := if n < 2 ^ w then pure n else panic

/-- `o.unwrap()`. -/
def unwrap (o : Option α) : Outcome ε α := o.elim panic pure

/-- `o.ok_or(e)?`. -/
def okOr (o : Option α) (e : ε) : Outcome ε α := o.elim (error e) pure

/-- Go on after an error, with the error as a value. -/
def attempt (x : Outcome ε α) : Outcome δ (Except ε α) :=
  match x.result with
  | .ok a => ⟨.ok (.ok a), x.requests⟩
  | .error e => ⟨.ok (.error e), x.requests⟩
  | .panic => ⟨.panic, x.requests⟩

/-- `match x { Ok(a) => f(a), Err(_) => fallback }`. -/
def onError (x : Outcome ε α) (fallback : Outcome δ β) (f : α → Outcome δ β) : Outcome δ β :=
  x.attempt >>= fun r => match r with
    | .ok a => f a
    | .error _ => fallback

/-- `&xs[i..j]`. -/
def slice (xs : List α) (i j : Nat) : Outcome ε (List α) :=
  if i ≤ j ∧ j ≤ xs.length then pure ((xs.take j).drop i) else panic

theorem result_attempt_eq_ok {r : Except ε α} :
    (x.attempt : Outcome δ _).result = .ok r ↔
      (∃ a, x.result = .ok a ∧ r = .ok a) ∨ (∃ e, x.result = .error e ∧ r = .error e) := by
  unfold attempt
  cases h : x.result <;> simp [eq_comm]

/-- Only a panic goes through. -/
theorem result_onError_of_ok (h : x.result = .ok a) (fallback : Outcome δ β) (f : α → Outcome δ β) :
    (x.onError fallback f).result = (f a).result := by
  rw [onError, result_bind_of_ok (result_attempt_eq_ok.2 (.inl ⟨a, h, rfl⟩))]

theorem result_onError_of_error (h : x.result = .error e) (fallback : Outcome δ β) (f : α → Outcome δ β) :
    (x.onError fallback f).result = fallback.result := by
  rw [onError, result_bind_of_ok (result_attempt_eq_ok.2 (.inr ⟨e, h, rfl⟩))]

theorem exists_result_attempt (h : x.result ≠ .panic) : ∃ r, (x.attempt : Outcome δ _).result = .ok r := by
  cases hx : x.result with
  | ok a => exact ⟨_, result_attempt_eq_ok.2 (.inl ⟨a, hx, rfl⟩)⟩
  | error e => exact ⟨_, result_attempt_eq_ok.2 (.inr ⟨e, hx, rfl⟩)⟩
  | panic => exact absurd hx h

theorem result_slice {ys : List α} :
    (slice xs i j : Outcome ε _).result = .ok ys ↔ (i ≤ j ∧ j ≤ xs.length) ∧ ys = (xs.take j).drop i := by
  unfold slice
  split_ifs with h
  · simp [h, eq_comm]
  · exact iff_of_false nofun (fun hn => h hn.1)

/-! ## Safety -/

/-- No panic, and no request above `bound`. -/
def Safe (bound : Nat) (x : Outcome ε α) : Prop := x.result ≠ .panic ∧ ∀ n ∈ x.requests, n ≤ bound

variable {bound : Nat}

@[simp] theorem safe_pure (a : α) : Safe bound (pure a : Outcome ε α) := ⟨nofun, nofun⟩

@[simp] theorem safe_error (e : ε) : Safe bound (error e : Outcome ε α) := ⟨nofun, nofun⟩

@[simp] theorem not_safe_panic : ¬ Safe bound (panic : Outcome ε α) := fun h => h.1 rfl

@[simp] theorem safe_request {n : Nat} : Safe bound (request n : Outcome ε Unit) ↔ n ≤ bound := by
  simp [Safe, request]

theorem safe_bind : Safe bound (x >>= f) ↔ Safe bound x ∧ ∀ a, x.result = .ok a → Safe bound (f a) := by
  cases h : x.result with
  | ok a =>
    rw [bind_of_ok h]
    simp only [Safe, h, List.mem_append]
    constructor
    · rintro ⟨hp, hr⟩
      refine ⟨⟨nofun, fun n hn => hr n (.inl hn)⟩, ?_⟩
      rintro b ⟨⟩
      exact ⟨hp, fun n hn => hr n (.inr hn)⟩
    · rintro ⟨⟨-, hx⟩, hf⟩
      obtain ⟨hp, hr⟩ := hf a rfl
      exact ⟨hp, fun n hn => hn.elim (hx n) (hr n)⟩
  | error e =>
    rw [bind_of_error h]
    simp [Safe, h]
  | panic =>
    rw [bind_of_panic h]
    simp [Safe, h]

theorem safe_bind_of_ok (h : x.result = .ok a) : Safe bound (x >>= f) ↔ Safe bound x ∧ Safe bound (f a) := by
  rw [safe_bind, h]
  exact and_congr_right (fun _ => ⟨fun hf => hf a rfl, fun hf _ hb => Result.ok.inj hb ▸ hf⟩)

theorem Safe.bind (hx : Safe bound x) (hf : ∀ a, x.result = .ok a → Safe bound (f a)) :
    Safe bound (x >>= f) := safe_bind.2 ⟨hx, hf⟩

@[simp] theorem safe_require [Decidable c] : Safe bound (require c e) := by
  unfold require
  split_ifs
  · exact safe_pure ()
  · exact safe_error e

theorem result_ite_eq_ok [Decidable c] {b : α} :
    (if c then pure a else error e : Outcome ε α).result = .ok b ↔ c ∧ a = b := by
  split_ifs with h
  · rw [result_pure, Result.ok.injEq, and_iff_right h]
  · exact iff_of_false nofun (fun hn => h hn.1)

theorem result_require [Decidable c] {u : Unit} : (require c e).result = .ok u ↔ c :=
  result_ite_eq_ok.trans (and_iff_left rfl)

/-- After a check, the rest may rely on it. -/
theorem safe_require_bind [Decidable c] {f : Unit → Outcome ε β} :
    Safe bound (require c e >>= f) ↔ (c → Safe bound (f ())) := by
  rw [safe_bind]
  constructor
  · intro h hc
    exact h.2 () (result_require.2 hc)
  · intro h
    exact ⟨safe_require, fun _ hr => h (result_require.1 hr)⟩

theorem result_checked {w n m : Nat} : (checked w n : Outcome ε Nat).result = .ok m ↔ n < 2 ^ w ∧ n = m := by
  unfold checked
  split_ifs with h
  · simp [h]
  · exact iff_of_false nofun (fun hn => h hn.1)

theorem checked_of_lt {w n : Nat} (h : n < 2 ^ w) : (checked w n : Outcome ε Nat) = pure n := if_pos h

theorem checkedSub_of_le {a b : Nat} (h : b ≤ a) : (checkedSub a b : Outcome ε Nat) = pure (a - b) := if_pos h

theorem require_of [Decidable c] (h : c) : require c e = pure () := if_pos h

theorem slice_of_le (h : i ≤ j ∧ j ≤ xs.length) :
    (slice xs i j : Outcome ε _) = pure ((xs.take j).drop i) := if_pos h

@[simp] theorem safe_unwrap : Safe bound (unwrap o : Outcome ε α) ↔ o.isSome := by
  cases o with
  | none => exact iff_of_false not_safe_panic nofun
  | some a => exact iff_of_true (safe_pure a) rfl

@[simp] theorem safe_okOr : Safe bound (okOr o e) := by
  cases o with
  | none => exact safe_error e
  | some a => exact safe_pure a

theorem result_okOr : (okOr o e).result = .ok a ↔ o = some a := by
  cases o with
  | none => exact iff_of_false nofun nofun
  | some b => simp [okOr]

theorem safe_slice : Safe bound (slice xs i j : Outcome ε _) ↔ i ≤ j ∧ j ≤ xs.length := by
  unfold slice
  split_ifs with h
  · exact iff_of_true (safe_pure _) h
  · exact iff_of_false not_safe_panic h

@[simp] theorem safe_attempt : Safe bound (x.attempt : Outcome δ _) ↔ Safe bound x := by
  unfold attempt Safe
  cases h : x.result <;> simp

theorem Safe.onError {fallback : Outcome δ β} {f : α → Outcome δ β} (hx : Safe bound x)
    (hfallback : Safe bound fallback) (hf : ∀ a, x.result = .ok a → Safe bound (f a)) :
    Safe bound (x.onError fallback f) := by
  apply (safe_attempt.2 hx).bind
  intro r hr
  rcases result_attempt_eq_ok.1 hr with ⟨a, ha, rfl⟩ | ⟨e, -, rfl⟩
  · exact hf a ha
  · exact hfallback

/-! ## Growing collections -/

def requestIf (c : Prop) [Decidable c] (n : Nat) : Outcome ε Unit := if c then request n else pure ()

/-- A push onto a `SmallVec` of `len` items of `size` bytes. It has room for `inline` items, a power of two, and doubles
it when it is full. -/
def pushSmall (inline size len : Nat) : Outcome ε Unit :=
  requestIf (inline ≤ len ∧ 2 ^ len.log2 = len) (2 * len * size)

/-- A push onto a `Vec`, which begins with room for four. -/
def pushVec (size len : Nat) : Outcome ε Unit :=
  requestIf (len = 0 ∨ 4 ≤ len ∧ 2 ^ len.log2 = len) (max 4 (2 * len) * size)

/-- A `SmallVec` with room for one item that collects `n`. -/
def collectSmall (size n : Nat) : Outcome ε Unit := requestIf (1 < n) (2 ^ ((n - 1).log2 + 1) * size)

/-- Pushing `n` items onto `len` asks for no more than `bound` at once. -/
def GrowsWithin (bound inline size len n : Nat) : Prop :=
  ∀ k, len ≤ k → k < len + n → inline ≤ k ∧ 2 ^ k.log2 = k → 2 * k * size ≤ bound

@[simp] theorem result_requestIf [Decidable c] (n : Nat) : (requestIf c n : Outcome ε Unit).result = .ok () := by
  unfold requestIf
  split_ifs <;> rfl

@[simp] theorem safe_requestIf [Decidable c] {n : Nat} :
    Safe bound (requestIf c n : Outcome ε Unit) ↔ (c → n ≤ bound) := by
  unfold requestIf
  split_ifs with h <;> simp [h]

theorem safe_requestIf_bind [Decidable c] {n : Nat} {f : Unit → Outcome ε β} :
    Safe bound (requestIf c n >>= f) ↔ (c → n ≤ bound) ∧ Safe bound (f ()) := by
  rw [safe_bind_of_ok (result_requestIf n), safe_requestIf]

theorem growsWithin_zero {inline size len : Nat} : GrowsWithin bound inline size len 0 := fun k _ _ => by omega

theorem growsWithin_succ {inline size len n : Nat} :
    GrowsWithin bound inline size len (n + 1) ↔
      (inline ≤ len ∧ 2 ^ len.log2 = len → 2 * len * size ≤ bound) ∧ GrowsWithin bound inline size (len + 1) n := by
  constructor
  · intro h
    exact ⟨h len (Nat.le_refl len) (by omega), fun k _ _ => h k (by omega) (by omega)⟩
  · rintro ⟨hfirst, hrest⟩ k hle hlt
    rcases hle.eq_or_lt with rfl | hgt
    · exact hfirst
    · exact hrest k hgt (by omega)

end Outcome

end Int2Dds.Lib
