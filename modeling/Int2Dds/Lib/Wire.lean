import Int2Dds.Lib.Outcome
import Mathlib.Data.BitVec
import Mathlib.Tactic.Ring

/-!
# Bytes, byte orders and decoders

* `leBytes`, `ofLeBytes` : numbers as little-endian bytes, inverse to each other; `Endianness.put` and
  `Endianness.get` in either order.
* `Decoder σ ε α` : reads a value and moves on in its input, a state of type `σ`. `Decoder.Safe bound d` says that
  `d` is safe from every state.
* With the unread bytes as the state, `Decodes d bs a` says that `d` reads exactly the bytes `bs` as `a`, whatever
  follows; it composes along `bind`, so a round trip is proved field by field.
-/

namespace Int2Dds.Lib

open List

abbrev Byte := BitVec 8

abbrev Bytes := List Byte

/-! ## Numbers as bytes -/

def leBytes : Nat → Nat → Bytes
  | 0, _ => []
  | w + 1, n => BitVec.ofNat 8 n :: leBytes w (n / 256)

def ofLeBytes : Bytes → Nat
  | [] => 0
  | b :: bs => b.toNat + 256 * ofLeBytes bs

variable (w n : Nat)

@[simp] theorem length_leBytes : (leBytes w n).length = w := by
  induction w generalizing n with
  | zero => rfl
  | succ w ih => rw [leBytes, length_cons, ih]

theorem ofLeBytes_leBytes : ofLeBytes (leBytes w n) = n % 256 ^ w := by
  induction w generalizing n with
  | zero => simp [leBytes, ofLeBytes, Nat.mod_one]
  | succ w ih =>
    rw [leBytes, ofLeBytes, ih, BitVec.toNat_ofNat, pow_succ 256, Nat.mul_comm (256 ^ w), Nat.mod_mul]

theorem ofLeBytes_lt (bs : Bytes) : ofLeBytes bs < 256 ^ bs.length := by
  induction bs with
  | nil => exact Nat.one_pos
  | cons b bs ih =>
    rw [ofLeBytes, length_cons]
    omega

theorem leBytes_mod : leBytes w (n % 256 ^ w) = leBytes w n := by
  induction w generalizing n with
  | zero => rfl
  | succ w ih =>
    have hbyte : BitVec.ofNat 8 (n % 256 ^ (w + 1)) = BitVec.ofNat 8 n := by
      apply BitVec.eq_of_toNat_eq
      exact Nat.mod_mod_of_dvd n (Dvd.intro_left (256 ^ w) rfl)
    have hrest : n % 256 ^ (w + 1) / 256 = n / 256 % 256 ^ w := by
      rw [Nat.pow_succ, Nat.mul_comm, Nat.mod_mul_right_div_self]
    rw [leBytes, leBytes, hbyte, hrest, ih]

inductive Endianness where
  | little
  | big
deriving DecidableEq, Repr

namespace Endianness

def put (e : Endianness) (w n : Nat) : Bytes :=
  match e with
  | .little => leBytes w n
  | .big => (leBytes w n).reverse

def get (e : Endianness) (bs : Bytes) : Nat :=
  match e with
  | .little => ofLeBytes bs
  | .big => ofLeBytes bs.reverse

variable (e : Endianness) (w n : Nat)

@[simp] theorem length_put : (e.put w n).length = w := by
  cases e <;> simp [put]

theorem put_mod : e.put w (n % 256 ^ w) = e.put w n := by
  cases e <;> rw [put, put, leBytes_mod]

theorem get_put : e.get (e.put w n) = n % 256 ^ w := by
  cases e with
  | little => exact ofLeBytes_leBytes w n
  | big => rw [put, get, reverse_reverse, ofLeBytes_leBytes]

theorem get_put_of_lt {w n : Nat} (h : n < 256 ^ w) : e.get (e.put w n) = n := by
  rw [get_put, Nat.mod_eq_of_lt h]

theorem get_lt (bs : Bytes) : e.get bs < 256 ^ bs.length := by
  cases e with
  | little => exact ofLeBytes_lt bs
  | big =>
    rw [← length_reverse]
    exact ofLeBytes_lt bs.reverse

end Endianness

/-! ## Decoders -/

/-- Reads a value from the state of its input, and returns what the state is then. -/
def Decoder (σ ε α : Type) : Type := σ → Outcome ε (α × σ)

namespace Decoder

variable {σ ε α β : Type}

instance : Monad (Decoder σ ε) where
  pure a := fun s => pure (a, s)
  bind d f := fun s => d s >>= fun p => f p.1 p.2

theorem bind_apply (d : Decoder σ ε α) (f : α → Decoder σ ε β) (s : σ) :
    (d >>= f) s = d s >>= fun p => f p.1 p.2 := rfl

theorem pure_bind (a : α) (f : α → Decoder σ ε β) : pure a >>= f = f a := rfl

theorem bind_assoc {γ : Type} (d : Decoder σ ε α) (f : α → Decoder σ ε β) (g : β → Decoder σ ε γ) :
    d >>= f >>= g = d >>= fun a => f a >>= g := by
  funext s
  exact Outcome.bind_assoc (d s) (fun p => f p.1 p.2) (fun p => g p.1 p.2)

/-- A computation that reads nothing. -/
def lift (x : Outcome ε α) : Decoder σ ε α := fun s => x >>= fun a => pure (a, s)

/-- `n` values in a row. -/
def times : Nat → Decoder σ ε α → Decoder σ ε (List α)
  | 0, _ => pure []
  | n + 1, d => do
    let a ← d
    let as ← times n d
    pure (a :: as)

/-- A value that is there only if `c`. -/
def optional (c : Prop) [Decidable c] (d : Decoder σ ε α) : Decoder σ ε (Option α) :=
  if c then do
    let a ← d
    pure (some a)
  else pure none

/-- Read from `s`, and leave what follows unread. -/
def runOn (d : Decoder σ ε α) (s : σ) : Outcome ε α := d s >>= fun p => pure p.1

/-- The next `n` bytes, or the error `short`. -/
def take (short : ε) (n : Nat) : Decoder Bytes ε Bytes := fun s =>
  if n ≤ s.length then pure (s.take n, s.drop n) else Outcome.error short

/-- The next `w` bytes as a number. -/
def uint (short : ε) (e : Endianness) (w : Nat) : Decoder Bytes ε Nat := do
  let bs ← take short w
  pure (e.get bs)

/-- The next `k` bytes as a word of `w` bits. -/
def word (short : ε) (e : Endianness) (k w : Nat) : Decoder Bytes ε (BitVec w) := do
  let n ← uint short e k
  pure (BitVec.ofNat w n)

variable {k w n : Nat} {s bs : Bytes} {a : α} {d : Decoder Bytes ε α} {f : α → Decoder Bytes ε β}

theorem word_of_le {short : ε} {e : Endianness} (h : k ≤ s.length) :
    word short e k w s = pure (BitVec.ofNat w (e.get (s.take k)), s.drop k) := by
  show (take short k >>= fun bs => pure (e.get bs)) s >>= _ = _
  rw [bind_apply, take, if_pos h]
  rfl

theorem word_of_lt {short : ε} {e : Endianness} (h : s.length < k) : word short e k w s = Outcome.error short := by
  show (take short k >>= fun bs => pure (e.get bs)) s >>= _ = _
  rw [bind_apply, take, if_neg (by omega)]
  rfl

/-! ### What a decoder reads -/

/-- `d` reads exactly `bs`, as `a`. -/
def Decodes (d : Decoder Bytes ε α) (bs : Bytes) (a : α) : Prop := ∀ rest, (d (bs ++ rest)).result = .ok (a, rest)

theorem decodes_pure (a : α) : Decodes (pure a : Decoder Bytes ε α) [] a := fun _ => rfl

theorem Decodes.bind {cs : Bytes} {b : β} (hd : Decodes d bs a) (hf : Decodes (f a) cs b) :
    Decodes (d >>= f) (bs ++ cs) b := by
  intro rest
  rw [append_assoc]
  exact Outcome.result_bind_eq_ok.2 ⟨(a, cs ++ rest), hd _, hf rest⟩

theorem Decodes.bind_nil {cs : Bytes} {b : β} (hd : Decodes d [] a) (hf : Decodes (f a) cs b) :
    Decodes (d >>= f) cs b := hd.bind hf

theorem Decodes.bind_pure (hd : Decodes d bs a) (f : α → β) : Decodes (d >>= fun a => pure (f a)) bs (f a) := by
  rw [← append_nil bs]
  apply hd.bind
  exact decodes_pure (f a)

theorem decodes_lift {x : Outcome ε α} (h : x.result = .ok a) : Decodes (lift x) [] a := fun _ =>
  Outcome.result_bind_eq_ok.2 ⟨a, h, rfl⟩

variable (short : ε) (e : Endianness)

theorem decodes_take (h : bs.length = n) : Decodes (take short n) bs bs := by
  intro rest
  have hle : n ≤ (bs ++ rest).length := by rw [length_append]; omega
  rw [take, if_pos hle, ← h, take_left, drop_left]
  rfl

theorem decodes_uint (h : n < 256 ^ w) : Decodes (uint short e w) (e.put w n) n := by
  have hget := (decodes_take short (e.length_put w n)).bind_pure e.get
  rwa [e.get_put_of_lt h] at hget

theorem decodes_word (h : w ≤ 8 * k) (v : BitVec w) : Decodes (word short e k w) (e.put k v.toNat) v := by
  have hlt : v.toNat < 256 ^ k := by
    calc v.toNat < 2 ^ w := v.isLt
      _ ≤ 2 ^ (8 * k) := Nat.pow_le_pow_right (by decide) h
      _ = 256 ^ k := by rw [Nat.pow_mul]
  have hword := (decodes_uint short e hlt).bind_pure (BitVec.ofNat w)
  rwa [BitVec.ofNat_toNat, BitVec.setWidth_eq] at hword

theorem decodes_times {enc : α → Bytes} {as : List α} (h : ∀ a ∈ as, Decodes d (enc a) a) :
    Decodes (times as.length d) (as.flatMap enc) as := by
  induction as with
  | nil => exact decodes_pure []
  | cons a as ih =>
    have htail := ih (forall_mem_cons.1 h).2
    exact (h a mem_cons_self).bind (htail.bind_pure (a :: ·))

theorem decodes_optional {enc : α → Bytes} {o : Option α} (h : ∀ a ∈ o, Decodes d (enc a) a) :
    Decodes (optional (some o.isSome = some true) d) (o.elim [] enc) o := by
  cases o with
  | none => exact decodes_pure none
  | some a => exact (h a rfl).bind_pure some

theorem Decodes.runOn (h : Decodes d bs a) (rest : Bytes) :
    (d.runOn (bs ++ rest)).result = .ok a := Outcome.result_bind_eq_ok.2 ⟨(a, rest), h rest, rfl⟩

/-! ### Values of a fixed size -/

/-- `d` reads `n` bytes, whatever they are, and fails where there are fewer. -/
def FixedSize (n : Nat) (d : Decoder Bytes ε α) : Prop :=
  ∀ s, (n ≤ s.length → ∃ a, (d s).result = .ok (a, s.drop n)) ∧ (s.length < n → ∃ e, (d s).result = .error e)

theorem FixedSize.of_ok (hd : FixedSize n d) {s' : Bytes} (h : (d s).result = .ok (a, s')) :
    n ≤ s.length ∧ s' = s.drop n := by
  have hle : n ≤ s.length := by
    by_contra hlt
    obtain ⟨e, he⟩ := (hd s).2 (by omega)
    rw [he] at h
    cases h
  obtain ⟨b, hb⟩ := (hd s).1 hle
  rw [hb] at h
  cases h
  exact ⟨hle, rfl⟩

theorem fixedSize_pure (a : α) : FixedSize 0 (pure a : Decoder Bytes ε α) :=
  fun _ => ⟨fun _ => ⟨a, rfl⟩, fun h => absurd h (Nat.not_lt_zero _)⟩

theorem FixedSize.bind {m : Nat} (hd : FixedSize m d) (hf : ∀ a, FixedSize n (f a)) : FixedSize (m + n) (d >>= f) := by
  intro s
  rw [bind_apply]
  constructor
  · intro h
    obtain ⟨a, ha⟩ := (hd s).1 (by omega)
    obtain ⟨b, hb⟩ := (hf a (s.drop m)).1 (by rw [length_drop]; omega)
    rw [drop_drop] at hb
    exact ⟨b, Outcome.result_bind_eq_ok.2 ⟨_, ha, hb⟩⟩
  · intro h
    by_cases hm : m ≤ s.length
    · obtain ⟨a, ha⟩ := (hd s).1 hm
      obtain ⟨e, he⟩ := (hf a (s.drop m)).2 (by rw [length_drop]; omega)
      exact ⟨e, by rw [Outcome.bind_of_ok ha]; exact he⟩
    · obtain ⟨e, he⟩ := (hd s).2 (by omega)
      exact ⟨e, by rw [Outcome.bind_of_error he]⟩

theorem FixedSize.bind_pure (hd : FixedSize n d) (f : α → β) :
    FixedSize n (d >>= fun a => pure (f a)) := hd.bind (fun a => fixedSize_pure (f a))

theorem fixedSize_word (k w : Nat) : FixedSize k (word short e k w) := by
  intro s
  constructor
  · intro h
    rw [word_of_le h]
    exact ⟨_, rfl⟩
  · intro h
    rw [word_of_lt h]
    exact ⟨_, rfl⟩

theorem fixedSize_times (h : FixedSize k d) : FixedSize (k * n) (times n d) := by
  induction n with
  | zero => exact fixedSize_pure []
  | succ n ih =>
    rw [Nat.mul_succ, Nat.add_comm]
    exact h.bind (fun a => ih.bind_pure (a :: ·))

/-! ### Safety -/

def Safe (bound : Nat) (d : Decoder σ ε α) : Prop := ∀ s, (d s).Safe bound

variable {bound : Nat}

theorem safe_pure (a : α) : Safe bound (pure a : Decoder σ ε α) := fun _ => Outcome.safe_pure _

theorem Safe.bind {d : Decoder σ ε α} {f : α → Decoder σ ε β} (hd : Safe bound d) (hf : ∀ a, Safe bound (f a)) :
    Safe bound (d >>= f) := fun s => (hd s).bind (fun p _ => hf p.1 p.2)

theorem safe_lift {x : Outcome ε α} (h : x.Safe bound) : Safe bound (lift x : Decoder σ ε α) :=
  fun _ => h.bind (fun _ _ => Outcome.safe_pure _)

theorem safe_take : Safe bound (take short n) := by
  intro s
  unfold take
  split_ifs
  · exact Outcome.safe_pure _
  · exact Outcome.safe_error _

theorem safe_uint : Safe bound (uint short e w) :=
  (safe_take short).bind (fun _ => safe_pure _)

theorem safe_word : Safe bound (word short e k w) :=
  (safe_uint short e).bind (fun _ => safe_pure _)

theorem safe_times {d : Decoder σ ε α} (h : Safe bound d) : Safe bound (times n d) := by
  induction n with
  | zero => exact safe_pure []
  | succ n ih => exact h.bind (fun a => ih.bind (fun as => safe_pure _))

theorem safe_optional {c : Prop} [Decidable c] {d : Decoder σ ε α} (h : Safe bound d) : Safe bound (optional c d) := by
  unfold optional
  split_ifs
  · exact h.bind (fun _ => safe_pure _)
  · exact safe_pure none

theorem Safe.runOn {d : Decoder σ ε α} (h : Safe bound d) (s : σ) : (d.runOn s).Safe bound :=
  (h s).bind (fun _ _ => Outcome.safe_pure _)

end Decoder

end Int2Dds.Lib
