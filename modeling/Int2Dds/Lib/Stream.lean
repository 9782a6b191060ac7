import Int2Dds.Lib.Slots
import Int2Dds.Lib.Wire
import Mathlib.Algebra.Order.Sub.Basic
import Mathlib.Data.Nat.ModEq

/-!
# Aligned streams

Values are written at the end of a buffer and read at a position of the finished bytes, after padding to their
alignment. What is written so depends on where it is written, but only up to the largest alignment.

* `Coding` : byte order, largest alignment, and the position that alignments are counted from.
* `Encoder ε α` : appends to a buffer; `Decoder Cursor ε α` : reads at a position.
* `Writes c k w chunk` : at every position like `k`, `w` appends `chunk`; `Reads c k r chunk a` : at every such
  position, `r` reads exactly `chunk`, as `a`. Both compose along `bind`, the position moving on by the length of what
  came before, and `delimited` puts a length in front. `Codes` is both: a round trip is proved part by part.
* `ReadsTo` : the same for a reader that is told the end of its object; `ReadsUpTo` : for one that may stop early.
-/

namespace Int2Dds.Lib

/-! ## Alignment -/

/-- The least multiple of `a` from `n` on. -/
def alignUp (a n : Nat) : Nat := (n + a - 1) / a * a

theorem alignUp_sub (a n : Nat) : alignUp a n - n = (a - n % a) % a := by
  rcases Nat.eq_zero_or_pos a with rfl | ha
  · simp [alignUp]
  have hdiv := Nat.div_add_mod n a
  have hmod := Nat.mod_lt n ha
  unfold alignUp
  rcases Nat.eq_zero_or_pos (n % a) with h0 | hpos
  · have hq : (n + a - 1) / a = n / a := by
      rw [show n + a - 1 = (a - 1) + a * (n / a) by omega, Nat.add_mul_div_left _ _ ha, Nat.div_eq_of_lt (by omega),
        Nat.zero_add]
    rw [hq, h0, Nat.sub_zero, Nat.mod_self, Nat.mul_comm]
    omega
  · have hq : (n + a - 1) / a = n / a + 1 := by
      rw [show n + a - 1 = (n % a - 1) + a * (n / a + 1) by rw [Nat.mul_add]; omega, Nat.add_mul_div_left _ _ ha,
        Nat.div_eq_of_lt (by omega), Nat.zero_add]
    rw [hq, Nat.mod_eq_of_lt (by omega : a - n % a < a), Nat.mul_comm, Nat.mul_add]
    omega

/-- How numbers are laid out. -/
structure Coding where
  endianness : Endianness
  maxAlign : Nat
  origin : Nat
deriving DecidableEq, Repr

namespace Coding

/-- The padding before a value of alignment `a` at the position `n`. -/
def padding (c : Coding) (a n : Nat) : Nat := alignUp (min a c.maxAlign) (n - c.origin) - (n - c.origin)

/-- Values look the same at `k` and at `n`. -/
structure Alike (c : Coding) (k n : Nat) : Prop where
  left : c.origin ≤ k
  right : c.origin ≤ n
  mod : n ≡ k [MOD c.maxAlign]

variable {c : Coding} {k n a : Nat}

theorem Alike.refl (h : c.origin ≤ k) : c.Alike k k := ⟨h, h, rfl⟩

theorem Alike.add (h : c.Alike k n) (i : Nat) : c.Alike (k + i) (n + i) :=
  ⟨h.left.trans (Nat.le_add_right k i), h.right.trans (Nat.le_add_right n i), h.mod.add_right i⟩

theorem Alike.trans {m : Nat} (h : c.Alike k n) (h' : c.Alike n m) : c.Alike k m :=
  ⟨h.left, h'.right, h'.mod.trans h.mod⟩

/-- Alignments that divide the largest one. -/
def Fits (c : Coding) (a : Nat) : Prop := min a c.maxAlign ∣ c.maxAlign

theorem Alike.padding_eq (h : c.Alike k n) (ha : c.Fits a) : c.padding a n = c.padding a k := by
  have hmod : (n - c.origin) % min a c.maxAlign = (k - c.origin) % min a c.maxAlign := by
    apply Nat.ModEq.of_dvd ha
    apply Nat.ModEq.add_right_cancel' c.origin
    rw [Nat.sub_add_cancel h.right, Nat.sub_add_cancel h.left]
    exact h.mod
  rw [padding, padding, alignUp_sub, alignUp_sub, hmod]

/-- The largest alignments in use. -/
def Standard (c : Coding) : Prop := c.maxAlign = 4 ∨ c.maxAlign = 8

theorem Standard.fits (h : c.Standard) (ha : a = 1 ∨ a = 2 ∨ a = 4 ∨ a = 8) : c.Fits a := by
  unfold Fits
  rcases h with h | h <;> rw [h] <;> rcases ha with rfl | rfl | rfl | rfl <;> decide

theorem Standard.pos (h : c.Standard) : 0 < c.maxAlign := by
  rcases h with h | h <;> rw [h] <;> decide

theorem padding_eq_zero_iff (ha : 0 < a) (hc : 0 < c.maxAlign) :
    c.padding a n = 0 ↔ (n - c.origin) % min a c.maxAlign = 0 := by
  have hmod := Nat.mod_lt (n - c.origin) (Nat.lt_min.2 ⟨ha, hc⟩)
  rw [padding, alignUp_sub]
  constructor
  · intro h
    by_contra hne
    rw [Nat.mod_eq_of_lt (by omega)] at h
    omega
  · intro h
    rw [h, Nat.sub_zero, Nat.mod_self]

theorem padding_padding (hn : c.origin ≤ n) (ha : 0 < a) (hc : 0 < c.maxAlign) :
    c.padding a (n + c.padding a n) = 0 := by
  rw [padding_eq_zero_iff ha hc, Nat.sub_add_comm hn, padding, alignUp_sub, Nat.add_mod_mod]
  generalize hm : min a c.maxAlign = m
  have hmod := Nat.mod_lt (n - c.origin) (show 0 < m from hm ▸ Nat.lt_min.2 ⟨ha, hc⟩)
  have hdiv := Nat.div_add_mod (n - c.origin) m
  have hsum : n - c.origin + (m - (n - c.origin) % m) = m * ((n - c.origin) / m + 1) := by
    rw [Nat.mul_add]
    omega
  rw [hsum, Nat.mul_mod_right]

theorem padding_add {i : Nat} (hn : c.origin ≤ n) (hi : min a c.maxAlign ∣ i) :
    c.padding a (n + i) = c.padding a n := by
  obtain ⟨j, rfl⟩ := hi
  rw [padding, padding, alignUp_sub, alignUp_sub, Nat.sub_add_comm hn, Nat.add_mul_mod_self_left]

theorem padding_lt (n : Nat) (ha : 0 < a) (hc : 0 < c.maxAlign) : c.padding a n < a := by
  have hmin : 0 < min a c.maxAlign := Nat.lt_min.2 ⟨ha, hc⟩
  rw [padding, alignUp_sub]
  exact Nat.lt_of_lt_of_le (Nat.mod_lt _ hmin) (Nat.min_le_left a c.maxAlign)

end Coding

def zeros (n : Nat) : Bytes := List.replicate n 0

@[simp] theorem length_zeros (n : Nat) : (zeros n).length = n := List.length_replicate

/-! ## Writing -/

abbrev Encoder (ε α : Type) := Decoder Bytes ε α

variable {ε α β : Type}

namespace Encoder

def push (bs : Bytes) : Encoder ε Unit := fun buf => pure ((), buf ++ bs)

def size : Encoder ε Nat := fun buf => pure (buf.length, buf)

def align (c : Coding) (a : Nat) : Encoder ε Unit := fun buf => pure ((), buf ++ zeros (c.padding a buf.length))

/-- A number of `w` bytes, aligned to `a`. -/
def put (c : Coding) (a w n : Nat) : Encoder ε Unit := do
  align c a
  push (c.endianness.put w n)

/-- The four bytes at `pos`, overwritten. -/
def patch (c : Coding) (pos n : Nat) : Encoder ε Unit := fun buf => pure ((), overwrite buf pos (c.endianness.put 4 n))

/-- One after the other. -/
def each (w : α → Encoder ε Unit) : List α → Encoder ε Unit
  | [] => pure ()
  | a :: as => do
    w a
    each w as

/-- What `w` writes, behind the number of its bytes. -/
def delimited (c : Coding) (w : Encoder ε Unit) : Encoder ε Unit := do
  align c 4
  push (zeros 4)
  let start ← size
  w
  let stop ← size
  patch c (start - 4) (stop - start)

end Encoder

/-- At every position like `k`, `w` appends `chunk`. -/
def Writes (c : Coding) (k : Nat) (w : Encoder ε Unit) (chunk : Bytes) : Prop :=
  ∀ buf : Bytes, c.Alike k buf.length → (w buf).result = .ok ((), buf ++ chunk)

section Writes

open Encoder

variable {c : Coding} {k : Nat} {w v : Encoder ε Unit} {chunk rest : Bytes}

theorem writes_pure : Writes c k (pure () : Encoder ε Unit) [] := by
  intro buf _
  rw [List.append_nil]
  rfl

theorem Writes.bind (hw : Writes c k w chunk) (hv : Writes c (k + chunk.length) v rest) :
    Writes c k (w >>= fun _ => v) (chunk ++ rest) := by
  intro buf hbuf
  have hnext : c.Alike (k + chunk.length) (buf ++ chunk).length := by
    rw [List.length_append]
    exact hbuf.add chunk.length
  rw [Decoder.bind_apply, Outcome.result_bind_of_ok (hw buf hbuf), hv _ hnext, List.append_assoc]

theorem Writes.congr (h : Writes c k w chunk) (heq : rest = chunk) : Writes c k w rest := heq ▸ h

theorem Writes.unique (hk : c.origin ≤ k) (h : Writes c k w chunk) (h' : Writes c k w rest) : chunk = rest := by
  have hbuf : c.Alike k (zeros k).length := by
    rw [length_zeros]
    exact Coding.Alike.refl hk
  have heq := (h (zeros k) hbuf).symm.trans (h' (zeros k) hbuf)
  injection heq with heq
  exact List.append_cancel_left (congrArg Prod.snd heq)

theorem writes_push (bs : Bytes) : Writes c k (push bs : Encoder ε Unit) bs := fun _ _ => rfl

theorem writes_align {a : Nat} (ha : c.Fits a) : Writes c k (align c a : Encoder ε Unit) (zeros (c.padding a k)) := by
  intro buf hbuf
  rw [← hbuf.padding_eq ha]
  rfl

theorem writes_put {a : Nat} (ha : c.Fits a) (w n : Nat) :
    Writes c k (put c a w n : Encoder ε Unit) (zeros (c.padding a k) ++ c.endianness.put w n) :=
  (writes_align ha).bind (writes_push _)

theorem overwrite_append (xs ys zs ws : Bytes) (h : ws.length = ys.length) :
    overwrite (xs ++ (ys ++ zs)) xs.length ws = xs ++ (ws ++ zs) := by
  rw [overwrite, List.take_left, h, ← List.append_assoc xs ys zs, ← List.length_append, List.drop_left]

/-- Four bytes are kept free in front of what `w` writes; `f` gets the two ends of it. -/
theorem result_reserved {buf : Bytes} (ha : c.Fits 4) (hw : Writes c (k + c.padding 4 k + 4) w chunk)
    (hbuf : c.Alike k buf.length) (f : Nat → Nat → Encoder ε Unit) :
    ((align c 4 >>= fun _ => push (zeros 4) >>= fun _ => size >>= fun start => w >>= fun _ => size >>= f start)
      buf).result =
      (f ((buf ++ zeros (c.padding 4 k)).length + 4) ((buf ++ zeros (c.padding 4 k)).length + 4 + chunk.length)
        (buf ++ zeros (c.padding 4 k) ++ (zeros 4 ++ chunk))).result := by
  have hfront : c.Alike (k + c.padding 4 k + 4) ((buf ++ zeros (c.padding 4 k)).length + 4) := by
    rw [List.length_append, length_zeros]
    exact (hbuf.add _).add 4
  rw [Decoder.bind_apply, Outcome.result_bind_of_ok (writes_align ha buf hbuf)]
  generalize buf ++ zeros (c.padding 4 k) = front at hfront ⊢
  have hlen : (front ++ zeros 4).length = front.length + 4 := by rw [List.length_append, length_zeros]
  show ((w >>= fun _ => _) (front ++ zeros 4)).result = _
  rw [Decoder.bind_apply, Outcome.result_bind_of_ok (hw _ (hlen ▸ hfront))]
  show (f (front ++ zeros 4).length (front ++ zeros 4 ++ chunk).length (front ++ zeros 4 ++ chunk)).result = _
  simp only [List.length_append, length_zeros, List.append_assoc, Nat.add_assoc]

theorem writes_delimited (ha : c.Fits 4) (hw : Writes c (k + c.padding 4 k + 4) w chunk) :
    Writes c k (delimited c w) (zeros (c.padding 4 k) ++ (c.endianness.put 4 chunk.length ++ chunk)) := by
  intro buf hbuf
  refine (result_reserved ha hw hbuf _).trans ?_
  rw [Nat.add_sub_cancel, Nat.add_sub_cancel_left]
  show Result.ok ((), overwrite _ _ _) = _
  rw [overwrite_append _ _ _ _ (by rw [Endianness.length_put, length_zeros]), List.append_assoc]

end Writes

/-! ## Reading -/

structure Cursor where
  data : Bytes
  position : Nat

namespace Cursor

def align (c : Coding) (a : Nat) : Decoder Cursor ε Unit := fun s =>
  pure ((), { s with position := s.position + c.padding a s.position })

def current : Decoder Cursor ε Nat := fun s => pure (s.position, s)

/-- The next `n` bytes, or the error `short`. -/
def take (short : ε) (n : Nat) : Decoder Cursor ε Bytes := fun s =>
  if s.position + n ≤ s.data.length then
    pure ((s.data.drop s.position).take n, { s with position := s.position + n })
  else Outcome.error short

theorem take_of_lt {n : Nat} {s : Cursor} (h : s.data.length < s.position + n) (short : ε) :
    take short n s = Outcome.error short := if_neg (by omega)

theorem take_of_le {n : Nat} {s : Cursor} (h : s.position + n ≤ s.data.length) (short : ε) :
    take short n s = pure ((s.data.drop s.position).take n, ⟨s.data, s.position + n⟩) := if_pos h

/-- Go on only if `n` more bytes are there. -/
def ensure (short : ε) (n : Nat) : Decoder Cursor ε Unit := fun s =>
  if s.position + n ≤ s.data.length then pure ((), s) else Outcome.error short

/-- A number of `w` bytes, aligned to `a`. -/
def get (short : ε) (c : Coding) (a w : Nat) : Decoder Cursor ε Nat := do
  align c a
  let bs ← take short w
  pure (c.endianness.get bs)

end Cursor

/-- At every position like `k`, `r` reads exactly `chunk`, as `a`. -/
def Reads (c : Coding) (k : Nat) (r : Decoder Cursor ε α) (chunk : Bytes) (a : α) : Prop :=
  ∀ before after : Bytes, c.Alike k before.length →
    (r ⟨before ++ (chunk ++ after), before.length⟩).result =
      .ok (a, ⟨before ++ (chunk ++ after), before.length + chunk.length⟩)

/-- Told where the object ends, `r` reads up to there. -/
def ReadsTo (c : Coding) (k : Nat) (r : Nat → Decoder Cursor ε α) (chunk : Bytes) (a : α) : Prop :=
  ∀ before after : Bytes, c.Alike k before.length →
    (r (before.length + chunk.length) ⟨before ++ (chunk ++ after), before.length⟩).result =
      .ok (a, ⟨before ++ (chunk ++ after), before.length + chunk.length⟩)

section Reads

open Cursor

variable {c : Coding} {k : Nat} {r : Decoder Cursor ε α} {f : α → Decoder Cursor ε β} {chunk rest : Bytes} {a : α}
  {b : β}

theorem reads_pure (a : α) : Reads c k (pure a : Decoder Cursor ε α) [] a := fun _ _ _ => rfl

theorem Reads.to (h : Reads c k r chunk a) : ReadsTo c k (fun _ => r) chunk a := h

theorem Reads.bindTo {f : Nat → α → Decoder Cursor ε β} (hr : Reads c k r chunk a)
    (hf : ReadsTo c (k + chunk.length) (fun stop => f stop a) rest b) :
    ReadsTo c k (fun stop => r >>= f stop) (chunk ++ rest) b := by
  intro before after hbefore
  have hnext : c.Alike (k + chunk.length) (before ++ chunk).length := by
    rw [List.length_append]
    exact hbefore.add chunk.length
  have hlast := hf (before ++ chunk) after hnext
  rw [List.append_assoc, List.length_append, Nat.add_assoc] at hlast
  show ((r >>= f (before.length + (chunk ++ rest).length)) _).result = _
  rw [Decoder.bind_apply, List.append_assoc, Outcome.result_bind_of_ok (hr before (rest ++ after) hbefore),
    List.length_append]
  exact hlast

theorem Reads.bind (hr : Reads c k r chunk a) (hf : Reads c (k + chunk.length) (f a) rest b) :
    Reads c k (r >>= f) (chunk ++ rest) b := hr.bindTo (f := fun _ => f) hf.to

/-- The position, compared with the end, says whether anything is left. -/
theorem ReadsTo.of_current {f : Nat → Nat → Decoder Cursor ε α} {g : Nat → Decoder Cursor ε α}
    (h : ReadsTo c k g chunk a) (hf : ∀ p, f (p + chunk.length) p = g (p + chunk.length)) :
    ReadsTo c k (fun stop => Cursor.current >>= f stop) chunk a := by
  intro before after hbefore
  show (f (before.length + chunk.length) before.length _).result = _
  rw [hf]
  exact h before after hbefore

theorem Reads.alike {k' : Nat} (h : Reads c k r chunk a) (hk : c.Alike k k') : Reads c k' r chunk a :=
  fun before after hbefore => h before after (hk.trans hbefore)

/-- A step that reads nothing, before the rest. -/
theorem Reads.bind_nil (hr : Reads c k r [] a) (hf : Reads c k (f a) rest b) : Reads c k (r >>= f) rest b := hr.bind hf

theorem Reads.bind_pure (hr : Reads c k r chunk a) (g : α → β) : Reads c k (r >>= fun x => pure (g x)) chunk (g a) := by
  rw [← List.append_nil chunk]
  exact hr.bind (reads_pure (g a))

theorem reads_align {a : Nat} (ha : c.Fits a) :
    Reads c k (align c a : Decoder Cursor ε Unit) (zeros (c.padding a k)) () := by
  intro before after hbefore
  show Result.ok ((), (⟨_, before.length + c.padding a before.length⟩ : Cursor)) = _
  rw [hbefore.padding_eq ha, length_zeros]

variable {n : Nat}

theorem reads_take (short : ε) (h : chunk.length = n) : Reads c k (take short n) chunk chunk := by
  intro before after _
  have hle : before.length + n ≤ (before ++ (chunk ++ after)).length := by
    rw [List.length_append, List.length_append]
    omega
  rw [take, if_pos hle, List.drop_left, ← h, List.take_left]
  rfl

/-- A check that enough bytes are there, before what reads them. -/
theorem Reads.ensure (short : ε) (h : n ≤ rest.length) {s : Decoder Cursor ε β} (hs : Reads c k s rest b) :
    Reads c k (Cursor.ensure short n >>= fun _ => s) rest b := by
  intro before after hbefore
  have hle : before.length + n ≤ (before ++ (rest ++ after)).length := by
    rw [List.length_append, List.length_append]
    omega
  have hok : (Cursor.ensure short n ⟨before ++ (rest ++ after), before.length⟩).result = .ok ((), _) :=
    congrArg Outcome.result (if_pos hle)
  rw [Decoder.bind_apply, Outcome.result_bind_of_ok hok]
  exact hs before after hbefore

theorem reads_get (short : ε) {a w : Nat} (ha : c.Fits a) (hn : n < 256 ^ w) :
    Reads c k (get short c a w) (zeros (c.padding a k) ++ c.endianness.put w n) n := by
  have hget := (reads_take (c := c) (k := k + (zeros (c.padding a k)).length) short
    (c.endianness.length_put w n)).bind_pure c.endianness.get
  rw [c.endianness.get_put_of_lt hn] at hget
  exact (reads_align ha).bind hget

end Reads

/-! ### Values that may leave something unread -/

/-- `r` reads `chunk` as `a`, and the whole of it if `whole`; otherwise it may stop before the end. -/
def ReadsUpTo (whole : Bool) (c : Coding) (k : Nat) (r : Decoder Cursor ε α) (chunk : Bytes) (a : α) : Prop :=
  ∀ before after : Bytes, c.Alike k before.length → ∃ p, before.length ≤ p ∧ p ≤ before.length + chunk.length ∧
    (whole = true → p = before.length + chunk.length) ∧
    (r ⟨before ++ (chunk ++ after), before.length⟩).result = .ok (a, ⟨before ++ (chunk ++ after), p⟩)

section ReadsUpTo

variable {c : Coding} {k : Nat} {r : Decoder Cursor ε α} {f : α → Decoder Cursor ε β} {chunk rest : Bytes} {a : α}
  {b : β}
  {whole : Bool}

theorem Reads.upTo (h : Reads c k r chunk a) : ReadsUpTo whole c k r chunk a :=
  fun before after hbefore =>
    ⟨_, Nat.le_add_right _ _, Nat.le_refl _, fun _ => rfl, h before after hbefore⟩

theorem ReadsUpTo.reads (h : ReadsUpTo true c k r chunk a) : Reads c k r chunk a := by
  intro before after hbefore
  obtain ⟨p, -, -, hp, hr⟩ := h before after hbefore
  rw [hp rfl] at hr
  exact hr

theorem ReadsUpTo.alike {k' : Nat} (h : ReadsUpTo whole c k r chunk a) (hk : c.Alike k k') :
    ReadsUpTo whole c k' r chunk a := fun before after hbefore => h before after (hk.trans hbefore)

theorem Reads.bindUpTo (hr : Reads c k r chunk a) (hf : ReadsUpTo whole c (k + chunk.length) (f a) rest b) :
    ReadsUpTo whole c k (r >>= f) (chunk ++ rest) b := by
  intro before after hbefore
  have hnext : c.Alike (k + chunk.length) (before ++ chunk).length := by
    rw [List.length_append]
    exact hbefore.add chunk.length
  obtain ⟨p, hle, hpe, hwhole, hlast⟩ := hf (before ++ chunk) after hnext
  rw [List.append_assoc, List.length_append] at hlast
  rw [List.length_append] at hle hpe hwhole
  refine ⟨p,
    by omega, by rw [List.length_append]; omega, fun h => by rw [hwhole h, List.length_append, Nat.add_assoc], ?_⟩
  rw [Decoder.bind_apply, List.append_assoc, Outcome.result_bind_of_ok (hr before (rest ++ after) hbefore), hlast]

theorem ReadsUpTo.before (hr : ReadsUpTo whole c k r chunk a) (hf : f a = pure b) :
    ReadsUpTo whole c k (r >>= f) chunk b := by
  intro before after hbefore
  obtain ⟨p, hle, hpe, hwhole, hlast⟩ := hr before after hbefore
  refine ⟨p, hle, hpe, hwhole, ?_⟩
  rw [Decoder.bind_apply, Outcome.result_bind_of_ok hlast, hf]
  rfl

theorem ReadsUpTo.bind_pure (hr : ReadsUpTo whole c k r chunk a) (g : α → β) :
    ReadsUpTo whole c k (r >>= fun x => pure (g x)) chunk (g a) := hr.before rfl

end ReadsUpTo

/-! ## Writing and reading back -/

/-- At every position like `k`, `w` writes `chunk` and `r` reads it as `a`. -/
structure Codes (c : Coding) (k : Nat) (w : Encoder ε Unit) (r : Decoder Cursor ε α) (chunk : Bytes) (a : α) :
    Prop where
  writes : Writes c k w chunk
  reads : Reads c k r chunk a

section Codes

variable {c : Coding} {k : Nat} {w v : Encoder ε Unit} {r : Decoder Cursor ε α} {f : α → Decoder Cursor ε β}
  {chunk rest : Bytes} {a : α} {b : β}

theorem codes_pure : Codes c k (pure () : Encoder ε Unit) (pure a) [] a := ⟨writes_pure, reads_pure a⟩

theorem Codes.bind (h : Codes c k w r chunk a) (h' : Codes c (k + chunk.length) v (f a) rest b) :
    Codes c k (w >>= fun _ => v) (r >>= f) (chunk ++ rest) b := ⟨h.writes.bind h'.writes, h.reads.bind h'.reads⟩

theorem Codes.map (h : Codes c k w r chunk a) (g : α → β) : Codes c k w (r >>= fun x => pure (g x)) chunk (g a) :=
  ⟨h.writes, h.reads.bind_pure g⟩

theorem codes_put (short : ε) {a w n : Nat} (ha : c.Fits a) (hn : n < 256 ^ w) :
    Codes c k (Encoder.put c a w n) (Cursor.get short c a w) (zeros (c.padding a k) ++ c.endianness.put w n) n :=
  ⟨writes_put ha w n, reads_get short ha hn⟩

end Codes

end Int2Dds.Lib
