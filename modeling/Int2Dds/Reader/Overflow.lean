import Int2Dds.Reader.Delivery

/-!
# Overflow in the HEARTBEAT and GAP handlers

A peer writes the first and last number of a HEARTBEAT and the start and base of a GAP. The handlers walk the numbers
between and step one past the last.
-/

namespace Int2Dds.Reader
open Lib Rtps WriterProxy List Option OrdList

namespace WriterProxy

variable {p q : WriterProxy} {start : Int}

structure InRange (p : WriterProxy) : Prop where
  expected : p.expectedSn < 2 ^ 63
  ledger : ∀ k c, p.entry k = some c → k < 2 ^ 63
  buffer : ∀ c ∈ p.bufferedChange.toList, c.sequenceNumber < 2 ^ 63

/-- Every number from `k` to the largest has a settled entry. -/
def SettledToTop (p : WriterProxy) (k : Int) : Prop :=
  ∀ m, k ≤ m → m < 2 ^ 63 → ∃ c, p.entry m = some c ∧ isSettled c = true

/-! ## The walks -/

theorem unsettledWalk_eq_none {l : List ChangeFromWriter} {next : Int}
    (hl : l.Pairwise (fun a b => a.sequenceNumber < b.sequenceNumber)) (hge : ∀ c ∈ l, next ≤ c.sequenceNumber)
    (hlt : ∀ c ∈ l, c.sequenceNumber < 2 ^ 63) (hnext : next < 2 ^ 63) :
    unsettledWalk l next = none ↔
      ∀ m, next ≤ m → m < 2 ^ 63 → ∃ c ∈ l, c.sequenceNumber = m ∧ isSettled c = true := by
  induction l generalizing next with
  | nil => simpa [unsettledWalk] using ⟨next, le_rfl, hnext⟩
  | cons c l ih =>
    have hrest := fun d (hd : d ∈ l) => rel_of_pairwise_cons hl hd
    have hc := hge c mem_cons_self
    unfold unsettledWalk
    split_ifs with hstop
    · -- the walk stops at `next`, which has no settled entry
      refine iff_of_false (by simp) (fun hall => ?_)
      obtain ⟨d, hd, hdn, hset⟩ := hall next le_rfl hnext
      rcases mem_cons.1 hd with rfl | hd
      · rcases hstop with hne | huns
        · exact hne hdn
        · rw [hset] at huns; cases huns
      · have := hrest d hd
        omega
    · push Not at hstop
      obtain ⟨rfl, hset⟩ := hstop
      by_cases htop : c.sequenceNumber + 1 < 2 ^ 63
      · have hadd : addI64 c.sequenceNumber 1 = some (c.sequenceNumber + 1) := if_pos htop
        rw [hadd, bind_some, ih hl.of_cons (fun d hd => by have := hrest d hd; omega)
          (fun d hd => hlt d (mem_cons_of_mem c hd)) htop]
        constructor
        · intro hall m hm hmt
          rcases eq_or_lt_of_le hm with rfl | hm
          · exact ⟨c, mem_cons_self, rfl, by simpa using hset⟩
          · obtain ⟨d, hd, h⟩ := hall m (by omega) hmt
            exact ⟨d, mem_cons_of_mem c hd, h⟩
        · intro hall m hm hmt
          obtain ⟨d, hd, hdm, h⟩ := hall m (by omega) hmt
          rcases mem_cons.1 hd with rfl | hd
          · omega
          · exact ⟨d, hd, hdm, h⟩
      · have hadd : addI64 c.sequenceNumber 1 = none := if_neg htop
        rw [hadd]
        refine iff_of_true rfl (fun m hm hmt => ⟨c, mem_cons_self, by omega, by simpa using hset⟩)

theorem firstUnsettledFrom_eq_none (hp : ∀ k c, p.entry k = some c → k < 2 ^ 63) (hstart : start < 2 ^ 63) :
    p.firstUnsettledFrom start = none ↔ p.SettledToTop start := by
  have hmem : ∀ c, c ∈ p.changesFromWriter.filter (fun c => decide (start ≤ c.sequenceNumber)) ↔
      p.entry c.sequenceNumber = some c ∧ start ≤ c.sequenceNumber := fun c => by
    rw [OrdList.mem_filter, decide_eq_true_iff, entry, OrdList.find?_eq_some, and_iff_left rfl]
  rw [firstUnsettledFrom, unsettledWalk_eq_none (sorted _) (fun c hc => ((hmem c).1 hc).2)
    (fun c hc => hp _ _ ((hmem c).1 hc).1) hstart]
  refine forall₃_congr (fun m hm _ => ⟨?_, ?_⟩)
  · rintro ⟨c, hc, rfl, hset⟩
    exact ⟨c, ((hmem c).1 hc).1, hset⟩
  · rintro ⟨c, hc, hset⟩
    obtain rfl := (find?_eq_some.1 hc).2
    exact ⟨c, (hmem c).2 ⟨hc, hm⟩, rfl, hset⟩

/-- The ACKNACK base overflows when the ledger is one settled run up to the largest number. -/
theorem calculateBitmapBase_eq_none (hp : ∀ k c, p.entry k = some c → k < 2 ^ 63) :
    p.calculateBitmapBase = none ↔ ∃ k < 2 ^ 63, p.SettledToTop k ∧ ∀ m < k, p.entry m = none := by
  unfold calculateBitmapBase
  cases hfirst : p.changesFromWriter.first? with
  | none =>
    refine iff_of_false (by simp) ?_
    rintro ⟨k, hk, hset, -⟩
    obtain ⟨c, hc, -⟩ := hset k le_rfl hk
    exact first?_eq_none.1 hfirst c (find?_eq_some.1 hc).1
  | some c =>
    have hc : p.entry c.sequenceNumber = some c := find?_eq_some.2 ⟨first?_mem hfirst, rfl⟩
    rw [firstUnsettledFrom_eq_none hp (hp _ c hc)]
    constructor
    · intro hset
      refine ⟨_, hp _ c hc, hset, fun m hm => eq_none_iff_forall_ne_some.2 (fun d hd => ?_)⟩
      obtain ⟨hmem, rfl⟩ := find?_eq_some.1 hd
      exact absurd (first?_le hfirst hmem) (not_le.2 hm)
    · rintro ⟨k, hk, hset, hnone⟩ m hm hmt
      refine hset m (le_trans (not_lt.1 (fun hlt => ?_)) hm) hmt
      rw [hnone _ hlt] at hc
      cases hc

theorem isSome_announceFrom (p : WriterProxy) (sn : Int) (count : Nat) :
    (p.announceFrom sn count).isSome = true ↔ count = 0 ∨ sn + count < 2 ^ 63 := by
  induction count generalizing p sn with
  | zero => simp [announceFrom]
  | succ count ih =>
    rw [or_iff_right (Nat.succ_ne_zero count)]
    unfold announceFrom addI64
    split_ifs with h
    · rw [bind_some, ih]; omega
    · refine iff_of_false (by simp) ?_; omega

theorem isSome_missingFrom (p : WriterProxy) (sn : Int) (count : Nat) :
    (p.missingFrom sn count).isSome = true ↔ count = 0 ∨ sn + count < 2 ^ 63 := by
  induction count generalizing sn with
  | zero => simp [missingFrom]
  | succ count ih =>
    rw [or_iff_right (Nat.succ_ne_zero count)]
    unfold missingFrom addI64
    split_ifs with h
    · rw [bind_some, isSome_map, ih]; omega
    · refine iff_of_false (by simp) ?_; omega

theorem sn_add_length_lt {c : CacheChange} {l : List CacheChange}
    (hl : (c :: l).Pairwise (fun a b => a.sequenceNumber < b.sequenceNumber))
    (hlt : ∀ d ∈ c :: l, d.sequenceNumber < 2 ^ 63) : c.sequenceNumber + l.length < 2 ^ 63 := by
  induction l generalizing c with
  | nil => simpa using hlt c mem_cons_self
  | cons d l ih =>
    have := ih hl.of_cons (fun x hx => hlt x (mem_cons_of_mem c hx))
    have := rel_of_pairwise_cons hl mem_cons_self
    rw [length_cons]
    omega

/-- The numbers are distinct and below the largest, so a flush that can overflow gets that far. -/
theorem isSome_flushLoop {l : List CacheChange} {h : l.Pairwise (fun a b => a.sequenceNumber < b.sequenceNumber)}
    {expected : Int} {bytes : Nat} (hexp : expected < 2 ^ 63) (hlt : ∀ c ∈ l, c.sequenceNumber < 2 ^ 63) :
    (flushLoop l h expected bytes).isSome = true ↔ expected + l.length < 2 ^ 63 := by
  induction l generalizing expected bytes with
  | nil => simpa [flushLoop] using hexp
  | cons c l ih =>
    unfold flushLoop
    rw [length_cons]
    split_ifs with hc
    · by_cases htop : expected + 1 < 2 ^ 63
      · have hadd : addI64 expected 1 = some (expected + 1) := if_pos htop
        rw [hadd, bind_some, isSome_map, ih htop (fun d hd => hlt d (mem_cons_of_mem c hd))]
        push_cast; omega
      · have hadd : addI64 expected 1 = none := if_neg htop
        rw [hadd]
        refine iff_of_false (by simp) ?_; push_cast; omega
    · have := sn_add_length_lt h hlt
      refine iff_of_true rfl ?_; push_cast; omega

/-! ## HEARTBEAT -/

theorem isSettled_announced (c : ChangeFromWriter) : isSettled c.announced = isSettled c := by
  unfold ChangeFromWriter.announced
  split_ifs with h
  · simp [isSettled, h]
  · rfl

/-- It completes exactly when the last number has a successor and the entries left are not one settled run up to the
largest number. -/
theorem isSome_processHeartbeat_iff (hp : p.InRange) (first last : SequenceNumber) :
    (p.processHeartbeat first.toI64 last.toI64).isSome = true ↔ last.toI64 + 1 < 2 ^ 63 ∧
      ¬ ∃ k, first.toI64 ≤ k ∧ k < 2 ^ 63 ∧ p.SettledToTop k ∧ ∀ m, first.toI64 ≤ m → m < k →
        p.entry m = none ∧ ¬ (p.expectedSn ≤ m ∧ m ≤ last.toI64) := by
  have hfirst := first.toI64_lt
  have hexp := hp.expected
  generalize first.toI64 = first at *
  generalize last.toI64 = last at *
  have hcur : max first (p.lostChangesUpdate first).expectedSn = max p.expectedSn first := by
    simp [lostChangesUpdate, dropChangesBelow]
  have hrange : (last + 1 - max p.expectedSn first).toNat = 0 ∨
      max p.expectedSn first + (last + 1 - max p.expectedSn first).toNat < 2 ^ 63 ↔ last + 1 < 2 ^ 63 := by omega
  unfold processHeartbeat
  simp only [hcur, bind_eq_bind, updateChangesForHeartbeatRange, missingChangesForHeartbeat]
  have hann := isSome_announceFrom (p.lostChangesUpdate first) (max p.expectedSn first)
    (last + 1 - max p.expectedSn first).toNat
  rw [hrange] at hann
  cases hq : (p.lostChangesUpdate first).announceFrom (max p.expectedSn first)
    (last + 1 - max p.expectedSn first).toNat with
  | none =>
    rw [hq] at hann
    refine iff_of_false (by simp) (fun h => absurd (hann.2 h.1) (by simp))
  | some q =>
    rw [hq] at hann
    have hlast := hann.1 rfl
    -- the ledger the base is read from
    have hentry : ∀ k, q.entry k = if max p.expectedSn first ≤ k ∧ k ≤ last then
        some ((p.entry k).getD ⟨k, .missing, true, none⟩).announced else if first ≤ k then p.entry k else none := by
      intro k
      have hdrop : (p.lostChangesUpdate first).entry k = if first ≤ k then p.entry k else none :=
        entry_dropChangesBelow _ _
      rw [(announceFrom_spec hq).2.2.2.2 k, hdrop]
      by_cases hin : max p.expectedSn first ≤ k ∧ k ≤ last
      · rw [if_pos (by omega), if_pos hin, if_pos (by omega)]
      · rw [if_neg (by omega), if_neg hin]
    have hqr : ∀ k c, q.entry k = some c → k < 2 ^ 63 := by
      intro k c hk
      rw [hentry] at hk
      split_ifs at hk with h1 h2
      · omega
      · exact hp.ledger k c hk
    have hset : ∀ m, first ≤ m → ((∃ c, q.entry m = some c ∧ isSettled c = true) ↔
        ∃ c, p.entry m = some c ∧ isSettled c = true) := by
      intro m hm
      rw [hentry]
      split_ifs
      · cases p.entry m with
        | none => simp [isSettled, ChangeFromWriter.announced]
        | some c => simp [isSettled_announced]
      · rfl
    have hnone : ∀ m, first ≤ m → (q.entry m = none ↔ p.entry m = none ∧ ¬ (p.expectedSn ≤ m ∧ m ≤ last)) := by
      intro m hm
      rw [hentry]
      split_ifs with hin
      · exact iff_of_false (by simp) (fun h => h.2 ⟨(le_max_left _ _).trans hin.1, hin.2⟩)
      · exact (and_iff_left (by omega)).symm
    have hmiss := isSome_missingFrom q (max p.expectedSn first) (last + 1 - max p.expectedSn first).toNat
    rw [hrange] at hmiss
    obtain ⟨missing, hm⟩ := isSome_iff_exists.1 (hmiss.2 hlast)
    rw [bind_some, hm, and_iff_right hlast, ← not_congr (?_ : q.calculateBitmapBase = none ↔ _)]
    · cases q.calculateBitmapBase <;> simp
    rw [calculateBitmapBase_eq_none hqr]
    refine exists_congr fun k => ?_
    constructor
    · rintro ⟨hk, hrun, hbelow⟩
      have hfk : first ≤ k := by
        obtain ⟨c, hc, -⟩ := hrun k le_rfl hk
        rw [hentry] at hc
        split_ifs at hc with h1 h2
        · omega
        · exact h2
      exact ⟨hfk, hk, fun m hm hmt => (hset m (by omega)).1 (hrun m hm hmt),
        fun m hm hmk => (hnone m hm).1 (hbelow m hmk)⟩
    · rintro ⟨hfk, hk, hrun, hbelow⟩
      refine ⟨hk, fun m hm hmt => (hset m (by omega)).2 (hrun m hm hmt), fun m hmk => ?_⟩
      by_cases hm : first ≤ m
      · exact (hnone m hm).2 (hbelow m hm hmk)
      · rw [hentry, if_neg (by omega), if_neg hm]

theorem inRange_new : WriterProxy.new.InRange where
  expected := by decide
  ledger k c hc := nomatch (show (none : Option ChangeFromWriter) = some c from hc)
  buffer c hc := nomatch (show c ∈ ([] : List CacheChange) from hc)

/-- A fresh reader, told of the numbers 1 to 5. -/
theorem isSome_processHeartbeat_iff_new :
    (WriterProxy.new.processHeartbeat (SequenceNumber.toI64 ⟨0, 1⟩) (SequenceNumber.toI64 ⟨0, 5⟩)).isSome = true := by
  refine (isSome_processHeartbeat_iff inRange_new _ _).2 ⟨by decide, ?_⟩
  rintro ⟨k, -, hk, hset, -⟩
  obtain ⟨c, hc, -⟩ := hset k le_rfl hk
  cases hc

/-- A HEARTBEAT whose last number is the largest, and one that drops all but the sample of the largest number,
overflow. -/
theorem processHeartbeat_overflows :
    WriterProxy.new.processHeartbeat (2 ^ 63 - 1) (2 ^ 63 - 1) = none ∧
      ∃ p out, deliverChangeToReader WriterProxy.new ⟨2 ^ 63 - 1, []⟩ none = some (p, out) ∧
        p.processHeartbeat (2 ^ 63 - 1) (2 ^ 63 - 2) = none :=
  ⟨by decide, _, _, rfl, by decide⟩

end WriterProxy

/-! ## GAP -/

variable {p : WriterProxy} {g : Gap}

def Gap.Names (g : Gap) (n : Int) : Prop :=
  (g.gapStart ≤ n ∧ n < g.gapList.bitmapBase) ∨ ∃ i ∈ g.gapList.setPositions, n = g.gapList.bitmapBase + (i : Int)

def Gap.size (g : Gap) : Nat := (g.gapList.bitmapBase - g.gapStart).toNat + g.gapList.setPositions.length

/-- The bytes of the vectors the handlers ask for: `irrelevant_changes`, that of `extract_numbers`, and
`irrelevant_changes` with its numbers added. Each number collected also gets a ledger entry. -/
def Gap.requests (g : Gap) : List Nat := [8 * (g.gapList.bitmapBase - g.gapStart).toNat, 8 * 256, 8 * g.size]

def WriterProxy.advanceExpectedSnOverSettled (p : WriterProxy) : Option WriterProxy :=
  (p.firstUnsettledFrom p.expectedSn).map fun next => { p with expectedSn := next }

/-- `handle_gap_message` of the SEDP logic. -/
def sedpHandleGapMessage (p : WriterProxy) (g : Gap) : Option WriterProxy :=
  g.irrelevantChanges.bind fun irrelevant =>
    (irrelevant.foldl irrelevantChangeSet p).advanceExpectedSnOverSettled

variable {irrelevant : List Int}

theorem Gap.mem_irrelevantChanges (h : g.irrelevantChanges = some irrelevant) (n : Int) :
    n ∈ irrelevant ↔ g.Names n := by
  rw [Gap.irrelevantChanges_eq] at h
  split_ifs at h
  cases h
  simp only [List.mem_append, mem_snRange, List.mem_map, Gap.Names, eq_comm]

theorem Gap.isSome_irrelevantChanges (hb : g.gapList.bitmapBase < 2 ^ 63) :
    g.irrelevantChanges.isSome = true ↔ ∀ n, g.Names n → n < 2 ^ 63 := by
  rw [Gap.irrelevantChanges_eq]
  split_ifs with h
  · refine iff_of_true rfl ?_
    rintro n (⟨-, hn⟩ | ⟨i, hi, rfl⟩)
    · omega
    · exact h i hi
  · exact iff_of_false (by simp) (fun hall => h (fun i hi => hall _ (.inr ⟨i, hi, rfl⟩)))

/-- The cursor of the user logic steps past the last number and over the buffer. -/
theorem isSome_advancePastGap (hp : p.InRange) (h : g.irrelevantChanges = some irrelevant) :
    (advancePastGap p irrelevant.getLast?).isSome = true ↔
      ∀ n ∈ irrelevant, p.expectedSn ≤ n → n + 1 + p.bufferedChange.toList.length < 2 ^ 63 := by
  unfold advancePastGap
  cases hlast : irrelevant.getLast? with
  | none =>
    rw [getLast?_eq_none_iff.1 hlast]
    simp
  | some last =>
    have hmem : last ∈ irrelevant := mem_of_getLast? hlast
    have hle := fun n (hn : n ∈ irrelevant) => Gap.le_last h hlast hn
    dsimp only
    split_ifs with hexp
    · by_cases htop : last + 1 < 2 ^ 63
      · have hadd : addI64 last 1 = some (last + 1) := if_pos htop
        rw [hadd, bind_some]
        rw [flushBufferedChanges, isSome_map]
        refine Iff.trans (isSome_flushLoop ?_ ?_) ?_
        · exact htop
        · exact hp.buffer
        constructor
        · intro hfit n hn _
          have := hle n hn
          dsimp only at hfit
          omega
        · exact fun hall => hall last hmem hexp
      · have hadd : addI64 last 1 = none := if_neg htop
        rw [hadd]
        refine iff_of_false (by simp) (fun hall => ?_)
        have := hall last hmem hexp
        omega
    · refine iff_of_true rfl (fun n hn hge => ?_)
      have := hle n hn
      omega

/-- The entry of `m` after the SEDP logic took the GAP is settled. -/
def Gap.SettlesAt (g : Gap) (p : WriterProxy) (m : Int) : Prop :=
  (g.Names m ∧ ∀ c ∈ p.entry m, ∀ info ∈ c.fragmentInfo, info.isComplete = true) ∨
    (¬ g.Names m ∧ ∃ c, p.entry m = some c ∧ isSettled c = true)

theorem isSome_advanceExpectedSnOverSettled (hp : p.InRange)
    (h : g.irrelevantChanges = some irrelevant) (hlt : ∀ n ∈ irrelevant, n < 2 ^ 63) :
    (irrelevant.foldl irrelevantChangeSet p).advanceExpectedSnOverSettled.isSome = true ↔
      ¬ ∀ m, p.expectedSn ≤ m → m < 2 ^ 63 → g.SettlesAt p m := by
  have hframe := (foldl_irrelevantChangeSet_frame p irrelevant).1
  have hentry := entry_foldl_irrelevantChangeSet p irrelevant
  rw [advanceExpectedSnOverSettled, isSome_map, hframe, ← not_iff_not, not_not,
    not_isSome_iff_eq_none, firstUnsettledFrom_eq_none ?_ hp.expected]
  · refine forall₃_congr fun m _ _ => ?_
    rw [hentry]
    unfold Gap.SettlesAt
    rw [← Gap.mem_irrelevantChanges h]
    split_ifs with hm
    · cases p.entry m <;> simp [hm, isSettled_iff, ChangeFromWriter.irrelevant]
    · simp [hm]
  · intro k c hc
    rw [hentry] at hc
    split_ifs at hc with hk
    · exact hlt k hk
    · exact hp.ledger k c hc

/-- A handler completes, asking for no more than `8 * limit` bytes at once. -/
def CompletesWithin {α : Type} (result : Option α) (requests : List Nat) (limit : Nat) : Prop :=
  result.isSome = true ∧ ∀ r ∈ requests, r ≤ 8 * limit

/-- Both handlers take a GAP within the memory for `limit` numbers exactly when it names no more, none is too large,
and no cursor is carried over the largest number. -/
theorem gap_handlers_iff (g : Gap) (hb : g.gapList.bitmapBase < 2 ^ 63) {limit : Nat} (hl : 256 ≤ limit)
    {p q : WriterProxy} (hp : p.InRange) (hq : q.InRange) :
    (CompletesWithin (handleGapMessage p g) g.requests limit ↔ g.size ≤ limit ∧ (∀ n, g.Names n → n < 2 ^ 63) ∧
      ∀ n, g.Names n → p.expectedSn ≤ n → n + 1 + p.bufferedChange.toList.length < 2 ^ 63) ∧
    (CompletesWithin (sedpHandleGapMessage q g) g.requests limit ↔ g.size ≤ limit ∧ (∀ n, g.Names n → n < 2 ^ 63) ∧
      ¬ ∀ m, q.expectedSn ≤ m → m < 2 ^ 63 → g.SettlesAt q m) := by
  have hreq : (∀ r ∈ g.requests, r ≤ 8 * limit) ↔ g.size ≤ limit := by
    simp only [Gap.requests, Gap.size, forall_mem_cons, not_mem_nil, false_imp_iff, implies_true, and_true]
    omega
  simp only [CompletesWithin, hreq, and_comm (b := g.size ≤ limit), ← Gap.isSome_irrelevantChanges hb]
  unfold handleGapMessage sedpHandleGapMessage
  cases h : g.irrelevantChanges with
  | none => simp
  | some irrelevant =>
    have hmem := Gap.mem_irrelevantChanges h
    have hlt : ∀ n ∈ irrelevant, n < 2 ^ 63 := fun n hn =>
      (Gap.isSome_irrelevantChanges hb).1 (by rw [h]; rfl) n ((hmem n).1 hn)
    simp only [bind_some, isSome_map, isSome_advancePastGap hp h,
      isSome_advanceExpectedSnOverSettled hq h hlt, isSome_some, true_and, hmem]

/-- A GAP of the numbers 1 to 4 and 6, to fresh readers. -/
theorem gap_handlers_iff_small :
    let g : Gap := ⟨1, ⟨5, [0x40000000, 0, 0, 0, 0, 0, 0, 0], 2, rfl⟩, by decide, by decide⟩
    CompletesWithin (handleGapMessage .new g) g.requests 256 ∧
      CompletesWithin (sedpHandleGapMessage .new g) g.requests 256 := by
  intro g
  have hbound : ∀ n, g.Names n → n ≤ 6 := by
    rintro n (⟨-, hn⟩ | ⟨i, hi, rfl⟩)
    · exact (show n < 5 from hn).le.trans (by decide)
    · rw [show g.gapList.setPositions = [1] by decide, mem_singleton] at hi
      rw [hi]
      decide
  have hiff := gap_handlers_iff g (by decide) le_rfl inRange_new inRange_new
  refine ⟨hiff.1.2 ⟨by decide, fun n hn => ?_, fun n hn _ => ?_⟩, hiff.2.2 ⟨by decide, fun n hn => ?_, fun hall => ?_⟩⟩
  · have := hbound n hn
    omega
  · have := hbound n hn
    show n + 1 + 0 < 2 ^ 63
    omega
  · have := hbound n hn
    omega
  · rcases hall 7 (by decide) (by decide) with ⟨hn, -⟩ | ⟨-, c, hc, -⟩
    · exact absurd (hbound 7 hn) (by decide)
    · cases hc

/-- The GAP of all numbers up to the largest asks for more than 2 ^ 65 bytes; one that names the largest overflows the
cursor of a fresh reader. -/
theorem gap_handlers_unbounded :
    (∃ g : Gap, g.gapList.bitmapBase < 2 ^ 63 ∧ ∃ r ∈ g.requests, 2 ^ 65 < r) ∧
      ∃ g : Gap, g.gapList.bitmapBase < 2 ^ 63 ∧ handleGapMessage .new g = none :=
  ⟨⟨⟨1, .newEmptyWithBase (2 ^ 63 - 1), by decide, by decide⟩, by decide, by decide⟩,
    ⟨⟨2 ^ 63 - 1, ⟨2 ^ 63 - 1, [0x80000000, 0, 0, 0, 0, 0, 0, 0], 1, rfl⟩, by decide, by decide⟩, by decide, by decide⟩⟩

end Int2Dds.Reader
