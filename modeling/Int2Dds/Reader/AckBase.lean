import Int2Dds.Reader.Cursor

/-!
# Soundness of the ACKNACK base

A writer drops every change below the base of an ACKNACK. `History.Settled n` says when it may: the sample `n`
arrived whole, a GAP named it, the writer no longer has it, or it was given up. The base is a walk from the oldest
ledger entry, so it is sound as long as nothing owed lies below that entry.
-/

namespace Int2Dds.Reader
open Lib Rtps WriterProxy OrdList ReaderState
open WriterProxy (Flushed)

/-- The writer may forget `n`. -/
def History.Settled (h : History) (n : Int) : Prop :=
  n ∈ h.received ∨ n ∈ h.named ∨ (∃ first ∈ h.firsts, n < first) ∨ ∃ span ∈ h.givenUp, span.1 ≤ n ∧ n < span.2

instance (h : History) (n : Int) : Decidable (h.Settled n) :=
  inferInstanceAs (Decidable (_ ∨ _ ∨ _ ∨ _))

variable {h : History} {n : Int} {c d : ChangeFromWriter} {o : Option ChangeFromWriter} {p : WriterProxy}
  {s s' : ReaderState} {info : Option FragmentInfo}

theorem History.Settled.mono {h' : History} (hg : h.Grows h') (hn : h.Settled n) : h'.Settled n := by
  rcases hn with hn | hn | ⟨f, hf, hlt⟩ | ⟨span, hsp, hin⟩
  · exact .inl (hg.received n hn)
  · exact .inr (.inl (hg.named n hn))
  · exact .inr (.inr (.inl ⟨f, hg.firsts f hf, hlt⟩))
  · exact .inr (.inr (.inr ⟨span, hg.givenUp span hsp, hin⟩))

/-- Once a HEARTBEAT has been answered, a first ledger entry must not lie above the cursor. -/
def FirstEntryOk (p : WriterProxy) (sn : Int) : Prop :=
  p.lastHeartbeatCount ≠ none → p.changesFromWriter.toList = [] → sn ≤ p.expectedSn

instance (p : WriterProxy) (sn : Int) : Decidable (FirstEntryOk p sn) := inferInstanceAs (Decidable (_ → _ → _))

/-- What a step must meet, in the state it is taken in, to keep the ACKNACK base sound.
* A sample, whole or in part, must not open the ledger above the cursor once a HEARTBEAT has been answered.
* A delivery that gives up the oldest hole must find no unsettled entry below the cursor.
* An accepted HEARTBEAT must find nothing buffered below the cursor it sets and, if it announces nothing from there
  on, must not leave a ledger that begins above it.
* A GAP that moves the cursor must pass only numbers that it names or that have an entry, and find nothing buffered
  there. -/
def AckStepOk (s : ReaderState) : Input → Prop
  | .data c _ _ => FirstEntryOk s.proxy c.sequenceNumber ∧
    (s.proxy.expectedSn < c.sequenceNumber → inOrderBufferBytes ≤ (s.proxy.addBufferedChange c).bufferedBytes →
      ∀ d ∈ s.proxy.changesFromWriter.toList, d.sequenceNumber < s.proxy.expectedSn → isSettled d = true)
  | .dataFrag sn _ _ _ _ => FirstEntryOk s.proxy sn
  | .heartbeatFrag sn _ count _ _ =>
    s.proxy.lastHeartbeatFragCount.any (fun last => decide (count.toNat ≤ last.toNat)) = false →
      FirstEntryOk s.proxy sn
  | .heartbeat hb =>
    shouldAcceptCount hb.count s.proxy.lastHeartbeatCount s.proxy.lastHeartbeatAt false hb.now = true →
      (∀ c ∈ s.proxy.bufferedChange.toList, max s.proxy.expectedSn hb.firstSn ≤ c.sequenceNumber) ∧
      (hb.lastSn < max s.proxy.expectedSn hb.firstSn →
        (∃ d ∈ s.proxy.changesFromWriter.toList, hb.firstSn ≤ d.sequenceNumber ∧
          d.sequenceNumber ≤ max s.proxy.expectedSn hb.firstSn) ∨
        ∀ d ∈ s.proxy.changesFromWriter.toList, d.sequenceNumber ≤ max s.proxy.expectedSn hb.firstSn)
  | .gap g =>
    ∀ irrelevant ∈ g.irrelevantChanges, ∀ last ∈ irrelevant.getLast?, s.proxy.expectedSn ≤ last →
      (∀ n ∈ snRange (max 1 s.proxy.expectedSn) (last + 1), n ∈ irrelevant ∨ s.proxy.entry n ≠ none) ∧
        ∀ c ∈ s.proxy.bufferedChange.toList, last < c.sequenceNumber
  | .forgetFragments _ => True

instance (s : ReaderState) : (m : Input) → Decidable (AckStepOk s m)
  | .data _ _ _ => inferInstanceAs (Decidable (_ ∧ (_ → _ → _)))
  | .dataFrag .. => inferInstanceAs (Decidable (FirstEntryOk _ _))
  | .heartbeatFrag .. => inferInstanceAs (Decidable (_ → FirstEntryOk _ _))
  | .heartbeat _ => inferInstanceAs (Decidable (_ → _ ∧ (_ → _)))
  | .gap g => inferInstanceAs (Decidable (∀ irrelevant ∈ g.irrelevantChanges, ∀ last ∈ irrelevant.getLast?,
      s.proxy.expectedSn ≤ last →
        (∀ n ∈ snRange (max 1 s.proxy.expectedSn) (last + 1), n ∈ irrelevant ∨ s.proxy.entry n ≠ none) ∧
          ∀ c ∈ s.proxy.bufferedChange.toList, last < c.sequenceNumber))
  | .forgetFragments _ => isTrue trivial

/-! ## The ledger tells the truth -/

/-- What the ledger entry `c` of `n` claims has happened. -/
structure EntryTrue (h : History) (n : Int) (c : ChangeFromWriter) : Prop where
  status : c.status = .missing ∨ c.status = .received
  settled : isSettled c = true → h.Settled n
  /-- The fragments on record arrived, and are fragments of the sample. -/
  fragments : ∀ info ∈ c.fragmentInfo, n ∈ h.received ∨
    ∀ f ∈ info.receivedFragments.numbers, f ∈ h.held n ∧ 1 ≤ f ∧ f ≤ info.totalFragments

def LedgerTrue (s : ReaderState) : Prop := ∀ n c, s.proxy.entry n = some c → EntryTrue s.history n c

theorem EntryTrue.of_received (hst : c.status = .missing ∨ c.status = .received) (hn : n ∈ h.received) :
    EntryTrue h n c :=
  ⟨hst, fun _ => .inl hn, fun _ _ => .inl hn⟩

theorem EntryTrue.complete (hc : EntryTrue h n c) (hs : isSettled c = true) :
    ∀ info ∈ c.fragmentInfo, info.isComplete = true := by
  rcases isSettled_iff.1 hs with ⟨-, hinfo⟩ | hst
  · exact hinfo
  · rcases hc.status with h | h <;> rw [hst] at h <;> cases h

theorem EntryTrue.mono {h' : History} (hc : EntryTrue h n c) (hg : h.Grows h') (hheld : h.held n ⊆ h'.held n) :
    EntryTrue h' n c := by
  refine ⟨hc.status, fun hs => (hc.settled hs).mono hg, fun info hi => ?_⟩
  rcases hc.fragments info hi with hr | hf
  · exact .inl (hg.received n hr)
  · exact .inr (fun f hm => ⟨hheld (hf f hm).1, (hf f hm).2⟩)

theorem EntryTrue.of_no_fragments (hst : c.status = .missing ∨ c.status = .received) (hnone : c.fragmentInfo = none)
    (hs : isSettled c = true → h.Settled n) : EntryTrue h n c := by
  refine ⟨hst, hs, fun info hi => ?_⟩
  rw [hnone] at hi
  cases hi

theorem EntryTrue.irrelevant (ho : ∀ c, o = some c → EntryTrue h n c) (hn : n ∈ h.named) :
    EntryTrue h n (o.getD ⟨n, .received, false, none⟩).irrelevant := by
  cases o with
  | none => exact EntryTrue.of_no_fragments (.inr rfl) rfl (fun _ => .inr (.inl hn))
  | some c => exact ⟨.inr rfl, fun _ => .inr (.inl hn), (ho c rfl).fragments⟩

theorem EntryTrue.announced (ho : ∀ c, o = some c → EntryTrue h n c) :
    EntryTrue h n (o.getD ⟨n, .missing, true, none⟩).announced := by
  cases o with
  | none => exact EntryTrue.of_no_fragments (.inl rfl) rfl nofun
  | some c =>
    simp only [ChangeFromWriter.announced]
    split_ifs with hst
    · exact ⟨.inl rfl, nofun, (ho c rfl).fragments⟩
    · exact ho c rfl

theorem EntryTrue.seeded (total : Nat) (ho : ∀ c, o = some c → EntryTrue h n c) :
    EntryTrue h n ((o.getD ⟨n, .received, true, none⟩).seeded total) := by
  have hempty : ∀ info ∈ some (FragmentInfo.start total), n ∈ h.received ∨
      ∀ f ∈ info.receivedFragments.numbers, f ∈ h.held n ∧ 1 ≤ f ∧ f ≤ info.totalFragments := by
    intro info hi
    cases hi
    exact .inr (fun f hf => by simp [FragmentInfo.start] at hf)
  cases o with
  | none =>
    refine ⟨.inr rfl, fun hs => ?_, hempty⟩
    rcases isSettled_iff.1 hs with ⟨-, hinfo⟩ | hst
    · cases hinfo _ rfl
    · cases hst
  | some c =>
    simp only [Option.getD_some]
    cases hi : c.fragmentInfo with
    | some info => simpa only [ChangeFromWriter.seeded, hi] using ho c rfl
    | none =>
      simp only [ChangeFromWriter.seeded, hi]
      refine ⟨(ho c rfl).status, fun hs => (ho c rfl).settled ?_, hempty⟩
      rcases isSettled_iff.1 hs with ⟨-, hinfo⟩ | hst
      · cases hinfo _ rfl
      · exact isSettled_iff.2 (.inr hst)

theorem EntryTrue.forget (hc : EntryTrue h n c) :
    EntryTrue { h with held := Function.update h.held n ∅ } n c.forget := by
  cases hi : c.fragmentInfo with
  | none =>
    have hsame : c.forget = c := by
      obtain ⟨sn, status, relevant, info⟩ := c
      simp only at hi
      rw [hi]; rfl
    rw [hsame]
    exact EntryTrue.of_no_fragments hc.status hi hc.settled
  | some info =>
    refine ⟨hc.status, fun hs => ?_, fun info' hi' => .inr (fun f hf => ?_)⟩
    · rcases isSettled_iff.1 hs with ⟨-, hinfo⟩ | hst
      · cases hinfo info.forget (by simp [ChangeFromWriter.forget, hi])
      · exact hc.settled (isSettled_iff.2 (.inr hst))
    · simp only [ChangeFromWriter.forget, hi, Option.map_some, Option.mem_def, Option.some.injEq] at hi'
      rw [← hi'] at hf
      simp [FragmentInfo.forget] at hf

theorem FragmentInfo.mem_merge {info : FragmentInfo} {total : Nat} {received : List Nat}
    (hin : ∀ f ∈ info.receivedFragments.numbers, 1 ≤ f ∧ f ≤ info.totalFragments) {f : Nat}
    (hf : f ∈ (info.merge total received).receivedFragments.numbers) :
    (f ∈ info.receivedFragments.numbers ∨ f ∈ received.filter (fun f => decide (1 ≤ f ∧ f ≤ total))) ∧
      1 ≤ f ∧ f ≤ total := by
  rcases FragmentSet.mem_numbers_foldl_insert.1 hf with hf | hf
  · exact ⟨.inr hf, by simpa using (List.mem_filter.1 hf).2⟩
  · split_ifs at hf with htot
    · rw [FragmentSet.numbers_truncate, Finset.mem_filter] at hf
      exact ⟨.inl hf.1, (hin f hf.1).1, hf.2⟩
    · push Not at htot
      exact ⟨.inl hf, (hin f hf).1, htot ▸ (hin f hf).2⟩

theorem EntryTrue.merged (total : Nat) (received : List Nat) (ho : ∀ c, o = some c → EntryTrue h n c) :
    EntryTrue (h.hold n total received) n
      ((o.getD ⟨n, .received, true, some (FragmentInfo.start total)⟩).merged total received) := by
  generalize hc : o.getD ⟨n, .received, true, some (FragmentInfo.start total)⟩ = c
  have hgrow : ∀ m ∈ h.received, m ∈ (h.hold n total received).received := by
    intro m hm
    simp only [History.hold]
    split_ifs
    · exact List.mem_cons_of_mem _ hm
    · exact hm
  have hst : c.status = .missing ∨ c.status = .received := by
    cases o with
    | none => subst hc; exact .inr rfl
    | some d => obtain rfl : d = c := hc; exact (ho d rfl).status
  by_cases hr : n ∈ h.received
  · exact EntryTrue.of_received hst (hgrow n hr)
  -- the record before the merge holds fragments that arrived
  have hbase : ∀ f ∈ (c.fragmentInfo.getD (FragmentInfo.start total)).receivedFragments.numbers,
      f ∈ h.held n ∧ 1 ≤ f ∧ f ≤ (c.fragmentInfo.getD (FragmentInfo.start total)).totalFragments := by
    intro f hf
    cases hi : c.fragmentInfo with
    | none => rw [hi] at hf; simp [FragmentInfo.start] at hf
    | some info =>
      rw [hi] at hf
      cases o with
      | none =>
        subst hc
        rw [← hi] at hf
        simp [FragmentInfo.start] at hf
      | some d =>
        obtain rfl : d = c := hc
        exact ((ho d rfl).fragments info hi).resolve_left hr f hf
  have hmem : ∀ f ∈ ((c.fragmentInfo.getD (FragmentInfo.start total)).merge total received).receivedFragments.numbers,
      f ∈ (h.hold n total received).held n ∧ 1 ≤ f ∧ f ≤ total := by
    intro f hf
    obtain ⟨hsrc, hrange⟩ := FragmentInfo.mem_merge (fun g hg => (hbase g hg).2) hf
    refine ⟨?_, hrange⟩
    simp only [History.hold, Function.update_self, Finset.mem_union, List.mem_toFinset]
    rcases hsrc with hf | hf
    · exact .inl (hbase f hf).1
    · exact .inr hf
  refine ⟨hst, fun hs => ?_, fun info hi => .inr ?_⟩
  · rcases isSettled_iff.1 hs with ⟨-, hinfo⟩ | hrem
    · -- a complete record holds all of `1..=total`, so the sample arrived
      have hcomplete := hinfo _ rfl
      simp only [FragmentInfo.merge, decide_eq_true_eq] at hcomplete
      have hall : Finset.Icc 1 total ⊆ (h.hold n total received).held n := by
        intro f hf
        rw [Finset.mem_Icc] at hf
        refine (hmem f ?_).1
        exact FragmentSet.mem_numbers_of_len (fun g hg => (hmem g hg).2) hcomplete hf.1 hf.2
      simp only [History.hold, Function.update_self] at hall
      refine .inl ?_
      simp only [History.hold]
      rw [if_pos hall]
      exact List.mem_cons_self
    · rcases hst with h1 | h1 <;> rw [show c.status = _ from hrem] at h1 <;> cases h1
  · cases hi
    exact hmem

/-! ## The invariant -/

/-- What keeps the base sound. `below` and `oldest` together say that nothing owed lies under the oldest entry. -/
structure AckInv (s : ReaderState) : Prop where
  ordered : Ordered s
  ledger : LedgerTrue s
  below : ∀ n, 1 ≤ n → n < s.proxy.expectedSn → s.history.Settled n ∨ s.proxy.entry n ≠ none
  oldest : s.proxy.lastHeartbeatCount ≠ none →
    (∀ n, s.proxy.entry n = none) ∨ ∃ n, s.proxy.entry n ≠ none ∧ n ≤ s.proxy.expectedSn
  buffered : ∀ c ∈ s.proxy.bufferedChange, c.sequenceNumber ∈ s.history.received ∧
    s.proxy.entry c.sequenceNumber ≠ none
  bases : ∀ base ∈ s.history.bases, ∀ n, 1 ≤ n → n < base → s.history.Settled n

theorem ackInv_start : AckInv start :=
  ⟨ordered_start, fun _ _ h => (by cases h), fun n h1 h2 => (by simp [start, WriterProxy.new, snUnknown] at h2; omega),
    fun h => absurd rfl h, nofun, nofun⟩

theorem entry_eq_none_iff : (∀ n, p.entry n = none) ↔ p.changesFromWriter.toList = [] := by
  rw [List.eq_nil_iff_forall_not_mem]
  constructor
  · intro h c hc
    exact find?_eq_none.1 (h c.sequenceNumber) c hc rfl
  · intro h n
    exact find?_eq_none.2 (fun c hc => absurd hc (h c))

def WriterProxy.HasSettled (p : WriterProxy) (n : Int) : Prop :=
  ∃ c, p.entry n = some c ∧ isSettled c = true

theorem entry_ne_none_of_mem (h : d ∈ p.changesFromWriter.toList) : p.entry d.sequenceNumber ≠ none := by
  rw [show p.entry d.sequenceNumber = some d from find?_eq_some.2 ⟨h, rfl⟩]
  exact Option.some_ne_none _

/-- The base of a ledger: 1 if it is empty, or the end of what is settled from its oldest entry on. -/
theorem calculateBitmapBase_cases {base : Int} (h : p.calculateBitmapBase = some base) :
    ((∀ n, p.entry n = none) ∧ base = 1) ∨
    ∃ oldest, p.entry oldest ≠ none ∧ (∀ n, p.entry n ≠ none → oldest ≤ n) ∧ oldest ≤ base ∧
      (∀ k, oldest ≤ k → k < base → p.HasSettled k) ∧ ¬ p.HasSettled base := by
  unfold calculateBitmapBase at h
  cases hf : p.changesFromWriter.first? with
  | none =>
    rw [hf] at h
    cases h
    exact .inl ⟨fun n => find?_eq_none.2 (fun c hc => absurd hc (first?_eq_none.1 hf c)), rfl⟩
  | some c =>
    rw [hf] at h
    obtain ⟨hle, hwalk⟩ := firstUnsettledFrom_spec h
    refine .inr ⟨c.sequenceNumber, entry_ne_none_of_mem (first?_mem hf), ?_, hle, hwalk, ?_⟩
    · intro n hn
      obtain ⟨d, hd⟩ := Option.ne_none_iff_exists'.1 hn
      obtain ⟨hmem, rfl⟩ := find?_eq_some.1 hd
      exact first?_le hf hmem
    · rintro ⟨d, hd, hset⟩
      rw [firstUnsettledFrom_stop h hd] at hset
      cases hset

theorem AckInv.sound (hs : AckInv s) (hhb : s.proxy.lastHeartbeatCount ≠ none) {base : Int}
    (hb : s.proxy.calculateBitmapBase = some base) (n : Int) (h1 : 1 ≤ n) (h2 : n < base) : s.history.Settled n := by
  rcases calculateBitmapBase_cases hb with ⟨-, rfl⟩ | ⟨oldest, hold, hmin, -, hwalk, -⟩
  · omega
  obtain ⟨k, hk, hke⟩ : ∃ k, s.proxy.entry k ≠ none ∧ k ≤ s.proxy.expectedSn := by
    rcases hs.oldest hhb with hnone | h
    · exact absurd (hnone oldest) hold
    · exact h
  rcases lt_or_ge n oldest with hlt | hge
  · have hle := hmin k hk
    rcases hs.below n h1 (by omega) with h | h
    · exact h
    · have := hmin n h
      omega
  · obtain ⟨d, hd, hset⟩ := hwalk n hge h2
    exact (hs.ledger n d hd).settled hset

theorem deliverChangeToReader_marked {p' : WriterProxy} {c : CacheChange} {out : List CacheChange}
    (h : deliverChangeToReader p c info = some (p', out)) (hd : p'.entry n = some d) :
    (p.markChangeReceived c.sequenceNumber info).entry n = some d := by
  obtain ⟨-, ⟨-, -, -, hl⟩ | ⟨-, -, -, rfl⟩ | ⟨-, -, f, -, -, -, hl⟩ | ⟨-, -, -, rfl⟩⟩ := deliverChangeToReader_cases h
  · rw [entry, ← hl]
    exact hd
  · simpa [entry, markChangeReceived, upsertChange] using hd
  · have he : ((p.markChangeReceived c.sequenceNumber info).dropChangesBelow f.sequenceNumber).entry n = some d := by
      rw [entry, ← hl]; exact hd
    rw [entry_dropChangesBelow] at he
    split_ifs at he
    exact he
  · exact hd

theorem deliverChangeToReader_entry {p' : WriterProxy} {c : CacheChange} {out : List CacheChange}
    (h : deliverChangeToReader p c info = some (p', out)) (hd : p'.entry n = some d) :
    (n = c.sequenceNumber ∧ d.status = .received) ∨ p.entry n = some d := by
  have he := deliverChangeToReader_marked h hd
  rw [markChangeReceived, entry_upsertChange] at he
  split_ifs at he with hn
  · cases he
    exact .inl ⟨hn, rfl⟩
  · exact .inr he

theorem markChangeReceived_entry_ne_none {sn : Int} (h : n = sn ∨ p.entry n ≠ none) :
    (p.markChangeReceived sn info).entry n ≠ none := by
  rw [markChangeReceived, entry_upsertChange]
  split_ifs with hn
  · exact Option.some_ne_none _
  · exact h.resolve_left hn

theorem entry_ne_none_of_marked {p' : WriterProxy} {sn : Int}
    (hl : p'.changesFromWriter = (p.markChangeReceived sn info).changesFromWriter) (h : n = sn ∨ p.entry n ≠ none) :
    p'.entry n ≠ none := by
  rw [entry, hl]
  exact markChangeReceived_entry_ne_none h

/-- The ledger a HEARTBEAT for `first` to `last` leaves when the cursor is at `cursor`. -/
structure Announced (p q : WriterProxy) (cursor first last : Int) : Prop where
  entry : ∀ k, q.entry k = if max cursor first ≤ k ∧ k ≤ last then
      some ((p.entry k).getD ⟨k, .missing, true, none⟩).announced
    else if first ≤ k then p.entry k else none

namespace Announced

variable {q : WriterProxy} {cursor first last k : Int} (ha : Announced p q cursor first last)
include ha

theorem first_le (hk : q.entry k ≠ none) : first ≤ k := by
  rw [ha.entry] at hk
  split_ifs at hk with hrange hfirst
  · exact (le_max_right _ _).trans hrange.1
  · exact hfirst
  · exact absurd rfl hk

theorem keeps (hk : first ≤ k) (hp : p.entry k ≠ none) : q.entry k ≠ none := by
  rw [ha.entry]
  split_ifs
  · exact Option.some_ne_none _
  · exact hp

theorem announces (hle : max cursor first ≤ last) : q.entry (max cursor first) ≠ none := by
  rw [ha.entry, if_pos ⟨le_rfl, hle⟩]
  exact Option.some_ne_none _

theorem eq_none (hrange : ¬ max cursor first ≤ last) (hp : ∀ n, first ≤ n → p.entry n = none) (n : Int) :
    q.entry n = none := by
  rw [ha.entry, if_neg (by omega)]
  split_ifs with hn
  · exact hp n hn
  · rfl

end Announced

/-- What a flush from `start` passes has arrived; the rest the step has to keep. -/
theorem AckInv.of_flushed {start : Int} {flushed : List CacheChange} {buffer : ChangeBuffer} (hord : Ordered s')
    (hledger : LedgerTrue s') (hF : Flushed buffer start flushed s'.proxy.bufferedChange s'.proxy.expectedSn)
    (hbuf : ∀ b ∈ buffer, start ≤ b.sequenceNumber ∧ b.sequenceNumber ∈ s'.history.received ∧
      s'.proxy.entry b.sequenceNumber ≠ none)
    (hbelow : ∀ n, 1 ≤ n → n < start → s'.history.Settled n ∨ s'.proxy.entry n ≠ none)
    (holdest : s'.proxy.lastHeartbeatCount ≠ none →
      (∀ n, s'.proxy.entry n = none) ∨ ∃ n, s'.proxy.entry n ≠ none ∧ n ≤ s'.proxy.expectedSn)
    (hbases : ∀ base ∈ s'.history.bases, ∀ n, 1 ≤ n → n < base → s'.history.Settled n) : AckInv s' := by
  refine ⟨hord, hledger, fun n h1 h2 => ?_, holdest, fun b hb => ?_, hbases⟩
  · rcases lt_or_ge n start with hlt | hge
    · exact hbelow n h1 hlt
    · obtain ⟨b, hb, rfl⟩ := hF.covers (fun b hb => (hbuf b hb).1) n hge h2
      refine .inl (.inl (hbuf b ?_).2.1)
      rw [mem_def, hF.split]
      exact List.mem_append_left _ hb
  · refine (hbuf b ?_).2
    rw [mem_def, hF.split]
    exact List.mem_append_right _ hb

section

variable (hs : AckInv s)
include hs

theorem AckInv.bases_mono (hgrow : s.history.Grows s'.history) (hbases : s'.history.bases = s.history.bases) :
    ∀ base ∈ s'.history.bases, ∀ n, 1 ≤ n → n < base → s'.history.Settled n := by
  rw [hbases]
  exact fun base hb n h1 h2 => (hs.bases base hb n h1 h2).mono hgrow

theorem ackInv_data {c : CacheChange} {pos : 0 < c.sequenceNumber} (hok : AckStepOk s (.data c info pos))
    (h : s.step (.data c info pos) = some s') : AckInv s' := by
  have hgrow := step_grows h
  have hord := ordered_step hs.ordered h
  obtain ⟨out, hd, hheld, hbases, hrec, hgiven⟩ : ∃ out, deliverChangeToReader s.proxy c info = some (s'.proxy, out) ∧
      s'.history.held = s.history.held ∧ s'.history.bases = s.history.bases ∧
      s'.history.received = c.sequenceNumber :: s.history.received ∧
      s'.history.givenUp = abandoned s.proxy c ++ s.history.givenUp := by
    obtain ⟨⟨p', out⟩, hd, heq⟩ := Option.map_eq_some_iff.1 h
    cases heq
    exact ⟨out, hd, rfl, rfl, rfl, rfl⟩
  have hb := hs.bases_mono hgrow hbases
  have harrived : c.sequenceNumber ∈ s'.history.received := by rw [hrec]; exact List.mem_cons_self
  have hold : ∀ n, 1 ≤ n → n < s.proxy.expectedSn → s'.history.Settled n ∨ s.proxy.entry n ≠ none :=
    fun n h1 h2 => (hs.below n h1 h2).imp_left (History.Settled.mono hgrow)
  -- what is buffered, also with the change, has arrived and is in the ledger
  have hbuffered : ∀ b ∈ s.proxy.bufferedChange, b.sequenceNumber ∈ s'.history.received ∧
      s.proxy.entry b.sequenceNumber ≠ none :=
    fun b hb => ⟨hgrow.received _ (hs.buffered b hb).1, (hs.buffered b hb).2⟩
  have hadded : ∀ b ∈ (s.proxy.addBufferedChange c).bufferedChange, b.sequenceNumber ∈ s'.history.received ∧
      (b.sequenceNumber = c.sequenceNumber ∨ s.proxy.entry b.sequenceNumber ≠ none) := by
    intro b hb
    rcases mem_addBufferedChange hb with rfl | hbs
    · exact ⟨harrived, .inl rfl⟩
    · exact ⟨(hbuffered b hbs).1, .inr (hbuffered b hbs).2⟩
  have hledger : LedgerTrue s' := by
    intro n d hn
    rcases deliverChangeToReader_entry hd hn with ⟨rfl, hst⟩ | hn
    · exact EntryTrue.of_received (.inr hst) harrived
    · exact (hs.ledger n d hn).mono hgrow (by rw [hheld])
  obtain ⟨hfirst, hfull⟩ := hok
  obtain ⟨hcount, ⟨heq, -, ⟨flushed, rfl, hF⟩, hl⟩ | ⟨hlt, -, rfl, hp⟩ | ⟨hlt, hbytes, f, hf, hspan, hF, hl⟩ |
    ⟨hlt, -, rfl, hp⟩⟩ := deliverChangeToReader_cases hd
  · -- in order
    have hentry (n : Int) := entry_ne_none_of_marked (n := n) hl
    have hstop := hF.stop_eq
    refine .of_flushed hord hledger hF (fun b hb => ?_) (fun n h1 h2 => ?_)
      (fun _ => .inr ⟨c.sequenceNumber, hentry _ (.inl rfl), by omega⟩) hb
    · have := hs.ordered.buffer_gt b hb
      exact ⟨by omega, (hbuffered b hb).1, hentry _ (.inr (hbuffered b hb).2)⟩
    · by_cases hn : n = c.sequenceNumber
      · exact .inr (hentry n (.inl hn))
      · exact (hold n h1 (by omega)).imp_right (fun he => hentry n (.inr he))
  · -- kept in the buffer
    have hentry (n : Int) := entry_ne_none_of_marked (p := s.proxy) (n := n)
      (show s'.proxy.changesFromWriter = (s.proxy.markChangeReceived c.sequenceNumber info).changesFromWriter by
        simp [hp, markChangeReceived, upsertChange])
    have he : s'.proxy.expectedSn = s.proxy.expectedSn := by rw [hp]; simp
    refine ⟨hord, hledger, fun n h1 h2 => ?_, fun hhb => ?_, fun b hb => ?_, hb⟩
    · exact (hold n h1 (he ▸ h2)).imp_right (fun he => hentry n (.inr he))
    · rw [hcount] at hhb
      rcases hs.oldest hhb with hnone | ⟨k, hk, hke⟩
      · -- an empty ledger may only be opened at or below the cursor
        have := hfirst hhb (entry_eq_none_iff.1 hnone)
        omega
      · exact .inr ⟨k, hentry k (.inr hk), he ▸ hke⟩
    · rw [hp] at hb
      exact ⟨(hadded b hb).1, hentry _ (hadded b hb).2⟩
  · -- the oldest hole is given up
    have hentry : ∀ n, f.sequenceNumber ≤ n → n = c.sequenceNumber ∨ s.proxy.entry n ≠ none →
        s'.proxy.entry n ≠ none := by
      intro n hfn hn
      rw [entry, hl]
      change entry _ n ≠ none
      rw [entry_dropChangesBelow, if_pos hfn]
      exact markChangeReceived_entry_ne_none hn
    have hflt := hs.ordered.first_gt hlt hf
    rw [max_eq_right hflt.le] at hF
    have hstop := hF.stop_eq
    refine .of_flushed hord hledger hF (fun b hb => ?_) (fun n h1 h2 => .inl ?_) (fun _ => .inr ⟨f.sequenceNumber,
      hentry _ le_rfl (hadded f (first?_mem hf)).2, by omega⟩) hb
    · have hle := first?_le hf hb
      exact ⟨hle, (hadded b hb).1, hentry _ hle (hadded b hb).2⟩
    · rcases lt_or_ge n s.proxy.expectedSn with hn | hn
      · rcases hold n h1 hn with hset | hent
        · exact hset
        · obtain ⟨d, hd⟩ := Option.ne_none_iff_exists'.1 hent
          obtain ⟨hdm, rfl⟩ := find?_eq_some.1 hd
          exact ((hs.ledger _ d hd).settled (hfull hlt hbytes d hdm hn)).mono hgrow
      · refine .inr (.inr (.inr ⟨(s.proxy.expectedSn, f.sequenceNumber), ?_, hn, h2⟩))
        rw [hgiven, hspan]; exact List.mem_cons_self
  · -- below the cursor
    have hentry (n : Int) := entry_ne_none_of_marked (n := n) (congrArg changesFromWriter hp)
    refine ⟨hord, hledger, fun n h1 h2 => ?_, fun hhb => .inr ⟨c.sequenceNumber, hentry _ (.inl rfl), ?_⟩,
      fun b hb => ?_, hb⟩
    · exact (hold n h1 (by rw [hp] at h2; exact h2)).imp_right (fun he => hentry n (.inr he))
    · rw [hp]; exact hlt.le
    · rw [hp] at hb
      exact ⟨(hbuffered b hb).1, hentry _ (.inr (hbuffered b hb).2)⟩

theorem ackInv_heartbeat {hb : Heartbeat} (hok : AckStepOk s (.heartbeat hb)) (h : s.step (.heartbeat hb) = some s') :
    AckInv s' := by
  have hgrow := step_grows h
  have hord := ordered_step hs.ordered h
  obtain ⟨⟨p', out, answer⟩, hd, heq⟩ := Option.map_eq_some_iff.1 h
  rcases handleHeartbeatMessage_cases hd with ⟨rfl, rfl, rfl⟩ | ⟨base, missing, rfl, hacc, hcount, hF, hbase, hentry⟩
  · cases heq; exact hs
  obtain ⟨hbuf, hempty⟩ := hok hacc
  obtain ⟨hp, hfirsts, hheld, hbases⟩ : s'.proxy = p' ∧ s'.history.firsts = hb.firstSn :: s.history.firsts ∧
      s'.history.held = s.history.held ∧ s'.history.bases = base :: s.history.bases := by
    cases heq; exact ⟨rfl, rfl, rfl, rfl⟩
  rw [← hp] at hcount hF hbase hentry
  have ha : Announced s.proxy s'.proxy s.proxy.expectedSn hb.firstSn hb.lastSn := ⟨hentry⟩
  have hstop := hF.stop_eq
  have hledger : LedgerTrue s' := by
    intro n c hn
    have hold : ∀ d, s.proxy.entry n = some d → EntryTrue s'.history n d :=
      fun d hd => (hs.ledger n d hd).mono hgrow (by rw [hheld])
    rw [hentry] at hn
    split_ifs at hn
    · cases hn
      exact EntryTrue.announced hold
    · exact hold c hn
  have hbelow : ∀ n, 1 ≤ n → n < max s.proxy.expectedSn hb.firstSn →
      s'.history.Settled n ∨ s'.proxy.entry n ≠ none := by
    intro n h1 h2
    rcases lt_or_ge n hb.firstSn with hf | hf
    · exact .inl (.inr (.inr (.inl ⟨hb.firstSn, by rw [hfirsts]; exact List.mem_cons_self, hf⟩)))
    · exact (hs.below n h1 (by omega)).imp (History.Settled.mono hgrow) (ha.keeps hf)
  have hoff : (∀ n, s'.proxy.entry n = none) ∨ ∃ n, s'.proxy.entry n ≠ none ∧ n ≤ s'.proxy.expectedSn := by
    rcases lt_or_ge hb.lastSn (max s.proxy.expectedSn hb.firstSn) with hlt | hge
    · -- nothing is announced: the entries are those from `firstSn` on
      rcases hempty hlt with ⟨d, hd, h1, h2⟩ | hall
      · exact .inr ⟨d.sequenceNumber, ha.keeps h1 (entry_ne_none_of_mem hd), by omega⟩
      · by_cases hany : ∃ n, s'.proxy.entry n ≠ none
        · obtain ⟨n, hn⟩ := hany
          refine .inr ⟨n, hn, ?_⟩
          rw [hentry, if_neg (by omega)] at hn
          split_ifs at hn
          · obtain ⟨d, hd⟩ := Option.ne_none_iff_exists'.1 hn
            obtain ⟨hdm, rfl⟩ := find?_eq_some.1 hd
            have := hall d hdm
            omega
          · exact absurd rfl hn
        · push Not at hany
          exact .inl hany
    · exact .inr ⟨_, ha.announces hge, by omega⟩
  -- the base of this answer is the base of the ledger it leaves
  have hold : ∀ b ∈ s.history.bases, ∀ n, 1 ≤ n → n < b → s'.history.Settled n :=
    fun b hb n h1 h2 => (hs.bases b hb n h1 h2).mono hgrow
  have hpre : AckInv ⟨s'.proxy, { s'.history with bases := s.history.bases }⟩ := by
    refine .of_flushed ⟨hord.cursor, hord.increasing, hord.handed_lt, hord.buffer_gt, hord.buffer_pos⟩
      (fun n c hn => ⟨(hledger n c hn).status, (hledger n c hn).settled, (hledger n c hn).fragments⟩) hF
      (fun b hb => ?_) hbelow (fun _ => hoff) hold
    have hle := hbuf b hb
    exact ⟨hle, hgrow.received _ (hs.buffered b hb).1, ha.keeps (by omega) (hs.buffered b hb).2⟩
  refine ⟨hord, hledger, hpre.below, fun _ => hoff, hpre.buffered, ?_⟩
  rw [hbases]
  intro b hb
  rcases List.mem_cons.1 hb with rfl | hb
  · exact hpre.sound (by rw [hcount]; exact Option.some_ne_none _) hbase
  · exact hold b hb

theorem ackInv_gap {g : Gap} (hok : AckStepOk s (.gap g)) (h : s.step (.gap g) = some s') : AckInv s' := by
  have hgrow := step_grows h
  have hord := ordered_step hs.ordered h
  obtain ⟨out, irrelevant, hd, hirr, hnamed, hheld, hbases⟩ : ∃ out irrelevant,
      handleGapMessage s.proxy g = some (s'.proxy, out) ∧ g.irrelevantChanges = some irrelevant ∧
      s'.history.named = irrelevant ++ s.history.named ∧ s'.history.held = s.history.held ∧
      s'.history.bases = s.history.bases := by
    obtain ⟨⟨p', out⟩, hd, h⟩ := Option.bind_eq_some_iff.1 h
    obtain ⟨irrelevant, hirr, heq⟩ := Option.map_eq_some_iff.1 h
    cases heq
    exact ⟨out, irrelevant, hd, hirr, rfl, rfl, rfl⟩
  obtain ⟨irr, hirr', hcount, hentry, hmove⟩ := handleGapMessage_cases hd
  obtain rfl : irrelevant = irr := Option.some.inj (hirr.symm.trans hirr')
  have hnm : ∀ n ∈ irrelevant, n ∈ s'.history.named := fun n hn => by rw [hnamed]; exact List.mem_append_left _ hn
  have hledger : LedgerTrue s' := by
    intro n c hn
    have hold : ∀ d, s.proxy.entry n = some d → EntryTrue s'.history n d :=
      fun d hd => (hs.ledger n d hd).mono hgrow (by rw [hheld])
    rw [hentry] at hn
    split_ifs at hn with hin
    · cases hn
      exact EntryTrue.irrelevant hold (hnm n hin)
    · exact hold c hn
  have hstay : ∀ n, n ∈ irrelevant ∨ s.proxy.entry n ≠ none → s'.proxy.entry n ≠ none := by
    intro n hn
    rw [hentry]
    split_ifs with hin
    · exact Option.some_ne_none _
    · exact hn.resolve_left hin
  have hb := hs.bases_mono hgrow hbases
  have hold : ∀ n, 1 ≤ n → n < s.proxy.expectedSn → s'.history.Settled n ∨ s'.proxy.entry n ≠ none :=
    fun n h1 h2 => (hs.below n h1 h2).imp (History.Settled.mono hgrow) (fun he => hstay n (.inr he))
  have hbuffered : ∀ b ∈ s.proxy.bufferedChange, b.sequenceNumber ∈ s'.history.received ∧
      s'.proxy.entry b.sequenceNumber ≠ none :=
    fun b hb => ⟨hgrow.received _ (hs.buffered b hb).1, hstay _ (.inr (hs.buffered b hb).2)⟩
  have hle : s.proxy.expectedSn ≤ s'.proxy.expectedSn := by
    rcases hmove with ⟨last, -, hle, hF⟩ | ⟨-, -, -, he⟩
    · have := hF.stop_eq; omega
    · exact he.ge
  have holdest : s'.proxy.lastHeartbeatCount ≠ none →
      (∀ n, s'.proxy.entry n = none) ∨ ∃ n, s'.proxy.entry n ≠ none ∧ n ≤ s'.proxy.expectedSn := by
    intro hhb
    rw [hcount] at hhb
    rcases hs.oldest hhb with hnone | ⟨k, hk, hke⟩
    · cases hlast : irrelevant.getLast? with
      | none =>
        rw [List.getLast?_eq_none_iff] at hlast
        refine .inl (fun n => ?_)
        rw [hentry, if_neg (by simp [hlast]), hnone]
      | some last =>
        refine .inr ⟨last, hstay last (.inl (List.mem_of_mem_getLast? hlast)), ?_⟩
        rcases hmove with ⟨l, hl, -, hF⟩ | ⟨hlt, -, -, he⟩
        · obtain rfl : l = last := Option.some.inj (hl.symm.trans hlast)
          have := hF.stop_eq
          omega
        · rw [he]; exact (hlt last hlast).le
    · exact .inr ⟨k, hstay k (.inr hk), hke.trans hle⟩
  rcases hmove with ⟨last, hlast, hle', hF⟩ | ⟨-, -, hbuf, he⟩
  · obtain ⟨hall, hbuf⟩ := hok irrelevant hirr last hlast hle'
    refine .of_flushed hord hledger hF (fun b hb => ⟨hbuf b hb, hbuffered b hb⟩) (fun n h1 h2 => ?_) holdest hb
    rcases lt_or_ge n s.proxy.expectedSn with hlt | hge
    · exact hold n h1 hlt
    · exact .inr (hstay n (hall n (mem_snRange.2 (by omega))))
  · exact ⟨hord, hledger, fun n h1 h2 => hold n h1 (he ▸ h2), holdest, hbuf ▸ hbuffered, hb⟩

/-- A step that leaves cursor and buffer, drops no entry, and opens an empty ledger not above the cursor. -/
theorem AckInv.of_frame (hgrow : s.history.Grows s'.history) (hord : Ordered s')
    (he : s'.proxy.expectedSn = s.proxy.expectedSn) (hbuf : s'.proxy.bufferedChange = s.proxy.bufferedChange)
    (hcount : s'.proxy.lastHeartbeatCount = s.proxy.lastHeartbeatCount) (hbases : s'.history.bases = s.history.bases)
    (hledger : LedgerTrue s') (hstay : ∀ n, s.proxy.entry n ≠ none → s'.proxy.entry n ≠ none)
    (hopen : s.proxy.lastHeartbeatCount ≠ none → (∀ n, s.proxy.entry n = none) → (∀ n, s'.proxy.entry n = none) ∨
      ∃ n, s'.proxy.entry n ≠ none ∧ n ≤ s.proxy.expectedSn) :
    AckInv s' := by
  refine ⟨hord, hledger, ?_, ?_, ?_, ?_⟩
  · rw [he]
    exact fun n h1 h2 => (hs.below n h1 h2).imp (History.Settled.mono hgrow) (hstay n)
  · rw [hcount, he]
    intro hhb
    rcases hs.oldest hhb with hnone | ⟨k, hk, hke⟩
    · exact hopen hhb hnone
    · exact .inr ⟨k, hstay k hk, hke⟩
  · rw [hbuf]
    exact fun c hc => ⟨hgrow.received _ (hs.buffered c hc).1, hstay _ (hs.buffered c hc).2⟩
  · exact hs.bases_mono hgrow hbases

/-- An update of the entry of `sn` that meets `FirstEntryOk`. -/
theorem AckInv.of_upsert (hgrow : s.history.Grows s'.history) (hord : Ordered s') {sn : Int}
    (hok : FirstEntryOk s.proxy sn) {f : ChangeFromWriter → ChangeFromWriter}
    {hf : ∀ c, (f c).sequenceNumber = c.sequenceNumber} (hd : d.sequenceNumber = sn)
    (hframe : s'.proxy.expectedSn = s.proxy.expectedSn ∧ s'.proxy.bufferedChange = s.proxy.bufferedChange ∧
      s'.proxy.lastHeartbeatCount = s.proxy.lastHeartbeatCount ∧ s'.history.bases = s.history.bases)
    (hp : ∀ n, s'.proxy.entry n = (s.proxy.upsertChange d f hf).entry n)
    (hheld : ∀ n, n ≠ sn → s.history.held n ⊆ s'.history.held n)
    (hnew : EntryTrue s'.history sn (f ((s.proxy.entry sn).getD d))) : AckInv s' := by
  obtain ⟨he, hbuf, hcount, hbases⟩ := hframe
  have hentry : ∀ n, s'.proxy.entry n = if n = sn then some (f ((s.proxy.entry n).getD d)) else s.proxy.entry n := by
    intro n; rw [hp, entry_upsertChange, hd]
  refine hs.of_frame hgrow hord he hbuf hcount hbases (fun n c hn => ?_) (fun n hn => ?_) (fun hhb hnone => ?_)
  · rw [hentry] at hn
    split_ifs at hn with heq
    · cases hn
      rw [heq]
      exact hnew
    · exact (hs.ledger n c hn).mono hgrow (hheld n heq)
  · rw [hentry]
    split_ifs
    · exact Option.some_ne_none _
    · exact hn
  · refine .inr ⟨sn, ?_, hok hhb (entry_eq_none_iff.1 hnone)⟩
    rw [hentry, if_pos rfl]
    exact Option.some_ne_none _

theorem ackInv_step {m : Input} (hok : AckStepOk s m) (h : s.step m = some s') : AckInv s' := by
  have hgrow := step_grows h
  have hord := ordered_step hs.ordered h
  cases m with
  | data c info pos => exact ackInv_data hs hok h
  | heartbeat hb => exact ackInv_heartbeat hs hok h
  | gap g => exact ackInv_gap hs hok h
  | dataFrag sn total received pos tpos =>
    obtain ⟨he, hbuf, hcount, -, -, -, -, hbases⟩ := step_frame h (by simp) (by simp) (by simp)
    cases h
    refine hs.of_upsert hgrow hord hok rfl ⟨he, hbuf, hcount, hbases⟩ (fun n => rfl) (fun n hn => ?_)
      (EntryTrue.merged total received (fun c hc => hs.ledger sn c hc))
    simp only [History.hold, Function.update_of_ne hn, subset_refl]
  | heartbeatFrag sn last count pos lpos =>
    obtain ⟨he, hbuf, hcount, -, -, -, -, hbases⟩ := step_frame h (by simp) (by simp) (by simp)
    cases h
    by_cases hdup : s.proxy.lastHeartbeatFragCount.any (fun last => decide (count.toNat ≤ last.toNat)) = true
    · have hsame : handleHeartbeatFragMessage s.proxy sn last count = s.proxy := by
        rw [handleHeartbeatFragMessage, if_pos hdup]
      rw [hsame]
      exact hs
    · have hsame : handleHeartbeatFragMessage s.proxy sn last count =
          seedFragmentTotal { s.proxy with lastHeartbeatFragCount := some count } sn last := by
        rw [handleHeartbeatFragMessage, if_neg hdup]
      rw [hsame] at hgrow hord he hbuf hcount ⊢
      refine hs.of_upsert hgrow hord (hok (by simpa using hdup)) rfl ⟨he, hbuf, hcount, rfl⟩ (fun n => rfl)
        (fun n hn => le_rfl) ?_
      exact EntryTrue.seeded (min last maxFragmentsPerSample) (fun c hc => hs.ledger sn c hc)
  | forgetFragments sn =>
    obtain ⟨he, hbuf, hcount, -, -, -, -, hbases⟩ := step_frame h (by simp) (by simp) (by simp)
    cases h
    have hentry := entry_forgetFragments s.proxy sn
    refine hs.of_frame hgrow hord he hbuf hcount hbases (fun n c hn => ?_) (fun n hn => ?_) (fun _ hnone => .inl ?_)
    · rw [hentry] at hn
      split_ifs at hn with heq
      · subst heq
        obtain ⟨d, hd, rfl⟩ := Option.map_eq_some_iff.1 hn
        exact (hs.ledger n d hd).forget
      · exact (hs.ledger n c hn).mono hgrow (by simp only [Function.update_of_ne heq, subset_refl])
    · rw [hentry]
      split_ifs
      · simpa using hn
      · exact hn
    · intro n
      rw [hentry, hnone]
      simp

end

/-- **The ACKNACK base is sound.** In every state reached by steps that meet `AckStepOk`, everything is settled below
a base answered to a HEARTBEAT, and below the base of an ACKNACK prepared once one has been answered; and no base
passes an entry that is short of fragments. -/
theorem acknack_base_sound (ms : List Input) (s : ReaderState)
    (hok : AllSteps ReaderState.step AckStepOk ReaderState.start ms)
    (h : run ReaderState.step ReaderState.start ms = some s) :
    (∀ base ∈ s.history.bases, ∀ n, 1 ≤ n → n < base → s.history.Settled n) ∧
    (s.proxy.lastHeartbeatCount ≠ none → ∀ finalFlag base missing,
      prepareAcknack s.proxy false finalFlag = some (some (base, missing)) →
        ∀ n, 1 ≤ n → n < base → s.history.Settled n) ∧
    ∀ base, s.proxy.calculateBitmapBase = some base → ∀ n c info, s.proxy.entry n = some c →
      c.fragmentInfo = some info → info.isComplete = false → base ≤ n := by
  have hs := run_invariant_of_allSteps (fun _ _ _ ht hm hstep => ackInv_step ht hm hstep) ackInv_start hok h
  refine ⟨hs.bases, fun hhb finalFlag base missing hp => ?_, fun base hb n c info hc hi hshort => ?_⟩
  · simp only [prepareAcknack, Bool.false_eq_true, if_false, Option.bind_eq_bind, Option.bind_eq_some_iff] at hp
    obtain ⟨b, hb, m, -, hp⟩ := hp
    split_ifs at hp
    · cases hp
    · cases hp
      exact hs.sound hhb hb
  · by_contra hlt
    obtain ⟨d, hd, hset⟩ := settled_of_lt_base hb hc (not_le.1 hlt)
    obtain rfl : c = d := Option.some.inj (hc.symm.trans hd)
    rw [(hs.ledger n c hc).complete hset info hi] at hshort
    cases hshort

theorem acknack_base_sound_fragment :
    ∃ s, run ReaderState.step ReaderState.start [heartbeatOf 0 3 1, emptyData 0,
        .dataFrag 2 1 [1] (by decide) (by decide), emptyData 1, heartbeatOf 0 3 2] = some s ∧
      s.history.bases = [3, 1] ∧ ∀ base ∈ s.history.bases, ∀ n, 1 ≤ n → n < base → s.history.Settled n := by
  obtain ⟨s, hs, hb⟩ : ∃ s, run step start [heartbeatOf 0 3 1, emptyData 0,
      .dataFrag 2 1 [1] (by decide) (by decide), emptyData 1, heartbeatOf 0 3 2] = some s ∧ s.history.bases = [3, 1] :=
    exists_run (by decide)
  exact ⟨s, hs, hb, (acknack_base_sound _ s (by decide) hs).1⟩

/-- **The base can pass owed samples**: after a GAP or a DATA before the first HEARTBEAT, and after DATA below the
numbers of a HEARTBEAT. -/
theorem acknack_base_unsound :
    (∃ s, run ReaderState.step ReaderState.start [gapOf 2 3, heartbeatOf 0 4 1] = some s ∧
      s.history.bases = [4] ∧ ¬ s.history.Settled 1) ∧
    (∃ s, run ReaderState.step ReaderState.start [emptyData 4, heartbeatOf 0 0 1] = some s ∧
      s.history.bases = [6] ∧ ¬ s.history.Settled 1) ∧
    (∃ s, run ReaderState.step ReaderState.start
        [emptyData 1, emptyData 2, heartbeatOf 9 9 1, heartbeatOf 9 12 2] = some s ∧
      s.history.bases = [12, 1] ∧ ¬ s.history.Settled 10) :=
  ⟨exists_run (by decide), exists_run (by decide), exists_run (by decide)⟩

end Int2Dds.Reader
