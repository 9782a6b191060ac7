import Int2Dds.Reader.AckBase

/-!
# When the ACKNACK base does not go back

The base answered to a HEARTBEAT is recomputed each time, from the oldest ledger entry on. It stays at or above the
earlier ones as long as the ledger has no hole between its oldest entry and them, and is never left empty.
-/

namespace Int2Dds.Reader
open Lib Rtps WriterProxy List Option OrdList
open WriterProxy (Flushed)

/-- No HEARTBEAT so far began above `n`. -/
def Kept (firsts : List Int) (n : Int) : Prop := ∀ f ∈ firsts, f ≤ n

instance (firsts : List Int) (n : Int) : Decidable (Kept firsts n) := inferInstanceAs (Decidable (∀ f ∈ firsts, f ≤ n))

/-- Late numbers `ns`, well below the cursor and not dropped by a HEARTBEAT, must join the ledger without a gap: above
each there is another, or an entry. A ledger without such entries is opened anywhere. -/
def LateOk (s : ReaderState) (ns : List Int) : Prop :=
  s.history.firsts ≠ [] → ∀ n ∈ ns, Kept s.history.firsts n → n + 1 < s.proxy.expectedSn →
    n + 1 ∈ ns ∨
    (∃ d ∈ s.proxy.changesFromWriter.toList, Kept s.history.firsts d.sequenceNumber ∧ d.sequenceNumber ≤ n + 1) ∨
    ∀ d ∈ s.proxy.changesFromWriter.toList, ¬ Kept s.history.firsts d.sequenceNumber

instance (s : ReaderState) (ns : List Int) : Decidable (LateOk s ns) := inferInstanceAs (Decidable (_ → _))

/-- What a step must meet, in the state it is taken in, for the base not to go back.
* A DATA carries a whole sample; late, it joins the ledger without a gap. So do the numbers of a GAP.
* An accepted HEARTBEAT does not begin below an earlier one. It announces a number from the cursor on, or keeps an
  entry at or below the cursor, or leaves the ledger empty where no earlier HEARTBEAT has left an entry. -/
def BaseStepOk (s : ReaderState) : Input → Prop
  | .data c info _ => info = none ∧ LateOk s [c.sequenceNumber]
  | .heartbeat hb =>
    shouldAcceptCount hb.count s.proxy.lastHeartbeatCount s.proxy.lastHeartbeatAt false hb.now = true →
      Kept s.history.firsts hb.firstSn ∧
      (max s.proxy.expectedSn hb.firstSn ≤ hb.lastSn ∨
        (∃ d ∈ s.proxy.changesFromWriter.toList, hb.firstSn ≤ d.sequenceNumber ∧
          d.sequenceNumber ≤ max s.proxy.expectedSn hb.firstSn) ∨
        (s.history.firsts = [] ∧ ∀ d ∈ s.proxy.changesFromWriter.toList, d.sequenceNumber < hb.firstSn) ∨
        ∀ d ∈ s.proxy.changesFromWriter.toList, ¬ Kept s.history.firsts d.sequenceNumber)
  | .gap g => ∀ irrelevant ∈ g.irrelevantChanges, LateOk s irrelevant
  | .dataFrag .. | .heartbeatFrag .. | .forgetFragments _ => False

instance (s : ReaderState) : (m : Input) → Decidable (BaseStepOk s m)
  | .data _ _ _ => inferInstanceAs (Decidable (_ ∧ _))
  | .heartbeat _ => inferInstanceAs (Decidable (_ → _))
  | .gap g => inferInstanceAs (Decidable (∀ irrelevant ∈ g.irrelevantChanges, LateOk s irrelevant))
  | .dataFrag .. => isFalse id
  | .heartbeatFrag .. => isFalse id
  | .forgetFragments _ => isFalse id

/-! ## A ledger without holes -/

variable {p q : WriterProxy} {ns : List Int} {s s' : ReaderState} {base : Int} {g : Gap}

theorem entry_eq_none_of_forall {P : Int → Prop} (h : ∀ d ∈ p.changesFromWriter.toList, ¬ P d.sequenceNumber) :
    ∀ n, P n → p.entry n = none := by
  intro n hn
  cases he : p.entry n with
  | none => rfl
  | some c =>
    obtain ⟨hc, rfl⟩ := find?_eq_some.1 he
    exact absurd hn (h c hc)

/-- The ledger after HEARTBEATs from `firsts` were answered with `bases`. -/
structure LedgerFilled (p : WriterProxy) (firsts bases : List Int) : Prop where
  whole : ∀ n c, p.entry n = some c → c.fragmentInfo = none
  /-- From an entry that is kept up to an earlier base everything is settled. -/
  filled : ∀ b ∈ bases, ∀ n, Kept firsts n → p.entry n ≠ none → ∀ k, n ≤ k → k < b → p.HasSettled k
  empty : (∀ n, Kept firsts n → p.entry n = none) → ∀ b ∈ bases, b ≤ 1

theorem LedgerFilled.congr {firsts bases : List Int} (h : LedgerFilled p firsts bases)
    (hpq : ∀ n, q.entry n = p.entry n) : LedgerFilled q firsts bases where
  whole := fun n c hc => h.whole n c (hpq n ▸ hc)
  filled := by
    intro b hb n hn he k h1 h2
    rw [hpq] at he
    unfold WriterProxy.HasSettled
    rw [hpq]
    exact h.filled b hb n hn he k h1 h2
  empty := fun he => h.empty (fun n hn => hpq n ▸ he n hn)

structure Marks (p q : WriterProxy) (ns : List Int) : Prop where
  marked : ∀ k ∈ ns, ∃ c, q.entry k = some c ∧ c.fragmentInfo = none ∧ isSettled c = true
  others : ∀ k, k ∉ ns → q.entry k = p.entry k

theorem Marks.hasSettled (hm : Marks p q ns) {k : Int} (h : k ∈ ns ∨ p.HasSettled k) : q.HasSettled k := by
  by_cases hk : k ∈ ns
  · obtain ⟨c, hc, -, hset⟩ := hm.marked k hk
    exact ⟨c, hc, hset⟩
  · obtain ⟨c, hc, hset⟩ := h.resolve_left hk
    exact ⟨c, (hm.others k hk).trans hc, hset⟩

theorem Marks.ne_none (hm : Marks p q ns) {k : Int} (h : k ∈ ns ∨ p.entry k ≠ none) : q.entry k ≠ none := by
  by_cases hk : k ∈ ns
  · obtain ⟨c, hc, -⟩ := hm.marked k hk
    rw [hc]
    exact some_ne_none _
  · rw [hm.others k hk]
    exact h.resolve_left hk

theorem isSettled_of_received {c : ChangeFromWriter} (hst : c.status = .received) (hinfo : c.fragmentInfo = none) :
    isSettled c = true := by
  refine isSettled_iff.2 (.inl ⟨hst, fun info hi => ?_⟩)
  rw [hinfo] at hi
  cases hi

section

variable (hwhole : ∀ n c, p.entry n = some c → c.fragmentInfo = none)
include hwhole

theorem marks_markChangeReceived (sn : Int) :
    Marks p (p.markChangeReceived sn none) [sn] where
  marked := by
    intro k hk
    obtain rfl := mem_singleton.1 hk
    refine ⟨_, (entry_upsertChange p _ _ _ k).trans (if_pos rfl), ?_⟩
    have hinfo : ((p.entry k).getD ⟨k, .received, true, none⟩).arrived.fragmentInfo = none := by
      cases he : p.entry k with
      | none => rfl
      | some c => exact hwhole k c he
    exact ⟨hinfo, isSettled_of_received rfl hinfo⟩
  others := fun k hk => (entry_upsertChange p _ _ _ k).trans (if_neg (by simpa using hk))

theorem marks_of_irrelevant
    (hentry : ∀ k, q.entry k = if k ∈ ns then some ((p.entry k).getD ⟨k, .received, false, none⟩).irrelevant
      else p.entry k) :
    Marks p q ns where
  marked := by
    intro k hk
    refine ⟨_, (hentry k).trans (if_pos hk), ?_⟩
    have hinfo : ((p.entry k).getD ⟨k, .received, false, none⟩).irrelevant.fragmentInfo = none := by
      cases he : p.entry k with
      | none => rfl
      | some c => exact hwhole k c he
    exact ⟨hinfo, isSettled_of_received rfl hinfo⟩
  others := fun k hk => (hentry k).trans (if_neg hk)

end

theorem LedgerFilled.mark (h : LedgerFilled s.proxy s.history.firsts s.history.bases)
    (hfirsts : s.history.firsts = [] → s.history.bases = []) (hcursor : ∀ b ∈ s.history.bases, b ≤ s.proxy.expectedSn)
    (hpos : ∀ n ∈ ns, 1 ≤ n) (hlate : LateOk s ns) (hm : Marks s.proxy q ns) :
    LedgerFilled q s.history.firsts s.history.bases where
  whole := by
    intro n c hc
    by_cases hn : n ∈ ns
    · obtain ⟨d, hd, hinfo, -⟩ := hm.marked n hn
      rw [← some.inj (hd.symm.trans hc)]
      exact hinfo
    · exact h.whole n c ((hm.others n hn).symm.trans hc)
  filled := by
    intro b hb n hkept hent k hnk hkb
    have hne : s.history.firsts ≠ [] := by
      intro hnil
      rw [hfirsts hnil] at hb
      cases hb
    -- up from `n`, each number is marked or has an entry of before at or below it
    have hreach : ∀ j : Nat, n + j < b → n + j ∈ ns ∨
        ∃ m, Kept s.history.firsts m ∧ s.proxy.entry m ≠ none ∧ m ≤ n + j := by
      intro j
      induction j with
      | zero =>
        intro _
        by_cases hn : n ∈ ns
        · exact .inl (by simpa using hn)
        · refine .inr ⟨n, hkept, ?_, by simp⟩
          rw [← hm.others n hn]
          exact hent
      | succ j ih =>
        intro hlt
        push_cast at hlt ⊢
        have hbc := hcursor b hb
        rcases ih (by omega) with hin | ⟨m, hmk, hme, hle⟩
        · have hkeptj : Kept s.history.firsts (n + j) := fun f hf => by have := hkept f hf; omega
          rcases hlate hne _ hin hkeptj (by omega) with hnext | ⟨d, hd, hdk, hdle⟩ | hnone
          · exact .inl (by rwa [← add_assoc])
          · exact .inr ⟨d.sequenceNumber, hdk, entry_ne_none_of_mem hd, by omega⟩
          · have := h.empty (entry_eq_none_of_forall hnone) b hb
            have := hpos _ hin
            omega
        · exact .inr ⟨m, hmk, hme, by omega⟩
    obtain ⟨j, rfl⟩ : ∃ j : Nat, k = n + j := ⟨(k - n).toNat, by omega⟩
    rcases hreach j hkb with hin | ⟨m, hmk, hme, hle⟩
    · exact hm.hasSettled (.inl hin)
    · exact hm.hasSettled (.inr (h.filled b hb m hmk hme _ hle hkb))
  empty := by
    intro hnone
    refine h.empty fun n hn => ?_
    by_contra hne
    exact hm.ne_none (.inr hne) (hnone n hn)

theorem LedgerFilled.drop {firsts bases : List Int} {first : Int} (h : LedgerFilled p firsts bases)
    (hentry : ∀ k, q.entry k = if first ≤ k then p.entry k else none)
    (hstays : ∃ n, Kept firsts n ∧ q.entry n ≠ none) : LedgerFilled q firsts bases where
  whole := by
    intro n c hc
    rw [hentry] at hc
    split_ifs at hc
    exact h.whole n c hc
  filled := by
    intro b hb n hkept hent k hnk hkb
    rw [hentry] at hent
    split_ifs at hent with hfirst
    · obtain ⟨c, hc, hset⟩ := h.filled b hb n hkept hent k hnk hkb
      exact ⟨c, by rw [hentry, if_pos (by omega), hc], hset⟩
    · exact absurd rfl hent
  empty := by
    intro hnone
    obtain ⟨n, hn, hne⟩ := hstays
    exact absurd (hnone n hn) hne

/-! ## The invariant -/

structure BaseInv (s : ReaderState) : Prop where
  ordered : Ordered s
  ledger : LedgerFilled s.proxy s.history.firsts s.history.bases
  /-- What is settled from the cursor on is still in the buffer. -/
  unreleased : ∀ n, s.proxy.expectedSn ≤ n → s.proxy.HasSettled n →
    ∃ c ∈ s.proxy.bufferedChange, c.sequenceNumber = n
  answered : s.history.firsts = [] → s.history.bases = []
  firsts_le : ∀ f ∈ s.history.firsts, f ≤ s.proxy.expectedSn
  bases_le : ∀ b ∈ s.history.bases, b ≤ s.proxy.expectedSn
  decreasing : s.history.bases.Pairwise (fun newer older => older ≤ newer)

theorem baseInv_start : BaseInv ReaderState.start where
  ordered := ordered_start
  ledger := ⟨fun _ _ h => (by cases h), nofun, fun _ => nofun⟩
  unreleased := by
    rintro n - ⟨c, hc, -⟩
    cases hc
  answered := fun _ => rfl
  firsts_le := nofun
  bases_le := nofun
  decreasing := Pairwise.nil

theorem Flushed.unreleased {buffer rest : ChangeBuffer} {start stop : Int} {out : List CacheChange}
    (hF : Flushed buffer start out rest stop) {n : Int} (hn : stop ≤ n) (hbuf : ∃ c ∈ buffer, c.sequenceNumber = n) :
    ∃ c ∈ rest, c.sequenceNumber = n := by
  obtain ⟨c, hc, rfl⟩ := hbuf
  rw [OrdList.mem_def, hF.split] at hc
  rcases mem_append.1 hc with hc | hc
  · exact absurd (hF.out_lt c hc) (not_lt.2 hn)
  · exact ⟨c, hc, rfl⟩

/-- A step that answers no HEARTBEAT and does not move the cursor back. -/
theorem BaseInv.of_quiet (hs : BaseInv s) (hord : Ordered s') (hfirsts : s'.history.firsts = s.history.firsts)
    (hbases : s'.history.bases = s.history.bases) (hcursor : s.proxy.expectedSn ≤ s'.proxy.expectedSn)
    (hledger : LedgerFilled s'.proxy s.history.firsts s.history.bases)
    (hun : ∀ n, s'.proxy.expectedSn ≤ n → s'.proxy.HasSettled n →
      ∃ c ∈ s'.proxy.bufferedChange, c.sequenceNumber = n) :
    BaseInv s' where
  ordered := hord
  ledger := by rw [hfirsts, hbases]; exact hledger
  unreleased := hun
  answered := by rw [hfirsts, hbases]; exact hs.answered
  firsts_le := by rw [hfirsts]; exact fun f hf => (hs.firsts_le f hf).trans hcursor
  bases_le := by rw [hbases]; exact fun b hb => (hs.bases_le b hb).trans hcursor
  decreasing := by rw [hbases]; exact hs.decreasing

theorem baseInv_data {c : CacheChange} {info : Option FragmentInfo} {pos : 0 < c.sequenceNumber} (hs : BaseInv s)
    (hok : BaseStepOk s (.data c info pos)) (h : s.step (.data c info pos) = some s') : BaseInv s' := by
  have hord := ordered_step hs.ordered h
  obtain ⟨rfl, hlate⟩ := hok
  obtain ⟨⟨p', out⟩, hd, heq⟩ := map_eq_some_iff.1 h
  cases heq
  have hm := marks_markChangeReceived hs.ledger.whole c.sequenceNumber
  have hmarked : LedgerFilled (s.proxy.markChangeReceived c.sequenceNumber none) s.history.firsts s.history.bases :=
    hs.ledger.mark hs.answered hs.bases_le (fun n hn => by rw [mem_singleton.1 hn]; omega) hlate hm
  -- settled numbers from the cursor on were buffered, or it is this one
  have hbuf : ∀ n, s.proxy.expectedSn ≤ n → (s.proxy.markChangeReceived c.sequenceNumber none).HasSettled n →
      n = c.sequenceNumber ∨ ∃ b ∈ s.proxy.bufferedChange, b.sequenceNumber = n := by
    rintro n hn ⟨d, hd, hset⟩
    by_cases heq : n = c.sequenceNumber
    · exact .inl heq
    · rw [hm.others n (by simpa using heq)] at hd
      exact .inr (hs.unreleased n hn ⟨d, hd, hset⟩)
  have hadd : ∀ n, s.proxy.expectedSn ≤ n → (s.proxy.markChangeReceived c.sequenceNumber none).HasSettled n →
      ∃ b ∈ (s.proxy.addBufferedChange c).bufferedChange, b.sequenceNumber = n := by
    intro n hn hset
    rcases hbuf n hn hset with rfl | ⟨b, hb, rfl⟩
    · exact s.proxy.exists_mem_addBufferedChange c
    · exact ⟨b, mem_addBufferedChange_of_mem c hb, rfl⟩
  obtain ⟨-, ⟨heq, -, ⟨flushed, rfl, hF⟩, hl⟩ | ⟨hlt, -, rfl, rfl⟩ | ⟨hlt, -, f, hf, -, hF, hl⟩ | ⟨hlt, -, rfl, rfl⟩⟩ :=
    deliverChangeToReader_cases hd
  · -- in order
    have hstop := hF.stop_eq
    have hentry : ∀ n, p'.entry n = (s.proxy.markChangeReceived c.sequenceNumber none).entry n := by
      intro n
      rw [entry, hl]
      rfl
    refine hs.of_quiet hord rfl rfl (by dsimp only; omega) (hmarked.congr hentry) (fun n hn hset => ?_)
    unfold WriterProxy.HasSettled at hset
    rw [hentry] at hset
    dsimp only at hn
    rcases hbuf n (by omega) hset with rfl | hb
    · omega
    · exact Flushed.unreleased hF hn hb
  · -- kept in the buffer
    have hentry : ∀ n, ((s.proxy.addBufferedChange c).markChangeReceived c.sequenceNumber none).entry n =
        (s.proxy.markChangeReceived c.sequenceNumber none).entry n := by
      simp [entry, markChangeReceived, upsertChange]
    refine hs.of_quiet hord rfl rfl (by simp) (hmarked.congr hentry) (fun n hn hset => ?_)
    unfold WriterProxy.HasSettled at hset
    rw [hentry] at hset
    exact hadd n (by simpa using hn) hset
  · -- the oldest hole is given up
    have hstop := hF.stop_eq
    have hentry : ∀ n, p'.entry n =
        if f.sequenceNumber ≤ n then (s.proxy.markChangeReceived c.sequenceNumber none).entry n else none := by
      intro n
      rw [← entry_dropChangesBelow, entry, hl]
      rfl
    have hfc : f.sequenceNumber ≤ c.sequenceNumber := by
      obtain ⟨b, hb, hsn⟩ := s.proxy.exists_mem_addBufferedChange c
      exact hsn ▸ first?_le hf hb
    have hstays : Kept s.history.firsts c.sequenceNumber ∧ p'.entry c.sequenceNumber ≠ none := by
      refine ⟨fun g hg => (hs.firsts_le g hg).trans hlt.le, ?_⟩
      rw [hentry, if_pos hfc]
      exact hm.ne_none (.inl mem_cons_self)
    refine hs.of_quiet hord rfl rfl (by dsimp only; omega) (hmarked.drop hentry ⟨_, hstays⟩) (fun n hn hset => ?_)
    dsimp only at hn
    refine Flushed.unreleased hF hn (hadd n (by omega) ?_)
    obtain ⟨d, hd, hset⟩ := hset
    rw [hentry] at hd
    split_ifs at hd
    exact ⟨d, hd, hset⟩
  · -- below the cursor
    refine hs.of_quiet hord rfl rfl le_rfl hmarked (fun n hn hset => ?_)
    have hn' : s.proxy.expectedSn ≤ n := hn
    rcases hbuf n hn' hset with rfl | hb
    · omega
    · exact hb

theorem baseInv_gap (hs : BaseInv s) (hok : BaseStepOk s (.gap g)) (h : s.step (.gap g) = some s') : BaseInv s' := by
  have hord := ordered_step hs.ordered h
  obtain ⟨⟨p', out⟩, hd, h⟩ := bind_eq_some_iff.1 h
  obtain ⟨irrelevant, hirr, heq⟩ := map_eq_some_iff.1 h
  cases heq
  obtain ⟨irr, hirr', -, hentry, hmove⟩ := handleGapMessage_cases hd
  obtain rfl : irrelevant = irr := some.inj (hirr.symm.trans hirr')
  have hm : Marks s.proxy p' irrelevant := marks_of_irrelevant hs.ledger.whole hentry
  have hledger : LedgerFilled p' s.history.firsts s.history.bases :=
    hs.ledger.mark hs.answered hs.bases_le (fun n hn => g.irrelevantChanges_pos hirr hn) (hok irrelevant hirr) hm
  -- what is settled beyond the numbers of the GAP was buffered
  have hbuf : ∀ n, s.proxy.expectedSn ≤ n → n ∉ irrelevant → p'.HasSettled n →
      ∃ b ∈ s.proxy.bufferedChange, b.sequenceNumber = n := by
    rintro n hn hnot ⟨d, hd, hset⟩
    rw [hm.others n hnot] at hd
    exact hs.unreleased n hn ⟨d, hd, hset⟩
  rcases hmove with ⟨last, hlast, hle, hF⟩ | ⟨hlt, -, hb, he⟩
  · have hstop := hF.stop_eq
    refine hs.of_quiet hord rfl rfl (by dsimp only; omega) hledger (fun n hn hset => ?_)
    dsimp only at hn
    have hnot : n ∉ irrelevant := by
      intro hin
      have := g.le_last hirr hlast hin
      omega
    exact Flushed.unreleased hF hn (hbuf n (by omega) hnot hset)
  · refine hs.of_quiet hord rfl rfl he.ge hledger (fun n hn hset => ?_)
    dsimp only at hn ⊢
    have hnot : n ∉ irrelevant := by
      intro hin
      cases hlast : irrelevant.getLast? with
      | none =>
        rw [getLast?_eq_none_iff.1 hlast] at hin
        cases hin
      | some last =>
        have h1 := g.le_last hirr hlast hin
        have h2 := hlt last hlast
        omega
    rw [hb]
    exact hbuf n (by omega) hnot hset

/-! ## HEARTBEATs -/

theorem isSettled_announced (c : ChangeFromWriter) :
    isSettled c.announced = isSettled c := by
  unfold ChangeFromWriter.announced
  split_ifs with hst
  · simp [isSettled, hst]
  · rfl

theorem fragmentInfo_announced (c : ChangeFromWriter) : c.announced.fragmentInfo = c.fragmentInfo := by
  unfold ChangeFromWriter.announced
  split_ifs <;> rfl

namespace Announced

variable {p q : WriterProxy} {cursor first last : Int}

theorem whole (h : Announced p q cursor first last) (hw : ∀ n c, p.entry n = some c → c.fragmentInfo = none) :
    ∀ n c, q.entry n = some c → c.fragmentInfo = none := by
  intro n c hc
  rw [h.entry] at hc
  split_ifs at hc
  · cases hc
    rw [fragmentInfo_announced]
    cases he : p.entry n with
    | none => rfl
    | some d => exact hw n d he
  · exact hw n c hc

theorem hasSettled_iff (h : Announced p q cursor first last) (k : Int) :
    q.HasSettled k ↔ first ≤ k ∧ p.HasSettled k := by
  unfold WriterProxy.HasSettled
  rw [h.entry]
  split_ifs with hrange hfirst
  · have hk : first ≤ k := (le_max_right _ _).trans hrange.1
    simp only [some.injEq, exists_eq_left', isSettled_announced, hk]
    cases he : p.entry k with
    | none => simp [isSettled]
    | some c => simp
  · simp [hfirst]
  · simp [hfirst]

theorem old_or_le {k : Int} (h : Announced p q cursor first last) (hk : q.entry k ≠ none) :
    p.entry k ≠ none ∨ cursor ≤ k := by
  rw [h.entry] at hk
  split_ifs at hk with hrange
  · exact .inr ((le_max_left _ _).trans hrange.1)
  · exact .inl hk
  · exact absurd rfl hk

end Announced

theorem BaseInv.bases_le_base {first last : Int} (hs : BaseInv s)
    (ha : Announced s.proxy q s.proxy.expectedSn first last) (hbase : q.calculateBitmapBase = some base)
    (hkept : Kept s.history.firsts first)
    (hleaves : (∀ n, q.entry n = none) → s.history.firsts = [] ∨
      ∀ d ∈ s.proxy.changesFromWriter.toList, ¬ Kept s.history.firsts d.sequenceNumber) :
    ∀ b ∈ s.history.bases, b ≤ base := by
  intro b hb
  rcases calculateBitmapBase_cases hbase with ⟨hnone, rfl⟩ | ⟨oldest, hold, -, hle, -, hstop⟩
  · rcases hleaves hnone with hnil | hdropped
    · rw [hs.answered hnil] at hb
      cases hb
    · exact hs.ledger.empty (entry_eq_none_of_forall hdropped) b hb
  · by_contra hlt
    have hfirst := ha.first_le hold
    have hkeptOldest : Kept s.history.firsts oldest := fun f hf => (hkept f hf).trans hfirst
    rcases ha.old_or_le hold with hp | hcur
    · have hset := hs.ledger.filled b hb oldest hkeptOldest hp base hle (not_le.1 hlt)
      exact hstop ((ha.hasSettled_iff base).2 ⟨hfirst.trans hle, hset⟩)
    · have := hs.bases_le b hb
      omega

theorem baseInv_heartbeat {hb : Heartbeat} (hs : BaseInv s) (hok : BaseStepOk s (.heartbeat hb))
    (h : s.step (.heartbeat hb) = some s') : BaseInv s' := by
  have hord := ordered_step hs.ordered h
  obtain ⟨⟨p', out, answer⟩, hd, heq⟩ := map_eq_some_iff.1 h
  rcases handleHeartbeatMessage_cases hd with ⟨rfl, rfl, rfl⟩ | ⟨base, missing, rfl, hacc, -, hF, hbase, hentry⟩
  · cases heq
    exact hs
  obtain ⟨hkept, hleaves⟩ := hok hacc
  cases heq
  have ha : Announced s.proxy p' s.proxy.expectedSn hb.firstSn hb.lastSn := ⟨hentry⟩
  have hpos := hb.first_pos
  have hstop := hF.stop_eq
  have hcursor : max s.proxy.expectedSn hb.firstSn ≤ p'.expectedSn := by omega
  -- a ledger that is not left empty has an entry at or below the cursor
  have hentries : (∃ n, p'.entry n ≠ none ∧ n ≤ p'.expectedSn) ∨ ((∀ n, p'.entry n = none) ∧ (s.history.firsts = [] ∨
      ∀ d ∈ s.proxy.changesFromWriter.toList, ¬ Kept s.history.firsts d.sequenceNumber)) := by
    by_cases hrange : max s.proxy.expectedSn hb.firstSn ≤ hb.lastSn
    · exact .inl ⟨_, ha.announces hrange, hcursor⟩
    rcases hleaves with hrange' | ⟨d, hd, h1, h2⟩ | ⟨hnil, hbelow⟩ | hdropped
    · exact absurd hrange' hrange
    · exact .inl ⟨_, ha.keeps h1 (entry_ne_none_of_mem hd), h2.trans hcursor⟩
    · refine .inr ⟨ha.eq_none hrange fun n hn => ?_, .inl hnil⟩
      exact entry_eq_none_of_forall (P := fun n => hb.firstSn ≤ n) (fun d hd => not_le.2 (hbelow d hd)) n hn
    · refine .inr ⟨ha.eq_none hrange fun n hn => ?_, .inr hdropped⟩
      exact entry_eq_none_of_forall hdropped n (fun f hf => (hkept f hf).trans hn)
  have hle : ∀ b ∈ s.history.bases, b ≤ base := by
    refine hs.bases_le_base ha hbase hkept (fun hnone => ?_)
    rcases hentries with ⟨n, hn, -⟩ | ⟨-, hwhy⟩
    · exact absurd (hnone n) hn
    · exact hwhy
  have hun : ∀ n, p'.expectedSn ≤ n → p'.HasSettled n → ∃ c ∈ p'.bufferedChange, c.sequenceNumber = n := by
    intro n hn hset
    have hbuf := hs.unreleased n (by omega) ((ha.hasSettled_iff n).1 hset).2
    exact Flushed.unreleased hF hn hbuf
  have hbaseLe : base ≤ p'.expectedSn := by
    rcases calculateBitmapBase_cases hbase with ⟨-, rfl⟩ | ⟨oldest, hold, hmin, -, hwalk, -⟩
    · omega
    · by_contra hlt
      obtain ⟨n, hn, hnc⟩ : ∃ n, p'.entry n ≠ none ∧ n ≤ p'.expectedSn := by
        rcases hentries with h | ⟨hnone, -⟩
        · exact h
        · exact absurd (hnone oldest) hold
      -- the number at the cursor is not settled
      obtain ⟨c, hc, hsn⟩ := hun _ le_rfl (hwalk _ ((hmin n hn).trans hnc) (not_le.1 hlt))
      have := hord.buffer_gt c hc
      dsimp only at this
      omega
  exact
    { ordered := hord
      ledger :=
        { whole := ha.whole hs.ledger.whole
          filled := by
            intro b hb' n _ hn k hnk hkb
            have hkbase : k < base := by
              rcases mem_cons.1 hb' with rfl | hb'
              · exact hkb
              · exact hkb.trans_le (hle b hb')
            rcases calculateBitmapBase_cases hbase with ⟨hnone, -⟩ | ⟨oldest, -, hmin, -, hwalk, -⟩
            · exact absurd (hnone n) hn
            · exact hwalk k ((hmin n hn).trans hnk) hkbase
          empty := by
            intro hnone b hb'
            have hall : ∀ n, p'.entry n = none := by
              intro n
              by_contra hne
              have hfirst := ha.first_le hne
              refine hne (hnone n fun f hf => ?_)
              rcases mem_cons.1 hf with rfl | hf
              · exact hfirst
              · exact (hkept f hf).trans hfirst
            have hone : base = 1 := by
              rcases calculateBitmapBase_cases hbase with ⟨-, hone⟩ | ⟨oldest, hold, -⟩
              · exact hone
              · exact absurd (hall oldest) hold
            rcases mem_cons.1 hb' with rfl | hb'
            · exact hone.le
            · exact (hle b hb').trans hone.le }
      unreleased := hun
      answered := nofun
      firsts_le := by
        intro f hf
        rcases mem_cons.1 hf with rfl | hf
        · exact (le_max_right _ _).trans hcursor
        · exact ((hs.firsts_le f hf).trans (le_max_left _ _)).trans hcursor
      bases_le := by
        intro b hb'
        rcases mem_cons.1 hb' with rfl | hb'
        · exact hbaseLe
        · exact (hle b hb').trans hbaseLe
      decreasing := pairwise_cons.2 ⟨hle, hs.decreasing⟩ }

theorem baseInv_step {m : Input} (hs : BaseInv s) (hok : BaseStepOk s m) (h : s.step m = some s') : BaseInv s' := by
  cases m with
  | data c info pos => exact baseInv_data hs hok h
  | heartbeat hb => exact baseInv_heartbeat hs hok h
  | gap g => exact baseInv_gap hs hok h
  | dataFrag sn total received pos tpos => exact hok.elim
  | heartbeatFrag sn last count pos lpos => exact hok.elim
  | forgetFragments sn => exact hok.elim

/-- **The ACKNACK base does not go back.** In every state reached by steps that meet `BaseStepOk`, the bases answered
to HEARTBEATs, the last one first, never increase. -/
theorem acknack_base_monotone (ms : List Input) (s : ReaderState)
    (hok : AllSteps ReaderState.step BaseStepOk ReaderState.start ms)
    (h : run ReaderState.step ReaderState.start ms = some s) :
    s.history.bases.Pairwise (fun newer older => older ≤ newer) :=
  (run_invariant_of_allSteps (fun _ _ _ ht hm hstep => baseInv_step ht hm hstep) baseInv_start hok h).decreasing

/-- Samples 2 and 1 out of order between two HEARTBEATs, a duplicate and a GAP before the third. -/
theorem acknack_base_monotone_reordered :
    ∃ s, run ReaderState.step ReaderState.start [heartbeatOf 0 3 1, emptyData 1, emptyData 0, heartbeatOf 0 3 2,
        emptyData 0, gapOf 2 3, heartbeatOf 0 4 3] = some s ∧
      s.history.bases = [4, 3, 1] ∧ s.history.bases.Pairwise (fun newer older => older ≤ newer) := by
  obtain ⟨s, hs, hb⟩ : ∃ s, run ReaderState.step ReaderState.start [heartbeatOf 0 3 1, emptyData 1, emptyData 0,
      heartbeatOf 0 3 2, emptyData 0, gapOf 2 3, heartbeatOf 0 4 3] = some s ∧ s.history.bases = [4, 3, 1] :=
    exists_run (by decide)
  exact ⟨s, hs, hb, acknack_base_monotone _ s (by decide) hs⟩

/-- **The base can go back**: with the HEARTBEAT of a writer that has nothing left, after a DATA before the HEARTBEAT
of an empty writer, and with a late DATA below the oldest entry. -/
theorem acknack_base_decreases :
    (∃ s, run ReaderState.step ReaderState.start [emptyData 0, heartbeatOf 0 1 1, heartbeatOf 1 1 2] = some s ∧
      s.history.bases = [1, 2] ∧ ¬ s.history.bases.Pairwise (fun newer older => older ≤ newer)) ∧
    (∃ s, run ReaderState.step ReaderState.start [emptyData 4, heartbeatOf 0 0 1, heartbeatOf 0 5 2] = some s ∧
      s.history.bases = [1, 6] ∧ ¬ s.history.bases.Pairwise (fun newer older => older ≤ newer)) ∧
    (∃ s, run ReaderState.step ReaderState.start
        [heartbeatOf 9 9 1, gapOf 11 13, heartbeatOf 9 13 2, emptyData 9, heartbeatOf 9 13 3] = some s ∧
      s.history.bases = [11, 14, 1] ∧ ¬ s.history.bases.Pairwise (fun newer older => older ≤ newer)) :=
  ⟨exists_run (by decide), exists_run (by decide), exists_run (by decide)⟩

end Int2Dds.Reader
