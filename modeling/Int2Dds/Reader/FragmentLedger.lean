import Int2Dds.Reader.AckBase

/-!
# The fragments on record

What a `WriterProxy` knows of the fragments of each sample, `fragments`, and what the NACK_FRAG asks for,
`getAscendingMissingFnList`.

* `markFragReceived` merges the fragments a DATA_FRAG brought into the record of one sample
  (`fragments_markFragReceived`, `mem_merge_iff`, `isComplete_merge_iff`).
-/

namespace Int2Dds.Reader
open Lib Rtps

/-! ## Records of fragments -/

namespace FragmentInfo

structure IsBlank (info : FragmentInfo) : Prop where
  empty : info.receivedFragments.numbers = ∅
  incomplete : info.isComplete = false

theorem isBlank_start (total : Nat) : (start total).IsBlank := ⟨rfl, rfl⟩

theorem isBlank_forget (info : FragmentInfo) : info.forget.IsBlank := ⟨rfl, rfl⟩

variable {info : FragmentInfo} {total : Nat} {received : List Nat}

section

variable (hin : ∀ f ∈ info.receivedFragments.numbers, 1 ≤ f ∧ f ≤ info.totalFragments)
include hin

theorem mem_merge_iff
    (hreceived : ∀ f ∈ received, 1 ≤ f ∧ f ≤ total) {f : Nat} :
    f ∈ (info.merge total received).receivedFragments.numbers ↔
      (f ∈ info.receivedFragments.numbers ∧ f ≤ total) ∨ f ∈ received := by
  have hfilter : received.filter (fun f => decide (1 ≤ f ∧ f ≤ total)) = received :=
    List.filter_eq_self.2 (fun g hg => decide_eq_true (hreceived g hg))
  simp only [FragmentInfo.merge, hfilter]
  rw [FragmentSet.mem_numbers_foldl_insert, or_comm]
  refine or_congr_left ?_
  split_ifs with htot
  · rw [FragmentSet.numbers_truncate, Finset.mem_filter]
  · push Not at htot
    exact ⟨fun hf => ⟨hf, htot ▸ (hin f hf).2⟩, And.left⟩

theorem isComplete_merge_iff :
    (info.merge total received).isComplete = true ↔
      ∀ f, 1 ≤ f → f ≤ total → f ∈ (info.merge total received).receivedFragments.numbers := by
  have hwithin : ∀ f ∈ (info.merge total received).receivedFragments.numbers, 1 ≤ f ∧ f ≤ total :=
    fun f hf => (mem_merge hin hf).2
  show decide ((info.merge total received).receivedFragments.len = total) = true ↔ _
  rw [decide_eq_true_iff]
  constructor
  · intro hlen f h1 h2
    exact FragmentSet.mem_numbers_of_len hwithin hlen h1 h2
  · intro hall
    have heq : (info.merge total received).receivedFragments.numbers = Finset.Icc 1 total := by
      ext f
      rw [Finset.mem_Icc]
      exact ⟨hwithin f, fun hf => hall f hf.1 hf.2⟩
    rw [FragmentSet.len_eq_card, heq, Nat.card_Icc, Nat.add_sub_cancel]

end

/-- The record is of fragments of the sample, and says whether it has all of them. -/
structure Faithful (info : FragmentInfo) : Prop where
  pos : 1 ≤ info.totalFragments
  within : ∀ f ∈ info.receivedFragments.numbers, 1 ≤ f ∧ f ≤ info.totalFragments
  complete : info.isComplete = true ↔ ∀ f, 1 ≤ f → f ≤ info.totalFragments → f ∈ info.receivedFragments.numbers

theorem IsBlank.faithful (h : info.IsBlank) (hpos : 1 ≤ info.totalFragments) : info.Faithful := by
  refine ⟨hpos, by simp [h.empty], iff_of_false (by simp [h.incomplete]) fun hall => ?_⟩
  simpa [h.empty] using hall 1 le_rfl hpos

theorem faithful_getD {o : Option FragmentInfo} (h : ∀ info ∈ o, info.Faithful) (hpos : 1 ≤ total) :
    (o.getD (start total)).Faithful := by
  cases o with
  | none => exact (isBlank_start total).faithful hpos
  | some info => exact h info rfl

end FragmentInfo

namespace WriterProxy

def fragments (p : WriterProxy) (sn : Int) : Option FragmentInfo := (p.entry sn).bind ChangeFromWriter.fragmentInfo

def allFragmentsReceived (p : WriterProxy) (sn : Int) : Bool := (p.fragments sn).any FragmentInfo.isComplete

/-- The fragments a NACK_FRAG asks for, in increasing order. -/
def getAscendingMissingFnList (p : WriterProxy) (sn : Int) : List Nat :=
  match p.fragments sn with
  | some info =>
    if info.isComplete then []
    else (List.range' 1 info.totalFragments).filter (fun f => !info.receivedFragments.contains f)
  | none => []

theorem mem_getAscendingMissingFnList {p : WriterProxy} {sn : Int} {info : FragmentInfo}
    (h : p.fragments sn = some info) (hc : info.isComplete = false) {f : Nat} :
    f ∈ p.getAscendingMissingFnList sn ↔
      (1 ≤ f ∧ f ≤ info.totalFragments) ∧ f ∉ info.receivedFragments.numbers := by
  rw [getAscendingMissingFnList, h]
  simp only [hc, Bool.false_eq_true, if_false]
  rw [List.mem_filter, List.mem_range'_1, ← FragmentSet.contains_iff]
  refine and_congr (by omega) ?_
  cases info.receivedFragments.contains f <;> simp

theorem fragments_markFragReceived (p : WriterProxy) (sn : Int) (total : Nat) (received : List Nat) (k : Int) :
    (p.markFragReceived sn total received).fragments k =
      if k = sn then some (((p.fragments k).getD (FragmentInfo.start total)).merge total received)
      else p.fragments k := by
  rw [fragments, markFragReceived, entry_upsertChange]
  split_ifs
  · rw [fragments]
    cases p.entry k <;> rfl
  · rfl

theorem fragments_seedFragmentTotal (p : WriterProxy) (sn : Int) (last : Nat) (k : Int) :
    (p.seedFragmentTotal sn last).fragments k =
      if k = sn then some ((p.fragments k).getD (.start (min last maxFragmentsPerSample))) else p.fragments k := by
  rw [fragments, seedFragmentTotal, entry_upsertChange]
  split_ifs
  · rw [fragments]
    cases p.entry k with
    | none => rfl
    | some c =>
      rw [Option.getD_some, Option.bind_some, Option.bind_some, ChangeFromWriter.seeded]
      cases hinfo : c.fragmentInfo <;> simp [hinfo]
  · rfl

theorem fragments_forgetFragments (p : WriterProxy) (sn k : Int) :
    (p.forgetFragments sn).fragments k =
      if k = sn then (p.fragments k).map FragmentInfo.forget else p.fragments k := by
  rw [fragments, entry_forgetFragments]
  split_ifs
  · rw [fragments]
    cases p.entry k <;> rfl
  · rfl

/-! ## What the handlers do to the records -/

/-- Each record of `p'` is the one of `p`, or blank. -/
def Sheds (p p' : WriterProxy) : Prop := ∀ k info, p'.fragments k = some info → p.fragments k = some info ∨ info.IsBlank

variable {p p' : WriterProxy}

theorem Sheds.refl (p : WriterProxy) : Sheds p p := fun _ _ h => .inl h

theorem sheds_of_entry (h : ∀ k c, p'.entry k = some c →
    c.fragmentInfo = none ∨ ∃ d, p.entry k = some d ∧ c.fragmentInfo = d.fragmentInfo) : Sheds p p' := by
  intro k info hinfo
  obtain ⟨c, hc, hfrag⟩ := Option.bind_eq_some_iff.1 hinfo
  rcases h k c hc with hnone | ⟨d, hd, heq⟩
  · rw [hnone] at hfrag
    cases hfrag
  · refine .inl ?_
    rw [fragments, hd, Option.bind_some, ← heq, hfrag]

theorem sheds_forgetFragments (sn : Int) : Sheds p (p.forgetFragments sn) := by
  intro k info h
  rw [fragments_forgetFragments] at h
  split_ifs at h
  · obtain ⟨info', -, rfl⟩ := Option.map_eq_some_iff.1 h
    exact .inr info'.isBlank_forget
  · exact .inl h

variable {out : List CacheChange}

theorem sheds_heartbeat {hb : Heartbeat} {answer : Option (Int × List Int)}
    (h : handleHeartbeatMessage p hb = some (p', out, answer)) : Sheds p p' := by
  rcases handleHeartbeatMessage_cases h with ⟨rfl, -, -⟩ | ⟨-, -, -, -, -, -, -, hentry⟩
  · exact Sheds.refl p'
  refine sheds_of_entry (fun k c hc => ?_)
  rw [hentry k] at hc
  split_ifs at hc
  · cases hc
    unfold ChangeFromWriter.announced
    cases p.entry k with
    | none => exact .inl (by split_ifs <;> rfl)
    | some d => exact .inr ⟨d, rfl, by rw [Option.getD_some]; split_ifs <;> rfl⟩
  · exact .inr ⟨c, hc, rfl⟩

theorem sheds_gap {g : Gap} (h : handleGapMessage p g = some (p', out)) : Sheds p p' := by
  obtain ⟨irrelevant, -, -, hentry, -⟩ := handleGapMessage_cases h
  refine sheds_of_entry (fun k c hc => ?_)
  rw [hentry k] at hc
  split_ifs at hc
  · cases hc
    cases p.entry k with
    | none => exact .inl rfl
    | some d => exact .inr ⟨d, rfl, rfl⟩
  · exact .inr ⟨c, hc, rfl⟩

theorem sheds_heartbeatFrag (sn : Int) (last : Nat) (count : BitVec 32) :
    Sheds p (handleHeartbeatFragMessage p sn last count) := by
  unfold handleHeartbeatFragMessage
  split_ifs
  · exact Sheds.refl p
  intro k info h
  rw [fragments_seedFragmentTotal, show fragments { p with lastHeartbeatFragCount := some count } k =
    p.fragments k from rfl]
    at h
  cases hk : p.fragments k with
  | none =>
    rw [hk] at h
    split_ifs at h
    cases h
    exact .inr (FragmentInfo.isBlank_start _)
  | some info' =>
    rw [hk, Option.getD_some, ite_self] at h
    exact .inl h

/-- A delivery leaves no new record where there is an entry, or where it comes with none. -/
theorem sheds_deliver {c : CacheChange} {fragmentInfo : Option FragmentInfo}
    (h : deliverChangeToReader p c fragmentInfo = some (p', out))
    (hentry : fragmentInfo = none ∨ p.entry c.sequenceNumber ≠ none) : Sheds p p' := by
  refine sheds_of_entry (fun k d hd => ?_)
  have he := deliverChangeToReader_marked h hd
  rw [markChangeReceived, entry_upsertChange] at he
  split_ifs at he with hk
  · cases he
    cases hp : p.entry k with
    | some d => exact .inr ⟨d, rfl, rfl⟩
    | none =>
      rcases hentry with rfl | hentry
      · exact .inl rfl
      · exact absurd ((congrArg p.entry hk).symm.trans hp) hentry
  · exact .inr ⟨d, he, rfl⟩

/-! ## Every order of steps on one record -/

inductive RecordStep
  | mark (total : Nat) (received : List Nat) (pos : 1 ≤ total)
  | seed (lastFragmentNum : Nat) (pos : 1 ≤ lastFragmentNum)
  | forget

def record (sn : Int) (p : WriterProxy) : RecordStep → WriterProxy
  | .mark total received _ => p.markFragReceived sn total received
  | .seed last _ => p.seedFragmentTotal sn last
  | .forget => p.forgetFragments sn

theorem faithful_record {sn : Int} (h : ∀ info ∈ p.fragments sn, info.Faithful) (step : RecordStep) :
    ∀ info ∈ (p.record sn step).fragments sn, info.Faithful := by
  intro info hinfo
  cases step with
  | mark total received pos =>
    rw [record, fragments_markFragReceived, if_pos rfl] at hinfo
    cases hinfo
    have hold := FragmentInfo.faithful_getD h pos
    exact ⟨pos, fun _ hf => (FragmentInfo.mem_merge hold.within hf).2, FragmentInfo.isComplete_merge_iff hold.within⟩
  | seed last pos =>
    rw [record, fragments_seedFragmentTotal, if_pos rfl] at hinfo
    cases hinfo
    exact FragmentInfo.faithful_getD h (le_min pos (by decide))
  | forget =>
    rw [record, fragments_forgetFragments, if_pos rfl] at hinfo
    obtain ⟨info', hinfo', rfl⟩ := Option.map_eq_some_iff.1 hinfo
    exact info'.isBlank_forget.faithful (h info' hinfo').pos

theorem fragment_records_exact (s : FragmentSet) (sn : Int) (steps : List RecordStep) :
    (s.len = s.numbers.card ∧ (∀ f, s.contains f = true ↔ f ∈ s.numbers) ∧
      (∀ f, (s.insert f).numbers = insert f s.numbers) ∧ (∀ n, (s.truncate n).numbers = s.numbers.filter (· ≤ n)) ∧
      s.clear.numbers = ∅) ∧
    ∀ info ∈ (steps.foldl (record sn) new).fragments sn,
      ((steps.foldl (record sn) new).allFragmentsReceived sn = true ↔
        info.receivedFragments.numbers = Finset.Icc 1 info.totalFragments) ∧
      (steps.foldl (record sn) new).getAscendingMissingFnList sn =
        (List.range' 1 info.totalFragments).filter (· ∉ info.receivedFragments.numbers) := by
  refine ⟨⟨s.len_eq_card, fun _ => FragmentSet.contains_iff, s.numbers_insert, s.numbers_truncate, rfl⟩, ?_⟩
  intro info hinfo
  have h : info.Faithful := List.foldlRecOn (motive := fun p => ∀ info ∈ fragments p sn, info.Faithful) steps _
    (by rintro _ ⟨⟩) (fun _ hp step _ => faithful_record hp step) info hinfo
  rw [allFragmentsReceived, getAscendingMissingFnList, hinfo]
  refine ⟨h.complete.trans ?_, ?_⟩
  · simp only [Finset.ext_iff, Finset.mem_Icc]
    exact ⟨fun hall f => ⟨h.within f, fun hf => hall f hf.1 hf.2⟩, fun hiff f h1 h2 => (hiff f).2 ⟨h1, h2⟩⟩
  · dsimp only
    split_ifs with hc
    · refine (List.filter_eq_nil_iff.2 fun f hf => ?_).symm
      have := List.mem_range'_1.1 hf
      simpa using h.complete.1 hc f (by omega) (by omega)
    · exact List.filter_congr fun f _ => by simp [← FragmentSet.contains_iff]

end WriterProxy

end Int2Dds.Reader
