import Int2Dds.Reader.Delivery

/-!
# What the delivery cursor steps over

`History.Covered n` says why a reader may stop waiting for the sample `n`: it was handed to the reader cache, a GAP
named it, the writer no longer has it, or it was given up for a full buffer.
-/

namespace Int2Dds.Reader
open Lib Rtps List Option
open WriterProxy (Flushed)

/-- The reader need not wait for `n` any more. -/
def History.Covered (h : History) (n : Int) : Prop :=
  (∃ c ∈ h.handed, c.sequenceNumber = n) ∨ n ∈ h.named ∨ (∃ first ∈ h.firsts, n < first) ∨
    ∃ span ∈ h.givenUp, span.1 ≤ n ∧ n < span.2

instance (h : History) (n : Int) : Decidable (h.Covered n) :=
  inferInstanceAs (Decidable (_ ∨ _ ∨ _ ∨ _))

/-- What a step must meet, in the state it is taken in, not to step over an owed sample. An accepted HEARTBEAT must
find nothing buffered below the cursor it sets; a GAP that moves the cursor must name every number passed, and find
nothing buffered there. -/
def CursorStepOk (s : ReaderState) : Input → Prop
  | .heartbeat hb =>
    shouldAcceptCount hb.count s.proxy.lastHeartbeatCount s.proxy.lastHeartbeatAt false hb.now = true →
      ∀ c ∈ s.proxy.bufferedChange.toList, max s.proxy.expectedSn hb.firstSn ≤ c.sequenceNumber
  | .gap g =>
    ∀ irrelevant ∈ g.irrelevantChanges, ∀ last ∈ irrelevant.getLast?, s.proxy.expectedSn ≤ last →
      (∀ n ∈ snRange (max 1 s.proxy.expectedSn) (last + 1), n ∈ irrelevant) ∧
        ∀ c ∈ s.proxy.bufferedChange.toList, last < c.sequenceNumber
  | _ => True

instance (s : ReaderState) : (m : Input) → Decidable (CursorStepOk s m)
  | .heartbeat _ => inferInstanceAs (Decidable (_ → _))
  | .gap g => inferInstanceAs (Decidable (∀ irrelevant ∈ g.irrelevantChanges, ∀ last ∈ irrelevant.getLast?,
      s.proxy.expectedSn ≤ last → (∀ n ∈ snRange (max 1 s.proxy.expectedSn) (last + 1), n ∈ irrelevant) ∧
        ∀ c ∈ s.proxy.bufferedChange.toList, last < c.sequenceNumber))
  | .data .. | .dataFrag .. | .heartbeatFrag .. | .forgetFragments .. => isTrue trivial

structure History.Grows (h h' : History) : Prop where
  handed : ∀ c ∈ h.handed, c ∈ h'.handed
  received : ∀ n ∈ h.received, n ∈ h'.received
  named : ∀ n ∈ h.named, n ∈ h'.named
  firsts : ∀ n ∈ h.firsts, n ∈ h'.firsts
  givenUp : ∀ span ∈ h.givenUp, span ∈ h'.givenUp

theorem History.Covered.mono {h h' : History} (hg : h.Grows h') {n : Int} (hn : h.Covered n) : h'.Covered n := by
  rcases hn with ⟨c, hc, hcn⟩ | hn | ⟨f, hf, hlt⟩ | ⟨span, hsp, hin⟩
  · exact .inl ⟨c, hg.handed c hc, hcn⟩
  · exact .inr (.inl (hg.named n hn))
  · exact .inr (.inr (.inl ⟨f, hg.firsts f hf, hlt⟩))
  · exact .inr (.inr (.inr ⟨span, hg.givenUp span hsp, hin⟩))

variable {s s' : ReaderState}

theorem step_grows {m : Input} (h : s.step m = some s') : s.history.Grows s'.history := by
  cases m with
  | data c info pos =>
    obtain ⟨⟨p', out⟩, -, heq⟩ := map_eq_some_iff.1 h
    cases heq
    exact ⟨fun _ h => mem_append_left _ h, fun _ h => mem_cons_of_mem _ h, fun _ h => h, fun _ h => h,
      fun _ h => mem_append_right _ h⟩
  | heartbeat hb =>
    obtain ⟨⟨p', out, answer⟩, -, heq⟩ := map_eq_some_iff.1 h
    cases answer with
    | none => cases heq; exact ⟨fun _ h => h, fun _ h => h, fun _ h => h, fun _ h => h, fun _ h => h⟩
    | some answer =>
      cases heq
      exact ⟨fun _ h => mem_append_left _ h, fun _ h => h, fun _ h => h, fun _ h => mem_cons_of_mem _ h,
        fun _ h => h⟩
  | gap g =>
    obtain ⟨⟨p', out⟩, -, h⟩ := bind_eq_some_iff.1 h
    obtain ⟨irrelevant, -, heq⟩ := map_eq_some_iff.1 h
    cases heq
    exact ⟨fun _ h => mem_append_left _ h, fun _ h => h, fun _ h => mem_append_right _ h, fun _ h => h,
      fun _ h => h⟩
  | dataFrag sn total received pos tpos =>
    cases h
    refine ⟨fun _ h => h, fun n hn => ?_, fun _ h => h, fun _ h => h, fun _ h => h⟩
    simp only [History.hold]
    split_ifs
    · exact mem_cons_of_mem _ hn
    · exact hn
  | heartbeatFrag | forgetFragments =>
    cases h; exact ⟨fun _ h => h, fun _ h => h, fun _ h => h, fun _ h => h, fun _ h => h⟩

def CursorCovered (s : ReaderState) : Prop :=
  s.proxy.expectedSn ≠ snUnknown → ∀ n, 1 ≤ n → n < s.proxy.expectedSn → s.history.Covered n

theorem CursorCovered.of_flushed {buffer : ChangeBuffer} {cursor start : Int} {out : List CacheChange}
    (hF : Flushed buffer start out s.proxy.bufferedChange s.proxy.expectedSn)
    (hge : ∀ c ∈ buffer, start ≤ c.sequenceNumber) (hout : ∀ c ∈ out, c ∈ s.history.handed)
    (hold : ∀ n, 1 ≤ n → n < cursor → s.history.Covered n)
    (hnew : ∀ n, 1 ≤ n → cursor ≤ n → n < start → s.history.Covered n) : CursorCovered s := by
  intro _ n h1 h2
  rcases lt_or_ge n start with hlt | hle
  · exact (lt_or_ge n cursor).elim (hold n h1) fun hge => hnew n h1 hge hlt
  · obtain ⟨c, hc, hcn⟩ := hF.covers hge n hle h2
    exact .inl ⟨c, hout c hc, hcn⟩

theorem cursorCovered_step {m : Input} (ho : Ordered s) (hs : CursorCovered s)
    (hok : CursorStepOk s m) (h : s.step m = some s') : CursorCovered s' := by
  have hgrow := step_grows h
  -- what was covered stays covered; below an unknown cursor there is nothing to cover
  have hold : ∀ n, 1 ≤ n → n < s.proxy.expectedSn → s'.history.Covered n := by
    intro n h1 h2
    refine (hs (fun hu => ?_) n h1 h2).mono hgrow
    rw [hu, snUnknown] at h2
    omega
  cases m with
  | data c info pos =>
    obtain ⟨⟨p', out⟩, hd, heq⟩ := map_eq_some_iff.1 h
    cases heq
    obtain ⟨-,
      ⟨heq, -, ⟨flushed, rfl, hF⟩, -⟩ | ⟨hlt, -, rfl, rfl⟩ | ⟨hlt, -, f, hf, hspan, hF, -⟩ | ⟨-, -, rfl, rfl⟩⟩ :=
      deliverChangeToReader_cases hd
    · refine CursorCovered.of_flushed hF (fun b hb => ?_) (fun b hb => ?_) hold (fun n h1 hge h2 => ?_)
      · have := ho.buffer_gt b hb; omega
      · exact mem_append_right _ (mem_cons_of_mem _ hb)
      · exact .inl ⟨c, mem_append_right _ mem_cons_self, by omega⟩
    · intro _ n h1 h2
      exact hold n h1 (by simpa using h2)
    · -- the hole below the first buffered change is given up
      have hfirst := fun b hb => OrdList.first?_le (b := b) hf hb
      have hflt := ho.first_gt hlt hf
      rw [max_eq_right hflt.le] at hF
      refine CursorCovered.of_flushed hF hfirst (fun b hb => mem_append_right _ hb) hold (fun n h1 hge h2 => ?_)
      refine .inr (.inr (.inr ⟨(s.proxy.expectedSn, f.sequenceNumber), mem_append_left _ ?_, hge, h2⟩))
      rw [hspan]; exact mem_singleton_self _
    · exact fun _ n h1 h2 => hold n h1 h2
  | heartbeat hb =>
    obtain ⟨⟨p', out, answer⟩, hd, heq⟩ := map_eq_some_iff.1 h
    rcases handleHeartbeatMessage_cases hd with ⟨rfl, rfl, rfl⟩ | ⟨base, missing, rfl, hacc, -, hF, -⟩
    · cases heq; exact hs
    · cases heq
      refine CursorCovered.of_flushed hF (hok hacc) (fun b hb => mem_append_right _ hb) hold (fun n h1 hge h2 => ?_)
      exact .inr (.inr (.inl ⟨hb.firstSn, mem_cons_self, by omega⟩))
  | gap g =>
    obtain ⟨⟨p', out⟩, hd, h⟩ := bind_eq_some_iff.1 h
    obtain ⟨irrelevant, hirr, heq⟩ := map_eq_some_iff.1 h
    cases heq
    obtain ⟨irr, hirr', -, -, ⟨last, hlast, hle, hF⟩ | ⟨-, rfl, -, he⟩⟩ := handleGapMessage_cases hd
    · obtain rfl : irrelevant = irr := some.inj (hirr.symm.trans hirr')
      obtain ⟨hall, hbuf⟩ := hok irrelevant hirr last hlast hle
      refine CursorCovered.of_flushed hF (fun b hb => by have := hbuf b hb; omega)
        (fun b hb => mem_append_right _ hb) hold (fun n h1 hge h2 => ?_)
      exact .inr (.inl (mem_append_left _ (hall n (mem_snRange.2 (by omega)))))
    · intro _ n h1 h2
      exact hold n h1 (by rw [← he]; exact h2)
  | dataFrag | heartbeatFrag | forgetFragments =>
    obtain ⟨he, -⟩ := step_frame h nofun nofun nofun
    exact fun _ n h1 h2 => hold n h1 (he ▸ h2)

/-- **The cursor skips nothing owed.** In every state reached by steps that meet `CursorStepOk`, every sequence
number from 1 to a known cursor is covered. -/
theorem cursor_covered (ms : List Input) (s : ReaderState)
    (hok : AllSteps ReaderState.step CursorStepOk ReaderState.start ms)
    (h : run ReaderState.step ReaderState.start ms = some s) (hknown : s.proxy.expectedSn ≠ snUnknown) (n : Int)
    (h1 : 1 ≤ n) (h2 : n < s.proxy.expectedSn) : s.history.Covered n := by
  have hinv : Ordered s ∧ CursorCovered s :=
    run_invariant_of_allSteps (I := fun t => Ordered t ∧ CursorCovered t)
      (fun t m t' ht hm hstep => ⟨ordered_step ht.1 hstep, cursorCovered_step ht.1 ht.2 hm hstep⟩)
      ⟨ordered_start, fun hu => absurd rfl hu⟩ hok h
  exact hinv.2 hknown n h1 h2

theorem length_noBits : (List.replicate 8 (0 : BitVec 32)).length = 8 := rfl

theorem isValid_empty (base : Nat) :
    SequenceNumberSet.isValid ⟨base + 1, List.replicate 8 0, 0, length_noBits⟩ = true := by
  simp only [SequenceNumberSet.isValid, NumberSet.isValid, NumberSet.numOfLongs]
  simp

/-- A GAP that names `start + 1` up to, but not including, `base + 1`, and nothing else. -/
def gapOf (start base : Nat) : Input :=
  .gap ⟨start + 1, ⟨base + 1, List.replicate 8 0, 0, length_noBits⟩, Int.natCast_succ_pos start, isValid_empty base⟩

theorem cursor_covered_gap :
    ∃ s, run ReaderState.step ReaderState.start [heartbeatOf 0 2 1, emptyData 0, gapOf 1 2] = some s ∧
      s.proxy.expectedSn = 3 ∧ s.history.Covered 2 := by
  obtain ⟨s, hs, he⟩ :
      ∃ s, run ReaderState.step ReaderState.start [heartbeatOf 0 2 1, emptyData 0, gapOf 1 2] = some s ∧
      s.proxy.expectedSn = 3 := exists_run (by decide)
  exact ⟨s, hs, he, cursor_covered _ s (by decide) hs (by rw [he]; decide) 2 (by decide) (by rw [he]; decide)⟩

/-- **The cursor can skip owed samples**: a GAP that names 3 moves it past 1, and a HEARTBEAT after DATA 2 and 3 past
10. -/
theorem cursor_skips_owed :
    (∃ s, run ReaderState.step ReaderState.start [heartbeatOf 0 4 1, gapOf 2 3] = some s ∧
      s.proxy.expectedSn = 4 ∧ ¬ s.history.Covered 1) ∧
    (∃ s, run ReaderState.step ReaderState.start [emptyData 1, emptyData 2, heartbeatOf 9 12 1] = some s ∧
      s.proxy.expectedSn = 12 ∧ ¬ s.history.Covered 10 ∧ ¬ s.history.Covered 11) :=
  ⟨exists_run (by decide), exists_run (by decide)⟩

end Int2Dds.Reader
