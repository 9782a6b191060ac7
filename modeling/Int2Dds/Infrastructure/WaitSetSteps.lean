import Int2Dds.Infrastructure.WaitSet

/-!
# The steps of a WaitSet

What a thread does in a step (`Acts`), what the locks guard (`locked_acts`), and that the counts of waiting and of
parked threads are right (`counted_acts`).
-/

namespace Int2Dds.Infrastructure
open Lib Option Function

namespace Phase

variable {W C : Type*}

/-- The WaitSet whose conditions the thread has locked. -/
@[grind] def holdsConditions : Phase W C → Option W
  | planting w _ _ _ | inserting w _ _ _ | clearing w _ => some w
  | _ => none

/-- The condition whose callback the thread has locked. -/
@[grind] def holdsCallback : Phase W C → Option C
  | notifying _ slot | waking _ _ slot => slot
  | _ => none

/-- The WaitSet among whose waiting threads it counts. -/
@[grind] def waitsAt : Phase W C → Option W
  | snapshotting w _ | scanning w _ _ _ | comparing w _ _ | parked w _ _ | woken w _ _ _ | leaving w => some w
  | _ => none

/-- The WaitSet among whose parked threads it counts. -/
@[grind] def sleepsAt : Phase W C → Option W
  | parked w _ _ | woken w _ _ _ => some w
  | _ => none

/-! Waking a thread moves it from `parked` to `woken`, which the rest does not tell apart. -/

section Wake

variable [DecidableEq W] (w : W) (b : Bool) (p : Phase W C)

@[simp, grind =] theorem holdsConditions_wake : (p.wake w b).holdsConditions = p.holdsConditions := by
  cases p <;> simp only [wake]
  split_ifs <;> rfl

@[simp, grind =] theorem holdsCallback_wake : (p.wake w b).holdsCallback = p.holdsCallback := by
  cases p <;> simp only [wake]
  split_ifs <;> rfl

@[simp, grind =] theorem waitsAt_wake : (p.wake w b).waitsAt = p.waitsAt := by
  cases p <;> simp only [wake]
  split_ifs <;> rfl

@[simp, grind =] theorem sleepsAt_wake : (p.wake w b).sleepsAt = p.sleepsAt := by
  cases p <;> simp only [wake]
  split_ifs <;> rfl

theorem wake_eq_iff {q : Phase W C} (h : q.sleepsAt = none) : p.wake w b = q ↔ p = q := by
  cases p with
  | parked v timed n =>
    have hwake : (wake w b (parked v timed n : Phase W C)).sleepsAt = some v := sleepsAt_wake ..
    constructor <;> intro heq
    · rw [heq, h] at hwake
      simp at hwake
    · rw [← heq] at h
      simp [sleepsAt] at h
  | _ => rfl

theorem eq_parked_of_wake {v : W} {timed : Bool} {n : Nat} (h : p.wake w b = parked v timed n) :
    p = parked v timed n ∧ ¬ (b = true ∧ v = w) := by
  cases p with
  | parked v' timed' n' =>
    rw [wake] at h
    split_ifs at h with hcase
    injection h with hv htimed hn
    subst hv htimed hn
    exact ⟨rfl, hcase⟩
  | _ => simp [wake] at h

end Wake

end Phase

namespace State

variable {T W C : Type*} {s s' : State T W C}

section

variable [DecidableEq T] [DecidableEq W] [DecidableEq C]

inductive Acts (s : State T W C) (t : T) : State T W C → Prop
  | enters {w : W} {timed : Bool} (here : s.phase t = .entering w timed) :
      Acts s t ({ s with waitingCount := Function.update s.waitingCount w (s.waitingCount w + 1) }.goto t
        (.snapshotting w timed))
  | snapshots {w : W} {timed : Bool} (here : s.phase t = .snapshotting w timed) :
      Acts s t (s.goto t (.scanning w timed (s.generation w) false))
  | returns {w : W} {timed again : Bool} {n : Nat} (here : s.phase t = .scanning w timed n again) :
      Acts s t (s.goto t (.leaving w))
  | scans {w : W} {timed again : Bool} {n : Nat} (here : s.phase t = .scanning w timed n again)
      (free : s.conditionsLock w = none) (none : ∀ c ∈ s.conditions w, s.triggerValue c = false) :
      Acts s t (s.goto t (.comparing w timed n))
  | expires {w : W} {timed : Bool} {n : Nat} (here : s.phase t = .comparing w timed n) :
      Acts s t (s.goto t (.leaving w))
  | parks {w : W} {timed : Bool} {n : Nat} (here : s.phase t = .comparing w timed n)
      (same : sameGeneration (s.generation w) n = true) :
      Acts s t ({ s with parkedCount := Function.update s.parkedCount w (s.parkedCount w + 1) }.goto t
        (.parked w timed n))
  | looksAgain {w : W} {timed : Bool} {n : Nat} (here : s.phase t = .comparing w timed n) :
      Acts s t (s.goto t (.scanning w timed (s.generation w) true))
  | resumes {w : W} {timed timedOut : Bool} {n : Nat} (here : s.phase t = .woken w timed n timedOut)
      (same : sameGeneration (s.generation w) n = true) :
      Acts s t ({ s with parkedCount := Function.update s.parkedCount w (s.parkedCount w - 1) }.goto t
        (if timedOut then .leaving w else .comparing w timed n))
  | wakesUp {w : W} {timed timedOut : Bool} {n : Nat} (here : s.phase t = .woken w timed n timedOut) :
      Acts s t ({ s with parkedCount := Function.update s.parkedCount w (s.parkedCount w - 1) }.goto t
        (.scanning w timed (s.generation w) true))
  | leaves {w : W} (here : s.phase t = .leaving w) :
      Acts s t ({ s with waitingCount := Function.update s.waitingCount w (s.waitingCount w - 1) }.goto t .idle)
  | ends {phase : Phase W C} (here : s.phase t = phase)
      (kind : (∃ w c, phase = .attaching w c ∨ phase = .detaching w c) ∨
        ∃ c, phase = .calling c ∧ s.waitsetCallback c = none) : Acts s t (s.goto t .idle)
  | tests {w : W} {c : C} (here : s.phase t = .attaching w c) (free : s.conditionsLock w = none)
      (new : c ∉ s.conditions w) :
      Acts s t ({ s with conditionsLock := Function.update s.conditionsLock w (some t) }.goto t
        (.planting w c (decide (0 < s.waitingCount w)) (s.triggerValue c)))
  | plants {w : W} {c : C} {waiting triggered : Bool} (here : s.phase t = .planting w c waiting triggered)
      (free : s.callbackLock c = none) :
      Acts s t ({ s with waitsetCallback := Function.update s.waitsetCallback c (some w) }.goto t
        (.inserting w c waiting triggered))
  | inserts {w : W} {c : C} {waiting triggered : Bool} (here : s.phase t = .inserting w c waiting triggered) :
      Acts s t ({ s with
        conditions := Function.update s.conditions w (insert c (s.conditions w))
        conditionsLock := Function.update s.conditionsLock w none }.goto t
          (if waiting && triggered then .notifying w none else .idle))
  | detaches {w : W} {c : C} (here : s.phase t = .detaching w c) (free : s.conditionsLock w = none)
      (attached : c ∈ s.conditions w) :
      Acts s t ({ s with
        conditions := Function.update s.conditions w ((s.conditions w).erase c)
        conditionsLock := Function.update s.conditionsLock w (some t) }.goto t (.clearing w c))
  | clears {w : W} {c : C} (here : s.phase t = .clearing w c) (free : s.callbackLock c = none) :
      Acts s t ({ s with
        waitsetCallback := Function.update s.waitsetCallback c none
        conditionsLock := Function.update s.conditionsLock w none }.goto t .idle)
  | stores {c : C} {value : Bool} (here : s.phase t = .storing c value) :
      Acts s t ({ s with triggerValue := Function.update s.triggerValue c value }.goto t
        (if value then .calling c else .idle))
  | calls {w : W} {c : C} (here : s.phase t = .calling c) (free : s.callbackLock c = none)
      (planted : s.waitsetCallback c = some w) :
      Acts s t ({ s with callbackLock := Function.update s.callbackLock c (some t) }.goto t (.notifying w (some c)))
  | notifies {w : W} {slot : Option C} (here : s.phase t = .notifying w slot) :
      Acts s t ({ s with generation := Function.update s.generation w (s.generation w + 1) }.goto t
        (.waking w (decide (0 < s.parkedCount w)) slot))
  | wakes {w : W} {shouldWake : Bool} {slot : Option C} (here : s.phase t = .waking w shouldWake slot) :
      Acts s t ({ s with
        phase := fun u => (s.phase u).wake w shouldWake
        callbackLock := fun c => if slot = some c then none else s.callbackLock c }.goto t .idle)

theorem acts_act {t : T} {expired : Bool} (hs : s.act t expired = some s') : Acts s t s' := by
  unfold act at hs
  generalize hp : s.phase t = q at hs
  cases q with dsimp only at hs
  | idle | parked w timed n => cases hs
  | entering w timed => exact some.inj hs ▸ .enters hp
  | snapshotting w timed => exact some.inj hs ▸ .snapshots hp
  | scanning w timed n again =>
    split_ifs at hs with hlock hany
    · exact some.inj hs ▸ .returns hp
    · have hfree : s.conditionsLock w = none := not_not.1 hlock
      refine some.inj hs ▸ .scans hp hfree ?_
      intro c hc
      by_contra htrue
      apply hany
      have hex : s.anyTriggered w = true := decide_eq_true ⟨c, hc, by simpa using htrue⟩
      simp [hex]
  | comparing w timed n =>
    split_ifs at hs with hsame hexp
    · exact some.inj hs ▸ .expires hp
    · exact some.inj hs ▸ .parks hp hsame
    · exact some.inj hs ▸ .looksAgain hp
  | woken w timed n timedOut =>
    by_cases hsame : sameGeneration (s.generation w) n = true
    · rw [if_pos hsame] at hs
      exact some.inj hs ▸ .resumes hp hsame
    · rw [if_neg hsame] at hs
      exact some.inj hs ▸ .wakesUp hp
  | leaving w => exact some.inj hs ▸ .leaves hp
  | attaching w c =>
    split_ifs at hs with hlock hmem
    · exact some.inj hs ▸ .ends hp (.inl ⟨w, c, .inl rfl⟩)
    · exact some.inj hs ▸ .tests hp (not_not.1 hlock) hmem
  | planting w c waiting triggered =>
    split_ifs at hs with hlock
    exact some.inj hs ▸ .plants hp (not_not.1 hlock)
  | inserting w c waiting triggered => exact some.inj hs ▸ .inserts hp
  | detaching w c =>
    split_ifs at hs with hlock hmem
    · exact some.inj hs ▸ .detaches hp (not_not.1 hlock) hmem
    · exact some.inj hs ▸ .ends hp (.inl ⟨w, c, .inr rfl⟩)
  | clearing w c =>
    split_ifs at hs with hlock
    exact some.inj hs ▸ .clears hp (not_not.1 hlock)
  | storing c value => exact some.inj hs ▸ .stores hp
  | calling c =>
    split_ifs at hs with hlock
    cases hcb : s.waitsetCallback c with
    | none =>
      rw [hcb] at hs
      exact some.inj hs ▸ .ends hp (.inr ⟨c, rfl, hcb⟩)
    | some w =>
      rw [hcb] at hs
      exact some.inj hs ▸ .calls hp (not_not.1 hlock) hcb
  | notifying w slot => exact some.inj hs ▸ .notifies hp
  | waking w shouldWake slot => exact some.inj hs ▸ .wakes hp

end

/-! ## Locks -/

/-- A lock is held by the thread that is where it holds it. -/
structure Locked (s : State T W C) : Prop where
  conditions : ∀ t w, s.conditionsLock w = some t ↔ (s.phase t).holdsConditions = some w
  callback : ∀ t c, s.callbackLock c = some t ↔ (s.phase t).holdsCallback = some c

theorem Locked.exclusive (h : Locked s) (t t' : T) (w : W)
    (ht : (s.phase t).holdsConditions = some w) (ht' : (s.phase t').holdsConditions = some w) : t = t' := by
  rw [← h.conditions] at ht ht'
  rw [ht] at ht'
  exact some.inj ht'

theorem locked_acts [DecidableEq T] [DecidableEq W] [DecidableEq C] {t : T} (h : Locked s) (hs : Acts s t s') :
    Locked s' := by
  obtain ⟨hconditions, hcallback⟩ := h
  have hconditionsSelf := hconditions t
  have hcallbackSelf := hcallback t
  cases hs <;> constructor <;> unfold goto <;> grind [update_apply]

/-! ## Counts -/

def Counts (n : Nat) (p : T → Prop) : Prop := ∃ threads : Finset T, (∀ t, t ∈ threads ↔ p t) ∧ n = threads.card

theorem Counts.pos {n : Nat} {p : T → Prop} (h : Counts n p) {t : T} (ht : p t) : 0 < n := by
  obtain ⟨threads, hmem, rfl⟩ := h
  exact Finset.card_pos.2 ⟨t, (hmem t).2 ht⟩

structure Counted (s : State T W C) : Prop where
  waiting : ∀ w, Counts (s.waitingCount w) fun t => (s.phase t).waitsAt = some w
  parked : ∀ w, Counts (s.parkedCount w) fun t => (s.phase t).sleepsAt = some w

variable [DecidableEq T]

def Tracks (n : W → Nat) (at' : Phase W C → Option W) (phase : T → Phase W C) : Prop :=
  ∀ w, Counts (n w) fun t => at' (phase t) = some w

section Tracks

variable {n : W → Nat} {at' : Phase W C → Option W} {phase : T → Phase W C} {t : T} {q : Phase W C}

theorem tracks_stays (h : Tracks n at' phase) (heq : at' q = at' (phase t)) :
    Tracks n at' (update phase t q) := by
  intro w
  obtain ⟨threads, hmem, hcard⟩ := h w
  refine ⟨threads, ?_, hcard⟩
  intro u
  by_cases hu : u = t
  · simp [hu, hmem, heq]
  · simp [hu, hmem]

theorem tracks_joins [DecidableEq W] {w : W} (h : Tracks n at' phase) (hold : at' (phase t) = none)
    (hnew : at' q = some w) :
    Tracks (update n w (n w + 1)) at' (update phase t q) := by
  intro v
  obtain ⟨threads, hmem, hcard⟩ := h v
  by_cases hv : v = w
  · subst hv
    have ht : t ∉ threads := by simp [hmem, hold]
    refine ⟨insert t threads, ?_, ?_⟩
    · intro u
      by_cases hu : u = t
      · simp [hu, hnew]
      · simp [hu, hmem]
    · rw [update_self, Finset.card_insert_of_notMem ht, hcard]
  · refine ⟨threads, ?_, ?_⟩
    · intro u
      by_cases hu : u = t
      · simp [hu, hnew, hmem, hold, Ne.symm hv]
      · simp [hu, hmem]
    · rw [update_of_ne hv, hcard]

theorem tracks_quits [DecidableEq W] {w : W} (h : Tracks n at' phase) (hold : at' (phase t) = some w)
    (hnew : at' q = none) :
    Tracks (update n w (n w - 1)) at' (update phase t q) := by
  intro v
  obtain ⟨threads, hmem, hcard⟩ := h v
  by_cases hv : v = w
  · subst hv
    have ht : t ∈ threads := by simp [hmem, hold]
    refine ⟨threads.erase t, ?_, ?_⟩
    · intro u
      by_cases hu : u = t
      · simp [hu, hnew]
      · simp [hu, hmem]
    · rw [update_self, Finset.card_erase_of_mem ht, hcard]
  · refine ⟨threads, ?_, ?_⟩
    · intro u
      by_cases hu : u = t
      · simp [hu, hnew, hmem, hold, Ne.symm hv]
      · simp [hu, hmem]
    · rw [update_of_ne hv, hcard]

end Tracks

theorem counted_stays {t : T} {q : Phase W C} (h : Counted s)
    (hphase : s'.phase = update s.phase t q) (hwaiting : s'.waitingCount = s.waitingCount)
    (hparked : s'.parkedCount = s.parkedCount) (hw : q.waitsAt = (s.phase t).waitsAt)
    (hp : q.sleepsAt = (s.phase t).sleepsAt) : Counted s' := by
  constructor
  · rw [hphase, hwaiting]
    exact tracks_stays h.waiting hw
  · rw [hphase, hparked]
    exact tracks_stays h.parked hp

theorem counted_acts [DecidableEq W] [DecidableEq C] {t : T} (h : Counted s) (hs : Acts s t s') : Counted s' := by
  cases hs with
  | enters here =>
    constructor
    · exact tracks_joins h.waiting (by rw [here]; rfl) rfl
    · exact tracks_stays h.parked (by rw [here]; rfl)
  | parks here same =>
    constructor
    · exact tracks_stays h.waiting (by rw [here]; rfl)
    · exact tracks_joins h.parked (by rw [here]; rfl) rfl
  | resumes here same =>
    constructor
    · exact tracks_stays h.waiting (by rw [here]; split_ifs <;> rfl)
    · exact tracks_quits h.parked (by rw [here]; rfl) (by split_ifs <;> rfl)
  | wakesUp here =>
    constructor
    · exact tracks_stays h.waiting (by rw [here]; rfl)
    · exact tracks_quits h.parked (by rw [here]; rfl) rfl
  | leaves here =>
    constructor
    · exact tracks_quits h.waiting (by rw [here]; rfl) rfl
    · exact tracks_stays h.parked (by rw [here]; rfl)
  | wakes here =>
    rename_i w shouldWake slot
    -- the woken threads count until they have come back
    have hwoken : Counted { s with phase := fun u => (s.phase u).wake w shouldWake } := by
      constructor
      · simpa using h.waiting
      · simpa using h.parked
    have hwake : (s.phase t).wake w shouldWake = .waking w shouldWake slot := by
      rw [here]
      rfl
    refine counted_stays hwoken rfl rfl rfl ?_ ?_
    · show _ = ((s.phase t).wake w shouldWake).waitsAt
      rw [hwake]
      rfl
    · show _ = ((s.phase t).wake w shouldWake).sleepsAt
      rw [hwake]
      rfl
  | ends here kind =>
    rcases kind with ⟨w, c, rfl | rfl⟩ | ⟨c, rfl, -⟩ <;>
      exact counted_stays h rfl rfl rfl (by rw [here]; rfl) (by rw [here]; rfl)
  | inserts here | stores here =>
    refine counted_stays h rfl rfl rfl ?_ ?_ <;> rw [here] <;> split_ifs <;> rfl
  | _ => exact counted_stays h rfl rfl rfl (by simp [*, Phase.waitsAt]) (by simp [*, Phase.sleepsAt])

end State

end Int2Dds.Infrastructure
