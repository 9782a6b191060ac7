import Int2Dds.Infrastructure.WaitSetSteps
import Mathlib.Data.Fintype.Basic

/-!
# No wake-up is lost

A thread that has seen no trigger parks only if the generation is still its snapshot. So it suffices that a trigger
which comes after it has looked is followed by a notification of its WaitSet.

That takes the conditions of `Meets`. The locks and the counts need none: `locks_counts_no_deadlock`.
-/

namespace Int2Dds.Infrastructure
open Lib Phase Function

namespace Phase

variable {W C : Type*}

/-- The thread has looked at the conditions and goes by its snapshot. -/
@[grind] def relies : Phase W C → Option (W × Nat)
  | comparing w _ snapshot | parked w _ snapshot | woken w _ snapshot _ => some (w, snapshot)
  | _ => none

@[grind] def seen : Phase W C → Option (W × Nat)
  | scanning w _ snapshot _ | comparing w _ snapshot | parked w _ snapshot | woken w _ snapshot _ => some (w, snapshot)
  | _ => none

@[grind] def alarms (w : W) (c : C) : Phase W C → Prop
  | calling c' => c' = c
  | notifying w' _ => w' = w
  | _ => False

@[grind] def attaches (w : W) (c : C) (waiting : Bool) : Phase W C → Prop
  | planting w' c' waiting' _ | inserting w' c' waiting' _ => w' = w ∧ c' = c ∧ waiting' = waiting
  | _ => False

@[grind] def isQuiet : Phase W C → Bool
  | calling _ | notifying _ _ | waking _ _ _ => false
  | _ => true

/-- The WaitSet has the callback of a condition that is not among its conditions. -/
@[grind] def owns (w : W) (c : C) : Phase W C → Prop
  | inserting w' c' _ _ | clearing w' c' => w' = w ∧ c' = c
  | _ => False

/-- The thread has the conditions locked to attach or detach this one. -/
@[grind] def moves (w : W) (c : C) : Phase W C → Prop
  | planting w' c' _ _ | inserting w' c' _ _ | clearing w' c' => w' = w ∧ c' = c
  | _ => False

variable {p : Phase W C} {w : W}

@[grind →] theorem moves_of_owns {c : C} (h : p.owns w c) : p.moves w c := by
  cases p <;> simp_all [owns, moves]

/-- Only one thread at a time attaches or detaches. -/
@[grind →] theorem holdsConditions_of_moves {c : C} (h : p.moves w c) : p.holdsConditions = some w := by
  cases p <;> simp_all [moves, holdsConditions]

@[grind →] theorem holdsConditions_of_attaches {c : C} {b : Bool} (h : p.attaches w c b) :
    p.holdsConditions = some w := by
  cases p <;> simp_all [attaches, holdsConditions]

@[grind →] theorem relies_eq_none_of_attaches {c : C} {b : Bool} (h : p.attaches w c b) : p.relies = none := by
  cases p <;> simp_all [attaches, relies]

@[grind →] theorem seen_of_relies {n : Nat} (h : p.relies = some (w, n)) : p.seen = some (w, n) := by
  cases p <;> simp_all [relies, seen]

@[grind →] theorem waitsAt_of_relies {n : Nat} (h : p.relies = some (w, n)) : p.waitsAt = some w := by
  cases p <;> simp_all [relies, waitsAt]

/-! Waking a thread moves it from `parked` to `woken`, which the rest does not tell apart. -/

section Wake

variable [DecidableEq W] (w : W) (b : Bool) (p : Phase W C)

@[simp, grind =] theorem relies_wake : (p.wake w b).relies = p.relies := by
  cases p <;> simp only [wake]
  split_ifs <;> rfl

@[simp, grind =] theorem seen_wake : (p.wake w b).seen = p.seen := by
  cases p <;> simp only [wake]
  split_ifs <;> rfl

@[simp, grind =] theorem alarms_wake (v : W) (c : C) : (p.wake w b).alarms v c = p.alarms v c := by
  cases p <;> simp only [wake]
  split_ifs <;> rfl

@[simp, grind =] theorem attaches_wake (v : W) (c : C) (a : Bool) : (p.wake w b).attaches v c a = p.attaches v c a := by
  cases p <;> simp only [wake]
  split_ifs <;> rfl

@[simp, grind =] theorem owns_wake (v : W) (c : C) : (p.wake w b).owns v c = p.owns v c := by
  cases p <;> simp only [wake]
  split_ifs <;> rfl

@[simp, grind =] theorem moves_wake (v : W) (c : C) : (p.wake w b).moves v c = p.moves v c := by
  cases p <;> simp only [wake]
  split_ifs <;> rfl

end Wake

end Phase

namespace State

variable {T W C : Type*}

/-! ## What holds in every state -/

/-- A notification of the WaitSet has come since the snapshot, or will come. -/
def Alarm (s : State T W C) (w : W) (c : C) (snapshot : Nat) : Prop :=
  snapshot < s.generation w ∨ ∃ t, (s.phase t).alarms w c

/-- A thread is about to add the condition, which was not triggered when it was tested. -/
def Inserting (s : State T W C) (w : W) (c : C) : Prop := ∃ t, s.phase t = .inserting w c true false

def Calling (s : State T W C) (c : C) : Prop := ∃ t, s.phase t = .calling c

variable {s : State T W C}

theorem Calling.alarm {c : C} (h : s.Calling c) (w : W) (n : Nat) : s.Alarm w c n := by
  obtain ⟨t, ht⟩ := h
  exact .inr ⟨t, by simp [ht, alarms]⟩

def Waking (s : State T W C) (w : W) : Prop := ∃ t slot, s.phase t = .waking w true slot

/-- The callback of an attached condition wakes the WaitSet it is attached to. -/
structure Planted (s : State T W C) : Prop where
  attached : ∀ w c, c ∈ s.conditions w → s.waitsetCallback c = some w
  owned : ∀ t w c, (s.phase t).owns w c → s.waitsetCallback c = some w
  absent : ∀ t w c, (s.phase t).moves w c → c ∉ s.conditions w

/-- A thread that goes by its snapshot does not miss a trigger. -/
structure Aware (s : State T W C) : Prop where
  /-- No thread waits that has looked before a condition is added which nobody was told of. -/
  alone : ∀ t w c, (s.phase t).attaches w c false → ∀ t' n, (s.phase t').relies ≠ some (w, n)
  /-- A condition that was triggered after the test is one whose callback is about to be called. -/
  tested : ∀ t w c, s.phase t = .planting w c true false → s.triggerValue c = true → s.Calling c
  past : ∀ t w n, (s.phase t).seen = some (w, n) → n ≤ s.generation w
  told : ∀ t w n, (s.phase t).relies = some (w, n) → ∀ c,
    (c ∈ s.conditions w ∨ s.Inserting w c) → s.triggerValue c = true → s.Alarm w c n
  /-- A parked thread that a notification came for is about to be woken. -/
  roused : ∀ t w timed n, s.phase t = .parked w timed n → n < s.generation w → s.Waking w

/-- What a step needs of the other threads: a condition is planted when no other WaitSet has it; a callback is called
when no thread whose test missed the trigger is about to plant it; the generation is compared before it has come
round. -/
structure Meets (s : State T W C) (t : T) : Prop where
  single : ∀ w c waiting triggered, s.phase t = .planting w c waiting triggered → ∀ w', w' ≠ w →
    c ∉ s.conditions w' ∧ ∀ t', ¬ (s.phase t').owns w' c
  quiet : ∀ c, s.phase t = .calling c → ∀ t' w, s.phase t' ≠ .planting w c true false
  unwrapped : ∀ w n, (s.phase t).relies = some (w, n) → s.generation w < n + 2 ^ 64

structure Sound (s : State T W C) : Prop where
  locked : Locked s
  planted : Planted s
  counted : Counted s
  aware : Aware s

theorem sound_new : Sound (new : State T W C) := by
  have hcounts : ∀ w : W, Counts 0 fun t : T => (Phase.idle : Phase W C).waitsAt = some w := by
    intro w
    exact ⟨∅, by simp [waitsAt], rfl⟩
  refine ⟨?_, ?_, ⟨hcounts, hcounts⟩, ?_⟩
  · constructor <;> simp [new, holdsConditions, holdsCallback]
  · constructor <;> simp [new, owns]
  · constructor <;> simp [new, seen, relies]

variable [DecidableEq T]

/-! ## Callbacks -/

variable {s' : State T W C} {t : T}

theorem planted_acts [DecidableEq W] [DecidableEq C] (hl : Locked s) (h : Planted s) (hm : Meets s t)
    (hs : Acts s t s') : Planted s' := by
  obtain ⟨hattached, howned, habsent⟩ := h
  have hexclusive := hl.exclusive
  have hsingle := hm.single
  cases hs <;> constructor <;> unfold goto <;> grind [update_apply]

/-! ## Snapshots -/

theorem exists_update {P : Phase W C → Prop} {phase : T → Phase W C} (q : Phase W C) (ht : ¬ P (phase t))
    (h : ∃ t', P (phase t')) : ∃ t', P (update phase t q t') := by
  obtain ⟨t', ht'⟩ := h
  refine ⟨t', ?_⟩
  rw [update_of_ne]
  · exact ht'
  · intro heq
    exact ht (heq ▸ ht')

structure Keeps (s s' : State T W C) : Prop where
  alarm : ∀ w c n, s.Alarm w c n → s'.Alarm w c n
  calling : ∀ c, s.Calling c → s'.Calling c
  waking : ∀ w, s.Waking w → s'.Waking w

section

variable {s s' : State T W C} {t : T} {q : Phase W C} (hphase : s'.phase = update s.phase t q)

include hphase

theorem phase_apply (t' : T) : s'.phase t' = if t' = t then q else s.phase t' := by
  rw [hphase, update_apply]

variable (hgen : s'.generation = s.generation)

include hgen

theorem keeps_update (hold : (s.phase t).isQuiet = true) : Keeps s s' := by
  constructor
  · intro w c n h
    unfold Alarm at *
    rw [hphase, hgen]
    refine h.imp id (exists_update q ?_)
    cases hp : s.phase t <;> simp_all [alarms, isQuiet]
  · intro c h
    unfold Calling at *
    rw [hphase]
    refine exists_update (P := fun p => p = .calling c) q ?_ h
    cases hp : s.phase t <;> simp_all [isQuiet]
  · intro w h
    unfold Waking at *
    rw [hphase]
    refine exists_update (P := fun p => ∃ slot, p = .waking w true slot) q ?_ h
    cases hp : s.phase t <;> simp_all [isQuiet]

/-- A trigger is set: the thread that sets it is about to call the callback. -/
theorem aware_stores [DecidableEq C] {c : C} {value : Bool} (h : Aware s) (here : s.phase t = .storing c value)
    (hq : q = if value then .calling c else .idle) (hconditions : s'.conditions = s.conditions)
    (hstore : s'.triggerValue = update s.triggerValue c value) : Aware s' := by
  have hkeeps := keeps_update hphase hgen (by simp [here, isQuiet])
  obtain ⟨halone, htested, hpast, htold, hroused⟩ := h
  have hphase' := phase_apply hphase
  -- a trigger that is set was set before, or is being told
  have htrigger : ∀ c', s'.triggerValue c' = true → s.triggerValue c' = true ∨ s'.Calling c' := by
    intro c' hc'
    rw [hstore, update_apply] at hc'
    split_ifs at hc' with hcc
    · exact .inr ⟨t, by simp [hphase', hq, hc', hcc]⟩
    · exact .inl hc'
  have hinserting : ∀ w' c', s'.Inserting w' c' → s.Inserting w' c' := by
    rintro w' c' ⟨t', ht'⟩
    exact ⟨t', by grind⟩
  constructor
  · grind
  · intro t' w' c' ht' hc'
    rcases htrigger c' hc' with hc | hc
    · exact hkeeps.calling c' (htested t' w' c' (by grind) hc)
    · exact hc
  · grind
  · intro t' w' n ht' c' hvisible hc'
    rw [hconditions] at hvisible
    rcases htrigger c' hc' with hc | hc
    · exact hkeeps.alarm _ _ _ (htold t' w' n (by grind) c' (hvisible.imp id (hinserting w' c')) hc)
    · exact hc.alarm w' n
  · intro t' w' timed n ht' hn
    rw [hgen] at hn
    exact hkeeps.waking w' (hroused t' w' timed n (by grind) hn)

variable (htrigger : s'.triggerValue = s.triggerValue)

include htrigger

/-- A thread that was about to tell nobody goes on, without changing a trigger or a generation. -/
theorem aware_of_quiet (hl : Locked s) (h : Aware s) (hconditions : ∀ w, s'.conditions w ⊆ s.conditions w)
    (hold : (s.phase t).isQuiet = true)
    (hattach : ∀ w c, q.attaches w c false → ∀ t' n, (s.phase t').relies ≠ some (w, n))
    (htest : ∀ w c, q = .planting w c true false ∨ q = .inserting w c true false → s.triggerValue c = true →
      s.Calling c)
    (hrely : ∀ w n, q.relies = some (w, n) → (s.phase t).relies = some (w, n) ∨
      s.conditionsLock w = none ∧ ∀ c ∈ s.conditions w, s.triggerValue c = false)
    (hseen : ∀ w n, q.seen = some (w, n) → n ≤ s.generation w)
    (hparked : ∀ w timed n, q = .parked w timed n → s.generation w = n) : Aware s' := by
  have hkeeps := keeps_update hphase hgen hold
  obtain ⟨halone, htested, hpast, htold, hroused⟩ := h
  have hphase' := phase_apply hphase
  have hinserting : ∀ w c, s'.Inserting w c → s.Inserting w c ∨ q = .inserting w c true false := by
    rintro w c ⟨t', ht'⟩
    rw [hphase'] at ht'
    split_ifs at ht' with heq
    · exact .inr ht'
    · exact .inl ⟨t', ht'⟩
  -- without the lock no thread is about to add a condition
  have hfree : ∀ w, s.conditionsLock w = none → ∀ t', (s.phase t').holdsConditions ≠ some w := by
    intro w hw t' ht'
    rw [← hl.conditions, hw] at ht'
    simp at ht'
  constructor
  · grind
  · intro t' w c ht' hc
    apply hkeeps.calling
    rw [htrigger] at hc
    rw [hphase'] at ht'
    split_ifs at ht' with heq
    · exact htest w c (.inl ht') hc
    · exact htested t' w c ht' hc
  · grind
  · intro t' w n ht' c hc hc'
    rw [htrigger] at hc'
    apply hkeeps.alarm
    have hvisible : (c ∈ s.conditions w ∨ s.Inserting w c) ∨ q = .inserting w c true false := by
      rcases hc with hc | hc
      · exact .inl (.inl (hconditions w hc))
      · exact (hinserting w c hc).imp .inr id
    rcases hvisible with hvisible | hq
    · rw [hphase'] at ht'
      split_ifs at ht' with heq
      · rcases hrely w n ht' with hrelied | ⟨hlock, hnone⟩
        · exact htold t w n hrelied c hvisible hc'
        · rcases hvisible with hmem | ⟨u, hu⟩
          · rw [hnone c hmem] at hc'
            simp at hc'
          · exact absurd (by simp [hu, holdsConditions]) (hfree w hlock u)
      · exact htold t' w n ht' c hvisible hc'
    · exact (htest w c (.inr hq) hc').alarm w n
  · intro t' w timed n ht' hn
    rw [hgen] at hn
    apply hkeeps.waking
    rw [hphase'] at ht'
    split_ifs at ht' with heq
    · have := hparked w timed n ht'
      omega
    · exact hroused t' w timed n ht' hn

/-- A condition is added: a thread that has looked before is told of it, if it is triggered. -/
theorem aware_inserts [DecidableEq W] [DecidableEq C] {w : W} {c : C} {waiting triggered : Bool} (h : Aware s)
    (here : s.phase t = .inserting w c waiting triggered)
    (hq : q = if waiting && triggered then .notifying w none else .idle)
    (hinsert : s'.conditions = update s.conditions w (insert c (s.conditions w))) : Aware s' := by
  have hkeeps := keeps_update hphase hgen (by simp [here, isQuiet])
  obtain ⟨halone, htested, hpast, htold, hroused⟩ := h
  have hphase' := phase_apply hphase
  have hconditions : ∀ w' c', c' ∈ s'.conditions w' → c' ∈ s.conditions w' ∨ w' = w ∧ c' = c := by
    intro w' c' hc'
    rw [hinsert] at hc'
    grind [update_apply]
  have hinserting : ∀ w' c', s'.Inserting w' c' → s.Inserting w' c' := by
    rintro w' c' ⟨t', ht'⟩
    exact ⟨t', by grind⟩
  constructor
  · grind
  · intro t' w' c' ht' hc'
    rw [htrigger] at hc'
    exact hkeeps.calling c' (htested t' w' c' (by grind) hc')
  · grind
  · intro t' w' n ht' c' hc' hc
    rw [htrigger] at hc
    have hrelies : (s.phase t').relies = some (w', n) := by grind
    have hvisible : (c' ∈ s.conditions w' ∨ s.Inserting w' c') ∨ w' = w ∧ c' = c := by
      rcases hc' with hc' | hc'
      · exact (hconditions w' c' hc').imp .inl id
      · exact .inl (.inr (hinserting w' c' hc'))
    rcases hvisible with hvisible | ⟨rfl, rfl⟩
    · exact hkeeps.alarm _ _ _ (htold t' w' n hrelies c' hvisible hc)
    · -- what the test has found
      cases waiting with
      | false => exact absurd hrelies (halone t w' c' (by simp [here, attaches]) t' n)
      | true =>
        cases triggered with
        | false => exact hkeeps.alarm _ _ _ (htold t' w' n hrelies c' (.inr ⟨t, here⟩) hc)
        | true => exact .inr ⟨t, by simp [hphase', hq, alarms]⟩
  · intro t' w' timed n ht' hn
    rw [hgen] at hn
    exact hkeeps.waking w' (hroused t' w' timed n (by grind) hn)

/-- A callback is called, or there is none: the WaitSet that has the condition is told. -/
theorem aware_calls {c : C} (hp : Planted s) (h : Aware s) (hm : Meets s t) (here : s.phase t = .calling c)
    (hconditions : s'.conditions = s.conditions)
    (hq : q = .idle ∧ s.waitsetCallback c = none ∨ ∃ w, q = .notifying w (some c) ∧ s.waitsetCallback c = some w) :
    Aware s' := by
  obtain ⟨halone, htested, hpast, htold, hroused⟩ := h
  have hphase' := phase_apply hphase
  have hinserting : ∀ w' c', s'.Inserting w' c' → s.Inserting w' c' := by
    rintro w' c' ⟨t', ht'⟩
    exact ⟨t', by grind⟩
  have hcallback : ∀ w' c', c' ∈ s.conditions w' ∨ s.Inserting w' c' → s.waitsetCallback c' = some w' := by
    rintro w' c' (hc' | ⟨u, hu⟩)
    · exact hp.attached w' c' hc'
    · exact hp.owned u w' c' (by simp [hu, owns])
  constructor
  · grind
  · intro t' w' c' ht' hc'
    rw [htrigger] at hc'
    have hold : s.phase t' = .planting w' c' true false := by grind
    obtain ⟨u, hu⟩ := htested t' w' c' hold hc'
    -- this call is not the one that the test has missed
    have hne : c' ≠ c := by
      rintro rfl
      exact hm.quiet c' here t' w' hold
    exact ⟨u, by grind⟩
  · grind
  · intro t' w' n ht' c' hvisible hc'
    rw [htrigger] at hc'
    rw [hconditions] at hvisible
    have hvisible := hvisible.imp id (hinserting w' c')
    rcases htold t' w' n (by grind) c' hvisible hc' with hlt | ⟨u, hu⟩
    · exact .inl (by rw [hgen]; exact hlt)
    · by_cases hut : u = t
      · -- the callback is that of the WaitSet
        subst hut
        rw [here] at hu
        obtain rfl : c = c' := hu
        have hw' := hcallback w' c hvisible
        rcases hq with ⟨-, hnone⟩ | ⟨w, rfl, hw⟩
        · rw [hnone] at hw'
          simp at hw'
        · rw [hw] at hw'
          exact .inr ⟨u, by simp [hphase', alarms, Option.some.inj hw']⟩
      · exact .inr ⟨u, by rw [hphase', if_neg hut]; exact hu⟩
  · intro t' w' timed n ht' hn
    rw [hgen] at hn
    obtain ⟨u, slot, hu⟩ := hroused t' w' timed n (by grind) hn
    exact ⟨u, slot, by grind⟩

end

/-- One more notification: threads with an older snapshot are told, those parked are about to be woken. -/
theorem aware_notifies [DecidableEq W] {w : W} {slot : Option C} (hc : Counted s) (h : Aware s)
    (here : s.phase t = .notifying w slot)
    (hphase : s'.phase = update s.phase t (.waking w (decide (0 < s.parkedCount w)) slot))
    (hnotify : s'.generation = update s.generation w (s.generation w + 1))
    (htrigger : s'.triggerValue = s.triggerValue) (hconditions : s'.conditions = s.conditions) : Aware s' := by
  obtain ⟨halone, htested, hpast, htold, hroused⟩ := h
  have hphase' := phase_apply hphase
  have hgen : ∀ w', s'.generation w' = if w' = w then s.generation w + 1 else s.generation w' := by
    intro w'
    rw [hnotify, update_apply]
  have hinserting : ∀ w' c', s'.Inserting w' c' → s.Inserting w' c' := by
    rintro w' c' ⟨t', ht'⟩
    exact ⟨t', by grind⟩
  constructor
  · grind
  · intro t' w' c' ht' hc'
    rw [htrigger] at hc'
    obtain ⟨u, hu⟩ := htested t' w' c' (by grind) hc'
    exact ⟨u, by grind⟩
  · grind
  · intro t' w' n ht' c' hvisible hc'
    rw [htrigger] at hc'
    rw [hconditions] at hvisible
    have hrelies : (s.phase t').relies = some (w', n) := by grind
    by_cases hw : w' = w
    · subst hw
      have hle : n ≤ s.generation w' := hpast t' w' n (by grind)
      refine .inl ?_
      rw [hgen, if_pos rfl]
      omega
    · rcases htold t' w' n hrelies c' (hvisible.imp id (hinserting w' c')) hc' with hlt | ⟨u, hu⟩
      · refine .inl ?_
        rwa [hgen, if_neg hw]
      · have hut : u ≠ t := by
          rintro rfl
          rw [here] at hu
          exact hw hu.symm
        refine .inr ⟨u, ?_⟩
        rwa [hphase', if_neg hut]
  · intro t' w' timed n ht' hn
    have hparked : s.phase t' = .parked w' timed n := by grind
    by_cases hw : w' = w
    · subst hw
      have hpos : 0 < s.parkedCount w' := (hc.parked w').pos (t := t') (by simp [hparked, sleepsAt])
      exact ⟨t, slot, by simp [hphase', hpos]⟩
    · rw [hgen, if_neg hw] at hn
      obtain ⟨u, slot', hu⟩ := hroused t' w' timed n hparked hn
      exact ⟨u, slot', by grind⟩

theorem aware_wakes [DecidableEq W] {w : W} {shouldWake : Bool} {slot : Option C} (h : Aware s)
    (here : s.phase t = .waking w shouldWake slot)
    (hphase : s'.phase = update (fun u => (s.phase u).wake w shouldWake) t .idle) (hgen : s'.generation = s.generation)
    (htrigger : s'.triggerValue = s.triggerValue) (hconditions : s'.conditions = s.conditions) : Aware s' := by
  obtain ⟨halone, htested, hpast, htold, hroused⟩ := h
  have hphase' : ∀ t', s'.phase t' = if t' = t then .idle else (s.phase t').wake w shouldWake := by
    intro t'
    rw [hphase, update_apply]
  -- outside the condition variable every other thread is where it was
  have hsame : ∀ t' q, q.sleepsAt = none → q ≠ .idle → s'.phase t' = q → s.phase t' = q := by
    intro t' q hq hidle ht'
    rw [hphase'] at ht'
    split_ifs at ht' with heq
    · exact absurd ht'.symm hidle
    · exact (wake_eq_iff _ _ _ hq).1 ht'
  have hstays : ∀ t' q, q.sleepsAt = none → t' ≠ t → s.phase t' = q → s'.phase t' = q := by
    intro t' q hq hne ht'
    rw [hphase', if_neg hne]
    exact (wake_eq_iff _ _ _ hq).2 ht'
  have hinserting : ∀ w' c', s'.Inserting w' c' → s.Inserting w' c' := by
    rintro w' c' ⟨t', ht'⟩
    exact ⟨t', hsame t' _ rfl (by simp) ht'⟩
  constructor
  · grind
  · intro t' w' c' ht' hc'
    rw [htrigger] at hc'
    obtain ⟨u, hu⟩ := htested t' w' c' (hsame t' _ rfl (by simp) ht') hc'
    exact ⟨u, hstays u _ rfl (by grind) hu⟩
  · grind
  · intro t' w' n ht' c' hvisible hc'
    rw [htrigger] at hc'
    rw [hconditions] at hvisible
    have hrelies : (s.phase t').relies = some (w', n) := by grind
    rcases htold t' w' n hrelies c' (hvisible.imp id (hinserting w' c')) hc' with hlt | ⟨u, hu⟩
    · refine .inl ?_
      rwa [hgen]
    · have hut : u ≠ t := by
        rintro rfl
        simp [here, alarms] at hu
      refine .inr ⟨u, ?_⟩
      rwa [hphase', if_neg hut, alarms_wake]
  · intro t' w' timed n ht' hn
    rw [hgen] at hn
    rw [hphase'] at ht'
    split_ifs at ht' with heq
    obtain ⟨hparked, hother⟩ := eq_parked_of_wake _ _ _ ht'
    obtain ⟨u, slot', hu⟩ := hroused t' w' timed n hparked hn
    have hut : u ≠ t := by
      rintro rfl
      rw [here] at hu
      injection hu with hw hb
      exact hother ⟨hb, hw.symm⟩
    exact ⟨u, slot', hstays u _ rfl hut hu⟩

theorem aware_acts [DecidableEq W] [DecidableEq C] (hl : Locked s) (hp : Planted s) (hc : Counted s) (h : Aware s)
    (hm : Meets s t) (hs : Acts s t s') : Aware s' := by
  have halone := h.alone t
  have htested := h.tested t
  have hpast := h.past t
  -- a thread that goes by its snapshot counts as waiting
  have hwaiting : ∀ t' w n, (s.phase t').relies = some (w, n) → 0 < s.waitingCount w := by
    intro t' w n ht'
    exact (hc.waiting w).pos (t := t') (waitsAt_of_relies ht')
  have hgen : ∀ w timed n, s.phase t = .comparing w timed n → sameGeneration (s.generation w) n = true →
      s.generation w = n := by
    intro w timed n here same
    have hle := hpast w n (by simp [here, seen])
    have hlt := hm.unwrapped w n (by simp [here, relies])
    simp only [sameGeneration, beq_iff_eq] at same
    omega
  cases hs with
  | inserts here => exact aware_inserts (s := s) rfl rfl rfl h here rfl rfl
  | stores here => exact aware_stores (s := s) rfl rfl h here rfl rfl rfl
  | notifies here => exact aware_notifies hc h here rfl rfl rfl rfl
  | wakes here => exact aware_wakes h here rfl rfl rfl rfl
  | calls here free planted => exact aware_calls (s := s) rfl rfl rfl hp h hm here rfl (.inr ⟨_, rfl, planted⟩)
  | ends here kind =>
    rcases kind with ⟨w, c, hphase⟩ | ⟨c, hphase, hnone⟩
    · refine aware_of_quiet (s := s) rfl rfl rfl hl h (fun _ => subset_rfl) ?_ ?_ ?_ ?_ ?_ ?_
      all_goals grind
    · exact aware_calls (s := s) rfl rfl rfl hp h hm (here.trans hphase) rfl (.inl ⟨rfl, hnone⟩)
  | detaches here free attached =>
    refine aware_of_quiet (s := s) rfl rfl rfl hl h ?_ ?_ ?_ ?_ ?_ ?_ ?_
    · intro w'
      simp only [goto, update_apply]
      split_ifs with hw
      · exact hw ▸ Finset.erase_subset ..
      · rfl
    all_goals grind
  | plants here free =>
    rename_i w c waiting triggered
    have hattach : ∀ w' c', (Phase.inserting w c waiting triggered).attaches w' c' false →
        (s.phase t).attaches w' c' false := by
      rw [here]
      exact fun _ _ => id
    refine aware_of_quiet (s := s) rfl rfl rfl hl h (fun _ => subset_rfl) ?_ ?_ ?_ ?_ ?_ ?_
    all_goals grind
  | _ =>
    refine aware_of_quiet (s := s) rfl rfl rfl hl h (fun _ => subset_rfl) ?_ ?_ ?_ ?_ ?_ ?_
    all_goals grind

/-! ## Whole runs -/

/-- A thread goes on by itself: it begins an operation, or comes out of the condition variable. -/
theorem sound_goto {q : Phase W C} (h : Sound s) (hquiet : (s.phase t).isQuiet = true)
    (hold : (s.phase t).holdsConditions = none) (hnew : q.holdsConditions = none)
    (hcallback : q.holdsCallback = (s.phase t).holdsCallback) (hwaits : q.waitsAt = (s.phase t).waitsAt)
    (hsleeps : q.sleepsAt = (s.phase t).sleepsAt) (hrelies : q.relies = (s.phase t).relies)
    (hseen : q.seen = (s.phase t).seen) (hparked : ∀ w timed n, q ≠ .parked w timed n) : Sound (s.goto t q) := by
  obtain ⟨⟨hconditions, hcallbacks⟩, ⟨hattached, howned, habsent⟩, hcounted, haware⟩ := h
  have hpast := haware.past t
  refine ⟨?_, ?_, counted_stays hcounted rfl rfl rfl hwaits hsleeps, ?_⟩
  · constructor <;> unfold goto <;> grind [update_apply]
  · constructor <;> unfold goto <;> grind [update_apply]
  · refine aware_of_quiet (s := s) rfl rfl rfl ⟨hconditions, hcallbacks⟩ haware
      (fun _ => subset_rfl) hquiet ?_ ?_ ?_ ?_ ?_
    all_goals grind

theorem locked_goto {t : T} {q : Phase W C} (h : Locked s)
    (hconditions : q.holdsConditions = (s.phase t).holdsConditions)
    (hcallback : q.holdsCallback = (s.phase t).holdsCallback) : Locked (s.goto t q) := by
  obtain ⟨hl, hl'⟩ := h
  constructor <;> unfold goto <;> grind [update_apply]

variable [DecidableEq W] [DecidableEq C]

def InputMeets (s : State T W C) : Input T W C → Prop
  | .act t _ => Meets s t
  | .call _ _ | .returns _ _ => True

theorem sound_step {s s' : State T W C} {input : Input T W C} (h : Sound s) (hm : InputMeets s input)
    (hs : s.step input = some s') : Sound s' := by
  cases input with
  | act t expired =>
    have hacts := acts_act hs
    exact ⟨locked_acts h.locked hacts, planted_acts h.locked h.planted hm hacts, counted_acts h.counted hacts,
      aware_acts h.locked h.planted h.counted h.aware hm hacts⟩
  | call t operation =>
    rw [step] at hs
    split at hs
    · rename_i hidle
      obtain rfl := Option.some.inj hs
      cases operation <;> refine sound_goto h ?_ ?_ ?_ ?_ ?_ ?_ ?_ ?_ ?_ <;> simp [hidle, Operation.start, isQuiet,
        holdsConditions, holdsCallback, waitsAt, sleepsAt, relies, seen]
    · simp at hs
  | returns t timedOut =>
    rw [step] at hs
    split at hs
    · rename_i w timed n hparked
      split_ifs at hs
      obtain rfl := Option.some.inj hs
      refine sound_goto h ?_ ?_ ?_ ?_ ?_ ?_ ?_ ?_ ?_ <;> simp [hparked, isQuiet,
        holdsConditions, holdsCallback, waitsAt, sleepsAt, relies, seen]
    · simp at hs

theorem locked_counted_step {s' : State T W C} {input : Input T W C} (h : Locked s ∧ Counted s)
    (hs : s.step input = some s') : Locked s' ∧ Counted s' := by
  obtain ⟨hlocked, hcounted⟩ := h
  cases input with
  | act t expired => exact ⟨locked_acts hlocked (acts_act hs), counted_acts hcounted (acts_act hs)⟩
  | call t operation =>
    rw [step] at hs
    split at hs
    · rename_i hidle
      obtain rfl := Option.some.inj hs
      cases operation <;>
      exact ⟨locked_goto hlocked (by rw [hidle]; rfl) (by rw [hidle]; rfl),
        counted_stays hcounted rfl rfl rfl (by rw [hidle]; rfl) (by rw [hidle]; rfl)⟩
    · cases hs
  | returns t timedOut =>
    rw [step] at hs
    split at hs
    · rename_i w timed n hparked
      split_ifs at hs
      obtain rfl := Option.some.inj hs
      exact ⟨locked_goto hlocked (by rw [hparked]; rfl) (by rw [hparked]; rfl),
        counted_stays hcounted rfl rfl rfl (by rw [hparked]; rfl) (by rw [hparked]; rfl)⟩
    · cases hs

/-! ## Threads without a step -/

def Halted (s : State T W C) (t : T) : Prop := ∀ expired, s.act t expired = none

/-- No thread holds a lock that keeps the others, so each is through with its operation or parked. -/
theorem idle_or_parked_of_act_eq_none {s : State T W C} (h : Locked s) (hstep : ∀ t, s.act t true = none) (t : T) :
    s.phase t = .idle ∨ ∃ w timed n, s.phase t = .parked w timed n := by
  have hcallback : ∀ c, s.callbackLock c = none := by
    intro c
    by_contra hne
    obtain ⟨u, hu⟩ := Option.ne_none_iff_exists'.1 hne
    rw [h.callback] at hu
    have hact := hstep u
    cases hphase : s.phase u with
    | notifying | waking => simp [act, hphase] at hact
    | _ => simp [hphase, holdsCallback] at hu
  have hconditions : ∀ w, s.conditionsLock w = none := by
    intro w
    by_contra hne
    obtain ⟨u, hu⟩ := Option.ne_none_iff_exists'.1 hne
    rw [h.conditions] at hu
    have hact := hstep u
    cases hphase : s.phase u with
    | planting | clearing => simp [act, hphase, hcallback] at hact
    | inserting w c waiting triggered => simp [act, hphase] at hact
    | _ => simp [hphase, holdsConditions] at hu
  have hact := hstep t
  cases hphase : s.phase t with
  | idle => exact .inl rfl
  | parked w timed n => exact .inr ⟨w, timed, n, rfl⟩
  | calling c =>
    cases hcb : s.waitsetCallback c <;> simp [act, hphase, hcallback, hcb] at hact
  | _ =>
    rw [act] at hact
    grind

theorem idle_or_parked {s : State T W C} {p : T} {w : W} {timed : Bool} {n : Nat} (h : Locked s)
    (hp : s.phase p = .parked w timed n) (hhalted : ∀ t, t ≠ p → Halted s t) (t : T) :
    s.phase t = .idle ∨ ∃ w timed n, s.phase t = .parked w timed n := by
  refine idle_or_parked_of_act_eq_none h (fun t => ?_) t
  by_cases ht : t = p
  · rw [act, ht, hp]
  · exact hhalted t ht true

/-- **A trigger is not lost.** While each step meets its condition, no thread stays parked at a WaitSet with a
triggered condition once the others have no step left. -/
theorem trigger_not_lost (inputs : List (Input T W C)) (s : State T W C) (hok : AllSteps step InputMeets new inputs)
    (hrun : run step new inputs = some s) (p : T) (w : W) (timed : Bool) (n : Nat) (hp : s.phase p = .parked w timed n)
    (hhalted : ∀ t, t ≠ p → Halted s t) (c : C) (hc : c ∈ s.conditions w) : s.triggerValue c = false := by
  have hs : Sound s := by
    refine run_invariant_of_allSteps (I := Sound) ?_ sound_new hok hrun
    intro s input s' hs hm hstep
    exact sound_step hs hm hstep
  have hrest := idle_or_parked hs.locked hp hhalted
  by_contra htrue
  have halarm : s.Alarm w c n := hs.aware.told p w n (by simp [hp, relies]) c (.inl hc) (by simpa using htrue)
  rcases halarm with hlt | ⟨u, hu⟩
  · obtain ⟨u, slot, hu⟩ := hs.aware.roused p w timed n hp hlt
    rcases hrest u with hidle | ⟨_, _, _, hparked⟩
    · simp [hidle] at hu
    · simp [hparked] at hu
  · rcases hrest u with hidle | ⟨_, _, _, hparked⟩
    · simp [hidle, alarms] at hu
    · simp [hparked, alarms] at hu

/-- **No deadlock.** In every interleaving of every operation a lock has one holder, the counts of the waiting and of
the parked threads are exact, and where no thread has a step, each is through with its operation or parked. -/
theorem locks_counts_no_deadlock (inputs : List (Input T W C)) (s : State T W C) (hrun : run step new inputs = some s) :
    (∀ t t' w, (s.phase t).holdsConditions = some w → (s.phase t').holdsConditions = some w → t = t') ∧
    (∀ t t' c, (s.phase t).holdsCallback = some c → (s.phase t').holdsCallback = some c → t = t') ∧ Counted s ∧
    ((∀ t, Halted s t) → ∀ t, s.phase t = .idle ∨ ∃ w timed n, s.phase t = .parked w timed n) := by
  obtain ⟨hlocked, hcounted⟩ := run_invariant (I := fun s => Locked s ∧ Counted s)
    (fun _ _ _ => locked_counted_step) ⟨sound_new.locked, sound_new.counted⟩ hrun
  refine ⟨hlocked.exclusive, fun t t' c ht ht' => ?_, hcounted, fun hhalted => ?_⟩
  · rw [← hlocked.callback] at ht ht'
    exact Option.some.inj (ht.symm.trans ht')
  · exact idle_or_parked_of_act_eq_none hlocked fun t => hhalted t true

/-! The condition can be checked when there are finitely many threads, WaitSets and conditions. -/

instance {w : W} {c : C} {p : Phase W C} : Decidable (p.owns w c) :=
  decidable_of_iff (p = .clearing w c ∨ ∃ waiting triggered, p = .inserting w c waiting triggered) (by
    cases p <;> simp [owns])

instance [Fintype T] [Fintype W] [Fintype C] {s : State T W C} {t : T} : Decidable (Meets s t) :=
  decidable_of_iff ((∀ w c waiting triggered, s.phase t = .planting w c waiting triggered → ∀ w', w' ≠ w →
      c ∉ s.conditions w' ∧ ∀ t', ¬ (s.phase t').owns w' c) ∧
    (∀ c, s.phase t = .calling c → ∀ t' w, s.phase t' ≠ .planting w c true false) ∧
    ∀ x ∈ (s.phase t).relies, s.generation x.1 < x.2 + 2 ^ 64)
    ⟨fun h => ⟨h.1, h.2.1, fun w n hn => h.2.2 (w, n) hn⟩,
      fun h => ⟨h.single, h.quiet, fun x hx => h.unwrapped x.1 x.2 hx⟩⟩

instance [Fintype T] [Fintype W] [Fintype C] (s : State T W C) : ∀ input, Decidable (InputMeets s input)
  | .act t _ => inferInstanceAs (Decidable (Meets s t))
  | .call _ _ | .returns _ _ => isTrue trivial

instance {s : State T W C} {t : T} : Decidable (Halted s t) := inferInstanceAs (Decidable (∀ _, _ = none))

def runs (t : T) (operation : Operation W C) (n : Nat) : List (Input T W C) :=
  .call t operation :: List.replicate n (.act t false)

/-- A thread woken by a trigger looks after it has been taken back, and parks once more. -/
def parksAgain : List (Input Bool Unit Unit) :=
  runs true (.attachCondition () ()) 3 ++ runs false (.wait () false) 4 ++ runs true (.setTriggerValue () true) 4 ++
    runs true (.setTriggerValue () false) 1 ++ List.replicate 3 (.act false false)

theorem trigger_not_lost_parksAgain :
    ∃ s : State Bool Unit Unit, run step new parksAgain = some s ∧ s.phase false = .parked () false 1 ∧
      () ∈ s.conditions () ∧ s.triggerValue () = false := by
  have hok : AllSteps step InputMeets (new : State Bool Unit Unit) parksAgain := by decide +kernel
  obtain ⟨s, hrun, hparked, hhalted, hattached⟩ := @exists_run _ _ step parksAgain new
    (fun s => s.phase false = .parked () false 1 ∧ (∀ t, t ≠ false → Halted s t) ∧ () ∈ s.conditions ()) _
    (by decide +kernel)
  exact ⟨s, hrun, hparked, hattached, trigger_not_lost parksAgain s hok hrun false () false 1 hparked hhalted
    () hattached⟩

theorem locks_counts_no_deadlock_parksAgain : ∃ s : State Bool Unit Unit, run step new parksAgain = some s ∧
    Counted s ∧ ∀ t, s.phase t = .idle ∨ ∃ w timed n, s.phase t = .parked w timed n := by
  obtain ⟨s, hrun, hhalted⟩ := @exists_run _ _ step parksAgain new (fun s => ∀ t, Halted s t) _ (by decide +kernel)
  obtain ⟨-, -, hcounted, hrest⟩ := locks_counts_no_deadlock parksAgain s hrun
  exact ⟨s, hrun, hcounted, hrest hhalted⟩

/-- A condition is attached to two WaitSets, and a thread waits at the first. -/
def sharedCondition : List (Input Bool Bool Unit) :=
  runs true (.attachCondition false ()) 3 ++ runs true (.attachCondition true ()) 3 ++
    runs false (.wait false false) 4 ++
    runs true (.setTriggerValue () true) 4

/-- **The callback of another WaitSet.** A condition attached to a second WaitSet no longer tells the threads at the
first. -/
theorem trigger_lost_shared :
    ∃ s : State Bool Bool Unit, run step new sharedCondition = some s ∧ s.phase false = .parked false false 0 ∧
      (∀ t, t ≠ false → Halted s t) ∧ () ∈ s.conditions false ∧ s.triggerValue () = true :=
  exists_run (by decide +kernel)

/-- A thread attaches a condition while another triggers it and a third is parked. -/
def triggeredMeanwhile : List (Input (Fin 3) Unit Unit) :=
  runs 0 (.wait () false) 4 ++ runs 1 (.attachCondition () ()) 1 ++ runs 2 (.setTriggerValue () true) 2 ++
    List.replicate 2 (.act 1 false)

/-- **Triggered between the test and the callback.** The test comes too early and the callback too late. -/
theorem trigger_lost_meanwhile :
    ∃ s : State (Fin 3) Unit Unit, run step new triggeredMeanwhile = some s ∧ s.phase 0 = .parked () false 0 ∧
      (∀ t, t ≠ 0 → Halted s t) ∧ () ∈ s.conditions () ∧ s.triggerValue () = true :=
  exists_run (by decide +kernel)

end State

end Int2Dds.Infrastructure
