import Mathlib.Data.List.Basic

/-!
# Runs of a partial transition function

`run step s ms` feeds the inputs `ms` to `step` one after another; `none` when a step does not complete.

* `run_append` : a run splits at every point, so a fact about the last state of every run is a fact about
  every state passed;
* `run_invariant` : what every completed step keeps, every run keeps;
* `AllSteps ok s ms` : every step of the run meets `ok` in the state it is taken in
  (`AllSteps.of_append`, `AllSteps.rest`, `run_invariant_of_allSteps`),
  and can be checked when `ok` can;
* `forall_states_iff_allSteps` : `ok` is what makes a step lead to a good state, so it is what makes a run stay good.
-/

namespace Int2Dds.Lib

variable {σ ι : Type*} {step : σ → ι → Option σ}

/-- The state after the inputs `ms`, when every step completes. -/
def run (step : σ → ι → Option σ) (s : σ) : List ι → Option σ
  | [] => some s
  | m :: ms => (step s m).bind (fun s' => run step s' ms)

variable {m : ι} {ms ns : List ι} {s t : σ} {ok : σ → ι → Prop}

/-- A run on given inputs can be evaluated. -/
theorem exists_run {P : σ → Prop} [DecidablePred P] (h : (run step s ms).any (fun t => decide (P t)) = true) :
    ∃ t, run step s ms = some t ∧ P t := by
  obtain ⟨t, ht, hP⟩ := (Option.any_eq_true _ _).1 h
  exact ⟨t, ht, of_decide_eq_true hP⟩

theorem run_cons : run step s (m :: ms) = some t ↔ ∃ s', step s m = some s' ∧ run step s' ms = some t := by
  simp [run, Option.bind_eq_some_iff]

theorem run_append : run step s (ms ++ ns) = some t ↔ ∃ u, run step s ms = some u ∧ run step u ns = some t := by
  induction ms generalizing s with
  | nil => simp [run]
  | cons m ms ih =>
    rw [List.cons_append, run_cons]
    constructor
    · rintro ⟨s', hs, hr⟩
      obtain ⟨u, hu, ht⟩ := ih.1 hr
      exact ⟨u, run_cons.2 ⟨s', hs, hu⟩, ht⟩
    · rintro ⟨u, hu, ht⟩
      obtain ⟨s', hs, hu⟩ := run_cons.1 hu
      exact ⟨s', hs, ih.2 ⟨u, hu, ht⟩⟩

/-- Every step of the run on `ms` meets `ok` in the state it is taken in. -/
def AllSteps (step : σ → ι → Option σ) (ok : σ → ι → Prop) (s : σ) : List ι → Prop
  | [] => True
  | m :: ms => ok s m ∧ ∀ s', step s m = some s' → AllSteps step ok s' ms

theorem allSteps_cons_none (hs : step s m = none) : AllSteps step ok s (m :: ms) ↔ ok s m := by
  simp [AllSteps, hs]

theorem allSteps_cons_some {s' : σ} (hs : step s m = some s') :
    AllSteps step ok s (m :: ms) ↔ ok s m ∧ AllSteps step ok s' ms := by
  simp [AllSteps, hs]

/-- A condition that can be checked on each step can be checked on a run. -/
instance AllSteps.decidable {ok : σ → ι → Prop} [∀ s m, Decidable (ok s m)] :
    ∀ (s : σ) (ms : List ι), Decidable (AllSteps step ok s ms)
  | _, [] => isTrue trivial
  | s, m :: ms =>
    match hs : step s m with
    | none => decidable_of_iff _ (allSteps_cons_none hs).symm
    | some s' =>
      have : Decidable (AllSteps step ok s' ms) := AllSteps.decidable s' ms
      decidable_of_iff _ (allSteps_cons_some hs).symm

theorem AllSteps.of_append (h : AllSteps step ok s (ms ++ ns)) : AllSteps step ok s ms := by
  induction ms generalizing s with
  | nil => trivial
  | cons m ms ih => exact ⟨h.1, fun s' hs => ih (h.2 s' hs)⟩

theorem AllSteps.and {ok' : σ → ι → Prop} (h : AllSteps step ok s ms) (h' : AllSteps step ok' s ms) :
    AllSteps step (fun s m => ok s m ∧ ok' s m) s ms := by
  induction ms generalizing s with
  | nil => trivial
  | cons m ms ih => exact ⟨⟨h.1, h'.1⟩, fun s' hs => ih (h.2 s' hs) (h'.2 s' hs)⟩

theorem AllSteps.rest {u : σ} (h : AllSteps step ok s (ms ++ ns)) (hr : run step s ms = some u) :
    AllSteps step ok u ns := by
  induction ms generalizing s with
  | nil =>
    cases hr
    exact h
  | cons m ms ih =>
    obtain ⟨s', hs', hr⟩ := run_cons.1 hr
    exact ih (h.2 s' hs') hr

/-- An invariant of the steps that meet `ok` holds at the end of every run of such steps. -/
theorem run_invariant_of_allSteps {I : σ → Prop} (hstep : ∀ s m s', I s → ok s m → step s m = some s' → I s')
    (hs : I s) (hok : AllSteps step ok s ms) (h : run step s ms = some t) : I t := by
  induction ms generalizing s with
  | nil =>
    cases h
    exact hs
  | cons m ms ih =>
    obtain ⟨s', hs', hr⟩ := run_cons.1 h
    exact ih (hstep s m s' hs hok.1 hs') (hok.2 s' hs') hr

theorem run_invariant {I : σ → Prop} (hstep : ∀ s m s', I s → step s m = some s' → I s') (hs : I s)
    (h : run step s ms = some t) : I t := by
  have hall : AllSteps step (fun _ _ => True) s ms := by
    clear h hs
    induction ms generalizing s with
    | nil => trivial
    | cons m ms ih => exact ⟨trivial, fun s' _ => ih⟩
  exact run_invariant_of_allSteps (fun s m s' hi _ hs' => hstep s m s' hi hs') hs hall h

/-- All states of a run are good exactly if all its steps meet `ok`, where that is so of one step. -/
theorem forall_states_iff_allSteps {I P : σ → Prop} (hinv : ∀ s m s', I s → step s m = some s' → I s')
    (hstep : ∀ s m s', I s → P s → step s m = some s' → (P s' ↔ ok s m)) (hs : I s) (hgood : P s)
    (h : run step s ms = some t) :
    (∀ ns u, ns <+: ms → run step s ns = some u → P u) ↔ AllSteps step ok s ms := by
  induction ms generalizing s with
  | nil =>
    refine ⟨fun _ => trivial, fun _ ns u hns hu => ?_⟩
    rw [List.prefix_nil.1 hns] at hu
    cases hu
    exact hgood
  | cons m ms ih =>
    obtain ⟨s', hs', hr⟩ := run_cons.1 h
    have hnext := hstep s m s' hs hgood hs'
    constructor
    · intro hall
      have hgood' : P s' := hall [m] s' ⟨ms, rfl⟩ (run_cons.2 ⟨s', hs', rfl⟩)
      refine (allSteps_cons_some hs').2 ⟨hnext.1 hgood', (ih (hinv s m s' hs hs') hgood' hr).1 fun ns u hns hu => ?_⟩
      exact hall (m :: ns) u (List.prefix_cons_inj m |>.2 hns) (run_cons.2 ⟨s', hs', hu⟩)
    · intro hall ns u hns hu
      cases ns with
      | nil =>
        cases hu
        exact hgood
      | cons n ns =>
        obtain ⟨rfl, hrest⟩ := List.cons_prefix_cons.1 hns
        obtain ⟨s'', hs'', hu⟩ := run_cons.1 hu
        cases hs'.symm.trans hs''
        exact (ih (hinv s n s' hs hs') (hnext.2 hall.1) hr).2 (hall.2 s' hs') ns u hrest hu

end Int2Dds.Lib
