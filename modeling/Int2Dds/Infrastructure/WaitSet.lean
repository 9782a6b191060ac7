import Int2Dds.Lib.Run
import Mathlib.Algebra.Order.Ring.Nat
import Mathlib.Data.Finset.Card
import Mathlib.Logic.Function.Basic

/-!
# WaitSets and GuardConditions

Threads wait at WaitSets until an attached condition is triggered. A condition wakes a WaitSet through a callback, of
which it has one: attaching plants it and detaching takes it away. Every operation is a sequence of steps, each of which
holds at most one more lock than the step before it; the steps of the threads interleave.

* `State.act` : the next step of a thread, if no lock is in its way.
* `State.step` : an input, of which the step of a thread is one.

`locks_counts_no_deadlock` and `trigger_not_lost` are about the runs of `State.step`.
-/

namespace Int2Dds.Infrastructure
open Lib

/-- What a thread does next. `timed` : the wait has a deadline; `snapshot` : the generation it has seen. -/
inductive Phase (W C : Type*)
  | idle
  /-- `wait` : counts itself among the waiting threads. -/
  | entering (w : W) (timed : Bool)
  /-- Reads the generation. -/
  | snapshotting (w : W) (timed : Bool)
  /-- Looks at the conditions, for the first time or `again`. -/
  | scanning (w : W) (timed : Bool) (snapshot : Nat) (again : Bool)
  /-- Compares the generation with its snapshot, and parks if it is the same. -/
  | comparing (w : W) (timed : Bool) (snapshot : Nat)
  /-- Inside the condition variable. -/
  | parked (w : W) (timed : Bool) (snapshot : Nat)
  /-- Comes back from the condition variable. -/
  | woken (w : W) (timed : Bool) (snapshot : Nat) (timedOut : Bool)
  /-- Returns: no longer counts as waiting. -/
  | leaving (w : W)
  /-- `attach_condition` : locks the conditions and tests the new one. -/
  | attaching (w : W) (c : C)
  /-- Plants the callback. `waiting` and `triggered` are what the test has found. -/
  | planting (w : W) (c : C) (waiting triggered : Bool)
  | inserting (w : W) (c : C) (waiting triggered : Bool)
  /-- `detach_condition` : locks the conditions and removes this one. -/
  | detaching (w : W) (c : C)
  /-- Takes the callback away. -/
  | clearing (w : W) (c : C)
  /-- `set_trigger_value` -/
  | storing (c : C) (value : Bool)
  /-- Locks the callback of the condition. -/
  | calling (c : C)
  /-- The callback counts one more notification. `slot` is the condition whose callback is locked meanwhile. -/
  | notifying (w : W) (slot : Option C)
  /-- Wakes the parked threads, if there were any. -/
  | waking (w : W) (shouldWake : Bool) (slot : Option C)
deriving DecidableEq

/-- A thread that is parked at `w` leaves the condition variable, if the others are woken. -/
def Phase.wake {W C : Type*} [DecidableEq W] (w : W) (shouldWake : Bool) : Phase W C → Phase W C
  | parked w' timed snapshot =>
    if shouldWake = true ∧ w' = w then woken w' timed snapshot false else parked w' timed snapshot
  | phase => phase

inductive Operation (W C : Type*)
  | wait (w : W) (timed : Bool)
  | attachCondition (w : W) (c : C)
  | detachCondition (w : W) (c : C)
  | setTriggerValue (c : C) (value : Bool)

def Operation.start {W C : Type*} : Operation W C → Phase W C
  | wait w timed => .entering w timed
  | attachCondition w c => .attaching w c
  | detachCondition w c => .detaching w c
  | setTriggerValue c value => .storing c value

/-- WaitSets `W`, conditions `C` and threads `T`. Locks are held over several steps, except that of the generation. -/
structure State (T W C : Type*) where
  phase : T → Phase W C
  conditions : W → Finset C
  conditionsLock : W → Option T
  waitingCount : W → Nat
  /-- The number of notifications. The source keeps it in 64 bits, which is how it is compared. -/
  generation : W → Nat
  parkedCount : W → Nat
  triggerValue : C → Bool
  waitsetCallback : C → Option W
  callbackLock : C → Option T

def sameGeneration (a b : Nat) : Bool := a % 2 ^ 64 == b % 2 ^ 64

namespace State

variable {T W C : Type*} [DecidableEq T] [DecidableEq W] [DecidableEq C]

def new : State T W C where
  phase := fun _ => .idle
  conditions := fun _ => ∅
  conditionsLock := fun _ => none
  waitingCount := fun _ => 0
  generation := fun _ => 0
  parkedCount := fun _ => 0
  triggerValue := fun _ => false
  waitsetCallback := fun _ => none
  callbackLock := fun _ => none

def goto (s : State T W C) (t : T) (phase : Phase W C) : State T W C :=
  { s with phase := Function.update s.phase t phase }

def anyTriggered (s : State T W C) (w : W) : Bool := decide (∃ c ∈ s.conditions w, s.triggerValue c = true)

/-- The next step of a thread, when it can take one. `expired` : its deadline has passed. -/
def act (s : State T W C) (t : T) (expired : Bool) : Option (State T W C) :=
  match s.phase t with
  | .idle | .parked _ _ _ => none
  | .entering w timed =>
    some ({ s with waitingCount := Function.update s.waitingCount w (s.waitingCount w + 1) }.goto t
      (.snapshotting w timed))
  | .snapshotting w timed => some (s.goto t (.scanning w timed (s.generation w) false))
  | .scanning w timed snapshot again =>
    if s.conditionsLock w ≠ none then none
    else if s.anyTriggered w || again && timed && expired then some (s.goto t (.leaving w))
    else some (s.goto t (.comparing w timed snapshot))
  | .comparing w timed snapshot =>
    if sameGeneration (s.generation w) snapshot then
      if timed && expired then some (s.goto t (.leaving w))
      else
        some ({ s with parkedCount := Function.update s.parkedCount w (s.parkedCount w + 1) }.goto t
          (.parked w timed snapshot))
    else some (s.goto t (.scanning w timed (s.generation w) true))
  | .woken w timed snapshot timedOut =>
    let s := { s with parkedCount := Function.update s.parkedCount w (s.parkedCount w - 1) }
    if sameGeneration (s.generation w) snapshot then
      some (s.goto t (if timedOut then .leaving w else .comparing w timed snapshot))
    else some (s.goto t (.scanning w timed (s.generation w) true))
  | .leaving w =>
    some ({ s with waitingCount := Function.update s.waitingCount w (s.waitingCount w - 1) }.goto t .idle)
  | .attaching w c =>
    if s.conditionsLock w ≠ none then none
    else if c ∈ s.conditions w then some (s.goto t .idle)
    else
      some ({ s with conditionsLock := Function.update s.conditionsLock w (some t) }.goto t
        (.planting w c (decide (0 < s.waitingCount w)) (s.triggerValue c)))
  | .planting w c waiting triggered =>
    if s.callbackLock c ≠ none then none
    else
      some ({ s with waitsetCallback := Function.update s.waitsetCallback c (some w) }.goto t
        (.inserting w c waiting triggered))
  | .inserting w c waiting triggered =>
    some ({ s with
      conditions := Function.update s.conditions w (insert c (s.conditions w))
      conditionsLock := Function.update s.conditionsLock w none }.goto t
        (if waiting && triggered then .notifying w none else .idle))
  | .detaching w c =>
    if s.conditionsLock w ≠ none then none
    else if c ∈ s.conditions w then
      some ({ s with
        conditions := Function.update s.conditions w ((s.conditions w).erase c)
        conditionsLock := Function.update s.conditionsLock w (some t) }.goto t (.clearing w c))
    else some (s.goto t .idle)
  | .clearing w c =>
    if s.callbackLock c ≠ none then none
    else
      some ({ s with
        waitsetCallback := Function.update s.waitsetCallback c none
        conditionsLock := Function.update s.conditionsLock w none }.goto t .idle)
  | .storing c value =>
    some ({ s with triggerValue := Function.update s.triggerValue c value }.goto t
      (if value then .calling c else .idle))
  | .calling c =>
    if s.callbackLock c ≠ none then none
    else
      match s.waitsetCallback c with
      | none => some (s.goto t .idle)
      | some w =>
        some ({ s with callbackLock := Function.update s.callbackLock c (some t) }.goto t (.notifying w (some c)))
  | .notifying w slot =>
    some ({ s with generation := Function.update s.generation w (s.generation w + 1) }.goto t
      (.waking w (decide (0 < s.parkedCount w)) slot))
  | .waking w shouldWake slot =>
    -- the callback has run: its slot is unlocked
    some ({ s with
      phase := fun u => (s.phase u).wake w shouldWake
      callbackLock := fun c => if slot = some c then none else s.callbackLock c }.goto t .idle)

end State

/-- A thread begins an operation, takes a step, or leaves the condition variable unwoken: because its deadline has
passed (`timedOut`) or for no reason. -/
inductive Input (T W C : Type*)
  | call (t : T) (operation : Operation W C)
  | act (t : T) (expired : Bool)
  | returns (t : T) (timedOut : Bool)

def State.step {T W C : Type*} [DecidableEq T] [DecidableEq W] [DecidableEq C] (s : State T W C) :
    Input T W C → Option (State T W C)
  | .call t operation => match s.phase t with
    | .idle => some (s.goto t operation.start)
    | _ => none
  | .act t expired => s.act t expired
  | .returns t timedOut => match s.phase t with
    | .parked w timed snapshot =>
      if timedOut && !timed then none else some (s.goto t (.woken w timed snapshot timedOut))
    | _ => none

end Int2Dds.Infrastructure
