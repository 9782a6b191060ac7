import Int2Dds.Lib.OrdList
import Int2Dds.Lib.Run
import Int2Dds.Rtps.Common
import Mathlib.Data.Prod.Lex
import Mathlib.Data.List.Lex

/-!
# The timer task

A participant has one timer task. Its timers are found by their `TimerId`: an add whose id is taken is skipped, and
this is the only thing that keeps two callbacks with one id apart. A second index, ordered by the time of expiry, says
which timer is next.

* `Indexed` : the index has the timers that are not paused, each under its time, whatever messages come.
* `turn_calls_first_due` : what a turn of `process_expired_timers` therefore calls.

Times are nanoseconds.
-/

namespace Int2Dds.Utils
open Lib Rtps Function

/-! ## Identifiers -/

inductive TimerId where
  | periodicHeartbeat (entityId : BitVec 32)
  | periodicHeartbeatDelay (entityId : BitVec 32)
  | nackResponse (writerEntityId : BitVec 32) (remoteReaderGuid : Guid)
  | nackFragResponse (writerEntityId : BitVec 32) (remoteReaderGuid : Guid)
  | acknack (readerEntityId : BitVec 32) (remoteWriterGuid : Guid)
  | nackFrag (readerEntityId : BitVec 32) (remoteWriterGuid : Guid)
  | preemptiveHeartbeat (entityId : BitVec 32) (remoteReaderGuid : Guid)
  | preemptiveAcknack (entityId : BitVec 32) (remoteWriterGuid : Guid)
  | lifespanWriter (writerGuid : Guid)
  | lifespanReader (writerGuid : Guid)
  | autopurgeDisposed (readerGuid : Guid)
  | autopurgeNowriter (readerGuid : Guid)
  | spdpMulticast (domainId : BitVec 32)
  | wlpP2p (guidPrefix : BitVec 96)
  | sedpScheduledMessage (remotePrefix : BitVec 96) (writerEntityId : BitVec 32)
  | threadMonitoring
  | timeBasedFilter (readerEntityId : BitVec 32) (instanceHandle : InstanceHandle)
  | deferredTypeMatch (remoteGuid : Guid)

namespace TimerId

def rank : TimerId → List ℕ
  | periodicHeartbeat e => [0, e.toNat]
  | periodicHeartbeatDelay e => [1, e.toNat]
  | nackResponse e g => [2, e.toNat, g.guidPrefix.toNat, g.entityId.toNat]
  | nackFragResponse e g => [3, e.toNat, g.guidPrefix.toNat, g.entityId.toNat]
  | acknack e g => [4, e.toNat, g.guidPrefix.toNat, g.entityId.toNat]
  | nackFrag e g => [5, e.toNat, g.guidPrefix.toNat, g.entityId.toNat]
  | preemptiveHeartbeat e g => [6, e.toNat, g.guidPrefix.toNat, g.entityId.toNat]
  | preemptiveAcknack e g => [7, e.toNat, g.guidPrefix.toNat, g.entityId.toNat]
  | lifespanWriter g => [8, g.guidPrefix.toNat, g.entityId.toNat]
  | lifespanReader g => [9, g.guidPrefix.toNat, g.entityId.toNat]
  | autopurgeDisposed g => [10, g.guidPrefix.toNat, g.entityId.toNat]
  | autopurgeNowriter g => [11, g.guidPrefix.toNat, g.entityId.toNat]
  | spdpMulticast d => [12, d.toNat]
  | wlpP2p p => [13, p.toNat]
  | sedpScheduledMessage p e => [14, p.toNat, e.toNat]
  | threadMonitoring => [15]
  | timeBasedFilter e h => [16, e.toNat, h.value.toNat, h.isDefined.toNat]
  | deferredTypeMatch g => [17, g.guidPrefix.toNat, g.entityId.toNat]

theorem guid_eq_iff (g g' : Guid) : g = g' ↔ g.guidPrefix = g'.guidPrefix ∧ g.entityId = g'.entityId := by
  obtain ⟨p, e⟩ := g
  obtain ⟨p', e'⟩ := g'
  simp

theorem handle_eq_iff (h h' : InstanceHandle) :
    h = h' ↔ h.value = h'.value ∧ h.isDefined.toNat = h'.isDefined.toNat := by
  obtain ⟨v, d⟩ := h
  obtain ⟨v', d'⟩ := h'
  cases d <;> cases d' <;> simp

theorem rank_injective : Injective rank := by
  intro a b h
  cases a <;> cases b <;> simp_all [rank, BitVec.toNat_inj, guid_eq_iff, handle_eq_iff]

instance : LinearOrder TimerId := LinearOrder.lift' rank rank_injective

/-- The timers that go when an endpoint is deleted. -/
def belongsToEntity (id : TimerId) (entityId : BitVec 32) : Bool :=
  match id with
  | periodicHeartbeat e | periodicHeartbeatDelay e | nackResponse e _ | nackFragResponse e _ | acknack e _
  | nackFrag e _ | preemptiveHeartbeat e _ | preemptiveAcknack e _ => e == entityId
  | _ => false

end TimerId

/-! ## Timers -/

structure Timer (C : Type*) where
  duration : ℕ
  nextTrigger : ℕ
  startTime : ℕ
  executionCount : ℕ
  repeating : Bool
  paused : Bool
  callback : C
deriving DecidableEq

namespace Timer

variable {C : Type*}

def new (duration : ℕ) (repeating : Bool) (callback : C) (now : ℕ) : Timer C where
  duration := duration
  nextTrigger := now + duration
  startTime := now
  executionCount := 0
  repeating := repeating
  paused := false
  callback := callback

/-- After the callback. A timer that is behind its schedule is due at once. The product is exact, where the source
rounds to nanoseconds in `Duration::mul_f64`. -/
def trigger (timer : Timer C) (now : ℕ) : Timer C :=
  let executionCount := timer.executionCount + 1
  let next := timer.startTime + timer.duration * (executionCount + 1)
  { timer with
    executionCount
    nextTrigger :=
      if timer.repeating then if next ≤ now then now + 1 else next
      else timer.nextTrigger }

def pause (timer : Timer C) : Timer C := { timer with paused := true }

def restart (timer : Timer C) (now : ℕ) : Timer C :=
  { timer with startTime := now, executionCount := 0, nextTrigger := now + timer.duration }

def resume (timer : Timer C) (now : ℕ) : Timer C :=
  if timer.paused then { timer with paused := false }.restart now else timer

def modifyDuration (timer : Timer C) (duration now : ℕ) : Timer C :=
  if timer.paused then { timer with duration } else { timer with duration }.restart now

@[simp] theorem callback_modifyDuration (timer : Timer C) (duration now : ℕ) :
    (timer.modifyDuration duration now).callback = timer.callback := by
  unfold modifyDuration
  split_ifs <;> rfl

@[simp] theorem repeating_modifyDuration (timer : Timer C) (duration now : ℕ) :
    (timer.modifyDuration duration now).repeating = timer.repeating := by
  unfold modifyDuration
  split_ifs <;> rfl

end Timer

/-! ## The task -/

/-- The timers by their ids, and the index of those that are not paused. -/
structure TimerTask (K C : Type*) [LinearOrder K] where
  timers : K → Option (Timer C)
  timersSortedByExpiry : OrdList (fun entry : ℕ × K => toLex entry)

inductive TimerMessage (K C : Type*) where
  | addTimer (id : K) (duration : ℕ) (repeating : Bool) (callback : C)
  | removeTimer (id : K)
  /-- The timers whose id belongs to an entity. -/
  | removeTimersByEntity (belongs : K → Bool)
  | pauseTimer (id : K)
  | resumeTimer (id : K)
  | modifyTimer (id : K) (duration : ℕ)

namespace TimerTask

variable {K C : Type*} [LinearOrder K]

def new : TimerTask K C := ⟨fun _ => none, OrdList.empty⟩

/-- An id that is taken stays with the timer that has it. -/
def addTimer (task : TimerTask K C) (id : K) (duration : ℕ) (repeating : Bool) (callback : C) (now : ℕ) :
    TimerTask K C :=
  if (task.timers id).isSome then task
  else
    let timer := Timer.new duration repeating callback now
    { timers := Function.update task.timers id (some timer)
      timersSortedByExpiry := task.timersSortedByExpiry.insertNew (timer.nextTrigger, id) }

def removeTimer (task : TimerTask K C) (id : K) : TimerTask K C :=
  match task.timers id with
  | none => task
  | some timer =>
    { timers := Function.update task.timers id none
      timersSortedByExpiry := task.timersSortedByExpiry.filter (fun entry => decide (entry ≠ (timer.nextTrigger, id))) }

def removeTimersByEntity (task : TimerTask K C) (belongs : K → Bool) : TimerTask K C where
  timers := fun id => if belongs id then none else task.timers id
  timersSortedByExpiry := task.timersSortedByExpiry.filter fun entry =>
    !(belongs entry.2 && (task.timers entry.2).any (fun timer => decide (timer.nextTrigger = entry.1)))

def pauseTimer (task : TimerTask K C) (id : K) : TimerTask K C :=
  match task.timers id with
  | none => task
  | some timer =>
    { timers := Function.update task.timers id (some timer.pause)
      timersSortedByExpiry := task.timersSortedByExpiry.filter (fun entry => decide (entry ≠ (timer.nextTrigger, id))) }

def resumeTimer (task : TimerTask K C) (id : K) (now : ℕ) : TimerTask K C :=
  match task.timers id with
  | none => task
  | some timer =>
    { timers := Function.update task.timers id (some (timer.resume now))
      timersSortedByExpiry :=
        if timer.paused then task.timersSortedByExpiry.insertNew ((timer.resume now).nextTrigger, id)
        else task.timersSortedByExpiry }

def modifyTimer (task : TimerTask K C) (id : K) (duration now : ℕ) : TimerTask K C :=
  match task.timers id with
  | none => task
  | some timer =>
    let rest := task.timersSortedByExpiry.filter (fun entry => decide (entry ≠ (timer.nextTrigger, id)))
    let modified := timer.modifyDuration duration now
    { timers := Function.update task.timers id (some modified)
      timersSortedByExpiry := if modified.paused then rest else rest.insertNew (modified.nextTrigger, id) }

def process (task : TimerTask K C) (now : ℕ) : TimerMessage K C → TimerTask K C
  | .addTimer id duration repeating callback => task.addTimer id duration repeating callback now
  | .removeTimer id => task.removeTimer id
  | .removeTimersByEntity belongs => task.removeTimersByEntity belongs
  | .pauseTimer id => task.pauseTimer id
  | .resumeTimer id => task.resumeTimer id now
  | .modifyTimer id duration => task.modifyTimer id duration now

/-- One turn of the loop of `process_expired_timers`: the first timer of the index is called if it is due at `now`.
`clock` is the time after its callback. -/
def expireNext (task : TimerTask K C) (now clock : ℕ) : Option C × TimerTask K C :=
  match task.timersSortedByExpiry.first? with
  | none => (none, task)
  | some (expiry, id) =>
    if now < expiry then (none, task)
    else
      let rest := task.timersSortedByExpiry.filter (fun entry => decide (entry ≠ (expiry, id)))
      match task.timers id with
      | none => (none, { task with timersSortedByExpiry := rest })
      | some timer =>
        let triggered := timer.trigger clock
        if triggered.repeating then
          (some timer.callback,
            { timers := Function.update task.timers id (some triggered)
              timersSortedByExpiry := rest.insertNew (triggered.nextTrigger, id) })
        else
          (some timer.callback, { timers := Function.update task.timers id none, timersSortedByExpiry := rest })

/-! ## What the operations do to the timers -/

variable (task : TimerTask K C) (id : K)

theorem timers_addTimer (duration : ℕ) (repeating : Bool) (callback : C) (now : ℕ) (k : K) :
    (task.addTimer id duration repeating callback now).timers k =
      if k = id ∧ task.timers id = none then some (Timer.new duration repeating callback now) else task.timers k := by
  unfold addTimer
  cases hid : task.timers id with
  | none => simp [update_apply]
  | some timer => simp

theorem timers_removeTimer (k : K) : (task.removeTimer id).timers k = if k = id then none else task.timers k := by
  unfold removeTimer
  cases hid : task.timers id with
  | none =>
    by_cases hk : k = id
    · simp [hk, hid]
    · simp [hk]
  | some timer => simp [update_apply]

theorem timers_modifyTimer (duration now : ℕ) (k : K) :
    (task.modifyTimer id duration now).timers k =
      if k = id then (task.timers id).map (fun timer => timer.modifyDuration duration now) else task.timers k := by
  unfold modifyTimer
  cases hid : task.timers id with
  | none =>
    by_cases hk : k = id
    · simp [hk, hid]
    · simp [hk]
  | some timer => simp [update_apply]

inductive Expires (task : TimerTask K C) : Option C × TimerTask K C → Prop
  | idle {task' : TimerTask K C} (same : task'.timers = task.timers) : Expires task (none, task')
  /-- A one-shot timer is called and goes. -/
  | once {id : K} {timer : Timer C} {task' : TimerTask K C} (found : task.timers id = some timer)
      (oneShot : timer.repeating = false) (gone : task'.timers id = none)
      (others : ∀ k, k ≠ id → task'.timers k = task.timers k) : Expires task (some timer.callback, task')
  /-- A repeating timer is called and stays. -/
  | again {id : K} {timer timer' : Timer C} {task' : TimerTask K C} (found : task.timers id = some timer)
      (repeats : timer.repeating = true) (same : timer'.callback = timer.callback)
      (repeats' : timer'.repeating = true) (stays : task'.timers id = some timer')
      (others : ∀ k, k ≠ id → task'.timers k = task.timers k) : Expires task (some timer.callback, task')

theorem expires_expireNext (now clock : ℕ) : Expires task (task.expireNext now clock) := by
  unfold expireNext
  split
  · exact .idle rfl
  · next expiry id _ =>
    split_ifs with hdue
    · exact .idle rfl
    cases hid : task.timers id with
    | none => exact .idle rfl
    | some timer =>
      have hrepeating : (timer.trigger clock).repeating = timer.repeating := rfl
      have hcallback : (timer.trigger clock).callback = timer.callback := rfl
      dsimp only
      split_ifs with hrepeat
      · apply Expires.again hid (hrepeating ▸ hrepeat) hcallback hrepeat
        · exact update_self ..
        · intro k hk
          exact update_of_ne hk ..
      · apply Expires.once hid (by simpa [hrepeating] using hrepeat)
        · exact update_self ..
        · intro k hk
          exact update_of_ne hk ..

/-! ## The index -/

/-- The index has exactly the timers that are not paused, each under its time. -/
def Indexed (task : TimerTask K C) : Prop :=
  ∀ expiry id, (expiry, id) ∈ task.timersSortedByExpiry ↔
    ∃ timer, task.timers id = some timer ∧ timer.paused = false ∧ timer.nextTrigger = expiry

@[simp] theorem mem_insertNew_index {l : OrdList (fun entry : ℕ × K => toLex entry)} {a c : ℕ × K} :
    c ∈ l.insertNew a ↔ c ∈ l ∨ c = a := OrdList.mem_insertNew_of_injective toLex.injective

section

variable {task : TimerTask K C} (h : Indexed task) {id : K}
include h

/-- Nothing but the timer `id` and its entry changes. -/
theorem indexed_update {timer? : Option (Timer C)} {index : OrdList (fun entry : ℕ × K => toLex entry)}
    (hindex : ∀ expiry k, (expiry, k) ∈ index ↔ (expiry, k) ∈ task.timersSortedByExpiry ∧ k ≠ id ∨
      k = id ∧ ∃ timer, timer? = some timer ∧ timer.paused = false ∧ timer.nextTrigger = expiry) :
    Indexed ⟨update task.timers id timer?, index⟩ := by
  intro expiry k
  rw [hindex, h expiry k]
  by_cases hk : k = id
  · simp [hk]
  · simp [hk]

theorem mem_rest {timer : Timer C} (hid : task.timers id = some timer) (expiry : ℕ) (k : K) :
    (expiry, k) ∈ task.timersSortedByExpiry.filter (fun entry => decide (entry ≠ (timer.nextTrigger, id))) ↔
      (expiry, k) ∈ task.timersSortedByExpiry ∧ k ≠ id := by
  have hentry := h expiry k
  grind [OrdList.mem_filter]

/-- A message about a timer that is not there does nothing. -/
theorem indexed_match {timer? : Timer C → Option (Timer C)}
    {index : Timer C → OrdList (fun entry : ℕ × K => toLex entry)}
    (hindex : ∀ timer, task.timers id = some timer → ∀ expiry k,
      (expiry, k) ∈ index timer ↔ (expiry, k) ∈ task.timersSortedByExpiry ∧ k ≠ id ∨
        k = id ∧ ∃ t, timer? timer = some t ∧ t.paused = false ∧ t.nextTrigger = expiry) :
    Indexed (match task.timers id with
      | none => task
      | some timer => ⟨update task.timers id (timer? timer), index timer⟩) := by
  cases hid : task.timers id with
  | none => exact h
  | some timer => exact indexed_update h (hindex timer hid)

theorem indexed_process (now : ℕ) (m : TimerMessage K C) : Indexed (task.process now m) := by
  cases m with
  | addTimer id duration repeating callback =>
    change Indexed (task.addTimer id duration repeating callback now)
    unfold addTimer
    split_ifs with hid
    · exact h
    · refine indexed_update h fun expiry k => ?_
      have hentry := h expiry k
      grind [mem_insertNew_index, Timer.new]
  | removeTimer id =>
    refine indexed_match h fun timer hid expiry k => ?_
    rw [mem_rest h hid]
    simp
  | removeTimersByEntity belongs =>
    intro expiry id
    have hentry := h expiry id
    change (expiry, id) ∈ (task.removeTimersByEntity belongs).timersSortedByExpiry ↔ _
    grind [removeTimersByEntity, process, OrdList.mem_filter]
  | pauseTimer id =>
    refine indexed_match h fun timer hid expiry k => ?_
    rw [mem_rest h hid]
    simp [Timer.pause]
  | resumeTimer id =>
    -- a paused timer has no entry, so the new one is the only one
    refine indexed_match h fun timer hid expiry k => ?_
    have hentry := h expiry k
    grind [mem_insertNew_index, Timer.resume, Timer.restart]
  | modifyTimer id duration =>
    refine indexed_match h fun timer hid expiry k => ?_
    have hrest := mem_rest h hid expiry k
    grind [mem_insertNew_index]

theorem indexed_expireNext (now clock : ℕ) : Indexed (task.expireNext now clock).2 := by
  unfold expireNext
  split
  · exact h
  next expiry id hfirst =>
  obtain ⟨timer, hid, hpaused, rfl⟩ := (h expiry id).1 (OrdList.first?_mem hfirst)
  split_ifs with hdue
  · exact h
  simp only [hid]
  split_ifs with hrepeat
  · refine indexed_update h fun expiry k => ?_
    have hrest := mem_rest h hid expiry k
    have hkept : (timer.trigger clock).paused = timer.paused := rfl
    grind [mem_insertNew_index]
  · exact indexed_update h fun expiry k => by rw [mem_rest h hid]; simp

end

/-! ## Whole runs -/

/-- What the event loop does: it processes a message, or takes a turn over the expired timers. -/
inductive LoopStep (K C : Type*) where
  | message (now : ℕ) (message : TimerMessage K C)
  | turn (now clock : ℕ)

def step (task : TimerTask K C) : LoopStep K C → Option (TimerTask K C)
  | .message now message => some (task.process now message)
  | .turn now clock => some (task.expireNext now clock).2

theorem indexed_run {steps : List (LoopStep K C)} {task : TimerTask K C} (hrun : run step new steps = some task) :
    Indexed task := by
  refine run_invariant ?_ (fun expiry id => by simp [new]) hrun
  rintro s (⟨now, m⟩ | ⟨now, clock⟩) s' hs ⟨⟩
  · exact indexed_process hs now m
  · exact indexed_expireNext hs now clock

theorem lt_nextTrigger_trigger {timer : Timer C} {clock : ℕ} (h : timer.repeating = true) :
    clock < (timer.trigger clock).nextTrigger := by
  simp only [Timer.trigger, h, if_true]
  split_ifs <;> omega

/-- **Timers are called when they are due.** After any messages and turns, a turn calls the first timer that is not
paused and whose time has come, and none only if there is none. Its next time, if any, lies behind the callback: the
loop does not come to it again. -/
theorem turn_calls_first_due (steps : List (LoopStep K C)) (task : TimerTask K C)
    (hrun : run step new steps = some task) (now clock : ℕ) :
    match task.expireNext now clock with
    | (none, task') => task' = task ∧
      ∀ id timer, task.timers id = some timer → timer.paused = false → now < timer.nextTrigger
    | (some callback, task') => ∃ id timer, task.timers id = some timer ∧ timer.paused = false ∧
      timer.nextTrigger ≤ now ∧ timer.callback = callback ∧
      (∀ k other, task.timers k = some other → other.paused = false → timer.nextTrigger ≤ other.nextTrigger) ∧
      ∀ timer', task'.timers id = some timer' → clock < timer'.nextTrigger := by
  have h := indexed_run hrun
  have hmem {k : K} {other : Timer C} (hk : task.timers k = some other) (hactive : other.paused = false) :
      (other.nextTrigger, k) ∈ task.timersSortedByExpiry := (h _ k).2 ⟨other, hk, hactive, rfl⟩
  unfold expireNext
  cases hfirst : task.timersSortedByExpiry.first? with
  | none => exact ⟨rfl, fun id timer hid hactive => absurd (hmem hid hactive) (OrdList.first?_eq_none.1 hfirst _)⟩
  | some entry =>
    obtain ⟨expiry, id⟩ := entry
    obtain ⟨timer, hid, hactive, rfl⟩ := (h expiry id).1 (OrdList.first?_mem hfirst)
    have hleast (k : K) (other : Timer C) (hk : task.timers k = some other) (hactive : other.paused = false) :
        timer.nextTrigger ≤ other.nextTrigger := by
      have := Prod.Lex.toLex_le_toLex.1 (OrdList.first?_le hfirst (hmem hk hactive))
      omega
    dsimp only
    split_ifs with hdue
    · exact ⟨rfl, fun k other hk hactive => hdue.trans_le (hleast k other hk hactive)⟩
    simp only [hid]
    split_ifs with hrepeat
    · refine ⟨id, timer, hid, hactive, not_lt.1 hdue, rfl, hleast, fun timer' h' => ?_⟩
      simp only [update_self, Option.some.injEq] at h'
      exact h' ▸ lt_nextTrigger_trigger hrepeat
    · refine ⟨id, timer, hid, hactive, not_lt.1 hdue, rfl, hleast, fun timer' h' => ?_⟩
      simp at h'

/-- The heartbeats of one writer are paused and resumed, those of another end with it, and a one-shot timer fires. -/
def pauseAndResume : List (LoopStep TimerId Bool) :=
  [.message 0 (.addTimer (.periodicHeartbeat 7) 5 true true),
    .message 0 (.addTimer (.periodicHeartbeat 8) 9 true false),
    .message 1 (.addTimer .threadMonitoring 3 false false), .message 2 (.pauseTimer (.periodicHeartbeat 7)), .turn 6 7,
    .message 8 (.resumeTimer (.periodicHeartbeat 7)), .message 9 (.removeTimersByEntity (·.belongsToEntity 8))]

theorem turn_calls_first_due_resumed :
    ∃ task, run step new pauseAndResume = some task ∧ (task.expireNext 13 14).1 = some true ∧
      ∃ id timer, task.timers id = some timer ∧ timer.paused = false ∧ timer.nextTrigger ≤ 13 ∧
        timer.callback = true ∧
        (∀ k other, task.timers k = some other → other.paused = false → timer.nextTrigger ≤ other.nextTrigger) ∧
        ∀ timer', (task.expireNext 13 14).2.timers id = some timer' → 14 < timer'.nextTrigger :=
  ⟨_, rfl, rfl, turn_calls_first_due pauseAndResume _ rfl 13 14⟩

end TimerTask

end Int2Dds.Utils
