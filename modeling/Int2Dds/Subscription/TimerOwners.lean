import Int2Dds.Lib.Run
import Int2Dds.Rtps.Time
import Int2Dds.Utils.TimerTask

/-!
# Who owns a timer

The readers of a participant ask for three kinds of timers: one for each instance that is to be purged, one for each
writer whose samples expire, one for each instance with a sample held by the time based filter. A timer task keeps one
callback for each `TimerId`. The ids of the first kind do not name the instance and those of the second do not name
the reader, so one registration can take the place of another.
-/

namespace Int2Dds.Subscription
open Lib Rtps Utils List

/-- A timer of a reader, which is also what its callback captures. -/
inductive Registration where
  /-- `remove_change_of_instance`, or `reclaim_instance`. -/
  | autopurge (readerGuid : Guid) (instanceHandle : InstanceHandle) (fullReclaim : Bool)
  /-- `remove_lifespan_expired_changes` for the samples of a writer. -/
  | lifespan (readerGuid writerGuid : Guid) (lifespanDuration : Duration)
  /-- `deliver_held_sample`. -/
  | timeBasedFilter (readerGuid : Guid) (instanceHandle : InstanceHandle)
deriving DecidableEq

namespace Registration

def timerId : Registration → TimerId
  | autopurge readerGuid _ false => .autopurgeDisposed readerGuid
  | autopurge readerGuid _ true => .autopurgeNowriter readerGuid
  | lifespan _ writerGuid _ => .lifespanReader writerGuid
  | timeBasedFilter readerGuid instanceHandle => .timeBasedFilter readerGuid.entityId instanceHandle

/-- The participant whose timer handler is used. For the lifespan it is that of the writer. -/
def handler : Registration → BitVec 96
  | autopurge readerGuid _ _ => readerGuid.guidPrefix
  | lifespan _ writerGuid _ => writerGuid.guidPrefix
  | timeBasedFilter readerGuid _ => readerGuid.guidPrefix

def repeating : Registration → Bool
  | lifespan _ _ _ => true
  | _ => false

end Registration

structure TimerHandlers where
  tasks : BitVec 96 → TimerTask TimerId Registration
  /-- The `lifespan_timers` of the readers: the writers that a reader has a timer for. -/
  lifespanTimers : List (Guid × Guid)
  /-- The registrations that have neither fired nor been replaced. -/
  live : List Registration

inductive TimerStep where
  | addAutopurgeTimer (readerGuid : Guid) (instanceHandle : InstanceHandle) (fullReclaim : Bool) (duration now : ℕ)
  | registerLifespanTimer (readerGuid writerGuid : Guid) (lifespanDuration : Duration) (now : ℕ)
  | scheduleTbfTimer (readerGuid : Guid) (instanceHandle : InstanceHandle) (delay now : ℕ)
  /-- A lifespan callback sets the time to its next call. -/
  | updateLifespanTimerInterval (readerGuid writerGuid : Guid) (interval now : ℕ)
  /-- A timer task calls the next timer that is due. -/
  | expire (guidPrefix : BitVec 96) (now clock : ℕ)

namespace TimerHandlers

def new : TimerHandlers := ⟨fun _ => TimerTask.new, [], []⟩

def setTask (s : TimerHandlers) (guidPrefix : BitVec 96) (task : TimerTask TimerId Registration) : TimerHandlers :=
  { s with tasks := Function.update s.tasks guidPrefix task }

def add (s : TimerHandlers) (r : Registration) (duration now : ℕ) : TimerHandlers :=
  { s.setTask r.handler ((s.tasks r.handler).addTimer r.timerId duration r.repeating r now) with
    live := s.live.insert r }

/-- A reader registers once for a writer, and not for a lifespan that has no length. -/
def skipsLifespan (s : TimerHandlers) (readerGuid writerGuid : Guid) (lifespanDuration : Duration) : Bool :=
  s.lifespanTimers.contains (readerGuid, writerGuid) || lifespanDuration.isInfinite ||
    decide (lifespanDuration.sec < 0)

def perform (s : TimerHandlers) : TimerStep → TimerHandlers
  | .addAutopurgeTimer readerGuid instanceHandle fullReclaim duration now =>
    s.add (.autopurge readerGuid instanceHandle fullReclaim) duration now
  | .registerLifespanTimer readerGuid writerGuid lifespanDuration now =>
    if s.skipsLifespan readerGuid writerGuid lifespanDuration then s
    else
      { s.add (.lifespan readerGuid writerGuid lifespanDuration) lifespanDuration.asNanos.toNat now with
        lifespanTimers := (readerGuid, writerGuid) :: s.lifespanTimers }
  | .scheduleTbfTimer readerGuid instanceHandle delay now =>
    let r := Registration.timeBasedFilter readerGuid instanceHandle
    (s.setTask r.handler ((s.tasks r.handler).removeTimer r.timerId)).add r delay now
  | .updateLifespanTimerInterval readerGuid writerGuid interval now =>
    if s.lifespanTimers.contains (readerGuid, writerGuid) then
      s.setTask writerGuid.guidPrefix
        ((s.tasks writerGuid.guidPrefix).modifyTimer (.lifespanReader writerGuid) interval now)
    else s
  | .expire guidPrefix now clock =>
    match (s.tasks guidPrefix).expireNext now clock with
    | (none, task) => s.setTask guidPrefix task
    | (some r, task) =>
      { s.setTask guidPrefix task with live := if r.repeating then s.live else s.live.filter (fun l => decide (l ≠ r)) }

def step (s : TimerHandlers) (m : TimerStep) : Option TimerHandlers := some (s.perform m)

def callback? (s : TimerHandlers) (r : Registration) : Option Registration :=
  ((s.tasks r.handler).timers r.timerId).map Timer.callback

def Scheduled (s : TimerHandlers) : Prop := ∀ r ∈ s.live, s.callback? r = some r

/-- The id of a registration is free, or its own, unless the registration is skipped. One of the time based filter first
removes what has its id. -/
def Meets (s : TimerHandlers) : TimerStep → Prop
  | .addAutopurgeTimer readerGuid instanceHandle fullReclaim _ _ =>
    ∀ r, s.callback? (.autopurge readerGuid instanceHandle fullReclaim) = some r →
      r = .autopurge readerGuid instanceHandle fullReclaim
  | .registerLifespanTimer readerGuid writerGuid lifespanDuration _ =>
    s.skipsLifespan readerGuid writerGuid lifespanDuration = false →
      s.callback? (.lifespan readerGuid writerGuid lifespanDuration) = none
  | _ => True

instance (s : TimerHandlers) : (m : TimerStep) → Decidable (s.Meets m)
  | .addAutopurgeTimer readerGuid instanceHandle fullReclaim _ _ =>
    inferInstanceAs (Decidable (∀ r, s.callback? (.autopurge readerGuid instanceHandle fullReclaim) = some r → _))
  | .registerLifespanTimer _ _ _ _ => inferInstanceAs (Decidable (_ = false → _ = none))
  | .scheduleTbfTimer _ _ _ _ => isTrue trivial
  | .updateLifespanTimerInterval _ _ _ _ => isTrue trivial
  | .expire _ _ _ => isTrue trivial

/-! ## Steps -/

/-- The invariant: besides, a timer repeats when its registration does. -/
structure Kept (s : TimerHandlers) : Prop where
  scheduled : s.Scheduled
  repeating : ∀ p id timer, (s.tasks p).timers id = some timer → timer.repeating = timer.callback.repeating

@[simp] theorem tasks_setTask (s : TimerHandlers) (p q : BitVec 96) (task : TimerTask TimerId Registration) :
    (s.setTask p task).tasks q = if q = p then task else s.tasks q :=
  Function.update_apply s.tasks p task q

theorem timers_add (s : TimerHandlers) (r : Registration) (duration now : ℕ) (p : BitVec 96) (id : TimerId) :
    ((s.add r duration now).tasks p).timers id =
      if p = r.handler ∧ id = r.timerId ∧ (s.tasks p).timers id = none then
        some (Timer.new duration r.repeating r now)
      else (s.tasks p).timers id := by
  unfold add
  rw [tasks_setTask]
  by_cases hp : p = r.handler
  · subst hp
    simp only [if_true]
    rw [TimerTask.timers_addTimer]
    by_cases hid : id = r.timerId
    · subst hid
      simp
    · simp [hid]
  · simp [hp]

/-- A registration that finds its id free, or taken by itself, is scheduled; the others stay. -/
theorem kept_add {s : TimerHandlers} (hs : s.Kept) {r : Registration}
    (hfree : ∀ r', s.callback? r = some r' → r' = r) (duration now : ℕ) : (s.add r duration now).Kept where
  scheduled := by
    intro l hl
    unfold callback?
    rw [timers_add]
    have hold : l ∈ s.live → ((s.tasks l.handler).timers l.timerId).map Timer.callback = some l := hs.scheduled l
    rcases mem_insert_iff.1 hl with rfl | hl
    · cases hentry : (s.tasks l.handler).timers l.timerId with
      | none => simp [Timer.new]
      | some timer =>
        have hsame := hfree timer.callback (by unfold callback?; rw [hentry]; rfl)
        simp [hsame]
    · rw [if_neg]
      · exact hold hl
      · rintro ⟨-, -, hnone⟩
        have := hold hl
        rw [hnone] at this
        simp at this
  repeating := by
    intro p id timer h
    rw [timers_add] at h
    split_ifs at h
    · obtain rfl := Option.some.inj h
      rfl
    · exact hs.repeating p id timer h

theorem eq_of_timeBasedFilter {readerGuid : Guid} {instanceHandle : InstanceHandle} {l : Registration}
    (hhandler : l.handler = (Registration.timeBasedFilter readerGuid instanceHandle).handler)
    (hid : l.timerId = (Registration.timeBasedFilter readerGuid instanceHandle).timerId) :
    l = .timeBasedFilter readerGuid instanceHandle := by
  rcases l with ⟨_, _, _ | _⟩ | ⟨_, _, _⟩ | ⟨guid, handle⟩
  · cases hid
  · cases hid
  · cases hid
  · obtain ⟨hentity, rfl⟩ := TimerId.timeBasedFilter.inj hid
    obtain rfl : guid = readerGuid := (TimerId.guid_eq_iff _ _).2 ⟨hhandler, hentity⟩
    rfl

section

variable {s : TimerHandlers} (hs : s.Kept)
include hs

theorem Kept.setTask {p : BitVec 96} {task : TimerTask TimerId Registration}
    {live : List Registration} (hlive : live ⊆ s.live)
    (hscheduled : ∀ l ∈ live, l.handler = p → ((s.tasks p).timers l.timerId).map Timer.callback = some l →
      (task.timers l.timerId).map Timer.callback = some l)
    (hrepeating : ∀ id timer, task.timers id = some timer → timer.repeating = timer.callback.repeating) :
    Kept { s.setTask p task with live } where
  scheduled := by
    intro l hl
    have hold : ((s.tasks l.handler).timers l.timerId).map Timer.callback = some l := hs.scheduled l (hlive hl)
    show (((s.setTask p task).tasks l.handler).timers l.timerId).map Timer.callback = some l
    rw [tasks_setTask]
    split_ifs with hp
    · exact hscheduled l hl hp (hp ▸ hold)
    · exact hold
  repeating := by
    intro q id timer h
    replace h : ((s.setTask p task).tasks q).timers id = some timer := h
    rw [tasks_setTask] at h
    split_ifs at h
    · exact hrepeating id timer h
    · exact hs.repeating q id timer h

theorem kept_scheduleTbfTimer (readerGuid : Guid) (instanceHandle : InstanceHandle)
    (delay now : ℕ) : (s.perform (.scheduleTbfTimer readerGuid instanceHandle delay now)).Kept := by
  have hremoved :=
    (s.tasks readerGuid.guidPrefix).timers_removeTimer (.timeBasedFilter readerGuid.entityId instanceHandle)
  -- the others are still scheduled; this one is registered right after
  have hrest : Kept { s.setTask readerGuid.guidPrefix ((s.tasks readerGuid.guidPrefix).removeTimer
      (.timeBasedFilter readerGuid.entityId instanceHandle)) with
      live := s.live.filter (fun l => decide (l ≠ .timeBasedFilter readerGuid instanceHandle)) } := by
    refine hs.setTask (filter_subset_self _) (fun l hl hp hold => ?_) fun id timer h => ?_
    · rw [hremoved, if_neg]
      · exact hold
      · intro hid
        simpa [eq_of_timeBasedFilter hp hid] using (mem_filter.1 hl).2
    · rw [hremoved] at h
      split_ifs at h
      exact hs.repeating _ id timer h
  obtain ⟨hscheduled, hrepeating⟩ := kept_add hrest (r := .timeBasedFilter readerGuid instanceHandle) (by
    intro r' h
    simp [callback?, Registration.handler, Registration.timerId, hremoved] at h) delay now
  refine ⟨fun l hl => hscheduled l ?_, hrepeating⟩
  rcases mem_insert_iff.1 hl with rfl | hl
  · exact mem_insert_self
  · by_cases hl' : l = .timeBasedFilter readerGuid instanceHandle
    · subst hl'
      exact mem_insert_self
    · exact mem_insert_of_mem (mem_filter.2 ⟨hl, by simpa using hl'⟩)

theorem kept_updateLifespanTimerInterval (readerGuid writerGuid : Guid)
    (interval now : ℕ) : (s.perform (.updateLifespanTimerInterval readerGuid writerGuid interval now)).Kept := by
  rw [perform]
  split_ifs
  · have hmodified := (s.tasks writerGuid.guidPrefix).timers_modifyTimer (.lifespanReader writerGuid) interval now
    refine hs.setTask (Subset.refl s.live) (fun l _ _ hold => ?_) fun id timer h => ?_
    · rw [hmodified]
      split_ifs with hid
      · rw [hid] at hold
        simpa [Function.comp_def] using hold
      · exact hold
    · rw [hmodified] at h
      split_ifs at h
      · obtain ⟨old, hold, rfl⟩ := Option.map_eq_some_iff.1 h
        simpa using hs.repeating _ _ old hold
      · exact hs.repeating _ id timer h
  · exact hs

theorem kept_expire (guidPrefix : BitVec 96) (now clock : ℕ) :
    (s.perform (.expire guidPrefix now clock)).Kept := by
  have hexpires := (s.tasks guidPrefix).expires_expireNext now clock
  rw [perform]
  generalize (s.tasks guidPrefix).expireNext now clock = out at hexpires
  cases hexpires with
  | idle same =>
    refine hs.setTask (Subset.refl s.live) (fun l _ _ hold => ?_) fun id timer h => ?_
    · rwa [same]
    · exact hs.repeating guidPrefix id timer (same ▸ h)
  | @once fired timer task found oneShot gone others =>
    have hrepeats := hs.repeating _ _ _ found
    rw [oneShot] at hrepeats
    dsimp only
    rw [if_neg (by rw [← hrepeats]; exact Bool.false_ne_true)]
    refine hs.setTask (filter_subset_self _) (fun l hl _ hold => ?_) fun id timer' h => ?_
    · rw [others]
      · exact hold
      · -- the timer that was called is that of `l`
        intro hid
        rw [hid, found] at hold
        simpa [Option.some.inj hold] using (mem_filter.1 hl).2
    · have hid : id ≠ fired := by
        rintro rfl
        rw [gone] at h
        cases h
      rw [others _ hid] at h
      exact hs.repeating _ _ _ h
  | @again fired timer timer' task found repeats same repeats' stays others =>
    have hrepeats := hs.repeating _ _ _ found
    rw [repeats] at hrepeats
    dsimp only
    rw [if_pos hrepeats.symm]
    refine hs.setTask (Subset.refl s.live) (fun l _ _ hold => ?_) fun id timer'' h => ?_
    · by_cases hid : l.timerId = fired
      · rw [hid, found] at hold
        rw [hid, stays]
        simpa [same] using hold
      · rwa [others _ hid]
    · by_cases hid : id = fired
      · rw [hid, stays] at h
        obtain rfl := Option.some.inj h
        rw [repeats', same]
        exact hrepeats
      · rw [others _ hid] at h
        exact hs.repeating _ _ _ h

theorem kept_perform {m : TimerStep} (hm : s.Meets m) : (s.perform m).Kept := by
  cases m with
  | addAutopurgeTimer readerGuid instanceHandle fullReclaim duration now => exact kept_add hs hm duration now
  | registerLifespanTimer readerGuid writerGuid lifespanDuration now =>
    rw [perform]
    split_ifs with hskips
    · exact hs
    · have hfree := hm (Bool.eq_false_of_not_eq_true hskips)
      have hadd := kept_add hs (fun r' h => absurd (hfree.symm.trans h) (by simp)) lifespanDuration.asNanos.toNat now
      exact ⟨hadd.scheduled, hadd.repeating⟩
  | scheduleTbfTimer readerGuid instanceHandle delay now =>
      exact kept_scheduleTbfTimer hs readerGuid instanceHandle delay now
  | updateLifespanTimerInterval readerGuid writerGuid interval now =>
    exact kept_updateLifespanTimerInterval hs readerGuid writerGuid interval now
  | expire guidPrefix now clock => exact kept_expire hs guidPrefix now clock

end

/-- In every run in which a registration finds its id free, or its own, every live registration has its own callback
scheduled. -/
theorem registrations_scheduled (steps : List TimerStep) (s : TimerHandlers) (hok : AllSteps step Meets new steps)
    (hrun : run step new steps = some s) : s.Scheduled := by
  have hinit : new.Kept := ⟨nofun, fun p id timer h => by cases h⟩
  have hend : s.Kept := by
    refine run_invariant_of_allSteps ?_ hinit hok hrun
    intro s m s' hs hm hstep
    obtain rfl := Option.some.inj hstep
    exact kept_perform hs hm
  exact hend.scheduled

/-! ## Two owners, one id -/

/-- One instance to purge, one writer with a lifespan, one held sample. -/
def oneOfEach : List TimerStep :=
  [.addAutopurgeTimer ⟨3, 4⟩ ⟨7, true⟩ false 1000 0, .registerLifespanTimer ⟨3, 4⟩ ⟨5, 6⟩ ⟨1, 0⟩ 0,
    .scheduleTbfTimer ⟨3, 4⟩ ⟨7, true⟩ 10 0]

theorem registrations_scheduled_three : ∃ s, run step new oneOfEach = some s ∧ s.live.length = 3 ∧ s.Scheduled :=
  ⟨_, rfl, by decide +kernel, registrations_scheduled oneOfEach _ (by decide +kernel) rfl⟩

/-- The second of two disposed instances of a reader has no timer, nor has the second of two readers of one writer. -/
theorem registrations_shadowed :
    (∃ s, run step new
        [.addAutopurgeTimer ⟨3, 4⟩ ⟨7, true⟩ false 1000 0, .addAutopurgeTimer ⟨3, 4⟩ ⟨8, true⟩ false 1000 0] = some s ∧
      .autopurge ⟨3, 4⟩ ⟨8, true⟩ false ∈ s.live ∧
      s.callback? (.autopurge ⟨3, 4⟩ ⟨8, true⟩ false) = some (.autopurge ⟨3, 4⟩ ⟨7, true⟩ false)) ∧
    ∃ s, run step new
        [.registerLifespanTimer ⟨3, 4⟩ ⟨5, 6⟩ ⟨1, 0⟩ 0, .registerLifespanTimer ⟨3, 9⟩ ⟨5, 6⟩ ⟨1, 0⟩ 0] = some s ∧
      .lifespan ⟨3, 9⟩ ⟨5, 6⟩ ⟨1, 0⟩ ∈ s.live ∧
      s.callback? (.lifespan ⟨3, 9⟩ ⟨5, 6⟩ ⟨1, 0⟩) = some (.lifespan ⟨3, 4⟩ ⟨5, 6⟩ ⟨1, 0⟩) :=
  ⟨⟨_, rfl, by decide +kernel, by decide +kernel⟩, _, rfl, by decide +kernel, by decide +kernel⟩

end TimerHandlers

end Int2Dds.Subscription
