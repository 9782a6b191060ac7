import Int2Dds.Lib.Run
import Int2Dds.Subscription.Arrival
import Int2Dds.Utils.TimerTask

/-!
# Purging instances that are not alive

When an instance is disposed, or loses its last writer, the reader may start a timer that later drops the samples of
the instance. The callback of the timer knows the instance by its handle only and nothing takes the timer back when
the instance is alive again.

* `PurgingReader` : a reader, its part of the timer task, and a record of what the callbacks removed.
-/

namespace Int2Dds.History.DataReaderHistoryCache
open Rtps

def removeAllChangesOfInstance (h : DataReaderHistoryCache) (handle : InstanceHandle) : DataReaderHistoryCache :=
  { h with
    instanceMap := h.instanceMap.modify handle (fun b => b.filter (fun _ => false))
      (fun b => b.instanceHandle_filter _) }

end Int2Dds.History.DataReaderHistoryCache

namespace Int2Dds.Subscription
open Lib Rtps History Utils

variable {Foo V : Type*}

/-! ## The callbacks -/

namespace TimedReader

def removeChangeOfInstance (s : TimedReader Foo) (handle : InstanceHandle) : Except DdsError Unit × TimedReader Foo :=
  let ids := (s.reader.cache.bucketOf handle).map CacheChange.id
  let s := s.setCache (s.reader.cache.removeAllChangesOfInstance handle)
  match s.reader.rtpsChanges with
  | none => (.error (.error "RTPS Reader is not initialized"), s)
  | some changes =>
    (.ok (), { s with reader := { s.reader with rtpsChanges := some (changes.filter (fun d => !ids.contains d.id)) } })

def reclaimInstance (s : TimedReader Foo) (handle : InstanceHandle) : Except DdsError Unit × TimedReader Foo :=
  match s.removeChangeOfInstance handle with
  | (.error e, s) => (.error e, s)
  | (.ok (), s) => (.ok (), s.removeAllInstanceResources handle)

/-- The callback of a timer. An error is only logged. -/
def purge (s : TimedReader Foo) (a : Autopurge) : TimedReader Foo :=
  if a.fullReclaim then (s.reclaimInstance a.instanceHandle).2 else (s.removeChangeOfInstance a.instanceHandle).2

/-! ## Writers that are lost -/

def markPendingNotification (s : TimedReader Foo) (handle : InstanceHandle) : TimedReader Foo :=
  { s with reader := { s.reader with
      instanceInfos := s.reader.instanceInfos.modify handle (fun info => { info with pendingNotification := true }) } }

/-- The writer leaves the candidates of one instance; the last one to leave makes a notification. -/
def revokeAndNotify (setup : Setup Foo V) (writerGuid : Guid) (s : TimedReader Foo) (handle : InstanceHandle) :
    TimedReader Foo :=
  match s.reader.cache.ownerCandidates.lookup handle with
  | none => s
  | some candidates =>
    let candidates := candidates.filter (fun info => info.ownerGuid != writerGuid)
    let s := s.setCache { s.reader.cache with
      ownerCandidates := s.reader.cache.ownerCandidates.insert handle candidates }
    if candidates.toList.isEmpty then
      match s.updateInstanceState setup handle .notAliveNoWriters none with
      | (.ok true, s) => s.markPendingNotification handle
      | (_, s) => s
    else s

/-- A writer is lost or unmatched: `revoke_writer_ownership` for all instances. -/
def writerLost (setup : Setup Foo V) (s : TimedReader Foo) (writerGuid : Guid) : TimedReader Foo :=
  s.reader.cache.ownerCandidates.keys.foldl (revokeAndNotify setup writerGuid) s

/-! ## Instances that are alive -/

def isAliveInstance (s : TimedReader Foo) (handle : InstanceHandle) : Bool :=
  (s.reader.instanceInfos.lookup handle).any (fun info => info.instanceState == .alive)

/-- An operation on `handle`: with `lives` it may make the instance alive, and a timer it asks for is for this
instance, which is then not alive. -/
structure Changes (handle : InstanceHandle) (lives : Bool) (s t : TimedReader Foo) : Prop where
  alive : ∀ k, t.isAliveInstance k = true → s.isAliveInstance k = true ∨ k = handle ∧ lives = true
  requested : ∀ a ∈ t.requested, a ∈ s.requested ∨ a.instanceHandle = handle ∧ t.isAliveInstance handle = false

namespace Changes

variable {handle : InstanceHandle} {lives : Bool} {s t u : TimedReader Foo}

theorem refl : Changes handle lives s s :=
  ⟨fun _ h => .inl h, fun _ h => .inl h⟩

theorem of_le (halive : ∀ k, t.isAliveInstance k = true → s.isAliveInstance k = true)
    (hrequested : t.requested = s.requested) : Changes handle lives s t :=
  ⟨fun k hk => .inl (halive k hk), fun _ ha => .inl (hrequested ▸ ha)⟩

theorem trans (hst : Changes handle lives s t) (htu : Changes handle false t u) : Changes handle lives s u where
  alive := by
    intro k hk
    rcases htu.alive k hk with ht | ⟨-, h⟩
    · exact hst.alive k ht
    · simp at h
  requested := by
    intro a ha
    rcases htu.requested a ha with ht | hnew
    · rcases hst.requested a ht with hs | ⟨hhandle, hdead⟩
      · exact .inl hs
      · refine .inr ⟨hhandle, ?_⟩
        by_contra hu
        rcases htu.alive handle (by simpa using hu) with ht | ⟨-, h⟩
        · rw [hdead] at ht
          simp at ht
        · simp at h
    · exact .inr hnew

end Changes

variable (setup : Setup Foo V) (s : TimedReader Foo) (handle : InstanceHandle)

theorem isAliveInstance_setInfo (k : InstanceHandle) (info : InstanceInfo) :
    (s.setInfo handle info).isAliveInstance k =
      if k = handle then info.instanceState == .alive else s.isAliveInstance k := by
  unfold isAliveInstance setInfo
  rw [InstanceInfos.lookup_set]
  split_ifs <;> simp

theorem changes_updateInstanceState (newState : InstanceStateKind) (change : Option CacheChange) :
    Changes handle (newState == .alive) s (s.updateInstanceState setup handle newState change).2 := by
  have hleave : ∀ state : InstanceStateKind, state ≠ .alive → ∀ lives, Changes handle lives s
      ((s.setInfo handle ((s.reader.instanceInfos.get handle).leave state change)).addAutopurgeTimer setup handle
        state) := by
    intro state hstate lives
    have hdead : ((s.setInfo handle ((s.reader.instanceInfos.get handle).leave state change)).addAutopurgeTimer setup
        handle state).isAliveInstance handle = false := by
      unfold isAliveInstance
      rw [reader_addAutopurgeTimer]
      have := isAliveInstance_setInfo s handle handle ((s.reader.instanceInfos.get handle).leave state change)
      exact this.trans (by simpa [InstanceInfo.leave] using hstate)
    refine ⟨?_, ?_⟩
    · intro k hk
      by_cases hhandle : k = handle
      · rw [hhandle, hdead] at hk
        simp at hk
      · unfold isAliveInstance at hk
        rw [reader_addAutopurgeTimer] at hk
        have := isAliveInstance_setInfo s handle k ((s.reader.instanceInfos.get handle).leave state change)
        rw [if_neg hhandle] at this
        exact .inl (this ▸ hk)
    · intro a ha
      unfold addAutopurgeTimer at ha
      split_ifs at ha
      · exact .inl ha
      · rcases List.mem_append.1 ha with ha | ha
        · exact .inl ha
        · exact .inr ⟨by rw [List.mem_singleton.1 ha], hdead⟩
  have hrevive : ∀ info, Changes handle true s (s.setInfo handle info) := by
    intro info
    refine ⟨fun k hk => ?_, fun a ha => .inl ha⟩
    rw [isAliveInstance_setInfo] at hk
    split_ifs at hk with hhandle
    · exact .inr ⟨hhandle, rfl⟩
    · exact .inl hk
  unfold updateInstanceState
  cases newState with
  | alive =>
    dsimp only
    split <;> exact hrevive _
  | notAliveDisposed | notAliveNoWriters =>
    dsimp only
    split_ifs
    · exact hleave _ (by simp) _
    · exact .refl

theorem changes_setCache (lives : Bool) (s : TimedReader Foo) (cache : DataReaderHistoryCache) :
    Changes handle lives s (s.setCache cache) :=
  .of_le (fun _ h => h) rfl

theorem changes_revokeWriterOwnership (writerGuid : Guid) (handle : InstanceHandle) :
    Changes handle false s (s.revokeWriterOwnership setup writerGuid handle).2 := by
  unfold revokeWriterOwnership
  split
  · exact .refl
  · dsimp only
    split_ifs
    · exact (changes_setCache handle false s _).trans (changes_updateInstanceState setup _ handle .notAliveNoWriters _)
    · exact changes_setCache handle false s _

theorem changes_advanceInstance (c : CacheChange) :
    Changes c.instanceHandle (hasValidData c.kind) s (s.advanceInstance setup c).2 := by
  have haccept : Changes c.instanceHandle (hasValidData c.kind) s (s.acceptState setup c).2 := by
    rcases acceptState_cases setup s c with ⟨-, h⟩ | ⟨-, h⟩ | ⟨told, rfl, h⟩ <;> rw [h]
    · exact .refl
    · exact .refl
    · have htold := changes_updateInstanceState setup s c.instanceHandle
        (if hasValidData c.kind then .alive else .notAliveDisposed) (some c)
      cases hvalid : hasValidData c.kind <;> rw [hvalid] at htold <;> exact htold
  rcases advanceInstance_cases setup s c with h | ⟨-, h⟩ <;> rw [h]
  · exact haccept
  · exact haccept.trans (changes_revokeWriterOwnership setup _ _ _)

theorem changes_ensureCapacity : Changes handle false s (s.ensureCapacity handle).2 := by
  have hreclaims := reclaims_ensureCapacity s handle
  refine .of_le (fun k hk => ?_) hreclaims.requested
  unfold isAliveInstance at hk ⊢
  rcases hreclaims.lookup k with hsame | ⟨hnone, -⟩
  · rw [← hsame]
    exact hk
  · rw [hnone] at hk
    simp at hk

theorem changes_addChangeWithCleanup (view : DataReaderView) (s : TimedReader Foo) (c : CacheChange)
    (applyFilter : Bool) :
    Changes c.instanceHandle (hasValidData c.kind) s (s.addChangeWithCleanup setup view c applyFilter).2 := by
  have hadvance := changes_advanceInstance setup (s.filtered view c applyFilter) c
  have hbefore : Changes c.instanceHandle (hasValidData c.kind) s
      ((s.filtered view c applyFilter).advanceInstance setup c).2 := ⟨hadvance.alive, hadvance.requested⟩
  have hroom := hbefore.trans (changes_ensureCapacity _ c.instanceHandle)
  have htakes := takes_addChangeWithCleanup setup view s c applyFilter
  generalize s.addChangeWithCleanup setup view c applyFilter = res at htakes
  cases htakes with
  | dropped => exact .refl
  | held => exact changes_setCache _ _ s _
  | refused advance =>
    rw [advance] at hbefore
    exact hbefore
  | full advance room =>
    rw [advance, room] at hroom
    exact hroom
  | stored advance room =>
    rw [advance, room] at hroom
    exact hroom.trans (changes_setCache _ _ _ _)

theorem changes_arrive {setup : Setup Foo V} {view : DataReaderView} {s : TimedReader Foo} {change c : CacheChange}
    {applyFilter : Bool} (hc : view.addInfoToCacheChange change = .ok c) :
    Changes c.instanceHandle (hasValidData c.kind) s (s.arrive setup view change applyFilter) := by
  have hadd := changes_addChangeWithCleanup setup view s c applyFilter
  unfold arrive
  rw [hc]
  dsimp only
  generalize s.addChangeWithCleanup setup view c applyFilter = out at hadd
  obtain ⟨result, t⟩ := out
  rcases result with e | ⟨removed, held⟩
  · exact hadd
  cases held with
  | true => exact hadd
  | false =>
    refine hadd.trans (.of_le (fun k hk => ?_) rfl)
    dsimp only at hk
    obtain ⟨readConditions, hsnd⟩ := DataReader.processIncomingChange_snd setup { t.reader with
      rtpsChanges := t.reader.rtpsChanges.map fun changes => removed.elim (changes ++ [c])
        (fun r => (changes ++ [c]).eraseP (fun d => decide (d.id = r.id))) } c
    rw [hsnd] at hk
    exact hk

theorem changes_revokeAndNotify (writerGuid : Guid) (s : TimedReader Foo) (handle : InstanceHandle) :
    Changes handle false s (s.revokeAndNotify setup writerGuid handle) := by
  unfold revokeAndNotify
  split
  · exact .refl
  dsimp only
  split_ifs
  · generalize hstart : s.setCache _ = start
    have hchanges : Changes handle false s (start.updateInstanceState setup handle .notAliveNoWriters none).2 := by
      rw [← hstart]
      exact (changes_setCache handle false s _).trans (changes_updateInstanceState setup _ handle .notAliveNoWriters _)
    generalize start.updateInstanceState setup handle .notAliveNoWriters none = updated at hchanges
    obtain ⟨result, t⟩ := updated
    split
    · next t ht =>
      obtain ⟨-, rfl⟩ := Prod.mk.inj ht
      refine hchanges.trans (.of_le (fun k hk => ?_) rfl)
      unfold isAliveInstance markPendingNotification at hk
      rw [InstanceInfos.lookup_modify] at hk
      unfold isAliveInstance
      cases hlook : t.reader.instanceInfos.lookup k with
      | none => simp [hlook] at hk
      | some info =>
        rw [hlook] at hk
        split_ifs at hk <;> simpa using hk
    · next t _ ht =>
      obtain ⟨-, rfl⟩ := Prod.mk.inj ht
      exact hchanges
  · exact changes_setCache handle false s _

theorem changes_removeChangeOfInstance : Changes handle false s (s.removeChangeOfInstance handle).2 := by
  unfold removeChangeOfInstance
  dsimp only
  split
  · exact changes_setCache handle false s _
  · exact .of_le (fun _ h => h) rfl

theorem changes_purge (a : Autopurge) : Changes a.instanceHandle false s (s.purge a) := by
  have hremove := changes_removeChangeOfInstance s a.instanceHandle
  unfold purge
  split_ifs
  · unfold reclaimInstance
    generalize s.removeChangeOfInstance a.instanceHandle = removed at hremove
    obtain ⟨result, t⟩ := removed
    cases result with
    | error e => exact hremove
    | ok u =>
      refine hremove.trans (.of_le (fun k hk => ?_) rfl)
      unfold isAliveInstance removeAllInstanceResources at hk
      rw [InstanceInfos.lookup_remove] at hk
      split_ifs at hk
      · simp at hk
      · exact hk
  · exact hremove

end TimedReader

/-! ## The reader and the timer task -/

structure Purge where
  instanceHandle : InstanceHandle
  /-- The instance was alive when the callback was called. -/
  wasAlive : Bool
  removed : List CacheChange

structure PurgingReader (Foo : Type*) where
  timed : TimedReader Foo
  task : TimerTask TimerId Autopurge
  purges : List Purge

def Autopurge.timerId (readerGuid : Guid) (a : Autopurge) : TimerId :=
  if a.fullReclaim then .autopurgeNowriter readerGuid else .autopurgeDisposed readerGuid

/-- `as_nanos() as u64`. -/
def Autopurge.nanos (a : Autopurge) : ℕ := (a.delay.asNanos % 2 ^ 64).toNat

inductive PurgeStep where
  | arrival (view : DataReaderView) (change : CacheChange) (applyFilter : Bool)
  | writerLost (writerGuid : Guid)
  /-- The timer task takes the messages from its queue. -/
  | processMessages (now : ℕ)
  /-- The timer task calls the next timer that is due. -/
  | expire (now clock : ℕ)

namespace PurgeStep

def perform (setup : Setup Foo V) (readerGuid : Guid) (s : PurgingReader Foo) : PurgeStep → PurgingReader Foo
  | arrival view change applyFilter => { s with timed := s.timed.arrive setup view change applyFilter }
  | writerLost writerGuid => { s with timed := s.timed.writerLost setup writerGuid }
  | processMessages now =>
    { s with
      timed := { s.timed with requested := [] }
      task := s.timed.requested.foldl
        (fun task a => task.addTimer (a.timerId readerGuid) a.nanos false a now) s.task }
  | expire now clock =>
    match s.task.expireNext now clock with
    | (none, task) => { s with task }
    | (some a, task) =>
      { timed := s.timed.purge a
        task
        purges := s.purges ++ [⟨a.instanceHandle, s.timed.isAliveInstance a.instanceHandle,
          s.timed.reader.cache.bucketOf a.instanceHandle⟩] }

def step (setup : Setup Foo V) (readerGuid : Guid) (s : PurgingReader Foo) (m : PurgeStep) :
    Option (PurgingReader Foo) := some (m.perform setup readerGuid s)

end PurgeStep

namespace PurgingReader

/-- A timer that is in the queue of the task or in the task. -/
def Pending (s : PurgingReader Foo) (a : Autopurge) : Prop :=
  a ∈ s.timed.requested ∨ ∃ id timer, s.task.timers id = some timer ∧ timer.callback = a

def Quiet (s : PurgingReader Foo) : Prop := ∀ a, s.Pending a → s.timed.isAliveInstance a.instanceHandle = false

/-- A sample with data arrives only for an instance without a pending timer. -/
def Meets (s : PurgingReader Foo) : PurgeStep → Prop
  | .arrival view change _ => ∀ c, view.addInfoToCacheChange change = .ok c → hasValidData c.kind = true →
      ∀ a, s.Pending a → a.instanceHandle ≠ c.instanceHandle
  | _ => True

variable {s : PurgingReader Foo}

theorem Quiet.changes (hq : s.Quiet) {handle : InstanceHandle} {lives : Bool}
    {t : TimedReader Foo} (h : TimedReader.Changes handle lives s.timed t)
    (hlives : lives = true → ∀ a, s.Pending a → a.instanceHandle ≠ handle) : Quiet { s with timed := t } := by
  have hold : ∀ a, s.Pending a → t.isAliveInstance a.instanceHandle = false := by
    intro a ha
    by_contra halive
    rcases h.alive _ (by simpa using halive) with hbefore | ⟨hhandle, htrue⟩
    · rw [hq a ha] at hbefore
      simp at hbefore
    · exact hlives htrue a ha hhandle
  rintro a (ha | ha)
  · rcases h.requested a ha with hbefore | ⟨hhandle, hdead⟩
    · exact hold a (.inl hbefore)
    · rw [hhandle]
      exact hdead
  · exact hold a (.inr ha)

theorem Quiet.writerLost (hq : s.Quiet) (setup : Setup Foo V) (writerGuid : Guid)
    (handles : List InstanceHandle) :
    Quiet { s with timed := handles.foldl (TimedReader.revokeAndNotify setup writerGuid) s.timed } := by
  induction handles generalizing s with
  | nil => exact hq
  | cons handle handles ih =>
    have hstep := hq.changes (TimedReader.changes_revokeAndNotify setup writerGuid s.timed handle) (by simp)
    exact ih hstep

theorem scheduled_foldl_addTimer (readerGuid : Guid) (now : ℕ) (requested : List Autopurge)
    (task : TimerTask TimerId Autopurge) {id : TimerId} {timer : Timer Autopurge}
    (h : (requested.foldl (fun task a => task.addTimer (a.timerId readerGuid) a.nanos false a now) task).timers id =
      some timer) : task.timers id = some timer ∨ timer.callback ∈ requested := by
  induction requested generalizing task with
  | nil => exact .inl h
  | cons a requested ih =>
    rcases ih _ h with hbefore | hmem
    · rw [TimerTask.timers_addTimer] at hbefore
      split_ifs at hbefore
      · obtain rfl := Option.some.inj hbefore
        exact .inr List.mem_cons_self
      · exact .inl hbefore
    · exact .inr (List.mem_cons_of_mem _ hmem)

theorem Quiet.processMessages (hq : s.Quiet) (readerGuid : Guid) (now : ℕ) :
    Quiet { s with
      timed := { s.timed with requested := [] }
      task := s.timed.requested.foldl
        (fun task a => task.addTimer (a.timerId readerGuid) a.nanos false a now) s.task } := by
  rintro a (ha | ⟨id, timer, htimer, rfl⟩)
  · simp at ha
  · rcases scheduled_foldl_addTimer readerGuid now s.timed.requested s.task htimer with hbefore | hmem
    · exact hq _ (.inr ⟨id, timer, hbefore, rfl⟩)
    · exact hq _ (.inl hmem)

theorem scheduled_expireNext (task : TimerTask TimerId Autopurge) (now clock : ℕ) :
    (∀ a, (task.expireNext now clock).1 = some a → ∃ id timer, task.timers id = some timer ∧ timer.callback = a) ∧
      ∀ id timer, (task.expireNext now clock).2.timers id = some timer →
        ∃ id' timer', task.timers id' = some timer' ∧ timer'.callback = timer.callback := by
  have hexpires := task.expires_expireNext now clock
  generalize task.expireNext now clock = out at hexpires
  cases hexpires with
  | idle same =>
    refine ⟨fun a ha => by simp at ha, fun id timer h => ?_⟩
    rw [same] at h
    exact ⟨id, timer, h, rfl⟩
  | @once fired _ _ found oneShot gone others =>
    refine ⟨fun a ha => ⟨_, _, found, Option.some.inj ha⟩, fun id timer h => ?_⟩
    by_cases hid : id = fired
    · rw [hid, gone] at h
      simp at h
    · rw [others id hid] at h
      exact ⟨id, timer, h, rfl⟩
  | @again fired _ _ _ found repeats same repeats' stays others =>
    refine ⟨fun a ha => ⟨_, _, found, Option.some.inj ha⟩, fun id timer h => ?_⟩
    by_cases hid : id = fired
    · rw [hid, stays] at h
      obtain rfl := Option.some.inj h
      exact ⟨_, _, found, same.symm⟩
    · rw [others id hid] at h
      exact ⟨id, timer, h, rfl⟩

/-- The invariant: no timer waits for an instance that is alive, and none has been called for one. -/
structure Safe (s : PurgingReader Foo) : Prop where
  quiet : s.Quiet
  spared : ∀ p ∈ s.purges, p.wasAlive = false

theorem safe_perform {setup : Setup Foo V} {readerGuid : Guid} (hs : s.Safe) {m : PurgeStep}
    (hm : s.Meets m) : Safe (m.perform setup readerGuid s) := by
  cases m with
  | arrival view change applyFilter =>
    refine ⟨?_, hs.spared⟩
    cases hc : view.addInfoToCacheChange change with
    | error e =>
      have hsame : s.timed.arrive setup view change applyFilter = s.timed := by
        unfold TimedReader.arrive
        rw [hc]
      show Quiet { s with timed := s.timed.arrive setup view change applyFilter }
      rw [hsame]
      exact hs.quiet
    | ok c => exact hs.quiet.changes (TimedReader.changes_arrive hc) (hm c hc)
  | writerLost writerGuid => exact ⟨hs.quiet.writerLost setup writerGuid _, hs.spared⟩
  | processMessages now => exact ⟨hs.quiet.processMessages readerGuid now, hs.spared⟩
  | expire now clock =>
    obtain ⟨hcalled, hrest⟩ := scheduled_expireNext s.task now clock
    rw [PurgeStep.perform]
    generalize s.task.expireNext now clock = out at hcalled hrest
    obtain ⟨called, task⟩ := out
    have hquiet : Quiet { s with task } := by
      rintro a (ha | ⟨id, timer, htimer, rfl⟩)
      · exact hs.quiet a (.inl ha)
      · obtain ⟨id', timer', htimer', heq⟩ := hrest id timer htimer
        rw [← heq]
        exact hs.quiet _ (.inr ⟨id', timer', htimer', rfl⟩)
    cases called with
    | none => exact ⟨hquiet, hs.spared⟩
    | some a =>
      refine ⟨hquiet.changes (TimedReader.changes_purge s.timed a) (by simp), fun p hp => ?_⟩
      rcases List.mem_append.1 hp with hp | hp
      · exact hs.spared p hp
      · rw [List.mem_singleton.1 hp]
        exact hs.quiet a (.inr (hcalled a rfl))

def start (reader : DataReader Foo) : PurgingReader Foo := ⟨⟨reader, []⟩, TimerTask.new, []⟩

theorem safe_start (reader : DataReader Foo) : (start reader).Safe := by
  refine ⟨?_, nofun⟩
  rintro a (ha | ⟨id, timer, htimer, -⟩)
  · cases ha
  · cases htimer

/-- In every run in which no sample with data arrives for an instance with a pending timer, a callback never removes a
sample of an instance that is alive. -/
theorem autopurge_spares_alive (setup : Setup Foo V) (readerGuid : Guid) (reader : DataReader Foo)
    (steps : List PurgeStep) (t : PurgingReader Foo)
    (hok : AllSteps (PurgeStep.step setup readerGuid) Meets (start reader) steps)
    (hrun : run (PurgeStep.step setup readerGuid) (start reader) steps = some t) :
    ∀ p ∈ t.purges, p.wasAlive = true → p.removed = [] := by
  have hsafe : t.Safe := by
    refine run_invariant_of_allSteps ?_ (safe_start reader) hok hrun
    intro s m s' hs hm hstep
    obtain rfl := Option.some.inj hstep
    exact safe_perform hs hm
  intro p hp halive
  rw [hsafe.spared p hp] at halive
  simp at halive

/-! ## A rebirth under a pending timer -/

/-- Octet strings; the samples of a disposed instance are purged after one second. -/
def purgedOctets : Setup Bytes Unit := { octets with autopurgeDisposedSamplesDelay := ⟨1, 0⟩ }

def keepsAll : DataReader Bytes :=
  .created (.new .reliable .keepAll (-1) (-1) (-1) true .shared .byReceptionTimestamp) []

def arriveKind (kind : ChangeKind) (sequenceNumber : Int) : PurgeStep :=
  .arrival .plain (.new kind ⟨1, 2⟩ ⟨7, true⟩ sequenceNumber [1] (some ⟨5, 0⟩)) true

/-- The instance is written and disposed, and purged after a second. -/
theorem autopurge_spares_alive_disposed :
    ∃ t, run (PurgeStep.step purgedOctets ⟨3, 4⟩) (start keepsAll)
        [arriveKind .alive 1, arriveKind .notAliveDisposed 2, .processMessages 0, .expire 2000000000 2000000000] =
          some t ∧
      (t.purges.map (fun p => (p.wasAlive, p.removed.map CacheChange.sequenceNumber)) = [(false, [1, 2])]) ∧
      ∀ p ∈ t.purges, p.wasAlive = true → p.removed = [] := by
  have hok : AllSteps (PurgeStep.step purgedOctets ⟨3, 4⟩) Meets (start keepsAll)
      [arriveKind .alive 1, arriveKind .notAliveDisposed 2, .processMessages 0, .expire 2000000000 2000000000] := by
    refine ⟨?_, fun s hs => ⟨?_, fun _ _ => ⟨trivial, fun _ _ => ⟨trivial, fun _ _ => trivial⟩⟩⟩⟩
    · rintro c - - a (ha | ⟨id, timer, htimer, -⟩)
      · cases ha
      · cases htimer
    · intro c hc hvalid
      obtain rfl := Except.ok.inj hc
      cases hvalid
  exact ⟨_, rfl, by decide +kernel, autopurge_spares_alive purgedOctets ⟨3, 4⟩ keepsAll _ _ hok rfl⟩

/-- Written, disposed and written again within the second: the callback removes the samples. -/
theorem autopurge_removes_reborn :
    ∃ t, run (PurgeStep.step purgedOctets ⟨3, 4⟩) (start keepsAll)
        [arriveKind .alive 1, arriveKind .notAliveDisposed 2, .processMessages 0, arriveKind .alive 3,
          .expire 2000000000 2000000000] = some t ∧
      t.purges.map (fun p => (p.wasAlive, p.removed.map CacheChange.sequenceNumber)) = [(true, [1, 2, 3])] :=
  ⟨_, rfl, by decide +kernel⟩

end PurgingReader

end Int2Dds.Subscription
