import Int2Dds.Discovery.TypeMatch
import Int2Dds.Lib.Run
import Mathlib.Data.List.Perm.Basic
import Mathlib.Logic.Function.Basic

/-!
# The liveliness of remote writers

The readers of a participant count how many of their matched writers are alive and how many are not. A writer's state is
kept once; what happens to it is told, as a pair of differences, to every reader that is matched with it. Matching and
unmatching are told in the same way, although they concern one reader only.

* `counts_exact` : the counts are exact in every run whose steps meet their conditions.
* `match_counted_twice` : without them a reader counts a writer twice.
-/

namespace Int2Dds.Discovery
open Lib Rtps List Function

inductive WriterAliveState
  | alive
  | notAlive
deriving DecidableEq

/-- What a reader is told of a writer. -/
inductive LivelinessTransition
  | match'
  | lost
  | recovered
  | unmatchAlive
  | unmatchNotAlive
deriving DecidableEq

/-- The differences for the writers alive and those not alive. -/
def LivelinessTransition.deltas : LivelinessTransition → Int × Int
  | match' => (1, 0)
  | lost => (-1, 1)
  | recovered => (1, -1)
  | unmatchAlive => (-1, 0)
  | unmatchNotAlive => (0, -1)

structure LivelinessChangedStatus where
  aliveCount : Int
  notAliveCount : Int
  aliveCountChange : Int
  notAliveCountChange : Int
  lastPublicationHandle : Option Guid
deriving DecidableEq

structure LocalReader where
  matchedWriters : List Guid
  livelinessChangedStatus : LivelinessChangedStatus
deriving DecidableEq

namespace LocalReader

def new : LocalReader := ⟨[], ⟨0, 0, 0, 0, none⟩⟩

variable (r : LocalReader) (writerGuid : Guid)

def handleLivelinessChangedStatus (transition : LivelinessTransition) : LocalReader :=
  let status := r.livelinessChangedStatus
  { r with livelinessChangedStatus :=
      { aliveCount := max (status.aliveCount + transition.deltas.1) 0
        notAliveCount := max (status.notAliveCount + transition.deltas.2) 0
        aliveCountChange := status.aliveCountChange + transition.deltas.1
        notAliveCountChange := status.notAliveCountChange + transition.deltas.2
        lastPublicationHandle := some writerGuid } }

/-- A reader is told of the writers it is matched with. -/
def notify (transition : LivelinessTransition) : LocalReader :=
  if writerGuid ∈ r.matchedWriters then r.handleLivelinessChangedStatus writerGuid transition else r

def matchedWriterAdd : LocalReader := { r with matchedWriters := r.matchedWriters ++ [writerGuid] }

def retainOthers : LocalReader := { r with matchedWriters := r.matchedWriters.filter (· ≠ writerGuid) }

end LocalReader

/-- What a participant knows of the liveliness of remote writers. -/
structure WlpLogic where
  readers : Guid → LocalReader
  monitoredWriters : Guid → Option WriterAliveState
  /-- The trackers of the liveliness monitor; `false` when the lease has been found expired. -/
  writerTrackers : Guid → Option Bool

namespace WlpLogic

def new : WlpLogic := ⟨fun _ => .new, fun _ => none, fun _ => none⟩

variable (s : WlpLogic) (writerGuid : Guid)

def notifyReaders (transition : LivelinessTransition) : WlpLogic :=
  { s with readers := fun g => (s.readers g).notify writerGuid transition }

variable {transition : LivelinessTransition}

def registerMonitoredWriter : WlpLogic :=
  let s := { s with monitoredWriters := Function.update s.monitoredWriters writerGuid (some .alive) }
  let s := s.notifyReaders writerGuid .match'
  { s with writerTrackers := Function.update s.writerTrackers writerGuid (some true) }

def wasAlive : Bool := ((s.monitoredWriters writerGuid).map fun state => decide (state = .alive)).getD true

def deregisterMonitoredWriter : WlpLogic :=
  let wasAlive := s.wasAlive writerGuid
  let s := { s with monitoredWriters := Function.update s.monitoredWriters writerGuid none }
  let s := s.notifyReaders writerGuid (if wasAlive then .unmatchAlive else .unmatchNotAlive)
  { s with writerTrackers := Function.update s.writerTrackers writerGuid none }

/-- A remote writer is tried with a reader, stateful or stateless: `handle_stateful_reader_publication`. -/
def handleReaderPublication (readerGuid writerGuid : Guid) (decision : MatchDecision) : WlpLogic :=
  if writerGuid ∈ (s.readers readerGuid).matchedWriters then
    match decision with
    | .reject _ =>
      let s := s.deregisterMonitoredWriter writerGuid
      let reader := (s.readers readerGuid).retainOthers writerGuid
      { s with readers := Function.update s.readers readerGuid reader }
    | _ => s
  else
    match decision with
    | .match' =>
      let reader := (s.readers readerGuid).matchedWriterAdd writerGuid
      let s := { s with readers := Function.update s.readers readerGuid reader }
      s.registerMonitoredWriter writerGuid
    | _ => s

/-- The writer is gone: `cleanup_resources_for_remote_writer`. -/
def cleanupResourcesForRemoteWriter : WlpLogic :=
  let s := s.deregisterMonitoredWriter writerGuid
  { s with readers := fun g => (s.readers g).retainOthers writerGuid }

/-- The readers are told before the state is set. -/
def markMonitoredWriterLost : WlpLogic :=
  let s := s.notifyReaders writerGuid .lost
  let state := (s.monitoredWriters writerGuid).map fun _ => WriterAliveState.notAlive
  { s with monitoredWriters := Function.update s.monitoredWriters writerGuid state }

/-- The monitor finds a tracked writer's lease expired: `on_lease_expiration` is called and the tracker dropped, once.
-/
def leaseExpires : WlpLogic :=
  if s.writerTrackers writerGuid = some true then
    let s := { s with writerTrackers := Function.update s.writerTrackers writerGuid (some false) }
    let s := s.markMonitoredWriterLost writerGuid
    { s with writerTrackers := Function.update s.writerTrackers writerGuid none }
  else s

def markMonitoredWriterAlive : WlpLogic :=
  match s.monitoredWriters writerGuid with
  | none => s
  | some state =>
    let s := { s with monitoredWriters := Function.update s.monitoredWriters writerGuid (some .alive) }
    let s := if state = .notAlive then s.notifyReaders writerGuid .recovered else s
    { s with writerTrackers := Function.update s.writerTrackers writerGuid (some true) }

end WlpLogic

inductive LivelinessStep
  | publication (readerGuid writerGuid : Guid) (decision : MatchDecision)
  | writerRemoved (writerGuid : Guid)
  | leaseExpires (writerGuid : Guid)
  | asserted (writerGuid : Guid)

def LivelinessStep.perform (s : WlpLogic) : LivelinessStep → WlpLogic
  | publication readerGuid writerGuid decision => s.handleReaderPublication readerGuid writerGuid decision
  | writerRemoved writerGuid => s.cleanupResourcesForRemoteWriter writerGuid
  | leaseExpires writerGuid => s.leaseExpires writerGuid
  | asserted writerGuid => s.markMonitoredWriterAlive writerGuid

def LivelinessStep.step (s : WlpLogic) (m : LivelinessStep) : Option WlpLogic := some (m.perform s)

/-! ## Exact counts -/

def countIn (states : Guid → Option WriterAliveState) (x : WriterAliveState) (writers : List Guid) : Nat :=
  writers.countP fun w => decide (states w = some x)

variable {w : Guid} {writers : List Guid}

variable {states : Guid → Option WriterAliveState} {x : WriterAliveState}

theorem countIn_update_of_notMem (hw : w ∉ writers) (state : Option WriterAliveState) :
    countIn (update states w state) x writers = countIn states x writers := by
  apply countP_congr
  intro v hv
  have hne : v ≠ w := by
    intro heq
    exact hw (heq ▸ hv)
  rw [update_of_ne hne]

theorem countIn_eq_erase (hw : w ∈ writers) :
    countIn states x writers = countIn states x (writers.erase w) + if states w = some x then 1 else 0 := by
  unfold countIn
  rw [(perm_cons_erase hw).countP_eq, countP_cons]
  simp

theorem countIn_update (states : Guid → Option WriterAliveState) (hd : writers.Nodup) (hw : w ∈ writers)
    (state : Option WriterAliveState) (x : WriterAliveState) :
    countIn (update states w state) x writers + (if states w = some x then 1 else 0) =
      countIn states x writers + if state = some x then 1 else 0 := by
  rw [countIn_eq_erase hw, countIn_eq_erase hw,
    countIn_update_of_notMem (hd.not_mem_erase) state, update_self]
  omega

/-- The counts are those of the matched writers, each of which is monitored. -/
structure Exact (states : Guid → Option WriterAliveState) (r : LocalReader) : Prop where
  nodup : r.matchedWriters.Nodup
  monitored : ∀ w ∈ r.matchedWriters, states w ≠ none
  alive : r.livelinessChangedStatus.aliveCount = countIn states .alive r.matchedWriters
  notAlive : r.livelinessChangedStatus.notAliveCount = countIn states .notAlive r.matchedWriters

namespace Exact

variable {states : Guid → Option WriterAliveState} {r : LocalReader} {w : Guid} (h : Exact states r)
include h

theorem of_notMem (hw : w ∉ r.matchedWriters) (state : Option WriterAliveState) : Exact (update states w state) r := by
  refine ⟨h.nodup, ?_, ?_, ?_⟩
  · intro v hv
    have hne : v ≠ w := by
      intro heq
      exact hw (heq ▸ hv)
    rw [update_of_ne hne]
    exact h.monitored v hv
  · rw [countIn_update_of_notMem hw]
    exact h.alive
  · rw [countIn_update_of_notMem hw]
    exact h.notAlive

theorem matched (hw : w ∉ r.matchedWriters) :
    Exact (update states w (some .alive)) ((r.matchedWriterAdd w).handleLivelinessChangedStatus w .match') := by
  have hold := h.of_notMem hw (some .alive)
  have hcount : ∀ x, countIn (update states w (some .alive)) x (r.matchedWriters ++ [w]) =
      countIn (update states w (some .alive)) x r.matchedWriters + if WriterAliveState.alive = x then 1 else 0 := by
    unfold countIn
    simp
  have halive := hold.alive
  have hnotAlive := hold.notAlive
  refine ⟨?_, ?_, ?_, ?_⟩
  · have hnodup := h.nodup.concat hw
    rwa [concat_eq_append] at hnodup
  · intro v hv
    rcases mem_append.1 hv with hv | hv
    · exact hold.monitored v hv
    · rw [mem_singleton.1 hv]
      simp
  · show max (r.livelinessChangedStatus.aliveCount + 1) 0 = (countIn _ _ (r.matchedWriters ++ [w]) : Int)
    rw [hcount, if_pos rfl]
    omega
  · show max (r.livelinessChangedStatus.notAliveCount + 0) 0 = (countIn _ _ (r.matchedWriters ++ [w]) : Int)
    rw [hcount, if_neg (by decide)]
    omega

variable {transition : LivelinessTransition}

theorem told {old new : WriterAliveState} (hw : w ∈ r.matchedWriters) (hold : states w = some old)
    (halive : transition.deltas.1 = (if new = .alive then 1 else 0) - (if old = .alive then 1 else 0))
    (hnotAlive : transition.deltas.2 = (if new = .notAlive then 1 else 0) - (if old = .notAlive then 1 else 0)) :
    Exact (update states w (some new)) (r.handleLivelinessChangedStatus w transition) := by
  have hcount := countIn_update states h.nodup hw (some new)
  rw [hold] at hcount
  simp only [Option.some.injEq] at hcount
  refine ⟨h.nodup, ?_, ?_, ?_⟩
  · intro v hv
    by_cases hv' : v = w
    · rw [hv']
      simp
    · rw [update_of_ne hv']
      exact h.monitored v hv
  · show max (r.livelinessChangedStatus.aliveCount + transition.deltas.1) 0 = (countIn _ _ r.matchedWriters : Int)
    have := hcount .alive
    rw [h.alive]
    split_ifs at * <;> omega
  · show max (r.livelinessChangedStatus.notAliveCount + transition.deltas.2) 0 = (countIn _ _ r.matchedWriters : Int)
    have := hcount .notAlive
    rw [h.notAlive]
    split_ifs at * <;> omega

theorem unmatched {old : WriterAliveState} (hw : w ∈ r.matchedWriters) (hold : states w = some old)
    (halive : transition.deltas.1 = - (if old = .alive then 1 else 0))
    (hnotAlive : transition.deltas.2 = - (if old = .notAlive then 1 else 0)) :
    Exact (update states w none) ((r.handleLivelinessChangedStatus w transition).retainOthers w) := by
  have hothers : r.matchedWriters.filter (· ≠ w) = r.matchedWriters.erase w := by
    rw [h.nodup.erase_eq_filter]
    apply filter_congr
    intro v _
    by_cases hv : v = w <;> simp [hv]
  have hcount : ∀ x, countIn states x r.matchedWriters =
      countIn (update states w none) x (r.matchedWriters.filter (· ≠ w)) + if old = x then 1 else 0 := by
    intro x
    rw [hothers, countIn_update_of_notMem h.nodup.not_mem_erase, countIn_eq_erase hw, hold]
    simp
  refine ⟨h.nodup.filter _, ?_, ?_, ?_⟩
  · intro v hv
    obtain ⟨hv, hne⟩ := mem_filter.1 hv
    rw [update_of_ne (of_decide_eq_true hne)]
    exact h.monitored v hv
  · show max (r.livelinessChangedStatus.aliveCount + transition.deltas.1) 0 =
      (countIn _ _ (r.matchedWriters.filter _) : Int)
    have := hcount .alive
    rw [h.alive]
    split_ifs at * <;> omega
  · show max (r.livelinessChangedStatus.notAliveCount + transition.deltas.2) 0 =
      (countIn _ _ (r.matchedWriters.filter _) : Int)
    have := hcount .notAlive
    rw [h.notAlive]
    split_ifs at * <;> omega

end Exact

/-! ## The participant -/

namespace WlpLogic

/-- The readers count right, and a writer whose lease runs is alive. -/
structure Consistent (s : WlpLogic) : Prop where
  exact : ∀ g, Exact s.monitoredWriters (s.readers g)
  tracked : ∀ w, s.writerTrackers w = some true → s.monitoredWriters w = some .alive

theorem consistent_new : Consistent new :=
  ⟨fun _ => ⟨nodup_nil, nofun, rfl, rfl⟩, fun _ h => by simp [new] at h⟩

def OnlyReader (s : WlpLogic) (readerGuid writerGuid : Guid) : Prop :=
  ∀ g, g ≠ readerGuid → writerGuid ∉ (s.readers g).matchedWriters

/-- A match is made, or dropped, only with a writer that no other reader is matched with. -/
def Meets (s : WlpLogic) : LivelinessStep → Prop
  | .publication readerGuid writerGuid .match' =>
    writerGuid ∉ (s.readers readerGuid).matchedWriters → s.OnlyReader readerGuid writerGuid
  | .publication readerGuid writerGuid (.reject _) =>
    writerGuid ∈ (s.readers readerGuid).matchedWriters → s.OnlyReader readerGuid writerGuid
  | _ => True

variable {w : Guid} {s : WlpLogic}

theorem retainOthers_of_notMem {r : LocalReader} (h : w ∉ r.matchedWriters) : r.retainOthers w = r := by
  unfold LocalReader.retainOthers
  have hall : r.matchedWriters.filter (· ≠ w) = r.matchedWriters := by
    rw [filter_eq_self]
    intro v hv
    simp only [decide_eq_true_eq]
    intro heq
    exact h (heq ▸ hv)
  rw [hall]

theorem Consistent.deregistered (hs : Consistent s) {g : Guid} (hw : w ∈ (s.readers g).matchedWriters) :
    Exact (update s.monitoredWriters w none)
      (((s.deregisterMonitoredWriter w).readers g).retainOthers w) := by
  have hreader : (s.deregisterMonitoredWriter w).readers g = (s.readers g).handleLivelinessChangedStatus w
      (if s.wasAlive w then .unmatchAlive else .unmatchNotAlive) := if_pos hw
  rw [hreader]
  obtain ⟨state, hstate⟩ := Option.ne_none_iff_exists'.1 ((hs.exact g).monitored w hw)
  unfold wasAlive
  rw [hstate]
  cases state with
  | alive | notAlive => exact (hs.exact g).unmatched hw hstate rfl rfl

theorem deregistered_of_notMem {g : Guid} (hw : w ∉ (s.readers g).matchedWriters) :
    (s.deregisterMonitoredWriter w).readers g = s.readers g := if_neg hw

section

variable (hs : Consistent s)
include hs

theorem Consistent.tracked_update {tracker : Option Bool} {state : Option WriterAliveState}
    (h : tracker = some true → state = some .alive) {v : Guid} (hv : update s.writerTrackers w tracker v = some true) :
    update s.monitoredWriters w state v = some .alive := by
  by_cases hvw : v = w
  · subst hvw
    rw [update_self] at hv ⊢
    exact h hv
  · rw [update_of_ne hvw] at hv ⊢
    exact hs.tracked v hv

theorem consistent_handleReaderPublication {readerGuid writerGuid : Guid} {decision : MatchDecision}
    (hmeets : s.Meets (.publication readerGuid writerGuid decision)) :
    Consistent (s.handleReaderPublication readerGuid writerGuid decision) := by
  unfold handleReaderPublication
  by_cases hw : writerGuid ∈ (s.readers readerGuid).matchedWriters
  · rw [if_pos hw]
    cases decision with
    | match' => exact hs
    | defer => exact hs
    | reject message =>
      have honly := hmeets hw
      refine ⟨fun g => ?_, fun v hv => hs.tracked_update (by simp) hv⟩
      by_cases hg : g = readerGuid
      · subst hg
        dsimp only
        rw [update_self]
        exact hs.deregistered hw
      · dsimp only
        rw [update_of_ne hg, deregistered_of_notMem (honly g hg)]
        exact (hs.exact g).of_notMem (honly g hg) none
  · rw [if_neg hw]
    cases decision with
    | reject message => exact hs
    | defer => exact hs
    | match' =>
      have honly := hmeets hw
      refine ⟨fun g => ?_, fun v hv => hs.tracked_update (fun _ => rfl) hv⟩
      unfold registerMonitoredWriter notifyReaders
      dsimp only
      by_cases hg : g = readerGuid
      · subst hg
        rw [update_self, LocalReader.notify, if_pos (by simp [LocalReader.matchedWriterAdd])]
        exact (hs.exact g).matched hw
      · rw [update_of_ne hg, LocalReader.notify, if_neg (honly g hg)]
        exact (hs.exact g).of_notMem (honly g hg) _

theorem consistent_cleanupResourcesForRemoteWriter : Consistent (s.cleanupResourcesForRemoteWriter w) := by
  refine ⟨fun g => ?_, fun v hv => hs.tracked_update (by simp) hv⟩
  by_cases hw : w ∈ (s.readers g).matchedWriters
  · exact hs.deregistered hw
  · show Exact _ (((s.deregisterMonitoredWriter w).readers g).retainOthers w)
    rw [deregistered_of_notMem hw, retainOthers_of_notMem hw]
    exact (hs.exact g).of_notMem hw none

theorem Consistent.notified {old new : WriterAliveState} (hold : s.monitoredWriters w = some old)
    {transition : LivelinessTransition}
    (halive : transition.deltas.1 = (if new = .alive then 1 else 0) - (if old = .alive then 1 else 0))
    (hnotAlive : transition.deltas.2 = (if new = .notAlive then 1 else 0) - (if old = .notAlive then 1 else 0))
    (g : Guid) : Exact (update s.monitoredWriters w (some new)) ((s.notifyReaders w transition).readers g) := by
  unfold notifyReaders LocalReader.notify
  dsimp only
  split_ifs with hw
  · exact (hs.exact g).told hw hold halive hnotAlive
  · exact (hs.exact g).of_notMem hw _

theorem consistent_leaseExpires : Consistent (s.leaseExpires w) := by
  unfold leaseExpires
  split_ifs with htracked
  · have hstate := hs.tracked w htracked
    unfold markMonitoredWriterLost
    simp only [notifyReaders, hstate, update_idem]
    exact ⟨fun g => hs.notified hstate rfl rfl g, fun v hv => hs.tracked_update (by simp) hv⟩
  · exact hs

theorem consistent_markMonitoredWriterAlive : Consistent (s.markMonitoredWriterAlive w) := by
  unfold markMonitoredWriterAlive
  cases hstate : s.monitoredWriters w with
  | none => exact hs
  | some state =>
    cases state with
    | alive =>
      have hsame : update s.monitoredWriters w (some .alive) = s.monitoredWriters := by
        rw [← hstate, update_eq_self]
      refine ⟨fun g => ?_, fun v hv => hs.tracked_update (fun _ => rfl) hv⟩
      rw [hsame]
      exact hs.exact g
    | notAlive =>
      refine ⟨fun g => hs.notified hstate rfl rfl g, fun v hv => hs.tracked_update (fun _ => rfl) hv⟩

end

/-- **The counts are exact.** If matches are made and dropped only with writers that no other reader is matched with,
a reader's counts are always the numbers of its matched writers that are alive and that are not. -/
theorem counts_exact (steps : List LivelinessStep) (s : WlpLogic) (hok : AllSteps LivelinessStep.step Meets new steps)
    (hrun : run LivelinessStep.step new steps = some s) (g : Guid) :
    (s.readers g).livelinessChangedStatus.aliveCount = countIn s.monitoredWriters .alive (s.readers g).matchedWriters ∧
      (s.readers g).livelinessChangedStatus.notAliveCount =
        countIn s.monitoredWriters .notAlive (s.readers g).matchedWriters ∧
      ∀ w ∈ (s.readers g).matchedWriters, s.monitoredWriters w ≠ none := by
  have hs : Consistent s := by
    refine run_invariant_of_allSteps (I := Consistent) ?_ consistent_new hok hrun
    intro s m s' hs hm hstep
    obtain rfl := Option.some.inj hstep
    cases m with
    | publication readerGuid writerGuid decision => exact consistent_handleReaderPublication hs hm
    | writerRemoved writerGuid => exact consistent_cleanupResourcesForRemoteWriter hs
    | leaseExpires writerGuid => exact consistent_leaseExpires hs
    | asserted writerGuid => exact consistent_markMonitoredWriterAlive hs
  exact ⟨(hs.exact g).alive, (hs.exact g).notAlive, (hs.exact g).monitored⟩

def twoWriters : List LivelinessStep :=
  [.publication ⟨1, 7⟩ ⟨2, 3⟩ .match', .publication ⟨1, 7⟩ ⟨2, 4⟩ .match', .leaseExpires ⟨2, 3⟩]

theorem counts_exact_twoWriters :
    ∃ s, run LivelinessStep.step new twoWriters = some s ∧ (s.readers ⟨1, 7⟩).matchedWriters = [⟨2, 3⟩, ⟨2, 4⟩] ∧
      (s.readers ⟨1, 7⟩).livelinessChangedStatus.aliveCount = 1 ∧
      (s.readers ⟨1, 7⟩).livelinessChangedStatus.notAliveCount = 1 := by
  have hok : AllSteps LivelinessStep.step Meets new twoWriters := by
    refine ⟨fun _ _ _ => by simp [new, LocalReader.new], fun s hs => ⟨fun _ g hg => ?_, ?_⟩⟩
    rotate_left
    · exact fun _ _ => ⟨trivial, fun _ _ => trivial⟩
    cases hs
    change _ ∉ (LocalReader.notify (update new.readers _ _ g) _ _).matchedWriters
    rw [update_of_ne hg]
    simp [new, LocalReader.new, LocalReader.notify]
  obtain ⟨halive, hnotAlive, -⟩ := counts_exact twoWriters _ hok rfl ⟨1, 7⟩
  exact ⟨_, rfl, by decide +kernel, halive.trans (by decide +kernel), hnotAlive.trans (by decide +kernel)⟩

/-- **Told of another's match.** Of two readers matched with one writer, the first counts two writers that are alive. -/
theorem match_counted_twice :
    ∃ s, run LivelinessStep.step new [.publication ⟨1, 7⟩ ⟨2, 3⟩ .match', .publication ⟨1, 8⟩ ⟨2, 3⟩ .match'] = some s ∧
      (s.readers ⟨1, 7⟩).matchedWriters = [⟨2, 3⟩] ∧ s.monitoredWriters ⟨2, 3⟩ = some .alive ∧
      (s.readers ⟨1, 7⟩).livelinessChangedStatus.aliveCount = 2 :=
  ⟨_, rfl, by decide +kernel, by decide +kernel, by decide +kernel⟩

end WlpLogic

end Int2Dds.Discovery
