import Int2Dds.Rtps.Common
import Mathlib.Data.List.AList

/-!
# Matching endpoints whose types are not known yet

A writer and a reader are matched when their types agree. While a TypeObject is still missing the answer is to wait; it
is waited for `TYPE_LOOKUP_MATCH_TIMEOUT`, and then the names of the types decide. The start of the wait is noted for
the remote endpoint, although the answer is for one pair: whatever answer a sibling gets takes the note away.

* `openSince_iff_waited` : a note says since when the remote endpoint has waited without an answer.
* `never_deferred_again_iff` : the names decide in the end exactly if no sibling is answered meanwhile, and
  `sibling_deferred_again` is a run in which one is.
-/

namespace Int2Dds.Discovery
open Rtps List

/-- The result of `evaluate_structural_compatibility`. -/
inductive TypeCompatibility
  | compatible
  | incompatible (reason : String)
  | indeterminate
deriving DecidableEq

/-- The error of a rejection has the code `QosIncompatible`. -/
inductive MatchDecision
  | match'
  | reject (message : String)
  | defer
deriving DecidableEq

inductive TypeConsistencyKind
  | disallowTypeCoercion
  | allowTypeCoercion
deriving DecidableEq

structure TypeConsistencyEnforcement where
  kind : TypeConsistencyKind
  ignoreSequenceBounds : Bool
  ignoreStringBounds : Bool
  ignoreMemberNames : Bool
  preventTypeWidening : Bool
  forceTypeValidation : Bool
deriving DecidableEq

structure Publication (T O : Type*) where
  endpointGuid : Guid
  topicName : String
  typeName : String
  typeIdentifier : Option T
  typeObject : Option O

structure Subscription (T O : Type*) where
  endpointGuid : Guid
  topicName : String
  typeName : String
  typeIdentifier : Option T
  typeObject : Option O
  typeConsistencyEnforcement : TypeConsistencyEnforcement

/-- When the wait for a remote endpoint has begun, in nanoseconds. -/
abbrev DeferredTypeMatches := AList (fun _ : Guid => Nat)

def typeLookupMatchTimeout : Nat := 5 * 10 ^ 9

/-- What decides when the TypeObject never arrived. -/
def typeNameRule (forceValidation namesEqual : Bool) : MatchDecision :=
  if forceValidation then .reject "[Type resolution timed out with force_type_validation]"
  else if !namesEqual then .reject "[Type resolution timed out with different type names]"
  else .match'

def decideDeferred (deferred : DeferredTypeMatches) (remoteGuid : Guid) (forceValidation namesEqual : Bool)
    (now : Nat) :
    MatchDecision × DeferredTypeMatches :=
  match deferred.lookup remoteGuid with
  | some started =>
    if now - started < typeLookupMatchTimeout then (.defer, deferred)
    else (typeNameRule forceValidation namesEqual, deferred.erase remoteGuid)
  | none => (.defer, deferred.insert remoteGuid now)

section Matching

variable {T O R : Type*}
variable (evaluate : Option T → Option T → Option O → Option O → TypeConsistencyEnforcement → R → TypeCompatibility)

/-- The answer for a writer and a reader, one of them remote. Without a registry nothing is decided. -/
def evaluateTypeMatch (deferred : DeferredTypeMatches) (offered : Publication T O) (requested : Subscription T O)
    (remoteGuid : Guid) (registry : Option R) (now : Nat) : MatchDecision × DeferredTypeMatches :=
  let namesEqual := decide (offered.typeName = requested.typeName)
  if (offered.typeIdentifier.isNone || requested.typeIdentifier.isNone) && !namesEqual then
    (.reject "[Type name mismatch]", deferred)
  else
    match registry with
    | none => (.defer, deferred)
    | some registry =>
      match evaluate offered.typeIdentifier requested.typeIdentifier offered.typeObject requested.typeObject
          requested.typeConsistencyEnforcement registry with
      | .compatible => (.match', deferred.erase remoteGuid)
      | .incompatible reason => (.reject s!"[Type compatibility failed: {reason}]", deferred.erase remoteGuid)
      | .indeterminate =>
        decideDeferred deferred remoteGuid requested.typeConsistencyEnforcement.forceTypeValidation namesEqual now

/-! ## Attempts -/

/-- An attempt to match a local endpoint with a remote one. -/
structure Attempt (T O R : Type*) where
  offered : Publication T O
  requested : Subscription T O
  /-- The writer is the remote endpoint. -/
  writerIsRemote : Bool
  registry : Option R
  now : Nat

namespace Attempt

def remoteGuid (a : Attempt T O R) : Guid :=
  if a.writerIsRemote then a.offered.endpointGuid else a.requested.endpointGuid

def localGuid (a : Attempt T O R) : Guid :=
  if a.writerIsRemote then a.requested.endpointGuid else a.offered.endpointGuid

def outcome (a : Attempt T O R) : Option TypeCompatibility :=
  if (a.offered.typeIdentifier.isNone || a.requested.typeIdentifier.isNone) &&
      !decide (a.offered.typeName = a.requested.typeName) then none
  else a.registry.map (evaluate a.offered.typeIdentifier a.requested.typeIdentifier a.offered.typeObject
    a.requested.typeObject a.requested.typeConsistencyEnforcement)

def nameRule (a : Attempt T O R) : MatchDecision :=
  typeNameRule a.requested.typeConsistencyEnforcement.forceTypeValidation
    (decide (a.offered.typeName = a.requested.typeName))

def answer (a : Attempt T O R) (deferred : DeferredTypeMatches) : MatchDecision × DeferredTypeMatches :=
  evaluateTypeMatch evaluate deferred a.offered a.requested a.remoteGuid a.registry a.now

end Attempt

def answers : DeferredTypeMatches → List (Attempt T O R) → List (Attempt T O R × MatchDecision)
  | _, [] => []
  | deferred, a :: attempts => (a, (a.answer evaluate deferred).1) :: answers (a.answer evaluate deferred).2 attempts

/-! ## Events -/

/-- The endpoints a participant has and knows, each local one with a lease. -/
structure Participant (T O : Type*) where
  readers : List (Subscription T O)
  writers : List (Publication T O)
  remotePublications : List (Publication T O)
  remoteSubscriptions : List (Subscription T O)

inductive Event (T O : Type*)
  /-- A remote writer is announced. -/
  | publication (data : Publication T O)
  | subscription (data : Subscription T O)
  /-- A local reader is created. -/
  | reader (data : Subscription T O)
  | writer (data : Publication T O)
  /-- A TypeLookup reply of a participant came, or the timer of a deferred match fired. -/
  | reMatchResolvedTypes (remotePrefix : BitVec 96)

/-- The pairs that are tried, in order; with each, whether the writer is the remote endpoint. -/
def Participant.pairs (p : Participant T O) : Event T O → List (Publication T O × Subscription T O × Bool)
  | .publication data => (p.readers.filter fun r => r.topicName = data.topicName).map fun r => (data, r, true)
  | .subscription data => (p.writers.filter fun w => w.topicName = data.topicName).map fun w => (w, data, false)
  | .reader data =>
    (p.remotePublications.filter fun w => w.topicName = data.topicName).map fun w => (w, data, true)
  | .writer data =>
    (p.remoteSubscriptions.filter fun r => r.topicName = data.topicName).map fun r => (data, r, false)
  | .reMatchResolvedTypes remotePrefix =>
    ((p.remotePublications.filter fun w => w.endpointGuid.guidPrefix = remotePrefix).flatMap fun w =>
      (p.readers.filter fun r => r.topicName = w.topicName).map fun r => (w, r, true)) ++
    ((p.remoteSubscriptions.filter fun r => r.endpointGuid.guidPrefix = remotePrefix).flatMap fun r =>
      (p.writers.filter fun w => w.topicName = r.topicName).map fun w => (w, r, false))

/-- An event, in the state of the participant it meets: each attempt has its own registry and time. -/
structure Round (T O R : Type*) where
  participant : Participant T O
  event : Event T O
  /-- Topic kind, QoS and partitions agree: `validate_endpoint_compatibility` gets to the types. -/
  compatible : Publication T O → Subscription T O → Bool
  registry : Nat → Option R
  clock : Nat → Nat

def Round.attempts (r : Round T O R) : List (Attempt T O R) :=
  ((r.participant.pairs r.event).filter fun pair => r.compatible pair.1 pair.2.1).mapIdx fun i pair =>
    { offered := pair.1
      requested := pair.2.1
      writerIsRemote := pair.2.2
      registry := r.registry i
      now := r.clock i }

/-- The attempts of the events of a run, with their answers. -/
def history (rounds : List (Round T O R)) : List (Attempt T O R × MatchDecision) :=
  answers evaluate ∅ (rounds.flatMap Round.attempts)

/-! ## The note of a remote endpoint -/

def deferredAfter (deferred : DeferredTypeMatches) (attempts : List (Attempt T O R)) : DeferredTypeMatches :=
  attempts.foldl (fun deferred a => (a.answer evaluate deferred).2) deferred

/-- Since when the answers make the remote endpoint wait: the first `Defer` after the last answer that was none. -/
def openSince (remoteGuid : Guid) (start : Option Nat) (log : List (Attempt T O R × MatchDecision)) : Option Nat :=
  log.foldl (fun since x =>
    if x.1.remoteGuid = remoteGuid ∧ (x.1.outcome evaluate).isSome then
      if x.2 = .defer then some (since.getD x.1.now) else none
    else since) start

/-- An attempt that looks at the types, by what they say. -/
inductive Answers (a : Attempt T O R) (deferred : DeferredTypeMatches) :
    MatchDecision × DeferredTypeMatches → Prop
  | unseen {d : MatchDecision} (outcome : a.outcome evaluate = none) : Answers a deferred (d, deferred)
  | decided {c : TypeCompatibility} {d : MatchDecision} (outcome : a.outcome evaluate = some c)
      (determinate : c ≠ .indeterminate) (answered : d ≠ .defer) : Answers a deferred (d, deferred.erase a.remoteGuid)
  | started (outcome : a.outcome evaluate = some .indeterminate) (unnoted : deferred.lookup a.remoteGuid = none) :
      Answers a deferred (.defer, deferred.insert a.remoteGuid a.now)
  | waiting {started : Nat} (outcome : a.outcome evaluate = some .indeterminate)
      (noted : deferred.lookup a.remoteGuid = some started) (early : a.now - started < typeLookupMatchTimeout) :
      Answers a deferred (.defer, deferred)
  | expired {started : Nat} (outcome : a.outcome evaluate = some .indeterminate)
      (noted : deferred.lookup a.remoteGuid = some started) (late : typeLookupMatchTimeout ≤ a.now - started) :
      Answers a deferred (a.nameRule, deferred.erase a.remoteGuid)

variable {evaluate} (a : Attempt T O R) (deferred : DeferredTypeMatches)

theorem answers_answer : Answers evaluate a deferred (a.answer evaluate deferred) := by
  unfold Attempt.answer evaluateTypeMatch
  by_cases hnames : ((a.offered.typeIdentifier.isNone || a.requested.typeIdentifier.isNone) &&
      !decide (a.offered.typeName = a.requested.typeName)) = true
  · rw [if_pos hnames]
    exact .unseen (if_pos hnames)
  rw [if_neg hnames]
  cases hreg : a.registry with
  | none =>
    apply Answers.unseen
    unfold Attempt.outcome
    rw [if_neg hnames, hreg]
    rfl
  | some registry =>
    dsimp only
    have houtcome : a.outcome evaluate = some (evaluate a.offered.typeIdentifier a.requested.typeIdentifier
        a.offered.typeObject a.requested.typeObject a.requested.typeConsistencyEnforcement registry) := by
      unfold Attempt.outcome
      rw [if_neg hnames, hreg]
      rfl
    cases hc : evaluate a.offered.typeIdentifier a.requested.typeIdentifier a.offered.typeObject
        a.requested.typeObject a.requested.typeConsistencyEnforcement registry with
    | compatible | incompatible =>
      rw [hc] at houtcome
      exact .decided houtcome (by simp) (by simp)
    | indeterminate =>
      rw [hc] at houtcome
      unfold decideDeferred
      cases hnote : deferred.lookup a.remoteGuid with
      | none => exact .started houtcome hnote
      | some started =>
        dsimp only
        by_cases hearly : a.now - started < typeLookupMatchTimeout
        · rw [if_pos hearly]
          exact .waiting houtcome hnote hearly
        · rw [if_neg hearly]
          exact .expired houtcome hnote (not_lt.1 hearly)

theorem nameRule_ne_defer : a.nameRule ≠ .defer := by
  unfold Attempt.nameRule typeNameRule
  split_ifs <;> simp

theorem map_fst_answers (attempts : List (Attempt T O R)) :
    (answers evaluate deferred attempts).map Prod.fst = attempts := by
  induction attempts generalizing deferred with
  | nil => rfl
  | cons a attempts ih => exact congrArg (a :: ·) (ih _)

variable {attempts : List (Attempt T O R)}

theorem answers_split {deferred : DeferredTypeMatches}
    {before after : List (Attempt T O R × MatchDecision)} {a : Attempt T O R} {d : MatchDecision}
    (h : answers evaluate deferred attempts = before ++ (a, d) :: after) :
    before = answers evaluate deferred (before.map Prod.fst) ∧
      d = (a.answer evaluate (deferredAfter evaluate deferred (before.map Prod.fst))).1 := by
  induction before generalizing deferred attempts with
  | nil =>
    cases attempts with
    | nil => simp [answers] at h
    | cons b attempts =>
      obtain ⟨⟨rfl, rfl⟩, -⟩ := h
      exact ⟨rfl, rfl⟩
  | cons x before ih =>
    cases attempts with
    | nil => simp [answers] at h
    | cons b attempts =>
      simp only [answers, cons_append, cons.injEq] at h
      obtain ⟨rfl, h⟩ := h
      obtain ⟨hbefore, hd⟩ := ih h
      refine ⟨?_, hd⟩
      simp only [map_cons, answers, cons.injEq, true_and]
      exact hbefore

variable {remoteGuid : Guid} {x : Attempt T O R × MatchDecision}

theorem openSince_concat (start : Option Nat) (log : List (Attempt T O R × MatchDecision)) :
    openSince evaluate remoteGuid start (log ++ [x]) =
      if x.1.remoteGuid = remoteGuid ∧ (x.1.outcome evaluate).isSome then
        if x.2 = .defer then some ((openSince evaluate remoteGuid start log).getD x.1.now) else none
      else openSince evaluate remoteGuid start log := by
  unfold openSince
  rw [foldl_append]
  rfl

theorem lookup_answer :
    (a.answer evaluate deferred).2.lookup remoteGuid =
      if a.remoteGuid = remoteGuid ∧ (a.outcome evaluate).isSome then
        if (a.answer evaluate deferred).1 = .defer then some ((deferred.lookup remoteGuid).getD a.now) else none
      else deferred.lookup remoteGuid := by
  have hinv : Answers evaluate a deferred _ := answers_answer a deferred
  generalize a.answer evaluate deferred = res at hinv
  by_cases hremote : a.remoteGuid = remoteGuid
  · subst hremote
    cases hinv with
    | unseen outcome => simp [outcome]
    | decided outcome determinate answered => simp [outcome, answered]
    | started outcome unnoted => simp [outcome, unnoted]
    | waiting outcome noted early => simp [noted]
    | expired outcome noted late => simp [outcome, nameRule_ne_defer]
  · rw [if_neg (fun h => hremote h.1)]
    have hne : remoteGuid ≠ a.remoteGuid := fun h => hremote h.symm
    cases hinv with
    | unseen => rfl
    | decided | expired => exact AList.lookup_erase_ne hne
    | started => exact AList.lookup_insert_ne hne
    | waiting => rfl

theorem lookup_deferredAfter (attempts : List (Attempt T O R)) (remoteGuid : Guid) :
    (deferredAfter evaluate deferred attempts).lookup remoteGuid =
      openSince evaluate remoteGuid (deferred.lookup remoteGuid) (answers evaluate deferred attempts) := by
  induction attempts generalizing deferred with
  | nil => rfl
  | cons a attempts ih =>
    unfold answers
    rw [openSince, foldl_cons, ← lookup_answer]
    exact ih _

/-! ## Waiting long enough -/

variable (evaluate) in
/-- Some attempt for the remote endpoint was put off at least the timeout ago, and so was every later one that looked
at the types. -/
def Waited (log : List (Attempt T O R × MatchDecision)) (remoteGuid : Guid) (now : Nat) : Prop :=
  ∃ before b after, log = before ++ (b, MatchDecision.defer) :: after ∧ b.remoteGuid = remoteGuid ∧
    (b.outcome evaluate).isSome ∧ b.now + typeLookupMatchTimeout ≤ now ∧
    ∀ x ∈ after, x.1.remoteGuid = remoteGuid → (x.1.outcome evaluate).isSome → x.2 = .defer

variable {log : List (Attempt T O R × MatchDecision)} {remoteGuid : Guid}

theorem waited_concat {now : Nat} :
    Waited evaluate (log ++ [x]) remoteGuid now ↔
      if x.1.remoteGuid = remoteGuid ∧ (x.1.outcome evaluate).isSome then
        x.2 = .defer ∧ (x.1.now + typeLookupMatchTimeout ≤ now ∨ Waited evaluate log remoteGuid now)
      else Waited evaluate log remoteGuid now := by
  -- the last entry is the one that has waited, or comes after it
  have hsplit : Waited evaluate (log ++ [x]) remoteGuid now ↔
      (x.2 = .defer ∧ x.1.remoteGuid = remoteGuid ∧ (x.1.outcome evaluate).isSome ∧
        x.1.now + typeLookupMatchTimeout ≤ now) ∨
      (Waited evaluate log remoteGuid now ∧
        (x.1.remoteGuid = remoteGuid → (x.1.outcome evaluate).isSome → x.2 = .defer)) := by
    constructor
    · rintro ⟨before, b, after, hlog, hremote, hseen, hlate, hafter⟩
      rcases eq_nil_or_concat after with rfl | ⟨rest, y, rfl⟩
      · obtain ⟨rfl, hx⟩ := append_inj' hlog rfl
        obtain rfl := singleton_injective hx
        exact .inl ⟨rfl, hremote, hseen, hlate⟩
      · rw [concat_eq_append] at hlog hafter
        rw [← cons_append, ← append_assoc] at hlog
        obtain ⟨rfl, hx⟩ := append_inj' hlog rfl
        obtain rfl := singleton_injective hx
        refine .inr ⟨⟨before, b, rest, rfl, hremote, hseen, hlate, ?_⟩, hafter x (by simp)⟩
        exact fun y hy => hafter y (by simp [hy])
    · rintro (⟨hdefer, hremote, hseen, hlate⟩ | ⟨⟨before, b, after, rfl, hremote, hseen, hlate, hafter⟩, hx⟩)
      · obtain ⟨a, d⟩ := x
        obtain rfl : d = .defer := hdefer
        exact ⟨log, a, [], rfl, hremote, hseen, hlate, forall_mem_nil _⟩
      · refine ⟨before, b, after ++ [x], by simp, hremote, hseen, hlate, ?_⟩
        intro y hy
        rcases mem_append.1 hy with hy | hy
        · exact hafter y hy
        · obtain rfl := mem_singleton.1 hy
          exact hx
  split_ifs with hrel
  · tauto
  · tauto

theorem exists_of_openSince {since : Nat} (h : openSince evaluate remoteGuid none log = some since) :
    ∃ x ∈ log, x.1.now = since := by
  induction log using reverseRecOn with
  | nil => simp [openSince] at h
  | append_singleton log x ih =>
    rw [openSince_concat] at h
    split_ifs at h with hrel hdefer
    · cases hopen : openSince evaluate remoteGuid none log with
      | none =>
        rw [hopen] at h
        exact ⟨x, by simp, Option.some.inj h⟩
      | some since' =>
        rw [hopen] at h
        obtain rfl : since' = since := Option.some.inj h
        obtain ⟨y, hy, hnow⟩ := ih hopen
        exact ⟨y, by simp [hy], hnow⟩
    · obtain ⟨y, hy, hnow⟩ := ih h
      exact ⟨y, by simp [hy], hnow⟩

/-- The note is old enough exactly when the remote endpoint was waited for long enough. -/
theorem openSince_iff_waited {now : Nat} (hclock : (log.map fun x => x.1.now).Pairwise (· ≤ ·)) :
    (∃ since, openSince evaluate remoteGuid none log = some since ∧ since + typeLookupMatchTimeout ≤ now) ↔
      Waited evaluate log remoteGuid now := by
  induction log using reverseRecOn with
  | nil =>
    constructor
    · rintro ⟨since, h, -⟩
      simp [openSince] at h
    · rintro ⟨before, b, after, h, -⟩
      simp at h
  | append_singleton log x ih =>
    rw [map_append, pairwise_append] at hclock
    obtain ⟨hlog, -, hlast⟩ := hclock
    specialize ih hlog
    rw [waited_concat, openSince_concat]
    split_ifs with hrel hdefer
    · rw [← ih]
      cases hopen : openSince evaluate remoteGuid none log with
      | none => simp [hdefer]
      | some since =>
        -- the note is older than the last attempt
        obtain ⟨y, hy, rfl⟩ := exists_of_openSince hopen
        have hle : y.1.now ≤ x.1.now := hlast _ (mem_map_of_mem hy) _ (by simp)
        simp only [Option.getD_some, Option.some.injEq, exists_eq_left', hdefer, true_and]
        constructor
        · exact .inr
        · rintro (h | h)
          · omega
          · exact h
    · simp [hdefer]
    · exact ih

theorem answer_of_indeterminate {a : Attempt T O R}
    (hclock : ((answers evaluate ∅ attempts).map fun x => x.1.now).Pairwise (· ≤ ·))
    (hindet : a.outcome evaluate = some .indeterminate) :
    (a.answer evaluate (deferredAfter evaluate ∅ attempts)).1 = a.nameRule ↔
      Waited evaluate (answers evaluate ∅ attempts) a.remoteGuid a.now := by
  rw [← openSince_iff_waited hclock]
  have hnote : (deferredAfter evaluate ∅ attempts).lookup a.remoteGuid =
      openSince evaluate a.remoteGuid none (answers evaluate ∅ attempts) := lookup_deferredAfter ∅ attempts _
  rw [← hnote]
  have hne := nameRule_ne_defer a
  have hinv : Answers evaluate a (deferredAfter evaluate ∅ attempts) _ := answers_answer a _
  generalize a.answer evaluate (deferredAfter evaluate ∅ attempts) = res at hinv
  cases hinv with
  | unseen outcome => simp [outcome] at hindet
  | decided outcome determinate =>
    rw [outcome] at hindet
    exact absurd (Option.some.inj hindet) determinate
  | started outcome unnoted => simp [unnoted, hne.symm]
  | waiting outcome noted early =>
    simp only [noted, Option.some.injEq, hne.symm, false_iff]
    omega
  | expired outcome noted late =>
    simp only [noted, Option.some.injEq, exists_eq_left', true_iff]
    have hpos : 0 < typeLookupMatchTimeout := by decide
    omega

variable (evaluate)

/-- The types cannot be compared, and an attempt for the same pair was put off for that at least the timeout ago. -/
def Overdue (before : List (Attempt T O R × MatchDecision)) (a : Attempt T O R) : Prop :=
  a.outcome evaluate = some .indeterminate ∧
    ∃ b, (b, MatchDecision.defer) ∈ before ∧ b.localGuid = a.localGuid ∧ b.remoteGuid = a.remoteGuid ∧
      b.outcome evaluate = some .indeterminate ∧ b.now + typeLookupMatchTimeout ≤ a.now

/-- The type names decide every attempt that is overdue. -/
def NeverDeferredAgain (log : List (Attempt T O R × MatchDecision)) : Prop :=
  ∀ before a d after, log = before ++ (a, d) :: after → Overdue evaluate before a → d = a.nameRule

/-- Where an attempt is overdue, its remote endpoint was waited for all the time. -/
def SiblingsWait (log : List (Attempt T O R × MatchDecision)) : Prop :=
  ∀ before a d after, log = before ++ (a, d) :: after → Overdue evaluate before a →
    Waited evaluate before a.remoteGuid a.now

/-- **The type names decide in the end, if no sibling is answered meanwhile.** On a clock that does not go back, every
overdue attempt is answered by the type names if and only if at each of them the remote endpoint has waited, at least
the timeout long, without an answer to any attempt. -/
theorem never_deferred_again_iff (attempts : List (Attempt T O R))
    (hclock : (attempts.map Attempt.now).Pairwise (· ≤ ·)) :
    NeverDeferredAgain evaluate (answers evaluate ∅ attempts) ↔
      SiblingsWait evaluate (answers evaluate ∅ attempts) := by
  -- at each attempt the two say the same
  have hiff : ∀ before a d after, answers evaluate ∅ attempts = before ++ (a, d) :: after →
      a.outcome evaluate = some .indeterminate → (d = a.nameRule ↔ Waited evaluate before a.remoteGuid a.now) := by
    intro before a d after hrun hindet
    obtain ⟨hbefore, rfl⟩ := answers_split hrun
    have hnow : (before.map fun x => x.1.now).Pairwise (· ≤ ·) := by
      rw [← map_fst_answers ∅ attempts, hrun, map_append, map_append, map_map] at hclock
      exact (pairwise_append.1 hclock).1
    rw [hbefore] at hnow
    have hanswer := answer_of_indeterminate hnow hindet
    rwa [← hbefore] at hanswer
  constructor
  · intro h before a d after hrun hover
    exact (hiff before a d after hrun hover.1).1 (h before a d after hrun hover)
  · intro h before a d after hrun hover
    exact (hiff before a d after hrun hover.1).2 (h before a d after hrun hover)

end Matching

/-! ## A pair that starves -/

def unresolved : Option Nat → Option Nat → Option Nat → Option Nat → TypeConsistencyEnforcement → Unit →
    TypeCompatibility :=
  fun _ _ _ _ _ _ => .indeterminate

def remoteWriter : Publication Nat Nat where
  endpointGuid := ⟨9, 0x102⟩
  topicName := "Square"
  typeName := "ShapeType"
  typeIdentifier := some 1
  typeObject := none

def localReader (entityId : BitVec 32) : Subscription Nat Nat where
  endpointGuid := ⟨1, entityId⟩
  topicName := "Square"
  typeName := "ShapeType"
  typeIdentifier := some 2
  typeObject := some 2
  typeConsistencyEnforcement := ⟨.allowTypeCoercion, true, true, false, false, false⟩

/-- The writer is announced at 0 s, and the timer fires at 5 s. -/
def announcedAndFired (readers : List (Subscription Nat Nat)) : List (Round Nat Nat Unit) :=
  let participant := ⟨readers, [], [remoteWriter], []⟩
  [⟨participant, .publication remoteWriter, fun _ _ => true, fun _ => some (), fun _ => 0⟩,
    ⟨participant, .reMatchResolvedTypes 9, fun _ _ => true, fun _ => some (), fun _ => 5 * 10 ^ 9⟩]

def tryAt (reader : Subscription Nat Nat) (now : Nat) : Attempt Nat Nat Unit :=
  ⟨remoteWriter, reader, true, some (), now⟩

/-- A second reader is created at 2 s, between the announcement and the timer. -/
def joinedMeanwhile : List (Round Nat Nat Unit) :=
  let late := localReader 7
  let participant := ⟨[localReader 4, late], [], [remoteWriter], []⟩
  (announcedAndFired [localReader 4]).take 1 ++
    [⟨participant, .reader late, fun _ _ => true, fun _ => some (), fun _ => 2 * 10 ^ 9⟩,
      ⟨participant, .reMatchResolvedTypes 9, fun _ _ => true, fun _ => some (), fun _ => 5 * 10 ^ 9⟩]

def joinedLog : List (Attempt Nat Nat Unit × MatchDecision) :=
  [(tryAt (localReader 4) 0, .defer), (tryAt (localReader 7) (2 * 10 ^ 9), .defer),
    (tryAt (localReader 4) (5 * 10 ^ 9), .match'), (tryAt (localReader 7) (5 * 10 ^ 9), .defer)]

/-- A sibling is put off meanwhile; the first reader is matched by name in the end. -/
theorem never_deferred_again_sibling :
    history unresolved joinedMeanwhile = joinedLog ∧
      NeverDeferredAgain unresolved (history unresolved joinedMeanwhile) := by
  have hlog : history unresolved joinedMeanwhile = joinedLog := rfl
  refine ⟨hlog, (never_deferred_again_iff unresolved _ (by decide +kernel)).2 ?_⟩
  intro before a d after hrun hover
  obtain ⟨-, b, hb, hlocal, -, -, hlate⟩ := hover
  rw [show answers unresolved ∅ _ = _ from hlog] at hrun
  rcases before with _ | ⟨x, _ | ⟨y, _ | ⟨z, _ | ⟨v, before⟩⟩⟩⟩
  · exact absurd hb not_mem_nil
  · -- the second reader has not been tried before
    obtain ⟨rfl, ⟨rfl, rfl⟩, rfl⟩ := hrun
    obtain rfl : b = tryAt (localReader 4) 0 := by simpa using hb
    exact absurd hlocal (by decide)
  · obtain ⟨rfl, rfl, ⟨rfl, rfl⟩, rfl⟩ := hrun
    exact ⟨[], _, [(tryAt (localReader 7) (2 * 10 ^ 9), .defer)], rfl, rfl, rfl, by decide, by decide⟩
  · -- and waits for three seconds only
    obtain ⟨rfl, rfl, rfl, ⟨rfl, rfl⟩, rfl⟩ := hrun
    simp only [mem_cons, Prod.mk.injEq, and_true, reduceCtorEq, and_false, not_mem_nil, or_false] at hb
    rcases hb with rfl | rfl
    · exact absurd hlocal (by decide)
    · exact absurd hlate (by decide)
  · simp [joinedLog] at hrun

/-- **A pair that starves.** Two readers wait for the type of a writer. The first is matched by name when the timer
fires; this takes the note away, and the second waits once more. -/
theorem sibling_deferred_again :
    ((announcedAndFired [localReader 4, localReader 7]).flatMap Round.attempts |>.map Attempt.now).Pairwise (· ≤ ·) ∧
      (history unresolved (announcedAndFired [localReader 4, localReader 7])).map Prod.snd =
        [.defer, .defer, .match', .defer] ∧
      ¬ NeverDeferredAgain unresolved (history unresolved (announcedAndFired [localReader 4, localReader 7])) := by
  refine ⟨by decide +kernel, by decide +kernel, ?_⟩
  intro h
  have hdefer := h
    [(tryAt (localReader 4) 0, .defer), (tryAt (localReader 7) 0, .defer),
      (tryAt (localReader 4) (5 * 10 ^ 9), .match')]
    (tryAt (localReader 7) (5 * 10 ^ 9)) .defer [] rfl
    ⟨rfl, tryAt (localReader 7) 0, by simp, rfl, rfl, rfl, by decide⟩
  exact nameRule_ne_defer _ hdefer.symm

end Int2Dds.Discovery
