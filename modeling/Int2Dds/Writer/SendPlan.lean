import Int2Dds.History.CacheChange
import Int2Dds.Lib.OrdList

/-!
# What a reliable writer sends to a reader

One pass of `send_unsent_changes_of_stateful_writer` plans what a reader has not been sent: DATA for a change, GAP for
numbers that are no longer held, and GAP for the changes of a coherent set that the reader can no longer get in full.
For the last the pass moves the reader's irrelevant horizon while it is planning.
-/

namespace Int2Dds.Sending
open Lib Rtps List OrdList
open History (CacheChange)

/-- The changes of a writer. `SEQUENCENUMBER_UNKNOWN` is the number of none of them. -/
structure WriterHistoryCache where
  changes : OrdList CacheChange.sequenceNumber
  known : ∀ c ∈ changes, c.sequenceNumber ≠ snUnknown

namespace WriterHistoryCache

def getChange (h : WriterHistoryCache) (seqNum : Int) : Option CacheChange := h.changes.find? seqNum

def nextChangeAfter (h : WriterHistoryCache) (sn : Int) : Option CacheChange :=
  (h.changes.filter (fun c => decide (sn < c.sequenceNumber))).first?

end WriterHistoryCache

/-- What a writer knows of a reader, as far as the plan goes. -/
structure ReaderProxy where
  isReliable : Bool
  highestSentChangeSn : Int
  lastIrrelevantSn : Int
deriving DecidableEq

namespace ReaderProxy

def nextUnsentChange (p : ReaderProxy) (h : WriterHistoryCache) : Int :=
  ((h.nextChangeAfter (max p.highestSentChangeSn p.lastIrrelevantSn)).map CacheChange.sequenceNumber).getD snUnknown

def setHighestSentChangeSn (p : ReaderProxy) (sn : Int) : ReaderProxy :=
  if p.highestSentChangeSn < sn then { p with highestSentChangeSn := sn } else p

def extendLastIrrelevantSn (p : ReaderProxy) (sn : Int) : ReaderProxy :=
  if p.lastIrrelevantSn < sn then { p with lastIrrelevantSn := sn } else p

/-- The change is in a coherent set that starts in what the reader does not get. A marker carries no start: it is in
such a set right behind the horizon. -/
def isChangeInGappedCoherentSet (p : ReaderProxy) (c : CacheChange) : Bool :=
  match c.coherentSet with
  | some setStart => decide (setStart ≠ snUnknown) && decide (setStart ≤ p.lastIrrelevantSn)
  | none => c.isCoherentEndMarker && decide (c.sequenceNumber = p.lastIrrelevantSn + 1)

end ReaderProxy

inductive UnsentChangeType
  | data (sn : Int)
  | gap (first last : Int)
deriving DecidableEq

def holeBelow (p : ReaderProxy) (sn : Int) : List UnsentChangeType :=
  if p.highestSentChangeSn ≠ snUnknown ∧ p.highestSentChangeSn + 1 < sn ∧ p.isReliable = true then
    [.gap (p.highestSentChangeSn + 1) (sn - 1)]
  else []

/-- What is planned for the change that is next, and what the reader's record is then. -/
def planChange (h : WriterHistoryCache) (p : ReaderProxy) (sn : Int) : List UnsentChangeType × ReaderProxy :=
  match h.getChange sn with
  | some change =>
    if p.isChangeInGappedCoherentSet change then
      (if p.isReliable then [.gap sn sn] else [], (p.extendLastIrrelevantSn sn).setHighestSentChangeSn sn)
    else ([.data sn], p.setHighestSentChangeSn sn)
  | none => ([], p.setHighestSentChangeSn sn)

/-- The loop of a pass; `none` when it takes more than `fuel` turns. -/
def planLoop (h : WriterHistoryCache) : Nat → ReaderProxy → List UnsentChangeType →
    Option (List UnsentChangeType × ReaderProxy)
  | 0, _, _ => none
  | fuel + 1, p, plan =>
    let sn := p.nextUnsentChange h
    if sn = snUnknown then some (plan, p)
    else planLoop h fuel (planChange h p sn).2 (plan ++ holeBelow p sn ++ (planChange h p sn).1)

def planUnsent (h : WriterHistoryCache) (p : ReaderProxy) : Option (List UnsentChangeType × ReaderProxy) :=
  planLoop h (h.changes.toList.length + 1) p []

/-! ## Coherent sets the reader cannot get -/

/-- With all up to `horizon` withheld, `c` is in a coherent set that starts there, or the marker behind it. -/
def InGappedSet (horizon : Int) (c : CacheChange) : Prop :=
  (∃ setStart, c.coherentSet = some setStart ∧ setStart ≠ snUnknown ∧ setStart ≤ horizon) ∨
    (c.coherentSet = none ∧ c.isCoherentEndMarker = true ∧ c.sequenceNumber = horizon + 1)

theorem isChangeInGappedCoherentSet_iff (p : ReaderProxy) (c : CacheChange) :
    p.isChangeInGappedCoherentSet c = true ↔ InGappedSet p.lastIrrelevantSn c := by
  unfold ReaderProxy.isChangeInGappedCoherentSet InGappedSet
  cases hset : c.coherentSet with
  | some setStart => simp
  | none => simp

variable {c : CacheChange} {h : WriterHistoryCache} {p : ReaderProxy}

theorem InGappedSet.mono {x y : Int} (h : InGappedSet x c) (hxy : x ≤ y) (hy : y < c.sequenceNumber) :
    InGappedSet y c := by
  rcases h with ⟨setStart, hset, hknown, hle⟩ | ⟨hset, hmarker, hsn⟩
  · exact .inl ⟨setStart, hset, hknown, hle.trans hxy⟩
  · exact .inr ⟨hset, hmarker, by omega⟩

/-- The changes withheld with their coherent set: the horizon is what the reader does not get anyway, and each change
withheld moves it. -/
inductive Gapped (h : WriterHistoryCache) (p : ReaderProxy) : CacheChange → Prop
  | start {c : CacheChange} : c ∈ h.changes → max p.highestSentChangeSn p.lastIrrelevantSn < c.sequenceNumber →
      InGappedSet p.lastIrrelevantSn c → Gapped h p c
  | next {c d : CacheChange} : c ∈ h.changes → Gapped h p d → d.sequenceNumber < c.sequenceNumber →
      InGappedSet d.sequenceNumber c → Gapped h p c

theorem Gapped.held (hc : Gapped h p c) : c ∈ h.changes := by
  cases hc with
  | start hmem _ _ => exact hmem
  | next hmem _ _ _ => exact hmem

theorem Gapped.above (hc : Gapped h p c) : max p.highestSentChangeSn p.lastIrrelevantSn < c.sequenceNumber := by
  induction hc with
  | start _ habove _ => exact habove
  | next _ _ hlt _ ih => exact ih.trans hlt

/-! ## Ranges side by side -/

namespace UnsentChangeType

def first : UnsentChangeType → Int
  | data sn => sn
  | gap first _ => first

def last : UnsentChangeType → Int
  | data sn => sn
  | gap _ last => last

end UnsentChangeType

/-- `Tiles lo plan hi`: the ranges of `plan` follow one another from `lo + 1` to `hi`. -/
inductive Tiles (lo : Int) : List UnsentChangeType → Int → Prop
  | nil : Tiles lo [] lo
  | snoc {plan : List UnsentChangeType} {mid : Int} {e : UnsentChangeType} :
      Tiles lo plan mid → e.first = mid + 1 → e.first ≤ e.last → Tiles lo (plan ++ [e]) e.last

namespace Tiles

variable {lo hi : Int} {plan : List UnsentChangeType} (t : Tiles lo plan hi)
include t

theorem le : lo ≤ hi := by
  induction t with
  | nil => exact le_rfl
  | snoc _ hfirst hrange ih => omega

theorem range : ∀ e ∈ plan, e.first ≤ e.last ∧ e.last ≤ hi := by
  induction t with
  | nil => exact nofun
  | snoc _ hfirst hrange ih =>
    intro e he
    rcases mem_append.1 he with he | he
    · have := ih e he
      omega
    · obtain rfl := mem_singleton.1 he
      exact ⟨hrange, le_rfl⟩

theorem ascending : plan.Pairwise (fun e f => e.last < f.first) := by
  induction t with
  | nil => exact Pairwise.nil
  | snoc t hfirst hrange ih =>
    refine pairwise_append.2 ⟨ih, pairwise_singleton _ _, ?_⟩
    intro e he f hf
    obtain rfl := mem_singleton.1 hf
    have := (t.range e he).2
    omega

theorem covers (n : Int) : (∃ e ∈ plan, e.first ≤ n ∧ n ≤ e.last) ↔ lo < n ∧ n ≤ hi := by
  induction t with
  | nil =>
    refine ⟨?_, fun h => by omega⟩
    rintro ⟨e, he, -⟩
    cases he
  | @snoc plan mid e t hfirst hrange ih =>
    have hle := t.le
    simp only [mem_append, mem_singleton, or_and_right, exists_or, exists_eq_left, ih]
    omega

end Tiles

/-! ## The loop -/

def unsent (h : WriterHistoryCache) (p : ReaderProxy) : OrdList CacheChange.sequenceNumber :=
  h.changes.filter (fun c => decide (max p.highestSentChangeSn p.lastIrrelevantSn < c.sequenceNumber))

theorem mem_unsent :
    c ∈ unsent h p ↔ c ∈ h.changes ∧ max p.highestSentChangeSn p.lastIrrelevantSn < c.sequenceNumber := by
  rw [unsent, OrdList.mem_filter, decide_eq_true_eq]

theorem nextUnsentChange_eq :
    p.nextUnsentChange h = ((unsent h p).first?.map CacheChange.sequenceNumber).getD snUnknown := rfl

theorem nextUnsentChange_eq_unknown : p.nextUnsentChange h = snUnknown ↔ (unsent h p).first? = none := by
  rw [nextUnsentChange_eq]
  cases hfirst : (unsent h p).first? with
  | none => simp
  | some c =>
    have hheld := (mem_unsent.1 (first?_mem hfirst)).1
    simpa using h.known c hheld

structure Next (h : WriterHistoryCache) (p : ReaderProxy) (c : CacheChange) : Prop where
  held : c ∈ h.changes
  aboveSent : p.highestSentChangeSn < c.sequenceNumber
  aboveIrrelevant : p.lastIrrelevantSn < c.sequenceNumber
  least : ∀ d ∈ h.changes, max p.highestSentChangeSn p.lastIrrelevantSn < d.sequenceNumber →
    c.sequenceNumber ≤ d.sequenceNumber

theorem next_of_first? (hfirst : (unsent h p).first? = some c) : Next h p c := by
  obtain ⟨hheld, habove⟩ := mem_unsent.1 (first?_mem hfirst)
  exact
    { held := hheld
      aboveSent := (le_max_left _ _).trans_lt habove
      aboveIrrelevant := (le_max_right _ _).trans_lt habove
      least := fun d hd hlt => first?_le hfirst (mem_unsent.2 ⟨hd, hlt⟩) }

def ReaderProxy.past (p : ReaderProxy) (sn : Int) (withheld : Bool) : ReaderProxy :=
  { p with
    highestSentChangeSn := sn
    lastIrrelevantSn := if withheld then sn else p.lastIrrelevantSn }

theorem planChange_eq (hnext : Next h p c) (hrel : p.isReliable = true) :
    planChange h p c.sequenceNumber =
      (if p.isChangeInGappedCoherentSet c then [.gap c.sequenceNumber c.sequenceNumber] else [.data c.sequenceNumber],
        p.past c.sequenceNumber (p.isChangeInGappedCoherentSet c)) := by
  have hfind : h.getChange c.sequenceNumber = some c := find?_eq_some.2 ⟨hnext.held, rfl⟩
  have hsent := hnext.aboveSent
  have hirr := hnext.aboveIrrelevant
  rw [planChange, hfind]
  dsimp only
  cases hin : p.isChangeInGappedCoherentSet c with
  | true => simp [hrel, hsent, hirr, ReaderProxy.extendLastIrrelevantSn, ReaderProxy.setHighestSentChangeSn,
      ReaderProxy.past]
  | false => simp [hsent, ReaderProxy.setHighestSentChangeSn, ReaderProxy.past]

/-- The hole below the next change fills up the plan to it. -/
theorem Tiles.holeBelow {lo : Int} {plan : List UnsentChangeType} {sn : Int} (t : Tiles lo plan p.highestSentChangeSn)
    (hrel : p.isReliable = true) (hknown : p.highestSentChangeSn ≠ snUnknown) (hlt : p.highestSentChangeSn < sn) :
    Tiles lo (plan ++ Sending.holeBelow p sn) (sn - 1) := by
  unfold Sending.holeBelow
  split_ifs with hhole
  · exact t.snoc (e := .gap _ _) rfl (show p.highestSentChangeSn + 1 ≤ sn - 1 by omega)
  · obtain rfl : sn = p.highestSentChangeSn + 1 := by
      by_contra hne
      exact hhole ⟨hknown, by omega, hrel⟩
    simpa using t

theorem data_not_mem_holeBelow (sn n : Int) : UnsentChangeType.data n ∉ holeBelow p sn := by
  unfold holeBelow
  split_ifs <;> simp

/-- Where the loop stands, from record `p₀`, with `plan` made so far and record `p`. -/
structure Planned (h : WriterHistoryCache) (p₀ : ReaderProxy) (plan : List UnsentChangeType) (p : ReaderProxy) :
    Prop where
  reliable : p.isReliable = true
  /-- Nothing is planned yet, or the last number planned is that of a change. -/
  cursor : p = p₀ ∨ (p.lastIrrelevantSn ≤ p.highestSentChangeSn ∧
    max p₀.highestSentChangeSn p₀.lastIrrelevantSn < p.highestSentChangeSn ∧
    ∃ c ∈ h.changes, c.sequenceNumber = p.highestSentChangeSn)
  known : p.highestSentChangeSn ≠ snUnknown
  tiles : Tiles p₀.highestSentChangeSn plan p.highestSentChangeSn
  data : ∀ n, .data n ∈ plan ↔ ∃ c ∈ h.changes, c.sequenceNumber = n ∧
    max p₀.highestSentChangeSn p₀.lastIrrelevantSn < n ∧ n ≤ p.highestSentChangeSn ∧ ¬ Gapped h p₀ c
  horizon : p.lastIrrelevantSn = p₀.lastIrrelevantSn ∨ ∃ d, Gapped h p₀ d ∧ d.sequenceNumber = p.lastIrrelevantSn
  moved : p₀.lastIrrelevantSn ≤ p.lastIrrelevantSn
  /-- The horizon is past every change withheld so far. -/
  withheld : ∀ d, Gapped h p₀ d → d.sequenceNumber ≤ p.highestSentChangeSn → d.sequenceNumber ≤ p.lastIrrelevantSn

namespace Planned

variable {h : WriterHistoryCache} {p₀ p : ReaderProxy} {plan : List UnsentChangeType} {c : CacheChange}

theorem initial {p : ReaderProxy} (hrel : p.isReliable = true) (hknown : p.highestSentChangeSn ≠ snUnknown) :
    Planned h p [] p where
  reliable := hrel
  cursor := .inl rfl
  known := hknown
  tiles := Tiles.nil
  data := by
    intro n
    refine ⟨nofun, ?_⟩
    rintro ⟨c, -, -, habove, hle, -⟩
    exact absurd ((le_max_left _ _).trans_lt habove) (not_lt.2 hle)
  horizon := .inl rfl
  moved := le_rfl
  withheld := fun d hd hle => absurd ((le_max_left _ _).trans_lt hd.above) (not_lt.2 hle)

variable (inv : Planned h p₀ plan p)
include inv

/-- What is yet to plan is above what the pass began with, and nothing between is left out. -/
theorem next_above (hnext : Next h p c) : max p₀.highestSentChangeSn p₀.lastIrrelevantSn < c.sequenceNumber := by
  rcases inv.cursor with rfl | ⟨-, hlt, -⟩
  · exact max_lt hnext.aboveSent hnext.aboveIrrelevant
  · exact hlt.trans hnext.aboveSent

theorem le_sent_of_lt_next (hnext : Next h p c) {d : CacheChange} (hd : d ∈ h.changes)
    (habove : max p₀.highestSentChangeSn p₀.lastIrrelevantSn < d.sequenceNumber)
    (hlt : d.sequenceNumber < c.sequenceNumber) : d.sequenceNumber ≤ p.highestSentChangeSn := by
  have hpast : d.sequenceNumber ≤ max p.highestSentChangeSn p.lastIrrelevantSn := by
    by_contra hd'
    exact absurd (hnext.least d hd (not_le.1 hd')) (not_le.2 hlt)
  rcases inv.cursor with rfl | ⟨hle, -, -⟩
  · exact absurd habove (not_lt.2 hpast)
  · rwa [max_eq_left hle] at hpast

theorem gapped_iff (hnext : Next h p c) : p.isChangeInGappedCoherentSet c = true ↔ Gapped h p₀ c := by
  rw [isChangeInGappedCoherentSet_iff]
  constructor
  · intro hin
    rcases inv.horizon with heq | ⟨d, hd, heq⟩
    · rw [heq] at hin
      exact .start hnext.held (inv.next_above hnext) hin
    · have hlt : d.sequenceNumber < c.sequenceNumber := heq ▸ hnext.aboveIrrelevant
      rw [← heq] at hin
      exact .next hnext.held hd hlt hin
  · intro hgap
    cases hgap with
    | start _ _ hin => exact hin.mono inv.moved hnext.aboveIrrelevant
    | next _ hd hlt hin =>
      have hsent := inv.le_sent_of_lt_next hnext hd.held hd.above hlt
      exact hin.mono (inv.withheld _ hd hsent) hnext.aboveIrrelevant

/-- A change above the start and up to the next one is the next one, or was planned before. -/
theorem le_next (hnext : Next h p c) {d : CacheChange} (hd : d ∈ h.changes)
    (habove : max p₀.highestSentChangeSn p₀.lastIrrelevantSn < d.sequenceNumber)
    (hle : d.sequenceNumber ≤ c.sequenceNumber) : d = c ∨ d.sequenceNumber ≤ p.highestSentChangeSn := by
  rcases hle.lt_or_eq with hlt | heq
  · exact .inr (inv.le_sent_of_lt_next hnext hd habove hlt)
  · exact .inl (eq_of_key_eq hd hnext.held heq)

theorem step (hnext : Next h p c) :
    Planned h p₀ (plan ++ holeBelow p c.sequenceNumber ++ (planChange h p c.sequenceNumber).1)
      (planChange h p c.sequenceNumber).2 := by
  have habove := inv.next_above hnext
  have hsent := hnext.aboveSent
  have hirr := hnext.aboveIrrelevant
  have hgap := inv.gapped_iff hnext
  have htiles := inv.tiles.holeBelow inv.reliable inv.known hnext.aboveSent
  have hknown := h.known c hnext.held
  have hdata : ∀ n, UnsentChangeType.data n ∈ plan ++ holeBelow p c.sequenceNumber ↔ .data n ∈ plan := by
    intro n
    rw [mem_append, or_iff_left (data_not_mem_holeBelow _ n)]
  rw [planChange_eq hnext inv.reliable]
  cases hin : p.isChangeInGappedCoherentSet c with
  | true =>
    have hc : Gapped h p₀ c := hgap.1 hin
    exact
      { reliable := inv.reliable
        cursor := .inr ⟨le_rfl, habove, c, hnext.held, rfl⟩
        known := hknown
        tiles := htiles.snoc (e := .gap _ _) (by simp [UnsentChangeType.first]) le_rfl
        data := by
          intro n
          rw [mem_append, hdata, inv.data, or_iff_left (by simp)]
          constructor
          · rintro ⟨d, hd, hn, hlo, hle, hng⟩
            exact ⟨d, hd, hn, hlo, hle.trans hsent.le, hng⟩
          · rintro ⟨d, hd, rfl, hlo, hle, hng⟩
            rcases inv.le_next hnext hd hlo hle with rfl | hle
            · exact absurd hc hng
            · exact ⟨d, hd, rfl, hlo, hle, hng⟩
        horizon := .inr ⟨c, hc, rfl⟩
        moved := inv.moved.trans hirr.le
        withheld := fun d _ hle => hle }
  | false =>
    have hc : ¬ Gapped h p₀ c := fun hg => Bool.false_ne_true (hin.symm.trans (hgap.2 hg))
    exact
      { reliable := inv.reliable
        cursor := .inr ⟨hirr.le, habove, c, hnext.held, rfl⟩
        known := hknown
        tiles := htiles.snoc (e := .data _) (by simp [UnsentChangeType.first]) le_rfl
        data := by
          intro n
          rw [if_neg Bool.false_ne_true, mem_append, hdata, inv.data, mem_singleton,
            UnsentChangeType.data.injEq]
          constructor
          · rintro (⟨d, hd, hn, hlo, hle, hng⟩ | rfl)
            · exact ⟨d, hd, hn, hlo, hle.trans hsent.le, hng⟩
            · exact ⟨c, hnext.held, rfl, habove, le_rfl, hc⟩
          · rintro ⟨d, hd, rfl, hlo, hle, hng⟩
            rcases inv.le_next hnext hd hlo hle with rfl | hle
            · exact .inr rfl
            · exact .inl ⟨d, hd, rfl, hlo, hle, hng⟩
        horizon := inv.horizon
        moved := inv.moved
        withheld := by
          intro d hd hle
          rcases inv.le_next hnext hd.held hd.above hle with rfl | hle
          · exact absurd hd hc
          · exact inv.withheld d hd hle }

end Planned

theorem length_unsent_lt (hfirst : (unsent h p).first? = some c) (withheld : Bool) :
    (unsent h (p.past c.sequenceNumber withheld)).toList.length < (unsent h p).toList.length := by
  have hnext := next_of_first? hfirst
  have hirr := hnext.aboveIrrelevant
  have hsplit : (unsent h (p.past c.sequenceNumber withheld)).toList =
      (unsent h p).toList.filter (fun d => decide (c.sequenceNumber < d.sequenceNumber)) := by
    show h.changes.toList.filter _ = (h.changes.toList.filter _).filter _
    rw [filter_filter]
    refine filter_congr fun d _ => ?_
    rw [← Bool.decide_and]
    refine decide_eq_decide.2 ?_
    simp only [ReaderProxy.past]
    have := hnext.aboveSent
    omega
  rw [hsplit]
  refine length_filter_lt_length_iff_exists.2 ⟨c, first?_mem hfirst, ?_⟩
  simp

theorem planLoop_planned {p₀ : ReaderProxy} (fuel : Nat) (p : ReaderProxy) (plan : List UnsentChangeType)
    (inv : Planned h p₀ plan p) (hfuel : (unsent h p).toList.length < fuel) :
    ∃ plan' p', planLoop h fuel p plan = some (plan', p') ∧ Planned h p₀ plan' p' ∧
      p'.nextUnsentChange h = snUnknown := by
  induction fuel generalizing p plan with
  | zero => omega
  | succ fuel ih =>
    rw [planLoop]
    cases hfirst : (unsent h p).first? with
    | none =>
      have hend := nextUnsentChange_eq_unknown.2 hfirst
      exact ⟨plan, p, by simp [hend], inv, hend⟩
    | some c =>
      have hnext := next_of_first? hfirst
      have hsn : p.nextUnsentChange h = c.sequenceNumber := by rw [nextUnsentChange_eq, hfirst]; rfl
      have hshort := length_unsent_lt hfirst (p.isChangeInGappedCoherentSet c)
      have hp' : (planChange h p c.sequenceNumber).2 = _ := congrArg Prod.snd (planChange_eq hnext inv.reliable)
      rw [hsn, if_neg (h.known c hnext.held)]
      refine ih _ _ (inv.step hnext) ?_
      rw [hp']
      exact Nat.lt_of_lt_of_le hshort (Nat.le_of_lt_succ hfuel)

/-- A pass for a reliable reader whose highest sent number is known ends. If there is anything new, the plan covers
the numbers above the highest sent one up to the last change `c`, in order and each once, with DATA for the changes
that are held, relevant and in no gapped coherent set; then the reader has been sent everything. -/
theorem send_plan_covers (h : WriterHistoryCache) (p : ReaderProxy) (hrel : p.isReliable = true)
    (hknown : p.highestSentChangeSn ≠ snUnknown) :
    ∃ plan p', planUnsent h p = some (plan, p') ∧
      ∀ c ∈ h.changes, max p.highestSentChangeSn p.lastIrrelevantSn < c.sequenceNumber →
        (∀ d ∈ h.changes, d.sequenceNumber ≤ c.sequenceNumber) →
        plan.Pairwise (fun e f => e.last < f.first) ∧ (∀ e ∈ plan, e.first ≤ e.last) ∧
        (∀ n, (∃ e ∈ plan, e.first ≤ n ∧ n ≤ e.last) ↔ p.highestSentChangeSn < n ∧ n ≤ c.sequenceNumber) ∧
        (∀ n, .data n ∈ plan ↔ ∃ d ∈ h.changes, d.sequenceNumber = n ∧ p.highestSentChangeSn < n ∧
          p.lastIrrelevantSn < n ∧ ¬ Gapped h p d) ∧
        p'.highestSentChangeSn = c.sequenceNumber ∧ p'.nextUnsentChange h = snUnknown := by
  have hfuel : (unsent h p).toList.length < h.changes.toList.length + 1 :=
    Nat.lt_succ_of_le (length_filter_le _ _)
  obtain ⟨plan, p', hrun, inv, hend⟩ := planLoop_planned _ p [] (Planned.initial hrel hknown) hfuel
  refine ⟨plan, p', hrun, fun c hc habove hlargest => ?_⟩
  -- nothing is left, so the last change was planned, and it was the last one planned
  have hpast : c.sequenceNumber ≤ max p'.highestSentChangeSn p'.lastIrrelevantSn := by
    have hnone := nextUnsentChange_eq_unknown.1 hend
    by_contra hlt
    exact first?_eq_none.1 hnone c (mem_unsent.2 ⟨hc, not_le.1 hlt⟩)
  have hlast : p'.highestSentChangeSn = c.sequenceNumber := by
    rcases inv.cursor with rfl | ⟨hle, -, d, hd, hsn⟩
    · exact absurd habove (not_lt.2 hpast)
    · rw [max_eq_left hle] at hpast
      exact le_antisymm (hsn ▸ hlargest d hd) hpast
  refine ⟨inv.tiles.ascending, fun e he => (inv.tiles.range e he).1, ?_, ?_, hlast, hend⟩
  · intro n
    rw [inv.tiles.covers, hlast]
  · intro n
    rw [inv.data, hlast]
    constructor
    · rintro ⟨d, hd, hn, hlo, -, hng⟩
      exact ⟨d, hd, hn, (le_max_left _ _).trans_lt hlo, (le_max_right _ _).trans_lt hlo, hng⟩
    · rintro ⟨d, hd, hn, hsent, hirr, hng⟩
      exact ⟨d, hd, hn, max_lt hsent hirr, hn ▸ hlargest d hd, hng⟩

def changeAt (sn : Int) (setStart : Option Int) (payload : Bytes) : CacheChange :=
  let c := CacheChange.new .alive ⟨0, 0⟩ .nil sn payload none
  { c with presentationInfo := ⟨setStart, none, none⟩ }

/-- What is left of a set that starts at 2, its marker, and a change after a hole. -/
def setAndChange : WriterHistoryCache where
  changes := ⟨[changeAt 3 (some 2) [1], changeAt 4 none [], changeAt 6 none [1]], by decide⟩
  known := show ∀ c ∈ [_, _, _], _ by decide

def lateReader : ReaderProxy := ⟨true, 0, 2⟩

theorem send_plan_covers_late_reader :
    lateReader.isReliable = true ∧ lateReader.highestSentChangeSn ≠ snUnknown ∧
      ∃ plan p', planUnsent setAndChange lateReader = some (plan, p') ∧
        (∀ n, (∃ e ∈ plan, e.first ≤ n ∧ n ≤ e.last) ↔ 0 < n ∧ n ≤ 6) ∧ p'.highestSentChangeSn = 6 := by
  refine ⟨rfl, by decide, ?_⟩
  obtain ⟨plan, p', hrun, hplan⟩ := send_plan_covers setAndChange lateReader rfl (by decide)
  have hlast : changeAt 6 none [1] ∈ setAndChange.changes := .tail _ (.tail _ (.head _))
  obtain ⟨-, -, hcovers, -, hsent, -⟩ := hplan _ hlast (by decide) (show ∀ d ∈ setAndChange.changes.toList, _ by decide)
  exact ⟨plan, p', hrun, hcovers, hsent⟩

example : planUnsent setAndChange lateReader =
    some ([.gap 1 2, .gap 3 3, .gap 4 4, .gap 5 5, .data 6], ⟨true, 6, 4⟩) := by decide

end Int2Dds.Sending
