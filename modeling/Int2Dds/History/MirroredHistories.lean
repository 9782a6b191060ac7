import Int2Dds.History.CoherentCommit
import Int2Dds.Lib.Run

/-!
# The two histories of a reader mirror each other

`ReaderHistoryCache.changes` and the contents of the `DataReaderHistoryCache` should hold the same samples at any time.
They are updated side by side by an arrival and by a take, and one-sidedly by the two lifespan steps.

* `committed_commitSets` : storing a batch of new changes that pass the content filter keeps `Mirror`.
-/

namespace Int2Dds.History
open Lib Rtps ReaderHistoryCache List DataReaderHistoryCache

/-! ## Removal by name -/

theorem eraseP_eq_filter_of_nodup {l : List CacheChange} (hl : (l.map CacheChange.id).Nodup) (i : Guid × Int) :
    l.eraseP (fun d => decide (d.id = i)) = l.filter (fun d => decide (d.id ≠ i)) := by
  induction l with
  | nil => rfl
  | cons c l ih =>
    rw [map_cons, nodup_cons] at hl
    by_cases hc : c.id = i
    · have hrest : ∀ d ∈ l, d.id ≠ i := by
        intro d hd heq
        apply hl.1
        rw [hc, ← heq]
        exact mem_map_of_mem hd
      rw [eraseP_cons_of_pos (by simpa using hc), filter_cons_of_neg (by simpa using hc)]
      symm
      apply filter_eq_self.2
      intro d hd
      simpa using hrest d hd
    · rw [eraseP_cons_of_neg (by simpa using hc), filter_cons_of_pos (by simpa using hc), ih hl.2]

variable {c : CacheChange}

theorem sameSample_iff_id {l : List CacheChange} (hl : (l.map CacheChange.id).Nodup) {d : CacheChange} (hc : c ∈ l)
    (hd : d ∈ l) : SameSample c d ↔ d.id = c.id := by
  constructor
  · intro h
    exact h.2
  · intro h
    rw [inj_on_of_nodup_map hl hd hc h]
    exact SameSample.refl c

/-! ## The mirror -/

/-- Both histories hold the same changes, and none twice. -/
structure Mirror (h : ReaderHistoryCache) : Prop where
  perm : h.changes.Perm h.dataReaderCache.getChanges
  nodup : (h.changes.map CacheChange.id).Nodup

namespace Mirror
variable {h : ReaderHistoryCache} (hm : Mirror h)
include hm

theorem mem_iff : c ∈ h.changes ↔ c ∈ h.dataReaderCache.getChanges := hm.perm.mem_iff

theorem nodup_getChanges : (h.dataReaderCache.getChanges.map CacheChange.id).Nodup :=
  (hm.perm.map _).nodup_iff.1 hm.nodup

theorem store (hfresh : c.id ∉ h.changes.map CacheChange.id) {removed : Option CacheChange}
    {cache : DataReaderHistoryCache} (hmem : ∀ d ∈ removed, d ∈ h.dataReaderCache.getChanges)
    (hperm : cache.getChanges.Perm (c :: remaining removed h.dataReaderCache.getChanges)) :
    Mirror (removed.elim { h with dataReaderCache := cache, changes := h.changes ++ [c] }
      (ReaderHistoryCache.removeChange { h with dataReaderCache := cache, changes := h.changes ++ [c] })) := by
  have hnodup : ((h.changes ++ [c]).map CacheChange.id).Nodup := by
    rw [map_append]
    apply hm.nodup.append (nodup_singleton _)
    intro i hi hi'
    rw [mem_singleton] at hi'
    exact hfresh (hi' ▸ hi)
  cases removed with
  | none =>
    refine ⟨?_, hnodup⟩
    refine (perm_append_singleton c h.changes).trans ?_
    exact (hm.perm.cons c).trans hperm.symm
  | some d =>
    have hd : d ∈ h.dataReaderCache.getChanges := hmem d rfl
    have hne : ¬ c.id = d.id := by
      intro heq
      apply hfresh
      rw [heq]
      exact mem_map_of_mem (hm.mem_iff.2 hd)
    have herase : (h.changes ++ [c]).eraseP (fun e => decide (e.id = d.id)) =
        h.changes.filter (fun e => decide (e.id ≠ d.id)) ++ [c] := by
      rw [eraseP_eq_filter_of_nodup hnodup]
      simp [hne]
    have hremaining : remaining (some d) h.dataReaderCache.getChanges =
        h.dataReaderCache.getChanges.filter (fun e => decide (e.id ≠ d.id)) := by
      apply filter_congr
      intro e he
      simp [sameSample_iff_id hm.nodup_getChanges hd he]
    refine ⟨?_, ?_⟩
    · show ((h.changes ++ [c]).eraseP _).Perm cache.getChanges
      rw [herase]
      refine (perm_append_singleton c _).trans ?_
      rw [hremaining] at hperm
      exact ((hm.perm.filter _).cons c).trans hperm.symm
    · exact hnodup.sublist (eraseP_sublist.map _)

theorem take {cs : List CacheChange} (hcs : ∀ c ∈ cs, c ∈ h.dataReaderCache.getChanges) :
    Mirror ({ h with dataReaderCache := h.dataReaderCache.removeChanges cs }.removeChangeByIdSet
      (cs.map CacheChange.id)) := by
  have hsame : h.changes.filter (fun d => !(cs.map CacheChange.id).contains d.id) =
      h.changes.filter (fun d => !named cs d) := by
    apply filter_congr
    intro d hd
    congr 1
    rw [Bool.eq_iff_iff, contains_iff_mem, mem_map, named_iff]
    refine exists_congr fun c => and_congr_right fun hc => ?_
    rw [sameSample_iff_id hm.nodup_getChanges (hcs c hc) (hm.mem_iff.1 hd), eq_comm]
  refine ⟨?_, hm.nodup.sublist (filter_sublist.map _)⟩
  show (h.changes.filter _).Perm (h.dataReaderCache.removeChanges cs).getChanges
  rw [hsame, getChanges_removeChanges]
  exact hm.perm.filter _

end Mirror

/-! ## Storing a batch -/

variable {batch : List (CacheChange × Bool)}

section Batch
variable {h : ReaderHistoryCache} {r : DataReaderView}

/-- What storing changes named `ids` does to a mirrored pair. Where nothing may be evicted, what was stored and what
is reported stay. -/
structure Committed (h : ReaderHistoryCache) (ids : List (Guid × Int))
    (res : Except DdsError (List CacheChange) × ReaderHistoryCache) : Prop where
  mirror : Mirror res.2
  names : ∀ i ∈ res.2.changes.map CacheChange.id, i ∈ h.changes.map CacheChange.id ∨ i ∈ ids
  grows : h.dataReaderCache.canAutoRemove = false →
    res.2.dataReaderCache.canAutoRemove = false ∧ ∀ c ∈ h.changes, c ∈ res.2.changes
  reported : h.dataReaderCache.canAutoRemove = false → ∀ cs, res.1 = .ok cs → ∀ c ∈ cs, c ∈ res.2.changes

/-- Every change of the batch passes the content filter of the reader. -/
def Passes (r : DataReaderView) (batch : List (CacheChange × Bool)) : Prop :=
  ∀ a ∈ batch, ∀ d, r.addInfoToCacheChange a.1 = .ok d → r.drops d = false

/-- The changes of the batch are not stored, and none of them is there twice. -/
def New (h : ReaderHistoryCache) (batch : List (CacheChange × Bool)) : Prop :=
  (batch.map (fun a => a.1.id)).Nodup ∧ ∀ a ∈ batch, a.1.id ∉ h.changes.map CacheChange.id

theorem New.head {a : CacheChange × Bool} (hn : New h (a :: batch)) :
    a.1.id ∉ h.changes.map CacheChange.id := hn.2 a mem_cons_self

theorem New.rest {first last : List (CacheChange × Bool)} (hn : New h (first ++ last)) {h' : ReaderHistoryCache}
    (hnames : ∀ i ∈ h'.changes.map CacheChange.id, i ∈ h.changes.map CacheChange.id ∨ i ∈ first.map (fun a => a.1.id)) :
    New h' last := by
  obtain ⟨hnodup, hfresh⟩ := hn
  rw [map_append, nodup_append] at hnodup
  refine ⟨hnodup.2.1, ?_⟩
  intro a ha hstored
  rcases hnames _ hstored with hold | hfirst
  · exact hfresh a (mem_append_right _ ha) hold
  · exact hnodup.2.2 _ hfirst _ (mem_map_of_mem ha) rfl

theorem New.first {first last : List (CacheChange × Bool)} (hn : New h (first ++ last)) : New h first := by
  obtain ⟨hnodup, hfresh⟩ := hn
  rw [map_append, nodup_append] at hnodup
  exact ⟨hnodup.1, fun a ha => hfresh a (mem_append_left _ ha)⟩

theorem Committed.append {ids ids' : List (Guid × Int)} {stored : List CacheChange} {h' : ReaderHistoryCache}
    {res : Except DdsError (List CacheChange) × ReaderHistoryCache} (hfirst : Committed h ids (.ok stored, h'))
    (hrest : Committed h' ids' res) : Committed h (ids ++ ids') (res.1.map (stored ++ ·), res.2) where
  mirror := hrest.mirror
  names i hi := by
    rcases hrest.names i hi with hold | hlater
    · exact (hfirst.names i hold).imp_right (mem_append_left _)
    · exact .inr (mem_append_right _ hlater)
  grows hauto := by
    obtain ⟨hauto', hsub⟩ := hfirst.grows hauto
    exact (hrest.grows hauto').imp_right fun hsub' d hd => hsub' d (hsub d hd)
  reported hauto cs hcs d hd := by
    have hauto' := (hfirst.grows hauto).1
    obtain ⟨result, h''⟩ := res
    cases result with
    | error e => cases hcs
    | ok later =>
      obtain rfl : stored ++ later = cs := by simpa [Except.map] using hcs
      rcases mem_append.1 hd with hd | hd
      · exact (hrest.grows hauto').2 d (hfirst.reported hauto stored rfl d hd)
      · exact hrest.reported hauto' later rfl d hd

variable (hm : Mirror h)
include hm

theorem commitChange_spec (hfresh : c.id ∉ h.changes.map CacheChange.id)
    (hpass : ∀ d, r.addInfoToCacheChange c = .ok d → r.drops d = false) (applyFilter : Bool) :
    Mirror (h.commitChange r c applyFilter).2 ∧
    (∀ i ∈ (h.commitChange r c applyFilter).2.changes.map CacheChange.id, i ∈ h.changes.map CacheChange.id ∨ i = c.id) ∧
    ∀ d, (h.commitChange r c applyFilter).1 = .ok (some d) → d ∈ (h.commitChange r c applyFilter).2.changes := by
  unfold commitChange
  cases hinfo : r.addInfoToCacheChange c with
  | error e => exact ⟨hm, fun i hi => .inl hi, fun d hd => by cases hd⟩
  | ok shared =>
    have hid := id_addInfoToCacheChange hinfo
    have hstores := h.dataReaderCache.stores_addChangeWithCleanup r shared applyFilter (hpass shared hinfo)
    dsimp only
    generalize h.dataReaderCache.addChangeWithCleanup r shared applyFilter = res at hstores
    cases hstores with
    | refused same | held same =>
      exact ⟨⟨same ▸ hm.perm, hm.nodup⟩, fun i hi => .inl hi, fun d hd => by cases hd⟩
    | @stored removed cache hmem hperm =>
      have hmirror := hm.store (hid ▸ hfresh) hmem hperm
      refine ⟨hmirror, ?_, ?_⟩
      · intro i hi
        have hi' : i ∈ (h.changes ++ [shared]).map CacheChange.id := by
          cases removed with
          | none => exact hi
          | some d => exact (eraseP_sublist.map _).subset hi
        rw [map_append, mem_append, map_singleton, mem_singleton, hid] at hi'
        exact hi'
      · intro d hd
        obtain rfl : shared = d := by simpa using hd
        apply hmirror.mem_iff.2
        have : shared ∈ cache.getChanges := hperm.mem_iff.2 mem_cons_self
        cases removed <;> exact this

theorem commitChange_grows {applyFilter : Bool} (hm' : Mirror (h.commitChange r c applyFilter).2)
    (hauto : h.dataReaderCache.canAutoRemove = false) :
    (h.commitChange r c applyFilter).2.dataReaderCache.canAutoRemove = false ∧
      ∀ d ∈ h.changes, d ∈ (h.commitChange r c applyFilter).2.changes := by
  obtain ⟨hauto', news, hperm, -⟩ := grewBy_commitChange r h c applyFilter hauto
  refine ⟨hauto', ?_⟩
  intro d hd
  apply hm'.mem_iff.2
  exact hperm.mem_iff.2 (mem_append_right _ (hm.mem_iff.1 hd))

theorem committed_nil (ids : List (Guid × Int)) : Committed h ids (.ok [], h) where
  mirror := hm
  names := fun i hi => .inl hi
  grows := fun hauto => ⟨hauto, fun c hc => hc⟩
  reported := fun _ cs hcs c hc => by
    cases hcs
    cases hc

theorem committed_commitAll (hnew : New h batch) (hpass : Passes r batch) :
    Committed h (batch.map (fun a => a.1.id)) (commitAll r batch h) := by
  induction batch generalizing h with
  | nil => exact committed_nil hm _
  | cons a batch ih =>
    obtain ⟨c, f⟩ := a
    obtain ⟨hmirror, hnames, hstored⟩ := commitChange_spec hm hnew.head (hpass (c, f) mem_cons_self) f
    have hgrows := commitChange_grows (r := r) hm hmirror
    rw [commitAll]
    generalize h.commitChange r c f = res at hmirror hnames hstored hgrows
    obtain ⟨result, h'⟩ := res
    cases result with
    | error e =>
      refine ⟨hmirror, fun i hi => (hnames i hi).imp_right ?_, hgrows, fun _ cs hcs => by cases hcs⟩
      rintro rfl
      exact mem_cons_self
    | ok stored =>
      have hone : Committed h [c.id] (.ok stored.toList, h') := by
        refine ⟨hmirror, by simpa using hnames, hgrows, fun _ cs hcs d hd => ?_⟩
        cases hcs
        exact hstored d (by rw [Option.mem_toList.1 hd])
      have hsplit : New h ([(c, f)] ++ batch) := hnew
      exact hone.append (ih hmirror (hsplit.rest hone.names) fun b hb => hpass b (mem_cons_of_mem _ hb))

theorem committed_commitSets {sets : List (List (CacheChange × Bool))} (hnew : New h sets.flatten)
    (hpass : Passes r sets.flatten) : Committed h (sets.flatten.map (fun a => a.1.id)) (commitSets r sets h) := by
  induction sets generalizing h with
  | nil => exact committed_nil hm _
  | cons set sets ih =>
    rw [flatten_cons] at hnew hpass ⊢
    have hpass' : Passes r sets.flatten := fun b hb => hpass b (mem_append_right _ hb)
    rw [commitSets, map_append]
    split_ifs with hdry
    · -- a set that does not fit is left out
      have hnew' : New h sets.flatten := hnew.rest fun i hi => .inl hi
      have hrest := ih hm hnew' hpass'
      exact ⟨hrest.mirror, fun i hi => (hrest.names i hi).imp_right (mem_append_right _), hrest.grows, hrest.reported⟩
    · have hset := committed_commitAll hm hnew.first fun b hb => hpass b (mem_append_left _ hb)
      generalize commitAll r set h = res at hset
      obtain ⟨result, h'⟩ := res
      cases result with
      | error e =>
        exact ⟨hset.mirror, fun i hi => (hset.names i hi).imp_right (mem_append_left _), hset.grows,
          fun _ cs hcs => by cases hcs⟩
      | ok stored => exact hset.append (ih hset.mirror (hnew.rest hset.names) hpass')

end Batch

/-! ## Steps and runs -/

inductive MirrorStep where
  | addChange (r : DataReaderView) (change : CacheChange) (applyFilter : Bool)
  /-- The lifespan timer of a writer. -/
  | lifespanExpired (r : DataReaderView) (writerGuid : Guid) (lifespan : Duration) (now : RtpsTime)
  | purgeOnRead (r : DataReaderView) (now : RtpsTime)
  /-- A take of the stored changes that satisfy `selected`. -/
  | take (selected : CacheChange → Bool)

/-- The histories, and the changes the last step reported as available. -/
structure Reported where
  histories : ReaderHistoryCache
  available : List CacheChange

namespace MirrorStep

def perform (h : ReaderHistoryCache) : MirrorStep → Reported
  | addChange r change applyFilter =>
    match h.addChange r change applyFilter with
    | (.ok available, h) => ⟨h, available⟩
    | (.error _, h) => ⟨h, []⟩
  | lifespanExpired r writerGuid lifespan now =>
    ⟨{ h with dataReaderCache := h.dataReaderCache.removeLifespanExpiredChanges r writerGuid lifespan now }, []⟩
  | purgeOnRead r now => ⟨{ h with dataReaderCache := h.dataReaderCache.purgeExpiredOnRead r now }, []⟩
  | take selected =>
    let taken := h.dataReaderCache.getChanges.filter selected
    ⟨{ h with dataReaderCache := h.dataReaderCache.removeChanges taken }.removeChangeByIdSet
      (taken.map CacheChange.id), []⟩

def step (s : Reported) (m : MirrorStep) : Option Reported := some (m.perform s.histories)

/-- No change of the batch leaves for a later one: changes are never evicted, or there is no later one, or the batch
is a coherent set stored whole or not at all. -/
def Lasting (h : ReaderHistoryCache) (r : DataReaderView) (batch : List (CacheChange × Bool)) : Prop :=
  h.dataReaderCache.canAutoRemove = false ∨ batch.length ≤ 1 ∨
    ∃ members, batch = members.map (·, false) ∧ r.isSubscriberCoherent = true ∧
      batch.IsChain (fun a b => isSameCoherentSet a b = true) ∧ Storable r h.dataReaderCache members

def Meets (h : ReaderHistoryCache) : MirrorStep → Prop
  | addChange r change applyFilter =>
    -- what the arrival lets through
    let batch := (h.buffer.prepareChangesToCommit r.isSubscriberCoherent change applyFilter).1
    New h batch ∧ Passes r batch ∧ Lasting h r batch
  | lifespanExpired r writerGuid lifespan now =>
    ∀ c ∈ h.dataReaderCache.getChanges, c.writerGuid = writerGuid →
      ∀ expiry, sampleExpiry c lifespan r.lifespanReference = some expiry → now < expiry
  | purgeOnRead r now => h.dataReaderCache.Fresh r now
  | take _ => True

end MirrorStep

variable {r : DataReaderView} {cs : List CacheChange} {h : ReaderHistoryCache}

theorem expiredOfBucket_eq_nil {h : DataReaderHistoryCache} {writerGuid : Guid} {lifespan : Duration} {now : RtpsTime}
    {changes : List CacheChange}
    (halive : ∀ c ∈ changes, c.writerGuid = writerGuid →
      ∀ expiry, sampleExpiry c lifespan r.lifespanReference = some expiry → now < expiry) :
    h.expiredOfBucket r writerGuid lifespan now changes = [] := by
  induction changes with
  | nil => rfl
  | cons c changes ih =>
    have hrest := ih (forall_mem_cons.1 halive).2
    rw [expiredOfBucket, hrest]
    split_ifs with hw
    · rfl
    · have hwriter : c.writerGuid = writerGuid := by simpa using hw
      cases hexp : sampleExpiry c lifespan r.lifespanReference with
      | none => rfl
      | some expiry =>
        have hlt := halive c mem_cons_self hwriter expiry hexp
        dsimp only
        rw [if_neg (not_le.2 hlt)]
        split <;> rfl

theorem removeLifespanExpiredChanges_eq {h : DataReaderHistoryCache} {writerGuid : Guid} {lifespan : Duration}
    {now : RtpsTime}
    (halive : ∀ c ∈ h.getChanges, c.writerGuid = writerGuid →
      ∀ expiry, sampleExpiry c lifespan r.lifespanReference = some expiry → now < expiry) :
    h.removeLifespanExpiredChanges r writerGuid lifespan now = h := by
  have hnone : h.collectLifespanExpired r writerGuid lifespan now = [] := by
    apply flatMap_eq_nil_iff.2
    intro b hb
    apply expiredOfBucket_eq_nil
    intro c hc
    exact halive c (mem_flatMap.2 ⟨b, hb, hc⟩)
  unfold removeLifespanExpiredChanges
  rw [hnone]
  rfl

def setsOf (r : DataReaderView) (batch : List (CacheChange × Bool)) : List (List (CacheChange × Bool)) :=
  if r.isSubscriberCoherent then batch.splitBy isSameCoherentSet else batch.map ([·])

theorem flatten_setsOf (batch : List (CacheChange × Bool)) : (setsOf r batch).flatten = batch := by
  unfold setsOf
  split_ifs
  · exact flatten_splitBy _ _
  · induction batch with
    | nil => rfl
    | cons a batch ih => rw [map_cons, flatten_cons, ih, singleton_append]

theorem setsOf_singleton (a : CacheChange × Bool) : setsOf r [a] = [[a]] := by
  unfold setsOf
  split_ifs
  · exact splitBy_of_isChain (by simp) (isChain_singleton a)
  · rfl

theorem reported_single (hm : Mirror h) {a : CacheChange × Bool} (hnew : New h [a]) (hpass : Passes r [a])
    (hcs : (commitSets r [[a]] h).1 = .ok cs) :
    ∀ d ∈ cs, d ∈ (commitSets r [[a]] h).2.changes := by
  obtain ⟨c, f⟩ := a
  obtain ⟨-, -, hstored⟩ := commitChange_spec hm hnew.head (hpass (c, f) mem_cons_self) f
  have hcommit : commitSets r [[(c, f)]] h =
      ((h.commitChange r c f).1.map Option.toList, (h.commitChange r c f).2) := by
    rw [commitSets, commitAll]
    rcases h.commitChange r c f with ⟨e | stored, h'⟩
    · rfl
    · simp [commitAll, commitSets, Except.map]
  rw [hcommit] at hcs ⊢
  intro d hd
  apply hstored
  cases hres : (h.commitChange r c f).1 with
  | error e =>
    rw [hres] at hcs
    cases hcs
  | ok stored =>
    rw [hres] at hcs
    obtain rfl : stored.toList = cs := Except.ok.inj hcs
    rw [Option.mem_toList.1 hd]

theorem reported_short (hm : Mirror h) (hnew : New h batch)
    (hpass : Passes r batch) (hlen : batch.length ≤ 1)
    (hcs : (commitSets r (setsOf r batch) h).1 = .ok cs) :
    ∀ d ∈ cs, d ∈ (commitSets r (setsOf r batch) h).2.changes := by
  rcases Nat.le_one_iff_eq_zero_or_eq_one.1 hlen with hzero | hone
  · obtain rfl := length_eq_zero_iff.1 hzero
    have hnone : setsOf r [] = [] := by
      unfold setsOf
      split_ifs <;> rfl
    rw [hnone] at hcs
    obtain rfl : [] = cs := Except.ok.inj hcs
    intro d hd
    cases hd
  · obtain ⟨a, rfl⟩ := length_eq_one_iff.1 hone
    rw [setsOf_singleton] at hcs ⊢
    exact reported_single hm hnew hpass hcs

theorem reported_set {members : List CacheChange} (htwo : 1 < members.length)
    (hstorable : Storable r h.dataReaderCache members)
    (hcs : (commitSets r [members.map (·, false)] h).1 = .ok cs) :
    ∀ d ∈ cs, d ∈ (commitSets r [members.map (·, false)] h).2.dataReaderCache.getChanges := by
  have hhandles : (members.map (·, false)).map (fun a : CacheChange × Bool => a.1.instanceHandle) =
      members.map CacheChange.instanceHandle := by
    rw [map_map]
    rfl
  rw [commitSets, length_map, decide_eq_true htwo, hhandles] at hcs ⊢
  cases hdry : h.dataReaderCache.ensureCapacityDry (members.map CacheChange.instanceHandle) with
  | false =>
    rw [hdry] at hcs
    obtain rfl : [] = cs := Except.ok.inj hcs
    intro d hd
    cases hd
  | true =>
    rw [hdry] at hcs
    obtain ⟨hok, hfill⟩ := commitAll_storable hstorable (fits_of_dry hstorable.limits hdry)
      (nil_append members) (Filling.refl _) hstorable.owned
    rcases hc : commitAll r (members.map (·, false)) h with ⟨res, h'⟩
    rw [hc] at hok hfill hcs
    obtain rfl : res = .ok (members.map r.stamp) := hok
    have heq : members.map r.stamp ++ [] = cs := Except.ok.inj hcs
    rw [append_nil] at heq
    intro d hd
    rw [← heq] at hd
    exact hfill.mem_of_mem_news hd

theorem mirror_addChange (hm : Mirror h) {applyFilter : Bool}
    (hok : (MirrorStep.addChange r c applyFilter).Meets h) :
    Mirror (h.addChange r c applyFilter).2 ∧
      ∀ cs, (h.addChange r c applyFilter).1 = .ok cs → ∀ d ∈ cs, d ∈ (h.addChange r c applyFilter).2.changes := by
  obtain ⟨hnew, hpass, hlasting⟩ := hok
  unfold ReaderHistoryCache.addChange
  dsimp only
  generalize h.buffer.prepareChangesToCommit r.isSubscriberCoherent c applyFilter = prepared at hnew hpass hlasting
  obtain ⟨batch, buffer⟩ := prepared
  have hm' : Mirror { h with buffer } := ⟨hm.perm, hm.nodup⟩
  have hnew' : New { h with buffer } (setsOf r batch).flatten := by
    rw [flatten_setsOf]
    exact hnew
  have hpass' : Passes r (setsOf r batch).flatten := by
    rw [flatten_setsOf]
    exact hpass
  have hcommitted := committed_commitSets hm' hnew' hpass'
  have hcommit : { h with buffer }.commitChangesToDataReaderCache r batch =
      commitSets r (setsOf r batch) { h with buffer } := rfl
  rw [hcommit]
  refine ⟨hcommitted.mirror, ?_⟩
  rcases hlasting with hauto | hlen | ⟨members, rfl, hcoherent, hchain, hstorable⟩
  · exact hcommitted.reported hauto
  · exact fun cs => reported_short hm' hnew hpass hlen
  · by_cases hlen : (members.map (·, false)).length ≤ 1
    · exact fun cs => reported_short hm' hnew hpass hlen
    · rw [length_map] at hlen
      have hone : setsOf r (members.map (·, false)) = [members.map (·, false)] := by
        unfold setsOf
        rw [if_pos hcoherent]
        refine splitBy_of_isChain ?_ hchain
        intro hnil
        rw [map_eq_nil_iff.1 hnil] at hlen
        exact hlen (Nat.zero_le 1)
      intro cs hcs d hd
      apply hcommitted.mirror.mem_iff.2
      rw [hone] at hcs ⊢
      have hstorable' : Storable r { h with buffer }.dataReaderCache members := hstorable
      exact reported_set (not_le.1 hlen) hstorable' hcs d hd

/-- After every step: the same changes in both histories, and what was reported is in both. -/
structure MirrorReported (s : Reported) : Prop where
  mirror : Mirror s.histories
  reported : ∀ c ∈ s.available, c ∈ s.histories.changes ∧ c ∈ s.histories.dataReaderCache.getChanges

theorem mirrorReported_perform (hm : Mirror h) {m : MirrorStep} (hok : m.Meets h) : MirrorReported (m.perform h) := by
  have hnothing : ∀ {h' : ReaderHistoryCache}, Mirror h' → MirrorReported ⟨h', []⟩ := by
    intro h' hm'
    refine ⟨hm', ?_⟩
    intro c hc
    cases hc
  cases m with
  | addChange r c applyFilter =>
    obtain ⟨hmirror, hreported⟩ := mirror_addChange hm hok
    rw [MirrorStep.perform]
    generalize h.addChange r c applyFilter = res at hmirror hreported
    obtain ⟨result, h'⟩ := res
    cases result with
    | error e => exact hnothing hmirror
    | ok available =>
      refine ⟨hmirror, ?_⟩
      intro d hd
      have hmem := hreported available rfl d hd
      exact ⟨hmem, hmirror.mem_iff.1 hmem⟩
  | lifespanExpired r writerGuid lifespan now =>
    apply hnothing
    rw [removeLifespanExpiredChanges_eq hok]
    exact hm
  | purgeOnRead r now =>
    apply hnothing
    rw [Fresh.purge hok]
    exact hm
  | take selected =>
    apply hnothing
    apply hm.take
    intro c hc
    exact mem_of_mem_filter hc

/-- In every run whose steps meet their conditions, the histories hold the same changes, and what a step reports as
available is in both. -/
theorem histories_mirror (limit : Nat) (cache : DataReaderHistoryCache) (hempty : cache.getChanges = [])
    (steps : List MirrorStep) (s : Reported)
    (hok : AllSteps MirrorStep.step (fun s m => m.Meets s.histories) ⟨ReaderHistoryCache.new limit cache, []⟩ steps)
    (hrun : run MirrorStep.step ⟨ReaderHistoryCache.new limit cache, []⟩ steps = some s) :
    (∀ i, i ∈ s.histories.changes.map CacheChange.id ↔ i ∈ s.histories.dataReaderCache.getChanges.map CacheChange.id) ∧
      ∀ c ∈ s.available, c ∈ s.histories.changes ∧ c ∈ s.histories.dataReaderCache.getChanges := by
  have hinit : MirrorReported ⟨ReaderHistoryCache.new limit cache, []⟩ := by
    refine ⟨⟨?_, nodup_nil⟩, ?_⟩
    · show [].Perm cache.getChanges
      rw [hempty]
    · intro c hc
      cases hc
  have hend : MirrorReported s := by
    refine run_invariant_of_allSteps ?_ hinit hok hrun
    intro s m s' hs hm hstep
    obtain rfl := Option.some.inj hstep
    exact mirrorReported_perform hs.mirror hm
  exact ⟨fun _ => (hend.mirror.perm.map _).mem_iff, hend.reported⟩

def plainView : DataReaderView :=
  { DataReaderView.plain with receivedAt := fun c => RtpsTime.fromNanos c.sequenceNumber.toNat }

def emptyHistory : DataReaderHistoryCache :=
  .new .reliable .keepAll (-1) (-1) (-1) false .shared .byReceptionTimestamp

def plainSample (sn : Int) : CacheChange := .new .alive ⟨1, 2⟩ .nil sn [0] (some ⟨5, 0⟩)

def twoArrivals : List MirrorStep :=
  [.addChange plainView (plainSample 1) true, .take (fun c => c.sequenceNumber = 1),
    .addChange plainView (plainSample 2) true]

theorem histories_mirror_second :
    ∃ s, run MirrorStep.step ⟨ReaderHistoryCache.new 8 emptyHistory, []⟩ twoArrivals = some s ∧
      s.histories.changes.map CacheChange.id = [(⟨1, 2⟩, 2)] ∧ s.available.map CacheChange.id = [(⟨1, 2⟩, 2)] ∧
      (∀ i, i ∈ s.histories.changes.map CacheChange.id ↔
        i ∈ s.histories.dataReaderCache.getChanges.map CacheChange.id) ∧
      ∀ c ∈ s.available, c ∈ s.histories.changes ∧ c ∈ s.histories.dataReaderCache.getChanges := by
  -- a sample that arrives alone, at empty histories
  have harrival (h : ReaderHistoryCache) (sn : Int) (hempty : h.changes = []) :
      (MirrorStep.addChange plainView (plainSample sn) true).Meets h := by
    refine ⟨⟨nodup_singleton _, ?_⟩, ?_, .inr (.inl (le_refl 1))⟩
    · intro a _ hstored
      rw [hempty] at hstored
      cases hstored
    · intro a _ d _
      rfl
  have hok : AllSteps MirrorStep.step (fun s m => m.Meets s.histories) ⟨ReaderHistoryCache.new 8 emptyHistory, []⟩
      twoArrivals := by
    refine ⟨harrival _ 1 rfl, fun s₁ h₁ => ⟨trivial, fun s₂ h₂ => ⟨?_, fun _ _ => trivial⟩⟩⟩
    obtain rfl := Option.some.inj h₁
    obtain rfl := Option.some.inj h₂
    exact harrival _ 2 (by decide +kernel)
  have hend := histories_mirror 8 emptyHistory (by decide +kernel) twoArrivals _ hok rfl
  exact ⟨_, rfl, by decide +kernel, by decide +kernel, hend⟩

/-- The reader of a content-filtered topic that lets only samples with a payload byte 1 through. -/
def filteredView : DataReaderView := { plainView with passesContentFilter := some (fun c => c.dataPayload == [1]) }

/-- A sample that the content filter drops stays in the RTPS history and is reported as available. -/
theorem histories_diverge_on_filter :
    ∃ s, run MirrorStep.step ⟨ReaderHistoryCache.new 8 emptyHistory, []⟩
        [.addChange filteredView (plainSample 1) true] = some s ∧
      s.histories.changes.map CacheChange.id = [(⟨1, 2⟩, 1)] ∧ s.available.map CacheChange.id = [(⟨1, 2⟩, 1)] ∧
      s.histories.dataReaderCache.getChanges.map CacheChange.id = [] :=
  ⟨_, rfl, by decide +kernel, by decide +kernel, by decide +kernel⟩

end Int2Dds.History
