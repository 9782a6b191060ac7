import Int2Dds.Lib.WeightedMap
import Int2Dds.System.FragmentStore

/-!
# The byte budget of the reassembly buffers

A running total of the sizes of the reassembly buffers is kept beside the map. A DATA_FRAG that opens a buffer first
evicts others until the new one fits, but spares the buffers of its own sample. The budget still holds since a sample
is refused when the buffers of all readers of its writer would not fit together: each reader's share of the budget is
large enough for any size of the sample that was ever let in.

* `operate` : one message, or buffers forgotten with their reader or writer;
* `takeVictims_spec` : after an eviction the new buffer fits, or only the spared buffers are left.
-/

namespace Int2Dds.System

open Lib Rtps Messages List
open Reader (WriterProxy)

namespace UserLogic

/-! ## Buffers that are forgotten -/

/-- The buffers whose keys do not pass leave the map, and their sizes the total. -/
def retainFragmentBuffers (s : UserLogic) (keep : BufferKey → Bool) : UserLogic :=
  (s.fragmentBuffers.keys.filter fun key => !keep key).foldl removeFragmentBuffer s

def forgetFragmentBuffersForReader (s : UserLogic) (readerId : EntityId) : UserLogic :=
  s.retainFragmentBuffers fun key => decide (key.2.1 ≠ readerId)

def forgetFragmentBuffersForWriter (s : UserLogic) (w : Guid) : UserLogic :=
  s.retainFragmentBuffers fun key => decide (key.1 ≠ w)

end UserLogic

/-- What happens to a participant with a fixed set of matched readers. -/
inductive StoreOperation
  | traffic (input : TrafficInput)
  | forgetReader (readerId : EntityId)
  | forgetWriter (w : Guid)

namespace UserLogic

def operate (s : UserLogic) : StoreOperation → Option UserLogic
  | .traffic input => s.step input
  | .forgetReader readerId => some (s.forgetFragmentBuffersForReader readerId)
  | .forgetWriter w => some (s.forgetFragmentBuffersForWriter w)

def heldBytes (s : UserLogic) : Nat := weight FragmentBuffer.totalSize s.fragmentBuffers

/-! ## What stays the same -/

structure SameReaders (s s' : UserLogic) : Prop where
  readers : s'.readers = s.readers
  stateless : s'.stateless = s.stateless
  orphaned : s'.orphaned = s.orphaned
  proxies : ∀ r w, (s'.proxies r w).isSome = (s.proxies r w).isSome

theorem SameReaders.refl (s : UserLogic) : SameReaders s s := ⟨rfl, rfl, rfl, fun _ _ => rfl⟩

variable {s s' base : UserLogic} {r : EntityId} {w : Guid}

theorem SameReaders.trans {s'' : UserLogic} (h : SameReaders s s') (h' : SameReaders s' s'') :
    SameReaders s s'' where
  readers := h'.readers.trans h.readers
  stateless := h'.stateless.trans h.stateless
  orphaned := h'.orphaned.trans h.orphaned
  proxies r w := (h'.proxies r w).trans (h.proxies r w)

theorem SameReaders.getMatchedReaders (h : SameReaders s s') (w : Guid) (readerId : EntityId) :
    s'.getMatchedReaders w readerId = s.getMatchedReaders w readerId := by
  have hmatched : ∀ r, s'.isMatched r w = s.isMatched r w := by
    intro r
    rw [isMatched, isMatched, h.proxies, h.stateless]
  unfold UserLogic.getMatchedReaders
  rw [h.readers, h.orphaned]
  simp only [hmatched]

structure SameBuffers (s s' : UserLogic) : Prop extends SameReaders s s' where
  buffers : s'.fragmentBuffers = s.fragmentBuffers
  bytes : s'.fragmentBufferBytes = s.fragmentBufferBytes

theorem SameBuffers.refl : SameBuffers s s := ⟨SameReaders.refl s, rfl, rfl⟩

theorem SameBuffers.trans {s'' : UserLogic} (h : SameBuffers s s') (h' : SameBuffers s' s'') : SameBuffers s s'' :=
  ⟨h.toSameReaders.trans h'.toSameReaders, h'.buffers.trans h.buffers, h'.bytes.trans h.bytes⟩

theorem sameBuffers_updateProxy (f : WriterProxy → WriterProxy) : SameBuffers s (s.updateProxy r w f) :=
  ⟨⟨rfl, rfl, rfl, isSome_proxies_updateProxy s r w f⟩, rfl, rfl⟩

variable {f : WriterProxy → Option WriterProxy}

theorem sameBuffers_withProxy (h : s.withProxy r w f = some s') :
    SameBuffers s s' := by
  unfold withProxy at h
  cases hp : s.proxies r w with
  | none =>
    rw [hp] at h
    cases h
    exact SameBuffers.refl
  | some p =>
    rw [hp] at h
    obtain ⟨p', -, rfl⟩ := Option.map_eq_some_iff.1 h
    exact sameBuffers_updateProxy _

theorem sameBuffers_forMatched {readerId : EntityId}
    (h : s.forMatched w readerId f = some s') : SameBuffers s s' :=
  run_invariant (I := SameBuffers s) (fun _ _ _ hs hw => hs.trans (sameBuffers_withProxy hw)) (SameBuffers.refl) h

theorem sameBuffers_foldl {ι : Type*} {f : UserLogic → ι → UserLogic} (hf : ∀ s i, SameBuffers s (f s i))
    (is : List ι) (s : UserLogic) : SameBuffers s (is.foldl f s) :=
  foldlRecOn is f (SameBuffers.refl) fun t h i _ => h.trans (hf t i)

theorem sameBuffers_retractLedger (s : UserLogic) (key : BufferKey) : SameBuffers s (s.retractLedger key) :=
  sameBuffers_foldl (fun _ _ => sameBuffers_updateProxy _) _ s

theorem sameReaders_removeFragmentBuffer (key : BufferKey) : SameReaders s (s.removeFragmentBuffer key) := by
  unfold removeFragmentBuffer
  split
  · exact SameReaders.refl s
  · exact ⟨rfl, rfl, rfl, fun _ _ => rfl⟩

/-! ## The invariant -/

/-- The total is exact and within the budget, every buffer within the share of its reader. The readers are those of
`base`. -/
structure Held (base s : UserLogic) : Prop where
  same : SameReaders base s
  exact : s.fragmentBufferBytes = s.heldBytes
  within : s.heldBytes ≤ fragmentBufferBudget
  share : ∀ key b, s.fragmentBuffers.lookup key = some b →
    b.totalSize * (base.getMatchedReaders key.1 entityIdUnknown).length ≤ fragmentBufferBudget

section

variable {base s s' : UserLogic}

theorem Held.of_sameBuffers (h : Held base s) (hs : SameBuffers s s') : Held base s' where
  same := h.same.trans hs.toSameReaders
  exact := by
    rw [hs.bytes, heldBytes, hs.buffers]
    exact h.exact
  within := by
    rw [heldBytes, hs.buffers]
    exact h.within
  share key b hb := h.share key b (hs.buffers ▸ hb)

variable {b : FragmentBuffer} {key : BufferKey}

theorem heldBytes_removeFragmentBuffer (hb : s.fragmentBuffers.lookup key = some b) :
    b.totalSize + (s.removeFragmentBuffer key).heldBytes = s.heldBytes := by
  unfold removeFragmentBuffer
  rw [hb]
  exact weight_erase hb

theorem Held.remove (h : Held base s) : Held base (s.removeFragmentBuffer key) := by
  cases hb : s.fragmentBuffers.lookup key with
  | none =>
    rw [removeFragmentBuffer, hb]
    exact h
  | some b =>
    have hbytes := heldBytes_removeFragmentBuffer hb
    constructor
    case same => exact h.same.trans (sameReaders_removeFragmentBuffer key)
    case exact =>
      have hcounter : (s.removeFragmentBuffer key).fragmentBufferBytes = s.fragmentBufferBytes - b.totalSize := by
        rw [removeFragmentBuffer, hb]
      have hexact := h.exact
      omega
    case within =>
      have hwithin := h.within
      omega
    case share =>
      intro key' b' hb'
      rw [lookup_removeFragmentBuffer] at hb'
      split_ifs at hb'
      exact h.share key' b' hb'

theorem Held.removeAll (h : Held base s) (keys : List BufferKey) : Held base (keys.foldl removeFragmentBuffer s) :=
  foldlRecOn keys _ h fun _ h _ _ => h.remove

theorem Held.insert (h : Held base s) (hnone : s.fragmentBuffers.lookup key = none)
    (hfits : s.heldBytes + b.totalSize ≤ fragmentBufferBudget)
    (hshare : b.totalSize * (base.getMatchedReaders key.1 entityIdUnknown).length ≤ fragmentBufferBudget) :
    Held base (s.insertFragmentBuffer key b) := by
  have hbytes : (s.insertFragmentBuffer key b).heldBytes = b.totalSize + s.heldBytes := weight_insert_new hnone
  constructor
  case same => exact h.same.trans ⟨rfl, rfl, rfl, fun _ _ => rfl⟩
  case exact =>
    have hcounter : (s.insertFragmentBuffer key b).fragmentBufferBytes = s.fragmentBufferBytes + b.totalSize := rfl
    have hexact := h.exact
    omega
  case within => omega
  case share =>
    intro key' b' hb'
    have hb' : (s.fragmentBuffers.insert key b).lookup key' = some b' := hb'
    by_cases hkey : key' = key
    · subst hkey
      rw [AList.lookup_insert] at hb'
      cases hb'
      exact hshare
    · rw [AList.lookup_insert_ne hkey] at hb'
      exact h.share key' b' hb'

theorem Held.store (h : Held base s) {b' : FragmentBuffer} (hb : s.fragmentBuffers.lookup key = some b)
    (hsize : b'.totalSize = b.totalSize) : Held base (s.storeFragmentBuffer key b') := by
  have hbytes : (s.storeFragmentBuffer key b').heldBytes = s.heldBytes := weight_insert_same hb hsize
  constructor
  case same => exact h.same.trans ⟨rfl, rfl, rfl, fun _ _ => rfl⟩
  case exact => exact h.exact.trans hbytes.symm
  case within => exact hbytes.trans_le h.within
  case share =>
    intro key' c hc
    have hc : (s.fragmentBuffers.insert key b').lookup key' = some c := hc
    by_cases hkey : key' = key
    · subst hkey
      rw [AList.lookup_insert] at hc
      cases hc
      rw [hsize]
      exact h.share key' b hb
    · rw [AList.lookup_insert_ne hkey] at hc
      exact h.share key' c hc

end

/-! ## Eviction makes room -/

variable {incomingBytes : Nat}

theorem takeVictims_spec (maxSize maxBytes : Nat) (es : List (BufferKey × FragmentBuffer)) (count bytes : Nat) :
    ∃ taken left, es = taken ++ left ∧ takeVictims maxSize maxBytes incomingBytes es count bytes = taken.map Prod.fst ∧
      (left = [] ∨ bytes - (taken.map fun e => e.2.totalSize).sum + incomingBytes ≤ maxBytes) := by
  induction es generalizing count bytes with
  | nil => exact ⟨[], [], rfl, rfl, .inl rfl⟩
  | cons e es ih =>
    unfold takeVictims
    split_ifs with hover
    · obtain ⟨taken, left, rfl, htake, hfits⟩ := ih (count - 1) (bytes - e.2.totalSize)
      refine ⟨e :: taken, left, rfl, by rw [htake, map_cons], hfits.imp_right (fun hfits => ?_)⟩
      rw [map_cons, sum_cons]
      omega
    · refine ⟨[], e :: es, rfl, rfl, .inr ?_⟩
      rw [isOver, decide_eq_true_iff, not_or, not_lt, not_lt] at hover
      exact hover.2

theorem selectEvictionVictims_spec (exclude : List BufferKey) :
    ∃ taken : List (BufferKey × FragmentBuffer),
      s.selectEvictionVictims incomingBytes exclude = taken.map Prod.fst ∧
      (taken.map Prod.fst).Nodup ∧ (∀ e ∈ taken, s.fragmentBuffers.lookup e.1 = some e.2) ∧
      ((∀ key b, s.fragmentBuffers.lookup key = some b → key ∈ exclude ∨ key ∈ taken.map Prod.fst) ∨
        s.fragmentBufferBytes - (taken.map fun e => e.2.totalSize).sum + incomingBytes ≤ fragmentBufferBudget) := by
  unfold selectEvictionVictims
  dsimp only
  split_ifs with hover
  · set held := s.fragmentBuffers.entries.map fun e => (e.1, e.2) with hheld
    have hmem : ∀ e, e ∈ held ↔ s.fragmentBuffers.lookup e.1 = some e.2 := by
      intro e
      rw [← Option.mem_def, AList.mem_lookup_iff, mem_map]
      exact ⟨fun ⟨e', he', h⟩ => h ▸ he', fun he => ⟨_, he, rfl⟩⟩
    have hnodup : (held.map Prod.fst).Nodup := by
      rw [map_map]
      exact s.fragmentBuffers.keys_nodup
    obtain ⟨taken, left, hsplit, htake, hfits⟩ :=
      takeVictims_spec fragmentBufferLimit fragmentBufferBudget
      ((held.filter (fun e => e.1 ∉ exclude)).insertionSort evictsBefore) held.length
      s.fragmentBufferBytes
    have hperm : (taken ++ left).Perm (held.filter fun e => e.1 ∉ exclude) :=
      hsplit ▸ perm_insertionSort evictsBefore _
    refine ⟨taken, htake, ?_, fun e he => ?_, hfits.imp_left (fun hleft key b hb => ?_)⟩
    · have hall : ((taken ++ left).map Prod.fst).Nodup :=
        ((hperm.map Prod.fst).nodup_iff).2 ((filter_sublist.map Prod.fst).nodup hnodup)
      rw [map_append] at hall
      exact hall.of_append_left
    · exact (hmem e).1 (mem_filter.1 (hperm.mem_iff.1 (mem_append_left _ he))).1
    · -- no candidate is left, so what is held is a victim or spared
      by_cases hkey : key ∈ exclude
      · exact .inl hkey
      · refine .inr (mem_map.2 ⟨(key, b), ?_, rfl⟩)
        rw [hleft, append_nil] at hperm
        exact hperm.mem_iff.2 (mem_filter.2 ⟨(hmem (key, b)).2 hb, decide_eq_true hkey⟩)
  · refine ⟨[], rfl, nodup_nil, nofun, .inr ?_⟩
    rw [isOver, decide_eq_true_iff, not_or, not_lt, not_lt] at hover
    exact hover.2

theorem heldBytes_removeAll {taken : List (BufferKey × FragmentBuffer)} (hnodup : (taken.map Prod.fst).Nodup)
    (htaken : ∀ e ∈ taken, s.fragmentBuffers.lookup e.1 = some e.2) :
    (taken.map fun e => e.2.totalSize).sum + ((taken.map Prod.fst).foldl removeFragmentBuffer s).heldBytes =
      s.heldBytes := by
  induction taken generalizing s with
  | nil => exact Nat.zero_add _
  | cons e taken ih =>
    rw [map_cons, nodup_cons] at hnodup
    have hfirst := heldBytes_removeFragmentBuffer (htaken e mem_cons_self)
    have hrest := ih (s := s.removeFragmentBuffer e.1) hnodup.2 (fun e' he' => by
      rw [lookup_removeFragmentBuffer, if_neg]
      · exact htaken e' (mem_cons_of_mem _ he')
      · rintro heq
        exact hnodup.1 (mem_map.2 ⟨e', he', heq⟩))
    rw [map_cons, map_cons, sum_cons, foldl_cons]
    omega

theorem Held.evict (h : Held base s) (w : Guid) (matched : List EntityId) (sn : Int) (incomingBytes : Nat) :
    Held base (s.evictFragmentBuffersIfFull w matched sn incomingBytes) :=
  (h.removeAll _).of_sameBuffers (sameBuffers_foldl sameBuffers_retractLedger _ _)

/-- After an eviction the new buffer fits, or all that is held are buffers of its sample. -/
theorem evict_room (h : Held base s) (matched : List EntityId) (sn : Int) :
    (s.evictFragmentBuffersIfFull w matched sn incomingBytes).heldBytes + incomingBytes ≤ fragmentBufferBudget ∨
      ∀ key b, (s.evictFragmentBuffersIfFull w matched sn incomingBytes).fragmentBuffers.lookup key = some b →
        key ∈ matched.map fun r => (w, r, sn) := by
  obtain ⟨taken, hvictims, hnodup, htaken, hleft⟩ :=
    selectEvictionVictims_spec (matched.map fun r => (w, r, sn))
  have hbytes := heldBytes_removeAll hnodup htaken
  unfold evictFragmentBuffersIfFull
  rw [hvictims]
  have hsame := sameBuffers_foldl sameBuffers_retractLedger (taken.map Prod.fst)
    ((taken.map Prod.fst).foldl removeFragmentBuffer s)
  rcases hleft with hleft | hfits
  · refine .inr (fun key b hb => ?_)
    rw [hsame.buffers, (removeFragmentBuffer_foldl _ s).2] at hb
    split_ifs at hb with hkey
    exact (hleft key b hb).resolve_right hkey
  · rw [heldBytes, hsame.buffers, ← heldBytes]
    have hexact := h.exact
    omega

variable {addressed : EntityId}

theorem addressed_le_footprint (s : UserLogic) (totalSize : Nat) :
    totalSize * (s.getMatchedReaders w entityIdUnknown).length ≤
        s.fragmentSampleFootprint w addressed (s.getMatchedReaders w addressed).length totalSize ∧
      totalSize * (s.getMatchedReaders w addressed).length ≤
        s.fragmentSampleFootprint w addressed (s.getMatchedReaders w addressed).length totalSize := by
  unfold fragmentSampleFootprint
  split_ifs with hunknown
  · rw [hunknown]
    exact ⟨le_rfl, le_rfl⟩
  · exact ⟨Nat.mul_le_mul_left _ (le_max_left _ _), Nat.mul_le_mul_left _ (le_max_right _ _)⟩

theorem addressed_cases (hr : r ∈ s.getMatchedReaders w addressed) :
    s.getMatchedReaders w addressed = s.getMatchedReaders w entityIdUnknown ∨
      s.getMatchedReaders w addressed = [r] := by
  by_cases hunknown : addressed = entityIdUnknown
  · rw [hunknown]
    exact .inl rfl
  · refine .inr ?_
    unfold getMatchedReaders at hr ⊢
    rw [if_pos hunknown] at hr ⊢
    split_ifs at hr ⊢ with hin
    · rw [mem_singleton.1 hr]
    · cases hr

/-- The parts of the sample's readers other than `r`, and the new buffer of `r`, fit together. -/
theorem spared_fit {t : UserLogic} (h : Held base t) {sn : Int} {size : Nat}
    (hr : r ∈ base.getMatchedReaders w addressed) (hnone : t.fragmentBuffers.lookup (w, r, sn) = none)
    (hspared :
      ∀ key b, t.fragmentBuffers.lookup key = some b →
      key ∈ (base.getMatchedReaders w addressed).map fun r => (w, r, sn))
    (hsize : size * (base.getMatchedReaders w addressed).length ≤ fragmentBufferBudget) :
    t.heldBytes + size ≤ fragmentBufferBudget := by
  set matched := base.getMatchedReaders w addressed with hmatched
  obtain ⟨n, hn⟩ : ∃ n, matched.length = n + 1 := Nat.exists_eq_add_one.2 (length_pos_of_mem hr)
  have hothers : t.heldBytes * (n + 1) ≤ n * fragmentBufferBudget := by
    have hle : t.heldBytes * (n + 1) ≤ ((matched.erase r).map fun r => (w, r, sn)).length * fragmentBufferBudget := by
      refine weight_mul_le (fun key b hb => ?_)
      obtain ⟨r', hr', rfl⟩ := mem_map.1 (hspared key b hb)
      have hne : r' ≠ r := by
        rintro rfl
        rw [hnone] at hb
        cases hb
      refine ⟨mem_map_of_mem ((mem_erase_of_ne hne).2 hr'), ?_⟩
      rcases addressed_cases hr with hall | hone
      · have hshare := h.share _ b hb
        rwa [← hall, hn] at hshare
      · -- a message to one reader spares no other
        rw [← hmatched] at hone
        rw [hone] at hr'
        exact absurd (mem_singleton.1 hr') hne
    rwa [length_map, length_erase_of_mem hr, hn] at hle
  rw [hn] at hsize
  refine Nat.le_of_mul_le_mul_right (c := n + 1) ?_ n.succ_pos
  calc (t.heldBytes + size) * (n + 1)
      = t.heldBytes * (n + 1) + size * (n + 1) := Nat.add_mul _ _ _
    _ ≤ n * fragmentBufferBudget + fragmentBufferBudget := Nat.add_le_add hothers hsize
    _ = fragmentBufferBudget * (n + 1) := by rw [Nat.mul_comm n, Nat.mul_succ]

/-! ## The turns of a DATA_FRAG -/

section

variable {base s s' : UserLogic} {m : FragMessage} {r : EntityId}

section

variable (h : Held base s)
include h

theorem held_findOrOpenBuffer (hr : r ∈ base.getMatchedReaders m.writer m.frag.readerId) {ob : Option FragmentBuffer}
    (hfind : s.findOrOpenBuffer m (base.getMatchedReaders m.writer m.frag.readerId) r = (s', ob)) :
    Held base s' ∧ ∀ b, ob = some b → s'.fragmentBuffers.lookup (m.key r) = some b := by
  unfold findOrOpenBuffer at hfind
  cases hlookup : s.fragmentBuffers.lookup (m.key r) with
  | some b =>
    rw [hlookup] at hfind
    cases hfind
    exact ⟨h, fun b' hb' => hb' ▸ hlookup⟩
  | none =>
    rw [hlookup] at hfind
    have hevicted := h.evict m.writer (base.getMatchedReaders m.writer m.frag.readerId) m.sn m.frag.sampleSize.toNat
    split_ifs at hfind with hfootprint halloc
    · cases hfind
      exact ⟨h, by simp⟩
    · cases hfind
      rw [not_lt] at hfootprint
      obtain ⟨hall, haddressed⟩ := addressed_le_footprint s m.frag.sampleSize.toNat
      simp only [h.same.getMatchedReaders] at hall haddressed
      have hnone := (lookup_evict_arriving s m.writer m.sn m.frag.sampleSize.toNat hr).trans hlookup
      refine ⟨hevicted.insert hnone ?_ (hall.trans hfootprint), fun b hb => ?_⟩
      · rcases evict_room h (base.getMatchedReaders m.writer m.frag.readerId) m.sn
          with hfits | hspared
        · exact hfits
        · exact spared_fit hevicted hr hnone hspared (haddressed.trans hfootprint)
      · cases hb
        exact AList.lookup_insert _
    · cases hfind
      exact ⟨hevicted, by simp⟩

theorem held_takeFragments {b b' : FragmentBuffer} (hb : s.fragmentBuffers.lookup (m.key r) = some b)
    (htake : s.takeFragments m r b = (s', b')) : Held base s' := by
  obtain ⟨accepted, htook, -, rfl⟩ := took_takeFragments htake
  exact (h.store hb htook.totalSize).of_sameBuffers (sameBuffers_updateProxy _)

theorem held_deliverSample {b : FragmentBuffer} (hdeliver : s.deliverSample m r b = some s') : Held base s' := by
  unfold deliverSample at hdeliver
  split_ifs at hdeliver
  · cases hdeliver
    exact (h.remove).of_sameBuffers (sameBuffers_updateProxy _)
  · exact (h.remove).of_sameBuffers (sameBuffers_withProxy hdeliver)

theorem held_turn (hr : r ∈ base.getMatchedReaders m.writer m.frag.readerId)
    (hturn : turn m (base.getMatchedReaders m.writer m.frag.readerId) s r = some s') : Held base s' := by
  unfold turn at hturn
  rcases hfind : s.findOrOpenBuffer m (base.getMatchedReaders m.writer m.frag.readerId) r with ⟨s₁, ob⟩
  rw [hfind] at hturn
  obtain ⟨hopened, hbuffer⟩ := held_findOrOpenBuffer h hr hfind
  cases ob with
  | none =>
    cases hturn
    exact hopened
  | some b =>
    rcases htake : s₁.takeFragments m r b with ⟨s₂, b'⟩
    dsimp only at hturn
    rw [htake] at hturn
    have htaken := held_takeFragments hopened (hbuffer b rfl) htake
    split_ifs at hturn
    · exact held_deliverSample htaken hturn
    · cases hturn
      exact htaken

theorem held_turns {rs : List EntityId} (hrs : rs ⊆ base.getMatchedReaders m.writer m.frag.readerId)
    (hrun : run (turn m (base.getMatchedReaders m.writer m.frag.readerId)) s rs = some s') : Held base s' := by
  induction rs generalizing s with
  | nil =>
    cases hrun
    exact h
  | cons r rs ih =>
    obtain ⟨t, hturn, hrun⟩ := run_cons.1 hrun
    exact ih (held_turn h (hrs mem_cons_self) hturn) (fun r' hr' => hrs (mem_cons_of_mem _ hr')) hrun

/-! ## Whole runs -/

theorem held_step {input : TrafficInput} (hstep : s.step input = some s') : Held base s' := by
  cases input with
  | dataFrag m =>
    have hstep : run (turn m (s.getMatchedReaders m.writer m.frag.readerId)) s
      (s.getMatchedReaders m.writer m.frag.readerId) = some s' := hstep
    rw [h.same.getMatchedReaders] at hstep
    exact held_turns h (Subset.refl _) hstep
  | heartbeat | heartbeatFrag | data | gap => exact h.of_sameBuffers (sameBuffers_forMatched hstep)

theorem held_operate {op : StoreOperation} (hop : s.operate op = some s') : Held base s' := by
  cases op with
  | traffic input => exact held_step h hop
  | forgetReader | forgetWriter =>
    cases hop
    exact h.removeAll _

end

end

theorem held_start (hbuffers : s.fragmentBuffers = ∅) (hbytes : s.fragmentBufferBytes = 0) : Held s s := by
  have hheld : s.heldBytes = 0 := by
    rw [heldBytes, hbuffers]
    rfl
  constructor
  case same => exact SameReaders.refl s
  case exact => rw [hbytes, hheld]
  case within => rw [hheld]; exact Nat.zero_le _
  case share =>
    intro key b hb
    rw [hbuffers] at hb
    cases hb

/-- In every run from empty buffers the total is the sum of the sizes of the buffers and within the budget, also
before the turn of each reader of the next DATA_FRAG; and the eviction in that turn spares the buffers of the readers
that it is for. -/
theorem fragment_bytes_within_budget {s s' : UserLogic} (hbuffers : s.fragmentBuffers = ∅)
    (hbytes : s.fragmentBufferBytes = 0) {ops : List StoreOperation} (hrun : run operate s ops = some s') :
    s'.fragmentBufferBytes = s'.heldBytes ∧ s'.fragmentBufferBytes ≤ fragmentBufferBudget ∧
      ∀ (m : FragMessage) (matched before after : List EntityId) (r : EntityId) (t : UserLogic),
        matched = s'.getMatchedReaders m.writer m.frag.readerId → matched = before ++ r :: after →
        run (turn m matched) s' before = some t →
          t.fragmentBufferBytes = t.heldBytes ∧ t.fragmentBufferBytes ≤ fragmentBufferBudget ∧
            ∀ r' ∈ matched,
              (t.evictFragmentBuffersIfFull m.writer matched m.sn m.frag.sampleSize.toNat).fragmentBuffers.lookup
                (m.key r') = t.fragmentBuffers.lookup (m.key r') := by
  have hheld : Held s s' :=
    run_invariant (fun _ _ _ h hop => held_operate h hop) (held_start hbuffers hbytes) hrun
  refine ⟨hheld.exact, hheld.exact.trans_le hheld.within, ?_⟩
  intro m matched before after r t hmatched hsplit hturns
  rw [hheld.same.getMatchedReaders] at hmatched
  subst hmatched
  have ht : Held s t := by
    refine held_turns hheld (fun r' hr' => ?_) hturns
    rw [hsplit]
    exact mem_append_left _ hr'
  exact ⟨ht.exact, ht.exact.trans_le ht.within,
    fun r' hr' => lookup_evict_arriving t m.writer m.sn m.frag.sampleSize.toNat hr'⟩

/-- Two sizes for one sample, after the buffer of an earlier copy was forgotten with its writer. -/
theorem fragment_bytes_within_budget_resized :
    ∃ t, run operate oneReader [.traffic (piece 2 1 (by decide) (by decide)), .forgetWriter ⟨0, 2⟩,
        .traffic (piece 3 1 (by decide) (by decide)), .traffic (piece 4 2 (by decide) (by decide)),
        .forgetReader 5] = some t ∧
      t.fragmentBufferBytes = 3 ∧ t.fragmentBufferBytes = t.heldBytes := by
  have hrun : ((run operate oneReader [.traffic (piece 2 1 (by decide) (by decide)), .forgetWriter ⟨0, 2⟩,
      .traffic (piece 3 1 (by decide) (by decide)), .traffic (piece 4 2 (by decide) (by decide)),
      .forgetReader 5]).any fun t => decide (t.fragmentBufferBytes = 3)) = true := by decide +kernel
  obtain ⟨t, ht, hbytes⟩ := (Option.any_eq_true _ _).1 hrun
  exact ⟨t, ht, of_decide_eq_true hbytes, (fragment_bytes_within_budget rfl rfl ht).1⟩

end UserLogic

end Int2Dds.System
