import Int2Dds.System.Requests
import Mathlib.Data.List.Dedup
import Mathlib.Data.List.TakeWhile

/-!
# Batches of NACK_FRAGs

A reader names the fragments that it misses in NACK_FRAGs. The list is sorted and cut into windows of 256 numbers, one
submessage each, and the submessages are packed into datagrams, which are given here by the submessages behind their
first ones.
-/

namespace Int2Dds.System
open Lib Rtps Messages List

/-! ## Datagrams -/

section Packed

variable {α : Type} (submessageLen : α → Nat) (baseLen maxMessageSize : Nat)

/-- `rtpsMessage` is the open datagram, of `packedLen` bytes. -/
def packed : (rtpsMessage : List α) → (packedLen : Nat) → List α → List (List α)
  | rtpsMessage, _, [] => [rtpsMessage]
  | rtpsMessage, packedLen, m :: ms =>
    if baseLen < packedLen ∧ maxMessageSize < packedLen + submessageLen m then
      rtpsMessage :: packed [m] (baseLen + submessageLen m) ms
    else packed (rtpsMessage ++ [m]) (packedLen + submessageLen m) ms

variable {submessageLen baseLen maxMessageSize} {current ms : List α} {len : Nat}

theorem flatten_packed : (packed submessageLen baseLen maxMessageSize current len ms).flatten = current ++ ms := by
  induction ms generalizing current len with
  | nil => simp [packed]
  | cons m ms ih =>
    unfold packed
    split_ifs <;> simp [ih]

end Packed

/-! ## NACK_FRAG -/

def createNackfragSubmessage (n : NackFrag) : Sent := ⟨0x01, .nackFrag n⟩

/-- The fragments in the first window, which are taken from the list. -/
def calculateNackfragFnsFromVec : List (BitVec 32) → NumberSet (BitVec 32) × List (BitVec 32)
  | [] => (.newEmptyWithBase 1, [])
  | base :: frags =>
    let windowEnd := min (base.toNat + 255) (2 ^ 32 - 1)
    let inWindow (frag : BitVec 32) := decide (frag.toNat ≤ windowEnd)
    (.fromVec fragmentNumbers.offset base ((base :: frags).takeWhile inWindow), (base :: frags).dropWhile inWindow)

section

variable (readerId writerId : EntityId) (writerSn : SequenceNumber)

/-- The loop over the list, in at most `fuel` turns, and the next count. -/
def nackfragLoop : (fuel : Nat) → List (BitVec 32) → Count → List NackFrag × Count
  | 0, _, count => ([], count)
  | _ + 1, [], count => ([], count)
  | fuel + 1, frag :: frags, count =>
    let (fragmentNumberState, rest) := calculateNackfragFnsFromVec (frag :: frags)
    let (more, next) := nackfragLoop fuel rest (count + 1)
    (⟨readerId, writerId, writerSn, fragmentNumberState, count⟩ :: more, next)

/-- On a sorted list `dedup` drops all duplicates. -/
def createMultipleNackfragMsgs (missingFragments : List (BitVec 32)) (firstNackfragCount : Count)
    (maxMessageSize : Nat) : List (List NackFrag) × Count :=
  let frags := (missingFragments.mergeSort fun a b => decide (a.toNat ≤ b.toNat)).dedup
  if frags.isEmpty then ([], 0)
  else
    let (submessages, nackfragCount) := nackfragLoop readerId writerId writerSn frags.length frags firstNackfragCount
    (packed (fun n => 4 + (createNackfragSubmessage n).header.submessageLength.toNat) 48 maxMessageSize
      [] 48 submessages,
      nackfragCount - firstNackfragCount)

end

def requestedFragmentsAdd (missingFragments : Finset (BitVec 32)) (windowStart : BitVec 32) (windowNumBits : Nat)
    (fragmentNums : List (BitVec 32)) : Finset (BitVec 32) :=
  let windowEnd := min (windowStart.toNat + windowNumBits) (2 ^ 32 - 1)
  missingFragments.filter (fun n => n.toNat < windowStart.toNat ∨ windowEnd ≤ n.toNat) ∪ fragmentNums.toFinset

def receiveNackfrag (pending : Finset (BitVec 32)) (sent : NackFrag) : Option (Finset (BitVec 32)) :=
  let m := createNackfragSubmessage sent
  match ((NackFrag.deserialize m.header).runOn m.bodyBytes).result with
  | .ok n =>
    (n.fragmentNumberState.extractNumbers fragmentNumbers.wrappingAdd).map
      (requestedFragmentsAdd pending n.fragmentNumberState.bitmapBase n.fragmentNumberState.numBits)
  | _ => none

def Announces (n : NackFrag) (frag : BitVec 32) : Prop :=
  n.fragmentNumberState.bitmapBase.toNat ≤ frag.toNat ∧
    frag.toNat < n.fragmentNumberState.bitmapBase.toNat + n.fragmentNumberState.numBits

section

variable {readerId writerId : EntityId} {writerSn : SequenceNumber} {count : Count} {base frag : BitVec 32}
  {frags window : List (BitVec 32)} {pending : Finset (BitVec 32)}

theorem receiveNackfrag_fromVec (hsn : 1 ≤ writerSn.toI64) (hbase : 1 ≤ base.toNat) (htop : base.toNat < 2 ^ 32 - 256)
    (hwindow : ∀ n ∈ window, base.toNat ≤ n.toNat ∧ n.toNat ≤ base.toNat + 255) :
    let sent : NackFrag := ⟨readerId, writerId, writerSn, .fromVec fragmentNumbers.offset base window, count⟩
    ∃ q, receiveNackfrag pending sent = some q ∧ (∀ n, n ∈ q ↔ n ∈ window ∨ n ∈ pending ∧ ¬ Announces sent n) ∧
      ∀ n, Announces sent n → base.toNat ≤ n.toNat ∧ n.toNat ≤ base.toNat + 255 := by
  intro sent
  have hvalid : sent.Valid := ⟨not_le.2 hsn, NumberSet.isValid_fromVec (decide_eq_true hbase)⟩
  obtain ⟨l, hl, hmem⟩ := @NumberType.extractNumbers_fromVec _ fragmentNumbers base window (by
    show 1 ≤ (base.toNat : Int)
    omega) fun n hn hlt => by
      have h : (n.toNat : Int) < base.toNat := hlt
      have := hwindow n hn
      omega
  have hbits : sent.fragmentNumberState.numBits ≤ 256 := (NumberSetSent.of_isValid hvalid.set).1
  have hstart : sent.fragmentNumberState.bitmapBase = base := NumberSet.bitmapBase_fromVec
  have hdecoded : ((NackFrag.deserialize (createNackfragSubmessage sent).header).runOn
      (createNackfragSubmessage sent).bodyBytes).result = .ok sent :=
    Sent.runOn_result (NackFrag.decodes (Sent.kind_header (createNackfragSubmessage sent)) hvalid)
  have hread : receiveNackfrag pending sent =
      some (requestedFragmentsAdd pending base sent.fragmentNumberState.numBits l) := by
    unfold receiveNackfrag
    dsimp only
    rw [hdecoded]
    dsimp only
    rw [show sent.fragmentNumberState.extractNumbers _ = _ from hl, hstart]
    rfl
  refine ⟨_, hread, fun n => ?_, fun n hn => ?_⟩
  · have hin : n ∈ l ↔ n ∈ window := by
      rw [hmem]
      refine and_iff_left_of_imp fun hn => ?_
      show (base.toNat : Int) ≤ n.toNat ∧ (n.toNat : Int) < base.toNat + 256
      have := hwindow n hn
      omega
    unfold requestedFragmentsAdd Announces
    rw [Finset.mem_union, Finset.mem_filter, mem_toFinset, hin, hstart, or_comm, not_and_or, not_le, not_lt]
    rw [min_eq_left (by omega)]
  · unfold Announces at hn
    rw [hstart] at hn
    omega

theorem calculateNackfragFnsFromVec_spec (hasc : (base :: frags).Pairwise (fun a b => a.toNat < b.toNat))
    (htop : base.toNat < 2 ^ 32 - 256) :
    ∃ window rest, calculateNackfragFnsFromVec (base :: frags) = (.fromVec fragmentNumbers.offset base window, rest) ∧
      base :: frags = window ++ rest ∧ (∀ n ∈ window, base.toNat ≤ n.toNat ∧ n.toNat ≤ base.toNat + 255) ∧
      (∀ n ∈ rest, base.toNat + 255 < n.toNat) ∧ rest.length ≤ frags.length := by
  obtain ⟨p, hp⟩ : ∃ p, p = fun n : BitVec 32 => decide (n.toNat ≤ min (base.toNat + 255) (2 ^ 32 - 1)) := ⟨_, rfl⟩
  have hiff : ∀ n, p n = true ↔ n.toNat ≤ base.toNat + 255 := fun n => by
    rw [hp, decide_eq_true_eq, min_eq_left (by omega)]
  have hsplit := @takeWhile_append_dropWhile _ p (base :: frags)
  refine ⟨(base :: frags).takeWhile p, (base :: frags).dropWhile p,
    by rw [hp]; rfl, hsplit.symm, fun n hn => ?_, ?_, ?_⟩
  · refine ⟨?_, (hiff n).1 (mem_takeWhile_imp hn)⟩
    rcases mem_cons.1 ((takeWhile_sublist p).subset hn) with rfl | hmem
    · exact le_rfl
    · exact (rel_of_pairwise_cons hasc hmem).le
  · have hrest := hasc.sublist (dropWhile_sublist p)
    have hhead := head?_dropWhile_not p (base :: frags)
    cases hdrop : (base :: frags).dropWhile p with
    | nil => exact nofun
    | cons r rest =>
      rw [hdrop] at hrest hhead
      have hr : base.toNat + 255 < r.toNat := not_le.1 fun hle => Bool.eq_false_iff.1 hhead ((hiff r).2 hle)
      rw [forall_mem_cons]
      exact ⟨hr, fun n hn => hr.trans (rel_of_pairwise_cons hrest hn)⟩
  · rw [dropWhile_cons_of_pos ((hiff base).2 (Nat.le_add_right _ _))]
    exact (dropWhile_sublist p).length_le

/-- Each turn of the loop announces the window at the front of the list. -/
theorem nackfragLoop_spec (hsn : 1 ≤ writerSn.toI64) {fuel : Nat} (hfuel : frags.length ≤ fuel)
    (hasc : frags.Pairwise (fun a b => a.toNat < b.toNat))
    (hfrags : ∀ n ∈ frags, 1 ≤ n.toNat ∧ n.toNat < 2 ^ 32 - 256) (count : Count) (pending : Finset (BitVec 32)) :
    let sent := (nackfragLoop readerId writerId writerSn fuel frags count).1
    (∃ q, sent.foldlM receiveNackfrag pending = some q ∧
      ∀ n, n ∈ q ↔ n ∈ frags ∨ n ∈ pending ∧ ∀ m ∈ sent, ¬ Announces m n) ∧
    ∀ m ∈ sent, ∀ n, Announces m n → ∃ frag ∈ frags, frag.toNat ≤ n.toNat := by
  induction fuel generalizing frags count pending with
  | zero =>
    obtain rfl := eq_nil_of_length_eq_zero (Nat.le_zero.1 hfuel)
    exact ⟨⟨pending, rfl, by simp [nackfragLoop]⟩, nofun⟩
  | succ fuel ih =>
    cases frags with
    | nil => exact ⟨⟨pending, rfl, by simp [nackfragLoop]⟩, nofun⟩
    | cons base frags =>
      obtain ⟨hbase, htop⟩ := hfrags base mem_cons_self
      obtain ⟨window, rest, hcalc, hsplit, hwindow, hrest, hlen⟩ := calculateNackfragFnsFromVec_spec hasc htop
      obtain ⟨q, hq, hmem, hannounced⟩ := @receiveNackfrag_fromVec readerId writerId writerSn count base window pending
        hsn hbase htop hwindow
      have hsub : rest ⊆ base :: frags := hsplit ▸ subset_append_right window rest
      rw [hsplit] at hasc
      obtain ⟨⟨q', hq', hmem'⟩, hlater⟩ := ih (hlen.trans (Nat.le_of_succ_le_succ hfuel)) (pairwise_append.1 hasc).2.1
        (fun n hn => hfrags n (hsub hn)) (count + 1) q
      unfold nackfragLoop
      rw [hcalc]
      refine ⟨⟨q', ?_, fun n => ?_⟩, ?_⟩
      · rw [foldlM_cons, hq]
        exact hq'
      · rw [hmem', hmem, hsplit, mem_append, forall_mem_cons]
        -- a fragment in the first window is in no later one
        have hout :
            n ∈ window → ∀ m ∈ (nackfragLoop readerId writerId writerSn fuel rest (count + 1)).1, ¬ Announces m n := by
          intro hn m hm hin
          obtain ⟨frag, hfrag, hle⟩ := hlater m hm n hin
          have := hrest frag hfrag
          have := hwindow n hn
          omega
        tauto
      · rw [forall_mem_cons]
        refine ⟨fun n hn => ⟨base, mem_cons_self, (hannounced n hn).1⟩, fun m hm n hn => ?_⟩
        obtain ⟨frag, hfrag, hle⟩ := hlater m hm n hn
        exact ⟨frag, hsub hfrag, hle⟩

theorem nackfragLoop_counts (fuel : Nat) (frags : List (BitVec 32)) (count : Count) :
    let r := nackfragLoop readerId writerId writerSn fuel frags count
    r.1.map NackFrag.count = (range r.1.length).map (fun i => count + BitVec.ofNat 32 i) ∧
      r.2 = count + BitVec.ofNat 32 r.1.length ∧ r.1.length ≤ fuel := by
  have hzero : count = count + BitVec.ofNat 32 0 := (BitVec.add_zero count).symm
  induction fuel generalizing frags count with
  | zero => exact ⟨rfl, hzero, le_rfl⟩
  | succ fuel ih =>
    cases frags with
    | nil => exact ⟨rfl, hzero, Nat.zero_le _⟩
    | cons frag frags =>
      obtain ⟨hcounts, hnext, hlen⟩ := ih (calculateNackfragFnsFromVec (frag :: frags)).2 (count + 1)
        (BitVec.add_zero _).symm
      have hsucc (i : Nat) : count + 1 + BitVec.ofNat 32 i = count + BitVec.ofNat 32 (i + 1) := by
        rw [BitVec.add_assoc, BitVec.add_comm 1, BitVec.ofNat_add]
        rfl
      unfold nackfragLoop
      dsimp only
      rw [map_cons, hcounts, hnext, length_cons, range_succ_eq_map, map_cons, map_map, hsucc, ← hzero]
      exact ⟨congrArg (count :: ·) (map_congr_left fun i _ => hsucc i), rfl, Nat.succ_le_succ hlen⟩

variable {missing : List (BitVec 32)}

/-- **The NACK_FRAGs of a reader, as the writer applies them.** -/
theorem nackfrags_request (readerId writerId : EntityId) (hsn : 1 ≤ writerSn.toI64)
    (hmissing : ∀ n ∈ missing, 1 ≤ n.toNat ∧ n.toNat < 2 ^ 32 - 256) (first : Count) (maxMessageSize : Nat)
    (pending : Finset (BitVec 32)) :
    let r := createMultipleNackfragMsgs readerId writerId writerSn missing first maxMessageSize
    (∃ q, r.1.flatten.foldlM receiveNackfrag pending = some q ∧
      ∀ n, n ∈ q ↔ n ∈ missing ∨ n ∈ pending ∧ ∀ m ∈ r.1.flatten, ¬ Announces m n) ∧
    r.1.flatten.map NackFrag.count = (range r.2.toNat).map fun i => first + BitVec.ofNat 32 i := by
  have hasc : (missing.mergeSort fun a b => decide (a.toNat ≤ b.toNat)).dedup.Pairwise (fun a b => a.toNat < b.toNat) :=
    (((pairwise_mergeSort' (fun a b => a.toNat ≤ b.toNat) missing).sublist (dedup_sublist _)).and (nodup_dedup _)).imp
      fun h =>
      h.1.lt_of_ne fun heq => h.2 (BitVec.eq_of_toNat_eq heq)
  have hmem (n : BitVec 32) : n ∈ (missing.mergeSort fun a b => decide (a.toNat ≤ b.toNat)).dedup ↔ n ∈ missing := by
    rw [mem_dedup, mem_mergeSort]
  unfold createMultipleNackfragMsgs
  generalize (missing.mergeSort fun a b => decide (a.toNat ≤ b.toNat)).dedup = frags at *
  have hfrags : ∀ n ∈ frags, 1 ≤ n.toNat ∧ n.toNat < 2 ^ 32 - 256 := fun n hn => hmissing n ((hmem n).1 hn)
  simp only [← hmem]
  split_ifs with hnil
  · obtain rfl := isEmpty_iff.1 hnil
    exact ⟨⟨pending, rfl, by simp⟩, rfl⟩
  · obtain ⟨hcounts, hnext, hlen⟩ := @nackfragLoop_counts readerId writerId writerSn frags.length frags first
    -- the numbers on the list are different
    have hfew : frags.length < 2 ^ 32 := by
      have hnodup : (frags.map BitVec.toNat).Nodup := pairwise_map.2 (hasc.imp fun h => h.ne)
      have hrange : frags.map BitVec.toNat ⊆ range (2 ^ 32 - 256) := fun n hn => by
        obtain ⟨frag, hfrag, rfl⟩ := mem_map.1 hn
        exact mem_range.2 (hfrags frag hfrag).2
      have h := (subperm_of_subset hnodup hrange).length_le
      rw [length_map, length_range] at h
      omega
    rw [flatten_packed, hnext, BitVec.add_comm first, BitVec.add_sub_cancel, BitVec.toNat_ofNat,
      Nat.mod_eq_of_lt (hlen.trans_lt hfew)]
    exact ⟨(nackfragLoop_spec hsn le_rfl hasc hfrags first pending).1, hcounts⟩

/-- Fragments 2 and 300, twice, where 5 and 400 are pending. -/
theorem nackfrags_request_two :
    let r := createMultipleNackfragMsgs 0 0 ⟨0, 1⟩ [300, 2, 300] 7 65000
    ∃ q, r.1.flatten.foldlM receiveNackfrag {5, 400} = some q ∧
      ∀ n, n ∈ q ↔ n ∈ [300, 2, 300] ∨ n ∈ ({5, 400} : Finset (BitVec 32)) ∧ ∀ m ∈ r.1.flatten, ¬ Announces m n :=
  (nackfrags_request 0 0 (by decide) (by simp) 7 65000 {5, 400}).1

end

end Int2Dds.System
