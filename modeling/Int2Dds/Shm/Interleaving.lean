import Int2Dds.Lib.Run
import Int2Dds.Shm.RingBuffer

/-!
# Writers that run at the same time

Any number of calls of `write` take their steps in any order. A call that has reserved a range moves `commitPos` when
it finds `commitPos` at the start of its range, so that commits come in the order of the reservations: `commitPos`
does not go back, and everything below it is copied.

A call that has looked `maxCommitSpin` times in vain stores its `commitPos` all the same (`Phase.forcing`). With it
both properties are lost (`commit_goes_back`); `commit_in_order` is about the runs in which no call comes to that.
What is written lies in the data area in any case (`writes_inside`), and apart from what others write
(`reservations_apart`).
-/

namespace Int2Dds.Shm
open Lib List

/-- The reservation that a call has not committed yet. -/
def Phase.held : Phase → Option Reservation
  | marking res | numbering res | copyingHeader res _ | copyingData res | waiting res _ | committing res
  | forcing res => some res
  | entered | loading _ | exchanging _ _ | returned _ _ | panicked => none

/-- The reservation that a call has made, committed or not. -/
def Phase.reservation : Phase → Option Reservation
  | returned res _ => res
  | phase => phase.held

/-- Header and data of the message are in the ring. -/
def Phase.isCopied : Phase → Bool
  | waiting _ _ | committing _ | forcing _ | returned _ _ => true
  | entered | loading _ | exchanging _ _ | marking _ | numbering _ | copyingHeader _ _ | copyingData _ | panicked =>
    false

/-- The call has passed the size checks and has no reservation yet. -/
def Phase.isTrying : Phase → Bool
  | loading _ | exchanging _ _ => true
  | _ => false

structure Writer where
  data : Bytes
  phase : Phase

def Writer.range (w : Writer) : Option (Nat × Nat) :=
  w.phase.held.map fun res => (res.commitWaitPos (totalSize w.data), res.newCommit (totalSize w.data))

structure System where
  ring : Ring
  writers : List Writer

inductive Event
  | call (data : Bytes)
  | step (i : Nat)

namespace System

def init (ring : Ring) : System := ⟨ring, []⟩

def next (s : System) : Event → Option System
  | .call data => some { s with writers := s.writers ++ [⟨data, .entered⟩] }
  | .step i => (s.writers[i]?).map fun w =>
    { ring := (w.phase.step s.ring w.data).2
      writers := s.writers.set i { w with phase := (w.phase.step s.ring w.data).1 } }

/-- Call `i` looks for its turn the last time, and it is not its turn. -/
def givesUp (s : System) : Event → Bool
  | .call _ => false
  | .step i => (s.writers[i]?).any fun w => match w.phase with
    | .waiting res spinCount =>
      decide (maxCommitSpin ≤ spinCount + 1) && decide (s.ring.commitPos ≠ res.commitWaitPos (totalSize w.data))
    | _ => false

end System

/-! ## One step -/

/-- What a step of a call does to the positions: nothing, a reservation, or a commit in its turn. -/
inductive Moves (r : Ring) (data : Bytes) (phase : Phase) : Phase × Ring → Prop
  | stays {phase' : Phase} {r' : Ring} (held : phase'.held = phase.held) (reserve : r'.reservePos = r.reservePos)
      (commit : r'.commitPos = r.commitPos) (trying : phase'.isTrying = true → data.length < 2 ^ 32)
      (turn : ∀ res, phase' = .committing res → r.commitPos = res.commitWaitPos (totalSize data))
      (unforced : ∀ res, phase' ≠ .forcing res) : Moves r data phase (phase', r')
  | reserves {phase' : Phase} {r' : Ring} {res : Reservation} (free : phase.held = none)
      (held : phase'.held = some res) (start : res.commitWaitPos (totalSize data) = r.reservePos)
      (pos : 0 < res.reservedSize) (reserve : r'.reservePos = r.reservePos + res.reservedSize)
      (commit : r'.commitPos = r.commitPos) (marks : phase' = .marking res ∨ phase' = .numbering res) :
      Moves r data phase (phase', r')
  | commits {res : Reservation} {r' : Ring} (result : Except RingBufferError Nat) (turn : phase = .committing res)
      (reserve : r'.reservePos = r.reservePos) (commit : r'.commitPos = res.newCommit (totalSize data)) :
      Moves r data phase (.returned (some res) result, r')

theorem moves_step {r : Ring} {data : Bytes} {phase : Phase} (htry : phase.isTrying = true → data.length < 2 ^ 32)
    (hforce : ∀ res, phase ≠ .forcing res)
    (hturn : ∀ res spinCount, phase = .waiting res spinCount → maxCommitSpin ≤ spinCount + 1 →
      r.commitPos = res.commitWaitPos (totalSize data)) :
    Moves r data phase (phase.step r data) := by
  cases phase with
  | entered =>
    rw [Phase.step]
    split_ifs with hmax hsize
    · exact .stays rfl rfl rfl nofun nofun nofun
    · exact .stays rfl rfl rfl nofun nofun nofun
    · refine .stays rfl rfl rfl (fun _ => ?_) nofun nofun
      have := r.maxMessageSize_lt
      omega
  | loading retries =>
    rw [Phase.step]
    split_ifs
    · exact .stays rfl rfl rfl nofun nofun nofun
    · exact .stays rfl rfl rfl (fun _ => htry rfl) nofun nofun
  | exchanging retries currentPos =>
    rw [Phase.step]
    split_ifs with hover hcur hmark
    · exact .stays rfl rfl rfl nofun nofun nofun
    · exact .reserves rfl rfl ((commitWaitPos_reserve _ _ _).trans hcur.symm)
        (reservedSize_pos _ _ (totalSize_pos (htry rfl))) (by rw [hcur]) rfl (.inl rfl)
    · exact .reserves rfl rfl ((commitWaitPos_reserve _ _ _).trans hcur.symm)
        (reservedSize_pos _ _ (totalSize_pos (htry rfl))) (by rw [hcur]) rfl (.inr rfl)
    · exact .stays rfl rfl rfl (fun _ => htry rfl) nofun nofun
  | marking res =>
    rw [Phase.step]
    cases res.marker <;> exact .stays rfl rfl rfl nofun nofun nofun
  | numbering | copyingHeader | copyingData | returned | panicked =>
    exact .stays rfl rfl rfl nofun nofun nofun
  | waiting res spinCount =>
    rw [Phase.step]
    split_ifs with hcommit hspin
    · refine .stays rfl rfl rfl nofun (fun res' hres => ?_) nofun
      cases hres
      exact hcommit
    · exact absurd (hturn res spinCount rfl hspin) hcommit
    · exact .stays rfl rfl rfl nofun nofun nofun
  | committing res => exact .commits _ rfl rfl rfl
  | forcing res => exact absurd rfl (hforce res)

/-! ## Every interleaving -/

/-- The range of a call lies between `commitPos` and `reservePos`, and at `commitPos` when it is to commit. -/
structure Writer.Waits (r : Ring) (w : Writer) : Prop where
  within : ∀ a b, w.range = some (a, b) → r.commitPos ≤ a ∧ a < b ∧ b ≤ r.reservePos
  turn : ∀ res, w.phase = .committing res → r.commitPos = res.commitWaitPos (totalSize w.data)
  unforced : ∀ res, w.phase ≠ .forcing res
  checked : w.phase.isTrying = true → w.data.length < 2 ^ 32

def Writer.Apart (w v : Writer) : Prop :=
  ∀ a b c d, w.range = some (a, b) → v.range = some (c, d) → b ≤ c ∨ d ≤ a

/-- The ranges that are not committed lie apart, at or above `commitPos`. -/
structure InOrder (s : System) : Prop where
  settled : s.ring.commitPos ≤ s.ring.reservePos
  waits : ∀ w ∈ s.writers, w.Waits s.ring
  apart : ∀ i j : Nat, i ≠ j → ∀ w ∈ s.writers[i]?, ∀ v ∈ s.writers[j]?, w.Apart v

variable {res : Reservation} {w : Writer} {s : System} {i : Nat}

theorem Writer.range_eq_some (h : w.phase.held = some res) :
    w.range = some (res.commitWaitPos (totalSize w.data), res.newCommit (totalSize w.data)) := by
  rw [Writer.range, h, Option.map_some]

theorem InOrder.call (h : InOrder s) (data : Bytes) :
    InOrder { s with writers := s.writers ++ [⟨data, .entered⟩] } where
  settled := h.settled
  waits := by
    intro w hw
    rcases mem_append.1 hw with hw | hw
    · exact h.waits w hw
    · obtain rfl := mem_singleton.1 hw
      exact ⟨nofun, nofun, nofun, nofun⟩
  apart := by
    have hnew (i : Nat) (w : Writer) (hw : w ∈ (s.writers ++ [⟨data, .entered⟩])[i]?) :
        w ∈ s.writers[i]? ∨ w.range = none := by
      rw [getElem?_append] at hw
      split_ifs at hw
      · exact .inl hw
      · obtain rfl := mem_singleton.1 (mem_of_getElem? hw)
        exact .inr rfl
    intro i j hij w hw v hv a b c d hab hcd
    rcases hnew i w hw with hw | hw
    · rcases hnew j v hv with hv | hv
      · exact h.apart i j hij w hw v hv a b c d hab hcd
      · rw [hv] at hcd
        cases hcd
    · rw [hw] at hab
      cases hab

/-- A step of one call: what is to be shown of the call itself, and of the others against it. -/
theorem InOrder.set (h : InOrder s) {w' : Writer} {r : Ring} (hw : s.writers[i]? = some w)
    (hsettled : r.commitPos ≤ r.reservePos) (hself : w'.Waits r)
    (hothers : ∀ v, v.Waits s.ring → w.Apart v → v.Waits r ∧ w'.Apart v) :
    InOrder { ring := r, writers := s.writers.set i w' } where
  settled := hsettled
  waits := by
    intro v hv
    obtain ⟨j, hj⟩ := mem_iff_getElem?.1 hv
    rw [getElem?_set] at hj
    split_ifs at hj with hij hlt
    · cases hj
      exact hself
    · have hvs := h.waits v (mem_of_getElem? hj)
      exact (hothers v hvs (h.apart i j hij w hw v hj)).1
  apart := by
    have hnew (j : Nat) (hij : i ≠ j) (v : Writer) (hv : s.writers[j]? = some v) : w'.Apart v :=
      (hothers v (h.waits v (mem_of_getElem? hv)) (h.apart i j hij w hw v hv)).2
    intro j k hjk v hv u hu
    rw [Option.mem_def, getElem?_set] at hv hu
    split_ifs at hv hu with hij hlt hik
    · exact absurd (hij.symm.trans hik) hjk
    · cases hv
      exact hnew k hik u hu
    · cases hu
      intro a b c d hab hcd
      exact (hnew j hij v hv c d a b hcd hab).symm
    · exact h.apart j k hjk v hv u hu

theorem InOrder.step (h : InOrder s) (hw : s.writers[i]? = some w) (hgive : s.givesUp (.step i) = false) :
    s.ring.commitPos ≤ (w.phase.step s.ring w.data).2.commitPos ∧
      InOrder { ring := (w.phase.step s.ring w.data).2
                writers := s.writers.set i { w with phase := (w.phase.step s.ring w.data).1 } } := by
  have hwaits := h.waits w (mem_of_getElem? hw)
  have hmoves : Moves s.ring w.data w.phase (w.phase.step s.ring w.data) := by
    apply moves_step hwaits.checked hwaits.unforced
    intro res spinCount hphase hspin
    simpa [System.givesUp, hw, hphase, hspin] using hgive
  generalize w.phase.step s.ring w.data = res at hmoves
  cases hmoves with
  | @stays phase' r' held reserve commit trying turn unforced =>
    have hrange : ({ w with phase := phase' } : Writer).range = w.range := by rw [Writer.range, held, Writer.range]
    refine ⟨commit.ge, h.set hw (by rw [commit, reserve]; exact h.settled) ⟨?_, ?_, unforced, trying⟩ ?_⟩
    · rw [hrange, commit, reserve]
      exact hwaits.within
    · rw [commit]
      exact turn
    · intro v hv hapart
      rw [Writer.Apart, hrange]
      exact ⟨⟨by rw [commit, reserve]; exact hv.within, by rw [commit]; exact hv.turn, hv.unforced, hv.checked⟩, hapart⟩
  | @reserves phase' r' res free held start pos reserve commit marks =>
    dsimp only
    -- the new range starts where everything reserved so far ends
    have hrange : ({ w with phase := phase' } : Writer).range =
        some (s.ring.reservePos, s.ring.reservePos + res.reservedSize) := by
      rw [Writer.range_eq_some held, Reservation.newCommit, start]
    have hsettled := h.settled
    refine ⟨commit.ge, h.set hw (by omega) ⟨?_, ?_, ?_, ?_⟩ ?_⟩
    · intro a b hab
      rw [hrange] at hab
      cases hab
      omega
    · rcases marks with rfl | rfl <;> exact nofun
    · rcases marks with rfl | rfl <;> exact nofun
    · rcases marks with rfl | rfl <;> exact nofun
    · intro v hv _
      refine ⟨⟨fun c d hcd => ?_, by rw [commit]; exact hv.turn, hv.unforced, hv.checked⟩, ?_⟩
      · have := hv.within c d hcd
        omega
      · intro a b c d hab hcd
        rw [hrange] at hab
        cases hab
        exact .inr (hv.within c d hcd).2.2
  | @commits res r' result turn reserve commit =>
    dsimp only
    have hstart := hwaits.turn res turn
    have hrange : w.range = some (s.ring.commitPos, res.newCommit (totalSize w.data)) := by
      have hheld : w.phase.held = some res := by rw [turn, Phase.held]
      rw [Writer.range_eq_some hheld, hstart]
    have hwithin := hwaits.within _ _ hrange
    refine ⟨by omega, h.set hw (by omega) ⟨?_, nofun, nofun, nofun⟩ ?_⟩
    · exact nofun
    · intro v hv hapart
      have hnone' : ({ w with phase := Phase.returned (some res) result } : Writer).Apart v := by
        exact nofun
      -- the other ranges lie above the one that is committed
      refine ⟨⟨fun c d hcd => ?_, fun res' hphase => ?_, hv.unforced, hv.checked⟩, hnone'⟩
      · have hv' := hv.within c d hcd
        rcases hapart _ _ c d hrange hcd with hle | hle <;> omega
      · have hheld : v.phase.held = some res' := by rw [hphase, Phase.held]
        have hv' := hv.within _ _ (Writer.range_eq_some hheld)
        have hturn' := hv.turn res' hphase
        rcases hapart _ _ _ _ hrange (Writer.range_eq_some hheld) with hle | hle <;> omega

theorem InOrder.next {t : System} {e : Event} (h : InOrder s) (hgive : s.givesUp e = false)
    (hnext : s.next e = some t) : s.ring.commitPos ≤ t.ring.commitPos ∧ InOrder t := by
  cases e with
  | call data =>
    cases hnext
    exact ⟨le_refl _, h.call data⟩
  | step i =>
    obtain ⟨w, hw, rfl⟩ := Option.map_eq_some_iff.1 hnext
    exact h.step hw hgive

theorem InOrder.copied (h : InOrder s) (hw : w ∈ s.writers) (hres : w.phase.reservation = some res)
    (hbelow : res.newCommit (totalSize w.data) ≤ s.ring.commitPos) : w.phase.isCopied = true := by
  have hheld (hheld : w.phase.held = some res) : False := by
    have := (h.waits w hw).within _ _ (Writer.range_eq_some hheld)
    omega
  revert hres hheld
  cases w.phase <;> simp [Phase.reservation, Phase.isCopied]

/-- In every interleaving in which no call gives up waiting, `commitPos` does not go back, and every reservation below
it is copied. -/
theorem commit_in_order {bufferSize maxMessageSize : Nat} {data : Memory Byte} {hb : bufferSize < 2 ^ 32}
    {hm : maxMessageSize < 2 ^ 32} {es fs : List Event} {s t : System}
    (hs : run System.next (.init (.init bufferSize maxMessageSize data hb hm)) es = some s)
    (ht : run System.next s fs = some t)
    (hok : AllSteps System.next (fun s e => s.givesUp e = false)
      (.init (.init bufferSize maxMessageSize data hb hm)) (es ++ fs)) :
    s.ring.commitPos ≤ t.ring.commitPos ∧ ∀ w ∈ t.writers, ∀ res, w.phase.reservation = some res →
      res.newCommit (totalSize w.data) ≤ t.ring.commitPos → w.phase.isCopied = true := by
  have hmid : InOrder s := run_invariant_of_allSteps (fun s e t h hgive hnext => (h.next hgive hnext).2)
    ⟨le_refl 0, by simp [System.init], by simp [System.init]⟩ hok.of_append hs
  have hend : s.ring.commitPos ≤ t.ring.commitPos ∧ InOrder t := by
    refine run_invariant_of_allSteps (I := fun u => s.ring.commitPos ≤ u.ring.commitPos ∧ InOrder u) ?_
      ⟨le_refl _, hmid⟩ (hok.rest hs) ht
    intro u e v hu hgive hnext
    have hv := hu.2.next hgive hnext
    exact ⟨hu.1.trans hv.1, hv.2⟩
  exact ⟨hend.1, fun w hw res hres hbelow => hend.2.copied hw hres hbelow⟩

/-! ## A call that gives up -/

def emptyRing : Ring := .init 1024 64 (fun _ => 0) (by decide) (by decide)

theorem run_waiting {spinCount n : Nat} (hw : s.writers[i]? = some w) (hphase : w.phase = .waiting res spinCount)
    (hturn : s.ring.commitPos ≠ res.commitWaitPos (totalSize w.data)) (hn : spinCount + n < maxCommitSpin) :
    run System.next s (replicate n (.step i)) =
      some { s with writers := s.writers.set i { w with phase := .waiting res (spinCount + n) } } := by
  induction n generalizing s w spinCount with
  | zero =>
    obtain ⟨hlt, hget⟩ := List.getElem?_eq_some_iff.1 hw
    have hsame : s.writers.set i { w with phase := .waiting res spinCount } = s.writers := by
      rw [← hphase, ← hget]
      exact set_getElem_self hlt
    simp [hsame, run]
  | succ n ih =>
    have hlt : i < s.writers.length := (List.getElem?_eq_some_iff.1 hw).1
    have hspin : ¬ maxCommitSpin ≤ spinCount + 1 := by omega
    have hstep : s.next (.step i) =
        some { s with writers := s.writers.set i { w with phase := .waiting res (spinCount + 1) } } := by
      simp [System.next, hw, hphase, Phase.step, hturn, hspin]
    have hrest := ih (s := { s with writers := s.writers.set i { w with phase := .waiting res (spinCount + 1) } })
      (getElem?_set_self hlt) rfl hturn (by omega)
    rw [replicate_succ, run, hstep, Option.bind_some, hrest, set_set, Nat.add_right_comm, Nat.add_assoc]

/-- A call whose turn does not come stores its `commitPos` in the end. -/
theorem run_forced (hw : s.writers[i]? = some w) (hphase : w.phase = .waiting res 0)
    (hturn : s.ring.commitPos ≠ res.commitWaitPos (totalSize w.data)) :
    run System.next s (replicate (maxCommitSpin + 1) (.step i)) =
      some { ring := { s.ring with commitPos := res.newCommit (totalSize w.data) }
             writers := s.writers.set i { w with phase := .returned (some res) (.ok w.data.length) } } := by
  have hlt : i < s.writers.length := (List.getElem?_eq_some_iff.1 hw).1
  have hsplit : replicate (maxCommitSpin + 1) (Event.step i) =
      replicate (maxCommitSpin - 1) (.step i) ++ [.step i, .step i] := by
    rw [show maxCommitSpin + 1 = (maxCommitSpin - 1) + 2 from rfl, replicate_add]
    rfl
  rw [hsplit]
  refine run_append.2 ⟨_, run_waiting hw hphase hturn (by decide), ?_⟩
  have hspin : maxCommitSpin ≤ maxCommitSpin - 1 + 1 := by decide
  simp [run, System.next, hlt, Phase.step, hturn, hspin]

/-- Call 1 gives up waiting for call 0: `commitPos` goes over the range of call 0, in which nothing is copied. When
call 0 gives up too, `commitPos` goes back. -/
theorem commit_goes_back : ∃ (es fs : List Event) (s t : System), run System.next (.init emptyRing) es = some s ∧
    run System.next s fs = some t ∧ t.ring.commitPos < s.ring.commitPos ∧
    ∃ w ∈ s.writers, ∃ res, w.phase.reservation = some res ∧ res.newCommit (totalSize w.data) ≤ s.ring.commitPos ∧
      w.phase.isCopied = false := by
  obtain ⟨s₁, hs₁, hwriters, hcommit⟩ : ∃ s, run System.next (.init emptyRing)
      ([.call [0], .call [1]] ++ replicate 3 (.step 0) ++ replicate 6 (.step 1)) = some s ∧
      s.writers = [⟨[0], .numbering ⟨0, 24, none⟩⟩, ⟨[1], .waiting ⟨24, 24, none⟩ 0⟩] ∧ s.ring.commitPos = 0 :=
    ⟨_, rfl, rfl, rfl⟩
  let s₂ : System := ⟨{ s₁.ring with commitPos := 48 },
    [⟨[0], .numbering ⟨0, 24, none⟩⟩, ⟨[1], .returned (some ⟨24, 24, none⟩) (.ok 1)⟩]⟩
  have hs₂ : run System.next s₁ (replicate (maxCommitSpin + 1) (.step 1)) = some s₂ := by
    rw [run_forced (w := ⟨[1], .waiting ⟨24, 24, none⟩ 0⟩) (by rw [hwriters]; rfl) rfl (by rw [hcommit]; decide),
      hwriters]
    rfl
  obtain ⟨s₃, hs₃, hwriter, hcommit₃⟩ : ∃ s, run System.next s₂ (replicate 3 (.step 0)) = some s ∧
      s.writers[0]? = some ⟨[0], .waiting ⟨0, 24, none⟩ 0⟩ ∧ s.ring.commitPos = 48 := ⟨_, rfl, rfl, rfl⟩
  have hs₄ := run_forced hwriter rfl (by rw [hcommit₃]; decide)
  refine ⟨_, _, s₂, _, run_append.2 ⟨s₁, hs₁, hs₂⟩, run_append.2 ⟨s₃, hs₃, hs₄⟩, ?_, ?_⟩
  · show Reservation.newCommit ⟨0, 24, none⟩ (totalSize [0]) < 48
    decide
  · refine ⟨_, mem_cons_self, _, rfl, ?_, rfl⟩
    show Reservation.newCommit ⟨0, 24, none⟩ (totalSize [0]) ≤ 48
    decide

/-- Two calls: the second reserves behind the first, copies first, and looks at `commitPos` once in vain. -/
def waitsItsTurn : List Event :=
  [.call [7], .call [8]] ++ replicate 3 (.step 0) ++ replicate 7 (.step 1) ++ replicate 5 (.step 0)

/-- The first call commits while the second waits, and then the second. -/
theorem commit_in_order_two_calls : ∃ s t, run System.next (.init emptyRing) waitsItsTurn = some s ∧
    run System.next s (replicate 2 (.step 1)) = some t ∧
    (∃ res, (s.writers.map Writer.phase)[1]? = some (.waiting res 1)) ∧ s.ring.commitPos ≤ t.ring.commitPos ∧
    (∀ w ∈ t.writers, ∀ res, w.phase.reservation = some res →
      res.newCommit (totalSize w.data) ≤ t.ring.commitPos → w.phase.isCopied = true) ∧
    s.ring.commitPos = 24 ∧ t.ring.commitPos = 48 := by
  have hok : AllSteps System.next (fun s e => s.givesUp e = false) (.init emptyRing)
      (waitsItsTurn ++ replicate 2 (.step 1)) := by decide +kernel
  refine ⟨_, _, rfl, rfl, ⟨_, rfl⟩, ?_, ?_, rfl, rfl⟩
  · exact (commit_in_order rfl rfl hok).1
  · exact (commit_in_order rfl rfl hok).2

/-! ## The data area -/

/-- The message of a reservation, and its wrap marker, lie in a data area of `n` bytes. -/
def Reservation.Inside (n : Nat) (data : Bytes) (res : Reservation) : Prop :=
  res.reservedPos % n + (MessageHeader.size + data.length) ≤ n ∧ ∀ m ∈ res.marker, m.1 + MessageHeader.size ≤ n

theorem le_totalSize {data : Bytes} (h : data.length < 2 ^ 32) : MessageHeader.size + data.length ≤ totalSize data := by
  unfold totalSize MessageHeader.size
  rw [alignUp_eight (by omega)]
  omega

theorem inside_reserve {n pos : Nat} {data : Bytes} (h32 : data.length < 2 ^ 32) (hle : totalSize data ≤ n) :
    (reserve n (totalSize data) pos).Inside n data := by
  have hsize := le_totalSize h32
  have hpos := totalSize_pos h32
  have hmod := Nat.mod_lt pos (hpos.trans_le hle)
  unfold reserve Reservation.Inside
  dsimp only
  split_ifs with hwrap hmark
  · -- the message starts anew, and the marker is written where a header fits
    rw [add_sub_mod_mod (hpos.trans_le hle)]
    refine ⟨by omega, ?_⟩
    rintro m ⟨⟩
    dsimp only
    omega
  · rw [add_sub_mod_mod (hpos.trans_le hle)]
    exact ⟨by omega, by rintro m ⟨⟩⟩
  · exact ⟨by dsimp only; omega, by rintro m ⟨⟩⟩

/-- A call that tries has passed the checks, and what it has reserved lies inside. -/
structure Writer.Checked (n : Nat) (w : Writer) : Prop where
  trying : w.phase.isTrying = true → w.data.length < 2 ^ 32 ∧ totalSize w.data ≤ n
  held : ∀ res, w.phase.held = some res → res.Inside n w.data

def Ring.Bounded (r : Ring) : Prop := ∀ a ∈ r.accesses, a.1 + a.2 ≤ r.bufferSize

theorem Ring.Bounded.copyIn {r : Ring} (h : r.Bounded) {offset : Nat} {bs : Bytes}
    (hle : offset + bs.length ≤ r.bufferSize) : (r.copyIn offset bs).Bounded := by
  intro a ha
  rcases mem_append.1 ha with ha | ha
  · exact h a ha
  · obtain rfl := mem_singleton.1 ha
    exact hle

theorem checked_step {r : Ring} {data : Bytes} {phase : Phase} (hr : r.Bounded)
    (hw : Writer.Checked r.bufferSize ⟨data, phase⟩) :
    (phase.step r data).2.bufferSize = r.bufferSize ∧ (phase.step r data).2.Bounded ∧
      Writer.Checked r.bufferSize ⟨data, (phase.step r data).1⟩ := by
  obtain ⟨htry, hheld⟩ := hw
  dsimp only at htry hheld
  cases phase with
  | entered =>
    rw [Phase.step]
    split_ifs with hmax hsize
    · exact ⟨rfl, hr, nofun, nofun⟩
    · exact ⟨rfl, hr, nofun, nofun⟩
    · have := r.maxMessageSize_lt
      exact ⟨rfl, hr, fun _ => ⟨by dsimp only; omega, not_lt.1 hsize⟩, nofun⟩
  | loading retries =>
    rw [Phase.step]
    split_ifs
    · exact ⟨rfl, hr, nofun, nofun⟩
    · exact ⟨rfl, hr, fun _ => htry rfl, nofun⟩
  | exchanging retries currentPos =>
    have hinside := @inside_reserve r.bufferSize currentPos data (htry rfl).1 (htry rfl).2
    rw [Phase.step]
    split_ifs with hover hcur hmark
    · exact ⟨rfl, hr, nofun, nofun⟩
    · exact ⟨rfl, hr, nofun, fun res hres => Option.some.inj hres ▸ hinside⟩
    · exact ⟨rfl, hr, nofun, fun res hres => Option.some.inj hres ▸ hinside⟩
    · exact ⟨rfl, hr, fun _ => htry rfl, nofun⟩
  | marking res =>
    obtain ⟨hmessage, hmarker⟩ := hheld res rfl
    refine ⟨?_, ?_, nofun, hheld⟩
    · cases h : res.marker <;> rw [Phase.step, h] <;> rfl
    · cases h : res.marker with
      | none => rwa [Phase.step, h]
      | some m =>
        rw [Phase.step, h]
        exact hr.copyIn (by rw [MessageHeader.length_toBytes]; exact hmarker m h)
  | numbering res => exact ⟨rfl, hr, nofun, hheld⟩
  | copyingHeader res sequence =>
    refine ⟨rfl, hr.copyIn ?_, nofun, hheld⟩
    have := (hheld res rfl).1
    rw [MessageHeader.length_toBytes]
    omega
  | copyingData res =>
    refine ⟨rfl, hr.copyIn ?_, nofun, hheld⟩
    have := (hheld res rfl).1
    omega
  | waiting res spinCount =>
    rw [Phase.step]
    split_ifs <;> exact ⟨rfl, hr, nofun, hheld⟩
  | committing | forcing | returned | panicked => exact ⟨rfl, hr, nofun, nofun⟩

/-- **No byte outside of the data area is written**, in any interleaving of any number of calls, also of those that give
up waiting. -/
theorem writes_inside {bufferSize maxMessageSize : Nat} {data : Memory Byte} {hb : bufferSize < 2 ^ 32}
    {hm : maxMessageSize < 2 ^ 32} {es : List Event} {s : System}
    (hs : run System.next (.init (.init bufferSize maxMessageSize data hb hm)) es = some s) :
    ∀ a ∈ s.ring.accesses, a.1 + a.2 ≤ bufferSize := by
  have hinv : s.ring.bufferSize = bufferSize ∧ s.ring.Bounded ∧ ∀ w ∈ s.writers, w.Checked bufferSize := by
    refine run_invariant (I := fun s : System =>
      s.ring.bufferSize = bufferSize ∧ s.ring.Bounded ∧ ∀ w ∈ s.writers, w.Checked bufferSize) ?_ ?_ hs
    · rintro s (data | i) t ⟨hsize, hring, hwriters⟩ hnext
      · cases hnext
        refine ⟨hsize, hring, fun w hw => ?_⟩
        rcases mem_append.1 hw with hw | hw
        · exact hwriters w hw
        · obtain rfl := mem_singleton.1 hw
          exact ⟨nofun, nofun⟩
      · obtain ⟨w, hw, rfl⟩ := Option.map_eq_some_iff.1 hnext
        obtain ⟨hsize', hring', hw'⟩ := checked_step hring (hsize ▸ hwriters w (mem_of_getElem? hw))
        refine ⟨hsize'.trans hsize, hring', fun v hv => ?_⟩
        rcases mem_or_eq_of_mem_set hv with hv | rfl
        · exact hwriters v hv
        · exact hsize ▸ hw'
    · exact ⟨rfl, by rintro _ ⟨⟩, by rintro _ ⟨⟩⟩
  rw [← hinv.1]
  exact hinv.2.1

/-- Call 1 has copied its message, and waits for call 0. -/
def overtaken : List Event := [.call [7], .call [8]] ++ replicate 3 (.step 0) ++ replicate 6 (.step 1)

theorem writes_inside_overtaken : ∃ s, run System.next (.init emptyRing) overtaken = some s ∧
    s.ring.accesses = [(24, 16), (40, 1)] ∧ ∀ a ∈ s.ring.accesses, a.1 + a.2 ≤ 1024 := by
  obtain ⟨s, hs, haccesses⟩ := @exists_run _ _ System.next overtaken (.init emptyRing)
    (fun s => s.ring.accesses = [(24, 16), (40, 1)]) _ (by decide)
  exact ⟨s, hs, haccesses, writes_inside hs⟩

/-! ## Reservations -/

/-- A step reserves nothing, or what follows on everything reserved so far. -/
theorem range_step (r : Ring) (w : Writer) :
    (w.phase.step r w.data).2.reservePos = r.reservePos ∧
        (Writer.range ⟨w.data, (w.phase.step r w.data).1⟩ = none ∨
          Writer.range ⟨w.data, (w.phase.step r w.data).1⟩ = w.range) ∨
      r.reservePos ≤ (w.phase.step r w.data).2.reservePos ∧
        Writer.range ⟨w.data, (w.phase.step r w.data).1⟩ =
          some (r.reservePos, (w.phase.step r w.data).2.reservePos) := by
  obtain ⟨data, phase⟩ := w
  cases phase with
  | entered | loading | waiting =>
    dsimp only [Phase.step]
    split_ifs <;> exact .inl ⟨rfl, .inr rfl⟩
  | exchanging retries currentPos =>
    have hstart := commitWaitPos_reserve r.bufferSize (totalSize data) currentPos
    dsimp only [Phase.step]
    split_ifs with hover hcur hmark
    · exact .inl ⟨rfl, .inl rfl⟩
    · simp [Writer.range, Phase.held, Reservation.newCommit, hstart, hcur]
    · simp [Writer.range, Phase.held, Reservation.newCommit, hstart, hcur]
    · exact .inl ⟨rfl, .inl rfl⟩
  | marking res =>
    dsimp only [Phase.step]
    cases res.marker <;> exact .inl ⟨rfl, .inr rfl⟩
  | committing | forcing => exact .inl ⟨rfl, .inl rfl⟩
  | _ => exact .inl ⟨rfl, .inr rfl⟩

/-- What is reserved and not committed lies apart, below `reservePos`. -/
structure Exclusive (s : System) : Prop where
  below : ∀ w ∈ s.writers, ∀ a b, w.range = some (a, b) → b ≤ s.ring.reservePos
  apart : s.writers.Pairwise Writer.Apart

theorem exclusive_next {t : System} {e : Event} (h : Exclusive s) (hnext : s.next e = some t) : Exclusive t := by
  obtain ⟨hbelow, hapart⟩ := h
  cases e with
  | call data =>
    cases hnext
    have hnew : Writer.range ⟨data, .entered⟩ = none := rfl
    refine ⟨by grind, pairwise_append.2 ⟨hapart, pairwise_singleton .., ?_⟩⟩
    simp [Writer.Apart, hnew]
  | step i =>
    obtain ⟨w, hw, rfl⟩ := Option.map_eq_some_iff.1 hnext
    obtain ⟨hlt, rfl⟩ := List.getElem?_eq_some_iff.1 hw
    have hrange := range_step s.ring s.writers[i]
    have hself := hbelow _ (getElem_mem hlt)
    constructor
    · intro v hv a b hab
      rcases mem_or_eq_of_mem_set hv with hv | rfl <;> grind
    · rw [pairwise_iff_getElem] at hapart ⊢
      intro j k hj hk hjk
      rw [length_set] at hj hk
      have hj' := hbelow _ (getElem_mem hj)
      have hk' := hbelow _ (getElem_mem hk)
      have hjk' := hapart j k hj hk hjk
      rw [getElem_set, getElem_set]
      unfold Writer.Apart at hjk' ⊢
      split_ifs with hij hik <;> grind

/-- **Calls that run at the same time do not share a position**: what is reserved and not committed lies apart. -/
theorem reservations_apart {bufferSize maxMessageSize : Nat} {data : Memory Byte} {hb : bufferSize < 2 ^ 32}
    {hm : maxMessageSize < 2 ^ 32} {es : List Event} {s : System}
    (hs : run System.next (.init (.init bufferSize maxMessageSize data hb hm)) es = some s) :
    s.writers.Pairwise Writer.Apart := by
  have h : Exclusive s := run_invariant (fun _ _ _ => exclusive_next) ⟨by rintro _ ⟨⟩, Pairwise.nil⟩ hs
  exact h.apart

theorem reservations_apart_overtaken : ∃ s, run System.next (.init emptyRing) overtaken = some s ∧
    s.writers.map Writer.range = [some (0, 24), some (24, 48)] ∧ s.writers.Pairwise Writer.Apart := by
  obtain ⟨s, hs, hranges⟩ := @exists_run _ _ System.next overtaken (.init emptyRing)
    (fun s => s.writers.map Writer.range = [some (0, 24), some (24, 48)]) _ (by decide)
  exact ⟨s, hs, hranges, reservations_apart hs⟩

end Int2Dds.Shm
