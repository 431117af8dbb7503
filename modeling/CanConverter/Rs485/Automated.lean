import Mathlib.Data.Nat.Basic
import CanConverter.Lib.Deadline
import CanConverter.Lib.Run
import CanConverter.Rs485.Stream

/-!
# `run_automated_mode`

The tester sends five kinds of frames at their intervals.  A round of the loop reads the clock once
and tests one deadline after the other; a frame that is due is created, encoded and sent, and its
deadline moves on by the interval.  `create_..._frame` draws random values; what it returned in a
round is part of the round, `none` if it raised.

The clock is any linear order and `+` any operation on it: no law of the float addition is used.

* `Mode.round`         a round of the loop;
* `deadline`           the deadlines of a kind;
* `mode_run`           each kind is a piece of work of the library for every one of its deadlines;
* `automated_mode`     which frames a run has sent, and that the unit gets exactly these.
-/

namespace CCU
open Runs

inductive FrameKind where
  | measurements | status | faults | protiumOp | protiumVals
deriving DecidableEq

/-- the order of the tests in the loop -/
def FrameKind.all : List FrameKind := [.measurements, .status, .faults, .protiumOp, .protiumVals]

/-- a round: the reading of the clock, and what `create_..._frame` returned -/
structure ModeRound (T : Type) where
  currentTime : T
  create : FrameKind → Option (List UInt8)

/-- the variables `next_...`, and the frames sent -/
structure Mode (T : Type) where
  next : FrameKind → T
  sent : List (FrameKind × List UInt8) := []

section
variable {T : Type} [LinearOrder T] [Add T] (interval : FrameKind → T)

namespace Mode

/-- one of the tests -/
def sendDue (r : ModeRound T) (m : Mode T) (k : FrameKind) : Option (Mode T) :=
  if m.next k ≤ r.currentTime then
    (r.create k).map fun payload =>
      { next := Function.update m.next k (m.next k + interval k)
        sent := m.sent ++ [(k, payload)] }
  else some m

def round (m : Mode T) (r : ModeRound T) : Option (Mode T) :=
  FrameKind.all.foldlM (sendDue interval r) m

def start (currentTime : T) : Mode T := { next := fun k => currentTime + interval k }

/-- the bytes written to the port -/
def bytes (m : Mode T) : List UInt8 := m.sent.flatMap fun p => sendFrame (cobsEncode p.2)

/-- the frames of a kind -/
def count (m : Mode T) (k : FrameKind) : Nat := m.sent.countP fun p => p.1 = k

end Mode

/-- the deadline of the frame `n` of a kind -/
def deadline (currentTime : T) (k : FrameKind) : Nat → T
  | 0 => currentTime + interval k
  | n + 1 => deadline currentTime k n + interval k

namespace Mode
variable {interval} {m m' : Mode T} {r : ModeRound T} {k : FrameKind} {t₀ : T}

/-- what a test does to the kind it is about, and to the others -/
theorem sendDue_some (h : sendDue interval r m k = some m') :
    (m.next k ≤ r.currentTime ∧ m'.next k = m.next k + interval k ∧ m'.count k = m.count k + 1 ∨
      ¬ m.next k ≤ r.currentTime ∧ m'.next k = m.next k ∧ m'.count k = m.count k) ∧
    ∀ j, j ≠ k → m'.next j = m.next j ∧ m'.count j = m.count j := by
  unfold sendDue at h
  split at h
  · rename_i hdue
    obtain ⟨payload, _, rfl⟩ := Option.map_eq_some_iff.mp h
    refine ⟨.inl ⟨hdue, Function.update_self .., ?_⟩, fun j hj => ⟨?_, ?_⟩⟩
    · simp [count]
    · exact Function.update_of_ne hj ..
    · simp [count, Ne.symm hj]
  · rename_i hdue
    obtain rfl := Option.some.inj h
    exact ⟨.inr ⟨hdue, rfl, rfl⟩, fun j _ => ⟨rfl, rfl⟩⟩

/-- the variables of the kind after the readings `l` -/
structure Tracks (interval : FrameKind → T) (t₀ : T) (l : List T) (m : Mode T) (k : FrameKind) :
    Prop where
  next : m.next k = deadline interval t₀ k (m.count k)
  count : m.count k = Deadline.done (deadline interval t₀ k) l

/-- the test of the kind is a round of the library -/
theorem Tracks.sendDue {l : List T} (h : Tracks interval t₀ l m k)
    (hs : sendDue interval r m k = some m') :
    Tracks interval t₀ (l ++ [r.currentTime]) m' k := by
  have hround := Deadline.done_snoc (d := deadline interval t₀ k) l r.currentTime
  rw [Deadline.round, ← h.count, ← h.next] at hround
  obtain ⟨⟨hdue, hn, hc⟩ | ⟨hdue, hn, hc⟩, _⟩ := sendDue_some hs
  · rw [if_pos hdue] at hround
    refine ⟨?_, hc.trans hround.symm⟩
    rw [hn, hc, h.next]
    rfl
  · rw [if_neg hdue] at hround
    exact ⟨by rw [hn, hc, h.next], hc.trans hround.symm⟩

/-- a round goes over every kind once -/
theorem Tracks.tests {l : List T} {kinds : List FrameKind} (hnodup : kinds.Nodup)
    (h : kinds.foldlM (Mode.sendDue interval r) m = some m')
    (ht : ∀ j, Tracks interval t₀ (if j ∈ kinds then l else l ++ [r.currentTime]) m j) :
    ∀ j, Tracks interval t₀ (l ++ [r.currentTime]) m' j := by
  induction kinds generalizing m with
  | nil =>
    obtain rfl := Option.some.inj h
    exact fun j => by simpa using ht j
  | cons k kinds ih =>
    obtain ⟨hk, hnodup⟩ := List.nodup_cons.mp hnodup
    rw [List.foldlM_cons] at h
    obtain ⟨m₁, hs, h⟩ := Option.bind_eq_some_iff.mp h
    refine ih hnodup h fun j => ?_
    by_cases hj : j = k
    · subst hj
      have hold := ht j
      rw [if_pos List.mem_cons_self] at hold
      rw [if_neg hk]
      exact hold.sendDue hs
    · have hold := ht j
      obtain ⟨hn, hc⟩ := (sendDue_some hs).2 j hj
      have hmem : (j ∈ k :: kinds) = (j ∈ kinds) := by
        simp [hj]
      simp only [hmem] at hold
      exact ⟨by rw [hn, hc]; exact hold.next, hc.trans hold.count⟩

theorem Tracks.round {l : List T} (h : ∀ j, Tracks interval t₀ l m j)
    (hs : Mode.round interval m r = some m') :
    ∀ j, Tracks interval t₀ (l ++ [r.currentTime]) m' j := by
  refine Tracks.tests (by decide : FrameKind.all.Nodup) hs fun j => ?_
  have hall : j ∈ FrameKind.all := by
    cases j <;> decide
  rw [if_pos hall]
  exact h j

theorem mode_run {rs : List (ModeRound T)}
    (h : run (Mode.round interval) (start interval t₀) rs = some m) :
    ∀ k, Tracks interval t₀ (rs.map ModeRound.currentTime) m k := by
  refine hist_run (I := fun rs m => ∀ k, Tracks interval t₀ (rs.map ModeRound.currentTime) m k)
    (fun k => ⟨rfl, rfl⟩) ?_ h
  intro rs m r m' ht hs
  rw [List.map_append]
  exact Tracks.round ht hs

end Mode

end

/-- **The automated mode.**  In every run whose clock does not go back the frame `n` of a kind has
been sent if and only if the last `n + 1` readings were past the deadlines `0 .. n` of the kind, one
for one: never early, at most one in a round, and a backlog is worked off without a gap.  However the
line cuts the bytes, and after any garbage that ends in a zero, `on_frame` gets exactly the frames
sent, in their order. -/
theorem automated_mode {T : Type} [LinearOrder T] [Add T] (interval : FrameKind → T) {t₀ : T}
    {rs : List (ModeRound T)} {m : Mode T}
    (hclock : (rs.map ModeRound.currentTime).Pairwise (· ≤ ·))
    (hrun : run (Mode.round interval) (Mode.start interval t₀) rs = some m)
    {σ : Type} {P : Cobs.Parser σ} (hP : P.Standard) {g : List UInt8}
    (hg : g = [] ∨ g.getLast? = some 0) (rx : List RxEv)
    (hrx : rx.flatMap RxEv.bytes = g ++ m.bytes) :
    (∀ k n, n < m.count k ↔
      Deadline.Covered (deadline interval t₀ k) n (rs.map ModeRound.currentTime)) ∧
    deliveries P rx = deliveries P [.packet g] ++ m.sent.map Prod.snd := by
  constructor
  · intro k n
    rw [(Mode.mode_run hrun k).count]
    exact Deadline.lt_done_iff hclock
  · refine (stream_lossless hP (m.sent.map Prod.snd) hg rx ?_).1
    rw [hrx, List.flatMap_map]
    rfl

/-- the intervals in milliseconds -/
def testerInterval : FrameKind → Nat
  | .measurements => 25
  | .status | .faults | .protiumOp => 100
  | .protiumVals => 1000

/-- readings after 30, 80 and 81 ms: the second and the third frame are late -/
def lateRounds : List (ModeRound Nat) :=
  [⟨30, fun _ => some [1]⟩, ⟨80, fun _ => some [2]⟩, ⟨81, fun _ => some [3, 0]⟩]

theorem automated_mode_lateRounds :
    ∃ m, run (Mode.round testerInterval) (Mode.start testerInterval 0) lateRounds = some m ∧
      m.sent = [(.measurements, [1]), (.measurements, [2]), (.measurements, [3, 0])] ∧
      Deadline.Covered (deadline testerInterval 0 .measurements) 2 [30, 80, 81] ∧
      deliveries Cobs.byteFed [.packet [2, 1, 0, 0, 2], .timeout, .packet [2, 0, 0, 2, 3, 1, 0, 0]] =
        [[1], [2], [3, 0]] := by
  obtain ⟨m, hrun, hsent⟩ : ∃ m, run (Mode.round testerInterval) (Mode.start testerInterval 0)
      lateRounds = some m ∧
      m.sent = [(.measurements, [1]), (.measurements, [2]), (.measurements, [3, 0])] := by
    decide
  have hbytes : m.bytes = [2, 1, 0, 0, 2, 2, 0, 0, 2, 3, 1, 0, 0] := by
    rw [Mode.bytes, hsent]
    decide
  have hclock : (lateRounds.map ModeRound.currentTime).Pairwise (· ≤ ·) := by decide
  obtain ⟨hcount, hdel⟩ := automated_mode testerInterval hclock hrun Cobs.byteFed_standard
    (.inl rfl) [.packet [2, 1, 0, 0, 2], .timeout, .packet [2, 0, 0, 2, 3, 1, 0, 0]]
    (by rw [hbytes]; decide)
  have hthree : 2 < m.count .measurements := by
    rw [Mode.count, hsent]
    decide
  refine ⟨m, hrun, hsent, (hcount .measurements 2).mp hthree, ?_⟩
  rw [hdel, hsent]
  decide

end CCU
