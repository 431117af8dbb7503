import CanConverter.Lib.History
import CanConverter.System.Stats

/-!
# Consecutive reports partition the counted events

The difference a report prints is the size of its window, modulo `2 ^ 32`.  The windows of the two
rates follow on from each other, for their counters are sampled once.  A frame count is read twice,
for the print and for the baseline, and only the periodic thread must not be interrupted in between:
what the test button sends there is in no window.

* `Partitions`              the reports of one counter so far partition its increments;
* `partitions_iff`          it is that the windows are chained and go on;
* `reports_partition_iff`   the runs in which it holds.
-/

namespace CCU
open Runs

/-- the reports of a counter so far: each window begins where the last one ended, and the next one
will; an increment before the last sample is in exactly one window; the printed differences are the
sizes of the windows, and add up to the counter -/
structure Partitions (p : Stats × Sys) (c : Counter) : Prop where
  chained : Meter.Chained 0 (p.1.meter c).windows
  goesOn :
    (p.1.meter c).next (p.2.periodic.pc.meterOps c) = Meter.endOf 0 (p.1.meter c).windows
  once : ∀ n < Meter.endOf 0 (p.1.meter c).windows,
    ∃! k : Nat, ∃ x, (p.1.meter c).windows[k]? = some x ∧ x.base.events ≤ n ∧ n < x.read.events
  length : (p.2.words c).printed.length = (p.1.meter c).windows.length
  delta : ∀ (k : Nat) x d, (p.1.meter c).windows[k]? = some x →
    (p.2.words c).printed[k]? = some d → x.size < 2 ^ 32 → d.toNat = x.size
  sum : ∀ (k : Nat) x, (p.1.meter c).windows[k]? = some x →
    Meter.sumWords ((p.2.words c).printed.take (k + 1)) = UInt32.ofNat x.read.events
  value : (p.2.words c).value = UInt32.ofNat (p.1.meter c).total

section
variable {pbDecode : List UInt8 → Option MasterFrame} {cd : Candef} {p q : Stats × Sys} {e : Ev}
  {c : Counter}

/-- **the reports of a counter partition its increments exactly if their windows are chained and
go on** -/
theorem partitions_iff (hi : Stats.Inv p) (hc : c ∈ printedCounters) :
    Partitions p c ↔ (p.1.meter c).Settled (p.2.periodic.pc.meterOps c) := by
  constructor
  · exact fun h => ⟨h.chained, h.goesOn⟩
  · intro h
    have hs := hi.shows c hc
    refine ⟨h.chained, h.next_eq, fun n hn => h.chained.existsUnique (Nat.zero_le n) hn, ?_, ?_, ?_,
      hs.value⟩
    · rw [hs.printed, List.length_map]
    · intro k x d hk hd hsize
      rw [hs.printed, List.getElem?_map, hk] at hd
      rw [← Option.some.inj hd]
      exact UInt32.toNat_ofNat_of_lt' hsize
    · intro k x hk
      rw [hs.printed, ← List.map_take, h.chained.sum_take hk]
      exact UInt32.sub_zero _

theorem Partitions.start (hc : c ∈ printedCounters) : Partitions ({}, {}) c :=
  (partitions_iff Stats.Inv.start hc).mpr (.start _)

/-- **one step keeps the partition of a counter exactly if it misses no increment** -/
theorem Partitions.step_iff (hi : Stats.Inv p) (hc : c ∈ printedCounters) (hp : Partitions p c)
    (h : Stats.step pbDecode cd p e = some q) : Partitions q c ↔ ¬ Missed p.2 e c := by
  rw [partitions_iff (hi.step h) hc]
  exact (Stats.step_meter hi h hc).settled_iff (hi.ordered c hc) ((partitions_iff hi hc).mp hp)

end

/-- **Consecutive reports partition the counted events, in every state of a run and for every counter
they print, exactly if in no step of the run the test button counts a frame between the two reads
of its count in a report.** -/
theorem reports_partition_iff (pbDecode : List UInt8 → Option MasterFrame) (cd : Candef)
    (evs : List Ev) (p : Stats × Sys)
    (hrun : run (Stats.step pbDecode cd) ({}, {}) evs = some p) :
    (∀ pre q, pre <+: evs → run (Stats.step pbDecode cd) ({}, {}) pre = some q →
        ∀ c ∈ printedCounters, Partitions q c) ↔
      Always (Stats.step pbDecode cd) (fun q e => ∀ c ∈ printedCounters, ¬ Missed q.2 e c)
        ({}, {}) evs := by
  have hstep : ∀ (q : Stats × Sys) e r, (Stats.Inv q ∧ ∀ c ∈ printedCounters, Partitions q c) →
      Stats.step pbDecode cd q e = some r →
      ((Stats.Inv r ∧ ∀ c ∈ printedCounters, Partitions r c) ↔
        ∀ c ∈ printedCounters, ¬ Missed q.2 e c) := by
    rintro q e r ⟨hi, hp⟩ hs
    have hone : ∀ c ∈ printedCounters, (Partitions r c ↔ ¬ Missed q.2 e c) := fun c hc =>
      (hp c hc).step_iff hi hc hs
    constructor
    · exact fun h c hc => (hone c hc).mp (h.2 c hc)
    · exact fun h => ⟨hi.step hs, fun c hc => (hone c hc).mpr (h c hc)⟩
  rw [always_iff_reached hstep ⟨Stats.Inv.start, fun c hc => .start hc⟩ hrun]
  constructor
  · exact fun h pre q hpre hq => ⟨Stats.inv_run hq, h pre q hpre hq⟩
  · exact fun h pre q hpre hq => (h pre q hpre hq).2

/-! ## a run with a report, and one that misses a frame -/

/-- passes with DFU inactive and nothing stored, none of which reports -/
def idlePasses (n : Nat) : List Ev := (List.replicate n [.wake, .snapshot, .sleep]).flatten

/-- the first `n` actions of a report -/
def reportPass (n : Nat) : List Ev := [.wake, .snapshot] ++ List.replicate n .act

/-- the button sends a frame in the report, before its field is printed -/
def quietRun : List Ev :=
  idlePasses 99 ++ reportPass 4 ++ [.press, .buttonSend] ++ List.replicate 32 .act ++ [.sleep]

theorem reports_partition_iff_quietRun :
    ∃ p, run (Stats.step (fun _ => none) Candef.bytewise) ({}, {}) quietRun = some p ∧
      (p.2.words (.frames .mcuAnalogSpeed)).printed = [1] ∧
      ∀ c ∈ printedCounters, Partitions p c := by
  obtain ⟨p, hrun, hprinted⟩ :
      ∃ p, run (Stats.step (fun _ => none) Candef.bytewise) ({}, {}) quietRun = some p ∧
        (p.2.words (.frames .mcuAnalogSpeed)).printed = [1] := by
    decide +kernel
  have hall : Always (Stats.step (fun _ => none) Candef.bytewise)
      (fun q e => ∀ c ∈ printedCounters, ¬ Missed q.2 e c) ({}, {}) quietRun := by
    decide +kernel
  have hparts := (reports_partition_iff (fun _ => none) Candef.bytewise quietRun p hrun).mpr hall
  exact ⟨p, hrun, hprinted, hparts quietRun p (List.prefix_refl _) hrun⟩

/-- the button sends a frame after `HZ(mcu_analog_speed)` was printed, another second follows -/
def buttonRun : List Ev :=
  idlePasses 99 ++ reportPass 6 ++ [.press, .buttonSend] ++ List.replicate 30 .act ++ [.sleep] ++
    idlePasses 99 ++ reportPass 6

/-- both reports print 0 although one frame was counted -/
theorem not_partitions :
    ∃ p, run (Stats.step (fun _ => none) Candef.bytewise) ({}, {}) buttonRun = some p ∧
      (p.2.words (.frames .mcuAnalogSpeed)).printed = [0, 0] ∧
      (p.2.words (.frames .mcuAnalogSpeed)).value = 1 ∧
      (p.1.meter (.frames .mcuAnalogSpeed)).windows.map (fun x => (x.base.events, x.read.events)) =
        [(0, 0), (1, 1)] ∧
      ¬ Partitions p (.frames .mcuAnalogSpeed) := by
  obtain ⟨p, hrun, hprinted, hvalue, hwindows, hsecond⟩ :
      ∃ p, run (Stats.step (fun _ => none) Candef.bytewise) ({}, {}) buttonRun = some p ∧
        (p.2.words (.frames .mcuAnalogSpeed)).printed = [0, 0] ∧
        (p.2.words (.frames .mcuAnalogSpeed)).value = 1 ∧
        (p.1.meter (.frames .mcuAnalogSpeed)).windows.map (fun x => (x.base.events, x.read.events))
          = [(0, 0), (1, 1)] ∧
        ((p.1.meter (.frames .mcuAnalogSpeed)).windows[1]?).map (fun x => x.read.events) =
          some 1 := by
    decide +kernel
  refine ⟨p, hrun, hprinted, hvalue, hwindows, fun h => ?_⟩
  obtain ⟨x, hx, hread⟩ := Option.map_eq_some_iff.mp hsecond
  -- two zeros do not add up to the counter
  have hsum := h.sum 1 x hx
  rw [hprinted, hread] at hsum
  exact absurd hsum (by decide)

end CCU
