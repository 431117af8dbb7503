import CanConverter.System.Partition

/-!
# What a report is over

`cnt_1s` counts the wakeups that find DFU inactive, and stands still in the others.  So 100 inactive
wakeups lie between one report and the next, and with them all the active ones that came in between.
What is printed falls short of the increments of that time by the frames that the test button
counted before the baseline was read.

* `Timed`                the counter and the samples at `n` inactive wakeups;
* `Timed.step`           what a step keeps of it;
* `samples_inactive`     100 inactive wakeups lie between two reports;
* `Tallied.step`         a step keeps the tally of the increments that are in no report;
* `over_one_second_iff`  which reports are over the increments of 100 wakeups.
-/

namespace CCU
open Runs

/-- the wakeups that were counted but whose pass has not moved the counters yet -/
def PeriodicPc.pending : PeriodicPc → Nat
  | .awake => 1
  | _ => 0

/-- `n` inactive wakeups have been through the loop -/
structure Timed (n : Nat) (p : Stats × Sys) : Prop where
  inactive : p.1.wakeups.inactive = n + p.2.periodic.pc.pending
  cnt1s : p.2.periodic.cnt.cnt1s = n % 100
  paced : ∀ c ∈ printedCounters,
    (p.1.meter c).Paced (fun t => t.inactive) 100 n ⟨0, {}⟩ (p.2.periodic.pc.meterOps c)

section
variable {pbDecode : List UInt8 → Option MasterFrame} {cd : Candef} {p q : Stats × Sys} {e : Ev}
  {n : Nat}

theorem Timed.start : Timed 0 ({}, {}) :=
  ⟨rfl, rfl, fun _ _ => .start rfl⟩

/-- a step that begins no report keeps the pace -/
theorem MeterStep.paced {missed : Prop} {w : Moment} {m m' : Meter Moment}
    {v v' : Meter.Words} {l l' : List Meter.Op} (h : MeterStep missed w m v l m' v' l')
    (hw : l ≠ [] → w.inactive = n) (hnil : l = [] → l' = [])
    (hp : m.Paced (fun t => t.inactive) 100 n ⟨0, {}⟩ l) :
    m'.Paced (fun t => t.inactive) 100 n ⟨0, {}⟩ l' := by
  cases h with
  | op hl _ => exact hp.op hl (hw nofun)
  | inc _ => exact hp.inc
  | begin hl _ =>
    obtain rfl := hnil rfl
    obtain hl | hl := hl
    · cases hl
    · cases hl
  | same _ => exact hp

/-- a pass that is through with a counter does not come back to it -/
theorem step_meterOps_nil {s t : Sys} {c : Counter} (he : e ≠ .snapshot)
    (h : Sys.step pbDecode cd s e = some t) (hnil : s.periodic.pc.meterOps c = []) :
    t.periodic.pc.meterOps c = [] := by
  by_cases hp : e.thread = .periodic
  · cases e with
    | wake =>
      obtain ⟨_, ⟨_, rfl⟩ | ⟨_, rfl⟩⟩ := Sys.step_wake h
      · rfl
      · rfl
    | snapshot => exact absurd rfl he
    | act =>
      obtain ⟨a, l, hpc, rfl⟩ := Sys.step_act h
      rw [hpc] at hnil
      exact (List.suffix_nil.mp (hnil ▸ (List.suffix_cons a l).filterMap _))
    | sleep =>
      obtain ⟨_, rfl⟩ := Sys.step_sleep h
      rfl
    | _ => cases hp
  · rw [(Sys.step_kept h).periodic hp]
    exact hnil

/-- the snapshot moves the counter on, and every hundredth one begins a report -/
theorem Timed.snapshot (hi : Stats.Inv p) (ht : Timed n p)
    (h : Stats.step pbDecode cd p .snapshot = some q) : Timed (n + 1) q := by
  obtain ⟨hs, hq⟩ := watch_some.mp h
  obtain ⟨hpc, hq2⟩ := Sys.step_snapshot hs
  have h100 : 0 < 100 := Nat.zero_lt_succ 99
  have hinactive : p.1.wakeups.inactive = n + 1 := by
    have hw := ht.inactive
    rwa [hpc] at hw
  refine ⟨?_, ?_, fun c hc => ?_⟩
  · rw [hq, hq2]
    exact hinactive
  · rw [hq2, Sys.cnt_setPc, Sys.cnt_setCnt, (loopBody_is p.2.rs485.data hi.cnt).cnt,
      ← roll_mod h100, ← ht.cnt1s]
    rfl
  · have hp := ht.paced c hc
    rw [hpc] at hp
    rw [hq, upd_snapshot_meter p.1 hs, snapshot_meterOps hi.cnt hs, ht.cnt1s]
    simp only [mod_succ_eq_iff h100]
    split
    · rename_i hd
      exact hp.begin (meterOps_statsReport hc) hd
    · rename_i hd
      exact hp.tick hd

/-- the other steps count a wakeup that is to come -/
theorem wakeups_pending (he : e ≠ .snapshot) (h : Stats.step pbDecode cd p e = some q)
    (hw : p.1.wakeups.inactive = n + p.2.periodic.pc.pending) :
    q.1.wakeups.inactive = n + q.2.periodic.pc.pending := by
  obtain ⟨hs, hq⟩ := watch_some.mp h
  rw [hq]
  by_cases hp : e.thread = .periodic
  · cases e with
    | wake =>
      show (p.1.wakeups.upd p.2 .wake).inactive = _
      unfold Wakeups.upd
      obtain ⟨hpc, ⟨hd, ht⟩ | ⟨hd, ht⟩⟩ := Sys.step_wake hs
      · rw [if_pos hd, ht, Sys.pc_setPc]
        rw [hpc] at hw
        exact hw
      · rw [if_neg (Bool.eq_false_iff.mp hd), ht, Sys.pc_setPc]
        rw [hpc] at hw
        exact congrArg (· + 1) hw
    | snapshot => exact absurd rfl he
    | act =>
      obtain ⟨a, l, hpc, ht⟩ := Sys.step_act hs
      rw [hpc] at hw
      rw [ht, Sys.pc_setPc]
      exact hw
    | sleep =>
      obtain ⟨hpc, ht⟩ := Sys.step_sleep hs
      rw [hpc] at hw
      rw [ht, Sys.pc_setPc]
      exact hw
    | _ => cases hp
  · rw [(Sys.step_kept hs).periodic hp]
    cases e with
    | wake | snapshot | act | sleep => exact absurd rfl hp
    | _ => exact hw

theorem step_cnt1s {s t : Sys} (he : e ≠ .snapshot) (hok : s.periodic.cnt.Ok)
    (h : Sys.step pbDecode cd s e = some t) : t.periodic.cnt.cnt1s = s.periodic.cnt.cnt1s := by
  by_cases hp : e.thread = .periodic
  · cases e with
    | wake =>
      obtain ⟨_, ⟨_, rfl⟩ | ⟨_, rfl⟩⟩ := Sys.step_wake h
      · rw [Sys.cnt_setPc, Sys.cnt_setCnt, (dfuBody_is hok).cnt]
        rfl
      · rfl
    | snapshot => exact absurd rfl he
    | act =>
      obtain ⟨a, _, _, rfl⟩ := Sys.step_act h
      rw [Sys.cnt_setPc, Sys.doAct_cnt]
    | sleep =>
      obtain ⟨_, rfl⟩ := Sys.step_sleep h
      rfl
    | _ => cases hp
  · rw [(Sys.step_kept h).periodic hp]

/-- **every step keeps the time** -/
theorem Timed.step (hi : Stats.Inv p) (ht : Timed n p)
    (h : Stats.step pbDecode cd p e = some q) : ∃ n, Timed n q := by
  by_cases he : e = .snapshot
  · subst he
    exact ⟨n + 1, ht.snapshot hi h⟩
  · obtain ⟨hs, _⟩ := watch_some.mp h
    refine ⟨n, wakeups_pending he h ht.inactive, (step_cnt1s he hi.cnt hs).trans ht.cnt1s,
      fun c hc => ?_⟩
    refine (Stats.step_meter hi h hc).paced ?_ (step_meterOps_nil he hs) (ht.paced c hc)
    -- something is left to be done in a pass only
    intro hne
    have hw := ht.inactive
    cases hpc : p.2.periodic.pc with
    | asleep =>
      rw [hpc] at hne
      exact absurd rfl hne
    | awake =>
      rw [hpc] at hne
      exact absurd rfl hne
    | running acts =>
      rw [hpc] at hw
      exact hw

/-! ## the increments in no report -/

/-- every increment that was missed, and no other, is in no report -/
def Tallied (p : Stats × Sys) : Prop :=
  ∀ c ∈ printedCounters, (p.1.meter c).Tallied (fun t => t.missed) (p.1.missed c) ⟨0, {}⟩
    (p.2.periodic.pc.meterOps c)

theorem Tallied.start : Tallied ({}, {}) := fun _ _ => .start rfl

theorem MeterStep.tallied {missed : Prop} [Decidable missed] {w : Moment} {m m' : Meter Moment}
    {v v' : Meter.Words} {l l' : List Meter.Op} (h : MeterStep missed w m v l m' v' l')
    (ho : m.Ordered l) (hw : w.missed = n)
    (ht : m.Tallied (fun t => t.missed) n ⟨0, {}⟩ l) :
    m'.Tallied (fun t => t.missed) (n + if missed then 1 else 0) ⟨0, {}⟩ l' := by
  cases h with
  | op hl hm =>
    rw [if_neg hm]
    exact ht.op hl ho hw
  | inc hm =>
    simp only [hm]
    exact ht.inc
  | begin hl hm =>
    rw [if_neg hm]
    exact ht.begin hl
  | same hm =>
    rw [if_neg hm]
    exact ht

/-- **every step keeps the tally** -/
theorem Tallied.step (hi : Stats.Inv p) (ht : Tallied p)
    (h : Stats.step pbDecode cd p e = some q) : Tallied q := by
  intro c hc
  obtain ⟨_, hq⟩ := watch_some.mp h
  have hmissed : q.1.missed c = p.1.missed c + if Missed p.2 e c then 1 else 0 := by
    rw [hq]
    rfl
  rw [hmissed]
  exact (Stats.step_meter hi h hc).tallied (hi.ordered c hc) rfl (ht c hc)

/-! ## every run -/

/-- the samples that the reports have printed of a counter, after the start -/
def Stats.samples (w : Stats) (c : Counter) : List (Meter.Sample Moment) := (w.meter c).samples {}

theorem timed_run {l : List Ev} (h : run (Stats.step pbDecode cd) ({}, {}) l = some p) :
    (∃ n, Timed n p) ∧ Tallied p := by
  have hstep : ∀ (q : Stats × Sys) e r, (Stats.Inv q ∧ (∃ n, Timed n q) ∧ Tallied q) →
      Stats.step pbDecode cd q e = some r → Stats.Inv r ∧ (∃ n, Timed n r) ∧ Tallied r :=
    fun _ _ _ ⟨hi, ⟨_, ht⟩, htally⟩ hs => ⟨hi.step hs, ht.step hi hs, htally.step hi hs⟩
  exact (Runs.inv_run hstep ⟨Stats.Inv.start, ⟨0, Timed.start⟩, Tallied.start⟩ h).2

variable {c : Counter} {k : Nat} {a b : Meter.Sample Moment}

/-- **100 wakeups between two reports found DFU inactive** -/
theorem samples_inactive {l : List Ev} (h : run (Stats.step pbDecode cd) ({}, {}) l = some p)
    (hc : c ∈ printedCounters) (ha : (p.1.samples c)[k]? = some a)
    (hb : (p.1.samples c)[k + 1]? = some b) : b.stamp.inactive = a.stamp.inactive + 100 := by
  obtain ⟨⟨n, ht⟩, _⟩ := timed_run h
  obtain ⟨x, _, rfl, hx⟩ := (ht.paced c hc).windows.samples ha hb
  exact hx

/-- the `k`-th report of a counter printed the increments since the report before it, `a` and `b`
being the samples of the two, and 100 wakeups lie in between -/
def OverOneSecond (p : Stats × Sys) (c : Counter) (k : Nat) (a b : Meter.Sample Moment) : Prop :=
  (p.2.words c).printed[k]? = some (UInt32.ofNat (b.events - a.events)) ∧
    b.stamp.all = a.stamp.all + 100

end

/-- **A report is over the increments of the 100 wakeups since the report before it (or the start)
if and only if none of the wakeups in between found DFU active, and the test button counted no frame
between the two reads of that report** (or a multiple of `2 ^ 32` of them, which a word does not
show). -/
theorem over_one_second_iff (pbDecode : List UInt8 → Option MasterFrame) (cd : Candef)
    (evs : List Ev) (p : Stats × Sys)
    (hrun : run (Stats.step pbDecode cd) ({}, {}) evs = some p) (c : Counter)
    (hc : c ∈ printedCounters) (k : Nat) (a b : Meter.Sample Moment)
    (ha : (p.1.samples c)[k]? = some a) (hb : (p.1.samples c)[k + 1]? = some b) :
    OverOneSecond p c k a b ↔
      2 ^ 32 ∣ b.stamp.missed - a.stamp.missed ∧ b.stamp.active = a.stamp.active := by
  have hinactive := samples_inactive hrun hc ha hb
  have hall : b.stamp.all = a.stamp.all + 100 ↔ b.stamp.active = a.stamp.active := by
    unfold Wakeups.all
    omega
  have hprinted := ((Stats.inv_run hrun).shows c hc).printed_iff ((timed_run hrun).2 c hc) ha hb
  exact and_congr hprinted hall

theorem over_one_second_iff_idle :
    ∃ p a b, run (Stats.step (fun _ => some {}) Candef.bytewise) ({}, {})
        (idlePasses 99 ++ [.received []] ++ reportPass 3) = some p ∧
      (p.2.words .rs485).printed = [1] ∧ OverOneSecond p .rs485 0 a b := by
  obtain ⟨p, hrun, hprinted, hsamples⟩ :
      ∃ p, run (Stats.step (fun _ => some {}) Candef.bytewise) ({}, {})
          (idlePasses 99 ++ [.received []] ++ reportPass 3) = some p ∧
        (p.2.words .rs485).printed = [1] ∧
        p.1.samples .rs485 = [⟨0, {}⟩, ⟨1, { inactive := 100 }⟩] := by
    decide +kernel
  have ha : (p.1.samples .rs485)[0]? = some ⟨0, {}⟩ := by rw [hsamples]; rfl
  have hb : (p.1.samples .rs485)[1]? = some ⟨1, { inactive := 100 }⟩ := by rw [hsamples]; rfl
  exact ⟨p, _, _, hrun, hprinted, (over_one_second_iff (fun _ => some {}) Candef.bytewise _ p hrun
    .rs485 (by decide) 0 _ _ ha hb).mpr ⟨Nat.dvd_zero _, rfl⟩⟩

/-- a frame is received in a wakeup that finds DFU active -/
def dfuRun : List Ev := [.dfuStart, .wake, .received [], .sleep, .dfuEnd]

/-- none is received in the 100 wakeups that follow, but the report at their end prints 1; and with
the test button between the reads of a report, the next one prints 0 although a frame was counted
in the 100 wakeups since -/
theorem not_over_one_second :
    (∃ q p a b, run (Stats.step (fun _ => some {}) Candef.bytewise) ({}, {}) dfuRun = some q ∧
      q.1.wakeups.all = 1 ∧ (q.2.words .rs485).value = 1 ∧
      run (Stats.step (fun _ => some {}) Candef.bytewise) q (idlePasses 99 ++ reportPass 3) =
        some p ∧
      p.1.wakeups.all = 101 ∧ (p.2.words .rs485).value = 1 ∧ (p.2.words .rs485).printed = [1] ∧
      p.1.samples .rs485 = [a, b] ∧ ¬ OverOneSecond p .rs485 0 a b) ∧
    ∃ p a b d, run (Stats.step (fun _ => none) Candef.bytewise) ({}, {}) buttonRun = some p ∧
      (p.2.words (.frames .mcuAnalogSpeed)).printed = [0, 0] ∧
      p.1.samples (.frames .mcuAnalogSpeed) = [a, b, d] ∧ d.events = b.events + 1 ∧
      d.stamp.all = b.stamp.all + 100 ∧ ¬ OverOneSecond p (.frames .mcuAnalogSpeed) 1 b d := by
  constructor
  · obtain ⟨q, hq, hall, hvalue, p, hrun⟩ :
        ∃ q, run (Stats.step (fun _ => some {}) Candef.bytewise) ({}, {}) dfuRun = some q ∧
          q.1.wakeups.all = 1 ∧ (q.2.words .rs485).value = 1 ∧
          ∃ p, run (Stats.step (fun _ => some {}) Candef.bytewise) q
              (idlePasses 99 ++ reportPass 3) = some p ∧
            p.1.wakeups.all = 101 ∧ (p.2.words .rs485).value = 1 ∧
            (p.2.words .rs485).printed = [1] ∧
            p.1.samples .rs485 = [⟨0, {}⟩, ⟨1, { inactive := 100, active := 1 }⟩] := by
      decide +kernel
    obtain ⟨hrun, hall', hvalue', hprinted, hsamples⟩ := hrun
    exact ⟨q, p, _, _, hq, hall, hvalue, hrun, hall', hvalue', hprinted, hsamples,
      fun h => absurd h.2 (by decide)⟩
  · obtain ⟨p, hrun, hprinted, hsamples⟩ :
        ∃ p, run (Stats.step (fun _ => none) Candef.bytewise) ({}, {}) buttonRun = some p ∧
          (p.2.words (.frames .mcuAnalogSpeed)).printed = [0, 0] ∧
          p.1.samples (.frames .mcuAnalogSpeed) = [⟨0, {}⟩, ⟨0, { inactive := 100 }⟩,
            ⟨1, { inactive := 200, missed := 1 }⟩] := by
      decide +kernel
    refine ⟨p, _, _, _, hrun, hprinted, hsamples, rfl, rfl, fun h => ?_⟩
    have hone := h.1
    rw [hprinted] at hone
    exact absurd hone (by decide)

end CCU
