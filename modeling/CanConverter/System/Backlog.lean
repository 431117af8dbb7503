import CanConverter.System.Step

/-!
# The backlog of the TX queue

The TX thread is assumed to take at least three frames between two wakeups, or all that the pass
leaves to take if these are fewer, and the test button to be pressed at least 100 wakeups after its
last burst.  `Pace` is the monitor that states this; it only looks.

The bound is an amortised one.  A wakeup adds two frames and, on a rollover of a counter, the frames
of its group.  Every counter therefore pays in advance, by what it has counted: 400 thousandths of a
frame a wakeup for the four frames of the 10 Hz group, 90 for the nine of the 1 Hz group, 1 for
the unassigned one, and the wakeups since the last burst pay 100 each for the ten frames of the
next.  So a wakeup costs 2000 + 400 + 90 + 1 + 100 = 2591 thousandths, less than the three frames
that are taken.

* `charge_next`            what a pass sends is paid for;
* `load`, `limit`          the load of a state and its limit at each place of the periodic thread;
* `Bounded.step`           every paced step keeps the load within the limit;
* `queue_never_overflows`  at most 26 frames are queued, in every paced run.
-/

namespace CCU
open Runs

/-! ## the frames of a pass -/

theorem call?_sends (l : List Call) : (sends l).filterMap Act.call? = l := by
  induction l with
  | nil => rfl
  | cons c l ih =>
    show c :: (sends l).filterMap Act.call? = c :: l
    rw [ih]

theorem call?_statsReport : statsReport.filterMap Act.call? = [] := rfl

theorem length_ite_le (p : Prop) [Decidable p] (l : List Call) :
    (if p then l else []).length ≤ l.length := by
  split
  · exact Nat.le_refl _
  · exact Nat.zero_le _

theorem length_group100Hz (d : MasterData) : (group100Hz d).length ≤ 2 := by
  unfold group100Hz
  rw [List.length_append]
  have hs := length_ite_le (d.masterStatusValid = true) [.sendMcuState d.masterStatus]
  have hf := length_ite_le (d.masterFaultsValid = true) [.sendMcuFaults d.masterFaults]
  simp only [List.length_cons, List.length_nil] at hs hf
  omega

theorem length_group10Hz (d : MasterData) : (group10Hz d).length ≤ 4 := length_ite_le _ _

theorem length_group1Hz (d : MasterData) : (group1Hz d).length ≤ 9 := by
  unfold group1Hz
  rw [List.length_append, List.length_append]
  have hm := length_ite_le (d.masterMeasurementsValid = true)
    [.sendMcuAnalogPedals d.masterMeasurements, .sendMcuInputs d.masterMeasurements]
  have ho := length_ite_le (d.protiumOperatingStateValid = true)
    [.sendProtiumState d.protiumOperatingState]
  have hv := length_ite_le (d.protiumValuesValid = true)
    [.sendProtiumPower d.protiumValues, .sendProtiumThermal d.protiumValues,
      .sendProtiumHydrogen d.protiumValues, .sendProtiumSetpoints d.protiumValues,
      .sendProtiumStasis d.protiumValues, .sendProtiumMisc d.protiumValues]
  simp only [List.length_cons, List.length_nil] at hm ho hv
  omega

theorem length_groupUnassigned (d : MasterData) : (groupUnassigned d).length ≤ 1 :=
  length_ite_le _ _

/-- the test burst has at most ten frames -/
theorem length_testSendAll (d : MasterData) : (testSendAll d).length ≤ 10 := by
  unfold testSendAll
  rw [List.length_append]
  split
  · exact Nat.le_refl 10
  · exact Nat.le_succ 9

/-- what the counters have paid for so far, in thousandths of a frame -/
def Counters.charge (c : Counters) : Nat :=
  400 * c.cnt100ms + 90 * c.cnt1000ms + (c.cnt1s + 100 * c.cntUnassign)

theorem Counters.Ok.charge_le {c : Counters} (h : c.Ok) : c.charge ≤ 13509 := by
  obtain ⟨h1, h2, h3, h4⟩ := h
  unfold Counters.charge
  omega

theorem Counters.charge_dfu (c : Counters) : c.dfu.charge ≤ c.charge := by
  unfold Counters.charge
  show 400 * 0 + 90 * 0 + (c.cnt1s + 100 * c.cntUnassign) ≤ _
  omega

theorem calls_loopActs (d : MasterData) (c : Counters) :
    (loopActs d c).filterMap Act.call? =
      group100Hz d ++ (if c.cnt100ms + 1 = 10 then group10Hz d else []) ++
      (if c.cnt1000ms + 1 = 100 then group1Hz d else []) ++
      (if c.cnt1s + 1 = 100 then (if c.cntUnassign + 1 = 10 then groupUnassigned d else [])
        else []) := by
  have hite : ∀ (p : Prop) [Decidable p] (l : List Call),
      (if p then sends l else []).filterMap Act.call? = if p then l else [] := by
    intro p _ l
    split
    · exact call?_sends l
    · rfl
  unfold loopActs
  rw [List.filterMap_append, List.filterMap_append, List.filterMap_append, call?_sends, hite, hite]
  congr 1
  split
  · rw [List.filterMap_append, hite, call?_statsReport, List.append_nil]
  · rfl

/-- **what a pass sends is paid for**: the frames and the new charge cost two frames and the
payments of one wakeup more than the old charge -/
theorem charge_next (d : MasterData) {c : Counters} (hc : c.Ok) :
    1000 * ((loopActs d c).filterMap Act.call?).length + c.next.charge ≤ c.charge + 2491 := by
  obtain ⟨h1, h2, h3, h4⟩ := hc
  have g100 := length_group100Hz d
  have g10 := length_group10Hz d
  have g1 := length_group1Hz d
  have gu := length_groupUnassigned d
  rw [calls_loopActs]
  simp only [List.length_append, apply_ite List.length, List.length_nil]
  unfold Counters.charge Counters.next roll
  simp only
  split_ifs <;> omega

/-! ## the pace -/

/-- `taken`: the frames the TX thread took since the last wakeup; `owed`: those it still has to take
before the next one; `since`: the wakeups since the last put of the test button -/
structure Pace where
  taken : Nat := 0
  owed : Nat := 0
  since : Nat := 100
deriving DecidableEq

/-- the monitor: a pass that ends leaves up to three frames owed, less those taken meanwhile -/
def Pace.upd (m : Pace) (_ : Sys) (e : Ev) (t : Sys) : Pace :=
  match e with
  | .sleep => { m with owed := min 3 (m.taken + t.canTx.canTxMsgq.length) - m.taken }
  | .tx (.get _) => { m with taken := m.taken + 1, owed := m.owed - 1 }
  | .busOff => { m with owed := 0 }
  | .wake => { m with taken := 0, since := m.since + 1 }
  | .buttonSend => { m with since := 0 }
  | _ => m

/-- a wakeup comes when nothing is owed, a press at least 100 wakeups after the last burst -/
def Paced (p : Pace × Sys) : Ev → Prop
  | .wake => p.1.owed = 0
  | .press => 100 ≤ p.1.since
  | _ => True

instance (p : Pace × Sys) : ∀ e, Decidable (Paced p e)
  | .wake => inferInstanceAs (Decidable (p.1.owed = 0))
  | .press => inferInstanceAs (Decidable (100 ≤ p.1.since))
  | .received _ | .snapshot | .act | .sleep | .buttonSend | .buttonDone | .dfuStart | .dfuEnd
  | .tx _ | .busOff => isTrue True.intro

/-! ## the load -/

/-- what the wakeups since the last burst have paid for the next one -/
def burstCharge (since : Nat) (calls : List Call) : Nat :=
  if calls = [] then 100 * min since 100 else 0

/-- the frames queued or about to be, and all charges, in thousandths of a frame -/
def load (m : Pace) (s : Sys) : Nat :=
  1000 * (s.canTx.canTxMsgq.length + s.periodic.pc.calls.length + s.button.calls.length) +
    s.periodic.cnt.charge + burstCharge m.since s.button.calls

/-- the limit of the load at each place of the periodic thread -/
def limit (m : Pace) : PeriodicPc → Nat
  | .asleep => 23509 + 1000 * m.owed
  | .awake => 23609 - 1000 * min 3 m.taken
  | .running _ => 26100 - 1000 * min 3 m.taken

structure Bounded (m : Pace) (s : Sys) : Prop where
  cnt : s.periodic.cnt.Ok
  owed : m.owed ≤ 3
  burst : s.button.calls.length ≤ 10
  load_le : load m s ≤ limit m s.periodic.pc
  full : s.canTx.queueFull = 0

theorem Bounded.init : Bounded {} {} :=
  ⟨Counters.ok_init, Nat.zero_le 3, Nat.zero_le 10, by decide, rfl⟩

theorem limit_le {m : Pace} (h : m.owed ≤ 3) (pc : PeriodicPc) : limit m pc ≤ 26509 := by
  unfold limit
  split <;> omega

/-- a frame that is taken lowers the limit by no more than itself -/
theorem limit_get (m : Pace) (pc : PeriodicPc) :
    limit m pc ≤ limit { m with taken := m.taken + 1, owed := m.owed - 1 } pc + 1000 := by
  unfold limit
  cases pc with
  | asleep =>
    show 23509 + 1000 * m.owed ≤ 23509 + 1000 * (m.owed - 1) + 1000
    omega
  | awake =>
    show 23609 - 1000 * min 3 m.taken ≤ 23609 - 1000 * min 3 (m.taken + 1) + 1000
    omega
  | running acts =>
    show 26100 - 1000 * min 3 m.taken ≤ 26100 - 1000 * min 3 (m.taken + 1) + 1000
    omega

/-- **a bounded state has at most 26 frames queued or about to be** -/
theorem Bounded.length_le {m : Pace} {s : Sys} (h : Bounded m s) :
    s.canTx.canTxMsgq.length + s.periodic.pc.calls.length + s.button.calls.length ≤ 26 := by
  have hl := h.load_le
  have hm := limit_le h.owed s.periodic.pc
  unfold load at hl
  omega

/-- what a burst and the counters can add to the queue, whatever was paid -/
theorem burstCharge_le (since : Nat) {calls : List Call} (h : calls.length ≤ 10) :
    1000 * calls.length + burstCharge since calls ≤ 10000 := by
  unfold burstCharge
  split
  · rename_i hc
    rw [hc, List.length_nil]
    have hmin := Nat.min_le_right since 100
    omega
  · omega

/-- the load that is neither queued nor about to be -/
theorem Bounded.load_le_of_rest {m : Pace} {s : Sys} (h : Bounded m s) :
    load m s ≤ 1000 * (s.canTx.canTxMsgq.length + s.periodic.pc.calls.length) + 23509 := by
  have hc := h.cnt.charge_le
  have hb := burstCharge_le m.since h.burst
  unfold load
  omega

section
variable {pbDecode : List UInt8 → Option MasterFrame} {cd : Candef} {m : Pace} {s t : Sys}

/-- a step that leaves the queue, the periodic thread, the burst and the monitor alone -/
theorem Bounded.of_eq (hs : Bounded m s) (h1 : t.canTx = s.canTx) (h2 : t.periodic = s.periodic)
    (h3 : t.button.calls = s.button.calls) : Bounded m t := by
  obtain ⟨hc, ho, hb, hl, hf⟩ := hs
  refine ⟨h2 ▸ hc, ho, h3 ▸ hb, ?_, h1 ▸ hf⟩
  show load m t ≤ limit m t.periodic.pc
  have hload : load m t = load m s := by unfold load; rw [h1, h2, h3]
  rw [hload, h2]
  exact hl

theorem Bounded.wake (hs : Bounded m s) (ho : m.owed = 0)
    (h : Sys.step pbDecode cd s .wake = some t) : Bounded (m.upd s .wake t) t := by
  obtain ⟨hc, _, hb, hl, hf⟩ := hs
  obtain ⟨hp, ht⟩ := Sys.step_wake h
  have hcharge : burstCharge (m.since + 1) s.button.calls ≤ burstCharge m.since s.button.calls + 100 := by
    unfold burstCharge
    split <;> omega
  unfold load limit at hl
  rw [hp] at hl
  simp only [PeriodicPc.calls_asleep, List.length_nil, ho] at hl
  rcases ht with ⟨_, rfl⟩ | ⟨_, rfl⟩
  · have hbody := dfuBody_is hc
    have hdfu := Counters.charge_dfu s.periodic.cnt
    refine ⟨?_, ?_, hb, ?_, hf⟩
    · show (dfuBody s.periodic.cnt).cnt.Ok
      rw [hbody.cnt]
      exact hc.dfu
    · exact ho ▸ Nat.zero_le 3
    · show 1000 * (s.canTx.canTxMsgq.length + 0 + s.button.calls.length) +
        (dfuBody s.periodic.cnt).cnt.charge + burstCharge (m.since + 1) s.button.calls ≤
          26100 - 1000 * min 3 0
      rw [hbody.cnt]
      omega
  · refine ⟨hc, ?_, hb, ?_, hf⟩
    · exact ho ▸ Nat.zero_le 3
    · show 1000 * (s.canTx.canTxMsgq.length + 0 + s.button.calls.length) +
        s.periodic.cnt.charge + burstCharge (m.since + 1) s.button.calls ≤ 23609 - 1000 * min 3 0
      omega

theorem Bounded.snapshot (hs : Bounded m s) (h : Sys.step pbDecode cd s .snapshot = some t) :
    Bounded m t := by
  obtain ⟨hc, ho, hb, hl, hf⟩ := hs
  obtain ⟨hp, rfl⟩ := Sys.step_snapshot h
  have hbody := loopBody_is s.rs485.data hc
  have hpaid := charge_next s.rs485.data hc
  -- the pass itself does not matter any more, only what it leaves
  generalize loopBody s.rs485.data s.periodic.cnt = body at hbody ⊢
  unfold load limit at hl
  rw [hp] at hl
  simp only [PeriodicPc.calls_awake, List.length_nil] at hl
  refine ⟨?_, ho, hb, ?_, hf⟩
  · show body.cnt.Ok
    rw [hbody.cnt]
    exact hc.next
  · show 1000 * (s.canTx.canTxMsgq.length + (body.acts.filterMap Act.call?).length +
        s.button.calls.length) + body.cnt.charge + burstCharge m.since s.button.calls ≤
      26100 - 1000 * min 3 m.taken
    rw [hbody.cnt, hbody.acts]
    omega

theorem Bounded.act (hs : Bounded m s) (h : Sys.step pbDecode cd s .act = some t) :
    Bounded m t := by
  have hlen := hs.length_le
  obtain ⟨hc, ho, hb, hl, hf⟩ := hs
  obtain ⟨a, l, hp, rfl⟩ := Sys.step_act h
  unfold load at hl
  rw [hp, PeriodicPc.calls_cons, List.length_append] at hl hlen
  have h26 : limit m (.running (a :: l)) = 26100 - 1000 * min 3 m.taken := rfl
  have hq : (s.doAct cd a).canTx.canTxMsgq.length ≤
      s.canTx.canTxMsgq.length + a.call?.toList.length := by
    cases a with
    | send c => exact Call.exec_length cd c s.canTx
    | _ => exact Nat.le_add_right _ _
  have hfull : (s.doAct cd a).canTx.queueFull = s.canTx.queueFull := by
    cases a with
    | send c =>
      have hroom : s.canTx.canTxMsgq.length + (1 + (PeriodicPc.running l).calls.length) +
        s.button.calls.length ≤ 26 := hlen
      exact Call.exec_queueFull cd c (Nat.lt_of_le_of_lt (by omega) (show 26 < 32 by decide))
    | _ => rfl
  refine ⟨?_, ho, ?_, ?_, ?_⟩
  · show (s.doAct cd a).periodic.cnt.Ok
    rw [Sys.doAct_cnt]
    exact hc
  · show (s.doAct cd a).button.calls.length ≤ 10
    rw [Sys.doAct_button]
    exact hb
  · show 1000 * ((s.doAct cd a).canTx.canTxMsgq.length + (PeriodicPc.running l).calls.length +
        (s.doAct cd a).button.calls.length) + (s.doAct cd a).periodic.cnt.charge +
        burstCharge m.since (s.doAct cd a).button.calls ≤ 26100 - 1000 * min 3 m.taken
    rw [Sys.doAct_cnt, Sys.doAct_button]
    omega
  · show (s.doAct cd a).canTx.queueFull = 0
    rw [hfull]
    exact hf

/-- what a pass leaves: three frames are owed, or all of them -/
theorem Bounded.sleep (hs : Bounded m s) (h : Sys.step pbDecode cd s .sleep = some t) :
    Bounded (m.upd s .sleep t) t := by
  have hrest := hs.load_le_of_rest
  obtain ⟨hc, ho, hb, hl, hf⟩ := hs
  obtain ⟨hp, rfl⟩ := Sys.step_sleep h
  unfold load limit at hl
  unfold load at hrest
  rw [hp] at hl hrest
  refine ⟨hc, Nat.le_trans (Nat.sub_le _ _) (Nat.min_le_left _ _), hb, ?_, hf⟩
  show 1000 * (s.canTx.canTxMsgq.length + 0 + s.button.calls.length) + s.periodic.cnt.charge +
      burstCharge m.since s.button.calls ≤
    23509 + 1000 * (min 3 (m.taken + s.canTx.canTxMsgq.length) - m.taken)
  simp only [PeriodicPc.calls_nil, List.length_nil] at hl hrest
  omega

theorem Bounded.press (hs : Bounded m s) (hsince : 100 ≤ m.since)
    (h : Sys.step pbDecode cd s .press = some t) : Bounded m t := by
  obtain ⟨hc, ho, hb, hl, hf⟩ := hs
  obtain ⟨hi, rfl⟩ := Sys.step_press h
  have hten := length_testSendAll s.rs485.data
  have hne : testSendAll s.rs485.data ≠ [] := fun h => nomatch h
  refine ⟨hc, ho, hten, ?_, hf⟩
  show 1000 * (s.canTx.canTxMsgq.length + s.periodic.pc.calls.length +
      (testSendAll s.rs485.data).length) + s.periodic.cnt.charge +
      burstCharge m.since (testSendAll s.rs485.data) ≤ limit m s.periodic.pc
  refine Nat.le_trans ?_ hl
  unfold load burstCharge
  rw [hi, Button.calls_idle, if_neg hne, if_pos rfl, Nat.min_eq_right hsince, List.length_nil]
  omega

theorem Bounded.buttonSend (hs : Bounded m s)
    (h : Sys.step pbDecode cd s .buttonSend = some t) : Bounded (m.upd s .buttonSend t) t := by
  have hlen := hs.length_le
  obtain ⟨hc, ho, hb, hl, hf⟩ := hs
  obtain ⟨c, l, hbc, rfl⟩ := Sys.step_buttonSend h
  rw [hbc, Button.calls_sending, List.length_cons] at hb hlen
  have hq := Call.exec_length cd c s.canTx
  refine ⟨hc, ho, Nat.le_of_succ_le hb, ?_, ?_⟩
  · show 1000 * ((c.exec cd s.canTx).canTxMsgq.length + s.periodic.pc.calls.length + l.length) +
      s.periodic.cnt.charge + burstCharge 0 l ≤ limit m s.periodic.pc
    refine Nat.le_trans ?_ hl
    have hzero : burstCharge 0 l = 0 := by
      unfold burstCharge
      split <;> rfl
    unfold load
    rw [hbc, Button.calls_sending, List.length_cons, hzero]
    omega
  · show (c.exec cd s.canTx).queueFull = 0
    rw [Call.exec_queueFull cd c (Nat.lt_of_le_of_lt (by omega) (show 26 < 32 by decide))]
    exact hf

theorem Bounded.get {frame : CanFrame} (hs : Bounded m s)
    (h : Sys.step pbDecode cd s (.tx (.get frame)) = some t) :
    Bounded (m.upd s (.tx (.get frame)) t) t := by
  obtain ⟨hc, ho, hb, hl, hf⟩ := hs
  obtain ⟨q, u, hget, _, rfl⟩ := Sys.step_txGet h
  have hq := Fifo.length_get hget
  refine ⟨hc, Nat.le_trans (Nat.sub_le _ _) ho, hb, ?_, hf⟩
  show 1000 * (q.length + s.periodic.pc.calls.length + s.button.calls.length) +
    s.periodic.cnt.charge + burstCharge m.since s.button.calls ≤
      limit { m with taken := m.taken + 1, owed := m.owed - 1 } s.periodic.pc
  have hlimit := limit_get m s.periodic.pc
  unfold load at hl
  omega

theorem Bounded.busOff (hs : Bounded m s) (h : Sys.step pbDecode cd s .busOff = some t) :
    Bounded (m.upd s .busOff t) t := by
  have hrest := hs.load_le_of_rest
  obtain ⟨hc, ho, hb, hl, hf⟩ := hs
  rw [Sys.step_busOff h]
  refine ⟨hc, Nat.zero_le 3, hb, ?_, hf⟩
  show 1000 * (0 + s.periodic.pc.calls.length + s.button.calls.length) +
    s.periodic.cnt.charge + burstCharge m.since s.button.calls ≤
      limit { m with owed := 0 } s.periodic.pc
  unfold load at hl hrest
  unfold limit at hl ⊢
  cases hp : s.periodic.pc with
  | asleep =>
    rw [hp] at hrest
    simp only [PeriodicPc.calls_asleep, List.length_nil] at hrest ⊢
    omega
  | awake =>
    rw [hp] at hl
    simp only at hl ⊢
    omega
  | running acts =>
    rw [hp] at hl
    simp only at hl ⊢
    omega

/-- **every paced step keeps the load within the limit** -/
theorem Bounded.step {e : Ev} (hs : Bounded m s) (hG : Paced (m, s) e)
    (h : Sys.step pbDecode cd s e = some t) : Bounded (m.upd s e t) t := by
  cases e with
  | received b =>
    rw [Sys.step_received h]
    exact hs.of_eq rfl rfl rfl
  | wake => exact hs.wake hG h
  | snapshot => exact hs.snapshot h
  | act => exact hs.act h
  | sleep => exact hs.sleep h
  | press => exact hs.press hG h
  | buttonSend => exact hs.buttonSend h
  | buttonDone =>
    obtain ⟨hb, rfl⟩ := Sys.step_buttonDone h
    exact hs.of_eq rfl rfl (by rw [hb]; rfl)
  | dfuStart =>
    obtain ⟨_, rfl⟩ := Sys.step_dfuStart h
    exact hs.of_eq rfl rfl rfl
  | dfuEnd =>
    obtain ⟨_, rfl⟩ := Sys.step_dfuEnd h
    exact hs.of_eq rfl rfl rfl
  | tx e =>
    by_cases hg : ∃ frame, e = .get frame
    · obtain ⟨frame, rfl⟩ := hg
      exact hs.get h
    · have hn : ∀ f, e ≠ .get f := fun f hf => hg ⟨f, hf⟩
      have hm : m.upd s (.tx e) t = m := by
        cases e with
        | get f => exact absurd rfl (hn f)
        | _ => rfl
      obtain ⟨_, _, rfl⟩ := Sys.step_tx hn h
      rw [hm]
      exact hs.of_eq rfl rfl rfl
  | busOff => exact hs.busOff h

theorem Bounded.run {evs : List Ev}
    (hG : Always (watch Pace.upd (Sys.step pbDecode cd)) Paced ({}, {}) evs)
    (h : run (watch Pace.upd (Sys.step pbDecode cd)) ({}, {}) evs = some (m, s)) :
    Bounded m s := by
  have hi : ∀ (p : Pace × Sys) (e : Ev) (q : Pace × Sys), Bounded p.1 p.2 → Paced p e →
      watch Pace.upd (Sys.step pbDecode cd) p e = some q → Bounded q.1 q.2 := by
    intro p e q hp hG hq
    obtain ⟨ht, hm⟩ := watch_some.mp hq
    rw [hm]
    exact hp.step hG ht
  exact inv_run_of hi Bounded.init hG h

/-- **The TX queue never overflows in a paced run**: it holds at most 26 frames, and no put has
failed. -/
theorem queue_never_overflows (pbDecode : List UInt8 → Option MasterFrame) (cd : Candef)
    (evs : List Ev) {m : Pace} {s : Sys}
    (hG : Always (watch Pace.upd (Sys.step pbDecode cd)) Paced ({}, {}) evs)
    (h : Runs.run (watch Pace.upd (Sys.step pbDecode cd)) ({}, {}) evs = some (m, s)) :
    s.canTx.canTxMsgq.length ≤ 26 ∧ s.canTx.queueFull = 0 := by
  have hb := Bounded.run hG h
  have hlen := hb.length_le
  exact ⟨by omega, hb.full⟩

/-- a burst, then a wakeup that queues the state, three frames taken, and the next wakeup -/
def pacedRun : List Ev :=
  [.received statusRunningBytes, .press, .buttonSend, .wake, .snapshot, .act, .sleep,
    .tx (.get ⟨0x107, 2, canFrameIde, #v[0, 0, 0, 0, 0, 0, 0, 0]⟩), .tx (.canSend (-5)),
    .tx (.get ⟨0x100, 5, canFrameIde, #v[3, 0, 0, 0, 0, 0, 0, 0]⟩), .wake, .snapshot, .act]

theorem queue_never_overflows_pacedRun :
    ∃ m s, Runs.run (watch Pace.upd (Sys.step sampleDecode Candef.bytewise)) ({}, {}) pacedRun =
        some (m, s) ∧
      s.canTx.canTxMsgq.length = 1 ∧ s.canTx.canTxMsgq.length ≤ 26 ∧ s.canTx.queueFull = 0 :=
  ⟨_, _, rfl, rfl, queue_never_overflows sampleDecode Candef.bytewise pacedRun (by decide) rfl⟩

end

end CCU
