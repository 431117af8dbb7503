import CanConverter.Periodic.Loop
import CanConverter.Tx.Thread

/-!
# The unit as one transition system

The parser thread, the periodic thread, the TX thread with the driver's callback, the test button
and the DFU module step in any order.  An event is one step of one of them:

* a section under `data_mutex` is one event (`received`, `snapshot`, `press`);
* every call of a sender and every read of the statistics report is one event (`act`,
  `buttonSend`);
* `wake` is the test of `can_dfu_is_active()` after `k_sleep`, `sleep` the end of the pass;
* a bus-off event purges `can_tx_msgq`.

`step_wake`, `step_snapshot`, … say what each event can do; later modules do not unfold `step`.
-/

namespace CCU

/-- where the periodic thread is: in `k_sleep`, before the snapshot, or with `acts` left to do -/
inductive PeriodicPc where
  | asleep
  | awake
  | running (acts : List Act)
deriving DecidableEq

/-- what a statistics report printed -/
inductive Printed where
  | rates (dRs485 dCanOk : UInt32)
  | hz (field : Field) (n : UInt32)
deriving DecidableEq

/-- the locals of `ccu_can_periodic_thread` -/
structure Periodic where
  pc : PeriodicPc := .asleep
  cnt : Counters := {}
  curRs485 : UInt32 := 0
  curCanOk : UInt32 := 0
  prevRs485Rx : UInt32 := 0
  prevCanTxOk : UInt32 := 0
  prevFrames : Field → UInt32 := fun _ => 0
  printed : List Printed := []

/-- where the test button is: idle, or in `ccu_can_test_send_all` with `calls` left to do -/
inductive Button where
  | idle
  | sending (calls : List Call)
deriving DecidableEq

def Act.call? : Act → Option Call
  | .send c => some c
  | _ => none

/-- the calls the pass still has to make -/
def PeriodicPc.calls : PeriodicPc → List Call
  | .running acts => acts.filterMap Act.call?
  | _ => []

/-- the calls of the burst that are still to be made -/
def Button.calls : Button → List Call
  | .sending calls => calls
  | .idle => []

@[simp] theorem PeriodicPc.calls_asleep : PeriodicPc.asleep.calls = [] := rfl
@[simp] theorem PeriodicPc.calls_awake : PeriodicPc.awake.calls = [] := rfl
@[simp] theorem PeriodicPc.calls_nil : (PeriodicPc.running []).calls = [] := rfl
@[simp] theorem Button.calls_idle : Button.idle.calls = [] := rfl
@[simp] theorem Button.calls_sending (l : List Call) : (Button.sending l).calls = l := rfl

theorem PeriodicPc.calls_cons (a : Act) (l : List Act) :
    (running (a :: l)).calls = a.call?.toList ++ (running l).calls := by
  cases a <;> rfl

structure Sys where
  rs485 : Rs485 := {}
  canTx : CanTx := {}
  txThread : TxThread CanFrame := {}
  periodic : Periodic := {}
  button : Button := .idle
  canDfuIsActive : Bool := false

inductive Ev where
  | received (decoded : List UInt8)
  | wake
  | snapshot
  | act
  | sleep
  | press
  | buttonSend
  | buttonDone
  | dfuStart
  | dfuEnd
  | tx (e : TxEv CanFrame)
  | busOff
deriving DecidableEq

/-- the threads and contexts that step -/
inductive Thread where
  | parser | periodic | button | dfu | tx | bus
deriving DecidableEq

def Ev.thread : Ev → Thread
  | .received _ => .parser
  | .wake | .snapshot | .act | .sleep => .periodic
  | .press | .buttonSend | .buttonDone => .button
  | .dfuStart | .dfuEnd => .dfu
  | .tx _ => .tx
  | .busOff => .bus

/-- `ccu_can_test_send_all`, after its snapshot `d` -/
def testSendAll (d : MasterData) : List Call :=
  [.sendMcuAnalogSpeed d.masterMeasurements, .sendMcuAnalogPedals d.masterMeasurements,
    .sendMcuAnalogPowertrain d.masterMeasurements, .sendMcuAnalogFuelCell d.masterMeasurements,
    .sendMcuAnalogAccessory d.masterMeasurements, .sendMcuAnalogUnassigned d.masterMeasurements,
    .sendMcuInputs d.masterMeasurements, .sendMcuState d.masterStatus,
    .sendMcuFaults d.masterFaults] ++
  (if d.protiumOperatingStateValid then [.sendProtiumState d.protiumOperatingState] else [])

namespace Sys

/-- the periodic thread does one action -/
def doAct (cd : Candef) (s : Sys) : Act → Sys
  | .send c => { s with canTx := c.exec cd s.canTx }
  | .readRs485 =>
    { s with periodic := { s.periodic with curRs485 := s.rs485.rs485FramesReceived } }
  | .readCanOk => { s with periodic := { s.periodic with curCanOk := s.txThread.canFramesTxOk } }
  | .logRates =>
    { s with
      periodic := { s.periodic with
        printed := s.periodic.printed ++
          [.rates (s.periodic.curRs485 - s.periodic.prevRs485Rx)
            (s.periodic.curCanOk - s.periodic.prevCanTxOk)] } }
  | .logHz f =>
    { s with
      periodic := { s.periodic with
        printed := s.periodic.printed ++
          [.hz f (s.canTx.frameCounts f - s.periodic.prevFrames f)] } }
  | .saveRates =>
    { s with
      periodic := { s.periodic with
        prevRs485Rx := s.periodic.curRs485, prevCanTxOk := s.periodic.curCanOk } }
  | .saveFrames f =>
    { s with
      periodic := { s.periodic with
        prevFrames := Function.update s.periodic.prevFrames f (s.canTx.frameCounts f) } }

/-- the TX thread and the callback; `k_msgq_get` takes the head of the queue, and is taken never to
return without a frame: a purge that wakes it with an error, which the thread does not look at, is
not a step -/
def stepTx (s : Sys) (e : TxEv CanFrame) : Option Sys :=
  match e with
  | .get frame =>
    match s.canTx.canTxMsgq.get with
    | none => none
    | some (f, q) =>
      if f = frame then
        (s.txThread.step (.get frame)).map fun t =>
          { s with txThread := t, canTx := { s.canTx with canTxMsgq := q } }
      else none
  | e => (s.txThread.step e).map fun t => { s with txThread := t }

def setPc (s : Sys) (pc : PeriodicPc) : Sys := { s with periodic := { s.periodic with pc := pc } }

def setCnt (s : Sys) (cnt : Counters) : Sys :=
  { s with periodic := { s.periodic with cnt := cnt } }

section
variable (pbDecode : List UInt8 → Option MasterFrame) (cd : Candef)

def step (s : Sys) : Ev → Option Sys
  | .received decoded => some { s with rs485 := onFrame pbDecode decoded s.rs485 }
  | .wake =>
    match s.periodic.pc with
    | .asleep =>
      if s.canDfuIsActive then
        some ((s.setCnt (dfuBody s.periodic.cnt).cnt).setPc (.running (dfuBody s.periodic.cnt).acts))
      else some (s.setPc .awake)
    | _ => none
  | .snapshot =>
    match s.periodic.pc with
    | .awake =>
      let b := loopBody s.rs485.data s.periodic.cnt
      some ((s.setCnt b.cnt).setPc (.running b.acts))
    | _ => none
  | .act =>
    match s.periodic.pc with
    | .running (a :: l) => some ((s.doAct cd a).setPc (.running l))
    | _ => none
  | .sleep =>
    match s.periodic.pc with
    | .running [] => some (s.setPc .asleep)
    | _ => none
  | .press =>
    match s.button with
    | .idle => some { s with button := .sending (testSendAll s.rs485.data) }
    | _ => none
  | .buttonSend =>
    match s.button with
    | .sending (c :: l) => some { s with canTx := c.exec cd s.canTx, button := .sending l }
    | _ => none
  | .buttonDone =>
    match s.button with
    | .sending [] => some { s with button := .idle }
    | _ => none
  | .dfuStart => if s.canDfuIsActive then none else some { s with canDfuIsActive := true }
  | .dfuEnd => if s.canDfuIsActive then some { s with canDfuIsActive := false } else none
  | .tx e => s.stepTx e
  | .busOff => some { s with canTx := { s.canTx with canTxMsgq := Fifo.empty } }

end

@[simp] theorem rs485_setPc (s : Sys) (pc : PeriodicPc) : (s.setPc pc).rs485 = s.rs485 := rfl
@[simp] theorem canTx_setPc (s : Sys) (pc : PeriodicPc) : (s.setPc pc).canTx = s.canTx := rfl
@[simp] theorem pc_setPc (s : Sys) (pc : PeriodicPc) : (s.setPc pc).periodic.pc = pc := rfl
@[simp] theorem cnt_setPc (s : Sys) (pc : PeriodicPc) :
    (s.setPc pc).periodic.cnt = s.periodic.cnt := rfl
@[simp] theorem txThread_setPc (s : Sys) (pc : PeriodicPc) :
    (s.setPc pc).txThread = s.txThread := rfl
@[simp] theorem button_setPc (s : Sys) (pc : PeriodicPc) : (s.setPc pc).button = s.button := rfl
@[simp] theorem dfu_setPc (s : Sys) (pc : PeriodicPc) :
    (s.setPc pc).canDfuIsActive = s.canDfuIsActive := rfl
@[simp] theorem rs485_setCnt (s : Sys) (c : Counters) : (s.setCnt c).rs485 = s.rs485 := rfl
@[simp] theorem canTx_setCnt (s : Sys) (c : Counters) : (s.setCnt c).canTx = s.canTx := rfl
@[simp] theorem cnt_setCnt (s : Sys) (c : Counters) : (s.setCnt c).periodic.cnt = c := rfl
@[simp] theorem txThread_setCnt (s : Sys) (c : Counters) :
    (s.setCnt c).txThread = s.txThread := rfl
@[simp] theorem button_setCnt (s : Sys) (c : Counters) : (s.setCnt c).button = s.button := rfl
@[simp] theorem dfu_setCnt (s : Sys) (c : Counters) :
    (s.setCnt c).canDfuIsActive = s.canDfuIsActive := rfl

/-! ## what a step can do -/

section
variable {pbDecode : List UInt8 → Option MasterFrame} {cd : Candef} {s t : Sys}

theorem step_received {b : List UInt8} (h : step pbDecode cd s (.received b) = some t) :
    t = { s with rs485 := onFrame pbDecode b s.rs485 } :=
  (Option.some.inj h).symm

theorem step_wake (h : step pbDecode cd s .wake = some t) :
    s.periodic.pc = .asleep ∧
      ((s.canDfuIsActive = true ∧ t = (s.setCnt (dfuBody s.periodic.cnt).cnt).setPc
          (.running (dfuBody s.periodic.cnt).acts)) ∨
       (s.canDfuIsActive = false ∧ t = s.setPc .awake)) := by
  simp only [step] at h
  split at h
  · rename_i hp
    refine ⟨hp, ?_⟩
    split at h
    · rename_i hd
      exact .inl ⟨hd, (Option.some.inj h).symm⟩
    · rename_i hd
      exact .inr ⟨Bool.not_eq_true _ ▸ hd, (Option.some.inj h).symm⟩
  · cases h

theorem step_snapshot (h : step pbDecode cd s .snapshot = some t) :
    s.periodic.pc = .awake ∧
      t = (s.setCnt (loopBody s.rs485.data s.periodic.cnt).cnt).setPc
        (.running (loopBody s.rs485.data s.periodic.cnt).acts) := by
  simp only [step] at h
  split at h
  · rename_i hp
    exact ⟨hp, (Option.some.inj h).symm⟩
  · cases h

/-- a pass with DFU active has nothing to do -/
theorem step_wake_acts (hc : s.periodic.cnt.Ok) (h : step pbDecode cd s .wake = some t)
    {acts : List Act} (hp : t.periodic.pc = .running acts) : acts = [] := by
  obtain ⟨_, ⟨_, rfl⟩ | ⟨_, rfl⟩⟩ := step_wake h
  · exact (PeriodicPc.running.inj hp).symm.trans (dfuBody_is hc).acts
  · cases hp

/-- what the pass has to do after the snapshot -/
theorem step_snapshot_acts (hc : s.periodic.cnt.Ok) (h : step pbDecode cd s .snapshot = some t)
    {acts : List Act} (hp : t.periodic.pc = .running acts) :
    acts = loopActs s.rs485.data s.periodic.cnt := by
  obtain ⟨_, rfl⟩ := step_snapshot h
  exact (PeriodicPc.running.inj hp).symm.trans (loopBody_is _ hc).acts

theorem step_act (h : step pbDecode cd s .act = some t) :
    ∃ a l, s.periodic.pc = .running (a :: l) ∧ t = (s.doAct cd a).setPc (.running l) := by
  simp only [step] at h
  split at h
  · rename_i a l hp
    exact ⟨a, l, hp, (Option.some.inj h).symm⟩
  · cases h

theorem step_sleep (h : step pbDecode cd s .sleep = some t) :
    s.periodic.pc = .running [] ∧ t = s.setPc .asleep := by
  simp only [step] at h
  split at h
  · rename_i hp
    exact ⟨hp, (Option.some.inj h).symm⟩
  · cases h

theorem step_press (h : step pbDecode cd s .press = some t) :
    s.button = .idle ∧ t = { s with button := .sending (testSendAll s.rs485.data) } := by
  simp only [step] at h
  split at h
  · rename_i hb
    exact ⟨hb, (Option.some.inj h).symm⟩
  · cases h

theorem step_buttonSend (h : step pbDecode cd s .buttonSend = some t) :
    ∃ c l, s.button = .sending (c :: l) ∧
      t = { s with canTx := c.exec cd s.canTx, button := .sending l } := by
  simp only [step] at h
  split at h
  · rename_i c l hb
    exact ⟨c, l, hb, (Option.some.inj h).symm⟩
  · cases h

theorem step_buttonDone (h : step pbDecode cd s .buttonDone = some t) :
    s.button = .sending [] ∧ t = { s with button := .idle } := by
  simp only [step] at h
  split at h
  · rename_i hb
    exact ⟨hb, (Option.some.inj h).symm⟩
  · cases h

theorem step_dfuStart (h : step pbDecode cd s .dfuStart = some t) :
    s.canDfuIsActive = false ∧ t = { s with canDfuIsActive := true } := by
  simp only [step] at h
  split at h
  · cases h
  · rename_i hd
    exact ⟨Bool.not_eq_true _ ▸ hd, (Option.some.inj h).symm⟩

theorem step_dfuEnd (h : step pbDecode cd s .dfuEnd = some t) :
    s.canDfuIsActive = true ∧ t = { s with canDfuIsActive := false } := by
  simp only [step] at h
  split at h
  · rename_i hd
    exact ⟨hd, (Option.some.inj h).symm⟩
  · cases h

theorem step_busOff (h : step pbDecode cd s .busOff = some t) :
    t = { s with canTx := { s.canTx with canTxMsgq := Fifo.empty } } :=
  (Option.some.inj h).symm

theorem step_txGet {frame : CanFrame} (h : step pbDecode cd s (.tx (.get frame)) = some t) :
    ∃ q u, s.canTx.canTxMsgq.get = some (frame, q) ∧ s.txThread.step (.get frame) = some u ∧
      t = { s with txThread := u, canTx := { s.canTx with canTxMsgq := q } } := by
  simp only [step, stepTx] at h
  split at h
  · cases h
  · rename_i f q hq
    split at h
    · rename_i hf
      obtain ⟨u, hu, rfl⟩ := Option.map_eq_some_iff.mp h
      exact ⟨q, u, hf ▸ hq, hu, rfl⟩
    · cases h

/-- the other steps of the TX thread and of the callback leave the rest alone -/
theorem step_tx {e : TxEv CanFrame} (he : ∀ frame, e ≠ .get frame)
    (h : step pbDecode cd s (.tx e) = some t) :
    ∃ u, s.txThread.step e = some u ∧ t = { s with txThread := u } := by
  cases e with
  | get frame => exact absurd rfl (he frame)
  | _ =>
    obtain ⟨u, hu, rfl⟩ := Option.map_eq_some_iff.mp h
    exact ⟨u, hu, rfl⟩

/-- a step of the TX thread or of the callback, whatever it does to the queue -/
theorem step_tx_some {e : TxEv CanFrame} (h : step pbDecode cd s (.tx e) = some t) :
    ∃ q u, s.txThread.step e = some u ∧
      t = { s with txThread := u, canTx := { s.canTx with canTxMsgq := q } } := by
  by_cases he : ∃ frame, e = .get frame
  · obtain ⟨frame, rfl⟩ := he
    obtain ⟨q, u, _, hu, rfl⟩ := step_txGet h
    exact ⟨q, u, hu, rfl⟩
  · obtain ⟨u, hu, rfl⟩ := step_tx (fun frame hf => he ⟨frame, hf⟩) h
    exact ⟨s.canTx.canTxMsgq, u, hu, rfl⟩

/-- no step of the TX thread or of the callback touches the other threads -/
theorem step_tx_kept {e : TxEv CanFrame} (h : step pbDecode cd s (.tx e) = some t) :
    t.rs485 = s.rs485 ∧ t.periodic = s.periodic ∧ t.button = s.button ∧
      t.canDfuIsActive = s.canDfuIsActive := by
  obtain ⟨_, _, _, rfl⟩ := step_tx_some h
  exact ⟨rfl, rfl, rfl, rfl⟩

/-! ## what a step leaves alone -/

theorem doAct_rs485 (cd : Candef) (s : Sys) (a : Act) : (s.doAct cd a).rs485 = s.rs485 := by
  cases a <;> rfl

theorem doAct_txThread (cd : Candef) (s : Sys) (a : Act) :
    (s.doAct cd a).txThread = s.txThread := by
  cases a <;> rfl

theorem doAct_button (cd : Candef) (s : Sys) (a : Act) : (s.doAct cd a).button = s.button := by
  cases a <;> rfl

theorem doAct_dfu (cd : Candef) (s : Sys) (a : Act) :
    (s.doAct cd a).canDfuIsActive = s.canDfuIsActive := by
  cases a <;> rfl

theorem doAct_cnt (cd : Candef) (s : Sys) (a : Act) :
    (s.doAct cd a).periodic.cnt = s.periodic.cnt := by
  cases a <;> rfl

/-- every thread writes only its own part of the state; all of them reach the queue -/
structure Kept (e : Ev) (s t : Sys) : Prop where
  rs485 : e.thread ≠ .parser → t.rs485 = s.rs485
  periodic : e.thread ≠ .periodic → t.periodic = s.periodic
  button : e.thread ≠ .button → t.button = s.button
  dfu : e.thread ≠ .dfu → t.canDfuIsActive = s.canDfuIsActive
  txThread : e.thread ≠ .tx → t.txThread = s.txThread

theorem kept_set {e : Ev} (he : e.thread = .periodic) (s : Sys) (c : Counters) (pc : PeriodicPc) :
    Kept e s ((s.setCnt c).setPc pc) :=
  ⟨fun _ => rfl, fun h => absurd he h, fun _ => rfl, fun _ => rfl, fun _ => rfl⟩

theorem step_kept {e : Ev} (h : step pbDecode cd s e = some t) : Kept e s t := by
  cases e with
  | received b =>
    rw [step_received h]
    exact ⟨fun he => absurd rfl he, fun _ => rfl, fun _ => rfl, fun _ => rfl, fun _ => rfl⟩
  | wake =>
    obtain ⟨_, ⟨_, rfl⟩ | ⟨_, rfl⟩⟩ := step_wake h
    · exact kept_set rfl s _ _
    · exact kept_set rfl s s.periodic.cnt _
  | snapshot =>
    obtain ⟨_, rfl⟩ := step_snapshot h
    exact kept_set rfl s _ _
  | act =>
    obtain ⟨a, _, _, rfl⟩ := step_act h
    refine ⟨fun _ => ?_, fun he => absurd rfl he, fun _ => ?_, fun _ => ?_, fun _ => ?_⟩
    · rw [rs485_setPc, doAct_rs485]
    · rw [button_setPc, doAct_button]
    · rw [dfu_setPc, doAct_dfu]
    · rw [txThread_setPc, doAct_txThread]
  | sleep =>
    obtain ⟨_, rfl⟩ := step_sleep h
    exact kept_set rfl s s.periodic.cnt _
  | press =>
    obtain ⟨_, rfl⟩ := step_press h
    exact ⟨fun _ => rfl, fun _ => rfl, fun he => absurd rfl he, fun _ => rfl, fun _ => rfl⟩
  | buttonSend =>
    obtain ⟨_, _, _, rfl⟩ := step_buttonSend h
    exact ⟨fun _ => rfl, fun _ => rfl, fun he => absurd rfl he, fun _ => rfl, fun _ => rfl⟩
  | buttonDone =>
    obtain ⟨_, rfl⟩ := step_buttonDone h
    exact ⟨fun _ => rfl, fun _ => rfl, fun he => absurd rfl he, fun _ => rfl, fun _ => rfl⟩
  | dfuStart =>
    obtain ⟨_, rfl⟩ := step_dfuStart h
    exact ⟨fun _ => rfl, fun _ => rfl, fun _ => rfl, fun he => absurd rfl he, fun _ => rfl⟩
  | dfuEnd =>
    obtain ⟨_, rfl⟩ := step_dfuEnd h
    exact ⟨fun _ => rfl, fun _ => rfl, fun _ => rfl, fun he => absurd rfl he, fun _ => rfl⟩
  | tx e =>
    obtain ⟨h1, h2, h3, h4⟩ := step_tx_kept h
    exact ⟨fun _ => h1, fun _ => h2, fun _ => h3, fun _ => h4, fun he => absurd rfl he⟩
  | busOff =>
    rw [step_busOff h]
    exact ⟨fun _ => rfl, fun _ => rfl, fun _ => rfl, fun _ => rfl, fun _ => rfl⟩

/-! ## invariants of one thread -/

theorem step_cnt_ok {e : Ev} (hs : s.periodic.cnt.Ok) (h : step pbDecode cd s e = some t) :
    t.periodic.cnt.Ok := by
  by_cases he : e.thread = .periodic
  · cases e with
    | wake =>
      obtain ⟨_, ⟨_, rfl⟩ | ⟨_, rfl⟩⟩ := step_wake h
      · rw [cnt_setPc, cnt_setCnt, (dfuBody_is hs).cnt]
        exact hs.dfu
      · exact hs
    | snapshot =>
      obtain ⟨_, rfl⟩ := step_snapshot h
      rw [cnt_setPc, cnt_setCnt, (loopBody_is _ hs).cnt]
      exact hs.next
    | act =>
      obtain ⟨a, _, _, rfl⟩ := step_act h
      rw [cnt_setPc, doAct_cnt]
      exact hs
    | sleep =>
      obtain ⟨_, rfl⟩ := step_sleep h
      exact hs
    | _ => cases he
  · rw [(step_kept h).periodic he]
    exact hs

theorem step_flags {e : Ev} (h : step pbDecode cd s e = some t) :
    s.rs485.data.FlagsLe t.rs485.data := by
  by_cases he : e.thread = .parser
  · cases e with
    | received b =>
      rw [step_received h]
      exact onFrame_valid pbDecode b s.rs485
    | _ => cases he
  · rw [(step_kept h).rs485 he]
    exact MasterData.FlagsLe.refl _

end

end Sys

end CCU
