import Mathlib.Order.Nat
import CanConverter.Lib.Roll
import CanConverter.Master.Store
import CanConverter.Frames.Send

/-!
# One pass of the loop of `ccu_can_periodic_thread`

A pass works on local variables only: the four `uint8_t` counters and the snapshot `d` of the
store.  What it does to the outside is a list of actions (`Act`): calls of senders and the single
reads of the statistics report.  So a pass is a function of the counters and the snapshot, and the
other threads can only step between the actions it leaves behind.

* `loopBody d c`       a pass with DFU inactive, block by block in the order of the source;
* `dfuBody c`          the early `continue` of a pass with DFU active;
* `Body.seen`          every value the counters take on the way.
-/

namespace CCU

/-- `cnt_100ms`, `cnt_1000ms`, `cnt_1s` and `cnt_unassign` -/
structure Counters where
  cnt100ms : Nat := 0
  cnt1000ms : Nat := 0
  cnt1s : Nat := 0
  cntUnassign : Nat := 0
deriving DecidableEq

/-- `++` on a `uint8_t` -/
def incU8 (n : Nat) : Nat := (n + 1) % 2 ^ 8

/-- one action of the periodic thread -/
inductive Act where
  | send (c : Call)
  | readRs485                    -- cur_rs485 = rs485_frames_received
  | readCanOk                    -- cur_can_ok = can_frames_tx_ok
  | logRates                     -- "1s stats": d_rs485, d_can_ok
  | logHz (f : Field)            -- HZ(field)
  | saveRates                    -- prev_rs485_rx = cur_rs485, prev_can_tx_ok = cur_can_ok
  | saveFrames (f : Field)       -- one field of prev_frames = frame_counts
deriving DecidableEq

/-- the local state of a pass: the counters, the values they took, the actions so far -/
structure Body where
  cnt : Counters
  seen : List Counters := []
  acts : List Act := []
deriving DecidableEq

def Body.set (b : Body) (c : Counters) : Body := { b with cnt := c, seen := b.seen ++ [c] }
def Body.act (b : Body) (l : List Act) : Body := { b with acts := b.acts ++ l }

@[simp] theorem Body.cnt_set (b : Body) (c : Counters) : (b.set c).cnt = c := rfl
@[simp] theorem Body.cnt_act (b : Body) (l : List Act) : (b.act l).cnt = b.cnt := rfl

/-! ## the blocks of the loop body -/

def sends (l : List Call) : List Act := l.map Act.send

/-- 10 ms: state machine and faults -/
def group100Hz (d : MasterData) : List Call :=
  (if d.masterStatusValid then [.sendMcuState d.masterStatus] else []) ++
  (if d.masterFaultsValid then [.sendMcuFaults d.masterFaults] else [])

/-- 100 ms: speed and powertrain analog -/
def group10Hz (d : MasterData) : List Call :=
  if d.masterMeasurementsValid then
    [.sendMcuAnalogSpeed d.masterMeasurements, .sendMcuAnalogPowertrain d.masterMeasurements,
      .sendMcuAnalogFuelCell d.masterMeasurements, .sendMcuAnalogAccessory d.masterMeasurements]
  else []

/-- 1000 ms: slow analog, digital inputs and Protium -/
def group1Hz (d : MasterData) : List Call :=
  (if d.masterMeasurementsValid then
    [.sendMcuAnalogPedals d.masterMeasurements, .sendMcuInputs d.masterMeasurements] else []) ++
  (if d.protiumOperatingStateValid then [.sendProtiumState d.protiumOperatingState] else []) ++
  (if d.protiumValuesValid then
    [.sendProtiumPower d.protiumValues, .sendProtiumThermal d.protiumValues,
      .sendProtiumHydrogen d.protiumValues, .sendProtiumSetpoints d.protiumValues,
      .sendProtiumStasis d.protiumValues, .sendProtiumMisc d.protiumValues] else [])

/-- 10 s: unassigned analog inputs -/
def groupUnassigned (d : MasterData) : List Call :=
  if d.masterMeasurementsValid then [.sendMcuAnalogUnassigned d.masterMeasurements] else []

/-- the fields the report prints, in its order -/
def hzFields : List Field :=
  [.mcuState, .mcuFaults, .mcuAnalogSpeed, .mcuAnalogPowertrain, .mcuAnalogFuelCell,
    .mcuAnalogAccessory, .mcuAnalogPedals, .mcuInputs, .protiumState, .protiumPower,
    .protiumThermal, .protiumHydrogen, .protiumSetpoints, .protiumStasis, .protiumMisc]

/-- the fields of `ccu_frame_counts_t`, in its order -/
def allFields : List Field :=
  [.mcuAnalogSpeed, .mcuAnalogPedals, .mcuAnalogPowertrain, .mcuAnalogFuelCell,
    .mcuAnalogAccessory, .mcuAnalogUnassigned, .mcuInputs, .mcuState, .mcuFaults, .mcuTimeSync,
    .protiumState, .protiumPower, .protiumThermal, .protiumHydrogen, .protiumSetpoints,
    .protiumStasis, .protiumMisc]

/-- the statistics report: sample, print, move the baselines -/
def statsReport : List Act :=
  [.readRs485, .readCanOk, .logRates] ++ hzFields.map Act.logHz ++
    [.saveRates] ++ allFields.map Act.saveFrames

/-- `cnt_100ms++; cnt_1000ms++` -/
def countTicks (b : Body) : Body :=
  let b := b.set { b.cnt with cnt100ms := incU8 b.cnt.cnt100ms }
  b.set { b.cnt with cnt1000ms := incU8 b.cnt.cnt1000ms }

def block100ms (d : MasterData) (b : Body) : Body :=
  if b.cnt.cnt100ms ≥ 10 then
    (b.set { b.cnt with cnt100ms := 0 }).act (sends (group10Hz d))
  else b

def block1000ms (d : MasterData) (b : Body) : Body :=
  if b.cnt.cnt1000ms ≥ 100 then
    (b.set { b.cnt with cnt1000ms := 0 }).act (sends (group1Hz d))
  else b

def blockUnassign (d : MasterData) (b : Body) : Body :=
  let b := b.set { b.cnt with cntUnassign := incU8 b.cnt.cntUnassign }
  if b.cnt.cntUnassign ≥ 10 then
    (b.set { b.cnt with cntUnassign := 0 }).act (sends (groupUnassigned d))
  else b

def block1s (d : MasterData) (b : Body) : Body :=
  let b := b.set { b.cnt with cnt1s := incU8 b.cnt.cnt1s }
  if b.cnt.cnt1s ≥ 100 then
    (blockUnassign d (b.set { b.cnt with cnt1s := 0 })).act statsReport
  else b

/-- a pass with DFU inactive, after the snapshot `d` was taken -/
def loopBody (d : MasterData) (c : Counters) : Body :=
  block1s d (block1000ms d (block100ms d (countTicks
    (Body.act { cnt := c } (sends (group100Hz d))))))

/-- a pass with DFU active: two counters start over, nothing is sent -/
def dfuBody (c : Counters) : Body :=
  let b : Body := { cnt := c }
  let b := b.set { b.cnt with cnt100ms := 0 }
  b.set { b.cnt with cnt1000ms := 0 }

/-- one wakeup: what `can_dfu_is_active()` returned, and the snapshot taken if it was false -/
def wakeup (dfu : Bool) (d : MasterData) (c : Counters) : Body :=
  if dfu then dfuBody c else loopBody d c

/-! ## a pass in closed form -/

/-- the counters between two passes are below the values that make them roll over -/
structure Counters.Ok (c : Counters) : Prop where
  cnt100ms : c.cnt100ms < 10
  cnt1000ms : c.cnt1000ms < 100
  cnt1s : c.cnt1s < 100
  cntUnassign : c.cntUnassign < 10

/-- the bounds the counters keep at every moment -/
structure Counters.Within (c : Counters) : Prop where
  cnt100ms : c.cnt100ms ≤ 10
  cnt1000ms : c.cnt1000ms ≤ 100
  cnt1s : c.cnt1s ≤ 100
  cntUnassign : c.cntUnassign ≤ 10

theorem Counters.ok_init : ({} : Counters).Ok :=
  ⟨Nat.zero_lt_succ 9, Nat.zero_lt_succ 99, Nat.zero_lt_succ 99, Nat.zero_lt_succ 9⟩

/-- the counters after a pass with DFU inactive -/
def Counters.next (c : Counters) : Counters where
  cnt100ms := roll 10 c.cnt100ms
  cnt1000ms := roll 100 c.cnt1000ms
  cnt1s := roll 100 c.cnt1s
  cntUnassign := if c.cnt1s + 1 = 100 then roll 10 c.cntUnassign else c.cntUnassign

/-- the counters after a pass with DFU active -/
def Counters.dfu (c : Counters) : Counters := { c with cnt100ms := 0, cnt1000ms := 0 }

theorem Counters.Ok.next {c : Counters} (h : c.Ok) : c.next.Ok := by
  refine ⟨roll_lt h.cnt100ms, roll_lt h.cnt1000ms, roll_lt h.cnt1s, ?_⟩
  show (if c.cnt1s + 1 = 100 then roll 10 c.cntUnassign else c.cntUnassign) < 10
  split
  · exact roll_lt h.cntUnassign
  · exact h.cntUnassign

theorem Counters.Ok.dfu {c : Counters} (h : c.Ok) : c.dfu.Ok :=
  ⟨Nat.zero_lt_succ _, Nat.zero_lt_succ _, h.cnt1s, h.cntUnassign⟩

/-- the actions of a pass that starts with the counters `c` -/
def loopActs (d : MasterData) (c : Counters) : List Act :=
  sends (group100Hz d) ++
  (if c.cnt100ms + 1 = 10 then sends (group10Hz d) else []) ++
  (if c.cnt1000ms + 1 = 100 then sends (group1Hz d) else []) ++
  (if c.cnt1s + 1 = 100 then
    (if c.cntUnassign + 1 = 10 then sends (groupUnassigned d) else []) ++ statsReport else [])

theorem incU8_eq {n : Nat} (h : n < 255) : incU8 n = n + 1 := Nat.mod_eq_of_lt (by omega)

/-- what a block does when it runs with the counters `cnt` and the actions `acts` so far -/
structure Body.Is (b : Body) (cnt : Counters) (acts : List Act) : Prop where
  cnt : b.cnt = cnt
  acts : b.acts = acts
  seen : ∀ c ∈ b.seen, c.Within

theorem Body.Is.set {b : Body} {cnt cnt' : Counters} {acts : List Act} (h : b.Is cnt acts)
    (hw : cnt'.Within) : (b.set cnt').Is cnt' acts := by
  refine ⟨rfl, h.acts, ?_⟩
  intro c hc
  rcases List.mem_append.mp hc with hc | hc
  · exact h.seen c hc
  · rw [List.mem_singleton.mp hc]
    exact hw

theorem Body.Is.act {b : Body} {cnt : Counters} {acts : List Act} (h : b.Is cnt acts)
    (l : List Act) : (b.act l).Is cnt (acts ++ l) :=
  ⟨h.cnt, congrArg (· ++ l) h.acts, h.seen⟩

section
variable {b : Body} {c : Counters} {acts : List Act}

theorem countTicks_is (h : b.Is c acts) (hc : c.Ok) :
    (countTicks b).Is { c with cnt100ms := c.cnt100ms + 1, cnt1000ms := c.cnt1000ms + 1 } acts := by
  obtain ⟨h1, h2, h3, h4⟩ := hc
  have e1 := incU8_eq (show c.cnt100ms < 255 by omega)
  have e2 := incU8_eq (show c.cnt1000ms < 255 by omega)
  have hs : (b.set { c with cnt100ms := c.cnt100ms + 1 }).Is
      { c with cnt100ms := c.cnt100ms + 1 } acts := h.set ⟨h1, h2.le, h3.le, h4.le⟩
  unfold countTicks
  simp only [h.cnt, e1, e2, Body.cnt_set]
  exact hs.set ⟨h1, h2, h3.le, h4.le⟩

theorem block100ms_is (d : MasterData) (h : b.Is c acts) (hc : c.Within) :
    (block100ms d b).Is
      { c with cnt100ms := if c.cnt100ms ≥ 10 then 0 else c.cnt100ms }
      (acts ++ if c.cnt100ms ≥ 10 then sends (group10Hz d) else []) := by
  unfold block100ms
  rw [h.cnt]
  split
  · have hs : (b.set { c with cnt100ms := 0 }).Is { c with cnt100ms := 0 } acts :=
      h.set ⟨Nat.zero_le _, hc.cnt1000ms, hc.cnt1s, hc.cntUnassign⟩
    exact hs.act _
  · rw [List.append_nil]
    exact h

theorem block1000ms_is (d : MasterData) (h : b.Is c acts) (hc : c.Within) :
    (block1000ms d b).Is
      { c with cnt1000ms := if c.cnt1000ms ≥ 100 then 0 else c.cnt1000ms }
      (acts ++ if c.cnt1000ms ≥ 100 then sends (group1Hz d) else []) := by
  unfold block1000ms
  rw [h.cnt]
  split
  · have hs : (b.set { c with cnt1000ms := 0 }).Is { c with cnt1000ms := 0 } acts :=
      h.set ⟨hc.cnt100ms, Nat.zero_le _, hc.cnt1s, hc.cntUnassign⟩
    exact hs.act _
  · rw [List.append_nil]
    exact h

theorem blockUnassign_is (d : MasterData) (h : b.Is c acts) (hc : c.Ok) :
    (blockUnassign d b).Is { c with cntUnassign := roll 10 c.cntUnassign }
      (acts ++ if c.cntUnassign + 1 = 10 then sends (groupUnassigned d) else []) := by
  obtain ⟨h1, h2, h3, h4⟩ := hc
  have e := incU8_eq (show c.cntUnassign < 255 by omega)
  have hs : (b.set { c with cntUnassign := c.cntUnassign + 1 }).Is
      { c with cntUnassign := c.cntUnassign + 1 } acts := h.set ⟨h1.le, h2.le, h3.le, h4⟩
  unfold blockUnassign
  simp only [h.cnt, e, Body.cnt_set]
  by_cases hr : c.cntUnassign + 1 = 10
  · have hz : ((b.set { c with cntUnassign := c.cntUnassign + 1 }).set
        { c with cntUnassign := 0 }).Is { c with cntUnassign := 0 } acts :=
      hs.set ⟨h1.le, h2.le, h3.le, Nat.zero_le _⟩
    rw [if_pos hr.ge, if_pos hr, roll, if_pos hr]
    exact hz.act _
  · rw [if_neg (show ¬ c.cntUnassign + 1 ≥ 10 by omega), if_neg hr, roll, if_neg hr,
      List.append_nil]
    exact hs

theorem block1s_is (d : MasterData) (h : b.Is c acts) (hc : c.Ok) :
    (block1s d b).Is
      { c with
        cnt1s := roll 100 c.cnt1s
        cntUnassign := if c.cnt1s + 1 = 100 then roll 10 c.cntUnassign else c.cntUnassign }
      (acts ++ if c.cnt1s + 1 = 100 then
        (if c.cntUnassign + 1 = 10 then sends (groupUnassigned d) else []) ++ statsReport
        else []) := by
  obtain ⟨h1, h2, h3, h4⟩ := hc
  have e := incU8_eq (show c.cnt1s < 255 by omega)
  have hs : (b.set { c with cnt1s := c.cnt1s + 1 }).Is { c with cnt1s := c.cnt1s + 1 } acts :=
    h.set ⟨h1.le, h2.le, h3, h4.le⟩
  unfold block1s
  simp only [h.cnt, e, Body.cnt_set]
  by_cases hr : c.cnt1s + 1 = 100
  · have hu : ((b.set { c with cnt1s := c.cnt1s + 1 }).set { c with cnt1s := 0 }).Is
        { c with cnt1s := 0 } acts := hs.set ⟨h1.le, h2.le, Nat.zero_le _, h4.le⟩
    have ho : { c with cnt1s := 0 : Counters }.Ok := ⟨h1, h2, Nat.zero_lt_succ _, h4⟩
    rw [if_pos hr.ge, if_pos hr, if_pos hr, roll, if_pos hr, ← List.append_assoc]
    exact (blockUnassign_is d hu ho).act _
  · rw [if_neg (show ¬ c.cnt1s + 1 ≥ 100 by omega), if_neg hr, if_neg hr, roll, if_neg hr,
      List.append_nil]
    exact hs

end

theorem Body.is_start (c : Counters) : Body.Is { cnt := c } c [] :=
  ⟨rfl, rfl, fun _ h => absurd h List.not_mem_nil⟩

/-- **a pass with DFU inactive in closed form**: its actions, the counters it leaves, and the
bounds they keep on the way -/
theorem loopBody_is (d : MasterData) {c : Counters} (hc : c.Ok) :
    (loopBody d c).Is c.next (loopActs d c) := by
  obtain ⟨h1, h2, h3, h4⟩ := hc
  have b1 := countTicks_is ((Body.is_start c).act (sends (group100Hz d))) ⟨h1, h2, h3, h4⟩
  have b2 := block100ms_is d b1 ⟨h1, h2, h3.le, h4.le⟩
  simp only [roll_of_ge h1] at b2
  have b3 := block1000ms_is d b2 ⟨(roll_lt h1).le, h2, h3.le, h4.le⟩
  simp only [roll_of_ge h2] at b3
  have b4 := block1s_is d b3 ⟨roll_lt h1, roll_lt h2, h3, h4⟩
  have g1 : c.cnt100ms + 1 ≥ 10 ↔ c.cnt100ms + 1 = 10 := by omega
  have g2 : c.cnt1000ms + 1 ≥ 100 ↔ c.cnt1000ms + 1 = 100 := by omega
  simp only [g1, g2, List.nil_append] at b4
  exact b4

theorem dfuBody_is {c : Counters} (hc : c.Ok) : (dfuBody c).Is c.dfu [] := by
  obtain ⟨h1, h2, h3, h4⟩ := hc
  have b1 : (Body.set { cnt := c } { c with cnt100ms := 0 }).Is { c with cnt100ms := 0 } [] :=
    (Body.is_start c).set ⟨Nat.zero_le _, h2.le, h3.le, h4.le⟩
  exact b1.set ⟨Nat.zero_le _, Nat.zero_le _, h3.le, h4.le⟩

end CCU
