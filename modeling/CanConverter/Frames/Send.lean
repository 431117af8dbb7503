import CanConverter.Lib.Fifo
import CanConverter.Frames.Candef

/-!
# The senders of can_converter_frames.c

Each sender fills a candef struct, packs it, enqueues the frame without waiting and counts the
call.  `packAndEnqueue` is the macro of that name with the counter the sender increments after it;
every sender is its own struct initializer handed to it.

* `enqueueFrame`   drops a frame that is too long for its `data` and, with a warning, one the full
                   queue refuses;
* `Call`           a sender with its argument, as one atomic step of the thread that calls it;
* `Call.exec_eq`   what every call does to the queue, in terms of the frame it builds.
-/

namespace CCU

/-- `struct can_frame`; the driver's classic frame has eight data bytes -/
structure CanFrame where
  id : UInt32
  dlc : Nat
  flags : UInt8
  data : Vector UInt8 8
deriving DecidableEq

/-- `CAN_FRAME_IDE`: the identifier is an extended one -/
def canFrameIde : UInt8 := 1

/-- the depth of `can_tx_msgq` -/
def canTxMsgqLen : Nat := 32

/-- the fields of `ccu_frame_counts_t` -/
inductive Field where
  | mcuAnalogSpeed | mcuAnalogPedals | mcuAnalogPowertrain | mcuAnalogFuelCell
  | mcuAnalogAccessory | mcuAnalogUnassigned | mcuInputs | mcuState | mcuFaults | mcuTimeSync
  | protiumState | protiumPower | protiumThermal | protiumHydrogen | protiumSetpoints
  | protiumStasis | protiumMisc
deriving DecidableEq

/-- what the senders write: the queue to the TX thread, `frame_counts`, and how often
"CAN TX queue full" was logged -/
structure CanTx where
  canTxMsgq : Fifo CanFrame canTxMsgqLen := Fifo.empty
  frameCounts : Field → UInt32 := fun _ => 0
  queueFull : Nat := 0

/-- the frame `enqueue_frame` fills in, unless the length guard rejects it -/
def fillFrame (id : UInt32) (data : List UInt8) (len : Nat) : Option CanFrame :=
  if len > 8 then none
  else some
    { id := id, dlc := len, flags := canFrameIde
      data := Vector.ofFn fun i : Fin 8 => if i.val < len then data.getD i.val 0 else 0 }

/-- `k_msgq_put` with `K_NO_WAIT`, as `enqueue_frame` calls it -/
def CanTx.putFrame (frame : CanFrame) (tx : CanTx) : CanTx :=
  match tx.canTxMsgq.put frame with
  | some q => { tx with canTxMsgq := q }
  | none => { tx with queueFull := tx.queueFull + 1 } -- "CAN TX queue full"

def enqueueFrame (id : UInt32) (data : List UInt8) (len : Nat) (tx : CanTx) : CanTx :=
  match fillFrame id data len with
  | none => tx
  | some frame => tx.putFrame frame

/-- the frame of a message; the length argument of `enqueue_frame` is a `uint8_t` -/
def CandefMsg.frame {S : Type} (msg : CandefMsg S) (signals : S) : Option CanFrame :=
  fillFrame msg.frameId (msg.pack signals).toList (msg.length % 2 ^ 8)

/-- `PACK_AND_ENQUEUE`, then `frame_counts.field++` -/
def packAndEnqueue {S : Type} (msg : CandefMsg S) (field : Field) (signals : S) (tx : CanTx) :
    CanTx :=
  let tx := enqueueFrame msg.frameId (msg.pack signals).toList (msg.length % 2 ^ 8) tx
  { tx with
    frameCounts := Function.update tx.frameCounts field (tx.frameCounts field + 1) }

section
variable (cd : Candef)

/-! ## MCU frame encoders -/

def mcuTimeSyncSignals (msTick cycleTick : UInt32) : McuTimeSync where
  timeMs := cd.mcuTimeSyncTimeMsEncode msTick
  clockCycles := cd.mcuTimeSyncClockCyclesEncode cycleTick

def sendMcuTimeSync (msTick cycleTick : UInt32) : CanTx → CanTx :=
  packAndEnqueue cd.mcuTimeSync .mcuTimeSync (mcuTimeSyncSignals cd msTick cycleTick)

def mcuStateSignals (s : MasterStatus) : McuState where
  status := cd.mcuStateStatusEncode s.state
  vehicleType := cd.mcuStateVehicleTypeEncode s.vehicleType
  vehicleAllowedToMove := cd.mcuStateVehicleAllowedToMoveEncode s.vehicleAllowedToMove
  motorControllerEnabled := cd.mcuStateMotorControllerEnabledEncode s.motorControllerEnabled
  mainValveEnabled := cd.mcuStateMainValveEnabledEncode s.mainValveEnabled

def sendMcuState (s : MasterStatus) : CanTx → CanTx :=
  packAndEnqueue cd.mcuState .mcuState (mcuStateSignals cd s)

def mcuInputsSignals (m : MasterMeasurements) : McuInputs where
  emergencySwitch := m.din.emergencySwitch
  deadMansSwitch := m.din.deadMansSwitch
  leakageDetected := m.din.leakageDetected
  shellRelay := m.din.shellRelay
  startButton := m.din.startButton
  resetButton := m.din.resetButton
  calibrationButton := m.din.calibrationButton
  gasPedal := m.din.gasPedal

def sendMcuInputs (m : MasterMeasurements) : CanTx → CanTx :=
  packAndEnqueue cd.mcuInputs .mcuInputs (mcuInputsSignals m)

/-- the mapping of the sixteen flags of the master onto the nineteen flags of the frame -/
def mcuFaultsSignals (f : MasterFaults) : McuFaults where
  emergencySwitch := f.emgEmergencySwitch
  emergencyDeadMansSwitch := f.emgDeadMansSwitch
  emergencyLeakageDetected := f.emgLeakageSensorSwitch
  errorFcVLow := f.errFuelCellOutputVoltage
  errorFcVHigh := f.errFuelCellOutputVoltage
  errorFcCLow := f.errFuelCellOutputCurrent
  errorFcCHigh := f.errFuelCellOutputCurrent
  errorScVLow := f.errSupercapacitorVoltage
  errorScVHigh := f.errSupercapacitorVoltage
  errorScCLow := f.errSupercapacitorCurrent
  errorScCHigh := f.errSupercapacitorCurrent
  errorMcVLow := f.errMotorControllerSupplyVoltage
  errorMcVHigh := f.errMotorControllerSupplyVoltage
  errorMcCLow := f.errMotorControllerSupplyCurrent
  errorMcCHigh := f.errMotorControllerSupplyCurrent
  errorAbVLow := f.errAccessoryBatteryVoltage
  errorAbVHigh := f.errAccessoryBatteryVoltage
  errorAbCLow := f.errAccessoryBatteryCurrent
  errorAbCHigh := f.errAccessoryBatteryCurrent

def sendMcuFaults (f : MasterFaults) : CanTx → CanTx :=
  packAndEnqueue cd.mcuFaults .mcuFaults (mcuFaultsSignals f)

def mcuAnalogDriveSignals (m : MasterMeasurements) : McuAnalogDrive where
  rpm := cd.mcuAnalogDriveRpmEncode m.rpm
  speed := cd.mcuAnalogDriveSpeedEncode m.speed

/-- the frame is called DRIVE, the counter SPEED -/
def sendMcuAnalogSpeed (m : MasterMeasurements) : CanTx → CanTx :=
  packAndEnqueue cd.mcuAnalogDrive .mcuAnalogSpeed (mcuAnalogDriveSignals cd m)

def mcuAnalogPedalsSignals (m : MasterMeasurements) : McuAnalogPedals where
  accelerationPedalVoltage := cd.mcuAnalogPedalsAccelerationPedalVoltageEncode m.accelPedalVoltage
  brakePedalVoltage := cd.mcuAnalogPedalsBrakePedalVoltageEncode m.brakePedalVoltage

def sendMcuAnalogPedals (m : MasterMeasurements) : CanTx → CanTx :=
  packAndEnqueue cd.mcuAnalogPedals .mcuAnalogPedals (mcuAnalogPedalsSignals cd m)

def mcuAnalogPowertrainSignals (m : MasterMeasurements) : McuAnalogPowertrain where
  supercapacitorVoltage := cd.mcuAnalogPowertrainSupercapacitorVoltageEncode m.supercapacitorVoltage
  supercapacitorCurrent := cd.mcuAnalogPowertrainSupercapacitorCurrentEncode m.supercapacitorCurrent
  motorControllerSupplyCurrent :=
    cd.mcuAnalogPowertrainMotorControllerSupplyCurrentEncode m.motorControllerSupplyCurrent
  motorControllerSupplyVoltage :=
    cd.mcuAnalogPowertrainMotorControllerSupplyVoltageEncode m.motorControllerSupplyVoltage

def sendMcuAnalogPowertrain (m : MasterMeasurements) : CanTx → CanTx :=
  packAndEnqueue cd.mcuAnalogPowertrain .mcuAnalogPowertrain (mcuAnalogPowertrainSignals cd m)

def mcuAnalogFuelCellSignals (m : MasterMeasurements) : McuAnalogFuelCell where
  fuelCellOutputCurrent := cd.mcuAnalogFuelCellFuelCellOutputCurrentEncode m.fuelCellOutputCurrent
  fuelCellOutputVoltage := cd.mcuAnalogFuelCellFuelCellOutputVoltageEncode m.fuelCellOutputVoltage
  hydrogenHighPressure := cd.mcuAnalogFuelCellHydrogenHighPressureEncode m.hydrogenHighPressure
  hydrogenLeakageSensorVoltage :=
    cd.mcuAnalogFuelCellHydrogenLeakageSensorVoltageEncode m.hydrogenLeakageSensorVoltage

def sendMcuAnalogFuelCell (m : MasterMeasurements) : CanTx → CanTx :=
  packAndEnqueue cd.mcuAnalogFuelCell .mcuAnalogFuelCell (mcuAnalogFuelCellSignals cd m)

def mcuAnalogAccessorySignals (m : MasterMeasurements) : McuAnalogAccessory where
  accessoryBatteryCurrent :=
    cd.mcuAnalogAccessoryAccessoryBatteryCurrentEncode m.accessoryBatteryCurrent
  accessoryBatteryVoltage :=
    cd.mcuAnalogAccessoryAccessoryBatteryVoltageEncode m.accessoryBatteryVoltage

def sendMcuAnalogAccessory (m : MasterMeasurements) : CanTx → CanTx :=
  packAndEnqueue cd.mcuAnalogAccessory .mcuAnalogAccessory (mcuAnalogAccessorySignals cd m)

def mcuAnalogUnassignedSignals (m : MasterMeasurements) : McuAnalogUnassigned where
  ai1 := cd.mcuAnalogUnassignedAi1Encode m.ai1
  ai3 := cd.mcuAnalogUnassignedAi3Encode m.ai3
  ai4 := cd.mcuAnalogUnassignedAi4Encode m.ai4
  ai5 := cd.mcuAnalogUnassignedAi5Encode m.ai5

def sendMcuAnalogUnassigned (m : MasterMeasurements) : CanTx → CanTx :=
  packAndEnqueue cd.mcuAnalogUnassigned .mcuAnalogUnassigned (mcuAnalogUnassignedSignals cd m)

/-! ## Protium frame encoders -/

def protiumStateSignals (operatingState : ProtiumOperatingState) : ProtiumState where
  operatingState := cd.protiumStateOperatingStateEncode operatingState

def sendProtiumState (operatingState : ProtiumOperatingState) : CanTx → CanTx :=
  packAndEnqueue cd.protiumState .protiumState (protiumStateSignals cd operatingState)

def protiumPowerSignals (v : ProtiumValues) : ProtiumPower where
  fcV := cd.protiumPowerFcVEncode v.fcV
  fcA := cd.protiumPowerFcAEncode v.fcA
  fcW := cd.protiumPowerFcWEncode v.fcW
  energy := cd.protiumPowerEnergyEncode v.energy

def sendProtiumPower (v : ProtiumValues) : CanTx → CanTx :=
  packAndEnqueue cd.protiumPower .protiumPower (protiumPowerSignals cd v)

def protiumThermalSignals (v : ProtiumValues) : ProtiumThermal where
  fct1 := cd.protiumThermalFct1Encode v.fct1
  fct2 := cd.protiumThermalFct2Encode v.fct2
  fan := cd.protiumThermalFanEncode v.fan
  blw := cd.protiumThermalBlwEncode v.blw

def sendProtiumThermal (v : ProtiumValues) : CanTx → CanTx :=
  packAndEnqueue cd.protiumThermal .protiumThermal (protiumThermalSignals cd v)

def protiumHydrogenSignals (v : ProtiumValues) : ProtiumHydrogen where
  h2P1 := cd.protiumHydrogenH2P1Encode v.h2p1
  h2P2 := cd.protiumHydrogenH2P2Encode v.h2p2
  tankP := cd.protiumHydrogenTankPEncode v.tankP
  tankT := cd.protiumHydrogenTankTEncode v.tankT

def sendProtiumHydrogen (v : ProtiumValues) : CanTx → CanTx :=
  packAndEnqueue cd.protiumHydrogen .protiumHydrogen (protiumHydrogenSignals cd v)

def protiumSetpointsSignals (v : ProtiumValues) : ProtiumSetpoints where
  vSet := cd.protiumSetpointsVSetEncode v.vSet
  iSet := cd.protiumSetpointsISetEncode v.iSet
  ucbV := cd.protiumSetpointsUcbVEncode v.ucbV
  numberOfCells := cd.protiumSetpointsNumberOfCellsEncode v.numberOfCell

def sendProtiumSetpoints (v : ProtiumValues) : CanTx → CanTx :=
  packAndEnqueue cd.protiumSetpoints .protiumSetpoints (protiumSetpointsSignals cd v)

def protiumStasisSignals (v : ProtiumValues) : ProtiumStasis where
  stasisSelector := cd.protiumStasisStasisSelectorEncode v.stasisSelector
  stasisV1 := cd.protiumStasisStasisV1Encode v.stasisV1
  stasisV2 := cd.protiumStasisStasisV2Encode v.stasisV2
  battV := cd.protiumStasisBattVEncode v.battV

def sendProtiumStasis (v : ProtiumValues) : CanTx → CanTx :=
  packAndEnqueue cd.protiumStasis .protiumStasis (protiumStasisSignals cd v)

def protiumMiscSignals (v : ProtiumValues) : ProtiumMisc where
  ip := cd.protiumMiscIpEncode v.ip
  tp := cd.protiumMiscTpEncode v.tp

def sendProtiumMisc (v : ProtiumValues) : CanTx → CanTx :=
  packAndEnqueue cd.protiumMisc .protiumMisc (protiumMiscSignals cd v)

end

/-! ## a call of a sender -/

/-- a sender and its argument -/
inductive Call where
  | sendMcuTimeSync (msTick cycleTick : UInt32)
  | sendMcuState (s : MasterStatus)
  | sendMcuInputs (m : MasterMeasurements)
  | sendMcuFaults (f : MasterFaults)
  | sendMcuAnalogSpeed (m : MasterMeasurements)
  | sendMcuAnalogPedals (m : MasterMeasurements)
  | sendMcuAnalogPowertrain (m : MasterMeasurements)
  | sendMcuAnalogFuelCell (m : MasterMeasurements)
  | sendMcuAnalogAccessory (m : MasterMeasurements)
  | sendMcuAnalogUnassigned (m : MasterMeasurements)
  | sendProtiumState (operatingState : ProtiumOperatingState)
  | sendProtiumPower (v : ProtiumValues)
  | sendProtiumThermal (v : ProtiumValues)
  | sendProtiumHydrogen (v : ProtiumValues)
  | sendProtiumSetpoints (v : ProtiumValues)
  | sendProtiumStasis (v : ProtiumValues)
  | sendProtiumMisc (v : ProtiumValues)
deriving DecidableEq

namespace Call

def exec (cd : Candef) : Call → CanTx → CanTx
  | .sendMcuTimeSync ms cyc => CCU.sendMcuTimeSync cd ms cyc
  | .sendMcuState s => CCU.sendMcuState cd s
  | .sendMcuInputs m => CCU.sendMcuInputs cd m
  | .sendMcuFaults f => CCU.sendMcuFaults cd f
  | .sendMcuAnalogSpeed m => CCU.sendMcuAnalogSpeed cd m
  | .sendMcuAnalogPedals m => CCU.sendMcuAnalogPedals cd m
  | .sendMcuAnalogPowertrain m => CCU.sendMcuAnalogPowertrain cd m
  | .sendMcuAnalogFuelCell m => CCU.sendMcuAnalogFuelCell cd m
  | .sendMcuAnalogAccessory m => CCU.sendMcuAnalogAccessory cd m
  | .sendMcuAnalogUnassigned m => CCU.sendMcuAnalogUnassigned cd m
  | .sendProtiumState o => CCU.sendProtiumState cd o
  | .sendProtiumPower v => CCU.sendProtiumPower cd v
  | .sendProtiumThermal v => CCU.sendProtiumThermal cd v
  | .sendProtiumHydrogen v => CCU.sendProtiumHydrogen cd v
  | .sendProtiumSetpoints v => CCU.sendProtiumSetpoints cd v
  | .sendProtiumStasis v => CCU.sendProtiumStasis cd v
  | .sendProtiumMisc v => CCU.sendProtiumMisc cd v

/-- the field of `frame_counts` the sender increments -/
def field : Call → Field
  | .sendMcuTimeSync _ _ => .mcuTimeSync
  | .sendMcuState _ => .mcuState
  | .sendMcuInputs _ => .mcuInputs
  | .sendMcuFaults _ => .mcuFaults
  | .sendMcuAnalogSpeed _ => .mcuAnalogSpeed
  | .sendMcuAnalogPedals _ => .mcuAnalogPedals
  | .sendMcuAnalogPowertrain _ => .mcuAnalogPowertrain
  | .sendMcuAnalogFuelCell _ => .mcuAnalogFuelCell
  | .sendMcuAnalogAccessory _ => .mcuAnalogAccessory
  | .sendMcuAnalogUnassigned _ => .mcuAnalogUnassigned
  | .sendProtiumState _ => .protiumState
  | .sendProtiumPower _ => .protiumPower
  | .sendProtiumThermal _ => .protiumThermal
  | .sendProtiumHydrogen _ => .protiumHydrogen
  | .sendProtiumSetpoints _ => .protiumSetpoints
  | .sendProtiumStasis _ => .protiumStasis
  | .sendProtiumMisc _ => .protiumMisc

/-- the frame the sender hands to the queue, if its length fits -/
def frame (cd : Candef) : Call → Option CanFrame
  | .sendMcuTimeSync ms cyc => cd.mcuTimeSync.frame (mcuTimeSyncSignals cd ms cyc)
  | .sendMcuState s => cd.mcuState.frame (mcuStateSignals cd s)
  | .sendMcuInputs m => cd.mcuInputs.frame (mcuInputsSignals m)
  | .sendMcuFaults f => cd.mcuFaults.frame (mcuFaultsSignals f)
  | .sendMcuAnalogSpeed m => cd.mcuAnalogDrive.frame (mcuAnalogDriveSignals cd m)
  | .sendMcuAnalogPedals m => cd.mcuAnalogPedals.frame (mcuAnalogPedalsSignals cd m)
  | .sendMcuAnalogPowertrain m => cd.mcuAnalogPowertrain.frame (mcuAnalogPowertrainSignals cd m)
  | .sendMcuAnalogFuelCell m => cd.mcuAnalogFuelCell.frame (mcuAnalogFuelCellSignals cd m)
  | .sendMcuAnalogAccessory m => cd.mcuAnalogAccessory.frame (mcuAnalogAccessorySignals cd m)
  | .sendMcuAnalogUnassigned m => cd.mcuAnalogUnassigned.frame (mcuAnalogUnassignedSignals cd m)
  | .sendProtiumState o => cd.protiumState.frame (protiumStateSignals cd o)
  | .sendProtiumPower v => cd.protiumPower.frame (protiumPowerSignals cd v)
  | .sendProtiumThermal v => cd.protiumThermal.frame (protiumThermalSignals cd v)
  | .sendProtiumHydrogen v => cd.protiumHydrogen.frame (protiumHydrogenSignals cd v)
  | .sendProtiumSetpoints v => cd.protiumSetpoints.frame (protiumSetpointsSignals cd v)
  | .sendProtiumStasis v => cd.protiumStasis.frame (protiumStasisSignals cd v)
  | .sendProtiumMisc v => cd.protiumMisc.frame (protiumMiscSignals cd v)

end Call

/-! ## what a call does to the queue -/

theorem CanTx.putFrame_frameCounts (frame : CanFrame) (tx : CanTx) :
    (tx.putFrame frame).frameCounts = tx.frameCounts := by
  unfold CanTx.putFrame
  split <;> rfl

theorem packAndEnqueue_eq {S : Type} (msg : CandefMsg S) (field : Field) (signals : S)
    (tx : CanTx) :
    packAndEnqueue msg field signals tx =
      { (msg.frame signals).elim tx fun f => tx.putFrame f with
        frameCounts := Function.update tx.frameCounts field (tx.frameCounts field + 1) } := by
  unfold packAndEnqueue enqueueFrame CandefMsg.frame
  cases fillFrame msg.frameId (msg.pack signals).toList (msg.length % 2 ^ 8) with
  | none => rfl
  | some f =>
    simp only [CanTx.putFrame_frameCounts]
    rfl

/-- **every call puts at most its own frame and counts itself, whatever became of the frame** -/
theorem Call.exec_eq (cd : Candef) (c : Call) (tx : CanTx) :
    c.exec cd tx =
      { (c.frame cd).elim tx fun f => tx.putFrame f with
        frameCounts := Function.update tx.frameCounts c.field (tx.frameCounts c.field + 1) } := by
  cases c <;> exact packAndEnqueue_eq _ _ _ _

theorem Call.exec_length (cd : Candef) (c : Call) (tx : CanTx) :
    (c.exec cd tx).canTxMsgq.length ≤ tx.canTxMsgq.length + 1 := by
  rw [Call.exec_eq]
  show ((c.frame cd).elim tx fun f => tx.putFrame f).canTxMsgq.length ≤ _
  cases c.frame cd with
  | none => exact Nat.le_succ _
  | some f =>
    show (tx.putFrame f).canTxMsgq.length ≤ _
    unfold CanTx.putFrame
    split
    · rename_i q hq
      exact Nat.le_of_eq (Fifo.length_put hq)
    · exact Nat.le_succ _

theorem Call.exec_queueFull (cd : Candef) (c : Call) {tx : CanTx}
    (h : tx.canTxMsgq.length < canTxMsgqLen) : (c.exec cd tx).queueFull = tx.queueFull := by
  rw [Call.exec_eq]
  show ((c.frame cd).elim tx fun f => tx.putFrame f).queueFull = _
  cases c.frame cd with
  | none => rfl
  | some f =>
    show (tx.putFrame f).queueFull = _
    unfold CanTx.putFrame
    split
    · rfl
    · rename_i hq
      exact absurd (Fifo.put_none.mp hq) (Nat.not_le.mpr h)

/-- the frame of the call, if its `k_msgq_put` succeeds -/
def Call.enqueued (cd : Candef) (c : Call) (tx : CanTx) : Option CanFrame :=
  (c.frame cd).filter fun f => (tx.canTxMsgq.put f).isSome

/-- **what a call does to the queue is to append the frame that it enqueues** -/
theorem Call.exec_items (cd : Candef) (c : Call) (tx : CanTx) :
    (c.exec cd tx).canTxMsgq.items = tx.canTxMsgq.items ++ (c.enqueued cd tx).toList := by
  rw [Call.exec_eq, Call.enqueued]
  show ((c.frame cd).elim tx fun f => tx.putFrame f).canTxMsgq.items = _
  cases c.frame cd with
  | none => exact (List.append_nil _).symm
  | some f =>
    show (tx.putFrame f).canTxMsgq.items = _
    unfold CanTx.putFrame
    rw [Option.filter_some]
    split
    · rename_i q hq
      rw [hq, Option.isSome_some, if_pos rfl]
      exact (Fifo.put_some.mp hq).2
    · rename_i hq
      rw [hq, Option.isSome_none, if_neg Bool.false_ne_true]
      exact (List.append_nil _).symm

/-- a call enqueues its frame exactly if it has one and there is room -/
theorem Call.enqueued_isSome (cd : Candef) (c : Call) (tx : CanTx) :
    (c.enqueued cd tx).isSome = true ↔
      (c.frame cd).isSome = true ∧ tx.canTxMsgq.length < canTxMsgqLen := by
  unfold Call.enqueued
  cases c.frame cd with
  | none => simp
  | some f =>
    rw [Option.filter_some]
    cases hq : tx.canTxMsgq.put f with
    | none => simpa using Fifo.put_none.mp hq
    | some q => simpa using (Fifo.put_some.mp hq).1

end CCU
