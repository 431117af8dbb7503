import Mathlib.Tactic.Common

/-!
# The messages of master.proto

The structs nanopb generates, as far as the firmware reads them.  A C `float` is kept as its bit
pattern (`CFloat`): the firmware only hands floats on.  Enum fields are `Int`, since a proto3 enum
is open and its C type holds every number the wire carried.

The union of `MasterFrame` is its five members side by side (`Payload`): the code reads the one
that `which_payload` names, and what the others would show does not matter.
-/

namespace CCU

/-- a C `float`, as its bit pattern -/
abbrev CFloat := UInt32

structure DigitalInputs where
  gasPedal : Bool := false
  startButton : Bool := false
  deadMansSwitch : Bool := false
  emergencySwitch : Bool := false
  resetButton : Bool := false
  calibrationButton : Bool := false
  leakageDetected : Bool := false
  shellRelay : Bool := false
deriving DecidableEq

structure MasterMeasurements where
  ai1 : CFloat := 0
  supercapacitorCurrent : CFloat := 0
  ai3 : CFloat := 0
  ai4 : CFloat := 0
  ai5 : CFloat := 0
  accelPedalVoltage : CFloat := 0
  brakePedalVoltage : CFloat := 0
  accessoryBatteryCurrent : CFloat := 0
  hydrogenHighPressure : CFloat := 0
  hydrogenLeakageSensorVoltage : CFloat := 0
  fuelCellOutputCurrent : CFloat := 0
  motorControllerSupplyCurrent : CFloat := 0
  accessoryBatteryVoltage : CFloat := 0
  fuelCellOutputVoltage : CFloat := 0
  supercapacitorVoltage : CFloat := 0
  motorControllerSupplyVoltage : CFloat := 0
  din : DigitalInputs := {}
  rpm : CFloat := 0
  speed : CFloat := 0
deriving DecidableEq

structure MasterStatus where
  serialNumber : UInt32 := 0
  state : Int := 0
  vehicleType : Int := 0
  vehicleAllowedToMove : Bool := false
  mainValveEnabled : Bool := false
  motorControllerEnabled : Bool := false
  accelOutputVoltage : CFloat := 0
  brakeOutputVoltage : CFloat := 0
deriving DecidableEq

/-- the emergency flags (`emg`) and the sensor error flags (`err`) of the master -/
structure MasterFaults where
  emgEmergencySwitch : Bool := false
  emgDeadMansSwitch : Bool := false
  emgLeakageSensorSwitch : Bool := false
  emgHydrogenLeakageVoltage : Bool := false
  errFuelCellOutputVoltage : Bool := false
  errFuelCellOutputCurrent : Bool := false
  errSupercapacitorVoltage : Bool := false
  errSupercapacitorCurrent : Bool := false
  errMotorControllerSupplyVoltage : Bool := false
  errMotorControllerSupplyCurrent : Bool := false
  errAccessoryBatteryVoltage : Bool := false
  errAccessoryBatteryCurrent : Bool := false
  errAccelPedalVoltage : Bool := false
  errBrakePedalVoltage : Bool := false
  errHydrogenHighPressure : Bool := false
  errSpeed : Bool := false
deriving DecidableEq

/-- the enum `ProtiumOperatingState` -/
abbrev ProtiumOperatingState := Int

structure ProtiumValues where
  fcV : CFloat := 0
  fcA : CFloat := 0
  fcW : CFloat := 0
  energy : CFloat := 0
  fct1 : CFloat := 0
  fan : CFloat := 0
  h2p1 : CFloat := 0
  h2p2 : CFloat := 0
  tankP : CFloat := 0
  tankT : CFloat := 0
  vSet : CFloat := 0
  iSet : CFloat := 0
  ucbV : CFloat := 0
  stasisSelector : CFloat := 0
  stasisV1 : CFloat := 0
  stasisV2 : CFloat := 0
  numberOfCell : CFloat := 0
  fct2 : CFloat := 0
  blw : CFloat := 0
  battV : CFloat := 0
  ip : CFloat := 0
  tp : CFloat := 0
deriving DecidableEq

structure ProtiumOperatingStateMsg where
  currentState : ProtiumOperatingState := 0
deriving DecidableEq

/-- the union `payload`, seen through each of its members -/
structure Payload where
  masterMeasurements : MasterMeasurements := {}
  masterStatus : MasterStatus := {}
  protiumValues : ProtiumValues := {}
  protiumOperatingState : ProtiumOperatingStateMsg := {}
  masterFaults : MasterFaults := {}
deriving DecidableEq

structure MasterFrame where
  whichPayload : Nat := 0
  payload : Payload := {}
deriving DecidableEq

/-! ## the payload tags -/

def masterMeasurementsTag : Nat := 3
def masterStatusTag : Nat := 4
def protiumValuesTag : Nat := 5
def protiumOperatingStateTag : Nat := 6
def masterFaultsTag : Nat := 7

/-- the tags of the five payloads of master.proto -/
def knownTags : List Nat :=
  [masterMeasurementsTag, masterStatusTag, protiumValuesTag, protiumOperatingStateTag,
    masterFaultsTag]

namespace MasterFrame

/-- the payload of a frame that carries `tag` -/
def pick {α : Type} (tag : Nat) (member : Payload → α) (f : MasterFrame) : Option α :=
  if f.whichPayload = tag then some (member f.payload) else none

def measurements? : MasterFrame → Option MasterMeasurements :=
  pick masterMeasurementsTag Payload.masterMeasurements
def status? : MasterFrame → Option MasterStatus :=
  pick masterStatusTag Payload.masterStatus
def protiumValues? : MasterFrame → Option ProtiumValues :=
  pick protiumValuesTag Payload.protiumValues
def protiumOperatingState? : MasterFrame → Option ProtiumOperatingState :=
  pick protiumOperatingStateTag fun p => p.protiumOperatingState.currentState
def faults? : MasterFrame → Option MasterFaults :=
  pick masterFaultsTag Payload.masterFaults

theorem pick_self {α : Type} {tag : Nat} (member : Payload → α) {f : MasterFrame}
    (h : f.whichPayload = tag) : f.pick tag member = some (member f.payload) := if_pos h

theorem pick_of_ne {α : Type} {tag : Nat} (member : Payload → α) {f : MasterFrame}
    (h : f.whichPayload ≠ tag) : f.pick tag member = none := if_neg h

end MasterFrame

end CCU
