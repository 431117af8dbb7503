import Mathlib.Algebra.Group.Int.Defs
import Mathlib.Algebra.Group.Nat.Defs
import CanConverter.Master.Proto

/-!
# The generated signal library (candef), as a parameter

The structs are the ones the senders fill in; a raw signal is the integer its `encode` returned.
The frame ids, frame lengths, `encode` and `pack` functions are not in this repository: they are
the fields of `Candef`, and every result about the senders holds for all of them.

A `float` goes to `encode` through a promotion to `double`, which loses nothing, so an encoder of
such a signal is a function of the `float`.
-/

namespace CCU

structure McuTimeSync where
  timeMs : Int
  clockCycles : Int
deriving DecidableEq

structure McuState where
  status : Int
  vehicleType : Int
  vehicleAllowedToMove : Int
  motorControllerEnabled : Int
  mainValveEnabled : Int
deriving DecidableEq

structure McuInputs where
  emergencySwitch : Bool
  deadMansSwitch : Bool
  leakageDetected : Bool
  shellRelay : Bool
  startButton : Bool
  resetButton : Bool
  calibrationButton : Bool
  gasPedal : Bool
deriving DecidableEq

structure McuFaults where
  emergencySwitch : Bool
  emergencyDeadMansSwitch : Bool
  emergencyLeakageDetected : Bool
  errorFcVLow : Bool
  errorFcVHigh : Bool
  errorFcCLow : Bool
  errorFcCHigh : Bool
  errorScVLow : Bool
  errorScVHigh : Bool
  errorScCLow : Bool
  errorScCHigh : Bool
  errorMcVLow : Bool
  errorMcVHigh : Bool
  errorMcCLow : Bool
  errorMcCHigh : Bool
  errorAbVLow : Bool
  errorAbVHigh : Bool
  errorAbCLow : Bool
  errorAbCHigh : Bool
deriving DecidableEq

structure McuAnalogDrive where
  rpm : Int
  speed : Int
deriving DecidableEq

structure McuAnalogPedals where
  accelerationPedalVoltage : Int
  brakePedalVoltage : Int
deriving DecidableEq

structure McuAnalogPowertrain where
  supercapacitorVoltage : Int
  supercapacitorCurrent : Int
  motorControllerSupplyCurrent : Int
  motorControllerSupplyVoltage : Int
deriving DecidableEq

structure McuAnalogFuelCell where
  fuelCellOutputCurrent : Int
  fuelCellOutputVoltage : Int
  hydrogenHighPressure : Int
  hydrogenLeakageSensorVoltage : Int
deriving DecidableEq

structure McuAnalogAccessory where
  accessoryBatteryCurrent : Int
  accessoryBatteryVoltage : Int
deriving DecidableEq

structure McuAnalogUnassigned where
  ai1 : Int
  ai3 : Int
  ai4 : Int
  ai5 : Int
deriving DecidableEq

structure ProtiumState where
  operatingState : Int
deriving DecidableEq

structure ProtiumPower where
  fcV : Int
  fcA : Int
  fcW : Int
  energy : Int
deriving DecidableEq

structure ProtiumThermal where
  fct1 : Int
  fct2 : Int
  fan : Int
  blw : Int
deriving DecidableEq

structure ProtiumHydrogen where
  h2P1 : Int
  h2P2 : Int
  tankP : Int
  tankT : Int
deriving DecidableEq

structure ProtiumSetpoints where
  vSet : Int
  iSet : Int
  ucbV : Int
  numberOfCells : Int
deriving DecidableEq

structure ProtiumStasis where
  stasisSelector : Int
  stasisV1 : Int
  stasisV2 : Int
  battV : Int
deriving DecidableEq

structure ProtiumMisc where
  ip : Int
  tp : Int
deriving DecidableEq

/-- one message: `CANDEF_X_FRAME_ID`, `CANDEF_X_LENGTH` and `candef_x_pack` -/
structure CandefMsg (S : Type) where
  frameId : UInt32
  length : Nat
  pack : S → Vector UInt8 length

/-- the messages and the per-signal encoders of candef -/
structure Candef where
  mcuTimeSync : CandefMsg McuTimeSync
  mcuTimeSyncTimeMsEncode : UInt32 → Int
  mcuTimeSyncClockCyclesEncode : UInt32 → Int
  mcuState : CandefMsg McuState
  mcuStateStatusEncode : Int → Int
  mcuStateVehicleTypeEncode : Int → Int
  mcuStateVehicleAllowedToMoveEncode : Bool → Int
  mcuStateMotorControllerEnabledEncode : Bool → Int
  mcuStateMainValveEnabledEncode : Bool → Int
  mcuInputs : CandefMsg McuInputs
  mcuFaults : CandefMsg McuFaults
  mcuAnalogDrive : CandefMsg McuAnalogDrive
  mcuAnalogDriveRpmEncode : CFloat → Int
  mcuAnalogDriveSpeedEncode : CFloat → Int
  mcuAnalogPedals : CandefMsg McuAnalogPedals
  mcuAnalogPedalsAccelerationPedalVoltageEncode : CFloat → Int
  mcuAnalogPedalsBrakePedalVoltageEncode : CFloat → Int
  mcuAnalogPowertrain : CandefMsg McuAnalogPowertrain
  mcuAnalogPowertrainSupercapacitorVoltageEncode : CFloat → Int
  mcuAnalogPowertrainSupercapacitorCurrentEncode : CFloat → Int
  mcuAnalogPowertrainMotorControllerSupplyCurrentEncode : CFloat → Int
  mcuAnalogPowertrainMotorControllerSupplyVoltageEncode : CFloat → Int
  mcuAnalogFuelCell : CandefMsg McuAnalogFuelCell
  mcuAnalogFuelCellFuelCellOutputCurrentEncode : CFloat → Int
  mcuAnalogFuelCellFuelCellOutputVoltageEncode : CFloat → Int
  mcuAnalogFuelCellHydrogenHighPressureEncode : CFloat → Int
  mcuAnalogFuelCellHydrogenLeakageSensorVoltageEncode : CFloat → Int
  mcuAnalogAccessory : CandefMsg McuAnalogAccessory
  mcuAnalogAccessoryAccessoryBatteryCurrentEncode : CFloat → Int
  mcuAnalogAccessoryAccessoryBatteryVoltageEncode : CFloat → Int
  mcuAnalogUnassigned : CandefMsg McuAnalogUnassigned
  mcuAnalogUnassignedAi1Encode : CFloat → Int
  mcuAnalogUnassignedAi3Encode : CFloat → Int
  mcuAnalogUnassignedAi4Encode : CFloat → Int
  mcuAnalogUnassignedAi5Encode : CFloat → Int
  protiumState : CandefMsg ProtiumState
  protiumStateOperatingStateEncode : Int → Int
  protiumPower : CandefMsg ProtiumPower
  protiumPowerFcVEncode : CFloat → Int
  protiumPowerFcAEncode : CFloat → Int
  protiumPowerFcWEncode : CFloat → Int
  protiumPowerEnergyEncode : CFloat → Int
  protiumThermal : CandefMsg ProtiumThermal
  protiumThermalFct1Encode : CFloat → Int
  protiumThermalFct2Encode : CFloat → Int
  protiumThermalFanEncode : CFloat → Int
  protiumThermalBlwEncode : CFloat → Int
  protiumHydrogen : CandefMsg ProtiumHydrogen
  protiumHydrogenH2P1Encode : CFloat → Int
  protiumHydrogenH2P2Encode : CFloat → Int
  protiumHydrogenTankPEncode : CFloat → Int
  protiumHydrogenTankTEncode : CFloat → Int
  protiumSetpoints : CandefMsg ProtiumSetpoints
  protiumSetpointsVSetEncode : CFloat → Int
  protiumSetpointsISetEncode : CFloat → Int
  protiumSetpointsUcbVEncode : CFloat → Int
  protiumSetpointsNumberOfCellsEncode : CFloat → Int
  protiumStasis : CandefMsg ProtiumStasis
  protiumStasisStasisSelectorEncode : CFloat → Int
  protiumStasisStasisV1Encode : CFloat → Int
  protiumStasisStasisV2Encode : CFloat → Int
  protiumStasisBattVEncode : CFloat → Int
  protiumMisc : CandefMsg ProtiumMisc
  protiumMiscIpEncode : CFloat → Int
  protiumMiscTpEncode : CFloat → Int

/-! ## a concrete library

The frame ids are those of tools/can_test.py; a raw signal is cut to a byte of its own, a flag is a
bit of its own. -/

def rawFloat (x : UInt32) : Int := x.toNat
def rawBool (b : Bool) : Int := b.toNat
def byteOf (raw : Int) : UInt8 := UInt8.ofNat (raw % 2 ^ 8).toNat

/-- the number whose binary digits are the flags, the first one the lowest -/
def ofFlags : List Bool → Nat
  | [] => 0
  | b :: l => b.toNat + 2 * ofFlags l

def bitsOf (flags : List Bool) : UInt8 := UInt8.ofNat (ofFlags flags)

theorem ofFlags_testBit (l : List Bool) (j : Nat) : (ofFlags l).testBit j = l.getD j false := by
  induction l generalizing j with
  | nil => exact Nat.zero_testBit j
  | cons b l ih =>
    have hlow : b.toNat < 2 := Bool.toNat_lt b
    cases j with
    | zero =>
      rw [ofFlags, Nat.testBit_zero, List.getD_cons_zero]
      cases b <;> simp
    | succ j =>
      have hdiv : (b.toNat + 2 * ofFlags l) / 2 = ofFlags l := by omega
      rw [ofFlags, Nat.testBit_succ, hdiv, List.getD_cons_succ]
      exact ih j

theorem bitsOf_testBit (l : List Bool) {j : Nat} (h : j < 8) :
    (bitsOf l).toNat.testBit j = l.getD j false := by
  have hm : (bitsOf l).toNat = ofFlags l % 2 ^ 8 := UInt8.toNat_ofNat'
  rw [hm, Nat.testBit_mod_two_pow, decide_eq_true h, Bool.true_and]
  exact ofFlags_testBit l j

def Candef.bytewise : Candef where
  mcuTimeSync := ⟨0x110, 2, fun s =>
    #v[byteOf s.timeMs, byteOf s.clockCycles]⟩
  mcuTimeSyncTimeMsEncode := rawFloat
  mcuTimeSyncClockCyclesEncode := rawFloat
  mcuState := ⟨0x100, 5, fun s =>
    #v[byteOf s.status, byteOf s.vehicleType, byteOf s.vehicleAllowedToMove, byteOf
      s.motorControllerEnabled, byteOf s.mainValveEnabled]⟩
  mcuStateStatusEncode := id
  mcuStateVehicleTypeEncode := id
  mcuStateVehicleAllowedToMoveEncode := rawBool
  mcuStateMotorControllerEnabledEncode := rawBool
  mcuStateMainValveEnabledEncode := rawBool
  mcuInputs := ⟨0x102, 1, fun s =>
    #v[bitsOf [s.emergencySwitch, s.deadMansSwitch, s.leakageDetected, s.shellRelay,
      s.startButton, s.resetButton, s.calibrationButton, s.gasPedal]]⟩
  mcuFaults := ⟨0x101, 3, fun s =>
    #v[bitsOf [s.emergencySwitch, s.emergencyDeadMansSwitch, s.emergencyLeakageDetected,
      s.errorFcVLow, s.errorFcVHigh, s.errorFcCLow, s.errorFcCHigh, s.errorScVLow],
      bitsOf [s.errorScVHigh, s.errorScCLow, s.errorScCHigh, s.errorMcVLow, s.errorMcVHigh,
        s.errorMcCLow, s.errorMcCHigh, s.errorAbVLow],
      bitsOf [s.errorAbVHigh, s.errorAbCLow, s.errorAbCHigh]]⟩
  mcuAnalogDrive := ⟨0x107, 2, fun s =>
    #v[byteOf s.rpm, byteOf s.speed]⟩
  mcuAnalogDriveRpmEncode := rawFloat
  mcuAnalogDriveSpeedEncode := rawFloat
  mcuAnalogPedals := ⟨0x103, 2, fun s =>
    #v[byteOf s.accelerationPedalVoltage, byteOf s.brakePedalVoltage]⟩
  mcuAnalogPedalsAccelerationPedalVoltageEncode := rawFloat
  mcuAnalogPedalsBrakePedalVoltageEncode := rawFloat
  mcuAnalogPowertrain := ⟨0x105, 4, fun s =>
    #v[byteOf s.supercapacitorVoltage, byteOf s.supercapacitorCurrent,
      byteOf s.motorControllerSupplyCurrent, byteOf s.motorControllerSupplyVoltage]⟩
  mcuAnalogPowertrainSupercapacitorVoltageEncode := rawFloat
  mcuAnalogPowertrainSupercapacitorCurrentEncode := rawFloat
  mcuAnalogPowertrainMotorControllerSupplyCurrentEncode := rawFloat
  mcuAnalogPowertrainMotorControllerSupplyVoltageEncode := rawFloat
  mcuAnalogFuelCell := ⟨0x104, 4, fun s =>
    #v[byteOf s.fuelCellOutputCurrent, byteOf s.fuelCellOutputVoltage,
      byteOf s.hydrogenHighPressure, byteOf s.hydrogenLeakageSensorVoltage]⟩
  mcuAnalogFuelCellFuelCellOutputCurrentEncode := rawFloat
  mcuAnalogFuelCellFuelCellOutputVoltageEncode := rawFloat
  mcuAnalogFuelCellHydrogenHighPressureEncode := rawFloat
  mcuAnalogFuelCellHydrogenLeakageSensorVoltageEncode := rawFloat
  mcuAnalogAccessory := ⟨0x106, 2, fun s =>
    #v[byteOf s.accessoryBatteryCurrent, byteOf s.accessoryBatteryVoltage]⟩
  mcuAnalogAccessoryAccessoryBatteryCurrentEncode := rawFloat
  mcuAnalogAccessoryAccessoryBatteryVoltageEncode := rawFloat
  mcuAnalogUnassigned := ⟨0x108, 4, fun s =>
    #v[byteOf s.ai1, byteOf s.ai3, byteOf s.ai4, byteOf s.ai5]⟩
  mcuAnalogUnassignedAi1Encode := rawFloat
  mcuAnalogUnassignedAi3Encode := rawFloat
  mcuAnalogUnassignedAi4Encode := rawFloat
  mcuAnalogUnassignedAi5Encode := rawFloat
  protiumState := ⟨0x206, 1, fun s =>
    #v[byteOf s.operatingState]⟩
  protiumStateOperatingStateEncode := id
  protiumPower := ⟨0x200, 4, fun s =>
    #v[byteOf s.fcV, byteOf s.fcA, byteOf s.fcW, byteOf s.energy]⟩
  protiumPowerFcVEncode := rawFloat
  protiumPowerFcAEncode := rawFloat
  protiumPowerFcWEncode := rawFloat
  protiumPowerEnergyEncode := rawFloat
  protiumThermal := ⟨0x201, 4, fun s =>
    #v[byteOf s.fct1, byteOf s.fct2, byteOf s.fan, byteOf s.blw]⟩
  protiumThermalFct1Encode := rawFloat
  protiumThermalFct2Encode := rawFloat
  protiumThermalFanEncode := rawFloat
  protiumThermalBlwEncode := rawFloat
  protiumHydrogen := ⟨0x202, 4, fun s =>
    #v[byteOf s.h2P1, byteOf s.h2P2, byteOf s.tankP, byteOf s.tankT]⟩
  protiumHydrogenH2P1Encode := rawFloat
  protiumHydrogenH2P2Encode := rawFloat
  protiumHydrogenTankPEncode := rawFloat
  protiumHydrogenTankTEncode := rawFloat
  protiumSetpoints := ⟨0x203, 4, fun s =>
    #v[byteOf s.vSet, byteOf s.iSet, byteOf s.ucbV, byteOf s.numberOfCells]⟩
  protiumSetpointsVSetEncode := rawFloat
  protiumSetpointsISetEncode := rawFloat
  protiumSetpointsUcbVEncode := rawFloat
  protiumSetpointsNumberOfCellsEncode := rawFloat
  protiumStasis := ⟨0x204, 4, fun s =>
    #v[byteOf s.stasisSelector, byteOf s.stasisV1, byteOf s.stasisV2, byteOf s.battV]⟩
  protiumStasisStasisSelectorEncode := rawFloat
  protiumStasisStasisV1Encode := rawFloat
  protiumStasisStasisV2Encode := rawFloat
  protiumStasisBattVEncode := rawFloat
  protiumMisc := ⟨0x205, 2, fun s =>
    #v[byteOf s.ip, byteOf s.tp]⟩
  protiumMiscIpEncode := rawFloat
  protiumMiscTpEncode := rawFloat

end CCU
