import Mathlib.Algebra.Group.Int.Defs
import Mathlib.Algebra.Group.Nat.Defs
import Mathlib.Data.Set.Function
import CanConverter.Lib.Split
import CanConverter.Frames.Send

/-!
# The split of the telemetry into frames

The fields of `MasterMeasurements` are copied by hand into the structs of seven frames, those of
`ProtiumValues` into the structs of six.  Each field gets one name, under which it is found both in
the message of the master and in the struct of its frame.

* `Measurement`, `ProtiumValue`            the names of the fields, with `get` the field, `signal`
                                           the field of the struct, and `home` the frame;
* `MeasurementFrame`, `ProtiumFrame`       the frames;
* `BuiltFrame`                             what `PACK_AND_ENQUEUE` hands to `enqueue_frame`;
* `Candef.Injective`                       what is assumed of the generated library;
* `queued_split`                           a frame that fits the queue tells its signals apart;
* `telemetry_split`                        the split is exact.
-/

namespace CCU

/-- what `PACK_AND_ENQUEUE` hands to `enqueue_frame` -/
structure BuiltFrame where
  id : UInt32
  data : List UInt8
deriving DecidableEq

def CandefMsg.build {S : Type} (msg : CandefMsg S) (signals : S) : BuiltFrame :=
  ⟨msg.frameId, (msg.pack signals).toList⟩

/-- the frame a sender builds -/
def Call.build (cd : Candef) : Call → BuiltFrame
  | .sendMcuTimeSync ms cyc => cd.mcuTimeSync.build (mcuTimeSyncSignals cd ms cyc)
  | .sendMcuState s => cd.mcuState.build (mcuStateSignals cd s)
  | .sendMcuInputs m => cd.mcuInputs.build (mcuInputsSignals m)
  | .sendMcuFaults f => cd.mcuFaults.build (mcuFaultsSignals f)
  | .sendMcuAnalogSpeed m => cd.mcuAnalogDrive.build (mcuAnalogDriveSignals cd m)
  | .sendMcuAnalogPedals m => cd.mcuAnalogPedals.build (mcuAnalogPedalsSignals cd m)
  | .sendMcuAnalogPowertrain m => cd.mcuAnalogPowertrain.build (mcuAnalogPowertrainSignals cd m)
  | .sendMcuAnalogFuelCell m => cd.mcuAnalogFuelCell.build (mcuAnalogFuelCellSignals cd m)
  | .sendMcuAnalogAccessory m => cd.mcuAnalogAccessory.build (mcuAnalogAccessorySignals cd m)
  | .sendMcuAnalogUnassigned m => cd.mcuAnalogUnassigned.build (mcuAnalogUnassignedSignals cd m)
  | .sendProtiumState o => cd.protiumState.build (protiumStateSignals cd o)
  | .sendProtiumPower v => cd.protiumPower.build (protiumPowerSignals cd v)
  | .sendProtiumThermal v => cd.protiumThermal.build (protiumThermalSignals cd v)
  | .sendProtiumHydrogen v => cd.protiumHydrogen.build (protiumHydrogenSignals cd v)
  | .sendProtiumSetpoints v => cd.protiumSetpoints.build (protiumSetpointsSignals cd v)
  | .sendProtiumStasis v => cd.protiumStasis.build (protiumStasisSignals cd v)
  | .sendProtiumMisc v => cd.protiumMisc.build (protiumMiscSignals cd v)

/-- the queue sees of a call the frame it built, and its length as a `uint8_t` -/
theorem Call.frame_eq_build (cd : Candef) (c : Call) :
    c.frame cd =
      fillFrame (c.build cd).id (c.build cd).data ((c.build cd).data.length % 2 ^ 8) := by
  have hmsg : ∀ {S : Type} (msg : CandefMsg S) (signals : S), msg.frame signals =
      fillFrame (msg.build signals).id (msg.build signals).data
        ((msg.build signals).data.length % 2 ^ 8) := by
    intro S msg signals
    unfold CandefMsg.frame CandefMsg.build
    rw [Vector.length_toList]
  cases c <;> exact hmsg _ _

/-- what fits a frame can be read back from it -/
theorem fillFrame_inj {id id' : UInt32} {data data' : List UInt8} (h : data.length ≤ 8)
    (h' : data'.length ≤ 8) :
    fillFrame id data (data.length % 2 ^ 8) = fillFrame id' data' (data'.length % 2 ^ 8) ↔
      id = id' ∧ data = data' := by
  constructor
  · intro heq
    rw [Nat.mod_eq_of_lt (by omega), Nat.mod_eq_of_lt (by omega)] at heq
    unfold fillFrame at heq
    rw [if_neg (by omega), if_neg (by omega), Option.some.injEq, CanFrame.mk.injEq] at heq
    obtain ⟨hid, hlen, _, hdata⟩ := heq
    refine ⟨hid, List.ext_getElem hlen fun j hj hj' => ?_⟩
    have hbyte := congrArg (fun v : Vector UInt8 8 => v[(⟨j, by omega⟩ : Fin 8)]) hdata
    simpa [hj, hj'] using hbyte
  · rintro ⟨rfl, rfl⟩
    rfl

/-- calls whose frames fit enqueue different frames when they build different ones -/
theorem Call.frame_eq_iff {cd : Candef} {c c' : Call} (h : (c.build cd).data.length ≤ 8)
    (h' : (c'.build cd).data.length ≤ 8) :
    c.frame cd = c'.frame cd ↔ c.build cd = c'.build cd := by
  rw [Call.frame_eq_build, Call.frame_eq_build, fillFrame_inj h h', BuiltFrame.mk.injEq]

/-! ## the fields of `MasterMeasurements` -/

inductive Measurement where
  | ai1 | supercapacitorCurrent | ai3 | ai4 | ai5 | accelPedalVoltage | brakePedalVoltage
  | accessoryBatteryCurrent | hydrogenHighPressure | hydrogenLeakageSensorVoltage
  | fuelCellOutputCurrent | motorControllerSupplyCurrent | accessoryBatteryVoltage
  | fuelCellOutputVoltage | supercapacitorVoltage | motorControllerSupplyVoltage | rpm | speed
  | gasPedal | startButton | deadMansSwitch | emergencySwitch | resetButton | calibrationButton
  | leakageDetected | shellRelay
deriving DecidableEq

/-- the seven frames that carry measurements -/
inductive MeasurementFrame where
  | speed | pedals | powertrain | fuelCell | accessory | unassigned | inputs
deriving DecidableEq

/-- the sender of the frame -/
def MeasurementFrame.call (m : MasterMeasurements) : MeasurementFrame → Call
  | .speed => .sendMcuAnalogSpeed m
  | .pedals => .sendMcuAnalogPedals m
  | .powertrain => .sendMcuAnalogPowertrain m
  | .fuelCell => .sendMcuAnalogFuelCell m
  | .accessory => .sendMcuAnalogAccessory m
  | .unassigned => .sendMcuAnalogUnassigned m
  | .inputs => .sendMcuInputs m

namespace Measurement

/-- the field, a flag as 0 or 1 -/
def get (m : MasterMeasurements) : Measurement → UInt32
  | ai1 => m.ai1
  | supercapacitorCurrent => m.supercapacitorCurrent
  | ai3 => m.ai3
  | ai4 => m.ai4
  | ai5 => m.ai5
  | accelPedalVoltage => m.accelPedalVoltage
  | brakePedalVoltage => m.brakePedalVoltage
  | accessoryBatteryCurrent => m.accessoryBatteryCurrent
  | hydrogenHighPressure => m.hydrogenHighPressure
  | hydrogenLeakageSensorVoltage => m.hydrogenLeakageSensorVoltage
  | fuelCellOutputCurrent => m.fuelCellOutputCurrent
  | motorControllerSupplyCurrent => m.motorControllerSupplyCurrent
  | accessoryBatteryVoltage => m.accessoryBatteryVoltage
  | fuelCellOutputVoltage => m.fuelCellOutputVoltage
  | supercapacitorVoltage => m.supercapacitorVoltage
  | motorControllerSupplyVoltage => m.motorControllerSupplyVoltage
  | rpm => m.rpm
  | speed => m.speed
  | gasPedal => m.din.gasPedal.toUInt32
  | startButton => m.din.startButton.toUInt32
  | deadMansSwitch => m.din.deadMansSwitch.toUInt32
  | emergencySwitch => m.din.emergencySwitch.toUInt32
  | resetButton => m.din.resetButton.toUInt32
  | calibrationButton => m.din.calibrationButton.toUInt32
  | leakageDetected => m.din.leakageDetected.toUInt32
  | shellRelay => m.din.shellRelay.toUInt32

/-- the frame whose struct has a field of that name -/
def home : Measurement → MeasurementFrame
  | rpm | speed => .speed
  | accelPedalVoltage | brakePedalVoltage => .pedals
  | supercapacitorVoltage | supercapacitorCurrent | motorControllerSupplyCurrent
  | motorControllerSupplyVoltage => .powertrain
  | fuelCellOutputCurrent | fuelCellOutputVoltage | hydrogenHighPressure
  | hydrogenLeakageSensorVoltage => .fuelCell
  | accessoryBatteryCurrent | accessoryBatteryVoltage => .accessory
  | ai1 | ai3 | ai4 | ai5 => .unassigned
  | gasPedal | startButton | deadMansSwitch | emergencySwitch | resetButton | calibrationButton
  | leakageDetected | shellRelay => .inputs

section
variable (cd : Candef)

/-- the field of that name in the struct its sender fills in, a flag as 0 or 1 -/
def signal (m : MasterMeasurements) : Measurement → Int
  | ai1 => (mcuAnalogUnassignedSignals cd m).ai1
  | supercapacitorCurrent => (mcuAnalogPowertrainSignals cd m).supercapacitorCurrent
  | ai3 => (mcuAnalogUnassignedSignals cd m).ai3
  | ai4 => (mcuAnalogUnassignedSignals cd m).ai4
  | ai5 => (mcuAnalogUnassignedSignals cd m).ai5
  | accelPedalVoltage => (mcuAnalogPedalsSignals cd m).accelerationPedalVoltage
  | brakePedalVoltage => (mcuAnalogPedalsSignals cd m).brakePedalVoltage
  | accessoryBatteryCurrent => (mcuAnalogAccessorySignals cd m).accessoryBatteryCurrent
  | hydrogenHighPressure => (mcuAnalogFuelCellSignals cd m).hydrogenHighPressure
  | hydrogenLeakageSensorVoltage => (mcuAnalogFuelCellSignals cd m).hydrogenLeakageSensorVoltage
  | fuelCellOutputCurrent => (mcuAnalogFuelCellSignals cd m).fuelCellOutputCurrent
  | motorControllerSupplyCurrent => (mcuAnalogPowertrainSignals cd m).motorControllerSupplyCurrent
  | accessoryBatteryVoltage => (mcuAnalogAccessorySignals cd m).accessoryBatteryVoltage
  | fuelCellOutputVoltage => (mcuAnalogFuelCellSignals cd m).fuelCellOutputVoltage
  | supercapacitorVoltage => (mcuAnalogPowertrainSignals cd m).supercapacitorVoltage
  | motorControllerSupplyVoltage => (mcuAnalogPowertrainSignals cd m).motorControllerSupplyVoltage
  | rpm => (mcuAnalogDriveSignals cd m).rpm
  | speed => (mcuAnalogDriveSignals cd m).speed
  | gasPedal => rawBool (mcuInputsSignals m).gasPedal
  | startButton => rawBool (mcuInputsSignals m).startButton
  | deadMansSwitch => rawBool (mcuInputsSignals m).deadMansSwitch
  | emergencySwitch => rawBool (mcuInputsSignals m).emergencySwitch
  | resetButton => rawBool (mcuInputsSignals m).resetButton
  | calibrationButton => rawBool (mcuInputsSignals m).calibrationButton
  | leakageDetected => rawBool (mcuInputsSignals m).leakageDetected
  | shellRelay => rawBool (mcuInputsSignals m).shellRelay

/-- the encoder of the signal; a flag is copied -/
def encode : Measurement → UInt32 → Int
  | ai1 => cd.mcuAnalogUnassignedAi1Encode
  | supercapacitorCurrent => cd.mcuAnalogPowertrainSupercapacitorCurrentEncode
  | ai3 => cd.mcuAnalogUnassignedAi3Encode
  | ai4 => cd.mcuAnalogUnassignedAi4Encode
  | ai5 => cd.mcuAnalogUnassignedAi5Encode
  | accelPedalVoltage => cd.mcuAnalogPedalsAccelerationPedalVoltageEncode
  | brakePedalVoltage => cd.mcuAnalogPedalsBrakePedalVoltageEncode
  | accessoryBatteryCurrent => cd.mcuAnalogAccessoryAccessoryBatteryCurrentEncode
  | hydrogenHighPressure => cd.mcuAnalogFuelCellHydrogenHighPressureEncode
  | hydrogenLeakageSensorVoltage => cd.mcuAnalogFuelCellHydrogenLeakageSensorVoltageEncode
  | fuelCellOutputCurrent => cd.mcuAnalogFuelCellFuelCellOutputCurrentEncode
  | motorControllerSupplyCurrent => cd.mcuAnalogPowertrainMotorControllerSupplyCurrentEncode
  | accessoryBatteryVoltage => cd.mcuAnalogAccessoryAccessoryBatteryVoltageEncode
  | fuelCellOutputVoltage => cd.mcuAnalogFuelCellFuelCellOutputVoltageEncode
  | supercapacitorVoltage => cd.mcuAnalogPowertrainSupercapacitorVoltageEncode
  | motorControllerSupplyVoltage => cd.mcuAnalogPowertrainMotorControllerSupplyVoltageEncode
  | rpm => cd.mcuAnalogDriveRpmEncode
  | speed => cd.mcuAnalogDriveSpeedEncode
  | gasPedal | startButton | deadMansSwitch | emergencySwitch | resetButton | calibrationButton
  | leakageDetected | shellRelay => rawFloat

end

end Measurement

/-! ## the fields of `ProtiumValues` -/

inductive ProtiumValue where
  | fcV | fcA | fcW | energy | fct1 | fan | h2p1 | h2p2 | tankP | tankT | vSet | iSet | ucbV
  | stasisSelector | stasisV1 | stasisV2 | numberOfCell | fct2 | blw | battV | ip | tp
deriving DecidableEq

/-- the six frames that carry Protium values -/
inductive ProtiumFrame where
  | power | thermal | hydrogen | setpoints | stasis | misc
deriving DecidableEq

/-- the sender of the frame -/
def ProtiumFrame.call (v : ProtiumValues) : ProtiumFrame → Call
  | .power => .sendProtiumPower v
  | .thermal => .sendProtiumThermal v
  | .hydrogen => .sendProtiumHydrogen v
  | .setpoints => .sendProtiumSetpoints v
  | .stasis => .sendProtiumStasis v
  | .misc => .sendProtiumMisc v

namespace ProtiumValue

/-- the field -/
def get (v : ProtiumValues) : ProtiumValue → UInt32
  | fcV => v.fcV
  | fcA => v.fcA
  | fcW => v.fcW
  | energy => v.energy
  | fct1 => v.fct1
  | fan => v.fan
  | h2p1 => v.h2p1
  | h2p2 => v.h2p2
  | tankP => v.tankP
  | tankT => v.tankT
  | vSet => v.vSet
  | iSet => v.iSet
  | ucbV => v.ucbV
  | stasisSelector => v.stasisSelector
  | stasisV1 => v.stasisV1
  | stasisV2 => v.stasisV2
  | numberOfCell => v.numberOfCell
  | fct2 => v.fct2
  | blw => v.blw
  | battV => v.battV
  | ip => v.ip
  | tp => v.tp

/-- the frame whose struct has a field of that name -/
def home : ProtiumValue → ProtiumFrame
  | fcV | fcA | fcW | energy => .power
  | fct1 | fct2 | fan | blw => .thermal
  | h2p1 | h2p2 | tankP | tankT => .hydrogen
  | vSet | iSet | ucbV | numberOfCell => .setpoints
  | stasisSelector | stasisV1 | stasisV2 | battV => .stasis
  | ip | tp => .misc

section
variable (cd : Candef)

/-- the field of that name in the struct its sender fills in -/
def signal (v : ProtiumValues) : ProtiumValue → Int
  | fcV => (protiumPowerSignals cd v).fcV
  | fcA => (protiumPowerSignals cd v).fcA
  | fcW => (protiumPowerSignals cd v).fcW
  | energy => (protiumPowerSignals cd v).energy
  | fct1 => (protiumThermalSignals cd v).fct1
  | fan => (protiumThermalSignals cd v).fan
  | h2p1 => (protiumHydrogenSignals cd v).h2P1
  | h2p2 => (protiumHydrogenSignals cd v).h2P2
  | tankP => (protiumHydrogenSignals cd v).tankP
  | tankT => (protiumHydrogenSignals cd v).tankT
  | vSet => (protiumSetpointsSignals cd v).vSet
  | iSet => (protiumSetpointsSignals cd v).iSet
  | ucbV => (protiumSetpointsSignals cd v).ucbV
  | stasisSelector => (protiumStasisSignals cd v).stasisSelector
  | stasisV1 => (protiumStasisSignals cd v).stasisV1
  | stasisV2 => (protiumStasisSignals cd v).stasisV2
  | numberOfCell => (protiumSetpointsSignals cd v).numberOfCells
  | fct2 => (protiumThermalSignals cd v).fct2
  | blw => (protiumThermalSignals cd v).blw
  | battV => (protiumStasisSignals cd v).battV
  | ip => (protiumMiscSignals cd v).ip
  | tp => (protiumMiscSignals cd v).tp

/-- the encoder of the signal -/
def encode : ProtiumValue → UInt32 → Int
  | fcV => cd.protiumPowerFcVEncode
  | fcA => cd.protiumPowerFcAEncode
  | fcW => cd.protiumPowerFcWEncode
  | energy => cd.protiumPowerEnergyEncode
  | fct1 => cd.protiumThermalFct1Encode
  | fan => cd.protiumThermalFanEncode
  | h2p1 => cd.protiumHydrogenH2P1Encode
  | h2p2 => cd.protiumHydrogenH2P2Encode
  | tankP => cd.protiumHydrogenTankPEncode
  | tankT => cd.protiumHydrogenTankTEncode
  | vSet => cd.protiumSetpointsVSetEncode
  | iSet => cd.protiumSetpointsISetEncode
  | ucbV => cd.protiumSetpointsUcbVEncode
  | stasisSelector => cd.protiumStasisStasisSelectorEncode
  | stasisV1 => cd.protiumStasisStasisV1Encode
  | stasisV2 => cd.protiumStasisStasisV2Encode
  | numberOfCell => cd.protiumSetpointsNumberOfCellsEncode
  | fct2 => cd.protiumThermalFct2Encode
  | blw => cd.protiumThermalBlwEncode
  | battV => cd.protiumStasisBattVEncode
  | ip => cd.protiumMiscIpEncode
  | tp => cd.protiumMiscTpEncode

end

end ProtiumValue

/-! ## what is assumed of candef -/

/-- the encoders are injective, and so is every `pack` on the structs its sender fills in; it cannot
be on all structs, for a raw signal is any integer here and a frame has finitely many bytes -/
structure Candef.Injective (cd : Candef) : Prop where
  measurement : ∀ n : Measurement, Function.Injective (n.encode cd)
  protium : ∀ n : ProtiumValue, Function.Injective (n.encode cd)
  mcuAnalogDrive : Set.InjOn cd.mcuAnalogDrive.pack (Set.range (mcuAnalogDriveSignals cd))
  mcuAnalogPedals : Set.InjOn cd.mcuAnalogPedals.pack (Set.range (mcuAnalogPedalsSignals cd))
  mcuAnalogPowertrain :
    Set.InjOn cd.mcuAnalogPowertrain.pack (Set.range (mcuAnalogPowertrainSignals cd))
  mcuAnalogFuelCell : Set.InjOn cd.mcuAnalogFuelCell.pack (Set.range (mcuAnalogFuelCellSignals cd))
  mcuAnalogAccessory :
    Set.InjOn cd.mcuAnalogAccessory.pack (Set.range (mcuAnalogAccessorySignals cd))
  mcuAnalogUnassigned :
    Set.InjOn cd.mcuAnalogUnassigned.pack (Set.range (mcuAnalogUnassignedSignals cd))
  mcuInputs : Set.InjOn cd.mcuInputs.pack (Set.range mcuInputsSignals)
  protiumPower : Set.InjOn cd.protiumPower.pack (Set.range (protiumPowerSignals cd))
  protiumThermal : Set.InjOn cd.protiumThermal.pack (Set.range (protiumThermalSignals cd))
  protiumHydrogen : Set.InjOn cd.protiumHydrogen.pack (Set.range (protiumHydrogenSignals cd))
  protiumSetpoints : Set.InjOn cd.protiumSetpoints.pack (Set.range (protiumSetpointsSignals cd))
  protiumStasis : Set.InjOn cd.protiumStasis.pack (Set.range (protiumStasisSignals cd))
  protiumMisc : Set.InjOn cd.protiumMisc.pack (Set.range (protiumMiscSignals cd))

/-- two frames of one sender are equal when their structs are -/
theorem CandefMsg.build_eq_iff {S R : Type} {msg : CandefMsg S} {signals : R → S}
    (h : Set.InjOn msg.pack (Set.range signals)) (r r' : R) :
    msg.build (signals r) = msg.build (signals r') ↔ signals r = signals r' := by
  constructor
  · intro heq
    have hdata : (msg.pack (signals r)).toList = (msg.pack (signals r')).toList :=
      congrArg BuiltFrame.data heq
    exact h ⟨r, rfl⟩ ⟨r', rfl⟩ (Vector.toList_inj.mp hdata)
  · intro heq
    rw [heq]

theorem toUInt32_inj {b b' : Bool} : b.toUInt32 = b'.toUInt32 ↔ b = b' := by
  cases b <;> cases b' <;> decide

theorem rawBool_inj {b b' : Bool} : rawBool b = rawBool b' ↔ b = b' := by
  cases b <;> cases b' <;> decide

theorem rawFloat_toUInt32 (b : Bool) : rawFloat b.toUInt32 = rawBool b := by
  cases b <;> rfl

namespace Measurement

theorem forall_iff {p : Measurement → Prop} :
    (∀ n, p n) ↔ p ai1 ∧ p supercapacitorCurrent ∧ p ai3 ∧ p ai4 ∧ p ai5 ∧ p accelPedalVoltage ∧
      p brakePedalVoltage ∧ p accessoryBatteryCurrent ∧ p hydrogenHighPressure ∧
      p hydrogenLeakageSensorVoltage ∧ p fuelCellOutputCurrent ∧ p motorControllerSupplyCurrent ∧
      p accessoryBatteryVoltage ∧ p fuelCellOutputVoltage ∧ p supercapacitorVoltage ∧
      p motorControllerSupplyVoltage ∧ p rpm ∧ p speed ∧ p gasPedal ∧ p startButton ∧
      p deadMansSwitch ∧ p emergencySwitch ∧ p resetButton ∧ p calibrationButton ∧
      p leakageDetected ∧ p shellRelay := by
  constructor
  · intro h
    simp only [h, and_self]
  · intro h n
    cases n <;> simp only [h]

theorem ext {m m' : MasterMeasurements} (h : ∀ n : Measurement, n.get m = n.get m') : m = m' := by
  obtain ⟨_, _, _, _, _, _, _, _, _, _, _, _, _, _, _, _, ⟨⟩, _, _⟩ := m
  obtain ⟨_, _, _, _, _, _, _, _, _, _, _, _, _, _, _, _, ⟨⟩, _, _⟩ := m'
  simp only [Measurement.forall_iff, get, toUInt32_inj] at h
  simp only [h]

theorem signal_eq (cd : Candef) (n : Measurement) (m : MasterMeasurements) :
    n.signal cd m = n.encode cd (n.get m) := by
  cases n <;> first | rfl | exact (rawFloat_toUInt32 _).symm

end Measurement

/-- a frame of measurements tells its own signals apart and no others -/
theorem MeasurementFrame.build_eq_iff {cd : Candef} (h : cd.Injective) (k : MeasurementFrame)
    (m m' : MasterMeasurements) :
    (k.call m).build cd = (k.call m').build cd ↔
      ∀ n : Measurement, n.home = k → n.signal cd m = n.signal cd m' := by
  cases k with
  | speed =>
    refine (CandefMsg.build_eq_iff h.mcuAnalogDrive m m').trans ?_
    simp only [mcuAnalogDriveSignals, McuAnalogDrive.mk.injEq, Measurement.forall_iff,
      Measurement.home, Measurement.signal, reduceCtorEq, IsEmpty.forall_iff, forall_const,
      and_self, and_true, true_and]
  | pedals =>
    refine (CandefMsg.build_eq_iff h.mcuAnalogPedals m m').trans ?_
    simp only [mcuAnalogPedalsSignals, McuAnalogPedals.mk.injEq, Measurement.forall_iff,
      Measurement.home, Measurement.signal, reduceCtorEq, IsEmpty.forall_iff, forall_const,
      and_self, and_true, true_and]
  | powertrain =>
    refine (CandefMsg.build_eq_iff h.mcuAnalogPowertrain m m').trans ?_
    simp only [mcuAnalogPowertrainSignals, McuAnalogPowertrain.mk.injEq, Measurement.forall_iff,
      Measurement.home, Measurement.signal, reduceCtorEq, IsEmpty.forall_iff, forall_const,
      and_self, and_true, true_and]
    tauto
  | fuelCell =>
    refine (CandefMsg.build_eq_iff h.mcuAnalogFuelCell m m').trans ?_
    simp only [mcuAnalogFuelCellSignals, McuAnalogFuelCell.mk.injEq, Measurement.forall_iff,
      Measurement.home, Measurement.signal, reduceCtorEq, IsEmpty.forall_iff, forall_const,
      and_self, and_true, true_and]
    tauto
  | accessory =>
    refine (CandefMsg.build_eq_iff h.mcuAnalogAccessory m m').trans ?_
    simp only [mcuAnalogAccessorySignals, McuAnalogAccessory.mk.injEq, Measurement.forall_iff,
      Measurement.home, Measurement.signal, reduceCtorEq, IsEmpty.forall_iff, forall_const,
      and_self, and_true, true_and]
  | unassigned =>
    refine (CandefMsg.build_eq_iff h.mcuAnalogUnassigned m m').trans ?_
    simp only [mcuAnalogUnassignedSignals, McuAnalogUnassigned.mk.injEq, Measurement.forall_iff,
      Measurement.home, Measurement.signal, reduceCtorEq, IsEmpty.forall_iff, forall_const,
      and_self, and_true, true_and]
  | inputs =>
    refine (CandefMsg.build_eq_iff h.mcuInputs m m').trans ?_
    simp only [mcuInputsSignals, McuInputs.mk.injEq, Measurement.forall_iff, Measurement.home,
      Measurement.signal, rawBool_inj, reduceCtorEq, IsEmpty.forall_iff, forall_const, true_and]
    tauto

namespace ProtiumValue

theorem forall_iff {p : ProtiumValue → Prop} :
    (∀ n, p n) ↔ p fcV ∧ p fcA ∧ p fcW ∧ p energy ∧ p fct1 ∧ p fan ∧ p h2p1 ∧ p h2p2 ∧ p tankP ∧
      p tankT ∧ p vSet ∧ p iSet ∧ p ucbV ∧ p stasisSelector ∧ p stasisV1 ∧ p stasisV2 ∧
      p numberOfCell ∧ p fct2 ∧ p blw ∧ p battV ∧ p ip ∧ p tp := by
  constructor
  · intro h
    simp only [h, and_self]
  · intro h n
    cases n <;> simp only [h]

theorem ext {v v' : ProtiumValues} (h : ∀ n : ProtiumValue, n.get v = n.get v') : v = v' := by
  obtain ⟨⟩ := v
  obtain ⟨⟩ := v'
  simp only [ProtiumValue.forall_iff, get] at h
  simp only [h]

theorem signal_eq (cd : Candef) (n : ProtiumValue) (v : ProtiumValues) :
    n.signal cd v = n.encode cd (n.get v) := by
  cases n <;> rfl

end ProtiumValue

/-- a Protium frame tells its own signals apart and no others -/
theorem ProtiumFrame.build_eq_iff {cd : Candef} (h : cd.Injective) (k : ProtiumFrame)
    (v v' : ProtiumValues) :
    (k.call v).build cd = (k.call v').build cd ↔
      ∀ n : ProtiumValue, n.home = k → n.signal cd v = n.signal cd v' := by
  cases k with
  | power =>
    refine (CandefMsg.build_eq_iff h.protiumPower v v').trans ?_
    simp only [protiumPowerSignals, ProtiumPower.mk.injEq, ProtiumValue.forall_iff,
      ProtiumValue.home, ProtiumValue.signal, reduceCtorEq, IsEmpty.forall_iff, forall_const,
      and_self, and_true]
  | thermal =>
    refine (CandefMsg.build_eq_iff h.protiumThermal v v').trans ?_
    simp only [protiumThermalSignals, ProtiumThermal.mk.injEq, ProtiumValue.forall_iff,
      ProtiumValue.home, ProtiumValue.signal, reduceCtorEq, IsEmpty.forall_iff, forall_const,
      and_self, and_true, true_and]
    tauto
  | hydrogen =>
    refine (CandefMsg.build_eq_iff h.protiumHydrogen v v').trans ?_
    simp only [protiumHydrogenSignals, ProtiumHydrogen.mk.injEq, ProtiumValue.forall_iff,
      ProtiumValue.home, ProtiumValue.signal, reduceCtorEq, IsEmpty.forall_iff, forall_const,
      and_self, and_true, true_and]
  | setpoints =>
    refine (CandefMsg.build_eq_iff h.protiumSetpoints v v').trans ?_
    simp only [protiumSetpointsSignals, ProtiumSetpoints.mk.injEq, ProtiumValue.forall_iff,
      ProtiumValue.home, ProtiumValue.signal, reduceCtorEq, IsEmpty.forall_iff, forall_const,
      and_self, and_true, true_and]
  | stasis =>
    refine (CandefMsg.build_eq_iff h.protiumStasis v v').trans ?_
    simp only [protiumStasisSignals, ProtiumStasis.mk.injEq, ProtiumValue.forall_iff,
      ProtiumValue.home, ProtiumValue.signal, reduceCtorEq, IsEmpty.forall_iff, forall_const,
      and_self, and_true, true_and]
  | misc =>
    refine (CandefMsg.build_eq_iff h.protiumMisc v v').trans ?_
    simp only [protiumMiscSignals, ProtiumMisc.mk.injEq, ProtiumValue.forall_iff,
      ProtiumValue.home, ProtiumValue.signal, reduceCtorEq, IsEmpty.forall_iff, forall_const,
      true_and]

/-- what fits a frame is split in the same way on the queue -/
theorem queued_split {cd : Candef} (h : cd.Injective) :
    (∀ (k : MeasurementFrame) m m', ((k.call m).build cd).data.length ≤ 8 →
        ((k.call m').build cd).data.length ≤ 8 →
        ((k.call m).frame cd = (k.call m').frame cd ↔
          ∀ n : Measurement, n.home = k → n.signal cd m = n.signal cd m')) ∧
      ∀ (k : ProtiumFrame) v v', ((k.call v).build cd).data.length ≤ 8 →
        ((k.call v').build cd).data.length ≤ 8 →
        ((k.call v).frame cd = (k.call v').frame cd ↔
          ∀ n : ProtiumValue, n.home = k → n.signal cd v = n.signal cd v') := by
  constructor
  · intro k m m' hm hm'
    exact (Call.frame_eq_iff hm hm').trans (MeasurementFrame.build_eq_iff h k m m')
  · intro k v v' hv hv'
    exact (Call.frame_eq_iff hv hv').trans (ProtiumFrame.build_eq_iff h k v v')

/-- **The split of the telemetry into frames is complete and free of cross-talk**: messages that
differ anywhere differ in a frame, and a field alone changes one frame alone, in the signal of its
name alone. -/
theorem telemetry_split (cd : Candef) (h : cd.Injective) :
    Split.Exact (fun (n : Measurement) m => n.get m) (fun n m => n.signal cd m) Measurement.home
        (fun (k : MeasurementFrame) m => (k.call m).build cd) ∧
      Split.Exact (fun (n : ProtiumValue) v => n.get v) (fun n v => n.signal cd v) ProtiumValue.home
        (fun (k : ProtiumFrame) v => (k.call v).build cd) :=
  ⟨.of_encode (fun n => n.encode cd) (fun _ _ => Measurement.ext) (Measurement.signal_eq cd)
      h.measurement (MeasurementFrame.build_eq_iff h),
    .of_encode (fun n => n.encode cd) (fun _ _ => ProtiumValue.ext) (ProtiumValue.signal_eq cd)
      h.protium (ProtiumFrame.build_eq_iff h)⟩

/-! ## a concrete library -/

/-- a message of `n` signals with four little-endian bytes each -/
def wideMsg {S : Type} (id : UInt32) (n : Nat) (raws : S → List Int) : CandefMsg S where
  frameId := id
  length := 4 * n
  pack := fun s => Vector.ofFn fun i : Fin (4 * n) =>
    byteOf ((raws s).getD (i.val / 4) 0 / 256 ^ (i.val % 4))

/-- `Candef.bytewise` with room for all 32 bits of a float -/
def Candef.wide : Candef :=
  { Candef.bytewise with
    mcuAnalogDrive := wideMsg 0x107 2 fun s => [s.rpm, s.speed]
    mcuAnalogPedals := wideMsg 0x103 2 fun s => [s.accelerationPedalVoltage, s.brakePedalVoltage]
    mcuAnalogPowertrain := wideMsg 0x105 4 fun s =>
      [s.supercapacitorVoltage, s.supercapacitorCurrent, s.motorControllerSupplyCurrent,
        s.motorControllerSupplyVoltage]
    mcuAnalogFuelCell := wideMsg 0x104 4 fun s =>
      [s.fuelCellOutputCurrent, s.fuelCellOutputVoltage, s.hydrogenHighPressure,
        s.hydrogenLeakageSensorVoltage]
    mcuAnalogAccessory := wideMsg 0x106 2 fun s =>
      [s.accessoryBatteryCurrent, s.accessoryBatteryVoltage]
    mcuAnalogUnassigned := wideMsg 0x108 4 fun s => [s.ai1, s.ai3, s.ai4, s.ai5]
    protiumPower := wideMsg 0x200 4 fun s => [s.fcV, s.fcA, s.fcW, s.energy]
    protiumThermal := wideMsg 0x201 4 fun s => [s.fct1, s.fct2, s.fan, s.blw]
    protiumHydrogen := wideMsg 0x202 4 fun s => [s.h2P1, s.h2P2, s.tankP, s.tankT]
    protiumSetpoints := wideMsg 0x203 4 fun s => [s.vSet, s.iSet, s.ucbV, s.numberOfCells]
    protiumStasis := wideMsg 0x204 4 fun s => [s.stasisSelector, s.stasisV1, s.stasisV2, s.battV]
    protiumMisc := wideMsg 0x205 2 fun s => [s.ip, s.tp] }

theorem byteOf_inj {a b : Int} (h : byteOf a = byteOf b) : a % 256 = b % 256 := by
  have hnat : (byteOf a).toNat = (byteOf b).toNat := congrArg UInt8.toNat h
  unfold byteOf at hnat
  rw [UInt8.toNat_ofNat', UInt8.toNat_ofNat'] at hnat
  omega

/-- a word is given by its four bytes -/
theorem rawFloat_eq_of_bytes {x y : UInt32}
    (h : ∀ i < 4, byteOf (rawFloat x / 256 ^ i) = byteOf (rawFloat y / 256 ^ i)) :
    rawFloat x = rawFloat y := by
  have h0 := byteOf_inj (h 0 (by decide))
  have h1 := byteOf_inj (h 1 (by decide))
  have h2 := byteOf_inj (h 2 (by decide))
  have h3 := byteOf_inj (h 3 (by decide))
  have hx := x.toNat_lt
  have hy := y.toNat_lt
  unfold rawFloat at *
  omega

/-- such a message tells apart the structs whose signals are floats as they came -/
theorem wideMsg_injOn {S R : Type} {msg : CandefMsg S} {signals : R → S} {id : UInt32} {n : Nat}
    (raws : S → List Int) (values : R → List UInt32) (hmsg : msg = wideMsg id n raws)
    (hraws : ∀ r, raws (signals r) = (values r).map rawFloat) (hlen : ∀ r, (values r).length = n)
    (hinj : ∀ s s', raws s = raws s' → s = s') : Set.InjOn msg.pack (Set.range signals) := by
  subst hmsg
  rintro _ ⟨r, rfl⟩ _ ⟨r', rfl⟩ h
  have hbyte : ∀ k : Fin (4 * n),
      byteOf ((raws (signals r)).getD (k.val / 4) 0 / 256 ^ (k.val % 4)) =
        byteOf ((raws (signals r')).getD (k.val / 4) 0 / 256 ^ (k.val % 4)) := by
    intro k
    have hk := congrArg (fun v : Vector UInt8 (4 * n) => v[k]) h
    simpa [wideMsg] using hk
  have hvalue : ∀ j (hj : j < n), ∀ r,
      (raws (signals r)).getD j 0 = rawFloat ((values r).get ⟨j, hlen r ▸ hj⟩) := by
    intro j hj r
    rw [hraws, List.getD_eq_getElem?_getD, List.getElem?_map,
      List.getElem?_eq_getElem (hlen r ▸ hj)]
    rfl
  refine hinj _ _ ?_
  rw [hraws, hraws]
  refine List.ext_getElem (by rw [List.length_map, List.length_map, hlen, hlen]) fun j hj hj' => ?_
  have hjn : j < n := by rwa [List.length_map, hlen] at hj
  rw [List.getElem_map, List.getElem_map]
  refine rawFloat_eq_of_bytes fun i hi => ?_
  have hdiv : (4 * j + i) / 4 = j := by omega
  have hmod : (4 * j + i) % 4 = i := by omega
  have hi' := hbyte ⟨4 * j + i, by omega⟩
  rw [hdiv, hmod, hvalue j hjn, hvalue j hjn] at hi'
  exact hi'

theorem bitsOf_inj {l l' : List Bool} (hlen : l.length = l'.length) (h8 : l.length ≤ 8)
    (h : bitsOf l = bitsOf l') : l = l' := by
  refine List.ext_getElem hlen fun j hj hj' => ?_
  have hbit := congrArg (fun b : UInt8 => b.toNat.testBit j) h
  simp only [bitsOf_testBit _ (Nat.lt_of_lt_of_le hj h8)] at hbit
  rwa [List.getD_eq_getElem?_getD, List.getD_eq_getElem?_getD, List.getElem?_eq_getElem hj,
    List.getElem?_eq_getElem hj'] at hbit

/-- the flags in the order of their bits -/
def McuInputs.flags (s : McuInputs) : List Bool :=
  [s.emergencySwitch, s.deadMansSwitch, s.leakageDetected, s.shellRelay, s.startButton,
    s.resetButton, s.calibrationButton, s.gasPedal]

theorem bytewise_mcuInputs_pack (s : McuInputs) :
    Candef.bytewise.mcuInputs.pack s = #v[bitsOf s.flags] := rfl

theorem bytewise_mcuInputs_injOn (A : Set McuInputs) :
    Set.InjOn Candef.bytewise.mcuInputs.pack A := by
  intro s _ s' _ h
  rw [bytewise_mcuInputs_pack, bytewise_mcuInputs_pack] at h
  have hbyte : bitsOf s.flags = bitsOf s'.flags :=
    List.singleton_inj.mp (congrArg Vector.toList h)
  have hflags : s.flags = s'.flags := bitsOf_inj rfl (Nat.le_refl 8) hbyte
  obtain ⟨⟩ := s
  obtain ⟨⟩ := s'
  simpa [McuInputs.flags] using hflags

theorem rawFloat_injective : Function.Injective rawFloat :=
  fun _ _ h => UInt32.toNat_inj.mp (Int.ofNat.inj h)

theorem Candef.wide_injective : Candef.wide.Injective where
  measurement n := by cases n <;> exact rawFloat_injective
  protium n := by cases n <;> exact rawFloat_injective
  mcuAnalogDrive := wideMsg_injOn (fun s => [s.rpm, s.speed])
    (fun m => [m.rpm, m.speed]) rfl (fun _ => rfl) (fun _ => rfl)
    (by rintro ⟨⟩ ⟨⟩ h; simpa using h)
  mcuAnalogPedals := wideMsg_injOn (fun s => [s.accelerationPedalVoltage, s.brakePedalVoltage])
    (fun m => [m.accelPedalVoltage, m.brakePedalVoltage]) rfl (fun _ => rfl) (fun _ => rfl)
    (by rintro ⟨⟩ ⟨⟩ h; simpa using h)
  mcuAnalogPowertrain := wideMsg_injOn
    (fun s =>
      [s.supercapacitorVoltage, s.supercapacitorCurrent,
        s.motorControllerSupplyCurrent, s.motorControllerSupplyVoltage])
    (fun m =>
      [m.supercapacitorVoltage, m.supercapacitorCurrent,
        m.motorControllerSupplyCurrent, m.motorControllerSupplyVoltage])
    rfl (fun _ => rfl) (fun _ => rfl) (by rintro ⟨⟩ ⟨⟩ h; simpa using h)
  mcuAnalogFuelCell := wideMsg_injOn
    (fun s =>
      [s.fuelCellOutputCurrent, s.fuelCellOutputVoltage,
        s.hydrogenHighPressure, s.hydrogenLeakageSensorVoltage])
    (fun m =>
      [m.fuelCellOutputCurrent, m.fuelCellOutputVoltage,
        m.hydrogenHighPressure, m.hydrogenLeakageSensorVoltage])
    rfl (fun _ => rfl) (fun _ => rfl) (by rintro ⟨⟩ ⟨⟩ h; simpa using h)
  mcuAnalogAccessory := wideMsg_injOn
    (fun s => [s.accessoryBatteryCurrent, s.accessoryBatteryVoltage])
    (fun m => [m.accessoryBatteryCurrent, m.accessoryBatteryVoltage])
    rfl (fun _ => rfl) (fun _ => rfl) (by rintro ⟨⟩ ⟨⟩ h; simpa using h)
  mcuAnalogUnassigned := wideMsg_injOn (fun s => [s.ai1, s.ai3, s.ai4, s.ai5])
    (fun m => [m.ai1, m.ai3, m.ai4, m.ai5]) rfl (fun _ => rfl) (fun _ => rfl)
    (by rintro ⟨⟩ ⟨⟩ h; simpa using h)
  mcuInputs := bytewise_mcuInputs_injOn _
  protiumPower := wideMsg_injOn (fun s => [s.fcV, s.fcA, s.fcW, s.energy])
    (fun v => [v.fcV, v.fcA, v.fcW, v.energy]) rfl (fun _ => rfl) (fun _ => rfl)
    (by rintro ⟨⟩ ⟨⟩ h; simpa using h)
  protiumThermal := wideMsg_injOn (fun s => [s.fct1, s.fct2, s.fan, s.blw])
    (fun v => [v.fct1, v.fct2, v.fan, v.blw]) rfl (fun _ => rfl) (fun _ => rfl)
    (by rintro ⟨⟩ ⟨⟩ h; simpa using h)
  protiumHydrogen := wideMsg_injOn (fun s => [s.h2P1, s.h2P2, s.tankP, s.tankT])
    (fun v => [v.h2p1, v.h2p2, v.tankP, v.tankT]) rfl (fun _ => rfl) (fun _ => rfl)
    (by rintro ⟨⟩ ⟨⟩ h; simpa using h)
  protiumSetpoints := wideMsg_injOn (fun s => [s.vSet, s.iSet, s.ucbV, s.numberOfCells])
    (fun v => [v.vSet, v.iSet, v.ucbV, v.numberOfCell]) rfl (fun _ => rfl) (fun _ => rfl)
    (by rintro ⟨⟩ ⟨⟩ h; simpa using h)
  protiumStasis := wideMsg_injOn (fun s => [s.stasisSelector, s.stasisV1, s.stasisV2, s.battV])
    (fun v => [v.stasisSelector, v.stasisV1, v.stasisV2, v.battV]) rfl (fun _ => rfl) (fun _ => rfl)
    (by rintro ⟨⟩ ⟨⟩ h; simpa using h)
  protiumMisc := wideMsg_injOn (fun s => [s.ip, s.tp])
    (fun v => [v.ip, v.tp]) rfl (fun _ => rfl) (fun _ => rfl)
    (by rintro ⟨⟩ ⟨⟩ h; simpa using h)

theorem telemetry_split_wide :
    Split.Exact (fun (n : Measurement) m => n.get m) (fun n m => n.signal Candef.wide m)
        Measurement.home (fun (k : MeasurementFrame) m => (k.call m).build Candef.wide) ∧
      Split.Exact (fun (n : ProtiumValue) v => n.get v) (fun n v => n.signal Candef.wide v)
        ProtiumValue.home (fun (k : ProtiumFrame) v => (k.call v).build Candef.wide) :=
  telemetry_split Candef.wide Candef.wide_injective

end CCU
