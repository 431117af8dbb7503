import Mathlib.Data.List.GetD
import CanConverter.System.Broadcast

/-!
# Faults on their way from RS485 to CAN

`send_mcu_faults` copies eleven of the sixteen flags of the master, some of them twice, and leaves
out five.  `FaultFlag.source` is its mapping read backwards: every flag of the frame has one source.

* `mcuFaultsSignals_get`   a flag of the frame is its source;
* `PacksFaults.frame_bit`  the frame shows a flag in its bit;
* `noFaultLost_iff`        which payloads lose no fault;
* `faults_shown`           the same at every wakeup of every run.
-/

namespace CCU
open Runs

/-- the flags of `MasterFaults` -/
inductive MasterFlag where
  | emgEmergencySwitch | emgDeadMansSwitch | emgLeakageSensorSwitch | emgHydrogenLeakageVoltage
  | errFuelCellOutputVoltage | errFuelCellOutputCurrent | errSupercapacitorVoltage
  | errSupercapacitorCurrent | errMotorControllerSupplyVoltage | errMotorControllerSupplyCurrent
  | errAccessoryBatteryVoltage | errAccessoryBatteryCurrent | errAccelPedalVoltage
  | errBrakePedalVoltage | errHydrogenHighPressure | errSpeed
deriving DecidableEq

/-- the flags of the frame MCU_FAULTS, in the order of its struct -/
inductive FaultFlag where
  | emergencySwitch | emergencyDeadMansSwitch | emergencyLeakageDetected
  | errorFcVLow | errorFcVHigh | errorFcCLow | errorFcCHigh
  | errorScVLow | errorScVHigh | errorScCLow | errorScCHigh
  | errorMcVLow | errorMcVHigh | errorMcCLow | errorMcCHigh
  | errorAbVLow | errorAbVHigh | errorAbCLow | errorAbCHigh
deriving DecidableEq

def MasterFaults.get (f : MasterFaults) : MasterFlag → Bool
  | .emgEmergencySwitch => f.emgEmergencySwitch
  | .emgDeadMansSwitch => f.emgDeadMansSwitch
  | .emgLeakageSensorSwitch => f.emgLeakageSensorSwitch
  | .emgHydrogenLeakageVoltage => f.emgHydrogenLeakageVoltage
  | .errFuelCellOutputVoltage => f.errFuelCellOutputVoltage
  | .errFuelCellOutputCurrent => f.errFuelCellOutputCurrent
  | .errSupercapacitorVoltage => f.errSupercapacitorVoltage
  | .errSupercapacitorCurrent => f.errSupercapacitorCurrent
  | .errMotorControllerSupplyVoltage => f.errMotorControllerSupplyVoltage
  | .errMotorControllerSupplyCurrent => f.errMotorControllerSupplyCurrent
  | .errAccessoryBatteryVoltage => f.errAccessoryBatteryVoltage
  | .errAccessoryBatteryCurrent => f.errAccessoryBatteryCurrent
  | .errAccelPedalVoltage => f.errAccelPedalVoltage
  | .errBrakePedalVoltage => f.errBrakePedalVoltage
  | .errHydrogenHighPressure => f.errHydrogenHighPressure
  | .errSpeed => f.errSpeed

def McuFaults.get (s : McuFaults) : FaultFlag → Bool
  | .emergencySwitch => s.emergencySwitch
  | .emergencyDeadMansSwitch => s.emergencyDeadMansSwitch
  | .emergencyLeakageDetected => s.emergencyLeakageDetected
  | .errorFcVLow => s.errorFcVLow
  | .errorFcVHigh => s.errorFcVHigh
  | .errorFcCLow => s.errorFcCLow
  | .errorFcCHigh => s.errorFcCHigh
  | .errorScVLow => s.errorScVLow
  | .errorScVHigh => s.errorScVHigh
  | .errorScCLow => s.errorScCLow
  | .errorScCHigh => s.errorScCHigh
  | .errorMcVLow => s.errorMcVLow
  | .errorMcVHigh => s.errorMcVHigh
  | .errorMcCLow => s.errorMcCLow
  | .errorMcCHigh => s.errorMcCHigh
  | .errorAbVLow => s.errorAbVLow
  | .errorAbVHigh => s.errorAbVHigh
  | .errorAbCLow => s.errorAbCLow
  | .errorAbCHigh => s.errorAbCHigh

/-- the emergency flags of the master -/
def MasterFlag.IsEmergency (e : MasterFlag) : Prop :=
  e = .emgEmergencySwitch ∨ e = .emgDeadMansSwitch ∨ e = .emgLeakageSensorSwitch ∨
    e = .emgHydrogenLeakageVoltage

/-! ## the mapping -/

/-- the flag of the master that a flag of the frame is copied from -/
def FaultFlag.source : FaultFlag → MasterFlag
  | .emergencySwitch => .emgEmergencySwitch
  | .emergencyDeadMansSwitch => .emgDeadMansSwitch
  | .emergencyLeakageDetected => .emgLeakageSensorSwitch
  | .errorFcVLow | .errorFcVHigh => .errFuelCellOutputVoltage
  | .errorFcCLow | .errorFcCHigh => .errFuelCellOutputCurrent
  | .errorScVLow | .errorScVHigh => .errSupercapacitorVoltage
  | .errorScCLow | .errorScCHigh => .errSupercapacitorCurrent
  | .errorMcVLow | .errorMcVHigh => .errMotorControllerSupplyVoltage
  | .errorMcCLow | .errorMcCHigh => .errMotorControllerSupplyCurrent
  | .errorAbVLow | .errorAbVHigh => .errAccessoryBatteryVoltage
  | .errorAbCLow | .errorAbCHigh => .errAccessoryBatteryCurrent

theorem mcuFaultsSignals_get (f : MasterFaults) (g : FaultFlag) :
    (mcuFaultsSignals f).get g = f.get g.source := by
  cases g <;> rfl

/-- the flags of the master that have a destination in the frame -/
def MasterFlag.Mapped (e : MasterFlag) : Prop := ∃ g : FaultFlag, g.source = e

/-- the flags without a destination -/
def MasterFlag.unmapped : List MasterFlag :=
  [.emgHydrogenLeakageVoltage, .errAccelPedalVoltage, .errBrakePedalVoltage,
    .errHydrogenHighPressure, .errSpeed]

theorem MasterFlag.mapped_iff (e : MasterFlag) : e.Mapped ↔ e ∉ unmapped := by
  constructor
  · rintro ⟨g, rfl⟩
    cases g <;> decide
  · intro h
    cases e with
    | emgEmergencySwitch => exact ⟨.emergencySwitch, rfl⟩
    | emgDeadMansSwitch => exact ⟨.emergencyDeadMansSwitch, rfl⟩
    | emgLeakageSensorSwitch => exact ⟨.emergencyLeakageDetected, rfl⟩
    | errFuelCellOutputVoltage => exact ⟨.errorFcVLow, rfl⟩
    | errFuelCellOutputCurrent => exact ⟨.errorFcCLow, rfl⟩
    | errSupercapacitorVoltage => exact ⟨.errorScVLow, rfl⟩
    | errSupercapacitorCurrent => exact ⟨.errorScCLow, rfl⟩
    | errMotorControllerSupplyVoltage => exact ⟨.errorMcVLow, rfl⟩
    | errMotorControllerSupplyCurrent => exact ⟨.errorMcCLow, rfl⟩
    | errAccessoryBatteryVoltage => exact ⟨.errorAbVLow, rfl⟩
    | errAccessoryBatteryCurrent => exact ⟨.errorAbCLow, rfl⟩
    | emgHydrogenLeakageVoltage => exact absurd (by decide) h
    | errAccelPedalVoltage => exact absurd (by decide) h
    | errBrakePedalVoltage => exact absurd (by decide) h
    | errHydrogenHighPressure => exact absurd (by decide) h
    | errSpeed => exact absurd (by decide) h

/-! ## the packed frame -/

/-- bit `p` of a string of bytes, the low bit of the first byte being bit 0 -/
def bitAt (l : List UInt8) (p : Nat) : Bool := (l.getD (p / 8) 0).toNat.testBit (p % 8)

def CanFrame.bit (frame : CanFrame) (p : Nat) : Bool := bitAt frame.data.toList p

/-- `candef_mcu_faults_pack` writes every flag to the bit `pos` gives it, in a classic frame; as
every flag can be read back, the bits are distinct -/
structure PacksFaults (cd : Candef) (pos : FaultFlag → Nat) : Prop where
  length : cd.mcuFaults.length ≤ 8
  pos_lt : ∀ g, pos g < 8 * cd.mcuFaults.length
  pack : ∀ s g, bitAt (cd.mcuFaults.pack s).toList (pos g) = s.get g

section
variable {cd : Candef} {pos : FaultFlag → Nat}

theorem fillFrame_bit {id : UInt32} {data : List UInt8} {len p : Nat} {frame : CanFrame}
    (h : fillFrame id data len = some frame) (hp : p < 8 * len) :
    frame.bit p = bitAt data p := by
  unfold fillFrame at h
  split at h
  · cases h
  · rename_i hlen
    rw [← Option.some.inj h]
    unfold CanFrame.bit bitAt
    have h8 : p / 8 < 8 := by omega
    have hl : p / 8 < len := by omega
    rw [List.getD_eq_getElem _ _ (by rw [Vector.length_toList]; exact h8), Vector.getElem_toList,
      Vector.getElem_ofFn, if_pos hl]

theorem PacksFaults.frame_isSome (h : PacksFaults cd pos) (f : MasterFaults) :
    ∃ frame, (Call.sendMcuFaults f).frame cd = some frame := by
  have hlen : ¬ cd.mcuFaults.length % 2 ^ 8 > 8 := by
    have h8 := h.length
    omega
  exact ⟨_, if_neg hlen⟩

/-- **the frame shows a flag exactly if the source of the flag is set** -/
theorem PacksFaults.frame_bit (h : PacksFaults cd pos) {f : MasterFaults} {frame : CanFrame}
    (hf : (Call.sendMcuFaults f).frame cd = some frame) (g : FaultFlag) :
    frame.bit (pos g) = f.get g.source := by
  have hlen : cd.mcuFaults.length % 2 ^ 8 = cd.mcuFaults.length :=
    Nat.mod_eq_of_lt (Nat.lt_of_le_of_lt h.length (by decide))
  have hp : pos g < 8 * (cd.mcuFaults.length % 2 ^ 8) := by
    rw [hlen]
    exact h.pos_lt g
  rw [fillFrame_bit hf hp, h.pack, mcuFaultsSignals_get]

/-! ## which payloads lose no fault -/

/-- the frame built from the faults `f` shows some flag if `f` has one, and every emergency flag of
`f` sets a flag of the frame -/
def NoFaultLost (cd : Candef) (pos : FaultFlag → Nat) (f : MasterFaults) : Prop :=
  ∃ frame, (Call.sendMcuFaults f).frame cd = some frame ∧
    ((∃ e, f.get e = true) → ∃ g, frame.bit (pos g) = true) ∧
    ∀ e : MasterFlag, e.IsEmergency → f.get e = true →
      ∃ g, frame.bit (pos g) = true ∧
        ∀ f' frame', f'.get e = true → (Call.sendMcuFaults f').frame cd = some frame' →
          frame'.bit (pos g) = true

/-- the emergency flag without a destination is off, and the error flags without one do not come
alone -/
def ShownFaults (f : MasterFaults) : Prop :=
  f.emgHydrogenLeakageVoltage = false ∧
    ((∃ e ∈ MasterFlag.unmapped, f.get e = true) → ∃ e ∉ MasterFlag.unmapped, f.get e = true)

/-- the payload with the one flag `e` -/
def onlyFlag (e : MasterFlag) : MasterFaults where
  emgEmergencySwitch := e = .emgEmergencySwitch
  emgDeadMansSwitch := e = .emgDeadMansSwitch
  emgLeakageSensorSwitch := e = .emgLeakageSensorSwitch
  emgHydrogenLeakageVoltage := e = .emgHydrogenLeakageVoltage
  errFuelCellOutputVoltage := e = .errFuelCellOutputVoltage
  errFuelCellOutputCurrent := e = .errFuelCellOutputCurrent
  errSupercapacitorVoltage := e = .errSupercapacitorVoltage
  errSupercapacitorCurrent := e = .errSupercapacitorCurrent
  errMotorControllerSupplyVoltage := e = .errMotorControllerSupplyVoltage
  errMotorControllerSupplyCurrent := e = .errMotorControllerSupplyCurrent
  errAccessoryBatteryVoltage := e = .errAccessoryBatteryVoltage
  errAccessoryBatteryCurrent := e = .errAccessoryBatteryCurrent
  errAccelPedalVoltage := e = .errAccelPedalVoltage
  errBrakePedalVoltage := e = .errBrakePedalVoltage
  errHydrogenHighPressure := e = .errHydrogenHighPressure
  errSpeed := e = .errSpeed

theorem onlyFlag_get (e e' : MasterFlag) : (onlyFlag e).get e' = decide (e = e') := by
  cases e' <;> rfl

/-- in terms of the mapping: no unmapped emergency flag, and some mapped flag if any -/
theorem noFaultLost_iff_mapped (h : PacksFaults cd pos) (f : MasterFaults) :
    NoFaultLost cd pos f ↔
      (∀ e : MasterFlag, e.IsEmergency → f.get e = true → e.Mapped) ∧
      ((∃ e, f.get e = true) → ∃ e : MasterFlag, e.Mapped ∧ f.get e = true) := by
  constructor
  · rintro ⟨frame, hf, hany, hemg⟩
    constructor
    · intro e he hset
      obtain ⟨g, _, hg⟩ := hemg e he hset
      -- the payload with this flag alone shows where the flag goes
      obtain ⟨frame', hf'⟩ := h.frame_isSome (onlyFlag e)
      have hb := hg _ frame' (by rw [onlyFlag_get]; exact decide_eq_true rfl) hf'
      rw [h.frame_bit hf', onlyFlag_get] at hb
      exact ⟨g, (of_decide_eq_true hb).symm⟩
    · intro hset
      obtain ⟨g, hg⟩ := hany hset
      rw [h.frame_bit hf] at hg
      exact ⟨g.source, ⟨g, rfl⟩, hg⟩
  · rintro ⟨hemg, hany⟩
    obtain ⟨frame, hf⟩ := h.frame_isSome f
    refine ⟨frame, hf, ?_, ?_⟩
    · intro hset
      obtain ⟨e, ⟨g, rfl⟩, hg⟩ := hany hset
      exact ⟨g, by rw [h.frame_bit hf]; exact hg⟩
    · intro e he hset
      obtain ⟨g, rfl⟩ := hemg e he hset
      refine ⟨g, by rw [h.frame_bit hf]; exact hset, fun f' frame' hset' hf' => ?_⟩
      rw [h.frame_bit hf']
      exact hset'

/-- **which payloads lose no fault** -/
theorem noFaultLost_iff (h : PacksFaults cd pos) (f : MasterFaults) :
    NoFaultLost cd pos f ↔ ShownFaults f := by
  rw [noFaultLost_iff_mapped h]
  simp only [MasterFlag.mapped_iff]
  constructor
  · rintro ⟨hemg, hany⟩
    refine ⟨?_, fun ⟨e, _, he⟩ => hany ⟨e, he⟩⟩
    have hleak : ¬ f.get .emgHydrogenLeakageVoltage = true := fun hset =>
      hemg .emgHydrogenLeakageVoltage (.inr (.inr (.inr rfl))) hset List.mem_cons_self
    exact Bool.eq_false_iff.mpr hleak
  · rintro ⟨hleak, hun⟩
    constructor
    · rintro e (rfl | rfl | rfl | rfl) hset
      · decide
      · decide
      · decide
      · exact absurd (hleak.symm.trans hset) (by decide)
    · rintro ⟨e, he⟩
      by_cases hm : e ∈ MasterFlag.unmapped
      · exact hun ⟨e, hm, he⟩
      · exact ⟨e, hm, he⟩

end

/-! ## every wakeup of every run -/

/-- a pass after a faults payload attempts the faults frame -/
theorem sendMcuFaults_mem_loopActs {d : MasterData} {f : MasterFaults}
    (h : d.latest.faults = some f) (cnt : Counters) :
    .send (.sendMcuFaults f) ∈ loopActs d cnt := by
  have hd : (if d.masterFaultsValid = true then some d.masterFaults else none) = some f := h
  have hg : Call.sendMcuFaults f ∈ group100Hz d := by
    split at hd
    · rename_i hv
      rw [← Option.some.inj hd]
      refine List.mem_append_right _ ?_
      rw [if_pos hv]
      exact List.mem_singleton.mpr rfl
    · cases hd
  exact List.mem_append_left _ (List.mem_append_left _ (List.mem_append_left _
    (send_mem_sends.mpr hg)))

/-- **At every wakeup after a faults payload was accepted**, the frame of the last accepted one is
attempted, and no fault of it is lost exactly if `ShownFaults`. -/
theorem faults_shown (pbDecode : List UInt8 → Option MasterFrame) {cd : Candef}
    {pos : FaultFlag → Nat} (hpk : PacksFaults cd pos) (evs : List Ev) {s : Sys}
    {f : MasterFaults} (h : Runs.run (Sys.step pbDecode cd) {} (evs ++ [.snapshot]) = some s)
    (hf : (Latest.of (accepted pbDecode (received evs))).faults = some f) :
    (∃ acts, s.periodic.pc = .running acts ∧ .send (.sendMcuFaults f) ∈ acts) ∧
      (NoFaultLost cd pos f ↔ ShownFaults f) := by
  refine ⟨?_, noFaultLost_iff hpk f⟩
  obtain ⟨u, hu, hs⟩ := run_snoc_some.mp h
  have ht := Tracks.run hu
  obtain ⟨_, rfl⟩ := Sys.step_snapshot hs
  refine ⟨_, rfl, ?_⟩
  rw [(loopBody_is u.rs485.data ht.cnt).acts]
  exact sendMcuFaults_mem_loopActs (ht.store.latest_eq ▸ hf) _

/-- the bits of `Candef.bytewise` -/
def FaultFlag.pos (g : FaultFlag) : Nat := g.ctorIdx

theorem packsFaults_bytewise : PacksFaults Candef.bytewise FaultFlag.pos := by
  refine ⟨by decide, ?_, ?_⟩
  · intro g
    cases g <;> decide
  · intro s g
    cases g <;> exact bitsOf_testBit _ (by decide)

/-- the master reports the hydrogen leakage voltage -/
def leakageRun : List Ev := [.received hydrogenLeakageBytes, .wake]

theorem faults_shown_leakageRun :
    ∃ s acts, Runs.run (Sys.step sampleDecode Candef.bytewise) {} (leakageRun ++ [.snapshot]) =
        some s ∧
      s.periodic.pc = .running acts ∧
      .send (.sendMcuFaults (onlyFlag .emgHydrogenLeakageVoltage)) ∈ acts ∧
      (NoFaultLost Candef.bytewise FaultFlag.pos (onlyFlag .emgHydrogenLeakageVoltage) ↔
        ShownFaults (onlyFlag .emgHydrogenLeakageVoltage)) := by
  have h := faults_shown sampleDecode packsFaults_bytewise leakageRun
    (f := onlyFlag .emgHydrogenLeakageVoltage) rfl (by decide)
  obtain ⟨⟨acts, hp, hm⟩, hiff⟩ := h
  exact ⟨_, acts, rfl, hp, hm, hiff⟩

/-- the emergency flag of `leakageRun` sets no flag of the frame -/
theorem leakageRun_lost :
    ∃ s frame, Runs.run (Sys.step sampleDecode Candef.bytewise) {} (leakageRun ++ [.snapshot]) =
        some s ∧
      s.periodic.pc = .running [.send (.sendMcuFaults (onlyFlag .emgHydrogenLeakageVoltage))] ∧
      (Call.sendMcuFaults (onlyFlag .emgHydrogenLeakageVoltage)).frame Candef.bytewise =
        some frame ∧
      (∀ g : FaultFlag, frame.bit g.pos = false) ∧
      ¬ NoFaultLost Candef.bytewise FaultFlag.pos (onlyFlag .emgHydrogenLeakageVoltage) := by
  obtain ⟨frame, hf⟩ := packsFaults_bytewise.frame_isSome (onlyFlag .emgHydrogenLeakageVoltage)
  refine ⟨_, frame, rfl, by decide, hf, ?_, ?_⟩
  · intro g
    rw [packsFaults_bytewise.frame_bit hf]
    cases g <;> rfl
  · intro h
    exact absurd ((noFaultLost_iff packsFaults_bytewise _).mp h).1 (by decide)

end CCU
