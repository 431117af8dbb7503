import Mathlib.Data.Nat.Bitwise
import CanConverter.Frames.Split

/-!
# The digital inputs, from the register to the frame

The master reads its pins as one register, from which `digital_inputs_from_raw` of master_helpers.h
makes the message; `send_mcu_inputs` copies its flags by name into a frame that has them in another
order.

* `fromRaw_eq_iff`     the message tells the low byte of the register, and nothing else;
* `existsUnique_raw`   every message is that of one byte;
* `register_to_frame`  so it is with the frame.
-/

namespace CCU

/-- `(raw & (1u << k)) != 0u` -/
def rawBit (raw k : UInt32) : Bool := raw &&& (1 <<< k) != 0

def digitalInputsFromRaw (raw : UInt32) : DigitalInputs where
  gasPedal := rawBit raw 0
  startButton := rawBit raw 1
  deadMansSwitch := rawBit raw 2
  emergencySwitch := rawBit raw 3
  resetButton := rawBit raw 4
  calibrationButton := rawBit raw 5
  leakageDetected := rawBit raw 6
  shellRelay := rawBit raw 7

/-- DIN1 to DIN8 -/
def DigitalInputs.pins (d : DigitalInputs) : List Bool :=
  [d.gasPedal, d.startButton, d.deadMansSwitch, d.emergencySwitch, d.resetButton,
    d.calibrationButton, d.leakageDetected, d.shellRelay]

theorem DigitalInputs.pins_inj {d d' : DigitalInputs} (h : d.pins = d'.pins) : d = d' := by
  obtain ⟨⟩ := d
  obtain ⟨⟩ := d'
  simpa [pins] using h

theorem rawBit_eq (raw : UInt32) {k : UInt32} (hk : k.toNat < 32) :
    rawBit raw k = raw.toNat.testBit k.toNat := by
  have hshift : ((1 : UInt32) <<< k).toNat = 2 ^ k.toNat := by
    rw [UInt32.toNat_shiftLeft, Nat.mod_eq_of_lt hk, UInt32.toNat_one, Nat.one_shiftLeft,
      Nat.mod_eq_of_lt (Nat.pow_lt_pow_right (by omega) hk)]
  have hand : (raw &&& (1 <<< k)).toNat = (raw.toNat.testBit k.toNat).toNat * 2 ^ k.toNat := by
    rw [UInt32.toNat_and, hshift, Nat.and_two_pow]
  have hpos := Nat.two_pow_pos k.toNat
  unfold rawBit
  cases hb : raw.toNat.testBit k.toNat with
  | false =>
    rw [hb, Bool.toNat_false, Nat.zero_mul] at hand
    rw [UInt32.toNat_inj.mp (hand.trans UInt32.toNat_zero.symm)]
    rfl
  | true =>
    rw [hb, Bool.toNat_true, Nat.one_mul] at hand
    refine bne_iff_ne.mpr fun h0 => ?_
    rw [h0, UInt32.toNat_zero] at hand
    omega

theorem pins_fromRaw (raw : UInt32) :
    (digitalInputsFromRaw raw).pins = (List.range 8).map raw.toNat.testBit := by
  unfold digitalInputsFromRaw DigitalInputs.pins
  rw [rawBit_eq raw (k := 0) (by decide), rawBit_eq raw (k := 1) (by decide),
    rawBit_eq raw (k := 2) (by decide), rawBit_eq raw (k := 3) (by decide),
    rawBit_eq raw (k := 4) (by decide), rawBit_eq raw (k := 5) (by decide),
    rawBit_eq raw (k := 6) (by decide), rawBit_eq raw (k := 7) (by decide)]
  rfl

/-- **the message tells the low byte of the register** -/
theorem fromRaw_eq_iff (raw raw' : UInt32) :
    digitalInputsFromRaw raw = digitalInputsFromRaw raw' ↔ raw % 256 = raw' % 256 := by
  have hmod : raw % 256 = raw' % 256 ↔ raw.toNat % 2 ^ 8 = raw'.toNat % 2 ^ 8 := by
    rw [← UInt32.toNat_inj, UInt32.toNat_mod, UInt32.toNat_mod]
    rfl
  rw [hmod]
  constructor
  · intro h
    have hbits : ∀ j < 8, raw.toNat.testBit j = raw'.toNat.testBit j := by
      have hpins := congrArg DigitalInputs.pins h
      rw [pins_fromRaw, pins_fromRaw] at hpins
      exact fun j hj => List.map_inj_left.mp hpins j (List.mem_range.mpr hj)
    refine Nat.eq_of_testBit_eq fun j => ?_
    rw [Nat.testBit_mod_two_pow, Nat.testBit_mod_two_pow]
    by_cases hj : j < 8
    · rw [hbits j hj]
    · rw [decide_eq_false hj, Bool.false_and, Bool.false_and]
  · intro h
    refine DigitalInputs.pins_inj ?_
    rw [pins_fromRaw, pins_fromRaw]
    refine List.map_inj_left.mpr fun j hj => ?_
    have hj8 : j < 8 := List.mem_range.mp hj
    have hbit := congrArg (fun n => n.testBit j) h
    simpa only [Nat.testBit_mod_two_pow, decide_eq_true hj8, Bool.true_and] using hbit

/-- the byte whose bits are the flags -/
theorem fromRaw_bitsOf (d : DigitalInputs) :
    digitalInputsFromRaw (bitsOf d.pins).toUInt32 = d := by
  refine DigitalInputs.pins_inj ?_
  rw [pins_fromRaw, UInt8.toNat_toUInt32]
  refine List.ext_getElem rfl fun j hj hj' => ?_
  rw [List.getElem_map, List.getElem_range, bitsOf_testBit d.pins hj',
    List.getD_eq_getElem?_getD, List.getElem?_eq_getElem hj', Option.getD_some]

/-- **every message is that of one byte** -/
theorem existsUnique_raw (d : DigitalInputs) :
    ∃! raw : UInt32, raw < 256 ∧ digitalInputsFromRaw raw = d := by
  refine ⟨(bitsOf d.pins).toUInt32, ⟨?_, fromRaw_bitsOf d⟩, ?_⟩
  · exact (bitsOf d.pins).toNat_lt
  · rintro raw ⟨hlt, hraw⟩
    have hmod := (fromRaw_eq_iff raw (bitsOf d.pins).toUInt32).mp
      (hraw.trans (fromRaw_bitsOf d).symm)
    have hbyte : (bitsOf d.pins).toUInt32 < 256 := (bitsOf d.pins).toNat_lt
    rwa [UInt32.mod_eq_of_lt hlt, UInt32.mod_eq_of_lt hbyte] at hmod

theorem mcuInputsSignals_eq_iff (m m' : MasterMeasurements) :
    mcuInputsSignals m = mcuInputsSignals m' ↔ m.din = m'.din := by
  constructor
  · intro h
    refine DigitalInputs.pins_inj ?_
    unfold DigitalInputs.pins
    rw [show m.din.gasPedal = m'.din.gasPedal from congrArg McuInputs.gasPedal h,
      show m.din.startButton = m'.din.startButton from congrArg McuInputs.startButton h,
      show m.din.deadMansSwitch = m'.din.deadMansSwitch from congrArg McuInputs.deadMansSwitch h,
      show m.din.emergencySwitch = m'.din.emergencySwitch from congrArg McuInputs.emergencySwitch h,
      show m.din.resetButton = m'.din.resetButton from congrArg McuInputs.resetButton h,
      show m.din.calibrationButton = m'.din.calibrationButton from
        congrArg McuInputs.calibrationButton h,
      show m.din.leakageDetected = m'.din.leakageDetected from congrArg McuInputs.leakageDetected h,
      show m.din.shellRelay = m'.din.shellRelay from congrArg McuInputs.shellRelay h]
  · intro h
    unfold mcuInputsSignals
    rw [h]

/-- the measurements with the pins of a register -/
def MasterMeasurements.withRegister (m : MasterMeasurements) (raw : UInt32) : MasterMeasurements :=
  { m with din := digitalInputsFromRaw raw }

/-- **From the register to the frame**: two registers give the same MCU_INPUTS frame exactly if
their low bytes are the same, and every MCU_INPUTS frame is that of exactly one byte. -/
theorem register_to_frame (cd : Candef)
    (h : Set.InjOn cd.mcuInputs.pack (Set.range mcuInputsSignals)) :
    (∀ (m m' : MasterMeasurements) (raw raw' : UInt32),
      (Call.sendMcuInputs (m.withRegister raw)).build cd =
          (Call.sendMcuInputs (m'.withRegister raw')).build cd ↔ raw % 256 = raw' % 256) ∧
    ∀ m : MasterMeasurements, ∃! raw : UInt32, raw < 256 ∧ ∀ m' : MasterMeasurements,
      (Call.sendMcuInputs (m'.withRegister raw)).build cd = (Call.sendMcuInputs m).build cd := by
  have hbuild (m m' : MasterMeasurements) : (Call.sendMcuInputs m).build cd =
      (Call.sendMcuInputs m').build cd ↔ m.din = m'.din :=
    (CandefMsg.build_eq_iff h m m').trans (mcuInputsSignals_eq_iff m m')
  constructor
  · intro m m' raw raw'
    exact (hbuild _ _).trans (fromRaw_eq_iff raw raw')
  · intro m
    obtain ⟨raw, ⟨hlt, hraw⟩, hunique⟩ := existsUnique_raw m.din
    refine ⟨raw, ⟨hlt, fun m' => (hbuild _ _).mpr hraw⟩, ?_⟩
    rintro raw' ⟨hlt', hraw'⟩
    exact hunique raw' ⟨hlt', (hbuild _ _).mp (hraw' m)⟩

theorem register_to_frame_bytewise :
    (Call.sendMcuInputs (MasterMeasurements.withRegister {} 0x1FF)).build Candef.bytewise =
        (Call.sendMcuInputs (MasterMeasurements.withRegister {} 0xFF)).build Candef.bytewise ∧
      (Call.sendMcuInputs (MasterMeasurements.withRegister {} 0x1FF)).build Candef.bytewise ≠
        (Call.sendMcuInputs (MasterMeasurements.withRegister {} 0x7F)).build Candef.bytewise := by
  have h := (register_to_frame Candef.bytewise (bytewise_mcuInputs_injOn _)).1 {} {} 0x1FF
  exact ⟨(h 0xFF).mpr (by decide), fun heq => absurd ((h 0x7F).mp heq) (by decide)⟩

end CCU
