import Mathlib.Algebra.Group.Nat.Defs
import Mathlib.Data.List.Basic
import Mathlib.Tactic.Common

/-!
# CRC-32 with a running value

`Running crc` says what a caller relies on that feeds data in pieces: the running value over
consecutive pieces is the value of their concatenation.  `crc32` is the reflected CRC with the
polynomial `0xEDB88320` and both complements.

* `crc32_running`   it has a running value.
-/

namespace Crc

/-- `crc data value` continues the value of earlier data -/
structure Running (crc : List UInt8 → Nat → Nat) : Prop where
  append : ∀ a b value, crc (a ++ b) value = crc b (crc a value)
  nil : crc [] 0 = 0
  lt : ∀ a value, crc a value < 2 ^ 32

/-- one bit of the register -/
def bitStep (c : UInt32) : UInt32 := if c &&& 1 = 1 then (c >>> 1) ^^^ 0xEDB88320 else c >>> 1

/-- one byte -/
def byteStep (c : UInt32) (b : UInt8) : UInt32 :=
  bitStep (bitStep (bitStep (bitStep (bitStep (bitStep (bitStep (bitStep (c ^^^ b.toUInt32))))))))

def crc32 (data : List UInt8) (value : Nat) : Nat :=
  (data.foldl byteStep (UInt32.ofNat value ^^^ 0xFFFFFFFF) ^^^ 0xFFFFFFFF).toNat

theorem crc32_running : Running crc32 := by
  refine ⟨?_, by decide, fun a value => UInt32.toNat_lt _⟩
  intro a b value
  unfold crc32
  rw [List.foldl_append, UInt32.ofNat_toNat, UInt32.xor_assoc, UInt32.xor_self, UInt32.xor_zero]

/-- the check value of the ASCII digits 1 to 9 -/
example : crc32 [0x31, 0x32, 0x33, 0x34, 0x35, 0x36, 0x37, 0x38, 0x39] 0 = 0xCBF43926 := by
  decide +kernel

end Crc
