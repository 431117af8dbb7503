import CanConverter.Lib.Chop
import CanConverter.Rs485.Encode

/-!
# The length of what `cobs_encode` returns

`cobsBlocks` is a trace of the loop: what each `encoded.append(code)` appends, and the bytes
`encoded.extend(…)` appends after it.

* `cobsEncode_eq_blocks`   the output is the trace;
* `Counted.step`           the bytes written out so far and the full blocks that are still to come;
* `cobs_overhead`          the length of the output, and the codes in it.
-/

namespace CCU
open Chop

/-- what the body of the loop writes out, for `i` -/
def cobsRoundBlock (data : List UInt8) (st : CobsEnc) (i : Nat) : Option (Nat × List UInt8) :=
  if data.getD i 0 = 0 then some (st.code, slice data st.blockStart i)
  else if st.code + 1 = 0xFF then some (st.code + 1, slice data st.blockStart (i + 1))
  else none

/-- what the first `n` rounds write out -/
def cobsLoopBlocks (data : List UInt8) (n : Nat) : List (Nat × List UInt8) :=
  (List.range n).filterMap fun i => cobsRoundBlock data (cobsLoop data i) i

/-- what `cobs_encode` writes out -/
def cobsBlocks (data : List UInt8) : List (Nat × List UInt8) :=
  let st := cobsLoop data data.length
  cobsLoopBlocks data data.length ++ [(st.code, data.drop st.blockStart)]

/-- a code and the bytes after it -/
def blockBytes (b : Nat × List UInt8) : List UInt8 := UInt8.ofNat b.1 :: b.2

/-- the full blocks of 254 bytes in the stretches between the zeros -/
def fullBlocks (data : List UInt8) : Nat := full 254 0 data

section
variable {data : List UInt8} {i : Nat} {st : CobsEnc}

theorem cobsLoopBlocks_succ (data : List UInt8) (n : Nat) :
    cobsLoopBlocks data (n + 1) =
      cobsLoopBlocks data n ++ (cobsRoundBlock data (cobsLoop data n) n).toList := by
  unfold cobsLoopBlocks
  rw [List.range_succ, List.filterMap_append]
  rfl

theorem cobsRound_encoded (data : List UInt8) (st : CobsEnc) (i : Nat) :
    (cobsRound data st i).encoded =
      st.encoded ++ (cobsRoundBlock data st i).toList.flatMap blockBytes := by
  unfold cobsRound cobsRoundBlock
  split
  · simp [CobsEnc.emit, blockBytes]
  · split
    · simp [CobsEnc.emit, blockBytes]
    · simp

theorem cobsLoop_encoded (data : List UInt8) (n : Nat) :
    (cobsLoop data n).encoded = (cobsLoopBlocks data n).flatMap blockBytes := by
  induction n with
  | zero => rfl
  | succ n ih =>
    rw [cobsLoop_succ, cobsRound_encoded, ih, cobsLoopBlocks_succ, List.flatMap_append]

/-- **the output is the blocks that were written out** -/
theorem cobsEncode_eq_blocks (data : List UInt8) :
    cobsEncode data = (cobsBlocks data).flatMap blockBytes := by
  show (cobsLoop data data.length).emit _ _ = (cobsLoopBlocks data data.length ++ [_]).flatMap _
  unfold CobsEnc.emit
  rw [cobsLoop_encoded, List.flatMap_append, List.append_assoc, List.flatMap_singleton]
  rfl

/-! ## the codes -/

/-- a code fits a byte, and says how many bytes follow -/
def GoodBlock (b : Nat × List UInt8) : Prop := (1 ≤ b.1 ∧ b.1 ≤ 255) ∧ b.2.length = b.1 - 1

theorem Loop.goodBlock (h : Loop data i st) (hi : i < data.length) {b : Nat × List UInt8}
    (hb : cobsRoundBlock data st i = some b) : GoodBlock b := by
  have hle := h.start_le
  have hcode := h.code_eq
  have hlt := h.code_lt
  unfold cobsRoundBlock at hb
  split at hb
  · obtain rfl := Option.some.inj hb
    have hlen : (slice data st.blockStart i).length = i - st.blockStart :=
      length_slice (Nat.le_of_lt hi)
    exact ⟨⟨by omega, by omega⟩, hlen.trans (by omega)⟩
  · split at hb
    · obtain rfl := Option.some.inj hb
      have hlen : (slice data st.blockStart (i + 1)).length = i + 1 - st.blockStart :=
        length_slice hi
      exact ⟨⟨by omega, by omega⟩, hlen.trans (by omega)⟩
    · cases hb

theorem cobsBlocks_good (data : List UInt8) : ∀ b ∈ cobsBlocks data, GoodBlock b := by
  intro b hb
  unfold cobsBlocks at hb
  rcases List.mem_append.mp hb with hb | hb
  · obtain ⟨i, hi, hb⟩ := List.mem_filterMap.mp hb
    have hi := List.mem_range.mp hi
    exact (Loop.run data i (Nat.le_of_lt hi)).goodBlock hi hb
  · have h := Loop.run data data.length (Nat.le_refl _)
    have hle := h.start_le
    have hcode := h.code_eq
    have hlt := h.code_lt
    obtain rfl := List.mem_singleton.mp hb
    have hlen : (data.drop (cobsLoop data data.length).blockStart).length =
        data.length - (cobsLoop data data.length).blockStart := List.length_drop
    exact ⟨⟨by omega, by omega⟩, hlen.trans (by omega)⟩

/-! ## the length -/

/-- after `i` rounds: the data before the current block took one byte more for each full block that
the rest of the data does not have -/
def Counted (data : List UInt8) (i : Nat) (st : CobsEnc) : Prop :=
  st.encoded.length + fullFrom 254 0 (st.code - 1) (data.drop i) =
    st.blockStart + fullBlocks data

theorem Counted.init (data : List UInt8) : Counted data 0 {} := by
  show 0 + fullFrom 254 0 0 data = 0 + fullBlocks data
  rw [fullFrom_zero]
  rfl

theorem CobsEnc.length_emit (st : CobsEnc) (code : Nat) (block : List UInt8) :
    (st.emit code block).length = st.encoded.length + 1 + block.length := by
  unfold CobsEnc.emit
  rw [List.length_append, List.length_append]
  rfl

theorem Counted.step (hc : Counted data i st) (h : Loop data i st) (hi : i < data.length) :
    Counted data (i + 1) (cobsRound data st i) := by
  have hle := h.start_le
  have hcode := h.code_eq
  have hlt := h.code_lt
  have hdrop : data.drop i = data.getD i 0 :: data.drop (i + 1) := by
    rw [List.drop_eq_getElem_cons hi, List.getD_eq_getElem?_getD, List.getElem?_eq_getElem hi]
    rfl
  unfold Counted at hc ⊢
  rw [hdrop] at hc
  unfold cobsRound
  split
  · -- the block ends before it is full
    rename_i hz
    have hlen : (slice data st.blockStart i).length = i - st.blockStart :=
      length_slice (Nat.le_of_lt hi)
    have hdiv : (st.code - 1) / 254 = 0 := Nat.div_eq_of_lt (by omega)
    rw [hz, fullFrom_sep, hdiv] at hc
    show (st.emit _ _).length + fullFrom 254 0 0 (data.drop (i + 1)) = i + 1 + _
    rw [CobsEnc.length_emit, fullFrom_zero]
    omega
  · rename_i hz
    rw [fullFrom_cons hz] at hc
    split
    · -- one more full block
      rename_i hfull
      have hlen : (slice data st.blockStart (i + 1)).length = i + 1 - st.blockStart :=
        length_slice hi
      rw [show st.code - 1 + 1 = 254 by omega, fullFrom_block (by decide)] at hc
      show (st.emit _ _).length + fullFrom 254 0 0 (data.drop (i + 1)) = i + 1 + _
      rw [CobsEnc.length_emit, fullFrom_zero]
      omega
    · rw [show st.code - 1 + 1 = st.code + 1 - 1 by omega] at hc
      exact hc

theorem Counted.run (data : List UInt8) : ∀ n ≤ data.length, Counted data n (cobsLoop data n) := by
  intro n
  induction n with
  | zero => exact fun _ => Counted.init data
  | succ n ih =>
    intro hn
    rw [cobsLoop_succ]
    exact (ih (Nat.le_of_succ_le hn)).step (Loop.run data n (Nat.le_of_succ_le hn)) hn

/-- **one byte of overhead, and one for each full block** -/
theorem length_cobsEncode (data : List UInt8) :
    (cobsEncode data).length = data.length + 1 + fullBlocks data := by
  have h := Loop.run data data.length (Nat.le_refl _)
  have hc := Counted.run data data.length (Nat.le_refl _)
  have hle := h.start_le
  have hcode := h.code_eq
  have hlt := h.code_lt
  unfold Counted at hc
  rw [List.drop_length, fullFrom_nil, Nat.div_eq_of_lt (by omega)] at hc
  unfold cobsEncode
  rw [CobsEnc.length_emit, List.length_drop]
  omega

end

/-- **The overhead of the encoder is one byte and one for each full block of 254 bytes in a stretch
between zeros**, at most as many as without a zero; every code it emits is a byte other than 0. -/
theorem cobs_overhead (data : List UInt8) :
    (cobsEncode data).length = data.length + 1 + fullBlocks data ∧
      (data.length + 1 ≤ (cobsEncode data).length ∧
        (cobsEncode data).length ≤ data.length + 1 + data.length / 254) ∧
      (0 ∉ data → (cobsEncode data).length = data.length + 1 + data.length / 254) ∧
      cobsEncode data = (cobsBlocks data).flatMap blockBytes ∧
      ∀ b ∈ cobsBlocks data, (1 ≤ b.1 ∧ b.1 ≤ 255) ∧ b.2.length = b.1 - 1 := by
  have hlen := length_cobsEncode data
  have hle : fullBlocks data ≤ data.length / 254 := full_le 254 0 data
  refine ⟨hlen, ⟨by omega, by omega⟩, ?_, cobsEncode_eq_blocks data, cobsBlocks_good data⟩
  intro h0
  have hfull : fullBlocks data = data.length / 254 := full_of_not_mem h0
  rw [hlen, hfull]

end CCU
