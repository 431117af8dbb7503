import CanConverter.Lib.Cobs

/-!
# `cobs_encode` of the RS485 tester

The loop keeps the bytes encoded so far, the start of the current block and its code.  A block is
written out at a zero of the data or when its code reaches `0xFF`; the last one after the loop.

* `Prefixes e pre`    whatever segment follows, `e` adds the data `pre` in front of what it decodes to;
* `Loop.step`         one round of the loop keeps the invariant `Loop`;
* `cobsEncode_spec`   the output has no zero and decodes to the input.
-/

namespace CCU
open Cobs

/-- the variables of the loop -/
structure CobsEnc where
  encoded : List UInt8 := []
  blockStart : Nat := 0
  code : Nat := 1
deriving DecidableEq

/-- `data[start:stop]` -/
def slice (data : List UInt8) (start stop : Nat) : List UInt8 :=
  (data.drop start).take (stop - start)

/-- `encoded.append(code)`, `encoded.extend(…)` -/
def CobsEnc.emit (st : CobsEnc) (code : Nat) (block : List UInt8) : List UInt8 :=
  st.encoded ++ [UInt8.ofNat code] ++ block

/-- the body of the loop, for `i` -/
def cobsRound (data : List UInt8) (st : CobsEnc) (i : Nat) : CobsEnc :=
  if data.getD i 0 = 0 then
    { encoded := st.emit st.code (slice data st.blockStart i), blockStart := i + 1, code := 1 }
  else if st.code + 1 = 0xFF then
    { encoded := st.emit (st.code + 1) (slice data st.blockStart (i + 1)), blockStart := i + 1,
      code := 1 }
  else { st with code := st.code + 1 }

def cobsLoop (data : List UInt8) (n : Nat) : CobsEnc := (List.range n).foldl (cobsRound data) {}

def cobsEncode (data : List UInt8) : List UInt8 :=
  let st := cobsLoop data data.length
  st.emit st.code (data.drop st.blockStart)

/-- what `send_frame` writes to the port -/
def sendFrame (encodedData : List UInt8) : List UInt8 := encodedData ++ [0, 0]

theorem cobsLoop_succ (data : List UInt8) (n : Nat) :
    cobsLoop data (n + 1) = cobsRound data (cobsLoop data n) n := by
  unfold cobsLoop
  rw [List.range_succ, List.foldl_append]
  rfl

/-! ## complete blocks -/

/-- whatever segment follows, `e` adds the data `pre` in front -/
def Prefixes (e pre : List UInt8) : Prop :=
  ∀ tl p, decode tl = some p → decode (e ++ tl) = some (pre ++ p)

theorem Prefixes.nil : Prefixes [] [] := fun _ _ h => h

theorem Prefixes.append {e e' pre pre' : List UInt8} (h : Prefixes e pre) (h' : Prefixes e' pre') :
    Prefixes (e ++ e') (pre ++ pre') := by
  intro tl p ht
  rw [List.append_assoc, List.append_assoc]
  exact h _ _ (h' _ _ ht)

theorem toNat_ofNat_code {n : Nat} (h : n < 256) : (UInt8.ofNat n).toNat = n := by
  rw [UInt8.toNat_ofNat']
  exact Nat.mod_eq_of_lt h

theorem ofNat_code_ne_zero {n : Nat} (h0 : 0 < n) (h : n < 256) : UInt8.ofNat n ≠ 0 := by
  intro hz
  have hn := toNat_ofNat_code h
  rw [hz] at hn
  have h1 : (0 : UInt8).toNat = 0 := rfl
  omega

theorem Prefixes.block {code : Nat} {block : List UInt8} (h0 : 0 < code) (h : code < 256)
    (hlen : block.length = code - 1) :
    Prefixes ([UInt8.ofNat code] ++ block) (block ++ gap (UInt8.ofNat code)) := by
  intro tl p ht
  have hl : block.length = (UInt8.ofNat code).toNat - 1 := by rw [toNat_ofNat_code h, hlen]
  exact decode_block (ofNat_code_ne_zero h0 h) hl ht

theorem gap_ofNat_of_lt {n : Nat} (h : n < 0xFF) : gap (UInt8.ofNat n) = [0] := by
  refine if_neg fun hc => ?_
  have hn := toNat_ofNat_code (show n < 256 by omega)
  rw [hc] at hn
  have h1 : (0xFF : UInt8).toNat = 255 := rfl
  omega

/-! ## slices of the data -/

section
variable {data : List UInt8} {a i : Nat}

theorem length_slice (hi : i ≤ data.length) : (slice data a i).length = i - a := by
  unfold slice
  rw [List.length_take, List.length_drop]
  omega

theorem take_append_slice (h : a ≤ i) : data.take a ++ slice data a i = data.take i := by
  unfold slice
  rw [← List.take_append_drop a (data.take i), List.take_take, Nat.min_eq_left h,
    List.drop_take]

theorem slice_succ (h : a ≤ i) (hi : i < data.length) :
    slice data a (i + 1) = slice data a i ++ [data.getD i 0] := by
  unfold slice
  have hd : i - a < (data.drop a).length := by
    rw [List.length_drop]
    omega
  rw [show i + 1 - a = (i - a) + 1 by omega, List.take_succ_eq_append_getElem hd,
    List.getElem_drop, List.getD_eq_getElem?_getD, List.getElem?_eq_getElem hi]
  congr 3
  omega

theorem slice_length : slice data a data.length = data.drop a := by
  unfold slice
  exact List.take_of_length_le (Nat.le_of_eq List.length_drop)

end

/-! ## the invariant of the loop -/

/-- after `i` rounds: the current block has no zero and fits its code, the blocks written out stand
for the data before it -/
structure Loop (data : List UInt8) (i : Nat) (st : CobsEnc) : Prop where
  start_le : st.blockStart ≤ i
  code_eq : st.code = i - st.blockStart + 1
  code_lt : st.code < 0xFF
  block : 0 ∉ slice data st.blockStart i
  encoded : 0 ∉ st.encoded
  pre : Prefixes st.encoded (data.take st.blockStart)

theorem Loop.init (data : List UInt8) : Loop data 0 {} :=
  ⟨Nat.le_refl 0, rfl, by decide, List.not_mem_nil, List.not_mem_nil, Prefixes.nil⟩

theorem CobsEnc.zero_not_mem_emit {st : CobsEnc} {code : Nat} {block : List UInt8}
    (he : 0 ∉ st.encoded) (h0 : 0 < code) (h : code < 256) (hb : 0 ∉ block) :
    0 ∉ st.emit code block := by
  unfold CobsEnc.emit
  rw [List.mem_append, List.mem_append, List.mem_singleton]
  rintro ((hm | hm) | hm)
  · exact he hm
  · exact ofNat_code_ne_zero h0 h hm.symm
  · exact hb hm

theorem Loop.step {data : List UInt8} {i : Nat} {st : CobsEnc} (h : Loop data i st)
    (hi : i < data.length) : Loop data (i + 1) (cobsRound data st i) := by
  obtain ⟨hle, hcode, hlt, hblock, henc, hpre⟩ := h
  have hc0 : 0 < st.code := by omega
  have hlen : (slice data st.blockStart i).length = st.code - 1 := by
    rw [length_slice (Nat.le_of_lt hi)]
    omega
  have hsucc := slice_succ hle hi
  have hone : 1 = i + 1 - (i + 1) + 1 := by omega
  have hnil : slice data (i + 1) (i + 1) = [] := by
    unfold slice
    rw [Nat.sub_self, List.take_zero]
  unfold cobsRound
  split
  · -- a zero of the data ends the block
    rename_i hz
    refine ⟨Nat.le_refl _, hone, Nat.lt_of_sub_eq_succ rfl, ?_, ?_, ?_⟩
    · show 0 ∉ slice data (i + 1) (i + 1)
      rw [hnil]
      exact List.not_mem_nil
    · exact CobsEnc.zero_not_mem_emit henc hc0 (by omega) hblock
    · show Prefixes (st.emit st.code (slice data st.blockStart i)) (data.take (i + 1))
      have hb := hpre.append (Prefixes.block hc0 (by omega) hlen)
      rw [gap_ofNat_of_lt hlt, ← hz, ← hsucc, take_append_slice (by omega),
        ← List.append_assoc] at hb
      exact hb
  · rename_i hz
    have hz' : (0 : UInt8) ≠ data.getD i 0 := fun h0 => hz h0.symm
    have hblock' : 0 ∉ slice data st.blockStart (i + 1) := by
      rw [hsucc, List.mem_append, List.mem_singleton]
      rintro (hm | hm)
      · exact hblock hm
      · exact hz' hm
    split
    · -- the block is full
      rename_i hfull
      refine ⟨Nat.le_refl _, hone, Nat.lt_of_sub_eq_succ rfl, ?_, ?_, ?_⟩
      · show 0 ∉ slice data (i + 1) (i + 1)
        rw [hnil]
        exact List.not_mem_nil
      · exact CobsEnc.zero_not_mem_emit henc (Nat.succ_pos _) (by omega) hblock'
      · show Prefixes (st.emit (st.code + 1) (slice data st.blockStart (i + 1)))
          (data.take (i + 1))
        have hlen' : (slice data st.blockStart (i + 1)).length = st.code + 1 - 1 := by
          rw [length_slice hi]
          omega
        have hb := hpre.append (Prefixes.block (Nat.succ_pos st.code) (by omega) hlen')
        have hgap : gap (UInt8.ofNat (st.code + 1)) = [] := by
          rw [hfull]
          rfl
        rw [hgap, List.append_nil, take_append_slice (by omega), ← List.append_assoc] at hb
        exact hb
    · -- the block grows
      rename_i hfull
      have hcode' : st.code + 1 = i + 1 - st.blockStart + 1 := by omega
      have hlt' : st.code + 1 < 0xFF := by omega
      exact ⟨Nat.le_succ_of_le hle, hcode', hlt', hblock', henc, hpre⟩

theorem Loop.run (data : List UInt8) : ∀ n ≤ data.length, Loop data n (cobsLoop data n) := by
  intro n
  induction n with
  | zero => exact fun _ => Loop.init data
  | succ n ih =>
    intro hn
    rw [cobsLoop_succ]
    exact (ih (Nat.le_of_succ_le hn)).step hn

/-! ## the encoder -/

theorem cobsEncode_ne_nil (data : List UInt8) : cobsEncode data ≠ [] := by
  unfold cobsEncode CobsEnc.emit
  simp

/-- **the output of the encoder has no zero** -/
theorem zero_not_mem_cobsEncode (data : List UInt8) : 0 ∉ cobsEncode data := by
  have h := Loop.run data data.length (Nat.le_refl _)
  have hb := h.block
  rw [slice_length] at hb
  have hc := h.code_eq
  have hlt := h.code_lt
  exact CobsEnc.zero_not_mem_emit h.encoded (by omega) (by omega) hb

/-- **the output of the encoder decodes to its input** -/
theorem decode_cobsEncode (data : List UInt8) : decode (cobsEncode data) = some data := by
  have h := Loop.run data data.length (Nat.le_refl _)
  have hc := h.code_eq
  have hlt := h.code_lt
  have hle := h.start_le
  have hlen : (data.drop (cobsLoop data data.length).blockStart).length =
      (UInt8.ofNat (cobsLoop data data.length).code).toNat - 1 := by
    rw [toNat_ofNat_code (by omega), List.length_drop]
    omega
  have hlast := h.pre _ _ (decode_last (ofNat_code_ne_zero (by omega) (by omega)) hlen)
  rw [List.take_append_drop] at hlast
  unfold cobsEncode CobsEnc.emit
  rw [List.append_assoc]
  exact hlast

end CCU
