import Mathlib.Tactic.IntervalCases
import CanConverter.Dfu.Host
import CanConverter.Frames.Send

/-!
# `_decode_frame` of tools/can_test.py

The monitor decodes three messages by their identifier and shows the bytes of the others.  It looks
at `dlc`, but reads `data`.

* `WireFrame.msg`           what python-can makes of a frame: a remote frame keeps its `dlc` and has
                            no data;
* `decodeFrame`             `none` where it raises;
* `decodeFrame_eq_none`     when that is;
* `state_shown_iff`         which states of the master are shown under their names.
-/

namespace CCU

/-- a classic frame on the bus -/
inductive WireFrame where
  | data (id : Nat) (extended : Bool) (bytes : List UInt8) (h : bytes.length ≤ 8)
  | remote (id : Nat) (extended : Bool) (dlc : Nat) (h : dlc ≤ 8)

def WireFrame.msg : WireFrame → CanMsg
  | .data id extended bytes _ => ⟨id, extended, bytes.length, bytes⟩
  | .remote id extended dlc _ => ⟨id, extended, dlc, []⟩

/-- what the driver sends for a `struct can_frame` -/
def CanFrame.onWire (f : CanFrame) : WireFrame :=
  .data f.id.toNat (f.flags &&& canFrameIde != 0) (f.data.toList.take f.dlc)
    (Nat.le_trans (List.length_take_le' _ _) (Nat.le_of_eq f.data.length_toList))

/-! ## the texts -/

def ccuStatusNames : List (Nat × String) :=
  [(0, "INIT"), (1, "OPERATIONAL"), (2, "WARNING"), (3, "BUS_OFF"), (4, "DFU")]

def dfuStatusNames : List (Nat × String) :=
  [(0, "OK"), (1, "CRC_FAIL"), (2, "WRITE_FAIL"), (3, "SEQ_FAIL")]

/-- `states` in the branch of MCU_STATE -/
def mcuStates : List (Nat × String) :=
  [(0, "INIT"), (1, "IDLE"), (2, "STARTING"), (3, "SHUTTING_DOWN"), (4, "RUNNING")]

def hexDigit (n : Nat) : Char := "0123456789ABCDEF".toList.getD n '0'

/-- the format `02X` of a byte -/
def hex02 (b : UInt8) : String := String.ofList [hexDigit (b.toNat / 16), hexDigit (b.toNat % 16)]

/-- what is shown for a number that is in no table -/
def unknownMarker (shown : String) : String := "?(" ++ shown ++ ")"

/-- `states.get(status, …)` -/
def nameOf (names : List (Nat × String)) (n : Nat) (shown : String) : String :=
  (names.lookup n).getD (unknownMarker shown)

def ccuStatusId : Nat := 0x10F
def mcuStateId : Nat := 0x100

/-- the text for a message -/
def decodeFrame (msg : CanMsg) : Option String :=
  let raw := " ".intercalate ((msg.data.take msg.dlc).map hex02)
  if msg.arbitrationId = ccuStatusId ∧ msg.dlc ≥ 1 then
    msg.data.head?.map fun b => -- msg.data[0]
      let state := b.toNat &&& 0x0F
      "status=" ++ nameOf ccuStatusNames state (toString state)
  else if msg.arbitrationId = dfuRspId ∧ msg.dlc ≥ 1 then
    msg.data.head?.map fun b => "dfu_status=" ++ nameOf dfuStatusNames b.toNat (hex02 b)
  else if msg.arbitrationId = mcuStateId ∧ msg.dlc ≥ 1 then
    msg.data.head?.map fun b =>
      let status := b.toNat &&& 0x0F
      "status=" ++ nameOf mcuStates status (toString status)
  else some raw

/-- a message that announces bytes and carries none -/
def CanMsg.Hollow (msg : CanMsg) : Prop := msg.dlc ≥ 1 ∧ msg.data = []

instance (msg : CanMsg) : Decidable msg.Hollow := inferInstanceAs (Decidable (_ ∧ _))

/-- the identifiers that are decoded -/
def decodedIds : List Nat := [ccuStatusId, dfuRspId, mcuStateId]

/-- **the decoder raises for the messages that it decodes and that carry no bytes** -/
theorem decodeFrame_eq_none (msg : CanMsg) :
    decodeFrame msg = none ↔ msg.arbitrationId ∈ decodedIds ∧ msg.Hollow := by
  have hraise : ∀ text : UInt8 → String, msg.data.head?.map text = none ↔ msg.data = [] :=
    fun _ => Option.map_eq_none_iff.trans List.head?_eq_none_iff
  unfold decodeFrame decodedIds CanMsg.Hollow
  simp only [List.mem_cons, List.not_mem_nil, or_false]
  split
  · rename_i h
    rw [hraise]
    exact ⟨fun hn => ⟨.inl h.1, h.2, hn⟩, fun hn => hn.2.2⟩
  · rename_i h1
    split
    · rename_i h
      rw [hraise]
      exact ⟨fun hn => ⟨.inr (.inl h.1), h.2, hn⟩, fun hn => hn.2.2⟩
    · rename_i h2
      split
      · rename_i h
        rw [hraise]
        exact ⟨fun hn => ⟨.inr (.inr h.1), h.2, hn⟩, fun hn => hn.2.2⟩
      · rename_i h3
        constructor
        · intro hs
          cases hs
        · rintro ⟨hid | hid | hid, hdlc, _⟩
          · exact absurd ⟨hid, hdlc⟩ h1
          · exact absurd ⟨hid, hdlc⟩ h2
          · exact absurd ⟨hid, hdlc⟩ h3

/-! ## the state of the master -/

/-- the names of `MasterStatus.State` in master.proto -/
def masterStatusStates : List (Int × String) :=
  [(0, "INIT"), (1, "IDLE"), (2, "STARTING"), (3, "RUNNING"), (4, "SHUTTING_DOWN"), (5, "FAILURE")]

/-- what is assumed of MCU_STATE: the status fills the low four bits of byte 0 as it is, cut to four
bits, whatever the other signals are -/
structure Candef.StatusInNibble (cd : Candef) : Prop where
  frameId : cd.mcuState.frameId = 0x100
  length_pos : 0 < cd.mcuState.length
  length_le : cd.mcuState.length ≤ 8
  nibble : ∀ (state : Int) (signals : McuState), signals.status = cd.mcuStateStatusEncode state →
    ((cd.mcuState.pack signals).toList.getD 0 0).toNat % 16 = (state % 16).toNat

/-- **the state is shown**: the frame of `send_mcu_state` is decoded to the name that master.proto has
for the state, or to an unknown marker if there is none -/
def StateShown (cd : Candef) (s : MasterStatus) : Prop :=
  ∃ f text, (Call.sendMcuState s).frame cd = some f ∧ decodeFrame f.onWire.msg = some text ∧
    match masterStatusStates.lookup s.state with
    | some name => text = "status=" ++ name
    | none => ∃ shown, text = "status=" ++ unknownMarker shown

section
variable {cd : Candef} {s : MasterStatus}

/-- a frame that `enqueue_frame` has filled in, as it is received -/
theorem fillFrame_onWire {id : UInt32} {data : List UInt8} {len : Nat} {f : CanFrame}
    (hpos : 0 < len) (hle : len ≤ 8) (hf : fillFrame id data len = some f) :
    f.onWire.msg.arbitrationId = id.toNat ∧ f.onWire.msg.dlc = len ∧
      f.onWire.msg.data.head? = some (data.getD 0 0) := by
  unfold fillFrame at hf
  rw [if_neg (Nat.not_lt.mpr hle)] at hf
  obtain rfl := Option.some.inj hf
  refine ⟨rfl, ?_, ?_⟩
  · show (List.take len _).length = len
    rw [List.length_take, Vector.length_toList]
    exact Nat.min_eq_left hle
  · show (List.take len _).head? = _
    rw [List.head?_take, if_neg (Nat.ne_of_gt hpos), Vector.toList_ofFn, List.ofFn_succ,
      List.head?_cons]
    exact congrArg some (if_pos hpos)

/-- **the low four bits of the state are looked up in the table of the monitor** -/
theorem mcuState_decoded (h : cd.StatusInNibble) (s : MasterStatus) :
    ∃ f, (Call.sendMcuState s).frame cd = some f ∧
      decodeFrame f.onWire.msg = some ("status=" ++
        nameOf mcuStates (s.state % 16).toNat (toString (s.state % 16).toNat)) := by
  have hpos := h.length_pos
  have hle := h.length_le
  have hlen : cd.mcuState.length % 2 ^ 8 = cd.mcuState.length := Nat.mod_eq_of_lt (by omega)
  obtain ⟨f, hf⟩ : ∃ f, (Call.sendMcuState s).frame cd = some f := by
    show ∃ f, fillFrame _ _ (cd.mcuState.length % 2 ^ 8) = some f
    unfold fillFrame
    rw [hlen, if_neg (Nat.not_lt.mpr hle)]
    exact ⟨_, rfl⟩
  have hfill : fillFrame cd.mcuState.frameId (cd.mcuState.pack (mcuStateSignals cd s)).toList
      cd.mcuState.length = some f := by
    rw [← hf]
    exact congrArg _ hlen.symm
  obtain ⟨hid, hdlc, hhead⟩ := fillFrame_onWire hpos hle hfill
  refine ⟨f, hf, ?_⟩
  have hid : f.onWire.msg.arbitrationId = mcuStateId := by
    rw [hid, h.frameId]
    rfl
  have hnibble : ((cd.mcuState.pack (mcuStateSignals cd s)).toList.getD 0 0).toNat &&& 0x0F =
      (s.state % 16).toNat := by
    rw [← h.nibble s.state (mcuStateSignals cd s) rfl]
    exact Nat.and_two_pow_sub_one_eq_mod _ 4
  unfold decodeFrame
  rw [if_neg, if_neg, if_pos ⟨hid, by omega⟩, hhead, Option.map_some]
  · simp only [hnibble]
  · rw [hid]
    exact fun hn => absurd hn.1 (by decide)
  · rw [hid]
    exact fun hn => absurd hn.1 (by decide)

/-- no name of the monitor begins like a marker -/
theorem name_ne_marker {n : Nat} (hn : n < 5) (text shown : String) :
    nameOf mcuStates n text ≠ unknownMarker shown := by
  have hknown : ∀ n < 5, ∃ name ∈ mcuStates.map Prod.snd, mcuStates.lookup n = some name := by
    decide
  have hletters : ∀ name ∈ mcuStates.map Prod.snd, name.toList.head? ≠ some '?' := by decide
  obtain ⟨name, hmem, hname⟩ := hknown n hn
  intro h
  rw [nameOf, hname, Option.getD_some] at h
  refine hletters name hmem ?_
  rw [h, unknownMarker, String.toList_append, String.toList_append]
  rfl

theorem nameOf_unknown {n : Nat} (hn : 5 ≤ n) (text : String) :
    nameOf mcuStates n text = unknownMarker text := by
  have hnone : mcuStates.lookup n = none := by
    rw [List.lookup_eq_none_iff]
    intro p hp
    have hlt : ∀ p ∈ mcuStates, p.1 < 5 := by decide
    have hp := hlt p hp
    exact bne_iff_ne.mpr (by omega)
  rw [nameOf, hnone, Option.getD_none]

theorem masterStatusStates_none {x : Int} (hx : x < 0 ∨ 5 < x) :
    masterStatusStates.lookup x = none := by
  rw [List.lookup_eq_none_iff]
  intro p hp
  have hin : ∀ p ∈ masterStatusStates, 0 ≤ p.1 ∧ p.1 ≤ 5 := by decide
  have hp := hin p hp
  exact bne_iff_ne.mpr (by omega)

/-- the tables agree about a state: the same name, or a marker for a number without a name -/
def Matches (x : Int) : Prop :=
  match masterStatusStates.lookup x with
  | some name => nameOf mcuStates (x % 16).toNat (toString (x % 16).toNat) = name
  | none => ∃ shown, nameOf mcuStates (x % 16).toNat (toString (x % 16).toNat) = unknownMarker shown

theorem matches_iff (x : Int) :
    Matches x ↔ (x = 0 ∨ x = 1 ∨ x = 2) ∨ (x ≠ 5 ∧ 5 ≤ x % 16) := by
  by_cases hx : x < 0 ∨ 5 < x
  · -- master.proto has no name
    unfold Matches
    rw [masterStatusStates_none hx]
    by_cases h5 : 5 ≤ x % 16
    · exact iff_of_true ⟨_, nameOf_unknown (by omega) _⟩ (.inr ⟨by omega, h5⟩)
    · refine iff_of_false ?_ (by omega)
      rintro ⟨shown, hm⟩
      exact name_ne_marker (by omega) _ shown hm
  · obtain ⟨h0, h5⟩ := not_or.mp hx
    have h0 : 0 ≤ x := Int.not_lt.mp h0
    have h5 : x ≤ 5 := Int.not_lt.mp h5
    interval_cases x
    · exact iff_of_true rfl (by decide)
    · exact iff_of_true rfl (by decide)
    · exact iff_of_true rfl (by decide)
    · exact iff_of_false (show nameOf mcuStates 3 "3" ≠ "RUNNING" by decide) (by decide)
    · exact iff_of_false (show nameOf mcuStates 4 "4" ≠ "SHUTTING_DOWN" by decide) (by decide)
    · exact iff_of_false (show nameOf mcuStates 5 "5" ≠ "FAILURE" by decide) (by decide)

theorem stateShown_iff_matches (h : cd.StatusInNibble) (s : MasterStatus) :
    StateShown cd s ↔ Matches s.state := by
  obtain ⟨f, hf, htext⟩ := mcuState_decoded h s
  unfold StateShown Matches
  constructor
  · rintro ⟨f', text, hf', htext', hname⟩
    obtain rfl := Option.some.inj (hf.symm.trans hf')
    obtain rfl := Option.some.inj (htext.symm.trans htext')
    split at hname
    · exact (String.append_right_inj _).mp hname
    · obtain ⟨shown, hname⟩ := hname
      exact ⟨shown, (String.append_right_inj _).mp hname⟩
  · intro hm
    refine ⟨f, _, hf, htext, ?_⟩
    split at hm
    · rw [hm]
    · obtain ⟨shown, hm⟩ := hm
      exact ⟨shown, congrArg _ hm⟩

end

/-- **The monitor shows the state the master sent exactly if it is INIT, IDLE or STARTING, or a number
other than FAILURE whose low four bits are in no table.** -/
theorem state_shown_iff (cd : Candef) (h : cd.StatusInNibble) (s : MasterStatus) :
    StateShown cd s ↔
      (s.state = 0 ∨ s.state = 1 ∨ s.state = 2) ∨ (s.state ≠ 5 ∧ 5 ≤ s.state % 16) :=
  (stateShown_iff_matches h s).trans (matches_iff s.state)

theorem bytewise_statusInNibble : Candef.bytewise.StatusInNibble := by
  refine ⟨rfl, by decide, by decide, fun state signals hs => ?_⟩
  have hs : signals.status = state := hs
  show (UInt8.ofNat (signals.status % 2 ^ 8).toNat).toNat % 16 = _
  rw [UInt8.toNat_ofNat', hs]
  omega

theorem state_shown_iff_starting :
    StateShown Candef.bytewise { state := 2, vehicleType := -1, mainValveEnabled := true } :=
  (state_shown_iff Candef.bytewise bytewise_statusInNibble _).mpr (.inl (.inr (.inr rfl)))

/-- RUNNING is shown as SHUTTING_DOWN and SHUTTING_DOWN as RUNNING; FAILURE is shown as unknown, and
a number without a name as INIT -/
theorem state_not_shown :
    (∃ f, (Call.sendMcuState { state := 3 }).frame Candef.bytewise = some f ∧
      decodeFrame f.onWire.msg = some "status=SHUTTING_DOWN") ∧
    (∃ f, (Call.sendMcuState { state := 4 }).frame Candef.bytewise = some f ∧
      decodeFrame f.onWire.msg = some "status=RUNNING") ∧
    ¬ StateShown Candef.bytewise { state := 3 } ∧ ¬ StateShown Candef.bytewise { state := 4 } ∧
    ¬ StateShown Candef.bytewise { state := 5 } ∧ ¬ StateShown Candef.bytewise { state := 16 } := by
  have hnot : ∀ s : MasterStatus, ¬ ((s.state = 0 ∨ s.state = 1 ∨ s.state = 2) ∨
      (s.state ≠ 5 ∧ 5 ≤ s.state % 16)) → ¬ StateShown Candef.bytewise s := fun s hs hshown =>
    hs ((matches_iff s.state).mp ((stateShown_iff_matches bytewise_statusInNibble s).mp hshown))
  exact ⟨mcuState_decoded bytewise_statusInNibble { state := 3 },
    mcuState_decoded bytewise_statusInNibble { state := 4 },
    hnot _ (by decide), hnot _ (by decide), hnot _ (by decide), hnot _ (by decide)⟩

end CCU
