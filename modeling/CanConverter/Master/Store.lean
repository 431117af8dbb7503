import CanConverter.Lib.Latest
import CanConverter.Master.Proto

/-!
# The shared data store and `on_frame`

`onFrame` runs in the parser thread: it decodes one COBS frame and, under `data_mutex`, stores the
payload and raises its flag.  `pbDecode` is the nanopb decoder, an arbitrary partial function.

What the store is for is `Latest`: of every payload kind the last payload accepted so far.

* `onFrame_refines`    one received frame keeps the store a refinement of `Latest.of`;
* `onFrame_frame`      a frame that does not decode, or has an unknown tag, changes no field;
* `onFrame_valid`      a flag that is set stays set.
-/

namespace CCU
open Latest

/-- `master_data_t` -/
structure MasterData where
  masterMeasurements : MasterMeasurements := {}
  masterMeasurementsValid : Bool := false
  masterStatus : MasterStatus := {}
  masterStatusValid : Bool := false
  protiumValues : ProtiumValues := {}
  protiumValuesValid : Bool := false
  protiumOperatingState : ProtiumOperatingState := 0
  protiumOperatingStateValid : Bool := false
  masterFaults : MasterFaults := {}
  masterFaultsValid : Bool := false
deriving DecidableEq

/-- what the parser thread writes: the store and the count of decoded frames -/
structure Rs485 where
  data : MasterData := {}
  rs485FramesReceived : UInt32 := 0

/-- the `switch` of `on_frame`, under `data_mutex` -/
def storePayload (frame : MasterFrame) (data : MasterData) : MasterData :=
  if frame.whichPayload = masterMeasurementsTag then
    { data with
      masterMeasurements := frame.payload.masterMeasurements, masterMeasurementsValid := true }
  else if frame.whichPayload = masterStatusTag then
    { data with masterStatus := frame.payload.masterStatus, masterStatusValid := true }
  else if frame.whichPayload = protiumValuesTag then
    { data with protiumValues := frame.payload.protiumValues, protiumValuesValid := true }
  else if frame.whichPayload = protiumOperatingStateTag then
    { data with
      protiumOperatingState := frame.payload.protiumOperatingState.currentState,
      protiumOperatingStateValid := true }
  else if frame.whichPayload = masterFaultsTag then
    { data with masterFaults := frame.payload.masterFaults, masterFaultsValid := true }
  else
    data -- "Unknown master frame payload tag"

/-- `on_frame`: an unknown tag still counts as a received frame, a failed decode does not -/
def onFrame (pbDecode : List UInt8 → Option MasterFrame) (decoded : List UInt8) (r : Rs485) :
    Rs485 :=
  match pbDecode decoded with
  | none => r
  | some frame =>
    { data := storePayload frame r.data, rs485FramesReceived := r.rs485FramesReceived + 1 }

/-- the store after a history of decoded frames -/
def storeAfter (fs : List MasterFrame) : MasterData := fs.foldl (fun d f => storePayload f d) {}

/-! ## the purpose of the store -/

/-- of every payload kind the last one accepted -/
structure Latest where
  measurements : Option MasterMeasurements
  status : Option MasterStatus
  protiumValues : Option ProtiumValues
  protiumOperatingState : Option ProtiumOperatingState
  faults : Option MasterFaults

/-- the last payloads of a history of decoded frames -/
def Latest.of (fs : List MasterFrame) : Latest where
  measurements := lastOf MasterFrame.measurements? fs
  status := lastOf MasterFrame.status? fs
  protiumValues := lastOf MasterFrame.protiumValues? fs
  protiumOperatingState := lastOf MasterFrame.protiumOperatingState? fs
  faults := lastOf MasterFrame.faults? fs

/-- the store holds the latest payloads, its flags say which kinds were ever accepted -/
structure MasterData.Refines (d : MasterData) (l : Latest) : Prop where
  measurements : Holds d.masterMeasurements d.masterMeasurementsValid l.measurements
  status : Holds d.masterStatus d.masterStatusValid l.status
  protiumValues : Holds d.protiumValues d.protiumValuesValid l.protiumValues
  protiumOperatingState :
    Holds d.protiumOperatingState d.protiumOperatingStateValid l.protiumOperatingState
  faults : Holds d.masterFaults d.masterFaultsValid l.faults

/-- the store read as the optional payloads it stands for -/
def MasterData.latest (d : MasterData) : Latest where
  measurements := if d.masterMeasurementsValid then some d.masterMeasurements else none
  status := if d.masterStatusValid then some d.masterStatus else none
  protiumValues := if d.protiumValuesValid then some d.protiumValues else none
  protiumOperatingState :=
    if d.protiumOperatingStateValid then some d.protiumOperatingState else none
  faults := if d.masterFaultsValid then some d.masterFaults else none

theorem MasterData.Refines.latest_eq {d : MasterData} {l : Latest} (h : d.Refines l) :
    d.latest = l := by
  obtain ⟨h1, h2, h3, h4, h5⟩ := h
  unfold MasterData.latest
  rw [h1.toOption, h2.toOption, h3.toOption, h4.toOption, h5.toOption]

theorem MasterData.refines_init : ({} : MasterData).Refines (Latest.of []) :=
  ⟨Holds.none _, Holds.none _, Holds.none _, Holds.none _, Holds.none _⟩

section
variable {α : Type} {member : Payload → α} {tag : Nat} {f : MasterFrame} {fs : List MasterFrame}

/-- the arm of the switch for `tag` was taken -/
theorem holds_hit (member : Payload → α) (h : f.whichPayload = tag) :
    Holds (member f.payload) true (lastOf (MasterFrame.pick tag member) (fs ++ [f])) := by
  rw [lastOf_snoc, MasterFrame.pick_self member h]
  exact Holds.some _

theorem holds_miss (h : f.whichPayload ≠ tag) {v : α} {valid : Bool}
    (hv : Holds v valid (lastOf (MasterFrame.pick tag member) fs)) :
    Holds v valid (lastOf (MasterFrame.pick tag member) (fs ++ [f])) := by
  rw [lastOf_snoc, MasterFrame.pick_of_ne member h]
  exact hv

end

theorem storePayload_refines {d : MasterData} {fs : List MasterFrame} (f : MasterFrame)
    (h : d.Refines (Latest.of fs)) : (storePayload f d).Refines (Latest.of (fs ++ [f])) := by
  obtain ⟨h1, h2, h3, h4, h5⟩ := h
  unfold storePayload
  split_ifs with t1 t2 t3 t4 t5
  · exact ⟨holds_hit _ t1, holds_miss (by rw [t1]; decide) h2, holds_miss (by rw [t1]; decide) h3,
      holds_miss (by rw [t1]; decide) h4, holds_miss (by rw [t1]; decide) h5⟩
  · exact ⟨holds_miss t1 h1, holds_hit _ t2, holds_miss (by rw [t2]; decide) h3,
      holds_miss (by rw [t2]; decide) h4, holds_miss (by rw [t2]; decide) h5⟩
  · exact ⟨holds_miss t1 h1, holds_miss t2 h2, holds_hit _ t3, holds_miss (by rw [t3]; decide) h4,
      holds_miss (by rw [t3]; decide) h5⟩
  · exact ⟨holds_miss t1 h1, holds_miss t2 h2, holds_miss t3 h3,
      holds_hit (fun p => p.protiumOperatingState.currentState) t4,
      holds_miss (by rw [t4]; decide) h5⟩
  · exact ⟨holds_miss t1 h1, holds_miss t2 h2, holds_miss t3 h3, holds_miss t4 h4, holds_hit _ t5⟩
  · exact ⟨holds_miss t1 h1, holds_miss t2 h2, holds_miss t3 h3, holds_miss t4 h4,
      holds_miss t5 h5⟩

section
variable (pbDecode : List UInt8 → Option MasterFrame)

/-- the frames decoded from a history of byte strings -/
def accepted (bs : List (List UInt8)) : List MasterFrame := bs.filterMap pbDecode

theorem accepted_snoc (bs : List (List UInt8)) (b : List UInt8) :
    accepted pbDecode (bs ++ [b]) = accepted pbDecode bs ++ (pbDecode b).toList := by
  unfold accepted
  rw [List.filterMap_append]
  cases h : pbDecode b <;> simp [h]

theorem accepted_append (bs bs' : List (List UInt8)) :
    accepted pbDecode (bs ++ bs') = accepted pbDecode bs ++ accepted pbDecode bs' :=
  List.filterMap_append

/-- frames that the decoder gives back -/
theorem accepted_map {serialize : MasterFrame → List UInt8} {fs : List MasterFrame}
    (h : ∀ f ∈ fs, pbDecode (serialize f) = some f) : accepted pbDecode (fs.map serialize) = fs := by
  unfold accepted
  rw [List.filterMap_map]
  exact (List.filterMap_congr h).trans List.filterMap_some

/-- **one received frame keeps the store a refinement of the latest payloads** -/
theorem onFrame_refines {r : Rs485} {bs : List (List UInt8)} (b : List UInt8)
    (h : r.data.Refines (Latest.of (accepted pbDecode bs))) :
    (onFrame pbDecode b r).data.Refines (Latest.of (accepted pbDecode (bs ++ [b]))) := by
  rw [accepted_snoc]
  unfold onFrame
  cases hb : pbDecode b with
  | none =>
    show r.data.Refines (Latest.of (accepted pbDecode bs ++ []))
    rw [List.append_nil]
    exact h
  | some f => exact storePayload_refines f h

theorem storePayload_unknown {f : MasterFrame} (h : f.whichPayload ∉ knownTags) (d : MasterData) :
    storePayload f d = d := by
  simp only [knownTags, List.mem_cons, List.not_mem_nil, or_false, not_or] at h
  obtain ⟨h1, h2, h3, h4, h5⟩ := h
  unfold storePayload
  rw [if_neg h1, if_neg h2, if_neg h3, if_neg h4, if_neg h5]

/-- **a frame that does not decode, or has an unknown tag, changes no field of the store** -/
theorem onFrame_frame {b : List UInt8} (h : ∀ f ∈ pbDecode b, f.whichPayload ∉ knownTags)
    (r : Rs485) : (onFrame pbDecode b r).data = r.data := by
  unfold onFrame
  cases hb : pbDecode b with
  | none => rfl
  | some f => exact storePayload_unknown (h f hb) r.data

end

/-- one received byte string, as the store sees it -/
theorem onFrame_storeAfter (pbDecode : List UInt8 → Option MasterFrame) {r : Rs485}
    {bs : List (List UInt8)} (b : List UInt8) (h : r.data = storeAfter (accepted pbDecode bs)) :
    (onFrame pbDecode b r).data = storeAfter (accepted pbDecode (bs ++ [b])) := by
  rw [accepted_snoc]
  unfold onFrame storeAfter
  cases pbDecode b with
  | none =>
    rw [Option.toList_none, List.append_nil]
    exact h
  | some f =>
    rw [Option.toList_some, List.foldl_append]
    exact congrArg (storePayload f) h

/-- every flag set in `d` is set in `d'` -/
structure MasterData.FlagsLe (d d' : MasterData) : Prop where
  measurements : d.masterMeasurementsValid = true → d'.masterMeasurementsValid = true
  status : d.masterStatusValid = true → d'.masterStatusValid = true
  protiumValues : d.protiumValuesValid = true → d'.protiumValuesValid = true
  protiumOperatingState :
    d.protiumOperatingStateValid = true → d'.protiumOperatingStateValid = true
  faults : d.masterFaultsValid = true → d'.masterFaultsValid = true

theorem MasterData.FlagsLe.refl (d : MasterData) : d.FlagsLe d := ⟨id, id, id, id, id⟩

/-- **no received frame lowers a flag** -/
theorem onFrame_valid (pbDecode : List UInt8 → Option MasterFrame) (b : List UInt8) (r : Rs485) :
    r.data.FlagsLe (onFrame pbDecode b r).data := by
  unfold onFrame
  cases pbDecode b with
  | none => exact MasterData.FlagsLe.refl _
  | some f =>
    show r.data.FlagsLe (storePayload f r.data)
    unfold storePayload
    split_ifs
    · exact ⟨fun _ => rfl, id, id, id, id⟩
    · exact ⟨id, fun _ => rfl, id, id, id⟩
    · exact ⟨id, id, fun _ => rfl, id, id⟩
    · exact ⟨id, id, id, fun _ => rfl, id⟩
    · exact ⟨id, id, id, id, fun _ => rfl⟩
    · exact ⟨id, id, id, id, id⟩

/-! ## a few frames of the master, for runs on concrete data -/

def measurementsBytes : List UInt8 := [0x1A, 0x00]
def statusRunningBytes : List UInt8 := [0x22, 0x02, 0x10, 0x03]
def hydrogenLeakageBytes : List UInt8 := [0x3A, 0x02, 0x20, 0x01]

/-- `pb_decode` on these frames and on the empty one; it refuses any other -/
def sampleDecode (b : List UInt8) : Option MasterFrame :=
  if b = [] then some {}
  else if b = measurementsBytes then some { whichPayload := masterMeasurementsTag }
  else if b = statusRunningBytes then
    some { whichPayload := masterStatusTag, payload := { masterStatus := { state := 3 } } }
  else if b = hydrogenLeakageBytes then
    some {
      whichPayload := masterFaultsTag
      payload := { masterFaults := { emgHydrogenLeakageVoltage := true } } }
  else none

end CCU
