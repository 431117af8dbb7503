import CanConverter.System.Step

/-!
# The broadcast refines "latest decoded value"

* `Call.BuiltFrom l c`     the argument of the call `c` is the payload of its kind in `l`;
* `loopActs_builtFrom`     the calls of a pass are built from the snapshot it took;
* `Tracks.step`            one step of the unit keeps the store on the latest payloads and the
                           pending calls on those of the last snapshot;
* `broadcast_latest`       the same for every run.
-/

namespace CCU
open Runs

/-- the payload kinds a sender can be handed -/
inductive Kind where
  | measurements | status | protiumValues | protiumOperatingState | faults
deriving DecidableEq

/-- the flag of a kind -/
def MasterData.valid (d : MasterData) : Kind → Bool
  | .measurements => d.masterMeasurementsValid
  | .status => d.masterStatusValid
  | .protiumValues => d.protiumValuesValid
  | .protiumOperatingState => d.protiumOperatingStateValid
  | .faults => d.masterFaultsValid

namespace Call

/-- the kind of the payload a sender is handed, if it is handed one -/
def kind : Call → Option Kind
  | .sendMcuTimeSync _ _ => none
  | .sendMcuState _ => some .status
  | .sendMcuFaults _ => some .faults
  | .sendMcuInputs _ | .sendMcuAnalogSpeed _ | .sendMcuAnalogPedals _ | .sendMcuAnalogPowertrain _
  | .sendMcuAnalogFuelCell _ | .sendMcuAnalogAccessory _ | .sendMcuAnalogUnassigned _ =>
    some .measurements
  | .sendProtiumState _ => some .protiumOperatingState
  | .sendProtiumPower _ | .sendProtiumThermal _ | .sendProtiumHydrogen _ | .sendProtiumSetpoints _
  | .sendProtiumStasis _ | .sendProtiumMisc _ => some .protiumValues

/-- the argument of the call is the payload of its kind in `l` -/
def BuiltFrom (l : Latest) : Call → Prop
  | .sendMcuTimeSync _ _ => False
  | .sendMcuState s => l.status = some s
  | .sendMcuFaults f => l.faults = some f
  | .sendMcuInputs m | .sendMcuAnalogSpeed m | .sendMcuAnalogPedals m | .sendMcuAnalogPowertrain m
  | .sendMcuAnalogFuelCell m | .sendMcuAnalogAccessory m | .sendMcuAnalogUnassigned m =>
    l.measurements = some m
  | .sendProtiumState o => l.protiumOperatingState = some o
  | .sendProtiumPower v | .sendProtiumThermal v | .sendProtiumHydrogen v | .sendProtiumSetpoints v
  | .sendProtiumStasis v | .sendProtiumMisc v => l.protiumValues = some v

end Call

/-! ## the calls of a pass -/

section
variable {d : MasterData} {c : Call}

theorem group100Hz_builtFrom (h : c ∈ group100Hz d) : c.BuiltFrom d.latest := by
  unfold group100Hz at h
  rcases List.mem_append.mp h with h | h
  · obtain ⟨hv, h⟩ := List.mem_ite_nil_right.mp h
    rw [List.mem_singleton.mp h]
    exact if_pos hv
  · obtain ⟨hv, h⟩ := List.mem_ite_nil_right.mp h
    rw [List.mem_singleton.mp h]
    exact if_pos hv

theorem group10Hz_builtFrom (h : c ∈ group10Hz d) : c.BuiltFrom d.latest := by
  unfold group10Hz at h
  obtain ⟨hv, h⟩ := List.mem_ite_nil_right.mp h
  have hm : d.latest.measurements = some d.masterMeasurements := if_pos hv
  simp only [List.mem_cons, List.not_mem_nil, or_false] at h
  rcases h with rfl | rfl | rfl | rfl <;> exact hm

theorem group1Hz_builtFrom (h : c ∈ group1Hz d) : c.BuiltFrom d.latest := by
  unfold group1Hz at h
  rcases List.mem_append.mp h with h | h
  · rcases List.mem_append.mp h with h | h
    · obtain ⟨hv, h⟩ := List.mem_ite_nil_right.mp h
      have hm : d.latest.measurements = some d.masterMeasurements := if_pos hv
      simp only [List.mem_cons, List.not_mem_nil, or_false] at h
      rcases h with rfl | rfl <;> exact hm
    · obtain ⟨hv, h⟩ := List.mem_ite_nil_right.mp h
      rw [List.mem_singleton.mp h]
      exact if_pos hv
  · obtain ⟨hv, h⟩ := List.mem_ite_nil_right.mp h
    have hm : d.latest.protiumValues = some d.protiumValues := if_pos hv
    simp only [List.mem_cons, List.not_mem_nil, or_false] at h
    rcases h with rfl | rfl | rfl | rfl | rfl | rfl <;> exact hm

theorem groupUnassigned_builtFrom (h : c ∈ groupUnassigned d) : c.BuiltFrom d.latest := by
  unfold groupUnassigned at h
  obtain ⟨hv, h⟩ := List.mem_ite_nil_right.mp h
  rw [List.mem_singleton.mp h]
  exact if_pos hv

theorem send_mem_sends {l : List Call} : Act.send c ∈ sends l ↔ c ∈ l := by
  unfold sends
  rw [List.mem_map]
  constructor
  · rintro ⟨c', hc, h⟩
    exact Act.send.inj h ▸ hc
  · intro hc
    exact ⟨c, hc, rfl⟩

theorem send_mem_ite {p : Prop} [Decidable p] {l : List Call}
    (h : Act.send c ∈ if p then sends l else []) : c ∈ l :=
  send_mem_sends.mp (List.mem_ite_nil_right.mp h).2

theorem send_not_mem_statsReport : Act.send c ∉ statsReport := by
  simp [statsReport]

/-- **the calls of a pass are built from the snapshot it took** -/
theorem loopActs_builtFrom {cnt : Counters} (h : .send c ∈ loopActs d cnt) :
    c.BuiltFrom d.latest := by
  unfold loopActs at h
  rcases List.mem_append.mp h with h | h
  · rcases List.mem_append.mp h with h | h
    · rcases List.mem_append.mp h with h | h
      · exact group100Hz_builtFrom (send_mem_sends.mp h)
      · exact group10Hz_builtFrom (send_mem_ite h)
    · exact group1Hz_builtFrom (send_mem_ite h)
  · rcases List.mem_append.mp (List.mem_ite_nil_right.mp h).2 with h | h
    · exact groupUnassigned_builtFrom (send_mem_ite h)
    · exact absurd h send_not_mem_statsReport

/-- a call built from the store has its flag set -/
theorem Call.BuiltFrom.valid (h : c.BuiltFrom d.latest) : ∀ k ∈ c.kind, d.valid k = true := by
  have ite_some : ∀ {α : Type} {b : Bool} {v w : α},
      (if b = true then some v else none) = some w → b = true := by
    intro α b v w hw
    cases b
    · cases hw
    · rfl
  intro k hk
  cases c <;> cases hk <;> exact ite_some h

end

/-! ## every run -/

/-- the byte strings handed to `on_frame` -/
def received (evs : List Ev) : List (List UInt8) :=
  evs.filterMap fun e => match e with
    | .received b => some b
    | _ => none

theorem received_snoc_received (evs : List Ev) (b : List UInt8) :
    received (evs ++ [.received b]) = received evs ++ [b] := by
  unfold received
  rw [List.filterMap_append]
  rfl

theorem received_snoc {e : Ev} (evs : List Ev) (h : ∀ b, e ≠ .received b) :
    received (evs ++ [e]) = received evs := by
  unfold received
  rw [List.filterMap_append]
  cases e with
  | received b => exact absurd rfl (h b)
  | _ => exact List.append_nil _

section
variable (pbDecode : List UInt8 → Option MasterFrame)

/-- the calls still to be made stem from the last snapshot -/
def FromSnapshot (evs : List Ev) (acts : List Act) : Prop :=
  ∃ pre post, evs = pre ++ .snapshot :: post ∧ .snapshot ∉ post ∧
    ∀ c, .send c ∈ acts → c.BuiltFrom (Latest.of (accepted pbDecode (received pre)))

/-- the unit after the events `evs` -/
structure Tracks (evs : List Ev) (s : Sys) : Prop where
  store : s.rs485.data.Refines (Latest.of (accepted pbDecode (received evs)))
  cnt : s.periodic.cnt.Ok
  pending : ∀ acts, s.periodic.pc = .running acts → acts ≠ [] → FromSnapshot pbDecode evs acts

variable {pbDecode}

theorem FromSnapshot.snoc {evs : List Ev} {acts acts' : List Act} {e : Ev}
    (h : FromSnapshot pbDecode evs acts) (he : e ≠ .snapshot) (ha : ∀ a ∈ acts', a ∈ acts) :
    FromSnapshot pbDecode (evs ++ [e]) acts' := by
  obtain ⟨pre, post, rfl, hpost, hc⟩ := h
  refine ⟨pre, post ++ [e], by rw [List.append_assoc]; rfl, fun hm => ?_,
    fun c hm => hc c (ha _ hm)⟩
  rcases List.mem_append.mp hm with hm | hm
  · exact hpost hm
  · exact he (List.mem_singleton.mp hm).symm

theorem Tracks.init : Tracks pbDecode [] {} :=
  ⟨MasterData.refines_init, Counters.ok_init, fun _ h => nomatch h⟩

theorem Tracks.store_step {cd : Candef} {evs : List Ev} {s t : Sys} {e : Ev}
    (hs : Tracks pbDecode evs s) (h : s.step pbDecode cd e = some t) :
    t.rs485.data.Refines (Latest.of (accepted pbDecode (received (evs ++ [e])))) := by
  by_cases he : ∃ b, e = .received b
  · obtain ⟨b, rfl⟩ := he
    rw [Sys.step_received h, received_snoc_received]
    exact onFrame_refines pbDecode b hs.store
  · have hr : ∀ b, e ≠ .received b := fun b hb => he ⟨b, hb⟩
    have ht : e.thread ≠ .parser := by
      intro hp
      cases e with
      | received b => exact hr b rfl
      | _ => cases hp
    rw [received_snoc evs hr, (Sys.step_kept h).rs485 ht]
    exact hs.store

theorem Tracks.step {cd : Candef} {evs : List Ev} {s t : Sys} {e : Ev}
    (hs : Tracks pbDecode evs s) (h : s.step pbDecode cd e = some t) :
    Tracks pbDecode (evs ++ [e]) t := by
  refine ⟨hs.store_step h, Sys.step_cnt_ok hs.cnt h, ?_⟩
  by_cases he : e.thread = .periodic
  · cases e with
    | wake => exact fun acts hp hn => absurd (Sys.step_wake_acts hs.cnt h hp) hn
    | snapshot =>
      intro acts hp _
      have ha := Sys.step_snapshot_acts hs.cnt h hp
      refine ⟨evs, [], rfl, List.not_mem_nil, ?_⟩
      intro c hc
      rw [← hs.store.latest_eq]
      exact loopActs_builtFrom (ha ▸ hc)
    | act =>
      obtain ⟨a, l, hp, rfl⟩ := Sys.step_act h
      intro acts hp' _
      have ha : acts = l := (PeriodicPc.running.inj hp').symm
      refine (hs.pending (a :: l) hp (fun h => nomatch h)).snoc (fun h => nomatch h) ?_
      intro a' ha'
      exact List.mem_cons_of_mem a (ha ▸ ha')
    | sleep =>
      obtain ⟨_, rfl⟩ := Sys.step_sleep h
      exact fun acts hp => nomatch hp
    | _ => cases he
  · intro acts hp hn
    rw [(Sys.step_kept h).periodic he] at hp
    refine (hs.pending acts hp hn).snoc (fun hsnap => he ?_) fun _ ha => ha
    rw [hsnap]
    rfl

theorem Tracks.run {cd : Candef} {evs : List Ev} {s : Sys}
    (h : run (Sys.step pbDecode cd) {} evs = some s) : Tracks pbDecode evs s :=
  hist_run Tracks.init (fun _ _ _ _ hs ht => hs.step ht) h

/-- the broadcast after the events `evs`: what the pass still attempts comes from one snapshot and
is the latest of its kind there; what does not decode or has an unknown tag changes nothing -/
structure BroadcastsLatest (pbDecode : List UInt8 → Option MasterFrame) (cd : Candef)
    (evs : List Ev) (s : Sys) : Prop where
  attempts : ∀ acts, s.periodic.pc = .running acts → acts ≠ [] → FromSnapshot pbDecode evs acts
  ignored : ∀ b t, (∀ f ∈ pbDecode b, f.whichPayload ∉ knownTags) →
    s.step pbDecode cd (.received b) = some t → t.rs485.data = s.rs485.data

/-- **The periodic broadcast refines "latest decoded value"**, in every interleaving. -/
theorem broadcast_latest {cd : Candef} (evs : List Ev) {s : Sys}
    (h : Runs.run (Sys.step pbDecode cd) {} evs = some s) :
    BroadcastsLatest pbDecode cd evs s := by
  refine ⟨(Tracks.run h).pending, ?_⟩
  intro b t hb ht
  rw [Sys.step_received ht]
  exact onFrame_frame pbDecode hb s.rs485

/-- a status is accepted, a frame that does not decode follows, then a wakeup takes its snapshot -/
def statusRun : List Ev :=
  [.received statusRunningBytes, .received [0xFF], .wake, .snapshot, .received measurementsBytes]

/-- the frame MCU_STATE of `statusRunningBytes` -/
def runningFrame : CanFrame :=
  { id := 0x100, dlc := 5, flags := canFrameIde, data := (Vector.replicate 8 0).set 0 3 }

theorem broadcast_latest_statusRun :
    ∃ s, Runs.run (Sys.step sampleDecode Candef.bytewise) {} statusRun = some s ∧
      s.periodic.pc = .running [.send (.sendMcuState { state := 3 })] ∧
      BroadcastsLatest sampleDecode Candef.bytewise statusRun s :=
  ⟨_, rfl, by decide, broadcast_latest statusRun rfl⟩

end

end CCU
