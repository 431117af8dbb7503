import CanConverter.System.Broadcast

/-!
# Data that was never received

The periodic thread tests the flag of a kind before it sends a frame of it.  The test button sends
its nine MCU frames whatever the flags say, and tests the flag of `protium_state` only.

* `Guarded.step`     the pending calls of both threads respect this, and flags never go down;
* `burst_run`        a burst makes the calls of its snapshot, whatever the threads do meanwhile;
* `never_received`   what is enqueued, in every run.
-/

namespace CCU
open Runs

/-- the flag of the kind the call is built from -/
def Call.Valid (d : MasterData) (c : Call) : Prop := ∀ k ∈ c.kind, d.valid k = true

/-- the kinds the test button sends without a look at their flags -/
def Kind.Untested (k : Kind) : Prop := k = .measurements ∨ k = .status ∨ k = .faults

/-- the call is one of the nine MCU frames the test button sends untested -/
def Call.Untested (c : Call) : Prop := ∃ k ∈ c.kind, k.Untested

/-- the fields of the nine MCU frames, in the order in which `ccu_can_test_send_all` sends them -/
def untestedFields : List Field :=
  [.mcuAnalogSpeed, .mcuAnalogPedals, .mcuAnalogPowertrain, .mcuAnalogFuelCell, .mcuAnalogAccessory,
    .mcuAnalogUnassigned, .mcuInputs, .mcuState, .mcuFaults]

theorem testSendAll_field (d : MasterData) :
    (testSendAll d).map Call.field =
      untestedFields ++ if d.protiumOperatingStateValid then [.protiumState] else [] := by
  unfold testSendAll
  split
  · rfl
  · rfl

namespace Sys

/-- the call an event makes -/
def putting (s : Sys) : Ev → Option Call
  | .act =>
    match s.periodic.pc with
    | .running (.send c :: _) => some c
    | _ => none
  | .buttonSend =>
    match s.button with
    | .sending (c :: _) => some c
    | _ => none
  | _ => none

section
variable (pbDecode : List UInt8 → Option MasterFrame) (cd : Candef)

/-- the calls that the test button makes in a run -/
def burstCalls : Sys → List Ev → List Call
  | _, [] => []
  | s, e :: l =>
    (if e.thread = .button then (s.putting e).toList else []) ++
      match s.step pbDecode cd e with
      | some t => burstCalls t l
      | none => []

end

/-- the calls still to be made respect the flags -/
structure Guarded (s : Sys) : Prop where
  cnt : s.periodic.cnt.Ok
  periodic : ∀ acts c, s.periodic.pc = .running acts → .send c ∈ acts → c.Valid s.rs485.data
  button : ∀ calls c, s.button = .sending calls → c ∈ calls → c.Valid s.rs485.data ∨ c.Untested

theorem Guarded.init : Guarded {} :=
  ⟨Counters.ok_init, (fun _ _ h => nomatch h), (fun _ _ h => nomatch h)⟩

end Sys

theorem MasterData.FlagsLe.valid {d d' : MasterData} (h : d.FlagsLe d') (k : Kind)
    (hk : d.valid k = true) : d'.valid k = true := by
  cases k with
  | measurements => exact h.measurements hk
  | status => exact h.status hk
  | protiumValues => exact h.protiumValues hk
  | protiumOperatingState => exact h.protiumOperatingState hk
  | faults => exact h.faults hk

theorem Call.Valid.mono {d d' : MasterData} {c : Call} (h : d.FlagsLe d') (hc : c.Valid d) :
    c.Valid d' :=
  fun k hk => h.valid k (hc k hk)

theorem testSendAll_guarded {d : MasterData} {c : Call} (h : c ∈ testSendAll d) :
    c.Valid d ∨ c.Untested := by
  unfold testSendAll at h
  rcases List.mem_append.mp h with h | h
  · right
    simp only [List.mem_cons, List.not_mem_nil, or_false] at h
    rcases h with rfl | rfl | rfl | rfl | rfl | rfl | rfl | rfl | rfl
    · exact ⟨_, rfl, .inl rfl⟩
    · exact ⟨_, rfl, .inl rfl⟩
    · exact ⟨_, rfl, .inl rfl⟩
    · exact ⟨_, rfl, .inl rfl⟩
    · exact ⟨_, rfl, .inl rfl⟩
    · exact ⟨_, rfl, .inl rfl⟩
    · exact ⟨_, rfl, .inl rfl⟩
    · exact ⟨_, rfl, .inr (.inl rfl)⟩
    · exact ⟨_, rfl, .inr (.inr rfl)⟩
  · left
    obtain ⟨hv, h⟩ := List.mem_ite_nil_right.mp h
    rw [List.mem_singleton.mp h]
    intro k hk
    cases hk
    exact hv

namespace Sys

section
variable {pbDecode : List UInt8 → Option MasterFrame} {cd : Candef} {s t : Sys}

theorem Guarded.periodic_step {e : Ev} (hs : Guarded s) (h : step pbDecode cd s e = some t) :
    ∀ acts c, t.periodic.pc = .running acts → .send c ∈ acts → c.Valid t.rs485.data := by
  have hf := step_flags h
  by_cases he : e.thread = .periodic
  · cases e with
    | wake =>
      intro acts c hp hc
      rw [step_wake_acts hs.cnt h hp] at hc
      cases hc
    | snapshot =>
      intro acts c hp hc
      rw [step_snapshot_acts hs.cnt h hp] at hc
      exact Call.Valid.mono hf (loopActs_builtFrom hc).valid
    | act =>
      obtain ⟨a, l, hp, rfl⟩ := step_act h
      intro acts c hp' hc
      have ha : acts = l := (PeriodicPc.running.inj hp').symm
      exact (hs.periodic _ c hp (List.mem_cons_of_mem a (ha ▸ hc))).mono hf
    | sleep =>
      obtain ⟨_, rfl⟩ := step_sleep h
      exact fun _ _ hp => nomatch hp
    | _ => cases he
  · intro acts c hp hc
    rw [(step_kept h).periodic he] at hp
    exact (hs.periodic acts c hp hc).mono hf

theorem Guarded.button_step {e : Ev} (hs : Guarded s) (h : step pbDecode cd s e = some t) :
    ∀ calls c, t.button = .sending calls → c ∈ calls → c.Valid t.rs485.data ∨ c.Untested := by
  have hf := step_flags h
  by_cases he : e.thread = .button
  · cases e with
    | press =>
      obtain ⟨_, rfl⟩ := step_press h
      intro calls c hb hc
      rw [← Button.sending.inj hb] at hc
      exact testSendAll_guarded hc
    | buttonSend =>
      obtain ⟨c', l, hb, rfl⟩ := step_buttonSend h
      intro calls c hb' hc
      rw [← Button.sending.inj hb'] at hc
      exact hs.button _ c hb (List.mem_cons_of_mem c' hc)
    | buttonDone =>
      obtain ⟨_, rfl⟩ := step_buttonDone h
      exact fun _ _ hb => nomatch hb
    | _ => cases he
  · intro calls c hb hc
    rw [(step_kept h).button he] at hb
    exact (hs.button calls c hb hc).imp_left fun hv => hv.mono hf

theorem Guarded.step {e : Ev} (hs : Guarded s) (h : Sys.step pbDecode cd s e = some t) :
    Guarded t :=
  ⟨step_cnt_ok hs.cnt h, hs.periodic_step h, hs.button_step h⟩

theorem Guarded.run {evs : List Ev} (h : run (Sys.step pbDecode cd) {} evs = some s) :
    Guarded s :=
  inv_run (fun _ _ _ hs ht => hs.step ht) Guarded.init h

theorem putting_some {e : Ev} {c : Call} (h : s.putting e = some c) :
    (e = .act ∧ ∃ l, s.periodic.pc = .running (.send c :: l)) ∨
      (e = .buttonSend ∧ ∃ l, s.button = .sending (c :: l)) := by
  cases e with
  | act =>
    left
    simp only [putting] at h
    split at h
    · rename_i l hp
      exact ⟨rfl, l, Option.some.inj h ▸ hp⟩
    · cases h
  | buttonSend =>
    right
    simp only [putting] at h
    split at h
    · rename_i l hb
      exact ⟨rfl, l, Option.some.inj h ▸ hb⟩
    · cases h
  | _ => cases h

/-- the call of one step of the button is the next one of the burst -/
theorem burst_step {e : Ev} (he : e ≠ .press) (h : Sys.step pbDecode cd s e = some t) :
    (if e.thread = .button then (s.putting e).toList else []) ++ t.button.calls =
      s.button.calls := by
  by_cases hb : e.thread = .button
  · rw [if_pos hb]
    cases e with
    | press => exact absurd rfl he
    | buttonSend =>
      obtain ⟨c, l, hs, rfl⟩ := step_buttonSend h
      simp only [putting, hs]
      rfl
    | buttonDone =>
      obtain ⟨hs, rfl⟩ := step_buttonDone h
      rw [hs]
      rfl
    | _ => cases hb
  · rw [if_neg hb, (step_kept h).button hb]
    rfl

/-- **what a burst has called and what it has still to call are the calls of its snapshot** -/
theorem burst_run {l : List Ev} : ∀ {s : Sys}, .press ∉ l →
    Runs.run (Sys.step pbDecode cd) s l = some t →
      burstCalls pbDecode cd s l ++ t.button.calls = s.button.calls := by
  induction l with
  | nil =>
    intro s _ h
    rw [run_nil, Option.some.injEq] at h
    rw [h]
    rfl
  | cons e l ih =>
    intro s hpress h
    obtain ⟨u, hu, hl⟩ := run_cons_some.mp h
    have hone := burst_step (fun he => hpress (he ▸ List.mem_cons_self)) hu
    have hrest := ih (fun hm => hpress (List.mem_cons_of_mem e hm)) hl
    simp only [burstCalls, hu]
    rw [List.append_assoc, hrest, hone]

/-- **In every run, a frame is enqueued only while the flag of its kind is set**, except for the
frames the test button sends untested: after every press these are the nine MCU frames, and the
PROTIUM state follows them if its flag is set. -/
theorem never_received (pbDecode : List UInt8 → Option MasterFrame) (cd : Candef)
    (evs : List Ev) (h : Runs.run (Sys.step pbDecode cd) {} evs = some s) :
    (∀ e c, s.putting e = some c → c.Valid s.rs485.data ∨ (e = .buttonSend ∧ c.Untested)) ∧
      ∀ t l u, s.step pbDecode cd .press = some t → .press ∉ l →
        Runs.run (Sys.step pbDecode cd) t l = some u →
        (burstCalls pbDecode cd t l ++ u.button.calls).map Call.field =
          untestedFields ++
            if s.rs485.data.protiumOperatingStateValid then [.protiumState] else [] := by
  have hg := Guarded.run h
  constructor
  · intro e c hc
    rcases putting_some hc with ⟨_, l, hp⟩ | ⟨he, l, hb⟩
    · exact .inl (hg.periodic _ c hp List.mem_cons_self)
    · rcases hg.button _ c hb List.mem_cons_self with hv | hu
      · exact .inl hv
      · exact .inr ⟨he, hu⟩
  · intro t l u ht hl hu
    obtain ⟨_, rfl⟩ := step_press ht
    rw [burst_run hl hu]
    exact testSendAll_field s.rs485.data

end

/-- after a status came, a pass is about to send it; the button is pressed, and its nine frames are
put although no faults were received -/
theorem never_received_statusRun :
    ∃ s c t u, Runs.run (Sys.step sampleDecode Candef.bytewise) {} statusRun = some s ∧
      s.putting .act = some c ∧ c.kind = some .status ∧
      (c.Valid s.rs485.data ∨ (Ev.act = .buttonSend ∧ c.Untested)) ∧
      s.step sampleDecode Candef.bytewise .press = some t ∧
      Runs.run (Sys.step sampleDecode Candef.bytewise) t (List.replicate 9 .buttonSend) = some u ∧
      (burstCalls sampleDecode Candef.bytewise t (List.replicate 9 .buttonSend) ++
        u.button.calls).map Call.field = untestedFields :=
  ⟨_, .sendMcuState { state := 3 }, _, _, rfl, by decide, rfl,
    (never_received sampleDecode Candef.bytewise statusRun rfl).1 .act _ (by decide), rfl, rfl,
    (never_received sampleDecode Candef.bytewise statusRun rfl).2 _ _ _ rfl (by simp) rfl⟩

/-- the button is pressed before anything was received: the frame DRIVE is enqueued while the
measurements are not valid -/
theorem press_first :
    ∃ s t, Runs.run (Sys.step sampleDecode Candef.bytewise) {} [.press] = some s ∧
      s.putting .buttonSend = some (.sendMcuAnalogSpeed {}) ∧
      s.rs485.data.masterMeasurementsValid = false ∧
      Sys.step sampleDecode Candef.bytewise s .buttonSend = some t ∧
      t.canTx.canTxMsgq.length = 1 :=
  ⟨_, _, rfl, by decide, rfl, rfl, rfl⟩

end Sys

end CCU
