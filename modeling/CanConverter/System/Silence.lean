import CanConverter.System.Valid

/-!
# Silence during a firmware update

The DFU flag is tested in one place, at the wakeup of the periodic thread.  Nothing stops the TX
thread from draining the queue or the test button from filling it while a session is active.

* `Quiescent`          nothing is under way that could reach the bus;
* `Hushed.step`        a session that starts in such a state, and in which the button is not
                       pressed, leaves the state so;
* `silent_session`     the same for every run;
* `session_not_silent` otherwise the unit transmits during a session.
-/

namespace CCU
open Runs

namespace Sys

/-- the event puts a frame on `can_tx_msgq` or hands one to `can_send` -/
def Transmits (s : Sys) (e : Ev) : Prop :=
  (∃ c, s.putting e = some c) ∨ ∃ ret frame, e = .tx (.canSend ret) ∧ s.txThread.pc.hand = some frame

/-- the unit does not transmit while a session is active -/
def Silent (s : Sys) (e : Ev) : Prop := s.canDfuIsActive = true → ¬ s.Transmits e

/-- no frame is queued or in the hands of the TX thread, and no call of a sender is to come -/
structure Quiescent (s : Sys) : Prop where
  queue : s.canTx.canTxMsgq.length = 0
  hand : s.txThread.pc.hand = none
  awake : s.periodic.pc ≠ .awake
  periodic : s.periodic.pc.calls = []
  button : s.button.calls = []

instance (s : Sys) : Decidable s.Quiescent :=
  decidable_of_iff (s.canTx.canTxMsgq.length = 0 ∧ s.txThread.pc.hand = none ∧
      s.periodic.pc ≠ .awake ∧ s.periodic.pc.calls = [] ∧ s.button.calls = [])
    ⟨fun ⟨h1, h2, h3, h4, h5⟩ => ⟨h1, h2, h3, h4, h5⟩, fun ⟨h1, h2, h3, h4, h5⟩ =>
      ⟨h1, h2, h3, h4, h5⟩⟩

/-- a session starts when nothing is under way, and the button is not pressed during one -/
def Hush (s : Sys) : Ev → Prop
  | .dfuStart => s.Quiescent
  | .press => s.canDfuIsActive = false
  | _ => True

instance (s : Sys) : ∀ e, Decidable (s.Hush e)
  | .dfuStart => inferInstanceAs (Decidable s.Quiescent)
  | .press => inferInstanceAs (Decidable (s.canDfuIsActive = false))
  | .received _ | .wake | .snapshot | .act | .sleep | .buttonSend | .buttonDone | .dfuEnd | .tx _
  | .busOff => isTrue True.intro

/-- while a session is active nothing is under way -/
def Hushed (s : Sys) : Prop := s.canDfuIsActive = true → s.Quiescent

theorem Hushed.init : Hushed {} := fun h => nomatch h

section
variable {pbDecode : List UInt8 → Option MasterFrame} {cd : Candef} {s t : Sys}

/-- only `k_msgq_get` gives the TX thread a frame -/
theorem hand_step {e : TxEv CanFrame} {u v : TxThread CanFrame} (he : ∀ f, e ≠ .get f)
    (h : u.step e = some v) (hu : u.pc.hand = none) : v.pc.hand = none := by
  cases e with
  | get f => exact absurd rfl (he f)
  | canSend ret =>
    obtain ⟨f, hp, _⟩ := TxThread.step_canSend h
    rw [hp] at hu
    cases hu
  | semTake =>
    obtain ⟨_, _, _, rfl⟩ := TxThread.step_semTake h
    rfl
  | semTimeout =>
    obtain ⟨_, _, _, rfl⟩ := TxThread.step_semTimeout h
    rfl
  | testResult => obtain ⟨_, _, ⟨_, rfl⟩ | ⟨_, rfl⟩⟩ := TxThread.step_testResult h <;> rfl
  | logError =>
    obtain ⟨_, _, rfl⟩ := TxThread.step_logError h
    rfl
  | countOk =>
    obtain ⟨_, _, rfl⟩ := TxThread.step_countOk h
    rfl
  | callbackWrite n error =>
    obtain ⟨_, rfl⟩ := TxThread.step_callbackWrite h
    exact hu
  | callbackGive n error =>
    obtain ⟨_, rfl⟩ := TxThread.step_callbackGive h
    exact hu

/-- an event that changes neither the flag nor starts a burst -/
theorem Quiescent.step {e : Ev} (hs : s.Quiescent) (hd : s.canDfuIsActive = true)
    (he : e.thread ≠ .dfu) (hp : e ≠ .press) (h : Sys.step pbDecode cd s e = some t) :
    t.Quiescent := by
  obtain ⟨hq, hh, ha, hr, hb⟩ := hs
  cases e with
  | received b =>
    rw [step_received h]
    exact ⟨hq, hh, ha, hr, hb⟩
  | wake =>
    obtain ⟨_, ⟨_, rfl⟩ | ⟨hn, _⟩⟩ := step_wake h
    · exact ⟨hq, hh, (fun h => nomatch h), rfl, hb⟩
    · rw [hd] at hn
      cases hn
  | snapshot => exact absurd (step_snapshot h).1 ha
  | act =>
    obtain ⟨a, l, hp, rfl⟩ := step_act h
    rw [hp, PeriodicPc.calls_cons, List.append_eq_nil_iff] at hr
    have hq' : (s.doAct cd a).canTx = s.canTx := by
      cases a with
      | send c => cases hr.1
      | _ => rfl
    refine ⟨?_, ?_, (fun h => nomatch h), hr.2, ?_⟩
    · rw [canTx_setPc, hq']
      exact hq
    · rw [txThread_setPc, doAct_txThread]
      exact hh
    · rw [button_setPc, doAct_button]
      exact hb
  | sleep =>
    obtain ⟨_, rfl⟩ := step_sleep h
    exact ⟨hq, hh, (fun h => nomatch h), rfl, hb⟩
  | press => exact absurd rfl hp
  | buttonSend =>
    obtain ⟨c, l, hs, _⟩ := step_buttonSend h
    rw [hs] at hb
    cases hb
  | buttonDone =>
    obtain ⟨_, rfl⟩ := step_buttonDone h
    exact ⟨hq, hh, ha, hr, rfl⟩
  | dfuStart => exact absurd rfl he
  | dfuEnd => exact absurd rfl he
  | tx e =>
    by_cases hg : ∃ frame, e = .get frame
    · obtain ⟨frame, rfl⟩ := hg
      obtain ⟨q, u, hget, _, _⟩ := step_txGet h
      have hlen := Fifo.length_get hget
      omega
    · have hn : ∀ f, e ≠ .get f := fun f hf => hg ⟨f, hf⟩
      obtain ⟨u, hu, rfl⟩ := step_tx hn h
      exact ⟨hq, hand_step hn hu hh, ha, hr, hb⟩
  | busOff =>
    rw [step_busOff h]
    exact ⟨rfl, hh, ha, hr, hb⟩

theorem Hushed.step {e : Ev} (hs : Hushed s) (hG : s.Hush e)
    (h : Sys.step pbDecode cd s e = some t) : Hushed t := by
  intro hd
  by_cases he : e.thread = .dfu
  · cases e with
    | dfuStart =>
      obtain ⟨_, rfl⟩ := step_dfuStart h
      obtain ⟨h1, h2, h3, h4, h5⟩ : s.Quiescent := hG
      exact ⟨h1, h2, h3, h4, h5⟩
    | dfuEnd =>
      obtain ⟨_, rfl⟩ := step_dfuEnd h
      cases hd
    | _ => cases he
  · rw [(step_kept h).dfu he] at hd
    refine (hs hd).step hd he (fun hp => ?_) h
    rw [hp] at hG
    have hG' : s.canDfuIsActive = false := hG
    rw [hd] at hG'
    cases hG'

/-- what is quiescent does not transmit -/
theorem Quiescent.not_transmits (hs : s.Quiescent) (e : Ev) : ¬ s.Transmits e := by
  rintro (⟨c, hc⟩ | ⟨_, frame, _, hp⟩)
  · rcases putting_some hc with ⟨_, l, hp⟩ | ⟨_, l, hb⟩
    · have hcalls := hs.periodic
      rw [hp] at hcalls
      cases hcalls
    · have hcalls := hs.button
      rw [hb] at hcalls
      cases hcalls
  · rw [hs.hand] at hp
    cases hp

end

/-- **Sessions that start when nothing is under way, without a press of the button, are silent.** -/
theorem silent_session (pbDecode : List UInt8 → Option MasterFrame) (cd : Candef) {evs : List Ev}
    (h : Always (Sys.step pbDecode cd) Hush {} evs) :
    Always (Sys.step pbDecode cd) Silent {} evs := by
  have hi := Always.with_inv (fun _ _ _ hs hG ht => Hushed.step hs hG ht) Hushed.init h
  exact hi.mono fun s e hs hd => (hs.1 hd).not_transmits e

/-- a wakeup queues the state, and a session starts -/
def backlogRun : List Ev :=
  [.received statusRunningBytes, .wake, .snapshot, .act, .sleep, .dfuStart, .tx (.get runningFrame)]

/-- the same with a session that starts after the frame has gone out -/
def drainedRun : List Ev :=
  [.received statusRunningBytes, .wake, .snapshot, .act, .sleep, .tx (.get runningFrame),
    .tx (.canSend 0), .dfuStart, .wake, .sleep]

theorem silent_session_drainedRun :
    (∃ s, run (Sys.step sampleDecode Candef.bytewise) {} drainedRun = some s ∧
      s.canDfuIsActive = true) ∧
    Always (Sys.step sampleDecode Candef.bytewise) Silent {} drainedRun :=
  ⟨⟨_, rfl, rfl⟩, silent_session sampleDecode Candef.bytewise (by decide)⟩

/-- the backlog goes out during the session, and the button puts frames during one -/
theorem session_not_silent :
    (∃ s, run (Sys.step sampleDecode Candef.bytewise) {} backlogRun = some s ∧
      s.canDfuIsActive = true ∧ s.Transmits (.tx (.canSend 0))) ∧
    ∃ s, run (Sys.step sampleDecode Candef.bytewise) {} [.dfuStart, .press] = some s ∧
      s.canDfuIsActive = true ∧ s.Transmits .buttonSend :=
  ⟨⟨_, rfl, rfl, .inr ⟨0, runningFrame, rfl, rfl⟩⟩, _, rfl, rfl, .inl ⟨_, rfl⟩⟩

end Sys

end CCU
