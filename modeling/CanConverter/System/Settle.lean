import CanConverter.Lib.Settle
import CanConverter.System.Step

/-!
# The unit comes to rest

Between two events from outside (a frame of the master, the end of `k_sleep`, a press, DFU, a
bus-off) the threads and the driver make finitely many steps: every call puts one frame at most, and
a frame costs the TX thread and the callback seven steps.  No thread gets stuck on the way: with
nothing left to do the periodic thread sleeps, the button is idle and the TX thread waits for a
frame with the queue and the driver empty.
-/

namespace CCU
open Settle

/-- the steps the threads and the driver make of their own -/
def Ev.Internal : Ev → Prop
  | .snapshot | .act | .sleep | .buttonSend | .buttonDone | .tx _ => True
  | .received _ | .wake | .press | .dfuStart | .dfuEnd | .busOff => False

namespace TxThread

/-- the steps from the place the thread is at to its next `k_msgq_get` -/
def TxPc.work {φ : Type} : TxPc φ → Nat
  | .get => 0
  | .canSend _ => 6
  | .semTake _ => 3
  | .testResult _ => 2
  | .logError _ | .countOk _ => 1

/-- the steps of the thread and of the callbacks that are due -/
def work {φ : Type} (s : TxThread φ) : Nat :=
  TxPc.work s.pc + 2 * s.outstanding.length + s.writing.length

/-- a step of the thread itself, on a frame that the driver has or does not get -/
theorem work_lt_of_pc {φ : Type} {s t : TxThread φ} (ho : t.outstanding = s.outstanding)
    (hw : t.writing = s.writing) (hp : TxPc.work t.pc < TxPc.work s.pc) : t.work < s.work := by
  unfold work
  rw [ho, hw]
  omega

theorem work_step {φ : Type} {s t : TxThread φ} {e : TxEv φ} (he : ∀ frame, e ≠ .get frame)
    (h : s.step e = some t) : t.work < s.work := by
  cases e with
  | get frame => exact absurd rfl (he frame)
  | canSend ret =>
    obtain ⟨frame, hp, ⟨_, rfl⟩ | ⟨_, rfl⟩⟩ := step_canSend h
    · exact work_lt_of_pc rfl rfl (by rw [hp]; exact Nat.zero_lt_succ 5)
    · unfold work
      rw [hp]
      show 3 + 2 * (s.outstanding ++ [s.accepted]).length + s.writing.length <
        6 + 2 * s.outstanding.length + s.writing.length
      rw [List.length_append, List.length_singleton]
      omega
  | semTake =>
    obtain ⟨n, hp, _, rfl⟩ := step_semTake h
    exact work_lt_of_pc rfl rfl (by rw [hp]; exact Nat.lt_succ_self 2)
  | semTimeout =>
    obtain ⟨n, hp, _, rfl⟩ := step_semTimeout h
    exact work_lt_of_pc rfl rfl (by rw [hp]; exact Nat.zero_lt_succ 2)
  | testResult =>
    obtain ⟨n, hp, ⟨_, rfl⟩ | ⟨_, rfl⟩⟩ := step_testResult h
    · exact work_lt_of_pc rfl rfl (by rw [hp]; exact Nat.lt_succ_self 1)
    · exact work_lt_of_pc rfl rfl (by rw [hp]; exact Nat.lt_succ_self 1)
  | logError =>
    obtain ⟨n, hp, rfl⟩ := step_logError h
    exact work_lt_of_pc rfl rfl (by rw [hp]; exact Nat.zero_lt_succ 0)
  | countOk =>
    obtain ⟨n, hp, rfl⟩ := step_countOk h
    exact work_lt_of_pc rfl rfl (by rw [hp]; exact Nat.zero_lt_succ 0)
  | callbackWrite n error =>
    obtain ⟨hn, rfl⟩ := step_callbackWrite h
    have hlen := List.length_erase_of_mem hn
    have hpos := List.length_pos_of_mem hn
    unfold work
    show TxPc.work s.pc + 2 * (s.outstanding.erase n).length + (s.writing ++ [(n, error)]).length <
      TxPc.work s.pc + 2 * s.outstanding.length + s.writing.length
    rw [hlen, List.length_append, List.length_singleton]
    omega
  | callbackGive n error =>
    obtain ⟨hn, rfl⟩ := step_callbackGive h
    have hlen := List.length_erase_of_mem hn
    have hpos := List.length_pos_of_mem hn
    unfold work
    show TxPc.work s.pc + 2 * s.outstanding.length + (s.writing.erase (n, error)).length <
      TxPc.work s.pc + 2 * s.outstanding.length + s.writing.length
    rw [hlen]
    omega

/-- away from `k_msgq_get`, or with a callback due, the thread or the driver can step -/
theorem step_enabled {φ : Type} (s : TxThread φ)
    (h : s.pc ≠ .get ∨ s.outstanding ≠ [] ∨ s.writing ≠ []) :
    ∃ e t, (∀ frame, e ≠ TxEv.get frame) ∧ s.step e = some t := by
  rcases h with h | h | h
  · cases hp : s.pc with
    | get => exact absurd hp h
    | canSend frame =>
      refine ⟨.canSend 1, { s with pc := .get, handed := s.handed ++ [frame] },
        (by rintro _ ⟨⟩), ?_⟩
      simp only [step, hp]
      rfl
    | semTake n =>
      by_cases hz : s.canTxDoneSem = 0
      · refine ⟨.semTimeout, { s with pc := .get }, (by rintro _ ⟨⟩), ?_⟩
        simp only [step, hp, if_pos hz]
      · refine ⟨.semTake, { s with pc := .testResult n, canTxDoneSem := s.canTxDoneSem - 1 },
          (by rintro _ ⟨⟩), ?_⟩
        simp only [step, hp, if_neg hz]
    | testResult n =>
      by_cases hr : s.canTxResult = 0
      · refine ⟨.testResult, { s with pc := .countOk n }, (by rintro _ ⟨⟩), ?_⟩
        simp only [step, hp, if_neg (not_not.mpr hr)]
      · refine ⟨.testResult, { s with pc := .logError n }, (by rintro _ ⟨⟩), ?_⟩
        simp only [step, hp, if_pos hr]
    | logError n =>
      refine ⟨.logError,
        { s with pc := .get, errorsLogged := s.errorsLogged ++ [(n, s.canTxResult)] },
        (by rintro _ ⟨⟩), ?_⟩
      simp only [step, hp]
    | countOk n =>
      refine ⟨.countOk,
        { s with
          pc := .get, canFramesTxOk := s.canFramesTxOk + 1, counted := s.counted ++ [n] },
        (by rintro _ ⟨⟩), ?_⟩
      simp only [step, hp]
  · obtain ⟨n, hn⟩ := List.exists_mem_of_ne_nil _ h
    exact ⟨.callbackWrite n 0, _, (by rintro _ ⟨⟩), if_pos hn⟩
  · obtain ⟨p, hp⟩ := List.exists_mem_of_ne_nil _ h
    exact ⟨.callbackGive p.1 p.2, _, (by rintro _ ⟨⟩), if_pos hp⟩

end TxThread

namespace Sys

/-- the steps of the pass, each with those of a frame that it may put -/
def periodicWork (s : Sys) : Nat :=
  match s.periodic.pc with
  | .asleep => 0
  | .awake => 2 + 8 * (loopBody s.rs485.data s.periodic.cnt).acts.length
  | .running acts => 1 + 8 * acts.length

def buttonWork : Button → Nat
  | .idle => 0
  | .sending calls => 1 + 8 * calls.length

/-- a bound on the steps the unit makes of its own -/
def work (s : Sys) : Nat :=
  7 * s.canTx.canTxMsgq.length + s.periodicWork + buttonWork s.button + s.txThread.work

/-- nothing is left to do -/
structure Quiet (s : Sys) : Prop where
  periodic : s.periodic.pc = .asleep
  button : s.button = .idle
  txThread : s.txThread.pc = .get
  queue : s.canTx.canTxMsgq.items = []
  outstanding : s.txThread.outstanding = []
  writing : s.txThread.writing = []

section
variable {pbDecode : List UInt8 → Option MasterFrame} {cd : Candef} {s t : Sys} {e : Ev}

theorem periodicWork_running {acts : List Act} (h : s.periodic.pc = .running acts) :
    s.periodicWork = 1 + 8 * acts.length := by
  unfold periodicWork
  rw [h]

theorem work_act {a : Act} {l : List Act} (hp : s.periodic.pc = .running (a :: l)) :
    ((s.doAct cd a).setPc (.running l)).work < s.work := by
  have hq : (s.doAct cd a).canTx.canTxMsgq.length ≤ s.canTx.canTxMsgq.length + 1 := by
    cases a with
    | send c => exact Call.exec_length cd c s.canTx
    | _ => exact Nat.le_succ _
  have hw := periodicWork_running hp
  rw [List.length_cons] at hw
  unfold work
  rw [periodicWork_running rfl, button_setPc, txThread_setPc, canTx_setPc, doAct_button,
    doAct_txThread, hw]
  omega

theorem work_tx {e : TxEv CanFrame} (h : step pbDecode cd s (.tx e) = some t) :
    t.work < s.work := by
  by_cases hg : ∃ frame, e = .get frame
  · obtain ⟨frame, rfl⟩ := hg
    obtain ⟨q, u, hget, hu, rfl⟩ := step_txGet h
    obtain ⟨hp, rfl⟩ := TxThread.step_get hu
    have hq := Fifo.length_get hget
    have hold : s.txThread.work =
        0 + 2 * s.txThread.outstanding.length + s.txThread.writing.length := by
      unfold TxThread.work
      rw [hp]
      rfl
    show 7 * q.length + s.periodicWork + buttonWork s.button +
        (6 + 2 * s.txThread.outstanding.length + s.txThread.writing.length) <
      7 * s.canTx.canTxMsgq.length + s.periodicWork + buttonWork s.button + s.txThread.work
    omega
  · have hn : ∀ frame, e ≠ .get frame := fun f hf => hg ⟨f, hf⟩
    obtain ⟨u, hu, rfl⟩ := step_tx hn h
    exact Nat.add_lt_add_left (TxThread.work_step hn hu) _

/-- **every own step lowers the work** -/
theorem work_step (hI : e.Internal) (h : step pbDecode cd s e = some t) : t.work < s.work := by
  cases e with
  | snapshot =>
    obtain ⟨hp, rfl⟩ := step_snapshot h
    have hw : s.periodicWork =
        2 + 8 * (loopBody s.rs485.data s.periodic.cnt).acts.length := by
      unfold periodicWork
      rw [hp]
    unfold work
    rw [periodicWork_running rfl, hw]
    simp only [canTx_setPc, canTx_setCnt, button_setPc, button_setCnt, txThread_setPc,
      txThread_setCnt]
    omega
  | act =>
    obtain ⟨a, l, hp, rfl⟩ := step_act h
    exact work_act hp
  | sleep =>
    obtain ⟨hp, rfl⟩ := step_sleep h
    have hw := periodicWork_running hp
    show 7 * s.canTx.canTxMsgq.length + 0 + buttonWork s.button + s.txThread.work < s.work
    unfold work
    omega
  | buttonSend =>
    obtain ⟨c, l, hb, rfl⟩ := step_buttonSend h
    have hq := Call.exec_length cd c s.canTx
    have hw : buttonWork s.button = 1 + 8 * (l.length + 1) := by rw [hb]; rfl
    show 7 * (c.exec cd s.canTx).canTxMsgq.length + s.periodicWork + (1 + 8 * l.length) +
      s.txThread.work < s.work
    unfold work
    omega
  | buttonDone =>
    obtain ⟨hb, rfl⟩ := step_buttonDone h
    have hw : buttonWork s.button = 1 := by rw [hb]; rfl
    show 7 * s.canTx.canTxMsgq.length + s.periodicWork + 0 + s.txThread.work < s.work
    unfold work
    omega
  | tx e => exact work_tx h
  | _ => exact hI.elim

theorem stopped_quiet (h : Stopped (step pbDecode cd) Ev.Internal s) : s.Quiet := by
  have htx : ∀ e t, (∀ frame, e ≠ TxEv.get frame) → s.txThread.step e ≠ some t := by
    intro e t he ht
    have hnone := h (.tx e) True.intro
    cases e with
    | get frame => exact he frame rfl
    | _ =>
      simp only [step, stepTx, ht, Option.map_some] at hnone
      cases hnone
  have hbusy : ¬ (s.txThread.pc ≠ .get ∨ s.txThread.outstanding ≠ [] ∨ s.txThread.writing ≠ []) := by
    intro hb
    obtain ⟨e, t, he, ht⟩ := s.txThread.step_enabled hb
    exact htx e t he ht
  rw [not_or, not_or, not_not, not_not, not_not] at hbusy
  obtain ⟨hpc, hout, hwr⟩ := hbusy
  refine ⟨?_, ?_, hpc, ?_, hout, hwr⟩
  · cases hp : s.periodic.pc with
    | asleep => rfl
    | awake =>
      have hnone := h .snapshot True.intro
      simp only [step, hp] at hnone
      cases hnone
    | running acts =>
      cases acts with
      | nil =>
        have hnone := h .sleep True.intro
        simp only [step, hp] at hnone
        cases hnone
      | cons a acts =>
        have hnone := h .act True.intro
        simp only [step, hp] at hnone
        cases hnone
  · cases hb : s.button with
    | idle => rfl
    | sending calls =>
      cases calls with
      | nil =>
        have hnone := h .buttonDone True.intro
        simp only [step, hb] at hnone
        cases hnone
      | cons c calls =>
        have hnone := h .buttonSend True.intro
        simp only [step, hb] at hnone
        cases hnone
  · cases hq : s.canTx.canTxMsgq.get with
    | none =>
      cases hi : s.canTx.canTxMsgq.items with
      | nil => rfl
      | cons f l =>
        have hget : s.canTx.canTxMsgq.get ≠ none := by
          intro hn
          unfold Fifo.get at hn
          split at hn
          · rename_i heq
            rw [heq] at hi
            cases hi
          · cases hn
        exact absurd hq hget
    | some p =>
      obtain ⟨f, q⟩ := p
      have hnone := h (.tx (.get f)) True.intro
      simp only [step, stepTx, hq, TxThread.step, hpc] at hnone
      cases hnone

theorem Quiet.stopped (hs : s.Quiet) : Stopped (step pbDecode cd) Ev.Internal s := by
  obtain ⟨hp, hb, hpc, hq, hout, hwr⟩ := hs
  intro e hI
  cases e with
  | tx e =>
    have hget : s.canTx.canTxMsgq.get = none := by
      unfold Fifo.get
      split
      · rfl
      · rename_i heq
        rw [heq] at hq
        cases hq
    cases e with
    | get frame => simp only [step, stepTx, hget]
    | callbackWrite n error =>
      simp only [step, stepTx, TxThread.step, hout, List.not_mem_nil, if_false, Option.map_none]
    | callbackGive n error =>
      simp only [step, stepTx, TxThread.step, hwr, List.not_mem_nil, if_false, Option.map_none]
    | _ => simp only [step, stepTx, TxThread.step, hpc, Option.map_none]
  | snapshot => simp only [step, hp]
  | act => simp only [step, hp]
  | sleep => simp only [step, hp]
  | buttonSend => simp only [step, hb]
  | buttonDone => simp only [step, hb]
  | _ => exact hI.elim

/-- **The unit comes to rest**: left to itself it makes no more than `work` steps, whatever their
order, and it can stop only with the periodic thread asleep, the button idle and the queue, the TX
thread and the driver empty. -/
theorem comes_to_rest (pbDecode : List UInt8 → Option MasterFrame) (cd : Candef) {s t : Sys}
    {evs : List Ev} (h : Settle.Run (step pbDecode cd) Ev.Internal s evs t) :
    evs.length ≤ s.work ∧ (Stopped (step pbDecode cd) Ev.Internal t ↔ t.Quiet) ∧
      ∃ rest u, Settle.Run (step pbDecode cd) Ev.Internal t rest u ∧ u.Quiet := by
  have hdec : ∀ s e t, Ev.Internal e → step pbDecode cd s e = some t → t.work < s.work :=
    fun _ _ _ hI hs => work_step hI hs
  have hlen := h.length hdec
  obtain ⟨rest, u, hrest, hu⟩ := stops hdec t
  exact ⟨by omega, ⟨stopped_quiet, Quiet.stopped⟩, rest, u, hrest, stopped_quiet hu⟩

/-- the first frame of a test burst is put, taken and refused -/
def refusedSteps : List Ev :=
  [.buttonSend, .tx (.get ⟨0x107, 2, canFrameIde, Vector.replicate 8 0⟩), .tx (.canSend 1)]

theorem comes_to_rest_refusedSteps :
    ∃ t, Settle.Run (step sampleDecode Candef.bytewise) Ev.Internal
        { button := .sending (testSendAll {}) } refusedSteps t ∧
      refusedSteps.length ≤ ({ button := .sending (testSendAll {}) } : Sys).work ∧
      (Stopped (step sampleDecode Candef.bytewise) Ev.Internal t ↔ t.Quiet) ∧
      ∃ rest u, Settle.Run (step sampleDecode Candef.bytewise) Ev.Internal t rest u ∧ u.Quiet :=
  have hown : ∀ e ∈ refusedSteps, Ev.Internal e := by simp [refusedSteps, Ev.Internal]
  ⟨_, ⟨hown, rfl⟩, comes_to_rest sampleDecode Candef.bytewise ⟨hown, rfl⟩⟩

end

end Sys

end CCU
