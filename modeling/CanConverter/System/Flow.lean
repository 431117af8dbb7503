import CanConverter.Lib.Conveyor
import CanConverter.Lib.History
import CanConverter.System.Step

/-!
# The way of a frame from `k_msgq_put` to `can_send`

The periodic thread and the test button put, the TX thread takes and hands on, a bus-off purges.
`Conveyor.upd` is the monitor that numbers the successful puts and follows every frame; it only
looks.

* `putFrame?`          the frame that a step of the unit puts into the queue;
* `Flow`               the monitor and the unit agree, and the conveyor is in order;
* `Flow.step`          one more step of any thread;
* `frames_in_order`    what `can_send` gets, in every run;
* `stale_frames`       what it gets after a bus-off.
-/

namespace CCU
namespace Sys
open Runs

/-- the frame that the step puts into `can_tx_msgq` -/
def putFrame? (cd : Candef) (s : Sys) : Ev → Option CanFrame
  | .act =>
    match s.periodic.pc with
    | .running (.send c :: _) => c.enqueued cd s.canTx
    | _ => none
  | .buttonSend =>
    match s.button with
    | .sending (c :: _) => c.enqueued cd s.canTx
    | _ => none
  | _ => none

/-- the monitor of the way of the frames -/
def flow (cd : Candef) (c : Conveyor CanFrame) (s : Sys) (e : Ev) (_ : Sys) : Conveyor CanFrame :=
  match e with
  | .tx (.get _) => c.get
  | .tx (.canSend _) => c.pass
  | .busOff => c.purge
  | e => (putFrame? cd s e).elim c c.put

/-- the monitor and the unit agree -/
structure Follows (c : Conveyor CanFrame) (s : Sys) : Prop where
  queued : s.canTx.canTxMsgq.items = c.queued.map Prod.snd
  hand : s.txThread.pc.hand = c.hand.map Prod.snd
  handed : s.txThread.handed = c.passed.map Prod.snd

section
variable {pbDecode : List UInt8 → Option MasterFrame} {cd : Candef} {c : Conveyor CanFrame}
  {s t : Sys} {e : Ev}

theorem Follows.init : Follows {} {} := ⟨rfl, rfl, rfl⟩

/-- a step that does not reach the queue -/
theorem Follows.of_same (h : Follows c s) (hq : t.canTx = s.canTx) (ht : t.txThread = s.txThread) :
    Follows c t := by
  obtain ⟨h1, h2, h3⟩ := h
  exact ⟨hq ▸ h1, ht ▸ h2, ht ▸ h3⟩

theorem Follows.begin (h : Follows c s) (cnt : Counters) (pc : PeriodicPc) :
    Follows c ((s.setCnt cnt).setPc pc) :=
  h.of_same rfl rfl

theorem Follows.call (h : Follows c s) (call : Call) (hq : t.canTx = call.exec cd s.canTx)
    (ht : t.txThread = s.txThread) :
    Follows ((call.enqueued cd s.canTx).elim c c.put) t := by
  have hi : t.canTx.canTxMsgq.items = c.queued.map Prod.snd ++ (call.enqueued cd s.canTx).toList := by
    rw [hq, Call.exec_items, h.queued]
  cases hf : call.enqueued cd s.canTx with
  | none =>
    rw [hf, Option.toList_none, List.append_nil] at hi
    exact ⟨hi, ht ▸ h.hand, ht ▸ h.handed⟩
  | some f =>
    rw [hf] at hi
    refine ⟨?_, ht ▸ h.hand, ht ▸ h.handed⟩
    rw [hi]
    show _ = (c.queued ++ [_]).map Prod.snd
    rw [List.map_append]
    rfl

theorem Follows.act (h : Follows c s) {a : Act} {l : List Act}
    (hp : s.periodic.pc = .running (a :: l)) :
    Follows ((putFrame? cd s .act).elim c c.put) ((s.doAct cd a).setPc (.running l)) := by
  unfold putFrame?
  rw [hp]
  cases a with
  | send call => exact h.call call rfl rfl
  | _ => exact h.of_same rfl rfl

/-- a step of the TX thread or of the callback that takes nothing and hands nothing on -/
theorem Follows.wait (h : Follows c s) {u : TxThread CanFrame}
    (hh : u.pc.hand = s.txThread.pc.hand) (hd : u.handed = s.txThread.handed) :
    Follows c { s with txThread := u } := ⟨h.queued, hh.trans h.hand, hd.trans h.handed⟩

theorem Follows.get (h : Follows c s) {frame : CanFrame}
    (hs : step pbDecode cd s (.tx (.get frame)) = some t) : c.hand = none ∧ Follows c.get t := by
  obtain ⟨q, u, hq, hu, rfl⟩ := step_txGet hs
  obtain ⟨hp, rfl⟩ := TxThread.step_get hu
  have hempty : c.hand.map Prod.snd = none := by rw [← h.hand, hp]; rfl
  have hitems : c.queued.map Prod.snd = frame :: q.items :=
    h.queued.symm.trans (Fifo.get_some.mp hq)
  obtain ⟨m, l, hl, hm, hrest⟩ := List.map_eq_cons_iff.mp hitems
  refine ⟨Option.map_eq_none_iff.mp hempty, ?_, ?_, h.handed⟩
  · show q.items = c.queued.tail.map Prod.snd
    rw [hl]
    exact hrest.symm
  · show some frame = c.queued.head?.map Prod.snd
    rw [hl]
    exact congrArg some hm.symm

theorem Follows.canSend (h : Follows c s) {ret : Int}
    (hs : step pbDecode cd s (.tx (.canSend ret)) = some t) : Follows c.pass t := by
  obtain ⟨u, hu, rfl⟩ := step_tx (by rintro _ ⟨⟩) hs
  obtain ⟨frame, hp, hcases⟩ := TxThread.step_canSend hu
  have hhand : c.hand.map Prod.snd = some frame := by rw [← h.hand, hp]; rfl
  have hhanded : s.txThread.handed ++ [frame] = (c.passed ++ c.hand.toList).map Prod.snd := by
    obtain ⟨m, hm, rfl⟩ := Option.map_eq_some_iff.mp hhand
    rw [h.handed, hm, List.map_append]
    rfl
  rcases hcases with ⟨_, rfl⟩ | ⟨_, rfl⟩
  · exact ⟨h.queued, rfl, hhanded⟩
  · exact ⟨h.queued, rfl, hhanded⟩

theorem Follows.tx (h : Follows c s) {e : TxEv CanFrame} (hs : step pbDecode cd s (.tx e) = some t) :
    Follows (flow cd c s (.tx e) t) t := by
  cases e with
  | get frame => exact (h.get hs).2
  | canSend ret => exact h.canSend hs
  | semTake =>
    obtain ⟨u, hu, rfl⟩ := step_tx (by rintro _ ⟨⟩) hs
    obtain ⟨n, hp, _, rfl⟩ := TxThread.step_semTake hu
    exact h.wait (by rw [hp]; rfl) rfl
  | semTimeout =>
    obtain ⟨u, hu, rfl⟩ := step_tx (by rintro _ ⟨⟩) hs
    obtain ⟨n, hp, _, rfl⟩ := TxThread.step_semTimeout hu
    exact h.wait (by rw [hp]; rfl) rfl
  | testResult =>
    obtain ⟨u, hu, rfl⟩ := step_tx (by rintro _ ⟨⟩) hs
    obtain ⟨n, hp, ⟨_, rfl⟩ | ⟨_, rfl⟩⟩ := TxThread.step_testResult hu
    · exact h.wait (by rw [hp]; rfl) rfl
    · exact h.wait (by rw [hp]; rfl) rfl
  | logError =>
    obtain ⟨u, hu, rfl⟩ := step_tx (by rintro _ ⟨⟩) hs
    obtain ⟨n, hp, rfl⟩ := TxThread.step_logError hu
    exact h.wait (by rw [hp]; rfl) rfl
  | countOk =>
    obtain ⟨u, hu, rfl⟩ := step_tx (by rintro _ ⟨⟩) hs
    obtain ⟨n, hp, rfl⟩ := TxThread.step_countOk hu
    exact h.wait (by rw [hp]; rfl) rfl
  | callbackWrite n error =>
    obtain ⟨u, hu, rfl⟩ := step_tx (by rintro _ ⟨⟩) hs
    obtain ⟨_, rfl⟩ := TxThread.step_callbackWrite hu
    exact h.wait rfl rfl
  | callbackGive n error =>
    obtain ⟨u, hu, rfl⟩ := step_tx (by rintro _ ⟨⟩) hs
    obtain ⟨_, rfl⟩ := TxThread.step_callbackGive hu
    exact h.wait rfl rfl

theorem Follows.step (h : Follows c s) (hs : step pbDecode cd s e = some t) :
    Follows (flow cd c s e t) t := by
  cases e with
  | act =>
    obtain ⟨a, l, hp, rfl⟩ := step_act hs
    exact h.act hp
  | buttonSend =>
    obtain ⟨call, l, hb, rfl⟩ := step_buttonSend hs
    show Follows ((putFrame? cd s .buttonSend).elim c c.put) _
    unfold putFrame?
    rw [hb]
    exact h.call call rfl rfl
  | tx e => exact h.tx hs
  | busOff =>
    rw [step_busOff hs]
    exact ⟨rfl, h.hand, h.handed⟩
  | received b => exact h.of_same (by rw [step_received hs]) (by rw [step_received hs])
  | wake =>
    obtain ⟨_, ⟨_, rfl⟩ | ⟨_, rfl⟩⟩ := step_wake hs
    · exact h.begin _ _
    · exact h.of_same rfl rfl
  | snapshot =>
    obtain ⟨_, rfl⟩ := step_snapshot hs
    exact h.begin _ _
  | sleep =>
    obtain ⟨_, rfl⟩ := step_sleep hs
    exact h.of_same rfl rfl
  | press =>
    obtain ⟨_, rfl⟩ := step_press hs
    exact h.of_same rfl rfl
  | buttonDone =>
    obtain ⟨_, rfl⟩ := step_buttonDone hs
    exact h.of_same rfl rfl
  | dfuStart =>
    obtain ⟨_, rfl⟩ := step_dfuStart hs
    exact h.of_same rfl rfl
  | dfuEnd =>
    obtain ⟨_, rfl⟩ := step_dfuEnd hs
    exact h.of_same rfl rfl

/-! ## what the monitor does in a step -/

/-- the monitor makes one of the moves of the conveyor; it takes an item only with an empty hand -/
inductive Moves (c : Conveyor CanFrame) : Conveyor CanFrame → Prop where
  | keep : Moves c c
  | put (frame : CanFrame) : Moves c (c.put frame)
  | get (h : c.hand = none) : Moves c c.get
  | pass : Moves c c.pass
  | purge : Moves c c.purge

theorem moves_elim (o : Option CanFrame) : Moves c (o.elim c c.put) := by
  cases o with
  | none => exact .keep
  | some f => exact .put f

theorem Follows.moves (h : Follows c s) (hs : Sys.step pbDecode cd s e = some t) :
    Moves c (flow cd c s e t) := by
  cases e with
  | tx e =>
    cases e with
    | get frame => exact .get (h.get hs).1
    | canSend ret => exact .pass
    | _ => exact .keep
  | busOff => exact .purge
  | act => exact moves_elim (putFrame? cd s .act)
  | buttonSend => exact moves_elim (putFrame? cd s .buttonSend)
  | _ => exact .keep

theorem Moves.good {d : Conveyor CanFrame} (hm : Moves c d) (h : c.Good) : d.Good := by
  cases hm with
  | keep => exact h
  | put frame => exact h.put frame
  | get hc => exact h.get hc
  | pass => exact h.pass
  | purge => exact h.purge

/-- the monitor agrees with the unit, and nothing is reordered, duplicated or lost -/
structure Flow (p : Conveyor CanFrame × Sys) : Prop where
  follows : Follows p.1 p.2
  good : p.1.Good

theorem Flow.init : Flow ({}, {}) := ⟨Follows.init, Conveyor.Good.init⟩

/-- **one more step of any thread** -/
theorem Flow.step {p q : Conveyor CanFrame × Sys} (h : Flow p)
    (hs : watch (flow cd) (Sys.step pbDecode cd) p e = some q) : Flow q := by
  obtain ⟨hst, hq⟩ := watch_some.mp hs
  refine ⟨?_, ?_⟩
  · rw [hq]
    exact h.follows.step hst
  · rw [hq]
    exact (h.follows.moves hst).good h.good

theorem Flow.run {p q : Conveyor CanFrame × Sys} {evs : List Ev} (h : Flow p)
    (hrun : Runs.run (watch (flow cd) (Sys.step pbDecode cd)) p evs = some q) : Flow q :=
  inv_run (fun _ _ _ hp hs => Flow.step hp hs) h hrun

end

end Sys

end CCU
