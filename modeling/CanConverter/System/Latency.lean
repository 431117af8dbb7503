import CanConverter.Lib.Wait
import CanConverter.System.Backlog
import CanConverter.System.Flow

/-!
# How long a frame waits in the TX queue

`ages` runs beside the pace and counts, for every queued frame, the wakeups of the periodic thread
since its put.  A frame finds at most 25 frames before it, and a wakeup comes only when three frames
have been taken since the last one or the pass's whole backlog has, so it waits for nine wakeups at
most.
-/

namespace CCU
open Runs Wait

/-- the monitor of the ages of the queued frames, the oldest first -/
def agesUpd (cd : Candef) (ages : List Nat) (p : Pace × Sys) (e : Ev) (_ : Pace × Sys) : List Nat :=
  match e with
  | .wake => ages.map (· + 1)
  | .tx (.get _) => ages.tail
  | .busOff => []
  | e => (Sys.putFrame? cd p.2 e).elim ages fun _ => ages ++ [0]

structure Aging (ages : List Nat) (m : Pace) (s : Sys) : Prop where
  bounded : Bounded m s
  length : ages.length = s.canTx.canTxMsgq.length
  within : Within 25 3 m.taken ages
  served : s.periodic.pc = .asleep → Served 3 m.taken m.owed ages

section
variable {pbDecode : List UInt8 → Option MasterFrame} {cd : Candef} {ages : List Nat}
  {m m' : Pace} {s t : Sys}

theorem Aging.init : Aging [] {} {} := ⟨Bounded.init, rfl, Within.nil, fun _ => Served.nil⟩

/-- a step that neither reaches the queue nor changes what is taken and owed -/
theorem Aging.of_same (h : Aging ages m s) (hb : Bounded m' t) (hq : t.canTx = s.canTx)
    (ht : m'.taken = m.taken) (ho : m'.owed = m.owed)
    (hp : t.periodic.pc = .asleep → s.periodic.pc = .asleep) : Aging ages m' t := by
  refine ⟨hb, by rw [hq]; exact h.length, by rw [ht]; exact h.within, fun hs => ?_⟩
  rw [ht, ho]
  exact h.served (hp hs)

/-- a call of a sender puts its frame, or nothing -/
theorem Aging.call (h : Aging ages m s) (hb : Bounded m' t) (c : Call)
    (hq : t.canTx = c.exec cd s.canTx) (ht : m'.taken = m.taken) (ho : m'.owed = m.owed)
    (hp : t.periodic.pc = .asleep → s.periodic.pc = .asleep) :
    Aging ((c.enqueued cd s.canTx).elim ages fun _ => ages ++ [0]) m' t := by
  have hlen : t.canTx.canTxMsgq.length =
      ages.length + (c.enqueued cd s.canTx).toList.length := by
    rw [Fifo.length, hq, Call.exec_items, List.length_append, h.length]
    rfl
  cases hf : c.enqueued cd s.canTx with
  | none =>
    rw [hf] at hlen
    exact ⟨hb, hlen.symm, by rw [ht]; exact h.within, fun hs => by rw [ht, ho]; exact h.served (hp hs)⟩
  | some f =>
    rw [hf] at hlen
    refine ⟨hb, ?_, ?_, fun hs => ?_⟩
    · exact (List.length_append ..).trans hlen.symm
    · rw [ht]
      exact h.within.put
    · rw [ht, ho]
      exact (h.served (hp hs)).put

theorem Aging.wake (h : Aging ages m s) (ho : m.owed = 0)
    (hs : Sys.step pbDecode cd s .wake = some t) :
    Aging (ages.map (· + 1)) (m.upd s .wake t) t := by
  have hb := h.bounded.wake ho hs
  have hlen := h.bounded.length_le
  have hserved := h.served (Sys.step_wake hs).1
  rw [ho] at hserved
  have hq : t.canTx = s.canTx := by
    obtain ⟨_, ⟨_, rfl⟩ | ⟨_, rfl⟩⟩ := Sys.step_wake hs <;> rfl
  have hpc : t.periodic.pc ≠ .asleep := by
    obtain ⟨_, ⟨_, rfl⟩ | ⟨_, rfl⟩⟩ := Sys.step_wake hs <;> rintro ⟨⟩
  have hl := h.length
  refine ⟨hb, by rw [List.length_map, hl, hq], ?_, fun hp => absurd hp hpc⟩
  exact h.within.tick hserved (by omega)

theorem Aging.sleep (h : Aging ages m s) (hs : Sys.step pbDecode cd s .sleep = some t) :
    Aging ages (m.upd s .sleep t) t := by
  have hb := h.bounded.sleep hs
  obtain ⟨_, rfl⟩ := Sys.step_sleep hs
  refine ⟨hb, h.length, h.within, fun _ => ?_⟩
  show Served 3 m.taken (min 3 (m.taken + s.canTx.canTxMsgq.length) - m.taken) ages
  rw [← h.length]
  exact Served.owe 3 m.taken ages

theorem Aging.get (h : Aging ages m s) {frame : CanFrame}
    (hs : Sys.step pbDecode cd s (.tx (.get frame)) = some t) :
    Aging ages.tail (m.upd s (.tx (.get frame)) t) t := by
  have hb := h.bounded.get hs
  obtain ⟨q, u, hget, _, rfl⟩ := Sys.step_txGet hs
  have hlen := h.length
  rw [Fifo.length_get hget] at hlen
  cases ages with
  | nil => cases hlen
  | cons b ages =>
    exact ⟨hb, Nat.succ.inj hlen, h.within.tail, fun hp => (h.served hp).tail⟩

theorem Aging.step {e : Ev} (h : Aging ages m s) (hG : Paced (m, s) e)
    (hs : Sys.step pbDecode cd s e = some t) :
    Aging (agesUpd cd ages (m, s) e (m.upd s e t, t)) (m.upd s e t) t := by
  have hb := h.bounded.step hG hs
  cases e with
  | wake => exact h.wake hG hs
  | sleep => exact h.sleep hs
  | busOff =>
    rw [Sys.step_busOff hs] at hb ⊢
    exact ⟨hb, rfl, Within.nil, fun _ => Served.nil⟩
  | act =>
    obtain ⟨a, l, hp, rfl⟩ := Sys.step_act hs
    show Aging ((Sys.putFrame? cd s .act).elim ages fun _ => ages ++ [0]) m _
    unfold Sys.putFrame?
    rw [hp]
    cases a with
    | send c => exact h.call hb c rfl rfl rfl (by rintro ⟨⟩)
    | _ => exact h.of_same hb rfl rfl rfl (by rintro ⟨⟩)
  | buttonSend =>
    obtain ⟨c, l, hbc, rfl⟩ := Sys.step_buttonSend hs
    show Aging ((Sys.putFrame? cd s .buttonSend).elim ages fun _ => ages ++ [0])
      (m.upd s .buttonSend _) _
    unfold Sys.putFrame?
    rw [hbc]
    exact h.call hb c rfl rfl rfl id
  | tx e =>
    by_cases hg : ∃ frame, e = .get frame
    · obtain ⟨frame, rfl⟩ := hg
      exact h.get hs
    · obtain ⟨u, _, rfl⟩ := Sys.step_tx (fun f hf => hg ⟨f, hf⟩) hs
      cases e with
      | get frame => exact absurd ⟨frame, rfl⟩ hg
      | _ => exact h.of_same hb rfl rfl rfl id
  | snapshot =>
    obtain ⟨_, rfl⟩ := Sys.step_snapshot hs
    exact h.of_same hb rfl rfl rfl (by rintro ⟨⟩)
  | received b =>
    rw [Sys.step_received hs] at hb ⊢
    exact h.of_same hb rfl rfl rfl id
  | press =>
    obtain ⟨_, rfl⟩ := Sys.step_press hs
    exact h.of_same hb rfl rfl rfl id
  | buttonDone =>
    obtain ⟨_, rfl⟩ := Sys.step_buttonDone hs
    exact h.of_same hb rfl rfl rfl id
  | dfuStart =>
    obtain ⟨_, rfl⟩ := Sys.step_dfuStart hs
    exact h.of_same hb rfl rfl rfl id
  | dfuEnd =>
    obtain ⟨_, rfl⟩ := Sys.step_dfuEnd hs
    exact h.of_same hb rfl rfl rfl id

theorem Aging.run {evs : List Ev}
    (hG : Always (watch Pace.upd (Sys.step pbDecode cd)) Paced ({}, {}) evs)
    (h : Runs.run (watch (agesUpd cd) (watch Pace.upd (Sys.step pbDecode cd))) ([], {}, {}) evs =
      some (ages, m, s)) : Aging ages m s := by
  have hi : ∀ (p : List Nat × Pace × Sys) (e : Ev) (q : List Nat × Pace × Sys),
      Aging p.1 p.2.1 p.2.2 → Paced p.2 e →
      watch (agesUpd cd) (watch Pace.upd (Sys.step pbDecode cd)) p e = some q →
      Aging q.1 q.2.1 q.2.2 := by
    intro p e q hp hG hq
    obtain ⟨hw, hages⟩ := watch_some.mp hq
    obtain ⟨ht, hm⟩ := watch_some.mp hw
    rw [hages, hm]
    exact hp.step hG ht
  exact inv_run_of hi Aging.init hG.watch h

/-- **In a paced run no frame waits in the TX queue for more than nine wakeups.** -/
theorem waits_nine_wakeups (pbDecode : List UInt8 → Option MasterFrame) (cd : Candef)
    (evs : List Ev) {ages : List Nat} {m : Pace} {s : Sys}
    (hG : Always (watch Pace.upd (Sys.step pbDecode cd)) Paced ({}, {}) evs)
    (h : Runs.run (watch (agesUpd cd) (watch Pace.upd (Sys.step pbDecode cd))) ([], {}, {}) evs =
      some (ages, m, s)) :
    ages.length = s.canTx.canTxMsgq.length ∧ ∀ a ∈ ages, a ≤ 9 := by
  have ha := Aging.run hG h
  exact ⟨ha.length, ha.within.le (by decide)⟩

theorem waits_nine_wakeups_pacedRun :
    ∃ ages m s, Runs.run
        (watch (agesUpd Candef.bytewise) (watch Pace.upd (Sys.step sampleDecode Candef.bytewise)))
        ([], {}, {}) pacedRun = some (ages, m, s) ∧
      ages.length = s.canTx.canTxMsgq.length ∧ ∀ a ∈ ages, a ≤ 9 :=
  ⟨_, _, _, rfl, waits_nine_wakeups sampleDecode Candef.bytewise pacedRun (by decide) rfl⟩

end

end CCU
