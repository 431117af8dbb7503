import CanConverter.Lib.History
import CanConverter.Frames.Send

/-!
# What `frame_counts` counts

The senders are called in any order, the consumer removes frames and a bus-off purges the queue.
`enqueued` is the monitor that counts, for every field, the calls whose `k_msgq_put` succeeded.

A sender increments its field after a helper that returns nothing and may have dropped the frame, so
a call without room is counted as well.

* `Counted`           `frame_counts` is what was enqueued, modulo `2 ^ 32`;
* `Room`              the frame of the call has a length that fits, and the queue is not full;
* `counted_iff_room`  the counts are right all along a run exactly if every call has room.
-/

namespace CCU
open Runs

/-- what happens to the queue -/
inductive QueueEv where
  | call (c : Call)
  | remove
  | purge
deriving DecidableEq

namespace CanTx
variable (cd : Candef)

def step (tx : CanTx) : QueueEv → Option CanTx
  | .call c => some (c.exec cd tx)
  | .remove => tx.canTxMsgq.get.map fun p => { tx with canTxMsgq := p.2 }
  | .purge => some { tx with canTxMsgq := Fifo.empty }

/-- the monitor: the successful puts of every field -/
def enqueued (n : Field → Nat) (tx : CanTx) (e : QueueEv) (_ : CanTx) : Field → Nat :=
  match e with
  | .call c =>
    if (c.enqueued cd tx).isSome then Function.update n c.field (n c.field + 1) else n
  | _ => n

/-- every field of `frame_counts` is the number of its successful puts -/
def Counted (p : (Field → Nat) × CanTx) : Prop :=
  ∀ f, p.2.frameCounts f = UInt32.ofNat (p.1 f)

/-- a call whose frame is dropped leaves its field alone -/
def LeftAlone (tx : CanTx) : QueueEv → Prop
  | .call c => c.enqueued cd tx = none → (c.exec cd tx).frameCounts c.field = tx.frameCounts c.field
  | _ => True

/-- the frame fits, and there is room for it -/
def Room (tx : CanTx) : QueueEv → Prop
  | .call c => (c.frame cd).isSome = true ∧ tx.canTxMsgq.length < canTxMsgqLen
  | _ => True

instance (tx : CanTx) : DecidablePred (Room cd tx)
  | .call c =>
    inferInstanceAs (Decidable ((c.frame cd).isSome = true ∧ tx.canTxMsgq.length < canTxMsgqLen))
  | .remove | .purge => isTrue True.intro

section
variable {cd} {tx tx' : CanTx} {e : QueueEv} {n : Field → Nat}

theorem exec_frameCounts (c : Call) (tx : CanTx) :
    (c.exec cd tx).frameCounts =
      Function.update tx.frameCounts c.field (tx.frameCounts c.field + 1) := by
  rw [Call.exec_eq]

theorem add_one_ne (a : UInt32) : a + 1 ≠ a := by
  intro h
  have h' : (a.toNat + 1) % 2 ^ 32 = a.toNat := by
    have := congrArg UInt32.toNat h
    rwa [UInt32.toNat_add] at this
  have hlt := a.toNat_lt
  omega

theorem ofNat_add_one (k : Nat) : UInt32.ofNat (k + 1) = UInt32.ofNat k + 1 := UInt32.ofNat_add k 1

theorem room_call {c : Call} : Room cd tx (.call c) ↔ (c.enqueued cd tx).isSome = true :=
  (Call.enqueued_isSome cd c tx).symm

theorem step_frameCounts (he : ∀ c, e ≠ .call c) (hs : step cd tx e = some tx') :
    tx'.frameCounts = tx.frameCounts := by
  cases e with
  | call c => exact absurd rfl (he c)
  | remove =>
    obtain ⟨_, _, rfl⟩ := Option.map_eq_some_iff.mp hs
    rfl
  | purge =>
    rw [← Option.some.inj hs]

/-- a call counts itself in any case -/
theorem leftAlone_iff_room : LeftAlone cd tx e ↔ Room cd tx e := by
  cases e with
  | remove | purge => exact Iff.rfl
  | call c =>
    rw [room_call, Option.isSome_iff_ne_none]
    constructor
    · intro h hn
      have h' := h hn
      rw [exec_frameCounts, Function.update_self] at h'
      exact add_one_ne _ h'
    · intro h hn
      exact absurd hn h

/-- **one step keeps the counts right exactly if a call has room** -/
theorem Counted.step (h : Counted (n, tx)) (hs : CanTx.step cd tx e = some tx') :
    Counted (enqueued cd n tx e tx', tx') ↔ Room cd tx e := by
  have hother : (∀ c, e ≠ .call c) → Counted (n, tx') := by
    intro he f
    rw [show (n, tx').2.frameCounts = tx.frameCounts from step_frameCounts he hs]
    exact h f
  cases e with
  | remove => exact ⟨fun _ => True.intro, fun _ => hother (fun _ => nofun)⟩
  | purge => exact ⟨fun _ => True.intro, fun _ => hother (fun _ => nofun)⟩
  | call c =>
    obtain rfl := Option.some.inj hs
    rw [room_call]
    unfold enqueued Counted
    simp only [exec_frameCounts]
    constructor
    · intro hc
      by_contra hn
      have hf := hc c.field
      rw [if_neg hn, Function.update_self, ← h c.field] at hf
      exact add_one_ne _ hf
    · intro hr f
      rw [if_pos hr]
      by_cases hf : f = c.field
      · rw [hf, Function.update_self, Function.update_self, ofNat_add_one, ← h c.field]
      · rw [Function.update_of_ne hf, Function.update_of_ne hf]
        exact h f

end

/-- **`frame_counts` counts what was really enqueued, and leaves alone the field of a frame that was
dropped, exactly if every call of the run has a frame whose length fits and finds room in the
queue.** -/
theorem counted_iff_room (evs : List QueueEv) (p : (Field → Nat) × CanTx)
    (hrun : Runs.run (watch (enqueued cd) (step cd)) (fun _ => 0, {}) evs = some p) :
    ((∀ pre q, pre <+: evs →
        Runs.run (watch (enqueued cd) (step cd)) (fun _ => 0, {}) pre = some q → Counted q) ∧
      Always (watch (enqueued cd) (step cd)) (fun q e => LeftAlone cd q.2 e) (fun _ => 0, {}) evs) ↔
    Always (watch (enqueued cd) (step cd)) (fun q e => Room cd q.2 e) (fun _ => 0, {}) evs := by
  have hstep : ∀ q e r, Counted q → watch (enqueued cd) (step cd) q e = some r →
      (Counted r ↔ Room cd q.2 e) := by
    rintro ⟨n, tx⟩ e ⟨n', tx'⟩ hq hs
    obtain ⟨hst, hn⟩ := watch_some.mp hs
    rw [show n' = enqueued cd n tx e tx' from hn]
    exact hq.step hst
  have hinit : Counted (fun _ => 0, {}) := fun _ => rfl
  rw [← always_iff_reached hstep hinit hrun]
  constructor
  · exact fun h => h.1
  · exact fun h => ⟨h, h.mono fun _ _ => leftAlone_iff_room.mpr⟩

/-- two frames enqueued, one removed, the other purged -/
def roomRun : List QueueEv :=
  [.call (.sendMcuState {}), .call (.sendMcuFaults {}), .remove, .purge, .call (.sendMcuState {})]

theorem counted_iff_room_roomRun :
    ∃ p, Runs.run (watch (enqueued Candef.bytewise) (step Candef.bytewise)) (fun _ => 0, {})
        roomRun = some p ∧ p.2.frameCounts .mcuState = 2 ∧ Counted p := by
  obtain ⟨p, hrun, hp⟩ : ∃ p, Runs.run (watch (enqueued Candef.bytewise) (step Candef.bytewise))
      (fun _ => 0, {}) roomRun = some p ∧ p.2.frameCounts .mcuState = 2 := ⟨_, rfl, rfl⟩
  have hroom : Always (watch (enqueued Candef.bytewise) (step Candef.bytewise))
      (fun q e => Room Candef.bytewise q.2 e) (fun _ => 0, {}) roomRun := by decide
  have hall := ((counted_iff_room Candef.bytewise roomRun p hrun).mpr hroom).1
  exact ⟨p, hrun, hp, hall roomRun p (List.prefix_refl _) hrun⟩

/-- the queue is full with 32 frames, and the call that finds it so is counted -/
theorem not_counted :
    ∃ p, Runs.run (watch (enqueued Candef.bytewise) (step Candef.bytewise)) (fun _ => 0, {})
        (List.replicate 33 (.call (.sendMcuState {}))) = some p ∧
      p.1 .mcuState = 32 ∧ p.2.frameCounts .mcuState = 33 ∧ p.2.queueFull = 1 := by
  decide +kernel

end CanTx

end CCU
